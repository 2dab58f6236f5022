import NotificationPlatform.Segments.Last
import NotificationPlatform.Observability.Logger

/-!
# What a query error says

An error that carries a query says in its message, and again on the header of its stack, what was
bound to the statement. `withheldQueryOrNot` keeps the lines of the stack that look like frames.
Two errors that differ in what a query error withholds are serialised alike exactly when the headers
of their stacks hold the same lines that look like frames (`serializeError_withholds`).
-/

namespace NotificationPlatform

namespace Observability

open Utf16

/-! ## Lines -/

theorem isFrame_nil : isFrame [] = false := by decide

/-- Lines that look like frames are read off the text they are joined to. -/
theorem join_inj {lines lines' : List Text}
    (hlines : ∀ line ∈ lines, newline ∉ line ∧ isFrame line = true)
    (hlines' : ∀ line ∈ lines', newline ∉ line ∧ isFrame line = true) :
    [newline].intercalate lines = [newline].intercalate lines' ↔ lines = lines' := by
  refine ⟨fun h => ?_, fun h => h ▸ rfl⟩
  have hsplit (ls : List Text) (hls : ∀ line ∈ ls, newline ∉ line ∧ isFrame line = true) :
      ls = (([newline].intercalate ls).splitOn newline).filter isFrame := by
    cases ls with
    | nil => simp [isFrame_nil]
    | cons first rest =>
      rw [List.splitOn_intercalate _ (fun line hline => (hls line hline).1) nofun]
      exact (List.filter_eq_self.2 fun line hline => (hls line hline).2).symm
  rw [hsplit lines hlines, hsplit lines' hlines', h]

/-! ## Stacks -/

/-- A stack: a header of any number of lines and the frames under it. -/
def trace (header : Text) (frames : List Text) : Text :=
  header ++ frames.flatMap (newline :: ·)

/-- The lines of a header that look like frames. -/
def kept (header : Text) : List Text := (header.splitOn newline).filter isFrame

variable {header header' : Text} {lines : List Text}

theorem splitOn_trace (hlines : ∀ line ∈ lines, newline ∉ line) :
    (trace header lines).splitOn newline = header.splitOn newline ++ lines := by
  induction lines generalizing header with
  | nil => simp [trace]
  | cons line lines ih =>
    have htrace : trace header (line :: lines) = header ++ newline :: trace line lines := by
      simp [trace]
    have hline : newline ∉ line := hlines line List.mem_cons_self
    rw [htrace, List.splitOn_append_cons_self,
      ih fun other hother => hlines other (List.mem_cons_of_mem _ hother),
      List.splitOn_eq_singleton hline, List.singleton_append]

/-- Two stacks over the same frames are withheld alike when their headers keep the same lines. -/
theorem frames_trace (hlines : ∀ line ∈ lines, newline ∉ line) :
    frames (trace header lines) = frames (trace header' lines) ↔ kept header = kept header' := by
  have hkept (text : Text) : ∀ line ∈ kept text ++ lines.filter isFrame,
      newline ∉ line ∧ isFrame line = true := by
    intro line hline
    rcases List.mem_append.1 hline with hline | hline
    · exact ⟨Segments.not_mem_of_mem_splitOn (List.mem_filter.1 hline).1, (List.mem_filter.1 hline).2⟩
    · exact ⟨hlines line (List.mem_filter.1 hline).1, (List.mem_filter.1 hline).2⟩
  rw [frames, frames, splitOn_trace hlines, splitOn_trace hlines, List.filter_append,
    List.filter_append]
  exact (join_inj (hkept header) (hkept header')).trans (List.append_left_inj _)

/-! ## Errors that differ in what is withheld -/

/-- Stacks with the same frames, and their headers. -/
inductive SameFrames : Option Text → Option Text → Option (Text × Text) → Prop
  | absent : SameFrames none none none
  | traced (header header' : Text) (lines : List Text) (hlines : ∀ line ∈ lines, newline ∉ line) :
    SameFrames (some (trace header lines)) (some (trace header' lines)) (some (header, header'))

variable {ι : Type}

/-- Errors that are equal, or carry a query and differ in it, in the message and in the header of
the stack alone. -/
inductive Differ (error : ErrorObject ι) : ErrorObject ι → Option (Text × Text) → Prop
  | same : Differ error error none
  | withheld (query message : Text) (stack : Option Text) {headers : Option (Text × Text)}
    (hquery : error.query.isSome = true) (hstack : SameFrames error.stack stack headers) :
    Differ error { error with query := some query, message := message, stack := stack } headers

/-- The headers keep the same lines. -/
def KeptAlike (headers : Option (Text × Text)) : Prop :=
  ∀ header header', headers = some (header, header') → kept header = kept header'

variable {error error' : ErrorObject ι} {headers : Option (Text × Text)}

theorem Differ.identity (h : Differ error error' headers) :
    error.name = error'.name ∧ error.code = error'.code ∧ error.cause = error'.cause := by
  cases h with
  | same => exact ⟨rfl, rfl, rfl⟩
  | withheld => exact ⟨rfl, rfl, rfl⟩

theorem withheldQueryOrNot_query (h : error.query.isSome = true) : withheldQueryOrNot error =
    (ofString "A database query failed. Its statement and parameters are withheld.",
      some (frames (error.stack.getD []))) := by
  have hnone : error.query.isNone = false := by simpa using h
  simp [withheldQueryOrNot, hnone]

theorem keptAlike_none : KeptAlike none := nofun

theorem keptAlike_some : KeptAlike (some (header, header')) ↔ kept header = kept header' := by
  simp [KeptAlike]

theorem SameFrames.frames_eq_iff {stack stack' : Option Text}
    (h : SameFrames stack stack' headers) :
    frames (stack.getD []) = frames (stack'.getD []) ↔ KeptAlike headers := by
  cases h with
  | absent => exact ⟨fun _ => keptAlike_none, fun _ => rfl⟩
  | traced header header' lines hlines => exact (frames_trace hlines).trans keptAlike_some.symm

/-- The two are withheld alike when their headers keep the same lines. -/
theorem Differ.withheldQueryOrNot_eq_iff (h : Differ error error' headers) :
    withheldQueryOrNot error = withheldQueryOrNot error' ↔ KeptAlike headers := by
  cases h with
  | same => exact ⟨fun _ => keptAlike_none, fun _ => rfl⟩
  | withheld query message stack hquery hstack =>
    rw [withheldQueryOrNot_query hquery, withheldQueryOrNot_query rfl, ← hstack.frames_eq_iff]
    simp

/-! ## Chains -/

section

variable {errors errors' : ι → ErrorObject ι} {headers : ι → Option (Text × Text)}
  {depth : Nat} {name cause : ι} {thrown : Thrown ι}

theorem serializeError_eq_of_other (h : ∀ name, thrown ≠ .error name) :
    serializeError errors depth thrown = serializeError errors' depth thrown := by
  cases depth with
  | zero => rfl
  | succ depth =>
    cases thrown with
    | error name => exact absurd rfl (h name)
    | _ => rfl

/-- The record of an error whose cause comes out alike is the same when what it says of the error
itself is, or when there is none. -/
theorem serializeError_succ_eq_iff (hdiffer : Differ (errors name) (errors' name) (headers name)) :
    serializeError errors (depth + 1) (.error name) =
        serializeError errors' (depth + 1) (.error name) ↔
      serializeError errors depth (errors name).cause =
          serializeError errors' depth (errors name).cause ∧
        ((serializeError errors (depth + 1) (.error name)).isSome = true →
          KeptAlike (headers name)) := by
  obtain ⟨hname, hcode, hcause⟩ := hdiffer.identity
  have hwithheld := hdiffer.withheldQueryOrNot_eq_iff
  rw [Prod.ext_iff] at hwithheld
  have hrecord (result result' : Option Serialized) :
      Serialized.error (errors name).name (withheldQueryOrNot (errors name)).1
          (withheldQueryOrNot (errors name)).2 (errors name).code result =
        .error (errors' name).name (withheldQueryOrNot (errors' name)).1
          (withheldQueryOrNot (errors' name)).2 (errors' name).code result' ↔
        result = result' ∧ KeptAlike (headers name) := by
    rw [Serialized.error.injEq, ← hwithheld]
    constructor
    · rintro ⟨-, hmessage, hstack, -, hresult⟩
      exact ⟨hresult, hmessage, hstack⟩
    · rintro ⟨hresult, hmessage, hstack⟩
      exact ⟨hname, hmessage, hstack, hcode, hresult⟩
  simp only [serializeError, ← hcause]
  split
  · rename_i hundefined
    rw [hundefined, Option.some.injEq, hrecord]
    simpa using fun _ => serializeError_eq_of_other (by simp)
  · cases serializeError errors depth (errors name).cause <;>
      cases serializeError errors' depth (errors name).cause <;> simp [hrecord]

/-- Whether the chain of causes ends does not depend on what is withheld. -/
theorem causes_eq (hdiffer : ∀ name, Differ (errors name) (errors' name) (headers name)) :
    Causes errors = Causes errors' := by
  funext name cause
  simp only [Causes, (hdiffer name).identity.2.2]

/-- Errors that are kept alike all along a chain are serialised alike. -/
theorem serializeError_eq (hdiffer : ∀ name, Differ (errors name) (errors' name) (headers name))
    (hkept : ∀ name, LeadsTo errors thrown name → KeptAlike (headers name)) :
    serializeError errors depth thrown = serializeError errors' depth thrown := by
  induction depth generalizing thrown with
  | zero => rfl
  | succ depth ih =>
    cases thrown with
    | error name =>
      refine (serializeError_succ_eq_iff (hdiffer name)).mpr
        ⟨ih fun last hlast => ?_, fun _ => hkept name ⟨name, rfl, .refl⟩⟩
      obtain ⟨first, hfirst, hleads⟩ := hlast
      exact hkept last ⟨name, rfl, hleads.head hfirst⟩
    | _ => exact serializeError_eq_of_other nofun

/-- Errors that are serialised alike are kept alike all along the chain. -/
theorem keptAlike_of_eq (hdiffer : ∀ name, Differ (errors name) (errors' name) (headers name))
    (hleads : Relation.ReflTransGen (Causes errors) name cause)
    (hsome : (serializeError errors depth (.error name)).isSome = true)
    (heq : serializeError errors depth (.error name) = serializeError errors' depth (.error name)) :
    KeptAlike (headers cause) := by
  induction hleads using Relation.ReflTransGen.head_induction_on generalizing depth with
  | refl =>
    cases depth with
    | zero => cases hsome
    | succ depth => exact ((serializeError_succ_eq_iff (hdiffer cause)).mp heq).2 hsome
  | @head name next hnext _ ih =>
    cases depth with
    | zero => cases hsome
    | succ depth =>
      have hcause := ((serializeError_succ_eq_iff (hdiffer name)).mp heq).1
      rw [show (errors name).cause = .error next from hnext] at hcause
      exact ih (serializeError_cause hnext hsome) hcause

/-- Two graphs of errors that differ in what is withheld are serialised alike from what was thrown
exactly when, unless its chain of causes has no end, the headers of every error on the chain keep
the same lines. -/
theorem serializeError_withholds
    (hdiffer : ∀ name, Differ (errors name) (errors' name) (headers name)) :
    (∀ depth, serializeError errors depth thrown = serializeError errors' depth thrown) ↔
      (Ends errors thrown → ∀ name, LeadsTo errors thrown name → KeptAlike (headers name)) := by
  constructor
  · rintro heq hends name ⟨first, rfl, hleads⟩
    obtain ⟨depth, hsome⟩ := exists_serializeError_iff.mpr hends
    exact keptAlike_of_eq hdiffer hleads hsome (heq depth)
  · intro h depth
    by_cases hends : Ends errors thrown
    · exact serializeError_eq hdiffer (h hends)
    · have hends' : ¬ Ends errors' thrown := by
        rwa [Ends, ← causes_eq hdiffer]
      have hnone : serializeError errors depth thrown = none :=
        Option.not_isSome_iff_eq_none.1 fun hsome =>
          hends (exists_serializeError_iff.mp ⟨depth, hsome⟩)
      have hnone' : serializeError errors' depth thrown = none :=
        Option.not_isSome_iff_eq_none.1 fun hsome =>
          hends' (exists_serializeError_iff.mp ⟨depth, hsome⟩)
      rw [hnone, hnone']

end

namespace Sample

/-- What a statement that failed is reported with, and the text bound to it. -/
def message (body : Text) : Text :=
  ofString "Failed query: insert into notifications (rendered_body) values ($1)\nparams: " ++ body

def headerLine (body : Text) : Text := ofString "Error: " ++ message body

def failedQuery (body : Text) : ErrorObject Unit where
  name := ofString "Error"
  message := message body
  stack := some (trace (headerLine body) [ofString "    at doWrite (repo.ts:1:1)"])
  query := some (ofString "insert into notifications (rendered_body) values ($1)")
  code := none
  cause := .primitive .undefined

theorem differ_failedQuery (body body' : Text) :
    Differ (failedQuery body) (failedQuery body') (some (headerLine body, headerLine body')) :=
  .withheld _ _ _ rfl (.traced _ _ _ (by decide))

end Sample

theorem serializeError_withholds_shipped :
    serializeError (fun _ => Sample.failedQuery (ofString "Your order has shipped, Maria")) 1
        (.error ()) =
      serializeError (fun _ => Sample.failedQuery (ofString "Call me\nback, John")) 1
        (.error ()) := by
  refine (serializeError_withholds fun _ => Sample.differ_failedQuery _ _).mpr
    (fun _ _ _ => keptAlike_some.mpr ?_) 1
  decide +kernel

/-- A body with a line that looks like a frame is found in the record. -/
theorem serializeError_withholds_fails :
    ¬ ∀ (ι : Type) (errors errors' : ι → ErrorObject ι) (headers : ι → Option (Text × Text))
        (thrown : Thrown ι), (∀ name, Differ (errors name) (errors' name) (headers name)) →
      ∀ depth, serializeError errors depth thrown = serializeError errors' depth thrown := by
  intro h
  let errors (body : Text) (_ : Unit) : ErrorObject Unit := Sample.failedQuery body
  have hdiffer : ∀ name, Differ (errors (ofString "We meet\nat 5 Oak Street") name)
      (errors (ofString "We meet\nat noon") name)
      (some (Sample.headerLine (ofString "We meet\nat 5 Oak Street"),
        Sample.headerLine (ofString "We meet\nat noon"))) :=
    fun _ => Sample.differ_failedQuery _ _
  have hkept := keptAlike_of_eq hdiffer .refl rfl (h Unit _ _ _ (.error ()) hdiffer 1)
  exact absurd (keptAlike_some.mp hkept) (by decide +kernel)

end Observability

end NotificationPlatform
