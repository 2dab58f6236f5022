import NotificationPlatform.Base64.Url
import NotificationPlatform.Json.Parse

/-!
# Pagination cursors

`packages/composition/src/notification/notification-query.service.ts`, as far as it writes and reads
cursors. HMAC-SHA256 under `cursorSigningKey` is a parameter.
-/

namespace NotificationPlatform

namespace NotificationQueryService

open Utf16 (Text ofString toUtf8 ofUtf8 IsAscii)
open Json (Tree)

structure CursorPayload where
  createdAt : Text
  id : Text

namespace CursorPayload

variable (payload : CursorPayload)

def fields : List (Text × Text) :=
  [(ofString "createdAt", payload.createdAt), (ofString "id", payload.id)]

/-- The payload as `JSON.parse` gives it back. -/
def tree : Tree := .object (Json.stringMembers payload.fields)

/-- The first part of a cursor. -/
def encoded : Text :=
  Base64.encode (toUtf8 (Json.stringify (.object (Json.stringFields payload.fields))))

end CursorPayload

/-- What `decodeCursor` throws. -/
inductive Thrown where
  | domainError (code message : String)
  | syntaxError
deriving DecidableEq

def invalidCursor : Thrown :=
  .domainError "invalid_cursor" "The pagination cursor is not valid."

/-- `.`, between the two parts of a cursor. -/
def dot : UInt16 := 46

section

variable (hmac : List UInt8 → List UInt8)

def signCursor (encoded : Text) : Text := Base64.encode (hmac (toUtf8 encoded))

def encodeCursor (payload : CursorPayload) : Text :=
  payload.encoded ++ dot :: signCursor hmac payload.encoded

/-- `split` leaves out what follows a second separator. -/
def decodeCursor : Option Text → Except Thrown (Option Tree)
  | none => .ok none
  | some cursor =>
    match (cursor.splitOn dot).take 2 with
    | [encoded, signature] =>
      let suppliedBuffer := toUtf8 signature
      let expectedBuffer := toUtf8 (signCursor hmac encoded)
      if suppliedBuffer.length ≠ expectedBuffer.length ∨ suppliedBuffer ≠ expectedBuffer then
        .error invalidCursor
      else
        match Json.parse (ofUtf8 (Base64.decode encoded)) with
        | some parsed => .ok (some parsed)
        | none => .error .syntaxError
    | _ => .error invalidCursor

/-- The string has the second part of a cursor that was issued, if that part is any signature. -/
def Unforged (issued : CursorPayload → Prop) (cursor : Text) : Prop :=
  ∀ encoded signature message, (cursor.splitOn dot).take 2 = [encoded, signature] →
    signature = Base64.encode (hmac message) →
      ∃ payload, issued payload ∧ signature = signCursor hmac payload.encoded

end

/-! ## The parts of a cursor -/

theorem dot_not_mem_encode (l : List UInt8) : dot ∉ Base64.encode l := by
  intro hmem
  obtain ⟨n, hn, hdot⟩ := Base64.isDigit_of_mem_encode dot hmem
  have hne : ∀ n < 64, dot ≠ Base64.digit n := by decide
  exact hne n hn hdot

theorem dot_not_mem_encoded (payload : CursorPayload) : dot ∉ payload.encoded :=
  dot_not_mem_encode _

theorem dot_not_mem_signCursor (hmac : List UInt8 → List UInt8) (encoded : Text) :
    dot ∉ signCursor hmac encoded := dot_not_mem_encode _

theorem split_encodeCursor (hmac : List UInt8 → List UInt8) (payload : CursorPayload) :
    ((encodeCursor hmac payload).splitOn dot).take 2 =
      [payload.encoded, signCursor hmac payload.encoded] := by
  rw [encodeCursor, List.splitOn_append_cons_self_of_not_mem (dot_not_mem_encoded payload),
    List.splitOn_eq_singleton (dot_not_mem_signCursor hmac _)]
  rfl

/-- A cursor with more after another separator is taken apart as the cursor is. -/
theorem split_extended (hmac : List UInt8 → List UInt8) (payload : CursorPayload) (rest : Text) :
    ((encodeCursor hmac payload ++ dot :: rest).splitOn dot).take 2 =
      [payload.encoded, signCursor hmac payload.encoded] := by
  rw [encodeCursor, List.append_assoc, List.cons_append,
    List.splitOn_append_cons_self_of_not_mem (dot_not_mem_encoded payload),
    List.splitOn_append_cons_self_of_not_mem (dot_not_mem_signCursor hmac _)]
  rfl

/-- What a string is whose first two parts these are. -/
theorem eq_of_split {encoded signature cursor : Text}
    (h : (cursor.splitOn dot).take 2 = [encoded, signature]) :
    cursor = encoded ++ dot :: signature ∨
      ∃ rest, cursor = encoded ++ dot :: signature ++ dot :: rest := by
  have hjoin : [dot].intercalate (cursor.splitOn dot) = cursor := List.intercalate_splitOn dot
  match hsplit : cursor.splitOn dot, h with
  | [_, _], h =>
    cases h
    rw [hsplit] at hjoin
    exact .inl (by rw [← hjoin]; simp [List.intercalate])
  | _ :: _ :: third :: more, h =>
    cases h
    rw [hsplit] at hjoin
    refine .inr ⟨[dot].intercalate (third :: more), ?_⟩
    rw [← hjoin]
    simp [List.intercalate]

/-- A cursor has one separator. -/
theorem encodeCursor_ne (hmac : List UInt8 → List UInt8) (p q : CursorPayload) (rest : Text) :
    encodeCursor hmac p ++ dot :: rest ≠ encodeCursor hmac q := by
  intro h
  have hcount := congrArg (List.count dot) h
  have hparts : ∀ l : List UInt8, (Base64.encode l).count dot = 0 := fun l =>
    List.count_eq_zero.2 (dot_not_mem_encode l)
  simp only [encodeCursor, CursorPayload.encoded, signCursor, List.count_append,
    List.count_cons_self, hparts] at hcount
  omega

/-! ## Reading a cursor -/

theorem parse_encoded (payload : CursorPayload) :
    Json.parse (ofUtf8 (Base64.decode payload.encoded)) = some payload.tree := by
  rw [CursorPayload.encoded, Base64.decode_encode,
    Utf16.ofUtf8_toUtf8 (Json.isUnicode_stringify payload.fields)]
  exact Json.parse_stringify payload.fields

theorem decodeCursor_of_split {hmac : List UInt8 → List UInt8} {cursor : Text}
    {payload : CursorPayload}
    (h : (cursor.splitOn dot).take 2 = [payload.encoded, signCursor hmac payload.encoded]) :
    decodeCursor hmac (some cursor) = .ok (some payload.tree) := by
  simp [decodeCursor, h, parse_encoded]

/-- Either the first two parts are signed, or the answer is `invalid_cursor`. -/
theorem decodeCursor_cases (hmac : List UInt8 → List UInt8) (cursor : Text) :
    decodeCursor hmac (some cursor) = .error invalidCursor ∨
      ∃ encoded, (cursor.splitOn dot).take 2 = [encoded, signCursor hmac encoded] := by
  rw [decodeCursor]
  split
  · rename_i encoded signature hsplit
    by_cases hsigned : toUtf8 signature = toUtf8 (signCursor hmac encoded)
    · have hascii : IsAscii (signCursor hmac encoded) := Base64.isAscii_encode _
      obtain rfl := Utf16.eq_of_toUtf8_eq hascii hsigned
      exact .inr ⟨encoded, hsplit⟩
    · exact .inl (if_pos (.inr hsigned))
  · exact .inl rfl

/-- A string whose first two parts are signed starts with a cursor that was issued. -/
theorem Unforged.issued {hmac : List UInt8 → List UInt8} {issued : CursorPayload → Prop}
    {cursor encoded : Text} (hhmac : Function.Injective hmac) (h : Unforged hmac issued cursor)
    (hsplit : (cursor.splitOn dot).take 2 = [encoded, signCursor hmac encoded]) :
    ∃ payload, issued payload ∧ encoded = payload.encoded := by
  obtain ⟨payload, hissued, hsignature⟩ := h encoded _ (toUtf8 encoded) hsplit rfl
  have hmessage : toUtf8 encoded = toUtf8 payload.encoded :=
    hhmac (Base64.encode_injective hsignature)
  have hascii : IsAscii payload.encoded := Base64.isAscii_encode _
  exact ⟨payload, hissued, Utf16.eq_of_toUtf8_eq hascii hmessage⟩

section

variable {hmac : List UInt8 → List UInt8} {issued : CursorPayload → Prop} {cursor : Text}

/-- A string is taken for a cursor only if it is one, or is one with more after a separator. -/
theorem Unforged.rejected (hhmac : Function.Injective hmac)
    (hunforged : Unforged hmac issued cursor)
    (hexact : ¬ ∃ payload, issued payload ∧ cursor = encodeCursor hmac payload)
    (hmore : ¬ ∃ payload rest,
      issued payload ∧ cursor = encodeCursor hmac payload ++ dot :: rest) :
    decodeCursor hmac (some cursor) = .error invalidCursor := by
  rcases decodeCursor_cases hmac cursor with herror | ⟨encoded, hsplit⟩
  · exact herror
  · obtain ⟨payload, hissued, rfl⟩ := hunforged.issued hhmac hsplit
    rcases eq_of_split hsplit with hcursor | ⟨rest, hcursor⟩
    · exact absurd ⟨payload, hissued, hcursor⟩ hexact
    · exact absurd ⟨payload, rest, hissued, hcursor⟩ hmore

/-- **A cursor gives its payload back, and what else is presented is rejected, exactly if it is no
cursor with more after a separator.** -/
theorem decodeCursor_integrity (hhmac : Function.Injective hmac)
    (hunforged : Unforged hmac issued cursor) :
    (∀ payload, decodeCursor hmac (some (encodeCursor hmac payload)) = .ok (some payload.tree)) ∧
      (((∀ v, decodeCursor hmac (some cursor) = .ok v →
          ∃ payload, issued payload ∧ cursor = encodeCursor hmac payload) ∧
        ((¬ ∃ payload, issued payload ∧ cursor = encodeCursor hmac payload) →
          decodeCursor hmac (some cursor) = .error invalidCursor)) ↔
        ¬ ∃ payload rest, issued payload ∧ cursor = encodeCursor hmac payload ++ dot :: rest) := by
  refine ⟨fun payload => decodeCursor_of_split (split_encodeCursor hmac payload), ?_, ?_⟩
  · rintro ⟨honly, -⟩ ⟨payload, rest, -, rfl⟩
    obtain ⟨q, -, hq⟩ := honly _ (decodeCursor_of_split (split_extended hmac payload rest))
    exact encodeCursor_ne hmac payload q rest hq
  · intro hmore
    have hrejected := fun hexact => hunforged.rejected hhmac hexact hmore
    refine ⟨fun v hv => ?_, hrejected⟩
    by_contra hexact
    rw [hrejected hexact] at hv
    cases hv

end

namespace Sample

def payload : CursorPayload where
  createdAt := ofString "2026-03-01T12:00:00.000Z"
  id := ofString "0195a1c2-7f00-7000-8000-000000000001"

/-- The digest of the payload under the key of the bytes from 0 to 31. -/
def digest : List UInt8 :=
  [150, 23, 66, 38, 166, 209, 202, 183, 66, 121, 218, 32, 29, 228, 25, 159, 81, 215, 88, 226, 86,
    62, 220, 240, 179, 119, 142, 10, 0, 241, 249, 249]

/-- Every other message has a digest of its own. -/
def hmac (message : List UInt8) : List UInt8 :=
  if message = toUtf8 payload.encoded then digest else List.replicate 33 0 ++ message

theorem hmac_injective : Function.Injective hmac := by
  have hlength : ∀ message, List.replicate 33 0 ++ message ≠ digest := by
    intro message h
    have hcount := congrArg List.length h
    simp only [List.length_append, List.length_replicate, digest, List.length_cons,
      List.length_nil] at hcount
    omega
  intro m m' h
  by_cases hm : m = toUtf8 payload.encoded <;> by_cases hm' : m' = toUtf8 payload.encoded
  · rw [hm, hm']
  · rw [hmac, hmac, if_pos hm, if_neg hm'] at h
    exact absurd h.symm (hlength m')
  · rw [hmac, hmac, if_neg hm, if_pos hm'] at h
    exact absurd h (hlength m)
  · rw [hmac, hmac, if_neg hm, if_neg hm'] at h
    exact List.append_cancel_left h

def cursor : Text := encodeCursor hmac payload

/-- The cursor with another part. -/
def extended : Text := cursor ++ dot :: ofString "x"

theorem unforged_of_split {c : Text}
    (h : (c.splitOn dot).take 2 = [payload.encoded, signCursor hmac payload.encoded]) :
    Unforged hmac (· = payload) c := by
  intro encoded signature message hsplit _
  rw [h] at hsplit
  cases hsplit
  exact ⟨payload, rfl, rfl⟩

end Sample

theorem decodeCursor_integrity_cursor :
    (∀ p, decodeCursor Sample.hmac (some (encodeCursor Sample.hmac p)) = .ok (some p.tree)) ∧
      (((∀ v, decodeCursor Sample.hmac (some Sample.cursor) = .ok v →
          ∃ p, p = Sample.payload ∧ Sample.cursor = encodeCursor Sample.hmac p) ∧
        ((¬ ∃ p, p = Sample.payload ∧ Sample.cursor = encodeCursor Sample.hmac p) →
          decodeCursor Sample.hmac (some Sample.cursor) = .error invalidCursor)) ↔
        ¬ ∃ p rest, p = Sample.payload ∧
          Sample.cursor = encodeCursor Sample.hmac p ++ dot :: rest) :=
  decodeCursor_integrity Sample.hmac_injective
    (Sample.unforged_of_split (split_encodeCursor Sample.hmac Sample.payload))

/-- The page after the cursor is answered for a string that is no cursor. -/
theorem decodeCursor_integrity_fails :
    Function.Injective Sample.hmac ∧ Unforged Sample.hmac (· = Sample.payload) Sample.extended ∧
      decodeCursor Sample.hmac (some Sample.extended) = .ok (some Sample.payload.tree) ∧
        ¬ ∃ p, Sample.extended = encodeCursor Sample.hmac p := by
  have hsplit := split_extended Sample.hmac Sample.payload (ofString "x")
  refine ⟨Sample.hmac_injective, Sample.unforged_of_split hsplit, decodeCursor_of_split hsplit, ?_⟩
  rintro ⟨p, hp⟩
  exact encodeCursor_ne Sample.hmac Sample.payload p (ofString "x") hp

end NotificationQueryService

end NotificationPlatform
