import Mathlib.Data.List.Chain
import Mathlib.Data.List.Nodup
import NotificationPlatform.Domain.Template

/-!
# The grammar of templates

What `parseTemplate` accepts, and what it makes of it, said about the body alone: where a scan from
left to right passes, which of the braces on its way open a placeholder, which of those name a
variable, and how the text between the placeholders reads.
-/

namespace NotificationPlatform

namespace Template

open Utf16

variable (body : Text)

/-- Where the scan goes on from a position: behind an escape, behind the first closing braces of a
placeholder, or one unit further. -/
def next (i : Nat) : Option Nat :=
  if startsWith body ESCAPED_OPEN i then some (i + 3)
  else if startsWith body PLACEHOLDER_OPEN i then
    (indexOf body PLACEHOLDER_CLOSE (i + 2)).map (· + 2)
  else if i < body.length then some (i + 1) else none

/-- A scan that is at `i` comes by `j`. -/
inductive Reaches : Nat → Nat → Prop where
  | here (i : Nat) : Reaches i i
  | onward {i i' j : Nat} : next body i = some i' → Reaches i' j → Reaches i j

/-- There are unescaped opening braces at `j`, on the way of a scan that is at `i`. -/
def OpensFrom (i j : Nat) : Prop := Reaches body i j ∧ startsWith body PLACEHOLDER_OPEN j = true

/-- The first closing braces behind the opening ones at `i` are at `close`. -/
structure ClosesAt (i close : Nat) : Prop where
  behind : i + 2 ≤ close
  closing : startsWith body PLACEHOLDER_CLOSE close = true
  first : ∀ k, i + 2 ≤ k → k < close → startsWith body PLACEHOLDER_CLOSE k = false

/-- The opening braces at `i` and the first closing ones enclose a name. -/
def WellNamed (i : Nat) : Prop :=
  ∃ close, ClosesAt body i close ∧
    templateVariableNamePattern (trim (slice body (i + 2) close)) = true

/-- The span of a placeholder reads as its name in braces. -/
structure VariableNode.Spelled (v : VariableNode) : Prop where
  named : templateVariableNamePattern v.name = true
  nonempty : v.start < v.finish
  inside : v.finish ≤ body.length
  reads : ∃ w w' : Text, (∀ u ∈ w, Utf16.isWhiteSpace u = true) ∧
    (∀ u ∈ w', Utf16.isWhiteSpace u = true) ∧
    slice body v.start v.finish = PLACEHOLDER_OPEN ++ (w ++ (v.name ++ w')) ++ PLACEHOLDER_CLOSE

/-- A stretch of text, with its escapes undone. -/
def unescape (s : Text) : Text := replaceAll ESCAPED_OPEN PLACEHOLDER_OPEN s

/-- The node of a stretch of text. An empty one has none. -/
def textNodes (s : Text) : List TemplateNode := if s.length = 0 then [] else [.text s]

/-- The nodes of the body from `i` on: the placeholders, and the text around them. The text before
the first continues `before`. -/
def layOut (before : Text) (i : Nat) : List VariableNode → List TemplateNode
  | [] => textNodes (before ++ unescape (slice body i body.length))
  | v :: rest =>
    textNodes (before ++ unescape (slice body i v.start)) ++
      .variable v :: layOut [] v.finish rest

/-- The placeholders lie behind `i`, each behind the one before it. -/
def Spaced (i : Nat) : List VariableNode → Prop
  | [] => True
  | v :: rest => i ≤ v.start ∧ v.Spelled body ∧ Spaced v.finish rest

/-- `names` are the distinct members of `all` in the order in which they first appear. -/
structure FirstAppearances (all names : List Text) : Prop where
  distinct : names.Nodup
  complete : ∀ name, name ∈ names ↔ name ∈ all
  ordered : names.Pairwise fun a b => all.idxOf a < all.idxOf b

/-- What a parsed template says of its body. -/
structure Describes (parsed : ParsedTemplate) (placeholders : List VariableNode) : Prop where
  /-- The placeholders are the unescaped opening braces. -/
  openings : ∀ j, OpensFrom body 0 j ↔ ∃ v ∈ placeholders, v.start = j
  spelled : ∀ v ∈ placeholders, v.Spelled body
  /-- Their spans are disjoint, in increasing order. -/
  increasing : placeholders.Pairwise fun v v' => v.finish ≤ v'.start
  nodes : parsed.nodes = layOut body [] 0 placeholders
  /-- No text node is empty, and none follows another. -/
  texts : ∀ s, .text s ∈ parsed.nodes → s ≠ []
  separated : parsed.nodes.IsChain fun a b => ∀ s s', ¬ (a = .text s ∧ b = .text s')
  names : FirstAppearances (placeholders.map (·.name)) parsed.variableNames

variable {body}

/-! ## Text -/

theorem flushText_eq (nodes : List TemplateNode) (s : Text) :
    flushText nodes s = nodes ++ textNodes s := by
  unfold flushText textNodes
  split
  · rw [List.append_nil]
  · rfl

section Layout

variable {i e : Nat}

theorem unescape_escape (h : startsWith body ESCAPED_OPEN i = true) (he : i + 3 ≤ e) :
    unescape (slice body i e) = PLACEHOLDER_OPEN ++ unescape (slice body (i + 3) e) := by
  have hslice : slice body i (i + 3) = ESCAPED_OPEN := slice_of_startsWith h
  rw [← slice_append (Nat.le_add_right i 3) he, hslice]
  exact replaceAll_append (by decide) _

theorem unescape_unit (h : startsWith body ESCAPED_OPEN i = false) (hi : i < body.length)
    (he : i + 1 ≤ e) :
    unescape (slice body i e) = [body[i]] ++ unescape (slice body (i + 1) e) := by
  have hcons := slice_eq_cons (show i < e from he) hi
  have hprefix : ¬ ESCAPED_OPEN <+: body[i] :: slice body (i + 1) e := by
    intro hp
    rw [← hcons] at hp
    have hs := startsWith_iff.2 (hp.trans (prefix_slice body i e))
    rw [h] at hs
    cases hs
  rw [hcons]
  exact replaceAll_cons hprefix

/-- Text that was read already goes before what is left to be read. -/
theorem layOut_step {n : Nat} {piece : Text} {placeholders : List VariableNode}
    (hpiece : ∀ e, i + n ≤ e → e ≤ body.length →
      unescape (slice body i e) = piece ++ unescape (slice body (i + n) e))
    (hn : i + n ≤ body.length) (hspaced : Spaced body (i + n) placeholders) (before : Text) :
    layOut body (before ++ piece) (i + n) placeholders = layOut body before i placeholders := by
  cases placeholders with
  | nil =>
    simp only [layOut]
    rw [hpiece _ hn le_rfl, List.append_assoc]
  | cons v rest =>
    obtain ⟨hstart, hspelled, -⟩ := hspaced
    have hbound : v.start ≤ body.length := hspelled.nonempty.le.trans hspelled.inside
    simp only [layOut]
    rw [hpiece _ hstart hbound, List.append_assoc]

end Layout

/-! ## What the scan does -/

section Scan

variable {i j : Nat}

theorem next_gt {i' : Nat} (h : next body i = some i') : i < i' := by
  unfold next at h
  split at h
  · cases h
    omega
  · split at h
    · obtain ⟨c, hc, rfl⟩ := Option.map_eq_some_iff.1 h
      have hle := (indexOf_eq_some hc).1
      omega
    · split at h
      · cases h
        omega
      · cases h

theorem Reaches.le (h : Reaches body i j) : i ≤ j := by
  induction h with
  | here => exact le_rfl
  | onward hnext _ ih => exact (next_gt hnext).le.trans ih

/-- A scan that does not open a placeholder where it is opens those it comes by from the next
position on. -/
theorem opensFrom_of_next {i' : Nat} (hnext : next body i = some i')
    (hclosed : startsWith body PLACEHOLDER_OPEN i = false) (j : Nat) :
    OpensFrom body i j ↔ OpensFrom body i' j := by
  constructor
  · rintro ⟨hreach, hopen⟩
    cases hreach with
    | here =>
      rw [hclosed] at hopen
      cases hopen
    | onward hnext' hreach =>
      cases hnext.symm.trans hnext'
      exact ⟨hreach, hopen⟩
  · rintro ⟨hreach, hopen⟩
    exact ⟨.onward hnext hreach, hopen⟩

/-- One that opens a placeholder does so there, and from the next position on. -/
theorem opensFrom_of_open {i' : Nat} (hnext : next body i = some i')
    (hopen : startsWith body PLACEHOLDER_OPEN i = true) (j : Nat) :
    OpensFrom body i j ↔ j = i ∨ OpensFrom body i' j := by
  constructor
  · rintro ⟨hreach, hj⟩
    cases hreach with
    | here => exact .inl rfl
    | onward hnext' hreach =>
      cases hnext.symm.trans hnext'
      exact .inr ⟨hreach, hj⟩
  · rintro (rfl | ⟨hreach, hj⟩)
    · exact ⟨.here j, hopen⟩
    · exact ⟨.onward hnext hreach, hj⟩

theorem closesAt_of_indexOf {c : Nat} (h : indexOf body PLACEHOLDER_CLOSE (i + 2) = some c) :
    ClosesAt body i c := by
  obtain ⟨hle, hclosing, hfirst⟩ := indexOf_eq_some h
  exact ⟨hle, hclosing, hfirst⟩

theorem ClosesAt.unique {c c' : Nat} (h : ClosesAt body i c) (h' : ClosesAt body i c') :
    c = c' := by
  rcases Nat.lt_trichotomy c c' with hlt | heq | hlt
  · have := h'.first c h.behind hlt
    rw [h.closing] at this
    cases this
  · exact heq
  · have := h.first c' h'.behind hlt
    rw [h'.closing] at this
    cases this

theorem next_escape (h : startsWith body ESCAPED_OPEN i = true) : next body i = some (i + 3) :=
  if_pos h

/-- Behind an escape's backslash nothing opens. -/
theorem not_open_of_escape (h : startsWith body ESCAPED_OPEN i = true) :
    startsWith body PLACEHOLDER_OPEN i = false := by
  by_contra hopen
  obtain ⟨t, ht⟩ := startsWith_iff.1 h
  obtain ⟨t', ht'⟩ := startsWith_iff.1 (Bool.of_not_eq_false hopen)
  rw [← ht] at ht'
  exact absurd (List.cons.inj ht').1 (by decide)

theorem next_unit (hescape : ¬ startsWith body ESCAPED_OPEN i = true)
    (hopen : startsWith body PLACEHOLDER_OPEN i = false) (hi : i < body.length) :
    next body i = some (i + 1) := by
  rw [next, if_neg hescape, if_neg (by rw [hopen]; decide), if_pos hi]

theorem next_placeholder {c : Nat} (hescape : ¬ startsWith body ESCAPED_OPEN i = true)
    (hopen : startsWith body PLACEHOLDER_OPEN i = true)
    (hclose : indexOf body PLACEHOLDER_CLOSE (i + 2) = some c) : next body i = some (c + 2) := by
  rw [next, if_neg hescape, if_pos hopen, hclose]
  rfl

/-- The span of a placeholder, between its braces the name in white space. -/
theorem spelled_of_close {c : Nat} (hopen : startsWith body PLACEHOLDER_OPEN i = true)
    (hclose : ClosesAt body i c)
    (hname : templateVariableNamePattern (trim (slice body (i + 2) c)) = true) :
    VariableNode.Spelled body ⟨trim (slice body (i + 2) c), i, c + 2⟩ where
  named := hname
  nonempty := by
    have := hclose.behind
    change i < c + 2
    omega
  inside := bound_of_startsWith hclose.closing (by decide)
  reads := by
    obtain ⟨w, w', heq, hw, hw'⟩ := eq_trim (slice body (i + 2) c)
    refine ⟨w, w', hw, hw', ?_⟩
    have hfirst : slice body i (i + 2) = PLACEHOLDER_OPEN := slice_of_startsWith hopen
    have hlast : slice body c (c + 2) = PLACEHOLDER_CLOSE := slice_of_startsWith hclose.closing
    have hbehind := hclose.behind
    change slice body i (c + 2) = _
    rw [← slice_append (show i ≤ c by omega) (Nat.le_add_right c 2),
      ← slice_append (Nat.le_add_right i 2) hbehind, hfirst, hlast]
    exact congrArg (fun s => PLACEHOLDER_OPEN ++ s ++ PLACEHOLDER_CLOSE) heq

end Scan

/-! ## What the loop does -/

/-- A loop that returns has read the rest of the body as its grammar says. -/
theorem parseFrom_ok {i : Nat} {nodes : List TemplateNode} {names : List Text} {buffer : Text}
    {parsed : ParsedTemplate} (h : parseFrom body i nodes names buffer = .ok parsed)
    (hi : i ≤ body.length) : ∃ placeholders : List VariableNode,
      Spaced body i placeholders ∧ parsed.nodes = nodes ++ layOut body buffer i placeholders ∧
      parsed.variableNames = (placeholders.map (·.name)).foldl pushName names ∧
      (∀ j, OpensFrom body i j ↔ ∃ v ∈ placeholders, v.start = j) ∧
      ∀ j, OpensFrom body i j → WellNamed body j := by
  fun_induction parseFrom body i nodes names buffer with
  | case1 i nodes names buffer hlt hescape ih =>
    have hbound := bound_of_startsWith hescape (by decide)
    obtain ⟨placeholders, hspaced, hnodes, hnames, hopens, hnamed⟩ := ih h hbound
    have hsame := opensFrom_of_next (next_escape hescape) (not_open_of_escape hescape)
    refine ⟨placeholders, ?_, ?_, hnames, fun j => (hsame j).trans (hopens j), fun j hj =>
      hnamed j ((hsame j).1 hj)⟩
    · cases placeholders with
      | nil => trivial
      | cons v rest => exact ⟨(Nat.le_add_right i 3).trans hspaced.1, hspaced.2⟩
    · rw [hnodes]
      congr 1
      exact layOut_step (n := 3) (fun e he _ => unescape_escape hescape he) hbound hspaced buffer
  | case2 i nodes names buffer hlt hescape hopen ih =>
    have hclosed : startsWith body PLACEHOLDER_OPEN i = false := by simpa using hopen
    obtain ⟨placeholders, hspaced, hnodes, hnames, hopens, hnamed⟩ := ih h hlt
    have hsame := opensFrom_of_next (next_unit hescape hclosed hlt) hclosed
    refine ⟨placeholders, ?_, ?_, hnames, fun j => (hsame j).trans (hopens j), fun j hj =>
      hnamed j ((hsame j).1 hj)⟩
    · cases placeholders with
      | nil => trivial
      | cons v rest => exact ⟨(Nat.le_succ i).trans hspaced.1, hspaced.2⟩
    · rw [hnodes]
      congr 1
      exact layOut_step (n := 1)
        (fun e he _ => unescape_unit (Bool.of_not_eq_true hescape) hlt he) hlt hspaced buffer
  | case3 | case4 | case5 => cases h
  | case6 i nodes names buffer hlt hescape hopen c hclose rawName hlength hpattern ih =>
    have hopen : startsWith body PLACEHOLDER_OPEN i = true := by simpa using hopen
    have hpattern : templateVariableNamePattern rawName = true := by simpa using hpattern
    have hclose : indexOf body PLACEHOLDER_CLOSE (i + 2) = some c := hclose
    have hcloses := closesAt_of_indexOf hclose
    have hspelled := spelled_of_close hopen hcloses hpattern
    obtain ⟨placeholders, hspaced, hnodes, hnames, hopens, hnamed⟩ := ih h hspelled.inside
    have hsame := opensFrom_of_open (next_placeholder hescape hopen hclose) hopen
    refine ⟨⟨rawName, i, c + 2⟩ :: placeholders, ⟨le_rfl, hspelled, hspaced⟩, ?_, hnames,
      fun j => ?_, fun j hj => ?_⟩
    · rw [hnodes, flushText_eq, layOut, slice_self]
      simp only [unescape, replaceAll_nil, List.append_nil, List.append_assoc, List.cons_append,
        List.nil_append]
      rfl
    · rw [hsame j, List.exists_mem_cons_iff]
      exact or_congr eq_comm (hopens j)
    · rcases (hsame j).1 hj with rfl | hj
      · exact ⟨c, hcloses, hpattern⟩
      · exact hnamed j hj
  | case7 i nodes names buffer hlt =>
    cases h
    have hend : i = body.length := by omega
    subst hend
    have hnone : ∀ j, ¬ OpensFrom body body.length j := by
      rintro j ⟨hreach, hopen⟩
      have hle := hreach.le
      have hbound := bound_of_startsWith hopen (by decide)
      simp only [PLACEHOLDER_OPEN, List.length_cons, List.length_nil] at hbound
      omega
    refine ⟨[], trivial, ?_, rfl, fun j => ?_, fun j hj => absurd hj (hnone j)⟩
    · rw [flushText_eq, layOut, slice_self]
      simp only [unescape, replaceAll_nil, List.append_nil]
    · simp only [List.not_mem_nil, false_and, exists_false, iff_false]
      exact hnone j

/-- A loop that throws has come by the first opening braces that name no variable. -/
theorem parseFrom_error {i : Nat} {nodes : List TemplateNode} {names : List Text} {buffer : Text}
    {e : TemplateSyntaxError} (h : parseFrom body i nodes names buffer = .error e) :
    OpensFrom body i e.offset ∧ ¬ WellNamed body e.offset ∧
      ∀ j, OpensFrom body i j → j < e.offset → WellNamed body j := by
  fun_induction parseFrom body i nodes names buffer with
  | case1 i nodes names buffer hlt hescape ih =>
    obtain ⟨hopens, hnot, hbefore⟩ := ih h
    have hsame := opensFrom_of_next (next_escape hescape) (not_open_of_escape hescape)
    exact ⟨(hsame _).2 hopens, hnot, fun j hj => hbefore j ((hsame j).1 hj)⟩
  | case2 i nodes names buffer hlt hescape hopen ih =>
    have hclosed : startsWith body PLACEHOLDER_OPEN i = false := by simpa using hopen
    obtain ⟨hopens, hnot, hbefore⟩ := ih h
    have hsame := opensFrom_of_next (next_unit hescape hclosed hlt) hclosed
    exact ⟨(hsame _).2 hopens, hnot, fun j hj => hbefore j ((hsame j).1 hj)⟩
  | case3 i nodes names buffer hlt hescape hopen hclose =>
    have hopen : startsWith body PLACEHOLDER_OPEN i = true := by simpa using hopen
    cases h
    refine ⟨⟨.here i, hopen⟩, ?_, fun j hj hlt => absurd hj.1.le (Nat.not_le.2 hlt)⟩
    rintro ⟨c, hcloses, -⟩
    have hnot := indexOf_eq_none hclose (by decide) c hcloses.behind
    rw [hcloses.closing] at hnot
    cases hnot
  | case4 i nodes names buffer hlt hescape hopen c hclose rawName hlength =>
    have hopen : startsWith body PLACEHOLDER_OPEN i = true := by simpa using hopen
    cases h
    refine ⟨⟨.here i, hopen⟩, ?_, fun j hj hlt => absurd hj.1.le (Nat.not_le.2 hlt)⟩
    rintro ⟨c', hcloses, hpattern⟩
    cases (closesAt_of_indexOf hclose).unique hcloses
    change templateVariableNamePattern rawName = true at hpattern
    rw [List.length_eq_zero_iff.1 hlength] at hpattern
    cases hpattern
  | case5 i nodes names buffer hlt hescape hopen c hclose rawName hlength hname =>
    have hopen : startsWith body PLACEHOLDER_OPEN i = true := by simpa using hopen
    cases h
    refine ⟨⟨.here i, hopen⟩, ?_, fun j hj hlt => absurd hj.1.le (Nat.not_le.2 hlt)⟩
    rintro ⟨c', hcloses, hpattern⟩
    cases (closesAt_of_indexOf hclose).unique hcloses
    change templateVariableNamePattern rawName = true at hpattern
    rw [hpattern] at hname
    cases hname
  | case6 i nodes names buffer hlt hescape hopen c hclose rawName hlength hpattern ih =>
    have hopen : startsWith body PLACEHOLDER_OPEN i = true := by simpa using hopen
    have hpattern : templateVariableNamePattern rawName = true := by simpa using hpattern
    obtain ⟨hopens, hnot, hbefore⟩ := ih h
    have hsame := opensFrom_of_open (next_placeholder hescape hopen hclose) hopen
    refine ⟨(hsame _).2 (.inr hopens), hnot, fun j hj hlt => ?_⟩
    rcases (hsame j).1 hj with rfl | hj
    · exact ⟨c, closesAt_of_indexOf hclose, hpattern⟩
    · exact hbefore j hj hlt
  | case7 => cases h

/-! ## What a parsed template is -/

theorem Spaced.spelled {i : Nat} {placeholders : List VariableNode}
    (h : Spaced body i placeholders) : ∀ v ∈ placeholders, v.Spelled body ∧ i ≤ v.start := by
  induction placeholders generalizing i with
  | nil => exact fun _ hv => absurd hv List.not_mem_nil
  | cons v rest ih =>
    obtain ⟨hstart, hspelled, hrest⟩ := h
    intro v' hv'
    rcases List.mem_cons.1 hv' with rfl | hv'
    · exact ⟨hspelled, hstart⟩
    · obtain ⟨hspelled', hle⟩ := ih hrest v' hv'
      exact ⟨hspelled', hstart.trans (hspelled.nonempty.le.trans hle)⟩

theorem Spaced.increasing {i : Nat} {placeholders : List VariableNode}
    (h : Spaced body i placeholders) : placeholders.Pairwise fun v v' => v.finish ≤ v'.start := by
  induction placeholders generalizing i with
  | nil => exact .nil
  | cons v rest ih =>
    obtain ⟨-, -, hrest⟩ := h
    exact .cons (fun v' hv' => (hrest.spelled v' hv').2) (ih hrest)

theorem text_mem_textNodes {s s' : Text} (h : .text s ∈ textNodes s') : s ≠ [] := by
  unfold textNodes at h
  split at h
  · cases h
  · rename_i hlength
    cases List.mem_singleton.1 h
    exact fun hs => hlength (List.length_eq_zero_iff.2 hs)

theorem text_mem_layOut {before : Text} {i : Nat} {placeholders : List VariableNode} {s : Text}
    (h : .text s ∈ layOut body before i placeholders) : s ≠ [] := by
  induction placeholders generalizing before i with
  | nil => exact text_mem_textNodes h
  | cons v rest ih =>
    rcases List.mem_append.1 h with h | h
    · exact text_mem_textNodes h
    · rcases List.mem_cons.1 h with h | h
      · cases h
      · exact ih h

theorem separated_layOut (before : Text) (i : Nat) (placeholders : List VariableNode) :
    (layOut body before i placeholders).IsChain fun a b => ∀ s s', ¬ (a = .text s ∧ b = .text s')
    := by
  induction placeholders generalizing before i with
  | nil =>
    unfold layOut textNodes
    split
    · exact .nil
    · exact .singleton _
  | cons v rest ih =>
    have hrest : (TemplateNode.variable v :: layOut body [] v.finish rest).IsChain
        fun a b => ∀ s s', ¬ (a = .text s ∧ b = .text s') :=
      List.isChain_cons.2 ⟨fun _ _ _ _ h => absurd h.1 nofun, ih [] v.finish⟩
    unfold layOut textNodes
    split
    · exact hrest
    · exact List.isChain_cons_cons.2 ⟨fun _ _ h => absurd h.2 nofun, hrest⟩

/-- Names that are pushed one by one are listed as they first appear. -/
theorem firstAppearances (all : List Text) : FirstAppearances all (all.foldl pushName []) := by
  induction all using List.reverseRecOn with
  | nil => exact ⟨.nil, fun _ => Iff.rfl, .nil⟩
  | append_singleton all name ih =>
    have hkept : ∀ a ∈ all.foldl pushName [], (all ++ [name]).idxOf a = all.idxOf a := fun a ha =>
      List.idxOf_append_of_mem ((ih.complete a).1 ha)
    have hordered : (all.foldl pushName []).Pairwise fun a b =>
        (all ++ [name]).idxOf a < (all ++ [name]).idxOf b :=
      ih.ordered.imp_of_mem fun ha hb h => by rw [hkept _ ha, hkept _ hb]; exact h
    rw [List.foldl_append, List.foldl_cons, List.foldl_nil, pushName]
    split
    · rename_i hmem
      refine ⟨ih.distinct, fun x => ?_, hordered⟩
      rw [ih.complete, List.mem_append, List.mem_singleton]
      refine ⟨Or.inl, fun h => h.elim id ?_⟩
      rintro rfl
      exact (ih.complete x).1 hmem
    · rename_i hmem
      have hnew : name ∉ all := fun h => hmem ((ih.complete name).2 h)
      refine ⟨?_, fun x => ?_, ?_⟩
      · exact List.nodup_append.2 ⟨ih.distinct, List.nodup_singleton _, fun a ha b hb hab => hmem
          (by rw [← List.mem_singleton.1 hb, ← hab]; exact ha)⟩
      · rw [List.mem_append, List.mem_append, ih.complete]
      · refine List.pairwise_append.2 ⟨hordered, List.pairwise_singleton _ _, fun a ha b hb => ?_⟩
        have ha' := (ih.complete a).1 ha
        rw [List.mem_singleton.1 hb, hkept a ha, List.idxOf_append_of_notMem hnew]
        exact (List.idxOf_lt_length_of_mem ha').trans_le (Nat.le_add_right _ _)

/-- `parseTemplate` returns exactly when all unescaped opening braces name a variable, and describes
its body then. Otherwise it throws at the first that do not. -/
theorem parseTemplate_grammar (body : Text) :
    ((∃ parsed, parseTemplate body = .ok parsed) ↔ ∀ i, OpensFrom body 0 i → WellNamed body i) ∧
    (∀ e, parseTemplate body = .error e → OpensFrom body 0 e.offset ∧ ¬ WellNamed body e.offset ∧
      ∀ i, OpensFrom body 0 i → i < e.offset → WellNamed body i) ∧
    ∀ parsed, parseTemplate body = .ok parsed →
      ∃ placeholders, Describes body parsed placeholders := by
  refine ⟨⟨?_, fun hall => ?_⟩, fun e he => parseFrom_error he, fun parsed hparsed => ?_⟩
  · rintro ⟨parsed, hparsed⟩
    obtain ⟨-, -, -, -, -, hnamed⟩ := parseFrom_ok hparsed (Nat.zero_le _)
    exact hnamed
  · cases hp : parseTemplate body with
    | ok parsed => exact ⟨parsed, rfl⟩
    | error e =>
      obtain ⟨hopens, hnot, -⟩ := parseFrom_error hp
      exact absurd (hall e.offset hopens) hnot
  · obtain ⟨placeholders, hspaced, hnodes, hnames, hopens, -⟩ :=
      parseFrom_ok hparsed (Nat.zero_le _)
    rw [List.nil_append] at hnodes
    refine ⟨placeholders, hopens, fun v hv => (hspaced.spelled v hv).1, hspaced.increasing, hnodes,
      fun s hs => text_mem_layOut (hnodes ▸ hs), ?_, ?_⟩
    · rw [hnodes]
      exact separated_layOut [] 0 placeholders
    · rw [hnames]
      exact firstAppearances _

end Template

end NotificationPlatform
