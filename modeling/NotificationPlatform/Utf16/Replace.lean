import NotificationPlatform.Utf16.Text

/-!
# Replacing what a pattern matches

`replaceAll` with a global regular expression: from left to right each match makes way for the
replacement, and the search goes on after it. A pattern is given by the length of its match at the
start of a text.

`replacePlaced` is the same with the place of each unit in the text it comes from. A unit that is
left in place starts no match (`replacePlaced_kept`), and a text can be cut in two where no match of
the first part reaches into the second (`replacePlaced_append`).
-/

namespace Utf16

/-- The length of the match at the start of a text. -/
abbrev Pattern := Text → Option Nat

variable (pattern : Pattern) (replacement : Text)

/-- With so many units of the last match to come. -/
def replaceFrom : Nat → Text → Text
  | _, [] => []
  | skip + 1, _ :: s => replaceFrom skip s
  | 0, u :: s =>
    match pattern (u :: s) with
    | some n => replacement ++ replaceFrom (n - 1) s
    | none => u :: replaceFrom 0 s

def replaceMatches (s : Text) : Text := replaceFrom pattern replacement 0 s

/-! ## Places -/

/-- Units with the place each has in another text, unless it was inserted. -/
abbrev Placed := List (UInt16 × Option Nat)

def units (s : Placed) : Text := s.map (·.1)

/-- A text in place, from a place on. -/
def placedFrom : Nat → Text → Placed
  | _, [] => []
  | place, u :: s => (u, some place) :: placedFrom (place + 1) s

def inserted (s : Text) : Placed := s.map fun u => (u, none)

def replacePlaced : Nat → Placed → Placed
  | _, [] => []
  | skip + 1, _ :: s => replacePlaced skip s
  | 0, x :: s =>
    match pattern (units (x :: s)) with
    | some n => inserted replacement ++ replacePlaced (n - 1) s
    | none => x :: replacePlaced 0 s

@[simp] theorem units_inserted (s : Text) : units (inserted s) = s := by
  rw [units, inserted, List.map_map]
  exact List.map_id _

@[simp] theorem units_append (s t : Placed) : units (s ++ t) = units s ++ units t :=
  List.map_append

@[simp] theorem units_placedFrom (place : Nat) (s : Text) : units (placedFrom place s) = s := by
  induction s generalizing place with
  | nil => rfl
  | cons u s ih => exact congrArg (u :: ·) (ih (place + 1))

theorem placedFrom_append (place : Nat) (s t : Text) :
    placedFrom place (s ++ t) = placedFrom place s ++ placedFrom (place + s.length) t := by
  induction s generalizing place with
  | nil => rfl
  | cons u s ih =>
    have hplace : place + 1 + s.length = place + (u :: s).length := by
      rw [List.length_cons]
      omega
    rw [List.cons_append, placedFrom, ih, hplace]
    rfl

theorem mem_placedFrom {place : Nat} {s : Text} {x : UInt16 × Option Nat}
    (h : x ∈ placedFrom place s) :
    ∃ i, x.2 = some (place + i) ∧ s[i]? = some x.1 ∧ i < s.length := by
  induction s generalizing place with
  | nil => cases h
  | cons u s ih =>
    rcases List.mem_cons.1 h with rfl | h
    · exact ⟨0, rfl, rfl, Nat.zero_lt_succ _⟩
    · obtain ⟨i, hplace, hunit, hi⟩ := ih h
      refine ⟨i + 1, ?_, hunit, Nat.succ_lt_succ hi⟩
      rw [hplace]
      exact congrArg some (by omega)

/-- What stands at a place of a text, and after it. -/
theorem drop_of_placedFrom {place i : Nat} {s : Text} {u : UInt16} {before after : Placed}
    (h : placedFrom place s = before ++ (u, some (place + i)) :: after) :
    u :: units after = s.drop i := by
  induction s generalizing place i before with
  | nil => simp [placedFrom] at h
  | cons v s ih =>
    cases before with
    | nil =>
      obtain ⟨hhead, rfl⟩ := List.cons.inj h
      obtain ⟨rfl, hplace⟩ := Prod.mk.inj hhead
      obtain rfl : i = 0 := by
        have heq := Option.some.inj hplace
        omega
      rw [units_placedFrom]
      rfl
    | cons x before =>
      obtain ⟨-, htail⟩ := List.cons.inj h
      have hmem : (u, some (place + i)) ∈ placedFrom (place + 1) s := by
        rw [htail]
        exact List.mem_append_right _ List.mem_cons_self
      obtain ⟨j, hj, -, -⟩ := mem_placedFrom hmem
      have hplace : place + i = place + 1 + j := Option.some.inj hj
      obtain rfl : i = j + 1 := by omega
      rw [hplace] at htail
      exact ih htail

variable {pattern replacement}

/-- The places do not matter. -/
theorem units_replacePlaced (skip : Nat) (s : Placed) :
    units (replacePlaced pattern replacement skip s) =
      replaceFrom pattern replacement skip (units s) := by
  induction s generalizing skip with
  | nil => cases skip <;> rfl
  | cons x s ih =>
    cases skip with
    | succ skip => exact ih skip
    | zero =>
      have hunits : units (x :: s) = x.1 :: units s := rfl
      rw [replacePlaced, hunits, replaceFrom]
      cases pattern (x.1 :: units s) with
      | some n =>
        dsimp only
        rw [units_append, units_inserted, ih]
      | none => exact congrArg (x.1 :: ·) (ih 0)

/-- A unit of the result was inserted, or starts no match where it stands. -/
theorem replacePlaced_kept {skip : Nat} {s : Placed} {x : UInt16 × Option Nat}
    (h : x ∈ replacePlaced pattern replacement skip s) :
    (x.2 = none ∧ x.1 ∈ replacement) ∨
      ∃ before after, s = before ++ x :: after ∧ pattern (x.1 :: units after) = none := by
  induction s generalizing skip with
  | nil => cases skip <;> cases h
  | cons y s ih =>
    have hlater : (∃ before after, s = before ++ x :: after ∧
        pattern (x.1 :: units after) = none) →
        ∃ before after, y :: s = before ++ x :: after ∧ pattern (x.1 :: units after) = none := by
      rintro ⟨before, after, rfl, hnone⟩
      exact ⟨y :: before, after, rfl, hnone⟩
    cases skip with
    | succ skip => exact (ih h).imp_right hlater
    | zero =>
      rw [replacePlaced] at h
      split at h
      · rcases List.mem_append.1 h with hinserted | hrest
        · obtain ⟨u, hu, rfl⟩ := List.mem_map.1 hinserted
          exact .inl ⟨rfl, hu⟩
        · exact (ih hrest).imp_right hlater
      · rename_i hnone
        rcases List.mem_cons.1 h with rfl | hrest
        · exact .inr ⟨[], s, rfl, hnone⟩
        · exact (ih hrest).imp_right hlater

/-- The matches in the first part are the same without the second, and end in it. -/
def Separates (pattern : Pattern) (s t : Text) : Prop :=
  ∀ r, r <:+ s → r ≠ [] → pattern (r ++ t) = pattern r ∧ ∀ n, pattern r = some n → n ≤ r.length

theorem replacePlaced_append {skip : Nat} {s t : Placed}
    (h : Separates pattern (units s) (units t)) (hskip : skip ≤ s.length) :
    replacePlaced pattern replacement skip (s ++ t) =
      replacePlaced pattern replacement skip s ++ replacePlaced pattern replacement 0 t := by
  induction s generalizing skip with
  | nil =>
    obtain rfl := Nat.le_zero.1 hskip
    rfl
  | cons x s ih =>
    have hrest : Separates pattern (units s) (units t) := fun r hr =>
      h r (hr.trans (List.suffix_cons x.1 (units s)))
    cases skip with
    | succ skip => exact ih hrest (Nat.le_of_succ_le_succ hskip)
    | zero =>
      obtain ⟨hsame, hends⟩ := h (units (x :: s)) List.suffix_rfl (List.cons_ne_nil _ _)
      rw [List.cons_append, replacePlaced, replacePlaced, ← List.cons_append, units_append, hsame]
      cases hmatch : pattern (units (x :: s)) with
      | none =>
        dsimp only
        rw [ih hrest (Nat.zero_le _), List.cons_append]
      | some n =>
        have hn := hends n hmatch
        simp only [units, List.length_map, List.length_cons] at hn
        dsimp only
        rw [ih hrest (by omega), List.append_assoc]

/-- A unit that starts no match stays. -/
theorem replacePlaced_cons {x : UInt16 × Option Nat} {s : Placed}
    (h : pattern (x.1 :: units s) = none) :
    replacePlaced pattern replacement 0 (x :: s) = x :: replacePlaced pattern replacement 0 s := by
  have hunits : units (x :: s) = x.1 :: units s := rfl
  rw [replacePlaced, hunits, h]

end Utf16
