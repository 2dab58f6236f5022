import NotificationPlatform.Interleaving.System

/-!
# One call after another

A machine whose calls do not overlap. A `Turn` is one call, served alone from its first operation to
its return, or one event outside, and a run is a list of turns. `Throughout P` says that every world
a run passes satisfies `P`, and `Each C` that every turn it takes meets `C`. `throughout_iff` is the
rule that finds the condition under which a property holds throughout.
-/

namespace Interleaving

variable {I : Interface}

/-- A call served to its end with the choices of its surroundings, or an event. -/
inductive Turn (M : Machine I) where
  | served (request : M.Request) (choices : List M.Choice)
  | outside (event : M.Event)

namespace Machine

variable {M : Machine I}

/-- The world after a turn; `none` is a call that does not return on these choices. -/
def turn (w : M.World) : Turn M → Option M.World
  | .served request choices => ((M.program request).runs M.exec choices w).map (·.2)
  | .outside event => M.outside w event

/-- Every world on the way satisfies `P`. A turn that is not possible ends the run. -/
def Throughout (P : M.World → Prop) : M.World → List (Turn M) → Prop
  | w, [] => P w
  | w, t :: ts => P w ∧ ∀ w', M.turn w t = some w' → Throughout P w' ts

/-- Every turn that is taken meets `C`. -/
def Each (C : M.World → Turn M → Prop) : M.World → List (Turn M) → Prop
  | _, [] => True
  | w, t :: ts => ∀ w', M.turn w t = some w' → C w t ∧ Each C w' ts

/-- A property that an invariant implies, and that a turn violates unless it meets a condition
under which it keeps the invariant, holds throughout exactly if every turn meets the condition. -/
theorem throughout_iff {P Inv : M.World → Prop} {C : M.World → Turn M → Prop}
    (hP : ∀ w, Inv w → P w)
    (hkeeps : ∀ {w t w'}, Inv w → M.turn w t = some w' → C w t → Inv w')
    (hmeets : ∀ {w t w'}, Inv w → M.turn w t = some w' → P w' → C w t) {w : M.World}
    (h0 : Inv w) (ts : List (Turn M)) : Throughout P w ts ↔ Each C w ts := by
  induction ts generalizing w with
  | nil => exact ⟨fun _ => trivial, fun _ => hP w h0⟩
  | cons t ts ih =>
    constructor
    · rintro ⟨-, h⟩ w' ht
      have hP' : P w' := by
        have hrest := h w' ht
        cases ts with
        | nil => exact hrest
        | cons t' ts' => exact hrest.1
      have hC := hmeets h0 ht hP'
      exact ⟨hC, (ih (hkeeps h0 ht hC)).1 (h w' ht)⟩
    · intro h
      refine ⟨hP w h0, fun w' ht => ?_⟩
      obtain ⟨hC, hrest⟩ := h w' ht
      exact (ih (hkeeps h0 ht hC)).2 hrest

/-- Several turns in a row. -/
def turns (w : M.World) : List (Turn M) → Option M.World
  | [] => some w
  | t :: ts => (M.turn w t).bind fun w' => turns w' ts

/-- What holds throughout holds in the end. -/
theorem Throughout.last {P : M.World → Prop} {w w' : M.World} {ts : List (Turn M)}
    (h : Throughout P w ts) (ht : M.turns w ts = some w') : P w' := by
  induction ts generalizing w with
  | nil =>
    cases ht
    exact h
  | cons t ts ih =>
    obtain ⟨w₁, hw₁, hrest⟩ := Option.bind_eq_some_iff.1 ht
    exact ih (h.2 w₁ hw₁) hrest

/-- `Each`, computed. -/
def eachChecks (b : M.World → Turn M → Bool) : M.World → List (Turn M) → Bool
  | _, [] => true
  | w, t :: ts => b w t && (M.turn w t).all fun w' => eachChecks b w' ts

theorem Each.of_checks {b : M.World → Turn M → Bool} {C : M.World → Turn M → Prop}
    (hb : ∀ w t, b w t = true → C w t) {w : M.World} {ts : List (Turn M)}
    (h : eachChecks b w ts = true) : Each C w ts := by
  induction ts generalizing w with
  | nil => trivial
  | cons t ts ih =>
    simp only [eachChecks, Bool.and_eq_true] at h
    intro w' ht
    rw [ht] at h
    exact ⟨hb w t h.1, ih h.2⟩

end Machine

end Interleaving
