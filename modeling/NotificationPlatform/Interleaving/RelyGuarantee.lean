import NotificationPlatform.Interleaving.Raising
import NotificationPlatform.Interleaving.System

/-!
# Rely and guarantee

A `Protocol` says what a thread knows of the world, what it relies on the others to leave it, and
what each of its own steps guarantees. Its knowledge is a ghost: no program reads it. `Keeps` is the
proof obligation of one thread, computed along its program: between two operations the world may
change as the thread relies on. `Kept.run` puts the threads together that are members of a protocol.
What one guarantees is all another relies on, as long as their ghosts are apart, so every member
keeps the protocol in every interleaving. Threads that are no members may do what they want, if no
operation at all does what a member relies on not to happen.
-/

namespace Interleaving

variable {I : Interface} {α β ε : Type}

structure Protocol (M : Machine I) where
  Ghost : Type
  /-- The ghost of a thread that has not been started. -/
  idle : Ghost
  /-- What the ghost says of the world. -/
  Fits : Ghost → M.World → Prop
  Apart : Ghost → Ghost → Prop
  Rely : Ghost → M.World → M.World → Prop
  Guarantee : Ghost → M.World → Ghost → M.World → Prop
  rely_refl : ∀ g w, Rely g w w
  rely_trans : ∀ {g w₁ w₂ w₃}, Rely g w₁ w₂ → Rely g w₂ w₃ → Rely g w₁ w₃
  fits_rely : ∀ {g w w'}, Fits g w → Rely g w w' → Fits g w'
  apart_symm : ∀ {g h}, Apart g h → Apart h g
  apart_idle : ∀ g, Apart g idle
  /-- What one thread guarantees, another relies on. -/
  interferes : ∀ {g g' h w w'}, Guarantee g w g' w' → Fits g w → Fits h w → Apart g h →
    Rely h w w' ∧ Apart g' h
  outside : ∀ {g e w w'}, M.outside w e = some w' → Fits g w → Rely g w w'

namespace Protocol

variable {M : Machine I} (R : Protocol M)

/-- The program keeps the protocol from here on, and ends as `Q` says. -/
def Keeps (Q : α → R.Ghost → M.World → Prop) : Prog I α → R.Ghost → M.World → Prop
  | .done a, g, w => Q a g w
  | .perform o k, g, w => ∀ w₁, R.Rely g w w₁ → R.Fits g w₁ → ∀ c r w₂,
      M.exec w₁ o c = some (r, w₂) →
        ∃ g', R.Guarantee g w₁ g' w₂ ∧ R.Fits g' w₂ ∧ Keeps Q (k r) g' w₂

/-- The others do not change that it holds. -/
def Stable (Q : α → R.Ghost → M.World → Prop) : Prop :=
  ∀ {a g w w'}, R.Fits g w → R.Rely g w w' → Q a g w → Q a g w'

variable {R}

section Keeps

variable {Q Q' : α → R.Ghost → M.World → Prop} {p : Prog I α} {g : R.Ghost} {w w' : M.World}

theorem Keeps.rely (h : R.Keeps Q p g w) (hQ : R.Stable Q) (hfits : R.Fits g w)
    (hrely : R.Rely g w w') : R.Keeps Q p g w' := by
  cases p with
  | done a => exact hQ hfits hrely h
  | perform o k => exact fun w₁ hrely' => h w₁ (R.rely_trans hrely hrely')

theorem Keeps.mono (h : R.Keeps Q p g w) (hQ : ∀ a g w, Q a g w → Q' a g w) :
    R.Keeps Q' p g w := by
  induction p generalizing g w with
  | done a => exact hQ a g w h
  | perform o k ih =>
    intro w₁ hrely hfits c r w₂ he
    obtain ⟨g', hguarantee, hfits', hk⟩ := h w₁ hrely hfits c r w₂ he
    exact ⟨g', hguarantee, hfits', ih r hk⟩

/-- Sequencing. -/
theorem keeps_bind {Q : β → R.Ghost → M.World → Prop} {f : α → Prog I β}
    (h : R.Keeps (fun a g w => R.Keeps Q (f a) g w) p g w) : R.Keeps Q (p >>= f) g w := by
  induction p generalizing g w with
  | done a => exact h
  | perform o k ih =>
    intro w₁ hrely hfits c r w₂ he
    obtain ⟨g', hguarantee, hfits', hk⟩ := h w₁ hrely hfits c r w₂ he
    exact ⟨g', hguarantee, hfits', ih r hk⟩

theorem keeps_map {Q : β → R.Ghost → M.World → Prop} {f : α → β}
    (h : R.Keeps (fun a => Q (f a)) p g w) : R.Keeps Q (f <$> p) g w := by
  rw [← bind_pure_comp]
  exact keeps_bind h

end Keeps

section Raising

variable {Q : Except ε β → R.Ghost → M.World → Prop} {g : R.Ghost} {w : M.World}

/-- Sequencing: an error of the first program ends both. -/
theorem keeps_bind_raising {x : Raising I ε α} {f : α → Raising I ε β}
    (h : R.Keeps (fun r g w => match r with
      | .ok a => R.Keeps Q (f a).run g w
      | .error e => Q (.error e) g w) x.run g w) : R.Keeps Q (x >>= f).run g w := by
  rw [Raising.run_bind]
  refine keeps_bind (h.mono fun r g w hr => ?_)
  cases r with
  | ok a => exact hr
  | error e => exact hr

end Raising

/-! ## Runs -/

variable (R) in
/-- Every member keeps the protocol from where it is. -/
structure Kept (Q : M.Request → M.Result → R.Ghost → M.World → Prop) (member : Nat → Prop)
    (s : System M) (ghost : Nat → R.Ghost) : Prop where
  fits : ∀ {i}, member i → R.Fits (ghost i) s.world
  apart : ∀ {i j}, member i → member j → i ≠ j → R.Apart (ghost i) (ghost j)
  unstarted : ∀ {i}, member i → s.threads i = none → ghost i = R.idle
  keeps : ∀ {i request rest}, member i → s.threads i = some ⟨request, .running rest⟩ →
    R.Keeps (Q request) rest (ghost i) s.world

variable {Q : M.Request → M.Result → R.Ghost → M.World → Prop} {member : Nat → Prop}
  {s s' : System M} {ghost : Nat → R.Ghost}

/-- What a member has returned. -/
theorem Kept.returned (h : R.Kept Q member s ghost) {i : Nat} (hm : member i) {request : M.Request}
    {a : M.Result} (hi : s.threads i = some ⟨request, .running (.done a)⟩) :
    Q request a (ghost i) s.world := h.keeps hm hi

/-- The world changes as all members rely on. -/
theorem Kept.world (h : R.Kept Q member s ghost) (hQ : ∀ request, R.Stable (Q request))
    {w : M.World} (hrely : ∀ i, member i → R.Rely (ghost i) s.world w) :
    R.Kept Q member { s with world := w } ghost where
  fits := fun hm => R.fits_rely (h.fits hm) (hrely _ hm)
  apart := h.apart
  unstarted := h.unstarted
  keeps := fun {_ request _} hm hi => (h.keeps hm hi).rely (hQ request) (h.fits hm) (hrely _ hm)

/-- A thread changes that is no member, or is one and keeps the protocol. -/
theorem Kept.thread (h : R.Kept Q member s ghost) {i : Nat} {t : Thread M}
    {trace : List (Performed I)}
    (hi : member i → ∀ request rest, t = ⟨request, .running rest⟩ →
      R.Keeps (Q request) rest (ghost i) s.world) :
    R.Kept Q member ⟨s.world, Function.update s.threads i (some t), trace⟩ ghost where
  fits := h.fits
  apart := h.apart
  unstarted := fun {j} hm hj => by
    by_cases hji : j = i
    · subst hji
      simp at hj
    · simp only [Function.update_of_ne hji] at hj
      exact h.unstarted hm hj
  keeps := fun {j request rest} hm hj => by
    by_cases hji : j = i
    · subst hji
      simp only [Function.update_self, Option.some.injEq] at hj
      exact hi hm request rest hj
    · simp only [Function.update_of_ne hji] at hj
      exact h.keeps hm hj

/-- A member takes a step. -/
theorem Kept.advance (h : R.Kept Q member s ghost) (hQ : ∀ request, R.Stable (Q request)) {i : Nat}
    (hm : member i) {g : R.Ghost} {w : M.World} (hguarantee : R.Guarantee (ghost i) s.world g w)
    (hfits : R.Fits g w) {request : M.Request} {rest : Prog I M.Result}
    (hkeeps : R.Keeps (Q request) rest g w) {trace : List (Performed I)} :
    R.Kept Q member ⟨w, Function.update s.threads i (some ⟨request, .running rest⟩), trace⟩
      (Function.update ghost i g) := by
  have hothers : ∀ {j}, member j → j ≠ i →
      R.Rely (ghost j) s.world w ∧ R.Apart g (ghost j) := fun hj hji =>
    R.interferes hguarantee (h.fits hm) (h.fits hj) (h.apart hm hj (Ne.symm hji))
  refine ⟨fun {j} hj => ?_, fun {j k} hj hk hjk => ?_, fun {j} hj ht => ?_,
    fun {j request' rest'} hj ht => ?_⟩
  · by_cases hji : j = i
    · subst hji
      rw [Function.update_self]
      exact hfits
    · rw [Function.update_of_ne hji]
      exact R.fits_rely (h.fits hj) (hothers hj hji).1
  · by_cases hji : j = i
    · subst hji
      rw [Function.update_self, Function.update_of_ne (Ne.symm hjk)]
      exact (hothers hk (Ne.symm hjk)).2
    · by_cases hki : k = i
      · subst hki
        rw [Function.update_self, Function.update_of_ne hji]
        exact R.apart_symm (hothers hj hji).2
      · rw [Function.update_of_ne hji, Function.update_of_ne hki]
        exact h.apart hj hk hjk
  · by_cases hji : j = i
    · subst hji
      simp at ht
    · rw [Function.update_of_ne hji]
      simp only [Function.update_of_ne hji] at ht
      exact h.unstarted hj ht
  · by_cases hji : j = i
    · subst hji
      simp only [Function.update_self, Option.some.injEq, Thread.mk.injEq,
        Status.running.injEq] at ht
      obtain ⟨rfl, rfl⟩ := ht
      rw [Function.update_self]
      exact hkeeps
    · simp only [Function.update_of_ne hji] at ht
      rw [Function.update_of_ne hji]
      exact (h.keeps hj ht).rely (hQ request') (h.fits hj) (hothers hj hji).1

/-- One step. -/
theorem Kept.step (h : R.Kept Q member s ghost) (hQ : ∀ request, R.Stable (Q request))
    {l : Label M}
    (hspawn : ∀ i request, member i → l = .spawn i request → s.threads i = none →
      R.Fits R.idle s.world → R.Keeps (Q request) (M.program request) R.idle s.world)
    (hstrange : ∀ i c, ¬ member i → l = .advance i c → ∀ {g o r w}, R.Fits g s.world →
      M.exec s.world o c = some (r, w) → R.Rely g s.world w)
    (hs : s.step l = some s') : ∃ ghost', R.Kept Q member s' ghost' := by
  cases l with
  | spawn i request =>
    obtain ⟨hi, rfl⟩ := System.step_spawn.1 hs
    refine ⟨ghost, h.thread fun hm request' rest ht => ?_⟩
    cases ht
    have hidle := h.unstarted hm hi
    rw [hidle]
    exact hspawn i request hm rfl hi (hidle ▸ h.fits hm)
  | advance i choice =>
    obtain ⟨request, o, next, r, w, hi, hw, rfl⟩ := System.step_advance.1 hs
    by_cases hm : member i
    · obtain ⟨g, hguarantee, hfits, hkeeps⟩ :=
        h.keeps hm hi s.world (R.rely_refl _ _) (h.fits hm) choice r w hw
      exact ⟨_, h.advance hQ hm hguarantee hfits hkeeps⟩
    · have hworld := h.world hQ fun j hj => hstrange i choice hm rfl (h.fits hj) hw
      exact ⟨ghost, hworld.thread fun hm' => absurd hm' hm⟩
  | crash i =>
    obtain ⟨request, o, next, hi, rfl⟩ := System.step_crash.1 hs
    exact ⟨ghost, h.thread fun _ request' rest ht => by cases ht⟩
  | outside event =>
    obtain ⟨w, hw, rfl⟩ := System.step_outside.1 hs
    exact ⟨ghost, h.world hQ fun j hj => R.outside hw (h.fits hj)⟩

/-- **In every interleaving the members keep the protocol.** -/
theorem Kept.run {P : System M → Label M → Prop} (h : R.Kept Q member s ghost)
    (hQ : ∀ request, R.Stable (Q request))
    (hspawn : ∀ s i request, member i → P s (.spawn i request) → s.threads i = none →
      R.Fits R.idle s.world → R.Keeps (Q request) (M.program request) R.idle s.world)
    (hstrange : ∀ s i c, ¬ member i → P s (.advance i c) → ∀ {g o r w}, R.Fits g s.world →
      M.exec s.world o c = some (r, w) → R.Rely g s.world w)
    (hrun : Run P s s') : ∃ ghost', R.Kept Q member s' ghost' := by
  induction hrun with
  | refl => exact ⟨ghost, h⟩
  | tail _ hp hs ih =>
    obtain ⟨ghost', h'⟩ := ih
    refine h'.step hQ (fun i request hm hl => ?_) (fun i c hm hl => ?_) hs
    · subst hl
      exact hspawn _ i request hm hp
    · subst hl
      exact hstrange _ i c hm hp

end Protocol

end Interleaving
