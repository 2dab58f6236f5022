import NotificationPlatform.Interleaving.Raising
import NotificationPlatform.Interleaving.System

/-!
# What a finished request performed

A request that has returned performed the operations its program leads to under the answers it was
given, in this order, and each of them at some moment of the run.
-/

namespace Interleaving

variable {I : Interface} {ε α β : Type}

/-! ## Programs that have returned -/

namespace Prog

/-- Given these answers in turn, the program returns. -/
def Took : Prog I α → List (Performed I) → α → Prop
  | .done a, es, b => es = [] ∧ b = a
  | .perform o k, es, b => ∃ i r rest, es = ⟨i, o, r⟩ :: rest ∧ (k r).Took rest b

theorem took_bind {p : Prog I α} {f : α → Prog I β} {es : List (Performed I)} {b : β} :
    (p >>= f).Took es b ↔ ∃ before after a, es = before ++ after ∧ p.Took before a ∧
      (f a).Took after b := by
  induction p generalizing es with
  | done a =>
    constructor
    · intro h
      exact ⟨[], es, a, rfl, ⟨rfl, rfl⟩, h⟩
    · rintro ⟨before, after, a', rfl, ⟨rfl, rfl⟩, h⟩
      exact h
  | perform o k ih =>
    constructor
    · intro h
      obtain ⟨i, r, rest, hes, hrest⟩ := h
      obtain ⟨before, after, a, hsplit, hbefore, hafter⟩ := (ih r).1 hrest
      refine ⟨⟨i, o, r⟩ :: before, after, a, ?_, ⟨i, r, before, rfl, hbefore⟩, hafter⟩
      rw [hes, hsplit]
      rfl
    · intro h
      obtain ⟨before, after, a, hes, ⟨i, r, rest, hbefore, hrest⟩, hafter⟩ := h
      refine ⟨i, r, rest ++ after, ?_, (ih r).2 ⟨rest, after, a, rfl, hrest, hafter⟩⟩
      rw [hes, hbefore]
      rfl

theorem took_map {p : Prog I α} {f : α → β} {es : List (Performed I)} {b : β}
    (h : (f <$> p).Took es b) : ∃ a, p.Took es a ∧ b = f a := by
  obtain ⟨before, after, a, rfl, hbefore, rfl, rfl⟩ := took_bind.1 h
  exact ⟨a, (List.append_nil before).symm ▸ hbefore, rfl⟩

/-- Given these answers in turn, the program is still running, or returns. -/
def Begins : Prog I α → List (Performed I) → Prop
  | _, [] => True
  | .done _, _ :: _ => False
  | .perform o k, e :: es => ∃ i r, e = ⟨i, o, r⟩ ∧ (k r).Begins es

theorem begins_nil (p : Prog I α) : p.Begins [] := by
  cases p <;> trivial

theorem begins_bind {p : Prog I α} {f : α → Prog I β} {es : List (Performed I)}
    (h : (p >>= f).Begins es) : p.Begins es ∨ ∃ before after a, es = before ++ after ∧
      p.Took before a ∧ (f a).Begins after := by
  induction p generalizing es with
  | done a => exact .inr ⟨[], es, a, rfl, ⟨rfl, rfl⟩, h⟩
  | perform o k ih =>
    cases es with
    | nil => exact .inl trivial
    | cons e es =>
      obtain ⟨i, r, rfl, hrest⟩ := h
      rcases ih r hrest with hbegins | ⟨before, after, a, rfl, hbefore, hafter⟩
      · exact .inl ⟨i, r, rfl, hbegins⟩
      · exact .inr ⟨⟨i, o, r⟩ :: before, after, a, rfl, ⟨i, r, before, rfl, hbefore⟩, hafter⟩

/-- What a program has performed when it returns is how it begins. -/
theorem Took.begins {p : Prog I α} {es : List (Performed I)} {a : α} (h : p.Took es a) :
    p.Begins es := by
  induction p generalizing es with
  | done b =>
    obtain ⟨rfl, -⟩ := h
    trivial
  | perform o k ih =>
    obtain ⟨i, r, rest, rfl, hrest⟩ := h
    exact ⟨i, r, rfl, ih r hrest⟩

theorem begins_map {p : Prog I α} {f : α → β} {es : List (Performed I)}
    (h : (f <$> p).Begins es) : p.Begins es := by
  rcases begins_bind h with hbegins | ⟨before, after, a, rfl, hbefore, hafter⟩
  · exact hbegins
  · cases after with
    | nil =>
      rw [List.append_nil]
      exact hbefore.begins
    | cons e after => exact hafter.elim

/-- What a program has performed so far is among the operations it uses. -/
theorem Begins.uses {N : I.Op → Prop} {p : Prog I α} {es : List (Performed I)} (h : p.Begins es)
    (hN : p.Uses N) : ∀ e ∈ es, N e.op := by
  induction es generalizing p with
  | nil =>
    intro e he
    cases he
  | cons e es ih =>
    cases p with
    | done a => exact h.elim
    | perform o k =>
      obtain ⟨i, r, rfl, hrest⟩ := h
      intro e' he'
      rcases List.mem_cons.1 he' with rfl | he'
      · exact hN.1
      · exact ih hrest (hN.2 r) e' he'

end Prog

namespace Raising

theorem took_bind {x : Raising I ε α} {f : α → Raising I ε β} {es : List (Performed I)}
    {b : Except ε β} : (x >>= f).run.Took es b ↔ ∃ before after a, es = before ++ after ∧
      x.run.Took before a ∧ (andThen f a).Took after b := by
  rw [run_bind]
  exact Prog.took_bind

theorem begins_bind {x : Raising I ε α} {f : α → Raising I ε β} {es : List (Performed I)}
    (h : (x >>= f).run.Begins es) : x.run.Begins es ∨ ∃ before after a, es = before ++ after ∧
      x.run.Took before a ∧ (andThen f a).Begins after := by
  rw [run_bind] at h
  exact Prog.begins_bind h

theorem took_call {o : I.Op} {f : I.Ret o → Raising I ε α} {es : List (Performed I)}
    {a : Except ε α} : ((call o : Raising I ε _) >>= f).run.Took es a ↔
      ∃ i r rest, es = ⟨i, o, r⟩ :: rest ∧ (f r).run.Took rest a := Iff.rfl

theorem took_pure {es : List (Performed I)} {a : α} {b : Except ε α} :
    (pure a : Raising I ε α).run.Took es b ↔ es = [] ∧ b = .ok a := Iff.rfl

theorem took_throw {es : List (Performed I)} {e : ε} {b : Except ε α} :
    (throw e : Raising I ε α).run.Took es b ↔ es = [] ∧ b = .error e := Iff.rfl

end Raising

/-! ## Requests that have returned -/

variable {M : Machine I} {P : System M → Label M → Prop} {s s' : System M} {i : Nat}

namespace System

theorem Left.took {p rest : Prog I α} {history es : List (Performed I)} {a : α}
    (h : Left p history rest) (hrest : rest.Took es a) : p.Took (history.reverse ++ es) a := by
  induction h generalizing es with
  | all => exact hrest
  | @performed older j o k r _ ih =>
    rw [List.reverse_cons, List.append_assoc]
    exact ih ⟨j, r, es, rfl, hrest⟩

theorem Left.begins {p rest : Prog I α} {history es : List (Performed I)}
    (h : Left p history rest) (hrest : rest.Begins es) : p.Begins (history.reverse ++ es) := by
  induction h generalizing es with
  | all => exact hrest
  | @performed older j o k r _ ih =>
    rw [List.reverse_cons, List.append_assoc]
    exact ih ⟨j, r, rfl, hrest⟩

/-- What is left of a program that returns under what it was given returns too. -/
theorem Left.rest_took {p rest : Prog I α} {history es : List (Performed I)} {a : α}
    (h : Left p history rest) (hp : p.Took (history.reverse ++ es) a) : rest.Took es a := by
  induction h generalizing es with
  | all => exact hp
  | @performed older j o k r _ ih =>
    rw [List.reverse_cons, List.append_assoc] at hp
    obtain ⟨j', r', rest', hes, hrest⟩ := ih hp
    cases hes
    exact hrest

theorem mem_history {e : Performed I} : e ∈ s.history i ↔ e ∈ s.trace ∧ e.thread = i := by
  simp [history]

/-- What thread `i` has returned. -/
def result? (s : System M) (i : Nat) : Option M.Result :=
  match s.threads i with
  | some ⟨_, .running (.done a)⟩ => some a
  | _ => none

theorem returned_iff {a : M.Result} : s.Returned i a ↔ s.result? i = some a := by
  unfold result?
  constructor
  · intro h
    obtain ⟨request, hi⟩ := h
    rw [hi]
  · intro h
    split at h
    · rename_i request b hi
      cases h
      exact ⟨request, hi⟩
    · cases h

/-- A thread that performs nothing next has come to its end, and stays there. -/
theorem stopped_step {l : Label M} (h : s.step l = some s') (hi : (s.threads i).isSome = true)
    (hstop : s.nextOp i = none) : s'.nextOp i = none := by
  cases l with
  | spawn j request' =>
    obtain ⟨hj, rfl⟩ := step_spawn.1 h
    have hij : i ≠ j := by
      rintro rfl
      rw [hj] at hi
      cases hi
    simpa only [System.nextOp, Function.update_of_ne hij] using hstop
  | advance j c =>
    obtain ⟨request', o, k, r, w, hj, -, rfl⟩ := step_advance.1 h
    have hij : i ≠ j := by
      rintro rfl
      simp only [System.nextOp, hj] at hstop
      cases hstop
    simpa only [System.nextOp, record, Function.update_of_ne hij] using hstop
  | crash j =>
    obtain ⟨request', o, k, hj, rfl⟩ := step_crash.1 h
    by_cases hij : i = j
    · subst hij
      simp only [System.nextOp, Function.update_self]
    · simpa only [System.nextOp, Function.update_of_ne hij] using hstop
  | outside event =>
    obtain ⟨w, -, rfl⟩ := step_outside.1 h
    exact hstop

/-- A thread that has returned takes no more steps. -/
theorem returned_step {l : Label M} (h : s.step l = some s') {a : M.Result} (hi : s.Returned i a) :
    s'.Returned i a := by
  obtain ⟨request, hi⟩ := hi
  refine ⟨request, ?_⟩
  cases l with
  | spawn j request' =>
    obtain ⟨hj, rfl⟩ := step_spawn.1 h
    by_cases hij : i = j
    · subst hij
      rw [hi] at hj
      cases hj
    · simp only [Function.update_of_ne hij, hi]
  | advance j c =>
    obtain ⟨request', o, k, r, w, hj, -, rfl⟩ := step_advance.1 h
    by_cases hij : i = j
    · subst hij
      rw [hi] at hj
      cases hj
    · simp only [record, Function.update_of_ne hij, hi]
  | crash j =>
    obtain ⟨request', o, k, hj, rfl⟩ := step_crash.1 h
    by_cases hij : i = j
    · subst hij
      rw [hi] at hj
      cases hj
    · simp only [Function.update_of_ne hij, hi]
  | outside event =>
    obtain ⟨w, -, rfl⟩ := step_outside.1 h
    exact hi

end System

namespace Run

theorem returned_stays (h : Run P s s') {a : M.Result} (hi : s.Returned i a) : s'.Returned i a :=
  h.invariant hi fun _ _ _ _ hreturned _ hs => System.returned_step hs hreturned

theorem requestOf_stays (h : Run P s s') {request : M.Request}
    (hi : s.requestOf i = some request) : s'.requestOf i = some request :=
  h.invariant hi fun _ _ _ _ hrequest _ hs => System.requestOf_step hs hrequest

/-- A request that has returned took what its thread performed. -/
theorem took {w : M.World} (h : Run P (System.start w) s) {a : M.Result}
    (hi : s.Returned i a) :
    ∃ request, s.requestOf i = some request ∧
      (M.program request).Took (s.history i).reverse a := by
  obtain ⟨request, hthread⟩ := hi
  refine ⟨request, by simp only [System.requestOf, hthread, Option.map_some], ?_⟩
  have hleft := Discipline.left_run h hthread
  have htook := hleft.took (show (Prog.done a).Took [] a from ⟨rfl, rfl⟩)
  rwa [List.append_nil] at htook

/-- What a thread has performed is how its program begins, however far it came. -/
theorem begins {w : M.World} (h : Run P (System.start w) s) {t : Thread M}
    (hi : s.threads i = some t) : (M.program t.request).Begins (s.history i).reverse := by
  obtain ⟨rest, hrest⟩ := Discipline.remains_run (D := Discipline.lax M) h hi
  have hbegins := hrest.left.begins (Prog.begins_nil rest)
  rwa [List.append_nil] at hbegins

/-- Whoever performed something serves a request, and this is how its program begins. -/
theorem began {w : M.World} (h : Run P (System.start w) s) {e : Performed I} (he : e ∈ s.trace) :
    ∃ request, s.requestOf e.thread = some request ∧
      (M.program request).Begins (s.history e.thread).reverse := by
  obtain ⟨request, hrequest⟩ :=
    (Discipline.disciplined_run (D := Discipline.lax M) h).quiet.requestOf he
  obtain ⟨t, ht, rfl⟩ := Option.map_eq_some_iff.1 hrequest
  exact ⟨t.request, hrequest, h.begins ht⟩

/-- A thread that crashed had an operation left to perform. -/
theorem crashed {w : M.World} (h : Run P (System.start w) s) {request : M.Request}
    (hi : s.threads i = some ⟨request, .crashed⟩) :
    ∃ o k, System.Left (M.program request) (s.history i) (.perform o k) := by
  induction h with
  | refl => cases hi
  | @tail s₁ s₂ l hr _ hs ih =>
    cases l with
    | spawn j request' =>
      obtain ⟨-, rfl⟩ := System.step_spawn.1 hs
      by_cases hij : i = j
      · subst hij
        simp at hi
      · simp only [Function.update_of_ne hij] at hi
        exact ih hi
    | advance j c =>
      obtain ⟨request', o, k, r, w', -, -, rfl⟩ := System.step_advance.1 hs
      by_cases hij : i = j
      · subst hij
        simp [System.record] at hi
      · simp only [System.record, Function.update_of_ne hij] at hi
        rw [System.history_record_other _ hij]
        exact ih hi
    | crash j =>
      obtain ⟨request', o, k, hj, rfl⟩ := System.step_crash.1 hs
      by_cases hij : i = j
      · subst hij
        simp only [Function.update_self, Option.some.injEq, Thread.mk.injEq, and_true] at hi
        subst hi
        exact ⟨o, k, Discipline.left_run hr hj⟩
      · simp only [Function.update_of_ne hij] at hi
        exact ih hi
    | outside event =>
      obtain ⟨w', -, rfl⟩ := System.step_outside.1 hs
      exact ih hi

/-- A thread that was given all its program needs has returned. -/
theorem returned {w : M.World} (h : Run P (System.start w) s) {t : Thread M}
    (hi : s.threads i = some t) {a : M.Result}
    (ha : (M.program t.request).Took (s.history i).reverse a) : s.Returned i a := by
  rw [← List.append_nil (s.history i).reverse] at ha
  obtain ⟨request, status⟩ := t
  cases status with
  | running rest =>
    have hrest := (Discipline.left_run h hi).rest_took ha
    cases rest with
    | done b =>
      obtain ⟨-, rfl⟩ := hrest
      exact ⟨request, hi⟩
    | perform o k =>
      obtain ⟨j, r, rest', hes, -⟩ := hrest
      cases hes
  | crashed =>
    obtain ⟨o, k, hleft⟩ := h.crashed hi
    obtain ⟨j, r, rest', hes, -⟩ := hleft.rest_took ha
    cases hes

/-- The moment at which a thread performed the operation at some place of its history. -/
theorem moment_at {w : M.World} (h : Run P (System.start w) s) {post pre : List (Performed I)}
    {e : Performed I} (he : s.history i = post ++ e :: pre) : ∃ s₁ l s₂,
      Run P (System.start w) s₁ ∧ s₁.history i = pre ∧ s₁.Performs l e s₂ ∧ Run P s₂ s := by
  induction h generalizing post with
  | refl => simp [System.history, System.start] at he
  | @tail s₁ s₂ l hr hp hs ih =>
    have hearlier : s₁.history i = s₂.history i → ∃ s₃ l s₄,
        Run P (System.start w) s₃ ∧ s₃.history i = pre ∧ s₃.Performs l e s₄ ∧ Run P s₄ s₂ := by
      intro hsame
      obtain ⟨s₃, l', s₄, h₃, hpre, hperforms, h₄⟩ := ih (hsame.trans he)
      exact ⟨s₃, l', s₄, h₃, hpre, hperforms, .tail h₄ hp hs⟩
    cases l with
    | spawn j request =>
      obtain ⟨-, rfl⟩ := System.step_spawn.1 hs
      exact hearlier rfl
    | advance j c =>
      obtain ⟨request, o, k, r, w', -, -, rfl⟩ := System.step_advance.1 hs
      by_cases hij : i = j
      · subst hij
        rw [System.history_record_self] at he
        cases post with
        | nil =>
          cases he
          exact ⟨s₁, .advance i c, _, hr, rfl, ⟨hs, rfl⟩, .refl⟩
        | cons e' post =>
          rw [List.cons_append, List.cons.injEq] at he
          obtain ⟨s₃, l', s₄, h₃, hpre, hperforms, h₄⟩ := ih he.2
          exact ⟨s₃, l', s₄, h₃, hpre, hperforms, .tail h₄ hp hs⟩
      · exact hearlier (System.history_record_other _ hij _ _ _ _ _).symm
    | crash j =>
      obtain ⟨request, o, k, -, rfl⟩ := System.step_crash.1 hs
      exact hearlier rfl
    | outside event =>
      obtain ⟨w', -, rfl⟩ := System.step_outside.1 hs
      exact hearlier rfl

/-- What was performed on the way was performed at some moment. -/
theorem moment (h : Run P s s') {e : Performed I} (he : e ∈ s'.trace) :
    e ∈ s.trace ∨ ∃ s₁ l s₂, Run P s s₁ ∧ P s₁ l ∧ s₁.Performs l e s₂ ∧ Run P s₂ s' := by
  induction h with
  | refl => exact .inl he
  | @tail s₁ s₂ l hr hp hs ih =>
    have hearlier : e ∈ s₁.trace → e ∈ s.trace ∨
        ∃ s₃ l s₄, Run P s s₃ ∧ P s₃ l ∧ s₃.Performs l e s₄ ∧ Run P s₄ s₂ := by
      intro he
      rcases ih he with hold | ⟨s₃, l', s₄, h₃, hl', hperforms, h₄⟩
      · exact .inl hold
      · exact .inr ⟨s₃, l', s₄, h₃, hl', hperforms, .tail h₄ hp hs⟩
    cases l with
    | spawn j request =>
      obtain ⟨-, rfl⟩ := System.step_spawn.1 hs
      exact hearlier he
    | advance j c =>
      obtain ⟨request, o, k, r, w, hj, hw, rfl⟩ := System.step_advance.1 hs
      rcases List.mem_cons.1 he with rfl | he
      · exact .inr ⟨s₁, .advance j c, _, hr, hp, ⟨hs, rfl⟩, .refl⟩
      · exact hearlier he
    | crash j =>
      obtain ⟨request, o, k, -, rfl⟩ := System.step_crash.1 hs
      exact hearlier he
    | outside event =>
      obtain ⟨w, -, rfl⟩ := System.step_outside.1 hs
      exact hearlier he

/-- A thread that was not started has performed nothing. -/
theorem unstarted {w : M.World} (h : Run P (System.start w) s) (hi : s.threads i = none)
    {e : Performed I} (he : e ∈ s.trace) : e.thread ≠ i := by
  intro hthread
  obtain ⟨request, hrequest⟩ :=
    (Discipline.disciplined_run (D := Discipline.lax M) h).quiet.requestOf he
  rw [hthread, System.requestOf, hi] at hrequest
  cases hrequest

/-- What a request performed that was started after `s`, it performed after `s`. -/
theorem moment_after {Q : System M → Label M → Prop} {w : M.World}
    (h : Run Q (System.start w) s) (hi : s.threads i = none)
    (h' : Run P s s') {e : Performed I} (he : e ∈ s'.history i) :
    ∃ s₁ l s₂, Run P s s₁ ∧ P s₁ l ∧ s₁.Performs l e s₂ ∧ Run P s₂ s' := by
  obtain ⟨htrace, hthread⟩ := System.mem_history.1 he
  rcases h'.moment htrace with hold | hmoment
  · exact absurd hthread (h.unstarted hi hold)
  · exact hmoment

end Run

end Interleaving
