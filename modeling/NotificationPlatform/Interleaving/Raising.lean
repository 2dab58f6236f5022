import NotificationPlatform.Interleaving.Program

/-!
# Programs that can end with an error

A program of `ExceptT` performs operations until it returns or throws. What it conforms to, and what
a run of it alone does, is read off its `run`, where a `bind` is a case distinction on how the first
program ended.
-/

namespace Interleaving

variable {I : Interface} {ε α β : Type}

/-- A program that returns a value or throws an error. -/
abbrev Raising (I : Interface) (ε α : Type) := ExceptT ε (Prog I) α

namespace Raising

/-- The program that performs one operation and returns its answer. -/
def call (o : I.Op) : Raising I ε (I.Ret o) := ExceptT.lift (Prog.call o)

/-- What follows a program that ended: the next program, or nothing. -/
def andThen (f : α → Raising I ε β) : Except ε α → Prog I (Except ε β)
  | .ok a => (f a).run
  | .error e => .done (.error e)

theorem run_bind (x : Raising I ε α) (f : α → Raising I ε β) :
    (x >>= f).run = x.run >>= andThen f := by
  simp only [ExceptT.run_bind]
  congr 1

@[simp] theorem run_pure (a : α) : (pure a : Raising I ε α).run = .done (.ok a) := rfl

@[simp] theorem run_throw (e : ε) : (throw e : Raising I ε α).run = .done (.error e) := rfl

@[simp] theorem run_throw_bind (e : ε) (f : α → Raising I ε β) :
    ((throw e : Raising I ε α) >>= f).run = .done (.error e) := rfl

@[simp] theorem run_pure_bind (a : α) (f : α → Raising I ε β) :
    ((pure a : Raising I ε α) >>= f).run = (f a).run := rfl

@[simp] theorem run_call_bind (o : I.Op) (f : I.Ret o → Raising I ε β) :
    ((call o : Raising I ε _) >>= f).run = .perform o fun r => (f r).run := rfl

@[simp] theorem run_call (o : I.Op) :
    (call o : Raising I ε _).run = .perform o fun r => .done (.ok r) := rfl

section Conforms

variable {T : Typestate I} {A : (o : I.Op) → I.Ret o → Prop}

/-- Sequencing: an error of the first program ends both. -/
theorem conforms_bind {x : Raising I ε α} {f : α → Raising I ε β} {q : T.Phase}
    {Q : T.Phase → Except ε β → Prop} :
    Conforms T A q (x >>= f).run Q ↔
      Conforms T A q x.run fun q' r => Conforms T A q' (andThen f r) Q := by
  rw [run_bind]
  exact Interleaving.conforms_bind

end Conforms

theorem uses_bind {N : I.Op → Prop} {x : Raising I ε α} {f : α → Raising I ε β}
    (hx : x.run.Uses N) (hf : ∀ a, (f a).run.Uses N) : (x >>= f).run.Uses N := by
  rw [run_bind]
  refine hx.bind fun r => ?_
  cases r with
  | ok a => exact hf a
  | error e => trivial

end Raising

end Interleaving
