import Mathlib.Logic.Function.Basic

/-!
# Programs over a shared world

A program is the tree of the operations it performs: at each node one operation, and a
continuation for every answer the world can give. An operation is atomic; everything between two
operations is local to the program. A `Typestate` is an automaton over operations. `Conforms` says
that a program, started in a phase of the automaton, performs only operations its phase allows and
returns only in states a postcondition accepts. It is a weakest precondition, so it is computed
along the structure of the program and composes over `bind`.
-/

namespace Interleaving

/-- What a program may ask of the world it runs in: the operations, and the answers to each. -/
structure Interface where
  Op : Type
  Ret : Op → Type

/-- A program: either finished, or performing one operation and continuing with its answer. -/
inductive Prog (I : Interface) (α : Type) where
  | done (value : α)
  | perform (op : I.Op) (next : I.Ret op → Prog I α)

namespace Prog

variable {I : Interface} {α β γ : Type}

protected def bind : Prog I α → (α → Prog I β) → Prog I β
  | .done a, f => f a
  | .perform o k, f => .perform o fun r => (k r).bind f

instance : Monad (Prog I) where
  pure := .done
  bind := Prog.bind

/-- The program that performs one operation and returns its answer. -/
def call (o : I.Op) : Prog I (I.Ret o) := .perform o .done

@[simp] theorem pure_def (a : α) : (pure a : Prog I α) = .done a := rfl

@[simp] theorem done_bind (a : α) (f : α → Prog I β) : (Prog.done a : Prog I α) >>= f = f a := rfl

@[simp] theorem perform_bind (o : I.Op) (k : I.Ret o → Prog I α) (f : α → Prog I β) :
    (Prog.perform o k >>= f) = .perform o fun r => k r >>= f := rfl

@[simp] theorem call_bind (o : I.Op) (f : I.Ret o → Prog I β) :
    (call o >>= f) = .perform o f := rfl

theorem bind_done (p : Prog I α) : p >>= Prog.done = p := by
  induction p with
  | done a => rfl
  | perform o k ih => exact congrArg (Prog.perform o) (funext ih)

theorem bind_bind (p : Prog I α) (f : α → Prog I β) (g : β → Prog I γ) :
    p >>= f >>= g = p >>= fun a => f a >>= g := by
  induction p with
  | done a => rfl
  | perform o k ih => exact congrArg (Prog.perform o) (funext ih)

instance : LawfulMonad (Prog I) :=
  LawfulMonad.mk' (Prog I) (fun p => bind_done p) (fun _ _ => rfl) bind_bind

end Prog

section Alone

variable {I : Interface} {α β W C : Type} (exec : W → (o : I.Op) → C → Option (I.Ret o × W))

/-- The program run alone in a world, which answers each operation as the next choice says. -/
def Prog.runs : Prog I α → List C → W → Option (α × W)
  | .done a, [], w => some (a, w)
  | .done _, _ :: _, _ => none
  | .perform _ _, [], _ => none
  | .perform o k, c :: cs, w => (exec w o c).bind fun p => (k p.1).runs cs p.2

variable {exec}

@[simp] theorem Prog.runs_done {a : α} {cs : List C} {w : W} {x : α × W} :
    (Prog.done a : Prog I α).runs exec cs w = some x ↔ cs = [] ∧ x = (a, w) := by
  cases cs <;> simp [Prog.runs, eq_comm]

@[simp] theorem Prog.runs_perform {o : I.Op} {k : I.Ret o → Prog I α} {cs : List C} {w : W}
    {x : α × W} : (Prog.perform o k).runs exec cs w = some x ↔ ∃ c cs' r w₁, cs = c :: cs' ∧
      exec w o c = some (r, w₁) ∧ (k r).runs exec cs' w₁ = some x := by
  cases cs with
  | nil => simp [Prog.runs]
  | cons c cs =>
    simp only [Prog.runs, Option.bind_eq_some_iff, Prod.exists, List.cons.injEq]
    constructor
    · rintro ⟨r, w₁, he, hr⟩
      exact ⟨c, cs, r, w₁, ⟨rfl, rfl⟩, he, hr⟩
    · rintro ⟨_, _, r, w₁, ⟨rfl, rfl⟩, he, hr⟩
      exact ⟨r, w₁, he, hr⟩

/-- Sequencing: the second program takes over the world the first one leaves. -/
theorem Prog.runs_bind {p : Prog I α} {f : α → Prog I β} {cs : List C} {w : W} {x : β × W} :
    (p >>= f).runs exec cs w = some x ↔ ∃ cs₁ cs₂ a w₁, cs = cs₁ ++ cs₂ ∧
      p.runs exec cs₁ w = some (a, w₁) ∧ (f a).runs exec cs₂ w₁ = some x := by
  induction p generalizing cs w with
  | done a =>
    rw [Prog.done_bind]
    constructor
    · intro h
      exact ⟨[], cs, a, w, rfl, Prog.runs_done.2 ⟨rfl, rfl⟩, h⟩
    · rintro ⟨cs₁, cs₂, b, w₁, rfl, h, h'⟩
      obtain ⟨rfl, h⟩ := Prog.runs_done.1 h
      cases h
      exact h'
  | perform o k ih =>
    rw [Prog.perform_bind]
    simp only [Prog.runs_perform]
    constructor
    · rintro ⟨c, cs', r, w₁, rfl, he, h⟩
      obtain ⟨cs₁, cs₂, a, w₂, rfl, h₁, h₂⟩ := (ih r).1 h
      exact ⟨c :: cs₁, cs₂, a, w₂, rfl, ⟨c, cs₁, r, w₁, rfl, he, h₁⟩, h₂⟩
    · rintro ⟨cs₁, cs₂, a, w₂, rfl, ⟨c, cs', r, w₁, rfl, he, h₁⟩, h₂⟩
      exact ⟨c, cs' ++ cs₂, r, w₁, rfl, he, (ih r).2 ⟨cs', cs₂, a, w₂, rfl, h₁, h₂⟩⟩

theorem Prog.runs_map {p : Prog I α} {f : α → β} {cs : List C} {w w' : W} {b : β}
    (h : (f <$> p).runs exec cs w = some (b, w')) :
    ∃ a, b = f a ∧ p.runs exec cs w = some (a, w') := by
  rw [← bind_pure_comp] at h
  obtain ⟨cs₁, cs₂, a, w₁, rfl, h₁, h₂⟩ := Prog.runs_bind.1 h
  obtain ⟨rfl, hb⟩ := Prog.runs_done.1 h₂
  cases hb
  exact ⟨a, rfl, by rwa [List.append_nil]⟩

end Alone

section Uses

variable {I : Interface} {α β : Type} {N : I.Op → Prop}

/-- Every operation of the program satisfies `N`, whatever answers it gets. -/
def Prog.Uses (N : I.Op → Prop) : Prog I α → Prop
  | .done _ => True
  | .perform o k => N o ∧ ∀ r, (k r).Uses N

@[simp] theorem uses_done (a : α) : (Prog.done a : Prog I α).Uses N := trivial

@[simp] theorem uses_perform {o : I.Op} {k : I.Ret o → Prog I α} :
    (Prog.perform o k).Uses N ↔ N o ∧ ∀ r, (k r).Uses N := Iff.rfl

theorem Prog.Uses.mono {M : I.Op → Prop} {p : Prog I α} (hp : p.Uses N) (h : ∀ o, N o → M o) :
    p.Uses M := by
  induction p with
  | done a => trivial
  | perform o k ih => exact ⟨h o hp.1, fun r => ih r (hp.2 r)⟩

theorem Prog.Uses.bind {p : Prog I α} {f : α → Prog I β} (hp : p.Uses N)
    (hf : ∀ a, (f a).Uses N) : (p >>= f).Uses N := by
  induction p with
  | done a => exact hf a
  | perform o k ih => exact ⟨hp.1, fun r => ih r (hp.2 r)⟩

theorem Prog.uses_any (p : Prog I α) : p.Uses fun _ => True := by
  induction p with
  | done a => trivial
  | perform o k ih => exact ⟨trivial, ih⟩

end Uses

/-! ## Two interfaces -/

section Sum

variable {I J : Interface} {α : Type}

/-- The operations of both. -/
@[reducible] def Interface.sum (I J : Interface) : Interface := ⟨I.Op ⊕ J.Op, Sum.elim I.Ret J.Ret⟩

/-- A program of the first interface, as one of both. -/
def Prog.inl : Prog I α → Prog (I.sum J) α
  | .done a => .done a
  | .perform o k => .perform (.inl o) fun r => (k r).inl

/-- A program of the second interface, as one of both. -/
def Prog.inr : Prog J α → Prog (I.sum J) α
  | .done a => .done a
  | .perform o k => .perform (.inr o) fun r => (k r).inr

theorem Prog.uses_inl {N : (I.sum J).Op → Prop} (h : ∀ o, N (.inl o)) (p : Prog I α) :
    p.inl.Uses N := by
  induction p with
  | done a => trivial
  | perform o k ih => exact ⟨h o, ih⟩

end Sum

/-- An automaton over the operations of an interface: which operations a phase allows, and the
phase after an operation was answered. -/
structure Typestate (I : Interface) where
  Phase : Type
  Allows : Phase → I.Op → Prop
  advance : Phase → (o : I.Op) → I.Ret o → Phase

section Conforms

variable {I : Interface} {α β : Type} (T : Typestate I) (A : (o : I.Op) → I.Ret o → Prop)

/-- From phase `q` the program performs allowed operations only, whatever answers it gets among
those `A` admits, and every return satisfies `Q`. -/
def Conforms : T.Phase → Prog I α → (T.Phase → α → Prop) → Prop
  | q, .done a, Q => Q q a
  | q, .perform o k, Q => T.Allows q o ∧ ∀ r, A o r → Conforms (T.advance q o r) (k r) Q

variable {T A}

@[simp] theorem conforms_done {q : T.Phase} {a : α} {Q : T.Phase → α → Prop} :
    Conforms T A q (.done a) Q ↔ Q q a := Iff.rfl

theorem conforms_perform {q : T.Phase} {o : I.Op} {k : I.Ret o → Prog I α}
    {Q : T.Phase → α → Prop} :
    Conforms T A q (.perform o k) Q ↔
      T.Allows q o ∧ ∀ r, A o r → Conforms T A (T.advance q o r) (k r) Q := Iff.rfl

theorem Conforms.mono {p : Prog I α} {q : T.Phase} {Q R : T.Phase → α → Prop}
    (h : Conforms T A q p Q) (hQR : ∀ q a, Q q a → R q a) : Conforms T A q p R := by
  induction p generalizing q with
  | done a => exact hQR _ _ h
  | perform o k ih => exact ⟨h.1, fun r hr => ih r (h.2 r hr)⟩

/-- The more is known of the answers, the less there is to conform to. -/
theorem Conforms.admits {B : (o : I.Op) → I.Ret o → Prop} (hBA : ∀ o r, B o r → A o r)
    {p : Prog I α} {q : T.Phase} {Q : T.Phase → α → Prop} (h : Conforms T A q p Q) :
    Conforms T B q p Q := by
  induction p generalizing q with
  | done a => exact h
  | perform o k ih => exact ⟨h.1, fun r hr => ih r (h.2 r (hBA o r hr))⟩

/-- Sequencing: the first program hands its phase and value to the second. -/
theorem conforms_bind {p : Prog I α} {f : α → Prog I β} {q : T.Phase} {Q : T.Phase → β → Prop} :
    Conforms T A q (p >>= f) Q ↔ Conforms T A q p fun q' a => Conforms T A q' (f a) Q := by
  induction p generalizing q with
  | done a => exact Iff.rfl
  | perform o k ih =>
    simp only [Prog.perform_bind, conforms_perform]
    exact and_congr_right fun _ => forall_congr' fun r => imp_congr_right fun _ => ih r

theorem Conforms.bind {p : Prog I α} {f : α → Prog I β} {q : T.Phase}
    {R : T.Phase → α → Prop} {Q : T.Phase → β → Prop} (hp : Conforms T A q p R)
    (hf : ∀ q' a, R q' a → Conforms T A q' (f a) Q) : Conforms T A q (p >>= f) Q :=
  conforms_bind.2 (hp.mono hf)

/-- One operation, and what follows it. -/
theorem Conforms.call {q : T.Phase} {o : I.Op} {k : I.Ret o → Prog I α} {Q : T.Phase → α → Prop}
    (ho : T.Allows q o) (hk : ∀ r, A o r → Conforms T A (T.advance q o r) (k r) Q) :
    Conforms T A q (Prog.call o >>= k) Q := ⟨ho, hk⟩

/-- A property of the phase that allows certain operations, and survives all of them, survives a
program that performs no others. -/
theorem Conforms.keeps {N : I.Op → Prop} {K : T.Phase → Prop} {p : Prog I α} {q : T.Phase}
    (hK : ∀ q o, K q → N o → T.Allows q o ∧ ∀ r, A o r → K (T.advance q o r)) (hq : K q)
    (hp : p.Uses N) : Conforms T A q p fun q' _ => K q' := by
  induction p generalizing q with
  | done a => exact hq
  | perform o k ih =>
    obtain ⟨ho, hnext⟩ := hK q o hq hp.1
    exact ⟨ho, fun r hr => ih r (hnext r hr) (hp.2 r)⟩

/-- Operations that a phase allows and that do not leave it can be performed in any number. -/
theorem Conforms.of_uses {N : I.Op → Prop} {p : Prog I α} {q : T.Phase}
    (hq : ∀ o, N o → T.Allows q o ∧ ∀ r, T.advance q o r = q) (hp : p.Uses N) :
    Conforms T A q p fun q' _ => q' = q := by
  refine Conforms.keeps (K := fun q' => q' = q) ?_ rfl hp
  rintro _ o rfl ho
  exact ⟨(hq o ho).1, fun r _ => (hq o ho).2 r⟩

/-- A typestate that allows whatever another one does, as long as their phases stay related, is
conformed to as well. -/
theorem Conforms.simulates {S : Typestate I} {R : T.Phase → S.Phase → Prop} {p : Prog I α}
    {q : T.Phase} {q' : S.Phase} {Q : T.Phase → α → Prop} (h : Conforms T A q p Q) (hq : R q q')
    (hR : ∀ q q' o, R q q' → T.Allows q o →
      S.Allows q' o ∧ ∀ r, A o r → R (T.advance q o r) (S.advance q' o r)) :
    Conforms S A q' p fun q' a => ∃ q, R q q' ∧ Q q a := by
  induction p generalizing q q' with
  | done a => exact ⟨q, hq, h⟩
  | perform o k ih =>
    obtain ⟨ho, hnext⟩ := hR q q' o hq h.1
    exact ⟨ho, fun r hr => ih r (h.2 r hr) (hnext r hr)⟩

/-- What every allowed operation keeps of phase and world holds when a program that runs alone has
finished, beside what its returns satisfy. -/
theorem Conforms.runs {W C : Type} {exec : W → (o : I.Op) → C → Option (I.Ret o × W)}
    {Inv : T.Phase → W → Prop} {N : I.Op → Prop}
    (hA : ∀ {w o c r w'}, exec w o c = some (r, w') → A o r)
    (hstep : ∀ {q w o c r w'}, Inv q w → T.Allows q o → N o → exec w o c = some (r, w') →
      Inv (T.advance q o r) w') {p : Prog I α} {q : T.Phase} {Q : T.Phase → α → Prop}
    (h : Conforms T A q p Q) (hN : p.Uses N) {cs : List C} {w w' : W} {a : α} (hi : Inv q w)
    (hr : p.runs exec cs w = some (a, w')) : ∃ q', Inv q' w' ∧ Q q' a := by
  induction p generalizing q cs w with
  | done b =>
    obtain ⟨-, hb⟩ := Prog.runs_done.1 hr
    cases hb
    exact ⟨q, hi, h⟩
  | perform o k ih =>
    obtain ⟨c, cs', r, w₁, -, he, hrest⟩ := Prog.runs_perform.1 hr
    exact ih r (h.2 r (hA he)) (hN.2 r) (hstep hi h.1 hN.1 he) hrest

/-- A phase that allows nothing has only finished programs in it. -/
theorem Conforms.done_of_stuck {p : Prog I α} {q : T.Phase} {Q : T.Phase → α → Prop}
    (h : Conforms T A q p Q) (hq : ∀ o, ¬ T.Allows q o) : ∃ a, p = .done a ∧ Q q a := by
  cases p with
  | done a => exact ⟨a, rfl, h⟩
  | perform o k => exact absurd h.1 (hq o)

end Conforms

end Interleaving
