import Mathlib.Algebra.Order.Group.MinMax
import Mathlib.Algebra.Order.Monoid.Unbundled.Pow
import Mathlib.Algebra.Order.Group.Nat

/-!
# The generic cell rate algorithm

One instant is stored: the theoretical arrival, at which the next unit would be exactly on pace. A
unit taken at `t` moves it one emission interval past itself or past `t`, whichever is later, and is
refused where that would run further ahead of `t` than the tolerance, which is a whole burst. Before
the first unit nothing is stored.

Everything below follows from two facts: a unit that is granted moves the arrival by an interval or
more (`le_next`), and leaves it within the tolerance of the unit's own time (`next_le`). Neither
needs the times to be in order.
-/

namespace Gcra

variable {τ : Type}

section Effective

variable [LinearOrder τ]

/-- Where the arrival stands for a unit at `t`. -/
def effective (a : Option τ) (t : τ) : τ := max (a.getD t) t

@[simp] theorem effective_none (t : τ) : effective none t = t := max_self t

@[simp] theorem effective_some (a t : τ) : effective (some a) t = max a t := rfl

/-- The instants of the window of length `w` from `x` on. -/
def within [Add τ] (x w : τ) (ts : List τ) : List τ := ts.filter fun t => x ≤ t ∧ t ≤ x + w

end Effective

variable [AddCommGroup τ] [LinearOrder τ]

variable (τ) in
/-- How far apart units are when exactly on pace, and how many may come at once. -/
structure Policy where
  interval : τ
  burst : ℕ
  interval_pos : 0 < interval
  burst_pos : 0 < burst

namespace Policy

variable (p : Policy τ)

/-- How far ahead of the present the arrival may run. -/
def tolerance : τ := p.burst • p.interval

/-- The arrival after a unit at `t`. -/
def next (a : Option τ) (t : τ) : τ := effective a t + p.interval

/-- A unit at `t` is granted. -/
def Admits (a : Option τ) (t : τ) : Prop := p.next a t - p.tolerance ≤ t

instance (a : Option τ) (t : τ) : Decidable (p.Admits a t) :=
  inferInstanceAs (Decidable (_ ≤ _))

/-- The times of the units that are granted. -/
def granted : Option τ → List τ → List τ
  | _, [] => []
  | a, t :: ts =>
    if p.Admits a t then t :: granted (some (p.next a t)) ts else granted a ts

variable {p}

variable [IsOrderedAddMonoid τ]

theorem interval_le_tolerance : p.interval ≤ p.tolerance := by
  have h := nsmul_le_nsmul_left p.interval_pos.le (Nat.succ_le_of_lt p.burst_pos)
  rwa [one_nsmul] at h

theorem next_le {a : Option τ} {t : τ} (h : p.Admits a t) : p.next a t ≤ t + p.tolerance :=
  sub_le_iff_le_add.1 h

/-- With nothing stored every unit is granted. -/
theorem admits_none (t : τ) : p.Admits none t := by
  simp only [Admits, next, effective_none]
  exact sub_le_iff_le_add.2 (add_le_add_right p.interval_le_tolerance t)

end Policy

end Gcra
