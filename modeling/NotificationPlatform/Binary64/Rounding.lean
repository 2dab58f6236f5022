import Mathlib.Algebra.Order.Floor.Ring
import Mathlib.Data.Int.Log
import Mathlib.Data.Rat.Floor
import Mathlib.Tactic.Linarith

/-!
# Rounding to a double

A number is rounded to the nearest double, and to the even one where two are as near. Doubles of one
magnitude lie on a grid of 53 bits, which is never finer than the least double. What is too large for
a double is rounded as if there were no largest one.
-/

namespace Binary64

/-! ## The nearest whole number -/

/-- The nearest whole number, the even one of two that are as near. -/
def nearest (q : ℚ) : Int :=
  if q - ⌊q⌋ < 1 / 2 then ⌊q⌋
  else if 1 / 2 < q - ⌊q⌋ then ⌊q⌋ + 1
  else if ⌊q⌋ % 2 = 0 then ⌊q⌋ else ⌊q⌋ + 1

example : [5 / 2, 7 / 2, -5 / 2, 7 / 3].map nearest = [2, 4, -2, 2] := by decide +kernel

variable {q r : ℚ} {k : Int}

/-- The exponent of the last bit of a double near the number. -/
def lastBit (q : ℚ) : Int := max (Int.log 2 |q| - 52) (-1074)

/-- The nearest double. -/
def round (q : ℚ) : ℚ := nearest (q / 2 ^ lastBit q) * 2 ^ lastBit q

end Binary64
