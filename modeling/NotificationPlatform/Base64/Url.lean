import NotificationPlatform.Utf16.Utf8

/-!
# Base64 in the alphabet of URLs

Three bytes are four digits, and what is left at the end is written without padding. Reading takes
the digits of the ordinary alphabet as well and passes over whatever is no digit.
-/

namespace Base64

open Utf16 (Text IsAscii)

/-- The digit of a number below 64. -/
def digit (n : Nat) : UInt16 :=
  if n < 26 then 65 + n.toUInt16
  else if n < 52 then 71 + n.toUInt16
  else if n < 62 then n.toUInt16 - 4
  else if n = 62 then 45
  else 95

def encode : List UInt8 → Text
  | a :: b :: c :: rest =>
    digit (a.toNat / 4) :: digit (a.toNat % 4 * 16 + b.toNat / 16) ::
      digit (b.toNat % 16 * 4 + c.toNat / 64) :: digit (c.toNat % 64) :: encode rest
  | [a, b] =>
    [digit (a.toNat / 4), digit (a.toNat % 4 * 16 + b.toNat / 16), digit (b.toNat % 16 * 4)]
  | [a] => [digit (a.toNat / 4), digit (a.toNat % 4 * 16)]
  | [] => []

/-- The number a digit of either alphabet stands for. -/
def value? (u : UInt16) : Option Nat :=
  if 65 ≤ u ∧ u ≤ 90 then some (u.toNat - 65)
  else if 97 ≤ u ∧ u ≤ 122 then some (u.toNat - 71)
  else if 48 ≤ u ∧ u ≤ 57 then some (u.toNat + 4)
  else if u = 43 ∨ u = 45 then some 62
  else if u = 47 ∨ u = 95 then some 63
  else none

/-- The bytes that four numbers at a time are. -/
def bytes : List Nat → List UInt8
  | p :: q :: r :: s :: rest =>
    (p * 4 + q / 16).toUInt8 :: (q % 16 * 16 + r / 4).toUInt8 :: (r % 4 * 64 + s).toUInt8 ::
      bytes rest
  | [p, q, r] => [(p * 4 + q / 16).toUInt8, (q % 16 * 16 + r / 4).toUInt8]
  | [p, q] => [(p * 4 + q / 16).toUInt8]
  | _ => []

def decode (s : Text) : List UInt8 := bytes (s.filterMap value?)

example : decode (encode [251, 255, 0, 7]) = [251, 255, 0, 7] := by decide

/-! ## Round trip -/

theorem value?_digit : ∀ {n : Nat}, n < 64 → value? (digit n) = some n := by
  decide

/-- A byte is put together again from the numbers it was divided between. -/
theorem toUInt8_eq {n : Nat} {b : UInt8} (h : n = b.toNat) : n.toUInt8 = b := by
  rw [h]
  exact UInt8.ofNat_toNat

theorem decode_encode (l : List UInt8) : decode (encode l) = l := by
  fun_induction encode l with
  | case1 a b c rest ih =>
    have ha : a.toNat < 256 := a.toNat_lt
    have hb : b.toNat < 256 := b.toNat_lt
    have hc : c.toNat < 256 := c.toNat_lt
    rw [decode, List.filterMap_cons_some (value?_digit (by omega)),
      List.filterMap_cons_some (value?_digit (by omega)),
      List.filterMap_cons_some (value?_digit (by omega)),
      List.filterMap_cons_some (value?_digit (by omega)), bytes, toUInt8_eq (b := a) (by omega),
      toUInt8_eq (b := b) (by omega), toUInt8_eq (b := c) (by omega), ← decode, ih]
  | case2 a b =>
    have ha : a.toNat < 256 := a.toNat_lt
    have hb : b.toNat < 256 := b.toNat_lt
    rw [decode, List.filterMap_cons_some (value?_digit (by omega)),
      List.filterMap_cons_some (value?_digit (by omega)),
      List.filterMap_cons_some (value?_digit (by omega)), List.filterMap_nil, bytes,
      toUInt8_eq (b := a) (by omega), toUInt8_eq (b := b) (by omega)]
  | case3 a =>
    have ha : a.toNat < 256 := a.toNat_lt
    rw [decode, List.filterMap_cons_some (value?_digit (by omega)),
      List.filterMap_cons_some (value?_digit (by omega)), List.filterMap_nil, bytes,
      toUInt8_eq (b := a) (by omega)]
  | case4 => rfl

/-- Different bytes have different texts. -/
theorem encode_injective : Function.Injective encode :=
  Function.LeftInverse.injective decode_encode

/-! ## Digits -/

/-- A unit that stands for a number in the alphabet of URLs. -/
def IsDigit (u : UInt16) : Prop := ∃ n < 64, u = digit n

theorem isDigit_of_mem_encode {l : List UInt8} : ∀ u ∈ encode l, IsDigit u := by
  have hdigit : ∀ {n : Nat}, n < 64 → IsDigit (digit n) := fun h => ⟨_, h, rfl⟩
  fun_induction encode l with
  | case1 a b c rest ih =>
    have ha : a.toNat < 256 := a.toNat_lt
    have hb : b.toNat < 256 := b.toNat_lt
    have hc : c.toNat < 256 := c.toNat_lt
    rw [List.forall_mem_cons, List.forall_mem_cons, List.forall_mem_cons, List.forall_mem_cons]
    exact ⟨hdigit (by omega), hdigit (by omega), hdigit (by omega), hdigit (by omega), ih⟩
  | case2 a b =>
    have ha : a.toNat < 256 := a.toNat_lt
    have hb : b.toNat < 256 := b.toNat_lt
    rw [List.forall_mem_cons, List.forall_mem_cons, List.forall_mem_singleton]
    exact ⟨hdigit (by omega), hdigit (by omega), hdigit (by omega)⟩
  | case3 a =>
    have ha : a.toNat < 256 := a.toNat_lt
    rw [List.forall_mem_cons, List.forall_mem_singleton]
    exact ⟨hdigit (by omega), hdigit (by omega)⟩
  | case4 => exact List.forall_mem_nil _

theorem isAscii_digit : ∀ n < 64, (digit n).toNat < 128 := by
  decide

theorem isAscii_encode (l : List UInt8) : IsAscii (encode l) := by
  intro u hu
  obtain ⟨n, hn, rfl⟩ := isDigit_of_mem_encode u hu
  exact isAscii_digit n hn

end Base64
