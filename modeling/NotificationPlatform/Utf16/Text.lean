import Mathlib.Data.List.DropRight
import Mathlib.Data.List.Infix

/-!
# Strings of UTF-16 code units

A JavaScript string is any sequence of code units, paired surrogates or not, and its positions count
code units. `slice`, `startsWith`, `indexOf` and `trim` are the string methods of those names.
-/

namespace Utf16

abbrev Text := List UInt16

/-- The code units of one character: a surrogate pair beyond the basic plane. -/
def encode (c : Char) : Text :=
  if c.toNat < 0x10000 then [c.toNat.toUInt16]
  else [(0xD800 + (c.toNat - 0x10000) / 0x400).toUInt16,
    (0xDC00 + (c.toNat - 0x10000) % 0x400).toUInt16]

def ofString (s : String) : Text := s.toList.flatMap encode

def hexDigit (d : Nat) : UInt16 := if d < 10 then 48 + d.toUInt16 else 87 + d.toUInt16

/-- The first unit of a surrogate pair. -/
def isLeading (u : UInt16) : Bool := 0xD800 ≤ u ∧ u ≤ 0xDBFF

/-- The second unit of a surrogate pair. -/
def isTrailing (u : UInt16) : Bool := 0xDC00 ≤ u ∧ u ≤ 0xDFFF

/-- Every surrogate is one of a pair. -/
def isWellFormed : Text → Bool
  | [] => true
  | [u] => !isLeading u && !isTrailing u
  | u :: v :: rest =>
    if isLeading u ∧ isTrailing v then isWellFormed rest
    else !isLeading u && !isTrailing u && isWellFormed (v :: rest)

/-- The character a surrogate pair stands for. -/
def ofPair (u v : UInt16) : Char :=
  Char.ofNat (0x10000 + (u.toNat - 0xD800) * 0x400 + (v.toNat - 0xDC00))

/-- The character of a unit that is no surrogate; a surrogate on its own is replaced. -/
def ofUnit (u : UInt16) : Char :=
  if isLeading u ∨ isTrailing u then Char.ofNat 0xFFFD else Char.ofNat u.toNat

/-- The characters a text is transmitted as. -/
def characters : Text → List Char
  | [] => []
  | [u] => [ofUnit u]
  | u :: v :: rest =>
    if isLeading u ∧ isTrailing v then ofPair u v :: characters rest
    else ofUnit u :: characters (v :: rest)

def toUnicode (s : Text) : String := String.ofList (characters s)

def slice (s : Text) (start finish : Nat) : Text := (s.take finish).drop start

def startsWith (s pattern : Text) (position : Nat) : Bool := pattern.isPrefixOf (s.drop position)

/-- The first position, not before `position`, at which the pattern starts. -/
def indexOf (s pattern : Text) (position : Nat) : Option Nat :=
  (List.range (s.length + 1)).find? fun i => decide (position ≤ i) && startsWith s pattern i

/-- White space and line terminators. -/
def isWhiteSpace (u : UInt16) : Bool :=
  (9 ≤ u ∧ u ≤ 13) ∨ u = 32 ∨ u = 160 ∨ u = 0x1680 ∨ (0x2000 ≤ u ∧ u ≤ 0x200A) ∨ u = 0x2028 ∨
    u = 0x2029 ∨ u = 0x202F ∨ u = 0x205F ∨ u = 0x3000 ∨ u = 0xFEFF

/-- Every occurrence of the pattern, from left to right, makes way for the replacement. -/
def replaceAll (pattern replacement : Text) : Text → Text
  | [] => []
  | u :: rest =>
    if pattern.isPrefixOf (u :: rest) then
      replacement ++ replaceAll pattern replacement (rest.drop (pattern.length - 1))
    else u :: replaceAll pattern replacement rest
termination_by s => s.length
decreasing_by all_goals simp only [List.length_drop, List.length_cons]; omega

def trim (s : Text) : Text := (s.dropWhile isWhiteSpace).rdropWhile isWhiteSpace

/-! ## Characters -/

theorem toNat_toUInt16 {n : Nat} (h : n < 65536) : n.toUInt16.toNat = n := by
  simp only [Nat.toUInt16, UInt16.toNat_ofNat']
  omega

theorem isLeading_iff {u : UInt16} : isLeading u = true ↔ 0xD800 ≤ u.toNat ∧ u.toNat ≤ 0xDBFF := by
  simp [isLeading, UInt16.le_iff_toNat_le]

theorem isTrailing_iff {u : UInt16} :
    isTrailing u = true ↔ 0xDC00 ≤ u.toNat ∧ u.toNat ≤ 0xDFFF := by
  simp [isTrailing, UInt16.le_iff_toNat_le]

theorem characters_cons {u : UInt16} (h : isLeading u = false) (t : Text) :
    characters (u :: t) = ofUnit u :: characters t := by
  cases t with
  | nil => rfl
  | cons v t => rw [characters, if_neg (by simp [h])]

/-- A character is transmitted as itself. -/
theorem characters_encode (c : Char) (t : Text) :
    characters (encode c ++ t) = c :: characters t := by
  have hvalid : c.toNat < 0xD800 ∨ 0xDFFF < c.toNat ∧ c.toNat < 0x110000 := c.valid
  unfold encode
  split
  · rename_i hn
    have hu := toNat_toUInt16 hn
    have hlead : isLeading c.toNat.toUInt16 = false := by
      rw [← Bool.not_eq_true, isLeading_iff, hu]
      omega
    have htrail : isTrailing c.toNat.toUInt16 = false := by
      rw [← Bool.not_eq_true, isTrailing_iff, hu]
      omega
    rw [List.singleton_append, characters_cons hlead, ofUnit, if_neg (by simp [hlead, htrail]), hu,
      Char.ofNat_toNat]
  · have hu : (0xD800 + (c.toNat - 0x10000) / 0x400).toUInt16.toNat =
        0xD800 + (c.toNat - 0x10000) / 0x400 := toNat_toUInt16 (by omega)
    have hv : (0xDC00 + (c.toNat - 0x10000) % 0x400).toUInt16.toNat =
        0xDC00 + (c.toNat - 0x10000) % 0x400 := toNat_toUInt16 (by omega)
    have hsum : 0x10000 + (0xD800 + (c.toNat - 0x10000) / 0x400 - 0xD800) * 0x400 +
        (0xDC00 + (c.toNat - 0x10000) % 0x400 - 0xDC00) = c.toNat := by omega
    rw [List.cons_append, List.singleton_append, characters, if_pos, ofPair, hu, hv, hsum,
      Char.ofNat_toNat]
    rw [isLeading_iff, isTrailing_iff, hu, hv]
    omega

theorem toUnicode_ofString (s : String) : toUnicode (ofString s) = s := by
  have hlist : ∀ l : List Char, characters (l.flatMap encode) = l := by
    intro l
    induction l with
    | nil => rfl
    | cons c l ih => rw [List.flatMap_cons, characters_encode, ih]
  rw [toUnicode, ofString, hlist, String.ofList_toList]

theorem ofString_injective : Function.Injective ofString :=
  Function.LeftInverse.injective toUnicode_ofString

/-- A text has at most as many characters as units, and none only if it is empty. -/
theorem length_characters (s : Text) :
    (characters s).length ≤ s.length ∧ (s ≠ [] → 1 ≤ (characters s).length) := by
  fun_induction characters s with
  | case1 => simp
  | case2 => simp
  | case3 u v rest _ ih =>
    simp only [List.length_cons]
    omega
  | case4 u v rest _ ih =>
    simp only [List.length_cons] at ih ⊢
    omega

theorem toNat_ofNat {n : Nat} (h : n.isValidChar) : (Char.ofNat n).toNat = n := by
  rw [Char.ofNat, dif_pos h]
  rfl

/-! ## Slices -/

variable {s p : Text} {i j k : Nat}

theorem slice_self (s : Text) (i : Nat) : slice s i i = [] := by
  simp only [slice, List.drop_eq_nil_iff, List.length_take]
  omega

theorem slice_append (hij : i ≤ j) (hjk : j ≤ k) : slice s i j ++ slice s j k = slice s i k := by
  simp only [slice, List.drop_take]
  have h : k - i = (j - i) + (k - j) := by omega
  rw [h, List.take_add, List.drop_drop]
  congr 3
  omega

theorem slice_eq_cons (hij : i < j) (hi : i < s.length) :
    slice s i j = s[i] :: slice s (i + 1) j := by
  simp only [slice, List.drop_take]
  have h : j - i = (j - (i + 1)) + 1 := by omega
  rw [h, List.drop_eq_getElem_cons hi, List.take_succ_cons]

theorem prefix_slice (s : Text) (i j : Nat) : slice s i j <+: s.drop i := by
  simp only [slice, List.drop_take]
  exact List.take_prefix _ _

/-! ## Searching -/

theorem startsWith_iff : startsWith s p i = true ↔ p <+: s.drop i := List.isPrefixOf_iff_prefix

theorem slice_of_startsWith (h : startsWith s p i = true) : slice s i (i + p.length) = p := by
  obtain ⟨t, ht⟩ := startsWith_iff.1 h
  simp only [slice, List.drop_take, ← ht, Nat.add_sub_cancel_left, List.take_left]

theorem bound_of_startsWith (h : startsWith s p i = true) (hp : p ≠ []) :
    i + p.length ≤ s.length := by
  have hl := (startsWith_iff.1 h).length_le
  have hpos := List.length_pos_of_ne_nil hp
  rw [List.length_drop] at hl
  omega

theorem indexOf_eq_some (h : indexOf s p i = some j) : i ≤ j ∧ startsWith s p j = true ∧
    ∀ k, i ≤ k → k < j → startsWith s p k = false := by
  obtain ⟨hj, -, hbefore⟩ := List.find?_range_eq_some.1 h
  simp only [Bool.and_eq_true, decide_eq_true_eq] at hj
  refine ⟨hj.1, hj.2, fun k hk hkj => ?_⟩
  have hnot := hbefore k hkj
  simpa [hk] using hnot

theorem indexOf_eq_none (h : indexOf s p i = none) (hp : p ≠ []) :
    ∀ k, i ≤ k → startsWith s p k = false := by
  intro k hk
  by_contra hs
  have hs : startsWith s p k = true := Bool.of_not_eq_false hs
  have hbound := bound_of_startsWith hs hp
  have hnot := List.find?_eq_none.1 h k (List.mem_range.2 (by omega))
  simp [hk, hs] at hnot

/-! ## Trimming -/

/-- A text is its trimmed part between two runs of white space. -/
theorem eq_trim (s : Text) : ∃ w w' : Text, s = w ++ (trim s ++ w') ∧
    (∀ u ∈ w, isWhiteSpace u = true) ∧ ∀ u ∈ w', isWhiteSpace u = true := by
  refine ⟨s.takeWhile isWhiteSpace, (s.dropWhile isWhiteSpace).rtakeWhile isWhiteSpace, ?_,
    fun u hu => List.mem_takeWhile_imp hu, fun u hu => List.mem_rtakeWhile_imp hu⟩
  rw [trim, List.rdropWhile_append_rtakeWhile, List.takeWhile_append_dropWhile]

/-! ## Replacing -/

variable {r : Text}

@[simp] theorem replaceAll_nil : replaceAll p r [] = [] := by rw [replaceAll]

theorem replaceAll_append (hp : p ≠ []) (s : Text) :
    replaceAll p r (p ++ s) = r ++ replaceAll p r s := by
  cases p with
  | nil => exact absurd rfl hp
  | cons u p =>
    have hprefix : (u :: p).isPrefixOf (u :: (p ++ s)) = true :=
      List.isPrefixOf_iff_prefix.2 (List.prefix_append (u :: p) s)
    rw [List.cons_append, replaceAll, if_pos hprefix, List.length_cons, Nat.add_sub_cancel,
      List.drop_left]

theorem replaceAll_cons {u : UInt16} (h : ¬ p <+: u :: s) :
    replaceAll p r (u :: s) = u :: replaceAll p r s := by
  rw [replaceAll, if_neg fun hp => h (List.isPrefixOf_iff_prefix.1 hp)]

end Utf16
