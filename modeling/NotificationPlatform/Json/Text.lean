import Mathlib.Data.List.Sort
import Mathlib.Data.Nat.Digits.Defs
import NotificationPlatform.Utf16.Text

/-!
# What `JSON.stringify` writes

The text of a value without indentation, in code units. Numbers are natural numbers here. A string
is written with its surrogate pairs as they are and every other surrogate escaped. `write_inj` says
that a text is the text of one value only.
-/

namespace Json

open Utf16 (Text hexDigit isLeading isTrailing)

/-- What is written. -/
inductive Document where
  | null
  | natural (value : Nat)
  | string (value : Text)
  | array (items : List Document)
  | object (fields : List (Text × Document))

def quotationMark : UInt16 := 34

def reverseSolidus : UInt16 := 92

/-! ## Strings -/

/-- `\u` and four hexadecimal digits. -/
def unicodeEscape (u : UInt16) : Text :=
  [reverseSolidus, 117, hexDigit (u.toNat / 4096), hexDigit (u.toNat / 256 % 16),
    hexDigit (u.toNat / 16 % 16), hexDigit (u.toNat % 16)]

/-- One code unit inside the quotation marks. -/
def escape (u : UInt16) : Text :=
  if u = quotationMark ∨ u = reverseSolidus then [reverseSolidus, u]
  else if u = 8 then [reverseSolidus, 98]
  else if u = 9 then [reverseSolidus, 116]
  else if u = 10 then [reverseSolidus, 110]
  else if u = 12 then [reverseSolidus, 102]
  else if u = 13 then [reverseSolidus, 114]
  else if u < 32 ∨ isLeading u ∨ isTrailing u then unicodeEscape u
  else [u]

def escaped : Text → Text
  | [] => []
  | [u] => escape u
  | u :: v :: rest =>
    if isLeading u ∧ isTrailing v then u :: v :: escaped rest
    else escape u ++ escaped (v :: rest)

def quote (s : Text) : Text := quotationMark :: (escaped s ++ [quotationMark])

/-! ## Documents -/

/-- The decimal digits of a number. -/
def decimal (n : Nat) : Text := (Nat.toDigits 10 n).map fun c => c.toNat.toUInt16

mutual

def Document.write : Document → Text
  | .null => [110, 117, 108, 108]
  | .natural n => decimal n
  | .string s => quote s
  | .array items => 91 :: writeItems items
  | .object fields => 123 :: writeFields fields

/-- What follows the opening bracket of an array. -/
def writeItems : List Document → Text
  | [] => [93]
  | v :: rest => v.write ++ writeMoreItems rest

def writeMoreItems : List Document → Text
  | [] => [93]
  | v :: rest => 44 :: (v.write ++ writeMoreItems rest)

/-- What follows the opening bracket of an object. -/
def writeFields : List (Text × Document) → Text
  | [] => [125]
  | (name, v) :: rest => quote name ++ 58 :: (v.write ++ writeMoreFields rest)

def writeMoreFields : List (Text × Document) → Text
  | [] => [125]
  | (name, v) :: rest => 44 :: (quote name ++ 58 :: (v.write ++ writeMoreFields rest))

end

def stringify (document : Document) : Text := document.write

example : stringify (.array [.string (Utf16.ofString "a\nb"), .natural 50, .null]) =
    Utf16.ofString "[\"a\\nb\",50,null]" := by decide +kernel

/-! ## Reading a string back -/

def readHexDigit (u : UInt16) : Option Nat :=
  if 48 ≤ u ∧ u ≤ 57 then some (u.toNat - 48)
  else if 97 ≤ u ∧ u ≤ 102 then some (u.toNat - 87)
  else none

/-- The code unit that stands after a reverse solidus. -/
def unescape (u : UInt16) : UInt16 :=
  if u = 98 then 8
  else if u = 116 then 9
  else if u = 110 then 10
  else if u = 102 then 12
  else if u = 114 then 13
  else u

/-- Reads one code unit as `escape` writes it. -/
def readUnit : Text → Option (UInt16 × Text)
  | [] => none
  | u :: rest =>
    if u = reverseSolidus then
      match rest with
      | 117 :: a :: b :: c :: d :: rest => do
        let a ← readHexDigit a
        let b ← readHexDigit b
        let c ← readHexDigit c
        let d ← readHexDigit d
        return ((a * 4096 + b * 256 + c * 16 + d).toUInt16, rest)
      | v :: rest => some (unescape v, rest)
      | [] => none
    else some (u, rest)

theorem readHexDigit_hexDigit : ∀ {d : Nat}, d < 16 → readHexDigit (hexDigit d) = some d := by
  decide

theorem readUnit_unicodeEscape (u : UInt16) (t : Text) :
    readUnit (unicodeEscape u ++ t) = some (u, t) := by
  have hu : u.toNat < 65536 := u.toNat_lt
  have hsum : u.toNat / 4096 * 4096 + u.toNat / 256 % 16 * 256 + u.toNat / 16 % 16 * 16 +
      u.toNat % 16 = u.toNat := by omega
  simp only [unicodeEscape, List.cons_append, List.nil_append, readUnit, if_true,
    readHexDigit_hexDigit (show u.toNat / 4096 < 16 by omega),
    readHexDigit_hexDigit (Nat.mod_lt _ (by decide : 0 < 16)), Option.bind_eq_bind,
    Option.bind_some, hsum]
  simp

theorem readUnit_raw {u : UInt16} (h : u ≠ reverseSolidus) (t : Text) :
    readUnit (u :: t) = some (u, t) := by
  simp only [readUnit, if_neg h]

theorem readUnit_escape (u : UInt16) (t : Text) : readUnit (escape u ++ t) = some (u, t) := by
  unfold escape
  split_ifs with h₁ h₂ h₃ h₄ h₅ h₆ h₇
  · rcases h₁ with rfl | rfl <;> rfl
  · subst h₂; rfl
  · subst h₃; rfl
  · subst h₄; rfl
  · subst h₅; rfl
  · subst h₆; rfl
  · exact readUnit_unicodeEscape u t
  · exact readUnit_raw (fun h => h₁ (.inr h)) t

/-- No code unit is written with a quotation mark in front. -/
theorem escape_head (u : UInt16) : ∃ v rest, escape u = v :: rest ∧ v ≠ quotationMark := by
  unfold escape
  split_ifs with h₁ h₂ h₃ h₄ h₅ h₆ h₇
  case neg => exact ⟨u, [], rfl, fun h => h₁ (.inl h)⟩
  all_goals exact ⟨reverseSolidus, _, rfl, by decide⟩

theorem isLeading_raw {u : UInt16} (h : isLeading u = true) :
    u ≠ quotationMark ∧ u ≠ reverseSolidus := by
  constructor <;> rintro rfl <;> exact absurd h (by decide)

theorem isTrailing_raw {u : UInt16} (h : isTrailing u = true) :
    u ≠ quotationMark ∧ u ≠ reverseSolidus := by
  constructor <;> rintro rfl <;> exact absurd h (by decide)

/-- `written` is `s`, unit by unit, each in a form that is read back as the unit. -/
inductive Writes : Text → Text → Prop where
  | nil : Writes [] []
  | cons {u : UInt16} {s token written : Text}
      (reads : ∀ t, readUnit (token ++ t) = some (u, t))
      (head : ∃ v rest, token = v :: rest ∧ v ≠ quotationMark) (rest : Writes s written) :
      Writes (u :: s) (token ++ written)

theorem escaped_writes (s : Text) : Writes s (escaped s) := by
  fun_induction escaped s with
  | case1 => exact .nil
  | case2 u =>
    rw [← List.append_nil (escape u)]
    exact .cons (readUnit_escape u) (escape_head u) .nil
  | case3 u v rest hpair ih =>
    obtain ⟨hu, hu'⟩ := isLeading_raw hpair.1
    obtain ⟨hv, hv'⟩ := isTrailing_raw hpair.2
    have hlast : Writes (v :: rest) ([v] ++ escaped rest) :=
      .cons (readUnit_raw hv') ⟨v, [], rfl, hv⟩ ih
    have hboth : Writes (u :: v :: rest) ([u] ++ ([v] ++ escaped rest)) :=
      .cons (readUnit_raw hu') ⟨u, [], rfl, hu⟩ hlast
    exact hboth
  | case4 u v rest _ ih => exact .cons (readUnit_escape u) (escape_head u) ih

/-- What is written up to the quotation mark is read in one way only. -/
theorem Writes.inj {s s' written written' r r' : Text} (h : Writes s written)
    (h' : Writes s' written')
    (he : written ++ quotationMark :: r = written' ++ quotationMark :: r') :
    s = s' ∧ r = r' := by
  induction h generalizing s' written' with
  | nil =>
    cases h' with
    | nil => exact ⟨rfl, (List.cons.inj he).2⟩
    | cons _ head _ =>
      obtain ⟨v, rest, rfl, hv⟩ := head
      exact absurd (List.cons.inj he).1.symm hv
  | cons reads head _ ih =>
    cases h' with
    | nil =>
      obtain ⟨v, rest, rfl, hv⟩ := head
      exact absurd (List.cons.inj he).1 hv
    | cons reads' _ rest' =>
      rw [List.append_assoc, List.append_assoc] at he
      have hread := (reads _).symm.trans ((congrArg readUnit he).trans (reads' _))
      simp only [Option.some.injEq, Prod.mk.injEq] at hread
      obtain ⟨rfl, hr⟩ := ih rest' hread.2
      exact ⟨by rw [hread.1], hr⟩

theorem quote_inj {s s' r r' : Text} (h : quote s ++ r = quote s' ++ r') : s = s' ∧ r = r' := by
  simp only [quote, List.cons_append, List.append_assoc, List.nil_append, List.cons.injEq,
    true_and] at h
  exact (escaped_writes s).inj (escaped_writes s') h

/-! ## Reading a document back -/

def isDigit (u : UInt16) : Bool := 48 ≤ u ∧ u ≤ 57

/-- The text starts with no digit. -/
def Ends (t : Text) : Prop := ∀ u ∈ t.head?, isDigit u = false

theorem ends_cons {u : UInt16} {t : Text} (h : isDigit u = false) : Ends (u :: t) := by
  rintro v ⟨⟩
  exact h

/-- The digit a unit of `decimal` stands for. -/
def toDigit (u : UInt16) : Char := Char.ofNat u.toNat

theorem toDigit_unit {c : Char} (h : c.isDigit = true) :
    toDigit c.toNat.toUInt16 = c ∧ isDigit c.toNat.toUInt16 = true := by
  have hbounds : 48 ≤ c.toNat ∧ c.toNat ≤ 57 := by
    simpa [Char.isDigit, UInt32.le_iff_toNat_le] using h
  have hnat : (c.toNat.toUInt16).toNat = c.toNat := by
    simp only [Nat.toUInt16, UInt16.toNat_ofNat']
    omega
  refine ⟨?_, ?_⟩
  · rw [toDigit, hnat, Char.ofNat_toNat]
  · simp only [isDigit, decide_eq_true_eq, UInt16.le_iff_toNat_le, hnat]
    exact hbounds

theorem decimal_digits (n : Nat) : ∀ u ∈ decimal n, isDigit u = true := by
  intro u hu
  obtain ⟨c, hc, rfl⟩ := List.mem_map.1 hu
  exact (toDigit_unit (Nat.isDigit_of_mem_toDigits (by decide) (by decide) hc)).2

theorem map_toDigit_decimal (n : Nat) : (decimal n).map toDigit = Nat.toDigits 10 n := by
  rw [decimal, List.map_map]
  refine (List.map_congr_left fun c hc => ?_).trans (List.map_id _)
  exact (toDigit_unit (Nat.isDigit_of_mem_toDigits (by decide) (by decide) hc)).1

theorem decimal_injective : Function.Injective decimal := by
  intro n m h
  have hdigits : Nat.toDigits 10 n = Nat.toDigits 10 m := by
    rw [← map_toDigit_decimal, h, map_toDigit_decimal]
  rw [← Nat.ofDigitChars_ten_toDigits (n := n), hdigits, Nat.ofDigitChars_ten_toDigits]

/-- The digits of a number end where the text does. -/
theorem decimal_inj {n m : Nat} {r r' : Text} (hr : Ends r) (hr' : Ends r')
    (h : decimal n ++ r = decimal m ++ r') : n = m ∧ r = r' := by
  have htake : ∀ {k : Nat} {t : Text}, Ends t → (decimal k ++ t).takeWhile isDigit = decimal k := by
    intro k t ht
    rw [List.takeWhile_append_of_pos (decimal_digits k)]
    cases t with
    | nil => simp
    | cons u t => simp [ht u rfl]
  have hdigits : decimal n = decimal m := by rw [← htake hr, h, htake hr']
  rw [hdigits] at h
  exact ⟨decimal_injective hdigits, List.append_cancel_left h⟩

namespace Document

/-- Which constructor a document is of. -/
def kind : Document → Nat
  | null => 0
  | natural _ => 1
  | string _ => 2
  | array _ => 3
  | object _ => 4

/-- The kind of the documents whose text starts with the unit. -/
def kindOf (u : UInt16) : Nat :=
  if isDigit u then 1
  else if u = 110 then 0
  else if u = quotationMark then 2
  else if u = 91 then 3
  else 4

theorem write_head (d : Document) : ∃ u t, d.write = u :: t ∧ kindOf u = d.kind ∧ u ≠ 93 := by
  cases d with
  | natural n =>
    cases hn : decimal n with
    | nil => exact absurd (List.map_eq_nil_iff.1 hn) Nat.toDigits_ne_nil
    | cons u t =>
      have hu : isDigit u = true := decimal_digits n u (by rw [hn]; exact List.mem_cons_self)
      refine ⟨u, t, by rw [write, hn], by rw [kindOf, if_pos hu]; rfl, ?_⟩
      rintro rfl
      exact absurd hu (by decide)
  | null => exact ⟨_, _, by rw [write], by decide, by decide⟩
  | string s => exact ⟨_, _, by rw [write, quote], rfl, by decide⟩
  | array items => exact ⟨_, _, by rw [write], rfl, by decide⟩
  | object fields => exact ⟨_, _, by rw [write], rfl, by decide⟩

theorem kind_eq {d d' : Document} {r r' : Text} (h : d.write ++ r = d'.write ++ r') :
    d.kind = d'.kind := by
  obtain ⟨u, t, hd, hu, -⟩ := d.write_head
  obtain ⟨u', t', hd', hu', -⟩ := d'.write_head
  rw [hd, hd'] at h
  rw [← hu, ← hu', (List.cons.inj h).1]

end Document

/-- What follows an item ends its digits. -/
theorem ends_writeMoreItems (items : List Document) (r : Text) : Ends (writeMoreItems items ++ r) := by
  cases items <;> rw [writeMoreItems] <;> exact ends_cons (by decide)

theorem ends_writeMoreFields (fields : List (Text × Document)) (r : Text) :
    Ends (writeMoreFields fields ++ r) := by
  cases fields <;> rw [writeMoreFields] <;> exact ends_cons (by decide)

mutual

theorem Document.write_inj : ∀ {d d' : Document} {r r' : Text}, Ends r → Ends r' →
    d.write ++ r = d'.write ++ r' → d = d' ∧ r = r'
  | .null, d', r, r', _, _, h => by
    cases d' <;> cases Document.kind_eq h
    exact ⟨rfl, List.append_cancel_left h⟩
  | .natural n, d', r, r', hr, hr', h => by
    cases d' <;> cases Document.kind_eq h
    rw [Document.write, Document.write] at h
    obtain ⟨rfl, hrest⟩ := decimal_inj hr hr' h
    exact ⟨rfl, hrest⟩
  | .string s, d', r, r', _, _, h => by
    cases d' <;> cases Document.kind_eq h
    rw [Document.write, Document.write] at h
    obtain ⟨rfl, hrest⟩ := quote_inj h
    exact ⟨rfl, hrest⟩
  | .array items, d', r, r', _, _, h => by
    cases d' <;> cases Document.kind_eq h
    rw [Document.write, Document.write] at h
    obtain ⟨rfl, hrest⟩ := writeItems_inj (List.cons.inj h).2
    exact ⟨rfl, hrest⟩
  | .object fields, d', r, r', _, _, h => by
    cases d' <;> cases Document.kind_eq h
    rw [Document.write, Document.write] at h
    obtain ⟨rfl, hrest⟩ := writeFields_inj (List.cons.inj h).2
    exact ⟨rfl, hrest⟩

theorem writeItems_inj : ∀ {l l' : List Document} {r r' : Text},
    writeItems l ++ r = writeItems l' ++ r' → l = l' ∧ r = r'
  | [], [], r, r', h => ⟨rfl, List.append_cancel_left h⟩
  | [], v :: l', r, r', h => by
    obtain ⟨u, t, hu, -, hne⟩ := v.write_head
    rw [writeItems, writeItems, hu] at h
    exact absurd (List.cons.inj h).1.symm hne
  | v :: l, [], r, r', h => by
    obtain ⟨u, t, hu, -, hne⟩ := v.write_head
    rw [writeItems, writeItems, hu] at h
    exact absurd (List.cons.inj h).1 hne
  | v :: l, v' :: l', r, r', h => by
    rw [writeItems, writeItems, List.append_assoc, List.append_assoc] at h
    obtain ⟨rfl, hmore⟩ :=
      Document.write_inj (ends_writeMoreItems l r) (ends_writeMoreItems l' r') h
    obtain ⟨rfl, hrest⟩ := writeMoreItems_inj hmore
    exact ⟨rfl, hrest⟩

theorem writeMoreItems_inj : ∀ {l l' : List Document} {r r' : Text},
    writeMoreItems l ++ r = writeMoreItems l' ++ r' → l = l' ∧ r = r'
  | [], [], r, r', h => ⟨rfl, List.append_cancel_left h⟩
  | [], v :: l', r, r', h => by
    rw [writeMoreItems, writeMoreItems] at h
    exact absurd (List.cons.inj h).1 (by decide)
  | v :: l, [], r, r', h => by
    rw [writeMoreItems, writeMoreItems] at h
    exact absurd (List.cons.inj h).1 (by decide)
  | v :: l, v' :: l', r, r', h => by
    rw [writeMoreItems, writeMoreItems, List.cons_append, List.cons_append, List.append_assoc,
      List.append_assoc] at h
    obtain ⟨rfl, hmore⟩ := Document.write_inj (ends_writeMoreItems l r)
      (ends_writeMoreItems l' r') (List.cons.inj h).2
    obtain ⟨rfl, hrest⟩ := writeMoreItems_inj hmore
    exact ⟨rfl, hrest⟩

theorem writeFields_inj : ∀ {l l' : List (Text × Document)} {r r' : Text},
    writeFields l ++ r = writeFields l' ++ r' → l = l' ∧ r = r'
  | [], [], r, r', h => ⟨rfl, List.append_cancel_left h⟩
  | [], (name, v) :: l', r, r', h => by
    rw [writeFields, writeFields, quote] at h
    exact absurd (List.cons.inj h).1 (by decide)
  | (name, v) :: l, [], r, r', h => by
    rw [writeFields, writeFields, quote] at h
    exact absurd (List.cons.inj h).1 (by decide)
  | (name, v) :: l, (name', v') :: l', r, r', h => by
    rw [writeFields, writeFields, List.append_assoc, List.append_assoc] at h
    obtain ⟨rfl, hvalue⟩ := quote_inj h
    rw [List.cons_append, List.cons_append, List.append_assoc, List.append_assoc] at hvalue
    obtain ⟨rfl, hmore⟩ := Document.write_inj (ends_writeMoreFields l r)
      (ends_writeMoreFields l' r') (List.cons.inj hvalue).2
    obtain ⟨rfl, hrest⟩ := writeMoreFields_inj hmore
    exact ⟨rfl, hrest⟩

theorem writeMoreFields_inj : ∀ {l l' : List (Text × Document)} {r r' : Text},
    writeMoreFields l ++ r = writeMoreFields l' ++ r' → l = l' ∧ r = r'
  | [], [], r, r', h => ⟨rfl, List.append_cancel_left h⟩
  | [], (name, v) :: l', r, r', h => by
    rw [writeMoreFields, writeMoreFields] at h
    exact absurd (List.cons.inj h).1 (by decide)
  | (name, v) :: l, [], r, r', h => by
    rw [writeMoreFields, writeMoreFields] at h
    exact absurd (List.cons.inj h).1 (by decide)
  | (name, v) :: l, (name', v') :: l', r, r', h => by
    rw [writeMoreFields, writeMoreFields, List.cons_append, List.cons_append, List.append_assoc,
      List.append_assoc] at h
    obtain ⟨rfl, hvalue⟩ := quote_inj (List.cons.inj h).2
    rw [List.cons_append, List.cons_append, List.append_assoc, List.append_assoc] at hvalue
    obtain ⟨rfl, hmore⟩ := Document.write_inj (ends_writeMoreFields l r)
      (ends_writeMoreFields l' r') (List.cons.inj hvalue).2
    obtain ⟨rfl, hrest⟩ := writeMoreFields_inj hmore
    exact ⟨rfl, hrest⟩

end

/-- **Two documents have one text only if they are one document.** -/
theorem stringify_injective : Function.Injective stringify := by
  intro d d' h
  have hsame : d.write ++ [] = d'.write ++ [] := by
    rw [List.append_nil, List.append_nil]
    exact h
  exact (Document.write_inj (by rintro u ⟨⟩) (by rintro u ⟨⟩) hsame).1

/-! ## Property order -/

/-- The number that decimal digits stand for. -/
def readDecimal (s : Text) : Option Nat :=
  s.foldlM (fun n u => if 48 ≤ u ∧ u ≤ 57 then some (10 * n + (u.toNat - 48)) else none) 0

/-- The array index a property name is: a canonical decimal below `2 ^ 32 - 1`. -/
def arrayIndex? (name : Text) : Option Nat :=
  (readDecimal name).filter fun n => decimal n = name ∧ n < 4294967295

/-- The array index of the first entry is not above that of the second. -/
abbrev indexedBefore {α : Type} (a b : Text × α) : Prop :=
  (arrayIndex? a.1).getD 0 ≤ (arrayIndex? b.1).getD 0

/-- The order in which an object built from entries of different names has its properties: array
indices first, in ascending order, then the others as they were added. -/
def propertyOrder {α : Type} (entries : List (Text × α)) : List (Text × α) :=
  (entries.filter fun e => (arrayIndex? e.1).isSome).insertionSort indexedBefore ++
    entries.filter fun e => (arrayIndex? e.1).isNone

example : (propertyOrder [(Utf16.ofString "b", 0), (Utf16.ofString "10", 1),
    (Utf16.ofString "9", 2)]).map (·.2) = [2, 1, 0] := by decide +kernel

section PropertyOrder

variable {α : Type}

theorem arrayIndex?_inj {name name' : Text} {n : Nat} (h : arrayIndex? name = some n)
    (h' : arrayIndex? name' = some n) : name = name' := by
  obtain ⟨-, hn⟩ := Option.filter_eq_some_iff.1 h
  obtain ⟨-, hn'⟩ := Option.filter_eq_some_iff.1 h'
  exact (of_decide_eq_true hn).1.symm.trans (of_decide_eq_true hn').1

theorem propertyOrder_perm (entries : List (Text × α)) : (propertyOrder entries).Perm entries := by
  have hsplit := List.filter_append_perm (fun e : Text × α => (arrayIndex? e.1).isSome) entries
  refine .trans ((List.perm_insertionSort _ _).append ?_) hsplit
  refine .of_eq (List.filter_congr fun e _ => ?_)
  cases arrayIndex? e.1 <;> rfl

instance : Std.Total (indexedBefore (α := α)) := ⟨fun _ _ => le_total _ _⟩

instance : IsTrans (Text × α) indexedBefore := ⟨fun _ _ _ => le_trans⟩

/-- The array indices of an object stand in one order only. -/
theorem indices_eq {l l' : List (Text × α)} (h : l.Perm l') (hl : (l.map (·.1)).Nodup) :
    (l.filter fun e => (arrayIndex? e.1).isSome).insertionSort indexedBefore =
      (l'.filter fun e => (arrayIndex? e.1).isSome).insertionSort indexedBefore := by
  have hperm := (List.perm_insertionSort indexedBefore _).trans
    ((h.filter fun e => (arrayIndex? e.1).isSome).trans
      (List.perm_insertionSort indexedBefore _).symm)
  refine hperm.eq_of_pairwise ?_ (List.pairwise_insertionSort indexedBefore _)
    (List.pairwise_insertionSort indexedBefore _)
  -- two entries with one index have one name
  intro a b ha hb hab hba
  obtain ⟨hmem, hsome⟩ := List.mem_filter.1 ((List.mem_insertionSort _).1 ha)
  obtain ⟨hmem', hsome'⟩ := List.mem_filter.1 ((List.mem_insertionSort _).1 hb)
  obtain ⟨n, hn⟩ := Option.isSome_iff_exists.1 hsome
  obtain ⟨m, hm⟩ := Option.isSome_iff_exists.1 hsome'
  simp only [indexedBefore, hn, hm, Option.getD_some] at hab hba
  obtain rfl := le_antisymm hab hba
  exact List.inj_on_of_nodup_map hl hmem (h.mem_iff.2 hmem') (arrayIndex?_inj hn hm)

/-- Two objects with the same entries have them in one order if the names that are no array indices
were added in one order. -/
theorem propertyOrder_eq_iff {l l' : List (Text × α)} (h : l.Perm l')
    (hl : (l.map (·.1)).Nodup) : propertyOrder l = propertyOrder l' ↔
      (l.filter fun e => (arrayIndex? e.1).isNone) =
        l'.filter fun e => (arrayIndex? e.1).isNone := by
  unfold propertyOrder
  rw [indices_eq h hl]
  exact List.append_right_inj _

end PropertyOrder

end Json
