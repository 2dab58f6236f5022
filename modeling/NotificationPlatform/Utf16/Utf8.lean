import NotificationPlatform.Utf16.Text

/-!
# UTF-8

What a text is transmitted as, and what is made of bytes that were. A surrogate on its own is
transmitted as the replacement character, and bytes that are no character are read as it: one for
each longest start of a character.
-/

namespace Utf16

/-- The bytes of a text. -/
def toUtf8 (s : Text) : List UInt8 := (characters s).flatMap String.utf8EncodeChar

/-- What stands for a surrogate on its own, and for bytes that are no character. -/
def replacement : Char := Char.ofNat 0xFFFD

/-- How many of the bytes, which start no character, start one that is cut short. -/
def malformedLength : List UInt8 → Nat
  | b :: c :: rest =>
    let continues : Bool :=
      if b = 0xE0 then 0xA0 ≤ c ∧ c ≤ 0xBF
      else if b = 0xED then 0x80 ≤ c ∧ c ≤ 0x9F
      else if 0xE1 ≤ b ∧ b ≤ 0xEF then 0x80 ≤ c ∧ c ≤ 0xBF
      else if b = 0xF0 then 0x90 ≤ c ∧ c ≤ 0xBF
      else if b = 0xF4 then 0x80 ≤ c ∧ c ≤ 0x8F
      else if 0xF1 ≤ b ∧ b ≤ 0xF3 then 0x80 ≤ c ∧ c ≤ 0xBF
      else false
    if continues then
      match rest with
      | d :: _ => if 0xF0 ≤ b ∧ 0x80 ≤ d ∧ d ≤ 0xBF then 3 else 2
      | [] => 2
    else 1
  | _ => 1

/-- The characters of the bytes, with room for so many. -/
def readCharacters : Nat → List UInt8 → List Char
  | 0, _ | _, [] => []
  | room + 1, bytes =>
    match bytes.toByteArray.utf8DecodeChar? 0 with
    | some c => c :: readCharacters room (bytes.drop c.utf8Size)
    | none => replacement :: readCharacters room (bytes.drop (malformedLength bytes))

/-- The text of the bytes. -/
def ofUtf8 (bytes : List UInt8) : Text := (readCharacters bytes.length bytes).flatMap encode

/-! ## Texts of characters -/

/-- The text of characters. -/
def IsUnicode (s : Text) : Prop := ∃ cs : List Char, s = cs.flatMap encode

theorem IsUnicode.append {s t : Text} (hs : IsUnicode s) (ht : IsUnicode t) :
    IsUnicode (s ++ t) := by
  obtain ⟨cs, rfl⟩ := hs
  obtain ⟨ds, rfl⟩ := ht
  exact ⟨cs ++ ds, by rw [List.flatMap_append]⟩

theorem isUnicode_nil : IsUnicode [] := ⟨[], rfl⟩

theorem characters_flatMap_encode (cs : List Char) : characters (cs.flatMap encode) = cs := by
  induction cs with
  | nil => rfl
  | cons c cs ih => rw [List.flatMap_cons, characters_encode, ih]

/-- A unit that is no surrogate is a character. -/
theorem isUnicode_unit {u : UInt16} (hleading : isLeading u = false)
    (htrailing : isTrailing u = false) : IsUnicode [u] := by
  have hu : u.toNat < 65536 := u.toNat_lt
  have hnot : ¬ (0xD800 ≤ u.toNat ∧ u.toNat ≤ 0xDBFF) ∧
      ¬ (0xDC00 ≤ u.toNat ∧ u.toNat ≤ 0xDFFF) := by
    rw [← isLeading_iff, ← isTrailing_iff, hleading, htrailing]
    decide
  have hnat : (Char.ofNat u.toNat).toNat = u.toNat :=
    toNat_ofNat (show u.toNat < 0xD800 ∨ 0xDFFF < u.toNat ∧ u.toNat < 0x110000 by omega)
  refine ⟨[Char.ofNat u.toNat], ?_⟩
  rw [List.flatMap_singleton, encode, hnat, if_pos hu]
  simp

/-- A surrogate pair is a character. -/
theorem isUnicode_pair {u v : UInt16} (hu : isLeading u = true) (hv : isTrailing v = true) :
    IsUnicode [u, v] := by
  rw [isLeading_iff] at hu
  rw [isTrailing_iff] at hv
  have hnat : (ofPair u v).toNat = 0x10000 + (u.toNat - 0xD800) * 0x400 + (v.toNat - 0xDC00) :=
    toNat_ofNat (.inr ⟨by omega, by omega⟩)
  have hbeyond : ¬ (ofPair u v).toNat < 0x10000 := by omega
  have hfirst : (0xD800 + ((ofPair u v).toNat - 0x10000) / 0x400).toUInt16 = u := by
    rw [← UInt16.toNat_inj, toNat_toUInt16 (by omega)]
    omega
  have hsecond : (0xDC00 + ((ofPair u v).toNat - 0x10000) % 0x400).toUInt16 = v := by
    rw [← UInt16.toNat_inj, toNat_toUInt16 (by omega)]
    omega
  refine ⟨[ofPair u v], ?_⟩
  rw [List.flatMap_singleton, encode, if_neg hbeyond, hfirst, hsecond]

/-! ## Reading back -/

theorem readCharacters_cons (room : Nat) (c : Char) (bytes : List UInt8) :
    readCharacters (room + 1) (String.utf8EncodeChar c ++ bytes) =
      c :: readCharacters room bytes := by
  have hread : (String.utf8EncodeChar c ++ bytes).toByteArray.utf8DecodeChar? 0 = some c := by
    rw [List.toByteArray_append]
    exact ByteArray.utf8DecodeChar?_utf8EncodeChar_append
  have hdrop : (String.utf8EncodeChar c ++ bytes).drop c.utf8Size = bytes := by
    rw [← String.length_utf8EncodeChar, List.drop_left]
  rw [readCharacters]
  · rw [hread]
    simp only [hdrop]
  · intro hempty
    exact String.utf8EncodeChar_ne_nil (List.append_eq_nil_iff.1 hempty).1

theorem readCharacters_utf8 (cs : List Char) {room : Nat} (hroom : cs.length ≤ room) :
    readCharacters room (cs.flatMap String.utf8EncodeChar) = cs := by
  induction cs generalizing room with
  | nil => cases room <;> rfl
  | cons c cs ih =>
    cases room with
    | zero => cases hroom
    | succ room =>
      rw [List.flatMap_cons, readCharacters_cons, ih (Nat.le_of_succ_le_succ hroom)]

theorem length_le_utf8 (cs : List Char) :
    cs.length ≤ (cs.flatMap String.utf8EncodeChar).length := by
  induction cs with
  | nil => exact Nat.zero_le _
  | cons c cs ih =>
    have hc : 0 < (String.utf8EncodeChar c).length :=
      List.length_pos_of_ne_nil String.utf8EncodeChar_ne_nil
    rw [List.flatMap_cons, List.length_append, List.length_cons]
    omega

/-- A text of characters is read back from its bytes. -/
theorem ofUtf8_toUtf8 {s : Text} (h : IsUnicode s) : ofUtf8 (toUtf8 s) = s := by
  obtain ⟨cs, rfl⟩ := h
  rw [ofUtf8, toUtf8, characters_flatMap_encode, readCharacters_utf8 cs (length_le_utf8 cs)]

/-! ## ASCII -/

/-- A unit below 128 is its own byte. -/
def IsAscii (s : Text) : Prop := ∀ u ∈ s, u.toNat < 128

instance (s : Text) : Decidable (IsAscii s) :=
  List.decidableBAll (fun u : UInt16 => u.toNat < 128) s

theorem isUnicode_ascii {s : Text} (h : IsAscii s) : IsUnicode s := by
  induction s with
  | nil => exact isUnicode_nil
  | cons u s ih =>
    have hu : u.toNat < 128 := h u List.mem_cons_self
    have hleading : isLeading u = false := by
      rw [← Bool.not_eq_true, isLeading_iff]
      omega
    have htrailing : isTrailing u = false := by
      rw [← Bool.not_eq_true, isTrailing_iff]
      omega
    have hrest : IsUnicode s := ih fun v hv => h v (List.mem_cons_of_mem u hv)
    exact (isUnicode_unit hleading htrailing).append hrest

theorem ofUnit_eq {u : UInt16} (hleading : isLeading u = false) (htrailing : isTrailing u = false) :
    ofUnit u = Char.ofNat u.toNat := by
  rw [ofUnit, if_neg (by simp [hleading, htrailing])]

theorem ofUnit_ascii {u : UInt16} (h : u.toNat < 128) : (ofUnit u).toNat = u.toNat := by
  have hleading : isLeading u = false := by
    rw [← Bool.not_eq_true, isLeading_iff]
    omega
  have htrailing : isTrailing u = false := by
    rw [← Bool.not_eq_true, isTrailing_iff]
    omega
  rw [ofUnit_eq hleading htrailing]
  exact toNat_ofNat (.inl (by omega))

theorem characters_ascii {s : Text} (h : IsAscii s) : ∀ c ∈ characters s, c.toNat < 128 := by
  induction s with
  | nil => intro c hc; cases hc
  | cons u s ih =>
    have hu : u.toNat < 128 := h u List.mem_cons_self
    have hleading : isLeading u = false := by
      rw [← Bool.not_eq_true, isLeading_iff]
      omega
    intro c hc
    rw [characters_cons hleading, List.mem_cons] at hc
    rcases hc with rfl | hc
    · rw [ofUnit_ascii hu]
      exact hu
    · exact ih (fun v hv => h v (List.mem_cons_of_mem u hv)) c hc

/-- A text none of whose surrogates is replaced is the text of its characters. -/
theorem flatMap_encode_characters (s : Text) (h : ∀ c ∈ characters s, c ≠ replacement) :
    (characters s).flatMap encode = s := by
  have hunit : ∀ u : UInt16, ofUnit u ≠ replacement → encode (ofUnit u) = [u] := by
    intro u hu
    have hplain : ¬ (isLeading u ∨ isTrailing u) := fun hs => hu (by rw [ofUnit, if_pos hs]; rfl)
    obtain ⟨hleading, htrailing⟩ := not_or.1 hplain
    obtain ⟨cs, hcs⟩ :=
      isUnicode_unit (Bool.eq_false_iff.2 hleading) (Bool.eq_false_iff.2 htrailing)
    have hread : cs = [ofUnit u] := by
      rw [← characters_flatMap_encode cs, ← hcs]
      rfl
    rw [hcs, hread, List.flatMap_singleton]
  fun_induction characters s with
  | case1 => rfl
  | case2 u => rw [List.flatMap_singleton, hunit u (h _ List.mem_cons_self)]
  | case3 u v rest hpair ih =>
    obtain ⟨cs, hcs⟩ := isUnicode_pair hpair.1 hpair.2
    have hread : cs = [ofPair u v] := by
      rw [← characters_flatMap_encode cs, ← hcs, characters, if_pos hpair]
      rfl
    rw [hread, List.flatMap_singleton] at hcs
    rw [List.flatMap_cons, ← hcs, ih fun c hc => h c (List.mem_cons_of_mem _ hc)]
    rfl
  | case4 u v rest _ ih =>
    rw [List.flatMap_cons, hunit u (h _ List.mem_cons_self),
      ih fun c hc => h c (List.mem_cons_of_mem _ hc)]
    rfl

/-- Texts with the same bytes have the same characters. -/
theorem characters_eq_of_toUtf8_eq {s t : Text} (h : toUtf8 s = toUtf8 t) :
    characters s = characters t := by
  have hs := readCharacters_utf8 (characters s) (length_le_utf8 (characters s))
  have ht := readCharacters_utf8 (characters t) (length_le_utf8 (characters t))
  rw [← toUtf8] at hs ht
  rw [← hs, ← ht, h]

/-- Only a text itself has the bytes of a text in ASCII. -/
theorem eq_of_toUtf8_eq {s t : Text} (ht : IsAscii t) (h : toUtf8 s = toUtf8 t) : s = t := by
  have hcharacters := characters_eq_of_toUtf8_eq h
  have hnever : ∀ c ∈ characters t, c ≠ replacement := by
    rintro _ hc rfl
    exact absurd (characters_ascii ht _ hc) (by decide)
  rw [← flatMap_encode_characters t hnever, ← flatMap_encode_characters s (hcharacters ▸ hnever),
    hcharacters]

end Utf16
