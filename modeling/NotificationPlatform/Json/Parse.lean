import NotificationPlatform.Json.Text
import NotificationPlatform.Utf16.Utf8

/-!
# What `JSON.parse` reads

A text is read by recursive descent, which `room` bounds: `parse` leaves more of it than the text
can take (`parseValue_room`). Numbers are kept as they are written, and the members of an object in
the order they are written in, of which the last one of a name counts.
-/

namespace Json

open Utf16 (Text IsAscii IsUnicode isLeading isTrailing isUnicode_ascii isUnicode_nil isUnicode_pair
  isUnicode_unit)

/-- What is read. -/
inductive Tree where
  | null
  | boolean (value : Bool)
  | number (literal : Text)
  | string (value : Text)
  | array (items : List Tree)
  | object (members : List (Text × Tree))

/-- The value an object has under a name. -/
def Tree.property (name : Text) (members : List (Text × Tree)) : Option Tree :=
  (members.reverse.find? fun m => m.1 = name).map (·.2)

def skipSpace (s : Text) : Text := s.dropWhile fun u => u = 32 ∨ u = 9 ∨ u = 10 ∨ u = 13

/-- What follows the unit, which may have space before it. -/
def expect (u : UInt16) (s : Text) : Option Text :=
  match skipSpace s with
  | [] => none
  | v :: rest => if v = u then some rest else none

/-! ## Strings -/

def hexValue? (u : UInt16) : Option Nat :=
  if 48 ≤ u ∧ u ≤ 57 then some (u.toNat - 48)
  else if 65 ≤ u ∧ u ≤ 70 then some (u.toNat - 55)
  else if 97 ≤ u ∧ u ≤ 102 then some (u.toNat - 87)
  else none

/-- The unit that one after a reverse solidus stands for. -/
def unescape? (u : UInt16) : Option UInt16 :=
  if u = quotationMark ∨ u = reverseSolidus ∨ u = 47 then some u
  else if u = 98 then some 8
  else if u = 102 then some 12
  else if u = 110 then some 10
  else if u = 114 then some 13
  else if u = 116 then some 9
  else none

/-- One unit of a string. -/
def parseUnit : Text → Option (UInt16 × Text)
  | [] => none
  | u :: rest =>
    if u = reverseSolidus then
      match rest with
      | [] => none
      | v :: rest =>
        if v = 117 then
          match rest with
          | a :: b :: c :: d :: rest => do
            let a ← hexValue? a
            let b ← hexValue? b
            let c ← hexValue? c
            let d ← hexValue? d
            return ((a * 4096 + b * 256 + c * 16 + d).toUInt16, rest)
          | _ => none
        else (unescape? v).map fun w => (w, rest)
    else if u < 32 then none
    else some (u, rest)

/-- The units up to the quotation mark. -/
def parseUnits : Nat → Text → Option (Text × Text)
  | 0, _ | _, [] => none
  | room + 1, u :: rest =>
    if u = quotationMark then some ([], rest)
    else do
      let (v, rest) ← parseUnit (u :: rest)
      let (s, rest) ← parseUnits room rest
      return (v :: s, rest)

/-- What follows the opening quotation mark of a string. -/
def parseString (s : Text) : Option (Text × Text) := parseUnits s.length s

/-! ## Numbers and words -/

/-- What follows one digit or more. -/
def skipDigits (s : Text) : Option Text :=
  if (s.takeWhile isDigit).isEmpty then none else some (s.dropWhile isDigit)

def skipInteger (s : Text) : Option Text :=
  if s.head? = some 48 then some s.tail else skipDigits s

def skipFraction (s : Text) : Option Text :=
  if s.head? = some 46 then skipDigits s.tail else some s

def skipExponent (s : Text) : Option Text :=
  if s.head? = some 101 ∨ s.head? = some 69 then
    if s.tail.head? = some 43 ∨ s.tail.head? = some 45 then skipDigits s.tail.tail
    else skipDigits s.tail
  else some s

def parseNumber (s : Text) : Option (Tree × Text) := do
  let rest ← skipInteger (if s.head? = some 45 then s.tail else s)
  let rest ← skipFraction rest
  let rest ← skipExponent rest
  return (.number (s.take (s.length - rest.length)), rest)

def parseWord (s : Text) : Option (Tree × Text) :=
  if [110, 117, 108, 108] <+: s then some (.null, s.drop 4)
  else if [116, 114, 117, 101] <+: s then some (.boolean true, s.drop 4)
  else if [102, 97, 108, 115, 101] <+: s then some (.boolean false, s.drop 5)
  else parseNumber s

/-! ## Values -/

/-- Whether a comma follows, or the closing bracket, and what follows that. -/
def parseNext (close : UInt16) (s : Text) : Option (Bool × Text) :=
  ((expect 44 s).map fun rest => (true, rest)) <|> (expect close s).map fun rest => (false, rest)

mutual

def parseValue : Nat → Text → Option (Tree × Text)
  | 0, _ => none
  | room + 1, s =>
    match skipSpace s with
    | [] => none
    | u :: rest =>
      if u = quotationMark then (parseString rest).map fun r => (.string r.1, r.2)
      else if u = 91 then
        ((expect 93 rest).map fun rest => (.array [], rest)) <|>
          (parseItems room rest).map fun r => (.array r.1, r.2)
      else if u = 123 then
        ((expect 125 rest).map fun rest => (.object [], rest)) <|>
          (parseMembers room rest).map fun r => (.object r.1, r.2)
      else parseWord (u :: rest)

/-- The items of an array, one at least. -/
def parseItems : Nat → Text → Option (List Tree × Text)
  | 0, _ => none
  | room + 1, s => do
    let (v, rest) ← parseValue room s
    let (more, rest) ← parseNext 93 rest
    if more then (parseItems room rest).map fun r => (v :: r.1, r.2)
    else return ([v], rest)

/-- The members of an object, one at least. -/
def parseMembers : Nat → Text → Option (List (Text × Tree) × Text)
  | 0, _ => none
  | room + 1, s => do
    let rest ← expect quotationMark s
    let (name, rest) ← parseString rest
    let rest ← expect 58 rest
    let (v, rest) ← parseValue room rest
    let (more, rest) ← parseNext 125 rest
    if more then (parseMembers room rest).map fun r => ((name, v) :: r.1, r.2)
    else return ([(name, v)], rest)

end

/-- The value of a text, with nothing but space around it. -/
def parse (s : Text) : Option Tree := do
  let (v, rest) ← parseValue (2 * s.length + 1) s
  if (skipSpace rest).isEmpty then return v else none

/-! ## What is left is shorter -/

theorem length_skipSpace (s : Text) : (skipSpace s).length ≤ s.length :=
  (List.dropWhile_sublist _).length_le

theorem length_expect {u : UInt16} {s rest : Text} (h : expect u s = some rest) :
    rest.length < s.length := by
  have hskip := length_skipSpace s
  unfold expect at h
  split at h
  · cases h
  · rename_i v r hs
    split at h
    · cases h
      rw [hs, List.length_cons] at hskip
      omega
    · cases h

theorem length_parseUnit {s rest : Text} {u : UInt16} (h : parseUnit s = some (u, rest)) :
    rest.length < s.length := by
  unfold parseUnit at h
  split at h
  · cases h
  split at h
  · split at h
    · cases h
    split at h
    · split at h
      · simp only [Option.bind_eq_bind, Option.bind_eq_some_iff, Option.pure_def, Option.some.injEq,
          Prod.mk.injEq] at h
        obtain ⟨-, -, -, -, -, -, -, -, -, rfl⟩ := h
        simp only [List.length_cons]
        omega
      · cases h
    · obtain ⟨_, _, heq⟩ := Option.map_eq_some_iff.1 h
      cases heq
      simp only [List.length_cons]
      omega
  · split at h
    · cases h
    · cases h
      exact Nat.lt_succ_self _

theorem length_parseUnits {room : Nat} {s t rest : Text} (h : parseUnits room s = some (t, rest)) :
    rest.length < s.length := by
  induction room generalizing s t rest with
  | zero => cases h
  | succ room ih =>
    cases s with
    | nil => cases h
    | cons u s =>
      rw [parseUnits] at h
      split at h
      · cases h
        exact Nat.lt_succ_self _
      · simp only [Option.bind_eq_bind, Option.bind_eq_some_iff, Option.pure_def, Option.some.injEq,
          Prod.mk.injEq, Prod.exists] at h
        obtain ⟨v, r, hunit, t', r', hunits, -, rfl⟩ := h
        exact (ih hunits).trans (length_parseUnit hunit)

theorem length_parseString {s t rest : Text} (h : parseString s = some (t, rest)) :
    rest.length < s.length := length_parseUnits h

theorem length_skipDigits {s rest : Text} (h : skipDigits s = some rest) :
    rest.length < s.length := by
  unfold skipDigits at h
  split at h
  · cases h
  · rename_i hne
    cases h
    have hlength := congrArg List.length (List.takeWhile_append_dropWhile (p := isDigit) (l := s))
    have hpos : 0 < (s.takeWhile isDigit).length :=
      List.length_pos_of_ne_nil fun hnil => hne (List.isEmpty_iff.2 hnil)
    rw [List.length_append] at hlength
    omega

theorem length_skipInteger {s rest : Text} (h : skipInteger s = some rest) :
    rest.length < s.length := by
  unfold skipInteger at h
  split at h
  · rename_i hzero
    cases h
    cases s with
    | nil => cases hzero
    | cons u s => exact Nat.lt_succ_self _
  · exact length_skipDigits h

theorem length_skipFraction {s rest : Text} (h : skipFraction s = some rest) :
    rest.length ≤ s.length := by
  unfold skipFraction at h
  split at h
  · exact (length_skipDigits h).le.trans (by simp)
  · cases h
    exact le_rfl

theorem length_skipExponent {s rest : Text} (h : skipExponent s = some rest) :
    rest.length ≤ s.length := by
  unfold skipExponent at h
  split at h
  · split at h
    · exact (length_skipDigits h).le.trans (by simp only [List.length_tail]; omega)
    · exact (length_skipDigits h).le.trans (by simp)
  · cases h
    exact le_rfl

theorem length_parseWord {s rest : Text} {v : Tree} (h : parseWord s = some (v, rest)) :
    rest.length < s.length := by
  have hdrop : ∀ {word : Text} {n : Nat}, word <+: s → n = word.length → 0 < n →
      (s.drop n).length < s.length := by
    rintro word n hword rfl hpos
    have hle := hword.length_le
    rw [List.length_drop]
    omega
  unfold parseWord at h
  split at h
  · rename_i hword
    cases h
    exact hdrop hword rfl (by decide)
  split at h
  · rename_i hword
    cases h
    exact hdrop hword rfl (by decide)
  split at h
  · rename_i hword
    cases h
    exact hdrop hword rfl (by decide)
  · simp only [parseNumber, Option.bind_eq_bind, Option.bind_eq_some_iff, Option.pure_def,
      Option.some.injEq, Prod.mk.injEq] at h
    obtain ⟨r, hinteger, r', hfraction, r'', hexponent, -, rfl⟩ := h
    have hsign : (if s.head? = some 45 then s.tail else s).length ≤ s.length := by
      split <;> simp
    have h₁ := length_skipInteger hinteger
    have h₂ := length_skipFraction hfraction
    have h₃ := length_skipExponent hexponent
    omega

theorem length_parseNext {close : UInt16} {s rest : Text} {more : Bool}
    (h : parseNext close s = some (more, rest)) : rest.length < s.length := by
  simp only [parseNext, Option.orElse_eq_orElse, Option.orElse_eq_or, Option.or_eq_some_iff,
    Option.map_eq_some_iff, Prod.mk.injEq] at h
  rcases h with ⟨r, hcomma, -, rfl⟩ | ⟨-, r, hclose, -, rfl⟩
  · exact length_expect hcomma
  · exact length_expect hclose

theorem length_parseAll (room : Nat) :
    (∀ {s rest v}, parseValue room s = some (v, rest) → rest.length < s.length) ∧
      (∀ {s rest l}, parseItems room s = some (l, rest) → rest.length < s.length) ∧
      ∀ {s rest l}, parseMembers room s = some (l, rest) → rest.length < s.length := by
  induction room with
  | zero =>
    refine ⟨?_, ?_, ?_⟩
    · intro s rest v h
      cases h
    · intro s rest l h
      cases h
    · intro s rest l h
      cases h
  | succ room ih =>
    obtain ⟨ihValue, ihItems, ihMembers⟩ := ih
    refine ⟨?_, ?_, ?_⟩
    · intro s rest v h
      have hskip := length_skipSpace s
      rw [parseValue] at h
      split at h
      · cases h
      rename_i u r hs
      rw [hs, List.length_cons] at hskip
      split_ifs at h
      · obtain ⟨⟨t, r'⟩, hstring, heq⟩ := Option.map_eq_some_iff.1 h
        obtain ⟨-, rfl⟩ := Prod.mk.inj heq
        have hr := length_parseString hstring
        dsimp only at hr ⊢
        omega
      · simp only [Option.orElse_eq_orElse, Option.orElse_eq_or, Option.or_eq_some_iff,
          Option.map_eq_some_iff, Prod.mk.injEq, Prod.exists] at h
        rcases h with ⟨r', hclose, -, rfl⟩ | ⟨-, l, r', hitems, -, rfl⟩
        · have hr := length_expect hclose
          omega
        · have hr := ihItems hitems
          omega
      · simp only [Option.orElse_eq_orElse, Option.orElse_eq_or, Option.or_eq_some_iff,
          Option.map_eq_some_iff, Prod.mk.injEq, Prod.exists] at h
        rcases h with ⟨r', hclose, -, rfl⟩ | ⟨-, l, r', hmembers, -, rfl⟩
        · have hr := length_expect hclose
          omega
        · have hr := ihMembers hmembers
          omega
      · have hr := length_parseWord h
        rw [List.length_cons] at hr
        omega
    · intro s rest l h
      simp only [parseItems, Option.bind_eq_bind, Option.bind_eq_some_iff, Prod.exists] at h
      obtain ⟨v, r, hvalue, more, r', hnext, hrest⟩ := h
      have hr := ihValue hvalue
      have hr' := length_parseNext hnext
      cases more with
      | false =>
        cases hrest
        omega
      | true =>
        obtain ⟨⟨l', r''⟩, hitems, heq⟩ := Option.map_eq_some_iff.1 hrest
        obtain ⟨-, rfl⟩ := Prod.mk.inj heq
        have hr'' := ihItems hitems
        dsimp only
        omega
    · intro s rest l h
      simp only [parseMembers, Option.bind_eq_bind, Option.bind_eq_some_iff, Prod.exists] at h
      obtain ⟨r₁, hquote, name, r₂, hname, r₃, hcolon, v, r₄, hvalue, more, r₅, hnext, hrest⟩ := h
      have h₁ := length_expect hquote
      have h₂ := length_parseString hname
      have h₃ := length_expect hcolon
      have h₄ := ihValue hvalue
      have h₅ := length_parseNext hnext
      cases more with
      | false =>
        cases hrest
        omega
      | true =>
        obtain ⟨⟨l', r₆⟩, hmembers, heq⟩ := Option.map_eq_some_iff.1 hrest
        obtain ⟨-, rfl⟩ := Prod.mk.inj heq
        have h₆ := ihMembers hmembers
        dsimp only
        omega

/-! ## There is room -/

theorem parseUnits_room {room : Nat} {s : Text} (h : s.length ≤ room) :
    parseUnits room s = parseString s := by
  have hstep : ∀ {n : Nat} {t : Text}, t.length ≤ n → parseUnits (n + 1) t = parseUnits n t := by
    intro n
    induction n with
    | zero =>
      intro t ht
      cases t with
      | nil => rfl
      | cons u t => simp at ht
    | succ n ih =>
      intro t ht
      cases t with
      | nil => rfl
      | cons u t =>
        rw [parseUnits, parseUnits]
        split
        · rfl
        · refine Option.bind_congr ?_
          rintro ⟨v, r⟩ hunit
          have hr := length_parseUnit hunit
          simp only [ih (show r.length ≤ n by omega)]
  induction room, h using Nat.le_induction with
  | base => rfl
  | succ n hn ih => rw [hstep hn, ih]

/-- More room than twice the length of a text makes no difference. -/
theorem parseAll_succ (room : Nat) :
    (∀ {s}, 2 * s.length < room → parseValue (room + 1) s = parseValue room s) ∧
      (∀ {s}, 2 * s.length + 1 < room → parseItems (room + 1) s = parseItems room s) ∧
      ∀ {s}, 2 * s.length + 1 < room → parseMembers (room + 1) s = parseMembers room s := by
  induction room with
  | zero =>
    refine ⟨?_, ?_, ?_⟩
    · intro s h
      omega
    · intro s h
      omega
    · intro s h
      omega
  | succ room ih =>
    obtain ⟨ihValue, ihItems, ihMembers⟩ := ih
    refine ⟨?_, ?_, ?_⟩
    · intro s h
      have hskip := length_skipSpace s
      rw [parseValue, parseValue]
      split
      · rfl
      rename_i u r hs
      rw [hs, List.length_cons] at hskip
      have hr : 2 * r.length + 1 < room := by omega
      rw [ihItems hr, ihMembers hr]
    · intro s h
      rw [parseItems, parseItems, ihValue (by omega)]
      refine Option.bind_congr ?_
      rintro ⟨v, r⟩ hvalue
      refine Option.bind_congr ?_
      rintro ⟨more, r'⟩ hnext
      have hr := (length_parseAll room).1 hvalue
      have hr' := length_parseNext hnext
      simp only [ihItems (show 2 * r'.length + 1 < room by omega)]
    · intro s h
      rw [parseMembers, parseMembers]
      refine Option.bind_congr ?_
      intro r₁ hquote
      refine Option.bind_congr ?_
      rintro ⟨name, r₂⟩ hname
      refine Option.bind_congr ?_
      intro r₃ hcolon
      have h₁ := length_expect hquote
      have h₂ := length_parseString hname
      have h₃ := length_expect hcolon
      dsimp only at hcolon ⊢
      rw [ihValue (by omega)]
      refine Option.bind_congr ?_
      rintro ⟨v, r₄⟩ hvalue
      refine Option.bind_congr ?_
      rintro ⟨more, r₅⟩ hnext
      dsimp only at hnext
      have h₄ := (length_parseAll room).1 hvalue
      have h₅ := length_parseNext hnext
      simp only [ihMembers (show 2 * r₅.length + 1 < room by omega)]

theorem parseValue_room {room : Nat} {s : Text} (h : 2 * s.length < room) :
    parseValue room s = parseValue (2 * s.length + 1) s := by
  induction room, h using Nat.le_induction with
  | base => rfl
  | succ n hn ih => rw [(parseAll_succ n).1 hn, ih]

/-! ## Reading back what is written -/

theorem hexValue?_hexDigit : ∀ {d : Nat}, d < 16 → hexValue? (Utf16.hexDigit d) = some d := by
  decide

theorem parseUnit_unicodeEscape (u : UInt16) (t : Text) :
    parseUnit (unicodeEscape u ++ t) = some (u, t) := by
  have hu : u.toNat < 65536 := u.toNat_lt
  have hsum : u.toNat / 4096 * 4096 + u.toNat / 256 % 16 * 256 + u.toNat / 16 % 16 * 16 +
      u.toNat % 16 = u.toNat := by omega
  simp only [unicodeEscape, List.cons_append, List.nil_append, parseUnit, if_true,
    hexValue?_hexDigit (show u.toNat / 4096 < 16 by omega),
    hexValue?_hexDigit (Nat.mod_lt _ (by decide : 0 < 16)), Option.bind_eq_bind,
    Option.bind_some, hsum]
  simp

theorem parseUnit_raw {u : UInt16} (h : u ≠ reverseSolidus) (hcontrol : ¬ u < 32) (t : Text) :
    parseUnit (u :: t) = some (u, t) := by
  simp only [parseUnit, if_neg h, if_neg hcontrol]

theorem parseUnit_escape (u : UInt16) (t : Text) : parseUnit (escape u ++ t) = some (u, t) := by
  unfold escape
  split_ifs with h₁ h₂ h₃ h₄ h₅ h₆ h₇
  · rcases h₁ with rfl | rfl <;> rfl
  · subst h₂; rfl
  · subst h₃; rfl
  · subst h₄; rfl
  · subst h₅; rfl
  · subst h₆; rfl
  · exact parseUnit_unicodeEscape u t
  · exact parseUnit_raw (fun h => h₁ (.inr h)) (fun h => h₇ (.inl h)) t

theorem parseString_token {token t s rest : Text} {u : UInt16}
    (hunit : parseUnit (token ++ t) = some (u, t))
    (hhead : ∃ v r, token = v :: r ∧ v ≠ quotationMark) (h : parseString t = some (s, rest)) :
    parseString (token ++ t) = some (u :: s, rest) := by
  obtain ⟨v, r, rfl, hv⟩ := hhead
  have hlength : t.length ≤ (r ++ t).length := by simp
  rw [parseString, List.cons_append, List.length_cons, parseUnits, if_neg hv, ← List.cons_append,
    hunit]
  simp only [Option.bind_eq_bind, Option.bind_some, parseUnits_room hlength, h, Option.pure_def]

theorem parseString_escaped (s t : Text) :
    parseString (escaped s ++ quotationMark :: t) = some (s, t) := by
  fun_induction escaped s with
  | case1 => rfl
  | case2 u =>
    have hend : parseString (quotationMark :: t) = some ([], t) := rfl
    exact parseString_token (parseUnit_escape u _) (escape_head u) hend
  | case3 u v rest hpair ih =>
    obtain ⟨hu, hu'⟩ := isLeading_raw hpair.1
    obtain ⟨hv, hv'⟩ := isTrailing_raw hpair.2
    have hcontrol : ¬ u < 32 := by
      rw [UInt16.lt_iff_toNat_lt]
      have hrange := (Utf16.isLeading_iff.1 hpair.1).1
      exact Nat.not_lt.2 (le_trans (by decide) hrange)
    have hcontrol' : ¬ v < 32 := by
      rw [UInt16.lt_iff_toNat_lt]
      have hrange := (Utf16.isTrailing_iff.1 hpair.2).1
      exact Nat.not_lt.2 (le_trans (by decide) hrange)
    have hlast : parseString ([v] ++ (escaped rest ++ quotationMark :: t)) = some (v :: rest, t) :=
      parseString_token (parseUnit_raw hv' hcontrol' _) ⟨v, [], rfl, hv⟩ ih
    have hboth : parseString ([u] ++ ([v] ++ (escaped rest ++ quotationMark :: t))) =
        some (u :: v :: rest, t) :=
      parseString_token (parseUnit_raw hu' hcontrol _) ⟨u, [], rfl, hu⟩ hlast
    exact hboth
  | case4 u v rest _ ih =>
    rw [List.append_assoc]
    exact parseString_token (parseUnit_escape u _) (escape_head u) ih

theorem expect_cons {u : UInt16} (h : ¬ (u = 32 ∨ u = 9 ∨ u = 10 ∨ u = 13)) (t : Text) :
    expect u (u :: t) = some t := by
  rw [expect, skipSpace, List.dropWhile_cons_of_neg (by simpa using h)]
  exact if_pos rfl

theorem expect_quote (s t : Text) :
    expect quotationMark (quote s ++ t) = some (escaped s ++ quotationMark :: t) := by
  rw [quote, List.cons_append, List.append_assoc, List.singleton_append]
  exact expect_cons (by decide) _

theorem parseValue_quote (room : Nat) (s t : Text) :
    parseValue (room + 1) (quote s ++ t) = some (.string s, t) := by
  have hskip : skipSpace (quote s ++ t) = quotationMark :: (escaped s ++ quotationMark :: t) := by
    rw [quote, List.cons_append, List.append_assoc, List.singleton_append, skipSpace,
      List.dropWhile_cons_of_neg (by decide)]
  rw [parseValue, hskip]
  simp only [if_true, parseString_escaped, Option.map_some]

/-- The fields of an object whose values are strings. -/
def stringFields (fields : List (Text × Text)) : List (Text × Document) :=
  fields.map fun f => (f.1, .string f.2)

/-- What they are read as. -/
def stringMembers (fields : List (Text × Text)) : List (Text × Tree) :=
  fields.map fun f => (f.1, .string f.2)

theorem parseMembers_strings (fields : List (Text × Text)) (name value t : Text) {room : Nat}
    (hroom : 2 * (writeFields (stringFields ((name, value) :: fields)) ++ t).length < room) :
    parseMembers (room + 1) (writeFields (stringFields ((name, value) :: fields)) ++ t) =
      some (stringMembers ((name, value) :: fields), t) := by
  induction fields generalizing name value room with
  | nil =>
    obtain ⟨room, rfl⟩ : ∃ n, room = n + 1 := ⟨room - 1, by omega⟩
    simp only [stringFields, List.map_cons, List.map_nil, writeFields, Document.write,
      writeMoreFields, List.append_assoc, List.cons_append, List.nil_append, parseMembers,
      expect_quote, Option.bind_eq_bind, Option.bind_some, parseString_escaped,
      expect_cons (show ¬ ((58 : UInt16) = 32 ∨ _) by decide), parseValue_quote]
    rfl
  | cons field fields ih =>
    obtain ⟨name', value'⟩ := field
    obtain ⟨room, rfl⟩ : ∃ n, room = n + 1 := ⟨room - 1, by omega⟩
    have hnext : ∀ r : Text, parseNext 125 (44 :: r) = some (true, r) := fun _ => rfl
    have hshorter : 2 * (writeFields (stringFields ((name', value') :: fields)) ++ t).length <
        room := by
      simp only [stringFields, List.map_cons, writeFields, Document.write, writeMoreFields,
        List.append_assoc, List.cons_append, List.length_append, List.length_cons] at hroom ⊢
      omega
    have hrest := ih name' value' hshorter
    simp only [stringFields, List.map_cons, writeFields, Document.write, writeMoreFields,
      List.append_assoc, List.cons_append] at hrest ⊢
    rw [parseMembers]
    simp only [expect_quote, Option.bind_eq_bind, Option.bind_some, parseString_escaped,
      expect_cons (show ¬ ((58 : UInt16) = 32 ∨ _) by decide), parseValue_quote, hnext, if_true,
      hrest, Option.map_some, stringMembers, List.map_cons]

/-- **An object of strings is read back from its text.** -/
theorem parse_stringify (fields : List (Text × Text)) :
    parse (stringify (.object (stringFields fields))) = some (.object (stringMembers fields)) := by
  have hopen : ∀ t : Text, skipSpace (123 :: t) = 123 :: t := fun _ => rfl
  cases fields with
  | nil => rfl
  | cons field fields =>
    obtain ⟨name, value⟩ := field
    have hmore : expect 125 (writeFields (stringFields ((name, value) :: fields))) = none := rfl
    have hroom : ∀ t : Text, 2 * (123 :: t).length = 2 * (t ++ []).length + 1 + 1 := by
      intro t
      rw [List.append_nil, List.length_cons]
      omega
    have hmembers := parseMembers_strings fields name value []
      (Nat.lt_succ_self (2 * (writeFields (stringFields ((name, value) :: fields)) ++ []).length))
    rw [List.append_nil] at hmembers
    rw [stringify, Document.write, parse, hroom, parseValue, hopen]
    simp only [if_neg (show ¬ (123 : UInt16) = quotationMark by decide),
      if_neg (show ¬ (123 : UInt16) = 91 by decide), if_true, hmore, Option.map_none,
      List.append_nil, hmembers]
    rfl

/-! ## What is written is transmitted whole -/

theorem hexDigit_ascii : ∀ {d : Nat}, d < 16 → (Utf16.hexDigit d).toNat < 128 := by
  decide

theorem isAscii_unicodeEscape (u : UInt16) : IsAscii (unicodeEscape u) := by
  have hu : u.toNat < 65536 := u.toNat_lt
  have hlow : ∀ n : Nat, (Utf16.hexDigit (n % 16)).toNat < 128 := fun n =>
    hexDigit_ascii (Nat.mod_lt n (by decide))
  intro v hv
  simp only [unicodeEscape, List.mem_cons, List.not_mem_nil, or_false] at hv
  rcases hv with rfl | rfl | rfl | rfl | rfl | rfl
  · decide
  · decide
  · exact hexDigit_ascii (by omega)
  · exact hlow _
  · exact hlow _
  · exact hlow _

theorem isUnicode_escape (u : UInt16) : IsUnicode (escape u) := by
  unfold escape
  split_ifs with h₁ h₂ h₃ h₄ h₅ h₆ h₇
  · rcases h₁ with rfl | rfl <;> exact isUnicode_ascii (by decide)
  · exact isUnicode_ascii (by decide)
  · exact isUnicode_ascii (by decide)
  · exact isUnicode_ascii (by decide)
  · exact isUnicode_ascii (by decide)
  · exact isUnicode_ascii (by decide)
  · exact isUnicode_ascii (isAscii_unicodeEscape u)
  · obtain ⟨-, hsurrogate⟩ := not_or.1 h₇
    obtain ⟨hleading, htrailing⟩ := not_or.1 hsurrogate
    exact isUnicode_unit (Bool.eq_false_iff.2 hleading) (Bool.eq_false_iff.2 htrailing)

theorem isUnicode_escaped (s : Text) : IsUnicode (escaped s) := by
  fun_induction escaped s with
  | case1 => exact isUnicode_nil
  | case2 u => exact isUnicode_escape u
  | case3 u v rest hpair ih => exact (isUnicode_pair hpair.1 hpair.2).append ih
  | case4 u v rest _ ih => exact (isUnicode_escape u).append ih

theorem isUnicode_quote (s : Text) : IsUnicode (quote s) := by
  have hmark : IsUnicode [quotationMark] := isUnicode_ascii (by decide)
  exact hmark.append ((isUnicode_escaped s).append hmark)

theorem isUnicode_writeMoreFields (fields : List (Text × Text)) :
    IsUnicode (writeMoreFields (stringFields fields)) := by
  have hcolon : IsUnicode [58] := isUnicode_ascii (by decide)
  have hcomma : IsUnicode [44] := isUnicode_ascii (by decide)
  induction fields with
  | nil => exact isUnicode_ascii (by decide)
  | cons field fields ih =>
    have hvalue := (isUnicode_quote field.2).append ih
    exact hcomma.append ((isUnicode_quote field.1).append (hcolon.append hvalue))

/-- The text of an object of strings has no surrogate on its own. -/
theorem isUnicode_stringify (fields : List (Text × Text)) :
    IsUnicode (stringify (.object (stringFields fields))) := by
  have hopen : IsUnicode [123] := isUnicode_ascii (by decide)
  have hcolon : IsUnicode [58] := isUnicode_ascii (by decide)
  cases fields with
  | nil => exact isUnicode_ascii (by decide)
  | cons field fields =>
    have hvalue := (isUnicode_quote field.2).append (isUnicode_writeMoreFields fields)
    exact hopen.append ((isUnicode_quote field.1).append (hcolon.append hvalue))

end Json
