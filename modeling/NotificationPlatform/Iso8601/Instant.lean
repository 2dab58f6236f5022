import Mathlib.Algebra.Order.Group.Abs
import Mathlib.Tactic.Ring

/-!
# Instants as ISO 8601 text

The text of an instant is `YYYY-MM-DDTHH:mm:ss.sssZ` in the proleptic Gregorian calendar, with six
signed digits for a year outside `0000` to `9999`. `ofDays` and `toDays` convert between a day
number and a date. The year starts in March in between, so that the leap day ends it, and the days
are counted in cycles of 400, 100, 4 and 1 years. `parse_format` says that reading what was written
gives the instant back.
-/

namespace Iso8601

/-! ## The calendar -/

structure CivilDate where
  year : Int
  month : Nat
  day : Nat
deriving DecidableEq, Repr

/-- A day of a 400 year era, in its cycles. -/
structure Cycles where
  century : Nat
  quad : Nat
  year : Nat
  day : Nat

def cyclesOf (dayOfEra : Nat) : Cycles :=
  let century := min 3 (dayOfEra / 36524)
  let dayOfCentury := dayOfEra - 36524 * century
  let quad := dayOfCentury / 1461
  let dayOfQuad := dayOfCentury - 1461 * quad
  let year := min 3 (dayOfQuad / 365)
  ⟨century, quad, year, dayOfQuad - 365 * year⟩

theorem cyclesOf_bounds {n : Nat} (h : n < 146097) : (cyclesOf n).century ≤ 3 ∧
    (cyclesOf n).quad ≤ 24 ∧ (cyclesOf n).year ≤ 3 ∧ (cyclesOf n).day ≤ 365 := by
  simp only [cyclesOf]
  refine ⟨?_, ?_, ?_, ?_⟩ <;> omega

theorem cyclesOf_sum (n : Nat) : 36524 * (cyclesOf n).century + 1461 * (cyclesOf n).quad +
    365 * (cyclesOf n).year + (cyclesOf n).day = n := by
  simp only [cyclesOf]
  omega

/-- The month of a day of the year, counted from March. -/
def monthFromMarch (dayOfYear : Nat) : Nat := (5 * dayOfYear + 2) / 153

/-- The days of the year before a month, counted from March. -/
def daysBeforeMonth (month : Nat) : Nat := (153 * month + 2) / 5

/-- A day in its era, whose year starts in March, as a date. -/
def ofCycles (era : Int) (c : Cycles) : CivilDate :=
  let month := monthFromMarch c.day
  { year := 100 * c.century + 4 * c.quad + c.year + era * 400 + (if month < 10 then 0 else 1)
    month := if month < 10 then month + 3 else month - 9
    day := c.day - daysBeforeMonth month + 1 }

/-- The date of a day number; day 0 is 1970-01-01. -/
def ofDays (days : Int) : CivilDate :=
  ofCycles ((days + 719468) / 146097) (cyclesOf ((days + 719468) % 146097).toNat)

/-- The number of a month counted from March. -/
def fromMarch (month : Nat) : Nat := if 2 < month then month - 3 else month + 9

/-- The year that starts in March a date lies in. -/
def marchYear (date : CivilDate) : Int := date.year - (if date.month ≤ 2 then 1 else 0)

/-- The days before a year of an era. -/
def daysBeforeYear (yearOfEra : Nat) : Nat :=
  36524 * (yearOfEra / 100) + 1461 * (yearOfEra % 100 / 4) + 365 * (yearOfEra % 4)

/-- The day number of a date. -/
def toDays (date : CivilDate) : Int :=
  marchYear date / 400 * 146097 + daysBeforeYear (marchYear date % 400).toNat +
    daysBeforeMonth (fromMarch date.month) + date.day - 1 - 719468

theorem monthFromMarch_le {n : Nat} (h : n ≤ 365) : monthFromMarch n ≤ 11 := by
  unfold monthFromMarch
  omega

theorem daysBeforeMonth_le (n : Nat) : daysBeforeMonth (monthFromMarch n) ≤ n := by
  unfold monthFromMarch daysBeforeMonth
  omega

theorem day_le (n : Nat) : n - daysBeforeMonth (monthFromMarch n) ≤ 30 := by
  unfold monthFromMarch daysBeforeMonth
  omega

theorem marchYear_ofCycles (era : Int) (c : Cycles) (hm : monthFromMarch c.day ≤ 11) :
    marchYear (ofCycles era c) = 100 * c.century + 4 * c.quad + c.year + era * 400 := by
  simp only [marchYear, ofCycles]
  split <;> split <;> omega

theorem fromMarch_ofCycles (era : Int) (c : Cycles) (hm : monthFromMarch c.day ≤ 11) :
    fromMarch (ofCycles era c).month = monthFromMarch c.day := by
  simp only [fromMarch, ofCycles]
  split <;> split at * <;> omega

theorem daysBeforeYear_cycles {century quad year : Nat} (hq : quad ≤ 24) (hy : year ≤ 3) :
    daysBeforeYear (100 * century + 4 * quad + year) =
      36524 * century + 1461 * quad + 365 * year := by
  unfold daysBeforeYear
  have h1 : (100 * century + 4 * quad + year) / 100 = century := by omega
  have h2 : (100 * century + 4 * quad + year) % 100 / 4 = quad := by omega
  have h3 : (100 * century + 4 * quad + year) % 4 = year := by omega
  rw [h1, h2, h3]

theorem toDays_ofDays (days : Int) : toDays (ofDays days) = days := by
  have hlt : ((days + 719468) % 146097).toNat < 146097 := by omega
  obtain ⟨hc, hq, hy, hd⟩ := cyclesOf_bounds hlt
  have hsum := cyclesOf_sum ((days + 719468) % 146097).toNat
  have hm := monthFromMarch_le hd
  have hb := daysBeforeMonth_le (cyclesOf ((days + 719468) % 146097).toNat).day
  unfold toDays
  simp only [ofDays, marchYear_ofCycles _ _ hm, fromMarch_ofCycles _ _ hm]
  simp only [ofCycles]
  generalize cyclesOf ((days + 719468) % 146097).toNat = c at *
  have hera : (100 * (c.century : Int) + 4 * c.quad + c.year +
      (days + 719468) / 146097 * 400) / 400 = (days + 719468) / 146097 := by
    rw [Int.add_mul_ediv_right _ _ (by decide)]
    omega
  have hyoe : ((100 * (c.century : Int) + 4 * c.quad + c.year +
      (days + 719468) / 146097 * 400) % 400).toNat = 100 * c.century + 4 * c.quad + c.year := by
    rw [Int.add_mul_emod_self_right]
    omega
  rw [hera, hyoe, daysBeforeYear_cycles hq hy]
  omega

theorem ofDays_bounds (days : Int) : 1 ≤ (ofDays days).month ∧ (ofDays days).month ≤ 12 ∧
    1 ≤ (ofDays days).day ∧ (ofDays days).day ≤ 31 := by
  have hlt : ((days + 719468) % 146097).toNat < 146097 := by omega
  obtain ⟨-, -, -, hd⟩ := cyclesOf_bounds hlt
  have hm := monthFromMarch_le hd
  have hday := day_le (cyclesOf ((days + 719468) % 146097).toNat).day
  simp only [ofDays, ofCycles]
  refine ⟨?_, ?_, by omega, by omega⟩ <;> split <;> omega

/-- The days of the years with four digits. -/
theorem toDays_bounds {date : CivilDate} (hy : 0 ≤ date.year ∧ date.year ≤ 9999)
    (hm : date.month ≤ 12) (hd : date.day ≤ 31) :
    -1000000 ≤ toDays date ∧ toDays date ≤ 3000000 := by
  have hmarch : -1 ≤ marchYear date ∧ marchYear date ≤ 9999 := by
    unfold marchYear
    split <;> omega
  have hmonth : daysBeforeMonth (fromMarch date.month) ≤ 337 := by
    unfold daysBeforeMonth fromMarch
    split <;> omega
  have hyear : daysBeforeYear (marchYear date % 400).toNat ≤ 146097 := by
    unfold daysBeforeYear
    omega
  unfold toDays
  omega

/-- The years within a hundred million days of the epoch have six digits. -/
theorem ofDays_year {days : Int} (h : -100000000 ≤ days) (h' : days ≤ 100000000) :
    -1000000 < (ofDays days).year ∧ (ofDays days).year < 1000000 := by
  have hlt : ((days + 719468) % 146097).toNat < 146097 := by omega
  obtain ⟨hc, hq, hy, -⟩ := cyclesOf_bounds hlt
  simp only [ofDays, ofCycles]
  refine ⟨?_, ?_⟩ <;> split <;> omega

/-! ## Digits -/

/-- The last `width` decimal digits of a number. -/
def pad : Nat → Nat → List Char
  | 0, _ => []
  | width + 1, n => pad width (n / 10) ++ [Nat.digitChar (n % 10)]

def digitValue (c : Char) : Option Nat :=
  if c.isDigit then some (c.toNat - '0'.toNat) else none

/-- Reads decimal digits after a number already read. -/
def readDigits (acc : Nat) : List Char → Option Nat
  | [] => some acc
  | c :: cs => (digitValue c).bind fun d => readDigits (acc * 10 + d) cs

/-- Reads exactly `width` digits. -/
def digits (width : Nat) (text : List Char) : Option (Nat × List Char) :=
  if text.length < width then none
  else (readDigits 0 (text.take width)).map fun n => (n, text.drop width)

/-- Reads one fixed character. -/
def literal (c : Char) : List Char → Option (List Char)
  | [] => none
  | c' :: text => if c' = c then some text else none

@[simp] theorem length_pad (width n : Nat) : (pad width n).length = width := by
  induction width generalizing n with
  | zero => rfl
  | succ width ih => simp only [pad, List.length_append, ih, List.length_singleton]

theorem digitValue_digitChar : ∀ {n : Nat}, n < 10 → digitValue (Nat.digitChar n) = some n := by
  decide

theorem readDigits_append (acc : Nat) (cs : List Char) (c : Char) :
    readDigits acc (cs ++ [c]) =
      (readDigits acc cs).bind fun n => (digitValue c).map fun d => n * 10 + d := by
  induction cs generalizing acc with
  | nil =>
    simp only [List.nil_append, readDigits, Option.bind_some]
    cases digitValue c <;> rfl
  | cons c' cs ih =>
    simp only [List.cons_append, readDigits]
    cases digitValue c' with
    | none => rfl
    | some d => exact ih _

theorem readDigits_pad {width n : Nat} (h : n < 10 ^ width) :
    readDigits 0 (pad width n) = some n := by
  induction width generalizing n with
  | zero =>
    have : n = 0 := by simpa using h
    rw [this]
    rfl
  | succ width ih =>
    have hdiv : n / 10 < 10 ^ width := by
      rw [pow_succ] at h
      omega
    rw [pad, readDigits_append, ih hdiv, digitValue_digitChar (Nat.mod_lt _ (by decide))]
    simp only [Option.bind_some, Option.map_some]
    congr 1
    omega

theorem digits_pad {width n : Nat} (h : n < 10 ^ width) (rest : List Char) :
    digits width (pad width n ++ rest) = some (n, rest) := by
  have hlen := length_pad width n
  simp only [digits, List.length_append, hlen]
  rw [if_neg (by omega), List.take_left' hlen, List.drop_left' hlen, readDigits_pad h]
  rfl

@[simp] theorem literal_self (c : Char) (rest : List Char) :
    literal c (c :: rest) = some rest := if_pos rfl

/-! ## Instants -/

/-- Milliseconds of one day. -/
def dayLength : Int := 86400000

/-- A time of day in milliseconds, as hours, minutes, seconds and milliseconds. -/
structure TimeOfDay where
  hour : Nat
  minute : Nat
  second : Nat
  millisecond : Nat

def TimeOfDay.ofMilliseconds (n : Nat) : TimeOfDay :=
  ⟨n / 3600000, n / 60000 % 60, n / 1000 % 60, n % 1000⟩

def TimeOfDay.toMilliseconds (t : TimeOfDay) : Nat :=
  t.hour * 3600000 + t.minute * 60000 + t.second * 1000 + t.millisecond

theorem TimeOfDay.toMilliseconds_ofMilliseconds (n : Nat) :
    (TimeOfDay.ofMilliseconds n).toMilliseconds = n := by
  simp only [ofMilliseconds, toMilliseconds]
  omega

def formatYear (year : Int) : List Char :=
  if 0 ≤ year ∧ year ≤ 9999 then pad 4 year.toNat
  else (if year < 0 then '-' else '+') :: pad 6 year.natAbs

/-- The part of the text after the year. -/
def formatRest (date : CivilDate) (t : TimeOfDay) : List Char :=
  '-' :: (pad 2 date.month ++ '-' :: (pad 2 date.day ++ 'T' :: (pad 2 t.hour ++
    ':' :: (pad 2 t.minute ++ ':' :: (pad 2 t.second ++ '.' :: (pad 3 t.millisecond ++ ['Z']))))))

/-- The text of an instant given in milliseconds since the epoch. -/
def format (instant : Int) : String :=
  let date := ofDays (instant / dayLength)
  String.ofList (formatYear date.year ++
    formatRest date (.ofMilliseconds (instant % dayLength).toNat))

def parseYear (text : List Char) : Option (Int × List Char) :=
  match text with
  | '-' :: rest => (digits 6 rest).map fun (n, rest) => (-(n : Int), rest)
  | '+' :: rest => (digits 6 rest).map fun (n, rest) => ((n : Int), rest)
  | text => (digits 4 text).map fun (n, rest) => ((n : Int), rest)

def parseRest (text : List Char) : Option (Nat × Nat × TimeOfDay) := do
  let text ← literal '-' text
  let (month, text) ← digits 2 text
  let text ← literal '-' text
  let (day, text) ← digits 2 text
  let text ← literal 'T' text
  let (hour, text) ← digits 2 text
  let text ← literal ':' text
  let (minute, text) ← digits 2 text
  let text ← literal ':' text
  let (second, text) ← digits 2 text
  let text ← literal '.' text
  let (millisecond, text) ← digits 3 text
  let text ← literal 'Z' text
  if text = [] then return (month, day, ⟨hour, minute, second, millisecond⟩) else none

/-- Reads a text of the form `format` writes. -/
def parse (text : String) : Option Int := do
  let (year, rest) ← parseYear text.toList
  let (month, day, t) ← parseRest rest
  return toDays ⟨year, month, day⟩ * dayLength + t.toMilliseconds

theorem parseRest_formatRest {date : CivilDate} {t : TimeOfDay} (hm : date.month < 10 ^ 2)
    (hd : date.day < 10 ^ 2) (hh : t.hour < 10 ^ 2) (hmin : t.minute < 10 ^ 2)
    (hs : t.second < 10 ^ 2) (hms : t.millisecond < 10 ^ 3) :
    parseRest (formatRest date t) = some (date.month, date.day, t) := by
  simp only [parseRest, formatRest, literal_self, digits_pad hm, digits_pad hd, digits_pad hh,
    digits_pad hmin, digits_pad hs, digits_pad hms, Option.bind_eq_bind, Option.bind_some]
  rfl

/-- A digit is no sign. -/
theorem pad_ne_cons {n : Nat} {c : Char} (hc : ∀ k < 10, Nat.digitChar k ≠ c)
    (rest text : List Char) : pad 4 n ++ rest ≠ c :: text := by
  simp only [pad, List.nil_append, List.cons_append, ne_eq, List.cons.injEq, not_and]
  intro e
  exact absurd e (hc _ (Nat.mod_lt _ (by decide)))

theorem parseYear_pad {n : Nat} (h : n < 10000) (rest : List Char) :
    parseYear (pad 4 n ++ rest) = some ((n : Int), rest) := by
  have key : digits 4 (pad 4 n ++ rest) = some (n, rest) := digits_pad h rest
  unfold parseYear
  split
  · rename_i heq
    exact absurd heq (pad_ne_cons (by decide) rest _)
  · rename_i heq
    exact absurd heq (pad_ne_cons (by decide) rest _)
  · rw [key]
    rfl

theorem parseYear_formatYear {year : Int} (h : -1000000 < year) (h' : year < 1000000)
    (rest : List Char) : parseYear (formatYear year ++ rest) = some (year, rest) := by
  unfold formatYear
  split
  · rename_i hy
    rw [parseYear_pad (by omega)]
    congr 2
    omega
  · have hn : year.natAbs < 10 ^ 6 := by omega
    split
    · simp only [List.cons_append, parseYear, digits_pad hn, Option.map_some]
      congr 2
      omega
    · simp only [List.cons_append, parseYear, digits_pad hn, Option.map_some]
      congr 2
      omega

/-- Reading the text of an instant gives the instant back, for the instants a date can hold. -/
theorem parse_format {instant : Int} (h : -8640000000000000 ≤ instant)
    (h' : instant ≤ 8640000000000000) : parse (format instant) = some instant := by
  have hdays : -100000000 ≤ instant / dayLength ∧ instant / dayLength ≤ 100000000 := by
    unfold dayLength
    omega
  obtain ⟨hy, hy'⟩ := ofDays_year hdays.1 hdays.2
  obtain ⟨-, hm, -, hd⟩ := ofDays_bounds (instant / dayLength)
  have ht := TimeOfDay.toMilliseconds_ofMilliseconds (instant % dayLength).toNat
  have htime : (instant % dayLength).toNat < 86400000 := by
    unfold dayLength
    omega
  simp only [parse, format, String.toList_ofList, parseYear_formatYear hy hy',
    Option.bind_eq_bind, Option.bind_some]
  rw [parseRest_formatRest (by omega) (by omega) _ _ _ _]
  · have hdate : toDays ⟨(ofDays (instant / dayLength)).year, (ofDays (instant / dayLength)).month,
        (ofDays (instant / dayLength)).day⟩ = instant / dayLength := toDays_ofDays _
    simp only [Option.bind_some, Option.pure_def, ht, hdate]
    congr 1
    unfold dayLength
    omega
  all_goals
    simp only [TimeOfDay.ofMilliseconds]
    omega

/-- Two instants that a date can hold have one text only if they are one instant. -/
theorem format_inj {instant instant' : Int} (h : |instant| ≤ 8640000000000000)
    (h' : |instant'| ≤ 8640000000000000) (he : format instant = format instant') :
    instant = instant' := by
  rw [abs_le] at h h'
  have hparse := parse_format h.1 h.2
  rw [he, parse_format h'.1 h'.2] at hparse
  exact (Option.some.inj hparse).symm

end Iso8601
