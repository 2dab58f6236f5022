import NotificationPlatform.Database.Schema
import NotificationPlatform.Iso8601.Instant
import NotificationPlatform.Utf16.Text

/-!
# What the contract accepts

`packages/contracts/src/notifications.ts`: the bodies and the idempotency keys that pass validation.
Each schema is the type of the values it accepts, with what the schema checks as fields. Lengths
count code units. A point in time is what `z.iso.datetime({ offset: true })` tells apart in it.
-/

namespace NotificationPlatform

namespace PublicApi

open Utf16 (Text)

/-! ## Identifiers -/

/-- The last `count` hexadecimal digits of a number. -/
def hexDigits (n : Nat) : Nat → List Char
  | 0 => []
  | count + 1 => hexDigits (n / 16) count ++ [Nat.digitChar (n % 16)]

/-- The text of an identifier, which has 128 bits. -/
def uuidText (id : Uuid) : String :=
  String.ofList (hexDigits (id / 2 ^ 96) 8 ++ '-' :: (hexDigits (id / 2 ^ 80) 4 ++
    '-' :: (hexDigits (id / 2 ^ 64) 4 ++ '-' :: (hexDigits (id / 2 ^ 48) 4 ++
      '-' :: hexDigits id 12))))

def isHexDigit (u : UInt16) : Bool :=
  (48 ≤ u ∧ u ≤ 57) ∨ (97 ≤ u ∧ u ≤ 102) ∨ (65 ≤ u ∧ u ≤ 70)

/-- Hyphens in four places, hexadecimal digits in the others. -/
def isDashedHex (s : Text) : Bool :=
  s.length = 36 ∧ (s.zipIdx.all fun p =>
    if p.2 = 8 ∨ p.2 = 13 ∨ p.2 = 18 ∨ p.2 = 23 then p.1 = 45 else isHexDigit p.1)

/-- `z.uuid()`: a version from 1 to 8 and the variant of RFC 9562, or all zeros, or all ones. -/
def isUuid (s : Text) : Bool :=
  (isDashedHex s ∧ (s[14]?.any fun u => 49 ≤ u ∧ u ≤ 56) ∧
    s[19]?.any fun u => u ∈ [56, 57, 97, 98, 65, 66]) ∨
  s = Utf16.ofString "00000000-0000-0000-0000-000000000000" ∨
  s = Utf16.ofString "ffffffff-ffff-ffff-ffff-ffffffffffff"

example : isUuid (Utf16.ofString (uuidText 0x0190b2a0c0de7000800000000000002a)) = true := by
  decide +kernel

theorem length_hexDigits (n count : Nat) : (hexDigits n count).length = count := by
  induction count generalizing n with
  | zero => rfl
  | succ count ih => rw [hexDigits, List.length_append, ih, List.length_singleton]

theorem digitChar_injective : ∀ d < 16, ∀ d' < 16, Nat.digitChar d = Nat.digitChar d' → d = d' := by
  decide

theorem hexDigits_inj {n m count : Nat} (h : hexDigits n count = hexDigits m count) :
    n % 16 ^ count = m % 16 ^ count := by
  induction count generalizing n m with
  | zero => simp only [pow_zero, Nat.mod_one]
  | succ count ih =>
    obtain ⟨hrest, hlast⟩ := List.append_inj' h rfl
    have hdigit : n % 16 = m % 16 :=
      digitChar_injective _ (Nat.mod_lt _ (by decide)) _ (Nat.mod_lt _ (by decide))
        (List.singleton_inj.1 hlast)
    rw [pow_succ', Nat.mod_mul, Nat.mod_mul, hdigit, ih hrest]

/-- The digits in front and the digits of one group make a longer front. -/
theorem div_eq_of_group {n m k b : Nat} (h : n / (k * b) = m / (k * b))
    (hg : n / k % b = m / k % b) : n / k = m / k := by
  rw [← Nat.div_add_mod (n / k) b, ← Nat.div_add_mod (m / k) b, Nat.div_div_eq_div_mul,
    Nat.div_div_eq_div_mul, h, hg]

/-- An identifier can be read off its text. -/
theorem uuidText_inj {id id' : Uuid} (h : id < 2 ^ 128) (h' : id' < 2 ^ 128)
    (he : uuidText id = uuidText id') : id = id' := by
  have hgroup : ∀ {n m count : Nat} {r r' : List Char},
      hexDigits n count ++ '-' :: r = hexDigits m count ++ '-' :: r' →
        n % 16 ^ count = m % 16 ^ count ∧ r = r' := by
    intro n m count r r' hg
    obtain ⟨hdigits, hrest⟩ := List.append_inj hg
      ((length_hexDigits n count).trans (length_hexDigits m count).symm)
    exact ⟨hexDigits_inj hdigits, (List.cons.inj hrest).2⟩
  obtain ⟨h₁, he⟩ := hgroup (String.ofList_injective he)
  obtain ⟨h₂, he⟩ := hgroup he
  obtain ⟨h₃, he⟩ := hgroup he
  obtain ⟨h₄, he⟩ := hgroup he
  have h₅ := hexDigits_inj he
  have hfront : id / (2 ^ 96 * 16 ^ 8) = id' / (2 ^ 96 * 16 ^ 8) := by
    rw [Nat.div_eq_of_lt (by omega), Nat.div_eq_of_lt (by omega)]
  have h₁ := div_eq_of_group hfront h₁
  have h₂ := div_eq_of_group (k := 2 ^ 80) h₁ h₂
  have h₃ := div_eq_of_group (k := 2 ^ 64) h₂ h₃
  have h₄ := div_eq_of_group (k := 2 ^ 48) h₃ h₄
  rw [← Nat.div_add_mod id (2 ^ 48), ← Nat.div_add_mod id' (2 ^ 48), h₄]
  exact congrArg _ h₅

/-! ## Correlation identifiers -/

/-- `ACCEPTABLE_CORRELATION_ID` of `apps/api/src/http/correlation/correlation.hook.ts`. -/
def isAcceptableCorrelationId (s : String) : Bool :=
  16 ≤ s.length ∧ s.length ≤ 64 ∧ s.toList.all fun c => c.isAlphanum || c = '-'

/-- What a request is correlated by: a value that passed the hook, or an identifier. -/
structure CorrelationId where
  value : String
  acceptable : isAcceptableCorrelationId value

theorem hexDigits_alphanumeric (n count : Nat) : ∀ c ∈ hexDigits n count, c.isAlphanum = true := by
  induction count generalizing n with
  | zero => exact fun c hc => absurd hc List.not_mem_nil
  | succ count ih =>
    intro c hc
    rcases List.mem_append.1 hc with hc | hc
    · exact ih _ c hc
    · have hdigit : ∀ d < 16, (Nat.digitChar d).isAlphanum = true := by decide
      rw [List.mem_singleton.1 hc]
      exact hdigit _ (Nat.mod_lt _ (by decide))

theorem uuidText_acceptable (id : Uuid) : isAcceptableCorrelationId (uuidText id) = true := by
  have hlength : (uuidText id).length = 36 := by
    simp only [uuidText, String.length_ofList, List.length_append, List.length_cons,
      length_hexDigits]
  have hall : ∀ c ∈ (uuidText id).toList, c.isAlphanum = true ∨ c = '-' := by
    intro c hc
    simp only [uuidText, String.toList_ofList, List.mem_append, List.mem_cons] at hc
    rcases hc with h | h | h | h | h | h | h | h | h
    all_goals first
      | exact .inl (hexDigits_alphanumeric _ _ c h)
      | exact .inr h
  simp only [isAcceptableCorrelationId, hlength, decide_eq_true_eq, List.all_eq_true,
    Bool.or_eq_true]
  exact ⟨by decide, by decide, hall⟩

def CorrelationId.ofUuid (id : Uuid) : CorrelationId := ⟨uuidText id, uuidText_acceptable id⟩

/-! ## Points in time -/

def isLeapYear (year : Int) : Bool := 4 ∣ year ∧ (¬ 100 ∣ year ∨ 400 ∣ year)

def daysInMonth (year : Int) (month : Nat) : Nat :=
  if month = 2 then if isLeapYear year then 29 else 28
  else if month = 4 ∨ month = 6 ∨ month = 9 ∨ month = 11 then 30
  else 31

/-- A date and a time with an offset: four digits of a year, a day the month has, seconds and any
number of digits below them if they are given. -/
structure OffsetDateTime where
  date : Iso8601.CivilDate
  hour : Nat
  minute : Nat
  second : Option Nat
  fraction : List (Fin 10)
  /-- What the clock is ahead of UTC. -/
  offsetMinutes : Int
  year_bounds : 0 ≤ date.year ∧ date.year ≤ 9999
  month_bounds : 1 ≤ date.month ∧ date.month ≤ 12
  day_bounds : 1 ≤ date.day ∧ date.day ≤ daysInMonth date.year date.month
  hour_bound : hour < 24
  minute_bound : minute < 60
  second_bound : ∀ s ∈ second, s < 60
  offset_bounds : -1440 < offsetMinutes ∧ offsetMinutes < 1440

namespace OffsetDateTime

/-- The milliseconds of the fraction; digits below are dropped. -/
def milliseconds (d : OffsetDateTime) : Nat :=
  (d.fraction.getD 0 0).val * 100 + (d.fraction.getD 1 0).val * 10 + (d.fraction.getD 2 0).val

/-- What `new Date(..)` makes of it. -/
def toDate (d : OffsetDateTime) : Date :=
  Iso8601.toDays d.date * Iso8601.dayLength +
    (⟨d.hour, d.minute, d.second.getD 0, d.milliseconds⟩ : Iso8601.TimeOfDay).toMilliseconds -
      d.offsetMinutes * 60000

/-- It is a date. -/
theorem abs_toDate_le (d : OffsetDateTime) : |(d.toDate : Int)| ≤ maximumTime := by
  have hday : d.date.day ≤ 31 := by
    have h := d.day_bounds.2
    unfold daysInMonth at h
    split_ifs at h <;> omega
  have hdays := Iso8601.toDays_bounds d.year_bounds d.month_bounds.2 hday
  have hsecond : d.second.getD 0 < 60 := by
    cases hs : d.second with
    | none => decide
    | some s => exact d.second_bound s hs
  have hmilliseconds : d.milliseconds < 1000 := by
    unfold milliseconds
    omega
  have hoffset := d.offset_bounds
  have hhour := d.hour_bound
  have hminute := d.minute_bound
  have hbounds : ∀ days time offset : Int, -1000000 ≤ days → days ≤ 3000000 → 0 ≤ time →
      time ≤ 86400000 → -1440 < offset → offset < 1440 →
        |days * Iso8601.dayLength + time - offset * 60000| ≤ maximumTime := by
    intro days time offset
    rw [abs_le, Iso8601.dayLength, maximumTime]
    omega
  have htime : (⟨d.hour, d.minute, d.second.getD 0, d.milliseconds⟩ :
      Iso8601.TimeOfDay).toMilliseconds ≤ 86400000 := by
    simp only [Iso8601.TimeOfDay.toMilliseconds]
    omega
  exact hbounds _ _ _ hdays.1 hdays.2 (Int.natCast_nonneg _) (by exact_mod_cast htime) hoffset.1
    hoffset.2

end OffsetDateTime

/-! ## Requests -/

/-- `z.record(..)` of `metadata`: names and their values, in the order the object has them. -/
structure Metadata where
  entries : List (Text × Text)
  distinct : (entries.map (·.1)).Nodup
  bounds : ∀ e ∈ entries, e.1.length ≤ 64 ∧ e.2.length ≤ 512

/-- `idempotencyKeySchema`. -/
structure IdempotencyKey where
  value : Text
  bounds : 1 ≤ value.length ∧ value.length ≤ 255

/-- `notificationCreationRequestSchema` without its recipient. -/
structure NotificationContent where
  body : Text
  whatsAppSessionId : Option Text
  scheduledAt : Option OffsetDateTime
  maximumAttempts : Option Nat
  metadata : Metadata
  body_bounds : 1 ≤ body.length ∧ body.length ≤ 4096
  session_isUuid : ∀ s ∈ whatsAppSessionId, isUuid s
  attempts_bounds : ∀ n ∈ maximumAttempts, 1 ≤ n ∧ n ≤ 10

/-- `notificationCreationRequestSchema`. `recipientSchema` is the pattern of the domain. -/
structure NotificationCreationRequest extends NotificationContent where
  recipient : String
  recipient_isValid : isValidPhoneNumber recipient

def MAXIMUM_BATCH_RECIPIENTS : Nat := 50

/-- `notificationBatchCreationRequestSchema`. -/
structure NotificationBatchCreationRequest extends NotificationContent where
  recipients : List String
  recipients_areValid : ∀ r ∈ recipients, isValidPhoneNumber r
  recipients_bounds : 1 ≤ recipients.length ∧ recipients.length ≤ MAXIMUM_BATCH_RECIPIENTS
  recipients_distinct : recipients.Nodup

end PublicApi

end NotificationPlatform
