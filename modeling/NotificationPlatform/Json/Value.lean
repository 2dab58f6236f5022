import Mathlib.Data.Rat.Defs
import NotificationPlatform.Utf16.Text

/-!
# JSON values in memory and in a `jsonb` column

A JSON text read into memory can hold a number no JSON text can express again: a literal too large
for a double reads as an infinity, and an infinity is written as `null`. `stored` is what is read
back after a value was written to a `jsonb` column. A string in memory can have a surrogate on its
own, which no column holds: what is sent to a `text` column has U+FFFD in its place, and a `jsonb`
column refuses it. The readers below are the checks a schema makes of one field: `required`,
`optional` (the field may be missing) and `nullish` (it may be missing or `null`).
-/

namespace Json

open Utf16 (Text)

/-- A number as a double holds it. -/
inductive Number where
  | finite (value : ℚ)
  | infinite (negative : Bool)
deriving DecidableEq, Repr

inductive Value where
  | null
  | bool (value : Bool)
  | number (value : Number)
  | string (value : String)
  /-- A string with a surrogate on its own. -/
  | illFormed (value : {s : Text // Utf16.isWellFormed s = false})
  | array (items : List Value)
  | object (fields : List (String × Value))
deriving Repr

/-- The field of an object; the first entry of a name is its value. -/
def lookup (fields : List (String × Value)) (name : String) : Option Value :=
  match fields with
  | [] => none
  | (n, v) :: rest => if n = name then some v else lookup rest name

mutual

/-- The value read back after it was written to a `jsonb` column. -/
def Value.stored : Value → Value
  | .number (.infinite _) => .null
  | .array items => .array (storedItems items)
  | .object fields => .object (storedFields fields)
  | v => v

def storedItems : List Value → List Value
  | [] => []
  | v :: rest => v.stored :: storedItems rest

def storedFields : List (String × Value) → List (String × Value)
  | [] => []
  | (n, v) :: rest => (n, v.stored) :: storedFields rest

end

theorem lookup_storedFields (fields : List (String × Value)) (name : String) :
    lookup (storedFields fields) name = (lookup fields name).map Value.stored := by
  induction fields with
  | nil => rfl
  | cons field rest ih =>
    obtain ⟨n, v⟩ := field
    simp only [storedFields, lookup]
    split
    · rfl
    · exact ih

/-! ## Readers -/

namespace Value

def asBool : Value → Option Bool
  | .bool b => some b
  | _ => none

/-- A string, as a `text` column gets it. -/
def asString : Value → Option String
  | .string s => some s
  | .illFormed s => some (Utf16.toUnicode s)
  | _ => none

def asNonEmptyString : Value → Option String
  | .string s => if s.length > 0 then some s else none
  | .illFormed s => some (Utf16.toUnicode s)
  | _ => none

/-- A string, unit by unit. -/
def asText : Value → Option Text
  | .string s => some (Utf16.ofString s)
  | .illFormed s => some s
  | _ => none

def asNonEmptyText (v : Value) : Option Text := v.asText.filter (0 < ·.length)

/-- A finite number: an infinity is refused. -/
def asNumber : Value → Option ℚ
  | .number (.finite q) => some q
  | _ => none

def asObject : Value → Option (List (String × Value))
  | .object fields => some fields
  | _ => none

/-- Whether a value is a number that storing turns into `null`. -/
def isInfinite : Value → Bool
  | .number (.infinite _) => true
  | _ => false

@[simp] theorem asBool_stored (v : Value) : v.stored.asBool = v.asBool := by
  cases v with
  | number n => cases n <;> rfl
  | _ => rfl

@[simp] theorem asString_stored (v : Value) : v.stored.asString = v.asString := by
  cases v with
  | number n => cases n <;> rfl
  | _ => rfl

@[simp] theorem asNonEmptyString_stored (v : Value) :
    v.stored.asNonEmptyString = v.asNonEmptyString := by
  cases v with
  | number n => cases n <;> rfl
  | _ => rfl

@[simp] theorem asText_stored (v : Value) : v.stored.asText = v.asText := by
  cases v with
  | number n => cases n <;> rfl
  | _ => rfl

@[simp] theorem asNonEmptyText_stored (v : Value) : v.stored.asNonEmptyText = v.asNonEmptyText := by
  rw [asNonEmptyText, asText_stored, asNonEmptyText]

@[simp] theorem asNumber_stored (v : Value) : v.stored.asNumber = v.asNumber := by
  cases v with
  | number n => cases n <;> rfl
  | _ => rfl

@[simp] theorem asObject_stored (v : Value) : v.stored.asObject = v.asObject.map storedFields := by
  cases v with
  | number n => cases n <;> rfl
  | _ => rfl

theorem asNumber_infinite (v : Value) (h : v.isInfinite = true) : v.asNumber = none := by
  cases v with
  | number n => cases n with
    | finite q => exact absurd h nofun
    | infinite b => rfl
  | _ => rfl

theorem asText_infinite (v : Value) (h : v.isInfinite = true) : v.asText = none := by
  cases v with
  | number n => rfl
  | _ => exact absurd h nofun

end Value

section Readers

variable {α : Type} (fields : List (String × Value)) (name : String) (read : Value → Option α)

/-- The field must be there and `read` must accept it. -/
def required : Option α := (lookup fields name).bind read

/-- The field may be missing. -/
def optional : Option (Option α) :=
  match lookup fields name with
  | none => some none
  | some v => (read v).map some

/-- The field may be missing or `null`. -/
def nullish : Option (Option α) :=
  match lookup fields name with
  | none => some none
  | some .null => some none
  | some v => (read v).map some

/-- The field holds a number that storing turns into `null`. -/
def infiniteAt : Bool := (lookup fields name).any Value.isInfinite

/-- A nullish field that is readable, or becomes so by being stored. -/
def readableOnceStored : Bool :=
  infiniteAt fields name || (nullish fields name read).isSome

end Readers

theorem required_congr {α : Type} {fields fields' : List (String × Value)} {name : String}
    {read : Value → Option α} (h : lookup fields name = lookup fields' name) :
    required fields name read = required fields' name read := by
  simp only [required, h]

theorem optional_congr {α : Type} {fields fields' : List (String × Value)} {name : String}
    {read : Value → Option α} (h : lookup fields name = lookup fields' name) :
    optional fields name read = optional fields' name read := by
  simp only [optional, h]

section Stored

variable {α : Type} {fields : List (String × Value)} {name : String} {read : Value → Option α}

theorem required_stored (hread : ∀ v, read v.stored = read v) :
    required (storedFields fields) name read = required fields name read := by
  simp only [required, lookup_storedFields]
  cases lookup fields name with
  | none => rfl
  | some v => exact hread v

theorem optional_stored (hread : ∀ v, read v.stored = read v) :
    optional (storedFields fields) name read = optional fields name read := by
  simp only [optional, lookup_storedFields]
  cases lookup fields name with
  | none => rfl
  | some v => simp only [Option.map_some, hread]

/-- A nullish field reads the same once stored, unless it holds an infinity: then it was refused
and is now taken for missing. -/
theorem nullish_stored (hread : ∀ v, read v.stored = read v) :
    nullish (storedFields fields) name read =
      if infiniteAt fields name then some none else nullish fields name read := by
  unfold infiniteAt
  simp only [nullish, lookup_storedFields]
  cases lookup fields name with
  | none => rfl
  | some v =>
    cases v with
    | number n => cases n with
      | finite q => simp [Value.stored, Value.isInfinite]
      | infinite b => simp [Value.stored, Value.isInfinite]
    | null => simp [Value.stored, Value.isInfinite]
    | bool b => simp [Value.stored, Value.isInfinite]
    | string t => simp [Value.stored, Value.isInfinite]
    | illFormed t => simp [Value.stored, Value.isInfinite]
    | array items =>
      have := hread (.array items)
      simp only [Value.stored] at this
      simp [Value.stored, Value.isInfinite, this]
    | object fs =>
      have := hread (.object fs)
      simp only [Value.stored] at this
      simp [Value.stored, Value.isInfinite, this]

/-- A reader that refuses infinities does not read a nullish field that holds one. -/
theorem nullish_infinite (hread : ∀ v, v.isInfinite = true → read v = none)
    (h : infiniteAt fields name = true) : nullish fields name read = none := by
  unfold infiniteAt at h
  unfold nullish
  cases hv : lookup fields name with
  | none => simp [hv] at h
  | some v =>
    rw [hv, Option.any_some] at h
    cases v with
    | number n => simp [hread _ h]
    | _ => exact absurd h nofun

/-- Keeping some fields of an object keeps what is found under their names. -/
theorem lookup_filterMap (names : List String) (hnodup : names.Nodup) :
    lookup (names.filterMap fun n => (lookup fields n).map fun v => (n, v)) name =
      if name ∈ names then lookup fields name else none := by
  induction names with
  | nil => rfl
  | cons n rest ih =>
    obtain ⟨hn, hrest⟩ := List.nodup_cons.1 hnodup
    by_cases hname : n = name
    · subst hname
      cases hv : lookup fields n with
      | none => simp [hv, ih hrest, hn]
      | some v => simp [hv, lookup]
    · cases hv : lookup fields n with
      | none => simp [hv, ih hrest, Ne.symm hname]
      | some v => simp [hv, lookup, hname, ih hrest, Ne.symm hname]

end Stored

end Json
