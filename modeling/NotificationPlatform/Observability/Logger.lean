import Mathlib.Data.Fintype.Card
import Mathlib.Data.Fintype.EquivFin
import Mathlib.Logic.Relation
import NotificationPlatform.Utf16.Text

/-!
# Serialising errors

`serializeError` of `packages/observability/src/logger.ts`. The errors there are, and the links
between them, are a graph: an error is a name in it, and its `cause` may be any value, another error
among them. What was thrown may be any value too. A serialisation is given the number of calls there
is room for, and `none` is one that needs more.
-/

namespace NotificationPlatform

namespace Observability

open Utf16

/-! ## Values -/

/-- A value that is neither an object nor a function. -/
inductive Primitive where
  | undefined
  | null
  | boolean (value : Bool)
  /-- A number, as it is written. -/
  | number (text : Text)
  | bigint (text : Text)
  | symbol (text : Text)
  | string (value : Text)
deriving DecidableEq

/-- `String(..)`. -/
def Primitive.text : Primitive → Text
  | .undefined => ofString "undefined"
  | .null => ofString "null"
  | .boolean value => ofString (if value then "true" else "false")
  | .number text | .bigint text | .symbol text => text
  | .string value => value

/-- What an own property of a plain object holds. -/
inductive Property where
  | primitive (value : Primitive)
  /-- An object or a function. -/
  | nested
deriving DecidableEq

/-- What can be thrown, or be a cause: an error is the name of one. -/
inductive Thrown (ι : Type) where
  | primitive (value : Primitive)
  /-- A function, as it is written. -/
  | function (text : Text)
  /-- An object that is no error, with its own entries. -/
  | object (entries : List (Text × Property))
  | error (name : ι)

/-- An error; `query` and `code` are set where the property is a string. -/
structure ErrorObject (ι : Type) where
  name : Text
  message : Text
  stack : Option Text
  query : Option Text
  code : Option Text
  cause : Thrown ι

/-- The record a log line gets. -/
inductive Serialized where
  /-- The fields of an object in order: a later one of a name is the one that stays. -/
  | object (fields : List (Text × Primitive))
  | text (message : Text)
  | error (type message : Text) (stack code : Option Text) (cause : Option Serialized)

/-! ## `serializeError` -/

def maximumSerializedFields : Nat := 10

/-- A property an object's log line keeps. -/
def Property.serialized? : Text × Property → Option (Text × Primitive)
  -- `typeof null` is "object"
  | (_, .primitive .null) | (_, .nested) => none
  | (key, .primitive value) => some (key, value)

def serializeEntries (entries : List (Text × Property)) : List (Text × Primitive) :=
  (entries.filterMap Property.serialized?).take maximumSerializedFields

def newline : UInt16 := 10

/-- A line of a stack that names a frame. -/
def isFrame (line : Text) : Bool :=
  startsWith (line.dropWhile Utf16.isWhiteSpace) (ofString "at ") 0

def frames (stack : Text) : Text :=
  [newline].intercalate ((stack.splitOn newline).filter isFrame)

/-- The message and the stack of the record. -/
def withheldQueryOrNot {ι : Type} (error : ErrorObject ι) : Text × Option Text :=
  if error.query.isNone then (error.message, error.stack)
  else (ofString "A database query failed. Its statement and parameters are withheld.",
    some (frames (error.stack.getD [])))

variable {ι : Type} (errors : ι → ErrorObject ι)

/-- Reduces an error to what identifies it, with room for `depth` calls. -/
def serializeError : Nat → Thrown ι → Option Serialized
  | 0, _ => none
  | _ + 1, .object entries =>
    some (.object ((ofString "type", .string (ofString "object")) :: serializeEntries entries))
  | _ + 1, .primitive value => some (.text value.text)
  | _ + 1, .function text => some (.text text)
  | depth + 1, .error name =>
    let error := errors name
    let record := Serialized.error error.name (withheldQueryOrNot error).1
      (withheldQueryOrNot error).2 error.code
    match error.cause with
    | .primitive .undefined => some (record none)
    | cause => (serializeError depth cause).map fun cause => record (some cause)

/-! ## Causes -/

/-- An error is the cause of another. -/
def Causes (name cause : ι) : Prop := (errors name).cause = .error cause

/-- What was thrown leads to the error, over any number of causes. -/
def LeadsTo (thrown : Thrown ι) (name : ι) : Prop :=
  ∃ first, thrown = .error first ∧ Relation.ReflTransGen (Causes errors) first name

/-- The chain of causes comes to an end. -/
def Ends (thrown : Thrown ι) : Prop :=
  ∀ name, thrown = .error name → Acc (Function.swap (Causes errors)) name

variable {errors} {depth : Nat} {name cause : ι} {thrown : Thrown ι}

theorem causes_unique {other : ι} (hcause : Causes errors name cause)
    (hother : Causes errors name other) : cause = other :=
  Thrown.error.inj (hcause.symm.trans hother)

theorem serializeError_other (h : ∀ name, thrown ≠ .error name) (depth : Nat) :
    (serializeError errors (depth + 1) thrown).isSome = true := by
  cases thrown with
  | error name => exact absurd rfl (h name)
  | _ => rfl

/-- The cause of an error that is serialised is serialised within it. -/
theorem serializeError_cause (hcause : Causes errors name cause)
    (h : (serializeError errors (depth + 1) (.error name)).isSome = true) :
    (serializeError errors depth (.error cause)).isSome = true := by
  simp only [serializeError] at h
  rw [show (errors name).cause = .error cause from hcause] at h
  simpa using h

/-- An error is serialised once the error that is its cause is, if there is one. -/
theorem serializeError_of_cause (h : ∀ cause, Causes errors name cause →
      (serializeError errors (depth + 1) (.error cause)).isSome = true) :
    (serializeError errors (depth + 2) (.error name)).isSome = true := by
  rw [serializeError]
  split
  · rfl
  · rw [Option.isSome_map]
    cases hcause : (errors name).cause with
    | error cause => exact h cause hcause
    | _ => exact serializeError_other nofun depth

/-- One call more is not one too many. -/
theorem serializeError_isSome_succ (h : (serializeError errors depth thrown).isSome = true) :
    (serializeError errors (depth + 1) thrown).isSome = true := by
  induction depth generalizing thrown with
  | zero => cases h
  | succ depth ih =>
    cases thrown with
    | error name =>
      exact serializeError_of_cause fun cause hcause => ih (serializeError_cause hcause h)
    | _ => exact serializeError_other nofun _

/-! ## Chains that end -/

/-- A walk that leads round a cycle does not end. -/
theorem acyclic_of_acc {r : ι → ι → Prop} {a b : ι} (ha : Acc (Function.swap r) a)
    (hab : Relation.ReflTransGen r a b) : ¬ Relation.TransGen r b b := by
  have hb : Acc (Function.swap r) b := by
    induction hab with
    | refl => exact ha
    | tail _ hstep ih => exact Acc.inv ih hstep
  clear ha hab
  intro hcycle
  replace hcycle : Relation.TransGen (Function.swap r) b b := Relation.transGen_swap.mpr hcycle
  replace hb : Acc (Relation.TransGen (Function.swap r)) b := Acc.transGen hb
  induction hb with
  | intro b _ ih => exact ih b hcycle hcycle

/-- In a finite graph the walks from a place end where none of them comes to a cycle. -/
theorem acc_of_acyclic [Finite ι] {r : ι → ι → Prop} {a : ι}
    (h : ∀ b, Relation.ReflTransGen r a b → ¬ Relation.TransGen r b b) :
    Acc (Function.swap r) a := by
  -- what lies behind a place is smaller than the place, among those the walks come to
  let behind (x y : {b // Relation.ReflTransGen r a b}) : Prop := Relation.TransGen r y.1 x.1
  have : IsTrans _ behind := ⟨fun _ _ _ hxy hyz => hyz.trans hxy⟩
  have : Std.Irrefl behind := ⟨fun x hx => h x.1 x.2 hx⟩
  have hwf : WellFounded behind := Finite.wellFounded_of_trans_of_irrefl behind
  have hacc (x : {b // Relation.ReflTransGen r a b}) : Acc (Function.swap r) x.1 := by
    induction hwf.apply x with
    | intro x _ ih => exact .intro x.1 fun b hb => ih ⟨b, x.2.tail hb⟩ (.single hb)
  exact hacc ⟨a, .refl⟩

/-- A serialisation ends where the chain of causes does. -/
theorem exists_serializeError_iff :
    (∃ depth, (serializeError errors depth thrown).isSome = true) ↔ Ends errors thrown := by
  constructor
  · rintro ⟨depth, h⟩ name rfl
    induction depth generalizing name with
    | zero => cases h
    | succ depth ih =>
      exact .intro name fun cause hcause => ih cause (serializeError_cause hcause h)
  · intro h
    cases thrown with
    | error name =>
      replace h := h name rfl
      induction h with
      | intro name _ ih =>
        by_cases hname : ∃ cause, Causes errors name cause
        · obtain ⟨cause, hcause⟩ := hname
          obtain ⟨depth, hdepth⟩ := ih cause hcause
          refine ⟨depth + 2, serializeError_of_cause fun other hother => ?_⟩
          have heq : other = cause := causes_unique hother hcause
          exact heq ▸ serializeError_isSome_succ hdepth
        · exact ⟨2, serializeError_of_cause fun cause hcause => absurd ⟨cause, hcause⟩ hname⟩
    | _ => exact ⟨1, serializeError_other nofun 0⟩

/-- Serialising what was thrown ends, in a finite graph of errors, exactly when no error it leads to
is, over any number of causes, a cause of itself. -/
theorem serializeError_ends [Finite ι] :
    (∃ depth, (serializeError errors depth thrown).isSome = true) ↔
      ∀ name, LeadsTo errors thrown name → ¬ Relation.TransGen (Causes errors) name name := by
  rw [exists_serializeError_iff]
  constructor
  · rintro h name ⟨first, hfirst, hleads⟩
    exact acyclic_of_acc (h first hfirst) hleads
  · intro h first hfirst
    exact acc_of_acyclic fun name hleads => h name ⟨first, hfirst, hleads⟩

namespace Sample

/-- An error that says little and has the cause. -/
def reset {ι : Type} (cause : Thrown ι) : ErrorObject ι where
  name := ofString "Error"
  message := ofString "connection reset"
  stack := none
  query := none
  code := none
  cause := cause

/-- Two errors of which one is the cause of the other. -/
def pair (name : Bool) : ErrorObject Bool :=
  reset (if name then .error false else .primitive .undefined)

theorem causes_pair {name cause : Bool} (h : Causes pair name cause) :
    name = true ∧ cause = false := by
  revert h
  cases name <;> cases cause <;> simp [Causes, pair, reset]

end Sample

theorem serializeError_ends_pair :
    ∃ depth, (serializeError Sample.pair depth (.error true)).isSome = true := by
  refine serializeError_ends.mpr fun name _ hcycle => ?_
  obtain ⟨next, hnext, -⟩ := Relation.TransGen.head'_iff.mp hcycle
  obtain ⟨last, -, hlast⟩ := Relation.TransGen.tail'_iff.mp hcycle
  exact absurd ((Sample.causes_pair hnext).1.symm.trans (Sample.causes_pair hlast).2) (by decide)

/-- No number of calls is enough to serialise an error that is its own cause. -/
theorem serializeError_ends_fails :
    ¬ ∀ (ι : Type) [Finite ι] (errors : ι → ErrorObject ι) (thrown : Thrown ι),
      ∃ depth, (serializeError errors depth thrown).isSome = true := by
  intro h
  obtain ⟨depth, hdepth⟩ := h Unit (fun _ => Sample.reset (.error ())) (.error ())
  induction depth with
  | zero => cases hdepth
  | succ depth ih => exact ih (serializeError_cause rfl hdepth)

end Observability

end NotificationPlatform
