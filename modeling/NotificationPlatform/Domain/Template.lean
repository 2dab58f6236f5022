import NotificationPlatform.Utf16.Text

/-!
# Templates

`packages/domain/src/template`: named placeholders substituted into plain text. Bodies, names and
values are sequences of UTF-16 code units, and offsets count them. What `String(..)` makes of a
number is a parameter of rendering.
-/

namespace NotificationPlatform

namespace Template

open Utf16

/-! ## `parse-template.ts` -/

structure VariableNode where
  name : Text
  start : Nat
  finish : Nat
deriving DecidableEq

inductive TemplateNode where
  | text (value : Text)
  | variable (node : VariableNode)
deriving DecidableEq

structure ParsedTemplate where
  nodes : List TemplateNode
  variableNames : List Text
deriving DecidableEq

inductive TemplateSyntaxErrorCode where
  | unclosed_placeholder
  | empty_placeholder
  | invalid_variable_name
deriving DecidableEq

structure TemplateSyntaxError where
  code : TemplateSyntaxErrorCode
  offset : Nat
  message : Text
deriving DecidableEq

def isLetter (u : UInt16) : Bool := (97 ≤ u ∧ u ≤ 122) ∨ (65 ≤ u ∧ u ≤ 90)

/-- `[a-zA-Z0-9_]`. -/
def isWordUnit (u : UInt16) : Bool := isLetter u || (48 ≤ u && u ≤ 57) || u = 95

/-- `/^[a-zA-Z][a-zA-Z0-9_]{0,63}$/`. -/
def templateVariableNamePattern : Text → Bool
  | [] => false
  | first :: rest => isLetter first && rest.all isWordUnit && rest.length ≤ 63

-- the braces are 123 and 125, the backslash is 92
def PLACEHOLDER_OPEN : Text := [123, 123]
def PLACEHOLDER_CLOSE : Text := [125, 125]
def ESCAPED_OPEN : Text := [92, 123, 123]

def unclosedPlaceholder (index : Nat) : TemplateSyntaxError where
  code := .unclosed_placeholder
  offset := index
  message := ofString ("A placeholder opened at position " ++ toString index ++
    " is never closed with \"\x7d\x7d\".")

def emptyPlaceholder (index : Nat) : TemplateSyntaxError where
  code := .empty_placeholder
  offset := index
  message := ofString ("The placeholder at position " ++ toString index ++
    " does not name a variable.")

def invalidVariableName (index : Nat) (rawName : Text) : TemplateSyntaxError where
  code := .invalid_variable_name
  offset := index
  message := ofString "\"" ++ rawName ++ ofString ("\" is not a valid variable name. " ++
    "Use letters, digits and underscores, starting with a letter.")

def flushText (nodes : List TemplateNode) (textBuffer : Text) : List TemplateNode :=
  if textBuffer.length = 0 then nodes else nodes ++ [.text textBuffer]

def pushName (variableNames : List Text) (rawName : Text) : List Text :=
  if rawName ∈ variableNames then variableNames else variableNames ++ [rawName]

/-- The loop of `parseTemplate`. -/
def parseFrom (body : Text) (index : Nat) (nodes : List TemplateNode) (variableNames : List Text)
    (textBuffer : Text) : Except TemplateSyntaxError ParsedTemplate :=
  if h : index < body.length then
    if startsWith body ESCAPED_OPEN index then
      parseFrom body (index + ESCAPED_OPEN.length) nodes variableNames
        (textBuffer ++ PLACEHOLDER_OPEN)
    else if !startsWith body PLACEHOLDER_OPEN index then
      parseFrom body (index + 1) nodes variableNames (textBuffer ++ [body[index]])
    else
      match hclose : indexOf body PLACEHOLDER_CLOSE (index + PLACEHOLDER_OPEN.length) with
      | none => throw (unclosedPlaceholder index)
      | some closeIndex =>
        let rawName := trim (slice body (index + PLACEHOLDER_OPEN.length) closeIndex)
        if rawName.length = 0 then throw (emptyPlaceholder index)
        else if !templateVariableNamePattern rawName then
          throw (invalidVariableName index rawName)
        else
          parseFrom body (closeIndex + PLACEHOLDER_CLOSE.length)
            (flushText nodes textBuffer ++
              [.variable ⟨rawName, index, closeIndex + PLACEHOLDER_CLOSE.length⟩])
            (pushName variableNames rawName) []
  else return { nodes := flushText nodes textBuffer, variableNames }
termination_by body.length - index
decreasing_by
  · simp only [ESCAPED_OPEN, List.length_cons, List.length_nil]
    omega
  · omega
  · have hle := (indexOf_eq_some hclose).1
    simp only [PLACEHOLDER_CLOSE, PLACEHOLDER_OPEN, List.length_cons, List.length_nil] at hle ⊢
    omega

def parseTemplate (body : Text) : Except TemplateSyntaxError ParsedTemplate :=
  parseFrom body 0 [] [] []

example : (parseTemplate (ofString "a \x7b\x7bb\x7d\x7d")).toOption =
    some ⟨[.text [97, 32], .variable ⟨[98], 2, 7⟩], [[98]]⟩ := by decide +kernel

/-! ## `render-template.ts` -/

structure TemplateVariableDeclaration where
  name : Text
  required : Bool
  defaultValue : Option Text := none

def maximumRenderedBodyLength : Nat := 4096
def maximumVariableValueLength : Nat := 1024

inductive TemplateRenderErrorCode where
  | template_variable_missing
  | template_variable_unknown
  | template_variable_invalid_type
  | template_variable_too_long
  | rendered_body_too_long
deriving DecidableEq

structure TemplateRenderErrorDetails where
  missingVariables : Option (List Text) := none
  unknownVariables : Option (List Text) := none
  /-- Each with the type it was received as. -/
  invalidVariables : Option (List (Text × String)) := none
  tooLongVariables : Option (List Text) := none
  renderedLength : Option Nat := none
deriving DecidableEq

structure TemplateRenderError where
  code : TemplateRenderErrorCode
  message : Text
  details : TemplateRenderErrorDetails
deriving DecidableEq

structure RenderResult where
  renderedBody : Text
  characterCount : Nat
  variablesUsed : List Text
  optionalVariablesDefaulted : List Text
deriving DecidableEq

/-- A JavaScript value, as far as rendering looks into it; `ν` are the numbers. -/
inductive Value (ν : Type) where
  | undefined
  | null
  | string (value : Text)
  | number (value : ν)
  | boolean (value : Bool)
  | bigint
  | symbol
  | function
  | array
  | object

/-- `Record<string, unknown>`: its own enumerable properties, in property order. -/
structure Record (ν : Type) where
  entries : List (Text × Value ν)
  distinct : (entries.map (·.1)).Nodup

section Rendering

variable {ν : Type}

/-- What every object inherits under a name. -/
def inherited (name : Text) : Value ν :=
  if name = ofString "__proto__" then .object
  else if name ∈ ["constructor", "hasOwnProperty", "isPrototypeOf", "propertyIsEnumerable",
      "toLocaleString", "toString", "valueOf", "__defineGetter__", "__defineSetter__",
      "__lookupGetter__", "__lookupSetter__"].map ofString then .function
  else .undefined

/-- `values[name]`. -/
def Record.get (values : Record ν) (name : Text) : Value ν :=
  (values.entries.lookup name).getD (inherited name)

def describeType : Value ν → String
  | .null => "null"
  | .array => "array"
  | .undefined => "undefined"
  | .string _ => "string"
  | .number _ => "number"
  | .boolean _ => "boolean"
  | .bigint => "bigint"
  | .symbol => "symbol"
  | .function => "function"
  | .object => "object"

/-- What `String(..)` makes of a value of a supported type; of no other there is any. -/
def supported (numberText : ν → Text) : Value ν → Option Text
  | .string value => some value
  | .number value => some (numberText value)
  | .boolean value => some (ofString (if value then "true" else "false"))
  | _ => none

def isSupportedValue : Value ν → Bool
  | .string _ | .number _ | .boolean _ => true
  | _ => false

def isAbsent : Value ν → Bool
  | .undefined | .null => true
  | _ => false

/-- `names.join(', ')`. -/
def joined (names : List Text) : Text := (ofString ", ").intercalate names

def assertNoUnknownVariables (declarations : List TemplateVariableDeclaration)
    (values : Record ν) : Except TemplateRenderError Unit :=
  let unknownVariables := (values.entries.map (·.1)).filter fun name =>
    name ∉ declarations.map (·.name)
  if unknownVariables.length = 0 then return ()
  else throw {
    code := .template_variable_unknown
    message := ofString "The template does not declare: " ++ joined unknownVariables ++ ofString "."
    details := { unknownVariables := some unknownVariables } }

def assertValueTypes (values : Record ν) : Except TemplateRenderError Unit :=
  let invalidVariables := (values.entries.filter fun e =>
    !isAbsent e.2 && !isSupportedValue e.2).map fun e => (e.1, describeType e.2)
  if invalidVariables.length = 0 then return ()
  else throw {
    code := .template_variable_invalid_type
    message := ofString "Template variables must be a string, number or boolean."
    details := { invalidVariables := some invalidVariables } }

/-- `resolved.set(name, value)`: a name that is there keeps its place. -/
def setValue (resolved : List (Text × Text)) (name value : Text) : List (Text × Text) :=
  if name ∈ resolved.map (·.1) then resolved.map fun e => if e.1 = name then (name, value) else e
  else resolved ++ [(name, value)]

def assertValueLengths (resolved : List (Text × Text)) : Except TemplateRenderError Unit :=
  let tooLongVariables := (resolved.filter fun e =>
    e.2.length > maximumVariableValueLength).map (·.1)
  if tooLongVariables.length = 0 then return ()
  else throw {
    code := .template_variable_too_long
    message := ofString ("Template variable values may be at most " ++
      toString maximumVariableValueLength ++ " characters.")
    details := { tooLongVariables := some tooLongVariables } }

structure Resolution where
  resolved : List (Text × Text) := []
  defaulted : List Text := []
  missingVariables : List Text := []

variable (numberText : ν → Text)

/-- One turn of the loop of `resolveVariables`. -/
def resolveVariable (values : Record ν) (resolution : Resolution)
    (declaration : TemplateVariableDeclaration) : Resolution :=
  match supported numberText (values.get declaration.name) with
  | some supplied =>
    { resolution with resolved := setValue resolution.resolved declaration.name supplied }
  | none =>
    if declaration.required then
      { resolution with
        missingVariables := resolution.missingVariables ++ [declaration.name] }
    else
      { resolution with
        resolved := setValue resolution.resolved declaration.name
          (declaration.defaultValue.getD [])
        defaulted := resolution.defaulted ++ [declaration.name] }

def resolveVariables (declarations : List TemplateVariableDeclaration) (values : Record ν) :
    Except TemplateRenderError Resolution :=
  let resolution := declarations.foldl (resolveVariable numberText values) {}
  if resolution.missingVariables.length > 0 then throw {
    code := .template_variable_missing
    message := ofString "Missing required template variables: " ++
      joined resolution.missingVariables ++ ofString "."
    details := { missingVariables := some resolution.missingVariables } }
  else return resolution

/-- What a node becomes: a placeholder the value its name resolved to, or nothing. -/
def renderNode (resolved : List (Text × Text)) : TemplateNode → Text
  | .text value => value
  | .variable node => (resolved.lookup node.name).getD []

def renderTemplate (parsed : ParsedTemplate) (declarations : List TemplateVariableDeclaration)
    (values : Record ν) : Except TemplateRenderError RenderResult := do
  assertNoUnknownVariables declarations values
  assertValueTypes values
  let resolution ← resolveVariables numberText declarations values
  assertValueLengths resolution.resolved
  let renderedBody := (parsed.nodes.map (renderNode resolution.resolved)).flatten
  if renderedBody.length > maximumRenderedBodyLength then throw {
    code := .rendered_body_too_long
    message := ofString ("The rendered message is " ++ toString renderedBody.length ++
      " characters, above the " ++ toString maximumRenderedBodyLength ++ " character limit.")
    details := { renderedLength := some renderedBody.length } }
  return {
    renderedBody
    characterCount := renderedBody.length
    variablesUsed := parsed.variableNames
    optionalVariablesDefaulted := resolution.defaulted.filter (· ∈ parsed.variableNames) }

end Rendering

end Template

end NotificationPlatform
