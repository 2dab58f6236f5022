import NotificationPlatform.Json.Parse
import NotificationPlatform.Utf16.Replace

/-!
# The provider's own account of a failure

`packages/provider-whatsapp/src/waha-provider.ts`, from `errorTextSchema` on: what is kept of the
body an error is answered with.
-/

namespace NotificationPlatform

namespace WahaProvider

open Utf16 (Text Pattern ofString replaceMatches trim slice)
open Json (Tree)

/-! ## The body -/

def asText : Tree → Option Text
  | .string s => some s
  | _ => none

/-- `messages.join('; ')`. -/
def joined : List Text → Text
  | [] => []
  | [message] => message
  | message :: rest => message ++ ofString "; " ++ joined rest

def errorTextSchema : Tree → Option Text
  | .string s => if s.length ≥ 1 then some s else none
  | .array items => (items.mapM asText).map joined
  | _ => none

/-- What parsing `errorBodySchema` gives. -/
structure ErrorBody where
  exception : Option Text
  message : Option Text

/-- `.optional()`: the field may be missing, and is parsed if it is not. -/
def optionalField (schema : Tree → Option Text) : Option Tree → Option (Option Text)
  | none => some none
  | some value => (schema value).map some

/-- `z.object({ message: errorTextSchema })`. -/
def exceptionSchema : Tree → Option Text
  | .object members => (Tree.property (ofString "message") members).bind errorTextSchema
  | _ => none

def errorBodySchema : Tree → Option ErrorBody
  | .object members => do
    let exception ← optionalField exceptionSchema
      (Tree.property (ofString "exception") members)
    let message ← optionalField errorTextSchema (Tree.property (ofString "message") members)
    return { exception, message }
  | _ => none

/-- A text that is no JSON is used as it came. -/
def readMessage (text : Text) : Option Text :=
  match Json.parse text with
  | some value => (errorBodySchema value).bind fun parsed => parsed.exception <|> parsed.message
  | none => some text

/-! ## The message -/

/-- `[\w.-]`. -/
def isAddressUnit (u : UInt16) : Bool :=
  (48 ≤ u ∧ u ≤ 57) ∨ (65 ≤ u ∧ u ≤ 90) ∨ (97 ≤ u ∧ u ≤ 122) ∨ u = 95 ∨ u = 46 ∨ u = 45

/-- `@`. -/
def atSign : UInt16 := 64

def chatServers : List Text :=
  [ofString "c.us", ofString "s.whatsapp.net", ofString "lid", ofString "g.us",
    ofString "newsletter", ofString "broadcast"]

/-- No `@` is one of the units before it, so the match has all of these that there are, and no two
servers start in the same way. -/
def CHAT_ADDRESS_PATTERN : Pattern := fun s =>
  match s.dropWhile isAddressUnit with
  | u :: rest =>
    if u = atSign ∧ (s.takeWhile isAddressUnit).any Json.isDigit then
      (chatServers.find? fun server => server.isPrefixOf rest).map fun server =>
        (s.takeWhile isAddressUnit).length + 1 + server.length
    else none
  | [] => none

/-- `\s+`. -/
def spacePattern : Pattern := fun s =>
  if (s.takeWhile Utf16.isWhiteSpace).isEmpty then none
  else some (s.takeWhile Utf16.isWhiteSpace).length

def MAXIMUM_ERROR_MESSAGE_LENGTH : Nat := 200

/-- With its addresses masked and its white space made single. -/
def masked (message : Text) : Text :=
  replaceMatches spacePattern [32] (replaceMatches CHAT_ADDRESS_PATTERN (ofString "a chat") message)

def toSafeErrorMessage (text : Text) : Option Text :=
  (readMessage text).bind fun message =>
    let safe := trim (masked message)
    if safe.length = 0 then none else some (slice safe 0 MAXIMUM_ERROR_MESSAGE_LENGTH)

/-- The text of the body is missing if it cannot be read. -/
def readErrorMessage (text : Option Text) (statusText : Text) : Text :=
  match text with
  | some text =>
    if text.length = 0 then statusText else (toSafeErrorMessage text).getD statusText
  | none => statusText

example : toSafeErrorMessage
      (ofString "\x7b\"message\":[\"no  5511999998888@c.us\",\"x\"],\"id\":1\x7d") =
    some (ofString "no a chat; x") := by decide +kernel

end WahaProvider

end NotificationPlatform
