import Mathlib.Data.List.DropRight
import NotificationPlatform.Domain.Provider

/-!
# Classifying what came back from the provider

`packages/provider-whatsapp/src/classify-failure.ts`: what an answer with a status means, and what
it said of when to come back.
-/

namespace NotificationPlatform

namespace ClassifyFailure

/-! ## Patterns -/

/-- Letters of a pattern with the flag `i` match in both cases. Beyond ASCII nothing folds onto
them. -/
def foldCase (text : String) : List Char := text.toList.map Char.toLower

def isLineTerminator (c : Char) : Bool :=
  c = '\n' ∨ c = '\r' ∨ c.toNat = 0x2028 ∨ c.toNat = 0x2029

/-- `\w`. -/
def isWord (c : Char) : Bool := c.isAlphanum ∨ c = '_'

def contains (text : List Char) (word : String) : Bool := text.tails.any word.toList.isPrefixOf

/-- What follows each occurrence of the word, with what precedes it. -/
def occurrences (word : List Char) : Option Char → List Char → List (Option Char × List Char)
  | before, [] => if word = [] then [(before, [])] else []
  | before, c :: rest =>
    (if word.isPrefixOf (c :: rest) then [(before, (c :: rest).drop word.length)] else []) ++
      occurrences word (some c) rest

/-- `\bword\b`, of a word that begins and ends with a word character. -/
def containsWord (text : List Char) (word : String) : Bool :=
  (occurrences word.toList none text).any fun p => !p.1.any isWord && !p.2.head?.any isWord

/-- `/session.*(not connected|not ready|not working|starting|stopped|scan)/i`. -/
def SESSION_STATE_PATTERN (message : String) : Bool :=
  (occurrences "session".toList none (foldCase message)).any fun p =>
    ["not connected", "not ready", "not working", "starting", "stopped", "scan"].any
      (contains (p.2.takeWhile fun c => !isLineTerminator c))

/-- `/\b463\b|reach-?out|time-?lock/i`. -/
def REACHOUT_TIMELOCK_PATTERN (message : String) : Bool :=
  containsWord message.toList "463" ||
    ["reachout", "reach-out", "timelock", "time-lock"].any (contains (foldCase message))

/-- `/\b475\b|capping|capped/i`. -/
def MESSAGE_CAPPING_PATTERN (message : String) : Bool :=
  containsWord message.toList "475" || ["capping", "capped"].any (contains (foldCase message))

/-! ## Numbers -/

/-- The value of a digit, in any base up to sixteen. -/
def digit (c : Char) : Option Nat :=
  if '0' ≤ c ∧ c ≤ '9' then some (c.toNat - 48)
  else if 'a' ≤ c.toLower ∧ c.toLower ≤ 'f' then some (c.toLower.toNat - 87)
  else none

/-- Digits of a base, and nothing else. -/
def natural (base : Nat) (text : List Char) : Option Nat :=
  if text = [] then none
  else
    let read (n : Nat) (c : Char) : Option Nat :=
      (digit c).bind fun d => if d < base then some (n * base + d) else none
    text.foldlM read 0

/-- An exponent: a sign, if there is one, and digits. -/
def exponent : List Char → Option Int
  | '-' :: text => (natural 10 text).map fun n => -(n : Int)
  | '+' :: text => (natural 10 text).map fun n => (n : Int)
  | text => (natural 10 text).map fun n => (n : Int)

/-- Digits with a point among them or at either end, and an exponent. -/
def decimal (text : List Char) : Option ℚ := do
  let whole := text.takeWhile Char.isDigit
  let (fraction, rest) := match text.dropWhile Char.isDigit with
    | '.' :: rest => (rest.takeWhile Char.isDigit, rest.dropWhile Char.isDigit)
    | rest => ([], rest)
  let digits ← natural 10 (whole ++ fraction)
  let mantissa : ℚ := digits / 10 ^ fraction.length
  match rest with
  | [] => return mantissa
  | e :: power =>
    if e = 'e' ∨ e = 'E' then return mantissa * 10 ^ (← exponent power)
    else none

/-- What a trimmed text stands for; `Infinity`, like `NaN`, is no number. -/
def number : List Char → Option ℚ
  | [] => some 0
  | '0' :: 'x' :: text | '0' :: 'X' :: text => (natural 16 text).map Nat.cast
  | '0' :: 'o' :: text | '0' :: 'O' :: text => (natural 8 text).map Nat.cast
  | '0' :: 'b' :: text | '0' :: 'B' :: text => (natural 2 text).map Nat.cast
  | '-' :: text => (decimal text).map fun q => -q
  | '+' :: text => decimal text
  | text => decimal text

/-- Numbers from here on are rounded to `Infinity`. -/
def infinityThreshold : ℚ := 2 ^ 1024 - 2 ^ 970

/-- The double that the text is read as, if it is finite. -/
def finiteNumber (text : List Char) : Option ℚ := do
  let value ← number text
  if infinityThreshold ≤ |value| then none else return Binary64.round value

/-! ## Answers -/

/-- The white space there is among the characters of a header, which are bytes. -/
def isWhiteSpace (c : Char) : Bool :=
  (9 ≤ c.toNat ∧ c.toNat ≤ 13) ∨ c = ' ' ∨ c.toNat = 160

def trim (text : String) : List Char :=
  (text.toList.dropWhile isWhiteSpace).rdropWhile isWhiteSpace

/-- `readRetryAfterSeconds`, of the value of the header. -/
def readRetryAfterSeconds (retryAfter : Option String) : Option ℚ := do
  let raw ← retryAfter.map trim
  if raw.length = 0 then none
  else
    let seconds ← finiteNumber raw
    if seconds < 0 then none else return seconds

def codeByStatus (status : Nat) : Option ProviderFailureCode :=
  match status with
  | 401 | 403 => some .provider_unauthorized
  | 404 => some .session_missing
  | 422 => some .provider_invalid_request
  | 429 => some .provider_rate_limited
  | 500 | 502 | 503 | 504 => some .provider_server_error
  | _ => none

def refusalReasons : ProviderFailureCode → Option String
  | .connection_restricted => some "WhatsApp refused the message because this number is temporarily restricted from starting conversations with new contacts. Sending from it is paused until the restriction lifts."
  | .new_chat_quota_exceeded => some "WhatsApp refused the message because this number has used up its monthly allowance of messages to people who have not replied to it."
  | _ => none

def readCode (status : Nat) (message : String) : ProviderFailureCode :=
  if REACHOUT_TIMELOCK_PATTERN message then .connection_restricted
  else if MESSAGE_CAPPING_PATTERN message then .new_chat_quota_exceeded
  else if status = 422 ∧ SESSION_STATE_PATTERN message then .session_not_ready
  else (codeByStatus status).getD .provider_unknown_error

/-- `classifyHttpStatus`, with the `Retry-After` header of the answer. -/
def classifyHttpStatus (status : Nat) (message : String) (retryAfter : Option String) :
    ProviderFailure :=
  createProviderFailure (readCode status message)
    ((refusalReasons (readCode status message)).getD message) (readRetryAfterSeconds retryAfter)
    (some status)

end ClassifyFailure

end NotificationPlatform
