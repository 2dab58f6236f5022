import NotificationPlatform.Binary64.Rounding
import NotificationPlatform.Domain.Notification
import NotificationPlatform.Utf16.Text

/-!
# What the platform knows of the WhatsApp provider

`packages/domain/src/provider`: instants, the limits WhatsApp reports on an account and the pause
they call for, session states, provider answers and provider events, and the failures of
`packages/domain/src/notification/provider-failure.ts` with the retry policy.

A `Date` is a number of milliseconds. Dates built from numbers the provider reports can be invalid,
and are a `JsDate`.
-/

namespace NotificationPlatform

/-! ## Instants -/

/-- A valid JavaScript date: milliseconds since the epoch. -/
abbrev Date := Int

/-- A PostgreSQL `timestamptz`: microseconds since the epoch. -/
abbrev Timestamptz := Int

/-- What the driver makes of a `timestamptz`: the digits below the millisecond are dropped. -/
def toDate (t : Timestamptz) : Date := t / 1000

/-- What a date is in the database. -/
def toTimestamptz (d : Date) : Timestamptz := d * 1000

theorem toTimestamptz_mono {d d' : Date} (h : d ≤ d') : toTimestamptz d ≤ toTimestamptz d' :=
  Int.mul_le_mul_of_nonneg_right h (by decide)

/-- The result of `new Date(..)` on any number. -/
inductive JsDate where
  | invalid
  | at (milliseconds : Date)
deriving DecidableEq, Repr

/-- The largest distance from the epoch, in milliseconds, that a date can hold. -/
def maximumTime : Int := 8640000000000000

/-- `new Date(milliseconds)`: truncated towards zero, and invalid out of range. -/
def newDate (milliseconds : ℚ) : JsDate :=
  if |milliseconds| ≤ maximumTime then
    .at (if 0 ≤ milliseconds then ⌊milliseconds⌋ else ⌈milliseconds⌉)
  else .invalid

/-! ## Account limits -/

structure ReachoutTimelock where
  isActive : Bool
  /-- When WhatsApp lifts it, or `none` when it did not say. -/
  endsAt : Option JsDate
  enforcementType : Option Utf16.Text
deriving DecidableEq, Repr

structure NewChatQuota where
  status : Utf16.Text
  total : ℚ
  used : ℚ
  cycleEndsAt : Option JsDate
deriving DecidableEq, Repr

structure AccountLimits where
  reachoutTimelock : Option ReachoutTimelock
  newChatQuota : Option NewChatQuota
deriving DecidableEq, Repr

inductive SendingPauseReason where
  | REACHOUT_TIMELOCK
deriving DecidableEq, Repr

structure SendingPause where
  pausedUntil : Date
  reason : SendingPauseReason
deriving DecidableEq, Repr

structure SendingPauseInput where
  limits : Option AccountLimits
  restrictionObserved : Bool
  currentPausedUntil : Option Date
  now : Date
  fallbackPauseMilliseconds : Int

/-- An invalid date compares false with everything, so it counts as an end that was not said. -/
def findPauseEnd (input : SendingPauseInput) : Option Date :=
  let fallback := input.now + input.fallbackPauseMilliseconds
  match input.limits.bind (·.reachoutTimelock) with
  | some timelock =>
    if timelock.isActive then
      match timelock.endsAt with
      | some (.at endsAt) => if endsAt > input.now then some endsAt else some fallback
      | _ => some fallback
    else if input.restrictionObserved then some fallback else none
  | none => if input.restrictionObserved then some fallback else none

/-- Decides whether a connection has to stop sending, and until when. Only the timelock stops a
connection, and a pause is never shortened. -/
def resolveSendingPause (input : SendingPauseInput) : Option SendingPause :=
  (findPauseEnd input).map fun candidate =>
    { pausedUntil :=
        match input.currentPausedUntil with
        | some current => if current > candidate then current else candidate
        | none => candidate
      reason := .REACHOUT_TIMELOCK }

def isSendingPaused (pausedUntil : Option Date) (now : Date) : Bool :=
  match pausedUntil with
  | some p => p > now
  | none => false

/-! ## Sessions -/

inductive ProviderSessionStatus where
  | STOPPED
  | STARTING
  | SCAN_QR_CODE
  | WORKING
  | FAILED
  | UNKNOWN
deriving DecidableEq, Repr

def ProviderSessionStatus.text : ProviderSessionStatus → String
  | .STOPPED => "STOPPED"
  | .STARTING => "STARTING"
  | .SCAN_QR_CODE => "SCAN_QR_CODE"
  | .WORKING => "WORKING"
  | .FAILED => "FAILED"
  | .UNKNOWN => "UNKNOWN"

def toProviderSessionStatus (candidate : String) : ProviderSessionStatus :=
  ([.STOPPED, .STARTING, .SCAN_QR_CODE, .WORKING, .FAILED, .UNKNOWN].find?
    fun s : ProviderSessionStatus => s.text = candidate).getD .UNKNOWN

def canSessionSend (status : ProviderSessionStatus) : Bool := status = .WORKING

def isSessionConnecting (status : ProviderSessionStatus) : Bool :=
  status = .STARTING ∨ status = .SCAN_QR_CODE

structure ProviderSession where
  name : String
  status : ProviderSessionStatus
  phoneNumber : Option String
  pushName : Option String
  accountLimits : Option AccountLimits

structure ResolvedRecipient where
  isRegistered : Bool
  chatIdentifier : Option String

structure SentMessage where
  providerMessageId : String
deriving DecidableEq

/-! ## Failures -/

inductive FailureClassification where
  | RETRYABLE
  | PERMANENT
deriving DecidableEq, Repr

inductive ProviderFailureCode where
  | provider_unreachable
  | provider_connection_lost
  | provider_timeout
  | provider_aborted
  | provider_rate_limited
  | provider_server_error
  | provider_unauthorized
  | provider_invalid_request
  | provider_unknown_error
  | provider_response_unreadable
  | session_missing
  | session_not_ready
  | recipient_not_on_whatsapp
  | recipient_check_failed
  | provider_acknowledgement_error
  | provider_outcome_unknown
  | unknown_outcome_fail_closed
  | maximum_attempts_exhausted
  | delivery_window_expired
  | connection_unavailable
  | connection_paused
  | connection_restricted
  | new_chat_quota_exceeded
deriving DecidableEq, Repr

structure ProviderFailure where
  code : ProviderFailureCode
  classification : FailureClassification
  message : String
  retryAfterSeconds : Option ℚ
  providerStatusCode : Option Nat
deriving DecidableEq

/-- `classificationByCode`. -/
def classifyFailureCode : ProviderFailureCode → FailureClassification
  | .provider_unreachable => .RETRYABLE
  | .provider_connection_lost => .RETRYABLE
  | .provider_timeout => .RETRYABLE
  | .provider_aborted => .RETRYABLE
  | .provider_rate_limited => .RETRYABLE
  | .provider_server_error => .RETRYABLE
  | .provider_unknown_error => .RETRYABLE
  | .provider_response_unreadable => .RETRYABLE
  | .provider_outcome_unknown => .RETRYABLE
  | .session_not_ready => .RETRYABLE
  | .recipient_check_failed => .RETRYABLE
  | .provider_unauthorized => .PERMANENT
  | .provider_invalid_request => .PERMANENT
  | .session_missing => .PERMANENT
  | .recipient_not_on_whatsapp => .PERMANENT
  | .provider_acknowledgement_error => .PERMANENT
  | .unknown_outcome_fail_closed => .PERMANENT
  | .maximum_attempts_exhausted => .PERMANENT
  | .delivery_window_expired => .PERMANENT
  | .connection_unavailable => .PERMANENT
  | .connection_paused => .RETRYABLE
  | .connection_restricted => .PERMANENT
  | .new_chat_quota_exceeded => .PERMANENT

/-- Failures that leave the outcome of a send unknown: the request reached the provider, or may
have, and no readable answer came back. -/
def unknownOutcomeCodes : List ProviderFailureCode :=
  [.provider_connection_lost, .provider_timeout, .provider_aborted, .provider_outcome_unknown,
    .provider_response_unreadable]

def isRetryable (failure : ProviderFailure) : Bool := failure.classification = .RETRYABLE

def hasUnknownOutcome (failure : ProviderFailure) : Bool :=
  unknownOutcomeCodes.contains failure.code

def createProviderFailure (code : ProviderFailureCode) (message : String)
    (retryAfterSeconds : Option ℚ := none) (providerStatusCode : Option Nat := none) :
    ProviderFailure where
  code := code
  classification := classifyFailureCode code
  message := message
  retryAfterSeconds := retryAfterSeconds
  providerStatusCode := providerStatusCode

/-- Every operation of the provider reports failure as a value. -/
inductive ProviderResult (α : Type) where
  | succeeded (value : α)
  | failed (failure : ProviderFailure)
deriving DecidableEq

/-- The provider's client makes every failure with `createProviderFailure`, so the classification
of one follows its code. -/
def ProviderResult.isClassified {α : Type} : ProviderResult α → Bool
  | .succeeded _ => true
  | .failed failure => failure.classification = classifyFailureCode failure.code

/-! ## Retries -/

structure RetryPolicy where
  baseDelaySeconds : Nat
  backoffFactor : Nat
  maximumDelaySeconds : Nat
  maximumAttempts : Nat

def defaultRetryPolicy : RetryPolicy where
  baseDelaySeconds := 60
  backoffFactor := 3
  maximumDelaySeconds := 3600
  maximumAttempts := 5

def sessionNotReadyMinimumDelaySeconds : Nat := 300

/-- The backoff delay before jitter. -/
def cappedDelaySeconds (policy : RetryPolicy) (attemptNumber : Nat) : Nat :=
  min (policy.baseDelaySeconds * policy.backoffFactor ^ (attemptNumber - 1))
    policy.maximumDelaySeconds

/-- The bounds the jitter of `computeRetryDelaySeconds` is drawn between. -/
def retryJitterBound (policy : RetryPolicy) (attemptNumber : Nat) : Nat :=
  cappedDelaySeconds policy attemptNumber - cappedDelaySeconds policy attemptNumber / 2

/-- Equal jitter: half the delay, plus a draw up to the other half. -/
def computeRetryDelaySeconds (policy : RetryPolicy) (attemptNumber draw : Nat) : Nat :=
  cappedDelaySeconds policy attemptNumber / 2 + draw

/-- The product and the sum are doubles. -/
def computeNextAttemptAt (policy : RetryPolicy) (attemptNumber draw : Nat) (now : Date)
    (minimumDelaySeconds : ℚ) : JsDate :=
  let delaySeconds := max (computeRetryDelaySeconds policy attemptNumber draw : ℚ)
    minimumDelaySeconds
  newDate (Binary64.round (now + Binary64.round (delaySeconds * 1000)))

/-! ## Typing -/

/-- The length of a JavaScript string, which counts UTF-16 units. -/
def utf16Length (text : String) : Nat :=
  (text.toList.map fun c => if c.toNat < 0x10000 then 1 else 2).sum

def minimumTypingMilliseconds : Nat := 2000

def maximumTypingMilliseconds : Nat := 8000

/-- How far the draw of `computeTypingMilliseconds` spreads the duration. -/
def typingSpread (characterCount : Nat) : Nat := characterCount * 40 / 4

def computeTypingMilliseconds (characterCount draw : Nat) : Nat :=
  min (max (characterCount * 40 - typingSpread characterCount + draw) minimumTypingMilliseconds)
    maximumTypingMilliseconds

/-! ## Events -/

inductive ProviderEvent where
  | message_acknowledgement (providerMessageId : String)
      (acknowledgement : DeliveryAcknowledgement) (fromUs : Bool)
  | session_status (sessionName : String) (status : ProviderSessionStatus)
      (phoneNumber pushName : Option String) (accountLimits : Option AccountLimits)
  | unsupported (eventType : String)
deriving DecidableEq

def toDeliveryAcknowledgement (value : ℚ) : Option DeliveryAcknowledgement :=
  if value.den = 1 then DeliveryAcknowledgement.ofValue? value.num else none

/-- Reduces a message identifier to its last segment, the part that is stable across the send and
the acknowledgements that follow it. -/
def normalizeProviderMessageId (providerMessageId : String) : String :=
  let last := String.ofList ((providerMessageId.toList.splitOn '_').getLast?.getD [])
  if last.length > 0 then last else providerMessageId

end NotificationPlatform
