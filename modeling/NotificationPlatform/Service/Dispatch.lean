import NotificationPlatform.Iso8601.Instant
import NotificationPlatform.Service.ConnectionState

/-!
# Delivering one notification

`packages/composition/src/notification/dispatch-notification.service.ts`, method by method. Logging
and its correlation context are left out.
-/

namespace NotificationPlatform

open ConnectionStateService

inductive DispatchOutcome where
  | sent
  | retry_scheduled
  | failed
  | deferred
  | not_claimable
deriving DecidableEq, Repr

inductive DispatchDetail where
  | not_yet_scheduled
  | not_yet_due
  | worker_stopping
  | send_pacing
  | failure (code : ProviderFailureCode)
deriving DecidableEq, Repr

structure DispatchResult where
  outcome : DispatchOutcome
  detail : Option DispatchDetail := none
deriving DecidableEq, Repr

inductive ClaimResult where
  | claimed (notification : NotificationRecord)
  | not_claimable
  | not_due (dueAt : Date) (reason : DispatchDetail)

/-- The provider answered as though it had never heard of the session. -/
def isSessionLostByProvider (failure : ProviderFailure) : Bool :=
  failure.code = .session_missing ∧ failure.providerStatusCode.isSome

def PAUSE_RESUMPTION_SPREAD_SECONDS : Nat := 60

namespace DispatchNotificationService

variable (configuration : Configuration)

/-! ## Claiming -/

def explainFailedClaim (input : DispatchInput) (now : Date) : Program ClaimResult := do
  let existing ← perform (.findNotificationById input.applicationId input.notificationId)
  match existing with
  | none => return .not_claimable
  | some existing =>
    match existing.status, existing.scheduledAt, existing.nextAttemptAt with
    | .SCHEDULED, some scheduledAt, _ =>
      if scheduledAt > now then return .not_due scheduledAt .not_yet_scheduled
      else return .not_claimable
    | .RETRYING, _, some nextAttemptAt =>
      if nextAttemptAt > now then return .not_due nextAttemptAt .not_yet_due
      else return .not_claimable
    | _, _, _ => return .not_claimable

/-- The timeline entry of a promotion. -/
def queuedEvent (input : DispatchInput) : NotificationEventInput where
  applicationId := input.applicationId
  notificationId := input.notificationId
  eventType := "notification.queued"
  fromStatus := some .SCHEDULED
  toStatus := some .QUEUED
  attemptNumber := none
  payload := {}
  correlationId := some input.correlationId

def recordPromotion (input : DispatchInput) (promoted : Option NotificationRecord) :
    Program Unit :=
  match promoted with
  | none => return ()
  | some _ => perform (.appendEvent (queuedEvent input))

/-- Takes ownership of the notification, promoting a scheduled one first. -/
def claim (input : DispatchInput) (claimToken : Uuid) : Program ClaimResult := do
  let now ← perform .clockNow
  let promoted ← perform (.promoteScheduled input.applicationId input.notificationId now)
  recordPromotion input promoted
  let claimed ← perform
    (.claimForDispatch input.applicationId input.notificationId claimToken now)
  match claimed with
  | some notification => return .claimed notification
  | none => explainFailedClaim input now

def reschedule (input : DispatchInput) (dueAt : Date) : Program Unit := do
  let _ ← perform (.enqueueDispatch {
    correlationId := input.correlationId
    notificationId := input.notificationId
    applicationId := input.applicationId
    startAfter := some dueAt })
  return ()

/-! ## Deadlines -/

/-- Since when the notification has been free to go out. -/
def eligibleSince (notification : NotificationRecord) : Date :=
  notification.scheduledAt.getD (toDate notification.createdAt)

def millisecondsSinceDue (notification : NotificationRecord) : Program Int := do
  let now ← perform .clockNow
  return now - eligibleSince notification

def hasOutlivedDeliveryWindow (notification : NotificationRecord) : Program Bool := do
  let elapsed ← millisecondsSinceDue notification
  return elapsed > configuration.maximumLifetimeHours * 3600000

def readUnknownOutcomePolicy (applicationId : Uuid) : Program UnknownOutcomePolicy := do
  let settings ← perform (.findDeliverySettings applicationId)
  return (settings.map (·.unknownOutcomePolicy)).getD .RETRY

/-! ## Leaving a dispatch -/

def retryPayload (nextAttemptAt : Date) : EventPayload := { nextAttemptAt := some nextAttemptAt }

/-- What `retry` writes on the row. -/
def retryChanges (failure : ProviderFailure) (nextAttemptAt : Date) :
    NotificationTransitionChanges where
  nextAttemptAt := some (some nextAttemptAt)
  failureCode := some (some failure.code)
  failureReason := some (some failure.message)
  failureClassification := some (some failure.classification)
  claimToken := some none
  claimedAt := some none

/-- What `fail` writes on the row. -/
def failChanges (failure : ProviderFailure) (now : Date) : NotificationTransitionChanges where
  failedAt := some (some now)
  failureCode := some (some failure.code)
  failureReason := some (some failure.message)
  failureClassification := some (some failure.classification)
  claimToken := some none
  claimedAt := some none
  nextAttemptAt := some none

/-- An invalid date has no text, so `toISOString` throws before anything is written. -/
def retry (notification : NotificationRecord) (failure : ProviderFailure) (input : DispatchInput)
    (minimumDelaySeconds : ℚ := 0) (attemptNumber : Option Nat := none) :
    Program DispatchResult := do
  let now ← perform .clockNow
  let floor := max minimumDelaySeconds (failure.retryAfterSeconds.getD 0)
  let number := max (attemptNumber.getD notification.attemptCount) 1
  let draw ← perform (.integerBetween 0 (retryJitterBound defaultRetryPolicy number))
  match computeNextAttemptAt defaultRetryPolicy number draw now floor with
  | .invalid => do
    let e ← perform (.throwException "Invalid time value")
    nomatch e
  | .at nextAttemptAt => do
    let _ ← perform (.transitionAndRecord notification {
      nextStatus := .RETRYING
      eventType := "notification.retry_scheduled"
      attemptNumber
      failure
      changes := retryChanges failure nextAttemptAt
      payload := retryPayload nextAttemptAt
      enqueueAt := some nextAttemptAt
      input
      now })
    return { outcome := .retry_scheduled, detail := some (.failure failure.code) }

def fail (notification : NotificationRecord) (failure : ProviderFailure) (input : DispatchInput)
    (attemptNumber : Option Nat := none) : Program DispatchResult := do
  let now ← perform .clockNow
  let _ ← perform (.transitionAndRecord notification {
    nextStatus := .FAILED
    eventType := "notification.failed"
    attemptNumber
    failure
    changes := failChanges failure now
    payload := { recipient := some (maskPhoneNumberForLog notification.recipientPhoneNumber) }
    enqueueAt := none
    input
    now })
  return { outcome := .failed, detail := some (.failure failure.code) }

/-- Returns a notification to the queue without charging it an attempt. The job is inserted
whether or not the update changed the row. -/
def deferQuietly (notification : NotificationRecord) (dueAt : Date) (input : DispatchInput)
    (detail : DispatchDetail) : Program DispatchResult := do
  let now ← perform .clockNow
  let transitioned ← perform (.deferTransition { notification, dueAt, input, now })
  if transitioned then return { outcome := .deferred, detail := some detail }
  else
    let _ ← perform (.enqueueDispatch (input.nextAttempt notification dueAt))
    return { outcome := .deferred, detail := some detail }

def connectionUnavailable (session : WhatsAppSessionRecord) : ProviderFailure :=
  createProviderFailure .connection_unavailable
    s!"The WhatsApp connection could not send for more than {configuration.maximumConnectionWaitMinutes} minutes (it is {session.status.text}), so the message was not sent late."

def sessionNotReady (session : WhatsAppSessionRecord) : ProviderFailure :=
  createProviderFailure .session_not_ready
    s!"The WhatsApp connection is {session.status.text} and cannot send."

/-- Holds a notification whose connection cannot send, for a limited time. -/
def waitForConnection (notification : NotificationRecord) (session : WhatsAppSessionRecord)
    (input : DispatchInput) : Program DispatchResult := do
  let elapsed ← millisecondsSinceDue notification
  if elapsed > configuration.maximumConnectionWaitMinutes * 60000 then
    fail notification (connectionUnavailable configuration session) input
  else if notification.failureCode ≠ some (sessionNotReady session).code then
    retry notification (sessionNotReady session) input sessionNotReadyMinimumDelaySeconds
  else
    let now ← perform .clockNow
    deferQuietly notification (now + sessionNotReadyMinimumDelaySeconds * 1000) input
      (.failure (sessionNotReady session).code)

def connectionRestricted (pausedUntil : Date) : ProviderFailure :=
  createProviderFailure .connection_restricted
    s!"WhatsApp is restricting this number from messaging new contacts until {Iso8601.format pausedUntil}, longer than a notification may wait ({configuration.maximumConnectionWaitMinutes} minutes), so it was not sent."

def connectionPaused (pausedUntil : Date) : ProviderFailure :=
  createProviderFailure .connection_paused
    s!"WhatsApp is restricting this number from messaging new contacts until {Iso8601.format pausedUntil}. The notification will be sent once it lifts."

/-- Holds a notification while WhatsApp keeps the connection in a reachout timelock. -/
def waitForPause (notification : NotificationRecord) (pausedUntil : Date)
    (input : DispatchInput) : Program DispatchResult := do
  if pausedUntil > eligibleSince notification +
      configuration.maximumConnectionWaitMinutes * 60000 then
    fail notification (connectionRestricted configuration pausedUntil) input
  else
    let draw ← perform (.integerBetween 0 PAUSE_RESUMPTION_SPREAD_SECONDS)
    let resumeAt := pausedUntil + draw * 1000
    if notification.failureCode ≠ some (connectionPaused pausedUntil).code then
      let now ← perform .clockNow
      retry notification (connectionPaused pausedUntil) input
        (max (⌈((resumeAt - now : Int) : ℚ) / 1000⌉ : ℚ) 0)
    else
      deferQuietly notification resumeAt input (.failure (connectionPaused pausedUntil).code)

/-! ## Preparing the send -/

inductive RecipientResult where
  | chatIdentifier (value : String)
  | result (value : DispatchResult)

/-- Finds the identifier to send to. -/
def resolveRecipient (notification : NotificationRecord) (session : WhatsAppSessionRecord)
    (input : DispatchInput) : Program RecipientResult :=
  match notification.recipientChatIdentifier with
  | some chatIdentifier => return .chatIdentifier chatIdentifier
  | none => do
    let resolved ← perform
      (.resolveRecipient session.providerSessionName notification.recipientPhoneNumber)
    match resolved with
    | .failed failure =>
      if isSessionLostByProvider failure then
        let refreshed ← refreshStatus configuration session
        let result ← waitForConnection configuration notification refreshed input
        return .result result
      else if isRetryable failure then
        let result ← retry notification failure input sessionNotReadyMinimumDelaySeconds
        return .result result
      else
        let result ← fail notification failure input
        return .result result
    | .succeeded value =>
      match value.isRegistered, value.chatIdentifier with
      | true, some chatIdentifier => return .chatIdentifier chatIdentifier
      | _, _ =>
        let result ← fail notification (createProviderFailure .recipient_not_on_whatsapp
          "That number is not registered on WhatsApp.") input
        return .result result

/-- Shows "typing…", when that is configured. -/
def showTyping (notification : NotificationRecord) (session : WhatsAppSessionRecord)
    (chatIdentifier : String) : Program Unit :=
  if configuration.simulateTyping then do
    let characterCount := utf16Length notification.renderedBody
    let draw ← perform (.integerBetween 0 (typingSpread characterCount * 2))
    perform (.showTyping session.providerSessionName chatIdentifier
      (computeTypingMilliseconds characterCount draw))
  else return ()

def beginAttempt (notification : NotificationRecord) (claimToken : Uuid)
    (recipientChatIdentifier : String) : Program (Option Nat) := do
  let now ← perform .clockNow
  perform (.beginAttempt {
    applicationId := notification.applicationId
    notificationId := notification.id
    claimToken
    recipientChatIdentifier
    now })

/-! ## After the provider answered -/

def resolveAttempt (notification : NotificationRecord) (attemptNumber : Nat)
    (outcome : SendAttemptOutcome) (failureCode : ProviderFailureCode) : Program Unit := do
  let now ← perform .clockNow
  perform (.resolveAttempt {
    applicationId := notification.applicationId
    notificationId := notification.id
    attemptNumber
    outcome
    providerMessageId := none
    failureCode := some failureCode
    now })

def interruptedBeforeAnswer : ProviderFailure :=
  createProviderFailure .provider_outcome_unknown
    "A previous attempt was interrupted before WhatsApp answered."

/-- Decides what to do about a send whose outcome cannot be determined. -/
def resolveUnknownOutcome (notification : NotificationRecord) (attemptNumber : Nat)
    (policy : UnknownOutcomePolicy) (input : DispatchInput)
    (failure : Option ProviderFailure := none) : Program DispatchResult := do
  let cause := failure.getD interruptedBeforeAnswer
  resolveAttempt notification attemptNumber .UNKNOWN cause.code
  if policy = .FAIL_CLOSED then
    fail notification (createProviderFailure .unknown_outcome_fail_closed
      s!"The outcome of attempt {attemptNumber} is unknown, and this application is configured to stop rather than risk sending the same message twice. Cause: {cause.message}")
      input (some attemptNumber)
  else if attemptNumber ≥ notification.maximumAttempts then
    fail notification (createProviderFailure .maximum_attempts_exhausted
      s!"Delivery was attempted {attemptNumber} times and the last outcome could not be determined.")
      input (some attemptNumber)
  else
    retry notification (createProviderFailure .provider_outcome_unknown cause.message) input 0
      (some attemptNumber)

/-- Whether WhatsApp refused a message for the account's reach. -/
def isReachRefusal (failure : ProviderFailure) : Bool :=
  failure.code = .connection_restricted ∨ failure.code = .new_chat_quota_exceeded

def recordRefusalOf (session : WhatsAppSessionRecord) (failure : ProviderFailure) :
    Program Unit :=
  if isReachRefusal failure then recordRefusal configuration session failure.code
  else return ()

def handleSendFailure (notification : NotificationRecord) (session : WhatsAppSessionRecord)
    (attemptNumber : Nat) (failure : ProviderFailure) (input : DispatchInput) :
    Program DispatchResult := do
  if hasUnknownOutcome failure then
    let policy ← readUnknownOutcomePolicy notification.applicationId
    resolveUnknownOutcome notification attemptNumber policy input (some failure)
  else
    resolveAttempt notification attemptNumber .FAILED failure.code
    recordRefusalOf configuration session failure
    if isSessionLostByProvider failure then
      let refreshed ← refreshStatus configuration session
      waitForConnection configuration notification refreshed input
    else if isRetryable failure = false then
      fail notification failure input (some attemptNumber)
    else if attemptNumber ≥ notification.maximumAttempts then
      fail notification (createProviderFailure .maximum_attempts_exhausted
        s!"Delivery was attempted {attemptNumber} times without success. The last error was: {failure.message}")
        input (some attemptNumber)
    else if failure.code = .session_not_ready then
      let _ ← refreshStatus configuration session
      retry notification failure input sessionNotReadyMinimumDelaySeconds (some attemptNumber)
    else
      retry notification failure input 0 (some attemptNumber)

/-- Records a send WhatsApp accepted. -/
def recordSuccess (notification : NotificationRecord) (attemptNumber : Nat)
    (sent : SentMessage) (chatIdentifier : String) (input : DispatchInput) :
    Program DispatchResult := do
  let now ← perform .clockNow
  let resolvedAt ← perform .clockNow
  let wasRecorded ← perform (.recordSent {
    notification
    attemptNumber
    providerMessageId := sent.providerMessageId
    chatIdentifier
    correlationId := input.correlationId
    now
    resolvedAt })
  if wasRecorded then return { outcome := .sent }
  else return { outcome := .not_claimable }

def maximumAttemptsExhausted (notification : NotificationRecord) : ProviderFailure :=
  createProviderFailure .maximum_attempts_exhausted
    s!"Delivery was attempted {notification.maximumAttempts} times without success."

/-- The send itself: the request, and what becomes of its answer. -/
def send (notification : NotificationRecord) (session : WhatsAppSessionRecord)
    (attemptNumber : Nat) (chatIdentifier : String) (input : DispatchInput) :
    Program DispatchResult := do
  perform (.sendTextMessage session.providerSessionName chatIdentifier notification.renderedBody)
  let result ← perform .sendTextMessageAnswer
  match result with
  | .failed failure =>
    handleSendFailure configuration notification session attemptNumber failure input
  | .succeeded sent => recordSuccess notification attemptNumber sent chatIdentifier input

/-- Sends the message. The attempt is consumed and committed before the provider is contacted. -/
def deliver (notification : NotificationRecord) (session : WhatsAppSessionRecord)
    (claimToken : Uuid) (input : DispatchInput) : Program DispatchResult := do
  let recipient ← resolveRecipient configuration notification session input
  match recipient with
  | .result result => return result
  | .chatIdentifier chatIdentifier =>
    showTyping configuration notification session chatIdentifier
    let aborted ← perform .isAborted
    if aborted then
      let now ← perform .clockNow
      deferQuietly notification now input .worker_stopping
    else
      let attempt ← beginAttempt notification claimToken chatIdentifier
      match attempt with
      | none => return { outcome := .not_claimable }
      | some attemptNumber =>
        if attemptNumber > notification.maximumAttempts then
          fail notification (maximumAttemptsExhausted notification) input (some attemptNumber)
        else
          send configuration notification session attemptNumber chatIdentifier input

/-! ## `dispatch` -/

def deliveryWindowExpired : ProviderFailure :=
  createProviderFailure .delivery_window_expired
    s!"The notification waited longer than the {configuration.maximumLifetimeHours} hour delivery window without being sent."

def sessionMissing : ProviderFailure :=
  createProviderFailure .session_missing
    "The WhatsApp connection this notification was queued against no longer exists."

/-- Whether `dispatch` finds the connection paused; the clock is read only if there is a pause. -/
def readIsPaused (ready : WhatsAppSessionRecord) : Program (Option Date) :=
  match ready.sendingPausedUntil with
  | none => return none
  | some pausedUntil => do
    let now ← perform .clockNow
    return if isSendingPaused (some pausedUntil) now then some pausedUntil else none

/-- From the connection on: pacing and the pause, then the send. -/
def deliverThrough (claimed : NotificationRecord) (session : WhatsAppSessionRecord)
    (claimToken : Uuid) (input : DispatchInput) : Program DispatchResult := do
  if canSessionSend session.status then
    let ready ← prepareToSend configuration session
    let paused ← readIsPaused ready
    match paused with
    | some pausedUntil => waitForPause configuration claimed pausedUntil input
    | none =>
      let now ← perform .clockNow
      let slot ← reserveSendSlot ready.id now
      if slot.1 then deliver configuration claimed ready claimToken input
      else deferQuietly claimed slot.2 input .send_pacing
  else waitForConnection configuration claimed session input

/-- What `dispatch` does once the claim is taken. -/
def dispatchClaimed (claimed : NotificationRecord) (claimToken : Uuid) (input : DispatchInput) :
    Program DispatchResult := do
  let outlived ← hasOutlivedDeliveryWindow configuration claimed
  if outlived then fail claimed (deliveryWindowExpired configuration) input
  else
    let unresolved ← perform (.findUnresolved claimed.applicationId claimed.id)
    match unresolved with
    | some attempt =>
      let policy ← readUnknownOutcomePolicy claimed.applicationId
      resolveUnknownOutcome claimed attempt.attemptNumber policy input
    | none =>
      let session ← perform
        (.findSessionById claimed.applicationId claimed.whatsAppSessionId)
      match session with
      | none => fail claimed sessionMissing input
      | some session => deliverThrough configuration claimed session claimToken input

/-- Delivers one notification. -/
def dispatch (input : DispatchInput) : Program DispatchResult := do
  let claimToken ← perform .randomUuid
  let claim ← claim input claimToken
  match claim with
  | .not_claimable => return { outcome := .not_claimable }
  | .not_due dueAt reason =>
    reschedule input dueAt
    return { outcome := .deferred, detail := some reason }
  | .claimed claimed => dispatchClaimed configuration claimed claimToken input

end DispatchNotificationService

end NotificationPlatform
