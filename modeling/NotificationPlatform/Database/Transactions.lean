import NotificationPlatform.Database.Repository

/-!
# The transactions of the services

Each definition is the body of one `database.transaction(..)` of `packages/composition/src`, under
the name of the method it belongs to.

A transaction is one atomic step. All of them that write a notification begin with a conditional
update of its row: once that update has changed the row, the row is locked until the commit, so
nobody can write it in between, and everything after it in the transaction is an insert or an
update of rows only this transaction names. When the update changes nothing it locks nothing. Most
transactions end there. The two that go on writing (`deferQuietly` and `recordAcknowledgement`) are
split in the services into the update, with what commits along with it, and the insert that follows
an update of zero rows, because other commits can fall between the two.
-/

namespace NotificationPlatform

structure DispatchInput where
  applicationId : Uuid
  notificationId : Uuid
  correlationId : String
deriving DecidableEq

/-! ## `DispatchNotificationService` -/

/-- The job `enqueueNextAttempt` inserts. -/
def DispatchInput.nextAttempt (input : DispatchInput) (notification : NotificationRecord)
    (startAfter : Date) : DispatchJob where
  correlationId := input.correlationId
  notificationId := notification.id
  applicationId := notification.applicationId
  startAfter := some startAfter

/-- Consumes an attempt and records it in the ledger. -/
def beginAttemptTransaction (input : BeginAttemptInput) : Sql (Option Nat) := do
  let attemptNumber ← NotificationRepository.beginAttempt input
  match attemptNumber with
  | none => return none
  | some n =>
    NotificationSendAttemptRepository.begin {
      applicationId := input.applicationId
      notificationId := input.notificationId
      attemptNumber := n
      requestStartedAt := input.now }
    return some n

structure RecordSentInput where
  notification : NotificationRecord
  attemptNumber : Nat
  providerMessageId : String
  chatIdentifier : String
  correlationId : String
  now : Date
  /-- When the ledger row is said to have finished. -/
  resolvedAt : Date

def RecordSentInput.transition (input : RecordSentInput) : TransitionInput where
  applicationId := input.notification.applicationId
  notificationId := input.notification.id
  expectedStatus := .PROCESSING
  nextStatus := .SENT
  changes := {
    providerMessageId := some (some input.providerMessageId)
    recipientChatIdentifier := some (some input.chatIdentifier)
    sentAt := some (some input.now)
    claimToken := some none
    claimedAt := some none
    nextAttemptAt := some none }
  now := input.now

def RecordSentInput.resolution (input : RecordSentInput) : ResolveSendAttemptInput where
  applicationId := input.notification.applicationId
  notificationId := input.notification.id
  attemptNumber := input.attemptNumber
  outcome := .SUCCEEDED
  providerMessageId := some input.providerMessageId
  failureCode := none
  now := input.resolvedAt

/-- The success transaction of `deliver`: the row, the ledger and the timeline commit together. -/
def recordSent (input : RecordSentInput) : Sql Bool := do
  let transitioned ← NotificationRepository.applyTransition input.transition
  match transitioned with
  | none => return false
  | some _ =>
    NotificationSendAttemptRepository.resolve input.resolution
    NotificationRepository.appendEvent {
      applicationId := input.notification.applicationId
      notificationId := input.notification.id
      eventType := "notification.sent"
      fromStatus := some .PROCESSING
      toStatus := some .SENT
      attemptNumber := some input.attemptNumber
      payload := { providerMessageId := some input.providerMessageId }
      correlationId := some input.correlationId }
    return true

structure DeferInput where
  notification : NotificationRecord
  dueAt : Date
  input : DispatchInput
  now : Date

def DeferInput.transition (input : DeferInput) : TransitionInput where
  applicationId := input.notification.applicationId
  notificationId := input.notification.id
  expectedStatus := .PROCESSING
  nextStatus := .RETRYING
  changes := { nextAttemptAt := some (some input.dueAt), claimToken := some none,
               claimedAt := some none }
  now := input.now

/-- The update of `deferQuietly`, and the job that commits with it. -/
def deferTransition (input : DeferInput) : Sql Bool := do
  let transitioned ← NotificationRepository.applyTransition input.transition
  match transitioned with
  | none => return false
  | some _ =>
    let _ ← enqueueDispatch (input.input.nextAttempt input.notification input.dueAt)
    return true

structure TransitionStep where
  nextStatus : NotificationStatus
  eventType : String
  attemptNumber : Option Nat
  failure : ProviderFailure
  changes : NotificationTransitionChanges
  payload : EventPayload
  enqueueAt : Option Date
  input : DispatchInput
  now : Date

def TransitionStep.transition (step : TransitionStep) (notification : NotificationRecord) :
    TransitionInput where
  applicationId := notification.applicationId
  notificationId := notification.id
  expectedStatus := .PROCESSING
  nextStatus := step.nextStatus
  changes := step.changes
  now := step.now

/-- Queues the next attempt, if the step has one. -/
def TransitionStep.enqueue (step : TransitionStep) (notification : NotificationRecord) :
    Sql Unit :=
  match step.enqueueAt with
  | none => return ()
  | some startAfter => do
    let _ ← enqueueDispatch (step.input.nextAttempt notification startAfter)

/-- Zero rows means the row is no longer `PROCESSING`: nothing is written, and no job queued. -/
def transitionAndRecord (notification : NotificationRecord) (step : TransitionStep) :
    Sql Bool := do
  let transitioned ← NotificationRepository.applyTransition (step.transition notification)
  match transitioned with
  | none => return false
  | some _ =>
    NotificationRepository.appendEvent {
      applicationId := notification.applicationId
      notificationId := notification.id
      eventType := step.eventType
      fromStatus := some .PROCESSING
      toStatus := some step.nextStatus
      attemptNumber := step.attemptNumber
      payload := { step.payload with
        failureCode := some step.failure.code
        failureClassification := some step.failure.classification
        providerStatusCode := step.failure.providerStatusCode }
      correlationId := some step.input.correlationId }
    step.enqueue notification
    return true

/-! ## `NotificationMaintenanceService` -/

/-- The job `enqueueDispatch` inserts for a notification. -/
def NotificationRecord.job (notification : NotificationRecord) (startAfter : Date) :
    DispatchJob where
  correlationId := notification.correlationId.getD (toString notification.id)
  notificationId := notification.id
  applicationId := notification.applicationId
  startAfter := some startAfter

/-- The update of `releaseClaim`. -/
def NotificationRecord.release (notification : NotificationRecord) (now : Date) :
    TransitionInput where
  applicationId := notification.applicationId
  notificationId := notification.id
  expectedStatus := .PROCESSING
  nextStatus := .RETRYING
  changes := { nextAttemptAt := some (some now), claimToken := some none, claimedAt := some none }
  now := now

/-- Returns an abandoned claim to the queue. -/
def releaseClaim (notification : NotificationRecord) (now : Date) : Sql Bool := do
  let released ← NotificationRepository.applyTransition (notification.release now)
  match released with
  | none => return false
  | some _ =>
    NotificationRepository.appendEvent {
      applicationId := notification.applicationId
      notificationId := notification.id
      eventType := "notification.claim_reaped"
      fromStatus := some .PROCESSING
      toStatus := some .RETRYING
      attemptNumber := some notification.attemptCount
      payload := { claimedAt := some notification.claimedAt }
      correlationId := notification.correlationId }
    let _ ← enqueueDispatch (notification.job now)
    return true

/-! ## `NotificationQueryService` -/

structure CancelInput where
  applicationId : Uuid
  notificationId : Uuid
  expectedStatus : NotificationStatus
  correlationId : Option String
  now : Date

def CancelInput.transition (input : CancelInput) : TransitionInput where
  applicationId := input.applicationId
  notificationId := input.notificationId
  expectedStatus := input.expectedStatus
  nextStatus := .CANCELLED
  changes := { cancelledAt := some (some input.now) }
  now := input.now

/-- The conditional update of `cancel`, with its timeline entry. -/
def cancelTransition (input : CancelInput) : Sql (Option NotificationRecord) := do
  let cancelled ← NotificationRepository.applyTransition input.transition
  match cancelled with
  | none => return none
  | some row =>
    NotificationRepository.appendEvent {
      applicationId := input.applicationId
      notificationId := input.notificationId
      eventType := "notification.cancelled"
      fromStatus := some input.expectedStatus
      toStatus := some .CANCELLED
      attemptNumber := none
      payload := {}
      correlationId := input.correlationId }
    return some row

structure CancelWaitingInput where
  applicationId : Uuid
  whatsAppSessionId : Option Uuid
  correlationId : Option String
  now : Date

/-- The bulk update of `cancelWaiting`, with one timeline entry for each row it changed. -/
def cancelWaitingTransition (input : CancelWaitingInput) (locked : List Uuid) :
    Sql (List (Uuid × NotificationStatus)) := do
  let cancelled ← NotificationRepository.cancelWaiting input.applicationId
    input.whatsAppSessionId input.now locked
  NotificationRepository.appendEvents <| cancelled.map fun row => {
    applicationId := input.applicationId
    notificationId := row.1
    eventType := "notification.cancelled"
    fromStatus := some row.2
    toStatus := some .CANCELLED
    attemptNumber := none
    payload := {}
    correlationId := input.correlationId }
  return cancelled

/-! ## `ProcessWebhookService` -/

structure AcknowledgementInput where
  notification : NotificationRecord
  nextStatus : NotificationStatus
  changes : NotificationTransitionChanges
  received : DeliveryAcknowledgement
  merged : DeliveryAcknowledgement
  now : Date

/-- The timeline entry of `recordAcknowledgement`. -/
def AcknowledgementInput.event (input : AcknowledgementInput) : NotificationEventInput where
  applicationId := input.notification.applicationId
  notificationId := input.notification.id
  eventType := "notification.acknowledged"
  fromStatus := some input.notification.status
  toStatus := some input.nextStatus
  attemptNumber := some input.notification.attemptCount
  payload := {
    acknowledgement := some (describeAcknowledgement input.received)
    highestAcknowledgement := some (describeAcknowledgement input.merged) }
  correlationId := input.notification.correlationId

def AcknowledgementInput.transition (input : AcknowledgementInput) : TransitionInput where
  applicationId := input.notification.applicationId
  notificationId := input.notification.id
  expectedStatus := input.notification.status
  nextStatus := input.nextStatus
  changes := input.changes
  now := input.now

/-- The update of `recordAcknowledgement`, and the entry that commits with it. -/
def acknowledgementTransition (input : AcknowledgementInput) : Sql Bool := do
  let transitioned ← NotificationRepository.applyTransition input.transition
  match transitioned with
  | none => return false
  | some _ =>
    NotificationRepository.appendEvent input.event
    return true

/-! ## `CreateNotificationService` -/

structure NotificationDraft where
  id : Uuid
  applicationId : Uuid
  sessionId : Uuid
  recipient : String
  body : String
  scheduledAt : Option Date
  maximumAttempts : Option Nat
  idempotencyKeyId : Option Uuid
  correlationId : String
  metadata : List (String × String)

def NotificationDraft.status (draft : NotificationDraft) : NotificationStatus :=
  if draft.scheduledAt.isSome then .SCHEDULED else .QUEUED

/-- The row `writeNotification` inserts; columns it does not name take their defaults. -/
def NotificationDraft.row (draft : NotificationDraft) (now : Timestamptz) :
    NotificationRecord where
  id := draft.id
  applicationId := draft.applicationId
  whatsAppSessionId := draft.sessionId
  templateId := none
  status := draft.status
  recipientPhoneNumber := draft.recipient
  recipientChatIdentifier := none
  renderedBody := draft.body
  templateVariables := none
  priority := 0
  scheduledAt := draft.scheduledAt
  attemptCount := 0
  maximumAttempts := draft.maximumAttempts.getD 5
  nextAttemptAt := none
  claimToken := none
  claimedAt := none
  providerMessageId := none
  providerAcknowledgement := 0
  sentAt := none
  deliveredAt := none
  readAt := none
  failedAt := none
  cancelledAt := none
  deadLetteredAt := none
  failureCode := none
  failureReason := none
  failureClassification := none
  retryOfNotificationId := none
  idempotencyKeyId := draft.idempotencyKeyId
  correlationId := some draft.correlationId
  metadata := draft.metadata
  createdAt := now
  updatedAt := toDate now

/-- Writes one notification, its first timeline entry and its dispatch job. -/
def writeNotification (draft : NotificationDraft) : Sql Unit := do
  let w ← get
  NotificationRepository.insert (draft.row w.now)
  NotificationRepository.appendEvent {
    applicationId := draft.applicationId
    notificationId := draft.id
    eventType := "notification.created"
    fromStatus := none
    toStatus := some draft.status
    attemptNumber := none
    payload := { recipient := some (maskPhoneNumberForLog draft.recipient),
                 scheduled := some draft.scheduledAt.isSome }
    correlationId := some draft.correlationId }
  let _ ← enqueueDispatch {
    correlationId := draft.correlationId
    notificationId := draft.id
    applicationId := draft.applicationId
    startAfter := draft.scheduledAt }

end NotificationPlatform
