import NotificationPlatform.Relational.Table
import NotificationPlatform.Provider.Webhook

/-!
# The rows the platform stores

`packages/database/src/schema`, with the record types of `packages/database/src/repositories`. A
column filled by the database's own `now()` holds a `Timestamptz`; a column only ever written from
the process holds the `Date` it was given. `World` is what every process shares: the tables, the
dispatch jobs that are waiting, the database's clock, and how many identifiers were handed out.
-/

namespace NotificationPlatform

open Relational

/-- A UUID, as its value. -/
abbrev Uuid := Nat

structure NotificationRecord where
  id : Uuid
  applicationId : Uuid
  whatsAppSessionId : Uuid
  templateId : Option Uuid
  status : NotificationStatus
  recipientPhoneNumber : String
  recipientChatIdentifier : Option String
  renderedBody : String
  templateVariables : Option (List (String × String))
  priority : Int
  scheduledAt : Option Date
  attemptCount : Nat
  maximumAttempts : Nat
  nextAttemptAt : Option Date
  claimToken : Option Uuid
  claimedAt : Option Date
  providerMessageId : Option String
  providerAcknowledgement : Int
  sentAt : Option Date
  deliveredAt : Option Date
  readAt : Option Date
  failedAt : Option Date
  cancelledAt : Option Date
  deadLetteredAt : Option Date
  failureCode : Option ProviderFailureCode
  failureReason : Option String
  failureClassification : Option FailureClassification
  retryOfNotificationId : Option Uuid
  idempotencyKeyId : Option Uuid
  correlationId : Option String
  metadata : List (String × String)
  createdAt : Timestamptz
  updatedAt : Date
deriving DecidableEq

instance : Keyed NotificationRecord Uuid := ⟨NotificationRecord.id⟩

@[simp] theorem key_notification (r : NotificationRecord) : key r = r.id := rfl

/-- What the timeline payloads hold. Absent fields are `none`. -/
structure EventPayload where
  recipient : Option String := none
  scheduled : Option Bool := none
  nextAttemptAt : Option Date := none
  providerMessageId : Option String := none
  claimedAt : Option (Option Date) := none
  failureCode : Option ProviderFailureCode := none
  failureClassification : Option FailureClassification := none
  providerStatusCode : Option Nat := none
  acknowledgement : Option String := none
  highestAcknowledgement : Option String := none
deriving DecidableEq

/-- An entry of a notification's timeline, without the identifier the writer generates for it. -/
structure NotificationEventInput where
  applicationId : Uuid
  notificationId : Uuid
  eventType : String
  fromStatus : Option NotificationStatus
  toStatus : Option NotificationStatus
  attemptNumber : Option Nat
  payload : EventPayload
  correlationId : Option String
deriving DecidableEq

structure NotificationEventRecord extends NotificationEventInput where
  id : Uuid
  occurredAt : Timestamptz
deriving DecidableEq

inductive SendAttemptOutcome where
  | SUCCEEDED
  | FAILED
  | UNKNOWN
deriving DecidableEq, Repr

structure SendAttemptRecord where
  id : Uuid
  applicationId : Uuid
  notificationId : Uuid
  attemptNumber : Nat
  requestStartedAt : Date
  requestFinishedAt : Option Date
  outcome : Option SendAttemptOutcome
  providerMessageId : Option String
  failureCode : Option ProviderFailureCode
deriving DecidableEq

structure StoredTimelock where
  isActive : Bool
  endsAt : Option Date
  enforcementType : Option Utf16.Text
deriving DecidableEq

structure StoredQuota where
  status : Utf16.Text
  total : ℚ
  used : ℚ
  cycleEndsAt : Option Date
deriving DecidableEq

structure StoredAccountLimits where
  reachoutTimelock : Option StoredTimelock
  newChatQuota : Option StoredQuota
deriving DecidableEq

structure WhatsAppSessionRecord where
  id : Uuid
  applicationId : Uuid
  providerSessionName : String
  status : ProviderSessionStatus
  phoneNumber : Option String
  pushName : Option String
  sendPacingMinimumSeconds : Nat
  sendPacingMaximumSeconds : Nat
  nextSendAllowedAt : Timestamptz
  sendingPausedUntil : Option Date
  sendingPausedReason : Option SendingPauseReason
  accountLimits : Option StoredAccountLimits
  accountLimitsCheckedAt : Option Date
  lastStatusAt : Date
  lastError : Option String
  updatedAt : Date
deriving DecidableEq

instance : Keyed WhatsAppSessionRecord Uuid := ⟨WhatsAppSessionRecord.id⟩

@[simp] theorem key_session (r : WhatsAppSessionRecord) : key r = r.id := rfl

inductive UnknownOutcomePolicy where
  | RETRY
  | FAIL_CLOSED
deriving DecidableEq, Repr

/-- The columns of `applications` the delivery pipeline reads. -/
structure ApplicationRecord where
  id : Uuid
  unknownOutcomePolicy : UnknownOutcomePolicy
  archivedAt : Option Date
deriving DecidableEq

instance : Keyed ApplicationRecord Uuid := ⟨ApplicationRecord.id⟩

@[simp] theorem key_application (r : ApplicationRecord) : key r = r.id := rfl

inductive WebhookOutcome where
  | APPLIED
  | IGNORED
  | UNMATCHED
deriving DecidableEq, Repr

structure WebhookDeliveryRecord where
  id : Uuid
  applicationId : Uuid
  whatsAppSessionId : Uuid
  providerEventId : String
  eventType : String
  providerSessionName : String
  payload : List (String × Json.Value)
  receivedAt : Date
  processedAt : Option Date
  processingAttempts : Nat
  outcome : Option WebhookOutcome
  outcomeDetail : Option String

instance : Keyed WebhookDeliveryRecord Uuid := ⟨WebhookDeliveryRecord.id⟩

@[simp] theorem key_delivery (r : WebhookDeliveryRecord) : key r = r.id := rfl

/-- A job of the dispatch queue. Its singleton key is the notification. -/
structure DispatchJob where
  correlationId : String
  notificationId : Uuid
  applicationId : Uuid
  startAfter : Option Date
deriving DecidableEq

/-- What every process shares. -/
structure World where
  notifications : Table NotificationRecord
  notificationEvents : List NotificationEventRecord
  sendAttempts : List SendAttemptRecord
  whatsAppSessions : Table WhatsAppSessionRecord
  applications : Table ApplicationRecord
  webhookDeliveries : Table WebhookDeliveryRecord
  dispatchJobs : List DispatchJob
  now : Timestamptz
  identifiers : Nat

/-- Nothing was stored yet. -/
def World.empty : World where
  notifications := Table.empty
  notificationEvents := []
  sendAttempts := []
  whatsAppSessions := Table.empty
  applications := Table.empty
  webhookDeliveries := Table.empty
  dispatchJobs := []
  now := 0
  identifiers := 0

end NotificationPlatform
