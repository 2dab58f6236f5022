import NotificationPlatform.Transactional.Store
import NotificationPlatform.Database.Transactions

/-!
# The rows the public API reads and writes

The tables of `packages/database/src/schema` and of the queue that the requests of
`apps/api/src/public-api` touch, as one type of rows with their primary keys, their unique indexes
and the application each row belongs to. The requests run in transactions whose statements
interleave, so what they share is a `Store` of these rows.
-/

namespace NotificationPlatform

namespace PublicApi

open Relational Transactional

/-- The bytes of a `Buffer` or a `bytea` column. -/
abbrev Buffer := List UInt8

/-- A connection, with the columns only the API reads. -/
structure StoredSessionRecord extends WhatsAppSessionRecord where
  webhookSigningKeyCiphertext : Buffer
  createdAt : Timestamptz
deriving DecidableEq

inductive IdempotencyState where
  | IN_FLIGHT
  | COMPLETED
deriving DecidableEq, Repr

/-- What a completed key replays. Absent fields are `none`. -/
structure ResponseBody where
  id : Option Uuid := none
  notificationIds : Option (List Uuid) := none
deriving DecidableEq

structure IdempotencyRecord where
  id : Uuid
  applicationId : Uuid
  key : String
  requestMethod : String
  requestPath : String
  requestFingerprint : Buffer
  state : IdempotencyState
  lockToken : Uuid
  responseStatus : Option Nat
  responseBody : Option ResponseBody
  resourceId : Option Uuid
  createdAt : Timestamptz
  completedAt : Option Date
  expiresAt : Date
deriving DecidableEq

/-- A job of the queue `webhook.process`. -/
structure WebhookJob where
  correlationId : String
  webhookDeliveryId : Uuid
deriving DecidableEq

inductive Row where
  | session (row : StoredSessionRecord)
  | notification (row : NotificationRecord)
  | notificationEvent (row : NotificationEventRecord)
  | idempotencyKey (row : IdempotencyRecord)
  | webhookDelivery (row : WebhookDeliveryRecord)
  | dispatchJob (id : Uuid) (job : DispatchJob)
  | webhookJob (id : Uuid) (job : WebhookJob)

/-- A table and a primary key in it. -/
inductive RowKey where
  | session (id : Uuid)
  | notification (id : Uuid)
  | notificationEvent (id : Uuid)
  | idempotencyKey (id : Uuid)
  | webhookDelivery (id : Uuid)
  | dispatchJob (id : Uuid)
  | webhookJob (id : Uuid)
deriving DecidableEq

/-- A value of a unique index. -/
inductive UniqueValue where
  /-- `whatsapp_sessions_provider_name_unique`; there is one provider. -/
  | providerSessionName (providerSessionName : String)
  /-- `notifications_provider_message_id_unique`. -/
  | providerMessageId (whatsAppSessionId : Uuid) (providerMessageId : String)
  /-- `idempotency_keys_application_key_unique`. -/
  | applicationKey (applicationId : Uuid) (key : String)
  /-- `webhook_deliveries_provider_event_unique`. -/
  | providerEvent (whatsAppSessionId : Uuid) (providerEventId : String)
  /-- The policy of the dispatch queue: one job waits for each singleton key. -/
  | singletonKey (notificationId : Uuid)
deriving DecidableEq

namespace Row

def primaryKey : Row → RowKey
  | session row => .session row.id
  | notification row => .notification row.id
  | notificationEvent row => .notificationEvent row.id
  | idempotencyKey row => .idempotencyKey row.id
  | webhookDelivery row => .webhookDelivery row.id
  | dispatchJob id _ => .dispatchJob id
  | webhookJob id _ => .webhookJob id

def uniqueValue : Row → Option UniqueValue
  | session row => some (.providerSessionName row.providerSessionName)
  | notification row => row.providerMessageId.map (.providerMessageId row.whatsAppSessionId)
  | idempotencyKey row => some (.applicationKey row.applicationId row.key)
  | webhookDelivery row => some (.providerEvent row.whatsAppSessionId row.providerEventId)
  | dispatchJob _ job => some (.singletonKey job.notificationId)
  | notificationEvent _ | webhookJob _ _ => none

/-- The application a row belongs to; a job belongs to the application it names. -/
def applicationId : Row → Option Uuid
  | session row => some row.applicationId
  | notification row => some row.applicationId
  | notificationEvent row => some row.applicationId
  | idempotencyKey row => some row.applicationId
  | webhookDelivery row => some row.applicationId
  | dispatchJob _ job => some job.applicationId
  | webhookJob _ _ => none

/-- The identifier a row has in its table. -/
def id : Row → Uuid
  | session row => row.id
  | notification row => row.id
  | notificationEvent row => row.id
  | idempotencyKey row => row.id
  | webhookDelivery row => row.id
  | dispatchJob id _ => id
  | webhookJob id _ => id

/-- Two identifiers are two keys. -/
theorem primaryKey_ne {r r' : Row} (h : r.id ≠ r'.id) : r.primaryKey ≠ r'.primaryKey := by
  intro hkey
  cases r <;> cases r' <;> simp_all [primaryKey, id]

/-- The tables `tenant_isolation` is a policy on. The queue has none. -/
def isTenantTable : Row → Bool
  | dispatchJob _ _ | webhookJob _ _ => false
  | _ => true

def session? : Row → Option StoredSessionRecord
  | session row => some row
  | _ => none

def notification? : Row → Option NotificationRecord
  | notification row => some row
  | _ => none

def notificationEvent? : Row → Option NotificationEventRecord
  | notificationEvent row => some row
  | _ => none

def idempotencyKey? : Row → Option IdempotencyRecord
  | idempotencyKey row => some row
  | _ => none

theorem notification?_eq_some {r : Row} {row : NotificationRecord} :
    r.notification? = some row ↔ r = .notification row := by
  cases r <;> simp [notification?, eq_comm]

theorem idempotencyKey?_eq_some {r : Row} {row : IdempotencyRecord} :
    r.idempotencyKey? = some row ↔ r = .idempotencyKey row := by
  cases r <;> simp [idempotencyKey?, eq_comm]

theorem session?_eq_some {r : Row} {row : StoredSessionRecord} :
    r.session? = some row ↔ r = .session row := by
  cases r <;> simp [session?, eq_comm]

theorem notificationEvent?_eq_some {r : Row} {row : NotificationEventRecord} :
    r.notificationEvent? = some row ↔ r = .notificationEvent row := by
  cases r <;> simp [notificationEvent?, eq_comm]

end Row

instance : Keyed Row RowKey := ⟨Row.primaryKey⟩

instance : Indexed Row UniqueValue := ⟨Row.uniqueValue⟩

theorem key_row (r : Row) : key r = r.primaryKey := rfl

theorem index_row (r : Row) : index r = r.uniqueValue := rfl

/-- What the requests share: the rows, the database's clock, how many identifiers were handed out,
and of each transaction the application it is scoped to and when it began. -/
structure Database where
  store : Store Row
  now : Timestamptz
  identifiers : Nat
  scope : Nat → Option Uuid
  startedAt : Nat → Timestamptz

end PublicApi

end NotificationPlatform
