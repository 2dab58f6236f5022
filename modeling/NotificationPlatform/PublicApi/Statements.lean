import Mathlib.Data.List.Sort
import NotificationPlatform.PublicApi.Contract
import NotificationPlatform.PublicApi.Rows

/-!
# The statements of the public API

The repositories of `packages/database/src/repositories` again, one definition for each statement,
now run on behalf of a transaction. A statement reads what its transaction sees. Under
`migrations/0007_tenant_row_level_security.sql` a transaction that is scoped to an application sees
and writes that application's rows only; the queue's tables have no policy. A statement that has to
wait, or that the database refuses, is `none`. Texts and dates reach a row through the type of their
column. Of the foreign keys only `notifications_session_fkey` is here: what the others refer to is
never deleted, or has no table here.
-/

namespace NotificationPlatform

namespace PublicApi

open Relational Transactional

open Utf16 (Text)

/-! ## Columns -/

/-- A `text` column, which rejects U+0000. The driver sends UTF-8, in which a surrogate on its own is
replaced. -/
def textColumn (s : Text) : Option String := if 0 ∈ s then none else some (Utf16.toUnicode s)

/-- A string inside a `jsonb` column, which rejects `\u0000` and the escape of a surrogate on its
own. -/
def jsonbString (s : Text) : Option String :=
  if 0 ∈ s ∨ Utf16.isWellFormed s = false then none else some (Utf16.toUnicode s)

def yearOf (d : Date) : Int := (Iso8601.ofDays (d / Iso8601.dayLength)).year

/-- A `timestamptz` column, which rejects the year 0 and the form `toISOString` has for the years
that do not have four digits. -/
def timestamptzColumn (d : Date) : Option Date :=
  if 1 ≤ yearOf d ∧ yearOf d ≤ 9999 then some d else none

/-- The entries of an object in a `jsonb` column. -/
def jsonbEntries (entries : List (Text × Text)) : Option (List (String × String)) :=
  entries.mapM fun e => do
    let name ← jsonbString e.1
    let value ← jsonbString e.2
    return (name, value)

/-- Whether a column holds a text of the provider as it is. -/
def isStorable (s : String) : Bool := Char.ofNat 0 ∉ s.toList

mutual

/-- Whether a `jsonb` column holds the value. -/
def isJsonb : Json.Value → Bool
  | .string s => isStorable s
  | .illFormed _ => false
  | .array items => itemsAreJsonb items
  | .object fields => fieldsAreJsonb fields
  | _ => true

def itemsAreJsonb : List Json.Value → Bool
  | [] => true
  | v :: rest => isJsonb v && itemsAreJsonb rest

def fieldsAreJsonb : List (String × Json.Value) → Bool
  | [] => true
  | (n, v) :: rest => isStorable n && isJsonb v && fieldsAreJsonb rest

end

/-! ## Executors -/

/-- A statement, or part of one. -/
abbrev Statement := StateT Database Option

def refuse {α : Type} : Statement α := fun _ => none

theorem Statement.bind_eq_some {α β : Type} {x : Statement α} {f : α → Statement β}
    {db db' : Database} {b : β} :
    (x >>= f) db = some (b, db') ↔ ∃ a db₁, x db = some (a, db₁) ∧ f a db₁ = some (b, db') := by
  simp only [Bind.bind, StateT.bind, Option.bind_eq_some_iff, Prod.exists]

theorem Statement.pure_eq_some {α : Type} {a b : α} {db db' : Database} :
    (pure a : Statement α) db = some (b, db') ↔ b = a ∧ db' = db := by
  change some (a, db) = some (b, db') ↔ _
  simp only [Option.some.injEq, Prod.mk.injEq, eq_comm]

/-- Never the same identifier twice, whether a process or the database generates it. -/
def generateIdentifier : Statement Uuid := fun db =>
  some (db.identifiers, { db with identifiers := db.identifiers + 1 })

/-- Whose statements these are, and whether the policies are in force. -/
structure QueryExecutor where
  policies : Bool
  transaction : Nat

namespace QueryExecutor

variable (executor : QueryExecutor)

/-- `tenant_isolation`, which reads and writes alike have to satisfy. -/
def admits (db : Database) (r : Row) : Bool :=
  !executor.policies || !r.isTenantTable ||
    (db.scope executor.transaction).all fun a => r.applicationId = some a

/-- The `now()` of the transaction. -/
def now : Statement Timestamptz := fun db => some (db.startedAt executor.transaction, db)

/-- The rows of one table that the transaction sees. -/
def select {α : Type} (table : Row → Option α) : Statement (List α) := fun db =>
  if (db.store.opened executor.transaction).isSome then
    some (((db.store.view executor.transaction).rows.filter (executor.admits db)).filterMap table,
      db)
  else none

/-- `INSERT .. ON CONFLICT DO NOTHING` on the unique index of the table: whether the row was
inserted. -/
def insert (row : Row) : Statement Bool := fun db =>
  if executor.admits db row then
    (db.store.insert executor.transaction row).map fun p => (p.1, { db with store := p.2 })
  else none

/-- `INSERT`: a conflict raises. -/
def insertOrFail (row : Row) : Statement Unit := do
  let inserted ← executor.insert row
  if inserted then return () else refuse

/-- `UPDATE .. RETURNING`: the rows as they were before. -/
def update (p : Row → Bool) (f : Row → Row) (hf : ∀ r, key (f r) = key r)
    (hi : ∀ r, index (f r) = index r) : Statement (List Row) := fun db =>
  let selected (r : Row) : Bool := executor.admits db r && p r
  if ((db.store.view executor.transaction).select selected).all fun r => executor.admits db (f r)
  then (db.store.update executor.transaction selected f hf hi).map fun p =>
    (p.1, { db with store := p.2 })
  else none

end QueryExecutor

/-! ## Connections -/

namespace WhatsAppSessionRepository

def listForApplication (executor : QueryExecutor) (applicationId : Uuid) :
    Statement (List StoredSessionRecord) := do
  let rows ← executor.select Row.session?
  return (rows.filter (·.applicationId = applicationId)).insertionSort
    fun a b => a.createdAt ≤ b.createdAt

def findById (executor : QueryExecutor) (applicationId sessionId : Uuid) :
    Statement (Option StoredSessionRecord) := do
  let rows ← executor.select Row.session?
  return rows.find? fun r => r.id = sessionId ∧ r.applicationId = applicationId

/-- Read outside any transaction, as the login role. -/
def findByIdWithoutTenantScope (sessionId : Uuid) : Statement (Option StoredSessionRecord) :=
  fun db => some ((db.store.committed.rows.filterMap Row.session?).find? (·.id = sessionId), db)

end WhatsAppSessionRepository

/-! ## The inbox and its queue -/

namespace WebhookDeliveryRepository

export NotificationPlatform.WebhookDeliveryRepository (RecordWebhookDeliveryInput)

/-- The row `record` inserts. The payload goes through `jsonb`. -/
def delivery (input : RecordWebhookDeliveryInput) : WebhookDeliveryRecord where
  id := input.id
  applicationId := input.applicationId
  whatsAppSessionId := input.whatsAppSessionId
  providerEventId := input.providerEventId
  eventType := input.eventType
  providerSessionName := input.providerSessionName
  payload := Json.storedFields input.payload
  receivedAt := input.receivedAt
  processedAt := none
  processingAttempts := 0
  outcome := none
  outcomeDetail := none

/-- Records a callback, or reports that this one has already been seen. -/
def record (executor : QueryExecutor) (input : RecordWebhookDeliveryInput) :
    Statement (Option WebhookDeliveryRecord) := do
  if isStorable input.providerEventId && isStorable input.eventType &&
      isStorable input.providerSessionName && fieldsAreJsonb input.payload then
    let inserted ← executor.insert (.webhookDelivery (delivery input))
    return if inserted then some (delivery input) else none
  else refuse

end WebhookDeliveryRepository

/-- `enqueueInTransaction` on the queue `webhook.process`, which accepts every job. -/
def enqueueWebhookProcess (executor : QueryExecutor) (job : WebhookJob) : Statement Unit := do
  let id ← generateIdentifier
  executor.insertOrFail (.webhookJob id job)

/-- `enqueueInTransaction` on the dispatch queue: a notification that has a job waiting accepts no
second one, which is not an error. -/
def enqueueDispatch (executor : QueryExecutor) (job : DispatchJob) : Statement Unit := do
  let id ← generateIdentifier
  let _ ← executor.insert (.dispatchJob id job)

/-! ## Idempotency keys -/

namespace IdempotencyKeyRepository

structure IdempotencyClaimInput where
  applicationId : Uuid
  key : Text
  requestMethod : String
  requestPath : String
  requestFingerprint : Buffer
  lockToken : Uuid
  expiresAt : Date

/-- The row a claim inserts; columns it does not name take their defaults. -/
def IdempotencyClaimInput.row (input : IdempotencyClaimInput) (key : String) (expiresAt : Date)
    (id : Uuid) (now : Timestamptz) : IdempotencyRecord where
  id := id
  applicationId := input.applicationId
  key := key
  requestMethod := input.requestMethod
  requestPath := input.requestPath
  requestFingerprint := input.requestFingerprint
  state := .IN_FLIGHT
  lockToken := input.lockToken
  responseStatus := none
  responseBody := none
  resourceId := none
  createdAt := now
  completedAt := none
  expiresAt := expiresAt

/-- `idempotency_keys_key_length_check`. -/
def satisfiesKeyLengthCheck (key : String) : Bool := 1 ≤ key.length ∧ key.length ≤ 255

/-- The insert of `claim`. -/
def insertClaim (executor : QueryExecutor) (input : IdempotencyClaimInput) :
    Statement (Option (Uuid × Uuid)) := do
  let id ← generateIdentifier
  let now ← executor.now
  match textColumn input.key, timestamptzColumn input.expiresAt with
  | some key, some expiresAt =>
    if satisfiesKeyLengthCheck key then
      let inserted ← executor.insert (.idempotencyKey (input.row key expiresAt id now))
      return if inserted then some (id, input.lockToken) else none
    else refuse
  | _, _ => refuse

/-- The read of `claim`. -/
def findByKey (executor : QueryExecutor) (applicationId : Uuid) (key : Text) :
    Statement (Option IdempotencyRecord) := do
  match textColumn key with
  | some key =>
    let rows ← executor.select Row.idempotencyKey?
    return rows.find? fun r => r.applicationId = applicationId ∧ r.key = key
  | none => refuse

structure CompleteInput where
  id : Uuid
  lockToken : Uuid
  responseStatus : Nat
  responseBody : ResponseBody
  resourceId : Option Uuid
  now : Date

/-- Whether a row is the claim a completion names. -/
def CompleteInput.concerns (input : CompleteInput) : Row → Bool
  | .idempotencyKey r => r.id = input.id ∧ r.lockToken = input.lockToken
  | _ => false

def CompleteInput.apply (input : CompleteInput) : Row → Row
  | .idempotencyKey r => .idempotencyKey { r with
      state := .COMPLETED
      responseStatus := some input.responseStatus
      responseBody := some input.responseBody
      resourceId := input.resourceId
      completedAt := some input.now }
  | r => r

theorem CompleteInput.key_apply (input : CompleteInput) (r : Row) :
    key (input.apply r) = key r := by cases r <;> rfl

theorem CompleteInput.index_apply (input : CompleteInput) (r : Row) :
    index (input.apply r) = index r := by cases r <;> rfl

def complete (executor : QueryExecutor) (input : CompleteInput) : Statement Unit := do
  match timestamptzColumn input.now with
  | some _ =>
    let _ ← executor.update input.concerns input.apply input.key_apply input.index_apply
  | none => refuse

end IdempotencyKeyRepository

export IdempotencyKeyRepository (IdempotencyClaimInput CompleteInput)

/-! ## Notifications -/

namespace NotificationRepository

export NotificationPlatform.NotificationRepository (TransitionInput)

/-- The columns `writeNotification` names. -/
structure InsertNotificationInput where
  id : Uuid
  applicationId : Uuid
  whatsAppSessionId : Uuid
  status : NotificationStatus
  recipientPhoneNumber : String
  renderedBody : Text
  scheduledAt : Option Date
  maximumAttempts : Nat
  idempotencyKeyId : Option Uuid
  correlationId : CorrelationId
  metadata : List (Text × Text)

/-- What the types of the columns make of it. -/
def InsertNotificationInput.columns (input : InsertNotificationInput) :
    Option NotificationDraft := do
  let body ← textColumn input.renderedBody
  let scheduledAt ← input.scheduledAt.mapM timestamptzColumn
  let metadata ← jsonbEntries input.metadata
  return {
    id := input.id
    applicationId := input.applicationId
    sessionId := input.whatsAppSessionId
    recipient := input.recipientPhoneNumber
    body
    scheduledAt
    maximumAttempts := some input.maximumAttempts
    idempotencyKeyId := input.idempotencyKeyId
    correlationId := input.correlationId.value
    metadata }

/-- Whether a row is the connection `notifications_session_fkey` asks for. -/
def isReferenced (row : NotificationRecord) : Row → Bool
  | .session s => s.id = row.whatsAppSessionId ∧ s.applicationId = row.applicationId
  | _ => false

def insert (executor : QueryExecutor) (input : InsertNotificationInput) : Statement Unit := do
  let now ← executor.now
  let db ← get
  match input.columns with
  | some draft =>
    let row := { draft.row now with status := input.status }
    if row.satisfiesChecks ∧ (db.store.view executor.transaction).rows.any (isReferenced row) then
      executor.insertOrFail (.notification row)
    else refuse
  | none => refuse

def appendEvent (executor : QueryExecutor) (input : NotificationEventInput) : Statement Unit := do
  let id ← generateIdentifier
  let occurredAt ← executor.now
  executor.insertOrFail (.notificationEvent { input with id, occurredAt })

/-- One statement of `appendEvents`. -/
def appendEvents (executor : QueryExecutor) : List NotificationEventInput → Statement Unit
  | [] => return ()
  | input :: inputs => do
    appendEvent executor input
    appendEvents executor inputs

def findById (executor : QueryExecutor) (applicationId notificationId : Uuid) :
    Statement (Option NotificationRecord) := do
  let rows ← executor.select Row.notification?
  return rows.find? fun r => r.id = notificationId ∧ r.applicationId = applicationId

def listEvents (executor : QueryExecutor) (applicationId notificationId : Uuid) :
    Statement (List NotificationEventRecord) := do
  let rows ← executor.select Row.notificationEvent?
  return (rows.filter fun r =>
    r.notificationId = notificationId ∧ r.applicationId = applicationId).insertionSort
      fun a b => a.occurredAt < b.occurredAt ∨ (a.occurredAt = b.occurredAt ∧ a.id ≤ b.id)

structure NotificationListFilters where
  statuses : Option (List NotificationStatus) := none
  recipientPhoneNumber : Option String := none
  templateId : Option Uuid := none
  createdBefore : Option Date := none

/-- A position in the list: what the driver reads of `created_at`, and the identifier. -/
structure Cursor where
  createdAt : Date
  id : Uuid
deriving DecidableEq

structure NotificationPage where
  items : List NotificationRecord
  nextCursor : Option Cursor

/-- The conditions that do not depend on the page. -/
def NotificationListFilters.matches (filters : NotificationListFilters) (applicationId : Uuid)
    (r : NotificationRecord) : Bool :=
  r.applicationId = applicationId ∧
    (∀ statuses ∈ filters.statuses, statuses ≠ [] → r.status ∈ statuses) ∧
    (∀ recipient ∈ filters.recipientPhoneNumber, r.recipientPhoneNumber = recipient) ∧
    (∀ template ∈ filters.templateId, r.templateId = some template) ∧
    (∀ before ∈ filters.createdBefore, r.createdAt < toTimestamptz before)

/-- Strictly after the cursor in (createdAt, id) order. -/
def Cursor.precedes (cursor : Cursor) (r : NotificationRecord) : Bool :=
  r.createdAt < toTimestamptz cursor.createdAt ∨
    (r.createdAt = toTimestamptz cursor.createdAt ∧ r.id < cursor.id)

/-- `ORDER BY created_at DESC, id DESC`. -/
def listedBefore (a b : NotificationRecord) : Prop :=
  b.createdAt < a.createdAt ∨ (b.createdAt = a.createdAt ∧ b.id ≤ a.id)

instance : DecidableRel listedBefore := fun a b => by unfold listedBefore; exact inferInstance

/-- The rows of one page, and one more that decides whether another page exists. -/
def NotificationListFilters.rows (filters : NotificationListFilters) (applicationId : Uuid)
    (cursor : Option Cursor) (limit : Nat) (notifications : List NotificationRecord) :
    List NotificationRecord :=
  ((notifications.filter fun r => filters.matches applicationId r ∧
    ∀ c ∈ cursor, c.precedes r).insertionSort listedBefore).take (limit + 1)

/-- What `list` makes of the rows it read. -/
def page (limit : Nat) (rows : List NotificationRecord) : NotificationPage where
  items := rows.take limit
  nextCursor :=
    if rows.length > limit then
      (rows.take limit).getLast?.map fun last => ⟨toDate last.createdAt, last.id⟩
    else none

def list (executor : QueryExecutor) (applicationId : Uuid) (filters : NotificationListFilters)
    (cursor : Option Cursor) (limit : Nat) : Statement NotificationPage := do
  let rows ← executor.select Row.notification?
  return page limit (filters.rows applicationId cursor limit rows)

/-- `UPDATE notifications SET .. WHERE .. RETURNING`: the rows as they were before. The status
trigger and the CHECK constraints refuse a row as a whole statement. -/
def updateWhere (executor : QueryExecutor) (p : NotificationRecord → Bool)
    (f : NotificationRecord → NotificationRecord)
    (hf : ∀ r, (f r).id = r.id ∧ (f r).whatsAppSessionId = r.whatsAppSessionId ∧
      (f r).providerMessageId = r.providerMessageId) :
    Statement (List NotificationRecord) := do
  let rows ← executor.update (fun r => r.notification?.any p)
    (fun
      | .notification r => .notification (f r)
      | r => r)
    (fun r => by cases r <;> simp [key_row, Row.primaryKey, hf])
    (fun r => by cases r <;> simp [index_row, Row.uniqueValue, hf])
  let notifications := rows.filterMap Row.notification?
  if notifications.all fun r =>
      enforceNotificationStatusTransition r.status (f r).status ∧ (f r).satisfiesChecks then
    return notifications
  else refuse

/-- The conditional update of `cancel`. -/
def applyTransition (executor : QueryExecutor) (input : CancelInput) :
    Statement (Option NotificationRecord) := do
  let rows ← updateWhere executor
    (fun r => r.id = input.notificationId ∧ r.applicationId = input.applicationId ∧
      r.status = input.expectedStatus) input.transition.apply fun _ => ⟨rfl, rfl, rfl⟩
  return rows.head?.map input.transition.apply

/-- What `cancelWaiting` makes of a row. -/
def cancelled (now : Date) (r : NotificationRecord) : NotificationRecord :=
  { r with status := .CANCELLED, cancelledAt := some now, updatedAt := now, nextAttemptAt := none }

/-- `FOR UPDATE SKIP LOCKED`: passes over the rows another transaction wrote, and over `locked`,
which are held in other ways. -/
def cancelWaiting (executor : QueryExecutor) (input : CancelWaitingInput) (locked : List Uuid) :
    Statement (List (Uuid × NotificationStatus)) := do
  let db ← get
  let rows ← updateWhere executor
    (fun r => r.applicationId = input.applicationId ∧ (r.status = .QUEUED ∨ r.status = .RETRYING) ∧
      (∀ s ∈ input.whatsAppSessionId, r.whatsAppSessionId = s) ∧ r.id ∉ locked ∧
      db.store.held executor.transaction (fun r' => key r' = RowKey.notification r.id) = false)
    (cancelled input.now) fun _ => ⟨rfl, rfl, rfl⟩
  return rows.map fun r => (r.id, r.status)

end NotificationRepository

export NotificationRepository (InsertNotificationInput)

end PublicApi

end NotificationPlatform
