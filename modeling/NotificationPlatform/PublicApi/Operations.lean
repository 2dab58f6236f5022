import NotificationPlatform.Interleaving.Raising
import NotificationPlatform.Interleaving.System
import NotificationPlatform.PublicApi.Statements

/-!
# The operations of the public API

Every statement, every beginning and end of a transaction, every read of the clock and every
generated identifier is one operation. A transaction is a program over its handle: it commits what
it returns, and rolls back before it throws.
-/

namespace NotificationPlatform

namespace PublicApi

open Interleaving NotificationPlatform.PublicApi.WebhookDeliveryRepository
  NotificationPlatform.PublicApi.NotificationRepository

inductive Op where
  | clockNow
  | generate
  | findSessionByIdWithoutTenantScope (sessionId : Uuid)
  -- `BEGIN`, with `SET LOCAL ROLE` and `set_config` where the transaction is scoped
  | begin (applicationId : Option Uuid)
  | commit (transaction : Nat)
  | rollback (transaction : Nat)
  -- `WhatsAppSessionRepository`
  | listForApplication (transaction : Nat) (applicationId : Uuid)
  | findSessionById (transaction : Nat) (applicationId sessionId : Uuid)
  -- `WebhookDeliveryRepository`
  | recordDelivery (transaction : Nat) (input : RecordWebhookDeliveryInput)
  -- the queue
  | enqueueWebhookProcess (transaction : Nat) (job : WebhookJob)
  | enqueueDispatch (transaction : Nat) (job : DispatchJob)
  -- `IdempotencyKeyRepository`
  | insertClaim (transaction : Nat) (input : IdempotencyClaimInput)
  | findByKey (transaction : Nat) (applicationId : Uuid) (key : Utf16.Text)
  | complete (transaction : Nat) (input : CompleteInput)
  -- `NotificationRepository`
  | insertNotification (transaction : Nat) (input : InsertNotificationInput)
  | appendEvents (transaction : Nat) (inputs : List NotificationEventInput)
  | findNotificationById (transaction : Nat) (applicationId notificationId : Uuid)
  | listEvents (transaction : Nat) (applicationId notificationId : Uuid)
  | listNotifications (transaction : Nat) (applicationId : Uuid)
      (filters : NotificationListFilters) (cursor : Option Cursor) (limit : Nat)
  | applyTransition (transaction : Nat) (input : CancelInput)
  | cancelWaiting (transaction : Nat) (input : CancelWaitingInput)

@[reducible] def Op.Ret : Op → Type
  | .clockNow => Date
  | .generate => Uuid
  | .findSessionByIdWithoutTenantScope _ => Option StoredSessionRecord
  | .begin _ => Nat
  | .commit _ => Unit
  | .rollback _ => Unit
  | .listForApplication _ _ => List StoredSessionRecord
  | .findSessionById _ _ _ => Option StoredSessionRecord
  | .recordDelivery _ _ => Option WebhookDeliveryRecord
  | .enqueueWebhookProcess _ _ => Unit
  | .enqueueDispatch _ _ => Unit
  | .insertClaim _ _ => Option (Uuid × Uuid)
  | .findByKey _ _ _ => Option IdempotencyRecord
  | .complete _ _ => Unit
  | .insertNotification _ _ => Unit
  | .appendEvents _ _ => Unit
  | .findNotificationById _ _ _ => Option NotificationRecord
  | .listEvents _ _ _ => List NotificationEventRecord
  | .listNotifications _ _ _ _ _ => NotificationPage
  | .applyTransition _ _ => Option NotificationRecord
  | .cancelWaiting _ _ => List (Uuid × NotificationStatus)

/-- What the surroundings choose: the time the process reads, and which rows are locked. -/
inductive Choice where
  | nothing
  | date (now : Date)
  | locked (ids : List Uuid)

abbrev operations : Interface := ⟨Op, Op.Ret⟩

/-- Opens a transaction, as the tenant role when it is scoped to an application. -/
def beginTransaction (applicationId : Option Uuid) : Statement Nat := fun db =>
  some (db.store.start.1, { db with
    store := db.store.start.2
    scope := Function.update db.scope db.store.start.1 applicationId
    startedAt := Function.update db.startedAt db.store.start.1 db.now })

def commitTransaction (transaction : Nat) : Statement Unit := fun db =>
  (db.store.commit transaction).map fun store => ((), { db with store })

def rollbackTransaction (transaction : Nat) : Statement Unit := fun db =>
  (db.store.rollback transaction).map fun store => ((), { db with store })

/-- What each operation does, given the time and the rows that are locked; `policies` says whether
row level security is in force. -/
def meaning (policies : Bool) (clock : Option Date) (locked : List Uuid) :
    (o : Op) → Statement o.Ret
  | .clockNow => match clock with
    | some now => pure now
    | none => refuse
  | .generate => generateIdentifier
  | .findSessionByIdWithoutTenantScope s =>
    WhatsAppSessionRepository.findByIdWithoutTenantScope s
  | .begin a => beginTransaction a
  | .commit t => commitTransaction t
  | .rollback t => rollbackTransaction t
  | .listForApplication t a => WhatsAppSessionRepository.listForApplication ⟨policies, t⟩ a
  | .findSessionById t a s => WhatsAppSessionRepository.findById ⟨policies, t⟩ a s
  | .recordDelivery t input => WebhookDeliveryRepository.record ⟨policies, t⟩ input
  | .enqueueWebhookProcess t job => PublicApi.enqueueWebhookProcess ⟨policies, t⟩ job
  | .enqueueDispatch t job => PublicApi.enqueueDispatch ⟨policies, t⟩ job
  | .insertClaim t input => IdempotencyKeyRepository.insertClaim ⟨policies, t⟩ input
  | .findByKey t a k => IdempotencyKeyRepository.findByKey ⟨policies, t⟩ a k
  | .complete t input => IdempotencyKeyRepository.complete ⟨policies, t⟩ input
  | .insertNotification t input => NotificationRepository.insert ⟨policies, t⟩ input
  | .appendEvents t inputs => NotificationRepository.appendEvents ⟨policies, t⟩ inputs
  | .findNotificationById t a n => NotificationRepository.findById ⟨policies, t⟩ a n
  | .listEvents t a n => NotificationRepository.listEvents ⟨policies, t⟩ a n
  | .listNotifications t a filters cursor limit =>
    NotificationRepository.list ⟨policies, t⟩ a filters cursor limit
  | .applyTransition t input => NotificationRepository.applyTransition ⟨policies, t⟩ input
  | .cancelWaiting t input => NotificationRepository.cancelWaiting ⟨policies, t⟩ input locked

def Choice.clock : Choice → Option Date
  | .date now => some now
  | _ => none

def Choice.lockedRows : Choice → List Uuid
  | .locked ids => ids
  | _ => []

/-- Runs one operation. -/
def exec (policies : Bool) (db : Database) (o : Op) (c : Choice) : Option (o.Ret × Database) :=
  meaning policies c.clock c.lockedRows o db

/-! ## Programs -/

/-- What a request throws. -/
inductive RequestError where
  | domainError (code message : String)
  | invalidPhoneNumber (value : String)
  | error (message : String)
deriving DecidableEq

/-- A request, or part of one. -/
abbrev Service := Raising operations RequestError

def perform (o : Op) : Service o.Ret := Raising.call (I := operations) o

/-- `database.transaction`, within `withTenantScope` where an application is given. -/
def transaction {α : Type} (applicationId : Option Uuid) (work : Nat → Service α) : Service α := do
  let t ← perform (.begin applicationId)
  let result ← ExceptT.lift (work t).run
  match result with
  | .ok a => do
    perform (.commit t)
    return a
  | .error e => do
    perform (.rollback t)
    throw e

def withTenantScope {α : Type} (applicationId : Uuid) (work : Nat → Service α) : Service α :=
  transaction (some applicationId) work

end PublicApi

end NotificationPlatform
