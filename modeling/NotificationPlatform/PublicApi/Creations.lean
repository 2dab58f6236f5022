import NotificationPlatform.Interleaving.RelyGuarantee
import NotificationPlatform.PublicApi.CreateNotification
import NotificationPlatform.PublicApi.Effect

/-!
# Requests that create notifications, side by side

The requests in one system, each statement a step, with the abort of any transaction at any point.
What the other services do to the rows is an event: they have their own tables to write, and none of
them has a statement on `idempotency_keys`. `deleteExpired` has one, and no service calls it.
-/

namespace NotificationPlatform

namespace PublicApi

open Interleaving Relational Transactional CreateNotificationService

/-! ## The machine -/

inductive CreationRequest where
  | create (correlationId : Option CorrelationId) (input : CreateNotificationInput)
  | createBatch (correlationId : Option CorrelationId) (input : CreateNotificationBatchInput)

inductive CreationResult where
  | created (result : Except RequestError CreateNotificationResult)
  | createdBatch (result : Except RequestError CreateNotificationBatchResult)

namespace CreationRequest

def input : CreationRequest → NotificationRequest
  | create _ input => input.toNotificationRequest
  | createBatch _ input => input.toNotificationRequest

def addressing : CreationRequest → Addressing
  | create _ input => .recipient input.recipient
  | createBatch _ input => .recipients input.recipients

def fingerprint (environment : Environment) (request : CreationRequest) : Buffer :=
  fingerprintRequest environment request.input request.addressing

def program (environment : Environment) : CreationRequest → Prog operations CreationResult
  | create correlationId input =>
    CreationResult.created <$> (CreateNotificationService.create environment correlationId input).run
  | createBatch correlationId input =>
    CreationResult.createdBatch <$>
      (CreateNotificationService.createBatch environment correlationId input).run

end CreationRequest

/-- What was created or replayed, and which of the two. -/
def CreationResult.answer : CreationResult → Except RequestError (List NotificationRecord × Bool)
  | created result => result.map fun r => ([r.notification], r.wasReplayed)
  | createdBatch result => result.map fun r => (r.notifications, r.wasReplayed)

/-- What another service does: no version of a key changes, and no scope of a transaction. -/
structure Elsewhere where
  change : Database → Database
  keys : ∀ db holder k, Row.idempotencyKey k ∈ ((change db).store.of holder).rows ↔
    Row.idempotencyKey k ∈ (db.store.of holder).rows
  next : ∀ db, db.store.next ≤ (change db).store.next
  scope : ∀ db, ∀ t < db.store.next, (change db).scope t = db.scope t

/-- What happens besides the requests: the database's clock moves on, a transaction that cannot go
on is rolled back, another service (maintenance is one) does something. -/
inductive CreationEvent where
  | clock (now : Timestamptz)
  | aborted (transaction : Nat)
  | elsewhere (service : Elsewhere)

def creationsOutside (db : Database) : CreationEvent → Option Database
  | .clock now => if db.now ≤ now then some { db with now } else none
  | .aborted t => (rollbackTransaction t db).map (·.2)
  | .elsewhere service => some (service.change db)

/-- The requests of all processes. -/
@[reducible] def creations (policies : Bool) (environment : Environment) : Machine operations where
  World := Database
  Choice := Choice
  Request := CreationRequest
  Result := CreationResult
  Event := CreationEvent
  exec := exec policies
  program := CreationRequest.program environment
  outside := creationsOutside

end PublicApi

end NotificationPlatform
