import NotificationPlatform.PublicApi.CreateNotification

/-!
# Deleting a connection

`delete` of `packages/composition/src/whatsapp/whatsapp-session.service.ts`, beside the requests that
create notifications. Its statements run outside any transaction, as the login role, and its provider
call is between two of them. So what the requests share is the rows and the sessions the provider
has, and a deletion is a program over operations of its own.
-/

namespace NotificationPlatform

namespace PublicApi

open Interleaving Relational Transactional CreateNotificationService

/-! ## Statements outside a transaction -/

/-- The connection of an application, as a row. -/
def isConnection (applicationId sessionId : Uuid) : Row → Bool
  | .session r => r.id = sessionId ∧ r.applicationId = applicationId
  | _ => false

/-- `notifications_session_fkey`, `ON DELETE restrict`. -/
def restricts (applicationId sessionId : Uuid) : Row → Bool
  | .notification r => r.whatsAppSessionId = sessionId ∧ r.applicationId = applicationId
  | _ => false

/-- `webhook_deliveries_session_fkey`, `ON DELETE cascade`. -/
def cascades (applicationId sessionId : Uuid) : Row → Bool
  | .webhookDelivery r => r.whatsAppSessionId = sessionId ∧ r.applicationId = applicationId
  | _ => false

/-- What a deletion takes with it. -/
def isDeleted (applicationId sessionId : Uuid) (r : Row) : Bool :=
  isConnection applicationId sessionId r || cascades applicationId sessionId r

namespace WhatsAppSessionRepository

def findByIdOutside (applicationId sessionId : Uuid) : Statement (Option StoredSessionRecord) :=
  fun db => some ((db.store.committed.rows.filterMap Row.session?).find?
    fun r => r.id = sessionId ∧ r.applicationId = applicationId, db)

/-- Whether a version another transaction holds is in the way of a deletion: a version of what is
deleted, or a notification that is new and has the connection locked. -/
def isInTheWay (applicationId sessionId : Uuid) (db : Database) (r : Row) : Bool :=
  isDeleted applicationId sessionId r || (restricts applicationId sessionId r &&
    !db.store.committed.rows.any fun r' => key r' = key r)

/-- Whether a connection was deleted; `none` is the error of a restricting foreign key. -/
def delete (applicationId sessionId : Uuid) : Statement (Option Bool) := fun db =>
  if db.store.committed.rows.any (isConnection applicationId sessionId) then
    if db.store.held db.store.next (isInTheWay applicationId sessionId db) then none
    else if db.store.committed.rows.any (restricts applicationId sessionId) then some (none, db)
    else some (some true, { db with store := db.store.remove (isDeleted applicationId sessionId) })
  else some (some false, db)

end WhatsAppSessionRepository

/-- Whether any notification, in any state, was ever queued against a connection. -/
def NotificationRepository.existsForSession (applicationId whatsAppSessionId : Uuid) :
    Statement Bool := fun db =>
  some (db.store.committed.rows.any (restricts applicationId whatsAppSessionId), db)

/-! ## Operations -/

inductive SessionOp where
  | findById (applicationId sessionId : Uuid)
  | existsForSession (applicationId whatsAppSessionId : Uuid)
  | deleteSession (sessionName : String)
  | delete (applicationId sessionId : Uuid)

@[reducible] def SessionOp.Ret : SessionOp → Type
  | .findById _ _ => Option StoredSessionRecord
  | .existsForSession _ _ => Bool
  | .deleteSession _ => ProviderResult Unit
  | .delete _ _ => Option Bool

abbrev sessionOperations : Interface := ⟨SessionOp, SessionOp.Ret⟩

/-- What the requests share: the rows, and the names of the sessions the provider has. -/
structure Deployment where
  database : Database
  provider : List String

/-- What the surroundings choose: what the API chooses, what the provider answers, or that it answers
with a failure although the session is gone. -/
inductive DeploymentChoice where
  | api (choice : Choice)
  | answer (result : ProviderResult Unit)
  | lost (failure : ProviderFailure)

/-- What WAHA answers for a session it does not have. -/
def PROVIDER_NOT_FOUND : Nat := 404

/-- What the provider does with a deletion. It answers `PROVIDER_NOT_FOUND` for the sessions it does
not have, and for no other. -/
def deleteAtProvider (sessionName : String) (provider : List String) :
    DeploymentChoice → Option (ProviderResult Unit × List String)
  | .answer (.succeeded ()) =>
    if sessionName ∈ provider then some (.succeeded (), provider.filter (· ≠ sessionName)) else none
  | .answer (.failed failure) =>
    if failure.providerStatusCode = some PROVIDER_NOT_FOUND ∧ sessionName ∈ provider then none
    else some (.failed failure, provider)
  | .lost failure =>
    if failure.providerStatusCode = some PROVIDER_NOT_FOUND then none
    else some (.failed failure, provider.filter (· ≠ sessionName))
  | .api _ => none

/-- Runs a statement on the rows. -/
def onDatabase {α : Type} (x : Statement α) (w : Deployment) : Option (α × Deployment) :=
  (x w.database).map fun p => (p.1, { w with database := p.2 })

theorem onDatabase_eq_some {α : Type} {x : Statement α} {w w' : Deployment} {a : α} :
    onDatabase x w = some (a, w') ↔
      ∃ db, x w.database = some (a, db) ∧ w' = { w with database := db } := by
  simp only [onDatabase, Option.map_eq_some_iff, Prod.exists, Prod.mk.injEq]
  constructor
  · rintro ⟨_, db, hx, rfl, rfl⟩
    exact ⟨db, hx, rfl⟩
  · rintro ⟨db, hx, rfl⟩
    exact ⟨a, db, hx, rfl, rfl⟩

/-- Runs one operation of a deletion. -/
def sessionExec (w : Deployment) :
    (o : SessionOp) → DeploymentChoice → Option (o.Ret × Deployment)
  | .findById a s, _ => onDatabase (WhatsAppSessionRepository.findByIdOutside a s) w
  | .existsForSession a s, _ => onDatabase (NotificationRepository.existsForSession a s) w
  | .deleteSession name, choice =>
    (deleteAtProvider name w.provider choice).map fun p => (p.1, { w with provider := p.2 })
  | .delete a s, _ => onDatabase (WhatsAppSessionRepository.delete a s) w

/-- Runs one operation of either kind. -/
def deploymentExec (policies : Bool) (w : Deployment) :
    (o : (operations.sum sessionOperations).Op) → DeploymentChoice →
      Option ((operations.sum sessionOperations).Ret o × Deployment)
  | .inl o, .api choice => onDatabase (fun db => exec policies db o choice) w
  | .inl _, _ => none
  | .inr o, choice => sessionExec w o choice

/-! ## The service -/

/-- A deletion, or part of one. -/
abbrev SessionService := Raising sessionOperations RequestError

def performOutside (o : SessionOp) : SessionService o.Ret := Raising.call (I := sessionOperations) o

namespace WhatsAppSessionService

def getOrFail (applicationId sessionId : Uuid) : SessionService StoredSessionRecord := do
  let found ← performOutside (.findById applicationId sessionId)
  match found with
  | some found => return found
  | none =>
    throw (.domainError "whatsapp_session_not_found" "That WhatsApp connection does not exist.")

/-- Whether the provider still has the session, as far as its answer tells. -/
def assertGone (deleted : ProviderResult Unit) : SessionService Unit :=
  match deleted with
  | .succeeded () => return ()
  | .failed failure =>
    if failure.providerStatusCode = some PROVIDER_NOT_FOUND then return ()
    else throw (.domainError "whatsapp_provider_unavailable"
      ("The WhatsApp provider could not delete the connection: " ++ failure.message))

/-- The last statement, with the error it raises. -/
def deleteRow (applicationId sessionId : Uuid) : SessionService Unit := do
  let removed ← performOutside (.delete applicationId sessionId)
  match removed with
  | some _ => return ()
  | none => throw (.error
    "update or delete on table \"whatsapp_sessions\" violates foreign key constraint \"notifications_session_fkey\" on table \"notifications\"")

/-- Deletes the connection, at the provider first. -/
def delete (applicationId sessionId : Uuid) : SessionService Unit := do
  let record ← getOrFail applicationId sessionId
  let inUse ← performOutside (.existsForSession applicationId sessionId)
  if inUse then
    throw (.domainError "whatsapp_session_in_use"
      "Notifications were queued against this connection, and their history keeps it. Unpair it instead, and cancel whatever is still waiting if it should not be sent.")
  else
    let deleted ← performOutside (.deleteSession record.providerSessionName)
    assertGone deleted
    deleteRow applicationId sessionId

end WhatsAppSessionService

/-! ## The machine -/

inductive DeploymentRequest where
  | delete (applicationId sessionId : Uuid)
  | create (correlationId : Option CorrelationId) (input : CreateNotificationInput)
  | createBatch (correlationId : Option CorrelationId) (input : CreateNotificationBatchInput)

inductive DeploymentResult where
  | deleted (result : Except RequestError Unit)
  | created (result : Except RequestError CreateNotificationResult)
  | createdBatch (result : Except RequestError CreateNotificationBatchResult)

def deploymentProgram (environment : Environment) :
    DeploymentRequest → Prog (operations.sum sessionOperations) DeploymentResult
  | .delete a s => (DeploymentResult.deleted <$> (WhatsAppSessionService.delete a s).run).inr
  | .create correlationId input =>
    (DeploymentResult.created <$> (create environment correlationId input).run).inl
  | .createBatch correlationId input =>
    (DeploymentResult.createdBatch <$> (createBatch environment correlationId input).run).inl

/-- What happens besides: the database's clock moves on, and a transaction that cannot go on is
rolled back. -/
inductive DeploymentEvent where
  | clock (now : Timestamptz)
  | aborted (transaction : Nat)

def deploymentOutside (w : Deployment) : DeploymentEvent → Option Deployment
  | .clock now =>
    if w.database.now ≤ now then some { w with database := { w.database with now } } else none
  | .aborted t => (onDatabase (rollbackTransaction t) w).map (·.2)

/-- The requests of all processes. -/
@[reducible] def deployment (policies : Bool) (environment : Environment) :
    Machine (operations.sum sessionOperations) where
  World := Deployment
  Choice := DeploymentChoice
  Request := DeploymentRequest
  Result := DeploymentResult
  Event := DeploymentEvent
  exec := deploymentExec policies
  program := deploymentProgram environment
  outside := deploymentOutside

end PublicApi

end NotificationPlatform
