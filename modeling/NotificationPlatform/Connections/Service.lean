import NotificationPlatform.Domain.Provider
import NotificationPlatform.Database.Repository
import NotificationPlatform.Interleaving.Raising
import NotificationPlatform.Interleaving.System
import NotificationPlatform.PublicApi.Contract
import NotificationPlatform.PublicApi.Rows
import NotificationPlatform.Relational.Table
import NotificationPlatform.Security.Encryption

/-!
# Connections and the provider's sessions

`packages/composition/src/whatsapp/whatsapp-session.service.ts`, with the statements of
`WhatsAppSessionRepository` it needs and the requests that `waha-provider.ts` makes for it. Every
statement and every request to the provider is one operation. A statement that the database refuses
is no step: its request performs nothing more. The provider keeps its sessions by
name, with the callback URL and the signing key each was created with. It can create a session at any
moment after the platform gave up waiting for the answer, and forget one at any moment.
-/

namespace NotificationPlatform

namespace Connections

open Interleaving Relational Security

open PublicApi (uuidText StoredSessionRecord)

open Utf16 (Text hexDigit)

/-! ## Rows -/

/-- A row of `whatsapp_sessions`. -/
structure ConnectionRecord extends StoredSessionRecord where
  displayName : String
deriving DecidableEq

instance : Keyed ConnectionRecord Uuid := ⟨fun r => r.id⟩

@[simp] theorem key_connection (r : ConnectionRecord) : key r = r.id := rfl

/-- A session at the provider. -/
structure HostedSession where
  name : String
  webhookUrl : String
  webhookSigningKey : Text
deriving DecidableEq

instance : Keyed HostedSession String := ⟨HostedSession.name⟩

@[simp] theorem key_hosted (h : HostedSession) : key h = h.name := rfl

/-- What the requests share: the rows, for which applications and connections notifications are on
file, the provider's sessions, those it was asked to create without being heard, and the identifiers
that were drawn. -/
structure Switchboard where
  sessions : Table ConnectionRecord
  notifications : List (Uuid × Uuid)
  hosted : Table HostedSession
  inFlight : List HostedSession
  drawn : List Uuid
  now : Date

/-! ## Statements -/

namespace WhatsAppSessionRepository

structure InsertInput where
  id : Uuid
  applicationId : Uuid
  providerSessionName : String
  displayName : String
  webhookSigningKeyCiphertext : Security.Buffer

/-- The row an insert writes, with the defaults of the other columns. -/
def InsertInput.row (input : InsertInput) (now : Date) : ConnectionRecord where
  id := input.id
  applicationId := input.applicationId
  providerSessionName := input.providerSessionName
  status := .STOPPED
  phoneNumber := none
  pushName := none
  sendPacingMinimumSeconds := 30
  sendPacingMaximumSeconds := 60
  nextSendAllowedAt := toTimestamptz now
  sendingPausedUntil := none
  sendingPausedReason := none
  accountLimits := none
  accountLimitsCheckedAt := none
  lastStatusAt := now
  lastError := none
  updatedAt := now
  webhookSigningKeyCiphertext := input.webhookSigningKeyCiphertext
  createdAt := toTimestamptz now
  displayName := input.displayName

/-- The primary key and the unique index on the provider's name, and a text that `text` takes. -/
def insert (input : InsertInput) (w : Switchboard) : Option (ConnectionRecord × Switchboard) :=
  if isStorableText input.displayName = true ∧
      ∀ r ∈ w.sessions.rows, r.providerSessionName ≠ input.providerSessionName then
    (w.sessions.insert? (input.row w.now)).map fun sessions => (input.row w.now, { w with sessions })
  else none

def findById (applicationId sessionId : Uuid) (w : Switchboard) : Option ConnectionRecord :=
  (w.sessions.find? sessionId).filter (·.applicationId = applicationId)

def listForApplication (applicationId : Uuid) (w : Switchboard) : List ConnectionRecord :=
  (w.sessions.rows.filter (·.applicationId = applicationId)).insertionSort
    fun a b => a.createdAt ≤ b.createdAt

structure StatusInput where
  status : ProviderSessionStatus
  phoneNumber : Option String
  pushName : Option String
  lastError : Option String
  now : Date

/-- The columns a report sets. -/
def StatusInput.apply (input : StatusInput) (r : ConnectionRecord) : ConnectionRecord :=
  { r with
    status := input.status
    phoneNumber := input.phoneNumber
    pushName := input.pushName
    lastError := input.lastError
    lastStatusAt := input.now
    updatedAt := input.now }

@[simp] theorem StatusInput.key_apply (input : StatusInput) (r : ConnectionRecord) :
    key (input.apply r) = key r := rfl

def recordStatus (sessionId : Uuid) (input : StatusInput) (w : Switchboard) : Option Switchboard :=
  let texts := [input.phoneNumber, input.pushName, input.lastError].filterMap id
  if isStorableInstant input.now && texts.all isStorableText then
    some { w with sessions := w.sessions.update (·.id = sessionId) input.apply input.key_apply }
  else none

/-- Whether a row was deleted; `none` is the error of the foreign key of the notifications. -/
def delete (applicationId sessionId : Uuid) (w : Switchboard) : Option (Bool × Switchboard) :=
  match findById applicationId sessionId w with
  | none => some (false, w)
  | some _ =>
    if (applicationId, sessionId) ∈ w.notifications then none
    else some (true, { w with sessions := w.sessions.remove sessionId })

end WhatsAppSessionRepository

def NotificationRepository.existsForSession (applicationId whatsAppSessionId : Uuid)
    (w : Switchboard) : Bool := (applicationId, whatsAppSessionId) ∈ w.notifications

open Connections.WhatsAppSessionRepository (InsertInput StatusInput)

/-! ## The provider -/

/-- What WAHA answers for a session it does not have. -/
def PROVIDER_NOT_FOUND : Nat := 404

/-- What a request to the provider comes to: an answer, or a failure of the platform's to hear one
although the request is performed. -/
inductive Heard (α : Type) where
  | answer (result : ProviderResult α)
  | lost (failure : ProviderFailure)

/-- `POST /api/sessions`. A name that is taken is refused. -/
def Heard.creates (heard : Heard ProviderSession) (session : HostedSession) (w : Switchboard) :
    Option (ProviderResult ProviderSession × Switchboard) :=
  match heard with
  | .answer (.succeeded value) =>
    (w.hosted.insert? session).map fun hosted => (.succeeded value, { w with hosted })
  | .answer (.failed failure) => some (.failed failure, w)
  | .lost failure => some (.failed failure, { w with inFlight := session :: w.inFlight })

/-- `POST /api/sessions/:session/start`, `stop` and `logout`, which keep the session. -/
def Heard.keeps (heard : Heard ProviderSession) (sessionName : String)
    (hosted : Table HostedSession) : Option (ProviderResult ProviderSession) :=
  match heard with
  | .answer (.succeeded value) =>
    if (hosted.find? sessionName).isSome then some (.succeeded value) else none
  | .answer (.failed failure) =>
    if failure.providerStatusCode = some PROVIDER_NOT_FOUND ∧ (hosted.find? sessionName).isSome
    then none
    else some (.failed failure)
  | .lost failure =>
    if failure.providerStatusCode = some PROVIDER_NOT_FOUND then none else some (.failed failure)

/-- `DELETE /api/sessions/:session`. -/
def Heard.deletes (heard : Heard Unit) (sessionName : String) (hosted : Table HostedSession) :
    Option (ProviderResult Unit × Table HostedSession) :=
  match heard with
  | .answer (.succeeded ()) => some (.succeeded (), hosted.remove sessionName)
  | .answer (.failed failure) =>
    if failure.providerStatusCode = some PROVIDER_NOT_FOUND ∧ (hosted.find? sessionName).isSome
    then none
    else some (.failed failure, hosted)
  | .lost failure =>
    if failure.providerStatusCode = some PROVIDER_NOT_FOUND then none
    else some (.failed failure, hosted.remove sessionName)

/-! ## Operations -/

inductive ConnectionOp where
  | clockNow
  | generate
  | randomBytes (count : Nat)
  | insert (input : InsertInput)
  | findById (applicationId sessionId : Uuid)
  | listForApplication (applicationId : Uuid)
  | existsForSession (applicationId whatsAppSessionId : Uuid)
  | recordStatus (sessionId : Uuid) (input : StatusInput)
  | delete (applicationId sessionId : Uuid)
  | postSession (session : HostedSession)
  | postStart (sessionName : String)
  | postStop (sessionName : String)
  | postLogout (sessionName : String)
  | deleteSession (sessionName : String)

@[reducible] def ConnectionOp.Ret : ConnectionOp → Type
  | .clockNow => Date
  | .generate => Uuid
  | .randomBytes _ => Security.Buffer
  | .insert _ => ConnectionRecord
  | .findById _ _ => Option ConnectionRecord
  | .listForApplication _ => List ConnectionRecord
  | .existsForSession _ _ => Bool
  | .recordStatus _ _ => Unit
  | .delete _ _ => Bool
  | .postSession _ | .postStart _ | .postStop _ | .postLogout _ => ProviderResult ProviderSession
  | .deleteSession _ => ProviderResult Unit

abbrev connectionOperations : Interface := ⟨ConnectionOp, ConnectionOp.Ret⟩

/-- What the surroundings choose. -/
inductive ConnectionChoice where
  | nothing
  | identifier (id : Uuid)
  | bytes (bytes : Security.Buffer)
  | session (heard : Heard ProviderSession)
  | deletion (heard : Heard Unit)

/-- Runs one operation. An identifier is drawn once, and has 128 bits. -/
def exec (w : Switchboard) :
    (o : ConnectionOp) → ConnectionChoice → Option (o.Ret × Switchboard)
  | .clockNow, _ => some (w.now, w)
  | .generate, .identifier id =>
    if id ∉ w.drawn ∧ id < 2 ^ 128 then some (id, { w with drawn := id :: w.drawn }) else none
  | .generate, _ => none
  | .randomBytes count, .bytes bytes => if bytes.length = count then some (bytes, w) else none
  | .randomBytes _, _ => none
  | .insert input, _ => WhatsAppSessionRepository.insert input w
  | .findById a s, _ => some (WhatsAppSessionRepository.findById a s w, w)
  | .listForApplication a, _ => some (WhatsAppSessionRepository.listForApplication a w, w)
  | .existsForSession a s, _ => some (NotificationRepository.existsForSession a s w, w)
  | .recordStatus s input, _ =>
    (WhatsAppSessionRepository.recordStatus s input w).map fun w' => ((), w')
  | .delete a s, _ => WhatsAppSessionRepository.delete a s w
  | .postSession session, .session heard => heard.creates session w
  | .postSession _, _ => none
  | .postStart name, .session heard | .postStop name, .session heard
  | .postLogout name, .session heard => (heard.keeps name w.hosted).map fun result => (result, w)
  | .postStart _, _ | .postStop _, _ | .postLogout _, _ => none
  | .deleteSession name, .deletion heard =>
    (heard.deletes name w.hosted).map fun p => (p.1, { w with hosted := p.2 })
  | .deleteSession _, _ => none

/-! ## The provider's client -/

/-- What a request throws. -/
inductive ConnectionError where
  | domainError (code message : String)
  /-- `createCipheriv` and `createDecipheriv` throw, or what was decrypted does not fit its tag. -/
  | cipher
deriving DecidableEq

abbrev Service := Raising connectionOperations ConnectionError

def perform (o : ConnectionOp) : Service o.Ret := Raising.call (I := connectionOperations) o

namespace WahaProvider

/-- WAHA answers a start of a session that has FAILED with nothing changed: it is stopped first. -/
def startSession (sessionName : String) : Service (ProviderResult ProviderSession) := do
  let started ← perform (.postStart sessionName)
  match started with
  | .failed failure => return .failed failure
  | .succeeded session =>
    if session.status ≠ .FAILED then return .succeeded session
    else
      let stopped ← perform (.postStop sessionName)
      match stopped with
      | .failed failure => return .failed failure
      | .succeeded _ => perform (.postStart sessionName)

end WahaProvider

/-! ## The service -/

/-- What the service takes from its configuration. The key is 32 bytes in Base64, which the
environment schema checks. -/
structure ConnectionConfiguration where
  cipher : Aes256Gcm
  encryptionKey : Text
  webhookPublicUrl : String
  encryptionKey_length : (Base64.decode encryptionKey).length = KEY_BYTES

/-- `toString('hex')`. -/
def toHex (bytes : Security.Buffer) : Text :=
  bytes.flatMap fun b => [hexDigit (b.toNat / 16), hexDigit (b.toNat % 16)]

def SIGNING_KEY_BYTES : Nat := 32

structure CreateWhatsAppSessionInput where
  applicationId : Uuid
  displayName : String
deriving DecidableEq

namespace WhatsAppSessionService

def FORGOTTEN_BY_PROVIDER : String :=
  "The WhatsApp provider no longer has this connection. Start it to pair it again."

def toProviderSessionName (sessionId : Uuid) : String := "wnp-" ++ uuidText sessionId

/-- `replace(/\/+$/, '')`. -/
def stripSlashes (url : String) : String :=
  String.ofList (url.toList.reverse.dropWhile (· = '/')).reverse

def toWebhookUrl (configuration : ConnectionConfiguration) (sessionId : Uuid) : String :=
  stripSlashes configuration.webhookPublicUrl ++ "/webhooks/whatsapp/" ++ uuidText sessionId

def sessionNotFound : ConnectionError :=
  .domainError "whatsapp_session_not_found" "That WhatsApp connection does not exist."

def unavailable (what : String) (failure : ProviderFailure) : ConnectionError :=
  .domainError "whatsapp_provider_unavailable"
    ("The WhatsApp provider " ++ what ++ ": " ++ failure.message)

def getOrFail (applicationId sessionId : Uuid) : Service ConnectionRecord := do
  let found ← perform (.findById applicationId sessionId)
  match found with
  | none => throw sessionNotFound
  | some found => return found

/-- Writes down what the provider answered, and reads the row again. -/
def recordSession (applicationId sessionId : Uuid) (session : ProviderSession) :
    Service ConnectionRecord := do
  let now ← perform .clockNow
  perform (.recordStatus sessionId {
    status := session.status
    phoneNumber := session.phoneNumber
    pushName := session.pushName
    lastError := none
    now })
  getOrFail applicationId sessionId

def recordAndReturn (applicationId sessionId : Uuid) (status : ProviderSessionStatus) :
    Service ConnectionRecord := do
  let existing ← getOrFail applicationId sessionId
  let now ← perform .clockNow
  perform (.recordStatus sessionId {
    status
    phoneNumber := existing.phoneNumber
    pushName := existing.pushName
    lastError := none
    now })
  getOrFail applicationId sessionId

/-- The session that a connection has at the provider. -/
def hostedSession (configuration : ConnectionConfiguration) (sessionId : Uuid)
    (providerSessionName : String) (signingKey : Text) : HostedSession where
  name := providerSessionName
  webhookUrl := toWebhookUrl configuration sessionId
  webhookSigningKey := signingKey

def recreateAtProvider (configuration : ConnectionConfiguration) (record : ConnectionRecord) :
    Service ConnectionRecord := do
  match decryptSecret configuration.cipher record.webhookSigningKeyCiphertext
      configuration.encryptionKey with
  | none => throw .cipher
  | some signingKey =>
    let created ← perform (.postSession
      (hostedSession configuration record.id record.providerSessionName signingKey))
    match created with
    | .failed failure => throw (unavailable "could not recreate the connection" failure)
    | .succeeded session => recordSession record.applicationId record.id session

/-- The row `create` inserts. -/
def insertion (input : CreateWhatsAppSessionInput) (sessionId : Uuid)
    (webhookSigningKeyCiphertext : Security.Buffer) : InsertInput where
  id := sessionId
  applicationId := input.applicationId
  providerSessionName := toProviderSessionName sessionId
  displayName := input.displayName
  webhookSigningKeyCiphertext := webhookSigningKeyCiphertext

/-- Creates the connection here first, then at the provider. -/
def create (configuration : ConnectionConfiguration) (input : CreateWhatsAppSessionInput) :
    Service ConnectionRecord := do
  let sessionId ← perform .generate
  let bytes ← perform (.randomBytes SIGNING_KEY_BYTES)
  let initialisationVector ← perform (.randomBytes INITIALISATION_VECTOR_BYTES)
  match encryptSecret configuration.cipher (toHex bytes) configuration.encryptionKey
      initialisationVector with
  | none => throw .cipher
  | some webhookSigningKeyCiphertext =>
    let record ← perform (.insert (insertion input sessionId webhookSigningKeyCiphertext))
    let created ← perform (.postSession
      (hostedSession configuration sessionId record.providerSessionName (toHex bytes)))
    match created with
    | .failed failure =>
      let _ ← perform (.delete input.applicationId sessionId)
      throw (unavailable "refused to create the connection" failure)
    | .succeeded session => recordSession input.applicationId sessionId session

def list (applicationId : Uuid) : Service (List ConnectionRecord) :=
  perform (.listForApplication applicationId)

def start (configuration : ConnectionConfiguration) (applicationId sessionId : Uuid) :
    Service ConnectionRecord := do
  let record ← getOrFail applicationId sessionId
  let started ← WahaProvider.startSession record.providerSessionName
  match started with
  | .failed failure =>
    if failure.providerStatusCode = some PROVIDER_NOT_FOUND then
      recreateAtProvider configuration record
    else throw (unavailable "could not start the connection" failure)
  | .succeeded session => recordAndReturn applicationId sessionId session.status

def stop (applicationId sessionId : Uuid) : Service ConnectionRecord := do
  let record ← getOrFail applicationId sessionId
  let stopped ← perform (.postStop record.providerSessionName)
  match stopped with
  | .failed failure => throw (unavailable "could not stop the connection" failure)
  | .succeeded session => recordAndReturn applicationId sessionId session.status

def logout (applicationId sessionId : Uuid) : Service ConnectionRecord := do
  let record ← getOrFail applicationId sessionId
  let loggedOut ← perform (.postLogout record.providerSessionName)
  match loggedOut with
  | .failed failure =>
    if failure.providerStatusCode = some PROVIDER_NOT_FOUND then
      let now ← perform .clockNow
      perform (.recordStatus sessionId {
        status := .STOPPED
        phoneNumber := record.phoneNumber
        pushName := record.pushName
        lastError := some FORGOTTEN_BY_PROVIDER
        now })
      getOrFail applicationId sessionId
    else throw (unavailable "could not log the connection out" failure)
  | .succeeded session => recordAndReturn applicationId sessionId session.status

/-- Deletes the connection, at the provider first. -/
def delete (applicationId sessionId : Uuid) : Service Unit := do
  let record ← getOrFail applicationId sessionId
  let isInUse ← perform (.existsForSession applicationId sessionId)
  if isInUse then
    throw (.domainError "whatsapp_session_in_use" ("Notifications were queued against this " ++
      "connection, and their history keeps it. Unpair it instead, and cancel whatever is still " ++
      "waiting if it should not be sent."))
  else
    let deleted ← perform (.deleteSession record.providerSessionName)
    match deleted with
    | .failed failure =>
      if failure.providerStatusCode = some PROVIDER_NOT_FOUND then
        let _ ← perform (.delete applicationId sessionId)
        return ()
      else throw (unavailable "could not delete the connection" failure)
    | .succeeded () =>
      let _ ← perform (.delete applicationId sessionId)
      return ()

end WhatsAppSessionService

/-! ## Requests -/

inductive ConnectionRequest where
  | create (input : CreateWhatsAppSessionInput)
  | list (applicationId : Uuid)
  | start (applicationId sessionId : Uuid)
  | stop (applicationId sessionId : Uuid)
  | logout (applicationId sessionId : Uuid)
  | delete (applicationId sessionId : Uuid)
deriving DecidableEq

inductive ConnectionResult where
  | connection (result : Except ConnectionError ConnectionRecord)
  | listed (result : Except ConnectionError (List ConnectionRecord))
  | deleted (result : Except ConnectionError Unit)
deriving DecidableEq

def ConnectionRequest.program (configuration : ConnectionConfiguration) :
    ConnectionRequest → Prog connectionOperations ConnectionResult
  | create input => .connection <$> (WhatsAppSessionService.create configuration input).run
  | list a => .listed <$> (WhatsAppSessionService.list a).run
  | start a s => .connection <$> (WhatsAppSessionService.start configuration a s).run
  | stop a s => .connection <$> (WhatsAppSessionService.stop a s).run
  | logout a s => .connection <$> (WhatsAppSessionService.logout a s).run
  | delete a s => .deleted <$> (WhatsAppSessionService.delete a s).run

/-- What happens besides: time passes, a notification is queued against a connection, a status is
recorded from a callback or a refresh, and the provider creates a session that was given up, or
forgets one. -/
inductive ConnectionEvent where
  | clock (now : Date)
  | queued (applicationId sessionId : Uuid)
  | reported (sessionId : Uuid) (input : StatusInput)
  | arrived (session : HostedSession)
  | forgotten (sessionName : String)

def outside (w : Switchboard) : ConnectionEvent → Option Switchboard
  | .clock now => if w.now ≤ now then some { w with now } else none
  | .queued a s =>
    if (WhatsAppSessionRepository.findById a s w).isSome then
      some { w with notifications := (a, s) :: w.notifications }
    else none
  | .reported s input => WhatsAppSessionRepository.recordStatus s input w
  | .arrived session =>
    if session ∈ w.inFlight then
      (w.hosted.insert? session).map fun hosted => { w with hosted }
    else none
  | .forgotten name => some { w with hosted := w.hosted.remove name }

@[reducible] def connections (configuration : ConnectionConfiguration) :
    Machine connectionOperations where
  World := Switchboard
  Choice := ConnectionChoice
  Request := ConnectionRequest
  Result := ConnectionResult
  Event := ConnectionEvent
  exec := exec
  program := ConnectionRequest.program configuration
  outside := outside

end Connections

end NotificationPlatform
