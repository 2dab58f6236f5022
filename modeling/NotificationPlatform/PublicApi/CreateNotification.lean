import NotificationPlatform.Json.Text
import NotificationPlatform.PublicApi.Operations

/-!
# Creating notifications

`packages/composition/src/notification/create-notification.service.ts`, method by method, and
what `apps/api/src/public-api/notifications/notifications.controller.ts` hands it. What the request
takes from its surroundings besides the database is the hash and the collation of the `Environment`,
and the correlation identifier it arrived with.
-/

namespace NotificationPlatform

namespace PublicApi

open Utf16 (Text)

/-- What the service takes from its runtime. -/
structure Environment where
  /-- The SHA-256 digest of the UTF-8 encoding of a text. -/
  sha256 : Text → Buffer
  /-- The collation, which may not tell texts apart. -/
  localeCompare : Text → Text → Ordering
  collates : Std.TransCmp localeCompare

namespace CreateNotificationService

/-- What every notification request carries, however it is addressed. -/
structure NotificationRequest where
  applicationId : Uuid
  body : Text
  whatsAppSessionId : Option Text
  scheduledAt : Option Date
  maximumAttempts : Option Nat
  metadata : List (Text × Text)
  idempotencyKey : Option Text
  requestPath : String
deriving DecidableEq

structure CreateNotificationInput extends NotificationRequest where
  recipient : String
deriving DecidableEq

/-- The recipients are distinct, in the order the caller gave them. -/
structure CreateNotificationBatchInput extends NotificationRequest where
  recipients : List String
  distinct : recipients.Nodup
deriving DecidableEq

structure CreateNotificationResult where
  notification : NotificationRecord
  wasReplayed : Bool

structure CreateNotificationBatchResult where
  notifications : List NotificationRecord
  wasReplayed : Bool

inductive IdempotencyClaimResult where
  | fresh (idempotencyKeyId : Option Uuid) (lockToken : Uuid)
  | completed (resourceId : Option Uuid) (responseBody : Option ResponseBody)

def IDEMPOTENCY_WINDOW_HOURS : Int := 24

variable (environment : Environment)

/-! ## The fingerprint -/

inductive Addressing where
  | recipient (recipient : String)
  | recipients (recipients : List String)
deriving DecidableEq

def Addressing.field : Addressing → Text × Json.Document
  | .recipient value => (Utf16.ofString "recipient", .string (Utf16.ofString value))
  | .recipients values =>
    (Utf16.ofString "recipients", .array (values.map fun value => .string (Utf16.ofString value)))

/-- The metadata with its entries sorted by name. -/
def sortedMetadata (metadata : List (Text × Text)) : List (Text × Text) :=
  Json.propertyOrder
    (metadata.insertionSort fun a b => (environment.localeCompare a.1 b.1).isLE = true)

def canonicalRequest (input : NotificationRequest) (addressing : Addressing) : Json.Document :=
  .object [
    (Utf16.ofString "applicationId", .string (Utf16.ofString (uuidText input.applicationId))),
    addressing.field,
    (Utf16.ofString "body", .string input.body),
    (Utf16.ofString "whatsAppSessionId", (input.whatsAppSessionId.map .string).getD .null),
    (Utf16.ofString "scheduledAt", (input.scheduledAt.map fun d =>
      .string (Utf16.ofString (Iso8601.format d))).getD .null),
    (Utf16.ofString "maximumAttempts", (input.maximumAttempts.map .natural).getD .null),
    (Utf16.ofString "metadata", .object ((sortedMetadata environment input.metadata).map fun e =>
      (e.1, .string e.2)))]

/-- The string that is hashed. -/
def canonical (input : NotificationRequest) (addressing : Addressing) : Text :=
  Json.stringify (canonicalRequest environment input addressing)

def fingerprintRequest (input : NotificationRequest) (addressing : Addressing) : Buffer :=
  environment.sha256 (canonical environment input addressing)

/-! ## The steps -/

def assertScheduleIsInTheFuture (input : NotificationRequest) (now : Date) : Service Unit :=
  if input.scheduledAt.any (· ≤ now) then
    throw (.domainError "invalid_schedule"
      "A scheduled notification must be scheduled for a time in the future.")
  else return ()

def readBatchNotificationIds (responseBody : Option ResponseBody) : Service (List Uuid) :=
  match responseBody.bind (·.notificationIds) with
  | some identifiers => return identifiers
  | none => throw (.error "A completed batch idempotency key recorded no notifications.")

def readOrFail (t : Nat) (applicationId notificationId : Uuid) : Service NotificationRecord := do
  let notification ← perform (.findNotificationById t applicationId notificationId)
  match notification with
  | some notification => return notification
  | none => throw (.error "The notification could not be read back after it was written.")

def readAllOrFail (t : Nat) (applicationId : Uuid) : List Uuid → Service (List NotificationRecord)
  | [] => return []
  | n :: rest => do
    let notification ← readOrFail t applicationId n
    let found ← readAllOrFail t applicationId rest
    return notification :: found

/-- The connection a request without a preference is bound to: a connected one, or else one being
paired, or else the newest. -/
def chooseSession (sessions : List StoredSessionRecord) : Option StoredSessionRecord :=
  (sessions.find? fun s => canSessionSend s.status) <|>
    (sessions.reverse.find? fun s => isSessionConnecting s.status) <|> sessions.getLast?

def resolveSession (t : Nat) (applicationId : Uuid) (requestedSessionId : Option Text) :
    Service StoredSessionRecord := do
  let sessions ← perform (.listForApplication t applicationId)
  match requestedSessionId with
  | some requestedSessionId =>
    match sessions.find? fun s => Utf16.ofString (uuidText s.id) = requestedSessionId with
    | some requested => return requested
    | none =>
      throw (.domainError "whatsapp_session_not_found" "That WhatsApp connection does not exist.")
  | none =>
    match chooseSession sessions with
    | some chosen => return chosen
    | none =>
      throw (.domainError "no_whatsapp_session"
        "This application has no WhatsApp connection. Connect one before sending.")

/-- What `claim` of the repository makes of its two statements. A key that was deleted between them
counts as claimed, under the lock token. -/
def claim (t : Nat) (input : IdempotencyClaimInput) :
    Service (Uuid × Uuid ⊕ IdempotencyRecord) := do
  let inserted ← perform (.insertClaim t input)
  match inserted with
  | some claimed => return .inl claimed
  | none =>
    let existing ← perform (.findByKey t input.applicationId input.key)
    match existing with
    | none => return .inl (input.lockToken, input.lockToken)
    | some record => return .inr record

/-- What `claimIdempotencyKey` asks the repository for. -/
def claimInput (input : NotificationRequest) (key : Text) (fingerprint : Buffer)
    (lockToken : Uuid) (now : Date) : IdempotencyClaimInput where
  applicationId := input.applicationId
  key := key
  requestMethod := "POST"
  requestPath := input.requestPath
  requestFingerprint := fingerprint
  lockToken := lockToken
  expiresAt := now + IDEMPOTENCY_WINDOW_HOURS * 3600000

/-- What an existing claim means. -/
def readClaim (record : IdempotencyRecord) (fingerprint : Buffer) :
    Service IdempotencyClaimResult :=
  if record.requestFingerprint ≠ fingerprint then
    throw (.domainError "idempotency_key_reused"
      "This Idempotency-Key was already used with a different request body.")
  else if record.state = .COMPLETED then
    return .completed record.resourceId record.responseBody
  else
    throw (.domainError "idempotency_key_in_flight"
      "A request with this Idempotency-Key is already being processed. Retry shortly.")

def claimIdempotencyKey (t : Nat) (input : NotificationRequest) (fingerprint : Buffer)
    (now : Date) : Service IdempotencyClaimResult := do
  let lockToken ← perform .generate
  match input.idempotencyKey with
  | none => return .fresh none lockToken
  | some key =>
    let claimed ← claim t (claimInput input key fingerprint lockToken now)
    match claimed with
    | .inl (id, lockToken) => return .fresh (some id) lockToken
    | .inr record => readClaim record fingerprint

/-- What `writeNotification` inserts. -/
def draft (input : NotificationRequest) (id : Uuid) (recipient : String) (sessionId : Uuid)
    (idempotencyKeyId : Option Uuid) (correlationId : CorrelationId) :
    InsertNotificationInput where
  id := id
  applicationId := input.applicationId
  whatsAppSessionId := sessionId
  status := if input.scheduledAt.isSome then .SCHEDULED else .QUEUED
  recipientPhoneNumber := recipient
  renderedBody := input.body
  scheduledAt := input.scheduledAt
  maximumAttempts := input.maximumAttempts.getD 5
  idempotencyKeyId := idempotencyKeyId
  correlationId := correlationId
  metadata := input.metadata

def createdEvent (draft : InsertNotificationInput) : NotificationEventInput where
  applicationId := draft.applicationId
  notificationId := draft.id
  eventType := "notification.created"
  fromStatus := none
  toStatus := some draft.status
  attemptNumber := none
  payload := { recipient := some (maskPhoneNumberForLog draft.recipientPhoneNumber),
               scheduled := some draft.scheduledAt.isSome }
  correlationId := some draft.correlationId.value

def firstJob (draft : InsertNotificationInput) : DispatchJob where
  correlationId := draft.correlationId.value
  notificationId := draft.id
  applicationId := draft.applicationId
  startAfter := draft.scheduledAt

/-- Writes one notification, its first timeline entry and its dispatch job. -/
def writeNotification (t : Nat) (draft : InsertNotificationInput) : Service Unit := do
  perform (.insertNotification t draft)
  perform (.appendEvents t [createdEvent draft])
  perform (.enqueueDispatch t (firstJob draft))

def writeNotifications (t : Nat) : List InsertNotificationInput → Service Unit
  | [] => return ()
  | draft :: rest => do
    writeNotification t draft
    writeNotifications t rest

/-- Completes the key, if the request carried one. -/
def completeKey (t : Nat) (idempotencyKeyId : Option Uuid) (lockToken : Uuid)
    (responseBody : ResponseBody) (resourceId : Option Uuid) (now : Date) : Service Unit :=
  match idempotencyKeyId with
  | none => return ()
  | some id =>
    perform (.complete t { id, lockToken, responseStatus := 202, responseBody, resourceId, now })

/-- `getCorrelationId() ?? generate()`. -/
def resolveCorrelationId (correlationId : Option CorrelationId) : Service CorrelationId :=
  match correlationId with
  | some correlationId => return correlationId
  | none => do
    let id ← perform .generate
    return .ofUuid id

def parseRecipient (value : String) : Service String :=
  match parsePhoneNumber value with
  | some recipient => return recipient
  | none => throw (.invalidPhoneNumber value)

/-! ## `create` -/

/-- The transaction of `create`. -/
def createWork (input : CreateNotificationInput) (recipient : String) (now : Date)
    (correlationId : CorrelationId) (notificationId : Uuid) (t : Nat) :
    Service CreateNotificationResult := do
  let session ← resolveSession t input.applicationId input.whatsAppSessionId
  let claim ← claimIdempotencyKey t input.toNotificationRequest
    (fingerprintRequest environment input.toNotificationRequest (.recipient input.recipient)) now
  match claim with
  | .completed resourceId _ =>
    match resourceId with
    | none => throw (.error "A completed idempotency key recorded no notification.")
    | some resourceId =>
      let notification ← readOrFail t input.applicationId resourceId
      return { notification, wasReplayed := true }
  | .fresh idempotencyKeyId lockToken =>
    writeNotification t (draft input.toNotificationRequest notificationId recipient session.id
      idempotencyKeyId correlationId)
    completeKey t idempotencyKeyId lockToken { id := some notificationId } (some notificationId) now
    let notification ← readOrFail t input.applicationId notificationId
    return { notification, wasReplayed := false }

/-- Creates a notification and its dispatch job in a single transaction. -/
def create (correlationId : Option CorrelationId) (input : CreateNotificationInput) :
    Service CreateNotificationResult := do
  let recipient ← parseRecipient input.recipient
  let now ← perform .clockNow
  assertScheduleIsInTheFuture input.toNotificationRequest now
  let correlationId ← resolveCorrelationId correlationId
  let notificationId ← perform .generate
  withTenantScope input.applicationId
    (createWork environment input recipient now correlationId notificationId)

/-! ## `createBatch` -/

/-- The identifier and the number of each recipient. -/
def numberRecipients : List String → Service (List (Uuid × String))
  | [] => return []
  | value :: rest => do
    let id ← perform .generate
    let recipient ← parseRecipient value
    let drafts ← numberRecipients rest
    return (id, recipient) :: drafts

/-- The transaction of `createBatch`. -/
def createBatchWork (input : CreateNotificationBatchInput) (drafts : List (Uuid × String))
    (now : Date) (correlationId : CorrelationId) (t : Nat) :
    Service CreateNotificationBatchResult := do
  let session ← resolveSession t input.applicationId input.whatsAppSessionId
  let claim ← claimIdempotencyKey t input.toNotificationRequest
    (fingerprintRequest environment input.toNotificationRequest (.recipients input.recipients)) now
  match claim with
  | .completed _ responseBody =>
    let identifiers ← readBatchNotificationIds responseBody
    let notifications ← readAllOrFail t input.applicationId identifiers
    return { notifications, wasReplayed := true }
  | .fresh idempotencyKeyId lockToken =>
    writeNotifications t (drafts.map fun d => draft input.toNotificationRequest d.1 d.2 session.id
      idempotencyKeyId correlationId)
    completeKey t idempotencyKeyId lockToken { notificationIds := some (drafts.map (·.1)) } none now
    let notifications ← readAllOrFail t input.applicationId (drafts.map (·.1))
    return { notifications, wasReplayed := false }

/-- Creates one notification per recipient, all in one transaction. -/
def createBatch (correlationId : Option CorrelationId) (input : CreateNotificationBatchInput) :
    Service CreateNotificationBatchResult := do
  let drafts ← numberRecipients input.recipients
  let now ← perform .clockNow
  assertScheduleIsInTheFuture input.toNotificationRequest now
  let correlationId ← resolveCorrelationId correlationId
  withTenantScope input.applicationId
    (createBatchWork environment input drafts now correlationId)

end CreateNotificationService

/-! ## The controller -/

/-- Whose key the request carries. -/
structure ApiKeyPrincipal where
  applicationId : Uuid
  bound : applicationId < 2 ^ 128

namespace NotificationsController

open CreateNotificationService

/-- What the controller makes of a body, however it is addressed. -/
def request (principal : ApiKeyPrincipal) (content : NotificationContent)
    (idempotencyKey : Option IdempotencyKey) (requestPath : String) : NotificationRequest where
  applicationId := principal.applicationId
  body := content.body
  whatsAppSessionId := content.whatsAppSessionId
  scheduledAt := content.scheduledAt.map (·.toDate)
  maximumAttempts := content.maximumAttempts
  metadata := content.metadata.entries
  idempotencyKey := idempotencyKey.map (·.value)
  requestPath := requestPath

def createInput (principal : ApiKeyPrincipal) (body : NotificationCreationRequest)
    (idempotencyKey : Option IdempotencyKey) : CreateNotificationInput where
  toNotificationRequest :=
    request principal body.toNotificationContent idempotencyKey "/v1/notifications"
  recipient := body.recipient

def createBatchInput (principal : ApiKeyPrincipal) (body : NotificationBatchCreationRequest)
    (idempotencyKey : Option IdempotencyKey) : CreateNotificationBatchInput where
  toNotificationRequest :=
    request principal body.toNotificationContent idempotencyKey "/v1/notifications/batch"
  recipients := body.recipients
  distinct := body.recipients_distinct

end NotificationsController

/-- A request that passed validation, with its key. -/
inductive AcceptedRequest where
  | single (principal : ApiKeyPrincipal) (body : NotificationCreationRequest)
      (idempotencyKey : Option IdempotencyKey)
  | batch (principal : ApiKeyPrincipal) (body : NotificationBatchCreationRequest)
      (idempotencyKey : Option IdempotencyKey)

namespace AcceptedRequest

open CreateNotificationService NotificationsController

def input : AcceptedRequest → NotificationRequest
  | single principal body key => (createInput principal body key).toNotificationRequest
  | batch principal body key => (createBatchInput principal body key).toNotificationRequest

def addressing : AcceptedRequest → Addressing
  | single _ body _ => .recipient body.recipient
  | batch _ body _ => .recipients body.recipients

/-- What the controller does with it: the notifications it answers with. -/
def handle (environment : Environment) (correlationId : Option CorrelationId) :
    AcceptedRequest → Service (List NotificationRecord)
  | single principal body key => do
    let result ← create environment correlationId (createInput principal body key)
    return [result.notification]
  | batch principal body key => do
    let result ← createBatch environment correlationId (createBatchInput principal body key)
    return result.notifications

end AcceptedRequest

namespace Sample

/-- A message that leaves the session and the number of attempts to the platform. -/
def content (body : Text) (h : 1 ≤ body.length ∧ body.length ≤ 4096) (metadata : Metadata) :
    NotificationContent where
  body := body
  whatsAppSessionId := none
  scheduledAt := none
  maximumAttempts := none
  metadata := metadata
  body_bounds := h
  session_isUuid := by rintro s ⟨⟩
  attempts_bounds := by rintro n ⟨⟩

/-- To one recipient, without a key. -/
def request (content : NotificationContent) : AcceptedRequest :=
  .single ⟨1, by decide⟩ ⟨content, "+5511999998888", by decide⟩ none

end Sample

end PublicApi

end NotificationPlatform
