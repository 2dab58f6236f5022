import Mathlib.Algebra.Order.Ring.Rat
import NotificationPlatform.Provider.Webhook
import NotificationPlatform.PublicApi.Commits
import NotificationPlatform.Utf16.Utf8

/-!
# Filing a callback

`packages/composition/src/webhook/ingest-webhook.service.ts`, with the checks of
`packages/provider-whatsapp/src/webhook.ts` on who sent a callback and when. A callback is
authenticated, filed and queued, and nothing here interprets it. The reads are outside any
transaction; the row of the inbox and the job are written in one.
-/

namespace NotificationPlatform

namespace PublicApi

open Interleaving Relational Transactional

open Utf16 (Text)

/-! ## Who sent it, and when -/

/-- What the service takes from its runtime and its configuration. -/
structure IngestEnvironment where
  /-- `decryptSecret` under the configured key; `none` where it throws. -/
  decryptSecret : Buffer → Option Text
  /-- `createHmac('sha512', key).update(body).digest('hex')`. -/
  createHmac : Text → Buffer → Text
  /-- `Number`; `none` where the result is not finite. -/
  toNumber : Text → Option ℚ
  /-- `JSON.parse`; `none` where it throws. -/
  parseJson : Text → Option Json.Value
  webhookToleranceSeconds : Nat

variable (environment : IngestEnvironment)

def isWebhookSignatureValid (rawBody : Buffer) (suppliedSignature signingKey : Text) : Bool :=
  let expected := Utf16.toUtf8 (environment.createHmac signingKey rawBody)
  let supplied := Utf16.toUtf8 suppliedSignature
  if supplied.length ≠ expected.length then false
  else supplied = expected

/-- A callback without a timestamp is accepted. -/
def isWebhookTimestampAcceptable (timestampHeader : Option Text) (now : Date) : Bool :=
  match timestampHeader with
  | none => true
  | some header =>
    if header.length = 0 then true
    else match environment.toNumber header with
      | none => false
      | some timestamp =>
        -- a value small enough to be seconds is treated as such
        let milliseconds := if timestamp < 100000000000 then timestamp * 1000 else timestamp
        |(now : ℚ) - milliseconds| ≤ environment.webhookToleranceSeconds * 1000

/-! ## The service -/

structure IngestWebhookInput where
  whatsAppSessionId : Uuid
  rawBody : Buffer
  signature : Option Text
  timestampHeader : Option Text
  correlationId : String
deriving DecidableEq

inductive WebhookIngestionOutcome where
  | accepted
  | duplicate
  | rejected
  | malformed
deriving DecidableEq, Repr

structure IngestWebhookResult where
  outcome : WebhookIngestionOutcome
  logEvent : String
  reason : Option String := none
deriving DecidableEq, Repr

def rejected (reason : String) : IngestWebhookResult where
  outcome := .rejected
  logEvent := "webhook.rejected"
  reason := some reason

def safeParseJson (rawBody : Buffer) : Option Json.Value :=
  environment.parseJson (Utf16.ofUtf8 rawBody)

/-- The envelope of a body. -/
def readEnvelope (rawBody : Buffer) : Option WebhookEnvelope :=
  (safeParseJson environment rawBody).bind parseWebhookEnvelope

/-- What `ingest` hands to `record`. -/
def recordInput (session : StoredSessionRecord) (envelope : WebhookEnvelope) (deliveryId : Uuid)
    (now : Date) : WebhookDeliveryRepository.RecordWebhookDeliveryInput where
  id := deliveryId
  applicationId := session.applicationId
  whatsAppSessionId := session.id
  providerEventId := envelope.id
  eventType := envelope.event
  providerSessionName := envelope.session
  payload := toStoredPayload envelope.event envelope.payload
  receivedAt := now

/-- The transaction of `ingest`. -/
def fileAndQueue (correlationId : String)
    (input : WebhookDeliveryRepository.RecordWebhookDeliveryInput) (t : Nat) :
    Service (Option WebhookDeliveryRecord) := do
  let some delivery ← perform (.recordDelivery t input)
    | return none
  perform (.enqueueWebhookProcess t { correlationId, webhookDeliveryId := delivery.id })
  return some delivery

/-- Files an envelope, unless its event is on file. -/
def fileEnvelope (input : IngestWebhookInput) (session : StoredSessionRecord) (now : Date)
    (envelope : WebhookEnvelope) : Service IngestWebhookResult := do
  let deliveryId ← perform .generate
  let recorded ← transaction none
    (fileAndQueue input.correlationId (recordInput session envelope deliveryId now))
  match recorded with
  | none => return { outcome := .duplicate, logEvent := "webhook.duplicate" }
  | some _ => return { outcome := .accepted, logEvent := "webhook.received" }

/-- Authenticates a provider callback and files it, without acting on it. -/
def ingest (input : IngestWebhookInput) : Service IngestWebhookResult := do
  let some session ← perform (.findSessionByIdWithoutTenantScope input.whatsAppSessionId)
    | return rejected "unknown session"
  let some signature := input.signature.filter (·.length ≠ 0)
    | return rejected "missing signature"
  let some signingKey := environment.decryptSecret session.webhookSigningKeyCiphertext
    | return rejected "unreadable signing key"
  if !isWebhookSignatureValid environment input.rawBody signature signingKey then
    return rejected "invalid signature"
  let now ← perform .clockNow
  if !isWebhookTimestampAcceptable environment input.timestampHeader now then
    return rejected "stale timestamp"
  let some envelope := readEnvelope environment input.rawBody
    | return { outcome := .malformed, logEvent := "webhook.rejected",
               reason := some "unparseable body" }
  fileEnvelope input session now envelope

/-! ## Callbacks side by side -/

/-- The callbacks of all processes, each operation a step. -/
@[reducible] def ingestion (policies : Bool) : Machine operations where
  World := Database
  Choice := Choice
  Request := IngestWebhookInput
  Result := Except RequestError IngestWebhookResult
  Event := DatabaseEvent
  exec := exec policies
  program := fun input => (ingest environment input).run
  outside := databaseOutside

/-! ## How far a callback is -/

/-- The session's own key signed the body. -/
def Authenticates (input : IngestWebhookInput) (session : StoredSessionRecord) : Prop :=
  session.id = input.whatsAppSessionId ∧ ∃ signature signingKey,
    input.signature = some signature ∧
    environment.decryptSecret session.webhookSigningKeyCiphertext = some signingKey ∧
    isWebhookSignatureValid environment input.rawBody signature signingKey = true

/-- How far a callback is. It reads, it has an identifier for its delivery, or its transaction has
only begun, has found the event on file, has recorded the delivery, or has queued it too. -/
inductive FilingStage where
  | reading
  | found (session : StoredSessionRecord)
  | identified (session : StoredSessionRecord)
  | begun (transaction : Nat)
  | known (transaction : Nat) (providerEventId : String)
  | recorded (transaction : Nat) (delivery : WebhookDeliveryRecord)
  | queued (transaction : Nat) (delivery : WebhookDeliveryRecord)
  | filed (providerEventId : String)

structure Filing where
  input : IngestWebhookInput
  stage : FilingStage := .reading

namespace Filing

/-- The delivery is of the session that was authenticated, and its event is the body's. -/
def Names (q : Filing) (whatsAppSessionId : Uuid) (providerEventId : String) : Prop :=
  whatsAppSessionId = q.input.whatsAppSessionId ∧
    ∃ envelope, readEnvelope environment q.input.rawBody = some envelope ∧
      providerEventId = envelope.id

def Allows (q : Filing) (o : Op) : Prop :=
  match q.stage, o with
  | .reading, .findSessionByIdWithoutTenantScope s => s = q.input.whatsAppSessionId
  | .found _, .clockNow | .found _, .generate => True
  | .identified session, .begin a => a = none ∧ Authenticates environment q.input session
  | .begun t, .recordDelivery t' input =>
    t' = t ∧ q.Names environment input.whatsAppSessionId input.providerEventId
  | .recorded t delivery, .enqueueWebhookProcess t' job =>
    t' = t ∧ job.webhookDeliveryId = delivery.id
  | .known t _, .commit t' | .queued t _, .commit t' => t' = t
  | _, _ => False

/-- The stage a call is in after it performed `o` and was answered `r`. -/
def next (stage : FilingStage) (o : Op) (r : o.Ret) : FilingStage :=
  match stage, o, r with
  | .reading, .findSessionByIdWithoutTenantScope _, some session => .found session
  | .found session, .generate, _ => .identified session
  | .identified _, .begin _, t => .begun t
  | .begun t, .recordDelivery _ _, some delivery => .recorded t delivery
  | .begun t, .recordDelivery _ input, none => .known t input.providerEventId
  | .recorded t delivery, .enqueueWebhookProcess _ _, _ => .queued t delivery
  | .known _ event, .commit _, _ => .filed event
  | .queued _ delivery, .commit _, _ => .filed delivery.providerEventId
  | stage, _, _ => stage

def advance (q : Filing) (o : Op) (r : o.Ret) : Filing := { q with stage := next q.stage o r }

end Filing

/-- What is known of the answers. -/
def FilingAnswers : (o : Op) → o.Ret → Prop
  | .findSessionByIdWithoutTenantScope s, some session => session.id = s
  | _, _ => True

/-- What a call does, one constructor for each step it can take. -/
inductive Filing.Move (input : IngestWebhookInput) :
    FilingStage → (o : Op) → o.Ret → FilingStage → Prop where
  | unknown {s : Uuid} :
      Move input .reading (.findSessionByIdWithoutTenantScope s) none .reading
  | found {s : Uuid} {session : StoredSessionRecord} :
      Move input .reading (.findSessionByIdWithoutTenantScope s) (some session) (.found session)
  | clock {session : StoredSessionRecord} {now : Date} :
      Move input (.found session) .clockNow now (.found session)
  | identified {session : StoredSessionRecord} {id : Uuid} :
      Move input (.found session) .generate id (.identified session)
  | begun {session : StoredSessionRecord} {t : Nat}
      (authenticated : Authenticates environment input session) :
      Move input (.identified session) (.begin none) t (.begun t)
  | known {t : Nat} {delivery : WebhookDeliveryRepository.RecordWebhookDeliveryInput}
      (names : Filing.Names environment ⟨input, .begun t⟩ delivery.whatsAppSessionId
        delivery.providerEventId) :
      Move input (.begun t) (.recordDelivery t delivery) none (.known t delivery.providerEventId)
  | recorded {t : Nat} {delivery : WebhookDeliveryRepository.RecordWebhookDeliveryInput}
      {row : WebhookDeliveryRecord}
      (names : Filing.Names environment ⟨input, .begun t⟩ delivery.whatsAppSessionId
        delivery.providerEventId) :
      Move input (.begun t) (.recordDelivery t delivery) (some row) (.recorded t row)
  | queued {t : Nat} {delivery : WebhookDeliveryRecord} {job : WebhookJob} {u : Unit}
      (names : job.webhookDeliveryId = delivery.id) :
      Move input (.recorded t delivery) (.enqueueWebhookProcess t job) u (.queued t delivery)
  | left {t : Nat} {event : String} {u : Unit} :
      Move input (.known t event) (.commit t) u (.filed event)
  | filed {t : Nat} {delivery : WebhookDeliveryRecord} {u : Unit} :
      Move input (.queued t delivery) (.commit t) u (.filed delivery.providerEventId)

theorem Filing.move {q : Filing} {o : Op} {r : o.Ret} (ho : q.Allows environment o) :
    Filing.Move environment q.input q.stage o r (q.advance o r).stage := by
  obtain ⟨input, stage⟩ := q
  cases stage with
  | reading =>
    cases o with
    | findSessionByIdWithoutTenantScope s => cases r with
      | none => exact .unknown
      | some session => exact .found
    | _ => cases ho
  | found session =>
    cases o with
    | clockNow => exact .clock
    | generate => exact .identified
    | _ => cases ho
  | identified session =>
    cases o with
    | begin a =>
      obtain ⟨rfl, authenticated⟩ := ho
      exact .begun authenticated
    | _ => cases ho
  | begun t =>
    cases o with
    | recordDelivery t' delivery =>
      obtain ⟨rfl, names⟩ := ho
      cases r with
      | none => exact .known names
      | some row => exact .recorded names
    | _ => cases ho
  | known t event =>
    cases o with
    | commit t' =>
      obtain rfl : t' = t := ho
      exact .left
    | _ => cases ho
  | recorded t delivery =>
    cases o with
    | enqueueWebhookProcess t' job =>
      obtain ⟨rfl, names⟩ := ho
      exact .queued names
    | _ => cases ho
  | queued t delivery =>
    cases o with
    | commit t' =>
      obtain rfl : t' = t := ho
      exact .filed
    | _ => cases ho
  | filed event => cases o <;> cases ho

@[reducible] def filingTypestate : Typestate operations where
  Phase := Filing
  Allows := Filing.Allows environment
  advance := Filing.advance

end PublicApi

end NotificationPlatform
