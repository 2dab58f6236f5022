import NotificationPlatform.Json.Value
import NotificationPlatform.Domain.Provider

/-!
# Reading the provider's callbacks

`packages/provider-whatsapp/src/webhook.ts` and `account-limits.ts`: the envelope schema, the
translation of an envelope into a `ProviderEvent`, and what of a payload is kept in the inbox. The
field readers are those of `Json`; a schema fails as a whole when one of its readers does.
-/

namespace NotificationPlatform

open Json (Value required optional nullish)

/-! ## The envelope -/

structure WebhookMe where
  id : Option String
  pushName : Option String
deriving Repr

structure WebhookEnvelope where
  id : String
  timestamp : Option ℚ
  session : String
  event : String
  payload : List (String × Value)
  me : Option WebhookMe

def parseWebhookMe (value : Value) : Option WebhookMe := do
  let fields ← value.asObject
  let id ← optional fields "id" Value.asString
  let pushName ← nullish fields "pushName" Value.asString
  return { id, pushName }

/-- `envelopeSchema`. A missing payload reads as an empty one. -/
def parseWebhookEnvelope (body : Value) : Option WebhookEnvelope := do
  let fields ← body.asObject
  let id ← required fields "id" Value.asNonEmptyString
  let timestamp ← optional fields "timestamp" Value.asNumber
  let session ← required fields "session" Value.asNonEmptyString
  let event ← required fields "event" Value.asNonEmptyString
  let payload ← optional fields "payload" Value.asObject
  let me ← nullish fields "me" parseWebhookMe
  return { id, timestamp, session, event, payload := payload.getD [], me }

/-! ## Account limits -/

/-- WAHA reports instants as Unix seconds. Zero and nonsense mean "not said". The product is a
double. -/
def fromUnixSeconds (seconds : Option ℚ) : Option JsDate :=
  match seconds with
  | none => none
  | some s => if s ≤ 0 then none else some (newDate (Binary64.round (s * 1000)))

/-- `reachoutTimelockSchema`. -/
def parseReachoutTimelock (fields : List (String × Value)) : Option ReachoutTimelock := do
  let isActive ← required fields "isActive" Value.asBool
  let timeEnforcementEnds ← nullish fields "timeEnforcementEnds" Value.asNumber
  let enforcementType ← nullish fields "enforcementType" Value.asText
  return { isActive, endsAt := fromUnixSeconds timeEnforcementEnds, enforcementType }

/-- `messageCappingSchema`. -/
def parseMessageCapping (fields : List (String × Value)) : Option NewChatQuota := do
  let cappingStatus ← required fields "cappingStatus" Value.asNonEmptyText
  let totalQuota ← required fields "totalQuota" Value.asNumber
  let usedQuota ← required fields "usedQuota" Value.asNumber
  let cycleEnd ← nullish fields "cycleEnd" Value.asNumber
  return { status := cappingStatus, total := totalQuota, used := usedQuota,
           cycleEndsAt := fromUnixSeconds cycleEnd }

def readReachoutTimelock (value : Option Value) : Option ReachoutTimelock :=
  (value.bind Value.asObject).bind parseReachoutTimelock

def readNewChatQuota (value : Option Value) : Option NewChatQuota :=
  (value.bind Value.asObject).bind parseMessageCapping

/-- The fields of the container the limits are read from. A missing or `null` container is an empty
one; anything else that is not an object has no fields to read. -/
def limitsContainer (container : Option Value) : List (String × Value) :=
  ((container.getD .null).asObject).getD []

def readAccountLimits (container : Option Value) : AccountLimits where
  reachoutTimelock :=
    readReachoutTimelock (Json.lookup (limitsContainer container) "reachoutTimelock")
  newChatQuota := readNewChatQuota (Json.lookup (limitsContainer container) "messageCapping")

/-! ## Translation -/

structure AcknowledgementPayload where
  id : String
  ack : ℚ
  fromMe : Option Bool

/-- `acknowledgementPayloadSchema`. -/
def parseAcknowledgementPayload (fields : List (String × Value)) :
    Option AcknowledgementPayload := do
  let id ← required fields "id" Value.asNonEmptyString
  let ack ← required fields "ack" Value.asNumber
  let fromMe ← optional fields "fromMe" Value.asBool
  return { id, ack, fromMe }

structure SessionStatusPayload where
  name : Option String
  status : String
  data : Option Value

/-- `sessionStatusPayloadSchema`. -/
def parseSessionStatusPayload (fields : List (String × Value)) :
    Option SessionStatusPayload := do
  let name ← optional fields "name" Value.asString
  let status ← required fields "status" Value.asString
  return { name, status, data := Json.lookup fields "data" }

def toPhoneNumber (providerIdentifier : Option String) : Option String :=
  providerIdentifier.bind fun identifier =>
    match identifier.toList.takeWhile (· ≠ '@') with
    | [] => none
    | digits => some (String.ofList ('+' :: digits))

/-- Translates one provider envelope into the platform's own vocabulary. Anything unrecognised
becomes `unsupported` rather than an error. -/
def toProviderEvent (envelope : WebhookEnvelope) : ProviderEvent :=
  if envelope.event = "message.ack" then
    match parseAcknowledgementPayload envelope.payload with
    | none => .unsupported envelope.event
    | some payload =>
      match toDeliveryAcknowledgement payload.ack with
      | none => .unsupported envelope.event
      | some acknowledgement =>
        .message_acknowledgement (normalizeProviderMessageId payload.id) acknowledgement
          (payload.fromMe.getD true)
  else if envelope.event = "session.status" ∨ envelope.event = "state.change" then
    match parseSessionStatusPayload envelope.payload with
    | none => .unsupported envelope.event
    | some payload =>
      let status := toProviderSessionStatus payload.status
      .session_status (payload.name.getD envelope.session) status
        (toPhoneNumber (envelope.me.bind (·.id))) (envelope.me.bind (·.pushName))
        (if status = .WORKING ∧ envelope.event = "session.status" then
          some (readAccountLimits payload.data)
        else none)
  else .unsupported envelope.event

/-- The fields of an acknowledgement the platform acts on. -/
def ACKNOWLEDGEMENT_FIELDS : List String := ["id", "fromMe", "ack", "ackName"]

/-- What of a callback is worth keeping in the inbox. -/
def toStoredPayload (event : String) (payload : List (String × Value)) : List (String × Value) :=
  if event ≠ "message.ack" then payload
  else ACKNOWLEDGEMENT_FIELDS.filterMap fun field =>
    (Json.lookup payload field).map fun value => (field, value)

end NotificationPlatform
