import NotificationPlatform.Service.ConnectionState

/-!
# Processing the inbox

`packages/composition/src/webhook/process-webhook.service.ts`, method by method. Logging is left
out.
-/

namespace NotificationPlatform

namespace ProcessWebhookService

structure ProcessWebhookResult where
  outcome : WebhookOutcome
  detail : Option String
deriving DecidableEq, Repr

def UNMATCHED_GRACE_MILLISECONDS : Int := 60000

/-- A failure acknowledgement is the one case where the provider can end a message's life after it
was accepted. -/
def resolveStatus (current : NotificationStatus) (merged : DeliveryAcknowledgement) :
    NotificationStatus :=
  if current ≠ .SENT then current
  else if isFailureAcknowledgement merged then .FAILED
  else if isDeliveredAcknowledgement merged then .DELIVERED
  else current

/-- The acknowledgement a row stands at. -/
def currentAcknowledgement (notification : NotificationRecord) : DeliveryAcknowledgement :=
  (DeliveryAcknowledgement.ofValue? notification.providerAcknowledgement).getD .pending

/-- What `recordAcknowledgement` writes on the row. -/
def acknowledgementChanges (notification : NotificationRecord) (merged : DeliveryAcknowledgement)
    (now : Date) : NotificationTransitionChanges where
  providerAcknowledgement := some merged.value
  deliveredAt :=
    if isDeliveredAcknowledgement merged ∧ notification.deliveredAt = none then some (some now)
    else none
  readAt :=
    if isReadAcknowledgement merged ∧ notification.readAt = none then some (some now) else none
  failedAt := if isFailureAcknowledgement merged then some (some now) else none
  failureCode :=
    if isFailureAcknowledgement merged then some (some .provider_acknowledgement_error) else none
  failureReason :=
    if isFailureAcknowledgement merged then
      some (some "WhatsApp reported that this message could not be delivered.")
    else none
  failureClassification := if isFailureAcknowledgement merged then some (some .PERMANENT) else none

/-- The transaction `recordAcknowledgement` makes of a row it read. -/
def acknowledgementInput (notification : NotificationRecord)
    (merged received : DeliveryAcknowledgement) (now : Date) : AcknowledgementInput where
  notification := notification
  nextStatus := resolveStatus notification.status merged
  changes := acknowledgementChanges notification merged now
  received := received
  merged := merged
  now := now

/-- The timeline entry is appended whether or not the update changed the row. -/
def recordAcknowledgement (notification : NotificationRecord)
    (merged received : DeliveryAcknowledgement) : Program Unit := do
  let now ← perform .clockNow
  let transitioned ← perform
    (.acknowledgementTransition (acknowledgementInput notification merged received now))
  if transitioned then return ()
  else perform (.appendEvent (acknowledgementInput notification merged received now).event)

def reportUnmatched (delivery : WebhookDeliveryRecord) : Program ProcessWebhookResult := do
  let now ← perform .clockNow
  if now - delivery.receivedAt < UNMATCHED_GRACE_MILLISECONDS then
    let e ← perform (.throwException "The notification for this acknowledgement does not exist yet; the callback will be retried.")
    nomatch e
  else return { outcome := .UNMATCHED
                detail := some "no notification has this provider message identifier" }

def doubtOnFailure (delivery : WebhookDeliveryRecord) (received : DeliveryAcknowledgement) :
    Program Unit :=
  if isFailureAcknowledgement received then
    ConnectionLimitsService.doubtReportedLimits delivery.whatsAppSessionId
  else return ()

/-- Advances a notification it read by an acknowledgement. -/
def advanceNotification (notification : NotificationRecord) (received : DeliveryAcknowledgement) :
    Program ProcessWebhookResult := do
  let current := currentAcknowledgement notification
  let merged := mergeAcknowledgements current received
  if merged = current ∧ notification.providerAcknowledgement = current.value then
    return { outcome := .IGNORED
             detail := some s!"already at {describeAcknowledgement current}" }
  else
    recordAcknowledgement notification merged received
    return { outcome := .APPLIED, detail := some (describeAcknowledgement merged) }

def applyAcknowledgement (delivery : WebhookDeliveryRecord) (providerMessageId : String)
    (received : DeliveryAcknowledgement) (fromUs : Bool) : Program ProcessWebhookResult := do
  if fromUs then
    doubtOnFailure delivery received
    let notification ← perform
      (.findByProviderMessageId delivery.whatsAppSessionId providerMessageId)
    match notification with
    | none => reportUnmatched delivery
    | some notification => advanceNotification notification received
  else return { outcome := .IGNORED, detail := some "inbound message" }

def recordReportedLimits (configuration : Configuration) (delivery : WebhookDeliveryRecord)
    (accountLimits : Option AccountLimits) : Program Unit :=
  match accountLimits with
  | none => return ()
  | some limits => do
    let session ← perform (.findSessionByIdWithoutTenantScope delivery.whatsAppSessionId)
    match session with
    | none => return ()
    | some session => ConnectionLimitsService.record configuration session (some limits) false

def applySessionStatus (configuration : Configuration) (delivery : WebhookDeliveryRecord)
    (status : ProviderSessionStatus) (phoneNumber pushName : Option String)
    (accountLimits : Option AccountLimits) : Program ProcessWebhookResult := do
  let now ← perform .clockNow
  perform (.recordStatus delivery.whatsAppSessionId
    { status, phoneNumber, pushName, lastError := none, now })
  recordReportedLimits configuration delivery accountLimits
  return { outcome := .APPLIED, detail := some s!"session {status.text}" }

def applyEvent (configuration : Configuration) (delivery : WebhookDeliveryRecord) :
    ProviderEvent → Program ProcessWebhookResult
  | .message_acknowledgement providerMessageId acknowledgement fromUs =>
    applyAcknowledgement delivery providerMessageId acknowledgement fromUs
  | .session_status _ status phoneNumber pushName accountLimits =>
    applySessionStatus configuration delivery status phoneNumber pushName accountLimits
  | .unsupported eventType =>
    return { outcome := .IGNORED, detail := some s!"unsupported event {eventType}" }

/-- The envelope `process` rebuilds from a stored delivery. -/
def storedEnvelope (delivery : WebhookDeliveryRecord) : WebhookEnvelope where
  id := delivery.providerEventId
  timestamp := none
  session := delivery.providerSessionName
  event := delivery.eventType
  payload := delivery.payload
  me := none

/-- Applies one recorded callback. -/
def process (configuration : Configuration) (deliveryId : Uuid) :
    Program ProcessWebhookResult := do
  let delivery ← perform (.claimForProcessing deliveryId)
  match delivery with
  | none => return { outcome := .IGNORED, detail := some "already processed" }
  | some delivery =>
    let result ← applyEvent configuration delivery (toProviderEvent (storedEnvelope delivery))
    let now ← perform .clockNow
    perform (.markProcessed
      { deliveryId, outcome := result.outcome, detail := result.detail, now })
    return result

end ProcessWebhookService

end NotificationPlatform
