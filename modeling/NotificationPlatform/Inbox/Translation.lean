import NotificationPlatform.Service.IngestWebhook
import NotificationPlatform.Service.ProcessWebhook

/-!
# Store, then translate

`ingest` keeps part of an envelope, and `process` translates what was kept. Acknowledgements survive
that. A session status does not: the inbox has no column for `me`, and a number no JSON text can
express comes back from `jsonb` as `null`, which the limits readers take for a missing field.
-/

namespace NotificationPlatform

open Json (Value lookup storedFields required optional nullish infiniteAt readableOnceStored)

/-! ## Account limits -/

/-- The report of a timelock that only an infinite number keeps from being read. -/
def timelockHidden (fields : List (String × Value)) : Bool :=
  (required fields "isActive" Value.asBool).isSome &&
    readableOnceStored fields "timeEnforcementEnds" Value.asNumber &&
    readableOnceStored fields "enforcementType" Value.asText &&
    (infiniteAt fields "timeEnforcementEnds" || infiniteAt fields "enforcementType")

/-- The report of a quota that only an infinite number keeps from being read. -/
def quotaHidden (fields : List (String × Value)) : Bool :=
  (required fields "cappingStatus" Value.asNonEmptyText).isSome &&
    (required fields "totalQuota" Value.asNumber).isSome &&
    (required fields "usedQuota" Value.asNumber).isSome && infiniteAt fields "cycleEnd"

theorem parseReachoutTimelock_stored (fields : List (String × Value)) :
    parseReachoutTimelock (storedFields fields) = parseReachoutTimelock fields ↔
      timelockHidden fields = false := by
  have hends := @Json.nullish_infinite _ fields "timeEnforcementEnds" _ Value.asNumber_infinite
  have htype := @Json.nullish_infinite _ fields "enforcementType" _ Value.asText_infinite
  simp only [parseReachoutTimelock, timelockHidden, readableOnceStored,
    Json.required_stored Value.asBool_stored, Json.nullish_stored Value.asNumber_stored,
    Json.nullish_stored Value.asText_stored]
  generalize required fields "isActive" Value.asBool = active
  generalize nullish fields "timeEnforcementEnds" Value.asNumber = ends at hends ⊢
  generalize nullish fields "enforcementType" Value.asText = type at htype ⊢
  cases active with
  | none => simp
  | some active =>
    cases hx : infiniteAt fields "timeEnforcementEnds" <;>
      cases hy : infiniteAt fields "enforcementType" <;>
      simp only [hx, hy, true_implies] at hends htype
    · simp
    · subst htype
      cases ends <;> simp
    · subst hends
      cases type <;> simp
    · subst hends htype
      simp

theorem parseMessageCapping_stored (fields : List (String × Value)) :
    parseMessageCapping (storedFields fields) = parseMessageCapping fields ↔
      quotaHidden fields = false := by
  have hend := @Json.nullish_infinite _ fields "cycleEnd" _ Value.asNumber_infinite
  simp only [parseMessageCapping, quotaHidden,
    Json.required_stored Value.asNonEmptyText_stored,
    Json.required_stored Value.asNumber_stored, Json.nullish_stored Value.asNumber_stored]
  generalize required fields "cappingStatus" Value.asNonEmptyText = status
  generalize required fields "totalQuota" Value.asNumber = total
  generalize required fields "usedQuota" Value.asNumber = used
  generalize nullish fields "cycleEnd" Value.asNumber = cycleEnd at hend ⊢
  cases status <;> cases total <;> cases used <;> try simp
  cases hx : infiniteAt fields "cycleEnd" with
  | false => simp
  | true =>
    rw [hx] at hend
    rw [hend rfl]
    simp

/-- The part of a report that is an object, as the readers see it. -/
def reportAt (container : Option Value) (name : String) : Option (List (String × Value)) :=
  (lookup (limitsContainer container) name).bind Value.asObject

/-- No part of a report is unreadable only because of an infinite number. -/
def reportsKept (container : Option Value) : Bool :=
  (reportAt container "reachoutTimelock").all (!timelockHidden ·) &&
    (reportAt container "messageCapping").all (!quotaHidden ·)

theorem limitsContainer_stored (container : Option Value) :
    limitsContainer (container.map Value.stored) = storedFields (limitsContainer container) := by
  cases container with
  | none => rfl
  | some v =>
    simp only [limitsContainer, Option.map_some, Option.getD_some, Value.asObject_stored]
    cases v.asObject <;> rfl

theorem reportAt_stored (container : Option Value) (name : String) :
    reportAt (container.map Value.stored) name = (reportAt container name).map storedFields := by
  simp only [reportAt, limitsContainer_stored, Json.lookup_storedFields]
  cases lookup (limitsContainer container) name with
  | none => rfl
  | some v => simp

theorem readAccountLimits_stored (container : Option Value) :
    readAccountLimits (container.map Value.stored) = readAccountLimits container ↔
      reportsKept container = true := by
  have hread : ∀ c, readAccountLimits c =
      ⟨(reportAt c "reachoutTimelock").bind parseReachoutTimelock,
        (reportAt c "messageCapping").bind parseMessageCapping⟩ := fun _ => rfl
  rw [hread, hread, reportAt_stored, reportAt_stored]
  simp only [reportsKept, AccountLimits.mk.injEq, Bool.and_eq_true]
  refine and_congr ?_ ?_
  · cases reportAt container "reachoutTimelock" with
    | none => simp
    | some fields => simpa using parseReachoutTimelock_stored fields
  · cases reportAt container "messageCapping" with
    | none => simp
    | some fields => simpa using parseMessageCapping_stored fields

/-! ## Events -/

theorem parseAcknowledgementPayload_stored (fields : List (String × Value)) :
    parseAcknowledgementPayload (storedFields (toStoredPayload "message.ack" fields)) =
      parseAcknowledgementPayload fields := by
  have hkept : ∀ name ∈ ACKNOWLEDGEMENT_FIELDS,
      lookup (toStoredPayload "message.ack" fields) name = lookup fields name := by
    intro name hname
    have hfilter := @Json.lookup_filterMap fields name ACKNOWLEDGEMENT_FIELDS (by decide)
    rw [if_pos hname] at hfilter
    exact hfilter
  simp only [parseAcknowledgementPayload, Json.required_stored Value.asNonEmptyString_stored,
    Json.required_stored Value.asNumber_stored, Json.optional_stored Value.asBool_stored,
    Json.required_congr (hkept "id" (by decide)), Json.required_congr (hkept "ack" (by decide)),
    Json.optional_congr (hkept "fromMe" (by decide))]

theorem parseSessionStatusPayload_stored (fields : List (String × Value)) :
    parseSessionStatusPayload (storedFields fields) =
      (parseSessionStatusPayload fields).map fun payload =>
        { payload with data := payload.data.map Value.stored } := by
  simp only [parseSessionStatusPayload, Json.optional_stored Value.asString_stored,
    Json.required_stored Value.asString_stored, Json.lookup_storedFields]
  generalize optional fields "name" Value.asString = name
  generalize required fields "status" Value.asString = status
  cases name <;> cases status <;> rfl

/-- What `process` writes of an event: everything but the name the provider gave the session. -/
def ProviderEvent.written : ProviderEvent → ProviderEvent
  | .session_status _ status phoneNumber pushName accountLimits =>
    .session_status "" status phoneNumber pushName accountLimits
  | event => event

/-- What of an envelope storing must not lose: a readable session status says nothing of the
account, and its report of limits is kept. -/
def storable (envelope : WebhookEnvelope) : Bool :=
  !(envelope.event = "session.status" || envelope.event = "state.change") ||
    (parseSessionStatusPayload envelope.payload).all fun payload =>
      (toPhoneNumber (envelope.me.bind (·.id))).isNone &&
        (envelope.me.bind (·.pushName)).isNone &&
        (!(toProviderSessionStatus payload.status = .WORKING && envelope.event = "session.status") ||
          reportsKept payload.data)

/-- The envelope `process` rebuilds of what was recorded, in the words of the original. -/
def WebhookEnvelope.stored (envelope : WebhookEnvelope) : WebhookEnvelope where
  id := envelope.id
  timestamp := none
  session := envelope.session
  event := envelope.event
  payload := storedFields (toStoredPayload envelope.event envelope.payload)
  me := none

theorem translate_stored (envelope : WebhookEnvelope) :
    (toProviderEvent envelope.stored).written = (toProviderEvent envelope).written ↔
      storable envelope = true := by
  unfold toProviderEvent storable
  by_cases hack : envelope.event = "message.ack"
  · have hkept := parseAcknowledgementPayload_stored envelope.payload
    simp [WebhookEnvelope.stored, hack, hkept]
  · by_cases hstatus : envelope.event = "session.status" ∨ envelope.event = "state.change"
    · have hpayload : toStoredPayload envelope.event envelope.payload = envelope.payload := by
        simp [toStoredPayload, hack]
      have hevent : (envelope.event = "session.status" || envelope.event = "state.change") =
          true := by simpa using hstatus
      simp only [WebhookEnvelope.stored, hack, hstatus, if_true, if_false, hpayload,
        parseSessionStatusPayload_stored, hevent, Bool.not_true, Bool.false_or]
      cases parseSessionStatusPayload envelope.payload with
      | none => simp
      | some payload =>
        have hlimits := readAccountLimits_stored payload.data
        have hphone : toPhoneNumber none = none := rfl
        simp only [Option.map_some, ProviderEvent.written, ProviderEvent.session_status.injEq,
          Option.bind_none, hphone, true_and, Option.all_some, Bool.and_eq_true,
          Option.isNone_iff_eq_none, eq_comm (a := (none : Option String)), and_assoc]
        refine and_congr_right fun _ => and_congr_right fun _ => ?_
        by_cases hworking : toProviderSessionStatus payload.status = .WORKING ∧
            envelope.event = "session.status"
        · simpa [hworking] using hlimits
        · simp only [hworking, if_false, true_iff]
          rw [not_and_or] at hworking
          rcases hworking with h | h <;> simp [h]
    · have hevent : (envelope.event = "session.status" || envelope.event = "state.change") =
          false := by simpa using hstatus
      simp [WebhookEnvelope.stored, hack, hstatus, hevent]

/-! ## What is stored and rebuilt -/

/-- A delivery as it was filed, some number of processing attempts later. -/
theorem storedEnvelope_filed {session : WhatsAppSessionRecord} {envelope : WebhookEnvelope}
    {deliveryId : Uuid} {now : Date} {w w' : World} {delivery : WebhookDeliveryRecord}
    (h : WebhookDeliveryRepository.record
      (IngestWebhookService.filing session envelope deliveryId now) w = some (some delivery, w'))
    (attempts : Nat) : ProcessWebhookService.storedEnvelope
      { delivery with processingAttempts := attempts } = envelope.stored := by
  simp only [WebhookDeliveryRepository.record] at h
  split at h
  · cases h
  · obtain ⟨t, -, ht⟩ := Option.map_eq_some_iff.1 h
    cases ht
    rfl

/-- **Store, then translate.** What `process` writes of a filed envelope is what the envelope says,
exactly if storing loses nothing of it. -/
theorem stored_translation_iff {session : WhatsAppSessionRecord} {envelope : WebhookEnvelope}
    {deliveryId : Uuid} {now : Date} {w w' : World} {delivery : WebhookDeliveryRecord}
    (h : WebhookDeliveryRepository.record
      (IngestWebhookService.filing session envelope deliveryId now) w = some (some delivery, w'))
    (attempts : Nat) :
    (toProviderEvent (ProcessWebhookService.storedEnvelope
      { delivery with processingAttempts := attempts })).written =
        (toProviderEvent envelope).written ↔ storable envelope = true := by
  rw [storedEnvelope_filed h]
  exact translate_stored envelope

namespace Paired

/-- The callback that a phone was paired with the connection. -/
def body : Value := .object [
  ("id", .string "evt_1"), ("session", .string "main"), ("event", .string "session.status"),
  ("payload", .object [("status", .string "WORKING")]),
  ("me", .object [("id", .string "5511999990000@c.us"), ("pushName", .string "Storefront")])]

def envelope : WebhookEnvelope where
  id := "evt_1"
  timestamp := none
  session := "main"
  event := "session.status"
  payload := [("status", .string "WORKING")]
  me := some ⟨some "5511999990000@c.us", some "Storefront"⟩

def session : WhatsAppSessionRecord where
  id := 2
  applicationId := 1
  providerSessionName := "main"
  status := .STARTING
  phoneNumber := none
  pushName := none
  sendPacingMinimumSeconds := 0
  sendPacingMaximumSeconds := 0
  nextSendAllowedAt := 0
  sendingPausedUntil := none
  sendingPausedReason := none
  accountLimits := none
  accountLimitsCheckedAt := none
  lastStatusAt := 0
  lastError := none
  updatedAt := 0

/-- The row it is filed as. -/
def delivery : WebhookDeliveryRecord where
  id := 9
  applicationId := 1
  whatsAppSessionId := 2
  providerEventId := "evt_1"
  eventType := "session.status"
  providerSessionName := "main"
  payload := [("status", .string "WORKING")]
  receivedAt := 0
  processedAt := none
  processingAttempts := 0
  outcome := none
  outcomeDetail := none

end Paired

/-- It is filed. -/
theorem paired_filed : ∃ w', WebhookDeliveryRepository.record
    (IngestWebhookService.filing Paired.session Paired.envelope 9 0) World.empty =
      some (some Paired.delivery, w') := ⟨_, rfl⟩

theorem stored_translation_iff_paired :
    (toProviderEvent (ProcessWebhookService.storedEnvelope
      { Paired.delivery with processingAttempts := 1 })).written =
        (toProviderEvent Paired.envelope).written ↔ storable Paired.envelope = true := by
  obtain ⟨w', h⟩ := paired_filed
  exact stored_translation_iff h 1

/-- The number and the name of the paired account are lost in the inbox. -/
theorem paired_account_lost : parseWebhookEnvelope Paired.body = some Paired.envelope ∧
    (∃ w', WebhookDeliveryRepository.record
      (IngestWebhookService.filing Paired.session Paired.envelope 9 0) World.empty =
        some (some Paired.delivery, w')) ∧
    (toProviderEvent (ProcessWebhookService.storedEnvelope Paired.delivery)).written ≠
      (toProviderEvent Paired.envelope).written :=
  ⟨rfl, paired_filed, by decide +kernel⟩

end NotificationPlatform
