import NotificationPlatform.Provider.SentMessage
import NotificationPlatform.Inbox.Isolation
import NotificationPlatform.Inbox.Translation

/-!
# Where a send and its receipts meet

The row of a notification holds the identifier the answer of its send named, and keeps it. A call of
`process` looks for the row under the identifier its delivery names. Both were reduced to the raw
identifier before, so they are one text exactly if they name the same message.
-/

namespace NotificationPlatform

open Interleaving Relational ProcessWebhookService

/-! ## What a callback acknowledges -/

namespace WebhookEnvelope

/-- The identifier of the message a callback acknowledges, as the provider wrote it. -/
def acknowledged? (envelope : WebhookEnvelope) : Option String :=
  if envelope.event = "message.ack" then
    (parseAcknowledgementPayload envelope.payload).map (·.id)
  else none

/-- It acknowledges message `r`, by its raw identifier or a serialised one. -/
def Acknowledges (envelope : WebhookEnvelope) (r : RawMessageId) : Prop :=
  ∃ identifier, envelope.acknowledged? = some identifier ∧ r.NamedBy identifier

theorem acknowledged?_stored (envelope : WebhookEnvelope) :
    envelope.stored.acknowledged? = envelope.acknowledged? := by
  by_cases hack : envelope.event = "message.ack"
  · simp [acknowledged?, stored, hack, parseAcknowledgementPayload_stored]
  · simp [acknowledged?, stored, hack]

end WebhookEnvelope

theorem receipt?_congr {c c' : WebhookDeliveryRecord} (h : storedEnvelope c = storedEnvelope c') :
    c.receipt? = c'.receipt? := by
  rw [WebhookDeliveryRecord.receipt?, h, WebhookDeliveryRecord.receipt?]

/-- The message of a receipt is the reduced identifier of what it acknowledges. -/
theorem acknowledged?_of_receipt {c : WebhookDeliveryRecord} {message : String}
    {received : DeliveryAcknowledgement} (h : c.receipt? = some (message, received)) :
    ∃ identifier, (storedEnvelope c).acknowledged? = some identifier ∧
      message = normalizeProviderMessageId identifier := by
  unfold WebhookDeliveryRecord.receipt? at h
  split at h
  case h_2 => cases h
  rename_i message' received' hevent
  obtain ⟨rfl, rfl⟩ := Prod.mk.inj (Option.some.inj h)
  by_cases hack : (storedEnvelope c).event = "message.ack"
  · rw [toProviderEvent, if_pos hack] at hevent
    rw [WebhookEnvelope.acknowledged?, if_pos hack]
    cases hpayload : parseAcknowledgementPayload (storedEnvelope c).payload with
    | none =>
      rw [hpayload] at hevent
      cases hevent
    | some payload =>
      rw [hpayload] at hevent
      dsimp only at hevent
      split at hevent
      · cases hevent
      · exact ⟨payload.id, rfl, (ProviderEvent.message_acknowledgement.inj hevent).1.symm⟩
  · rw [toProviderEvent, if_neg hack] at hevent
    split at hevent
    · split at hevent <;> cases hevent
    · cases hevent

/-! ## What is filed -/

/-- Delivery `d` is what was filed of the envelope. -/
def World.Filed (w : World) (d : Uuid) (envelope : WebhookEnvelope) : Prop :=
  ∃ delivery, w.delivery d = some delivery ∧ storedEnvelope delivery = envelope.stored

section Runs

variable {configuration : Configuration} {P : System (platform configuration) →
  Label (platform configuration) → Prop} {w : World} {s s' : System (platform configuration)}
  {l : Label (platform configuration)} {i : Nat} {d : Uuid}

/-- A filed delivery says what it said, whatever happens. -/
theorem delivery_filed_step (hr : Run P (System.start w) s) (hs : s.step l = some s')
    {old : WebhookDeliveryRecord} (hold : s.world.delivery d = some old) :
    ∃ new, s'.world.delivery d = some new ∧ storedEnvelope new = storedEnvelope old := by
  cases (handled_run hr).stepped hs with
  | spawned _ _ _ world | crashed _ _ world => exact ⟨old, by rw [world]; exact hold, rfl⟩
  | advanced _ _ _ step =>
    obtain ⟨new, hnew, -, hsame⟩ := delivery_filed_exec step.exec hold
    exact ⟨new, hnew, hsame⟩
  | outside _ _ world => exact ⟨old, delivery_kept_outside world hold, rfl⟩

/-! ## Lookups -/

namespace Handling

/-- The delivery a call holds says what the filed one says. -/
def Copies (q : Handling) (w : World) : Prop :=
  ∀ c, q.delivery? = some c →
    ∃ r, w.delivery c.id = some r ∧ storedEnvelope r = storedEnvelope c

variable {q : Handling} {w w' : World} {o : Op} {r : o.Ret} {choice : Choice}

theorem Copies.of_none (h : q.delivery? = none) : q.Copies w := by
  intro c hc
  rw [h] at hc
  cases hc

theorem Copies.exec (h : q.Copies w)
    (he : NotificationPlatform.exec w o choice = some (r, w')) : q.Copies w' := by
  intro c hc
  obtain ⟨old, hold, hsame⟩ := h c hc
  obtain ⟨new, hnew, -, hkept⟩ := delivery_filed_exec he hold
  exact ⟨new, hnew, hkept.trans hsame⟩

theorem Copies.outside {e : Event} (h : q.Copies w)
    (he : NotificationPlatform.outside w e = some w') : q.Copies w' := by
  intro c hc
  obtain ⟨old, hold, hsame⟩ := h c hc
  exact ⟨old, delivery_kept_outside he hold, hsame⟩

/-- What a call holds of its delivery is the row it claimed. -/
theorem Copies.advance (h : q.Copies w) (ho : q.Allows o)
    (he : NotificationPlatform.exec w o choice = some (r, w')) : (q.advance o r).Copies w' := by
  have hkept := h.exec he
  cases q with
  | unclaimed d =>
    cases o <;> simp only [Allows] at ho
    cases r with
    | none => exact .of_none rfl
    | some c =>
      intro c' hc'
      cases hc'
      exact ⟨c, delivery_claimed he, rfl⟩
  | claimed c =>
    cases o <;> simp only [Allows] at ho <;> first | exact hkept | exact .of_none rfl
  | looked c found =>
    cases o <;> simp only [Allows] at ho <;> try first | exact hkept | exact .of_none rfl
    cases r <;> exact hkept
  | missed c input =>
    cases o <;> simp only [Allows] at ho
    exact hkept
  | recorded c => cases o <;> simp only [Allows] at ho <;> first | exact hkept | exact .of_none rfl
  | finished => cases o <;> simp only [Allows] at ho
  | elsewhere => exact .of_none rfl

end Handling

theorem copies_run (h : Run P (System.start w) s) {q : Handling} (hq : handlings s i = some q) :
    q.Copies s.world :=
  Discipline.run_each (D := handlingDiscipline configuration) Handling.Copies
    (fun request _ => by cases request <;> exact .of_none rfl) (fun hq ho _ he => hq.advance ho he)
    (fun hq he => hq.exec he) (fun hq he => hq.outside he) h hq

/-- **A call of `process` looks for the message its delivery names.** -/
theorem lookup_run (h : Run P (System.start w) s) (hi : s.requestOf i = some (.process d))
    {sessionId : Uuid} {key : String} {found : Option NotificationRecord}
    (hlookup : ⟨i, .findByProviderMessageId sessionId key, found⟩ ∈ s.trace) :
    ∃ delivery received, s.world.delivery d = some delivery ∧
      delivery.receipt? = some (key, received) := by
  induction h with
  | refl => cases hlookup
  | @tail s₁ s₂ l hr _ hs ih =>
    have hold : ⟨i, .findByProviderMessageId sessionId key, found⟩ ∈ s₁.trace →
        ∃ delivery received, s₂.world.delivery d = some delivery ∧
          delivery.receipt? = some (key, received) := by
      intro hmem
      obtain ⟨request, hrequest⟩ := (handled_run hr).quiet.requestOf hmem
      obtain rfl : request = .process d :=
        Option.some.inj ((System.requestOf_step hs hrequest).symm.trans hi)
      obtain ⟨old, received, hrow, hreceipt⟩ := ih hrequest hmem
      obtain ⟨new, hnew, hsame⟩ := delivery_filed_step hr hs hrow
      exact ⟨new, received, hnew, (receipt?_congr hsame).trans hreceipt⟩
    cases (handled_run hr).stepped hs with
    | spawned _ _ _ _ trace | crashed _ _ _ trace | outside _ _ _ trace =>
      exact hold (trace ▸ hlookup)
    | @advanced j choice o r q phases _ _ step =>
      rw [step.trace] at hlookup
      rcases List.mem_cons.1 hlookup with hlookup | hlookup
      · cases hlookup
        have hserves := serves_run hr (step.request ▸ hi) step.before
        have hcopies := copies_run hr step.before
        have hallowed := step.allowed
        cases q <;> try exact hallowed.elim
        case claimed c =>
          obtain ⟨-, received, hreceipt⟩ := hallowed
          obtain ⟨row, hrow, hsame⟩ := hcopies c rfl
          obtain rfl : c.id = d := hserves
          obtain ⟨new, hnew, hkept⟩ := delivery_filed_step hr hs hrow
          exact ⟨new, received, hnew, (receipt?_congr (hkept.trans hsame)).trans hreceipt⟩
        case elsewhere => exact hserves.elim
      · exact hold hlookup

/-! ## Sends -/

/-- What the phase of a call knows of an operation it performed. -/
def DeliveryPhase.Recalls : DeliveryPhase → (o : Op) → o.Ret → Prop
  | .dispatching p, .sendTextMessageAnswer, result => p.answer = some result
  | .dispatching p, .recordSent input, true =>
    p.recorded = some .SUCCEEDED ∧ input.notification.id = p.input.notificationId
  | .serving _ _, .recordSent _, _ => False
  | _, _, _ => True

/-- A well-formed dispatch claims the notification it was started for. -/
def DeliveryPhase.InOrder : DeliveryPhase → Prop
  | .dispatching p => p.WellFormed ∧ ∀ c, p.claimed = some c → c.id = p.input.notificationId
  | .serving _ _ => True

namespace DeliveryPhase

variable {q : DeliveryPhase} {o o' : Op} {r : o.Ret} {r' : o'.Ret}

theorem recalls_performed (hq : q.InOrder) (ho : q.Allows o) : (q.advance o r).Recalls o r := by
  cases q with
  | dispatching p =>
    cases o <;> try trivial
    case recordSent input =>
      cases r with
      | true => exact ⟨rfl, hq.2 _ ho.2.1⟩
      | false => trivial
  | serving request cancelled =>
    obtain ⟨cancelled', hserving⟩ := serving_advance request cancelled o r
    rw [hserving]
    cases o <;> try trivial
    obtain ⟨p, hp, -⟩ := dispatching_of_allows rfl ho
    cases hp

theorem recalls_advance (hq : q.InOrder) (ho : q.Allows o) (h : q.Recalls o' r') :
    (q.advance o r).Recalls o' r' := by
  cases q with
  | dispatching p =>
    have hm : Move p o r (p.advance o r) := move_of_allows ho
    cases o' <;> try trivial
    case sendTextMessageAnswer => exact hm.answer_persists hq.1 h
    case recordSent input =>
      cases r' with
      | true => exact ⟨hm.recorded_persists hq.1 h.1, h.2.trans (by rw [hm.input])⟩
      | false => trivial
  | serving request cancelled =>
    obtain ⟨cancelled', hserving⟩ := serving_advance request cancelled o r
    rw [hserving]
    cases o' <;> exact h

end DeliveryPhase

theorem recalls_run (hw : Fresh w) (h : Run P (System.start w) s) {e : Performed operations}
    (he : e ∈ s.trace) {q : DeliveryPhase} (hq : phases s e.thread = some q) :
    q.Recalls e.op e.ret := by
  refine Discipline.run_remembers (D := deliveryDiscipline configuration) DeliveryPhase.Recalls
    (J := DeliveryPhase.InOrder) ?_ DeliveryPhase.recalls_performed
    DeliveryPhase.recalls_advance h he hq
  intro s₁ j q hr hj
  have hsound := sound_run hw hr
  cases q with
  | dispatching p =>
    exact ⟨hsound.tokens.wellFormed hj, fun c hc => hsound.ledgers.named hj hc⟩
  | serving request cancelled => trivial

/-- **What a dispatch recorded of its send is what it was answered**, and the row keeps it. -/
theorem sent_row (hw : Fresh w) (h : Run P (System.start w) s) {sent : SentMessage}
    {input : RecordSentInput}
    (hanswer : ⟨i, .sendTextMessageAnswer, ProviderResult.succeeded sent⟩ ∈ s.trace)
    (hrecord : ⟨i, .recordSent input, true⟩ ∈ s.trace) :
    ∃ r, s.world.row input.notification.id = some r ∧
      r.providerMessageId = some sent.providerMessageId := by
  obtain ⟨request, hrequest⟩ := (disciplined_run h).quiet.requestOf hrecord
  obtain ⟨t, ht, -⟩ := Option.map_eq_some_iff.1 hrequest
  obtain ⟨q, hq⟩ : ∃ q, phases s i = some q := ⟨_, Discipline.phase_eq ht⟩
  have hrecorded := recalls_run hw h hrecord hq
  have hanswered := recalls_run hw h hanswer hq
  cases q with
  | dispatching p =>
    obtain ⟨r, sent', hrow, hanswer', hmessage⟩ := (sound_run hw h).accepted.recorded hq hrecorded.1
    cases hanswered.symm.trans hanswer'
    exact ⟨r, hrecorded.2 ▸ hrow, hmessage⟩
  | serving request cancelled => exact hrecorded.elim

/-! ## Where they meet -/

/-- Call `i` was answered with message `r`, in whatever shape and form, and recorded on notification
`n` that it was sent. -/
structure SentAs (s : System (platform configuration)) (i : Nat) (n : Uuid) (r : RawMessageId) :
    Prop where
  answered : ∃ body identifier, WahaProvider.sentMessageResponseSchema body = some identifier ∧
    r.NamedBy identifier ∧
    ⟨i, .sendTextMessageAnswer, WahaProvider.sendTextMessage (.succeeded (some body))⟩ ∈ s.trace
  recorded : ∃ input, ⟨i, .recordSent input, true⟩ ∈ s.trace ∧ input.notification.id = n

/-- Call `i` processes a callback that acknowledges message `r`, and looked for it under `key`. -/
structure LooksUp (s : System (platform configuration)) (i : Nat) (r : RawMessageId)
    (key : String) : Prop where
  acknowledges : ∃ d envelope, s.requestOf i = some (.process d) ∧ s.world.Filed d envelope ∧
    envelope.Acknowledges r
  looked : ∃ sessionId found, ⟨i, .findByProviderMessageId sessionId key, found⟩ ∈ s.trace

theorem SentAs.stored {n : Uuid} {r : RawMessageId} (hw : Fresh w) (hr : Run P (System.start w) s)
    (h : SentAs s i n r) :
    ∃ row, s.world.row n = some row ∧ row.providerMessageId = some r.value := by
  obtain ⟨body, identifier, hbody, hnamed, hanswer⟩ := h.answered
  obtain ⟨input, hrecord, rfl⟩ := h.recorded
  rw [WahaProvider.sendTextMessage_named hbody hnamed] at hanswer
  exact sent_row hw hr hanswer hrecord

theorem LooksUp.key_eq {r : RawMessageId} {key : String} (hr : Run P (System.start w) s)
    (h : LooksUp s i r key) : key = r.value := by
  obtain ⟨d, envelope, hi, ⟨filed, hfiled, hstored⟩, identifier, hacknowledged, hnamed⟩ :=
    h.acknowledges
  obtain ⟨sessionId, found, hlookup⟩ := h.looked
  obtain ⟨delivery, received, hdelivery, hreceipt⟩ := lookup_run hr hi hlookup
  cases hfiled.symm.trans hdelivery
  obtain ⟨identifier', hacknowledged', rfl⟩ := acknowledged?_of_receipt hreceipt
  rw [hstored, WebhookEnvelope.acknowledged?_stored, hacknowledged] at hacknowledged'
  cases hacknowledged'
  exact RawMessageId.normalize_eq_iff.2 hnamed

end Runs

/-- **Message identifiers meet.** A raw identifier reduces to itself, and so does whatever ends in
it after a prefix. The identifier a send left on its notification is the one an acknowledgement is
looked up under exactly if both name one message, and so are those of two acknowledgements. -/
theorem message_identifiers_meet (configuration : Configuration) :
    (∀ r : RawMessageId, normalizeProviderMessageId r.value = r.value ∧
      ∀ p, normalizeProviderMessageId (p ++ "_" ++ r.value) = r.value) ∧
    (∀ text, normalizeProviderMessageId (normalizeProviderMessageId text) =
      normalizeProviderMessageId text) ∧
    ∀ {w : World} {s : System (platform configuration)}, Fresh w → Run Any (System.start w) s →
      (∀ {i n r}, SentAs s i n r → ∃ row stored, s.world.row n = some row ∧
        row.providerMessageId = some stored ∧
          ∀ {j r' key}, LooksUp s j r' key → (key = stored ↔ r = r')) ∧
      ∀ {j j' r r' key key'}, LooksUp s j r key → LooksUp s j' r' key' →
        (key = key' ↔ r = r') := by
  refine ⟨fun r => ⟨?_, fun p => ?_⟩, normalizeProviderMessageId_idem, fun hw hr => ⟨?_, ?_⟩⟩
  · exact RawMessageId.normalize_eq_iff.2 r.namedBy_self
  · exact RawMessageId.normalize_eq_iff.2 (r.namedBy_serialized p)
  · intro i n r hsent
    obtain ⟨row, hrow, hstored⟩ := hsent.stored hw hr
    refine ⟨row, r.value, hrow, hstored, fun {j r' key} hlooks => ?_⟩
    rw [hlooks.key_eq hr, RawMessageId.ext_iff, eq_comm]
  · intro j j' r r' key key' hlooks hlooks'
    rw [hlooks.key_eq hr, hlooks'.key_eq hr, RawMessageId.ext_iff]

namespace Sample

def rawMessage : RawMessageId := ⟨"3EB0", by decide, by decide⟩

/-- What the send endpoint answers. -/
def keyAnswer : Json.Value :=
  .object [("key", .object [("fromMe", .bool true), ("id", .string "3EB0")])]

/-- The message was read, says WhatsApp, and names the account besides. -/
def readReceipt : WebhookEnvelope where
  id := "evt_2"
  timestamp := none
  session := "main"
  event := "message.ack"
  payload := [("id", .string "true_165515288932355@lid_3EB0"), ("ack", .number (.finite 3))]
  me := none

/-- Dispatch 0 records its send, and call 1 looks for the notification of the receipt. -/
def meets : List Step :=
  dispatching 1 ++ sends 0 0 true ++ accepted 0 "3EB0" 0 ++ [.advance 0 .nothing,
    .outside (.filed (IngestWebhookService.filing session readReceipt 9 0)), .spawn 1 (.process 9),
    .advance 1 .nothing, .advance 1 .nothing]

end Sample

theorem sentAs_meets : SentAs (Sample.run .RETRY Sample.meets) 0 7 Sample.rawMessage where
  answered := by
    have hbody : WahaProvider.sentMessageResponseSchema Sample.keyAnswer = some "3EB0" := by
      decide +kernel
    refine ⟨Sample.keyAnswer, "3EB0", hbody, Sample.rawMessage.namedBy_self, ?_⟩
    rw [WahaProvider.sendTextMessage_named hbody Sample.rawMessage.namedBy_self]
    exact List.mem_of_getElem? (i := 5) rfl
  recorded := ⟨Sample.success 1 "3EB0", List.mem_of_getElem? (i := 2) rfl, rfl⟩

theorem looksUp_meets : LooksUp (Sample.run .RETRY Sample.meets) 1 Sample.rawMessage "3EB0" where
  acknowledges := ⟨9, Sample.readReceipt, rfl, ⟨_, rfl, rfl⟩, _, rfl,
    Sample.rawMessage.namedBy_serialized "true_165515288932355@lid"⟩
  looked := ⟨2, _, List.mem_of_getElem? (i := 0) rfl⟩

theorem message_identifiers_meet_receipt : ∃ row,
    (Sample.run .RETRY Sample.meets).world.row 7 = some row ∧
      row.providerMessageId = some "3EB0" := by
  obtain ⟨-, -, h⟩ := message_identifiers_meet Sample.configuration
  obtain ⟨hstored, -⟩ := h (Sample.fresh_world .RETRY) (Sample.run_any .RETRY Sample.meets)
  obtain ⟨row, stored, hrow, hid, hkeys⟩ := hstored sentAs_meets
  have hkey : "3EB0" = stored := (hkeys looksUp_meets).2 rfl
  exact ⟨row, hrow, hkey ▸ hid⟩

end NotificationPlatform
