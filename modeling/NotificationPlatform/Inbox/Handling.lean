import NotificationPlatform.Platform.Machine

/-!
# What a call of `process` may do next

A third typestate over the same programs, for the calls that process callbacks. The phase of a call
is the delivery it claimed, the notification it found, and what became of its update. Every
operation of a call names the delivery it was started for, the connection that delivery was filed
for, or the notification it found there.
-/

namespace NotificationPlatform

open Interleaving Relational ProcessWebhookService

/-- The message a delivery acknowledges, and how far. -/
def WebhookDeliveryRecord.receipt? (delivery : WebhookDeliveryRecord) :
    Option (String × DeliveryAcknowledgement) :=
  match toProviderEvent (storedEnvelope delivery) with
  | .message_acknowledgement message received true => some (message, received)
  | _ => none

/-- Where an acknowledgement takes a row; `none` is a row that is there already. -/
def NotificationRecord.verdict (r : NotificationRecord) (received : DeliveryAcknowledgement) :
    Option DeliveryAcknowledgement :=
  let merged := mergeAcknowledgements (currentAcknowledgement r) received
  if merged = currentAcknowledgement r ∧
      r.providerAcknowledgement = (currentAcknowledgement r).value then none
  else some merged

/-! ## Phases -/

/-- How far a call of `process` is. -/
inductive Handling where
  | unclaimed (deliveryId : Uuid)
  | claimed (delivery : WebhookDeliveryRecord)
  /-- It looked for the notification the delivery acknowledges. -/
  | looked (delivery : WebhookDeliveryRecord) (found : Option NotificationRecord)
  /-- The update changed no row; its entry is still to be appended. -/
  | missed (delivery : WebhookDeliveryRecord) (input : AcknowledgementInput)
  /-- What was received is recorded. -/
  | recorded (delivery : WebhookDeliveryRecord)
  | finished
  /-- A call of another service. -/
  | elsewhere

namespace Handling

/-- The update a call asks for of the row it found. -/
def Writes (delivery : WebhookDeliveryRecord) (r : NotificationRecord)
    (input : AcknowledgementInput) : Prop :=
  ∃ message received merged now, delivery.receipt? = some (message, received) ∧
    r.verdict received = some merged ∧ input = acknowledgementInput r merged received now

/-- What was found leaves nothing to record. -/
def Leaves (delivery : WebhookDeliveryRecord) : Option NotificationRecord → Prop
  | none => True
  | some r => ∀ message received, delivery.receipt? = some (message, received) →
      r.verdict received = none

def Allows : Handling → Op → Prop
  | elsewhere, _ => True
  | unclaimed d, .claimForProcessing deliveryId => deliveryId = d
  | claimed _, .clockNow | looked _ _, .clockNow | recorded _, .clockNow => True
  | claimed c, .invalidateAccountLimits s | claimed c, .recordStatus s _
  | claimed c, .recordAccountLimits s _ | claimed c, .findSessionByIdWithoutTenantScope s =>
    s = c.whatsAppSessionId
  | claimed c, .findByProviderMessageId s message =>
    s = c.whatsAppSessionId ∧ ∃ received, c.receipt? = some (message, received)
  | claimed c, .markProcessed input => input.deliveryId = c.id ∧ c.receipt? = none
  | looked _ found, .throwException _ => found = none
  | looked c found, .acknowledgementTransition input => ∃ r, found = some r ∧ Writes c r input
  | looked c found, .markProcessed input => input.deliveryId = c.id ∧ Leaves c found
  | missed _ input, .appendEvent event => event = input.event
  | recorded c, .markProcessed input => input.deliveryId = c.id
  | _, _ => False

def advance : Handling → (o : Op) → o.Ret → Handling
  | unclaimed _, .claimForProcessing _, none => finished
  | unclaimed _, .claimForProcessing _, some c => claimed c
  | claimed c, .findByProviderMessageId _ _, found => looked c found
  | claimed _, .markProcessed _, _ => finished
  | looked c _, .acknowledgementTransition _, true => recorded c
  | looked c _, .acknowledgementTransition input, false => missed c input
  | looked _ _, .markProcessed _, _ => finished
  | missed c _, .appendEvent _, _ => recorded c
  | recorded _, .markProcessed _, _ => finished
  | q, _, _ => q

def initial : Request → Handling
  | .process d => unclaimed d
  | _ => elsewhere

end Handling

@[reducible] def handlingTypestate : Typestate operations where
  Phase := Handling
  Allows := Handling.Allows
  advance := Handling.advance

/-- What is known of every answer: a row that was asked for is the row of that name. -/
def Finds : (o : Op) → o.Ret → Prop
  | .claimForProcessing d, some c => c.id = d
  | .findSessionByIdWithoutTenantScope s, some r => r.id = s
  | .findByProviderMessageId s message, some r =>
    r.whatsAppSessionId = s ∧ r.providerMessageId = some message
  | _, _ => True

theorem finds_exec {w w' : World} {o : Op} {c : Choice} {r : o.Ret}
    (h : exec w o c = some (r, w')) : Finds o r := by
  cases o <;> try trivial
  case claimForProcessing d =>
    cases r with
    | none => trivial
    | some r =>
      obtain ⟨hr, -⟩ := Prod.mk.inj (Option.some.inj (Choice.quietly_eq_some.1 h).2)
      obtain ⟨old, hold, -, rfl⟩ := Table.updateAt_eq_some.1 hr
      exact Table.key_of_find? hold
  case findSessionByIdWithoutTenantScope s =>
    cases r with
    | none => trivial
    | some r =>
      obtain ⟨hr, -⟩ := Prod.mk.inj (Option.some.inj (Choice.quietly_eq_some.1 h).2)
      exact Table.key_of_find? hr
  case findByProviderMessageId s message =>
    cases r with
    | none => trivial
    | some r =>
      obtain ⟨hr, -⟩ := Prod.mk.inj (Option.some.inj (Choice.quietly_eq_some.1 h).2)
      have hfound := List.find?_some hr
      simp only [decide_eq_true_eq] at hfound
      exact hfound

/-! ## `process` -/

section Conformance

variable {configuration : Configuration} {c : WebhookDeliveryRecord} {message : String}
  {received : DeliveryAcknowledgement}

abbrev Handles {α : Type} (q : Handling) (x : Program α) (Q : Handling → Prop) : Prop :=
  Conforms handlingTypestate Finds q x fun q' _ => Q q'

/-- Nothing is left but to mark the delivery. -/
def Handling.Settled (c : WebhookDeliveryRecord) : Handling → Prop
  | claimed c' => c' = c ∧ c.receipt? = none
  | looked c' found => c' = c ∧ Leaves c found
  | recorded c' => c' = c
  | _ => False

theorem handles_mark {q : Handling} {result : ProcessWebhookResult} (hq : q.Settled c) :
    Handles q (do
      let now ← perform .clockNow
      perform (.markProcessed
        { deliveryId := c.id, outcome := result.outcome, detail := result.detail, now })
      return result) (· = .finished) := by
  cases q <;> try exact hq.elim
  case claimed =>
    obtain ⟨rfl, hnone⟩ := hq
    exact ⟨trivial, fun now _ => ⟨⟨rfl, hnone⟩, fun _ _ => rfl⟩⟩
  case looked =>
    obtain ⟨rfl, hleaves⟩ := hq
    exact ⟨trivial, fun now _ => ⟨⟨rfl, hleaves⟩, fun _ _ => rfl⟩⟩
  case recorded =>
    cases hq
    exact ⟨trivial, fun now _ => ⟨rfl, fun _ _ => rfl⟩⟩

theorem handles_reportUnmatched :
    Handles (.looked c none) (reportUnmatched c) (Handling.Settled c) := by
  refine ⟨trivial, fun now _ => ?_⟩
  change Conforms _ _ _ (if _ then _ else _) _
  split
  · exact ⟨rfl, fun e => nomatch e⟩
  · exact ⟨rfl, trivial⟩

theorem handles_advanceNotification {r : NotificationRecord}
    (hreceipt : c.receipt? = some (message, received)) :
    Handles (.looked c (some r)) (advanceNotification r received) (Handling.Settled c) := by
  unfold advanceNotification
  dsimp only
  split
  · rename_i hsame
    refine ⟨rfl, fun message' received' h => ?_⟩
    cases hreceipt.symm.trans h
    exact if_pos hsame
  · rename_i hchanged
    have hverdict : r.verdict received =
        some (mergeAcknowledgements (currentAcknowledgement r) received) := if_neg hchanged
    refine Conforms.bind (R := fun q _ => q = Handling.recorded c) ?_ fun q _ hq => hq ▸ rfl
    refine ⟨trivial, fun now _ => ⟨⟨r, rfl, message, received, _, now, hreceipt, hverdict, rfl⟩,
      fun transitioned _ => ?_⟩⟩
    cases transitioned with
    | true => exact rfl
    | false => exact ⟨rfl, fun _ _ => rfl⟩

theorem handles_doubtOnFailure (received : DeliveryAcknowledgement) :
    Handles (.claimed c) (doubtOnFailure c received) (· = .claimed c) := by
  unfold doubtOnFailure
  split
  · exact ⟨rfl, fun _ _ => rfl⟩
  · exact rfl

theorem handles_applyAcknowledgement (hreceipt : c.receipt? = some (message, received)) :
    Handles (.claimed c) (applyAcknowledgement c message received true) (Handling.Settled c) := by
  unfold applyAcknowledgement
  rw [if_pos rfl]
  refine Conforms.bind (handles_doubtOnFailure received) ?_
  rintro _ _ rfl
  refine ⟨⟨rfl, received, hreceipt⟩, fun found _ => ?_⟩
  cases found with
  | none => exact handles_reportUnmatched
  | some r => exact handles_advanceNotification hreceipt

theorem handles_applySessionStatus (hreceipt : c.receipt? = none) (status : ProviderSessionStatus)
    (phoneNumber pushName : Option String) (limits : Option AccountLimits) :
    Handles (.claimed c) (applySessionStatus configuration c status phoneNumber pushName limits)
      (Handling.Settled c) := by
  refine ⟨trivial, fun now _ => ⟨rfl, fun _ _ => ?_⟩⟩
  change Handles _ (recordReportedLimits configuration c limits >>= fun _ => _) _
  refine Conforms.bind (R := fun q _ => q = Handling.claimed c) ?_ ?_
  · unfold recordReportedLimits
    split
    · exact rfl
    · refine ⟨rfl, fun session hsession => ?_⟩
      cases session with
      | none => exact rfl
      | some session => exact ⟨trivial, fun now _ => ⟨hsession, fun _ _ => rfl⟩⟩
  · rintro _ _ rfl
    exact ⟨rfl, hreceipt⟩

theorem handles_applyEvent :
    Handles (.claimed c) (applyEvent configuration c (toProviderEvent (storedEnvelope c)))
      (Handling.Settled c) := by
  cases he : toProviderEvent (storedEnvelope c) with
  | message_acknowledgement message received fromUs =>
    cases fromUs with
    | true =>
      refine handles_applyAcknowledgement ?_
      rw [WebhookDeliveryRecord.receipt?, he]
    | false =>
      have hnone : c.receipt? = none := by rw [WebhookDeliveryRecord.receipt?, he]
      exact ⟨rfl, hnone⟩
  | session_status name status phoneNumber pushName limits =>
    refine handles_applySessionStatus ?_ status phoneNumber pushName limits
    rw [WebhookDeliveryRecord.receipt?, he]
  | unsupported eventType =>
    have hnone : c.receipt? = none := by rw [WebhookDeliveryRecord.receipt?, he]
    exact ⟨rfl, hnone⟩

theorem handles_process (d : Uuid) :
    Handles (.unclaimed d) (process configuration d) (· = .finished) := by
  refine ⟨rfl, fun delivery hid => ?_⟩
  cases delivery with
  | none => exact rfl
  | some c =>
    obtain rfl : c.id = d := hid
    change Handles _ (applyEvent configuration c (toProviderEvent (storedEnvelope c)) >>= _) _
    exact conforms_bind.2 (handles_applyEvent.mono fun q result hq => handles_mark hq)

end Conformance

/-! ## The discipline -/

theorem handles_program (configuration : Configuration) (request : Request) :
    Conforms handlingTypestate Finds (Handling.initial request) (program configuration request)
      fun q _ => q = .finished ∨ q = .elsewhere := by
  have helsewhere : ∀ x : Program Result,
      Conforms handlingTypestate Finds .elsewhere x fun q _ => q = .finished ∨ q = .elsewhere :=
    fun x => Conforms.mono (Conforms.of_uses (T := handlingTypestate) (q := Handling.elsewhere)
      (N := fun _ => True) (fun _ _ => ⟨trivial, fun _ => rfl⟩) x.uses_any) fun _ _ h => .inr h
  cases request with
  | process d =>
    change Conforms _ _ _ (Result.processed <$> _) _
    rw [← bind_pure_comp]
    exact Conforms.bind (handles_process d) fun q _ hq => .inl hq
  | _ => exact helsewhere _

/-- **Every call that processes a callback keeps to it.** -/
@[reducible] def handlingDiscipline (configuration : Configuration) :
    Discipline (platform configuration) where
  toTypestate := handlingTypestate
  initial := Handling.initial
  Answers := Finds
  Returns := fun _ q _ => q = .finished ∨ q = .elsewhere
  answers_exec := finds_exec
  conforms := handles_program configuration

end NotificationPlatform
