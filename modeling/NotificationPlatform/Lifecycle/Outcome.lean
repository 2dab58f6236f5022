import NotificationPlatform.Interleaving.Serial
import NotificationPlatform.Platform.Shapes
import NotificationPlatform.Delivery.Runs
import NotificationPlatform.Inbox.Handling
import NotificationPlatform.Inbox.Acknowledgements

/-!
# What the outcome columns say

A notification carries its outcome twice: in its status, and in the dates, the classification and
the message identifier that a dozen writers fill in. `OutcomeAgrees` says that the two tell the same story,
and that the ledger tells it too. Between calls that do not overlap it holds, as long as no failure
acknowledgement is processed for a notification that is already delivered: that one dates a failure
and keeps the status.
-/

namespace NotificationPlatform

open Interleaving Relational ProcessWebhookService

/-! ## Rows and their ledgers -/

/-- A send was recorded as successful. -/
def Succeeded (ledger : List SendAttemptRecord) : Prop :=
  ∃ a ∈ ledger, a.outcome = some .SUCCEEDED

/-- The outcome columns agree with the status and with the ledger. -/
structure OutcomeAgrees (r : NotificationRecord) (ledger : List SendAttemptRecord) : Prop where
  failed : r.failedAt.isSome = true ↔ r.status = .FAILED
  permanent : r.failureClassification = some .PERMANENT ↔ r.status = .FAILED
  delivered : r.deliveredAt.isSome = true ↔ r.status = .DELIVERED
  cancelled : r.cancelledAt.isSome = true ↔ r.status = .CANCELLED
  read : r.readAt.isSome = true → r.deliveredAt.isSome = true
  sent : r.sentAt.isSome = true ↔ Succeeded ledger
  message : r.providerMessageId.isSome = true ↔ Succeeded ledger

/-- The statuses of a notification of which nothing has come yet. -/
def NotificationStatus.isPending : NotificationStatus → Bool
  | .SCHEDULED | .QUEUED | .PROCESSING | .RETRYING => true
  | _ => false

/-- What is kept besides, so that the columns go on agreeing: only an accepted message has a name,
and the acknowledgement of a notification that ended says how. -/
structure Coherent (r : NotificationRecord) (ledger : List SendAttemptRecord) : Prop
    extends OutcomeAgrees r ledger where
  unnamed : r.status.isPending = true ∨ r.status = .CANCELLED → r.providerMessageId = none
  reached : r.status = .DELIVERED → r.providerAcknowledgement ≠ -1
  refused : r.status = .FAILED → r.providerMessageId.isSome = true →
    r.providerAcknowledgement = -1

/-- Nothing has come of the notification: every outcome column is empty. -/
structure Blank (r : NotificationRecord) (ledger : List SendAttemptRecord) : Prop where
  failedAt : r.failedAt = none
  unclassified : r.failureClassification ≠ some .PERMANENT
  deliveredAt : r.deliveredAt = none
  cancelledAt : r.cancelledAt = none
  readAt : r.readAt = none
  sentAt : r.sentAt = none
  message : r.providerMessageId = none
  unsent : ¬ Succeeded ledger

theorem NotificationStatus.isPending_ne {s : NotificationStatus} (h : s.isPending = true) :
    s ≠ .FAILED ∧ s ≠ .DELIVERED ∧ s ≠ .CANCELLED := by
  cases s <;> simp [NotificationStatus.isPending] at h ⊢

section Rows

variable {r new : NotificationRecord} {ledger ledger' : List SendAttemptRecord}

theorem Coherent.blank (h : Coherent r ledger) (hs : r.status.isPending = true) :
    Blank r ledger := by
  obtain ⟨hf, hd, hc⟩ := NotificationStatus.isPending_ne hs
  have hmessage : r.providerMessageId = none := h.unnamed (.inl hs)
  have hunsent : ¬ Succeeded ledger := by
    intro hsent
    have := h.message.2 hsent
    rw [hmessage] at this
    cases this
  have hdelivered : r.deliveredAt = none := Option.not_isSome_iff_eq_none.1 (mt h.delivered.1 hd)
  exact {
    failedAt := Option.not_isSome_iff_eq_none.1 (mt h.failed.1 hf)
    unclassified := mt h.permanent.1 hf
    deliveredAt := hdelivered
    cancelledAt := Option.not_isSome_iff_eq_none.1 (mt h.cancelled.1 hc)
    readAt := by
      refine Option.not_isSome_iff_eq_none.1 fun hread => ?_
      have := h.read hread
      rw [hdelivered] at this
      cases this
    sentAt := Option.not_isSome_iff_eq_none.1 (mt h.sent.1 hunsent)
    message := hmessage
    unsent := hunsent }

namespace Blank

theorem pending (h : Blank r ledger) (hs : r.status.isPending = true) : Coherent r ledger := by
  obtain ⟨hf, hd, hc⟩ := NotificationStatus.isPending_ne hs
  exact {
    failed := by simp [h.failedAt, hf]
    permanent := by simp [h.unclassified, hf]
    delivered := by simp [h.deliveredAt, hd]
    cancelled := by simp [h.cancelledAt, hc]
    read := by simp [h.readAt]
    sent := by simp [h.sentAt, h.unsent]
    message := by simp [h.message, h.unsent]
    unnamed := fun _ => h.message
    reached := fun h' => absurd h' hd
    refused := fun h' => absurd h' hf }

/-- The columns other than those of an outcome are free to change. -/
theorem change (h : Blank r ledger) (hl : Succeeded ledger' → Succeeded ledger)
    (hf : new.failedAt = r.failedAt) (hu : new.failureClassification ≠ some .PERMANENT)
    (hd : new.deliveredAt = r.deliveredAt) (hc : new.cancelledAt = r.cancelledAt)
    (hr : new.readAt = r.readAt) (hs : new.sentAt = r.sentAt)
    (hm : new.providerMessageId = r.providerMessageId) : Blank new ledger' where
  failedAt := hf.trans h.failedAt
  unclassified := hu
  deliveredAt := hd.trans h.deliveredAt
  cancelledAt := hc.trans h.cancelledAt
  readAt := hr.trans h.readAt
  sentAt := hs.trans h.sentAt
  message := hm.trans h.message
  unsent := mt hl h.unsent

/-- What `fail` makes of it. -/
theorem failed (h : Blank r ledger) (hs : new.status = .FAILED) (hf : new.failedAt.isSome = true)
    (hp : new.failureClassification = some .PERMANENT) (hd : new.deliveredAt = r.deliveredAt)
    (hc : new.cancelledAt = r.cancelledAt) (hr : new.readAt = r.readAt)
    (hsent : new.sentAt = r.sentAt) (hm : new.providerMessageId = r.providerMessageId) :
    Coherent new ledger where
  failed := by simp [hs, hf]
  permanent := by simp [hs, hp]
  delivered := by simp [hs, hd, h.deliveredAt]
  cancelled := by simp [hs, hc, h.cancelledAt]
  read := by simp [hr, h.readAt]
  sent := by simp [hsent, h.sentAt, h.unsent]
  message := by simp [hm, h.message, h.unsent]
  unnamed := fun _ => hm.trans h.message
  reached := by simp [hs]
  refused := by simp [hm, h.message]

/-- What a cancellation makes of it. -/
theorem cancelled (h : Blank r ledger) (hs : new.status = .CANCELLED)
    (hc : new.cancelledAt.isSome = true) (hf : new.failedAt = r.failedAt)
    (hp : new.failureClassification = r.failureClassification)
    (hd : new.deliveredAt = r.deliveredAt) (hr : new.readAt = r.readAt)
    (hsent : new.sentAt = r.sentAt) (hm : new.providerMessageId = r.providerMessageId) :
    Coherent new ledger where
  failed := by simp [hs, hf, h.failedAt]
  permanent := by simp [hs, hp, h.unclassified]
  delivered := by simp [hs, hd, h.deliveredAt]
  cancelled := by simp [hs, hc]
  read := by simp [hr, h.readAt]
  sent := by simp [hsent, h.sentAt, h.unsent]
  message := by simp [hm, h.message, h.unsent]
  unnamed := fun _ => hm.trans h.message
  reached := by simp [hs]
  refused := by simp [hs]

/-- What an accepted send makes of it. -/
theorem sent (h : Blank r ledger) (hs : new.status = .SENT) (hl : Succeeded ledger')
    (hsent : new.sentAt.isSome = true) (hm : new.providerMessageId.isSome = true)
    (hf : new.failedAt = r.failedAt) (hp : new.failureClassification = r.failureClassification)
    (hd : new.deliveredAt = r.deliveredAt) (hc : new.cancelledAt = r.cancelledAt)
    (hr : new.readAt = r.readAt) : Coherent new ledger' where
  failed := by simp [hs, hf, h.failedAt]
  permanent := by simp [hs, hp, h.unclassified]
  delivered := by simp [hs, hd, h.deliveredAt]
  cancelled := by simp [hs, hc, h.cancelledAt]
  read := by simp [hr, h.readAt]
  sent := by simp [hsent, hl]
  message := by simp [hm, hl]
  unnamed := by simp [hs, NotificationStatus.isPending]
  reached := by simp [hs]
  refused := by simp [hs]

end Blank

end Rows

/-! ## Acknowledgements -/

section Acknowledged

variable {r : NotificationRecord} {ledger : List SendAttemptRecord}
  {received merged : DeliveryAcknowledgement}

/-- What an acknowledgement makes of the row it was read for. -/
def NotificationRecord.acknowledged (r : NotificationRecord)
    (merged received : DeliveryAcknowledgement) (now : Date) : NotificationRecord :=
  (acknowledgementInput r merged received now).transition.apply r

/-- The columns that an acknowledgement leaves alone. -/
theorem Coherent.acknowledged_of {now : Date} (h : Coherent r ledger)
    (hp : (r.acknowledged merged received now).status.isPending = false ∧
      (r.acknowledged merged received now).status ≠ .CANCELLED)
    (hs : r.status ≠ .CANCELLED)
    (hf : (r.acknowledged merged received now).failedAt.isSome = true ↔
      (r.acknowledged merged received now).status = .FAILED)
    (hc : (r.acknowledged merged received now).failureClassification = some .PERMANENT ↔
      (r.acknowledged merged received now).status = .FAILED)
    (hd : (r.acknowledged merged received now).deliveredAt.isSome = true ↔
      (r.acknowledged merged received now).status = .DELIVERED)
    (hr : (r.acknowledged merged received now).readAt.isSome = true →
      (r.acknowledged merged received now).deliveredAt.isSome = true)
    (hreached : (r.acknowledged merged received now).status = .DELIVERED → merged ≠ .error)
    (hrefused : (r.acknowledged merged received now).status = .FAILED → merged = .error) :
    Coherent (r.acknowledged merged received now) ledger where
  failed := hf
  permanent := hc
  delivered := hd
  cancelled := ⟨fun h' => absurd (h.cancelled.1 h') hs, fun h' => absurd h' hp.2⟩
  read := hr
  sent := h.sent
  message := h.message
  unnamed := by
    rintro (h' | h')
    · rw [hp.1] at h'
      cases h'
    · exact absurd h' hp.2
  reached := fun h' => by
    have hne := hreached h'
    change merged.value ≠ -1
    exact fun hv => hne (DeliveryAcknowledgement.value_injective hv)
  refused := fun h' _ => by
    change merged.value = -1
    rw [hrefused h']
    rfl

theorem Coherent.acknowledged_sent (h : Coherent r ledger) (hs : r.status = .SENT) (now : Date) :
    Coherent (r.acknowledged merged received now) ledger := by
  have hfailed : r.failedAt = none :=
    Option.not_isSome_iff_eq_none.1 (mt h.failed.1 (by simp [hs]))
  have hpermanent : r.failureClassification ≠ some .PERMANENT := mt h.permanent.1 (by simp [hs])
  have hdelivered : r.deliveredAt = none :=
    Option.not_isSome_iff_eq_none.1 (mt h.delivered.1 (by simp [hs]))
  have hread : r.readAt = none := by
    refine Option.not_isSome_iff_eq_none.1 fun hread => ?_
    have := h.read hread
    rw [hdelivered] at this
    cases this
  refine h.acknowledged_of ?_ (by simp [hs]) ?_ ?_ ?_ ?_ ?_ ?_ <;>
    cases merged <;>
    simp [NotificationRecord.acknowledged, acknowledgementInput, AcknowledgementInput.transition,
      NotificationRepository.TransitionInput.apply, acknowledgementChanges, resolveStatus, hs,
      hfailed, hpermanent, hdelivered, hread, isFailureAcknowledgement, isDeliveredAcknowledgement,
      isReadAcknowledgement, DeliveryAcknowledgement.value, NotificationStatus.isPending]

theorem Coherent.acknowledged_delivered (h : Coherent r ledger) (hs : r.status = .DELIVERED)
    (hm : merged ≠ .error) (now : Date) :
    Coherent (r.acknowledged merged received now) ledger := by
  have hfailed : r.failedAt = none :=
    Option.not_isSome_iff_eq_none.1 (mt h.failed.1 (by simp [hs]))
  have hpermanent : r.failureClassification ≠ some .PERMANENT := mt h.permanent.1 (by simp [hs])
  obtain ⟨at_, hdelivered⟩ := Option.isSome_iff_exists.1 (h.delivered.2 hs)
  refine h.acknowledged_of ?_ (by simp [hs]) ?_ ?_ ?_ ?_ ?_ ?_ <;>
    simp [NotificationRecord.acknowledged, acknowledgementInput, AcknowledgementInput.transition,
      NotificationRepository.TransitionInput.apply, acknowledgementChanges, resolveStatus, hs,
      hfailed, hpermanent, hdelivered, hm, isFailureAcknowledgement, NotificationStatus.isPending]

/-- The acknowledgement a row stands at is an error exactly if the column says so. -/
theorem currentAcknowledgement_error :
    currentAcknowledgement r = .error ↔ r.providerAcknowledgement = -1 := by
  constructor
  · intro h
    by_contra hne
    have hfound : (DeliveryAcknowledgement.ofValue? r.providerAcknowledgement).getD .pending =
      .error := h
    cases ho : DeliveryAcknowledgement.ofValue? r.providerAcknowledgement with
    | none => simp [ho] at hfound
    | some a =>
      have hvalue := List.find?_some ho
      simp only [decide_eq_true_eq] at hvalue
      rw [ho] at hfound
      cases hfound
      exact hne hvalue.symm
  · intro h
    simp only [currentAcknowledgement, h]
    rfl

/-- **An acknowledgement keeps the columns in agreement, unless it is a failure that arrives after
the delivery.** -/
theorem Coherent.acknowledged (h : Coherent r ledger) (hm : r.providerMessageId.isSome = true)
    (hv : r.verdict received = some merged) (hd : received = .error → r.status ≠ .DELIVERED)
    (now : Date) : Coherent (r.acknowledged merged received now) ledger := by
  have hmerged : merged = mergeAcknowledgements (currentAcknowledgement r) received := by
    simp only [NotificationRecord.verdict] at hv
    split at hv
    · cases hv
    · exact (Option.some.inj hv).symm
  have hnamed : ∀ hs : r.status.isPending = true ∨ r.status = .CANCELLED, False := by
    intro hs
    rw [h.unnamed hs] at hm
    cases hm
  cases hs : r.status with
  | SENT => exact h.acknowledged_sent hs now
  | DELIVERED =>
    refine h.acknowledged_delivered hs ?_ now
    have hcurrent : currentAcknowledgement r ≠ .error := mt currentAcknowledgement_error.1
      (h.reached hs)
    have hreceived : received ≠ .error := fun he => hd he hs
    rw [hmerged, mergeAcknowledgements, if_neg hreceived, if_neg hcurrent]
    split
    · exact hreceived
    · exact hcurrent
  | FAILED =>
    -- A failure that WhatsApp reported is never merged with anything.
    have hvalue : r.providerAcknowledgement = -1 := h.refused hs hm
    have hcurrent := currentAcknowledgement_error.2 hvalue
    have herror : mergeAcknowledgements .error received = .error := by cases received <;> rfl
    simp [NotificationRecord.verdict, hcurrent, herror, hvalue,
      DeliveryAcknowledgement.value] at hv
  | CANCELLED => exact (hnamed (.inr hs)).elim
  | _ => exact (hnamed (.inl (by rw [hs]; rfl))).elim

end Acknowledged

/-! ## What an operation makes of a row -/

/-- Every row is coherent, and no attempt is without a row. -/
structure World.Orderly (w : World) : Prop where
  rows : ∀ {n r}, w.row n = some r → Coherent r (w.ledger n)
  ledgers : ∀ {n}, w.row n = none → w.ledger n = []

/-- What must be known of the ledger and the row before an attempt is resolved. -/
def Op.Resolvable (w : World) : Op → Prop
  | .recordSent input => ∃ a ∈ w.ledger input.notification.id, input.resolution.concerns a = true
  | .resolveAttempt input => input.outcome ≠ .SUCCEEDED ∧
      ∃ r, w.row input.notificationId = some r ∧ r.status.isPending = true
  | .acknowledgementTransition _ => False
  | _ => True

section Steps

variable {n : Uuid} {w w' : World} {o : Op} {ret : o.Ret} {q : DeliveryPhase}

theorem isPending_of_cancellable {s : NotificationStatus}
    (h : isCancellableNotificationStatus s = true) : s.isPending = true := by
  rcases isCancellable_iff.1 h with rfl | rfl | rfl <;> rfl

theorem TransitionStep.Classified.coherent {step : TransitionStep} {old c : NotificationRecord}
    {ledger : List SendAttemptRecord} (h : step.Classified) (hb : Blank old ledger) :
    Coherent ((step.transition c).apply old) ledger := by
  obtain ⟨failure, ⟨hs, hpermanent, now, hc⟩ | ⟨hs, hretryable, dueAt, hc⟩⟩ := h
  · have hclass : failure.classification = .PERMANENT := by
      simp only [isRetryable, decide_eq_false_iff_not] at hpermanent
      cases hf : failure.classification with
      | PERMANENT => rfl
      | RETRYABLE => exact absurd hf hpermanent
    refine hb.failed hs ?_ ?_ ?_ ?_ ?_ ?_ ?_ <;>
      simp [TransitionStep.transition, NotificationRepository.TransitionInput.apply, hc,
        DispatchNotificationService.failChanges, hclass]
  · have hclass : failure.classification = .RETRYABLE := by simpa [isRetryable] using hretryable
    refine Blank.pending (hb.change id ?_ ?_ ?_ ?_ ?_ ?_ ?_) (by
      change step.nextStatus.isPending = true
      rw [hs]
      rfl) <;>
      simp [TransitionStep.transition, NotificationRepository.TransitionInput.apply, hc,
        DispatchNotificationService.retryChanges, hclass]

/-- Success is recorded in no other way than by resolving an attempt so. -/
theorem succeeded_resolved {input : ResolveSendAttemptInput} {ledger : List SendAttemptRecord}
    (hne : input.outcome ≠ .SUCCEEDED) (h : Succeeded (ledger.map input.apply)) :
    Succeeded ledger := by
  obtain ⟨a, ha, hs⟩ := h
  obtain ⟨b, hb, rfl⟩ := List.mem_map.1 ha
  unfold NotificationSendAttemptRepository.ResolveSendAttemptInput.apply at hs
  split at hs
  · exact absurd (Option.some.inj hs) hne
  · exact ⟨b, hb, hs⟩

theorem Effect.coherent (h : Effect n w w' o ret) (hw : w.Orderly) (hq : q.Allows o)
    (hclass : o.Classifies) (hr : o.Resolvable w) {new : NotificationRecord}
    (hnew : w'.row n = some new) : Coherent new (w'.ledger n) := by
  cases h with
  | kept row ledger =>
    rw [ledger]
    exact hw.rows (row.symm.trans hnew)
  | @promoted a now old before status after ledger =>
    cases hnew.symm.trans after
    have hb := (hw.rows before).blank (by rw [status]; rfl)
    rw [ledger]
    exact Blank.pending (hb.change id rfl hb.unclassified rfl rfl rfl rfl rfl) rfl
  | @claimed a t now old new' before _ claimable new_eq after ledger =>
    cases hnew.symm.trans after
    have hb := (hw.rows before).blank (by
      simp only [NotificationRepository.isClaimable, Bool.decide_or, Bool.or_eq_true,
        decide_eq_true_eq] at claimable
      rcases claimable with hs | hs
      · rw [hs]; rfl
      · rw [hs.1]; rfl)
    rw [ledger, new_eq]
    exact Blank.pending (hb.change id rfl hb.unclassified rfl rfl rfl rfl rfl) rfl
  | @begun input old k id names before _ _ status _ after ledger =>
    cases hnew.symm.trans after
    have hb := (hw.rows before).blank (by rw [status]; rfl)
    rw [ledger]
    refine Blank.pending (hb.change ?_ rfl hb.unclassified rfl rfl rfl rfl rfl) (by
      simp only [status]
      rfl)
    rintro ⟨a, ha, hs⟩
    rcases List.mem_append.1 ha with ha | ha
    · exact ⟨a, ha, hs⟩
    · cases List.mem_singleton.1 ha
      cases hs
  | @sent input old names moved ledger =>
    subst names
    cases hnew.symm.trans moved.after
    have hstatus : old.status = .PROCESSING := moved.status
    have hb := (hw.rows moved.before).blank (by rw [hstatus]; rfl)
    obtain ⟨a, ha, hconcerns⟩ := hr
    have hsent : Succeeded ((w.ledger input.notification.id).map input.resolution.apply) := by
      refine ⟨_, List.mem_map_of_mem ha, ?_⟩
      unfold NotificationSendAttemptRepository.ResolveSendAttemptInput.apply
      rw [if_pos hconcerns]
      rfl
    rw [ledger]
    exact hb.sent rfl hsent rfl rfl rfl rfl rfl rfl rfl
  | @deferred input old names moved ledger | @released _ input old names moved ledger =>
    subst names
    cases hnew.symm.trans moved.after
    have hstatus : old.status = .PROCESSING := moved.status
    have hb := (hw.rows moved.before).blank (by rw [hstatus]; rfl)
    rw [ledger]
    exact Blank.pending (hb.change id rfl hb.unclassified rfl rfl rfl rfl rfl) rfl
  | @transitioned c step old names moved ledger =>
    subst names
    cases hnew.symm.trans moved.after
    have hstatus : old.status = .PROCESSING := moved.status
    have hb := (hw.rows moved.before).blank (by rw [hstatus]; rfl)
    rw [ledger]
    exact hclass.coherent hb
  | @cancelled input old names moved ledger =>
    subst names
    cases hnew.symm.trans moved.after
    have hstatus : old.status = input.expectedStatus := moved.status
    have hb := (hw.rows moved.before).blank
      (isPending_of_cancellable (hstatus ▸ cancellable_of_allows hq))
    rw [ledger]
    exact hb.cancelled rfl rfl rfl rfl rfl rfl rfl rfl
  | @cancelledWaiting input _ old before status after ledger =>
    cases hnew.symm.trans after
    have hb := (hw.rows before).blank (by rcases status with hs | hs <;> rw [hs] <;> rfl)
    rw [ledger]
    exact hb.cancelled rfl rfl rfl rfl rfl rfl rfl rfl
  | acknowledged => exact hr.elim
  | @resolved input names row ledger =>
    subst names
    have hrow := row.symm.trans hnew
    obtain ⟨hne, old, hold, hs⟩ := hr
    cases hrow.symm.trans hold
    have hb := (hw.rows hrow).blank hs
    rw [ledger]
    exact Blank.pending (hb.change (succeeded_resolved hne) rfl hb.unclassified rfl rfl rfl rfl rfl)
      hs

/-- **What an operation other than an acknowledgement keeps.** -/
theorem World.Orderly.exec {choice : Choice} (hw : w.Orderly)
    (he : exec w o choice = some (ret, w')) (hq : q.Allows o) (hclass : o.Classifies)
    (hr : o.Resolvable w) : w'.Orderly where
  rows := fun hnew => (exec_effect he _).coherent hw hq hclass hr hnew
  ledgers := by
    intro n hnone
    have heffect := exec_effect he n
    cases heffect with
    | kept row ledger =>
      rw [ledger]
      exact hw.ledgers (row.symm.trans hnone)
    | resolved names row ledger =>
      rw [ledger, hw.ledgers (row.symm.trans hnone)]
      rfl
    | promoted before status after | claimed before application claimable new_eq after
    | begun names before application token status number after
    | cancelledWaiting before status after =>
      cases hnone.symm.trans after
    | sent names moved | deferred names moved | transitioned names moved | released names moved
    | cancelled names moved | acknowledged names moved =>
      subst names
      cases hnone.symm.trans moved.after

end Steps

/-! ## A call that runs alone -/

/-- The claim of a dispatch is in force, and its attempt is in the ledger. -/
def Progress.InForce (p : Progress) (w : World) : Prop :=
  p.stage.isActive = true → ∃ c r, p.claimed = some c ∧ w.row c.id = some r ∧
    r.status = .PROCESSING ∧ ∀ k, p.attempt = some k →
      ∃ a ∈ w.ledger c.id, a.applicationId = c.applicationId ∧ a.attemptNumber = k

/-- What holds between two operations of a call that processes no callback. -/
def DeliveryPhase.Holds : DeliveryPhase → World → Prop
  | .dispatching p, w => w.Orderly ∧ p.WellFormed ∧ p.InForce w
  | .serving request _, w => w.Orderly ∧ ∀ d, request ≠ .process d

section Alone

variable {configuration : Configuration} {w w' : World} {o : Op} {ret : o.Ret} {choice : Choice}
  {p : Progress}

/-- An operation that leaves the tables alone leaves a claim in force. -/
theorem Progress.InForce.beside (h : p.InForce w) (hrow : ∀ n, w'.row n = w.row n)
    (hledger : ∀ n, w'.ledger n = w.ledger n) : p.InForce w' := by
  intro hs
  obtain ⟨c, r, hc, hr, hp, hk⟩ := h hs
  exact ⟨c, r, hc, (hrow _).trans hr, hp, fun k h => by rw [hledger]; exact hk k h⟩

theorem Progress.InForce.exec (h : p.InForce w) (hp : p.WellFormed) (ho : p.Allows o)
    (he : exec w o choice = some (ret, w')) : (p.advance o ret).InForce w' := by
  have hmove : Move p o ret (p.advance o ret) := move_of_allows ho
  have haside : o.isAside = true → p.InForce w' := fun ha =>
    h.beside (untouched_meaning choice ha _ _ _ he).row (untouched_meaning choice ha _ _ _ he).ledger
  generalize p.advance o ret = p' at hmove
  cases hmove with
  | connection kind => exact haside (by rw [Op.isAside, kind]; rfl)
  | explaining => exact haside rfl
  | policy stage claimed =>
    intro hs
    obtain ⟨c, r, hc, hr, hp, hk⟩ := haside rfl hs
    exact ⟨c, r, hc, hr, hp, hk⟩
  | promoting stage | recording stage =>
    intro hs
    rw [stage] at hs
    cases hs
  | clear stage claimed | found stage claimed =>
    intro _
    exact haside rfl (by rw [stage]; rfl)
  | sent stage | answered stage =>
    intro _
    exact haside rfl (by rw [stage]; rfl)
  | drew | refused | lost | recorded | unrecorded | left | deferred | deferring | enqueued =>
    exact fun hs => by cases hs
  | @claimed t now c stage token =>
    intro _
    have heffect := exec_effect he p.input.notificationId
    cases heffect with
    | kept row ledger idle => exact absurd rfl idle
    | claimed before application claimable new_eq after ledger =>
      have hid : c.id = p.input.notificationId := by
        rw [new_eq]
        exact Table.key_of_find? before
      refine ⟨c, c, rfl, hid ▸ after, by rw [new_eq], fun k hk => ?_⟩
      have hnone := (hp.early (by rw [stage]; decide)).1
      simp only at hk
      rw [hk] at hnone
      cases hnone
  | @begun input c k stage token claimed application names =>
    intro _
    obtain ⟨c', r, hc', hr, hs, -⟩ := h (by rw [stage]; rfl)
    cases claimed.symm.trans hc'
    have heffect := exec_effect he c.id
    cases heffect with
    | kept row ledger idle => exact absurd names idle
    | @begun _ old _ id _ before _ _ status _ after ledger =>
      refine ⟨c, _, claimed, after, status, fun k' hk' => ?_⟩
      cases hk'
      refine ⟨input.attempt k id, ?_, application, rfl⟩
      rw [ledger]
      exact List.mem_append_right _ List.mem_cons_self
  | @settled input c r claimed application names may =>
    intro _
    have hactive : p.stage.isActive = true := by
      rcases may with ⟨hs, -⟩ | ⟨hs, -⟩ <;> rw [hs] <;> rfl
    obtain ⟨c', r, hc', hr, hs, hk⟩ := h hactive
    cases claimed.symm.trans hc'
    have heffect := exec_effect he c.id
    cases heffect with
    | kept row ledger idle => exact absurd names idle
    | resolved _ row ledger =>
      refine ⟨c, r, claimed, row.trans hr, hs, fun k hk' => ?_⟩
      obtain ⟨a, ha, happ, hnum⟩ := hk k hk'
      refine ⟨input.apply a, ?_, ?_, ?_⟩
      · rw [ledger]
        exact List.mem_map_of_mem ha
      · rw [← happ]
        unfold NotificationSendAttemptRepository.ResolveSendAttemptInput.apply
        split <;> rfl
      · rw [← hnum]
        unfold NotificationSendAttemptRepository.ResolveSendAttemptInput.apply
        split <;> rfl

/-- A dispatch resolves attempts of the notification it is processing. -/
theorem Progress.InForce.resolvable (h : p.InForce w) (ho : p.Allows o) : o.Resolvable w := by
  cases o <;> try trivial
  case recordSent input =>
    obtain ⟨hs, hc, hk, -⟩ := ho
    obtain ⟨c, r, hc', hr, hp, hledger⟩ := h (by rw [hs]; rfl)
    cases hc.symm.trans hc'
    obtain ⟨a, ha, happ, hnum⟩ := hledger _ hk
    have hn : a.notificationId = input.notification.id := by
      simpa using (List.mem_filter.1 ha).2
    refine ⟨a, ha, ?_⟩
    simp [NotificationSendAttemptRepository.ResolveSendAttemptInput.concerns,
      RecordSentInput.resolution, hn, happ, hnum]
  case resolveAttempt input =>
    obtain ⟨⟨c, hc, -, hn⟩, hmay⟩ := ho
    have hactive : p.stage.isActive = true := by
      rcases hmay with ⟨hs, -⟩ | ⟨hs, -⟩ <;> rw [hs] <;> rfl
    obtain ⟨c', r, hc', hr, hp, -⟩ := h hactive
    cases hc.symm.trans hc'
    refine ⟨?_, r, hn ▸ hr, by rw [hp]; rfl⟩
    rcases hmay with ⟨-, -, hout, -⟩ | ⟨-, -, failure, -, ⟨-, hout, -⟩ | ⟨-, hout⟩⟩ <;>
      rw [hout] <;> decide
  case acknowledgementTransition => exact absurd ho.1 (by simp [Op.isConnectionOp])

end Alone

/-! ## Calls that process a callback -/

/-- What a delivery reports is not the failure of a message that is delivered already. -/
def WebhookDeliveryRecord.Spares (delivery : WebhookDeliveryRecord) (w : World) : Prop :=
  ∀ message r, delivery.receipt? = some (message, .error) →
    w.messageOf delivery.whatsAppSessionId message = some r → r.status ≠ .DELIVERED

/-- The turn processes no failure acknowledgement of a notification that is delivered already. -/
def SparesDelivered {configuration : Configuration} (w : World) :
    Turn (platform configuration) → Prop
  | .served (.process d) _ => ∀ delivery, w.webhookDeliveries.find? d = some delivery →
      delivery.processedAt = none → delivery.Spares w
  | _ => True

/-- What holds between two operations of a call that processes a callback. -/
def Handling.Holds : Handling → World → Prop
  | .unclaimed d, w => w.Orderly ∧ ∀ delivery, w.webhookDeliveries.find? d = some delivery →
      delivery.processedAt = none → delivery.Spares w
  | .claimed c, w => w.Orderly ∧ c.Spares w
  | .looked c found, w => w.Orderly ∧ ∀ r, found = some r → w.row r.id = some r ∧
      r.providerMessageId.isSome = true ∧
      ∀ message, c.receipt? = some (message, .error) → r.status ≠ .DELIVERED
  | .elsewhere, _ => False
  | _, w => w.Orderly

section Processing

variable {w w' : World} {o : Op} {ret : o.Ret} {choice : Choice} {q : Handling}

theorem World.Orderly.beside (hw : w.Orderly) (h : Beside w w') : w'.Orderly where
  rows := fun {n r} hr => by
    rw [ledger_eq h.sendAttempts n]
    refine hw.rows ?_
    rw [World.row, ← h.notifications]
    exact hr
  ledgers := fun {n} hr => by
    rw [ledger_eq h.sendAttempts n]
    refine hw.ledgers ?_
    rw [World.row, ← h.notifications]
    exact hr

theorem WebhookDeliveryRecord.Spares.beside {c : WebhookDeliveryRecord} (hc : c.Spares w)
    (h : Beside w w') : c.Spares w' := by
  intro message r hreceipt hr
  rw [messageOf_eq h.notifications] at hr
  exact hc message r hreceipt hr

/-- The delivery a call claims is the one it was started for, with one attempt more. -/
theorem claimForProcessing_some {d : Uuid} {c : WebhookDeliveryRecord}
    (he : exec w (.claimForProcessing d) choice = some (some c, w')) :
    ∃ old, w.webhookDeliveries.find? d = some old ∧ old.processedAt = none ∧
      c = { old with processingAttempts := old.processingAttempts + 1 } := by
  obtain ⟨hr, -⟩ := Prod.mk.inj (Option.some.inj (Choice.quietly_eq_some.1 he).2)
  obtain ⟨old, hold, hp, rfl⟩ := Table.updateAt_eq_some.1 hr
  exact ⟨old, hold, by simpa using hp, rfl⟩

theorem row_of_messageOf {s : Uuid} {message : String} {r : NotificationRecord}
    (h : w.messageOf s message = some r) :
    w.row r.id = some r ∧ r.providerMessageId = some message := by
  have hfound := List.find?_some h
  simp only [Bool.decide_and, Bool.and_eq_true, decide_eq_true_eq] at hfound
  exact ⟨Table.find?_key (List.mem_of_find?_eq_some h), hfound.2⟩

theorem findByProviderMessageId_some {s : Uuid} {message : String} {r : NotificationRecord}
    (he : exec w (.findByProviderMessageId s message) choice = some (some r, w')) :
    w' = w ∧ w.messageOf s message = some r := by
  obtain ⟨hr, rfl⟩ := Prod.mk.inj (Option.some.inj (Choice.quietly_eq_some.1 he).2)
  exact ⟨rfl, hr⟩

/-- The update of a call that runs alone finds the row as the call read it. -/
theorem Handling.Writes.orderly {c : WebhookDeliveryRecord} {r : NotificationRecord}
    {input : AcknowledgementInput} (h : Writes c r input) (hw : w.Orderly)
    (hr : w.row r.id = some r) (hm : r.providerMessageId.isSome = true)
    (hd : ∀ message, c.receipt? = some (message, .error) → r.status ≠ .DELIVERED) {done : Bool}
    (he : exec w (.acknowledgementTransition input) choice = some (done, w')) : w'.Orderly := by
  obtain ⟨message, received, merged, now, hreceipt, hverdict, rfl⟩ := h
  have hspared : received = .error → r.status ≠ .DELIVERED := by
    rintro rfl
    exact hd message hreceipt
  refine ⟨fun {n new} hnew => ?_, fun {n} hnone => ?_⟩
  · have heffect := exec_effect he n
    cases heffect with
    | kept row ledger =>
      rw [ledger]
      exact hw.rows (row.symm.trans hnew)
    | acknowledged names moved ledger =>
      subst names
      cases hnew.symm.trans moved.after
      cases hr.symm.trans moved.before
      rw [ledger]
      exact (hw.rows hr).acknowledged hm hverdict hspared now
  · have heffect := exec_effect he n
    cases heffect with
    | kept row ledger =>
      rw [ledger]
      exact hw.ledgers (row.symm.trans hnone)
    | acknowledged names moved ledger =>
      subst names
      cases hnone.symm.trans moved.after

theorem Handling.Holds.exec (h : q.Holds w) (ho : q.Allows o)
    (he : exec w o choice = some (ret, w')) : (q.advance o ret).Holds w' := by
  have hbeside : o.isAside = true → Beside w w' := fun ha =>
    (untouched_meaning choice ha _ _ _ he).beside
  cases q with
  | unclaimed d =>
    cases o <;> simp only [Allows] at ho
    obtain rfl := ho
    cases ret with
    | none => exact h.1.beside (hbeside rfl)
    | some c =>
      obtain ⟨old, hold, hp, rfl⟩ := claimForProcessing_some he
      exact ⟨h.1.beside (hbeside rfl), (h.2 old hold hp).beside (hbeside rfl)⟩
  | claimed c =>
    cases o <;> simp only [Allows] at ho
    case findByProviderMessageId s message =>
      refine ⟨h.1.beside (hbeside rfl), fun r hfound => ?_⟩
      subst hfound
      obtain ⟨rfl, hfound⟩ := findByProviderMessageId_some he
      obtain ⟨hr, hm⟩ := row_of_messageOf hfound
      refine ⟨hr, by rw [hm]; rfl, fun message' hreceipt => ?_⟩
      obtain ⟨rfl, received, hreceived⟩ := ho
      cases hreceived.symm.trans hreceipt
      exact h.2 message r hreceipt hfound
    case markProcessed => exact h.1.beside (hbeside rfl)
    all_goals exact ⟨h.1.beside (hbeside rfl), h.2.beside (hbeside rfl)⟩
  | looked c found =>
    cases o <;> simp only [Allows] at ho
    case clockNow =>
      refine ⟨h.1.beside (hbeside rfl), fun r hfound => ?_⟩
      obtain ⟨hr, hm, hd⟩ := h.2 r hfound
      refine ⟨?_, hm, hd⟩
      rw [World.row, (hbeside rfl).notifications]
      exact hr
    case throwException => exact ret.elim
    case acknowledgementTransition input =>
      obtain ⟨r, hfound, hwrites⟩ := ho
      obtain ⟨hr, hm, hd⟩ := h.2 r hfound
      have horderly := hwrites.orderly h.1 hr hm hd he
      cases ret <;> exact horderly
    case markProcessed => exact h.1.beside (hbeside rfl)
  | missed c input =>
    cases o <;> simp only [Allows] at ho
    exact World.Orderly.beside h (beside_appendEvent _ _ _ _ (Choice.quietly_eq_some.1 he).2)
  | recorded c =>
    cases o <;> simp only [Allows] at ho <;> exact World.Orderly.beside h (hbeside rfl)
  | finished => cases o <;> simp only [Allows] at ho
  | elsewhere => exact h.elim

end Processing

/-! ## Calls one after another -/

section Turns

variable {configuration : Configuration} {w w' : World}

theorem DeliveryPhase.Holds.exec {q : DeliveryPhase} {o : Op} {ret : o.Ret} {choice : Choice}
    (h : q.Holds w) (ho : q.Allows o) (hclass : o.Classifies)
    (he : NotificationPlatform.exec w o choice = some (ret, w')) : (q.advance o ret).Holds w' := by
  cases q with
  | dispatching p =>
    obtain ⟨hw, hp, hforce⟩ := h
    exact ⟨hw.exec he ho hclass (hforce.resolvable ho), (move_of_allows ho).wellFormed hp,
      hforce.exec hp ho he⟩
  | serving request cancelled =>
    obtain ⟨hw, hrequest⟩ := h
    have hresolvable : o.Resolvable w := by
      cases o <;> try trivial
      case acknowledgementTransition input =>
        cases request with
        | process d => exact absurd rfl (hrequest d)
        | dispatch => exact ho.elim
        | _ => exact absurd ho (by simp [Allows, Serves, Op.isConnectionOp, Op.isReadOrInbox])
      all_goals
        obtain ⟨p, hp, -⟩ := dispatching_of_allows rfl ho
        cases hp
    obtain ⟨cancelled', hadvance⟩ := serving_advance request cancelled o ret
    rw [hadvance]
    exact ⟨hw.exec he ho hclass hresolvable, hrequest⟩

theorem World.Orderly.outside {e : Event} (hw : w.Orderly)
    (he : NotificationPlatform.outside w e = some w') : w'.Orderly := by
  have hledger : ∀ n, w'.ledger n = w.ledger n := fun n => ledger_eq (outside_rows he n).1 n
  refine ⟨fun {n r} hr => ?_, fun {n} hnone => ?_⟩
  · rw [hledger]
    obtain ⟨-, -, hsame | ⟨draft, -, hnone, hnew, -⟩⟩ := outside_rows he n
    · exact hw.rows (hsame.symm.trans hr)
    · cases hr.symm.trans hnew
      rw [hw.ledgers hnone]
      have hblank : Blank (draft.row w.now) [] :=
        ⟨rfl, nofun, rfl, rfl, rfl, rfl, rfl, by simp [Succeeded]⟩
      refine hblank.pending ?_
      change draft.status.isPending = true
      unfold NotificationDraft.status
      split <;> rfl
  · rw [hledger]
    obtain ⟨-, -, hsame | ⟨draft, -, hnone', hnew, -⟩⟩ := outside_rows he n
    · exact hw.ledgers (hsame.symm.trans hnone)
    · exact hw.ledgers hnone'

/-- A call that runs alone keeps the columns in agreement. -/
theorem World.Orderly.served {request : Request} {choices : List Choice} {result : Result}
    (hw : w.Orderly)
    (hspares : @SparesDelivered configuration w (.served request choices))
    (hr : (program configuration request).runs NotificationPlatform.exec choices w =
      some (result, w')) : w'.Orderly := by
  have hserving : ∀ request', request = request' → (∀ d, request' ≠ .process d) →
      (∀ input, request' ≠ .dispatch input) → w'.Orderly := by
    rintro _ rfl hprocess hdispatch
    have hinitial : DeliveryPhase.initial request = .serving request [] := by
      cases request <;> first | rfl | exact absurd rfl (hdispatch _)
    have hclassifies : ∀ {q : DeliveryPhase} {o : Op}, (∃ c, q = .serving request c) →
        q.Allows o → o.Classifies := by
      rintro _ o ⟨c, rfl⟩ ho
      cases o <;> try trivial
      obtain ⟨p, hp, -⟩ := dispatching_of_allows rfl ho
      cases hp
    obtain ⟨q, ⟨⟨c, rfl⟩, hq⟩, -⟩ := @Conforms.runs _ _ deliveryTypestate Answers _ _
      NotificationPlatform.exec (fun q w => (∃ c, q = .serving request c) ∧ q.Holds w)
      (fun _ => True)
      (fun he => answers_exec he)
      (fun hq ho _ he => by
        obtain ⟨⟨c, rfl⟩, hholds⟩ := hq
        exact ⟨serving_advance request c _ _, hholds.exec ho (hclassifies ⟨c, rfl⟩ ho) he⟩)
      _ _ _ (conforms_program configuration request) (Prog.uses_any _) _ _ _ _
      ⟨⟨[], hinitial⟩, by rw [hinitial]; exact ⟨hw, hprocess⟩⟩ hr
    exact hq.1
  cases request with
  | dispatch input =>
    obtain ⟨q, hq, -⟩ := @Conforms.runs _ _ deliveryTypestate Answers _ _
      NotificationPlatform.exec DeliveryPhase.Holds Op.Classifies
      (fun he => answers_exec he) (fun hq ho hn he => hq.exec ho hn he)
      _ _ _ (conforms_program configuration (.dispatch input)) (classifying_dispatch input).map
      _ _ _ _ ⟨hw, wellFormed_initial input, fun hs => by cases hs⟩ hr
    cases q with
    | dispatching p => exact hq.1
    | serving request cancelled => exact hq.1
  | process d =>
    obtain ⟨q, hq, -⟩ := @Conforms.runs _ _ handlingTypestate Finds _ _
      NotificationPlatform.exec Handling.Holds (fun _ => True)
      (fun he => finds_exec he) (fun hq ho _ he => hq.exec ho he)
      _ _ _ (handles_program configuration (.process d)) (Prog.uses_any _) _ _ _ _ ⟨hw, hspares⟩ hr
    cases q with
    | unclaimed d => exact hq.1
    | claimed c => exact hq.1
    | looked c found => exact hq.1
    | elsewhere => exact hq.elim
    | _ => exact hq
  | _ => exact hserving _ rfl nofun nofun

/-- The outcome columns of every notification agree. -/
def World.OutcomesAgree (w : World) : Prop :=
  ∀ n r, w.row n = some r → OutcomeAgrees r (w.ledger n)

/-- A failure that arrives after the delivery is dated, and the notification stays delivered. -/
theorem not_agrees_of_late_failure {d : Uuid} {delivery : WebhookDeliveryRecord} {message : String}
    {r : NotificationRecord} {choices : List Choice} {result : ProcessWebhookResult}
    (hw : w.Orderly) (hd : w.webhookDeliveries.find? d = some delivery)
    (hp : delivery.processedAt = none) (hreceipt : delivery.receipt? = some (message, .error))
    (hr : w.messageOf delivery.whatsAppSessionId message = some r) (hs : r.status = .DELIVERED)
    (hruns : (process configuration d).runs NotificationPlatform.exec choices w =
      some (result, w')) : ¬ w'.OutcomesAgree := by
  intro hagree
  have hevent : toProviderEvent (storedEnvelope delivery) =
      .message_acknowledgement message .error true := by
    unfold WebhookDeliveryRecord.receipt? at hreceipt
    split at hreceipt
    · rename_i he
      cases hreceipt
      exact he
    · cases hreceipt
  obtain ⟨now, hafter⟩ := messageOf_process hd ⟨hp, rfl, hevent⟩ hr hruns
  have hcurrent : currentAcknowledgement r ≠ .error :=
    mt currentAcknowledgement_error.1 ((hw.rows (row_of_messageOf hr).1).reached hs)
  have hnew : r.acknowledge .error now = r.acknowledged .error .error now := by
    have hmerged : mergeAcknowledgements (currentAcknowledgement r) .error = .error := rfl
    simp only [NotificationRecord.acknowledge, hmerged]
    exact if_neg fun h => hcurrent h.1.symm
  rw [hnew] at hafter
  have hstatus := (hagree _ _ (row_of_messageOf hafter).1).failed.1 rfl
  have hkept : (r.acknowledged .error .error now).status = .DELIVERED := by
    change resolveStatus r.status .error = .DELIVERED
    rw [hs]
    rfl
  rw [hkept] at hstatus
  cases hstatus

/-- **The outcome columns agree with the status throughout a run exactly if the run processes no
failure acknowledgement of a notification that is delivered already.** -/
theorem outcome_columns (hw : Fresh w) (turns : List (Turn (platform configuration))) :
    Machine.Throughout World.OutcomesAgree w turns ↔ Machine.Each SparesDelivered w turns := by
  have hagrees : ∀ w : World, w.Orderly → w.OutcomesAgree := fun w hw n r hr =>
    (hw.rows hr).toOutcomeAgrees
  refine Machine.throughout_iff hagrees
    (fun {w t w'} horderly ht hspares => ?_) (fun {w t w'} horderly ht hagree => ?_) ?_ turns
  · cases t with
    | served request choices =>
      obtain ⟨⟨result, w₁⟩, hruns, rfl⟩ := Option.map_eq_some_iff.1 ht
      exact horderly.served hspares hruns
    | outside event => exact horderly.outside ht
  · cases t with
    | outside event => trivial
    | served request choices =>
      cases request with
      | process d =>
        intro delivery hd hp message r hreceipt hr hs
        obtain ⟨⟨result, w₁⟩, hruns, rfl⟩ := Option.map_eq_some_iff.1 ht
        obtain ⟨result', -, hprocess⟩ := Prog.runs_map hruns
        exact not_agrees_of_late_failure horderly hd hp hreceipt hr hs hprocess hagree
      | _ => trivial
  · refine ⟨fun {n r} hr => ?_, fun {n} _ => ?_⟩
    · rw [hw.notifications n] at hr
      cases hr
    · rw [World.ledger, hw.sendAttempts]
      rfl

end Turns

namespace Late

open Sample

/-- The choices of a dispatch whose message is accepted. -/
def accepts : List Choice :=
  [.nothing, .date 0, .nothing, .nothing, .date 0, .nothing, .nothing, .date 0, .nothing, .date 0,
    .number 0, .resolved (.succeeded ⟨true, some "5511999990000@c.us"⟩), .flag false, .date 0,
    .nothing, .nothing, .sent (.succeeded ⟨"3EB0"⟩), .date 0, .date 0, .nothing]

/-- The callback for an acknowledgement of the message. -/
def callback (id : Uuid) (acknowledgement : DeliveryAcknowledgement) :
    WebhookDeliveryRepository.RecordWebhookDeliveryInput where
  id := id
  applicationId := 1
  whatsAppSessionId := 2
  providerEventId := s!"evt_{id}"
  eventType := "message.ack"
  providerSessionName := "main"
  payload := (Contest.delivery id acknowledgement).payload
  receivedAt := 0

/-- The notification is sent and delivered. -/
def delivered : List (Turn (platform configuration)) :=
  [.outside (.created draft), .served (.dispatch ⟨1, 7, "order"⟩) accepts,
    .outside (.filed (callback 11 .device)), .served (.process 11) (Contest.choices .device true)]

/-- Then WhatsApp reports that it could not be delivered. -/
def failedLate : List (Turn (platform configuration)) :=
  delivered ++
    [.outside (.filed (callback 12 .error)), .served (.process 12) (Contest.choices .error true)]

/-- The turn processes no failure acknowledgement at all. -/
def reportsNoFailure (w : World) : Turn (platform configuration) → Bool
  | .served (.process d) _ => (w.webhookDeliveries.find? d).all fun delivery =>
      delivery.receipt?.all fun receipt => receipt.2 ≠ .error
  | _ => true

theorem spares_of_reportsNoFailure (w : World) (t : Turn (platform configuration))
    (h : reportsNoFailure w t = true) : SparesDelivered w t := by
  cases t with
  | outside event => trivial
  | served request choices =>
    cases request with
    | process d =>
      intro delivery hd _ message r hreceipt
      simp [reportsNoFailure, hd, hreceipt] at h
    | _ => trivial

end Late

/-- A notification that is sent and delivered. -/
theorem outcome_columns_delivered :
    Machine.Throughout World.OutcomesAgree (Sample.world .RETRY) Late.delivered ∧
      ((Machine.turns (Sample.world .RETRY) Late.delivered).any fun w =>
        (w.row 7).any (·.status = .DELIVERED)) = true :=
  ⟨(outcome_columns (Sample.fresh_world .RETRY) Late.delivered).2
    (.of_checks Late.spares_of_reportsNoFailure (by decide +kernel)), by decide +kernel⟩

/-- A failure reported after the delivery leaves a delivered notification that failed. -/
theorem outcome_columns_fail : ¬ ∀ (configuration : Configuration) (w : World)
    (turns : List (Turn (platform configuration))), Fresh w →
      Machine.Throughout World.OutcomesAgree w turns := by
  intro h
  have hend : ((Machine.turns (Sample.world .RETRY) Late.failedLate).any fun w =>
      (w.row 7).any fun r => r.status = .DELIVERED ∧ r.failedAt.isSome) = true := by
    decide +kernel
  obtain ⟨w, hw, hrow⟩ := Option.any_eq_true _ _ |>.1 hend
  obtain ⟨r, hr, hr'⟩ := Option.any_eq_true _ _ |>.1 hrow
  simp only [Bool.decide_and, Bool.and_eq_true, decide_eq_true_eq, Bool.decide_eq_true] at hr'
  have hagree := (h Sample.configuration _ Late.failedLate (Sample.fresh_world .RETRY)).last hw
  have hfailed := (hagree 7 r hr).failed.1 hr'.2
  rw [hr'.1] at hfailed
  cases hfailed

end NotificationPlatform
