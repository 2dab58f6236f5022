import NotificationPlatform.Inbox.Isolation
import NotificationPlatform.Lifecycle.Writes

/-!
# What the failure columns say

Every retry writes why it was needed on the row, and nothing but another failure writes these
columns again: the transaction that records a success leaves them as they are. So a delivered
notification reports no failure as long as every success, and every acknowledgement that is no
error, meets a row without one; and the alert goes with a wait or a failure as long as no
notification that shows it is claimed again or cancelled.
-/

namespace NotificationPlatform

open Interleaving

/-- No failure is on record. -/
structure NotificationRecord.Unfailed (r : NotificationRecord) : Prop where
  code : r.failureCode = none
  reason : r.failureReason = none
  classification : r.failureClassification = none

/-- WhatsApp has the message, and the last it said of it is no error. -/
structure NotificationRecord.IsWell (r : NotificationRecord) : Prop where
  status : r.status = .SENT ∨ r.status = .DELIVERED
  acknowledgement : r.providerAcknowledgement ≠ -1

/-- The alert of the timeline. -/
def NotificationRecord.showsAlert (r : NotificationRecord) : Bool := r.failureReason.isSome

/-- A success finds no failure on the row, and an acknowledgement other than an error no error. -/
def Op.Meets (write : RowWrite) : Op → Prop
  | .recordSent _ => write.1.Unfailed
  | .acknowledgementTransition input =>
    input.merged ≠ .error → write.1.providerAcknowledgement ≠ -1
  | _ => True

/-- No row that shows the alert is claimed or cancelled, and no error is recorded on a delivered
one. -/
def Op.Spares (write : RowWrite) : Op → Prop
  | .claimForDispatch _ _ _ _ | .cancelTransition _ | .cancelWaitingTransition _ =>
    write.1.showsAlert = false
  | .acknowledgementTransition input => input.merged = .error → write.1.status ≠ .DELIVERED
  | _ => True

/-- Each update of a row that a step asks for is one of those that are admitted. -/
def EachWrite {configuration : Configuration} (admits : RowWrite → Op → Prop)
    (s : System (platform configuration)) : Label (platform configuration) → Prop
  | .advance i choice => ∀ o, s.nextOp i = some o →
      ∀ write ∈ o.writes s.world choice, admits write o
  | _ => True

/-! ## Writes -/

/-- The columns agree: a failure is on record neither while the notification waits for its first
dispatch nor once it is well. -/
structure NotificationRecord.Consistent (r : NotificationRecord) : Prop where
  waiting : r.status = .SCHEDULED ∨ r.status = .QUEUED → r.Unfailed
  well : r.IsWell → r.Unfailed

/-- An acknowledgement is only ever recorded for a status that names a message. -/
def Op.Acknowledges : Op → Prop
  | .acknowledgementTransition input => input.notification.status.mayNameMessage = true
  | _ => True

section Writes

variable {w : World} {old new : NotificationRecord}

/-- In these statuses nothing is asked of the columns. -/
theorem NotificationRecord.Consistent.of_status (h : new.status = .PROCESSING ∨
    new.status = .RETRYING ∨ new.status = .FAILED ∨ new.status = .CANCELLED) :
    new.Consistent := by
  constructor
  · rintro (hs | hs) <;> rw [hs] at h <;> simp at h
  · rintro ⟨hs | hs, -⟩ <;> rw [hs] at h <;> simp at h

theorem NotificationRecord.Unfailed.consistent (h : new.Unfailed) : new.Consistent :=
  ⟨fun _ => h, fun _ => h⟩

theorem NotificationRecord.Unfailed.keep (h : old.Unfailed)
    (hcode : new.failureCode = old.failureCode) (hreason : new.failureReason = old.failureReason)
    (hclass : new.failureClassification = old.failureClassification) : new.Unfailed :=
  ⟨hcode.trans h.code, hreason.trans h.reason, hclass.trans h.classification⟩

/-- An acknowledgement of a message keeps the columns consistent, if no error is overwritten. -/
theorem consistent_acknowledgement {notification : NotificationRecord}
    {merged received : DeliveryAcknowledgement} {now : Date} (h : old.Consistent)
    (hmem : (old, new) ∈ (ProcessWebhookService.acknowledgementInput notification merged received
      now).transition.attempted w)
    (hnamed : notification.status.mayNameMessage = true)
    (hmeets : merged ≠ .error → old.providerAcknowledgement ≠ -1) : new.Consistent := by
  obtain ⟨-, hp, rfl⟩ := mem_attempted.1 hmem
  simp only [Bool.decide_and, Bool.and_eq_true, decide_eq_true_eq] at hp
  have hold : old.status = notification.status := hp.2
  by_cases hm : merged = .error
  · -- An error is the last that was said, and the status names a message.
    subst hm
    constructor
    · intro hs
      change ProcessWebhookService.resolveStatus notification.status .error = _ ∨
        ProcessWebhookService.resolveStatus notification.status .error = _ at hs
      rcases resolveStatus_eq_or notification.status .error with he | ⟨-, he | he⟩ <;>
        rw [he] at hs
      · rcases hs with hs | hs <;> rw [hs] at hnamed <;> cases hnamed
      · rcases hs with hs | hs <;> cases hs
      · rcases hs with hs | hs <;> cases hs
    · intro hwell
      exact absurd rfl hwell.acknowledgement
  · cases hs : notification.status with
    | SENT | DELIVERED =>
      have hunfailed : old.Unfailed := by
        refine h.well ⟨?_, hmeets hm⟩
        rw [hold, hs]
        simp
      refine (hunfailed.keep ?_ ?_ ?_).consistent <;>
        cases merged <;> first
        | exact absurd rfl hm
        | rfl
    | FAILED =>
      refine NotificationRecord.Consistent.of_status (.inr (.inr (.inl ?_)))
      change ProcessWebhookService.resolveStatus notification.status merged = _
      rw [hs]
      rfl
    | _ =>
      rw [hs] at hnamed
      cases hnamed

/-- **What is written keeps the columns consistent**, if it is written as `Op.Meets` has it. -/
theorem consistent_write {q : DeliveryPhase} {o : Op} {c : Choice} (ho : q.Allows o)
    (hnamed : o.Acknowledges) (h : old.Consistent) (hmem : (old, new) ∈ o.writes w c)
    (hmeets : o.Meets (old, new)) : new.Consistent := by
  cases o
  case promoteScheduled =>
    obtain ⟨-, hp, rfl⟩ := mem_attempted.1 hmem
    simp only [Bool.decide_and, Bool.and_eq_true, decide_eq_true_eq] at hp
    exact NotificationRecord.Unfailed.consistent ((h.waiting (.inl hp.2.1)).keep rfl rfl rfl)
  case claimForDispatch =>
    obtain ⟨-, -, rfl⟩ := mem_attempted.1 hmem
    exact .of_status (.inl rfl)
  case beginAttempt =>
    obtain ⟨-, hp, rfl⟩ := mem_attempted.1 hmem
    simp only [Bool.decide_and, Bool.and_eq_true, decide_eq_true_eq] at hp
    exact .of_status (.inl hp.2.2)
  case recordSent =>
    obtain ⟨-, -, rfl⟩ := mem_attempted.1 hmem
    have hunfailed : old.Unfailed := hmeets
    exact NotificationRecord.Unfailed.consistent (hunfailed.keep rfl rfl rfl)
  case deferTransition | releaseClaim =>
    obtain ⟨-, -, rfl⟩ := mem_attempted.1 hmem
    exact .of_status (.inr (.inl rfl))
  case transitionAndRecord notification step =>
    obtain ⟨p, -, hp⟩ := dispatching_of_allows rfl ho
    obtain ⟨-, -, rfl⟩ := mem_attempted.1 hmem
    obtain ⟨-, hs | hs, -⟩ := hp.2.2.leaves notification old
    · exact .of_status (.inr (.inr (.inl hs)))
    · exact .of_status (.inr (.inl hs))
  case cancelTransition =>
    obtain ⟨-, -, rfl⟩ := mem_attempted.1 hmem
    exact .of_status (.inr (.inr (.inr rfl)))
  case cancelWaitingTransition input =>
    cases c
    case locked ids =>
      obtain ⟨r, -, he⟩ := List.mem_map.1 hmem
      cases he
      exact .of_status (.inr (.inr (.inr rfl)))
    all_goals exact absurd hmem List.not_mem_nil
  case acknowledgementTransition =>
    obtain ⟨notification, merged, received, now, rfl⟩ := acknowledgement_of_allows ho
    exact consistent_acknowledgement h hmem hnamed hmeets
  all_goals exact absurd hmem List.not_mem_nil

end Writes

/-! ## The alert -/

/-- The alert is shown of a notification that waits for another attempt, or that failed. -/
def NotificationRecord.AlertsInPlace (r : NotificationRecord) : Prop :=
  r.showsAlert = true → r.status = .RETRYING ∨ r.status = .FAILED

section Alert

variable {w : World} {old new : NotificationRecord}

/-- Elsewhere the alert is not shown, and what leaves the reason alone does not show it. -/
theorem NotificationRecord.AlertsInPlace.keep (h : old.AlertsInPlace)
    (hstatus : old.status ≠ .RETRYING ∧ old.status ≠ .FAILED)
    (hreason : new.failureReason = old.failureReason) : new.AlertsInPlace := by
  intro hshown
  rw [NotificationRecord.showsAlert, hreason] at hshown
  exact absurd (h hshown) (not_or.2 hstatus)

theorem alertsInPlace_of_hidden (h : old.showsAlert = false)
    (hreason : new.failureReason = old.failureReason) : new.AlertsInPlace := by
  intro hshown
  rw [NotificationRecord.showsAlert, hreason] at hshown
  cases h.symm.trans hshown

/-- An acknowledgement keeps the alert in place, if no error is recorded on a delivered row. -/
theorem alertsInPlace_acknowledgement {notification : NotificationRecord}
    {merged received : DeliveryAcknowledgement} {now : Date} (h : old.AlertsInPlace)
    (hmem : (old, new) ∈ (ProcessWebhookService.acknowledgementInput notification merged received
      now).transition.attempted w)
    (hnamed : notification.status.mayNameMessage = true)
    (hspares : merged = .error → old.status ≠ .DELIVERED) : new.AlertsInPlace := by
  obtain ⟨-, hp, rfl⟩ := mem_attempted.1 hmem
  simp only [Bool.decide_and, Bool.and_eq_true, decide_eq_true_eq] at hp
  have hold : old.status = notification.status := hp.2
  have hfailed : ProcessWebhookService.resolveStatus notification.status merged = .FAILED →
      (((ProcessWebhookService.acknowledgementInput notification merged received
        now).transition).apply old).AlertsInPlace := fun hs _ => .inr hs
  cases hs : notification.status with
  | SENT | DELIVERED =>
    by_cases hm : merged = .error
    · subst hm
      refine hfailed ?_
      rw [hs]
      first
        | rfl
        | exact absurd (hold.trans hs) (hspares rfl)
    · refine h.keep (by rw [hold, hs]; decide) ?_
      cases merged <;> first
        | exact absurd rfl hm
        | rfl
  | FAILED =>
    refine hfailed ?_
    rw [hs]
    cases merged <;> rfl
  | _ =>
    rw [hs] at hnamed
    cases hnamed

/-- **What is written keeps the alert in place**, if it is written as `Op.Spares` has it. -/
theorem alertsInPlace_write {q : DeliveryPhase} {o : Op} {c : Choice} (ho : q.Allows o)
    (hnamed : o.Acknowledges) (h : old.AlertsInPlace) (hmem : (old, new) ∈ o.writes w c)
    (hspares : o.Spares (old, new)) : new.AlertsInPlace := by
  cases o
  case promoteScheduled =>
    obtain ⟨-, hp, rfl⟩ := mem_attempted.1 hmem
    simp only [Bool.decide_and, Bool.and_eq_true, decide_eq_true_eq] at hp
    exact h.keep (by rw [hp.2.1]; decide) rfl
  case claimForDispatch | cancelTransition =>
    obtain ⟨-, -, rfl⟩ := mem_attempted.1 hmem
    exact alertsInPlace_of_hidden hspares rfl
  case beginAttempt =>
    obtain ⟨-, hp, rfl⟩ := mem_attempted.1 hmem
    simp only [Bool.decide_and, Bool.and_eq_true, decide_eq_true_eq] at hp
    exact h.keep (by rw [hp.2.2]; decide) rfl
  case recordSent =>
    obtain ⟨-, hp, rfl⟩ := mem_attempted.1 hmem
    have hold : old.status = .PROCESSING := (of_decide_eq_true hp).2
    exact h.keep (by rw [hold]; decide) rfl
  case deferTransition | releaseClaim =>
    obtain ⟨-, -, rfl⟩ := mem_attempted.1 hmem
    exact fun _ => .inl rfl
  case transitionAndRecord notification step =>
    obtain ⟨p, -, hp⟩ := dispatching_of_allows rfl ho
    obtain ⟨-, -, rfl⟩ := mem_attempted.1 hmem
    obtain ⟨-, hs | hs, -⟩ := hp.2.2.leaves notification old
    · exact fun _ => .inr hs
    · exact fun _ => .inl hs
  case cancelWaitingTransition input =>
    cases c
    case locked ids =>
      obtain ⟨r, -, he⟩ := List.mem_map.1 hmem
      cases he
      exact alertsInPlace_of_hidden hspares rfl
    all_goals exact absurd hmem List.not_mem_nil
  case acknowledgementTransition =>
    obtain ⟨notification, merged, received, now, rfl⟩ := acknowledgement_of_allows ho
    exact alertsInPlace_acknowledgement h hmem hnamed hspares
  all_goals exact absurd hmem List.not_mem_nil

end Alert

/-! ## Runs -/

section Runs

variable {configuration : Configuration} {P : System (platform configuration) →
  Label (platform configuration) → Prop} {w : World} {s s' : System (platform configuration)}
  {l : Label (platform configuration)}

/-- What a call of `process` found is a notification that was named by a message. -/
def Handling.Named (q : Handling) : Prop :=
  ∀ r, q.notification? = some r → r.status.mayNameMessage = true

theorem Handling.Named.of_none {q : Handling} (h : q.notification? = none) : q.Named := by
  intro r hr
  rw [h] at hr
  cases hr

theorem Handling.Named.advance {q : Handling} {o : Op} {ret : o.Ret} {choice : Choice}
    {w' : World} (h : q.Named) (ho : q.Allows o) (hfinds : Finds o ret)
    (he : exec w o choice = some (ret, w'))
    (hw : ∀ n r, w.row n = some r → r.providerMessageId.isSome = true →
      r.status.mayNameMessage = true) : (q.advance o ret).Named := by
  cases q with
  | unclaimed d =>
    cases o <;> simp only [Handling.Allows] at ho
    cases ret <;> exact .of_none rfl
  | claimed c =>
    cases o <;> simp only [Handling.Allows] at ho <;> try exact .of_none rfl
    case findByProviderMessageId session message =>
      rintro r hr
      obtain rfl : ret = some r := hr
      obtain ⟨hfound, -⟩ := Prod.mk.inj (Option.some.inj (Choice.quietly_eq_some.1 he).2)
      exact hw r.id r (Relational.Table.find?_key (List.mem_of_find?_eq_some hfound))
        (by rw [hfinds.2]; rfl)
  | looked c found =>
    cases o <;> simp only [Handling.Allows] at ho <;> try first | exact h | exact .of_none rfl
    case acknowledgementTransition input =>
      cases ret with
      | true => exact .of_none rfl
      | false =>
        obtain ⟨r, rfl, message, received, merged, now, -, -, rfl⟩ := ho
        exact h
  | missed c input =>
    cases o <;> simp only [Handling.Allows] at ho
    exact .of_none rfl
  | recorded c => cases o <;> simp only [Handling.Allows] at ho <;> exact .of_none rfl
  | finished => cases o <;> simp only [Handling.Allows] at ho
  | elsewhere => exact .of_none rfl

theorem named_run (hw : Fresh w) (h : Run P (System.start w) s) {i : Nat} {q : Handling}
    (hq : handlings s i = some q) : q.Named := by
  induction h generalizing i q with
  | refl => cases hq
  | @tail s₁ s₂ l hr _ hs ih =>
    cases (handled_run hr).stepped hs with
    | @spawned j request fresh phases =>
      rw [handlings, phases] at hq
      by_cases hij : i = j
      · subst hij
        rw [Function.update_self, Option.some.injEq] at hq
        subst hq
        cases request <;> exact .of_none rfl
      · rw [Function.update_of_ne hij] at hq
        exact ih hq
    | crashed phases | outside phases =>
      rw [handlings, phases] at hq
      exact ih hq
    | @advanced j _ _ _ _ phases _ _ step =>
      rw [handlings, phases] at hq
      by_cases hij : i = j
      · subst hij
        rw [Function.update_self, Option.some.injEq] at hq
        subst hq
        exact (ih step.before).advance step.allowed step.answered step.exec
          fun _ _ => (sound_run hw hr).accepted.status
      · rw [Function.update_of_ne hij] at hq
        exact ih hq

/-- A call that may record an acknowledgement is one that processes a callback. -/
def MayAcknowledge (q : DeliveryPhase) (h : Handling) : Prop :=
  ∀ input, q.Allows (.acknowledgementTransition input) → h ≠ .elsewhere

theorem mayAcknowledge_initial (request : Request) :
    MayAcknowledge (DeliveryPhase.initial request) (Handling.initial request) := by
  intro input ho
  cases request with
  | process d => exact fun h => nomatch h
  | dispatch input' => exact absurd ho.1 (by simp [Op.isConnectionOp])
  | _ => exact absurd ho (by simp [DeliveryPhase.initial, DeliveryPhase.Allows, Serves,
      Op.isConnectionOp, Op.isReadOrInbox])

theorem Handling.ne_elsewhere {q : Handling} (h : q ≠ .elsewhere) (o : Op) (ret : o.Ret) :
    q.advance o ret ≠ .elsewhere := by
  unfold Handling.advance
  split <;> first
    | exact h
    | exact fun he => nomatch he

theorem mayAcknowledge_advance {q : DeliveryPhase} {h : Handling} {o : Op} {ret : o.Ret}
    (hR : MayAcknowledge q h) : MayAcknowledge (q.advance o ret) (h.advance o ret) := by
  intro input ho
  refine Handling.ne_elsewhere (hR input ?_) o ret
  cases q with
  | dispatching p => exact absurd ho.1 (by simp [Op.isConnectionOp])
  | serving request cancelled =>
    obtain ⟨cancelled', hq⟩ := serving_advance request cancelled o ret
    rw [hq] at ho
    exact ho

/-- **Only a notification that a message names is acknowledged.** -/
theorem acknowledges_run (hw : Fresh w) (hr : Run P (System.start w) s)
    (hs : s.step l = some s') {i : Nat} {choice : Choice} {o : Op} {ret : o.Ret}
    {q : DeliveryPhase} (hl : l = .advance i choice)
    (step : (deliveryDiscipline configuration).Advanced s s' i choice o ret q) :
    o.Acknowledges := by
  subst hl
  cases o <;> try trivial
  case acknowledgementTransition input =>
    obtain ⟨h, step'⟩ := (handled_run hr).also hs step
    have hrelated := Discipline.run_related (D := deliveryDiscipline configuration)
      (E := handlingDiscipline configuration) MayAcknowledge mayAcknowledge_initial
      (fun hR _ _ _ _ => mayAcknowledge_advance hR) hr i
    rw [step.before, step'.before] at hrelated
    cases hrelated with
    | some hR =>
      have hne := hR input step.allowed
      have ho : h.Allows (.acknowledgementTransition input) := step'.allowed
      cases h <;> simp only [Handling.Allows] at ho
      case looked c found =>
        obtain ⟨r, rfl, message, received, merged, now, -, -, rfl⟩ := ho
        exact named_run hw hr step'.before r rfl
      case elsewhere => exact absurd rfl hne

/-- What a new notification has and every update keeps, every notification has. -/
theorem rows_run {admits : RowWrite → Op → Prop} {Q : NotificationRecord → Prop}
    (hcreated : ∀ draft now, Q (NotificationDraft.row draft now))
    (hwritten : ∀ {w : World} {old new : NotificationRecord} {q : DeliveryPhase} {o : Op}
      {c : Choice}, q.Allows o → o.Acknowledges → Q old → (old, new) ∈ o.writes w c →
        admits (old, new) o → Q new)
    (hw : Fresh w) (h : Run (EachWrite admits) (System.start w) s) {n : Uuid}
    {r : NotificationRecord} (hrow : s.world.row n = some r) : Q r := by
  induction h generalizing n r with
  | refl => exact absurd ((hw.notifications n).symm.trans hrow) nofun
  | @tail s₁ s₂ l hr hadmits hs ih =>
    cases (disciplined_run hr).stepped hs with
    | spawned _ _ _ world | crashed _ _ world =>
      rw [world] at hrow
      exact ih hrow
    | outside _ _ world =>
      rcases (outside_rows world n).2.2 with hkept | ⟨draft, -, -, hnew, -⟩
      · exact ih (hkept.symm.trans hrow)
      · cases hnew.symm.trans hrow
        exact hcreated _ _
    | advanced _ _ _ step =>
      obtain ⟨old, hold, -⟩ := row_before step.exec hrow
      rcases exec_writes step.exec hold with hkept | ⟨new, hmem, hnew⟩
      · cases hkept.symm.trans hrow
        exact ih hold
      · cases hnew.symm.trans hrow
        exact hwritten step.allowed (acknowledges_run hw hr hs rfl step) (ih hold) hmem
          (hadmits _ step.nextOp _ hmem)

/-- Where every write meets no failure, the columns of every notification are consistent. -/
theorem consistent_run (hw : Fresh w)
    (h : Run (EachWrite fun write o => o.Meets write) (System.start w) s) {n : Uuid}
    {r : NotificationRecord} (hrow : s.world.row n = some r) : r.Consistent :=
  rows_run (fun _ _ => NotificationRecord.Unfailed.consistent ⟨rfl, rfl, rfl⟩) consistent_write hw h
    hrow

theorem alertsInPlace_run (hw : Fresh w)
    (h : Run (EachWrite fun write o => o.Spares write) (System.start w) s) {n : Uuid}
    {r : NotificationRecord} (hrow : s.world.row n = some r) : r.AlertsInPlace := by
  refine rows_run ?_ alertsInPlace_write hw h hrow
  intro draft now hshown
  cases hshown

/-- **A delivered notification reports no failure**, in every run in which a success is only ever
recorded on a row without a failure, and an acknowledgement other than an error only over one that
is no error. **The alert is shown only of a notification that is retrying or failed**, in every run
in which none that shows it is claimed again or cancelled, and no error is recorded on a delivered
one. -/
theorem delivered_unfailed (hw : Fresh w) :
    (∀ (s : System (platform configuration)) n r,
      Run (EachWrite fun write o => o.Meets write) (System.start w) s → s.world.row n = some r →
      r.status = .SENT ∨ r.status = .DELIVERED → r.providerAcknowledgement ≠ -1 →
        r.failureCode = none ∧ r.failureReason = none ∧ r.failureClassification = none) ∧
    (∀ (s : System (platform configuration)) n r,
      Run (EachWrite fun write o => o.Spares write) (System.start w) s → s.world.row n = some r →
      r.showsAlert = true → r.status = .RETRYING ∨ r.status = .FAILED) := by
  refine ⟨fun s n r h hrow hs ha => ?_, fun s n r h hrow => alertsInPlace_run hw h hrow⟩
  have hunfailed := (consistent_run hw h hrow).well ⟨hs, ha⟩
  exact ⟨hunfailed.code, hunfailed.reason, hunfailed.classification⟩

end Runs

namespace SecondTry

open Sample

/-- WhatsApp's server fails the first send. -/
def failed : List Step :=
  dispatching 1 ++ Sample.sends 0 0 true ++
    [.advance 0 (.sent (.failed (createProviderFailure .provider_server_error "Bad gateway"))),
      .advance 0 (.date 0), .advance 0 .nothing, .advance 0 (.date 0), .advance 0 (.number 0),
      .advance 0 .nothing]

/-- The retry is accepted. -/
def succeeded : List Step :=
  failed ++ [.spawn 1 (.dispatch ⟨1, 7, "order"⟩)] ++ Sample.sends 1 100000 false ++
    accepted 1 "M1" 100000 ++ [.advance 1 .nothing]

/-- WhatsApp reports the message `M1` delivered. -/
def deliveryReceipt : WebhookDeliveryRepository.RecordWebhookDeliveryInput :=
  { id := 3, applicationId := 1, whatsAppSessionId := 2, providerEventId := "evt"
    eventType := "message.ack", providerSessionName := "main"
    payload := [("id", .string "M1"), ("ack", .number (.finite 2))], receivedAt := 0 }

/-- Another notification is sent while the first one waits for its retry, and is delivered. -/
def besides : List Step :=
  failed ++ [.outside (.created { draft with id := 8 }), .spawn 1 (.dispatch ⟨1, 8, "order"⟩)] ++
    Sample.sends 1 100000 true ++ accepted 1 "M1" 100000 ++ [.advance 1 .nothing,
      .outside (.filed deliveryReceipt), .spawn 2 (.process 3), .advance 2 .nothing,
      .advance 2 .nothing, .advance 2 (.date 100000), .advance 2 .nothing,
      .advance 2 (.date 100000), .advance 2 .nothing]

/-- Nothing is cancelled, no error is acknowledged, and no failure is claimed. -/
def check (s : System (platform configuration)) : Step → Bool
  | .advance i choice =>
    match s.nextOp i with
    | some (.recordSent input) => (Op.writes s.world (.recordSent input) choice).all fun write =>
        write.1.failureCode = none ∧ write.1.failureReason = none ∧
          write.1.failureClassification = none
    | some (.claimForDispatch a n t now) =>
      (Op.writes s.world (.claimForDispatch a n t now) choice).all fun write =>
        !write.1.showsAlert
    | some (.acknowledgementTransition input) => input.merged ≠ .error ∧
      (Op.writes s.world (.acknowledgementTransition input) choice).all fun write =>
        write.1.providerAcknowledgement ≠ -1
    | some (.cancelTransition _) | some (.cancelWaitingTransition _) => false
    | _ => true
  | _ => true

theorem meets_of_check {s : System (platform configuration)} {l : Step} (h : check s l = true) :
    EachWrite (fun write o => o.Meets write) s l ∧ EachWrite (fun write o => o.Spares write) s l := by
  cases l <;> try exact ⟨trivial, trivial⟩
  case advance i choice =>
    refine ⟨fun o ho write hmem => ?_, fun o ho write hmem => ?_⟩
    all_goals simp only [check, ho] at h
    · cases o <;> try trivial
      case recordSent input =>
        have hwrite := List.all_eq_true.1 h write hmem
        simp only [Bool.decide_and, Bool.and_eq_true, decide_eq_true_eq] at hwrite
        exact ⟨hwrite.1, hwrite.2.1, hwrite.2.2⟩
      case acknowledgementTransition input =>
        simp only [Bool.decide_and, Bool.and_eq_true, decide_eq_true_eq] at h
        exact fun _ => of_decide_eq_true (List.all_eq_true.1 h.2 write hmem)
    · cases o <;> try trivial
      case claimForDispatch =>
        have hunshown := List.all_eq_true.1 h write hmem
        simpa only [Op.Spares, Bool.not_eq_true'] using hunshown
      case acknowledgementTransition input =>
        simp only [Bool.decide_and, Bool.and_eq_true, decide_eq_true_eq] at h
        exact fun he => absurd he h.1

end SecondTry

/-- One message is refused and waits for its retry, and shows the alert; another one is delivered
meanwhile, and reports no failure. -/
theorem delivered_unfailed_besides :
    ∃ (s : System (platform Sample.configuration)) (r r' : NotificationRecord),
      s.world.row 7 = some r ∧ r.showsAlert = true ∧ (r.status = .RETRYING ∨ r.status = .FAILED) ∧
      s.world.row 8 = some r' ∧ r'.status = .DELIVERED ∧ r'.failureReason = none := by
  have hrun : Run (fun s l => SecondTry.check s l = true) (System.start (Sample.world .RETRY))
      (Sample.run .RETRY SecondTry.besides) := Run.of_checksEach (by decide +kernel)
  obtain ⟨hdelivered, halert⟩ :=
    @delivered_unfailed Sample.configuration _ (Sample.fresh_world .RETRY)
  have hends : ((Sample.run .RETRY SecondTry.besides).world.row 7).any (·.showsAlert) = true ∧
      ((Sample.run .RETRY SecondTry.besides).world.row 8).any (fun r =>
        r.status = .DELIVERED ∧ r.providerAcknowledgement = 2) = true := by decide +kernel
  obtain ⟨hfailed, hsent⟩ := hends
  obtain ⟨r, hrow, hshown⟩ := (Option.any_eq_true _ _).1 hfailed
  obtain ⟨r', hrow', hr'⟩ := (Option.any_eq_true _ _).1 hsent
  simp only [Bool.decide_and, Bool.and_eq_true, decide_eq_true_eq] at hr'
  have hstatus := halert _ 7 r (hrun.mono fun _ _ h => (SecondTry.meets_of_check h).2) hrow hshown
  obtain ⟨-, hreason, -⟩ := hdelivered _ 8 r'
    (hrun.mono fun _ _ h => (SecondTry.meets_of_check h).1) hrow' (.inr hr'.1)
    (by rw [hr'.2]; decide)
  exact ⟨_, r, r', hrow, hshown, hstatus, hrow', hr'.1, hreason⟩

/-- A message accepted at the second try goes on saying why the first one failed. -/
theorem delivered_unfailed_fails : ¬ ∀ (configuration : Configuration) (w : World)
    (s : System (platform configuration)) (n : Uuid) (r : NotificationRecord), Fresh w →
      Run Any (System.start w) s → s.world.row n = some r →
      r.status = .SENT ∨ r.status = .DELIVERED → r.providerAcknowledgement ≠ -1 →
      r.failureCode = none ∧ r.failureReason = none ∧ r.failureClassification = none := by
  intro h
  have hend : ((Sample.run .RETRY SecondTry.succeeded).world.row 7).any (fun r =>
      r.status = .SENT ∧ r.providerAcknowledgement = 0 ∧
        r.failureReason = some "Bad gateway") = true := by decide +kernel
  obtain ⟨r, hrow, hr⟩ := (Option.any_eq_true _ _).1 hend
  simp only [Bool.decide_and, Bool.and_eq_true, decide_eq_true_eq] at hr
  have hnone := (h _ _ _ 7 r (Sample.fresh_world .RETRY) (Sample.run_any .RETRY SecondTry.succeeded)
    hrow (.inl hr.1) (by rw [hr.2.1]; decide)).2.1
  rw [hr.2.2] at hnone
  cases hnone

end NotificationPlatform
