import NotificationPlatform.Delivery.Discipline

/-!
# The moves of a dispatch

`Move p o r p'` lists the ways a dispatch can come from progress `p` to `p'` by one operation `o`
answered `r`. Together with `Effect` it is what every invariant is proved from: the first says what
the dispatch learnt, the second what became of the notification.
-/

namespace NotificationPlatform

open Interleaving

inductive Move (p : Progress) : (o : Op) → o.Ret → Progress → Prop where
  | connection {o : Op} {r : o.Ret} (kind : o.isConnectionOp = true) : Move p o r p
  | promoting {a n : Uuid} {now : Date} {r : Option NotificationRecord}
      (stage : p.stage = .unclaimed) : Move p (.promoteScheduled a n now) r p
  | recording {event : NotificationEventInput} {r : Unit} (stage : p.stage = .unclaimed) :
      Move p (.appendEvent event) r p
  | explaining {a n : Uuid} {r : Option NotificationRecord} (stage : p.stage = .refused) :
      Move p (.findNotificationById a n) r p
  | drew {t : Uuid} (stage : p.stage = .starting) :
      Move p .randomUuid t { p with stage := .unclaimed, token := some t }
  | claimed {t : Uuid} {now : Date} {c : NotificationRecord} (stage : p.stage = .unclaimed)
      (token : p.token = some t) :
      Move p (.claimForDispatch p.input.applicationId p.input.notificationId t now) (some c)
        { p with stage := .claimed, claimed := some c }
  | refused {a n t : Uuid} {now : Date} (stage : p.stage = .unclaimed) :
      Move p (.claimForDispatch a n t now) none { p with stage := .refused }
  | clear {c : NotificationRecord} (stage : p.stage = .claimed) (claimed : p.claimed = some c) :
      Move p (.findUnresolved c.applicationId c.id) none { p with stage := .clear }
  | found {c : NotificationRecord} {a : SendAttemptRecord} (stage : p.stage = .claimed)
      (claimed : p.claimed = some c) :
      Move p (.findUnresolved c.applicationId c.id) (some a)
        { p with stage := .found, found := some a.attemptNumber }
  | policy {c : NotificationRecord} {settings : Option ApplicationRecord}
      (stage : p.stage = .found ∨ p.stage = .answered) (claimed : p.claimed = some c) :
      Move p (.findDeliverySettings c.applicationId) settings
        { p with policy := some ((settings.map (·.unknownOutcomePolicy)).getD .RETRY) }
  | lost {input : BeginAttemptInput} (stage : p.stage = .clear) :
      Move p (.beginAttempt input) none { p with stage := .exited .not_claimable }
  | begun {input : BeginAttemptInput} {c : NotificationRecord} {k : Nat}
      (stage : p.stage = .clear) (token : p.token = some input.claimToken)
      (claimed : p.claimed = some c) (application : input.applicationId = c.applicationId)
      (names : input.notificationId = c.id) :
      Move p (.beginAttempt input) (some k) { p with stage := .begun, attempt := some k }
  | sent {sessionName chatIdentifier text : String} {r : Unit} (stage : p.stage = .begun)
      (attempt : p.attempt.isSome = true) (budget : ¬ p.Exhausted) :
      Move p (.sendTextMessage sessionName chatIdentifier text) r
        { p with stage := .awaiting, sent := true }
  | answered {result : ProviderResult SentMessage} (stage : p.stage = .awaiting) :
      Move p .sendTextMessageAnswer result { p with stage := .answered, answer := some result }
  | settled {input : ResolveSendAttemptInput} {c : NotificationRecord} {r : Unit}
      (claimed : p.claimed = some c) (application : input.applicationId = c.applicationId)
      (names : input.notificationId = c.id) (may : p.MayResolve input) :
      Move p (.resolveAttempt input) r (p.settle input.outcome)
  | recorded {input : RecordSentInput} {sent : SentMessage} (stage : p.stage = .answered)
      (claimed : p.claimed = some input.notification)
      (attempt : p.attempt = some input.attemptNumber)
      (answer : p.answer = some (.succeeded sent))
      (message : input.providerMessageId = sent.providerMessageId) :
      Move p (.recordSent input) true
        { p with stage := .exited .sent, recorded := some .SUCCEEDED }
  | unrecorded {input : RecordSentInput} (stage : p.stage = .answered)
      (claimed : p.claimed = some input.notification) :
      Move p (.recordSent input) false { p with stage := .exited .not_claimable }
  | left {notification : NotificationRecord} {step : TransitionStep} {r : Bool}
      (claimed : p.claimed = some notification) (mayLeave : p.MayLeave)
      (mayStep : p.MayStep step) :
      Move p (.transitionAndRecord notification step) r
        { p with stage := .exited (if step.nextStatus = .FAILED then .failed
                                   else .retry_scheduled) }
  | deferred {input : DeferInput} (claimed : p.claimed = some input.notification)
      (mayLeave : p.MayLeave) (may : ¬ p.MustFail) :
      Move p (.deferTransition input) true { p with stage := .exited .deferred }
  | deferring {input : DeferInput} (claimed : p.claimed = some input.notification)
      (mayLeave : p.MayLeave) (may : ¬ p.MustFail) :
      Move p (.deferTransition input) false { p with stage := .deferring }
  | enqueued {job : DispatchJob} {r : Bool} (stage : p.stage = .refused ∨ p.stage = .deferring) :
      Move p (.enqueueDispatch job) r { p with stage := .exited .deferred }

/-- Whatever a dispatch is allowed to do is one of its moves. -/
theorem move_of_allows {p : Progress} {o : Op} {r : o.Ret} (h : p.Allows o) :
    Move p o r (p.advance o r) := by
  cases o
  case randomUuid => exact .drew h
  case promoteScheduled => exact .promoting h.1
  case appendEvent => exact .recording h.1
  case claimForDispatch =>
    obtain ⟨hs, rfl, rfl, ht⟩ := h
    cases r with
    | none => exact .refused hs
    | some c => exact .claimed hs ht
  case findNotificationById => exact .explaining h
  case findUnresolved =>
    obtain ⟨hs, c, hc, rfl, rfl⟩ := h
    cases r with
    | none => exact .clear hs hc
    | some a => exact .found hs hc
  case findDeliverySettings =>
    obtain ⟨hs, c, hc, rfl⟩ := h
    exact .policy hs hc
  case beginAttempt =>
    obtain ⟨hs, ht, c, hc, ha, hn⟩ := h
    cases r with
    | none => exact .lost hs
    | some k => exact .begun hs ht hc ha hn
  case sendTextMessage => exact .sent h.1 h.2.1 h.2.2
  case sendTextMessageAnswer => exact .answered h
  case resolveAttempt =>
    obtain ⟨⟨c, hc, ha, hn⟩, hm⟩ := h
    exact .settled hc ha hn hm
  case recordSent =>
    obtain ⟨hs, hc, hk, sent, ha, hm⟩ := h
    cases r with
    | false => exact .unrecorded hs hc
    | true => exact .recorded hs hc hk ha hm
  case transitionAndRecord => exact .left h.1 h.2.1 h.2.2
  case deferTransition =>
    cases r with
    | true => exact .deferred h.1 h.2.1 h.2.2
    | false => exact .deferring h.1 h.2.1 h.2.2
  case enqueueDispatch => exact .enqueued h
  all_goals first
    | exact .connection rfl
    | exact absurd h.1 (by simp [Op.isConnectionOp])

/-! ## Looking a dispatch up -/

/-- The phases of all threads. -/
abbrev Phases := Nat → Option DeliveryPhase

/-- Thread `i` is a dispatch that came as far as `p`. -/
def Dispatching (ph : Phases) (i : Nat) (p : Progress) : Prop := ph i = some (.dispatching p)

theorem Dispatching.unique {ph : Phases} {i : Nat} {p p' : Progress} (h : Dispatching ph i p)
    (h' : Dispatching ph i p') : p = p' := by
  cases h.symm.trans h'
  rfl

theorem dispatching_self {ph : Phases} {i : Nat} {q : DeliveryPhase} {p : Progress} :
    Dispatching (Function.update ph i (some q)) i p ↔ q = .dispatching p := by
  simp only [Dispatching, Function.update_self, Option.some.injEq]

theorem dispatching_other {ph : Phases} {i j : Nat} (hji : j ≠ i) {q : Option DeliveryPhase}
    {p : Progress} : Dispatching (Function.update ph i q) j p ↔ Dispatching ph j p := by
  simp only [Dispatching, Function.update_of_ne hji]

theorem serving_advance (request : Request) (cancelled : List Uuid) (o : Op) (r : o.Ret) :
    ∃ cancelled', (DeliveryPhase.serving request cancelled).advance o r =
      .serving request cancelled' := by
  cases o
  case cancelTransition => cases r <;> exact ⟨_, rfl⟩
  all_goals exact ⟨_, rfl⟩

/-- A dispatch after a step: the one that moved, or another one as it was. -/
theorem dispatching_advance {ph : Phases} {i j : Nat} {q : DeliveryPhase} {o : Op} {r : o.Ret}
    {p' : Progress} (hi : ph i = some q) (ho : q.Allows o)
    (h : Dispatching (Function.update ph i (some (q.advance o r))) j p') :
    (j ≠ i ∧ Dispatching ph j p') ∨ (j = i ∧ ∃ p, Dispatching ph j p ∧ Move p o r p') := by
  by_cases hji : j = i
  · subst hji
    right
    rw [dispatching_self] at h
    cases q with
    | dispatching p =>
      cases h
      exact ⟨rfl, p, hi, move_of_allows ho⟩
    | serving request cancelled =>
      obtain ⟨cancelled', hc⟩ := serving_advance request cancelled o r
      rw [hc] at h
      cases h
  · exact .inl ⟨hji, (dispatching_other hji).1 h⟩

/-- Every dispatch is still there after a step, as it was or one move on. -/
theorem Dispatching.continues {ph : Phases} {i j : Nat} {q : DeliveryPhase} {o : Op} {r : o.Ret}
    {p : Progress} (h : Dispatching ph j p) (hi : ph i = some q) (ho : q.Allows o) :
    ∃ p', Dispatching (Function.update ph i (some (q.advance o r))) j p' ∧
      ((j ≠ i ∧ p' = p) ∨ (j = i ∧ Move p o r p')) := by
  by_cases hji : j = i
  · subst hji
    cases h.symm.trans hi
    exact ⟨p.advance o r, dispatching_self.2 rfl, .inr ⟨rfl, move_of_allows ho⟩⟩
  · exact ⟨p, (dispatching_other hji).2 h, .inl ⟨hji, rfl⟩⟩

/-- A dispatch after another call was started. -/
theorem dispatching_spawn {ph : Phases} {i j : Nat} {request : Request} {p' : Progress}
    (h : Dispatching (Function.update ph i (some (DeliveryPhase.initial request))) j p') :
    (j ≠ i ∧ Dispatching ph j p') ∨ (j = i ∧ ∃ input, p' = { input }) := by
  by_cases hji : j = i
  · subst hji
    right
    rw [dispatching_self] at h
    cases request <;> cases h
    exact ⟨rfl, _, rfl⟩
  · exact .inl ⟨hji, (dispatching_other hji).1 h⟩

/-! ## Who may do what -/

section Allowed

variable {q : DeliveryPhase}

/-- The operations only a dispatch performs. -/
def Op.isDispatchOp : Op → Bool
  | .randomUuid | .promoteScheduled _ _ _ | .claimForDispatch _ _ _ _ => true
  | .beginAttempt _ | .recordSent _ | .deferTransition _ | .transitionAndRecord _ _ => true
  | .sendTextMessage _ _ _ | .sendTextMessageAnswer | .resolveAttempt _ => true
  | _ => false

theorem dispatching_of_allows {o : Op} (ho : o.isDispatchOp = true) (h : q.Allows o) :
    ∃ p, q = .dispatching p ∧ p.Allows o := by
  cases q with
  | dispatching p => exact ⟨p, rfl, h⟩
  | serving request cancelled =>
    exfalso
    cases o <;> cases request <;>
      simp [Op.isDispatchOp, DeliveryPhase.Allows, Serves, Op.isConnectionOp,
        Op.isReadOrInbox] at ho h

theorem cancellable_of_allows {input : CancelInput} (h : q.Allows (.cancelTransition input)) :
    isCancellableNotificationStatus input.expectedStatus = true := by
  cases q with
  | dispatching p => exact absurd h.1 (by simp [Op.isConnectionOp])
  | serving request cancelled =>
    cases request with
    | cancel a n c => exact h.2.2
    | dispatch => exact h.elim
    | _ => exact absurd h (by simp [DeliveryPhase.Allows, Serves, Op.isConnectionOp,
        Op.isReadOrInbox])

theorem acknowledgement_of_allows {input : AcknowledgementInput}
    (h : q.Allows (.acknowledgementTransition input)) : ∃ notification merged received now,
      input = ProcessWebhookService.acknowledgementInput notification merged received now := by
  cases q with
  | dispatching p => exact absurd h.1 (by simp [Op.isConnectionOp])
  | serving request cancelled =>
    cases request with
    | process d => exact h
    | dispatch => exact h.elim
    | _ => exact absurd h (by simp [DeliveryPhase.Allows, Serves, Op.isConnectionOp,
        Op.isReadOrInbox])

end Allowed

/-! ## What the transitions make of a row -/

/-- Retrying and failing give the claim up, and say nothing of a message. -/
theorem Progress.MayStep.leaves {p : Progress} {step : TransitionStep} (h : p.MayStep step)
    (c old : NotificationRecord) : ((step.transition c).apply old).claimToken = none ∧
      (((step.transition c).apply old).status = .FAILED ∨
        ((step.transition c).apply old).status = .RETRYING) ∧
      ((step.transition c).apply old).providerMessageId = old.providerMessageId := by
  rcases h with ⟨hs, failure, now, hc⟩ | ⟨hs, -, failure, dueAt, hc⟩
  · refine ⟨?_, .inl hs, ?_⟩ <;> simp [TransitionStep.transition,
      NotificationRepository.TransitionInput.apply, hc, DispatchNotificationService.failChanges]
  · refine ⟨?_, .inr hs, ?_⟩ <;> simp [TransitionStep.transition,
      NotificationRepository.TransitionInput.apply, hc, DispatchNotificationService.retryChanges]

theorem resolveStatus_eq_or (s : NotificationStatus) (m : DeliveryAcknowledgement) :
    ProcessWebhookService.resolveStatus s m = s ∨ (s = .SENT ∧
      (ProcessWebhookService.resolveStatus s m = .FAILED ∨
        ProcessWebhookService.resolveStatus s m = .DELIVERED)) := by
  unfold ProcessWebhookService.resolveStatus
  split
  · exact .inl rfl
  · rename_i hs
    have hs : s = .SENT := not_not.1 hs
    split
    · exact .inr ⟨hs, .inl rfl⟩
    · split
      · exact .inr ⟨hs, .inr rfl⟩
      · exact .inl rfl

/-! ## What a step makes of a row -/

/-- The operation, as it was answered, put notification `n` back into the queue. -/
def Requeues (n : Uuid) : (o : Op) → o.Ret → Prop
  | .releaseClaim notification _, true => notification.id = n
  | .deferTransition input, true => input.notification.id = n
  | .transitionAndRecord notification step, true =>
    notification.id = n ∧ step.nextStatus = .RETRYING
  | _, _ => False

/-- The operations that cancel. -/
def Op.isCancel : Op → Bool
  | .cancelTransition _ | .cancelWaitingTransition _ => true
  | _ => false

/-- The status, the token and the message of a row, before and after an allowed operation. -/
inductive RowStep (n : Uuid) : (o : Op) → o.Ret → NotificationRecord → NotificationRecord →
    Prop where
  | same {o : Op} {r : o.Ret} {old new : NotificationRecord} (status : new.status = old.status)
      (token : new.claimToken = old.claimToken)
      (message : new.providerMessageId = old.providerMessageId) : RowStep n o r old new
  | promoted {a : Uuid} {now : Date} {old new : NotificationRecord} (was : old.status = .SCHEDULED)
      (status : new.status = .QUEUED) (token : new.claimToken = old.claimToken)
      (message : new.providerMessageId = old.providerMessageId) :
      RowStep n (.promoteScheduled a n now) (some new) old new
  | claimed {a t : Uuid} {now : Date} {old new : NotificationRecord}
      (was : old.status = .QUEUED ∨ old.status = .RETRYING) (status : new.status = .PROCESSING)
      (token : new.claimToken = some t) (message : new.providerMessageId = old.providerMessageId) :
      RowStep n (.claimForDispatch a n t now) (some new) old new
  | sent {input : RecordSentInput} {old new : NotificationRecord}
      (names : input.notification.id = n) (was : old.status = .PROCESSING)
      (status : new.status = .SENT) (token : new.claimToken = none)
      (message : new.providerMessageId = some input.providerMessageId) :
      RowStep n (.recordSent input) true old new
  | requeued {o : Op} {r : o.Ret} {old new : NotificationRecord} (requeues : Requeues n o r)
      (was : old.status = .PROCESSING) (status : new.status = .RETRYING)
      (token : new.claimToken = none) (message : new.providerMessageId = old.providerMessageId) :
      RowStep n o r old new
  | failed {notification : NotificationRecord} {step : TransitionStep}
      {old new : NotificationRecord} (names : notification.id = n)
      (fails : step.nextStatus = .FAILED) (was : old.status = .PROCESSING)
      (status : new.status = .FAILED) (token : new.claimToken = none)
      (message : new.providerMessageId = old.providerMessageId) :
      RowStep n (.transitionAndRecord notification step) true old new
  | cancelled {o : Op} {r : o.Ret} {old new : NotificationRecord} (cancels : o.isCancel = true)
      (was : isCancellableNotificationStatus old.status = true) (status : new.status = .CANCELLED)
      (token : new.claimToken = old.claimToken)
      (message : new.providerMessageId = old.providerMessageId) : RowStep n o r old new
  | acknowledged {input : AcknowledgementInput} {old new : NotificationRecord}
      (names : input.notification.id = n) (was : old.status = .SENT)
      (status : new.status = .FAILED ∨ new.status = .DELIVERED)
      (token : new.claimToken = old.claimToken)
      (message : new.providerMessageId = old.providerMessageId) :
      RowStep n (.acknowledgementTransition input) true old new

theorem Effect.row_step {n : Uuid} {w w' : World} {o : Op} {r : o.Ret} {q : DeliveryPhase}
    (h : Effect n w w' o r) (ho : q.Allows o) {old new : NotificationRecord}
    (hold : w.row n = some old) (hnew : w'.row n = some new) : RowStep n o r old new := by
  cases h with
  | kept row | resolved names row =>
    cases (row.trans hold).symm.trans hnew
    exact .same rfl rfl rfl
  | promoted before status after =>
    cases hold.symm.trans before
    cases hnew.symm.trans after
    exact .promoted status rfl rfl rfl
  | @claimed a t now old' new' before _ claimable new_eq after =>
    cases hold.symm.trans before
    cases hnew.symm.trans after
    rw [new_eq]
    refine .claimed ?_ rfl rfl rfl
    simp only [NotificationRepository.isClaimable, Bool.decide_or, Bool.or_eq_true,
      decide_eq_true_eq] at claimable
    exact claimable.imp id (·.1)
  | begun names before application token status number after =>
    cases hold.symm.trans before
    cases hnew.symm.trans after
    exact .same rfl rfl rfl
  | sent names moved =>
    subst names
    cases hold.symm.trans moved.before
    cases hnew.symm.trans moved.after
    exact .sent rfl moved.status rfl rfl rfl
  | deferred names moved | released names moved =>
    subst names
    cases hold.symm.trans moved.before
    cases hnew.symm.trans moved.after
    exact .requeued rfl moved.status rfl rfl rfl
  | @transitioned c step old' names moved =>
    subst names
    cases hold.symm.trans moved.before
    cases hnew.symm.trans moved.after
    obtain ⟨p, -, hp⟩ := dispatching_of_allows rfl ho
    obtain ⟨htoken, -, hmessage⟩ := hp.2.2.leaves c old
    rcases hp.2.2 with ⟨hs, -⟩ | ⟨hs, -⟩
    · exact .failed rfl hs moved.status hs htoken hmessage
    · exact .requeued ⟨rfl, hs⟩ moved.status hs htoken hmessage
  | @cancelled input old' names moved =>
    subst names
    cases hold.symm.trans moved.before
    cases hnew.symm.trans moved.after
    have hstatus : old.status = input.expectedStatus := moved.status
    exact .cancelled rfl (hstatus ▸ cancellable_of_allows ho) rfl rfl rfl
  | cancelledWaiting before status after =>
    cases hold.symm.trans before
    cases hnew.symm.trans after
    refine .cancelled rfl ?_ rfl rfl rfl
    rcases status with hs | hs <;> rw [hs] <;> rfl
  | @acknowledged input old' names moved =>
    subst names
    cases hold.symm.trans moved.before
    cases hnew.symm.trans moved.after
    obtain ⟨notification, merged, received, now, rfl⟩ := acknowledgement_of_allows ho
    have hstatus : old.status = notification.status := moved.status
    rcases resolveStatus_eq_or notification.status merged with hs | ⟨hs, hs'⟩
    · exact .same (hs.trans hstatus.symm) rfl rfl
    · exact .acknowledged rfl (hstatus.trans hs) hs' rfl rfl

end NotificationPlatform
