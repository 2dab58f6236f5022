import NotificationPlatform.Platform.Machine

/-!
# What the parts of the services perform

For each program of the services that several developments look at, the operations it is made of: a
dispatch on its way out, what looks after a connection, what follows once a connection is prepared,
and the services other than the dispatch. Each is proved once, and says as much of the arguments of
its operations as anybody needs.
-/

namespace NotificationPlatform

open Interleaving DispatchNotificationService

/-! ## The operations of a dispatch on its way out -/

/-- What `fail` and `retry` write: a failure that is permanent, and one that is not. -/
def TransitionStep.Classified (step : TransitionStep) : Prop :=
  ∃ failure, (step.nextStatus = .FAILED ∧ isRetryable failure = false ∧
      ∃ now, step.changes = failChanges failure now) ∨
    (step.nextStatus = .RETRYING ∧ isRetryable failure = true ∧
      ∃ dueAt, step.changes = retryChanges failure dueAt)

/-- The operations that end the processing of a notification, and those that go with them. -/
def Op.Leaves : Op → Prop
  | .clockNow | .integerBetween _ _ | .throwException _ => True
  | .resolveAttempt _ | .deferTransition _ | .enqueueDispatch _ => True
  | .transitionAndRecord _ step => step.Classified
  | _ => False

/-- A program that only leaves. -/
def Leaving {α : Type} (p : Program α) : Prop := p.Uses Op.Leaves

namespace Leaving

theorem perform {o : Op} (h : o.Leaves) : Leaving (perform o) := ⟨h, fun _ => trivial⟩

theorem bind {α β : Type} {p : Program α} {f : α → Program β} (hp : Leaving p)
    (hf : ∀ a, Leaving (f a)) : Leaving (p >>= f) := Prog.Uses.bind hp hf

theorem pure {α : Type} (a : α) : Leaving (Pure.pure a : Program α) := trivial

end Leaving

section Leaving

variable (c : Configuration) (notification : NotificationRecord) (input : DispatchInput)

theorem leaving_fail {failure : ProviderFailure} (h : isRetryable failure = false)
    (k : Option Nat) : Leaving (fail notification failure input k) :=
  .bind (.perform trivial) fun now =>
    .bind (.perform ⟨failure, .inl ⟨rfl, h, now, rfl⟩⟩) fun _ => .pure _

theorem leaving_retry {failure : ProviderFailure} (h : isRetryable failure = true) (minimum : ℚ)
    (k : Option Nat) : Leaving (retry notification failure input minimum k) := by
  refine .bind (.perform trivial) fun now => .bind (.perform trivial) fun draw => ?_
  split
  · exact .bind (.perform trivial) fun e => nomatch e
  · exact .bind (.perform ⟨failure, .inr ⟨rfl, h, _, rfl⟩⟩) fun _ => .pure _

theorem leaving_deferQuietly (dueAt : Date) (detail : DispatchDetail) :
    Leaving (deferQuietly notification dueAt input detail) := by
  refine .bind (.perform trivial) fun now => .bind (.perform trivial) fun transitioned => ?_
  split
  · exact .pure _
  · exact .bind (.perform trivial) fun _ => .pure _

theorem leaving_waitForConnection (session : WhatsAppSessionRecord) :
    Leaving (waitForConnection c notification session input) := by
  refine .bind (.bind (.perform trivial) fun _ => .pure _) fun elapsed => ?_
  split
  · exact leaving_fail _ _ rfl _
  · split
    · exact leaving_retry _ _ rfl _ _
    · exact .bind (.perform trivial) fun _ => leaving_deferQuietly _ _ _ _

theorem leaving_waitForPause (pausedUntil : Date) :
    Leaving (waitForPause c notification pausedUntil input) := by
  unfold waitForPause
  split
  · exact leaving_fail _ _ rfl _
  · refine .bind (.perform trivial) fun draw => ?_
    split
    · exact .bind (.perform trivial) fun _ => leaving_retry _ _ rfl _ _
    · exact leaving_deferQuietly _ _ _ _

theorem leaving_resolveAttempt (k : Nat) (outcome : SendAttemptOutcome)
    (code : ProviderFailureCode) : Leaving (resolveAttempt notification k outcome code) :=
  .bind (.perform trivial) fun _ => .perform trivial

theorem leaving_resolveUnknownOutcome (k : Nat) (policy : UnknownOutcomePolicy)
    (failure : Option ProviderFailure) :
    Leaving (resolveUnknownOutcome notification k policy input failure) := by
  refine .bind (leaving_resolveAttempt _ _ _ _) fun _ => ?_
  split
  · exact leaving_fail _ _ rfl _
  · split
    · exact leaving_fail _ _ rfl _
    · exact leaving_retry _ _ rfl _ _

end Leaving

/-! ## Looking after a connection -/

/-- The operations that concern neither a row of a notification nor the time of one. -/
def Op.isMild : Op → Bool
  | .clockNow | .integerBetween _ _ | .isAborted | .throwException _ => true
  | .findUnresolved _ _ | .resolveAttempt _ | .findDeliverySettings _ => true
  | .recordStatus _ _ | .invalidateAccountLimits _ => true
  | .recordAccountLimits _ _ | .readNextSendAllowedAt _ => true
  | .sendTextMessageAnswer | .fetchAccountLimits _ | .getSession _ => true
  | _ => false

def Mild {α : Type} (x : Program α) : Prop := x.Uses fun o : Op => o.isMild = true

/-- Looking after a connection, and rereading it. -/
def Op.Tends (applicationId sessionId : Uuid) (o : Op) : Prop :=
  o.isMild = true ∨ o = .findSessionById applicationId sessionId

def Tending {α : Type} (a s : Uuid) (x : Program α) : Prop := x.Uses (Op.Tends a s)

/-- What a dispatch does once it will not call the provider any more. -/
def Op.EndsWith (c : NotificationRecord) : Op → Prop
  | .beginAttempt _ | .recordSent _ | .deferTransition _ | .enqueueDispatch _ => True
  | .transitionAndRecord _ step => step.Classified
  | o => o.Tends c.applicationId c.whatsAppSessionId

def Ending {α : Type} (c : NotificationRecord) (x : Program α) : Prop := x.Uses (Op.EndsWith c)

section Uses

variable {α β : Type} {a s : Uuid} {c : NotificationRecord}

theorem Mild.perform {o : Op} (h : o.isMild = true) : Mild (perform o) := ⟨h, fun _ => trivial⟩

theorem Mild.bind {x : Program α} {f : α → Program β} (hx : Mild x) (hf : ∀ a, Mild (f a)) :
    Mild (x >>= f) := Prog.Uses.bind hx hf

theorem Mild.pure (a : α) : Mild (Pure.pure a : Program α) := trivial

theorem Tending.perform {o : Op} (h : o.isMild = true) : Tending a s (perform o) :=
  ⟨.inl h, fun _ => trivial⟩

theorem Tending.bind {x : Program α} {f : α → Program β} (hx : Tending a s x)
    (hf : ∀ b, Tending a s (f b)) : Tending a s (x >>= f) := Prog.Uses.bind hx hf

theorem Tending.pure (b : α) : Tending a s (Pure.pure b : Program α) := trivial

theorem Mild.tending {x : Program α} (h : Mild x) : Tending a s x := Prog.Uses.mono h fun _ => .inl

theorem Op.Tends.endsWith {o : Op} (h : o.Tends c.applicationId c.whatsAppSessionId) :
    o.EndsWith c := by
  cases o
  case transitionAndRecord => exact absurd h (by simp [Op.Tends, Op.isMild])
  all_goals first | exact trivial | exact h

theorem Ending.perform {o : Op} (h : o.EndsWith c) : Ending c (perform o) := ⟨h, fun _ => trivial⟩

theorem Ending.bind {x : Program α} {f : α → Program β} (hx : Ending c x)
    (hf : ∀ b, Ending c (f b)) : Ending c (x >>= f) := Prog.Uses.bind hx hf

theorem Ending.pure (b : α) : Ending c (Pure.pure b : Program α) := trivial

theorem Tending.ending {x : Program α} (h : Tending c.applicationId c.whatsAppSessionId x) :
    Ending c x := Prog.Uses.mono h fun _ => Op.Tends.endsWith

theorem Leaving.ending {x : Program α} (h : Leaving x) : Ending c x := by
  refine Prog.Uses.mono h fun o ho => ?_
  cases o <;> first | exact trivial | exact ho | exact .inl rfl | cases ho

theorem Mild.ending {x : Program α} (h : Mild x) : Ending c x := h.tending.ending

end Uses

section Connections

open ConnectionLimitsService ConnectionStateService

variable {configuration : Configuration} {r : WhatsAppSessionRecord}

theorem mild_record (limits : Option AccountLimits) (observed : Bool) :
    Mild (ConnectionLimitsService.record configuration r limits observed) :=
  .bind (.perform rfl) fun _ => .perform rfl

theorem mild_readReportedLimits : Mild (readReportedLimits r) := by
  refine .bind (.perform rfl) fun live => ?_
  rcases live with _ | _
  · rename_i session
    cases session <;> exact .pure _
  · exact .pure _

theorem mild_fetchLimits : Mild (fetchLimits r) := by
  refine .bind (.perform rfl) fun fresh => ?_
  cases fresh with
  | succeeded limits => exact .pure _
  | failed failure => exact mild_readReportedLimits

theorem mild_recordEndedPause (limits : Option AccountLimits) :
    Mild (recordEndedPause r limits) := by
  cases limits with
  | none => exact .pure _
  | some limits => exact .bind (.perform rfl) fun _ => .perform rfl

theorem mild_refreshedLimits : Mild (refreshedLimits r) := by
  unfold refreshedLimits
  split
  · exact mild_fetchLimits
  · exact mild_readReportedLimits

theorem mild_recordRefusal (refusal : ProviderFailureCode) :
    Mild (recordRefusal configuration r refusal) :=
  .bind mild_fetchLimits fun _ => mild_record _ _

theorem tending_reread : Tending r.applicationId r.id (reread r) :=
  .bind ⟨.inr rfl, fun _ => trivial⟩ fun _ => .pure _

theorem tending_refreshStatus :
    Tending r.applicationId r.id (refreshStatus configuration r) := by
  refine .bind (.perform rfl) fun live => ?_
  split
  · exact .pure _
  · refine .bind (.perform rfl) fun now => ?_
    split
    · exact tending_reread
    · exact .bind (.perform rfl) fun _ => tending_reread
  · refine .bind (.perform rfl) fun now => .bind (.perform rfl) fun _ => ?_
    split
    · exact tending_reread
    · exact .bind (mild_record _ _).tending fun _ => tending_reread

end Connections

/-! ## Ending a dispatch -/

section Ending

open DispatchNotificationService ConnectionStateService

variable {configuration : Configuration} {c notification : NotificationRecord}
  {r : WhatsAppSessionRecord} {input : DispatchInput}

theorem ending_readUnknownOutcomePolicy (a : Uuid) : Ending c (readUnknownOutcomePolicy a) :=
  .bind (.perform (.inl rfl)) fun _ => .pure _

theorem ending_refreshStatus (hid : r.id = c.whatsAppSessionId)
    (ha : r.applicationId = c.applicationId) : Ending c (refreshStatus configuration r) := by
  have h := @tending_refreshStatus configuration r
  rw [hid, ha] at h
  exact h.ending

theorem ending_handleSendFailure (hid : r.id = c.whatsAppSessionId)
    (ha : r.applicationId = c.applicationId) (k : Nat) (failure : ProviderFailure) :
    Ending c (handleSendFailure configuration notification r k failure input) := by
  unfold handleSendFailure
  split
  · exact .bind (ending_readUnknownOutcomePolicy _) fun _ =>
      (leaving_resolveUnknownOutcome _ _ _ _ _).ending
  · refine .bind (leaving_resolveAttempt _ _ _ _).ending fun _ => .bind ?_ fun _ => ?_
    · unfold recordRefusalOf
      split
      · exact (mild_recordRefusal _).ending
      · exact .pure _
    · split
      · exact .bind (ending_refreshStatus hid ha) fun _ => (leaving_waitForConnection _ _ _ _).ending
      · split
        · rename_i hpermanent
          exact (leaving_fail _ _ hpermanent _).ending
        · rename_i hretryable
          have hretryable : isRetryable failure = true := Bool.of_not_eq_false hretryable
          split
          · exact (leaving_fail _ _ rfl _).ending
          · split
            · exact .bind (ending_refreshStatus hid ha) fun _ =>
                (leaving_retry _ _ hretryable _ _).ending
            · exact (leaving_retry _ _ hretryable _ _).ending

theorem ending_recordSuccess (k : Nat) (sent : SentMessage) (chatIdentifier : String) :
    Ending c (recordSuccess notification k sent chatIdentifier input) := by
  refine .bind (.perform (.inl rfl)) fun now => .bind (.perform (.inl rfl)) fun resolvedAt =>
    .bind (.perform trivial) fun wasRecorded => ?_
  split <;> exact .pure _

end Ending

/-! ## From a prepared connection on -/

/-- The operations of a dispatch that is done with the question. -/
def Op.Finishes (c : NotificationRecord) : Op → Prop
  | .claimForDispatch _ _ _ _ | .claimAccountLimitsRefresh _ _ _ => False
  | .findSessionById _ s => s = c.whatsAppSessionId
  | .transitionAndRecord _ step => step.Classified
  | _ => True

def Finishing {α : Type} (c : NotificationRecord) (x : Program α) : Prop := x.Uses (Op.Finishes c)

namespace Finishing

variable {α β : Type} {c : NotificationRecord}

theorem perform {o : Op} (h : o.Finishes c) : Finishing c (perform o) := ⟨h, fun _ => trivial⟩

theorem bind {x : Program α} {f : α → Program β} (hx : Finishing c x)
    (hf : ∀ a, Finishing c (f a)) : Finishing c (x >>= f) := Prog.Uses.bind hx hf

theorem pure (a : α) : Finishing c (Pure.pure a : Program α) := trivial

end Finishing

theorem Ending.finishing {α : Type} {c : NotificationRecord} {x : Program α} (h : Ending c x) :
    Finishing c x := by
  refine Prog.Uses.mono h fun o ho => ?_
  cases o <;> first
    | exact trivial
    | exact ho
    | (simp [Op.EndsWith, Op.Tends, Op.isMild] at ho; try exact ho.2)

section Finishing

open DispatchNotificationService ConnectionStateService

variable {configuration : Configuration} {c notification : NotificationRecord}
  {r : WhatsAppSessionRecord} {input : DispatchInput}

theorem finishing_resolveRecipient (hid : r.id = c.whatsAppSessionId)
    (ha : r.applicationId = c.applicationId) :
    Finishing c (resolveRecipient configuration notification r input) := by
  unfold resolveRecipient
  split
  · exact .pure _
  · refine .bind (.perform trivial) fun resolved => ?_
    cases resolved with
    | failed failure =>
      simp only
      split
      · exact .bind (ending_refreshStatus hid ha).finishing fun _ =>
          .bind (leaving_waitForConnection _ _ _ _).ending.finishing fun _ => .pure _
      · split
        · rename_i hretryable
          exact .bind (leaving_retry _ _ hretryable _ _).ending.finishing fun _ => .pure _
        · rename_i hpermanent
          exact .bind (leaving_fail _ _ (Bool.of_not_eq_true hpermanent) _).ending.finishing
            fun _ => .pure _
    | succeeded value =>
      simp only
      split
      · exact .pure _
      · exact .bind (leaving_fail _ _ rfl _).ending.finishing fun _ => .pure _

theorem finishing_send (hid : r.id = c.whatsAppSessionId) (ha : r.applicationId = c.applicationId)
    (k : Nat) (chatIdentifier : String) :
    Finishing c (send configuration notification r k chatIdentifier input) := by
  refine .bind (.perform trivial) fun _ => .bind (.perform trivial) fun result => ?_
  cases result with
  | failed failure => exact (ending_handleSendFailure hid ha _ _).finishing
  | succeeded sent => exact (ending_recordSuccess _ _ _).finishing

theorem finishing_deliver {t : Uuid} (hid : r.id = c.whatsAppSessionId)
    (ha : r.applicationId = c.applicationId) :
    Finishing c (deliver configuration notification r t input) := by
  refine .bind (finishing_resolveRecipient hid ha) fun recipient => ?_
  cases recipient with
  | result result => exact .pure _
  | chatIdentifier chatIdentifier =>
    refine .bind ?_ fun _ => .bind (.perform trivial) fun aborted => ?_
    · unfold showTyping
      split
      · exact .bind (.perform trivial) fun _ => .perform trivial
      · exact .pure _
    · split
      · exact .bind (.perform trivial) fun _ => (leaving_deferQuietly _ _ _ _).ending.finishing
      · refine .bind (.bind (.perform trivial) fun _ => .perform trivial) fun attempt => ?_
        cases attempt with
        | none => exact .pure _
        | some k =>
          simp only
          split
          · exact (leaving_fail _ _ rfl _).ending.finishing
          · exact finishing_send hid ha _ _

/-- From a prepared connection on, nobody asks who refreshes the limits. -/
theorem finishing_prepared {t : Uuid} (hid : r.id = c.whatsAppSessionId)
    (ha : r.applicationId = c.applicationId) :
    Finishing c (do
      let paused ← readIsPaused r
      match paused with
      | some pausedUntil => waitForPause configuration notification pausedUntil input
      | none =>
        let now ← perform .clockNow
        let slot ← reserveSendSlot r.id now
        if slot.1 then deliver configuration notification r t input
        else deferQuietly notification slot.2 input .send_pacing) := by
  refine .bind ?_ fun paused => ?_
  · unfold readIsPaused
    split
    · exact .pure _
    · exact .bind (.perform trivial) fun _ => .pure _
  · cases paused with
    | some pausedUntil => exact (leaving_waitForPause _ _ _ _).ending.finishing
    | none =>
      refine .bind (.perform trivial) fun now => .bind (.bind (.perform trivial) fun reserved => ?_)
        fun slot => ?_
      · cases reserved with
        | some nextSendAllowedAt => exact .pure _
        | none => exact .bind (.perform trivial) fun _ => .pure _
      · split
        · exact finishing_deliver hid ha
        · exact (leaving_deferQuietly _ _ _ _).ending.finishing

end Finishing

/-! ## A whole dispatch -/

/-- Whatever ends the processing of a notification says which kind of failure it was. -/
def Op.Classifies : Op → Prop
  | .transitionAndRecord _ step => step.Classified
  | _ => True

def Classifying {α : Type} (x : Program α) : Prop := x.Uses Op.Classifies

namespace Classifying

variable {α β : Type}

theorem perform {o : Op} (h : o.Classifies) : Classifying (perform o) := ⟨h, fun _ => trivial⟩

theorem bind {x : Program α} {f : α → Program β} (hx : Classifying x)
    (hf : ∀ a, Classifying (f a)) : Classifying (x >>= f) := Prog.Uses.bind hx hf

theorem pure (a : α) : Classifying (Pure.pure a : Program α) := trivial

theorem map {x : Program α} {f : α → β} (hx : Classifying x) : Classifying (f <$> x) := by
  rw [← bind_pure_comp]
  exact hx.bind fun _ => .pure _

end Classifying

section Classifying

open DispatchNotificationService ConnectionStateService

variable {α : Type} {configuration : Configuration} {c : NotificationRecord} {x : Program α}

theorem ConnectionOnly.classifying (h : ConnectionOnly x) : Classifying x := by
  refine Prog.Uses.mono h fun o ho => ?_
  cases o <;> first | exact trivial | cases ho

theorem Finishing.classifying (h : Finishing c x) : Classifying x := by
  refine Prog.Uses.mono h fun o ho => ?_
  cases o <;> first | exact trivial | exact ho

theorem Leaving.classifying (h : Leaving x) : Classifying x := by
  refine Prog.Uses.mono h fun o ho => ?_
  cases o <;> first | exact trivial | exact ho

theorem classifying_claim (input : DispatchInput) (t : Uuid) : Classifying (claim input t) := by
  refine .bind (.perform trivial) fun now => .bind (.perform trivial) fun promoted =>
    .bind ?_ fun _ => .bind (.perform trivial) fun claimed => ?_
  · unfold recordPromotion
    split
    · exact .pure _
    · exact .perform trivial
  · split
    · exact .pure _
    · refine .bind (.perform trivial) fun existing => ?_
      split
      · exact .pure _
      · split <;> first | exact .pure _ | (split <;> exact .pure _)

theorem classifying_deliverThrough (session : WhatsAppSessionRecord) (t : Uuid)
    (input : DispatchInput) :
    Classifying (deliverThrough configuration c session t input) := by
  unfold deliverThrough
  split
  · refine .bind (connectionOnly_prepareToSend _ _).classifying fun ready => ?_
    exact (finishing_prepared (c := { c with
      whatsAppSessionId := ready.id, applicationId := ready.applicationId }) rfl rfl).classifying
  · exact (leaving_waitForConnection _ _ _ _).classifying

theorem classifying_dispatchClaimed (t : Uuid) (input : DispatchInput) :
    Classifying (dispatchClaimed configuration c t input) := by
  refine .bind (.bind (.bind (.perform trivial) fun _ => .pure _) fun _ => .pure _)
    fun outlived => ?_
  split
  · exact (leaving_fail _ _ rfl _).classifying
  · refine .bind (.perform trivial) fun unresolved => ?_
    cases unresolved with
    | some attempt =>
      exact .bind (ending_readUnknownOutcomePolicy (c := c) _).finishing.classifying fun _ =>
        (leaving_resolveUnknownOutcome _ _ _ _ _).classifying
    | none =>
      refine .bind (.perform trivial) fun session => ?_
      cases session with
      | none => exact (leaving_fail _ _ rfl _).classifying
      | some session => exact classifying_deliverThrough _ _ _

/-- Every failure a dispatch writes is classified as it should be. -/
theorem classifying_dispatch (input : DispatchInput) :
    Classifying (dispatch configuration input) := by
  refine .bind (.perform trivial) fun t => .bind (classifying_claim _ _) fun claim => ?_
  cases claim with
  | claimed c => exact classifying_dispatchClaimed _ _
  | not_claimable => exact .pure _
  | not_due dueAt reason => exact .bind (.perform trivial) fun _ => .pure _

end Classifying

/-! ## The other services -/

/-- The calls to the provider that concern one notification. -/
def Op.isProviderCall : Op → Bool
  | .resolveRecipient _ _ | .showTyping _ _ _ | .sendTextMessage _ _ _ => true
  | _ => false

/-- The operations whose time matters. -/
def Op.isGuarded : Op → Bool
  | .promoteScheduled _ _ _ | .claimForDispatch _ _ _ _ => true
  | .endSendingPause _ _ | .reserveSlot _ _ => true
  | o => o.isProviderCall

/-- The operations of a dispatch alone: those whose time matters, and the claim of a refresh. -/
def Op.isDispatchOnly : Op → Bool
  | .claimAccountLimitsRefresh _ _ _ => true
  | o => o.isGuarded

theorem Op.isGuarded_of_dispatchOnly {o : Op} (h : o.isDispatchOnly = false) :
    o.isGuarded = false := by
  cases o <;> first | rfl | exact h

/-- A program that does nothing only a dispatch does. -/
def Unguarded {α : Type} (x : Program α) : Prop := x.Uses fun o : Op => o.isDispatchOnly = false

namespace Unguarded

variable {α β : Type}

theorem perform {o : Op} (h : o.isDispatchOnly = false) : Unguarded (perform o) :=
  ⟨h, fun _ => trivial⟩

theorem bind {x : Program α} {f : α → Program β} (hx : Unguarded x) (hf : ∀ a, Unguarded (f a)) :
    Unguarded (x >>= f) := Prog.Uses.bind hx hf

theorem pure (a : α) : Unguarded (Pure.pure a : Program α) := trivial

theorem map {x : Program α} {f : α → β} (hx : Unguarded x) : Unguarded (f <$> x) := by
  rw [← bind_pure_comp]
  exact hx.bind fun _ => .pure _

end Unguarded

theorem Tending.unguarded {α : Type} {a s : Uuid} {x : Program α} (h : Tending a s x) :
    Unguarded x := by
  refine Prog.Uses.mono h fun o ho => ?_
  rcases ho with ho | rfl
  · cases o <;> first | rfl | exact absurd ho (by simp [Op.isMild])
  · rfl

section Services

open NotificationMaintenanceService ProcessWebhookService NotificationQueryService

theorem unguarded_runOnce (configuration : Configuration) :
    Unguarded (runOnce configuration) := by
  have hrelease : ∀ (now : Date) stuck, Unguarded (releaseEach now stuck) := by
    intro now stuck
    induction stuck with
    | nil => exact .pure _
    | cons notification stuck ih => exact .bind (.perform rfl) fun _ => .bind ih fun _ => .pure _
  have henqueue : ∀ (now : Date) due, Unguarded (enqueueEach now due) := by
    intro now due
    induction due with
    | nil => exact .pure _
    | cons notification due ih => exact .bind (.perform rfl) fun _ => .bind ih fun _ => .pure _
  refine .bind (.bind (.perform rfl) fun _ => .bind (.perform rfl) fun _ => hrelease _ _) fun _ => ?_
  exact .bind (.bind (.perform rfl) fun _ => .bind (.perform rfl) fun _ => henqueue _ _) fun _ =>
    .pure _

theorem unguarded_cancel (a n : Uuid) (correlationId : Option String) :
    Unguarded (cancel a n correlationId) := by
  refine .bind (.perform rfl) fun existing => ?_
  cases existing with
  | none => exact .pure _
  | some existing =>
    simp only
    split
    · refine .bind (.perform rfl) fun now => .bind (.perform rfl) fun cancelled => ?_
      cases cancelled <;> exact .pure _
    · exact .pure _

theorem unguarded_cancelWaiting (a : Uuid) (s : Option Uuid) (correlationId : Option String) :
    Unguarded (cancelWaiting a s correlationId) := by
  refine .bind ?_ fun isKnown => ?_
  · cases s with
    | none => exact .pure _
    | some sessionId => exact .bind (.perform rfl) fun _ => .pure _
  · split
    · exact .bind (.perform rfl) fun _ => .bind (.perform rfl) fun _ => .pure _
    · exact .pure _

theorem unguarded_advanceNotification (notification : NotificationRecord)
    (received : DeliveryAcknowledgement) :
    Unguarded (advanceNotification notification received) := by
  unfold advanceNotification
  dsimp only
  split
  · exact .pure _
  · refine .bind (.bind (.perform rfl) fun now => .bind (.perform rfl) fun transitioned => ?_)
      fun _ => .pure _
    split
    · exact .pure _
    · exact .perform rfl

theorem unguarded_applyAcknowledgement (delivery : WebhookDeliveryRecord) (message : String)
    (received : DeliveryAcknowledgement) (fromUs : Bool) :
    Unguarded (applyAcknowledgement delivery message received fromUs) := by
  unfold applyAcknowledgement
  split
  · refine .bind ?_ fun _ => .bind (.perform rfl) fun notification => ?_
    · unfold doubtOnFailure
      split
      · exact .perform rfl
      · exact .pure _
    · split
      · refine .bind (.perform rfl) fun now => ?_
        split
        · exact .bind (.perform rfl) fun e => nomatch e
        · exact .pure _
      · exact unguarded_advanceNotification _ _
  · exact .pure _

theorem unguarded_applySessionStatus (configuration : Configuration)
    (delivery : WebhookDeliveryRecord) (status : ProviderSessionStatus)
    (phoneNumber pushName : Option String) (limits : Option AccountLimits) :
    Unguarded (applySessionStatus configuration delivery status phoneNumber pushName limits) := by
  refine .bind (.perform rfl) fun now => .bind (.perform rfl) fun _ => .bind ?_ fun _ => .pure _
  unfold recordReportedLimits
  split
  · exact .pure _
  · refine .bind (.perform rfl) fun session => ?_
    split
    · exact .pure _
    · rename_i session
      exact (mild_record (r := session) _ _).tending (a := 0) (s := 0) |>.unguarded

theorem unguarded_process (configuration : Configuration) (d : Uuid) :
    Unguarded (process configuration d) := by
  refine .bind (.perform rfl) fun delivery => ?_
  split
  · exact .pure _
  · refine .bind ?_ fun result => .bind (.perform rfl) fun now => .bind (.perform rfl) fun _ =>
      .pure _
    unfold applyEvent
    split
    · exact unguarded_applyAcknowledgement _ _ _ _
    · exact unguarded_applySessionStatus _ _ _ _ _ _
    · exact .pure _

theorem unguarded_get (configuration : Configuration) (a s : Uuid) :
    Unguarded (WhatsAppSessionService.get configuration a s) := by
  refine .bind (.perform rfl) fun record => ?_
  split
  · exact .pure _
  · exact .bind tending_refreshStatus.unguarded fun _ => .pure _

end Services

/-- The other services do nothing only a dispatch does. -/
theorem unguarded_program (configuration : Configuration) {request : Request}
    (h : ∀ input, request ≠ .dispatch input) : Unguarded (program configuration request) := by
  cases request with
  | dispatch input => exact absurd rfl (h input)
  | runMaintenance => exact (unguarded_runOnce configuration).map
  | cancel a n correlationId => exact (unguarded_cancel a n correlationId).map
  | cancelWaiting a s correlationId => exact (unguarded_cancelWaiting a s correlationId).map
  | process d => exact (unguarded_process configuration d).map
  | refreshSession a s => exact (unguarded_get configuration a s).map

end NotificationPlatform
