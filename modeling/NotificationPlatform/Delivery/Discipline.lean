import NotificationPlatform.Delivery.Effect

/-!
# What a call of a service may do next

The phase of a dispatch is everything it has learnt: its token, the row it claimed, what the ledger
said, the number of its attempt, the answer to its send, and what it recorded of it.
`Progress.Allows` lists what a dispatch may do in each phase. The programs are shown to conform once
(`deliveryDiscipline`); after that, nothing about runs looks at a program again.
-/

namespace NotificationPlatform

open Interleaving

/-! ## Phases -/

inductive Stage where
  /-- No token was drawn yet. -/
  | starting
  | unclaimed
  /-- The claim was refused. -/
  | refused
  /-- The claim is taken, and the ledger not read yet. -/
  | claimed
  /-- The ledger held no unresolved attempt. -/
  | clear
  /-- The ledger held an unresolved attempt. -/
  | found
  | begun
  | awaiting
  | answered
  /-- The ledger says what became of the attempt. -/
  | settled
  /-- The update of `deferQuietly` changed nothing; its job is still to be inserted. -/
  | deferring
  | exited (outcome : DispatchOutcome)
deriving DecidableEq

/-- How far a dispatch is, and what it has learnt. -/
structure Progress where
  input : DispatchInput
  stage : Stage := .starting
  token : Option Uuid := none
  claimed : Option NotificationRecord := none
  policy : Option UnknownOutcomePolicy := none
  found : Option Nat := none
  attempt : Option Nat := none
  sent : Bool := false
  answer : Option (ProviderResult SentMessage) := none
  /-- What it recorded of its own attempt. -/
  recorded : Option SendAttemptOutcome := none

namespace Progress

/-- It recorded that an outcome is unknown, for an application that fails closed. -/
def FailsClosed (p : Progress) : Prop :=
  (p.found.isSome ∨ p.recorded = some .UNKNOWN) ∧ p.policy = some .FAIL_CLOSED

/-- It recorded a refusal that is permanent, and not a session the provider lost. -/
def Refused (p : Progress) : Prop :=
  p.recorded = some .FAILED ∧ ∃ failure, p.answer = some (.failed failure) ∧
    isRetryable failure = false ∧ isSessionLostByProvider failure = false

/-- A dispatch that may only fail its notification. -/
def MustFail (p : Progress) : Prop := p.FailsClosed ∨ p.Refused

/-- The attempt it began is one too many. -/
def Exhausted (p : Progress) : Prop :=
  ∃ c k, p.claimed = some c ∧ p.attempt = some k ∧ c.maximumAttempts < k

/-- The phases a dispatch may end the notification's processing in. -/
def MayLeave (p : Progress) : Prop :=
  p.stage = .claimed ∨ p.stage = .clear ∨ p.stage = .settled ∨ (p.stage = .begun ∧ p.Exhausted)

/-- What `retry` and `fail` may write. -/
def MayStep (p : Progress) (step : TransitionStep) : Prop :=
  (step.nextStatus = .FAILED ∧
    ∃ failure now, step.changes = DispatchNotificationService.failChanges failure now) ∨
  (step.nextStatus = .RETRYING ∧ ¬ p.MustFail ∧
    ∃ failure dueAt, step.changes = DispatchNotificationService.retryChanges failure dueAt)

/-- What `resolveAttempt` may write. -/
def MayResolve (p : Progress) (input : ResolveSendAttemptInput) : Prop :=
  (p.stage = .found ∧ p.found = some input.attemptNumber ∧ input.outcome = .UNKNOWN ∧
    p.policy.isSome) ∨
  (p.stage = .answered ∧ p.attempt = some input.attemptNumber ∧
    ∃ failure, p.answer = some (.failed failure) ∧
      ((hasUnknownOutcome failure = true ∧ input.outcome = .UNKNOWN ∧ p.policy.isSome) ∨
        (hasUnknownOutcome failure = false ∧ input.outcome = .FAILED)))

/-- The notification it claimed. -/
def Claims (p : Progress) (applicationId notificationId : Uuid) : Prop :=
  ∃ c, p.claimed = some c ∧ applicationId = c.applicationId ∧ notificationId = c.id

def Allows (p : Progress) : Op → Prop
  | .randomUuid => p.stage = .starting
  | .promoteScheduled a n _ => p.stage = .unclaimed ∧ a = p.input.applicationId ∧
      n = p.input.notificationId
  | .appendEvent event => p.stage = .unclaimed ∧
      event = DispatchNotificationService.queuedEvent p.input
  | .claimForDispatch a n t _ => p.stage = .unclaimed ∧ a = p.input.applicationId ∧
      n = p.input.notificationId ∧ p.token = some t
  | .findNotificationById _ _ => p.stage = .refused
  | .findUnresolved a n => p.stage = .claimed ∧ p.Claims a n
  | .findDeliverySettings a => (p.stage = .found ∨ p.stage = .answered) ∧
      ∃ c, p.claimed = some c ∧ a = c.applicationId
  | .beginAttempt input => p.stage = .clear ∧ p.token = some input.claimToken ∧
      p.Claims input.applicationId input.notificationId
  | .sendTextMessage _ _ _ => p.stage = .begun ∧ p.attempt.isSome ∧ ¬ p.Exhausted
  | .sendTextMessageAnswer => p.stage = .awaiting
  | .resolveAttempt input => p.Claims input.applicationId input.notificationId ∧
      p.MayResolve input
  | .recordSent input => p.stage = .answered ∧ p.claimed = some input.notification ∧
      p.attempt = some input.attemptNumber ∧
      ∃ sent, p.answer = some (.succeeded sent) ∧ input.providerMessageId = sent.providerMessageId
  | .transitionAndRecord notification step => p.claimed = some notification ∧ p.MayLeave ∧
      p.MayStep step
  | .deferTransition input => p.claimed = some input.notification ∧ p.MayLeave ∧ ¬ p.MustFail
  | .enqueueDispatch _ => p.stage = .refused ∨ p.stage = .deferring
  | o => o.isConnectionOp = true ∧ ∀ outcome, p.stage ≠ .exited outcome

/-- After the ledger was told what became of the attempt found, or of its own. -/
def settle (p : Progress) (outcome : SendAttemptOutcome) : Progress :=
  { p with stage := .settled
           recorded := if p.stage = .answered then some outcome else p.recorded }

def advance (p : Progress) : (o : Op) → o.Ret → Progress
  | .randomUuid, t => { p with stage := .unclaimed, token := some t }
  | .claimForDispatch _ _ _ _, some c => { p with stage := .claimed, claimed := some c }
  | .claimForDispatch _ _ _ _, none => { p with stage := .refused }
  | .findUnresolved _ _, some a => { p with stage := .found, found := some a.attemptNumber }
  | .findUnresolved _ _, none => { p with stage := .clear }
  | .findDeliverySettings _, settings =>
    { p with policy := some ((settings.map (·.unknownOutcomePolicy)).getD .RETRY) }
  | .beginAttempt _, some k => { p with stage := .begun, attempt := some k }
  | .beginAttempt _, none => { p with stage := .exited .not_claimable }
  | .sendTextMessage _ _ _, _ => { p with stage := .awaiting, sent := true }
  | .sendTextMessageAnswer, result => { p with stage := .answered, answer := some result }
  | .resolveAttempt input, _ => p.settle input.outcome
  | .recordSent _, true => { p with stage := .exited .sent, recorded := some .SUCCEEDED }
  | .recordSent _, false => { p with stage := .exited .not_claimable }
  | .transitionAndRecord _ step, _ =>
    { p with stage := .exited (if step.nextStatus = .FAILED then .failed else .retry_scheduled) }
  | .deferTransition _, true => { p with stage := .exited .deferred }
  | .deferTransition _, false => { p with stage := .deferring }
  | .enqueueDispatch _, _ => { p with stage := .exited .deferred }
  | _, _ => p

end Progress

/-- What the other services may do. -/
def Serves : Request → Op → Prop
  | .dispatch _, _ => False
  | .runMaintenance, .releaseClaim _ _ => True
  | .runMaintenance, .enqueueDispatch _ => True
  | .cancel a n _, .cancelTransition input => input.applicationId = a ∧ input.notificationId = n ∧
      isCancellableNotificationStatus input.expectedStatus = true
  | .cancelWaiting _ _ _, .cancelWaitingTransition _ => True
  | .process _, .acknowledgementTransition input => ∃ notification merged received now,
      input = ProcessWebhookService.acknowledgementInput notification merged received now
  | .process _, .appendEvent _ => True
  | _, o => o.isConnectionOp = true ∨ o.isReadOrInbox = true

inductive DeliveryPhase where
  | dispatching (progress : Progress)
  /-- Another service, and the notifications it was told it cancelled. -/
  | serving (request : Request) (cancelled : List Uuid)

namespace DeliveryPhase

def Allows : DeliveryPhase → Op → Prop
  | .dispatching p, o => p.Allows o
  | .serving request _, o => Serves request o

def advance : DeliveryPhase → (o : Op) → o.Ret → DeliveryPhase
  | .dispatching p, o, r => .dispatching (p.advance o r)
  | .serving request cancelled, .cancelTransition input, some _ =>
    .serving request (input.notificationId :: cancelled)
  | .serving request cancelled, .cancelWaitingTransition _, ids =>
    .serving request (ids.map (·.1) ++ cancelled)
  | .serving request cancelled, _, _ => .serving request cancelled

def initial : Request → DeliveryPhase
  | .dispatch input => .dispatching { input }
  | request => .serving request []

/-- What a finished call may say. -/
def Returns : DeliveryPhase → Result → Prop
  | .dispatching p, .dispatched result => p.stage = .exited result.outcome ∨
      (p.stage = .refused ∧ result.outcome = .not_claimable)
  | .serving (.cancel _ n _) cancelled, .cancelled (.cancelled _) => n ∈ cancelled
  | .serving (.cancelWaiting _ _ _) cancelled, .cancelledWaiting (.cancelled ids) =>
    ∀ n ∈ ids, n ∈ cancelled
  | .dispatching _, _ => False
  | .serving _ _, _ => True

end DeliveryPhase

@[reducible] def deliveryTypestate : Typestate operations where
  Phase := DeliveryPhase
  Allows := DeliveryPhase.Allows
  advance := DeliveryPhase.advance

/-- What is known of every answer: a failure of the provider is classified by its code. -/
def Answers : (o : Op) → o.Ret → Prop
  | .sendTextMessageAnswer, result => result.isClassified = true
  | _, _ => True

theorem answers_exec {w w' : World} {o : Op} {c : Choice} {r : o.Ret}
    (h : exec w o c = some (r, w')) : Answers o r := by
  cases o <;> try trivial
  obtain ⟨result, hc, h⟩ := given_eq_some.1 h
  cases h
  cases c <;> simp only [Choice.sent?, reduceCtorEq] at hc
  split at hc
  · rename_i hclass
    cases hc
    exact hclass
  · cases hc

/-! ## Conformance of a dispatch -/

/-- From progress `p` the program does what a dispatch may do, and ends as `Q` says. -/
def Delivers {α : Type} (p : Progress) (x : Program α) (Q : Progress → α → Prop) : Prop :=
  Conforms deliveryTypestate Answers (.dispatching p) x fun q a =>
    ∃ p', q = .dispatching p' ∧ Q p' a

namespace Delivers

variable {α β : Type} {p : Progress} {Q : Progress → β → Prop}

theorem pure {b : β} (h : Q p b) : Delivers p (Pure.pure b) Q := ⟨p, rfl, h⟩

theorem perform {o : Op} {k : o.Ret → Program β} (ho : p.Allows o)
    (hk : ∀ r, Answers o r → Delivers (p.advance o r) (k r) Q) :
    Delivers p (perform o >>= k) Q := ⟨ho, hk⟩

theorem mono {R : Progress → β → Prop} {x : Program β} (h : Delivers p x R)
    (hRQ : ∀ p' b, R p' b → Q p' b) : Delivers p x Q :=
  Conforms.mono h fun _ b ⟨p', hq, hr⟩ => ⟨p', hq, hRQ p' b hr⟩

theorem bind {x : Program α} {f : α → Program β} {R : Progress → α → Prop} (hx : Delivers p x R)
    (hf : ∀ p' a, R p' a → Delivers p' (f a) Q) : Delivers p (x >>= f) Q :=
  Conforms.bind hx fun _ a ⟨p', hq, hr⟩ => hq ▸ hf p' a hr

/-- Connections can be looked after in any phase, and that changes nothing. -/
theorem connection {x : Program α} {f : α → Program β} (hx : ConnectionOnly x)
    (hp : ∀ outcome, p.stage ≠ .exited outcome) (hf : ∀ a, Delivers p (f a) Q) :
    Delivers p (x >>= f) Q := by
  have hstay : Conforms deliveryTypestate Answers (.dispatching p) x fun q _ =>
      q = .dispatching p := by
    refine Conforms.of_uses (fun o ho => ⟨?_, fun r => ?_⟩) hx
    · cases o <;> simp only [Op.isConnectionOp, Bool.false_eq_true] at ho <;> exact ⟨rfl, hp⟩
    · cases o <;> simp only [Op.isConnectionOp, Bool.false_eq_true] at ho <;> rfl
  refine Conforms.bind hstay ?_
  rintro _ a rfl
  exact hf a

theorem clockNow {f : Date → Program β} (hp : ∀ outcome, p.stage ≠ .exited outcome)
    (hf : ∀ now, Delivers p (f now) Q) : Delivers p (NotificationPlatform.perform .clockNow >>= f) Q :=
  perform ⟨rfl, hp⟩ fun now _ => hf now

end Delivers

/-- The dispatch has ended, and says how. -/
def Ended (p : Progress) (result : DispatchResult) : Prop := p.stage = .exited result.outcome

section Leaving

open DispatchNotificationService

variable {configuration : Configuration} {p : Progress} {c : NotificationRecord}
  {input : DispatchInput}

theorem Progress.MayLeave.active (h : p.MayLeave) (outcome : DispatchOutcome) :
    p.stage ≠ .exited outcome := by
  rcases h with h | h | h | ⟨h, -⟩ <;> rw [h] <;> exact nofun

theorem delivers_fail (hc : p.claimed = some c) (hp : p.MayLeave) (failure : ProviderFailure)
    (k : Option Nat) : Delivers p (fail c failure input k) Ended := by
  refine .clockNow hp.active fun now => .perform ⟨hc, hp, .inl ⟨rfl, failure, now, rfl⟩⟩ ?_
  intro r _
  exact .pure rfl

theorem delivers_retry (hc : p.claimed = some c) (hp : p.MayLeave) (hm : ¬ p.MustFail)
    (failure : ProviderFailure) (minimum : ℚ) (k : Option Nat) :
    Delivers p (retry c failure input minimum k) Ended := by
  refine .clockNow hp.active fun now => .perform ⟨rfl, hp.active⟩ fun draw _ => ?_
  split
  · exact .perform ⟨rfl, hp.active⟩ fun e _ => nomatch e
  · rename_i dueAt _
    refine .perform ⟨hc, hp, .inr ⟨rfl, hm, failure, dueAt, rfl⟩⟩ fun r _ => ?_
    exact .pure rfl

theorem delivers_deferQuietly (hc : p.claimed = some c) (hp : p.MayLeave) (hm : ¬ p.MustFail)
    (dueAt : Date) (detail : DispatchDetail) :
    Delivers p (deferQuietly c dueAt input detail) Ended := by
  refine .clockNow hp.active fun now => .perform ⟨hc, hp, hm⟩ fun r _ => ?_
  cases r with
  | true => exact .pure rfl
  | false => exact .perform (.inr rfl) fun _ _ => .pure rfl

theorem delivers_waitForConnection (hc : p.claimed = some c) (hp : p.MayLeave) (hm : ¬ p.MustFail)
    (session : WhatsAppSessionRecord) :
    Delivers p (waitForConnection configuration c session input) Ended := by
  refine .connection (.bind (.perform rfl) fun _ => .pure _) hp.active fun elapsed => ?_
  split
  · exact delivers_fail hc hp _ _
  · split
    · exact delivers_retry hc hp hm _ _ _
    · exact .clockNow hp.active fun now => delivers_deferQuietly hc hp hm _ _

theorem delivers_waitForPause (hc : p.claimed = some c) (hp : p.MayLeave) (hm : ¬ p.MustFail)
    (pausedUntil : Date) : Delivers p (waitForPause configuration c pausedUntil input) Ended := by
  unfold waitForPause
  split
  · exact delivers_fail hc hp _ _
  · refine .perform ⟨rfl, hp.active⟩ fun draw _ => ?_
    split
    · exact .clockNow hp.active fun now => delivers_retry hc hp hm _ _ _
    · exact delivers_deferQuietly hc hp hm _ _

/-- Recording what became of an attempt. -/
theorem delivers_resolveAttempt {β : Type} {Q : Progress → β → Prop} {f : Unit → Program β}
    {k : Nat} {outcome : SendAttemptOutcome} {code : ProviderFailureCode}
    (hc : p.claimed = some c) (hp : ∀ outcome, p.stage ≠ .exited outcome)
    (hr : ∀ now, p.MayResolve {
      applicationId := c.applicationId, notificationId := c.id, attemptNumber := k, outcome
      providerMessageId := none, failureCode := some code, now })
    (hf : Delivers (p.settle outcome) (f ()) Q) :
    Delivers p (resolveAttempt c k outcome code >>= f) Q :=
  .clockNow hp fun now => .perform ⟨⟨c, hc, rfl, rfl⟩, hr now⟩ fun _ _ => hf

theorem delivers_resolveUnknownOutcome {k : Nat} {policy : UnknownOutcomePolicy}
    {failure : Option ProviderFailure} (hc : p.claimed = some c) (hrec : p.recorded = none)
    (hpolicy : p.policy = some policy)
    (hstage : (p.stage = .found ∧ p.found = some k) ∨ (p.stage = .answered ∧ p.attempt = some k ∧
      ∃ failure, p.answer = some (.failed failure) ∧ hasUnknownOutcome failure = true)) :
    Delivers p (resolveUnknownOutcome c k policy input failure) Ended := by
  have hactive : ∀ outcome, p.stage ≠ .exited outcome := by
    intro outcome
    rcases hstage with ⟨h, -⟩ | ⟨h, -⟩ <;> rw [h] <;> exact nofun
  have hsome : p.policy.isSome = true := by rw [hpolicy]; rfl
  refine delivers_resolveAttempt hc hactive (fun now => ?_) ?_
  · rcases hstage with ⟨hs, hk⟩ | ⟨hs, hk, f, hf, hu⟩
    · exact .inl ⟨hs, hk, rfl, hsome⟩
    · exact .inr ⟨hs, hk, f, hf, .inl ⟨hu, rfl, hsome⟩⟩
  have hc' : (p.settle .UNKNOWN).claimed = some c := hc
  have hleave : (p.settle .UNKNOWN).MayLeave := .inr (.inr (.inl rfl))
  split
  · exact delivers_fail hc' hleave _ _
  · rename_i hclosed
    split
    · exact delivers_fail hc' hleave _ _
    · refine delivers_retry hc' hleave ?_ _ _ _
      rintro (⟨-, h⟩ | ⟨h, -⟩)
      · exact hclosed (Option.some.inj (hpolicy.symm.trans h))
      · simp only [Progress.settle, hrec] at h
        split at h <;> cases h

theorem delivers_handleSendFailure {session : WhatsAppSessionRecord} {k : Nat}
    {failure : ProviderFailure} (hc : p.claimed = some c) (hs : p.stage = .answered)
    (hfound : p.found = none) (hrec : p.recorded = none) (hk : p.attempt = some k)
    (ha : p.answer = some (.failed failure)) :
    Delivers p (handleSendFailure configuration c session k failure input) Ended := by
  unfold handleSendFailure
  split
  · rename_i hu
    refine .perform ⟨.inr hs, c, hc, rfl⟩ fun settings _ => ?_
    exact delivers_resolveUnknownOutcome hc hrec rfl (.inr ⟨hs, hk, failure, ha, hu⟩)
  · rename_i hu
    refine delivers_resolveAttempt hc (by rw [hs]; exact nofun) (fun now => .inr ⟨hs, hk, failure,
      ha, .inr ⟨by simpa using hu, rfl⟩⟩) ?_
    have hc' : (p.settle .FAILED).claimed = some c := hc
    have hleave : (p.settle .FAILED).MayLeave := .inr (.inr (.inl rfl))
    have hmust : (p.settle .FAILED).MustFail →
        isRetryable failure = false ∧ isSessionLostByProvider failure = false := by
      rintro (⟨h | h, -⟩ | ⟨-, f, hf, hr⟩)
      · simp [Progress.settle, hfound] at h
      · simp [Progress.settle, hs] at h
      · cases ha.symm.trans hf
        exact hr
    refine .connection ?_ hleave.active fun _ => ?_
    · unfold recordRefusalOf
      split
      · exact connectionOnly_recordRefusal _ _ _
      · exact .pure _
    split
    · rename_i hlost
      have hwait : ¬ (p.settle .FAILED).MustFail := by
        intro hm
        rw [(hmust hm).2] at hlost
        cases hlost
      exact .connection (connectionOnly_refreshStatus _ _) hleave.active fun refreshed =>
        delivers_waitForConnection hc' hleave hwait _
    · split
      · exact delivers_fail hc' hleave _ _
      · rename_i hr
        have hretry : ¬ (p.settle .FAILED).MustFail := fun hm => hr (hmust hm).1
        split
        · exact delivers_fail hc' hleave _ _
        · split
          · exact .connection (connectionOnly_refreshStatus _ _) hleave.active fun _ =>
              delivers_retry hc' hleave hretry _ _ _
          · exact delivers_retry hc' hleave hretry _ _ _

theorem delivers_recordSuccess {k : Nat} {sent : SentMessage} {chatIdentifier : String}
    (hc : p.claimed = some c) (hs : p.stage = .answered) (hk : p.attempt = some k)
    (ha : p.answer = some (.succeeded sent)) :
    Delivers p (recordSuccess c k sent chatIdentifier input) Ended := by
  have hactive : ∀ outcome, p.stage ≠ .exited outcome := by
    rw [hs]
    exact nofun
  refine .clockNow hactive fun now => .clockNow hactive fun resolvedAt =>
    .perform ⟨hs, hc, hk, sent, ha, rfl⟩ fun r _ => ?_
  cases r <;> exact .pure rfl

theorem delivers_send {session : WhatsAppSessionRecord} {k : Nat} {chatIdentifier : String}
    (hc : p.claimed = some c) (hs : p.stage = .begun) (hfound : p.found = none)
    (hrec : p.recorded = none) (hk : p.attempt = some k) (hmax : k ≤ c.maximumAttempts) :
    Delivers p (send configuration c session k chatIdentifier input) Ended := by
  refine .perform ⟨hs, by rw [hk]; rfl, ?_⟩ fun _ _ => .perform rfl fun result _ => ?_
  · rintro ⟨c', k', hc', hk', hlt⟩
    cases hc.symm.trans hc'
    cases hk.symm.trans hk'
    omega
  · cases result with
    | succeeded sent => exact delivers_recordSuccess hc rfl hk rfl
    | failed failure => exact delivers_handleSendFailure hc rfl hfound hrec hk rfl

/-- Either the dispatch ended, or it still may leave as it did before. -/
def Resolved (p : Progress) (p' : Progress) : RecipientResult → Prop
  | .result result => Ended p' result
  | .chatIdentifier _ => p' = p

theorem delivers_resolveRecipient {session : WhatsAppSessionRecord} (hc : p.claimed = some c)
    (hp : p.MayLeave) (hm : ¬ p.MustFail) :
    Delivers p (resolveRecipient configuration c session input) (Resolved p) := by
  unfold resolveRecipient
  split
  · exact .pure rfl
  · refine .perform ⟨rfl, hp.active⟩ fun resolved _ => ?_
    cases resolved with
    | failed failure =>
      simp only
      split
      · refine .connection (connectionOnly_refreshStatus _ _) hp.active fun refreshed => ?_
        exact (delivers_waitForConnection hc hp hm _).bind fun _ _ h => .pure h
      · split
        · exact (delivers_retry hc hp hm _ _ _).bind fun _ _ h => .pure h
        · exact (delivers_fail hc hp _ _).bind fun _ _ h => .pure h
    | succeeded value =>
      simp only
      split
      · exact .pure rfl
      · exact (delivers_fail hc hp _ _).bind fun _ _ h => .pure h

theorem connectionOnly_showTyping (session : WhatsAppSessionRecord) (chatIdentifier : String) :
    ConnectionOnly (showTyping configuration c session chatIdentifier) := by
  unfold showTyping
  split
  · exact .bind (.perform rfl) fun _ => .perform rfl
  · exact .pure _

theorem delivers_deliver {session : WhatsAppSessionRecord} {t : Uuid} (hc : p.claimed = some c)
    (hs : p.stage = .clear) (ht : p.token = some t) (hfound : p.found = none)
    (hrec : p.recorded = none) :
    Delivers p (deliver configuration c session t input) Ended := by
  have hp : p.MayLeave := .inr (.inl hs)
  have hm : ¬ p.MustFail := by
    rintro (⟨h | h, -⟩ | ⟨h, -⟩)
    · rw [hfound] at h
      cases h
    · rw [hrec] at h
      cases h
    · rw [hrec] at h
      cases h
  refine (delivers_resolveRecipient hc hp hm).bind fun p' recipient h => ?_
  cases recipient with
  | result result => exact .pure h
  | chatIdentifier chatIdentifier =>
    cases h
    refine .connection (connectionOnly_showTyping _ _) hp.active fun _ =>
      .perform ⟨rfl, hp.active⟩ fun aborted _ => ?_
    split
    · exact .clockNow hp.active fun now => delivers_deferQuietly hc hp hm _ _
    · refine .clockNow hp.active fun now => .perform ⟨hs, ht, c, hc, rfl, rfl⟩ fun attempt _ => ?_
      cases attempt with
      | none => exact .pure rfl
      | some k =>
        have hc' : Progress.claimed { p with stage := .begun, attempt := some k } = some c := hc
        simp only
        split
        · rename_i hk
          exact delivers_fail hc' (.inr (.inr (.inr ⟨rfl, c, k, hc, rfl, hk⟩))) _ _
        · rename_i hk
          exact delivers_send hc' rfl hfound hrec rfl (Nat.le_of_not_lt hk)

theorem delivers_deliverThrough {session : WhatsAppSessionRecord} {t : Uuid}
    (hc : p.claimed = some c) (hs : p.stage = .clear) (ht : p.token = some t)
    (hfound : p.found = none) (hrec : p.recorded = none) :
    Delivers p (deliverThrough configuration c session t input) Ended := by
  have hp : p.MayLeave := .inr (.inl hs)
  have hm : ¬ p.MustFail := by
    rintro (⟨h | h, -⟩ | ⟨h, -⟩) <;> simp [hfound, hrec] at h
  unfold deliverThrough
  split
  · refine .connection (connectionOnly_prepareToSend _ _) hp.active fun ready => ?_
    refine .connection ?_ hp.active fun paused => ?_
    · unfold readIsPaused
      split
      · exact .pure _
      · exact .bind (.perform rfl) fun _ => .pure _
    · split
      · exact delivers_waitForPause hc hp hm _
      · refine .clockNow hp.active fun now =>
          .connection (connectionOnly_reserveSendSlot _ _) hp.active fun slot => ?_
        split
        · exact delivers_deliver hc hs ht hfound hrec
        · exact delivers_deferQuietly hc hp hm _ _
  · exact delivers_waitForConnection hc hp hm _

theorem delivers_dispatchClaimed {t : Uuid} (hc : p.claimed = some c) (hs : p.stage = .claimed)
    (ht : p.token = some t) (hfound : p.found = none) (hrec : p.recorded = none) :
    Delivers p (dispatchClaimed configuration c t input) Ended := by
  have hp : p.MayLeave := .inl hs
  refine .connection (.bind (.bind (.perform rfl) fun _ => .pure _) fun _ => .pure _) hp.active
    fun outlived => ?_
  split
  · exact delivers_fail hc hp _ _
  · refine .perform ⟨hs, c, hc, rfl, rfl⟩ fun unresolved _ => ?_
    cases unresolved with
    | some attempt =>
      refine .perform ⟨.inl rfl, c, hc, rfl⟩ fun settings _ => ?_
      exact delivers_resolveUnknownOutcome hc hrec rfl (.inl ⟨rfl, rfl⟩)
    | none =>
      have hc' : Progress.claimed { p with stage := .clear } = some c := hc
      refine .perform ⟨rfl, nofun⟩ fun session _ => ?_
      cases session with
      | none => exact delivers_fail hc' (.inr (.inl rfl)) _ _
      | some session => exact delivers_deliverThrough hc' rfl ht hfound hrec

end Leaving

section Claiming

open DispatchNotificationService

variable {configuration : Configuration} {p : Progress}

/-- What `claim` leaves behind: the claimed row, or a refusal. -/
def Claimed (p p' : Progress) : ClaimResult → Prop
  | .claimed c => p' = { p with stage := .claimed, claimed := some c }
  | _ => p' = { p with stage := .refused }

theorem delivers_explainFailedClaim {now : Date} :
    Delivers { p with stage := .refused } (explainFailedClaim p.input now) (Claimed p) := by
  refine .perform rfl fun existing _ => ?_
  cases existing with
  | none => exact .pure rfl
  | some existing =>
    simp only
    split
    · split <;> exact .pure rfl
    · split <;> exact .pure rfl
    · exact .pure rfl

theorem delivers_claim {t : Uuid} (hs : p.stage = .unclaimed) (ht : p.token = some t) :
    Delivers p (claim p.input t) (Claimed p) := by
  have hactive : ∀ outcome, p.stage ≠ .exited outcome := by
    rw [hs]
    exact nofun
  refine .clockNow hactive fun now => .perform ⟨hs, rfl, rfl⟩ fun promoted _ => ?_
  have hpromotion : Delivers p (recordPromotion p.input promoted) fun p' _ => p' = p := by
    cases promoted with
    | none => exact .pure rfl
    | some row => exact ⟨⟨hs, rfl⟩, fun _ _ => ⟨p, rfl, rfl⟩⟩
  refine hpromotion.bind ?_
  rintro p' - rfl
  refine .perform ⟨hs, rfl, rfl, ht⟩ fun claimed _ => ?_
  cases claimed with
  | some c => exact .pure rfl
  | none => exact delivers_explainFailedClaim

theorem delivers_dispatch (input : DispatchInput) :
    Delivers { input } (dispatch configuration input) fun p result =>
      Ended p result ∨ (p.stage = .refused ∧ result.outcome = .not_claimable) := by
  refine .perform rfl fun t _ => ?_
  have hclaim : Delivers { input, stage := .unclaimed, token := some t } (claim input t)
      (Claimed { input, stage := .unclaimed, token := some t }) := delivers_claim rfl rfl
  refine hclaim.bind fun p' claim h => ?_
  cases claim with
  | claimed c =>
    cases h
    exact (delivers_dispatchClaimed rfl rfl rfl rfl rfl).mono fun _ _ h => .inl h
  | not_claimable =>
    cases h
    exact .pure (.inr ⟨rfl, rfl⟩)
  | not_due dueAt reason =>
    cases h
    exact .perform (.inl rfl) fun _ _ => .pure (.inl rfl)

end Claiming

/-! ## Conformance of the other services -/

/-- A program that only does what the service of a request may do. -/
def Serving {α : Type} (request : Request) (x : Program α) : Prop := x.Uses (Serves request)

namespace Serving

variable {α β : Type} {request : Request}

theorem perform {o : Op} (h : Serves request o) : Serving request (perform o) :=
  ⟨h, fun _ => trivial⟩

theorem bind {x : Program α} {f : α → Program β} (hx : Serving request x)
    (hf : ∀ a, Serving request (f a)) : Serving request (x >>= f) := Prog.Uses.bind hx hf

theorem pure (a : α) : Serving request (Pure.pure a : Program α) := trivial

theorem connection {x : Program α} (hr : ∀ input, request ≠ .dispatch input)
    (h : ConnectionOnly x) : Serving request x := by
  refine Prog.Uses.mono h fun o ho => ?_
  cases o <;> simp only [Op.isConnectionOp, Bool.false_eq_true] at ho <;>
    cases request <;> first | exact .inl rfl | exact absurd rfl (hr _)

/-- A service that cancels nothing stays in its phase. -/
theorem conforms {x : Program α} (hx : Serving request x)
    (hr : ∀ o, Serves request o → ∀ r, DeliveryPhase.advance (.serving request []) o r =
      .serving request []) :
    Conforms deliveryTypestate Answers (.serving request []) x fun q _ =>
      q = .serving request [] :=
  Conforms.of_uses (fun o ho => ⟨ho, hr o ho⟩) hx

end Serving

section Services

open NotificationMaintenanceService ProcessWebhookService NotificationQueryService

theorem serving_releaseEach (now : Date) (stuck : List NotificationRecord) :
    Serving .runMaintenance (releaseEach now stuck) := by
  induction stuck with
  | nil => exact .pure _
  | cons notification stuck ih => exact .bind (.perform trivial) fun _ => .bind ih fun _ => .pure _

theorem serving_enqueueEach (now : Date) (due : List NotificationRecord) :
    Serving .runMaintenance (enqueueEach now due) := by
  induction due with
  | nil => exact .pure _
  | cons notification due ih => exact .bind (.perform trivial) fun _ => .bind ih fun _ => .pure _

theorem serving_runOnce (configuration : Configuration) :
    Serving .runMaintenance (runOnce configuration) :=
  .bind (.bind (.perform (.inl rfl)) fun _ => .bind (.perform (.inr rfl)) fun _ =>
      serving_releaseEach _ _) fun _ =>
    .bind (.bind (.perform (.inl rfl)) fun _ => .bind (.perform (.inr rfl)) fun _ =>
      serving_enqueueEach _ _) fun _ => .pure _

theorem serving_recordAcknowledgement (d : Uuid) (notification : NotificationRecord)
    (merged received : DeliveryAcknowledgement) :
    Serving (.process d) (recordAcknowledgement notification merged received) := by
  refine .bind (.perform (.inl rfl)) fun now =>
    .bind (.perform ⟨notification, merged, received, now, rfl⟩) fun transitioned => ?_
  split
  · exact .pure _
  · exact .perform trivial

theorem serving_advanceNotification (d : Uuid) (notification : NotificationRecord)
    (received : DeliveryAcknowledgement) :
    Serving (.process d) (advanceNotification notification received) := by
  unfold advanceNotification
  dsimp only
  split
  · exact .pure _
  · exact .bind (serving_recordAcknowledgement d _ _ _) fun _ => .pure _

theorem serving_applyAcknowledgement (d : Uuid) (delivery : WebhookDeliveryRecord)
    (providerMessageId : String) (received : DeliveryAcknowledgement) (fromUs : Bool) :
    Serving (.process d) (applyAcknowledgement delivery providerMessageId received fromUs) := by
  unfold applyAcknowledgement
  split
  · refine .bind (.connection nofun ?_) fun _ => .bind (.perform (.inr rfl)) fun notification => ?_
    · unfold doubtOnFailure
      split
      · exact .perform rfl
      · exact .pure _
    · split
      · refine .connection nofun (.bind (.perform rfl) fun now => ?_)
        split
        · exact .bind (.perform rfl) fun e => nomatch e
        · exact .pure _
      · exact serving_advanceNotification d _ _
  · exact .pure _

theorem connectionOnly_applySessionStatus (configuration : Configuration)
    (delivery : WebhookDeliveryRecord) (status : ProviderSessionStatus)
    (phoneNumber pushName : Option String) (limits : Option AccountLimits) :
    ConnectionOnly (applySessionStatus configuration delivery status phoneNumber pushName
      limits) := by
  refine .bind (.perform rfl) fun now => .bind (.perform rfl) fun _ => .bind ?_ fun _ => .pure _
  unfold recordReportedLimits
  split
  · exact .pure _
  · refine .bind (.perform rfl) fun session => ?_
    split
    · exact .pure _
    · exact connectionOnly_record _ _ _ _

theorem serving_process (configuration : Configuration) (d : Uuid) :
    Serving (.process d) (process configuration d) := by
  refine .bind (.perform (.inr rfl)) fun delivery => ?_
  split
  · exact .pure _
  · rename_i delivery
    refine .bind ?_ fun result => .bind (.perform (.inl rfl)) fun now =>
      .bind (.perform (.inr rfl)) fun _ => .pure _
    unfold applyEvent
    split
    · exact serving_applyAcknowledgement d _ _ _ _
    · exact .connection nofun (connectionOnly_applySessionStatus _ _ _ _ _ _)
    · exact .pure _

theorem conforms_cancel (a n : Uuid) (correlationId : Option String) :
    Conforms deliveryTypestate Answers (.serving (.cancel a n correlationId) [])
      (cancel a n correlationId) fun q result =>
        DeliveryPhase.Returns q (.cancelled result) := by
  refine ⟨.inr rfl, fun existing _ => ?_⟩
  cases existing with
  | none => exact trivial
  | some existing =>
    change Conforms _ _ _ (ite _ _ _) _
    split
    · rename_i hc
      refine ⟨.inl rfl, fun now _ => ⟨⟨rfl, rfl, hc⟩, fun cancelled _ => ?_⟩⟩
      cases cancelled with
      | none => exact trivial
      | some row => exact List.mem_cons_self
    · exact trivial

theorem conforms_cancelWaiting (a : Uuid) (s : Option Uuid) (correlationId : Option String) :
    Conforms deliveryTypestate Answers (.serving (.cancelWaiting a s correlationId) [])
      (cancelWaiting a s correlationId) fun q result =>
        DeliveryPhase.Returns q (.cancelledWaiting result) := by
  have hknown : Conforms deliveryTypestate Answers (.serving (.cancelWaiting a s correlationId) [])
      (isScopeKnown a s) fun q _ => q = .serving (.cancelWaiting a s correlationId) [] := by
    cases s with
    | none => exact rfl
    | some sessionId => exact ⟨.inl rfl, fun _ _ => rfl⟩
  refine Conforms.bind hknown ?_
  rintro _ isKnown rfl
  split
  · refine ⟨.inl rfl, fun now _ => ⟨trivial, fun cancelled _ => ?_⟩⟩
    intro n hn
    exact List.mem_append_left _ hn
  · exact trivial

end Services

/-! ## The discipline -/

theorem conforms_map {α : Type} {q : DeliveryPhase} {x : Program α} {f : α → Result}
    {Q : DeliveryPhase → Result → Prop}
    (h : Conforms deliveryTypestate Answers q x fun q' a => Q q' (f a)) :
    Conforms deliveryTypestate Answers q (f <$> x) Q := by
  rw [← bind_pure_comp]
  exact Conforms.bind h fun _ _ h => h

theorem conforms_program (configuration : Configuration) (request : Request) :
    Conforms deliveryTypestate Answers (DeliveryPhase.initial request)
      (program configuration request) DeliveryPhase.Returns := by
  cases request with
  | dispatch input =>
    refine conforms_map (Conforms.mono (delivers_dispatch input) ?_)
    rintro _ result ⟨p, rfl, h⟩
    exact h
  | runMaintenance =>
    refine conforms_map (Conforms.mono ((serving_runOnce configuration).conforms ?_) ?_)
    · intro o ho r
      cases o <;> first | rfl | exact absurd ho (by simp [Serves, Op.isConnectionOp, Op.isReadOrInbox])
    · rintro _ report rfl
      trivial
  | cancel a n correlationId => exact conforms_map (conforms_cancel a n correlationId)
  | cancelWaiting a s correlationId => exact conforms_map (conforms_cancelWaiting a s correlationId)
  | process d =>
    refine conforms_map (Conforms.mono ((serving_process configuration d).conforms ?_) ?_)
    · intro o ho r
      cases o <;> first | rfl | exact absurd ho (by simp [Serves, Op.isConnectionOp, Op.isReadOrInbox])
    · rintro _ result rfl
      trivial
  | refreshSession a sessionId =>
    have hserving : Serving (.refreshSession a sessionId)
        (WhatsAppSessionService.get configuration a sessionId) :=
      .connection (by simp) (connectionOnly_get configuration a sessionId)
    refine conforms_map (Conforms.mono (hserving.conforms ?_) ?_)
    · intro o ho r
      cases o <;> first | rfl | exact absurd ho (by simp [Serves, Op.isConnectionOp, Op.isReadOrInbox])
    · rintro _ result rfl
      trivial

/-- **Every call of a service does what its phase allows.** -/
@[reducible] def deliveryDiscipline (configuration : Configuration) :
    Discipline (platform configuration) where
  toTypestate := deliveryTypestate
  initial := DeliveryPhase.initial
  Answers := Answers
  Returns := fun _ => DeliveryPhase.Returns
  answers_exec := answers_exec
  conforms := conforms_program configuration

end NotificationPlatform
