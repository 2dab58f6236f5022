import NotificationPlatform.Delivery.Budget

/-!
# What an open entry of the ledger means

The counter is compared with the budget three times after an answer, and once after the increment.
The answer that the provider lost the session, and a reaper that comes after the answer was
recorded, pass the first three by: the next dispatch then begins an attempt it will not make, and
leaves its entry open. `accounting_iff` gives the steps at which that happens.
-/

namespace NotificationPlatform

open Interleaving

/-! ## A dispatch and the attempt it pays for -/

/-- What a dispatch claimed, the attempt it began, and whether it has sent. -/
structure Payment where
  claimed : Option NotificationRecord := none
  attempt : Option Nat := none
  sent : Bool := false

namespace Payment

/-- It began an attempt within the budget, and has not sent yet. -/
def Owes (q : Payment) : Prop :=
  q.sent = false ∧ ∃ c k, q.claimed = some c ∧ q.attempt = some k ∧ k ≤ c.maximumAttempts

def Allows (q : Payment) (o : Op) : Prop := q.Owes → o.isSendTextMessage = true

def advance (q : Payment) : (o : Op) → o.Ret → Payment
  | .claimForDispatch _ _ _ _, some c => { q with claimed := some c }
  | .beginAttempt _, some k => { q with attempt := some k }
  | .sendTextMessage _ _ _, _ => { q with sent := true }
  | _, _ => q

end Payment

@[reducible] def paymentTypestate : Typestate operations where
  Phase := Payment
  Allows := Payment.Allows
  advance := Payment.advance

section Conformance

open DispatchNotificationService

variable {configuration : Configuration} {α β : Type} {q : Payment} {c : NotificationRecord}
  {session : WhatsAppSessionRecord} {input : DispatchInput} {Q : Payment → β → Prop}

/-- From phase `q` the program sends whenever it owes a send, and ends as `Q` says. -/
abbrev Pays {α : Type} (q : Payment) (x : Program α) (Q : Payment → α → Prop) : Prop :=
  Conforms paymentTypestate Answers q x Q

theorem pays_perform {o : Op} {k : o.Ret → Program β} (hq : ¬ q.Owes)
    (hk : ∀ r, Pays (q.advance o r) (k r) Q) : Pays q (perform o >>= k) Q :=
  Conforms.call (fun h => absurd h hq) fun r _ => hk r

theorem pays_connection {x : Program α} (hx : ConnectionOnly x) (hq : ¬ q.Owes) :
    Pays q x fun q' _ => q' = q := by
  refine Conforms.of_uses (fun o ho => ⟨fun h => absurd h hq, fun r => ?_⟩) hx
  cases o <;> first | rfl | cases ho

/-- A dispatch that has sent owes nothing any more. -/
theorem pays_sent {x : Program α} (hq : q.sent = true) : Pays q x fun q' _ => ¬ q'.Owes := by
  have hkeeps : Pays q x fun q' _ => q'.sent = true := by
    refine Conforms.keeps (T := paymentTypestate) (K := fun q' => q'.sent = true)
      (fun q o hq _ => ⟨fun h => absurd (h.1.symm.trans hq) nofun, fun r _ => ?_⟩) hq x.uses_any
    change (q.advance o r).sent = true
    unfold Payment.advance
    split <;> first | exact hq | rfl
  exact hkeeps.mono fun q' _ h howes => absurd (howes.1.symm.trans h) nofun

/-- The stages a dispatch leaves from without claiming, beginning an attempt or sending. -/
def Stage.isLeaving : Stage → Bool
  | .found | .settled | .deferring | .exited _ => true
  | _ => false

theorem Move.leaving {p p' : Progress} {o : Op} {r : o.Ret} (h : Move p o r p')
    (hp : p.stage.isLeaving = true) : p'.stage.isLeaving = true ∧ q.advance o r = q := by
  have hearly : ∀ {stage : Stage}, stage.isLeaving = false → p.stage ≠ stage := by
    rintro stage hstage rfl
    exact absurd (hstage.symm.trans hp) nofun
  cases h with
  | connection kind =>
    refine ⟨hp, ?_⟩
    cases o <;> first | rfl | cases kind
  | promoting stage | recording stage | explaining stage | drew stage | claimed stage
  | refused stage | clear stage | found stage | lost stage | begun stage | sent stage
  | answered stage | recorded stage | unrecorded stage => exact absurd stage (hearly rfl)
  | policy => exact ⟨hp, rfl⟩
  | settled | left | deferred | deferring | enqueued => exact ⟨rfl, rfl⟩

/-- Whatever a dispatch does on its way out concerns no payment. -/
theorem pays_leaving {p : Progress} {x : Program α} {R : Progress → α → Prop}
    (hx : Delivers p x R) (hp : p.stage.isLeaving = true) (hq : ¬ q.Owes) :
    Pays q x fun q' _ => q' = q := by
  let S : DeliveryPhase → Payment → Prop := fun ph q' =>
    q' = q ∧ ∃ p, ph = .dispatching p ∧ p.stage.isLeaving = true
  refine (hx.simulates (S := paymentTypestate) (R := S) ⟨rfl, p, rfl, hp⟩ ?_).mono
    fun q' _ ⟨_, hS, _⟩ => hS.1
  rintro _ q o ⟨rfl, p, rfl, hp⟩ ho
  refine ⟨fun h => absurd h hq, fun r _ => ?_⟩
  obtain ⟨hp', hadvance⟩ := (move_of_allows (r := r) ho).leaving (q := q) hp
  exact ⟨hadvance, _, rfl, hp'⟩

/-- A dispatch that has claimed `c` and may leave. -/
def leaver (input : DispatchInput) (c : NotificationRecord) : Progress :=
  { input, stage := .settled, claimed := some c }

theorem mayLeave_leaver (input : DispatchInput) (c : NotificationRecord) :
    (leaver input c).MayLeave ∧ ¬ (leaver input c).MustFail := by
  refine ⟨.inr (.inr (.inl rfl)), ?_⟩
  rintro (⟨h | h, -⟩ | ⟨h, -⟩) <;> cases h

theorem pays_fail (hq : ¬ q.Owes) (failure : ProviderFailure) (k : Option Nat) :
    Pays q (fail c failure input k) fun q' _ => q' = q :=
  pays_leaving (delivers_fail (p := leaver input c) rfl (mayLeave_leaver input c).1 failure k) rfl hq

theorem pays_retry (hq : ¬ q.Owes) (failure : ProviderFailure) (minimum : ℚ) (k : Option Nat) :
    Pays q (retry c failure input minimum k) fun q' _ => q' = q :=
  pays_leaving (delivers_retry (p := leaver input c) rfl (mayLeave_leaver input c).1
    (mayLeave_leaver input c).2 failure minimum k) rfl hq

theorem pays_deferQuietly (hq : ¬ q.Owes) (dueAt : Date) (detail : DispatchDetail) :
    Pays q (deferQuietly c dueAt input detail) fun q' _ => q' = q :=
  pays_leaving (delivers_deferQuietly (p := leaver input c) rfl (mayLeave_leaver input c).1
    (mayLeave_leaver input c).2 dueAt detail) rfl hq

theorem pays_waitForConnection (hq : ¬ q.Owes) (session : WhatsAppSessionRecord) :
    Pays q (waitForConnection configuration c session input) fun q' _ => q' = q :=
  pays_leaving (delivers_waitForConnection (p := leaver input c) rfl (mayLeave_leaver input c).1
    (mayLeave_leaver input c).2 session) rfl hq

theorem pays_waitForPause (hq : ¬ q.Owes) (pausedUntil : Date) :
    Pays q (waitForPause configuration c pausedUntil input) fun q' _ => q' = q :=
  pays_leaving (delivers_waitForPause (p := leaver input c) rfl (mayLeave_leaver input c).1
    (mayLeave_leaver input c).2 pausedUntil) rfl hq

theorem pays_resolveUnknownOutcome (hq : ¬ q.Owes) (k : Nat) (policy : UnknownOutcomePolicy)
    (failure : Option ProviderFailure) :
    Pays q (resolveUnknownOutcome c k policy input failure) fun q' _ => q' = q :=
  pays_leaving (delivers_resolveUnknownOutcome
    (p := { input, stage := .found, claimed := some c, found := some k, policy := some policy })
    rfl rfl rfl (.inl ⟨rfl, rfl⟩)) rfl hq

theorem pays_resolveRecipient (hq : ¬ q.Owes) :
    Pays q (resolveRecipient configuration c session input) fun q' _ => q' = q := by
  unfold DispatchNotificationService.resolveRecipient
  split
  · exact rfl
  · refine pays_perform hq fun resolved => ?_
    have hend : ∀ {x : Program DispatchResult}, Pays q x (fun q' _ => q' = q) →
        Pays q (x >>= fun result => Pure.pure (RecipientResult.result result))
          fun q' _ => q' = q := fun hx => Conforms.bind hx fun _ _ h => h
    cases resolved with
    | failed failure =>
      simp only
      split
      · refine Conforms.bind (pays_connection (connectionOnly_refreshStatus _ _) hq) ?_
        rintro _ refreshed rfl
        exact hend (pays_waitForConnection hq refreshed)
      · split
        · exact hend (pays_retry hq _ _ _)
        · exact hend (pays_fail hq _ _)
    | succeeded value =>
      simp only
      split
      · exact rfl
      · exact hend (pays_fail hq _ _)

theorem not_owes (hk : q.attempt = none) : ¬ q.Owes := by
  rintro ⟨-, c, k, -, hk', -⟩
  exact absurd (hk.symm.trans hk') nofun

theorem pays_leaves {x : Program α} (hq : ¬ q.Owes) (hx : Pays q x fun q' _ => q' = q) :
    Pays q x fun q' _ => ¬ q'.Owes := by
  refine hx.mono ?_
  rintro q _ rfl
  exact hq

/-- A dispatch that began an attempt within the budget sends next. -/
theorem pays_deliver {t : Uuid} (hc : q.claimed = some c) (hk : q.attempt = none) :
    Pays q (deliver configuration c session t input) fun q' _ => ¬ q'.Owes := by
  have hq : ¬ q.Owes := not_owes hk
  refine Conforms.bind (pays_resolveRecipient hq) ?_
  rintro q recipient rfl
  cases recipient with
  | result result => exact hq
  | chatIdentifier chatIdentifier =>
    refine Conforms.bind (pays_connection (connectionOnly_showTyping _ _) hq) ?_
    rintro q - rfl
    refine pays_perform hq fun aborted => ?_
    split
    · exact pays_perform hq fun now => pays_leaves hq (pays_deferQuietly hq _ _)
    · refine pays_perform hq fun now => pays_perform hq fun attempt => ?_
      cases attempt with
      | none => exact hq
      | some k =>
        simp only
        split
        · rename_i hlt
          have hover : ¬ Payment.Owes { q with attempt := some k } := by
            rintro ⟨-, c', k', hc', hk', hle⟩
            cases hc.symm.trans hc'
            cases hk'
            exact absurd hle (Nat.not_le_of_lt hlt)
          exact pays_leaves hover (pays_fail hover _ _)
        · refine Conforms.call (fun _ => rfl) fun _ _ => ?_
          exact pays_sent rfl

theorem pays_deliverThrough {t : Uuid} (hc : q.claimed = some c) (hk : q.attempt = none) :
    Pays q (deliverThrough configuration c session t input) fun q' _ => ¬ q'.Owes := by
  have hq : ¬ q.Owes := not_owes hk
  unfold DispatchNotificationService.deliverThrough
  split
  · refine Conforms.bind (pays_connection (connectionOnly_prepareToSend _ _) hq) ?_
    rintro q ready rfl
    refine Conforms.bind (pays_connection ?_ hq) ?_
    · unfold readIsPaused
      split
      · exact .pure _
      · exact .bind (.perform rfl) fun _ => .pure _
    · rintro q paused rfl
      split
      · exact pays_leaves hq (pays_waitForPause hq _)
      · refine pays_perform hq fun now => ?_
        refine Conforms.bind (pays_connection (connectionOnly_reserveSendSlot _ _) hq) ?_
        rintro q slot rfl
        split
        · exact pays_deliver hc hk
        · exact pays_leaves hq (pays_deferQuietly hq _ _)
  · exact pays_leaves hq (pays_waitForConnection hq _)

theorem pays_dispatchClaimed {t : Uuid} (hc : q.claimed = some c) (hk : q.attempt = none) :
    Pays q (dispatchClaimed configuration c t input) fun q' _ => ¬ q'.Owes := by
  have hq : ¬ q.Owes := not_owes hk
  refine Conforms.bind (pays_connection (.bind (.bind (.perform rfl) fun _ => .pure _)
    fun _ => .pure _) hq) ?_
  rintro q outlived rfl
  split
  · exact pays_leaves hq (pays_fail hq _ _)
  · refine pays_perform hq fun unresolved => ?_
    cases unresolved with
    | some attempt =>
      refine pays_perform hq fun settings => ?_
      exact pays_leaves hq (pays_resolveUnknownOutcome hq _ _ _)
    | none =>
      refine pays_perform hq fun session => ?_
      cases session with
      | none => exact pays_leaves hq (pays_fail hq _ _)
      | some session => exact pays_deliverThrough hc hk

theorem pays_explainFailedClaim {now : Date} :
    Pays {} (explainFailedClaim input now) fun q' result => q'.attempt = none ∧
      ∀ c, result = .claimed c → q'.claimed = some c := by
  refine pays_perform (not_owes rfl) fun existing => ?_
  have hother : ∀ {result : ClaimResult}, (∀ c, result ≠ .claimed c) →
      Pays {} (Pure.pure result) fun q' result => q'.attempt = none ∧
        ∀ c, result = .claimed c → q'.claimed = some c :=
    fun h => ⟨rfl, fun c hc => absurd hc (h c)⟩
  have hrefused : ∀ c, ClaimResult.not_claimable ≠ .claimed c := fun c h => by cases h
  have hdue : ∀ dueAt reason c, ClaimResult.not_due dueAt reason ≠ .claimed c :=
    fun _ _ c h => by cases h
  cases existing with
  | none => exact hother hrefused
  | some existing =>
    simp only
    split
    · split
      · exact hother (hdue _ _)
      · exact hother hrefused
    · split
      · exact hother (hdue _ _)
      · exact hother hrefused
    · exact hother hrefused

theorem pays_dispatch : Pays {} (dispatch configuration input) fun q' _ => ¬ q'.Owes := by
  have hq : ∀ {q : Payment}, q.attempt = none → ¬ q.Owes := not_owes
  have hclaim : ∀ t, Pays {} (claim input t) fun q' result => q'.attempt = none ∧
      ∀ c, result = .claimed c → q'.claimed = some c := by
    intro t
    refine pays_perform (hq rfl) fun now => pays_perform (hq rfl) fun promoted => ?_
    have hpromotion : Pays {} (recordPromotion input promoted) fun q' _ => q' = {} := by
      cases promoted with
      | none => exact rfl
      | some row => exact Conforms.call (fun h => absurd h (hq rfl)) fun _ _ => rfl
    refine Conforms.bind hpromotion ?_
    rintro _ - rfl
    refine pays_perform (hq rfl) fun claimed => ?_
    cases claimed with
    | some c =>
      refine ⟨rfl, fun c' h => ?_⟩
      cases h
      rfl
    | none => exact pays_explainFailedClaim
  refine pays_perform (hq rfl) fun t => Conforms.bind (hclaim t) fun q result h => ?_
  cases result with
  | claimed c => exact pays_dispatchClaimed (h.2 c rfl) h.1
  | not_claimable => exact hq h.1
  | not_due dueAt reason => exact pays_perform (hq h.1) fun _ => hq h.1

/-- Nobody but a dispatch claims, begins an attempt or sends. -/
theorem pays_serving {request : Request}
    (h : ∀ input, request ≠ .dispatch input) :
    Conforms paymentTypestate Answers {} (program configuration request) fun q' _ => ¬ q'.Owes := by
  let S : DeliveryPhase → Payment → Prop := fun ph q' =>
    q' = {} ∧ ∃ request cancelled, ph = .serving request cancelled
  have hinitial : S (DeliveryPhase.initial request) {} := by
    refine ⟨rfl, request, [], ?_⟩
    cases request <;> first | rfl | exact absurd rfl (h _)
  refine ((conforms_program configuration request).simulates (S := paymentTypestate) (R := S)
    hinitial ?_).mono fun q' _ ⟨_, hS, _⟩ => hS.1 ▸ not_owes rfl
  rintro _ _ o ⟨rfl, request, cancelled, rfl⟩ ho
  refine ⟨fun h => absurd h (not_owes rfl), fun r _ => ⟨?_, request, serving_advance request cancelled o r⟩⟩
  by_cases hd : o.isDispatchOp = true
  · obtain ⟨p, hp, -⟩ := dispatching_of_allows (q := .serving request cancelled) hd ho
    cases hp
  · cases o <;> first | rfl | exact absurd rfl hd

end Conformance

/-- **Every dispatch sends the attempts it began within the budget.** -/
@[reducible] def paymentDiscipline (configuration : Configuration) :
    Discipline (platform configuration) where
  toTypestate := paymentTypestate
  initial := fun _ => {}
  Answers := Answers
  Returns := fun _ q _ => ¬ q.Owes
  answers_exec := answers_exec
  conforms := fun request => by
    by_cases h : ∃ input, request = .dispatch input
    · obtain ⟨input, rfl⟩ := h
      change Conforms _ _ _ (Result.dispatched <$> DispatchNotificationService.dispatch _ _) _
      rw [← bind_pure_comp]
      exact Conforms.bind pays_dispatch fun _ _ h => h
    · exact pays_serving fun input hrequest => h ⟨input, hrequest⟩

/-! ## Payments and the trace -/

/-- A dispatch has come as far as its payment says. -/
def Matches (ph : DeliveryPhase) (q : Payment) : Prop :=
  ∀ p, ph = .dispatching p → q.claimed = p.claimed ∧ q.attempt = p.attempt ∧ q.sent = p.sent

theorem Move.matches {p p' : Progress} {o : Op} {r : o.Ret} {q : Payment} (h : Move p o r p')
    (hq : q.claimed = p.claimed ∧ q.attempt = p.attempt ∧ q.sent = p.sent) :
    (q.advance o r).claimed = p'.claimed ∧ (q.advance o r).attempt = p'.attempt ∧
      (q.advance o r).sent = p'.sent := by
  cases h with
  | connection kind => cases o <;> first | exact hq | cases kind
  | claimed => exact ⟨rfl, hq.2⟩
  | begun => exact ⟨hq.1, rfl, hq.2.2⟩
  | sent => exact ⟨hq.1, hq.2.1, rfl⟩
  | _ => exact hq

theorem matches_advance {ph : DeliveryPhase} {q : Payment} {o : Op} {r : o.Ret}
    (h : Matches ph q) (ho : ph.Allows o) : Matches (ph.advance o r) (q.advance o r) := by
  intro p' hp'
  cases ph with
  | dispatching p =>
    cases hp'
    exact (move_of_allows ho).matches (h p rfl)
  | serving request cancelled =>
    obtain ⟨cancelled', hc⟩ := serving_advance request cancelled o r
    cases hc.symm.trans hp'

theorem began_of_after {older : List (Performed operations)} {k : Nat}
    (h : (paymentTypestate.after {} older).attempt = some k) :
    ∃ i input, (⟨i, .beginAttempt input, some k⟩ : Performed operations) ∈ older := by
  induction older with
  | nil => cases h
  | cons e older ih =>
    obtain ⟨i, o, r⟩ := e
    have hrest : (paymentTypestate.after {} older).attempt = some k →
        ∃ j input, (⟨j, .beginAttempt input, some k⟩ : Performed operations) ∈
          (⟨i, o, r⟩ : Performed operations) :: older := fun h =>
      let ⟨j, input, hmem⟩ := ih h
      ⟨j, input, List.mem_cons_of_mem _ hmem⟩
    cases o
    case beginAttempt input =>
      cases r with
      | none => exact hrest h
      | some k' =>
        cases h
        exact ⟨i, input, List.mem_cons_self⟩
    case claimForDispatch => cases r <;> exact hrest h
    all_goals exact hrest h

theorem sent_of_after {older : List (Performed operations)}
    (h : (paymentTypestate.after {} older).sent = true) :
    ∃ i name chat text, (⟨i, .sendTextMessage name chat text, ()⟩ : Performed operations) ∈
      older := by
  induction older with
  | nil => cases h
  | cons e older ih =>
    obtain ⟨i, o, r⟩ := e
    have hrest : (paymentTypestate.after {} older).sent = true →
        ∃ j name chat text, (⟨j, .sendTextMessage name chat text, ()⟩ : Performed operations) ∈
          (⟨i, o, r⟩ : Performed operations) :: older := fun h =>
      let ⟨j, name, chat, text, hmem⟩ := ih h
      ⟨j, name, chat, text, List.mem_cons_of_mem _ hmem⟩
    cases o
    case sendTextMessage name chat text => exact ⟨i, name, chat, text, List.mem_cons_self⟩
    case beginAttempt => cases r <;> exact hrest h
    case claimForDispatch => cases r <;> exact hrest h
    all_goals exact hrest h

/-! ## Runs -/

section Runs

variable {configuration : Configuration} {w : World} {s s' : System (platform configuration)}
  {l : Label (platform configuration)} {n : Uuid}
  {P : System (platform configuration) → Label (platform configuration) → Prop}

/-- The dispatch that began this entry has issued its send, or issues it next, or would have if it
had not crashed. -/
def Accounted (s : System (platform configuration)) (n : Uuid) (a : SendAttemptRecord) : Prop :=
  ∃ i request, s.requestOf i = some (.dispatch request) ∧ request.notificationId = n ∧
    (∃ input, ⟨i, .beginAttempt input, some a.attemptNumber⟩ ∈ s.trace) ∧
    ∃ name chat text, ⟨i, .sendTextMessage name chat text, ()⟩ ∈ s.trace ∨
      s.Due i (.sendTextMessage name chat text)

/-- No notification has spent more than its budget, and every open entry of the ledger belongs to a
send. -/
def Accounts (s : System (platform configuration)) : Prop :=
  ∀ n row, s.world.row n = some row → row.attemptCount ≤ row.maximumAttempts ∧
    ∀ a ∈ s.world.ledger n, a.outcome = none → Accounted s n a

/-- Whenever a dispatch begins an attempt under its claim, the ledger does not hold the last attempt
of the budget yet. -/
def HasAttemptLeft (s : System (platform configuration)) (l : Label (platform configuration)) :
    Prop :=
  ∀ i choice input row, l = .advance i choice → s.nextOp i = some (.beginAttempt input) →
    s.world.row input.notificationId = some row → row.claimToken = some input.claimToken →
    ∀ a ∈ s.world.ledger input.notificationId, a.attemptNumber ≠ row.maximumAttempts

theorem mem_trace_of_history {i : Nat} {e : Performed operations} (h : e ∈ s.history i) :
    e ∈ s.trace ∧ e.thread = i := by
  obtain ⟨hmem, hi⟩ := List.mem_filter.1 h
  exact ⟨hmem, of_decide_eq_true hi⟩

/-- Entries within the budget belong to sends. -/
theorem accounted_of_budget (hw : Fresh w) (hr : Run P (System.start w) s)
    {row : NotificationRecord} (hrow : s.world.row n = some row)
    (hle : row.attemptCount ≤ row.maximumAttempts) {a : SendAttemptRecord}
    (ha : a ∈ s.world.ledger n) : Accounted s n a := by
  have hsound := sound_run hw hr
  obtain ⟨i, p, hp, hn, hk⟩ := hsound.ledgers.author ha
  have hpayment := Discipline.run_related (D := deliveryDiscipline configuration)
    (E := paymentDiscipline configuration) Matches
    (fun request p hp => by
      cases request <;> cases hp
      exact ⟨rfl, rfl, rfl⟩)
    (fun h ho _ _ _ => matches_advance h ho) hr i
  have hphase : (deliveryDiscipline configuration).phase s i = some (.dispatching p) := hp
  rw [hphase] at hpayment
  obtain ⟨q, hq, hmatches⟩ : ∃ q, (paymentDiscipline configuration).phase s i = some q ∧
      Matches (.dispatching p) q := by
    cases hq : (paymentDiscipline configuration).phase s i with
    | none =>
      rw [hq] at hpayment
      cases hpayment
    | some q =>
      rw [hq] at hpayment
      cases hpayment with
      | some h => exact ⟨q, rfl, h⟩
  obtain ⟨hclaimed, hattempt, hsent⟩ := hmatches p rfl
  obtain ⟨t, ht, hafter⟩ := Option.map_eq_some_iff.1 hq
  change (paymentTypestate.after {} (s.history i)) = q at hafter
  have hbegun : (paymentTypestate.after {} (s.history i)).attempt = some a.attemptNumber := by
    rw [hafter, hattempt, hk]
  obtain ⟨j, input, hbegan⟩ := began_of_after hbegun
  obtain ⟨htrace, hj⟩ := mem_trace_of_history hbegan
  obtain rfl : j = i := hj
  have hrequest := dispatches_iff.2 ⟨p, hp, hn⟩
  obtain ⟨request, hreq, hnames⟩ : ∃ request, s.requestOf j = some (.dispatch request) ∧
      request.notificationId = n := by
    obtain ⟨request, hreq, hdispatches⟩ := (Option.any_eq_true _ _).1 hrequest
    cases request with
    | dispatch request => exact ⟨request, hreq, of_decide_eq_true hdispatches⟩
    | _ => cases hdispatches
  refine ⟨j, request, hreq, hnames, ⟨input, htrace⟩, ?_⟩
  cases hs : q.sent with
  | true =>
    have hgone : (paymentTypestate.after {} (s.history j)).sent = true := by rw [hafter, hs]
    obtain ⟨j', name, chat, text, hmem⟩ := sent_of_after hgone
    obtain ⟨hsend, hj⟩ := mem_trace_of_history hmem
    obtain rfl : j' = j := hj
    exact ⟨name, chat, text, .inl hsend⟩
  | false =>
    obtain ⟨c, hc⟩ := Option.isSome_iff_exists.1
      ((hsound.tokens.wellFormed hp).attempt (by rw [hk]; rfl)).2
    obtain ⟨row', hrow', hkept⟩ := hsound.ledgers.claimed hp hc
    rw [hsound.ledgers.named hp hc, hn] at hrow'
    cases hrow.symm.trans hrow'
    have hnumber := (attemptNumber_mem (hsound.ledgers.numbered hrow) ha).2
    have howes : q.Owes := ⟨hs, c, a.attemptNumber, hclaimed.trans hc, hattempt.trans hk,
      by rw [← hkept.maximumAttempts]; omega⟩
    obtain ⟨o, hdue, ho⟩ := Discipline.due_run (D := paymentDiscipline configuration) hr hq
      fun _ _ h => h howes
    have hsend := ho howes
    cases o <;> try cases hsend
    exact ⟨_, _, _, .inr hdue⟩

/-- An attempt that is not begun was asked for without the claim. -/
theorem beginAttempt_misses {input : BeginAttemptInput} {w w' : World}
    (h : beginAttemptTransaction input w = some (none, w')) {row : NotificationRecord}
    (hrow : w.row input.notificationId = some row)
    (happlication : row.applicationId = input.applicationId)
    (htoken : row.claimToken = some input.claimToken) (hstatus : row.status = .PROCESSING) :
    False := by
  obtain ⟨k, w₁, h₁, h₂⟩ := Sql.bind_eq_some.1 h
  obtain ⟨updated, w₂, hupdate, hk⟩ := Sql.bind_eq_some.1 h₁
  obtain ⟨rfl, -⟩ := Sql.pure_eq_some.1 hk
  cases updated with
  | none =>
    have hmiss := (updateOne_none (sending_eq_some.1 hupdate).2).2 row hrow
    simp [happlication, htoken, hstatus] at hmiss
  | some new =>
    obtain ⟨_, _, _, h₂⟩ := Sql.bind_eq_some.1 h₂
    obtain ⟨hnone, -⟩ := Sql.pure_eq_some.1 h₂
    cases hnone

/-- Only beginning an attempt counts it. -/
theorem Effect.counter {w w' : World} {o : Op} {r : o.Ret} (h : Effect n w w' o r)
    {old new : NotificationRecord} (hold : w.row n = some old) (hnew : w'.row n = some new) :
    new.attemptCount = old.attemptCount ∨ ∃ input, o = .beginAttempt input ∧
      input.notificationId = n ∧ old.claimToken = some input.claimToken ∧
      new.attemptCount = old.attemptCount + 1 := by
  cases h with
  | kept row | resolved names row =>
    cases (row.trans hold).symm.trans hnew
    exact .inl rfl
  | promoted before status after | cancelledWaiting before status after =>
    cases hold.symm.trans before
    cases hnew.symm.trans after
    exact .inl rfl
  | claimed before application claimable new_eq after =>
    cases hold.symm.trans before
    cases hnew.symm.trans after
    rw [new_eq]
    exact .inl rfl
  | @begun input old' k id names before application token status number after =>
    cases hold.symm.trans before
    cases hnew.symm.trans after
    exact .inr ⟨input, rfl, names, token, rfl⟩
  | sent names moved | deferred names moved | transitioned names moved | released names moved
  | cancelled names moved | acknowledged names moved =>
    subst names
    cases hold.symm.trans moved.before
    cases hnew.symm.trans moved.after
    exact .inl rfl

/-- Every notification has a budget, and no attempt beyond it was begun. -/
def WithinBudget (s : System (platform configuration)) : Prop :=
  ∀ n row, s.world.row n = some row →
    1 ≤ row.maximumAttempts ∧ row.attemptCount ≤ row.maximumAttempts

theorem withinBudget_run (hw : Fresh w) (h : Run HasAttemptLeft (System.start w) s) :
    WithinBudget s := by
  refine sound_induction (P := HasAttemptLeft) WithinBudget hw .refl
    (fun n row hrow => absurd ((hw.notifications n).symm.trans hrow) nofun) ?_ h
  intro s₁ l s₂ hr hs hsound hin hleft hstep n new hnew
  cases hstep with
  | spawned _ _ _ world | crashed _ _ world =>
    rw [world] at hnew
    exact hin n new hnew
  | outside _ _ world =>
    rcases (outside_rows world n).2.2 with hrow | ⟨draft, -, -, hrow, hchecks⟩
    · exact hin n new (hrow.symm.trans hnew)
    · cases hrow.symm.trans hnew
      simp only [NotificationRecord.satisfiesChecks, Bool.decide_and, Bool.and_eq_true,
        decide_eq_true_eq] at hchecks
      exact ⟨hchecks.2.2.2.1.1, Nat.zero_le _⟩
  | @advanced i choice o r q phases' crashed live step =>
    obtain ⟨old, hold, hkept⟩ := row_before step.exec hnew
    obtain ⟨hone, hle⟩ := hin n old hold
    rw [hkept.maximumAttempts]
    refine ⟨hone, ?_⟩
    rcases (exec_effect step.exec n).counter hold hnew with hsame | ⟨input, rfl, rfl, htoken, hmore⟩
    · rw [hsame]
      exact hle
    · by_contra hover
      -- the ledger would hold the entry of the last attempt
      have hmem : old.maximumAttempts ∈
          (s₁.world.ledger input.notificationId).map (·.attemptNumber) := by
        rw [hsound.ledgers.numbered hold, List.mem_range'_1]
        omega
      obtain ⟨a, ha, hnumber⟩ := List.mem_map.1 hmem
      exact hleft i choice input old rfl step.nextOp hold htoken a ha hnumber

theorem accounts_start (hw : Fresh w) :
    Accounts (System.start w : System (platform configuration)) :=
  fun n _ hrow => absurd ((hw.notifications n).symm.trans hrow) nofun

/-- **The counter stays within the budget, and open entries are sends.** Along any sequence of
steps, both hold in every state exactly if no dispatch comes to begin an attempt of a notification
whose ledger already holds the last attempt of its budget. -/
theorem accounting_iff (hw : Fresh w) (ls : List (Label (platform configuration))) :
    Accounts (System.start w : System (platform configuration)) ∧
      (Always (fun s l => ∀ s', s.step l = some s' → Accounts s') (System.start w) ls ↔
        Always HasAttemptLeft (System.start w) ls) := by
  refine ⟨accounts_start hw, always_iff ls fun s l s' hr hs => ?_⟩
  constructor
  · rintro haccounts i choice input row rfl hnext hrow htoken a ha hnumber
    have hsound := sound_run hw hr
    cases (disciplined_run hr).stepped hs with
    | @advanced _ _ o r q phases' crashed live step =>
      cases Option.some.inj (step.nextOp.symm.trans hnext)
      have he : exec s.world (.beginAttempt input) choice = some (r, s'.world) := step.exec
      obtain ⟨p, rfl, -, -, c, hc, happlication, hnames⟩ := dispatching_of_allows rfl step.allowed
      cases r with
      | none =>
        obtain ⟨row', hrow', hkept⟩ := hsound.ledgers.claimed step.before hc
        cases hrow.symm.trans (hnames ▸ hrow')
        exact beginAttempt_misses (Choice.quietly_eq_some.1 he).2 hrow
          (hkept.applicationId.trans happlication.symm) htoken
          ((hsound.tokens.processing hrow).2 (by rw [htoken]; rfl))
      | some k =>
        obtain ⟨old, new, id, hold, -, -, hk, hnew, hcount, -⟩ :=
          (exec_effect he input.notificationId).begun_of_names
        cases hrow.symm.trans hold
        obtain ⟨new', hnew', hkept⟩ := (exec_effect he input.notificationId).kept_row hrow
        cases hnew.symm.trans hnew'
        have hwithin := (haccounts s' hs _ new hnew).1
        have hspent := (attemptNumber_mem (hsound.ledgers.numbered hrow) ha).2
        rw [hkept.maximumAttempts] at hwithin
        omega
  · rintro hleft s₁ hs₁ n row hrow
    have hrun : Run HasAttemptLeft (System.start w) s₁ :=
      .tail (hr.mono fun _ _ h => h.2) hleft hs₁
    obtain ⟨-, hle⟩ := withinBudget_run hw hrun n row hrow
    exact ⟨hle, fun a ha _ => accounted_of_budget hw hrun hrow hle ha⟩

/-- The provider answers as though it had never heard of the connection. -/
def lostSession : ProviderFailure :=
  createProviderFailure .session_missing "Session not found" none (some 404)

/-- The answer to the send of a notification with this budget is that the session is lost, so it goes
back to the queue, and a second dispatch begins another attempt. -/
def lostOnce (budget : Nat) : List Sample.Step :=
  .outside (.created { Sample.draft with maximumAttempts := some budget }) ::
    (List.range 2).map (fun i => .spawn i (.dispatch ⟨1, 7, "order"⟩)) ++ Sample.sends 0 0 true ++
    [.advance 0 (.sent (.failed lostSession)), .advance 0 (.date 0), .advance 0 .nothing,
      .advance 0 (.session (.failed lostSession)), .advance 0 (.date 0), .advance 0 (.date 0),
      .advance 0 (.number 0), .advance 0 .nothing] ++
    Sample.claims 1 400000 ++ Sample.reads 1 400000 ++ Sample.prepares 1 400000 ++
    Sample.begins 1 400000 false

/-- Who begins an attempt under its claim finds one left. -/
def hasAttemptLeft (s : System (platform configuration)) : Label (platform configuration) → Bool
  | .advance i _ => match s.nextOp i with
    | some (.beginAttempt input) => (s.world.row input.notificationId).all fun row =>
        row.claimToken ≠ some input.claimToken ∨
          ∀ a ∈ s.world.ledger input.notificationId, a.attemptNumber ≠ row.maximumAttempts
    | _ => true
  | _ => true

theorem HasAttemptLeft.of_check (h : hasAttemptLeft s l = true) : HasAttemptLeft s l := by
  rintro i choice input row rfl hnext hrow htoken
  simp only [hasAttemptLeft, hnext, hrow, Option.all_some, decide_eq_true_eq] at h
  exact h.resolve_left (not_not.2 htoken)

/-- With a budget of two attempts all is accounted for: the second one is open, and is sent. -/
theorem accounting_iff_lostOnce :
    Always (fun s l => ∀ s', s.step l = some s' → Accounts s') (System.start (Sample.world .RETRY))
        (lostOnce 2 ++ [.advance 1 .nothing]) ∧
      ((Sample.run .RETRY (lostOnce 2 ++ [.advance 1 .nothing])).world.ledger 7).map
        (fun a => (a.attemptNumber, a.outcome)) = [(1, some .FAILED), (2, none)] := by
  have hleft : Always HasAttemptLeft (System.start (Sample.world .RETRY))
      (lostOnce 2 ++ [.advance 1 .nothing]) :=
    always_of_checksEach (b := hasAttemptLeft) (by decide +kernel) fun _ _ _ =>
      HasAttemptLeft.of_check
  exact ⟨(accounting_iff (Sample.fresh_world .RETRY) _).2.2 hleft, by decide +kernel⟩

/-- A notification with a budget of one attempt. -/
def overspent : List Sample.Step := lostOnce 1

/-- The counter is 2, and the second entry stays open although no send belongs to it. -/
theorem budget_overspent :
    ∃ s : System (platform Sample.configuration), Run Any (System.start (Sample.world .RETRY)) s ∧
      ¬ Accounts s ∧ ∃ a ∈ s.world.ledger 7, a.outcome = none ∧ ¬ Accounted s 7 a := by
  have hrun := Sample.run_any .RETRY overspent
  refine ⟨Sample.run .RETRY overspent, hrun, fun h => ?_, ?_⟩
  · have hcount : ((Sample.run .RETRY overspent).world.row 7).map
        (fun r => (r.attemptCount, r.maximumAttempts)) = some (2, 1) := by decide +kernel
    obtain ⟨row, hrow, hrow'⟩ := Option.map_eq_some_iff.1 hcount
    obtain ⟨hspent, hmaximum⟩ := Prod.mk.inj hrow'
    have hle := (h 7 row hrow).1
    omega
  · have hopen : ((Sample.run .RETRY overspent).world.ledger 7).any
        (fun a => decide (a.outcome = none ∧ a.attemptNumber = 2)) = true := by decide +kernel
    obtain ⟨a, ha, hentry⟩ := List.any_eq_true.1 hopen
    obtain ⟨houtcome, hnumber⟩ := of_decide_eq_true hentry
    refine ⟨a, ha, houtcome, ?_⟩
    rintro ⟨i, request, -, -, ⟨input, hbegan⟩, name, chat, text, hsend⟩
    rw [hnumber] at hbegan
    have hbegins : (Sample.run .RETRY overspent).trace.all (fun e =>
        decide ((({} : Payment).advance e.op e.ret).attempt = some 2 → e.thread = 1)) = true := by
      decide +kernel
    have hthread : i = 1 := of_decide_eq_true (List.all_eq_true.1 hbegins _ hbegan) rfl
    subst hthread
    have hsends : (Sample.run .RETRY overspent).trace.all (fun e =>
        !(decide (e.thread = 1) && e.op.isSendTextMessage)) = true := by decide +kernel
    rcases hsend with hsend | hdue
    · exact absurd (List.all_eq_true.1 hsends _ hsend) (by simp [Op.isSendTextMessage])
    · have hfails : ((Sample.run .RETRY overspent).nextOp 1).any (fun o =>
          !o.isSendTextMessage) = true := by decide +kernel
      rcases Discipline.nextOp_of_due (paymentDiscipline Sample.configuration) hrun hdue with
        hnext | ⟨request', hcrashed⟩
      · rw [hnext] at hfails
        cases hfails
      · rw [System.nextOp, hcrashed] at hfails
        cases hfails

end Runs

end NotificationPlatform
