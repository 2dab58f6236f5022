import NotificationPlatform.Delivery.Ownership

/-!
# No double send without a reap of a live claim

The pipeline retries by handing a notification from dispatch to dispatch. As long as a claim is only
taken back from a dispatch that has crashed, the claim token makes sure that only its holder sends,
that nothing is sent after the notification was closed, and that a cancel which reports success was
in time.
-/

namespace NotificationPlatform

open Interleaving

/-! ## Cancelled notifications stay cancelled -/

/-- What a service was told it cancelled is cancelled. -/
def CancelledRows (ph : Phases) (w : World) : Prop :=
  ∀ i request cancelled, ph i = some (.serving request cancelled) → ∀ n ∈ cancelled,
    ∃ r, w.row n = some r ∧ r.status = .CANCELLED

theorem RowStep.cancelled_stays {n : Uuid} {o : Op} {r : o.Ret} {old new : NotificationRecord}
    (h : RowStep n o r old new) (was : old.status = .CANCELLED) : new.status = .CANCELLED := by
  cases h with
  | same status => exact status.trans was
  | cancelled _ _ status => exact status
  | promoted was' | sent _ was' | requeued _ was' | failed _ _ was' | acknowledged _ was' =>
    exact absurd (was.symm.trans was') nofun
  | claimed was' => rcases was' with was' | was' <;> exact absurd (was.symm.trans was') nofun

section Cancelled

variable {ph : Phases} {w w' : World} {i : Nat} {q : DeliveryPhase} {o : Op} {r : o.Ret}
  {choice : Choice}

/-- What a service adds to the notifications it cancelled. -/
theorem serving_cancelled {request request' : Request} {cancelled cancelled' : List Uuid}
    (h : (DeliveryPhase.serving request cancelled).advance o r = .serving request' cancelled')
    (he : exec w o choice = some (r, w')) {n : Uuid} (hn : n ∈ cancelled') :
    n ∈ cancelled ∨ ∃ new, w'.row n = some new ∧ new.status = .CANCELLED := by
  cases o
  case cancelTransition input =>
    cases r with
    | none =>
      cases h
      exact .inl hn
    | some row =>
      cases h
      rcases List.mem_cons.1 hn with rfl | hn
      · right
        cases exec_effect he input.notificationId with
        | kept row ledger idle => exact absurd rfl idle
        | cancelled names moved => exact ⟨_, moved.after, rfl⟩
      · exact .inl hn
  case cancelWaitingTransition input =>
    cases h
    rcases List.mem_append.1 hn with hn | hn
    · right
      cases exec_effect he n with
      | kept row ledger idle => exact absurd hn idle
      | cancelledWaiting before status after => exact ⟨_, after, rfl⟩
    · exact .inl hn
  all_goals
    cases h
    exact .inl hn

theorem CancelledRows.advance (h : CancelledRows ph w) (hi : ph i = some q) (ho : q.Allows o)
    (he : exec w o choice = some (r, w')) :
    CancelledRows (Function.update ph i (some (q.advance o r))) w' := by
  intro j request cancelled hj n hn
  have hkeep : (∃ r, w.row n = some r ∧ r.status = .CANCELLED) →
      ∃ r, w'.row n = some r ∧ r.status = .CANCELLED := by
    rintro ⟨old, hold, was⟩
    obtain ⟨new, hnew, -⟩ := (exec_effect he n).kept_row hold
    exact ⟨new, hnew, ((exec_effect he n).row_step ho hold hnew).cancelled_stays was⟩
  by_cases hji : j = i
  · subst hji
    rw [Function.update_self] at hj
    cases q with
    | dispatching p => cases hj
    | serving request' before =>
      rcases serving_cancelled (Option.some.inj hj) he hn with hn | hnew
      · exact hkeep (h j _ _ hi n hn)
      · exact hnew
  · rw [Function.update_of_ne hji] at hj
    exact hkeep (h j _ _ hj n hn)

end Cancelled

/-! ## Accepted sends -/

/-- A dispatch whose send was accepted is recording it, or the notification is closed; and no two
dispatches of a notification had a send accepted. -/
structure AcceptedOnce (ph : Phases) (w : World) : Prop where
  settled : ∀ i p sent, Dispatching ph i p → p.answer = some (.succeeded sent) →
    p.stage = .answered ∨ Closed w p.input.notificationId
  once : ∀ i j p p' sent sent', Dispatching ph i p → Dispatching ph j p' →
    p.input.notificationId = p'.input.notificationId → p.answer = some (.succeeded sent) →
    p'.answer = some (.succeeded sent') → i = j

theorem Move.answer_cases {p p' : Progress} {o : Op} {r : o.Ret} (h : Move p o r p')
    {answer : ProviderResult SentMessage} (ha : p'.answer = some answer) :
    p.answer = some answer ∨ (p.stage = .awaiting ∧ p'.stage = .answered) := by
  cases h with
  | answered stage => exact .inr ⟨stage, rfl⟩
  | _ => exact .inl ha

section Accepted

variable {ph : Phases} {w w' : World} {i j : Nat} {q : DeliveryPhase} {o : Op} {r : o.Ret}
  {choice : Choice} {p p' : Progress}

/-- A holder whose send was accepted goes on to record it, and then the notification is closed. -/
theorem Move.records (hm : Move p o r p') (hs : Sound ph w) (hd : Dispatching ph i p)
    (hh : Holds ph w i p.input.notificationId) (he : exec w o choice = some (r, w'))
    (stage : p.stage = .answered) {sent : SentMessage} (ha : p.answer = some (.succeeded sent)) :
    p'.stage = .answered ∨
      Closed w' p.input.notificationId := by
  cases hm with
  | connection | policy => exact .inl stage
  | answered stage' => exact absurd (stage.symm.trans stage') nofun
  | settled claimed application names may =>
    rcases may with ⟨stage', -⟩ | ⟨-, -, failure, ha', -⟩
    · exact absurd (stage.symm.trans stage') nofun
    · exact absurd (ha.symm.trans ha') nofun
  | @recorded input sent stage' claimed attempt answer message =>
    right
    rw [← hs.ledgers.named hd claimed]
    cases exec_effect he input.notification.id with
    | kept row ledger idle => exact absurd rfl idle
    | sent names moved => exact ⟨_, moved.after, rfl⟩
  | @unrecorded input stage' claimed =>
    exact absurd rfl (hh.hits (t := input.transition) hs hd claimed he rfl rfl rfl)
  | left _ mayLeave | deferred _ mayLeave | deferring _ mayLeave =>
    rcases mayLeave with stage' | stage' | stage' | ⟨stage', -⟩ <;>
      exact absurd (stage.symm.trans stage') nofun
  | enqueued stage' => rcases stage' with stage' | stage' <;> exact absurd (stage.symm.trans stage') nofun
  | promoting stage' | recording stage' | explaining stage' | drew stage' | claimed stage'
  | refused stage' | clear stage' | found stage' | lost stage' | begun stage' | sent stage' =>
    exact absurd (stage.symm.trans stage') nofun

/-- The holder of a row is the only dispatch that is still recording an accepted send. -/
theorem AcceptedOnce.holder (h : AcceptedOnce ph w) (hs : Sound ph w)
    (howned : Owned (fun _ => True) ph w) (hd : Dispatching ph i p) {sent : SentMessage}
    (ha : p.answer = some (.succeeded sent)) (hd' : Dispatching ph j p')
    (hn : p.input.notificationId = p'.input.notificationId)
    (hactive : p'.stage.isActive = true) : i = j := by
  have hheld := howned j p' hd' trivial hactive
  rcases h.settled i p sent hd ha with stage | hclosed
  · have hheld' := howned i p hd trivial (by rw [stage]; rfl)
    rw [hn] at hheld'
    exact Holds.unique hs hheld' hheld
  · rw [hn] at hclosed
    exact absurd hclosed hheld.not_closed

theorem AcceptedOnce.advance (h : AcceptedOnce ph w) (hs : Sound ph w)
    (howned : Owned (fun _ => True) ph w) (hi : ph i = some q) (ho : q.Allows o)
    (he : exec w o choice = some (r, w')) :
    AcceptedOnce (Function.update ph i (some (q.advance o r))) w' where
  settled := by
    intro j p' sent hd ha
    rcases dispatching_advance hi ho hd with ⟨-, hold⟩ | ⟨rfl, p, hold, hm⟩
    · exact (h.settled j p' sent hold ha).imp id (closed_stays ho he)
    · rcases hm.answer_cases ha with ha | ⟨-, stage⟩
      · rw [hm.input]
        rcases h.settled j p sent hold ha with stage | hclosed
        · exact hm.records hs hold (howned j p hold trivial (by rw [stage]; rfl)) he stage ha
        · exact .inr (closed_stays ho he hclosed)
      · exact .inl stage
  once := by
    intro j k p p' sent sent' hd hd' hn ha ha'
    rcases dispatching_advance hi ho hd with ⟨hj, hold⟩ | ⟨hj, p₀, hold, hm⟩ <;>
      rcases dispatching_advance hi ho hd' with ⟨hk, hold'⟩ | ⟨hk, p₁, hold', hm'⟩
    · exact h.once j k p p' sent sent' hold hold' hn ha ha'
    · rw [hm'.input] at hn
      rcases hm'.answer_cases ha' with ha' | ⟨stage, -⟩
      · exact h.once j k p p₁ sent sent' hold hold' hn ha ha'
      · exact h.holder hs howned hold ha hold' hn (by rw [stage]; rfl)
    · rw [hm.input] at hn
      rcases hm.answer_cases ha with ha | ⟨stage, -⟩
      · exact h.once j k p₀ p' sent sent' hold hold' hn ha ha'
      · exact (h.holder hs howned hold' ha' hold hn.symm (by rw [stage]; rfl)).symm
    · exact hj.trans hk.symm

end Accepted

section Runs

variable {configuration : Configuration} {P : System (platform configuration) →
  Label (platform configuration) → Prop} {w : World} {s s' : System (platform configuration)}
  {l : Label (platform configuration)} {n : Uuid}

theorem cancelledRows_run (h : Run P (System.start w) s) : CancelledRows (phases s) s.world := by
  refine Discipline.run_invariant (D := deliveryDiscipline configuration) CancelledRows ?_ ?_ ?_
    ?_ h
  · intro i request cancelled hi
    cases hi
  · intro ph w i request hinv _ j request' cancelled hj n hn
    by_cases hji : j = i
    · subst hji
      rw [Function.update_self] at hj
      cases request <;> cases hj <;> exact absurd hn List.not_mem_nil
    · rw [Function.update_of_ne hji] at hj
      exact hinv j _ _ hj n hn
  · intro ph w w' i o r choice q hinv hi ho _ he
    exact hinv.advance hi ho he
  · intro ph w w' event hinv he i request cancelled hi n hn
    obtain ⟨r, hr, hrest⟩ := hinv i _ _ hi n hn
    exact ⟨r, row_kept_outside he hr, hrest⟩

theorem acceptedOnce_run (hw : Fresh w) (h : Run ReapsNothing (System.start w) s) :
    AcceptedOnce (phases s) s.world := by
  induction h with
  | refl =>
    refine ⟨fun i p sent hd => ?_, fun i j p p' sent sent' hd => ?_⟩ <;> cases hd
  | @tail s₁ s₂ l hr hp hs ih =>
    unfold phases
    cases (disciplined_run hr).stepped hs with
    | spawned fresh phases' crashed world trace =>
      rw [phases', world]
      refine ⟨fun j p sent hd ha => ?_, fun j k p p' sent sent' hd hd' hn ha ha' => ?_⟩
      · rcases dispatching_spawn hd with ⟨-, hold⟩ | ⟨-, input, rfl⟩
        · exact ih.settled j p sent hold ha
        · cases ha
      · rcases dispatching_spawn hd with ⟨-, hold⟩ | ⟨-, input, rfl⟩
        · rcases dispatching_spawn hd' with ⟨-, hold'⟩ | ⟨-, input, rfl⟩
          · exact ih.once j k p p' sent sent' hold hold' hn ha ha'
          · cases ha'
        · cases ha
    | crashed phases' crashed world trace =>
      rw [phases', world]
      exact ih
    | outside phases' crashed world trace =>
      rw [phases']
      refine ⟨fun j p sent hd ha => (ih.settled j p sent hd ha).imp id ?_, ih.once⟩
      rintro ⟨r, hr, hclosed⟩
      exact ⟨r, row_kept_outside world hr, hclosed⟩
    | advanced phases' crashed live step =>
      rw [phases']
      exact ih.advance (sound_run hw hr) (owned_run_unreaped hw hr) step.before step.allowed
        step.exec

/-- The send of thread `i` for notification `n` is issued and not answered yet. -/
def InFlight (s : System (platform configuration)) (n : Uuid) (i : Nat) : Prop :=
  ∃ p, Dispatching (phases s) i p ∧ p.input.notificationId = n ∧ p.stage = .awaiting

/-- WhatsApp accepted the message dispatch `i` sent. -/
def wasAccepted (s : System (platform configuration)) (i : Nat) : Bool :=
  match phases s i with
  | some (.dispatching p) =>
    match p.answer with
    | some (.succeeded _) => true
    | _ => false
  | _ => false

/-- Thread `i` is a cancel that has reported that it cancelled notification `n`. -/
def ReportedCancelled (s : System (platform configuration)) (i : Nat) (n : Uuid) : Prop :=
  (∃ a correlationId record, s.requestOf i = some (.cancel a n correlationId) ∧
    s.Returned i (.cancelled (.cancelled record))) ∨
  (∃ a scope correlationId ids, s.requestOf i = some (.cancelWaiting a scope correlationId) ∧
    s.Returned i (.cancelledWaiting (.cancelled ids)) ∧ n ∈ ids)

/-- What a finished service reported cancelled is cancelled. -/
theorem cancelled_of_done {i : Nat} {request : Request} {result : Result}
    (hr : Run P (System.start w) s)
    (ht : s.threads i = some ⟨request, .running (.done result)⟩)
    (hserving : DeliveryPhase.initial request = .serving request [])
    (hn : ∀ cancelled, DeliveryPhase.Returns (.serving request cancelled) result → n ∈ cancelled) :
    Closed s.world n := by
  have hreturns : DeliveryPhase.Returns (deliveryTypestate.after (DeliveryPhase.initial request)
      (s.history i)) result := (disciplined_run hr).residual ht
  have hphase : phases s i = some (deliveryTypestate.after (DeliveryPhase.initial request)
      (s.history i)) := Discipline.phase_eq ht
  rw [hserving] at hreturns hphase
  obtain ⟨cancelled, hc⟩ := after_serving request [] (s.history i)
  rw [hc] at hreturns hphase
  obtain ⟨r, hrow, hstatus⟩ :=
    cancelledRows_run hr i request cancelled hphase n (hn cancelled hreturns)
  exact ⟨r, hrow, by rw [hstatus]; rfl⟩

/-- A notification that was reported cancelled is closed. -/
theorem ReportedCancelled.row {i : Nat} (h : ReportedCancelled s i n)
    (hr : Run P (System.start w) s) :
    Closed s.world n := by
  rcases h with ⟨a, correlationId, record, hreq, request, ht⟩ |
    ⟨a, scope, correlationId, ids, hreq, ⟨request, ht⟩, hn⟩
  · simp only [System.requestOf, ht, Option.map_some, Option.some.injEq] at hreq
    subst hreq
    exact cancelled_of_done hr ht rfl fun cancelled h => h
  · simp only [System.requestOf, ht, Option.map_some, Option.some.injEq] at hreq
    subst hreq
    exact cancelled_of_done hr ht rfl fun cancelled h => h n hn

/-- Who sends holds the claim. -/
theorem SendStep.holds (hw : Fresh w) (hr : Run ReapsOnlyCrashed (System.start w) s) {i : Nat}
    (h : SendStep s l n i) : Holds (phases s) s.world i n := by
  obtain ⟨p, hp, rfl, stage, -, -, hlive⟩ := h.dispatching (disciplined_run hr)
  exact owned_run hw hr i p hp hlive (by rw [stage]; rfl)

/-- Nothing is sent for a closed notification. -/
theorem closed_run (hw : Fresh w) (hr : Run ReapsOnlyCrashed (System.start w) s)
    (hclosed : Closed s.world n)
    (h : Run ReapsOnlyCrashed s s') :
    Closed s'.world n ∧ sends s' n = sends s n := by
  induction h with
  | refl => exact ⟨hclosed, rfl⟩
  | @tail s₁ s₂ l h₁ hp hs ih =>
    obtain ⟨hclosed₁, hsends⟩ := ih
    have hr₁ := hr.trans h₁
    refine ⟨?_, ?_⟩
    · cases (disciplined_run hr₁).stepped hs with
      | spawned _ _ _ world | crashed _ _ world => rwa [world]
      | advanced _ _ _ step => exact closed_stays step.allowed step.exec hclosed₁
      | outside _ _ world =>
        obtain ⟨r, hrow, hrest⟩ := hclosed₁
        exact ⟨r, row_kept_outside world hrow, hrest⟩
    · rcases sends_step (n := n) (disciplined_run hr₁) hs with hsame | ⟨i, hsend⟩
      · exact hsame.trans hsends
      · exact absurd hclosed₁ (hsend.holds hw hr₁).not_closed

/-- At most one send is accepted while nothing is reaped. -/
theorem accepted_length_le (hw : Fresh w) (h : Run ReapsNothing (System.start w) s) :
    ((sends s n).filter fun e => wasAccepted s e.thread).length ≤ 1 := by
  have honce := sendsOnce_run hw h
  have hnodup : (((sends s n).filter fun e => wasAccepted s e.thread).map (·.thread)).Nodup :=
    (honce.nodup n).sublist (List.filter_sublist.map _)
  have hfind : ∀ e ∈ (sends s n).filter fun e => wasAccepted s e.thread, ∃ p sent,
      Dispatching (phases s) e.thread p ∧ p.input.notificationId = n ∧
        p.answer = some (.succeeded sent) := by
    intro e he
    obtain ⟨he, haccepted⟩ := List.mem_filter.1 he
    obtain ⟨p, hp, hn, -⟩ := honce.sent he
    unfold wasAccepted at haccepted
    rw [hp] at haccepted
    cases ha : p.answer with
    | none => simp [ha] at haccepted
    | some answer =>
      cases answer with
      | failed failure => simp [ha] at haccepted
      | succeeded sent => exact ⟨p, sent, hp, hn, ha⟩
  generalize (sends s n).filter (fun e => wasAccepted s e.thread) = accepted at hnodup hfind ⊢
  match accepted, hnodup, hfind with
  | [], _, _ => exact Nat.zero_le 1
  | [_], _, _ => exact Nat.le_refl 1
  | e :: e' :: _, hnodup, hfind =>
    obtain ⟨p, sent, hp, hn, ha⟩ := hfind e List.mem_cons_self
    obtain ⟨p', sent', hp', hn', ha'⟩ := hfind e' (List.mem_cons_of_mem _ List.mem_cons_self)
    have heq := (acceptedOnce_run hw h).once _ _ _ _ _ _ hp hp' (hn.trans hn'.symm) ha ha'
    simp [heq] at hnodup

/-- **No double send.** While only claims of crashed dispatches are reaped: who sends holds the
claim, at most one send of a living dispatch is in flight, nothing is sent once the notification is
closed or reported cancelled; and while nothing is reaped, at most one send is accepted. -/
theorem no_double_send (hw : Fresh w) (hr : Run ReapsOnlyCrashed (System.start w) s) :
    (∀ l i, SendStep s l n i → Holds (phases s) s.world i n) ∧
    (∀ i j, InFlight s n i → InFlight s n j → ¬ s.Crashed i → ¬ s.Crashed j → i = j) ∧
    (∀ s', Run ReapsOnlyCrashed s s' →
      (∃ r, s.world.row n = some r ∧ (r.status = .SENT ∨ r.status = .DELIVERED ∨
        r.status = .FAILED ∨ r.status = .CANCELLED)) → sends s' n = sends s n) ∧
    (∀ s' i, Run ReapsOnlyCrashed s s' → ReportedCancelled s i n → sends s' n = sends s n) ∧
    (Run ReapsNothing (System.start w) s →
      ((sends s n).filter fun e => wasAccepted s e.thread).length ≤ 1) := by
  refine ⟨fun l i hsend => hsend.holds hw hr, ?_, ?_, ?_, fun h => accepted_length_le hw h⟩
  · rintro i j ⟨p, hp, hn, stage⟩ ⟨p', hp', hn', stage'⟩ hlive hlive'
    have hheld := owned_run hw hr i p hp hlive (by rw [stage]; rfl)
    have hheld' := owned_run hw hr j p' hp' hlive' (by rw [stage']; rfl)
    rw [hn] at hheld
    rw [hn'] at hheld'
    exact Holds.unique (sound_run hw hr) hheld hheld'
  · rintro s' h ⟨r, hrow, hstatus⟩
    refine (closed_run hw hr ⟨r, hrow, ?_⟩ h).2
    rcases hstatus with hs | hs | hs | hs <;> rw [hs] <;> rfl
  · intro s' i h hreported
    exact (closed_run hw hr (hreported.row hr) h).2

/-- The worker dies waiting for WhatsApp's answer, its claim is reaped, and another dispatch is about
to send the message again: it holds the claim. -/
theorem no_double_send_reaped :
    let before := Sample.run .RETRY (Sample.reaping true)
    let reaped := before.after [.advance 2 .nothing]
    let s := reaped.after Sample.resending
    before.Crashed 0 ∧ reaped.world.row 7 ≠ before.world.row 7 ∧
      SendStep s (.advance 3 .nothing) 7 3 ∧ Holds (phases s) s.world 3 7 := by
  intro before reaped s
  have hdead : before.Crashed 0 := ⟨_, rfl⟩
  have hbefore : Run ReapsNothing (System.start (Sample.world .RETRY)) before :=
    unreaped_of_trace (Sample.run_any _ _) (by decide +kernel)
  have hcrashed : ReapsOnlyCrashed before (.advance 2 .nothing) := by
    rintro n - i ⟨p, t, r, hd, htoken, -⟩
    match i with
    | 0 => exact hdead
    | 1 =>
      cases hd
      cases htoken
    | 2 => cases hd
    | i + 3 => cases hd
  have hreaped : Run ReapsOnlyCrashed (System.start (Sample.world .RETRY)) reaped :=
    (hbefore.mono fun _ _ => ReapsNothing.onlyCrashed).tail hcrashed rfl
  have hresending : Run (fun s l => releasesNothing s l = true) reaped s :=
    Run.of_checksEach (by decide +kernel)
  have hrun : Run ReapsOnlyCrashed (System.start (Sample.world .RETRY)) s :=
    hreaped.trans (hresending.mono fun _ _ h => (ReapsNothing.of_check h).onlyCrashed)
  have hnext : ((s.nextOp 3).any Op.isSendTextMessage && (s.requestOf 3).any (Request.dispatches 7)
      && (s.step (.advance 3 .nothing)).isSome) = true := by decide +kernel
  simp only [Bool.and_eq_true] at hnext
  obtain ⟨s', hs⟩ := Option.isSome_iff_exists.1 hnext.2
  have hsend := sendStep_of_nextOp (disciplined_run hrun) hs hnext.1.1 hnext.1.2
  exact ⟨hdead, by decide +kernel, hsend,
    (no_double_send (Sample.fresh_world .RETRY) hrun).1 _ _ hsend⟩

end Runs

end NotificationPlatform
