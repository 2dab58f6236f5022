import NotificationPlatform.Delivery.Acceptance

/-!
# Runs of the platform

A run starts from a database without notifications. `Sound` holds after every run, and
`sound_induction` is the rule all results about runs are proved by: what one step did is given as
`Stepped`, with `Sound` on both sides of it.
-/

namespace NotificationPlatform

open Interleaving

/-- No notification was created yet. -/
structure Fresh (w : World) : Prop where
  notifications : ∀ n, w.row n = none
  sendAttempts : w.sendAttempts = []

structure Sound (ph : Phases) (w : World) : Prop where
  tokens : Tokens ph w
  ledgers : Ledgers ph w
  accepted : Accepted ph w

section Runs

variable {configuration : Configuration} {P : System (platform configuration) →
  Label (platform configuration) → Prop} {w : World} {s s' : System (platform configuration)}
  {l : Label (platform configuration)}

/-- How far every call has come. -/
abbrev phases (s : System (platform configuration)) : Phases :=
  (deliveryDiscipline configuration).phase s

/-- What a step did to phases, world and trace. -/
abbrev Stepped (s s' : System (platform configuration)) (l : Label (platform configuration)) :
    Prop :=
  (deliveryDiscipline configuration).Stepped s s' l

theorem disciplined_run (h : Run P (System.start w) s) :
    (deliveryDiscipline configuration).Disciplined s := Discipline.disciplined_run h

theorem sound_run (hw : Fresh w) (h : Run P (System.start w) s) : Sound (phases s) s.world :=
  Discipline.run_invariant (D := deliveryDiscipline configuration) Sound
    ⟨tokens_start hw.notifications, ledgers_start hw.notifications hw.sendAttempts,
      accepted_start hw.notifications⟩
    (fun request hi hq => ⟨hi.tokens.spawn request hq, hi.ledgers.spawn request hq,
      hi.accepted.spawn request hq⟩)
    (fun hi hq ho _ he => ⟨hi.tokens.advance hq ho he, hi.ledgers.advance hi.tokens hq ho he,
      hi.accepted.advance hi.tokens hi.ledgers hq ho he⟩)
    (fun hi he => ⟨hi.tokens.outside he, hi.ledgers.outside he, hi.accepted.outside he⟩) h

/-- The rule for results about runs. What holds in a state that some run reaches, and is kept by
every permitted step, holds after every further run. -/
theorem sound_induction {Q : System (platform configuration) → Label (platform configuration) → Prop}
    (Inv : System (platform configuration) → Prop) (hw : Fresh w) (hr : Run P (System.start w) s)
    (h0 : Inv s)
    (hstep : ∀ {s₁ l s₂}, Run Any (System.start w) s₁ → s₁.step l = some s₂ →
      Sound (phases s₁) s₁.world → Inv s₁ → Q s₁ l → Stepped s₁ s₂ l → Inv s₂)
    (h : Run Q s s') : Inv s' := by
  induction h with
  | refl => exact h0
  | tail hq hp hs ih =>
    have hany := hr.any.trans hq.any
    exact hstep hany hs (sound_run hw hany) ih hp ((disciplined_run hany).stepped hs)

/-- After any step a dispatch is where it was, or one move on. -/
theorem continues_step (h : Stepped s s' l) {i : Nat} {p : Progress}
    (hd : Dispatching (phases s) i p) : ∃ p', Dispatching (phases s') i p' ∧
      (p' = p ∨ ∃ o r choice, Move p o r p' ∧ exec s.world o choice = some (r, s'.world)) := by
  unfold phases
  cases h with
  | @spawned j request fresh phases' =>
    have hij : i ≠ j := by
      rintro rfl
      exact absurd (fresh.symm.trans hd) nofun
    rw [phases']
    exact ⟨p, (dispatching_other hij).2 hd, .inl rfl⟩
  | crashed phases' | outside phases' =>
    rw [phases']
    exact ⟨p, hd, .inl rfl⟩
  | @advanced j choice o r q phases' crashed live step =>
    rw [phases']
    obtain ⟨p', hd', ⟨-, rfl⟩ | ⟨-, hm⟩⟩ := hd.continues (r := r) step.before step.allowed
    · exact ⟨p', hd', .inl rfl⟩
    · exact ⟨p', hd', .inr ⟨o, r, choice, hm, step.exec⟩⟩

/-! ## Dispatches and their requests -/

def Request.dispatches (n : Uuid) : Request → Bool
  | .dispatch input => input.notificationId = n
  | _ => false

theorem advance_input (p : Progress) (o : Op) (r : o.Ret) : (p.advance o r).input = p.input := by
  unfold Progress.advance
  split <;> rfl

theorem after_dispatching (p : Progress) (older : List (Performed operations)) :
    ∃ p', deliveryTypestate.after (.dispatching p) older = .dispatching p' ∧ p'.input = p.input := by
  induction older with
  | nil => exact ⟨p, rfl, rfl⟩
  | cons e older ih =>
    obtain ⟨p', hp', hi⟩ := ih
    refine ⟨p'.advance e.op e.ret, ?_, (advance_input p' e.op e.ret).trans hi⟩
    simp only [Typestate.after, hp']
    rfl

theorem after_serving (request : Request) (cancelled : List Uuid)
    (older : List (Performed operations)) :
    ∃ cancelled', deliveryTypestate.after (.serving request cancelled) older =
      .serving request cancelled' := by
  induction older with
  | nil => exact ⟨cancelled, rfl⟩
  | cons e older ih =>
    obtain ⟨cancelled', hc⟩ := ih
    obtain ⟨cancelled'', hc'⟩ := serving_advance request cancelled' e.op e.ret
    refine ⟨cancelled'', ?_⟩
    simp only [Typestate.after, hc]
    exact hc'

/-- The dispatches of a notification are the calls of `dispatch` with its identifier. -/
theorem dispatches_iff {i : Nat} {n : Uuid} :
    (s.requestOf i).any (Request.dispatches n) = true ↔
      ∃ p, Dispatching (phases s) i p ∧ p.input.notificationId = n := by
  simp only [System.requestOf, Dispatching, phases, Discipline.phase]
  cases s.threads i with
  | none => simp
  | some t =>
    simp only [Option.map_some, Option.any_some, Option.some.injEq]
    cases hreq : t.request with
    | dispatch input =>
      obtain ⟨p, hp, hi⟩ := after_dispatching { input } (s.history i)
      change decide (input.notificationId = n) = true ↔ ∃ p', deliveryTypestate.after
        (.dispatching { input }) (s.history i) = .dispatching p' ∧ _
      simp only [hp, DeliveryPhase.dispatching.injEq, exists_eq_left', hi, decide_eq_true_eq]
    | _ =>
      refine ⟨by simp [Request.dispatches], ?_⟩
      rintro ⟨p, hp, -⟩
      obtain ⟨cancelled, hc⟩ := after_serving t.request [] (s.history i)
      rw [hreq] at hc
      cases hc.symm.trans hp

/-! ## Sends -/

def Op.isSendTextMessage : Op → Bool
  | .sendTextMessage _ _ _ => true
  | _ => false

/-- The calls of `sendTextMessage` made for a notification, most recent first. -/
def sends (s : System (platform configuration)) (n : Uuid) : List (Performed operations) :=
  s.trace.filter fun e =>
    e.op.isSendTextMessage && (s.requestOf e.thread).any (Request.dispatches n)

theorem sends_of_trace {n : Uuid} (hq : Discipline.Quiet s) (hs : s.step l = some s')
    (ht : s'.trace = s.trace) : sends s' n = sends s n := by
  unfold sends
  rw [ht]
  refine List.filter_congr fun e he => ?_
  obtain ⟨request, hrequest⟩ := hq.requestOf he
  rw [hrequest, System.requestOf_step hs hrequest]

theorem sends_of_advanced {n : Uuid} {i : Nat} {choice : Choice} {o : Op} {r : o.Ret}
    {q : DeliveryPhase} (hq : Discipline.Quiet s) (hs : s.step l = some s')
    (h : (deliveryDiscipline configuration).Advanced s s' i choice o r q) :
    sends s' n = if o.isSendTextMessage = true ∧ (s.requestOf i).any (Request.dispatches n) = true
      then ⟨i, o, r⟩ :: sends s n else sends s n := by
  have hrest : s.trace.filter (fun e => e.op.isSendTextMessage &&
      (s'.requestOf e.thread).any (Request.dispatches n)) = sends s n := by
    refine List.filter_congr fun e he => ?_
    obtain ⟨request, hrequest⟩ := hq.requestOf he
    rw [hrequest, System.requestOf_step hs hrequest]
  unfold sends at hrest ⊢
  rw [h.trace, List.filter_cons, h.request, hrest]
  simp only [Bool.and_eq_true]

/-- The step is a send of notification `n` by thread `i`. -/
def SendStep (s : System (platform configuration)) (l : Label (platform configuration)) (n : Uuid)
    (i : Nat) : Prop :=
  ∃ s' e, s.step l = some s' ∧ sends s' n = e :: sends s n ∧ e.thread = i

/-- A dispatch of the notification that performs a send next sends. -/
theorem sendStep_of_nextOp {n : Uuid} {i : Nat} {choice : Choice}
    (hd : (deliveryDiscipline configuration).Disciplined s)
    (hs : s.step (.advance i choice) = some s')
    (hnext : (s.nextOp i).any Op.isSendTextMessage = true)
    (hi : (s.requestOf i).any (Request.dispatches n) = true) :
    SendStep s (.advance i choice) n i := by
  obtain ⟨o, r, q, step⟩ := hd.advanced hs
  rw [step.nextOp, Option.any_some] at hnext
  exact ⟨s', ⟨i, o, r⟩, hs, (sends_of_advanced hd.quiet hs step).trans (if_pos ⟨hnext, hi⟩), rfl⟩

/-- A send is made by a dispatch that began an attempt within the budget. -/
theorem SendStep.dispatching {n : Uuid} {i : Nat} (h : SendStep s l n i)
    (hd : (deliveryDiscipline configuration).Disciplined s) :
    ∃ p, Dispatching (phases s) i p ∧ p.input.notificationId = n ∧ p.stage = .begun ∧
      p.attempt.isSome = true ∧ ¬ p.Exhausted ∧ ¬ s.Crashed i := by
  obtain ⟨s', e, hs, hsends, rfl⟩ := h
  have hne : sends s' n ≠ sends s n := by
    rw [hsends]
    exact List.cons_ne_self e _
  cases hd.stepped hs with
  | spawned _ _ _ _ trace | crashed _ _ _ trace | outside _ _ _ trace =>
    exact absurd (sends_of_trace hd.quiet hs trace) hne
  | @advanced j choice o r q phases' crashed live step =>
    rw [sends_of_advanced hd.quiet hs step] at hsends hne
    split at hsends
    · rename_i hsend
      cases hsends
      obtain ⟨p, hp, hpn⟩ := dispatches_iff.1 hsend.2
      have hq := Option.some.inj (step.before.symm.trans hp)
      subst hq
      have ho := step.allowed
      have hop := hsend.1
      cases o <;> simp only [Op.isSendTextMessage, Bool.false_eq_true] at hop
      exact ⟨p, hp, hpn, ho.1, ho.2.1, ho.2.2, live⟩
    · rename_i hsend
      exact absurd (if_neg hsend) hne

/-- A step is a send, or makes none. -/
theorem sends_step {n : Uuid} (hd : (deliveryDiscipline configuration).Disciplined s)
    (hs : s.step l = some s') : sends s' n = sends s n ∨ ∃ i, SendStep s l n i := by
  cases hd.stepped hs with
  | spawned _ _ _ _ trace | crashed _ _ _ trace | outside _ _ _ trace =>
    exact .inl (sends_of_trace hd.quiet hs trace)
  | @advanced i choice o r q phases' crashed live step =>
    have hsends := sends_of_advanced (n := n) hd.quiet hs step
    split at hsends
    · exact .inr ⟨i, s', _, hs, hsends, rfl⟩
    · exact .inl hsends

theorem Move.sent_persists {p p' : Progress} {o : Op} {r : o.Ret} (h : Move p o r p')
    (hs : p.sent = true) : p'.sent = true := by
  cases h with
  | sent => rfl
  | _ => exact hs

/-- Each dispatch sends at most once, and its progress says so. -/
structure SendsOnce (s : System (platform configuration)) : Prop where
  nodup : ∀ n, ((sends s n).map (·.thread)).Nodup
  sent : ∀ {n e}, e ∈ sends s n →
    ∃ p, Dispatching (phases s) e.thread p ∧ p.input.notificationId = n ∧ p.sent = true

theorem SendsOnce.step (h : SendsOnce s) (hsound : Sound (phases s) s.world)
    (hd : (deliveryDiscipline configuration).Disciplined s) (hs : s.step l = some s') :
    SendsOnce s' := by
  have hquiet : (∀ n, sends s' n = sends s n) → (∀ {i p}, Dispatching (phases s) i p →
      ∃ p', Dispatching (phases s') i p' ∧ p'.input = p.input ∧
        (p.sent = true → p'.sent = true)) → SendsOnce s' := by
    intro hsends hkeep
    refine ⟨fun n => hsends n ▸ h.nodup n, fun {n e} he => ?_⟩
    obtain ⟨p, hp, hn, hsent⟩ := h.sent (hsends n ▸ he)
    obtain ⟨p', hp', hi, hsent'⟩ := hkeep hp
    exact ⟨p', hp', hi ▸ hn, hsent' hsent⟩
  cases hd.stepped hs with
  | @spawned i request fresh phases' crashed world trace =>
    refine hquiet (fun n => sends_of_trace hd.quiet hs trace) fun {j p} hp => ⟨p, ?_, rfl, id⟩
    have hji : j ≠ i := by
      rintro rfl
      exact absurd (fresh.symm.trans hp) nofun
    unfold phases
    rw [phases']
    exact (dispatching_other hji).2 hp
  | crashed phases' crashed world trace | outside phases' crashed world trace =>
    refine hquiet (fun n => sends_of_trace hd.quiet hs trace) fun {j p} hp => ⟨p, ?_, rfl, id⟩
    unfold phases
    rw [phases']
    exact hp
  | @advanced i choice o r q phases' crashed live step =>
    have hkeep : ∀ {j p}, Dispatching (phases s) j p → ∃ p', Dispatching (phases s') j p' ∧
        p'.input = p.input ∧ (p.sent = true → p'.sent = true) := by
      intro j p hp
      unfold phases
      rw [phases']
      obtain ⟨p', hp', ⟨-, rfl⟩ | ⟨-, hm⟩⟩ := hp.continues step.before step.allowed
      · exact ⟨p', hp', rfl, id⟩
      · exact ⟨p', hp', hm.input, hm.sent_persists⟩
    by_cases hsend : o.isSendTextMessage = true
    · refine ⟨fun n => ?_, fun {n e} he => ?_⟩
      · rw [sends_of_advanced hd.quiet hs step]
        split
        · rename_i hn
          refine List.nodup_cons.2 ⟨fun hmem => ?_, h.nodup n⟩
          obtain ⟨e, he, hei⟩ := List.mem_map.1 hmem
          obtain ⟨p, hp, -, hsent⟩ := h.sent he
          change e.thread = i at hei
          rw [hei] at hp
          have hp' : q = .dispatching p := Option.some.inj (step.before.symm.trans hp)
          subst hp'
          cases o <;> simp only [Op.isSendTextMessage, Bool.false_eq_true] at hsend
          have hrank := ((hsound.tokens.wellFormed hp).sent hsent).1
          rw [step.allowed.1] at hrank
          exact absurd hrank (by decide)
        · exact h.nodup n
      · rw [sends_of_advanced hd.quiet hs step] at he
        split at he
        · rename_i hn
          rcases List.mem_cons.1 he with rfl | he
          · obtain ⟨p, hp, hpn⟩ := dispatches_iff.1 hn.2
            have hq : q = .dispatching p := Option.some.inj (step.before.symm.trans hp)
            subst hq
            cases o <;> simp only [Op.isSendTextMessage, Bool.false_eq_true] at hsend
            refine ⟨{ p with stage := .awaiting, sent := true }, ?_, hpn, rfl⟩
            unfold phases
            rw [phases']
            exact dispatching_self.2 rfl
          · obtain ⟨p, hp, hpn, hsent⟩ := h.sent he
            obtain ⟨p', hp', hi, hsent'⟩ := hkeep hp
            exact ⟨p', hp', hi ▸ hpn, hsent' hsent⟩
        · obtain ⟨p, hp, hpn, hsent⟩ := h.sent he
          obtain ⟨p', hp', hi, hsent'⟩ := hkeep hp
          exact ⟨p', hp', hi ▸ hpn, hsent' hsent⟩
    · refine hquiet (fun n => ?_) hkeep
      rw [sends_of_advanced hd.quiet hs step, if_neg fun hn => hsend hn.1]

theorem sendsOnce_run (hw : Fresh w) (h : Run P (System.start w) s) : SendsOnce s := by
  induction h with
  | refl => exact ⟨fun _ => List.nodup_nil, fun he => absurd he List.not_mem_nil⟩
  | tail hr _ hs ih => exact ih.step (sound_run hw hr) (disciplined_run hr) hs

end Runs

/-! ## A small platform

One application with one connection, on which concrete runs are shown. -/

namespace Sample

def configuration : Configuration where
  maximumLifetimeHours := 24
  maximumConnectionWaitMinutes := 30
  stuckClaimTimeoutSeconds := 300
  restrictionFallbackPauseHours := 6
  simulateTyping := false

def session : WhatsAppSessionRecord where
  id := 2
  applicationId := 1
  providerSessionName := "main"
  status := .WORKING
  phoneNumber := none
  pushName := none
  sendPacingMinimumSeconds := 0
  sendPacingMaximumSeconds := 0
  nextSendAllowedAt := 0
  sendingPausedUntil := none
  sendingPausedReason := none
  accountLimits := none
  accountLimitsCheckedAt := some 0
  lastStatusAt := 0
  lastError := none
  updatedAt := 0

def world (policy : UnknownOutcomePolicy) : World where
  notifications := Relational.Table.empty
  notificationEvents := []
  sendAttempts := []
  whatsAppSessions := ⟨[session], List.nodup_singleton _⟩
  applications := ⟨[⟨1, policy, none⟩], List.nodup_singleton _⟩
  webhookDeliveries := Relational.Table.empty
  dispatchJobs := []
  now := 0
  identifiers := 0

theorem fresh_world (policy : UnknownOutcomePolicy) : Fresh (world policy) := ⟨fun _ => rfl, rfl⟩

/-- Notification 7. -/
def draft : NotificationDraft where
  id := 7
  applicationId := 1
  sessionId := 2
  recipient := "+5511999990000"
  body := "Your order has shipped."
  scheduledAt := none
  maximumAttempts := none
  idempotencyKeyId := none
  correlationId := "order"
  metadata := []

abbrev Step := Label (platform configuration)

/-- The notification is created, and the first `count` threads are started as its dispatches. -/
def dispatching (count : Nat) : List Step :=
  .outside (.created draft) :: (List.range count).map fun i => .spawn i (.dispatch ⟨1, 7, "order"⟩)

/-- Dispatch `i` draws its token and takes the claim. -/
def claims (i : Nat) (now : Date) : List Step :=
  [.advance i .nothing, .advance i (.date now), .advance i .nothing, .advance i .nothing]

/-- Dispatch `i` checks the delivery window and reads the ledger. -/
def reads (i : Nat) (now : Date) : List Step :=
  [.advance i (.date now), .advance i .nothing]

/-- Dispatch `i` finds the connection ready and takes the next slot. -/
def prepares (i : Nat) (now : Date) : List Step :=
  [.advance i .nothing, .advance i (.date now), .advance i .nothing, .advance i (.date now),
    .advance i (.number 0)]

/-- Dispatch `i` resolves the recipient, if it has to, and begins its attempt. -/
def begins (i : Nat) (now : Date) (resolves : Bool) : List Step :=
  (if resolves then [.advance i (.resolved (.succeeded ⟨true, some "5511999990000@c.us"⟩))]
    else []) ++ [.advance i (.flag false), .advance i (.date now), .advance i .nothing]

/-- Dispatch `i` goes all the way to its send. -/
def sends (i : Nat) (now : Date) (resolves : Bool) : List Step :=
  claims i now ++ reads i now ++ prepares i now ++ begins i now resolves ++ [.advance i .nothing]

/-- What dispatch `i` records of notification 7 when message `message` was accepted. -/
def success (token : Uuid) (message : String) : RecordSentInput where
  notification := { draft.row 0 with
    status := .PROCESSING, claimToken := some token, claimedAt := some 0 }
  attemptNumber := 1
  providerMessageId := message
  chatIdentifier := "5511999990000@c.us"
  correlationId := "order"
  now := 0
  resolvedAt := 0

/-- Dispatch `i` learns that its message was accepted. -/
def accepted (i : Nat) (message : String) (now : Date) : List Step :=
  [.advance i (.sent (.succeeded ⟨message⟩)), .advance i (.date now), .advance i (.date now)]

/-- Thread `i` is a maintenance pass that has read the claims to reap. -/
def maintains (i : Nat) (now : Date) : List Step :=
  [.spawn i .runMaintenance, .advance i (.date now), .advance i .nothing]

/-- Dispatch `i` finds an attempt nobody knows the answer of, resolves it and waits for a retry. -/
def retries (i : Nat) (now : Date) : List Step :=
  claims i now ++ reads i now ++ [.advance i .nothing, .advance i (.date now), .advance i .nothing,
    .advance i (.date now), .advance i (.number 0), .advance i .nothing]

/-- Dispatch 0 waits for WhatsApp's answer, alive or not, and a pass is about to reap its claim. -/
def reaping (dies : Bool) : List Step :=
  dispatching 2 ++ sends 0 0 true ++ (if dies then [.crash 0] else []) ++ maintains 2 400000

/-- Dispatch 1 leaves the notification to a retry, and dispatch 3 is about to send it. -/
def resending : List Step :=
  retries 1 400000 ++ [.spawn 3 (.dispatch ⟨1, 7, "order"⟩)] ++ claims 3 500000 ++
    reads 3 500000 ++ prepares 3 500000 ++ begins 3 500000 false

/-- The claim of a dispatch that lives is reaped, and the message is sent once more, accepted and
recorded. -/
def resent : List Step :=
  reaping false ++ [.advance 2 .nothing] ++ resending ++ [.advance 3 .nothing] ++
    accepted 3 "M2" 500000 ++ [.advance 3 .nothing]

/-- The state some labels lead to. -/
def run (policy : UnknownOutcomePolicy) (ls : List Step) : System (platform configuration) :=
  (System.start (world policy)).after ls

theorem run_any (policy : UnknownOutcomePolicy) (ls : List Step) :
    Run Any (System.start (world policy)) (run policy ls) := Run.any_after ls

end Sample

end NotificationPlatform
