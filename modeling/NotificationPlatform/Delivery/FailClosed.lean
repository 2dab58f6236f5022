import NotificationPlatform.Delivery.Closing

/-!
# Failing closed

An application that fails closed wants no second send once the outcome of one is unknown. The code
keeps that by the ledger: an attempt without an outcome is found by whoever claims next, and an
attempt whose outcome is written as `UNKNOWN` belongs to a dispatch that will fail the notification.
Between that write and the failure the notification has only its claim to protect it.
-/

namespace NotificationPlatform

open Interleaving

/-- The dispatch wrote an answer to the ledger that says what became of its send. -/
def Progress.Resolved (p : Progress) : Prop :=
  p.recorded = some .FAILED ∨ p.recorded = some .SUCCEEDED

theorem Progress.FailsClosed.mustFail {p : Progress} (h : p.FailsClosed) : p.MustFail := .inl h

theorem Move.resolved_persists {p p' : Progress} {o : Op} {r : o.Ret} (h : Move p o r p')
    (hp : p.WellFormed) (hr : p.Resolved) : p'.Resolved :=
  hr.imp (h.recorded_persists hp) (h.recorded_persists hp)

/-- The ledger holds attempt `k` of notification `n` without an outcome. -/
def Pending (w : World) (n : Uuid) (k : Nat) : Prop :=
  ∃ a ∈ w.ledger n, a.attemptNumber = k ∧ a.outcome = none

/-- What makes sure that an unknown outcome is not forgotten. -/
structure Careful (ph : Phases) (w : World) (n : Uuid) : Prop where
  policy : ∀ {i p x}, Dispatching ph i p → p.input.notificationId = n → p.policy = some x →
    x = .FAIL_CLOSED
  pending : ∀ {i p k}, Dispatching ph i p → p.input.notificationId = n → p.attempt = some k →
    p.Resolved ∨ Pending w n k ∨ Shut Progress.FailsClosed ph w n
  clear : ∀ {i j p p'}, Dispatching ph i p → p.stage = .clear → Holds ph w i n →
    Dispatching ph j p' → p'.input.notificationId = n → p'.attempt.isSome = true → p'.Resolved
  ordered : ∀ {i j p p' k k'}, Dispatching ph i p → Dispatching ph j p' →
    p.input.notificationId = n → p'.input.notificationId = n → p.attempt = some k →
    p'.attempt = some k' → k < k' → p.Resolved

section Advance

variable {ph : Phases} {w w' : World} {i j : Nat} {n : Uuid} {q : DeliveryPhase} {o : Op}
  {r : o.Ret} {choice : Choice} {p p' : Progress}

/-- A dispatch that held a claim before a step and holds the row after it held the row before. -/
theorem Holds.before (h : Holds (Function.update ph i (some (q.advance o r))) w' j n)
    (hs : Sound ph w) (hi : ph i = some q) (ho : q.Allows o) (he : exec w o choice = some (r, w'))
    (hd : Dispatching ph j p) {c : NotificationRecord} (hc : p.claimed = some c) :
    Holds ph w j n := by
  obtain ⟨p₁, t, new, hd₁, ht, hnew, -, htoken⟩ := h
  obtain ⟨p', hd', -, ht', -⟩ := hd.persists (r := r) hi ho (hs.tokens.wellFormed hd) hc
  cases hd₁.unique hd'
  have hpt : p.token = some t := ht'.symm.trans ht
  obtain ⟨old, hold, -⟩ := row_before he hnew
  rcases ((exec_effect he n).row_step ho hold hnew).token ho htoken with
    hold_token | ⟨p₀, rfl, stage, hpt₀, -⟩
  · exact ⟨p, t, old, hd, hpt, hold,
      (hs.tokens.processing hold).2 (by rw [hold_token]; rfl), hold_token⟩
  · obtain rfl := hs.tokens.distinct hd hi hpt hpt₀
    cases hd.unique hi
    have hrank := ((hs.tokens.wellFormed hd).claimed (by rw [hc]; rfl)).2
    rw [stage] at hrank
    exact absurd hrank (by decide)

/-- The holder is a dispatch of the notification. -/
theorem Holds.names (h : Holds ph w j n) (hs : Sound ph w) (hd : Dispatching ph j p) :
    p.input.notificationId = n := by
  obtain ⟨p₀, t, row, hd₀, ht, hrow, -, htoken⟩ := h
  cases hd₀.unique hd
  obtain ⟨k, pk, c, hk, hkt, hkc, hc⟩ := hs.tokens.holder hrow htoken
  obtain rfl := hs.tokens.distinct hd hk ht hkt
  cases hd.unique hk
  rw [← hs.ledgers.named hk hkc, hc]

/-- What a dispatch reads as its policy is that of the application. -/
theorem policy_read {a : Uuid} {settings : Option ApplicationRecord}
    (he : exec w (.findDeliverySettings a) choice = some (settings, w')) :
    settings = (w.applications.find? a).filter (·.archivedAt.isNone) := by
  obtain ⟨-, h⟩ := Choice.quietly_eq_some.1 he
  simp only [ApplicationRepository.findDeliverySettings, Option.some.injEq, Prod.mk.injEq] at h
  exact h.1.symm

/-- Where no unresolved attempt is found, there is none. -/
theorem none_pending {a : Uuid}
    (he : exec w (.findUnresolved a n) choice = some (none, w')) {b : SendAttemptRecord}
    (hb : b ∈ w.ledger n) (ha : b.applicationId = a) : b.outcome ≠ none := by
  obtain ⟨-, h⟩ := Choice.quietly_eq_some.1 he
  simp only [NotificationSendAttemptRepository.findUnresolved, Option.some.injEq,
    Prod.mk.injEq] at h
  intro hout
  have hmem : b ∈ w.sendAttempts.filter fun b => b.notificationId = n ∧ b.applicationId = a ∧
      b.outcome = none := by
    obtain ⟨hb, hn⟩ := List.mem_filter.1 hb
    exact List.mem_filter.2 ⟨hb, by simp_all⟩
  have hempty := List.head?_eq_none_iff.1 h.1
  have hperm := List.perm_insertionSort (fun a b : SendAttemptRecord =>
    a.attemptNumber ≤ b.attemptNumber) (w.sendAttempts.filter fun b =>
      b.notificationId = n ∧ b.applicationId = a ∧ b.outcome = none)
  exact absurd (hempty ▸ hperm.mem_iff.2 hmem) List.not_mem_nil

/-- What becomes of an attempt without an outcome. -/
inductive PendingStep (n : Uuid) (k : Nat) (w' : World) : (o : Op) → o.Ret → Prop where
  | kept {o : Op} {r : o.Ret} (still : Pending w' n k) : PendingStep n k w' o r
  | resolved {input : ResolveSendAttemptInput} (names : input.notificationId = n)
      (number : input.attemptNumber = k) : PendingStep n k w' (.resolveAttempt input) ()
  | sent {input : RecordSentInput} (names : input.notification.id = n)
      (number : input.attemptNumber = k) : PendingStep n k w' (.recordSent input) true

theorem Pending.step {k : Nat} (h : Pending w n k) (he : exec w o choice = some (r, w')) :
    PendingStep n k w' o r := by
  obtain ⟨a, ha, hk, hout⟩ := h
  cases exec_effect he n with
  | kept _ ledger | promoted _ _ _ ledger | claimed _ _ _ _ _ ledger | deferred _ _ ledger
  | transitioned _ _ ledger | released _ _ ledger | cancelled _ _ ledger
  | cancelledWaiting _ _ _ ledger | acknowledged _ _ ledger =>
    exact .kept ⟨a, ledger ▸ ha, hk, hout⟩
  | begun _ _ _ _ _ _ _ ledger =>
    exact .kept ⟨a, by rw [ledger]; exact List.mem_append_left _ ha, hk, hout⟩
  | @sent input _ names _ ledger =>
    cases hc : input.resolution.concerns a with
    | false =>
      exact .kept ⟨a, by rw [ledger, ← apply_of_not_concerns hc]; exact List.mem_map_of_mem ha,
        hk, hout⟩
    | true =>
      have hnumber := (concerns_number hc).1
      rw [(sameAttempt_apply _ _).attemptNumber] at hnumber
      exact .sent names (hnumber.symm.trans hk)
  | @resolved input names _ ledger =>
    cases hc : input.concerns a with
    | false =>
      exact .kept ⟨a, by rw [ledger, ← apply_of_not_concerns hc]; exact List.mem_map_of_mem ha,
        hk, hout⟩
    | true =>
      have hnumber := (concerns_number hc).1
      rw [(sameAttempt_apply _ _).attemptNumber] at hnumber
      exact .resolved names (hnumber.symm.trans hk)

/-- A dispatch with an attempt had it before the step, or has just begun it as the holder. -/
theorem Careful.attempt (h : Careful ph w n) (hs : Sound ph w) (hi : ph i = some q)
    (ho : q.Allows o) (he : exec w o choice = some (r, w'))
    (hd : Dispatching (Function.update ph i (some (q.advance o r))) j p')
    (hn : p'.input.notificationId = n) {k : Nat} (hk : p'.attempt = some k) :
    (∃ p, Dispatching ph j p ∧ p.input.notificationId = n ∧ p.attempt = some k ∧
      (p.Resolved → p'.Resolved)) ∨
    (j = i ∧ Holds ph w i n ∧ Pending w' n k ∧ (∀ {i' p}, Dispatching ph i' p → p.input.notificationId = n →
      p.attempt.isSome = true → p.Resolved ∧ i' ≠ i ∧ ∀ k', p.attempt = some k' → k' < k)) := by
  rcases dispatching_advance hi ho hd with ⟨-, hold⟩ | ⟨rfl, p, hold, hm⟩
  · exact .inl ⟨p', hold, hn, hk, id⟩
  · have hwf := hs.tokens.wellFormed hold
    have hpn : p.input.notificationId = n := hm.input ▸ hn
    by_cases hbefore : p.attempt = some k
    · exact .inl ⟨p, hold, hpn, hbefore, hm.resolved_persists hwf⟩
    · right
      cases hm with
      | @begun input c k' stage token claimed application names =>
        cases hk
        have hin : input.notificationId = n :=
          names.trans ((hs.ledgers.named hold claimed).trans hpn)
        subst hin
        obtain ⟨old, new, id, before, htoken, hstatus, hcount, -, -, -, -, hledger⟩ :=
          (exec_effect he input.notificationId).begun_of_names
        have hheld : Holds ph w j input.notificationId :=
          ⟨p, _, old, hold, token, before, hstatus, htoken⟩
        have hmem : input.attempt k id ∈ w'.ledger input.notificationId := by
          rw [hledger]
          exact List.mem_append_right _ List.mem_cons_self
        refine ⟨rfl, hheld, ⟨_, hmem, rfl, rfl⟩, fun {i' p₁} hd₁ hn₁ hk₁ => ⟨?_, ?_, ?_⟩⟩
        · exact h.clear hold stage hheld hd₁ hn₁ hk₁
        · rintro rfl
          cases hold.unique hd₁
          have hrank := (hwf.attempt hk₁).1
          rw [stage] at hrank
          exact absurd hrank (by decide)
        · intro k₁ hk₁
          obtain ⟨row, hrow, -, hle⟩ := hs.ledgers.begun hd₁ hk₁
          rw [hn₁] at hrow
          cases before.symm.trans hrow
          omega
      | _ => exact absurd hk hbefore

/-- Writing `UNKNOWN` shuts the notification, for an application that fails closed. -/
theorem Careful.shuts {input : ResolveSendAttemptInput} (h : Careful ph w n) (hs : Sound ph w)
    (hi : ph i = some (.dispatching p)) (ho : p.Allows (.resolveAttempt input))
    (he : exec w (.resolveAttempt input) choice = some ((), w'))
    (hn : p.input.notificationId = n) (hpolicy : p.policy.isSome = true)
    (hcase : p.found.isSome = true ∨ (p.stage = .answered ∧ input.outcome = .UNKNOWN))
    (hheld : Holds ph w i n ∨ Closed w n) :
    Shut Progress.FailsClosed (Function.update ph i
      (some ((DeliveryPhase.dispatching p).advance (.resolveAttempt input) ()))) w' n := by
  obtain ⟨x, hx⟩ := Option.isSome_iff_exists.1 hpolicy
  refine shut_of_settles (q := .dispatching p) hs hi ho he id (dispatching_self.2 rfl) hn rfl
    ⟨?_, hx.trans (congrArg some (h.policy hi hn hx))⟩ hheld.symm
  rcases hcase with hfound | ⟨stage, hout⟩
  · exact .inl hfound
  · right
    change (p.settle input.outcome).recorded = _
    simp only [Progress.settle, stage, if_true, hout]

theorem Careful.pending_advance (h : Careful ph w n) (hs : Sound ph w) (hi : ph i = some q)
    (ho : q.Allows o) (he : exec w o choice = some (r, w'))
    (hsettles : ∀ input, o = .resolveAttempt input → input.notificationId = n →
      input.outcome = .UNKNOWN → Pending w n input.attemptNumber → Holds ph w i n ∨ Closed w n)
    (hq : (∃ i, Bound Progress.FailsClosed ph w i n) → ¬ Requeues n o r)
    (hd : Dispatching (Function.update ph i (some (q.advance o r))) j p')
    (hn : p'.input.notificationId = n) {k : Nat} (hk : p'.attempt = some k) :
    p'.Resolved ∨ Pending w' n k ∨
      Shut Progress.FailsClosed (Function.update ph i (some (q.advance o r))) w' n := by
  rcases h.attempt hs hi ho he hd hn hk with ⟨p, hold, hpn, hpk, hres⟩ | ⟨-, -, hpending, -⟩
  · rcases h.pending hold hpn hpk with hp | hpending | hshut
    · exact .inl (hres hp)
    · cases hpending.step he with
      | kept still => exact .inr (.inl still)
      | @resolved input names number =>
        obtain ⟨pm, rfl, hclaims, hmay⟩ := dispatching_of_allows rfl ho
        obtain ⟨c, hc, -, hcn⟩ := id hclaims
        have hpm : pm.input.notificationId = n := by
          rw [← hs.ledgers.named hi hc, ← hcn, names]
        have hpend : Pending w n input.attemptNumber := number.symm ▸ hpending
        rcases id hmay with ⟨stage, hfound, hout, hpol⟩ | ⟨stage, hown, failure, ha, hcase⟩
        · exact .inr (.inr (h.shuts hs hi ⟨hclaims, hmay⟩ he hpm hpol
            (.inl (by rw [hfound]; rfl)) (hsettles input rfl names hout hpend)))
        · rcases hcase with ⟨-, hout, hpol⟩ | ⟨-, hout⟩
          · exact .inr (.inr (h.shuts hs hi ⟨hclaims, hmay⟩ he hpm hpol (.inr ⟨stage, hout⟩)
              (hsettles input rfl names hout hpend)))
          · left
            rw [hs.ledgers.own hi ho hown hd (hn.trans hpm.symm) (number.symm ▸ hk)]
            left
            simp only [Progress.advance, Progress.settle, stage, if_true, hout]
      | @sent input names number =>
        obtain ⟨pm, rfl, -, hc, hown, -⟩ := dispatching_of_allows rfl ho
        have hpm : pm.input.notificationId = n := by
          rw [← hs.ledgers.named hi hc, names]
        rw [hs.ledgers.own hi ho hown hd (hn.trans hpm.symm) (number.symm ▸ hk)]
        exact .inl (.inr rfl)
    · exact .inr (.inr (hshut.advance (fun _ => Progress.FailsClosed.mustFail) hs hi ho he hq))
  · exact .inr (.inl hpending)

theorem Careful.clear_advance (h : Careful ph w n) (hs : Sound ph w) (hi : ph i = some q)
    (ho : q.Allows o) (he : exec w o choice = some (r, w')) {j₂ : Nat} {p₁ p₂ : Progress}
    (hd₁ : Dispatching (Function.update ph i (some (q.advance o r))) j p₁)
    (stage : p₁.stage = .clear)
    (hheld : Holds (Function.update ph i (some (q.advance o r))) w' j n)
    (hd₂ : Dispatching (Function.update ph i (some (q.advance o r))) j₂ p₂)
    (hn : p₂.input.notificationId = n) (hk : p₂.attempt.isSome = true) : p₂.Resolved := by
  have hne : j₂ ≠ j := by
    rintro rfl
    cases hd₁.unique hd₂
    have hrank := (((hs.tokens.advance hi ho he).wellFormed hd₁).attempt hk).1
    rw [stage] at hrank
    exact absurd hrank (by decide)
  obtain ⟨k, hk⟩ := Option.isSome_iff_exists.1 hk
  have hattempt := h.attempt hs hi ho he hd₂ hn hk
  -- a dispatch that was clear before the step
  have hclear : ∀ {p}, Dispatching ph j p → p.stage = .clear → p₂.Resolved := by
    intro p hold hstage
    obtain ⟨c, hc⟩ := Option.isSome_iff_exists.1
      ((hs.tokens.wellFormed hold).active (by rw [hstage]; rfl))
    have hbefore := hheld.before hs hi ho he hold hc
    rcases hattempt with ⟨p₀, hold₂, hpn, hpk, hres⟩ | ⟨rfl, hholds, -⟩
    · exact hres (h.clear hold hstage hbefore hold₂ hpn (by rw [hpk]; rfl))
    · exact absurd (Holds.unique hs hholds hbefore) hne
  rcases dispatching_advance hi ho hd₁ with ⟨-, hold⟩ | ⟨rfl, p, hold, hm⟩
  · exact hclear hold stage
  · cases hm with
    | connection => exact hclear hold stage
    | @clear c stage' claimed =>
      have hbefore := hheld.before hs hi ho he hold claimed
      obtain rfl := hbefore.names hs hold
      rcases hattempt with ⟨p₀, hold₂, hpn, hpk, hres⟩ | ⟨rfl, -⟩
      · rcases h.pending hold₂ hpn hpk with hp | ⟨a, ha, -, hout⟩ | hshut
        · exact hres hp
        · obtain ⟨row, hrow, hkept⟩ := hs.ledgers.claimed hold claimed
          have hcn := hs.ledgers.named hold claimed
          rw [← hcn] at ha
          exact absurd hout (none_pending he ha ((hs.ledgers.tenant hrow ha).trans
            hkept.applicationId))
        · exact absurd (stage'.symm.trans (hshut.bound hs hbefore hold)) nofun
      · exact absurd rfl hne
    | policy stage' =>
      rcases stage' with stage' | stage' <;> exact absurd (stage.symm.trans stage') nofun
    | promoting stage' | recording stage' | explaining stage' =>
      exact absurd (stage.symm.trans stage') nofun
    | _ => exact absurd stage nofun

theorem Careful.advance (h : Careful ph w n) (hs : Sound ph w) (hi : ph i = some q)
    (ho : q.Allows o) (he : exec w o choice = some (r, w'))
    (hsettles : ∀ input, o = .resolveAttempt input → input.notificationId = n →
      input.outcome = .UNKNOWN → Pending w n input.attemptNumber → Holds ph w i n ∨ Closed w n)
    (hpolicy : ∀ a p, o = .findDeliverySettings a → Dispatching ph i p →
      p.input.notificationId = n → ∃ x, w.applications.find? a = some x ∧
        x.unknownOutcomePolicy = .FAIL_CLOSED ∧ x.archivedAt = none)
    (hq : (∃ i, Bound Progress.FailsClosed ph w i n) → ¬ Requeues n o r) :
    Careful (Function.update ph i (some (q.advance o r))) w' n where
  policy := by
    intro j p' x hd hn hx
    rcases dispatching_advance hi ho hd with ⟨-, hold⟩ | ⟨rfl, p, hold, hm⟩
    · exact h.policy hold hn hx
    · cases hm with
      | @policy c settings stage claimed =>
        obtain ⟨a, ha, hclosed, harchived⟩ := hpolicy _ p rfl hold hn
        have hread := policy_read he
        rw [ha, Option.filter_some, if_pos (by rw [harchived]; rfl)] at hread
        subst hread
        cases hx
        exact hclosed
      | _ => exact h.policy hold hn hx
  pending := fun hd hn hk => h.pending_advance hs hi ho he hsettles hq hd hn hk
  clear := fun hd stage hheld hd' hn hk => h.clear_advance hs hi ho he hd stage hheld hd' hn hk
  ordered := by
    intro j j' p p' k k' hd hd' hn hn' hk hk' hlt
    rcases h.attempt hs hi ho he hd hn hk with ⟨p₀, hold, hpn, hpk, hres⟩ | ⟨rfl, -, -, hall⟩ <;>
      rcases h.attempt hs hi ho he hd' hn' hk' with ⟨p₁, hold', hpn', hpk', -⟩ | ⟨hj', -, -, hall'⟩
    · exact hres (h.ordered hold hold' hpn hpn' hpk hpk' hlt)
    · exact hres (hall' hold hpn (by rw [hpk]; rfl)).1
    · have hle := (hall hold' hpn' (by rw [hpk']; rfl)).2.2 k' hpk'
      omega
    · subst hj'
      cases hd.unique hd'
      cases hk.symm.trans hk'
      exact absurd hlt (Nat.lt_irrefl _)

end Advance

section Runs

variable {configuration : Configuration} {P : System (platform configuration) →
  Label (platform configuration) → Prop} {w : World} {s s' : System (platform configuration)}
  {l : Label (platform configuration)} {n : Uuid} {i : Nat}

/-- The application of notification `n` fails closed. -/
def failsClosed (n : Uuid) (s : System (platform configuration)) : Bool :=
  (s.world.row n).all fun r => (s.world.applications.find? r.applicationId).any
    fun a => a.unknownOutcomePolicy = .FAIL_CLOSED

/-- What keeps an unknown outcome of notification `n` from being sent again. -/
structure UnknownGuard (n : Uuid) (s : System (platform configuration))
    (l : Label (platform configuration)) : Prop where
  /-- Who gives an attempt its first outcome as `UNKNOWN` holds the claim, or the notification is
  closed. -/
  settles : ∀ i input s', s.Performs l ⟨i, .resolveAttempt input, ()⟩ s' →
    input.notificationId = n → input.outcome = .UNKNOWN →
    Pending s.world n input.attemptNumber → Holds (phases s) s.world i n ∨ Closed s.world n
  /-- The application is not archived when a dispatch of the notification reads its policy. -/
  archived : ∀ i p a settings s', s.Performs l ⟨i, .findDeliverySettings a, settings⟩ s' →
    Dispatching (phases s) i p → p.input.notificationId = n →
    (s.world.applications.find? a).all fun a => a.archivedAt.isNone
  /-- The claim is not taken from a dispatch between the two commits. -/
  undisturbed : Undisturbed Progress.FailsClosed n s l

/-- A send of dispatch `i` for notification `n` was issued, and its outcome is not known. -/
def OutcomeUnknown (s : System (platform configuration)) (n : Uuid) (i : Nat) : Prop :=
  ∃ p, Dispatching (phases s) i p ∧ p.input.notificationId = n ∧ p.sent = true ∧
    ((s.Crashed i ∧ p.recorded = none) ∨
      ∃ failure, p.answer = some (.failed failure) ∧ hasUnknownOutcome failure = true)

theorem Careful.step (h : Careful (phases s) s.world n) (hsound : Sound (phases s) s.world)
    (hs : s.step l = some s') (hstep : Stepped s s' l) (hclosed : failsClosed n s = true)
    (hguard : UnknownGuard n s l) : Careful (phases s') s'.world n := by
  have hshut : Shut Progress.FailsClosed (phases s) s.world n →
      Shut Progress.FailsClosed (phases s') s'.world n := fun hshut =>
    hshut.step (fun _ => Progress.FailsClosed.mustFail) hsound hs hstep hguard.undisturbed
  unfold phases at hshut ⊢
  cases hstep with
  | @spawned m request fresh phases' crashed world =>
    rw [phases', world] at hshut ⊢
    exact {
      policy := fun hd hn hx => by
        rcases dispatching_spawn hd with ⟨-, hold⟩ | ⟨-, input, rfl⟩
        · exact h.policy hold hn hx
        · cases hx
      pending := fun hd hn hk => by
        rcases dispatching_spawn hd with ⟨-, hold⟩ | ⟨-, input, rfl⟩
        · exact (h.pending hold hn hk).imp id (.imp id hshut)
        · cases hk
      clear := fun {i j p p'} hd stage hheld hd' hn hk => by
        rcases dispatching_spawn hd with ⟨hi, hold⟩ | ⟨-, input, rfl⟩
        · rcases dispatching_spawn hd' with ⟨-, hold'⟩ | ⟨-, input, rfl⟩
          · obtain ⟨p₀, t, r, hd₀, hrest⟩ := hheld
            exact h.clear hold stage ⟨p₀, t, r, (dispatching_other hi).1 hd₀, hrest⟩ hold' hn hk
          · cases hk
        · cases stage
      ordered := fun hd hd' hn hn' hk hk' hlt => by
        rcases dispatching_spawn hd with ⟨-, hold⟩ | ⟨-, input, rfl⟩
        · rcases dispatching_spawn hd' with ⟨-, hold'⟩ | ⟨-, input, rfl⟩
          · exact h.ordered hold hold' hn hn' hk hk' hlt
          · cases hk'
        · cases hk }
  | crashed phases' crashed world =>
    rw [phases', world]
    exact h
  | outside phases' crashed world =>
    rw [phases'] at hshut ⊢
    exact {
      policy := h.policy
      pending := fun hd hn hk => by
        refine (h.pending hd hn hk).imp id (.imp ?_ hshut)
        rintro ⟨a, ha, hrest⟩
        exact ⟨a, by rwa [ledger_eq (outside_cases world n).1], hrest⟩
      clear := fun hd stage hheld hd' hn hk => by
        obtain ⟨p₀, t, r, hd₀, ht, hr, hstatus, hrest⟩ := hheld
        rcases row_outside world hr with hr | ⟨-, hs | hs⟩
        · exact h.clear hd stage ⟨p₀, t, r, hd₀, ht, hr, hstatus, hrest⟩ hd' hn hk
        · exact absurd (hstatus.symm.trans hs) nofun
        · exact absurd (hstatus.symm.trans hs) nofun
      ordered := h.ordered }
  | @advanced m choice o r q phases' crashed live step =>
    rw [phases']
    refine h.advance hsound step.before step.allowed step.exec ?_ ?_ ?_
    · rintro input rfl
      exact hguard.settles m input s' ⟨hs, step.trace⟩
    · rintro a p rfl hd hn
      cases step.before.symm.trans hd
      obtain ⟨-, c, hc, rfl⟩ := step.allowed
      obtain ⟨row, hrow, hkept⟩ := hsound.ledgers.claimed hd hc
      rw [hsound.ledgers.named hd hc, hn] at hrow
      have harchived := hguard.archived m p c.applicationId r s' ⟨hs, step.trace⟩ hd hn
      simp only [failsClosed, hrow, Option.all_some, hkept.applicationId] at hclosed
      obtain ⟨x, hx, hp⟩ := (Option.any_eq_true _ _).1 hclosed
      rw [hx] at harchived
      exact ⟨x, hx, by simpa using hp, by simpa using harchived⟩
    · exact fun hbound hrequeues => hguard.undisturbed hbound ⟨m, o, r, s', ⟨hs, step.trace⟩,
        hrequeues⟩

/-- A step of an application that fails closed, guarded. -/
def FailsClosedStep (n : Uuid) (s : System (platform configuration))
    (l : Label (platform configuration)) : Prop :=
  failsClosed n s = true ∧ UnknownGuard n s l

theorem careful_run (hw : Fresh w) (h : Run (FailsClosedStep n) (System.start w) s) :
    Careful (phases s) s.world n := by
  induction h with
  | refl =>
    refine ⟨?_, ?_, ?_, ?_⟩
    · intro i p x hd
      cases hd
    · intro i p k hd
      cases hd
    · intro i j p p' hd
      cases hd
    · intro i j p p' k k' hd
      cases hd
  | tail hr hp hs ih =>
    exact ih.step (sound_run hw hr) hs ((disciplined_run hr).stepped hs) hp.1 hp.2

/-- An unknown outcome stays unknown. -/
theorem OutcomeUnknown.step (h : OutcomeUnknown s n i) (hsound : Sound (phases s) s.world)
    (hstep : Stepped s s' l) : OutcomeUnknown s' n i := by
  obtain ⟨p, hd, hn, hsent, hunknown⟩ := h
  have hcrashed : s.Crashed i → s'.Crashed i := by
    intro hc
    cases hstep with
    | spawned _ _ crashed | outside _ crashed | advanced _ crashed => rwa [crashed]
    | crashed _ crashed => exact (crashed i).2 (.inl hc)
  have hsame : Dispatching (phases s') i p → OutcomeUnknown s' n i := fun hd' =>
    ⟨p, hd', hn, hsent, hunknown.imp (.imp hcrashed id) id⟩
  unfold phases at hsame
  cases hstep with
  | spawned fresh phases' =>
    rw [phases'] at hsame
    refine hsame ((dispatching_other ?_).2 hd)
    rintro rfl
    exact absurd (fresh.symm.trans hd) nofun
  | crashed phases' | outside phases' =>
    rw [phases'] at hsame
    exact hsame hd
  | @advanced j choice o r q phases' crashed live step =>
    rw [phases'] at hsame
    obtain ⟨p', hd', ⟨-, rfl⟩ | ⟨rfl, hm⟩⟩ := hd.continues (r := r) step.before step.allowed
    · exact hsame hd'
    · rcases hunknown with ⟨hc, -⟩ | ⟨failure, ha, hu⟩
      · exact absurd hc live
      · refine ⟨p', ?_, hm.input ▸ hn, hm.sent_persists hsent,
          .inr ⟨failure, hm.answer_persists (hsound.tokens.wellFormed hd) ha, hu⟩⟩
        unfold phases
        rw [phases']
        exact hd'

/-- What was recorded of an unknown outcome does not resolve it. -/
theorem OutcomeUnknown.unresolved (h : OutcomeUnknown s n i) (hw : Fresh w)
    (hr : Run P (System.start w) s) : ∃ p k, Dispatching (phases s) i p ∧
      p.input.notificationId = n ∧ p.sent = true ∧ p.attempt = some k ∧ ¬ p.Resolved := by
  obtain ⟨p, hd, hn, hsent, hunknown⟩ := h
  obtain ⟨k, hk⟩ := Option.isSome_iff_exists.1
    (((sound_run hw hr).tokens.wellFormed hd).sent hsent).2.1
  have htold := told_run hw hr hd
  refine ⟨p, k, hd, hn, hsent, hk, ?_⟩
  rcases hunknown with ⟨-, hnone⟩ | ⟨failure, ha, hu⟩
  · rintro (hrec | hrec) <;> exact absurd (hnone.symm.trans hrec) nofun
  · rintro (hrec | hrec)
    · obtain ⟨failure', ha', hu'⟩ := htold.failed hrec
      cases ha.symm.trans ha'
      exact absurd (hu.symm.trans hu') nofun
    · obtain ⟨sent, ha'⟩ := htold.succeeded hrec
      exact absurd (ha.symm.trans ha') nofun

/-- Nobody sends while an outcome is unknown. -/
theorem Careful.no_send (h : Careful (phases s) s.world n) (hw : Fresh w)
    (hr : Run P (System.start w) s) (hu : OutcomeUnknown s n i) {j : Nat} : ¬ SendStep s l n j := by
  intro hsend
  obtain ⟨p, k, hd, hn, hsent, hk, hres⟩ := hu.unresolved hw hr
  obtain ⟨p', hd', hn', stage, hattempt, -⟩ := hsend.dispatching (disciplined_run hr)
  obtain ⟨k', hk'⟩ := Option.isSome_iff_exists.1 hattempt
  have hsound := sound_run hw hr
  have hwf' := hsound.tokens.wellFormed hd'
  rcases Nat.lt_trichotomy k k' with hlt | rfl | hlt
  · exact hres (h.ordered hd hd' hn hn' hk hk' hlt)
  · obtain rfl := hsound.ledgers.distinct hd hd' (hn.trans hn'.symm) hk hk'
    cases hd.unique hd'
    have hrank := (hwf'.sent hsent).1
    rw [stage] at hrank
    exact absurd hrank (by decide)
  · have hrec : p'.recorded.isSome = true := by
      rcases h.ordered hd' hd hn' hn hk' hk hlt with hrec | hrec <;> rw [hrec] <;> rfl
    have hrank := (hwf'.recorded hrec).1
    rw [stage] at hrank
    exact absurd hrank (by decide)

/-- **Failing closed never sends again**, if what it relies on between its two commits holds. -/
theorem fails_closed (hw : Fresh w) (hr : Run (FailsClosedStep n) (System.start w) s)
    (hu : OutcomeUnknown s n i) (h : Run (FailsClosedStep n) s s') :
    sends s' n = sends s n := by
  refine (sound_induction (Q := FailsClosedStep n) (fun s₁ => Careful (phases s₁) s₁.world n ∧
    OutcomeUnknown s₁ n i ∧ sends s₁ n = sends s n) hw hr ⟨careful_run hw hr, hu, rfl⟩ ?_ h).2.2
  rintro s₁ l s₂ hr₁ hs hsound ⟨hcareful, hu₁, hsends⟩ ⟨hclosed, hguard⟩ hstep
  refine ⟨hcareful.step hsound hs hstep hclosed hguard, hu₁.step hsound hstep, ?_⟩
  rcases sends_step (n := n) (disciplined_run hr₁) hs with hsame | ⟨j, hsend⟩
  · exact hsame.trans hsends
  · exact absurd hsend (hcareful.no_send hw hr₁ hu₁)

/-- Without reaps, and with its application there, the guard of a notification is never broken. -/
theorem failsClosedStep_of_unreaped (hw : Fresh w)
    (hr : Run ReapsNothing (System.start w) s)
    (h : Run (fun s l => (failsClosed n s && s.world.applications.rows.all (·.archivedAt.isNone)) =
      true ∧ ReapsNothing s l) s s') : Run (FailsClosedStep n) s s' := by
  induction h with
  | refl => exact .refl
  | @tail s₁ s₂ l h₁ hp hs ih =>
    obtain ⟨hclosed, hreap⟩ := hp
    rw [Bool.and_eq_true] at hclosed
    have hr₁ := hr.trans (h₁.mono fun _ _ h => h.2)
    have howned := owned_run_unreaped hw hr₁
    have hsound := sound_run hw hr₁
    refine ih.tail ⟨hclosed.1, ?_, ?_, ?_⟩ hs
    · rintro i input s' hperforms rfl - -
      left
      obtain ⟨choice, q, -, step, -⟩ := (disciplined_run hr₁).performs hperforms
      obtain ⟨p, rfl, ⟨c, hc, -, hcn⟩, hmay⟩ := dispatching_of_allows rfl step.allowed
      rw [hcn, hsound.ledgers.named step.before hc]
      refine howned i p step.before trivial ?_
      rcases hmay with ⟨stage, -⟩ | ⟨stage, -⟩ <;> rw [stage] <;> rfl
    · rintro i p a settings s' - - -
      rw [Option.all_eq_true]
      intro x hx
      exact List.all_eq_true.1 hclosed.2 x (Relational.Table.mem_of_find? hx)
    · exact undisturbed_of_unreaped (fun _ => Progress.FailsClosed.mustFail) (disciplined_run hr₁)
        hsound howned hreap

/-- No answer came before the time was up. -/
def timedOut : ProviderFailure :=
  createProviderFailure .provider_timeout "WhatsApp did not answer in time."

/-- A dispatch sends and gets no answer. -/
def unanswered : List Sample.Step :=
  Sample.dispatching 2 ++ Sample.sends 0 0 true ++ [.advance 0 (.sent (.failed timedOut))]

/-- It reads the policy, writes `UNKNOWN` to the ledger and fails the notification. -/
def closes : List Sample.Step :=
  [.advance 0 .nothing, .advance 0 (.date 0), .advance 0 .nothing, .advance 0 (.date 0),
    .advance 0 .nothing]

theorem fails_closed_unanswered :
    sends ((Sample.run .FAIL_CLOSED unanswered).after (closes ++ Sample.claims 1 0)) 7 =
      sends (Sample.run .FAIL_CLOSED unanswered) 7 := by
  have hunknown : OutcomeUnknown (Sample.run .FAIL_CLOSED unanswered) 7 0 :=
    ⟨_, rfl, rfl, rfl, .inr ⟨timedOut, rfl, rfl⟩⟩
  have hbefore := reapsNothing_of_trace (@Run.of_checks _ _
    (fun s => failsClosed 7 s && s.world.applications.rows.all (·.archivedAt.isNone))
    (System.start (Sample.world .FAIL_CLOSED)) unanswered (by decide +kernel)) (by decide +kernel)
  have hafter := reapsNothing_of_trace (@Run.of_checks _ _
    (fun s => failsClosed 7 s && s.world.applications.rows.all (·.archivedAt.isNone))
    (Sample.run .FAIL_CLOSED unanswered) (closes ++ Sample.claims 1 0) (by decide +kernel)) (by decide +kernel)
  exact fails_closed (Sample.fresh_world .FAIL_CLOSED)
    (failsClosedStep_of_unreaped (Sample.fresh_world .FAIL_CLOSED) .refl hbefore) hunknown
    (failsClosedStep_of_unreaped (Sample.fresh_world .FAIL_CLOSED)
      (hbefore.mono fun _ _ h => h.2) hafter)

/-- The worker that sent dies; its successor writes `UNKNOWN` and dies too. -/
def forgotten : List Sample.Step :=
  Sample.dispatching 3 ++ Sample.sends 0 0 true ++ [.crash 0] ++ Sample.maintains 3 400000 ++
    [.advance 3 .nothing] ++ Sample.claims 1 400000 ++ Sample.reads 1 400000 ++
    [.advance 1 .nothing, .advance 1 (.date 400000), .advance 1 .nothing, .crash 1]

/-- The claim is reaped, and the third dispatch finds nothing that keeps it from sending. -/
def sendsAgain : List Sample.Step :=
  Sample.maintains 4 800000 ++ [.advance 4 .nothing] ++ Sample.claims 2 800000 ++
    Sample.reads 2 800000 ++
    [.advance 2 .nothing, .advance 2 (.date 800000), .advance 2 .nothing,
      .advance 2 (.session (.succeeded none)), .advance 2 .nothing, .advance 2 (.date 800000),
      .advance 2 (.number 0)] ++
    Sample.begins 2 800000 false ++ [.advance 2 .nothing]

theorem unknown_sent_again : ∃ s s' : System (platform Sample.configuration),
    Run (fun s _ => failsClosed 7 s = true) (System.start (Sample.world .FAIL_CLOSED)) s ∧
      OutcomeUnknown s 7 0 ∧ Run (fun s _ => failsClosed 7 s = true) s s' ∧
      sends s' 7 ≠ sends s 7 := by
  refine ⟨_, _, @Run.of_checks _ _ _ _ forgotten (by decide +kernel), ?_,
    @Run.of_checks _ _ _ _ sendsAgain (by decide +kernel), fun h => ?_⟩
  · exact ⟨_, rfl, rfl, rfl, .inl ⟨⟨_, rfl⟩, rfl⟩⟩
  · have hlength := congrArg List.length h
    revert hlength
    decide +kernel

end Runs

end NotificationPlatform
