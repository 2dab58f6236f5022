import NotificationPlatform.Delivery.Runs

/-!
# Ownership of a claim

`Holds` relates a dispatch to the row: the row is `PROCESSING` under the dispatch's own token. While
nobody reaps the claim of a living dispatch, every dispatch between its claim and its end holds the
row (`Owned`). What that gives for sends, cancels and the provider's answers is `no_double_send`.
-/

namespace NotificationPlatform

open Interleaving

/-- The row of notification `n` is `PROCESSING` under the token of dispatch `i`. -/
def Holds (ph : Phases) (w : World) (i : Nat) (n : Uuid) : Prop :=
  ∃ p t r, Dispatching ph i p ∧ p.token = some t ∧ w.row n = some r ∧ r.status = .PROCESSING ∧
    r.claimToken = some t

theorem Holds.unique {ph : Phases} {w : World} {i j : Nat} {n : Uuid} (hs : Sound ph w)
    (h : Holds ph w i n) (h' : Holds ph w j n) : i = j := by
  obtain ⟨p, t, r, hd, ht, hr, -, hrt⟩ := h
  obtain ⟨p', t', r', hd', ht', hr', -, hrt'⟩ := h'
  cases hr.symm.trans hr'
  cases hrt.symm.trans hrt'
  exact hs.tokens.distinct hd hd' ht ht'

/-- The token of a dispatch. -/
def tokenOf (ph : Phases) (i : Nat) : Option Uuid :=
  match ph i with
  | some (.dispatching p) => p.token
  | _ => none

/-- The holder's token is the one on the row. -/
theorem Holds.tokenOf {ph : Phases} {w : World} {i : Nat} {n : Uuid} (h : Holds ph w i n) :
    tokenOf ph i = (w.row n).bind (·.claimToken) := by
  obtain ⟨p, t, r, hd, ht, hr, -, hrt⟩ := h
  unfold NotificationPlatform.tokenOf
  rw [hd, hr]
  exact ht.trans hrt.symm

/-! ## How a row stops being processed -/

/-- The operation, as it was answered, reaped the claim on notification `n`. -/
def Reaps (n : Uuid) : (o : Op) → o.Ret → Prop
  | .releaseClaim notification _, true => notification.id = n
  | _, _ => False

/-- Who ended the processing of notification `n`: a reaper, or a dispatch that leaves with it. -/
inductive Leaves (n : Uuid) (q : DeliveryPhase) (o : Op) (r : o.Ret) : Prop where
  | reaped (reaps : Reaps n o r)
  | left {p p' : Progress} {c : NotificationRecord} (is : q = .dispatching p)
      (active : p.stage.isActive = true) (claimed : p.claimed = some c) (names : c.id = n)
      (next : q.advance o r = .dispatching p') (ended : p'.stage.isActive = false)

theorem Progress.MayLeave.isActive {p : Progress} (h : p.MayLeave) : p.stage.isActive = true := by
  rcases h with h | h | h | ⟨h, -⟩ <;> rw [h] <;> rfl

section RowStep

variable {n : Uuid} {o : Op} {r : o.Ret} {old new : NotificationRecord} {q : DeliveryPhase}

/-- While the row stays `PROCESSING`, its token stays too. -/
theorem RowStep.stays (h : RowStep n o r old new) (was : old.status = .PROCESSING)
    (is : new.status = .PROCESSING) : new.claimToken = old.claimToken := by
  cases h with
  | same _ token | promoted _ _ token | cancelled _ _ _ token | acknowledged _ _ _ token =>
    exact token
  | claimed was' => rcases was' with was' | was' <;> exact absurd (was.symm.trans was') nofun
  | sent _ _ status | requeued _ _ status | failed _ _ _ status =>
    exact absurd (is.symm.trans status) nofun

theorem RowStep.leaves (h : RowStep n o r old new) (ho : q.Allows o)
    (was : old.status = .PROCESSING) (is : new.status ≠ .PROCESSING) : Leaves n q o r := by
  cases h with
  | same status => exact absurd (status.trans was) is
  | promoted was' => exact absurd (was.symm.trans was') nofun
  | claimed _ status => exact absurd status is
  | acknowledged _ was' => exact absurd (was.symm.trans was') nofun
  | cancelled _ was' =>
    rw [was] at was'
    exact absurd was' (by decide)
  | sent names =>
    obtain ⟨p, rfl, hs, hc, -⟩ := dispatching_of_allows rfl ho
    exact .left rfl (by rw [hs]; rfl) hc names rfl rfl
  | failed names =>
    obtain ⟨p, rfl, hc, hleave, -⟩ := dispatching_of_allows rfl ho
    exact .left rfl hleave.isActive hc names rfl rfl
  | requeued requeues =>
    cases o <;> try exact requeues.elim
    case releaseClaim => exact .reaped (by cases r <;> exact requeues)
    case deferTransition =>
      cases r <;> try exact requeues.elim
      obtain ⟨p, rfl, hc, hleave, -⟩ := dispatching_of_allows rfl ho
      exact .left rfl hleave.isActive hc requeues rfl rfl
    case transitionAndRecord =>
      cases r <;> try exact requeues.elim
      obtain ⟨p, rfl, hc, hleave, -⟩ := dispatching_of_allows rfl ho
      exact .left rfl hleave.isActive hc requeues.1 rfl rfl

end RowStep

/-! ## Living dispatches hold what they claimed -/

def Owned (live : Nat → Prop) (ph : Phases) (w : World) : Prop :=
  ∀ i p, Dispatching ph i p → live i → p.stage.isActive = true →
    Holds ph w i p.input.notificationId

/-- A dispatch that was not active before a step and is after it has just taken the claim. -/
theorem Move.activates {p p' : Progress} {o : Op} {r : o.Ret} (h : Move p o r p')
    (hp : p.stage.isActive = false) (hp' : p'.stage.isActive = true) {w w' : World}
    {choice : Choice} (he : exec w o choice = some (r, w')) :
    ∃ t new, p'.token = some t ∧ w'.row p'.input.notificationId = some new ∧
      new.status = .PROCESSING ∧ new.claimToken = some t := by
  cases h with
  | @claimed t now c stage token =>
    cases exec_effect he p.input.notificationId with
    | kept row ledger idle => exact absurd rfl idle
    | claimed before application claimable new_eq after =>
      exact ⟨t, c, token, after, by rw [new_eq], by rw [new_eq]⟩
  | clear stage | found stage | begun stage | sent stage | answered stage =>
    rw [stage] at hp
    exact absurd hp (by decide)
  | settled _ _ _ may =>
    rcases may with ⟨stage, -⟩ | ⟨stage, -⟩ <;> rw [stage] at hp <;> exact absurd hp (by decide)
  | drew | refused | lost | recorded | unrecorded | left | deferred | deferring | enqueued =>
    exact absurd hp' (by simp [Stage.isActive])
  | connection | promoting | recording | explaining | policy =>
    exact absurd (hp.symm.trans hp') nofun

theorem Owned.advance {live : Nat → Prop} {ph : Phases} {w w' : World} {j : Nat}
    {q : DeliveryPhase} {o : Op} {r : o.Ret} {choice : Choice} (h : Owned live ph w)
    (hs : Sound ph w) (hj : ph j = some q) (ho : q.Allows o)
    (he : exec w o choice = some (r, w')) (hlive : live j)
    (hreap : ∀ n, Reaps n o r → ∀ i, Holds ph w i n → ¬ live i) :
    Owned live (Function.update ph j (some (q.advance o r))) w' := by
  intro i p' hd hlive_i hactive
  -- what a held row is after the step, unless the holder just left
  have hkeep : ∀ {p}, Dispatching ph i p → p'.input = p.input → p'.token = p.token →
      p.stage.isActive = true →
      (∀ p₁ p₂, q = .dispatching p₁ → q.advance o r = .dispatching p₂ →
        p₂.stage.isActive = false → j = i → False) →
      Holds (Function.update ph j (some (q.advance o r))) w' i p'.input.notificationId := by
    intro p hold hinput htoken hpa hstay
    obtain ⟨p₀, t, old, hd₀, ht, hrow, hstatus, hold_token⟩ := h i _ hold hlive_i hpa
    cases hold.unique hd₀
    obtain ⟨new, hnew, -⟩ := (exec_effect he p.input.notificationId).kept_row hrow
    have hstep := (exec_effect he p.input.notificationId).row_step ho hrow hnew
    by_cases hproc : new.status = .PROCESSING
    · exact ⟨p', t, new, hd, htoken.trans ht, hinput ▸ hnew, hproc,
        (hstep.stays hstatus hproc).trans hold_token⟩
    · exfalso
      cases hstep.leaves ho hstatus hproc with
      | reaped reaps =>
        exact hreap _ reaps i ⟨p, t, old, hold, ht, hrow, hstatus, hold_token⟩ hlive_i
      | @left p₁ p₂ c is active claimed names next ended =>
        subst is
        have hheld := h j p₁ hj hlive active
        rw [← hs.ledgers.named hj claimed, names] at hheld
        have hij : j = i :=
          Holds.unique hs hheld ⟨p, t, old, hold, ht, hrow, hstatus, hold_token⟩
        exact hstay p₁ p₂ rfl next ended hij
  rcases dispatching_advance hj ho hd with ⟨hne, hold⟩ | ⟨rfl, p, hold, hm⟩
  · exact hkeep hold rfl rfl hactive fun _ _ _ _ _ hij => hne hij.symm
  · cases hpa : p.stage.isActive with
    | false =>
      obtain ⟨t, new, ht, hnew, hstatus, htoken⟩ := hm.activates hpa hactive he
      exact ⟨p', t, new, hd, ht, hnew, hstatus, htoken⟩
    | true =>
      obtain ⟨c, hc⟩ := Option.isSome_iff_exists.1 ((hs.tokens.wellFormed hold).active hpa)
      refine hkeep hold hm.input (hm.persists (hs.tokens.wellFormed hold) hc).2.1 hpa ?_
      intro p₁ p₂ _ hnext hended _
      rw [dispatching_self.1 hd] at hnext
      cases hnext
      rw [hactive] at hended
      cases hended

/-- A dispatch that holds its row cannot miss an update of it. -/
theorem Holds.hits {ph : Phases} {w w' : World} {i : Nat} {p : Progress} {c : NotificationRecord}
    {o : Op} {r : o.Ret} {choice : Choice} {t : TransitionInput}
    (h : Holds ph w i p.input.notificationId) (hs : Sound ph w) (hd : Dispatching ph i p)
    (hc : p.claimed = some c) (he : exec w o choice = some (r, w')) (hn : t.notificationId = c.id)
    (ha : t.applicationId = c.applicationId) (ht : t.expectedStatus = .PROCESSING) :
    missed o r ≠ some t := by
  intro hm
  obtain ⟨_, _, row, -, -, hrow, hstatus, -⟩ := h
  rw [← hs.ledgers.named hd hc] at hrow
  obtain ⟨row', hrow', hkept⟩ := hs.ledgers.claimed hd hc
  cases hrow.symm.trans hrow'
  exact (exec_missed he hm).zeroRows row (hn ▸ hrow) (hkept.applicationId.trans ha.symm)
    (hstatus.trans ht.symm)

/-! ## Closed notifications -/

/-- Nothing leads from the row of notification `n` back to the queue. -/
abbrev Closed (w : World) (n : Uuid) : Prop := ∃ r, w.row n = some r ∧ r.status.isClosed = true

theorem closed_stays {w w' : World} {q : DeliveryPhase} {o : Op} {r : o.Ret} {choice : Choice}
    (ho : q.Allows o) (he : exec w o choice = some (r, w')) {n : Uuid} (h : Closed w n) :
    Closed w' n := by
  obtain ⟨old, hold, hc⟩ := h
  obtain ⟨new, hnew, -⟩ := (exec_effect he n).kept_row hold
  exact ⟨new, hnew, ((exec_effect he n).row_step ho hold hnew).closed hc⟩

/-- A notification that is held is not closed. -/
theorem Holds.not_closed {ph : Phases} {w : World} {i : Nat} {n : Uuid} (h : Holds ph w i n) :
    ¬ Closed w n := by
  rintro ⟨r, hr, hc⟩
  obtain ⟨_, _, r', -, -, hr', hs, -⟩ := h
  cases hr.symm.trans hr'
  rw [hs] at hc
  exact absurd hc nofun

section Runs

variable {configuration : Configuration} {P : System (platform configuration) →
  Label (platform configuration) → Prop} {w : World} {s s' : System (platform configuration)}
  {l : Label (platform configuration)} {n : Uuid}

/-- The step reaps the claim on notification `n`. -/
def ReapStep (s : System (platform configuration)) (l : Label (platform configuration))
    (n : Uuid) : Prop :=
  ∃ i o r s', s.Performs l ⟨i, o, r⟩ s' ∧ Reaps n o r

/-- A step may reap the claim of a dispatch only if that dispatch has crashed. -/
def ReapsOnlyCrashed (s : System (platform configuration)) (l : Label (platform configuration)) :
    Prop :=
  ∀ n, ReapStep s l n → ∀ i, Holds (phases s) s.world i n → s.Crashed i

/-- No step reaps a claim. -/
def ReapsNothing (s : System (platform configuration)) (l : Label (platform configuration)) :
    Prop :=
  ∀ n, ¬ ReapStep s l n

/-- The entry of a reap in the trace. -/
def isReap : Performed operations → Bool
  | ⟨_, .releaseClaim _ _, true⟩ => true
  | _ => false

/-- A run whose trace shows no reap reaps nothing. -/
theorem reapsNothing_of_trace (h : Run P s s') (ht : s'.trace.all fun p => !isReap p) :
    Run (fun s l => P s l ∧ ReapsNothing s l) s s' := by
  refine h.of_trace (G := fun p => isReap p = true) (fun p hp => ?_) ?_
  · have := List.all_eq_true.1 ht p hp
    simpa using this
  · rintro s₁ l hno n ⟨i, o, r, s₂, hp, hreaps⟩
    refine hno s₂ ⟨i, o, r⟩ hp.1 hp.2 ?_
    cases o <;> try exact hreaps.elim
    cases r
    · exact hreaps.elim
    · rfl

theorem unreaped_of_trace (h : Run Any s s') (ht : s'.trace.all fun p => !isReap p) :
    Run ReapsNothing s s' := (reapsNothing_of_trace h ht).mono fun _ _ h => h.2

/-- The step of no thread is a release. -/
def releasesNothing (s : System (platform configuration)) : Label (platform configuration) → Bool
  | .advance i _ => (s.nextOp i).all fun o => match o with
    | .releaseClaim _ _ => false
    | _ => true
  | _ => true

theorem ReapsNothing.of_check (h : releasesNothing s l = true) : ReapsNothing s l := by
  rintro n ⟨i, o, r, s', hp, hreaps⟩
  obtain ⟨c, rfl, -⟩ := hp.exec
  rw [releasesNothing, hp.nextOp, Option.all_some] at h
  cases o <;> first | exact hreaps | cases h

theorem ReapsNothing.onlyCrashed (h : ReapsNothing s l) : ReapsOnlyCrashed s l :=
  fun n hreap => absurd hreap (h n)

theorem Owned.stepped {live live' : Nat → Prop} (h : Owned live (phases s) s.world)
    (hsound : Sound (phases s) s.world) (hs : s.step l = some s') (hstep : Stepped s s' l)
    (hlive : ∀ i, live' i → live i) (hact : ∀ i choice, l = .advance i choice → live i)
    (hreap : ∀ n, ReapStep s l n → ∀ i, Holds (phases s) s.world i n → ¬ live i) :
    Owned live' (phases s') s'.world := by
  cases hstep with
  | @spawned j request fresh phases' crashed world trace =>
    intro i p hd hl hactive
    unfold phases at hd ⊢
    rw [phases'] at hd ⊢
    rcases dispatching_spawn hd with ⟨hij, hold⟩ | ⟨-, input, rfl⟩
    · obtain ⟨p₀, t, r, hd₀, hrest⟩ := h i p hold (hlive i hl) hactive
      rw [world]
      exact ⟨p₀, t, r, (dispatching_other hij).2 hd₀, hrest⟩
    · exact absurd hactive nofun
  | crashed phases' crashed world trace =>
    intro i p hd hl hactive
    unfold phases at hd ⊢
    rw [phases'] at hd ⊢
    rw [world]
    exact h i p hd (hlive i hl) hactive
  | outside phases' crashed world trace =>
    intro i p hd hl hactive
    unfold phases at hd ⊢
    rw [phases'] at hd ⊢
    obtain ⟨p₀, t, r, hd₀, ht, hr, hrest⟩ := h i p hd (hlive i hl) hactive
    exact ⟨p₀, t, r, hd₀, ht, row_kept_outside world hr, hrest⟩
  | @advanced j choice o r q phases' crashed live step =>
    intro i p hd hl hactive
    unfold phases at hd ⊢
    rw [phases'] at hd ⊢
    exact Owned.advance h hsound step.before step.allowed step.exec (hact j choice rfl)
      (fun n reaps => hreap n ⟨j, o, r, s', ⟨hs, step.trace⟩, reaps⟩) i p hd (hlive i hl) hactive

/-- Living dispatches hold what they claimed, if only crashed ones are reaped. -/
theorem owned_run (hw : Fresh w) (h : Run ReapsOnlyCrashed (System.start w) s) :
    Owned (fun i => ¬ s.Crashed i) (phases s) s.world := by
  induction h with
  | refl =>
    intro i p hd
    cases hd
  | @tail s₁ s₂ l hr hp hs ih =>
    have hstep := (disciplined_run hr).stepped hs
    refine ih.stepped (sound_run hw hr) hs hstep ?_ ?_ fun n hreap i hheld hlive =>
      hlive (hp n hreap i hheld)
    · intro i hlive hcrashed
      refine hlive ?_
      cases hstep with
      | spawned _ _ crashed | outside _ crashed | advanced _ crashed => rwa [crashed]
      | crashed _ crashed => exact (crashed i).2 (.inl hcrashed)
    · rintro i choice rfl
      cases hstep with
      | advanced _ _ live => exact live

/-- All dispatches hold what they claimed, if nothing is ever reaped. -/
theorem owned_run_unreaped (hw : Fresh w) (h : Run ReapsNothing (System.start w) s) :
    Owned (fun _ => True) (phases s) s.world := by
  induction h with
  | refl =>
    intro i p hd
    cases hd
  | tail hr hp hs ih =>
    exact ih.stepped (sound_run hw hr) hs ((disciplined_run hr).stepped hs) (fun _ => id)
      (fun _ _ _ => trivial) fun n hreap => absurd hreap (hp n)

end Runs

end NotificationPlatform
