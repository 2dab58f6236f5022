import NotificationPlatform.Delivery.Ownership

/-!
# Between two commits

A dispatch that must fail its notification says so in the ledger first and closes the notification
in a transaction of its own. Between the two it is `Bound`: it has to go through with it as long as
it holds the claim. `Shut` is what such a notification stays as long as nobody puts it back into the
queue meanwhile.
-/

namespace NotificationPlatform

open Interleaving

/-- Dispatch `i` holds notification `n`, has written to the ledger, and can only fail it. -/
def Bound (must : Progress → Prop) (ph : Phases) (w : World) (i : Nat) (n : Uuid) : Prop :=
  ∃ p, Dispatching ph i p ∧ p.input.notificationId = n ∧ p.stage = .settled ∧ must p ∧
    Holds ph w i n

/-- The notification is closed, or about to be. -/
def Shut (must : Progress → Prop) (ph : Phases) (w : World) (n : Uuid) : Prop :=
  Closed w n ∨ ∃ i, Bound must ph w i n

/-- The only dispatch that holds a shut notification is one bound to close it. -/
theorem Shut.bound {must : Progress → Prop} {ph : Phases} {w : World} {i : Nat} {n : Uuid}
    {p : Progress} (h : Shut must ph w n) (hs : Sound ph w) (hh : Holds ph w i n)
    (hd : Dispatching ph i p) : p.stage = .settled := by
  rcases h with hclosed | ⟨j, p', hd', -, stage, -, hh'⟩
  · exact absurd hclosed hh.not_closed
  · obtain rfl := Holds.unique hs hh hh'
    cases hd.unique hd'
    exact stage

section Advance

variable {must : Progress → Prop} {ph : Phases} {w w' : World} {i j : Nat} {n : Uuid}
  {q : DeliveryPhase} {o : Op} {r : o.Ret} {choice : Choice} {p p' : Progress}

/-- A held notification stays held, unless it is put back into the queue or closed. -/
theorem Holds.advance (h : Holds ph w i n) (hs : Sound ph w) (hj : ph j = some q)
    (ho : q.Allows o) (he : exec w o choice = some (r, w')) (hq : ¬ Requeues n o r) :
    Holds (Function.update ph j (some (q.advance o r))) w' i n ∨ Closed w' n := by
  obtain ⟨p, t, old, hd, ht, hold, hstatus, htoken⟩ := h
  obtain ⟨k, pk, c, hk, hkt, hkc, -⟩ := hs.tokens.holder hold htoken
  obtain rfl := hs.tokens.distinct hd hk ht hkt
  cases hd.unique hk
  obtain ⟨p', hd', -, ht', -⟩ :=
    Dispatching.persists (r := r) hd hj ho (hs.tokens.wellFormed hd) hkc
  obtain ⟨new, hnew, -⟩ := (exec_effect he n).kept_row hold
  have hstep := (exec_effect he n).row_step ho hold hnew
  have hkeep : new.status = .PROCESSING →
      Holds (Function.update ph j (some (q.advance o r))) w' i n := fun hproc =>
    ⟨p', t, new, hd', ht'.trans ht, hnew, hproc, (hstep.stays hstatus hproc).trans htoken⟩
  cases hstep with
  | same status => exact .inl (hkeep (status.trans hstatus))
  | claimed _ status => exact .inl (hkeep status)
  | requeued requeues => exact absurd requeues hq
  | sent _ _ status | failed _ _ _ status | cancelled _ _ status =>
    exact .inr ⟨new, hnew, by rw [status]; rfl⟩
  | promoted was | acknowledged _ was => exact absurd (hstatus.symm.trans was) nofun

/-- What a bound dispatch does next: nothing to the notification, or close it. -/
theorem Move.closes (hm : Move p o r p') (hs : Sound ph w) (hd : Dispatching ph i p)
    (stage : p.stage = .settled) (must : p.MustFail) (hh : Holds ph w i p.input.notificationId)
    (he : exec w o choice = some (r, w')) : p' = p ∨ Closed w' p.input.notificationId := by
  cases hm with
  | connection => exact .inl rfl
  | @left notification step r claimed mayLeave mayStep =>
    rcases mayStep with ⟨hfails, -⟩ | ⟨-, hmay, -⟩
    · right
      rw [← hs.ledgers.named hd claimed]
      cases r with
      | false =>
        exact absurd rfl (hh.hits (t := step.transition notification) hs hd claimed he rfl rfl rfl)
      | true =>
        cases exec_effect he notification.id with
        | kept row ledger idle => exact absurd rfl idle
        | transitioned names moved =>
          refine ⟨_, moved.after, ?_⟩
          change step.nextStatus.isClosed = true
          rw [hfails]
          rfl
    · exact absurd must hmay
  | deferred _ _ may | deferring _ _ may => exact absurd must may
  | settled _ _ _ may =>
    rcases may with ⟨stage', -⟩ | ⟨stage', -⟩ <;> exact absurd (stage.symm.trans stage') nofun
  | policy stage' | enqueued stage' =>
    rcases stage' with stage' | stage' <;> exact absurd (stage.symm.trans stage') nofun
  | promoting stage' | recording stage' | explaining stage' | drew stage' | claimed stage'
  | refused stage' | clear stage' | found stage' | lost stage' | begun stage' | sent stage'
  | answered stage' | recorded stage' | unrecorded stage' =>
    exact absurd (stage.symm.trans stage') nofun

theorem Shut.advance (h : Shut must ph w n) (hmust : ∀ p, must p → p.MustFail) (hs : Sound ph w)
    (hj : ph j = some q) (ho : q.Allows o) (he : exec w o choice = some (r, w'))
    (hq : (∃ i, Bound must ph w i n) → ¬ Requeues n o r) :
    Shut must (Function.update ph j (some (q.advance o r))) w' n := by
  rcases h with hclosed | ⟨i, hbound⟩
  · exact .inl (closed_stays ho he hclosed)
  · have hkeep := hq ⟨i, hbound⟩
    obtain ⟨p, hd, rfl, stage, hp, hh⟩ := hbound
    rcases hh.advance hs hj ho he hkeep with hh' | hclosed
    · obtain ⟨p', hd', ⟨-, rfl⟩ | ⟨-, hm⟩⟩ := hd.continues (r := r) hj ho
      · exact .inr ⟨i, p', hd', rfl, stage, hp, hh'⟩
      · rcases hm.closes hs hd stage (hmust p hp) hh he with rfl | hclosed
        · exact .inr ⟨i, p', hd', rfl, stage, hp, hh'⟩
        · exact .inl hclosed
    · exact .inl hclosed

/-- A dispatch that writes to the ledger what binds it shuts the notification, if it holds it. -/
theorem shut_of_settles (hs : Sound ph w) (hi : ph i = some q) (ho : q.Allows o)
    (he : exec w o choice = some (r, w')) (hq : ¬ Requeues n o r)
    (hd : Dispatching (Function.update ph i (some (q.advance o r))) i p')
    (hn : p'.input.notificationId = n) (stage : p'.stage = .settled) (hp : must p')
    (h : Closed w n ∨ Holds ph w i n) :
    Shut must (Function.update ph i (some (q.advance o r))) w' n := by
  rcases h with hclosed | hh
  · exact .inl (closed_stays ho he hclosed)
  · rcases hh.advance hs hi ho he hq with hh' | hclosed
    · exact .inr ⟨i, p', hd, hn, stage, hp, hh'⟩
    · exact .inl hclosed

end Advance

/-! ## What the ledger was told -/

/-- What a dispatch recorded follows from the answer it got, and answers are classified. -/
structure Told (p : Progress) : Prop where
  classified : ∀ failure, p.answer = some (.failed failure) →
    failure.classification = classifyFailureCode failure.code
  failed : p.recorded = some .FAILED →
    ∃ failure, p.answer = some (.failed failure) ∧ hasUnknownOutcome failure = false
  unknown : p.recorded = some .UNKNOWN →
    ∃ failure, p.answer = some (.failed failure) ∧ hasUnknownOutcome failure = true
  succeeded : p.recorded = some .SUCCEEDED → ∃ sent, p.answer = some (.succeeded sent)

theorem told_initial (input : DispatchInput) : Told { input } := ⟨nofun, nofun, nofun, nofun⟩

theorem Move.told {p p' : Progress} {o : Op} {r : o.Ret} (h : Move p o r p') (ha : Answers o r)
    (hp : p.WellFormed) (ht : Told p) : Told p' := by
  cases h with
  | @answered result stage =>
    have hnone : p.recorded = none := by
      cases hrec : p.recorded with
      | none => rfl
      | some x =>
        have := (hp.recorded (by rw [hrec]; rfl)).1
        rw [stage] at this
        exact absurd this (by decide)
    refine ⟨?_, fun h => ?_, fun h => ?_, fun h => ?_⟩
    · rintro failure h
      cases h
      simpa [Answers, ProviderResult.isClassified] using ha
    all_goals cases hnone.symm.trans h
  | recorded stage claimed attempt answer =>
    exact ⟨ht.classified, by simp, by simp, fun _ => ⟨_, answer⟩⟩
  | @settled input c _ claimed application names may =>
    rcases may with ⟨stage, -⟩ | ⟨stage, -, failure, answer, hout⟩
    · have hkeep : (p.settle input.outcome).recorded = p.recorded := by
        simp [Progress.settle, stage]
      exact ⟨ht.classified, fun h => ht.failed (hkeep ▸ h), fun h => ht.unknown (hkeep ▸ h),
        fun h => ht.succeeded (hkeep ▸ h)⟩
    · have hrec : (p.settle input.outcome).recorded = some input.outcome := by
        simp [Progress.settle, stage]
      rcases hout with ⟨hu, ho, -⟩ | ⟨hu, ho⟩
      · have hrec := hrec.trans (congrArg some ho)
        refine ⟨ht.classified, fun h => ?_, fun _ => ⟨failure, answer, hu⟩, fun h => ?_⟩
        all_goals cases hrec.symm.trans h
      · have hrec := hrec.trans (congrArg some ho)
        refine ⟨ht.classified, fun _ => ⟨failure, answer, hu⟩, fun h => ?_, fun h => ?_⟩
        all_goals cases hrec.symm.trans h
  | _ => exact ⟨ht.classified, ht.failed, ht.unknown, ht.succeeded⟩

section Runs

variable {configuration : Configuration} {P : System (platform configuration) →
  Label (platform configuration) → Prop} {w : World} {s s' : System (platform configuration)}
  {l : Label (platform configuration)} {n : Uuid}

theorem told_run (hw : Fresh w) (h : Run P (System.start w) s) {i : Nat} {p : Progress}
    (hd : Dispatching (phases s) i p) : Told p := by
  induction h generalizing i p with
  | refl => cases hd
  | @tail s₁ s₂ l hr _ hs ih =>
    have hsound := sound_run hw hr
    unfold phases at hd
    cases (disciplined_run hr).stepped hs with
    | spawned fresh phases' =>
      rw [phases'] at hd
      rcases dispatching_spawn hd with ⟨-, hold⟩ | ⟨-, input, rfl⟩
      · exact ih hold
      · exact told_initial input
    | crashed phases' | outside phases' =>
      rw [phases'] at hd
      exact ih hd
    | advanced phases' crashed live step =>
      rw [phases'] at hd
      rcases dispatching_advance step.before step.allowed hd with ⟨-, hold⟩ | ⟨-, p, hold, hm⟩
      · exact ih hold
      · exact hm.told step.answered (hsound.tokens.wellFormed hold) (ih hold)

/-- The step puts notification `n` back into the queue. -/
def RequeueStep (s : System (platform configuration)) (l : Label (platform configuration))
    (n : Uuid) : Prop :=
  ∃ i o r s', s.Performs l ⟨i, o, r⟩ s' ∧ Requeues n o r

/-- Nobody puts the notification back into the queue while a bound dispatch holds it. -/
def Undisturbed (must : Progress → Prop) (n : Uuid) (s : System (platform configuration))
    (l : Label (platform configuration)) : Prop :=
  (∃ i, Bound must (phases s) s.world i n) → ¬ RequeueStep s l n

theorem Holds.spawn {ph : Phases} {w : World} {i j : Nat} {n : Uuid} {q : DeliveryPhase}
    (h : Holds ph w i n) (hj : ph j = none) : Holds (Function.update ph j (some q)) w i n := by
  obtain ⟨p, t, r, hd, hrest⟩ := h
  have hij : i ≠ j := by
    rintro rfl
    exact absurd (hj.symm.trans hd) nofun
  exact ⟨p, t, r, (dispatching_other hij).2 hd, hrest⟩

theorem Holds.outside {ph : Phases} {w w' : World} {i : Nat} {n : Uuid} {e : Event}
    (h : Holds ph w i n) (he : outside w e = some w') : Holds ph w' i n := by
  obtain ⟨p, t, r, hd, ht, hr, hrest⟩ := h
  exact ⟨p, t, r, hd, ht, row_kept_outside he hr, hrest⟩

theorem Shut.step {must : Progress → Prop} (h : Shut must (phases s) s.world n)
    (hmust : ∀ p, must p → p.MustFail) (hsound : Sound (phases s) s.world)
    (hs : s.step l = some s') (hstep : Stepped s s' l) (hq : Undisturbed must n s l) :
    Shut must (phases s') s'.world n := by
  unfold phases
  cases hstep with
  | @spawned j request fresh phases' crashed world =>
    rw [phases', world]
    refine h.imp id fun ⟨i, p, hd, hn, stage, hp, hh⟩ => ?_
    have hij : i ≠ j := by
      rintro rfl
      exact absurd (fresh.symm.trans hd) nofun
    exact ⟨i, p, (dispatching_other hij).2 hd, hn, stage, hp, hh.spawn fresh⟩
  | crashed phases' crashed world =>
    rw [phases', world]
    exact h
  | outside phases' crashed world =>
    rw [phases']
    refine h.imp ?_ fun ⟨i, p, hd, hn, stage, hp, hh⟩ =>
      ⟨i, p, hd, hn, stage, hp, hh.outside world⟩
    rintro ⟨r, hr, hclosed⟩
    exact ⟨r, row_kept_outside world hr, hclosed⟩
  | @advanced j choice o r q phases' crashed live step =>
    rw [phases']
    exact h.advance hmust hsound step.before step.allowed step.exec fun hbound hrequeues =>
      hq hbound ⟨j, o, r, s', ⟨hs, step.trace⟩, hrequeues⟩

/-- While nothing is reaped, nobody but the holder could put the notification back, and a bound
dispatch does not. -/
theorem undisturbed_of_unreaped {must : Progress → Prop} (hmust : ∀ p, must p → p.MustFail)
    (hd : (deliveryDiscipline configuration).Disciplined s)
    (hsound : Sound (phases s) s.world) (howned : Owned (fun _ => True) (phases s) s.world)
    (hreap : ReapsNothing s l) : Undisturbed must n s l := by
  rintro ⟨i, p, hp, rfl, stage, hbound, hheld⟩ ⟨j, o, r, s', hperforms, hrequeues⟩
  obtain ⟨choice, q, -, step, -⟩ := hd.performs hperforms
  -- a dispatch that leaves with the notification is the bound one
  have hself : ∀ {p' c}, q = .dispatching p' → p'.claimed = some c →
      c.id = p.input.notificationId → p'.MayLeave → p'.MustFail := by
    rintro p' c rfl hc hn hleave
    have hheld' := howned j p' step.before trivial hleave.isActive
    rw [← hsound.ledgers.named step.before hc, hn] at hheld'
    obtain rfl := Holds.unique hsound hheld hheld'
    cases hp.unique step.before
    exact hmust p hbound
  have ho := step.allowed
  cases o <;> try exact hrequeues.elim
  case releaseClaim input =>
    exact hreap _ ⟨j, _, r, s', hperforms, by cases r <;> exact hrequeues⟩
  case deferTransition input =>
    cases r <;> try exact hrequeues.elim
    obtain ⟨p', rfl, hc, hleave, hmay⟩ := dispatching_of_allows rfl ho
    exact hmay (hself rfl hc hrequeues hleave)
  case transitionAndRecord notification input =>
    cases r <;> try exact hrequeues.elim
    obtain ⟨p', rfl, hc, hleave, hstep⟩ := dispatching_of_allows rfl ho
    rcases hstep with ⟨hfails, -⟩ | ⟨-, hmay, -⟩
    · exact absurd (hrequeues.2.symm.trans hfails) nofun
    · exact hmay (hself rfl hc hrequeues.1 hleave)

end Runs

end NotificationPlatform
