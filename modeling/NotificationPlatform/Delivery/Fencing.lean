import NotificationPlatform.Delivery.Ownership

/-!
# Claim fencing

A dispatch that lost its claim should stop without a trace. Beginning an attempt is fenced by the
claim token; the other exits ask only whether the row is `PROCESSING`, which a successor's claim
satisfies too, and `deferQuietly` inserts its job even when its update changed nothing.
`fencing_iff` gives the steps at which this matters.
-/

namespace NotificationPlatform

open Interleaving

section Fencing

variable {configuration : Configuration} {w : World} {s s' : System (platform configuration)}
  {l : Label (platform configuration)} {i : Nat}

/-- Dispatch `i` has claimed, has not ended, and the row is no longer `PROCESSING` under its
token. -/
def Lost (s : System (platform configuration)) (i : Nat) : Prop :=
  ∃ p, Dispatching (phases s) i p ∧ (p.stage.isActive = true ∨ p.stage = .deferring) ∧
    ¬ Holds (phases s) s.world i p.input.notificationId

/-- Rows, timelines and jobs are as they were. -/
structure Fenced (w w' : World) : Prop where
  notifications : w'.notifications = w.notifications
  notificationEvents : w'.notificationEvents = w.notificationEvents
  dispatchJobs : w'.dispatchJobs = w.dispatchJobs

/-- A dispatch that lost its claim writes nothing, and returns nothing but `not_claimable`. -/
def FencesOff (s : System (platform configuration)) (l : Label (platform configuration)) : Prop :=
  ∀ i choice s', l = .advance i choice → Lost s i → s.step l = some s' →
    Fenced s.world s'.world ∧
      ∀ result, s'.Returned i (.dispatched result) → result.outcome = .not_claimable

/-- The row of notification `n` is being processed. -/
def Processed (w : World) (n : Uuid) : Prop := ∃ r, w.row n = some r ∧ r.status = .PROCESSING

/-- The operations that a dispatch without its claim must not come to. -/
def TrespassesWith (w : World) : Op → Prop
  | .transitionAndRecord _ _ | .enqueueDispatch _ => True
  | .deferTransition input => Processed w input.notification.id
  | .recordSent input => Processed w input.notification.id
  | _ => False

/-- A dispatch that lost its claim is not about to retry, to fail, or to insert the job of
`deferQuietly`; nor to defer or to record a success while the row is being processed. -/
def KeepsOff (s : System (platform configuration)) (l : Label (platform configuration)) : Prop :=
  ∀ i choice o, l = .advance i choice → Lost s i → s.nextOp i = some o → ¬ TrespassesWith s.world o

/-! ## How a dispatch ends -/

theorem exited_stuck {p : Progress} {outcome : DispatchOutcome} (h : p.stage = .exited outcome)
    (o : Op) : ¬ p.Allows o := by
  intro ho
  cases o
  case sendTextMessage => exact absurd (h.symm.trans ho.1) nofun
  case sendTextMessageAnswer => exact absurd (h.symm.trans ho) nofun
  case randomUuid => exact absurd (h.symm.trans ho) nofun
  case findNotificationById => exact absurd (h.symm.trans ho) nofun
  case promoteScheduled | appendEvent | claimForDispatch | findUnresolved | beginAttempt
    | recordSent => exact absurd (h.symm.trans ho.1) nofun
  case findDeliverySettings => rcases ho.1 with hs | hs <;> exact absurd (h.symm.trans hs) nofun
  case enqueueDispatch => rcases ho with hs | hs <;> exact absurd (h.symm.trans hs) nofun
  case transitionAndRecord | deferTransition =>
    have := ho.2.1.isActive
    rw [h] at this
    exact absurd this nofun
  case resolveAttempt =>
    rcases ho.2 with ⟨hs, -⟩ | ⟨hs, -⟩ <;> exact absurd (h.symm.trans hs) nofun
  all_goals exact ho.2 outcome h

/-- A call of `dispatch` returns the outcome it exited with. -/
theorem returned_stage (hd : (deliveryDiscipline configuration).Disciplined s)
    {p : Progress} (hp : Dispatching (phases s) i p) {result : DispatchResult}
    (h : s.Returned i (.dispatched result)) : p.stage = .exited result.outcome ∨
      (p.stage = .refused ∧ result.outcome = .not_claimable) := by
  obtain ⟨request, ht⟩ := h
  have hreturns : DeliveryPhase.Returns (deliveryTypestate.after (DeliveryPhase.initial request)
      (s.history i)) (.dispatched result) := hd.residual ht
  have hphase : phases s i = some (deliveryTypestate.after (DeliveryPhase.initial request)
      (s.history i)) := Discipline.phase_eq ht
  rw [← Option.some.inj (hp.symm.trans hphase)] at hreturns
  exact hreturns

/-- A dispatch that has exited returns. -/
theorem returned_of_exited {p : Progress} {outcome : DispatchOutcome}
    (hd : (deliveryDiscipline configuration).Disciplined s) (hp : Dispatching (phases s) i p)
    (hstage : p.stage = .exited outcome) {request : Request} {rest : Program Result}
    (ht : s.threads i = some ⟨request, .running rest⟩) :
    ∃ result, s.Returned i (.dispatched result) ∧ result.outcome = outcome := by
  have hphase : phases s i = some (deliveryTypestate.after (DeliveryPhase.initial request)
      (s.history i)) := Discipline.phase_eq ht
  have hconforms := hd.residual ht
  rw [← Option.some.inj (hp.symm.trans hphase)] at hconforms
  obtain ⟨a, rfl, ha⟩ := hconforms.done_of_stuck fun o => exited_stuck hstage o
  cases a with
  | dispatched result =>
    refine ⟨result, ⟨request, ht⟩, ?_⟩
    rcases ha with ha | ⟨ha, -⟩
    · exact (Stage.exited.inj (hstage.symm.trans ha)).symm
    · exact absurd (hstage.symm.trans ha) nofun
  | _ => exact ha.elim

/-! ## What a dispatch without its claim does -/

theorem Fenced.of_eq {w w' : World} (h : w' = w) : Fenced w w' := by
  subst h
  exact ⟨rfl, rfl, rfl⟩

theorem fenced_aside {w w' : World} {o : Op} {r : o.Ret} {choice : Choice}
    (he : exec w o choice = some (r, w')) (ho : o.isAside = true) : Fenced w w' := by
  have h := untouched_meaning choice ho w r w' he
  exact ⟨h.notifications, h.notificationEvents, h.dispatchJobs⟩

/-- Where a dispatch may be after a step without its claim. -/
def EndsUnclaimed (p : Progress) : Prop :=
  p.stage ≠ .refused ∧ ∀ outcome, p.stage = .exited outcome → outcome = .not_claimable

theorem endsUnclaimed_of_going {p : Progress}
    (h : p.stage.isActive = true ∨ p.stage = .deferring) : EndsUnclaimed p := by
  rcases h with h | h
  · refine ⟨fun hs => ?_, fun outcome hs => ?_⟩ <;> rw [hs] at h <;> exact absurd h nofun
  · exact ⟨fun hs => absurd (h.symm.trans hs) nofun, fun _ hs => absurd (h.symm.trans hs) nofun⟩

/-- Unless it trespasses, a dispatch that lost its claim changes nothing and ends unclaimed. -/
theorem Move.fenced {ph : Phases} {w w' : World} {p p' : Progress} {o : Op} {r : o.Ret}
    {choice : Choice} (hm : Move p o r p') (hd : Dispatching ph i p)
    (hgoing : p.stage.isActive = true ∨ p.stage = .deferring)
    (hlost : ¬ Holds ph w i p.input.notificationId) (hl : Ledgers ph w)
    (he : exec w o choice = some (r, w')) (hkeep : ¬ TrespassesWith w o) :
    Fenced w w' ∧ EndsUnclaimed p' := by
  have hearly : ∀ {stage : Stage}, stage.isActive = false → stage ≠ .deferring →
      p.stage ≠ stage := by
    rintro stage hinactive hne rfl
    rcases hgoing with h | h
    · rw [h] at hinactive
      cases hinactive
    · exact hne h
  cases hm with
  | connection kind =>
    exact ⟨fenced_aside he (by simp [Op.isAside, kind]), endsUnclaimed_of_going hgoing⟩
  | promoting stage | recording stage | drew stage | claimed stage | refused stage
  | explaining stage => exact absurd stage (hearly rfl (by decide))
  | clear | found | sent | answered => exact ⟨fenced_aside he rfl, endsUnclaimed_of_going (.inl rfl)⟩
  | policy => exact ⟨fenced_aside he rfl, endsUnclaimed_of_going hgoing⟩
  | lost =>
    refine ⟨.of_eq (beginAttempt_none (Choice.quietly_eq_some.1 he).2), by simp, fun outcome h => ?_⟩
    exact (Stage.exited.inj h).symm
  | @begun input c k stage token claimed application names =>
    exfalso
    obtain ⟨old, new, id, before, htoken, hstatus, -⟩ :=
      (exec_effect he input.notificationId).begun_of_names
    rw [names, hl.named hd claimed] at before
    exact hlost ⟨p, _, old, hd, token, before, hstatus, htoken⟩
  | settled =>
    refine ⟨?_, endsUnclaimed_of_going (.inl rfl)⟩
    cases (Choice.quietly_eq_some.1 he).2
    exact ⟨rfl, rfl, rfl⟩
  | @recorded input sent stage claimed attempt answer message =>
    cases exec_effect he input.notification.id with
    | kept row ledger idle => exact absurd rfl idle
    | sent names moved => exact absurd ⟨_, moved.before, moved.status⟩ hkeep
  | @unrecorded input stage claimed =>
    have hmissed := exec_missed (t := input.transition) he rfl
    refine ⟨.of_eq hmissed.world, by simp, fun outcome h => ?_⟩
    exact (Stage.exited.inj h).symm
  | left | enqueued => exact absurd trivial hkeep
  | @deferred input claimed mayLeave may =>
    cases exec_effect he input.notification.id with
    | kept row ledger idle => exact absurd rfl idle
    | deferred names moved => exact absurd ⟨_, moved.before, moved.status⟩ hkeep
  | @deferring input claimed mayLeave may =>
    have hmissed := exec_missed (t := input.transition) he rfl
    exact ⟨.of_eq hmissed.world, endsUnclaimed_of_going (.inr rfl)⟩

/-- A fenced step cannot be an update of a row that is being processed. -/
theorem Fenced.not_transitioned {w w' : World} (h : Fenced w w') {t : TransitionInput}
    {old : NotificationRecord} (ht : t.expectedStatus = .PROCESSING)
    (hnext : t.nextStatus ≠ .PROCESSING) : ¬ Transitioned w w' t old := by
  intro hmoved
  have hrow := hmoved.after
  unfold World.row at hrow
  rw [h.notifications] at hrow
  have heq : old = t.apply old := Option.some.inj (hmoved.before.symm.trans hrow)
  have hstatus : old.status = t.nextStatus := congrArg (·.status) heq
  exact hnext (hstatus.symm.trans (hmoved.status.trans ht))

/-- A claimed row that is being processed is hit by an update that expects so. -/
theorem Processed.not_missed {ph : Phases} {w w' : World} {p : Progress}
    {c : NotificationRecord} {o : Op} {r : o.Ret} {choice : Choice} {t : TransitionInput}
    (h : Processed w c.id) (hl : Ledgers ph w) (hd : Dispatching ph i p) (hc : p.claimed = some c)
    (he : exec w o choice = some (r, w')) (hn : t.notificationId = c.id)
    (ha : t.applicationId = c.applicationId) (ht : t.expectedStatus = .PROCESSING) :
    missed o r ≠ some t := by
  intro hm
  obtain ⟨row, hrow, hstatus⟩ := h
  obtain ⟨row', hrow', hkept⟩ := hl.claimed hd hc
  cases hrow.symm.trans hrow'
  exact (exec_missed he hm).zeroRows row (hn ▸ hrow) (hkept.applicationId.trans ha.symm)
    (hstatus.trans ht.symm)

/-- Whoever trespasses writes something, or returns something else than `not_claimable`. -/
theorem trespass_shows {ph : Phases} {w w' : World} {p : Progress} {o : Op} {r : o.Ret}
    {choice : Choice} (hd : Dispatching ph i p) (ho : p.Allows o) (hl : Ledgers ph w)
    (he : exec w o choice = some (r, w')) (htrespass : TrespassesWith w o)
    (hfenced : Fenced w w') : ∃ outcome, (p.advance o r).stage = .exited outcome ∧
      outcome ≠ .not_claimable := by
  cases o <;> try exact htrespass.elim
  case transitionAndRecord notification step =>
    refine ⟨_, rfl, ?_⟩
    split <;> exact nofun
  case enqueueDispatch => exact ⟨_, rfl, nofun⟩
  case deferTransition input =>
    exfalso
    cases r with
    | true =>
      cases exec_effect he input.notification.id with
      | kept row ledger idle => exact absurd rfl idle
      | deferred names moved => exact hfenced.not_transitioned (t := input.transition) rfl nofun moved
    | false =>
      exact Processed.not_missed (t := input.transition) htrespass hl hd ho.1 he rfl rfl rfl rfl
  case recordSent input =>
    exfalso
    cases r with
    | true =>
      cases exec_effect he input.notification.id with
      | kept row ledger idle => exact absurd rfl idle
      | sent names moved => exact hfenced.not_transitioned (t := input.transition) rfl nofun moved
    | false =>
      exact Processed.not_missed (t := input.transition) htrespass hl hd ho.2.1 he rfl rfl rfl rfl

/-- **Claim fencing.** Along any sequence of steps, a dispatch that lost its claim leaves no trace
and returns `not_claimable` exactly if it never comes to retry, to fail or to insert the job of
`deferQuietly`, and defers or records a success only while the row is not being processed. -/
theorem fencing_iff (hw : Fresh w) (ls : List (Label (platform configuration))) :
    Always FencesOff (System.start w) ls ↔ Always KeepsOff (System.start w) ls := by
  refine always_iff ls fun s l s' hr hs => ?_
  have hd := disciplined_run hr
  have hsound := sound_run hw hr
  have hd' := hd.step hs
  constructor
  · rintro hfences i choice o rfl hlost hnext htrespass
    obtain ⟨hfenced, hreturns⟩ := hfences i choice s' rfl hlost hs
    obtain ⟨p, hp, -, -⟩ := hlost
    cases hd.stepped hs with
    | @advanced _ _ o' r q phases' crashed live step =>
      have ho : o' = o := Option.some.inj (step.nextOp.symm.trans hnext)
      subst ho
      have hq := Option.some.inj (step.before.symm.trans hp)
      subst hq
      obtain ⟨outcome, hstage, hne⟩ :=
        trespass_shows hp step.allowed hsound.ledgers step.exec htrespass hfenced
      obtain ⟨request, rest, ht, -⟩ := step.running
      obtain ⟨result, hreturned, rfl⟩ := returned_of_exited hd' step.after hstage ht
      exact hne (hreturns result hreturned)
  · rintro hkeeps i choice s₁ rfl hlost hs₁
    cases hs.symm.trans hs₁
    have hkeep := hkeeps i choice
    obtain ⟨p, hp, hgoing, hheld⟩ := hlost
    cases hd.stepped hs with
    | @advanced _ _ o r q phases' crashed live step =>
      have hq := Option.some.inj (step.before.symm.trans hp)
      subst hq
      have hm : Move p o r (p.advance o r) := move_of_allows step.allowed
      obtain ⟨hfenced, hends⟩ := hm.fenced hp hgoing hheld hsound.ledgers step.exec
        (hkeep o rfl ⟨p, hp, hgoing, hheld⟩ step.nextOp)
      refine ⟨hfenced, fun result hreturned => ?_⟩
      rcases returned_stage hd' step.after hreturned with h | ⟨h, -⟩
      · exact hends.2 _ h
      · exact absurd h hends.1

/-! ## Two runs -/

instance (w : World) (n : Uuid) : Decidable (Processed w n) :=
  decidable_of_iff ((w.row n).any (·.status = .PROCESSING) = true) <| by
    simp [Processed, Option.any_eq_true]

/-- The row of its notification is being processed under the token of dispatch `i`. -/
def isHolding (s : System (platform configuration)) (i : Nat) : Bool :=
  match phases s i with
  | some (.dispatching p) => (s.world.row p.input.notificationId).any fun r =>
      r.status = .PROCESSING ∧ p.token.isSome ∧ r.claimToken = p.token
  | _ => false

theorem not_lost_of_isHolding {i : Nat} (h : isHolding s i = true) : ¬ Lost s i := by
  rintro ⟨p, hp, -, hlost⟩
  have hphase : phases s i = some (.dispatching p) := hp
  simp only [isHolding, hphase] at h
  obtain ⟨r, hr, h⟩ := (Option.any_eq_true _ _).1 h
  obtain ⟨hstatus, hsome, htoken⟩ := of_decide_eq_true h
  obtain ⟨t, ht⟩ := Option.isSome_iff_exists.1 hsome
  exact hlost ⟨p, t, r, hp, ht, hr, hstatus, htoken.trans ht⟩

/-- Whoever is about to trespass holds its row. -/
def keepsOff (s : System (platform configuration)) : Label (platform configuration) → Bool
  | .advance i _ => isHolding s i || (s.nextOp i).all fun o => match o with
    | .transitionAndRecord _ _ | .enqueueDispatch _ => false
    | .deferTransition input => !decide (Processed s.world input.notification.id)
    | .recordSent input => !decide (Processed s.world input.notification.id)
    | _ => true
  | _ => true

theorem KeepsOff.of_check (h : keepsOff s l = true) : KeepsOff s l := by
  rintro i choice o rfl hlost hnext htrespass
  simp only [keepsOff, hnext, Option.all_some, Bool.or_eq_true] at h
  have hkeeps := h.resolve_left fun hheld => not_lost_of_isHolding hheld hlost
  cases o <;> try exact htrespass
  case transitionAndRecord | enqueueDispatch => cases hkeeps
  case deferTransition | recordSent => simp [show Processed s.world _ from htrespass] at hkeeps

/-- The first dispatch learns that its message was accepted when the notification is already
`SENT`. -/
def outlived : List Sample.Step :=
  Sample.resent ++ Sample.accepted 0 "M1" 600000 ++ [.advance 0 .nothing]

/-- It leaves the row with the message of the dispatch that recorded. -/
theorem fencing_iff_outlived :
    Always FencesOff (System.start (Sample.world .RETRY)) outlived ∧
      ((Sample.run .RETRY outlived).world.row 7).any (fun r =>
        r.status = .SENT ∧ r.providerMessageId = some "M2") = true := by
  have hkeeps : Always KeepsOff (System.start (Sample.world .RETRY)) outlived :=
    always_of_checksEach (b := keepsOff) (by decide +kernel) fun _ _ _ => KeepsOff.of_check
  exact ⟨(fencing_iff (Sample.fresh_world .RETRY) outlived).2 hkeeps, by decide +kernel⟩

/-- A worker waits for WhatsApp's answer while its claim is reaped and a second dispatch claims the
notification; then the answer comes. -/
def overtaken : List Sample.Step :=
  Sample.dispatching 2 ++ Sample.sends 0 0 true ++ Sample.maintains 2 400000 ++
    [.advance 2 .nothing] ++ Sample.claims 1 400000 ++ Sample.accepted 0 "M1" 400000

/-- The first dispatch makes the row of the second `SENT`. -/
theorem stale_success_recorded :
    ∃ (s : System (platform Sample.configuration)) (l : Label (platform Sample.configuration)),
      Run Any (System.start (Sample.world .RETRY)) s ∧ ¬ FencesOff s l := by
  refine ⟨Sample.run .RETRY overtaken, .advance 0 .nothing, Sample.run_any .RETRY _, fun h => ?_⟩
  have hlost : Lost (Sample.run .RETRY overtaken) 0 := by
    refine ⟨_, rfl, .inl rfl, fun hheld => ?_⟩
    exact absurd hheld.tokenOf (by decide +kernel)
  obtain ⟨hfenced, -⟩ := h 0 .nothing
    ((Sample.run .RETRY overtaken).after [.advance 0 .nothing]) rfl hlost rfl
  have hrow : ((Sample.run .RETRY overtaken).after [.advance 0 .nothing]).world.row 7 =
      (Sample.run .RETRY overtaken).world.row 7 := by
    unfold World.row
    rw [hfenced.notifications]
  exact absurd hrow (by decide +kernel)

end Fencing

end NotificationPlatform
