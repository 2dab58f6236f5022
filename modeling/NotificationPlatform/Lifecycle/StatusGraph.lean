import NotificationPlatform.Lifecycle.Writes

/-!
# The status graph

The transitions are written down twice, for the services and for the trigger. Whatever a service
asks for in a reachable state is a transition of both, and satisfies every CHECK constraint of the
table, so the database never turns a write of a service down on either ground.
-/

namespace NotificationPlatform

open Interleaving

/-! ## The two graphs -/

theorem mem_transitionRows {a b : NotificationStatus} :
    (a, b) ∈ notificationStatusTransitionRows ↔ canTransitionNotificationStatus a b = true := by
  cases a <;> cases b <;> decide

theorem enforce_iff {a b : NotificationStatus} : enforceNotificationStatusTransition a b = true ↔
    b = a ∨ canTransitionNotificationStatus a b = true := by
  simp only [enforceNotificationStatusTransition, decide_eq_true_eq, mem_transitionRows,
    eq_comm (a := a)]

/-! ## The CHECK constraints -/

structure Checks (r : NotificationRecord) : Prop where
  scheduled : r.status = .SCHEDULED → r.scheduledAt.isSome = true
  retrying : r.status = .RETRYING → r.nextAttemptAt.isSome = true
  sent : r.status = .SENT ∨ r.status = .DELIVERED → r.providerMessageId.isSome = true
  maximumAttempts : 1 ≤ r.maximumAttempts ∧ r.maximumAttempts ≤ 10
  acknowledgement : -1 ≤ r.providerAcknowledgement ∧ r.providerAcknowledgement ≤ 4
  body : 1 ≤ r.renderedBody.length ∧ r.renderedBody.length ≤ 4096

theorem satisfiesChecks_iff {r : NotificationRecord} : r.satisfiesChecks = true ↔ Checks r := by
  simp only [NotificationRecord.satisfiesChecks, decide_eq_true_eq, ne_eq, ← not_or,
    ← imp_iff_not_or]
  constructor
  · rintro ⟨h₁, h₂, h₃, h₄, h₅, h₆⟩
    exact ⟨h₁, h₂, h₃, h₄, h₅, h₆⟩
  · rintro ⟨h₁, h₂, h₃, h₄, h₅, h₆⟩
    exact ⟨h₁, h₂, h₃, h₄, h₅, h₆⟩

/-- Every row satisfies the constraints. -/
def Checked (w : World) : Prop := ∀ n r, w.row n = some r → Checks r

/-- A write that the trigger and the constraints let through. -/
structure Legal (old new : NotificationRecord) : Prop where
  edge : new.status = old.status ∨ canTransitionNotificationStatus old.status new.status = true
  checks : Checks new

theorem value_bounds (a : DeliveryAcknowledgement) : -1 ≤ a.value ∧ a.value ≤ 4 := by
  cases a <;> decide

/-! ## What the operations ask for -/

section Legal

variable {w : World} {old new : NotificationRecord}

/-- The transitions of the services, in the state they expect. -/
theorem legal_transition {t : TransitionInput} (hw : Checked w) (h : (old, new) ∈ t.attempted w)
    (hedge : t.nextStatus = t.expectedStatus ∨
      canTransitionNotificationStatus t.expectedStatus t.nextStatus = true)
    (hscheduled : t.nextStatus = .SCHEDULED → t.expectedStatus = .SCHEDULED)
    (hretrying : t.nextStatus = .RETRYING → (∃ d, t.changes.nextAttemptAt = some (some d)) ∨
      (t.expectedStatus = .RETRYING ∧ t.changes.nextAttemptAt = none))
    (hsent : t.nextStatus = .SENT ∨ t.nextStatus = .DELIVERED →
      (∃ m, t.changes.providerMessageId = some (some m)) ∨
      ((t.expectedStatus = .SENT ∨ t.expectedStatus = .DELIVERED) ∧
        t.changes.providerMessageId = none))
    (hack : ∀ v, t.changes.providerAcknowledgement = some v → -1 ≤ v ∧ v ≤ 4) :
    Legal old new := by
  obtain ⟨hrow, hp, rfl⟩ := mem_attempted.1 h
  simp only [Bool.decide_and, Bool.and_eq_true, decide_eq_true_eq] at hp
  have hold := hw _ _ hrow
  have hstatus : old.status = t.expectedStatus := hp.2
  have hnext : (t.apply old).status = t.nextStatus := rfl
  refine ⟨by rw [hnext, hstatus]; exact hedge, ?_⟩
  constructor
  · intro hs
    exact hold.scheduled (hstatus.trans (hscheduled hs))
  · intro hs
    change (t.changes.nextAttemptAt.getD old.nextAttemptAt).isSome = true
    rcases hretrying hs with ⟨d, hd⟩ | ⟨h₁, h₂⟩
    · rw [hd]
      rfl
    · rw [h₂]
      exact hold.retrying (hstatus.trans h₁)
  · intro hs
    change (t.changes.providerMessageId.getD old.providerMessageId).isSome = true
    rcases hsent hs with ⟨m, hm⟩ | ⟨h₁, h₂⟩
    · rw [hm]
      rfl
    · rw [h₂]
      exact hold.sent (hstatus ▸ h₁)
  · exact hold.maximumAttempts
  · change -1 ≤ t.changes.providerAcknowledgement.getD _ ∧ _
    cases hv : t.changes.providerAcknowledgement with
    | none =>
      simp only [NotificationRepository.TransitionInput.apply, hv, Option.getD_none]
      exact hold.acknowledgement
    | some v =>
      simp only [NotificationRepository.TransitionInput.apply, hv, Option.getD_some]
      exact hack v hv
  · exact hold.body

/-- A transition that says nothing of an acknowledgement, to a status that needs no message. -/
theorem legal_simple {t : TransitionInput} (hw : Checked w) (h : (old, new) ∈ t.attempted w)
    (hedge : canTransitionNotificationStatus t.expectedStatus t.nextStatus = true)
    (hnext : t.nextStatus = .FAILED ∨ t.nextStatus = .CANCELLED ∨
      (t.nextStatus = .RETRYING ∧ ∃ d, t.changes.nextAttemptAt = some (some d)))
    (hack : t.changes.providerAcknowledgement = none) : Legal old new := by
  refine legal_transition hw h (.inr hedge) ?_ ?_ ?_ ?_
  · intro hs
    rcases hnext with hn | hn | ⟨hn, -⟩ <;> exact absurd (hs.symm.trans hn) nofun
  · intro hs
    rcases hnext with hn | hn | ⟨-, hd⟩
    · exact absurd (hs.symm.trans hn) nofun
    · exact absurd (hs.symm.trans hn) nofun
    · exact .inl hd
  · rintro (hs | hs) <;> rcases hnext with hn | hn | ⟨hn, -⟩ <;>
      exact absurd (hs.symm.trans hn) nofun
  · intro v hv
    exact absurd (hack.symm.trans hv) nofun

theorem legal_acknowledgement {notification : NotificationRecord}
    {merged received : DeliveryAcknowledgement} {now : Date} (hw : Checked w)
    (h : (old, new) ∈ (ProcessWebhookService.acknowledgementInput notification merged received
      now).transition.attempted w) : Legal old new := by
  have hresolve := resolveStatus_eq_or notification.status merged
  have hnext : (ProcessWebhookService.acknowledgementInput notification merged received
    now).transition.nextStatus =
      ProcessWebhookService.resolveStatus notification.status merged := rfl
  refine legal_transition hw h ?_ ?_ ?_ ?_ ?_
  · rw [hnext]
    rcases hresolve with hs | ⟨hsent, hs | hs⟩
    · exact .inl hs
    · right
      change canTransitionNotificationStatus notification.status _ = true
      rw [hsent] at hs ⊢
      rw [hs]
      rfl
    · right
      change canTransitionNotificationStatus notification.status _ = true
      rw [hsent] at hs ⊢
      rw [hs]
      rfl
  · intro h'
    rw [hnext] at h'
    rcases hresolve with hs | ⟨-, hs | hs⟩
    · exact hs.symm.trans h'
    · exact absurd (hs.symm.trans h') nofun
    · exact absurd (hs.symm.trans h') nofun
  · intro h'
    rw [hnext] at h'
    rcases hresolve with hs | ⟨-, hs | hs⟩
    · exact .inr ⟨hs.symm.trans h', rfl⟩
    · exact absurd (hs.symm.trans h') nofun
    · exact absurd (hs.symm.trans h') nofun
  · intro h'
    rw [hnext] at h'
    rcases hresolve with hs | ⟨hsent, -⟩
    · exact .inr ⟨h'.imp hs.symm.trans hs.symm.trans, rfl⟩
    · exact .inr ⟨.inl hsent, rfl⟩
  · intro v hv
    cases hv
    exact value_bounds merged

/-- **Whatever a service asks for is legal.** -/
theorem writes_legal {q : DeliveryPhase} {o : Op} {c : Choice} (ho : q.Allows o) (hw : Checked w)
    (h : (old, new) ∈ o.writes w c) : Legal old new := by
  cases o
  case promoteScheduled =>
    obtain ⟨hrow, hp, rfl⟩ := mem_attempted.1 h
    have hold := hw _ _ hrow
    simp only [Bool.decide_and, Bool.and_eq_true, decide_eq_true_eq] at hp
    exact ⟨.inr (by rw [hp.2.1]; rfl), by simp, by simp, by simp, hold.maximumAttempts,
      hold.acknowledgement, hold.body⟩
  case claimForDispatch =>
    obtain ⟨hrow, hp, rfl⟩ := mem_attempted.1 h
    have hold := hw _ _ hrow
    simp only [Bool.decide_and, Bool.and_eq_true, decide_eq_true_eq,
      NotificationRepository.isClaimable, Bool.decide_or, Bool.or_eq_true] at hp
    refine ⟨.inr ?_, by simp, by simp, by simp, hold.maximumAttempts, hold.acknowledgement,
      hold.body⟩
    rcases hp.2 with hs | ⟨hs, -⟩ <;> rw [hs] <;> rfl
  case beginAttempt =>
    obtain ⟨hrow, -, rfl⟩ := mem_attempted.1 h
    have hold := hw _ _ hrow
    exact ⟨.inl rfl, hold.scheduled, hold.retrying, hold.sent, hold.maximumAttempts,
      hold.acknowledgement, hold.body⟩
  case recordSent input =>
    exact legal_transition hw h (.inr rfl) (by rintro ⟨⟩) (by rintro ⟨⟩) (fun _ => .inl ⟨_, rfl⟩)
      (by rintro _ ⟨⟩)
  case deferTransition => exact legal_simple hw h rfl (.inr (.inr ⟨rfl, _, rfl⟩)) rfl
  case releaseClaim => exact legal_simple hw h rfl (.inr (.inr ⟨rfl, _, rfl⟩)) rfl
  case transitionAndRecord notification step =>
    obtain ⟨p, -, hp⟩ := dispatching_of_allows rfl ho
    rcases hp.2.2 with ⟨hs, failure, now, hc⟩ | ⟨hs, -, failure, dueAt, hc⟩
    · refine legal_simple hw h ?_ (.inl hs) ?_
      · change canTransitionNotificationStatus .PROCESSING step.nextStatus = true
        rw [hs]
        rfl
      · change step.changes.providerAcknowledgement = none
        rw [hc]
        rfl
    · refine legal_simple hw h ?_ (.inr (.inr ⟨hs, dueAt, ?_⟩)) ?_
      · change canTransitionNotificationStatus .PROCESSING step.nextStatus = true
        rw [hs]
        rfl
      · change step.changes.nextAttemptAt = some (some dueAt)
        rw [hc]
        rfl
      · change step.changes.providerAcknowledgement = none
        rw [hc]
        rfl
  case cancelTransition => exact legal_simple hw h (cancellable_of_allows ho) (.inr (.inl rfl)) rfl
  case cancelWaitingTransition input =>
    cases c
    case locked ids =>
      obtain ⟨r, hr, he⟩ := List.mem_map.1 h
      cases he
      obtain ⟨hmem, hp⟩ := Relational.Table.mem_select.1 hr
      have hold := hw _ _ (Relational.Table.find?_key hmem)
      simp only [CancelWaitingInput.selects, Bool.decide_and, Bool.and_eq_true,
        decide_eq_true_eq, Bool.decide_or, Bool.or_eq_true] at hp
      have hcancelled : (old.cancel input.now).status = .CANCELLED := rfl
      refine ⟨.inr ?_, ?_, ?_, ?_, hold.maximumAttempts, hold.acknowledgement, hold.body⟩
      · rcases hp.2.1 with hs | hs <;> rw [hs] <;> rfl
      all_goals simp [hcancelled]
    all_goals exact absurd h List.not_mem_nil
  case acknowledgementTransition =>
    obtain ⟨notification, merged, received, now, rfl⟩ := acknowledgement_of_allows ho
    exact legal_acknowledgement hw h
  all_goals exact absurd h List.not_mem_nil

end Legal

/-! ## New notifications -/

/-- What the schemas of the creation requests admit. -/
structure NotificationDraft.Valid (draft : NotificationDraft) : Prop where
  body : 1 ≤ utf16Length draft.body ∧ utf16Length draft.body ≤ 4096
  maximumAttempts : ∀ m ∈ draft.maximumAttempts, 1 ≤ m ∧ m ≤ 10

/-- A text has at most as many characters as UTF-16 units, and some if it has some. -/
theorem length_bounds (text : String) :
    text.length ≤ utf16Length text ∧ (1 ≤ utf16Length text → 1 ≤ text.length) := by
  rw [← String.length_toList, utf16Length]
  induction text.toList with
  | nil => simp
  | cons c l ih =>
    simp only [List.length_cons, List.map_cons, List.sum_cons]
    split <;> omega

theorem NotificationDraft.Valid.checks {draft : NotificationDraft} (h : draft.Valid)
    (now : Timestamptz) : Checks (draft.row now) where
  scheduled := by
    simp only [NotificationDraft.row, NotificationDraft.status]
    split
    · rename_i hs
      exact fun _ => hs
    · simp
  retrying := by
    simp only [NotificationDraft.row, NotificationDraft.status]
    split <;> simp
  sent := by
    simp only [NotificationDraft.row, NotificationDraft.status]
    split <;> simp
  maximumAttempts := by
    change 1 ≤ draft.maximumAttempts.getD 5 ∧ draft.maximumAttempts.getD 5 ≤ 10
    cases hm : draft.maximumAttempts with
    | none => exact ⟨by decide, by decide⟩
    | some m => exact h.maximumAttempts m hm
  acknowledgement := value_bounds .pending
  body := by
    obtain ⟨hle, hpos⟩ := length_bounds draft.body
    exact ⟨hpos h.body.1, hle.trans h.body.2⟩

/-! ## Reachable states -/

theorem Checked.exec {w w' : World} {o : Op} {c : Choice} {r : o.Ret} (h : Checked w)
    (he : NotificationPlatform.exec w o c = some (r, w')) : Checked w' := by
  intro n new hnew
  obtain ⟨old, hold, -⟩ := row_before he hnew
  rcases exec_writes he hold with hkept | ⟨new', hmem, hnew'⟩
  · cases hkept.symm.trans hnew
    exact h n new hold
  · cases hnew'.symm.trans hnew
    cases haccepts : acceptsWrite w old new with
    | false => exact absurd ((exec_refused hmem haccepts).symm.trans he) nofun
    | true =>
      simp only [acceptsWrite, Bool.decide_and, Bool.and_eq_true, decide_eq_true_eq] at haccepts
      exact satisfiesChecks_iff.1 haccepts.2.1

theorem Checked.outside {w w' : World} {e : Event} (h : Checked w)
    (he : NotificationPlatform.outside w e = some w') : Checked w' := by
  intro n r hr
  rcases (outside_rows he n).2.2 with hrow | ⟨draft, -, -, hrow, hchecks⟩
  · exact h n r (hrow.symm.trans hr)
  · cases hrow.symm.trans hr
    exact satisfiesChecks_iff.1 hchecks

section Runs

variable {configuration : Configuration} {P : System (platform configuration) →
  Label (platform configuration) → Prop} {w : World} {s s' : System (platform configuration)}
  {l : Label (platform configuration)} {n : Uuid} {old : NotificationRecord}

theorem checked_run (hw : Fresh w) (h : Run P (System.start w) s) : Checked s.world :=
  Discipline.run_invariant (D := deliveryDiscipline configuration) (fun _ w => Checked w)
    (fun n _ hr => absurd ((hw.notifications n).symm.trans hr) nofun) (fun _ hi _ => hi)
    (fun hi _ _ _ he => hi.exec he) (fun hi he => hi.outside he) h

/-- One step moves a notification along the graph. -/
theorem edge_step (hw : Fresh w) (hr : Run P (System.start w) s) (hs : s.step l = some s')
    (hold : s.world.row n = some old) : ∃ new, s'.world.row n = some new ∧
      (new.status = old.status ∨ canTransitionNotificationStatus old.status new.status = true) := by
  cases (disciplined_run hr).stepped hs with
  | spawned _ _ _ world | crashed _ _ world =>
    rw [world]
    exact ⟨old, hold, .inl rfl⟩
  | outside _ _ world => exact ⟨old, row_kept_outside world hold, .inl rfl⟩
  | advanced _ _ _ step =>
    rcases exec_writes step.exec hold with hkept | ⟨new, hmem, hnew⟩
    · exact ⟨old, hkept, .inl rfl⟩
    · exact ⟨new, hnew, (writes_legal step.allowed (checked_run hw hr) hmem).edge⟩

/-- A terminal status is never left. -/
theorem terminal_run (hw : Fresh w) (hr : Run P (System.start w) s) (h : Run Any s s')
    (hold : s.world.row n = some old) (hterminal : isTerminalNotificationStatus old.status = true) :
    ∃ new, s'.world.row n = some new ∧ new.status = old.status := by
  refine sound_induction (fun s => ∃ new, s.world.row n = some new ∧ new.status = old.status)
    hw hr ⟨old, hold, rfl⟩ ?_ h
  rintro s₁ l s₂ hr₁ hs - ⟨mid, hmid, hstatus⟩ - -
  obtain ⟨new, hnew, hedge⟩ := edge_step hw hr₁ hs hmid
  refine ⟨new, hnew, ?_⟩
  rcases hedge with hsame | hedge
  · exact hsame.trans hstatus
  · rw [hstatus, canTransitionNotificationStatus, isTerminal_iff.1 hterminal] at hedge
    exact absurd hedge nofun

/-- **Status graph refinement.** The two graphs are one. Whatever a service is about to write, in
any reachable state, keeps the status or follows the graph and satisfies every CHECK constraint, so
only the unique index on messages can turn it down; the rows requests create do too. Every step
moves along the graph, and a terminal status is never left. -/
theorem status_graph (hw : Fresh w) (hr : Run Any (System.start w) s) :
    (∀ a b, (a, b) ∈ notificationStatusTransitionRows ↔
      canTransitionNotificationStatus a b = true) ∧
    (∀ i o c old new, s.nextOp i = some o → (old, new) ∈ o.writes s.world c →
      (new.status = old.status ∨ canTransitionNotificationStatus old.status new.status = true) ∧
      enforceNotificationStatusTransition old.status new.status = true ∧
      new.satisfiesChecks = true ∧
      acceptsWrite s.world old new = providerMessageIdIsFree s.world new) ∧
    (∀ draft : NotificationDraft, draft.Valid → ∀ now, (draft.row now).satisfiesChecks = true) ∧
    (∀ l s' n old, s.step l = some s' → s.world.row n = some old →
      ∃ new, s'.world.row n = some new ∧
        (new.status = old.status ∨
          canTransitionNotificationStatus old.status new.status = true)) ∧
    (∀ s' n old, Run Any s s' → s.world.row n = some old →
      isTerminalNotificationStatus old.status = true →
      ∃ new, s'.world.row n = some new ∧ new.status = old.status) := by
  refine ⟨fun a b => mem_transitionRows, ?_, ?_, ?_, ?_⟩
  · intro i o c old new ho hmem
    obtain ⟨q, -, hq⟩ := Discipline.allowed_next (D := deliveryDiscipline configuration) hr ho
    have hlegal := writes_legal hq (checked_run hw hr) hmem
    have henforce := enforce_iff.2 hlegal.edge
    have hchecks := satisfiesChecks_iff.2 hlegal.checks
    exact ⟨hlegal.edge, henforce, hchecks, by simp [acceptsWrite, henforce, hchecks]⟩
  · intro draft hvalid now
    exact satisfiesChecks_iff.2 (hvalid.checks now)
  · intro l s' n old hs hold
    exact edge_step hw hr hs hold
  · intro s' n old h hold hterminal
    exact terminal_run hw hr h hold hterminal

/-- A dispatch about to take a claim. -/
theorem status_graph_claim :
    let s := Sample.run .RETRY (Sample.dispatching 1 ++ (Sample.claims 0 0).take 3)
    ∃ o old new, s.nextOp 0 = some o ∧ (old, new) ∈ o.writes s.world .nothing ∧
      new.status = .PROCESSING ∧
      enforceNotificationStatusTransition old.status new.status = true ∧
      acceptsWrite s.world old new = providerMessageIdIsFree s.world new := by
  intro s
  have hnext : s.nextOp 0 = some (.claimForDispatch 1 7 1 0) := rfl
  have hmem : (Sample.draft.row 0, { Sample.draft.row 0 with
      status := .PROCESSING, claimToken := some 1, claimedAt := some 0 }) ∈
        Op.writes s.world (.claimForDispatch 1 7 1 0) .nothing := mem_attempted.2 ⟨rfl, rfl, rfl⟩
  obtain ⟨-, henforce, -, haccepts⟩ := (status_graph (Sample.fresh_world .RETRY)
    (Sample.run_any .RETRY _)).2.1 0 _ .nothing _ _ hnext hmem
  exact ⟨_, _, _, hnext, hmem, rfl, henforce, haccepts⟩

end Runs

end NotificationPlatform
