import NotificationPlatform.Lifecycle.Writes
import NotificationPlatform.Timing.Clock

/-!
# Nothing goes out early

A notification leaves `SCHEDULED` and `RETRYING` through `promoteScheduled` and `claimForDispatch`
only, and both are called with a time the dispatch read. So a row that is being processed is past
its `scheduledAt` and past every `nextAttemptAt` it ever waited for.
-/

namespace NotificationPlatform

open Interleaving

/-! ## What the writes do to the due times -/

/-- Taking a notification up is done at a time that has come. -/
def InTime (w : World) : Op → Prop
  | .promoteScheduled _ _ now => now ≤ toDate w.now
  | .claimForDispatch _ _ _ now => now ≤ toDate w.now
  | _ => True

section Writes

variable {w : World} {old new : NotificationRecord} {o : Op} {c : Choice} {q : DeliveryPhase}

theorem expected_status {t : TransitionInput} (h : (old, new) ∈ t.attempted w) :
    old.status = t.expectedStatus := by
  obtain ⟨-, hp, -⟩ := mem_attempted.1 h
  simp only [Bool.decide_and, Bool.and_eq_true, decide_eq_true_eq] at hp
  exact hp.2

/-- A row that is let go was let go before, or its time has come. -/
theorem writes_scheduled (ho : q.Allows o) (ht : InTime w o) (h : (old, new) ∈ o.writes w c)
    (hs : new.status ≠ .SCHEDULED) (hc : new.status ≠ .CANCELLED) :
    (old.status ≠ .SCHEDULED ∧ old.status ≠ .CANCELLED) ∨
      ∀ d ∈ old.scheduledAt, d ≤ toDate w.now := by
  have hprocessing : old.status = .PROCESSING → old.status ≠ .SCHEDULED ∧ old.status ≠ .CANCELLED :=
    fun hp => by rw [hp]; exact ⟨by decide, by decide⟩
  cases o
  case promoteScheduled a n now =>
    obtain ⟨-, hp, -⟩ := mem_attempted.1 h
    simp only [Bool.decide_and, Bool.and_eq_true, decide_eq_true_eq] at hp
    refine .inr fun d hd => ?_
    have hdue := hp.2.2
    rw [Option.mem_def.1 hd] at hdue
    exact (of_decide_eq_true hdue).trans ht
  case claimForDispatch a n t now =>
    obtain ⟨-, hp, -⟩ := mem_attempted.1 h
    simp only [Bool.decide_and, Bool.and_eq_true, decide_eq_true_eq, Bool.decide_or, Bool.or_eq_true,
      NotificationRepository.isClaimable] at hp
    left
    rcases hp.2 with hp | ⟨hp, -⟩ <;> rw [hp] <;> exact ⟨by decide, by decide⟩
  case beginAttempt =>
    obtain ⟨-, hp, -⟩ := mem_attempted.1 h
    simp only [Bool.decide_and, Bool.and_eq_true, decide_eq_true_eq] at hp
    exact .inl (hprocessing hp.2.2)
  case recordSent => exact .inl (hprocessing (expected_status h))
  case deferTransition => exact .inl (hprocessing (expected_status h))
  case transitionAndRecord => exact .inl (hprocessing (expected_status h))
  case releaseClaim => exact .inl (hprocessing (expected_status h))
  case cancelTransition =>
    obtain ⟨-, -, rfl⟩ := mem_attempted.1 h
    exact absurd rfl hc
  case cancelWaitingTransition =>
    cases c
    case locked =>
      obtain ⟨r, -, he⟩ := List.mem_map.1 h
      cases he
      exact absurd rfl hc
    all_goals exact absurd h List.not_mem_nil
  case acknowledgementTransition =>
    obtain ⟨notification, merged, received, now, rfl⟩ := acknowledgement_of_allows ho
    have hold := expected_status h
    obtain ⟨-, -, rfl⟩ := mem_attempted.1 h
    left
    rcases resolveStatus_eq_or notification.status merged with hsame | ⟨hsent, -⟩
    · have hold' : old.status = ProcessWebhookService.resolveStatus notification.status merged :=
        hold.trans hsame.symm
      exact ⟨hold' ▸ hs, hold' ▸ hc⟩
    · have hold' : old.status = .SENT := hold.trans hsent
      rw [hold']
      exact ⟨by decide, by decide⟩
  all_goals exact absurd h List.not_mem_nil

/-- A notification that waits for its next attempt leaves the wait when the time has come, or is
cancelled. -/
theorem writes_retrying (ho : q.Allows o) (ht : InTime w o) (h : (old, new) ∈ o.writes w c)
    {d : Date} (hs : old.status = .RETRYING) (hd : old.nextAttemptAt = some d) :
    d ≤ toDate w.now ∨ (new.status = .RETRYING ∧ new.nextAttemptAt = some d) ∨
      new.status = .CANCELLED := by
  have hprocessing : old.status = .PROCESSING → False := fun hp => by cases hs.symm.trans hp
  cases o
  case promoteScheduled =>
    obtain ⟨-, hp, -⟩ := mem_attempted.1 h
    simp only [Bool.decide_and, Bool.and_eq_true, decide_eq_true_eq] at hp
    cases hs.symm.trans hp.2.1
  case claimForDispatch a n t now =>
    obtain ⟨-, hp, -⟩ := mem_attempted.1 h
    simp only [Bool.decide_and, Bool.and_eq_true, decide_eq_true_eq,
      NotificationRepository.isClaimable, hs, hd, reduceCtorEq, false_or, true_and,
      Option.any_some] at hp
    exact .inl (hp.2.trans ht)
  case beginAttempt =>
    obtain ⟨-, hp, -⟩ := mem_attempted.1 h
    simp only [Bool.decide_and, Bool.and_eq_true, decide_eq_true_eq] at hp
    exact (hprocessing hp.2.2).elim
  case recordSent => exact (hprocessing (expected_status h)).elim
  case deferTransition => exact (hprocessing (expected_status h)).elim
  case transitionAndRecord => exact (hprocessing (expected_status h)).elim
  case releaseClaim => exact (hprocessing (expected_status h)).elim
  case cancelTransition =>
    obtain ⟨-, -, rfl⟩ := mem_attempted.1 h
    exact .inr (.inr rfl)
  case cancelWaitingTransition =>
    cases c
    case locked =>
      obtain ⟨r, -, he⟩ := List.mem_map.1 h
      cases he
      exact .inr (.inr rfl)
    all_goals exact absurd h List.not_mem_nil
  case acknowledgementTransition =>
    obtain ⟨notification, merged, received, now, rfl⟩ := acknowledgement_of_allows ho
    have hold := expected_status h
    obtain ⟨-, -, rfl⟩ := mem_attempted.1 h
    rcases resolveStatus_eq_or notification.status merged with hsame | ⟨hsent, -⟩
    · exact .inr (.inl ⟨hsame.trans (hold.symm.trans hs), hd⟩)
    · cases hs.symm.trans (hold.trans hsent)
  all_goals exact absurd h List.not_mem_nil

end Writes

section Runs

variable {configuration : Configuration} {P : System (platform configuration) →
  Label (platform configuration) → Prop} {w : World} {s s' : System (platform configuration)}
  {l : Label (platform configuration)} {n : Uuid} {i : Nat}

/-- The conditions on a run: one clock, and a reaper that only releases what was abandoned. -/
def Orderly (s : System (platform configuration)) (l : Label (platform configuration)) : Prop :=
  OnTime s l ∧ ReapsOnlyCrashed s l

/-- Whatever is taken up is taken up in time. -/
theorem inTime_run (hr : Run OnTime (System.start w) s) {choice : Choice} {o : Op} {r : o.Ret}
    {q : DeliveryPhase} (hs : s.step (.advance i choice) = some s')
    (ha : (deliveryDiscipline configuration).Advanced s s' i choice o r q) :
    InTime s.world o := by
  obtain ⟨wp, hwatch⟩ := (watched_run hr).also hs ha
  cases o <;> try exact trivial
  all_goals
    cases wp with
    | serving => exact absurd hwatch.allowed nofun
    | dispatching q => exact (clocked_run hr).arrived hwatch.before hwatch.allowed.2.2.2

/-- Every row that is let go is past its `scheduledAt`. -/
def Scheduled (w : World) : Prop :=
  ∀ n r, w.row n = some r → r.status ≠ .SCHEDULED → r.status ≠ .CANCELLED →
    ∀ d ∈ r.scheduledAt, d ≤ toDate w.now

theorem Scheduled.later {w w' : World} (h : Scheduled w) (hle : w.now ≤ w'.now) {r}
    (hr : w'.row n = w.row n) (hrow : w'.row n = some r) (hs : r.status ≠ .SCHEDULED)
    (hc : r.status ≠ .CANCELLED) : ∀ d ∈ r.scheduledAt, d ≤ toDate w'.now := fun d hd =>
  (h n r (hr.symm.trans hrow) hs hc d hd).trans (toDate_mono hle)

theorem scheduled_run (hw : Fresh w) (h : Run OnTime (System.start w) s) : Scheduled s.world := by
  induction h with
  | refl =>
    intro n r hr
    exact absurd ((hw.notifications n).symm.trans hr) nofun
  | @tail s₁ s₂ l hr _ hs ih =>
    intro n r hrow hstatus hcancelled
    cases (disciplined_run hr).stepped hs with
    | spawned _ _ _ world | crashed _ _ world =>
      rw [world] at hrow ⊢
      exact ih n r hrow hstatus hcancelled
    | outside _ _ world =>
      rcases (outside_cases world n).2.2 with hsame | ⟨draft, -, -, hnew⟩
      · exact ih.later (outside_now world) hsame hrow hstatus hcancelled
      · cases hnew.symm.trans hrow
        intro d hd
        have hd : draft.scheduledAt = some d := hd
        exact absurd (by simp [NotificationDraft.row, NotificationDraft.status, hd]) hstatus
    | @advanced i choice o a q _ _ _ step =>
      have hnow := exec_now step.exec
      obtain ⟨old, hold, -⟩ := row_before step.exec hrow
      rcases exec_writes step.exec hold with hkept | ⟨new, hmem, hnew⟩
      · exact ih.later hnow.ge (hkept.trans hold.symm) hrow hstatus hcancelled
      · cases hnew.symm.trans hrow
        rw [(writes_fixed hmem).1, hnow]
        rcases writes_scheduled step.allowed (inTime_run hr hs step) hmem hstatus hcancelled with
          ⟨h₁, h₂⟩ | hdue
        · exact ih n old hold h₁ h₂
        · exact hdue

/-- The time `d` has come, or notification `n` still waits for it, or was cancelled. -/
def AwaitsUntil (n : Uuid) (d : Date) (w : World) : Prop :=
  d ≤ toDate w.now ∨ ∃ r, w.row n = some r ∧
    ((r.status = .RETRYING ∧ r.nextAttemptAt = some d) ∨ r.status = .CANCELLED)

theorem awaits_run {d : Date} (hr : Run OnTime (System.start w) s)
    (hd : AwaitsUntil n d s.world) (h : Run OnTime s s') : AwaitsUntil n d s'.world := by
  induction h with
  | refl => exact hd
  | @tail s₁ s₂ l h₁ _ hs ih =>
    have hr₁ := hr.trans h₁
    rcases ih with hcome | ⟨r, hrow, hwaits⟩
    · exact .inl (hcome.trans (toDate_mono (now_step hs)))
    · cases (disciplined_run hr₁).stepped hs with
      | spawned _ _ _ world | crashed _ _ world =>
        rw [world]
        exact .inr ⟨r, hrow, hwaits⟩
      | outside _ _ world => exact .inr ⟨r, row_kept_outside world hrow, hwaits⟩
      | @advanced i choice o a q _ _ _ step =>
        rcases exec_writes step.exec hrow with hkept | ⟨new, hmem, hnew⟩
        · exact .inr ⟨r, hkept, hwaits⟩
        · rcases hwaits with ⟨hretrying, hnext⟩ | hcancelled
          · rcases writes_retrying step.allowed (inTime_run hr₁ hs step) hmem hretrying hnext with
              hcome | hstill
            · exact .inl (hcome.trans (toDate_mono (now_step hs)))
            · exact .inr ⟨new, hnew, hstill⟩
          · have hrowStep := (exec_effect step.exec n).row_step step.allowed hrow hnew
            exact .inr ⟨new, hnew, .inr (hrowStep.cancelled_stays hcancelled)⟩

theorem Orderly.run (h : Run Orderly s s') : Run OnTime s s' := h.mono fun _ _ h => h.1

/-- A notification the provider is called for is past its `scheduledAt`. -/
theorem call_scheduled (hw : Fresh w) (hr : Run Orderly (System.start w) s)
    (h : CallStep s l n i) :
    ∃ r, s.world.row n = some r ∧ ∀ d ∈ r.scheduledAt, d ≤ toDate s.world.now := by
  obtain ⟨q, c, conn, -, -, -, -, -, row, -, -, hrow, hstatus, -⟩ :=
    h.cleared hw (hr.mono fun _ _ h => h.2)
  refine ⟨row, hrow, scheduled_run hw (Orderly.run hr) n row hrow ?_ ?_⟩ <;> rw [hstatus] <;>
    exact nofun

/-- A notification the provider is called for is past whatever it ever waited for. -/
theorem call_retrying (hw : Fresh w) (hr : Run Orderly (System.start w) s)
    {r : NotificationRecord} {d : Date} (hrow : s.world.row n = some r)
    (hstatus : r.status = .RETRYING) (hnext : r.nextAttemptAt = some d) (h : Run Orderly s s')
    (hcall : CallStep s' l n i) : d ≤ toDate s'.world.now := by
  have hwaits := awaits_run (Orderly.run hr) (.inr ⟨r, hrow, .inl ⟨hstatus, hnext⟩⟩)
    (Orderly.run h)
  obtain ⟨q, c, conn, -, -, -, -, -, row, -, -, hrow', hprocessing, -⟩ :=
    hcall.cleared hw ((hr.trans h).mono fun _ _ h => h.2)
  rcases hwaits with hcome | ⟨row', hrow'', ⟨hs, -⟩ | hs⟩
  · exact hcome
  · cases hrow''.symm.trans hrow'
    exact absurd (hs.symm.trans hprocessing) nofun
  · cases hrow''.symm.trans hrow'
    exact absurd (hs.symm.trans hprocessing) nofun

end Runs

/-! ## Arriving early -/

/-- What a dispatch does before it has claimed anything. -/
def Op.isOpening : Op → Bool
  | .randomUuid | .promoteScheduled _ _ _ | .appendEvent _ | .claimForDispatch _ _ _ _ => true
  | .findNotificationById _ _ | .enqueueDispatch _ => true
  | o => o.isConnectionOp

section Early

variable {p : Progress} {q : Watch} {o : Op} {w w' : World}

theorem Progress.WellFormed.opening (hp : p.WellFormed) (hc : p.claimed = none)
    (ho : p.Allows o) : o.isOpening = true := by
  have hidle : p.stage.isActive = false := by
    cases hs : p.stage.isActive with
    | false => rfl
    | true =>
      have hsome := hp.active hs
      rw [hc] at hsome
      cases hsome
  have hnone : ∀ {c}, p.claimed = some c → False := fun h => by
    rw [hc] at h
    cases h
  cases o <;> try rfl
  case beginAttempt => exact absurd (ho.1 ▸ hidle) nofun
  case recordSent => exact (hnone ho.2.1).elim
  case deferTransition => exact (hnone ho.1).elim
  case transitionAndRecord => exact (hnone ho.1).elim
  case findUnresolved => exact absurd (ho.1 ▸ hidle) nofun
  case resolveAttempt =>
    obtain ⟨⟨c, h, -⟩, -⟩ := ho
    exact (hnone h).elim
  case findDeliverySettings =>
    obtain ⟨-, c, h, -⟩ := ho
    exact (hnone h).elim
  case sendTextMessage => exact absurd (ho.1 ▸ hidle) nofun
  case sendTextMessageAnswer =>
    have hs : p.stage = .awaiting := ho
    exact absurd (hs ▸ hidle) nofun
  all_goals exact absurd ho.1 (by simp [Op.isConnectionOp])

theorem enqueueDispatch_jobs {job : DispatchJob} {r : Bool}
    (h : enqueueDispatch job w = some (r, w')) :
    ∀ j ∈ w'.dispatchJobs, j ∈ w.dispatchJobs ∨ j = job := by
  unfold enqueueDispatch at h
  split at h
  · cases h
    exact fun j hj => .inl hj
  · cases h
    intro j hj
    exact (List.mem_append.1 hj).imp id List.mem_singleton.1

/-- The notification is on file, and not one that is promoted at time `t`, now or later. -/
def Unpromotable (n : Uuid) (t : Date) (w : World) : Prop :=
  ∃ r, w.row n = some r ∧ (r.status = .SCHEDULED → ∀ d ∈ r.scheduledAt, t < d)

/-- **A dispatch that finds its notification not due leaves it alone.** -/
theorem early_step {r : o.Ret} {choice : Choice} (hl : Linked p q) (hp : p.WellFormed)
    (hc : q.claimed = none) (hpro : q.promoted = false) (ho : p.Allows o) (hq : q.Allows o)
    (he : exec w o choice = some (r, w'))
    (hwaits : ∀ t, q.arrived = some t → Unpromotable p.input.notificationId t w)
    (hfinds : ∀ a m t now, o = .claimForDispatch a m t now → ∀ row, w.row m = some row →
      NotificationRepository.isClaimable row now = false) :
    (w'.notifications = w.notifications ∧ w'.notificationEvents = w.notificationEvents) ∧
      ((q.advance o r).claimed = none ∧ (q.advance o r).promoted = false) ∧
      ∀ job ∈ w'.dispatchJobs, job ∈ w.dispatchJobs ∨ q.Postpones job := by
  have hwithin := within_exec he
  have hopen := hp.opening (hl.claimed ▸ hc) ho
  have hinput := hl.input
  cases o <;> simp only [Op.isOpening, Op.isConnectionOp, Bool.false_eq_true] at hopen
  case appendEvent => cases hpro.symm.trans hq.2
  case promoteScheduled a n now =>
    cases r with
    | none =>
      obtain ⟨rfl, -⟩ := updateOne_none (sending_eq_some.1 (Choice.quietly_eq_some.1 he).2).2
      exact ⟨⟨rfl, rfl⟩, ⟨hc, hpro⟩, fun _ => .inl⟩
    | some new =>
      exfalso
      obtain ⟨old, hp, -, hw⟩ := updateOne_some (sending_eq_some.1 (Choice.quietly_eq_some.1 he).2).2
      obtain ⟨row, hrow, hlater⟩ := hwaits now hq.2.2.2
      have hold : w.row n = some old := hw.before
      rw [hq.2.2.1, hinput] at hold
      cases hrow.symm.trans hold
      simp only [Bool.decide_and, Bool.and_eq_true, decide_eq_true_eq] at hp
      obtain ⟨d, hd, hdue⟩ := (Option.any_eq_true _ _).1 hp.2.2
      exact absurd (hlater hp.2.1 d hd) (not_lt.2 (of_decide_eq_true hdue))
  case claimForDispatch a n t now =>
    cases r with
    | none =>
      obtain ⟨rfl, -⟩ := updateOne_none (sending_eq_some.1 (Choice.quietly_eq_some.1 he).2).2
      exact ⟨⟨rfl, rfl⟩, ⟨hc, hpro⟩, fun _ => .inl⟩
    | some new =>
      exfalso
      obtain ⟨old, hp, -, hw⟩ := updateOne_some (sending_eq_some.1 (Choice.quietly_eq_some.1 he).2).2
      simp only [Bool.decide_and, Bool.and_eq_true, decide_eq_true_eq, Bool.decide_eq_true] at hp
      exact absurd (hfinds a n t now rfl old hw.before) (by rw [hp.2]; decide)
  case enqueueDispatch job =>
    refine ⟨⟨hwithin.notifications (by simp [Op.footprint]),
      hwithin.notificationEvents (by simp [Op.footprint])⟩, ⟨hc, hpro⟩, fun j hj => ?_⟩
    rcases enqueueDispatch_jobs (Choice.quietly_eq_some.1 he).2 j hj with hj | rfl
    · exact .inl hj
    · rcases hq with hsome | hpostpones
      · rw [hc] at hsome
        cases hsome
      · exact .inr hpostpones
  case findSessionById =>
    refine ⟨⟨hwithin.notifications (by simp [Op.footprint]),
      hwithin.notificationEvents (by simp [Op.footprint])⟩, ?_, fun j hj =>
        .inl (hwithin.dispatchJobs (by simp [Op.footprint]) ▸ hj)⟩
    cases r <;> exact ⟨hc, hpro⟩
  all_goals exact ⟨⟨hwithin.notifications (by simp [Op.footprint]),
    hwithin.notificationEvents (by simp [Op.footprint])⟩, ⟨hc, hpro⟩, fun j hj =>
      .inl (hwithin.dispatchJobs (by simp [Op.footprint]) ▸ hj)⟩

end Early

section EarlyRuns

variable {configuration : Configuration} {w : World} {s s' : System (platform configuration)}
  {n : Uuid} {i : Nat}

/-- When dispatch `i` first reads the clock, notification `n` waits for a later time. -/
def ArrivesEarly (n : Uuid) (i : Nat) (s : System (platform configuration))
    (l : Label (platform configuration)) : Prop :=
  ∀ t, l = .advance i (.date t) → s.nextOp i = some .clockNow → arrival s i = none →
    ∃ r d, s.world.row n = some r ∧ r.dueAt = some d ∧ t < d

/-- When dispatch `i` comes to claim notification `n`, that is not to be claimed. -/
def FindsNotDue (n : Uuid) (i : Nat) (s : System (platform configuration))
    (l : Label (platform configuration)) : Prop :=
  ∀ choice a t now, l = .advance i choice → s.nextOp i = some (.claimForDispatch a n t now) →
    ∀ r, s.world.row n = some r → NotificationRepository.isClaimable r now = false

def Early (n : Uuid) (i : Nat) (s : System (platform configuration))
    (l : Label (platform configuration)) : Prop :=
  ArrivesEarly n i s l ∧ FindsNotDue n i s l

/-- Whether a step is none of `i`, or one as it is taken early. -/
def isEarly (n : Uuid) (i : Nat) (s : System (platform configuration)) :
    Label (platform configuration) → Bool
  | .advance j choice => j ≠ i ||
    match s.nextOp i with
    | some .clockNow => (arrival s i).isSome || choice.date?.all fun t =>
        (s.world.row n).any fun r => r.dueAt.any fun d => t < d
    | some (.claimForDispatch _ _ _ now) =>
      (s.world.row n).all fun r => !NotificationRepository.isClaimable r now
    | _ => true
  | _ => true

theorem Early.of_check {l : Label (platform configuration)} (h : isEarly n i s l = true) :
    Early n i s l := by
  constructor
  · rintro t rfl hnext harrival
    simp only [isEarly, hnext, harrival, ne_eq, not_true_eq_false, decide_false, Bool.false_or,
      Option.isSome_none, Choice.date?, Option.all_some, Option.any_eq_true,
      decide_eq_true_eq] at h
    obtain ⟨r, hrow, d, hdue, hlt⟩ := h
    exact ⟨r, d, hrow, hdue, hlt⟩
  · rintro choice a t now rfl hnext r hrow
    simp only [isEarly, hnext, hrow, ne_eq, not_true_eq_false, decide_false, Bool.false_or,
      Option.all_some, Bool.not_eq_true'] at h
    exact h

theorem Watch.advance_input (q : Watch) (o : Op) (r : o.Ret) :
    (q.advance o r).input = q.input := by
  unfold Watch.advance
  split <;> rfl

/-- A notification is scheduled from the start or never. -/
theorem RowStep.was_scheduled {o : Op} {r : o.Ret} {old new : NotificationRecord}
    (h : RowStep n o r old new) (hs : new.status = .SCHEDULED) : old.status = .SCHEDULED := by
  cases h with
  | same status => exact status.symm.trans hs
  | promoted _ status | claimed _ status | sent _ _ status | requeued _ _ status
  | failed _ _ _ status | cancelled _ _ status => cases status.symm.trans hs
  | acknowledged _ _ status => rcases status with status | status <;> cases status.symm.trans hs

/-- What waits for a later time is not promoted now. -/
theorem unpromotable_of_due {r : NotificationRecord} {t d : Date} (hrow : w.row n = some r)
    (hdue : r.dueAt = some d) (hlt : t < d) : Unpromotable n t w := by
  refine ⟨r, hrow, fun hs d' hd' => ?_⟩
  simp only [NotificationRecord.dueAt, hs] at hdue
  cases hdue.symm.trans hd'
  exact hlt

/-- Nothing schedules a notification anew. -/
theorem unpromotable_step {P : System (platform configuration) → Label (platform configuration) → Prop}
    {l : Label (platform configuration)} {t : Date} (hr : Run P (System.start w) s)
    (hs : s.step l = some s') (h : Unpromotable n t s.world) : Unpromotable n t s'.world := by
  obtain ⟨r, hrow, hlater⟩ := h
  cases (disciplined_run hr).stepped hs with
  | spawned _ _ _ world | crashed _ _ world =>
    rw [world]
    exact ⟨r, hrow, hlater⟩
  | outside _ _ world => exact ⟨r, row_kept_outside world hrow, hlater⟩
  | @advanced i choice o a q _ _ _ step =>
    rcases exec_writes step.exec hrow with hkept | ⟨new, hmem, hnew⟩
    · exact ⟨r, hkept, hlater⟩
    · refine ⟨new, hnew, fun hstatus => ?_⟩
      have hrowStep := (exec_effect step.exec n).row_step step.allowed hrow hnew
      rw [(writes_fixed hmem).1]
      exact hlater (hrowStep.was_scheduled hstatus)

/-- What a dispatch would claim is not to be claimed. -/
theorem early_claims {q : Watch} {o : Op} {choice : Choice} (hp : Early n i s (.advance i choice))
    (hn : q.input.notificationId = n) (hnext : s.nextOp i = some o) (hq : q.Allows o) :
    ∀ a m t now, o = .claimForDispatch a m t now → ∀ row, s.world.row m = some row →
      NotificationRepository.isClaimable row now = false := by
  rintro a m t now rfl row hrow
  obtain ⟨-, -, hm, -⟩ := hq
  rw [hm, hn] at hnext hrow
  exact hp.2 choice a t now rfl hnext row hrow

/-- A dispatch arrives with its first reading of the clock. -/
theorem arrived_advance {q : Watch} {o : Op} {r : o.Ret} {t : Date}
    (h : (q.advance o r).arrived = some t) :
    q.arrived = some t ∨ (q.arrived = none ∧ reading o r = some t) := by
  rcases q.advance_readings o r with ⟨t', ht, he⟩ | ⟨-, he, -⟩
  · rw [he] at h
    cases ha : q.arrived with
    | none =>
      simp only [Watch.reads, ha, Option.getD_none] at h
      exact .inr ⟨rfl, ht.trans h⟩
    | some t'' =>
      simp only [Watch.reads, ha, Option.getD_some] at h
      exact .inl h
  · exact .inl (he ▸ h)

theorem early_arrives {o : Op} {r : o.Ret} {choice : Choice} {t : Date} {w' : World}
    (hp : Early n i s (.advance i choice)) (he : exec s.world o choice = some (r, w'))
    (hnext : s.nextOp i = some o) (hfirst : arrival s i = none) (hread : reading o r = some t) :
    ∃ row d, s.world.row n = some row ∧ row.dueAt = some d ∧ t < d := by
  cases o <;> cases hread
  obtain ⟨t', hdate, hdone⟩ := given_eq_some.1 he
  cases hdone
  cases choice <;> cases hdate
  exact hp.1 _ rfl hnext hfirst

/-- What dispatch `i` knows before it has claimed anything, if it arrived early. -/
structure Unclaiming (q : Watch) (w : World) : Prop where
  claimed : q.claimed = none
  promoted : q.promoted = false
  waits : ∀ t, q.arrived = some t → Unpromotable q.input.notificationId t w

/-- A dispatch that arrived early claims nothing and promotes nothing. -/
theorem early_run (hw : Fresh w) (h : Run (Early n i) (System.start w) s) {q : Watch}
    (hq : Watching (watches s) i q) (hn : q.input.notificationId = n) : Unclaiming q s.world := by
  induction h generalizing q with
  | refl => cases hq
  | @tail s₁ s₂ l hr hp hs ih =>
    have hstays : ∀ {q'}, Unclaiming q' s₁.world → Unclaiming q' s₂.world := fun hidle =>
      ⟨hidle.claimed, hidle.promoted, fun t ht => unpromotable_step hr hs (hidle.waits t ht)⟩
    unfold watches at hq
    cases (watched_run hr).stepped hs with
    | spawned _ phases =>
      rw [phases] at hq
      rcases watching_spawn hq with ⟨-, hq⟩ | ⟨-, input, rfl⟩
      · exact hstays (ih hq hn)
      · exact ⟨rfl, rfl, fun t ht => nomatch ht⟩
    | crashed phases | outside phases =>
      rw [phases] at hq
      exact hstays (ih hq hn)
    | @advanced j choice o a wp phases _ _ step =>
      rw [phases] at hq
      rcases watching_advance step.before hq with ⟨-, hq⟩ | ⟨rfl, q₁, rfl, hq₁, rfl⟩
      · exact hstays (ih hq hn)
      · rw [Watch.advance_input] at hn
        have hidle := ih hq₁ hn
        obtain ⟨p, hdispatch, hl⟩ := linked_run hr hq₁
        obtain ⟨wp, hdelivery⟩ := (disciplined_run hr).also hs step
        cases hdelivery.before.symm.trans hdispatch
        have hinput : p.input.notificationId = q₁.input.notificationId := by rw [hl.input]
        obtain ⟨-, ⟨hc, hpro⟩, -⟩ := early_step hl ((sound_run hw hr).tokens.wellFormed hdispatch)
          hidle.claimed hidle.promoted hdelivery.allowed step.allowed step.exec
          (hinput ▸ hidle.waits) (early_claims hp hn step.nextOp step.allowed)
        refine ⟨hc, hpro, fun t ht => ?_⟩
        rw [Watch.advance_input]
        refine unpromotable_step hr hs ?_
        rcases arrived_advance ht with hbefore | ⟨hfirst, hread⟩
        · exact hidle.waits t hbefore
        · obtain ⟨r, d, hrow, hdue, hlt⟩ := early_arrives hp step.exec step.nextOp
            (hq₁.history.1.symm.trans hfirst) hread
          exact hn ▸ unpromotable_of_due hrow hdue hlt

/-- **A dispatch that arrived early** changes no notification and no timeline, and its jobs start at
the due time it read. -/
theorem early_dispatch (hw : Fresh w) (h : Run (Early n i) (System.start w) s)
    (hn : (s.requestOf i).any (Request.dispatches n) = true) {choice : Choice}
    (hearly : Early n i s (.advance i choice)) (hs : s.step (.advance i choice) = some s') :
    s'.world.notifications = s.world.notifications ∧
    s'.world.notificationEvents = s.world.notificationEvents ∧
    ∀ job ∈ s'.world.dispatchJobs, job ∈ s.world.dispatchJobs ∨ ∃ a m row due arrived,
      ⟨i, .findNotificationById a m, some row⟩ ∈ s.trace ∧ row.id = n ∧ row.dueAt = some due ∧
      arrival s i = some arrived ∧ arrived < due ∧ job.notificationId = n ∧
      job.startAfter = some due := by
  obtain ⟨o, r, ph, hdelivery⟩ := (disciplined_run h).advanced hs
  obtain ⟨wp, hwatch⟩ := (watched_run h).also hs hdelivery
  obtain ⟨p, hdispatch, hpn⟩ := dispatches_iff.1 hn
  cases hdelivery.before.symm.trans hdispatch
  obtain ⟨q, hq, hl⟩ := watching_run h hdispatch
  cases hwatch.before.symm.trans hq
  have hinput : q.input.notificationId = n := hl.input ▸ hpn
  have hidle := early_run hw h hq hinput
  obtain ⟨⟨hrows, hevents⟩, -, hjobs⟩ := early_step hl
    ((sound_run hw h).tokens.wellFormed hdispatch) hidle.claimed hidle.promoted hdelivery.allowed
    hwatch.allowed hwatch.exec (by rw [hpn, ← hinput]; exact hidle.waits)
    (early_claims hearly hinput hwatch.nextOp hwatch.allowed)
  refine ⟨hrows, hevents, fun job hjob => (hjobs job hjob).imp id ?_⟩
  rintro ⟨found, due, arrived, hwaiting, hid, hdue, harrived, hlt, hname, hstart⟩
  obtain ⟨a, m, hmem⟩ := hq.history.2 found hwaiting
  exact ⟨a, m, found, due, arrived, hmem, hid.trans hinput, hdue,
    hq.history.1.symm.trans harrived, hlt, hname.trans hinput, hstart⟩

end EarlyRuns

section Claim

variable {configuration : Configuration} {w : World} {n : Uuid}

/-- **Nothing goes out early.** The provider is called for a notification past its `scheduledAt`,
and past every time it waited for its next attempt; and a dispatch that arrived before the
notification is due changes no row and no timeline, and its jobs start at the due time it read, if the
notification is not claimable when it comes to claim it. -/
theorem nothing_early (hw : Fresh w) :
    (∀ (s : System (platform configuration)) l i, Run Orderly (System.start w) s →
      CallStep s l n i →
        ∃ r, s.world.row n = some r ∧ ∀ d ∈ r.scheduledAt, d ≤ toDate s.world.now) ∧
    (∀ (s : System (platform configuration)) r d s' l i, Run Orderly (System.start w) s →
      s.world.row n = some r → r.status = .RETRYING → r.nextAttemptAt = some d →
      Run Orderly s s' → CallStep s' l n i → d ≤ toDate s'.world.now) ∧
    (∀ (s : System (platform configuration)) i choice s',
      Run (Early n i) (System.start w) s →
      (s.requestOf i).any (Request.dispatches n) = true →
      Early n i s (.advance i choice) → s.step (.advance i choice) = some s' →
        s'.world.notifications = s.world.notifications ∧
        s'.world.notificationEvents = s.world.notificationEvents ∧
        ∀ job ∈ s'.world.dispatchJobs, job ∈ s.world.dispatchJobs ∨ ∃ a m row due arrived,
          ⟨i, .findNotificationById a m, some row⟩ ∈ s.trace ∧ row.id = n ∧
          row.dueAt = some due ∧ arrival s i = some arrived ∧ arrived < due ∧
          job.notificationId = n ∧ job.startAfter = some due) :=
  ⟨fun _ _ _ hr hcall => call_scheduled hw hr hcall,
    fun _ _ _ _ _ _ hr hrow hstatus hnext h hcall =>
      call_retrying hw hr hrow hstatus hnext h hcall,
    fun _ _ _ _ h hn hearly hs => early_dispatch hw h hn hearly hs⟩

end Claim

/-! ## Runs of the sample -/

namespace Sample

/-- Notification 7, for 20 ms past midnight. -/
def scheduledDraft : NotificationDraft := { draft with scheduledAt := some 20 }

/-- A dispatch starts on notification 7, draws its token and reads the clock. -/
def arrives (i : Nat) (now : Date) : List Step :=
  [.spawn i (.dispatch ⟨1, 7, "order"⟩), .advance i .nothing, .advance i (.date now)]

/-- Dispatch 0 arrives early, finds the notification not due and puts its job off. -/
def early : List Step :=
  .outside (.created scheduledDraft) :: arrives 0 0 ++
    [.advance 0 .nothing, .advance 0 .nothing, .advance 0 .nothing]

/-- Dispatch 1 promotes the notification when it is due, and looks its recipient up. -/
def due : List Step :=
  early ++ [.advance 0 .nothing, .outside (.clock 20000)] ++ arrives 1 20 ++
    [.advance 1 .nothing, .advance 1 .nothing, .advance 1 .nothing] ++ reads 1 20 ++ prepares 1 20

/-- The lookup fails, and the notification waits five minutes. -/
def retried : List Step :=
  due ++ [.advance 1 (.resolved (.failed notReady)), .advance 1 (.date 20), .advance 1 (.number 0),
    .advance 1 .nothing]

/-- Dispatch 2 takes it up again, and looks the recipient up. -/
def again : List Step :=
  [.outside (.clock 300020000)] ++ arrives 2 300020 ++ [.advance 2 .nothing, .advance 2 .nothing] ++
    reads 2 300020 ++ prepares 2 300020

theorem orderly_of {s : System (platform configuration)} {ls : List Step}
    (h : checksEach readsOnTime s ls = true) (ht : (s.after ls).trace.all fun p => !isReap p) :
    Run Orderly s (s.after ls) :=
  (reapsNothing_of_trace ((Run.of_checksEach h).mono fun _ _ => OnTime.of_check) ht).mono
    fun _ _ h => ⟨h.1, h.2.onlyCrashed⟩

theorem callStep_of {s : System (platform configuration)} {i : Nat} (h : looksUp s i = true)
    (hn : (s.requestOf i).any (Request.dispatches 7) = true) :
    CallStep s (.advance i (.resolved (.failed notReady))) 7 i := by
  obtain ⟨name, phone, s', hp⟩ := looksUp_performs h
  exact ⟨_, _, s', hp, rfl, hn⟩

end Sample

/-- Dispatch 0 finds the notification not due, and puts its job off; at 20 ms the recipient is
looked up, and again after the retry, five minutes later. -/
theorem nothing_early_retried :
    let s := Sample.run .RETRY Sample.due
    let s₁ := Sample.run .RETRY Sample.retried
    let s₂ := s₁.after Sample.again
    let s₃ := Sample.run .RETRY Sample.early
    (∃ r, s.world.row 7 = some r ∧ ∀ d ∈ r.scheduledAt, d ≤ toDate s.world.now) ∧
    (300020 : Date) ≤ toDate s₂.world.now ∧
    ∀ s', s₃.step (.advance 0 .nothing) = some s' →
      s'.world.notifications = s₃.world.notifications := by
  intro s s₁ s₂ s₃
  obtain ⟨hscheduled, hretrying, hearly⟩ :=
    @nothing_early Sample.configuration _ 7 (Sample.fresh_world .RETRY)
  have hr : Run Orderly (System.start (Sample.world .RETRY)) s :=
    Sample.orderly_of (by decide +kernel) (by decide +kernel)
  have hr₁ : Run Orderly (System.start (Sample.world .RETRY)) s₁ :=
    Sample.orderly_of (by decide +kernel) (by decide +kernel)
  have hr₂ : Run Orderly s₁ s₂ := Sample.orderly_of (by decide +kernel) (by decide +kernel)
  have hr₃ : Run (Early 7 0) (System.start (Sample.world .RETRY)) s₃ :=
    (Run.of_checksEach (b := isEarly 7 0) (by decide +kernel)).mono fun _ _ => Early.of_check
  refine ⟨hscheduled s _ 1 hr (Sample.callStep_of (by decide +kernel) (by decide +kernel)), ?_, ?_⟩
  · have hwaits : (s₁.world.row 7).any (fun r => r.status = .RETRYING ∧
        r.nextAttemptAt = some 300020) = true := by decide +kernel
    obtain ⟨r, hrow, hr⟩ := (Option.any_eq_true _ _).1 hwaits
    obtain ⟨hstatus, hnext⟩ := of_decide_eq_true hr
    exact hretrying s₁ r 300020 s₂ _ 2 hr₁ hrow hstatus hnext hr₂
      (Sample.callStep_of (by decide +kernel) (by decide +kernel))
  · intro s' hs
    exact (hearly s₃ 0 .nothing s' hr₃ rfl (Early.of_check (by decide +kernel)) hs).1

/-- A job that arrives early is still on its way when another dispatch promotes the notification,
and claims it then. -/
theorem early_taken_up : ∃ (s s₁ s₂ s₃ : System (platform Sample.configuration)) (r : _) (d : Date),
    Run Orderly (System.start (Sample.world .RETRY)) s ∧ s.world.row 7 = some r ∧
    r.dueAt = some d ∧ toDate s.world.now < d ∧
    s.step (.spawn 0 (.dispatch ⟨1, 7, "order"⟩)) = some s₁ ∧ Run Orderly s₁ s₂ ∧
    s₂.step (.advance 0 .nothing) = some s₃ ∧ s₃.world.row 7 ≠ s₂.world.row 7 := by
  refine ⟨Sample.run .RETRY [.outside (.created Sample.scheduledDraft)], _, _, _, _, 20,
    Sample.orderly_of (by decide +kernel) (by decide +kernel), rfl, rfl, by decide, rfl,
    @Sample.orderly_of _ ([.advance 0 .nothing, .advance 0 (.date 0), .advance 0 .nothing,
      .outside (.clock 20000)] ++ Sample.arrives 1 20 ++ [.advance 1 .nothing])
      (by decide +kernel) (by decide +kernel), rfl, ?_⟩
  decide +kernel

end NotificationPlatform
