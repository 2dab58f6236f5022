import NotificationPlatform.Lifecycle.StatusGraph

/-!
# Claim fields, and the repair pass

The token and the time of a claim stand on a row exactly while it is being processed: every write
that leaves `PROCESSING` clears both, and no other write touches either. With the CHECK constraints
that leaves no waiting notification without the column the repair pass looks for.
-/

namespace NotificationPlatform

open Interleaving

/-! ## The claim columns -/

/-- The token and the time of a claim are set together. -/
def Paired (r : NotificationRecord) : Prop := r.claimedAt.isSome = r.claimToken.isSome

section Writes

variable {w : World} {old new : NotificationRecord}

/-- A transition leaves both columns alone, or clears both. -/
theorem paired_transition {t : TransitionInput} (h : (old, new) ∈ t.attempted w)
    (hold : Paired old) (hc : (t.changes.claimToken = none ∧ t.changes.claimedAt = none) ∨
      (t.changes.claimToken = some none ∧ t.changes.claimedAt = some none)) : Paired new := by
  obtain ⟨-, -, rfl⟩ := mem_attempted.1 h
  unfold Paired at hold ⊢
  simp only [NotificationRepository.TransitionInput.apply]
  rcases hc with ⟨h₁, h₂⟩ | ⟨h₁, h₂⟩
  · rw [h₁, h₂]
    exact hold
  · rw [h₁, h₂]
    rfl

theorem paired_writes {q : DeliveryPhase} {o : Op} {c : Choice} (ho : q.Allows o)
    (h : (old, new) ∈ o.writes w c) (hold : Paired old) : Paired new := by
  cases o
  case promoteScheduled =>
    obtain ⟨-, -, rfl⟩ := mem_attempted.1 h
    exact hold
  case claimForDispatch =>
    obtain ⟨-, -, rfl⟩ := mem_attempted.1 h
    rfl
  case beginAttempt =>
    obtain ⟨-, -, rfl⟩ := mem_attempted.1 h
    exact hold
  case recordSent => exact paired_transition h hold (.inr ⟨rfl, rfl⟩)
  case deferTransition => exact paired_transition h hold (.inr ⟨rfl, rfl⟩)
  case releaseClaim => exact paired_transition h hold (.inr ⟨rfl, rfl⟩)
  case cancelTransition => exact paired_transition h hold (.inl ⟨rfl, rfl⟩)
  case transitionAndRecord notification step =>
    obtain ⟨p, -, hp⟩ := dispatching_of_allows rfl ho
    refine paired_transition h hold (.inr ?_)
    rcases hp.2.2 with ⟨-, failure, now, hc⟩ | ⟨-, -, failure, dueAt, hc⟩
    · simp [TransitionStep.transition, hc, DispatchNotificationService.failChanges]
    · simp [TransitionStep.transition, hc, DispatchNotificationService.retryChanges]
  case acknowledgementTransition =>
    obtain ⟨notification, merged, received, now, rfl⟩ := acknowledgement_of_allows ho
    exact paired_transition h hold (.inl ⟨rfl, rfl⟩)
  case cancelWaitingTransition input =>
    cases c
    case locked ids =>
      obtain ⟨r, -, he⟩ := List.mem_map.1 h
      cases he
      exact hold
    all_goals exact absurd h List.not_mem_nil
  all_goals exact absurd h List.not_mem_nil

end Writes

section Runs

variable {configuration : Configuration} {P : System (platform configuration) →
  Label (platform configuration) → Prop} {w : World} {s s' : System (platform configuration)}
  {n : Uuid} {r : NotificationRecord}

theorem paired_run (hw : Fresh w) (h : Run P (System.start w) s) (hr : s.world.row n = some r) :
    Paired r := by
  refine Discipline.run_invariant (D := deliveryDiscipline configuration)
    (fun _ w => ∀ n r, w.row n = some r → Paired r) ?_ (fun _ hi _ => hi) ?_ ?_ h n r hr
  · intro n _ hr
    exact absurd ((hw.notifications n).symm.trans hr) nofun
  · intro _ _ _ _ _ _ _ q hi _ ho _ he n new hnew
    obtain ⟨old, hold, -⟩ := row_before he hnew
    rcases exec_writes he hold with hkept | ⟨new', hmem, hnew'⟩
    · cases hkept.symm.trans hnew
      exact hi n new hold
    · cases hnew'.symm.trans hnew
      exact paired_writes ho hmem (hi n old hold)
  · intro _ _ _ _ hi he n r hr
    rcases (outside_cases he n).2.2 with hrow | ⟨draft, -, -, hrow⟩
    · exact hi n r (hrow.symm.trans hr)
    · cases hrow.symm.trans hr
      rfl

/-! ## The repair pass -/

/-- A maintenance pass at `now` whose batches are large enough selects the row: as a notification
that is due, or as an abandoned claim. -/
def PicksUp (configuration : Configuration) (w : World) (now : Date) (r : NotificationRecord) :
    Prop :=
  ∀ limit, w.notifications.rows.length ≤ limit →
    (∃ due, NotificationRepository.findDueForDispatch now limit w = some (due, w) ∧ r ∈ due) ∨
    (∃ stuck, NotificationRepository.findStuckClaims
      (now - configuration.stuckClaimTimeoutSeconds * 1000) limit w = some (stuck, w) ∧ r ∈ stuck)

theorem mem_batch {t : Relational.Table NotificationRecord} {p : NotificationRecord → Bool}
    {le : NotificationRecord → NotificationRecord → Prop} [DecidableRel le] {limit : Nat}
    (hr : r ∈ t.rows) (hp : p r = true) (hlimit : t.rows.length ≤ limit) :
    r ∈ ((t.select p).insertionSort le).take limit := by
  have hlength : ((t.select p).insertionSort le).length ≤ limit := by
    rw [List.length_insertionSort]
    exact (List.length_filter_le _ _).trans hlimit
  rw [List.take_of_length_le hlength, List.mem_insertionSort]
  exact Relational.Table.mem_select.2 ⟨hr, hp⟩

/-- Since when the repair pass selects a row. -/
def pickedUpFrom (configuration : Configuration) (r : NotificationRecord) : Date :=
  match r.status with
  | .SCHEDULED => r.scheduledAt.getD 0
  | .RETRYING => r.nextAttemptAt.getD 0
  | .PROCESSING => r.claimedAt.getD 0 + configuration.stuckClaimTimeoutSeconds * 1000 + 1
  | _ => 0

theorem picksUp {w : World} (hrow : w.row n = some r) (hc : Checks r) (hp : Paired r)
    (htoken : r.status = .PROCESSING ↔ r.claimToken.isSome = true)
    (hterminal : isTerminalNotificationStatus r.status = false) (hsent : r.status ≠ .SENT)
    {now : Date} (hnow : pickedUpFrom configuration r ≤ now) :
    PicksUp configuration w now r := by
  intro limit hlimit
  have hmem := Relational.Table.mem_of_find? hrow
  cases hs : r.status with
  | SENT => exact absurd hs hsent
  | DELIVERED | FAILED | CANCELLED =>
    rw [hs] at hterminal
    exact absurd hterminal (by decide)
  | QUEUED =>
    left
    exact ⟨_, rfl, mem_batch hmem (by simp [hs]) hlimit⟩
  | SCHEDULED =>
    obtain ⟨d, hd⟩ := Option.isSome_iff_exists.1 (hc.scheduled hs)
    simp only [pickedUpFrom, hs, hd, Option.getD_some] at hnow
    left
    exact ⟨_, rfl, mem_batch hmem (by simp [hs, hd, hnow]) hlimit⟩
  | RETRYING =>
    obtain ⟨d, hd⟩ := Option.isSome_iff_exists.1 (hc.retrying hs)
    simp only [pickedUpFrom, hs, hd, Option.getD_some] at hnow
    left
    exact ⟨_, rfl, mem_batch hmem (by simp [hs, hd, hnow]) hlimit⟩
  | PROCESSING =>
    have hclaimed : r.claimedAt.isSome = true := hp.trans (htoken.1 hs)
    obtain ⟨d, hd⟩ := Option.isSome_iff_exists.1 hclaimed
    simp only [pickedUpFrom, hs, hd, Option.getD_some] at hnow
    right
    refine ⟨_, rfl, mem_batch hmem ?_ hlimit⟩
    simp only [hs, hd, Option.any_some, Bool.decide_and, decide_true, Bool.true_and,
      decide_eq_true_eq]
    exact lt_sub_iff_add_lt.2 (Int.lt_of_lt_of_le (Int.lt_succ _) hnow)

/-- **Claim fields and repair coverage.** The token and the time of a claim are set exactly while a
notification is `PROCESSING`, and one that is neither terminal nor `SENT` is picked up by the
repair pass from some time on, for as long as it stays as it is. -/
theorem repair_coverage (hw : Fresh w) (hr : Run Any (System.start w) s)
    (hrow : s.world.row n = some r) :
    (r.claimToken.isSome = true ↔ r.status = .PROCESSING) ∧
    (r.claimedAt.isSome = true ↔ r.status = .PROCESSING) ∧
    (isTerminalNotificationStatus r.status = false → r.status ≠ .SENT →
      ∃ time, ∀ s', Run Any s s' → s'.world.row n = some r → ∀ now, time ≤ now →
        PicksUp configuration s'.world now r) := by
  have htoken := (sound_run hw hr).tokens.processing hrow
  have hpaired := paired_run hw hr hrow
  refine ⟨htoken.symm, ?_, ?_⟩
  · rw [hpaired, htoken]
  · intro hterminal hsent
    refine ⟨pickedUpFrom configuration r, fun s' _ hrow' now hnow => ?_⟩
    exact picksUp hrow' (checked_run hw hr n r hrow) hpaired htoken hterminal hsent hnow

/-- A dispatch that crashed with its claim. -/
theorem repair_coverage_crashed :
    let s := Sample.run .RETRY (Sample.dispatching 1 ++ Sample.claims 0 0 ++ [.crash 0])
    ∃ r time, s.world.row 7 = some r ∧ r.claimedAt.isSome = true ∧
      ∀ now, time ≤ now → PicksUp Sample.configuration s.world now r := by
  intro s
  have hrow : s.world.row 7 = some { Sample.draft.row 0 with
      status := .PROCESSING, claimToken := some 1, claimedAt := some 0 } := rfl
  obtain ⟨-, hclaimed, hpicked⟩ :=
    repair_coverage (Sample.fresh_world .RETRY) (Sample.run_any .RETRY _) hrow
  obtain ⟨time, htime⟩ := hpicked rfl nofun
  exact ⟨_, time, hrow, hclaimed.2 rfl, fun now hnow => htime s .refl hrow now hnow⟩

end Runs

end NotificationPlatform
