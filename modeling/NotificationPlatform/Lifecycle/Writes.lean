import NotificationPlatform.Delivery.Runs

/-!
# The writes of an operation

`Op.writes` lists the updates of notification rows an operation asks the database for, each as the
row it would change and what it would become. `exec_writes` says that rows change in no other way,
and `exec_refused` that one update the database does not accept takes the whole operation with it.
-/

namespace NotificationPlatform

open Relational

/-- A row, and what an update would make of it. -/
abbrev RowWrite := NotificationRecord × NotificationRecord

/-- `UPDATE .. SET f WHERE id = .. AND p`. -/
def attempted (w : World) (id : Uuid) (p : NotificationRecord → Bool)
    (f : NotificationRecord → NotificationRecord) : List RowWrite :=
  (((w.row id).filter p).map fun r => (r, f r)).toList

def NotificationRepository.TransitionInput.attempted (t : TransitionInput) (w : World) : List RowWrite :=
  NotificationPlatform.attempted w t.notificationId
    (fun r => r.applicationId = t.applicationId ∧ r.status = t.expectedStatus) t.apply

/-- What a bulk cancellation selects. -/
def CancelWaitingInput.selects (input : CancelWaitingInput) (locked : List Uuid)
    (r : NotificationRecord) : Bool :=
  r.applicationId = input.applicationId ∧ (r.status = .QUEUED ∨ r.status = .RETRYING) ∧
    (∀ s ∈ input.whatsAppSessionId, r.whatsAppSessionId = s) ∧ r.id ∉ locked

/-- The updates of notification rows an operation asks for. -/
def Op.writes (w : World) : Op → Choice → List RowWrite
  | .promoteScheduled a n now, _ =>
    attempted w n (fun r => r.applicationId = a ∧ r.status = .SCHEDULED ∧
        r.scheduledAt.any (· ≤ now))
      fun r => { r with status := .QUEUED, updatedAt := now }
  | .claimForDispatch a n t now, _ =>
    attempted w n (fun r => r.applicationId = a ∧ NotificationRepository.isClaimable r now)
      fun r => { r with status := .PROCESSING, claimToken := some t, claimedAt := some now,
                        updatedAt := now }
  | .beginAttempt input, _ =>
    attempted w input.notificationId (fun r => r.applicationId = input.applicationId ∧
        r.claimToken = some input.claimToken ∧ r.status = .PROCESSING)
      fun r => { r with attemptCount := r.attemptCount + 1,
                        recipientChatIdentifier := some input.recipientChatIdentifier,
                        updatedAt := input.now }
  | .recordSent input, _ => input.transition.attempted w
  | .deferTransition input, _ => input.transition.attempted w
  | .transitionAndRecord notification step, _ => (step.transition notification).attempted w
  | .releaseClaim notification now, _ => (notification.release now).attempted w
  | .cancelTransition input, _ => input.transition.attempted w
  | .acknowledgementTransition input, _ => input.transition.attempted w
  | .cancelWaitingTransition input, .locked ids =>
    (w.notifications.select (input.selects ids)).map fun r => (r, r.cancel input.now)
  | _, _ => []

section Attempted

variable {w w' : World} {id n : Uuid} {p : NotificationRecord → Bool}
  {f : NotificationRecord → NotificationRecord} {old new : NotificationRecord}

theorem mem_attempted : (old, new) ∈ attempted w id p f ↔
    w.row id = some old ∧ p old = true ∧ new = f old := by
  simp only [attempted, Option.mem_toList, Option.map_eq_some_iff, Option.filter_eq_some_iff,
    Prod.mk.injEq]
  constructor
  · rintro ⟨r, ⟨hr, hp⟩, rfl, rfl⟩
    exact ⟨hr, hp, rfl⟩
  · rintro ⟨hr, hp, rfl⟩
    exact ⟨old, ⟨hr, hp⟩, rfl, rfl⟩

/-- An update changes the row it names as it was asked to, or not at all. -/
theorem updateOne_writes {hf : ∀ r, key (f r) = key r} {x : Option NotificationRecord}
    (h : NotificationRepository.updateOne id p f hf w = some (x, w')) (hold : w.row n = some old) :
    w'.row n = some old ∨ ∃ new, (old, new) ∈ attempted w id p f ∧ w'.row n = some new := by
  cases x with
  | none =>
    obtain ⟨rfl, -⟩ := updateOne_none h
    exact .inl hold
  | some new =>
    obtain ⟨old', hp, rfl, hw⟩ := updateOne_some h
    by_cases hn : n = id
    · subst hn
      cases hold.symm.trans hw.before
      exact .inr ⟨f old, mem_attempted.2 ⟨hold, hp, rfl⟩, hw.after⟩
    · exact .inl ((hw.others n hn).trans hold)

theorem updateOne_refused {hf : ∀ r, key (f r) = key r} (h : (old, new) ∈ attempted w id p f)
    (hno : acceptsWrite w old new = false) :
    NotificationRepository.updateOne id p f hf w = none := by
  obtain ⟨hrow, hp, rfl⟩ := mem_attempted.1 h
  have hfind : w.notifications.find? id = some old := hrow
  simp only [NotificationRepository.updateOne, hfind, hp, if_true, hno, Bool.false_eq_true,
    if_false]

end Attempted

/-! ## Writes and the effect of an operation -/

section Exec

variable {w w' : World} {o : Op} {c : Choice} {r : o.Ret} {n : Uuid}
  {old new : NotificationRecord}

theorem Transitioned.writes {t : TransitionInput} {old' : NotificationRecord}
    (h : Transitioned w w' t old') (hn : t.notificationId = n) (hold : w.row n = some old) :
    ∃ new, (old, new) ∈ t.attempted w ∧ w'.row n = some new := by
  subst hn
  cases hold.symm.trans h.before
  refine ⟨t.apply old, mem_attempted.2 ⟨hold, ?_, rfl⟩, h.after⟩
  simp [h.application, h.status]

theorem cancelWaiting_writes {input : CancelWaitingInput} {locked : List Uuid}
    {x : List (Uuid × NotificationStatus)}
    (h : cancelWaitingTransition input locked w = some (x, w')) (hold : w.row n = some old) :
    w'.row n = some old ∨ (old, old.cancel input.now) ∈
      Op.writes w (.cancelWaitingTransition input) (.locked locked) ∧
        w'.row n = some (old.cancel input.now) := by
  obtain ⟨cancelled, w₁, h₁, h⟩ := Sql.bind_eq_some.1 h
  obtain ⟨_, w₂, h₂, h⟩ := Sql.bind_eq_some.1 h
  obtain ⟨rfl, rfl⟩ := Sql.pure_eq_some.1 h
  have hb := beside_appendEvents _ _ _ _ h₂
  unfold NotificationRepository.cancelWaiting at h₁
  replace h₁ := (sending_eq_some.1 h₁).2
  split at h₁ <;> cases h₁
  have hrow : w.notifications.find? n = some old := hold
  simp only [World.row, hb.notifications, Table.find?_update, hrow, Option.map_some]
  split
  · rename_i hp
    refine .inr ⟨List.mem_map.2 ⟨old, Table.mem_select.2 ⟨Table.mem_of_find? hrow, hp⟩, rfl⟩, rfl⟩
  · exact .inl rfl

theorem beginAttempt_writes {input : BeginAttemptInput} {x : Option Nat}
    (h : beginAttemptTransaction input w = some (x, w')) (hold : w.row n = some old) :
    w'.row n = some old ∨ ∃ new, (old, new) ∈ Op.writes w (.beginAttempt input) c ∧
      w'.row n = some new := by
  obtain ⟨k, w₁, h₁, h₂⟩ := Sql.bind_eq_some.1 h
  obtain ⟨updated, w₂, h₁, hk⟩ := Sql.bind_eq_some.1 h₁
  obtain ⟨-, rfl⟩ := Sql.pure_eq_some.1 hk
  have hrow : w'.row n = w₁.row n := by
    cases k with
    | none => rw [(Sql.pure_eq_some.1 h₂).2]
    | some k =>
      obtain ⟨_, w₃, h₃, h₂⟩ := Sql.bind_eq_some.1 h₂
      rw [(Sql.pure_eq_some.1 h₂).2, begin_eq_some h₃]
      rfl
  rw [hrow]
  exact updateOne_writes (sending_eq_some.1 h₁).2 hold

/-- **Rows change only as an operation asks for.** -/
theorem exec_writes (h : exec w o c = some (r, w')) (hold : w.row n = some old) :
    w'.row n = some old ∨ ∃ new, (old, new) ∈ o.writes w c ∧ w'.row n = some new := by
  cases exec_effect h n with
  | kept row | resolved names row => exact .inl (row.trans hold)
  | sent names moved | deferred names moved | transitioned names moved | released names moved
  | cancelled names moved | acknowledged names moved => exact .inr (moved.writes names hold)
  | promoted | claimed =>
    exact updateOne_writes (sending_eq_some.1 (Choice.quietly_eq_some.1 h).2).2 hold
  | begun => exact beginAttempt_writes (Choice.quietly_eq_some.1 h).2 hold
  | cancelledWaiting =>
    obtain ⟨locked, hc, h⟩ := given_eq_some.1 h
    obtain rfl : c = .locked locked := by
      cases c <;> simp only [Choice.locked?, reduceCtorEq, Option.some.injEq] at hc
      rw [hc]
    rcases cancelWaiting_writes h hold with hrow | ⟨hmem, hrow⟩
    · exact .inl hrow
    · exact .inr ⟨_, hmem, hrow⟩

/-- No write changes when a notification was scheduled for, or the connection it is bound to. -/
theorem writes_fixed (h : (old, new) ∈ o.writes w c) :
    new.scheduledAt = old.scheduledAt ∧ new.whatsAppSessionId = old.whatsAppSessionId := by
  cases o
  case cancelWaitingTransition =>
    cases c
    case locked =>
      obtain ⟨r, -, he⟩ := List.mem_map.1 h
      cases he
      exact ⟨rfl, rfl⟩
    all_goals exact absurd h List.not_mem_nil
  all_goals first
    | exact absurd h List.not_mem_nil
    | obtain ⟨-, -, rfl⟩ := mem_attempted.1 h
      exact ⟨rfl, rfl⟩

theorem quietly_refused {α : Type} {x : Sql α} (h : x w = none) : c.quietly x w = none := by
  cases c <;> first | exact h | rfl

theorem bind_refused {α β : Type} {x : Sql α} {f : α → Sql β} (h : x w = none) :
    (x >>= f) w = none := by
  simp only [Bind.bind, StateT.bind, h, Option.bind_none]

theorem transition_refused {t : TransitionInput} {α : Type} {f : Option NotificationRecord → Sql α}
    (h : (old, new) ∈ t.attempted w) (hno : acceptsWrite w old new = false) :
    c.quietly (NotificationRepository.applyTransition t >>= f) w = none :=
  quietly_refused (bind_refused (sending_eq_none (updateOne_refused h hno)))

/-- **An update the database does not accept takes its operation with it.** -/
theorem exec_refused (h : (old, new) ∈ o.writes w c) (hno : acceptsWrite w old new = false) :
    exec w o c = none := by
  cases o
  case promoteScheduled => exact quietly_refused (sending_eq_none (updateOne_refused h hno))
  case claimForDispatch => exact quietly_refused (sending_eq_none (updateOne_refused h hno))
  case beginAttempt =>
    exact quietly_refused (bind_refused (bind_refused (sending_eq_none (updateOne_refused h hno))))
  case recordSent => exact transition_refused h hno
  case deferTransition => exact transition_refused h hno
  case transitionAndRecord => exact transition_refused h hno
  case releaseClaim => exact transition_refused h hno
  case cancelTransition => exact transition_refused h hno
  case acknowledgementTransition => exact transition_refused h hno
  case cancelWaitingTransition input =>
    cases c
    case locked ids =>
      obtain ⟨r', hr', he⟩ := List.mem_map.1 h
      cases he
      refine bind_refused ?_
      unfold NotificationRepository.cancelWaiting
      refine sending_eq_none (if_neg fun hall => ?_)
      have haccepts := List.all_eq_true.1 hall old hr'
      exact Bool.false_ne_true (hno.symm.trans haccepts)
    all_goals rfl
  all_goals exact absurd h List.not_mem_nil

end Exec

end NotificationPlatform
