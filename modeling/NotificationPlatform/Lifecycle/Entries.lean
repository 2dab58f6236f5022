import Mathlib.Algebra.Order.Group.Multiset
import NotificationPlatform.Delivery.Footprint

/-!
# The entries of the timeline

An entry whose two statuses differ shows a change of status. `Op.shows` is what the entries an
operation inserts show of a notification. Most operations insert them in the transaction that makes
the change, and then the two agree (`recounts_exec`); the promotion of a scheduled notification
and the entry of an acknowledgement that changed no row are on their own.
-/

namespace NotificationPlatform

open Relational

/-- A change of status; `none` is a notification that does not exist. -/
abbrev StatusChange := Option NotificationStatus × Option NotificationStatus

/-- The change between two statuses, if there is one. -/
def statusChange (a b : Option NotificationStatus) : Multiset StatusChange :=
  if a = b then 0 else {(a, b)}

@[simp] theorem statusChange_self (a : Option NotificationStatus) : statusChange a a = 0 :=
  if_pos rfl

theorem statusChange_eq_zero {a b : Option NotificationStatus} :
    statusChange a b = 0 ↔ a = b := by
  unfold statusChange
  split <;> simp_all

namespace World

def status (w : World) (n : Uuid) : Option NotificationStatus := (w.row n).map (·.status)

end World

/-- What became of the status of a notification between two worlds. -/
def committed (w w' : World) (n : Uuid) : Multiset StatusChange :=
  statusChange (w.status n) (w'.status n)

/-- What an entry shows of a notification. -/
def NotificationEventInput.shows (e : NotificationEventInput) (n : Uuid) :
    Multiset StatusChange :=
  if e.notificationId = n then statusChange e.fromStatus e.toStatus else 0

/-- The changes of status the timeline of a notification shows. -/
def World.timeline (w : World) (n : Uuid) : Multiset StatusChange :=
  (w.notificationEvents.map fun e => e.shows n).sum

theorem timeline_eq {w w' : World} (h : w'.notificationEvents = w.notificationEvents) (n : Uuid) :
    w'.timeline n = w.timeline n := by
  unfold World.timeline
  rw [h]

theorem committed_of_status {w w' : World} {n : Uuid} (h : w'.status n = w.status n) :
    committed w w' n = 0 := by
  rw [committed, h, statusChange_self]

theorem status_of_row {w w' : World} {n : Uuid} (h : w'.row n = w.row n) :
    w'.status n = w.status n := by
  rw [World.status, h, World.status]

/-! ## Statements -/

section Statements

variable {w w' : World} {n : Uuid}

/-- The timelines took up one entry. -/
def Shows (e : NotificationEventInput) (w w' : World) : Prop :=
  ∀ n, w'.timeline n = w.timeline n + e.shows n

/-- No entry was inserted. -/
def Silent (w w' : World) : Prop := w'.notificationEvents = w.notificationEvents

instance : IsPreorder World Silent where
  refl _ := rfl
  trans _ _ _ h h' := h'.trans h

theorem silent_of_within {α : Type} {F : List Part} {x : Sql α} (hx : Does (Within F) x)
    (hF : .notificationEvents ∉ F) : Does Silent x := hx.mono fun _ _ h => h.notificationEvents hF

theorem shows_then {e : NotificationEventInput} {α β : Type} {x : Sql α} {f : α → Sql β}
    (hx : Does (Shows e) x) (hf : ∀ a, Does Silent (f a)) : Does (Shows e) (x >>= f) := by
  intro w b w' h n
  obtain ⟨a, w₁, h₁, h₂⟩ := Sql.bind_eq_some.1 h
  rw [timeline_eq (hf a _ _ _ h₂), hx _ _ _ h₁ n]

theorem then_shows {e : NotificationEventInput} {α β : Type} {x : Sql α} {f : α → Sql β}
    (hx : Does Silent x) (hf : ∀ a, Does (Shows e) (f a)) : Does (Shows e) (x >>= f) := by
  intro w b w' h n
  obtain ⟨a, w₁, h₁, h₂⟩ := Sql.bind_eq_some.1 h
  rw [hf a _ _ _ h₂ n, timeline_eq (hx _ _ _ h₁)]

theorem shows_appendEvent (input : NotificationEventInput) :
    Does (Shows input) (NotificationRepository.appendEvent input) := by
  intro w u w' h n
  cases h
  simp only [World.timeline, List.map_append, List.sum_append, List.map_singleton,
    List.sum_singleton]

theorem appendEvents_shows {inputs : List NotificationEventInput} {u : Unit}
    (h : NotificationRepository.appendEvents inputs w = some (u, w')) (n : Uuid) :
    w'.timeline n = w.timeline n + (inputs.map fun e => e.shows n).sum := by
  induction inputs generalizing w with
  | nil =>
    obtain ⟨-, rfl⟩ := Sql.pure_eq_some.1 h
    exact (add_zero _).symm
  | cons input inputs ih =>
    obtain ⟨_, w₁, h₁, h⟩ := Sql.bind_eq_some.1 h
    rw [ih h, shows_appendEvent _ _ _ _ h₁ n, add_assoc, List.map_cons, List.sum_cons]

/-- The timeline took up the change of each notification, and nothing else. -/
def Recounts (w w' : World) : Prop := ∀ n, w'.timeline n = w.timeline n + committed w w' n

theorem Recounts.of_same (hs : ∀ n, w'.status n = w.status n) (he : Silent w w') :
    Recounts w w' := by
  intro n
  rw [committed_of_status (hs n), timeline_eq he, add_zero]

/-- A transition, and an entry that tells of it. -/
structure Tells (e : NotificationEventInput) (t : TransitionInput) : Prop where
  notificationId : e.notificationId = t.notificationId
  fromStatus : e.fromStatus = some t.expectedStatus
  toStatus : e.toStatus = some t.nextStatus

theorem Tells.shows {e : NotificationEventInput} {t : TransitionInput} (h : Tells e t)
    {old : NotificationRecord} (ht : Transitioned w w' t old) (n : Uuid) :
    e.shows n = committed w w' n := by
  unfold NotificationEventInput.shows
  rw [h.notificationId, h.fromStatus, h.toStatus]
  by_cases hn : t.notificationId = n
  · subst hn
    rw [if_pos rfl]
    simp only [committed, World.status, ht.before, ht.after, Option.map_some, ht.status]
    rfl
  · rw [if_neg hn, committed_of_status (status_of_row (ht.others n (Ne.symm hn)))]

/-- What commits along with an update of a row. -/
def besideRows : List Part := [.sendAttempts, .notificationEvents, .dispatchJobs, .identifiers]

/-- An update that inserts its entry in the same transaction. -/
theorem recounts_conditional {t : TransitionInput} {e : NotificationEventInput} {α : Type}
    {negative r : α} {rest : NotificationRecord → Sql α}
    (h : (NotificationRepository.applyTransition t >>= fun transitioned =>
      match transitioned with
      | none => pure negative
      | some new => rest new) w = some (r, w'))
    (hrest : ∀ new, Does (Shows e) (rest new)) (hkeep : ∀ new, Does (Within besideRows) (rest new))
    (he : Tells e t) : Recounts w w' := by
  obtain ⟨transitioned, w₁, h₁, h⟩ := Sql.bind_eq_some.1 h
  cases transitioned with
  | none =>
    obtain ⟨-, rfl⟩ := Sql.pure_eq_some.1 h
    rw [(applyTransition_none h₁).world]
    exact .of_same (fun _ => rfl) rfl
  | some new =>
    obtain ⟨old, rfl, ht, hw₁⟩ := applyTransition_some h₁
    have hevents : w₁.notificationEvents = w.notificationEvents := by rw [hw₁]
    have ht' : Transitioned w w' t old := ht.beside ((hkeep _ _ _ _ h).notifications (by decide))
    intro n
    rw [hrest _ _ _ _ h n, timeline_eq hevents, he.shows ht']

end Statements

/-! ## Operations -/

/-- The operations that change a status without an entry, or insert an entry without a change. -/
def Op.isUnpaired : Op → Bool
  | .promoteScheduled _ _ _ | .appendEvent _ | .claimForDispatch _ _ _ _ => true
  | .deferTransition _ => true
  | _ => false

section Operations

variable {w w' : World}

theorem recounts_cancelWaiting {input : CancelWaitingInput} {locked : List Uuid}
    {r : List (Uuid × NotificationStatus)}
    (h : cancelWaitingTransition input locked w = some (r, w')) : Recounts w w' := by
  obtain ⟨cancelled, w₁, h₁, h⟩ := Sql.bind_eq_some.1 h
  obtain ⟨_, w₂, h₂, h⟩ := Sql.bind_eq_some.1 h
  obtain ⟨rfl, rfl⟩ := Sql.pure_eq_some.1 h
  have hb := beside_appendEvents _ _ _ _ h₂
  unfold NotificationRepository.cancelWaiting at h₁
  replace h₁ := (sending_eq_some.1 h₁).2
  split at h₁ <;> cases h₁
  intro n
  rw [appendEvents_shows h₂]
  congr 1
  -- the entries that name `n` are those of the rows with the key `n`, of which there is at most one
  simp only [List.map_map, Function.comp_def, NotificationEventInput.shows]
  refine (Table.sum_select_key w.notifications _
    (fun r => statusChange (some r.status) (some .CANCELLED)) n).trans ?_
  simp only [committed, World.status, World.row, hb.notifications, Table.find?_update]
  cases w.notifications.find? n with
  | none => rfl
  | some old =>
    simp only [Option.map_some, Option.filter_some]
    split
    · rfl
    · exact (statusChange_self _).symm

theorem status_beginAttempt {input : BeginAttemptInput} {r : Option Nat}
    (h : beginAttemptTransaction input w = some (r, w')) (n : Uuid) :
    w'.status n = w.status n := by
  cases effect_beginAttempt h n with
  | kept row => exact status_of_row row
  | begun _ before _ _ _ _ after => simp only [World.status, before, after, Option.map_some]

/-- **Every other operation that changes a status inserts the entry in the same transaction.** -/
theorem recounts_exec {o : Op} {c : Choice} {r : o.Ret} (h : exec w o c = some (r, w'))
    (ho : o.isUnpaired = false) : Recounts w w' := by
  cases o <;> simp only [Op.isUnpaired, Bool.true_eq_false] at ho
  case recordSent input =>
    exact recounts_conditional (Choice.quietly_eq_some.1 h).2 (fun _ => then_shows
      (silent_of_within (within_resolve (F := [.sendAttempts]) (by decide)) (by decide))
      fun _ => shows_then (shows_appendEvent _) fun _ => .pure _)
      (fun _ => .bind (within_resolve (by decide)) fun _ =>
        .bind (within_appendEvent (by decide) (by decide)) fun _ => .pure _) ⟨rfl, rfl, rfl⟩
  case transitionAndRecord notification step =>
    exact recounts_conditional (Choice.quietly_eq_some.1 h).2 (fun _ => shows_then
      (shows_appendEvent _) fun _ => .bind (silent_of_within
        (within_enqueue (F := [.dispatchJobs]) (by decide)) (by decide)) fun _ => .pure _)
      (fun _ => .bind (within_appendEvent (by decide) (by decide)) fun _ =>
        .bind (within_enqueue (by decide)) fun _ => .pure _) ⟨rfl, rfl, rfl⟩
  case releaseClaim notification now =>
    exact recounts_conditional (Choice.quietly_eq_some.1 h).2 (fun _ => shows_then
      (shows_appendEvent _) fun _ => .bind (silent_of_within
        (within_enqueueDispatch (F := [.dispatchJobs]) (by decide)) (by decide)) fun _ => .pure _)
      (fun _ => .bind (within_appendEvent (by decide) (by decide)) fun _ =>
        .bind (within_enqueueDispatch (by decide)) fun _ => .pure _) ⟨rfl, rfl, rfl⟩
  case cancelTransition | acknowledgementTransition =>
    exact recounts_conditional (Choice.quietly_eq_some.1 h).2 (fun _ => shows_then
      (shows_appendEvent _) fun _ => .pure _) (fun _ =>
        .bind (within_appendEvent (by decide) (by decide)) fun _ => .pure _) ⟨rfl, rfl, rfl⟩
  case cancelWaitingTransition input =>
    obtain ⟨locked, -, h⟩ := given_eq_some.1 h
    exact recounts_cancelWaiting h
  case beginAttempt input =>
    exact .of_same (status_beginAttempt (Choice.quietly_eq_some.1 h).2)
      ((within_exec h).notificationEvents (by simp [Op.footprint]))
  all_goals
    exact .of_same (fun n => status_of_row (by
      rw [World.row, (within_exec h).notifications (by simp [Op.footprint]), World.row]))
      ((within_exec h).notificationEvents (by simp [Op.footprint]))

/-- An unpaired operation that changes a status inserts no entry. -/
theorem exec_silent {o : Op} {c : Choice} {r : o.Ret} (h : exec w o c = some (r, w'))
    (ho : .notificationEvents ∉ o.footprint) (n : Uuid) : w'.timeline n = w.timeline n :=
  timeline_eq ((within_exec h).notificationEvents ho) n

/-- The creation of a notification is told by its first entry. -/
theorem recounts_writeNotification {draft : NotificationDraft} {u : Unit}
    (h : writeNotification draft w = some (u, w')) : Recounts w w' := by
  obtain ⟨_, _, h₁, h⟩ := Sql.bind_eq_some.1 h
  cases h₁
  obtain ⟨_, w₂, h₂, h⟩ := Sql.bind_eq_some.1 h
  have hshows := shows_then (shows_appendEvent _) (fun _ => .bind (silent_of_within
    (within_enqueueDispatch (F := [.dispatchJobs]) (by decide)) (by decide)) fun _ => .pure _)
    _ _ _ h
  have hkeep : Within besideRows w₂ w' := Does.bind (within_appendEvent (by decide) (by decide))
    (fun _ => .bind (within_enqueueDispatch (by decide)) fun _ => .pure _) _ _ _ h
  unfold NotificationRepository.insert at h₂
  split at h₂
  · obtain ⟨t, ht, h₂⟩ := Option.map_eq_some_iff.1 h₂
    cases h₂
    intro n
    rw [hshows n]
    congr 1
    simp only [committed, World.status, World.row, hkeep.notifications (by decide),
      Table.find?_insert? ht, NotificationEventInput.shows]
    have hkey : key (draft.row w.now) = draft.id := rfl
    rw [hkey]
    by_cases hn : draft.id = n
    · have hfresh : w.notifications.find? n = none := hn ▸ Table.insert?_fresh ht
      rw [if_pos hn, if_pos hn, hfresh]
      rfl
    · rw [if_neg hn, if_neg hn, statusChange_self]
  · cases h₂

theorem recounts_outside {e : Event} (h : outside w e = some w') : Recounts w w' := by
  cases e with
  | clock now =>
    simp only [outside] at h
    split at h
    · cases h
      exact .of_same (fun _ => rfl) rfl
    · cases h
  | jobTaken | sessions | applications =>
    cases h
    exact .of_same (fun _ => rfl) rfl
  | filed input =>
    obtain ⟨⟨r, w₁⟩, h₁, rfl⟩ := Option.map_eq_some_iff.1 h
    unfold WebhookDeliveryRepository.record at h₁
    split at h₁
    · cases h₁
      exact .of_same (fun _ => rfl) rfl
    · obtain ⟨t, -, h₂⟩ := Option.map_eq_some_iff.1 h₁
      cases h₂
      exact .of_same (fun _ => rfl) rfl
  | created draft =>
    obtain ⟨⟨r, w₁⟩, h₁, rfl⟩ := Option.map_eq_some_iff.1 h
    exact recounts_writeNotification h₁

end Operations

end NotificationPlatform
