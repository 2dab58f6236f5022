import Mathlib
import NotificationPlatform.Relational.Batch
import NotificationPlatform.Delivery.Runs

/-!
# How a backlog drains

Maintenance passes one after the other, with nothing else going on. The statement that finds what is
due selects by columns that queueing a job does not change, so every pass finds the same oldest
notifications first.
-/

namespace NotificationPlatform

open Interleaving Relational NotificationMaintenanceService

/-- A dispatch job of the notification waits in the queue. -/
def Waiting (w : World) (n : Uuid) : Prop := ∃ job ∈ w.dispatchJobs, job.notificationId = n

/-- `QUEUED`, or `RETRYING` or `SCHEDULED` with its time reached. -/
def isDue (now : Date) (r : NotificationRecord) : Bool :=
  r.status = .QUEUED ∨ (r.status = .RETRYING ∧ r.nextAttemptAt.any (· ≤ now)) ∨
    (r.status = .SCHEDULED ∧ r.scheduledAt.any (· ≤ now))

def World.due (w : World) (now : Date) : List NotificationRecord := w.notifications.select (isDue now)

/-- The older notification stands first. -/
abbrev createdFirst (a b : NotificationRecord) : Prop := a.createdAt ≤ b.createdAt

instance : Std.Total createdFirst := ⟨fun a b => le_total a.createdAt b.createdAt⟩

instance : IsTrans NotificationRecord createdFirst :=
  ⟨fun _ _ _ h h' => Int.le_trans h h'⟩

/-- The abandoned claims a pass returns to the queue. -/
def World.abandoned (w : World) (configuration : Configuration) (now : Date) :
    List NotificationRecord :=
  ((w.notifications.select fun r => r.status = .PROCESSING ∧
    r.claimedAt.any (· < now - configuration.stuckClaimTimeoutSeconds * 1000)).insertionSort
      fun a b => a.claimedAt.getD 0 ≤ b.claimedAt.getD 0).take MAINTENANCE_BATCH_SIZE

/-- Who stands in line for a job in a pass that reads its clock at `reapedAt` and at `now`: what is
due, and the claims that the pass itself returned. -/
def World.stands (w : World) (configuration : Configuration) (reapedAt now : Date)
    (r : NotificationRecord) : Bool := isDue now r || r ∈ w.abandoned configuration reapedAt

def World.line (w : World) (configuration : Configuration) (reapedAt now : Date) :
    List NotificationRecord :=
  (w.notifications.select (w.stands configuration reapedAt now)).insertionSort createdFirst

/-- Passes one after the other, each run alone. -/
def passes (configuration : Configuration) : List (List Choice) → World → Option World
  | [], w => some w
  | choices :: rest, w =>
    ((runOnce configuration).runs exec choices w).bind fun p => passes configuration rest p.2

/-- What the clock showed. -/
def clocks (choices : List Choice) : List Date := choices.filterMap Choice.date?

section Writes

variable {w w' : World}

theorem updateOne_table {id : Uuid} {p : NotificationRecord → Bool}
    {f : NotificationRecord → NotificationRecord} {hf : ∀ r, key (f r) = key r}
    {x : Option NotificationRecord}
    (h : NotificationRepository.updateOne id p f hf w = some (x, w')) :
    w'.notifications.rows = w.notifications.rows.map (fun r => if r.id = id ∧ p r then f r else r) ∧
      w'.dispatchJobs = w.dispatchJobs ∧
      (x = none → ∀ r ∈ w.notifications.rows, r.id = id → p r = false) := by
  have hfound : ∀ r ∈ w.notifications.rows, r.id = id → w.notifications.find? id = some r := by
    rintro r hr rfl
    exact Table.find?_key hr
  -- an update of zero rows
  have hsame : (∀ r ∈ w.notifications.rows, r.id = id → p r = false) →
      w.notifications.rows =
        w.notifications.rows.map (fun r => if r.id = id ∧ p r then f r else r) := by
    intro hnone
    refine ((List.map_congr_left fun r hr => ?_).trans (List.map_id _)).symm
    rw [if_neg]
    · rfl
    · rintro ⟨hid, hp⟩
      rw [hnone r hr hid] at hp
      cases hp
  simp only [NotificationRepository.updateOne] at h
  split at h
  · rename_i hfind
    cases h
    have hnone : ∀ r ∈ w.notifications.rows, r.id = id → p r = false := fun r hr hid => by
      rw [hfound r hr hid] at hfind
      cases hfind
    exact ⟨hsame hnone, rfl, fun _ => hnone⟩
  · rename_i r hfind
    split at h
    · split at h
      · cases h
        refine ⟨?_, rfl, by simp⟩
        simp only [Table.update, Bool.and_eq_true, decide_eq_true_eq]
        rfl
      · cases h
    · rename_i hp
      cases h
      have hnone : ∀ r' ∈ w.notifications.rows, r'.id = id → p r' = false := fun r' hr' hid => by
        cases (hfound r' hr' hid).symm.trans hfind
        exact Bool.of_not_eq_true hp
      exact ⟨hsame hnone, rfl, fun _ => hnone⟩

theorem enqueueDispatch_waiting {job : DispatchJob} {b : Bool}
    (h : enqueueDispatch job w = some (b, w')) : w'.notifications = w.notifications ∧
      ∀ n, Waiting w' n ↔ Waiting w n ∨ n = job.notificationId := by
  unfold enqueueDispatch at h
  split at h
  · rename_i hany
    cases h
    obtain ⟨j, hj, hn⟩ := List.any_eq_true.1 hany
    refine ⟨rfl, fun n => ⟨Or.inl, ?_⟩⟩
    rintro (hw | rfl)
    · exact hw
    · exact ⟨j, hj, by simpa using hn⟩
  · cases h
    refine ⟨rfl, fun n => ?_⟩
    unfold Waiting
    simp only [List.mem_append, List.mem_singleton]
    constructor
    · rintro ⟨j, hj | rfl, hn⟩
      · exact .inl ⟨j, hj, hn⟩
      · exact .inr hn.symm
    · rintro (⟨j, hj, hn⟩ | rfl)
      · exact ⟨j, .inl hj, hn⟩
      · exact ⟨job, .inr rfl, rfl⟩

theorem appendEvent_aside {input : NotificationEventInput} {u : Unit}
    (h : NotificationRepository.appendEvent input w = some (u, w')) :
    w'.notifications = w.notifications ∧ w'.dispatchJobs = w.dispatchJobs := by
  cases h
  exact ⟨rfl, rfl⟩

/-- The row of an abandoned claim, returned to the queue. -/
def NotificationRecord.returned (now : Date) (r : NotificationRecord) : NotificationRecord :=
  (r.release now).apply r

/-- A claim that is still there is returned, with a job waiting for it. -/
theorem releaseClaim_returns {n : NotificationRecord} {now : Date} {b : Bool}
    (h : releaseClaim n now w = some (b, w')) (hn : n ∈ w.notifications.rows)
    (hs : n.status = .PROCESSING) :
    w'.notifications.rows = w.notifications.rows.map
      (fun r => if r.id = n.id then r.returned now else r) ∧
      ∀ m, Waiting w' m ↔ Waiting w m ∨ m = n.id := by
  have hunique : ∀ r ∈ w.notifications.rows, r.id = n.id → r = n := fun r hr hid =>
    List.inj_on_of_nodup_map w.notifications.nodup hr hn hid
  obtain ⟨x, w₁, h₁, h⟩ := Sql.bind_eq_some.1 h
  obtain ⟨hrows, hjobs, hnone⟩ := updateOne_table (sending_eq_some.1 h₁).2
  cases x with
  | none =>
    have hp := hnone rfl n hn rfl
    simp [NotificationRecord.release, hs] at hp
  | some new =>
    obtain ⟨_, w₂, h₂, h⟩ := Sql.bind_eq_some.1 h
    obtain ⟨hnotifications₂, hjobs₂⟩ := appendEvent_aside h₂
    obtain ⟨_, w₃, h₃, h⟩ := Sql.bind_eq_some.1 h
    obtain ⟨hnotifications₃, hwaiting⟩ := enqueueDispatch_waiting h₃
    obtain ⟨-, rfl⟩ := Sql.pure_eq_some.1 h
    refine ⟨?_, fun m => ?_⟩
    · rw [hnotifications₃, hnotifications₂, hrows]
      refine List.map_congr_left fun r hr => ?_
      by_cases hid : r.id = n.id
      · obtain rfl := hunique r hr hid
        simp [NotificationRecord.release, NotificationRecord.returned, hs]
      · rw [if_neg fun h => hid h.1, if_neg hid]
    · rw [hwaiting]
      refine or_congr_left ?_
      unfold Waiting
      rw [hjobs₂, hjobs]

end Writes

/-! ## One pass -/

section Pass

variable {configuration : Configuration} {w w' : World} {choices : List Choice}

theorem clocks_cons_nothing (rest : List Choice) : clocks (.nothing :: rest) = clocks rest := rfl

theorem clocks_append (a b : List Choice) : clocks (a ++ b) = clocks a ++ clocks b :=
  List.filterMap_append

theorem releaseEach_returns {now : Date} {stuck : List NotificationRecord} {count : Nat}
    (h : (releaseEach now stuck).runs exec choices w = some (count, w'))
    (hmem : ∀ n ∈ stuck, n ∈ w.notifications.rows ∧ n.status = .PROCESSING)
    (hnodup : (stuck.map (·.id)).Nodup) :
    w'.notifications.rows =
      w.notifications.rows.map (fun r => if r ∈ stuck then r.returned now else r) ∧
    (∀ m, Waiting w' m ↔ Waiting w m ∨ ∃ n ∈ stuck, n.id = m) ∧ clocks choices = [] := by
  induction stuck generalizing w choices count with
  | nil =>
    obtain ⟨rfl, hb⟩ := Prog.runs_done.1 h
    cases hb
    refine ⟨?_, fun m => by simp, rfl⟩
    simp
  | cons n rest ih =>
    obtain ⟨c, cs, released, w₁, rfl, hstep, hafter⟩ := Prog.runs_perform.1 h
    obtain ⟨rfl, he⟩ := Choice.quietly_eq_some.1 hstep
    have hnext : ((releaseEach now rest).bind fun reaped =>
        Prog.done (if released then reaped + 1 else reaped)).runs exec cs w₁ = some (count, w') :=
      hafter
    obtain ⟨cs₁, cs₂, reaped, w₂, rfl, hrest, hdone⟩ := Prog.runs_bind.1 hnext
    obtain ⟨rfl, hb⟩ := Prog.runs_done.1 hdone
    cases hb
    obtain ⟨hn, hs⟩ := hmem n List.mem_cons_self
    obtain ⟨hrows, hwaiting⟩ := releaseClaim_returns he hn hs
    rw [List.map_cons, List.nodup_cons] at hnodup
    have hapart : ∀ m ∈ rest, m.id ≠ n.id := fun m hm hid =>
      hnodup.1 (hid ▸ List.mem_map_of_mem hm)
    have hstill : ∀ m ∈ rest, m ∈ w₁.notifications.rows ∧ m.status = .PROCESSING := by
      intro m hm
      obtain ⟨hm', hs'⟩ := hmem m (List.mem_cons_of_mem _ hm)
      refine ⟨?_, hs'⟩
      rw [hrows]
      exact List.mem_map.2 ⟨m, hm', if_neg (hapart m hm)⟩
    obtain ⟨hrows', hwaiting', hclocks⟩ := ih hrest hstill hnodup.2
    refine ⟨?_, fun m => ?_, ?_⟩
    · rw [hrows', hrows, List.map_map]
      refine List.map_congr_left fun r hr => ?_
      simp only [Function.comp]
      by_cases hid : r.id = n.id
      · obtain rfl : r = n := List.inj_on_of_nodup_map w.notifications.nodup hr hn hid
        rw [if_pos rfl, if_pos List.mem_cons_self, if_neg]
        exact fun hmem' => hapart _ hmem' rfl
      · rw [if_neg hid]
        have hne : r ≠ n := fun h => hid (congrArg (·.id) h)
        simp only [List.mem_cons, hne, false_or]
    · rw [hwaiting', hwaiting, List.exists_mem_cons_iff, or_assoc]
      exact or_congr_right (or_congr_left eq_comm)
    · rw [clocks_cons_nothing, List.append_nil]
      exact hclocks

theorem enqueueEach_waiting {now : Date} {due : List NotificationRecord} {count : Nat}
    (h : (enqueueEach now due).runs exec choices w = some (count, w')) :
    w'.notifications = w.notifications ∧
    (∀ m, Waiting w' m ↔ Waiting w m ∨ ∃ n ∈ due, n.id = m) ∧ clocks choices = [] := by
  induction due generalizing w choices count with
  | nil =>
    obtain ⟨rfl, hb⟩ := Prog.runs_done.1 h
    cases hb
    exact ⟨rfl, fun m => by simp, rfl⟩
  | cons n rest ih =>
    obtain ⟨c, cs, enqueued, w₁, rfl, hstep, hafter⟩ := Prog.runs_perform.1 h
    obtain ⟨rfl, he⟩ := Choice.quietly_eq_some.1 hstep
    have hnext : ((enqueueEach now rest).bind fun requeued =>
        Prog.done (if enqueued then requeued + 1 else requeued)).runs exec cs w₁ =
          some (count, w') := hafter
    obtain ⟨cs₁, cs₂, requeued, w₂, rfl, hrest, hdone⟩ := Prog.runs_bind.1 hnext
    obtain ⟨rfl, hb⟩ := Prog.runs_done.1 hdone
    cases hb
    obtain ⟨hsame, hwaiting⟩ := enqueueDispatch_waiting he
    obtain ⟨hsame', hwaiting', hclocks⟩ := ih hrest
    refine ⟨hsame'.trans hsame, fun m => ?_, ?_⟩
    · rw [hwaiting', hwaiting, List.exists_mem_cons_iff, or_assoc]
      exact or_congr_right (or_congr_left eq_comm)
    · rw [clocks_cons_nothing, List.append_nil]
      exact hclocks

/-- The batch of a pass: the oldest of what is due. -/
def World.batch (w : World) (now : Date) : List NotificationRecord :=
  ((w.due now).insertionSort createdFirst).take MAINTENANCE_BATCH_SIZE

theorem mem_abandoned {reapedAt : Date} {r : NotificationRecord}
    (h : r ∈ w.abandoned configuration reapedAt) :
    r ∈ w.notifications.rows ∧ r.status = .PROCESSING := by
  obtain ⟨hr, hp⟩ := Table.mem_select.1 (List.mem_insertionSort _ |>.1 (List.mem_of_mem_take h))
  simp only [Bool.decide_and, Bool.and_eq_true, decide_eq_true_eq] at hp
  exact ⟨hr, hp.1⟩

theorem abandoned_nodup (reapedAt : Date) :
    ((w.abandoned configuration reapedAt).map (·.id)).Nodup := by
  have hsorted : (((w.notifications.select fun r => r.status = .PROCESSING ∧
      r.claimedAt.any (· < reapedAt - configuration.stuckClaimTimeoutSeconds * 1000)).insertionSort
        fun a b => a.claimedAt.getD 0 ≤ b.claimedAt.getD 0).map (·.id)).Nodup := by
    refine ((List.perm_insertionSort _ _).map _).nodup_iff.2 ?_
    exact w.notifications.nodup.sublist (List.filter_sublist.map _)
  exact hsorted.sublist ((List.take_sublist _ _).map _)

/-- What one pass does. -/
theorem runOnce_returns {report : MaintenanceReport}
    (h : (runOnce configuration).runs exec choices w = some (report, w')) :
    ∃ reapedAt now, clocks choices = [reapedAt, now] ∧
      w'.notifications.rows = w.notifications.rows.map
        (fun r => if r ∈ w.abandoned configuration reapedAt then r.returned reapedAt else r) ∧
      ∀ m, Waiting w' m ↔ Waiting w m ∨
        (∃ n ∈ w.abandoned configuration reapedAt, n.id = m) ∨ ∃ n ∈ w'.batch now, n.id = m := by
  obtain ⟨cs₁, cs₂, reaped, w₁, rfl, hreap, h⟩ := Prog.runs_bind.1 h
  obtain ⟨cs₃, cs₄, requeued, w₂, rfl, hrequeue, hdone⟩ := Prog.runs_bind.1 h
  obtain ⟨rfl, hb⟩ := Prog.runs_done.1 hdone
  cases hb
  -- the claims
  obtain ⟨c, cs, reapedAt, w₃, rfl, he, hreap⟩ := Prog.runs_perform.1 hreap
  obtain ⟨_, hdate, he⟩ := given_eq_some.1 he
  cases he
  obtain ⟨c', cs, stuck, w₃, rfl, he, hreap⟩ := Prog.runs_perform.1 hreap
  obtain ⟨rfl, he⟩ := Choice.quietly_eq_some.1 he
  cases he
  obtain ⟨hrows, hwaiting, hclocks⟩ :=
    releaseEach_returns hreap (fun n hn => mem_abandoned hn) (abandoned_nodup reapedAt)
  -- what is due
  obtain ⟨c'', cs', now, w₄, rfl, he, hrequeue⟩ := Prog.runs_perform.1 hrequeue
  obtain ⟨_, hdate', he⟩ := given_eq_some.1 he
  cases he
  obtain ⟨c', cs', due, w₄, rfl, he, hrequeue⟩ := Prog.runs_perform.1 hrequeue
  obtain ⟨rfl, he⟩ := Choice.quietly_eq_some.1 he
  cases he
  obtain ⟨hsame, hwaiting', hclocks'⟩ := enqueueEach_waiting hrequeue
  refine ⟨reapedAt, now, ?_, ?_, fun m => ?_⟩
  · cases c <;> cases hdate
    cases c'' <;> cases hdate'
    simp only [clocks, List.append_nil, List.cons_append, List.filterMap_cons,
      List.filterMap_append, Choice.date?] at hclocks hclocks' ⊢
    rw [hclocks, hclocks']
    rfl
  · rw [hsame, hrows]
    rfl
  · rw [hwaiting', hwaiting, or_assoc]
    refine or_congr_right (or_congr_right ?_)
    unfold World.batch World.due
    rw [hsame]
    rfl

/-! ## What stays due -/

theorem isDue_mono {now t : Date} {r : NotificationRecord} (h : isDue now r) (ht : now ≤ t) :
    isDue t r := by
  simp only [isDue, decide_eq_true_eq, Option.any_eq_true] at h ⊢
  rcases h with h | ⟨hs, at', hat, h⟩ | ⟨hs, at', hat, h⟩
  · exact .inl h
  · exact .inr (.inl ⟨hs, at', hat, h.trans ht⟩)
  · exact .inr (.inr ⟨hs, at', hat, h.trans ht⟩)

theorem isDue_returned {reapedAt t : Date} (r : NotificationRecord) (h : reapedAt ≤ t) :
    isDue t (r.returned reapedAt) := by
  simp only [isDue, decide_eq_true_eq, Option.any_eq_true]
  exact .inr (.inl ⟨rfl, reapedAt, rfl, h⟩)

theorem not_processing_of_due {now : Date} {r : NotificationRecord} (h : isDue now r) :
    r.status ≠ .PROCESSING := by
  intro hs
  simp [isDue, hs] at h

/-- A claim in progress is not due, and what is due is no abandoned claim. -/
theorem not_abandoned_of_due {reapedAt now : Date} {r : NotificationRecord} (h : isDue now r) :
    r ∉ w.abandoned configuration reapedAt :=
  fun hr => not_processing_of_due h (mem_abandoned hr).2

/-- The table row by row: rows keep their place in the order of creation, and those that stood in
line stay due. -/
structure Carries (stands : NotificationRecord → Bool) (now : Date)
    (f : NotificationRecord → NotificationRecord) : Prop where
  id : ∀ r, (f r).id = r.id
  createdAt : ∀ r, (f r).createdAt = r.createdAt
  due : ∀ r, stands r → ∀ t, now ≤ t → isDue t (f r)

theorem carries_first {reapedAt now : Date} (h : reapedAt ≤ now) :
    Carries (w.stands configuration reapedAt now) now
      fun r => if r ∈ w.abandoned configuration reapedAt then r.returned reapedAt else r where
  id r := by split <;> rfl
  createdAt r := by split <;> rfl
  due r hr t ht := by
    by_cases hmem : r ∈ w.abandoned configuration reapedAt
    · rw [if_pos hmem]
      exact isDue_returned r (h.trans ht)
    · rw [if_neg hmem]
      simp only [World.stands, hmem, decide_false, Bool.or_false] at hr
      exact isDue_mono hr ht

theorem Carries.next {stands : NotificationRecord → Bool} {now reapedAt : Date}
    {f : NotificationRecord → NotificationRecord} (h : Carries stands now f) :
    Carries stands now ((fun r =>
      if r ∈ w.abandoned configuration reapedAt then r.returned reapedAt else r) ∘ f) where
  id r := by
    rw [← h.id r, Function.comp]
    split <;> rfl
  createdAt r := by
    rw [← h.createdAt r, Function.comp]
    split <;> rfl
  due r hr t ht := by
    rw [Function.comp, if_neg (not_abandoned_of_due (h.due r hr t ht))]
    exact h.due r hr t ht

/-! ## Whom a batch takes -/

/-- The batch of a carried table, read off the table before. -/
theorem batch_carried {stands : NotificationRecord → Bool} {now t : Date}
    {f : NotificationRecord → NotificationRecord} (hf : Carries stands now f)
    (hrows : w'.notifications.rows = w.notifications.rows.map f) :
    w'.batch t = (((w.notifications.rows.filter fun r => isDue t (f r)).insertionSort
      createdFirst).take MAINTENANCE_BATCH_SIZE).map f := by
  have hsort (l : List NotificationRecord) :
      (l.insertionSort createdFirst).map f = (l.map f).insertionSort createdFirst := by
    refine List.map_insertionSort createdFirst createdFirst f l fun a _ b _ => ?_
    rw [createdFirst, createdFirst, hf.createdAt, hf.createdAt]
  unfold World.batch World.due Table.select
  rw [hrows, List.filter_map, List.map_take, hsort]
  rfl

/-- A row a later batch takes stood in the first part of the line already. -/
theorem mem_line_of_batch {now reapedAt t : Date} {f : NotificationRecord → NotificationRecord}
    (hf : Carries (w.stands configuration reapedAt now) now f)
    (hrows : w'.notifications.rows = w.notifications.rows.map f) (ht : now ≤ t)
    {d n : NotificationRecord} (hd : d ∈ w.due now) (hn : n ∈ w'.batch t) (hid : n.id = d.id) :
    d ∈ (w.line configuration reapedAt now).take MAINTENANCE_BATCH_SIZE := by
  obtain ⟨hmem, hdue⟩ := Table.mem_select.1 hd
  rw [batch_carried hf hrows] at hn
  obtain ⟨r, hr, rfl⟩ := List.mem_map.1 hn
  have hr' : r ∈ w.notifications.rows :=
    List.mem_of_mem_filter ((List.mem_insertionSort _).1 (List.mem_of_mem_take hr))
  obtain rfl : r = d :=
    List.inj_on_of_nodup_map w.notifications.nodup hr' hmem ((hf.id r).symm.trans hid)
  have hstands : w.stands configuration reapedAt now r = true := by
    unfold World.stands
    rw [hdue, Bool.true_or]
  exact mem_batch_of_longer (fun a _ ha => hf.due a ha t ht) hstands hr

/-- The first batch takes the first part of the line. -/
theorem mem_first_batch {now reapedAt : Date} (hle : reapedAt ≤ now)
    (hrows : w'.notifications.rows = w.notifications.rows.map
      (fun r => if r ∈ w.abandoned configuration reapedAt then r.returned reapedAt else r))
    {d : NotificationRecord}
    (hd : d ∈ (w.line configuration reapedAt now).take MAINTENANCE_BATCH_SIZE) :
    ∃ n ∈ w'.batch now, n.id = d.id := by
  have hf : Carries (w.stands configuration reapedAt now) now _ := carries_first hle
  have hline : (w.notifications.rows.filter fun r => isDue now
      (if r ∈ w.abandoned configuration reapedAt then r.returned reapedAt else r)) =
        w.notifications.select (w.stands configuration reapedAt now) := by
    refine List.filter_congr fun r _ => ?_
    by_cases hmem : r ∈ w.abandoned configuration reapedAt
    · rw [if_pos hmem, isDue_returned r hle]
      simp only [World.stands, hmem, decide_true, Bool.or_true]
    · rw [if_neg hmem]
      simp only [World.stands, hmem, decide_false, Bool.or_false]
  rw [batch_carried hf hrows, hline]
  exact ⟨_, List.mem_map_of_mem hd, hf.id d⟩

end Pass

/-! ## Several passes -/

section Passes

variable {configuration : Configuration} {w : World}

theorem clocks_later {now : Date} {first : List Choice} {rest : List (List Choice)} {a : Date}
    (hfirst : clocks first = [a, now])
    (h : ((first :: rest).flatMap clocks).Pairwise (· ≤ ·)) :
    a ≤ now ∧ ∀ choices ∈ rest, ∀ t ∈ clocks choices, now ≤ t := by
  rw [List.flatMap_cons, hfirst] at h
  obtain ⟨ha, h⟩ := List.pairwise_cons.1 h
  obtain ⟨hnow, -⟩ := List.pairwise_cons.1 h
  exact ⟨ha now List.mem_cons_self,
    fun choices hc t ht => hnow t (List.mem_flatMap.2 ⟨choices, hc, ht⟩)⟩

/-- No pass takes a job away. -/
theorem passes_waiting {rounds : List (List Choice)} {v v' : World}
    (h : passes configuration rounds v = some v') {n : Uuid} (hn : Waiting v n) :
    Waiting v' n := by
  induction rounds generalizing v with
  | nil =>
    cases h
    exact hn
  | cons choices rest ih =>
    obtain ⟨⟨report, v₁⟩, hpass, hrest⟩ := Option.bind_eq_some_iff.1 h
    obtain ⟨_, _, -, -, hwaiting⟩ := runOnce_returns hpass
    exact ih hrest ((hwaiting n).2 (.inl hn))

/-- Whoever gets a job in a later pass stood in the first part of the line. -/
theorem mem_line_of_waiting {reapedAt now : Date} {d : NotificationRecord} (hd : d ∈ w.due now)
    {rounds : List (List Choice)} {f : NotificationRecord → NotificationRecord} {v v' : World}
    (hf : Carries (w.stands configuration reapedAt now) now f)
    (hrows : v.notifications.rows = w.notifications.rows.map f)
    (hclock : ∀ choices ∈ rounds, ∀ t ∈ clocks choices, now ≤ t)
    (h : passes configuration rounds v = some v') (hw : Waiting v' d.id) :
    Waiting v d.id ∨ d ∈ (w.line configuration reapedAt now).take MAINTENANCE_BATCH_SIZE := by
  induction rounds generalizing v f with
  | nil =>
    cases h
    exact .inl hw
  | cons choices rest ih =>
    obtain ⟨⟨report, v₁⟩, hpass, hrest⟩ := Option.bind_eq_some_iff.1 h
    obtain ⟨a, t, hclocks, hrows₁, hwaiting⟩ := runOnce_returns hpass
    have ht : now ≤ t := hclock choices List.mem_cons_self t (by simp [hclocks])
    have hf₁ : Carries _ now ((fun r =>
        if r ∈ v.abandoned configuration a then r.returned a else r) ∘ f) := hf.next
    have hrows' : v₁.notifications.rows = w.notifications.rows.map _ :=
      hrows₁.trans ((congrArg _ hrows).trans (List.map_map ..))
    rcases ih hf₁ hrows' (fun c hc => hclock c (List.mem_cons_of_mem _ hc)) hrest with hv | hline
    · rcases (hwaiting d.id).1 hv with hv | ⟨n, hn, hid⟩ | ⟨n, hn, hid⟩
      · exact .inl hv
      · -- what is due is in no claim
        obtain ⟨hmem, hs⟩ := mem_abandoned hn
        rw [hrows] at hmem
        obtain ⟨r, hr, rfl⟩ := List.mem_map.1 hmem
        obtain ⟨hd', hdue⟩ := Table.mem_select.1 hd
        obtain rfl : r = d :=
          List.inj_on_of_nodup_map w.notifications.nodup hr hd' ((hf.id r).symm.trans hid)
        have hstands : w.stands configuration reapedAt now r = true := by
          unfold World.stands
          rw [hdue, Bool.true_or]
        exact absurd hs (not_processing_of_due (hf.due r hstands now le_rfl))
      · exact .inr (mem_line_of_batch hf₁ hrows' ht hd hn hid)
    · exact .inr hline

/-- Whoever the passes gave a job stood in the first part of the line of the first one. -/
theorem mem_line_of_drained {reapedAt now : Date} {first : List Choice}
    {rest : List (List Choice)} {w' : World} (hfirst : clocks first = [reapedAt, now])
    (hclock : ((first :: rest).flatMap clocks).Pairwise (· ≤ ·))
    (h : passes configuration (first :: rest) w = some w') {d : NotificationRecord}
    (hd : d ∈ w.due now) (hfresh : ¬ Waiting w d.id) (hw : Waiting w' d.id) :
    d ∈ (w.line configuration reapedAt now).take MAINTENANCE_BATCH_SIZE := by
  obtain ⟨hle, hlater⟩ := clocks_later hfirst hclock
  obtain ⟨⟨report, w₁⟩, hpass, hrest⟩ := Option.bind_eq_some_iff.1 h
  obtain ⟨a, t, hclocks, hrows, hwaiting⟩ := runOnce_returns hpass
  cases hfirst.symm.trans hclocks
  have hf : Carries (w.stands configuration reapedAt now) now _ := carries_first hle
  obtain ⟨hmem, hdue⟩ := Table.mem_select.1 hd
  rcases mem_line_of_waiting hd hf hrows hlater hrest hw with hv | hline
  · rcases (hwaiting d.id).1 hv with hv | ⟨n, hn, hid⟩ | ⟨n, hn, hid⟩
    · exact absurd hv hfresh
    · obtain rfl : n = d :=
        List.inj_on_of_nodup_map w.notifications.nodup (mem_abandoned hn).1 hmem hid
      exact absurd hn (not_abandoned_of_due hdue)
    · exact mem_line_of_batch hf hrows le_rfl hd hn hid
  · exact hline

/-- Run alone, as many passes as it takes, one for every batch the due notifications fill, give a
job to each of them exactly when the first pass already did: when, in the order of creation, no more
than one batch stand in line up to the last of them. -/
theorem backlog_drains_iff {reapedAt now : Date} {rounds : List (List Choice)} {w' : World}
    (hfresh : ∀ r ∈ w.due now, ¬ Waiting w r.id)
    (hlength : rounds.length = (w.due now).length ⌈/⌉ MAINTENANCE_BATCH_SIZE)
    (hclock : (rounds.flatMap clocks).Pairwise (· ≤ ·))
    (hfirst : ∀ first ∈ rounds.head?, clocks first = [reapedAt, now])
    (h : passes configuration rounds w = some w') :
    (∀ r ∈ w.due now, Waiting w' r.id) ↔
      ∀ r ∈ w.due now, r ∈ (w.line configuration reapedAt now).take MAINTENANCE_BATCH_SIZE := by
  cases rounds with
  | nil =>
    -- no pass, as nothing is due
    have hnone : w.due now = [] := by
      rw [List.length_nil, Nat.ceilDiv_eq_add_pred_div, MAINTENANCE_BATCH_SIZE] at hlength
      exact List.length_eq_zero_iff.1 (by omega)
    simp [hnone]
  | cons first rest =>
    have hclocks := hfirst first rfl
    constructor
    · intro hall d hd
      exact mem_line_of_drained hclocks hclock h hd (hfresh d hd) (hall d hd)
    · intro hline d hd
      obtain ⟨⟨report, w₁⟩, hpass, hrest⟩ := Option.bind_eq_some_iff.1 h
      obtain ⟨a, t, hclocks', hrows, hwaiting⟩ := runOnce_returns hpass
      cases hclocks.symm.trans hclocks'
      obtain ⟨n, hn, hid⟩ := mem_first_batch (clocks_later hclocks hclock).1 hrows (hline d hd)
      exact passes_waiting hrest ((hwaiting d.id).2 (.inr (.inr ⟨n, hn, hid⟩)))

/-- With no claim to return the line is what is due, and everybody finds a place in the first batch
exactly when one batch is enough. -/
theorem line_fits_iff {reapedAt now : Date} (hnone : w.abandoned configuration reapedAt = []) :
    (∀ r ∈ w.due now, r ∈ (w.line configuration reapedAt now).take MAINTENANCE_BATCH_SIZE) ↔
      (w.due now).length ≤ MAINTENANCE_BATCH_SIZE := by
  have hline : w.line configuration reapedAt now = (w.due now).insertionSort createdFirst := by
    unfold World.line World.due
    refine congrArg _ (List.filter_congr fun r _ => ?_)
    simp [World.stands, hnone]
  rw [hline]
  constructor
  · intro h
    have hnodup : (w.due now).Nodup := (w.notifications.nodup.of_map _).filter _
    exact (List.subperm_of_subset hnodup h).length_le.trans (List.length_take_le _ _)
  · intro h r hr
    rw [List.take_of_length_le (by rwa [List.length_insertionSort])]
    exact (List.mem_insertionSort _).2 hr

/-! ## Passes run to their end -/

theorem enqueueEach_runs (now : Date) (due : List NotificationRecord) (v : World) :
    ∃ choices x, (enqueueEach now due).runs exec choices v = some x := by
  induction due generalizing v with
  | nil => exact ⟨[], (0, v), rfl⟩
  | cons n rest ih =>
    obtain ⟨b, v₁, he⟩ : ∃ b v₁, enqueueDispatch (n.job now) v = some (b, v₁) := by
      unfold enqueueDispatch
      split
      · exact ⟨_, _, rfl⟩
      · exact ⟨_, _, rfl⟩
    obtain ⟨choices, ⟨count, v₂⟩, hrest⟩ := ih v₁
    refine ⟨.nothing :: choices, (if b then count + 1 else count, v₂), ?_⟩
    refine Prog.runs_perform.2 ⟨_, _, b, v₁, rfl, Choice.quietly_eq_some.2 ⟨rfl, he⟩, ?_⟩
    have hbind : ((enqueueEach now rest).bind fun requeued =>
        Prog.done (if b then requeued + 1 else requeued)).runs exec choices v₁ = _ :=
      Prog.runs_bind.2 ⟨choices, [], count, v₂, (List.append_nil _).symm, hrest, rfl⟩
    exact hbind

/-- With no claim in progress a pass runs to its end, at any time. -/
theorem runOnce_runs (configuration : Configuration) (now : Date) (v : World)
    (hnone : ∀ r ∈ v.notifications.rows, r.status ≠ .PROCESSING) :
    ∃ choices x, (runOnce configuration).runs exec choices v = some x ∧
      clocks choices = [now, now] ∧ x.2.notifications = v.notifications := by
  obtain ⟨choices, ⟨count, v'⟩, hrun⟩ := enqueueEach_runs now (v.batch now) v
  have hstuck : v.abandoned configuration now = [] := by
    refine List.eq_nil_iff_forall_not_mem.2 fun r hr => ?_
    obtain ⟨hmem, hs⟩ := mem_abandoned hr
    exact hnone r hmem hs
  obtain ⟨hsame, -, hclocks⟩ := enqueueEach_waiting hrun
  have hreap : (reapStuckClaims configuration).runs exec [.date now, .nothing] v = some (0, v) := by
    refine Prog.runs_perform.2 ⟨_, _, now, v, rfl, rfl, ?_⟩
    refine Prog.runs_perform.2 ⟨_, _, v.abandoned configuration now, v, rfl, rfl, ?_⟩
    rw [hstuck]
    rfl
  refine ⟨[.date now, .nothing] ++ ([.date now, .nothing] ++ choices), (⟨0, count⟩, v'), ?_, ?_,
    hsame⟩
  · refine Prog.runs_bind.2 ⟨_, _, 0, v, rfl, hreap, ?_⟩
    refine Prog.runs_bind.2 ⟨_, [], count, v', (List.append_nil _).symm, ?_, rfl⟩
    refine Prog.runs_perform.2 ⟨_, _, now, v, rfl, rfl, ?_⟩
    exact Prog.runs_perform.2 ⟨_, _, v.batch now, v, rfl, rfl, hrun⟩
  · rw [clocks_append, clocks_append, hclocks]
    rfl

theorem passes_run (configuration : Configuration) (now : Date) (count : Nat) (v : World)
    (hnone : ∀ r ∈ v.notifications.rows, r.status ≠ .PROCESSING) :
    ∃ rounds v', rounds.length = count ∧ passes configuration rounds v = some v' ∧
      ∀ choices ∈ rounds, clocks choices = [now, now] := by
  induction count generalizing v with
  | zero => exact ⟨[], v, rfl, rfl, nofun⟩
  | succ count ih =>
    obtain ⟨choices, x, hpass, hclocks, hsame⟩ := runOnce_runs configuration now v hnone
    obtain ⟨rounds, v', hlength, hrest, hall⟩ := ih x.2 (by rwa [hsame])
    refine ⟨choices :: rounds, v', congrArg (· + 1) hlength, ?_, ?_⟩
    · exact Option.bind_eq_some_iff.2 ⟨x, hpass, hrest⟩
    · intro c hc
      rcases List.mem_cons.1 hc with rfl | hc
      · exact hclocks
      · exact hall c hc

end Passes

namespace Sample

/-- A number of notifications wait to be sent, and no job for any of them. -/
def backlog (count : Nat) : World := { world .RETRY with
  notifications := {
    rows := (List.range count).map fun i => { draft.row 0 with id := i, createdAt := i }
    nodup := by
      rw [List.map_map]
      exact (List.map_id _).symm ▸ List.nodup_range } }

theorem due_backlog (count : Nat) :
    (backlog count).due 0 = (backlog count).notifications.rows := by
  refine List.filter_eq_self.2 fun r hr => ?_
  obtain ⟨i, -, rfl⟩ := List.mem_map.1 hr
  rfl

theorem length_backlog (count : Nat) : ((backlog count).due 0).length = count := by
  rw [due_backlog, backlog, List.length_map, List.length_range]

theorem backlog_idle (count : Nat) :
    ∀ r ∈ (backlog count).notifications.rows, r.status ≠ .PROCESSING := by
  intro r hr
  obtain ⟨i, -, rfl⟩ := List.mem_map.1 hr
  nofun

/-- A claim that was abandoned stands between a retry that is due, a scheduled notification whose
time is reached and one that is queued; a second retry is not due yet. The newest was stored
first. -/
def mixedBacklog : World := { world .RETRY with
  notifications := {
    rows := [
      { draft.row 0 with id := 4, createdAt := 40 },
      { draft.row 0 with
        id := 1, createdAt := 10, status := .RETRYING, nextAttemptAt := some 250000 },
      { draft.row 0 with
        id := 2, createdAt := 20, status := .PROCESSING, claimToken := some 9,
        claimedAt := some 60000 },
      { draft.row 0 with
        id := 5, createdAt := 5, status := .RETRYING, nextAttemptAt := some 900000 },
      { draft.row 0 with
        id := 3, createdAt := 30, status := .SCHEDULED, scheduledAt := some 400000 }]
    nodup := by decide } }

/-- A pass that returns the claim with a job of its own and offers four jobs. -/
def mixedPass : List Choice :=
  [.date 400000, .nothing, .nothing, .date 400001, .nothing, .nothing, .nothing, .nothing, .nothing]

end Sample

/-- A pass drains a backlog of three kinds of due notifications and an abandoned claim: all of them
get a job, the retry whose time has not come does not. -/
theorem backlog_drains_mixed :
    ∃ w', passes Sample.configuration [Sample.mixedPass] Sample.mixedBacklog = some w' ∧
      (Sample.mixedBacklog.abandoned Sample.configuration 400000).map (·.id) = [2] ∧
      (Sample.mixedBacklog.due 400001).map (·.id) = [4, 1, 3] ∧
      (∀ r ∈ Sample.mixedBacklog.due 400001, Waiting w' r.id) ∧
      w'.dispatchJobs.map (·.notificationId) = [2, 1, 3, 4] := by
  have hruns : (passes Sample.configuration [Sample.mixedPass] Sample.mixedBacklog).any (fun w' =>
      w'.dispatchJobs.map (·.notificationId) = [2, 1, 3, 4]) = true := by decide +kernel
  obtain ⟨w', h, hjobs⟩ := (Option.any_eq_true _ _).1 hruns
  have hfresh : ∀ r ∈ Sample.mixedBacklog.due 400001, ¬ Waiting Sample.mixedBacklog r.id := by
    rintro r - ⟨_, hj, -⟩
    cases hj
  have hline : ∀ r ∈ Sample.mixedBacklog.due 400001,
      r ∈ (Sample.mixedBacklog.line Sample.configuration 400000 400001).take
        MAINTENANCE_BATCH_SIZE := by decide +kernel
  have hfirst : ∀ first ∈ [Sample.mixedPass].head?, clocks first = [400000, 400001] := by
    rintro _ ⟨⟩
    rfl
  refine ⟨w', h, by decide +kernel, by decide +kernel, ?_, of_decide_eq_true hjobs⟩
  exact (backlog_drains_iff hfresh (by decide) (by decide) hfirst h).2 hline

/-- 201 notifications, two passes, and one of the notifications is still without a job. -/
theorem backlog_left_over : ∃ rounds w',
    ((Sample.backlog 201).due 0).length = 201 ∧ (Sample.backlog 201).dispatchJobs = [] ∧
      rounds.length = 201 ⌈/⌉ MAINTENANCE_BATCH_SIZE ∧
      passes Sample.configuration rounds (Sample.backlog 201) = some w' ∧
      ∃ r ∈ (Sample.backlog 201).due 0, ¬ Waiting w' r.id := by
  obtain ⟨rounds, w', hlength, hruns, hclocks⟩ :=
    passes_run Sample.configuration 0 2 (Sample.backlog 201) (Sample.backlog_idle 201)
  refine ⟨rounds, w', Sample.length_backlog 201, rfl, hlength, hruns, ?_⟩
  by_contra hall
  simp only [not_exists, not_and, not_not] at hall
  obtain ⟨first, second, rfl⟩ := List.length_eq_two.1 hlength
  have hfirst := hclocks first (by simp)
  have hsecond := hclocks second (by simp)
  have hclock : ([first, second].flatMap clocks).Pairwise (· ≤ ·) := by
    simp [hfirst, hsecond]
  have hnone : (Sample.backlog 201).abandoned Sample.configuration 0 = [] := by
    refine List.eq_nil_iff_forall_not_mem.2 fun r hr => ?_
    obtain ⟨hmem, hs⟩ := mem_abandoned hr
    exact Sample.backlog_idle 201 r hmem hs
  have hfits := (line_fits_iff hnone).1 fun r hr =>
    mem_line_of_drained hfirst hclock hruns hr (by rintro ⟨_, hj, -⟩; cases hj) (hall r hr)
  rw [Sample.length_backlog] at hfits
  exact absurd hfits (by decide)

end NotificationPlatform
