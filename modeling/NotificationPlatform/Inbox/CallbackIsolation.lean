import NotificationPlatform.Inbox.Filing
import NotificationPlatform.Inbox.Isolation

/-!
# A callback reaches one connection

Filing a callback adds its delivery and the job for it, under the connection whose key signed the
body. Processing the delivery reaches that connection and its notifications. What the body says of
sessions and messages decides neither.
-/

namespace NotificationPlatform

open Interleaving Relational

/-! ## The other connections -/

def World.entries (w : World) (n : Uuid) : List NotificationEventRecord :=
  w.notificationEvents.filter (·.notificationId = n)

/-- Nothing that belongs to the connection was changed. -/
structure Spares (sessionId : Uuid) (w w' : World) : Prop where
  session : w'.session sessionId = w.session sessionId
  deliveries : ∀ {d r}, w.delivery d = some r → r.whatsAppSessionId = sessionId →
    w'.delivery d = some r
  notifications : ∀ {n r}, w.row n = some r → r.whatsAppSessionId = sessionId →
    w'.row n = some r ∧ w'.entries n = w.entries n

section Spares

variable {sessionId other d : Uuid} {w w' : World}

/-- A notification that is bound elsewhere gets no entry. -/
theorem Isolated.entries (h : Isolated sessionId d w w') {n : Uuid} {r : NotificationRecord}
    (hr : w.row n = some r) (hne : r.whatsAppSessionId ≠ sessionId) :
    w'.entries n = w.entries n := by
  obtain ⟨added, hadded, hbound⟩ := h.events
  have hnone : added.filter (·.notificationId = n) = [] := by
    refine List.filter_eq_nil_iff.2 fun e he hn => ?_
    obtain ⟨r', hr', hsession⟩ := hbound e he
    rw [of_decide_eq_true hn, hr, Option.some.injEq] at hr'
    exact hne (hr' ▸ hsession)
  rw [World.entries, hadded, List.filter_append, hnone, List.append_nil]
  rfl

theorem Isolated.spares (h : Isolated sessionId d w w') (hne : other ≠ sessionId)
    (hd : ∀ r, w.delivery d = some r → r.whatsAppSessionId = sessionId) :
    Spares other w w' where
  session := h.sessions other hne
  deliveries := by
    rintro d' r hr rfl
    have hother : d' ≠ d := by
      rintro rfl
      exact hne (hd r hr)
    rw [h.deliveries d' hother]
    exact hr
  notifications := by
    rintro n r hr rfl
    refine ⟨?_, h.entries hr hne⟩
    rcases h.notifications n with hsame | ⟨old, -, hold, -, hbound, -⟩
    · exact hsame.trans hr
    · rw [hr, Option.some.injEq] at hold
      exact absurd (hold ▸ hbound) hne

end Spares

section Runs

variable {configuration : Configuration} {P Q : System (platform configuration) →
  Label (platform configuration) → Prop} {w : World} {s s' : System (platform configuration)}
  {d : Uuid}

/-- A delivery stays with its connection. -/
theorem delivery_bound_run (hr : Run P (System.start w) s) {old : WebhookDeliveryRecord}
    (hold : s.world.delivery d = some old) (h : Run Q s s') :
    ∃ new, s'.world.delivery d = some new ∧ new.whatsAppSessionId = old.whatsAppSessionId := by
  induction h with
  | refl => exact ⟨old, hold, rfl⟩
  | @tail s₁ s₂ l hr' _ hs ih =>
    obtain ⟨r, hrow, hsession⟩ := ih
    cases (handled_run (hr.any.trans hr'.any)).stepped hs with
    | spawned _ _ _ world | crashed _ _ world => exact ⟨r, world ▸ hrow, hsession⟩
    | advanced _ _ _ step =>
      obtain ⟨new, hnew, hsame⟩ := delivery_bound_exec step.exec hrow
      exact ⟨new, hnew, hsame.trans hsession⟩
    | outside _ _ world => exact ⟨r, delivery_kept_outside world hrow, hsession⟩

end Runs

namespace PublicApi

open Transactional

section Filing

variable {environment : IngestEnvironment} {policies : Bool} {db db' : Database} {c : Choice}
  {input : IngestWebhookInput} {stage stage' : FilingStage}

/-! ## What filing adds -/

/-- The two rows a call commits. -/
def FilingStage.Commits (rows : List Row) (stage : FilingStage) : Prop :=
  rows = [] ∨ ∃ t delivery id job, stage = .queued t delivery ∧
    rows = [.webhookDelivery delivery, .webhookJob id job] ∧ job.webhookDeliveryId = delivery.id

/-- A step of a call adds to what is committed the rows its transaction wrote, or nothing. -/
theorem Filing.Move.commits {o : Op} {r : o.Ret}
    (hm : Filing.Move environment input stage o r stage')
    (h : Filing.Holds environment ⟨input, stage⟩ db) (he : exec policies db o c = some (r, db')) :
    ∃ rows, stage.Commits rows ∧ ∀ r, r ∈ db'.store.committed.rows ↔
      r ∈ db.store.committed.rows ∨ r ∈ rows := by
  have hnothing : db'.store.committed = db.store.committed →
      ∃ rows, stage.Commits rows ∧ ∀ r, r ∈ db'.store.committed.rows ↔
        r ∈ db.store.committed.rows ∨ r ∈ rows := by
    intro hsame
    exact ⟨[], .inl rfl, fun r => by rw [hsame]; simp⟩
  cases hm with
  | unknown | found | clock | identified | known | recorded | queued =>
    exact hnothing (exec_within (by simp) (by simp) (by simp) he).committed
  | begun =>
    obtain ⟨rfl, rfl⟩ := exec_begin_eq he
    exact hnothing rfl
  | left =>
    obtain ⟨store, rfl, hended⟩ := exec_commit_ended he
    obtain ⟨hempty, hfresh⟩ := h.own rfl hended.isOpen
    exact ⟨_, .inl hempty, fun r => mem_commit hended hfresh⟩
  | filed =>
    obtain ⟨store, rfl, hended⟩ := exec_commit_ended he
    obtain ⟨⟨id, job, hrows, hnames⟩, hfresh⟩ := h.own rfl hended.isOpen
    exact ⟨_, .inr ⟨_, _, id, job, rfl, hrows, hnames⟩, fun r => mem_commit hended hfresh⟩

/-- Everything that was committed is there still. What is new is one delivery of the session the
callback was sent to, and its job; and that session's key signed the body. -/
structure FilesOnly (environment : IngestEnvironment) (input : IngestWebhookInput)
    (db db' : Database) : Prop where
  kept : ∀ r ∈ db.store.committed.rows, r ∈ db'.store.committed.rows
  added : (∀ r, ¬ Added db.store.committed.rows db' r) ∨ ∃ delivery id job,
    delivery.whatsAppSessionId = input.whatsAppSessionId ∧
    job.webhookDeliveryId = delivery.id ∧
    (∃ session, Authenticates environment input session) ∧
    ∀ r, Added db.store.committed.rows db' r →
      r = .webhookDelivery delivery ∨ r = .webhookJob id job

theorem Filing.Move.filesOnly {o : Op} {r : o.Ret}
    (hm : Filing.Move environment input stage o r stage')
    (h : Filing.Holds environment ⟨input, stage⟩ db) (he : exec policies db o c = some (r, db')) :
    FilesOnly environment input db db' := by
  obtain ⟨rows, hcommits, hmem⟩ := hm.commits h he
  refine ⟨fun r hr => (hmem r).2 (.inl hr), ?_⟩
  have hrows : ∀ r, Added db.store.committed.rows db' r → r ∈ rows := fun r hr =>
    ((hmem r).1 hr.1).resolve_left hr.2
  rcases hcommits with rfl | ⟨t, delivery, id, job, rfl, rfl, hnames⟩
  · exact .inl fun r hr => List.not_mem_nil (hrows r hr)
  · obtain ⟨hsession, hnamed⟩ := h.means
    refine .inr ⟨delivery, id, job, hnamed.1, hnames, hsession, fun r hr => ?_⟩
    simpa using hrows r hr

theorem FilesOnly.session_eq (h : FilesOnly environment input db db') {d : WebhookDeliveryRecord}
    (hd : Added db.store.committed.rows db' (.webhookDelivery d)) :
    d.whatsAppSessionId = input.whatsAppSessionId := by
  rcases h.added with hnone | ⟨delivery, id, job, hsession, -, -, hrows⟩
  · exact absurd hd (hnone _)
  · rcases hrows _ hd with he | he
    · cases he
      exact hsession
    · cases he

/-! ## From the callback to the notification -/

/-- **A callback reaches one connection**, whatever it says. A step of the call that files it adds
nothing but the delivery and its job. Each step of each call that processes the delivery later, from
any state and beside any other calls, changes this delivery, the connection the callback was
authenticated for, and notifications of that connection with their timelines; nothing that belongs
to another connection. -/
theorem callback_isolated {P : System (ingestion environment policies) →
      Label (ingestion environment policies) → Prop}
    {s s' : System (ingestion environment policies)} {i : Nat} (hrun : Run P (System.start db) s)
    (hi : s.requestOf i = some input) (hs : s.step (.advance i c) = some s') :
    FilesOnly environment input s.world s'.world ∧
      ∀ {d}, Added s.world.store.committed.rows s'.world (.webhookDelivery d) →
        ∀ {configuration : Configuration} {w : World} {s₀ s₁ s₂ : System (platform configuration)}
          {j : Nat} {choice : NotificationPlatform.Choice},
          Run Any (System.start w) s₀ → s₀.world.delivery d.id = some d → Run Any s₀ s₁ →
          s₁.requestOf j = some (.process d.id) → s₁.step (.advance j choice) = some s₂ →
          Isolated input.whatsAppSessionId d.id s₁.world s₂.world ∧
            ∀ other, other ≠ input.whatsAppSessionId → Spares other s₁.world s₂.world := by
  obtain ⟨o, r, q, step⟩ :=
    (Discipline.disciplined_run (D := filingDiscipline policies environment) hrun).advanced hs
  obtain rfl : q.input = input :=
    Discipline.run_phases (D := filingDiscipline policies environment)
      (fun input q => q.input = input) (fun _ => rfl) (fun hq _ _ => hq) hrun hi step.before
  have hfiles : FilesOnly environment q.input s.world s'.world :=
    (Filing.move environment step.allowed).filesOnly ((files_run hrun).holds step.before) step.exec
  refine ⟨hfiles, fun {d} hd => ?_⟩
  intro configuration w s₀ s₁ s₂ j choice h₀ hfiled h₁ hj hs₁
  have hbound : ∀ r, s₁.world.delivery d.id = some r →
      r.whatsAppSessionId = q.input.whatsAppSessionId := by
    intro r hr
    obtain ⟨new, hnew, hsame⟩ := delivery_bound_run h₀ hfiled h₁
    cases hr.symm.trans hnew
    exact hsame.trans (hfiles.session_eq hd)
  have hisolated := process_isolated (h₀.trans h₁) hj hbound hs₁
  exact ⟨hisolated, fun other hne => hisolated.spares hne hbound⟩

end Filing

namespace Retries

/-- The first call has written its rows, and has not committed them. -/
def written : System (ingestion environment true) :=
  (System.start database).after
    [.spawn 0 (callback (some signature)), .advance 0 .nothing, .advance 0 (.date 5),
      .advance 0 .nothing, .advance 0 .nothing, .advance 0 .nothing, .advance 0 .nothing]

def filed : System (ingestion environment true) := written.after [.advance 0 .nothing]

def inbox (d : WebhookDeliveryRecord) : World := { World.empty with webhookDeliveries := one d }

/-- A worker takes the job of a delivery. -/
def taken (d : WebhookDeliveryRecord) : System (platform ⟨1, 1, 1, 1, false⟩) :=
  (System.start (inbox d)).after [.spawn 0 (.process d.id)]

theorem run_written : Run Any (System.start database) written := .any_after _

theorem requestOf_written : written.requestOf 0 = some (callback (some signature)) := by
  decide +kernel

theorem run_taken (d : WebhookDeliveryRecord) : Run Any (System.start (inbox d)) (taken d) :=
  .any_after _

theorem delivery_taken (d : WebhookDeliveryRecord) : (taken d).world.delivery d.id = some d := by
  change (one d).find? d.id = some d
  exact Table.find?_key (List.mem_singleton_self d)

theorem step_taken (d : WebhookDeliveryRecord) :
    ∃ s, (taken d).step (.advance 0 .nothing) = some s :=
  ⟨_, rfl⟩

/-- The commit adds a delivery. -/
theorem added_filed : ∃ d,
    Added written.world.store.committed.rows filed.world (.webhookDelivery d) := by
  have hnew : RowKey.webhookDelivery 3 ∈ filed.world.store.committed.rows.map key ∧
      RowKey.webhookDelivery 3 ∉ written.world.store.committed.rows.map key := by
    decide +kernel
  obtain ⟨r, hr, hkey⟩ := List.mem_map.1 hnew.1
  cases r with
  | webhookDelivery d =>
    refine ⟨d, hr, fun hold => hnew.2 ?_⟩
    rw [← hkey]
    exact List.mem_map_of_mem hold
  | _ => cases hkey

end Retries

/-- The callback of `Retries`, from its commit to the claim of its delivery. -/
theorem retried_callback_isolated : ∃ d s,
    Added Retries.written.world.store.committed.rows Retries.filed.world (.webhookDelivery d) ∧
    (Retries.taken d).step (.advance 0 .nothing) = some s ∧
    Isolated 2 d.id (Retries.taken d).world s.world := by
  have hcommits : (Retries.written.step (.advance 0 .nothing)).isSome = true := by decide +kernel
  obtain ⟨s₁, hs₁⟩ := Option.isSome_iff_exists.1 hcommits
  obtain rfl : Retries.filed = s₁ := by
    simp only [Retries.filed, System.after, System.steps, hs₁, Option.bind_some, Option.getD_some]
  obtain ⟨d, hadded⟩ := Retries.added_filed
  obtain ⟨s₂, hs₂⟩ := Retries.step_taken d
  obtain ⟨-, hprocess⟩ := callback_isolated Retries.run_written Retries.requestOf_written hs₁
  have hisolated :=
    (hprocess hadded (Retries.run_taken d) (Retries.delivery_taken d) .refl rfl hs₂).1
  exact ⟨d, s₂, hadded, hs₂, hisolated⟩

end PublicApi

end NotificationPlatform
