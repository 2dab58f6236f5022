import NotificationPlatform.Inbox.Ingestion

/-!
# Every callback is filed once

A row of the inbox and its job are written in one transaction, and the unique index on a session's
events decides which of several transactions writes them. `Files` is the invariant of all calls
side by side: what each holds uncommitted is fresh, and what is committed agrees with the queue.
-/

namespace NotificationPlatform

namespace PublicApi

open Interleaving Relational Transactional

/-! ## One call -/

section Conformance

variable (environment : IngestEnvironment)

/-- A refusal comes before anything is written, and a success after the commit. -/
def Filing.Returns (q : Filing) (r : Except RequestError IngestWebhookResult) : Prop :=
  ∃ result, r = .ok result ∧ match result.outcome with
    | .rejected | .malformed => q.stage = .reading ∨ ∃ session, q.stage = .found session
    | .accepted | .duplicate => ∃ event, q.stage = .filed event

/-- From the generated identifier on. The transaction commits what the callback names, or
nothing. -/
theorem conforms_fileEnvelope {input : IngestWebhookInput} {session : StoredSessionRecord}
    {envelope : WebhookEnvelope} (now : Date) (hsession : Authenticates environment input session)
    (henvelope : readEnvelope environment input.rawBody = some envelope) :
    Conforms (filingTypestate environment) FilingAnswers ⟨input, .found session⟩
      (fileEnvelope input session now envelope).run Filing.Returns := by
  refine ⟨trivial, fun deliveryId _ => ?_⟩
  refine ⟨⟨rfl, hsession⟩, fun t _ => ?_⟩
  refine ⟨⟨rfl, hsession.1, envelope, henvelope, rfl⟩, fun delivery hdelivery => ?_⟩
  cases delivery with
  | none => exact ⟨rfl, fun _ _ => ⟨_, rfl, _, rfl⟩⟩
  | some delivery => exact ⟨⟨rfl, rfl⟩, fun _ _ => ⟨rfl, fun _ _ => ⟨_, rfl, _, rfl⟩⟩⟩

theorem conforms_ingest (input : IngestWebhookInput) :
    Conforms (filingTypestate environment) FilingAnswers { input }
      (ingest environment input).run Filing.Returns := by
  rw [ingest, perform, Raising.run_call_bind]
  refine ⟨rfl, fun found hfound => ?_⟩
  cases found with
  | none => exact ⟨_, rfl, .inl rfl⟩
  | some session =>
    have hrefused : ∀ reason, Filing.Returns ⟨input, .found session⟩ (.ok (rejected reason)) :=
      fun reason => ⟨_, rfl, .inr ⟨session, rfl⟩⟩
    dsimp only
    cases hsignature : input.signature.filter (fun s => decide (s.length ≠ 0)) with
    | none => exact hrefused _
    | some signature =>
      dsimp only
      cases hkey : environment.decryptSecret session.webhookSigningKeyCiphertext with
      | none => exact hrefused _
      | some signingKey =>
        dsimp only
        cases hvalid : isWebhookSignatureValid environment input.rawBody signature signingKey with
        | false => exact hrefused _
        | true =>
          rw [if_neg (by simp), perform, Raising.run_call_bind]
          refine ⟨trivial, fun now _ => ?_⟩
          dsimp only
          cases hfresh : isWebhookTimestampAcceptable environment input.timestampHeader now with
          | false => exact hrefused _
          | true =>
            rw [if_neg (by simp)]
            cases henvelope : readEnvelope environment input.rawBody with
            | none => exact ⟨_, rfl, .inr ⟨session, rfl⟩⟩
            | some envelope =>
              exact conforms_fileEnvelope environment now
                ⟨hfound, signature, signingKey, (Option.filter_eq_some_iff.1 hsignature).1, hkey,
                  hvalid⟩ henvelope

end Conformance

/-! ## What the operations do -/

section Operations

variable {policies : Bool} {db db' : Database} {c : Choice}

/-- A delivery is inserted, or its event is in sight. -/
theorem record_cases {t : Nat} {input : WebhookDeliveryRepository.RecordWebhookDeliveryInput}
    {r : Option WebhookDeliveryRecord}
    (h : exec policies db (.recordDelivery t input) c = some (r, db')) :
    (r = some (WebhookDeliveryRepository.delivery input) ∧
        Inserted db db' t (.webhookDelivery (WebhookDeliveryRepository.delivery input))) ∨
      (r = none ∧ db' = db ∧ ∃ r' ∈ (db.store.view t).rows,
        index r' = some (.providerEvent input.whatsAppSessionId input.providerEventId)) := by
  change WebhookDeliveryRepository.record _ _ _ = _ at h
  unfold WebhookDeliveryRepository.record at h
  split at h
  · obtain ⟨inserted, db₁, h₁, h₂⟩ := Statement.bind_eq_some.1 h
    obtain ⟨rfl, rfl⟩ := Statement.pure_eq_some.1 h₂
    rcases insert_inserted h₁ with ⟨rfl, hinserted⟩ | ⟨rfl, rfl, r', hr', hi⟩
    · exact .inl ⟨rfl, hinserted⟩
    · exact .inr ⟨rfl, rfl, r', hr', hi⟩
  · cases h

theorem enqueueWebhookProcess_inserted {t : Nat} {job : WebhookJob} {u : Unit}
    (h : exec policies db (.enqueueWebhookProcess t job) c = some (u, db')) :
    ∃ id, Inserted db db' t (.webhookJob id job) := by
  obtain ⟨id, db₁, h₁, h₂⟩ := Statement.bind_eq_some.1 h
  cases h₁
  have hinserted := insertOrFail_inserted h₂
  exact ⟨_, hinserted.wrote, hinserted.free⟩

theorem filing_answers {o : Op} {r : o.Ret} (h : exec policies db o c = some (r, db')) :
    FilingAnswers o r := by
  cases o with
  | findSessionByIdWithoutTenantScope s =>
    cases r with
    | none => trivial
    | some session =>
      have hfind := congrArg Prod.fst (Option.some.inj h)
      have hid := List.find?_some (p := fun x : StoredSessionRecord => decide (x.id = s)) hfind
      change session.id = s
      exact of_decide_eq_true hid
  | _ => trivial

end Operations

@[reducible] def filingDiscipline (policies : Bool) (environment : IngestEnvironment) :
    Discipline (ingestion environment policies) where
  toTypestate := filingTypestate environment
  initial input := { input }
  Answers := FilingAnswers
  Returns := fun _ => Filing.Returns
  answers_exec := filing_answers
  conforms := conforms_ingest environment

/-! ## The inbox and its queue -/

/-- The inbox has a row for the event. -/
def IsFiled (db : Database) (whatsAppSessionId : Uuid) (providerEventId : String) : Prop :=
  ∃ d, Row.webhookDelivery d ∈ db.store.committed.rows ∧
    d.whatsAppSessionId = whatsAppSessionId ∧ d.providerEventId = providerEventId

/-- Every row that was added to the inbox has one job, and no other job was added. -/
structure Agrees (base : List Row) (db : Database) : Prop where
  kept : ∀ r ∈ base, r ∈ db.store.committed.rows
  queued : ∀ {d}, Added base db (.webhookDelivery d) →
    ∃ id job, Added base db (.webhookJob id job) ∧ job.webhookDeliveryId = d.id
  filed : ∀ {id job}, Added base db (.webhookJob id job) →
    ∃ d, Added base db (.webhookDelivery d) ∧ d.id = job.webhookDeliveryId
  once : ∀ {id job id' job'}, Added base db (.webhookJob id job) →
    Added base db (.webhookJob id' job') →
    job.webhookDeliveryId = job'.webhookDeliveryId → id = id' ∧ job = job'

section Leaves

variable {t : Option Nat} {db db' : Database}

theorem IsFiled.grows {s : Uuid} {e : String} (h : IsFiled db s e) (hl : Leaves t db db') :
    IsFiled db' s e := by
  obtain ⟨d, hd, hrest⟩ := h
  exact ⟨d, hl.grows _ hd, hrest⟩

theorem Agrees.congr {base : List Row} (h : Agrees base db)
    (hsame : db'.store.committed = db.store.committed) : Agrees base db' := by
  obtain ⟨kept, queued, filed, once⟩ := h
  refine ⟨?_, ?_, ?_, ?_⟩ <;> simp only [Added, hsame]
  · exact kept
  · exact queued
  · exact filed
  · exact once

end Leaves

/-! ## What a call knows of the database -/

/-- The transaction a call has open. -/
def FilingStage.transaction? : FilingStage → Option Nat
  | .begun t | .known t _ | .recorded t _ | .queued t _ => some t
  | _ => none

/-- What the transaction has written so far. -/
def FilingStage.Wrote (rows : List Row) : FilingStage → Prop
  | .recorded _ delivery => rows = [.webhookDelivery delivery]
  | .queued _ delivery => ∃ id job, rows = [.webhookDelivery delivery, .webhookJob id job] ∧
    job.webhookDeliveryId = delivery.id
  | _ => rows = []

/-- What the call found out or wrote is what the callback says. -/
def Filing.Means (environment : IngestEnvironment) (q : Filing) : Prop :=
  match q.stage with
  | .reading | .found _ | .identified _ => True
  | .begun _ => ∃ session, Authenticates environment q.input session
  | .known _ event | .filed event => (∃ session, Authenticates environment q.input session) ∧
    ∃ envelope, readEnvelope environment q.input.rawBody = some envelope ∧ event = envelope.id
  | .recorded _ delivery | .queued _ delivery =>
    (∃ session, Authenticates environment q.input session) ∧
      q.Names environment delivery.whatsAppSessionId delivery.providerEventId

/-- The event a call has found on file. -/
def FilingStage.event? : FilingStage → Option String
  | .known _ event | .filed event => some event
  | _ => none

structure Filing.Holds (environment : IngestEnvironment) (q : Filing) (db : Database) : Prop where
  means : q.Means environment
  begun : ∀ {t}, q.stage.transaction? = some t → t < db.store.next
  wrote : ∀ {t own}, q.stage.transaction? = some t → db.store.opened t = some own →
    q.stage.Wrote own.rows ∧ Fresh db own.rows
  filed : ∀ {event}, q.stage.event? = some event →
    IsFiled db q.input.whatsAppSessionId event

section Steps

variable {environment : IngestEnvironment} {policies : Bool} {db db' : Database} {c : Choice}
  {q : Filing} {input : IngestWebhookInput} {stage stage' : FilingStage}

/-- What the others do, a call does not notice. -/
theorem Filing.Holds.leaves (h : q.Holds environment db) {t : Option Nat} (hl : Leaves t db db')
    (hne : ∀ t', q.stage.transaction? = some t' → some t' ≠ t) : q.Holds environment db' where
  means := h.means
  begun := fun ht => (h.begun ht).trans_le hl.next
  wrote := fun ht hown => by
    have hown' := hl.opened (h.begun ht) (hne _ ht) hown
    obtain ⟨hwrote, hfresh⟩ := h.wrote ht hown'
    exact ⟨hwrote, hl.fresh (hne _ ht) hown' hfresh⟩
  filed := fun he => (h.filed he).grows hl

theorem Filing.Holds.own (h : q.Holds environment db) {t : Nat}
    (ht : q.stage.transaction? = some t) (hopen : (db.store.opened t).isSome) :
    q.stage.Wrote (db.store.own t).rows ∧ Fresh db (db.store.own t).rows := by
  obtain ⟨own, hown⟩ := Option.isSome_iff_exists.1 hopen
  rw [Versions.own_of_opened hown]
  exact h.wrote ht hown

theorem uniqueValue_eq_providerEvent {r : Row} {s : Uuid} {e : String} :
    r.uniqueValue = some (.providerEvent s e) ↔
      ∃ d, r = .webhookDelivery d ∧ d.whatsAppSessionId = s ∧ d.providerEventId = e := by
  cases r <;> simp [Row.uniqueValue]

/-- A call that has nothing open and found nothing knows nothing of the database. -/
theorem Filing.Holds.quiet (hmeans : Filing.Means environment q)
    (ht : q.stage.transaction? = none) (he : q.stage.event? = none) :
    q.Holds environment db where
  means := hmeans
  begun := fun h => by cases ht.symm.trans h
  wrote := fun h => by cases ht.symm.trans h
  filed := fun h => by cases he.symm.trans h

theorem Agrees.commit {base rows : List Row} (h : Agrees base db) (hfresh : Fresh db rows)
    (hmem : ∀ r, r ∈ db'.store.committed.rows ↔ r ∈ db.store.committed.rows ∨ r ∈ rows)
    (hrows : rows = [] ∨ ∃ delivery id job, rows = [.webhookDelivery delivery, .webhookJob id job] ∧
      job.webhookDeliveryId = delivery.id) : Agrees base db' := by
  have hkept : ∀ r ∈ base, r ∈ db'.store.committed.rows := fun r hr =>
    (hmem r).2 (.inl (h.kept r hr))
  have hadded : ∀ r, Added base db' r ↔ Added base db r ∨ r ∈ rows := by
    intro r
    simp only [Added, hmem, or_and_right]
    exact or_congr_right (and_iff_left_of_imp fun hr hold => hfresh r hr r (h.kept r hold) rfl)
  rcases hrows with rfl | ⟨delivery, id, job, rfl, hnames⟩
  · simp only [List.not_mem_nil, or_false] at hadded
    refine ⟨hkept, ?_, ?_, ?_⟩ <;> simp only [hadded]
    · exact h.queued
    · exact h.filed
    · exact h.once
  · -- no job that was added is for the new delivery: its delivery would have the same key
    have hnew : ∀ {id' job'}, Added base db (.webhookJob id' job') →
        job'.webhookDeliveryId ≠ delivery.id := by
      intro id' job' hj hsame
      obtain ⟨d, hd, hid⟩ := h.filed hj
      refine hfresh (.webhookDelivery delivery) (by simp) _ hd.1 ?_
      simp only [key_row, Row.primaryKey, hid, hsame]
    have hjob : ∀ {id' job'}, Row.webhookJob id' job' ∈ [Row.webhookDelivery delivery,
        .webhookJob id job] → id' = id ∧ job' = job := by
      intro id' job' hj
      simpa using hj
    refine ⟨hkept, fun {d} hd => ?_, fun {id' job'} hj => ?_, fun {_ _ _ _} hj hj' hsame => ?_⟩
    · rcases (hadded _).1 hd with hd | hd
      · obtain ⟨id', job', hj, hid⟩ := h.queued hd
        exact ⟨id', job', (hadded _).2 (.inl hj), hid⟩
      · obtain rfl : d = delivery := by simpa using hd
        exact ⟨id, job, (hadded _).2 (.inr (by simp)), hnames⟩
    · rcases (hadded _).1 hj with hj | hj
      · obtain ⟨d, hd, hid⟩ := h.filed hj
        exact ⟨d, (hadded _).2 (.inl hd), hid⟩
      · obtain ⟨rfl, rfl⟩ := hjob hj
        exact ⟨delivery, (hadded _).2 (.inr (by simp)), hnames.symm⟩
    · rcases (hadded _).1 hj with hj | hj <;> rcases (hadded _).1 hj' with hj' | hj'
      · exact h.once hj hj' hsame
      · obtain ⟨rfl, rfl⟩ := hjob hj'
        exact absurd (hsame.trans hnames) (hnew hj)
      · obtain ⟨rfl, rfl⟩ := hjob hj
        exact absurd (hsame.symm.trans hnames) (hnew hj')
      · obtain ⟨rfl, rfl⟩ := hjob hj
        obtain ⟨rfl, rfl⟩ := hjob hj'
        exact ⟨rfl, rfl⟩

/-- What a step of a call leaves: the others what they have, the inbox and its queue in agreement,
and itself what it knows next. -/
structure Filing.Steps (environment : IngestEnvironment) (base : List Row)
    (input : IngestWebhookInput) (stage stage' : FilingStage) (db db' : Database) : Prop where
  leaves : Leaves stage.transaction? db db'
  agrees : Agrees base db'
  holds : Filing.Holds environment ⟨input, stage'⟩ db'
  transaction : ∀ {t}, stage'.transaction? = some t →
    stage.transaction? = some t ∨ db.store.next ≤ t

/-! ### One lemma for each move -/

theorem Filing.steps_begin {base : List Row} {session : StoredSessionRecord} {t : Nat}
    (hagrees : Agrees base db) (authenticated : Authenticates environment input session)
    (he : exec policies db (.begin none) c = some (t, db')) :
    Filing.Steps environment base input (.identified session) (.begun t) db db' := by
  obtain ⟨rfl, rfl⟩ := exec_begin_eq he
  refine ⟨leaves_begin none, hagrees.congr rfl, ⟨⟨_, authenticated⟩, fun ht => ?_,
    fun {t own} ht hown => ?_, fun he => by cases he⟩, fun ht => ?_⟩
  · cases ht
    exact Nat.lt_succ_self _
  · cases ht
    simp only [Store.start, Function.update_self, Option.some.injEq] at hown
    subst hown
    exact ⟨rfl, by rintro _ ⟨⟩⟩
  · cases ht
    exact .inr (Nat.le_refl _)

/-- A callback that was filed before leaves no row, and its delivery is on file. -/
theorem Filing.Holds.finds {base : List Row} {t : Nat}
    {delivery : WebhookDeliveryRepository.RecordWebhookDeliveryInput}
    (h : Filing.Holds environment ⟨input, .begun t⟩ db) (hagrees : Agrees base db)
    (names : Filing.Names environment ⟨input, .begun t⟩ delivery.whatsAppSessionId
      delivery.providerEventId)
    (he : exec policies db (.recordDelivery t delivery) c = some (none, db')) :
    Filing.Steps environment base input (.begun t) (.known t delivery.providerEventId) db db' := by
  rcases record_cases he with ⟨hr, -⟩ | ⟨-, rfl, r, hr, hindex⟩
  · cases hr
  · have hempty : r ∉ (db'.store.own t).rows := by
      intro hown
      obtain ⟨own, hopened, hown⟩ := Store.mem_own_opened hown
      rw [(h.wrote rfl hopened).1] at hown
      cases hown
    have hcommitted : r ∈ db'.store.committed.rows :=
      ((Store.mem_view.1 hr).resolve_right hempty).1
    refine ⟨leaves_within (.refl _ _), hagrees, ⟨⟨h.means, names.2⟩, h.begun, h.wrote,
      fun he => ?_⟩, .inl⟩
    cases he
    obtain ⟨d, rfl, hsession, hevent⟩ := uniqueValue_eq_providerEvent.1 hindex
    exact ⟨d, hcommitted, hsession.trans names.1, hevent⟩

theorem Filing.Holds.records {base : List Row} {t : Nat}
    {delivery : WebhookDeliveryRepository.RecordWebhookDeliveryInput}
    {row : WebhookDeliveryRecord}
    (h : Filing.Holds environment ⟨input, .begun t⟩ db) (hagrees : Agrees base db)
    (names : Filing.Names environment ⟨input, .begun t⟩ delivery.whatsAppSessionId
      delivery.providerEventId)
    (he : exec policies db (.recordDelivery t delivery) c = some (some row, db')) :
    Filing.Steps environment base input (.begun t) (.recorded t row) db db' := by
  have hwithin : Within (some t) db db' := exec_within (by simp) (by simp) (by simp) he
  rcases record_cases he with ⟨hr, hinserted⟩ | ⟨hr, -⟩
  · cases hr
    have hwrote := hinserted.wrote
    refine ⟨leaves_within hwithin, hagrees.congr hwithin.committed, ⟨⟨h.means, names⟩,
      fun ht => (h.begun ht).trans_eq hwithin.next.symm, fun {t' own} ht hown => ?_,
      fun he => by cases he⟩, .inl⟩
    cases ht
    obtain ⟨hempty, -⟩ := h.own rfl hwrote.isOpen
    have hempty : (db.store.own t).rows = [] := hempty
    simp only [hwrote.opened, Function.update_self, Option.some.injEq] at hown
    have hrows : own.rows =
        [.webhookDelivery (WebhookDeliveryRepository.delivery delivery)] := by
      rw [← hown]
      simp only [overlay, hempty, List.filter_nil, List.nil_append, one]
    exact ⟨hrows, hrows ▸ (fresh_of_clash hinserted.free).congr hwithin.committed⟩
  · cases hr

theorem Filing.Holds.queues {base : List Row} {t : Nat} {delivery : WebhookDeliveryRecord}
    {job : WebhookJob} {u : Unit}
    (h : Filing.Holds environment ⟨input, .recorded t delivery⟩ db) (hagrees : Agrees base db)
    (names : job.webhookDeliveryId = delivery.id)
    (he : exec policies db (.enqueueWebhookProcess t job) c = some (u, db')) :
    Filing.Steps environment base input (.recorded t delivery) (.queued t delivery) db db' := by
  have hwithin : Within (some t) db db' := exec_within (by simp) (by simp) (by simp) he
  obtain ⟨id, hinserted⟩ := enqueueWebhookProcess_inserted he
  have hwrote := hinserted.wrote
  refine ⟨leaves_within hwithin, hagrees.congr hwithin.committed, ⟨h.means,
    fun ht => (h.begun ht).trans_eq hwithin.next.symm, fun {t' own} ht hown => ?_,
    fun he => by cases he⟩, .inl⟩
  cases ht
  obtain ⟨hbefore, hfresh⟩ := h.own rfl hwrote.isOpen
  have hbefore : (db.store.own t).rows = [.webhookDelivery delivery] := hbefore
  simp only [hwrote.opened, Function.update_self, Option.some.injEq] at hown
  have hrows : own.rows = [.webhookDelivery delivery, .webhookJob id job] := by
    rw [← hown]
    simp [overlay, hbefore, one, key_row, Row.primaryKey]
  have hown' : (db'.store.own t).rows = own.rows := by
    rw [hwrote.own, hown]
  exact ⟨⟨id, job, hrows, names⟩, hown' ▸ hfresh.inserted hinserted⟩

theorem Filing.Holds.commits_known {base : List Row} {t : Nat} {event : String} {u : Unit}
    (h : Filing.Holds environment ⟨input, .known t event⟩ db) (hagrees : Agrees base db)
    (he : exec policies db (.commit t) c = some (u, db')) :
    Filing.Steps environment base input (.known t event) (.filed event) db db' := by
  obtain ⟨store, rfl, hended⟩ := exec_commit_ended he
  obtain ⟨hempty, hfresh⟩ := h.own rfl hended.isOpen
  have hmem := fun r => mem_commit (r := r) hended hfresh
  have hleaves : Leaves (some t) db { db with store } := leaves_committed hended hfresh
  refine ⟨hleaves, hagrees.commit hfresh hmem (.inl hempty), ⟨h.means, fun ht => ?_,
    fun ht => ?_, fun he => ?_⟩, fun ht => ?_⟩
  · cases ht
  · cases ht
  · cases he
    exact (h.filed rfl).grows hleaves
  · cases ht

/-- A delivery is committed together with its job. -/
theorem Filing.Holds.commits_queued {base : List Row} {t : Nat} {delivery : WebhookDeliveryRecord}
    {u : Unit} (h : Filing.Holds environment ⟨input, .queued t delivery⟩ db)
    (hagrees : Agrees base db) (he : exec policies db (.commit t) c = some (u, db')) :
    Filing.Steps environment base input (.queued t delivery) (.filed delivery.providerEventId)
      db db' := by
  obtain ⟨store, rfl, hended⟩ := exec_commit_ended he
  obtain ⟨⟨id, job, hrows, hnames⟩, hfresh⟩ := h.own rfl hended.isOpen
  have hmem := fun r => mem_commit (r := r) hended hfresh
  have hleaves : Leaves (some t) db { db with store } := leaves_committed hended hfresh
  obtain ⟨hsession, hnamed⟩ := h.means
  refine ⟨hleaves, hagrees.commit hfresh hmem (.inr ⟨delivery, id, job, hrows, hnames⟩),
    ⟨⟨hsession, hnamed.2⟩, fun ht => ?_, fun ht => ?_, fun he => ?_⟩, fun ht => ?_⟩
  · cases ht
  · cases ht
  · cases he
    exact ⟨delivery, (hmem _).2 (.inr (by simp [hrows])), hnamed.1, rfl⟩
  · cases ht

theorem Filing.Move.steps {base : List Row} {o : Op} {r : o.Ret}
    (hm : Filing.Move environment input stage o r stage')
    (h : Filing.Holds environment ⟨input, stage⟩ db) (hagrees : Agrees base db)
    (he : exec policies db o c = some (r, db')) :
    Filing.Steps environment base input stage stage' db db' := by
  cases hm with
  | unknown | found | clock | identified =>
    have hwithin : Within none db db' := exec_within (by simp) (by simp) (by simp) he
    exact ⟨leaves_within hwithin, hagrees.congr hwithin.committed, .quiet trivial rfl rfl,
      fun ht => by cases ht⟩
  | begun authenticated => exact steps_begin hagrees authenticated he
  | known names => exact h.finds hagrees names he
  | recorded names => exact h.records hagrees names he
  | queued names => exact h.queues hagrees names he
  | left => exact h.commits_known hagrees he
  | filed => exact h.commits_queued hagrees he

end Steps

/-! ## All calls -/

/-- The inbox agrees with its queue, and what each call knows is so. -/
structure Files (environment : IngestEnvironment) (base : List Row) (ph : Nat → Option Filing)
    (db : Database) : Prop where
  agrees : Agrees base db
  apart : ∀ {i j q q' t}, ph i = some q → ph j = some q' → q.stage.transaction? = some t →
    q'.stage.transaction? = some t → i = j
  holds : ∀ {i q}, ph i = some q → q.Holds environment db

section Runs

variable {environment : IngestEnvironment} {policies : Bool} {base : List Row}
  {ph : Nat → Option Filing} {db db' : Database} {i : Nat}

theorem Files.spawn (h : Files environment base ph db) (input : IngestWebhookInput) :
    Files environment base (Function.update ph i (some { input })) db := by
  have hphase : ∀ {j q}, Function.update ph i (some { input }) j = some q →
      q = { input } ∨ ph j = some q := by
    intro j q hq
    by_cases hji : j = i
    · subst hji
      rw [Function.update_self] at hq
      exact .inl (Option.some.inj hq).symm
    · rw [Function.update_of_ne hji] at hq
      exact .inr hq
  refine ⟨h.agrees, fun {j k q q' t} hj hk ht ht' => ?_, fun {j q} hj => ?_⟩
  · rcases hphase hj with rfl | hj
    · cases ht
    · rcases hphase hk with rfl | hk
      · cases ht'
      · exact h.apart hj hk ht ht'
  · rcases hphase hj with rfl | hj
    · exact .quiet trivial rfl rfl
    · exact h.holds hj

theorem Files.advance {q : Filing} {o : Op} {r : o.Ret} {c : Choice}
    (h : Files environment base ph db) (hi : ph i = some q) (ho : q.Allows environment o)
    (he : exec policies db o c = some (r, db')) :
    Files environment base (Function.update ph i (some (q.advance o r))) db' := by
  have hsteps : Filing.Steps environment base q.input q.stage (q.advance o r).stage db db' :=
    (Filing.move environment ho).steps (h.holds hi) h.agrees he
  -- no other call has the transaction open
  have hother : ∀ {j q'}, j ≠ i → ph j = some q' → ∀ t, q'.stage.transaction? = some t →
      some t ≠ q.stage.transaction? := by
    intro j q' hji hj t ht hsame
    exact hji (h.apart hj hi ht hsame.symm)
  refine ⟨hsteps.agrees, fun {j k q₁ q₂ t} hj hk ht ht' => ?_, fun {j q'} hj => ?_⟩
  · -- the transaction of the call is the one it had open, or one nobody had begun
    have hmine : ∀ {j q' t}, j ≠ i → ph j = some q' → q'.stage.transaction? = some t →
        (q.advance o r).stage.transaction? ≠ some t := by
      intro j q' t hji hj ht hsame
      rcases hsteps.transaction hsame with hold | hnew
      · exact hother hji hj t ht hold.symm
      · exact absurd ((h.holds hj).begun ht) (Nat.not_lt.2 hnew)
    by_cases hji : j = i <;> by_cases hki : k = i
    · rw [hji, hki]
    · subst hji
      rw [Function.update_self, Option.some.injEq] at hj
      rw [Function.update_of_ne hki] at hk
      exact absurd (hj ▸ ht) (hmine hki hk ht')
    · subst hki
      rw [Function.update_self, Option.some.injEq] at hk
      rw [Function.update_of_ne hji] at hj
      exact absurd (hk ▸ ht') (hmine hji hj ht)
    · rw [Function.update_of_ne hji] at hj
      rw [Function.update_of_ne hki] at hk
      exact h.apart hj hk ht ht'
  · by_cases hji : j = i
    · subst hji
      rw [Function.update_self, Option.some.injEq] at hj
      exact hj ▸ hsteps.holds
    · rw [Function.update_of_ne hji] at hj
      exact (h.holds hj).leaves hsteps.leaves (hother hji hj)

theorem Files.outside {event : DatabaseEvent} (h : Files environment base ph db)
    (he : databaseOutside db event = some db') : Files environment base ph db' := by
  obtain ⟨hleaves, hsame⟩ := outside_leaves he
  exact ⟨h.agrees.congr hsame, h.apart, fun hj =>
    (h.holds hj).leaves hleaves fun _ _ hnone => by cases hnone⟩

end Runs

/-- Where every call is. -/
abbrev filings {environment : IngestEnvironment} {policies : Bool}
    (s : System (ingestion environment policies)) : Nat → Option Filing :=
  (filingDiscipline policies environment).phase s

section Runs

variable {environment : IngestEnvironment} {policies : Bool}
  {P : System (ingestion environment policies) → Label (ingestion environment policies) → Prop}
  {s : System (ingestion environment policies)} {db : Database}

theorem agrees_self (db : Database) : Agrees db.store.committed.rows db where
  kept := fun _ hr => hr
  queued := fun hd => absurd hd.1 hd.2
  filed := fun hj => absurd hj.1 hj.2
  once := fun hj => absurd hj.1 hj.2

theorem files_run (h : Run P (System.start db) s) :
    Files environment db.store.committed.rows (filings s) s.world :=
  Discipline.run_invariant (D := filingDiscipline policies environment)
    (Files environment db.store.committed.rows)
    ⟨agrees_self db, fun hj => (by cases hj), fun hj => (by cases hj)⟩
    (fun request h _ => h.spawn request) (fun h hi ho _ he => h.advance hi ho he)
    (fun h he => h.outside he) h

/-- A read outside any transaction. -/
def Op.isRead : Op → Bool
  | .findSessionByIdWithoutTenantScope _ | .clockNow => true
  | _ => false

theorem exec_read {o : Op} {r : o.Ret} {db' : Database} {c : Choice} (ho : o.isRead = true)
    (h : exec policies db o c = some (r, db')) : db' = db := by
  cases o <;> simp only [Op.isRead, Bool.false_eq_true] at ho
  case findSessionByIdWithoutTenantScope s => exact (congrArg Prod.snd (Option.some.inj h)).symm
  case clockNow =>
    cases c with
    | date now => exact (Statement.pure_eq_some.1 h).2
    | nothing | locked => cases h

/-- A call that has not identified its delivery has only read. -/
theorem read_of_reading (h : Run P (System.start db) s) {e : Performed operations}
    (he : e ∈ s.trace) {q : Filing} (hq : filings s e.thread = some q)
    (hstage : q.stage = .reading ∨ ∃ session, q.stage = .found session) : e.op.isRead = true := by
  refine Discipline.run_remembers (D := filingDiscipline policies environment)
    (fun q o _ => (q.stage = .reading ∨ ∃ session, q.stage = .found session) → o.isRead = true)
    (J := fun _ => True) (fun _ _ => trivial) ?_ ?_ h he hq hstage
  · rintro ⟨input, stage⟩ o r _ ho hafter
    have hmove : Filing.Move environment input stage o r (Filing.next stage o r) :=
      Filing.move environment ho
    change Filing.next stage o r = _ ∨ ∃ _, Filing.next stage o r = _ at hafter
    generalize Filing.next stage o r = after at hmove hafter
    cases hmove <;> simp [Op.isRead] at hafter ⊢
  · rintro ⟨input, stage⟩ o r o' r' _ ho hbefore hafter
    have hmove : Filing.Move environment input stage o r (Filing.next stage o r) :=
      Filing.move environment ho
    change Filing.next stage o r = _ ∨ ∃ _, Filing.next stage o r = _ at hafter
    generalize Filing.next stage o r = after at hmove hafter
    refine hbefore ?_
    cases hmove <;> simp at hafter ⊢

/-! ## Exactly once -/

/-- What was committed stays committed: no callback removes a row or rewrites one. -/
theorem committed_lasts {s' : System (ingestion environment policies)}
    (h : Run P (System.start db) s) (h' : Run P s s') :
    ∀ r ∈ s.world.store.committed.rows, r ∈ s'.world.store.committed.rows := by
  induction h' with
  | refl => exact fun _ hr => hr
  | @tail s₁ s₂ l hr' _ hs ih =>
    have hrun := h.trans hr'
    have hdisciplined :=
      Discipline.disciplined_run (D := filingDiscipline policies environment) hrun
    intro r hr
    have hbefore := ih r hr
    cases hdisciplined.stepped hs with
    | spawned _ _ _ world | crashed _ _ world => exact world ▸ hbefore
    | @advanced i c o r' q _ _ _ step =>
      have hfiles := files_run hrun
      exact ((Filing.move environment step.allowed).steps (hfiles.holds step.before)
        hfiles.agrees step.exec).leaves.grows r hbefore
    | outside _ _ world =>
      exact (outside_leaves world).1.grows r hbefore

/-- Where a call was when it returned. -/
theorem returned_filing (h : Run P (System.start db) s) {i : Nat} {input : IngestWebhookInput}
    {result : Except RequestError IngestWebhookResult}
    (hi : s.threads i = some ⟨input, .running (.done result)⟩) :
    ∃ q, filings s i = some q ∧ q.input = input ∧ q.Returns result := by
  have hdisciplined := Discipline.disciplined_run (D := filingDiscipline policies environment) h
  have hphase := Discipline.phase_eq (D := filingDiscipline policies environment) hi
  refine ⟨_, hphase, ?_, hdisciplined.residual hi⟩
  refine Discipline.run_phases (D := filingDiscipline policies environment)
    (fun input q => q.input = input) (fun _ => rfl) (fun hq _ _ => hq) h ?_ hphase
  rw [System.requestOf, hi]
  rfl

/-- What filing callbacks comes to, from a database `db` and after a run that ended in `s`. -/
structure FiledOnce (db : Database) (s : System (ingestion environment policies)) : Prop where
  /-- The inbox has one row for an event of a session. -/
  row : ∀ {d d'}, Row.webhookDelivery d ∈ s.world.store.committed.rows →
    Row.webhookDelivery d' ∈ s.world.store.committed.rows →
    d.whatsAppSessionId = d'.whatsAppSessionId → d.providerEventId = d'.providerEventId → d = d'
  /-- The callbacks inserted one job for it, -/
  job : ∀ {d d' id job id' job'}, Row.webhookDelivery d ∈ s.world.store.committed.rows →
    Row.webhookDelivery d' ∈ s.world.store.committed.rows →
    d.whatsAppSessionId = d'.whatsAppSessionId → d.providerEventId = d'.providerEventId →
    Added db.store.committed.rows s.world (.webhookJob id job) → job.webhookDeliveryId = d.id →
    Added db.store.committed.rows s.world (.webhookJob id' job') → job'.webhookDeliveryId = d'.id →
    id = id' ∧ job = job'
  /-- where they inserted the row, -/
  queued : ∀ {d}, Added db.store.committed.rows s.world (.webhookDelivery d) →
    ∃ id job, Added db.store.committed.rows s.world (.webhookJob id job) ∧
      job.webhookDeliveryId = d.id
  /-- and nowhere else. -/
  filed : ∀ {id job}, Added db.store.committed.rows s.world (.webhookJob id job) →
    ∃ d, Added db.store.committed.rows s.world (.webhookDelivery d) ∧ d.id = job.webhookDeliveryId
  /-- What was inserted stays. -/
  lasting : ∀ {s'}, Run Any s s' → ∀ r ∈ s.world.store.committed.rows,
    r ∈ s'.world.store.committed.rows
  /-- A call answers accepted or duplicate only with the event on file. -/
  answered : ∀ {i input result}, s.threads i = some ⟨input, .running (.done (.ok result))⟩ →
    result.outcome = .accepted ∨ result.outcome = .duplicate →
    ∃ envelope, readEnvelope environment input.rawBody = some envelope ∧
      IsFiled s.world input.whatsAppSessionId envelope.id
  /-- A call that answers rejected or malformed changed nothing with any of its steps. -/
  refused : ∀ {i input result}, s.threads i = some ⟨input, .running (.done (.ok result))⟩ →
    result.outcome = .rejected ∨ result.outcome = .malformed →
    ∀ {s₁ s₂ c}, Run Any (System.start db) s₁ → s₁.step (.advance i c) = some s₂ → Run Any s₂ s →
      s₂.world = s₁.world

/-- **Every callback is filed once**, however often the provider sends it and however its calls
interleave and crash. -/
theorem callbacks_filed_once (h : Run P (System.start db) s) : FiledOnce db s := by
  have hfiles := files_run h
  have hrow : ∀ {d d'}, Row.webhookDelivery d ∈ s.world.store.committed.rows →
      Row.webhookDelivery d' ∈ s.world.store.committed.rows →
      d.whatsAppSessionId = d'.whatsAppSessionId → d.providerEventId = d'.providerEventId →
      d = d' := by
    intro d d' hd hd' hsession hevent
    have hview : Row.webhookDelivery d ∈ (s.world.store.of none).rows := hd
    have hview' : Row.webhookDelivery d' ∈ (s.world.store.of none).rows := hd'
    have hkey : key (Row.webhookDelivery d) = key (Row.webhookDelivery d') :=
      s.world.store.coherent.unique hview hview' rfl (by rw [hsession, hevent]; rfl)
    exact Row.webhookDelivery.inj
      (List.inj_on_of_nodup_map s.world.store.committed.nodup hd hd' hkey)
  refine ⟨hrow, ?_, hfiles.agrees.queued, hfiles.agrees.filed, committed_lasts h.any, ?_, ?_⟩
  · intro d d' id job id' job' hd hd' hsession hevent hj hid hj' hid'
    obtain rfl := hrow hd hd' hsession hevent
    exact hfiles.agrees.once hj hj' (hid.trans hid'.symm)
  · intro i input result hi houtcome
    obtain ⟨q, hq, rfl, result', hresult, hstage⟩ := returned_filing h hi
    cases hresult
    obtain ⟨event, hstage⟩ : ∃ event, q.stage = .filed event := by
      rcases houtcome with houtcome | houtcome <;> rw [houtcome] at hstage <;> exact hstage
    have hholds := hfiles.holds hq
    have hmeans := hholds.means
    rw [Filing.Means, hstage] at hmeans
    obtain ⟨-, envelope, henvelope, rfl⟩ := hmeans
    exact ⟨envelope, henvelope, hholds.filed (by rw [hstage]; rfl)⟩
  · intro i input result hi houtcome s₁ s₂ c h₁ hs h₂
    obtain ⟨q, hq, -, result', hresult, hstage⟩ := returned_filing h hi
    cases hresult
    have hread : q.stage = .reading ∨ ∃ session, q.stage = .found session := by
      rcases houtcome with houtcome | houtcome <;> rw [houtcome] at hstage <;> exact hstage
    obtain ⟨o, r, q₁, step⟩ :=
      (Discipline.disciplined_run (D := filingDiscipline policies environment) h₁).advanced hs
    have hmem : ⟨i, o, r⟩ ∈ s.trace :=
      h₂.trace_suffix.subset (step.trace ▸ List.mem_cons_self)
    exact exec_read (read_of_reading h hmem hq hread) step.exec

end Runs

/-! ## A callback that is sent again -/

namespace Retries

def body : Buffer :=
  Utf16.toUtf8 (Utf16.ofString
    "\x7b\"id\":\"evt_1\",\"event\":\"message.ack\",\"session\":\"main\",\"payload\":\x7b\x7d\x7d")

/-- The HMAC of the body under the key `key`. -/
def signature : Utf16.Text := Utf16.ofString
  ("a2c6849da1eda39344377e4e32c6d8743d20d0fd5e124065d5357d6f636ef3b0" ++
    "0dc26d378a95965ecadd98cd170139adc676e3aa75f9de973d6959139bd3bed9")

def environment : IngestEnvironment where
  decryptSecret _ := some (Utf16.ofString "key")
  createHmac _ _ := signature
  toNumber _ := none
  parseJson _ := some (.object [("id", .string "evt_1"), ("event", .string "message.ack"),
    ("session", .string "main"), ("payload", .object [])])
  webhookToleranceSeconds := 300

def session : StoredSessionRecord where
  id := 2
  applicationId := 1
  providerSessionName := "main"
  status := .WORKING
  phoneNumber := none
  pushName := none
  sendPacingMinimumSeconds := 30
  sendPacingMaximumSeconds := 60
  nextSendAllowedAt := 0
  sendingPausedUntil := none
  sendingPausedReason := none
  accountLimits := none
  accountLimitsCheckedAt := none
  lastStatusAt := 0
  lastError := none
  updatedAt := 0
  webhookSigningKeyCiphertext := [1]
  createdAt := 0

def database : Database where
  store := .settled (one (.session session)) (by
    intro r hr r' hr' x _ _
    rw [List.mem_singleton.1 hr, List.mem_singleton.1 hr'])
  now := 0
  identifiers := 3
  scope := fun _ => none
  startedAt := fun _ => 0

def callback (signature : Option Utf16.Text) : IngestWebhookInput where
  whatsAppSessionId := 2
  rawBody := body
  signature := signature
  timestampHeader := none
  correlationId := "c"

/-- The callback is sent twice, and once without a signature. One of the two calls waits for the
other, which has recorded the event and has not committed. -/
def answered : System (ingestion environment true) :=
  (System.start database).after
    ([.spawn 0 (callback (some signature)), .spawn 1 (callback (some signature)),
      .spawn 2 (callback none)] ++
      [0, 1, 2].map (.advance · .nothing) ++ [0, 1].map (.advance · (.date 5)) ++
      [0, 1, 0, 1, 0, 0, 0, 1, 1].map (.advance · .nothing))

/-- What a call answered. -/
def outcome? (i : Nat) : Option WebhookIngestionOutcome :=
  match answered.threads i with
  | some ⟨_, .running (.done (.ok result))⟩ => some result.outcome
  | _ => none

theorem run_answered : Run Any (System.start database) answered := .any_after _

end Retries

theorem retried_callback_filed_once :
    [0, 1, 2].map Retries.outcome? = [some .accepted, some .duplicate, some .rejected] ∧
      FiledOnce Retries.database Retries.answered :=
  ⟨by decide +kernel, callbacks_filed_once Retries.run_answered⟩

end PublicApi

end NotificationPlatform
