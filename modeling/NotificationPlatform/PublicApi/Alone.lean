import NotificationPlatform.Transactional.Solo
import NotificationPlatform.PublicApi.CreateNotification

/-!
# The statements of a request that runs alone

What each statement of a tenant's transaction does while no other transaction is open: what it
answers, and what the transaction sees afterwards.
-/

namespace NotificationPlatform

namespace PublicApi

open Relational Transactional
open Utf16 (Text)

/-- Transaction `t` is the only one that is open, and is scoped to application `a`. -/
structure Database.Serving (db : Database) (t : Nat) (a : Uuid) : Prop where
  solo : db.store.Solo t
  scope : db.scope t = some a

/-- A statement of transaction `t` sees the row. -/
def Database.sees (db : Database) (t : Nat) (r : Row) : Prop := r ∈ (db.store.view t).rows

/-- A statement of transaction `t` added the rows `new` to what it sees, and nothing else. -/
structure Adds (db db' : Database) (t : Nat) (new : Row → Prop) : Prop where
  scope : db'.scope = db.scope
  solo : db.store.Solo t → db'.store.Solo t
  committed : db'.store.committed = db.store.committed
  identifiers : db.identifiers ≤ db'.identifiers
  sees : ∀ r, db'.sees t r ↔ db.sees t r ∨ new r

/-- Every row in sight has a number that was handed out. -/
def Database.Numbered (db : Database) (t : Nat) : Prop := ∀ r, db.sees t r → r.id < db.identifiers

namespace Adds

variable {db db₁ db₂ : Database} {t : Nat} {new new' : Row → Prop}

theorem refl (db : Database) (t : Nat) : Adds db db t fun _ => False :=
  ⟨rfl, id, rfl, Nat.le_refl _, fun _ => by simp⟩

theorem trans (h : Adds db db₁ t new) (h' : Adds db₁ db₂ t new') :
    Adds db db₂ t fun r => new r ∨ new' r where
  scope := h'.scope.trans h.scope
  solo := fun hs => h'.solo (h.solo hs)
  committed := h'.committed.trans h.committed
  identifiers := h.identifiers.trans h'.identifiers
  sees := fun r => by rw [h'.sees, h.sees, or_assoc]

theorem serving {a : Uuid} (h : Adds db db₁ t new) (hs : db.Serving t a) : db₁.Serving t a :=
  ⟨h.solo hs.solo, by rw [h.scope]; exact hs.scope⟩

theorem numbered (h : Adds db db₁ t new) (hn : db.Numbered t)
    (hnew : ∀ r, new r → r.id < db₁.identifiers) : db₁.Numbered t := by
  intro r hr
  rcases (h.sees r).1 hr with hr | hr
  · exact Nat.lt_of_lt_of_le (hn r hr) h.identifiers
  · exact hnew r hr

/-- An identifier was handed out. -/
theorem generated (db : Database) (t : Nat) :
    Adds db { db with identifiers := db.identifiers + 1 } t fun _ => False :=
  ⟨rfl, id, rfl, Nat.le_succ _, fun _ => by simp [Database.sees]⟩

end Adds

section Statements

variable {db db' : Database} {t : Nat} {a : Uuid} {policies : Bool} {choice : Choice}

/-- The policies admit the application's own rows. -/
theorem admits_own (h : db.Serving t a) {r : Row} (hr : r.applicationId = some a) :
    (⟨policies, t⟩ : QueryExecutor).admits db r = true := by
  simp [QueryExecutor.admits, h.scope, hr]

theorem select_eq {α : Type} (h : db.Serving t a) (table : Row → Option α) :
    (⟨policies, t⟩ : QueryExecutor).select table db = some
      (((db.store.view t).rows.filter ((⟨policies, t⟩ : QueryExecutor).admits db)).filterMap table,
        db) := by
  unfold QueryExecutor.select
  rw [if_pos h.solo.isOpen]

/-- What a `SELECT` on an application's rows of a table finds. -/
theorem mem_selected {α : Type} (h : db.Serving t a) {table : Row → Option α} {x : α}
    (happ : ∀ r, table r = some x → r.applicationId = some a) :
    x ∈ ((db.store.view t).rows.filter ((⟨policies, t⟩ : QueryExecutor).admits db)).filterMap table ↔
      ∃ r, db.sees t r ∧ table r = some x := by
  simp only [List.mem_filterMap, List.mem_filter]
  constructor
  · rintro ⟨r, ⟨hr, -⟩, hx⟩
    exact ⟨r, hr, hx⟩
  · rintro ⟨r, hr, hx⟩
    exact ⟨r, ⟨hr, admits_own h (happ r hx)⟩, hx⟩

/-! ## Reads -/

theorem exec_listForApplication (h : db.Serving t a) : ∃ sessions,
    (∀ choice, exec policies db (.listForApplication t a) choice = some (sessions, db)) ∧
      ∀ s, s ∈ sessions ↔ db.sees t (.session s) ∧ s.applicationId = a := by
  have hselect := @select_eq db t a policies _ h Row.session?
  refine ⟨((((db.store.view t).rows.filter
    ((⟨policies, t⟩ : QueryExecutor).admits db)).filterMap Row.session?).filter
      (·.applicationId = a)).insertionSort fun a b => a.createdAt ≤ b.createdAt,
    fun choice => Statement.bind_eq_some.2 ⟨_, _, hselect, rfl⟩, fun s => ?_⟩
  rw [List.mem_insertionSort, List.mem_filter]
  simp only [decide_eq_true_eq]
  constructor
  · rintro ⟨hs, ha⟩
    obtain ⟨r, hr, hx⟩ := (mem_selected h fun r hx => by
      rw [Row.session?_eq_some.1 hx, ← ha]
      rfl).1 hs
    rw [Row.session?_eq_some.1 hx] at hr
    exact ⟨hr, ha⟩
  · rintro ⟨hs, ha⟩
    refine ⟨(mem_selected h fun r hx => ?_).2 ⟨_, hs, rfl⟩, ha⟩
    rw [Row.session?_eq_some.1 hx, ← ha]
    rfl

/-- A search among an application's rows of a table finds a row that satisfies what is asked for,
if there is one. -/
theorem find_selected {α : Type} (h : db.Serving t a) {table : Row → Option α} {p : α → Bool}
    (happ : ∀ r x, table r = some x → p x = true → r.applicationId = some a) :
    (∀ x, ((((db.store.view t).rows.filter
        ((⟨policies, t⟩ : QueryExecutor).admits db)).filterMap table).find? p) = some x →
      p x = true ∧ ∃ r, db.sees t r ∧ table r = some x) ∧
    (((((db.store.view t).rows.filter
        ((⟨policies, t⟩ : QueryExecutor).admits db)).filterMap table).find? p) = none →
      ∀ r x, db.sees t r → table r = some x → p x = false) := by
  constructor
  · intro x hx
    have hp := List.find?_some hx
    exact ⟨hp, (mem_selected h fun r hr => happ r x hr hp).1 (List.mem_of_find?_eq_some hx)⟩
  · intro hnone r x hr hx
    by_contra hp
    have hp : p x = true := Bool.of_not_eq_false hp
    have hmem := (@mem_selected db t a policies _ h table x fun r hr => happ r x hr hp).2 ⟨r, hr, hx⟩
    exact List.find?_eq_none.1 hnone x hmem hp

theorem exec_findNotificationById (h : db.Serving t a) (n : Uuid) : ∃ found,
    (∀ choice, exec policies db (.findNotificationById t a n) choice = some (found, db)) ∧
      (∀ r, found = some r → db.sees t (.notification r) ∧ r.applicationId = a ∧ r.id = n) ∧
      (found = none → ∀ r, db.sees t (.notification r) → r.applicationId = a → r.id ≠ n) := by
  have hselect := @select_eq db t a policies _ h Row.notification?
  obtain ⟨hsome, hnone⟩ := @find_selected db t a policies _ h Row.notification?
    (fun r => r.id = n ∧ r.applicationId = a) (fun r x hx hp => by
      rw [Row.notification?_eq_some.1 hx]
      simp only [decide_eq_true_eq] at hp
      exact congrArg some hp.2)
  refine ⟨_, fun choice => Statement.bind_eq_some.2 ⟨_, _, hselect, rfl⟩, fun r hr => ?_,
    fun hn r hr ha hid => ?_⟩
  · obtain ⟨hp, r', hr', hx⟩ := hsome r hr
    simp only [decide_eq_true_eq] at hp
    rw [Row.notification?_eq_some.1 hx] at hr'
    exact ⟨hr', hp.2, hp.1⟩
  · have := hnone hn _ r hr rfl
    simp [ha, hid] at this

/-! ## Writes -/

/-- An insert added its row, or found the unique value of the row taken. -/
theorem insert_adds {row : Row} {b : Bool}
    (h : (⟨policies, t⟩ : QueryExecutor).insert row db = some (b, db')) :
    (b = true ∧ Adds db db' t (· = row) ∧ ∀ r, r ∈ db.store.committed.rows → key r ≠ key row) ∨
      (b = false ∧ db' = db ∧ (index row).isSome = true ∧
        ∃ r, db.sees t r ∧ index r = index row) := by
  unfold QueryExecutor.insert at h
  split at h
  · obtain ⟨⟨b', s'⟩, hs', hb⟩ := Option.map_eq_some_iff.1 h
    cases hb
    rcases Store.insert_cases hs' with ⟨rfl, hw, hc⟩ | ⟨rfl, rfl, hopen, hsome, r, hr, hi⟩
    · refine .inl ⟨rfl, ⟨rfl, hw.solo, hw.committed, Nat.le_refl _, fun r =>
        Store.mem_view_inserted hw hc⟩, fun r hr => (Store.clash_eq_false.1 (hc none r hr)).1⟩
    · exact .inr ⟨rfl, rfl, hsome, r, hr, hi⟩
  · cases h

theorem insertOrFail_adds {row : Row} {u : Unit}
    (h : (⟨policies, t⟩ : QueryExecutor).insertOrFail row db = some (u, db')) :
    Adds db db' t (· = row) := by
  obtain ⟨b, db₁, h₁, h⟩ := Statement.bind_eq_some.1 h
  rcases insert_adds h₁ with ⟨rfl, hadds, -⟩ | ⟨rfl, -⟩
  · obtain ⟨-, rfl⟩ := Statement.pure_eq_some.1 h
    exact hadds
  · cases h

theorem exec_insertNotification {input : InsertNotificationInput} {u : Unit}
    (h : exec policies db (.insertNotification t input) choice = some (u, db')) :
    ∃ draft now, input.columns = some draft ∧
      Adds db db' t (· = .notification { draft.row now with status := input.status }) := by
  obtain ⟨now, db₁, h₁, h⟩ := Statement.bind_eq_some.1 h
  cases h₁
  obtain ⟨_, db₂, h₂, h⟩ := Statement.bind_eq_some.1 h
  cases h₂
  have hcolumns : input.columns ≠ none := by
    intro hnone
    rw [hnone] at h
    cases h
  obtain ⟨draft, hdraft⟩ := Option.ne_none_iff_exists'.1 hcolumns
  simp only [hdraft] at h
  split at h
  · exact ⟨draft, _, hdraft, insertOrFail_adds h⟩
  · cases h

/-- A claim inserts its key, or finds the key taken. -/
theorem exec_insertClaim {input : IdempotencyClaimInput} {claimed : Option (Uuid × Uuid)}
    (h : exec policies db (.insertClaim t input) choice = some (claimed, db')) :
    ∃ key expiresAt, textColumn input.key = some key ∧
      timestamptzColumn input.expiresAt = some expiresAt ∧
    ((∃ id now, claimed = some (id, input.lockToken) ∧
        Adds db db' t (· = .idempotencyKey (input.row key expiresAt id now)) ∧
        ∀ r, r ∈ db.store.committed.rows → Relational.key r ≠ RowKey.idempotencyKey id) ∨
      (claimed = none ∧ Adds db db' t (fun _ => False) ∧ ∃ k, db.sees t (.idempotencyKey k) ∧
        k.applicationId = input.applicationId ∧ k.key = key)) := by
  obtain ⟨id, db₁, h₁, h⟩ := Statement.bind_eq_some.1 h
  cases h₁
  obtain ⟨now, db₂, h₂, h⟩ := Statement.bind_eq_some.1 h
  cases h₂
  have hkey : textColumn input.key ≠ none := by
    intro hnone
    rw [hnone] at h
    cases h
  obtain ⟨key, hkey⟩ := Option.ne_none_iff_exists'.1 hkey
  have hexpires : timestamptzColumn input.expiresAt ≠ none := by
    intro hnone
    rw [hkey, hnone] at h
    cases h
  obtain ⟨expiresAt, hexpires⟩ := Option.ne_none_iff_exists'.1 hexpires
  simp only [hkey, hexpires] at h
  refine ⟨key, expiresAt, hkey, hexpires, ?_⟩
  split at h
  · obtain ⟨b, db₃, h₃, h⟩ := Statement.bind_eq_some.1 h
    obtain ⟨rfl, rfl⟩ := Statement.pure_eq_some.1 h
    rcases insert_adds h₃ with ⟨rfl, hadds, hfree⟩ | ⟨rfl, rfl, -, r, hr, hi⟩
    · left
      have hadds := (Adds.generated db t).trans hadds
      simp only [false_or] at hadds
      exact ⟨_, _, rfl, hadds, hfree⟩
    · refine .inr ⟨rfl, Adds.generated db t, ?_⟩
      cases r <;> simp only [index_row, Row.uniqueValue, Option.some.injEq,
        Option.map_eq_some_iff, reduceCtorEq, and_false, exists_false,
        UniqueValue.applicationKey.injEq] at hi
      rename_i k
      exact ⟨k, hr, hi.1, hi.2⟩
  · cases h

/-- A completion has a time its column holds. -/
theorem exec_complete_time {input : CompleteInput} {u : Unit}
    (he : exec policies db (.complete t input) choice = some (u, db')) :
    ∃ now, timestamptzColumn input.now = some now := by
  refine Option.ne_none_iff_exists'.1 fun hnone => ?_
  change IdempotencyKeyRepository.complete _ _ _ = _ at he
  unfold IdempotencyKeyRepository.complete at he
  rw [hnone] at he
  cases he

/-- What a completion changed: the claims it names, among the rows in sight. -/
theorem exec_complete {input : CompleteInput} {u : Unit} (h : db.Serving t a)
    (he : exec policies db (.complete t input) choice = some (u, db')) :
    db'.Serving t a ∧ db'.store.committed = db.store.committed ∧
      ∃ selected : Row → Bool,
        (∀ r, r.applicationId = some a → selected r = input.concerns r) ∧
        (∀ r, selected r = true → input.concerns r = true) ∧
        ∀ r, db'.sees t r ↔ ∃ r₀, db.sees t r₀ ∧ r = if selected r₀ then input.apply r₀ else r₀ := by
  obtain ⟨_, hnow⟩ := exec_complete_time he
  change IdempotencyKeyRepository.complete _ _ _ = _ at he
  unfold IdempotencyKeyRepository.complete at he
  simp only [hnow] at he
  obtain ⟨rows, db₁, h₁, he⟩ := Statement.bind_eq_some.1 he
  obtain ⟨-, rfl⟩ := Statement.pure_eq_some.1 he
  simp only [QueryExecutor.update] at h₁
  split at h₁
  · obtain ⟨⟨rows', s'⟩, hs', hb⟩ := Option.map_eq_some_iff.1 h₁
    cases hb
    obtain ⟨-, hw⟩ := Store.update_some hs'
    refine ⟨⟨hw.solo h.solo, h.scope⟩, hw.committed, _, fun r hr => ?_, fun r hr => ?_, fun r =>
      Store.mem_view_changed hw⟩
    · simp only [admits_own h hr, Bool.true_and]
    · exact (Bool.and_eq_true_iff.1 hr).2
  · cases h₁

/-! ## Writes that go through -/

/-- An insert whose key is free has an answer. -/
theorem insert_answers (h : db.Serving t a) {row : Row} (happ : row.applicationId = some a)
    (hkey : ∀ r, db.sees t r → key r ≠ key row) : ∃ b db' new,
    (⟨policies, t⟩ : QueryExecutor).insert row db = some (b, db') ∧ Adds db db' t new ∧
      db'.identifiers = db.identifiers ∧ ∀ r, new r → r = row := by
  obtain ⟨b, s', hs'⟩ := h.solo.inserts (r := row) fun r hr => hkey r hr
  have hinsert : (⟨policies, t⟩ : QueryExecutor).insert row db =
      some (b, { db with store := s' }) := by
    unfold QueryExecutor.insert
    rw [if_pos (admits_own h happ), hs']
    rfl
  rcases insert_adds hinsert with ⟨rfl, hadds, -⟩ | ⟨rfl, heq, -⟩
  · exact ⟨_, _, _, hinsert, hadds, rfl, fun r hr => hr⟩
  · rw [heq] at hinsert
    exact ⟨_, _, _, hinsert, .refl db t, rfl, fun r hr => hr.elim⟩

/-- An insert with nothing in its way inserts its row. -/
theorem insert_free (h : db.Serving t a) {row : Row} (happ : row.applicationId = some a)
    (hfree : ∀ r, db.sees t r → Store.clash row r = false) : ∃ db',
    (⟨policies, t⟩ : QueryExecutor).insert row db = some (true, db') ∧ Adds db db' t (· = row) ∧
      db'.identifiers = db.identifiers := by
  obtain ⟨s', hs'⟩ := h.solo.insert_free (r := row) fun r hr => hfree r hr
  have hinsert : (⟨policies, t⟩ : QueryExecutor).insert row db =
      some (true, { db with store := s' }) := by
    unfold QueryExecutor.insert
    rw [if_pos (admits_own h happ), hs']
    rfl
  rcases insert_adds hinsert with ⟨-, hadds, -⟩ | ⟨hb, -⟩
  · exact ⟨_, hinsert, hadds, rfl⟩
  · cases hb

/-- A row of a table without a unique index needs its key only. -/
theorem insertOrFail_free (h : db.Serving t a) {row : Row} (happ : row.applicationId = some a)
    (hindex : index row = none) (hkey : ∀ r, db.sees t r → key r ≠ key row) : ∃ db',
    (⟨policies, t⟩ : QueryExecutor).insertOrFail row db = some ((), db') ∧
      Adds db db' t (· = row) ∧ db'.identifiers = db.identifiers := by
  obtain ⟨db', hinsert, hadds, hid⟩ := @insert_free db t a policies h row happ fun r hr =>
    Store.clash_eq_false.2 ⟨hkey r hr, fun x hx => by rw [hindex] at hx; cases hx⟩
  exact ⟨db', Statement.bind_eq_some.2 ⟨true, db', hinsert, rfl⟩, hadds, hid⟩

/-- A number that was not handed out is no key of a row in sight. -/
theorem Database.Numbered.key_ne (hn : db.Numbered t) {row : Row} (hid : db.identifiers ≤ row.id)
    (r : Row) (hr : db.sees t r) : key r ≠ key row :=
  Row.primaryKey_ne (Nat.ne_of_lt (Nat.lt_of_lt_of_le (hn r hr) hid))

/-- A claim of a key nobody has. -/
theorem exec_insertClaim_free (h : db.Serving t a) (hn : db.Numbered t)
    {input : IdempotencyClaimInput} {key : String} {expiresAt : Date}
    (ha : input.applicationId = a) (hkey : textColumn input.key = some key)
    (hexpires : timestamptzColumn input.expiresAt = some expiresAt)
    (hlength : IdempotencyKeyRepository.satisfiesKeyLengthCheck key = true)
    (hfree : ∀ k, db.sees t (.idempotencyKey k) → k.applicationId = a → k.key ≠ key) :
    ∃ db' id row, (∀ choice, exec policies db (.insertClaim t input) choice =
        some (some (id, input.lockToken), db')) ∧
      Adds db db' t (· = .idempotencyKey row) ∧ db'.Numbered t := by
  have hgenerated := Adds.generated db t
  let row := input.row key expiresAt db.identifiers (db.startedAt t)
  obtain ⟨db', hinsert, hadds, hid⟩ := @insert_free _ t a policies (hgenerated.serving h)
    (.idempotencyKey row) (congrArg some ha) (by
      refine fun r hr => Store.clash_eq_false.2 ⟨hn.key_ne (Nat.le_refl _) r hr, ?_⟩
      rintro x hx hr'
      obtain rfl : UniqueValue.applicationKey input.applicationId key = x := Option.some.inj hx
      cases r <;> simp only [index_row, Row.uniqueValue, Option.some.injEq,
        Option.map_eq_some_iff, reduceCtorEq, and_false, exists_false,
        UniqueValue.applicationKey.injEq] at hr'
      exact hfree _ hr (hr'.1.trans ha) hr'.2)
  refine ⟨db', db.identifiers, row, fun choice => ?_, ?_, ?_⟩
  · refine Statement.bind_eq_some.2 ⟨_, _, rfl, Statement.bind_eq_some.2 ⟨_, _, rfl, ?_⟩⟩
    simp only [hkey, hexpires]
    rw [if_pos hlength]
    exact Statement.bind_eq_some.2 ⟨_, _, hinsert, rfl⟩
  · simpa only [false_or] using hgenerated.trans hadds
  · refine hadds.numbered (hgenerated.numbered hn fun r hr => hr.elim) ?_
    rintro r rfl
    rw [hid]
    exact Nat.lt_succ_self _

/-- What the columns make of a notification. -/
theorem columns_eq_some {input : InsertNotificationInput} {draft : NotificationDraft} :
    input.columns = some draft ↔ ∃ body scheduledAt metadata,
      textColumn input.renderedBody = some body ∧
      input.scheduledAt.mapM timestamptzColumn = some scheduledAt ∧
      jsonbEntries input.metadata = some metadata ∧
      draft = {
        id := input.id
        applicationId := input.applicationId
        sessionId := input.whatsAppSessionId
        recipient := input.recipientPhoneNumber
        body := body
        scheduledAt := scheduledAt
        maximumAttempts := some input.maximumAttempts
        idempotencyKeyId := input.idempotencyKeyId
        correlationId := input.correlationId.value
        metadata := metadata } := by
  simp only [NotificationRepository.InsertNotificationInput.columns, Option.bind_eq_bind, Option.pure_def,
    Option.bind_eq_some_iff, Option.some.injEq]
  constructor
  · rintro ⟨body, hbody, scheduledAt, hscheduled, metadata, hmetadata, rfl⟩
    exact ⟨body, scheduledAt, metadata, hbody, hscheduled, hmetadata, rfl⟩
  · rintro ⟨body, scheduledAt, metadata, hbody, hscheduled, hmetadata, rfl⟩
    exact ⟨body, hbody, scheduledAt, hscheduled, metadata, hmetadata, rfl⟩

/-- A notification whose values fit and whose connection is there. -/
theorem exec_insertNotification_free (h : db.Serving t a) (hn : db.Numbered t)
    {input : InsertNotificationInput} {draft : NotificationDraft} (happ : input.applicationId = a)
    (hcolumns : input.columns = some draft)
    (hchecks : ∀ now, ({ draft.row now with
      status := input.status } : NotificationRecord).satisfiesChecks = true)
    (hsession : ∃ s, db.sees t (.session s) ∧ s.id = input.whatsAppSessionId ∧ s.applicationId = a)
    (hid : input.id < db.identifiers)
    (hnew : ∀ r, db.sees t (.notification r) → r.id ≠ input.id) : ∃ db' row,
    (∀ choice, exec policies db (.insertNotification t input) choice = some ((), db')) ∧
      Adds db db' t (· = .notification row) ∧ db'.Numbered t ∧ row.id = input.id ∧
        row.applicationId = a := by
  have hdraft : draft.id = input.id ∧ draft.applicationId = input.applicationId ∧
      draft.sessionId = input.whatsAppSessionId := by
    obtain ⟨body, scheduledAt, metadata, -, -, -, rfl⟩ := columns_eq_some.1 hcolumns
    exact ⟨rfl, rfl, rfl⟩
  obtain ⟨hdraftId, hdraftApp, hdraftSession⟩ := hdraft
  let row : NotificationRecord :=
    { draft.row (db.startedAt t) with status := input.status }
  have hrow : row.id = input.id ∧ row.applicationId = a :=
    ⟨hdraftId, hdraftApp.trans happ⟩
  obtain ⟨db', hinsert, hadds, hsame⟩ := @insertOrFail_free db t a policies h (.notification row)
    (congrArg some hrow.2) rfl (by
      intro r hr hk
      cases r <;> simp only [key_row, Row.primaryKey, reduceCtorEq,
        RowKey.notification.injEq] at hk
      exact hnew _ hr (hk.trans hrow.1))
  refine ⟨db', row, fun choice => ?_, hadds, ?_, hrow⟩
  · refine Statement.bind_eq_some.2 ⟨_, _, rfl, Statement.bind_eq_some.2 ⟨_, _, rfl, ?_⟩⟩
    simp only [hcolumns]
    rw [if_pos]
    · exact hinsert
    · obtain ⟨s, hs, hsid, hsapp⟩ := hsession
      refine ⟨hchecks _, List.any_eq_true.2 ⟨_, hs, ?_⟩⟩
      simp only [NotificationRepository.isReferenced, decide_eq_true_eq]
      exact ⟨hsid.trans hdraftSession.symm, hsapp.trans hrow.2.symm⟩
  · refine hadds.numbered hn ?_
    rintro r rfl
    change row.id < _
    rw [hrow.1, hsame]
    exact hid

theorem exec_appendEvent_free (h : db.Serving t a) (hn : db.Numbered t)
    {event : NotificationEventInput} (happ : event.applicationId = a) : ∃ db' row,
    (∀ choice, exec policies db (.appendEvents t [event]) choice = some ((), db')) ∧
      Adds db db' t (· = .notificationEvent row) ∧ db'.Numbered t := by
  have hgenerated := Adds.generated db t
  let row : NotificationEventRecord :=
    { event with id := db.identifiers, occurredAt := db.startedAt t }
  obtain ⟨db', hinsert, hadds, hid⟩ := @insertOrFail_free _ t a policies (hgenerated.serving h)
    (.notificationEvent row) (congrArg some happ) rfl (hn.key_ne (Nat.le_refl _))
  refine ⟨db', row, fun choice => ?_, ?_, ?_⟩
  · exact Statement.bind_eq_some.2 ⟨_, _, Statement.bind_eq_some.2 ⟨_, _, rfl,
      Statement.bind_eq_some.2 ⟨_, _, rfl, hinsert⟩⟩, rfl⟩
  · simpa only [false_or] using hgenerated.trans hadds
  · refine hadds.numbered (hgenerated.numbered hn fun r hr => hr.elim) ?_
    rintro r rfl
    rw [hid]
    exact Nat.lt_succ_self _

theorem exec_enqueueDispatch_free (h : db.Serving t a) (hn : db.Numbered t) {job : DispatchJob}
    (happ : job.applicationId = a) : ∃ db' new,
    (∀ choice, exec policies db (.enqueueDispatch t job) choice = some ((), db')) ∧
      Adds db db' t new ∧ db'.Numbered t ∧ ∀ r, new r → ∃ id, r = .dispatchJob id job := by
  have hgenerated := Adds.generated db t
  obtain ⟨b, db', new, hinsert, hadds, hid, hnew⟩ := @insert_answers _ t a policies
    (hgenerated.serving h) (.dispatchJob db.identifiers job) (congrArg some happ)
    (hn.key_ne (Nat.le_refl _))
  refine ⟨db', _, fun choice => ?_, hgenerated.trans hadds, ?_, ?_⟩
  · exact Statement.bind_eq_some.2 ⟨_, _, rfl, Statement.bind_eq_some.2 ⟨_, _, hinsert, rfl⟩⟩
  · refine hadds.numbered (hgenerated.numbered hn fun r hr => hr.elim) fun r hr => ?_
    rw [hnew r hr, hid]
    exact Nat.lt_succ_self _
  · rintro r (hr | hr)
    · exact hr.elim
    · exact ⟨_, hnew r hr⟩

/-- A completion whose time fits. -/
theorem exec_complete_free (h : db.Serving t a) {input : CompleteInput} {now : Date}
    (hnow : timestamptzColumn input.now = some now) : ∃ db',
    ∀ choice, exec policies db (.complete t input) choice = some ((), db') := by
  let selected (r : Row) : Bool :=
    (⟨policies, t⟩ : QueryExecutor).admits db r && input.concerns r
  obtain ⟨rows, s', hs'⟩ := h.solo.updates selected input.apply input.key_apply input.index_apply
  refine ⟨{ db with store := s' }, fun choice => ?_⟩
  change IdempotencyKeyRepository.complete _ _ _ = _
  unfold IdempotencyKeyRepository.complete
  simp only [hnow]
  refine Statement.bind_eq_some.2 ⟨rows, { db with store := s' }, ?_, rfl⟩
  unfold QueryExecutor.update
  rw [if_pos]
  · exact congrArg (Option.map _) hs'
  · -- a completion leaves a row with its application
    refine List.all_eq_true.2 fun r hr => ?_
    have hadmits := (Bool.and_eq_true_iff.1 (Table.mem_select.1 hr).2).1
    have hsame : (input.apply r).applicationId = r.applicationId ∧
        (input.apply r).isTenantTable = r.isTenantTable := by cases r <;> exact ⟨rfl, rfl⟩
    simpa only [QueryExecutor.admits, hsame.1, hsame.2] using hadmits

/-! ## The ends of a transaction -/

/-- A transaction that begins while none is open sees the committed rows. -/
theorem exec_begin (h : db.store.Idle) : ∃ t db', (∀ choice,
      exec policies db (.begin (some a)) choice = some (t, db')) ∧
    db'.Serving t a ∧ db'.identifiers = db.identifiers ∧
      db'.store.committed = db.store.committed ∧
        ∀ r, db'.sees t r ↔ r ∈ db.store.committed.rows := by
  refine ⟨_, _, fun _ => rfl, ⟨h.start, Function.update_self _ _ _⟩, rfl, Store.committed_start,
    fun r => ?_⟩
  change r ∈ (db.store.start.2.view db.store.start.1).rows ↔ _
  rw [Store.view_start]

theorem exec_commit (h : db.Serving t a) : ∃ db', (∀ choice,
      exec policies db (.commit t) choice = some ((), db')) ∧
    db'.store.Idle ∧ ∀ r, r ∈ db'.store.committed.rows ↔ db.sees t r := by
  obtain ⟨s', hs', hidle, hcommitted⟩ := h.solo.commits
  refine ⟨{ db with store := s' }, fun choice => ?_, hidle, fun r => ?_⟩
  · change (db.store.commit t).map _ = _
    rw [hs']
    rfl
  · change r ∈ s'.committed.rows ↔ _
    rw [hcommitted]
    rfl

end Statements

end PublicApi

end NotificationPlatform
