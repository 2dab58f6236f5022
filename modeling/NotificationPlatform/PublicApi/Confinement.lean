import NotificationPlatform.PublicApi.Commits
import NotificationPlatform.PublicApi.Serving
import NotificationPlatform.Transactional.Restrict

/-!
# What the statements of one application touch

A statement that is run for an application, in a transaction that is scoped to it, reads and writes
rows of the application only. It does the same in the database that has no others, and the others
cannot tell that it was run. The policies have no part in this: it holds with them and without them.
-/

namespace NotificationPlatform

namespace PublicApi

open Interleaving Relational Transactional

/-! ## The rows of an application -/

def Row.isOf (a : Uuid) (r : Row) : Bool := r.applicationId = some a

theorem Row.isOf_iff {a : Uuid} {r : Row} : r.isOf a = true ↔ r.applicationId = some a :=
  decide_eq_true_iff

theorem Row.isOf_eq_false {a : Uuid} {r : Row} : r.isOf a = false ↔ r.applicationId ≠ some a :=
  decide_eq_false_iff_not

/-- What a key's row is claimed by: its identifier and its lock token. -/
def Row.claim? : Row → Option (Uuid × Uuid)
  | .idempotencyKey k => some (k.id, k.lockToken)
  | _ => none

def Row.job? : Row → Option DispatchJob
  | .dispatchJob _ job => some job
  | _ => none

/-- What no update changes of a row. -/
structure Row.Alike (r r' : Row) : Prop where
  applicationId : r'.applicationId = r.applicationId
  claim : r'.claim? = r.claim?
  job : r'.job? = r.job?

/-- The database without the rows of other applications. -/
def Database.restrict (db : Database) (a : Uuid) : Database :=
  { db with store := db.store.restrict (Row.isOf a) }

/-- The notification of a job is among the rows of the transaction or the committed rows. -/
def Database.Knows (db : Database) (holder : Option Nat) (job : DispatchJob) : Prop :=
  ∃ holder' r, (holder' = none ∨ holder' = holder) ∧ r ∈ (db.store.of holder').rows ∧
    key r = RowKey.notification job.notificationId ∧ r.applicationId = some job.applicationId

/-- Whose rows are whose: the versions of one row are of one application, a transaction writes rows
of the application it is scoped to, a job waits for a notification of its application, and no key has
its lock token for an identifier. -/
structure Database.Tidy (db : Database) : Prop where
  agree : db.store.Agree Row.applicationId
  owned : ∀ {t r}, r ∈ (db.store.own t).rows → r.applicationId = db.scope t
  jobs : ∀ {holder r job}, r ∈ (db.store.of holder).rows → r.job? = some job →
    db.Knows holder job
  claims : ∀ {holder r id lockToken}, r ∈ (db.store.of holder).rows →
    r.claim? = some (id, lockToken) → id ≠ lockToken

section Tidy

variable {db db' : Database} {store : Store Row} {t : Nat} {rows : Table Row}

theorem Database.Tidy.isOf (h : db.Tidy) (a : Uuid) : db.store.Agree (Row.isOf a) := by
  intro holder holder' r r' hr hr' hkey
  rw [Row.isOf, h.agree hr hr' hkey, Row.isOf]

theorem Database.Tidy.congr (h : db.Tidy) (hstore : db'.store = db.store)
    (hscope : db'.scope = db.scope) : db'.Tidy := by
  obtain ⟨store, now, identifiers, scope, startedAt⟩ := db'
  cases hstore
  cases hscope
  exact ⟨h.agree, h.owned, h.jobs, h.claims⟩

/-- A database in which no transaction is open, no job waits and no key is claimed. -/
theorem Database.Tidy.of_idle {db : Database} (hidle : db.store.Idle)
    (hrows : ∀ r ∈ db.store.committed.rows, r.job? = none ∧ r.claim? = none) : db.Tidy := by
  have hown : ∀ {t r}, r ∉ (db.store.own t).rows := by
    intro t r hr
    rw [Versions.own, hidle t] at hr
    cases hr
  have hcommitted : ∀ {holder r}, r ∈ (db.store.of holder).rows → r ∈ db.store.committed.rows := by
    intro holder r hr
    cases holder with
    | none => exact hr
    | some t => exact absurd hr hown
  refine ⟨fun hr hr' hkey => ?_, fun hr => absurd hr hown, fun hr hjob => ?_, fun hr hclaim => ?_⟩
  · exact congrArg _
      (List.inj_on_of_nodup_map db.store.committed.nodup (hcommitted hr) (hcommitted hr') hkey)
  · rw [(hrows _ (hcommitted hr)).1] at hjob
    cases hjob
  · rw [(hrows _ (hcommitted hr)).2] at hclaim
    cases hclaim

/-- Rows of the application that are changed or added. -/
theorem Database.Tidy.wrote (h : db.Tidy) (hw : Store.Wrote db.store store t rows)
    (hagree : ∀ r ∈ rows.rows, ∀ holder, ∀ r' ∈ (db.store.of holder).rows, key r = key r' →
      r.applicationId = r'.applicationId)
    (howned : ∀ r ∈ rows.rows, r.applicationId = db.scope t)
    (hjobs : ∀ r ∈ rows.rows, ∀ job, r.job? = some job → db.Knows (some t) job)
    (hclaims : ∀ r ∈ rows.rows, ∀ id lockToken, r.claim? = some (id, lockToken) →
      id ≠ lockToken) : { db with store }.Tidy := by
  have hagree' : store.Agree Row.applicationId := hw.agree h.agree hagree
  have hknows : ∀ {holder job}, db.Knows holder job → { db with store }.Knows holder job := by
    rintro holder job ⟨holder', r, hholder, hr, hkey, happ⟩
    obtain ⟨r', hr', hkey', hcases⟩ := hw.covers hr
    refine ⟨holder', r', hholder, hr', hkey'.trans hkey, ?_⟩
    rcases hcases with rfl | hwritten
    · exact happ
    · rw [← happ]
      exact hagree r' hwritten holder' r hr hkey'
  refine ⟨hagree', fun {t' r} hr => ?_, fun {holder r job} hr hjob => ?_,
    fun {holder r id lockToken} hr hclaim => ?_⟩
  · rcases hw.of_mem (show r ∈ (store.of (some t')).rows from hr) with hold | ⟨ht, hnew⟩
    · exact h.owned hold
    · cases ht
      exact howned r hnew
  · rcases hw.of_mem hr with hold | ⟨rfl, hnew⟩
    · exact hknows (h.jobs hold hjob)
    · exact hknows (hjobs r hnew job hjob)
  · rcases hw.of_mem hr with hold | ⟨-, hnew⟩
    · exact h.claims hold hclaim
    · exact hclaims r hnew id lockToken hclaim

end Tidy

/-! ## Statements -/

/-- What a statement of application `a` does to the database: it stays tidy, no row is lost, and the
others see nothing. -/
structure Confines (a : Uuid) (db db' : Database) : Prop where
  tidy : db'.Tidy
  scope : db'.scope = db.scope
  identifiers : db.identifiers ≤ db'.identifiers
  opened : ∀ t, (db'.store.opened t).isSome → (db.store.opened t).isSome
  covers : ∀ {holder r}, r ∈ (db.store.of holder).rows →
    ∃ r' ∈ (db'.store.of holder).rows, key r' = key r
  hidden : ∀ b, b ≠ a → db'.restrict b = { db.restrict b with identifiers := db'.identifiers }

theorem Confines.refl {a : Uuid} {db : Database} (h : db.Tidy) : Confines a db db :=
  ⟨h, rfl, Nat.le_refl _, fun _ ht => ht, fun {_ r} hr => ⟨r, hr, rfl⟩, fun _ _ => rfl⟩

theorem Confines.trans {a : Uuid} {db₁ db₂ db₃ : Database} (h : Confines a db₁ db₂)
    (h' : Confines a db₂ db₃) : Confines a db₁ db₃ where
  tidy := h'.tidy
  scope := h'.scope.trans h.scope
  identifiers := h.identifiers.trans h'.identifiers
  opened := fun t ht => h.opened t (h'.opened t ht)
  covers := fun hr => by
    obtain ⟨r₂, hr₂, hkey₂⟩ := h.covers hr
    obtain ⟨r₃, hr₃, hkey₃⟩ := h'.covers hr₂
    exact ⟨r₃, hr₃, hkey₃.trans hkey₂⟩
  hidden := fun b hb => by rw [h'.hidden b hb, h.hidden b hb]

/-- What `x` does in the database, `x'` does where only the rows of the application are left. -/
def Statement.Mirrored {α : Type} (a : Uuid) (db : Database) (x x' : Statement α) : Prop :=
  ∀ r db', x db = some (r, db') →
    x' (db.restrict a) = some (r, db'.restrict a) ∧ Confines a db db'

namespace Statement

variable {α β : Type} {a : Uuid} {t : Nat} {db : Database} {policies : Bool}

theorem mirrored_pure (h : db.Tidy) (x : α) : Mirrored a db (pure x) (pure x) := by
  intro r db' he
  obtain ⟨rfl, rfl⟩ := Statement.pure_eq_some.1 he
  exact ⟨rfl, .refl h⟩

theorem mirrored_refuse (x' : Statement α) : Mirrored a db refuse x' := by
  intro r db' he
  cases he

theorem mirrored_bind {x x' : Statement α} {f f' : α → Statement β} (hx : Mirrored a db x x')
    (hf : ∀ r db₁, x db = some (r, db₁) → Confines a db db₁ → Mirrored a db₁ (f r) (f' r)) :
    Mirrored a db (x >>= f) (x' >>= f') := by
  intro r db' he
  obtain ⟨r₁, db₁, h₁, h₂⟩ := Statement.bind_eq_some.1 he
  obtain ⟨hx₁, hconfines⟩ := hx r₁ db₁ h₁
  obtain ⟨hf₂, hconfines'⟩ := hf r₁ db₁ h₁ hconfines r db' h₂
  exact ⟨Statement.bind_eq_some.2 ⟨r₁, _, hx₁, hf₂⟩, hconfines.trans hconfines'⟩

theorem mirrored_get {f : Database → Statement α}
    (h : Mirrored a db (f db) (f (db.restrict a))) :
    Mirrored a db (get >>= f) (get >>= f) := h

theorem mirrored_generateIdentifier (h : db.Tidy) :
    Mirrored a db generateIdentifier generateIdentifier := by
  intro r db' he
  cases he
  exact ⟨rfl, h.congr rfl rfl, rfl, Nat.le_succ _, fun _ ht => ht, fun {_ r} hr => ⟨r, hr, rfl⟩,
    fun _ _ => rfl⟩

theorem mirrored_now (h : db.Tidy) (executor : QueryExecutor) :
    Mirrored a db executor.now executor.now := by
  intro r db' he
  cases he
  exact ⟨rfl, .refl h⟩

/-! ### Reads -/

/-- A read that looks at rows of the application only. -/
theorem mirrored_read (h : db.Tidy) (executor : QueryExecutor) {table : Row → Option α}
    {f : List α → β}
    (hf : ∀ rows : List Row,
      f ((rows.filter (Row.isOf a)).filterMap table) = f (rows.filterMap table)) :
    Mirrored a db (do let rows ← executor.select table; return f rows)
      (do let rows ← executor.select table; return f rows) := by
  intro r db' he
  obtain ⟨rows, db₁, hselect, hpure⟩ := Statement.bind_eq_some.1 he
  obtain ⟨rfl, rfl⟩ := Statement.pure_eq_some.1 hpure
  unfold QueryExecutor.select at hselect
  split at hselect
  · rename_i hopen
    cases hselect
    refine ⟨Statement.bind_eq_some.2 ⟨(((db.restrict a).store.view executor.transaction).rows.filter
      (executor.admits (db.restrict a))).filterMap table, db.restrict a, ?_, ?_⟩, .refl h⟩
    · unfold QueryExecutor.select
      have hopen' : ((db.restrict a).store.opened executor.transaction).isSome = true :=
        Store.isSome_opened_restrict.trans hopen
      rw [if_pos hopen']
    · refine Statement.pure_eq_some.2 ⟨?_, rfl⟩
      have hview : ((db.restrict a).store.view executor.transaction).rows =
          (db.store.view executor.transaction).rows.filter (Row.isOf a) :=
        congrArg Table.rows (Store.view_restrict (h.isOf a))
      have hcomm : ∀ rows : List Row, (rows.filter (Row.isOf a)).filter (executor.admits db) =
          (rows.filter (executor.admits db)).filter (Row.isOf a) := fun rows => by
        simp only [List.filter_filter, Bool.and_comm]
      rw [hview, show executor.admits (db.restrict a) = executor.admits db from rfl, hcomm, hf]
  · cases hselect

/-- Rows of one table that all are of the application can be picked first. -/
theorem filter_restricted {table : Row → Option α} {q : α → Bool}
    (hq : ∀ r x, table r = some x → q x = true → r.applicationId = some a) (rows : List Row) :
    ((rows.filter (Row.isOf a)).filterMap table).filter q = (rows.filterMap table).filter q := by
  rw [List.filterMap_filter, List.filter_filterMap, List.filter_filterMap]
  refine List.filterMap_congr fun r _ => ?_
  cases hr : table r with
  | none => simp
  | some x =>
    cases hx : q x with
    | false => simp [Option.filter_some, hx]
    | true => simp [Row.isOf_iff.2 (hq r x hr hx)]

theorem find?_restricted {table : Row → Option α} {q : α → Bool}
    (hq : ∀ r x, table r = some x → q x = true → r.applicationId = some a) (rows : List Row) :
    ((rows.filter (Row.isOf a)).filterMap table).find? q = (rows.filterMap table).find? q := by
  rw [← List.head?_filter, ← List.head?_filter, filter_restricted hq]

/-! ### Writes -/

theorem own_restrict_other (h : db.Tidy) (hscope : db.scope t = some a) {b : Uuid} (hb : b ≠ a) :
    ∀ r ∈ (db.store.own t).rows, r.isOf b = false := by
  intro r hr
  rw [Row.isOf_eq_false, h.owned hr, hscope]
  exact fun he => hb (Option.some.inj he).symm

/-- What was written for the application is hidden from the others. -/
theorem confines_wrote {store : Store Row} {rows : Table Row} (h : db.Tidy)
    (hscope : db.scope t = some a) (hw : Store.Wrote db.store store t rows)
    (htidy : { db with store }.Tidy) (hrows : ∀ r ∈ rows.rows, r.applicationId = some a) :
    Confines a db { db with store } where
  tidy := htidy
  scope := rfl
  identifiers := Nat.le_refl _
  opened := fun t' ht' => by
    by_cases hne : t' = t
    · subst hne
      exact hw.isOpen
    · rwa [hw.opened, Function.update_of_ne hne] at ht'
  covers := fun hr => by
    obtain ⟨r', hr', hkey, -⟩ := hw.covers hr
    exact ⟨r', hr', hkey⟩
  hidden := fun b hb => by
    have hstore : store.restrict (Row.isOf b) = db.store.restrict (Row.isOf b) := by
      refine hw.hidden (fun r hr => ?_) (own_restrict_other h hscope hb)
      rw [Row.isOf_eq_false, hrows r hr]
      exact fun he => hb (Option.some.inj he).symm
    simp only [Database.restrict, hstore]

/-- The insert of a row whose unique value no row of another application has. -/
theorem mirrored_insert (h : db.Tidy) (hscope : db.scope t = some a) {row : Row}
    (happ : row.applicationId = some a)
    (hindex : (db.store.opened t).isSome → ∀ r ∈ (db.store.view t).rows, (index row).isSome →
      index r = index row → r.applicationId = some a)
    (hjob : (db.store.opened t).isSome → ∀ job, row.job? = some job → db.Knows (some t) job)
    (hclaim : ∀ id lockToken, row.claim? = some (id, lockToken) → id ≠ lockToken) :
    Mirrored a db ((⟨policies, t⟩ : QueryExecutor).insert row)
      ((⟨policies, t⟩ : QueryExecutor).insert row) := by
  intro b db' he
  have hcases := insert_inserted he
  unfold QueryExecutor.insert at he ⊢
  split at he
  · rename_i hadmits
    obtain ⟨⟨b', store⟩, hinsert, hp⟩ := Option.map_eq_some_iff.1 he
    cases hp
    have hadmits' : (⟨policies, t⟩ : QueryExecutor).admits (db.restrict a) row = true := hadmits
    have hopen : (db.store.opened t).isSome := Store.insert_open hinsert
    have hrestrict : (db.restrict a).store.insert t row = some (b', store.restrict (Row.isOf a)) :=
      Store.insert_restrict (h.isOf a) (Row.isOf_iff.2 happ)
        (fun r hr hsome hi => Row.isOf_iff.2 (hindex hopen r hr hsome hi)) hinsert
    rw [if_pos hadmits', hrestrict]
    refine ⟨rfl, ?_⟩
    rcases hcases with ⟨rfl, hwrote, hfree⟩ | ⟨rfl, hsame, -⟩
    · have hone : ∀ r ∈ (one row).rows, r = row := fun r hr => List.mem_singleton.1 hr
      refine confines_wrote h hscope hwrote (h.wrote hwrote ?_ ?_ ?_ ?_) fun r hr => ?_
      · intro r hr holder r' hr' hkey
        rw [hone r hr] at hkey
        exact absurd hkey.symm (Store.clash_eq_false.1 (hfree holder r' hr')).1
      · intro r hr
        rw [hone r hr, happ, hscope]
      · intro r hr
        rw [hone r hr]
        exact hjob hopen
      · intro r hr
        rw [hone r hr]
        exact hclaim
      · rw [hone r hr, happ]
    · rw [hsame]
      exact .refl h
  · cases he

theorem mirrored_insertOrFail (h : db.Tidy) (hscope : db.scope t = some a) {row : Row}
    (happ : row.applicationId = some a) (hindex : index row = none) (hjob : row.job? = none)
    (hclaim : row.claim? = none) :
    Mirrored a db ((⟨policies, t⟩ : QueryExecutor).insertOrFail row)
      ((⟨policies, t⟩ : QueryExecutor).insertOrFail row) := by
  refine mirrored_bind (mirrored_insert h hscope happ ?_ ?_ ?_) fun b db₁ _ hconfines => ?_
  · intro _ r _ hsome
    rw [hindex] at hsome
    cases hsome
  · intro _ job hjob'
    rw [hjob] at hjob'
    cases hjob'
  · intro id lockToken hclaim'
    rw [hclaim] at hclaim'
    cases hclaim'
  · cases b with
    | true => exact mirrored_pure hconfines.tidy _
    | false => exact mirrored_refuse _

/-- The update of rows of the application. The rows may be told apart in another way where no others
are left. -/
theorem mirrored_update (h : db.Tidy) (hscope : db.scope t = some a) {p p' : Row → Bool}
    {f : Row → Row} {hf : ∀ r, key (f r) = key r} {hi : ∀ r, index (f r) = index r}
    (hp : (db.store.opened t).isSome → ∀ r ∈ (db.store.view t).rows, p r = true →
      r.applicationId = some a)
    (hp' : ∀ r ∈ (db.store.view t).rows, r.applicationId = some a → p' r = p r)
    (halike : ∀ r : Row, r.Alike (f r)) :
    Mirrored a db ((⟨policies, t⟩ : QueryExecutor).update p f hf hi)
      ((⟨policies, t⟩ : QueryExecutor).update p' f hf hi) := by
  intro rows db' he
  have hadmits : ∀ r, (⟨policies, t⟩ : QueryExecutor).admits (db.restrict a) r =
    (⟨policies, t⟩ : QueryExecutor).admits db r := fun _ => rfl
  simp only [QueryExecutor.update] at he ⊢
  split at he
  · rename_i hall
    obtain ⟨⟨rows', store⟩, hupdate, hpair⟩ := Option.map_eq_some_iff.1 he
    cases hpair
    obtain ⟨rfl, hwrote⟩ := Store.update_some hupdate
    have hp := hp hwrote.isOpen
    have hpf : ∀ r : Row, (f r).isOf a = r.isOf a := fun r => by
      rw [Row.isOf, (halike r).applicationId, Row.isOf]
    have hrestrict : (db.restrict a).store.update t
        (fun r => (⟨policies, t⟩ : QueryExecutor).admits db r && p' r) f hf hi =
        some (_, store.restrict (Row.isOf a)) :=
      Store.update_restrict (h.isOf a)
        (fun r hr hq => Row.isOf_iff.2 (hp r hr (Bool.and_eq_true_iff.1 hq).2))
        (fun r hr hof => by rw [hp' r hr (Row.isOf_iff.1 hof)]) hpf hupdate
    have hselect : ((db.restrict a).store.view t).select
        (fun r => (⟨policies, t⟩ : QueryExecutor).admits db r && p' r) =
        (db.store.view t).select fun r => (⟨policies, t⟩ : QueryExecutor).admits db r && p r :=
      (Store.update_some hrestrict).1.symm
    simp only [hadmits]
    rw [hselect, if_pos hall, hrestrict]
    have hrow : ∀ {r}, r ∈ (changed (db.store.view t)
        (fun r => (⟨policies, t⟩ : QueryExecutor).admits db r && p r) f hf).rows →
        ∃ r₀ holder, r₀ ∈ (db.store.of holder).rows ∧ (holder = none ∨ holder = some t) ∧
          r₀.applicationId = some a ∧ r = f r₀ := by
      intro r hr
      obtain ⟨r₀, hr₀, rfl⟩ := List.mem_map.1 hr
      obtain ⟨hr₀, hq⟩ := Table.mem_select.1 hr₀
      obtain ⟨holder, hh, hholder⟩ := Store.of_mem_view hr₀
      exact ⟨r₀, holder, hh, hholder, hp r₀ hr₀ (Bool.and_eq_true_iff.1 hq).2, rfl⟩
    refine ⟨rfl, confines_wrote h hscope hwrote (h.wrote hwrote ?_ ?_ ?_ ?_) fun r hr => ?_⟩
    · intro r hr holder r' hr' hkey
      obtain ⟨r₀, holder₀, hh, -, -, rfl⟩ := hrow hr
      rw [(halike r₀).applicationId]
      exact h.agree hh hr' ((hf r₀).symm.trans hkey)
    · intro r hr
      obtain ⟨r₀, holder₀, -, -, happ, rfl⟩ := hrow hr
      rw [(halike r₀).applicationId, happ, hscope]
    · intro r hr job hjob
      obtain ⟨r₀, holder₀, hh, hholder, -, rfl⟩ := hrow hr
      obtain ⟨holder', r', hholder', hr', hkey, happ⟩ :=
        h.jobs hh ((halike r₀).job.symm.trans hjob)
      refine ⟨holder', r', ?_, hr', hkey, happ⟩
      rcases hholder' with hnone | hsame
      · exact .inl hnone
      · exact hsame ▸ hholder
    · intro r hr id lockToken hclaim
      obtain ⟨r₀, holder₀, hh, -, -, rfl⟩ := hrow hr
      exact h.claims hh ((halike r₀).claim.symm.trans hclaim)
    · obtain ⟨r₀, holder₀, -, -, happ, rfl⟩ := hrow hr
      rw [(halike r₀).applicationId, happ]
  · cases he

/-- `updateWhere` on rows of the application. -/
theorem mirrored_updateWhere (h : db.Tidy) (hscope : db.scope t = some a)
    {p p' : NotificationRecord → Bool} {f : NotificationRecord → NotificationRecord}
    {hf : ∀ r, (f r).id = r.id ∧ (f r).whatsAppSessionId = r.whatsAppSessionId ∧
      (f r).providerMessageId = r.providerMessageId}
    (hp : ∀ r, p r = true → r.applicationId = a)
    (hp' : ∀ r, .notification r ∈ (db.store.view t).rows → r.applicationId = a → p' r = p r)
    (happ : ∀ r, (f r).applicationId = r.applicationId) :
    Mirrored a db (NotificationRepository.updateWhere ⟨policies, t⟩ p f hf)
      (NotificationRepository.updateWhere ⟨policies, t⟩ p' f hf) := by
  refine mirrored_bind (mirrored_update h hscope ?_ ?_ ?_) fun rows db₁ _ hconfines => ?_
  · intro _ r _ hr
    obtain ⟨n, hn, hpn⟩ := (Option.any_eq_true _ _).1 hr
    rw [Row.notification?_eq_some.1 hn]
    exact congrArg some (hp n hpn)
  · intro r hr hof
    cases r with
    | notification n => exact hp' n hr (Option.some.inj hof)
    | _ => rfl
  · intro r
    cases r with
    | notification n => exact ⟨congrArg some (happ n), rfl, rfl⟩
    | _ => exact ⟨rfl, rfl, rfl⟩
  · dsimp only
    split
    · exact mirrored_pure hconfines.tidy _
    · exact mirrored_refuse _

/-! ### The statements of the repositories -/

theorem mirrored_insertClaim (h : db.Tidy) (hscope : db.scope t = some a)
    {input : IdempotencyClaimInput} (happ : input.applicationId = a)
    (htoken : input.lockToken < db.identifiers) :
    Mirrored a db (IdempotencyKeyRepository.insertClaim ⟨policies, t⟩ input)
      (IdempotencyKeyRepository.insertClaim ⟨policies, t⟩ input) := by
  refine mirrored_bind (mirrored_generateIdentifier h) fun id db₁ h₁ hconfines => ?_
  obtain rfl : db.identifiers = id := congrArg Prod.fst (Option.some.inj h₁)
  refine mirrored_bind (mirrored_now hconfines.tidy _) fun now db₂ _ hconfines₂ => ?_
  have hscope₂ : db₂.scope t = some a := by rw [hconfines₂.scope, hconfines.scope, hscope]
  split
  · rename_i key expiresAt hkey _
    split
    · refine mirrored_bind (mirrored_insert hconfines₂.tidy hscope₂ ?_ ?_ ?_ ?_)
        fun inserted db₃ _ hconfines₃ => mirrored_pure hconfines₃.tidy _
      · exact congrArg some happ
      · intro _ r _ _ hindex
        cases r with
        | idempotencyKey k =>
          simp only [index_row, Row.uniqueValue, Option.some.injEq,
            UniqueValue.applicationKey.injEq] at hindex
          exact congrArg some (hindex.1.trans happ)
        | notification n =>
          simp only [index_row, Row.uniqueValue, Option.map_eq_some_iff, reduceCtorEq,
            and_false, exists_const] at hindex
        | _ => cases hindex
      · rintro _ job ⟨⟩
      · rintro id lockToken ⟨⟩
        exact htoken.ne'
    · exact mirrored_refuse _
  · exact mirrored_refuse _

/-- A completion changes no row but the one of the claim. -/
theorem mirrored_complete (h : db.Tidy) (hscope : db.scope t = some a) {input : CompleteInput}
    (howns : (db.store.opened t).isSome → (∃ r ∈ (db.store.own t).rows,
      key r = RowKey.idempotencyKey input.id) ∨ input.id = input.lockToken) :
    Mirrored a db (IdempotencyKeyRepository.complete ⟨policies, t⟩ input)
      (IdempotencyKeyRepository.complete ⟨policies, t⟩ input) := by
  unfold IdempotencyKeyRepository.complete
  split
  · refine mirrored_bind (mirrored_update h hscope (fun hopen r hr hconcerns => ?_)
      (fun _ _ _ => rfl) fun r => ?_) fun _ db₁ _ hconfines => mirrored_pure hconfines.tidy ()
    · obtain ⟨holder, hholder, -⟩ := Store.of_mem_view hr
      cases r with
      | idempotencyKey k =>
        obtain ⟨hid, htoken⟩ := of_decide_eq_true hconcerns
        rcases howns hopen with ⟨r', hr', hkey⟩ | hsame
        · have hkeys : key (.idempotencyKey k : Row) = key r' :=
            (congrArg RowKey.idempotencyKey hid).trans hkey.symm
          rw [h.agree hholder (show r' ∈ (db.store.of (some t)).rows from hr') hkeys, h.owned hr',
            hscope]
        · exact absurd ((hid.trans hsame).trans htoken.symm) (h.claims hholder rfl)
      | _ => cases hconcerns
    · cases r <;> exact ⟨rfl, rfl, rfl⟩
  · exact mirrored_refuse _

theorem mirrored_insertNotification (h : db.Tidy) (hscope : db.scope t = some a)
    {input : InsertNotificationInput} (happ : input.applicationId = a) :
    Mirrored a db (NotificationRepository.insert ⟨policies, t⟩ input)
      (NotificationRepository.insert ⟨policies, t⟩ input) := by
  refine mirrored_bind (mirrored_now h _) fun now db₁ _ hconfines => mirrored_get ?_
  cases hcolumns : input.columns with
  | none => exact mirrored_refuse _
  | some draft =>
    obtain ⟨body, scheduledAt, metadata, -, -, -, rfl⟩ := columns_eq_some.1 hcolumns
    dsimp only
    -- the connection that is referred to is one of the application's
    have hreferenced : ∀ row : NotificationRecord, row.applicationId = a →
        ((db₁.restrict a).store.view t).rows.any (NotificationRepository.isReferenced row) =
          (db₁.store.view t).rows.any (NotificationRepository.isReferenced row) := by
      intro row hrow
      rw [show ((db₁.restrict a).store.view t).rows =
          (db₁.store.view t).rows.filter (Row.isOf a) from
        congrArg Table.rows (Store.view_restrict (hconfines.tidy.isOf a)), List.any_filter]
      refine List.any_congr rfl fun r => ?_
      cases r with
      | session s =>
        by_cases hs : s.applicationId = a
        · simp [Row.isOf, Row.applicationId, hs]
        · simp [Row.isOf, Row.applicationId, NotificationRepository.isReferenced, hs, hrow]
      | _ => exact Bool.and_false _
    rw [hreferenced _ happ]
    split
    · refine mirrored_insertOrFail hconfines.tidy (hconfines.scope ▸ hscope) ?_ rfl rfl rfl
      exact congrArg some happ
    · exact mirrored_refuse _

theorem mirrored_appendEvents (h : db.Tidy) (hscope : db.scope t = some a)
    {inputs : List NotificationEventInput} (happ : ∀ e ∈ inputs, e.applicationId = a) :
    Mirrored a db (NotificationRepository.appendEvents ⟨policies, t⟩ inputs)
      (NotificationRepository.appendEvents ⟨policies, t⟩ inputs) := by
  induction inputs generalizing db with
  | nil => exact mirrored_pure h _
  | cons e rest ih =>
    refine mirrored_bind ?_ fun _ db₁ _ hconfines => ih hconfines.tidy (hconfines.scope ▸ hscope)
      fun e' he' => happ e' (List.mem_cons_of_mem _ he')
    refine mirrored_bind (mirrored_generateIdentifier h) fun id db₁ _ hconfines => ?_
    refine mirrored_bind (mirrored_now hconfines.tidy _) fun now db₂ _ hconfines₂ => ?_
    have hscope₂ : db₂.scope t = some a := by rw [hconfines₂.scope, hconfines.scope, hscope]
    refine mirrored_insertOrFail hconfines₂.tidy hscope₂ ?_ rfl rfl rfl
    exact congrArg some (happ e List.mem_cons_self)

/-- The job of a notification that was written in the transaction. -/
theorem mirrored_enqueueDispatch (h : db.Tidy) (hscope : db.scope t = some a) {job : DispatchJob}
    (happ : job.applicationId = a)
    (hwritten : (db.store.opened t).isSome → ∃ r ∈ (db.store.own t).rows,
      key r = RowKey.notification job.notificationId) :
    Mirrored a db (enqueueDispatch ⟨policies, t⟩ job) (enqueueDispatch ⟨policies, t⟩ job) := by
  refine mirrored_bind (mirrored_generateIdentifier h) fun id db₁ h₁ hconfines => ?_
  have hstore : db₁.store = db.store := by
    cases h₁
    rfl
  rw [← hstore] at hwritten
  have hscope₁ : db₁.scope t = some a := hconfines.scope ▸ hscope
  refine mirrored_bind (mirrored_insert hconfines.tidy hscope₁ ?_ ?_ ?_ ?_)
    fun _ db₂ _ hconfines₂ => mirrored_pure hconfines₂.tidy ()
  · exact congrArg some happ
  · intro hopen r hr _ hindex
    obtain ⟨holder, hholder, -⟩ := Store.of_mem_view hr
    cases r with
    | dispatchJob id' job' =>
      simp only [index_row, Row.uniqueValue, Option.some.injEq,
        UniqueValue.singletonKey.injEq] at hindex
      -- both jobs are for one notification, and so for one application
      obtain ⟨n, hn, hkey⟩ := hwritten hopen
      obtain ⟨holder', n', -, hn', hkey', happ'⟩ := hconfines.tidy.jobs hholder rfl
      have hsame : key n = key n' := hkey.trans ((congrArg _ hindex).symm.trans hkey'.symm)
      have hagree := hconfines.tidy.agree (show n ∈ (db₁.store.of (some t)).rows from hn) hn' hsame
      rw [hconfines.tidy.owned hn, hscope₁, happ'] at hagree
      exact hagree.symm
    | notification n =>
      simp only [index_row, Row.uniqueValue, Option.map_eq_some_iff, reduceCtorEq,
        and_false, exists_const] at hindex
    | _ => cases hindex
  · rintro hopen job' ⟨⟩
    obtain ⟨n, hn, hkey⟩ := hwritten hopen
    refine ⟨some t, n, .inr rfl, hn, hkey, ?_⟩
    rw [hconfines.tidy.owned hn, hscope₁, happ]
  · rintro id lockToken ⟨⟩

/-- Whoever holds a version of a notification of the application is of the application. -/
theorem held_notification (h : db.Tidy) {r : NotificationRecord}
    (hr : .notification r ∈ (db.store.view t).rows) (hof : r.applicationId = a) :
    (db.restrict a).store.held t (fun r' => key r' = RowKey.notification r.id) =
      db.store.held t fun r' => key r' = RowKey.notification r.id := by
  refine Store.held_restrict fun t' _ r' hr' hkey => Row.isOf_iff.2 ?_
  obtain ⟨holder, hholder, -⟩ := Store.of_mem_view hr
  rw [h.agree (show r' ∈ (db.store.of (some t')).rows from hr') hholder (of_decide_eq_true hkey)]
  exact congrArg some hof

end Statement

/-! ## What a request knows of its transaction -/

/-- The identifiers of the request were drawn, its transaction is scoped to its application, and
while it is open it has the row of its claim and those of the notifications it wrote. -/
structure Serving.Holds (q : Serving) (db : Database) : Prop where
  generated : ∀ id ∈ q.generated, id < db.identifiers
  began : ∀ {t}, q.transaction = some t →
    t < db.store.next ∧ db.scope t = some q.applicationId
  claim : ∀ {t own c}, q.transaction = some t → db.store.opened t = some own →
    q.claim = some c → ∃ r ∈ own.rows, key r = RowKey.idempotencyKey c.1
  written : ∀ {t own n}, q.transaction = some t → db.store.opened t = some own →
    n ∈ q.written → ∃ r ∈ own.rows, key r = RowKey.notification n

end PublicApi

end NotificationPlatform
