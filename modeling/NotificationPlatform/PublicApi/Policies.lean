import NotificationPlatform.PublicApi.Confinement

/-!
# What the policies see to

With `tenant_isolation` in force a statement of a transaction that is scoped to an application
touches rows of the application only, whatever application the statement names: what it reads of
others is empty, what it changes of them is nothing, and what it inserts for them is refused. A
repository that forgets an application in its conditions does no harm.
-/

namespace NotificationPlatform

namespace PublicApi

open Relational Transactional

namespace Statement

section Reads

variable {α β : Type} {a : Uuid} {t : Nat} {db : Database}

/-- What is admitted of a table that has the policy. -/
theorem admits_tenant (hscope : db.scope t = some a) {r : Row} (hr : r.isTenantTable = true) :
    (⟨true, t⟩ : QueryExecutor).admits db r = r.isOf a := by
  simp only [QueryExecutor.admits, hr, hscope, Row.isOf, Bool.not_true, Bool.false_or,
    Option.all_some]

/-- Any read of a table that has the policy. -/
theorem mirrored_walledRead (h : db.Tidy) (hscope : db.scope t = some a) {table : Row → Option α}
    (htable : ∀ r, (table r).isSome → r.isTenantTable = true) (f : List α → β) :
    Mirrored a db (do let rows ← (⟨true, t⟩ : QueryExecutor).select table; return f rows)
      (do let rows ← (⟨true, t⟩ : QueryExecutor).select table; return f rows) := by
  have hrows : ∀ rows : List Row,
      ((rows.filter (Row.isOf a)).filter ((⟨true, t⟩ : QueryExecutor).admits db)).filterMap table =
        (rows.filter ((⟨true, t⟩ : QueryExecutor).admits db)).filterMap table := by
    intro rows
    rw [List.filter_filter, List.filterMap_filter, List.filterMap_filter]
    refine List.filterMap_congr fun r _ => ?_
    cases hr : table r with
    | none => simp
    | some x => simp [admits_tenant hscope (htable r (by simp [hr]))]
  intro r db' he
  obtain ⟨rows, db₁, hselect, hpure⟩ := Statement.bind_eq_some.1 he
  obtain ⟨rfl, rfl⟩ := Statement.pure_eq_some.1 hpure
  unfold QueryExecutor.select at hselect
  split at hselect
  · rename_i hopen
    cases hselect
    have hopen' : ((db.restrict a).store.opened t).isSome = true :=
      Store.isSome_opened_restrict.trans hopen
    have hview : ((db.restrict a).store.view t).rows =
        (db.store.view t).rows.filter (Row.isOf a) :=
      congrArg Table.rows (Store.view_restrict (h.isOf a))
    refine ⟨Statement.bind_eq_some.2 ⟨_, db.restrict a, if_pos hopen', ?_⟩, .refl h⟩
    refine Statement.pure_eq_some.2 ⟨?_, rfl⟩
    rw [hview, show (⟨true, t⟩ : QueryExecutor).admits (db.restrict a) =
      (⟨true, t⟩ : QueryExecutor).admits db from rfl, hrows]
  · cases hselect

end Reads

/-! ## Updates -/

section Updates

variable {a : Uuid} {t : Nat} {db : Database} {p p' : Row → Bool} {f : Row → Row}
  {hf : ∀ r, key (f r) = key r} {hi : ∀ r, index (f r) = index r}

/-- An update of rows of any application is one of the rows of its own. -/
theorem update_walled (hscope : db.scope t = some a)
    (hp : ∀ r, p r = true → r.isTenantTable = true) :
    (⟨true, t⟩ : QueryExecutor).update p f hf hi db =
      (⟨true, t⟩ : QueryExecutor).update (fun r => r.isOf a && p r) f hf hi db := by
  have hselected : (fun r => (⟨true, t⟩ : QueryExecutor).admits db r && p r) =
      fun r => (⟨true, t⟩ : QueryExecutor).admits db r && (r.isOf a && p r) := by
    funext r
    cases hr : p r with
    | false => simp
    | true => simp [admits_tenant hscope (hp r hr)]
  simp only [QueryExecutor.update, hselected]

theorem mirrored_walledUpdate (h : db.Tidy) (hscope : db.scope t = some a)
    (hp : ∀ r, p r = true → r.isTenantTable = true)
    (hp' : ∀ r, p' r = true → r.isTenantTable = true)
    (hsame : ∀ r ∈ (db.store.view t).rows, r.applicationId = some a → p' r = p r)
    (halike : ∀ r : Row, r.Alike (f r)) :
    Mirrored a db ((⟨true, t⟩ : QueryExecutor).update p f hf hi)
      ((⟨true, t⟩ : QueryExecutor).update p' f hf hi) := by
  intro rows db' he
  rw [update_walled hscope hp] at he
  have hscope' : (db.restrict a).scope t = some a := hscope
  rw [update_walled hscope' hp']
  refine mirrored_update h hscope (fun _ r _ hr => ?_) (fun r hr hof => ?_) halike rows db' he
  · exact Row.isOf_iff.1 (Bool.and_eq_true_iff.1 hr).1
  · rw [hsame r hr hof]

theorem mirrored_walledUpdateWhere (h : db.Tidy) (hscope : db.scope t = some a)
    {p p' : NotificationRecord → Bool} {f : NotificationRecord → NotificationRecord}
    {hf : ∀ r, (f r).id = r.id ∧ (f r).whatsAppSessionId = r.whatsAppSessionId ∧
      (f r).providerMessageId = r.providerMessageId}
    (hsame : ∀ r, .notification r ∈ (db.store.view t).rows → r.applicationId = a → p' r = p r)
    (happ : ∀ r, (f r).applicationId = r.applicationId) :
    Mirrored a db (NotificationRepository.updateWhere ⟨true, t⟩ p f hf)
      (NotificationRepository.updateWhere ⟨true, t⟩ p' f hf) := by
  have htenant : ∀ (q : NotificationRecord → Bool) (r : Row),
      r.notification?.any q = true → r.isTenantTable = true := by
    intro q r hr
    obtain ⟨n, hn, -⟩ := (Option.any_eq_true _ _).1 hr
    rw [Row.notification?_eq_some.1 hn]
    rfl
  refine mirrored_bind (mirrored_walledUpdate h hscope (htenant p) (htenant p') ?_ ?_)
    fun rows db₁ _ hconfines => ?_
  · intro r hr hof
    cases r with
    | notification n => exact hsame n hr (Option.some.inj hof)
    | _ => rfl
  · intro r
    cases r with
    | notification n => exact ⟨congrArg some (happ n), rfl, rfl⟩
    | _ => exact ⟨rfl, rfl, rfl⟩
  · dsimp only
    split
    · exact mirrored_pure hconfines.tidy _
    · exact mirrored_refuse _

theorem mirrored_walledComplete (h : db.Tidy) (hscope : db.scope t = some a)
    (input : CompleteInput) :
    Mirrored a db (IdempotencyKeyRepository.complete ⟨true, t⟩ input)
      (IdempotencyKeyRepository.complete ⟨true, t⟩ input) := by
  have htenant : ∀ r, input.concerns r = true → r.isTenantTable = true := by
    intro r hr
    cases r with
    | idempotencyKey k => rfl
    | _ => cases hr
  unfold IdempotencyKeyRepository.complete
  split
  · refine mirrored_bind (mirrored_walledUpdate h hscope htenant htenant (fun _ _ _ => rfl)
      fun r => ?_) fun _ db₁ _ hconfines => mirrored_pure hconfines.tidy ()
    cases r <;> exact ⟨rfl, rfl, rfl⟩
  · exact mirrored_refuse _

end Updates

/-! ## Inserts -/

section Inserts

variable {a : Uuid} {t : Nat} {db db' : Database}

/-- A row that is inserted is of the application. -/
theorem insert_walled {row : Row} {b : Bool}
    (he : (⟨true, t⟩ : QueryExecutor).insert row db = some (b, db'))
    (hscope : db.scope t = some a) (hrow : row.isTenantTable = true) :
    row.applicationId = some a := by
  unfold QueryExecutor.insert at he
  split at he
  · rename_i hadmits
    rw [admits_tenant hscope hrow] at hadmits
    exact Row.isOf_iff.1 hadmits
  · cases he

theorem insertOrFail_walled {row : Row} {u : Unit}
    (he : (⟨true, t⟩ : QueryExecutor).insertOrFail row db = some (u, db'))
    (hscope : db.scope t = some a) (hrow : row.isTenantTable = true) :
    row.applicationId = some a := by
  obtain ⟨b, db₁, hinsert, -⟩ := Statement.bind_eq_some.1 he
  exact insert_walled hinsert hscope hrow

theorem insertClaim_walled {input : IdempotencyClaimInput} {r : Option (Uuid × Uuid)}
    (he : IdempotencyKeyRepository.insertClaim ⟨true, t⟩ input db = some (r, db'))
    (hscope : db.scope t = some a) : input.applicationId = a := by
  obtain ⟨id, db₁, h₁, he⟩ := Statement.bind_eq_some.1 he
  cases h₁
  obtain ⟨now, db₂, h₂, he⟩ := Statement.bind_eq_some.1 he
  cases h₂
  cases hkey : textColumn input.key with
  | none =>
    simp only [hkey] at he
    cases he
  | some key =>
    cases hexpires : timestamptzColumn input.expiresAt with
    | none =>
      simp only [hkey, hexpires] at he
      cases he
    | some expiresAt =>
      simp only [hkey, hexpires] at he
      split at he
      · obtain ⟨b, db₃, hinsert, -⟩ := Statement.bind_eq_some.1 he
        exact Option.some.inj (insert_walled hinsert hscope rfl)
      · cases he

theorem insertNotification_walled {input : InsertNotificationInput} {u : Unit}
    (he : NotificationRepository.insert ⟨true, t⟩ input db = some (u, db'))
    (hscope : db.scope t = some a) : input.applicationId = a := by
  obtain ⟨now, db₁, h₁, he⟩ := Statement.bind_eq_some.1 he
  cases h₁
  obtain ⟨db₂, db₃, h₂, he⟩ := Statement.bind_eq_some.1 he
  cases h₂
  cases hcolumns : input.columns with
  | none =>
    rw [hcolumns] at he
    cases he
  | some draft =>
    obtain ⟨body, scheduledAt, metadata, -, -, -, rfl⟩ := columns_eq_some.1 hcolumns
    rw [hcolumns] at he
    dsimp only at he
    split at he
    · exact Option.some.inj (insertOrFail_walled he hscope rfl)
    · cases he

theorem appendEvents_walled {inputs : List NotificationEventInput} {u : Unit}
    (he : NotificationRepository.appendEvents ⟨true, t⟩ inputs db = some (u, db'))
    (hscope : db.scope t = some a) : ∀ e ∈ inputs, e.applicationId = a := by
  induction inputs generalizing db with
  | nil => exact fun e he' => absurd he' List.not_mem_nil
  | cons e rest ih =>
    obtain ⟨u₁, db₁, hevent, hrest⟩ := Statement.bind_eq_some.1 he
    obtain ⟨id, db₂, h₂, hevent⟩ := Statement.bind_eq_some.1 hevent
    cases h₂
    obtain ⟨now, db₃, h₃, hevent⟩ := Statement.bind_eq_some.1 hevent
    cases h₃
    have hrow := insertOrFail_walled hevent hscope rfl
    have hscope₁ : db₁.scope t = some a :=
      (congrFun (inside_insertOrFail ⟨true, t⟩ _ hevent).scope t).trans hscope
    intro e' he'
    rcases List.mem_cons.1 he' with rfl | he'
    · exact Option.some.inj hrow
    · exact ih hrest hscope₁ e' he'

end Inserts

end Statement

/-! ## What a walled statement does -/

section Statements

variable {db : Database} {q : Serving} {c : Choice}

theorem Row.isTenantTable_of_session? (r : Row) (h : r.session?.isSome) :
    r.isTenantTable = true := by
  cases r with
  | session s => rfl
  | _ => cases h

theorem Row.isTenantTable_of_notification? (r : Row) (h : r.notification?.isSome) :
    r.isTenantTable = true := by
  cases r with
  | notification n => rfl
  | _ => cases h

theorem Row.isTenantTable_of_notificationEvent? (r : Row) (h : r.notificationEvent?.isSome) :
    r.isTenantTable = true := by
  cases r with
  | notificationEvent e => rfl
  | _ => cases h

theorem Row.isTenantTable_of_idempotencyKey? (r : Row) (h : r.idempotencyKey?.isSome) :
    r.isTenantTable = true := by
  cases r with
  | idempotencyKey k => rfl
  | _ => cases h

/-- What a request does, whatever application it names, is of its application. -/
theorem walled_mirrored (htidy : db.Tidy) (hholds : q.Holds db) {o : Op} (hwalled : q.Walled o) :
    Statement.Mirrored q.applicationId db (meaning true c.clock c.lockedRows o)
      (meaning true c.clock c.lockedRows o) := by
  cases o with
  | listForApplication t a =>
    exact Statement.mirrored_walledRead htidy (hholds.began hwalled).2
      Row.isTenantTable_of_session? _
  | findSessionById t a s =>
    exact Statement.mirrored_walledRead htidy (hholds.began hwalled).2
      Row.isTenantTable_of_session? _
  | findByKey t a text =>
    simp only [meaning, IdempotencyKeyRepository.findByKey]
    cases textColumn text with
    | none => exact Statement.mirrored_refuse _
    | some text =>
      exact Statement.mirrored_walledRead htidy (hholds.began hwalled).2
        Row.isTenantTable_of_idempotencyKey? _
  | findNotificationById t a n =>
    exact Statement.mirrored_walledRead htidy (hholds.began hwalled).2
      Row.isTenantTable_of_notification? _
  | listEvents t a n =>
    exact Statement.mirrored_walledRead htidy (hholds.began hwalled).2
      Row.isTenantTable_of_notificationEvent? _
  | listNotifications t a filters cursor limit =>
    exact Statement.mirrored_walledRead htidy (hholds.began hwalled).2
      Row.isTenantTable_of_notification? _
  | insertClaim t input =>
    obtain ⟨htransaction, htoken⟩ := hwalled
    have hscope := (hholds.began htransaction).2
    intro r db' he
    exact Statement.mirrored_insertClaim htidy hscope (Statement.insertClaim_walled he hscope)
      (hholds.generated _ htoken) r db' he
  | complete t input =>
    exact Statement.mirrored_walledComplete htidy (hholds.began hwalled).2 input
  | insertNotification t input =>
    have hscope := (hholds.began hwalled).2
    intro r db' he
    exact Statement.mirrored_insertNotification htidy hscope
      (Statement.insertNotification_walled he hscope) r db' he
  | appendEvents t inputs =>
    have hscope := (hholds.began hwalled).2
    intro r db' he
    exact Statement.mirrored_appendEvents htidy hscope
      (Statement.appendEvents_walled he hscope) r db' he
  | applyTransition t input =>
    exact Statement.mirrored_bind (Statement.mirrored_walledUpdateWhere htidy
      (hholds.began hwalled).2 (fun _ _ _ => rfl) fun r => rfl)
      fun _ db₁ _ hconfines => Statement.mirrored_pure hconfines.tidy _
  | cancelWaiting t input =>
    refine Statement.mirrored_get (Statement.mirrored_bind (Statement.mirrored_walledUpdateWhere
      htidy (hholds.began hwalled).2 (fun r hr hof => ?_) fun r => rfl)
      fun _ db₁ _ hconfines => Statement.mirrored_pure hconfines.tidy _)
    simp only [Statement.held_notification htidy hr hof]
  | _ => exact hwalled.elim

end Statements

end PublicApi

end NotificationPlatform
