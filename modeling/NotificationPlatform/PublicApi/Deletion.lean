import NotificationPlatform.PublicApi.DeleteSession
import NotificationPlatform.PublicApi.Validation

/-!
# Deleting a connection is not all or nothing

A deletion asks whether a connection is in use, then has the provider delete the session, then
deletes the row. A notification that is committed after the question and before the row is deleted
keeps the row, when the provider has nothing to keep. What is shown of every run is that nothing
else does.
-/

namespace NotificationPlatform

namespace PublicApi

open Interleaving Relational Transactional

/-! ## No request but a deletion touches a connection -/

/-- What is committed stays, and no version of a connection is new. -/
structure LeavesConnections (db db' : Database) : Prop where
  committed : db'.store.committed = db.store.committed
  own : ∀ t, ∀ r ∈ (db'.store.own t).rows, r ∈ (db.store.own t).rows ∨ r.session? = none

theorem LeavesConnections.rfl {db : Database} : LeavesConnections db db :=
  ⟨.refl _, fun _ _ => .inl⟩

theorem LeavesConnections.of_store {db db' : Database} (h : db'.store = db.store) :
    LeavesConnections db db' := ⟨by rw [h], fun _ _ hr => .inl (h ▸ hr)⟩

theorem LeavesConnections.trans {db₁ db₂ db₃ : Database} (h : LeavesConnections db₁ db₂)
    (h' : LeavesConnections db₂ db₃) : LeavesConnections db₁ db₃ where
  committed := h'.committed.trans h.committed
  own := by
    intro t r hr
    rcases h'.own t r hr with hr | hr
    · exact h.own t r hr
    · exact .inr hr

theorem LeavesConnections.wrote {db : Database} {store : Store Row} {t : Nat} {rows : Table Row}
    (h : Store.Wrote db.store store t rows) (hrows : ∀ r ∈ rows.rows, r.session? = none) :
    LeavesConnections db { db with store } where
  committed := h.committed
  own := by
    intro t' r hr
    by_cases ht : t' = t
    · subst ht
      rw [h.own] at hr
      rcases mem_overlay.1 hr with ⟨hr, -⟩ | hr
      · exact .inl hr
      · exact .inr (hrows r hr)
    · rw [h.own_other ht] at hr
      exact .inl hr

/-- However it is answered, the statement leaves the connections alone. -/
def Statement.Modest {α : Type} (x : Statement α) : Prop :=
  ∀ {db a db'}, x db = some (a, db') → LeavesConnections db db'

namespace Statement

variable {α β : Type}

theorem modest_pure (a : α) : Modest (pure a) := by
  intro db b db' h
  obtain ⟨-, rfl⟩ := Statement.pure_eq_some.1 h
  exact .rfl

theorem modest_refuse : Modest (refuse : Statement α) := nofun

theorem modest_bind {x : Statement α} {f : α → Statement β} (hx : x.Modest)
    (hf : ∀ a, (f a).Modest) : (x >>= f).Modest := by
  intro db b db' h
  obtain ⟨a, db₁, h₁, h₂⟩ := Statement.bind_eq_some.1 h
  exact (hx h₁).trans (hf a h₂)

/-- A statement that changes nothing but the clocks, the scopes and the count of identifiers. -/
theorem modest_of_store {x : Statement α}
    (h : ∀ {db a db'}, x db = some (a, db') → db'.store = db.store) : x.Modest :=
  fun hx => .of_store (h hx)

theorem modest_get : Modest (get : Statement Database) := by
  refine modest_of_store fun h => ?_
  cases h
  rfl

theorem modest_generateIdentifier : Modest generateIdentifier := by
  refine modest_of_store fun h => ?_
  cases h
  rfl

variable (executor : QueryExecutor)

theorem modest_now : Modest executor.now := by
  refine modest_of_store fun h => ?_
  cases h
  rfl

theorem modest_select (table : Row → Option α) : Modest (executor.select table) := by
  refine modest_of_store fun h => ?_
  unfold QueryExecutor.select at h
  split at h
  · cases h
    rfl
  · cases h

theorem modest_insert {row : Row} (hrow : row.session? = none) : Modest (executor.insert row) := by
  intro db b db' h
  unfold QueryExecutor.insert at h
  split at h
  · obtain ⟨⟨b', store⟩, hinsert, hp⟩ := Option.map_eq_some_iff.1 h
    cases hp
    rcases Store.insert_cases hinsert with ⟨-, hw, -⟩ | ⟨-, rfl, -⟩
    · refine .wrote hw fun r hr => ?_
      rw [List.mem_singleton.1 hr]
      exact hrow
    · exact .rfl
  · cases h

theorem modest_insertOrFail {row : Row} (hrow : row.session? = none) :
    Modest (executor.insertOrFail row) := by
  refine modest_bind (modest_insert executor hrow) fun inserted => ?_
  split
  · exact modest_pure _
  · exact modest_refuse

theorem modest_update {p : Row → Bool} {f : Row → Row} {hf : ∀ r, key (f r) = key r}
    {hi : ∀ r, index (f r) = index r} (hrow : ∀ r, p r = true → (f r).session? = none) :
    Modest (executor.update p f hf hi) := by
  intro db rows db' h
  simp only [QueryExecutor.update] at h
  split at h
  · obtain ⟨⟨rows', store⟩, hupdate, hp⟩ := Option.map_eq_some_iff.1 h
    cases hp
    refine .wrote (Store.update_some hupdate).2 fun r hr => ?_
    obtain ⟨r₀, hr₀, rfl⟩ := List.mem_map.1 hr
    have hselected := (Table.mem_select.1 hr₀).2
    simp only [Bool.and_eq_true] at hselected
    exact hrow r₀ hselected.2
  · cases h

end Statement

section Operations

open Statement

theorem modest_updateWhere (executor : QueryExecutor) (p : NotificationRecord → Bool)
    (f : NotificationRecord → NotificationRecord)
    (hf : ∀ r, (f r).id = r.id ∧ (f r).whatsAppSessionId = r.whatsAppSessionId ∧
      (f r).providerMessageId = r.providerMessageId) :
    Modest (NotificationRepository.updateWhere executor p f hf) := by
  refine modest_bind (modest_update executor fun r hr => ?_) fun rows => ?_
  · cases r <;> first | rfl | cases hr
  · dsimp only
    split
    · exact modest_pure _
    · exact modest_refuse

theorem modest_insertClaim (executor : QueryExecutor) (input : IdempotencyClaimInput) :
    Modest (IdempotencyKeyRepository.insertClaim executor input) := by
  refine modest_bind modest_generateIdentifier fun id => ?_
  refine modest_bind (modest_now executor) fun now => ?_
  split
  · split
    · exact modest_bind (modest_insert executor rfl) fun inserted => modest_pure _
    · exact modest_refuse
  · exact modest_refuse

theorem modest_complete (executor : QueryExecutor) (input : CompleteInput) :
    Modest (IdempotencyKeyRepository.complete executor input) := by
  unfold IdempotencyKeyRepository.complete
  split
  · refine modest_bind (modest_update executor fun r hr => ?_) fun _ => modest_pure _
    cases r <;> first | rfl | cases hr
  · exact modest_refuse

theorem modest_insertNotification (executor : QueryExecutor) (input : InsertNotificationInput) :
    Modest (NotificationRepository.insert executor input) := by
  refine modest_bind (modest_now executor) fun now => modest_bind modest_get fun db => ?_
  split
  · dsimp only
    split
    · exact modest_insertOrFail executor rfl
    · exact modest_refuse
  · exact modest_refuse

theorem modest_appendEvents (executor : QueryExecutor) (inputs : List NotificationEventInput) :
    Modest (NotificationRepository.appendEvents executor inputs) := by
  induction inputs with
  | nil => exact modest_pure _
  | cons input inputs ih =>
    refine modest_bind ?_ fun _ => ih
    exact modest_bind modest_generateIdentifier fun id => modest_bind (modest_now executor)
      fun occurredAt => modest_insertOrFail executor rfl

theorem modest_rollback (t : Nat) : Modest (rollbackTransaction t) := by
  intro db _ db' h
  obtain ⟨store, hstore, hp⟩ := Option.map_eq_some_iff.1 h
  cases hp
  have hended := Store.rollback_some hstore
  refine ⟨hended.committed, fun t' r hr => .inl ?_⟩
  by_cases ht : t' = t
  · subst ht
    rw [hended.own] at hr
    exact absurd hr List.not_mem_nil
  · rwa [hended.own_other ht] at hr

theorem modest_begin (a : Option Uuid) : Modest (beginTransaction a) := by
  intro db t db' h
  cases h
  refine ⟨rfl, fun t' r hr => .inl ?_⟩
  by_cases ht : t' = db.store.next
  · subst ht
    simp [Store.start, Versions.own, Table.empty] at hr
  · simpa [Store.start, Versions.own, ht] using hr

/-- Every operation leaves the connections alone, but for the end of a transaction. -/
theorem exec_leavesConnections {policies : Bool} {db db' : Database} {o : Op} {c : Choice}
    {r : o.Ret} (ho : ∀ t, o ≠ .commit t) (h : exec policies db o c = some (r, db')) :
    LeavesConnections db db' := by
  suffices hmodest : Modest (meaning policies c.clock c.lockedRows o) from hmodest h
  cases o with
  | clockNow =>
    simp only [meaning]
    split
    · exact modest_pure _
    · exact modest_refuse
  | generate => exact modest_generateIdentifier
  | findSessionByIdWithoutTenantScope s =>
    refine modest_of_store fun h => ?_
    cases h
    rfl
  | begin a => exact modest_begin a
  | commit t => exact absurd rfl (ho t)
  | rollback t => exact modest_rollback t
  | listForApplication t a => exact modest_bind (modest_select _ _) fun _ => modest_pure _
  | findSessionById t a s => exact modest_bind (modest_select _ _) fun _ => modest_pure _
  | recordDelivery t input =>
    simp only [meaning, WebhookDeliveryRepository.record]
    split
    · exact modest_bind (modest_insert _ rfl) fun _ => modest_pure _
    · exact modest_refuse
  | enqueueWebhookProcess t job =>
    exact modest_bind modest_generateIdentifier fun _ => modest_insertOrFail _ rfl
  | enqueueDispatch t job =>
    exact modest_bind modest_generateIdentifier fun _ =>
      modest_bind (modest_insert _ rfl) fun _ => modest_pure _
  | insertClaim t input => exact modest_insertClaim _ input
  | findByKey t a k =>
    simp only [meaning, IdempotencyKeyRepository.findByKey]
    split
    · exact modest_bind (modest_select _ _) fun _ => modest_pure _
    · exact modest_refuse
  | complete t input => exact modest_complete _ input
  | insertNotification t input => exact modest_insertNotification _ input
  | appendEvents t inputs => exact modest_appendEvents _ inputs
  | findNotificationById t a n => exact modest_bind (modest_select _ _) fun _ => modest_pure _
  | listEvents t a n => exact modest_bind (modest_select _ _) fun _ => modest_pure _
  | listNotifications t a filters cursor limit =>
    exact modest_bind (modest_select _ _) fun _ => modest_pure _
  | applyTransition t input =>
    exact modest_bind (modest_updateWhere _ _ _ _) fun _ => modest_pure _
  | cancelWaiting t input =>
    exact modest_bind modest_get fun _ =>
      modest_bind (modest_updateWhere _ _ _ _) fun _ => modest_pure _

/-- What a commit does: the versions of its transaction are what is committed. -/
theorem exec_commit_versions {policies : Bool} {db db' : Database} {t : Nat} {c : Choice} {r : Unit}
    (h : exec policies db (.commit t) c = some (r, db')) :
    db'.store.committed = overlay db.store.committed (db.store.own t) ∧
      ∀ t', ∀ r ∈ (db'.store.own t').rows, r ∈ (db.store.own t').rows := by
  obtain ⟨store, hstore, hp⟩ := Option.map_eq_some_iff.1 h
  cases hp
  have hended := Store.commit_some hstore
  refine ⟨hended.committed, fun t' r hr => ?_⟩
  by_cases ht : t' = t
  · subst ht
    rw [hended.own] at hr
    exact absurd hr List.not_mem_nil
  · rwa [hended.own_other ht] at hr

end Operations

/-! ## What the operations of a deletion do -/

section SessionOperations

variable {w w' : Deployment} {c : DeploymentChoice} {a s : Uuid}

theorem sessionExec_findById {found : Option StoredSessionRecord}
    (h : sessionExec w (.findById a s) c = some (found, w')) :
    w' = w ∧ ∀ x ∈ found, .session x ∈ w.database.store.committed.rows ∧
      x.id = s ∧ x.applicationId = a := by
  obtain ⟨db, hfound, rfl⟩ := onDatabase_eq_some.1 h
  obtain ⟨rfl, rfl⟩ := Prod.mk.inj (Option.some.inj hfound)
  refine ⟨rfl, fun x hx => ?_⟩
  obtain ⟨r, hr, hrow⟩ := List.mem_filterMap.1 (List.mem_of_find?_eq_some hx)
  rw [Row.session?_eq_some.1 hrow] at hr
  exact ⟨hr, by simpa using List.find?_some hx⟩

theorem sessionExec_existsForSession {inUse : Bool}
    (h : sessionExec w (.existsForSession a s) c = some (inUse, w')) :
    w' = w ∧ inUse = w.database.store.committed.rows.any (restricts a s) := by
  obtain ⟨db, hinUse, rfl⟩ := onDatabase_eq_some.1 h
  obtain ⟨rfl, rfl⟩ := Prod.mk.inj (Option.some.inj hinUse)
  exact ⟨rfl, rfl⟩

/-- Whether the provider does not have the session after this answer. -/
def isGone : ProviderResult Unit → Bool
  | .succeeded () => true
  | .failed failure => failure.providerStatusCode = some PROVIDER_NOT_FOUND

/-- As long as no answer is lost, the answer tells whether the provider has the session. -/
theorem sessionExec_deleteSession {name : String} {deleted : ProviderResult Unit}
    (hlost : ∀ failure, c ≠ .lost failure)
    (h : sessionExec w (.deleteSession name) c = some (deleted, w')) :
    w' = if isGone deleted then { w with provider := w.provider.filter (· ≠ name) } else w := by
  obtain ⟨⟨deleted', provider⟩, hdelete, hp⟩ := Option.map_eq_some_iff.1 h
  cases hp
  cases c with
  | api choice => cases hdelete
  | lost failure => exact absurd rfl (hlost failure)
  | answer result =>
    cases result with
    | succeeded _ =>
      simp only [deleteAtProvider] at hdelete
      split at hdelete
      · cases hdelete
        rfl
      · cases hdelete
    | failed failure =>
      simp only [deleteAtProvider] at hdelete
      split at hdelete
      · cases hdelete
      · rename_i hhas
        cases hdelete
        by_cases hstatus : failure.providerStatusCode = some PROVIDER_NOT_FOUND
        · have hname : name ∉ w.provider := fun hmem => hhas ⟨hstatus, hmem⟩
          have hsame : w.provider.filter (· ≠ name) = w.provider := by
            refine List.filter_eq_self.2 fun n hn => decide_eq_true ?_
            rintro rfl
            exact hname hn
          simp only [isGone, hstatus, decide_true, if_true, hsame]
        · simp only [isGone, hstatus, decide_false, Bool.false_eq_true, if_false]

/-- The row is gone after a deletion, unless a notification restricted it. -/
theorem sessionExec_delete {removed : Option Bool}
    (h : sessionExec w (.delete a s) c = some (removed, w')) :
    ∃ db, w' = { w with database := db } ∧
      (∀ t, db.store.own t = w.database.store.own t) ∧
      (∀ r ∈ db.store.committed.rows, r ∈ w.database.store.committed.rows) ∧
      ((∀ r ∈ w.database.store.committed.rows, restricts a s r = false) →
        ∀ r ∈ db.store.committed.rows, isConnection a s r = false) := by
  obtain ⟨db, hdelete, rfl⟩ := onDatabase_eq_some.1 h
  refine ⟨db, rfl, ?_⟩
  unfold WhatsAppSessionRepository.delete at hdelete
  split at hdelete
  · split at hdelete
    · cases hdelete
    · split at hdelete
      · rename_i hany
        cases hdelete
        refine ⟨fun _ => rfl, fun _ hr => hr, fun hnone => ?_⟩
        obtain ⟨r, hr, hrestricts⟩ := List.any_eq_true.1 hany
        rw [hnone r hr] at hrestricts
        cases hrestricts
      · cases hdelete
        refine ⟨fun _ => rfl, fun _ hr => (Store.mem_remove.1 hr).1, fun _ r hr => ?_⟩
        have hkept := (Store.mem_remove.1 hr).2
        simp only [isDeleted, Bool.or_eq_false_iff] at hkept
        exact hkept.1
  · rename_i hnone
    cases hdelete
    exact ⟨fun _ => rfl, fun _ hr => hr, fun _ r hr =>
      Bool.eq_false_iff.2 fun hconnection => hnone (List.any_eq_true.2 ⟨r, hr, hconnection⟩)⟩

end SessionOperations

/-! ## The stages of a deletion -/

/-- How far a deletion is. `elsewhere` is one that ended before the provider deleted anything, and
every other request. -/
inductive Stage where
  | elsewhere
  | begun (applicationId sessionId : Uuid)
  | found (record : StoredSessionRecord)
  | unused (record : StoredSessionRecord)
  | gone (record : StoredSessionRecord)
  | finished (record : StoredSessionRecord)

def Stage.record? : Stage → Option StoredSessionRecord
  | .elsewhere | .begun _ _ => none
  | .found x | .unused x | .gone x | .finished x => some x

/-- What a deletion does in each stage. -/
inductive SessionOp.Allowed : Stage → SessionOp → Prop where
  | findById (a s : Uuid) : Allowed (.begun a s) (.findById a s)
  | existsForSession (x : StoredSessionRecord) :
      Allowed (.found x) (.existsForSession x.applicationId x.id)
  | deleteSession (x : StoredSessionRecord) :
      Allowed (.unused x) (.deleteSession x.providerSessionName)
  | delete (x : StoredSessionRecord) : Allowed (.gone x) (.delete x.applicationId x.id)

def SessionOp.next : Stage → (o : SessionOp) → o.Ret → Stage
  | .begun _ _, .findById _ _, found => (found.map Stage.found).getD .elsewhere
  | .found x, .existsForSession _ _, inUse => if inUse then .elsewhere else .unused x
  | .unused x, .deleteSession _, deleted => if isGone deleted then .gone x else .elsewhere
  | .gone x, .delete _ _, _ => .finished x
  | q, _, _ => q

@[reducible] def stages : Typestate (operations.sum sessionOperations) where
  Phase := Stage
  Allows
    | q, .inl _ => q = .elsewhere
    | q, .inr o => SessionOp.Allowed q o
  advance
    | q, .inl _, _ => q
    | q, .inr o, r => SessionOp.next q o r

def firstStage : DeploymentRequest → Stage
  | .delete a s => .begun a s
  | _ => .elsewhere

/-- A connection that is read is the one asked for. -/
def SessionOp.Answers : (o : SessionOp) → o.Ret → Prop
  | .findById a s, found => ∀ x ∈ found, x.id = s ∧ x.applicationId = a
  | _, _ => True

def DeploymentAnswers :
    (o : (operations.sum sessionOperations).Op) → (operations.sum sessionOperations).Ret o → Prop
  | .inl _, _ => True
  | .inr o, r => o.Answers r

/-- A deletion returns before the provider deleted anything, or after the row is deleted. -/
def EndsAt (q : Stage) : Prop := q = .elsewhere ∨ ∃ x, q = .finished x

open PublicApi.WhatsAppSessionService in
theorem assertGone_of_isGone {deleted : ProviderResult Unit} (h : isGone deleted = true) :
    assertGone deleted = pure () := by
  cases deleted with
  | succeeded _ => rfl
  | failed failure => exact if_pos (of_decide_eq_true h)

open PublicApi.WhatsAppSessionService in
theorem assertGone_of_not {deleted : ProviderResult Unit} (h : isGone deleted = false) :
    ∃ e, assertGone deleted = throw e := by
  cases deleted with
  | succeeded _ => cases h
  | failed failure => exact ⟨_, if_neg (of_decide_eq_false h)⟩

open PublicApi.WhatsAppSessionService in
theorem conforms_afterAnswer (x : StoredSessionRecord) (deleted : ProviderResult Unit) :
    Conforms stages DeploymentAnswers (if isGone deleted then .gone x else .elsewhere)
      (Prog.inr (I := operations) (DeploymentResult.deleted <$>
        (assertGone deleted >>= fun _ => deleteRow x.applicationId x.id).run))
      fun q _ => EndsAt q := by
  cases hgone : isGone deleted with
  | true =>
    rw [assertGone_of_isGone hgone]
    refine ⟨.delete x, fun removed _ => ?_⟩
    cases removed <;> exact .inr ⟨x, rfl⟩
  | false =>
    obtain ⟨e, he⟩ := assertGone_of_not hgone
    rw [he]
    exact .inl rfl

theorem conforms_delete (a s : Uuid) : Conforms stages DeploymentAnswers (.begun a s)
    (Prog.inr (I := operations) (DeploymentResult.deleted <$>
      (WhatsAppSessionService.delete a s).run)) fun q _ => EndsAt q := by
  refine ⟨.findById a s, fun found hfound => ?_⟩
  cases found with
  | none => exact .inl rfl
  | some x =>
    obtain ⟨rfl, rfl⟩ := hfound x rfl
    refine ⟨.existsForSession x, fun inUse _ => ?_⟩
    cases inUse with
    | true => exact .inl rfl
    | false => exact ⟨.deleteSession x, fun deleted _ => conforms_afterAnswer x deleted⟩

/-- A request that creates stays where it is. -/
theorem conforms_elsewhere {α : Type} (p : Prog operations α) :
    Conforms stages DeploymentAnswers .elsewhere p.inl fun q _ => EndsAt q := by
  have huses : p.inl.Uses fun o : (operations.sum sessionOperations).Op => ∃ o', o = .inl o' :=
    Prog.uses_inl (fun o => ⟨o, rfl⟩) p
  refine (Conforms.of_uses ?_ huses).mono fun q _ hq => .inl hq
  rintro _ ⟨o, rfl⟩
  exact ⟨rfl, fun _ => rfl⟩

theorem answers_deploymentExec {policies : Bool} {w w' : Deployment}
    {o : (operations.sum sessionOperations).Op} {c : DeploymentChoice}
    {r : (operations.sum sessionOperations).Ret o}
    (h : deploymentExec policies w o c = some (r, w')) : DeploymentAnswers o r := by
  cases o with
  | inl o => trivial
  | inr o =>
    cases o with
    | findById a s =>
      have hread : sessionExec w (.findById a s) c = some (r, w') := h
      intro x hx
      exact ((sessionExec_findById hread).2 x hx).2
    | _ => trivial

@[reducible] def deletions (policies : Bool) (environment : Environment) :
    Discipline (deployment policies environment) where
  toTypestate := stages
  initial := firstStage
  Answers := DeploymentAnswers
  Returns _ q _ := EndsAt q
  answers_exec := answers_deploymentExec
  conforms
    | .delete a s => conforms_delete a s
    | .create _ _ => conforms_elsewhere _
    | .createBatch _ _ => conforms_elsewhere _

/-! ## Runs -/

/-- What a step told of a session that the provider deleted. -/
def deletedName : Performed (operations.sum sessionOperations) → Option String
  | ⟨_, .inr (.deleteSession name), .succeeded ()⟩ => some name
  | _ => none

/-- The deletion has passed its question and has not deleted the row. -/
def Stage.Deletes : Stage → StoredSessionRecord → Prop
  | .unused y, x | .gone y, x => y = x
  | _, _ => False

/-- The provider does not have the session any more. -/
def Stage.Past : Stage → StoredSessionRecord → Prop
  | .gone y, x | .finished y, x => y = x
  | _, _ => False

/-- What holds between the stages of the deletions, the rows and the provider, in a run that began
with `w₀`. -/
structure Sound (w₀ : Deployment) (ph : Nat → Option Stage) (w : Deployment)
    (trace : List (Performed (operations.sum sessionOperations))) : Prop where
  versions : ∀ t, ∀ r ∈ (w.database.store.own t).rows, r.session? = none
  listed : ∀ x, .session x ∈ w.database.store.committed.rows →
    .session x ∈ w₀.database.store.committed.rows
  read : ∀ {i q x}, ph i = some q → q.record? = some x →
    .session x ∈ w₀.database.store.committed.rows
  unused : ∀ {i q x}, ph i = some q → q.Deletes x → ∀ r ∈ w.database.store.committed.rows,
    restricts x.applicationId x.id r = false
  finished : ∀ {i x}, ph i = some (.finished x) → ∀ r ∈ w.database.store.committed.rows,
    isConnection x.applicationId x.id r = false
  told : ∀ e ∈ trace, ∀ name ∈ deletedName e, ∃ q x, ph e.thread = some q ∧ q.Past x ∧
    x.providerSessionName = name
  provider : ∀ name ∈ w₀.provider, name ∉ w.provider → ∃ i q x, ph i = some q ∧ q.Past x ∧
    x.providerSessionName = name

section Sound

variable {w₀ w : Deployment} {ph : Nat → Option Stage}
  {trace : List (Performed (operations.sum sessionOperations))}

theorem isConnection_session {a s : Uuid} {r : Row} (h : isConnection a s r = true) :
    ∃ x, r = .session x := by
  cases r with
  | session x => exact ⟨x, rfl⟩
  | _ => cases h

/-- The rows change: no new version is a connection's, and whatever is newly committed is no
connection and restricts none that is being deleted. -/
theorem Sound.database (h : Sound w₀ ph w trace) {db : Database}
    (hversions : ∀ t, ∀ r ∈ (db.store.own t).rows,
      r ∈ (w.database.store.own t).rows ∨ r.session? = none)
    (hcommitted : ∀ r ∈ db.store.committed.rows, r ∈ w.database.store.committed.rows ∨
      (r.session? = none ∧ ∀ i q x, ph i = some q → q.Deletes x →
        restricts x.applicationId x.id r = false)) :
    Sound w₀ ph { w with database := db } trace where
  versions := by
    intro t r hr
    rcases hversions t r hr with hr | hr
    · exact h.versions t r hr
    · exact hr
  listed := by
    intro x hx
    rcases hcommitted _ hx with hx | ⟨hx, -⟩
    · exact h.listed x hx
    · cases hx
  read := h.read
  unused := by
    intro i q x hi hq r hr
    rcases hcommitted r hr with hr | ⟨-, hr⟩
    · exact h.unused hi hq r hr
    · exact hr i q x hi hq
  finished := by
    intro i x hi r hr
    rcases hcommitted r hr with hr | ⟨hr, -⟩
    · exact h.finished hi r hr
    · refine Bool.eq_false_iff.2 fun hconnection => ?_
      obtain ⟨y, rfl⟩ := isConnection_session hconnection
      cases hr
  told := h.told
  provider := h.provider

theorem Sound.leaves (h : Sound w₀ ph w trace) {db : Database}
    (hleaves : LeavesConnections w.database db) : Sound w₀ ph { w with database := db } trace :=
  h.database hleaves.own fun _ hr => .inl (hleaves.committed ▸ hr)

/-- The provider does not have a session any more whose deletion is past it. -/
theorem Sound.forgets (h : Sound w₀ ph w trace) {i : Nat} {q : Stage} {x : StoredSessionRecord}
    (hi : ph i = some q) (hq : q.Past x) :
    Sound w₀ ph { w with provider := w.provider.filter (· ≠ x.providerSessionName) } trace where
  versions := h.versions
  listed := h.listed
  read := h.read
  unused := h.unused
  finished := h.finished
  told := h.told
  provider := by
    intro name hname hnot
    by_cases hsame : x.providerSessionName = name
    · exact ⟨i, q, x, hi, hq, hsame⟩
    · refine h.provider name hname fun hmem => hnot (List.mem_filter.2 ⟨hmem, decide_eq_true ?_⟩)
      exact fun heq => hsame heq.symm

/-- A request comes to a stage, with the trace that belongs to it. -/
theorem Sound.turn (h : Sound w₀ ph w trace) {i : Nat} {q' : Stage}
    {trace' : List (Performed (operations.sum sessionOperations))}
    (hread : ∀ x, q'.record? = some x → .session x ∈ w₀.database.store.committed.rows)
    (hunused : ∀ x, q'.Deletes x → ∀ r ∈ w.database.store.committed.rows,
      restricts x.applicationId x.id r = false)
    (hfinished : ∀ x, q' = .finished x → ∀ r ∈ w.database.store.committed.rows,
      isConnection x.applicationId x.id r = false)
    (hpast : ∀ q x, ph i = some q → q.Past x → q'.Past x)
    (htold : ∀ e ∈ trace', e ∈ trace ∨ ∀ name ∈ deletedName e, ∃ x, e.thread = i ∧ q'.Past x ∧
      x.providerSessionName = name) :
    Sound w₀ (Function.update ph i (some q')) w trace' := by
  -- what some request is past, it is past still
  have hkept : ∀ {j q₁ x}, ph j = some q₁ → q₁.Past x →
      ∃ q₂, Function.update ph i (some q') j = some q₂ ∧ q₂.Past x := by
    intro j q₁ x hj hx
    by_cases hji : j = i
    · subst hji
      exact ⟨q', Function.update_self _ _ _, hpast q₁ x hj hx⟩
    · exact ⟨q₁, (Function.update_of_ne hji _ _).trans hj, hx⟩
  have hcases : ∀ {j q₁}, Function.update ph i (some q') j = some q₁ →
      q₁ = q' ∨ ph j = some q₁ := by
    intro j q₁ hj
    by_cases hji : j = i
    · subst hji
      rw [Function.update_self] at hj
      exact .inl (Option.some.inj hj).symm
    · rw [Function.update_of_ne hji] at hj
      exact .inr hj
  refine ⟨h.versions, h.listed, ?_, ?_, ?_, ?_, ?_⟩
  · intro j q₁ x hj hx
    rcases hcases hj with rfl | hj
    · exact hread x hx
    · exact h.read hj hx
  · intro j q₁ x hj hx
    rcases hcases hj with rfl | hj
    · exact hunused x hx
    · exact h.unused hj hx
  · intro j x hj
    rcases hcases hj with hq | hj
    · exact hfinished x hq.symm
    · exact h.finished hj
  · intro e he name hname
    rcases htold e he with he | htold
    · obtain ⟨q₁, x, hj, hx, hsame⟩ := h.told e he name hname
      obtain ⟨q₂, hj₂, hx₂⟩ := hkept hj hx
      exact ⟨q₂, x, hj₂, hx₂, hsame⟩
    · obtain ⟨x, hi, hx, hsame⟩ := htold name hname
      exact ⟨q', x, by rw [hi, Function.update_self], hx, hsame⟩
  · intro name hname hnot
    obtain ⟨j, q₁, x, hj, hx, hsame⟩ := h.provider name hname hnot
    obtain ⟨q₂, hj₂, hx₂⟩ := hkept hj hx
    exact ⟨j, q₂, x, hj₂, hx₂, hsame⟩

/-- A request goes from one stage to the next. -/
theorem Sound.advance (h : Sound w₀ ph w trace) {i : Nat} {q q' : Stage}
    {e : Performed (operations.sum sessionOperations)} (hi : ph i = some q) (he : e.thread = i)
    (hread : ∀ x, q'.record? = some x → .session x ∈ w₀.database.store.committed.rows)
    (hunused : ∀ x, q'.Deletes x → ∀ r ∈ w.database.store.committed.rows,
      restricts x.applicationId x.id r = false)
    (hfinished : ∀ x, q' = .finished x → ∀ r ∈ w.database.store.committed.rows,
      isConnection x.applicationId x.id r = false)
    (hpast : ∀ x, q.Past x → q'.Past x)
    (htold : ∀ name ∈ deletedName e, ∃ x, q'.Past x ∧ x.providerSessionName = name) :
    Sound w₀ (Function.update ph i (some q')) w (e :: trace) := by
  refine h.turn hread hunused hfinished ?_ ?_
  · intro q₁ x hq₁ hx
    cases hi.symm.trans hq₁
    exact hpast x hx
  · intro e' he'
    rcases List.mem_cons.1 he' with rfl | he'
    · refine .inr fun name hname => ?_
      obtain ⟨x, hx, hsame⟩ := htold name hname
      exact ⟨x, he, hx, hsame⟩
    · exact .inl he'

/-- A request is started. -/
theorem Sound.spawned (h : Sound w₀ ph w trace) {i : Nat} (hi : ph i = none)
    (request : DeploymentRequest) :
    Sound w₀ (Function.update ph i (some (firstStage request))) w trace := by
  refine h.turn ?_ ?_ ?_ ?_ fun e he => .inl he
  · cases request <;> rintro x ⟨⟩
  · cases request <;> rintro x ⟨⟩
  · cases request <;> rintro x ⟨⟩
  · intro q x hq
    cases hi.symm.trans hq

end Sound

section Runs

variable {policies : Bool} {environment : Environment} {w₀ : Deployment}
  {s s' : System (deployment policies environment)}

/-- Neither a process nor the provider crashes: every deletion the provider performs is answered. -/
def Uncrashed (_ : System (deployment policies environment)) :
    Label (deployment policies environment) → Prop
  | .crash _ => False
  | .advance _ choice => ∀ failure, choice ≠ .lost failure
  | _ => True

/-- A deletion of the connection goes to the provider next, or deletes the row next. -/
def IsDeleting (s : System (deployment policies environment)) (a id : Uuid) : Prop :=
  ∃ i, s.requestOf i = some (.delete a id) ∧
    ((∃ name, s.nextOp i = some (.inr (.deleteSession name))) ∨
      s.nextOp i = some (.inr (.delete a id)))

/-- No transaction that wrote a notification for a connection commits while the connection is being
deleted. -/
def Undisturbed (s : System (deployment policies environment)) :
    Label (deployment policies environment) → Prop
  | .advance i _ => ∀ t, s.nextOp i = some (.inl (.commit t)) → ∀ a id, IsDeleting s a id →
      ∀ r ∈ (s.world.database.store.own t).rows, restricts a id r = false
  | _ => True

/-- A deletion that the provider performed deleted the row, once it has ended; and when all have
ended, the provider has the sessions of the connections that are listed, as far as it had them. -/
structure AllOrNothing (w₀ : Deployment) (s : System (deployment policies environment)) :
    Prop where
  row : ∀ e ∈ s.trace, ∀ name ∈ deletedName e, ∀ a id, s.requestOf e.thread = some (.delete a id) →
    (∃ result, s.Returned e.thread result) →
      ∀ r ∈ s.world.database.store.committed.rows, isConnection a id r = false
  session : (∀ i a id, s.requestOf i = some (.delete a id) → ∃ result, s.Returned i result) →
    ∀ x, .session x ∈ s.world.database.store.committed.rows →
      x.providerSessionName ∈ w₀.provider → x.providerSessionName ∈ s.world.provider

/-- The stages each request goes through. -/
def Stage.IsOf (q : Stage) : DeploymentRequest → Prop
  | .delete a id => q = .elsewhere ∨ q = .begun a id ∨
      ∃ x, q.record? = some x ∧ x.applicationId = a ∧ x.id = id
  | _ => q = .elsewhere

theorem isOf_next {request : DeploymentRequest} {q : Stage}
    {o : (operations.sum sessionOperations).Op} {r : (operations.sum sessionOperations).Ret o}
    (h : q.IsOf request) (hallowed : stages.Allows q o) (hanswer : DeploymentAnswers o r) :
    (stages.advance q o r).IsOf request := by
  cases o with
  | inl o => exact h
  | inr o =>
    cases request with
    | create _ _ | createBatch _ _ =>
      cases h
      cases hallowed
    | delete a id =>
      cases hallowed with
      | findById a' s =>
        have hrequest : a' = a ∧ s = id := by
          rcases h with h | h | ⟨x, h, -⟩
          · cases h
          · cases h
            exact ⟨rfl, rfl⟩
          · cases h
        obtain ⟨rfl, rfl⟩ := hrequest
        cases r with
        | none => exact .inl rfl
        | some x => exact .inr (.inr ⟨x, rfl, (hanswer x rfl).2, (hanswer x rfl).1⟩)
      | existsForSession x =>
        have hx := h.resolve_left nofun |>.resolve_left nofun
        cases r with
        | true => exact .inl rfl
        | false => exact .inr (.inr hx)
      | deleteSession x =>
        have hx := h.resolve_left nofun |>.resolve_left nofun
        change Stage.IsOf (if isGone r then .gone x else .elsewhere) _
        split
        · exact .inr (.inr hx)
        · exact .inl rfl
      | delete x => exact .inr (.inr (h.resolve_left nofun |>.resolve_left nofun))

theorem stage_isOf {P : System (deployment policies environment) →
      Label (deployment policies environment) → Prop} (h : Run P (System.start w₀) s) {i : Nat}
    {request : DeploymentRequest} {q : Stage} (hi : s.requestOf i = some request)
    (hq : (deletions policies environment).phase s i = some q) : q.IsOf request := by
  refine Discipline.run_phases (D := deletions policies environment)
    (fun request q => q.IsOf request) (fun request => ?_) isOf_next h hi hq
  cases request with
  | delete a id => exact .inr (.inl rfl)
  | create _ _ | createBatch _ _ => rfl

/-- Where nobody crashes, a deletion that is past its question is on its way. -/
theorem not_crashed {P : System (deployment policies environment) →
      Label (deployment policies environment) → Prop} (hP : ∀ s l, P s l → Uncrashed s l)
    (h : Run P (System.start w₀) s) (i : Nat) : ¬ s.Crashed i := by
  induction h with
  | refl => rintro ⟨request, hcrashed⟩; cases hcrashed
  | @tail s₁ s₂ l hr hp hs ih =>
    cases (Discipline.disciplined_run (D := deletions policies environment) hr).stepped hs with
    | spawned _ _ crashed | advanced _ crashed | outside _ crashed =>
      rw [crashed]
      exact ih
    | crashed => exact absurd (hP _ _ hp) id

theorem isDeleting_of_deletes {P : System (deployment policies environment) →
      Label (deployment policies environment) → Prop} (hP : ∀ s l, P s l → Uncrashed s l)
    (h : Run P (System.start w₀) s) {i : Nat} {q : Stage} {x : StoredSessionRecord}
    (hi : (deletions policies environment).phase s i = some q) (hq : q.Deletes x) :
    IsDeleting s x.applicationId x.id := by
  obtain ⟨t, ht, -⟩ := Option.map_eq_some_iff.1 hi
  have hrequest : s.requestOf i = some t.request := by
    simp only [System.requestOf, ht, Option.map_some]
  have hrecord : q.record? = some x := by
    cases q <;> first | exact congrArg some hq | cases hq
  have hdelete : t.request = .delete x.applicationId x.id := by
    have hof := stage_isOf h hrequest hi
    cases hr : t.request with
    | create _ _ | createBatch _ _ =>
      rw [hr] at hof
      cases hof
      cases hrecord
    | delete a id =>
      rw [hr] at hof
      rcases hof with rfl | rfl | ⟨y, hy, rfl, rfl⟩
      · cases hrecord
      · cases hrecord
      · cases hy.symm.trans hrecord
        rfl
  rw [hdelete] at hrequest
  refine ⟨i, hrequest, ?_⟩
  obtain ⟨o, hdue, ho⟩ := Discipline.due_run h hi (by
    rintro request a (rfl | ⟨y, rfl⟩) <;> cases hq)
  have hnext := (Discipline.nextOp_of_due (deletions policies environment) h hdue).resolve_right
    (not_crashed hP h i)
  cases o with
  | inl o =>
    obtain rfl : q = .elsewhere := ho
    cases hq
  | inr o =>
    cases ho with
    | findById _ _ | existsForSession _ => cases hq
    | deleteSession y => exact .inl ⟨_, hnext⟩
    | delete y =>
      obtain rfl : y = x := hq
      exact .inr hnext

/-- What an operation of the API does to the rows. -/
theorem Sound.api {w : Deployment} {ph : Nat → Option Stage}
    {trace : List (Performed (operations.sum sessionOperations))} (h : Sound w₀ ph w trace) {o : Op}
    {c : Choice} {r : o.Ret} {db : Database} (he : exec policies w.database o c = some (r, db))
    (hcommit : ∀ t, o = .commit t → ∀ i q x, ph i = some q → q.Deletes x →
      ∀ r ∈ (w.database.store.own t).rows, restricts x.applicationId x.id r = false) :
    Sound w₀ ph { w with database := db } trace := by
  by_cases ho : ∃ t, o = .commit t
  · obtain ⟨t, rfl⟩ := ho
    obtain ⟨hcommitted, hown⟩ := exec_commit_versions he
    refine h.database (fun t' r hr => .inl (hown t' r hr)) fun r hr => ?_
    rw [hcommitted] at hr
    rcases mem_overlay.1 hr with ⟨hr, -⟩ | hr
    · exact .inl hr
    · exact .inr ⟨h.versions t r hr, fun i q x hi hq => hcommit t rfl i q x hi hq r hr⟩
  · exact h.leaves (exec_leavesConnections (fun t ht => ho ⟨t, ht⟩) he)

/-- A request is over before the provider deleted anything. -/
theorem Sound.leave {w : Deployment} {ph : Nat → Option Stage}
    {trace : List (Performed (operations.sum sessionOperations))} (h : Sound w₀ ph w trace)
    {i : Nat} {q : Stage} {e : Performed (operations.sum sessionOperations)} (hi : ph i = some q)
    (he : e.thread = i) (hpast : ∀ x, ¬ q.Past x) (htold : deletedName e = none) :
    Sound w₀ (Function.update ph i (some .elsewhere)) w (e :: trace) := by
  refine h.advance hi he ?_ ?_ ?_ (fun x hx => absurd hx (hpast x)) ?_
  · rintro x ⟨⟩
  · rintro x ⟨⟩
  · rintro x ⟨⟩
  · rw [htold]
    rintro name ⟨⟩

/-- What one operation keeps. -/
theorem Sound.advanced {i : Nat} {c : DeploymentChoice}
    {o : (operations.sum sessionOperations).Op} {r : (operations.sum sessionOperations).Ret o}
    {q : Stage} {ph : Nat → Option Stage} {w w' : Deployment}
    {trace : List (Performed (operations.sum sessionOperations))} (h : Sound w₀ ph w trace)
    (hi : ph i = some q) (hallowed : stages.Allows q o)
    (he : deploymentExec policies w o c = some (r, w')) (hlost : ∀ failure, c ≠ .lost failure)
    (hcommit : ∀ t, o = .inl (.commit t) → ∀ j q x, ph j = some q → q.Deletes x →
      ∀ r ∈ (w.database.store.own t).rows, restricts x.applicationId x.id r = false) :
    Sound w₀ (Function.update ph i (some (stages.advance q o r))) w' (⟨i, o, r⟩ :: trace) := by
  cases o with
  | inl o =>
    obtain rfl : q = .elsewhere := hallowed
    cases c with
    | answer _ | lost _ => cases he
    | api choice =>
      have he' : onDatabase (fun db => exec policies db o choice) w = some (r, w') := he
      obtain ⟨db, hexec, rfl⟩ := onDatabase_eq_some.1 he'
      have hkept := h.api hexec fun t ht => hcommit t (congrArg Sum.inl ht)
      have htold : deletedName ⟨i, .inl o, r⟩ = none := rfl
      exact hkept.leave hi rfl (fun _ hx => hx) htold
  | inr o =>
    have he' : sessionExec w o c = some (r, w') := he
    cases hallowed with
    | findById a id =>
      obtain ⟨rfl, hfound⟩ := sessionExec_findById he'
      cases r with
      | none => exact h.leave hi rfl (fun _ hx => hx) rfl
      | some x =>
        refine h.advance hi rfl ?_ (fun _ hx => hx.elim) ?_ (fun _ hx => hx.elim) ?_
        · rintro y ⟨⟩
          exact h.listed x (hfound x rfl).1
        · rintro y ⟨⟩
        · rintro name ⟨⟩
    | existsForSession x =>
      obtain ⟨rfl, hinUse⟩ := sessionExec_existsForSession he'
      cases r with
      | true => exact h.leave hi rfl (fun _ hx => hx) rfl
      | false =>
        refine h.advance hi rfl (fun y hy => h.read hi hy) ?_ ?_ (fun _ hx => hx.elim) ?_
        · rintro y rfl r hr
          exact Bool.eq_false_iff.2 (List.any_eq_false.1 hinUse.symm r hr)
        · rintro y ⟨⟩
        · rintro name ⟨⟩
    | deleteSession x =>
      have hw' := sessionExec_deleteSession hlost he'
      have hnext : stages.advance (.unused x) (.inr (.deleteSession x.providerSessionName)) r =
        if isGone r then .gone x else .elsewhere := rfl
      rw [hnext, hw']
      cases hgone : isGone r with
      | true =>
        refine Sound.forgets (i := i) (x := x) ?_ (Function.update_self _ _ _) rfl
        refine h.advance hi rfl (fun y hy => h.read hi hy) (fun y hy => h.unused hi hy) ?_
          (fun _ hx => hx.elim) ?_
        · rintro y ⟨⟩
        · intro name hname
          cases r with
          | succeeded _ => exact ⟨x, rfl, Option.some.inj hname⟩
          | failed _ => cases hname
      | false =>
        cases r with
        | succeeded _ => cases hgone
        | failed _ => exact h.leave hi rfl (fun _ hx => hx) rfl
    | delete x =>
      obtain ⟨db, rfl, hown, hkept, hdeleted⟩ := sessionExec_delete he'
      have hrow := hdeleted (h.unused hi rfl)
      have hdb := h.database (fun t r hr => .inl (hown t ▸ hr)) fun r hr => .inl (hkept r hr)
      refine hdb.advance hi rfl (fun y hy => h.read hi hy) (fun _ hx => hx.elim) ?_
        (fun _ hx => hx) ?_
      · rintro y ⟨⟩
        exact hrow
      · rintro name ⟨⟩

theorem Sound.outside {w w' : Deployment} {ph : Nat → Option Stage}
    {trace : List (Performed (operations.sum sessionOperations))} (h : Sound w₀ ph w trace)
    {event : DeploymentEvent} (hw : deploymentOutside w event = some w') :
    Sound w₀ ph w' trace := by
  cases event with
  | clock now =>
    simp only [deploymentOutside] at hw
    split at hw
    · cases hw
      exact h.leaves (.of_store rfl)
    · cases hw
  | aborted t =>
    obtain ⟨⟨u, w₁⟩, hrollback, rfl⟩ := Option.map_eq_some_iff.1 hw
    obtain ⟨db, hdb, rfl⟩ := onDatabase_eq_some.1 hrollback
    exact h.leaves (modest_rollback t hdb)

theorem sound_run {P : System (deployment policies environment) →
      Label (deployment policies environment) → Prop}
    (hP : ∀ s l, P s l → Uncrashed s l ∧ Undisturbed s l) (hidle : w₀.database.store.Idle)
    (h : Run P (System.start w₀) s) :
    Sound w₀ ((deletions policies environment).phase s) s.world s.trace := by
  induction h with
  | refl =>
    refine ⟨fun t r hr => ?_, fun _ hx => hx, ?_, ?_, ?_, ?_, fun _ hname hnot => absurd hname hnot⟩
    · have hown : w₀.database.store.own t = Table.empty := by
        simp only [Versions.own, hidle t, Option.getD_none]
      change r ∈ (w₀.database.store.own t).rows at hr
      rw [hown] at hr
      exact absurd hr List.not_mem_nil
    · rintro i q x ⟨⟩
    · rintro i q x ⟨⟩
    · rintro i x ⟨⟩
    · rintro e ⟨⟩
  | @tail s₁ s₂ l hr hp hs ih =>
    have hcrash : ∀ s l, P s l → Uncrashed s l := fun s l hp => (hP s l hp).1
    obtain ⟨huncrashed, hundisturbed⟩ := hP _ _ hp
    cases (Discipline.disciplined_run (D := deletions policies environment) hr).stepped hs with
    | @spawned i request fresh phases crashed world trace =>
      rw [phases, trace, world]
      exact ih.spawned fresh request
    | crashed => exact huncrashed.elim
    | @outside event phases crashed world trace =>
      rw [phases, trace]
      exact ih.outside world
    | @advanced i c o r q phases crashed live step =>
      rw [phases, step.trace]
      refine ih.advanced step.before step.allowed step.exec huncrashed ?_
      rintro t rfl j q x hj hq
      exact hundisturbed t step.nextOp _ _ (isDeleting_of_deletes hcrash hr hj hq)

/-- A request that has returned is in a stage in which it may return. -/
theorem endsAt_of_returned {P : System (deployment policies environment) →
      Label (deployment policies environment) → Prop} (h : Run P (System.start w₀) s) {i : Nat}
    {result : DeploymentResult} (hi : s.Returned i result) {q : Stage}
    (hq : (deletions policies environment).phase s i = some q) : EndsAt q := by
  obtain ⟨request, hrequest⟩ := hi
  have hresidual :=
    (Discipline.disciplined_run (D := deletions policies environment) h).residual hrequest
  rw [Discipline.phase_eq hrequest] at hq
  cases hq
  exact hresidual

/-- Past the provider and returned, a deletion is over. -/
theorem over_of_past {q : Stage} {x : StoredSessionRecord} (h : q.Past x) (hends : EndsAt q) :
    q = .finished x := by
  rcases hends with rfl | ⟨y, rfl⟩
  · cases h
  · obtain rfl : y = x := h
    rfl

/-- **A deletion is all or nothing** in every run in which no notification for a connection is
committed while the connection is being deleted. -/
theorem deletions_are_all_or_nothing (hidle : w₀.database.store.Idle)
    (h : Run (fun s l => Uncrashed s l ∧ Undisturbed s l) (System.start w₀) s) :
    AllOrNothing w₀ s := by
  have hsound := sound_run (fun _ _ hp => hp) hidle h
  refine ⟨?_, ?_⟩
  · rintro e he name hname a id hrequest ⟨result, hreturned⟩
    obtain ⟨q, x, hq, hpast, -⟩ := hsound.told e he name hname
    obtain rfl := over_of_past hpast (endsAt_of_returned h hreturned hq)
    rcases stage_isOf h hrequest hq with hof | hof | ⟨y, hy, rfl, rfl⟩
    · cases hof
    · cases hof
    · cases hy
      exact hsound.finished hq
  · intro hreturned x hx hbefore
    by_contra hnot
    obtain ⟨i, q, y, hq, hpast, hsame⟩ := hsound.provider _ hbefore hnot
    have hrecord : q.record? = some y := by
      cases q <;> first | exact congrArg some hpast | cases hpast
    -- the connection it deletes has the name of the one listed, so it is that one
    have hy := hsound.read hq hrecord
    have hyof : Row.session y ∈ (w₀.database.store.of none).rows := hy
    have hxof : Row.session x ∈ (w₀.database.store.of none).rows := hsound.listed x hx
    have hkey : key (Row.session y) = key (Row.session x) :=
      w₀.database.store.coherent.unique hyof hxof
        (congrArg (fun n => some (UniqueValue.providerSessionName n)) hsame) rfl
    have hxy : Row.session y = Row.session x :=
      List.inj_on_of_nodup_map w₀.database.store.committed.nodup hy (hsound.listed x hx) hkey
    cases hxy
    obtain ⟨t, ht, -⟩ := Option.map_eq_some_iff.1 hq
    have hrequest : s.requestOf i = some t.request := by
      simp only [System.requestOf, ht, Option.map_some]
    have hof := stage_isOf h hrequest hq
    cases hr : t.request with
    | create _ _ | createBatch _ _ =>
      rw [hr] at hof
      cases hof
      cases hrecord
    | delete a id =>
      rw [hr] at hrequest
      obtain ⟨result, hresult⟩ := hreturned i a id hrequest
      obtain rfl := over_of_past hpast (endsAt_of_returned h hresult hq)
      have hgone := hsound.finished hq _ hx
      simp [isConnection] at hgone

end Runs

/-! ## One connection and one recipient -/

namespace Intake

/-- The connection is one the provider has. -/
def deployed : Deployment where
  database := database
  provider := ["wnp-2"]

def input : CreateNotificationService.CreateNotificationInput where
  applicationId := 1
  body := [72, 105]
  whatsAppSessionId := none
  scheduledAt := none
  maximumAttempts := none
  metadata := []
  idempotencyKey := none
  requestPath := "/v1/notifications"
  recipient := "+5511999998888"

/-- A label at which nothing crashes. -/
def isUncrashed : Label (deployment true environment) → Bool
  | .crash _ | .advance _ (.lost _) => false
  | _ => true

/-- A step at which nothing crashes and nothing is committed. -/
def isQuiet (s : System (deployment true environment)) (l : Label (deployment true environment)) :
    Bool :=
  isUncrashed l && match l with
    | .advance i _ => match s.nextOp i with
      | some (.inl (.commit _)) => false
      | _ => true
    | _ => true

theorem uncrashed_of_isUncrashed {s : System (deployment true environment)}
    {l : Label (deployment true environment)} (h : isUncrashed l = true) : Uncrashed s l := by
  cases l with
  | crash i => cases h
  | advance i choice =>
    rintro failure rfl
    cases h
  | spawn _ _ | outside _ => trivial

theorem undisturbed_of_isQuiet {s : System (deployment true environment)}
    {l : Label (deployment true environment)} (h : isQuiet s l = true) :
    Uncrashed s l ∧ Undisturbed s l := by
  obtain ⟨huncrashed, hquiet⟩ := (Bool.and_eq_true _ _).mp h
  refine ⟨uncrashed_of_isUncrashed huncrashed, ?_⟩
  cases l with
  | advance i choice =>
    intro t ht
    simp only [ht] at hquiet
    cases hquiet
  | spawn _ _ | crash _ | outside _ => trivial

/-- A whole deletion, between the statements of a request that creates nothing yet. -/
def undisturbed : List (Label (deployment true environment)) :=
  [.spawn 1 (.create none input), .advance 1 (.api (.date 0)), .spawn 0 (.delete 1 2),
    .advance 0 (.api .nothing), .advance 1 (.api .nothing), .advance 0 (.api .nothing),
    .advance 0 (.answer (.succeeded ())), .advance 1 (.api .nothing), .advance 0 (.api .nothing)]

/-- A deletion, with a request that creates a notification between its question and the provider. -/
def disturbed : List (Label (deployment true environment)) :=
  [.spawn 0 (.delete 1 2), .advance 0 (.api .nothing), .advance 0 (.api .nothing),
    .spawn 1 (.create none input), .advance 1 (.api (.date 0))] ++
    List.replicate 10 (.advance 1 (.api .nothing)) ++
    [.advance 0 (.answer (.succeeded ())), .advance 0 (.api .nothing)]

/-- Thread 0 deleted the session at the provider and has returned, and the row is there. -/
def isHalf (s : System (deployment true environment)) : Bool :=
  s.trace.any (fun e => e.thread = 0 ∧ deletedName e = some "wnp-2") &&
    (match s.threads 0 with
      | some ⟨.delete 1 2, .running (.done _)⟩ => true
      | _ => false) &&
    s.world.database.store.committed.rows.any (isConnection 1 2)

theorem not_allOrNothing_of_isHalf {s : System (deployment true environment)}
    (h : isHalf s = true) : ¬ AllOrNothing deployed s := by
  intro hall
  simp only [isHalf, Bool.and_eq_true, List.any_eq_true, decide_eq_true_eq] at h
  obtain ⟨⟨⟨e, he, hthread, hname⟩, hthreads⟩, r, hr, hconnection⟩ := h
  split at hthreads
  · rename_i result ht
    have hrequest : s.requestOf e.thread = some (.delete 1 2) := by
      rw [hthread]
      simp only [System.requestOf, ht, Option.map_some]
    have hrow := hall.row e he _ hname 1 2 hrequest ⟨result, _, hthread ▸ ht⟩ r hr
    rw [hrow] at hconnection
    cases hconnection
  · cases hthreads

end Intake

/-- A deletion that no notification comes between deletes the session and the row. -/
theorem undisturbed_deletion : AllOrNothing Intake.deployed
    ((System.start Intake.deployed).after Intake.undisturbed) :=
  deletions_are_all_or_nothing (fun _ => rfl)
    ((Run.of_checksEach (b := Intake.isQuiet) (by decide +kernel)).mono
      fun _ _ => Intake.undisturbed_of_isQuiet)

/-- A notification that is committed after the question keeps the row, when the session is gone. -/
theorem disturbed_deletion :
    Run Uncrashed (System.start Intake.deployed)
        ((System.start Intake.deployed).after Intake.disturbed) ∧
      ¬ AllOrNothing Intake.deployed ((System.start Intake.deployed).after Intake.disturbed) :=
  ⟨(Run.of_checksEach (b := fun _ => Intake.isUncrashed) (by decide +kernel)).mono
      fun _ _ => Intake.uncrashed_of_isUncrashed,
    Intake.not_allOrNothing_of_isHalf (by decide +kernel)⟩

end PublicApi

end NotificationPlatform
