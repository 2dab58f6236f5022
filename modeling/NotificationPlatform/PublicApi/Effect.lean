import NotificationPlatform.PublicApi.Operations

/-!
# What an operation does to the database

Between its beginning and its end a transaction changes its own versions of the rows and nothing
else, and no other operation changes any version.
-/

namespace NotificationPlatform

namespace PublicApi

open Interleaving Relational Transactional

/-! ## What an operation leaves alone -/

/-- The transaction a statement belongs to. -/
def Op.transaction : Op → Option Nat
  | .clockNow | .generate | .findSessionByIdWithoutTenantScope _ | .begin _ => none
  | .commit t | .rollback t => some t
  | .listForApplication t _ | .findSessionById t _ _ => some t
  | .recordDelivery t _ | .enqueueWebhookProcess t _ | .enqueueDispatch t _ => some t
  | .insertClaim t _ | .findByKey t _ _ | .complete t _ => some t
  | .insertNotification t _ | .appendEvents t _ | .findNotificationById t _ _ => some t
  | .listEvents t _ _ | .listNotifications t _ _ _ _ => some t
  | .applyTransition t _ | .cancelWaiting t _ => some t

/-- Nothing changed but the versions of one transaction, and how many identifiers were handed
out. -/
structure Within (t : Option Nat) (db db' : Database) : Prop where
  committed : db'.store.committed = db.store.committed
  opened : ∀ t', some t' ≠ t → db'.store.opened t' = db.store.opened t'
  next : db'.store.next = db.store.next
  scope : db'.scope = db.scope
  startedAt : db'.startedAt = db.startedAt
  identifiers : db.identifiers ≤ db'.identifiers

theorem Within.refl (t : Option Nat) (db : Database) : Within t db db :=
  ⟨rfl, fun _ _ => rfl, rfl, rfl, rfl, Nat.le_refl _⟩

theorem Within.trans {t : Option Nat} {db₁ db₂ db₃ : Database} (h : Within t db₁ db₂)
    (h' : Within t db₂ db₃) : Within t db₁ db₃ where
  committed := h'.committed.trans h.committed
  opened := fun t' ht => (h'.opened t' ht).trans (h.opened t' ht)
  next := h'.next.trans h.next
  scope := h'.scope.trans h.scope
  startedAt := h'.startedAt.trans h.startedAt
  identifiers := h.identifiers.trans h'.identifiers

theorem Within.wrote {db : Database} {store : Store Row} {t : Nat} {rows : Table Row}
    (h : Store.Wrote db.store store t rows) : Within (some t) db { db with store } where
  committed := h.committed
  opened := fun t' ht => by
    have hne : t' ≠ t := fun he => ht (congrArg some he)
    rw [h.opened, Function.update_of_ne hne]
  next := h.next
  scope := rfl
  startedAt := rfl
  identifiers := Nat.le_refl _

/-- However it is answered, the statement stays within transaction `t`. -/
def Statement.Inside {α : Type} (t : Option Nat) (x : Statement α) : Prop :=
  ∀ {db a db'}, x db = some (a, db') → Within t db db'

namespace Statement

variable {α β : Type} {t : Option Nat}

theorem inside_pure (a : α) : Inside t (pure a) := by
  intro db b db' h
  obtain ⟨-, rfl⟩ := Statement.pure_eq_some.1 h
  exact .refl t _

theorem inside_refuse : Inside t (refuse : Statement α) := nofun

theorem inside_bind {x : Statement α} {f : α → Statement β} (hx : x.Inside t)
    (hf : ∀ a, (f a).Inside t) : (x >>= f).Inside t := by
  intro db b db' h
  obtain ⟨a, db₁, h₁, h₂⟩ := Statement.bind_eq_some.1 h
  exact (hx h₁).trans (hf a h₂)

theorem inside_get : Inside t (get : Statement Database) := by
  intro db a db' h
  cases h
  exact .refl t _

theorem inside_generateIdentifier : Inside t generateIdentifier := by
  intro db a db' h
  cases h
  exact ⟨rfl, fun _ _ => rfl, rfl, rfl, rfl, Nat.le_succ _⟩

variable (executor : QueryExecutor)

theorem inside_now : Inside t executor.now := by
  intro db a db' h
  cases h
  exact .refl t _

theorem inside_select (table : Row → Option α) : Inside t (executor.select table) := by
  intro db a db' h
  unfold QueryExecutor.select at h
  split at h
  · cases h
    exact .refl t _
  · cases h

theorem inside_insert (row : Row) : Inside (some executor.transaction) (executor.insert row) := by
  intro db b db' h
  unfold QueryExecutor.insert at h
  split at h
  · obtain ⟨⟨b', store⟩, hinsert, hp⟩ := Option.map_eq_some_iff.1 h
    cases hp
    rcases Store.insert_cases hinsert with ⟨-, hw, -⟩ | ⟨-, rfl, -⟩
    · exact .wrote hw
    · exact .refl _ _
  · cases h

theorem inside_insertOrFail (row : Row) :
    Inside (some executor.transaction) (executor.insertOrFail row) := by
  refine inside_bind (inside_insert executor row) fun inserted => ?_
  split
  · exact inside_pure _
  · exact inside_refuse

theorem inside_update {p : Row → Bool} {f : Row → Row} {hf : ∀ r, key (f r) = key r}
    {hi : ∀ r, index (f r) = index r} :
    Inside (some executor.transaction) (executor.update p f hf hi) := by
  intro db rows db' h
  simp only [QueryExecutor.update] at h
  split at h
  · obtain ⟨⟨rows', store⟩, hupdate, hp⟩ := Option.map_eq_some_iff.1 h
    cases hp
    exact .wrote (Store.update_some hupdate).2
  · cases h

theorem inside_updateWhere {p : NotificationRecord → Bool}
    {f : NotificationRecord → NotificationRecord}
    {hf : ∀ r, (f r).id = r.id ∧ (f r).whatsAppSessionId = r.whatsAppSessionId ∧
      (f r).providerMessageId = r.providerMessageId} :
    Inside (some executor.transaction) (NotificationRepository.updateWhere executor p f hf) := by
  refine inside_bind (inside_update executor) fun rows => ?_
  dsimp only
  split
  · exact inside_pure _
  · exact inside_refuse

theorem inside_insertClaim (input : IdempotencyClaimInput) :
    Inside (some executor.transaction) (IdempotencyKeyRepository.insertClaim executor input) := by
  refine inside_bind inside_generateIdentifier fun id => ?_
  refine inside_bind (inside_now executor) fun now => ?_
  split
  · split
    · exact inside_bind (inside_insert executor _) fun inserted => inside_pure _
    · exact inside_refuse
  · exact inside_refuse

theorem inside_insertNotification (input : InsertNotificationInput) :
    Inside (some executor.transaction) (NotificationRepository.insert executor input) := by
  refine inside_bind (inside_now executor) fun now => inside_bind inside_get fun db => ?_
  split
  · dsimp only
    split
    · exact inside_insertOrFail executor _
    · exact inside_refuse
  · exact inside_refuse

theorem inside_appendEvents (inputs : List NotificationEventInput) :
    Inside (some executor.transaction) (NotificationRepository.appendEvents executor inputs) := by
  induction inputs with
  | nil => exact inside_pure _
  | cons input inputs ih =>
    refine inside_bind ?_ fun _ => ih
    exact inside_bind inside_generateIdentifier fun id => inside_bind (inside_now executor)
      fun occurredAt => inside_insertOrFail executor _

end Statement

section Operations

open Statement

variable {policies : Bool} {db db' : Database} {c : Choice}

/-- Every operation stays within its transaction, but for the beginning and the end of one. -/
theorem exec_within {o : Op} {r : o.Ret} (hbegin : ∀ a, o ≠ .begin a) (hcommit : ∀ t, o ≠ .commit t)
    (hrollback : ∀ t, o ≠ .rollback t) (h : exec policies db o c = some (r, db')) :
    Within o.transaction db db' := by
  suffices hinside : Inside o.transaction (meaning policies c.clock c.lockedRows o) from hinside h
  cases o with
  | clockNow =>
    simp only [meaning]
    split
    · exact inside_pure _
    · exact inside_refuse
  | generate => exact inside_generateIdentifier
  | findSessionByIdWithoutTenantScope s =>
    intro db a db' h
    cases h
    exact .refl _ _
  | begin a => exact absurd rfl (hbegin a)
  | commit t => exact absurd rfl (hcommit t)
  | rollback t => exact absurd rfl (hrollback t)
  | listForApplication t a => exact inside_bind (inside_select _ _) fun _ => inside_pure _
  | findSessionById t a s => exact inside_bind (inside_select _ _) fun _ => inside_pure _
  | recordDelivery t input =>
    simp only [meaning, WebhookDeliveryRepository.record]
    split
    · exact inside_bind (inside_insert ⟨_, t⟩ _) fun _ => inside_pure _
    · exact inside_refuse
  | enqueueWebhookProcess t job =>
    exact inside_bind inside_generateIdentifier fun _ => inside_insertOrFail ⟨_, t⟩ _
  | enqueueDispatch t job =>
    exact inside_bind inside_generateIdentifier fun _ =>
      inside_bind (inside_insert ⟨_, t⟩ _) fun _ => inside_pure _
  | insertClaim t input => exact inside_insertClaim ⟨_, t⟩ input
  | findByKey t a k =>
    simp only [meaning, IdempotencyKeyRepository.findByKey]
    split
    · exact inside_bind (inside_select _ _) fun _ => inside_pure _
    · exact inside_refuse
  | complete t input =>
    simp only [meaning, IdempotencyKeyRepository.complete]
    split
    · exact inside_bind (inside_update ⟨_, t⟩) fun _ => inside_pure _
    · exact inside_refuse
  | insertNotification t input => exact inside_insertNotification ⟨_, t⟩ input
  | appendEvents t inputs => exact inside_appendEvents ⟨_, t⟩ inputs
  | findNotificationById t a n => exact inside_bind (inside_select _ _) fun _ => inside_pure _
  | listEvents t a n => exact inside_bind (inside_select _ _) fun _ => inside_pure _
  | listNotifications t a filters cursor limit =>
    exact inside_bind (inside_select _ _) fun _ => inside_pure _
  | applyTransition t input =>
    exact inside_bind (inside_updateWhere ⟨_, t⟩) fun _ => inside_pure _
  | cancelWaiting t input =>
    exact inside_bind inside_get fun _ =>
      inside_bind (inside_updateWhere ⟨_, t⟩) fun _ => inside_pure _

theorem exec_begin_eq {a : Option Uuid} {t : Nat}
    (h : exec policies db (.begin a) c = some (t, db')) :
    t = db.store.next ∧ db' = { db with
      store := db.store.start.2
      scope := Function.update db.scope db.store.next a
      startedAt := Function.update db.startedAt db.store.next db.now } := by
  cases h
  exact ⟨rfl, rfl⟩

theorem exec_commit_ended {t : Nat} {r : Unit} (h : exec policies db (.commit t) c = some (r, db')) :
    ∃ store, db' = { db with store } ∧
      Store.Ended db.store store t (overlay db.store.committed (db.store.own t)) := by
  obtain ⟨store, hstore, hp⟩ := Option.map_eq_some_iff.1 h
  cases hp
  exact ⟨store, rfl, Store.commit_some hstore⟩

theorem rollbackTransaction_ended {t : Nat} {r : Unit}
    (h : rollbackTransaction t db = some (r, db')) :
    ∃ store, db' = { db with store } ∧ Store.Ended db.store store t db.store.committed := by
  obtain ⟨store, hstore, hp⟩ := Option.map_eq_some_iff.1 h
  cases hp
  exact ⟨store, rfl, Store.rollback_some hstore⟩

/-- What an operation can do to the database. -/
inductive Effect (db : Database) : Database → Prop where
  | within (t : Option Nat) {db' : Database} (h : Within t db db') : Effect db db'
  | begun (a : Option Uuid) : Effect db { db with
      store := db.store.start.2
      scope := Function.update db.scope db.store.next a
      startedAt := Function.update db.startedAt db.store.next db.now }
  | committed (t : Nat) {store : Store Row}
      (h : Store.Ended db.store store t (overlay db.store.committed (db.store.own t))) :
      Effect db { db with store }
  | rolledBack (t : Nat) {store : Store Row}
      (h : Store.Ended db.store store t db.store.committed) : Effect db { db with store }

theorem exec_effect {o : Op} {r : o.Ret} (h : exec policies db o c = some (r, db')) :
    Effect db db' := by
  cases o with
  | begin a =>
    obtain ⟨-, rfl⟩ := exec_begin_eq h
    exact .begun a
  | commit t =>
    obtain ⟨store, rfl, hended⟩ := exec_commit_ended h
    exact .committed t hended
  | rollback t =>
    obtain ⟨store, rfl, hended⟩ := rollbackTransaction_ended h
    exact .rolledBack t hended
  | _ =>
    refine .within _ (exec_within ?_ ?_ ?_ h)
    all_goals exact nofun

/-- No operation changes the scope of a transaction that was begun. -/
theorem exec_scope {o : Op} {r : o.Ret} (he : exec policies db o c = some (r, db')) {t : Nat}
    (ht : t < db.store.next) : t < db'.store.next ∧ db'.scope t = db.scope t := by
  cases exec_effect he with
  | within t' hwithin => exact ⟨hwithin.next ▸ ht, congrFun hwithin.scope t⟩
  | begun a' => exact ⟨Nat.lt_succ_of_lt ht, Function.update_of_ne (Nat.ne_of_lt ht) _ _⟩
  | committed t' hended => exact ⟨hended.next ▸ ht, rfl⟩
  | rolledBack t' hended => exact ⟨hended.next ▸ ht, rfl⟩

end Operations

end PublicApi

end NotificationPlatform
