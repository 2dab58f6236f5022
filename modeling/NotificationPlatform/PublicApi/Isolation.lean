import NotificationPlatform.Interleaving.Seclusion
import NotificationPlatform.PublicApi.Claiming
import NotificationPlatform.PublicApi.Policies

/-!
# Tenants do not interfere

All requests of all applications run at once. What the requests of one application do and answer is
what they would do and answer if the database had no rows but theirs and nobody else made a request:
of others they notice at most that identifiers were drawn and transactions begun. With the policies
in force this does not depend on what application the statements name.
-/

namespace NotificationPlatform

namespace PublicApi

open Interleaving Relational Transactional

section Statements

variable {policies : Bool} {db db' : Database} {q : Serving} {c : Choice}

/-- Whether an operation begins or ends a transaction. -/
def Op.isBoundary : Op → Bool
  | .begin _ | .commit _ | .rollback _ => true
  | _ => false

theorem Serving.Holds.own {t : Nat} {k : RowKey} (hopen : (db.store.opened t).isSome)
    (h : ∀ {own}, db.store.opened t = some own → ∃ r ∈ own.rows, key r = k) :
    ∃ r ∈ (db.store.own t).rows, key r = k := by
  obtain ⟨own, hown⟩ := Option.isSome_iff_exists.1 hopen
  rw [Versions.own_of_opened hown]
  exact h hown

/-- **What a request does is of its application.** -/
theorem meaning_mirrored (htidy : db.Tidy) (hholds : q.Holds db) {o : Op} (hallows : q.Allows o)
    (hboundary : o.isBoundary = false) :
    Statement.Mirrored q.applicationId db (meaning policies c.clock c.lockedRows o)
      (meaning policies c.clock c.lockedRows o) := by
  cases o with
  | begin _ | commit _ | rollback _ => cases hboundary
  | findSessionByIdWithoutTenantScope _ | recordDelivery _ _ | enqueueWebhookProcess _ _ =>
    exact hallows.elim
  | clockNow =>
    simp only [meaning]
    cases c.clock with
    | none => exact Statement.mirrored_refuse _
    | some now => exact Statement.mirrored_pure htidy now
  | generate => exact Statement.mirrored_generateIdentifier htidy
  | listForApplication t a =>
    obtain ⟨rfl, -⟩ := hallows
    refine Statement.mirrored_read htidy _ fun rows => ?_
    rw [Statement.filter_restricted]
    intro r x hr hx
    rw [Row.session?_eq_some.1 hr]
    exact congrArg some (of_decide_eq_true hx)
  | findSessionById t a s =>
    obtain ⟨rfl, -⟩ := hallows
    refine Statement.mirrored_read htidy _ (Statement.find?_restricted fun r x hr hx => ?_)
    rw [Row.session?_eq_some.1 hr]
    exact congrArg some (of_decide_eq_true hx).2
  | findByKey t a text =>
    obtain ⟨rfl, -⟩ := hallows
    simp only [meaning, IdempotencyKeyRepository.findByKey]
    cases textColumn text with
    | none => exact Statement.mirrored_refuse _
    | some text =>
      refine Statement.mirrored_read htidy _ (Statement.find?_restricted fun r x hr hx => ?_)
      rw [Row.idempotencyKey?_eq_some.1 hr]
      exact congrArg some (of_decide_eq_true hx).1
  | findNotificationById t a n =>
    obtain ⟨rfl, -⟩ := hallows
    refine Statement.mirrored_read htidy _ (Statement.find?_restricted fun r x hr hx => ?_)
    rw [Row.notification?_eq_some.1 hr]
    exact congrArg some (of_decide_eq_true hx).2
  | listEvents t a n =>
    obtain ⟨rfl, -⟩ := hallows
    refine Statement.mirrored_read htidy _ fun rows => ?_
    rw [Statement.filter_restricted]
    intro r x hr hx
    rw [Row.notificationEvent?_eq_some.1 hr]
    exact congrArg some (of_decide_eq_true hx).2
  | listNotifications t a filters cursor limit =>
    obtain ⟨rfl, -⟩ := hallows
    refine Statement.mirrored_read htidy _ fun rows => ?_
    rw [NotificationQueryService.rows_admitted]
    exact fun r hr => Row.isOf_iff.2 hr
  | insertClaim t input =>
    obtain ⟨⟨happ, htransaction⟩, htoken⟩ := hallows
    exact Statement.mirrored_insertClaim htidy (hholds.began htransaction).2 happ.symm
      (hholds.generated _ htoken)
  | complete t input =>
    obtain ⟨htransaction, howns⟩ := hallows
    refine Statement.mirrored_complete htidy (hholds.began htransaction).2 fun hopen => ?_
    exact howns.imp_left fun hclaim =>
      Serving.Holds.own hopen fun hown => hholds.claim htransaction hown hclaim
  | insertNotification t draft =>
    obtain ⟨happ, htransaction⟩ := hallows
    exact Statement.mirrored_insertNotification htidy (hholds.began htransaction).2 happ.symm
  | appendEvents t inputs =>
    obtain ⟨htransaction, happ⟩ := hallows
    exact Statement.mirrored_appendEvents htidy (hholds.began htransaction).2 happ
  | enqueueDispatch t job =>
    obtain ⟨⟨happ, htransaction⟩, hwritten⟩ := hallows
    exact Statement.mirrored_enqueueDispatch htidy (hholds.began htransaction).2 happ.symm
      fun hopen => Serving.Holds.own hopen fun hown => hholds.written htransaction hown hwritten
  | applyTransition t input =>
    obtain ⟨happ, htransaction⟩ := hallows
    refine Statement.mirrored_bind (Statement.mirrored_updateWhere htidy
      (hholds.began htransaction).2 (fun r hr => ?_) (fun _ _ _ => rfl) fun r => rfl)
      fun _ db₁ _ hconfines => Statement.mirrored_pure hconfines.tidy _
    exact (of_decide_eq_true hr).2.1.trans happ.symm
  | cancelWaiting t input =>
    obtain ⟨happ, htransaction⟩ := hallows
    refine Statement.mirrored_get (Statement.mirrored_bind (Statement.mirrored_updateWhere htidy
      (hholds.began htransaction).2 (fun r hr => ?_) (fun r hr hof => ?_) fun r => rfl)
      fun _ db₁ _ hconfines => Statement.mirrored_pure hconfines.tidy _)
    · exact (of_decide_eq_true hr).1.trans happ.symm
    · dsimp only
      rw [Statement.held_notification htidy hr hof]

theorem meaning_confined (htidy : db.Tidy) (hholds : q.Holds db) {o : Op}
    (hpermits : q.Permits policies o) (hboundary : o.isBoundary = false) :
    Statement.Mirrored q.applicationId db (meaning policies c.clock c.lockedRows o)
      (meaning policies c.clock c.lockedRows o) := by
  rcases hpermits with hallows | ⟨rfl, hwalled⟩
  · exact meaning_mirrored htidy hholds hallows hboundary
  · exact walled_mirrored htidy hholds hwalled

end Statements

/-! ## Beginnings and ends -/

section Boundaries

variable {policies : Bool} {db db' : Database} {c : Choice}

/-- A transaction that begins. -/
def Database.begun (db : Database) (a : Option Uuid) : Database := { db with
  store := db.store.start.2
  scope := Function.update db.scope db.store.next a
  startedAt := Function.update db.startedAt db.store.next db.now }

theorem begun_restrict (db : Database) (a : Option Uuid) (b : Uuid) :
    (db.restrict b).begun a = (db.begun a).restrict b := by
  have hstart : (db.store.restrict (Row.isOf b)).start.2 = db.store.start.2.restrict (Row.isOf b) :=
    congrArg Prod.snd Store.start_restrict
  simp only [Database.begun, Database.restrict, hstart, Store.next_restrict]

/-- A transaction has written nothing when it begins. -/
theorem of_mem_begun {a : Option Uuid} {holder : Option Nat} {r : Row}
    (hr : r ∈ ((db.begun a).store.of holder).rows) :
    holder ≠ some db.store.next ∧ r ∈ (db.store.of holder).rows := by
  cases holder with
  | none => exact ⟨by simp, hr⟩
  | some t =>
    by_cases ht : t = db.store.next
    · subst ht
      simp [Database.begun, Store.start, Versions.own, Table.empty] at hr
    · refine ⟨by simpa using ht, ?_⟩
      simpa [Database.begun, Store.start, Versions.own, Function.update_of_ne ht] using hr

theorem Database.Tidy.begun (h : db.Tidy) (a : Option Uuid) : (db.begun a).Tidy where
  agree := fun hr hr' hkey => h.agree (of_mem_begun hr).2 (of_mem_begun hr').2 hkey
  owned := fun {t r} hr => by
    obtain ⟨hne, hr⟩ := @of_mem_begun _ _ (some t) _ hr
    have ht : t ≠ db.store.next := fun he => hne (congrArg some he)
    rw [h.owned hr]
    exact (Function.update_of_ne ht _ _).symm
  jobs := fun {holder r job} hr hjob => by
    obtain ⟨hne, hr⟩ := of_mem_begun hr
    obtain ⟨holder', r', hholder, hr', hkey, happ⟩ := h.jobs hr hjob
    refine ⟨holder', r', hholder, ?_, hkey, happ⟩
    cases holder' with
    | none => exact hr'
    | some t =>
      have ht : t ≠ db.store.next := fun he => by
        rcases hholder with hnone | hsame
        · cases hnone
        · exact hne (hsame ▸ congrArg some he)
      simpa [Database.begun, Store.start, Versions.own, Function.update_of_ne ht] using hr'
  claims := fun hr hclaim => h.claims (of_mem_begun hr).2 hclaim

/-- A transaction ends: what is committed then was committed before, or is its own and all of it. -/
theorem Database.Tidy.ended (h : db.Tidy) {store : Store Row} {t : Nat} {committed : Table Row}
    (hended : Store.Ended db.store store t committed)
    (hof : ∀ r ∈ committed.rows, r ∈ db.store.committed.rows ∨
      (r ∈ (db.store.own t).rows ∧ ∀ r' ∈ (db.store.own t).rows, r' ∈ committed.rows))
    (hcovers : ∀ r ∈ db.store.committed.rows, ∃ r' ∈ committed.rows, key r' = key r) :
    { db with store }.Tidy := by
  have hother : ∀ {t' r}, r ∈ (store.own t').rows → t' ≠ t ∧ r ∈ (db.store.own t').rows := by
    intro t' r hr
    by_cases ht : t' = t
    · subst ht
      rw [hended.own] at hr
      cases hr
    · rw [hended.own_other ht] at hr
      exact ⟨ht, hr⟩
  have hold : ∀ {holder r}, r ∈ (store.of holder).rows →
      ∃ holder', r ∈ (db.store.of holder').rows := by
    intro holder r hr
    cases holder with
    | none =>
      rw [Versions.of_none, hended.committed] at hr
      rcases hof r hr with hr | ⟨hr, -⟩
      · exact ⟨none, hr⟩
      · exact ⟨some t, hr⟩
    | some t' => exact ⟨some t', (hother hr).2⟩
  -- what was committed has a version that is
  have hkeeps : ∀ {r}, r ∈ db.store.committed.rows →
      ∃ r' ∈ (store.of none).rows, key r' = key r ∧ r'.applicationId = r.applicationId := by
    intro r hr
    obtain ⟨r', hr', hkey⟩ := hcovers r hr
    rw [← hended.committed] at hr'
    obtain ⟨holder', hh⟩ := @hold none r' hr'
    exact ⟨r', hr', hkey, h.agree hh (show r ∈ (db.store.of none).rows from hr) hkey⟩
  refine ⟨fun hr hr' hkey => ?_, fun hr => h.owned (hother hr).2, fun {holder r job} hr hjob => ?_,
    fun hr hclaim => ?_⟩
  · obtain ⟨_, hr⟩ := hold hr
    obtain ⟨_, hr'⟩ := hold hr'
    exact h.agree hr hr' hkey
  · have hnamed : ∀ {holder₀}, r ∈ (db.store.of holder₀).rows →
        (∀ r' ∈ (db.store.of holder₀).rows, ∃ holder', (holder' = none ∨ holder' = holder) ∧
          ∃ r'' ∈ (store.of holder').rows, key r'' = key r' ∧
            r''.applicationId = r'.applicationId) →
          { db with store }.Knows holder job := by
      intro holder₀ hr₀ hmoves
      obtain ⟨holder', n, hholder, hn, hkey, happ⟩ := h.jobs hr₀ hjob
      have hmoved : ∃ holder'', (holder'' = none ∨ holder'' = holder) ∧
          ∃ n' ∈ (store.of holder'').rows, key n' = key n ∧
            n'.applicationId = n.applicationId := by
        rcases hholder with rfl | rfl
        · exact ⟨none, .inl rfl, hkeeps hn⟩
        · exact hmoves n hn
      obtain ⟨holder'', hholder'', n', hn', hkey', happ'⟩ := hmoved
      exact ⟨holder'', n', hholder'', hn', hkey'.trans hkey, happ'.trans happ⟩
    cases holder with
    | none =>
      rw [Versions.of_none, hended.committed] at hr
      rcases hof r hr with hr | ⟨hr, hall⟩
      · exact @hnamed none hr fun r' hr' => ⟨none, .inl rfl, hkeeps hr'⟩
      · refine @hnamed (some t) hr fun r' hr' => ⟨none, .inl rfl, r', ?_, rfl, rfl⟩
        rw [Versions.of_none, hended.committed]
        exact hall r' hr'
    | some t' =>
      obtain ⟨ht, hr⟩ := hother hr
      refine @hnamed (some t') hr fun r' hr' => ⟨some t', .inr rfl, r', ?_, rfl, rfl⟩
      rw [Versions.of_some, hended.own_other ht]
      exact hr'
  · obtain ⟨_, hr⟩ := hold hr
    exact h.claims hr hclaim

theorem Database.Tidy.rolledBack (h : db.Tidy) {store : Store Row} {t : Nat}
    (hended : Store.Ended db.store store t db.store.committed) : { db with store }.Tidy :=
  h.ended hended (fun _ hr => .inl hr) fun r hr => ⟨r, hr, rfl⟩

theorem Database.Tidy.committed (h : db.Tidy) {store : Store Row} {t : Nat}
    (hended : Store.Ended db.store store t (overlay db.store.committed (db.store.own t))) :
    { db with store }.Tidy := by
  refine h.ended hended (fun r hr => ?_) fun r hr => overlay_covers hr
  rcases mem_overlay.1 hr with ⟨hr, -⟩ | hr
  · exact .inl hr
  · exact .inr ⟨hr, fun r' hr' => mem_overlay_own hr'⟩

/-! ## What other requests and the surroundings leave a request -/

/-- What happens outside transaction `t`, as far as a request can tell of its own. -/
structure Besides (t : Option Nat) (db db' : Database) : Prop where
  identifiers : db.identifiers ≤ db'.identifiers
  next : db.store.next ≤ db'.store.next
  scope : ∀ t' < db.store.next, db'.scope t' = db.scope t'
  opened : ∀ {t' own}, t' < db.store.next → some t' ≠ t → db'.store.opened t' = some own →
    db.store.opened t' = some own

theorem Serving.Holds.besides {q : Serving} {t : Option Nat} (h : q.Holds db)
    (hbesides : Besides t db db') (hother : ∀ t', q.transaction = some t' → some t' ≠ t) :
    q.Holds db' where
  generated := fun id hid => (h.generated id hid).trans_le hbesides.identifiers
  began := fun {t'} ht => by
    obtain ⟨hlt, hscope⟩ := h.began ht
    exact ⟨hlt.trans_le hbesides.next, (hbesides.scope t' hlt).trans hscope⟩
  claim := fun ht hown hclaim =>
    h.claim ht (hbesides.opened (h.began ht).1 (hother _ ht) hown) hclaim
  written := fun ht hown hwritten =>
    h.written ht (hbesides.opened (h.began ht).1 (hother _ ht) hown) hwritten

theorem besides_within {t : Option Nat} (h : Within t db db') : Besides t db db' where
  identifiers := h.identifiers
  next := h.next.ge
  scope := fun t' _ => congrFun h.scope t'
  opened := fun _ hne hown => (h.opened _ hne) ▸ hown

theorem besides_begun (a : Option Uuid) : Besides none db (db.begun a) where
  identifiers := Nat.le_refl _
  next := Nat.le_succ _
  scope := fun _ ht => Function.update_of_ne (Nat.ne_of_lt ht) _ _
  opened := fun {t' own} ht _ hown => by
    have hne : t' ≠ db.store.next := Nat.ne_of_lt ht
    simpa only [Database.begun, Store.start, Function.update_of_ne hne] using hown

theorem besides_ended {store : Store Row} {t : Nat} {committed : Table Row}
    (h : Store.Ended db.store store t committed) : Besides none db { db with store } where
  identifiers := Nat.le_refl _
  next := h.next.ge
  scope := fun _ _ => rfl
  opened := fun {t' own} _ _ hown => by
    by_cases ht : t' = t
    · subst ht
      simp [h.opened] at hown
    · simpa only [h.opened, Function.update_of_ne ht] using hown

end Boundaries

/-! ## The surroundings -/

/-- What happens besides the requests. The last three are what requests of others come to: a
transaction begins, identifiers are drawn, keys are deleted. -/
inductive TenantEvent where
  | database (event : DatabaseEvent)
  | begun (applicationId : Option Uuid)
  | drawn (count : Nat)
  | pruned (ids : List Uuid)

/-- Whether the row is one of these keys. -/
def isKeyAmong (ids : List Uuid) (r : Row) : Bool := r.idempotencyKey?.any fun k => k.id ∈ ids

def tenantsOutside (db : Database) : TenantEvent → Option Database
  | .database event => databaseOutside db event
  | .begun a => some (db.begun a)
  | .drawn count => some { db with identifiers := db.identifiers + count }
  | .pruned ids => some { db with store := db.store.remove (isKeyAmong ids) }

section Surroundings

variable {db db' : Database} {event : TenantEvent}

theorem tenantsOutside_besides (he : tenantsOutside db event = some db') : Besides none db db' := by
  cases event with
  | database event =>
    cases event with
    | clock now =>
      simp only [tenantsOutside, databaseOutside] at he
      split at he
      · cases he
        exact ⟨Nat.le_refl _, Nat.le_refl _, fun _ _ => rfl, fun _ _ h => h⟩
      · cases he
    | aborted t =>
      obtain ⟨⟨u, db''⟩, hrollback, rfl⟩ := Option.map_eq_some_iff.1 he
      obtain ⟨store, rfl, hended⟩ := rollbackTransaction_ended hrollback
      exact besides_ended hended
  | begun a =>
    cases he
    exact besides_begun a
  | drawn count =>
    cases he
    exact ⟨Nat.le_add_right _ _, Nat.le_refl _, fun _ _ => rfl, fun _ _ h => h⟩
  | pruned ids =>
    cases he
    exact ⟨Nat.le_refl _, Nat.le_refl _, fun _ _ => rfl, fun _ _ h => h⟩

theorem of_mem_remove {p : Row → Bool} {holder : Option Nat} {r : Row}
    (hr : r ∈ ((db.store.remove p).of holder).rows) : r ∈ (db.store.of holder).rows := by
  cases holder with
  | none => exact (Store.mem_remove.1 hr).1
  | some t => exact hr

theorem Database.Tidy.pruned (h : db.Tidy) (ids : List Uuid) :
    { db with store := db.store.remove (isKeyAmong ids) }.Tidy where
  agree := fun hr hr' hkey => h.agree (of_mem_remove hr) (of_mem_remove hr') hkey
  owned := fun hr => h.owned hr
  jobs := fun {holder r job} hr hjob => by
    obtain ⟨holder', n, hholder, hn, hkey, happ⟩ := h.jobs (of_mem_remove hr) hjob
    refine ⟨holder', n, hholder, ?_, hkey, happ⟩
    cases holder' with
    | none =>
      refine Store.mem_remove.2 ⟨hn, ?_⟩
      cases n with
      | idempotencyKey k => cases hkey
      | _ => rfl
    | some t => exact hn
  claims := fun hr hclaim => h.claims (of_mem_remove hr) hclaim

theorem tenantsOutside_tidy (h : db.Tidy) (he : tenantsOutside db event = some db') :
    db'.Tidy := by
  cases event with
  | database event =>
    cases event with
    | clock now =>
      simp only [tenantsOutside, databaseOutside] at he
      split at he
      · cases he
        exact h.congr rfl rfl
      · cases he
    | aborted t =>
      obtain ⟨⟨u, db''⟩, hrollback, rfl⟩ := Option.map_eq_some_iff.1 he
      obtain ⟨store, rfl, hended⟩ := rollbackTransaction_ended hrollback
      exact h.rolledBack hended
  | begun a =>
    cases he
    exact h.begun a
  | drawn count =>
    cases he
    exact h.congr rfl rfl
  | pruned ids =>
    cases he
    exact h.pruned ids

theorem rollbackTransaction_restrict {t : Nat} {u : Unit} (a : Uuid)
    (h : rollbackTransaction t db = some (u, db')) :
    rollbackTransaction t (db.restrict a) = some (u, db'.restrict a) := by
  obtain ⟨store, hstore, hp⟩ := Option.map_eq_some_iff.1 h
  cases hp
  exact congrArg (Option.map _) (Store.rollback_restrict hstore)

/-- What happens outside happens to what is left as well. -/
theorem tenantsOutside_restrict (a : Uuid) (he : tenantsOutside db event = some db') :
    tenantsOutside (db.restrict a) event = some (db'.restrict a) := by
  cases event with
  | database event =>
    cases event with
    | clock now =>
      simp only [tenantsOutside, databaseOutside] at he ⊢
      split at he
      · rename_i hle
        cases he
        rw [if_pos (show (db.restrict a).now ≤ now from hle)]
        rfl
      · cases he
    | aborted t =>
      obtain ⟨⟨u, db''⟩, hrollback, rfl⟩ := Option.map_eq_some_iff.1 he
      exact congrArg (Option.map _) (rollbackTransaction_restrict a hrollback)
  | begun b =>
    cases he
    exact congrArg some (begun_restrict db b a)
  | drawn count =>
    cases he
    rfl
  | pruned ids =>
    cases he
    have hremove := Store.remove_restrict (s := db.store) (p := Row.isOf a) (isKeyAmong ids)
    simp only [tenantsOutside, Database.restrict, hremove]

end Surroundings

/-! ## All requests -/

section Invariant

variable {policies : Bool} {db db' : Database} {q : Serving} {o : Op} {r : o.Ret} {c : Choice}
  {ph : Nat → Option Serving} {i : Nat}

/-- What a statement does, seen from the outside. -/
theorem exec_confines (htidy : db.Tidy) (hholds : q.Holds db) (hpermits : q.Permits policies o)
    (hboundary : o.isBoundary = false) (he : exec policies db o c = some (r, db')) :
    Confines q.applicationId db db' :=
  (meaning_confined htidy hholds hpermits hboundary r db' he).2

theorem within_of_statement (hboundary : o.isBoundary = false)
    (he : exec policies db o c = some (r, db')) : Within o.transaction db db' := by
  refine exec_within ?_ ?_ ?_ he <;>
  · rintro _ rfl
    cases hboundary

/-- The transaction of an operation is the request's. -/
theorem Serving.Allows.transaction (h : q.Allows o) {t : Nat} (ht : o.transaction = some t) :
    q.transaction = some t := by
  cases o with
  | clockNow | generate | findSessionByIdWithoutTenantScope _ | begin _ => cases ht
  | recordDelivery _ _ | enqueueWebhookProcess _ _ => exact h.elim
  | commit _ | rollback _ =>
    cases ht
    exact h
  | listForApplication _ _ | findSessionById _ _ _ | findByKey _ _ _ | findNotificationById _ _ _
  | listEvents _ _ _ | listNotifications _ _ _ _ _ | insertNotification _ _ | applyTransition _ _
  | cancelWaiting _ _ =>
    cases ht
    exact h.2
  | insertClaim _ _ | enqueueDispatch _ _ =>
    cases ht
    exact h.1.2
  | complete _ _ | appendEvents _ _ =>
    cases ht
    exact h.1

theorem Serving.Permits.transaction (h : q.Permits policies o) {t : Nat}
    (ht : o.transaction = some t) : q.transaction = some t := by
  rcases h with hallows | ⟨-, hwalled⟩
  · exact hallows.transaction ht
  · cases o with
    | insertClaim _ _ =>
      cases ht
      exact hwalled.1
    | clockNow | generate | findSessionByIdWithoutTenantScope _ | begin _ | commit _ | rollback _
    | recordDelivery _ _ | enqueueWebhookProcess _ _ | enqueueDispatch _ _ => exact hwalled.elim
    | _ =>
      cases ht
      exact hwalled

/-- A transaction that begins is scoped to the application. -/
theorem Serving.Permits.begin {a : Option Uuid} (h : q.Permits policies (.begin a)) :
    a = some q.applicationId := by
  rcases h with hallows | ⟨-, hwalled⟩
  · exact hallows.2
  · exact hwalled.elim

/-- A row that a request inserts in its transaction is its own from then on. -/
theorem Inserted.own_key {t : Nat} {row : Row} (h : Inserted db db' t row) {own : Table Row}
    (hown : db'.store.opened t = some own) : ∃ r ∈ own.rows, key r = key row := by
  rw [← Versions.own_of_opened hown]
  exact ⟨row, h.mem_own.2 (.inr rfl), rfl⟩

/-- A request knows after its statement what it should. -/
theorem Serving.Holds.statement (htidy : db.Tidy) (hholds : q.Holds db)
    (hpermits : q.Permits policies o) (hboundary : o.isBoundary = false)
    (he : exec policies db o c = some (r, db')) :
    (q.advance o r).Holds db' := by
  have hconfines := exec_confines htidy hholds hpermits hboundary he
  have hwithin := within_of_statement hboundary he
  -- what is known does not depend on what is advanced
  have hsame : q.Holds db' := by
    refine ⟨fun id hid => (hholds.generated id hid).trans_le hconfines.identifiers,
      fun ht => ?_, fun {t own claim} ht hown hclaim => ?_, fun {t own n} ht hown hn => ?_⟩
    · rw [hwithin.next, hconfines.scope]
      exact hholds.began ht
    · obtain ⟨own₀, hown₀⟩ := Option.isSome_iff_exists.1
        (hconfines.opened t (by rw [hown]; rfl))
      obtain ⟨r₀, hr₀, hkey⟩ := hholds.claim ht hown₀ hclaim
      rw [← Versions.own_of_opened hown₀] at hr₀
      obtain ⟨r', hr', hkey'⟩ := hconfines.covers (show r₀ ∈ (db.store.of (some t)).rows from hr₀)
      rw [Versions.of_some, Versions.own_of_opened hown] at hr'
      exact ⟨r', hr', hkey'.trans hkey⟩
    · obtain ⟨own₀, hown₀⟩ := Option.isSome_iff_exists.1
        (hconfines.opened t (by rw [hown]; rfl))
      obtain ⟨r₀, hr₀, hkey⟩ := hholds.written ht hown₀ hn
      rw [← Versions.own_of_opened hown₀] at hr₀
      obtain ⟨r', hr', hkey'⟩ := hconfines.covers (show r₀ ∈ (db.store.of (some t)).rows from hr₀)
      rw [Versions.of_some, Versions.own_of_opened hown] at hr'
      exact ⟨r', hr', hkey'.trans hkey⟩
  cases o with
  | begin _ | commit _ | rollback _ => cases hboundary
  | generate =>
    cases he
    refine ⟨fun id hid => ?_, hsame.began, hsame.claim, hsame.written⟩
    rcases List.mem_cons.1 hid with rfl | hid
    · exact Nat.lt_succ_self _
    · exact hsame.generated id hid
  | insertClaim t input =>
    have htransaction := hpermits.transaction rfl
    obtain ⟨key, -, hcases⟩ := insertClaim_cases he
    rcases hcases with ⟨expiresAt, id, now, rfl, hinserted⟩ | ⟨rfl, -⟩
    · refine ⟨hsame.generated, hsame.began, fun ht hown hclaim => ?_, hsame.written⟩
      cases hclaim
      cases htransaction.symm.trans ht
      exact hinserted.own_key hown
    · exact hsame
  | insertNotification t draft =>
    have htransaction := hpermits.transaction rfl
    obtain ⟨n, hbecomes, hinserted, -⟩ := insertNotification_inserted he
    refine ⟨hsame.generated, hsame.began, hsame.claim, fun ht hown hn => ?_⟩
    rcases List.mem_cons.1 hn with rfl | hn
    · cases htransaction.symm.trans ht
      rw [← hbecomes.id]
      exact hinserted.own_key hown
    · exact hsame.written ht hown hn
  | _ => exact hsame

/-- The database is tidy, every request knows of its transaction what it should, and no two are in
one. -/
structure Served (ph : Nat → Option Serving) (db : Database) : Prop where
  tidy : db.Tidy
  holds : ∀ {i q}, ph i = some q → q.Holds db
  apart : ∀ {i j q q' t}, ph i = some q → ph j = some q' → q.transaction = some t →
    q'.transaction = some t → i = j

theorem Served.start (h : db.Tidy) : Served (fun _ => none) db where
  tidy := h
  holds := fun hi => by cases hi
  apart := fun hi => by cases hi

/-- A request that changes keeps its transaction, leaves it, or begins one that is nobody's. -/
theorem Served.update (h : Served ph db) (hi : ph i = some q) {q' : Serving} (htidy : db'.Tidy)
    (hholds : q'.Holds db') (hothers : ∀ {j q''}, j ≠ i → ph j = some q'' → q''.Holds db')
    (htransaction : ∀ t, q'.transaction = some t → q.transaction = some t ∨ db.store.next ≤ t) :
    Served (Function.update ph i (some q')) db' := by
  have hfar : ∀ {j q'' t}, j ≠ i → ph j = some q'' → q''.transaction = some t →
      q'.transaction ≠ some t := by
    intro j q'' t hj hphase ht ht'
    rcases htransaction t ht' with hold | hnew
    · exact hj (h.apart hphase hi ht hold)
    · exact absurd ((h.holds hphase).began ht).1 (Nat.not_lt.2 hnew)
  refine ⟨htidy, fun {j q''} hj => ?_, fun {j k q₁ q₂ t} hj hk ht₁ ht₂ => ?_⟩
  · by_cases hji : j = i
    · subst hji
      rw [Function.update_self] at hj
      cases hj
      exact hholds
    · rw [Function.update_of_ne hji] at hj
      exact hothers hji hj
  · by_cases hji : j = i <;> by_cases hki : k = i
    · rw [hji, hki]
    · subst hji
      rw [Function.update_self] at hj
      rw [Function.update_of_ne hki] at hk
      cases hj
      exact absurd ht₁ (hfar hki hk ht₂)
    · subst hki
      rw [Function.update_self] at hk
      rw [Function.update_of_ne hji] at hj
      cases hk
      exact absurd ht₂ (hfar hji hj ht₁)
    · rw [Function.update_of_ne hji] at hj
      rw [Function.update_of_ne hki] at hk
      exact h.apart hj hk ht₁ ht₂

theorem Served.spawn (h : Served ph db) (hi : ph i = none) (a : Uuid) :
    Served (Function.update ph i (some { applicationId := a })) db := by
  refine ⟨h.tidy, fun {j q} hj => ?_, fun {j k q₁ q₂ t} hj hk ht₁ ht₂ => ?_⟩
  · by_cases hji : j = i
    · subst hji
      rw [Function.update_self] at hj
      cases hj
      exact ⟨fun _ hid => absurd hid List.not_mem_nil, fun ht => (by cases ht),
        fun ht => (by cases ht), fun ht => (by cases ht)⟩
    · rw [Function.update_of_ne hji] at hj
      exact h.holds hj
  · have hold : ∀ {j q}, Function.update ph i (some { applicationId := a }) j = some q →
        q.transaction = some t → ph j = some q := by
      intro j q hj ht
      by_cases hji : j = i
      · subst hji
        rw [Function.update_self] at hj
        cases hj
        cases ht
      · rwa [Function.update_of_ne hji] at hj
    exact h.apart (hold hj ht₁) (hold hk ht₂) ht₁ ht₂

/-- One step of a request. -/
theorem Served.advance (h : Served ph db) (hi : ph i = some q) (hpermits : q.Permits policies o)
    (he : exec policies db o c = some (r, db')) :
    Served (Function.update ph i (some (q.advance o r))) db' := by
  have hself := h.holds hi
  cases hboundary : o.isBoundary with
  | false =>
    have hconfines := exec_confines h.tidy hself hpermits hboundary he
    refine h.update hi hconfines.tidy (hself.statement h.tidy hpermits hboundary he)
      (fun {j q''} hj hphase => (h.holds hphase).besides
        (besides_within (within_of_statement hboundary he)) fun t' ht' hsame => ?_) fun t ht => ?_
    · exact hj (h.apart hphase hi ht' (hpermits.transaction hsame.symm))
    · cases o with
      | begin _ | commit _ | rollback _ => cases hboundary
      | insertClaim t' input =>
        cases r <;> exact .inl ht
      | _ => exact .inl ht
  | true =>
    cases o with
    | begin a =>
      obtain ⟨rfl, rfl⟩ := exec_begin_eq he
      obtain rfl := hpermits.begin
      have hbesides : Besides none db (db.begun (some q.applicationId)) := besides_begun _
      refine h.update hi (h.tidy.begun _) ⟨hself.generated, ?_, ?_, ?_⟩
        (fun _ hphase => (h.holds hphase).besides hbesides fun _ _ => by simp) fun t ht => ?_
      · rintro _ ⟨⟩
        exact ⟨Nat.lt_succ_self _, Function.update_self _ _ _⟩
      · rintro _ _ _ - - ⟨⟩
      · rintro _ _ _ - - hn
        cases hn
      · cases ht
        exact .inr (Nat.le_refl _)
    | commit t =>
      obtain ⟨store, rfl, hended⟩ := exec_commit_ended he
      refine h.update hi (h.tidy.committed hended) ⟨hself.generated, fun ht => (by cases ht),
        fun ht => (by cases ht), fun ht => (by cases ht)⟩
        (fun _ hphase => (h.holds hphase).besides (besides_ended hended) fun _ _ => by simp)
        fun t ht => (by cases ht)
    | rollback t =>
      obtain ⟨store, rfl, hended⟩ := rollbackTransaction_ended he
      refine h.update hi (h.tidy.rolledBack hended) ⟨hself.generated, fun ht => (by cases ht),
        fun ht => (by cases ht), fun ht => (by cases ht)⟩
        (fun _ hphase => (h.holds hphase).besides (besides_ended hended) fun _ _ => by simp)
        fun t ht => (by cases ht)
    | _ => cases hboundary

theorem Served.outside (h : Served ph db) {event : TenantEvent}
    (he : tenantsOutside db event = some db') : Served ph db' where
  tidy := tenantsOutside_tidy h.tidy he
  holds := fun hi => (h.holds hi).besides (tenantsOutside_besides he) fun _ _ => by simp
  apart := h.apart

end Invariant

/-! ## One operation -/

section Operations

variable {policies : Bool} {db : Database}

/-- What a request does, it does in its own part of the database as well. -/
theorem exec_tenant {c : Choice} {o : Op} {r : o.Ret} {db db' : Database} {q : Serving}
    (htidy : db.Tidy) (hholds : q.Holds db) (hpermits : q.Permits policies o)
    (he : exec policies db o c = some (r, db')) :
    exec policies (db.restrict q.applicationId) o c = some (r, db'.restrict q.applicationId) := by
  cases hboundary : o.isBoundary with
  | false => exact (meaning_confined htidy hholds hpermits hboundary r db' he).1
  | true =>
    cases o with
    | begin a =>
      obtain ⟨rfl, rfl⟩ := exec_begin_eq he
      have hbegun := begun_restrict db a q.applicationId
      exact congrArg (fun d => some (db.store.next, d)) hbegun
    | commit t =>
      obtain ⟨store, hstore, hp⟩ := Option.map_eq_some_iff.1 he
      cases hp
      exact congrArg (Option.map _) (Store.commit_restrict (htidy.isOf _) hstore)
    | rollback t => exact rollbackTransaction_restrict q.applicationId he
    | _ => cases hboundary

/-- For another application it looks like something from outside. -/
theorem exec_other {c : Choice} {o : Op} {r : o.Ret} {db db' : Database} {q : Serving}
    (htidy : db.Tidy) (hholds : q.Holds db) (hpermits : q.Permits policies o)
    (he : exec policies db o c = some (r, db')) {b : Uuid} (hb : b ≠ q.applicationId) :
    ∃ event, tenantsOutside (db.restrict b) event = some (db'.restrict b) := by
  cases hboundary : o.isBoundary with
  | false =>
    have hconfines := exec_confines htidy hholds hpermits hboundary he
    refine ⟨.drawn (db'.identifiers - db.identifiers), ?_⟩
    have hsum : (db.restrict b).identifiers + (db'.identifiers - db.identifiers) =
        db'.identifiers := Nat.add_sub_cancel' hconfines.identifiers
    rw [hconfines.hidden b hb]
    simp only [tenantsOutside, hsum]
  | true =>
    cases o with
    | begin a =>
      obtain ⟨rfl, rfl⟩ := exec_begin_eq he
      exact ⟨.begun a, congrArg some (begun_restrict db a b)⟩
    | commit t =>
      have hscope := (hholds.began (hpermits.transaction rfl)).2
      obtain ⟨store, hstore, hp⟩ := Option.map_eq_some_iff.1 he
      cases hp
      refine ⟨.database (.aborted t), ?_⟩
      have hhidden := Store.commit_hidden (htidy.isOf b)
        (Statement.own_restrict_other htidy hscope hb) hstore
      simp only [tenantsOutside, databaseOutside, rollbackTransaction, Database.restrict, hhidden,
        Option.map_some]
    | rollback t =>
      exact ⟨.database (.aborted t),
        congrArg (Option.map _) (rollbackTransaction_restrict b he)⟩
    | _ => cases hboundary

/-- A request changes committed rows of its application only. -/
theorem exec_foreign {c : Choice} {o : Op} {r : o.Ret} {db db' : Database} {q : Serving}
    (htidy : db.Tidy) (hholds : q.Holds db) (hpermits : q.Permits policies o)
    (he : exec policies db o c = some (r, db')) {row : Row}
    (hrow : row.applicationId ≠ some q.applicationId) :
    row ∈ db'.store.committed.rows ↔ row ∈ db.store.committed.rows := by
  cases hboundary : o.isBoundary with
  | false => rw [(within_of_statement hboundary he).committed]
  | true =>
    cases o with
    | begin a =>
      obtain ⟨-, rfl⟩ := exec_begin_eq he
      exact Iff.rfl
    | commit t =>
      have hscope := (hholds.began (hpermits.transaction rfl)).2
      obtain ⟨store, rfl, hended⟩ := exec_commit_ended he
      have hown : ∀ r' ∈ (db.store.own t).rows, r'.applicationId = some q.applicationId :=
        fun r' hr' => (htidy.owned hr').trans hscope
      dsimp only
      rw [hended.committed, mem_overlay]
      constructor
      · rintro (⟨hr, -⟩ | hr)
        · exact hr
        · exact absurd (hown row hr) hrow
      · refine fun hr => .inl ⟨hr, fun r' hr' hkey => hrow ?_⟩
        rw [← hown r' hr']
        exact htidy.agree (show row ∈ (db.store.of none).rows from hr)
          (show r' ∈ (db.store.of (some t)).rows from hr') hkey.symm
    | rollback t =>
      obtain ⟨store, rfl, hended⟩ := rollbackTransaction_ended he
      dsimp only
      rw [hended.committed]
    | _ => cases hboundary

end Operations

/-! ## Clients -/

@[reducible] def confinedTypestate (policies : Bool) : Typestate operations where
  Phase := Serving
  Allows := Serving.Permits policies
  advance := Serving.advance

/-- Requests that each serve one application. -/
structure Clients (policies : Bool) where
  Request : Type
  Result : Type
  applicationId : Request → Uuid
  program : Request → Prog operations Result
  confined : ∀ request, Conforms (confinedTypestate policies) AnyAnswer
    { applicationId := applicationId request } (program request)
    fun q _ => q.Idle (applicationId request)

namespace Clients

variable {policies : Bool} (clients : Clients policies)

@[reducible] def machine : Machine operations where
  World := Database
  Choice := Choice
  Request := clients.Request
  Result := clients.Result
  Event := TenantEvent
  exec := exec policies
  program := clients.program
  outside := tenantsOutside

@[reducible] def discipline : Discipline clients.machine where
  toTypestate := confinedTypestate policies
  initial request := { applicationId := clients.applicationId request }
  Answers := AnyAnswer
  Returns := fun request q _ => q.Idle (clients.applicationId request)
  answers_exec _ := trivial
  conforms := clients.confined

/-- The requests of one application, and its rows. -/
def tenant (a : Uuid) : Portion clients.machine where
  keeps request := clients.applicationId request = a
  view db := db.restrict a

variable {clients} {P : System clients.machine → Label clients.machine → Prop}
  {s : System clients.machine} {db : Database}

theorem served_run (h : Run P (System.start db) s) (htidy : db.Tidy) :
    Served (clients.discipline.phase s) s.world :=
  Discipline.run_invariant (D := clients.discipline) Served (.start htidy)
    (fun request h hi => h.spawn hi (clients.applicationId request))
    (fun h hi ho _ he => h.advance hi ho he) (fun h he => h.outside he) h

theorem after_applicationId (q : Serving) (history : List (Performed operations)) :
    ((confinedTypestate policies).after q history).applicationId = q.applicationId := by
  induction history with
  | nil => rfl
  | cons e older ih =>
    rw [← ih]
    obtain ⟨i, o, r⟩ := e
    cases o with
    | insertClaim t input => cases r <;> rfl
    | _ => rfl

/-- What a thread does next is permitted, and is for the application of its request. -/
theorem serving_next (h : Run P (System.start db) s) {i : Nat} {request : clients.Request} {o : Op}
    {k : o.Ret → Prog operations clients.Result}
    (hi : s.threads i = some ⟨request, .running (.perform o k)⟩) :
    ∃ q, clients.discipline.phase s i = some q ∧
      q.applicationId = clients.applicationId request ∧ q.Permits policies o := by
  have hdisciplined := Discipline.disciplined_run (D := clients.discipline) h
  refine ⟨_, Discipline.phase_eq hi, ?_, (hdisciplined.residual hi).1⟩
  exact after_applicationId _ _

/-- Every application can be left by itself. -/
theorem tenant_respects (htidy : db.Tidy) (a : Uuid) :
    (clients.tenant a).Respects (Run Any (System.start db)) where
  own := fun {s i request o k c r w} hrun hi hkeeps he => by
    obtain ⟨q, hq, happ, hpermits⟩ := serving_next hrun hi
    obtain rfl : clients.applicationId request = a := of_decide_eq_true hkeeps
    have hserved := served_run hrun htidy
    have htenant := exec_tenant hserved.tidy (hserved.holds hq) hpermits he
    rw [happ] at htenant
    exact htenant
  other := fun {s i request o k c r w} hrun hi hkeeps he => by
    obtain ⟨q, hq, happ, hpermits⟩ := serving_next hrun hi
    have hserved := served_run hrun htidy
    refine exec_other hserved.tidy (hserved.holds hq) hpermits he fun hsame => ?_
    exact of_decide_eq_false hkeeps (happ.symm.trans hsame.symm)
  outside := fun _ he => ⟨_, tenantsOutside_restrict a he⟩

variable (clients) in
/-- What the requests of application `a` did from `db` on is what they could have done without the
others, and they changed no row of the others. -/
structure Isolated (db : Database) (s : System clients.machine) (a : Uuid) : Prop where
  secluded : Run Any (System.start (db.restrict a)) (s.secluded (clients.tenant a))
  spares : ∀ {s' i request c row}, s.requestOf i = some request →
    clients.applicationId request = a → s.step (.advance i c) = some s' →
      row.applicationId ≠ some a →
        (row ∈ s'.world.store.committed.rows ↔ row ∈ s.world.store.committed.rows)

theorem isolated (h : Run P (System.start db) s) (htidy : db.Tidy) (a : Uuid) :
    clients.Isolated db s a where
  secluded := Run.secluded (tenant_respects htidy a) (fun hrun => hrun.any) h
  spares := fun {s' i request c row} hi happ hs hrow => by
    obtain ⟨request', o, k, r, w, hthread, he, rfl⟩ := System.step_advance.1 hs
    rw [System.requestOf, hthread] at hi
    cases hi
    obtain ⟨q, hq, hserves, hpermits⟩ := serving_next h hthread
    have hserved := served_run h htidy
    refine exec_foreign hserved.tidy (hserved.holds hq) hpermits he ?_
    rwa [hserves, happ]

end Clients

/-! ## The requests of the public API -/

/-- They serve their application with the policies and without them. -/
@[reducible] def tenants (policies : Bool) (environment : Environment)
    (hmac : List UInt8 → List UInt8) : Clients policies where
  Request := TenantRequest
  Result := TenantResult
  applicationId := TenantRequest.applicationId
  program := TenantRequest.program environment hmac
  confined := fun request => by
    refine (Conforms.simulates (T := servingTypestate) (S := confinedTypestate policies) (R := Eq)
      (serves_program environment hmac request) rfl ?_).mono ?_
    · rintro q _ o rfl hallows
      exact ⟨.inl hallows, fun _ _ => rfl⟩
    · rintro q _ ⟨_, rfl, hidle⟩
      exact hidle

/-- **Applications do not interfere**, with the policies in force or without them. -/
theorem tenants_isolated {policies : Bool} {environment : Environment}
    {hmac : List UInt8 → List UInt8} {db : Database}
    {s : System (tenants policies environment hmac).machine} (htidy : db.Tidy)
    (h : Run Any (System.start db) s) (a : Uuid) :
    (tenants policies environment hmac).Isolated db s a := Clients.isolated h htidy a

/-! ## Careless programs -/

/-- A program of which nothing is known but that its transactions are scoped to one application, that
it claims keys under lock tokens it drew and that it enqueues no notification but those it wrote. Its
statements name any application. -/
structure WalledProgram (ρ : Type) where
  applicationId : Uuid
  program : Prog operations ρ
  walled : Conforms (confinedTypestate true) AnyAnswer { applicationId } program
    fun q _ => q.Idle applicationId

@[reducible] def walledPrograms (ρ : Type) : Clients true where
  Request := WalledProgram ρ
  Result := ρ
  applicationId := WalledProgram.applicationId
  program := WalledProgram.program
  confined := WalledProgram.walled

/-- The requests of the public API are such programs. -/
def TenantRequest.walled (environment : Environment) (hmac : List UInt8 → List UInt8)
    (request : TenantRequest) : WalledProgram TenantResult where
  applicationId := request.applicationId
  program := request.program environment hmac
  walled := (tenants true environment hmac).confined request

/-- **The policies suffice**, as far as statements are carried out. What a statement is refused for is
not the program's own alone: primary keys and unique indexes look past the policies. -/
theorem policies_isolate {ρ : Type} {db : Database} {s : System (walledPrograms ρ).machine}
    (htidy : db.Tidy) (h : Run Any (System.start db) s) (a : Uuid) :
    (walledPrograms ρ).Isolated db s a := Clients.isolated h htidy a

/-! ## Two applications -/

namespace Neighbours

/-- Each has one connection. -/
def rows : Table Row where
  rows := [.session Intake.session,
    .session { Intake.session with id := 7, applicationId := 6, providerSessionName := "wnp-7" }]
  nodup := by decide

theorem rows_apart : ∀ r ∈ rows.rows, ∀ r' ∈ rows.rows, ∀ x, index r = some x →
    index r' = some x → r = r' := by
  intro r hr r' hr' x hx hx'
  simp only [rows, List.mem_cons, List.not_mem_nil, or_false] at hr hr'
  have hnames : ("wnp-2" : String) ≠ "wnp-7" := by decide
  rcases hr with rfl | rfl <;> rcases hr' with rfl | rfl
  · rfl
  · rw [← hx] at hx'
    simp [index_row, Row.uniqueValue, Intake.session] at hx'
  · rw [← hx] at hx'
    simp [index_row, Row.uniqueValue, Intake.session] at hx'
  · rfl

def database : Database where
  store := .settled rows rows_apart
  now := 0
  identifiers := 8
  scope := fun _ => none
  startedAt := fun _ => 0

theorem database_tidy : database.Tidy :=
  .of_idle (fun _ => rfl) (by decide)

/-- The order of either application, under the same key. -/
def order (a : Uuid) : TenantRequest :=
  .creation (.create none {
    applicationId := a
    body := [72, 105]
    whatsAppSessionId := none
    scheduledAt := none
    maximumAttempts := none
    metadata := []
    idempotencyKey := some (Utf16.ofString "order-1")
    requestPath := "/v1/notifications"
    recipient := "+5511999998888" })

def served : System (tenants true Intake.environment fun _ => []).machine :=
  (System.start database).after
    ([.spawn 0 (order 1), .spawn 1 (order 6), .advance 0 (.date 0), .advance 1 (.date 0)] ++
      List.replicate 12 (.advance 0 .nothing) ++ List.replicate 12 (.advance 1 .nothing) ++
      [.spawn 2 (.cancelWaiting none 6 none)] ++ [.advance 2 .nothing, .advance 2 (.date 0),
      .advance 2 .nothing, .advance 2 .nothing, .advance 2 .nothing])

/-- What a thread has answered: whether it was refused, and how many it cancelled. -/
def answer? (i : Nat) : Option (Option Nat) :=
  match served.threads i with
  | some ⟨_, .running (.done (.creation result))⟩ => some (result.answer.toOption.map fun _ => 0)
  | some ⟨_, .running (.done (.cancelledWaiting result))⟩ => some result.toOption
  | _ => none

/-- The notifications of an application that were not cancelled. -/
def waiting (db : Database) (a : Uuid) : Nat :=
  (db.store.committed.rows.filterMap Row.notification?).countP fun n =>
    n.applicationId = a ∧ n.status ≠ .CANCELLED

end Neighbours

/-- Either application creates its order. The one cancels all it has, and the other's is left, in a
run of its own. -/
theorem neighbours_isolated :
    [0, 1, 2].map Neighbours.answer? = [some (some 0), some (some 0), some (some 1)] ∧
      [1, 6].map (Neighbours.waiting Neighbours.served.world) = [1, 0] ∧
      (tenants true Intake.environment fun _ => []).Isolated Neighbours.database
        Neighbours.served 1 :=
  ⟨by decide +kernel, by decide +kernel,
    tenants_isolated Neighbours.database_tidy (.any_after _) 1⟩

namespace Neighbours

/-- Works for application 6, and looks for the connections of application 1 and cancels what waits
for it. It answers how many it found of either. -/
def careless : WalledProgram TenantResult where
  applicationId := 6
  program := .perform (.begin (some 6)) fun t =>
    .perform (.listForApplication t 1) fun sessions =>
      .perform (.cancelWaiting t
        { applicationId := 1, whatsAppSessionId := none, correlationId := none, now := 0 })
        fun cancelled =>
          .perform (.commit t) fun _ =>
            .done (.cancelledWaiting (.ok (sessions.length + cancelled.length)))
  walled := ⟨.inl ⟨rfl, rfl⟩, fun _ _ => ⟨.inr ⟨rfl, rfl⟩, fun _ _ => ⟨.inr ⟨rfl, rfl⟩,
    fun _ _ => ⟨.inl rfl, fun _ _ => ⟨rfl, rfl⟩⟩⟩⟩⟩

def intruded : System (walledPrograms TenantResult).machine :=
  (System.start database).after
    ([.spawn 0 ((order 1).walled Intake.environment fun _ => []), .advance 0 (.date 0)] ++
      List.replicate 12 (.advance 0 .nothing) ++ [.spawn 1 careless] ++ List.replicate 4 (.advance 1 .nothing))

def found? : Option Nat :=
  match intruded.threads 1 with
  | some ⟨_, .running (.done (.cancelledWaiting result))⟩ => result.toOption
  | _ => none

end Neighbours

/-- The program finds nothing and cancels nothing. -/
theorem careless_isolated :
    Neighbours.found? = some 0 ∧
      Neighbours.waiting Neighbours.intruded.world 1 = 1 ∧
      (walledPrograms TenantResult).Isolated Neighbours.database Neighbours.intruded 6 :=
  ⟨by decide +kernel, by decide +kernel,
    policies_isolate Neighbours.database_tidy (.any_after _) 6⟩

end PublicApi

end NotificationPlatform
