import NotificationPlatform.PublicApi.Effect
import NotificationPlatform.Transactional.Solo

/-!
# Transactions that only insert

A transaction that inserts rows and changes none but its own adds them to the committed rows when it
commits, whatever other transactions do meanwhile: no two hold versions of one row.
-/

namespace NotificationPlatform

namespace PublicApi

open Interleaving Relational Transactional

/-! ## Inserts -/

/-- Transaction `t` inserted the row, with nothing in its way. -/
structure Inserted (db db' : Database) (t : Nat) (r : Row) : Prop where
  wrote : Store.Wrote db.store db'.store t (one r)
  free : ∀ holder, ∀ r' ∈ (db.store.of holder).rows, Store.clash r r' = false

section Inserts

variable {executor : QueryExecutor} {db db' : Database} {t : Nat} {r : Row}

/-- A row is inserted, or its unique value is in sight. -/
theorem insert_inserted {b : Bool} (h : executor.insert r db = some (b, db')) :
    (b = true ∧ Inserted db db' executor.transaction r) ∨
      (b = false ∧ db' = db ∧
        ∃ r' ∈ (db.store.view executor.transaction).rows, index r' = index r) := by
  unfold QueryExecutor.insert at h
  split at h
  · obtain ⟨⟨b', store⟩, hinsert, hp⟩ := Option.map_eq_some_iff.1 h
    cases hp
    rcases Store.insert_cases hinsert with ⟨rfl, hwrote, hfree⟩ | ⟨rfl, rfl, -, -, r', hr', hi⟩
    · exact .inl ⟨rfl, hwrote, hfree⟩
    · exact .inr ⟨rfl, rfl, r', hr', hi⟩
  · cases h

theorem insertOrFail_inserted {u : Unit} (h : executor.insertOrFail r db = some (u, db')) :
    Inserted db db' executor.transaction r := by
  obtain ⟨b, db₁, h₁, h⟩ := Statement.bind_eq_some.1 h
  rcases insert_inserted h₁ with ⟨rfl, hinserted⟩ | ⟨rfl, -⟩
  · obtain ⟨-, rfl⟩ := Statement.pure_eq_some.1 h
    exact hinserted
  · cases h

theorem Inserted.mem_own (h : Inserted db db' t r) {r' : Row} :
    r' ∈ (db'.store.own t).rows ↔ r' ∈ (db.store.own t).rows ∨ r' = r := by
  rw [h.wrote.own, mem_overlay]
  refine or_congr (and_iff_left_of_imp fun hr' r'' hr'' hkey => ?_) List.mem_singleton
  rw [List.mem_singleton.1 hr''] at hkey
  exact (Store.clash_eq_false.1 (h.free (some t) r' hr')).1 hkey.symm

end Inserts

/-! ## Fresh rows -/

/-- Rows with keys of their own. -/
def Fresh (db : Database) (rows : List Row) : Prop :=
  ∀ r ∈ rows, ∀ r' ∈ db.store.committed.rows, key r' ≠ key r

section Fresh

variable {db db' : Database} {t : Nat} {rows : List Row}

theorem Fresh.congr (h : Fresh db rows) (hsame : db'.store.committed = db.store.committed) :
    Fresh db' rows := by
  intro r hr r' hr'
  rw [hsame] at hr'
  exact h r hr r' hr'

/-- A row that clashes with none is fresh. -/
theorem fresh_of_clash {r : Row}
    (h : ∀ holder, ∀ r' ∈ (db.store.of holder).rows, Store.clash r r' = false) : Fresh db [r] := by
  intro r₁ hr₁ r' hr'
  rw [List.mem_singleton.1 hr₁]
  exact (Store.clash_eq_false.1 (h none r' hr')).1

theorem Fresh.inserted {r : Row} (h : Fresh db (db.store.own t).rows)
    (hinserted : Inserted db db' t r) : Fresh db' (db'.store.own t).rows := by
  intro r₁ hr₁ r' hr'
  rw [hinserted.wrote.committed] at hr'
  rcases hinserted.mem_own.1 hr₁ with hold | rfl
  · exact h r₁ hold r' hr'
  · exact (Store.clash_eq_false.1 (hinserted.free none r' hr')).1

/-- What a commit of fresh rows leaves. -/
theorem mem_commit {store : Store Row} {r : Row}
    (h : Store.Ended db.store store t (overlay db.store.committed (db.store.own t)))
    (hfresh : Fresh db (db.store.own t).rows) :
    r ∈ store.committed.rows ↔ r ∈ db.store.committed.rows ∨ r ∈ (db.store.own t).rows := by
  rw [h.committed, mem_overlay]
  refine or_congr_left (and_iff_left_of_imp fun hr r' hr' hkey => ?_)
  exact hfresh r' hr' r hr hkey.symm

/-- A transaction that wrote nothing commits nothing. -/
theorem commit_of_empty {store : Store Row}
    (h : Store.Ended db.store store t (overlay db.store.committed (db.store.own t)))
    (hempty : (db.store.own t).rows = []) : store.committed = db.store.committed := by
  have hown : db.store.own t = Table.empty := by
    cases hown : db.store.own t with
    | mk rows nodup =>
      rw [hown] at hempty
      cases hempty
      rfl
  rw [h.committed, hown, overlay_empty]

end Fresh

/-- The row was committed since the rows were `base`. -/
def Added (base : List Row) (db : Database) (r : Row) : Prop :=
  r ∈ db.store.committed.rows ∧ r ∉ base

/-! ## What a transaction leaves the others -/

/-- What happens outside transaction `t`, as far as the transactions that were begun can tell. -/
structure Leaves (t : Option Nat) (db db' : Database) : Prop where
  grows : ∀ r ∈ db.store.committed.rows, r ∈ db'.store.committed.rows
  next : db.store.next ≤ db'.store.next
  scope : ∀ t' < db.store.next, db'.scope t' = db.scope t'
  opened : ∀ {t' own}, t' < db.store.next → some t' ≠ t → db'.store.opened t' = some own →
    db.store.opened t' = some own
  fresh : ∀ {t' own}, some t' ≠ t → db.store.opened t' = some own → Fresh db own.rows →
    Fresh db' own.rows

section Leaves

variable {t : Option Nat} {db db' : Database}

theorem leaves_within (h : Within t db db') : Leaves t db db' where
  grows := fun _ hr => h.committed ▸ hr
  next := h.next.ge
  scope := fun t' _ => congrFun h.scope t'
  opened := fun _ hne hown => (h.opened _ hne) ▸ hown
  fresh := fun _ _ hfresh => hfresh.congr h.committed

theorem leaves_begin (a : Option Uuid) : Leaves none db { db with
    store := db.store.start.2
    scope := Function.update db.scope db.store.next a
    startedAt := Function.update db.startedAt db.store.next db.now } where
  grows := fun _ hr => hr
  next := Nat.le_succ _
  scope := fun _ ht => Function.update_of_ne (Nat.ne_of_lt ht) _ _
  opened := fun {t' own} ht _ hown => by
    have hne : t' ≠ db.store.next := Nat.ne_of_lt ht
    simpa only [Store.start, Function.update_of_ne hne] using hown
  fresh := fun _ _ hfresh => hfresh.congr rfl

theorem leaves_rolledBack {t : Nat} {store : Store Row}
    (h : Store.Ended db.store store t db.store.committed) : Leaves none db { db with store } where
  grows := fun _ hr => h.committed ▸ hr
  next := h.next.ge
  scope := fun _ _ => rfl
  opened := fun {t' own} _ _ hown => by
    by_cases ht : t' = t
    · subst ht
      simp [h.opened] at hown
    · simpa only [h.opened, Function.update_of_ne ht] using hown
  fresh := fun _ _ hfresh => hfresh.congr h.committed

/-- A transaction that commits fresh rows leaves the others what they wrote. -/
theorem leaves_committed {t : Nat} {store : Store Row}
    (h : Store.Ended db.store store t (overlay db.store.committed (db.store.own t)))
    (hfresh : Fresh db (db.store.own t).rows) : Leaves (some t) db { db with store } where
  grows := fun _ hr => (mem_commit h hfresh).2 (.inl hr)
  next := h.next.ge
  scope := fun _ _ => rfl
  opened := fun {t' own} _ hne hown => by
    have hne : t' ≠ t := fun he => hne (congrArg some he)
    simpa only [h.opened, Function.update_of_ne hne] using hown
  fresh := fun {t' own} hne hown hown' r hr r' hr' => by
    have hne : t' ≠ t := fun he => hne (congrArg some he)
    rcases (mem_commit h hfresh).1 hr' with hold | hmine
    · exact hown' r hr r' hold
    · intro hkey
      rw [← Versions.own_of_opened hown] at hr
      exact hne (db.store.coherent.exclusive hr hmine hkey.symm)

end Leaves

/-! ## What happens by itself -/

/-- The database's clock moves on, or a transaction that cannot go on (its process has crashed, say)
is rolled back. -/
inductive DatabaseEvent where
  | clock (now : Timestamptz)
  | aborted (transaction : Nat)

def databaseOutside (db : Database) : DatabaseEvent → Option Database
  | .clock now => if db.now ≤ now then some { db with now } else none
  | .aborted t => (rollbackTransaction t db).map (·.2)

theorem outside_leaves {db db' : Database} {event : DatabaseEvent}
    (he : databaseOutside db event = some db') :
    Leaves none db db' ∧ db'.store.committed = db.store.committed := by
  cases event with
  | clock now =>
    simp only [databaseOutside] at he
    split at he
    · cases he
      exact ⟨leaves_within (t := none) ⟨rfl, fun _ _ => rfl, rfl, rfl, rfl, Nat.le_refl _⟩, rfl⟩
    · cases he
  | aborted t =>
    obtain ⟨⟨u, db''⟩, hrollback, rfl⟩ := Option.map_eq_some_iff.1 he
    obtain ⟨store, rfl, hended⟩ := rollbackTransaction_ended hrollback
    exact ⟨leaves_rolledBack hended, hended.committed⟩

end PublicApi

end NotificationPlatform
