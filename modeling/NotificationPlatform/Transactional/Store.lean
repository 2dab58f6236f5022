import Mathlib.Logic.Function.Basic
import NotificationPlatform.Relational.Table

/-!
# Concurrent transactions over rows

A `Store` holds the committed rows, and for every open transaction the row versions it wrote. A
statement of a transaction reads the rows committed so far with its own versions over them, which
is READ COMMITTED. A writer waits for the open transaction that holds a version in its way: a
version of the row it changes, or of a row with the key or the unique value it inserts. Waiting is
`none`: the statement cannot be answered until the holder commits or ends without a trace.

That no two rows share a unique value is part of the type. Each operation proves it again, for any
order in which the transactions interleave.
-/

namespace Transactional

open Relational

/-- A row has at most one value in the unique indexes that are not its key. -/
class Indexed (ρ : Type) (ι : outParam Type) where
  index : ρ → Option ι

export Indexed (index)

variable {ρ κ ι : Type} [Keyed ρ κ]

/-! ## Versions over older ones -/

section Overlay

variable [DecidableEq κ]

/-- The rows of `base`, each hidden by the version `own` has of it, and the rest of `own`. -/
def overlay (base own : Table ρ) : Table ρ where
  rows := base.rows.filter (fun r => key r ∉ own.rows.map key) ++ own.rows
  nodup := by
    rw [List.map_append, List.nodup_append]
    refine ⟨base.nodup.sublist (List.filter_sublist.map _), own.nodup, ?_⟩
    rintro a ha b hb rfl
    obtain ⟨r, hr, rfl⟩ := List.mem_map.1 ha
    have hout := (List.mem_filter.1 hr).2
    simp only [decide_eq_true_eq] at hout
    exact hout hb

theorem mem_overlay {base own : Table ρ} {r : ρ} :
    r ∈ (overlay base own).rows ↔
      (r ∈ base.rows ∧ ∀ r' ∈ own.rows, key r' ≠ key r) ∨ r ∈ own.rows := by
  simp only [overlay, List.mem_append, List.mem_filter, decide_eq_true_eq, List.mem_map,
    not_exists, not_and, ne_eq]

theorem mem_overlay_own {base own : Table ρ} {r : ρ} (h : r ∈ own.rows) :
    r ∈ (overlay base own).rows := mem_overlay.2 (.inr h)

/-- Every key of the older rows is still there. -/
theorem overlay_covers {base own : Table ρ} {r : ρ} (h : r ∈ base.rows) :
    ∃ r' ∈ (overlay base own).rows, key r' = key r := by
  by_cases hr : ∃ r' ∈ own.rows, key r' = key r
  · obtain ⟨r', hr', hk⟩ := hr
    exact ⟨r', mem_overlay_own hr', hk⟩
  · refine ⟨r, mem_overlay.2 (.inl ⟨h, ?_⟩), rfl⟩
    intro r' hr' hk
    exact hr ⟨r', hr', hk⟩

@[simp] theorem overlay_empty (base : Table ρ) : overlay base Table.empty = base := by
  obtain ⟨rows, nodup⟩ := base
  simp [overlay, Table.empty]

end Overlay

/-- One row, as a table. -/
def one (r : ρ) : Table ρ := ⟨[r], List.nodup_singleton _⟩

/-- The rows `p` selects, changed by `f`. -/
def changed (t : Table ρ) (p : ρ → Bool) (f : ρ → ρ) (hf : ∀ r, key (f r) = key r) : Table ρ where
  rows := (t.select p).map f
  nodup := by
    have h : ((t.select p).map f).map key = (t.select p).map key := by
      rw [List.map_map]
      exact List.map_congr_left fun r _ => hf r
    rw [h]
    exact t.nodup.sublist (List.filter_sublist.map _)

/-! ## The store -/

variable [Indexed ρ ι]

variable (ρ) in
/-- The committed rows, and what each open transaction wrote. -/
structure Versions where
  committed : Table ρ
  opened : Nat → Option (Table ρ)
  next : Nat

namespace Versions

/-- The versions of an open transaction; of one that is not open, none. -/
def own (v : Versions ρ) (t : Nat) : Table ρ := (v.opened t).getD Table.empty

/-- The versions a holder has: a transaction, or the committed rows. -/
def of (v : Versions ρ) : Option Nat → Table ρ
  | none => v.committed
  | some t => v.own t

@[simp] theorem of_none (v : Versions ρ) : v.of none = v.committed := rfl

@[simp] theorem of_some (v : Versions ρ) (t : Nat) : v.of (some t) = v.own t := rfl

theorem own_of_opened {v : Versions ρ} {t : Nat} {own : Table ρ} (h : v.opened t = some own) :
    v.own t = own := by simp only [Versions.own, h, Option.getD_some]

/-- What keys and unique values mean across all versions there are. -/
structure Coherent (v : Versions ρ) : Prop where
  bounded : ∀ t, v.next ≤ t → v.opened t = none
  /-- The versions of one row agree on its unique value. -/
  stable : ∀ {h h' r r'}, r ∈ (v.of h).rows → r' ∈ (v.of h').rows → key r = key r' →
    index r = index r'
  /-- Versions with one unique value are versions of one row. -/
  unique : ∀ {h h' r r' x}, r ∈ (v.of h).rows → r' ∈ (v.of h').rows → index r = some x →
    index r' = some x → key r = key r'
  /-- A row has versions in one open transaction at most. -/
  exclusive : ∀ {t t' r r'}, r ∈ (v.own t).rows → r' ∈ (v.own t').rows → key r = key r' → t = t'

end Versions

variable (ρ) in
structure Store extends Versions ρ where
  coherent : toVersions.Coherent

namespace Store

variable {s : Store ρ}

theorem mem_own_opened {t : Nat} {r : ρ} (h : r ∈ (s.own t).rows) :
    ∃ own, s.opened t = some own ∧ r ∈ own.rows := by
  cases ho : s.opened t with
  | none => simp [Versions.own, ho, Table.empty] at h
  | some own => exact ⟨own, rfl, by simpa [Versions.own, ho] using h⟩

variable (s) in
/-- Whether another open transaction holds a version `p` selects. -/
def held (t : Nat) (p : ρ → Bool) : Bool :=
  (List.range s.next).any fun t' => t' ≠ t && (s.own t').rows.any p

theorem held_eq_false {t : Nat} {p : ρ → Bool} :
    s.held t p = false ↔ ∀ t', t' ≠ t → ∀ r ∈ (s.own t').rows, p r = false := by
  constructor
  · intro h t' ht r hr
    obtain ⟨own, ho, -⟩ := mem_own_opened hr
    have hlt : t' < s.next := by
      refine Nat.lt_of_not_le fun hle => ?_
      rw [s.coherent.bounded t' hle] at ho
      cases ho
    simp only [held, List.any_eq_false, List.mem_range, Bool.and_eq_true, decide_eq_true_eq,
      not_and, Bool.not_eq_true] at h
    exact h t' hlt ht r hr
  · intro h
    simp only [held, List.any_eq_false, List.mem_range, Bool.and_eq_true, decide_eq_true_eq,
      not_and, Bool.not_eq_true]
    intro t' _ ht r hr
    exact h t' ht r hr

/-! ## Beginning and ending -/

/-- The rows of a table whose unique values are apart, and no transaction. -/
def settled (rows : Table ρ) (apart : ∀ r ∈ rows.rows, ∀ r' ∈ rows.rows, ∀ x, index r = some x →
    index r' = some x → r = r') : Store ρ where
  committed := rows
  opened := fun _ => none
  next := 0
  coherent := by
    have hsame : ∀ (h : Option Nat) (r : ρ),
        r ∈ ((⟨rows, fun _ => none, 0⟩ : Versions ρ).of h).rows → r ∈ rows.rows := by
      intro h r hr
      cases h with
      | none => exact hr
      | some t => exact absurd hr List.not_mem_nil
    exact {
      bounded := fun _ _ => rfl
      stable := fun hr hr' hk => by
        rw [List.inj_on_of_nodup_map rows.nodup (hsame _ _ hr) (hsame _ _ hr') hk]
      unique := fun hr hr' hx hx' => by
        rw [apart _ (hsame _ _ hr) _ (hsame _ _ hr') _ hx hx']
      exclusive := fun {_} {_} {_} {_} hr => absurd hr List.not_mem_nil }

variable (s) in
/-- Opens a transaction. -/
def start : Nat × Store ρ :=
  (s.next, {
    committed := s.committed
    opened := Function.update s.opened s.next (some Table.empty)
    next := s.next + 1
    coherent := by
      have hof : ∀ h r, r ∈ ((⟨s.committed, Function.update s.opened s.next (some Table.empty),
          s.next + 1⟩ : Versions ρ).of h).rows → r ∈ (s.of h).rows := by
        intro h r hr
        cases h with
        | none => exact hr
        | some t =>
          by_cases ht : t = s.next
          · subst ht
            simp [Versions.own, Table.empty] at hr
          · simpa [Versions.own, ht] using hr
      exact {
        bounded := by
          intro t (ht : s.next + 1 ≤ t)
          have hne : t ≠ s.next := by omega
          simp only [Function.update_of_ne hne]
          exact s.coherent.bounded t (by omega)
        stable := fun hr hr' => s.coherent.stable (hof _ _ hr) (hof _ _ hr')
        unique := fun hr hr' => s.coherent.unique (hof _ _ hr) (hof _ _ hr')
        exclusive := fun {t} {t'} {r} {r'} hr hr' =>
          s.coherent.exclusive (hof (some t) r hr) (hof (some t') r' hr') } })

/-- Transaction `t` ended, and its versions are as `ended` says. -/
structure Ended (s s' : Store ρ) (t : Nat) (committed : Table ρ) : Prop where
  isOpen : (s.opened t).isSome
  committed : s'.committed = committed
  opened : s'.opened = Function.update s.opened t none
  next : s'.next = s.next

theorem Ended.own {s' : Store ρ} {t : Nat} {committed : Table ρ} (h : Ended s s' t committed) :
    s'.own t = Table.empty := by
  simp only [Versions.own, h.opened, Function.update_self, Option.getD_none]

theorem Ended.own_other {s' : Store ρ} {t t' : Nat} {committed : Table ρ}
    (h : Ended s s' t committed) (ht : t' ≠ t) : s'.own t' = s.own t' := by
  simp only [Versions.own, h.opened, Function.update_of_ne ht]

variable (s) in
/-- The transaction ends without a trace: it was rolled back, or its connection was lost. -/
def rollback (t : Nat) : Option (Store ρ) :=
  match s.opened t with
  | none => none
  | some _ => some {
      committed := s.committed
      opened := Function.update s.opened t none
      next := s.next
      coherent := by
        have hsame : ∀ holder r, r ∈ ((⟨s.committed, Function.update s.opened t none, s.next⟩ :
            Versions ρ).of holder).rows → r ∈ (s.of holder).rows := by
          intro holder r hr
          cases holder with
          | none => exact hr
          | some t' =>
            by_cases ht : t' = t
            · subst ht
              simp [Versions.own, Table.empty] at hr
            · simpa [Versions.own, ht] using hr
        exact {
          bounded := fun t' ht' => by
            by_cases ht : t' = t
            · subst ht
              exact Function.update_self _ _ _
            · simp only [Function.update_of_ne ht]
              exact s.coherent.bounded t' ht'
          stable := fun hr hr' => s.coherent.stable (hsame _ _ hr) (hsame _ _ hr')
          unique := fun hr hr' => s.coherent.unique (hsame _ _ hr) (hsame _ _ hr')
          exclusive := fun {a} {b} {r} {r'} hr hr' =>
            s.coherent.exclusive (hsame (some a) r hr) (hsame (some b) r' hr') } }

theorem rollback_some {t : Nat} {s' : Store ρ} (h : s.rollback t = some s') :
    Ended s s' t s.committed := by
  simp only [rollback] at h
  split at h
  · cases h
  · rename_i own ho
    cases h
    exact ⟨by rw [ho]; rfl, rfl, rfl, rfl⟩

variable (s) in
/-- The rows `p` selects are no longer committed. A `DELETE` on its own is this, once it waited for
the transactions in its way. -/
def remove (p : ρ → Bool) : Store ρ where
  committed := ⟨s.committed.rows.filter fun r => !p r, s.committed.nodup.sublist
    (List.filter_sublist.map _)⟩
  opened := s.opened
  next := s.next
  coherent := by
    have hof : ∀ holder r, r ∈ ((⟨⟨s.committed.rows.filter fun r => !p r, s.committed.nodup.sublist
        (List.filter_sublist.map _)⟩, s.opened, s.next⟩ : Versions ρ).of holder).rows →
          r ∈ (s.of holder).rows := by
      intro holder r hr
      cases holder with
      | none => exact (List.mem_filter.1 hr).1
      | some t => exact hr
    exact {
      bounded := s.coherent.bounded
      stable := fun hr hr' => s.coherent.stable (hof _ _ hr) (hof _ _ hr')
      unique := fun hr hr' => s.coherent.unique (hof _ _ hr) (hof _ _ hr')
      exclusive := s.coherent.exclusive }

theorem mem_remove {p : ρ → Bool} {r : ρ} :
    r ∈ (s.remove p).committed.rows ↔ r ∈ s.committed.rows ∧ p r = false := by
  simp only [remove, List.mem_filter, Bool.not_eq_true']

section Reading

variable [DecidableEq κ]

variable (s) in
/-- What a statement of transaction `t` reads. -/
def view (t : Nat) : Table ρ := overlay s.committed (s.own t)

theorem mem_view {t : Nat} {r : ρ} : r ∈ (s.view t).rows ↔
    (r ∈ s.committed.rows ∧ ∀ r' ∈ (s.own t).rows, key r' ≠ key r) ∨ r ∈ (s.own t).rows :=
  mem_overlay

/-- What a statement reads is committed, or the transaction's own. -/
theorem of_mem_view {t : Nat} {r : ρ} (h : r ∈ (s.view t).rows) :
    ∃ holder, r ∈ (s.of holder).rows ∧ (holder = none ∨ holder = some t) := by
  rcases mem_view.1 h with ⟨hr, -⟩ | hr
  · exact ⟨none, hr, .inl rfl⟩
  · exact ⟨some t, hr, .inr rfl⟩

/-- The versions of one transaction become the committed rows. -/
theorem coherent_commit {t : Nat} {own : Table ρ} (ho : s.opened t = some own) :
    (⟨overlay s.committed own, Function.update s.opened t none, s.next⟩ :
      Versions ρ).Coherent := by
  have hown : s.own t = own := Versions.own_of_opened ho
  have hof : ∀ holder r, r ∈ ((⟨overlay s.committed own, Function.update s.opened t none, s.next⟩ :
      Versions ρ).of holder).rows → ∃ holder', r ∈ (s.of holder').rows := by
    intro holder r hr
    cases holder with
    | none =>
      rcases mem_overlay.1 hr with ⟨hr, -⟩ | hr
      · exact ⟨none, hr⟩
      · exact ⟨some t, by rw [Versions.of_some, hown]; exact hr⟩
    | some t' =>
      refine ⟨some t', ?_⟩
      by_cases ht : t' = t
      · subst ht
        simp [Versions.own, Table.empty] at hr
      · simpa [Versions.own, ht] using hr
  have hsame : ∀ {t' r}, r ∈ ((⟨overlay s.committed own, Function.update s.opened t none, s.next⟩ :
      Versions ρ).own t').rows → r ∈ (s.own t').rows := by
    intro t' r hr
    by_cases ht : t' = t
    · subst ht
      simp [Versions.own, Table.empty] at hr
    · simpa [Versions.own, ht] using hr
  refine ⟨?_, ?_, ?_, ?_⟩
  · intro t' ht'
    by_cases ht : t' = t
    · subst ht
      exact Function.update_self _ _ _
    · simp only [Function.update_of_ne ht]
      exact s.coherent.bounded t' ht'
  · intro a b r r' hr hr' hk
    obtain ⟨_, hr⟩ := hof _ _ hr
    obtain ⟨_, hr'⟩ := hof _ _ hr'
    exact s.coherent.stable hr hr' hk
  · intro a b r r' x hr hr' hx hx'
    obtain ⟨_, hr⟩ := hof _ _ hr
    obtain ⟨_, hr'⟩ := hof _ _ hr'
    exact s.coherent.unique hr hr' hx hx'
  · intro a b r r' hr hr' hk
    exact s.coherent.exclusive (hsame hr) (hsame hr') hk

variable (s) in
def commit (t : Nat) : Option (Store ρ) :=
  match ho : s.opened t with
  | none => none
  | some own => some {
      committed := overlay s.committed own
      opened := Function.update s.opened t none
      next := s.next
      coherent := coherent_commit ho }

theorem commit_some {t : Nat} {s' : Store ρ} (h : s.commit t = some s') :
    Ended s s' t (overlay s.committed (s.own t)) := by
  simp only [commit] at h
  split at h
  · cases h
  · rename_i own ho
    cases h
    rw [Versions.own_of_opened ho]
    exact ⟨by rw [ho]; rfl, rfl, rfl, rfl⟩

/-! ## Writing -/

/-- The rows transaction `t` may write: no other transaction holds a version in their way, and with
what `t` reads they agree on keys and unique values. -/
structure Admits (s : Store ρ) (t : Nat) (rows : Table ρ) : Prop where
  isOpen : (s.opened t).isSome
  alone : ∀ r ∈ rows.rows, ∀ t', t' ≠ t → ∀ r' ∈ (s.own t').rows, key r ≠ key r'
  stable : ∀ r ∈ rows.rows, ∀ h, ∀ r' ∈ (s.of h).rows, key r = key r' → index r = index r'
  unique : ∀ r ∈ rows.rows, ∀ h, ∀ r' ∈ (s.of h).rows, ∀ x, index r = some x →
    index r' = some x → key r = key r'
  apart : ∀ r ∈ rows.rows, ∀ r' ∈ rows.rows, ∀ x, index r = some x → index r' = some x →
    key r = key r'

variable (s) in
/-- The store after transaction `t` wrote `rows`. -/
def put (t : Nat) (rows : Table ρ) (h : s.Admits t rows) : Store ρ where
  committed := s.committed
  opened := Function.update s.opened t (some (overlay (s.own t) rows))
  next := s.next
  coherent := by
    have hkey : ∀ r ∈ rows.rows, ∀ r' ∈ rows.rows, key r = key r' → r = r' := fun r hr r' hr' hk =>
      List.inj_on_of_nodup_map rows.nodup hr hr' hk
    -- every version is an old one, or one of the rows written
    have hof : ∀ holder r, r ∈ ((⟨s.committed,
        Function.update s.opened t (some (overlay (s.own t) rows)), s.next⟩ : Versions ρ).of
          holder).rows → r ∈ (s.of holder).rows ∨ (holder = some t ∧ r ∈ rows.rows) := by
      intro holder r hr
      cases holder with
      | none => exact .inl hr
      | some t' =>
        by_cases ht : t' = t
        · subst ht
          simp only [Versions.of, Versions.own, Function.update_self, Option.getD_some] at hr
          rcases mem_overlay.1 hr with ⟨hr, -⟩ | hr
          · exact .inl hr
          · exact .inr ⟨rfl, hr⟩
        · simp only [Versions.of, Versions.own, Function.update_of_ne ht] at hr
          exact .inl hr
    refine ⟨?_, ?_, ?_, ?_⟩
    · intro t' ht'
      have hne : t' ≠ t := by
        rintro rfl
        have := h.isOpen
        rw [s.coherent.bounded _ ht'] at this
        cases this
      simp only [Function.update_of_ne hne]
      exact s.coherent.bounded t' ht'
    · intro a b r r' hr hr' hk
      rcases hof _ _ hr with hr | ⟨-, hr⟩ <;> rcases hof _ _ hr' with hr' | ⟨-, hr'⟩
      · exact s.coherent.stable hr hr' hk
      · exact (h.stable r' hr' _ r hr hk.symm).symm
      · exact h.stable r hr _ r' hr' hk
      · rw [hkey r hr r' hr' hk]
    · intro a b r r' x hr hr' hx hx'
      rcases hof _ _ hr with hr | ⟨-, hr⟩ <;> rcases hof _ _ hr' with hr' | ⟨-, hr'⟩
      · exact s.coherent.unique hr hr' hx hx'
      · exact (h.unique r' hr' _ r hr x hx' hx).symm
      · exact h.unique r hr _ r' hr' x hx hx'
      · exact h.apart r hr r' hr' x hx hx'
    · intro a b r r' hr hr' hk
      rcases hof (some a) _ hr with hra | ⟨ha, hw⟩ <;>
        rcases hof (some b) _ hr' with hrb | ⟨hb, hw'⟩
      · exact s.coherent.exclusive hra hrb hk
      · cases hb
        by_contra hne
        exact h.alone r' hw' a hne r hra hk.symm
      · cases ha
        by_contra hne
        exact h.alone r hw b (Ne.symm hne) r' hrb hk
      · cases ha
        cases hb
        rfl

/-- Transaction `t` wrote `rows`, and nothing else happened. -/
structure Wrote (s s' : Store ρ) (t : Nat) (rows : Table ρ) : Prop where
  isOpen : (s.opened t).isSome
  committed : s'.committed = s.committed
  opened : s'.opened = Function.update s.opened t (some (overlay (s.own t) rows))
  next : s'.next = s.next

theorem wrote_put {t : Nat} {rows : Table ρ} (h : s.Admits t rows) :
    Wrote s (s.put t rows h) t rows := ⟨h.isOpen, rfl, rfl, rfl⟩

theorem Wrote.own {s' : Store ρ} {t : Nat} {rows : Table ρ} (h : Wrote s s' t rows) :
    s'.own t = overlay (s.own t) rows := by
  simp only [Versions.own, h.opened, Function.update_self, Option.getD_some]

theorem Wrote.own_other {s' : Store ρ} {t t' : Nat} {rows : Table ρ} (h : Wrote s s' t rows)
    (ht : t' ≠ t) : s'.own t' = s.own t' := by
  simp only [Versions.own, h.opened, Function.update_of_ne ht]

/-- Rows in sight of `t` that no other transaction holds can be changed. -/
theorem admits_changed {t : Nat} {p : ρ → Bool} {f : ρ → ρ} {hf : ∀ r, key (f r) = key r}
    (hi : ∀ r, index (f r) = index r) (hopen : (s.opened t).isSome)
    (hheld : ∀ r ∈ (s.view t).select p, s.held t (fun r' => key r' = key r) = false) :
    s.Admits t (changed (s.view t) p f hf) := by
  have hrow : ∀ {r}, r ∈ (changed (s.view t) p f hf).rows → ∃ r₀ holder, r₀ ∈ (s.view t).select p ∧
      r₀ ∈ (s.of holder).rows ∧ key r = key r₀ ∧ index r = index r₀ := by
    intro r hr
    obtain ⟨r₀, hr₀, rfl⟩ := List.mem_map.1 hr
    obtain ⟨holder, hh, -⟩ := of_mem_view (Table.mem_select.1 hr₀).1
    exact ⟨r₀, holder, hr₀, hh, hf r₀, hi r₀⟩
  refine ⟨hopen, ?_, ?_, ?_, ?_⟩
  · intro r hr t' ht r' hr' hk
    obtain ⟨r₀, holder, hr₀, -, hk₀, -⟩ := hrow hr
    have := held_eq_false.1 (hheld r₀ hr₀) t' ht r' hr'
    simp only [decide_eq_false_iff_not] at this
    exact this (hk.symm.trans hk₀)
  · intro r hr holder r' hr' hk
    obtain ⟨r₀, holder₀, -, hh, hk₀, hi₀⟩ := hrow hr
    exact hi₀.trans (s.coherent.stable hh hr' (hk₀.symm.trans hk))
  · intro r hr holder r' hr' x hx hx'
    obtain ⟨r₀, holder₀, -, hh, hk₀, hi₀⟩ := hrow hr
    exact hk₀.trans (s.coherent.unique hh hr' (hi₀.symm.trans hx) hx')
  · intro r hr r' hr' x hx hx'
    obtain ⟨r₀, holder₀, -, hh, hk₀, hi₀⟩ := hrow hr
    obtain ⟨r₁, holder₁, -, hh₁, hk₁, hi₁⟩ := hrow hr'
    have := s.coherent.unique hh hh₁ (hi₀.symm.trans hx) (hi₁.symm.trans hx')
    rw [hk₀, hk₁, this]

variable (s) in
/-- `UPDATE .. RETURNING`: the rows it selected, as they were before. -/
def update (t : Nat) (p : ρ → Bool) (f : ρ → ρ) (hf : ∀ r, key (f r) = key r)
    (hi : ∀ r, index (f r) = index r) : Option (List ρ × Store ρ) :=
  if hopen : (s.opened t).isSome then
    if hheld : ∀ r ∈ (s.view t).select p, s.held t (fun r' => key r' = key r) = false then
      some ((s.view t).select p, s.put t (changed (s.view t) p f hf)
        (admits_changed hi hopen hheld))
    else none
  else none

/-- What an update changed: the rows it selected, none of them held by another transaction. -/
theorem update_some {t : Nat} {p : ρ → Bool} {f : ρ → ρ} {hf : ∀ r, key (f r) = key r}
    {hi : ∀ r, index (f r) = index r} {rows : List ρ} {s' : Store ρ}
    (h : s.update t p f hf hi = some (rows, s')) :
    rows = (s.view t).select p ∧ Wrote s s' t (changed (s.view t) p f hf) := by
  simp only [update] at h
  split at h
  · split at h
    · cases h
      exact ⟨rfl, wrote_put _⟩
    · cases h
  · cases h

section Inserting

variable [DecidableEq ι]

/-- Two rows that cannot both be there. -/
def clash (r r' : ρ) : Bool := key r' = key r ∨ ((index r).isSome ∧ index r' = index r)

theorem clash_eq_false {r r' : ρ} : clash r r' = false ↔
    key r' ≠ key r ∧ ∀ x, index r = some x → index r' ≠ some x := by
  simp only [clash, decide_eq_false_iff_not, not_or, not_and, Option.isSome_iff_exists,
    forall_exists_index]
  refine and_congr_right fun _ => forall_congr' fun x => forall_congr' fun hx => ?_
  rw [hx]

/-- A row that clashes with nothing held elsewhere and nothing in sight clashes with no version. -/
theorem clash_all {t : Nat} {r : ρ} (hheld : s.held t (clash r) = false)
    (hview : (s.view t).rows.any (clash r) = false) (holder : Option Nat) :
    ∀ r' ∈ (s.of holder).rows, clash r r' = false := by
  have hseen : ∀ r' ∈ (s.view t).rows, clash r r' = false := by
    intro r' hr'
    exact Bool.eq_false_iff.2 (List.any_eq_false.1 hview r' hr')
  intro r' hr'
  cases holder with
  | none =>
    -- a committed row that is hidden has a version in sight, with its key and its unique value
    obtain ⟨r'', hr'', hk⟩ : ∃ r'' ∈ (s.view t).rows, key r'' = key r' := overlay_covers hr'
    obtain ⟨holder, hh, -⟩ := of_mem_view hr''
    have hi : index r'' = index r' := s.coherent.stable hh (show r' ∈ (s.of none).rows from hr') hk
    have hc := hseen r'' hr''
    simp only [clash, hk, hi] at hc
    exact hc
  | some t' =>
    by_cases ht : t' = t
    · subst ht
      exact hseen r' (mem_view.2 (.inr hr'))
    · exact held_eq_false.1 hheld t' ht r' hr'

theorem admits_one {t : Nat} {r : ρ} (hopen : (s.opened t).isSome)
    (hall : ∀ holder, ∀ r' ∈ (s.of holder).rows, clash r r' = false) : s.Admits t (one r) := by
  have hone : ∀ {r'}, r' ∈ (one r).rows → r' = r := fun h => List.mem_singleton.1 h
  refine ⟨hopen, ?_, ?_, ?_, ?_⟩
  · intro r₁ hr₁ t' _ r' hr' hk
    rw [hone hr₁] at hk
    exact (clash_eq_false.1 (hall (some t') r' hr')).1 hk.symm
  · intro r₁ hr₁ holder r' hr' hk
    rw [hone hr₁] at hk
    exact absurd hk.symm (clash_eq_false.1 (hall holder r' hr')).1
  · intro r₁ hr₁ holder r' hr' x hx hx'
    rw [hone hr₁] at hx
    exact absurd hx' ((clash_eq_false.1 (hall holder r' hr')).2 x hx)
  · intro r₁ hr₁ r₂ hr₂ x _ _
    rw [hone hr₁, hone hr₂]

variable (s) in
/-- `INSERT .. ON CONFLICT (the unique value) DO NOTHING`: whether the row was inserted. A key that
is taken raises. -/
def insert (t : Nat) (r : ρ) : Option (Bool × Store ρ) :=
  if hopen : (s.opened t).isSome then
    if hheld : s.held t (clash r) then none
    else if hview : (s.view t).rows.any (clash r) then
      if (index r).isSome ∧ (s.view t).rows.any fun r' => index r' = index r then some (false, s)
      else none
    else some (true, s.put t (one r)
      (admits_one hopen (clash_all (Bool.eq_false_iff.2 hheld) (Bool.eq_false_iff.2 hview))))
  else none

/-- What a statement inserted: the row, with nothing in its way; or nothing, because a row in sight
has its unique value. -/
theorem insert_cases {t : Nat} {r : ρ} {b : Bool} {s' : Store ρ} (h : s.insert t r = some (b, s')) :
    (b = true ∧ Wrote s s' t (one r) ∧ (∀ holder, ∀ r' ∈ (s.of holder).rows, clash r r' = false)) ∨
      (b = false ∧ s' = s ∧ (s.opened t).isSome ∧ (index r).isSome ∧
        ∃ r' ∈ (s.view t).rows, index r' = index r) := by
  simp only [insert] at h
  split at h
  · rename_i hopen
    split at h
    · cases h
    · rename_i hheld
      split at h
      · split at h
        · rename_i hview hi
          cases h
          obtain ⟨hsome, hany⟩ := hi
          obtain ⟨r', hr', hindex⟩ := List.any_eq_true.1 hany
          exact .inr ⟨rfl, rfl, hopen, hsome, r', hr', by simpa using hindex⟩
        · cases h
      · rename_i hview
        cases h
        exact .inl ⟨rfl, wrote_put _, clash_all (Bool.eq_false_iff.2 hheld)
          (Bool.eq_false_iff.2 hview)⟩
  · cases h

end Inserting

end Reading

end Store

end Transactional
