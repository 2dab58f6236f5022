import Mathlib.Algebra.BigOperators.Group.List.Basic
import Mathlib.Data.List.Nodup

/-!
# Tables with a primary key

A table is a list of rows no two of which share a key, so the key is unique by construction.
Statements come in three forms: `find?` reads the row of a key, `update` changes every row a
predicate selects, and `updateAt` changes the row of one key if it satisfies a predicate and
returns it, which is `UPDATE .. WHERE id = .. AND .. RETURNING`. Everything a proof needs about the
three is how they act on the row of one key.
-/

namespace Relational

/-- The primary key of a row. -/
class Keyed (ρ : Type) (κ : outParam Type) where
  key : ρ → κ

export Keyed (key)

structure Table (ρ : Type) {κ : Type} [Keyed ρ κ] where
  rows : List ρ
  nodup : (rows.map key).Nodup

namespace Table

variable {ρ κ : Type} [Keyed ρ κ]

def empty : Table ρ := ⟨[], List.nodup_nil⟩

/-- The rows a predicate selects, in the order they were inserted. -/
def select (t : Table ρ) (p : ρ → Bool) : List ρ := t.rows.filter p

/-- Changes every row `p` selects. The change keeps the key. -/
def update (t : Table ρ) (p : ρ → Bool) (f : ρ → ρ) (hf : ∀ r, key (f r) = key r) : Table ρ where
  rows := t.rows.map fun r => if p r then f r else r
  nodup := by
    have h : (t.rows.map fun r => if p r then f r else r).map key = t.rows.map key := by
      rw [List.map_map]
      apply List.map_congr_left
      intro r _
      simp only [Function.comp]
      split
      · exact hf r
      · rfl
    rw [h]
    exact t.nodup

/-- A search for something the change keeps finds the same row, changed. -/
theorem rows_find?_update (t : Table ρ) (p : ρ → Bool) (f : ρ → ρ)
    (hf : ∀ r, key (f r) = key r) {q : ρ → Bool} (hq : ∀ r, p r = true → q (f r) = q r) :
    (t.update p f hf).rows.find? q = (t.rows.find? q).map fun r => if p r then f r else r := by
  simp only [update, List.find?_map]
  have h : (q ∘ fun r => if p r = true then f r else r) = q := by
    funext r
    simp only [Function.comp]
    split
    · rename_i hp
      exact hq r hp
    · rfl
  rw [h]

theorem mem_select {t : Table ρ} {p : ρ → Bool} {r : ρ} :
    r ∈ t.select p ↔ r ∈ t.rows ∧ p r = true := List.mem_filter

section Lookup

variable [DecidableEq κ]

/-- The row of a key. -/
def find? (t : Table ρ) (k : κ) : Option ρ := t.rows.find? fun r => key r = k

/-- Adds a row, unless its key is taken. -/
def insert? (t : Table ρ) (r : ρ) : Option (Table ρ) :=
  if h : key r ∈ t.rows.map key then none
  else some ⟨t.rows ++ [r], by
    rw [List.map_append, List.nodup_append]
    refine ⟨t.nodup, List.nodup_singleton _, ?_⟩
    intro a ha b hb e
    rw [List.map_singleton, List.mem_singleton] at hb
    subst hb
    subst e
    exact h ha⟩

/-- Removes the row of a key. -/
def remove (t : Table ρ) (k : κ) : Table ρ where
  rows := t.rows.filter fun r => key r ≠ k
  nodup := t.nodup.sublist (List.filter_sublist.map key)

/-- Changes the row of key `k` if it satisfies `p`, and returns it as it was changed. -/
def updateAt (t : Table ρ) (k : κ) (p : ρ → Bool) (f : ρ → ρ)
    (hf : ∀ r, key (f r) = key r) : Option ρ × Table ρ :=
  (((t.find? k).filter p).map f, t.update (fun r => key r = k && p r) f hf)

theorem key_of_find? {t : Table ρ} {k : κ} {r : ρ} (h : t.find? k = some r) : key r = k := by
  have := List.find?_some h
  simpa using this

theorem mem_of_find? {t : Table ρ} {k : κ} {r : ρ} (h : t.find? k = some r) : r ∈ t.rows :=
  List.mem_of_find?_eq_some h

/-- The key of a row finds that row. -/
theorem find?_key {t : Table ρ} {r : ρ} (h : r ∈ t.rows) : t.find? (key r) = some r := by
  obtain ⟨rows, nodup⟩ := t
  simp only [find?] at h ⊢
  induction rows with
  | nil => cases h
  | cons a rows ih =>
    rw [List.map_cons, List.nodup_cons] at nodup
    by_cases hk : key a = key r
    · rcases List.mem_cons.1 h with rfl | hr
      · simp
      · exact absurd (hk ▸ List.mem_map_of_mem hr) nodup.1
    · rw [List.find?_cons_of_neg (by simpa using hk)]
      refine ih nodup.2 ((List.mem_cons.1 h).resolve_left ?_)
      rintro rfl
      exact hk rfl

/-- A sum over the selected rows with one key has at most one term. -/
theorem sum_select_key {M : Type*} [AddMonoid M] (t : Table ρ) (p : ρ → Bool) (g : ρ → M) (k : κ) :
    ((t.select p).map fun r => if key r = k then g r else 0).sum =
      ((t.find? k).filter p).elim 0 g := by
  obtain ⟨rows, nodup⟩ := t
  simp only [find?, select]
  induction rows with
  | nil => rfl
  | cons a rows ih =>
    rw [List.map_cons, List.nodup_cons] at nodup
    have ih := ih nodup.2
    by_cases hk : key a = k
    · have hrest : ((rows.filter p).map fun r => if key r = k then g r else 0).sum = 0 := by
        refine List.sum_eq_zero fun x hx => ?_
        obtain ⟨r, hr, rfl⟩ := List.mem_map.1 hx
        have hne : key r ≠ k := fun he =>
          nodup.1 (hk.trans he.symm ▸ List.mem_map_of_mem (List.mem_of_mem_filter hr))
        exact if_neg hne
      rw [List.find?_cons_of_pos (by simpa using hk)]
      cases hp : p a with
      | true => simp [hp, hk, hrest, Option.filter]
      | false => simp [hp, hrest, Option.filter]
    · rw [List.find?_cons_of_neg (by simpa using hk), ← ih]
      cases hp : p a with
      | true => simp [hp, hk]
      | false => simp [hp]

theorem find?_update (t : Table ρ) (p : ρ → Bool) (f : ρ → ρ) (hf : ∀ r, key (f r) = key r)
    (k : κ) : (t.update p f hf).find? k = (t.find? k).map fun r => if p r then f r else r := by
  simp only [find?, update, List.find?_map]
  have h : ((fun r => decide (key r = k)) ∘ fun r => if p r = true then f r else r) =
      fun r => decide (key r = k) := by
    funext r
    simp only [Function.comp]
    split
    · rw [hf]
    · rfl
  rw [h]

/-- A change row by row that keeps the keys. -/
theorem find?_of_map {t t' : Table ρ} {f : ρ → ρ} (h : t'.rows = t.rows.map f)
    (hf : ∀ r, key (f r) = key r) (k : κ) : t'.find? k = (t.find? k).map f := by
  unfold find?
  rw [h, List.find?_map]
  refine congrArg (Option.map f) (congrArg (List.find? · _) (funext fun r => ?_))
  simp only [Function.comp, hf]

theorem find?_updateAt_self (t : Table ρ) (k : κ) (p : ρ → Bool) (f : ρ → ρ)
    (hf : ∀ r, key (f r) = key r) :
    (t.updateAt k p f hf).2.find? k = (t.find? k).map fun r => if p r then f r else r := by
  simp only [updateAt, find?_update]
  cases h : t.find? k with
  | none => rfl
  | some r => simp [key_of_find? h]

theorem find?_updateAt_other (t : Table ρ) {k k' : κ} (hk : k' ≠ k) (p : ρ → Bool) (f : ρ → ρ)
    (hf : ∀ r, key (f r) = key r) : (t.updateAt k p f hf).2.find? k' = t.find? k' := by
  simp only [updateAt, find?_update]
  cases h : t.find? k' with
  | none => rfl
  | some r => simp [key_of_find? h, hk]

theorem updateAt_eq_some {t : Table ρ} {k : κ} {p : ρ → Bool} {f : ρ → ρ}
    {hf : ∀ r, key (f r) = key r} {r' : ρ} :
    (t.updateAt k p f hf).1 = some r' ↔ ∃ r, t.find? k = some r ∧ p r = true ∧ r' = f r := by
  simp only [updateAt, Option.map_eq_some_iff, Option.filter_eq_some_iff]
  constructor
  · rintro ⟨r, ⟨h, hp⟩, rfl⟩
    exact ⟨r, h, hp, rfl⟩
  · rintro ⟨r, h, hp, rfl⟩
    exact ⟨r, ⟨h, hp⟩, rfl⟩

theorem updateAt_eq_none {t : Table ρ} {k : κ} {p : ρ → Bool} {f : ρ → ρ}
    {hf : ∀ r, key (f r) = key r} :
    (t.updateAt k p f hf).1 = none ↔ ∀ r, t.find? k = some r → p r = false := by
  simp only [updateAt, Option.map_eq_none_iff, Option.filter_eq_none_iff, Bool.not_eq_true]

/-- A change that finds no row leaves the table as it was. -/
theorem updateAt_same {t : Table ρ} {k : κ} {p : ρ → Bool} {f : ρ → ρ}
    {hf : ∀ r, key (f r) = key r} (h : ∀ r, t.find? k = some r → p r = false) :
    (t.updateAt k p f hf).2 = t := by
  obtain ⟨rows, nodup⟩ := t
  simp only [updateAt, update, mk.injEq]
  refine (List.map_congr_left fun r hr => if_neg ?_).trans (List.map_id rows)
  rw [Bool.and_eq_true]
  rintro ⟨hk, hp⟩
  have hfound := find?_key (t := ⟨rows, nodup⟩) hr
  rw [of_decide_eq_true hk] at hfound
  exact absurd hp (Bool.eq_false_iff.1 (h r hfound))

theorem find?_insert? {t t' : Table ρ} {r : ρ} (h : t.insert? r = some t') (k : κ) :
    t'.find? k = if key r = k then some r else t.find? k := by
  simp only [insert?] at h
  split at h
  · cases h
  · rename_i hr
    cases h
    simp only [find?, List.find?_append]
    by_cases hk : key r = k
    · subst hk
      have : t.rows.find? (fun r' => key r' = key r) = none := by
        rw [List.find?_eq_none]
        intro r' hr' e
        exact hr (List.mem_map.2 ⟨r', hr', by simpa using e⟩)
      simp [this]
    · simp [hk]

theorem insert?_fresh {t t' : Table ρ} {r : ρ} (h : t.insert? r = some t') :
    t.find? (key r) = none := by
  simp only [insert?] at h
  split at h
  · cases h
  · rename_i hr
    rw [find?, List.find?_eq_none]
    intro r' hr' e
    exact hr (List.mem_map.2 ⟨r', hr', by simpa using e⟩)

theorem find?_remove (t : Table ρ) (k k' : κ) :
    (t.remove k).find? k' = if k' = k then none else t.find? k' := by
  simp only [find?, remove, List.find?_filter]
  by_cases hk : k' = k
  · rw [if_pos hk, List.find?_eq_none]
    intro r _
    simp [hk]
  · rw [if_neg hk]
    refine congrArg (List.find? · _) (funext fun r => ?_)
    by_cases hr : key r = k'
    · simp [hr, hk]
    · simp [hr]

/-- A row whose key is free can be added. -/
theorem insert?_of_free {t : Table ρ} {r : ρ} (h : t.find? (key r) = none) :
    ∃ t', t.insert? r = some t' := by
  have hfree : key r ∉ t.rows.map key := by
    intro hmem
    obtain ⟨r', hr', hk⟩ := List.mem_map.1 hmem
    have := List.find?_eq_none.1 h r' hr'
    simp only [hk, decide_true, not_true_eq_false] at this
  simp only [insert?, hfree, dite_false]
  exact ⟨_, rfl⟩

end Lookup

end Table

end Relational
