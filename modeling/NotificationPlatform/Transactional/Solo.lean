import NotificationPlatform.Transactional.Store

/-!
# A transaction that runs alone

While no other transaction is open nothing has to wait, and what the one transaction sees is a table
like any other: an insert adds a row to it, an update changes rows of it, and what it sees when it
commits are the committed rows from then on.
-/

namespace Transactional

open Relational

variable {ρ κ ι : Type} [Keyed ρ κ] [Indexed ρ ι]

namespace Store

/-- No transaction is open. -/
def Idle (s : Store ρ) : Prop := ∀ t, s.opened t = none

/-- Transaction `t` is the only one. -/
structure Solo (s : Store ρ) (t : Nat) : Prop where
  isOpen : (s.opened t).isSome = true
  alone : ∀ t', t' ≠ t → s.opened t' = none

variable {s s' : Store ρ} {t : Nat}

theorem Solo.own_other (h : s.Solo t) {t' : Nat} (ht : t' ≠ t) : s.own t' = Table.empty := by
  simp only [Versions.own, h.alone t' ht, Option.getD_none]

theorem Solo.not_held (h : s.Solo t) (p : ρ → Bool) : s.held t p = false := by
  refine held_eq_false.2 fun t' ht r hr => ?_
  rw [h.own_other ht] at hr
  cases hr

theorem Idle.start (h : s.Idle) : s.start.2.Solo s.start.1 where
  isOpen := by simp [Store.start]
  alone := fun t' ht => by
    have hne : t' ≠ s.next := ht
    simp only [Store.start, Function.update_of_ne hne]
    exact h t'

@[simp] theorem committed_start : s.start.2.committed = s.committed := rfl

/-- After the end of the only transaction there is none. -/
theorem Ended.idle {committed : Table ρ} (h : Ended s s' t committed) (hs : s.Solo t) :
    s'.Idle := by
  intro t'
  rw [h.opened]
  by_cases ht : t' = t
  · subst ht
    exact Function.update_self _ _ _
  · rw [Function.update_of_ne ht]
    exact hs.alone t' ht

section Reading

variable [DecidableEq κ]

theorem view_start : s.start.2.view s.start.1 = s.committed := by
  have hown : s.start.2.own s.start.1 = Table.empty := by
    simp [Store.start, Versions.own]
  rw [view, hown, overlay_empty]
  rfl

theorem Wrote.solo {rows : Table ρ} (h : Wrote s s' t rows) (hs : s.Solo t) : s'.Solo t where
  isOpen := by
    rw [h.opened, Function.update_self]
    rfl
  alone := fun t' ht => by
    rw [h.opened, Function.update_of_ne ht]
    exact hs.alone t' ht

/-- What a transaction sees after it wrote `rows`: those, and what it saw before of other rows. -/
theorem Wrote.mem_view {rows : Table ρ} (h : Wrote s s' t rows) {r : ρ} :
    r ∈ (s'.view t).rows ↔
      (r ∈ (s.view t).rows ∧ ∀ r' ∈ rows.rows, key r' ≠ key r) ∨ r ∈ rows.rows := by
  simp only [Store.mem_view, h.committed, h.own, mem_overlay]
  constructor
  · rintro (⟨hr, hk⟩ | ⟨hr, hk⟩ | hr)
    · refine .inl ⟨.inl ⟨hr, fun r' hr' hkey => ?_⟩, fun r' hr' => hk r' (.inr hr')⟩
      by_cases hw : ∃ r₁ ∈ rows.rows, key r₁ = key r'
      · obtain ⟨r₁, hr₁, hk₁⟩ := hw
        exact hk r₁ (.inr hr₁) (hk₁.trans hkey)
      · refine hk r' (.inl ⟨hr', fun r₁ hr₁ hk₁ => hw ⟨r₁, hr₁, hk₁⟩⟩) hkey
    · exact .inl ⟨.inr hr, hk⟩
    · exact .inr hr
  · rintro (⟨⟨hr, hk⟩ | hr, hw⟩ | hr)
    · refine .inl ⟨hr, ?_⟩
      rintro r' (⟨hr', -⟩ | hr')
      · exact hk r' hr'
      · exact hw r' hr'
    · exact .inr (.inl ⟨hr, hw⟩)
    · exact .inr (.inr hr)

/-- A row inserted with nothing in its way. -/
theorem mem_view_inserted [DecidableEq ι] {r₀ : ρ} (h : Wrote s s' t (one r₀))
    (hc : ∀ holder, ∀ r' ∈ (s.of holder).rows, clash r₀ r' = false) {r : ρ} :
    r ∈ (s'.view t).rows ↔ r ∈ (s.view t).rows ∨ r = r₀ := by
  rw [h.mem_view]
  constructor
  · rintro (⟨hr, -⟩ | hr)
    · exact .inl hr
    · exact .inr (List.mem_singleton.1 hr)
  · rintro (hr | rfl)
    · refine .inl ⟨hr, fun r' hr' hk => ?_⟩
      obtain ⟨holder, hh, -⟩ := of_mem_view hr
      rw [List.mem_singleton.1 hr'] at hk
      exact (clash_eq_false.1 (hc holder r hh)).1 hk.symm
    · exact .inr (List.mem_singleton.2 rfl)

/-- Rows in sight that were changed. -/
theorem mem_view_changed {p : ρ → Bool} {f : ρ → ρ} {hf : ∀ r, key (f r) = key r}
    (h : Wrote s s' t (changed (s.view t) p f hf)) {r : ρ} :
    r ∈ (s'.view t).rows ↔ ∃ r₀ ∈ (s.view t).rows, r = if p r₀ then f r₀ else r₀ := by
  have hkey : ∀ r₁ ∈ (s.view t).rows, ∀ r₂ ∈ (s.view t).rows, key r₁ = key r₂ → r₁ = r₂ :=
    fun r₁ hr₁ r₂ hr₂ hk => List.inj_on_of_nodup_map (s.view t).nodup hr₁ hr₂ hk
  rw [h.mem_view]
  constructor
  · rintro (⟨hr, hw⟩ | hr)
    · refine ⟨r, hr, ?_⟩
      by_cases hp : p r = true
      · exact absurd (hf r) (hw (f r) (List.mem_map_of_mem (Table.mem_select.2 ⟨hr, hp⟩)))
      · rw [if_neg hp]
    · obtain ⟨r₀, hr₀, rfl⟩ := List.mem_map.1 hr
      obtain ⟨hr₀, hp⟩ := Table.mem_select.1 hr₀
      exact ⟨r₀, hr₀, by rw [if_pos hp]⟩
  · rintro ⟨r₀, hr₀, rfl⟩
    by_cases hp : p r₀ = true
    · rw [if_pos hp]
      exact .inr (List.mem_map_of_mem (Table.mem_select.2 ⟨hr₀, hp⟩))
    · rw [if_neg hp]
      refine .inl ⟨hr₀, fun r' hr' hk => ?_⟩
      obtain ⟨r₁, hr₁, rfl⟩ := List.mem_map.1 hr'
      obtain ⟨hr₁, hp₁⟩ := Table.mem_select.1 hr₁
      rw [hf r₁] at hk
      cases hkey r₁ hr₁ r₀ hr₀ hk
      exact hp hp₁

/-- An insert whose key is free has an answer. -/
theorem Solo.inserts [DecidableEq ι] (hs : s.Solo t) {r : ρ}
    (hkey : ∀ r' ∈ (s.view t).rows, key r' ≠ key r) : ∃ b s', s.insert t r = some (b, s') := by
  have hheld := hs.not_held (clash r)
  unfold Store.insert
  rw [dif_pos hs.isOpen, dif_neg (by rw [hheld]; simp)]
  split
  · rename_i hclash
    -- what is in the way has the unique value
    obtain ⟨r', hr', hc⟩ := List.any_eq_true.1 hclash
    simp only [clash, decide_eq_true_eq] at hc
    obtain ⟨hsome, hi⟩ := hc.resolve_left (hkey r' hr')
    rw [if_pos ⟨hsome, List.any_eq_true.2 ⟨r', hr', by simp [hi]⟩⟩]
    exact ⟨_, _, rfl⟩
  · exact ⟨_, _, rfl⟩

/-- An insert with nothing in its way inserts its row. -/
theorem Solo.insert_free [DecidableEq ι] (hs : s.Solo t) {r : ρ}
    (hfree : ∀ r' ∈ (s.view t).rows, clash r r' = false) : ∃ s', s.insert t r = some (true, s') := by
  obtain ⟨b, s', hs'⟩ := hs.inserts fun r' hr' => (clash_eq_false.1 (hfree r' hr')).1
  rcases insert_cases hs' with ⟨rfl, -⟩ | ⟨-, -, -, hsome, r', hr', hi⟩
  · exact ⟨s', hs'⟩
  · obtain ⟨x, hx⟩ := Option.isSome_iff_exists.1 hsome
    exact absurd (hi.trans hx) ((clash_eq_false.1 (hfree r' hr')).2 x hx)

/-- An update has an answer. -/
theorem Solo.updates (hs : s.Solo t) (p : ρ → Bool) (f : ρ → ρ) (hf : ∀ r, key (f r) = key r)
    (hi : ∀ r, index (f r) = index r) : ∃ rows s', s.update t p f hf hi = some (rows, s') := by
  unfold Store.update
  rw [dif_pos hs.isOpen, dif_pos fun r _ => hs.not_held _]
  exact ⟨_, _, rfl⟩

/-- The only transaction can commit. -/
theorem Solo.commits (hs : s.Solo t) :
    ∃ s', s.commit t = some s' ∧ s'.Idle ∧ s'.committed = s.view t := by
  obtain ⟨own, ho⟩ := Option.isSome_iff_exists.1 hs.isOpen
  have hsome : (s.commit t).isSome = true := by
    unfold Store.commit
    split
    · rename_i h
      rw [h] at ho
      cases ho
    · rfl
  obtain ⟨s', hs'⟩ := Option.isSome_iff_exists.1 hsome
  have hended := commit_some hs'
  exact ⟨s', hs', hended.idle hs, hended.committed⟩

end Reading

end Store

end Transactional
