import Mathlib.Data.List.Sort
import NotificationPlatform.Relational.Table

/-!
# Bounded batches in order

A statement that selects, sorts and limits takes the first rows of a line. The more rows stand in the
line the fewer of the others are taken: what a batch of a longer line takes, a batch of a shorter
one takes as well. A line keeps the order in which those that tie arrived, and depends on nothing
else of that order (`insertionSort_eq_iff`).
-/

namespace Relational

variable {α : Type} {r : α → α → Prop} [DecidableRel r]

theorem filter_orderedInsert_pos [IsTrans α r] {p : α → Bool} {a : α} (ha : p a = true)
    {l : List α} (hl : l.Pairwise r) :
    (l.orderedInsert r a).filter p = (l.filter p).orderedInsert r a := by
  induction l with
  | nil => simp [ha]
  | cons b l ih =>
    obtain ⟨hb, hl⟩ := List.pairwise_cons.1 hl
    by_cases hab : r a b
    · rw [List.orderedInsert_cons_of_le r l hab, List.filter_cons_of_pos ha]
      -- whatever is left of the line still stands behind `a`
      have hfirst : ∀ c ∈ (b :: l).filter p, r a c := by
        intro c hc
        rcases List.mem_cons.1 (List.mem_of_mem_filter hc) with rfl | hc
        · exact hab
        · exact IsTrans.trans _ _ _ hab (hb c hc)
      cases hrest : (b :: l).filter p with
      | nil => rfl
      | cons c rest =>
        rw [hrest] at hfirst
        exact (List.orderedInsert_cons_of_le r rest (hfirst c List.mem_cons_self)).symm
    · rw [List.orderedInsert_of_not_le r l hab]
      cases hp : p b with
      | true =>
        rw [List.filter_cons_of_pos hp, List.filter_cons_of_pos hp, ih hl,
          List.orderedInsert_of_not_le r _ hab]
      | false =>
        rw [List.filter_cons_of_neg (by simp [hp]), List.filter_cons_of_neg (by simp [hp]), ih hl]

theorem filter_orderedInsert_neg {p : α → Bool} {a : α} (ha : p a = false) (l : List α) :
    (l.orderedInsert r a).filter p = l.filter p := by
  induction l with
  | nil => simp [ha]
  | cons b l ih =>
    by_cases hab : r a b
    · rw [List.orderedInsert_cons_of_le r l hab, List.filter_cons_of_neg (by simp [ha])]
    · rw [List.orderedInsert_of_not_le r l hab, List.filter_cons, List.filter_cons, ih]

/-- Those who leave a line do not change the order of the others. -/
theorem filter_insertionSort [Std.Total r] [IsTrans α r] (p : α → Bool) (l : List α) :
    (l.insertionSort r).filter p = (l.filter p).insertionSort r := by
  induction l with
  | nil => rfl
  | cons a l ih =>
    rw [List.insertionSort_cons]
    cases ha : p a with
    | true =>
      rw [filter_orderedInsert_pos ha (List.pairwise_insertionSort r l), ih,
        List.filter_cons_of_pos ha, List.insertionSort_cons]
    | false =>
      rw [filter_orderedInsert_neg ha, ih, List.filter_cons_of_neg (by simp [ha])]

theorem mem_take_filter {p : α → Bool} {l : List α} {k : ℕ} {a : α} (h : a ∈ l.take k)
    (ha : p a = true) : a ∈ (l.filter p).take k := by
  have hsplit : l.filter p = (l.take k).filter p ++ (l.drop k).filter p := by
    rw [← List.filter_append, List.take_append_drop]
  have hlength : ((l.take k).filter p).length ≤ k :=
    (List.length_filter_le _ _).trans (List.length_take_le k l)
  have hprefix : (l.take k).filter p <+: (l.filter p).take k := by
    rw [hsplit, List.take_append, List.take_of_length_le hlength]
    exact List.prefix_append _ _
  exact hprefix.subset (List.mem_filter.2 ⟨h, ha⟩)

/-- A batch takes whatever a batch of a longer line takes. -/
theorem mem_batch_of_longer [Std.Total r] [IsTrans α r] {p q : α → Bool} {l : List α}
    (hpq : ∀ a ∈ l, p a = true → q a = true) {k : ℕ} {a : α} (ha : p a = true)
    (h : a ∈ ((l.filter q).insertionSort r).take k) :
    a ∈ ((l.filter p).insertionSort r).take k := by
  have hboth : (l.filter q).filter p = l.filter p := by
    rw [List.filter_filter]
    refine List.filter_congr fun b hb => ?_
    cases hp : p b with
    | true => rw [hpq b hb hp, Bool.and_self]
    | false => rw [Bool.false_and]
  rw [← hboth, ← filter_insertionSort]
  exact mem_take_filter h ha

/-! ## Ties -/

/-- Of two members of a list without duplicates, one stands first. -/
theorem pair_sublist_or {l : List α} {a b : α} (ha : a ∈ l) (hb : b ∈ l) (hne : a ≠ b) :
    [a, b].Sublist l ∨ [b, a].Sublist l := by
  induction l with
  | nil => exact absurd ha List.not_mem_nil
  | cons c l ih =>
    rcases List.mem_cons.1 ha with rfl | ha'
    · have hb' := (List.mem_cons.1 hb).resolve_left (Ne.symm hne)
      exact .inl ((List.singleton_sublist.2 hb').cons_cons _)
    · rcases List.mem_cons.1 hb with rfl | hb'
      · exact .inr ((List.singleton_sublist.2 ha').cons_cons _)
      · exact (ih ha' hb').imp (·.cons _) (·.cons _)

theorem pair_sublist_asymm {l : List α} (hl : l.Nodup) {a b : α} (h : [a, b].Sublist l) :
    ¬ [b, a].Sublist l := by
  induction l with
  | nil => exact absurd h (by simp)
  | cons c l ih =>
    intro h'
    obtain ⟨hc, hl⟩ := List.nodup_cons.1 hl
    cases h with
    | cons _ h =>
      cases h' with
      | cons _ h' => exact ih hl h h'
      | cons_cons _ h' => exact hc (h.subset (List.mem_cons_of_mem _ List.mem_cons_self))
    | cons_cons _ h =>
      cases h' with
      | cons _ h' => exact hc (h'.subset (List.mem_cons_of_mem _ List.mem_cons_self))
      | cons_cons _ h' => exact hc (List.singleton_sublist.1 h)

/-- Lists of the same members are equal if any two members stand in one order. -/
theorem eq_of_pair_sublist {l l' : List α} (h : l.Perm l') (hl : l'.Nodup)
    (hpairs : ∀ a b, [a, b].Sublist l → [a, b].Sublist l') : l = l' := by
  have hasymm : ∀ a b, a ∈ l → b ∈ l' → [a, b].Sublist l' → [b, a].Sublist l' → a = b :=
    fun a b _ _ hab hba => absurd hba (pair_sublist_asymm hl hab)
  exact List.Perm.eq_of_pairwise hasymm
    (List.pairwise_iff_forall_sublist.2 fun {a b} hab => hpairs a b hab)
    (List.pairwise_iff_forall_sublist.2 fun {a b} hab => hab) h

/-- **A stable sort depends on the order of ties only.** -/
theorem insertionSort_eq_iff [Std.Total r] [IsTrans α r] {l l' : List α} (h : l.Perm l')
    (hl : l.Nodup) : l.insertionSort r = l'.insertionSort r ↔
      ∀ a b, r a b → r b a → [a, b].Sublist l → [a, b].Sublist l' := by
  have hl' := h.nodup hl
  have hsorted : ∀ l : List α, l.Nodup → (l.insertionSort r).Nodup := fun l hl =>
    (List.perm_insertionSort r l).nodup_iff.2 hl
  -- ties stand in a sorted list as they stood before
  have hties : ∀ {l : List α}, l.Nodup → ∀ {a b}, r a b → r b a →
      ([a, b].Sublist (l.insertionSort r) ↔ [a, b].Sublist l) := by
    intro l hl a b hab hba
    refine ⟨fun hs => ?_, List.pair_sublist_insertionSort hab⟩
    have hne : a ≠ b := by
      rintro rfl
      exact absurd hs (pair_sublist_asymm (hsorted l hl) hs)
    have hmem : ∀ c ∈ [a, b], c ∈ l := fun c hc =>
      (List.mem_insertionSort r).1 (hs.subset hc)
    rcases pair_sublist_or (hmem a (by simp)) (hmem b (by simp)) hne with hs' | hs'
    · exact hs'
    · exact absurd (List.pair_sublist_insertionSort hba hs')
        (pair_sublist_asymm (hsorted l hl) hs)
  constructor
  · intro heq a b hab hba hs
    rw [← hties hl' hab hba, ← heq]
    exact (hties hl hab hba).2 hs
  · intro hpairs
    have hperm := (List.perm_insertionSort r l).trans (h.trans (List.perm_insertionSort r l').symm)
    refine eq_of_pair_sublist hperm (hsorted l' hl') fun a b hs => ?_
    have hab : r a b := List.pairwise_iff_forall_sublist.1 (List.pairwise_insertionSort r l) hs
    by_cases hba : r b a
    · exact (hties hl' hab hba).2 (hpairs a b hab hba ((hties hl hab hba).1 hs))
    · have hne : a ≠ b := by
        rintro rfl
        exact hba hab
      have hmem : ∀ c ∈ [a, b], c ∈ l'.insertionSort r := fun c hc => hperm.subset (hs.subset hc)
      rcases pair_sublist_or (hmem a (by simp)) (hmem b (by simp)) hne with hs' | hs'
      · exact hs'
      · exact absurd (List.pairwise_iff_forall_sublist.1 (List.pairwise_insertionSort r l') hs') hba

end Relational
