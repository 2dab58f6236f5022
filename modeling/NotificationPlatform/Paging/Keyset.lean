import Mathlib.Data.List.Basic

/-!
# Keyset pagination

A list is read in pages of at most `limit` items. A page that more items follow names its last item,
and the next page is read from the items that are `after` that one. `reads_iff` says when nothing is
lost: at every boundary between two pages all that follows has to be after the item before.
-/

namespace Paging

variable {α : Type*} (limit : Nat) (after : α → α → Bool)

/-- The items that are read where these are left, page by page. -/
inductive Reads : List α → List α → Prop where
  | last {left : List α} (short : left.length ≤ limit) : Reads left left
  | more {left rest : List α} {final : α} (long : limit < left.length)
      (final_eq : (left.take limit).getLast? = some final)
      (reads : Reads ((left.drop limit).filter (after final)) rest) :
      Reads left (left.take limit ++ rest)

/-- At each boundary between two pages what follows is after the item before. -/
def Gapless (left : List α) : Prop :=
  ∀ k final, left[(k + 1) * limit - 1]? = some final →
    ∀ x ∈ left.drop ((k + 1) * limit), after final x = true

variable {limit after}

theorem getLast?_take {left : List α} (hlimit : 0 < limit) (h : limit < left.length) :
    (left.take limit).getLast? = left[limit - 1]? := by
  rw [List.getLast?_eq_getElem?, List.length_take, Nat.min_eq_left (Nat.le_of_lt h),
    List.getElem?_take_of_lt (Nat.sub_one_lt (Nat.ne_of_gt hlimit))]

/-- Reading comes to an end. -/
theorem exists_reads (hlimit : 0 < limit) (left : List α) :
    ∃ items, Reads limit after left items := by
  induction hn : left.length using Nat.strongRecOn generalizing left with
  | ind n ih =>
    rcases Nat.lt_or_ge limit left.length with hlong | hshort
    · have hfinal := getLast?_take hlimit hlong
      obtain ⟨final, hget⟩ : ∃ final, left[limit - 1]? = some final :=
        ⟨_, List.getElem?_eq_getElem (by omega)⟩
      have hshorter : ((left.drop limit).filter (after final)).length < n := by
        refine Nat.lt_of_le_of_lt (List.length_filter_le _ _) ?_
        rw [List.length_drop]
        omega
      obtain ⟨rest, hrest⟩ := ih _ hshorter _ rfl
      exact ⟨_, .more hlong (hfinal.trans hget) hrest⟩
    · exact ⟨left, .last hshort⟩

/-- There is one way to read. -/
theorem Reads.unique {left items items' : List α} (h : Reads limit after left items)
    (h' : Reads limit after left items') : items = items' := by
  induction h generalizing items' with
  | last short =>
    cases h' with
    | last => rfl
    | more long => exact absurd long (Nat.not_lt.2 short)
  | more long final_eq _ ih =>
    cases h' with
    | last short => exact absurd long (Nat.not_lt.2 short)
    | more _ final_eq' reads =>
      rw [final_eq] at final_eq'
      obtain rfl := Option.some.inj final_eq'
      rw [ih reads]

/-- Nothing is read twice, nor out of order. -/
theorem Reads.sublist {left items : List α} (h : Reads limit after left items) :
    items.Sublist left := by
  induction h with
  | last => exact List.Sublist.refl _
  | more _ _ _ ih =>
    have hrest := ih.trans List.filter_sublist
    exact (List.Sublist.append_left hrest _).trans (List.take_append_drop _ _ ▸ List.Sublist.refl _)

/-- The first boundary and the others. -/
theorem gapless_iff {left : List α} {final : α} (hlimit : 0 < limit) (h : limit < left.length)
    (hfinal : (left.take limit).getLast? = some final) : Gapless limit after left ↔
      (∀ x ∈ left.drop limit, after final x = true) ∧ Gapless limit after (left.drop limit) := by
  rw [getLast?_take hlimit h] at hfinal
  have hindex : ∀ k, (k + 1 + 1) * limit - 1 = limit + ((k + 1) * limit - 1) := by
    intro k
    have hmul : (k + 1 + 1) * limit = limit + (k + 1) * limit := by
      rw [Nat.succ_mul (k + 1), Nat.add_comm]
    have hpos : 0 < (k + 1) * limit := Nat.mul_pos (Nat.succ_pos k) hlimit
    omega
  have hdrop : ∀ k, left.drop ((k + 1 + 1) * limit) = (left.drop limit).drop ((k + 1) * limit) := by
    intro k
    rw [List.drop_drop, Nat.succ_mul (k + 1), Nat.add_comm]
  constructor
  · intro hall
    have hfirst := hall 0 final
    rw [Nat.zero_add, Nat.one_mul] at hfirst
    refine ⟨hfirst hfinal, fun k last hlast => ?_⟩
    rw [← hdrop]
    refine hall (k + 1) last ?_
    rw [hindex, ← List.getElem?_drop]
    exact hlast
  · rintro ⟨hfirst, hrest⟩ k last hlast
    cases k with
    | zero =>
      rw [Nat.zero_add, Nat.one_mul, hfinal] at hlast
      obtain rfl := Option.some.inj hlast
      rw [Nat.zero_add, Nat.one_mul]
      exact hfirst
    | succ k =>
      rw [hindex, ← List.getElem?_drop] at hlast
      rw [hdrop]
      exact hrest k last hlast

/-- **All is read exactly if no boundary loses anything.** -/
theorem reads_iff {left items : List α} (hlimit : 0 < limit) (h : Reads limit after left items) :
    items = left ↔ Gapless limit after left := by
  induction h with
  | @last left short =>
    refine ⟨fun _ k final _ x hx => ?_, fun _ => rfl⟩
    have hle : limit ≤ (k + 1) * limit := Nat.le_mul_of_pos_left limit (Nat.succ_pos k)
    rw [List.drop_of_length_le (Nat.le_trans short hle)] at hx
    cases hx
  | @more left rest final long final_eq reads ih =>
    rw [gapless_iff hlimit long final_eq]
    have hall : (left.drop limit).filter (after final) = left.drop limit ↔
        ∀ x ∈ left.drop limit, after final x = true := List.filter_eq_self
    constructor
    · intro heq
      have hrest : rest = left.drop limit :=
        List.append_cancel_left (heq.trans (List.take_append_drop limit left).symm)
      have hfilter : (left.drop limit).filter (after final) = left.drop limit :=
        List.filter_sublist.antisymm (hrest ▸ reads.sublist)
      rw [hfilter] at ih
      exact ⟨hall.1 hfilter, ih.1 hrest⟩
    · rintro ⟨hfirst, hlater⟩
      have hfilter := hall.2 hfirst
      rw [hfilter] at ih
      rw [ih.2 hlater, List.take_append_drop]

end Paging
