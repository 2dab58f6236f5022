import Mathlib.Data.List.Basic

/-!
# The last segment of a text

A separator cuts a text into segments. `reduce` keeps the last of them, and the whole text where the
last is empty, so that nothing is ever reduced to the empty text but itself. What reduces to a text
`r` without separators is `r`, and every text that ends in `r` after a separator.
-/

namespace Segments

variable {α : Type} [BEq α] [LawfulBEq α] {sep : α} {text segment : List α}

/-! ## Segments -/

theorem not_mem_of_mem_splitOn (h : segment ∈ text.splitOn sep) : sep ∉ segment := by
  induction text generalizing segment with
  | nil =>
    obtain rfl : segment = [] := by simpa using h
    exact List.not_mem_nil
  | cons c text ih =>
    rw [List.splitOn_cons_eq_if_modifyHead] at h
    split at h
    · rcases List.mem_cons.1 h with rfl | h
      · exact List.not_mem_nil
      · exact ih h
    · rename_i hc
      obtain ⟨first, rest, hsplit⟩ := List.exists_cons_of_ne_nil (List.splitOn_ne_nil sep text)
      rw [hsplit, List.modifyHead_cons] at h
      rcases List.mem_cons.1 h with rfl | h
      · have hfirst : sep ∉ first := ih (hsplit ▸ List.mem_cons_self)
        simp only [List.mem_cons, not_or]
        exact ⟨fun heq => hc (by simp [heq]), hfirst⟩
      · exact ih (hsplit ▸ List.mem_cons_of_mem _ h)

/-- What follows the last separator. -/
def last (sep : α) (text : List α) : List α :=
  (text.splitOn sep).getLast (List.splitOn_ne_nil sep text)

theorem not_mem_last : sep ∉ last sep text := not_mem_of_mem_splitOn (List.getLast_mem _)

theorem last_of_not_mem (h : sep ∉ text) : last sep text = text := by
  simp only [last, List.splitOn_eq_singleton h, List.getLast_singleton]

theorem last_append_cons (p text : List α) : last sep (p ++ sep :: text) = last sep text := by
  simp only [last, List.splitOn_append_cons_self]
  rw [List.getLast_append_of_ne_nil _ (List.splitOn_ne_nil sep text)]

/-- A text is its last segment, or ends in it after a separator. -/
theorem eq_last_or (sep : α) (text : List α) :
    text = last sep text ∨ ∃ p, text = p ++ sep :: last sep text := by
  by_cases hmem : sep ∈ text
  · right
    -- the first separator from the end is the last one
    obtain ⟨after, before, hsplit, hafter⟩ := List.eq_append_cons_of_mem (List.mem_reverse.2 hmem)
    have htext : text = before.reverse ++ sep :: after.reverse := by
      have := congrArg List.reverse hsplit
      simpa using this
    have hlast : last sep text = after.reverse := by
      rw [htext, last_append_cons, last_of_not_mem (by simpa using hafter)]
    exact ⟨before.reverse, by rw [hlast, ← htext]⟩
  · exact .inl (last_of_not_mem hmem).symm

/-! ## Reduction -/

/-- The last segment of a text; the text itself, where that is empty. -/
def reduce (sep : α) (text : List α) : List α :=
  if (last sep text).isEmpty then text else last sep text

theorem reduce_of_not_mem (h : sep ∉ text) : reduce sep text = text := by
  rw [reduce, last_of_not_mem h, ite_self]

theorem reduce_append_cons {r : List α} (hr : r ≠ []) (hsep : sep ∉ r) (p : List α) :
    reduce sep (p ++ sep :: r) = r := by
  have hlast : last sep (p ++ sep :: r) = r := (last_append_cons p r).trans (last_of_not_mem hsep)
  rw [reduce, hlast, if_neg (by simpa using hr)]

/-- What was reduced is reduced no further. -/
theorem reduce_idem (sep : α) (text : List α) : reduce sep (reduce sep text) = reduce sep text := by
  by_cases hempty : (last sep text).isEmpty
  · have hself : reduce sep text = text := if_pos hempty
    rw [hself, hself]
  · have hlast : reduce sep text = last sep text := if_neg hempty
    rw [hlast, reduce_of_not_mem not_mem_last]

/-- **What reduces to `r`**: the text itself, and the texts that end in it after a separator. -/
theorem reduce_eq_iff {r : List α} (hr : r ≠ []) (hsep : sep ∉ r) :
    reduce sep text = r ↔ text = r ∨ ∃ p, text = p ++ sep :: r := by
  constructor
  · intro h
    by_cases hempty : (last sep text).isEmpty
    · exact .inl ((if_pos hempty).symm.trans h)
    · have hlast : last sep text = r := (if_neg hempty).symm.trans h
      exact hlast ▸ eq_last_or sep text
  · rintro (rfl | ⟨p, rfl⟩)
    · exact reduce_of_not_mem hsep
    · exact reduce_append_cons hr hsep p

end Segments
