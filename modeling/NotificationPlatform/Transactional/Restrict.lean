import NotificationPlatform.Transactional.Store

/-!
# Part of the rows

A store restricted to the rows a predicate selects. Where all versions of one row are selected
together, restriction commutes with what transactions do: a statement that touches selected rows only
does the same to what is left of the store, and one that touches none does nothing to it.
-/

namespace Relational

/-- The rows `p` selects. -/
def Table.restrict {ρ κ : Type} [Keyed ρ κ] (t : Table ρ) (p : ρ → Bool) : Table ρ :=
  ⟨t.rows.filter p, t.nodup.sublist (List.filter_sublist.map _)⟩

end Relational

namespace Transactional

open Relational

variable {ρ κ ι γ : Type} [Keyed ρ κ]

/-! ## Tables -/

section Tables

variable {t : Table ρ} {p : ρ → Bool} {r : ρ}

theorem mem_restrict : r ∈ (t.restrict p).rows ↔ r ∈ t.rows ∧ p r = true := List.mem_filter

@[simp] theorem empty_restrict (p : ρ → Bool) : (Table.empty : Table ρ).restrict p = .empty := rfl

theorem Table.ext {t t' : Table ρ} (h : t.rows = t'.rows) : t = t' := by
  cases t
  cases t'
  cases h
  rfl

theorem restrict_of_all (h : ∀ r ∈ t.rows, p r = true) : t.restrict p = t :=
  Table.ext (List.filter_eq_self.2 h)

theorem restrict_of_none (h : ∀ r ∈ t.rows, p r = false) : t.restrict p = .empty :=
  Table.ext (List.filter_eq_nil_iff.2 fun r hr => by simp [h r hr])

variable [DecidableEq κ]

/-- If the versions of one row are selected together, so are those in front and those behind. -/
theorem overlay_restrict {base own : Table ρ}
    (h : ∀ r ∈ base.rows, ∀ r' ∈ own.rows, key r = key r' → p r = p r') :
    overlay (base.restrict p) (own.restrict p) = (overlay base own).restrict p := by
  apply Table.ext
  simp only [overlay, Table.restrict, List.filter_append, List.filter_filter]
  congr 1
  refine List.filter_congr fun r hr => ?_
  by_cases hp : p r = true
  · have hiff : key r ∈ (own.rows.filter p).map key ↔ key r ∈ own.rows.map key := by
      constructor
      · exact fun hmem => (List.filter_sublist.map _).subset hmem
      · intro hmem
        obtain ⟨r', hr', hkey⟩ := List.mem_map.1 hmem
        exact List.mem_map.2 ⟨r', List.mem_filter.2 ⟨hr', h r hr r' hr' hkey.symm ▸ hp⟩, hkey⟩
    simp [hp, hiff]
  · simp [hp]

end Tables

/-! ## Stores -/

variable [Indexed ρ ι]

/-- The versions of one row agree on `f`. -/
def Versions.Agree (v : Versions ρ) (f : ρ → γ) : Prop :=
  ∀ {h h' r r'}, r ∈ (v.of h).rows → r' ∈ (v.of h').rows → key r = key r' → f r = f r'

namespace Store

theorem ext {s s' : Store ρ} (hcommitted : s.committed = s'.committed)
    (hopened : s.opened = s'.opened) (hnext : s.next = s'.next) : s = s' := by
  obtain ⟨⟨committed, opened, next⟩, coherent⟩ := s
  obtain ⟨⟨committed', opened', next'⟩, coherent'⟩ := s'
  cases hcommitted
  cases hopened
  cases hnext
  rfl

/-- The versions `p` selects. -/
def restrict (s : Store ρ) (p : ρ → Bool) : Store ρ where
  committed := s.committed.restrict p
  opened t := (s.opened t).map (·.restrict p)
  next := s.next
  coherent := by
    have hof : ∀ holder r, r ∈ ((⟨s.committed.restrict p, fun t => (s.opened t).map (·.restrict p),
        s.next⟩ : Versions ρ).of holder).rows → r ∈ (s.of holder).rows := by
      intro holder r hr
      cases holder with
      | none => exact (mem_restrict.1 hr).1
      | some t =>
        simp only [Versions.of, Versions.own] at hr ⊢
        cases ho : s.opened t with
        | none => simp [ho, Table.empty] at hr
        | some own =>
          rw [ho] at hr
          exact (mem_restrict.1 hr).1
    exact {
      bounded := fun t ht => by simp only [s.coherent.bounded t ht, Option.map_none]
      stable := fun hr hr' => s.coherent.stable (hof _ _ hr) (hof _ _ hr')
      unique := fun hr hr' => s.coherent.unique (hof _ _ hr) (hof _ _ hr')
      exclusive := fun {t} {t'} {r} {r'} hr hr' =>
        s.coherent.exclusive (hof (some t) r hr) (hof (some t') r' hr') }

section Restrict

variable {s s' : Store ρ} {p : ρ → Bool} {t : Nat}

@[simp] theorem committed_restrict : (s.restrict p).committed = s.committed.restrict p := rfl

@[simp] theorem opened_restrict :
    (s.restrict p).opened t = (s.opened t).map (·.restrict p) := rfl

@[simp] theorem next_restrict : (s.restrict p).next = s.next := rfl

@[simp] theorem own_restrict : (s.restrict p).own t = (s.own t).restrict p := by
  simp only [Versions.own, opened_restrict]
  cases s.opened t <;> rfl

@[simp] theorem of_restrict {holder : Option Nat} :
    (s.restrict p).of holder = (s.of holder).restrict p := by
  cases holder with
  | none => rfl
  | some t => exact own_restrict

theorem isSome_opened_restrict : ((s.restrict p).opened t).isSome = (s.opened t).isSome := by
  rw [opened_restrict, Option.isSome_map]

theorem start_restrict : (s.restrict p).start = (s.start.1, s.start.2.restrict p) := by
  refine Prod.ext rfl (ext rfl ?_ rfl)
  funext t
  by_cases ht : t = s.next
  · subst ht
    simp [start, restrict, Table.empty]
    rfl
  · simp [start, restrict, Function.update_of_ne ht]

theorem held_restrict {q : ρ → Bool} (h : ∀ t', t' ≠ t → ∀ r ∈ (s.own t').rows, q r = true →
    p r = true) : (s.restrict p).held t q = s.held t q := by
  unfold held
  rw [next_restrict]
  refine Bool.eq_iff_iff.2 ?_
  simp only [List.any_eq_true, List.mem_range, Bool.and_eq_true, decide_eq_true_eq, own_restrict,
    mem_restrict]
  constructor
  · rintro ⟨t', hlt, hne, r, ⟨hr, -⟩, hq⟩
    exact ⟨t', hlt, hne, r, hr, hq⟩
  · rintro ⟨t', hlt, hne, r, hr, hq⟩
    exact ⟨t', hlt, hne, r, ⟨hr, h t' hne r hr hq⟩, hq⟩

theorem Ended.restrict {committed : Table ρ} (h : Ended s s' t committed) :
    Ended (s.restrict p) (s'.restrict p) t (committed.restrict p) where
  isOpen := by rw [isSome_opened_restrict]; exact h.isOpen
  committed := by rw [committed_restrict, h.committed]
  opened := by
    funext t'
    by_cases ht : t' = t
    · subst ht
      simp [h.opened]
    · simp [h.opened, Function.update_of_ne ht]
  next := h.next

/-- Two ends of a transaction that leave the same committed rows are one. -/
theorem Ended.unique {s₁ s₂ : Store ρ} {committed : Table ρ} (h₁ : Ended s s₁ t committed)
    (h₂ : Ended s s₂ t committed) : s₁ = s₂ :=
  ext (h₁.committed.trans h₂.committed.symm) (h₁.opened.trans h₂.opened.symm)
    (h₁.next.trans h₂.next.symm)

theorem rollback_isSome (h : (s.opened t).isSome) : (s.rollback t).isSome := by
  obtain ⟨own, ho⟩ := Option.isSome_iff_exists.1 h
  simp [rollback, ho]

theorem rollback_restrict (h : s.rollback t = some s') :
    (s.restrict p).rollback t = some (s'.restrict p) := by
  have hended : Ended (s.restrict p) (s'.restrict p) t _ := (rollback_some h).restrict
  obtain ⟨s'', hs''⟩ := Option.isSome_iff_exists.1 (rollback_isSome hended.isOpen)
  rw [hs'', hended.unique (rollback_some hs'')]

theorem remove_restrict (q : ρ → Bool) : (s.remove q).restrict p = (s.restrict p).remove q := by
  refine ext (Table.ext ?_) rfl rfl
  simp only [remove, restrict, Table.restrict, List.filter_filter, Bool.and_comm]

variable [DecidableEq κ]

theorem view_restrict (h : s.Agree p) : (s.restrict p).view t = (s.view t).restrict p := by
  unfold view
  rw [committed_restrict, own_restrict]
  exact overlay_restrict fun r hr r' hr' =>
    h (show r ∈ (s.of none).rows from hr) (show r' ∈ (s.of (some t)).rows from hr')

theorem commit_isSome (h : (s.opened t).isSome) : (s.commit t).isSome := by
  obtain ⟨own, ho⟩ := Option.isSome_iff_exists.1 h
  unfold commit
  split
  · rename_i hnone
    rw [ho] at hnone
    cases hnone
  · rfl

theorem commit_restrict (hagree : s.Agree p) (h : s.commit t = some s') :
    (s.restrict p).commit t = some (s'.restrict p) := by
  have hended : Ended (s.restrict p) (s'.restrict p) t _ := (commit_some h).restrict
  obtain ⟨s'', hs''⟩ := Option.isSome_iff_exists.1 (commit_isSome hended.isOpen)
  have hended'' := commit_some hs''
  rw [show overlay (s.restrict p).committed ((s.restrict p).own t) =
    (overlay s.committed (s.own t)).restrict p from view_restrict hagree] at hended''
  rw [hs'', hended.unique hended'']

/-- The commit of a transaction none of whose versions is selected looks like a rollback. -/
theorem commit_hidden (hagree : s.Agree p) (hown : ∀ r ∈ (s.own t).rows, p r = false)
    (h : s.commit t = some s') : (s.restrict p).rollback t = some (s'.restrict p) := by
  have hended : Ended (s.restrict p) (s'.restrict p) t _ := (commit_some h).restrict
  obtain ⟨s'', hs''⟩ := Option.isSome_iff_exists.1 (rollback_isSome hended.isOpen)
  have hcommitted : (overlay s.committed (s.own t)).restrict p = (s.restrict p).committed := by
    have hview : (s.restrict p).view t = (overlay s.committed (s.own t)).restrict p :=
      view_restrict hagree
    rw [← hview, view, own_restrict, restrict_of_none hown, overlay_empty]
  rw [hcommitted] at hended
  rw [hs'', hended.unique (rollback_some hs'')]

/-- Rows that are not selected are written, and nothing is to be seen of it. -/
theorem Wrote.hidden {rows : Table ρ} (h : Wrote s s' t rows) (hrows : ∀ r ∈ rows.rows, p r = false)
    (hown : ∀ r ∈ (s.own t).rows, p r = false) : s'.restrict p = s.restrict p := by
  obtain ⟨own, ho⟩ := Option.isSome_iff_exists.1 h.isOpen
  refine ext ?_ ?_ h.next
  · rw [committed_restrict, h.committed, committed_restrict]
  · funext t'
    by_cases ht : t' = t
    · subst ht
      rw [Versions.own_of_opened ho] at hown
      simp only [opened_restrict, h.opened, Function.update_self, Option.map_some, ho,
        Versions.own_of_opened ho, restrict_of_none hown, Option.some.injEq]
      refine restrict_of_none fun r hr => ?_
      rcases mem_overlay.1 hr with ⟨hr, -⟩ | hr
      · exact hown r hr
      · exact hrows r hr
    · simp only [opened_restrict, h.opened, Function.update_of_ne ht]

/-- Every version is an old one, or one that was written. -/
theorem Wrote.of_mem {rows : Table ρ} (h : Wrote s s' t rows) {holder : Option Nat} {r : ρ}
    (hr : r ∈ (s'.of holder).rows) :
    r ∈ (s.of holder).rows ∨ (holder = some t ∧ r ∈ rows.rows) := by
  cases holder with
  | none =>
    rw [Versions.of_none, h.committed] at hr
    exact .inl hr
  | some t' =>
    by_cases ht : t' = t
    · subst ht
      rw [Versions.of_some, h.own] at hr
      rcases mem_overlay.1 hr with ⟨hr, -⟩ | hr
      · exact .inl hr
      · exact .inr ⟨rfl, hr⟩
    · rw [Versions.of_some, h.own_other ht] at hr
      exact .inl hr

/-- Every row that had a version has one still: the old one, or one that was written. -/
theorem Wrote.covers {rows : Table ρ} (h : Wrote s s' t rows) {holder : Option Nat} {r : ρ}
    (hr : r ∈ (s.of holder).rows) :
    ∃ r' ∈ (s'.of holder).rows, key r' = key r ∧ (r' = r ∨ r' ∈ rows.rows) := by
  cases holder with
  | none => exact ⟨r, by rw [Versions.of_none, h.committed]; exact hr, rfl, .inl rfl⟩
  | some t' =>
    by_cases ht : t' = t
    · subst ht
      rw [Versions.of_some, h.own]
      by_cases hhidden : ∃ r' ∈ rows.rows, key r' = key r
      · obtain ⟨r', hr', hkey⟩ := hhidden
        exact ⟨r', mem_overlay_own hr', hkey, .inr hr'⟩
      · refine ⟨r, mem_overlay.2 (.inl ⟨hr, fun r' hr' hkey => ?_⟩), rfl, .inl rfl⟩
        exact hhidden ⟨r', hr', hkey⟩
    · exact ⟨r, by rw [Versions.of_some, h.own_other ht]; exact hr, rfl, .inl rfl⟩

/-- Rows that agree with the versions there are, as changed versions and new rows do. -/
theorem Wrote.agree {rows : Table ρ} {f : ρ → γ} (h : Wrote s s' t rows) (hagree : s.Agree f)
    (hrows : ∀ r ∈ rows.rows, ∀ holder, ∀ r' ∈ (s.of holder).rows, key r = key r' → f r = f r') :
    s'.Agree f := by
  intro holder holder' r r' hr hr' hkey
  rcases h.of_mem hr with hr | ⟨-, hr⟩ <;> rcases h.of_mem hr' with hr' | ⟨-, hr'⟩
  · exact hagree hr hr' hkey
  · exact (hrows r' hr' _ r hr hkey.symm).symm
  · exact hrows r hr _ r' hr' hkey
  · rw [List.inj_on_of_nodup_map rows.nodup hr hr' hkey]

theorem Wrote.restrict {rows : Table ρ} (h : Wrote s s' t rows)
    (hagree : ∀ r ∈ (s.own t).rows, ∀ r' ∈ rows.rows, key r = key r' → p r = p r') :
    Wrote (s.restrict p) (s'.restrict p) t (rows.restrict p) where
  isOpen := by rw [isSome_opened_restrict]; exact h.isOpen
  committed := by rw [committed_restrict, h.committed, committed_restrict]
  opened := by
    funext t'
    by_cases ht : t' = t
    · subst ht
      rw [opened_restrict, h.opened, Function.update_self, Function.update_self, own_restrict,
        Option.map_some, overlay_restrict hagree]
    · simp only [opened_restrict, h.opened, Function.update_of_ne ht]
  next := h.next

theorem Wrote.unique {s₁ s₂ : Store ρ} {rows : Table ρ} (h₁ : Wrote s s₁ t rows)
    (h₂ : Wrote s s₂ t rows) : s₁ = s₂ :=
  ext (h₁.committed.trans h₂.committed.symm) (h₁.opened.trans h₂.opened.symm)
    (h₁.next.trans h₂.next.symm)

theorem update_possible {q : ρ → Bool} {f : ρ → ρ} (hf : ∀ r, key (f r) = key r)
    (hi : ∀ r, index (f r) = index r) (hopen : (s.opened t).isSome)
    (hheld : ∀ r ∈ (s.view t).select q, s.held t (fun r' => key r' = key r) = false) :
    ∃ x, s.update t q f hf hi = some x := by
  rw [update, dif_pos hopen, dif_pos hheld]
  exact ⟨_, rfl⟩

/-- Nobody else holds a row that is updated. -/
theorem update_held {q : ρ → Bool} {f : ρ → ρ} {hf : ∀ r, key (f r) = key r}
    {hi : ∀ r, index (f r) = index r} {x : List ρ × Store ρ} (h : s.update t q f hf hi = some x) :
    ∀ r ∈ (s.view t).select q, s.held t (fun r' => key r' = key r) = false := by
  simp only [update] at h
  split at h
  · split at h
    · assumption
    · cases h
  · cases h

/-- The update of selected rows. The rows to update may be told apart in another way where only
selected rows are left. -/
theorem update_restrict (hagree : s.Agree p) {q q' : ρ → Bool} {f : ρ → ρ}
    {hf : ∀ r, key (f r) = key r} {hi : ∀ r, index (f r) = index r} {rows : List ρ}
    (hq : ∀ r ∈ (s.view t).rows, q r = true → p r = true)
    (hq' : ∀ r ∈ (s.view t).rows, p r = true → q' r = q r) (hpf : ∀ r, p (f r) = p r)
    (h : s.update t q f hf hi = some (rows, s')) :
    (s.restrict p).update t q' f hf hi = some (rows, s'.restrict p) := by
  obtain ⟨rfl, hwrote⟩ := update_some h
  have hselect : ((s.restrict p).view t).select q' = (s.view t).select q := by
    rw [view_restrict hagree, Table.select, Table.select, Table.restrict, List.filter_filter]
    refine List.filter_congr fun r hr => ?_
    cases hp : p r with
    | false =>
      have hqr : q r = false := Bool.eq_false_iff.2 fun hqr => by simp [hq r hr hqr] at hp
      simp [hqr]
    | true => simp [hq' r hr hp]
  have hchanged : changed ((s.restrict p).view t) q' f hf =
      (changed (s.view t) q f hf).restrict p := by
    apply Table.ext
    simp only [changed, hselect, Table.restrict]
    refine (List.filter_eq_self.2 fun r hr => ?_).symm
    obtain ⟨r₀, hr₀, rfl⟩ := List.mem_map.1 hr
    obtain ⟨hr₀, hq₀⟩ := Table.mem_select.1 hr₀
    rw [hpf]
    exact hq r₀ hr₀ hq₀
  have hopen : ((s.restrict p).opened t).isSome := by
    rw [isSome_opened_restrict]
    exact hwrote.isOpen
  have hheld : ∀ r ∈ ((s.restrict p).view t).select q',
      (s.restrict p).held t (fun r' => key r' = key r) = false := by
    intro r hr
    rw [hselect] at hr
    refine held_eq_false.2 fun t' ht r' hr' => ?_
    rw [own_restrict] at hr'
    exact held_eq_false.1 (update_held h r hr) t' ht r' (mem_restrict.1 hr').1
  have hown : ∀ r ∈ (s.own t).rows, ∀ r' ∈ (changed (s.view t) q f hf).rows,
      key r = key r' → p r = p r' := by
    intro r hr r' hr' hkey
    obtain ⟨r₀, hr₀, rfl⟩ := List.mem_map.1 hr'
    obtain ⟨holder, hh, -⟩ := of_mem_view (Table.mem_select.1 hr₀).1
    rw [hpf]
    exact hagree (show r ∈ (s.of (some t)).rows from hr) hh (hkey.trans (hf r₀))
  obtain ⟨⟨rows', s''⟩, hupdate⟩ := update_possible hf hi hopen hheld
  obtain ⟨rfl, hwrote'⟩ := update_some hupdate
  rw [hchanged] at hwrote'
  rw [hupdate, hselect, hwrote'.unique (hwrote.restrict hown)]

section Inserting

variable [DecidableEq ι]

theorem insert_possible {r : ρ} (hopen : (s.opened t).isSome) (hheld : s.held t (clash r) = false)
    (hview : (s.view t).rows.any (clash r) = false) : ∃ s', s.insert t r = some (true, s') := by
  rw [insert, dif_pos hopen, dif_neg (Bool.eq_false_iff.1 hheld), dif_neg (Bool.eq_false_iff.1 hview)]
  exact ⟨_, rfl⟩

/-- Nobody else holds a row in the way of one that is inserted, or that turns out to be there. -/
theorem insert_held {r : ρ} {x : Bool × Store ρ} (h : s.insert t r = some x) :
    s.held t (clash r) = false := by
  simp only [insert] at h
  split at h
  · split at h
    · cases h
    · rename_i hheld
      exact Bool.eq_false_iff.2 hheld
  · cases h

theorem insert_open {r : ρ} {x : Bool × Store ρ} (h : s.insert t r = some x) :
    (s.opened t).isSome := by
  simp only [insert] at h
  split at h
  · assumption
  · cases h

/-- The insert of a selected row, whose unique value only selected rows have. -/
theorem insert_restrict (hagree : s.Agree p) {r : ρ} {b : Bool} (hp : p r = true)
    (hindex : ∀ r' ∈ (s.view t).rows, (index r).isSome → index r' = index r → p r' = true)
    (h : s.insert t r = some (b, s')) :
    (s.restrict p).insert t r = some (b, s'.restrict p) := by
  have hview : ∀ r', r' ∈ ((s.restrict p).view t).rows ↔ r' ∈ (s.view t).rows ∧ p r' = true := by
    intro r'
    rw [view_restrict hagree, mem_restrict]
  have hheld : (s.restrict p).held t (clash r) = false := by
    refine held_eq_false.2 fun t' ht r' hr' => ?_
    rw [own_restrict] at hr'
    exact held_eq_false.1 (insert_held h) t' ht r' (mem_restrict.1 hr').1
  rcases insert_cases h with ⟨rfl, hwrote, hfree⟩ | ⟨rfl, hs, hopen, hsome, r', hr', hi⟩
  · have hopen : ((s.restrict p).opened t).isSome := by
      rw [isSome_opened_restrict]
      exact hwrote.isOpen
    have hclear : ((s.restrict p).view t).rows.any (clash r) = false := by
      refine List.any_eq_false.2 fun r' hr' => ?_
      obtain ⟨holder, hh, -⟩ := of_mem_view ((hview r').1 hr').1
      rw [hfree holder r' hh]
      exact Bool.false_ne_true
    have hown : ∀ r₁ ∈ (s.own t).rows, ∀ r' ∈ (one r).rows, key r₁ = key r' → p r₁ = p r' := by
      intro r₁ hr₁ r' hr' hkey
      rw [List.mem_singleton.1 hr'] at hkey
      exact absurd hkey (clash_eq_false.1 (hfree (some t) r₁ hr₁)).1
    have hone : (one r).restrict p = one r := restrict_of_all fun r' hr' => by
      rw [List.mem_singleton.1 hr']
      exact hp
    obtain ⟨s'', hinsert⟩ := insert_possible hopen hheld hclear
    rcases insert_cases hinsert with ⟨-, hwrote', -⟩ | ⟨hfalse, -⟩
    · have hrestricted := hwrote.restrict hown
      rw [hone] at hrestricted
      rw [hinsert, hwrote'.unique hrestricted]
    · cases hfalse
  · have hseen : r' ∈ ((s.restrict p).view t).rows := (hview r').2 ⟨hr', hindex r' hr' hsome hi⟩
    have hopen' : ((s.restrict p).opened t).isSome := by
      rw [isSome_opened_restrict]
      exact hopen
    have hclash : ((s.restrict p).view t).rows.any (clash r) = true :=
      List.any_eq_true.2 ⟨r', hseen, by simp [clash, hsome, hi]⟩
    have hany : (index r).isSome ∧
        ((s.restrict p).view t).rows.any (fun r' => index r' = index r) :=
      ⟨hsome, List.any_eq_true.2 ⟨r', hseen, by simp [hi]⟩⟩
    rw [insert, dif_pos hopen', dif_neg (Bool.eq_false_iff.1 hheld), dif_pos hclash, if_pos hany,
      hs]

end Inserting

end Restrict

end Store

end Transactional
