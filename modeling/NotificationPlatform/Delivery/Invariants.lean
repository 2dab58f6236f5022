import NotificationPlatform.Delivery.Moves

/-!
# What a dispatch knows, and whose claim a row carries

`Progress.WellFormed` says what a dispatch must have learnt to be where it is. `Tokens` says that
claim tokens are handed out once, and that the token on a row is that of the dispatch that claimed
it. Both hold in every state the platform can reach, whatever the interleaving and whoever crashes.
-/

namespace NotificationPlatform

open Interleaving

/-! ## What a dispatch knows in each stage -/

/-- The order in which a dispatch goes through its stages. -/
def Stage.rank : Stage → Nat
  | .starting => 0
  | .unclaimed => 1
  | .refused => 2
  | .claimed => 2
  | .clear => 3
  | .found => 3
  | .begun => 4
  | .awaiting => 5
  | .answered => 6
  | .settled => 7
  | .deferring => 8
  | .exited _ => 9

/-- The stages between the claim and the end. -/
def Stage.isActive : Stage → Bool
  | .claimed | .clear | .found | .begun | .awaiting | .answered | .settled => true
  | _ => false

structure Progress.WellFormed (p : Progress) : Prop where
  claimed : p.claimed.isSome = true → p.token.isSome = true ∧ 2 ≤ p.stage.rank
  active : p.stage.isActive = true → p.claimed.isSome = true
  attempt : p.attempt.isSome = true → 4 ≤ p.stage.rank ∧ p.claimed.isSome = true
  sent : p.sent = true → 5 ≤ p.stage.rank ∧ p.attempt.isSome = true ∧ ¬ p.Exhausted
  awaiting : p.stage = .awaiting ∨ p.stage = .answered → p.sent = true
  answered : p.stage = .answered → p.answer.isSome = true
  answer : p.answer.isSome = true → 6 ≤ p.stage.rank ∧ p.sent = true
  recorded : p.recorded.isSome = true → 7 ≤ p.stage.rank ∧ p.answer.isSome = true

theorem wellFormed_initial (input : DispatchInput) : Progress.WellFormed { input } :=
  ⟨nofun, nofun, nofun, nofun, nofun, nofun, nofun, nofun⟩

namespace Progress.WellFormed

variable {p : Progress}

/-- Going on to a later stage without learning anything. -/
theorem goOn (hp : p.WellFormed) {stage : Stage} (hrank : p.stage.rank ≤ stage.rank)
    (hactive : stage.isActive = true → p.claimed.isSome = true)
    (hne : stage ≠ .awaiting ∧ stage ≠ .answered) : WellFormed { p with stage } where
  claimed := fun h => ⟨(hp.claimed h).1, (hp.claimed h).2.trans hrank⟩
  active := hactive
  attempt := fun h => ⟨(hp.attempt h).1.trans hrank, (hp.attempt h).2⟩
  sent := fun h => ⟨(hp.sent h).1.trans hrank, (hp.sent h).2⟩
  awaiting := fun h => absurd h (not_or.2 hne)
  answered := fun h => absurd h hne.2
  answer := fun h => ⟨(hp.answer h).1.trans hrank, (hp.answer h).2⟩
  recorded := fun h => ⟨(hp.recorded h).1.trans hrank, (hp.recorded h).2⟩

/-- Before the attempt nothing was sent, answered or recorded. -/
theorem early (hp : p.WellFormed) (h : p.stage.rank < 4) : p.attempt.isSome = false ∧
    p.sent = false ∧ p.answer.isSome = false ∧ p.recorded.isSome = false := by
  refine ⟨?_, ?_, ?_, ?_⟩
  · exact Bool.eq_false_iff.2 fun h' => absurd (hp.attempt h').1 (by omega)
  · exact Bool.eq_false_iff.2 fun h' => absurd (hp.sent h').1 (by omega)
  · exact Bool.eq_false_iff.2 fun h' => absurd (hp.answer h').1 (by omega)
  · exact Bool.eq_false_iff.2 fun h' => absurd (hp.recorded h').1 (by omega)

theorem ended (hp : p.WellFormed) (outcome : DispatchOutcome) :
    WellFormed { p with stage := .exited outcome } := by
  refine hp.goOn ?_ nofun ⟨nofun, nofun⟩
  change p.stage.rank ≤ 9
  cases p.stage <;> simp [Stage.rank]

theorem settle (hp : p.WellFormed) {outcome : SendAttemptOutcome}
    (hs : p.stage = .found ∨ p.stage = .answered) : (p.settle outcome).WellFormed := by
  have hrank : p.stage.rank ≤ 7 := by rcases hs with h | h <;> rw [h] <;> decide
  have hgo : WellFormed { p with stage := .settled } := hp.goOn hrank
    (fun _ => hp.active (by rcases hs with h | h <;> rw [h] <;> rfl)) ⟨nofun, nofun⟩
  refine { hgo with recorded := fun h => ⟨Nat.le_refl 7, ?_⟩ }
  rcases hs with hs | hs
  · simp only [Progress.settle, hs, reduceCtorEq, if_false] at h
    exact (hp.recorded h).2
  · exact hp.answered hs

end Progress.WellFormed

theorem Move.wellFormed {p p' : Progress} {o : Op} {r : o.Ret} (h : Move p o r p')
    (hp : p.WellFormed) : p'.WellFormed := by
  cases h with
  | connection | promoting | recording | explaining => exact hp
  | policy => exact { hp with }
  | settled claimed application names may => exact hp.settle (may.imp (·.1) (·.1))
  | refused stage => exact hp.goOn (by rw [stage]; decide) nofun ⟨nofun, nofun⟩
  | clear stage claimed =>
    exact hp.goOn (by rw [stage]; decide) (fun _ => by rw [claimed]; rfl) ⟨nofun, nofun⟩
  | found stage claimed =>
    have hgo : Progress.WellFormed { p with stage := .found } :=
      hp.goOn (by rw [stage]; decide) (fun _ => by rw [claimed]; rfl) ⟨nofun, nofun⟩
    exact { hgo with }
  | lost | unrecorded | left | deferred | enqueued => exact hp.ended _
  | deferring claimed mayLeave =>
    refine hp.goOn ?_ nofun ⟨nofun, nofun⟩
    rcases mayLeave with h | h | h | ⟨h, -⟩ <;> rw [h] <;> decide
  | recorded stage =>
    exact { hp.ended .sent with recorded := fun _ => ⟨by simp [Stage.rank], hp.answered stage⟩ }
  | drew stage =>
    have hearly := hp.early (by rw [stage]; decide)
    have hclaimed : p.claimed.isSome = false := Bool.eq_false_iff.2 fun h => by
      have := (hp.claimed h).2
      rw [stage] at this
      exact absurd this (by decide)
    exact {
      claimed := fun h => by simp [hclaimed] at h
      active := nofun
      attempt := fun h => by simp [hearly.1] at h
      sent := fun h => by simp [hearly.2.1] at h
      awaiting := nofun
      answered := nofun
      answer := fun h => by simp [hearly.2.2.1] at h
      recorded := fun h => by simp [hearly.2.2.2] at h }
  | claimed stage token =>
    have hearly := hp.early (by rw [stage]; decide)
    exact {
      claimed := fun _ => ⟨by simp [token], by simp [Stage.rank]⟩
      active := fun _ => rfl
      attempt := fun h => by simp [hearly.1] at h
      sent := fun h => by simp [hearly.2.1] at h
      awaiting := nofun
      answered := nofun
      answer := fun h => by simp [hearly.2.2.1] at h
      recorded := fun h => by simp [hearly.2.2.2] at h }
  | begun stage token claimed =>
    have hearly := hp.early (by rw [stage]; decide)
    exact {
      claimed := fun _ => ⟨by simp [token], by simp [Stage.rank]⟩
      active := fun _ => by simp [claimed]
      attempt := fun _ => ⟨Nat.le_refl 4, by simp [claimed]⟩
      sent := fun h => by simp [hearly.2.1] at h
      awaiting := nofun
      answered := nofun
      answer := fun h => by simp [hearly.2.2.1] at h
      recorded := fun h => by simp [hearly.2.2.2] at h }
  | sent stage attempt budget =>
    have hactive : p.claimed.isSome = true := hp.active (by rw [stage]; rfl)
    exact {
      claimed := fun h => ⟨(hp.claimed h).1, by simp [Stage.rank]⟩
      active := fun _ => hactive
      attempt := fun _ => ⟨by simp [Stage.rank], hp.active (by rw [stage]; rfl)⟩
      sent := fun _ => ⟨Nat.le_refl 5, attempt, budget⟩
      awaiting := fun _ => rfl
      answered := nofun
      answer := fun h => absurd (hp.answer h).1 (by rw [stage]; decide)
      recorded := fun h => absurd (hp.recorded h).1 (by rw [stage]; decide) }
  | answered stage =>
    have hsent := hp.awaiting (.inl stage)
    exact {
      claimed := fun h => ⟨(hp.claimed h).1, by simp [Stage.rank]⟩
      active := fun _ => hp.active (by rw [stage]; rfl)
      attempt := fun _ => ⟨by simp [Stage.rank], hp.active (by rw [stage]; rfl)⟩
      sent := fun h => ⟨by simp [Stage.rank], (hp.sent h).2⟩
      awaiting := fun _ => hsent
      answered := fun _ => rfl
      answer := fun _ => ⟨Nat.le_refl 6, hsent⟩
      recorded := fun h => absurd (hp.recorded h).1 (by rw [stage]; decide) }

/-- The claim and the token of a dispatch are never replaced. -/
theorem Move.persists {p p' : Progress} {o : Op} {r : o.Ret} {c : NotificationRecord}
    (h : Move p o r p') (hp : p.WellFormed) (hc : p.claimed = some c) :
    p'.claimed = some c ∧ p'.token = p.token ∧ p'.input = p.input := by
  have hrank := (hp.claimed (by rw [hc]; rfl)).2
  cases h with
  | drew stage =>
    rw [stage] at hrank
    exact absurd hrank (by decide)
  | claimed stage token =>
    rw [stage] at hrank
    exact absurd hrank (by decide)
  | _ => exact ⟨hc, rfl, rfl⟩

/-- The attempt of a dispatch is never replaced. -/
theorem Move.attempt_persists {p p' : Progress} {o : Op} {r : o.Ret} {k : Nat}
    (h : Move p o r p') (hp : p.WellFormed) (hk : p.attempt = some k) : p'.attempt = some k := by
  cases h with
  | begun stage =>
    have := (hp.attempt (by rw [hk]; rfl)).1
    rw [stage] at this
    exact absurd this (by decide)
  | _ => exact hk

/-- A dispatch that has claimed is still there after any step, with the same claim and token. -/
theorem Dispatching.persists {ph : Phases} {i j : Nat} {q : DeliveryPhase} {o : Op} {r : o.Ret}
    {p : Progress} {c : NotificationRecord} (h : Dispatching ph j p) (hi : ph i = some q)
    (ho : q.Allows o) (hp : p.WellFormed) (hc : p.claimed = some c) :
    ∃ p', Dispatching (Function.update ph i (some (q.advance o r))) j p' ∧
      p'.claimed = some c ∧ p'.token = p.token ∧ p'.input = p.input := by
  obtain ⟨p', hd', ⟨-, rfl⟩ | ⟨-, hm⟩⟩ := h.continues hi ho
  · exact ⟨p', hd', hc, rfl, rfl⟩
  · exact ⟨p', hd', hm.persists hp hc⟩

/-! ## What no operation changes of a row -/

/-- What a row keeps from the moment it was created, and the counter that only grows. -/
structure Kept (old new : NotificationRecord) : Prop where
  applicationId : new.applicationId = old.applicationId
  maximumAttempts : new.maximumAttempts = old.maximumAttempts
  attemptCount : old.attemptCount ≤ new.attemptCount

theorem kept_refl (r : NotificationRecord) : Kept r r := ⟨rfl, rfl, Nat.le_refl _⟩

theorem Kept.trans {r₁ r₂ r₃ : NotificationRecord} (h : Kept r₁ r₂) (h' : Kept r₂ r₃) :
    Kept r₁ r₃ where
  applicationId := h'.applicationId.trans h.applicationId
  maximumAttempts := h'.maximumAttempts.trans h.maximumAttempts
  attemptCount := h.attemptCount.trans h'.attemptCount

theorem kept_apply (t : TransitionInput) (r : NotificationRecord) : Kept r (t.apply r) :=
  ⟨rfl, rfl, Nat.le_refl _⟩

theorem Effect.kept_row {n : Uuid} {w w' : World} {o : Op} {r : o.Ret} (h : Effect n w w' o r)
    {old : NotificationRecord} (hold : w.row n = some old) :
    ∃ new, w'.row n = some new ∧ Kept old new := by
  cases h with
  | kept row => exact ⟨old, row.trans hold, kept_refl old⟩
  | resolved names row => exact ⟨old, row.trans hold, kept_refl old⟩
  | promoted before _ after =>
    exact ⟨_, after, by cases hold.symm.trans before; exact ⟨rfl, rfl, Nat.le_refl _⟩⟩
  | claimed before _ _ new_eq after =>
    subst new_eq
    exact ⟨_, after, by cases hold.symm.trans before; exact ⟨rfl, rfl, Nat.le_refl _⟩⟩
  | begun _ before _ _ _ _ after =>
    exact ⟨_, after, by cases hold.symm.trans before; exact ⟨rfl, rfl, Nat.le_succ _⟩⟩
  | cancelledWaiting before _ after =>
    exact ⟨_, after, by cases hold.symm.trans before; exact ⟨rfl, rfl, Nat.le_refl _⟩⟩
  | sent names moved | deferred names moved | transitioned names moved | released names moved
  | cancelled names moved | acknowledged names moved =>
    subst names
    refine ⟨_, moved.after, ?_⟩
    cases hold.symm.trans moved.before
    exact kept_apply _ _

theorem Effect.absent {n : Uuid} {w w' : World} {o : Op} {r : o.Ret} (h : Effect n w w' o r)
    (hnone : w.row n = none) : w'.row n = none := by
  cases h with
  | kept row => exact row.trans hnone
  | resolved names row => exact row.trans hnone
  | promoted before | claimed before | begun _ before | cancelledWaiting before =>
    exact absurd (hnone.symm.trans before) nofun
  | sent names moved | deferred names moved | transitioned names moved | released names moved
  | cancelled names moved | acknowledged names moved =>
    subst names
    exact absurd (hnone.symm.trans moved.before) nofun

theorem World.row_id {w : World} {n : Uuid} {r : NotificationRecord} (h : w.row n = some r) :
    r.id = n := Relational.Table.key_of_find? h

/-! ## Tokens -/

/-- Tokens are handed out once, and the token on a row is that of a dispatch that claimed it. -/
structure Tokens (ph : Phases) (w : World) : Prop where
  wellFormed : ∀ {i p}, Dispatching ph i p → p.WellFormed
  drawn : ∀ {i p t}, Dispatching ph i p → p.token = some t → t < w.identifiers
  distinct : ∀ {i j p p' t}, Dispatching ph i p → Dispatching ph j p' → p.token = some t →
    p'.token = some t → i = j
  holder : ∀ {n r t}, w.row n = some r → r.claimToken = some t →
    ∃ i p c, Dispatching ph i p ∧ p.token = some t ∧ p.claimed = some c ∧ c.id = n
  processing : ∀ {n r}, w.row n = some r → (r.status = .PROCESSING ↔ r.claimToken.isSome = true)

/-- Only drawing one changes the token, and it draws the next identifier. -/
theorem Move.token {p p' : Progress} {o : Op} {r : o.Ret} {choice : Choice} {w w' : World}
    {t : Uuid} (h : Move p o r p') (he : exec w o choice = some (r, w'))
    (ht : p'.token = some t) : p.token = some t ∨ (t = w.identifiers ∧ t < w'.identifiers) := by
  cases h with
  | drew stage =>
    obtain ⟨h1, h2⟩ := exec_randomUuid he
    cases ht
    refine .inr ⟨h1, ?_⟩
    rw [h1, h2]
    exact Nat.lt_succ_self _
  | _ => exact .inl ht

theorem tokens_start {w : World} (hw : ∀ n, w.row n = none) : Tokens (fun _ => none) w where
  wellFormed := nofun
  drawn := nofun
  distinct := nofun
  holder := fun h => absurd ((hw _).symm.trans h) nofun
  processing := fun h => absurd ((hw _).symm.trans h) nofun

theorem Tokens.spawn {ph : Phases} {w : World} {i : Nat} (request : Request) (h : Tokens ph w)
    (hi : ph i = none) :
    Tokens (Function.update ph i (some (DeliveryPhase.initial request))) w where
  wellFormed := fun hd => by
    rcases dispatching_spawn hd with ⟨-, hd⟩ | ⟨-, input, rfl⟩
    · exact h.wellFormed hd
    · exact wellFormed_initial input
  drawn := fun hd ht => by
    rcases dispatching_spawn hd with ⟨-, hd⟩ | ⟨-, input, rfl⟩
    · exact h.drawn hd ht
    · cases ht
  distinct := fun hd hd' ht ht' => by
    rcases dispatching_spawn hd with ⟨-, hd⟩ | ⟨-, input, rfl⟩
    · rcases dispatching_spawn hd' with ⟨-, hd'⟩ | ⟨-, input, rfl⟩
      · exact h.distinct hd hd' ht ht'
      · cases ht'
    · cases ht
  holder := fun hr ht => by
    obtain ⟨j, p, c, hd, hrest⟩ := h.holder hr ht
    have hji : j ≠ i := by
      rintro rfl
      exact absurd (hi.symm.trans hd) nofun
    exact ⟨j, p, c, (dispatching_other hji).2 hd, hrest⟩
  processing := h.processing

theorem Tokens.outside {ph : Phases} {w w' : World} {e : Event} (h : Tokens ph w)
    (he : outside w e = some w') : Tokens ph w' where
  wellFormed := h.wellFormed
  drawn := fun hd ht => (h.drawn hd ht).trans_le (outside_cases he 0).2.1
  distinct := h.distinct
  holder := fun {n r t} hr ht => by
    rcases (outside_cases he n).2.2 with hrow | ⟨draft, -, -, hrow⟩
    · exact h.holder (hrow.symm.trans hr) ht
    · cases hrow.symm.trans hr
      cases ht
  processing := fun {n r} hr => by
    rcases (outside_cases he n).2.2 with hrow | ⟨draft, -, -, hrow⟩
    · exact h.processing (hrow.symm.trans hr)
    · cases hrow.symm.trans hr
      simp only [NotificationDraft.row, NotificationDraft.status]
      split <;> simp

/-- A row holds a claim token exactly while it is being processed. -/
theorem RowStep.processing {n : Uuid} {o : Op} {r : o.Ret} {old new : NotificationRecord}
    (h : RowStep n o r old new) (hold : old.status = .PROCESSING ↔ old.claimToken.isSome = true) :
    new.status = .PROCESSING ↔ new.claimToken.isSome = true := by
  cases h with
  | same status token => rw [status, token, hold]
  | claimed _ status token => simp [status, token]
  | sent _ _ status token | requeued _ _ status token | failed _ _ _ status token =>
    rw [status, token]
    exact ⟨nofun, nofun⟩
  | promoted was status token =>
    rw [token, ← hold, was, status]
    exact ⟨nofun, nofun⟩
  | cancelled _ was status token =>
    rw [token, ← hold, status]
    rcases isCancellable_iff.1 was with hs | hs | hs <;> rw [hs] <;> exact ⟨nofun, nofun⟩
  | acknowledged _ was status token =>
    rw [token, ← hold, was]
    rcases status with hs | hs <;> rw [hs] <;> exact ⟨nofun, nofun⟩

/-- Where the token of a row comes from: it was there before, or the claim just put it. -/
theorem RowStep.token {n : Uuid} {o : Op} {r : o.Ret} {old new : NotificationRecord} {t : Uuid}
    {q : DeliveryPhase} (h : RowStep n o r old new) (ho : q.Allows o)
    (ht : new.claimToken = some t) : old.claimToken = some t ∨ ∃ p, q = .dispatching p ∧
      p.stage = .unclaimed ∧ p.token = some t ∧
      q.advance o r = .dispatching { p with stage := .claimed, claimed := some new } := by
  cases h with
  | same _ token | promoted _ _ token | cancelled _ _ _ token | acknowledged _ _ _ token =>
    exact .inl (token.symm.trans ht)
  | claimed _ _ token =>
    obtain ⟨p, rfl, hp⟩ := dispatching_of_allows rfl ho
    exact .inr ⟨p, rfl, hp.1, hp.2.2.2.trans (token.symm.trans ht), rfl⟩
  | sent _ _ _ token | requeued _ _ _ token | failed _ _ _ _ token =>
    exact absurd (token.symm.trans ht) nofun

/-- The row of a notification before a step, if it has one after. -/
theorem row_before {w w' : World} {o : Op} {r : o.Ret} {choice : Choice}
    (he : exec w o choice = some (r, w')) {n : Uuid} {new : NotificationRecord}
    (hnew : w'.row n = some new) : ∃ old, w.row n = some old ∧ Kept old new := by
  cases hold : w.row n with
  | none => exact absurd (((exec_effect he n).absent hold).symm.trans hnew) nofun
  | some old =>
    obtain ⟨new', hnew', hkept⟩ := (exec_effect he n).kept_row hold
    cases hnew'.symm.trans hnew
    exact ⟨old, rfl, hkept⟩

theorem Tokens.advance {ph : Phases} {w w' : World} {i : Nat} {q : DeliveryPhase} {o : Op}
    {r : o.Ret} {choice : Choice} (h : Tokens ph w) (hi : ph i = some q) (ho : q.Allows o)
    (he : exec w o choice = some (r, w')) :
    Tokens (Function.update ph i (some (q.advance o r))) w' where
  wellFormed := fun hd => by
    rcases dispatching_advance hi ho hd with ⟨-, hd⟩ | ⟨rfl, p, hd, hm⟩
    · exact h.wellFormed hd
    · exact hm.wellFormed (h.wellFormed hd)
  drawn := fun hd ht => by
    rcases dispatching_advance hi ho hd with ⟨-, hd⟩ | ⟨rfl, p, hd, hm⟩
    · exact (h.drawn hd ht).trans_le (evolves_exec he).identifiers
    · rcases hm.token he ht with ht | ⟨-, hlt⟩
      · exact (h.drawn hd ht).trans_le (evolves_exec he).identifiers
      · exact hlt
  distinct := fun {j k p p' t} hd hd' ht ht' => by
    rcases dispatching_advance hi ho hd with ⟨hj, hold⟩ | ⟨hj, p₀, hold, hm⟩ <;>
      rcases dispatching_advance hi ho hd' with ⟨hk, hold'⟩ | ⟨hk, p₁, hold', hm'⟩
    · exact h.distinct hold hold' ht ht'
    · subst hk
      rcases hm'.token he ht' with ht' | ⟨rfl, -⟩
      · exact h.distinct hold hold' ht ht'
      · exact absurd (h.drawn hold ht) (Nat.lt_irrefl _)
    · subst hj
      rcases hm.token he ht with ht | ⟨rfl, -⟩
      · exact h.distinct hold hold' ht ht'
      · exact absurd (h.drawn hold' ht') (Nat.lt_irrefl _)
    · exact hj.trans hk.symm
  holder := fun {n new t} hnew ht => by
    obtain ⟨old, hold, -⟩ := row_before he hnew
    rcases ((exec_effect he n).row_step ho hold hnew).token ho ht with htold | ⟨p, rfl, -, hp, hadv⟩
    · obtain ⟨j, p, c, hd, hpt, hpc, hc⟩ := h.holder hold htold
      obtain ⟨p', hd', hc', ht', -⟩ := hd.persists hi ho (h.wellFormed hd) hpc
      exact ⟨j, p', c, hd', ht'.trans hpt, hc', hc⟩
    · exact ⟨i, _, new, dispatching_self.2 hadv, hp, rfl, World.row_id hnew⟩
  processing := fun {n new} hnew => by
    obtain ⟨old, hold, -⟩ := row_before he hnew
    exact ((exec_effect he n).row_step ho hold hnew).processing (h.processing hold)

end NotificationPlatform
