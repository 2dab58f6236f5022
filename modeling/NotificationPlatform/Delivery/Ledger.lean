import NotificationPlatform.Delivery.Invariants

/-!
# The ledger, the counter and the attempts of the dispatches

`Ledgers` ties three things together: the counter on the row, the rows of the ledger, and the
numbers the dispatches hold. The ledger is numbered by the counter, every entry belongs to exactly
one dispatch, and only that dispatch resolves it to anything but `UNKNOWN`.
-/

namespace NotificationPlatform

open Interleaving

/-! ## What an operation does to a ledger -/

/-- The parts of an entry that identify it. -/
structure SameAttempt (a b : SendAttemptRecord) : Prop where
  attemptNumber : b.attemptNumber = a.attemptNumber
  applicationId : b.applicationId = a.applicationId

theorem sameAttempt_apply (input : ResolveSendAttemptInput) (a : SendAttemptRecord) :
    SameAttempt a (input.apply a) := by
  unfold NotificationSendAttemptRepository.ResolveSendAttemptInput.apply
  split <;> exact ⟨rfl, rfl⟩

/-- Either the entries are the same ones and the counter stands, or one entry was begun. -/
inductive LedgerStep (n : Uuid) (w w' : World) (old new : NotificationRecord) : Prop where
  | same (f : SendAttemptRecord → SendAttemptRecord) (counter : new.attemptCount = old.attemptCount)
      (ledger : w'.ledger n = (w.ledger n).map f) (entries : ∀ a, SameAttempt a (f a))
  | begun (input : BeginAttemptInput) (id : Uuid) (status : old.status = .PROCESSING)
      (counter : new.attemptCount = old.attemptCount + 1)
      (application : input.applicationId = old.applicationId)
      (ledger : w'.ledger n = w.ledger n ++ [input.attempt new.attemptCount id])

theorem LedgerStep.unchanged {n : Uuid} {w w' : World} {old new : NotificationRecord}
    (hcounter : new.attemptCount = old.attemptCount) (hledger : w'.ledger n = w.ledger n) :
    LedgerStep n w w' old new :=
  .same id hcounter (by rw [hledger, List.map_id]) fun _ => ⟨rfl, rfl⟩

theorem Effect.ledger_step {n : Uuid} {w w' : World} {o : Op} {r : o.Ret}
    (h : Effect n w w' o r) {old new : NotificationRecord} (before : w.row n = some old)
    (after : w'.row n = some new) : LedgerStep n w w' old new := by
  cases h with
  | kept row ledger =>
    cases (row.trans before).symm.trans after
    exact .unchanged rfl ledger
  | resolved names row ledger =>
    cases (row.trans before).symm.trans after
    exact .same _ rfl ledger (sameAttempt_apply _)
  | promoted before' _ after' ledger | cancelledWaiting before' _ after' ledger =>
    cases before.symm.trans before'
    cases after.symm.trans after'
    exact .unchanged rfl ledger
  | claimed before' _ _ new_eq after' ledger =>
    cases before.symm.trans before'
    cases after.symm.trans after'
    exact .unchanged (by rw [new_eq]) ledger
  | begun _ before' application _ status number after' ledger =>
    cases before.symm.trans before'
    cases after.symm.trans after'
    rw [number] at ledger
    exact .begun _ _ status rfl application.symm ledger
  | sent names moved ledger =>
    subst names
    cases before.symm.trans moved.before
    cases after.symm.trans moved.after
    exact .same _ rfl ledger (sameAttempt_apply _)
  | deferred names moved ledger | transitioned names moved ledger | released names moved ledger
  | cancelled names moved ledger | acknowledged names moved ledger =>
    subst names
    cases before.symm.trans moved.before
    cases after.symm.trans moved.after
    exact .unchanged rfl ledger

/-- A begun attempt takes the number after the counter, under the claim. -/
theorem Effect.begun_of_names {w w' : World} {input : BeginAttemptInput} {k : Nat}
    (h : Effect input.notificationId w w' (.beginAttempt input) (some k)) :
    ∃ old new id, w.row input.notificationId = some old ∧
      old.claimToken = some input.claimToken ∧ old.status = .PROCESSING ∧
      k = old.attemptCount + 1 ∧ w'.row input.notificationId = some new ∧
      new.attemptCount = k ∧ new.status = .PROCESSING ∧ new.claimToken = old.claimToken ∧
      w'.ledger input.notificationId = w.ledger input.notificationId ++ [input.attempt k id] := by
  cases h with
  | kept row ledger idle => exact absurd rfl idle
  | begun names before application token status number after ledger =>
    exact ⟨_, _, _, before, token, status, number, after, number.symm, status, rfl, ledger⟩

/-- A notification that does not exist has no ledger. -/
theorem Effect.absent_ledger {n : Uuid} {w w' : World} {o : Op} {r : o.Ret}
    (h : Effect n w w' o r) (hnone : w.row n = none) (hempty : w.ledger n = []) :
    w'.ledger n = [] := by
  cases h with
  | kept row ledger => rw [ledger, hempty]
  | resolved names row ledger =>
    rw [ledger, hempty]
    rfl
  | promoted before | claimed before | begun _ before | cancelledWaiting before =>
    exact absurd (hnone.symm.trans before) nofun
  | sent names moved | deferred names moved | transitioned names moved | released names moved
  | cancelled names moved | acknowledged names moved =>
    subst names
    exact absurd (hnone.symm.trans moved.before) nofun

/-- Where an entry of the ledger comes from. -/
inductive EntryStep (n : Uuid) (w : World) : (o : Op) → o.Ret → SendAttemptRecord → Prop where
  | same {o : Op} {r : o.Ret} {a : SendAttemptRecord} (was : a ∈ w.ledger n) : EntryStep n w o r a
  | resolved {input : ResolveSendAttemptInput} {a : SendAttemptRecord} (was : a ∈ w.ledger n)
      (names : input.notificationId = n) (concerns : input.concerns a = true) :
      EntryStep n w (.resolveAttempt input) () (input.apply a)
  | sent {input : RecordSentInput} {a : SendAttemptRecord} (was : a ∈ w.ledger n)
      (names : input.notification.id = n) (concerns : input.resolution.concerns a = true) :
      EntryStep n w (.recordSent input) true (input.resolution.apply a)
  | begun {input : BeginAttemptInput} {k id : Nat} (names : input.notificationId = n) :
      EntryStep n w (.beginAttempt input) (some k) (input.attempt k id)

theorem Effect.entry {n : Uuid} {w w' : World} {o : Op} {r : o.Ret} (h : Effect n w w' o r)
    {a : SendAttemptRecord} (ha : a ∈ w'.ledger n) : EntryStep n w o r a := by
  cases h with
  | kept _ ledger | promoted _ _ _ ledger | claimed _ _ _ _ _ ledger | deferred _ _ ledger
  | transitioned _ _ ledger | released _ _ ledger | cancelled _ _ ledger
  | cancelledWaiting _ _ _ ledger | acknowledged _ _ ledger => exact .same (ledger ▸ ha)
  | begun names _ _ _ _ _ _ ledger =>
    rw [ledger] at ha
    rcases List.mem_append.1 ha with ha | ha
    · exact .same ha
    · rw [List.mem_singleton.1 ha]
      exact .begun names
  | @sent input _ names _ ledger =>
    rw [ledger] at ha
    obtain ⟨b, hb, rfl⟩ := List.mem_map.1 ha
    cases hc : input.resolution.concerns b with
    | false => exact .same (by rwa [apply_of_not_concerns hc])
    | true => exact .sent hb names hc
  | @resolved input names _ ledger =>
    rw [ledger] at ha
    obtain ⟨b, hb, rfl⟩ := List.mem_map.1 ha
    cases hc : input.concerns b with
    | false => exact .same (by rwa [apply_of_not_concerns hc])
    | true => exact .resolved hb names hc

theorem attemptNumber_mem {w : World} {n : Uuid} {count : Nat} {a : SendAttemptRecord}
    (h : (w.ledger n).map (·.attemptNumber) = List.range' 1 count) (ha : a ∈ w.ledger n) :
    1 ≤ a.attemptNumber ∧ a.attemptNumber ≤ count := by
  have hmem : a.attemptNumber ∈ (w.ledger n).map (·.attemptNumber) :=
    List.mem_map_of_mem ha
  rw [h, List.mem_range'_1] at hmem
  omega

/-! ## What a dispatch may write about an attempt -/

theorem Move.input {p p' : Progress} {o : Op} {r : o.Ret} (h : Move p o r p') :
    p'.input = p.input := by
  cases h <;> rfl

/-- What a dispatch recorded stands unless it records now. -/
theorem Move.recorded_persists {p p' : Progress} {o : Op} {r : o.Ret}
    {x : SendAttemptOutcome} (h : Move p o r p') (hp : p.WellFormed) (hx : p.recorded = some x) :
    p'.recorded = some x := by
  have hrank := (hp.recorded (by rw [hx]; rfl)).1
  cases h with
  | settled claimed application names may =>
    have hs : p.stage ≠ .answered := by
      intro hs
      rw [hs] at hrank
      exact absurd hrank (by decide)
    simp only [Progress.settle, hs, if_false]
    exact hx
  | recorded stage =>
    rw [stage] at hrank
    exact absurd hrank (by decide)
  | _ => exact hx

/-! ## The invariant -/

structure Ledgers (ph : Phases) (w : World) : Prop where
  named : ∀ {i p c}, Dispatching ph i p → p.claimed = some c → c.id = p.input.notificationId
  claimed : ∀ {i p c}, Dispatching ph i p → p.claimed = some c → ∃ r, w.row c.id = some r ∧ Kept c r
  absent : ∀ {n}, w.row n = none → w.ledger n = []
  numbered : ∀ {n r}, w.row n = some r →
    (w.ledger n).map (·.attemptNumber) = List.range' 1 r.attemptCount
  tenant : ∀ {n r a}, w.row n = some r → a ∈ w.ledger n → a.applicationId = r.applicationId
  begun : ∀ {i p k}, Dispatching ph i p → p.attempt = some k →
    ∃ r, w.row p.input.notificationId = some r ∧ 1 ≤ k ∧ k ≤ r.attemptCount
  distinct : ∀ {i j p p' k}, Dispatching ph i p → Dispatching ph j p' →
    p.input.notificationId = p'.input.notificationId → p.attempt = some k →
    p'.attempt = some k → i = j
  author : ∀ {n a}, a ∈ w.ledger n → ∃ i p, Dispatching ph i p ∧
    p.input.notificationId = n ∧ p.attempt = some a.attemptNumber
  outcome : ∀ {i p a}, Dispatching ph i p → a ∈ w.ledger p.input.notificationId →
    p.attempt = some a.attemptNumber →
    a.outcome = none ∨ a.outcome = some .UNKNOWN ∨ a.outcome = p.recorded

theorem ledgers_start {w : World} (hw : ∀ n, w.row n = none) (hl : w.sendAttempts = []) :
    Ledgers (fun _ => none) w := by
  have hempty : ∀ n, w.ledger n = [] := fun n => by
    unfold World.ledger
    rw [hl]
    rfl
  exact {
    named := nofun
    claimed := nofun
    absent := fun _ => hempty _
    numbered := fun h => absurd ((hw _).symm.trans h) nofun
    tenant := fun h => absurd ((hw _).symm.trans h) nofun
    begun := nofun
    distinct := nofun
    author := fun h => by
      rw [hempty] at h
      exact absurd h List.not_mem_nil
    outcome := nofun }

theorem Ledgers.spawn {ph : Phases} {w : World} {i : Nat} (request : Request) (h : Ledgers ph w)
    (hi : ph i = none) :
    Ledgers (Function.update ph i (some (DeliveryPhase.initial request))) w where
  named := fun hd hc => by
    rcases dispatching_spawn hd with ⟨-, hd⟩ | ⟨-, input, rfl⟩
    · exact h.named hd hc
    · cases hc
  claimed := fun hd hc => by
    rcases dispatching_spawn hd with ⟨-, hd⟩ | ⟨-, input, rfl⟩
    · exact h.claimed hd hc
    · cases hc
  absent := h.absent
  numbered := h.numbered
  tenant := h.tenant
  begun := fun hd hk => by
    rcases dispatching_spawn hd with ⟨-, hd⟩ | ⟨-, input, rfl⟩
    · exact h.begun hd hk
    · cases hk
  distinct := fun hd hd' hn hk hk' => by
    rcases dispatching_spawn hd with ⟨-, hd⟩ | ⟨-, input, rfl⟩
    · rcases dispatching_spawn hd' with ⟨-, hd'⟩ | ⟨-, input, rfl⟩
      · exact h.distinct hd hd' hn hk hk'
      · cases hk'
    · cases hk
  author := fun ha => by
    obtain ⟨j, p, hd, hrest⟩ := h.author ha
    have hji : j ≠ i := by
      rintro rfl
      exact absurd (hi.symm.trans hd) nofun
    exact ⟨j, p, (dispatching_other hji).2 hd, hrest⟩
  outcome := fun hd ha hk => by
    rcases dispatching_spawn hd with ⟨-, hd⟩ | ⟨-, input, rfl⟩
    · exact h.outcome hd ha hk
    · cases hk

theorem Ledgers.outside {ph : Phases} {w w' : World} {e : Event} (h : Ledgers ph w)
    (he : outside w e = some w') : Ledgers ph w' := by
  have hledger : ∀ n, w'.ledger n = w.ledger n := fun n => ledger_eq (outside_cases he n).1 n
  have hkeep : ∀ {n r}, w.row n = some r → w'.row n = some r := fun {n r} hr => by
    rcases (outside_cases he n).2.2 with hrow | ⟨draft, -, hnone, -⟩
    · exact hrow.trans hr
    · cases hnone.symm.trans hr
  have hnew : ∀ {n r}, w'.row n = some r → w.row n = some r ∨ (w.row n = none ∧
      r.attemptCount = 0) := fun {n r} hr => by
    rcases (outside_cases he n).2.2 with hrow | ⟨draft, -, hnone, hrow⟩
    · exact .inl (hrow.symm.trans hr)
    · cases hrow.symm.trans hr
      exact .inr ⟨hnone, rfl⟩
  exact {
    named := h.named
    claimed := fun hd hc => by
      obtain ⟨r, hr, hkept⟩ := h.claimed hd hc
      exact ⟨r, hkeep hr, hkept⟩
    absent := fun {n} hn => by
      rw [hledger]
      refine h.absent ?_
      cases hr : w.row n with
      | none => rfl
      | some r => exact absurd (hn.symm.trans (hkeep hr)) nofun
    numbered := fun hr => by
      rw [hledger]
      rcases hnew hr with hr | ⟨hnone, hzero⟩
      · exact h.numbered hr
      · rw [h.absent hnone, hzero]
        rfl
    tenant := fun hr ha => by
      rw [hledger] at ha
      rcases hnew hr with hr | ⟨hnone, -⟩
      · exact h.tenant hr ha
      · rw [h.absent hnone] at ha
        exact absurd ha List.not_mem_nil
    begun := fun hd hk => by
      obtain ⟨r, hr, hle⟩ := h.begun hd hk
      exact ⟨r, hkeep hr, hle⟩
    distinct := h.distinct
    author := fun ha => h.author (by rwa [hledger] at ha)
    outcome := fun hd ha hk => h.outcome hd (by rwa [hledger] at ha) hk }

section Advance

variable {ph : Phases} {w w' : World} {i j : Nat} {q : DeliveryPhase} {o : Op} {r : o.Ret}
  {choice : Choice} {p p' : Progress}

/-- A dispatch that has claimed did so before, or the row is the one it was just handed. -/
theorem Move.claim (hm : Move p o r p') (he : exec w o choice = some (r, w'))
    {c : NotificationRecord} (hc : p'.claimed = some c) :
    p.claimed = some c ∨ (c.id = p.input.notificationId ∧ w'.row c.id = some c) := by
  cases hm with
  | claimed stage token =>
    cases hc
    cases exec_effect he p.input.notificationId with
    | kept row ledger idle => exact absurd rfl idle
    | claimed before application claimable new_eq after ledger =>
      have hid : c.id = p.input.notificationId := World.row_id after
      exact .inr ⟨hid, hid.symm ▸ after⟩
  | _ => exact .inl hc

/-- A dispatch that has a number had it before, or just took the next one of its notification. -/
theorem Ledgers.attempt (h : Ledgers ph w) (hd : Dispatching ph i p) (hm : Move p o r p')
    (he : exec w o choice = some (r, w')) {k : Nat} (hk : p'.attempt = some k) :
    p.attempt = some k ∨ ∃ old new, w.row p.input.notificationId = some old ∧
      k = old.attemptCount + 1 ∧ w'.row p.input.notificationId = some new ∧
      new.attemptCount = k := by
  cases hm with
  | begun stage token claimed application names =>
    cases hk
    right
    rw [← h.named hd claimed, ← names]
    obtain ⟨old, new, _, before, -, -, number, after, count, -⟩ :=
      (exec_effect he _).begun_of_names
    exact ⟨old, new, before, number, after, count⟩
  | _ => exact .inl hk

/-- Two dispatches of one notification do not come to share a number. -/
theorem Ledgers.fresh (h : Ledgers ph w) (hd' : Dispatching ph j p')
    (hn : p.input.notificationId = p'.input.notificationId) {k : Nat} {old : NotificationRecord}
    (hold : w.row p.input.notificationId = some old) (hk : k = old.attemptCount + 1) :
    p'.attempt ≠ some k := by
  intro hk'
  obtain ⟨r, hr, -, hle⟩ := h.begun hd' hk'
  rw [← hn] at hr
  cases hold.symm.trans hr
  omega

theorem Ledgers.distinct_advance (h : Ledgers ph w) (hi : ph i = some q) (ho : q.Allows o)
    (he : exec w o choice = some (r, w')) {k k' : Nat} {x : Nat}
    (hd : Dispatching (Function.update ph i (some (q.advance o r))) k p)
    (hd' : Dispatching (Function.update ph i (some (q.advance o r))) k' p')
    (hn : p.input.notificationId = p'.input.notificationId) (hx : p.attempt = some x)
    (hx' : p'.attempt = some x) : k = k' := by
  rcases dispatching_advance hi ho hd with ⟨hj, hold⟩ | ⟨hj, p₀, hold, hm⟩ <;>
    rcases dispatching_advance hi ho hd' with ⟨hj', hold'⟩ | ⟨hj', p₁, hold', hm'⟩
  · exact h.distinct hold hold' hn hx hx'
  · rw [hm'.input] at hn
    rcases h.attempt hold' hm' he hx' with hx' | ⟨old, new, hrow, hcount, -⟩
    · exact h.distinct hold hold' hn hx hx'
    · exact absurd hx (h.fresh hold hn.symm hrow hcount)
  · rw [hm.input] at hn
    rcases h.attempt hold hm he hx with hx | ⟨old, new, hrow, hcount, -⟩
    · exact h.distinct hold hold' hn hx hx'
    · exact absurd hx' (h.fresh hold' hn hrow hcount)
  · exact hj.trans hj'.symm

/-- The entries after a step: each is one that was there, or the one just begun. -/
theorem Ledgers.numbered_advance (h : Ledgers ph w) (he : exec w o choice = some (r, w'))
    {n : Uuid} {new : NotificationRecord} (hnew : w'.row n = some new) :
    (w'.ledger n).map (·.attemptNumber) = List.range' 1 new.attemptCount ∧
      ∀ a ∈ w'.ledger n, a.applicationId = new.applicationId := by
  obtain ⟨old, hold, hkept⟩ := row_before he hnew
  have hnum := h.numbered hold
  cases (exec_effect he n).ledger_step hold hnew with
  | same f counter ledger entries =>
    refine ⟨?_, ?_⟩
    · rw [ledger, counter, ← hnum, List.map_map]
      exact List.map_congr_left fun a _ => (entries a).attemptNumber
    · intro a ha
      rw [ledger] at ha
      obtain ⟨b, hb, rfl⟩ := List.mem_map.1 ha
      rw [(entries b).applicationId, h.tenant hold hb, hkept.applicationId]
  | begun input id status counter application ledger =>
    refine ⟨?_, ?_⟩
    · rw [ledger, List.map_append, hnum, counter, List.range'_concat]
      simp [NotificationRepository.BeginAttemptInput.attempt,
        NotificationSendAttemptRepository.BeginSendAttemptInput.row, Nat.add_comm]
    · intro a ha
      rw [ledger] at ha
      rcases List.mem_append.1 ha with ha | ha
      · rw [h.tenant hold ha, hkept.applicationId]
      · rw [List.mem_singleton.1 ha, hkept.applicationId]
        exact application

/-- An entry is named by its notification and its number. -/
theorem concerns_number {input : ResolveSendAttemptInput} {a : SendAttemptRecord}
    (h : input.concerns a = true) :
    (input.apply a).attemptNumber = input.attemptNumber ∧
      (input.apply a).outcome = some input.outcome := by
  have hnumber : a.attemptNumber = input.attemptNumber := by
    simp only [NotificationSendAttemptRepository.ResolveSendAttemptInput.concerns,
      decide_eq_true_eq] at h
    exact h.2.2
  refine ⟨((sameAttempt_apply input a).attemptNumber).trans hnumber, ?_⟩
  unfold NotificationSendAttemptRepository.ResolveSendAttemptInput.apply
  rw [if_pos h]

/-- The dispatch that acts on its own attempt is the only one that has that number. -/
theorem Ledgers.own (h : Ledgers ph w) (hi : ph i = some (.dispatching p))
    (ho : (DeliveryPhase.dispatching p).Allows o) {k : Nat} (hk : p.attempt = some k)
    (hd : Dispatching (Function.update ph i (some ((DeliveryPhase.dispatching p).advance o r))) j p')
    (hn : p'.input.notificationId = p.input.notificationId) (hk' : p'.attempt = some k) :
    p' = p.advance o r := by
  rcases dispatching_advance hi ho hd with ⟨hj, hold⟩ | ⟨rfl, -, -, -⟩
  · exact absurd (h.distinct hold hi hn hk' hk) hj
  · cases dispatching_self.1 hd
    rfl

theorem Ledgers.outcome_advance (h : Ledgers ph w) (ht : Tokens ph w) (hi : ph i = some q)
    (ho : q.Allows o) (he : exec w o choice = some (r, w'))
    (hd : Dispatching (Function.update ph i (some (q.advance o r))) j p') {a : SendAttemptRecord}
    (ha : a ∈ w'.ledger p'.input.notificationId) (hk : p'.attempt = some a.attemptNumber) :
    a.outcome = none ∨ a.outcome = some .UNKNOWN ∨ a.outcome = p'.recorded := by
  cases (exec_effect he p'.input.notificationId).entry ha with
  | same was =>
    rcases dispatching_advance hi ho hd with ⟨-, hold⟩ | ⟨rfl, p, hold, hm⟩
    · exact h.outcome hold was hk
    · rw [hm.input] at was
      rcases h.attempt hold hm he hk with hk | ⟨old, -, hrow, hcount, -, -⟩
      · rcases h.outcome hold was hk with hx | hx | hx
        · exact .inl hx
        · exact .inr (.inl hx)
        · cases hrec : p.recorded with
          | none => exact .inl (hx.trans hrec)
          | some x =>
            rw [hm.recorded_persists (ht.wellFormed hold) hrec]
            exact .inr (.inr (hx.trans hrec))
      · have := (attemptNumber_mem (h.numbered hrow) was).2
        omega
  | begun names => exact .inl rfl
  | @resolved input b was names concerns =>
    obtain ⟨hnumber, houtcome⟩ := concerns_number concerns
    obtain ⟨p, rfl, ⟨c, hc, -, hcn⟩, hmay⟩ := dispatching_of_allows rfl ho
    have hn : p'.input.notificationId = p.input.notificationId := by
      rw [← names, hcn, h.named hi hc]
    rw [hnumber] at hk
    rcases hmay with ⟨-, -, hx, -⟩ | ⟨hs, hown, -⟩
    · exact .inr (.inl (houtcome.trans (by rw [hx])))
    · rw [h.own hi ho hown hd hn hk, houtcome]
      right; right
      simp only [Progress.advance, Progress.settle, hs, if_true]
  | @sent input b was names concerns =>
    obtain ⟨hnumber, houtcome⟩ := concerns_number concerns
    obtain ⟨p, rfl, -, hc, hown, -⟩ := dispatching_of_allows rfl ho
    have hn : p'.input.notificationId = p.input.notificationId := by
      rw [← names, h.named hi hc]
    rw [hnumber] at hk
    rw [h.own hi ho hown hd hn hk, houtcome]
    exact .inr (.inr rfl)

theorem Ledgers.author_advance (h : Ledgers ph w) (ht : Tokens ph w) (hi : ph i = some q)
    (ho : q.Allows o) (he : exec w o choice = some (r, w')) {n : Uuid} {a : SendAttemptRecord}
    (ha : a ∈ w'.ledger n) :
    ∃ j p', Dispatching (Function.update ph i (some (q.advance o r))) j p' ∧
      p'.input.notificationId = n ∧ p'.attempt = some a.attemptNumber := by
  have hkeep : ∀ {b}, b ∈ w.ledger n → b.attemptNumber = a.attemptNumber →
      ∃ j p', Dispatching (Function.update ph i (some (q.advance o r))) j p' ∧
        p'.input.notificationId = n ∧ p'.attempt = some a.attemptNumber := by
    intro b hb hnumber
    obtain ⟨j, p, hd, hn, hk⟩ := h.author hb
    obtain ⟨p', hd', ⟨-, rfl⟩ | ⟨-, hm⟩⟩ := hd.continues hi ho
    · exact ⟨j, p', hd', hn, hnumber ▸ hk⟩
    · exact ⟨j, p', hd', hm.input ▸ hn, hnumber ▸ hm.attempt_persists (ht.wellFormed hd) hk⟩
  cases (exec_effect he n).entry ha with
  | same was => exact hkeep was rfl
  | resolved was | sent was => exact hkeep was (sameAttempt_apply _ _).attemptNumber.symm
  | begun names =>
    obtain ⟨p, rfl, -, -, c, hc, -, hcn⟩ := dispatching_of_allows rfl ho
    refine ⟨i, _, dispatching_self.2 rfl, ?_, rfl⟩
    change p.input.notificationId = n
    rw [← h.named hi hc, ← hcn, names]

theorem Ledgers.advance (h : Ledgers ph w) (ht : Tokens ph w) (hi : ph i = some q)
    (ho : q.Allows o) (he : exec w o choice = some (r, w')) :
    Ledgers (Function.update ph i (some (q.advance o r))) w' where
  named := fun hd hc => by
    rcases dispatching_advance hi ho hd with ⟨-, hold⟩ | ⟨-, p, hold, hm⟩
    · exact h.named hold hc
    · rw [hm.input]
      rcases hm.claim he hc with hc | ⟨hid, -⟩
      · exact h.named hold hc
      · exact hid
  claimed := fun {j p' c} hd hc => by
    have hkeep : ∀ {p}, Dispatching ph j p → p.claimed = some c →
        ∃ new, w'.row c.id = some new ∧ Kept c new := by
      intro p hold hc
      obtain ⟨old, hrow, hkept⟩ := h.claimed hold hc
      obtain ⟨new, hnew, hkept'⟩ := (exec_effect he c.id).kept_row hrow
      exact ⟨new, hnew, hkept.trans hkept'⟩
    rcases dispatching_advance hi ho hd with ⟨-, hold⟩ | ⟨-, p, hold, hm⟩
    · exact hkeep hold hc
    · rcases hm.claim he hc with hc | ⟨-, hrow⟩
      · exact hkeep hold hc
      · exact ⟨c, hrow, kept_refl c⟩
  absent := fun {n} hnone => by
    have hbefore : w.row n = none := by
      cases hold : w.row n with
      | none => rfl
      | some old =>
        obtain ⟨new, hnew, -⟩ := (exec_effect he n).kept_row hold
        exact absurd (hnone.symm.trans hnew) nofun
    exact (exec_effect he n).absent_ledger hbefore (h.absent hbefore)
  numbered := fun hnew => (h.numbered_advance he hnew).1
  tenant := fun hnew ha => (h.numbered_advance he hnew).2 _ ha
  begun := fun {j p' k} hd hk => by
    have hkeep : ∀ {p}, Dispatching ph j p → p.attempt = some k →
        ∃ new, w'.row p.input.notificationId = some new ∧ 1 ≤ k ∧ k ≤ new.attemptCount := by
      intro p hold hk
      obtain ⟨old, hrow, hone, hle⟩ := h.begun hold hk
      obtain ⟨new, hnew, hkept⟩ := (exec_effect he p.input.notificationId).kept_row hrow
      exact ⟨new, hnew, hone, hle.trans hkept.attemptCount⟩
    rcases dispatching_advance hi ho hd with ⟨-, hold⟩ | ⟨-, p, hold, hm⟩
    · exact hkeep hold hk
    · rw [hm.input]
      rcases h.attempt hold hm he hk with hk | ⟨old, new, -, hcount, hnew, hle⟩
      · exact hkeep hold hk
      · exact ⟨new, hnew, by omega, by omega⟩
  distinct := fun hd hd' hn hk hk' => h.distinct_advance hi ho he hd hd' hn hk hk'
  author := h.author_advance ht hi ho he
  outcome := fun hd ha hk => h.outcome_advance ht hi ho he hd ha hk

end Advance

end NotificationPlatform
