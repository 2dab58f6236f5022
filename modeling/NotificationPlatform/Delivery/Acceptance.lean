import NotificationPlatform.Delivery.Ledger

/-!
# Accepted messages

`Accepted` says where the message identifier of a row comes from: from the one dispatch that
recorded its success, in the transaction that made the row `SENT`. No dispatch records a second
success, because no row that names a message is ever `PROCESSING` again.
-/

namespace NotificationPlatform

open Interleaving

/-- The statuses a notification can have once it names a message. -/
def NotificationStatus.mayNameMessage : NotificationStatus → Bool
  | .SENT | .DELIVERED | .FAILED => true
  | _ => false

/-- The statuses from which nothing leads back to the queue. -/
def NotificationStatus.isClosed : NotificationStatus → Bool
  | .SENT | .DELIVERED | .FAILED | .CANCELLED => true
  | _ => false

section RowStep

variable {n : Uuid} {o : Op} {r : o.Ret} {old new : NotificationRecord}

/-- Nothing reopens a closed notification. -/
theorem RowStep.closed (h : RowStep n o r old new) (hc : old.status.isClosed = true) :
    new.status.isClosed = true := by
  cases h with
  | same status => rw [status, hc]
  | promoted was | sent _ was | requeued _ was | failed _ _ was =>
    rw [was] at hc
    exact absurd hc nofun
  | claimed was => rcases was with was | was <;> rw [was] at hc <;> exact absurd hc nofun
  | cancelled _ _ status => rw [status]; rfl
  | acknowledged _ _ status => rcases status with status | status <;> rw [status] <;> rfl

/-- A notification that names a message goes on naming it, and stays in the statuses that do. -/
theorem RowStep.accepted (h : RowStep n o r old new) (hs : old.status.mayNameMessage = true) :
    new.status.mayNameMessage = true ∧ new.providerMessageId = old.providerMessageId := by
  cases h with
  | same status _ message => exact ⟨status ▸ hs, message⟩
  | promoted was | sent _ was | requeued _ was | failed _ _ was =>
    rw [was] at hs
    exact absurd hs nofun
  | claimed was => rcases was with was | was <;> rw [was] at hs <;> exact absurd hs nofun
  | cancelled _ was =>
    rcases isCancellable_iff.1 was with was | was | was <;> rw [was] at hs <;>
      exact absurd hs nofun
  | acknowledged _ _ status _ message =>
    refine ⟨?_, message⟩
    rcases status with status | status <;> rw [status] <;> rfl

/-- A message is only ever put on a row by recording a success. -/
theorem RowStep.message (h : RowStep n o r old new) :
    new.providerMessageId = old.providerMessageId ∨ old.status = .PROCESSING := by
  cases h with
  | same _ _ message | promoted _ _ _ message | claimed _ _ _ message | requeued _ _ _ _ message
  | failed _ _ _ _ _ message | cancelled _ _ _ _ message | acknowledged _ _ _ _ message =>
    exact .inl message
  | sent _ was => exact .inr was

theorem RowStep.mayNameMessage (h : RowStep n o r old new)
    (hold : old.providerMessageId.isSome = true → old.status.mayNameMessage = true)
    (hnew : new.providerMessageId.isSome = true) : new.status.mayNameMessage = true := by
  rcases h.message with message | was
  · exact (h.accepted (hold (message ▸ hnew))).1
  · cases h with
    | sent _ _ status => rw [status]; rfl
    | same status _ message =>
      rw [status]
      exact hold (message ▸ hnew)
    | failed _ _ _ status => rw [status]; rfl
    | requeued _ _ _ _ message =>
      have := hold (message ▸ hnew)
      rw [was] at this
      exact absurd this nofun
    | promoted was' => exact absurd (was.symm.trans was') nofun
    | claimed was' => rcases was' with was' | was' <;> exact absurd (was.symm.trans was') nofun
    | cancelled _ was' =>
      rw [was] at was'
      exact absurd was' (by decide)
    | acknowledged _ was' => exact absurd (was.symm.trans was') nofun

theorem RowStep.namesMessage (h : RowStep n o r old new)
    (hold : old.status = .SENT ∨ old.status = .DELIVERED → old.providerMessageId.isSome = true)
    (hnew : new.status = .SENT ∨ new.status = .DELIVERED) :
    new.providerMessageId.isSome = true := by
  cases h with
  | same status _ message =>
    rw [message]
    exact hold (status ▸ hnew)
  | sent _ _ _ _ message => rw [message]; rfl
  | acknowledged _ was _ _ message =>
    rw [message]
    exact hold (.inl was)
  | promoted _ status | claimed _ status | requeued _ _ status | failed _ _ _ status
  | cancelled _ _ status =>
    rw [status] at hnew
    rcases hnew with hnew | hnew <;> cases hnew

end RowStep

/-! ## What a dispatch recorded -/

section Recorded

variable {p p' : Progress} {o : Op} {r : o.Ret}

/-- The answer to a send is never replaced. -/
theorem Move.answer_persists (h : Move p o r p') (hp : p.WellFormed)
    {answer : ProviderResult SentMessage} (ha : p.answer = some answer) :
    p'.answer = some answer := by
  cases h with
  | answered stage =>
    have := (hp.answer (by rw [ha]; rfl)).1
    rw [stage] at this
    exact absurd this (by decide)
  | _ => exact ha

/-- Success is recorded by one transaction only. -/
theorem Move.succeeded {w w' : World} {choice : Choice} (h : Move p o r p')
    (he : exec w o choice = some (r, w')) (hx : p'.recorded = some .SUCCEEDED) :
    p.recorded = some .SUCCEEDED ∨ ∃ c old new sent, p.claimed = some c ∧
      w.row c.id = some old ∧ old.status = .PROCESSING ∧ w'.row c.id = some new ∧
      new.providerMessageId = some sent.providerMessageId ∧
      p'.answer = some (.succeeded sent) := by
  cases h with
  | @settled input c r claimed application names may =>
    simp only [Progress.settle] at hx
    split at hx
    · rcases may with ⟨hs, -⟩ | ⟨-, -, _, -, ⟨-, ho, -⟩ | ⟨-, ho⟩⟩
      · rename_i hs'
        cases hs.symm.trans hs'
      · rw [ho] at hx
        cases hx
      · rw [ho] at hx
        cases hx
    · exact .inl hx
  | @recorded input sent stage claimed attempt answer message =>
    right
    cases exec_effect he input.notification.id with
    | kept row ledger idle => exact absurd rfl idle
    | sent names moved =>
      exact ⟨_, _, _, sent, claimed, moved.before, moved.status, moved.after,
        congrArg some message, answer⟩
  | _ => exact .inl hx

end Recorded

/-! ## The invariant -/

structure Accepted (ph : Phases) (w : World) : Prop where
  status : ∀ {n r}, w.row n = some r → r.providerMessageId.isSome = true →
    r.status.mayNameMessage = true
  message : ∀ {n r}, w.row n = some r → r.status = .SENT ∨ r.status = .DELIVERED →
    r.providerMessageId.isSome = true
  recorded : ∀ {i p}, Dispatching ph i p → p.recorded = some .SUCCEEDED →
    ∃ r sent, w.row p.input.notificationId = some r ∧ p.answer = some (.succeeded sent) ∧
      r.providerMessageId = some sent.providerMessageId
  sender : ∀ {n r}, w.row n = some r → r.providerMessageId.isSome = true →
    ∃ i p, Dispatching ph i p ∧ p.input.notificationId = n ∧ p.recorded = some .SUCCEEDED
  once : ∀ {i j p p'}, Dispatching ph i p → Dispatching ph j p' →
    p.input.notificationId = p'.input.notificationId → p.recorded = some .SUCCEEDED →
    p'.recorded = some .SUCCEEDED → i = j

theorem accepted_start {w : World} (hw : ∀ n, w.row n = none) : Accepted (fun _ => none) w where
  status := fun h => absurd ((hw _).symm.trans h) nofun
  message := fun h => absurd ((hw _).symm.trans h) nofun
  recorded := nofun
  sender := fun h => absurd ((hw _).symm.trans h) nofun
  once := nofun

theorem Accepted.spawn {ph : Phases} {w : World} {i : Nat} (request : Request)
    (h : Accepted ph w) (hi : ph i = none) :
    Accepted (Function.update ph i (some (DeliveryPhase.initial request))) w where
  status := h.status
  message := h.message
  recorded := fun hd hx => by
    rcases dispatching_spawn hd with ⟨-, hd⟩ | ⟨-, input, rfl⟩
    · exact h.recorded hd hx
    · cases hx
  sender := fun hr hm => by
    obtain ⟨j, p, hd, hrest⟩ := h.sender hr hm
    have hji : j ≠ i := by
      rintro rfl
      exact absurd (hi.symm.trans hd) nofun
    exact ⟨j, p, (dispatching_other hji).2 hd, hrest⟩
  once := fun hd hd' hn hx hx' => by
    rcases dispatching_spawn hd with ⟨-, hd⟩ | ⟨-, input, rfl⟩
    · rcases dispatching_spawn hd' with ⟨-, hd'⟩ | ⟨-, input, rfl⟩
      · exact h.once hd hd' hn hx hx'
      · cases hx'
    · cases hx

/-- A row after an event is the one before it, or new and names no message. -/
theorem row_outside {w w' : World} {e : Event} (he : outside w e = some w') {n : Uuid}
    {r : NotificationRecord} (hr : w'.row n = some r) :
    w.row n = some r ∨ (r.providerMessageId = none ∧
      (r.status = .SCHEDULED ∨ r.status = .QUEUED)) := by
  rcases (outside_cases he n).2.2 with hrow | ⟨draft, -, -, hrow⟩
  · exact .inl (hrow.symm.trans hr)
  · cases hrow.symm.trans hr
    refine .inr ⟨rfl, ?_⟩
    simp only [NotificationDraft.row, NotificationDraft.status]
    split
    · exact .inl rfl
    · exact .inr rfl

/-- No event removes a row. -/
theorem row_kept_outside {w w' : World} {e : Event} (he : outside w e = some w') {n : Uuid}
    {r : NotificationRecord} (hr : w.row n = some r) : w'.row n = some r := by
  rcases (outside_cases he n).2.2 with hrow | ⟨draft, -, hnone, -⟩
  · exact hrow.trans hr
  · cases hnone.symm.trans hr

theorem Accepted.outside {ph : Phases} {w w' : World} {e : Event} (h : Accepted ph w)
    (he : outside w e = some w') : Accepted ph w' where
  status := fun hr hm => by
    rcases row_outside he hr with hr | ⟨hnone, -⟩
    · exact h.status hr hm
    · rw [hnone] at hm
      cases hm
  message := fun hr hs => by
    rcases row_outside he hr with hr | ⟨-, hs'⟩
    · exact h.message hr hs
    · rcases hs' with hs' | hs' <;> rw [hs'] at hs <;> rcases hs with hs | hs <;> cases hs
  recorded := fun hd hx => by
    obtain ⟨r, sent, hr, hrest⟩ := h.recorded hd hx
    exact ⟨r, sent, row_kept_outside he hr, hrest⟩
  sender := fun hr hm => by
    rcases row_outside he hr with hr | ⟨hnone, -⟩
    · exact h.sender hr hm
    · rw [hnone] at hm
      cases hm
  once := h.once

section Advance

variable {ph : Phases} {w w' : World} {i : Nat} {q : DeliveryPhase} {o : Op} {r : o.Ret}
  {choice : Choice}

/-- A dispatch cannot record a success of a notification that another one recorded before. -/
theorem Accepted.not_again (h : Accepted ph w) {j : Nat} {p : Progress} {n : Uuid}
    {old : NotificationRecord} (hd : Dispatching ph j p) (hx : p.recorded = some .SUCCEEDED)
    (hn : p.input.notificationId = n) (hold : w.row n = some old) : old.status ≠ .PROCESSING := by
  intro hs
  obtain ⟨r, sent, hr, -, hm⟩ := h.recorded hd hx
  rw [hn] at hr
  cases hold.symm.trans hr
  have := h.status hold (by rw [hm]; rfl)
  rw [hs] at this
  exact absurd this nofun

theorem Accepted.advance (h : Accepted ph w) (ht : Tokens ph w) (hl : Ledgers ph w)
    (hi : ph i = some q) (ho : q.Allows o) (he : exec w o choice = some (r, w')) :
    Accepted (Function.update ph i (some (q.advance o r))) w' where
  status := fun {n new} hnew hm => by
    obtain ⟨old, hold, -⟩ := row_before he hnew
    exact ((exec_effect he n).row_step ho hold hnew).mayNameMessage (h.status hold) hm
  message := fun {n new} hnew hs => by
    obtain ⟨old, hold, -⟩ := row_before he hnew
    exact ((exec_effect he n).row_step ho hold hnew).namesMessage (h.message hold) hs
  recorded := fun {j p'} hd hx => by
    have hkeep : ∀ {p}, Dispatching ph j p → p.recorded = some .SUCCEEDED → ∃ new sent,
        w'.row p.input.notificationId = some new ∧ p.answer = some (.succeeded sent) ∧
          new.providerMessageId = some sent.providerMessageId := by
      intro p hold hx
      obtain ⟨old, sent, hrow, ha, hm⟩ := h.recorded hold hx
      obtain ⟨new, hnew, -⟩ := (exec_effect he p.input.notificationId).kept_row hrow
      have hs := h.status hrow (by rw [hm]; rfl)
      exact ⟨new, sent, hnew, ha, (((exec_effect he _).row_step ho hrow hnew).accepted hs).2.trans hm⟩
    rcases dispatching_advance hi ho hd with ⟨-, hold⟩ | ⟨-, p, hold, hm⟩
    · exact hkeep hold hx
    · rw [hm.input]
      rcases hm.succeeded he hx with hx | ⟨c, old, new, sent, hc, -, -, hnew, hmessage, ha⟩
      · obtain ⟨new, sent, hnew, ha, hmessage⟩ := hkeep hold hx
        exact ⟨new, sent, hnew, hm.answer_persists (ht.wellFormed hold) ha, hmessage⟩
      · rw [hl.named hold hc] at hnew
        exact ⟨new, sent, hnew, ha, hmessage⟩
  sender := fun {n new} hnew hm => by
    obtain ⟨old, hold, -⟩ := row_before he hnew
    have hkeep : old.providerMessageId.isSome = true → ∃ j p',
        Dispatching (Function.update ph i (some (q.advance o r))) j p' ∧
          p'.input.notificationId = n ∧ p'.recorded = some .SUCCEEDED := by
      intro hm
      obtain ⟨j, p, hd, hn, hx⟩ := h.sender hold hm
      obtain ⟨p', hd', ⟨-, rfl⟩ | ⟨-, hmove⟩⟩ := hd.continues hi ho
      · exact ⟨j, p', hd', hn, hx⟩
      · exact ⟨j, p', hd', hmove.input ▸ hn, hmove.recorded_persists (ht.wellFormed hd) hx⟩
    cases (exec_effect he n).row_step ho hold hnew with
    | sent names was status token message =>
      obtain ⟨p, rfl, -, hc, -⟩ := dispatching_of_allows rfl ho
      refine ⟨i, _, dispatching_self.2 rfl, ?_, rfl⟩
      change p.input.notificationId = n
      rw [← hl.named hi hc, names]
    | same _ _ message | promoted _ _ _ message | claimed _ _ _ message
    | requeued _ _ _ _ message | failed _ _ _ _ _ message | cancelled _ _ _ _ message
    | acknowledged _ _ _ _ message => exact hkeep (message ▸ hm)
  once := fun {j k p p'} hd hd' hn hx hx' => by
    rcases dispatching_advance hi ho hd with ⟨hj, hold⟩ | ⟨hj, p₀, hold, hm⟩ <;>
      rcases dispatching_advance hi ho hd' with ⟨hk, hold'⟩ | ⟨hk, p₁, hold', hm'⟩
    · exact h.once hold hold' hn hx hx'
    · rw [hm'.input] at hn
      rcases hm'.succeeded he hx' with hx' | ⟨c, old, -, -, hc, hrow, hs, -⟩
      · exact h.once hold hold' hn hx hx'
      · rw [hl.named hold' hc] at hrow
        exact absurd hs (h.not_again hold hx hn hrow)
    · rw [hm.input] at hn
      rcases hm.succeeded he hx with hx | ⟨c, old, -, -, hc, hrow, hs, -⟩
      · exact h.once hold hold' hn hx hx'
      · rw [hl.named hold hc] at hrow
        exact absurd hs (h.not_again hold' hx' hn.symm hrow)
    · exact hj.trans hk.symm

end Advance

end NotificationPlatform
