import NotificationPlatform.Delivery.Footprint

/-!
# What happens to a connection

The columns of a connection that decide when its next message may go out: the end of a pause, the
earliest next send, and the pacing. `exec_connection` lists what an operation can do to them.
-/

namespace NotificationPlatform

open Relational

def World.session (w : World) (s : Uuid) : Option WhatsAppSessionRecord :=
  w.whatsAppSessions.find? s

/-- The pause and the pacing of a connection, before and after an operation. -/
inductive ConnectionStep (w : World) (s : Uuid) : Op → WhatsAppSessionRecord →
    WhatsAppSessionRecord → Prop where
  | kept {o : Op} {old new : WhatsAppSessionRecord}
      (pause : new.sendingPausedUntil = old.sendingPausedUntil)
      (next : new.nextSendAllowedAt = old.nextSendAllowedAt)
      (minimum : new.sendPacingMinimumSeconds = old.sendPacingMinimumSeconds) :
      ConnectionStep w s o old new
  /-- A report of limits was recorded, with the pause it calls for. -/
  | limited {input : WhatsAppSessionRepository.LimitsInput} {old new : WhatsAppSessionRecord}
      (pause : new.sendingPausedUntil = match input.pause with
        | some pause => some (max (old.sendingPausedUntil.getD pause.pausedUntil) pause.pausedUntil)
        | none => old.sendingPausedUntil)
      (next : new.nextSendAllowedAt = old.nextSendAllowedAt)
      (minimum : new.sendPacingMinimumSeconds = old.sendPacingMinimumSeconds) :
      ConnectionStep w s (.recordAccountLimits s input) old new
  /-- The pause was lifted by somebody who saw it end. -/
  | lifted {observed : Date} {old new : WhatsAppSessionRecord}
      (was : old.sendingPausedUntil = some observed)
      (next : new.nextSendAllowedAt = old.nextSendAllowedAt)
      (minimum : new.sendPacingMinimumSeconds = old.sendPacingMinimumSeconds) :
      ConnectionStep w s (.endSendingPause s observed) old new
  /-- The next slot was reserved. -/
  | reserved {now : Date} {old new : WhatsAppSessionRecord}
      (free : old.nextSendAllowedAt ≤ toTimestamptz now)
      (pause : new.sendingPausedUntil = old.sendingPausedUntil)
      (next : w.now + (old.sendPacingMinimumSeconds : Int) * 1000000 ≤ new.nextSendAllowedAt)
      (minimum : new.sendPacingMinimumSeconds = old.sendPacingMinimumSeconds) :
      ConnectionStep w s (.reserveSlot s now) old new

section Update

variable {id s : Uuid} {p : WhatsAppSessionRecord → Bool}
  {f : WhatsAppSessionRecord → WhatsAppSessionRecord} {hf : ∀ r, key (f r) = key r} {w w' : World}
  {x : Option WhatsAppSessionRecord}

/-- An update finds no row and changes nothing, or changes the one it names as it was asked to. -/
theorem updateOne_cases (h : WhatsAppSessionRepository.updateOne id p f hf w = some (x, w')) :
    (x = none ∧ w' = w ∧ ∀ r, w.session id = some r → p r = false) ∨
      ∃ old, x = some (f old) ∧ w.session id = some old ∧ p old = true ∧
        w'.session id = some (f old) ∧ (∀ s, s ≠ id → w'.session s = w.session s) ∧
        w'.now = w.now := by
  cases h
  have hafter := Table.find?_updateAt_self w.whatsAppSessions id p f hf
  cases hx : (w.whatsAppSessions.updateAt id p f hf).1 with
  | none =>
    have hmissed := Table.updateAt_eq_none.1 hx
    refine .inl ⟨rfl, ?_, hmissed⟩
    rw [Table.updateAt_same hmissed]
  | some new =>
    obtain ⟨old, hold, hp, rfl⟩ := Table.updateAt_eq_some.1 hx
    rw [hold, Option.map_some, if_pos hp] at hafter
    exact .inr ⟨old, rfl, hold, hp, hafter,
      fun s hs => Table.find?_updateAt_other _ hs p f hf, rfl⟩

/-- An update changes the connection it names as it was asked to, or not at all. -/
theorem updateOne_session (h : WhatsAppSessionRepository.updateOne id p f hf w = some (x, w'))
    (s : Uuid) : w'.session s = w.session s ∨
      ∃ old, s = id ∧ w.session s = some old ∧ p old = true ∧ w'.session s = some (f old) := by
  rcases updateOne_cases h with ⟨-, rfl, -⟩ | ⟨old, -, hold, hp, hnew, hothers, -⟩
  · exact .inl rfl
  · by_cases hs : s = id
    · exact .inr ⟨old, hs, hs ▸ hold, hp, hs ▸ hnew⟩
    · exact .inl (hothers s hs)

/-- What is to be shown of an operation that may change connections. -/
def Connects (w w' : World) (s : Uuid) (o : Op) : Prop :=
  w'.session s = w.session s ∨
    ∃ old new, w.session s = some old ∧ w'.session s = some new ∧ ConnectionStep w s o old new

theorem connects_updateOne {o : Op}
    (h : WhatsAppSessionRepository.updateOne id p f hf w = some (x, w'))
    (hstep : ∀ old, p old = true → ConnectionStep w id o old (f old)) (s : Uuid) :
    Connects w w' s o := by
  rcases updateOne_session h s with hsame | ⟨old, rfl, hold, hp, hnew⟩
  · exact .inl hsame
  · exact .inr ⟨old, f old, hold, hnew, hstep old hp⟩

end Update

theorem storeLimits_world {limits : Option AccountLimits} {w w' : World}
    {x : Option StoredAccountLimits}
    (h : WhatsAppSessionRepository.storeLimits limits w = some (x, w')) : w' = w := by
  unfold WhatsAppSessionRepository.storeLimits at h
  rcases hl : limits.map toStoredAccountLimits with _ | _ | stored <;> simp only [hl] at h
  · exact (Sql.pure_eq_some.1 h).2
  · cases h
  · exact (Sql.pure_eq_some.1 h).2

/-- A slot is at least the minimum pacing away, whatever is drawn. -/
theorem pacing_le (now : Timestamptz) (minimum maximum draw : Nat) :
    now + (minimum : Int) * 1000000 ≤
      now + ((minimum + min draw (maximum - minimum) : Nat) : Int) * 1000000 := by
  have hle : (minimum : Int) ≤ ((minimum + min draw (maximum - minimum) : Nat) : Int) :=
    Int.ofNat_le.2 (Nat.le_add_right _ _)
  exact Int.add_le_add_left (Int.mul_le_mul_of_nonneg_right hle (by decide)) _

/-- A slot that was reserved was free, and the next one is at least the pacing away. -/
theorem reserveSlot_cases {id : Uuid} {now : Date} {draw : Nat} {w w' : World}
    {x : Option Timestamptz}
    (h : WhatsAppSessionRepository.reserveSlot id now draw w = some (x, w')) (s : Uuid) :
    Connects w w' s (.reserveSlot id now) := by
  obtain ⟨w₁, w₂, h₁, h⟩ := Sql.bind_eq_some.1 h
  cases h₁
  obtain ⟨reserved, w₃, h₃, h⟩ := Sql.bind_eq_some.1 h
  obtain ⟨-, rfl⟩ := Sql.pure_eq_some.1 h
  exact connects_updateOne h₃
    (fun old hp => .reserved (by simpa using hp) rfl (pacing_le _ _ _ _) rfl) s

/-- **What an operation can do to a connection.** -/
theorem exec_connection {w w' : World} {o : Op} {c : Choice} {r : o.Ret}
    (h : exec w o c = some (r, w')) (s : Uuid) : Connects w w' s o := by
  have haside : .whatsAppSessions ∉ o.footprint → Connects w w' s o := fun hF =>
    .inl (by rw [World.session, (within_exec h).whatsAppSessions hF]; rfl)
  cases o
  case recordStatus =>
    obtain ⟨_, _, h₁, h₂⟩ := Sql.bind_eq_some.1 (Choice.quietly_eq_some.1 h).2
    obtain ⟨-, rfl⟩ := Sql.pure_eq_some.1 h₂
    exact connects_updateOne (sending_eq_some.1 h₁).2 (fun _ _ => .kept rfl rfl rfl) s
  case claimAccountLimitsRefresh =>
    obtain ⟨_, _, h₁, h₂⟩ := Sql.bind_eq_some.1 (Choice.quietly_eq_some.1 h).2
    obtain ⟨-, rfl⟩ := Sql.pure_eq_some.1 h₂
    exact connects_updateOne h₁ (fun _ _ => .kept rfl rfl rfl) s
  case invalidateAccountLimits =>
    obtain ⟨_, _, h₁, h₂⟩ := Sql.bind_eq_some.1 (Choice.quietly_eq_some.1 h).2
    obtain ⟨-, rfl⟩ := Sql.pure_eq_some.1 h₂
    exact connects_updateOne h₁ (fun _ _ => .kept rfl rfl rfl) s
  case recordAccountLimits =>
    obtain ⟨_, _, h₀, h⟩ := Sql.bind_eq_some.1 (Choice.quietly_eq_some.1 h).2
    rw [storeLimits_world h₀] at h
    obtain ⟨_, _, h₁, h₂⟩ := Sql.bind_eq_some.1 h
    obtain ⟨-, rfl⟩ := Sql.pure_eq_some.1 h₂
    exact connects_updateOne (sending_eq_some.1 h₁).2 (fun _ _ => .limited rfl rfl rfl) s
  case endSendingPause =>
    obtain ⟨_, _, h₁, h₂⟩ := Sql.bind_eq_some.1 (Choice.quietly_eq_some.1 h).2
    obtain ⟨-, rfl⟩ := Sql.pure_eq_some.1 h₂
    exact connects_updateOne h₁ (fun _ hp => .lifted (by simpa using hp) rfl rfl) s
  case reserveSlot =>
    obtain ⟨draw, -, h⟩ := given_eq_some.1 h
    exact reserveSlot_cases h s
  all_goals exact haside (by simp [Op.footprint])

/-- The slot a dispatch is told of is the connection's next send, at least the pacing away. -/
theorem reserveSlot_some {w w' : World} {s : Uuid} {now : Date} {c : Choice} {slot : Timestamptz}
    (h : exec w (.reserveSlot s now) c = some (some slot, w')) : ∃ old new,
      w.session s = some old ∧ w'.session s = some new ∧ new.nextSendAllowedAt = slot ∧
        old.nextSendAllowedAt ≤ toTimestamptz now ∧
        w.now + (old.sendPacingMinimumSeconds : Int) * 1000000 ≤ slot := by
  obtain ⟨draw, -, h⟩ := given_eq_some.1 h
  obtain ⟨w₁, w₂, h₁, h⟩ := Sql.bind_eq_some.1 h
  cases h₁
  obtain ⟨reserved, w₃, h₃, h⟩ := Sql.bind_eq_some.1 h
  obtain ⟨hslot, rfl⟩ := Sql.pure_eq_some.1 h
  obtain ⟨new, hnew, hnext⟩ := Option.map_eq_some_iff.1 hslot.symm
  cases h₃
  obtain ⟨old, hold, hp, hnew'⟩ := Table.updateAt_eq_some.1 hnew
  refine ⟨old, new, hold, ?_, hnext, by simpa using hp, ?_⟩
  · rw [World.session, Table.find?_updateAt_self, hold, Option.map_some, if_pos hp, hnew']
  · rw [← hnext, hnew']
    exact pacing_le _ _ _ _

end NotificationPlatform
