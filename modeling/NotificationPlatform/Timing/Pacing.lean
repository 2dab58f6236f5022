import Mathlib.Data.List.Chain
import Mathlib.Data.List.Pairwise
import NotificationPlatform.Timing.Pause

/-!
# Pacing of sends

A connection hands out its slots one after the other, each at least the minimum pacing long. A slot
is taken before the recipient is looked up, the typing indicator shown and the attempt begun, and
nothing holds a send to the slot it took: how far apart two messages go out also depends on how long
each dispatch takes from its slot to its send.
-/

namespace NotificationPlatform

open Interleaving

/-- An operation that was performed, and when. -/
abbrev Entry := Performed operations × Timestamptz

/-- The slot of the connection a dispatch was given, if it was given one. -/
def slotOf (sessionId : Uuid) : Performed operations → Option Timestamptz
  | ⟨_, .reserveSlot s _, slot⟩ => if s = sessionId then slot else none
  | _ => none

/-- The row a dispatch was given to claim. -/
def claimOf : Performed operations → Option NotificationRecord
  | ⟨_, .claimForDispatch _ _ _ _, c⟩ => c
  | _ => none

/-! ## What a dispatch remembers of its trace -/

/-- Every slot a dispatch knows of is one it was given, and it knows of what it was given. -/
structure Remembers (ws : WatchPhases) (trace : List (Performed operations)) : Prop where
  slot : ∀ {i q slot}, Watching ws i q → q.slot = some slot → ∃ c p, q.claimed = some c ∧
    p ∈ trace ∧ p.thread = i ∧ slotOf c.whatsAppSessionId p = some slot
  claim : ∀ {p c}, p ∈ trace → claimOf p = some c →
    ∃ q, Watching ws p.thread q ∧ q.claimed = some c
  send : ∀ {p}, p ∈ trace → p.op.isSendTextMessage = true →
    ∃ q, Watching ws p.thread q ∧ q.slot.isSome = true

/-- A dispatch keeps the row it claimed and the slot it took. -/
theorem Watch.kept_advance {q : Watch} {o : Op} (ho : q.Allows o) (r : o.Ret) :
    (∀ c, q.claimed = some c → (q.advance o r).claimed = some c) ∧
      ∀ slot, q.slot = some slot → (q.advance o r).slot = some slot := by
  cases o
  case claimForDispatch =>
    cases r with
    | none => exact ⟨fun _ => id, fun _ => id⟩
    | some c => exact ⟨fun _ hc => absurd (ho.1.symm.trans hc) nofun, fun _ => id⟩
  case reserveSlot => exact ⟨fun _ => id, fun _ hs => absurd (ho.1.symm.trans hs) nofun⟩
  case promoteScheduled => cases r <;> exact ⟨fun _ => id, fun _ => id⟩
  case findSessionById => cases r <;> exact ⟨fun _ => id, fun _ => id⟩
  case beginAttempt => cases r <;> exact ⟨fun _ => id, fun _ => id⟩
  all_goals exact ⟨fun _ => id, fun _ => id⟩

/-- A slot a dispatch knows of after an operation: known before, or given now. -/
theorem Watch.slot_advance {q : Watch} {o : Op} (ho : q.Allows o) {r : o.Ret} {slot : Timestamptz}
    (i : Nat) (h : (q.advance o r).slot = some slot) : q.slot = some slot ∨
      ∃ c, q.claimed = some c ∧ slotOf c.whatsAppSessionId ⟨i, o, r⟩ = some slot := by
  cases o
  case reserveSlot s now =>
    obtain ⟨-, -, c, conn, hreads, rfl⟩ := ho
    exact .inr ⟨c, hreads.claimed, (if_pos rfl).trans h⟩
  case promoteScheduled => cases r <;> exact .inl h
  case claimForDispatch => cases r <;> exact .inl h
  case findSessionById => cases r <;> exact .inl h
  case beginAttempt => cases r <;> exact .inl h
  all_goals exact .inl h

section Runs

variable {configuration : Configuration} {P : System (platform configuration) →
  Label (platform configuration) → Prop} {w : World} {s s' : System (platform configuration)}
  {l : Label (platform configuration)} {i : Nat} {sessionId : Uuid}

theorem Remembers.advance {ws : WatchPhases} {trace : List (Performed operations)} {ph : WatchPhase}
    {o : Op} {r : o.Ret} (h : Remembers ws trace) (hi : ws i = some ph) (ho : ph.Allows o) :
    Remembers (Function.update ws i (some (ph.advance o r))) (⟨i, o, r⟩ :: trace) := by
  -- a dispatch after the step knows at least what it knew before
  have hkeep : ∀ {j q}, Watching ws j q →
      ∃ q', Watching (Function.update ws i (some (ph.advance o r))) j q' ∧
        (∀ c, q.claimed = some c → q'.claimed = some c) ∧
        ∀ slot, q.slot = some slot → q'.slot = some slot := by
    intro j q hq
    by_cases hji : j = i
    · subst hji
      cases hi.symm.trans hq
      exact ⟨_, Function.update_self .., q.kept_advance ho r⟩
    · exact ⟨q, (watching_other hji).2 hq, fun _ => id, fun _ => id⟩
  refine ⟨fun {j q' slot} hq' hslot => ?_, fun {p c} hp hc => ?_, fun {p} hp hsend => ?_⟩
  · rcases watching_advance hi hq' with ⟨-, hq⟩ | ⟨rfl, q, rfl, hq, rfl⟩
    · obtain ⟨c, p, hc, hp, hpi, hs⟩ := h.slot hq hslot
      exact ⟨c, p, hc, List.mem_cons_of_mem _ hp, hpi, hs⟩
    · rcases Watch.slot_advance ho j hslot with hold | ⟨c, hc, hs⟩
      · obtain ⟨c, p, hc, hp, hpi, hs⟩ := h.slot hq hold
        exact ⟨c, p, (q.kept_advance ho r).1 c hc, List.mem_cons_of_mem _ hp, hpi, hs⟩
      · exact ⟨c, _, (q.kept_advance ho r).1 c hc, List.mem_cons_self, rfl, hs⟩
  · rcases List.mem_cons.1 hp with rfl | hp
    · cases o <;> simp only [claimOf, reduceCtorEq] at hc
      subst hc
      cases ph with
      | serving => cases ho
      | dispatching q => exact ⟨_, Function.update_self .., rfl⟩
    · obtain ⟨q, hq, hclaimed⟩ := h.claim hp hc
      obtain ⟨q', hq', hkept, -⟩ := hkeep hq
      exact ⟨q', hq', hkept c hclaimed⟩
  · rcases List.mem_cons.1 hp with rfl | hp
    · cases o <;> simp only [Op.isSendTextMessage, Bool.false_eq_true] at hsend
      cases ph with
      | serving => cases ho
      | dispatching q =>
        obtain ⟨c, conn, hcleared, -⟩ := id ho
        exact ⟨_, Function.update_self .., hcleared.slot⟩
    · obtain ⟨q, hq, hslot⟩ := h.send hp hsend
      obtain ⟨slot, hslot⟩ := Option.isSome_iff_exists.1 hslot
      obtain ⟨q', hq', -, hkept⟩ := hkeep hq
      exact ⟨q', hq', by rw [hkept slot hslot]; rfl⟩

theorem remembers_run (h : Run P (System.start w) s) : Remembers (watches s) s.trace := by
  induction h with
  | refl => exact ⟨nofun, fun hp => absurd hp List.not_mem_nil, fun hp => absurd hp List.not_mem_nil⟩
  | @tail s₁ s₂ l hr _ hs ih =>
    unfold watches at ih ⊢
    cases (watched_run hr).stepped hs with
    | @spawned j request fresh phases _ _ trace =>
      have hne : ∀ {k q}, Watching ((watchDiscipline configuration).phase s₁) k q → k ≠ j := by
        rintro k q hq rfl
        exact absurd (fresh.symm.trans hq) nofun
      rw [phases, trace]
      refine ⟨fun hq hslot => ?_, fun hp hc => ?_, fun hp hsend => ?_⟩
      · rcases watching_spawn hq with ⟨-, hq⟩ | ⟨-, input, rfl⟩
        · exact ih.slot hq hslot
        · cases hslot
      · obtain ⟨q, hq, hclaimed⟩ := ih.claim hp hc
        exact ⟨q, (watching_other (hne hq)).2 hq, hclaimed⟩
      · obtain ⟨q, hq, hslot⟩ := ih.send hp hsend
        exact ⟨q, (watching_other (hne hq)).2 hq, hslot⟩
    | crashed phases _ _ trace | outside phases _ _ trace =>
      rw [phases, trace]
      exact ih
    | advanced phases _ _ step =>
      rw [phases, step.trace]
      exact ih.advance step.before step.allowed

/-- A dispatch of a notification bound to the connection that sent had taken a slot of it. -/
theorem Remembers.reserved {ws : WatchPhases} {trace : List (Performed operations)}
    (h : Remembers ws trace) {p p' : Performed operations} (hp : p ∈ trace)
    (hsend : p.op.isSendTextMessage = true) (hp' : p' ∈ trace) (hthread : p'.thread = p.thread)
    {c : NotificationRecord} (hc : claimOf p' = some c) (hbound : c.whatsAppSessionId = sessionId) :
    ∃ ρ slot, ρ ∈ trace ∧ ρ.thread = p.thread ∧ slotOf sessionId ρ = some slot := by
  obtain ⟨q, hq, hslot⟩ := h.send hp hsend
  obtain ⟨slot, hslot⟩ := Option.isSome_iff_exists.1 hslot
  obtain ⟨q', hq', hclaimed⟩ := h.claim hp' hc
  rw [hthread] at hq'
  cases hq.unique hq'
  obtain ⟨c', ρ, hc', hρ, hi, hs⟩ := h.slot hq hslot
  cases hclaimed.symm.trans hc'
  exact ⟨ρ, slot, hρ, hi, hbound ▸ hs⟩

/-! ## Slots follow each other -/

theorem slotOf_eq {p : Performed operations} {slot : Timestamptz}
    (h : slotOf sessionId p = some slot) :
    ∃ i now, p = ⟨i, .reserveSlot sessionId now, some slot⟩ := by
  obtain ⟨i, o, r⟩ := p
  cases o <;> simp only [slotOf, reduceCtorEq] at h
  case reserveSlot s now =>
    split at h
    · rename_i hs
      subst hs
      subst h
      exact ⟨i, now, rfl⟩
    · cases h

/-- Whoever reserves a slot says a time that has come. -/
theorem reserved_in_time (hr : Run OnTime (System.start w) s) {choice : Choice} {now : Date}
    {slot : Option Timestamptz} {ph : WatchPhase} (ha : (watchDiscipline configuration).Advanced
      s s' i choice (.reserveSlot sessionId now) slot ph) : toTimestamptz now ≤ s.world.now := by
  cases ph with
  | serving => exact absurd ha.allowed nofun
  | dispatching q =>
    have hreached : now ≤ toDate s.world.now := (clocked_run hr).reached ha.before ha.allowed.2.1
    exact (toTimestamptz_mono hreached).trans (toTimestamptz_toDate _)

/-- The next send of a connection is only put off, and its pacing stays. -/
theorem next_step (hr : Run OnTime (System.start w) s) (hl : Timely sessionId s l)
    (hs : s.step l = some s') {r' : WhatsAppSessionRecord}
    (hr' : s'.world.session sessionId = some r') :
    ∃ r, s.world.session sessionId = some r ∧ r.nextSendAllowedAt ≤ r'.nextSendAllowedAt ∧
      r'.sendPacingMinimumSeconds = r.sendPacingMinimumSeconds := by
  cases hstep : l with
  | spawn j request =>
    subst hstep
    obtain ⟨-, rfl⟩ := System.step_spawn.1 hs
    exact ⟨r', hr', le_refl _, rfl⟩
  | crash j =>
    subst hstep
    obtain ⟨_, _, _, -, rfl⟩ := System.step_crash.1 hs
    exact ⟨r', hr', le_refl _, rfl⟩
  | outside event =>
    subst hstep
    obtain ⟨w', he, rfl⟩ := System.step_outside.1 hs
    obtain ⟨r, hrow, -, hnext, hminimum⟩ := hl.2.outside he hr'
    exact ⟨r, hrow, hnext.ge, hminimum⟩
  | advance j choice =>
    subst hstep
    obtain ⟨o, a, ph, ha⟩ := (watched_run hr).advanced hs
    rcases exec_connection ha.exec sessionId with hsame | ⟨old, new, hold, hnew, hstep⟩
    · exact ⟨r', hsame.symm.trans hr', le_refl _, rfl⟩
    · cases hnew.symm.trans hr'
      refine ⟨old, hold, ?_, ?_⟩
      · cases hstep with
        | kept _ next | limited _ next | lifted _ next => exact next.ge
        | reserved free _ next =>
          have hlater : s.world.now ≤ s.world.now + (old.sendPacingMinimumSeconds : Int) * 1000000 :=
            Int.le_add_of_nonneg_right (Int.mul_nonneg (Int.natCast_nonneg _) (by decide))
          exact (free.trans (reserved_in_time hr ha)).trans (hlater.trans next)
      · cases hstep with
        | kept _ _ minimum | limited _ _ minimum | lifted _ _ minimum | reserved _ _ _ minimum =>
          exact minimum

/-- The slots of a connection since it came into use: each is as long as the pacing at least, the
connection is free no earlier than the last one ends, and each was taken after those before it. -/
structure Slots (sessionId : Uuid) (pacing : Nat) (w : World) (log : List Entry) : Prop where
  minimum : ∀ r, w.session sessionId = some r → r.sendPacingMinimumSeconds = pacing
  long : ∀ e ∈ log, ∀ slot, slotOf sessionId e.1 = some slot →
    e.2 + (pacing : Int) * 1000000 ≤ slot
  next : ∀ e ∈ log, ∀ slot, slotOf sessionId e.1 = some slot →
    ∀ r, w.session sessionId = some r → slot ≤ r.nextSendAllowedAt
  past : ∀ e ∈ log, e.2 ≤ w.now
  ordered : log.Pairwise fun later earlier => earlier.2 ≤ later.2 ∧
    ∀ slot, slotOf sessionId earlier.1 = some slot →
      (slotOf sessionId later.1).isSome = true → slot ≤ later.2

/-- Slots stay as they are while the next send is only put off. -/
theorem Slots.later {pacing : Nat} {log : List Entry} {w w' : World}
    (h : Slots sessionId pacing w log) (hnow : w.now ≤ w'.now)
    (hrow : ∀ r', w'.session sessionId = some r' → ∃ r, w.session sessionId = some r ∧
      r.nextSendAllowedAt ≤ r'.nextSendAllowedAt ∧
        r'.sendPacingMinimumSeconds = r.sendPacingMinimumSeconds) :
    Slots sessionId pacing w' log where
  minimum r' hr' := by
    obtain ⟨r, hr, -, hminimum⟩ := hrow r' hr'
    rw [hminimum, h.minimum r hr]
  long := h.long
  next e he slot hslot r' hr' := by
    obtain ⟨r, hr, hnext, -⟩ := hrow r' hr'
    exact (h.next e he slot hslot r hr).trans hnext
  past e he := (h.past e he).trans hnow
  ordered := h.ordered

/-- A slot given now begins when those before it are over. -/
theorem Slots.given {pacing : Nat} {log : List Entry} {w w' : World} {p : Performed operations}
    (h : Slots sessionId pacing w log) (hkept : Slots sessionId pacing w' log)
    (hnow : w.now ≤ w'.now) (hgives : ∀ slot, slotOf sessionId p = some slot → ∃ old new,
      w.session sessionId = some old ∧ w'.session sessionId = some new ∧
        new.nextSendAllowedAt = slot ∧ old.nextSendAllowedAt ≤ w.now ∧
        w.now + (old.sendPacingMinimumSeconds : Int) * 1000000 ≤ slot) :
    Slots sessionId pacing w' ((p, w.now) :: log) := by
  have hgiven : ∀ slot, slotOf sessionId p = some slot →
      w.now + (pacing : Int) * 1000000 ≤ slot ∧
      (∀ e ∈ log, ∀ before, slotOf sessionId e.1 = some before → before ≤ w.now) ∧
      ∀ r', w'.session sessionId = some r' → slot ≤ r'.nextSendAllowedAt := by
    intro slot hslot
    obtain ⟨old, new, hold, hnew, hnext, hfree, hlong⟩ := hgives slot hslot
    refine ⟨h.minimum old hold ▸ hlong, fun e he before hbefore => ?_, fun r' hr' => ?_⟩
    · exact (h.next e he before hbefore old hold).trans hfree
    · cases hnew.symm.trans hr'
      exact hnext.ge
  refine ⟨hkept.minimum, ?_, ?_, ?_, ?_⟩
  · intro e he slot hslot
    rcases List.mem_cons.1 he with rfl | he
    · exact (hgiven slot hslot).1
    · exact h.long e he slot hslot
  · intro e he slot hslot
    rcases List.mem_cons.1 he with rfl | he
    · exact (hgiven slot hslot).2.2
    · exact hkept.next e he slot hslot
  · intro e he
    rcases List.mem_cons.1 he with rfl | he
    · exact hnow
    · exact hkept.past e he
  · refine List.pairwise_cons.2 ⟨fun e he => ⟨h.past e he, fun before hbefore hsome => ?_⟩,
      h.ordered⟩
    obtain ⟨slot, hslot⟩ := Option.isSome_iff_exists.1 hsome
    exact (hgiven slot hslot).2.1 e he before hbefore

theorem Slots.start {r : WhatsAppSessionRecord} {w : World}
    (hrow : w.session sessionId = some r) : Slots sessionId r.sendPacingMinimumSeconds w [] := by
  refine ⟨fun r' hr' => ?_, fun e he => absurd he List.not_mem_nil,
    fun e he => absurd he List.not_mem_nil, fun e he => absurd he List.not_mem_nil,
    List.Pairwise.nil⟩
  cases hrow.symm.trans hr'
  rfl

theorem Slots.step {pacing : Nat} {log : List Entry} (hr : Run OnTime (System.start w) s)
    (h : Slots sessionId pacing s.world log) (hl : Timely sessionId s l)
    (hs : s.step l = some s') : Slots sessionId pacing s'.world log :=
  h.later (now_step hs) fun _ => next_step hr hl hs

theorem Slots.performed {pacing : Nat} {log : List Entry} (hr : Run OnTime (System.start w) s)
    (h : Slots sessionId pacing s.world log) (hl : Timely sessionId s l)
    {p : Performed operations} (hs : s.Performs l p s') :
    Slots sessionId pacing s'.world ((p, s.world.now) :: log) := by
  refine h.given (h.step hr hl hs.1) (now_step hs.1) fun slot hslot => ?_
  obtain ⟨j, now, rfl⟩ := slotOf_eq hslot
  obtain ⟨choice, ph, rfl, ha, -⟩ := (watched_run hr).performs hs
  obtain ⟨old, new, hold, hnew, hnext, hfree, hlong⟩ := reserveSlot_some ha.exec
  exact ⟨old, new, hold, hnew, hnext, hfree.trans (reserved_in_time hr ha), hlong⟩

theorem slots_run {log : List Entry} {r : WhatsAppSessionRecord}
    (h₀ : Run OnTime (System.start w) s) (hrow : s.world.session sessionId = some r)
    (h : Logged (Timely sessionId) World.now s log s') :
    Slots sessionId r.sendPacingMinimumSeconds s'.world log := by
  induction h with
  | refl => exact Slots.start hrow
  | quiet h hl hs _ ih => exact ih.step (h₀.trans (Timely.run h.run)) hl hs
  | performed h hl hs ih => exact ih.performed (h₀.trans (Timely.run h.run)) hl hs

/-! ## From slots to sends -/

/-- A dispatch that was given a slot of the connection and sent: the reservation, until when the slot
is, and the send. -/
structure PacedSend where
  reservation : Entry
  slot : Timestamptz
  send : Entry

/-- How long the dispatch took from its slot to its send. -/
def PacedSend.delay (x : PacedSend) : Int := x.send.2 - x.reservation.2

/-- The sends through a connection in the order of their slots, the last slot first. -/
def pacedSends (sessionId : Uuid) (log : List Entry) : List PacedSend :=
  log.flatMap fun e => (slotOf sessionId e.1).toList.flatMap fun slot =>
    (log.filter fun e' => e'.1.op.isSendTextMessage && e'.1.thread = e.1.thread).map fun e' =>
      ⟨e, slot, e'⟩

/-- Of two dispatches that sent, with no other one's slot between theirs, the one that took its slot
first did not take longer from its slot to its send than the other one, or only by what was drawn
beyond the minimum. -/
def InPace (sessionId : Uuid) (pacing : Nat) (log : List Entry) : Prop :=
  (pacedSends sessionId log).IsChain fun later earlier =>
    earlier.delay ≤ (earlier.slot - earlier.reservation.2 - (pacing : Int) * 1000000) + later.delay

instance (pacing : Nat) (log : List Entry) : Decidable (InPace sessionId pacing log) :=
  inferInstanceAs (Decidable (List.IsChain _ _))

theorem mem_pacedSends {log : List Entry} {ρ e : Entry} {slot : Timestamptz} (hρ : ρ ∈ log)
    (hslot : slotOf sessionId ρ.1 = some slot) (he : e ∈ log)
    (hsend : e.1.op.isSendTextMessage = true) (hthread : ρ.1.thread = e.1.thread) :
    ⟨ρ, slot, e⟩ ∈ pacedSends sessionId log := by
  refine List.mem_flatMap.2 ⟨ρ, hρ, ?_⟩
  rw [hslot]
  refine List.mem_flatMap.2 ⟨slot, List.mem_singleton.2 rfl, ?_⟩
  exact List.mem_map.2 ⟨e, List.mem_filter.2 ⟨he, by simp [hsend, hthread]⟩, rfl⟩

/-- The operation sends a notification bound to the connection. -/
def SendsThrough (sessionId : Uuid) (s : System (platform configuration))
    (p : Performed operations) : Prop :=
  p.op.isSendTextMessage = true ∧ ∃ p' ∈ s.trace, p'.thread = p.thread ∧
    (claimOf p').any (·.whatsAppSessionId = sessionId) = true

instance (s : System (platform configuration)) (p : Performed operations) :
    Decidable (SendsThrough sessionId s p) := inferInstanceAs (Decidable (_ ∧ _))

/-- No dispatch sends twice. -/
theorem sends_apart (hw : Fresh w) (hr : Run P (System.start w) s) {p p' : Performed operations}
    (hsub : [p, p'].Sublist s.trace) (hp : p.op.isSendTextMessage = true)
    (hp' : p'.op.isSendTextMessage = true) : p.thread ≠ p'.thread := by
  intro hthread
  have hmem : p ∈ s.trace := hsub.subset List.mem_cons_self
  obtain ⟨q, hq, -⟩ := (remembers_run hr).send hmem hp
  obtain ⟨progress, hd, -⟩ := linked_run hr hq
  have hn := dispatches_iff.2 ⟨progress, hd, rfl⟩
  have hboth : ([p, p'].filter fun e => e.op.isSendTextMessage && (s.requestOf e.thread).any
      (Request.dispatches progress.input.notificationId)) = [p, p'] := by
    rw [List.filter_eq_self]
    intro e he
    simp only [List.mem_cons, List.not_mem_nil, or_false] at he
    rcases he with rfl | rfl
    · rw [hp, hn, Bool.and_self]
    · rw [hp', ← hthread, hn, Bool.and_self]
  have hsends := hsub.filter fun e => e.op.isSendTextMessage && (s.requestOf e.thread).any
    (Request.dispatches progress.input.notificationId)
  rw [hboth] at hsends
  have hnodup := (hsends.map Performed.thread).nodup
    ((sendsOnce_run hw hr).nodup progress.input.notificationId)
  simp [hthread] at hnodup

theorem Logged.sent {log : List Entry} {s₀ : System (platform configuration)}
    (h₀ : Run OnTime (System.start w) s₀) (hunused : ∀ p ∈ s₀.trace, slotOf sessionId p = none)
    (h : Logged (Timely sessionId) World.now s₀ log s) {e : Entry} (he : e ∈ log)
    (hsend : SendsThrough sessionId s e.1) :
    ∃ ρ slot, ⟨ρ, slot, e⟩ ∈ pacedSends sessionId log := by
  obtain ⟨hop, p', hp', hthread, hclaim⟩ := hsend
  obtain ⟨c, hc, hbound⟩ := (Option.any_eq_true _ _).1 hclaim
  have htrace := h.trace
  have hmem : e.1 ∈ s.trace := by
    rw [htrace]
    exact List.mem_append_left _ (List.mem_map_of_mem he)
  obtain ⟨p, slot, hp, hi, hslot⟩ := (remembers_run (h₀.trans (Timely.run h.run))).reserved hmem
    hop hp' hthread hc (of_decide_eq_true hbound)
  rw [htrace] at hp
  rcases List.mem_append.1 hp with hlog | hold
  · obtain ⟨ρ, hρ, rfl⟩ := List.mem_map.1 hlog
    exact ⟨ρ, slot, mem_pacedSends hρ hslot he hop hi⟩
  · rw [hunused p hold] at hslot
    cases hslot

/-- The slots of dispatches that sent follow one another. -/
theorem Slots.pacedSends_ordered {pacing : Nat} {world : World} {log : List Entry}
    (h : Slots sessionId pacing world log)
    (hsends : log.Pairwise fun e e' => e.1.op.isSendTextMessage = true →
      e'.1.op.isSendTextMessage = true → e.1.thread ≠ e'.1.thread) :
    (pacedSends sessionId log).Pairwise fun later earlier =>
      earlier.slot ≤ later.reservation.2 := by
  refine List.pairwise_flatMap.2 ⟨fun e he => ?_, h.ordered.imp ?_⟩
  · -- no dispatch sends twice, so there is one send at most for a slot
    cases slotOf sessionId e.1 with
    | none => exact List.Pairwise.nil
    | some slot =>
      rw [Option.toList_some, List.flatMap_singleton, List.pairwise_map]
      refine (hsends.filter _).imp_of_mem fun {a b} ha hb hab => ?_
      have hfa := (List.mem_filter.1 ha).2
      have hfb := (List.mem_filter.1 hb).2
      simp only [Bool.and_eq_true, decide_eq_true_eq] at hfa hfb
      exact absurd (hfa.2.trans hfb.2.symm) (hab hfa.1 hfb.1)
  · intro later earlier hordered x hx y hy
    obtain ⟨slot, hslot, hx⟩ := List.mem_flatMap.1 hx
    obtain ⟨e, -, rfl⟩ := List.mem_map.1 hx
    obtain ⟨slot', hslot', hy⟩ := List.mem_flatMap.1 hy
    obtain ⟨e', -, rfl⟩ := List.mem_map.1 hy
    refine hordered.2 slot' (Option.mem_toList.1 hslot') ?_
    rw [Option.mem_toList.1 hslot]
    rfl

theorem spaced {pacing sent reserved slot sent' reserved' : Int}
    (hlag : sent - reserved ≤ (slot - reserved - pacing) + (sent' - reserved'))
    (h : slot ≤ reserved') : sent + pacing ≤ sent' := by
  omega

theorem spaced_trans {pacing sent₁ sent₂ sent₃ : Int} (hpacing : 0 ≤ pacing)
    (h : sent₁ + pacing ≤ sent₂) (h' : sent₂ + pacing ≤ sent₃) : sent₁ + pacing ≤ sent₃ := by
  omega

theorem spaced_back {pacing sent sent' : Int} (h : sent' + pacing ≤ sent) (hle : sent ≤ sent') :
    sent + pacing ≤ sent' := by
  omega

theorem pacing_nonneg (pacing : Nat) : 0 ≤ (pacing : Int) * 1000000 :=
  Int.mul_nonneg (Int.natCast_nonneg _) (by decide)

/-- Of two sends, one went out the minimum after the other. -/
def PacedSend.Spaced (pacing : Nat) (x y : PacedSend) : Prop :=
  x.send.2 + (pacing : Int) * 1000000 ≤ y.send.2 ∨ y.send.2 + (pacing : Int) * 1000000 ≤ x.send.2

instance (pacing : Nat) : Std.Symm (PacedSend.Spaced pacing) where
  symm _ _ h := h.symm

/-- What is in pace from one slot to the next is spaced over all slots. -/
theorem InPace.spaced {pacing : Nat} {log : List Entry} (hpace : InPace sessionId pacing log)
    (hordered : (pacedSends sessionId log).Pairwise fun later earlier =>
      earlier.slot ≤ later.reservation.2) :
    (pacedSends sessionId log).Pairwise (PacedSend.Spaced pacing) := by
  have hchain : (pacedSends sessionId log).IsChain fun later earlier =>
      earlier.send.2 + (pacing : Int) * 1000000 ≤ later.send.2 := by
    refine List.isChain_iff_forall_rel_of_append_cons_cons.2 fun {later earlier l l'} hl => ?_
    have hlag := List.isChain_iff_forall_rel_of_append_cons_cons.1 hpace hl
    rw [hl] at hordered
    have hover := (List.pairwise_cons.1 (List.pairwise_append.1 hordered).2.1).1 earlier
      List.mem_cons_self
    exact NotificationPlatform.spaced hlag hover
  have htrans : Trans (fun x y : PacedSend => y.send.2 + (pacing : Int) * 1000000 ≤ x.send.2)
      (fun x y : PacedSend => y.send.2 + (pacing : Int) * 1000000 ≤ x.send.2)
      (fun x y : PacedSend => y.send.2 + (pacing : Int) * 1000000 ≤ x.send.2) := by
    exact ⟨fun hxy hyz => spaced_trans (pacing_nonneg pacing) hyz hxy⟩
  exact (List.isChain_iff_pairwise.1 hchain).imp .inr

/-- **Sends keep the pacing of their slots** in every run whose dispatches are in pace: two messages
go out through a connection at least the minimum apart. -/
theorem send_pacing (hw : Fresh w) {s₀ : System (platform configuration)}
    (h₀ : Run OnTime (System.start w) s₀) (hunused : ∀ p ∈ s₀.trace, slotOf sessionId p = none)
    {r : WhatsAppSessionRecord} (hrow : s₀.world.session sessionId = some r) {log : List Entry}
    (h : Logged (Timely sessionId) World.now s₀ log s)
    (hpace : InPace sessionId r.sendPacingMinimumSeconds log) :
    log.Pairwise fun later earlier => SendsThrough sessionId s later.1 →
      SendsThrough sessionId s earlier.1 →
        earlier.2 + (r.sendPacingMinimumSeconds : Int) * 1000000 ≤ later.2 := by
  have hslots := slots_run h₀ hrow h
  have hsends : log.Pairwise fun e e' => e.1.op.isSendTextMessage = true →
      e'.1.op.isSendTextMessage = true → e.1.thread ≠ e'.1.thread := by
    refine List.pairwise_iff_forall_sublist.2 fun {e e'} hsub hsend hsend' => ?_
    refine sends_apart hw (h₀.trans (Timely.run h.run)) ?_ hsend hsend'
    rw [h.trace]
    exact (hsub.map (·.1)).trans (List.sublist_append_left _ _)
  have hspaced := hpace.spaced (hslots.pacedSends_ordered hsends)
  refine List.pairwise_iff_forall_sublist.2 fun {later earlier} hsub hlater hearlier => ?_
  have hne := List.pairwise_iff_forall_sublist.1 hsends hsub hlater.1 hearlier.1
  have htime := (List.pairwise_iff_forall_sublist.1 hslots.ordered hsub).1
  obtain ⟨ρ, slot, hsent⟩ := Logged.sent h₀ hunused h (hsub.subset (by simp)) hearlier
  obtain ⟨ρ', slot', hsent'⟩ := Logged.sent h₀ hunused h (hsub.subset (by simp)) hlater
  have hdistinct : (⟨ρ', slot', later⟩ : PacedSend) ≠ ⟨ρ, slot, earlier⟩ := by
    intro heq
    cases heq
    exact hne rfl
  rcases hspaced.forall hsent' hsent hdistinct with hback | hspaced
  · -- the later one was overtaken, which only a connection without pacing allows
    exact spaced_back hback htime
  · exact hspaced

end Runs

/-! ## Runs of the sample -/

namespace Sample

/-- The connection sends every thirty seconds. -/
def pacedSession : WhatsAppSessionRecord :=
  { session with sendPacingMinimumSeconds := 30, sendPacingMaximumSeconds := 30 }

def pacedWorld : World :=
  { world .RETRY with whatsAppSessions := ⟨[pacedSession], List.nodup_singleton _⟩ }

/-- Notifications 7 and 8 are created, and each is dispatched. -/
def both : List Step :=
  [.outside (.created draft), .outside (.created { draft with id := 8 }),
    .spawn 0 (.dispatch ⟨1, 7, "order"⟩), .spawn 1 (.dispatch ⟨1, 8, "order"⟩)]

/-- Dispatch `i` takes its slot. -/
def takesSlot (i : Nat) (now : Date) : List Step := claims i now ++ reads i now ++ prepares i now

/-- Dispatch `i` begins its attempt, and sends. -/
def goesOut (i : Nat) (now : Date) : List Step := begins i now true ++ [.advance i .nothing]

/-- Each dispatch sends as soon as it has its slot. -/
def prompt : List Step :=
  both ++ takesSlot 0 0 ++ goesOut 0 0 ++ [.outside (.clock 30000000)] ++ takesSlot 1 30000 ++
    goesOut 1 30000

/-- The lookup of the first dispatch takes until the second one has its slot. -/
def bunched : List Step :=
  both ++ takesSlot 0 0 ++ [.outside (.clock 30000000)] ++ takesSlot 1 30000 ++ goesOut 0 30000 ++
    goesOut 1 30000

def paced (ls : List Step) : System (platform configuration) :=
  (System.start pacedWorld).after ls

def pacedLog (ls : List Step) : List Entry := (System.start pacedWorld).logs World.now [] ls

theorem paced_logged {ls : List Step}
    (h : checksEach readsTimely (System.start pacedWorld) ls = true) :
    Logged (Timely 2) World.now (System.start pacedWorld) (pacedLog ls) (paced ls) :=
  (Logged.of_checksEach .refl h).mono fun _ _ => Timely.of_check

end Sample

/-- Two dispatches that send as soon as they have their slots send thirty seconds apart. -/
theorem send_pacing_prompt :
    ((Sample.pacedLog Sample.prompt).filter (·.1.op.isSendTextMessage)).map (·.2) = [30000000, 0] ∧
    (Sample.pacedLog Sample.prompt).Pairwise fun later earlier =>
      SendsThrough 2 (Sample.paced Sample.prompt) later.1 →
        SendsThrough 2 (Sample.paced Sample.prompt) earlier.1 →
          earlier.2 + ((30 : Nat) : Int) * 1000000 ≤ later.2 := by
  refine ⟨by decide +kernel, ?_⟩
  have hrow : (System.start Sample.pacedWorld : System (platform Sample.configuration)).world.session
      2 = some Sample.pacedSession := rfl
  exact send_pacing ⟨fun _ => rfl, rfl⟩ .refl (fun _ hp => absurd hp List.not_mem_nil) hrow
    (Sample.paced_logged (by decide +kernel)) (by decide +kernel)

/-- Two messages go out at the same time through a connection that sends every thirty seconds: the
first dispatch held its slot while it looked the recipient up. -/
theorem sends_bunched : ∃ log s, Fresh Sample.pacedWorld ∧
    Sample.pacedWorld.session 2 = some Sample.pacedSession ∧
    Sample.pacedSession.sendPacingMinimumSeconds = 30 ∧
    Logged (@Timely Sample.configuration 2) World.now (System.start Sample.pacedWorld) log s ∧
    ¬ log.Pairwise fun later earlier => SendsThrough 2 s later.1 → SendsThrough 2 s earlier.1 →
      earlier.2 + ((30 : Nat) : Int) * 1000000 ≤ later.2 :=
  ⟨Sample.pacedLog Sample.bunched, Sample.paced Sample.bunched, ⟨fun _ => rfl, rfl⟩, rfl, rfl,
    Sample.paced_logged (by decide +kernel), by decide +kernel⟩

end NotificationPlatform
