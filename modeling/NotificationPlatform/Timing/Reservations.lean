import NotificationPlatform.Timing.Pacing

/-!
# Reserving a slot

`reserveSendSlot` is a conditional update and, for whoever it gave no slot, a read that follows it.
Here any number of calls run against one database, whose clock is the one the callers read, and
nothing else goes on. `reservation_step` lists what a step can do; `slot_reservation` is what the
calls can rely on.
-/

namespace NotificationPlatform

open Interleaving Relational ConnectionStateService

/-- A call as `dispatch` makes it, with the time it has just read. -/
def reserving (sessionId : Uuid) : Program (Bool × Date) := do
  let now ← perform .clockNow
  reserveSendSlot sessionId now

/-- The machine of all calls. A process reads the clock of the database, to the millisecond. -/
@[reducible] def reservations : Machine operations where
  World := World
  Choice := Choice
  Request := Uuid
  Result := Bool × Date
  Event := Timestamptz
  exec w o c := match o with
    | .clockNow => some (toDate w.now, w)
    | o => exec w o c
  program := reserving
  outside w now := if w.now ≤ now then some { w with now } else none

/-! ## The statements -/

namespace WhatsAppSessionRepository

variable {id : Uuid} {now : Date} {draw : Nat} {w w' : World}

/-- The update gives no slot and changes nothing, or the connection was free and is so again after
what was drawn. -/
theorem reserveSlot_spec {x : Option Timestamptz} (h : reserveSlot id now draw w = some (x, w')) :
    (x = none ∧ w' = w ∧ ∀ r, w.session id = some r → ¬ r.nextSendAllowedAt ≤ toTimestamptz now) ∨
    ∃ old slot, x = some slot ∧ w.session id = some old ∧
      old.nextSendAllowedAt ≤ toTimestamptz now ∧
      slot = w.now + ((old.sendPacingMinimumSeconds + min draw (old.sendPacingMaximumSeconds -
        old.sendPacingMinimumSeconds) : Nat) : Int) * 1000000 ∧
      w'.now = w.now ∧
      w'.session id = some { old with nextSendAllowedAt := slot, updatedAt := now } ∧
      ∀ s, s ≠ id → w'.session s = w.session s := by
  obtain ⟨_, _, h₁, h⟩ := Sql.bind_eq_some.1 h
  cases h₁
  obtain ⟨reserved, _, h₂, h⟩ := Sql.bind_eq_some.1 h
  obtain ⟨rfl, rfl⟩ := Sql.pure_eq_some.1 h
  rcases updateOne_cases h₂ with
    ⟨rfl, rfl, hmissed⟩ | ⟨old, rfl, hold, hfree, hnew, hothers, hnow⟩
  · exact .inl ⟨rfl, rfl, fun r hr => of_decide_eq_false (hmissed r hr)⟩
  · exact .inr ⟨old, _, rfl, hold, of_decide_eq_true hfree, rfl, hnow, hnew, hothers⟩

end WhatsAppSessionRepository

/-! ## The programs -/

/-- What a call has performed, most recent first, and what is left of it. -/
inductive Reserving (sessionId : Uuid) :
    List (Performed operations) → Program (Bool × Date) → Prop where
  | called : Reserving sessionId [] (reserving sessionId)
  | informed {i : Nat} {now : Date} :
      Reserving sessionId [⟨i, .clockNow, now⟩] (reserveSendSlot sessionId now)
  | given {i j : Nat} {now : Date} {slot : Timestamptz} :
      Reserving sessionId [⟨j, .reserveSlot sessionId now, some slot⟩, ⟨i, .clockNow, now⟩]
        (pure (true, toDate slot))
  | refused {i j : Nat} {now : Date} :
      Reserving sessionId [⟨j, .reserveSlot sessionId now, none⟩, ⟨i, .clockNow, now⟩]
        (do
          let current ← perform (.readNextSendAllowedAt sessionId)
          return (false, (current.map toDate).getD now))
  | told {i j k : Nat} {now : Date} {next : Option Timestamptz} :
      Reserving sessionId [⟨k, .readNextSendAllowedAt sessionId, next⟩,
          ⟨j, .reserveSlot sessionId now, none⟩, ⟨i, .clockNow, now⟩]
        (pure (false, (next.map toDate).getD now))

theorem reserving_left {sessionId : Uuid} {history : List (Performed operations)}
    {rest : Program (Bool × Date)} (h : System.Left (reserving sessionId) history rest) :
    Reserving sessionId history rest := by
  induction h with
  | all => exact .called
  | @performed older i o k r _ ih =>
    generalize hp : Prog.perform o k = p at ih
    cases ih with
    | called =>
      cases hp
      exact .informed
    | informed =>
      cases hp
      cases r with
      | none => exact .refused
      | some slot => exact .given
    | given => cases hp
    | refused =>
      cases hp
      exact .told
    | told => cases hp

/-! ## The steps -/

/-- What one step performed, and what it made of the database. -/
inductive ReservationStep (s : System reservations) (w : World) :
    List (Performed operations) → Prop where
  /-- A call was started or is over, or time passed. -/
  | aside (now : s.world.now ≤ w.now) (sessions : w.whatsAppSessions = s.world.whatsAppSessions) :
      ReservationStep s w []
  | reads {i : Nat} (same : w = s.world) :
      ReservationStep s w [⟨i, .clockNow, toDate s.world.now⟩]
  /-- The update, by a call that read its clock before. -/
  | updates {i : Nat} {sessionId : Uuid} {now : Date} {draw : Nat} {slot : Option Timestamptz}
      (read : ⟨i, .clockNow, now⟩ ∈ s.trace)
      (update : WhatsAppSessionRepository.reserveSlot sessionId now draw s.world = some (slot, w)) :
      ReservationStep s w [⟨i, .reserveSlot sessionId now, slot⟩]
  | learns {i : Nat} {sessionId : Uuid} (same : w = s.world) :
      ReservationStep s w [⟨i, .readNextSendAllowedAt sessionId,
        (s.world.session sessionId).map (·.nextSendAllowedAt)⟩]

section Runs

variable {P : System reservations → Label reservations → Prop} {w : World}
  {s s' : System reservations} {l : Label reservations} {sessionId : Uuid}

theorem reservation_step (hr : Run P (System.start w) s) (hs : s.step l = some s') :
    ∃ ps, ReservationStep s s'.world ps ∧ s'.trace = ps ++ s.trace := by
  cases l with
  | spawn i request =>
    obtain ⟨-, rfl⟩ := System.step_spawn.1 hs
    exact ⟨[], .aside (le_refl _) rfl, rfl⟩
  | crash i =>
    obtain ⟨_, _, _, -, rfl⟩ := System.step_crash.1 hs
    exact ⟨[], .aside (le_refl _) rfl, rfl⟩
  | outside now =>
    obtain ⟨w', he, rfl⟩ := System.step_outside.1 hs
    simp only [reservations] at he
    split at he
    · rename_i hnow
      cases he
      exact ⟨[], .aside hnow rfl, rfl⟩
    · cases he
  | advance i choice =>
    obtain ⟨request, o, next, r, w', hi, he, rfl⟩ := System.step_advance.1 hs
    refine ⟨[⟨i, o, r⟩], ?_, rfl⟩
    have hleft := reserving_left (Discipline.left_run hr hi)
    generalize hp : Prog.perform o next = p at hleft
    generalize hh : s.history i = history at hleft
    change ReservationStep s w' _
    cases hleft with
    | called =>
      cases hp
      cases he
      exact .reads rfl
    | @informed j now =>
      cases hp
      obtain ⟨draw, -, he⟩ := given_eq_some.1 he
      have hmem : ⟨j, .clockNow, now⟩ ∈ s.history i := by
        rw [hh]
        exact List.mem_cons_self
      obtain ⟨htrace, hj⟩ := List.mem_filter.1 hmem
      obtain rfl : j = i := of_decide_eq_true hj
      exact .updates htrace he
    | refused =>
      cases hp
      obtain ⟨-, he⟩ := Choice.quietly_eq_some.1 he
      cases he
      exact .learns rfl
    | given => cases hp
    | told => cases hp

namespace ReservationStep

variable {ps : List (Performed operations)}

theorem now (h : ReservationStep s w ps) : s.world.now ≤ w.now := by
  cases h with
  | aside now => exact now
  | reads same | learns same => rw [same]
  | updates _ update =>
    rcases WhatsAppSessionRepository.reserveSlot_spec update with
      ⟨-, rfl, -⟩ | ⟨_, _, -, -, -, -, hnow, -⟩
    · exact le_refl _
    · exact hnow.ge

/-- A step that gives no slot of a connection leaves the connection alone. -/
theorem kept (h : ReservationStep s w ps) (hnone : ∀ p ∈ ps, slotOf sessionId p = none) :
    w.session sessionId = s.world.session sessionId := by
  cases h with
  | aside _ sessions => rw [World.session, sessions, World.session]
  | reads same | learns same => rw [same]
  | @updates i asked now draw slot read update =>
    rcases WhatsAppSessionRepository.reserveSlot_spec update with
      ⟨-, rfl, -⟩ | ⟨old, given, rfl, -, -, -, -, -, hothers⟩
    · rfl
    · refine hothers sessionId ?_
      rintro rfl
      have hslot := hnone _ List.mem_cons_self
      simp [slotOf] at hslot

/-- A step that gives no slot, and takes no time, changes nothing. -/
theorem unchanged {p : Performed operations} (h : ReservationStep s w [p])
    (hnone : ∀ sessionId, slotOf sessionId p = none) : w = s.world := by
  cases h with
  | reads same | learns same => exact same
  | @updates i asked now draw slot read update =>
    rcases WhatsAppSessionRepository.reserveSlot_spec update with ⟨-, rfl, -⟩ | ⟨_, _, rfl, -⟩
    · rfl
    · have hslot := hnone asked
      simp [slotOf] at hslot

/-- A step that gives a slot is the update, by a call that read its clock before. -/
theorem gives {p : Performed operations} {slot : Timestamptz} (h : ReservationStep s w [p])
    (hslot : slotOf sessionId p = some slot) : ∃ i now draw, ⟨i, .clockNow, now⟩ ∈ s.trace ∧
      WhatsAppSessionRepository.reserveSlot sessionId now draw s.world = some (some slot, w) := by
  obtain ⟨i, now, rfl⟩ := slotOf_eq hslot
  cases h with
  | updates read update => exact ⟨i, now, _, read, update⟩

end ReservationStep

/-- What a call read is over. -/
theorem read_in_time (h : Run P (System.start w) s) {i : Nat} {t : Date}
    (hread : ⟨i, .clockNow, t⟩ ∈ s.trace) : toTimestamptz t ≤ s.world.now := by
  induction h with
  | refl => exact absurd hread List.not_mem_nil
  | tail hr _ hs ih =>
    obtain ⟨ps, hstep, htrace⟩ := reservation_step hr hs
    rw [htrace] at hread
    rcases List.mem_append.1 hread with hnew | hold
    · cases hstep with
      | aside => exact absurd hnew List.not_mem_nil
      | reads same =>
        cases List.mem_singleton.1 hnew
        rw [same]
        exact toTimestamptz_toDate _
      | updates => cases List.mem_singleton.1 hnew
      | learns => cases List.mem_singleton.1 hnew
    · exact (ih hold).trans hstep.now

/-- The next send of a connection is only put off, and its pacing stays. -/
theorem row_step (hr : Run P (System.start w) s) (hs : s.step l = some s')
    {r : WhatsAppSessionRecord} (hrow : s.world.session sessionId = some r) :
    ∃ r', s'.world.session sessionId = some r' ∧ r.nextSendAllowedAt ≤ r'.nextSendAllowedAt ∧
      r'.sendPacingMinimumSeconds = r.sendPacingMinimumSeconds ∧
      r'.sendPacingMaximumSeconds = r.sendPacingMaximumSeconds := by
  obtain ⟨ps, hstep, -⟩ := reservation_step hr hs
  by_cases hnone : ∀ p ∈ ps, slotOf sessionId p = none
  · exact ⟨r, (hstep.kept hnone).trans hrow, le_refl _, rfl, rfl⟩
  · simp only [not_forall] at hnone
    obtain ⟨p, hp, hslot⟩ := hnone
    obtain ⟨slot, hslot⟩ := Option.ne_none_iff_exists'.1 hslot
    obtain rfl : ps = [p] := by cases hstep <;> simp_all
    obtain ⟨i, now, draw, hread, hupdate⟩ := hstep.gives hslot
    rcases WhatsAppSessionRepository.reserveSlot_spec hupdate with
      ⟨hnothing, -, -⟩ | ⟨old, given, -, hold, hfree, hgiven, -, hnew, -⟩
    · cases hnothing
    · cases hold.symm.trans hrow
      refine ⟨_, hnew, ?_, rfl, rfl⟩
      have hlater : s.world.now ≤ given := by
        rw [hgiven]
        exact Int.le_add_of_nonneg_right (Int.mul_nonneg (Int.natCast_nonneg _) (by decide))
      exact (hfree.trans (read_in_time hr hread)).trans hlater

theorem row_run (h : Run P (System.start w) s) {row : WhatsAppSessionRecord}
    (hrow : w.session sessionId = some row) : ∃ r, s.world.session sessionId = some r ∧
      r.sendPacingMinimumSeconds = row.sendPacingMinimumSeconds ∧
      r.sendPacingMaximumSeconds = row.sendPacingMaximumSeconds := by
  induction h with
  | refl => exact ⟨row, hrow, rfl, rfl⟩
  | tail hr _ hs ih =>
    obtain ⟨r, hr', hminimum, hmaximum⟩ := ih
    obtain ⟨r', hrow', -, hmin, hmax⟩ := row_step hr hs hr'
    exact ⟨r', hrow', hmin.trans hminimum, hmax.trans hmaximum⟩

/-! ## What the calls can rely on -/

/-- What a reservation leaves: a slot between the bounds of the pacing away, and the connection free
again from then on. -/
theorem slot_between (hr : Run P (System.start w) s) {row : WhatsAppSessionRecord}
    (hrow : w.session sessionId = some row)
    (hbounds : row.sendPacingMinimumSeconds ≤ row.sendPacingMaximumSeconds)
    {p : Performed operations} (hp : s.Performs l p s') {slot : Timestamptz}
    (hslot : slotOf sessionId p = some slot) : ∃ old,
      s.world.session sessionId = some old ∧ old.nextSendAllowedAt ≤ s.world.now ∧
      s.world.now + (row.sendPacingMinimumSeconds : Int) * 1000000 ≤ slot ∧
      slot ≤ s.world.now + (row.sendPacingMaximumSeconds : Int) * 1000000 ∧
      (s'.world.session sessionId).map (·.nextSendAllowedAt) = some slot := by
  obtain ⟨ps, hstep, htrace⟩ := reservation_step hr hp.1
  obtain rfl : ps = [p] := List.append_cancel_right (htrace.symm.trans hp.2)
  obtain ⟨i, now, draw, hread, hupdate⟩ := hstep.gives hslot
  rcases WhatsAppSessionRepository.reserveSlot_spec hupdate with
    ⟨hnothing, -, -⟩ | ⟨old, given, hsome, hold, hfree, hgiven, -, hnew, -⟩
  · cases hnothing
  · cases hsome
    obtain ⟨r, hr', hminimum, hmaximum⟩ := row_run hr hrow
    cases hr'.symm.trans hold
    rw [hminimum, hmaximum] at hgiven
    refine ⟨_, hold, hfree.trans (read_in_time hr hread), ?_, ?_, by rw [hnew]; rfl⟩
    · rw [hgiven]
      exact pacing_le _ _ _ _
    · rw [hgiven]
      have hle : row.sendPacingMinimumSeconds + min draw
          (row.sendPacingMaximumSeconds - row.sendPacingMinimumSeconds) ≤
            row.sendPacingMaximumSeconds := by omega
      exact Int.add_le_add_left
        (Int.mul_le_mul_of_nonneg_right (Int.ofNat_le.2 hle) (by decide)) _

theorem reserved_slots {row : WhatsAppSessionRecord} (hrow : w.session sessionId = some row)
    (hbounds : row.sendPacingMinimumSeconds ≤ row.sendPacingMaximumSeconds) {log : List Entry}
    (h : Logged P World.now (System.start w) log s) :
    Slots sessionId row.sendPacingMinimumSeconds s.world log := by
  have hlater : ∀ {s₁ s₂ : System reservations} {l log}, Run P (System.start w) s₁ →
      Slots sessionId row.sendPacingMinimumSeconds s₁.world log → s₁.step l = some s₂ →
        s₁.world.now ≤ s₂.world.now ∧
          Slots sessionId row.sendPacingMinimumSeconds s₂.world log := by
    intro s₁ s₂ l log hr hslots hs
    obtain ⟨ps, hstep, -⟩ := reservation_step hr hs
    refine ⟨hstep.now, hslots.later hstep.now fun r' hr' => ?_⟩
    obtain ⟨r, hr₁, -⟩ := row_run hr hrow
    obtain ⟨r'', hr₂, hnext, hminimum, -⟩ := row_step hr hs hr₁
    cases hr₂.symm.trans hr'
    exact ⟨r, hr₁, hnext, hminimum⟩
  induction h with
  | refl => exact Slots.start hrow
  | quiet h _ hs _ ih => exact (hlater h.run ih hs).2
  | performed h _ hp ih =>
    obtain ⟨hnow, hkept⟩ := hlater h.run ih hp.1
    refine ih.given hkept hnow fun slot hslot => ?_
    obtain ⟨old, hold, hfree, hlong, -, hnew⟩ := slot_between h.run hrow hbounds hp hslot
    obtain ⟨new, hnew, hnext⟩ := Option.map_eq_some_iff.1 hnew
    obtain ⟨r, hr, hminimum, -⟩ := row_run h.run hrow
    cases hr.symm.trans hold
    exact ⟨_, new, hold, hnew, hnext, hfree, by rw [hminimum]; exact hlong⟩

/-- What a call was told is the connection's next send until somebody is given a slot. -/
theorem told_reservation (h : Run P (System.start w) s) {i : Nat} {next : Option Timestamptz}
    {later earlier : List (Performed operations)}
    (htrace : s.trace = later ++ ⟨i, .readNextSendAllowedAt sessionId, next⟩ :: earlier)
    (hnone : ∀ p ∈ later, slotOf sessionId p = none) :
    (s.world.session sessionId).map (·.nextSendAllowedAt) = next := by
  induction h generalizing later with
  | refl => exact absurd htrace.symm (List.append_ne_nil_of_right_ne_nil _ (List.cons_ne_nil _ _))
  | @tail s₁ s₂ l hr _ hs ih =>
    obtain ⟨ps, hstep, hnew⟩ := reservation_step hr hs
    cases later with
    | nil =>
      rw [hnew] at htrace
      cases hstep with
      | aside _ sessions =>
        rw [World.session, sessions]
        exact ih htrace hnone
      | reads => cases htrace
      | updates => cases htrace
      | learns same =>
        cases htrace
        rw [same]
    | cons p later =>
      rw [hnew] at htrace
      have hlater := List.forall_mem_cons.1 hnone
      by_cases hps : ps = []
      · subst hps
        rw [hstep.kept fun _ hp => absurd hp List.not_mem_nil]
        exact ih htrace hnone
      · obtain ⟨rfl, hrest⟩ : ps = [p] ∧ s₁.trace =
            later ++ ⟨i, .readNextSendAllowedAt sessionId, next⟩ :: earlier := by
          cases hstep with
          | aside => exact absurd rfl hps
          | reads | updates | learns =>
            obtain ⟨rfl, hrest⟩ := List.cons.inj htrace
            exact ⟨rfl, hrest⟩
        rw [hstep.kept (by simpa using hlater.1)]
        exact ih hrest hlater.2

/-- A call that is told is told a time. -/
theorem told_some (h : Run P (System.start w) s) {row : WhatsAppSessionRecord}
    (hrow : w.session sessionId = some row) {i : Nat} {next : Option Timestamptz}
    (htold : ⟨i, .readNextSendAllowedAt sessionId, next⟩ ∈ s.trace) : ∃ t, next = some t := by
  induction h with
  | refl => exact absurd htold List.not_mem_nil
  | tail hr _ hs ih =>
    obtain ⟨ps, hstep, htrace⟩ := reservation_step hr hs
    rw [htrace] at htold
    rcases List.mem_append.1 htold with hnew | hold
    · cases hstep with
      | aside => exact absurd hnew List.not_mem_nil
      | reads => cases List.mem_singleton.1 hnew
      | updates => cases List.mem_singleton.1 hnew
      | learns =>
        obtain ⟨r, hr, -⟩ := row_run hr hrow
        cases List.mem_singleton.1 hnew
        exact ⟨_, congrArg _ hr⟩
    · exact ih hold

theorem lt_toTimestamptz (t : Timestamptz) : t < toTimestamptz (toDate t + 1) :=
  Int.lt_ediv_add_one_mul_self t (by decide)

/-- A call that says this time is given a slot, whatever is drawn. -/
def Succeeds (w : World) (sessionId : Uuid) (now : Date) : Prop :=
  ∀ draw, ∃ slot w', (reserveSendSlot sessionId now).runs exec [.number draw] w =
    some ((true, slot), w')

theorem succeeds_iff {r : WhatsAppSessionRecord} (hrow : w.session sessionId = some r)
    {now : Date} : Succeeds w sessionId now ↔ r.nextSendAllowedAt ≤ toTimestamptz now := by
  have hcall : ∀ draw, ∃ x w', exec w (.reserveSlot sessionId now) (.number draw) =
      some (x, w') ∧ WhatsAppSessionRepository.reserveSlot sessionId now draw w = some (x, w') :=
    fun draw => ⟨_, _, rfl, rfl⟩
  constructor
  · intro h
    obtain ⟨slot, w', hruns⟩ := h 0
    obtain ⟨c, cs, x, w₁, hc, hx, hrest⟩ := Prog.runs_perform.1 hruns
    cases hc
    have hspec : WhatsAppSessionRepository.reserveSlot sessionId now 0 w = some (x, w₁) := hx
    rcases WhatsAppSessionRepository.reserveSlot_spec hspec with
      ⟨rfl, -, -⟩ | ⟨old, _, -, hold, hfree, -⟩
    · obtain ⟨_, _, _, _, hc, -⟩ := Prog.runs_perform.1 hrest
      cases hc
    · cases hold.symm.trans hrow
      exact hfree
  · intro hfree draw
    obtain ⟨x, w', hx, hspec⟩ := hcall draw
    rcases WhatsAppSessionRepository.reserveSlot_spec hspec with
      ⟨-, -, hbusy⟩ | ⟨_, slot, rfl, -⟩
    · exact absurd hfree (hbusy r hrow)
    · exact ⟨toDate slot, w', Prog.runs_perform.2 ⟨_, _, _, _, rfl, hx, rfl⟩⟩

/-- What a call that was given no slot has performed. -/
theorem refused_history (hr : Run P (System.start w) s) {i : Nat} {d : Date}
    (hi : s.Returned i (false, d)) (hrequest : s.requestOf i = some sessionId) :
    ∃ now next, d = (next.map toDate).getD now ∧ s.history i =
      [⟨i, .readNextSendAllowedAt sessionId, next⟩, ⟨i, .reserveSlot sessionId now, none⟩,
        ⟨i, .clockNow, now⟩] := by
  obtain ⟨request, hi⟩ := hi
  obtain rfl : request = sessionId := by
    simpa only [System.requestOf, hi, Option.map_some, Option.some.injEq] using hrequest
  have hthread : ∀ p ∈ s.history i, p.thread = i := fun p hp =>
    of_decide_eq_true (List.mem_filter.1 hp).2
  have hleft := reserving_left (Discipline.left_run hr hi)
  generalize hp : Prog.done (false, d) = p at hleft
  generalize s.history i = history at hleft hthread
  cases hleft with
  | called => cases hp
  | informed => cases hp
  | given => cases hp
  | refused => cases hp
  | told =>
    cases hp
    simp only [List.forall_mem_cons] at hthread
    obtain ⟨rfl, rfl, rfl, -⟩ := hthread
    exact ⟨_, _, rfl, rfl⟩

/-- **Slot reservation.** Two reservations are the minimum apart, each one leaves a slot between the
bounds away, a call that was given no slot changed nothing, and the time it was told is the
connection's next send, cut to the millisecond: from then on a call is given a slot, if nobody else
was. -/
theorem slot_reservation {row : WhatsAppSessionRecord} (hrow : w.session sessionId = some row)
    (hbounds : row.sendPacingMinimumSeconds ≤ row.sendPacingMaximumSeconds) {log : List Entry}
    (h : Logged Any World.now (System.start w) log s) :
    (log.Pairwise fun later earlier => (slotOf sessionId later.1).isSome = true →
      (slotOf sessionId earlier.1).isSome = true →
        earlier.2 + (row.sendPacingMinimumSeconds : Int) * 1000000 ≤ later.2) ∧
    (∀ l p s' slot, s.Performs l p s' → slotOf sessionId p = some slot →
      s.world.now + (row.sendPacingMinimumSeconds : Int) * 1000000 ≤ slot ∧
      slot ≤ s.world.now + (row.sendPacingMaximumSeconds : Int) * 1000000 ∧
      (s'.world.session sessionId).map (·.nextSendAllowedAt) = some slot) ∧
    ∀ i d, s.Returned i (false, d) → s.requestOf i = some sessionId →
      (∀ s₁ l p s₂, Run Any (System.start w) s₁ → s₁.Performs l p s₂ → Run Any s₂ s →
        p.thread = i → s₂.world = s₁.world) ∧
      ∃ later earlier next,
        s.trace = later ++ ⟨i, .readNextSendAllowedAt sessionId, some next⟩ :: earlier ∧
        toTimestamptz d ≤ next ∧ next < toTimestamptz (d + 1) ∧
        ((∀ p ∈ later, slotOf sessionId p = none) →
          ∀ now, Succeeds s.world sessionId now ↔ next ≤ toTimestamptz now) := by
  have hslots := reserved_slots hrow hbounds h
  refine ⟨?_, fun l p s' slot hp hslot => ?_, fun i d hi hrequest => ?_⟩
  · refine hslots.ordered.imp_of_mem fun {later earlier} _ hmem hover hlater hearlier => ?_
    obtain ⟨slot, hslot⟩ := Option.isSome_iff_exists.1 hearlier
    exact (hslots.long earlier hmem slot hslot).trans (hover.2 slot hslot hlater)
  · obtain ⟨_, -, -, hlong, hshort, hnew⟩ := slot_between h.run hrow hbounds hp hslot
    exact ⟨hlong, hshort, hnew⟩
  · obtain ⟨now, next, rfl, hhistory⟩ := refused_history h.run hi hrequest
    refine ⟨fun s₁ l p s₂ hr₁ hp hr₂ hthread => ?_, ?_⟩
    · have hmem : p ∈ s.history i := by
        refine List.mem_filter.2 ⟨hr₂.trace_suffix.subset ?_, decide_eq_true hthread⟩
        rw [hp.2]
        exact List.mem_cons_self
      obtain ⟨ps, hstep, htrace⟩ := reservation_step hr₁ hp.1
      obtain rfl : ps = [p] := List.append_cancel_right (htrace.symm.trans hp.2)
      refine hstep.unchanged fun asked => ?_
      rw [hhistory] at hmem
      simp only [List.mem_cons, List.not_mem_nil, or_false] at hmem
      rcases hmem with rfl | rfl | rfl
      · rfl
      · simp [slotOf]
      · rfl
    · have hmem : ⟨i, .readNextSendAllowedAt sessionId, next⟩ ∈ s.history i := by
        rw [hhistory]
        exact List.mem_cons_self
      obtain ⟨next, rfl⟩ := told_some h.run hrow (List.mem_filter.1 hmem).1
      obtain ⟨later, earlier, htrace⟩ := List.append_of_mem (List.mem_filter.1 hmem).1
      refine ⟨later, earlier, next, htrace, toTimestamptz_toDate next, lt_toTimestamptz next,
        fun hnone now' => ?_⟩
      obtain ⟨r, hr, rfl⟩ := Option.map_eq_some_iff.1 (told_reservation h.run htrace hnone)
      exact succeeds_iff hr

end Runs

/-! ## Three calls -/

namespace Sample

/-- The connection sends every twenty to forty seconds. -/
def variedSession : WhatsAppSessionRecord :=
  { session with sendPacingMinimumSeconds := 20, sendPacingMaximumSeconds := 40 }

def variedWorld : World :=
  { world .RETRY with whatsAppSessions := ⟨[variedSession], List.nodup_singleton _⟩ }

/-- Two calls race, and a third one is made at the time the loser was told. -/
def threeCalls : List (Label reservations) :=
  [.spawn 0 2, .spawn 1 2, .advance 0 .nothing, .advance 1 .nothing, .advance 0 (.number 5),
    .advance 1 (.number 3), .advance 1 .nothing, .outside 25000000, .spawn 2 2,
    .advance 2 .nothing, .advance 2 (.number 0)]

def reserved (ls : List (Label reservations)) : System reservations :=
  (System.start variedWorld).after ls

def reservedLog (ls : List (Label reservations)) : List Entry :=
  (System.start variedWorld : System reservations).logs World.now [] ls

end Sample

/-- The first and the third call are given slots, twenty-five seconds apart; the second one was told
the time at which the third one was made. -/
theorem slot_reservation_calls :
    ((Sample.reservedLog Sample.threeCalls).filter fun e => (slotOf 2 e.1).isSome).map (·.2) =
      [25000000, 0] ∧
    (Sample.reserved Sample.threeCalls).Returned 1 (false, 25000) ∧
    ((Sample.reservedLog Sample.threeCalls).Pairwise fun later earlier =>
      (slotOf 2 later.1).isSome = true → (slotOf 2 earlier.1).isSome = true →
        earlier.2 + ((20 : Nat) : Int) * 1000000 ≤ later.2) ∧
    ∃ later earlier next, (Sample.reserved Sample.threeCalls).trace =
      later ++ ⟨1, .readNextSendAllowedAt 2, some next⟩ :: earlier ∧
      toTimestamptz 25000 ≤ next ∧ next < toTimestamptz 25001 := by
  have hlogged : Logged Any World.now (System.start Sample.variedWorld)
      (Sample.reservedLog Sample.threeCalls) (Sample.reserved Sample.threeCalls) :=
    (Logged.of_checksEach (b := fun _ _ => true) .refl (by decide +kernel)).mono
      fun _ _ _ => trivial
  have hrow : Sample.variedWorld.session 2 = some Sample.variedSession := rfl
  have hbounds : Sample.variedSession.sendPacingMinimumSeconds ≤
      Sample.variedSession.sendPacingMaximumSeconds := by decide
  have hreturned : (Sample.reserved Sample.threeCalls).Returned 1 (false, 25000) := ⟨2, rfl⟩
  obtain ⟨hapart, -, hfailed⟩ := slot_reservation hrow hbounds hlogged
  obtain ⟨-, later, earlier, next, htrace, hle, hlt, -⟩ := hfailed 1 25000 hreturned rfl
  exact ⟨by decide +kernel, hreturned, hapart, later, earlier, next, htrace, hle, hlt⟩

end NotificationPlatform
