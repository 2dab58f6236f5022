import NotificationPlatform.Delivery.NoDoubleSend
import NotificationPlatform.Timing.Watch
import NotificationPlatform.Timing.Connections

/-!
# One shared clock

`OnTime` is the assumption of all results about time: a process that reads its clock reads the time
of the one shared clock, which does not run backwards. What a dispatch read is then over.
`Linked` ties what a dispatch knows of the time to how far it is, so that a dispatch that calls the
provider is one that owns its notification.
-/

namespace NotificationPlatform

open Interleaving

abbrev WatchPhases := Nat → Option WatchPhase

/-- Thread `i` is a dispatch that knows `q`. -/
def Watching (ws : WatchPhases) (i : Nat) (q : Watch) : Prop := ws i = some (.dispatching q)

theorem Watching.unique {ws : WatchPhases} {i : Nat} {q q' : Watch} (h : Watching ws i q)
    (h' : Watching ws i q') : q = q' := by
  cases h.symm.trans h'
  rfl

theorem watching_other {ws : WatchPhases} {i j : Nat} (hji : j ≠ i) {ph : Option WatchPhase}
    {q : Watch} : Watching (Function.update ws i ph) j q ↔ Watching ws j q := by
  simp only [Watching, Function.update_of_ne hji]

/-- A dispatch after a step: the one that took it, or another one as it was. -/
theorem watching_advance {ws : WatchPhases} {i j : Nat} {ph : WatchPhase} {o : Op} {r : o.Ret}
    {q' : Watch} (hi : ws i = some ph)
    (h : Watching (Function.update ws i (some (ph.advance o r))) j q') :
    (j ≠ i ∧ Watching ws j q') ∨
      (j = i ∧ ∃ q, ph = .dispatching q ∧ Watching ws j q ∧ q' = q.advance o r) := by
  by_cases hji : j = i
  · subst hji
    simp only [Watching, Function.update_self, Option.some.injEq] at h
    cases ph with
    | dispatching q =>
      cases h
      exact .inr ⟨rfl, q, rfl, hi, rfl⟩
    | serving => cases h
  · exact .inl ⟨hji, (watching_other hji).1 h⟩

/-- A dispatch after another call was started. -/
theorem watching_spawn {ws : WatchPhases} {i j : Nat} {request : Request} {q' : Watch}
    (h : Watching (Function.update ws i (some (WatchPhase.initial request))) j q') :
    (j ≠ i ∧ Watching ws j q') ∨ (j = i ∧ ∃ input, q' = { input }) := by
  by_cases hji : j = i
  · subst hji
    simp only [Watching, Function.update_self, Option.some.injEq] at h
    cases request <;> cases h
    exact .inr ⟨rfl, _, rfl⟩
  · exact .inl ⟨hji, (watching_other hji).1 h⟩

/-! ## Readings -/

/-- The time a process read off its clock. -/
def reading : (o : Op) → o.Ret → Option Date
  | .clockNow, t => some t
  | _, _ => none

/-- Only a reading changes what a dispatch read. -/
theorem Watch.advance_readings (q : Watch) (o : Op) (r : o.Ret) :
    (∃ t, reading o r = some t ∧ q.advance o r = q.reads t) ∨
      ((q.advance o r).now = q.now ∧ (q.advance o r).arrived = q.arrived ∧
        reading o r = none) := by
  cases o
  case clockNow => exact .inl ⟨_, rfl, rfl⟩
  case promoteScheduled => cases r <;> exact .inr ⟨rfl, rfl, rfl⟩
  case claimForDispatch => cases r <;> exact .inr ⟨rfl, rfl, rfl⟩
  case findSessionById => cases r <;> exact .inr ⟨rfl, rfl, rfl⟩
  case beginAttempt => cases r <;> exact .inr ⟨rfl, rfl, rfl⟩
  all_goals exact .inr ⟨rfl, rfl, rfl⟩

/-- Nobody has read a time that is still to come. -/
structure Clocked (ws : WatchPhases) (w : World) : Prop where
  now : ∀ {i q t}, Watching ws i q → q.now = some t → t ≤ toDate w.now
  arrived : ∀ {i q t}, Watching ws i q → q.arrived = some t → t ≤ toDate w.now

/-- What a dispatch has reached is over. -/
theorem Clocked.reached {ws : WatchPhases} {w : World} (h : Clocked ws w) {i : Nat} {q : Watch}
    (hq : Watching ws i q) {d : Date} (hd : q.Reached d) : d ≤ toDate w.now := by
  obtain ⟨t, ht, hle⟩ := hd
  exact hle.trans (h.now hq ht)

theorem toDate_mono {t t' : Timestamptz} (h : t ≤ t') : toDate t ≤ toDate t' :=
  Int.ediv_le_ediv (by decide) h

theorem toTimestamptz_toDate (t : Timestamptz) : toTimestamptz (toDate t) ≤ t :=
  Int.ediv_mul_le t (by decide)

theorem Clocked.later {ws : WatchPhases} {w w' : World} (h : Clocked ws w) (hle : w.now ≤ w'.now) :
    Clocked ws w' where
  now hq ht := (h.now hq ht).trans (toDate_mono hle)
  arrived hq ht := (h.arrived hq ht).trans (toDate_mono hle)

theorem Clocked.spawn {ws : WatchPhases} {w : World} {i : Nat} (request : Request)
    (h : Clocked ws w) : Clocked (Function.update ws i (some (WatchPhase.initial request))) w where
  now hq ht := by
    rcases watching_spawn hq with ⟨-, hq⟩ | ⟨-, input, rfl⟩
    · exact h.now hq ht
    · cases ht
  arrived hq ht := by
    rcases watching_spawn hq with ⟨-, hq⟩ | ⟨-, input, rfl⟩
    · exact h.arrived hq ht
    · cases ht

theorem Clocked.advance {ws : WatchPhases} {w w' : World} {i : Nat} {ph : WatchPhase} {o : Op}
    {r : o.Ret} (h : Clocked ws w) (hi : ws i = some ph) (hnow : w'.now = w.now)
    (hreading : ∀ t, reading o r = some t → t = toDate w.now) :
    Clocked (Function.update ws i (some (ph.advance o r))) w' := by
  have hself : ∀ {j q'}, Watching (Function.update ws i (some (ph.advance o r))) j q' →
      (∀ t, q'.now = some t → t ≤ toDate w.now) ∧ ∀ t, q'.arrived = some t → t ≤ toDate w.now := by
    intro j q' hq'
    rcases watching_advance hi hq' with ⟨-, hq⟩ | ⟨-, q, rfl, hq, rfl⟩
    · exact ⟨fun t => h.now hq, fun t => h.arrived hq⟩
    · rcases q.advance_readings o r with ⟨t, ht, he⟩ | ⟨hn, ha, -⟩
      · obtain rfl := hreading t ht
        rw [he]
        constructor
        · intro t ht
          cases hqn : q.now with
          | none =>
            simp only [Watch.reads, hqn, Option.elim_none, Option.some.injEq] at ht
            exact ht.ge
          | some t' =>
            simp only [Watch.reads, hqn, Option.elim_some, Option.some.injEq] at ht
            exact ht ▸ max_le le_rfl (h.now hq hqn)
        · intro t ht
          cases hqa : q.arrived with
          | none =>
            simp only [Watch.reads, hqa, Option.getD_none, Option.some.injEq] at ht
            exact ht.ge
          | some t' =>
            simp only [Watch.reads, hqa, Option.getD_some, Option.some.injEq] at ht
            exact ht ▸ h.arrived hq hqa
      · rw [hn, ha]
        exact ⟨fun t => h.now hq, fun t => h.arrived hq⟩
  exact ⟨fun hq => hnow ▸ (hself hq).1 _, fun hq => hnow ▸ (hself hq).2 _⟩

/-! ## What a dispatch knows, and how far it is -/

/-- A dispatch knows the row it claimed, and is still at it until it left. -/
structure Linked (p : Progress) (q : Watch) : Prop where
  input : q.input = p.input
  claimed : q.claimed = p.claimed
  active : q.left = false → q.claimed.isSome = true → p.stage.isActive = true

theorem Linked.move {p p' : Progress} {q : Watch} {o : Op} {r : o.Ret} (h : Linked p q)
    (hm : Move p o r p') : Linked p' (q.advance o r) := by
  obtain ⟨hinput, hclaimed, hactive⟩ := h
  -- whoever is not at its notification did not claim it, or left it
  have hidle : p.stage.isActive = false → q.left = false → q.claimed.isSome = true →
      p'.stage.isActive = true := fun hp hl hc => by cases hp.symm.trans (hactive hl hc)
  cases hm with
  | @connection o r kind =>
    cases o <;> simp only [Op.isConnectionOp, Bool.false_eq_true] at kind
    case findSessionById => cases r <;> exact ⟨hinput, hclaimed, hactive⟩
    all_goals exact ⟨hinput, hclaimed, hactive⟩
  | @promoting _ _ _ r stage => cases r <;> exact ⟨hinput, hclaimed, hactive⟩
  | recording | explaining | policy => exact ⟨hinput, hclaimed, hactive⟩
  | drew stage | refused stage => exact ⟨hinput, hclaimed, hidle (by rw [stage]; rfl)⟩
  | enqueued stage =>
    exact ⟨hinput, hclaimed, hidle (by rcases stage with hs | hs <;> rw [hs] <;> rfl)⟩
  | claimed => exact ⟨hinput, rfl, fun _ _ => rfl⟩
  | clear | found | begun | sent | answered | settled =>
    exact ⟨hinput, hclaimed, fun _ _ => rfl⟩
  | lost | recorded | unrecorded | left | deferred | deferring => exact ⟨hinput, hclaimed, by rintro ⟨⟩⟩

/-- The phases of one call under both disciplines. -/
inductive Related : DeliveryPhase → WatchPhase → Prop where
  | dispatching {p : Progress} {q : Watch} (linked : Linked p q) :
      Related (.dispatching p) (.dispatching q)
  | serving {request : Request} {cancelled : List Uuid} :
      Related (.serving request cancelled) .serving

section Runs

variable {configuration : Configuration} {P : System (platform configuration) →
  Label (platform configuration) → Prop} {w : World} {s s' : System (platform configuration)}
  {l : Label (platform configuration)}

/-- What every dispatch knows. -/
abbrev watches (s : System (platform configuration)) : WatchPhases :=
  (watchDiscipline configuration).phase s

/-- Whoever reads a clock reads the time of the shared one. -/
def OnTime (s : System (platform configuration)) (l : Label (platform configuration)) : Prop :=
  ∀ p s' t, s.Performs l p s' → reading p.op p.ret = some t → t = toDate s.world.now

/-- A step reads the clock as it is, if it reads it. -/
def readsOnTime (s : System (platform configuration)) : Label (platform configuration) → Bool
  | .advance i (.date t) =>
    match s.nextOp i with
    | some .clockNow => t = toDate s.world.now
    | _ => true
  | _ => true

theorem OnTime.of_check (h : readsOnTime s l = true) : OnTime s l := by
  rintro ⟨i, o, r⟩ s' t ⟨hs, ht⟩ hreading
  cases o <;> simp only [reading, reduceCtorEq, Option.some.injEq] at hreading
  subst hreading
  cases l with
  | spawn =>
    obtain ⟨-, rfl⟩ := System.step_spawn.1 hs
    exact absurd ht.symm (List.cons_ne_self _ _)
  | crash =>
    obtain ⟨_, _, _, -, rfl⟩ := System.step_crash.1 hs
    exact absurd ht.symm (List.cons_ne_self _ _)
  | outside =>
    obtain ⟨_, -, rfl⟩ := System.step_outside.1 hs
    exact absurd ht.symm (List.cons_ne_self _ _)
  | advance j choice =>
    obtain ⟨request, o, next, r', w', hj, he, rfl⟩ := System.step_advance.1 hs
    cases ht
    obtain ⟨t, hchoice, he⟩ := given_eq_some.1 he
    cases he
    cases choice <;> simp only [Choice.date?, reduceCtorEq, Option.some.injEq] at hchoice
    subst hchoice
    simp only [readsOnTime, System.nextOp, hj] at h
    exact of_decide_eq_true h

theorem watched_run (h : Run P (System.start w) s) :
    (watchDiscipline configuration).Disciplined s := Discipline.disciplined_run h

/-- The clock only goes forward. -/
theorem now_step (hs : s.step l = some s') : s.world.now ≤ s'.world.now := by
  cases l with
  | spawn =>
    obtain ⟨-, rfl⟩ := System.step_spawn.1 hs
    exact le_refl _
  | advance =>
    obtain ⟨_, _, _, _, _, -, he, rfl⟩ := System.step_advance.1 hs
    exact (exec_now he).ge
  | crash =>
    obtain ⟨_, _, _, -, rfl⟩ := System.step_crash.1 hs
    exact le_refl _
  | outside =>
    obtain ⟨_, he, rfl⟩ := System.step_outside.1 hs
    exact outside_now he

theorem clocked_run (h : Run OnTime (System.start w) s) : Clocked (watches s) s.world := by
  induction h with
  | refl => exact ⟨nofun, nofun⟩
  | @tail s₁ s₂ l hr hp hs ih =>
    unfold watches at ih ⊢
    cases (watched_run hr).stepped hs with
    | spawned _ phases _ world =>
      rw [phases, world]
      exact ih.spawn _
    | crashed phases _ world =>
      rw [phases, world]
      exact ih
    | outside phases _ world =>
      rw [phases]
      exact ih.later (outside_now world)
    | advanced phases _ _ step =>
      rw [phases]
      exact ih.advance step.before (exec_now step.exec) fun t => hp _ _ t ⟨hs, step.trace⟩

theorem related_run (h : Run P (System.start w) s) (i : Nat) :
    Option.Rel Related (phases s i) (watches s i) := by
  refine Discipline.run_related (D := deliveryDiscipline configuration)
    (E := watchDiscipline configuration) Related ?_ ?_ h i
  · intro request
    cases request with
    | dispatch input => exact .dispatching ⟨rfl, rfl, nofun⟩
    | _ => exact .serving
  · intro ph wp o r hrel ho _ _ _
    cases hrel with
    | dispatching hlinked => exact .dispatching (hlinked.move (move_of_allows ho))
    | @serving request cancelled =>
      obtain ⟨cancelled', hc⟩ := serving_advance request cancelled o r
      change Related ((DeliveryPhase.serving request cancelled).advance o r) .serving
      rw [hc]
      exact .serving

/-- What a dispatch knows and how far it is agree after every run. -/
theorem linked_run (h : Run P (System.start w) s) {i : Nat} {q : Watch}
    (hq : Watching (watches s) i q) : ∃ p, Dispatching (phases s) i p ∧ Linked p q := by
  have hrel := related_run h i
  rw [show watches s i = some (.dispatching q) from hq] at hrel
  generalize hd : phases s i = ph at hrel
  cases hrel with
  | some hR =>
    cases hR with
    | dispatching hlinked => exact ⟨_, hd, hlinked⟩

theorem watching_run (h : Run P (System.start w) s) {i : Nat} {p : Progress}
    (hd : Dispatching (phases s) i p) : ∃ q, Watching (watches s) i q ∧ Linked p q := by
  have hrel := related_run h i
  rw [show phases s i = some (.dispatching p) from hd] at hrel
  generalize hq : watches s i = wp at hrel
  cases hrel with
  | some hR =>
    cases hR with
    | dispatching hlinked => exact ⟨_, hq, hlinked⟩

/-! ## What a dispatch read, in the trace -/

/-- The first time thread `i` read. -/
def arrival (s : System (platform configuration)) (i : Nat) : Option Date :=
  ((s.history i).filterMap fun e => reading e.op e.ret).getLast?

theorem after_watch (q : Watch) (older : List (Performed operations)) :
    ∃ q', watchTypestate.after (.dispatching q) older = .dispatching q' ∧
      (q.arrived = none → q'.arrived =
        (older.filterMap fun e => reading e.op e.ret).getLast?) ∧
      ∀ row, q'.waiting = some row → q.waiting = some row ∨
        ∃ i a n, ⟨i, .findNotificationById a n, some row⟩ ∈ older := by
  induction older with
  | nil => exact ⟨q, rfl, fun h => h, fun _ h => .inl h⟩
  | cons e older ih =>
    obtain ⟨q', hq', harrived, hwaiting⟩ := ih
    refine ⟨q'.advance e.op e.ret, ?_, fun hnone => ?_, fun row hrow => ?_⟩
    · simp only [Typestate.after, hq']
      rfl
    · rcases q'.advance_readings e.op e.ret with ⟨t, ht, he⟩ | ⟨-, he, hreading⟩
      · simp only [he, List.filterMap_cons, ht, List.getLast?_cons, ← harrived hnone]
        rfl
      · simp only [he, List.filterMap_cons, hreading]
        exact harrived hnone
    · have hkept : q'.waiting = some row → q.waiting = some row ∨
          ∃ i a n, ⟨i, .findNotificationById a n, some row⟩ ∈ e :: older := by
        intro h
        rcases hwaiting row h with hsame | ⟨i, a, n, hmem⟩
        · exact .inl hsame
        · exact .inr ⟨i, a, n, List.mem_cons_of_mem _ hmem⟩
      obtain ⟨i, o, r⟩ := e
      cases o
      case findNotificationById a n =>
        cases hrow
        exact .inr ⟨i, a, n, List.mem_cons_self⟩
      case promoteScheduled => cases r <;> exact hkept hrow
      case claimForDispatch => cases r <;> exact hkept hrow
      case findSessionById => cases r <;> exact hkept hrow
      case beginAttempt => cases r <;> exact hkept hrow
      all_goals exact hkept hrow

theorem after_serving_watch (older : List (Performed operations)) :
    watchTypestate.after .serving older = .serving := by
  induction older with
  | nil => rfl
  | cons e older ih =>
    simp only [Typestate.after, ih]
    rfl

theorem Watching.history {i : Nat} {q : Watch} (h : Watching (watches s) i q) :
    q.arrived = arrival s i ∧ ∀ row, q.waiting = some row →
      ∃ a n, ⟨i, .findNotificationById a n, some row⟩ ∈ s.trace := by
  unfold Watching watches Discipline.phase at h
  obtain ⟨t, ht, h⟩ := Option.map_eq_some_iff.1 h
  cases hreq : t.request with
  | dispatch input =>
    obtain ⟨q', hq', harrived, hwaiting⟩ := after_watch { input } (s.history i)
    rw [hreq] at h
    cases hq'.symm.trans h
    refine ⟨harrived rfl, fun row hrow => ?_⟩
    rcases hwaiting row hrow with hnone | ⟨j, a, n, hmem⟩
    · cases hnone
    · obtain ⟨htrace, hj⟩ := List.mem_filter.1 hmem
      obtain rfl : j = i := by simpa using hj
      exact ⟨a, n, htrace⟩
  | _ =>
    rw [hreq] at h
    exact absurd ((after_serving_watch _).symm.trans h) nofun

/-! ## Calling the provider -/

theorem Watch.Cleared.of_call {q : Watch} {o : Op} (ho : q.Allows o)
    (hcall : o.isProviderCall = true) : ∃ c r, q.Cleared c r := by
  cases o <;> simp only [Op.isProviderCall, Bool.false_eq_true] at hcall <;>
    obtain ⟨c, r, hc, -⟩ := ho <;> exact ⟨c, r, hc⟩

/-- The step calls the provider in dispatch `i`. -/
def ProviderStep (s : System (platform configuration)) (l : Label (platform configuration))
    (i : Nat) : Prop :=
  ∃ o r s', s.Performs l ⟨i, o, r⟩ s' ∧ o.isProviderCall = true

/-- Whoever calls the provider is cleared to. -/
theorem ProviderStep.cleared (hr : Run P (System.start w) s) (h : ProviderStep s l i) :
    ∃ q c r, Watching (watches s) i q ∧ q.Cleared c r := by
  obtain ⟨o, r, s', hp, hcall⟩ := h
  obtain ⟨choice, ph, rfl, ha, -⟩ := (watched_run hr).performs hp
  cases ph with
  | serving =>
    have hguard : o.isGuarded = false := ha.allowed
    cases o <;> simp [Op.isGuarded, Op.isProviderCall] at hcall hguard
  | dispatching q =>
    obtain ⟨c, conn, hcleared⟩ := Watch.Cleared.of_call ha.allowed hcall
    exact ⟨q, c, conn, ha.before, hcleared⟩

/-- The step calls the provider for notification `n`, in dispatch `i`. -/
def CallStep (s : System (platform configuration)) (l : Label (platform configuration))
    (n : Uuid) (i : Nat) : Prop :=
  ∃ o r s', s.Performs l ⟨i, o, r⟩ s' ∧ o.isProviderCall = true ∧
    (s.requestOf i).any (Request.dispatches n) = true

theorem CallStep.provider {n : Uuid} {i : Nat} (h : CallStep s l n i) : ProviderStep s l i := by
  obtain ⟨o, r, s', hp, hcall, -⟩ := h
  exact ⟨o, r, s', hp, hcall⟩

/-- Whoever calls the provider is cleared to, and owns the notification. -/
theorem CallStep.cleared {n : Uuid} {i : Nat} (hw : Fresh w)
    (hr : Run ReapsOnlyCrashed (System.start w) s) (h : CallStep s l n i) :
    ∃ q c r, Watching (watches s) i q ∧ q.Cleared c r ∧ c.id = n ∧
      Holds (phases s) s.world i n := by
  obtain ⟨q, c, conn, hq, hcleared⟩ := h.provider.cleared hr
  obtain ⟨o, r, s', hp, -, hn⟩ := h
  obtain ⟨p, hd, hlinked⟩ := linked_run hr hq
  have hpc : p.claimed = some c := hlinked.claimed ▸ hcleared.claimed
  have hactive := hlinked.active hcleared.left (by rw [hcleared.claimed]; rfl)
  have hlive : ¬ s.Crashed i := by
    obtain ⟨choice, ph, rfl, -⟩ := (disciplined_run hr).performs hp
    cases (disciplined_run hr).stepped hp.1 with
    | advanced _ _ live => exact live
  obtain ⟨p', hd', hid⟩ := dispatches_iff.1 hn
  cases hd.unique hd'
  exact ⟨q, c, conn, hq, hcleared, ((sound_run hw hr).ledgers.named hd hpc).trans hid,
    hid ▸ owned_run hw hr i p hd hlive hactive⟩

end Runs

/-! ## Steps of the sample -/

namespace Sample

def notReady : ProviderFailure := createProviderFailure .session_not_ready "not connected"

/-- Dispatch `i` is about to look the recipient up. -/
def looksUp (s : System (platform configuration)) (i : Nat) : Bool :=
  match s.nextOp i with
  | some (.resolveRecipient _ _) => true
  | _ => false

/-- The lookup may fail. -/
theorem looksUp_performs {s : System (platform configuration)} {i : Nat}
    (h : looksUp s i = true) : ∃ name phone s', s.Performs
      (.advance i (.resolved (.failed notReady)))
      ⟨i, .resolveRecipient name phone, .failed notReady⟩ s' := by
  unfold looksUp System.nextOp at h
  split at h
  · rename_i hnext
    split at hnext <;> cases hnext
    rename_i next hi
    exact ⟨_, _, _, System.step_advance.2
      ⟨_, _, next, .failed notReady, s.world, hi, rfl, rfl⟩, rfl⟩
  · cases h

end Sample

end NotificationPlatform
