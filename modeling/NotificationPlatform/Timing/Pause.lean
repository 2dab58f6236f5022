import NotificationPlatform.Timing.Clock

/-!
# Pauses of a connection

A pause is written by reports of limits, which only extend it, and lifted by a dispatch that saw it
end and names the end it saw. So until its end a pause only grows, and a dispatch that reads the
connection while one is in force does not call the provider before it is over.
-/

namespace NotificationPlatform

open Interleaving

section Runs

variable {configuration : Configuration} {P : System (platform configuration) →
  Label (platform configuration) → Prop} {w : World} {s s' : System (platform configuration)}
  {l : Label (platform configuration)} {i : Nat} {sessionId : Uuid} {p : Date}

/-- Connections are administered without changing when a connection may send: the service never
writes these columns outside the operations modelled here, and no identifier is used twice. -/
def KeepsConnection (sessionId : Uuid) (s : System (platform configuration))
    (l : Label (platform configuration)) : Prop :=
  ∀ table, l = .outside (.sessions table) → ∀ r', table.find? sessionId = some r' →
    ∃ r, s.world.session sessionId = some r ∧ r'.sendingPausedUntil = r.sendingPausedUntil ∧
      r'.nextSendAllowedAt = r.nextSendAllowedAt ∧
      r'.sendPacingMinimumSeconds = r.sendPacingMinimumSeconds

/-- The conditions on a run that concerns one connection. -/
def Timely (sessionId : Uuid) (s : System (platform configuration))
    (l : Label (platform configuration)) : Prop :=
  OnTime s l ∧ KeepsConnection sessionId s l

theorem Timely.run (h : Run (Timely sessionId) s s') : Run OnTime s s' := h.mono fun _ _ h => h.1

/-- Connections change from outside only where they are administered. -/
theorem outside_sessions {w w' : World} {event : Event} (he : outside w event = some w') :
    (∃ table, event = .sessions table) ∨ w'.whatsAppSessions = w.whatsAppSessions := by
  cases event with
  | sessions table => exact .inl ⟨table, rfl⟩
  | clock now =>
    simp only [NotificationPlatform.outside] at he
    split at he <;> cases he
    exact .inr rfl
  | jobTaken | applications =>
    cases he
    exact .inr rfl
  | filed input =>
    obtain ⟨⟨x, w₁⟩, h₁, rfl⟩ := Option.map_eq_some_iff.1 he
    unfold WebhookDeliveryRepository.record at h₁
    split at h₁
    · cases h₁
      exact .inr rfl
    · obtain ⟨t, -, h₂⟩ := Option.map_eq_some_iff.1 h₁
      cases h₂
      exact .inr rfl
  | created draft =>
    obtain ⟨⟨x, w₁⟩, h₁, rfl⟩ := Option.map_eq_some_iff.1 he
    exact .inr ((within_writeNotification draft _ _ _ h₁).whatsAppSessions (by decide))

/-- A connection after an event: gone, or as it was. -/
theorem KeepsConnection.outside {event : Event} (h : KeepsConnection sessionId s (.outside event))
    {w' : World} (he : outside s.world event = some w') {r' : WhatsAppSessionRecord}
    (hr' : w'.session sessionId = some r') :
    ∃ r, s.world.session sessionId = some r ∧ r'.sendingPausedUntil = r.sendingPausedUntil ∧
      r'.nextSendAllowedAt = r.nextSendAllowedAt ∧
      r'.sendPacingMinimumSeconds = r.sendPacingMinimumSeconds := by
  rcases outside_sessions he with ⟨table, rfl⟩ | hsame
  · cases he
    exact h table rfl r' hr'
  · rw [World.session, hsame] at hr'
    exact ⟨r', hr', rfl, rfl, rfl⟩

/-! ## A pause only grows -/

/-- A pause is lifted by a dispatch that read a time past its end. -/
theorem lifted_over (hr : Run OnTime (System.start w) s) {choice : Choice} {observed : Date}
    {r : Unit} {ph : WatchPhase} (ha : (watchDiscipline configuration).Advanced s s' i choice
      (.endSendingPause sessionId observed) r ph) : observed ≤ toDate s.world.now := by
  cases ph with
  | serving => exact absurd ha.allowed nofun
  | dispatching q => exact (clocked_run hr).reached ha.before ha.allowed

/-- **A pause in force is not shortened** by what a service does. -/
theorem pause_grows (hr : Run OnTime (System.start w) s) {r : WhatsAppSessionRecord}
    (hrow : s.world.session sessionId = some r) (hp : r.sendingPausedUntil = some p)
    (hforce : toDate s.world.now < p) {choice : Choice}
    (hs : s.step (.advance i choice) = some s') :
    ∃ r' p', s'.world.session sessionId = some r' ∧ r'.sendingPausedUntil = some p' ∧ p ≤ p' := by
  obtain ⟨o, a, ph, ha⟩ := (watched_run hr).advanced hs
  rcases exec_connection ha.exec sessionId with hsame | ⟨old, new, hold, hnew, hstep⟩
  · exact ⟨r, p, hsame.trans hrow, hp, le_rfl⟩
  · cases hrow.symm.trans hold
    cases hstep with
    | kept pause => exact ⟨new, p, hnew, pause.trans hp, le_rfl⟩
    | reserved _ pause => exact ⟨new, p, hnew, pause.trans hp, le_rfl⟩
    | @limited input _ _ pause =>
      cases hpause : input.pause with
      | none =>
        rw [hpause] at pause
        exact ⟨new, p, hnew, pause.trans hp, le_rfl⟩
      | some extended =>
        simp only [hpause, hp, Option.getD_some] at pause
        exact ⟨new, _, hnew, pause, le_max_left p _⟩
    | lifted was =>
      cases hp.symm.trans was
      exact absurd (lifted_over hr ha) (not_le.2 hforce)

/-- The time `p` has come, or the connection, if there is one, is paused until `p` at least. -/
def PausedUntil (sessionId : Uuid) (p : Date) (w : World) : Prop :=
  p ≤ toDate w.now ∨ ∀ r, w.session sessionId = some r →
    ∃ p', r.sendingPausedUntil = some p' ∧ p ≤ p'

theorem PausedUntil.step (hr : Run OnTime (System.start w) s) (h : PausedUntil sessionId p s.world)
    (hl : Timely sessionId s l) (hs : s.step l = some s') : PausedUntil sessionId p s'.world := by
  rcases h with hcome | hpaused
  · exact .inl (hcome.trans (toDate_mono (now_step hs)))
  cases hstep : l with
  | spawn j request =>
    subst hstep
    obtain ⟨-, rfl⟩ := System.step_spawn.1 hs
    exact .inr hpaused
  | crash j =>
    subst hstep
    obtain ⟨_, _, _, -, rfl⟩ := System.step_crash.1 hs
    exact .inr hpaused
  | outside event =>
    subst hstep
    obtain ⟨w', he, rfl⟩ := System.step_outside.1 hs
    refine .inr fun r' hr' => ?_
    obtain ⟨r, hrow, hpause, -⟩ := hl.2.outside he hr'
    rw [hpause]
    exact hpaused r hrow
  | advance j choice =>
    subst hstep
    by_cases hforce : p ≤ toDate s.world.now
    · exact .inl (hforce.trans (toDate_mono (now_step hs)))
    · refine .inr fun r' hr' => ?_
      cases hrow : s.world.session sessionId with
      | none =>
        obtain ⟨o, a, ph, ha⟩ := (watched_run hr).advanced hs
        rcases exec_connection ha.exec sessionId with hsame | ⟨old, new, hold, -⟩
        · exact absurd (hrow.symm.trans (hsame.symm.trans hr')) nofun
        · exact absurd (hrow.symm.trans hold) nofun
      | some r =>
        obtain ⟨p', hp', hle⟩ := hpaused r hrow
        obtain ⟨r'', p'', hr'', hp'', hle'⟩ := pause_grows hr hrow hp'
          ((not_le.1 hforce).trans_le hle) hs
        cases hr''.symm.trans hr'
        exact ⟨p'', hp'', hle.trans hle'⟩

/-! ## What a dispatch read of a pause -/

/-- What a dispatch knows of a pause until `p`: it read one as long at least, or the time `p` has
come. -/
structure Watch.KnowsPause (sessionId : Uuid) (p : Date) (w : World) (q : Watch) : Prop where
  bound : ∃ c, q.claimed = some c ∧ c.whatsAppSessionId = sessionId
  read : ∃ r, q.session = some r ∧
    (p ≤ toDate w.now ∨ ∃ p', r.sendingPausedUntil = some p' ∧ p ≤ p')

/-- Thread `i` was started and, if it is a dispatch, knows of the pause. -/
def KnowsPause (sessionId : Uuid) (p : Date) (i : Nat) (s : System (platform configuration)) :
    Prop :=
  ∃ ph, watches s i = some ph ∧
    ∀ q, ph = .dispatching q → q.KnowsPause sessionId p s.world

theorem findSessionById_eq {w w' : World} {a : Uuid} {choice : Choice} {r : WhatsAppSessionRecord}
    (he : exec w (.findSessionById a sessionId) choice = some (some r, w')) :
    w.session sessionId = some r := by
  obtain ⟨hr, -⟩ := Prod.mk.inj (Option.some.inj (Choice.quietly_eq_some.1 he).2)
  exact (Option.filter_eq_some_iff.1 hr).1

/-- Reading a connection while it is paused. -/
theorem Watch.KnowsPause.of_read {q : Watch} {w w' : World} {a : Uuid} {choice : Choice}
    {r : WhatsAppSessionRecord} (h : PausedUntil sessionId p w)
    (ho : q.Allows (.findSessionById a sessionId))
    (he : exec w (.findSessionById a sessionId) choice = some (some r, w')) :
    (q.advance (.findSessionById a sessionId) (some r)).KnowsPause sessionId p w' := by
  obtain ⟨c, hc, -, hsession⟩ := ho
  refine ⟨⟨c, hc, hsession.symm⟩, r, rfl, ?_⟩
  rw [exec_now he]
  exact h.imp id fun hpaused => hpaused r (findSessionById_eq he)

theorem Watch.KnowsPause.advance {q : Watch} {w w' : World} {o : Op} {a : o.Ret} {choice : Choice}
    (hq : q.KnowsPause sessionId p w) (h : PausedUntil sessionId p w) (ho : q.Allows o)
    (he : exec w o choice = some (a, w')) : (q.advance o a).KnowsPause sessionId p w' := by
  obtain ⟨⟨c, hc, hbound⟩, r, hread, hp⟩ := hq
  have hp' : p ≤ toDate w'.now ∨ ∃ p', r.sendingPausedUntil = some p' ∧ p ≤ p' := by
    rw [exec_now he]
    exact hp
  cases o
  case findSessionById a s =>
    cases a with
    | none => exact ⟨⟨c, hc, hbound⟩, r, hread, hp'⟩
    | some r' =>
      obtain ⟨c', hc', -, hs⟩ := id ho
      cases hc.symm.trans hc'
      rw [hbound] at hs
      subst hs
      exact .of_read h ho he
  case claimForDispatch =>
    -- it has claimed already
    exact absurd (hc.symm.trans ho.1) nofun
  case promoteScheduled => cases a <;> exact ⟨⟨c, hc, hbound⟩, r, hread, hp'⟩
  case beginAttempt => cases a <;> exact ⟨⟨c, hc, hbound⟩, r, hread, hp'⟩
  all_goals exact ⟨⟨c, hc, hbound⟩, r, hread, hp'⟩

theorem Watch.KnowsPause.later {q : Watch} {w w' : World} (hq : q.KnowsPause sessionId p w)
    (hle : w.now ≤ w'.now) : q.KnowsPause sessionId p w' := by
  obtain ⟨hbound, r, hread, hp⟩ := hq
  exact ⟨hbound, r, hread, hp.imp (fun h => h.trans (toDate_mono hle)) id⟩

theorem KnowsPause.step (hr : Run OnTime (System.start w) s) (h : PausedUntil sessionId p s.world)
    (hi : KnowsPause sessionId p i s) (hs : s.step l = some s') : KnowsPause sessionId p i s' := by
  obtain ⟨ph, hph, hknows⟩ := hi
  have hlater : ∀ q, ph = .dispatching q → q.KnowsPause sessionId p s'.world := fun q hq =>
    (hknows q hq).later (now_step hs)
  unfold KnowsPause watches at *
  cases (watched_run hr).stepped hs with
  | @spawned j request fresh phases =>
    have hij : i ≠ j := by
      rintro rfl
      exact absurd (hph.symm.trans fresh) nofun
    rw [phases]
    exact ⟨ph, by rw [Function.update_of_ne hij, hph], hlater⟩
  | crashed phases | outside phases =>
    rw [phases]
    exact ⟨ph, hph, hlater⟩
  | @advanced j choice o a ph' phases _ _ step =>
    rw [phases]
    by_cases hij : i = j
    · subst hij
      cases hph.symm.trans step.before
      refine ⟨_, Function.update_self .., fun q' hq' => ?_⟩
      cases ph with
      | serving => cases hq'
      | dispatching q =>
        cases hq'
        exact (hknows q rfl).advance h step.allowed step.exec
    · exact ⟨ph, by rw [Function.update_of_ne hij, hph], hlater⟩

/-- Who reads the connection after a pause was committed calls nobody before its end. -/
theorem pause_run (hr : Run OnTime (System.start w) s) (h : PausedUntil sessionId p s.world)
    {s₁ s₂ s₃ : System (platform configuration)} {l₁ : Label (platform configuration)} {a : Uuid}
    {answer : WhatsAppSessionRecord} (h₁ : Run (Timely sessionId) s s₁)
    (hread : s₁.Performs l₁ ⟨i, .findSessionById a sessionId, some answer⟩ s₂)
    (h₂ : Run (Timely sessionId) s₂ s₃) :
    Run OnTime (System.start w) s₃ ∧ KnowsPause sessionId p i s₃ := by
  have hpaused : ∀ {t t' : System (platform configuration)}, Run OnTime (System.start w) t →
      PausedUntil sessionId p t.world → Run (Timely sessionId) t t' →
        PausedUntil sessionId p t'.world := by
    intro t t' ht hp hrun
    induction hrun with
    | refl => exact hp
    | tail hq hl hs ih => exact ih.step (ht.trans (Timely.run hq)) hl hs
  have hr₁ := hr.trans (Timely.run h₁)
  have hp₁ := hpaused hr h h₁
  obtain ⟨choice, ph, rfl, ha, hphases⟩ := (watched_run hr₁).performs hread
  have htimely : Timely sessionId s₁ (.advance i choice) := by
    refine ⟨fun p s' t hp hreading => ?_, nofun⟩
    cases hread.1.symm.trans hp.1
    cases hread.2.symm.trans hp.2
    cases hreading
  have hr₂ : Run OnTime (System.start w) s₂ := hr₁.tail htimely.1 hread.1
  have hp₂ := hp₁.step hr₁ htimely hread.1
  have hknows₂ : KnowsPause sessionId p i s₂ := by
    refine ⟨_, ha.after, fun q' hq' => ?_⟩
    cases ph with
    | serving => cases hq'
    | dispatching q =>
      cases hq'
      exact .of_read hp₁ ha.allowed ha.exec
  refine ⟨hr₂.trans (Timely.run h₂), ?_⟩
  induction h₂ with
  | refl => exact hknows₂
  | tail hq hl hs ih =>
    exact ih.step (hr₂.trans (Timely.run hq)) (hpaused hr₂ hp₂ hq) hs

/-- **A pause is respected, and never shortened.** Once a pause until `p` was committed, a dispatch
that reads the connection after that calls the provider no earlier than `p`; and as long as `p` is
still to come, no step of a service makes the pause end earlier. -/
theorem pause_respected (hr : Run OnTime (System.start w) s) {r : WhatsAppSessionRecord}
    (hrow : s.world.session sessionId = some r) (hp : r.sendingPausedUntil = some p) :
    (∀ s₁ s₂ s₃ l₁ l₃ i a answer, Run (Timely sessionId) s s₁ →
      s₁.Performs l₁ ⟨i, .findSessionById a sessionId, some answer⟩ s₂ →
      Run (Timely sessionId) s₂ s₃ → ProviderStep s₃ l₃ i → p ≤ toDate s₃.world.now) ∧
    (toDate s.world.now < p → ∀ i choice s', s.step (.advance i choice) = some s' →
      ∃ r' p', s'.world.session sessionId = some r' ∧ r'.sendingPausedUntil = some p' ∧ p ≤ p') := by
  refine ⟨?_, fun hforce i choice s' hs => pause_grows hr hrow hp hforce hs⟩
  intro s₁ s₂ s₃ l₁ l₃ i a answer h₁ hread h₂ hcall
  have hpaused : PausedUntil sessionId p s.world := .inr fun r' hr' => by
    cases hrow.symm.trans hr'
    exact ⟨p, hp, le_rfl⟩
  obtain ⟨hr₃, ph, hph, hknows⟩ := pause_run hr hpaused h₁ hread h₂
  obtain ⟨q, c, conn, hq, hcleared⟩ := hcall.cleared hr₃
  cases hph.symm.trans hq
  obtain ⟨-, r', hread', hp'⟩ := hknows q rfl
  cases hcleared.session.symm.trans hread'
  rcases hp' with hcome | ⟨p', hp', hle⟩
  · exact hcome
  · exact hle.trans ((clocked_run hr₃).reached hq (hcleared.pause p' hp'))

/-- A step reads the clock as it is, and does not administer connections. -/
def readsTimely (s : System (platform configuration)) (l : Label (platform configuration)) : Bool :=
  readsOnTime s l && match l with
    | .outside (.sessions _) => false
    | _ => true

theorem Timely.of_check (h : readsTimely s l = true) : Timely sessionId s l := by
  simp only [readsTimely, Bool.and_eq_true] at h
  refine ⟨.of_check h.1, ?_⟩
  rintro table rfl
  exact absurd h.2 nofun

end Runs

/-! ## A run of the sample -/

namespace Sample

/-- The connection is paused until 50 ms past midnight. -/
def pausedSession : WhatsAppSessionRecord :=
  { session with
    sendingPausedUntil := some 50
    sendingPausedReason := some .REACHOUT_TIMELOCK }

def pausedWorld : World :=
  { world .RETRY with whatsAppSessions := ⟨[pausedSession], List.nodup_singleton _⟩ }

/-- The dispatch of notification 7 is about to read its connection. -/
def claimed : List Step := dispatching 1 ++ claims 0 0 ++ reads 0 0

/-- The pause ends before it decides, and is lifted. -/
def outlasts : List Step :=
  [.outside (.clock 60000), .advance 0 (.date 60), .advance 0 (.limits (.failed
    (createProviderFailure .session_not_ready ""))), .advance 0 (.session (.failed
    (createProviderFailure .session_not_ready ""))), .advance 0 .nothing, .advance 0 .nothing,
    .advance 0 (.date 60), .advance 0 .nothing, .advance 0 (.date 60), .advance 0 (.number 0)]

end Sample

/-- A dispatch reads the paused connection, and looks the recipient up when the pause is over. -/
theorem pause_respected_outlasted :
    let s := (System.start Sample.pausedWorld : System (platform Sample.configuration)).after
      Sample.claimed
    let s₂ := s.after [.advance 0 .nothing]
    let s₃ := s₂.after Sample.outlasts
    (50 : Date) ≤ toDate s₃.world.now ∧ ∃ r' p', s₂.world.session 2 = some r' ∧
      r'.sendingPausedUntil = some p' ∧ 50 ≤ p' := by
  intro s s₂ s₃
  have hr : Run OnTime (System.start Sample.pausedWorld) s :=
    (Run.of_checksEach (b := readsOnTime) (by decide +kernel)).mono fun _ _ => OnTime.of_check
  have h₂ : Run (Timely 2) s₂ s₃ :=
    (Run.of_checksEach (b := readsTimely) (by decide +kernel)).mono fun _ _ => Timely.of_check
  have hrow : s.world.session 2 = some Sample.pausedSession := by decide +kernel
  obtain ⟨hcall, hgrows⟩ := pause_respected hr hrow rfl
  refine ⟨?_, hgrows (by decide +kernel) 0 .nothing s₂ rfl⟩
  obtain ⟨name, phone, s', hp⟩ := Sample.looksUp_performs (s := s₃) (i := 0) (by decide +kernel)
  exact hcall s s₂ s₃ (.advance 0 .nothing) _ 0 1 Sample.pausedSession .refl ⟨rfl, rfl⟩ h₂
    ⟨_, _, s', hp, rfl⟩

end NotificationPlatform
