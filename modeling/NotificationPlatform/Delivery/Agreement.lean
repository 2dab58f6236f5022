import NotificationPlatform.Delivery.Budget

/-!
# Whether the ledger agrees with the row

The success of an attempt is recorded on the row and in the ledger at once. What can come between is
another dispatch that found the attempt unresolved, and writes its `UNKNOWN` over a success that was
recorded in the meantime: `resolve` asks for no particular outcome. `agreement_iff` says that
nothing else can.
-/

namespace NotificationPlatform

open Interleaving

/-- A notification that was sent has exactly one successful attempt, which names its message. -/
def Agrees (w : World) : Prop :=
  ∀ n r, w.row n = some r → r.status = .SENT ∨ r.status = .DELIVERED →
    r.providerMessageId.isSome = true ∧
      ((w.ledger n).filter (·.outcome = some .SUCCEEDED)).map (·.providerMessageId) =
        [r.providerMessageId]

/-- An attempt that was resolved as successful still is. -/
def KeepsSuccess (w w' : World) : Prop :=
  ∀ n, ∀ a ∈ w.ledger n, a.outcome = some .SUCCEEDED →
    ∃ a' ∈ w'.ledger n, a'.attemptNumber = a.attemptNumber ∧ a'.outcome = some .SUCCEEDED

/-- What a success that was recorded left in the ledger is still there. -/
def Recorded (ph : Phases) (w : World) : Prop :=
  ∀ i p sent k a, Dispatching ph i p → p.recorded = some .SUCCEEDED →
    p.answer = some (.succeeded sent) → p.attempt = some k →
    a ∈ w.ledger p.input.notificationId → a.attemptNumber = k →
    a.outcome = some .SUCCEEDED ∧ a.providerMessageId = some sent.providerMessageId

/-! ## Writing to the ledger -/

theorem resolved_entry {input : ResolveSendAttemptInput} {a : SendAttemptRecord}
    (h : input.concerns a = true) : (input.apply a).outcome = some input.outcome ∧
      (input.apply a).providerMessageId = input.providerMessageId := by
  unfold NotificationSendAttemptRepository.ResolveSendAttemptInput.apply
  rw [if_pos h]
  exact ⟨rfl, rfl⟩

section Advance

variable {ph : Phases} {w w' : World} {i j : Nat} {q : DeliveryPhase} {o : Op} {r : o.Ret}
  {choice : Choice} {p p' : Progress}

/-- A dispatch names its entries by notification, application and number. -/
theorem Ledgers.concerns (h : Ledgers ph w) (hd : Dispatching ph i p) {c : NotificationRecord}
    (hc : p.claimed = some c) {input : ResolveSendAttemptInput} {a : SendAttemptRecord}
    (ha : a ∈ w.ledger c.id) (hn : input.notificationId = c.id)
    (happ : input.applicationId = c.applicationId) (hk : a.attemptNumber = input.attemptNumber) :
    input.concerns a = true := by
  obtain ⟨row, hrow, hkept⟩ := h.claimed hd hc
  have hid : a.notificationId = c.id := by simpa using (List.mem_filter.1 ha).2
  have htenant : a.applicationId = c.applicationId :=
    (h.tenant hrow ha).trans hkept.applicationId
  simp [NotificationSendAttemptRepository.ResolveSendAttemptInput.concerns, hid, htenant, hn,
    happ, hk]

/-- The success a dispatch has just recorded is in the ledger. -/
theorem Recorded.new (hs : Sound ph w) (hd : Dispatching ph i p) (hm : Move p o r p')
    (he : exec w o choice = some (r, w')) (hbefore : p.recorded ≠ some .SUCCEEDED)
    (hafter : p'.recorded = some .SUCCEEDED) {sent : SentMessage}
    (hsent : p'.answer = some (.succeeded sent)) {k : Nat} (hk : p'.attempt = some k)
    {a : SendAttemptRecord} (ha : a ∈ w'.ledger p.input.notificationId)
    (hak : a.attemptNumber = k) :
    a.outcome = some .SUCCEEDED ∧ a.providerMessageId = some sent.providerMessageId := by
  cases hm with
  | @recorded input sent' stage claimed attempt answer message =>
    cases answer.symm.trans hsent
    cases attempt.symm.trans hk
    rw [← hs.ledgers.named hd claimed] at ha
    cases exec_effect he input.notification.id with
    | kept row ledger idle => exact absurd rfl idle
    | sent names moved ledger =>
      rw [ledger] at ha
      obtain ⟨b, hb, rfl⟩ := List.mem_map.1 ha
      have hbk : b.attemptNumber = input.attemptNumber :=
        (sameAttempt_apply input.resolution b).attemptNumber.symm.trans hak
      have hconcerns : input.resolution.concerns b = true :=
        hs.ledgers.concerns hd claimed hb rfl rfl hbk
      obtain ⟨ho, hm⟩ := resolved_entry hconcerns
      exact ⟨ho, hm.trans (congrArg some message)⟩
  | @settled input c _ claimed application names may =>
    simp only [Progress.settle] at hafter
    split at hafter
    · rename_i stage
      rcases may with ⟨stage', -⟩ | ⟨-, -, _, -, ⟨-, hout, -⟩ | ⟨-, hout⟩⟩
      · cases stage.symm.trans stage'
      · rw [hout] at hafter
        cases hafter
      · rw [hout] at hafter
        cases hafter
    · exact absurd hafter hbefore
  | _ => exact absurd hafter hbefore

/-- The attempt an operation resolves by itself is not one whose success was recorded. -/
def SparesSuccess (ph : Phases) (o : Op) : Prop :=
  ∀ input, o = .resolveAttempt input → ∀ i p, Dispatching ph i p →
    p.input.notificationId = input.notificationId → p.attempt = some input.attemptNumber →
    p.recorded ≠ some .SUCCEEDED

/-- A recorded success is overwritten by nothing but an attempt found unresolved. -/
theorem Recorded.old (h : Recorded ph w) (hs : Sound ph w) (ho : q.Allows o)
    (he : exec w o choice = some (r, w')) (hspare : SparesSuccess ph o)
    (hd : Dispatching ph i p) (hrec : p.recorded = some .SUCCEEDED) {sent : SentMessage}
    (hsent : p.answer = some (.succeeded sent)) {k : Nat} (hk : p.attempt = some k)
    {a : SendAttemptRecord} (ha : a ∈ w'.ledger p.input.notificationId)
    (hak : a.attemptNumber = k) :
    a.outcome = some .SUCCEEDED ∧ a.providerMessageId = some sent.providerMessageId := by
  cases (exec_effect he p.input.notificationId).entry ha with
  | same was => exact h i p sent k a hd hrec hsent hk was hak
  | @resolved input b was names concerns =>
    have hnumber := (concerns_number concerns).1
    exact absurd hrec (hspare input rfl i p hd names.symm (by rw [hk, ← hak, hnumber]))
  | @sent input b was names concerns =>
    exfalso
    obtain ⟨p₁, rfl, -, hc, -⟩ := dispatching_of_allows rfl ho
    cases exec_effect he input.notification.id with
    | kept row ledger idle => exact absurd rfl idle
    | sent _ moved =>
      exact hs.accepted.not_again hd hrec names.symm moved.before moved.status
  | @begun input k' id names =>
    exfalso
    obtain ⟨old, new, _, before, -, -, hcount, -⟩ := (exec_effect he input.notificationId).begun_of_names
    obtain ⟨row, hrow, -, hle⟩ := hs.ledgers.begun hd hk
    rw [← names] at hrow
    cases before.symm.trans hrow
    have : k' = k := hak
    omega

theorem Recorded.advance (h : Recorded ph w) (hs : Sound ph w) (hi : ph i = some q)
    (ho : q.Allows o) (he : exec w o choice = some (r, w')) (hspare : SparesSuccess ph o) :
    Recorded (Function.update ph i (some (q.advance o r))) w' := by
  intro j p' sent k a hd hrec hsent hk ha hak
  rcases dispatching_advance hi ho hd with ⟨-, hold⟩ | ⟨-, p, hold, hm⟩
  · exact h.old hs ho he hspare hold hrec hsent hk ha hak
  · rw [hm.input] at ha
    by_cases hbefore : p.recorded = some .SUCCEEDED
    · have hwf := hs.tokens.wellFormed hold
      obtain ⟨r, sent', -, ha', -⟩ := hs.accepted.recorded hold hbefore
      obtain ⟨k', hk'⟩ := Option.isSome_iff_exists.1
        (hwf.sent (hwf.answer (by rw [ha']; rfl)).2).2.1
      cases (hm.answer_persists hwf ha').symm.trans hsent
      cases (hm.attempt_persists hwf hk').symm.trans hk
      exact h.old hs ho he hspare hold hbefore ha' hk' ha hak
    · exact Recorded.new hs hold hm he hbefore hrec hsent hk ha hak

end Advance

/-! ## Runs -/

theorem filter_eq_singleton {α : Type} {l : List α} (h : l.Nodup) {p : α → Bool} {a : α}
    (ha : a ∈ l) (hp : p a = true) (hu : ∀ b ∈ l, p b = true → b = a) : l.filter p = [a] := by
  refine List.perm_singleton.1 ((List.perm_ext_iff_of_nodup (h.filter p)
    (List.nodup_singleton a)).2 fun b => ?_)
  rw [List.mem_filter, List.mem_singleton]
  constructor
  · rintro ⟨hb, hpb⟩
    exact hu b hb hpb
  · rintro rfl
    exact ⟨ha, hp⟩

section Runs

variable {configuration : Configuration} {P : System (platform configuration) →
  Label (platform configuration) → Prop} {w : World} {s s' : System (platform configuration)}
  {l : Label (platform configuration)} {ph : Phases}

/-- A successful entry is that of a dispatch which recorded a success. -/
theorem Sound.success_author (hs : Sound ph w) {n : Uuid} {a : SendAttemptRecord}
    (ha : a ∈ w.ledger n) (ho : a.outcome = some .SUCCEEDED) : ∃ i p sent, Dispatching ph i p ∧
      p.input.notificationId = n ∧ p.attempt = some a.attemptNumber ∧
      p.recorded = some .SUCCEEDED ∧ p.answer = some (.succeeded sent) := by
  obtain ⟨i, p, hd, rfl, hk⟩ := hs.ledgers.author ha
  have hrec : p.recorded = some .SUCCEEDED := by
    rcases hs.ledgers.outcome hd ha hk with hx | hx | hx <;> rw [ho] at hx
    · cases hx
    · cases hx
    · exact hx.symm
  obtain ⟨-, sent, -, hsent, -⟩ := hs.accepted.recorded hd hrec
  exact ⟨i, p, sent, hd, rfl, hk, hrec, hsent⟩

/-- A dispatch that recorded a success has an attempt in the ledger. -/
theorem Sound.success_attempt (hs : Sound ph w) {i : Nat} {p : Progress} (hd : Dispatching ph i p)
    (hrec : p.recorded = some .SUCCEEDED) :
    ∃ a ∈ w.ledger p.input.notificationId, p.attempt = some a.attemptNumber := by
  have hwf := hs.tokens.wellFormed hd
  obtain ⟨k, hk⟩ := Option.isSome_iff_exists.1
    (hwf.sent (hwf.answer (hwf.recorded (by rw [hrec]; rfl)).2).2).2.1
  obtain ⟨row, hrow, hone, hle⟩ := hs.ledgers.begun hd hk
  have hmem : k ∈ (w.ledger p.input.notificationId).map (·.attemptNumber) := by
    rw [hs.ledgers.numbered hrow, List.mem_range'_1]
    omega
  obtain ⟨a, ha, hak⟩ := List.mem_map.1 hmem
  exact ⟨a, ha, by rw [hk, hak]⟩

/-- Entries of one notification with one number are one entry. -/
theorem Sound.entry_unique (hs : Sound ph w) {n : Uuid} {a b : SendAttemptRecord}
    (ha : a ∈ w.ledger n) (hb : b ∈ w.ledger n) (h : a.attemptNumber = b.attemptNumber) :
    a = b ∧ (w.ledger n).Nodup := by
  cases hrow : w.row n with
  | none =>
    rw [hs.ledgers.absent hrow] at ha
    exact absurd ha List.not_mem_nil
  | some row =>
    have hnodup : ((w.ledger n).map (·.attemptNumber)).Nodup := by
      rw [hs.ledgers.numbered hrow]
      exact List.nodup_range'
    exact ⟨List.inj_on_of_nodup_map hnodup ha hb h, hnodup.of_map⟩

theorem Recorded.agrees (h : Recorded ph w) (hs : Sound ph w) : Agrees w := by
  intro n r hrow hstatus
  have hmessage := hs.accepted.message hrow hstatus
  refine ⟨hmessage, ?_⟩
  obtain ⟨i, p, hd, rfl, hrec⟩ := hs.accepted.sender hrow hmessage
  obtain ⟨row, sent, hrow', hsent, hm⟩ := hs.accepted.recorded hd hrec
  cases hrow.symm.trans hrow'
  obtain ⟨a, ha, hk⟩ := hs.success_attempt hd hrec
  obtain ⟨ho, ham⟩ := h i p sent _ a hd hrec hsent hk ha rfl
  have honly : (w.ledger p.input.notificationId).filter (·.outcome = some .SUCCEEDED) = [a] := by
    refine filter_eq_singleton (hs.entry_unique ha ha rfl).2 ha (by simpa using ho) ?_
    intro b hb hbo
    obtain ⟨j, p', -, hd', hn, hk', hrec', -⟩ := hs.success_author hb (by simpa using hbo)
    obtain rfl := hs.accepted.once hd hd' hn.symm hrec hrec'
    cases hd.unique hd'
    exact (hs.entry_unique hb ha (Option.some.inj (hk'.symm.trans hk))).1
  rw [honly, List.map_singleton, ham, hm]

/-- When a dispatch resolves an attempt by itself, the dispatch that made the attempt has not
recorded its success. -/
def SparesRecorded (s : System (platform configuration)) (l : Label (platform configuration)) :
    Prop :=
  ∀ i input s', s.Performs l ⟨i, .resolveAttempt input, ()⟩ s' →
    SparesSuccess (phases s) (.resolveAttempt input)

/-- The ledger agrees with the rows before and after the step, and the step keeps successes. -/
def Agreeing (s : System (platform configuration)) (l : Label (platform configuration)) : Prop :=
  Agrees s.world ∧ ∀ s', s.step l = some s' → KeepsSuccess s.world s'.world ∧ Agrees s'.world

theorem recorded_step (h : Recorded (phases s) s.world) (hsound : Sound (phases s) s.world)
    (hs : s.step l = some s') (hstep : Stepped s s' l) (hspare : SparesRecorded s l) :
    Recorded (phases s') s'.world := by
  unfold phases
  cases hstep with
  | spawned fresh phases' crashed world =>
    rw [phases', world]
    intro j p sent k a hd hrec
    rcases dispatching_spawn hd with ⟨-, hold⟩ | ⟨-, input, rfl⟩
    · exact h j p sent k a hold hrec
    · cases hrec
  | crashed phases' crashed world =>
    rw [phases', world]
    exact h
  | outside phases' crashed world =>
    rw [phases']
    intro j p sent k a hd hrec hsent hk ha
    rw [ledger_eq (outside_cases world 0).1] at ha
    exact h j p sent k a hd hrec hsent hk ha
  | @advanced i choice o r q phases' crashed live step =>
    rw [phases']
    refine Recorded.advance h hsound step.before step.allowed step.exec ?_
    rintro input rfl
    exact hspare i input s' ⟨hs, step.trace⟩ input rfl

theorem recorded_run (hw : Fresh w) (h : Run SparesRecorded (System.start w) s) :
    Recorded (phases s) s.world := by
  induction h with
  | refl =>
    intro i p sent k a hd
    cases hd
  | tail hr hp hs ih =>
    exact recorded_step ih (sound_run hw hr) hs ((disciplined_run hr).stepped hs) hp

/-- The dispatch of a success is still there after a step, and so is its entry. -/
theorem keepsSuccess_step (hsound : Sound (phases s) s.world) (hsound' : Sound (phases s') s'.world)
    (hrec' : Recorded (phases s') s'.world) (hstep : Stepped s s' l) :
    KeepsSuccess s.world s'.world := by
  intro n a ha ho
  obtain ⟨i, p, sent, hd, rfl, hk, hrec, hsent⟩ := hsound.success_author ha ho
  have hwf := hsound.tokens.wellFormed hd
  obtain ⟨p', hd', hinput, hk', hrecorded, hsent'⟩ : ∃ p', Dispatching (phases s') i p' ∧
      p'.input = p.input ∧ p'.attempt = some a.attemptNumber ∧ p'.recorded = some .SUCCEEDED ∧
      p'.answer = some (.succeeded sent) := by
    obtain ⟨p', hd', rfl | ⟨o, r, choice, hm, -⟩⟩ := continues_step hstep hd
    · exact ⟨p', hd', rfl, hk, hrec, hsent⟩
    · exact ⟨p', hd', hm.input, hm.attempt_persists hwf hk, hm.recorded_persists hwf hrec,
        hm.answer_persists hwf hsent⟩
  obtain ⟨a', ha', hk''⟩ := hsound'.success_attempt hd' hrecorded
  have hnumber : a'.attemptNumber = a.attemptNumber := Option.some.inj (hk''.symm.trans hk')
  obtain ⟨ho', -⟩ := hrec' i p' sent _ a' hd' hrecorded hsent' hk'' ha' rfl
  exact ⟨a', hinput ▸ ha', hnumber, ho'⟩

/-- Writing over an attempt whose success was recorded changes it. -/
theorem overwrites (hsound : Sound (phases s) s.world) (hrec : Recorded (phases s) s.world)
    (hd : (deliveryDiscipline configuration).Disciplined s) {i : Nat}
    {input : ResolveSendAttemptInput} (hp : s.Performs l ⟨i, .resolveAttempt input, ()⟩ s')
    (hkeeps : KeepsSuccess s.world s'.world) :
    SparesSuccess (phases s) (.resolveAttempt input) := by
  rintro input' heq j p hj hn hk hsuccess
  cases heq
  obtain ⟨choice, q, rfl, step, -⟩ := hd.performs hp
  obtain ⟨p₁, rfl, ⟨c, hc, happ, hcn⟩, hmay⟩ := dispatching_of_allows rfl step.allowed
  obtain ⟨-, sent, -, hsent, -⟩ := hsound.accepted.recorded hj hsuccess
  obtain ⟨a, ha, hak⟩ := hsound.success_attempt hj hsuccess
  have hnumber : a.attemptNumber = input.attemptNumber := Option.some.inj (hak.symm.trans hk)
  obtain ⟨ho, -⟩ := hrec j p sent _ a hj hsuccess hsent hak ha rfl
  rw [hn] at ha
  obtain ⟨a', ha', hnumber', ho'⟩ := hkeeps _ a ha ho
  have he : exec s.world (.resolveAttempt input) choice = some ((), s'.world) := step.exec
  cases exec_effect he input.notificationId with
  | kept row ledger idle => exact absurd rfl idle
  | resolved names row ledger =>
    rw [ledger] at ha'
    obtain ⟨b, hb, rfl⟩ := List.mem_map.1 ha'
    have hbk : b.attemptNumber = input.attemptNumber :=
      ((sameAttempt_apply input b).attemptNumber.symm.trans hnumber').trans hnumber
    rw [hcn] at hb
    rw [(resolved_entry (hsound.ledgers.concerns step.before hc hb hcn happ hbk)).1] at ho'
    rcases hmay with ⟨-, -, hout, -⟩ | ⟨-, -, _, -, ⟨-, hout, -⟩ | ⟨-, hout⟩⟩ <;>
      rw [hout] at ho' <;> cases ho'

/-- **Ledger and row.** Along any sequence of steps, the ledger agrees with the rows and keeps every
success exactly if no dispatch resolves an attempt by itself after the success of that attempt was
recorded. -/
theorem agreement_iff (hw : Fresh w) (ls : List (Label (platform configuration))) :
    Always Agreeing (System.start w) ls ↔ Always SparesRecorded (System.start w) ls := by
  refine always_iff ls fun s l s' hr hs => ?_
  have hsound := sound_run hw hr
  have hrec := recorded_run hw (hr.mono fun _ _ h => h.2)
  have hd := disciplined_run hr
  constructor
  · rintro ⟨-, hstep⟩ i input s₁ hp
    exact overwrites hsound hrec hd hp (hstep s₁ hp.1).1
  · intro hspare
    refine ⟨hrec.agrees hsound, fun s₁ hs₁ => ?_⟩
    have hstep := hd.stepped hs₁
    have hsound' := sound_run hw (hr.any.tail trivial hs₁)
    have hrec' := recorded_step hrec hsound hs₁ hstep hspare
    exact ⟨keepsSuccess_step hsound hsound' hrec' hstep, hrec'.agrees hsound'⟩

/-! ## Two runs -/

/-- Of the threads below the bound none has recorded the success of an attempt that is resolved. -/
def sparesRecorded (bound : Nat) (s : System (platform configuration))
    (l : Label (platform configuration)) : Bool :=
  l.startsBelow bound && match l with
  | .advance i _ => match s.nextOp i with
    | some (.resolveAttempt input) => (List.range bound).all fun j => match phases s j with
      | some (.dispatching p) => decide (p.input.notificationId = input.notificationId →
          p.attempt = some input.attemptNumber → p.recorded ≠ some .SUCCEEDED)
      | _ => true
    | _ => true
  | _ => true

theorem SparesRecorded.of_check {bound : Nat} (hnone : ∀ j, bound ≤ j → s.threads j = none)
    (h : sparesRecorded bound s l = true) : SparesRecorded s l := by
  rintro i input s' hp _ ⟨⟩ j p hphase
  obtain ⟨c, rfl, -⟩ := hp.exec
  have hj : j < bound := by
    by_contra hle
    rw [Dispatching, phases, Discipline.phase, hnone j (Nat.not_lt.1 hle)] at hphase
    cases hphase
  simp only [sparesRecorded, hp.nextOp, Bool.and_eq_true] at h
  have hspare := List.all_eq_true.1 h.2 j (List.mem_range.2 hj)
  rw [show phases s j = some (.dispatching p) from hphase] at hspare
  exact of_decide_eq_true hspare

/-- The attempt of a worker whose claim was reaped is resolved before its answer comes, and another
attempt succeeds: the message of the notification is that attempt's. -/
theorem agreement_iff_resent :
    Always Agreeing (System.start (Sample.world .RETRY)) Sample.resent ∧
      ((Sample.run .RETRY Sample.resent).world.ledger 7).map
        (fun a => (a.outcome, a.providerMessageId)) =
          [(some .UNKNOWN, none), (some .SUCCEEDED, some "M2")] := by
  have hspares : Always SparesRecorded (System.start (Sample.world .RETRY)) Sample.resent :=
    always_of_checksEach (b := sparesRecorded 4) (by decide +kernel) fun s l hr h =>
      SparesRecorded.of_check (hr.threads_eq_none
        (fun _ _ hb => (Bool.and_eq_true_iff.1 hb).1) fun _ _ => rfl) h
  exact ⟨(agreement_iff (Sample.fresh_world .RETRY) Sample.resent).2 hspares, by decide +kernel⟩

/-- A worker waits for WhatsApp's answer while its claim is reaped; its successor finds the attempt
unresolved; the answer comes and the success is recorded; then the successor writes `UNKNOWN`. -/
def overwriting : List Sample.Step :=
  Sample.dispatching 2 ++ Sample.sends 0 0 true ++ Sample.maintains 2 400000 ++
    [.advance 2 .nothing] ++ Sample.claims 1 400000 ++ Sample.reads 1 400000 ++
    Sample.accepted 0 "M1" 400000 ++ [.advance 0 .nothing] ++
    [.advance 1 .nothing, .advance 1 (.date 400000), .advance 1 .nothing]

/-- A notification is `SENT`, and no attempt of it succeeded. -/
theorem success_overwritten :
    ∃ s : System (platform Sample.configuration),
      Run Any (System.start (Sample.world .RETRY)) s ∧ ¬ Agrees s.world := by
  refine ⟨Sample.run .RETRY overwriting, Sample.run_any .RETRY _, fun h => ?_⟩
  have hrow : ((Sample.run .RETRY overwriting).world.row 7).map (·.status) = some .SENT := by
    decide +kernel
  obtain ⟨r, hr, hstatus⟩ := Option.map_eq_some_iff.1 hrow
  have hledger : (((Sample.run .RETRY overwriting).world.ledger 7).filter
      (·.outcome = some .SUCCEEDED)).length = 0 := by decide +kernel
  have hlength := congrArg List.length (h 7 r hr (.inl hstatus)).2
  rw [List.length_map, hledger] at hlength
  exact absurd hlength (by simp)

end Runs

end NotificationPlatform
