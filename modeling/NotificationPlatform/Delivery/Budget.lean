import NotificationPlatform.Delivery.Runs

/-!
# The attempt budget, and the finality of a success

Whatever happens to the workers, a notification is sent at most `maximumAttempts` times: every send
was paid for by a ledger row of its own, committed before it. And once a success is recorded, no
attempt is begun any more.
-/

namespace NotificationPlatform

open Interleaving

section Budget

variable {configuration : Configuration} {P : System (platform configuration) →
  Label (platform configuration) → Prop} {w : World} {s s' : System (platform configuration)}
  {n : Uuid}

/-- The number of the attempt a dispatch began. -/
def attemptOf (s : System (platform configuration)) (i : Nat) : Option Nat :=
  match phases s i with
  | some (.dispatching p) => p.attempt
  | _ => none

theorem attemptOf_dispatching {i : Nat} {p : Progress} (h : Dispatching (phases s) i p) :
    attemptOf s i = p.attempt := by
  unfold attemptOf
  rw [h]

/-- A dispatch keeps its number. -/
theorem attemptOf_run (hw : Fresh w) (hr : Run P (System.start w) s) {i k : Nat}
    (hk : attemptOf s i = some k) (h : Run Any s s') : attemptOf s' i = some k := by
  refine sound_induction (fun s => attemptOf s i = some k) hw hr hk ?_ h
  intro s₁ l s₂ _ _ hsound hk _ hstep
  have hp : ∃ p, Dispatching (phases s₁) i p ∧ p.attempt = some k := by
    unfold attemptOf at hk
    split at hk
    · rename_i p hp
      exact ⟨p, hp, hk⟩
    · cases hk
  obtain ⟨p, hp, hk⟩ := hp
  obtain ⟨p', hp', rfl | ⟨o, r, choice, hm, -⟩⟩ := continues_step hstep hp
  · rw [attemptOf_dispatching hp', hk]
  · rw [attemptOf_dispatching hp']
    exact hm.attempt_persists (hsound.tokens.wellFormed hp) hk

/-- Every send is one of an attempt within the budget, recorded in the ledger. -/
theorem sends_budgeted (hsound : Sound (phases s) s.world) (honce : SendsOnce s)
    {e : Performed operations} (he : e ∈ sends s n) :
    ∃ k row, attemptOf s e.thread = some k ∧ s.world.row n = some row ∧ 1 ≤ k ∧
      k ≤ row.maximumAttempts ∧ k ≤ row.attemptCount := by
  obtain ⟨p, hp, rfl, hsent⟩ := honce.sent he
  obtain ⟨-, hattempt, hbudget⟩ := (hsound.tokens.wellFormed hp).sent hsent
  obtain ⟨k, hk⟩ := Option.isSome_iff_exists.1 hattempt
  obtain ⟨c, hc⟩ := Option.isSome_iff_exists.1 ((hsound.tokens.wellFormed hp).attempt hattempt).2
  obtain ⟨row, hrow, hone, hle⟩ := hsound.ledgers.begun hp hk
  obtain ⟨row', hrow', hkept⟩ := hsound.ledgers.claimed hp hc
  rw [hsound.ledgers.named hp hc] at hrow'
  cases hrow.symm.trans hrow'
  refine ⟨k, row, (attemptOf_dispatching hp).trans hk, hrow, hone, ?_, hle⟩
  rw [hkept.maximumAttempts]
  exact Nat.le_of_not_lt fun hlt => hbudget ⟨c, k, hc, hk, hlt⟩

/-- No two sends share an attempt. -/
theorem sends_attempts_nodup (hsound : Sound (phases s) s.world) (honce : SendsOnce s) :
    ((sends s n).map fun e => attemptOf s e.thread).Nodup := by
  have hthreads := honce.nodup n
  refine List.Nodup.map_on ?_ hthreads.of_map
  intro e he e' he' heq
  refine List.inj_on_of_nodup_map hthreads he he' ?_
  obtain ⟨p, hp, hn, -⟩ := honce.sent he
  obtain ⟨p', hp', hn', -⟩ := honce.sent he'
  obtain ⟨k, -, hk, -⟩ := sends_budgeted hsound honce he
  have hk' : attemptOf s e'.thread = some k := heq.symm.trans hk
  rw [attemptOf_dispatching hp] at hk
  rw [attemptOf_dispatching hp'] at hk'
  exact hsound.ledgers.distinct hp hp' (hn.trans hn'.symm) hk hk'

/-- Distinct numbers between 1 and a bound are no more than the bound. -/
theorem length_le_of_bounded {l : List (Option Nat)} (h : l.Nodup) {m : Nat}
    (hb : ∀ x ∈ l, ∃ k, x = some k ∧ 1 ≤ k ∧ k ≤ m) : l.length ≤ m := by
  have hsub : l ⊆ (List.range' 1 m).map some := by
    intro x hx
    obtain ⟨k, rfl, hone, hle⟩ := hb x hx
    refine List.mem_map_of_mem (List.mem_range'_1.2 ?_)
    omega
  simpa using (List.subperm_of_subset h hsub).length_le

theorem sends_length_le (hsound : Sound (phases s) s.world) (honce : SendsOnce s)
    {row : NotificationRecord} (hrow : s.world.row n = some row) :
    (sends s n).length ≤ row.maximumAttempts := by
  have hbound := length_le_of_bounded (m := row.maximumAttempts)
    (sends_attempts_nodup (n := n) hsound honce) ?_
  · simpa using hbound
  · intro x hx
    obtain ⟨e, he, rfl⟩ := List.mem_map.1 hx
    obtain ⟨k, row', hk, hrow', hone, hle, -⟩ := sends_budgeted hsound honce he
    cases hrow.symm.trans hrow'
    exact ⟨k, hk, hone, hle⟩

/-- The ledger has the entry of an attempt that was begun. -/
theorem ledger_of_attempt (hsound : Sound (phases s) s.world) {i k : Nat} {p : Progress}
    (hp : Dispatching (phases s) i p) (hk : p.attempt = some k) :
    ∃ a ∈ s.world.ledger p.input.notificationId, a.attemptNumber = k := by
  obtain ⟨row, hrow, hone, hle⟩ := hsound.ledgers.begun hp hk
  have hmem : k ∈ (s.world.ledger p.input.notificationId).map (·.attemptNumber) := by
    rw [hsound.ledgers.numbered hrow, List.mem_range'_1]
    omega
  exact List.mem_map.1 hmem

/-- **Attempt budget.** The ledger is numbered by the counter without gap or repeat, every send is
preceded by its own committed entry, and there are at most `maximumAttempts` sends. -/
theorem attempt_budget (hw : Fresh w) (hr : Run Any (System.start w) s) :
    (∀ row, s.world.row n = some row →
      (s.world.ledger n).map (·.attemptNumber) = List.range' 1 row.attemptCount ∧
      (sends s n).length ≤ row.maximumAttempts) ∧
    (s.world.row n = none → s.world.ledger n = [] ∧ sends s n = []) ∧
    (∀ l i, SendStep s l n i → ∃ a ∈ s.world.ledger n, attemptOf s i = some a.attemptNumber ∧
      ∀ s', Run Any s s' → attemptOf s' i = some a.attemptNumber) ∧
    ((sends s n).map fun e => attemptOf s e.thread).Nodup := by
  have hsound := sound_run hw hr
  have honce := sendsOnce_run hw hr
  refine ⟨fun row hrow => ⟨hsound.ledgers.numbered hrow, sends_length_le hsound honce hrow⟩,
    fun hnone => ⟨hsound.ledgers.absent hnone, ?_⟩, fun l i hsend => ?_,
    sends_attempts_nodup hsound honce⟩
  · rw [List.eq_nil_iff_forall_not_mem]
    intro e he
    obtain ⟨-, row, -, hrow, -⟩ := sends_budgeted hsound honce he
    exact absurd (hnone.symm.trans hrow) nofun
  · obtain ⟨p, hp, rfl, -, hattempt, -⟩ := hsend.dispatching (disciplined_run hr)
    obtain ⟨k, hk⟩ := Option.isSome_iff_exists.1 hattempt
    obtain ⟨a, ha, hnumber⟩ := ledger_of_attempt hsound hp hk
    have hnow : attemptOf s i = some a.attemptNumber := by
      rw [attemptOf_dispatching hp, hk, hnumber]
    exact ⟨a, ha, hnow, fun s' h => attemptOf_run hw hr hnow h⟩

/-- The claim of a dispatch that lives is reaped, and the message is sent twice: each of the two
attempts has an entry of its own. -/
theorem attempt_budget_resent :
    (sends (Sample.run .RETRY Sample.resent) 7).map (·.thread) = [3, 0] ∧
      (∃ row, (Sample.run .RETRY Sample.resent).world.row 7 = some row ∧
        ((Sample.run .RETRY Sample.resent).world.ledger 7).map (·.attemptNumber) =
          List.range' 1 row.attemptCount ∧
        (sends (Sample.run .RETRY Sample.resent) 7).length ≤ row.maximumAttempts) ∧
      ((sends (Sample.run .RETRY Sample.resent) 7).map fun e =>
        attemptOf (Sample.run .RETRY Sample.resent) e.thread).Nodup := by
  obtain ⟨hrows, -, -, hnodup⟩ :=
    attempt_budget (n := 7) (Sample.fresh_world .RETRY) (Sample.run_any .RETRY Sample.resent)
  have hsome : ((Sample.run .RETRY Sample.resent).world.row 7).isSome = true := by decide +kernel
  obtain ⟨row, hrow⟩ := Option.isSome_iff_exists.1 hsome
  exact ⟨by decide +kernel, ⟨row, hrow, hrows row hrow⟩, hnodup⟩

/-! ## A recorded success is final -/

/-- A notification that names a message, with its counter. -/
def NamesMessage (n : Uuid) (count : Nat) (message : Option String) (w : World) : Prop :=
  ∃ r, w.row n = some r ∧ r.attemptCount = count ∧ r.providerMessageId = message ∧
    r.status.mayNameMessage = true

/-- No operation moves the counter or the message of a notification that names one. -/
theorem NamesMessage.exec {count : Nat} {message : Option String} {w w' : World} {o : Op}
    {r : o.Ret} {choice : Choice} {q : DeliveryPhase} (h : NamesMessage n count message w)
    (ho : q.Allows o) (he : exec w o choice = some (r, w')) : NamesMessage n count message w' := by
  obtain ⟨old, hold, hcount, hmessage, hstatus⟩ := h
  obtain ⟨new, hnew, -⟩ := (exec_effect he n).kept_row hold
  obtain ⟨hstatus', hmessage'⟩ := ((exec_effect he n).row_step ho hold hnew).accepted hstatus
  refine ⟨new, hnew, ?_, hmessage'.trans hmessage, hstatus'⟩
  cases (exec_effect he n).ledger_step hold hnew with
  | same f counter => exact counter.trans hcount
  | begun input id status =>
    rw [status] at hstatus
    exact absurd hstatus nofun

theorem NamesMessage.run {count : Nat} {message : Option String}
    (h : NamesMessage n count message s.world) (hw : Fresh w) (hr : Run P (System.start w) s)
    (h' : Run Any s s') : NamesMessage n count message s'.world := by
  refine sound_induction (fun s => NamesMessage n count message s.world) hw hr h ?_ h'
  intro s₁ l s₂ _ _ _ hn _ hstep
  cases hstep with
  | spawned _ _ _ world | crashed _ _ world => rwa [world]
  | advanced _ _ _ step => exact hn.exec step.allowed step.exec
  | outside _ _ world =>
    obtain ⟨r, hr, hrest⟩ := hn
    exact ⟨r, row_kept_outside world hr, hrest⟩

/-- **A recorded success is final.** After the transaction that records it, no attempt is begun for
the notification, its counter and message stand, and it stays `SENT`, `DELIVERED` or `FAILED`. -/
theorem recorded_success_final (hw : Fresh w) (hr : Run Any (System.start w) s)
    {l : Label (platform configuration)} {i : Nat} {input : RecordSentInput}
    {s₁ s₂ : System (platform configuration)}
    (hs : s.Performs l ⟨i, .recordSent input, true⟩ s₁) (h : Run Any s₁ s₂) :
    ∃ r₁ r₂, s₁.world.row input.notification.id = some r₁ ∧ r₁.status = .SENT ∧
      s₂.world.row input.notification.id = some r₂ ∧
      (s₂.world.ledger input.notification.id).map (·.attemptNumber) =
        (s₁.world.ledger input.notification.id).map (·.attemptNumber) ∧
      r₂.attemptCount = r₁.attemptCount ∧ r₂.providerMessageId = r₁.providerMessageId ∧
      (r₂.status = .SENT ∨ r₂.status = .DELIVERED ∨ r₂.status = .FAILED) := by
  obtain ⟨choice, q, rfl, step, -⟩ := (disciplined_run hr).performs hs
  have hr₁ : Run Any (System.start w) s₁ := hr.tail trivial hs.1
  obtain ⟨r₁, hrow₁, hsent⟩ : ∃ r₁, s₁.world.row input.notification.id = some r₁ ∧
      r₁.status = .SENT := by
    have he : exec s.world (.recordSent input) choice = some (true, s₁.world) := step.exec
    cases exec_effect he input.notification.id with
    | kept row ledger idle => exact absurd rfl idle
    | sent names moved => exact ⟨_, moved.after, rfl⟩
  have hnames : NamesMessage input.notification.id r₁.attemptCount r₁.providerMessageId s₁.world :=
    ⟨r₁, hrow₁, rfl, rfl, by rw [hsent]; rfl⟩
  obtain ⟨r₂, hrow₂, hcount, hmessage, hstatus⟩ := hnames.run hw hr₁ h
  have hr₂ : Run Any (System.start w) s₂ := hr₁.trans h
  refine ⟨r₁, r₂, hrow₁, hsent, hrow₂, ?_, hcount, hmessage, ?_⟩
  · rw [(sound_run hw hr₂).ledgers.numbered hrow₂, (sound_run hw hr₁).ledgers.numbered hrow₁,
      hcount]
  · cases hs : r₂.status <;> rw [hs] at hstatus <;> simp [NotificationStatus.mayNameMessage] at hstatus ⊢

/-- A second dispatch comes after the success of the first. -/
theorem recorded_success_final_twice :
    let before := Sample.run .RETRY
      (Sample.dispatching 2 ++ Sample.sends 0 0 true ++ Sample.accepted 0 "M1" 0)
    let committed := before.after [.advance 0 .nothing]
    ∃ r₁ r₂, committed.world.row 7 = some r₁ ∧ r₁.status = .SENT ∧
      (committed.after (Sample.claims 1 0)).world.row 7 = some r₂ ∧
      r₂.attemptCount = r₁.attemptCount ∧ r₂.providerMessageId = r₁.providerMessageId := by
  intro before committed
  have hs : before.Performs (.advance 0 .nothing) ⟨0, .recordSent (Sample.success 1 "M1"), true⟩
      committed := ⟨rfl, rfl⟩
  obtain ⟨r₁, r₂, hr₁, hsent, hr₂, -, hcount, hmessage, -⟩ :=
    recorded_success_final (Sample.fresh_world .RETRY) (Sample.run_any .RETRY _) hs
      (Run.any_after (Sample.claims 1 0))
  exact ⟨r₁, r₂, hr₁, hsent, hr₂, hcount, hmessage⟩

end Budget

end NotificationPlatform
