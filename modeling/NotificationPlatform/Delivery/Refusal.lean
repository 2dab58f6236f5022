import NotificationPlatform.Delivery.Closing

/-!
# Permanent refusals

A send that WhatsApp refused for good is never repeated, unless the process stops between the two
commits of `handleSendFailure`: the ledger says that the attempt failed, and the row that would stop
the next dispatch is written only after that. `RefusalGuard` says what must not happen in between.
-/

namespace NotificationPlatform

open Interleaving

/-- WhatsApp refused its message for good. -/
def Progress.WasRefused (p : Progress) : Prop :=
  ∃ failure, p.answer = some (.failed failure) ∧ isRetryable failure = false ∧
    isSessionLostByProvider failure = false

theorem Progress.Refused.mustFail {p : Progress} (h : p.Refused) : p.MustFail := .inr h

/-- Every refusal the ledger was told of left the notification shut. -/
def RefusedShut (ph : Phases) (w : World) (n : Uuid) : Prop :=
  ∀ i p, Dispatching ph i p → p.input.notificationId = n → p.Refused →
    Shut Progress.Refused ph w n

section Advance

variable {ph : Phases} {w w' : World} {i : Nat} {n : Uuid} {q : DeliveryPhase} {o : Op}
  {r : o.Ret} {choice : Choice} {p p' : Progress}

/-- A refusal gets into the ledger when its dispatch resolves its attempt. -/
theorem Move.becomes_refused (hm : Move p o r p') (hp : p.WellFormed) (h : p'.Refused) :
    p.Refused ∨ (p.WasRefused ∧ p'.stage = .settled ∧ ∃ input, o = .resolveAttempt input) := by
  obtain ⟨hrec, hwas⟩ := h
  cases hm with
  | answered stage =>
    have hrank := (hp.recorded (by rw [hrec]; rfl)).1
    rw [stage] at hrank
    exact absurd hrank (by decide)
  | recorded => exact absurd hrec nofun
  | settled => exact .inr ⟨hwas, rfl, _, rfl⟩
  | _ => exact .inl ⟨hrec, hwas⟩

theorem RefusedShut.advance (h : RefusedShut ph w n) (hs : Sound ph w) (hi : ph i = some q)
    (ho : q.Allows o) (he : exec w o choice = some (r, w'))
    (hrefused : ∀ p, Dispatching ph i p → p.input.notificationId = n → p.WasRefused →
      ∀ input, o = .resolveAttempt input → Holds ph w i n ∨ Closed w n)
    (hq : (∃ i, Bound Progress.Refused ph w i n) → ¬ Requeues n o r) :
    RefusedShut (Function.update ph i (some (q.advance o r))) w' n := by
  intro j p' hd hn hp'
  have hkeep : Shut Progress.Refused ph w n → Shut Progress.Refused _ w' n := fun hshut =>
    hshut.advance (fun _ => Progress.Refused.mustFail) hs hi ho he hq
  rcases dispatching_advance hi ho hd with ⟨-, hold⟩ | ⟨rfl, p, hold, hm⟩
  · exact hkeep (h j p' hold hn hp')
  · have hpn : p.input.notificationId = n := hm.input ▸ hn
    rcases hm.becomes_refused (hs.tokens.wellFormed hold) hp' with hp | ⟨hwas, stage, input, rfl⟩
    · exact hkeep (h j p hold hpn hp)
    · exact shut_of_settles hs hi ho he id hd hn stage hp' (hrefused p hold hpn hwas input rfl).symm

end Advance

section Runs

variable {configuration : Configuration} {P : System (platform configuration) →
  Label (platform configuration) → Prop} {w : World} {s s' : System (platform configuration)}
  {l : Label (platform configuration)} {n : Uuid} {i : Nat}

/-- What keeps a refusal of notification `n` final. -/
structure RefusalGuard (n : Uuid) (s : System (platform configuration))
    (l : Label (platform configuration)) : Prop where
  /-- Who writes a refusal to the ledger holds the claim, or the notification is closed. -/
  settles : ∀ i input s' p, s.Performs l ⟨i, .resolveAttempt input, ()⟩ s' →
    Dispatching (phases s) i p → p.input.notificationId = n → p.WasRefused →
      Holds (phases s) s.world i n ∨ Closed s.world n
  /-- The claim is not taken from a dispatch between the two commits. -/
  undisturbed : Undisturbed Progress.Refused n s l
  /-- A dispatch that lost its claim does not send once another one has shut the notification. -/
  stale : ∀ i, SendStep s l n i → ¬ Holds (phases s) s.world i n →
    ¬ Shut Progress.Refused (phases s) s.world n

/-- The send of dispatch `i` for notification `n` was refused for good, and the ledger was told. -/
def RefusalRecorded (s : System (platform configuration)) (n : Uuid) (i : Nat) : Prop :=
  ∃ p failure, Dispatching (phases s) i p ∧ p.input.notificationId = n ∧
    p.answer = some (.failed failure) ∧ failure.classification = .PERMANENT ∧
    isSessionLostByProvider failure = false ∧ p.recorded.isSome = true

theorem RefusedShut.step (h : RefusedShut (phases s) s.world n)
    (hsound : Sound (phases s) s.world) (hs : s.step l = some s') (hstep : Stepped s s' l)
    (hguard : RefusalGuard n s l) : RefusedShut (phases s') s'.world n := by
  have hshut : Shut Progress.Refused (phases s) s.world n →
      Shut Progress.Refused (phases s') s'.world n := fun hshut =>
    hshut.step (fun _ => Progress.Refused.mustFail) hsound hs hstep hguard.undisturbed
  cases hstep with
  | spawned fresh phases' =>
    intro i p hd hn hp
    unfold phases at hd
    rw [phases'] at hd
    rcases dispatching_spawn hd with ⟨-, hold⟩ | ⟨-, input, rfl⟩
    · exact hshut (h i p hold hn hp)
    · exact absurd hp.1 nofun
  | crashed phases' | outside phases' =>
    intro i p hd hn hp
    unfold phases at hd
    rw [phases'] at hd
    exact hshut (h i p hd hn hp)
  | @advanced j choice o r q phases' crashed live step =>
    unfold phases
    rw [phases']
    refine h.advance hsound step.before step.allowed step.exec ?_ ?_
    · rintro p hd hn hwas input rfl
      exact hguard.settles j input s' p ⟨hs, step.trace⟩ hd hn hwas
    · exact fun hbound hrequeues => hguard.undisturbed hbound ⟨j, o, r, s', ⟨hs, step.trace⟩,
        hrequeues⟩

theorem refusedShut_run (hw : Fresh w) (h : Run (RefusalGuard n) (System.start w) s) :
    RefusedShut (phases s) s.world n := by
  induction h with
  | refl =>
    intro i p hd
    cases hd
  | tail hr hp hs ih =>
    exact ih.step (sound_run hw hr) hs ((disciplined_run hr).stepped hs) hp

/-- What is recorded of a permanent refusal is a refusal. -/
theorem RefusalRecorded.refused (hw : Fresh w) (hr : Run P (System.start w) s)
    (h : RefusalRecorded s n i) :
    ∃ p, Dispatching (phases s) i p ∧ p.input.notificationId = n ∧ p.Refused := by
  obtain ⟨p, failure, hd, hn, ha, hclass, hlost, hrec⟩ := h
  have htold := told_run hw hr hd
  have hretry : isRetryable failure = false := by simp [isRetryable, hclass]
  have hknown : hasUnknownOutcome failure = false := by
    rw [← Bool.not_eq_true]
    intro hunknown
    have hcode := htold.classified failure ha
    rw [hclass] at hcode
    revert hunknown hcode
    unfold hasUnknownOutcome
    cases failure.code <;> simp [classifyFailureCode, unknownOutcomeCodes]
  refine ⟨p, hd, hn, ?_, failure, ha, hretry, hlost⟩
  obtain ⟨outcome, hout⟩ := Option.isSome_iff_exists.1 hrec
  cases outcome with
  | FAILED => exact hout
  | UNKNOWN =>
    obtain ⟨failure', ha', hunknown⟩ := htold.unknown hout
    cases ha.symm.trans ha'
    cases hknown.symm.trans hunknown
  | SUCCEEDED =>
    obtain ⟨sent, ha'⟩ := htold.succeeded hout
    cases ha.symm.trans ha'

theorem RefusalGuard.of_unreaped (hw : Fresh w) (hr : Run ReapsNothing (System.start w) s)
    (h : Run ReapsNothing s s') : Run (RefusalGuard n) s s' := by
  induction h with
  | refl => exact .refl
  | @tail s₁ s₂ l h₁ hp hs ih =>
    have hr₁ := hr.trans h₁
    have howned := owned_run_unreaped hw hr₁
    refine ih.tail ⟨?_, ?_, ?_⟩ hs
    · rintro i input s' p hperforms hd rfl -
      left
      obtain ⟨choice, q, -, step, -⟩ := (disciplined_run hr₁).performs hperforms
      cases step.before.symm.trans hd
      refine howned i p hd trivial ?_
      rcases step.allowed.2 with ⟨stage, -⟩ | ⟨stage, -⟩ <;> rw [stage] <;> rfl
    · exact undisturbed_of_unreaped (fun _ => Progress.Refused.mustFail) (disciplined_run hr₁)
        (sound_run hw hr₁) howned hp
    · intro i hsend hheld
      obtain ⟨p, hd, rfl, stage, -⟩ := hsend.dispatching (disciplined_run hr₁)
      exact absurd (howned i p hd trivial (by rw [stage]; rfl)) hheld

/-- **A permanent refusal is final**, if the claim stays where it is until the row says so. -/
theorem refusal_final (hw : Fresh w) (hr : Run (RefusalGuard n) (System.start w) s)
    (hrefused : RefusalRecorded s n i) (h : Run (RefusalGuard n) s s') :
    sends s' n = sends s n := by
  obtain ⟨p, hd, hn, hp⟩ := hrefused.refused hw hr
  have hshut := refusedShut_run hw hr i p hd hn hp
  refine (sound_induction (Q := RefusalGuard n)
    (fun s₁ => Shut Progress.Refused (phases s₁) s₁.world n ∧ sends s₁ n = sends s n)
    hw hr ⟨hshut, rfl⟩ ?_ h).2
  rintro s₁ l s₂ hr₁ hs hsound ⟨hshut₁, hsends⟩ hguard hstep
  refine ⟨hshut₁.step (fun _ => Progress.Refused.mustFail) hsound hs hstep hguard.undisturbed, ?_⟩
  rcases sends_step (n := n) (disciplined_run hr₁) hs with hsame | ⟨j, hsend⟩
  · exact hsame.trans hsends
  · by_cases hheld : Holds (phases s₁) s₁.world j n
    · obtain ⟨p', hd', -, stage, -⟩ := hsend.dispatching (disciplined_run hr₁)
      exact absurd (stage.symm.trans (hshut₁.bound hsound hheld hd')) nofun
    · exact absurd hshut₁ (hguard.stale j hsend hheld)

/-- What WhatsApp answers to a request it does not accept. -/
def invalidRequest : ProviderFailure :=
  createProviderFailure .provider_invalid_request "WhatsApp rejected the message."

/-- A dispatch sends, is refused, and says so in the ledger. -/
def refused : List Sample.Step :=
  Sample.dispatching 2 ++ Sample.sends 0 0 true ++
    [.advance 0 (.sent (.failed invalidRequest)), .advance 0 (.date 0), .advance 0 .nothing]

theorem refused_recorded : RefusalRecorded (Sample.run .RETRY refused) 7 0 :=
  ⟨_, invalidRequest, rfl, rfl, rfl, rfl, rfl, rfl⟩

/-- It fails the notification, and another dispatch finds nothing to claim. -/
theorem refusal_final_failed :
    sends ((Sample.run .RETRY refused).after ([.advance 0 (.date 0), .advance 0 .nothing] ++
      Sample.claims 1 0)) 7 = sends (Sample.run .RETRY refused) 7 := by
  have hbefore : Run ReapsNothing (System.start (Sample.world .RETRY))
      (Sample.run .RETRY refused) :=
    unreaped_of_trace (Sample.run_any _ _) (by decide +kernel)
  have hafter : Run ReapsNothing (Sample.run .RETRY refused)
      ((Sample.run .RETRY refused).after ([.advance 0 (.date 0), .advance 0 .nothing] ++
        Sample.claims 1 0)) :=
    unreaped_of_trace (Run.any_after _) (by decide +kernel)
  exact refusal_final (Sample.fresh_world .RETRY)
    (RefusalGuard.of_unreaped (Sample.fresh_world .RETRY) .refl hbefore) refused_recorded
    (RefusalGuard.of_unreaped (Sample.fresh_world .RETRY) hbefore hafter)

/-- The worker stops between the two commits; its claim is reaped, and the next dispatch sends. -/
theorem refused_sent_again : ∃ s s' : System (platform Sample.configuration),
    Run Any (System.start (Sample.world .RETRY)) s ∧ RefusalRecorded s 7 0 ∧ Run Any s s' ∧
      sends s' 7 ≠ sends s 7 := by
  refine ⟨_, (Sample.run .RETRY refused).after ([.crash 0] ++ Sample.maintains 2 400000 ++
    [.advance 2 .nothing] ++ Sample.sends 1 400000 false), Sample.run_any .RETRY _,
    refused_recorded, Run.any_after _, fun h => ?_⟩
  have hlength := congrArg List.length h
  revert hlength
  decide +kernel

end Runs

end NotificationPlatform
