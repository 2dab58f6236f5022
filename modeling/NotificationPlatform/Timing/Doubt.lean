import NotificationPlatform.Timing.Pacing

/-!
# Doubts about the limits of a connection

A receipt that reports a failure makes a connection's limits doubtful: `doubtReportedLimits` clears
the time of the last report, and whoever prepares the next send is to ask WhatsApp for a new one.
The doubt is nothing but that cleared time. A report that is written over it, or a dispatch that
read the connection before, ends it without anybody asking.
-/

namespace NotificationPlatform

open Interleaving

/-! ## Phases -/

/-- How far a dispatch is with the limits of its connection. -/
inductive Question where
  | pending
  /-- It was granted the refresh of limits nobody knows, and asks WhatsApp next. -/
  | asking
  /-- It asked, or left the question to the provider's memory or to somebody else. -/
  | settled

/-- WhatsApp answered. -/
def Question.answered : Question → Question
  | .asking => .settled
  | question => question

structure Inquiry where
  claimed : Option NotificationRecord := none
  /-- The connection, as it was last read. -/
  session : Option WhatsAppSessionRecord := none
  question : Question := .pending

namespace Inquiry

/-- It read the connection its notification is bound to. -/
def Reads (q : Inquiry) (c : NotificationRecord) (r : WhatsAppSessionRecord) : Prop :=
  q.claimed = some c ∧ q.session = some r ∧ r.id = c.whatsAppSessionId

/-- Only a dispatch that is settled sends, and one that is asking does nothing else first. -/
def Allows (q : Inquiry) : Op → Prop
  | .claimForDispatch _ _ _ _ => q.claimed = none ∧ q.question = .pending
  | .findSessionById _ s => q.question ≠ .asking ∧ ∀ c, q.claimed = some c →
      s = c.whatsAppSessionId
  | .claimAccountLimitsRefresh s _ _ => q.question = .pending ∧ ∃ c r, q.Reads c r ∧ s = r.id
  | .fetchAccountLimits name => q.question = .asking → ∃ c r, q.Reads c r ∧
      name = r.providerSessionName
  | .sendTextMessage _ _ _ => q.question = .settled
  | _ => q.question ≠ .asking

/-- Whether it read that nothing is known of the limits. -/
def knowsNothing (q : Inquiry) : Bool := q.session.any (·.accountLimitsCheckedAt.isNone)

def advance (q : Inquiry) : (o : Op) → o.Ret → Inquiry
  | .claimForDispatch _ _ _ _, some c => { q with claimed := some c }
  | .findSessionById _ _, some r => { q with session := some r }
  | .claimAccountLimitsRefresh _ _ _, granted =>
    { q with question := if granted && q.knowsNothing then .asking else .settled }
  | .fetchAccountLimits _, _ => { q with question := q.question.answered }
  | _, _ => q

theorem unasked : ({} : Inquiry).question ≠ .asking := fun h => by cases h

end Inquiry

@[reducible] def inquiryTypestate : Typestate operations where
  Phase := Inquiry
  Allows := Inquiry.Allows
  advance := Inquiry.advance

/-! ## Conformance of a dispatch -/

def Inquires {α : Type} (q : Inquiry) (x : Program α) (Q : Inquiry → α → Prop) : Prop :=
  Conforms inquiryTypestate Names q x Q

/-- A dispatch that has not tried to claim a refresh, with its notification and its connection. -/
structure Considers (q : Inquiry) (c : NotificationRecord) (r : WhatsAppSessionRecord) : Prop where
  reads : q.Reads c r
  application : r.applicationId = c.applicationId
  pending : q.question = .pending

/-- A dispatch that is done with the question. -/
structure Concluded (q : Inquiry) (c : NotificationRecord) : Prop where
  claimed : q.claimed = some c
  settled : q.question = .settled

section Conformance

open DispatchNotificationService ConnectionStateService

variable {α : Type} {configuration : Configuration} {q : Inquiry} {c : NotificationRecord}
  {r : WhatsAppSessionRecord} {input : DispatchInput} {x : Program α}

theorem Inquires.mono {Q R : Inquiry → α → Prop} (h : Inquires q x Q)
    (hQR : ∀ q a, Q q a → R q a) : Inquires q x R := Conforms.mono h hQR

/-- A dispatch can be left whenever it is not about to ask. -/
theorem Inquires.leaving (hx : Leaving x) (hq : q.question ≠ .asking) :
    Inquires q x fun q' _ => q' = q := by
  refine Conforms.of_uses (T := inquiryTypestate) (N := Op.Leaves) ?_ hx
  intro o ho
  cases o <;> first | exact ⟨hq, fun _ => rfl⟩ | exact ho.elim

theorem Considers.mild (h : Considers q c r) (hx : Mild x) :
    Inquires q x fun q' _ => Considers q' c r := by
  refine Conforms.keeps (T := inquiryTypestate) (N := fun o : Op => o.isMild = true)
    (K := fun q' => Considers q' c r) ?_ h hx
  intro q o h ho
  have hq : q.question ≠ .asking := by rw [h.pending]; exact nofun
  cases o <;> simp only [Op.isMild, Bool.false_eq_true] at ho
  case fetchAccountLimits name =>
    refine ⟨fun hasking => absurd hasking hq, fun _ _ => ⟨h.reads, h.application, ?_⟩⟩
    simp only [Inquiry.advance, h.pending]
    rfl
  all_goals exact ⟨hq, fun _ _ => h⟩

theorem Considers.reread (h : Considers q c r) :
    Inquires q (reread r) fun q' r' => Considers q' c r' := by
  refine Conforms.call ⟨by rw [h.pending]; exact nofun, fun c' hc' => ?_⟩ fun found hfound => ?_
  · cases h.reads.1.symm.trans hc'
    exact h.reads.2.2
  · cases found with
    | none => exact h
    | some r' =>
      exact ⟨⟨h.reads.1, rfl, hfound.1.trans h.reads.2.2⟩, hfound.2.trans h.application, h.pending⟩

theorem Considers.settleExpiredPause (h : Considers q c r) :
    Inquires q (settleExpiredPause configuration r) fun q' r' => Considers q' c r' := by
  unfold ConnectionStateService.settleExpiredPause
  split
  · exact h
  · have hq : q.question ≠ .asking := by rw [h.pending]; exact nofun
    refine Conforms.call hq fun now _ => ?_
    change Inquires q _ _
    split
    · exact h
    · refine Conforms.bind (h.mild mild_fetchLimits) fun q limits h => ?_
      split
      · exact Conforms.bind (h.mild (mild_record _ _)) fun _ _ h => h.reread
      · have hq : q.question ≠ .asking := by rw [h.pending]; exact nofun
        refine Conforms.call hq fun _ _ => ?_
        exact Conforms.bind (h.mild (mild_recordEndedPause _)) fun _ _ h => h.reread

theorem Concluded.finishing (h : Concluded q c) (hx : Finishing c x) :
    Inquires q x fun q' _ => Concluded q' c := by
  refine Conforms.keeps (T := inquiryTypestate) (N := Op.Finishes c)
    (K := fun q' => Concluded q' c) ?_ h hx
  intro q o h ho
  have hq : q.question ≠ .asking := by rw [h.settled]; exact nofun
  cases o <;> simp only [Op.Finishes] at ho
  case findSessionById a s =>
    refine ⟨⟨hq, fun c' hc' => ?_⟩, fun r _ => ?_⟩
    · cases h.claimed.symm.trans hc'
      exact ho
    · cases r <;> exact ⟨h.claimed, h.settled⟩
  case fetchAccountLimits name =>
    refine ⟨fun hasking => absurd hasking hq, fun _ _ => ⟨h.claimed, ?_⟩⟩
    simp only [Inquiry.advance, h.settled]
    rfl
  case sendTextMessage => exact ⟨h.settled, fun _ _ => h⟩
  all_goals exact ⟨hq, fun _ _ => h⟩

theorem Concluded.reread (h : Concluded q c) (hid : r.id = c.whatsAppSessionId)
    (ha : r.applicationId = c.applicationId) :
    Inquires q (reread r) fun q' r' => Concluded q' c ∧ r'.id = c.whatsAppSessionId ∧
      r'.applicationId = c.applicationId := by
  refine Conforms.call ⟨by rw [h.settled]; exact nofun, fun c' hc' => ?_⟩ fun found hfound => ?_
  · cases h.claimed.symm.trans hc'
    exact hid
  · cases found with
    | none => exact ⟨h, hid, ha⟩
    | some r' => exact ⟨⟨h.claimed, h.settled⟩, hfound.1.trans hid, hfound.2.trans ha⟩

/-- Writing down the limits that were found, and reading the connection again. -/
theorem Concluded.refreshed (h : Concluded q c) (hid : r.id = c.whatsAppSessionId)
    (ha : r.applicationId = c.applicationId) (limits : Option AccountLimits) :
    Inquires q (match limits with
      | none => ConnectionStateService.reread r
      | some limits => do
        ConnectionLimitsService.record configuration r (some limits) false
        ConnectionStateService.reread r) fun q' r' => Concluded q' c ∧
          r'.id = c.whatsAppSessionId ∧ r'.applicationId = c.applicationId := by
  cases limits with
  | none => exact h.reread hid ha
  | some limits =>
    exact Conforms.bind (h.finishing (mild_record _ _).ending.finishing) fun _ _ h =>
      h.reread hid ha

/-- Who was granted the refresh of limits nobody knows asks WhatsApp, and is done. -/
theorem Inquires.fetchLimits (hr : q.Reads c r) (hq : q.question = .asking) :
    Inquires q (fetchLimits r) fun q' _ => Concluded q' c := by
  refine Conforms.call (fun _ => ⟨c, r, hr, rfl⟩) fun fresh _ => ?_
  have hanswered : Concluded { q with question := q.question.answered } c :=
    ⟨hr.1, by rw [hq]; rfl⟩
  cases fresh with
  | succeeded limits => exact hanswered
  | failed failure => exact hanswered.finishing mild_readReportedLimits.ending.finishing

theorem Considers.prepareToSend (h : Considers q c r) :
    Inquires q (prepareToSend configuration r) fun q' r' => Concluded q' c ∧
      r'.id = c.whatsAppSessionId ∧ r'.applicationId = c.applicationId := by
  refine Conforms.bind h.settleExpiredPause fun q settled h => ?_
  have hq : q.question ≠ .asking := by rw [h.pending]; exact nofun
  refine Conforms.call hq fun now _ => Conforms.call ⟨h.pending, c, settled, h.reads, rfl⟩
    fun granted _ => ?_
  have hnext : Concluded { q with question := .settled } c := ⟨h.reads.1, rfl⟩
  cases granted with
  | false => exact ⟨hnext, h.reads.2.2, h.application⟩
  | true =>
    unfold refreshedLimits
    have hknows : q.knowsNothing = settled.accountLimitsCheckedAt.isNone := by
      rw [Inquiry.knowsNothing, h.reads.2.1]
      rfl
    change Inquires { q with question := if q.knowsNothing then .asking else .settled } _ _
    rw [hknows]
    split
    · exact Conforms.bind (Inquires.fetchLimits h.reads rfl) fun q' limits h' =>
        h'.refreshed h.reads.2.2 h.application limits
    · exact Conforms.bind (hnext.finishing mild_readReportedLimits.ending.finishing)
        fun q' limits h' =>
          h'.refreshed h.reads.2.2 h.application limits

theorem inquires_deliverThrough {t : Uuid} (h : Considers q c r) :
    Inquires q (deliverThrough configuration c r t input) fun _ _ => True := by
  unfold DispatchNotificationService.deliverThrough
  split
  · refine Conforms.bind h.prepareToSend fun q ready hq => ?_
    exact (hq.1.finishing (finishing_prepared hq.2.1 hq.2.2)).mono fun _ _ _ => trivial
  · refine (Inquires.leaving (leaving_waitForConnection _ _ _ _) ?_).mono fun _ _ _ => trivial
    rw [h.pending]
    exact nofun

theorem inquires_dispatchClaimed {t : Uuid} (hc : q.claimed = some c) (hq : q.question = .pending) :
    Inquires q (dispatchClaimed configuration c t input) fun _ _ => True := by
  have hasking : q.question ≠ .asking := by rw [hq]; exact nofun
  have hleave : ∀ {x : Program DispatchResult}, Leaving x → Inquires q x fun _ _ => True :=
    fun hx => (Inquires.leaving hx hasking).mono fun _ _ _ => trivial
  refine Conforms.call hasking fun now _ => ?_
  change Inquires q (ite _ _ _) _
  split
  · exact hleave (leaving_fail _ _ rfl _)
  · refine Conforms.call hasking fun unresolved _ => ?_
    cases unresolved with
    | some attempt =>
      exact Conforms.call hasking fun _ _ => hleave (leaving_resolveUnknownOutcome _ _ _ _ _)
    | none =>
      refine Conforms.call ⟨hasking, fun c' hc' => ?_⟩ fun session hsession => ?_
      · cases hc.symm.trans hc'
        rfl
      · cases session with
        | none => exact hleave (leaving_fail _ _ rfl _)
        | some r => exact inquires_deliverThrough ⟨⟨hc, rfl, hsession.1⟩, hsession.2, hq⟩

/-- What `claim` leaves: a claimed row, or nothing. -/
theorem inquires_claim (t : Uuid) : Inquires {} (claim input t) fun q claim =>
    q.question = .pending ∧ ∀ c, claim = .claimed c → q.claimed = some c := by
  have hnone : ∀ claim, (∀ c, claim ≠ ClaimResult.claimed c) →
      Inquires {} (Pure.pure claim) fun q claim =>
        q.question = .pending ∧ ∀ c, claim = .claimed c → q.claimed = some c :=
    fun claim h => ⟨rfl, fun c hc => absurd hc (h c)⟩
  have hrefused : ∀ c, ClaimResult.not_claimable ≠ .claimed c := fun c h => by cases h
  have hdue : ∀ dueAt reason c, ClaimResult.not_due dueAt reason ≠ .claimed c :=
    fun _ _ c h => by cases h
  refine Conforms.call Inquiry.unasked fun now _ => Conforms.call Inquiry.unasked fun promoted _ => ?_
  have hpromotion : Inquires {} (recordPromotion input promoted) fun q _ => q = {} := by
    cases promoted with
    | none => exact rfl
    | some row =>
      exact Conforms.call (k := fun _ => Pure.pure ()) Inquiry.unasked fun _ _ => rfl
  refine Conforms.bind hpromotion ?_
  rintro q _ rfl
  refine Conforms.call ⟨rfl, rfl⟩ fun claimed _ => ?_
  cases claimed with
  | some c =>
    refine ⟨rfl, fun c' hc' => ?_⟩
    cases hc'
    rfl
  | none =>
    refine Conforms.call Inquiry.unasked fun existing _ => ?_
    cases existing with
    | none => exact hnone _ hrefused
    | some existing =>
      simp only
      split
      · split
        · exact hnone _ (hdue _ _)
        · exact hnone _ hrefused
      · split
        · exact hnone _ (hdue _ _)
        · exact hnone _ hrefused
      · exact hnone _ hrefused

theorem inquires_dispatch : Inquires {} (dispatch configuration input) fun _ _ => True := by
  refine Conforms.call Inquiry.unasked fun t _ =>
    Conforms.bind (inquires_claim t) fun q claim hq => ?_
  cases claim with
  | claimed c => exact inquires_dispatchClaimed (hq.2 c rfl) hq.1
  | not_claimable => exact trivial
  | not_due dueAt reason =>
    refine Conforms.call ?_ fun _ _ => trivial
    change q.question ≠ .asking
    rw [hq.1]
    exact nofun

theorem inquires_program (configuration : Configuration) (request : Request) :
    Inquires {} (program configuration request) fun _ _ => True := by
  by_cases h : ∃ input, request = .dispatch input
  · obtain ⟨input, rfl⟩ := h
    change Inquires _ (Result.dispatched <$> _) _
    rw [← bind_pure_comp]
    exact Conforms.bind inquires_dispatch fun _ _ _ => trivial
  · -- the other services never claim a notification, so nothing is asked of what they read
    refine Conforms.mono (Conforms.keeps (T := inquiryTypestate)
      (N := fun o : Op => o.isDispatchOnly = false)
      (K := fun q => q.claimed = none ∧ q.question = .pending) ?_ ⟨rfl, rfl⟩
      (unguarded_program configuration fun input hi => h ⟨input, hi⟩)) fun _ _ _ => trivial
    rintro q o ⟨hc, hq⟩ ho
    have hasking : q.question ≠ .asking := by rw [hq]; rintro ⟨⟩
    cases o <;> simp only [Op.isDispatchOnly, Op.isGuarded, Op.isProviderCall,
      Bool.true_eq_false] at ho
    case findSessionById a s =>
      refine ⟨⟨hasking, fun c hc' => by cases hc.symm.trans hc'⟩, fun r _ => ?_⟩
      cases r <;> exact ⟨hc, hq⟩
    case fetchAccountLimits name =>
      refine ⟨fun h => absurd h hasking, fun _ _ => ⟨hc, ?_⟩⟩
      simp only [Inquiry.advance, hq]
      rfl
    all_goals exact ⟨hasking, fun _ _ => ⟨hc, hq⟩⟩

/-- **A dispatch that was granted the refresh of limits nobody knows asks WhatsApp next**, and
sends only after it claimed a refresh. -/
@[reducible] def inquiryDiscipline (configuration : Configuration) :
    Discipline (platform configuration) where
  toTypestate := inquiryTypestate
  initial := fun _ => {}
  Answers := Names
  Returns := fun _ _ _ => True
  answers_exec := names_exec
  conforms := inquires_program configuration

end Conformance

/-! ## The column that records a doubt -/

section Column

variable {sessionId : Uuid} {w w' : World} {o : Op} {choice : Choice} {r : o.Ret}

/-- It is on record when the limits of the connection were last known. -/
def Known (sessionId : Uuid) (w : World) : Prop :=
  ∃ r, w.session sessionId = some r ∧ r.accountLimitsCheckedAt.isSome = true

theorem not_known {row : WhatsAppSessionRecord} (hrow : w.session sessionId = some row)
    (h : ¬ Known sessionId w) : row.accountLimitsCheckedAt = none := by
  cases hc : row.accountLimitsCheckedAt with
  | none => rfl
  | some d => exact absurd ⟨row, hrow, by rw [hc]; rfl⟩ h

/-- The operations that write that time. -/
def Op.informs (sessionId : Uuid) : Op → Bool
  | .claimAccountLimitsRefresh s _ _ => s = sessionId
  | .recordAccountLimits s input => s = sessionId && input.limits.isSome
  | _ => false

section Update

variable {id : Uuid} {p : WhatsAppSessionRecord → Bool}
  {f : WhatsAppSessionRecord → WhatsAppSessionRecord} {hf : ∀ r, Relational.key (f r) = Relational.key r}
  {x : Option WhatsAppSessionRecord}

/-- An update that does not fill in the time leaves a doubt. -/
theorem known_updateOne (h : WhatsAppSessionRepository.updateOne id p f hf w = some (x, w'))
    (hkeep : id = sessionId → ∀ old, (f old).accountLimitsCheckedAt.isSome = true →
      old.accountLimitsCheckedAt.isSome = true) (hk : Known sessionId w') : Known sessionId w := by
  obtain ⟨new, hnew, hsome⟩ := hk
  rcases updateOne_session h sessionId with hsame | ⟨old, rfl, hold, -, hafter⟩
  · exact ⟨new, hsame.symm.trans hnew, hsome⟩
  · cases hafter.symm.trans hnew
    exact ⟨old, hold, hkeep rfl old hsome⟩

end Update

theorem storeLimits_none {x : Option StoredAccountLimits}
    (h : WhatsAppSessionRepository.storeLimits none w = some (x, w')) : x = none := by
  obtain ⟨rfl, -⟩ := Sql.pure_eq_some.1 h
  rfl

/-- What other operations do to a connection leaves a doubt. -/
theorem known_exec (h : exec w o choice = some (r, w')) (ho : o.informs sessionId = false)
    (hk : Known sessionId w') : Known sessionId w := by
  have haside : .whatsAppSessions ∉ o.footprint → Known sessionId w := fun hF => by
    obtain ⟨row, hrow, hsome⟩ := hk
    rw [World.session, (within_exec h).whatsAppSessions hF] at hrow
    exact ⟨row, hrow, hsome⟩
  cases o
  case recordStatus =>
    obtain ⟨_, _, h₁, h₂⟩ := Sql.bind_eq_some.1 (Choice.quietly_eq_some.1 h).2
    obtain ⟨-, rfl⟩ := Sql.pure_eq_some.1 h₂
    exact known_updateOne (sending_eq_some.1 h₁).2 (fun _ _ => id) hk
  case claimAccountLimitsRefresh s now before =>
    obtain ⟨_, _, h₁, h₂⟩ := Sql.bind_eq_some.1 (Choice.quietly_eq_some.1 h).2
    obtain ⟨-, rfl⟩ := Sql.pure_eq_some.1 h₂
    exact known_updateOne h₁ (fun hs => absurd hs (of_decide_eq_false ho)) hk
  case invalidateAccountLimits =>
    obtain ⟨_, _, h₁, h₂⟩ := Sql.bind_eq_some.1 (Choice.quietly_eq_some.1 h).2
    obtain ⟨-, rfl⟩ := Sql.pure_eq_some.1 h₂
    exact known_updateOne h₁ (fun _ _ hsome => absurd hsome Bool.false_ne_true) hk
  case recordAccountLimits s input =>
    obtain ⟨stored, w₀, h₀, h⟩ := Sql.bind_eq_some.1 (Choice.quietly_eq_some.1 h).2
    obtain ⟨_, _, h₁, h₂⟩ := Sql.bind_eq_some.1 h
    obtain ⟨-, rfl⟩ := Sql.pure_eq_some.1 h₂
    rw [storeLimits_world h₀] at h₁
    refine known_updateOne (sending_eq_some.1 h₁).2 (fun hs old hsome => ?_) hk
    have hnone : input.limits = none := by
      simpa [Op.informs, hs] using ho
    rw [hnone] at h₀
    rw [storeLimits_none h₀] at hsome
    exact hsome
  case endSendingPause =>
    obtain ⟨_, _, h₁, h₂⟩ := Sql.bind_eq_some.1 (Choice.quietly_eq_some.1 h).2
    obtain ⟨-, rfl⟩ := Sql.pure_eq_some.1 h₂
    exact known_updateOne h₁ (fun _ _ => id) hk
  case reserveSlot =>
    obtain ⟨draw, -, h⟩ := given_eq_some.1 h
    obtain ⟨w₁, w₂, h₁, h⟩ := Sql.bind_eq_some.1 h
    cases h₁
    obtain ⟨reserved, w₃, h₃, h⟩ := Sql.bind_eq_some.1 h
    obtain ⟨-, rfl⟩ := Sql.pure_eq_some.1 h
    exact known_updateOne h₃ (fun _ _ => id) hk
  all_goals exact haside (by simp [Op.footprint])

/-- Whoever claims the refresh of limits nobody knows is granted it. -/
theorem claimed_unknown {now before : Date} {granted : Bool} {row : WhatsAppSessionRecord}
    (h : exec w (.claimAccountLimitsRefresh sessionId now before) choice = some (granted, w'))
    (hrow : w.session sessionId = some row) (hnone : row.accountLimitsCheckedAt = none) :
    granted = true := by
  obtain ⟨claimed, w₁, h₁, h₂⟩ := Sql.bind_eq_some.1 (Choice.quietly_eq_some.1 h).2
  obtain ⟨rfl, -⟩ := Sql.pure_eq_some.1 h₂
  cases h₁
  have hold : w.whatsAppSessions.find? sessionId = some row := hrow
  rw [Option.isSome_iff_exists]
  refine ⟨_, Relational.Table.updateAt_eq_some.2 ⟨row, hold, ?_, rfl⟩⟩
  rw [hnone]
  rfl

/-- A doubt is a time that is not on record. -/
theorem invalidated {u : Unit}
    (h : exec w (.invalidateAccountLimits sessionId) choice = some (u, w')) :
    ¬ Known sessionId w' := by
  obtain ⟨claimed, w₁, h₁, h₂⟩ := Sql.bind_eq_some.1 (Choice.quietly_eq_some.1 h).2
  obtain ⟨-, rfl⟩ := Sql.pure_eq_some.1 h₂
  rintro ⟨row, hrow, hsome⟩
  cases h₁
  rw [World.session, Relational.Table.find?_updateAt_self] at hrow
  obtain ⟨old, -, hrow⟩ := Option.map_eq_some_iff.1 hrow
  rw [if_pos rfl] at hrow
  subst hrow
  exact absurd hsome Bool.false_ne_true

end Column

/-! ## What a dispatch read, in the trace -/

/-- The connection an operation read. -/
def connectionOf : Performed operations → Option WhatsAppSessionRecord
  | ⟨_, .findSessionById _ _, r⟩ => r
  | _ => none

/-- What a dispatch knows of its connection is what it read last. -/
theorem after_session (older : List (Performed operations)) :
    (inquiryTypestate.after {} older).session = older.findSome? connectionOf := by
  induction older with
  | nil => rfl
  | cons p older ih =>
    obtain ⟨i, o, r⟩ := p
    simp only [Typestate.after, List.findSome?_cons]
    rw [← ih]
    cases o
    case claimForDispatch => cases r <;> rfl
    case findSessionById => cases r <;> rfl
    all_goals rfl

section Runs

variable {configuration : Configuration} {P : System (platform configuration) →
  Label (platform configuration) → Prop} {w : World} {s s' s₁ : System (platform configuration)}
  {l : Label (platform configuration)} {i j : Nat} {sessionId : Uuid} {q : Inquiry}

/-- How far every call is with the limits of its connection. -/
abbrev inquiries (s : System (platform configuration)) : Nat → Option Inquiry :=
  (inquiryDiscipline configuration).phase s

/-- The connection, as a call read it last. -/
def lastRead (s : System (platform configuration)) (i : Nat) : Option WhatsAppSessionRecord :=
  (s.history i).findSome? connectionOf

theorem inquiries_session (hq : inquiries s i = some q) : q.session = lastRead s i := by
  obtain ⟨t, -, rfl⟩ := Option.map_eq_some_iff.1 hq
  exact after_session _

theorem inquired_run (h : Run P (System.start w) s) :
    (inquiryDiscipline configuration).Disciplined s := Discipline.disciplined_run h

/-- A dispatch knows the row it claimed. -/
theorem inquiries_claimed (h : Run P (System.start w) s) {p : Performed operations}
    {c : NotificationRecord} (hp : p ∈ s.trace) (hc : claimOf p = some c)
    (hq : inquiries s p.thread = some q) : q.claimed = some c := by
  have hrel := Discipline.run_related (D := watchDiscipline configuration)
    (E := inquiryDiscipline configuration)
    (fun ph q => ∀ watch, ph = .dispatching watch → watch.claimed = q.claimed)
    (fun request watch hw => by cases request <;> cases hw; rfl)
    (fun {ph q o r} hrel _ _ _ _ watch hw => ?_) h p.thread
  · obtain ⟨watch, hwatch, hclaimed⟩ := (remembers_run h).claim hp hc
    rw [show (watchDiscipline configuration).phase s p.thread = _ from hwatch,
      show (inquiryDiscipline configuration).phase s p.thread = _ from hq] at hrel
    cases hrel with
    | some hR => rw [← hR watch rfl, hclaimed]
  · cases ph with
    | serving => cases hw
    | dispatching watch =>
      have hold := hrel watch rfl
      cases hw
      cases o
      case claimForDispatch => cases r <;> [exact hold; rfl]
      case findSessionById => cases r <;> exact hold
      case promoteScheduled => cases r <;> exact hold
      case beginAttempt => cases r <;> exact hold
      all_goals exact hold

/-! ## Who is to ask -/

/-- The operation asks WhatsApp for the limits of the connection. -/
def AsksAbout (sessionId : Uuid) (s : System (platform configuration))
    (p : Performed operations) : Prop :=
  ∃ e ∈ s.trace, e.thread = p.thread ∧ ∃ r, connectionOf e = some r ∧ r.id = sessionId ∧
    p.op = .fetchAccountLimits r.providerSessionName

/-- WhatsApp was asked for the limits of the connection since `s₁`, and answered, or failed to: what
the asking thread did before is since `s₁` as well, so the question was put since then. -/
def Asked (sessionId : Uuid) (s₁ s : System (platform configuration)) : Prop :=
  ∃ since, s.trace = since ++ s₁.trace ∧ ∃ p e, [p, e].Sublist since ∧ e.thread = p.thread ∧
    AsksAbout sessionId s p

/-- The last thing the call did was to be granted the refresh of the connection's limits. -/
def Granted (sessionId : Uuid) (s : System (platform configuration)) (i : Nat) : Prop :=
  ∃ now staleBefore, (s.history i).head? =
    some ⟨i, .claimAccountLimitsRefresh sessionId now staleBefore, true⟩

/-- A step that leaves a doubt to be answered. -/
structure Upholds (sessionId : Uuid) (s : System (platform configuration))
    (l : Label (platform configuration)) : Prop where
  /-- No report is written over it. -/
  report : ∀ i choice input, l = .advance i choice →
    s.nextOp i = some (.recordAccountLimits sessionId input) → input.limits.isSome = true →
      Known sessionId s.world
  /-- The refresh is claimed by who read the doubt, and not while who was granted it has yet to
  ask. -/
  claim : ∀ i choice now staleBefore, l = .advance i choice →
    s.nextOp i = some (.claimAccountLimitsRefresh sessionId now staleBefore) →
      (∃ row, s.world.session sessionId = some row) ∧
      (Known sessionId s.world → ∀ j, ¬ Granted sessionId s j) ∧
      (¬ Known sessionId s.world → ∃ r, lastRead s i = some r ∧ r.accountLimitsCheckedAt = none)
  /-- Connections are administered without filling in the time. -/
  outside : ∀ table, l = .outside (.sessions table) → ∀ r', table.find? sessionId = some r' →
    r'.accountLimitsCheckedAt.isSome = true → Known sessionId s.world

theorem AsksAbout.later {p : Performed operations} (h : AsksAbout sessionId s p)
    (htrace : s.trace <:+ s'.trace) : AsksAbout sessionId s' p := by
  obtain ⟨e, he, h⟩ := h
  exact ⟨e, htrace.subset he, h⟩

theorem Asked.later (h : Asked sessionId s₁ s) (htrace : s.trace <:+ s'.trace) :
    Asked sessionId s₁ s' := by
  obtain ⟨since, hs, p, e, hsub, hthread, hasks⟩ := h
  obtain ⟨new, hnew⟩ := htrace
  refine ⟨new ++ since, ?_, p, e, hsub.trans (List.sublist_append_right _ _), hthread,
    hasks.later ⟨new, hnew⟩⟩
  rw [← hnew, hs, List.append_assoc]

/-- A call that was granted the refresh since `s₁`, and is to ask next. -/
structure Held (sessionId : Uuid) (s₁ s : System (platform configuration)) (j : Nat) : Prop where
  asking : ∃ q c r, inquiries s j = some q ∧ q.question = .asking ∧ q.Reads c r ∧ r.id = sessionId
  granted : Granted sessionId s j
  since : ∃ since e, s.trace = since ++ s₁.trace ∧ e ∈ since ∧ e.thread = j

/-- Who has something to ask asks it next. -/
theorem Inquiry.asks {o : Op} (ho : q.Allows o) (hq : q.question = .asking) :
    ∃ c r, q.Reads c r ∧ o = .fetchAccountLimits r.providerSessionName := by
  cases o
  case fetchAccountLimits name =>
    obtain ⟨c, r, hr, rfl⟩ := ho hq
    exact ⟨c, r, hr, rfl⟩
  case claimForDispatch => exact absurd (hq.symm.trans ho.2) nofun
  case findSessionById => exact absurd hq ho.1
  case claimAccountLimitsRefresh => exact absurd (hq.symm.trans ho.1) nofun
  case sendTextMessage => exact absurd (hq.symm.trans ho) nofun
  all_goals exact absurd hq ho

/-- How far a dispatch that is not to ask is after an operation. -/
theorem Inquiry.question_advance {o : Op} (ho : q.Allows o) (hq : q.question ≠ .asking) (r : o.Ret) :
    (∃ s now before, o = .claimAccountLimitsRefresh s now before) ∨
      (q.advance o r).question = q.question := by
  cases o
  case claimAccountLimitsRefresh s now before => exact .inl ⟨s, now, before, rfl⟩
  case claimForDispatch => cases r <;> exact .inr rfl
  case findSessionById => cases r <;> exact .inr rfl
  case fetchAccountLimits =>
    right
    change q.question.answered = q.question
    cases h : q.question with
    | asking => exact absurd h hq
    | pending | settled => rfl
  all_goals exact .inr rfl

section Step

variable {choice : Choice} {o : Op} {r : o.Ret}

theorem Held.other (h : Held sessionId s₁ s j) (hphase : inquiries s' j = inquiries s j)
    (hhistory : s'.history j = s.history j) (htrace : s.trace <:+ s'.trace) :
    Held sessionId s₁ s' j := by
  refine ⟨hphase.symm ▸ h.asking, ?_, ?_⟩
  · rw [Granted, hhistory]
    exact h.granted
  · obtain ⟨since, e, hs, he, hthread⟩ := h.since
    obtain ⟨new, hnew⟩ := htrace
    refine ⟨new ++ since, e, ?_, List.mem_append_right _ he, hthread⟩
    rw [← hnew, hs, List.append_assoc]

/-- A dispatch that was granted the refresh asks WhatsApp. -/
theorem Held.asks (h : Held sessionId s₁ s i)
    (ha : (inquiryDiscipline configuration).Advanced s s' i choice o r q) :
    Asked sessionId s₁ s' := by
  obtain ⟨q', c, r', hq', hasking, hreads, hid⟩ := h.asking
  cases ha.before.symm.trans hq'
  obtain ⟨c', r'', hreads', rfl⟩ := Inquiry.asks ha.allowed hasking
  cases hreads.2.1.symm.trans hreads'.2.1
  obtain ⟨since, e, hs, he, hthread⟩ := h.since
  have hread : lastRead s i = some r' := (inquiries_session ha.before).symm.trans hreads.2.1
  obtain ⟨_, e', _, he', hc', -⟩ := List.findSome?_eq_some_iff.1 hread
  have hmem : e' ∈ s.history i := by
    rw [he']
    exact List.mem_append_right _ List.mem_cons_self
  obtain ⟨hmem, hi⟩ := List.mem_filter.1 hmem
  refine ⟨_ :: since, by rw [ha.trace, hs]; rfl, _, e,
    (List.singleton_sublist.2 he).cons_cons _, hthread, e', ?_, of_decide_eq_true hi, r', hc', hid, rfl⟩
  rw [ha.trace]
  exact List.mem_cons_of_mem _ hmem

end Step

/-- A doubt nobody has answered yet: every dispatch that started since has still to claim the
refresh, or to ask; and either the time is not on record, or somebody is about to ask. -/
structure Doubted (sessionId : Uuid) (s₁ s : System (platform configuration)) : Prop where
  unsettled : ∀ i q c, s₁.threads i = none → inquiries s i = some q → q.claimed = some c →
    c.whatsAppSessionId = sessionId → q.question = .pending ∨ Held sessionId s₁ s i
  column : ¬ Known sessionId s.world ∨ ∃ j, Held sessionId s₁ s j

/-- A notification is claimed before anything is asked. -/
theorem Inquiry.claimed_advance {o : Op} (ho : q.Allows o) (r : o.Ret) :
    q.question = .pending ∨ (q.advance o r).claimed = q.claimed := by
  cases o
  case claimForDispatch => exact .inl ho.2
  case findSessionById => cases r <;> exact .inr rfl
  all_goals exact .inr rfl

section Step

variable {choice : Choice} {o : Op} {r : o.Ret}

/-- Who claims the refresh while the doubt is read and nobody has yet to ask is to ask. -/
theorem Doubted.holds (htrace : s₁.trace <:+ s.trace) (h : Doubted sessionId s₁ s)
    (hl : Upholds sessionId s (.advance i choice)) {now before : Date} {granted : Bool}
    (ha : (inquiryDiscipline configuration).Advanced s s' i choice
      (.claimAccountLimitsRefresh sessionId now before) granted q) : Held sessionId s₁ s' i := by
  obtain ⟨⟨row, hrow⟩, hknown, hunknown⟩ := hl.claim i choice now before rfl ha.nextOp
  have hdoubt : ¬ Known sessionId s.world := by
    intro hk
    rcases h.column with hc | ⟨j, hj⟩
    · exact hc hk
    · exact hknown hk j hj.granted
  obtain ⟨r, hread, hnone⟩ := hunknown hdoubt
  have hgranted : granted = true := claimed_unknown ha.exec hrow (not_known hrow hdoubt)
  subst hgranted
  have hnothing : q.knowsNothing = true := by
    rw [Inquiry.knowsNothing, inquiries_session ha.before, hread, Option.any_some, hnone]
    rfl
  obtain ⟨-, c, r', hreads, hid⟩ := ha.allowed
  refine ⟨⟨_, c, r', ha.after, ?_, hreads, hid.symm⟩, ⟨now, before, ?_⟩, ?_⟩
  · simp only [Inquiry.advance, hnothing, Bool.and_self, if_true]
  · simp [System.history, ha.trace]
  · obtain ⟨since, hsince⟩ := htrace
    exact ⟨_ :: since, _, by rw [ha.trace, ← hsince]; rfl, List.mem_cons_self, rfl⟩

theorem Doubted.advance (htrace : s₁.trace <:+ s.trace) (h : Doubted sessionId s₁ s)
    (hl : Upholds sessionId s (.advance i choice))
    (ha : (inquiryDiscipline configuration).Advanced s s' i choice o r q) :
    Asked sessionId s₁ s' ∨ Doubted sessionId s₁ s' := by
  by_cases hheld : Held sessionId s₁ s i
  · exact .inl (hheld.asks ha)
  right
  have hlater : s.trace <:+ s'.trace := by
    rw [ha.trace]
    exact List.suffix_cons _ _
  have hothers : ∀ {j}, j ≠ i → Held sessionId s₁ s j → Held sessionId s₁ s' j := by
    intro j hji hj
    refine hj.other (ha.others j hji) ?_ hlater
    simp [System.history, ha.trace, Ne.symm hji]
  by_cases hclaim : ∃ now before, o = .claimAccountLimitsRefresh sessionId now before
  · obtain ⟨now, before, rfl⟩ := hclaim
    have hi := h.holds htrace hl ha
    refine ⟨fun j q' c hfresh hq' hc hbound => ?_, .inr ⟨i, hi⟩⟩
    by_cases hji : j = i
    · exact .inr (hji ▸ hi)
    · exact (h.unsettled j q' c hfresh ((ha.others j hji).symm.trans hq') hc hbound).imp_right
        (hothers hji)
  · refine ⟨fun j q' c hfresh hq' hc hbound => ?_, ?_⟩
    · by_cases hji : j = i
      · subst hji
        cases ha.after.symm.trans hq'
        left
        -- it is still pending, and what it claims is not the refresh of this connection
        have hpending : q.question = .pending := by
          rcases Inquiry.claimed_advance ha.allowed r with hp | hsame
          · exact hp
          · exact (h.unsettled j q c hfresh ha.before (hsame.symm.trans hc) hbound).resolve_right
              hheld
        have hasking : q.question ≠ .asking := by rw [hpending]; rintro ⟨⟩
        rcases Inquiry.question_advance ha.allowed hasking r with ⟨s₀, now, before, rfl⟩ | hsame
        · obtain ⟨-, c', r', hreads, rfl⟩ := ha.allowed
          cases hreads.1.symm.trans hc
          exact absurd ⟨now, before, by rw [hreads.2.2, hbound]⟩ hclaim
        · exact hsame.trans hpending
      · exact (h.unsettled j q' c hfresh ((ha.others j hji).symm.trans hq') hc hbound).imp_right
          (hothers hji)
    · by_cases hk : Known sessionId s.world
      · obtain ⟨j, hj⟩ := h.column.resolve_left (not_not.2 hk)
        have hji : j ≠ i := by
          rintro rfl
          exact hheld hj
        exact .inr ⟨j, hothers hji hj⟩
      · left
        have hinforms : o.informs sessionId = false := by
          rw [Bool.eq_false_iff]
          intro ho
          cases o <;> simp only [Op.informs, Bool.false_eq_true, decide_eq_true_eq,
            Bool.and_eq_true] at ho
          case claimAccountLimitsRefresh s₀ now before =>
            subst ho
            exact hclaim ⟨now, before, rfl⟩
          case recordAccountLimits s₀ input =>
            obtain ⟨rfl, hsome⟩ := ho
            exact hk (hl.report i choice input rfl ha.nextOp hsome)
        exact fun hk' => hk (known_exec ha.exec hinforms hk')

end Step

/-- An event leaves a doubt. -/
theorem known_outside {event : Event} (h : Upholds sessionId s (.outside event)) {w' : World}
    (he : outside s.world event = some w') (hk : Known sessionId w') : Known sessionId s.world := by
  obtain ⟨r, hr, hsome⟩ := hk
  rcases outside_sessions he with ⟨table, rfl⟩ | hsame
  · cases he
    exact h.outside table rfl r hr hsome
  · rw [World.session, hsame] at hr
    exact ⟨r, hr, hsome⟩

theorem Doubted.step (hr : Run P (System.start w) s) (htrace : s₁.trace <:+ s.trace)
    (h : Doubted sessionId s₁ s) (hl : Upholds sessionId s l) (hs : s.step l = some s') :
    Asked sessionId s₁ s' ∨ Doubted sessionId s₁ s' := by
  have hsame : ∀ {j}, inquiries s' j = inquiries s j → s'.trace = s.trace →
      Held sessionId s₁ s j → Held sessionId s₁ s' j := by
    intro j hphase htrace hj
    refine hj.other hphase ?_ ⟨[], htrace.symm⟩
    rw [System.history, htrace]
    rfl
  cases (inquired_run hr).stepped hs with
  | advanced _ _ _ step => exact h.advance htrace hl step
  | @spawned k request fresh phases _ world trace =>
    right
    have hne : ∀ {j}, Held sessionId s₁ s j → inquiries s' j = inquiries s j := by
      intro j hj
      rw [inquiries, phases, Function.update_of_ne]
      rintro rfl
      obtain ⟨q, _, _, hq, -⟩ := hj.asking
      cases fresh.symm.trans hq
    refine ⟨fun j q c hfresh hq hc hbound => ?_, ?_⟩
    · rw [inquiries, phases] at hq
      by_cases hjk : j = k
      · subst hjk
        rw [Function.update_self] at hq
        cases hq
        exact .inl rfl
      · rw [Function.update_of_ne hjk] at hq
        exact (h.unsettled j q c hfresh hq hc hbound).imp_right fun hj => hsame (hne hj) trace hj
    · rw [world]
      refine h.column.imp_right ?_
      rintro ⟨j, hj⟩
      exact ⟨j, hsame (hne hj) trace hj⟩
  | crashed phases _ world trace =>
    right
    refine ⟨fun j q c hfresh hq hc hbound => ?_, ?_⟩
    · rw [inquiries, phases] at hq
      exact (h.unsettled j q c hfresh hq hc hbound).imp_right
        (hsame (by rw [inquiries, phases]) trace)
    · rw [world]
      refine h.column.imp_right ?_
      rintro ⟨j, hj⟩
      exact ⟨j, hsame (by rw [inquiries, phases]) trace hj⟩
  | outside phases _ world trace =>
    right
    refine ⟨fun j q c hfresh hq hc hbound => ?_, ?_⟩
    · rw [inquiries, phases] at hq
      exact (h.unsettled j q c hfresh hq hc hbound).imp_right
        (hsame (by rw [inquiries, phases]) trace)
    · refine h.column.imp (fun hk hk' => hk (known_outside hl world hk')) ?_
      rintro ⟨j, hj⟩
      exact ⟨j, hsame (by rw [inquiries, phases]) trace hj⟩

theorem doubted_run {s₀ : System (platform configuration)} (h₀ : Run P (System.start w) s₀)
    {k : Nat} {u : Unit} (hd : s₀.Performs l ⟨k, .invalidateAccountLimits sessionId, u⟩ s₁)
    (h : Run (fun s l => Asked sessionId s₁ s ∨ Upholds sessionId s l) s₁ s) :
    Asked sessionId s₁ s ∨ Doubted sessionId s₁ s := by
  have h₁ : Run Any (System.start w) s₁ := h₀.any.tail trivial hd.1
  induction h with
  | refl =>
    obtain ⟨choice, q, -, ha, -⟩ := (inquired_run h₀).performs hd
    refine .inr ⟨fun i q c hfresh hq _ _ => ?_, .inl (invalidated ha.exec)⟩
    obtain ⟨t, ht, -⟩ := Option.map_eq_some_iff.1 hq
    cases hfresh.symm.trans ht
  | @tail s s' l hr hl hs ih =>
    have hrun : Run Any (System.start w) s := h₁.trans hr.any
    have hlater : s.trace <:+ s'.trace :=
      (Run.refl (P := Any) |>.tail trivial hs : Run Any s s').trace_suffix
    rcases ih with hasked | hdoubted
    · exact .inl (hasked.later hlater)
    · rcases hl with hasked | hl
      · exact .inl (hasked.later hlater)
      · exact hdoubted.step hrun hr.trace_suffix hl hs

/-- **A doubt is not lost** in a run whose steps uphold it until it is answered: no dispatch that
started after the doubt sends through the connection before WhatsApp was asked for its limits. -/
theorem doubt_answered {s₀ : System (platform configuration)} (h₀ : Run P (System.start w) s₀)
    {k : Nat} {u : Unit} (hd : s₀.Performs l ⟨k, .invalidateAccountLimits sessionId, u⟩ s₁)
    (h : Run (fun s l => Asked sessionId s₁ s ∨ Upholds sessionId s l) s₁ s)
    {l' : Label (platform configuration)} {p : Performed operations} (hs : s.Performs l' p s')
    (hstarted : s₁.threads p.thread = none) (hsend : SendsThrough sessionId s p) :
    Asked sessionId s₁ s := by
  have hrun : Run Any (System.start w) s := (h₀.any.tail trivial hd.1).trans h.any
  refine (doubted_run h₀ hd h).resolve_right fun hdoubted => ?_
  obtain ⟨hop, e, he, hthread, hclaim⟩ := hsend
  obtain ⟨c, hc, hbound⟩ := (Option.any_eq_true _ _).1 hclaim
  obtain ⟨i, o, r⟩ := p
  obtain ⟨choice, q, -, ha, -⟩ := (inquired_run hrun).performs hs
  have hclaimed := inquiries_claimed hrun he hc (by rw [hthread]; exact ha.before)
  have hsettled : q.question = .settled := by
    cases o <;> simp only [Op.isSendTextMessage, Bool.false_eq_true] at hop
    exact ha.allowed
  rcases hdoubted.unsettled i q c hstarted ha.before hclaimed (of_decide_eq_true hbound) with
    hpending | hheld
  · cases hsettled.symm.trans hpending
  · obtain ⟨q', _, _, hq', hasking, -⟩ := hheld.asking
    cases ha.before.symm.trans hq'
    cases hsettled.symm.trans hasking

/-- `Upholds`, checked. -/
def upholds (sessionId : Uuid) (s : System (platform configuration))
    (l : Label (platform configuration)) : Bool :=
  let known := (s.world.session sessionId).any (·.accountLimitsCheckedAt.isSome)
  match l with
  | .advance i _ =>
    match s.nextOp i with
    | some (.recordAccountLimits s₀ _) => s₀ ≠ sessionId || known
    | some (.claimAccountLimitsRefresh s₀ _ _) => s₀ ≠ sessionId ||
        ((s.world.session sessionId).isSome && !known &&
          (lastRead s i).any (·.accountLimitsCheckedAt.isNone))
    | _ => true
  | .outside (.sessions _) => false
  | _ => true

theorem Upholds.of_check (h : upholds sessionId s l = true) : Upholds sessionId s l := by
  have hknown : (s.world.session sessionId).any (·.accountLimitsCheckedAt.isSome) = true ↔
      Known sessionId s.world := Option.any_eq_true _ _
  refine ⟨?_, ?_, ?_⟩
  · rintro i choice input rfl hnext -
    simp only [upholds, hnext, ne_eq, not_true_eq_false, decide_false, Bool.false_or] at h
    exact hknown.1 h
  · rintro i choice now before rfl hnext
    simp only [upholds, hnext, ne_eq, not_true_eq_false, decide_false, Bool.false_or,
      Bool.and_eq_true, Bool.not_eq_true'] at h
    obtain ⟨⟨hrow, hdoubt⟩, hread⟩ := h
    obtain ⟨r, hr, hnone⟩ := (Option.any_eq_true _ _).1 hread
    refine ⟨Option.isSome_iff_exists.1 hrow, fun hk => ?_, fun _ => ⟨r, hr, ?_⟩⟩
    · exact absurd ((hknown.2 hk).symm.trans hdoubt) nofun
    · exact Option.isNone_iff_eq_none.1 hnone
  · rintro table rfl
    exact absurd h nofun

end Runs

/-! ## Runs of the sample -/

namespace Sample

/-- A callback that a message of connection 2 failed. -/
def failureReceipt : WebhookDeliveryRepository.RecordWebhookDeliveryInput where
  id := 3
  applicationId := 1
  whatsAppSessionId := 2
  providerEventId := "evt"
  eventType := "message.ack"
  providerSessionName := "main"
  payload := [("id", .string "3EB0"), ("ack", .number (.finite (-1)))]
  receivedAt := 0

/-- Thread 0 takes the callback up. -/
def receives : List Step :=
  [.outside (.created draft), .outside (.filed failureReceipt), .spawn 0 (.process 3),
    .advance 0 .nothing]

def doubting : System (platform configuration) := run .RETRY receives

/-- The doubt has committed. -/
def doubted : System (platform configuration) := doubting.after [.advance 0 .nothing]

def limits : AccountLimits := ⟨none, none⟩

/-- Dispatch 1 claims the notification, reads its connection and claims the refresh. -/
def looks : List Step :=
  .spawn 1 (.dispatch ⟨1, 7, "order"⟩) :: claims 1 0 ++ reads 1 0 ++
    [.advance 1 .nothing, .advance 1 (.date 0), .advance 1 .nothing]

/-- It takes the next slot and begins its attempt. -/
def goesOn : List Step :=
  [.advance 1 (.date 0), .advance 1 (.number 0)] ++ begins 1 0 true

/-- It is granted the refresh, and asks WhatsApp and writes the answer down before it goes on. -/
def asks : List Step :=
  looks ++ [.advance 1 (.limits (.succeeded limits)), .advance 1 (.date 0), .advance 1 .nothing,
    .advance 1 .nothing] ++ goesOn

/-- Somebody looks at the connection, and what the provider remembers is written down. -/
def remembers : List Step :=
  [.spawn 2 (.refreshSession 1 2), .advance 2 .nothing,
    .advance 2 (.session (.succeeded (some ⟨"main", .WORKING, none, none, some limits⟩))),
    .advance 2 (.date 0), .advance 2 .nothing, .advance 2 (.date 0), .advance 2 .nothing]

/-- Dispatch 1 is refused the refresh, and goes on. -/
def overlooks : List Step := remembers ++ looks ++ goesOn

/-- What it sends. -/
def sending : Performed operations :=
  ⟨1, .sendTextMessage "main" "5511999990000@c.us" "Your order has shipped.", ()⟩

end Sample

/-- A dispatch that starts after the doubt asks, and sends. -/
theorem doubt_answered_asks : Asked 2 Sample.doubted (Sample.doubted.after Sample.asks) := by
  have h : Run (Upholds 2) Sample.doubted (Sample.doubted.after Sample.asks) :=
    (Run.of_checksEach (b := upholds 2) (by decide +kernel)).mono fun _ _ => Upholds.of_check
  exact doubt_answered (Sample.run_any .RETRY Sample.receives)
    (⟨rfl, rfl⟩ : Sample.doubting.Performs (.advance 0 .nothing)
      ⟨0, .invalidateAccountLimits 2, ()⟩ Sample.doubted)
    (h.mono fun _ _ => .inr)
    (⟨rfl, rfl⟩ : (Sample.doubted.after Sample.asks).Performs (.advance 1 .nothing) Sample.sending _)
    rfl (by decide +kernel)

/-- The next dispatch sends and WhatsApp was not asked: what the provider remembered was written
over the doubt before the dispatch read the connection. -/
theorem doubt_lost : ∃ (s₀ s₁ s s' : System (platform Sample.configuration))
    (l l' : Label (platform Sample.configuration)) (k : Nat) (p : Performed operations),
    Run Any (System.start (Sample.world .RETRY)) s₀ ∧
    s₀.Performs l ⟨k, .invalidateAccountLimits 2, ()⟩ s₁ ∧ Run Any s₁ s ∧ s.Performs l' p s' ∧
    s₁.threads p.thread = none ∧ SendsThrough 2 s p ∧
    (∀ e ∈ s.trace, e.op.isSendTextMessage = false) ∧ ¬ Asked 2 s₁ s := by
  refine ⟨Sample.doubting, Sample.doubted, Sample.doubted.after Sample.overlooks, _,
    .advance 0 .nothing, .advance 1 .nothing, 0, Sample.sending, Sample.run_any .RETRY _,
    ⟨rfl, rfl⟩, Run.any_after _, ⟨rfl, rfl⟩, rfl, by decide +kernel, by decide +kernel, ?_⟩
  rintro ⟨since, htrace, p, e, hsub, -, _, -, -, r, -, -, hop⟩
  have hnone : ∀ e ∈ (Sample.doubted.after Sample.overlooks).trace,
      (match e.op with | .fetchAccountLimits _ => false | _ => true) = true := by decide +kernel
  have hp := hnone p (by
    rw [htrace]
    exact List.mem_append_left _ (hsub.subset List.mem_cons_self))
  rw [hop] at hp
  cases hp

end NotificationPlatform
