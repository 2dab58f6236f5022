import NotificationPlatform.Delivery.Effect
import NotificationPlatform.Platform.Shapes

/-!
# What a dispatch knows of the time

A second typestate over the same programs. The phase of a dispatch is what its decisions about time
rest on: what it read of the clock, the row it found still waiting, the row it claimed, the
connection as it last read it, and the slot it reserved. `Watch.Allows` says what must have been
read before a notification is claimed, a pause lifted, a slot reserved or the provider called.
-/

namespace NotificationPlatform

open Interleaving

/-! ## Phases -/

structure Watch where
  input : DispatchInput
  /-- The first time it read. -/
  arrived : Option Date := none
  /-- The latest time it read. -/
  now : Option Date := none
  promoted : Bool := false
  claimed : Option NotificationRecord := none
  /-- What it found instead of a row to claim. -/
  waiting : Option NotificationRecord := none
  /-- The connection, as it was last read. -/
  session : Option WhatsAppSessionRecord := none
  slot : Option Timestamptz := none
  /-- It ended the processing of its notification, or tried to. -/
  left : Bool := false

/-- When a notification that waits may be taken up. -/
def NotificationRecord.dueAt (r : NotificationRecord) : Option Date :=
  match r.status with
  | .SCHEDULED => r.scheduledAt
  | .RETRYING => r.nextAttemptAt
  | _ => none

namespace Watch

/-- Another reading of the clock. -/
def reads (q : Watch) (t : Date) : Watch :=
  { q with arrived := some (q.arrived.getD t), now := some (q.now.elim t (max t)) }

/-- It read a time no earlier than `d`. -/
def Reached (q : Watch) (d : Date) : Prop := ∃ now, q.now = some now ∧ d ≤ now

/-- The connection it read is the one its notification is bound to. -/
structure Reads (q : Watch) (c : NotificationRecord) (r : WhatsAppSessionRecord) : Prop where
  claimed : q.claimed = some c
  session : q.session = some r
  id : r.id = c.whatsAppSessionId
  application : r.applicationId = c.applicationId
  left : q.left = false

/-- It may call the provider: no pause it knows of is in force, and it reserved a slot. -/
structure Cleared (q : Watch) (c : NotificationRecord) (r : WhatsAppSessionRecord) : Prop
    extends q.Reads c r where
  pause : ∀ p ∈ r.sendingPausedUntil, q.Reached p
  slot : q.slot.isSome = true

/-- The job `reschedule` inserts. -/
def Postpones (q : Watch) (job : DispatchJob) : Prop :=
  ∃ row due arrived, q.waiting = some row ∧ row.id = q.input.notificationId ∧
    row.dueAt = some due ∧ q.arrived = some arrived ∧ arrived < due ∧
    job.notificationId = q.input.notificationId ∧ job.startAfter = some due

/-- It names its notification, at the time it arrived. -/
def Opens (q : Watch) (applicationId notificationId : Uuid) (now : Date) : Prop :=
  q.claimed = none ∧ applicationId = q.input.applicationId ∧
    notificationId = q.input.notificationId ∧ q.arrived = some now

def Allows (q : Watch) : Op → Prop
  | .promoteScheduled a n now => q.Opens a n now
  | .claimForDispatch a n _ now => q.Opens a n now
  | .appendEvent _ => q.claimed = none ∧ q.promoted = true
  | .findNotificationById _ n => q.claimed = none ∧ n = q.input.notificationId
  | .enqueueDispatch job => q.claimed.isSome = true ∨ q.Postpones job
  | .findSessionById a s => ∃ c, q.claimed = some c ∧ a = c.applicationId ∧
      s = c.whatsAppSessionId
  | .endSendingPause _ observed => q.Reached observed
  | .reserveSlot s now => q.slot = none ∧ q.Reached now ∧
      ∃ c r, q.Reads c r ∧ s = c.whatsAppSessionId
  | .resolveRecipient name _ | .showTyping name _ _ | .sendTextMessage name _ _ =>
    ∃ c r, q.Cleared c r ∧ name = r.providerSessionName
  | _ => True

def advance (q : Watch) : (o : Op) → o.Ret → Watch
  | .clockNow, t => q.reads t
  | .promoteScheduled _ _ _, some _ => { q with promoted := true }
  | .claimForDispatch _ _ _ _, some c => { q with claimed := some c }
  | .findNotificationById _ _, found => { q with waiting := found }
  | .findSessionById _ _, some r => { q with session := some r }
  | .reserveSlot _ _, slot => { q with slot }
  | .beginAttempt _, none => { q with left := true }
  | .recordSent _, _ => { q with left := true }
  | .deferTransition _, _ => { q with left := true }
  | .transitionAndRecord _ _, _ => { q with left := true }
  | _, _ => q

end Watch

inductive WatchPhase where
  | dispatching (watch : Watch)
  /-- Another service, which does nothing whose time matters. -/
  | serving

namespace WatchPhase

def Allows : WatchPhase → Op → Prop
  | .dispatching q, o => q.Allows o
  | .serving, o => o.isGuarded = false

def advance : WatchPhase → (o : Op) → o.Ret → WatchPhase
  | .dispatching q, o, r => .dispatching (q.advance o r)
  | .serving, _, _ => .serving

def initial : Request → WatchPhase
  | .dispatch input => .dispatching { input }
  | _ => .serving

end WatchPhase

@[reducible] def watchTypestate : Typestate operations where
  Phase := WatchPhase
  Allows := WatchPhase.Allows
  advance := WatchPhase.advance

/-- What is known of every answer: a row that was asked for is the row of that identifier. -/
def Names : (o : Op) → o.Ret → Prop
  | .claimForDispatch a n _ _, some c => c.applicationId = a ∧ c.id = n
  | .findNotificationById _ n, some r => r.id = n
  | .findSessionById a s, some r => r.id = s ∧ r.applicationId = a
  | _, _ => True

theorem names_exec {w w' : World} {o : Op} {c : Choice} {r : o.Ret}
    (h : exec w o c = some (r, w')) : Names o r := by
  cases o <;> try trivial
  case claimForDispatch a n t now =>
    cases r with
    | none => trivial
    | some new =>
      obtain ⟨old, happlication, -, rfl, hw⟩ := claimForDispatch_some (Choice.quietly_eq_some.1 h).2
      exact ⟨happlication, Relational.Table.key_of_find? hw.before⟩
  case findNotificationById a n =>
    cases r with
    | none => trivial
    | some r =>
      obtain ⟨hr, -⟩ := Prod.mk.inj (Option.some.inj (Choice.quietly_eq_some.1 h).2)
      exact Relational.Table.key_of_find? (Option.filter_eq_some_iff.1 hr).1
  case findSessionById a s =>
    cases r with
    | none => trivial
    | some r =>
      obtain ⟨hr, -⟩ := Prod.mk.inj (Option.some.inj (Choice.quietly_eq_some.1 h).2)
      obtain ⟨hfind, ha⟩ := Option.filter_eq_some_iff.1 hr
      exact ⟨Relational.Table.key_of_find? hfind, by simpa using ha⟩

/-! ## Reading the clock -/

namespace Watch

variable {q : Watch} {t d : Date} {c : NotificationRecord} {r : WhatsAppSessionRecord}

theorem reached_reads (q : Watch) (t : Date) : (q.reads t).Reached t := by
  refine ⟨_, rfl, ?_⟩
  cases q.now with
  | none => exact le_refl t
  | some now => exact le_max_left t now

theorem Reached.of_le {d' : Date} (h : q.Reached d) (hle : d' ≤ d) : q.Reached d' := by
  obtain ⟨now, hnow, hd⟩ := h
  exact ⟨now, hnow, hle.trans hd⟩

theorem Reached.reads (h : q.Reached d) (t : Date) : (q.reads t).Reached d := by
  obtain ⟨now, hnow, hd⟩ := h
  refine ⟨max t now, ?_, hd.trans (le_max_right t now)⟩
  simp only [Watch.reads, hnow, Option.elim_some]

theorem Reads.reads (h : q.Reads c r) (t : Date) : (q.reads t).Reads c r :=
  ⟨h.claimed, h.session, h.id, h.application, h.left⟩

theorem Cleared.reads (h : q.Cleared c r) (t : Date) : (q.reads t).Cleared c r :=
  ⟨h.toReads.reads t, fun p hp => (h.pause p hp).reads t, h.slot⟩

end Watch

/-! ## Conformance of a dispatch -/

/-- From watch `q` the program does what a dispatch may do, and ends as `Q` says. -/
def Watches {α : Type} (q : Watch) (x : Program α) (Q : Watch → α → Prop) : Prop :=
  Conforms watchTypestate Names (.dispatching q) x fun ph a => ∃ q', ph = .dispatching q' ∧ Q q' a

namespace Watches

variable {α β : Type} {q : Watch} {Q : Watch → β → Prop} {c : NotificationRecord}

theorem pure {b : β} (h : Q q b) : Watches q (Pure.pure b) Q := ⟨q, rfl, h⟩

theorem perform {o : Op} {k : o.Ret → Program β} (ho : q.Allows o)
    (hk : ∀ r, Names o r → Watches (q.advance o r) (k r) Q) :
    Watches q (perform o >>= k) Q := ⟨ho, hk⟩

theorem clockNow {f : Date → Program β} (hf : ∀ now, Watches (q.reads now) (f now) Q) :
    Watches q (NotificationPlatform.perform .clockNow >>= f) Q := perform trivial fun now _ => hf now

theorem bind {x : Program α} {f : α → Program β} {R : Watch → α → Prop} (hx : Watches q x R)
    (hf : ∀ q' a, R q' a → Watches q' (f a) Q) : Watches q (x >>= f) Q :=
  Conforms.bind hx fun _ a ⟨q', hq, hr⟩ => hq ▸ hf q' a hr

/-- What mild operations keep of a watch. -/
theorem keeps {x : Program α} {N : Op → Prop} {K : Watch → Prop}
    (hK : ∀ q o, K q → N o → q.Allows o ∧ ∀ r, Names o r → K (q.advance o r)) (hq : K q)
    (hx : x.Uses N) : Watches q x fun q' _ => K q' := by
  refine Conforms.keeps (T := watchTypestate)
    (K := fun ph => ∃ q', ph = WatchPhase.dispatching q' ∧ K q') ?_ ⟨q, rfl, hq⟩ hx
  rintro _ o ⟨q, rfl, hq⟩ ho
  obtain ⟨hallows, hnext⟩ := hK q o hq ho
  exact ⟨hallows, fun r hr => ⟨_, rfl, hnext r hr⟩⟩

/-- Once a row is claimed a dispatch can be ended at any point. -/
theorem ending {x : Program β} (hx : Ending c x) (hc : q.claimed = some c) (hQ : ∀ q b, Q q b) :
    Watches q x Q := by
  have hkeeps : Watches q x fun q' _ => q'.claimed = some c := by
    refine keeps (N := Op.EndsWith c) (K := fun q => q.claimed = some c) ?_ hc hx
    intro q o hc ho
    cases o <;> simp only [Op.EndsWith, Op.Tends, Op.isMild, Bool.false_eq_true, false_or,
      reduceCtorEq, Op.findSessionById.injEq] at ho
    case findSessionById a s =>
      refine ⟨⟨c, hc, ho.1, ho.2⟩, fun r _ => ?_⟩
      cases r <;> exact hc
    case enqueueDispatch => exact ⟨.inl (by rw [hc]; rfl), fun _ _ => hc⟩
    case beginAttempt =>
      refine ⟨trivial, fun r _ => ?_⟩
      cases r <;> exact hc
    all_goals exact ⟨trivial, fun _ _ => hc⟩
  refine Conforms.mono hkeeps ?_
  rintro _ b ⟨q', hq, -⟩
  exact ⟨q', hq, hQ q' b⟩

end Watches

/-! ## The connection -/

section Connection

open DispatchNotificationService ConnectionStateService

variable {configuration : Configuration} {q : Watch} {c : NotificationRecord}
  {r : WhatsAppSessionRecord} {input : DispatchInput}

/-- A dispatch that read its connection, and has not reserved a slot yet. -/
def Looks (q : Watch) (c : NotificationRecord) (r : WhatsAppSessionRecord) : Prop :=
  q.Reads c r ∧ q.slot = none

/-- Mild operations do not change what a dispatch read. -/
theorem Looks.mild {α : Type} {x : Program α} (h : Looks q c r) (hx : Mild x) :
    Watches q x fun q' _ => Looks q' c r := by
  refine Watches.keeps (N := fun o => o.isMild = true) (K := fun q' => Looks q' c r) ?_ h hx
  intro q o h ho
  cases o <;> simp only [Op.isMild, Bool.false_eq_true] at ho
  case clockNow => exact ⟨trivial, fun t _ => ⟨h.1.reads t, h.2⟩⟩
  all_goals exact ⟨trivial, fun _ _ => h⟩

theorem Looks.reread (h : Looks q c r) : Watches q (reread r) fun q' r' => Looks q' c r' := by
  refine Watches.perform ⟨c, h.1.claimed, h.1.application, h.1.id⟩ fun found hfound => .pure ?_
  cases found with
  | none => exact h
  | some r' =>
    exact ⟨⟨h.1.claimed, rfl, hfound.1.trans h.1.id, hfound.2.trans h.1.application, h.1.left⟩,
      h.2⟩

/-- Lifting a pause needs a time it is over at. -/
theorem Looks.settleExpiredPause (h : Looks q c r) :
    Watches q (settleExpiredPause configuration r) fun q' r' => Looks q' c r' := by
  unfold ConnectionStateService.settleExpiredPause
  split
  · exact .pure h
  · rename_i pausedUntil hpause
    refine .clockNow fun now => ?_
    have hnow : Looks (q.reads now) c r := ⟨h.1.reads now, h.2⟩
    split
    · exact .pure hnow
    · rename_i hover
      have hover : pausedUntil ≤ now := not_lt.1 hover
      -- the clock has moved on by the time the pause is lifted
      have hfetch : Watches (q.reads now) (fetchLimits r) fun q' _ =>
          Looks q' c r ∧ q'.Reached pausedUntil := by
        refine Watches.keeps (N := fun o => o.isMild = true)
          (K := fun q' => Looks q' c r ∧ q'.Reached pausedUntil) ?_
          ⟨hnow, (Watch.reached_reads q now).of_le hover⟩ mild_fetchLimits
        rintro q o ⟨h, hr⟩ ho
        cases o <;> simp only [Op.isMild, Bool.false_eq_true] at ho
        case clockNow => exact ⟨trivial, fun t _ => ⟨⟨h.1.reads t, h.2⟩, hr.reads t⟩⟩
        all_goals exact ⟨trivial, fun _ _ => ⟨h, hr⟩⟩
      refine hfetch.bind fun q' limits hq' => ?_
      split
      · exact (hq'.1.mild (mild_record _ _)).bind fun _ _ h => h.reread
      · refine .perform hq'.2 fun _ _ => ?_
        exact (Looks.mild (q := q') hq'.1 (mild_recordEndedPause _)).bind fun _ _ h => h.reread

theorem Looks.prepareToSend (h : Looks q c r) :
    Watches q (prepareToSend configuration r) fun q' r' => Looks q' c r' := by
  refine h.settleExpiredPause.bind fun q' settled h => .clockNow fun now =>
    .perform trivial fun isClaimed _ => ?_
  have hnow : Looks (q'.reads now) c settled := ⟨h.1.reads now, h.2⟩
  change Watches (q'.reads now) _ _
  split
  · refine (hnow.mild mild_refreshedLimits).bind fun q'' limits h => ?_
    split
    · exact h.reread
    · exact (h.mild (mild_record _ _)).bind fun _ _ h => h.reread
  · exact .pure hnow

/-- What `readIsPaused` finds: a pause in force, or that there is none. -/
theorem Looks.readIsPaused (h : Looks q c r) :
    Watches q (readIsPaused r) fun q' paused => Looks q' c r ∧
      (paused = none → ∀ p ∈ r.sendingPausedUntil, q'.Reached p) := by
  unfold DispatchNotificationService.readIsPaused
  split
  · rename_i hpause
    refine .pure ⟨h, fun _ p hp => ?_⟩
    rw [hpause] at hp
    cases hp
  · rename_i pausedUntil hpause
    refine .clockNow fun now => .pure ⟨⟨h.1.reads now, h.2⟩, fun hnone p hp => ?_⟩
    rw [hpause] at hp
    cases hp
    split at hnone
    · cases hnone
    · rename_i hover
      have hover : pausedUntil ≤ now := by simpa [isSendingPaused] using hover
      exact (Watch.reached_reads q now).of_le hover

/-- What the lookup of a recipient leaves: a dispatch still cleared, or one that ended. -/
def Identified (c : NotificationRecord) (r : WhatsAppSessionRecord) (q : Watch) :
    RecipientResult → Prop
  | .chatIdentifier _ => q.Cleared c r
  | .result _ => True

theorem watches_resolveRecipient (h : q.Cleared c r) :
    Watches q (resolveRecipient configuration c r input) (Identified c r) := by
  unfold DispatchNotificationService.resolveRecipient
  split
  · exact .pure h
  · refine .perform ⟨c, r, h, rfl⟩ fun resolved _ => ?_
    -- a lookup that failed ends the dispatch
    have hend : ∀ {x : Program DispatchResult}, Ending c x →
        Watches q (x >>= fun result => Pure.pure (RecipientResult.result result))
          (Identified c r) := fun hx =>
      (Watches.ending (Q := fun _ _ => True) hx h.claimed fun _ _ => trivial).bind
        fun _ _ _ => .pure trivial
    cases resolved with
    | failed failure =>
      simp only
      split
      · have hwait := hend (.bind (@ending_refreshStatus configuration _ _ h.id h.application) fun refreshed =>
            (leaving_waitForConnection configuration c input refreshed).ending)
        rw [bind_assoc] at hwait
        exact hwait
      · split
        · rename_i hretryable
          exact hend (leaving_retry _ _ hretryable _ _).ending
        · rename_i hpermanent
          exact hend (leaving_fail _ _ (Bool.of_not_eq_true hpermanent) _).ending
    | succeeded value =>
      simp only
      split
      · exact .pure h
      · exact hend (leaving_fail _ _ rfl _).ending

/-- Showing "typing…" leaves a dispatch cleared. -/
theorem watches_showTyping {chatIdentifier : String} (h : q.Cleared c r) :
    Watches q (showTyping configuration c r chatIdentifier) fun q' _ => q'.Cleared c r := by
  unfold DispatchNotificationService.showTyping
  split
  · exact .perform trivial fun draw _ => .perform ⟨c, r, h, rfl⟩ fun _ _ => .pure h
  · exact .pure h

theorem watches_deliver {t : Uuid} (h : q.Cleared c r) :
    Watches q (deliver configuration c r t input) fun _ _ => True := by
  refine (watches_resolveRecipient h).bind fun q recipient hq => ?_
  cases recipient with
  | result result => exact .pure trivial
  | chatIdentifier chatIdentifier =>
    refine (watches_showTyping hq).bind fun q _ h => .perform trivial fun aborted _ => ?_
    split
    · exact .clockNow fun now =>
        .ending (leaving_deferQuietly _ _ _ _).ending h.claimed fun _ _ => trivial
    · refine .clockNow fun now => .perform trivial fun attempt _ => ?_
      have h : (q.reads now).Cleared c r := h.reads now
      cases attempt with
      | none => exact .pure trivial
      | some k =>
        simp only
        split
        · exact .ending (leaving_fail _ _ rfl _).ending h.claimed fun _ _ => trivial
        · refine .perform ⟨c, r, h, rfl⟩ fun _ _ => .perform trivial fun result _ => ?_
          cases result with
          | succeeded sent =>
            exact .ending (ending_recordSuccess _ _ _) h.claimed fun _ _ => trivial
          | failed failure =>
            exact .ending (ending_handleSendFailure h.id h.application _ _) h.claimed
              fun _ _ => trivial

theorem watches_deliverThrough {t : Uuid} (h : Looks q c r) :
    Watches q (deliverThrough configuration c r t input) fun _ _ => True := by
  unfold DispatchNotificationService.deliverThrough
  split
  · refine h.prepareToSend.bind fun q ready h => h.readIsPaused.bind fun q paused hq => ?_
    obtain ⟨h, hpause⟩ := hq
    cases paused with
    | some pausedUntil =>
      exact .ending (leaving_waitForPause _ _ _ _).ending h.1.claimed fun _ _ => trivial
    | none =>
      refine .clockNow fun now => ?_
      have hreads : (q.reads now).Reads c ready := h.1.reads now
      refine .perform ⟨h.2, Watch.reached_reads q now, c, ready, hreads, hreads.id⟩ fun slot _ => ?_
      cases slot with
      | some nextSendAllowedAt =>
        exact watches_deliver ⟨⟨hreads.claimed, hreads.session, hreads.id, hreads.application,
          hreads.left⟩, fun p hp => (hpause rfl p hp).reads now, rfl⟩
      | none =>
        refine .perform trivial fun current _ => ?_
        exact .ending (leaving_deferQuietly _ _ _ _).ending hreads.claimed fun _ _ => trivial
  · exact .ending (leaving_waitForConnection _ _ _ _).ending h.1.claimed fun _ _ => trivial

theorem watches_dispatchClaimed {t : Uuid} (hc : q.claimed = some c) (hleft : q.left = false)
    (hslot : q.slot = none) :
    Watches q (dispatchClaimed configuration c t input) fun _ _ => True := by
  refine .clockNow fun now => ?_
  change Watches (q.reads now) (ite _ _ _) _
  split
  · exact .ending (leaving_fail _ _ rfl _).ending hc fun _ _ => trivial
  · refine .perform trivial fun unresolved _ => ?_
    cases unresolved with
    | some attempt =>
      exact .ending (.bind (ending_readUnknownOutcomePolicy _) fun _ =>
        (leaving_resolveUnknownOutcome _ _ _ _ _).ending) hc fun _ _ => trivial
    | none =>
      refine .perform ⟨c, hc, rfl, rfl⟩ fun session hsession => ?_
      cases session with
      | none => exact .ending (leaving_fail _ _ rfl _).ending hc fun _ _ => trivial
      | some r =>
        exact watches_deliverThrough ⟨⟨hc, rfl, hsession.1, hsession.2, hleft⟩, hslot⟩

end Connection

/-! ## The claim -/

section Claim

open DispatchNotificationService

variable {configuration : Configuration} {q : Watch} {input : DispatchInput}

/-- What `claim` leaves: a claimed row, nothing, or a row that is not due yet. -/
def ClaimEnds (q : Watch) : ClaimResult → Prop
  | .claimed c => q.claimed = some c ∧ q.left = false ∧ q.slot = none
  | .not_claimable => True
  | .not_due dueAt _ => ∃ row arrived, q.waiting = some row ∧ row.id = q.input.notificationId ∧
      row.dueAt = some dueAt ∧ q.arrived = some arrived ∧ arrived < dueAt

/-- A dispatch that has read the clock once, and taken no claim. -/
structure Arrived (input : DispatchInput) (now : Date) (q : Watch) : Prop where
  input : q.input = input
  arrived : q.arrived = some now
  claimed : q.claimed = none
  slot : q.slot = none
  left : q.left = false

theorem watches_explainFailedClaim {now : Date} (h : Arrived input now q) :
    Watches q (explainFailedClaim input now) fun q' claim => q'.input = input ∧
      ClaimEnds q' claim := by
  refine .perform ⟨h.claimed, by rw [h.input]⟩ fun existing hid => ?_
  have hnone : ClaimEnds (q.advance (.findNotificationById input.applicationId
      input.notificationId) existing) .not_claimable := trivial
  cases existing with
  | none => exact .pure ⟨h.input, hnone⟩
  | some existing =>
    simp only
    split
    · rename_i d hs hd
      split
      · rename_i hlt
        exact .pure ⟨h.input, existing, now, rfl, hid.trans (by rw [← h.input]; rfl),
          by rw [NotificationRecord.dueAt, hs]; exact hd, h.arrived, hlt⟩
      · exact .pure ⟨h.input, hnone⟩
    · rename_i d hs hd
      split
      · rename_i hlt
        exact .pure ⟨h.input, existing, now, rfl, hid.trans (by rw [← h.input]; rfl),
          by rw [NotificationRecord.dueAt, hs]; exact hd, h.arrived, hlt⟩
      · exact .pure ⟨h.input, hnone⟩
    · exact .pure ⟨h.input, hnone⟩

theorem watches_claim (t : Uuid) : Watches { input } (claim input t) fun q' claim =>
    q'.input = input ∧ ClaimEnds q' claim := by
  refine .clockNow fun now => .perform ⟨rfl, rfl, rfl, rfl⟩ fun promoted _ => ?_
  have hpromotion : Watches (Watch.advance (Watch.reads { input } now)
      (.promoteScheduled input.applicationId input.notificationId now) promoted)
      (recordPromotion input promoted) fun q' _ => Arrived input now q' := by
    cases promoted with
    | none => exact .pure ⟨rfl, rfl, rfl, rfl, rfl⟩
    | some row =>
      exact .perform (k := fun _ => Pure.pure ()) ⟨rfl, rfl⟩ fun _ _ =>
        .pure ⟨rfl, rfl, rfl, rfl, rfl⟩
  refine hpromotion.bind fun q _ h => ?_
  refine .perform ⟨h.claimed, by rw [h.input], by rw [h.input], h.arrived⟩ fun claimed _ => ?_
  cases claimed with
  | some c => exact .pure ⟨h.input, rfl, h.left, h.slot⟩
  | none => exact watches_explainFailedClaim h

theorem watches_dispatch : Watches { input } (dispatch configuration input) fun _ _ => True := by
  refine .perform trivial fun t _ => (watches_claim t).bind ?_
  rintro q claim ⟨hinput, h⟩
  cases claim with
  | claimed c => exact watches_dispatchClaimed h.1 h.2.1 h.2.2
  | not_claimable => exact .pure trivial
  | not_due dueAt reason =>
    obtain ⟨row, arrived, hw, hid, hd, ha, hlt⟩ := h
    exact .perform (.inr ⟨row, dueAt, arrived, hw, hid, hd, ha, hlt, hinput ▸ rfl, rfl⟩)
      fun _ _ => .pure trivial

end Claim

/-! ## The discipline -/

theorem watches_program (configuration : Configuration) (request : Request) :
    Conforms watchTypestate Names (WatchPhase.initial request) (program configuration request)
      fun _ _ => True := by
  by_cases h : ∃ input, request = .dispatch input
  · obtain ⟨input, rfl⟩ := h
    change Conforms _ _ _ (Result.dispatched <$> _) _
    rw [← bind_pure_comp]
    exact Conforms.bind watches_dispatch fun _ _ _ => trivial
  · have hserving : WatchPhase.initial request = .serving := by
      cases request <;> first | rfl | exact absurd ⟨_, rfl⟩ h
    rw [hserving]
    refine Conforms.mono (Conforms.of_uses (T := watchTypestate) (q := WatchPhase.serving)
      (N := fun o : Op => o.isGuarded = false) (fun _ ho => ⟨ho, fun _ => rfl⟩)
      ((unguarded_program configuration fun input hi => h ⟨input, hi⟩).mono fun _ =>
        Op.isGuarded_of_dispatchOnly)) fun _ _ _ => trivial

/-- **Every call of a service knows enough of the time for what it does.** -/
@[reducible] def watchDiscipline (configuration : Configuration) :
    Discipline (platform configuration) where
  toTypestate := watchTypestate
  initial := WatchPhase.initial
  Answers := Names
  Returns := fun _ _ _ => True
  answers_exec := names_exec
  conforms := watches_program configuration

end NotificationPlatform
