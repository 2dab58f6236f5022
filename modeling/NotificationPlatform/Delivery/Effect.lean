import NotificationPlatform.Platform.Machine

/-!
# What one operation does to one notification

The row of a notification and its ledger of send attempts are all that the delivery guarantees are
about. `Effect n` says everything an operation can do to the two, with the guard it did it under and
the answer it gave; `exec_effect` says that nothing else happens. Every invariant of runs is derived
from it.
-/

namespace NotificationPlatform

open Relational

def World.row (w : World) (n : Uuid) : Option NotificationRecord := w.notifications.find? n

/-- The send attempts of a notification, in the order they were begun. -/
def World.ledger (w : World) (n : Uuid) : List SendAttemptRecord :=
  w.sendAttempts.filter (·.notificationId = n)

/-! ## How the world can change -/

/-- Nothing changed but connections, the inbox and the clock. -/
structure Untouched (w w' : World) : Prop where
  notifications : w'.notifications = w.notifications
  notificationEvents : w'.notificationEvents = w.notificationEvents
  sendAttempts : w'.sendAttempts = w.sendAttempts
  applications : w'.applications = w.applications
  dispatchJobs : w'.dispatchJobs = w.dispatchJobs
  identifiers : w'.identifiers = w.identifiers

theorem Untouched.refl (w : World) : Untouched w w := ⟨rfl, rfl, rfl, rfl, rfl, rfl⟩

theorem Untouched.trans {w₁ w₂ w₃ : World} (h : Untouched w₁ w₂) (h' : Untouched w₂ w₃) :
    Untouched w₁ w₃ where
  notifications := h'.notifications.trans h.notifications
  notificationEvents := h'.notificationEvents.trans h.notificationEvents
  sendAttempts := h'.sendAttempts.trans h.sendAttempts
  applications := h'.applications.trans h.applications
  dispatchJobs := h'.dispatchJobs.trans h.dispatchJobs
  identifiers := h'.identifiers.trans h.identifiers

/-- Applications are as they were, and identifiers were only handed out. -/
structure Evolves (w w' : World) : Prop where
  applications : w'.applications = w.applications
  identifiers : w.identifiers ≤ w'.identifiers

/-- Rows and ledgers are as they were. -/
structure Beside (w w' : World) : Prop where
  notifications : w'.notifications = w.notifications
  sendAttempts : w'.sendAttempts = w.sendAttempts

theorem Untouched.evolves {w w' : World} (h : Untouched w w') : Evolves w w' :=
  ⟨h.applications, h.identifiers.ge⟩

theorem Untouched.beside {w w' : World} (h : Untouched w w') : Beside w w' :=
  ⟨h.notifications, h.sendAttempts⟩

instance : IsPreorder World Untouched where
  refl := .refl
  trans _ _ _ := .trans

instance : IsPreorder World Evolves where
  refl _ := ⟨rfl, Nat.le_refl _⟩
  trans _ _ _ h h' := ⟨h'.applications.trans h.applications, h.identifiers.trans h'.identifiers⟩

instance : IsPreorder World Beside where
  refl _ := ⟨rfl, rfl⟩
  trans _ _ _ h h' :=
    ⟨h'.notifications.trans h.notifications, h'.sendAttempts.trans h.sendAttempts⟩

/-- Whatever a statement answers, what it did to the world satisfies `R`. -/
def Does {α : Type} (R : World → World → Prop) (x : Sql α) : Prop :=
  ∀ w a w', x w = some (a, w') → R w w'

namespace Does

variable {α β : Type} {R : World → World → Prop}

theorem mono {S : World → World → Prop} {x : Sql α} (hx : Does R x)
    (hRS : ∀ w w', R w w' → S w w') : Does S x := fun _ _ _ h => hRS _ _ (hx _ _ _ h)

theorem raise : Does R (raise : Sql α) := by
  intro w a w' h
  cases h

theorem quietly {c : Choice} {x : Sql α} (hx : Does R x) : Does R (c.quietly x) := by
  intro w a w' h
  exact hx _ _ _ (Choice.quietly_eq_some.1 h).2

theorem given {chosen : Option β} {x : β → Sql α} (hx : ∀ b, Does R (x b)) :
    Does R (given chosen x) := by
  intro w a w' h
  obtain ⟨b, -, h⟩ := given_eq_some.1 h
  exact hx b _ _ _ h

theorem sending {sent : Parameters} {x : Sql α} (hx : Does R x) : Does R (sending sent x) := by
  intro w a w' h
  exact hx _ _ _ (sending_eq_some.1 h).2

variable [IsPreorder World R]

theorem pure (a : α) : Does R (Pure.pure a : Sql α) := by
  intro w b w' h
  obtain ⟨-, rfl⟩ := Sql.pure_eq_some.1 h
  exact refl_of R _

/-- A read. -/
theorem read (f : World → α) : Does R (fun w => some (f w, w) : Sql α) := by
  intro w a w' h
  cases h
  exact refl_of R _

theorem bind {x : Sql α} {f : α → Sql β} (hx : Does R x) (hf : ∀ a, Does R (f a)) :
    Does R (x >>= f) := by
  intro w b w' h
  obtain ⟨a, w₁, h₁, h₂⟩ := Sql.bind_eq_some.1 h
  exact trans_of R (hx _ _ _ h₁) (hf a _ _ _ h₂)

end Does

/-! ## Statements that leave the delivery tables alone -/

namespace Does

theorem session {id : Uuid} {p : WhatsAppSessionRecord → Bool}
    {f : WhatsAppSessionRecord → WhatsAppSessionRecord} {hf : ∀ r, key (f r) = key r} :
    Does Untouched (WhatsAppSessionRepository.updateOne id p f hf) := by
  intro w a w' h
  cases h
  exact ⟨rfl, rfl, rfl, rfl, rfl, rfl⟩

theorem delivery {id : Uuid} {p : WebhookDeliveryRecord → Bool}
    {f : WebhookDeliveryRecord → WebhookDeliveryRecord} {hf : ∀ r, key (f r) = key r} :
    Does Untouched (WebhookDeliveryRepository.updateOne id p f hf) := by
  intro w a w' h
  cases h
  exact ⟨rfl, rfl, rfl, rfl, rfl, rfl⟩

theorem recordAccountLimits (id : Uuid) (input : WhatsAppSessionRepository.LimitsInput) :
    Does Untouched (WhatsAppSessionRepository.recordAccountLimits id input) := by
  refine .bind ?_ fun stored => .bind (.sending .session) fun _ => .pure _
  unfold WhatsAppSessionRepository.storeLimits
  split
  · exact .pure _
  · exact .raise
  · exact .pure _

theorem integerBetween (c : Choice) (minimum maximum : Nat) :
    Does Untouched (meaning c (.integerBetween minimum maximum)) := by
  refine .given fun draw => ?_
  split
  · exact .pure _
  · exact .raise

end Does

/-- The operations that read the delivery tables, and those of the inbox. -/
def Op.isReadOrInbox : Op → Bool
  | .findNotificationById _ _ | .findByProviderMessageId _ _ | .findStuckClaims _ _ => true
  | .findDueForDispatch _ _ | .findUnresolved _ _ | .findDeliverySettings _ => true
  | .claimForProcessing _ | .markProcessed _ => true
  | _ => false

/-- The two halves of a send. -/
def Op.isSend : Op → Bool
  | .sendTextMessage _ _ _ | .sendTextMessageAnswer => true
  | _ => false

/-- The operations that leave the delivery tables alone. -/
def Op.isAside (o : Op) : Bool := o.isConnectionOp || o.isReadOrInbox || o.isSend

theorem untouched_meaning (c : Choice) {o : Op} (ho : o.isAside = true) :
    Does Untouched (meaning c o) := by
  cases o <;> simp only [Op.isAside, Op.isConnectionOp, Op.isReadOrInbox, Op.isSend,
    Bool.or_self, Bool.false_eq_true] at ho
  case clockNow => exact .given .pure
  case integerBetween minimum maximum => exact .integerBetween c minimum maximum
  case isAborted => exact .given .pure
  case throwException => exact .raise
  case findNotificationById => exact .quietly (.read _)
  case findByProviderMessageId => exact .quietly (.read _)
  case findStuckClaims => exact .quietly (.read _)
  case findDueForDispatch => exact .quietly (.read _)
  case findUnresolved => exact .quietly (.read _)
  case findDeliverySettings => exact .quietly (.read _)
  case findSessionById => exact .quietly (.read _)
  case findSessionByIdWithoutTenantScope => exact .quietly (.read _)
  case recordStatus => exact .quietly (.bind (.sending .session) fun _ => .pure _)
  case claimAccountLimitsRefresh => exact .quietly (.bind .session fun _ => .pure _)
  case invalidateAccountLimits => exact .quietly (.bind .session fun _ => .pure _)
  case recordAccountLimits id input => exact .quietly (.recordAccountLimits id input)
  case endSendingPause => exact .quietly (.bind .session fun _ => .pure _)
  case reserveSlot =>
    exact .given fun _ => .bind (.read _) fun _ => .bind .session fun _ => .pure _
  case readNextSendAllowedAt => exact .quietly (.read _)
  case claimForProcessing => exact .quietly .delivery
  case markProcessed => exact .quietly (.bind .delivery fun _ => .pure _)
  case resolveRecipient => exact .given .pure
  case showTyping => exact .quietly (.pure _)
  case sendTextMessage => exact .quietly (.pure _)
  case sendTextMessageAnswer => exact .given .pure
  case fetchAccountLimits => exact .given .pure
  case getSession => exact .given .pure

theorem Untouched.row {w w' : World} (h : Untouched w w') (n : Uuid) : w'.row n = w.row n := by
  unfold World.row
  rw [h.notifications]

theorem Untouched.ledger {w w' : World} (h : Untouched w w') (n : Uuid) :
    w'.ledger n = w.ledger n := by
  unfold World.ledger
  rw [h.sendAttempts]

/-! ## Conditional updates of one row -/

/-- The row `id` was changed from `old` to `new`, and nothing else. -/
structure Written (w w' : World) (id : Uuid) (old new : NotificationRecord) : Prop where
  before : w.row id = some old
  after : w'.row id = some new
  others : ∀ n, n ≠ id → w'.row n = w.row n
  accepted : acceptsWrite w old new = true
  rest : w' = { w with notifications := w'.notifications }

section UpdateOne

variable {id : Uuid} {p : NotificationRecord → Bool} {f : NotificationRecord → NotificationRecord}
  {hf : ∀ r, key (f r) = key r} {w w' : World}

theorem updateOne_some {new : NotificationRecord}
    (h : NotificationRepository.updateOne id p f hf w = some (some new, w')) :
    ∃ old, p old = true ∧ new = f old ∧ Written w w' id old new := by
  unfold NotificationRepository.updateOne at h
  split at h
  · cases h
  · rename_i old hold
    split at h
    · rename_i hp
      split at h
      · rename_i haccepts
        cases h
        refine ⟨old, hp, rfl, ⟨hold, ?_, fun n hn => ?_, haccepts, rfl⟩⟩
        · simp only [World.row, Table.find?_update, hold, Option.map_some]
          simp [Table.key_of_find? hold, hp]
        · simp only [World.row, Table.find?_update]
          cases hr : w.notifications.find? n with
          | none => rfl
          | some r =>
            have hid : r.id = n := Table.key_of_find? hr
            simp [hid, hn]
      · cases h
    · cases h

theorem updateOne_none (h : NotificationRepository.updateOne id p f hf w = some (none, w')) :
    w' = w ∧ ∀ r, w.row id = some r → p r = false := by
  unfold NotificationRepository.updateOne at h
  split at h
  · rename_i hnone
    cases h
    exact ⟨rfl, fun r hr => by rw [World.row, hnone] at hr; cases hr⟩
  · rename_i old hold
    split at h
    · split at h <;> cases h
    · rename_i hp
      cases h
      refine ⟨rfl, fun r hr => ?_⟩
      rw [World.row, hold] at hr
      cases hr
      simpa using hp

end UpdateOne

/-- A transition was applied to the row it names. -/
structure Transitioned (w w' : World) (t : TransitionInput) (old : NotificationRecord) : Prop where
  before : w.row t.notificationId = some old
  application : old.applicationId = t.applicationId
  status : old.status = t.expectedStatus
  after : w'.row t.notificationId = some (t.apply old)
  others : ∀ n, n ≠ t.notificationId → w'.row n = w.row n

theorem applyTransition_some {t : TransitionInput} {w w' : World} {new : NotificationRecord}
    (h : NotificationRepository.applyTransition t w = some (some new, w')) :
    ∃ old, new = t.apply old ∧ Transitioned w w' t old ∧
      w' = { w with notifications := w'.notifications } := by
  obtain ⟨old, hp, rfl, hw⟩ := updateOne_some (sending_eq_some.1 h).2
  simp only [Bool.decide_and, Bool.and_eq_true, decide_eq_true_eq] at hp
  exact ⟨old, rfl, ⟨hw.before, hp.1, hp.2, hw.after, hw.others⟩, hw.rest⟩

/-- An update of zero rows: the row is not in the status the caller observed. -/
structure Missed (w w' : World) (t : TransitionInput) : Prop where
  world : w' = w
  zeroRows : ∀ r, w.row t.notificationId = some r → r.applicationId = t.applicationId →
    r.status ≠ t.expectedStatus

theorem applyTransition_none {t : TransitionInput} {w w' : World}
    (h : NotificationRepository.applyTransition t w = some (none, w')) : Missed w w' t := by
  obtain ⟨rfl, hp⟩ := updateOne_none (sending_eq_some.1 h).2
  refine ⟨rfl, fun r hr ha hs => ?_⟩
  have := hp r hr
  simp [ha, hs] at this

theorem Transitioned.beside {t : TransitionInput} {w w₁ w' : World} {old : NotificationRecord}
    (h : Transitioned w w₁ t old) (hb : w'.notifications = w₁.notifications) :
    Transitioned w w' t old where
  before := h.before
  application := h.application
  status := h.status
  after := by
    unfold World.row
    rw [hb]
    exact h.after
  others := fun n hn => by
    unfold World.row
    rw [hb]
    exact h.others n hn

/-! ## Statements that go along with an update -/

theorem beside_appendEvent (input : NotificationEventInput) :
    Does Beside (NotificationRepository.appendEvent input) := by
  intro w a w' h
  cases h
  exact ⟨rfl, rfl⟩

theorem beside_appendEvents (inputs : List NotificationEventInput) :
    Does Beside (NotificationRepository.appendEvents inputs) := by
  induction inputs with
  | nil => exact .pure _
  | cons input inputs ih => exact .bind (beside_appendEvent input) fun _ => ih

theorem beside_enqueueDispatch (job : DispatchJob) : Does Beside (enqueueDispatch job) := by
  intro w a w' h
  unfold enqueueDispatch at h
  split at h <;> cases h <;> exact ⟨rfl, rfl⟩

/-! ## The transactions -/

theorem promoteScheduled_some {a n : Uuid} {now : Date} {w w' : World} {new : NotificationRecord}
    (h : NotificationRepository.promoteScheduled a n now w = some (some new, w')) :
    ∃ old, old.status = .SCHEDULED ∧ new = { old with status := .QUEUED, updatedAt := now } ∧
      Written w w' n old new := by
  obtain ⟨old, hp, rfl, hw⟩ := updateOne_some (sending_eq_some.1 h).2
  simp only [Bool.decide_and, Bool.and_eq_true, decide_eq_true_eq] at hp
  exact ⟨old, hp.2.1, rfl, hw⟩

theorem claimForDispatch_some {a n t : Uuid} {now : Date} {w w' : World}
    {new : NotificationRecord}
    (h : NotificationRepository.claimForDispatch a n t now w = some (some new, w')) :
    ∃ old, old.applicationId = a ∧ NotificationRepository.isClaimable old now = true ∧
      new = { old with status := .PROCESSING, claimToken := some t, claimedAt := some now,
                       updatedAt := now } ∧ Written w w' n old new := by
  obtain ⟨old, hp, rfl, hw⟩ := updateOne_some (sending_eq_some.1 h).2
  simp only [Bool.decide_and, Bool.and_eq_true, decide_eq_true_eq, Bool.decide_eq_true] at hp
  exact ⟨old, hp.1, hp.2, rfl, hw⟩

theorem begin_eq_some {input : NotificationSendAttemptRepository.BeginSendAttemptInput}
    {w w' : World} {u : Unit}
    (h : NotificationSendAttemptRepository.begin input w = some (u, w')) :
    w' = { w with identifiers := w.identifiers + 1
                  sendAttempts := w.sendAttempts ++ [input.row w.identifiers] } := by
  obtain ⟨id, w₁, h₁, h⟩ := Sql.bind_eq_some.1 h
  cases h₁
  obtain ⟨_, _, h₂, h⟩ := Sql.bind_eq_some.1 h
  cases h₂
  split at h
  · cases h
  · cases h
    rfl

/-- The ledger row of a new attempt. -/
def NotificationRepository.BeginAttemptInput.attempt (input : BeginAttemptInput) (attemptNumber : Nat) (id : Uuid) :
    SendAttemptRecord :=
  NotificationSendAttemptRepository.BeginSendAttemptInput.row {
    applicationId := input.applicationId
    notificationId := input.notificationId
    attemptNumber
    requestStartedAt := input.now } id

theorem beginAttempt_some {input : BeginAttemptInput} {w w' : World} {k : Nat}
    (h : beginAttemptTransaction input w = some (some k, w')) :
    ∃ old, old.applicationId = input.applicationId ∧ old.claimToken = some input.claimToken ∧
      old.status = .PROCESSING ∧ k = old.attemptCount + 1 ∧
      w.row input.notificationId = some old ∧
      w'.row input.notificationId = some { old with
        attemptCount := old.attemptCount + 1
        recipientChatIdentifier := some input.recipientChatIdentifier
        updatedAt := input.now } ∧
      (∀ n, n ≠ input.notificationId → w'.row n = w.row n) ∧
      w'.sendAttempts = w.sendAttempts ++ [input.attempt k w.identifiers] := by
  obtain ⟨x, w₁, h₁, h⟩ := Sql.bind_eq_some.1 h
  obtain ⟨updated, w₂, h₂, h₁⟩ := Sql.bind_eq_some.1 h₁
  obtain ⟨rfl, rfl⟩ := Sql.pure_eq_some.1 h₁
  cases updated with
  | none => cases h
  | some new =>
    obtain ⟨old, hp, rfl, hw⟩ := updateOne_some (sending_eq_some.1 h₂).2
    simp only [Bool.decide_and, Bool.and_eq_true, decide_eq_true_eq] at hp
    obtain ⟨_, w₂, h₂, h⟩ := Sql.bind_eq_some.1 h
    obtain ⟨hk, rfl⟩ := Sql.pure_eq_some.1 h
    cases hk
    have hrest := hw.rest
    have hb := begin_eq_some h₂
    refine ⟨old, hp.1, hp.2.1, hp.2.2, rfl, hw.before, ?_, ?_, ?_⟩
    · rw [hb]
      exact hw.after
    · rw [hb]
      exact hw.others
    · rw [hb, hrest]
      rfl

theorem beginAttempt_none {input : BeginAttemptInput} {w w' : World}
    (h : beginAttemptTransaction input w = some (none, w')) : w' = w := by
  obtain ⟨x, w₁, h₁, h⟩ := Sql.bind_eq_some.1 h
  obtain ⟨updated, w₂, h₂, h₁⟩ := Sql.bind_eq_some.1 h₁
  obtain ⟨rfl, rfl⟩ := Sql.pure_eq_some.1 h₁
  cases updated with
  | none =>
    obtain ⟨-, rfl⟩ := Sql.pure_eq_some.1 h
    exact (updateOne_none (sending_eq_some.1 h₂).2).1
  | some new =>
    obtain ⟨_, _, _, h⟩ := Sql.bind_eq_some.1 h
    obtain ⟨hk, -⟩ := Sql.pure_eq_some.1 h
    cases hk

theorem recordSent_true {input : RecordSentInput} {w w' : World}
    (h : recordSent input w = some (true, w')) :
    ∃ old, Transitioned w w' input.transition old ∧
      w'.sendAttempts = w.sendAttempts.map input.resolution.apply := by
  obtain ⟨transitioned, w₁, h₁, h⟩ := Sql.bind_eq_some.1 h
  cases transitioned with
  | none => cases h
  | some new =>
    obtain ⟨old, -, ht, hrest⟩ := applyTransition_some h₁
    obtain ⟨_, w₂, h₂, h⟩ := Sql.bind_eq_some.1 h
    cases h₂
    obtain ⟨_, w₃, h₃, h⟩ := Sql.bind_eq_some.1 h
    obtain ⟨-, rfl⟩ := Sql.pure_eq_some.1 h
    have hb := beside_appendEvent _ _ _ _ h₃
    refine ⟨old, ht.beside hb.notifications, ?_⟩
    rw [hb.sendAttempts, hrest]

theorem recordSent_false {input : RecordSentInput} {w w' : World}
    (h : recordSent input w = some (false, w')) : Missed w w' input.transition := by
  obtain ⟨transitioned, w₁, h₁, h⟩ := Sql.bind_eq_some.1 h
  cases transitioned with
  | none =>
    obtain ⟨-, rfl⟩ := Sql.pure_eq_some.1 h
    exact applyTransition_none h₁
  | some new =>
    obtain ⟨_, _, _, h⟩ := Sql.bind_eq_some.1 h
    obtain ⟨_, _, _, h⟩ := Sql.bind_eq_some.1 h
    cases (Sql.pure_eq_some.1 h).1

section Conditional

variable {t : TransitionInput} {α : Type} {negative : α} {rest : NotificationRecord → Sql α}
  {w w' : World} {r : α}

/-- The transactions that do nothing unless their update changes the row: either zero rows and the
negative answer, or the transition and what goes along with it. -/
theorem conditional_cases (hrest : ∀ new, Does Beside (rest new))
    (h : (NotificationRepository.applyTransition t >>= fun transitioned =>
      match transitioned with
      | none => pure negative
      | some new => rest new) w = some (r, w')) :
    (r = negative ∧ Missed w w' t) ∨ (∃ old w₁, Transitioned w w' t old ∧
      w'.sendAttempts = w.sendAttempts ∧ rest (t.apply old) w₁ = some (r, w')) := by
  obtain ⟨transitioned, w₁, h₁, h⟩ := Sql.bind_eq_some.1 h
  cases transitioned with
  | none =>
    obtain ⟨hr, rfl⟩ := Sql.pure_eq_some.1 h
    exact .inl ⟨hr, applyTransition_none h₁⟩
  | some new =>
    obtain ⟨old, rfl, ht, hw₁⟩ := applyTransition_some h₁
    have hb := hrest _ _ _ _ h
    refine .inr ⟨old, w₁, ht.beside hb.notifications, ?_, h⟩
    rw [hb.sendAttempts, hw₁]

end Conditional

theorem deferTransition_cases {input : DeferInput} {w w' : World} {r : Bool}
    (h : deferTransition input w = some (r, w')) :
    (r = false ∧ Missed w w' input.transition) ∨
      (r = true ∧ ∃ old, Transitioned w w' input.transition old ∧
        w'.sendAttempts = w.sendAttempts) := by
  rcases conditional_cases (fun _ => .bind (beside_enqueueDispatch _) fun _ => .pure _) h with
    hn | ⟨old, w₁, ht, hs, hr⟩
  · exact .inl hn
  · obtain ⟨_, _, _, hr⟩ := Sql.bind_eq_some.1 hr
    exact .inr ⟨(Sql.pure_eq_some.1 hr).1, old, ht, hs⟩

theorem beside_enqueue (step : TransitionStep) (n : NotificationRecord) :
    Does Beside (step.enqueue n) := by
  unfold TransitionStep.enqueue
  split
  · exact .pure _
  · exact .bind (beside_enqueueDispatch _) fun _ => .pure _

theorem transitionAndRecord_cases {n : NotificationRecord} {step : TransitionStep} {w w' : World}
    {r : Bool} (h : transitionAndRecord n step w = some (r, w')) :
    (r = false ∧ Missed w w' (step.transition n)) ∨
      (r = true ∧ ∃ old, Transitioned w w' (step.transition n) old ∧
        w'.sendAttempts = w.sendAttempts) := by
  rcases conditional_cases (fun _ => .bind (beside_appendEvent _) fun _ =>
    .bind (beside_enqueue step n) fun _ => .pure _) h with hn | ⟨old, w₁, ht, hs, hr⟩
  · exact .inl hn
  · obtain ⟨_, _, _, hr⟩ := Sql.bind_eq_some.1 hr
    obtain ⟨_, _, _, hr⟩ := Sql.bind_eq_some.1 hr
    exact .inr ⟨(Sql.pure_eq_some.1 hr).1, old, ht, hs⟩

theorem releaseClaim_cases {n : NotificationRecord} {now : Date} {w w' : World} {r : Bool}
    (h : releaseClaim n now w = some (r, w')) : (r = false ∧ Missed w w' (n.release now)) ∨
      (r = true ∧ ∃ old, Transitioned w w' (n.release now) old ∧
        w'.sendAttempts = w.sendAttempts) := by
  rcases conditional_cases (fun _ => .bind (beside_appendEvent _) fun _ =>
    .bind (beside_enqueueDispatch _) fun _ => .pure _) h with hn | ⟨old, w₁, ht, hs, hr⟩
  · exact .inl hn
  · obtain ⟨_, _, _, hr⟩ := Sql.bind_eq_some.1 hr
    obtain ⟨_, _, _, hr⟩ := Sql.bind_eq_some.1 hr
    exact .inr ⟨(Sql.pure_eq_some.1 hr).1, old, ht, hs⟩

theorem cancelTransition_cases {input : CancelInput} {w w' : World}
    {r : Option NotificationRecord} (h : cancelTransition input w = some (r, w')) :
    (r = none ∧ Missed w w' input.transition) ∨ (∃ old, r = some (input.transition.apply old) ∧
      Transitioned w w' input.transition old ∧ w'.sendAttempts = w.sendAttempts) := by
  rcases conditional_cases (fun _ => .bind (beside_appendEvent _) fun _ => .pure _) h with
    hn | ⟨old, w₁, ht, hs, hr⟩
  · exact .inl hn
  · obtain ⟨_, _, _, hr⟩ := Sql.bind_eq_some.1 hr
    exact .inr ⟨old, (Sql.pure_eq_some.1 hr).1, ht, hs⟩

theorem acknowledgementTransition_cases {input : AcknowledgementInput} {w w' : World} {r : Bool}
    (h : acknowledgementTransition input w = some (r, w')) :
    (r = false ∧ Missed w w' input.transition) ∨
      (r = true ∧ ∃ old, Transitioned w w' input.transition old ∧
        w'.sendAttempts = w.sendAttempts) := by
  rcases conditional_cases (fun _ => .bind (beside_appendEvent _) fun _ => .pure _) h with
    hn | ⟨old, w₁, ht, hs, hr⟩
  · exact .inl hn
  · obtain ⟨_, _, _, hr⟩ := Sql.bind_eq_some.1 hr
    exact .inr ⟨(Sql.pure_eq_some.1 hr).1, old, ht, hs⟩

/-! ## `cancelWaiting` -/

/-- The row a bulk cancellation leaves behind. -/
def NotificationRecord.cancel (r : NotificationRecord) (now : Date) : NotificationRecord :=
  { r with status := .CANCELLED, cancelledAt := some now, updatedAt := now, nextAttemptAt := none }

theorem cancelWaiting_row {input : CancelWaitingInput} {locked : List Uuid} {w w' : World}
    {r : List (Uuid × NotificationStatus)}
    (h : cancelWaitingTransition input locked w = some (r, w')) (n : Uuid) :
    w'.sendAttempts = w.sendAttempts ∧
      ((w'.row n = w.row n ∧ n ∉ r.map (·.1)) ∨ ∃ old, w.row n = some old ∧
        (old.status = .QUEUED ∨ old.status = .RETRYING) ∧
        w'.row n = some (old.cancel input.now)) := by
  obtain ⟨cancelled, w₁, h₁, h⟩ := Sql.bind_eq_some.1 h
  obtain ⟨_, w₂, h₂, h⟩ := Sql.bind_eq_some.1 h
  obtain ⟨rfl, rfl⟩ := Sql.pure_eq_some.1 h
  have hb := beside_appendEvents _ _ _ _ h₂
  unfold NotificationRepository.cancelWaiting at h₁
  dsimp only at h₁
  replace h₁ := (sending_eq_some.1 h₁).2
  split at h₁ <;> cases h₁
  refine ⟨by rw [hb.sendAttempts], ?_⟩
  simp only [World.row, hb.notifications, Table.find?_update]
  cases hr : w.notifications.find? n with
  | none =>
    refine .inl ⟨rfl, ?_⟩
    simp only [List.map_map, List.mem_map, Function.comp, not_exists, not_and]
    intro old hold hid
    rw [← hid, ← key_notification old, Table.find?_key (Table.mem_select.1 hold).1] at hr
    cases hr
  | some old =>
    have hid : old.id = n := Table.key_of_find? hr
    simp only [Option.map_some]
    split
    · rename_i hp
      simp only [Bool.decide_and, Bool.and_eq_true, decide_eq_true_eq] at hp
      exact .inr ⟨old, rfl, by simpa using hp.2.1, rfl⟩
    · rename_i hp
      refine .inl ⟨rfl, ?_⟩
      simp only [List.map_map, List.mem_map, Function.comp, not_exists, not_and]
      intro old' hold' hid'
      have hmem := Table.mem_select.1 hold'
      have hfind := Table.find?_key hmem.1
      rw [key_notification, hid', hr] at hfind
      cases hfind
      exact hp hmem.2

/-! ## The effect of an operation -/

/-- The operation, as it was answered, did nothing to notification `n`. -/
def Idle (n : Uuid) : (o : Op) → o.Ret → Prop
  | .claimForDispatch _ m _ _, some _ => m ≠ n
  | .beginAttempt input, some _ => input.notificationId ≠ n
  | .recordSent input, true => input.notification.id ≠ n
  | .deferTransition input, true => input.notification.id ≠ n
  | .transitionAndRecord notification _, true => notification.id ≠ n
  | .releaseClaim notification _, true => notification.id ≠ n
  | .cancelTransition input, some _ => input.notificationId ≠ n
  | .cancelWaitingTransition _, cancelled => n ∉ cancelled.map (·.1)
  | .acknowledgementTransition input, true => input.notification.id ≠ n
  | .resolveAttempt input, _ => input.notificationId ≠ n
  | _, _ => True

/-- What an operation did to the row and the ledger of notification `n`. -/
inductive Effect (n : Uuid) (w w' : World) : (o : Op) → o.Ret → Prop where
  | kept {o : Op} {r : o.Ret} (row : w'.row n = w.row n) (ledger : w'.ledger n = w.ledger n)
      (idle : Idle n o r) : Effect n w w' o r
  | promoted {a : Uuid} {now : Date} {old : NotificationRecord} (before : w.row n = some old)
      (status : old.status = .SCHEDULED)
      (after : w'.row n = some { old with status := .QUEUED, updatedAt := now })
      (ledger : w'.ledger n = w.ledger n) :
      Effect n w w' (.promoteScheduled a n now)
        (some { old with status := .QUEUED, updatedAt := now })
  | claimed {a t : Uuid} {now : Date} {old new : NotificationRecord} (before : w.row n = some old)
      (application : old.applicationId = a)
      (claimable : NotificationRepository.isClaimable old now = true)
      (new_eq : new = { old with status := .PROCESSING, claimToken := some t,
                                 claimedAt := some now, updatedAt := now })
      (after : w'.row n = some new) (ledger : w'.ledger n = w.ledger n) :
      Effect n w w' (.claimForDispatch a n t now) (some new)
  | begun {input : BeginAttemptInput} {old : NotificationRecord} {k id : Nat}
      (names : input.notificationId = n) (before : w.row n = some old)
      (application : old.applicationId = input.applicationId)
      (token : old.claimToken = some input.claimToken) (status : old.status = .PROCESSING)
      (number : k = old.attemptCount + 1)
      (after : w'.row n = some { old with
        attemptCount := old.attemptCount + 1
        recipientChatIdentifier := some input.recipientChatIdentifier
        updatedAt := input.now })
      (ledger : w'.ledger n = w.ledger n ++ [input.attempt k id]) :
      Effect n w w' (.beginAttempt input) (some k)
  | sent {input : RecordSentInput} {old : NotificationRecord} (names : input.notification.id = n)
      (moved : Transitioned w w' input.transition old)
      (ledger : w'.ledger n = (w.ledger n).map input.resolution.apply) :
      Effect n w w' (.recordSent input) true
  | deferred {input : DeferInput} {old : NotificationRecord} (names : input.notification.id = n)
      (moved : Transitioned w w' input.transition old) (ledger : w'.ledger n = w.ledger n) :
      Effect n w w' (.deferTransition input) true
  | transitioned {notification : NotificationRecord} {step : TransitionStep}
      {old : NotificationRecord} (names : notification.id = n)
      (moved : Transitioned w w' (step.transition notification) old)
      (ledger : w'.ledger n = w.ledger n) :
      Effect n w w' (.transitionAndRecord notification step) true
  | released {notification : NotificationRecord} {now : Date} {old : NotificationRecord}
      (names : notification.id = n) (moved : Transitioned w w' (notification.release now) old)
      (ledger : w'.ledger n = w.ledger n) :
      Effect n w w' (.releaseClaim notification now) true
  | cancelled {input : CancelInput} {old : NotificationRecord} (names : input.notificationId = n)
      (moved : Transitioned w w' input.transition old) (ledger : w'.ledger n = w.ledger n) :
      Effect n w w' (.cancelTransition input) (some (input.transition.apply old))
  | cancelledWaiting {input : CancelWaitingInput} {r : List (Uuid × NotificationStatus)}
      {old : NotificationRecord} (before : w.row n = some old)
      (status : old.status = .QUEUED ∨ old.status = .RETRYING)
      (after : w'.row n = some (old.cancel input.now)) (ledger : w'.ledger n = w.ledger n) :
      Effect n w w' (.cancelWaitingTransition input) r
  | acknowledged {input : AcknowledgementInput} {old : NotificationRecord}
      (names : input.notification.id = n) (moved : Transitioned w w' input.transition old)
      (ledger : w'.ledger n = w.ledger n) :
      Effect n w w' (.acknowledgementTransition input) true
  | resolved {input : ResolveSendAttemptInput} (names : input.notificationId = n)
      (row : w'.row n = w.row n) (ledger : w'.ledger n = (w.ledger n).map input.apply) :
      Effect n w w' (.resolveAttempt input) ()

theorem ledger_eq {w w' : World} (h : w'.sendAttempts = w.sendAttempts) (n : Uuid) :
    w'.ledger n = w.ledger n := by
  unfold World.ledger
  rw [h]

@[simp] theorem apply_notificationId (input : ResolveSendAttemptInput) (a : SendAttemptRecord) :
    (input.apply a).notificationId = a.notificationId := by
  unfold NotificationSendAttemptRepository.ResolveSendAttemptInput.apply
  split <;> rfl

theorem apply_of_not_concerns {input : ResolveSendAttemptInput} {a : SendAttemptRecord}
    (h : input.concerns a = false) : input.apply a = a := by
  unfold NotificationSendAttemptRepository.ResolveSendAttemptInput.apply
  rw [h]
  rfl

/-- Resolving acts on every ledger, and leaves those of other notifications as they are. -/
theorem ledger_resolved {input : ResolveSendAttemptInput} {w w' : World}
    (h : w'.sendAttempts = w.sendAttempts.map input.apply) (n : Uuid) :
    w'.ledger n = (w.ledger n).map input.apply ∧
      (input.notificationId ≠ n → w'.ledger n = w.ledger n) := by
  have hmap : w'.ledger n = (w.ledger n).map input.apply := by
    unfold World.ledger
    rw [h, List.filter_map]
    congr 1
    refine List.filter_congr fun a _ => ?_
    simp only [Function.comp, apply_notificationId]
  refine ⟨hmap, fun hn => ?_⟩
  rw [hmap]
  conv_rhs => rw [← List.map_id (w.ledger n)]
  refine List.map_congr_left fun a ha => apply_of_not_concerns ?_
  have hid : a.notificationId = n := by simpa using (List.mem_filter.1 ha).2
  simp only [NotificationSendAttemptRepository.ResolveSendAttemptInput.concerns]
  simp [hid, Ne.symm hn]

theorem Effect.of_beside {n : Uuid} {w w' : World} {o : Op} {r : o.Ret} (h : Beside w w')
    (hi : Idle n o r) : Effect n w w' o r :=
  .kept (by unfold World.row; rw [h.notifications]) (ledger_eq h.sendAttempts n) hi

theorem effect_promoteScheduled {a m : Uuid} {now : Date} {w w' : World}
    {r : Option NotificationRecord}
    (h : NotificationRepository.promoteScheduled a m now w = some (r, w')) (n : Uuid) :
    Effect n w w' (.promoteScheduled a m now) r := by
  cases r with
  | none =>
    obtain rfl := (updateOne_none (sending_eq_some.1 h).2).1
    exact .kept rfl rfl trivial
  | some new =>
    obtain ⟨old, hs, rfl, hw⟩ := promoteScheduled_some h
    have hl : w'.ledger n = w.ledger n := ledger_eq (by rw [hw.rest]) n
    by_cases hn : n = m
    · subst hn
      exact .promoted hw.before hs hw.after hl
    · exact .kept (hw.others n hn) hl trivial

theorem effect_claimForDispatch {a m t : Uuid} {now : Date} {w w' : World}
    {r : Option NotificationRecord}
    (h : NotificationRepository.claimForDispatch a m t now w = some (r, w')) (n : Uuid) :
    Effect n w w' (.claimForDispatch a m t now) r := by
  cases r with
  | none =>
    obtain rfl := (updateOne_none (sending_eq_some.1 h).2).1
    exact .kept rfl rfl trivial
  | some new =>
    obtain ⟨old, ha, hc, hnew, hw⟩ := claimForDispatch_some h
    have hl : w'.ledger n = w.ledger n := ledger_eq (by rw [hw.rest]) n
    by_cases hn : n = m
    · subst hn
      exact .claimed hw.before ha hc hnew hw.after hl
    · exact .kept (hw.others n hn) hl (Ne.symm hn)

theorem effect_beginAttempt {input : BeginAttemptInput} {w w' : World} {r : Option Nat}
    (h : beginAttemptTransaction input w = some (r, w')) (n : Uuid) :
    Effect n w w' (.beginAttempt input) r := by
  cases r with
  | none =>
    obtain rfl := beginAttempt_none h
    exact .kept rfl rfl trivial
  | some k =>
    obtain ⟨old, ha, ht, hs, hk, hb, haf, ho, hl⟩ := beginAttempt_some h
    by_cases hn : input.notificationId = n
    · subst hn
      have hledger : w'.ledger input.notificationId =
          w.ledger input.notificationId ++ [input.attempt k w.identifiers] := by
        unfold World.ledger
        rw [hl, List.filter_append]
        congr 1
        exact List.filter_cons_of_pos (by simp; rfl)
      exact .begun rfl hb ha ht hs hk haf hledger
    · refine .kept (ho n (Ne.symm hn)) ?_ hn
      unfold World.ledger
      rw [hl, List.filter_append, List.append_right_eq_self]
      have ha : (input.attempt k w.identifiers).notificationId ≠ n := hn
      exact List.filter_cons_of_neg (by simpa using ha)

theorem effect_recordSent {input : RecordSentInput} {w w' : World} {r : Bool}
    (h : recordSent input w = some (r, w')) (n : Uuid) : Effect n w w' (.recordSent input) r := by
  cases r with
  | false =>
    obtain rfl := (recordSent_false h).world
    exact .kept rfl rfl trivial
  | true =>
    obtain ⟨old, ht, hl⟩ := recordSent_true h
    obtain ⟨hmap, hkept⟩ := ledger_resolved hl n
    by_cases hn : input.notification.id = n
    · exact .sent hn ht hmap
    · exact .kept (ht.others n (Ne.symm hn)) (hkept hn) hn

theorem effect_cancelTransition {input : CancelInput} {w w' : World}
    {r : Option NotificationRecord} (h : cancelTransition input w = some (r, w')) (n : Uuid) :
    Effect n w w' (.cancelTransition input) r := by
  rcases cancelTransition_cases h with ⟨rfl, hm⟩ | ⟨old, rfl, ht, hs⟩
  · obtain rfl := hm.world
    exact .kept rfl rfl trivial
  · by_cases hn : input.notificationId = n
    · exact .cancelled hn ht (ledger_eq hs n)
    · exact .kept (ht.others n (Ne.symm hn)) (ledger_eq hs n) hn

theorem effect_resolveAttempt {input : ResolveSendAttemptInput} {w w' : World} {r : Unit}
    (h : NotificationSendAttemptRepository.resolve input w = some (r, w')) (n : Uuid) :
    Effect n w w' (.resolveAttempt input) r := by
  have hl : w'.sendAttempts = w.sendAttempts.map input.apply := by
    cases h
    rfl
  have hrow : w'.row n = w.row n := by
    cases h
    rfl
  obtain ⟨hmap, hkept⟩ := ledger_resolved hl n
  by_cases hn : input.notificationId = n
  · exact .resolved hn hrow hmap
  · exact .kept hrow (hkept hn) hn

/-- **What an operation can do to a notification.** -/
theorem exec_effect {w w' : World} {o : Op} {c : Choice} {r : o.Ret}
    (h : exec w o c = some (r, w')) (n : Uuid) : Effect n w w' o r := by
  by_cases ho : o.isAside = true
  · have hb := (untouched_meaning c ho _ _ _ h).beside
    refine .of_beside hb ?_
    cases o <;> trivial
  cases o <;> simp only [Op.isAside, Op.isConnectionOp, Op.isReadOrInbox, Op.isSend, Bool.or_true,
    Bool.or_false, not_true_eq_false] at ho
  case randomUuid =>
    cases (Choice.quietly_eq_some.1 h).2
    exact .kept rfl rfl trivial
  case promoteScheduled => exact effect_promoteScheduled (Choice.quietly_eq_some.1 h).2 n
  case appendEvent input =>
    exact .of_beside (beside_appendEvent _ _ _ _ (Choice.quietly_eq_some.1 h).2) trivial
  case claimForDispatch => exact effect_claimForDispatch (Choice.quietly_eq_some.1 h).2 n
  case beginAttempt => exact effect_beginAttempt (Choice.quietly_eq_some.1 h).2 n
  case recordSent => exact effect_recordSent (Choice.quietly_eq_some.1 h).2 n
  case deferTransition input =>
    rcases deferTransition_cases (Choice.quietly_eq_some.1 h).2 with
      ⟨rfl, hm⟩ | ⟨rfl, old, ht, hs⟩
    · obtain rfl := hm.world
      exact .kept rfl rfl trivial
    · by_cases hn : input.notification.id = n
      · exact .deferred hn ht (ledger_eq hs n)
      · exact .kept (ht.others n (Ne.symm hn)) (ledger_eq hs n) hn
  case transitionAndRecord notification step =>
    rcases transitionAndRecord_cases (Choice.quietly_eq_some.1 h).2 with
      ⟨rfl, hm⟩ | ⟨rfl, old, ht, hs⟩
    · obtain rfl := hm.world
      exact .kept rfl rfl trivial
    · by_cases hn : notification.id = n
      · exact .transitioned hn ht (ledger_eq hs n)
      · exact .kept (ht.others n (Ne.symm hn)) (ledger_eq hs n) hn
  case enqueueDispatch job =>
    exact .of_beside (beside_enqueueDispatch _ _ _ _ (Choice.quietly_eq_some.1 h).2) trivial
  case releaseClaim notification now =>
    rcases releaseClaim_cases (Choice.quietly_eq_some.1 h).2 with ⟨rfl, hm⟩ | ⟨rfl, old, ht, hs⟩
    · obtain rfl := hm.world
      exact .kept rfl rfl trivial
    · by_cases hn : notification.id = n
      · exact .released hn ht (ledger_eq hs n)
      · exact .kept (ht.others n (Ne.symm hn)) (ledger_eq hs n) hn
  case cancelTransition => exact effect_cancelTransition (Choice.quietly_eq_some.1 h).2 n
  case cancelWaitingTransition input =>
    obtain ⟨locked, -, h⟩ := given_eq_some.1 h
    obtain ⟨hs, hrow⟩ := cancelWaiting_row h n
    rcases hrow with ⟨hrow, hn⟩ | ⟨old, hb, hst, ha⟩
    · exact .kept hrow (ledger_eq hs n) hn
    · exact .cancelledWaiting hb hst ha (ledger_eq hs n)
  case acknowledgementTransition input =>
    rcases acknowledgementTransition_cases (Choice.quietly_eq_some.1 h).2 with
      ⟨rfl, hm⟩ | ⟨rfl, old, ht, hs⟩
    · obtain rfl := hm.world
      exact .kept rfl rfl trivial
    · by_cases hn : input.notification.id = n
      · exact .acknowledged hn ht (ledger_eq hs n)
      · exact .kept (ht.others n (Ne.symm hn)) (ledger_eq hs n) hn
  case resolveAttempt => exact effect_resolveAttempt (Choice.quietly_eq_some.1 h).2 n

/-- The update an operation was told it missed. -/
def missed : (o : Op) → o.Ret → Option TransitionInput
  | .recordSent input, false => some input.transition
  | .deferTransition input, false => some input.transition
  | .transitionAndRecord notification step, false => some (step.transition notification)
  | .acknowledgementTransition input, false => some input.transition
  | _, _ => none

/-- An operation misses its update only if the row is not as the caller observed it. -/
theorem exec_missed {w w' : World} {o : Op} {c : Choice} {r : o.Ret} {t : TransitionInput}
    (h : exec w o c = some (r, w')) (ht : missed o r = some t) : Missed w w' t := by
  unfold missed at ht
  split at ht <;> cases ht
  · exact recordSent_false (Choice.quietly_eq_some.1 h).2
  · rcases deferTransition_cases (Choice.quietly_eq_some.1 h).2 with ⟨-, hm⟩ | ⟨hr, -⟩
    · exact hm
    · cases hr
  · rcases transitionAndRecord_cases (Choice.quietly_eq_some.1 h).2 with ⟨-, hm⟩ | ⟨hr, -⟩
    · exact hm
    · cases hr
  · rcases acknowledgementTransition_cases (Choice.quietly_eq_some.1 h).2 with ⟨-, hm⟩ | ⟨hr, -⟩
    · exact hm
    · cases hr

/-! ## Applications, identifiers and events -/

theorem evolves_updateOne {id : Uuid} {p : NotificationRecord → Bool}
    {f : NotificationRecord → NotificationRecord} {hf : ∀ r, key (f r) = key r} :
    Does Evolves (NotificationRepository.updateOne id p f hf) := by
  intro w a w' h
  cases a with
  | none =>
    obtain rfl := (updateOne_none h).1
    exact refl_of Evolves _
  | some new =>
    obtain ⟨_, _, _, hw⟩ := updateOne_some h
    rw [hw.rest]
    exact ⟨rfl, Nat.le_refl _⟩

theorem evolves_appendEvent (input : NotificationEventInput) :
    Does Evolves (NotificationRepository.appendEvent input) := by
  intro w a w' h
  cases h
  exact ⟨rfl, Nat.le_succ _⟩

theorem evolves_appendEvents (inputs : List NotificationEventInput) :
    Does Evolves (NotificationRepository.appendEvents inputs) := by
  induction inputs with
  | nil => exact .pure _
  | cons input inputs ih => exact .bind (evolves_appendEvent input) fun _ => ih

theorem evolves_enqueueDispatch (job : DispatchJob) : Does Evolves (enqueueDispatch job) := by
  intro w a w' h
  unfold enqueueDispatch at h
  split at h <;> cases h <;> exact ⟨rfl, Nat.le_refl _⟩

theorem evolves_enqueue (step : TransitionStep) (n : NotificationRecord) :
    Does Evolves (step.enqueue n) := by
  unfold TransitionStep.enqueue
  split
  · exact .pure _
  · exact .bind (evolves_enqueueDispatch _) fun _ => .pure _

theorem evolves_conditional {t : TransitionInput} {α : Type} {negative : α}
    {rest : NotificationRecord → Sql α} (hrest : ∀ new, Does Evolves (rest new)) :
    Does Evolves (NotificationRepository.applyTransition t >>= fun transitioned =>
      match transitioned with
      | none => pure negative
      | some new => rest new) := by
  refine .bind (.sending evolves_updateOne) fun transitioned => ?_
  cases transitioned with
  | none => exact .pure _
  | some new => exact hrest new

theorem evolves_beginAttempt (input : BeginAttemptInput) :
    Does Evolves (beginAttemptTransaction input) := by
  refine .bind (.bind (.sending evolves_updateOne) fun _ => .pure _) fun attemptNumber => ?_
  cases attemptNumber with
  | none => exact .pure _
  | some k =>
    refine .bind (fun w a w' h => ?_) fun _ => .pure _
    rw [begin_eq_some h]
    exact ⟨rfl, Nat.le_succ _⟩

theorem evolves_exec {w w' : World} {o : Op} {c : Choice} {r : o.Ret}
    (h : exec w o c = some (r, w')) : Evolves w w' := by
  by_cases ho : o.isAside = true
  · exact (untouched_meaning c ho _ _ _ h).evolves
  cases o <;> simp only [Op.isAside, Op.isConnectionOp, Op.isReadOrInbox, Op.isSend, Bool.or_true,
    Bool.or_false, not_true_eq_false] at ho
  case randomUuid =>
    cases (Choice.quietly_eq_some.1 h).2
    exact ⟨rfl, Nat.le_succ _⟩
  case promoteScheduled => exact Does.sending evolves_updateOne _ _ _ (Choice.quietly_eq_some.1 h).2
  case appendEvent input => exact evolves_appendEvent _ _ _ _ (Choice.quietly_eq_some.1 h).2
  case claimForDispatch => exact Does.sending evolves_updateOne _ _ _ (Choice.quietly_eq_some.1 h).2
  case beginAttempt => exact evolves_beginAttempt _ _ _ _ (Choice.quietly_eq_some.1 h).2
  case recordSent =>
    refine evolves_conditional (fun _ => .bind (fun w a w' h => ?_) fun _ =>
      .bind (evolves_appendEvent _) fun _ => .pure _) _ _ _ (Choice.quietly_eq_some.1 h).2
    cases h
    exact ⟨rfl, Nat.le_refl _⟩
  case deferTransition =>
    exact evolves_conditional (fun _ => .bind (evolves_enqueueDispatch _) fun _ => .pure _) _ _ _
      (Choice.quietly_eq_some.1 h).2
  case transitionAndRecord notification step =>
    exact evolves_conditional (fun _ => .bind (evolves_appendEvent _) fun _ =>
      .bind (evolves_enqueue step notification) fun _ => .pure _) _ _ _
      (Choice.quietly_eq_some.1 h).2
  case enqueueDispatch job => exact evolves_enqueueDispatch _ _ _ _ (Choice.quietly_eq_some.1 h).2
  case releaseClaim =>
    exact evolves_conditional (fun _ => .bind (evolves_appendEvent _) fun _ =>
      .bind (evolves_enqueueDispatch _) fun _ => .pure _) _ _ _ (Choice.quietly_eq_some.1 h).2
  case cancelTransition =>
    exact evolves_conditional (fun _ => .bind (evolves_appendEvent _) fun _ => .pure _) _ _ _
      (Choice.quietly_eq_some.1 h).2
  case cancelWaitingTransition =>
    refine Does.given (fun locked => .bind (fun w a w' h => ?_) fun _ =>
      .bind (evolves_appendEvents _) fun _ => .pure _) _ _ _ h
    unfold NotificationRepository.cancelWaiting at h
    dsimp only at h
    replace h := (sending_eq_some.1 h).2
    split at h <;> cases h
    exact ⟨rfl, Nat.le_refl _⟩
  case acknowledgementTransition =>
    exact evolves_conditional (fun _ => .bind (evolves_appendEvent _) fun _ => .pure _) _ _ _
      (Choice.quietly_eq_some.1 h).2
  case resolveAttempt =>
    cases (Choice.quietly_eq_some.1 h).2
    exact ⟨rfl, Nat.le_refl _⟩

/-- A token is the next identifier. -/
theorem exec_randomUuid {w w' : World} {c : Choice} {t : Uuid}
    (h : exec w .randomUuid c = some (t, w')) :
    t = w.identifiers ∧ w'.identifiers = w.identifiers + 1 := by
  cases (Choice.quietly_eq_some.1 h).2
  exact ⟨rfl, rfl⟩

/-- What an event does to a notification: at most it creates it, as a row the database accepts. -/
theorem outside_rows {w w' : World} {e : Event} (h : outside w e = some w') (n : Uuid) :
    w'.sendAttempts = w.sendAttempts ∧ w.identifiers ≤ w'.identifiers ∧
      (w'.row n = w.row n ∨ ∃ draft : NotificationDraft, draft.id = n ∧ w.row n = none ∧
        w'.row n = some (draft.row w.now) ∧ (draft.row w.now).satisfiesChecks = true) := by
  cases e with
  | clock now =>
    simp only [outside] at h
    split at h <;> cases h
    exact ⟨rfl, Nat.le_refl _, .inl rfl⟩
  | jobTaken m =>
    cases h
    exact ⟨rfl, Nat.le_refl _, .inl rfl⟩
  | sessions table =>
    cases h
    exact ⟨rfl, Nat.le_refl _, .inl rfl⟩
  | applications table =>
    cases h
    exact ⟨rfl, Nat.le_refl _, .inl rfl⟩
  | filed input =>
    obtain ⟨⟨r, w₁⟩, h₁, rfl⟩ := Option.map_eq_some_iff.1 h
    unfold WebhookDeliveryRepository.record at h₁
    split at h₁
    · cases h₁
      exact ⟨rfl, Nat.le_refl _, .inl rfl⟩
    · obtain ⟨t, -, h₂⟩ := Option.map_eq_some_iff.1 h₁
      cases h₂
      exact ⟨rfl, Nat.le_refl _, .inl rfl⟩
  | created draft =>
    obtain ⟨⟨r, w₁⟩, h₁, rfl⟩ := Option.map_eq_some_iff.1 h
    obtain ⟨_, _, h₂, h₁⟩ := Sql.bind_eq_some.1 h₁
    cases h₂
    obtain ⟨_, w₂, h₂, h₁⟩ := Sql.bind_eq_some.1 h₁
    obtain ⟨_, w₃, h₃, h₁⟩ := Sql.bind_eq_some.1 h₁
    obtain ⟨_, w₄, h₄, h₁⟩ := Sql.bind_eq_some.1 h₁
    obtain ⟨-, rfl⟩ := Sql.pure_eq_some.1 h₁
    have hb := trans_of Beside (beside_appendEvent _ _ _ _ h₃)
      (beside_enqueueDispatch _ _ _ _ h₄)
    have he := trans_of Evolves (evolves_appendEvent _ _ _ _ h₃)
      (evolves_enqueueDispatch _ _ _ _ h₄)
    unfold NotificationRepository.insert at h₂
    split at h₂
    · rename_i hchecks
      obtain ⟨t, ht, h₂⟩ := Option.map_eq_some_iff.1 h₂
      cases h₂
      refine ⟨hb.sendAttempts, he.identifiers, ?_⟩
      have hrow : t.find? n =
          if draft.id = n then some (draft.row w.now) else w.notifications.find? n :=
        Table.find?_insert? ht n
      simp only [World.row, hb.notifications]
      by_cases hn : draft.id = n
      · right
        have hfresh := Table.insert?_fresh ht
        refine ⟨draft, hn, ?_, ?_, hchecks⟩
        · rw [← hn]
          exact hfresh
        · rw [hrow, if_pos hn]
      · left
        rw [hrow, if_neg hn]
    · cases h₂

theorem outside_cases {w w' : World} {e : Event} (h : outside w e = some w') (n : Uuid) :
    w'.sendAttempts = w.sendAttempts ∧ w.identifiers ≤ w'.identifiers ∧
      (w'.row n = w.row n ∨ ∃ draft : NotificationDraft, draft.id = n ∧ w.row n = none ∧
        w'.row n = some (draft.row w.now)) := by
  obtain ⟨hs, hi, hrow⟩ := outside_rows h n
  exact ⟨hs, hi, hrow.imp id fun ⟨draft, hid, hnone, hrow, _⟩ => ⟨draft, hid, hnone, hrow⟩⟩

end NotificationPlatform
