import Mathlib.Data.List.Sort
import NotificationPlatform.Database.Schema
import NotificationPlatform.Iso8601.Instant

/-!
# The repositories

`packages/database/src/repositories`, one definition for each statement. A statement reads and
writes the `World`, or raises: `none` is a statement the database refuses (a parameter that its type
cannot hold, a CHECK constraint, the status trigger, a unique index), which rolls its transaction
back and surfaces as an exception.
-/

namespace NotificationPlatform

open Relational

/-- A statement, or several in one transaction. -/
abbrev Sql := StateT World Option

def raise {α : Type} : Sql α := fun _ => none

theorem Sql.bind_eq_some {α β : Type} {x : Sql α} {f : α → Sql β} {w w' : World} {b : β} :
    (x >>= f) w = some (b, w') ↔ ∃ a w₁, x w = some (a, w₁) ∧ f a w₁ = some (b, w') := by
  simp only [Bind.bind, StateT.bind, Option.bind_eq_some_iff, Prod.exists]

theorem Sql.pure_eq_some {α : Type} {a b : α} {w w' : World} :
    (pure a : Sql α) w = some (b, w') ↔ b = a ∧ w' = w := by
  change some (a, w) = some (b, w') ↔ _
  simp only [Option.some.injEq, Prod.mk.injEq, eq_comm]

/-- `IdentifierGeneratorPort.generate` and `randomUUID`: never the same identifier twice. -/
def generateIdentifier : Sql Uuid := fun w =>
  some (w.identifiers, { w with identifiers := w.identifiers + 1 })

/-! ## What the database checks on parameters -/

/-- A `timestamptz` reads the form `toISOString` gives the years from 1 to 9999. -/
def isStorableInstant (d : Date) : Bool := -62135596800000 ≤ d ∧ d < 253402300800000

example : (Iso8601.ofDays (-62135596800000 / Iso8601.dayLength)).year = 1 ∧
    (Iso8601.ofDays (253402300799999 / Iso8601.dayLength)).year = 9999 ∧
    (Iso8601.ofDays (253402300800000 / Iso8601.dayLength)).year = 10000 := by decide +kernel

/-- A `text` column does not hold U+0000. -/
def isStorableText (s : String) : Bool := Char.ofNat 0 ∉ s.toList

/-- A `jsonb` column holds neither U+0000 nor a surrogate on its own. -/
def isJsonbText (s : Utf16.Text) : Bool := 0 ∉ s ∧ Utf16.isWellFormed s = true

/-- What a statement sends beside identifiers, numbers and names of the platform's own. -/
structure Parameters where
  instants : List Date
  texts : List String
  /-- The strings inside a `jsonb` value. -/
  jsonbTexts : List Utf16.Text

def Parameters.areStorable (sent : Parameters) : Bool :=
  sent.instants.all isStorableInstant && sent.texts.all isStorableText &&
    sent.jsonbTexts.all isJsonbText

/-- A parameter that its type cannot hold fails the statement before it looks at a row. -/
def sending {α : Type} (sent : Parameters) (statement : Sql α) : Sql α := fun w =>
  if sent.areStorable then statement w else none

theorem sending_eq_some {α : Type} {sent : Parameters} {statement : Sql α} {w : World}
    {r : α × World} :
    sending sent statement w = some r ↔ sent.areStorable = true ∧ statement w = some r := by
  unfold sending
  rw [Option.ite_none_right_eq_some]

theorem sending_eq_none {α : Type} {sent : Parameters} {statement : Sql α} {w : World}
    (h : statement w = none) : sending sent statement w = none := by
  unfold sending
  rw [h, ite_self]

/-! ## What the database checks on a notification -/

/-- The rows of `notification_status_transitions`, which the status trigger reads. -/
def notificationStatusTransitionRows : List (NotificationStatus × NotificationStatus) :=
  [(.SCHEDULED, .QUEUED), (.SCHEDULED, .CANCELLED), (.QUEUED, .PROCESSING), (.QUEUED, .CANCELLED),
    (.PROCESSING, .SENT), (.PROCESSING, .RETRYING), (.PROCESSING, .FAILED), (.SENT, .DELIVERED),
    (.SENT, .FAILED), (.RETRYING, .PROCESSING), (.RETRYING, .CANCELLED), (.RETRYING, .FAILED)]

/-- `enforce_notification_status_transition`. -/
def enforceNotificationStatusTransition (old new : NotificationStatus) : Bool :=
  old = new ∨ (old, new) ∈ notificationStatusTransitionRows

/-- The CHECK constraints of `notifications`. -/
def NotificationRecord.satisfiesChecks (r : NotificationRecord) : Bool :=
  (r.status ≠ .SCHEDULED ∨ r.scheduledAt.isSome) ∧
    (r.status ≠ .RETRYING ∨ r.nextAttemptAt.isSome) ∧
    ((r.status ≠ .SENT ∧ r.status ≠ .DELIVERED) ∨ r.providerMessageId.isSome) ∧
    (1 ≤ r.maximumAttempts ∧ r.maximumAttempts ≤ 10) ∧
    (-1 ≤ r.providerAcknowledgement ∧ r.providerAcknowledgement ≤ 4) ∧
    (1 ≤ r.renderedBody.length ∧ r.renderedBody.length ≤ 4096)

/-- `notifications_provider_message_id_unique`. -/
def providerMessageIdIsFree (w : World) (r : NotificationRecord) : Bool :=
  r.providerMessageId.isNone ∨ ∀ r' ∈ w.notifications.rows, r'.id = r.id ∨
    r'.whatsAppSessionId ≠ r.whatsAppSessionId ∨ r'.providerMessageId ≠ r.providerMessageId

/-- Whether the database accepts `new` in place of `old`. -/
def acceptsWrite (w : World) (old new : NotificationRecord) : Bool :=
  enforceNotificationStatusTransition old.status new.status ∧ new.satisfiesChecks ∧
    providerMessageIdIsFree w new

namespace NotificationRepository

/-- `UPDATE notifications SET .. WHERE id = .. AND .. RETURNING *`. -/
def updateOne (id : Uuid) (p : NotificationRecord → Bool)
    (f : NotificationRecord → NotificationRecord) (hf : ∀ r, key (f r) = key r) :
    Sql (Option NotificationRecord) := fun w =>
  match w.notifications.find? id with
  | none => some (none, w)
  | some r =>
    if p r then
      if acceptsWrite w r (f r) then
        some (some (f r), { w with
          notifications := w.notifications.update (fun r => key r = id && p r) f hf })
      else none
    else some (none, w)

def insert (row : NotificationRecord) : Sql Unit := fun w =>
  if row.satisfiesChecks then
    (w.notifications.insert? row).map fun t => ((), { w with notifications := t })
  else none

def appendEvent (input : NotificationEventInput) : Sql Unit := do
  let id ← generateIdentifier
  modify fun w => { w with notificationEvents := w.notificationEvents ++
    [{ input with id, occurredAt := w.now }] }

def appendEvents : List NotificationEventInput → Sql Unit
  | [] => return ()
  | input :: inputs => do
    appendEvent input
    appendEvents inputs

/-- Cancels every waiting notification of an application, or of one of its connections. `locked`
are the rows another statement holds a lock on, which are skipped. -/
def cancelWaiting (applicationId : Uuid) (whatsAppSessionId : Option Uuid) (now : Date)
    (locked : List Uuid) : Sql (List (Uuid × NotificationStatus)) :=
  let waiting (r : NotificationRecord) : Bool :=
    r.applicationId = applicationId ∧ (r.status = .QUEUED ∨ r.status = .RETRYING) ∧
      (∀ s ∈ whatsAppSessionId, r.whatsAppSessionId = s) ∧ r.id ∉ locked
  let cancel (r : NotificationRecord) : NotificationRecord :=
    { r with status := .CANCELLED, cancelledAt := some now, updatedAt := now,
             nextAttemptAt := none }
  sending ⟨[now], [], []⟩ fun w =>
    if (w.notifications.select waiting).all fun r => acceptsWrite w r (cancel r) then
      some ((w.notifications.select waiting).map fun r => (r.id, r.status), { w with
        notifications := w.notifications.update waiting cancel fun _ => rfl })
    else none

def findById (applicationId notificationId : Uuid) : Sql (Option NotificationRecord) := fun w =>
  some ((w.notifications.find? notificationId).filter (·.applicationId = applicationId), w)

def findByProviderMessageId (whatsAppSessionId : Uuid) (providerMessageId : String) :
    Sql (Option NotificationRecord) := fun w =>
  some (w.notifications.rows.find? fun r =>
    r.whatsAppSessionId = whatsAppSessionId ∧ r.providerMessageId = some providerMessageId, w)

/-- A notification can be claimed from the queue, or when its retry is due. -/
def isClaimable (r : NotificationRecord) (now : Date) : Bool :=
  r.status = .QUEUED ∨ (r.status = .RETRYING ∧ r.nextAttemptAt.any (· ≤ now))

def claimForDispatch (applicationId notificationId claimToken : Uuid) (now : Date) :
    Sql (Option NotificationRecord) :=
  sending ⟨[now], [], []⟩ <|
    updateOne notificationId (fun r => r.applicationId = applicationId ∧ isClaimable r now)
      (fun r => { r with status := .PROCESSING, claimToken := some claimToken,
                         claimedAt := some now, updatedAt := now }) fun _ => rfl

structure BeginAttemptInput where
  applicationId : Uuid
  notificationId : Uuid
  claimToken : Uuid
  recipientChatIdentifier : String
  now : Date

/-- Consumes one attempt, under the claim token. -/
def beginAttempt (input : BeginAttemptInput) : Sql (Option Nat) := do
  let updated ← sending ⟨[input.now], [input.recipientChatIdentifier], []⟩ <|
    updateOne input.notificationId
      (fun r => r.applicationId = input.applicationId ∧ r.claimToken = some input.claimToken ∧
        r.status = .PROCESSING)
      (fun r => { r with attemptCount := r.attemptCount + 1,
                         recipientChatIdentifier := some input.recipientChatIdentifier,
                         updatedAt := input.now }) fun _ => rfl
  return updated.map (·.attemptCount)

def promoteScheduled (applicationId notificationId : Uuid) (now : Date) :
    Sql (Option NotificationRecord) :=
  sending ⟨[now], [], []⟩ <|
    updateOne notificationId
      (fun r => r.applicationId = applicationId ∧ r.status = .SCHEDULED ∧
        r.scheduledAt.any (· ≤ now))
      (fun r => { r with status := .QUEUED, updatedAt := now }) fun _ => rfl

def findStuckClaims (claimedBefore : Date) (limit : Nat) : Sql (List NotificationRecord) := fun w =>
  some ((((w.notifications.select fun r =>
    r.status = .PROCESSING ∧ r.claimedAt.any (· < claimedBefore)).insertionSort
      fun a b => a.claimedAt.getD 0 ≤ b.claimedAt.getD 0).take limit), w)

def findDueForDispatch (now : Date) (limit : Nat) : Sql (List NotificationRecord) := fun w =>
  some ((((w.notifications.select fun r => r.status = .QUEUED ∨
    (r.status = .RETRYING ∧ r.nextAttemptAt.any (· ≤ now)) ∨
    (r.status = .SCHEDULED ∧ r.scheduledAt.any (· ≤ now))).insertionSort
      fun a b => a.createdAt ≤ b.createdAt).take limit), w)

/-- The columns a transition is allowed to change; `none` leaves a column alone. -/
structure NotificationTransitionChanges where
  nextAttemptAt : Option (Option Date) := none
  claimToken : Option (Option Uuid) := none
  claimedAt : Option (Option Date) := none
  recipientChatIdentifier : Option (Option String) := none
  providerMessageId : Option (Option String) := none
  providerAcknowledgement : Option Int := none
  sentAt : Option (Option Date) := none
  deliveredAt : Option (Option Date) := none
  readAt : Option (Option Date) := none
  failedAt : Option (Option Date) := none
  cancelledAt : Option (Option Date) := none
  deadLetteredAt : Option (Option Date) := none
  failureCode : Option (Option ProviderFailureCode) := none
  failureReason : Option (Option String) := none
  failureClassification : Option (Option FailureClassification) := none

/-- The instants among the changes. -/
def NotificationTransitionChanges.instants (changes : NotificationTransitionChanges) :
    List Date :=
  [changes.nextAttemptAt, changes.claimedAt, changes.sentAt, changes.deliveredAt, changes.readAt,
    changes.failedAt, changes.cancelledAt, changes.deadLetteredAt].filterMap Option.join

/-- The texts among the changes, of which some are the provider's. -/
def NotificationTransitionChanges.texts (changes : NotificationTransitionChanges) :
    List String :=
  [changes.recipientChatIdentifier, changes.providerMessageId,
    changes.failureReason].filterMap Option.join

structure TransitionInput where
  applicationId : Uuid
  notificationId : Uuid
  expectedStatus : NotificationStatus
  nextStatus : NotificationStatus
  changes : NotificationTransitionChanges
  now : Date

def TransitionInput.apply (input : TransitionInput) (r : NotificationRecord) :
    NotificationRecord :=
  { r with
    status := input.nextStatus
    updatedAt := input.now
    nextAttemptAt := input.changes.nextAttemptAt.getD r.nextAttemptAt
    claimToken := input.changes.claimToken.getD r.claimToken
    claimedAt := input.changes.claimedAt.getD r.claimedAt
    recipientChatIdentifier :=
      input.changes.recipientChatIdentifier.getD r.recipientChatIdentifier
    providerMessageId := input.changes.providerMessageId.getD r.providerMessageId
    providerAcknowledgement :=
      input.changes.providerAcknowledgement.getD r.providerAcknowledgement
    sentAt := input.changes.sentAt.getD r.sentAt
    deliveredAt := input.changes.deliveredAt.getD r.deliveredAt
    readAt := input.changes.readAt.getD r.readAt
    failedAt := input.changes.failedAt.getD r.failedAt
    cancelledAt := input.changes.cancelledAt.getD r.cancelledAt
    deadLetteredAt := input.changes.deadLetteredAt.getD r.deadLetteredAt
    failureCode := input.changes.failureCode.getD r.failureCode
    failureReason := input.changes.failureReason.getD r.failureReason
    failureClassification :=
      input.changes.failureClassification.getD r.failureClassification }

def TransitionInput.sends (input : TransitionInput) : Parameters where
  instants := input.now :: input.changes.instants
  texts := input.changes.texts
  jsonbTexts := []

/-- Moves a notification to a new status only if it is still in the status the caller observed. -/
def applyTransition (input : TransitionInput) : Sql (Option NotificationRecord) :=
  sending input.sends <|
    updateOne input.notificationId
      (fun r => r.applicationId = input.applicationId ∧ r.status = input.expectedStatus)
      input.apply fun _ => rfl

end NotificationRepository

export NotificationRepository (NotificationTransitionChanges TransitionInput BeginAttemptInput)

/-! ## The ledger of provider calls -/

namespace NotificationSendAttemptRepository

structure BeginSendAttemptInput where
  applicationId : Uuid
  notificationId : Uuid
  attemptNumber : Nat
  requestStartedAt : Date

/-- The row `begin` inserts. -/
def BeginSendAttemptInput.row (input : BeginSendAttemptInput) (id : Uuid) :
    SendAttemptRecord where
  id := id
  applicationId := input.applicationId
  notificationId := input.notificationId
  attemptNumber := input.attemptNumber
  requestStartedAt := input.requestStartedAt
  requestFinishedAt := none
  outcome := none
  providerMessageId := none
  failureCode := none

/-- Refused when the attempt is already recorded: `notification_send_attempts_unique`. -/
def begin (input : BeginSendAttemptInput) : Sql Unit := do
  let id ← generateIdentifier
  let w ← get
  if w.sendAttempts.any fun a =>
      a.notificationId = input.notificationId ∧ a.attemptNumber = input.attemptNumber then raise
  else set { w with sendAttempts := w.sendAttempts ++ [input.row id] }

structure ResolveSendAttemptInput where
  applicationId : Uuid
  notificationId : Uuid
  attemptNumber : Nat
  outcome : SendAttemptOutcome
  providerMessageId : Option String
  failureCode : Option ProviderFailureCode
  now : Date

/-- Whether an attempt row is the one a resolution names. -/
def ResolveSendAttemptInput.concerns (input : ResolveSendAttemptInput)
    (a : SendAttemptRecord) : Bool :=
  a.notificationId = input.notificationId ∧ a.applicationId = input.applicationId ∧
    a.attemptNumber = input.attemptNumber

def ResolveSendAttemptInput.apply (input : ResolveSendAttemptInput) (a : SendAttemptRecord) :
    SendAttemptRecord :=
  if input.concerns a then
    { a with outcome := some input.outcome, requestFinishedAt := some input.now,
             providerMessageId := input.providerMessageId, failureCode := input.failureCode }
  else a

def resolve (input : ResolveSendAttemptInput) : Sql Unit :=
  modify fun w => { w with sendAttempts := w.sendAttempts.map input.apply }

def findUnresolved (applicationId notificationId : Uuid) : Sql (Option SendAttemptRecord) :=
  fun w => some (((w.sendAttempts.filter fun a =>
    a.notificationId = notificationId ∧ a.applicationId = applicationId ∧
      a.outcome = none).insertionSort fun a b => a.attemptNumber ≤ b.attemptNumber).head?, w)

end NotificationSendAttemptRepository

export NotificationSendAttemptRepository (ResolveSendAttemptInput)

/-! ## Applications -/

namespace ApplicationRepository

/-- An archived application has no settings. -/
def findDeliverySettings (applicationId : Uuid) : Sql (Option ApplicationRecord) := fun w =>
  some ((w.applications.find? applicationId).filter (·.archivedAt.isNone), w)

end ApplicationRepository

/-! ## Connections -/

/-- `toISOString` throws on an invalid date. -/
def storedDate : Option JsDate → Option (Option Date)
  | none => some none
  | some .invalid => none
  | some (.at d) => some (some d)

def toStoredAccountLimits (limits : AccountLimits) : Option StoredAccountLimits := do
  let reachoutTimelock ← match limits.reachoutTimelock with
    | none => pure none
    | some timelock => do
      let endsAt ← storedDate timelock.endsAt
      pure (some { isActive := timelock.isActive, endsAt,
                   enforcementType := timelock.enforcementType : StoredTimelock })
  let newChatQuota ← match limits.newChatQuota with
    | none => pure none
    | some quota => do
      let cycleEndsAt ← storedDate quota.cycleEndsAt
      pure (some { status := quota.status, total := quota.total, used := quota.used,
                   cycleEndsAt : StoredQuota })
  return { reachoutTimelock, newChatQuota }

/-- The texts of a report. -/
def StoredAccountLimits.texts (stored : StoredAccountLimits) : List Utf16.Text :=
  (stored.reachoutTimelock.bind (·.enforcementType)).toList ++
    (stored.newChatQuota.map (·.status)).toList

namespace WhatsAppSessionRepository

/-- `UPDATE whatsapp_sessions SET .. WHERE id = .. AND .. RETURNING *`. -/
def updateOne (id : Uuid) (p : WhatsAppSessionRecord → Bool)
    (f : WhatsAppSessionRecord → WhatsAppSessionRecord) (hf : ∀ r, key (f r) = key r) :
    Sql (Option WhatsAppSessionRecord) := fun w =>
  let updated := w.whatsAppSessions.updateAt id p f hf
  some (updated.1, { w with whatsAppSessions := updated.2 })

def findById (applicationId sessionId : Uuid) : Sql (Option WhatsAppSessionRecord) := fun w =>
  some ((w.whatsAppSessions.find? sessionId).filter (·.applicationId = applicationId), w)

def findByIdWithoutTenantScope (sessionId : Uuid) : Sql (Option WhatsAppSessionRecord) := fun w =>
  some (w.whatsAppSessions.find? sessionId, w)

structure StatusInput where
  status : ProviderSessionStatus
  phoneNumber : Option String
  pushName : Option String
  lastError : Option String
  now : Date

def recordStatus (sessionId : Uuid) (input : StatusInput) : Sql Unit := do
  let _ ← sending
      ⟨[input.now], [input.phoneNumber, input.pushName, input.lastError].filterMap id, []⟩ <|
    updateOne sessionId (fun _ => true)
      (fun r => { r with status := input.status, phoneNumber := input.phoneNumber,
                         pushName := input.pushName, lastError := input.lastError,
                         lastStatusAt := input.now, updatedAt := input.now }) fun _ => rfl

/-- Claims the next refresh of the account's limits, if the last one is old. -/
def claimAccountLimitsRefresh (sessionId : Uuid) (now staleBefore : Date) : Sql Bool := do
  let claimed ← updateOne sessionId
    (fun r => r.accountLimitsCheckedAt.all (· < staleBefore))
    (fun r => { r with accountLimitsCheckedAt := some now }) fun _ => rfl
  return claimed.isSome

def invalidateAccountLimits (sessionId : Uuid) : Sql Unit := do
  let _ ← updateOne sessionId (fun _ => true)
    (fun r => { r with accountLimitsCheckedAt := none }) fun _ => rfl

structure LimitsInput where
  limits : Option AccountLimits
  pause : Option SendingPause
  now : Date

/-- The column value of a report; one with an invalid date cannot be written. -/
def storeLimits (limits : Option AccountLimits) : Sql (Option StoredAccountLimits) :=
  match limits.map toStoredAccountLimits with
  | none => return none
  | some none => raise
  | some (some stored) => return some stored

/-- What the update sends: the clock, the report as `jsonb`, and the end of the pause. -/
def LimitsInput.sends (input : LimitsInput) (stored : Option StoredAccountLimits) :
    Parameters where
  instants := input.now :: (input.pause.map (·.pausedUntil)).toList
  texts := []
  jsonbTexts := (stored.map (·.texts)).getD []

/-- A pause is only ever extended here: the later of the one in force and the new one wins. -/
def recordAccountLimits (sessionId : Uuid) (input : LimitsInput) : Sql Unit := do
  let stored ← storeLimits input.limits
  let _ ← sending (input.sends stored) <|
    updateOne sessionId (fun _ => true)
      (fun r => { r with
        accountLimits := if stored.isSome then stored else r.accountLimits
        accountLimitsCheckedAt :=
          if stored.isSome then some input.now else r.accountLimitsCheckedAt
        sendingPausedUntil := match input.pause with
          | some pause => some (max (r.sendingPausedUntil.getD pause.pausedUntil) pause.pausedUntil)
          | none => r.sendingPausedUntil
        sendingPausedReason := match input.pause with
          | some pause => some pause.reason
          | none => r.sendingPausedReason
        updatedAt := input.now }) fun _ => rfl

/-- Lifts a pause, conditional on the end the caller saw. -/
def endSendingPause (sessionId : Uuid) (observedPausedUntil : Date) : Sql Unit := do
  let _ ← updateOne sessionId (fun r => r.sendingPausedUntil = some observedPausedUntil)
    (fun r => { r with sendingPausedUntil := none, sendingPausedReason := none }) fun _ => rfl

/-- The conditional update of `reserveSendSlot`; `draw` is its `floor(random() * ..)`. -/
def reserveSlot (sessionId : Uuid) (now : Date) (draw : Nat) : Sql (Option Timestamptz) := do
  let w ← get
  let reserved ← updateOne sessionId (fun r => r.nextSendAllowedAt ≤ toTimestamptz now)
    (fun r => { r with
      nextSendAllowedAt := w.now + (r.sendPacingMinimumSeconds +
        min draw (r.sendPacingMaximumSeconds - r.sendPacingMinimumSeconds) : Nat) * 1000000
      updatedAt := now }) fun _ => rfl
  return reserved.map (·.nextSendAllowedAt)

/-- The read `reserveSendSlot` makes when the slot was not free. -/
def readNextSendAllowedAt (sessionId : Uuid) : Sql (Option Timestamptz) := fun w =>
  some ((w.whatsAppSessions.find? sessionId).map (·.nextSendAllowedAt), w)

end WhatsAppSessionRepository

/-! ## The webhook inbox -/

namespace WebhookDeliveryRepository

def updateOne (id : Uuid) (p : WebhookDeliveryRecord → Bool)
    (f : WebhookDeliveryRecord → WebhookDeliveryRecord) (hf : ∀ r, key (f r) = key r) :
    Sql (Option WebhookDeliveryRecord) := fun w =>
  let updated := w.webhookDeliveries.updateAt id p f hf
  some (updated.1, { w with webhookDeliveries := updated.2 })

structure RecordWebhookDeliveryInput where
  id : Uuid
  applicationId : Uuid
  whatsAppSessionId : Uuid
  providerEventId : String
  eventType : String
  providerSessionName : String
  payload : List (String × Json.Value)
  receivedAt : Date

/-- Files a callback, unless its event was filed before. The payload goes through `jsonb`. -/
def record (input : RecordWebhookDeliveryInput) : Sql (Option WebhookDeliveryRecord) := fun w =>
  let delivery : WebhookDeliveryRecord := {
    id := input.id
    applicationId := input.applicationId
    whatsAppSessionId := input.whatsAppSessionId
    providerEventId := input.providerEventId
    eventType := input.eventType
    providerSessionName := input.providerSessionName
    payload := Json.storedFields input.payload
    receivedAt := input.receivedAt
    processedAt := none
    processingAttempts := 0
    outcome := none
    outcomeDetail := none }
  if w.webhookDeliveries.rows.any fun d => d.whatsAppSessionId = input.whatsAppSessionId ∧
      d.providerEventId = input.providerEventId then some (none, w)
  else (w.webhookDeliveries.insert? delivery).map fun t =>
    (some delivery, { w with webhookDeliveries := t })

/-- Counts the attempt; no row means the delivery was already resolved. -/
def claimForProcessing (deliveryId : Uuid) : Sql (Option WebhookDeliveryRecord) :=
  updateOne deliveryId (fun r => r.processedAt.isNone)
    (fun r => { r with processingAttempts := r.processingAttempts + 1 }) fun _ => rfl

structure MarkProcessedInput where
  deliveryId : Uuid
  outcome : WebhookOutcome
  detail : Option String
  now : Date

def markProcessed (input : MarkProcessedInput) : Sql Unit := do
  let _ ← updateOne input.deliveryId (fun _ => true)
    (fun r => { r with processedAt := some input.now, outcome := some input.outcome,
                       outcomeDetail := input.detail }) fun _ => rfl

end WebhookDeliveryRepository

/-! ## The queue -/

/-- `enqueueInTransaction` on the dispatch queue. A notification that has a job waiting accepts no
second one; the answer is whether the job was accepted. -/
def enqueueDispatch (job : DispatchJob) : Sql Bool := fun w =>
  if w.dispatchJobs.any (·.notificationId = job.notificationId) then some (false, w)
  else some (true, { w with dispatchJobs := w.dispatchJobs ++ [job] })

end NotificationPlatform
