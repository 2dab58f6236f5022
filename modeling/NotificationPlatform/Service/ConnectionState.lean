import NotificationPlatform.Platform.Operations

/-!
# What the platform knows of a connection

`packages/composition/src/whatsapp/connection-limits.service.ts` and `connection-state.service.ts`,
and the `get` of `whatsapp-session.service.ts`.
Nothing here reads or writes a notification, its ledger, its timeline or its jobs: every operation
is one `isConnectionOp` admits.
-/

namespace NotificationPlatform

/-- `ApplicationConfiguration`, as far as delivery reads it. -/
structure Configuration where
  maximumLifetimeHours : Nat
  maximumConnectionWaitMinutes : Nat
  stuckClaimTimeoutSeconds : Nat
  restrictionFallbackPauseHours : Nat
  simulateTyping : Bool

/-! ## `ConnectionLimitsService` -/

namespace ConnectionLimitsService

/-- Records a report of the account's limits, and the pause it calls for. -/
def record (configuration : Configuration) (record : WhatsAppSessionRecord)
    (limits : Option AccountLimits) (restrictionObserved : Bool) : Program Unit := do
  let now ← perform .clockNow
  let pause := resolveSendingPause {
    limits
    restrictionObserved
    currentPausedUntil := record.sendingPausedUntil
    now
    fallbackPauseMilliseconds := configuration.restrictionFallbackPauseHours * 3600000 }
  perform (.recordAccountLimits record.id { limits, pause, now })

def doubtReportedLimits (sessionId : Uuid) : Program Unit :=
  perform (.invalidateAccountLimits sessionId)

end ConnectionLimitsService

/-! ## `ConnectionStateService` -/

namespace ConnectionStateService

def FORGOTTEN_BY_PROVIDER : String :=
  "The WhatsApp provider no longer has this connection. Start it to pair it again."

def ACCOUNT_LIMITS_MAXIMUM_AGE_MILLISECONDS : Int := 10 * 60000

def reread (record : WhatsAppSessionRecord) : Program WhatsAppSessionRecord := do
  let found ← perform (.findSessionById record.applicationId record.id)
  return found.getD record

/-- What the provider last heard, which costs no request to WhatsApp. -/
def readReportedLimits (record : WhatsAppSessionRecord) : Program (Option AccountLimits) := do
  let live ← perform (.getSession record.providerSessionName)
  match live with
  | .failed _ => return none
  | .succeeded none => return none
  | .succeeded (some session) => return session.accountLimits

/-- WhatsApp's own answer, or the provider's memory of it when that is all there is. -/
def fetchLimits (record : WhatsAppSessionRecord) : Program (Option AccountLimits) := do
  let fresh ← perform (.fetchAccountLimits record.providerSessionName)
  match fresh with
  | .succeeded limits => return some limits
  | .failed _ => readReportedLimits record

/-- Whether a report says that a timelock is in force. -/
def isStillRestricted (limits : Option AccountLimits) : Bool :=
  (limits.bind (·.reachoutTimelock)).any (·.isActive)

/-- Records the limits a pause ended with. -/
def recordEndedPause (record : WhatsAppSessionRecord) (limits : Option AccountLimits) :
    Program Unit :=
  match limits with
  | none => return ()
  | some _ => do
    let now ← perform .clockNow
    perform (.recordAccountLimits record.id { limits, pause := none, now })

/-- Ends a pause whose time is up, unless WhatsApp says the timelock still holds. -/
def settleExpiredPause (configuration : Configuration) (record : WhatsAppSessionRecord) :
    Program WhatsAppSessionRecord :=
  match record.sendingPausedUntil with
  | none => return record
  | some pausedUntil => do
    let now ← perform .clockNow
    if pausedUntil > now then return record
    else
      let limits ← fetchLimits record
      if isStillRestricted limits then
        -- measured against no pause: the expired one is over
        ConnectionLimitsService.record configuration { record with sendingPausedUntil := none }
          limits false
        reread record
      else
        perform (.endSendingPause record.id pausedUntil)
        recordEndedPause record limits
        reread record

/-- Asks the provider what state the connection is in and writes it down. -/
def refreshStatus (configuration : Configuration) (record : WhatsAppSessionRecord) :
    Program WhatsAppSessionRecord := do
  let live ← perform (.getSession record.providerSessionName)
  match live with
  | .failed _ => return record
  | .succeeded none =>
    let now ← perform .clockNow
    if record.status = .STOPPED then reread record
    else
      perform (.recordStatus record.id {
        status := .STOPPED
        phoneNumber := record.phoneNumber
        pushName := record.pushName
        lastError := some FORGOTTEN_BY_PROVIDER
        now })
      reread record
  | .succeeded (some session) =>
    let now ← perform .clockNow
    perform (.recordStatus record.id {
      status := session.status
      phoneNumber := session.phoneNumber
      pushName := session.pushName
      lastError := none
      now })
    match session.accountLimits with
    | none => reread record
    | some limits =>
      ConnectionLimitsService.record configuration record (some limits) false
      reread record

/-- The limits `prepareToSend` refreshes a connection with. -/
def refreshedLimits (settled : WhatsAppSessionRecord) : Program (Option AccountLimits) :=
  if settled.accountLimitsCheckedAt.isNone then fetchLimits settled
  else readReportedLimits settled

/-- Gets the connection ready for a send. -/
def prepareToSend (configuration : Configuration) (record : WhatsAppSessionRecord) :
    Program WhatsAppSessionRecord := do
  let settled ← settleExpiredPause configuration record
  let now ← perform .clockNow
  let isRefreshClaimed ← perform (.claimAccountLimitsRefresh settled.id now
    (now - ACCOUNT_LIMITS_MAXIMUM_AGE_MILLISECONDS))
  if isRefreshClaimed then
    let limits ← refreshedLimits settled
    match limits with
    | none => reread settled
    | some limits =>
      ConnectionLimitsService.record configuration settled (some limits) false
      reread settled
  else return settled

/-- Records a message WhatsApp refused for the account's reach. -/
def recordRefusal (configuration : Configuration) (record : WhatsAppSessionRecord)
    (refusal : ProviderFailureCode) : Program Unit := do
  let limits ← fetchLimits record
  ConnectionLimitsService.record configuration record limits (refusal = .connection_restricted)

/-- The two statements of `reserveSendSlot`. -/
def reserveSendSlot (sessionId : Uuid) (now : Date) : Program (Bool × Date) := do
  let reserved ← perform (.reserveSlot sessionId now)
  match reserved with
  | some nextSendAllowedAt => return (true, toDate nextSendAllowedAt)
  | none =>
    let current ← perform (.readNextSendAllowedAt sessionId)
    return (false, (current.map toDate).getD now)

end ConnectionStateService

/-! ## `WhatsAppSessionService` -/

namespace WhatsAppSessionService

/-- Reads the connection, asking the provider for its current state first; `none` is a connection
that does not exist. -/
def get (configuration : Configuration) (applicationId sessionId : Uuid) :
    Program (Option WhatsAppSessionRecord) := do
  let record ← perform (.findSessionById applicationId sessionId)
  match record with
  | none => return none
  | some record =>
    let refreshed ← ConnectionStateService.refreshStatus configuration record
    return some refreshed

end WhatsAppSessionService

/-! ## The operations these services perform -/

open Interleaving

/-- The operations that concern connections only, and those that stay within the process. -/
def Op.isConnectionOp : Op → Bool
  | .clockNow | .integerBetween _ _ | .isAborted | .throwException _ => true
  | .findSessionById _ _ | .findSessionByIdWithoutTenantScope _ | .recordStatus _ _ => true
  | .claimAccountLimitsRefresh _ _ _ | .invalidateAccountLimits _ | .recordAccountLimits _ _ => true
  | .endSendingPause _ _ | .reserveSlot _ _ | .readNextSendAllowedAt _ => true
  | .resolveRecipient _ _ | .showTyping _ _ _ | .fetchAccountLimits _ | .getSession _ => true
  | _ => false

/-- A program that concerns connections only. -/
def ConnectionOnly {α : Type} (p : Program α) : Prop := p.Uses fun o : Op => o.isConnectionOp = true

namespace ConnectionOnly

theorem perform {o : Op} (h : o.isConnectionOp = true) : ConnectionOnly (perform o) :=
  ⟨h, fun _ => trivial⟩

theorem bind {α β : Type} {p : Program α} {f : α → Program β} (hp : ConnectionOnly p)
    (hf : ∀ a, ConnectionOnly (f a)) : ConnectionOnly (p >>= f) := Prog.Uses.bind hp hf

theorem pure {α : Type} (a : α) : ConnectionOnly (Pure.pure a : Program α) := trivial

end ConnectionOnly

open ConnectionLimitsService ConnectionStateService

theorem connectionOnly_record (c : Configuration) (r : WhatsAppSessionRecord)
    (limits : Option AccountLimits) (observed : Bool) :
    ConnectionOnly (ConnectionLimitsService.record c r limits observed) :=
  .bind (.perform rfl) fun _ => .perform rfl

theorem connectionOnly_reread (r : WhatsAppSessionRecord) : ConnectionOnly (reread r) :=
  .bind (.perform rfl) fun _ => .pure _

theorem connectionOnly_readReportedLimits (r : WhatsAppSessionRecord) :
    ConnectionOnly (readReportedLimits r) := by
  refine .bind (.perform rfl) fun live => ?_
  rcases live with _ | _
  · rename_i session
    cases session <;> exact .pure _
  · exact .pure _

theorem connectionOnly_fetchLimits (r : WhatsAppSessionRecord) :
    ConnectionOnly (fetchLimits r) := by
  refine .bind (.perform rfl) fun fresh => ?_
  cases fresh with
  | succeeded limits => exact .pure _
  | failed failure => exact connectionOnly_readReportedLimits r

theorem connectionOnly_recordEndedPause (r : WhatsAppSessionRecord)
    (limits : Option AccountLimits) : ConnectionOnly (recordEndedPause r limits) := by
  cases limits with
  | none => exact .pure _
  | some limits => exact .bind (.perform rfl) fun _ => .perform rfl

theorem connectionOnly_settleExpiredPause (c : Configuration) (r : WhatsAppSessionRecord) :
    ConnectionOnly (settleExpiredPause c r) := by
  unfold settleExpiredPause
  split
  · exact .pure _
  · refine .bind (.perform rfl) fun now => ?_
    split
    · exact .pure _
    · refine .bind (connectionOnly_fetchLimits r) fun limits => ?_
      split
      · exact .bind (connectionOnly_record _ _ _ _) fun _ => connectionOnly_reread r
      · exact .bind (.perform rfl) fun _ =>
          .bind (connectionOnly_recordEndedPause r limits) fun _ => connectionOnly_reread r

theorem connectionOnly_refreshStatus (c : Configuration) (r : WhatsAppSessionRecord) :
    ConnectionOnly (refreshStatus c r) := by
  refine .bind (.perform rfl) fun live => ?_
  split
  · exact .pure _
  · refine .bind (.perform rfl) fun now => ?_
    split
    · exact connectionOnly_reread r
    · exact .bind (.perform rfl) fun _ => connectionOnly_reread r
  · refine .bind (.perform rfl) fun now => .bind (.perform rfl) fun _ => ?_
    split
    · exact connectionOnly_reread r
    · exact .bind (connectionOnly_record _ _ _ _) fun _ => connectionOnly_reread r

theorem connectionOnly_get (c : Configuration) (a s : Uuid) :
    ConnectionOnly (WhatsAppSessionService.get c a s) := by
  refine .bind (.perform rfl) fun record => ?_
  split
  · exact .pure _
  · exact .bind (connectionOnly_refreshStatus c _) fun _ => .pure _

theorem connectionOnly_refreshedLimits (r : WhatsAppSessionRecord) :
    ConnectionOnly (refreshedLimits r) := by
  unfold refreshedLimits
  split
  · exact connectionOnly_fetchLimits r
  · exact connectionOnly_readReportedLimits r

theorem connectionOnly_prepareToSend (c : Configuration) (r : WhatsAppSessionRecord) :
    ConnectionOnly (prepareToSend c r) := by
  refine .bind (connectionOnly_settleExpiredPause c r) fun settled =>
    .bind (.perform rfl) fun now => .bind (.perform rfl) fun claimed => ?_
  split
  · refine .bind (connectionOnly_refreshedLimits settled) fun limits => ?_
    split
    · exact connectionOnly_reread settled
    · exact .bind (connectionOnly_record _ _ _ _) fun _ => connectionOnly_reread settled
  · exact .pure _

theorem connectionOnly_recordRefusal (c : Configuration) (r : WhatsAppSessionRecord)
    (refusal : ProviderFailureCode) : ConnectionOnly (recordRefusal c r refusal) :=
  .bind (connectionOnly_fetchLimits r) fun _ => connectionOnly_record _ _ _ _

theorem connectionOnly_reserveSendSlot (sessionId : Uuid) (now : Date) :
    ConnectionOnly (reserveSendSlot sessionId now) := by
  refine .bind (.perform rfl) fun reserved => ?_
  split
  · exact .pure _
  · exact .bind (.perform rfl) fun _ => .pure _

end NotificationPlatform
