import NotificationPlatform.Interleaving.System
import NotificationPlatform.Database.Transactions

/-!
# The operations of the platform's processes

Every database statement or transaction, every call to the provider and every read of a clock, a
random source or an abort signal is one operation. A send is two: `sendTextMessage` is the request
reaching the provider, `sendTextMessageAnswer` is the answer arriving, and the process can die in
between. What the surroundings are free to answer is a `Choice`.
-/

namespace NotificationPlatform

inductive Op where
  -- the process
  | clockNow
  | randomUuid
  | integerBetween (minimum maximum : Nat)
  | isAborted
  /-- An exception that leaves the service call. -/
  | throwException (message : String)
  -- `NotificationRepository`
  | promoteScheduled (applicationId notificationId : Uuid) (now : Date)
  | appendEvent (input : NotificationEventInput)
  | claimForDispatch (applicationId notificationId claimToken : Uuid) (now : Date)
  | findNotificationById (applicationId notificationId : Uuid)
  | findByProviderMessageId (whatsAppSessionId : Uuid) (providerMessageId : String)
  | findStuckClaims (claimedBefore : Date) (limit : Nat)
  | findDueForDispatch (now : Date) (limit : Nat)
  -- transactions
  | beginAttempt (input : BeginAttemptInput)
  | recordSent (input : RecordSentInput)
  | deferTransition (input : DeferInput)
  | transitionAndRecord (notification : NotificationRecord) (step : TransitionStep)
  | enqueueDispatch (job : DispatchJob)
  | releaseClaim (notification : NotificationRecord) (now : Date)
  | cancelTransition (input : CancelInput)
  | cancelWaitingTransition (input : CancelWaitingInput)
  | acknowledgementTransition (input : AcknowledgementInput)
  -- `NotificationSendAttemptRepository`
  | findUnresolved (applicationId notificationId : Uuid)
  | resolveAttempt (input : ResolveSendAttemptInput)
  -- `ApplicationRepository`
  | findDeliverySettings (applicationId : Uuid)
  -- `WhatsAppSessionRepository`
  | findSessionById (applicationId sessionId : Uuid)
  | findSessionByIdWithoutTenantScope (sessionId : Uuid)
  | recordStatus (sessionId : Uuid) (input : WhatsAppSessionRepository.StatusInput)
  | claimAccountLimitsRefresh (sessionId : Uuid) (now staleBefore : Date)
  | invalidateAccountLimits (sessionId : Uuid)
  | recordAccountLimits (sessionId : Uuid) (input : WhatsAppSessionRepository.LimitsInput)
  | endSendingPause (sessionId : Uuid) (observedPausedUntil : Date)
  | reserveSlot (sessionId : Uuid) (now : Date)
  | readNextSendAllowedAt (sessionId : Uuid)
  -- `WebhookDeliveryRepository`
  | claimForProcessing (deliveryId : Uuid)
  | markProcessed (input : WebhookDeliveryRepository.MarkProcessedInput)
  -- the provider
  | resolveRecipient (sessionName phoneNumber : String)
  | showTyping (sessionName chatIdentifier : String) (durationMilliseconds : Nat)
  | sendTextMessage (sessionName chatIdentifier text : String)
  | sendTextMessageAnswer
  | fetchAccountLimits (sessionName : String)
  | getSession (sessionName : String)

/-- The answer to each operation. -/
@[reducible] def Op.Ret : Op → Type
  | .clockNow => Date
  | .randomUuid => Uuid
  | .integerBetween _ _ => Nat
  | .isAborted => Bool
  | .throwException _ => Empty
  | .promoteScheduled _ _ _ => Option NotificationRecord
  | .appendEvent _ => Unit
  | .claimForDispatch _ _ _ _ => Option NotificationRecord
  | .findNotificationById _ _ => Option NotificationRecord
  | .findByProviderMessageId _ _ => Option NotificationRecord
  | .findStuckClaims _ _ => List NotificationRecord
  | .findDueForDispatch _ _ => List NotificationRecord
  | .beginAttempt _ => Option Nat
  | .recordSent _ => Bool
  | .deferTransition _ => Bool
  | .transitionAndRecord _ _ => Bool
  | .enqueueDispatch _ => Bool
  | .releaseClaim _ _ => Bool
  | .cancelTransition _ => Option NotificationRecord
  | .cancelWaitingTransition _ => List (Uuid × NotificationStatus)
  | .acknowledgementTransition _ => Bool
  | .findUnresolved _ _ => Option SendAttemptRecord
  | .resolveAttempt _ => Unit
  | .findDeliverySettings _ => Option ApplicationRecord
  | .findSessionById _ _ => Option WhatsAppSessionRecord
  | .findSessionByIdWithoutTenantScope _ => Option WhatsAppSessionRecord
  | .recordStatus _ _ => Unit
  | .claimAccountLimitsRefresh _ _ _ => Bool
  | .invalidateAccountLimits _ => Unit
  | .recordAccountLimits _ _ => Unit
  | .endSendingPause _ _ => Unit
  | .reserveSlot _ _ => Option Timestamptz
  | .readNextSendAllowedAt _ => Option Timestamptz
  | .claimForProcessing _ => Option WebhookDeliveryRecord
  | .markProcessed _ => Unit
  | .resolveRecipient _ _ => ProviderResult ResolvedRecipient
  | .showTyping _ _ _ => Unit
  | .sendTextMessage _ _ _ => Unit
  | .sendTextMessageAnswer => ProviderResult SentMessage
  | .fetchAccountLimits _ => ProviderResult AccountLimits
  | .getSession _ => ProviderResult (Option ProviderSession)

/-- What the surroundings choose when they answer an operation. -/
inductive Choice where
  | nothing
  | date (now : Date)
  | number (draw : Nat)
  | flag (value : Bool)
  | locked (ids : List Uuid)
  | resolved (result : ProviderResult ResolvedRecipient)
  | sent (result : ProviderResult SentMessage)
  | limits (result : ProviderResult AccountLimits)
  | session (result : ProviderResult (Option ProviderSession))

abbrev operations : Interleaving.Interface := ⟨Op, Op.Ret⟩

/-- A program of one of the platform's processes. -/
abbrev Program := Interleaving.Prog operations

def perform (o : Op) : Program o.Ret := Interleaving.Prog.call (I := operations) o

namespace Choice

def date? : Choice → Option Date
  | .date now => some now
  | _ => none

def number? : Choice → Option Nat
  | .number draw => some draw
  | _ => none

def flag? : Choice → Option Bool
  | .flag value => some value
  | _ => none

def locked? : Choice → Option (List Uuid)
  | .locked ids => some ids
  | _ => none

def resolved? : Choice → Option (ProviderResult ResolvedRecipient)
  | .resolved result => if result.isClassified then some result else none
  | _ => none

def sent? : Choice → Option (ProviderResult SentMessage)
  | .sent result => if result.isClassified then some result else none
  | _ => none

def limits? : Choice → Option (ProviderResult AccountLimits)
  | .limits result => some result
  | _ => none

def session? : Choice → Option (ProviderResult (Option ProviderSession))
  | .session result => some result
  | _ => none

/-- An operation that leaves nothing to choose. -/
def quietly {α : Type} (c : Choice) (x : Sql α) : Sql α :=
  match c with
  | .nothing => x
  | _ => raise

theorem quietly_eq_some {α : Type} {c : Choice} {x : Sql α} {w : World} {p : α × World} :
    c.quietly x w = some p ↔ c = .nothing ∧ x w = some p := by
  cases c <;> simp [quietly, raise]

end Choice

/-- An operation answered by what was chosen. -/
def given {α β : Type} (chosen : Option β) (x : β → Sql α) : Sql α :=
  match chosen with
  | none => raise
  | some b => x b

theorem given_eq_some {α β : Type} {chosen : Option β} {x : β → Sql α} {w : World}
    {p : α × World} : given chosen x w = some p ↔ ∃ b, chosen = some b ∧ x b w = some p := by
  cases chosen <;> simp [given, raise]

/-- What each operation does. A choice that does not fit an operation answers nothing. -/
def meaning (c : Choice) : (o : Op) → Sql o.Ret
  | .clockNow => given c.date? pure
  | .randomUuid => c.quietly generateIdentifier
  | .integerBetween minimum maximum =>
    given c.number? fun draw => if minimum ≤ draw ∧ draw ≤ maximum then pure draw else raise
  | .isAborted => given c.flag? pure
  | .throwException _ => raise
  | .promoteScheduled a n now => c.quietly (NotificationRepository.promoteScheduled a n now)
  | .appendEvent input => c.quietly (NotificationRepository.appendEvent input)
  | .claimForDispatch a n t now => c.quietly (NotificationRepository.claimForDispatch a n t now)
  | .findNotificationById a n => c.quietly (NotificationRepository.findById a n)
  | .findByProviderMessageId s m => c.quietly (NotificationRepository.findByProviderMessageId s m)
  | .findStuckClaims before limit => c.quietly (NotificationRepository.findStuckClaims before limit)
  | .findDueForDispatch now limit => c.quietly (NotificationRepository.findDueForDispatch now limit)
  | .beginAttempt input => c.quietly (beginAttemptTransaction input)
  | .recordSent input => c.quietly (NotificationPlatform.recordSent input)
  | .deferTransition input => c.quietly (NotificationPlatform.deferTransition input)
  | .transitionAndRecord n step => c.quietly (NotificationPlatform.transitionAndRecord n step)
  | .enqueueDispatch job => c.quietly (NotificationPlatform.enqueueDispatch job)
  | .releaseClaim n now => c.quietly (NotificationPlatform.releaseClaim n now)
  | .cancelTransition input => c.quietly (NotificationPlatform.cancelTransition input)
  | .cancelWaitingTransition input =>
    given c.locked? fun ids => NotificationPlatform.cancelWaitingTransition input ids
  | .acknowledgementTransition input =>
    c.quietly (NotificationPlatform.acknowledgementTransition input)
  | .findUnresolved a n => c.quietly (NotificationSendAttemptRepository.findUnresolved a n)
  | .resolveAttempt input => c.quietly (NotificationSendAttemptRepository.resolve input)
  | .findDeliverySettings a => c.quietly (ApplicationRepository.findDeliverySettings a)
  | .findSessionById a s => c.quietly (WhatsAppSessionRepository.findById a s)
  | .findSessionByIdWithoutTenantScope s =>
    c.quietly (WhatsAppSessionRepository.findByIdWithoutTenantScope s)
  | .recordStatus s input => c.quietly (WhatsAppSessionRepository.recordStatus s input)
  | .claimAccountLimitsRefresh s now before =>
    c.quietly (WhatsAppSessionRepository.claimAccountLimitsRefresh s now before)
  | .invalidateAccountLimits s => c.quietly (WhatsAppSessionRepository.invalidateAccountLimits s)
  | .recordAccountLimits s input =>
    c.quietly (WhatsAppSessionRepository.recordAccountLimits s input)
  | .endSendingPause s observed => c.quietly (WhatsAppSessionRepository.endSendingPause s observed)
  | .reserveSlot s now =>
    given c.number? fun draw => WhatsAppSessionRepository.reserveSlot s now draw
  | .readNextSendAllowedAt s => c.quietly (WhatsAppSessionRepository.readNextSendAllowedAt s)
  | .claimForProcessing d => c.quietly (WebhookDeliveryRepository.claimForProcessing d)
  | .markProcessed input => c.quietly (WebhookDeliveryRepository.markProcessed input)
  | .resolveRecipient _ _ => given c.resolved? pure
  | .showTyping _ _ _ => c.quietly (pure ())
  | .sendTextMessage _ _ _ => c.quietly (pure ())
  | .sendTextMessageAnswer => given c.sent? pure
  | .fetchAccountLimits _ => given c.limits? pure
  | .getSession _ => given c.session? pure

/-- Runs one operation. -/
def exec (w : World) (o : Op) (c : Choice) : Option (o.Ret × World) := meaning c o w

end NotificationPlatform
