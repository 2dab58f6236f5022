import NotificationPlatform.Service.ConnectionState

/-!
# Maintenance and cancelling

`packages/composition/src/notification/notification-maintenance.service.ts`, and `cancel` and
`cancelWaiting` of `notification-query.service.ts`. Pruning the rate limit buckets, the last step of
a maintenance pass, concerns no notification and is left out.
-/

namespace NotificationPlatform

/-! ## `NotificationMaintenanceService` -/

namespace NotificationMaintenanceService

def MAINTENANCE_BATCH_SIZE : Nat := 200

structure MaintenanceReport where
  reapedClaims : Nat
  requeuedNotifications : Nat
deriving DecidableEq, Repr

/-- The loop of `reapStuckClaims`. -/
def releaseEach (now : Date) : List NotificationRecord → Program Nat
  | [] => return 0
  | notification :: stuck => do
    let isReleased ← perform (.releaseClaim notification now)
    let reaped ← releaseEach now stuck
    return if isReleased then reaped + 1 else reaped

/-- Returns abandoned claims to the queue. -/
def reapStuckClaims (configuration : Configuration) : Program Nat := do
  let now ← perform .clockNow
  let stuck ← perform (.findStuckClaims
    (now - configuration.stuckClaimTimeoutSeconds * 1000) MAINTENANCE_BATCH_SIZE)
  releaseEach now stuck

/-- The loop of `requeueDueNotifications`. -/
def enqueueEach (now : Date) : List NotificationRecord → Program Nat
  | [] => return 0
  | notification :: due => do
    let isEnqueued ← perform (.enqueueDispatch (notification.job now))
    let requeued ← enqueueEach now due
    return if isEnqueued then requeued + 1 else requeued

/-- Re-sends a dispatch job for everything that is due. -/
def requeueDueNotifications : Program Nat := do
  let now ← perform .clockNow
  let due ← perform (.findDueForDispatch now MAINTENANCE_BATCH_SIZE)
  enqueueEach now due

def runOnce (configuration : Configuration) : Program MaintenanceReport := do
  let reapedClaims ← reapStuckClaims configuration
  let requeuedNotifications ← requeueDueNotifications
  return { reapedClaims, requeuedNotifications }

end NotificationMaintenanceService

/-! ## `NotificationQueryService` -/

namespace NotificationQueryService

inductive CancelResult where
  | cancelled (notification : NotificationRecord)
  | notification_not_found
  | notification_not_cancellable (message : String)

def statusName : NotificationStatus → String
  | .SCHEDULED => "SCHEDULED"
  | .QUEUED => "QUEUED"
  | .PROCESSING => "PROCESSING"
  | .SENT => "SENT"
  | .DELIVERED => "DELIVERED"
  | .RETRYING => "RETRYING"
  | .FAILED => "FAILED"
  | .CANCELLED => "CANCELLED"

/-- Cancels a notification that has not yet been handed to the provider. The read locks nothing, so
the row can change before the conditional update. -/
def cancel (applicationId notificationId : Uuid) (correlationId : Option String) :
    Program CancelResult := do
  let existing ← perform (.findNotificationById applicationId notificationId)
  match existing with
  | none => return .notification_not_found
  | some existing =>
    if isCancellableNotificationStatus existing.status then
      let now ← perform .clockNow
      let cancelled ← perform (.cancelTransition {
        applicationId
        notificationId
        expectedStatus := existing.status
        correlationId
        now })
      match cancelled with
      | none =>
        return .notification_not_cancellable
          "The notification changed state before it could be cancelled."
      | some notification => return .cancelled notification
    else
      return .notification_not_cancellable
        s!"A notification in the {statusName existing.status} state cannot be cancelled."

inductive CancelWaitingResult where
  | cancelled (ids : List Uuid)
  | whatsapp_session_not_found

/-- Whether the connection the cancellation is limited to, if any, exists. -/
def isScopeKnown (applicationId : Uuid) (whatsAppSessionId : Option Uuid) : Program Bool :=
  match whatsAppSessionId with
  | none => return true
  | some sessionId => do
    let session ← perform (.findSessionById applicationId sessionId)
    return session.isSome

/-- Cancels everything still waiting to be sent. The service answers with the number of
notifications; which they are is kept here. -/
def cancelWaiting (applicationId : Uuid) (whatsAppSessionId : Option Uuid)
    (correlationId : Option String) : Program CancelWaitingResult := do
  let isKnown ← isScopeKnown applicationId whatsAppSessionId
  if isKnown then
    let now ← perform .clockNow
    let cancelled ← perform (.cancelWaitingTransition
      { applicationId, whatsAppSessionId, correlationId, now })
    return .cancelled (cancelled.map (·.1))
  else return .whatsapp_session_not_found

end NotificationQueryService

end NotificationPlatform
