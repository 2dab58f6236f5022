import NotificationPlatform.Service.Dispatch
import NotificationPlatform.Service.Maintenance
import NotificationPlatform.Service.ProcessWebhook

/-!
# The platform as a machine

Each request is one call of a service, run by some process. What happens to the shared world
besides is an `Event`: time passes, a request of the API creates a notification, the queue hands a
job to a worker, callbacks are filed, and connections and applications are administered in ways that
do not concern this development.
-/

namespace NotificationPlatform

open Interleaving

inductive Request where
  | dispatch (input : DispatchInput)
  | runMaintenance
  | cancel (applicationId notificationId : Uuid) (correlationId : Option String)
  | cancelWaiting (applicationId : Uuid) (whatsAppSessionId : Option Uuid)
      (correlationId : Option String)
  | process (deliveryId : Uuid)
  | refreshSession (applicationId sessionId : Uuid)
deriving DecidableEq

inductive Result where
  | dispatched (result : DispatchResult)
  | maintained (report : NotificationMaintenanceService.MaintenanceReport)
  | cancelled (result : NotificationQueryService.CancelResult)
  | cancelledWaiting (result : NotificationQueryService.CancelWaitingResult)
  | processed (result : ProcessWebhookService.ProcessWebhookResult)
  | refreshed (session : Option WhatsAppSessionRecord)

def program (configuration : Configuration) : Request → Program Result
  | .dispatch input =>
    Result.dispatched <$> DispatchNotificationService.dispatch configuration input
  | .runMaintenance => Result.maintained <$> NotificationMaintenanceService.runOnce configuration
  | .cancel a n correlationId =>
    Result.cancelled <$> NotificationQueryService.cancel a n correlationId
  | .cancelWaiting a s correlationId =>
    Result.cancelledWaiting <$> NotificationQueryService.cancelWaiting a s correlationId
  | .process d => Result.processed <$> ProcessWebhookService.process configuration d
  | .refreshSession a s => Result.refreshed <$> WhatsAppSessionService.get configuration a s

inductive Event where
  | clock (now : Timestamptz)
  | created (draft : NotificationDraft)
  | jobTaken (notificationId : Uuid)
  | filed (input : WebhookDeliveryRepository.RecordWebhookDeliveryInput)
  | sessions (table : Relational.Table WhatsAppSessionRecord)
  | applications (table : Relational.Table ApplicationRecord)

/-- What an event makes of the world. -/
def outside (w : World) : Event → Option World
  | .clock now => if w.now ≤ now then some { w with now } else none
  | .created draft => (writeNotification draft w).map (·.2)
  | .jobTaken n => some { w with dispatchJobs := w.dispatchJobs.filter (·.notificationId ≠ n) }
  | .filed input => (WebhookDeliveryRepository.record input w).map (·.2)
  | .sessions table => some { w with whatsAppSessions := table }
  | .applications table => some { w with applications := table }

/-- The machine of all processes. -/
@[reducible] def platform (configuration : Configuration) : Machine operations where
  World := World
  Choice := Choice
  Request := Request
  Result := Result
  Event := Event
  exec := exec
  program := program configuration
  outside := outside

end NotificationPlatform
