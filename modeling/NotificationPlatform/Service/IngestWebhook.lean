import NotificationPlatform.Database.Repository

/-!
# Filing a callback

`packages/composition/src/webhook/ingest-webhook.service.ts`.
-/

namespace NotificationPlatform

namespace IngestWebhookService

/-- What `ingest` records of an envelope it accepted. -/
def filing (session : WhatsAppSessionRecord) (envelope : WebhookEnvelope) (deliveryId : Uuid)
    (now : Date) : WebhookDeliveryRepository.RecordWebhookDeliveryInput where
  id := deliveryId
  applicationId := session.applicationId
  whatsAppSessionId := session.id
  providerEventId := envelope.id
  eventType := envelope.event
  providerSessionName := envelope.session
  payload := toStoredPayload envelope.event envelope.payload
  receivedAt := now

end IngestWebhookService

end NotificationPlatform
