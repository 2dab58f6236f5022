import NotificationPlatform.Platform.Machine
import NotificationPlatform.Delivery.Effect
import NotificationPlatform.Delivery.Discipline
import NotificationPlatform.Delivery.Moves
import NotificationPlatform.Delivery.Invariants
import NotificationPlatform.Delivery.Ledger
import NotificationPlatform.Delivery.Acceptance
import NotificationPlatform.Delivery.Runs
import NotificationPlatform.Delivery.Budget
import NotificationPlatform.Delivery.Ownership
import NotificationPlatform.Delivery.NoDoubleSend
import NotificationPlatform.Delivery.Agreement
import NotificationPlatform.Delivery.Fencing
import NotificationPlatform.Delivery.Closing
import NotificationPlatform.Delivery.Refusal
import NotificationPlatform.Delivery.FailClosed
import NotificationPlatform.Inbox.Translation
import NotificationPlatform.Inbox.Acknowledgements
import NotificationPlatform.Lifecycle.Writes
import NotificationPlatform.Lifecycle.StatusGraph
import NotificationPlatform.Lifecycle.Repair
import NotificationPlatform.Timing.Watch
import NotificationPlatform.Delivery.Footprint
import NotificationPlatform.Timing.Connections
import NotificationPlatform.Timing.Clock
import NotificationPlatform.Timing.Schedule
import NotificationPlatform.Timing.Pause
import NotificationPlatform.Timing.Pacing
import NotificationPlatform.Inbox.Handling
import NotificationPlatform.Inbox.Isolation
import NotificationPlatform.PublicApi.Rows
import NotificationPlatform.Interleaving.Raising
import NotificationPlatform.PublicApi.Operations
import NotificationPlatform.Gcra.Arrival
import NotificationPlatform.RateLimit.Function
import NotificationPlatform.RateLimit.Answers
import NotificationPlatform.RateLimit.Pruning
import NotificationPlatform.Delivery.Reaping
import NotificationPlatform.Delivery.Accounting
import NotificationPlatform.Lifecycle.Entries
import NotificationPlatform.Lifecycle.Timeline
import NotificationPlatform.Timing.Doubt
import NotificationPlatform.Interleaving.Serial
import NotificationPlatform.Lifecycle.Outcome
import NotificationPlatform.Json.Text
import NotificationPlatform.PublicApi.CreateNotification
import NotificationPlatform.Interleaving.Alone
import NotificationPlatform.PublicApi.Alone
import NotificationPlatform.Domain.Template
import NotificationPlatform.Template.Grammar
import NotificationPlatform.Lifecycle.Backlog
import NotificationPlatform.Template.Rendering
import NotificationPlatform.Inbox.SessionStatus
import NotificationPlatform.Timing.Timelock
import NotificationPlatform.Lifecycle.BulkCancel
import NotificationPlatform.Timing.Reservations
import NotificationPlatform.PublicApi.Fingerprint
import NotificationPlatform.PublicApi.Validation
import NotificationPlatform.PublicApi.Deletion
import NotificationPlatform.Lifecycle.FailureColumns
import NotificationPlatform.Provider.ClassifyFailure
import NotificationPlatform.Timing.RetryInstant
import NotificationPlatform.Tenant.ApiKey
import NotificationPlatform.Observability.Withholding
import NotificationPlatform.Authentication.Disclosure
import NotificationPlatform.Authentication.SessionWindow
import NotificationPlatform.Authentication.Lockout
import NotificationPlatform.PublicApi.Cursor
import NotificationPlatform.Provider.Masking
import NotificationPlatform.PublicApi.Pagination
import NotificationPlatform.Inbox.Correlation
import NotificationPlatform.PublicApi.ExpiredKeys
import NotificationPlatform.Inbox.CallbackIsolation
import NotificationPlatform.PublicApi.Idempotency
import NotificationPlatform.PublicApi.Isolation
import NotificationPlatform.Tenant.ApiKeyLife
import NotificationPlatform.Security.Encryption
import NotificationPlatform.Connections.Service
import NotificationPlatform.Connections.SigningKeys
