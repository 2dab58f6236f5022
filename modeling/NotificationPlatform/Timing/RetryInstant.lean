import NotificationPlatform.Lifecycle.StatusGraph
import NotificationPlatform.Provider.ClassifyFailure

/-!
# The instant of a retry

A retry waits for the longest of a draw on the backoff curve, a minimum of the caller's and what the
provider asked for. The provider's wish is a number of seconds without an upper bound, and the date
it leads to has to be one that can be written down. Seconds become a date in doubles, so the date is
late enough only if nothing was lost to rounding.
-/

namespace NotificationPlatform

open Interleaving DispatchNotificationService ClassifyFailure

/-! ## Dates -/

section Dates

variable {x : ℚ}

end Dates

/-! ## The transaction -/

section Commit

variable {w : World} {notification r : NotificationRecord} {step : TransitionStep}

end Commit

/-! ## `retry` -/

section Retry

variable {number draw : Nat} {now : Date} {floor : ℚ}

end Retry

section Runs

variable {configuration : Configuration} {P : System (platform configuration) →
  Label (platform configuration) → Prop} {w : World} {s : System (platform configuration)}
  {notification r : NotificationRecord}

end Runs

namespace TooManyRequests

/-- The first send was answered, and the ledger was told that it failed. -/
def answered (retryAfter : String) : List Sample.Step :=
  Sample.dispatching 1 ++ Sample.sends 0 0 true ++
    [.advance 0 (.sent (.failed (classifyHttpStatus 429 "Too Many Requests" (some retryAfter)))),
      .advance 0 (.date 0), .advance 0 .nothing]

end TooManyRequests

end NotificationPlatform
