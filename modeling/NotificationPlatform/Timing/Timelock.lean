import NotificationPlatform.Provider.Webhook
import NotificationPlatform.Delivery.Runs
import NotificationPlatform.Timing.Connections

/-!
# A reported timelock

The end of a timelock goes from a JSON number to a date, is compared with the clock and is written
down as text. A number too large for a date makes an invalid one, which is no end to the comparison
but cannot be written: the report is lost with the pause it calls for. So it is when the database
does not take a text of the report, or the end of the pause.
-/

namespace NotificationPlatform

open Interleaving Relational
open Json (Value nullish required)

/-- The number a field of an object holds. -/
def numberIn (value : Option Value) (name : String) : Option ℚ :=
  (value.bind Value.asObject).bind fun fields => (nullish fields name Value.asNumber).join

/-- The seconds a report gives for the end of the cycle of its quota. -/
def cycleEnd (container : Option Value) : Option ℚ :=
  numberIn (Json.lookup (limitsContainer container) "messageCapping") "cycleEnd"

section Pause

variable {container : Option Value} {restrictionObserved : Bool} {now : Date} {fallback : Int}
  {current : Option Date}

end Pause

/-! ## Recording a report -/

section Record

open ConnectionLimitsService

variable {configuration : Configuration} {record row : WhatsAppSessionRecord}
  {container : Option Value} {restrictionObserved : Bool} {now : Date} {w : World}

/-- The pause of a row after a report was recorded. -/
def extended (row : WhatsAppSessionRecord) : Option SendingPause → Option Date
  | some pause => some (max (row.sendingPausedUntil.getD pause.pausedUntil) pause.pausedUntil)
  | none => row.sendingPausedUntil

end Record

end NotificationPlatform
