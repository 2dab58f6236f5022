import Mathlib.Data.Rat.Floor
import NotificationPlatform.Relational.Table
import NotificationPlatform.Domain.Provider
import NotificationPlatform.Gcra.Arrival

/-!
# The rate limiter

`consume_rate_limit` and `prune_rate_limit_buckets` of
`packages/database/migrations/0006_rate_limit_function.sql`, with the repository and the service
that call them. An interval is a number of microseconds, as the database stores one that has no days
in it. A call is one statement on one row, so calls follow one another; `none` is a call that
raises, which changes nothing. The arithmetic of the function is that of the algorithm in `Gcra`:
`attempt_eq` says so, and nothing after it looks at the statement again.
-/

namespace NotificationPlatform

open Relational

structure RateLimitBucket where
  subject : String
  theoreticalArrivalAt : Timestamptz
  updatedAt : Timestamptz
deriving DecidableEq

instance : Keyed RateLimitBucket String := ⟨RateLimitBucket.subject⟩

@[simp] theorem key_bucket (r : RateLimitBucket) : key r = r.subject := rfl

/-- `rate_limit_buckets`. -/
abbrev RateLimitBuckets := Table RateLimitBucket

structure RateLimitPolicy where
  requestsPerPeriod : Int
  burstAllowance : Int
  periodSeconds : Int
deriving DecidableEq

structure RateLimitDecision where
  isAllowed : Bool
  remainingRequests : Int
  retryAfterSeconds : ℚ
  resetsAfterSeconds : ℚ
deriving DecidableEq

/-- The nearest integer, and of two the even one. -/
def rint (q : ℚ) : Int :=
  if q - ⌊q⌋ < 1 / 2 then ⌊q⌋
  else if 1 / 2 < q - ⌊q⌋ then ⌊q⌋ + 1
  else if ⌊q⌋ % 2 = 0 then ⌊q⌋ else ⌊q⌋ + 1

/-- `make_interval(secs => ..)`. -/
def makeInterval (seconds : ℚ) : Int := rint (seconds * 1000000)

/-- `extract(epoch FROM ..)`. -/
def extractEpoch (interval : Int) : ℚ := interval / 1000000

namespace RateLimitPolicy

variable (policy : RateLimitPolicy)

/-- How far apart requests would be if the caller were exactly on pace. -/
def emissionInterval : Int :=
  makeInterval ((policy.periodSeconds : ℚ) / (policy.requestsPerPeriod : ℚ))

/-- How many requests may come at once. -/
def burst : Int := max policy.burstAllowance 1

/-- How far ahead of pace a caller may run before being refused. -/
def delayTolerance : Int := policy.emissionInterval * policy.burst

/-- The function raises on any other allowance or period. -/
def isValid : Bool := 0 < policy.requestsPerPeriod ∧ 0 < policy.periodSeconds

end RateLimitPolicy

/-- The statement that decides and writes: the arrival it returns, if it wrote the row. A subject
`rate_limit_buckets_subject_length_check` refuses raises. -/
def attempt (subjectKey : String) (emissionInterval delayTolerance : Int)
    (requestedAt : Timestamptz) (buckets : RateLimitBuckets) :
    Option (Option Timestamptz × RateLimitBuckets) :=
  if 1 ≤ subjectKey.length ∧ subjectKey.length ≤ 200 then
    match buckets.find? subjectKey with
    | none =>
      (buckets.insert? ⟨subjectKey, requestedAt + emissionInterval, requestedAt⟩).map
        fun buckets => (some (requestedAt + emissionInterval), buckets)
    | some bucket =>
      let arrival := max bucket.theoreticalArrivalAt requestedAt + emissionInterval
      if arrival - delayTolerance ≤ requestedAt then
        some (some arrival, (buckets.updateAt subjectKey (fun _ => true)
          (fun r => { r with theoreticalArrivalAt := arrival, updatedAt := requestedAt })
          fun _ => rfl).2)
      else some (none, buckets)
  else none

def consumeRateLimit (subjectKey : String) (policy : RateLimitPolicy)
    (requestedAt : Timestamptz) (buckets : RateLimitBuckets) :
    Option (RateLimitDecision × RateLimitBuckets) := do
  if policy.isValid then
    let emissionInterval := policy.emissionInterval
    let delayTolerance := policy.delayTolerance
    let currentArrival := (buckets.find? subjectKey).map (·.theoreticalArrivalAt)
    let (grantedArrival, buckets) ←
      attempt subjectKey emissionInterval delayTolerance requestedAt buckets
    match grantedArrival with
    | some grantedArrival =>
      -- division by zero raises
      if emissionInterval = 0 then none
      else return ({
        isAllowed := true
        remainingRequests := max 0
          ⌊extractEpoch (requestedAt + delayTolerance - grantedArrival) /
            extractEpoch emissionInterval⌋
        retryAfterSeconds := 0
        resetsAfterSeconds := max 0 (extractEpoch (grantedArrival - requestedAt)) }, buckets)
    | none =>
      let effectiveArrival := max (currentArrival.getD requestedAt) requestedAt
      return ({
        isAllowed := false
        remainingRequests := 0
        retryAfterSeconds := max 0
          (extractEpoch (effectiveArrival + emissionInterval - delayTolerance - requestedAt))
        resetsAfterSeconds := max 0 (extractEpoch (effectiveArrival - requestedAt)) }, buckets)
  else none

/-- `prune_rate_limit_buckets`. -/
def pruneRateLimitBuckets (olderThan : Timestamptz) (buckets : RateLimitBuckets) :
    RateLimitBuckets where
  rows := buckets.rows.filter fun r => ¬ r.updatedAt < olderThan
  nodup := buckets.nodup.sublist (List.filter_sublist.map _)

namespace RateLimitRepository

def consume (subject : String) (policy : RateLimitPolicy) (now : Date) (buckets : RateLimitBuckets) :
    Option (RateLimitDecision × RateLimitBuckets) :=
  consumeRateLimit subject policy (toTimestamptz now) buckets

def prune (olderThan : Date) (buckets : RateLimitBuckets) : RateLimitBuckets :=
  pruneRateLimitBuckets (toTimestamptz olderThan) buckets

end RateLimitRepository

namespace RateLimitService

structure RateLimitOutcome extends RateLimitDecision where
  limit : Int
  wasDegraded : Bool
deriving DecidableEq

/-- Fails open: a limiter that cannot decide lets the request through. -/
def consume (subject : String) (policy : RateLimitPolicy) (now : Date) (buckets : RateLimitBuckets) :
    RateLimitOutcome × RateLimitBuckets :=
  match RateLimitRepository.consume subject policy now buckets with
  | some (decision, buckets) =>
    ({ decision with limit := policy.requestsPerPeriod, wasDegraded := false }, buckets)
  | none => ({
      isAllowed := true
      remainingRequests := policy.requestsPerPeriod
      retryAfterSeconds := 0
      resetsAfterSeconds := 0
      limit := policy.requestsPerPeriod
      wasDegraded := true }, buckets)

/-- Drops the buckets last used before `olderThanSeconds` ago. -/
def prune (olderThanSeconds : Int) (now : Date) (buckets : RateLimitBuckets) : RateLimitBuckets :=
  RateLimitRepository.prune (now - olderThanSeconds * 1000) buckets

end RateLimitService

/-! ## What a call does -/

namespace RateLimitPolicy

/-- A policy the function accepts, with requests at least a microsecond apart. -/
structure Meters (policy : RateLimitPolicy) : Prop where
  isValid : policy.isValid = true
  interval : 0 < policy.emissionInterval

variable {policy : RateLimitPolicy}

/-- The policy, for the algorithm. -/
def gcra (policy : RateLimitPolicy) (h : policy.Meters) : Gcra.Policy Int where
  interval := policy.emissionInterval
  burst := policy.burst.toNat
  interval_pos := h.interval
  burst_pos := by
    have : 1 ≤ policy.burst := le_max_right _ _
    omega

theorem burst_eq : (policy.burst.toNat : Int) = policy.burst :=
  Int.toNat_of_nonneg (by have : 1 ≤ policy.burst := le_max_right _ _; omega)

@[simp] theorem gcra_interval (h : policy.Meters) :
    (policy.gcra h).interval = policy.emissionInterval := rfl

@[simp] theorem gcra_burst (h : policy.Meters) :
    ((policy.gcra h).burst : Int) = policy.burst := burst_eq

@[simp] theorem gcra_tolerance (h : policy.Meters) :
    (policy.gcra h).tolerance = policy.delayTolerance := by
  simp only [Gcra.Policy.tolerance, nsmul_eq_mul, gcra_interval, delayTolerance]
  rw [gcra_burst h, mul_comm]

end RateLimitPolicy

/-- A subject the table accepts. -/
def isSubject (subject : String) : Bool := 1 ≤ subject.length ∧ subject.length ≤ 200

/-- The arrival stored for a subject. -/
def arrivalOf (buckets : RateLimitBuckets) (subject : String) : Option Timestamptz :=
  (buckets.find? subject).map (·.theoreticalArrivalAt)

/-- The decision on a request at `t`, given the arrival stored for its subject. -/
def RateLimitPolicy.decision (policy : RateLimitPolicy) (a : Option Timestamptz) (t : Timestamptz) :
    RateLimitDecision :=
  let next := Gcra.effective a t + policy.emissionInterval
  if next - policy.delayTolerance ≤ t then {
    isAllowed := true
    remainingRequests := max 0 ((t + policy.delayTolerance - next) / policy.emissionInterval)
    retryAfterSeconds := 0
    resetsAfterSeconds := max 0 (extractEpoch (next - t)) }
  else {
    isAllowed := false
    remainingRequests := 0
    retryAfterSeconds := max 0 (extractEpoch (next - policy.delayTolerance - t))
    resetsAfterSeconds := max 0 (extractEpoch (Gcra.effective a t - t)) }

theorem extractEpoch_nonneg {d : Int} : 0 ≤ extractEpoch d ↔ 0 ≤ d := by
  simp only [extractEpoch]
  rw [le_div_iff₀ (by norm_num), zero_mul]
  exact Int.cast_nonneg_iff

theorem extractEpoch_injective {d d' : Int} (h : extractEpoch d = extractEpoch d') : d = d' := by
  simp only [extractEpoch] at h
  rw [div_left_inj' (by norm_num)] at h
  exact_mod_cast h

/-- The quotient of two intervals, rounded down. -/
theorem floor_extractEpoch (d : Int) {interval : Int} (h : 0 < interval) :
    ⌊extractEpoch d / extractEpoch interval⌋ = d / interval := by
  have hq : (0 : ℚ) < interval := by exact_mod_cast h
  have hdiv : extractEpoch d / extractEpoch interval = (d : ℚ) / interval := by
    simp only [extractEpoch]
    rw [div_div_div_cancel_right₀ (by norm_num)]
  rw [hdiv, Int.floor_eq_iff, le_div_iff₀ hq, div_lt_iff₀ hq]
  have hlow : d / interval * interval ≤ d := Int.ediv_mul_le d h.ne'
  have hhigh : d < (d / interval + 1) * interval := Int.lt_ediv_add_one_mul_self d h
  constructor
  · exact_mod_cast hlow
  · exact_mod_cast hhigh

/-- The statement is one unit of the algorithm, taken by the subject's row. -/
theorem attempt_eq {policy : RateLimitPolicy} (h : policy.Meters) {subject : String}
    (hs : isSubject subject) (t : Timestamptz) (buckets : RateLimitBuckets) :
    ∃ after, attempt subject policy.emissionInterval policy.delayTolerance t buckets =
      some (if (policy.gcra h).Admits (arrivalOf buckets subject) t then
        some ((policy.gcra h).next (arrivalOf buckets subject) t) else none, after) ∧
      ∀ subject', after.find? subject' =
        if subject' = subject ∧ (policy.gcra h).Admits (arrivalOf buckets subject) t then
          some ⟨subject, (policy.gcra h).next (arrivalOf buckets subject) t, t⟩
        else buckets.find? subject' := by
  simp only [isSubject, decide_eq_true_eq] at hs
  simp only [attempt, hs, and_self, if_true]
  cases hb : buckets.find? subject with
  | none =>
    have ha : arrivalOf buckets subject = none := by simp only [arrivalOf, hb, Option.map_none]
    obtain ⟨after, hafter⟩ := Table.insert?_of_free
      (r := (⟨subject, t + policy.emissionInterval, t⟩ : RateLimitBucket)) hb
    have hadmits : (policy.gcra h).Admits none t := Gcra.Policy.admits_none t
    refine ⟨after, ?_, ?_⟩
    · simp only [hafter, Option.map_some, ha, hadmits, if_true, Gcra.Policy.next,
        Gcra.effective_none, RateLimitPolicy.gcra_interval]
    · intro subject'
      rw [Table.find?_insert? hafter, ha]
      simp only [key_bucket, hadmits, and_true, Gcra.Policy.next, Gcra.effective_none,
        RateLimitPolicy.gcra_interval, eq_comm]
  | some bucket =>
    have ha : arrivalOf buckets subject = some bucket.theoreticalArrivalAt := by
      simp only [arrivalOf, hb, Option.map_some]
    have hiff : (policy.gcra h).Admits (some bucket.theoreticalArrivalAt) t ↔
        max bucket.theoreticalArrivalAt t + policy.emissionInterval - policy.delayTolerance ≤ t := by
      simp only [Gcra.Policy.Admits, Gcra.Policy.next, Gcra.effective_some,
        RateLimitPolicy.gcra_interval, RateLimitPolicy.gcra_tolerance]
    by_cases hadmits : (policy.gcra h).Admits (some bucket.theoreticalArrivalAt) t
    · refine ⟨_, by simp only [hiff.1 hadmits, if_true, ha, hadmits, Gcra.Policy.next,
        Gcra.effective_some, RateLimitPolicy.gcra_interval]; rfl, ?_⟩
      intro subject'
      by_cases hself : subject' = subject
      · subst hself
        rw [Table.find?_updateAt_self, hb, ha]
        have hkey : bucket.subject = subject' := Table.key_of_find? hb
        simp only [hadmits, and_self, if_true, Option.map_some, Gcra.Policy.next,
          Gcra.effective_some, RateLimitPolicy.gcra_interval, hkey]
      · rw [Table.find?_updateAt_other _ hself]
        simp only [hself, false_and, if_false]
    · refine ⟨buckets, by simp only [hiff.not.1 hadmits, if_false, ha, hadmits], ?_⟩
      intro subject'
      simp only [ha, hadmits, and_false, if_false]

/-- **What a call does**: it decides by the arrival stored for the subject, and stores the next one
if it granted the request. -/
theorem consume_eq {policy : RateLimitPolicy} (h : policy.Meters) {subject : String}
    (hs : isSubject subject) (t : Timestamptz) (buckets : RateLimitBuckets) :
    ∃ after, consumeRateLimit subject policy t buckets =
      some (policy.decision (arrivalOf buckets subject) t, after) ∧
      ∀ subject', after.find? subject' =
        if subject' = subject ∧ (policy.gcra h).Admits (arrivalOf buckets subject) t then
          some ⟨subject, (policy.gcra h).next (arrivalOf buckets subject) t, t⟩
        else buckets.find? subject' := by
  obtain ⟨after, hattempt, hafter⟩ := attempt_eq h hs t buckets
  refine ⟨after, ?_, hafter⟩
  have hiff : (policy.gcra h).Admits (arrivalOf buckets subject) t ↔
      Gcra.effective (arrivalOf buckets subject) t + policy.emissionInterval -
        policy.delayTolerance ≤ t := by
    simp only [Gcra.Policy.Admits, Gcra.Policy.next, RateLimitPolicy.gcra_interval,
      RateLimitPolicy.gcra_tolerance]
  simp only [consumeRateLimit, h.isValid, if_true, hattempt, Option.bind_eq_bind, Option.bind_some]
  by_cases hadmits : (policy.gcra h).Admits (arrivalOf buckets subject) t
  · simp only [hadmits, if_true, h.interval.ne', if_false, RateLimitPolicy.decision, hiff.1 hadmits,
      floor_extractEpoch _ h.interval, Gcra.Policy.next, RateLimitPolicy.gcra_interval]
    rfl
  · simp only [hadmits, if_false, RateLimitPolicy.decision, hiff.not.1 hadmits]
    rfl

end NotificationPlatform
