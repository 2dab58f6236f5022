import NotificationPlatform.RateLimit.Answers

/-!
# Pruning the buckets

Two stores serve the same requests, one pruned by the maintenance passes and one never. A bucket may
be missing from the first while the second still has it, and no decision shows it as long as the
arrival it holds has passed (`Shadows`). A bucket is deleted an hour after its last use, so that is
so exactly where a whole burst is on pace within the hour, up to the millisecond in which the
process reads its clock. The range of policies an application can be given goes far beyond that.
-/

namespace NotificationPlatform

open Relational

/-- `readPolicy` of the rate limit guard. -/
def readPolicy (rateLimitPerMinute rateLimitBurst : Int) : RateLimitPolicy where
  requestsPerPeriod := rateLimitPerMinute
  burstAllowance := rateLimitBurst
  periodSeconds := 60

/-- What reaches the limiter: a request for a subject, or the last step of a maintenance pass. -/
inductive LimiterEvent where
  | consume (subject : String) (now : Date)
  | prune (now : Date)
deriving DecidableEq

/-- When it happens. -/
def LimiterEvent.now : LimiterEvent → Date
  | .consume _ now => now
  | .prune now => now

/-- The answers to the requests, and the store they leave; `isPruned` says whether the maintenance
passes delete anything. -/
def serveEvents (policy : RateLimitPolicy) (isPruned : Bool) : RateLimitBuckets →
    List LimiterEvent → List RateLimitService.RateLimitOutcome × RateLimitBuckets
  | buckets, [] => ([], buckets)
  | buckets, .consume subject now :: events =>
    let answer := RateLimitService.consume subject policy now buckets
    let rest := serveEvents policy isPruned answer.2 events
    (answer.1 :: rest.1, rest.2)
  | buckets, .prune now :: events =>
    serveEvents policy isPruned
      (if isPruned then RateLimitService.prune 3600 now buckets else buckets) events

theorem serveEvents_append (policy : RateLimitPolicy) (isPruned : Bool) (buckets : RateLimitBuckets)
    (events later : List LimiterEvent) :
    serveEvents policy isPruned buckets (events ++ later) =
      ((serveEvents policy isPruned buckets events).1 ++
        (serveEvents policy isPruned (serveEvents policy isPruned buckets events).2 later).1,
      (serveEvents policy isPruned (serveEvents policy isPruned buckets events).2 later).2) := by
  induction events generalizing buckets with
  | nil => rfl
  | cons event events ih =>
    cases event with
    | consume subject now => simp only [List.cons_append, serveEvents, ih]
    | prune now => simp only [List.cons_append, serveEvents, ih]

/-! ## One event -/

/-- The row of a subject after a pruning pass. -/
theorem find?_prune (olderThan : Timestamptz) (buckets : RateLimitBuckets) (subject : String) :
    (pruneRateLimitBuckets olderThan buckets).find? subject =
      (buckets.find? subject).filter fun r => ¬ r.updatedAt < olderThan := by
  have hmem : ∀ {r}, r ∈ (pruneRateLimitBuckets olderThan buckets).rows ↔
      r ∈ buckets.rows ∧ ¬ r.updatedAt < olderThan := by
    intro r
    simp only [pruneRateLimitBuckets, List.mem_filter, decide_eq_true_eq]
  cases hp : (pruneRateLimitBuckets olderThan buckets).find? subject with
  | some r =>
    obtain ⟨hr, hkept⟩ := hmem.1 (Table.mem_of_find? hp)
    have hfind := Table.find?_key hr
    rw [Table.key_of_find? hp] at hfind
    rw [hfind, Option.filter_some_pos (by simpa using hkept)]
  | none =>
    cases hb : buckets.find? subject with
    | none => rfl
    | some r =>
      have hold : r.updatedAt < olderThan := by
        by_contra hkept
        have hfind := Table.find?_key (hmem.2 ⟨Table.mem_of_find? hb, hkept⟩)
        rw [Table.key_of_find? hb, hp] at hfind
        cases hfind
      rw [Option.filter_some_neg (by simpa using hold)]

section Metered

variable {policy : RateLimitPolicy} (h : policy.Meters)
include h

/-- What a request does to the store: it leaves the next arrival, if it was granted. -/
theorem consume_service {subject : String} (hs : isSubject subject = true) (now : Date)
    (buckets : RateLimitBuckets) :
    ∃ after, RateLimitService.consume subject policy now buckets =
      ({ policy.decision (arrivalOf buckets subject) (toTimestamptz now) with
        limit := policy.requestsPerPeriod, wasDegraded := false }, after) ∧
      ∀ subject', after.find? subject' =
        if subject' = subject ∧
            (policy.gcra h).Admits (arrivalOf buckets subject) (toTimestamptz now) then
          some ⟨subject, (policy.gcra h).next (arrivalOf buckets subject) (toTimestamptz now),
            toTimestamptz now⟩
        else buckets.find? subject' := by
  obtain ⟨after, hconsume, hafter⟩ := consume_eq h hs (toTimestamptz now) buckets
  exact ⟨after, by simp only [RateLimitService.consume, RateLimitRepository.consume, hconsume],
    hafter⟩

omit h in
theorem consume_degraded {subject : String} (hs : ¬ isSubject subject = true)
    (now : Date) :
    ∃ outcome, ∀ buckets,
      RateLimitService.consume subject policy now buckets = (outcome, buckets) := by
  have hraise : ∀ buckets, consumeRateLimit subject policy (toTimestamptz now) buckets = none := by
    intro buckets
    cases hc : consumeRateLimit subject policy (toTimestamptz now) buckets with
    | none => rfl
    | some p => exact absurd (of_consume hc).2 hs
  refine ⟨{
    isAllowed := true
    remainingRequests := policy.requestsPerPeriod
    retryAfterSeconds := 0
    resetsAfterSeconds := 0
    limit := policy.requestsPerPeriod
    wasDegraded := true }, fun buckets => ?_⟩
  simp only [RateLimitService.consume, RateLimitRepository.consume, hraise buckets]

/-! ## Where pruning cannot be seen -/

/-- The pruned store against the other one, at `now`: a bucket it lacks holds an arrival that has
passed. -/
structure Shadows (policy : RateLimitPolicy) (now : Date) (pruned kept : RateLimitBuckets) :
    Prop where
  used : ∀ subject r, kept.find? subject = some r → ∃ d : Date,
    r.updatedAt = toTimestamptz d ∧ r.theoreticalArrivalAt ≤ r.updatedAt + policy.delayTolerance
  agree : ∀ subject, pruned.find? subject = kept.find? subject ∨
    (pruned.find? subject = none ∧
      ∀ r, kept.find? subject = some r → r.theoreticalArrivalAt ≤ toTimestamptz now)

end Metered

namespace Shadows

variable {policy : RateLimitPolicy} {pruned kept : RateLimitBuckets} {now now' : Date}

theorem start (policy : RateLimitPolicy) (now : Date) :
    Shadows policy now Table.empty Table.empty where
  used := fun _ _ hr => by cases hr
  agree := fun _ => .inl rfl

theorem later (hle : now ≤ now') (h : Shadows policy now pruned kept) :
    Shadows policy now' pruned kept where
  used := h.used
  agree := fun subject => (h.agree subject).imp_right fun ⟨hp, hk⟩ => ⟨hp, fun r hr =>
    (hk r hr).trans (toTimestamptz_mono hle)⟩

/-- A pass deletes buckets whose arrival has passed. -/
theorem prune (hfits : policy.delayTolerance ≤ 3600001000) (h : Shadows policy now pruned kept) :
    Shadows policy now (RateLimitService.prune 3600 now pruned) kept where
  used := h.used
  agree := by
    intro subject
    simp only [RateLimitService.prune, RateLimitRepository.prune, find?_prune]
    rcases h.agree subject with he | ⟨hp, hk⟩
    · cases hr : kept.find? subject with
      | none =>
        rw [he, hr]
        exact .inl rfl
      | some r =>
        rw [he, hr]
        obtain ⟨d, hd, harrival⟩ := h.used subject r hr
        by_cases hold : r.updatedAt < toTimestamptz (now - 3600 * 1000)
        · right
          refine ⟨Option.filter_some_neg (by simpa using hold), ?_⟩
          intro r' hr'
          cases hr'
          have hpassed : ∀ {u a t n : Int}, u = d * 1000 → a ≤ u + t → t ≤ 3600001000 →
              u < (n - 3600 * 1000) * 1000 → a ≤ n * 1000 := by
            intro u a t n hu ha ht hn
            omega
          exact hpassed hd harrival hfits hold
        · exact .inl (Option.filter_some_pos (by simpa using hold))
    · right
      exact ⟨by rw [hp]; rfl, hk⟩

/-- A request is answered alike by both. -/
theorem consume (h : policy.Meters) (hshadow : Shadows policy now pruned kept) (subject : String) :
    ∃ outcome pruned' kept',
      RateLimitService.consume subject policy now pruned = (outcome, pruned') ∧
      RateLimitService.consume subject policy now kept = (outcome, kept') ∧
      Shadows policy now pruned' kept' := by
  by_cases hs : isSubject subject = true
  · obtain ⟨pruned', hpruned, hpafter⟩ := consume_service h hs now pruned
    obtain ⟨kept', hkept, hkafter⟩ := consume_service h hs now kept
    -- an arrival that has passed counts for nothing
    have heff : Gcra.effective (arrivalOf pruned subject) (toTimestamptz now) =
        Gcra.effective (arrivalOf kept subject) (toTimestamptz now) := by
      rcases hshadow.agree subject with he | ⟨hp, hk⟩
      · simp only [arrivalOf, he]
      · cases hr : kept.find? subject with
        | none => simp only [arrivalOf, hp, hr]
        | some r =>
          simp only [arrivalOf, hp, hr, Option.map_none, Option.map_some, Gcra.effective_none,
            Gcra.effective_some]
          exact (max_eq_right (hk r hr)).symm
    have hnext : (policy.gcra h).next (arrivalOf pruned subject) (toTimestamptz now) =
        (policy.gcra h).next (arrivalOf kept subject) (toTimestamptz now) := by
      simp only [Gcra.Policy.next, heff]
    have hadmits : (policy.gcra h).Admits (arrivalOf pruned subject) (toTimestamptz now) ↔
        (policy.gcra h).Admits (arrivalOf kept subject) (toTimestamptz now) := by
      simp only [Gcra.Policy.Admits, hnext]
    have hdecision : policy.decision (arrivalOf pruned subject) (toTimestamptz now) =
        policy.decision (arrivalOf kept subject) (toTimestamptz now) := by
      simp only [RateLimitPolicy.decision, heff]
    refine ⟨_, pruned', kept', by rw [hpruned, hdecision], hkept, ?_, ?_⟩
    · intro subject' r hr
      rw [hkafter] at hr
      split at hr
      · rename_i hself
        cases hr
        refine ⟨now, rfl, ?_⟩
        have := Gcra.Policy.next_le hself.2
        rwa [RateLimitPolicy.gcra_tolerance] at this
      · exact hshadow.used subject' r hr
    · intro subject'
      rw [hpafter, hkafter, hnext]
      simp only [hadmits]
      split
      · exact .inl rfl
      · exact hshadow.agree subject'
  · obtain ⟨outcome, hsame⟩ := @consume_degraded policy _ hs now
    exact ⟨outcome, pruned, kept, hsame pruned, hsame kept, hshadow⟩

/-- Every answer is the same, whenever the passes run. -/
theorem outcomes (h : policy.Meters) (hfits : policy.delayTolerance ≤ 3600001000)
    (events : List LimiterEvent) (hordered : (events.map (·.now)).Pairwise (· ≤ ·))
    (hlater : ∀ e ∈ events, now ≤ e.now) (hshadow : Shadows policy now pruned kept) :
    (serveEvents policy true pruned events).1 = (serveEvents policy false kept events).1 := by
  induction events generalizing now pruned kept with
  | nil => rfl
  | cons event events ih =>
    rw [List.map_cons, List.pairwise_cons] at hordered
    have hnow := hshadow.later (hlater event List.mem_cons_self)
    have hrest : ∀ e ∈ events, event.now ≤ e.now := fun e he =>
      hordered.1 e.now (List.mem_map_of_mem he)
    cases event with
    | consume subject t =>
      obtain ⟨outcome, pruned', kept', hp, hk, hnext⟩ := hnow.consume h subject
      have hp' : RateLimitService.consume subject policy t pruned = (outcome, pruned') := hp
      have hk' : RateLimitService.consume subject policy t kept = (outcome, kept') := hk
      simp only [serveEvents, hp', hk']
      rw [ih hordered.2 hrest hnext]
    | prune t =>
      simp only [serveEvents, if_true, Bool.false_eq_true, if_false]
      exact ih hordered.2 hrest (hnow.prune hfits)

end Shadows

/-! ## Where it can -/

section Metered

variable {policy : RateLimitPolicy} (h : policy.Meters)
include h

/-- Requests at the start of the clock, as many as a burst allows, each granted. -/
theorem serve_burst {isPruned : Bool} {n : ℕ} (hn : (n : Int) ≤ policy.burst) :
    ∀ r, (serveEvents policy isPruned Table.empty
      (List.replicate n (.consume "a" 0))).2.find? "a" = some r ↔
        0 < n ∧ r = ⟨"a", n * policy.emissionInterval, 0⟩ := by
  induction n with
  | zero =>
    intro r
    constructor
    · intro hr
      cases hr
    · rintro ⟨hpos, -⟩
      exact absurd hpos (Nat.lt_irrefl 0)
  | succ n ih =>
    intro r
    have hprevious := ih (by push_cast at hn; omega)
    have hinterval := h.interval
    generalize hstore : (serveEvents policy isPruned Table.empty
      (List.replicate n (.consume "a" 0))).2 = store at hprevious
    have harrival : Gcra.effective (arrivalOf store "a") (0 : Int) =
        n * policy.emissionInterval := by
      cases hr : store.find? "a" with
      | none =>
        rcases Nat.eq_zero_or_pos n with rfl | hpos
        · simp only [arrivalOf, hr, Option.map_none, Gcra.effective_none]
          simp
        · have := (hprevious _).2 ⟨hpos, rfl⟩
          rw [hr] at this
          cases this
      | some r' =>
        obtain ⟨-, rfl⟩ := (hprevious r').1 hr
        simp only [arrivalOf, hr, Option.map_some, Gcra.effective_some]
        have hpos : 0 ≤ (n : Int) * policy.emissionInterval :=
          mul_nonneg (Int.natCast_nonneg n) hinterval.le
        exact max_eq_left hpos
    have hnext : (policy.gcra h).next (arrivalOf store "a") (toTimestamptz 0) =
        (n + 1 : ℕ) * policy.emissionInterval := by
      have hzero : toTimestamptz 0 = 0 := rfl
      rw [Gcra.Policy.next, hzero, harrival, RateLimitPolicy.gcra_interval]
      push_cast
      ring
    have hadmits : (policy.gcra h).Admits (arrivalOf store "a") (toTimestamptz 0) := by
      have hzero : toTimestamptz 0 = 0 := rfl
      rw [Gcra.Policy.Admits, hnext, RateLimitPolicy.gcra_tolerance, hzero,
        RateLimitPolicy.delayTolerance, mul_comm policy.emissionInterval, ← sub_mul]
      refine mul_nonpos_of_nonpos_of_nonneg ?_ hinterval.le
      omega
    obtain ⟨after, hconsume, hafter⟩ := @consume_service policy h "a" (by decide) 0 store
    rw [List.replicate_succ', serveEvents_append, hstore]
    simp only [serveEvents, hconsume]
    rw [hafter]
    simp only [hadmits, and_self, if_true, hnext, Option.some.injEq, Nat.succ_pos, true_and]
    exact eq_comm

/-- A burst at once, a pass just over an hour later, and one more request. -/
def burstThenPrune (burst : ℕ) : List LimiterEvent :=
  List.replicate burst (.consume "a" 0) ++ [.prune 3600001, .consume "a" 3600001]

omit h in
theorem burstThenPrune_ordered (burst : ℕ) :
    ((burstThenPrune burst).map (·.now)).Pairwise (· ≤ ·) := by
  simp only [burstThenPrune, List.map_append, List.map_replicate, List.map_cons, List.map_nil,
    List.pairwise_append, List.pairwise_replicate, LimiterEvent.now]
  refine ⟨.inr (le_refl 0), by decide, ?_⟩
  intro a ha b hb
  rw [List.eq_of_mem_replicate ha]
  simp only [List.mem_cons, List.not_mem_nil, or_false, or_self] at hb
  rw [hb]
  decide

/-- What the last request is answered. -/
theorem burstThenPrune_last (isPruned : Bool) :
    ∃ outcome, (serveEvents policy isPruned Table.empty (burstThenPrune policy.burst.toNat)).1 =
      (serveEvents policy isPruned Table.empty
        (List.replicate policy.burst.toNat (.consume "a" 0))).1 ++ [outcome] ∧
      outcome.toRateLimitDecision = policy.decision
        (if isPruned then none else some policy.delayTolerance) 3600001000 := by
  have hburst : 1 ≤ policy.burst := le_max_right _ _
  have hcast := @RateLimitPolicy.burst_eq policy
  have hfull := (@serve_burst policy h isPruned policy.burst.toNat (by omega) _).2
    ⟨by omega, rfl⟩
  generalize hstore : (serveEvents policy isPruned Table.empty
    (List.replicate policy.burst.toNat (.consume "a" 0))).2 = store at hfull
  rw [hcast] at hfull
  have harrival : arrivalOf (if isPruned then RateLimitService.prune 3600 3600001 store else store)
      "a" = if isPruned then none else some policy.delayTolerance := by
    cases isPruned with
    | false =>
      simp only [Bool.false_eq_true, if_false, arrivalOf, hfull, Option.map_some,
        RateLimitPolicy.delayTolerance, mul_comm]
    | true =>
      simp only [if_true, arrivalOf, RateLimitService.prune, RateLimitRepository.prune,
        find?_prune, hfull]
      have hold : (0 : Int) < toTimestamptz (3600001 - 3600 * 1000) := by decide
      rw [Option.filter_some_neg (by simpa using hold)]
      rfl
  obtain ⟨after, hconsume, -⟩ := @consume_service policy h "a" (by decide) 3600001
    (if isPruned then RateLimitService.prune 3600 3600001 store else store)
  rw [harrival] at hconsume
  have hnow : toTimestamptz 3600001 = 3600001000 := rfl
  rw [hnow] at hconsume
  refine ⟨{ policy.decision (if isPruned then none else some policy.delayTolerance) 3600001000 with
    limit := policy.requestsPerPeriod, wasDegraded := false }, ?_, rfl⟩
  rw [burstThenPrune, serveEvents_append, hstore]
  simp only [serveEvents, hconsume]

/-- A bucket whose arrival has not passed is missed. -/
theorem pruning_seen (hover : 3600001000 < policy.delayTolerance) :
    (serveEvents policy true Table.empty (burstThenPrune policy.burst.toNat)).1 ≠
      (serveEvents policy false Table.empty (burstThenPrune policy.burst.toNat)).1 := by
  intro hsame
  obtain ⟨pruned, hpruned, hp⟩ := burstThenPrune_last h true
  obtain ⟨kept, hkept, hk⟩ := burstThenPrune_last h false
  rw [hpruned, hkept] at hsame
  have hlast := (List.append_inj' hsame rfl).2
  simp only [List.cons.injEq, and_true] at hlast
  rw [hlast, hk] at hp
  simp only [if_true, Bool.false_eq_true, if_false] at hp
  have hallowed := congrArg RateLimitDecision.isAllowed hp
  rw [decision_isAllowed h, decision_isAllowed h] at hallowed
  have hgranted : (policy.gcra h).Admits none 3600001000 := Gcra.Policy.admits_none _
  have hgranted' : (policy.gcra h).Admits (some policy.delayTolerance) 3600001000 := by
    simpa [hgranted] using hallowed
  have hresets := congrArg RateLimitDecision.resetsAfterSeconds hp
  have hmissing : Gcra.effective none (3600001000 : Int) + policy.emissionInterval -
      policy.delayTolerance ≤ 3600001000 := by
    simpa [Gcra.Policy.Admits, Gcra.Policy.next] using hgranted
  have hstored : Gcra.effective (some policy.delayTolerance) (3600001000 : Int) +
      policy.emissionInterval - policy.delayTolerance ≤ 3600001000 := by
    simpa only [Gcra.Policy.Admits, Gcra.Policy.next, RateLimitPolicy.gcra_interval,
      RateLimitPolicy.gcra_tolerance] using hgranted'
  have hinterval := h.interval
  have hahead : Gcra.effective (some policy.delayTolerance) (3600001000 : Int) =
      policy.delayTolerance := max_eq_left hover.le
  rw [RateLimitPolicy.decision, RateLimitPolicy.decision, if_pos hmissing, if_pos hstored, hahead,
    Gcra.effective_none] at hresets
  simp only at hresets
  rw [max_eq_right (extractEpoch_nonneg.2 (by omega)),
    max_eq_right (extractEpoch_nonneg.2 (by omega))] at hresets
  have := extractEpoch_injective hresets
  omega

end Metered

theorem floor_le_rint (q : ℚ) : ⌊q⌋ ≤ rint q := by
  rw [rint]
  split_ifs <;> omega

/-- A policy an application can be configured with meters its requests. -/
theorem readPolicy_meters {rateLimitPerMinute rateLimitBurst : Int} (hrate : 1 ≤ rateLimitPerMinute)
    (hrate' : rateLimitPerMinute ≤ 6000) :
    (readPolicy rateLimitPerMinute rateLimitBurst).Meters := by
  have hrate0 : (0 : ℚ) < rateLimitPerMinute := by exact_mod_cast hrate
  have hrate1 : (rateLimitPerMinute : ℚ) ≤ 6000 := by exact_mod_cast hrate'
  refine ⟨?_, ?_⟩
  · have hpos : 0 < rateLimitPerMinute := by omega
    exact decide_eq_true ⟨hpos, (by decide : (0 : Int) < 60)⟩
  · have hpace : (1 : ℚ) ≤ 60 / rateLimitPerMinute * 1000000 := by
      rw [div_mul_eq_mul_div, le_div_iff₀ hrate0]
      linarith
    have hfloor : 1 ≤ ⌊(60 : ℚ) / rateLimitPerMinute * 1000000⌋ := Int.le_floor.2 (by
      exact_mod_cast hpace)
    have hrint := floor_le_rint ((60 : ℚ) / rateLimitPerMinute * 1000000)
    have heq : (readPolicy rateLimitPerMinute rateLimitBurst).emissionInterval =
        rint ((60 : ℚ) / rateLimitPerMinute * 1000000) := by
      simp only [RateLimitPolicy.emissionInterval, readPolicy, makeInterval]
      norm_num
    rw [heq]
    omega

/-- **Pruning cannot be seen exactly where a burst is on pace within the hour** (and a
millisecond): for every policy an application can be configured with, the answers to any requests
are those of a store that is never pruned. -/
theorem pruning_unobservable_iff (rateLimitPerMinute rateLimitBurst : Int)
    (hrate : 1 ≤ rateLimitPerMinute) (hrate' : rateLimitPerMinute ≤ 6000)
    (hburst : 1 ≤ rateLimitBurst) :
    (∀ events : List LimiterEvent, (events.map (·.now)).Pairwise (· ≤ ·) →
      (serveEvents (readPolicy rateLimitPerMinute rateLimitBurst) true Table.empty events).1 =
        (serveEvents (readPolicy rateLimitPerMinute rateLimitBurst) false Table.empty events).1) ↔
      (readPolicy rateLimitPerMinute rateLimitBurst).emissionInterval * rateLimitBurst ≤
        3600001000 := by
  have h : (readPolicy rateLimitPerMinute rateLimitBurst).Meters :=
    readPolicy_meters hrate hrate'
  have htolerance : (readPolicy rateLimitPerMinute rateLimitBurst).delayTolerance =
      (readPolicy rateLimitPerMinute rateLimitBurst).emissionInterval * rateLimitBurst := by
    rw [RateLimitPolicy.delayTolerance, RateLimitPolicy.burst]
    exact congrArg _ (max_eq_left hburst)
  rw [← htolerance]
  constructor
  · intro hsame
    by_contra hover
    exact pruning_seen h (not_le.1 hover) (hsame _ (burstThenPrune_ordered _))
  · intro hfits events hordered
    cases events with
    | nil => rfl
    | cons event events =>
      refine Shadows.outcomes h hfits (event :: events) hordered ?_ (Shadows.start _ event.now)
      intro e he
      rw [List.map_cons, List.pairwise_cons] at hordered
      rcases List.mem_cons.1 he with rfl | he
      · exact le_refl _
      · exact hordered.1 e.now (List.mem_map_of_mem he)

/-- Sixty requests a minute, ten at once: a pruned store answers as one that is not. -/
theorem pruning_unobservable_sample :
    (serveEvents (readPolicy 60 10) true Table.empty (burstThenPrune 10)).1 =
      (serveEvents (readPolicy 60 10) false Table.empty (burstThenPrune 10)).1 :=
  (pruning_unobservable_iff 60 10 (by decide) (by decide) (by decide)).2 (by decide +kernel)
    (burstThenPrune 10) (burstThenPrune_ordered 10)

/-- One request a minute, sixty-one at once: an hour after the burst its bucket is pruned, and the
next request finds a full burst again. -/
theorem pruning_observed : ∃ events : List LimiterEvent,
    (events.map (·.now)).Pairwise (· ≤ ·) ∧
      (serveEvents (readPolicy 1 61) true Table.empty events).1 ≠
        (serveEvents (readPolicy 1 61) false Table.empty events).1 :=
  ⟨burstThenPrune (readPolicy 1 61).burst.toNat, burstThenPrune_ordered _,
    pruning_seen (readPolicy_meters (by decide) (by decide)) (by decide +kernel)⟩

end NotificationPlatform
