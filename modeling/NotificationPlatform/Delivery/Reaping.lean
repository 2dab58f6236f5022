import NotificationPlatform.Delivery.Fencing

/-!
# What the reaper takes

A maintenance pass reads up to two hundred stuck claims and then releases them one by one. The
update of `releaseClaim` asks only whether the row is `PROCESSING`, so it also takes the claim of a
worker that claimed the notification after the pass had read it. `reaping_iff` says that this is the
only way a pass takes a claim that is not stuck.
-/

namespace NotificationPlatform

open Interleaving NotificationMaintenanceService

/-! ## A maintenance pass -/

/-- What a pass has read: its clock, and the stuck claims. -/
structure Pass where
  now : Option Date := none
  stuck : Option (List NotificationRecord) := none

/-- The claims taken before this instant are stuck for a pass that read the clock at `now`. -/
def cutoff (configuration : Configuration) (now : Date) : Date :=
  now - configuration.stuckClaimTimeoutSeconds * 1000

inductive PassPhase where
  | reaping (pass : Pass)
  /-- Another service, which reaps nothing. -/
  | other

namespace PassPhase

def Allows (configuration : Configuration) : PassPhase → Op → Prop
  | .reaping q, .findStuckClaims before _ => q.stuck = none ∧
      ∃ now, q.now = some now ∧ before = cutoff configuration now
  | .reaping q, .releaseClaim notification now => q.now = some now ∧
      ∃ stuck, q.stuck = some stuck ∧ notification ∈ stuck
  | .other, .releaseClaim _ _ => False
  | _, _ => True

def advance : PassPhase → (o : Op) → o.Ret → PassPhase
  | .reaping q, .clockNow, now => .reaping { q with now := some (q.now.getD now) }
  | .reaping q, .findStuckClaims _ _, stuck => .reaping { q with stuck := some stuck }
  | q, _, _ => q

def initial : Request → PassPhase
  | .runMaintenance => .reaping {}
  | _ => .other

end PassPhase

@[reducible] def passTypestate (configuration : Configuration) : Typestate operations where
  Phase := PassPhase
  Allows := PassPhase.Allows configuration
  advance := PassPhase.advance

section Conformance

variable {configuration : Configuration} {now : Date} {stuck : List NotificationRecord}

/-- From phase `q` the program does what a pass may do, and ends as `Q` says. -/
abbrev Passes {α : Type} (configuration : Configuration) (q : PassPhase) (x : Program α)
    (Q : PassPhase → α → Prop) : Prop :=
  Conforms (passTypestate configuration) Answers q x Q

theorem passes_perform {β : Type} {q : PassPhase} {o : Op} {k : o.Ret → Program β}
    {Q : PassPhase → β → Prop} (ho : q.Allows configuration o)
    (hk : ∀ r, Passes configuration (q.advance o r) (k r) Q) :
    Passes configuration q (perform o >>= k) Q := Conforms.call ho fun r _ => hk r

theorem passes_releaseEach {released : List NotificationRecord} (h : released ⊆ stuck) :
    Passes configuration (.reaping ⟨some now, some stuck⟩) (releaseEach now released)
      fun q _ => q = .reaping ⟨some now, some stuck⟩ := by
  induction released with
  | nil => exact rfl
  | cons notification released ih =>
    obtain ⟨hmem, hrest⟩ := List.cons_subset.1 h
    refine passes_perform ⟨rfl, stuck, rfl, hmem⟩ fun isReleased => ?_
    refine Conforms.bind (ih hrest) ?_
    rintro _ reaped rfl
    exact rfl

theorem passes_enqueueEach (q : PassPhase) (due : List NotificationRecord) :
    Passes configuration q (enqueueEach now due) fun _ _ => True := by
  induction due with
  | nil => exact trivial
  | cons notification due ih =>
    refine passes_perform (by cases q <;> exact trivial) fun isEnqueued => ?_
    have hq : q.advance (.enqueueDispatch (notification.job now)) isEnqueued = q := by
      cases q <;> rfl
    rw [hq]
    exact Conforms.bind ih fun _ _ _ => trivial

theorem passes_runOnce :
    Passes configuration (.reaping {}) (runOnce configuration) fun _ _ => True := by
  have hreap : Passes configuration (.reaping {}) (reapStuckClaims configuration) fun _ _ => True :=
    passes_perform trivial fun now => passes_perform ⟨rfl, now, rfl, rfl⟩ fun stuck =>
      (passes_releaseEach (List.Subset.refl stuck)).mono fun _ _ _ => trivial
  have hrequeue : ∀ q, Passes configuration q requeueDueNotifications fun _ _ => True := fun q =>
    passes_perform (by cases q <;> exact trivial) fun now =>
      passes_perform (by cases q <;> exact trivial) fun due => passes_enqueueEach _ due
  exact Conforms.bind hreap fun q _ _ => Conforms.bind (hrequeue q) fun _ _ _ => trivial

/-- Nobody but a maintenance pass releases claims. -/
theorem conforms_other {request : Request} (h : request ≠ .runMaintenance) :
    Conforms (passTypestate configuration) Answers .other (program configuration request)
      fun _ _ => True := by
  let R : DeliveryPhase → PassPhase → Prop := fun q q' =>
    q' = .other ∧ ∀ cancelled, q ≠ .serving .runMaintenance cancelled
  have hinitial : R (DeliveryPhase.initial request) .other := by
    refine ⟨rfl, fun cancelled hq => ?_⟩
    cases request <;> first | exact h rfl | cases hq
  refine ((conforms_program configuration request).simulates
    (S := passTypestate configuration) hinitial ?_).mono fun _ _ _ => trivial
  rintro q _ o ⟨rfl, hq⟩ ho
  refine ⟨?_, fun r _ => ⟨by cases o <;> rfl, fun cancelled hr => ?_⟩⟩
  · cases o <;> try exact trivial
    case releaseClaim notification now =>
      cases q with
      | dispatching p => exact absurd ho.1 (by simp [Op.isConnectionOp])
      | serving request' cancelled =>
        cases request' with
        | runMaintenance => exact hq cancelled rfl
        | dispatch => exact ho
        | _ => exact absurd ho (by simp [DeliveryPhase.Allows, Serves, Op.isConnectionOp,
            Op.isReadOrInbox])
  · cases q with
    | dispatching p => cases hr
    | serving request' before =>
      obtain ⟨after, hserving⟩ := serving_advance request' before o r
      cases hserving.symm.trans hr
      exact hq before rfl

end Conformance

/-- **A pass releases what it has read, and read what was stuck.** -/
@[reducible] def passDiscipline (configuration : Configuration) :
    Discipline (platform configuration) where
  toTypestate := passTypestate configuration
  initial := PassPhase.initial
  Answers := Answers
  Returns := fun _ _ _ => True
  answers_exec := answers_exec
  conforms := fun request => by
    by_cases h : request = .runMaintenance
    · subst h
      change Conforms _ _ _ (Result.maintained <$> runOnce configuration) _
      rw [← bind_pure_comp]
      exact Conforms.bind passes_runOnce fun _ _ _ => trivial
    · have hinitial : PassPhase.initial request = .other := by
        cases request <;> first | rfl | exact absurd rfl h
      rw [hinitial]
      exact conforms_other h

theorem releasing_of_allows {configuration : Configuration} {q : PassPhase}
    {notification : NotificationRecord} {now : Date}
    (h : q.Allows configuration (.releaseClaim notification now)) : ∃ pass, q = .reaping pass ∧
      pass.now = some now ∧ ∃ stuck, pass.stuck = some stuck ∧ notification ∈ stuck := by
  cases q with
  | reaping pass => exact ⟨pass, rfl, h⟩
  | other => exact h.elim

/-! ## Claims taken since a scan -/

/-- The operation, as it was answered, claimed notification `n`. -/
def Op.claims (n : Uuid) : (o : Op) → o.Ret → Bool
  | .claimForDispatch _ m _ _, some _ => m = n
  | _, _ => false

def Op.isScan : Op → Bool
  | .findStuckClaims _ _ => true
  | _ => false

/-- Whether notification `n` was claimed since thread `i` scanned for stuck claims. -/
def claimedSince (i : Nat) (n : Uuid) : List (Performed operations) → Bool
  | [] => false
  | e :: older =>
    if e.thread = i ∧ e.op.isScan then false else e.op.claims n e.ret || claimedSince i n older

/-- While a notification is being processed and nobody claims it, the claim on its row stays. -/
theorem Effect.claim_stays {n : Uuid} {w w' : World} {o : Op} {r : o.Ret} {q : DeliveryPhase}
    {old new : NotificationRecord} (h : Effect n w w' o r) (ho : q.Allows o)
    (hold : w.row n = some old) (hnew : w'.row n = some new) (is : new.status = .PROCESSING)
    (hclaims : o.claims n r = false) : old.status = .PROCESSING ∧
      new.claimToken = old.claimToken ∧ new.claimedAt = old.claimedAt := by
  cases h with
  | kept row | resolved names row =>
    cases (row.trans hold).symm.trans hnew
    exact ⟨is, rfl, rfl⟩
  | promoted before status after =>
    cases hnew.symm.trans after
    cases is
  | claimed => exact absurd hclaims (by simp [Op.claims])
  | begun names before application token status number after =>
    cases hold.symm.trans before
    cases hnew.symm.trans after
    exact ⟨status, rfl, rfl⟩
  | sent names moved | deferred names moved | released names moved | cancelled names moved =>
    subst names
    cases hnew.symm.trans moved.after
    cases is
  | @transitioned c step old' names moved =>
    subst names
    cases hnew.symm.trans moved.after
    obtain ⟨p, -, hp⟩ := dispatching_of_allows rfl ho
    rcases (hp.2.2.leaves c old').2.1 with hs | hs <;> exact absurd (is.symm.trans hs) nofun
  | cancelledWaiting before status after =>
    cases hnew.symm.trans after
    cases is
  | @acknowledged input old' names moved =>
    subst names
    cases hold.symm.trans moved.before
    cases hnew.symm.trans moved.after
    obtain ⟨notification, merged, received, now, rfl⟩ := acknowledgement_of_allows ho
    have hstatus : old.status = notification.status := moved.status
    rcases resolveStatus_eq_or notification.status merged with hs | ⟨-, hs⟩
    · exact ⟨hstatus.trans (hs.symm.trans is), rfl, rfl⟩
    · rcases hs with hs | hs <;> exact absurd (is.symm.trans hs) nofun

/-- Somebody took the claim that row `c` shows. -/
def Taken (ph : Phases) (c : NotificationRecord) : Prop :=
  ∃ t i p c', c.claimToken = some t ∧ Dispatching ph i p ∧ p.token = some t ∧ p.claimed = some c'

/-- What a pass with a scanned claim `c` may rely on: unless the notification was claimed since
(`reclaimed`), a row that is being processed still carries that claim; and if it was, another one. -/
structure Scanned (ph : Phases) (w : World) (before : Date) (reclaimed : Bool)
    (c : NotificationRecord) : Prop where
  stuck : c.claimedAt.any (· < before) = true
  taken : Taken ph c
  row : ∃ row, w.row c.id = some row ∧ row.applicationId = c.applicationId ∧
    (row.status = .PROCESSING → if reclaimed then row.claimToken ≠ c.claimToken
      else row.claimToken = c.claimToken ∧ row.claimedAt = c.claimedAt)

section Scanned

variable {ph : Phases} {w w' : World} {before : Date} {reclaimed : Bool} {c : NotificationRecord}

theorem Taken.spawn {i : Nat} (h : Taken ph c) (request : Request) (hi : ph i = none) :
    Taken (Function.update ph i (some (DeliveryPhase.initial request))) c := by
  obtain ⟨t, j, p, c', ht, hd, hpt, hpc⟩ := h
  have hji : j ≠ i := by
    rintro rfl
    exact absurd (hi.symm.trans hd) nofun
  exact ⟨t, j, p, c', ht, (dispatching_other hji).2 hd, hpt, hpc⟩

theorem Scanned.outside {e : Event} (h : Scanned ph w before reclaimed c)
    (he : NotificationPlatform.outside w e = some w') : Scanned ph w' before reclaimed c where
  stuck := h.stuck
  taken := h.taken
  row := by
    obtain ⟨row, hrow, hclaim⟩ := h.row
    rcases (outside_cases he c.id).2.2 with hsame | ⟨draft, -, hnone, -⟩
    · exact ⟨row, hsame.trans hrow, hclaim⟩
    · exact absurd (hnone.symm.trans hrow) nofun

/-- A claim taken after the scan has another token than the one that was scanned. -/
theorem Scanned.advance {i : Nat} {q : DeliveryPhase} {o : Op} {r : o.Ret} {choice : Choice}
    (h : Scanned ph w before reclaimed c) (hs : Tokens ph w) (hi : ph i = some q) (ho : q.Allows o)
    (he : exec w o choice = some (r, w')) :
    Scanned (Function.update ph i (some (q.advance o r))) w' before
      (o.claims c.id r || reclaimed) c where
  stuck := h.stuck
  taken := by
    obtain ⟨t, j, p, c', ht, hd, hpt, hpc⟩ := h.taken
    obtain ⟨p', hd', hpc', hpt', -⟩ := hd.persists hi ho (hs.wellFormed hd) hpc
    exact ⟨t, j, p', c', ht, hd', hpt'.trans hpt, hpc'⟩
  row := by
    obtain ⟨old, hold, happlication, hclaim⟩ := h.row
    obtain ⟨new, hnew, hkept⟩ := (exec_effect he c.id).kept_row hold
    refine ⟨new, hnew, hkept.applicationId.trans happlication, fun is => ?_⟩
    cases hclaims : o.claims c.id r with
    | false =>
      obtain ⟨was, htoken, hat⟩ :=
        (exec_effect he c.id).claim_stays ho hold hnew is hclaims
      rw [Bool.false_or, htoken, hat]
      exact hclaim was
    | true =>
      rw [Bool.true_or, if_pos rfl]
      obtain ⟨t, j, p, c', ht, hd, hpt, hpc⟩ := h.taken
      rw [ht]
      intro hsame
      cases o <;> try cases hclaims
      case claimForDispatch a n t' now =>
        obtain ⟨p', rfl, hstage, -, -, hpt'⟩ := dispatching_of_allows rfl ho
        have hsame' : new.claimToken = some t' := by
          cases exec_effect he c.id with
          | kept row ledger idle =>
            cases r with
            | none => exact absurd hclaims nofun
            | some r => exact absurd (of_decide_eq_true hclaims) idle
          | claimed before application claimable new_eq after =>
            cases hnew.symm.trans after
            rw [new_eq]
        cases hsame.symm.trans hsame'
        cases hs.distinct hd hi hpt hpt'
        cases hd.symm.trans hi
        have hrank := ((hs.wellFormed hd).claimed (by rw [hpc]; rfl)).2
        rw [hstage] at hrank
        exact absurd hrank (by decide)

/-- What a scan finds. -/
theorem mem_findStuckClaims {limit : Nat} {stuck : List NotificationRecord} {choice : Choice}
    (he : exec w (.findStuckClaims before limit) choice = some (stuck, w')) (hc : c ∈ stuck) :
    w.row c.id = some c ∧ c.status = .PROCESSING ∧ c.claimedAt.any (· < before) = true := by
  obtain ⟨hr, -⟩ := Prod.mk.inj (Option.some.inj (Choice.quietly_eq_some.1 he).2)
  rw [← hr] at hc
  obtain ⟨hmem, hp⟩ := Relational.Table.mem_select.1
    ((List.mem_insertionSort _).1 (List.mem_of_mem_take hc))
  simp only [Bool.decide_and, Bool.and_eq_true, decide_eq_true_eq, Bool.decide_eq_true] at hp
  exact ⟨Relational.Table.find?_key hmem, hp.1, hp.2⟩

theorem scanned_start (hs : Tokens ph w) (hrow : w.row c.id = some c)
    (hstatus : c.status = .PROCESSING) (hstuck : c.claimedAt.any (· < before) = true) :
    Scanned ph w before false c where
  stuck := hstuck
  taken := by
    obtain ⟨t, ht⟩ := Option.isSome_iff_exists.1 ((hs.processing hrow).1 hstatus)
    obtain ⟨i, p, c', hd, hpt, hpc, -⟩ := hs.holder hrow ht
    exact ⟨t, i, p, c', ht, hd, hpt, hpc⟩
  row := ⟨c, hrow, rfl, fun _ => by simp⟩

end Scanned

/-- An operation that is no scan leaves a pass what it has read. -/
theorem PassPhase.of_advance {q : PassPhase} {q' : Pass} {o : Op} {r : o.Ret}
    (h : q.advance o r = .reaping q') (ho : o.isScan = false) : ∃ q₀, q = .reaping q₀ ∧
      q'.stuck = q₀.stuck ∧ ∀ now, q₀.now = some now → q'.now = some now := by
  cases q with
  | other => cases o <;> cases h
  | reaping q₀ =>
    refine ⟨q₀, rfl, ?_⟩
    cases o
    case clockNow =>
      cases h
      exact ⟨rfl, fun now hnow => by simp [hnow]⟩
    case findStuckClaims => cases ho
    all_goals
      cases h
      exact ⟨rfl, fun _ => id⟩

/-! ## Runs -/

section Runs

variable {configuration : Configuration} {w : World} {s s' : System (platform configuration)}
  {l : Label (platform configuration)}
  {P : System (platform configuration) → Label (platform configuration) → Prop}

/-- Every claim a pass has scanned is as it was, unless it was taken since. -/
def Seen (s : System (platform configuration)) : Prop :=
  ∀ i q stuck c, (passDiscipline configuration).phase s i = some (.reaping q) →
    q.stuck = some stuck → c ∈ stuck → ∃ now, q.now = some now ∧
      Scanned (phases s) s.world (cutoff configuration now) (claimedSince i c.id s.trace) c

theorem claimedSince_cons {i : Nat} {n : Uuid} {e : Performed operations}
    {older : List (Performed operations)} (h : ¬ (e.thread = i ∧ e.op.isScan = true)) :
    claimedSince i n (e :: older) = (e.op.claims n e.ret || claimedSince i n older) := if_neg h

theorem seen_advance {i : Nat} {choice : Choice} {o : Op} {r : o.Ret} {q : DeliveryPhase}
    {q' : PassPhase} (h : Seen s) (hs : Tokens (phases s) s.world)
    (step : (deliveryDiscipline configuration).Advanced s s' i choice o r q)
    (phases' : phases s' = Function.update (phases s) i (some (q.advance o r)))
    (pass : (passDiscipline configuration).Advanced s s' i choice o r q') : Seen s' := by
  have hmove : ∀ {before reclaimed c}, Scanned (phases s) s.world before reclaimed c →
      Scanned (phases s') s'.world before (o.claims c.id r || reclaimed) c := fun hscanned =>
    phases' ▸ hscanned.advance hs step.before step.allowed step.exec
  intro j p stuck c hp hstuck hc
  rw [step.trace]
  by_cases hj : j = i ∧ o.isScan = true
  · obtain ⟨rfl, hscan⟩ := hj
    cases o
    case findStuckClaims before limit =>
      rw [pass.after] at hp
      cases q' with
      | other => cases hp
      | reaping q₀ =>
        cases hp
        cases hstuck
        obtain ⟨-, now, hnow, rfl⟩ := pass.allowed
        obtain ⟨hrow, hstatus, hclaimed⟩ := mem_findStuckClaims step.exec hc
        refine ⟨now, hnow, ?_⟩
        have hsince : claimedSince j c.id
            (⟨j, .findStuckClaims (cutoff configuration now) limit, stuck⟩ :: s.trace) = false :=
          if_pos ⟨rfl, rfl⟩
        rw [hsince]
        exact hmove (scanned_start hs hrow hstatus hclaimed)
    all_goals cases hscan
  · rw [claimedSince_cons fun he => hj ⟨he.1.symm, he.2⟩]
    by_cases hji : j = i
    · subst hji
      rw [pass.after] at hp
      obtain ⟨q₀, rfl, hsame, hnow⟩ := PassPhase.of_advance (Option.some.inj hp)
        (Bool.eq_false_iff.2 fun ho => hj ⟨rfl, ho⟩)
      obtain ⟨now, hread, hscanned⟩ := h j q₀ stuck c pass.before (hsame ▸ hstuck) hc
      exact ⟨now, hnow now hread, hmove hscanned⟩
    · rw [pass.others j hji] at hp
      obtain ⟨now, hread, hscanned⟩ := h j p stuck c hp hstuck hc
      exact ⟨now, hread, hmove hscanned⟩

theorem seen_run (hw : Fresh w) (h : Run P (System.start w) s) : Seen s := by
  induction h with
  | refl =>
    intro i q stuck c hq
    cases hq
  | @tail s₁ s₂ l hr _ hs ih =>
    have hpass := (Discipline.disciplined_run (D := passDiscipline configuration) hr).stepped hs
    cases (disciplined_run hr).stepped hs with
    | @spawned i request fresh phases' crashed world trace =>
      intro j q stuck c hq hstuck hc
      cases hpass with
      | spawned fresh' phases'' =>
        rw [phases''] at hq
        have hji : j ≠ i := by
          rintro rfl
          rw [Function.update_self] at hq
          cases request <;> cases hq
          cases hstuck
        rw [Function.update_of_ne hji] at hq
        obtain ⟨now, hnow, hscanned⟩ := ih j q stuck c hq hstuck hc
        refine ⟨now, hnow, ?_⟩
        unfold phases
        rw [world, trace, phases']
        exact { hscanned with taken := hscanned.taken.spawn request fresh }
    | crashed phases' crashed world trace =>
      intro j q stuck c hq hstuck hc
      cases hpass with
      | crashed phases'' =>
        rw [phases''] at hq
        obtain ⟨now, hnow, hscanned⟩ := ih j q stuck c hq hstuck hc
        refine ⟨now, hnow, ?_⟩
        unfold phases
        rw [world, trace, phases']
        exact hscanned
    | outside phases' crashed world trace =>
      intro j q stuck c hq hstuck hc
      cases hpass with
      | outside phases'' =>
        rw [phases''] at hq
        obtain ⟨now, hnow, hscanned⟩ := ih j q stuck c hq hstuck hc
        refine ⟨now, hnow, ?_⟩
        unfold phases
        rw [trace, phases']
        exact hscanned.outside world
    | advanced phases' crashed live step =>
      cases hpass with
      | advanced _ _ _ step' =>
        cases step'.trace.symm.trans step.trace
        exact seen_advance ih (sound_run hw hr).tokens step phases' step'

/-- A pass takes only the claim it has read, and one that is stuck. -/
def TakesStuck (s : System (platform configuration)) (l : Label (platform configuration)) : Prop :=
  ∀ i choice notification now s', l = .advance i choice →
    s.Performs l ⟨i, .releaseClaim notification now, true⟩ s' →
    ∃ row, s.world.row notification.id = some row ∧ row.status = .PROCESSING ∧
      row.claimToken = notification.claimToken ∧
      row.claimedAt.any (· < now - configuration.stuckClaimTimeoutSeconds * 1000) = true

/-- Nobody has claimed a notification afresh that a pass is about to release: since its scan, no
dispatch has claimed it, or it is not being processed any more. -/
def KeepsClaim (s : System (platform configuration)) (l : Label (platform configuration)) : Prop :=
  ∀ i choice notification now, l = .advance i choice →
    s.nextOp i = some (.releaseClaim notification now) → Processed s.world notification.id →
    claimedSince i notification.id s.trace = false

/-- **The reaper takes only stuck claims.** Along any sequence of steps, every claim a pass releases
is the one it scanned, taken before its cutoff, exactly if no dispatch claims a notification between
the scan that found it stuck and its release, and is processing it at the release. -/
theorem reaping_iff (hw : Fresh w) (ls : List (Label (platform configuration))) :
    Always TakesStuck (System.start w) ls ↔ Always KeepsClaim (System.start w) ls := by
  refine always_iff ls fun s l s' hr hs => ?_
  have hd := disciplined_run hr
  have hpass := Discipline.disciplined_run (D := passDiscipline configuration) hr
  have hseen := seen_run hw hr
  constructor
  · rintro htakes i choice notification now rfl hnext ⟨row, hrow, hstatus⟩
    obtain ⟨o, r, q, step⟩ := hpass.advanced hs
    cases Option.some.inj (step.nextOp.symm.trans hnext)
    obtain ⟨q₀, rfl, hnow, stuck, hstuck, hmem⟩ := releasing_of_allows step.allowed
    obtain ⟨now', hnow', hscanned⟩ := hseen i q₀ stuck notification step.before hstuck hmem
    obtain ⟨row', hrow', happlication, hclaim⟩ := hscanned.row
    cases hrow.symm.trans hrow'
    have he : exec s.world (.releaseClaim notification now) choice = some (r, s'.world) := step.exec
    cases r with
    | false =>
      rcases releaseClaim_cases (Choice.quietly_eq_some.1 he).2 with ⟨-, hmissed⟩ | ⟨hr, -⟩
      · exact absurd hstatus (hmissed.zeroRows row hrow happlication)
      · cases hr
    | true =>
      obtain ⟨row', hrow', -, htoken, -⟩ := htakes i choice notification now s' rfl ⟨hs, step.trace⟩
      cases hrow.symm.trans hrow'
      cases hsince : claimedSince i notification.id s.trace with
      | false => rfl
      | true =>
        rw [hsince] at hclaim
        exact absurd htoken (hclaim hstatus)
  · rintro hkeeps i choice notification now s₁ rfl hperforms
    obtain ⟨choice', q, hl, step, -⟩ := hpass.performs hperforms
    obtain ⟨q₀, rfl, hnow, stuck, hstuck, hmem⟩ := releasing_of_allows step.allowed
    obtain ⟨now', hnow', hscanned⟩ := hseen i q₀ stuck notification step.before hstuck hmem
    cases hnow.symm.trans hnow'
    obtain ⟨row, hrow, -, hclaim⟩ := hscanned.row
    have he : exec s.world (.releaseClaim notification now) choice' = some (true, s₁.world) :=
      step.exec
    cases exec_effect he notification.id with
    | kept row ledger idle => exact absurd rfl idle
    | released names moved =>
      cases hrow.symm.trans moved.before
      have hstatus : row.status = .PROCESSING := moved.status
      rw [hkeeps i choice notification now rfl step.nextOp ⟨row, hrow, hstatus⟩] at hclaim
      obtain ⟨htoken, hat⟩ := hclaim hstatus
      refine ⟨row, hrow, hstatus, htoken, ?_⟩
      rw [hat]
      exact hscanned.stuck

/-! ## Two runs -/

/-- Who is about to release a notification that is being processed has seen nobody claim it. -/
def keepsClaim (s : System (platform configuration)) : Label (platform configuration) → Bool
  | .advance i _ => match s.nextOp i with
    | some (.releaseClaim notification _) => !decide (Processed s.world notification.id) ||
        !claimedSince i notification.id s.trace
    | _ => true
  | _ => true

theorem KeepsClaim.of_check (h : keepsClaim s l = true) : KeepsClaim s l := by
  rintro i choice notification now rfl hnext hprocessed
  simp only [keepsClaim, hnext] at h
  simpa [hprocessed] using h

/-- Two passes read that dispatch 0 is stuck, and the second one comes to a row that waits. Dispatch
1 claims it and gets stuck as well, and a third pass releases it. -/
def reapedInTurn : List Sample.Step :=
  Sample.dispatching 2 ++ Sample.claims 0 0 ++ Sample.maintains 2 400000 ++
    Sample.maintains 3 400000 ++ [.advance 2 .nothing, .advance 3 .nothing] ++
    Sample.claims 1 400000 ++ Sample.maintains 4 800000 ++ [.advance 4 .nothing]

/-- Who came to release a claim, and whether it was released. -/
def release? : Performed operations → Option (Nat × Bool)
  | ⟨i, .releaseClaim _ _, isReleased⟩ => some (i, isReleased)
  | _ => none

theorem reaping_iff_reapedInTurn :
    Always TakesStuck (System.start (Sample.world .RETRY)) reapedInTurn ∧
      (Sample.run .RETRY reapedInTurn).trace.filterMap release? =
        [(4, true), (3, false), (2, true)] := by
  have hkeeps : Always KeepsClaim (System.start (Sample.world .RETRY)) reapedInTurn :=
    always_of_checksEach (b := keepsClaim) (by decide +kernel) fun _ _ _ => KeepsClaim.of_check
  exact ⟨(reaping_iff (Sample.fresh_world .RETRY) reapedInTurn).2 hkeeps, by decide +kernel⟩

/-- Two passes read that dispatch 0 is stuck. The first releases its claim, dispatch 1 takes the
notification, and it is still preparing its send when the second pass comes to it. -/
def reapedTwice : List Sample.Step :=
  Sample.dispatching 2 ++ Sample.claims 0 0 ++ Sample.maintains 2 400000 ++
    Sample.maintains 3 400000 ++ [.advance 2 .nothing] ++ Sample.claims 1 400000

/-- The claim the second pass releases was taken at the very instant of its scan. -/
theorem fresh_claim_reaped :
    ∃ (s : System (platform Sample.configuration)) (l : Label (platform Sample.configuration)),
      Run Any (System.start (Sample.world .RETRY)) s ∧ ¬ TakesStuck s l := by
  refine ⟨Sample.run .RETRY reapedTwice, .advance 3 .nothing, Sample.run_any .RETRY _, fun h => ?_⟩
  let scanned : NotificationRecord := { Sample.draft.row 0 with
    status := .PROCESSING, claimToken := some 1, claimedAt := some 0 }
  obtain ⟨row, hrow, -, -, hstuck⟩ := h 3 .nothing scanned 400000
    ((Sample.run .RETRY reapedTwice).after [.advance 3 .nothing]) rfl ⟨rfl, rfl⟩
  have hat : ((Sample.run .RETRY reapedTwice).world.row 7).bind (·.claimedAt) = some 400000 := by
    decide +kernel
  have hrow' : (Sample.run .RETRY reapedTwice).world.row 7 = some row := hrow
  rw [hrow', Option.bind_some] at hat
  rw [hat] at hstuck
  exact absurd hstuck (by decide)

end Runs

end NotificationPlatform
