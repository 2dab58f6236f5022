import NotificationPlatform.Lifecycle.Entries
import NotificationPlatform.Lifecycle.StatusGraph

/-!
# The timeline and the committed changes

`promoteScheduled` and the entry it calls for are two commits, and `recordAcknowledgement` appends
its entry whether or not it changed the row. `balance_step` is the bookkeeping of one step: what the
timelines show and the dispatches still owe grows by what the step committed, but for an entry that
a crash loses and an entry for a change that was not made. `timeline_iff` sums it up over a run.
-/

namespace NotificationPlatform

open Interleaving DispatchNotificationService

/-! ## A promotion and its entry -/

/-- What a call owes the timeline. -/
inductive Promotion where
  /-- A dispatch; it owes the entry of a promotion it made. -/
  | dispatching (input : DispatchInput) (owing : Bool)
  | serving (request : Request)

namespace Promotion

def Allows : Promotion → Op → Prop
  | dispatching input true, o => o = .appendEvent (queuedEvent input)
  | dispatching input false, .promoteScheduled _ n _ => n = input.notificationId
  | serving request, .appendEvent _ => ∃ d, request = .process d
  | dispatching _ false, .appendEvent _ | serving _, .promoteScheduled _ _ _ => False
  | _, _ => True

def advance : Promotion → (o : Op) → o.Ret → Promotion
  | dispatching input false, .promoteScheduled _ _ _, some _ => dispatching input true
  | dispatching input true, .appendEvent _, _ => dispatching input false
  | q, _, _ => q

def initial : Request → Promotion
  | .dispatch input => dispatching input false
  | request => serving request

/-- The request a call serves. -/
def request : Promotion → Request
  | dispatching input _ => .dispatch input
  | serving request => request

theorem request_initial (request : Request) : (initial request).request = request := by
  cases request <;> rfl

theorem request_advance (q : Promotion) (o : Op) (r : o.Ret) :
    (q.advance o r).request = q.request := by
  unfold advance
  split <;> rfl

/-- A call that returns owes nothing. -/
def Settled (q : Promotion) : Prop := ∀ input, q ≠ dispatching input true

end Promotion

@[reducible] def promotionTypestate : Typestate operations where
  Phase := Promotion
  Allows := Promotion.Allows
  advance := Promotion.advance

section Conformance

variable {configuration : Configuration} {α β : Type} {input : DispatchInput}

/-- A dispatch that owes nothing does not begin to owe, and ends so. -/
abbrev Owes (owing : Bool) (input : DispatchInput) (x : Program α) : Prop :=
  Conforms promotionTypestate Answers (.dispatching input owing) x fun q _ =>
    q = .dispatching input false

/-- The stages after the claim was asked for. -/
def Stage.isPast : Stage → Bool
  | .starting | .unclaimed => false
  | _ => true

theorem Stage.ne_of_isPast {stage early : Stage} (h : stage.isPast = true)
    (hearly : early.isPast = false) : stage ≠ early := by
  rintro rfl
  exact absurd (hearly.symm.trans h) nofun

theorem allows_past {p : Progress} {o : Op} (h : p.Allows o) (hp : p.stage.isPast = true) :
    Promotion.Allows (.dispatching input false) o := by
  cases o
  case promoteScheduled => exact absurd h.1 (Stage.ne_of_isPast hp rfl)
  case appendEvent => exact absurd h.1 (Stage.ne_of_isPast hp rfl)
  all_goals trivial

theorem Move.past {p p' : Progress} {o : Op} {r : o.Ret} (h : Move p o r p')
    (hp : p.stage.isPast = true) : p'.stage.isPast = true ∧
      Promotion.advance (.dispatching input false) o r = .dispatching input false := by
  cases h with
  | connection kind =>
    refine ⟨hp, ?_⟩
    cases o <;> first | rfl | cases kind
  | promoting stage | recording stage | drew stage | claimed stage | refused stage =>
    exact absurd stage (Stage.ne_of_isPast hp rfl)
  | explaining | policy => exact ⟨hp, rfl⟩
  | _ => exact ⟨rfl, rfl⟩

/-- Whatever a dispatch does after the claim was asked for leaves the timeline to transactions. -/
theorem owes_past {p : Progress} {x : Program α} {R : Progress → α → Prop} (hx : Delivers p x R)
    (hp : p.stage.isPast = true) : Owes false input x := by
  let S : DeliveryPhase → Promotion → Prop := fun ph q =>
    q = .dispatching input false ∧ ∃ p, ph = .dispatching p ∧ p.stage.isPast = true
  refine (hx.simulates (S := promotionTypestate) (R := S) ⟨rfl, p, rfl, hp⟩ ?_).mono
    fun _ _ ⟨_, hS, _⟩ => hS.1
  rintro _ q o ⟨rfl, p, rfl, hp⟩ ho
  refine ⟨allows_past ho hp, fun r _ => ?_⟩
  obtain ⟨hp', hadvance⟩ := @Move.past input _ _ _ _ (move_of_allows (r := r) ho) hp
  exact ⟨hadvance, _, rfl, hp'⟩

theorem owes_recordPromotion (promoted : Option NotificationRecord) :
    Owes promoted.isSome input (recordPromotion input promoted) := by
  cases promoted with
  | none => exact rfl
  | some row => exact Conforms.call rfl fun _ _ => rfl

theorem owes_claim (t : Uuid) : Owes false input (claim input t) := by
  refine Conforms.call trivial fun now _ => Conforms.call rfl fun promoted _ => ?_
  have hphase : Promotion.advance (.dispatching input false)
      (.promoteScheduled input.applicationId input.notificationId now) promoted =
        .dispatching input promoted.isSome := by
    cases promoted <;> rfl
  change Conforms promotionTypestate Answers (Promotion.advance (.dispatching input false)
    (.promoteScheduled input.applicationId input.notificationId now) promoted) _ _
  rw [hphase]
  refine Conforms.bind (owes_recordPromotion promoted) ?_
  rintro _ - rfl
  refine Conforms.call trivial fun claimed _ => ?_
  cases claimed with
  | some c => exact rfl
  | none => exact owes_past (delivers_explainFailedClaim (p := { input })) rfl

theorem owes_dispatch : Owes false input (dispatch configuration input) := by
  refine Conforms.call trivial fun t _ => Conforms.bind (owes_claim t) ?_
  rintro _ claim rfl
  cases claim with
  | claimed c =>
    exact owes_past (delivers_dispatchClaimed
      (p := { input, stage := .claimed, token := some t, claimed := some c }) rfl rfl rfl rfl rfl)
      rfl
  | not_claimable => exact rfl
  | not_due dueAt reason => exact Conforms.call trivial fun _ _ => rfl

theorem allows_serving {request : Request} {o : Op} (h : Serves request o) :
    Promotion.Allows (.serving request) o := by
  cases o
  case appendEvent event =>
    cases request with
    | process d => exact ⟨d, rfl⟩
    | dispatch => exact h.elim
    | _ => rcases h with h | h <;> cases h
  case promoteScheduled =>
    cases request with
    | dispatch => exact h.elim
    | _ => rcases h with h | h <;> cases h
  all_goals trivial

theorem settled_program (configuration : Configuration) (request : Request) :
    Conforms promotionTypestate Answers (Promotion.initial request)
      (program configuration request) fun q _ => q.Settled := by
  by_cases h : ∃ input, request = .dispatch input
  · obtain ⟨input, rfl⟩ := h
    change Conforms _ _ _ (Result.dispatched <$> _) _
    rw [← bind_pure_comp]
    refine Conforms.bind owes_dispatch ?_
    rintro _ result rfl input' h
    cases h
  · -- the other services append the entry of an acknowledgement, or none
    let S : DeliveryPhase → Promotion → Prop := fun ph q =>
      q = .serving request ∧ ∃ cancelled, ph = .serving request cancelled
    have hinitial : S (DeliveryPhase.initial request) (Promotion.initial request) := by
      cases request with
      | dispatch input => exact absurd ⟨input, rfl⟩ h
      | _ => exact ⟨rfl, [], rfl⟩
    refine ((conforms_program configuration request).simulates (S := promotionTypestate) (R := S)
      hinitial ?_).mono ?_
    · rintro _ _ o ⟨rfl, cancelled, rfl⟩ ho
      exact ⟨allows_serving ho, fun r _ => ⟨rfl, serving_advance request cancelled o r⟩⟩
    · rintro q result ⟨_, ⟨rfl, -⟩, -⟩ input hq
      cases hq

@[reducible] def promotionDiscipline (configuration : Configuration) :
    Discipline (platform configuration) where
  toTypestate := promotionTypestate
  initial := Promotion.initial
  Answers := Answers
  Returns := fun _ q _ => q.Settled
  answers_exec := answers_exec
  conforms := settled_program configuration

end Conformance

/-- What one operation means for what a call owes. -/
inductive Promotion.Step (q : Promotion) : (o : Op) → o.Ret → Promotion → Prop where
  | promoted {input : DispatchInput} {a : Uuid} {now : Date} {new : NotificationRecord}
      (owing : q = .dispatching input false) :
      Step q (.promoteScheduled a input.notificationId now) (some new) (.dispatching input true)
  | unpromoted {a n : Uuid} {now : Date} : Step q (.promoteScheduled a n now) none q
  | appended {input : DispatchInput} (owing : q = .dispatching input true) :
      Step q (.appendEvent (queuedEvent input)) () (.dispatching input false)
  | acknowledged {d : Uuid} {event : NotificationEventInput} (serving : q = .serving (.process d)) :
      Step q (.appendEvent event) () q
  | other {o : Op} {r : o.Ret} (appends : ∀ event, o ≠ .appendEvent event)
      (promotes : ∀ a n now, o ≠ .promoteScheduled a n now) : Step q o r q

theorem Promotion.step_of_allows {q : Promotion} {o : Op} {r : o.Ret} (h : q.Allows o) :
    Promotion.Step q o r (q.advance o r) := by
  cases q with
  | serving request =>
    cases o
    case appendEvent event =>
      obtain ⟨d, rfl⟩ := h
      exact .acknowledged rfl
    case promoteScheduled => exact h.elim
    all_goals exact .other (fun _ h => by cases h) (fun _ _ _ h => by cases h)
  | dispatching input owing =>
    cases owing with
    | true =>
      obtain rfl : o = .appendEvent (queuedEvent input) := h
      exact .appended rfl
    | false =>
      cases o
      case appendEvent => exact h.elim
      case promoteScheduled a n now =>
        obtain rfl : n = input.notificationId := h
        cases r with
        | none => exact .unpromoted
        | some new => exact .promoted rfl
      all_goals exact .other (fun _ h => by cases h) (fun _ _ _ h => by cases h)

/-! ## Who owes an entry -/

section Runs

variable {configuration : Configuration} {w : World} {s s' : System (platform configuration)}
  {l : Label (platform configuration)} {n : Uuid} {i : Nat}
  {P : System (platform configuration) → Label (platform configuration) → Prop}

/-- Thread `i` is a dispatch about to append the entry of the promotion it made. -/
def Promoting (s : System (platform configuration)) (i : Nat) (n : Uuid) : Prop :=
  ∃ input, s.requestOf i = some (.dispatch input) ∧ input.notificationId = n ∧
    s.nextOp i = some (.appendEvent (queuedEvent input))

/-- Thread `i` has the entry of a promotion due, whether or not it crashed. -/
def OwesEntry (ph : Nat → Option Promotion) (i : Nat) (n : Uuid) : Prop :=
  ∃ input, ph i = some (.dispatching input true) ∧ input.notificationId = n

abbrev promotions (s : System (platform configuration)) : Nat → Option Promotion :=
  (promotionDiscipline configuration).phase s

theorem request_of_phase (hr : Run P (System.start w) s) {q : Promotion}
    (hq : promotions s i = some q) : s.requestOf i = some q.request := by
  obtain ⟨t, ht, -⟩ := Option.map_eq_some_iff.1 hq
  have hi : s.requestOf i = some t.request := by simp only [System.requestOf, ht, Option.map_some]
  have hrequest : q.request = t.request :=
    Discipline.run_phases (D := promotionDiscipline configuration)
      (fun request q => q.request = request) Promotion.request_initial
      (fun h _ _ => (Promotion.request_advance _ _ _).trans h) hr hi hq
  rw [hi, hrequest]

theorem promoting_iff (hr : Run P (System.start w) s) :
    Promoting s i n ↔ OwesEntry (promotions s) i n ∧ ¬ s.Crashed i := by
  constructor
  · rintro ⟨input, hi, rfl, hnext⟩
    obtain ⟨q, hq, hallows⟩ := Discipline.allowed_next (D := promotionDiscipline configuration)
      hr hnext
    refine ⟨⟨input, ?_, rfl⟩, ?_⟩
    · have hrequest := Option.some.inj (hi.symm.trans (request_of_phase hr hq))
      cases q with
      | serving request =>
        obtain ⟨d, rfl⟩ := hallows
        cases hrequest
      | dispatching input' owing =>
        cases hrequest
        cases owing with
        | true => exact hq
        | false => exact hallows.elim
    · rintro ⟨request, hcrashed⟩
      simp only [System.nextOp, hcrashed] at hnext
      cases hnext
  · rintro ⟨⟨input, hq, rfl⟩, hlive⟩
    obtain ⟨o, hdue, rfl⟩ := Discipline.due_run (D := promotionDiscipline configuration) hr hq
      fun _ _ h => h input rfl
    refine ⟨input, request_of_phase hr hq, rfl, ?_⟩
    exact (Discipline.nextOp_of_due (promotionDiscipline configuration) hr hdue).resolve_right hlive

/-- A notification that is owed an entry was promoted, by one dispatch. -/
structure Promoted (ph : Nat → Option Promotion) (w : World) : Prop where
  left : ∀ {i n}, OwesEntry ph i n → ∃ r, w.row n = some r ∧ r.status ≠ .SCHEDULED
  unique : ∀ {i j n}, OwesEntry ph i n → OwesEntry ph j n → i = j

theorem left_scheduled {a b : NotificationStatus}
    (h : b = a ∨ canTransitionNotificationStatus a b = true) (ha : a ≠ .SCHEDULED) :
    b ≠ .SCHEDULED := by
  rintro rfl
  rcases h with rfl | h
  · exact ha rfl
  · cases a <;> cases h

theorem owesEntry_update {ph : Nat → Option Promotion} {q : Promotion} {j : Nat} :
    OwesEntry (Function.update ph i (some q)) j n ↔ (j = i ∧ ∃ input,
      q = .dispatching input true ∧ input.notificationId = n) ∨ (j ≠ i ∧ OwesEntry ph j n) := by
  by_cases hj : j = i
  · subst hj
    simp [OwesEntry]
  · simp [OwesEntry, hj]

theorem promoted_run (hw : Fresh w) (h : Run P (System.start w) s) :
    Promoted (promotions s) s.world := by
  induction h with
  | refl =>
    have hnone : ∀ {i n}, 
        ¬ OwesEntry (@promotions configuration (System.start w)) i n := by
      rintro i n ⟨input, h, -⟩
      cases h
    exact ⟨fun h => absurd h hnone, fun h => absurd h hnone⟩
  | @tail s₁ s₂ l hr _ hs ih =>
    have hleft : ∀ {n}, (∃ r, s₁.world.row n = some r ∧ r.status ≠ .SCHEDULED) →
        ∃ r, s₂.world.row n = some r ∧ r.status ≠ .SCHEDULED := by
      rintro n ⟨old, hold, hstatus⟩
      obtain ⟨new, hnew, hedge⟩ := edge_step hw hr hs hold
      exact ⟨new, hnew, left_scheduled hedge hstatus⟩
    have hsame : (∀ i n, OwesEntry (promotions s₂) i n → OwesEntry (promotions s₁) i n) →
        Promoted (promotions s₂) s₂.world := fun hphases =>
      ⟨fun h => hleft (ih.left (hphases _ _ h)),
        fun h h' => ih.unique (hphases _ _ h) (hphases _ _ h')⟩
    cases (Discipline.disciplined_run (D := promotionDiscipline configuration) hr).stepped hs with
    | @spawned i request fresh phases =>
      refine hsame fun j n h => ?_
      rw [promotions, phases] at h
      rcases owesEntry_update.1 h with ⟨-, input, hq, -⟩ | ⟨-, h⟩
      · cases request <;> cases hq
      · exact h
    | crashed phases | outside phases =>
      refine hsame fun j n h => ?_
      rw [promotions, phases] at h
      exact h
    | @advanced i choice o r q phases crashed live step =>
      obtain ⟨q', hstep, hphases⟩ : ∃ q', Promotion.Step q o r q' ∧
          promotions s₂ = Function.update (promotions s₁) i (some q') :=
        ⟨_, Promotion.step_of_allows step.allowed, phases⟩
      have hkept : q' = q → Promoted (promotions s₂) s₂.world := by
        rintro rfl
        refine hsame fun j n h => ?_
        rw [hphases, Function.update_eq_self_iff.2 step.before.symm] at h
        exact h
      cases hstep with
      | unpromoted | acknowledged | other => exact hkept rfl
      | appended owing =>
        refine hsame fun j n h => ?_
        rw [hphases] at h
        rcases owesEntry_update.1 h with ⟨-, input, hq, -⟩ | ⟨-, h⟩
        · cases hq
        · exact h
      | @promoted input a now new owing =>
        obtain ⟨old, hstatus, rfl, hwritten⟩ :=
          promoteScheduled_some (Choice.quietly_eq_some.1 step.exec).2
        have hnobody : ∀ j, ¬ OwesEntry (promotions s₁) j input.notificationId := by
          intro j h
          obtain ⟨r, hr, hne⟩ := ih.left h
          cases hr.symm.trans hwritten.before
          exact hne hstatus
        have howed : ∀ {j n}, OwesEntry (promotions s₂) j n →
            (j = i ∧ n = input.notificationId) ∨ OwesEntry (promotions s₁) j n := by
          intro j n h
          rw [hphases] at h
          rcases owesEntry_update.1 h with ⟨hj, input', hq, hn⟩ | ⟨-, h⟩
          · cases hq
            exact .inl ⟨hj, hn.symm⟩
          · exact .inr h
        constructor
        · intro j n h
          rcases howed h with ⟨-, rfl⟩ | h
          · exact ⟨_, hwritten.after, nofun⟩
          · exact hleft (ih.left h)
        · intro j k n h h'
          rcases howed h with ⟨hj, rfl⟩ | h <;> rcases howed h' with ⟨hk, hn⟩ | h'
          · exact hj.trans hk.symm
          · exact absurd h' (hnobody k)
          · exact absurd (hn ▸ h) (hnobody j)
          · exact ih.unique h h'

/-! ## The balance of one step -/

/-- What the entry of a promotion shows. -/
def promotionChange : Multiset StatusChange := {(some .SCHEDULED, some .QUEUED)}

open Classical in
/-- The entry still to come for a notification. -/
noncomputable def owed (s : System (platform configuration)) (n : Uuid) : Multiset StatusChange :=
  if ∃ i, Promoting s i n then promotionChange else 0

theorem owed_of_promoting (h : Promoting s i n) : owed s n = promotionChange := if_pos ⟨i, h⟩

theorem owed_of_nobody (h : ∀ i, ¬ Promoting s i n) : owed s n = 0 :=
  if_neg fun ⟨i, hi⟩ => h i hi

theorem owed_congr (h : ∀ i, Promoting s' i n ↔ Promoting s i n) : owed s' n = owed s n := by
  by_cases hi : ∃ i, Promoting s i n
  · obtain ⟨i, hi⟩ := hi
    rw [owed_of_promoting hi, owed_of_promoting ((h i).2 hi)]
  · have hnobody : ∀ i, ¬ Promoting s i n := fun i h => hi ⟨i, h⟩
    rw [owed_of_nobody hnobody, owed_of_nobody fun i hi => hnobody i ((h i).1 hi)]

theorem owed_same (hr : Run Any (System.start w) s) (hr' : Run Any (System.start w) s')
    (howes : ∀ i, OwesEntry (promotions s') i n ↔ OwesEntry (promotions s) i n)
    (hcrashed : s'.Crashed = s.Crashed) : owed s' n = owed s n :=
  owed_congr fun i => by rw [promoting_iff hr', promoting_iff hr, howes i, hcrashed]

/-- Claims and quiet deferrals, which the timeline does not tell of. -/
def Op.isQuiet : Op → Bool
  | .claimForDispatch _ _ _ _ | .deferTransition _ => true
  | _ => false

def isQuiet (s : System (platform configuration)) : Label (platform configuration) → Bool
  | .advance i _ => (s.nextOp i).any Op.isQuiet
  | _ => false

/-- The change of status a step committed, unless it is a quiet one. -/
def change (s : System (platform configuration)) (l : Label (platform configuration))
    (s' : System (platform configuration)) (n : Uuid) : Multiset StatusChange :=
  if isQuiet s l = true then 0 else committed s.world s'.world n

open Classical in
/-- The entry a crash takes with it. -/
noncomputable def lost (s : System (platform configuration)) :
    Label (platform configuration) → Uuid → Multiset StatusChange
  | .crash i, n => if Promoting s i n then promotionChange else 0
  | _, _ => 0

/-- The entry for a change that was not made. -/
def unfounded (s : System (platform configuration)) :
    Label (platform configuration) → Uuid → Multiset StatusChange
  | .advance i _, n =>
    match s.requestOf i, s.nextOp i with
    | some (.process _), some (.appendEvent event) => event.shows n
    | _, _ => 0
  | _, _ => 0

section Advance

variable {o : Op} {choice : Choice} {r : o.Ret}

theorem change_advance (hnext : s.nextOp i = some o) :
    change s (.advance i choice) s' n =
      if o.isQuiet = true then 0 else committed s.world s'.world n := by
  unfold change isQuiet
  simp only [hnext, Option.any_some]

theorem unfounded_advance (hnext : s.nextOp i = some o) (h : ∀ event, o ≠ .appendEvent event) :
    unfounded s (.advance i choice) n = 0 := by
  simp only [unfounded, hnext]
  split
  · rename_i ho
    exact absurd (Option.some.inj ho) (h _)
  · rfl

/-- One operation that is no promotion, and appends nothing on its own. -/
theorem recounts_of_other {w w' : World} (h : exec w o choice = some (r, w'))
    (happends : ∀ event, o ≠ .appendEvent event)
    (hpromotes : ∀ a n now, o ≠ .promoteScheduled a n now) (n : Uuid) :
    w'.timeline n = w.timeline n + if o.isQuiet = true then 0 else committed w w' n := by
  split
  · rename_i ho
    rw [add_zero]
    refine exec_silent h ?_ n
    cases o <;> cases ho <;> simp [Op.footprint]
  · rename_i ho
    refine recounts_exec h ?_ n
    cases o
    case appendEvent event => exact absurd rfl (happends event)
    case promoteScheduled => exact absurd rfl (hpromotes _ _ _)
    case claimForDispatch | deferTransition => exact absurd rfl ho
    all_goals rfl

theorem committed_appendEvent {event : NotificationEventInput} {r : Unit} {w w' : World}
    (h : exec w (.appendEvent event) choice = some (r, w')) (n : Uuid) : committed w w' n = 0 := by
  refine committed_of_status (status_of_row ?_)
  rw [World.row, (within_exec h).notifications (by simp [Op.footprint]), World.row]

end Advance

theorem balance_crash (hw : Fresh w) (hr : Run Any (System.start w) s)
    (hs : s.step (.crash i) = some s') (n : Uuid) :
    s'.world.timeline n + owed s' n + lost s (.crash i) n = s.world.timeline n + owed s n := by
  have hr' : Run Any (System.start w) s' := .tail hr trivial hs
  cases (Discipline.disciplined_run (D := promotionDiscipline configuration) hr).stepped hs with
  | crashed phases crashed world =>
    rw [world, add_assoc]
    congr 1
    have hphases : promotions s' = promotions s := phases
    have hafter : ∀ j, Promoting s' j n ↔ Promoting s j n ∧ j ≠ i := by
      intro j
      rw [promoting_iff hr', promoting_iff hr, hphases, crashed, not_or, and_assoc]
    by_cases hi : Promoting s i n
    · have hnobody : ∀ j, ¬ Promoting s' j n := by
        intro j hj
        obtain ⟨hj, hne⟩ := (hafter j).1 hj
        exact hne ((promoted_run hw hr).unique ((promoting_iff hr).1 hj).1
          ((promoting_iff hr).1 hi).1)
      rw [owed_of_nobody hnobody, owed_of_promoting hi, lost, if_pos hi, zero_add]
    · rw [lost, if_neg hi, add_zero]
      refine owed_congr fun j => (hafter j).trans (and_iff_left_of_imp ?_)
      rintro hj rfl
      exact hi hj

/-- The dispatch promotes the notification, and owes the entry. -/
theorem balance_promoted (hw : Fresh w) (hr : Run Any (System.start w) s)
    (hr' : Run Any (System.start w) s') {input : DispatchInput} {a : Uuid} {now : Date}
    {new : NotificationRecord} {choice : Choice} (hlive : ¬ s.Crashed i)
    (he : exec s.world (.promoteScheduled a input.notificationId now) choice =
      some (some new, s'.world))
    (hphases : promotions s' = Function.update (promotions s) i (some (.dispatching input true)))
    (hcrashed : s'.Crashed = s.Crashed) (hq : promotions s i = some (.dispatching input false))
    (n : Uuid) : s'.world.timeline n + owed s' n =
      s.world.timeline n + owed s n + committed s.world s'.world n := by
  obtain ⟨old, hstatus, rfl, hwritten⟩ := promoteScheduled_some (Choice.quietly_eq_some.1 he).2
  have hafter : ∀ j, Promoting s' j n ↔
      (j = i ∧ input.notificationId = n) ∨ (j ≠ i ∧ Promoting s j n) := by
    intro j
    rw [promoting_iff hr', promoting_iff hr, hphases, hcrashed, owesEntry_update]
    constructor
    · rintro ⟨⟨rfl, input', h, rfl⟩ | ⟨hj, h⟩, hj'⟩
      · cases h
        exact .inl ⟨rfl, rfl⟩
      · exact .inr ⟨hj, h, hj'⟩
    · rintro (⟨rfl, rfl⟩ | ⟨hj, h, hj'⟩)
      · exact ⟨.inl ⟨rfl, input, rfl, rfl⟩, hlive⟩
      · exact ⟨.inr ⟨hj, h⟩, hj'⟩
  rw [exec_silent he (by simp [Op.footprint]), add_assoc]
  congr 1
  by_cases hn : input.notificationId = n
  · subst hn
    have hnobody : ∀ j, ¬ Promoting s j input.notificationId := by
      intro j h
      obtain ⟨row, hrow, hne⟩ := (promoted_run hw hr).left ((promoting_iff hr).1 h).1
      cases hrow.symm.trans hwritten.before
      exact hne hstatus
    rw [owed_of_promoting ((hafter i).2 (.inl ⟨rfl, rfl⟩)), owed_of_nobody hnobody, zero_add]
    simp only [committed, World.status, hwritten.before, hwritten.after, Option.map_some, hstatus]
    rfl
  · rw [committed_of_status (status_of_row (hwritten.others n (Ne.symm hn))), add_zero]
    refine owed_congr fun j => (hafter j).trans ⟨?_, fun h => .inr ⟨?_, h⟩⟩
    · rintro (⟨-, h⟩ | ⟨-, h⟩)
      · exact absurd h hn
      · exact h
    · rintro rfl
      obtain ⟨input', h, -⟩ := ((promoting_iff hr).1 h).1
      cases hq.symm.trans h

/-- The dispatch appends the entry it owes. -/
theorem balance_appended (hw : Fresh w) (hr : Run Any (System.start w) s)
    (hr' : Run Any (System.start w) s') {input : DispatchInput} {choice : Choice}
    (hlive : ¬ s.Crashed i)
    (he : exec s.world (.appendEvent (queuedEvent input)) choice = some ((), s'.world))
    (hphases : promotions s' = Function.update (promotions s) i (some (.dispatching input false)))
    (hcrashed : s'.Crashed = s.Crashed) (hq : promotions s i = some (.dispatching input true))
    (n : Uuid) : s'.world.timeline n + owed s' n = s.world.timeline n + owed s n := by
  have hafter : ∀ j, Promoting s' j n ↔ j ≠ i ∧ Promoting s j n := by
    intro j
    rw [promoting_iff hr', promoting_iff hr, hphases, hcrashed, owesEntry_update]
    constructor
    · rintro ⟨⟨-, input', h, -⟩ | ⟨hj, h⟩, hj'⟩
      · cases h
      · exact ⟨hj, h, hj'⟩
    · rintro ⟨hj, h, hj'⟩
      exact ⟨.inr ⟨hj, h⟩, hj'⟩
  rw [shows_appendEvent _ _ _ _ (Choice.quietly_eq_some.1 he).2 n, add_assoc]
  congr 1
  by_cases hn : input.notificationId = n
  · have hi : Promoting s i n := (promoting_iff hr).2 ⟨⟨input, hq, hn⟩, hlive⟩
    have hnobody : ∀ j, ¬ Promoting s' j n := by
      intro j h
      obtain ⟨hj, h⟩ := (hafter j).1 h
      exact hj ((promoted_run hw hr).unique ((promoting_iff hr).1 h).1 ((promoting_iff hr).1 hi).1)
    rw [owed_of_nobody hnobody, owed_of_promoting hi, add_zero]
    exact if_pos hn
  · have hshows : (queuedEvent input).shows n = 0 := if_neg hn
    rw [hshows, zero_add]
    refine owed_congr fun j => (hafter j).trans ⟨fun h => h.2, fun h => ⟨?_, h⟩⟩
    rintro rfl
    obtain ⟨input', h, hn'⟩ := ((promoting_iff hr).1 h).1
    cases hq.symm.trans h
    exact hn hn'

/-- **The books of one step.** -/
theorem balance_step (hw : Fresh w) (hr : Run Any (System.start w) s) (hs : s.step l = some s')
    (n : Uuid) : s'.world.timeline n + owed s' n + lost s l n =
      s.world.timeline n + owed s n + change s l s' n + unfounded s l n := by
  have hr' : Run Any (System.start w) s' := .tail hr trivial hs
  cases (Discipline.disciplined_run (D := promotionDiscipline configuration) hr).stepped hs with
  | @spawned i request fresh phases crashed world =>
    have howed : owed s' n = owed s n := by
      refine owed_same hr hr' (fun j => ?_) crashed
      rw [promotions, phases, owesEntry_update]
      constructor
      · rintro (⟨-, input, hq, -⟩ | ⟨-, h⟩)
        · cases request <;> cases hq
        · exact h
      · refine fun h => .inr ⟨?_, h⟩
        rintro rfl
        obtain ⟨input, hq, -⟩ := h
        cases fresh.symm.trans hq
    have hchange : change s (.spawn i request) s' n = 0 := by
      rw [change, world]
      exact committed_of_status rfl
    rw [howed, hchange, world]
    simp only [lost, unfounded, add_zero]
  | crashed phases crashed world =>
    rw [balance_crash hw hr hs, change, committed_of_status (by rw [world])]
    simp [unfounded]
  | @outside event phases crashed world =>
    have hphases : promotions s' = promotions s := phases
    have howed : owed s' n = owed s n :=
      owed_same hr hr' (fun j => by rw [hphases]) crashed
    rw [howed, recounts_outside world n]
    change _ + _ + _ + 0 = _ + _ + committed _ _ _ + 0
    abel
  | @advanced i choice o r q phases crashed live step =>
    obtain ⟨q', hstep, hphases⟩ : ∃ q', Promotion.Step q o r q' ∧
        promotions s' = Function.update (promotions s) i (some q') :=
      ⟨_, Promotion.step_of_allows step.allowed, phases⟩
    have howed : q' = q → owed s' n = owed s n := by
      rintro rfl
      refine owed_same hr hr' (fun j => ?_) crashed
      rw [hphases, Function.update_eq_self_iff.2 step.before.symm]
    have hlost : lost s (.advance i choice) n = 0 := by simp only [lost]
    rw [change_advance step.nextOp, hlost, add_zero]
    cases hstep with
    | promoted owing =>
      subst owing
      rw [balance_promoted hw hr hr' live step.exec hphases crashed step.before,
        unfounded_advance step.nextOp fun _ h => by cases h]
      simp [Op.isQuiet]
    | unpromoted =>
      have hsame : s'.world = s.world :=
        (updateOne_none (sending_eq_some.1 (Choice.quietly_eq_some.1 step.exec).2).2).1
      rw [howed rfl, unfounded_advance step.nextOp (fun _ h => by cases h), hsame,
        committed_of_status rfl]
      simp [Op.isQuiet]
    | appended owing =>
      subst owing
      have hrequest := request_of_phase hr step.before
      rw [balance_appended hw hr hr' live step.exec hphases crashed step.before,
        committed_appendEvent step.exec]
      simp [unfounded, hrequest, Promotion.request]
    | @acknowledged d event serving =>
      subst serving
      have hrequest := request_of_phase hr step.before
      rw [howed rfl, committed_appendEvent step.exec,
        shows_appendEvent _ _ _ _ (Choice.quietly_eq_some.1 step.exec).2 n]
      simp only [unfounded, hrequest, Promotion.request, step.nextOp, Op.isQuiet]
      abel
    | other appends promotes =>
      rw [howed rfl, recounts_of_other step.exec appends promotes,
        unfounded_advance step.nextOp appends]
      abel

/-! ## Runs -/

/-- The timeline, with the entry a dispatch is about to append, shows exactly these changes. -/
def Faithful (s : System (platform configuration)) (n : Uuid) (changes : Multiset StatusChange) :
    Prop := s.world.timeline n + owed s n = changes

/-- The changes of a notification's status the labels commit, claims and quiet deferrals apart. -/
def changes (n : Uuid) : System (platform configuration) → List (Label (platform configuration)) →
    Multiset StatusChange
  | _, [] => 0
  | s, l :: ls =>
    match s.step l with
    | some s' => change s l s' n + changes n s' ls
    | none => 0

/-- The step takes no entry of a promotion with it, and appends none for a change that was not
made. -/
def Truthful (s : System (platform configuration)) : Label (platform configuration) → Prop
  | .crash i => ∀ n, ¬ Promoting s i n
  | .advance i _ => ∀ d event, s.requestOf i = some (.process d) →
      s.nextOp i = some (.appendEvent event) → event.fromStatus = event.toStatus
  | _ => True

theorem changes_cons {ls : List (Label (platform configuration))} (hs : s.step l = some s') :
    changes n s (l :: ls) = change s l s' n + changes n s' ls := by
  simp only [changes, hs]

theorem truthful_iff : Truthful s l ↔ ∀ n, lost s l n = 0 ∧ unfounded s l n = 0 := by
  cases l with
  | spawn | outside => exact ⟨fun _ _ => by simp [lost, unfounded], fun _ => trivial⟩
  | crash i =>
    refine forall_congr' fun n => ?_
    simp only [lost, unfounded, and_true]
    split
    · rename_i h
      exact ⟨fun hn => absurd h hn, fun hnone => absurd hnone (Multiset.singleton_ne_zero _)⟩
    · rename_i h
      exact ⟨fun _ => rfl, fun _ => h⟩
  | advance i choice =>
    simp only [Truthful, lost, unfounded, true_and]
    constructor
    · intro h n
      split
      · rename_i d event hi hnext
        simp only [NotificationEventInput.shows, h d event hi hnext, statusChange_self, ite_self]
      · rfl
    · intro h d event hi hnext
      have hshows := h event.notificationId
      simp only [hi, hnext, NotificationEventInput.shows, if_true] at hshows
      exact statusChange_eq_zero.1 hshows

/-- A faithful timeline stays faithful exactly if the step is truthful. -/
theorem faithful_step (hw : Fresh w) (hr : Run Any (System.start w) s) (hs : s.step l = some s')
    {C : Uuid → Multiset StatusChange} (hC : ∀ n, Faithful s n (C n)) :
    (∀ n, Faithful s' n (C n + change s l s' n)) ↔ Truthful s l := by
  rw [truthful_iff]
  refine forall_congr' fun n => ?_
  have hbalance := balance_step hw hr hs n
  have hbefore : s.world.timeline n + owed s n = C n := hC n
  rw [hbefore] at hbalance
  unfold Faithful
  by_cases hlost : lost s l n = 0
  · rw [hlost, add_zero] at hbalance
    rw [hbalance, add_eq_left]
    exact ⟨fun h => ⟨hlost, h⟩, fun h => h.2⟩
  · have hunfounded : unfounded s l n = 0 := by
      cases l <;> first | rfl | exact absurd rfl hlost
    rw [hunfounded, add_zero] at hbalance
    rw [← hbalance, left_eq_add]
    exact ⟨fun h => ⟨h, hunfounded⟩, fun h => h.1⟩

theorem faithful_steps (hw : Fresh w) (hr : Run Any (System.start w) s)
    {C : Uuid → Multiset StatusChange} (hC : ∀ n, Faithful s n (C n))
    (ls : List (Label (platform configuration))) :
    (∀ pre post s', ls = pre ++ post → s.steps pre = some s' →
      ∀ n, Faithful s' n (C n + changes n s pre)) ↔ Always Truthful s ls := by
  induction ls generalizing s C with
  | nil =>
    refine ⟨fun _ => trivial, fun _ pre post s' h hs n => ?_⟩
    obtain ⟨rfl, rfl⟩ := List.append_eq_nil_iff.1 h.symm
    cases hs
    rw [changes, add_zero]
    exact hC n
  | cons l ls ih =>
    constructor
    · intro h s₁ hs
      have hfirst : ∀ n, Faithful s₁ n (C n + change s l s₁ n) := by
        intro n
        have := h [l] ls s₁ rfl (by simp only [System.steps, hs, Option.bind_some]) n
        rwa [changes_cons hs, changes, add_zero] at this
      refine ⟨(faithful_step hw hr hs hC).1 hfirst, (ih (.tail hr trivial hs) hfirst).1 ?_⟩
      intro pre post s' hls hsteps n
      have := h (l :: pre) post s' (by rw [hls, List.cons_append])
        (by simp only [System.steps, hs, Option.bind_some, hsteps]) n
      rwa [changes_cons hs, ← add_assoc] at this
    · intro h pre post s' hls hsteps n
      cases pre with
      | nil =>
        cases hsteps
        rw [changes, add_zero]
        exact hC n
      | cons l' pre =>
        cases hls
        obtain ⟨s₁, hs, hrest⟩ := Option.bind_eq_some_iff.1 hsteps
        obtain ⟨htruthful, hall⟩ := h s₁ hs
        have hfirst := (faithful_step hw hr hs hC).2 htruthful
        rw [changes_cons hs, ← add_assoc]
        exact (ih (.tail hr trivial hs) hfirst).2 hall pre post s' rfl hrest n

/-- **Timeline faithfulness.** After every part of a run the entries that show a change are the
changes committed so far, one for one, but for those a dispatch is about to append, exactly if no
crash takes the entry of a promotion with it and no acknowledgement appends an entry for a change
that was not made. -/
theorem timeline_iff (hw : Fresh w) (hempty : w.notificationEvents = [])
    (ls : List (Label (platform configuration))) :
    (∀ pre post s, ls = pre ++ post → (System.start w).steps pre = some s →
      ∀ n, Faithful s n (changes n (System.start w) pre)) ↔ Always Truthful (System.start w) ls := by
  have hstart : ∀ n, @Faithful configuration (System.start w) n 0 := by
    intro n
    have hnobody : ∀ i, ¬ @Promoting configuration (System.start w) i n := by
      rintro i ⟨input, h, -⟩
      cases h
    rw [Faithful, owed_of_nobody hnobody, add_zero, System.start, World.timeline, hempty]
    rfl
  have hsteps := faithful_steps hw .refl hstart ls
  simpa only [zero_add] using hsteps

end Runs

/-! ## A promotion without its entry -/

/-- Notification 7 is scheduled and due; its dispatch promotes it and dies. -/
def unrecorded : List Sample.Step :=
  [.outside (.created { Sample.draft with scheduledAt := some 0 }),
    .spawn 0 (.dispatch ⟨1, 7, "order"⟩), .advance 0 .nothing, .advance 0 (.date 0),
    .advance 0 .nothing, .crash 0]

theorem promotion_untold : ∃ s, (System.start (Sample.world .RETRY)).steps unrecorded = some s ∧
    ¬ Faithful s 7 (changes 7 (System.start (Sample.world .RETRY)) unrecorded) := by
  refine ⟨Sample.run .RETRY unrecorded, rfl, fun h => ?_⟩
  have hnobody : ∀ i, ¬ Promoting (Sample.run .RETRY unrecorded) i 7 := by
    rintro i ⟨input, -, -, h⟩
    cases i with
    | zero => cases h
    | succ i => cases h
  rw [Faithful, owed_of_nobody hnobody, add_zero] at h
  exact absurd h (by decide +kernel)

/-- The same dispatch, which lives on. -/
def recorded : List Sample.Step := unrecorded.take 5 ++ [.advance 0 .nothing]

theorem promotion_told : ∃ s, (System.start (Sample.world .RETRY)).steps recorded = some s ∧
    Faithful s 7 (changes 7 (System.start (Sample.world .RETRY)) recorded) ∧
    changes 7 (System.start (Sample.world .RETRY)) recorded =
      {(none, some .SCHEDULED), (some .SCHEDULED, some .QUEUED)} := by
  have hdispatch : ∀ {s : System (platform Sample.configuration)} {input : DispatchInput}
      {choice : Choice}, s.requestOf 0 = some (.dispatch input) →
      Truthful s (.advance 0 choice) := by
    intro s input choice h d event hd
    cases h.symm.trans hd
  have htruthful : Always Truthful (System.start (Sample.world .RETRY)) recorded := by
    intro s₁ h₁
    refine ⟨trivial, fun s₂ h₂ => ⟨trivial, ?_⟩⟩
    have hrequest : s₂.requestOf 0 = some (.dispatch ⟨1, 7, "order"⟩) := by
      obtain ⟨-, rfl⟩ := System.step_spawn.1 h₂
      rfl
    intro s₃ h₃
    have h₃' := System.requestOf_step h₃ hrequest
    refine ⟨hdispatch hrequest, fun s₄ h₄ => ?_⟩
    have h₄' := System.requestOf_step h₄ h₃'
    refine ⟨hdispatch h₃', fun s₅ h₅ => ?_⟩
    have h₅' := System.requestOf_step h₅ h₄'
    exact ⟨hdispatch h₄', fun s₆ h₆ => ⟨hdispatch h₅', trivial⟩⟩
  refine ⟨Sample.run .RETRY recorded, rfl, ?_, by decide +kernel⟩
  exact (timeline_iff (Sample.fresh_world .RETRY) rfl recorded).2 htruthful recorded [] _
    (List.append_nil _).symm rfl 7

end NotificationPlatform
