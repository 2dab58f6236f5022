import NotificationPlatform.Inbox.Isolation
import NotificationPlatform.Interleaving.Moments
import NotificationPlatform.Delivery.Runs
import NotificationPlatform.Timing.Pause

/-!
# Reported states of a connection

Callbacks report the state of a connection, and the calls that process them write what they carry,
whatever was written before. The last of the writes stays, which is not always the one of the
callback that was received last. It is, if the newest callback is applied once the jobs of the others
have come to their ends.
-/

namespace NotificationPlatform

open Interleaving Relational ProcessWebhookService

/-- The state of the connection a delivery reports. -/
def WebhookDeliveryRecord.reported? (delivery : WebhookDeliveryRecord) :
    Option ProviderSessionStatus :=
  match toProviderEvent (storedEnvelope delivery) with
  | .session_status _ status _ _ _ => some status
  | _ => none

/-! ## What a call does with a report -/

/-- The operations on the inbox. -/
def Op.isInbox : Op → Bool
  | .claimForProcessing _ | .markProcessed _ => true
  | _ => false

def Op.isStatusWrite : Op → Bool
  | .recordStatus _ _ => true
  | _ => false

/-- How far a call of `process` is with the report it claimed. -/
inductive Applying where
  | unclaimed (deliveryId : Uuid)
  | claimed (delivery : WebhookDeliveryRecord)
  /-- The state the delivery reports is written. -/
  | applied (delivery : WebhookDeliveryRecord)
  | finished
  /-- A call of another service. -/
  | elsewhere

namespace Applying

def Allows : Applying → Op → Prop
  | unclaimed d, .claimForProcessing deliveryId => deliveryId = d
  | claimed c, .recordStatus s input =>
    s = c.whatsAppSessionId ∧ c.reported? = some input.status
  | claimed c, .markProcessed input => input.deliveryId = c.id ∧ c.reported? = none
  | applied c, .markProcessed input => input.deliveryId = c.id
  | applied _, .recordStatus _ _ => False
  | claimed _, o | applied _, o | elsewhere, o => o.isInbox = false
  | _, _ => False

def advance : Applying → (o : Op) → o.Ret → Applying
  | unclaimed _, .claimForProcessing _, none => finished
  | unclaimed _, .claimForProcessing _, some c => claimed c
  | claimed c, .recordStatus _ _, _ => applied c
  | claimed _, .markProcessed _, _ | applied _, .markProcessed _, _ => finished
  | q, _, _ => q

def initial : Request → Applying
  | .process d => unclaimed d
  | _ => elsewhere

end Applying

@[reducible] def applyingTypestate : Typestate operations where
  Phase := Applying
  Allows := Applying.Allows
  advance := Applying.advance

/-- A program that neither touches the inbox nor writes the state of a connection. -/
def Aside {α : Type} (x : Program α) : Prop :=
  x.Uses fun o : Op => o.isInbox = false ∧ o.isStatusWrite = false

namespace Aside

variable {α β : Type}

theorem perform {o : Op} (h : o.isInbox = false ∧ o.isStatusWrite = false) :
    Aside (perform o) := ⟨h, fun _ => trivial⟩

theorem bind {x : Program α} {f : α → Program β} (hx : Aside x) (hf : ∀ a, Aside (f a)) :
    Aside (x >>= f) := Prog.Uses.bind hx hf

theorem pure (a : α) : Aside (Pure.pure a : Program α) := trivial

end Aside

section Process

variable {configuration : Configuration} {c : WebhookDeliveryRecord}

/-- What is known of every answer, of the inbox and of the provider. -/
def Knows (o : Op) (r : o.Ret) : Prop := Finds o r ∧ Answers o r

abbrev Applies {α : Type} (q : Applying) (x : Program α) (Q : Applying → Prop) : Prop :=
  Conforms applyingTypestate Knows q x fun q' _ => Q q'

/-- Nothing an aside does concerns the report. -/
theorem Aside.applies {α : Type} {x : Program α} (h : Aside x) {q : Applying}
    (hq : q = .claimed c ∨ q = .applied c) : Applies q x (· = q) := by
  refine Conforms.of_uses ?_ h
  rintro o ⟨hinbox, hstatus⟩
  rcases hq with rfl | rfl
  all_goals
    cases o
    case claimForProcessing | markProcessed => cases hinbox
    case recordStatus => cases hstatus
    all_goals exact ⟨rfl, fun _ => rfl⟩

theorem aside_advanceNotification (notification : NotificationRecord)
    (received : DeliveryAcknowledgement) : Aside (advanceNotification notification received) := by
  unfold advanceNotification
  dsimp only
  split
  · exact .pure _
  · refine .bind (.bind (.perform ⟨rfl, rfl⟩) fun now => .bind (.perform ⟨rfl, rfl⟩)
      fun transitioned => ?_) fun _ => .pure _
    split
    · exact .pure _
    · exact .perform ⟨rfl, rfl⟩

theorem aside_applyAcknowledgement (message : String) (received : DeliveryAcknowledgement)
    (fromUs : Bool) : Aside (applyAcknowledgement c message received fromUs) := by
  unfold applyAcknowledgement
  split
  · refine .bind ?_ fun _ => .bind (.perform ⟨rfl, rfl⟩) fun notification => ?_
    · unfold doubtOnFailure
      split
      · exact .perform ⟨rfl, rfl⟩
      · exact .pure _
    · split
      · refine .bind (.perform ⟨rfl, rfl⟩) fun now => ?_
        split
        · exact .bind (.perform ⟨rfl, rfl⟩) fun e => nomatch e
        · exact .pure _
      · exact aside_advanceNotification _ _
  · exact .pure _

theorem aside_recordReportedLimits (limits : Option AccountLimits) :
    Aside (recordReportedLimits configuration c limits) := by
  unfold recordReportedLimits
  split
  · exact .pure _
  · refine .bind (.perform ⟨rfl, rfl⟩) fun session => ?_
    split
    · exact .pure _
    · exact .bind (.perform ⟨rfl, rfl⟩) fun now => .perform ⟨rfl, rfl⟩

/-- The report is written, if there is one. -/
def Applying.Settled (c : WebhookDeliveryRecord) (q : Applying) : Prop :=
  (q = .claimed c ∧ c.reported? = none) ∨ q = .applied c

theorem applies_applyEvent :
    Applies (.claimed c) (applyEvent configuration c (toProviderEvent (storedEnvelope c)))
      (Applying.Settled c) := by
  cases he : toProviderEvent (storedEnvelope c) with
  | message_acknowledgement message received fromUs =>
    have hnone : c.reported? = none := by rw [WebhookDeliveryRecord.reported?, he]
    refine ((aside_applyAcknowledgement message received fromUs).applies (.inl rfl)).mono ?_
    exact fun _ _ hq => .inl ⟨hq, hnone⟩
  | session_status name status phoneNumber pushName limits =>
    have hsome : c.reported? = some status := by rw [WebhookDeliveryRecord.reported?, he]
    refine ⟨rfl, fun now _ => ⟨⟨rfl, hsome⟩, fun _ _ => ?_⟩⟩
    change Applies (.applied c) (recordReportedLimits configuration c limits >>= fun _ => _) _
    refine Conforms.bind ((aside_recordReportedLimits limits).applies (.inr rfl)) ?_
    rintro _ _ rfl
    exact .inr rfl
  | unsupported eventType =>
    have hnone : c.reported? = none := by rw [WebhookDeliveryRecord.reported?, he]
    exact .inl ⟨rfl, hnone⟩

theorem applies_process (d : Uuid) :
    Applies (.unclaimed d) (process configuration d) (· = .finished) := by
  refine ⟨rfl, fun delivery hid => ?_⟩
  cases delivery with
  | none => exact rfl
  | some c =>
    obtain rfl : c.id = d := hid.1
    change Applies _ (applyEvent configuration c (toProviderEvent (storedEnvelope c)) >>= _) _
    refine conforms_bind.2 (applies_applyEvent.mono fun q result hq => ?_)
    rcases hq with ⟨rfl, hnone⟩ | rfl
    · exact ⟨rfl, fun now _ => ⟨⟨rfl, hnone⟩, fun _ _ => rfl⟩⟩
    · exact ⟨rfl, fun now _ => ⟨rfl, fun _ _ => rfl⟩⟩

end Process

/-! ## The discipline -/

section Elsewhere

open NotificationMaintenanceService NotificationQueryService

theorem aside_runOnce (configuration : Configuration) : Aside (runOnce configuration) := by
  have hrelease : ∀ (now : Date) stuck, Aside (releaseEach now stuck) := by
    intro now stuck
    induction stuck with
    | nil => exact .pure _
    | cons notification stuck ih =>
      exact .bind (.perform ⟨rfl, rfl⟩) fun _ => .bind ih fun _ => .pure _
  have henqueue : ∀ (now : Date) due, Aside (enqueueEach now due) := by
    intro now due
    induction due with
    | nil => exact .pure _
    | cons notification due ih =>
      exact .bind (.perform ⟨rfl, rfl⟩) fun _ => .bind ih fun _ => .pure _
  have hreap : Aside (reapStuckClaims configuration) :=
    .bind (.perform ⟨rfl, rfl⟩) fun _ => .bind (.perform ⟨rfl, rfl⟩) fun _ => hrelease _ _
  have hrequeue : Aside requeueDueNotifications :=
    .bind (.perform ⟨rfl, rfl⟩) fun _ => .bind (.perform ⟨rfl, rfl⟩) fun _ => henqueue _ _
  exact .bind hreap fun _ => .bind hrequeue fun _ => .pure _

theorem aside_cancel (a n : Uuid) (correlationId : Option String) :
    Aside (cancel a n correlationId) := by
  refine .bind (.perform ⟨rfl, rfl⟩) fun existing => ?_
  cases existing with
  | none => exact .pure _
  | some existing =>
    simp only
    split
    · refine .bind (.perform ⟨rfl, rfl⟩) fun now => .bind (.perform ⟨rfl, rfl⟩) fun cancelled => ?_
      cases cancelled <;> exact .pure _
    · exact .pure _

theorem aside_cancelWaiting (a : Uuid) (s : Option Uuid) (correlationId : Option String) :
    Aside (cancelWaiting a s correlationId) := by
  refine .bind ?_ fun isKnown => ?_
  · cases s with
    | none => exact .pure _
    | some sessionId => exact .bind (.perform ⟨rfl, rfl⟩) fun _ => .pure _
  · split
    · exact .bind (.perform ⟨rfl, rfl⟩) fun _ => .bind (.perform ⟨rfl, rfl⟩) fun _ => .pure _
    · exact .pure _

/-- A dispatch, in whatever phase, beside a call that does not apply a callback. -/
def DispatchesAside (q : DeliveryPhase) (q' : Applying) : Prop :=
  (∃ p, q = .dispatching p) ∧ q' = .elsewhere

/-- No other service touches the inbox. -/
theorem applies_elsewhere (configuration : Configuration) (request : Request)
    (hrequest : Applying.initial request = .elsewhere) :
    Conforms applyingTypestate Knows .elsewhere (program configuration request)
      fun q _ => q = .finished ∨ q = .elsewhere := by
  have hstays {α : Type} {x : Program α} (h : x.Uses fun o : Op => o.isInbox = false)
      {f : α → Result} : Conforms applyingTypestate Knows .elsewhere (f <$> x)
        fun q _ => q = .finished ∨ q = .elsewhere := by
    rw [← bind_pure_comp]
    refine Conforms.bind (R := fun q _ => q = Applying.elsewhere)
      (Conforms.of_uses (fun o ho => ⟨ho, fun _ => rfl⟩) h) fun _ _ hq => .inr hq
  have haside {α : Type} {x : Program α} (h : Aside x) : x.Uses fun o : Op => o.isInbox = false :=
    Prog.Uses.mono h fun _ ho => ho.1
  cases request with
  | dispatch input =>
    -- a dispatch has no use for the inbox in any of its phases
    have hdispatch : Conforms deliveryTypestate Knows (.dispatching { input })
        (program configuration (.dispatch input)) _ :=
      ((deliveryDiscipline configuration).conforms (.dispatch input)).admits fun _ _ h => h.2
    have hrelated : DispatchesAside (.dispatching { input }) .elsewhere := ⟨⟨_, rfl⟩, rfl⟩
    refine (Conforms.simulates (S := applyingTypestate) (R := DispatchesAside) hdispatch hrelated
      ?_).mono ?_
    · rintro q q' o ⟨⟨p, rfl⟩, rfl⟩ ho
      refine ⟨?_, fun r _ => ⟨⟨_, rfl⟩, rfl⟩⟩
      cases o <;> first | exact rfl | exact absurd ho.1 (by simp [Op.isConnectionOp])
    · rintro q a ⟨_, ⟨-, hq⟩, -⟩
      exact .inr hq
  | runMaintenance => exact hstays (haside (aside_runOnce configuration))
  | cancel a n correlationId => exact hstays (haside (aside_cancel a n correlationId))
  | cancelWaiting a s correlationId =>
    exact hstays (haside (aside_cancelWaiting a s correlationId))
  | process d => cases hrequest
  | refreshSession a s =>
    refine hstays (Prog.Uses.mono (connectionOnly_get configuration a s) fun o ho => ?_)
    cases o <;> first | exact rfl | exact absurd ho (by simp [Op.isConnectionOp])

end Elsewhere

/-- **Every call keeps to it.** -/
@[reducible] def applyingDiscipline (configuration : Configuration) :
    Discipline (platform configuration) where
  toTypestate := applyingTypestate
  initial := Applying.initial
  Answers := Knows
  Returns := fun _ q _ => q = .finished ∨ q = .elsewhere
  answers_exec := fun h => ⟨finds_exec h, (deliveryDiscipline configuration).answers_exec h⟩
  conforms := fun request => by
    cases request with
    | process d =>
      change Conforms _ _ _ (Result.processed <$> _) _
      rw [← bind_pure_comp]
      exact Conforms.bind (applies_process d) fun q _ hq => .inl hq
    | dispatch input => exact applies_elsewhere configuration (.dispatch input) rfl
    | runMaintenance => exact applies_elsewhere configuration .runMaintenance rfl
    | cancel a n correlationId => exact applies_elsewhere configuration (.cancel a n correlationId) rfl
    | cancelWaiting a s correlationId =>
      exact applies_elsewhere configuration (.cancelWaiting a s correlationId) rfl
    | refreshSession a s => exact applies_elsewhere configuration (.refreshSession a s) rfl

/-! ## The reports on file -/

/-- What the connection was reported to be, in the order the callbacks were filed. -/
def World.reports (w : World) (sessionId : Uuid) : List (Uuid × ProviderSessionStatus) :=
  w.webhookDeliveries.rows.filterMap fun c =>
    if c.whatsAppSessionId = sessionId then c.reported?.map fun status => (c.id, status) else none

def World.isProcessed (w : World) (d : Uuid) : Prop :=
  ∃ c, w.delivery d = some c ∧ c.processedAt.isSome

section Deliveries

variable {w w' : World} {o : Op} {choice : Choice} {r : o.Ret} {d sessionId : Uuid}

/-- A change of the rows that leaves what was filed, and marks at most some of them. -/
structure Marks (marked : Uuid → Prop) (f : WebhookDeliveryRecord → WebhookDeliveryRecord) :
    Prop where
  id : ∀ c, (f c).id = c.id
  session : ∀ c, (f c).whatsAppSessionId = c.whatsAppSessionId
  envelope : ∀ c, storedEnvelope (f c) = storedEnvelope c
  processed : ∀ c, (f c).processedAt.isSome → c.processedAt.isSome ∨ marked c.id
  kept : ∀ c, c.processedAt.isSome → (f c).processedAt.isSome

theorem Marks.reported {marked : Uuid → Prop} {f : WebhookDeliveryRecord → WebhookDeliveryRecord}
    (h : Marks marked f) (c : WebhookDeliveryRecord) : (f c).reported? = c.reported? := by
  simp only [WebhookDeliveryRecord.reported?, h.envelope]

/-- An operation changes deliveries row by row. -/
theorem deliveries_exec (h : exec w o choice = some (r, w')) :
    ∃ f, w'.webhookDeliveries.rows = w.webhookDeliveries.rows.map f ∧
      Marks (fun d => ∃ input, o = .markProcessed input ∧ input.deliveryId = d) f := by
  have haside : .webhookDeliveries ∉ o.footprint →
      w'.webhookDeliveries.rows = w.webhookDeliveries.rows.map id := fun hF => by
    rw [(within_exec h).webhookDeliveries hF, List.map_id]
  cases o
  case claimForProcessing d =>
    obtain ⟨-, h⟩ := Choice.quietly_eq_some.1 h
    cases h
    refine ⟨_, rfl, ?_, ?_, ?_, ?_, ?_⟩
    · intro c
      dsimp only
      split <;> rfl
    · intro c
      dsimp only
      split <;> rfl
    · intro c
      dsimp only
      split <;> rfl
    · intro c hc
      dsimp only at hc
      split at hc <;> exact .inl hc
    · intro c hc
      dsimp only
      split <;> exact hc
  case markProcessed input =>
    obtain ⟨_, w₁, h₁, h₂⟩ := Sql.bind_eq_some.1 (Choice.quietly_eq_some.1 h).2
    obtain ⟨-, rfl⟩ := Sql.pure_eq_some.1 h₂
    cases h₁
    refine ⟨_, rfl, ?_, ?_, ?_, ?_, ?_⟩
    · intro c
      dsimp only
      split <;> rfl
    · intro c
      dsimp only
      split <;> rfl
    · intro c
      dsimp only
      split <;> rfl
    · intro c hc
      dsimp only at hc
      split at hc
      · rename_i hid
        simp only [key_delivery, Bool.and_true, decide_eq_true_eq] at hid
        exact .inr ⟨input, rfl, hid.symm⟩
      · exact .inl hc
    · intro c hc
      dsimp only
      split
      · rfl
      · exact hc
  all_goals exact ⟨id, haside (by simp [Op.footprint]),
    fun _ => rfl, fun _ => rfl, fun _ => rfl, fun _ hc => .inl hc, fun _ hc => hc⟩

/-- What is processed is not claimed again. -/
theorem unprocessed_of_claim {c : WebhookDeliveryRecord}
    (h : exec w (.claimForProcessing d) choice = some (some c, w')) : ¬ w.isProcessed d := by
  rintro ⟨row, hrow, hdone⟩
  obtain ⟨hc, -⟩ := Prod.mk.inj (Option.some.inj (Choice.quietly_eq_some.1 h).2)
  obtain ⟨old, hold, hp, -⟩ := Table.updateAt_eq_some.1 hc
  cases hrow.symm.trans hold
  simp only [Option.isNone_iff_eq_none] at hp
  rw [hp] at hdone
  cases hdone

/-- What is filed is new, and not processed. -/
theorem deliveries_outside {e : Event} (he : outside w e = some w') :
    w'.webhookDeliveries = w.webhookDeliveries ∨ ∃ new,
      w'.webhookDeliveries.rows = w.webhookDeliveries.rows ++ [new] ∧
        w.delivery new.id = none ∧ new.processedAt = none := by
  cases e with
  | clock now =>
    simp only [NotificationPlatform.outside] at he
    split at he <;> cases he
    exact .inl rfl
  | created draft =>
    obtain ⟨⟨_, w₁⟩, h₁, rfl⟩ := Option.map_eq_some_iff.1 he
    exact .inl ((within_writeNotification draft _ _ _ h₁).webhookDeliveries (by decide))
  | jobTaken | sessions | applications =>
    cases he
    exact .inl rfl
  | filed input =>
    obtain ⟨⟨_, w₁⟩, h₁, rfl⟩ := Option.map_eq_some_iff.1 he
    unfold WebhookDeliveryRepository.record at h₁
    split at h₁
    · cases h₁
      exact .inl rfl
    · obtain ⟨t, ht, h₂⟩ := Option.map_eq_some_iff.1 h₁
      cases h₂
      refine .inr ⟨_, ?_, Table.insert?_fresh ht, rfl⟩
      unfold Table.insert? at ht
      split at ht <;> cases ht
      rfl

theorem reports_map {marked : Uuid → Prop} {f : WebhookDeliveryRecord → WebhookDeliveryRecord}
    (hrows : w'.webhookDeliveries.rows = w.webhookDeliveries.rows.map f) (hf : Marks marked f) :
    w'.reports sessionId = w.reports sessionId := by
  unfold World.reports
  rw [hrows, List.filterMap_map]
  refine List.filterMap_congr fun c _ => ?_
  simp only [Function.comp, hf.session, hf.reported, hf.id]

theorem mem_reports {p : Uuid × ProviderSessionStatus} (h : p ∈ w.reports sessionId) :
    ∃ c, w.delivery p.1 = some c ∧ c.whatsAppSessionId = sessionId ∧ c.reported? = some p.2 := by
  obtain ⟨c, hc, h⟩ := List.mem_filterMap.1 h
  split at h
  · rename_i hsession
    obtain ⟨status, hstatus, rfl⟩ := Option.map_eq_some_iff.1 h
    exact ⟨c, Table.find?_key hc, hsession, hstatus⟩
  · cases h

theorem mem_reports_of {c : WebhookDeliveryRecord} {status : ProviderSessionStatus}
    (hc : w.delivery d = some c) (hsession : c.whatsAppSessionId = sessionId)
    (hstatus : c.reported? = some status) : (d, status) ∈ w.reports sessionId := by
  refine List.mem_filterMap.2 ⟨c, Table.mem_of_find? hc, ?_⟩
  obtain rfl : c.id = d := Table.key_of_find? hc
  rw [if_pos hsession, hstatus, Option.map_some]

end Deliveries

/-! ## The state of a connection -/

section Status

variable {w w' : World} {o : Op} {choice : Choice} {r : o.Ret} {sessionId : Uuid}

/-- The connection is in the state it was in, if it is still there. -/
def SameStatus (w w' : World) (sessionId : Uuid) : Prop :=
  ∀ new, w'.session sessionId = some new →
    ∃ old, w.session sessionId = some old ∧ new.status = old.status

theorem sameStatus_of_eq (h : w'.session sessionId = w.session sessionId) :
    SameStatus w w' sessionId := fun new hnew => ⟨new, h ▸ hnew, rfl⟩

theorem sameStatus_updateOne {id : Uuid} {p : WhatsAppSessionRecord → Bool}
    {f : WhatsAppSessionRecord → WhatsAppSessionRecord} {hf : ∀ r, key (f r) = key r}
    {x : Option WhatsAppSessionRecord}
    (h : WhatsAppSessionRepository.updateOne id p f hf w = some (x, w'))
    (hstatus : ∀ r, (f r).status = r.status) : SameStatus w w' sessionId := by
  intro new hnew
  rcases updateOne_session h sessionId with hsame | ⟨old, -, hold, -, hafter⟩
  · exact ⟨new, hsame ▸ hnew, rfl⟩
  · cases hafter.symm.trans hnew
    exact ⟨old, hold, hstatus old⟩

theorem status_written {input : WhatsAppSessionRepository.StatusInput} {u : Unit}
    (h : exec w (.recordStatus sessionId input) choice = some (u, w')) {new : WhatsAppSessionRecord}
    (hnew : w'.session sessionId = some new) : new.status = input.status := by
  obtain ⟨_, _, h₁, h₂⟩ := Sql.bind_eq_some.1 (Choice.quietly_eq_some.1 h).2
  obtain ⟨-, rfl⟩ := Sql.pure_eq_some.1 h₂
  replace h₁ := (sending_eq_some.1 h₁).2
  cases h₁
  change Table.find? _ _ = _ at hnew
  rw [Table.find?_updateAt_self] at hnew
  obtain ⟨old, -, rfl⟩ := Option.map_eq_some_iff.1 hnew
  rfl

/-- Any other operation leaves the state of the connection as it is. -/
theorem status_kept (h : exec w o choice = some (r, w'))
    (hother : ∀ input, o ≠ .recordStatus sessionId input) : SameStatus w w' sessionId := by
  have haside : .whatsAppSessions ∉ o.footprint → SameStatus w w' sessionId := fun hF =>
    sameStatus_of_eq (by rw [World.session, (within_exec h).whatsAppSessions hF]; rfl)
  cases o
  case recordStatus id input =>
    obtain ⟨_, _, h₁, h₂⟩ := Sql.bind_eq_some.1 (Choice.quietly_eq_some.1 h).2
    obtain ⟨-, rfl⟩ := Sql.pure_eq_some.1 h₂
    refine sameStatus_of_eq ?_
    rcases updateOne_session (sending_eq_some.1 h₁).2 sessionId with hsame | ⟨_, rfl, -⟩
    · exact hsame
    · exact absurd rfl (hother input)
  case claimAccountLimitsRefresh =>
    obtain ⟨_, _, h₁, h₂⟩ := Sql.bind_eq_some.1 (Choice.quietly_eq_some.1 h).2
    obtain ⟨-, rfl⟩ := Sql.pure_eq_some.1 h₂
    exact sameStatus_updateOne h₁ fun _ => rfl
  case invalidateAccountLimits =>
    obtain ⟨_, _, h₁, h₂⟩ := Sql.bind_eq_some.1 (Choice.quietly_eq_some.1 h).2
    obtain ⟨-, rfl⟩ := Sql.pure_eq_some.1 h₂
    exact sameStatus_updateOne h₁ fun _ => rfl
  case recordAccountLimits =>
    obtain ⟨_, _, h₀, h⟩ := Sql.bind_eq_some.1 (Choice.quietly_eq_some.1 h).2
    rw [storeLimits_world h₀] at h
    obtain ⟨_, _, h₁, h₂⟩ := Sql.bind_eq_some.1 h
    obtain ⟨-, rfl⟩ := Sql.pure_eq_some.1 h₂
    exact sameStatus_updateOne (sending_eq_some.1 h₁).2 fun _ => rfl
  case endSendingPause =>
    obtain ⟨_, _, h₁, h₂⟩ := Sql.bind_eq_some.1 (Choice.quietly_eq_some.1 h).2
    obtain ⟨-, rfl⟩ := Sql.pure_eq_some.1 h₂
    exact sameStatus_updateOne h₁ fun _ => rfl
  case reserveSlot =>
    obtain ⟨draw, -, h⟩ := given_eq_some.1 h
    obtain ⟨w₁, w₂, h₁, h⟩ := Sql.bind_eq_some.1 h
    cases h₁
    obtain ⟨reserved, w₃, h₃, h⟩ := Sql.bind_eq_some.1 h
    obtain ⟨-, rfl⟩ := Sql.pure_eq_some.1 h
    exact sameStatus_updateOne h₃ fun _ => rfl
  all_goals exact haside (by simp [Op.footprint])

end Status

/-! ## Runs -/

section Runs

variable {configuration : Configuration} {P : System (platform configuration) →
  Label (platform configuration) → Prop} {w : World} {s s' : System (platform configuration)}
  {l : Label (platform configuration)} {sessionId d : Uuid}

/-- A call that processes delivery `d` wrote the state it reports. -/
def Applied (s : System (platform configuration)) (d : Uuid) : Prop :=
  ∃ e ∈ s.trace, s.requestOf e.thread = some (.process d) ∧ e.op.isStatusWrite = true

/-- Nothing but callbacks changes the state of the connection. -/
def OnlyCallbacks (sessionId : Uuid) (s : System (platform configuration))
    (l : Label (platform configuration)) : Prop :=
  (∀ i choice input, l = .advance i choice → s.nextOp i = some (.recordStatus sessionId input) →
    ∃ d, s.requestOf i = some (.process d)) ∧
  ∀ table, l = .outside (.sessions table) → ∀ r', table.find? sessionId = some r' →
    ∃ r, s.world.session sessionId = some r ∧ r'.status = r.status

/-- A call that claimed delivery `d` has not come to its end. -/
def UnderWay (s : System (platform configuration)) (i : Nat) (d : Uuid) : Prop :=
  (∃ e ∈ s.trace, e.thread = i ∧ e.op = .claimForProcessing d) ∧ (s.nextOp i).isSome = true

/-- The state that the callback received last carries is written in its turn: each callback that
carries another state is processed, and no call that claimed one is under way. -/
def InTurn (sessionId : Uuid) (s : System (platform configuration))
    (l : Label (platform configuration)) : Prop :=
  ∀ i choice input p, l = .advance i choice → s.nextOp i = some (.recordStatus sessionId input) →
    (s.world.reports sessionId).getLast? = some p → s.requestOf i = some (.process p.1) →
    ∀ p' ∈ s.world.reports sessionId, p'.2 ≠ p.2 →
      s.world.isProcessed p'.1 ∧ ∀ j, ¬ UnderWay s j p'.1

/-- If all that was reported is processed, the state of the connection is what was reported last. -/
def NewestWins (sessionId : Uuid) (w : World) : Prop :=
  (∀ p ∈ w.reports sessionId, w.isProcessed p.1) →
    ∀ p, (w.reports sessionId).getLast? = some p →
      ∀ r, w.session sessionId = some r → r.status = p.2

theorem Applied.step (h : Applied s d) (hs : s.step l = some s') : Applied s' d := by
  obtain ⟨e, he, hrequest, hop⟩ := h
  have hsuffix : s.trace <:+ s'.trace := Run.trace_suffix (.tail .refl (P := Any) trivial hs)
  exact ⟨e, hsuffix.subset he, System.requestOf_step hs hrequest, hop⟩

/-- How far every call is with the report it claimed. -/
abbrev applyings (s : System (platform configuration)) : Nat → Option Applying :=
  (applyingDiscipline configuration).phase s

/-- The phase of a call that serves a request. -/
def Applying.Of : Request → Applying → Prop
  | .process d, q =>
    q = unclaimed d ∨ (∃ c, c.id = d ∧ (q = claimed c ∨ q = applied c)) ∨ q = finished
  | _, q => q = elsewhere

theorem applying_of (h : Run P (System.start w) s) {i : Nat} {request : Request} {q : Applying}
    (hi : s.requestOf i = some request) (hq : applyings s i = some q) : q.Of request := by
  refine Discipline.run_phases (D := applyingDiscipline configuration) (fun request q => q.Of request)
    (fun request => ?_) ?_ h hi hq
  · cases request <;> first | exact .inl rfl | exact rfl
  · intro request q o r hq ho ha
    cases request
    case process d =>
      rcases hq with rfl | ⟨c, rfl, rfl | rfl⟩ | rfl
      · cases o <;> try exact ho.elim
        obtain rfl := ho
        cases r with
        | none => exact .inr (.inr rfl)
        | some c => exact .inr (.inl ⟨c, ha.1, .inl rfl⟩)
      · cases o
        case recordStatus => exact .inr (.inl ⟨c, rfl, .inr rfl⟩)
        case markProcessed => exact .inr (.inr rfl)
        all_goals exact .inr (.inl ⟨c, rfl, .inl rfl⟩)
      · cases o
        case markProcessed => exact .inr (.inr rfl)
        all_goals exact .inr (.inl ⟨c, rfl, .inr rfl⟩)
      · cases o <;> exact ho.elim
    all_goals
      cases hq
      cases o <;> rfl

/-- A call that holds a delivery was started for it. -/
theorem request_of_holds (h : Run P (System.start w) s) {i : Nat} {c : WebhookDeliveryRecord}
    (hq : applyings s i = some (.claimed c) ∨ applyings s i = some (.applied c)) :
    s.requestOf i = some (.process c.id) := by
  obtain ⟨q, hphase, hholds⟩ : ∃ q, applyings s i = some q ∧ (q = .claimed c ∨ q = .applied c) := by
    rcases hq with hq | hq
    · exact ⟨_, hq, .inl rfl⟩
    · exact ⟨_, hq, .inr rfl⟩
  obtain ⟨t, ht, -⟩ := Option.map_eq_some_iff.1 hphase
  have hrequest : s.requestOf i = some t.request := by
    simp only [System.requestOf, ht, Option.map_some]
  have hof := applying_of h hrequest hphase
  cases hr : t.request with
  | process d =>
    rw [hr] at hof hrequest
    rcases hholds with rfl | rfl
    · rcases hof with hof | ⟨c', rfl, hof | hof⟩ | hof <;> cases hof
      exact hrequest
    · rcases hof with hof | ⟨c', rfl, hof | hof⟩ | hof <;> cases hof
      exact hrequest
  | _ =>
    rw [hr] at hof
    rcases hholds with rfl | rfl <;> cases hof

/-- What a call holds when it writes the state of a connection for delivery `d`. -/
theorem claimed_of_writes (h : Run P (System.start w) s) {i : Nat} {q : Applying} {o : Op}
    (hi : s.requestOf i = some (.process d)) (hq : applyings s i = some q) (ho : q.Allows o)
    (hwrite : o.isStatusWrite = true) : ∃ c input, q = .claimed c ∧ c.id = d ∧
      o = .recordStatus c.whatsAppSessionId input ∧ c.reported? = some input.status := by
  cases o <;> try cases hwrite
  rename_i session input
  rcases applying_of h hi hq with rfl | ⟨c, rfl, rfl | rfl⟩ | rfl
  · exact ho.elim
  · obtain ⟨rfl, hreported⟩ := ho
    exact ⟨c, input, rfl, rfl, rfl, hreported⟩
  · exact ho.elim
  · exact ho.elim

/-- A new write is all that is ever added to what was applied. -/
theorem Applied.before (hd : (applyingDiscipline configuration).Disciplined s)
    (hs : s.step l = some s') (h : Applied s' d) : Applied s d ∨ ∃ e, s'.trace = e :: s.trace ∧
      s.requestOf e.thread = some (.process d) ∧ e.op.isStatusWrite = true := by
  obtain ⟨e, he, hrequest, hop⟩ := h
  have hold : e ∈ s.trace → Applied s d := fun he => by
    obtain ⟨request, hbefore⟩ := hd.quiet.requestOf he
    cases (System.requestOf_step hs hbefore).symm.trans hrequest
    exact ⟨e, he, hbefore, hop⟩
  cases hd.stepped hs with
  | spawned _ _ _ _ trace | crashed _ _ _ trace | outside _ _ _ trace => exact .inl (hold (trace ▸ he))
  | advanced _ _ _ step =>
    rw [step.trace] at he
    rcases List.mem_cons.1 he with rfl | he
    · exact .inr ⟨_, step.trace, step.request ▸ hrequest, hop⟩
    · exact .inl (hold he)

/-- A call that holds a delivery held it before, or claimed it just now. -/
theorem holds_of_advance {w' : World} {choice : Choice} {o : Op} {r : o.Ret} {q : Applying}
    {c : WebhookDeliveryRecord} (ho : q.Allows o) (he : exec w o choice = some (r, w'))
    (hq : some (q.advance o r) = some (.claimed c) ∨ some (q.advance o r) = some (.applied c)) :
    (q = .claimed c ∨ q = .applied c) ∨
      ∃ d, o = .claimForProcessing d ∧ w'.delivery c.id = some c := by
  cases q with
  | unclaimed d =>
    cases o <;> try exact ho.elim
    cases r with
    | none => rcases hq with hq | hq <;> cases hq
    | some c' =>
      rcases hq with hq | hq <;> cases hq
      refine .inr ⟨_, rfl, ?_⟩
      have hupdate := (Choice.quietly_eq_some.1 he).2
      obtain ⟨-, hself⟩ := updateOne_delivery hupdate
      obtain ⟨hc, -⟩ := Prod.mk.inj (Option.some.inj hupdate)
      obtain ⟨old, hold, hp, rfl⟩ := Table.updateAt_eq_some.1 hc
      obtain rfl := Table.key_of_find? hold
      refine hself.trans ?_
      rw [World.delivery, hold, Option.map_some, if_pos hp]
  | claimed c' =>
    left
    cases o
    case recordStatus =>
      rcases hq with hq | hq <;> cases hq
      exact .inl rfl
    case markProcessed => rcases hq with hq | hq <;> cases hq
    all_goals
      rcases hq with hq | hq <;> cases hq
      exact .inl rfl
  | applied c' =>
    left
    cases o
    case markProcessed => rcases hq with hq | hq <;> cases hq
    all_goals
      rcases hq with hq | hq <;> cases hq
      exact .inr rfl
  | finished => exact (by cases o <;> exact ho.elim)
  | elsewhere => cases o <;> rcases hq with hq | hq <;> cases hq

/-- A report is applied by a write. -/
theorem applied_of_advance {o : Op} {r : o.Ret} {q : Applying} {c : WebhookDeliveryRecord}
    (ho : q.Allows o) (hq : q.advance o r = .applied c) :
    q = .applied c ∨ (q = .claimed c ∧ o.isStatusWrite = true) := by
  cases q with
  | unclaimed d =>
    cases o <;> try exact ho.elim
    cases r <;> cases hq
  | claimed c' =>
    cases o
    case recordStatus =>
      cases hq
      exact .inr ⟨rfl, rfl⟩
    all_goals cases hq
  | applied c' =>
    cases o
    case markProcessed => cases hq
    all_goals
      cases hq
      exact .inl rfl
  | finished => cases o <;> exact ho.elim
  | elsewhere => cases o <;> cases hq

/-- No call that holds delivery `d` and has yet to write its state takes another step. -/
def Stopped (s : System (platform configuration)) (d : Uuid) : Prop :=
  ∀ i c, applyings s i = some (.claimed c) → c.id = d → s.nextOp i = none

theorem Stopped.step (h : Stopped s d) (hs : s.step l = some s')
    (hback : ∀ i c, applyings s' i = some (.claimed c) → c.id = d →
      applyings s i = some (.claimed c)) : Stopped s' d := by
  intro i c hq hid
  have hbefore := hback i c hq hid
  obtain ⟨t, ht, -⟩ := Option.map_eq_some_iff.1 hbefore
  exact System.stopped_step hs (by rw [ht]; rfl) (h i c hbefore hid)

/-- The state that was applied last is the newest one's, and nothing is left to write another. -/
structure Prevails (sessionId : Uuid) (s : System (platform configuration))
    (p : Uuid × ProviderSessionStatus) : Prop where
  status : ∀ r, s.world.session sessionId = some r → r.status = p.2
  settled : ∀ p' ∈ s.world.reports sessionId, p'.2 ≠ p.2 →
    s.world.isProcessed p'.1 ∧ Stopped s p'.1

/-- What is true of the phases, the inbox and the connection throughout. -/
structure Reporting (sessionId : Uuid) (s : System (platform configuration)) : Prop where
  /-- The delivery a call holds is on file as it was. -/
  held : ∀ i c, applyings s i = some (.claimed c) ∨ applyings s i = some (.applied c) →
    ∃ row, s.world.delivery c.id = some row ∧
      row.whatsAppSessionId = c.whatsAppSessionId ∧ row.reported? = c.reported?
  claimed : ∀ i c, applyings s i = some (.claimed c) →
    ∃ e ∈ s.trace, e.thread = i ∧ e.op = .claimForProcessing c.id
  written : ∀ i c, applyings s i = some (.applied c) → Applied s c.id
  filed : ∀ d, Applied s d → (s.world.delivery d).isSome
  processed : ∀ p ∈ s.world.reports sessionId, s.world.isProcessed p.1 → Applied s p.1
  newest : ∀ p, (s.world.reports sessionId).getLast? = some p → Applied s p.1 →
    Prevails sessionId s p

theorem reporting_start (h : w.reports sessionId = []) :
    Reporting sessionId (System.start w : System (platform configuration)) where
  held _ _ hq := hq.elim nofun nofun
  claimed _ _ hq := nomatch hq
  written _ _ hq := nomatch hq
  filed _ h := by
    obtain ⟨_, he, -⟩ := h
    cases he
  processed p hp := by
    change p ∈ w.reports sessionId at hp
    rw [h] at hp
    cases hp
  newest p hp := by
    change (w.reports sessionId).getLast? = some p at hp
    rw [h] at hp
    cases hp

/-! ### Steps in which no call does anything -/

/-- At most a new callback is filed. -/
def Files (w w' : World) : Prop :=
  w'.webhookDeliveries = w.webhookDeliveries ∨ ∃ new,
    w'.webhookDeliveries.rows = w.webhookDeliveries.rows ++ [new] ∧
      w.delivery new.id = none ∧ new.processedAt = none

section Files

variable {w₁ w₂ : World}

theorem Files.delivery (h : Files w₁ w₂) {row : WebhookDeliveryRecord}
    (hrow : w₁.delivery d = some row) : w₂.delivery d = some row := by
  rcases h with hsame | ⟨new, hrows, -, -⟩
  · rw [World.delivery, hsame]
    exact hrow
  · unfold World.delivery Table.find? at hrow ⊢
    rw [hrows, List.find?_append, hrow, Option.some_or]

theorem Files.isProcessed (h : Files w₁ w₂) (hd : w₁.isProcessed d) : w₂.isProcessed d := by
  obtain ⟨row, hrow, hdone⟩ := hd
  exact ⟨row, h.delivery hrow, hdone⟩

/-- The reports stay, or one is added that is on file only now, and not processed. -/
theorem Files.reports (h : Files w₁ w₂) (sessionId : Uuid) :
    w₂.reports sessionId = w₁.reports sessionId ∨
    ∃ p, w₂.reports sessionId = w₁.reports sessionId ++ [p] ∧ w₁.delivery p.1 = none ∧
      ¬ w₂.isProcessed p.1 := by
  rcases h with hsame | ⟨new, hrows, hfresh, hprocessed⟩
  · left
    unfold World.reports
    rw [hsame]
  · unfold World.reports
    rw [hrows, List.filterMap_append]
    by_cases hnew : new.whatsAppSessionId = sessionId
    · cases hr : new.reported? with
      | none =>
        left
        simp [hr]
      | some status =>
        refine .inr ⟨(new.id, status), by simp [hnew, hr], hfresh, ?_⟩
        rintro ⟨row, hrow, hdone⟩
        have hself : w₂.delivery new.id = some new :=
          Table.find?_key (by rw [hrows]; exact List.mem_append_right _ List.mem_cons_self)
        cases hself.symm.trans hrow
        rw [hprocessed] at hdone
        cases hdone
    · left
      simp [hnew]

/-- A report that was on file is as processed as it was. -/
theorem Files.processed_before (h : Files w₁ w₂) {p : Uuid × ProviderSessionStatus}
    (hp : p ∈ w₁.reports sessionId) (hd : w₂.isProcessed p.1) : w₁.isProcessed p.1 := by
  obtain ⟨row, hrow, -⟩ := mem_reports hp
  obtain ⟨row', hrow', hdone⟩ := hd
  cases (h.delivery hrow).symm.trans hrow'
  exact ⟨row, hrow, hdone⟩

end Files

/-- A step in which no call does anything, and at most a new callback is filed. -/
theorem Reporting.quiet (h : Reporting sessionId s)
    (hd : (applyingDiscipline configuration).Disciplined s) (hs : s.step l = some s')
    (hphases : ∀ i c, (applyings s' i = some (.claimed c) → applyings s i = some (.claimed c)) ∧
      (applyings s' i = some (.applied c) → applyings s i = some (.applied c)))
    (htrace : s'.trace = s.trace) (hstatus : SameStatus s.world s'.world sessionId)
    (hfiles : Files s.world s'.world) : Reporting sessionId s' := by
  have hback : ∀ {d}, Applied s' d → Applied s d := by
    intro d ha
    refine (ha.before hd hs).resolve_right ?_
    rintro ⟨_, ht, _⟩
    exact List.cons_ne_self _ _ (ht.symm.trans htrace)
  refine ⟨?_, ?_, ?_, ?_, ?_, ?_⟩
  · intro i c hq
    obtain ⟨row, hrow, hsame⟩ := h.held i c (hq.imp (hphases i c).1 (hphases i c).2)
    exact ⟨row, hfiles.delivery hrow, hsame⟩
  · intro i c hq
    rw [htrace]
    exact h.claimed i c ((hphases i c).1 hq)
  · intro i c hq
    exact (h.written i c ((hphases i c).2 hq)).step hs
  · intro d ha
    obtain ⟨row, hrow⟩ := Option.isSome_iff_exists.1 (h.filed d (hback ha))
    rw [hfiles.delivery hrow]
    rfl
  · intro p hp hdone
    have hold : p ∈ s.world.reports sessionId := by
      rcases hfiles.reports sessionId with hsame | ⟨q, hadded, -, hpending⟩
      · rwa [hsame] at hp
      · rw [hadded] at hp
        refine (List.mem_append.1 hp).resolve_right fun hp => ?_
        cases List.mem_singleton.1 hp
        exact hpending hdone
    exact (h.processed p hold (hfiles.processed_before hold hdone)).step hs
  · intro p hp ha
    rcases hfiles.reports sessionId with hsame | ⟨q, hadded, hfresh, -⟩
    · rw [hsame] at hp
      obtain ⟨hnow, hsettled⟩ := h.newest p hp (hback ha)
      refine ⟨fun r hr => ?_, fun p' hp' hne => ?_⟩
      · obtain ⟨old, hold, hsame⟩ := hstatus r hr
        exact hsame.trans (hnow old hold)
      · rw [hsame] at hp'
        obtain ⟨hdone, hstopped⟩ := hsettled p' hp' hne
        exact ⟨hfiles.isProcessed hdone, hstopped.step hs fun i c hq _ => (hphases i c).1 hq⟩
    · rw [hadded, List.getLast?_concat] at hp
      cases hp
      -- what is filed only now was not applied before
      have hfiled := h.filed _ (hback ha)
      rw [hfresh] at hfiled
      cases hfiled

/-! ### Steps of a call -/

section Advanced

variable {i : Nat} {choice : Choice} {o : Op} {r : o.Ret} {q : Applying}

/-- What a call does to the inbox: it leaves what was filed. -/
theorem inbox_advanced (sessionId : Uuid)
    (ha : (applyingDiscipline configuration).Advanced s s' i choice o r q) :
    ∃ f, Marks (fun d => ∃ input, o = .markProcessed input ∧ input.deliveryId = d) f ∧
      (∀ d, s'.world.delivery d = (s.world.delivery d).map f) ∧
      s'.world.reports sessionId = s.world.reports sessionId := by
  obtain ⟨f, hrows, hf⟩ := deliveries_exec ha.exec
  exact ⟨f, hf, fun d => Table.find?_of_map hrows hf.id d, reports_map hrows hf⟩

theorem isProcessed_advanced
    (ha : (applyingDiscipline configuration).Advanced s s' i choice o r q)
    (hd : s.world.isProcessed d) : s'.world.isProcessed d := by
  obtain ⟨f, hf, hdelivery, -⟩ := inbox_advanced 0 ha
  obtain ⟨row, hrow, hdone⟩ := hd
  exact ⟨f row, by rw [hdelivery, hrow]; rfl, hf.kept row hdone⟩

/-- A delivery that is applied was so before, or the call that holds it writes its state now. -/
theorem applied_advanced (hr : Run P (System.start w) s) (hs : s.step (.advance i choice) = some s')
    (ha : (applyingDiscipline configuration).Advanced s s' i choice o r q) (happlied : Applied s' d) :
    Applied s d ∨ ∃ c input, q = .claimed c ∧ c.id = d ∧
      o = .recordStatus c.whatsAppSessionId input ∧ c.reported? = some input.status := by
  refine (happlied.before (Discipline.disciplined_run hr) hs).imp_right ?_
  rintro ⟨e, ht, hrequest, hop⟩
  cases ha.trace.symm.trans ht
  exact claimed_of_writes hr hrequest ha.before ha.allowed hop

/-- A call that has yet to write held its delivery before, or it claims one that is not processed. -/
theorem claimed_advanced (ha : (applyingDiscipline configuration).Advanced s s' i choice o r q)
    {j : Nat} {c : WebhookDeliveryRecord} (hq : applyings s' j = some (.claimed c)) :
    applyings s j = some (.claimed c) ∨
      j = i ∧ o = .claimForProcessing c.id ∧ ¬ s.world.isProcessed c.id := by
  by_cases hji : j = i
  · subst hji
    have hself : applyings s' j = some (q.advance o r) := ha.after
    rw [hself] at hq
    have hbefore : applyings s j = some q := ha.before
    have hallowed := ha.allowed
    have hexec := ha.exec
    have hanswer := ha.answered
    cases q with
    | unclaimed d =>
      cases o <;> try exact hallowed.elim
      cases r with
      | none => cases hq
      | some c' =>
        cases hq
        obtain rfl := hallowed
        obtain rfl : c.id = _ := hanswer.1
        exact .inr ⟨rfl, rfl, unprocessed_of_claim hexec⟩
    | claimed c' =>
      left
      rw [hbefore]
      cases o <;> first | exact hq | cases hq
    | applied c' => cases o <;> cases hq
    | finished => cases o <;> exact hallowed.elim
    | elsewhere => cases o <;> cases hq
  · exact .inl ((ha.others j hji).symm.trans hq)

theorem Stopped.advanced (h : Stopped s d) (hs : s.step (.advance i choice) = some s')
    (ha : (applyingDiscipline configuration).Advanced s s' i choice o r q)
    (hdone : s.world.isProcessed d) : Stopped s' d :=
  h.step hs fun _ _ hq hid => (claimed_advanced ha hq).resolve_right fun hnew =>
    hnew.2.2 (hid ▸ hdone)

theorem Reporting.held_advanced (h : Reporting sessionId s)
    (ha : (applyingDiscipline configuration).Advanced s s' i choice o r q) (j : Nat)
    (c : WebhookDeliveryRecord)
    (hq : applyings s' j = some (.claimed c) ∨ applyings s' j = some (.applied c)) :
    ∃ row, s'.world.delivery c.id = some row ∧
      row.whatsAppSessionId = c.whatsAppSessionId ∧ row.reported? = c.reported? := by
  obtain ⟨f, hf, hdelivery, -⟩ := inbox_advanced sessionId ha
  have hold : applyings s j = some (.claimed c) ∨ applyings s j = some (.applied c) →
      ∃ row, s'.world.delivery c.id = some row ∧
        row.whatsAppSessionId = c.whatsAppSessionId ∧ row.reported? = c.reported? := by
    intro hq
    obtain ⟨row, hrow, hsession, hreported⟩ := h.held j c hq
    refine ⟨f row, by rw [hdelivery, hrow]; rfl, ?_, ?_⟩
    · exact (hf.session row).trans hsession
    · exact (hf.reported row).trans hreported
  by_cases hji : j = i
  · subst hji
    have hself : applyings s' j = some (q.advance o r) := ha.after
    rw [hself] at hq
    obtain hkept | ⟨d, hop, hrow⟩ := holds_of_advance ha.allowed ha.exec hq
    · have hbefore : applyings s j = some q := ha.before
      refine hold ?_
      rw [hbefore]
      exact hkept.imp (congrArg some) (congrArg some)
    · exact ⟨c, hrow, rfl, rfl⟩
  · have hother : applyings s' j = applyings s j := ha.others j hji
    rw [hother] at hq
    exact hold hq

theorem Reporting.claimed_advanced (h : Reporting sessionId s)
    (ha : (applyingDiscipline configuration).Advanced s s' i choice o r q) (j : Nat)
    (c : WebhookDeliveryRecord) (hq : applyings s' j = some (.claimed c)) :
    ∃ e ∈ s'.trace, e.thread = j ∧ e.op = .claimForProcessing c.id := by
  rw [ha.trace]
  rcases NotificationPlatform.claimed_advanced ha hq with hbefore | ⟨rfl, rfl, -⟩
  · obtain ⟨e, he, hclaim⟩ := h.claimed j c hbefore
    exact ⟨e, List.mem_cons_of_mem _ he, hclaim⟩
  · exact ⟨_, List.mem_cons_self, rfl, rfl⟩

theorem Reporting.written_advanced (h : Reporting sessionId s) (hr : Run P (System.start w) s)
    (hs : s.step (.advance i choice) = some s')
    (ha : (applyingDiscipline configuration).Advanced s s' i choice o r q) (j : Nat)
    (c : WebhookDeliveryRecord) (hq : applyings s' j = some (.applied c)) : Applied s' c.id := by
  by_cases hji : j = i
  · subst hji
    have hself : applyings s' j = some (q.advance o r) := ha.after
    rw [hself] at hq
    rcases applied_of_advance ha.allowed (Option.some.inj hq) with rfl | ⟨rfl, hwrite⟩
    · exact (h.written j c ha.before).step hs
    · refine ⟨⟨j, o, r⟩, by rw [ha.trace]; exact List.mem_cons_self, ?_, hwrite⟩
      exact ha.request.trans (request_of_holds hr (.inl ha.before))
  · have hother : applyings s' j = applyings s j := ha.others j hji
    rw [hother] at hq
    exact (h.written j c hq).step hs

theorem Reporting.filed_advanced (h : Reporting sessionId s) (hr : Run P (System.start w) s)
    (hs : s.step (.advance i choice) = some s')
    (ha : (applyingDiscipline configuration).Advanced s s' i choice o r q)
    (happlied : Applied s' d) : (s'.world.delivery d).isSome := by
  obtain ⟨f, -, hdelivery, -⟩ := inbox_advanced sessionId ha
  rw [hdelivery, Option.isSome_map]
  rcases applied_advanced hr hs ha happlied with hbefore | ⟨c, input, rfl, rfl, -⟩
  · exact h.filed d hbefore
  · obtain ⟨row, hrow, -⟩ := h.held i c (.inl ha.before)
    rw [hrow]
    rfl

/-- A delivery is marked by a call that had no state to write, or wrote it. -/
theorem Reporting.processed_advanced (h : Reporting sessionId s)
    (hs : s.step (.advance i choice) = some s')
    (ha : (applyingDiscipline configuration).Advanced s s' i choice o r q)
    {p : Uuid × ProviderSessionStatus} (hp : p ∈ s'.world.reports sessionId)
    (hdone : s'.world.isProcessed p.1) : Applied s' p.1 := by
  obtain ⟨f, hf, hdelivery, hreports⟩ := inbox_advanced sessionId ha
  rw [hreports] at hp
  obtain ⟨row, hrow, hsession, hreported⟩ := mem_reports hp
  obtain ⟨row', hrow', hdone⟩ := hdone
  rw [hdelivery, hrow] at hrow'
  cases hrow'
  rcases hf.processed row hdone with hbefore | ⟨input, rfl, hid⟩
  · exact (h.processed p hp ⟨row, hrow, hbefore⟩).step hs
  · have hrowId : row.id = p.1 := Table.key_of_find? hrow
    cases q
    case unclaimed | finished => exact ha.allowed.elim
    case elsewhere => exact absurd (show true = false from ha.allowed) (by decide)
    case claimed c =>
      obtain ⟨hc, hnone⟩ := ha.allowed
      obtain ⟨row', hrow', -, hsame⟩ := h.held i c (.inl ha.before)
      rw [← hc, hid, hrowId] at hrow'
      cases hrow.symm.trans hrow'
      rw [hreported, hnone] at hsame
      cases hsame
    case applied c =>
      have hc : input.deliveryId = c.id := ha.allowed
      have happlied := h.written i c ha.before
      rw [← hc, hid, hrowId] at happlied
      exact happlied.step hs

/-- Where the newest state was applied before, another write is of the same state: a call that holds
a callback with another one takes no step. -/
theorem Prevails.advanced {p : Uuid × ProviderSessionStatus} (h : Prevails sessionId s p)
    (hreporting : Reporting sessionId s) (hr : Run P (System.start w) s)
    (hs : s.step (.advance i choice) = some s') (honly : OnlyCallbacks sessionId s (.advance i choice))
    (ha : (applyingDiscipline configuration).Advanced s s' i choice o r q) :
    Prevails sessionId s' p := by
  obtain ⟨f, -, -, hreports⟩ := inbox_advanced sessionId ha
  refine ⟨fun row hrow => ?_, fun p' hp' hne => ?_⟩
  · by_cases hstatus : ∃ input, o = .recordStatus sessionId input
    · obtain ⟨input, rfl⟩ := hstatus
      rw [status_written ha.exec hrow]
      by_contra hne
      obtain ⟨d, hd⟩ := honly.1 i choice input rfl ha.nextOp
      obtain ⟨c, input', rfl, -, hop, hreported⟩ :=
        claimed_of_writes hr hd ha.before ha.allowed rfl
      cases hop
      obtain ⟨filed, hfiled, hsession, hsame⟩ := hreporting.held i c (.inl ha.before)
      have hmem := mem_reports_of hfiled hsession (hsame.trans hreported)
      have hstopped := (h.settled _ hmem hne).2 i c ha.before rfl
      cases hstopped.symm.trans ha.nextOp
    · have hno : ∀ input, o ≠ .recordStatus sessionId input := fun input he => hstatus ⟨input, he⟩
      obtain ⟨old, hold, hsame⟩ := status_kept ha.exec hno row hrow
      exact hsame.trans (h.status old hold)
  · rw [hreports] at hp'
    obtain ⟨hdone, hstopped⟩ := h.settled p' hp' hne
    exact ⟨isProcessed_advanced ha hdone, hstopped.advanced hs ha hdone⟩

/-- The newest state prevails once it is written in its turn. -/
theorem Reporting.prevails (h : Reporting sessionId s) (hr : Run P (System.start w) s)
    (hs : s.step (.advance i choice) = some s') (hturn : InTurn sessionId s (.advance i choice))
    (ha : (applyingDiscipline configuration).Advanced s s' i choice o r q)
    {p : Uuid × ProviderSessionStatus} (hp : (s.world.reports sessionId).getLast? = some p)
    {c : WebhookDeliveryRecord} {input : WhatsAppSessionRepository.StatusInput} (hq : q = .claimed c)
    (hc : c.id = p.1) (ho : o = .recordStatus c.whatsAppSessionId input)
    (hreported : c.reported? = some input.status) : Prevails sessionId s' p := by
  subst hq ho
  obtain ⟨f, -, -, hreports⟩ := inbox_advanced sessionId ha
  -- a report of this connection is written to this connection
  obtain ⟨filed, hfiled, hsession, hsame⟩ := h.held i c (.inl ha.before)
  obtain ⟨filed', hfiled', hsession', hlast⟩ := mem_reports (List.mem_of_getLast? hp)
  rw [hc] at hfiled
  cases hfiled.symm.trans hfiled'
  have hself : c.whatsAppSessionId = sessionId := hsession.symm.trans hsession'
  have hstate : input.status = p.2 := by
    rw [hsame, hreported] at hlast
    exact Option.some.inj hlast
  have hexec := ha.exec
  have hnext := ha.nextOp
  rw [hself] at hnext
  refine ⟨fun row hrow => ?_, fun p' hp' hne => ?_⟩
  · rw [← hstate]
    exact status_written hexec (hself ▸ hrow)
  · rw [hreports] at hp'
    have hrequest : s.requestOf i = some (.process p.1) :=
      hc ▸ request_of_holds hr (.inl ha.before)
    obtain ⟨hdone, hidle⟩ := hturn i choice input p rfl hnext hp hrequest p' hp' hne
    have hstopped : Stopped s p'.1 := by
      intro j c' hq hid
      by_contra hrunning
      refine hidle j ⟨hid ▸ h.claimed j c' hq, ?_⟩
      rw [Option.isSome_iff_ne_none]
      exact hrunning
    exact ⟨isProcessed_advanced ha hdone, hstopped.advanced hs ha hdone⟩

end Advanced

/-- A step of a call. -/
theorem Reporting.advanced (h : Reporting sessionId s) (hr : Run P (System.start w) s) {i : Nat}
    {choice : Choice} {o : Op} {r : o.Ret} {q : Applying}
    (hs : s.step (.advance i choice) = some s') (honly : OnlyCallbacks sessionId s (.advance i choice))
    (hturn : InTurn sessionId s (.advance i choice))
    (ha : (applyingDiscipline configuration).Advanced s s' i choice o r q) :
    Reporting sessionId s' where
  held := h.held_advanced ha
  claimed := h.claimed_advanced ha
  written := h.written_advanced hr hs ha
  filed _ := h.filed_advanced hr hs ha
  processed _ := h.processed_advanced hs ha
  newest p hp happlied := by
    obtain ⟨f, -, -, hreports⟩ := inbox_advanced sessionId ha
    rw [hreports] at hp
    rcases applied_advanced hr hs ha happlied with hbefore | ⟨c, input, hq, hc, ho, hreported⟩
    · exact (h.newest p hp hbefore).advanced h hr hs honly ha
    · exact h.prevails hr hs hturn ha hp hq hc ho hreported

/-- **In every run in which nothing but callbacks changes the state of a connection, and in which the
newest callback is applied once the jobs of those with another state have come to their ends, the
newest one's state is what is stored when all of them are processed.** -/
theorem newest_status_wins (hstart : w.reports sessionId = [])
    (hr : Run (fun s l => OnlyCallbacks sessionId s l ∧ InTurn sessionId s l)
      (System.start w : System (platform configuration)) s) : NewestWins sessionId s.world := by
  have hreporting : Reporting sessionId s := by
    refine Run.invariant (reporting_start hstart) ?_ hr
    rintro s₁ l s₂ hr₁ h ⟨honly, hturn⟩ hs
    have hd : (applyingDiscipline configuration).Disciplined s₁ := Discipline.disciplined_run hr₁
    cases hd.stepped hs with
    | @spawned i request _ phases _ world trace =>
      refine h.quiet hd hs ?_ trace (sameStatus_of_eq (by rw [world])) (.inl (by rw [world]))
      intro j c
      rw [applyings, phases]
      by_cases hji : j = i
      · subst hji
        rw [Function.update_self]
        cases request <;> exact ⟨nofun, nofun⟩
      · rw [Function.update_of_ne hji]
        exact ⟨id, id⟩
    | advanced phases _ _ step => exact h.advanced hr₁ hs honly hturn step
    | crashed phases _ world trace =>
      refine h.quiet hd hs ?_ trace (sameStatus_of_eq (by rw [world])) (.inl (by rw [world]))
      intro j c
      rw [applyings, phases]
      exact ⟨id, id⟩
    | outside phases _ he trace =>
      refine h.quiet hd hs ?_ trace ?_ (deliveries_outside he)
      · intro j c
        rw [applyings, phases]
        exact ⟨id, id⟩
      · rcases outside_sessions he with ⟨table, rfl⟩ | hsame
        · intro new hnew
          rw [← Option.some.inj he] at hnew
          exact honly.2 table rfl new hnew
        · exact sameStatus_of_eq (by rw [World.session, hsame]; rfl)
  intro hall p hp row hrow
  exact (hreporting.newest p hp (hreporting.processed p (List.mem_of_getLast? hp)
    (hall p (List.mem_of_getLast? hp)))).status row hrow

end Runs

/-! ## Two callbacks -/

namespace Sample

/-- A callback that reports the state of connection 2. -/
def report (id : Uuid) (status : ProviderSessionStatus) :
    WebhookDeliveryRepository.RecordWebhookDeliveryInput where
  id := id
  applicationId := 1
  whatsAppSessionId := 2
  providerEventId := status.text
  eventType := "session.status"
  providerSessionName := "main"
  payload := [("status", .string status.text)]
  receivedAt := 0

/-- Only calls of `process` run, and nobody administers connections. -/
def callbacksOnly (s : System (platform configuration)) : Step → Bool
  | .advance i _ =>
    match s.requestOf i with
    | some (.process _) => true
    | _ => false
  | .outside (.sessions _) => false
  | _ => true

/-- The newest state is written in its turn. -/
def takesTurns (s : System (platform configuration)) : Step → Bool
  | .advance i _ =>
    match s.nextOp i, (s.world.reports 2).getLast?, s.requestOf i with
    | some (.recordStatus _ _), some p, some (.process d) =>
      d ≠ p.1 || (s.world.reports 2).all fun p' => p'.2 = p.2 ||
        ((s.world.delivery p'.1).any (·.processedAt.isSome) &&
          s.trace.all fun e => !claims p'.1 e.op || (s.nextOp e.thread).isNone)
    | _, _, _ => true
  | _ => true
where
  claims (d : Uuid) : Op → Bool
    | .claimForProcessing d' => d' = d
    | _ => false

theorem onlyCallbacks_of_check {s : System (platform configuration)} {l : Step}
    (h : callbacksOnly s l = true) : OnlyCallbacks 2 s l := by
  constructor
  · rintro i choice input rfl -
    simp only [callbacksOnly] at h
    split at h
    · rename_i d hd
      exact ⟨d, hd⟩
    · cases h
  · rintro table rfl
    cases h

theorem inTurn_of_check {s : System (platform configuration)} {l : Step}
    (h : takesTurns s l = true) : InTurn 2 s l := by
  rintro i choice input p rfl hnext hlast hrequest p' hp' hne
  simp only [takesTurns, hnext, hlast, hrequest, ne_eq, not_true_eq_false, decide_false,
    Bool.false_or] at h
  have hreport := List.all_eq_true.1 h p' hp'
  simp only [hne, decide_false, Bool.false_or, Bool.and_eq_true] at hreport
  obtain ⟨hdone, hidle⟩ := hreport
  refine ⟨(Option.any_eq_true _ _).1 hdone, ?_⟩
  rintro j ⟨⟨e, he, rfl, hclaim⟩, hrunning⟩
  have hstopped := List.all_eq_true.1 hidle e he
  rw [hclaim] at hstopped
  simp only [takesTurns.claims, decide_true, Bool.not_true, Bool.false_or,
    Option.isNone_iff_eq_none] at hstopped
  rw [hstopped] at hrunning
  cases hrunning

/-- Thread `i` processes a report that says nothing of the account's limits. -/
def appliesReport (i : Nat) : List Step :=
  [.advance i .nothing, .advance i (.date 0), .advance i .nothing, .advance i (.date 0),
    .advance i .nothing]

/-- Thread `i` applies a report that the connection works, which says nothing more either. -/
def appliesWorking (i : Nat) : List Step :=
  [.advance i (.date 0), .advance i .nothing, .advance i .nothing, .advance i (.date 0),
    .advance i .nothing, .advance i (.date 0), .advance i .nothing]

/-- Two callbacks are processed at once, and the job of the first one fails and is repeated. The
third one, which says that the connection failed, is received and processed afterwards. -/
def failedReported : List Step :=
  [.outside (.filed (report 11 .WORKING)), .outside (.filed (report 12 .STARTING)),
    .spawn 0 (.process 11), .spawn 1 (.process 11), .spawn 2 (.process 12),
    .advance 0 .nothing, .crash 0, .advance 1 .nothing, .advance 2 .nothing] ++ appliesWorking 1 ++
    (appliesReport 2).tail ++
    [.outside (.filed (report 13 .FAILED)), .spawn 3 (.process 13), .spawn 4 (.process 11),
      .advance 4 .nothing] ++ appliesReport 3

/-- It was reported to work before, and that callback is processed last. -/
def staleReported : List Step :=
  [.outside (.filed (report 11 .WORKING)), .outside (.filed (report 12 .FAILED)),
    .spawn 0 (.process 11), .spawn 1 (.process 12)] ++ appliesReport 1 ++
    .advance 0 .nothing :: appliesWorking 0

end Sample

theorem newest_status_wins_sample :
    (Sample.run .RETRY Sample.failedReported).world.reports 2 =
        [(11, .WORKING), (12, .STARTING), (13, .FAILED)] ∧
      ((Sample.run .RETRY Sample.failedReported).world.session 2).map (·.status) = some .FAILED ∧
      NewestWins 2 (Sample.run .RETRY Sample.failedReported).world := by
  have hrun : Run (fun s l => (Sample.callbacksOnly s l && Sample.takesTurns s l) = true)
      (System.start (Sample.world .RETRY)) (Sample.run .RETRY Sample.failedReported) :=
    Run.of_checksEach (b := fun s l => Sample.callbacksOnly s l && Sample.takesTurns s l)
      (by decide +kernel)
  have hnewest := newest_status_wins rfl (hrun.mono fun s l h => by
    obtain ⟨honly, hturns⟩ := Bool.and_eq_true_iff.1 h
    exact ⟨Sample.onlyCallbacks_of_check honly, Sample.inTurn_of_check hturns⟩)
  have hfiled : (Sample.run .RETRY Sample.failedReported).world.reports 2 =
        [(11, .WORKING), (12, .STARTING), (13, .FAILED)] ∧
      ∀ d ∈ [11, 12, 13], ((Sample.run .RETRY Sample.failedReported).world.delivery d).any
        (·.processedAt.isSome) = true := by decide +kernel
  obtain ⟨hreports, hprocessed⟩ := hfiled
  refine ⟨hreports, ?_, hnewest⟩
  have hall : ∀ p ∈ (Sample.run .RETRY Sample.failedReported).world.reports 2,
      (Sample.run .RETRY Sample.failedReported).world.isProcessed p.1 := by
    rw [hreports]
    intro p hp
    exact (Option.any_eq_true _ _).1 (hprocessed p.1 (List.mem_map_of_mem (f := Prod.fst) hp))
  have hrow : ((Sample.run .RETRY Sample.failedReported).world.session 2).isSome = true := by
    decide +kernel
  obtain ⟨row, hrow⟩ := Option.isSome_iff_exists.1 hrow
  rw [hrow, Option.map_some, hnewest hall (13, .FAILED) (by rw [hreports]; rfl) row hrow]

/-- The newest callback says that the connection failed, both are processed, and the connection
counts as working. -/
theorem stale_status_wins :
    Run (OnlyCallbacks 2) (System.start (Sample.world .RETRY))
        (Sample.run .RETRY Sample.staleReported) ∧
      ((Sample.run .RETRY Sample.staleReported).world.session 2).map (·.status) = some .WORKING ∧
      ¬ NewestWins 2 (Sample.run .RETRY Sample.staleReported).world := by
  have hrun : Run (fun s l => Sample.callbacksOnly s l = true)
      (System.start (Sample.world .RETRY)) (Sample.run .RETRY Sample.staleReported) :=
    Run.of_checksEach (b := Sample.callbacksOnly) (by decide +kernel)
  refine ⟨hrun.mono fun s l h => Sample.onlyCallbacks_of_check h, by decide +kernel, fun h => ?_⟩
  have hreports : (Sample.run .RETRY Sample.staleReported).world.reports 2 =
      [(11, .WORKING), (12, .FAILED)] := by decide +kernel
  have hstatus : ((Sample.run .RETRY Sample.staleReported).world.session 2).map (·.status) =
      some .WORKING := by decide +kernel
  have hprocessed : ∀ d ∈ [11, 12],
      (Sample.run .RETRY Sample.staleReported).world.isProcessed d := by
    have hany : ∀ d ∈ [11, 12], ((Sample.run .RETRY Sample.staleReported).world.delivery d).any
        (·.processedAt.isSome) = true := by decide +kernel
    exact fun d hd => (Option.any_eq_true _ _).1 (hany d hd)
  obtain ⟨row, hrow, hworking⟩ := Option.map_eq_some_iff.1 hstatus
  have hfailed := h (by simpa [hreports] using hprocessed) (12, .FAILED) (by rw [hreports]; rfl) row
    hrow
  cases hworking.symm.trans hfailed

end NotificationPlatform
