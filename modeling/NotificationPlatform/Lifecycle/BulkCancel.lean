import NotificationPlatform.Lifecycle.Backlog
import NotificationPlatform.Delivery.Footprint

/-!
# Cancelling in bulk and one by one

`cancelWaiting` is one statement over many rows, `cancel` a conditional update of one. Both take the
same rows and write the same timeline entries. They differ in one column: the bulk statement clears
the time of the next attempt, and the update of one row leaves it.
-/

namespace NotificationPlatform

open Interleaving Relational NotificationQueryService

/-- The row a cancellation on its own leaves behind. -/
def NotificationRecord.cancelAlone (r : NotificationRecord) (now : Date) : NotificationRecord :=
  { r with status := .CANCELLED, cancelledAt := some now, updatedAt := now }

/-- A timeline entry without its identifier. -/
def NotificationEventRecord.content (e : NotificationEventRecord) :
    NotificationEventInput × Timestamptz := (e.toNotificationEventInput, e.occurredAt)

/-- What a bulk cancellation takes. -/
def World.waiting (w : World) (applicationId : Uuid) (whatsAppSessionId : Option Uuid) :
    List NotificationRecord :=
  w.notifications.select fun r => r.applicationId = applicationId ∧
    (r.status = .QUEUED ∨ r.status = .RETRYING) ∧ ∀ s ∈ whatsAppSessionId, r.whatsAppSessionId = s

/-- Equal databases, up to the identifiers and the order of timeline entries. -/
structure SameDatabase (w w' : World) : Prop where
  notifications : w'.notifications.rows = w.notifications.rows
  notificationEvents :
    (w'.notificationEvents.map (·.content)).Perm (w.notificationEvents.map (·.content))
  sendAttempts : w'.sendAttempts = w.sendAttempts
  whatsAppSessions : w'.whatsAppSessions = w.whatsAppSessions
  applications : w'.applications = w.applications
  webhookDeliveries : w'.webhookDeliveries = w.webhookDeliveries
  dispatchJobs : w'.dispatchJobs = w.dispatchJobs

/-- Cancellations on their own, one after the other, while the clock shows `now`. -/
inductive CancelsEach (applicationId : Uuid) (correlationId : Option String) (now : Date) :
    List Uuid → World → World → Prop where
  | nil {w : World} : CancelsEach applicationId correlationId now [] w w
  | cons {n : Uuid} {ns : List Uuid} {choices : List Choice} {result : CancelResult}
      {w w₁ w₂ : World} : (∀ t ∈ clocks choices, t = now) →
      (cancel applicationId n correlationId).runs exec choices w = some (result, w₁) →
      CancelsEach applicationId correlationId now ns w₁ w₂ →
      CancelsEach applicationId correlationId now (n :: ns) w w₂

section Effects

variable {applicationId : Uuid} {correlationId : Option String} {now : Date} {w w₁ w' : World}
  {f : NotificationRecord → NotificationRecord} {n : Uuid} {ns : List Uuid}

/-- The timeline entry of a cancelled row. -/
def cancelledEvent (applicationId : Uuid) (correlationId : Option String) (n : Uuid)
    (fromStatus : Option NotificationStatus) : NotificationEventInput where
  applicationId := applicationId
  notificationId := n
  eventType := "notification.cancelled"
  fromStatus := fromStatus
  toStatus := some .CANCELLED
  attemptNumber := none
  payload := {}
  correlationId := correlationId

/-- The rows of some notifications were changed, with one entry for each. -/
structure Cancelled (applicationId : Uuid) (correlationId : Option String)
    (f : NotificationRecord → NotificationRecord) (ns : List Uuid) (w w' : World) : Prop where
  rows : w'.notifications.rows = w.notifications.rows.map fun r => if r.id ∈ ns then f r else r
  events : w'.notificationEvents.map (·.content) = w.notificationEvents.map (·.content) ++
    ns.map fun n =>
      (cancelledEvent applicationId correlationId n ((w.row n).map (·.status)), w.now)
  rest : Within [.notifications, .notificationEvents, .identifiers] w w'

theorem Cancelled.row (h : Cancelled applicationId correlationId f ns w w')
    (hf : ∀ r, (f r).id = r.id) (m : Uuid) :
    w'.row m = (w.row m).map fun r => if r.id ∈ ns then f r else r := by
  refine Table.find?_of_map h.rows (fun r => ?_) m
  split
  · exact hf r
  · rfl

theorem Cancelled.row_other (h : Cancelled applicationId correlationId f ns w w')
    (hf : ∀ r, (f r).id = r.id) {m : Uuid} (hm : m ∉ ns) : w'.row m = w.row m := by
  rw [h.row hf]
  cases hr : w.row m with
  | none => rfl
  | some r =>
    obtain rfl : r.id = m := Table.key_of_find? hr
    simp [hm]

theorem Cancelled.nil : Cancelled applicationId correlationId f [] w w where
  rows := by simp
  events := by simp
  rest := .refl w

theorem Cancelled.cons (hf : ∀ r, (f r).id = r.id)
    (h : Cancelled applicationId correlationId f [n] w w₁)
    (h' : Cancelled applicationId correlationId f ns w₁ w') (hn : n ∉ ns) :
    Cancelled applicationId correlationId f (n :: ns) w w' where
  rows := by
    rw [h'.rows, h.rows, List.map_map]
    refine List.map_congr_left fun r _ => ?_
    simp only [Function.comp, List.mem_cons]
    by_cases hr : r.id = n
    · simp [hr, hf, hn]
    · simp [hr]
  events := by
    rw [h'.events, h.events, List.append_assoc, List.map_singleton, List.map_cons,
      List.singleton_append, h.rest.clock (by decide)]
    refine congrArg _ (congrArg _ (List.map_congr_left fun m hm => ?_))
    have hne : m ∉ [n] := fun h => hn (List.mem_singleton.1 h ▸ hm)
    rw [h.row_other hf hne]
  rest := h.rest.trans h'.rest

theorem content_appendEvent {input : NotificationEventInput} {u : Unit}
    (h : NotificationRepository.appendEvent input w = some (u, w')) :
    w'.notificationEvents.map (·.content) = w.notificationEvents.map (·.content) ++
      [(input, w.now)] := by
  cases h
  rw [List.map_append]
  rfl

/-- What a cancellation on its own does to a row that waits. -/
theorem cancelTransition_waiting {input : CancelInput} {r : NotificationRecord}
    {x : Option NotificationRecord} (h : cancelTransition input w = some (x, w'))
    (hrow : w.row input.notificationId = some r) (happlication : r.applicationId = input.applicationId)
    (hstatus : r.status = input.expectedStatus) :
    Cancelled input.applicationId input.correlationId (·.cancelAlone input.now)
      [input.notificationId] w w' := by
  have hexec : exec w (.cancelTransition input) .nothing = some (x, w') :=
    Choice.quietly_eq_some.2 ⟨rfl, h⟩
  have hid : r.id = input.notificationId := Table.key_of_find? hrow
  have hmem : r ∈ w.notifications.rows := Table.mem_of_find? hrow
  have hunique : ∀ r' ∈ w.notifications.rows, r'.id = input.notificationId → r' = r :=
    fun r' hr' hid' => List.inj_on_of_nodup_map w.notifications.nodup hr' hmem (hid'.trans hid.symm)
  obtain ⟨y, w₁, h₁, h⟩ := Sql.bind_eq_some.1 h
  replace h₁ := (sending_eq_some.1 h₁).2
  obtain ⟨hrows, -, hnone⟩ := updateOne_table h₁
  have hwithin : Within [.notifications] w w₁ := within_updateOne (by decide) _ _ _ h₁
  cases y with
  | none =>
    have hno := hnone rfl r hmem hid
    simp [CancelInput.transition, happlication, hstatus] at hno
  | some new =>
    obtain ⟨_, w₂, h₂, h⟩ := Sql.bind_eq_some.1 h
    obtain ⟨-, rfl⟩ := Sql.pure_eq_some.1 h
    refine ⟨?_, ?_, within_exec hexec⟩
    · rw [(appendEvent_aside h₂).1, hrows]
      refine List.map_congr_left fun r' hr' => ?_
      by_cases hr : r'.id = input.notificationId
      · obtain rfl := hunique r' hr' hr
        simp only [CancelInput.transition, happlication, hstatus, hr, List.mem_singleton]
        rfl
      · simp [CancelInput.transition, hr]
    · rw [content_appendEvent h₂, hwithin.clock (by decide), hwithin.notificationEvents (by decide),
        List.map_singleton, hrow, Option.map_some, hstatus]
      rfl

/-- The database accepts a cancellation of a row if it accepts the other, whatever other rows were
cancelled in between. -/
theorem acceptsWrite_cancelAlone {r : NotificationRecord}
    (hrows : ∃ g : NotificationRecord → NotificationRecord,
      w'.notifications.rows = w.notifications.rows.map g ∧ ∀ r, (g r).id = r.id ∧
        (g r).whatsAppSessionId = r.whatsAppSessionId ∧
        (g r).providerMessageId = r.providerMessageId)
    (h : acceptsWrite w r (r.cancel now) = true) :
    acceptsWrite w' r (r.cancelAlone now) = true := by
  obtain ⟨g, hrows, hg⟩ := hrows
  simp only [acceptsWrite, decide_eq_true_eq] at h ⊢
  refine ⟨h.1, ?_, ?_⟩
  · have hchecks := h.2.1
    simp only [NotificationRecord.satisfiesChecks, NotificationRecord.cancel,
      NotificationRecord.cancelAlone] at hchecks ⊢
    simpa using hchecks
  · have hfree := h.2.2
    simp only [providerMessageIdIsFree, NotificationRecord.cancel, NotificationRecord.cancelAlone,
      hrows, List.forall_mem_map, hg] at hfree ⊢
    exact hfree

/-- An update of a row that the database accepts takes place. -/
theorem updateOne_total {p : NotificationRecord → Bool}
    {f : NotificationRecord → NotificationRecord} (hf : ∀ r, key (f r) = key r)
    {r : NotificationRecord} (hrow : w.row n = some r) (hp : p r = true)
    (haccepts : acceptsWrite w r (f r) = true) :
    ∃ w₁, NotificationRepository.updateOne n p f hf w = some (some (f r), w₁) := by
  have hfind : w.notifications.find? n = some r := hrow
  unfold NotificationRepository.updateOne
  simp only [hfind]
  exact ⟨_, (if_pos hp).trans (if_pos haccepts)⟩

/-- A call that finds a row waiting is its conditional update. -/
theorem cancel_runs {choices : List Choice} {r : NotificationRecord} (hrow : w.row n = some r)
    (happlication : r.applicationId = applicationId)
    (hstatus : r.status = .QUEUED ∨ r.status = .RETRYING) :
    (∃ result, (cancel applicationId n correlationId).runs exec choices w = some (result, w')) ↔
      ∃ t x, choices = [.nothing, .date t, .nothing] ∧
        cancelTransition ⟨applicationId, n, r.status, correlationId, t⟩ w = some (x, w') := by
  have hcancellable : isCancellableNotificationStatus r.status = true :=
    isCancellable_iff.2 (.inr hstatus)
  have hfind : exec w (.findNotificationById applicationId n) .nothing = some (some r, w) := by
    refine Choice.quietly_eq_some.2 ⟨rfl, ?_⟩
    have hfound : (w.row n).filter (·.applicationId = applicationId) = some r := by
      simp [hrow, happlication]
    exact congrArg (fun x => some (x, w)) hfound
  constructor
  · rintro ⟨result, h⟩
    obtain ⟨c, cs, existing, w₁, rfl, hstep, hafter⟩ := Prog.runs_perform.1 h
    obtain ⟨rfl, -⟩ := Choice.quietly_eq_some.1 hstep
    cases hfind.symm.trans hstep
    simp only [Prog.bind, hcancellable, ↓reduceIte] at hafter
    obtain ⟨c, cs, t, w₁, rfl, hstep, hafter⟩ := Prog.runs_perform.1 hafter
    obtain ⟨_, hdate, hstep⟩ := given_eq_some.1 hstep
    cases hstep
    obtain ⟨c', cs, x, w₂, rfl, hstep, hafter⟩ := Prog.runs_perform.1 hafter
    obtain ⟨rfl, htransition⟩ := Choice.quietly_eq_some.1 hstep
    cases c <;> cases hdate
    cases x with
    | none =>
      obtain ⟨rfl, hdone⟩ := Prog.runs_done.1 hafter
      cases hdone
      exact ⟨_, none, rfl, htransition⟩
    | some row =>
      obtain ⟨rfl, hdone⟩ := Prog.runs_done.1 hafter
      cases hdone
      exact ⟨_, some row, rfl, htransition⟩
  · rintro ⟨t, x, rfl, htransition⟩
    have hstep : exec w (.cancelTransition ⟨applicationId, n, r.status, correlationId, t⟩) .nothing =
        some (x, w') := Choice.quietly_eq_some.2 ⟨rfl, htransition⟩
    refine ⟨match x with
      | none => .notification_not_cancellable
          "The notification changed state before it could be cancelled."
      | some row => .cancelled row, ?_⟩
    refine Prog.runs_perform.2 ⟨_, _, some r, w, rfl, hfind, ?_⟩
    simp only [Prog.bind, hcancellable, ↓reduceIte]
    refine Prog.runs_perform.2 ⟨_, _, t, w, rfl, rfl, ?_⟩
    refine Prog.runs_perform.2 ⟨_, _, x, w', rfl, hstep, ?_⟩
    cases x <;> rfl

theorem cancel_waiting {choices : List Choice} {result : CancelResult} {r : NotificationRecord}
    (h : (cancel applicationId n correlationId).runs exec choices w = some (result, w'))
    (hclock : ∀ t ∈ clocks choices, t = now) (hrow : w.row n = some r)
    (happlication : r.applicationId = applicationId)
    (hstatus : r.status = .QUEUED ∨ r.status = .RETRYING) :
    Cancelled applicationId correlationId (·.cancelAlone now) [n] w w' := by
  obtain ⟨t, x, rfl, htransition⟩ := (cancel_runs hrow happlication hstatus).1 ⟨result, h⟩
  obtain rfl : t = now := hclock t (by simp [clocks, Choice.date?])
  exact cancelTransition_waiting htransition hrow happlication rfl

/-- And it takes place if the database takes the time and accepts the row. -/
theorem cancel_total {r : NotificationRecord} (hnow : isStorableInstant now = true)
    (hrow : w.row n = some r) (happlication : r.applicationId = applicationId)
    (hstatus : r.status = .QUEUED ∨ r.status = .RETRYING)
    (haccepts : acceptsWrite w r (r.cancelAlone now) = true) :
    ∃ choices result w', (∀ t ∈ clocks choices, t = now) ∧
      (cancel applicationId n correlationId).runs exec choices w = some (result, w') := by
  have hupdate : ∃ new w₁, NotificationRepository.applyTransition
      (CancelInput.transition ⟨applicationId, n, r.status, correlationId, now⟩) w =
        some (some new, w₁) := by
    have htotal : ∃ w₁, NotificationRepository.applyTransition
        (CancelInput.transition ⟨applicationId, n, r.status, correlationId, now⟩) w =
          some (some (r.cancelAlone now), w₁) := by
      obtain ⟨w₁, h⟩ := updateOne_total (f := (CancelInput.transition
        ⟨applicationId, n, r.status, correlationId, now⟩).apply) (fun _ => rfl) hrow
        (p := fun r' => r'.applicationId = applicationId ∧ r'.status = r.status)
        (by simp [happlication]) haccepts
      refine ⟨w₁, sending_eq_some.2 ⟨?_, h⟩⟩
      simp [Parameters.areStorable, CancelInput.transition,
        NotificationRepository.TransitionInput.sends,
        NotificationRepository.NotificationTransitionChanges.instants,
        NotificationRepository.NotificationTransitionChanges.texts, hnow]
    obtain ⟨w₁, h⟩ := htotal
    exact ⟨_, w₁, h⟩
  obtain ⟨new, w₁, hupdate⟩ := hupdate
  have htransition : ∃ x w', cancelTransition ⟨applicationId, n, r.status, correlationId, now⟩ w =
      some (x, w') :=
    ⟨_, _, Sql.bind_eq_some.2 ⟨some new, w₁, hupdate,
      Sql.bind_eq_some.2 ⟨(), _, rfl, Sql.pure_eq_some.2 ⟨rfl, rfl⟩⟩⟩⟩
  obtain ⟨x, w', htransition⟩ := htransition
  obtain ⟨result, hrun⟩ := (cancel_runs hrow happlication hstatus).2 ⟨now, x, rfl, htransition⟩
  exact ⟨_, result, w', by simp [clocks, Choice.date?], hrun⟩

/-! ## Several cancellations -/

theorem cancelsEach_waiting (hnodup : ns.Nodup)
    (hwaiting : ∀ n ∈ ns, ∃ r, w.row n = some r ∧ r.applicationId = applicationId ∧
      (r.status = .QUEUED ∨ r.status = .RETRYING))
    (h : CancelsEach applicationId correlationId now ns w w') :
    Cancelled applicationId correlationId (·.cancelAlone now) ns w w' := by
  induction h with
  | nil => exact .nil
  | @cons n ns choices result w w₁ w₂ hclock hrun _ ih =>
    obtain ⟨hn, hnodup⟩ := List.nodup_cons.1 hnodup
    obtain ⟨r, hrow, happlication, hstatus⟩ := hwaiting n List.mem_cons_self
    have hfirst := cancel_waiting hrun hclock hrow happlication hstatus
    refine .cons (fun _ => rfl) hfirst (ih hnodup fun m hm => ?_) hn
    have hne : m ∉ [n] := fun h => hn (List.mem_singleton.1 h ▸ hm)
    rw [hfirst.row_other (fun _ => rfl) hne]
    exact hwaiting m (List.mem_cons_of_mem _ hm)

/-- They all take place if the database takes the time and accepts each of the rows. -/
theorem cancelsEach_total (hnow : isStorableInstant now = true) (hnodup : ns.Nodup)
    (hwaiting : ∀ n ∈ ns, ∃ r, w.row n = some r ∧ r.applicationId = applicationId ∧
      (r.status = .QUEUED ∨ r.status = .RETRYING) ∧ acceptsWrite w r (r.cancel now) = true) :
    ∃ w', CancelsEach applicationId correlationId now ns w w' := by
  -- the rows that are still to be cancelled are those of the world the whole run starts from
  have hfrom : ∀ (v : World) (g : NotificationRecord → NotificationRecord),
      v.notifications.rows = w.notifications.rows.map g →
      (∀ r, (g r).id = r.id ∧ (g r).whatsAppSessionId = r.whatsAppSessionId ∧
        (g r).providerMessageId = r.providerMessageId) →
      (∀ n ∈ ns, v.row n = w.row n) →
      ∃ w', CancelsEach applicationId correlationId now ns v w' := by
    induction ns with
    | nil => exact fun v _ _ _ _ => ⟨v, .nil⟩
    | cons n ns ih =>
      intro v g hrows hg hsame
      obtain ⟨hn, hnodup⟩ := List.nodup_cons.1 hnodup
      obtain ⟨r, hrow, happlication, hstatus, haccepts⟩ := hwaiting n List.mem_cons_self
      have hrow' : v.row n = some r := (hsame n List.mem_cons_self).trans hrow
      obtain ⟨choices, result, v₁, hclock, hrun⟩ : ∃ choices result v₁,
          (∀ t ∈ clocks choices, t = now) ∧
          (cancel applicationId n correlationId).runs exec choices v = some (result, v₁) :=
        cancel_total hnow hrow' happlication hstatus
          (acceptsWrite_cancelAlone ⟨g, hrows, hg⟩ haccepts)
      have hfirst := cancel_waiting hrun hclock hrow' happlication hstatus
      have hrows₁ : v₁.notifications.rows = w.notifications.rows.map fun r' =>
          if (g r').id ∈ [n] then (g r').cancelAlone now else g r' :=
        hfirst.rows.trans ((congrArg _ hrows).trans (List.map_map ..))
      have hkeeps : ∀ r', let r'' := if (g r').id ∈ [n] then (g r').cancelAlone now else g r'
          r''.id = r'.id ∧ r''.whatsAppSessionId = r'.whatsAppSessionId ∧
            r''.providerMessageId = r'.providerMessageId := by
        intro r'
        dsimp only
        split
        · exact hg r'
        · exact hg r'
      have hrest : ∀ m ∈ ns, v₁.row m = w.row m := by
        intro m hm
        have hne : m ∉ [n] := fun h => hn (List.mem_singleton.1 h ▸ hm)
        rw [hfirst.row_other (fun _ => rfl) hne]
        exact hsame m (List.mem_cons_of_mem _ hm)
      obtain ⟨w', heach⟩ := ih hnodup (fun m hm => hwaiting m (List.mem_cons_of_mem _ hm)) v₁ _
        hrows₁ hkeeps hrest
      exact ⟨w', .cons hclock hrun heach⟩
  exact hfrom w id (List.map_id _).symm (fun _ => ⟨rfl, rfl, rfl⟩) fun _ _ => rfl

/-! ## The bulk cancellation -/

theorem content_appendEvents {inputs : List NotificationEventInput} {u : Unit}
    (h : NotificationRepository.appendEvents inputs w = some (u, w')) :
    w'.notificationEvents.map (·.content) = w.notificationEvents.map (·.content) ++
      inputs.map fun input => (input, w.now) := by
  induction inputs generalizing w with
  | nil =>
    cases h
    simp
  | cons input inputs ih =>
    obtain ⟨_, w₁, h₁, h⟩ := Sql.bind_eq_some.1 h
    have hclock : w₁.now = w.now := by
      cases h₁
      rfl
    rw [ih h, content_appendEvent h₁, hclock, List.append_assoc, List.map_cons,
      List.singleton_append]

theorem mem_waiting {whatsAppSessionId : Option Uuid} {r : NotificationRecord}
    (h : r ∈ w.waiting applicationId whatsAppSessionId) :
    w.row r.id = some r ∧ r.applicationId = applicationId ∧
      (r.status = .QUEUED ∨ r.status = .RETRYING) := by
  obtain ⟨hr, hp⟩ := Table.mem_select.1 h
  simp only [Bool.decide_and, Bool.and_eq_true, decide_eq_true_eq, Bool.decide_or,
    Bool.or_eq_true] at hp
  exact ⟨Table.find?_key hr, hp.1, hp.2.1⟩

theorem waiting_nodup (whatsAppSessionId : Option Uuid) :
    ((w.waiting applicationId whatsAppSessionId).map (·.id)).Nodup :=
  w.notifications.nodup.sublist (List.filter_sublist.map _)

theorem cancelWaitingTransition_unlocked {input : CancelWaitingInput}
    {cancelled : List (Uuid × NotificationStatus)}
    (h : cancelWaitingTransition input [] w = some (cancelled, w')) :
    Cancelled input.applicationId input.correlationId (·.cancel input.now)
        ((w.waiting input.applicationId input.whatsAppSessionId).map (·.id)) w w' ∧
      isStorableInstant input.now = true ∧
      ∀ r ∈ w.waiting input.applicationId input.whatsAppSessionId,
        acceptsWrite w r (r.cancel input.now) = true := by
  obtain ⟨cancelled', w₁, h₁, h⟩ := Sql.bind_eq_some.1 h
  obtain ⟨_, w₂, h₂, h⟩ := Sql.bind_eq_some.1 h
  obtain ⟨rfl, rfl⟩ := Sql.pure_eq_some.1 h
  have hwithin := within_appendEvents (F := [.notificationEvents, .identifiers]) (by decide)
    (by decide) _ _ _ h₂
  have hcontent := content_appendEvents h₂
  unfold NotificationRepository.cancelWaiting at h₁
  obtain ⟨hsent, h₁⟩ := sending_eq_some.1 h₁
  have hnow : isStorableInstant input.now = true := by simpa [Parameters.areStorable] using hsent
  simp only [List.not_mem_nil, not_false_eq_true, and_true] at h₁
  split at h₁
  · rename_i hall
    cases h₁
    refine ⟨⟨?_, ?_, ?_⟩, hnow, ?_⟩
    · rw [hwithin.notifications (by decide)]
      refine List.map_congr_left fun r hr => ?_
      by_cases hwaiting : r ∈ w.waiting input.applicationId input.whatsAppSessionId
      · rw [if_pos (List.mem_map_of_mem hwaiting), if_pos (Table.mem_select.1 hwaiting).2]
        rfl
      · rw [if_neg fun hp => hwaiting (Table.mem_select.2 ⟨hr, hp⟩), if_neg]
        intro hmem
        obtain ⟨r', hr', hid⟩ := List.mem_map.1 hmem
        have hsame : r' = r :=
          List.inj_on_of_nodup_map w.notifications.nodup (Table.mem_select.1 hr').1 hr hid
        exact hwaiting (hsame ▸ hr')
    · rw [hcontent, List.map_map, List.map_map, List.map_map]
      refine congrArg _ (List.map_congr_left fun r hr => ?_)
      obtain ⟨hrow, -, -⟩ := mem_waiting hr
      simp only [Function.comp, hrow]
      rfl
    · refine Within.trans ?_ (hwithin.mono (by decide))
      exact ⟨absurd (by decide), fun _ => rfl, fun _ => rfl, fun _ => rfl, fun _ => rfl,
        fun _ => rfl, fun _ => rfl, fun _ => rfl, fun _ => rfl⟩
    · exact List.all_eq_true.1 hall
  · cases h₁

/-- A call that locks out nobody is its statement. -/
theorem cancelWaiting_unlocked {whatsAppSessionId : Option Uuid} {choices : List Choice}
    {ids : List Uuid} (h : (NotificationQueryService.cancelWaiting applicationId whatsAppSessionId
      correlationId).runs exec choices w = some (.cancelled ids, w'))
    (hclock : ∀ t ∈ clocks choices, t = now)
    (hlocked : ∀ locked, Choice.locked locked ∈ choices → locked = []) :
    ∃ cancelled, cancelWaitingTransition ⟨applicationId, whatsAppSessionId, correlationId, now⟩ [] w =
      some (cancelled, w') := by
  obtain ⟨cs₁, cs₂, isKnown, w₁, rfl, hscope, hafter⟩ := Prog.runs_bind.1 h
  have hworld : w₁ = w := by
    cases whatsAppSessionId with
    | none =>
      obtain ⟨-, hdone⟩ := Prog.runs_done.1 hscope
      cases hdone
      rfl
    | some sessionId =>
      obtain ⟨c, cs, session, w₂, rfl, hstep, hrest⟩ := Prog.runs_perform.1 hscope
      obtain ⟨rfl, hfind⟩ := Choice.quietly_eq_some.1 hstep
      cases hfind
      obtain ⟨-, hdone⟩ := Prog.runs_done.1 hrest
      cases hdone
      rfl
  subst hworld
  cases isKnown with
  | false =>
    obtain ⟨-, hdone⟩ := Prog.runs_done.1 hafter
    cases hdone
  | true =>
    obtain ⟨c, cs, t, w₁, rfl, hstep, hrest⟩ := Prog.runs_perform.1 hafter
    obtain ⟨_, hdate, hstep⟩ := given_eq_some.1 hstep
    cases hstep
    obtain ⟨c', cs, cancelled, w₂, rfl, hstep, hrest⟩ := Prog.runs_perform.1 hrest
    obtain ⟨locked, hlock, htransition⟩ := given_eq_some.1 hstep
    obtain ⟨-, hdone⟩ := Prog.runs_done.1 hrest
    cases hdone
    cases c <;> cases hdate
    cases c' <;> cases hlock
    obtain rfl : t = now := hclock t (by simp [clocks, Choice.date?])
    obtain rfl := hlocked locked (by simp)
    exact ⟨cancelled, htransition⟩

/-- **A bulk cancellation, with no row locked, leaves what cancelling each of its notifications on its
own leaves, in whatever order, exactly if none of them has a time of the next attempt.** -/
theorem bulk_cancel_iff {whatsAppSessionId : Option Uuid} {choices : List Choice} {ids : List Uuid}
    (h : (NotificationQueryService.cancelWaiting applicationId whatsAppSessionId
      correlationId).runs exec choices w = some (.cancelled ids, w₁))
    (hclock : ∀ t ∈ clocks choices, t = now)
    (hlocked : ∀ locked, Choice.locked locked ∈ choices → locked = [])
    (hns : ns.Perm ((w.waiting applicationId whatsAppSessionId).map (·.id))) :
    (∃ w₂, CancelsEach applicationId correlationId now ns w w₂) ∧
      ∀ w₂, CancelsEach applicationId correlationId now ns w w₂ →
        (SameDatabase w₂ w₁ ↔
          ∀ r ∈ w.waiting applicationId whatsAppSessionId, r.nextAttemptAt = none) := by
  obtain ⟨cancelled, htransition⟩ := cancelWaiting_unlocked h hclock hlocked
  obtain ⟨hbulk, hnow, haccepts⟩ := cancelWaitingTransition_unlocked htransition
  have hnodup : ns.Nodup := hns.nodup_iff.2 (waiting_nodup whatsAppSessionId)
  have hwaiting : ∀ n ∈ ns, ∃ r ∈ w.waiting applicationId whatsAppSessionId, r.id = n :=
    fun n hn => List.mem_map.1 (hns.mem_iff.1 hn)
  refine ⟨cancelsEach_total hnow hnodup fun n hn => ?_, fun w₂ heach => ?_⟩
  · obtain ⟨r, hr, rfl⟩ := hwaiting n hn
    obtain ⟨hrow, happlication, hstatus⟩ := mem_waiting hr
    exact ⟨r, hrow, happlication, hstatus, haccepts r hr⟩
  · have halone := cancelsEach_waiting hnodup (fun n hn => by
      obtain ⟨r, hr, rfl⟩ := hwaiting n hn
      obtain ⟨hrow, happlication, hstatus⟩ := mem_waiting hr
      exact ⟨r, hrow, happlication, hstatus⟩) heach
    constructor
    · intro hsame r hr
      obtain ⟨hmem, -⟩ := Table.mem_select.1 hr
      have hrows := hsame.notifications
      rw [hbulk.rows, halone.rows, List.map_inj_left] at hrows
      have hid := List.mem_map_of_mem (f := (·.id)) hr
      have hrow := hrows r hmem
      rw [if_pos hid, if_pos (hns.mem_iff.2 hid)] at hrow
      exact (congrArg (·.nextAttemptAt) hrow).symm
    · intro hnone
      refine ⟨?_, ?_, ?_, ?_, ?_, ?_, ?_⟩
      · rw [hbulk.rows, halone.rows]
        refine List.map_congr_left fun r hr => ?_
        by_cases hid : r.id ∈ ns
        · obtain ⟨r', hr', hid'⟩ := hwaiting _ hid
          obtain rfl : r' = r :=
            List.inj_on_of_nodup_map w.notifications.nodup (Table.mem_select.1 hr').1 hr hid'
          rw [if_pos hid, if_pos (hns.mem_iff.1 hid)]
          simp only [NotificationRecord.cancel, NotificationRecord.cancelAlone, hnone r' hr']
        · rw [if_neg hid, if_neg (mt hns.mem_iff.2 hid)]
      · rw [hbulk.events, halone.events]
        exact (hns.symm.map _).append_left _
      · rw [hbulk.rest.sendAttempts (by decide), halone.rest.sendAttempts (by decide)]
      · rw [hbulk.rest.whatsAppSessions (by decide), halone.rest.whatsAppSessions (by decide)]
      · rw [hbulk.rest.applications (by decide), halone.rest.applications (by decide)]
      · rw [hbulk.rest.webhookDeliveries (by decide), halone.rest.webhookDeliveries (by decide)]
      · rw [hbulk.rest.dispatchJobs (by decide), halone.rest.dispatchJobs (by decide)]

end Effects

theorem bulk_cancel_queued : ∃ w₁ w₂,
    (NotificationQueryService.cancelWaiting 1 none none).runs exec [.date 0, .locked []]
      (Sample.backlog 2) = some (.cancelled [0, 1], w₁) ∧
    CancelsEach 1 none 0 [1, 0] (Sample.backlog 2) w₂ ∧ SameDatabase w₂ w₁ := by
  obtain ⟨w₁, h⟩ : ∃ w₁, (NotificationQueryService.cancelWaiting 1 none none).runs exec
      [.date 0, .locked []] (Sample.backlog 2) = some (.cancelled [0, 1], w₁) := ⟨_, rfl⟩
  have hclock : ∀ t ∈ clocks [.date 0, .locked []], t = 0 := by decide
  have hlocked : ∀ locked, Choice.locked locked ∈ [Choice.date 0, .locked []] → locked = [] := by
    intro locked hmem
    simpa using hmem
  have hns : [1, 0].Perm (((Sample.backlog 2).waiting 1 none).map (·.id)) := List.Perm.swap 0 1 []
  obtain ⟨⟨w₂, heach⟩, hsame⟩ := bulk_cancel_iff h hclock hlocked hns
  exact ⟨w₁, w₂, h, heach, (hsame w₂ heach).2 (by decide)⟩

/-- A notification waits to be tried again. -/
def Sample.retrying : World := { Sample.world .RETRY with
  notifications := ⟨[{ Sample.draft.row 0 with status := .RETRYING, nextAttemptAt := some 60000 }],
    List.nodup_singleton _⟩ }

/-- Cancelled on its own it keeps the time of its next attempt, cancelled in bulk it does not. -/
theorem bulk_cancel_differs : ∃ w₁ w₂,
    (NotificationQueryService.cancelWaiting 1 none none).runs exec [.date 0, .locked []]
      Sample.retrying = some (.cancelled [7], w₁) ∧
    CancelsEach 1 none 0 [7] Sample.retrying w₂ ∧ ¬ SameDatabase w₂ w₁ := by
  have hclock : ∀ t ∈ clocks [.nothing, .date 0, .nothing], t = 0 := by decide
  refine ⟨_, _, rfl, .cons hclock rfl .nil, ?_⟩
  intro h
  have hrows := congrArg (List.map (·.nextAttemptAt)) h.notifications
  exact absurd hrows (by decide)

end NotificationPlatform
