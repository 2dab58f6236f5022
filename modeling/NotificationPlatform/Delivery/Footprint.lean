import NotificationPlatform.Delivery.Effect

/-!
# The footprint of an operation

Which parts of the shared world an operation may change. `Within F` says that every part outside `F`
is as it was; `within_exec` gives it for the `footprint` of each operation.
-/

namespace NotificationPlatform

/-- The parts of the world. -/
inductive Part where
  | notifications
  | notificationEvents
  | sendAttempts
  | whatsAppSessions
  | applications
  | webhookDeliveries
  | dispatchJobs
  | clock
  | identifiers
deriving DecidableEq

/-- Every part of the world outside `F` is as it was. -/
structure Within (F : List Part) (w w' : World) : Prop where
  notifications : .notifications ∉ F → w'.notifications = w.notifications
  notificationEvents : .notificationEvents ∉ F → w'.notificationEvents = w.notificationEvents
  sendAttempts : .sendAttempts ∉ F → w'.sendAttempts = w.sendAttempts
  whatsAppSessions : .whatsAppSessions ∉ F → w'.whatsAppSessions = w.whatsAppSessions
  applications : .applications ∉ F → w'.applications = w.applications
  webhookDeliveries : .webhookDeliveries ∉ F → w'.webhookDeliveries = w.webhookDeliveries
  dispatchJobs : .dispatchJobs ∉ F → w'.dispatchJobs = w.dispatchJobs
  clock : .clock ∉ F → w'.now = w.now
  identifiers : .identifiers ∉ F → w'.identifiers = w.identifiers

namespace Within

variable {F G : List Part} {w w₁ w' : World}

theorem refl (w : World) : Within F w w :=
  ⟨fun _ => rfl, fun _ => rfl, fun _ => rfl, fun _ => rfl, fun _ => rfl, fun _ => rfl,
    fun _ => rfl, fun _ => rfl, fun _ => rfl⟩

theorem trans (h : Within F w w₁) (h' : Within F w₁ w') : Within F w w' where
  notifications hn := (h'.notifications hn).trans (h.notifications hn)
  notificationEvents hn := (h'.notificationEvents hn).trans (h.notificationEvents hn)
  sendAttempts hn := (h'.sendAttempts hn).trans (h.sendAttempts hn)
  whatsAppSessions hn := (h'.whatsAppSessions hn).trans (h.whatsAppSessions hn)
  applications hn := (h'.applications hn).trans (h.applications hn)
  webhookDeliveries hn := (h'.webhookDeliveries hn).trans (h.webhookDeliveries hn)
  dispatchJobs hn := (h'.dispatchJobs hn).trans (h.dispatchJobs hn)
  clock hn := (h'.clock hn).trans (h.clock hn)
  identifiers hn := (h'.identifiers hn).trans (h.identifiers hn)

theorem mono (h : Within F w w') (hFG : F ⊆ G) : Within G w w' where
  notifications hn := h.notifications fun hf => hn (hFG hf)
  notificationEvents hn := h.notificationEvents fun hf => hn (hFG hf)
  sendAttempts hn := h.sendAttempts fun hf => hn (hFG hf)
  whatsAppSessions hn := h.whatsAppSessions fun hf => hn (hFG hf)
  applications hn := h.applications fun hf => hn (hFG hf)
  webhookDeliveries hn := h.webhookDeliveries fun hf => hn (hFG hf)
  dispatchJobs hn := h.dispatchJobs fun hf => hn (hFG hf)
  clock hn := h.clock fun hf => hn (hFG hf)
  identifiers hn := h.identifiers fun hf => hn (hFG hf)

instance : IsPreorder World (Within F) where
  refl := .refl
  trans _ _ _ := .trans

end Within

/-! ## Statements -/

section Statements

open Relational

variable {F : List Part}

theorem within_updateOne {id : Uuid} {p : NotificationRecord → Bool}
    {f : NotificationRecord → NotificationRecord} {hf : ∀ r, key (f r) = key r}
    (hF : .notifications ∈ F) : Does (Within F) (NotificationRepository.updateOne id p f hf) := by
  intro w a w' h
  cases a with
  | none =>
    obtain rfl := (updateOne_none h).1
    exact .refl _
  | some new =>
    obtain ⟨_, _, _, hw⟩ := updateOne_some h
    rw [hw.rest]
    exact ⟨absurd hF, fun _ => rfl, fun _ => rfl, fun _ => rfl, fun _ => rfl, fun _ => rfl,
      fun _ => rfl, fun _ => rfl, fun _ => rfl⟩

theorem within_appendEvent {input : NotificationEventInput} (he : .notificationEvents ∈ F)
    (hi : .identifiers ∈ F) : Does (Within F) (NotificationRepository.appendEvent input) := by
  intro w a w' h
  cases h
  exact ⟨fun _ => rfl, absurd he, fun _ => rfl, fun _ => rfl, fun _ => rfl, fun _ => rfl,
    fun _ => rfl, fun _ => rfl, absurd hi⟩

theorem within_appendEvents {inputs : List NotificationEventInput} (he : .notificationEvents ∈ F)
    (hi : .identifiers ∈ F) : Does (Within F) (NotificationRepository.appendEvents inputs) := by
  induction inputs with
  | nil => exact .pure _
  | cons input inputs ih => exact .bind (within_appendEvent he hi) fun _ => ih

theorem within_enqueueDispatch {job : DispatchJob} (hF : .dispatchJobs ∈ F) :
    Does (Within F) (enqueueDispatch job) := by
  intro w a w' h
  unfold enqueueDispatch at h
  split at h
  · cases h
    exact .refl _
  · cases h
    exact ⟨fun _ => rfl, fun _ => rfl, fun _ => rfl, fun _ => rfl, fun _ => rfl, fun _ => rfl,
      absurd hF, fun _ => rfl, fun _ => rfl⟩

theorem within_enqueue {step : TransitionStep} {n : NotificationRecord}
    (hF : .dispatchJobs ∈ F) : Does (Within F) (step.enqueue n) := by
  unfold TransitionStep.enqueue
  split
  · exact .pure _
  · exact .bind (within_enqueueDispatch hF) fun _ => .pure _

theorem within_begin {input : NotificationSendAttemptRepository.BeginSendAttemptInput}
    (ha : .sendAttempts ∈ F) (hi : .identifiers ∈ F) :
    Does (Within F) (NotificationSendAttemptRepository.begin input) := by
  intro w a w' h
  rw [begin_eq_some h]
  exact ⟨fun _ => rfl, fun _ => rfl, absurd ha, fun _ => rfl, fun _ => rfl, fun _ => rfl,
    fun _ => rfl, fun _ => rfl, absurd hi⟩

theorem within_resolve {input : ResolveSendAttemptInput} (hF : .sendAttempts ∈ F) :
    Does (Within F) (NotificationSendAttemptRepository.resolve input) := by
  intro w a w' h
  cases h
  exact ⟨fun _ => rfl, fun _ => rfl, absurd hF, fun _ => rfl, fun _ => rfl, fun _ => rfl,
    fun _ => rfl, fun _ => rfl, fun _ => rfl⟩

theorem within_session {id : Uuid} {p : WhatsAppSessionRecord → Bool}
    {f : WhatsAppSessionRecord → WhatsAppSessionRecord} {hf : ∀ r, key (f r) = key r}
    (hF : .whatsAppSessions ∈ F) :
    Does (Within F) (WhatsAppSessionRepository.updateOne id p f hf) := by
  intro w a w' h
  cases h
  exact ⟨fun _ => rfl, fun _ => rfl, fun _ => rfl, absurd hF, fun _ => rfl, fun _ => rfl,
    fun _ => rfl, fun _ => rfl, fun _ => rfl⟩

theorem within_delivery {id : Uuid} {p : WebhookDeliveryRecord → Bool}
    {f : WebhookDeliveryRecord → WebhookDeliveryRecord} {hf : ∀ r, key (f r) = key r}
    (hF : .webhookDeliveries ∈ F) :
    Does (Within F) (WebhookDeliveryRepository.updateOne id p f hf) := by
  intro w a w' h
  cases h
  exact ⟨fun _ => rfl, fun _ => rfl, fun _ => rfl, fun _ => rfl, fun _ => rfl, absurd hF,
    fun _ => rfl, fun _ => rfl, fun _ => rfl⟩

theorem within_generateIdentifier (hF : .identifiers ∈ F) : Does (Within F) generateIdentifier := by
  intro w a w' h
  cases h
  exact ⟨fun _ => rfl, fun _ => rfl, fun _ => rfl, fun _ => rfl, fun _ => rfl, fun _ => rfl,
    fun _ => rfl, fun _ => rfl, absurd hF⟩

/-- A conditional transition, and what commits with it. -/
theorem within_conditional {t : TransitionInput} {α : Type} {negative : α}
    {rest : NotificationRecord → Sql α} (hF : .notifications ∈ F)
    (hrest : ∀ new, Does (Within F) (rest new)) :
    Does (Within F) (NotificationRepository.applyTransition t >>= fun transitioned =>
      match transitioned with
      | none => pure negative
      | some new => rest new) := by
  refine .bind (.sending (within_updateOne hF)) fun transitioned => ?_
  cases transitioned with
  | none => exact .pure _
  | some new => exact hrest new

end Statements

theorem within_writeNotification (draft : NotificationDraft) :
    Does (Within [.notifications, .notificationEvents, .dispatchJobs, .identifiers])
      (writeNotification draft) := by
  refine .bind (.read _) fun w => .bind (fun w₁ a w' h => ?_) fun _ =>
    .bind (within_appendEvent (by decide) (by decide)) fun _ =>
      .bind (within_enqueueDispatch (by decide)) fun _ => .pure _
  unfold NotificationRepository.insert at h
  split at h
  · obtain ⟨t, -, h⟩ := Option.map_eq_some_iff.1 h
    cases h
    exact ⟨absurd (by decide), fun _ => rfl, fun _ => rfl, fun _ => rfl, fun _ => rfl,
      fun _ => rfl, fun _ => rfl, fun _ => rfl, fun _ => rfl⟩
  · cases h

/-! ## Operations -/

/-- The parts an operation may change. -/
def Op.footprint : Op → List Part
  | .randomUuid => [.identifiers]
  | .promoteScheduled _ _ _ | .claimForDispatch _ _ _ _ => [.notifications]
  | .appendEvent _ => [.notificationEvents, .identifiers]
  | .beginAttempt _ => [.notifications, .sendAttempts, .identifiers]
  | .recordSent _ => [.notifications, .sendAttempts, .notificationEvents, .identifiers]
  | .deferTransition _ => [.notifications, .dispatchJobs]
  | .transitionAndRecord _ _ | .releaseClaim _ _ =>
    [.notifications, .notificationEvents, .dispatchJobs, .identifiers]
  | .enqueueDispatch _ => [.dispatchJobs]
  | .cancelTransition _ | .cancelWaitingTransition _ | .acknowledgementTransition _ =>
    [.notifications, .notificationEvents, .identifiers]
  | .resolveAttempt _ => [.sendAttempts]
  | .recordStatus _ _ | .claimAccountLimitsRefresh _ _ _ | .invalidateAccountLimits _ =>
    [.whatsAppSessions]
  | .recordAccountLimits _ _ | .endSendingPause _ _ | .reserveSlot _ _ => [.whatsAppSessions]
  | .claimForProcessing _ | .markProcessed _ => [.webhookDeliveries]
  | _ => []

theorem within_meaning (c : Choice) (o : Op) : Does (Within o.footprint) (meaning c o) := by
  cases o
  case randomUuid => exact .quietly (within_generateIdentifier (by simp [Op.footprint]))
  case integerBetween =>
    refine .given fun draw => ?_
    split
    · exact .pure _
    · exact .raise
  case throwException => exact .raise
  case promoteScheduled => exact .quietly (.sending (within_updateOne (by simp [Op.footprint])))
  case appendEvent => exact .quietly (within_appendEvent (by simp [Op.footprint]) (by simp [Op.footprint]))
  case claimForDispatch => exact .quietly (.sending (within_updateOne (by simp [Op.footprint])))
  case beginAttempt =>
    refine .quietly (.bind (.bind (.sending (within_updateOne (by simp [Op.footprint])))
      fun _ => .pure _) fun attemptNumber => ?_)
    cases attemptNumber with
    | none => exact .pure _
    | some k => exact .bind (within_begin (by simp [Op.footprint]) (by simp [Op.footprint])) fun _ => .pure _
  case recordSent =>
    exact .quietly (within_conditional (by simp [Op.footprint]) fun _ => .bind (within_resolve (by simp [Op.footprint]))
      fun _ => .bind (within_appendEvent (by simp [Op.footprint]) (by simp [Op.footprint])) fun _ => .pure _)
  case deferTransition =>
    exact .quietly (within_conditional (by simp [Op.footprint]) fun _ =>
      .bind (within_enqueueDispatch (by simp [Op.footprint])) fun _ => .pure _)
  case transitionAndRecord =>
    exact .quietly (within_conditional (by simp [Op.footprint]) fun _ =>
      .bind (within_appendEvent (by simp [Op.footprint]) (by simp [Op.footprint])) fun _ =>
        .bind (within_enqueue (by simp [Op.footprint])) fun _ => .pure _)
  case enqueueDispatch => exact .quietly (within_enqueueDispatch (by simp [Op.footprint]))
  case releaseClaim =>
    exact .quietly (within_conditional (by simp [Op.footprint]) fun _ =>
      .bind (within_appendEvent (by simp [Op.footprint]) (by simp [Op.footprint])) fun _ =>
        .bind (within_enqueueDispatch (by simp [Op.footprint])) fun _ => .pure _)
  case cancelTransition =>
    exact .quietly (within_conditional (by simp [Op.footprint]) fun _ =>
      .bind (within_appendEvent (by simp [Op.footprint]) (by simp [Op.footprint])) fun _ => .pure _)
  case acknowledgementTransition =>
    exact .quietly (within_conditional (by simp [Op.footprint]) fun _ =>
      .bind (within_appendEvent (by simp [Op.footprint]) (by simp [Op.footprint])) fun _ => .pure _)
  case cancelWaitingTransition =>
    refine .given fun locked => .bind (fun w a w' h => ?_) fun _ =>
      .bind (within_appendEvents (by simp [Op.footprint]) (by simp [Op.footprint])) fun _ => .pure _
    unfold NotificationRepository.cancelWaiting at h
    dsimp only at h
    replace h := (sending_eq_some.1 h).2
    split at h <;> cases h
    exact ⟨absurd (by simp [Op.footprint]), fun _ => rfl, fun _ => rfl, fun _ => rfl, fun _ => rfl,
      fun _ => rfl, fun _ => rfl, fun _ => rfl, fun _ => rfl⟩
  case resolveAttempt => exact .quietly (within_resolve (by simp [Op.footprint]))
  case recordStatus =>
    exact .quietly (.bind (.sending (within_session (by simp [Op.footprint]))) fun _ => .pure _)
  case claimAccountLimitsRefresh =>
    exact .quietly (.bind (within_session (by simp [Op.footprint])) fun _ => .pure _)
  case invalidateAccountLimits =>
    exact .quietly (.bind (within_session (by simp [Op.footprint])) fun _ => .pure _)
  case recordAccountLimits =>
    refine .quietly (.bind ?_ fun _ =>
      .bind (.sending (within_session (by simp [Op.footprint]))) fun _ => .pure _)
    unfold WhatsAppSessionRepository.storeLimits
    split
    · exact .pure _
    · exact .raise
    · exact .pure _
  case endSendingPause => exact .quietly (.bind (within_session (by simp [Op.footprint])) fun _ => .pure _)
  case reserveSlot =>
    exact .given fun _ => .bind (.read _) fun _ => .bind (within_session (by simp [Op.footprint])) fun _ =>
      .pure _
  case claimForProcessing => exact .quietly (within_delivery (by simp [Op.footprint]))
  case markProcessed => exact .quietly (.bind (within_delivery (by simp [Op.footprint])) fun _ => .pure _)
  all_goals first
    | exact .given .pure
    | exact .quietly (.read _)

/-- **An operation changes its footprint at most.** -/
theorem within_exec {w w' : World} {o : Op} {c : Choice} {r : o.Ret}
    (h : exec w o c = some (r, w')) : Within o.footprint w w' := within_meaning c o _ _ _ h

/-- No operation moves the clock. -/
theorem exec_now {w w' : World} {o : Op} {c : Choice} {r : o.Ret}
    (h : exec w o c = some (r, w')) : w'.now = w.now := by
  refine (within_exec h).clock ?_
  cases o <;> simp [Op.footprint]

/-- Time does not run backwards. -/
theorem outside_now {w w' : World} {e : Event} (h : outside w e = some w') : w.now ≤ w'.now := by
  cases e with
  | clock now =>
    simp only [outside] at h
    split at h
    · rename_i hle
      cases h
      exact hle
    · cases h
  | jobTaken | sessions | applications =>
    cases h
    exact le_refl _
  | filed input =>
    obtain ⟨⟨r, w₁⟩, h₁, rfl⟩ := Option.map_eq_some_iff.1 h
    unfold WebhookDeliveryRepository.record at h₁
    split at h₁
    · cases h₁
      exact le_refl _
    · obtain ⟨t, -, h₂⟩ := Option.map_eq_some_iff.1 h₁
      cases h₂
      exact le_refl _
  | created draft =>
    obtain ⟨⟨r, w₁⟩, h₁, rfl⟩ := Option.map_eq_some_iff.1 h
    exact ((within_writeNotification draft _ _ _ h₁).clock (by decide)).ge

end NotificationPlatform
