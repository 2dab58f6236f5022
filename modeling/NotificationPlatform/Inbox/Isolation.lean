import NotificationPlatform.Inbox.Handling
import NotificationPlatform.Lifecycle.Writes
import NotificationPlatform.Timing.Connections

/-!
# What a callback can reach

A callback is filed for the connection it was authenticated for, whatever it says of itself. The
call that processes it reads and writes by that connection only.
-/

namespace NotificationPlatform

open Interleaving Relational ProcessWebhookService

def World.delivery (w : World) (d : Uuid) : Option WebhookDeliveryRecord :=
  w.webhookDeliveries.find? d

/-- Only delivery `d`, connection `sessionId`, and the notifications bound to that connection are
changed, with the timelines of those notifications. -/
structure Isolated (sessionId d : Uuid) (w w' : World) : Prop where
  deliveries : ∀ d', d' ≠ d → w'.delivery d' = w.delivery d'
  sessions : ∀ s, s ≠ sessionId → w'.session s = w.session s
  notifications : ∀ n, w'.row n = w.row n ∨ ∃ old new, w.row n = some old ∧ w'.row n = some new ∧
    old.whatsAppSessionId = sessionId ∧ new.whatsAppSessionId = sessionId
  events : ∃ added, w'.notificationEvents = w.notificationEvents ++ added ∧ ∀ e ∈ added,
    ∃ r, w.row e.notificationId = some r ∧ r.whatsAppSessionId = sessionId
  sendAttempts : w'.sendAttempts = w.sendAttempts
  applications : w'.applications = w.applications
  dispatchJobs : w'.dispatchJobs = w.dispatchJobs

section Operations

variable {sessionId d : Uuid} {w w' : World}

/-- A change of one delivery. -/
theorem isolated_delivery (h : Within [.webhookDeliveries] w w')
    (hd : ∀ d', d' ≠ d → w'.delivery d' = w.delivery d') : Isolated sessionId d w w' where
  deliveries := hd
  sessions s _ := by rw [World.session, h.whatsAppSessions (by decide)]; rfl
  notifications n := .inl (by rw [World.row, h.notifications (by decide)]; rfl)
  events := ⟨[], by rw [h.notificationEvents (by decide), List.append_nil], fun _ he => absurd he List.not_mem_nil⟩
  sendAttempts := h.sendAttempts (by decide)
  applications := h.applications (by decide)
  dispatchJobs := h.dispatchJobs (by decide)

/-- A change of one connection. -/
theorem isolated_session (h : Within [.whatsAppSessions] w w')
    (hs : ∀ s, s ≠ sessionId → w'.session s = w.session s) : Isolated sessionId d w w' where
  deliveries d' _ := by rw [World.delivery, h.webhookDeliveries (by decide)]; rfl
  sessions := hs
  notifications n := .inl (by rw [World.row, h.notifications (by decide)]; rfl)
  events := ⟨[], by rw [h.notificationEvents (by decide), List.append_nil], fun _ he => absurd he List.not_mem_nil⟩
  sendAttempts := h.sendAttempts (by decide)
  applications := h.applications (by decide)
  dispatchJobs := h.dispatchJobs (by decide)

/-- A change of one notification, and entries of its timeline. -/
theorem isolated_notification {n : Uuid} {r : NotificationRecord}
    {added : List NotificationEventRecord}
    (h : Within [.notifications, .notificationEvents, .identifiers] w w')
    (hr : w.row n = some r) (hbound : r.whatsAppSessionId = sessionId)
    (hothers : ∀ m, m ≠ n → w'.row m = w.row m)
    (hnew : ∃ new, w'.row n = some new ∧ new.whatsAppSessionId = sessionId)
    (hevents : w'.notificationEvents = w.notificationEvents ++ added)
    (hadded : ∀ e ∈ added, e.notificationId = n) : Isolated sessionId d w w' where
  deliveries d' _ := by rw [World.delivery, h.webhookDeliveries (by decide)]; rfl
  sessions s _ := by rw [World.session, h.whatsAppSessions (by decide)]; rfl
  notifications m := by
    by_cases hm : m = n
    · subst hm
      obtain ⟨new, hnew, hsame⟩ := hnew
      exact .inr ⟨r, new, hr, hnew, hbound, hsame⟩
    · exact .inl (hothers m hm)
  events := ⟨added, hevents, fun e he => ⟨r, by rw [hadded e he, hr], hbound⟩⟩
  sendAttempts := h.sendAttempts (by decide)
  applications := h.applications (by decide)
  dispatchJobs := h.dispatchJobs (by decide)

theorem isolated_refl (w : World) : Isolated sessionId d w w :=
  isolated_session (.refl w) fun _ _ => rfl

/-- An update of one delivery leaves the others alone, and the connection it was filed for. -/
theorem updateOne_delivery {p : WebhookDeliveryRecord → Bool}
    {f : WebhookDeliveryRecord → WebhookDeliveryRecord} {hf : ∀ r, key (f r) = key r}
    {x : Option WebhookDeliveryRecord}
    (h : WebhookDeliveryRepository.updateOne d p f hf w = some (x, w')) :
    (∀ d', d' ≠ d → w'.delivery d' = w.delivery d') ∧
      w'.delivery d = (w.delivery d).map fun r => if p r then f r else r := by
  cases h
  exact ⟨fun d' hd => Table.find?_updateAt_other _ hd p f hf, Table.find?_updateAt_self _ d p f hf⟩

theorem isolated_updateSession {p : WhatsAppSessionRecord → Bool}
    {f : WhatsAppSessionRecord → WhatsAppSessionRecord} {hf : ∀ r, key (f r) = key r}
    {x : Option WhatsAppSessionRecord}
    (h : WhatsAppSessionRepository.updateOne sessionId p f hf w = some (x, w')) :
    Isolated sessionId d w w' := by
  refine isolated_session (within_session (by decide) _ _ _ h) fun s hs => ?_
  rcases updateOne_session h s with hsame | ⟨_, rfl, -⟩
  · exact hsame
  · exact absurd rfl hs

theorem isolated_appendEvent {input : NotificationEventInput} {r : NotificationRecord} {x : Unit}
    (h : NotificationRepository.appendEvent input w = some (x, w'))
    (hr : w.row input.notificationId = some r) (hbound : r.whatsAppSessionId = sessionId) :
    Isolated sessionId d w w' := by
  have hwithin := within_appendEvent (F := [.notifications, .notificationEvents, .identifiers])
    (by decide) (by decide) _ _ _ h
  cases h
  exact isolated_notification hwithin hr hbound (fun _ _ => rfl) ⟨r, hr, hbound⟩ rfl fun e he => by
    rw [List.mem_singleton.1 he]

theorem isolated_acknowledgement {input : AcknowledgementInput} {r : NotificationRecord} {x : Bool}
    (h : acknowledgementTransition input w = some (x, w'))
    (hr : w.row input.notification.id = some r) (hbound : r.whatsAppSessionId = sessionId) :
    Isolated sessionId d w w' := by
  have hwithin : Within [.notifications, .notificationEvents, .identifiers] w w' :=
    within_conditional (t := input.transition) (by decide)
      (fun _ => .bind (within_appendEvent (by decide) (by decide)) fun _ => .pure _) _ _ _ h
  obtain ⟨updated, w₁, h₁, hrest⟩ := Sql.bind_eq_some.1 h
  cases updated with
  | none =>
    obtain ⟨rfl, -⟩ := updateOne_none (sending_eq_some.1 h₁).2
    obtain ⟨-, rfl⟩ := Sql.pure_eq_some.1 hrest
    exact isolated_refl _
  | some new =>
    obtain ⟨old, hp, rfl, hw⟩ := updateOne_some (sending_eq_some.1 h₁).2
    obtain ⟨_, w₂, h₂, hdone⟩ := Sql.bind_eq_some.1 hrest
    obtain ⟨-, rfl⟩ := Sql.pure_eq_some.1 hdone
    have hsame := hw.rest
    cases h₂
    refine isolated_notification hwithin hr hbound (fun m hm => hw.others m hm)
      ⟨_, hw.after, ?_⟩ (congrArg (· ++ [_]) (by rw [hsame])) fun e he => by
        rw [List.mem_singleton.1 he]
        rfl
    cases hr.symm.trans hw.before
    exact hbound

/-! ## Rows stay with their connection -/

/-- No operation rebinds a notification. -/
theorem row_bound_exec {o : Op} {choice : Choice} {r : o.Ret} {n : Uuid} {old : NotificationRecord}
    (h : exec w o choice = some (r, w')) (hold : w.row n = some old) :
    ∃ new, w'.row n = some new ∧ new.whatsAppSessionId = old.whatsAppSessionId := by
  rcases exec_writes h hold with hkept | ⟨new, hmem, hnew⟩
  · exact ⟨old, hkept, rfl⟩
  · exact ⟨new, hnew, (writes_fixed hmem).2⟩

/-- No operation files a delivery anew: it stays with its connection, and says what it said. -/
theorem delivery_filed_exec {o : Op} {choice : Choice} {r : o.Ret} {old : WebhookDeliveryRecord}
    (h : exec w o choice = some (r, w')) (hold : w.delivery d = some old) :
    ∃ new, w'.delivery d = some new ∧ new.whatsAppSessionId = old.whatsAppSessionId ∧
      storedEnvelope new = storedEnvelope old := by
  have haside : .webhookDeliveries ∉ o.footprint → w'.delivery d = some old := fun hF => by
    rw [World.delivery, (within_exec h).webhookDeliveries hF]
    exact hold
  have hupdate : ∀ {id : Uuid} {p : WebhookDeliveryRecord → Bool}
      {f : WebhookDeliveryRecord → WebhookDeliveryRecord} {hf : ∀ r, key (f r) = key r}
      {x : Option WebhookDeliveryRecord},
      WebhookDeliveryRepository.updateOne id p f hf w = some (x, w') →
      (∀ r, (f r).whatsAppSessionId = r.whatsAppSessionId ∧
        storedEnvelope (f r) = storedEnvelope r) →
      ∃ new, w'.delivery d = some new ∧ new.whatsAppSessionId = old.whatsAppSessionId ∧
        storedEnvelope new = storedEnvelope old := by
    intro id p f hf x h hsame
    obtain ⟨hothers, hself⟩ := updateOne_delivery h
    by_cases hd : d = id
    · subst hd
      rw [hself, hold, Option.map_some]
      refine ⟨_, rfl, ?_⟩
      split
      · exact hsame old
      · exact ⟨rfl, rfl⟩
    · exact ⟨old, (hothers d hd).trans hold, rfl, rfl⟩
  cases o
  case claimForProcessing => exact hupdate (Choice.quietly_eq_some.1 h).2 fun _ => ⟨rfl, rfl⟩
  case markProcessed =>
    obtain ⟨_, w₁, h₁, h₂⟩ := Sql.bind_eq_some.1 (Choice.quietly_eq_some.1 h).2
    obtain ⟨-, rfl⟩ := Sql.pure_eq_some.1 h₂
    exact hupdate h₁ fun _ => ⟨rfl, rfl⟩
  all_goals exact ⟨old, haside (by simp [Op.footprint]), rfl, rfl⟩

theorem delivery_bound_exec {o : Op} {choice : Choice} {r : o.Ret} {old : WebhookDeliveryRecord}
    (h : exec w o choice = some (r, w')) (hold : w.delivery d = some old) :
    ∃ new, w'.delivery d = some new ∧ new.whatsAppSessionId = old.whatsAppSessionId := by
  obtain ⟨new, hnew, hsession, -⟩ := delivery_filed_exec h hold
  exact ⟨new, hnew, hsession⟩

/-- No event removes a delivery. -/
theorem delivery_kept_outside {e : Event} {old : WebhookDeliveryRecord}
    (he : outside w e = some w') (hold : w.delivery d = some old) : w'.delivery d = some old := by
  cases e with
  | clock now =>
    simp only [NotificationPlatform.outside] at he
    split at he <;> cases he
    exact hold
  | created draft =>
    obtain ⟨⟨_, w₁⟩, h₁, rfl⟩ := Option.map_eq_some_iff.1 he
    rw [World.delivery, (within_writeNotification draft _ _ _ h₁).webhookDeliveries (by decide)]
    exact hold
  | jobTaken | sessions | applications =>
    cases he
    exact hold
  | filed input =>
    obtain ⟨⟨_, w₁⟩, h₁, rfl⟩ := Option.map_eq_some_iff.1 he
    unfold WebhookDeliveryRepository.record at h₁
    split at h₁
    · cases h₁
      exact hold
    · obtain ⟨t, ht, h₂⟩ := Option.map_eq_some_iff.1 h₁
      cases h₂
      change t.find? d = some old
      rw [Table.find?_insert? ht, if_neg]
      · exact hold
      · rintro rfl
        cases hold.symm.trans (Table.insert?_fresh ht)

end Operations

/-! ## What a call of `process` holds -/

namespace Handling

/-- The delivery a call claimed. -/
def delivery? : Handling → Option WebhookDeliveryRecord
  | claimed c | looked c _ | missed c _ | recorded c => some c
  | _ => none

/-- The notification it found. -/
def notification? : Handling → Option NotificationRecord
  | looked _ found => found
  | missed _ input => some input.notification
  | _ => none

/-- The phase of a call that processes delivery `d`. -/
def Serves (d : Uuid) : Handling → Prop
  | unclaimed d' => d' = d
  | finished => True
  | elsewhere => False
  | claimed c | looked c _ | missed c _ | recorded c => c.id = d

/-- The phase of a call of the request. -/
def Of : Request → Handling → Prop
  | .process d, q => q.Serves d
  | _, q => q = elsewhere

variable {q : Handling} {o : Op} {r : o.Ret}

theorem serves_advance {d : Uuid} (hq : q.Serves d) (ho : q.Allows o) (ha : Finds o r) :
    (q.advance o r).Serves d := by
  cases q with
  | unclaimed d' =>
    cases o <;> simp only [Allows] at ho
    obtain rfl := ho
    cases r with
    | none => trivial
    | some c => exact Eq.trans ha hq
  | claimed c => cases o <;> simp only [Allows] at ho <;> first | exact hq | trivial
  | looked c found =>
    cases o <;> simp only [Allows] at ho <;> try (first | exact hq | trivial)
    cases r <;> exact hq
  | missed c input =>
    cases o <;> simp only [Allows] at ho
    exact hq
  | recorded c => cases o <;> simp only [Allows] at ho <;> first | exact hq | trivial
  | finished => cases o <;> simp only [Allows] at ho
  | elsewhere => exact hq.elim

theorem of_advance {request : Request} (hq : q.Of request) (ho : q.Allows o) (ha : Finds o r) :
    (q.advance o r).Of request := by
  cases request with
  | process d => exact serves_advance hq ho ha
  | _ =>
    cases hq
    rfl

/-- What a call holds is in the database, under the same connection. -/
structure Bound (w : World) (q : Handling) : Prop where
  delivery : ∀ c, q.delivery? = some c →
    ∃ r, w.delivery c.id = some r ∧ r.whatsAppSessionId = c.whatsAppSessionId
  notification : ∀ c n, q.delivery? = some c → q.notification? = some n →
    ∃ r, w.row n.id = some r ∧ r.whatsAppSessionId = c.whatsAppSessionId

variable {w w' : World} {choice : Choice}

theorem Bound.kept {q : Handling} (h : q.Bound w)
    (hd : ∀ d r, w.delivery d = some r →
      ∃ r', w'.delivery d = some r' ∧ r'.whatsAppSessionId = r.whatsAppSessionId)
    (hn : ∀ n r, w.row n = some r →
      ∃ r', w'.row n = some r' ∧ r'.whatsAppSessionId = r.whatsAppSessionId) : q.Bound w' where
  delivery c hc := by
    obtain ⟨r, hr, hsession⟩ := h.delivery c hc
    obtain ⟨r', hr', hsame⟩ := hd _ r hr
    exact ⟨r', hr', hsame.trans hsession⟩
  notification c n hc hf := by
    obtain ⟨r, hr, hsession⟩ := h.notification c n hc hf
    obtain ⟨r', hr', hsame⟩ := hn _ r hr
    exact ⟨r', hr', hsame.trans hsession⟩

theorem Bound.exec {q' : Handling} (h : q'.Bound w)
    (he : NotificationPlatform.exec w o choice = some (r, w')) : q'.Bound w' :=
  h.kept (fun _ _ hr => delivery_bound_exec he hr) fun _ _ hr => row_bound_exec he hr

theorem Bound.outside {q' : Handling} {e : Event} (h : q'.Bound w)
    (he : NotificationPlatform.outside w e = some w') : q'.Bound w' :=
  h.kept (fun _ r hr => ⟨r, delivery_kept_outside he hr, rfl⟩) fun _ r hr =>
    ⟨r, row_kept_outside he hr, rfl⟩

/-- The delivery a call claims is the row it leaves. -/
theorem delivery_claimed {d : Uuid} {c : WebhookDeliveryRecord}
    (he : NotificationPlatform.exec w (.claimForProcessing d) choice = some (some c, w')) :
    w'.delivery c.id = some c := by
  have hupdate := (Choice.quietly_eq_some.1 he).2
  obtain ⟨-, hself⟩ := updateOne_delivery hupdate
  obtain ⟨hc, -⟩ := Prod.mk.inj (Option.some.inj hupdate)
  obtain ⟨old, hold, hp, rfl⟩ := Table.updateAt_eq_some.1 hc
  obtain rfl : old.id = d := Table.key_of_find? hold
  change w'.delivery old.id = _
  rw [hself, World.delivery, hold, Option.map_some, if_pos hp]

theorem bound_claimed {d : Uuid} {c : WebhookDeliveryRecord}
    (he : NotificationPlatform.exec w (.claimForProcessing d) choice = some (some c, w')) :
    (claimed c).Bound w' := by
  refine ⟨fun c' hc' => ?_, fun _ _ _ hn => nomatch hn⟩
  cases hc'
  exact ⟨c, delivery_claimed he, rfl⟩

/-- The notification a call finds is bound to its connection. -/
theorem bound_looked {c : WebhookDeliveryRecord} {message : String}
    {found : Option NotificationRecord} (h : (claimed c).Bound w)
    (he : NotificationPlatform.exec w (.findByProviderMessageId c.whatsAppSessionId message) choice =
      some (found, w')) : (looked c found).Bound w' := by
  have hkept := h.exec he
  refine ⟨hkept.delivery, fun c' n hc' hn => ?_⟩
  cases hc'
  obtain rfl : found = some n := hn
  obtain ⟨hfound, rfl⟩ := Prod.mk.inj (Option.some.inj (Choice.quietly_eq_some.1 he).2)
  have hsession := List.find?_some hfound
  simp only [decide_eq_true_eq] at hsession
  exact ⟨n, Table.find?_key (List.mem_of_find?_eq_some hfound), hsession.1⟩

theorem Bound.advance (h : q.Bound w) (ho : q.Allows o)
    (he : NotificationPlatform.exec w o choice = some (r, w')) : (q.advance o r).Bound w' := by
  have hkept := h.exec he
  have hfinished : finished.Bound w' := ⟨fun _ hc => (nomatch hc), fun _ _ hc => (nomatch hc)⟩
  cases q with
  | unclaimed d =>
    cases o <;> simp only [Allows] at ho
    cases r with
    | none => exact hfinished
    | some c => exact bound_claimed he
  | claimed c =>
    cases o <;> simp only [Allows] at ho <;> try first | exact hkept | exact hfinished
    obtain ⟨rfl, -⟩ := ho
    exact bound_looked h he
  | looked c found =>
    cases o <;> simp only [Allows] at ho <;> try first | exact hkept | exact hfinished
    obtain ⟨n, rfl, message, received, merged, now, -, -, rfl⟩ := ho
    cases r with
    | true => exact ⟨hkept.delivery, fun _ _ _ hn => nomatch hn⟩
    | false => exact ⟨hkept.delivery, fun c' n' hc' hn' => hkept.notification c' n' hc' hn'⟩
  | missed c input =>
    cases o <;> simp only [Allows] at ho
    exact ⟨hkept.delivery, fun _ _ _ hn => nomatch hn⟩
  | recorded c => cases o <;> simp only [Allows] at ho <;> first | exact hkept | exact hfinished
  | finished => cases o <;> simp only [Allows] at ho
  | elsewhere => exact ⟨fun _ hc => (nomatch hc), fun _ _ hc => (nomatch hc)⟩

/-- **A call of `process` reaches its delivery, the connection it was filed for, and the
notifications of that connection.** -/
theorem Bound.isolated {sessionId d : Uuid} (h : q.Bound w) (hq : q.Serves d)
    (hd : ∀ r, w.delivery d = some r → r.whatsAppSessionId = sessionId) (ho : q.Allows o)
    (he : NotificationPlatform.exec w o choice = some (r, w')) : Isolated sessionId d w w' := by
  have haside : o.footprint = [] → Isolated sessionId d w w' := by
    intro hnone
    have hwithin := within_exec he
    rw [hnone] at hwithin
    refine isolated_session (hwithin.mono (List.nil_subset _)) fun s _ => ?_
    rw [World.session, hwithin.whatsAppSessions List.not_mem_nil]
    rfl
  have hsession : ∀ c, q.delivery? = some c → c.id = d → c.whatsAppSessionId = sessionId := by
    rintro c hc rfl
    obtain ⟨r, hr, hsame⟩ := h.delivery c hc
    exact hsame.symm.trans (hd r hr)
  have hmark : ∀ {input : WebhookDeliveryRepository.MarkProcessedInput} {x : Unit} {choice' : Choice},
      NotificationPlatform.exec w (.markProcessed input) choice' = some (x, w') →
      input.deliveryId = d → Isolated sessionId d w w' := by
    rintro input x choice' he rfl
    have hwithin := within_exec he
    obtain ⟨_, w₁, h₁, h₂⟩ := Sql.bind_eq_some.1 (Choice.quietly_eq_some.1 he).2
    obtain ⟨-, rfl⟩ := Sql.pure_eq_some.1 h₂
    exact isolated_delivery hwithin (updateOne_delivery h₁).1
  cases q with
  | unclaimed d' =>
    cases o <;> simp only [Allows] at ho
    obtain rfl := ho
    obtain rfl := hq
    exact isolated_delivery (within_exec he)
      (updateOne_delivery (Choice.quietly_eq_some.1 he).2).1
  | claimed c =>
    have hs := hsession c rfl hq
    cases o <;> simp only [Allows] at ho <;> try exact haside rfl
    case markProcessed => exact hmark he (ho.1.trans hq)
    case recordStatus =>
      obtain rfl := ho.trans hs
      obtain ⟨_, _, h₁, h₂⟩ := Sql.bind_eq_some.1 (Choice.quietly_eq_some.1 he).2
      obtain ⟨-, rfl⟩ := Sql.pure_eq_some.1 h₂
      exact isolated_updateSession (sending_eq_some.1 h₁).2
    case invalidateAccountLimits =>
      obtain rfl := ho.trans hs
      obtain ⟨_, _, h₁, h₂⟩ := Sql.bind_eq_some.1 (Choice.quietly_eq_some.1 he).2
      obtain ⟨-, rfl⟩ := Sql.pure_eq_some.1 h₂
      exact isolated_updateSession h₁
    case recordAccountLimits =>
      obtain rfl := ho.trans hs
      obtain ⟨_, _, h₀, h₃⟩ := Sql.bind_eq_some.1 (Choice.quietly_eq_some.1 he).2
      rw [storeLimits_world h₀] at h₃
      obtain ⟨_, _, h₁, h₂⟩ := Sql.bind_eq_some.1 h₃
      obtain ⟨-, rfl⟩ := Sql.pure_eq_some.1 h₂
      exact isolated_updateSession (sending_eq_some.1 h₁).2
  | looked c found =>
    have hs := hsession c rfl hq
    cases o <;> simp only [Allows] at ho <;> try exact haside rfl
    case markProcessed => exact hmark he (ho.1.trans hq)
    case acknowledgementTransition =>
      obtain ⟨n, rfl, message, received, merged, now, -, -, rfl⟩ := ho
      obtain ⟨r', hr', hbound⟩ := h.notification c n rfl rfl
      exact isolated_acknowledgement (Choice.quietly_eq_some.1 he).2 hr' (hbound.trans hs)
  | missed c input =>
    have hs := hsession c rfl hq
    cases o <;> simp only [Allows] at ho
    obtain rfl := ho
    obtain ⟨r', hr', hbound⟩ := h.notification c _ rfl rfl
    exact isolated_appendEvent (Choice.quietly_eq_some.1 he).2 hr' (hbound.trans hs)
  | recorded c =>
    cases o <;> simp only [Allows] at ho <;> try exact haside rfl
    exact hmark he (Eq.trans ho hq)
  | finished => cases o <;> simp only [Allows] at ho
  | elsewhere => exact hq.elim

end Handling

/-! ## Runs -/

section Runs

variable {configuration : Configuration} {P : System (platform configuration) →
  Label (platform configuration) → Prop} {w : World} {s s' : System (platform configuration)}
  {l : Label (platform configuration)} {i : Nat} {sessionId d : Uuid}

/-- How far every call is that processes a callback. -/
abbrev handlings (s : System (platform configuration)) : Nat → Option Handling :=
  (handlingDiscipline configuration).phase s

theorem handled_run (h : Run P (System.start w) s) :
    (handlingDiscipline configuration).Disciplined s := Discipline.disciplined_run h

theorem serves_run (h : Run P (System.start w) s) (hi : s.requestOf i = some (.process d))
    {q : Handling} (hq : handlings s i = some q) : q.Serves d :=
  Discipline.run_phases (D := handlingDiscipline configuration) (fun request q => q.Of request)
    (fun request => by cases request <;> rfl) (fun hq ho ha => Handling.of_advance hq ho ha) h hi hq

theorem bound_run (h : Run P (System.start w) s) {q : Handling} (hq : handlings s i = some q) :
    q.Bound s.world := by
  refine Discipline.run_each (D := handlingDiscipline configuration) (fun q w => q.Bound w) ?_ ?_ ?_
    ?_ h hq
  · intro request w
    cases request <;> exact ⟨fun _ hc => (nomatch hc), fun _ _ hc => (nomatch hc)⟩
  · exact fun hq ho _ he => hq.advance ho he
  · exact fun hq he => hq.exec he
  · exact fun hq he => hq.outside he

/-- A step of a call that processes delivery `d`. -/
theorem process_isolated (hr : Run P (System.start w) s) (hi : s.requestOf i = some (.process d))
    (hd : ∀ r, s.world.delivery d = some r → r.whatsAppSessionId = sessionId) {choice : Choice}
    (hs : s.step (.advance i choice) = some s') : Isolated sessionId d s.world s'.world := by
  obtain ⟨o, r, q, ha⟩ := (handled_run hr).advanced hs
  exact (bound_run hr ha.before).isolated (serves_run hr hi ha.before) hd ha.allowed ha.exec

end Runs

end NotificationPlatform
