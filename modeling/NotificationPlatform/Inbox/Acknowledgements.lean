import Mathlib.Data.List.TakeWhile
import NotificationPlatform.Delivery.Effect

/-!
# Acknowledgements, one after another

A `Standing` is what acknowledgements make of a notification. Its number is a join, so it does not
depend on the order they are processed in. Its status does: `DELIVERED` and `FAILED` are final, and
whichever of a receipt and an error is processed first decides.
-/

namespace NotificationPlatform

open Interleaving Relational ProcessWebhookService

/-- What acknowledgements write on a notification, up to the time of day. -/
@[ext]
structure Standing where
  status : NotificationStatus
  acknowledgement : Int
  isDelivered : Bool
  isRead : Bool
  hasFailed : Bool
deriving DecidableEq

def NotificationRecord.standing (r : NotificationRecord) : Standing where
  status := r.status
  acknowledgement := r.providerAcknowledgement
  isDelivered := r.deliveredAt.isSome
  isRead := r.readAt.isSome
  hasFailed := r.failedAt.isSome

namespace Standing

/-- The acknowledgement the next one is merged with. -/
def current (s : Standing) : DeliveryAcknowledgement :=
  (DeliveryAcknowledgement.ofValue? s.acknowledgement).getD .pending

/-- What one acknowledgement makes of a standing. -/
def receive (s : Standing) (received : DeliveryAcknowledgement) : Standing :=
  let merged := mergeAcknowledgements s.current received
  if merged = s.current ∧ s.acknowledgement = s.current.value then s
  else {
    status := resolveStatus s.status merged
    acknowledgement := merged.value
    isDelivered := s.isDelivered || isDeliveredAcknowledgement merged
    isRead := s.isRead || isReadAcknowledgement merged
    hasFailed := s.hasFailed || isFailureAcknowledgement merged }

/-- A number that is none of an acknowledgement counts as pending. -/
theorem current_eq_pending {s : Standing} (h : s.acknowledgement ≠ s.current.value) :
    s.current = .pending := by
  unfold current at h ⊢
  cases hv : DeliveryAcknowledgement.ofValue? s.acknowledgement with
  | none => rfl
  | some a =>
    rw [hv] at h
    have ha := List.find?_some hv
    exact absurd (by simpa [eq_comm] using ha) h

/-- An acknowledgement that does not outrank the current one changes nothing that counts. -/
theorem receive_same {s : Standing} {x : DeliveryAcknowledgement}
    (h : mergeAcknowledgements s.current x = s.current) :
    s.receive x = { s with acknowledgement := s.current.value } := by
  simp only [receive, h, true_and]
  split
  · rename_i hv
    rw [← hv]
  · rename_i hv
    have hp := current_eq_pending hv
    simp [hp, resolveStatus, isDeliveredAcknowledgement, isReadAcknowledgement,
      isFailureAcknowledgement, DeliveryAcknowledgement.value]

theorem merge_of_ne {current x : DeliveryAcknowledgement}
    (h : mergeAcknowledgements current x ≠ current) : mergeAcknowledgements current x = x := by
  revert h
  cases current <;> cases x <;> decide

/-- One that outranks it is what the notification is then at. -/
theorem receive_changed {s : Standing} {x : DeliveryAcknowledgement}
    (h : mergeAcknowledgements s.current x ≠ s.current) : s.receive x = {
      status := resolveStatus s.status x
      acknowledgement := x.value
      isDelivered := s.isDelivered || isDeliveredAcknowledgement x
      isRead := s.isRead || isReadAcknowledgement x
      hasFailed := s.hasFailed || isFailureAcknowledgement x } := by
  have hx := merge_of_ne h
  rw [hx] at h
  simp only [receive, hx, h, false_and, if_false]

theorem current_of_value {s : Standing} {a : DeliveryAcknowledgement}
    (h : s.acknowledgement = a.value) : s.current = a := by
  simp [current, h]

/-- Where an acknowledgement leaves the number. -/
theorem acknowledgement_receive (s : Standing) (x : DeliveryAcknowledgement) :
    (s.receive x).acknowledgement = (mergeAcknowledgements s.current x).value := by
  by_cases h : mergeAcknowledgements s.current x = s.current
  · rw [receive_same h, h]
  · rw [receive_changed h, merge_of_ne h]

theorem current_receive (s : Standing) (x : DeliveryAcknowledgement) :
    (s.receive x).current = mergeAcknowledgements s.current x :=
  current_of_value (acknowledgement_receive s x)

/-! ## Any number of acknowledgements -/

theorem acknowledgement_foldl (s : Standing) (l : List DeliveryAcknowledgement) :
    (l.foldl receive s).acknowledgement =
      if l = [] then s.acknowledgement else (l.foldl mergeAcknowledgements s.current).value := by
  induction l generalizing s with
  | nil => rfl
  | cons x l ih =>
    rw [List.foldl_cons, ih, if_neg (List.cons_ne_nil x l), List.foldl_cons, current_receive]
    split
    · rename_i h
      rw [h]
      exact acknowledgement_receive s x
    · rfl

/-- A failure is noted once an error was received that is not the current acknowledgement. -/
theorem hasFailed_foldl (s : Standing) (l : List DeliveryAcknowledgement) :
    (l.foldl receive s).hasFailed =
      (s.hasFailed || (decide (s.current ≠ .error) && decide (.error ∈ l))) := by
  induction l generalizing s with
  | nil => simp
  | cons x l ih =>
    rw [List.foldl_cons, ih, current_receive]
    by_cases h : mergeAcknowledgements s.current x = s.current
    · rw [receive_same h, h]
      revert h
      cases s.current <;> cases x <;> simp [mergeAcknowledgements]
    · rw [receive_changed h]
      revert h
      cases s.current <;> cases x <;> simp [mergeAcknowledgements, isFailureAcknowledgement,
        DeliveryAcknowledgement.value]

/-- The acknowledgements received before the first error. -/
def receipts (l : List DeliveryAcknowledgement) : List DeliveryAcknowledgement :=
  l.takeWhile (· ≠ .error)

/-- A receipt that `p` speaks of and that outranks `current` came before the first error. -/
def reaches (p : DeliveryAcknowledgement → Bool) (current : DeliveryAcknowledgement)
    (l : List DeliveryAcknowledgement) : Bool :=
  decide (current ≠ .error) && (receipts l).any fun a => p a && decide (current.value < a.value)

/-- A property of receipts that the higher ones have if a lower one has it. -/
structure Upward (p : DeliveryAcknowledgement → Bool) : Prop where
  up : ∀ a b, p a = true → a.value ≤ b.value → p b = true
  receipt : p .error = false

theorem upward_delivered : Upward isDeliveredAcknowledgement := by
  constructor
  · intro a b
    cases a <;> cases b <;> decide
  · rfl

theorem upward_read : Upward isReadAcknowledgement := by
  constructor
  · intro a b
    cases a <;> cases b <;> decide
  · rfl

theorem reaches_cons {p : DeliveryAcknowledgement → Bool} (hp : Upward p)
    (current x : DeliveryAcknowledgement) (l : List DeliveryAcknowledgement) :
    reaches p current (x :: l) = ((decide (mergeAcknowledgements current x ≠ current) && p x) ||
      reaches p (mergeAcknowledgements current x) l) := by
  unfold reaches receipts
  by_cases hx : x = .error
  · subst hx
    have herror := hp.receipt
    cases current <;> simp [mergeAcknowledgements, herror]
  by_cases hc : current = .error
  · subst hc
    simp [mergeAcknowledgements]
  have hmerge : mergeAcknowledgements current x =
      if current.value < x.value then x else current := by
    rw [mergeAcknowledgements, if_neg hx, if_neg hc]
  rw [hmerge, List.takeWhile_cons_of_pos (by simpa using hx), List.any_cons]
  by_cases hlt : current.value < x.value
  · have hne : x ≠ current := by
      rintro rfl
      exact absurd hlt (lt_irrefl _)
    cases hpx : p x with
    | true => simp [hlt, hne, hc]
    | false =>
      -- what `p` speaks of lies above `x` already
      have habove : ∀ a, (p a && decide (current.value < a.value)) =
          (p a && decide (x.value < a.value)) := by
        intro a
        cases hpa : p a with
        | false => rfl
        | true =>
          have hxa : x.value < a.value := by
            by_contra hle
            exact absurd ((hp.up a x hpa (by omega)).symm.trans hpx) nofun
          simp [hxa, hlt.trans hxa]
      simp [hlt, hc, hx, habove]
  · simp [hlt, hc]

theorem flag_receive {p : DeliveryAcknowledgement → Bool} {f : Standing → Bool} {s : Standing}
    {x : DeliveryAcknowledgement}
    (hsame : mergeAcknowledgements s.current x = s.current → f (s.receive x) = f s)
    (hchanged : mergeAcknowledgements s.current x ≠ s.current → f (s.receive x) = (f s || p x)) :
    f (s.receive x) = (f s || (decide (mergeAcknowledgements s.current x ≠ s.current) && p x)) := by
  by_cases h : mergeAcknowledgements s.current x = s.current
  · simp [hsame h, h]
  · simp [hchanged h, h]

theorem isDelivered_foldl (s : Standing) (l : List DeliveryAcknowledgement) :
    (l.foldl receive s).isDelivered =
      (s.isDelivered || reaches isDeliveredAcknowledgement s.current l) := by
  induction l generalizing s with
  | nil => simp [reaches, receipts]
  | cons x l ih =>
    rw [List.foldl_cons, ih, current_receive, reaches_cons upward_delivered, ← Bool.or_assoc]
    congr 1
    exact flag_receive (fun h => by rw [receive_same h]) fun h => by rw [receive_changed h]

theorem isRead_foldl (s : Standing) (l : List DeliveryAcknowledgement) :
    (l.foldl receive s).isRead = (s.isRead || reaches isReadAcknowledgement s.current l) := by
  induction l generalizing s with
  | nil => simp [reaches, receipts]
  | cons x l ih =>
    rw [List.foldl_cons, ih, current_receive, reaches_cons upward_read, ← Bool.or_assoc]
    congr 1
    exact flag_receive (fun h => by rw [receive_same h]) fun h => by rw [receive_changed h]

/-- The status of a notification that was sent: a receipt before the first error delivers it, and
otherwise an error fails it. -/
def outcome (current : DeliveryAcknowledgement) (l : List DeliveryAcknowledgement) :
    NotificationStatus :=
  if reaches isDeliveredAcknowledgement current l then .DELIVERED
  else if current ≠ .error ∧ .error ∈ l then .FAILED
  else .SENT

theorem status_foldl (s : Standing) (l : List DeliveryAcknowledgement) :
    (l.foldl receive s).status = if s.status = .SENT then outcome s.current l else s.status := by
  induction l generalizing s with
  | nil =>
    have : outcome s.current [] = .SENT := by simp [outcome, reaches, receipts]
    rw [this]
    split <;> simp_all
  | cons x l ih =>
    rw [List.foldl_cons, ih, current_receive]
    have hreaches := reaches_cons upward_delivered s.current x l
    by_cases h : mergeAcknowledgements s.current x = s.current
    · rw [receive_same h, h]
      have hx : s.current = .error ∨ x ≠ .error := by
        revert h
        cases s.current <;> cases x <;> simp [mergeAcknowledgements]
      simp only [h, ne_eq, not_true_eq_false, decide_false, Bool.false_and, Bool.false_or]
        at hreaches
      simp only [outcome, hreaches]
      rcases hx with hx | hx
      · simp [hx]
      · simp [Ne.symm hx]
    · have hcurrent : s.current ≠ .error := by
        intro hc
        rw [hc] at h
        exact h (by cases x <;> rfl)
      have hx := merge_of_ne h
      rw [receive_changed h, hx]
      rw [hx] at hreaches h
      simp only [h, ne_eq, not_false_eq_true, decide_true, Bool.true_and] at hreaches
      by_cases hs : s.status = .SENT
      · rw [hs, if_pos rfl]
        by_cases herror : x = .error
        · subst herror
          have hnone : reaches isDeliveredAcknowledgement .error l = false := by simp [reaches]
          simp [resolveStatus, outcome, hreaches, hnone, hcurrent, isFailureAcknowledgement,
            upward_delivered.receipt]
        · cases hdelivered : isDeliveredAcknowledgement x with
          | true =>
            simp [resolveStatus, outcome, hreaches, hdelivered, herror, isFailureAcknowledgement]
          | false =>
            simp [resolveStatus, outcome, hreaches, hdelivered, herror, hcurrent,
              isFailureAcknowledgement, Ne.symm herror]
      · simp [resolveStatus, hs]

/-! ## In another order -/

theorem mergeAcknowledgements_right_comm (a x y : DeliveryAcknowledgement) :
    mergeAcknowledgements (mergeAcknowledgements a x) y =
      mergeAcknowledgements (mergeAcknowledgements a y) x := by
  cases a <;> cases x <;> cases y <;> rfl

theorem acknowledgement_perm (s : Standing) {l l' : List DeliveryAcknowledgement}
    (h : l.Perm l') :
    (l.foldl receive s).acknowledgement = (l'.foldl receive s).acknowledgement := by
  have hmerged := h.foldl_eq' (fun x _ y _ a => mergeAcknowledgements_right_comm a x y) s.current
  rw [acknowledgement_foldl, acknowledgement_foldl, hmerged]
  have hnil : l = [] ↔ l' = [] := by
    constructor
    · rintro rfl
      exact List.nil_perm.1 h
    · rintro rfl
      exact List.perm_nil.1 h
  simp only [hnil]

theorem hasFailed_perm (s : Standing) {l l' : List DeliveryAcknowledgement} (h : l.Perm l') :
    (l.foldl receive s).hasFailed = (l'.foldl receive s).hasFailed := by
  simp only [hasFailed_foldl, h.mem_iff]

/-- An error, and a receipt that would have delivered the notification. -/
def contested (current : DeliveryAcknowledgement) (l : List DeliveryAcknowledgement) : Bool :=
  decide (current ≠ .error) && l.contains .error &&
    l.any fun a => isDeliveredAcknowledgement a && decide (current.value < a.value)

theorem contested_perm {current : DeliveryAcknowledgement} {l l' : List DeliveryAcknowledgement}
    (h : l.Perm l') : contested current l = contested current l' := by
  simp only [contested, h.any_eq, List.contains_eq_mem, h.mem_iff]

theorem any_of_reaches {p : DeliveryAcknowledgement → Bool} {current : DeliveryAcknowledgement}
    {l : List DeliveryAcknowledgement} (h : reaches p current l = true) :
    current ≠ .error ∧ ∃ a ∈ l, p a = true ∧ current.value < a.value := by
  simp only [reaches, receipts, Bool.and_eq_true, decide_eq_true_eq, List.any_eq_true] at h
  obtain ⟨hcurrent, a, ha, hp, hlt⟩ := h
  exact ⟨hcurrent, a, (List.takeWhile_sublist _).subset ha, hp, hlt⟩

/-- Without a contest it does not matter where the errors stand. -/
theorem reaches_eq {p : DeliveryAcknowledgement → Bool}
    (hp : ∀ a, p a = true → isDeliveredAcknowledgement a = true)
    {current : DeliveryAcknowledgement} {l : List DeliveryAcknowledgement}
    (h : contested current l = false) : reaches p current l =
      (decide (current ≠ .error) && l.any fun a => p a && decide (current.value < a.value)) := by
  by_cases herror : .error ∈ l
  · have hnone : ∀ a ∈ l, current ≠ .error → p a = true → ¬ current.value < a.value := by
      intro a ha hcurrent hpa hlt
      have : contested current l = true := by
        simp only [contested, Bool.and_eq_true, decide_eq_true_eq, List.contains_iff_mem,
          List.any_eq_true]
        exact ⟨⟨hcurrent, herror⟩, a, ha, hp a hpa, hlt⟩
      exact absurd (h.symm.trans this) nofun
    have hleft : reaches p current l = false := by
      by_contra hreaches
      obtain ⟨hcurrent, a, ha, hpa, hlt⟩ := any_of_reaches (Bool.eq_true_of_not_eq_false hreaches)
      exact hnone a ha hcurrent hpa hlt
    rw [hleft, eq_comm, Bool.eq_false_iff]
    intro hright
    simp only [Bool.and_eq_true, decide_eq_true_eq, List.any_eq_true] at hright
    obtain ⟨hcurrent, a, ha, hpa, hlt⟩ := hright
    exact hnone a ha hcurrent hpa hlt
  · have hall : receipts l = l := by
      refine List.takeWhile_eq_self_iff.2 fun a ha => ?_
      have hne : a ≠ .error := by
        rintro rfl
        exact herror ha
      simpa using hne
    rw [reaches, hall]

theorem reaches_perm {p : DeliveryAcknowledgement → Bool}
    (hp : ∀ a, p a = true → isDeliveredAcknowledgement a = true)
    {current : DeliveryAcknowledgement} {l l' : List DeliveryAcknowledgement} (h : l.Perm l')
    (hc : contested current l = false) : reaches p current l = reaches p current l' := by
  rw [reaches_eq hp hc, reaches_eq hp ((contested_perm h).symm.trans hc), h.any_eq]

theorem delivered_of_read (a : DeliveryAcknowledgement) (h : isReadAcknowledgement a = true) :
    isDeliveredAcknowledgement a = true := by
  revert h
  cases a <;> decide

/-- Without a contest the order does not matter. -/
theorem receive_perm (s : Standing) {l l' : List DeliveryAcknowledgement} (h : l.Perm l')
    (hc : contested s.current l = false) : l.foldl receive s = l'.foldl receive s := by
  have hdelivered := reaches_perm (fun _ => id) h hc
  have hread := reaches_perm delivered_of_read h hc
  refine Standing.ext ?_ (acknowledgement_perm s h) ?_ ?_ (hasFailed_perm s h)
  · simp only [status_foldl, outcome, hdelivered, h.mem_iff]
  · rw [isDelivered_foldl, isDelivered_foldl, hdelivered]
  · rw [isRead_foldl, isRead_foldl, hread]

end Standing

/-! ## The row -/

/-- What `advanceNotification` makes of the row it read. -/
def NotificationRecord.acknowledge (r : NotificationRecord) (received : DeliveryAcknowledgement)
    (now : Date) : NotificationRecord :=
  let merged := mergeAcknowledgements (currentAcknowledgement r) received
  if merged = currentAcknowledgement r ∧
      r.providerAcknowledgement = (currentAcknowledgement r).value then r
  else (acknowledgementInput r merged received now).transition.apply r

theorem standing_acknowledge (r : NotificationRecord) (received : DeliveryAcknowledgement)
    (now : Date) : (r.acknowledge received now).standing = r.standing.receive received := by
  have hcurrent : r.standing.current = currentAcknowledgement r := rfl
  unfold NotificationRecord.acknowledge Standing.receive
  rw [hcurrent]
  dsimp only
  generalize mergeAcknowledgements (currentAcknowledgement r) received = merged
  change _ = if merged = currentAcknowledgement r ∧
    r.providerAcknowledgement = (currentAcknowledgement r).value then _ else _
  split
  · rfl
  · refine Standing.ext rfl rfl ?_ ?_ ?_
    · simp only [NotificationRecord.standing, NotificationRepository.TransitionInput.apply,
        AcknowledgementInput.transition, acknowledgementInput, acknowledgementChanges]
      cases isDeliveredAcknowledgement merged <;> cases r.deliveredAt <;> rfl
    · simp only [NotificationRecord.standing, NotificationRepository.TransitionInput.apply,
        AcknowledgementInput.transition, acknowledgementInput, acknowledgementChanges]
      cases isReadAcknowledgement merged <;> cases r.readAt <;> rfl
    · simp only [NotificationRecord.standing, NotificationRepository.TransitionInput.apply,
        AcknowledgementInput.transition, acknowledgementInput, acknowledgementChanges]
      cases isFailureAcknowledgement merged <;> cases r.failedAt <;> rfl

/-- The notification a session's message belongs to. -/
def World.messageOf (w : World) (session : Uuid) (message : String) : Option NotificationRecord :=
  w.notifications.rows.find? fun r =>
    r.whatsAppSessionId = session ∧ r.providerMessageId = some message

theorem messageOf_eq {w w' : World} (h : w'.notifications = w.notifications) (session : Uuid)
    (message : String) : w'.messageOf session message = w.messageOf session message := by
  unfold World.messageOf
  rw [h]

/-- The update of an acknowledgement, found by the message it acknowledged. -/
theorem messageOf_transition {r : NotificationRecord} {merged received : DeliveryAcknowledgement}
    {now : Date} {w w' : World} {transitioned : Bool} {session : Uuid} {message : String}
    (hr : w.messageOf session message = some r)
    (h : acknowledgementTransition (acknowledgementInput r merged received now) w =
      some (transitioned, w')) : transitioned = true ∧ w'.messageOf session message =
        some ((acknowledgementInput r merged received now).transition.apply r) := by
  have hfound : w.notifications.find? r.id = some r := Table.find?_key (List.mem_of_find?_eq_some hr)
  unfold acknowledgementTransition at h
  obtain ⟨updated, w₁, h₁, h⟩ := Sql.bind_eq_some.1 h
  unfold NotificationRepository.applyTransition at h₁
  replace h₁ := (sending_eq_some.1 h₁).2
  unfold NotificationRepository.updateOne at h₁
  have hid : (acknowledgementInput r merged received now).transition.notificationId = r.id := rfl
  rw [hid, hfound] at h₁
  have hp : (decide (r.applicationId =
      (acknowledgementInput r merged received now).transition.applicationId ∧ r.status =
      (acknowledgementInput r merged received now).transition.expectedStatus)) = true := by
    simp [acknowledgementInput, AcknowledgementInput.transition]
  simp only [hp, if_true] at h₁
  split at h₁
  · cases h₁
    obtain ⟨_, w₂, h₂, h⟩ := Sql.bind_eq_some.1 h
    obtain ⟨rfl, rfl⟩ := Sql.pure_eq_some.1 h
    refine ⟨rfl, ?_⟩
    rw [messageOf_eq (beside_appendEvent _ _ _ _ h₂).notifications]
    unfold World.messageOf at hr ⊢
    refine (w.notifications.rows_find?_update _
      (acknowledgementInput r merged received now).transition.apply (fun _ => rfl)
      fun _ _ => rfl).trans ?_
    rw [hr, Option.map_some, if_pos]
    simp [acknowledgementInput, AcknowledgementInput.transition]
  · cases h₁

/-! ## One call of `process` -/

theorem messageOf_advance {r : NotificationRecord} {a : DeliveryAcknowledgement}
    {session : Uuid} {message : String} {choices : List Choice} {w w' : World}
    {result : ProcessWebhookResult} (hr : w.messageOf session message = some r)
    (h : (advanceNotification r a).runs exec choices w = some (result, w')) :
    ∃ now, w'.messageOf session message = some (r.acknowledge a now) := by
  unfold advanceNotification at h
  dsimp only at h
  unfold NotificationRecord.acknowledge
  split at h
  · rename_i hsame
    obtain ⟨rfl, h⟩ := Prog.runs_done.1 h
    cases h
    exact ⟨0, by rw [if_pos hsame, hr]⟩
  · rename_i hchanged
    obtain ⟨_, _, _, w₁, rfl, h, hdone⟩ := Prog.runs_bind.1 h
    obtain ⟨-, hdone⟩ := Prog.runs_done.1 hdone
    cases hdone
    obtain ⟨c, _, now, w₂, rfl, hnow, h⟩ := Prog.runs_perform.1 h
    obtain ⟨c', _, transitioned, w₃, rfl, hupdate, h⟩ := Prog.runs_perform.1 h
    have hclock := untouched_meaning c (o := .clockNow) rfl _ _ _ hnow
    rw [← messageOf_eq hclock.notifications] at hr
    obtain ⟨rfl, hafter⟩ := messageOf_transition hr (Choice.quietly_eq_some.1 hupdate).2
    obtain ⟨-, h⟩ := Prog.runs_done.1 h
    cases h
    exact ⟨now, by rw [if_neg hchanged, hafter]⟩

/-- A receipt for a message of a session, which was not processed yet. -/
structure WebhookDeliveryRecord.Acknowledges (delivery : WebhookDeliveryRecord) (session : Uuid)
    (message : String) (a : DeliveryAcknowledgement) : Prop where
  unprocessed : delivery.processedAt = none
  session : delivery.whatsAppSessionId = session
  event : toProviderEvent (storedEnvelope delivery) = .message_acknowledgement message a true

theorem messageOf_applyAcknowledgement {delivery : WebhookDeliveryRecord} {r : NotificationRecord}
    {a : DeliveryAcknowledgement} {message : String} {choices : List Choice} {w w' : World}
    {result : ProcessWebhookResult}
    (hr : w.messageOf delivery.whatsAppSessionId message = some r)
    (h : (applyAcknowledgement delivery message a true).runs exec choices w =
      some (result, w')) :
    ∃ now, w'.messageOf delivery.whatsAppSessionId message = some (r.acknowledge a now) := by
  unfold applyAcknowledgement at h
  rw [if_pos rfl] at h
  obtain ⟨_, _, _, w₁, rfl, hdoubt, h⟩ := Prog.runs_bind.1 h
  have hsame : w₁.notifications = w.notifications := by
    unfold doubtOnFailure at hdoubt
    split at hdoubt
    · obtain ⟨c, _, _, w₂, rfl, hop, hdone⟩ := Prog.runs_perform.1 hdoubt
      obtain ⟨-, hdone⟩ := Prog.runs_done.1 hdone
      cases hdone
      exact (untouched_meaning c rfl _ _ _ hop).notifications
    · obtain ⟨-, hdone⟩ := Prog.runs_done.1 hdoubt
      cases hdone
      rfl
  rw [← messageOf_eq hsame] at hr
  obtain ⟨c, _, found, w₂, rfl, hfind, h⟩ := Prog.runs_perform.1 h
  obtain ⟨-, hfind⟩ := Choice.quietly_eq_some.1 hfind
  cases hfind
  unfold World.messageOf at hr
  simp only [hr] at h
  exact messageOf_advance hr h

/-- One call applies the acknowledgement to the row as it stands. -/
theorem messageOf_process {configuration : Configuration} {deliveryId session : Uuid}
    {message : String} {delivery : WebhookDeliveryRecord} {a : DeliveryAcknowledgement}
    {r : NotificationRecord} {choices : List Choice} {w w' : World}
    {result : ProcessWebhookResult} (hd : w.webhookDeliveries.find? deliveryId = some delivery)
    (ha : delivery.Acknowledges session message a) (hr : w.messageOf session message = some r)
    (h : (process configuration deliveryId).runs exec choices w = some (result, w')) :
    ∃ now, w'.messageOf session message = some (r.acknowledge a now) := by
  obtain ⟨hunprocessed, rfl, hevent⟩ := ha
  obtain ⟨c, _, claimed, w₁, rfl, hclaim, h⟩ := Prog.runs_perform.1 h
  have hsame := (untouched_meaning c (o := .claimForProcessing deliveryId) rfl _ _ _
    hclaim).notifications
  obtain ⟨-, hclaim⟩ := Choice.quietly_eq_some.1 hclaim
  -- claiming counts the attempt and leaves the rest of the delivery alone
  obtain ⟨d, rfl, hsession, henvelope⟩ : ∃ d, claimed = some d ∧
      d.whatsAppSessionId = delivery.whatsAppSessionId ∧
      storedEnvelope d = storedEnvelope delivery := by
    cases hclaim
    exact ⟨{ delivery with processingAttempts := delivery.processingAttempts + 1 },
      by simp [Table.updateAt, hd, hunprocessed], rfl, rfl⟩
  obtain ⟨_, _, _, w₂, rfl, happly, h⟩ :=
    (Prog.runs_bind (p := applyEvent configuration _ _)).1 h
  rw [henvelope, hevent] at happly
  rw [← messageOf_eq hsame, ← hsession] at hr
  obtain ⟨now, hafter⟩ := messageOf_applyAcknowledgement hr happly
  rw [hsession] at hafter
  refine ⟨now, ?_⟩
  obtain ⟨c₁, _, _, w₃, rfl, hclock, h⟩ := Prog.runs_perform.1 h
  obtain ⟨c₂, _, _, w₄, rfl, hmark, h⟩ := Prog.runs_perform.1 h
  obtain ⟨-, h⟩ := Prog.runs_done.1 h
  cases h
  have hclock := (untouched_meaning c₁ (o := .clockNow) rfl _ _ _ hclock).notifications
  have hmark := (untouched_meaning c₂ rfl _ _ _ hmark).notifications
  rw [messageOf_eq (hmark.trans hclock)]
  exact hafter

/-! ## One call after another -/

/-- Callbacks for one message, processed one after another. In between anything may happen that
leaves notifications alone. -/
inductive Receives (configuration : Configuration) (session : Uuid) (message : String) :
    List DeliveryAcknowledgement → World → World → Prop
  | finished (w : World) : Receives configuration session message [] w w
  | meanwhile {l : List DeliveryAcknowledgement} {w w₁ w₂ : World}
      (same : w₁.notifications = w.notifications)
      (rest : Receives configuration session message l w₁ w₂) :
      Receives configuration session message l w w₂
  | processed {a : DeliveryAcknowledgement} {l : List DeliveryAcknowledgement} {w w₁ w₂ : World}
      {deliveryId : Uuid} {delivery : WebhookDeliveryRecord} {choices : List Choice}
      {result : ProcessWebhookResult}
      (found : w.webhookDeliveries.find? deliveryId = some delivery)
      (receipt : delivery.Acknowledges session message a)
      (call : (process configuration deliveryId).runs exec choices w = some (result, w₁))
      (rest : Receives configuration session message l w₁ w₂) :
      Receives configuration session message (a :: l) w w₂

/-- However many callbacks are processed, the row stands where the acknowledgements put it. -/
theorem Receives.standing {configuration : Configuration} {session : Uuid} {message : String}
    {l : List DeliveryAcknowledgement} {w w' : World}
    (h : Receives configuration session message l w w') {r : NotificationRecord}
    (hr : w.messageOf session message = some r) : ∃ r',
      w'.messageOf session message = some r' ∧ r'.standing = l.foldl Standing.receive r.standing := by
  induction h generalizing r with
  | finished w => exact ⟨r, hr, rfl⟩
  | meanwhile same _ ih =>
    rw [← messageOf_eq same] at hr
    exact ih hr
  | processed found receipt call _ ih =>
    obtain ⟨now, hnext⟩ := messageOf_process found receipt hr call
    obtain ⟨r', hr', hstanding⟩ := ih hnext
    exact ⟨r', hr', by rw [hstanding, standing_acknowledge, List.foldl_cons]⟩

/-- **Order of acknowledgements.** The number a sent notification ends with, and whether it failed,
do not depend on the order its acknowledgements are processed in. Nothing does, unless an error and
a delivering receipt contest the notification; then what precedes the first error decides. -/
theorem acknowledgement_order {configuration : Configuration} {session : Uuid} {message : String}
    {l l' : List DeliveryAcknowledgement} {w w₁ w' w₁' : World} {r : NotificationRecord}
    (hr : w.messageOf session message = some r) (hr' : w'.messageOf session message = some r)
    (hsent : r.status = .SENT) (h : Receives configuration session message l w w₁)
    (h' : Receives configuration session message l' w' w₁') (hl : l.Perm l') :
    ∃ s s', w₁.messageOf session message = some s ∧ w₁'.messageOf session message = some s' ∧
      s.providerAcknowledgement = s'.providerAcknowledgement ∧
      s.failedAt.isSome = s'.failedAt.isSome ∧
      (Standing.contested (currentAcknowledgement r) l = false → s.standing = s'.standing) ∧
      (Standing.contested (currentAcknowledgement r) l = true →
        s.status = (if Standing.reaches isDeliveredAcknowledgement (currentAcknowledgement r) l
          then .DELIVERED else .FAILED) ∧
        s.deliveredAt.isSome = (r.deliveredAt.isSome ||
          Standing.reaches isDeliveredAcknowledgement (currentAcknowledgement r) l) ∧
        s.readAt.isSome = (r.readAt.isSome ||
          Standing.reaches isReadAcknowledgement (currentAcknowledgement r) l)) := by
  obtain ⟨s, hs, hstanding⟩ := h.standing hr
  obtain ⟨s', hs', hstanding'⟩ := h'.standing hr'
  refine ⟨s, s', hs, hs', ?_, ?_, ?_, ?_⟩
  · have := Standing.acknowledgement_perm r.standing hl
    rw [← hstanding, ← hstanding'] at this
    exact this
  · have := Standing.hasFailed_perm r.standing hl
    rw [← hstanding, ← hstanding'] at this
    exact this
  · intro hc
    rw [hstanding, hstanding', Standing.receive_perm r.standing hl hc]
  · intro hc
    have hstatus := Standing.status_foldl r.standing l
    have hdelivered := Standing.isDelivered_foldl r.standing l
    have hread := Standing.isRead_foldl r.standing l
    rw [← hstanding] at hstatus hdelivered hread
    refine ⟨?_, hdelivered, hread⟩
    have hsent' : r.standing.status = .SENT := hsent
    rw [if_pos hsent', Standing.outcome] at hstatus
    simp only [Standing.contested, Bool.and_eq_true, decide_eq_true_eq,
      List.contains_iff_mem] at hc
    rw [if_pos (⟨hc.1.1, hc.1.2⟩ : r.standing.current ≠ .error ∧ .error ∈ l)] at hstatus
    exact hstatus

namespace Contest

def configuration : Configuration where
  maximumLifetimeHours := 24
  maximumConnectionWaitMinutes := 30
  stuckClaimTimeoutSeconds := 300
  restrictionFallbackPauseHours := 6
  simulateTyping := false

/-- A notification that was sent through connection 2. -/
def notification : NotificationRecord where
  id := 7
  applicationId := 1
  whatsAppSessionId := 2
  templateId := none
  status := .SENT
  recipientPhoneNumber := "+5511999990000"
  recipientChatIdentifier := some "5511999990000@c.us"
  renderedBody := "Your order has shipped."
  templateVariables := none
  priority := 0
  scheduledAt := none
  attemptCount := 1
  maximumAttempts := 5
  nextAttemptAt := none
  claimToken := none
  claimedAt := none
  providerMessageId := some "3EB0"
  providerAcknowledgement := 0
  sentAt := some 0
  deliveredAt := none
  readAt := none
  failedAt := none
  cancelledAt := none
  deadLetteredAt := none
  failureCode := none
  failureReason := none
  failureClassification := none
  retryOfNotificationId := none
  idempotencyKeyId := none
  correlationId := some "order"
  metadata := []
  createdAt := 0
  updatedAt := 0

/-- The callback for an acknowledgement of its message. -/
def delivery (id : Uuid) (acknowledgement : DeliveryAcknowledgement) : WebhookDeliveryRecord where
  id := id
  applicationId := 1
  whatsAppSessionId := 2
  providerEventId := s!"evt_{id}"
  eventType := "message.ack"
  providerSessionName := "main"
  payload := [("id", .string "true_5511999990000@c.us_3EB0"),
    ("ack", .number (.finite acknowledgement.value)), ("fromMe", .bool true)]
  receivedAt := 0
  processedAt := none
  processingAttempts := 0
  outcome := none
  outcomeDetail := none

def world : World := { World.empty with
  notifications := ⟨[notification], List.nodup_singleton _⟩
  webhookDeliveries := ⟨[delivery 11 .server, delivery 12 .device, delivery 13 .error], by decide⟩ }

/-- The choices of one call. The connection's limits are doubted on an error, and the row is only
written if the acknowledgement advances it. -/
def choices (a : DeliveryAcknowledgement) (advances : Bool) : List Choice :=
  .nothing :: (if isFailureAcknowledgement a then [.nothing] else []) ++ .nothing ::
    (if advances then [.date 0, .nothing] else []) ++ [.date 0, .nothing]

/-- What one call of `process` leaves. -/
def processed (w : World) (deliveryId : Uuid) (a : DeliveryAcknowledgement) (advances : Bool) :
    World :=
  (((process configuration deliveryId).runs exec (choices a advances) w).map (·.2)).getD w

theorem receives_processed {l : List DeliveryAcknowledgement} {w w' : World} {deliveryId : Uuid}
    {a : DeliveryAcknowledgement} {advances : Bool}
    (hd : w.webhookDeliveries.find? deliveryId = some (delivery deliveryId a))
    (ha : toProviderEvent (storedEnvelope (delivery deliveryId a)) =
      .message_acknowledgement "3EB0" a true)
    (hruns : ((process configuration deliveryId).runs exec (choices a advances) w).isSome = true)
    (rest : Receives configuration 2 "3EB0" l (processed w deliveryId a advances) w') :
    Receives configuration 2 "3EB0" (a :: l) w w' := by
  obtain ⟨⟨result, w₁⟩, hw₁⟩ := Option.isSome_iff_exists.1 hruns
  have hnext : processed w deliveryId a advances = w₁ := by simp [processed, hw₁]
  rw [hnext] at rest
  exact .processed hd ⟨rfl, rfl, ha⟩ hw₁ rest

def serverFirst : World := processed (processed world 11 .server true) 12 .device true

def deviceFirst : World := processed (processed world 12 .device true) 11 .server false

def errorLast : World := processed (processed world 12 .device true) 13 .error true

def errorFirst : World := processed (processed world 13 .error true) 12 .device false

end Contest

/-- Received and delivered, in both orders. -/
theorem acknowledgement_order_receipts : ∃ s s',
    Contest.serverFirst.messageOf 2 "3EB0" = some s ∧
      Contest.deviceFirst.messageOf 2 "3EB0" = some s' ∧
      s.standing = s'.standing := by
  have h : Receives Contest.configuration 2 "3EB0" [.server, .device] Contest.world
      Contest.serverFirst :=
    Contest.receives_processed rfl (by decide +kernel) (by decide +kernel)
      (Contest.receives_processed rfl (by decide +kernel) (by decide +kernel) (.finished _))
  have h' : Receives Contest.configuration 2 "3EB0" [.device, .server] Contest.world
      Contest.deviceFirst :=
    Contest.receives_processed rfl (by decide +kernel) (by decide +kernel)
      (Contest.receives_processed rfl (by decide +kernel) (by decide +kernel) (.finished _))
  obtain ⟨s, s', hs, hs', -, -, heq, -⟩ := acknowledgement_order
    (show Contest.world.messageOf 2 "3EB0" = some Contest.notification from rfl) rfl rfl h h'
    (.swap _ _ _)
  exact ⟨s, s', hs, hs', heq (by decide)⟩

/-- Delivered and failed: the order decides the status, and which of the two dates are set. -/
theorem acknowledgement_order_matters : ∃ configuration session message l l' w w₁ w₁' r s s',
    World.messageOf w session message = some r ∧ r.status = .SENT ∧
      Receives configuration session message l w w₁ ∧
      Receives configuration session message l' w w₁' ∧ l.Perm l' ∧
      w₁.messageOf session message = some s ∧ w₁'.messageOf session message = some s' ∧
      s.status = .DELIVERED ∧ s'.status = .FAILED ∧
      s.deliveredAt.isSome = true ∧ s'.deliveredAt.isSome = false := by
  refine ⟨Contest.configuration, 2, "3EB0", [.device, .error], [.error, .device], Contest.world,
    Contest.errorLast, Contest.errorFirst, Contest.notification,
    (Contest.errorLast.messageOf 2 "3EB0").getD Contest.notification,
    (Contest.errorFirst.messageOf 2 "3EB0").getD Contest.notification,
    rfl, rfl, ?_, ?_, .swap _ _ _, rfl, rfl, ?_⟩
  · exact Contest.receives_processed rfl (by decide +kernel) (by decide +kernel)
      (Contest.receives_processed rfl (by decide +kernel) (by decide +kernel) (.finished _))
  · exact Contest.receives_processed rfl (by decide +kernel) (by decide +kernel)
      (Contest.receives_processed rfl (by decide +kernel) (by decide +kernel) (.finished _))
  · decide +kernel

end NotificationPlatform
