import NotificationPlatform.PublicApi.Creations
import NotificationPlatform.PublicApi.NotificationQuery

/-!
# Serving one application

The requests a tenant can make, and what all of them keep to: a request works for one application, in
one transaction at a time that is scoped to it, and it completes no key but the one it claimed and
enqueues no notification but those it wrote.
-/

namespace NotificationPlatform

namespace PublicApi

open Interleaving CreateNotificationService
open Utf16 (Text)

/-! ## The requests -/

inductive TenantRequest where
  | creation (request : CreationRequest)
  | getOrFail (applicationId notificationId : Uuid)
  | listEvents (applicationId notificationId : Uuid)
  | list (applicationId : Uuid) (query : NotificationQueryService.NotificationListQuery)
  | cancel (correlationId : Option CorrelationId) (applicationId notificationId : Uuid)
  | cancelWaiting (correlationId : Option CorrelationId) (applicationId : Uuid)
      (whatsAppSessionId : Option Uuid)

inductive TenantResult where
  | creation (result : CreationResult)
  | notification (result : Except RequestError NotificationRecord)
  | events (result : Except RequestError (List NotificationEventRecord))
  | page (result : Except RequestError NotificationQueryService.NotificationListResult)
  | cancelledWaiting (result : Except RequestError Nat)

namespace TenantRequest

/-- Whose request it is. -/
def applicationId : TenantRequest → Uuid
  | creation request => request.input.applicationId
  | getOrFail a _ | listEvents a _ | list a _ | cancel _ a _ | cancelWaiting _ a _ => a

def program (environment : Environment) (hmac : List UInt8 → List UInt8) :
    TenantRequest → Prog operations TenantResult
  | creation request => .creation <$> request.program environment
  | getOrFail a n => .notification <$> (NotificationQueryService.getOrFail a n).run
  | listEvents a n => .events <$> (NotificationQueryService.listEvents a n).run
  | list a query => .page <$> (NotificationQueryService.list hmac a query).run
  | cancel correlationId a n =>
    .notification <$> (NotificationQueryService.cancel correlationId a n).run
  | cancelWaiting correlationId a s =>
    .cancelledWaiting <$> (NotificationQueryService.cancelWaiting correlationId a s).run

end TenantRequest

/-! ## What they keep to -/

/-- Whom a request serves, the identifiers it has drawn, the transaction it is in, the claim it holds
there, and the notifications it has written. -/
structure Serving where
  applicationId : Uuid
  generated : List Uuid := []
  transaction : Option Nat := none
  claim : Option (Uuid × Uuid) := none
  written : List Uuid := []

namespace Serving

/-- The request is in transaction `t`. -/
def In (q : Serving) (a : Uuid) (t : Nat) : Prop := q.applicationId = a ∧ q.transaction = some t

/-- The claim is the request's own, or that of a key that was deleted meanwhile: its lock token
stands for its identifier. -/
def Owns (q : Serving) (id lockToken : Uuid) : Prop :=
  q.claim = some (id, lockToken) ∨ id = lockToken

def Allows (q : Serving) : Op → Prop
  | .clockNow | .generate => True
  | .begin a => q.transaction = none ∧ a = some q.applicationId
  | .commit t | .rollback t => q.transaction = some t
  | .listForApplication t a | .findSessionById t a _ | .findByKey t a _
  | .findNotificationById t a _ | .listEvents t a _ | .listNotifications t a _ _ _ => q.In a t
  | .insertClaim t input => q.In input.applicationId t ∧ input.lockToken ∈ q.generated
  | .complete t input => q.transaction = some t ∧ q.Owns input.id input.lockToken
  | .insertNotification t draft => q.In draft.applicationId t
  | .appendEvents t inputs => q.transaction = some t ∧ ∀ e ∈ inputs, e.applicationId = q.applicationId
  | .enqueueDispatch t job => q.In job.applicationId t ∧ job.notificationId ∈ q.written
  | .applyTransition t input => q.In input.applicationId t
  | .cancelWaiting t input => q.In input.applicationId t
  | .findSessionByIdWithoutTenantScope _ | .recordDelivery _ _ | .enqueueWebhookProcess _ _ => False

def advance (q : Serving) : (o : Op) → o.Ret → Serving
  | .generate, id => { q with generated := id :: q.generated }
  | .begin _, t => { q with transaction := some t, claim := none, written := [] }
  | .insertClaim _ _, some claim => { q with claim := some claim }
  | .insertNotification _ draft, _ => { q with written := draft.id :: q.written }
  | .commit _, _ | .rollback _, _ => { q with transaction := none }
  | _, _ => q

/-- The statements of its transaction, whatever application they name. A key is claimed under a lock
token that was drawn for it, and the queue has no policy. -/
def Walled (q : Serving) : Op → Prop
  | .listForApplication t _ | .findSessionById t _ _ | .findByKey t _ _
  | .findNotificationById t _ _ | .listEvents t _ _ | .listNotifications t _ _ _ _
  | .complete t _ | .insertNotification t _ | .appendEvents t _ | .applyTransition t _
  | .cancelWaiting t _ => q.transaction = some t
  | .insertClaim t input => q.transaction = some t ∧ input.lockToken ∈ q.generated
  | _ => False

/-- What a request may do, with the policies in force or without them. -/
def Permits (policies : Bool) (q : Serving) (o : Op) : Prop :=
  q.Allows o ∨ (policies = true ∧ q.Walled o)

/-- Before the transaction, or after it. -/
def Idle (q : Serving) (a : Uuid) : Prop := q.applicationId = a ∧ q.transaction = none

end Serving

@[reducible] def servingTypestate : Typestate operations where
  Phase := Serving
  Allows := Serving.Allows
  advance := Serving.advance

/-- Nothing is known of the answers. -/
def AnyAnswer (o : Op) (_ : o.Ret) : Prop := True

/-- The program serves its application and ends as `Q` says. -/
abbrev Serves {α : Type} (q : Serving) (p : Prog operations α) (Q : Serving → α → Prop) : Prop :=
  Conforms servingTypestate AnyAnswer q p Q

section Conformance

variable {q : Serving} {a : Uuid} {t : Nat}

theorem serves_map {α β : Type} {p : Prog operations α} {f : α → β} {Q : Serving → β → Prop}
    (h : Serves q p fun q' x => Q q' (f x)) : Serves q (f <$> p) Q :=
  Interleaving.conforms_bind.2 (h.mono fun _ _ hq => hq)

/-! ### Transactions -/

theorem serves_withTenantScope {α : Type} {work : Nat → Service α} (h : q.Idle a)
    (hwork : ∀ t q', q'.In a t → Serves q' (work t).run fun q'' _ => q''.In a t) :
    Serves q (withTenantScope a work).run fun q' _ => q'.Idle a := by
  obtain ⟨rfl, htransaction⟩ := h
  refine ⟨⟨htransaction, rfl⟩, fun t _ => ?_⟩
  have hin : (q.advance (.begin (some q.applicationId)) t).In q.applicationId t := ⟨rfl, rfl⟩
  refine Raising.conforms_bind.2 (Interleaving.conforms_bind.2 ((hwork t _ hin).mono
    fun q' r hq' => ?_))
  cases r with
  | ok x => exact ⟨hq'.2, fun _ _ => ⟨hq'.1, rfl⟩⟩
  | error e => exact ⟨hq'.2, fun _ _ => ⟨hq'.1, rfl⟩⟩

/-! ### The steps of a creation -/

theorem serves_assertSchedule (input : NotificationRequest) (now : Date) :
    Serves q (assertScheduleIsInTheFuture input now).run fun q' _ => q' = q := by
  unfold assertScheduleIsInTheFuture
  split <;> rfl

theorem serves_parseRecipient (value : String) :
    Serves q (parseRecipient value).run fun q' _ => q' = q := by
  unfold parseRecipient
  split <;> rfl

theorem serves_resolveCorrelationId (correlationId : Option CorrelationId) (h : q.Idle a) :
    Serves q (resolveCorrelationId correlationId).run fun q' _ => q'.Idle a := by
  cases correlationId with
  | none => exact ⟨trivial, fun _ _ => h⟩
  | some correlationId => exact h

theorem serves_numberRecipients (values : List String) (h : q.Idle a) :
    Serves q (numberRecipients values).run fun q' _ => q'.Idle a := by
  induction values generalizing q with
  | nil => exact h
  | cons value rest ih =>
    refine ⟨trivial, fun id _ => ?_⟩
    refine Raising.conforms_bind.2 ((serves_parseRecipient value).mono fun q' r hq' => ?_)
    subst hq'
    cases r with
    | error e => exact h
    | ok recipient =>
      refine Raising.conforms_bind.2 ((ih (q := { q with generated := id :: q.generated }) h).mono
        fun q'' r' hq'' => ?_)
      cases r' <;> exact hq''

theorem serves_resolveSession (h : q.In a t) (s : Option Text) :
    Serves q (resolveSession t a s).run fun q' _ => q' = q := by
  rw [resolveSession, perform, Raising.run_call_bind]
  refine ⟨h, fun sessions _ => ?_⟩
  cases s with
  | none =>
    dsimp only
    cases chooseSession sessions <;> rfl
  | some s =>
    dsimp only
    cases sessions.find? fun x => Utf16.ofString (uuidText x.id) = s <;> rfl

/-- A claim that is not another's is owned. -/
theorem serves_claimIdempotencyKey (input : NotificationRequest) (h : q.In input.applicationId t)
    (fingerprint : Buffer) (now : Date) :
    Serves q (claimIdempotencyKey t input fingerprint now).run fun q' r =>
      q'.In input.applicationId t ∧ ∀ id lockToken, r = .ok (.fresh (some id) lockToken) →
        q'.Owns id lockToken := by
  refine ⟨trivial, fun token _ => ?_⟩
  cases hkey : input.idempotencyKey with
  | none => exact ⟨h, by rintro _ _ ⟨⟩⟩
  | some key =>
    refine ⟨⟨h, List.mem_cons_self⟩, fun claimed _ => ?_⟩
    cases claimed with
    | some claim =>
      refine ⟨h, ?_⟩
      rintro _ _ ⟨⟩
      exact .inl rfl
    | none =>
      refine ⟨h, fun existing _ => ?_⟩
      cases existing with
      | none =>
        refine ⟨h, ?_⟩
        rintro _ _ ⟨⟩
        exact .inr rfl
      | some record =>
        change Serves { q with generated := token :: q.generated } (readClaim record fingerprint).run _
        unfold readClaim
        split
        · exact ⟨h, by rintro _ _ ⟨⟩⟩
        · split
          · exact ⟨h, by rintro _ _ ⟨⟩⟩
          · exact ⟨h, by rintro _ _ ⟨⟩⟩

/-- The request is in its transaction, with the claim it had. -/
def Serving.Still (q q' : Serving) (a : Uuid) (t : Nat) : Prop :=
  q'.In a t ∧ q'.claim = q.claim

theorem serves_writeNotification (h : q.In a t) {draft : InsertNotificationInput}
    (happ : draft.applicationId = a) :
    Serves q (CreateNotificationService.writeNotification t draft).run fun q' _ => q.Still q' a t := by
  subst happ
  refine ⟨h, fun _ _ => ⟨⟨h.2, ?_⟩, fun _ _ => ⟨⟨h, List.mem_cons_self⟩, fun _ _ => ⟨h, rfl⟩⟩⟩⟩
  intro e he
  rw [List.mem_singleton.1 he]
  exact h.1.symm

theorem serves_writeNotifications (h : q.In a t) {drafts : List InsertNotificationInput}
    (happ : ∀ d ∈ drafts, d.applicationId = a) :
    Serves q (writeNotifications t drafts).run fun q' _ => q.Still q' a t := by
  induction drafts generalizing q with
  | nil => exact ⟨h, rfl⟩
  | cons d rest ih =>
    refine Raising.conforms_bind.2 ((serves_writeNotification h
      (happ d List.mem_cons_self)).mono fun q' r hq' => ?_)
    cases r with
    | error e => exact hq'
    | ok _ =>
      refine (ih hq'.1 fun d hd => happ d (List.mem_cons_of_mem _ hd)).mono fun q'' _ hq'' => ?_
      exact ⟨hq''.1, hq''.2.trans hq'.2⟩

theorem serves_completeKey (h : q.In a t) {idempotencyKeyId : Option Uuid} {lockToken : Uuid}
    (howns : ∀ id ∈ idempotencyKeyId, q.Owns id lockToken) (responseBody : ResponseBody)
    (resourceId : Option Uuid) (now : Date) :
    Serves q (completeKey t idempotencyKeyId lockToken responseBody resourceId now).run
      fun q' _ => q' = q := by
  cases idempotencyKeyId with
  | none => rfl
  | some id => exact ⟨⟨h.2, howns id rfl⟩, fun _ _ => rfl⟩

theorem serves_readOrFail (h : q.In a t) (n : Uuid) :
    Serves q (CreateNotificationService.readOrFail t a n).run fun q' _ => q' = q := by
  refine ⟨h, fun found _ => ?_⟩
  cases found <;> rfl

theorem serves_readAllOrFail (h : q.In a t) (ids : List Uuid) :
    Serves q (readAllOrFail t a ids).run fun q' _ => q' = q := by
  induction ids with
  | nil => rfl
  | cons n rest ih =>
    refine Raising.conforms_bind.2 ((serves_readOrFail h n).mono fun q' r hq' => ?_)
    subst hq'
    cases r with
    | error e => rfl
    | ok notification =>
      refine Raising.conforms_bind.2 (ih.mono fun q'' r' hq'' => ?_)
      subst hq''
      cases r' <;> rfl

/-! ### The requests -/

variable (environment : Environment)

theorem serves_createWork {input : CreateNotificationInput} (h : q.In input.applicationId t)
    (recipient : String) (now : Date) (correlationId : CorrelationId) (notificationId : Uuid) :
    Serves q (createWork environment input recipient now correlationId notificationId t).run
      fun q' _ => q'.In input.applicationId t := by
  refine Raising.conforms_bind.2 ((serves_resolveSession h _).mono fun q₁ session h₁ => ?_)
  subst h₁
  cases session with
  | error e => exact h
  | ok session =>
    refine Raising.conforms_bind.2 ((serves_claimIdempotencyKey
      input.toNotificationRequest h _ now).mono fun q₂ claim h₂ => ?_)
    obtain ⟨hin, howns⟩ := h₂
    cases claim with
    | error e => exact hin
    | ok claim =>
      cases claim with
      | completed resourceId _ =>
        cases resourceId with
        | none => exact hin
        | some resourceId =>
          refine Raising.conforms_bind.2 ((serves_readOrFail hin resourceId).mono
            fun q₃ r h₃ => ?_)
          subst h₃
          cases r <;> exact hin
      | fresh idempotencyKeyId lockToken =>
        refine Raising.conforms_bind.2 ((serves_writeNotification hin rfl).mono fun q₃ r h₃ => ?_)
        cases r with
        | error e => exact h₃.1
        | ok _ =>
          refine Raising.conforms_bind.2 ((serves_completeKey h₃.1 ?_ _ _ now).mono
            fun q₄ r h₄ => ?_)
          · rintro id rfl
            rw [Serving.Owns, h₃.2]
            exact howns id lockToken rfl
          subst h₄
          cases r with
          | error e => exact h₃.1
          | ok _ =>
            refine Raising.conforms_bind.2 ((serves_readOrFail h₃.1 notificationId).mono
              fun q₅ r h₅ => ?_)
            subst h₅
            cases r <;> exact h₃.1

theorem serves_create {input : CreateNotificationInput} (correlationId : Option CorrelationId)
    (h : q.Idle input.applicationId) :
    Serves q (create environment correlationId input).run fun q' _ =>
      q'.Idle input.applicationId := by
  refine Raising.conforms_bind.2 ((serves_parseRecipient _).mono fun q₁ r h₁ => ?_)
  subst h₁
  cases r with
  | error e => exact h
  | ok recipient =>
    refine ⟨trivial, fun now _ => ?_⟩
    refine Raising.conforms_bind.2 ((serves_assertSchedule _ now).mono fun q₂ r h₂ => ?_)
    subst h₂
    cases r with
    | error e => exact h
    | ok _ =>
      refine Raising.conforms_bind.2 ((serves_resolveCorrelationId correlationId h).mono
        fun q₃ r h₃ => ?_)
      cases r with
      | error e => exact h₃
      | ok correlationId =>
        refine ⟨trivial, fun notificationId _ => ?_⟩
        exact serves_withTenantScope h₃ fun t q' hin =>
          serves_createWork environment hin recipient now correlationId notificationId

theorem serves_createBatchWork {input : CreateNotificationBatchInput}
    (h : q.In input.applicationId t) (drafts : List (Uuid × String)) (now : Date)
    (correlationId : CorrelationId) :
    Serves q (createBatchWork environment input drafts now correlationId t).run
      fun q' _ => q'.In input.applicationId t := by
  refine Raising.conforms_bind.2 ((serves_resolveSession h _).mono fun q₁ session h₁ => ?_)
  subst h₁
  cases session with
  | error e => exact h
  | ok session =>
    refine Raising.conforms_bind.2 ((serves_claimIdempotencyKey
      input.toNotificationRequest h _ now).mono fun q₂ claim h₂ => ?_)
    obtain ⟨hin, howns⟩ := h₂
    cases claim with
    | error e => exact hin
    | ok claim =>
      cases claim with
      | completed _ responseBody =>
        cases hids : responseBody.bind (·.notificationIds) with
        | none =>
          simp only [Raising.andThen, readBatchNotificationIds, hids]
          exact hin
        | some ids =>
          simp only [Raising.andThen, readBatchNotificationIds, hids]
          rw [Raising.run_pure_bind]
          refine Raising.conforms_bind.2 ((serves_readAllOrFail hin ids).mono fun q₃ r h₃ => ?_)
          subst h₃
          cases r <;> exact hin
      | fresh idempotencyKeyId lockToken =>
        refine Raising.conforms_bind.2 ((serves_writeNotifications hin ?_).mono fun q₃ r h₃ => ?_)
        · intro d hd
          obtain ⟨d', -, rfl⟩ := List.mem_map.1 hd
          rfl
        cases r with
        | error e => exact h₃.1
        | ok _ =>
          refine Raising.conforms_bind.2 ((serves_completeKey h₃.1 ?_ _ _ now).mono
            fun q₄ r h₄ => ?_)
          · rintro id rfl
            rw [Serving.Owns, h₃.2]
            exact howns id lockToken rfl
          subst h₄
          cases r with
          | error e => exact h₃.1
          | ok _ =>
            refine Raising.conforms_bind.2 ((serves_readAllOrFail h₃.1 _).mono fun q₅ r h₅ => ?_)
            subst h₅
            cases r <;> exact h₃.1

theorem serves_createBatch {input : CreateNotificationBatchInput}
    (correlationId : Option CorrelationId) (h : q.Idle input.applicationId) :
    Serves q (createBatch environment correlationId input).run fun q' _ =>
      q'.Idle input.applicationId := by
  refine Raising.conforms_bind.2 ((serves_numberRecipients _ h).mono fun q₁ r h₁ => ?_)
  cases r with
  | error e => exact h₁
  | ok drafts =>
    refine ⟨trivial, fun now _ => ?_⟩
    refine Raising.conforms_bind.2 ((serves_assertSchedule _ now).mono fun q₂ r h₂ => ?_)
    subst h₂
    cases r with
    | error e => exact h₁
    | ok _ =>
      refine Raising.conforms_bind.2 ((serves_resolveCorrelationId correlationId h₁).mono
        fun q₃ r h₃ => ?_)
      cases r with
      | error e => exact h₃
      | ok correlationId =>
        exact serves_withTenantScope h₃ fun t q' hin =>
          serves_createBatchWork environment hin drafts now correlationId

namespace NotificationQueryService

theorem serves_readOrFail (h : q.In a t) (n : Uuid) :
    Serves q (NotificationQueryService.readOrFail t a n).run fun q' _ => q' = q := by
  refine ⟨h, fun found _ => ?_⟩
  cases found <;> rfl

theorem serves_getOrFail (h : q.Idle a) (n : Uuid) :
    Serves q (getOrFail a n).run fun q' _ => q'.Idle a :=
  serves_withTenantScope h fun _ _ hin => (serves_readOrFail hin n).mono fun _ _ hq =>
    hq.symm ▸ hin

theorem serves_listEvents (h : q.Idle a) (n : Uuid) :
    Serves q (listEvents a n).run fun q' _ => q'.Idle a := by
  refine serves_withTenantScope h fun t q' hin => ?_
  refine Raising.conforms_bind.2 ((serves_readOrFail hin n).mono fun q'' r hq => ?_)
  subst hq
  cases r with
  | error e => exact hin
  | ok _ => exact ⟨hin, fun _ _ => hin⟩

theorem serves_list (hmac : List UInt8 → List UInt8) (h : q.Idle a) (query : NotificationListQuery) :
    Serves q (list hmac a query).run fun q' _ => q'.Idle a := by
  unfold list
  cases NotificationPlatform.NotificationQueryService.decodeCursor hmac query.cursor with
  | error e => exact h
  | ok cursor =>
    dsimp only
    rw [Raising.run_pure_bind]
    refine Raising.conforms_bind.2 ((serves_withTenantScope h fun t q' hin => ?_).mono
      fun q' r hq => ?_)
    · unfold position
      cases cursor with
      | none => exact ⟨hin, fun _ _ => hin⟩
      | some payload =>
        dsimp only
        cases position? payload with
        | none => exact hin
        | some cursor => exact ⟨hin, fun _ _ => hin⟩
    · cases r <;> exact hq

theorem serves_cancel (correlationId : Option CorrelationId) (h : q.Idle a) (n : Uuid) :
    Serves q (cancel correlationId a n).run fun q' _ => q'.Idle a := by
  refine serves_withTenantScope h fun t q' hin => ?_
  refine Raising.conforms_bind.2 ((serves_readOrFail hin n).mono fun q'' r hq => ?_)
  subst hq
  cases r with
  | error e => exact hin
  | ok existing =>
    dsimp only [Raising.andThen]
    split
    · refine ⟨trivial, fun now _ => ⟨hin, fun cancelled _ => ?_⟩⟩
      cases cancelled with
      | none => exact hin
      | some cancelled =>
        refine ⟨⟨hin.2, fun e he => ?_⟩, fun _ _ => hin⟩
        rw [List.mem_singleton.1 he]
        exact hin.1.symm
    · exact hin

theorem serves_assertSessionExists (h : q.In a t) (s : Option Uuid) :
    Serves q (assertSessionExists t a s).run fun q' _ => q' = q := by
  cases s with
  | none => rfl
  | some s =>
    refine ⟨h, fun session _ => ?_⟩
    cases session <;> rfl

theorem serves_cancelWaiting (correlationId : Option CorrelationId) (h : q.Idle a)
    (s : Option Uuid) :
    Serves q (cancelWaiting correlationId a s).run fun q' _ => q'.Idle a := by
  refine serves_withTenantScope h fun t q' hin => ?_
  refine Raising.conforms_bind.2 ((serves_assertSessionExists hin s).mono fun q'' r hq => ?_)
  subst hq
  cases r with
  | error e => exact hin
  | ok _ =>
    refine ⟨trivial, fun now _ => ⟨hin, fun cancelled _ => ⟨⟨hin.2, fun e he => ?_⟩,
      fun _ _ => hin⟩⟩⟩
    obtain ⟨n, -, rfl⟩ := List.mem_map.1 he
    exact hin.1.symm

end NotificationQueryService

/-- Every request serves its application. -/
theorem serves_program (hmac : List UInt8 → List UInt8) (request : TenantRequest) :
    Serves { applicationId := request.applicationId } (request.program environment hmac)
      fun q _ => q.Idle request.applicationId := by
  have hidle : Serving.Idle { applicationId := request.applicationId } request.applicationId :=
    ⟨rfl, rfl⟩
  cases request with
  | creation request =>
    refine serves_map ?_
    cases request with
    | create correlationId input =>
      exact serves_map (serves_create environment correlationId hidle)
    | createBatch correlationId input =>
      exact serves_map (serves_createBatch environment correlationId hidle)
  | getOrFail a n => exact serves_map (NotificationQueryService.serves_getOrFail hidle n)
  | listEvents a n => exact serves_map (NotificationQueryService.serves_listEvents hidle n)
  | list a query => exact serves_map (NotificationQueryService.serves_list hmac hidle query)
  | cancel correlationId a n =>
    exact serves_map (NotificationQueryService.serves_cancel correlationId hidle n)
  | cancelWaiting correlationId a s =>
    exact serves_map (NotificationQueryService.serves_cancelWaiting correlationId hidle s)

end Conformance

end PublicApi

end NotificationPlatform
