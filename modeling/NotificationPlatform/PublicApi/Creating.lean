import NotificationPlatform.PublicApi.Commits
import NotificationPlatform.PublicApi.Creations

/-!
# How far a creation is

A request reads the clock and draws identifiers, begins its transaction and claims its key. If the
key is its own it writes, completes the key and commits. If not, it answers what the row of the key
says, or rolls back.
-/

namespace NotificationPlatform

namespace PublicApi

open Interleaving Relational Transactional CreateNotificationService
open Utf16 (Text)

/-! ## Rows of a key -/

/-- The row is of the request's key. -/
def IdempotencyRecord.IsOf (k : IdempotencyRecord) (request : NotificationRequest) : Prop :=
  k.applicationId = request.applicationId ∧
    ∃ text, request.idempotencyKey = some text ∧ textColumn text = some k.key

/-- What a completion records of the notifications that were created: a single request's as the
resource, a batch's in the body. -/
def Records (resourceId : Option Uuid) (responseBody : Option ResponseBody) (ids : List Uuid) :
    Prop :=
  (∃ n, ids = [n] ∧ resourceId = some n ∧ responseBody = some { id := some n }) ∨
    (resourceId = none ∧ responseBody = some { notificationIds := some ids })

/-- The row is completed, and records the notifications. -/
def IdempotencyRecord.Completes (k : IdempotencyRecord) (ids : List Uuid) : Prop :=
  k.state = .COMPLETED ∧ Records k.resourceId k.responseBody ids

/-- What a replay reads of the row, whichever kind of request it is. -/
def IdempotencyRecord.Replays (k : IdempotencyRecord) (ids : List Uuid) : Prop :=
  (∃ n, ids = [n] ∧ k.resourceId = some n) ∨ k.responseBody.bind (·.notificationIds) = some ids

/-- A replay reads what was recorded. -/
theorem IdempotencyRecord.Completes.replays {k : IdempotencyRecord} {ids ids' : List Uuid}
    (h : k.Completes ids) (h' : k.Replays ids') : ids' = ids := by
  obtain ⟨-, ⟨n, rfl, hresource, hbody⟩ | ⟨hresource, hbody⟩⟩ := h
  · rcases h' with ⟨n', rfl, hn⟩ | hids
    · cases hresource.symm.trans hn
      rfl
    · rw [hbody] at hids
      cases hids
  · rcases h' with ⟨n', rfl, hn⟩ | hids
    · cases hresource.symm.trans hn
    · rw [hbody] at hids
      exact (Option.some.inj hids).symm

/-! ## Stages -/

namespace CreationRequest

def recipients : CreationRequest → List String
  | create _ input => [input.recipient]
  | createBatch _ input => input.recipients

/-- The claim is of the request's key, for the request as it is. -/
def Claims (environment : Environment) (request : CreationRequest)
    (input : IdempotencyClaimInput) : Prop :=
  input.applicationId = request.input.applicationId ∧
    request.input.idempotencyKey = some input.key ∧
    input.requestFingerprint = request.fingerprint environment

/-- The notification is one the request asks for. -/
def Drafts (request : CreationRequest) (draft : InsertNotificationInput) : Prop :=
  draft.applicationId = request.input.applicationId ∧
    ∀ requested ∈ request.input.whatsAppSessionId,
      Utf16.ofString (uuidText draft.whatsAppSessionId) = requested

/-- The notifications are for the recipients, in order. -/
def Addresses (request : CreationRequest) (drafts : List InsertNotificationInput) : Prop :=
  List.Forall₂ (fun value d => parsePhoneNumber value = some d.recipientPhoneNumber)
    request.recipients drafts

end CreationRequest

/-- How far a request is. Before its transaction it is idle. In it, it has claimed nothing yet, has
found its key taken, has read a row it is refused for or one it replays, is writing, or has
completed its key; `lost` is a key that was taken and could not be found. At the end it has created
or replayed its notifications, or has given up. A claim is the identifier and the lock token of the
row; a request without a key has none. -/
inductive CreatingStage where
  | idle
  | begun (transaction : Nat)
  | taken (transaction : Nat)
  | lost (transaction : Nat)
  | refused (transaction : Nat)
  | replaying (transaction : Nat) (record : IdempotencyRecord)
  | writing (transaction : Nat) (claim : Option (Uuid × Uuid))
      (written : List InsertNotificationInput)
  | completed (transaction : Nat) (claim : Uuid × Uuid) (written : List InsertNotificationInput)
  | created (claim : Option (Uuid × Uuid)) (written : List InsertNotificationInput)
  | replayed (record : IdempotencyRecord)
  | abandoned

/-- A request, its stage, and the notifications it has read. -/
structure Creating where
  request : CreationRequest
  stage : CreatingStage := .idle
  found : List NotificationRecord := []

namespace Creating

variable (environment : Environment)

def Allows (q : Creating) (o : Op) : Prop :=
  match q.stage, o with
  | .lost _, _ => True
  | .idle, .clockNow | .idle, .generate => True
  | .idle, .begin a => a = some q.request.input.applicationId
  | .begun _, .generate => True
  | .begun t, .listForApplication t' _ => t' = t
  | .begun t, .insertClaim t' input => t' = t ∧ q.request.Claims environment input
  | .taken t, .findByKey t' a text =>
    t' = t ∧ a = q.request.input.applicationId ∧ q.request.input.idempotencyKey = some text
  | .replaying t _, .findNotificationById t' _ _ | .replaying t _, .commit t' => t' = t
  | .writing t _ _, .insertNotification t' d => t' = t ∧ q.request.Drafts d
  | .writing t _ written, .appendEvents t' inputs =>
    t' = t ∧ ∃ d ∈ written, inputs = [createdEvent d]
  | .writing t _ written, .enqueueDispatch t' job => t' = t ∧ ∃ d ∈ written, job = firstJob d
  | .writing t (some claim) written, .complete t' input =>
    t' = t ∧ input.id = claim.1 ∧ input.lockToken = claim.2 ∧
      Records input.resourceId (some input.responseBody) (written.map (·.id))
  | .writing t none _, .findNotificationById t' _ _ => t' = t
  | .completed t _ _, .findNotificationById t' _ _ => t' = t
  | .writing t none written, .commit t' | .completed t _ written, .commit t' =>
    t' = t ∧ q.request.Addresses written
  | .begun t, .rollback t' | .refused t, .rollback t' | .replaying t _, .rollback t' => t' = t
  | .writing t _ _, .rollback t' | .completed t _ _, .rollback t' => t' = t
  | _, _ => False

/-- The stage a request is in after it performed `o` and was answered `r`. -/
def next (request : CreationRequest) (stage : CreatingStage) (o : Op) (r : o.Ret) :
    CreatingStage :=
  match stage, o, r with
  | .idle, .begin _, t => .begun t
  | .begun t, .generate, _ =>
    if request.input.idempotencyKey.isNone then .writing t none [] else .begun t
  | .begun t, .insertClaim _ _, some claim => .writing t (some claim) []
  | .begun t, .insertClaim _ _, none => .taken t
  | .taken t, .findByKey _ _ _, none => .lost t
  | .taken t, .findByKey _ _ _, some record =>
    if record.requestFingerprint = request.fingerprint environment ∧ record.state = .COMPLETED then
      .replaying t record
    else .refused t
  | .replaying _ record, .commit _, _ => .replayed record
  | .writing t claim written, .insertNotification _ d, _ => .writing t claim (written ++ [d])
  | .writing t (some claim) written, .complete _ _, _ => .completed t claim written
  | .writing _ claim written, .commit _, _ => .created claim written
  | .completed _ claim written, .commit _, _ => .created (some claim) written
  | .begun _, .rollback _, _ | .refused _, .rollback _, _ => .abandoned
  | .replaying _ _, .rollback _, _ | .writing _ _ _, .rollback _, _ => .abandoned
  | .completed _ _ _, .rollback _, _ => .abandoned
  | stage, _, _ => stage

/-- What an answer adds to the notifications that were read. -/
def reads : (o : Op) → o.Ret → List NotificationRecord
  | .findNotificationById _ _ _, r => r.toList
  | _, _ => []

def advance (q : Creating) (o : Op) (r : o.Ret) : Creating :=
  { q with
    stage := next environment q.request q.stage o r
    found := q.found ++ reads o r }

end Creating

/-- What is known of the answers. -/
def CreatingAnswers : (o : Op) → o.Ret → Prop
  | .findNotificationById _ _ n, some r => r.id = n
  | _, _ => True

@[reducible] def creatingTypestate (environment : Environment) : Typestate operations where
  Phase := Creating
  Allows := Creating.Allows environment
  advance := Creating.advance environment

/-- How a request has ended that answered with these notifications, replayed or not, or with an
error. -/
def Creating.Answers (q : Creating)
    (answer : Except RequestError (List NotificationRecord × Bool)) : Prop :=
  (∃ t, q.stage = .lost t) ∨ match answer with
  | .ok (notifications, false) => q.found = notifications ∧ ∃ claim written,
    q.stage = .created claim written ∧ notifications.map (·.id) = written.map (·.id)
  | .ok (notifications, true) => q.found = notifications ∧ ∃ record,
    q.stage = .replayed record ∧ record.Replays (notifications.map (·.id))
  | .error _ => q.stage = .idle ∨ q.stage = .abandoned

/-! ## Requests keep to their stages -/

section Conformance

variable {environment : Environment} {request : CreationRequest} {t : Nat}

/-- Once its key is lost nothing is known of a request. -/
theorem conforms_lost {α : Type} (p : Prog operations α) (found : List NotificationRecord) :
    Conforms (creatingTypestate environment) CreatingAnswers ⟨request, .lost t, found⟩ p
      fun q _ => ∃ found, q = ⟨request, .lost t, found⟩ := by
  induction p generalizing found with
  | done r => exact ⟨found, rfl⟩
  | perform o k ih =>
    refine ⟨trivial, fun r _ => ?_⟩
    rw [show (creatingTypestate environment).advance ⟨request, .lost t, found⟩ o r =
      ⟨request, .lost t, found ++ Creating.reads o r⟩ by cases o <;> rfl]
    exact ih r _

/-! ### Before the transaction -/

theorem conforms_assertSchedule (input : NotificationRequest) (now : Date) :
    Conforms (creatingTypestate environment) CreatingAnswers ⟨request, .idle, []⟩
      (assertScheduleIsInTheFuture input now).run fun q _ => q = ⟨request, .idle, []⟩ := by
  unfold assertScheduleIsInTheFuture
  split <;> rfl

theorem conforms_resolveCorrelationId (correlationId : Option CorrelationId) :
    Conforms (creatingTypestate environment) CreatingAnswers ⟨request, .idle, []⟩
      (resolveCorrelationId correlationId).run fun q _ => q = ⟨request, .idle, []⟩ := by
  cases correlationId with
  | none => exact ⟨trivial, fun _ _ => rfl⟩
  | some correlationId => rfl

theorem conforms_numberRecipients (values : List String) :
    Conforms (creatingTypestate environment) CreatingAnswers ⟨request, .idle, []⟩
      (numberRecipients values).run fun q r => q = ⟨request, .idle, []⟩ ∧ ∀ drafts, r = .ok drafts →
        List.Forall₂ (fun value d => parsePhoneNumber value = some d.2) values drafts := by
  induction values with
  | nil =>
    refine ⟨rfl, ?_⟩
    rintro _ ⟨⟩
    exact .nil
  | cons value rest ih =>
    rw [numberRecipients, perform, Raising.run_call_bind]
    refine ⟨trivial, fun id _ => ?_⟩
    rw [parseRecipient]
    cases hnumber : parsePhoneNumber value with
    | none => exact ⟨rfl, by rintro _ ⟨⟩⟩
    | some recipient =>
      dsimp only
      rw [Raising.run_pure_bind]
      refine Raising.conforms_bind.2 (ih.mono fun q r h => ?_)
      obtain ⟨rfl, hr⟩ := h
      cases r with
      | error e => exact ⟨rfl, by rintro _ ⟨⟩⟩
      | ok drafts =>
        refine ⟨rfl, ?_⟩
        rintro _ ⟨⟩
        exact .cons hnumber (hr drafts rfl)

/-! ### The steps of the transaction -/

/-- The connection that is chosen is the one that was asked for. -/
theorem conforms_resolveSession :
    Conforms (creatingTypestate environment) CreatingAnswers ⟨request, .begun t, []⟩
      (resolveSession t request.input.applicationId request.input.whatsAppSessionId).run
      fun q r => q = ⟨request, .begun t, []⟩ ∧ ∀ session, r = .ok session →
        ∀ requested ∈ request.input.whatsAppSessionId,
          Utf16.ofString (uuidText session.id) = requested := by
  rw [resolveSession, perform, Raising.run_call_bind]
  refine ⟨rfl, fun sessions _ => ?_⟩
  cases hrequested : request.input.whatsAppSessionId with
  | none =>
    dsimp only
    cases chooseSession sessions with
    | none => exact ⟨rfl, by rintro _ ⟨⟩⟩
    | some chosen => exact ⟨rfl, by rintro _ - _ ⟨⟩⟩
  | some text =>
    dsimp only
    cases hfound : sessions.find? fun s => Utf16.ofString (uuidText s.id) = text with
    | none => exact ⟨rfl, by rintro _ ⟨⟩⟩
    | some found =>
      refine ⟨rfl, ?_⟩
      rintro _ ⟨⟩ _ ⟨⟩
      simpa using List.find?_some hfound

/-- Where a request is when it has claimed its key, or has been told what the row of the key
says. -/
def Creating.Claimed (request : CreationRequest) (t : Nat) (q : Creating)
    (r : Except RequestError IdempotencyClaimResult) : Prop :=
  q.request = request ∧ q.found = [] ∧ (q.stage = .lost t ∨ match r with
    | .ok (.fresh idempotencyKeyId lockToken) =>
      q.stage = .writing t (idempotencyKeyId.map (·, lockToken)) []
    | .ok (.completed resourceId responseBody) => ∃ record, q.stage = .replaying t record ∧
      record.resourceId = resourceId ∧ record.responseBody = responseBody
    | .error _ => q.stage = .refused t)

theorem conforms_claimIdempotencyKey (now : Date) :
    Conforms (creatingTypestate environment) CreatingAnswers ⟨request, .begun t, []⟩
      (claimIdempotencyKey t request.input (request.fingerprint environment) now).run
      (Creating.Claimed request t) := by
  refine ⟨trivial, fun lockToken _ => ?_⟩
  change Conforms (creatingTypestate environment) _ (Creating.mk request
    (if request.input.idempotencyKey.isNone then .writing t none [] else .begun t) []) _ _
  cases hkey : request.input.idempotencyKey with
  | none => exact ⟨rfl, rfl, .inr rfl⟩
  | some key =>
    refine ⟨⟨rfl, rfl, hkey, rfl⟩, fun claimed _ => ?_⟩
    cases claimed with
    | some claimed => exact ⟨rfl, rfl, .inr rfl⟩
    | none =>
      refine ⟨⟨rfl, rfl, hkey⟩, fun found _ => ?_⟩
      cases found with
      | none => exact ⟨rfl, rfl, .inl rfl⟩
      | some record =>
        change Conforms (creatingTypestate environment) _ (Creating.mk request
          (if record.requestFingerprint = request.fingerprint environment ∧
            record.state = .COMPLETED then .replaying t record else .refused t) [])
            (readClaim record (request.fingerprint environment)).run _
        unfold readClaim
        by_cases hfingerprint : record.requestFingerprint = request.fingerprint environment
        · rw [if_neg (not_not_intro hfingerprint)]
          by_cases hstate : record.state = .COMPLETED
          · rw [if_pos hstate, if_pos ⟨hfingerprint, hstate⟩]
            exact ⟨rfl, rfl, .inr ⟨record, rfl, rfl, rfl⟩⟩
          · rw [if_neg hstate, if_neg fun h => hstate h.2]
            exact ⟨rfl, rfl, .inr rfl⟩
        · rw [if_pos hfingerprint, if_neg fun h => hfingerprint h.1]
          exact ⟨rfl, rfl, .inr rfl⟩

/-- A draft is written with its first entry and its job. -/
theorem conforms_writeNotification {claim : Option (Uuid × Uuid)} {draft : InsertNotificationInput}
    (h : request.Drafts draft) (written : List InsertNotificationInput) :
    Conforms (creatingTypestate environment) CreatingAnswers ⟨request, .writing t claim written, []⟩
      (CreateNotificationService.writeNotification t draft).run fun q r =>
        q = ⟨request, .writing t claim (written ++ [draft]), []⟩ ∧ r = .ok () := by
  have hlast : draft ∈ written ++ [draft] := List.mem_append_right _ (List.mem_singleton_self _)
  refine ⟨⟨rfl, h⟩, fun _ _ => ?_⟩
  refine ⟨⟨rfl, draft, hlast, rfl⟩, fun _ _ => ?_⟩
  exact ⟨⟨rfl, draft, hlast, rfl⟩, fun _ _ => ⟨rfl, rfl⟩⟩

theorem conforms_writeNotifications {claim : Option (Uuid × Uuid)}
    (drafts : List InsertNotificationInput) (h : ∀ d ∈ drafts, request.Drafts d)
    (written : List InsertNotificationInput) :
    Conforms (creatingTypestate environment) CreatingAnswers ⟨request, .writing t claim written, []⟩
      (writeNotifications t drafts).run fun q r =>
        q = ⟨request, .writing t claim (written ++ drafts), []⟩ ∧ r = .ok () := by
  induction drafts generalizing written with
  | nil => exact ⟨by rw [List.append_nil], rfl⟩
  | cons draft rest ih =>
    refine Raising.conforms_bind.2
      ((conforms_writeNotification (h draft List.mem_cons_self) written).mono ?_)
    rintro _ _ ⟨rfl, rfl⟩
    have hrest := ih (fun d hd => h d (List.mem_cons_of_mem _ hd)) (written ++ [draft])
    rw [List.append_assoc, List.singleton_append] at hrest
    exact hrest

/-- A stage in which notifications are read, and which a request does not leave by that. -/
def CreatingStage.Reads (environment : Environment) (request : CreationRequest) (t : Nat)
    (stage : CreatingStage) : Prop :=
  ∀ found a n, (Creating.mk request stage found).Allows environment (.findNotificationById t a n) ∧
    ∀ r, (Creating.mk request stage found).advance environment (.findNotificationById t a n) r =
      ⟨request, stage, found ++ r.toList⟩

theorem conforms_readOrFail {stage : CreatingStage} (hreads : stage.Reads environment request t)
    (found : List NotificationRecord) (a n : Uuid) :
    Conforms (creatingTypestate environment) CreatingAnswers ⟨request, stage, found⟩
      (readOrFail t a n).run fun q r => ∃ more, q = ⟨request, stage, found ++ more⟩ ∧
        ∀ notification, r = .ok notification → more = [notification] ∧ notification.id = n := by
  refine ⟨(hreads found a n).1, fun r hr => ?_⟩
  rw [show (creatingTypestate environment).advance ⟨request, stage, found⟩
    (.findNotificationById t a n) r = _ from (hreads found a n).2 r]
  cases r with
  | none => exact ⟨[], rfl, by rintro _ ⟨⟩⟩
  | some notification =>
    refine ⟨[notification], rfl, ?_⟩
    rintro _ ⟨⟩
    exact ⟨rfl, hr⟩

theorem conforms_readAllOrFail {stage : CreatingStage} (hreads : stage.Reads environment request t)
    (found : List NotificationRecord) (a : Uuid) (ids : List Uuid) :
    Conforms (creatingTypestate environment) CreatingAnswers ⟨request, stage, found⟩
      (readAllOrFail t a ids).run fun q r => ∃ more, q = ⟨request, stage, found ++ more⟩ ∧
        ∀ notifications, r = .ok notifications →
          more = notifications ∧ notifications.map (·.id) = ids := by
  induction ids generalizing found with
  | nil =>
    refine ⟨[], by rw [List.append_nil], ?_⟩
    rintro _ ⟨⟩
    exact ⟨rfl, rfl⟩
  | cons n rest ih =>
    refine Raising.conforms_bind.2 ((conforms_readOrFail hreads found a n).mono ?_)
    rintro _ (e | notification) ⟨first, rfl, hfirst⟩
    · exact ⟨first, rfl, by rintro _ ⟨⟩⟩
    · refine Raising.conforms_bind.2 ((ih (found ++ first)).mono ?_)
      rintro _ (e | notifications) ⟨more, rfl, hmore⟩
      · exact ⟨first ++ more, by rw [List.append_assoc], by rintro _ ⟨⟩⟩
      · refine ⟨first ++ more, by rw [List.append_assoc], ?_⟩
        rintro _ ⟨⟩
        obtain ⟨rfl, hid⟩ := hfirst notification rfl
        obtain ⟨rfl, hids⟩ := hmore notifications rfl
        exact ⟨rfl, by rw [List.map_cons, hid, hids]⟩

/-- The stage a request commits in that has written all it asks for. -/
def CreatingStage.finished (t : Nat) (claim : Option (Uuid × Uuid))
    (written : List InsertNotificationInput) : CreatingStage :=
  match claim with
  | none => .writing t none written
  | some claim => .completed t claim written

theorem conforms_completeKey {idempotencyKeyId : Option Uuid} {lockToken : Uuid}
    {responseBody : ResponseBody} {resourceId : Option Uuid} (now : Date)
    {written : List InsertNotificationInput}
    (h : Records resourceId (some responseBody) (written.map (·.id))) :
    Conforms (creatingTypestate environment) CreatingAnswers
      ⟨request, .writing t (idempotencyKeyId.map (·, lockToken)) written, []⟩
      (completeKey t idempotencyKeyId lockToken responseBody resourceId now).run fun q r =>
        q = ⟨request, .finished t (idempotencyKeyId.map (·, lockToken)) written, []⟩ ∧
          r = .ok () := by
  cases idempotencyKeyId with
  | none => exact ⟨rfl, rfl⟩
  | some id => exact ⟨⟨rfl, rfl, rfl, h⟩, fun _ _ => ⟨rfl, rfl⟩⟩

/-! ### The transaction -/

/-- How the transaction of a request ends, whose results are read by `answer`. -/
def Creating.Works {α : Type} (environment : Environment) (t : Nat)
    (answer : α → List NotificationRecord × Bool) (q : Creating) (r : Except RequestError α) :
    Prop :=
  match r with
  | .ok a => q.Allows environment (.commit t) ∧
    (q.advance environment (.commit t) ()).Answers (.ok (answer a))
  | .error e => q.Allows environment (.rollback t) ∧
    (q.advance environment (.rollback t) ()).Answers (.error e)

section Works

variable {α β : Type} {answer : α → List NotificationRecord × Bool} {x : Service β}
  {f : β → List NotificationRecord} {g : β → α}

theorem works_lost (found : List NotificationRecord) (r : Except RequestError α) :
    Creating.Works environment t answer ⟨request, .lost t, found⟩ r := by
  cases r <;> exact ⟨trivial, .inl ⟨t, rfl⟩⟩

theorem reads_finished (claim : Option (Uuid × Uuid)) (written : List InsertNotificationInput) :
    CreatingStage.Reads environment request t (.finished t claim written) := by
  cases claim <;> exact fun _ _ _ => ⟨rfl, fun _ => rfl⟩

theorem reads_replaying (record : IdempotencyRecord) :
    CreatingStage.Reads environment request t (.replaying t record) :=
  fun _ _ _ => ⟨rfl, fun _ => rfl⟩

/-- A transaction ends with a commit or with a rollback. -/
theorem conforms_withTenantScope {work : Nat → Service α}
    (h : ∀ t, Conforms (creatingTypestate environment) CreatingAnswers ⟨request, .begun t, []⟩
      (work t).run (Creating.Works environment t answer)) :
    Conforms (creatingTypestate environment) CreatingAnswers ⟨request, .idle, []⟩
      (withTenantScope request.input.applicationId work).run
        fun q r => q.Answers (r.map answer) := by
  refine ⟨rfl, fun t _ => ?_⟩
  refine Raising.conforms_bind.2 (Interleaving.conforms_bind.2 ((h t).mono fun q r hr => ?_))
  cases r with
  | ok a => exact ⟨hr.1, fun _ _ => hr.2⟩
  | error e => exact ⟨hr.1, fun _ _ => hr.2⟩

/-- A request reads back what it wrote, and commits. -/
theorem conforms_written {claim : Option (Uuid × Uuid)} {written : List InsertNotificationInput}
    (hx : Conforms (creatingTypestate environment) CreatingAnswers
      ⟨request, .finished t claim written, []⟩ x.run fun q r =>
        ∃ found, q = ⟨request, .finished t claim written, found⟩ ∧
          ∀ b, r = .ok b → found = f b ∧ (f b).map (·.id) = written.map (·.id))
    (hg : ∀ b, answer (g b) = (f b, false))
    (haddresses : request.Addresses written) :
    Conforms (creatingTypestate environment) CreatingAnswers
      ⟨request, .finished t claim written, []⟩ (x >>= fun b => pure (g b) : Service α).run
      (Creating.Works environment t answer) := by
  refine Raising.conforms_bind.2 (hx.mono ?_)
  rintro _ (e | b) ⟨found, rfl, hfound⟩
  · cases claim <;> exact ⟨rfl, .inr (.inr rfl)⟩
  · obtain ⟨rfl, hids⟩ := hfound b rfl
    change _ ∧ Creating.Answers _ (.ok (answer (g b)))
    rw [hg]
    cases claim <;> exact ⟨⟨rfl, haddresses⟩, .inr ⟨List.append_nil _, _, _, rfl, hids⟩⟩

/-- A request reads what the row of its key names, and commits. -/
theorem conforms_replayed {record : IdempotencyRecord} {ids : List Uuid}
    (hx : Conforms (creatingTypestate environment) CreatingAnswers
      ⟨request, .replaying t record, []⟩ x.run fun q r =>
        ∃ found, q = ⟨request, .replaying t record, found⟩ ∧
          ∀ b, r = .ok b → found = f b ∧ (f b).map (·.id) = ids)
    (hg : ∀ b, answer (g b) = (f b, true)) (hreplays : record.Replays ids) :
    Conforms (creatingTypestate environment) CreatingAnswers ⟨request, .replaying t record, []⟩
      (x >>= fun b => pure (g b) : Service α).run (Creating.Works environment t answer) := by
  refine Raising.conforms_bind.2 (hx.mono ?_)
  rintro _ (e | b) ⟨found, rfl, hfound⟩
  · exact ⟨rfl, .inr (.inr rfl)⟩
  · obtain ⟨rfl, hids⟩ := hfound b rfl
    change _ ∧ Creating.Answers _ (.ok (answer (g b)))
    rw [hg]
    exact ⟨rfl, .inr ⟨List.append_nil _, record, rfl, hids ▸ hreplays⟩⟩

end Works

theorem conforms_createWork {correlationId₀ : Option CorrelationId}
    {input : CreateNotificationInput} {recipient : String} (now : Date)
    (correlationId : CorrelationId) (notificationId : Uuid)
    (hrecipient : parsePhoneNumber input.recipient = some recipient) :
    Conforms (creatingTypestate environment) CreatingAnswers
      ⟨.create correlationId₀ input, .begun t, []⟩
      (createWork environment input recipient now correlationId notificationId t).run
      (Creating.Works environment t fun r => ([r.notification], r.wasReplayed)) := by
  refine Raising.conforms_bind.2
    ((@conforms_resolveSession environment (.create correlationId₀ input) t).mono ?_)
  rintro _ (e | session) ⟨rfl, hsession⟩
  · exact ⟨rfl, .inr (.inr rfl)⟩
  refine Raising.conforms_bind.2
    ((@conforms_claimIdempotencyKey environment (.create correlationId₀ input) t now).mono ?_)
  rintro ⟨_, stage, _⟩ r ⟨rfl, rfl, rfl | hclaimed⟩
  · refine (conforms_lost _ _).mono ?_
    rintro _ r ⟨found, rfl⟩
    exact works_lost found r
  rcases r with e | ⟨⟨idempotencyKeyId, lockToken⟩ | ⟨resourceId, responseBody⟩⟩
  · obtain rfl : stage = .refused t := hclaimed
    exact ⟨rfl, .inr (.inr rfl)⟩
  · obtain rfl : stage = _ := hclaimed
    let written := draft input.toNotificationRequest notificationId recipient session.id
      idempotencyKeyId correlationId
    have hdraft : CreationRequest.Drafts (.create correlationId₀ input) written :=
      ⟨rfl, hsession session rfl⟩
    have hrecords : Records (some notificationId) (some { id := some notificationId })
        ([written].map (·.id)) := .inl ⟨notificationId, rfl, rfl, rfl⟩
    refine Raising.conforms_bind.2 ((conforms_writeNotification hdraft []).mono ?_)
    rintro _ _ ⟨rfl, rfl⟩
    refine Raising.conforms_bind.2 ((conforms_completeKey now hrecords).mono ?_)
    rintro _ _ ⟨rfl, rfl⟩
    refine conforms_written (x := readOrFail t input.applicationId notificationId)
      (f := fun n => [n]) (g := fun n => CreateNotificationResult.mk n false)
      ((conforms_readOrFail (reads_finished _ _) [] _ _).mono ?_) (fun n => ?_) ?_
    · rintro _ r ⟨found, rfl, hfound⟩
      refine ⟨found, rfl, fun notification h => ?_⟩
      obtain ⟨rfl, rfl⟩ := hfound notification h
      exact ⟨rfl, rfl⟩
    · rfl
    · exact .cons hrecipient .nil
  · obtain ⟨record, rfl, rfl, rfl⟩ : ∃ record, stage = _ ∧ _ := hclaimed
    dsimp only [Raising.andThen]
    cases hresource : record.resourceId with
    | none => exact ⟨rfl, .inr (.inr rfl)⟩
    | some n =>
      refine conforms_replayed (x := readOrFail t input.applicationId n)
        (f := fun n => [n]) (g := fun n => CreateNotificationResult.mk n true)
        ((conforms_readOrFail (reads_replaying record) [] _ _).mono ?_) (fun n => ?_)
        (.inl ⟨n, rfl, hresource⟩)
      · rintro _ r ⟨found, rfl, hfound⟩
        refine ⟨found, rfl, fun notification h => ?_⟩
        obtain ⟨rfl, rfl⟩ := hfound notification h
        exact ⟨rfl, rfl⟩
      · rfl

theorem conforms_createBatchWork {correlationId₀ : Option CorrelationId}
    {input : CreateNotificationBatchInput} {drafts : List (Uuid × String)} (now : Date)
    (correlationId : CorrelationId)
    (hdrafts : List.Forall₂ (fun value d => parsePhoneNumber value = some d.2) input.recipients
      drafts) :
    Conforms (creatingTypestate environment) CreatingAnswers
      ⟨.createBatch correlationId₀ input, .begun t, []⟩
      (createBatchWork environment input drafts now correlationId t).run
      (Creating.Works environment t fun r => (r.notifications, r.wasReplayed)) := by
  refine Raising.conforms_bind.2
    ((@conforms_resolveSession environment (.createBatch correlationId₀ input) t).mono ?_)
  rintro _ (e | session) ⟨rfl, hsession⟩
  · exact ⟨rfl, .inr (.inr rfl)⟩
  refine Raising.conforms_bind.2
    ((@conforms_claimIdempotencyKey environment (.createBatch correlationId₀ input) t now).mono ?_)
  rintro ⟨_, stage, _⟩ r ⟨rfl, rfl, rfl | hclaimed⟩
  · refine (conforms_lost _ _).mono ?_
    rintro _ r ⟨found, rfl⟩
    exact works_lost found r
  rcases r with e | ⟨⟨idempotencyKeyId, lockToken⟩ | ⟨resourceId, responseBody⟩⟩
  · obtain rfl : stage = .refused t := hclaimed
    exact ⟨rfl, .inr (.inr rfl)⟩
  · obtain rfl : stage = _ := hclaimed
    let written := drafts.map fun d => draft input.toNotificationRequest d.1 d.2 session.id
      idempotencyKeyId correlationId
    have hwritten : ∀ d ∈ written,
        CreationRequest.Drafts (.createBatch correlationId₀ input) d := by
      intro d hd
      obtain ⟨e, -, rfl⟩ := List.mem_map.1 hd
      exact ⟨rfl, hsession session rfl⟩
    have hids : written.map (·.id) = drafts.map (·.1) := List.map_map
    have hrecords : Records none (some { notificationIds := some (drafts.map (·.1)) })
        (written.map (·.id)) := .inr ⟨rfl, by rw [hids]⟩
    refine Raising.conforms_bind.2 ((conforms_writeNotifications written hwritten []).mono ?_)
    rintro _ _ ⟨rfl, rfl⟩
    refine Raising.conforms_bind.2 ((conforms_completeKey now hrecords).mono ?_)
    rintro _ _ ⟨rfl, rfl⟩
    refine conforms_written (x := readAllOrFail t input.applicationId (drafts.map (·.1)))
      (f := id) (g := fun found => CreateNotificationBatchResult.mk found false)
      ((conforms_readAllOrFail (reads_finished _ _) [] _ _).mono ?_) (fun found => ?_) ?_
    · rintro _ r ⟨found, rfl, hfound⟩
      refine ⟨found, rfl, fun notifications h => ?_⟩
      exact ⟨(hfound notifications h).1, (hfound notifications h).2.trans hids.symm⟩
    · rfl
    · exact List.forall₂_map_right_iff.2 hdrafts
  · obtain ⟨record, rfl, rfl, rfl⟩ : ∃ record, stage = _ ∧ _ := hclaimed
    dsimp only [Raising.andThen]
    cases hids : record.responseBody.bind (·.notificationIds) with
    | none =>
      rw [readBatchNotificationIds, hids]
      exact ⟨rfl, .inr (.inr rfl)⟩
    | some ids =>
      rw [readBatchNotificationIds, hids]
      exact conforms_replayed (x := readAllOrFail t input.applicationId ids)
        (f := id) (g := fun found => CreateNotificationBatchResult.mk found true)
        (conforms_readAllOrFail (reads_replaying record) [] _ _) (fun found => rfl) (.inr hids)

theorem conforms_create (correlationId : Option CorrelationId) (input : CreateNotificationInput) :
    Conforms (creatingTypestate environment) CreatingAnswers
      ⟨.create correlationId input, .idle, []⟩
      (CreateNotificationService.create environment correlationId input).run fun q r =>
        q.Answers (r.map fun r => ([r.notification], r.wasReplayed)) := by
  rw [CreateNotificationService.create, parseRecipient]
  cases hrecipient : parsePhoneNumber input.recipient with
  | none => exact .inr (.inl rfl)
  | some recipient =>
    dsimp only
    rw [Raising.run_pure_bind]
    refine ⟨trivial, fun now _ => ?_⟩
    refine Raising.conforms_bind.2 ((conforms_assertSchedule _ now).mono ?_)
    rintro _ (e | _) rfl
    · exact .inr (.inl rfl)
    refine Raising.conforms_bind.2 ((conforms_resolveCorrelationId correlationId).mono ?_)
    rintro _ (e | correlationId') rfl
    · exact .inr (.inl rfl)
    refine ⟨trivial, fun notificationId _ => ?_⟩
    exact @conforms_withTenantScope environment (.create correlationId input) _ _ _ fun t =>
      conforms_createWork now correlationId' notificationId hrecipient

theorem conforms_createBatch (correlationId : Option CorrelationId)
    (input : CreateNotificationBatchInput) :
    Conforms (creatingTypestate environment) CreatingAnswers
      ⟨.createBatch correlationId input, .idle, []⟩
      (CreateNotificationService.createBatch environment correlationId input).run fun q r =>
        q.Answers (r.map fun r => (r.notifications, r.wasReplayed)) := by
  refine Raising.conforms_bind.2 ((conforms_numberRecipients input.recipients).mono ?_)
  rintro _ (e | drafts) ⟨rfl, hdrafts⟩
  · exact .inr (.inl rfl)
  refine ⟨trivial, fun now _ => ?_⟩
  refine Raising.conforms_bind.2 ((conforms_assertSchedule _ now).mono ?_)
  rintro _ (e | _) rfl
  · exact .inr (.inl rfl)
  refine Raising.conforms_bind.2 ((conforms_resolveCorrelationId correlationId).mono ?_)
  rintro _ (e | correlationId') rfl
  · exact .inr (.inl rfl)
  exact @conforms_withTenantScope environment (.createBatch correlationId input) _ _ _ fun t =>
    conforms_createBatchWork now correlationId' (hdrafts drafts rfl)

theorem conforms_program (request : CreationRequest) :
    Conforms (creatingTypestate environment) CreatingAnswers { request }
      (request.program environment) fun q result => q.Answers result.answer := by
  cases request with
  | create correlationId input =>
    refine Interleaving.conforms_bind.2 ((conforms_create correlationId input).mono fun q r h => ?_)
    exact h
  | createBatch correlationId input =>
    refine Interleaving.conforms_bind.2
      ((conforms_createBatch correlationId input).mono fun q r h => ?_)
    exact h

end Conformance

end PublicApi

end NotificationPlatform
