import NotificationPlatform.PublicApi.Creating
import NotificationPlatform.PublicApi.ExpiredKeys

/-!
# What the requests that create notifications leave

Step by step: what a request has written and not committed, what it knows of the committed rows, and
that the steps of the others change neither. A claim, the notifications and the completion of the
key are committed together or not at all.
-/

namespace NotificationPlatform

namespace PublicApi

open Interleaving Relational Transactional CreateNotificationService
open Utf16 (Text)

/-! ## The statements of a creation -/

/-- The notification a row is about. -/
def Row.about? : Row → Option Uuid
  | .notification r => some r.id
  | .notificationEvent r => some r.notificationId
  | .dispatchJob _ job => some job.notificationId
  | _ => none

/-- The row says what the draft says. -/
structure Becomes (d : InsertNotificationInput) (n : NotificationRecord) : Prop where
  id : n.id = d.id
  applicationId : n.applicationId = d.applicationId
  whatsAppSessionId : n.whatsAppSessionId = d.whatsAppSessionId
  recipientPhoneNumber : n.recipientPhoneNumber = d.recipientPhoneNumber

section Statements

variable {policies : Bool} {db db' : Database} {c : Choice} {t : Nat}

theorem insertClaim_cases {input : IdempotencyClaimInput} {claimed : Option (Uuid × Uuid)}
    (h : exec policies db (.insertClaim t input) c = some (claimed, db')) :
    ∃ key, textColumn input.key = some key ∧
      ((∃ expiresAt id now, claimed = some (id, input.lockToken) ∧
          Inserted db db' t (.idempotencyKey (input.row key expiresAt id now))) ∨
        (claimed = none ∧ db'.store = db.store ∧ ∃ r ∈ (db.store.view t).rows,
          index r = some (.applicationKey input.applicationId key))) := by
  obtain ⟨id, db₁, h₁, h⟩ := Statement.bind_eq_some.1 h
  cases h₁
  obtain ⟨now, db₂, h₂, h⟩ := Statement.bind_eq_some.1 h
  cases h₂
  cases hkey : textColumn input.key with
  | none =>
    simp only [hkey] at h
    cases h
  | some key =>
    cases hexpires : timestamptzColumn input.expiresAt with
    | none =>
      simp only [hkey, hexpires] at h
      cases h
    | some expiresAt =>
      simp only [hkey, hexpires] at h
      refine ⟨key, rfl, ?_⟩
      split at h
      · obtain ⟨b, db₃, h₃, h⟩ := Statement.bind_eq_some.1 h
        obtain ⟨rfl, rfl⟩ := Statement.pure_eq_some.1 h
        rcases insert_inserted h₃ with ⟨rfl, hinserted⟩ | ⟨rfl, rfl, r, hr, hi⟩
        · exact .inl ⟨expiresAt, _, _, rfl, hinserted.wrote, hinserted.free⟩
        · exact .inr ⟨rfl, rfl, r, hr, hi⟩
      · cases h

theorem insertNotification_inserted {input : InsertNotificationInput} {u : Unit}
    (h : exec policies db (.insertNotification t input) c = some (u, db')) :
    ∃ n, Becomes input n ∧ Inserted db db' t (.notification n) ∧
      ∃ s, Row.session s ∈ (db.store.view t).rows ∧ s.id = n.whatsAppSessionId ∧
        s.applicationId = n.applicationId := by
  obtain ⟨now, db₁, h₁, h⟩ := Statement.bind_eq_some.1 h
  cases h₁
  obtain ⟨_, db₂, h₂, h⟩ := Statement.bind_eq_some.1 h
  cases h₂
  cases hcolumns : input.columns with
  | none =>
    simp only [hcolumns] at h
    cases h
  | some draft =>
    simp only [hcolumns] at h
    obtain ⟨body, scheduledAt, metadata, -, -, -, rfl⟩ := columns_eq_some.1 hcolumns
    split at h
    · rename_i hchecks
      obtain ⟨r, hr, href⟩ := List.any_eq_true.1 hchecks.2
      refine ⟨_, ⟨rfl, rfl, rfl, rfl⟩, insertOrFail_inserted h, ?_⟩
      cases r with
      | session s => exact ⟨s, hr, of_decide_eq_true href⟩
      | _ => cases href
    · cases h

theorem appendEvent_inserted {event : NotificationEventInput} {u : Unit}
    (h : exec policies db (.appendEvents t [event]) c = some (u, db')) :
    ∃ row, Row.about? (.notificationEvent row) = some event.notificationId ∧
      Inserted db db' t (.notificationEvent row) := by
  obtain ⟨_, db₁, h₁, h⟩ := Statement.bind_eq_some.1 h
  obtain ⟨-, rfl⟩ := Statement.pure_eq_some.1 h
  obtain ⟨id, db₂, h₂, h₁⟩ := Statement.bind_eq_some.1 h₁
  cases h₂
  obtain ⟨now, db₃, h₃, h₁⟩ := Statement.bind_eq_some.1 h₁
  cases h₃
  have hinserted := insertOrFail_inserted h₁
  exact ⟨_, rfl, hinserted.wrote, hinserted.free⟩

theorem enqueueDispatch_inserted {job : DispatchJob} {u : Unit}
    (h : exec policies db (.enqueueDispatch t job) c = some (u, db')) :
    db'.store = db.store ∨ ∃ id, Inserted db db' t (.dispatchJob id job) := by
  obtain ⟨id, db₁, h₁, h⟩ := Statement.bind_eq_some.1 h
  cases h₁
  obtain ⟨b, db₂, h₂, h⟩ := Statement.bind_eq_some.1 h
  obtain ⟨-, rfl⟩ := Statement.pure_eq_some.1 h
  rcases insert_inserted h₂ with ⟨rfl, hinserted⟩ | ⟨rfl, rfl, -⟩
  · exact .inr ⟨_, hinserted.wrote, hinserted.free⟩
  · exact .inl rfl

/-- A completion changes the claim the transaction inserted, and no other row. -/
theorem complete_own {input : CompleteInput} {u : Unit} {k : IdempotencyRecord}
    (h : exec policies db (.complete t input) c = some (u, db'))
    (hfresh : Fresh db (db.store.own t).rows) (hk : .idempotencyKey k ∈ (db.store.own t).rows)
    (hconcerns : input.concerns (.idempotencyKey k) = true)
    (hscope : db.scope t = some k.applicationId) (r : Row) :
    r ∈ (db'.store.own t).rows ↔ (r ∈ (db.store.own t).rows ∧ r ≠ .idempotencyKey k) ∨
      r = input.apply (.idempotencyKey k) := by
  obtain ⟨_, hnow⟩ := exec_complete_time h
  change IdempotencyKeyRepository.complete _ _ _ = _ at h
  unfold IdempotencyKeyRepository.complete at h
  simp only [hnow] at h
  obtain ⟨rows, db₁, h₁, h⟩ := Statement.bind_eq_some.1 h
  obtain ⟨-, rfl⟩ := Statement.pure_eq_some.1 h
  simp only [QueryExecutor.update] at h₁
  split at h₁
  · obtain ⟨⟨rows', store⟩, hstore, hp⟩ := Option.map_eq_some_iff.1 h₁
    cases hp
    obtain ⟨-, hwrote⟩ := Store.update_some hstore
    have hsame : ∀ {r'}, r' ∈ (db.store.own t).rows → key r' = key (Row.idempotencyKey k) →
        r' = .idempotencyKey k := fun hr' hkey =>
      List.inj_on_of_nodup_map (db.store.own t).nodup hr' hk hkey
    -- the one row that is selected is the claim
    have hselected : ∀ r', r' ∈ (db.store.view t).select
        (fun r => (⟨policies, t⟩ : QueryExecutor).admits db r && input.concerns r) ↔
          r' = .idempotencyKey k := by
      intro r'
      rw [Table.mem_select, Bool.and_eq_true]
      constructor
      · rintro ⟨hr', -, hc⟩
        have hkey : key r' = key (Row.idempotencyKey k) := by
          cases r' with
          | idempotencyKey k' =>
            have hid := of_decide_eq_true hc
            have hid' := of_decide_eq_true hconcerns
            exact congrArg RowKey.idempotencyKey (hid.1.trans hid'.1.symm)
          | _ => cases hc
        rcases Store.mem_view.1 hr' with ⟨hcommitted, -⟩ | hown
        · exact absurd hkey (hfresh _ hk r' hcommitted)
        · exact hsame hown hkey
      · rintro rfl
        refine ⟨Store.mem_view.2 (.inr hk), ?_, hconcerns⟩
        simp [QueryExecutor.admits, hscope, Row.applicationId]
    have hchanged : ∀ r', r' ∈ (changed (db.store.view t)
        (fun r => (⟨policies, t⟩ : QueryExecutor).admits db r && input.concerns r) input.apply
          input.key_apply).rows ↔ r' = input.apply (.idempotencyKey k) := by
      intro r'
      simp only [changed, List.mem_map, hselected, exists_eq_left, eq_comm]
    change r ∈ (store.own t).rows ↔ _
    rw [hwrote.own, mem_overlay, hchanged]
    refine or_congr_left (and_congr_right fun hr => ?_)
    simp only [hchanged, forall_eq, input.key_apply]
    exact ⟨fun h he => h (congrArg key he.symm), fun h hkey => h (hsame hr hkey.symm)⟩
  · cases h₁

/-- A completion is a statement of an open transaction. -/
theorem exec_complete_open {input : CompleteInput} {u : Unit}
    (h : exec policies db (.complete t input) c = some (u, db')) :
    (db.store.opened t).isSome := by
  obtain ⟨_, hnow⟩ := exec_complete_time h
  change IdempotencyKeyRepository.complete _ _ _ = _ at h
  unfold IdempotencyKeyRepository.complete at h
  simp only [hnow] at h
  obtain ⟨rows, db₁, h₁, -⟩ := Statement.bind_eq_some.1 h
  simp only [QueryExecutor.update] at h₁
  split at h₁
  · obtain ⟨⟨rows', store⟩, hstore, -⟩ := Option.map_eq_some_iff.1 h₁
    exact (Store.update_some hstore).2.isOpen
  · cases h₁

/-- What only reads or draws an identifier, and is no read of notifications. -/
def Op.isQuiet : Op → Bool
  | .clockNow | .generate | .listForApplication _ _ | .findByKey _ _ _ => true
  | _ => false

theorem select_store {α : Type} {executor : QueryExecutor} {table : Row → Option α} {rows : List α}
    (h : executor.select table db = some (rows, db')) : db' = db := by
  unfold QueryExecutor.select at h
  split at h <;> cases h
  rfl

theorem exec_quiet {o : Op} {r : o.Ret} (ho : o.isQuiet = true)
    (h : exec policies db o c = some (r, db')) : db'.store = db.store := by
  cases o <;> simp only [Op.isQuiet, Bool.false_eq_true] at ho
  case clockNow =>
    cases c with
    | date now =>
      obtain ⟨-, rfl⟩ := Statement.pure_eq_some.1 h
      rfl
    | nothing | locked => cases h
  case generate =>
    cases h
    rfl
  case listForApplication t a =>
    obtain ⟨rows, db₁, h₁, h⟩ := Statement.bind_eq_some.1 h
    obtain ⟨-, rfl⟩ := Statement.pure_eq_some.1 h
    rw [select_store h₁]
  case findByKey t a text =>
    change IdempotencyKeyRepository.findByKey _ _ _ _ = _ at h
    unfold IdempotencyKeyRepository.findByKey at h
    cases hkey : textColumn text with
    | none =>
      simp only [hkey] at h
      cases h
    | some key =>
      simp only [hkey] at h
      obtain ⟨rows, db₁, h₁, h⟩ := Statement.bind_eq_some.1 h
      obtain ⟨-, rfl⟩ := Statement.pure_eq_some.1 h
      rw [select_store h₁]

/-- A row that is found is in sight, and of the key. -/
theorem findByKey_sees {a : Uuid} {text : Text} {record : IdempotencyRecord}
    (h : exec policies db (.findByKey t a text) c = some (some record, db')) :
    .idempotencyKey record ∈ (db.store.view t).rows ∧ record.applicationId = a ∧
      textColumn text = some record.key := by
  change IdempotencyKeyRepository.findByKey _ _ _ _ = _ at h
  unfold IdempotencyKeyRepository.findByKey at h
  cases hkey : textColumn text with
  | none =>
    simp only [hkey] at h
    cases h
  | some key =>
    simp only [hkey] at h
    obtain ⟨rows, db₁, h₁, h⟩ := Statement.bind_eq_some.1 h
    obtain ⟨hfound, -⟩ := Statement.pure_eq_some.1 h
    have hrecord := List.find?_some hfound.symm
    simp only [decide_eq_true_eq] at hrecord
    have hmem := List.mem_of_find?_eq_some hfound.symm
    unfold QueryExecutor.select at h₁
    split at h₁
    · cases h₁
      obtain ⟨r, hr, hrow⟩ := List.mem_filterMap.1 hmem
      rw [Row.idempotencyKey?_eq_some.1 hrow] at hr
      exact ⟨(List.mem_filter.1 hr).1, hrecord.1, congrArg some hrecord.2.symm⟩
    · cases h₁

/-- A notification that is found is in sight. -/
theorem findNotificationById_sees {a n : Uuid} {found : Option NotificationRecord}
    (h : exec policies db (.findNotificationById t a n) c = some (found, db')) :
    db' = db ∧ ∀ r ∈ found, r.id = n ∧ .notification r ∈ (db.store.view t).rows := by
  obtain ⟨rows, db₁, h₁, h⟩ := Statement.bind_eq_some.1 h
  obtain ⟨rfl, rfl⟩ := Statement.pure_eq_some.1 h
  refine ⟨select_store h₁, fun r hr => ?_⟩
  have hid := List.find?_some hr
  simp only [decide_eq_true_eq] at hid
  unfold QueryExecutor.select at h₁
  split at h₁
  · cases h₁
    obtain ⟨row, hrow, he⟩ := List.mem_filterMap.1 (List.mem_of_find?_eq_some hr)
    rw [Row.notification?_eq_some.1 he] at hrow
    exact ⟨hid.1, (List.mem_filter.1 hrow).1⟩
  · cases h₁

theorem creating_answers {o : Op} {r : o.Ret} (h : exec policies db o c = some (r, db')) :
    CreatingAnswers o r := by
  cases o with
  | findNotificationById t a n =>
    cases r with
    | none => trivial
    | some notification => exact ((findNotificationById_sees h).2 notification rfl).1
  | _ => trivial

end Statements

/-! ## The steps of a creation -/

/-- The transaction a request has open. -/
def CreatingStage.transaction? : CreatingStage → Option Nat
  | .begun t | .taken t | .lost t | .refused t | .replaying t _ => some t
  | .writing t _ _ | .completed t _ _ => some t
  | _ => none

/-- What a request does, one constructor for each step it can take. -/
inductive Creating.Move (environment : Environment) (request : CreationRequest) :
    CreatingStage → (o : Op) → o.Ret → CreatingStage → Prop where
  | adrift {t : Nat} {o : Op} {r : o.Ret} : Move environment request (.lost t) o r (.lost t)
  | quiet {stage : CreatingStage} {o : Op} {r : o.Ret} (ho : o.isQuiet = true) :
      Move environment request stage o r stage
  | readUnkeyed {t : Nat} {written : List InsertNotificationInput} {a n : Uuid}
      {found : Option NotificationRecord} :
      Move environment request (.writing t none written) (.findNotificationById t a n) found
        (.writing t none written)
  | readReplaying {t : Nat} {record : IdempotencyRecord} {a n : Uuid}
      {found : Option NotificationRecord} :
      Move environment request (.replaying t record) (.findNotificationById t a n) found
        (.replaying t record)
  | readCompleted {t : Nat} {claim : Uuid × Uuid} {written : List InsertNotificationInput}
      {a n : Uuid} {found : Option NotificationRecord} :
      Move environment request (.completed t claim written) (.findNotificationById t a n) found
        (.completed t claim written)
  | begun {t : Nat} :
      Move environment request .idle (.begin (some request.input.applicationId)) t (.begun t)
  | unkeyed {t : Nat} {id : Uuid} (hkey : request.input.idempotencyKey = none) :
      Move environment request (.begun t) .generate id (.writing t none [])
  | claimed {t : Nat} {input : IdempotencyClaimInput} {claim : Uuid × Uuid}
      (hclaims : request.Claims environment input) :
      Move environment request (.begun t) (.insertClaim t input) (some claim)
        (.writing t (some claim) [])
  | taken {t : Nat} {input : IdempotencyClaimInput} (hclaims : request.Claims environment input) :
      Move environment request (.begun t) (.insertClaim t input) none (.taken t)
  | lost {t : Nat} {text : Text} (hkey : request.input.idempotencyKey = some text) :
      Move environment request (.taken t) (.findByKey t request.input.applicationId text) none
        (.lost t)
  | replaying {t : Nat} {text : Text} {record : IdempotencyRecord}
      (hkey : request.input.idempotencyKey = some text)
      (hfingerprint : record.requestFingerprint = request.fingerprint environment)
      (hstate : record.state = .COMPLETED) :
      Move environment request (.taken t) (.findByKey t request.input.applicationId text)
        (some record) (.replaying t record)
  | refused {t : Nat} {text : Text} {record : IdempotencyRecord}
      (hkey : request.input.idempotencyKey = some text) :
      Move environment request (.taken t) (.findByKey t request.input.applicationId text)
        (some record) (.refused t)
  | wrote {t : Nat} {claim : Option (Uuid × Uuid)} {written : List InsertNotificationInput}
      {d : InsertNotificationInput} {u : Unit} (hdraft : request.Drafts d) :
      Move environment request (.writing t claim written) (.insertNotification t d) u
        (.writing t claim (written ++ [d]))
  | recorded {t : Nat} {claim : Option (Uuid × Uuid)} {written : List InsertNotificationInput}
      {d : InsertNotificationInput} {u : Unit} (hd : d ∈ written) :
      Move environment request (.writing t claim written) (.appendEvents t [createdEvent d]) u
        (.writing t claim written)
  | queued {t : Nat} {claim : Option (Uuid × Uuid)} {written : List InsertNotificationInput}
      {d : InsertNotificationInput} {u : Unit} (hd : d ∈ written) :
      Move environment request (.writing t claim written) (.enqueueDispatch t (firstJob d)) u
        (.writing t claim written)
  | completed {t : Nat} {claim : Uuid × Uuid} {written : List InsertNotificationInput}
      {input : CompleteInput} {u : Unit} (hid : input.id = claim.1)
      (htoken : input.lockToken = claim.2)
      (hrecords : Records input.resourceId (some input.responseBody) (written.map (·.id))) :
      Move environment request (.writing t (some claim) written) (.complete t input) u
        (.completed t claim written)
  | created {t : Nat} {claim : Option (Uuid × Uuid)} {written : List InsertNotificationInput}
      {u : Unit} (haddresses : request.Addresses written) :
      Move environment request (.finished t claim written) (.commit t) u (.created claim written)
  | replayed {t : Nat} {record : IdempotencyRecord} {u : Unit} :
      Move environment request (.replaying t record) (.commit t) u (.replayed record)
  | gaveUp {stage : CreatingStage} {t : Nat} {u : Unit} (ht : stage.transaction? = some t) :
      Move environment request stage (.rollback t) u .abandoned

section Moves

variable {environment : Environment} {request : CreationRequest}
  {found : List NotificationRecord} {o : Op} {r : o.Ret} {t : Nat}

theorem Creating.move_idle (ho : (⟨request, .idle, found⟩ : Creating).Allows environment o) :
    Creating.Move environment request .idle o r
      ((⟨request, .idle, found⟩ : Creating).advance environment o r).stage := by
  cases o with
  | clockNow | generate => exact .quiet rfl
  | begin a =>
    obtain rfl : a = _ := ho
    exact .begun
  | _ => cases ho

theorem Creating.move_begun (ho : (⟨request, .begun t, found⟩ : Creating).Allows environment o) :
    Creating.Move environment request (.begun t) o r
      ((⟨request, .begun t, found⟩ : Creating).advance environment o r).stage := by
  cases o with
  | generate =>
    change Creating.Move environment request _ _ _
      (if request.input.idempotencyKey.isNone then .writing t none [] else .begun t)
    split
    · rename_i hkey
      exact .unkeyed (Option.isNone_iff_eq_none.1 hkey)
    · exact .quiet rfl
  | listForApplication t' a => exact .quiet rfl
  | insertClaim t' input =>
    obtain ⟨rfl, hclaims⟩ := ho
    cases r with
    | none => exact .taken hclaims
    | some claim => exact .claimed hclaims
  | rollback t' =>
    obtain rfl : t' = t := ho
    exact .gaveUp rfl
  | _ => cases ho

theorem Creating.move_taken (ho : (⟨request, .taken t, found⟩ : Creating).Allows environment o) :
    Creating.Move environment request (.taken t) o r
      ((⟨request, .taken t, found⟩ : Creating).advance environment o r).stage := by
  cases o with
  | findByKey t' a text =>
    obtain ⟨rfl, rfl, hkey⟩ := ho
    cases r with
    | none => exact .lost hkey
    | some record =>
      change Creating.Move environment request _ _ _
        (if record.requestFingerprint = request.fingerprint environment ∧
          record.state = .COMPLETED then .replaying t' record else .refused t')
      split
      · rename_i hreplays
        exact .replaying hkey hreplays.1 hreplays.2
      · exact .refused hkey
  | _ => cases ho

theorem Creating.move_replaying {record : IdempotencyRecord}
    (ho : (⟨request, .replaying t record, found⟩ : Creating).Allows environment o) :
    Creating.Move environment request (.replaying t record) o r
      ((⟨request, .replaying t record, found⟩ : Creating).advance environment o r).stage := by
  cases o with
  | findNotificationById t' a n =>
    obtain rfl : t' = t := ho
    exact .readReplaying
  | commit t' =>
    obtain rfl : t' = t := ho
    exact .replayed
  | rollback t' =>
    obtain rfl : t' = t := ho
    exact .gaveUp rfl
  | _ => cases ho

/-- With a claim and without one a request writes alike, and ends differently. -/
theorem Creating.move_writing {claim : Option (Uuid × Uuid)}
    {written : List InsertNotificationInput}
    (ho : (⟨request, .writing t claim written, found⟩ : Creating).Allows environment o) :
    Creating.Move environment request (.writing t claim written) o r
      ((⟨request, .writing t claim written, found⟩ : Creating).advance environment o r).stage := by
  cases o with
  | insertNotification t' d =>
    obtain ⟨rfl, hdraft⟩ : t' = t ∧ request.Drafts d := by cases claim <;> exact ho
    cases claim <;> exact .wrote hdraft
  | appendEvents t' inputs =>
    obtain ⟨rfl, d, hd, rfl⟩ : t' = t ∧ ∃ d ∈ written, inputs = [createdEvent d] := by
      cases claim <;> exact ho
    cases claim <;> exact .recorded hd
  | enqueueDispatch t' job =>
    obtain ⟨rfl, d, hd, rfl⟩ : t' = t ∧ ∃ d ∈ written, job = firstJob d := by
      cases claim <;> exact ho
    cases claim <;> exact .queued hd
  | rollback t' =>
    obtain rfl : t' = t := by cases claim <;> exact ho
    cases claim <;> exact .gaveUp rfl
  | complete t' input =>
    cases claim with
    | none => cases ho
    | some claim =>
      obtain ⟨rfl, hid, htoken, hrecords⟩ := ho
      exact .completed hid htoken hrecords
  | findNotificationById t' a n =>
    cases claim with
    | none =>
      obtain rfl : t' = t := ho
      exact .readUnkeyed
    | some claim => cases ho
  | commit t' =>
    cases claim with
    | none =>
      obtain ⟨rfl, haddresses⟩ : t' = t ∧ request.Addresses written := ho
      exact show Creating.Move environment request (.finished t' none written) _ _ _ from
        .created haddresses
    | some claim => cases ho
  | _ => cases claim <;> cases ho

theorem Creating.move_completed {claim : Uuid × Uuid} {written : List InsertNotificationInput}
    (ho : (⟨request, .completed t claim written, found⟩ : Creating).Allows environment o) :
    Creating.Move environment request (.completed t claim written) o r
      ((⟨request, .completed t claim written, found⟩ : Creating).advance environment
        o r).stage := by
  cases o with
  | findNotificationById t' a n =>
    obtain rfl : t' = t := ho
    exact .readCompleted
  | commit t' =>
    obtain ⟨rfl, haddresses⟩ : t' = t ∧ request.Addresses written := ho
    exact show Creating.Move environment request (.finished t' (some claim) written) _ _ _ from
      .created haddresses
  | rollback t' =>
    obtain rfl : t' = t := ho
    exact .gaveUp rfl
  | _ => cases ho

end Moves

theorem Creating.move {environment : Environment} {q : Creating} {o : Op} {r : o.Ret}
    (ho : q.Allows environment o) :
    Creating.Move environment q.request q.stage o r (q.advance environment o r).stage := by
  obtain ⟨request, stage, found⟩ := q
  cases stage with
  | idle => exact move_idle ho
  | begun t => exact move_begun ho
  | taken t => exact move_taken ho
  | replaying t record => exact move_replaying ho
  | writing t claim written => exact move_writing ho
  | completed t claim written => exact move_completed ho
  | lost t => cases o <;> exact .adrift
  | refused t =>
    cases o with
    | rollback t' =>
      obtain rfl : t' = t := ho
      exact .gaveUp rfl
    | _ => cases ho
  | created claim written => cases o <;> cases ho
  | replayed record => cases o <;> cases ho
  | abandoned => cases o <;> cases ho

/-! ## What a creation has written, knows and has read -/

/-- The row is the claim a request was given. -/
structure IdempotencyRecord.ClaimedBy (k : IdempotencyRecord) (environment : Environment)
    (request : CreationRequest) (claim : Uuid × Uuid) : Prop where
  id : k.id = claim.1
  lockToken : k.lockToken = claim.2
  isOf : k.IsOf request.input
  fingerprint : k.requestFingerprint = request.fingerprint environment

/-- The rows are a claim, the notifications and what was written about them. -/
structure WroteFor (k : IdempotencyRecord) (written : List InsertNotificationInput)
    (rows : List Row) : Prop where
  claim : .idempotencyKey k ∈ rows
  distinct : (written.map (·.id)).Nodup
  notifications : ∀ d ∈ written, ∃ n, .notification n ∈ rows ∧ Becomes d n
  only : ∀ r ∈ rows, r = .idempotencyKey k ∨ ∃ d ∈ written, r.about? = some d.id

/-- What the transaction has written so far. -/
def CreatingStage.Wrote (environment : Environment) (request : CreationRequest)
    (rows : List Row) : CreatingStage → Prop
  | .writing _ (some claim) written =>
    ∃ k, k.ClaimedBy environment request claim ∧ WroteFor k written rows
  | .completed _ claim written => ∃ k, k.ClaimedBy environment request claim ∧
    k.Completes (written.map (·.id)) ∧ WroteFor k written rows
  | _ => rows = []

/-- What a request that carries a key knows of the committed rows. A key that is taken is never
lost. -/
def CreatingStage.Knows (environment : Environment) (request : CreationRequest) (db : Database) :
    CreatingStage → Prop
  | .taken _ => ∃ k, .idempotencyKey k ∈ db.store.committed.rows ∧ k.IsOf request.input
  | .replaying _ record | .replayed record => .idempotencyKey record ∈ db.store.committed.rows ∧
    record.IsOf request.input ∧ record.requestFingerprint = request.fingerprint environment
  | .created (some claim) written => ∃ k rows, k.ClaimedBy environment request claim ∧
    k.Completes (written.map (·.id)) ∧ WroteFor k written rows ∧
      ∀ r ∈ rows, r ∈ db.store.committed.rows
  | .lost _ | .writing _ none _ | .created none _ => False
  | _ => True

/-- Where the notifications are that a request has read. -/
def CreatingStage.Saw (found : List NotificationRecord) (db : Database) : CreatingStage → Prop
  | .replaying _ _ | .replayed _ | .created _ _ =>
    ∀ n ∈ found, .notification n ∈ db.store.committed.rows
  | .completed t _ _ => (db.store.opened t).isSome → ∀ n ∈ found,
    .notification n ∈ db.store.committed.rows ∨ .notification n ∈ (db.store.own t).rows
  | .abandoned => True
  | _ => found = []

structure Creating.Holds (environment : Environment) (q : Creating) (db : Database) : Prop where
  keyed : q.request.input.idempotencyKey.isSome = true
  begun : ∀ {t}, q.stage.transaction? = some t →
    t < db.store.next ∧ db.scope t = some q.request.input.applicationId
  wrote : ∀ {t}, q.stage.transaction? = some t → (db.store.opened t).isSome →
    q.stage.Wrote environment q.request (db.store.own t).rows ∧ Fresh db (db.store.own t).rows
  knows : q.stage.Knows environment q.request db
  saw : q.stage.Saw q.found db

/-- A request commits what it wrote for its claim `k`. -/
structure Creating.Commits (environment : Environment) (q q' : Creating) (db db' : Database)
    (t : Nat) (claim : Uuid × Uuid) (written : List InsertNotificationInput)
    (k : IdempotencyRecord) : Prop where
  before : q.stage = .completed t claim written
  after : q'.stage = .created (some claim) written
  addresses : q.request.Addresses written
  claimed : k.ClaimedBy environment q.request claim
  completes : k.Completes (written.map (·.id))
  wrote : WroteFor k written (db.store.own t).rows
  fresh : Fresh db (db.store.own t).rows
  committed : ∀ r, r ∈ db'.store.committed.rows ↔
    r ∈ db.store.committed.rows ∨ r ∈ (db.store.own t).rows

/-- What a step of a request leaves: the others what they have, itself what it knows next, and the
committed rows as they are unless it commits its claim. -/
structure Creating.Steps (environment : Environment) (q q' : Creating) (db db' : Database) :
    Prop where
  leaves : Leaves q.stage.transaction? db db'
  holds : q'.Holds environment db'
  transaction : ∀ {t}, q'.stage.transaction? = some t →
    q.stage.transaction? = some t ∨ db.store.next ≤ t
  committed : (db'.store.committed = db.store.committed ∧ ∀ claim written,
      q'.stage = .created claim written → q.stage = .created claim written) ∨
    ∃ t claim written k, Creating.Commits environment q q' db db' t claim written k

section Knowledge

variable {environment : Environment} {request : CreationRequest} {q : Creating}
  {db db' : Database} {stage : CreatingStage}

theorem CreatingStage.Knows.grows (h : stage.Knows environment request db)
    (hgrows : ∀ r ∈ db.store.committed.rows, r ∈ db'.store.committed.rows) :
    stage.Knows environment request db' := by
  cases stage with
  | taken t =>
    obtain ⟨k, hk, hof⟩ := h
    exact ⟨k, hgrows _ hk, hof⟩
  | replaying t record =>
    obtain ⟨hrecord, hrest⟩ := h
    exact ⟨hgrows _ hrecord, hrest⟩
  | replayed record =>
    obtain ⟨hrecord, hrest⟩ := h
    exact ⟨hgrows _ hrecord, hrest⟩
  | created claim written =>
    cases claim with
    | none => exact h
    | some claim =>
      obtain ⟨k, rows, hclaimed, hcompletes, hwrote, hrows⟩ := h
      exact ⟨k, rows, hclaimed, hcompletes, hwrote, fun r hr => hgrows r (hrows r hr)⟩
  | writing t claim written => cases claim <;> exact h
  | _ => exact h

/-- What the others do, a request does not notice. -/
theorem Creating.Holds.leaves (h : q.Holds environment db) {t : Option Nat} (hl : Leaves t db db')
    (hne : ∀ t', q.stage.transaction? = some t' → some t' ≠ t) : q.Holds environment db' := by
  -- what a transaction has open now it had open before
  have hopened : ∀ {t'}, q.stage.transaction? = some t' → (db'.store.opened t').isSome →
      db.store.opened t' = some (db'.store.own t') := by
    intro t' ht hopen
    obtain ⟨own, hown⟩ := Option.isSome_iff_exists.1 hopen
    rw [Versions.own_of_opened hown]
    exact hl.opened (h.begun ht).1 (hne t' ht) hown
  refine ⟨h.keyed, fun {t'} ht => ?_, fun {t'} ht hopen => ?_, h.knows.grows hl.grows, ?_⟩
  · obtain ⟨hbegun, hscope⟩ := h.begun ht
    exact ⟨hbegun.trans_le hl.next, (hl.scope t' hbegun).trans hscope⟩
  · have hbefore := hopened ht hopen
    obtain ⟨hwrote, hfresh⟩ := h.wrote ht (by rw [hbefore]; rfl)
    rw [Versions.own_of_opened hbefore] at hwrote hfresh
    exact ⟨hwrote, hl.fresh (hne t' ht) hbefore hfresh⟩
  · have hsaw := h.saw
    obtain ⟨request, stage, found⟩ := q
    cases stage with
    | replaying t' record => exact fun n hn => hl.grows _ (hsaw n hn)
    | replayed record => exact fun n hn => hl.grows _ (hsaw n hn)
    | created claim written => exact fun n hn => hl.grows _ (hsaw n hn)
    | completed t' claim written =>
      intro hopen n hn
      have hbefore : db.store.opened t' = some (db'.store.own t') := hopened rfl hopen
      have hsaw := hsaw (by rw [hbefore]; rfl) n hn
      rw [Versions.own_of_opened hbefore] at hsaw
      exact hsaw.imp_left (hl.grows _)
    | _ => exact hsaw

/-- A request sees what was committed and what it wrote. -/
theorem Creating.Holds.sees (h : q.Holds environment db) {t : Nat}
    (ht : q.stage.transaction? = some t)
    (hempty : ∀ rows, q.stage.Wrote environment q.request rows → rows = []) {r : Row}
    (hr : r ∈ (db.store.view t).rows) : r ∈ db.store.committed.rows := by
  refine ((Store.mem_view.1 hr).resolve_right fun hown => ?_).1
  obtain ⟨own, hopened, hmem⟩ := Store.mem_own_opened hown
  have hrows := hempty _ (h.wrote ht (by rw [hopened]; rfl)).1
  rw [hrows] at hown
  cases hown

theorem WroteFor.add {k : IdempotencyRecord} {written : List InsertNotificationInput} {t : Nat}
    {r : Row} (h : WroteFor k written (db.store.own t).rows) (hinserted : Inserted db db' t r)
    (hr : ∃ d ∈ written, r.about? = some d.id) : WroteFor k written (db'.store.own t).rows := by
  refine ⟨hinserted.mem_own.2 (.inl h.claim), h.distinct, fun d hd => ?_, fun r' hr' => ?_⟩
  · obtain ⟨n, hn, hbecomes⟩ := h.notifications d hd
    exact ⟨n, hinserted.mem_own.2 (.inl hn), hbecomes⟩
  · rcases hinserted.mem_own.1 hr' with hold | rfl
    · exact h.only r' hold
    · exact .inr hr

theorem WroteFor.notification {k : IdempotencyRecord} {written : List InsertNotificationInput}
    {t : Nat} {d : InsertNotificationInput} {n : NotificationRecord}
    (h : WroteFor k written (db.store.own t).rows)
    (hinserted : Inserted db db' t (.notification n)) (hn : Becomes d n) :
    WroteFor k (written ++ [d]) (db'.store.own t).rows := by
  have hlast : d ∈ written ++ [d] := List.mem_append_right _ (List.mem_singleton_self _)
  refine ⟨hinserted.mem_own.2 (.inl h.claim), ?_, fun d' hd' => ?_, fun r hr => ?_⟩
  · rw [List.map_append, List.map_singleton]
    refine List.nodup_append'.2 ⟨h.distinct, List.nodup_singleton _, ?_⟩
    rintro _ hmem hd
    obtain rfl := List.mem_singleton.1 hd
    obtain ⟨d', hd', hid⟩ := List.mem_map.1 hmem
    obtain ⟨n', hn', hbecomes⟩ := h.notifications d' hd'
    -- the insert would have clashed with the notification that has the identifier
    refine (Store.clash_eq_false.1 (hinserted.free (some t) _ hn')).1 ?_
    simp only [key_row, Row.primaryKey, hbecomes.id, hn.id, hid]
  · rcases List.mem_append.1 hd' with hd' | hd'
    · obtain ⟨n', hn', hbecomes⟩ := h.notifications d' hd'
      exact ⟨n', hinserted.mem_own.2 (.inl hn'), hbecomes⟩
    · obtain rfl := List.mem_singleton.1 hd'
      exact ⟨n, hinserted.mem_own.2 (.inr rfl), hn⟩
  · rcases hinserted.mem_own.1 hr with hold | rfl
    · rcases h.only r hold with hk | ⟨d', hd', habout⟩
      · exact .inl hk
      · exact .inr ⟨d', List.mem_append_left _ hd', habout⟩
    · exact .inr ⟨d, hlast, congrArg some hn.id⟩

end Knowledge

/-! ## Step by step -/

section Steps

variable {environment : Environment} {request : CreationRequest} {policies : Bool}
  {db db' : Database} {c : Choice} {stage stage' : CreatingStage}
  {found : List NotificationRecord}

/-- A statement that inserts a row, as far as its own transaction goes. -/
theorem Creating.Holds.inserted {t : Nat} {r : Row}
    (h : Creating.Holds environment ⟨request, stage, found⟩ db) (hwithin : Within (some t) db db')
    (ht : stage.transaction? = some t) (ht' : stage'.transaction? = some t)
    (hinserted : Inserted db db' t r)
    (hwrote : stage.Wrote environment request (db.store.own t).rows →
      stage'.Wrote environment request (db'.store.own t).rows)
    (hknows : stage'.Knows environment request db') (hsaw : stage'.Saw found db') :
    Creating.Steps environment ⟨request, stage, found⟩ ⟨request, stage', found⟩ db db' := by
  have hleaves : Leaves (some t) db db' := leaves_within hwithin
  obtain ⟨hbefore, hfresh⟩ := h.wrote ht hinserted.wrote.isOpen
  refine ⟨ht ▸ hleaves, ⟨h.keyed, fun {t'} ht₁ => ?_, fun {t'} ht₁ _ => ?_, hknows, hsaw⟩,
    fun {t'} ht₁ => ?_, .inl ⟨hwithin.committed, fun claim written hstage => ?_⟩⟩
  · obtain rfl : t = t' := Option.some.inj (ht'.symm.trans ht₁)
    obtain ⟨hbegun, hscope⟩ := h.begun ht
    exact ⟨hbegun.trans_eq hwithin.next.symm, (congrFun hwithin.scope t).trans hscope⟩
  · obtain rfl : t = t' := Option.some.inj (ht'.symm.trans ht₁)
    exact ⟨hwrote hbefore, hfresh.inserted hinserted⟩
  · exact .inl (ht.trans (ht'.symm.trans ht₁))
  · obtain rfl : stage' = .created claim written := hstage
    cases ht'

/-- A statement that changes no version. -/
theorem Creating.Holds.reads {found' : List NotificationRecord}
    (h : Creating.Holds environment ⟨request, stage, found⟩ db) (hstore : db'.store = db.store)
    (hscope : db'.scope = db.scope) (ht : stage'.transaction? = stage.transaction?)
    (hcreated : ∀ claim written, stage' = .created claim written → stage = .created claim written)
    (hwrote : ∀ rows, stage.Wrote environment request rows → stage'.Wrote environment request rows)
    (hknows : stage'.Knows environment request db') (hsaw : stage'.Saw found' db') :
    Creating.Steps environment ⟨request, stage, found⟩ ⟨request, stage', found'⟩ db db' := by
  refine ⟨?_, ⟨h.keyed, fun {t'} ht₁ => ?_, fun {t'} ht₁ hopen => ?_, hknows, hsaw⟩,
    fun {t'} ht₁ => .inl (ht ▸ ht₁), .inl ⟨by rw [hstore], hcreated⟩⟩
  · refine ⟨fun r hr => by rw [hstore]; exact hr, by rw [hstore], fun t' _ => by rw [hscope],
      fun {t' own} _ _ hown => by rw [hstore] at hown; exact hown, fun {t' own} _ _ hfresh => ?_⟩
    exact hfresh.congr (by rw [hstore])
  · rw [hstore, hscope]
    exact h.begun (ht ▸ ht₁)
  · rw [hstore] at hopen ⊢
    obtain ⟨hbefore, hfresh⟩ := h.wrote (ht ▸ ht₁) hopen
    exact ⟨hwrote _ hbefore, hfresh.congr (by rw [hstore])⟩

/-! ### One lemma for each move -/

theorem Creating.Holds.quiet {o : Op} {r : o.Ret}
    (h : Creating.Holds environment ⟨request, stage, found⟩ db) (ho : o.isQuiet = true)
    (he : exec policies db o c = some (r, db')) :
    Creating.Steps environment ⟨request, stage, found⟩
      ⟨request, stage, found ++ Creating.reads o r⟩ db db' := by
  have hstore := exec_quiet ho he
  have hwithin : Within o.transaction db db' :=
    exec_within (by rintro a rfl; cases ho) (by rintro t rfl; cases ho)
      (by rintro t rfl; cases ho) he
  have hreads : Creating.reads o r = [] := by
    cases o <;> first | rfl | cases ho
  have hsame : db'.store.committed.rows = db.store.committed.rows := by rw [hstore]
  have hsaw := h.saw
  rw [hreads, List.append_nil]
  refine h.reads hstore hwithin.scope rfl (fun _ _ hs => hs) (fun _ hw => hw)
    (h.knows.grows fun r hr => hsame ▸ hr) ?_
  cases stage <;> simp only [CreatingStage.Saw, hstore] at hsaw ⊢ <;> exact hsaw

theorem Creating.Holds.readReplaying {t : Nat} {record : IdempotencyRecord} {a n : Uuid}
    {r : Option NotificationRecord}
    (h : Creating.Holds environment ⟨request, .replaying t record, found⟩ db)
    (he : exec policies db (.findNotificationById t a n) c = some (r, db')) :
    Creating.Steps environment ⟨request, .replaying t record, found⟩
      ⟨request, .replaying t record, found ++ r.toList⟩ db db' := by
  obtain ⟨rfl, hsees⟩ := findNotificationById_sees he
  refine h.reads rfl rfl rfl (fun _ _ hs => hs) (fun _ hw => hw) h.knows fun n' hn' => ?_
  rcases List.mem_append.1 hn' with hold | hnew
  · exact h.saw n' hold
  · exact h.sees rfl (fun _ hw => hw) (hsees n' (Option.mem_toList.1 hnew)).2

theorem Creating.Holds.readCompleted {t : Nat} {claim : Uuid × Uuid}
    {written : List InsertNotificationInput} {a n : Uuid} {r : Option NotificationRecord}
    (h : Creating.Holds environment ⟨request, .completed t claim written, found⟩ db)
    (he : exec policies db (.findNotificationById t a n) c = some (r, db')) :
    Creating.Steps environment ⟨request, .completed t claim written, found⟩
      ⟨request, .completed t claim written, found ++ r.toList⟩ db db' := by
  obtain ⟨rfl, hsees⟩ := findNotificationById_sees he
  refine h.reads rfl rfl rfl (fun _ _ hs => hs) (fun _ hw => hw) h.knows fun hopen n' hn' => ?_
  rcases List.mem_append.1 hn' with hold | hnew
  · exact h.saw hopen n' hold
  · exact (Store.mem_view.1 (hsees n' (Option.mem_toList.1 hnew)).2).imp_left (·.1)

theorem Creating.Holds.begins {t : Nat}
    (h : Creating.Holds environment ⟨request, .idle, found⟩ db)
    (he : exec policies db (.begin (some request.input.applicationId)) c = some (t, db')) :
    Creating.Steps environment ⟨request, .idle, found⟩ ⟨request, .begun t, found⟩ db db' := by
  obtain ⟨rfl, rfl⟩ := exec_begin_eq he
  refine ⟨leaves_begin _, ⟨h.keyed, fun {t'} ht => ?_, fun {t'} ht _ => ?_, trivial, h.saw⟩,
    fun {t'} ht => ?_, .inl ⟨rfl, fun _ _ hs => (by cases hs)⟩⟩
  · cases ht
    exact ⟨Nat.lt_succ_self _, Function.update_self _ _ _⟩
  · cases ht
    have hempty : (db.store.start.2.own db.store.next).rows = [] := by
      simp only [Versions.own, Store.start, Function.update_self, Option.getD_some, Table.empty]
    exact ⟨hempty, by simp only [Fresh, hempty]; rintro _ ⟨⟩⟩
  · cases ht
    exact .inr (Nat.le_refl _)

theorem Creating.Holds.claims {t : Nat} {input : IdempotencyClaimInput} {claim : Uuid × Uuid}
    (h : Creating.Holds environment ⟨request, .begun t, found⟩ db)
    (hclaims : request.Claims environment input)
    (he : exec policies db (.insertClaim t input) c = some (some claim, db')) :
    Creating.Steps environment ⟨request, .begun t, found⟩
      ⟨request, .writing t (some claim) [], found⟩ db db' := by
  have hwithin : Within (some t) db db' := exec_within (by simp) (by simp) (by simp) he
  obtain ⟨key, hkey, ⟨expiresAt, id, now, hclaim, hinserted⟩ | ⟨hclaim, -⟩⟩ :=
    insertClaim_cases he
  · cases hclaim
    obtain ⟨happ, htext, hfingerprint⟩ := hclaims
    refine h.inserted hwithin rfl rfl hinserted (fun hempty => ?_) trivial h.saw
    have hempty : (db.store.own t).rows = [] := hempty
    refine ⟨input.row key expiresAt id now, ⟨rfl, rfl, ⟨happ, _, htext, hkey⟩, hfingerprint⟩,
      ⟨hinserted.mem_own.2 (.inr rfl), List.nodup_nil, by rintro _ ⟨⟩, fun r hr => ?_⟩⟩
    rcases hinserted.mem_own.1 hr with hold | hnew
    · rw [hempty] at hold
      cases hold
    · exact .inl hnew
  · cases hclaim

/-- The row in the way of a claim is committed. -/
theorem Creating.Holds.findsTaken {t : Nat} {input : IdempotencyClaimInput}
    (h : Creating.Holds environment ⟨request, .begun t, found⟩ db)
    (hclaims : request.Claims environment input)
    (he : exec policies db (.insertClaim t input) c = some (none, db')) :
    Creating.Steps environment ⟨request, .begun t, found⟩ ⟨request, .taken t, found⟩ db db' := by
  have hwithin : Within (some t) db db' := exec_within (by simp) (by simp) (by simp) he
  obtain ⟨key, hkey, ⟨_, _, _, hclaim, -⟩ | ⟨-, hstore, r, hr, hindex⟩⟩ := insertClaim_cases he
  · cases hclaim
  · have hcommitted := h.sees rfl (fun _ hw => hw) hr
    obtain ⟨k, rfl, happ, hk⟩ := uniqueValue_eq_applicationKey.1 hindex
    obtain ⟨happ', htext, -⟩ := hclaims
    exact h.reads hstore hwithin.scope rfl (fun _ _ hs => (by cases hs)) (fun _ hw => hw)
      ⟨k, by rw [hstore]; exact hcommitted, happ.trans happ', _, htext, hk ▸ hkey⟩ h.saw

/-- A key that is taken is found. -/
theorem Creating.Holds.never_lost {t : Nat} {text : Text}
    (h : Creating.Holds environment ⟨request, .taken t, found⟩ db)
    (hkey : request.input.idempotencyKey = some text)
    (he : exec policies db (.findByKey t request.input.applicationId text) c =
      some (none, db')) : False := by
  obtain ⟨k, hk, happ, text', htext', hk'⟩ := h.knows
  obtain rfl : text' = text := Option.some.inj (htext'.symm.trans hkey)
  have hscope := (h.begun rfl).2
  have hfound := KeyTaken.findByKey ⟨k, hk, happ, rfl⟩ hk' hscope he
  cases hfound

theorem Creating.Holds.replays {t : Nat} {text : Text} {record : IdempotencyRecord}
    (h : Creating.Holds environment ⟨request, .taken t, found⟩ db)
    (hkey : request.input.idempotencyKey = some text)
    (hfingerprint : record.requestFingerprint = request.fingerprint environment)
    (he : exec policies db (.findByKey t request.input.applicationId text) c =
      some (some record, db')) :
    Creating.Steps environment ⟨request, .taken t, found⟩ ⟨request, .replaying t record, found⟩
      db db' := by
  have hwithin : Within (some t) db db' := exec_within (by simp) (by simp) (by simp) he
  have hstore : db'.store = db.store := exec_quiet (o := .findByKey _ _ _) rfl he
  obtain ⟨hsees, happ, htext⟩ := findByKey_sees he
  have hcommitted := h.sees rfl (fun _ hw => hw) hsees
  have hempty : found = [] := h.saw
  refine h.reads hstore hwithin.scope rfl (fun _ _ hs => (by cases hs)) (fun _ hw => hw)
    ⟨by rw [hstore]; exact hcommitted, ⟨happ, _, hkey, htext⟩, hfingerprint⟩ fun n hn => ?_
  rw [hempty] at hn
  cases hn

theorem Creating.Holds.refuses {t : Nat} {text : Text} {record : IdempotencyRecord}
    (h : Creating.Holds environment ⟨request, .taken t, found⟩ db)
    (he : exec policies db (.findByKey t request.input.applicationId text) c =
      some (some record, db')) :
    Creating.Steps environment ⟨request, .taken t, found⟩ ⟨request, .refused t, found⟩ db db' := by
  have hwithin : Within (some t) db db' := exec_within (by simp) (by simp) (by simp) he
  have hstore : db'.store = db.store := exec_quiet (o := .findByKey _ _ _) rfl he
  exact h.reads hstore hwithin.scope rfl (fun _ _ hs => (by cases hs)) (fun _ hw => hw) trivial
    h.saw

theorem Creating.Holds.writes {t : Nat} {claim : Uuid × Uuid}
    {written : List InsertNotificationInput} {d : InsertNotificationInput} {u : Unit}
    (h : Creating.Holds environment ⟨request, .writing t (some claim) written, found⟩ db)
    (he : exec policies db (.insertNotification t d) c = some (u, db')) :
    Creating.Steps environment ⟨request, .writing t (some claim) written, found⟩
      ⟨request, .writing t (some claim) (written ++ [d]), found⟩ db db' := by
  have hwithin : Within (some t) db db' := exec_within (by simp) (by simp) (by simp) he
  obtain ⟨n, hn, hinserted, -⟩ := insertNotification_inserted he
  refine h.inserted hwithin rfl rfl hinserted (fun hbefore => ?_) trivial h.saw
  obtain ⟨k, hclaimed, hwrote⟩ := hbefore
  exact ⟨k, hclaimed, hwrote.notification hinserted hn⟩

theorem Creating.Holds.records {t : Nat} {claim : Uuid × Uuid}
    {written : List InsertNotificationInput} {d : InsertNotificationInput} {u : Unit}
    (h : Creating.Holds environment ⟨request, .writing t (some claim) written, found⟩ db)
    (hd : d ∈ written)
    (he : exec policies db (.appendEvents t [createdEvent d]) c = some (u, db')) :
    Creating.Steps environment ⟨request, .writing t (some claim) written, found⟩
      ⟨request, .writing t (some claim) written, found⟩ db db' := by
  have hwithin : Within (some t) db db' := exec_within (by simp) (by simp) (by simp) he
  obtain ⟨row, habout, hinserted⟩ := appendEvent_inserted he
  refine h.inserted hwithin rfl rfl hinserted (fun hbefore => ?_) trivial h.saw
  obtain ⟨k, hclaimed, hwrote⟩ := hbefore
  exact ⟨k, hclaimed, hwrote.add hinserted ⟨d, hd, habout⟩⟩

theorem Creating.Holds.queues {t : Nat} {claim : Uuid × Uuid}
    {written : List InsertNotificationInput} {d : InsertNotificationInput} {u : Unit}
    (h : Creating.Holds environment ⟨request, .writing t (some claim) written, found⟩ db)
    (hd : d ∈ written) (he : exec policies db (.enqueueDispatch t (firstJob d)) c = some (u, db')) :
    Creating.Steps environment ⟨request, .writing t (some claim) written, found⟩
      ⟨request, .writing t (some claim) written, found⟩ db db' := by
  have hwithin : Within (some t) db db' := exec_within (by simp) (by simp) (by simp) he
  rcases enqueueDispatch_inserted he with hstore | ⟨id, hinserted⟩
  · exact h.reads hstore hwithin.scope rfl (fun _ _ hs => (by cases hs)) (fun _ hw => hw)
      trivial h.saw
  · refine h.inserted hwithin rfl rfl hinserted (fun hbefore => ?_) trivial h.saw
    obtain ⟨k, hclaimed, hwrote⟩ := hbefore
    exact ⟨k, hclaimed, hwrote.add hinserted ⟨d, hd, rfl⟩⟩

/-- A claim that is completed takes its record along with what was written. -/
theorem Creating.Holds.completed_wrote {t : Nat} {claim : Uuid × Uuid}
    {written : List InsertNotificationInput} {input : CompleteInput} {u : Unit}
    (h : Creating.Holds environment ⟨request, .writing t (some claim) written, found⟩ db)
    (hid : input.id = claim.1) (htoken : input.lockToken = claim.2)
    (hrecords : Records input.resourceId (some input.responseBody) (written.map (·.id)))
    (hwithin : Within (some t) db db')
    (he : exec policies db (.complete t input) c = some (u, db')) :
    (CreatingStage.completed t claim written).Wrote environment request (db'.store.own t).rows ∧
      Fresh db' (db'.store.own t).rows := by
  obtain ⟨⟨k, hclaimed, hwrote⟩, hfresh⟩ := h.wrote rfl (exec_complete_open he)
  have hconcerns : input.concerns (.idempotencyKey k) = true :=
    decide_eq_true ⟨hclaimed.id.trans hid.symm, hclaimed.lockToken.trans htoken.symm⟩
  have hscope : db.scope t = some k.applicationId := by
    rw [hclaimed.isOf.1]
    exact (h.begun rfl).2
  have hown := complete_own he hfresh hwrote.claim hconcerns hscope
  let k' : IdempotencyRecord := { k with
    state := .COMPLETED
    responseStatus := some input.responseStatus
    responseBody := some input.responseBody
    resourceId := input.resourceId
    completedAt := some input.now }
  have happly : input.apply (.idempotencyKey k) = .idempotencyKey k' := rfl
  rw [happly] at hown
  refine ⟨⟨k', ⟨hclaimed.id, hclaimed.lockToken, hclaimed.isOf, hclaimed.fingerprint⟩,
    ⟨rfl, hrecords⟩, ⟨(hown _).2 (.inr rfl), hwrote.distinct, fun d hd => ?_, fun r hr => ?_⟩⟩,
    fun r hr r' hr' => ?_⟩
  · obtain ⟨n, hn, hbecomes⟩ := hwrote.notifications d hd
    exact ⟨n, (hown _).2 (.inl ⟨hn, by rintro ⟨⟩⟩), hbecomes⟩
  · rcases (hown r).1 hr with ⟨hold, hne⟩ | rfl
    · exact .inr ((hwrote.only r hold).resolve_left hne)
    · exact .inl rfl
  · rw [hwithin.committed] at hr'
    rcases (hown r).1 hr with ⟨hold, -⟩ | rfl
    · exact hfresh r hold r' hr'
    · exact hfresh _ hwrote.claim r' hr'

theorem Creating.Holds.completes {t : Nat} {claim : Uuid × Uuid}
    {written : List InsertNotificationInput} {input : CompleteInput} {u : Unit}
    (h : Creating.Holds environment ⟨request, .writing t (some claim) written, found⟩ db)
    (hid : input.id = claim.1) (htoken : input.lockToken = claim.2)
    (hrecords : Records input.resourceId (some input.responseBody) (written.map (·.id)))
    (he : exec policies db (.complete t input) c = some (u, db')) :
    Creating.Steps environment ⟨request, .writing t (some claim) written, found⟩
      ⟨request, .completed t claim written, found⟩ db db' := by
  have hwithin : Within (some t) db db' := exec_within (by simp) (by simp) (by simp) he
  have hleaves : Leaves (some t) db db' := leaves_within hwithin
  have hempty : found = [] := h.saw
  refine ⟨hleaves, ⟨h.keyed, fun {t'} ht => ?_, fun {t'} ht _ => ?_, trivial, ?_⟩, .inl,
    .inl ⟨hwithin.committed, fun _ _ hs => (by cases hs)⟩⟩
  · obtain rfl : t = t' := Option.some.inj ht
    obtain ⟨hbegun, hscope⟩ := h.begun rfl
    exact ⟨hbegun.trans_eq hwithin.next.symm, (congrFun hwithin.scope t).trans hscope⟩
  · obtain rfl : t = t' := Option.some.inj ht
    exact h.completed_wrote hid htoken hrecords hwithin he
  · rw [hempty]
    rintro - _ ⟨⟩

/-- A creation commits its claim with what it wrote for it. -/
theorem Creating.Holds.creates {t : Nat} {claim : Uuid × Uuid}
    {written : List InsertNotificationInput} {u : Unit}
    (h : Creating.Holds environment ⟨request, .completed t claim written, found⟩ db)
    (haddresses : request.Addresses written)
    (he : exec policies db (.commit t) c = some (u, db')) :
    Creating.Steps environment ⟨request, .completed t claim written, found⟩
      ⟨request, .created (some claim) written, found⟩ db db' := by
  obtain ⟨store, rfl, hended⟩ := exec_commit_ended he
  obtain ⟨⟨k, hclaimed, hcompletes, hwrote⟩, hfresh⟩ := h.wrote rfl hended.isOpen
  have hmem := fun r => mem_commit (r := r) hended hfresh
  have hleaves : Leaves (some t) db { db with store } := leaves_committed hended hfresh
  refine ⟨hleaves, ⟨h.keyed, fun {t'} ht => (by cases ht), fun {t'} ht => (by cases ht),
    ⟨k, _, hclaimed, hcompletes, hwrote, fun r hr => (hmem r).2 (.inr hr)⟩, fun n hn => ?_⟩,
    fun {t'} ht => (by cases ht), .inr ⟨t, claim, written, k,
      ⟨rfl, rfl, haddresses, hclaimed, hcompletes, hwrote, hfresh, hmem⟩⟩⟩
  exact (hmem _).2 (h.saw hended.isOpen n hn)

theorem Creating.Holds.ends_replay {t : Nat} {record : IdempotencyRecord} {u : Unit}
    (h : Creating.Holds environment ⟨request, .replaying t record, found⟩ db)
    (he : exec policies db (.commit t) c = some (u, db')) :
    Creating.Steps environment ⟨request, .replaying t record, found⟩
      ⟨request, .replayed record, found⟩ db db' := by
  obtain ⟨store, rfl, hended⟩ := exec_commit_ended he
  obtain ⟨hempty, hfresh⟩ := h.wrote rfl hended.isOpen
  have hcommitted : store.committed = db.store.committed := commit_of_empty hended hempty
  have hleaves : Leaves (some t) db { db with store } := leaves_committed hended hfresh
  exact ⟨hleaves, ⟨h.keyed, fun {t'} ht => (by cases ht), fun {t'} ht => (by cases ht),
    h.knows.grows hleaves.grows, fun n hn => hleaves.grows _ (h.saw n hn)⟩,
    fun {t'} ht => (by cases ht), .inl ⟨hcommitted, fun _ _ hs => (by cases hs)⟩⟩

theorem Creating.Holds.givesUp {t : Nat} {u : Unit}
    (h : Creating.Holds environment ⟨request, stage, found⟩ db)
    (he : exec policies db (.rollback t) c = some (u, db')) :
    Creating.Steps environment ⟨request, stage, found⟩ ⟨request, .abandoned, found⟩ db db' := by
  obtain ⟨store, rfl, hended⟩ := rollbackTransaction_ended he
  have hleaves : Leaves none db { db with store } := leaves_rolledBack hended
  refine ⟨?_, ⟨h.keyed, fun {t'} ht' => (by cases ht'), fun {t'} ht' => (by cases ht'), trivial,
    trivial⟩, fun {t'} ht' => (by cases ht'),
    .inl ⟨hended.committed, fun _ _ hs => (by cases hs)⟩⟩
  exact ⟨hleaves.grows, hleaves.next, hleaves.scope,
    fun {t' own} hlt _ => hleaves.opened hlt (by simp),
    fun {t' own} _ => hleaves.fresh (by simp)⟩

/-- **What a step of a request leaves.** A key that is taken is never lost, and a request that
carries a key writes nothing without a claim. -/
theorem Creating.Move.steps {o : Op} {r : o.Ret}
    (hm : Creating.Move environment request stage o r stage')
    (h : Creating.Holds environment ⟨request, stage, found⟩ db)
    (he : exec policies db o c = some (r, db')) :
    Creating.Steps environment ⟨request, stage, found⟩
      ⟨request, stage', found ++ Creating.reads o r⟩ db db' := by
  have hsilent : Creating.reads o r = [] →
      Creating.Steps environment ⟨request, stage, found⟩ ⟨request, stage', found⟩ db db' →
      Creating.Steps environment ⟨request, stage, found⟩
        ⟨request, stage', found ++ Creating.reads o r⟩ db db' := by
    intro hreads hsteps
    rwa [hreads, List.append_nil]
  cases hm with
  | adrift => exact absurd h.knows id
  | readUnkeyed => exact absurd h.knows id
  | unkeyed hkey =>
    have hkeyed := h.keyed
    rw [hkey] at hkeyed
    cases hkeyed
  | lost hkey => exact (h.never_lost hkey he).elim
  | quiet ho => exact h.quiet ho he
  | readReplaying => exact h.readReplaying he
  | readCompleted => exact h.readCompleted he
  | begun => exact hsilent rfl (h.begins he)
  | claimed hclaims => exact hsilent rfl (h.claims hclaims he)
  | taken hclaims => exact hsilent rfl (h.findsTaken hclaims he)
  | replaying hkey hfingerprint => exact hsilent rfl (h.replays hkey hfingerprint he)
  | refused => exact hsilent rfl (h.refuses he)
  | @wrote _ claim =>
    cases claim with
    | none => exact absurd h.knows id
    | some claim => exact hsilent rfl (h.writes he)
  | @recorded _ claim _ _ _ hd =>
    cases claim with
    | none => exact absurd h.knows id
    | some claim => exact hsilent rfl (h.records hd he)
  | @queued _ claim _ _ _ hd =>
    cases claim with
    | none => exact absurd h.knows id
    | some claim => exact hsilent rfl (h.queues hd he)
  | completed hid htoken hrecords => exact hsilent rfl (h.completes hid htoken hrecords he)
  | @created _ claim _ _ haddresses =>
    cases claim with
    | none => exact absurd h.knows id
    | some claim => exact hsilent rfl (h.creates haddresses he)
  | replayed => exact hsilent rfl (h.ends_replay he)
  | gaveUp => exact hsilent rfl (h.givesUp he)

end Steps

end PublicApi

end NotificationPlatform
