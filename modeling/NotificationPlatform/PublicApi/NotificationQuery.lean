import NotificationPlatform.Interleaving.Alone
import NotificationPlatform.PublicApi.Alone
import NotificationPlatform.PublicApi.Cursor
import NotificationPlatform.Service.Maintenance

/-!
# Listing and cancelling notifications

`packages/composition/src/notification/notification-query.service.ts`, method by method. A cursor
holds what the driver reads of `created_at` and the identifier, both as text.
-/

namespace NotificationPlatform

namespace PublicApi

namespace NotificationQueryService

open Interleaving Transactional PublicApi.NotificationRepository
  NotificationPlatform.NotificationQueryService
open Utf16 (Text ofString toUnicode)
open Json (Tree)

/-! ## Texts -/

def digitValue? (c : Char) : Option Nat :=
  (List.range 16).find? fun d => Nat.digitChar d = c.toLower

/-- The number that hexadecimal digits stand for. -/
def readHex (digits : List Char) : Option Nat :=
  digits.foldlM (fun n c => (digitValue? c).map fun d => 16 * n + d) 0

/-- A `uuid` column, which does not mind where the hyphens stand. -/
def readUuid (s : String) : Option Uuid :=
  let digits := s.toList.filter (· ≠ '-')
  if digits.length = 32 then readHex digits else none

def toISOString (d : Date) : Text := ofString (Iso8601.format d)

/-! ## `list` -/

structure NotificationListQuery where
  statuses : Option (List NotificationStatus)
  recipient : Option String
  cursor : Option Text
  limit : Nat

structure NotificationListResult where
  items : List NotificationRecord
  nextCursor : Option Text

def NotificationListQuery.filters (query : NotificationListQuery) : NotificationListFilters where
  statuses := query.statuses
  recipientPhoneNumber := query.recipient

/-- The payload of the cursor of a page. -/
def payloadOf (cursor : Cursor) : CursorPayload where
  createdAt := toISOString cursor.createdAt
  id := ofString (uuidText cursor.id)

def textProperty (name : String) (members : List (Text × Tree)) : Option Text :=
  match Tree.property (ofString name) members with
  | some (.string s) => some s
  | _ => none

/-- `{ createdAt: new Date(cursor.createdAt), id: cursor.id }`, of a payload that holds a date and
an identifier. -/
def position? : Tree → Option Cursor
  | .object members => do
    let createdAt ← textProperty "createdAt" members
    let id ← textProperty "id" members
    let createdAt ← Iso8601.parse (toUnicode createdAt)
    let id ← readUuid (toUnicode id)
    return { createdAt, id }
  | _ => none

/-- A statement on what is no date or no identifier raises. -/
def position : Option Tree → Service (Option Cursor)
  | none => pure none
  | some payload =>
    match position? payload with
    | some cursor => pure (some cursor)
    | none => throw (.error "Invalid time value")

def raised : Thrown → RequestError
  | .domainError code message => .domainError code message
  | .syntaxError => .error "SyntaxError"

variable (hmac : List UInt8 → List UInt8)

def list (applicationId : Uuid) (query : NotificationListQuery) :
    Service NotificationListResult := do
  let cursor ← match decodeCursor hmac query.cursor with
    | .ok cursor => pure cursor
    | .error e => throw (raised e)
  let page ← withTenantScope applicationId fun transaction => do
    let cursor ← position cursor
    perform (.listNotifications transaction applicationId query.filters cursor query.limit)
  return {
    items := page.items
    nextCursor := page.nextCursor.map fun cursor => encodeCursor hmac (payloadOf cursor) }

/-! ## The other methods -/

def readOrFail (t : Nat) (applicationId notificationId : Uuid) : Service NotificationRecord := do
  let found ← perform (.findNotificationById t applicationId notificationId)
  match found with
  | some found => return found
  | none => throw (.domainError "notification_not_found" "That notification does not exist.")

def getOrFail (applicationId notificationId : Uuid) : Service NotificationRecord :=
  withTenantScope applicationId fun t => readOrFail t applicationId notificationId

/-- Reads the notification first, so that another application's timeline is not found. -/
def listEvents (applicationId notificationId : Uuid) : Service (List NotificationEventRecord) :=
  withTenantScope applicationId fun t => do
    let _ ← readOrFail t applicationId notificationId
    perform (.listEvents t applicationId notificationId)

/-- The timeline entry of a cancellation. -/
def cancelledEvent (correlationId : Option CorrelationId) (applicationId notificationId : Uuid)
    (fromStatus : NotificationStatus) : NotificationEventInput where
  applicationId := applicationId
  notificationId := notificationId
  eventType := "notification.cancelled"
  fromStatus := some fromStatus
  toStatus := some .CANCELLED
  attemptNumber := none
  payload := {}
  correlationId := correlationId.map (·.value)

/-- Cancels a notification that has not yet been handed to the provider. -/
def cancel (correlationId : Option CorrelationId) (applicationId notificationId : Uuid) :
    Service NotificationRecord :=
  withTenantScope applicationId fun t => do
    let existing ← readOrFail t applicationId notificationId
    if isCancellableNotificationStatus existing.status then
      let now ← perform .clockNow
      let cancelled ← perform (.applyTransition t {
        applicationId
        notificationId
        expectedStatus := existing.status
        correlationId := correlationId.map (·.value)
        now })
      match cancelled with
      | none =>
        throw (.domainError "notification_not_cancellable"
          "The notification changed state before it could be cancelled.")
      | some cancelled =>
        perform (.appendEvents t
          [cancelledEvent correlationId applicationId notificationId existing.status])
        return cancelled
    else
      throw (.domainError "notification_not_cancellable"
        s!"A notification in the {statusName existing.status} state cannot be cancelled.")

/-- The connection a bulk cancellation is limited to exists. -/
def assertSessionExists (t : Nat) (applicationId : Uuid) (whatsAppSessionId : Option Uuid) :
    Service Unit :=
  match whatsAppSessionId with
  | none => return ()
  | some sessionId => do
    let session ← perform (.findSessionById t applicationId sessionId)
    match session with
    | some _ => return ()
    | none =>
      throw (.domainError "whatsapp_session_not_found" "That WhatsApp connection does not exist.")

/-- Cancels everything still waiting to be sent, for the whole application or for one of its
connections, and answers how much it was. -/
def cancelWaiting (correlationId : Option CorrelationId) (applicationId : Uuid)
    (whatsAppSessionId : Option Uuid) : Service Nat :=
  withTenantScope applicationId fun t => do
    assertSessionExists t applicationId whatsAppSessionId
    let now ← perform .clockNow
    let cancelled ← perform (.cancelWaiting t {
      applicationId
      whatsAppSessionId
      correlationId := correlationId.map (·.value)
      now })
    perform (.appendEvents t
      (cancelled.map fun n => cancelledEvent correlationId applicationId n.1 n.2))
    return cancelled.length

/-! ## A cursor as text -/

theorem digitValue?_digitChar : ∀ d < 16, digitValue? (Nat.digitChar d) = some d := by decide

theorem hexDigits_ne_hyphen (n count : Nat) : ∀ c ∈ hexDigits n count, c ≠ '-' := by
  rintro c hc rfl
  exact absurd (hexDigits_alphanumeric n count _ hc) (by decide)

theorem readHex_hexDigits (n count acc : Nat) :
    (hexDigits n count).foldlM (fun n c => (digitValue? c).map fun d => 16 * n + d) acc =
      some (16 ^ count * acc + n % 16 ^ count) := by
  induction count generalizing n with
  | zero => simp [hexDigits, Nat.mod_one]
  | succ count ih =>
    rw [hexDigits, List.foldlM_append, ih]
    simp only [List.foldlM_cons, List.foldlM_nil, Option.bind_eq_bind, Option.bind_some,
      digitValue?_digitChar _ (Nat.mod_lt n (by decide : 0 < 16)), Option.map_some, Option.pure_def]
    congr 1
    have hmod : n % 16 ^ (count + 1) = 16 * (n / 16 % 16 ^ count) + n % 16 := by
      rw [Nat.pow_succ', Nat.mod_mul]
      omega
    rw [hmod, Nat.pow_succ']
    ring

/-- The groups of a `uuid` are its digits. -/
theorem hexDigits_append (n count count' : Nat) :
    hexDigits (n / 2 ^ (4 * count')) count ++ hexDigits n count' = hexDigits n (count + count') := by
  induction count' generalizing n with
  | zero => simp [hexDigits]
  | succ count' ih =>
    have hdiv : n / 2 ^ (4 * (count' + 1)) = n / 16 / 2 ^ (4 * count') := by
      rw [Nat.div_div_eq_div_mul, Nat.mul_succ, Nat.pow_add', show 2 ^ 4 = 16 from rfl]
    rw [hexDigits, hdiv, ← List.append_assoc, ih]
    rfl

theorem readUuid_uuidText {id : Uuid} (h : id < 2 ^ 128) : readUuid (uuidText id) = some id := by
  have hkept : ∀ n count, (hexDigits n count).filter (· ≠ '-') = hexDigits n count := by
    intro n count
    refine List.filter_eq_self.2 fun c hc => ?_
    simpa using hexDigits_ne_hyphen n count c hc
  have hskip : ∀ t : List Char, ('-' :: t).filter (· ≠ '-') = t.filter (· ≠ '-') :=
    fun t => List.filter_cons_of_neg (by decide)
  have hdigits : (uuidText id).toList.filter (· ≠ '-') = hexDigits id 32 := by
    simp only [uuidText, String.toList_ofList, List.filter_append, hkept, hskip]
    rw [hexDigits_append id 4 12, hexDigits_append id 4 16, hexDigits_append id 4 20,
      hexDigits_append id 8 24]
  rw [readUuid]
  simp only [hdigits, length_hexDigits, if_true]
  rw [readHex, readHex_hexDigits]
  norm_num
  omega

theorem property_object (fields : List (Text × Text)) (name : Text) :
    Tree.property name (Json.stringMembers fields) =
      ((fields.reverse.find? fun f => f.1 = name).map fun f => .string f.2) := by
  rw [Tree.property, Json.stringMembers, ← List.map_reverse, List.find?_map, Option.map_map]
  rfl

/-- The cursor of a page is read back, if it holds a date and an identifier of 128 bits. -/
theorem position?_payloadOf {cursor : Cursor} (hdate : |cursor.createdAt| ≤ maximumTime)
    (hid : cursor.id < 2 ^ 128) : position? (payloadOf cursor).tree = some cursor := by
  have hnames : ofString "id" ≠ ofString "createdAt" := by decide
  have hcreatedAt : textProperty "createdAt" (Json.stringMembers (payloadOf cursor).fields) =
      some (toISOString cursor.createdAt) := by
    rw [textProperty, property_object]
    simp [CursorPayload.fields, payloadOf, hnames]
  have hread : textProperty "id" (Json.stringMembers (payloadOf cursor).fields) =
      some (ofString (uuidText cursor.id)) := by
    rw [textProperty, property_object]
    simp [CursorPayload.fields, payloadOf]
  have hbounds := abs_le.1 hdate
  simp only [CursorPayload.tree, position?, hcreatedAt, hread, Option.bind_eq_bind,
    Option.bind_some, toISOString, Utf16.toUnicode_ofString,
    Iso8601.parse_format hbounds.1 hbounds.2, readUuid_uuidText hid, Option.pure_def]

/-! ## One call -/

section Alone

variable {hmac : List UInt8 → List UInt8} {policies : Bool} {choice : Choice}
  {applicationId : Uuid} {query : NotificationListQuery} {cursor : Option Cursor}

/-- The notifications of a database. -/
def notifications (db : Database) : List NotificationRecord :=
  db.store.committed.rows.filterMap Row.notification?

/-- The text of a cursor. -/
def cursorText (hmac : List UInt8 → List UInt8) (cursor : Cursor) : Text :=
  encodeCursor hmac (payloadOf cursor)

/-- The answer of `list`. -/
def answer (hmac : List UInt8 → List UInt8) (applicationId : Uuid)
    (query : NotificationListQuery) (cursor : Option Cursor) (rows : List NotificationRecord) :
    NotificationListResult :=
  let page := page query.limit (query.filters.rows applicationId cursor query.limit rows)
  { items := page.items, nextCursor := page.nextCursor.map (cursorText hmac) }

/-- The policies hide no row of the application. -/
theorem rows_admitted (cursor : Option Cursor) (filters : NotificationListFilters) (limit : Nat)
    {admits : Row → Bool}
    (hadmits : ∀ r : Row, r.applicationId = some applicationId → admits r = true)
    (rows : List Row) :
    filters.rows applicationId cursor limit
        ((rows.filter admits).filterMap Row.notification?) =
      filters.rows applicationId cursor limit (rows.filterMap Row.notification?) := by
  have hfilter : ∀ p : NotificationRecord → Bool,
      (∀ r, p r = true → r.applicationId = applicationId) →
        ((rows.filter admits).filterMap Row.notification?).filter p =
          (rows.filterMap Row.notification?).filter p := by
    intro p hp
    rw [List.filterMap_filter, List.filter_filterMap, List.filter_filterMap]
    refine List.filterMap_congr fun r _ => ?_
    cases hr : r.notification? with
    | none => simp
    | some x =>
      by_cases hx : p x = true
      · have happ : r.applicationId = some applicationId := by
          rw [Row.notification?_eq_some.1 hr, ← hp x hx]
          rfl
        simp [hadmits r happ]
      · have hnot : p x = false := Bool.eq_false_iff.2 hx
        simp [Option.filter_some, hnot]
  rw [NotificationListFilters.rows, NotificationListFilters.rows, hfilter]
  intro r hr
  simp only [NotificationListFilters.matches, decide_eq_true_eq] at hr
  exact hr.1.1

variable (hmac policies choice applicationId query cursor) in
/-- **A call that runs alone answers from the committed rows, and leaves them as they are.** -/
theorem list_alone {db : Database} (hidle : db.store.Idle)
    (hcursor : (query.cursor = none ∧ cursor = none) ∨ ∃ c, cursor = some c ∧
      query.cursor = some (cursorText hmac c) ∧ |c.createdAt| ≤ maximumTime ∧ c.id < 2 ^ 128) :
    (list hmac applicationId query).run.Returns (exec policies) choice db fun result db' =>
      result = .ok (answer hmac applicationId query cursor (notifications db)) ∧
        db'.store.Idle ∧ db'.store.committed = db.store.committed := by
  have hdecode : ∃ payload, decodeCursor hmac query.cursor = .ok payload ∧
      position payload = pure cursor := by
    rcases hcursor with ⟨hquery, rfl⟩ | ⟨c, rfl, hquery, hdate, hid⟩
    · exact ⟨none, by rw [hquery]; rfl, rfl⟩
    · refine ⟨some (payloadOf c).tree, ?_, ?_⟩
      · rw [hquery]
        exact decodeCursor_of_split (split_encodeCursor hmac _)
      · simp only [position, position?_payloadOf hdate hid]
  obtain ⟨payload, hpayload, hposition⟩ := hdecode
  let begun : Database := { db with
    store := db.store.start.2
    scope := Function.update db.scope db.store.start.1 (some applicationId)
    startedAt := Function.update db.startedAt db.store.start.1 db.now }
  have hserving : begun.Serving db.store.start.1 applicationId :=
    ⟨hidle.start, Function.update_self _ _ _⟩
  have hview : begun.store.view db.store.start.1 = db.store.committed := Store.view_start
  have hadmits : ∀ r : Row, r.applicationId = some applicationId →
      (⟨policies, db.store.start.1⟩ : QueryExecutor).admits begun r = true :=
    fun _ hr => admits_own hserving hr
  have hselect : (⟨policies, db.store.start.1⟩ : QueryExecutor).select Row.notification? begun =
      some (_, begun) := select_eq hserving Row.notification?
  obtain ⟨store, hcommit, hidle', hcommitted⟩ := hserving.solo.commits
  rw [list, hpayload]
  simp only [pure_bind]
  refine Raising.returns_bind.2 (Raising.returns_call.2 ⟨_, begun, rfl, Raising.returns_bind.2 ?_⟩)
  rw [hposition]
  refine Raising.returns_call.2 ⟨_, begun, Statement.bind_eq_some.2 ⟨_, _, hselect, rfl⟩, ?_⟩
  refine Prog.returns_done.2 (Raising.returns_call.2
    ⟨(), { begun with store }, congrArg (Option.map _) hcommit, ?_⟩)
  refine Prog.returns_done.2 (Prog.returns_done.2
    ⟨congrArg Except.ok ?_, hidle', hcommitted.trans hview⟩)
  rw [hview, rows_admitted cursor query.filters query.limit hadmits]
  rfl

end Alone

end NotificationQueryService

end PublicApi

end NotificationPlatform
