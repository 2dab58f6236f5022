import NotificationPlatform.Paging.Keyset
import NotificationPlatform.PublicApi.NotificationQuery

/-!
# Pages of notifications

A listing is read page by page, each call with the cursor of the page before, while nothing is
written. The cursor's date has no microseconds. So the next page starts where the millisecond of the
last row does, and the rows of that millisecond that come after the row are on no page.
-/

namespace NotificationPlatform

namespace PublicApi

namespace NotificationQueryService

open Interleaving PublicApi.NotificationRepository NotificationPlatform.NotificationQueryService
  Paging Relational
open Utf16 (Text)

/-! ## The order of a listing -/

instance : Std.Total listedBefore where
  total a b := by
    rcases lt_trichotomy a.createdAt b.createdAt with hlt | heq | hgt
    · exact .inr (.inl hlt)
    · rcases le_total b.id a.id with hle | hle
      · exact .inl (.inr ⟨heq.symm, hle⟩)
      · exact .inr (.inr ⟨heq, hle⟩)
    · exact .inl (.inl hgt)

instance : IsTrans NotificationRecord listedBefore where
  trans a b c hab hbc := by
    rcases hab with hab | ⟨hab, hid⟩ <;> rcases hbc with hbc | ⟨hbc, hid'⟩
    · exact .inl (hbc.trans hab)
    · exact .inl (hbc ▸ hab)
    · exact .inl (hab ▸ hbc)
    · exact .inr ⟨hbc.trans hab, hid'.trans hid⟩

theorem id_eq_of_listedBefore {a b : NotificationRecord} (hab : listedBefore a b)
    (hba : listedBefore b a) : a.id = b.id := by
  rcases hab with hab | ⟨heq, hid⟩ <;> rcases hba with hba | ⟨heq', hid'⟩
  · exact absurd hab (not_lt_of_gt hba)
  · exact absurd heq' hab.ne'
  · exact absurd heq hba.ne'
  · exact le_antisymm hid' hid

/-- One row has each identifier. -/
def Distinct (rows : List NotificationRecord) : Prop := (rows.map (·.id)).Nodup

theorem Distinct.eq {rows : List NotificationRecord} (h : Distinct rows) {a b : NotificationRecord}
    (ha : a ∈ rows) (hb : b ∈ rows) (hab : listedBefore a b) (hba : listedBefore b a) : a = b :=
  List.inj_on_of_nodup_map h ha hb (id_eq_of_listedBefore hab hba)

theorem distinct_notifications (db : Database) : Distinct (notifications db) := by
  have hkeys := db.store.committed.nodup
  unfold Distinct notifications
  rw [List.Nodup, List.pairwise_map] at hkeys ⊢
  rw [List.pairwise_filterMap]
  refine hkeys.imp fun {r r'} hne x hx y hy hid => hne ?_
  rw [Row.notification?_eq_some.1 hx, Row.notification?_eq_some.1 hy, key_row, key_row,
    Row.primaryKey, Row.primaryKey, hid]

/-- A part of the rows is in the order of all. -/
theorem insertionSort_filter {rows : List NotificationRecord} (h : Distinct rows)
    (p : NotificationRecord → Bool) :
    (rows.filter p).insertionSort listedBefore = (rows.insertionSort listedBefore).filter p := by
  have hperm : ((rows.filter p).insertionSort listedBefore).Perm
      ((rows.insertionSort listedBefore).filter p) :=
    (List.perm_insertionSort _ _).trans ((List.perm_insertionSort _ _).symm.filter p)
  refine hperm.eq_of_pairwise ?_ (List.pairwise_insertionSort listedBefore _)
    ((List.pairwise_insertionSort listedBefore _).filter p)
  intro a b ha hb hab hba
  have ha' := (List.mem_filter.1 ((List.mem_insertionSort _).1 ha)).1
  have hb' := (List.mem_insertionSort _).1 (List.mem_filter.1 hb).1
  exact h.eq ha' hb' hab hba

/-! ## What follows a cursor -/

/-- The cursor that is taken at a row. -/
def cursorOf (r : NotificationRecord) : Cursor := ⟨toDate r.createdAt, r.id⟩

/-- The row is on a page after the one that ends with `final`. -/
def isAfter (final r : NotificationRecord) : Bool := (cursorOf final).precedes r

theorem isAfter_iff {final r : NotificationRecord} : isAfter final r = true ↔
    r.createdAt < toTimestamptz (toDate final.createdAt) ∨
      r.createdAt = toTimestamptz (toDate final.createdAt) ∧ r.id < final.id := by
  simp only [isAfter, Cursor.precedes, cursorOf]
  exact decide_eq_true_iff

theorem toTimestamptz_toDate_le (t : Timestamptz) : toTimestamptz (toDate t) ≤ t := by
  have hdiv := Int.ediv_mul_le t (show (1000 : Int) ≠ 0 by decide)
  exact hdiv

/-- What comes before a row in the listing, and the row itself, are not after it. -/
theorem not_isAfter {final r : NotificationRecord} (h : listedBefore r final) :
    isAfter final r = false := by
  rw [← Bool.not_eq_true, isAfter_iff]
  have hfloor := toTimestamptz_toDate_le final.createdAt
  rintro (hlt | ⟨heq, hid⟩)
  · rcases h with h | ⟨h, -⟩
    · exact absurd (hlt.trans_le hfloor) (not_lt_of_gt h)
    · exact absurd (hlt.trans_le hfloor) (h ▸ lt_irrefl _)
  · rcases h with h | ⟨-, h⟩
    · exact absurd h (not_lt_of_ge (heq ▸ hfloor))
    · exact absurd hid (not_lt_of_ge h)

/-- What is after a row is after the rows that one is after. -/
theorem isAfter_trans {l m r : NotificationRecord} (h : isAfter l m = true)
    (h' : isAfter m r = true) : isAfter l r = true := by
  rw [isAfter_iff] at h h' ⊢
  have hfloor := toTimestamptz_toDate_le m.createdAt
  rcases h' with h' | ⟨h', hid'⟩
  · rcases h with h | ⟨h, -⟩
    · exact .inl ((h'.trans_le hfloor).trans h)
    · exact .inl (h ▸ h'.trans_le hfloor)
  · rcases h with h | ⟨h, hid⟩
    · exact .inl ((h'.trans_le hfloor).trans_lt h)
    · rcases (h'.trans_le hfloor).lt_or_eq with hlt | heq
      · exact .inl (h ▸ hlt)
      · exact .inr ⟨heq.trans h, hid'.trans hid⟩

/-! ## Pages -/

section Pages

variable {applicationId : Uuid} {filters : NotificationListFilters} {limit : Nat}
  {rows : List NotificationRecord}

/-- The rows a listing is about, as it lists them. -/
def listing (applicationId : Uuid) (filters : NotificationListFilters)
    (rows : List NotificationRecord) : List NotificationRecord :=
  (rows.filter (filters.matches applicationId)).insertionSort listedBefore

/-- The rows that follow a cursor. -/
def following (cursor : Option Cursor) (list : List NotificationRecord) :
    List NotificationRecord :=
  list.filter fun r => decide (∀ c ∈ cursor, c.precedes r = true)

variable (applicationId filters limit) in
theorem rows_eq (h : Distinct rows) (cursor : Option Cursor) :
    filters.rows applicationId cursor limit rows =
      (following cursor (listing applicationId filters rows)).take (limit + 1) := by
  have hdistinct : Distinct (rows.filter (filters.matches applicationId)) :=
    h.sublist (List.filter_sublist.map _)
  rw [NotificationListFilters.rows, following, listing, ← insertionSort_filter hdistinct,
    List.filter_filter]
  congr 2
  refine List.filter_congr fun r _ => ?_
  rw [Bool.and_comm]
  simp

/-- A page names its last row if more rows follow. -/
theorem page_take (left : List NotificationRecord) (limit : Nat) :
    (page limit (left.take (limit + 1))).items = left.take limit ∧
      (page limit (left.take (limit + 1))).nextCursor =
        if limit < left.length then (left.take limit).getLast?.map cursorOf else none := by
  have htake : (left.take (limit + 1)).take limit = left.take limit := by
    rw [List.take_take, Nat.min_eq_left (Nat.le_succ limit)]
  have hlength : (left.take (limit + 1)).length > limit ↔ limit < left.length := by
    rw [List.length_take]
    omega
  refine ⟨htake, ?_⟩
  simp only [page, htake, hlength]
  rfl

/-- The rows that follow the last row of a page are those of the rest of the list that are after
it. -/
theorem following_next {cursor : Option Cursor} {final : NotificationRecord}
    (hcursor : cursor = none ∨ ∃ last, cursor = some (cursorOf last))
    (hfinal : ((following cursor (listing applicationId filters rows)).take limit).getLast? =
      some final) :
    following (some (cursorOf final)) (listing applicationId filters rows) =
      ((following cursor (listing applicationId filters rows)).drop limit).filter
        (isAfter final) := by
  have hsorted : (listing applicationId filters rows).Pairwise listedBefore :=
    List.pairwise_insertionSort _ _
  have hleft := hsorted.filter fun r => decide (∀ c ∈ cursor, c.precedes r = true)
  rw [← following] at hleft
  have hmem := List.mem_of_mem_take (List.mem_of_getLast? hfinal)
  -- what follows the later row follows the earlier cursor as well
  have hwithin : following (some (cursorOf final)) (listing applicationId filters rows) =
      (following cursor (listing applicationId filters rows)).filter (isAfter final) := by
    rw [following, following, List.filter_filter]
    refine List.filter_congr fun r _ => ?_
    have hnew : decide (∀ c ∈ some (cursorOf final), c.precedes r = true) = isAfter final r := by
      simp [isAfter]
    rw [hnew]
    cases hr : isAfter final r with
    | false => rfl
    | true =>
      rw [Bool.true_and, eq_comm, decide_eq_true_iff]
      intro c hc
      rcases hcursor with rfl | ⟨last, rfl⟩
      · cases hc
      · obtain rfl := Option.some.inj hc
        have hfollows := of_decide_eq_true (List.mem_filter.1 hmem).2
        exact isAfter_trans (hfollows _ rfl) hr
  have hbefore : ((following cursor (listing applicationId filters rows)).take limit).filter
      (isAfter final) = [] := by
    obtain ⟨init, hinit⟩ := List.getLast?_eq_some_iff.1 hfinal
    have hpairs := hleft.sublist (List.take_sublist limit _)
    rw [hinit, List.pairwise_append] at hpairs
    refine List.filter_eq_nil_iff.2 fun x hx => ?_
    rw [hinit, List.mem_append, List.mem_singleton] at hx
    rw [Bool.not_eq_true]
    rcases hx with hx | rfl
    · exact not_isAfter (hpairs.2.2 x hx final (List.mem_singleton_self final))
    · exact not_isAfter (.inr ⟨rfl, le_rfl⟩)
  rw [hwithin]
  conv_lhs => rw [← List.take_append_drop limit (following cursor _), List.filter_append, hbefore,
    List.nil_append]

end Pages

/-! ## A listing -/

section Listing

variable (hmac : List UInt8 → List UInt8) (policies : Bool) (applicationId : Uuid)
  (query : NotificationListQuery)

/-- A call of `list` that runs alone gives the result, and leaves the database so. -/
def Answers (db : Database) (cursor : Option Text) (result : NotificationListResult)
    (db' : Database) : Prop :=
  (list hmac applicationId { query with cursor }).run.Returns (exec policies) .nothing db
    fun r d => r = .ok result ∧ d = db'

/-- What is listed from a cursor on, with the cursor of each page for the next, up to the page that
has none. -/
inductive Listed : Database → Option Text → List NotificationRecord → Prop where
  | last {db db' : Database} {cursor : Option Text} {items : List NotificationRecord}
      (call : Answers hmac policies applicationId query db cursor ⟨items, none⟩ db') :
      Listed db cursor items
  | more {db db' : Database} {cursor : Option Text} {next : Text}
      {items rest : List NotificationRecord}
      (call : Answers hmac policies applicationId query db cursor ⟨items, some next⟩ db')
      (listed : Listed db' (some next) rest) : Listed db cursor (items ++ rest)

/-- The dates are ones a `Date` can hold, and the identifiers have 128 bits. -/
structure Filled (rows : List NotificationRecord) : Prop where
  date : ∀ r ∈ rows, |toDate r.createdAt| ≤ maximumTime
  id : ∀ r ∈ rows, r.id < 2 ^ 128

variable {hmac policies applicationId query}

theorem Answers.unique {db db₁ db₂ : Database} {cursor : Option Text}
    {result result' : NotificationListResult}
    (h : Answers hmac policies applicationId query db cursor result db₁)
    (h' : Answers hmac policies applicationId query db cursor result' db₂) :
    result = result' ∧ db₁ = db₂ := by
  obtain ⟨r, d, ⟨hr, rfl⟩, hr', rfl⟩ := Prog.Returns.both h h'
  rw [hr] at hr'
  cases hr'
  exact ⟨rfl, rfl⟩

/-- A listing has one result. -/
theorem Listed.unique {db : Database} {cursor : Option Text}
    {items items' : List NotificationRecord}
    (h : Listed hmac policies applicationId query db cursor items)
    (h' : Listed hmac policies applicationId query db cursor items') : items = items' := by
  induction h generalizing items' with
  | last call =>
    cases h' with
    | last call' => cases (call.unique call').1; rfl
    | more call' => cases (call.unique call').1
  | more call _ ih =>
    cases h' with
    | last call' => cases (call.unique call').1
    | more call' listed' =>
      obtain ⟨hresult, rfl⟩ := call.unique call'
      cases hresult
      rw [ih listed']

variable (hmac policies applicationId query) in
/-- One call answers with the first of the rows that follow its cursor. -/
theorem answers_page {db : Database} (hidle : db.store.Idle) (hfilled : Filled (notifications db))
    {cursor : Option Cursor}
    (hcursor : cursor = none ∨ ∃ final ∈ notifications db, cursor = some (cursorOf final))
    {left : List NotificationRecord}
    (hleft : left = following cursor (listing applicationId query.filters (notifications db))) :
    ∃ db', db'.store.Idle ∧ notifications db' = notifications db ∧
      Answers hmac policies applicationId query db (cursor.map (cursorText hmac))
        ⟨left.take query.limit, if query.limit < left.length then
          ((left.take query.limit).getLast?.map cursorOf).map (cursorText hmac) else none⟩ db' := by
  have htext : ((cursor.map (cursorText hmac)) = none ∧ cursor = none) ∨
      ∃ c, cursor = some c ∧ cursor.map (cursorText hmac) = some (cursorText hmac c) ∧
        |c.createdAt| ≤ maximumTime ∧ c.id < 2 ^ 128 := by
    rcases hcursor with rfl | ⟨final, hfinal, rfl⟩
    · exact .inl ⟨rfl, rfl⟩
    · exact .inr ⟨_, rfl, rfl, hfilled.date final hfinal, hfilled.id final hfinal⟩
  obtain ⟨r, db', halone, hr, hidle', hcommitted⟩ := list_alone hmac policies .nothing applicationId
    { query with cursor := cursor.map (cursorText hmac) } cursor hidle htext
  have hsame : notifications db' = notifications db := by
    rw [notifications, hcommitted, notifications]
  refine ⟨db', hidle', hsame, r, db', halone, hr.trans (congrArg Except.ok ?_), rfl⟩
  obtain ⟨hitems, hnext⟩ := page_take left query.limit
  have hpage := rows_eq applicationId query.filters query.limit (distinct_notifications db) cursor
  rw [← hleft] at hpage
  have hfilters : NotificationListQuery.filters
      { query with cursor := cursor.map (cursorText hmac) } = query.filters := rfl
  simp only [answer, hfilters, hpage, hitems, hnext]
  congr 1
  split <;> rfl

/-- The rows that follow the cursor of a page are read page by page. -/
theorem listed_of_reads {rows : List NotificationRecord} (hfilled : Filled rows)
    {left items : List NotificationRecord} (h : Reads query.limit isAfter left items)
    {db : Database} {cursor : Option Cursor} (hidle : db.store.Idle)
    (hrows : notifications db = rows)
    (hleft : left = following cursor (listing applicationId query.filters rows))
    (hcursor : cursor = none ∨ ∃ final ∈ rows, cursor = some (cursorOf final)) :
    Listed hmac policies applicationId query db (cursor.map (cursorText hmac)) items := by
  induction h generalizing db cursor with
  | @last left short =>
    subst hrows
    obtain ⟨db', -, -, hanswers⟩ :=
      answers_page hmac policies applicationId query hidle hfilled hcursor hleft
    rw [List.take_of_length_le short, if_neg (Nat.not_lt.2 short)] at hanswers
    exact .last hanswers
  | @more left rest final long final_eq _ ih =>
    subst hrows
    obtain ⟨db', hidle', hrows', hanswers⟩ :=
      answers_page hmac policies applicationId query hidle hfilled hcursor hleft
    rw [if_pos long, final_eq] at hanswers
    have hfinal : final ∈ notifications db := by
      have hmem := List.mem_of_mem_take (List.mem_of_getLast? final_eq)
      rw [hleft] at hmem
      have hlisted := (List.mem_insertionSort _).1 (List.mem_filter.1 hmem).1
      exact (List.mem_filter.1 hlisted).1
    have hnext : (left.drop query.limit).filter (isAfter final) =
        following (some (cursorOf final))
          (listing applicationId query.filters (notifications db)) := by
      have hnone : cursor = none ∨ ∃ last, cursor = some (cursorOf last) :=
        hcursor.imp_right fun ⟨last, _, hlast⟩ => ⟨last, hlast⟩
      subst hleft
      exact (following_next hnone final_eq).symm
    exact .more hanswers (ih hidle' hrows' hnext (.inr ⟨final, hfinal, rfl⟩))

variable (hmac policies applicationId query) in
/-- **A listing comes to an end, and has every row once and in order exactly if at each boundary
between two pages every later row was created before the millisecond of the last one began, or as it
began with a smaller identifier.** -/
theorem list_complete_iff {db : Database} (hidle : db.store.Idle)
    (hfilled : Filled (notifications db)) (hlimit : 1 ≤ query.limit) :
    (∃ items, Listed hmac policies applicationId query db none items) ∧
      ((∀ items, Listed hmac policies applicationId query db none items →
          items.Nodup ∧ items.Pairwise listedBefore ∧ ∀ r, r ∈ items ↔
            r ∈ notifications db ∧ query.filters.matches applicationId r = true) ↔
        ∀ k final,
          (listing applicationId query.filters (notifications db))[(k + 1) * query.limit - 1]? =
              some final →
            ∀ r ∈ (listing applicationId query.filters (notifications db)).drop
              ((k + 1) * query.limit), isAfter final r = true) := by
  obtain ⟨items, hreads⟩ : ∃ items, Reads query.limit isAfter
      (listing applicationId query.filters (notifications db)) items := exists_reads hlimit _
  have hlisted : Listed hmac policies applicationId query db none items := by
    refine listed_of_reads hfilled hreads hidle rfl ?_ (.inl rfl)
    exact (List.filter_eq_self.2 fun r _ => decide_eq_true fun c hc => absurd hc (by simp)).symm
  have hmem : ∀ r, r ∈ listing applicationId query.filters (notifications db) ↔
      r ∈ notifications db ∧ query.filters.matches applicationId r = true := fun r => by
    rw [listing, List.mem_insertionSort, List.mem_filter]
  have hdistinct : (listing applicationId query.filters (notifications db)).Nodup :=
    (List.perm_insertionSort _ _).nodup_iff.2
      ((List.Nodup.of_map _ (distinct_notifications db)).filter _)
  have hsorted : (listing applicationId query.filters (notifications db)).Pairwise listedBefore :=
    List.pairwise_insertionSort _ _
  refine ⟨⟨items, hlisted⟩, Iff.trans ?_ (reads_iff hlimit hreads)⟩
  constructor
  · intro h
    obtain ⟨hnodup, hpairs, hall⟩ := h items hlisted
    have hperm : items.Perm (listing applicationId query.filters (notifications db)) :=
      (List.perm_ext_iff_of_nodup hnodup hdistinct).2 fun r => (hall r).trans (hmem r).symm
    refine hperm.eq_of_pairwise ?_ hpairs hsorted
    intro a b ha hb hab hba
    exact (distinct_notifications db).eq ((hall a).1 ha).1 ((hmem b).1 hb).1 hab hba
  · rintro rfl items' hlisted'
    obtain rfl := hlisted.unique hlisted'
    exact ⟨hdistinct, hsorted, hmem⟩

end Listing

/-! ## Two notifications -/

namespace Sample

def notification (id : Uuid) (createdAt : Timestamptz) : NotificationRecord where
  id := id
  applicationId := 1
  whatsAppSessionId := 2
  templateId := none
  status := .QUEUED
  recipientPhoneNumber := "+5511999990000"
  recipientChatIdentifier := none
  renderedBody := "Your order has shipped."
  templateVariables := none
  priority := 0
  scheduledAt := none
  attemptCount := 0
  maximumAttempts := 5
  nextAttemptAt := none
  claimToken := none
  claimedAt := none
  providerMessageId := none
  providerAcknowledgement := 0
  sentAt := none
  deliveredAt := none
  readAt := none
  failedAt := none
  cancelledAt := none
  deadLetteredAt := none
  failureCode := none
  failureReason := none
  failureClassification := none
  retryOfNotificationId := none
  idempotencyKeyId := none
  correlationId := none
  metadata := []
  createdAt := createdAt
  updatedAt := 0

/-- The identifier of `payload`. -/
def identifier : Uuid := 0x0195a1c27f0070008000000000000001

/-- Half a millisecond after the date of `payload`. -/
def instant : Timestamptz := 1772366400000500

/-- The notification that the first page ends with, and one that was created before it. -/
def rows (microseconds : Int) : List NotificationRecord :=
  [notification identifier instant, notification (identifier - 1) (instant - microseconds)]

def database (microseconds : Int) : Database where
  store := .settled ⟨(rows microseconds).map .notification, by
    simp [rows, key_row, Row.primaryKey, notification, identifier]⟩ (by
    intro r hr _ _ x hx
    obtain ⟨n, hn, rfl⟩ := List.mem_map.1 hr
    rcases List.mem_pair.1 hn with rfl | rfl <;> cases hx)
  now := instant
  identifiers := 0
  scope := fun _ => none
  startedAt := fun _ => 0

/-- Pages of one notification. -/
def query : NotificationListQuery := ⟨none, none, none, 1⟩

theorem listing_rows (microseconds : Int) (h : 0 < microseconds) :
    listing 1 query.filters (notifications (database microseconds)) = rows microseconds := by
  have hsorted : (rows microseconds).Pairwise listedBefore :=
    List.pairwise_pair.2 (.inl (sub_lt_self _ h))
  have hmatches : (rows microseconds).filter (query.filters.matches 1) = rows microseconds := rfl
  rw [listing, show notifications (database microseconds) = rows microseconds from rfl, hmatches]
  exact hsorted.insertionSort_eq

theorem filled (microseconds : Int) (h : |toDate (instant - microseconds)| ≤ maximumTime) :
    Filled (rows microseconds) where
  date := by
    intro r hr
    rcases List.mem_pair.1 hr with rfl | rfl
    · exact abs_le.2 (by decide)
    · exact h
  id := by
    intro r hr
    rcases List.mem_pair.1 hr with rfl | rfl
    · exact show identifier < 2 ^ 128 by decide
    · exact show identifier - 1 < 2 ^ 128 by decide

example : (payloadOf (cursorOf (notification identifier instant))).fields =
    NotificationPlatform.NotificationQueryService.Sample.payload.fields := by decide +kernel

end Sample

/-- Two notifications that are two milliseconds apart are listed on two pages. -/
theorem list_complete_apart :
    (∃ items, Listed Sample.hmac true 1 Sample.query (Sample.database 2000) none items) ∧
      ∀ items, Listed Sample.hmac true 1 Sample.query (Sample.database 2000) none items →
        items.Nodup ∧ items.Pairwise listedBefore ∧ ∀ r, r ∈ items ↔
          r ∈ notifications (Sample.database 2000) ∧ Sample.query.filters.matches 1 r = true := by
  have hidle : (Sample.database 2000).store.Idle := fun _ => rfl
  obtain ⟨hends, hcomplete⟩ := list_complete_iff Sample.hmac true 1 Sample.query hidle
    (Sample.filled 2000 (abs_le.2 (by decide))) le_rfl
  refine ⟨hends, hcomplete.2 fun k final hfinal r hr => ?_⟩
  rw [Sample.listing_rows 2000 (by decide)] at hfinal hr
  cases k with
  | zero =>
    cases hfinal
    rw [List.mem_singleton.1 hr]
    decide
  | succ k =>
    have hrest : (Sample.rows 2000).drop ((k + 1 + 1) * 1) = [] :=
      List.drop_of_length_le (Nat.mul_one _ ▸ Nat.le_add_left 2 k)
    rw [show (k + 1 + 1) * Sample.query.limit = (k + 1 + 1) * 1 from rfl, hrest] at hr
    cases hr

/-- A notification that was created in the millisecond of the one before, a tenth of it earlier, is
on no page. -/
theorem list_complete_fails :
    ¬ ∀ (hmac : List UInt8 → List UInt8) (policies : Bool) (applicationId : Uuid)
        (query : NotificationListQuery) (db : Database), db.store.Idle →
      Filled (notifications db) → 1 ≤ query.limit →
        (∃ items, Listed hmac policies applicationId query db none items) ∧
          ∀ items, Listed hmac policies applicationId query db none items →
            items.Nodup ∧ items.Pairwise listedBefore ∧ ∀ r, r ∈ items ↔
              r ∈ notifications db ∧ query.filters.matches applicationId r = true := by
  intro h
  have hidle : (Sample.database 100).store.Idle := fun _ => rfl
  have hfilled : Filled (notifications (Sample.database 100)) :=
    Sample.filled 100 (abs_le.2 (by decide))
  obtain ⟨-, hall⟩ := h Sample.hmac true 1 Sample.query (Sample.database 100) hidle hfilled le_rfl
  have hreads : Reads 1 isAfter (Sample.rows 100)
      [Sample.notification Sample.identifier Sample.instant] :=
    .more (by decide) rfl (.last (by decide))
  have hlisted : Listed Sample.hmac true 1 Sample.query (Sample.database 100) none
      [Sample.notification Sample.identifier Sample.instant] := by
    refine listed_of_reads hfilled hreads hidle rfl ?_ (.inl rfl)
    rw [Sample.listing_rows 100 (by decide)]
    rfl
  have hmem := ((hall _ hlisted).2.2 _).2 ⟨List.mem_cons_of_mem _ (List.mem_singleton_self
    (Sample.notification (Sample.identifier - 1) (Sample.instant - 100))), by decide⟩
  exact absurd (congrArg NotificationRecord.id (List.mem_singleton.1 hmem)) (by decide)

end NotificationQueryService

end PublicApi

end NotificationPlatform
