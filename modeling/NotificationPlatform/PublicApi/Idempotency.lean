import NotificationPlatform.PublicApi.Claiming
import NotificationPlatform.PublicApi.Fingerprint

/-!
# One key, one creation

Requests of one application that carry one key, side by side, each statement a step, with the abort
of any transaction at any point. At most one of them creates its notifications, whichever endpoint
they came in on, and the others are answered with these or refused.
-/

namespace NotificationPlatform

namespace PublicApi

open Interleaving Relational Transactional CreateNotificationService NotificationsController
open Utf16 (Text)

/-! ## The machine -/

/-- What the controller hands to the service. -/
def AcceptedRequest.creation (correlationId : Option CorrelationId) :
    AcceptedRequest → CreationRequest
  | .single principal body key => .create correlationId (createInput principal body key)
  | .batch principal body key => .createBatch correlationId (createBatchInput principal body key)

/-- A request of the application that passed validation and carries the key. -/
structure KeyedRequest (a : Uuid) (key : Text) where
  correlationId : Option CorrelationId
  accepted : AcceptedRequest
  application : accepted.input.applicationId = a
  keyed : accepted.input.idempotencyKey = some key

section Requests

variable {environment : Environment} {a : Uuid} {key : Text}

def KeyedRequest.creation (request : KeyedRequest a key) : CreationRequest :=
  request.accepted.creation request.correlationId

def KeyedRequest.fingerprint (environment : Environment) (request : KeyedRequest a key) : Buffer :=
  request.creation.fingerprint environment

theorem KeyedRequest.input_creation (request : KeyedRequest a key) :
    request.creation.input = request.accepted.input := by
  obtain ⟨correlationId, accepted, -, -⟩ := request
  cases accepted <;> rfl

theorem KeyedRequest.addressing_creation (request : KeyedRequest a key) :
    request.creation.addressing = request.accepted.addressing := by
  obtain ⟨correlationId, accepted, -, -⟩ := request
  cases accepted <;> rfl

variable (environment a key) in
/-- Requests with one fingerprint have one canonical string. -/
def CollisionFree : Prop :=
  ∀ r r' : KeyedRequest a key, r.fingerprint environment = r'.fingerprint environment →
    r.accepted.canonical environment = r'.accepted.canonical environment

/-- Requests with one fingerprint are for the same recipients. -/
theorem CollisionFree.recipients (h : CollisionFree environment a key) {r r' : KeyedRequest a key}
    (hsame : r.fingerprint environment = r'.fingerprint environment) :
    r.creation.recipients = r'.creation.recipients := by
  have haddressing : r.creation.addressing = r'.creation.addressing := by
    rw [r.addressing_creation, r'.addressing_creation]
    exact ((canonical_eq_iff environment r.accepted r'.accepted).1 (h r r' hsame)).1.addressing
  cases hr : r.creation <;> cases hr' : r'.creation <;>
    simp only [hr, hr', CreationRequest.addressing, reduceCtorEq, Addressing.recipient.injEq,
      Addressing.recipients.injEq] at haddressing <;>
    simp only [CreationRequest.recipients, haddressing]

end Requests

/-- The requests of all processes. -/
@[reducible] def keyed (policies : Bool) (environment : Environment) (a : Uuid) (key : Text) :
    Machine operations where
  World := Database
  Choice := Choice
  Request := KeyedRequest a key
  Result := CreationResult
  Event := DatabaseEvent
  exec := exec policies
  program request := request.creation.program environment
  outside := databaseOutside

@[reducible] def keyedDiscipline (policies : Bool) (environment : Environment) (a : Uuid)
    (key : Text) : Discipline (keyed policies environment a key) where
  toTypestate := creatingTypestate environment
  initial request := { request := request.creation }
  Answers := CreatingAnswers
  Returns := fun _ q result => q.Answers result.answer
  answers_exec := creating_answers
  conforms request := conforms_program request.creation

/-! ## At most one creation -/

/-- Request `i` has created its notifications, and nothing else was added. -/
structure CreatedBy (environment : Environment) (base : Table Row) (ph : Nat → Option Creating)
    (db : Database) (i : Nat) (q : Creating) (claim : Uuid × Uuid)
    (written : List InsertNotificationInput) (k : IdempotencyRecord) (rows : List Row) : Prop where
  phase : ph i = some q
  created : q.stage = .created (some claim) written
  addresses : q.request.Addresses written
  claimed : k.ClaimedBy environment q.request claim
  completes : k.Completes (written.map (·.id))
  wrote : WroteFor k written rows
  committed : ∀ r, r ∈ db.store.committed.rows ↔ r ∈ base.rows ∨ r ∈ rows
  fresh : ∀ r ∈ rows, r ∉ base.rows
  alone : ∀ {j q' claim' written'}, ph j = some q' → q'.stage = .created claim' written' → j = i

/-- No request has created its notifications, and nothing was added. -/
structure Untouched (base : Table Row) (ph : Nat → Option Creating) (db : Database) : Prop where
  committed : db.store.committed = base
  none : ∀ {j q claim written}, ph j = some q → q.stage ≠ .created claim written

structure CreatesOnce (environment : Environment) (a : Uuid) (key : Text) (base : Table Row)
    (ph : Nat → Option Creating) (db : Database) : Prop where
  outcome : Untouched base ph db ∨
    ∃ i q claim written k rows, CreatedBy environment base ph db i q claim written k rows
  concerns : ∀ {i q}, ph i = some q → q.request.input.applicationId = a ∧
    q.request.input.idempotencyKey = some key
  apart : ∀ {i j q q' t}, ph i = some q → ph j = some q' → q.stage.transaction? = some t →
    q'.stage.transaction? = some t → i = j
  holds : ∀ {i q}, ph i = some q → q.Holds environment db

section Invariant

variable {environment : Environment} {policies : Bool} {a : Uuid} {key : Text} {base : Table Row}
  {ph : Nat → Option Creating} {db db' : Database} {i : Nat}

theorem CreatesOnce.spawn (h : CreatesOnce environment a key base ph db)
    (request : KeyedRequest a key) (hi : ph i = none) :
    CreatesOnce environment a key base
      (Function.update ph i (some { request := request.creation })) db := by
  have hphase : ∀ {j q}, Function.update ph i (some { request := request.creation }) j = some q →
      q = { request := request.creation } ∨ ph j = some q := by
    intro j q hq
    by_cases hji : j = i
    · subst hji
      rw [Function.update_self] at hq
      exact .inl (Option.some.inj hq).symm
    · rw [Function.update_of_ne hji] at hq
      exact .inr hq
  refine ⟨?_, fun {j q} hj => ?_, fun {j k q q' t} hj hk ht ht' => ?_, fun {j q} hj => ?_⟩
  · rcases h.outcome with huntouched | ⟨j, q, claim, written, k, rows, hcreated⟩
    · refine .inl ⟨huntouched.committed, fun {j q claim written} hj hstage => ?_⟩
      rcases hphase hj with rfl | hj
      · cases hstage
      · exact huntouched.none hj hstage
    · have hji : j ≠ i := by
        rintro rfl
        cases hi.symm.trans hcreated.phase
      refine .inr ⟨j, q, claim, written, k, rows, ⟨?_, hcreated.created, hcreated.addresses,
        hcreated.claimed, hcreated.completes, hcreated.wrote, hcreated.committed, hcreated.fresh,
        fun {j' q' _ _} hj' hstage => ?_⟩⟩
      · rw [Function.update_of_ne hji]
        exact hcreated.phase
      · rcases hphase hj' with rfl | hj'
        · cases hstage
        · exact hcreated.alone hj' hstage
  · rcases hphase hj with rfl | hj
    · rw [request.input_creation]
      exact ⟨request.application, request.keyed⟩
    · exact h.concerns hj
  · rcases hphase hj with rfl | hj
    · cases ht
    · rcases hphase hk with rfl | hk
      · cases ht'
      · exact h.apart hj hk ht ht'
  · rcases hphase hj with rfl | hj
    · refine ⟨?_, fun ht => (by cases ht), fun ht => (by cases ht), trivial, rfl⟩
      rw [request.input_creation, request.keyed]
      rfl
    · exact h.holds hj

/-- Two rows of the key are one row. -/
theorem IdempotencyRecord.IsOf.same {k k' : IdempotencyRecord} {r r' : NotificationRequest}
    (h : k.IsOf r) (h' : k'.IsOf r') (happ : r.applicationId = r'.applicationId)
    (hkey : r.idempotencyKey = r'.idempotencyKey) {holder holder' : Option Nat}
    (hk : .idempotencyKey k ∈ (db.store.of holder).rows)
    (hk' : .idempotencyKey k' ∈ (db.store.of holder').rows) :
    Relational.key (Row.idempotencyKey k) = Relational.key (Row.idempotencyKey k') := by
  obtain ⟨ha, text, htext, hcolumn⟩ := h
  obtain ⟨ha', text', htext', hcolumn'⟩ := h'
  obtain rfl : text = text' := Option.some.inj (htext.symm.trans (hkey.trans htext'))
  have hname : k.key = k'.key := Option.some.inj (hcolumn.symm.trans hcolumn')
  refine db.store.coherent.unique hk hk' (index_row _) ?_
  rw [index_row]
  simp only [Row.uniqueValue, ha, ha', happ, hname]

/-- A request that has created its notifications performs nothing more. -/
theorem Creating.not_allows_created {q : Creating} {claim : Option (Uuid × Uuid)}
    {written : List InsertNotificationInput} (hstage : q.stage = .created claim written) (o : Op) :
    ¬ q.Allows environment o := by
  obtain ⟨request, stage, found⟩ := q
  obtain rfl : stage = .created claim written := hstage
  intro ho
  cases o <;> exact ho

theorem CreatesOnce.advance {q : Creating} {o : Op} {r : o.Ret} {c : Choice}
    (h : CreatesOnce environment a key base ph db) (hi : ph i = some q)
    (ho : q.Allows environment o) (he : exec policies db o c = some (r, db')) :
    CreatesOnce environment a key base
      (Function.update ph i (some (q.advance environment o r))) db' := by
  have hsteps : Creating.Steps environment q (q.advance environment o r) db db' :=
    (Creating.move ho).steps (h.holds hi) he
  -- no other request has the transaction open
  have hother : ∀ {j q'}, j ≠ i → ph j = some q' → ∀ t, q'.stage.transaction? = some t →
      some t ≠ q.stage.transaction? := by
    intro j q' hji hj t ht hsame
    exact hji (h.apart hj hi ht hsame.symm)
  have hself : Function.update ph i (some (q.advance environment o r)) i =
      some (q.advance environment o r) := Function.update_self _ _ _
  have hphase : ∀ {j q'}, Function.update ph i (some (q.advance environment o r)) j = some q' →
      (j = i ∧ q' = q.advance environment o r) ∨ (j ≠ i ∧ ph j = some q') := by
    intro j q' hj
    by_cases hji : j = i
    · subst hji
      exact .inl ⟨rfl, Option.some.inj (hj.symm.trans hself)⟩
    · rw [Function.update_of_ne hji] at hj
      exact .inr ⟨hji, hj⟩
  refine ⟨?_, fun {j q'} hj => ?_, fun {j k q₁ q₂ t} hj hk ht ht' => ?_, fun {j q'} hj => ?_⟩
  · rcases hsteps.committed with ⟨hsame, hstage⟩ | ⟨t, claim, written, k, hcommits⟩
    · rcases h.outcome with huntouched | ⟨j, q₁, claim, written, k, rows, hcreated⟩
      · refine .inl ⟨hsame.trans huntouched.committed, fun {j q' claim written} hj hcreated => ?_⟩
        rcases hphase hj with ⟨-, rfl⟩ | ⟨-, hj⟩
        · exact huntouched.none hi (hstage claim written hcreated)
        · exact huntouched.none hj hcreated
      · have hji : j ≠ i := by
          rintro rfl
          cases hi.symm.trans hcreated.phase
          exact Creating.not_allows_created hcreated.created o ho
        refine .inr ⟨j, q₁, claim, written, k, rows, ⟨?_, hcreated.created, hcreated.addresses,
          hcreated.claimed, hcreated.completes, hcreated.wrote, ?_, hcreated.fresh,
          fun {j' q' claim' written'} hj' hcreated' => ?_⟩⟩
        · rw [Function.update_of_ne hji]
          exact hcreated.phase
        · rw [hsame]
          exact hcreated.committed
        · rcases hphase hj' with ⟨rfl, rfl⟩ | ⟨-, hj'⟩
          · exact hcreated.alone hi (hstage claim' written' hcreated')
          · exact hcreated.alone hj' hcreated'
    · -- a request that created before has committed a row of the key, and this one holds another
      have huntouched : Untouched base ph db := by
        refine h.outcome.resolve_right ?_
        rintro ⟨j, q₁, claim₁, written₁, k₁, rows₁, hcreated⟩
        have hk₁ : .idempotencyKey k₁ ∈ db.store.committed.rows :=
          (hcreated.committed _).2 (.inr hcreated.wrote.claim)
        obtain ⟨happ, hkey⟩ := h.concerns hi
        obtain ⟨happ₁, hkey₁⟩ := h.concerns hcreated.phase
        refine hcommits.fresh _ hcommits.wrote.claim _ hk₁ ?_
        exact hcreated.claimed.isOf.same hcommits.claimed.isOf (happ₁.trans happ.symm)
          (hkey₁.trans hkey.symm) (show _ ∈ (db.store.of none).rows from hk₁)
          (show _ ∈ (db.store.of (some t)).rows from hcommits.wrote.claim)
      have hbase : db.store.committed.rows = base.rows := by rw [huntouched.committed]
      refine .inr ⟨i, q.advance environment o r, claim, written, k, (db.store.own t).rows,
        ⟨hself, hcommits.after, hcommits.addresses, hcommits.claimed, hcommits.completes,
          hcommits.wrote, fun r' => by rw [hcommits.committed, hbase], fun r' hr' hold => ?_,
          fun {j q' claim' written'} hj hcreated => ?_⟩⟩
      · exact hcommits.fresh r' hr' r' (hbase ▸ hold) rfl
      · rcases hphase hj with ⟨rfl, -⟩ | ⟨-, hj⟩
        · rfl
        · exact absurd hcreated (huntouched.none hj)
  · rcases hphase hj with ⟨-, rfl⟩ | ⟨-, hj⟩
    · have hconcerns := h.concerns hi
      exact hconcerns
    · exact h.concerns hj
  · -- the transaction of the request is the one it had open, or one nobody had begun
    have hmine : ∀ {j q' t}, j ≠ i → ph j = some q' → q'.stage.transaction? = some t →
        (q.advance environment o r).stage.transaction? ≠ some t := by
      intro j q' t hji hj ht hsame
      rcases hsteps.transaction hsame with hold | hnew
      · exact hother hji hj t ht hold.symm
      · exact absurd ((h.holds hj).begun ht).1 (Nat.not_lt.2 hnew)
    rcases hphase hj with ⟨hji, rfl⟩ | ⟨hji, hj'⟩ <;>
      rcases hphase hk with ⟨hki, rfl⟩ | ⟨hki, hk'⟩
    · rw [hji, hki]
    · exact absurd ht (hmine hki hk' ht')
    · exact absurd ht' (hmine hji hj' ht)
    · exact h.apart hj' hk' ht ht'
  · rcases hphase hj with ⟨-, rfl⟩ | ⟨hji, hj⟩
    · exact hsteps.holds
    · exact (h.holds hj).leaves hsteps.leaves (hother hji hj)

theorem CreatesOnce.outside {event : DatabaseEvent} (h : CreatesOnce environment a key base ph db)
    (he : databaseOutside db event = some db') : CreatesOnce environment a key base ph db' := by
  obtain ⟨hleaves, hsame⟩ := outside_leaves he
  refine ⟨?_, h.concerns, h.apart, fun hj =>
    (h.holds hj).leaves hleaves fun _ _ hnone => by cases hnone⟩
  rcases h.outcome with huntouched | ⟨j, q, claim, written, k, rows, hcreated⟩
  · exact .inl ⟨hsame.trans huntouched.committed, huntouched.none⟩
  · refine .inr ⟨j, q, claim, written, k, rows, ⟨hcreated.phase, hcreated.created,
      hcreated.addresses, hcreated.claimed, hcreated.completes, hcreated.wrote, ?_, hcreated.fresh,
      hcreated.alone⟩⟩
    rw [hsame]
    exact hcreated.committed

/-- The database knows no row of the key. -/
def Unused (a : Uuid) (key : Text) (db : Database) : Prop :=
  ∀ k, .idempotencyKey k ∈ db.store.committed.rows → k.applicationId = a →
    textColumn key ≠ some k.key

/-- A row of the key is that of the request that created its notifications. -/
theorem CreatesOnce.key_created {db₀ : Database}
    (h : CreatesOnce environment a key db₀.store.committed ph db) (hunused : Unused a key db₀)
    {k : IdempotencyRecord} (hk : .idempotencyKey k ∈ db.store.committed.rows)
    (happ : k.applicationId = a) (hkey : textColumn key = some k.key) :
    ∃ i q claim written rows,
      CreatedBy environment db₀.store.committed ph db i q claim written k rows := by
  rcases h.outcome with huntouched | ⟨i, q, claim, written, k', rows, hcreated⟩
  · rw [huntouched.committed] at hk
    exact absurd hkey (hunused k hk happ)
  · rcases (hcreated.committed _).1 hk with hbase | hmine
    · exact absurd hkey (hunused k hbase happ)
    · rcases hcreated.wrote.only _ hmine with he | ⟨d, -, habout⟩
      · cases he
        exact ⟨i, q, claim, written, rows, hcreated⟩
      · cases habout

end Invariant

/-! ## What a creation comes to -/

namespace CreatedBy

variable {environment : Environment} {base : Table Row} {ph : Nat → Option Creating}
  {db : Database} {i : Nat} {q : Creating} {claim : Uuid × Uuid}
  {written : List InsertNotificationInput} {k : IdempotencyRecord} {rows : List Row}

theorem added (h : CreatedBy environment base ph db i q claim written k rows) {r : Row} :
    Added base.rows db r ↔ r ∈ rows := by
  constructor
  · rintro ⟨hr, hnew⟩
    exact ((h.committed r).1 hr).resolve_left hnew
  · exact fun hr => ⟨(h.committed r).2 (.inr hr), h.fresh r hr⟩

/-- A committed notification with the identifier of one that was created is that one. -/
theorem becomes (h : CreatedBy environment base ph db i q claim written k rows)
    {n : NotificationRecord} (hn : .notification n ∈ db.store.committed.rows)
    {d : InsertNotificationInput} (hd : d ∈ written) (hid : n.id = d.id) :
    .notification n ∈ rows ∧ Becomes d n := by
  obtain ⟨n', hn', hbecomes⟩ := h.wrote.notifications d hd
  have hsame : Row.notification n = .notification n' :=
    List.inj_on_of_nodup_map db.store.committed.nodup hn ((h.committed _).2 (.inr hn'))
      (by simp only [key_row, Row.primaryKey, hid, hbecomes.id])
  cases hsame
  exact ⟨hn', hbecomes⟩

/-- Notifications with the identifiers of those that were created are those that were created. -/
theorem exactly (h : CreatedBy environment base ph db i q claim written k rows)
    {notifications : List NotificationRecord}
    (hcommitted : ∀ n ∈ notifications, .notification n ∈ db.store.committed.rows)
    (hids : notifications.map (·.id) = written.map (·.id)) (n : NotificationRecord) :
    n ∈ notifications ↔ Added base.rows db (.notification n) := by
  rw [h.added]
  constructor
  · intro hn
    have hid : n.id ∈ written.map (·.id) := hids ▸ List.mem_map_of_mem hn
    obtain ⟨d, hd, hid⟩ := List.mem_map.1 hid
    exact (h.becomes (hcommitted n hn) hd hid.symm).1
  · intro hn
    rcases h.wrote.only _ hn with he | ⟨d, hd, habout⟩
    · cases he
    · have hid : n.id ∈ notifications.map (·.id) := by
        rw [hids, show n.id = d.id from Option.some.inj habout]
        exact List.mem_map_of_mem hd
      obtain ⟨n', hn', hid⟩ := List.mem_map.1 hid
      have hsame : Row.notification n' = .notification n :=
        List.inj_on_of_nodup_map db.store.committed.nodup (hcommitted n' hn')
          ((h.committed _).2 (.inr hn)) (by simp only [key_row, Row.primaryKey, hid])
      cases hsame
      exact hn'

/-- They are for the recipients the drafts are for, in order. -/
theorem addressed (h : CreatedBy environment base ph db i q claim written k rows)
    {notifications : List NotificationRecord}
    (hcommitted : ∀ n ∈ notifications, .notification n ∈ db.store.committed.rows)
    (hids : notifications.map (·.id) = written.map (·.id)) :
    List.Forall₂ (fun value n => parsePhoneNumber value = some n.recipientPhoneNumber)
      q.request.recipients notifications := by
  have hmeans : ∀ n ∈ notifications, ∀ d ∈ written, n.id = d.id →
      n.recipientPhoneNumber = d.recipientPhoneNumber := fun n hn d hd hid =>
    (h.becomes (hcommitted n hn) hd hid).2.recipientPhoneNumber
  clear hcommitted
  have haddresses : List.Forall₂ _ q.request.recipients written := h.addresses
  clear h
  generalize q.request.recipients = recipients at haddresses ⊢
  induction haddresses generalizing notifications with
  | nil =>
    obtain rfl : notifications = [] := List.map_eq_nil_iff.1 hids
    exact .nil
  | @cons value d values written hvalue _ ih =>
    obtain ⟨n, rest, rfl, hid, hids⟩ := List.map_eq_cons_iff.1 hids
    refine .cons ?_ (ih hids fun n' hn' d' hd' =>
      hmeans n' (List.mem_cons_of_mem _ hn') d' (List.mem_cons_of_mem _ hd'))
    rw [hmeans n List.mem_cons_self d List.mem_cons_self hid]
    exact hvalue

end CreatedBy

/-! ## All requests -/

/-- Where every request is. -/
abbrev creatings {policies : Bool} {environment : Environment} {a : Uuid} {key : Text}
    (s : System (keyed policies environment a key)) : Nat → Option Creating :=
  (keyedDiscipline policies environment a key).phase s

section Runs

variable {policies : Bool} {environment : Environment} {a : Uuid} {key : Text}
  {P : System (keyed policies environment a key) → Label (keyed policies environment a key) → Prop}
  {s s' : System (keyed policies environment a key)} {db : Database} {i : Nat}

theorem creates_once_run (h : Run P (System.start db) s) :
    CreatesOnce environment a key db.store.committed (creatings s) s.world :=
  Discipline.run_invariant (D := keyedDiscipline policies environment a key)
    (CreatesOnce environment a key db.store.committed)
    ⟨.inl ⟨rfl, fun hj => (by cases hj)⟩, fun hj => (by cases hj), fun hj => (by cases hj),
      fun hj => (by cases hj)⟩
    (fun request h hi => h.spawn request hi) (fun h hi ho _ he => h.advance hi ho he)
    (fun h he => h.outside he) h

/-- A request that has created its notifications stays where it is. -/
theorem created_lasts (h : Run P (System.start db) s) (h' : Run P s s') {q : Creating}
    {claim : Option (Uuid × Uuid)} {written : List InsertNotificationInput}
    (hi : creatings s i = some q) (hstage : q.stage = .created claim written) :
    creatings s' i = some q := by
  induction h' with
  | refl => exact hi
  | @tail s₁ s₂ l hr _ hs ih =>
    have hdisciplined := Discipline.disciplined_run
      (D := keyedDiscipline policies environment a key) (h.trans hr)
    cases hdisciplined.stepped hs with
    | @spawned j request fresh phases =>
      have hji : i ≠ j := by
        rintro rfl
        cases fresh.symm.trans ih
      rw [creatings, phases, Function.update_of_ne hji]
      exact ih
    | crashed phases | outside phases =>
      rw [creatings, phases]
      exact ih
    | @advanced j _ o _ _ phases _ _ step =>
      have hji : i ≠ j := by
        rintro rfl
        cases step.before.symm.trans ih
        exact Creating.not_allows_created hstage o step.allowed
      rw [creatings, phases, Function.update_of_ne hji]
      exact ih

/-- Whoever changes the committed rows has created its notifications. -/
theorem change_creates (h : Run P (System.start db) s)
    {l : Label (keyed policies environment a key)} (hs : s.step l = some s')
    (hchange : s'.world.store.committed ≠ s.world.store.committed) :
    ∃ i c q claim written, l = .advance i c ∧ creatings s' i = some q ∧
      q.stage = .created (some claim) written := by
  have hdisciplined := Discipline.disciplined_run
    (D := keyedDiscipline policies environment a key) h
  cases hdisciplined.stepped hs with
  | spawned _ _ _ world | crashed _ _ world => exact absurd (by rw [world]) hchange
  | outside _ _ world => exact absurd (outside_leaves world).2 hchange
  | @advanced i c o r q phases _ _ step =>
    have hsteps : Creating.Steps environment q (q.advance environment o r) s.world s'.world :=
      (Creating.move step.allowed).steps ((creates_once_run h).holds step.before) step.exec
    rcases hsteps.committed with ⟨hsame, -⟩ | ⟨t, claim, written, k, hcommits⟩
    · exact absurd hsame hchange
    · exact ⟨i, c, _, claim, written, rfl, step.after, hcommits.after⟩

/-- Who is at a stage is a request of the machine. -/
theorem creating_request (h : Run P (System.start db) s) {q : Creating}
    (hi : creatings s i = some q) : ∃ request : KeyedRequest a key,
      s.requestOf i = some request ∧ q.request = request.creation := by
  obtain ⟨t, ht, -⟩ := Option.map_eq_some_iff.1 hi
  have hrequest : s.requestOf i = some t.request := by rw [System.requestOf, ht, Option.map_some]
  exact ⟨t.request, hrequest, Discipline.run_phases
    (D := keyedDiscipline policies environment a key)
    (fun request q => q.request = request.creation) (fun _ => rfl) (fun hq _ _ => hq) h hrequest hi⟩

/-- Where a request was when it returned. -/
theorem returned_creating (h : Run P (System.start db) s) {request : KeyedRequest a key}
    {result : CreationResult} (hi : s.threads i = some ⟨request, .running (.done result)⟩) :
    ∃ q, creatings s i = some q ∧ q.request = request.creation ∧ q.Answers result.answer := by
  have hdisciplined := Discipline.disciplined_run
    (D := keyedDiscipline policies environment a key) h
  have hphase := Discipline.phase_eq (D := keyedDiscipline policies environment a key) hi
  obtain ⟨request', hrequest', hq⟩ := creating_request h hphase
  rw [System.requestOf, hi] at hrequest'
  cases hrequest'
  exact ⟨_, hphase, hq, hdisciplined.residual hi⟩

/-- A request that returned notifications returned those that were created. -/
theorem answered_creation (h : Run P (System.start db) s) (hunused : Unused a key db)
    {request : KeyedRequest a key} {result : CreationResult}
    (hi : s.threads i = some ⟨request, .running (.done result)⟩)
    {notifications : List NotificationRecord} {wasReplayed : Bool}
    (hanswer : result.answer = .ok (notifications, wasReplayed)) :
    ∃ j q claim written k rows, CreatedBy environment db.store.committed (creatings s) s.world j q
      claim written k rows ∧ k.requestFingerprint = request.fingerprint environment ∧
        (∀ n ∈ notifications, .notification n ∈ s.world.store.committed.rows) ∧
        notifications.map (·.id) = written.map (·.id) ∧ (j = i ↔ wasReplayed = false) := by
  have hcreates := creates_once_run h
  obtain ⟨q, hq, hrequest, hanswers⟩ := returned_creating h hi
  have hholds := hcreates.holds hq
  have hknows := hholds.knows
  have hsaw := hholds.saw
  rw [hanswer] at hanswers
  rcases hanswers with ⟨t, hlost⟩ | hanswers
  · rw [hlost] at hknows
    exact absurd hknows id
  · cases wasReplayed with
    | false =>
      obtain ⟨rfl, claim, written, hstage, hids⟩ := hanswers
      rw [hstage] at hknows hsaw
      rcases hcreates.outcome with huntouched | ⟨j, q', claim', written', k, rows, hcreated⟩
      · exact absurd hstage (huntouched.none hq)
      · obtain rfl : i = j := hcreated.alone hq hstage
        obtain rfl : q = q' := Option.some.inj (hq.symm.trans hcreated.phase)
        have hsame := hstage.symm.trans hcreated.created
        cases hsame
        refine ⟨i, q, claim', written, k, rows, hcreated, ?_, hsaw, hids, iff_of_true rfl rfl⟩
        rw [hcreated.claimed.fingerprint, hrequest]
        rfl
    | true =>
      obtain ⟨rfl, record, hstage, hreplays⟩ := hanswers
      rw [hstage] at hknows hsaw
      obtain ⟨hrecord, hof, hfingerprint⟩ := hknows
      obtain ⟨happ, hkey⟩ := hcreates.concerns hq
      obtain ⟨happ', text, htext, hcolumn⟩ := hof
      obtain rfl : text = key := Option.some.inj (htext.symm.trans hkey)
      obtain ⟨j, q', claim, written, rows, hcreated⟩ :=
        hcreates.key_created hunused hrecord (happ'.trans happ) hcolumn
      refine ⟨j, q', claim, written, record, rows, hcreated, ?_, hsaw,
        hcreated.completes.replays hreplays, iff_of_false ?_ (by simp)⟩
      · rw [hfingerprint, hrequest]
        rfl
      · rintro rfl
        obtain rfl : q = q' := Option.some.inj (hq.symm.trans hcreated.phase)
        cases hstage.symm.trans hcreated.created

/-- A request reads its own key, and has found it taken. -/
theorem Creating.taken_of_allows {q : Creating} {t : Nat} {a' : Uuid} {text : Text}
    (ho : q.Allows environment (.findByKey t a' text)) : (∃ t, q.stage = .lost t) ∨
      q.stage = .taken t ∧ a' = q.request.input.applicationId ∧
        q.request.input.idempotencyKey = some text := by
  obtain ⟨request, stage, found⟩ := q
  cases stage with
  | lost t' => exact .inl ⟨t', rfl⟩
  | taken t' =>
    obtain ⟨rfl, happ, hkey⟩ := ho
    exact .inr ⟨rfl, happ, hkey⟩
  | writing t' claim written => cases claim <;> exact absurd ho id
  | _ => exact absurd ho id

/-- A key that is read is completed. -/
theorem read_completed (h : Run P (System.start db) s) (hunused : Unused a key db)
    {e : Performed operations} (he : e ∈ s.trace) {t : Nat} {a' : Uuid} {text : Text}
    {record : IdempotencyRecord} (hread : e = ⟨i, .findByKey t a' text, some record⟩) :
    record.state = .COMPLETED := by
  induction h generalizing e i t a' text record with
  | refl => cases he
  | @tail s₁ s₂ l hr _ hs ih =>
    have hdisciplined := Discipline.disciplined_run
      (D := keyedDiscipline policies environment a key) hr
    cases hdisciplined.stepped hs with
    | spawned _ _ _ _ trace | crashed _ _ _ trace | outside _ _ _ trace =>
      exact ih (trace ▸ he) hread
    | @advanced j c o r q _ _ _ step =>
      rw [step.trace] at he
      rcases List.mem_cons.1 he with rfl | he
      · cases hread
        have hcreates := creates_once_run hr
        have hholds := hcreates.holds step.before
        rcases Creating.taken_of_allows step.allowed with ⟨t', hlost⟩ | ⟨hstage, rfl, htext⟩
        · have hknows := hholds.knows
          rw [hlost] at hknows
          exact absurd hknows id
        · obtain ⟨hsees, happ', hcolumn⟩ := findByKey_sees (c := c) step.exec
          obtain ⟨happ, hkey⟩ := hcreates.concerns step.before
          obtain rfl : text = key := Option.some.inj (htext.symm.trans hkey)
          have hcommitted := hholds.sees (by rw [hstage]; rfl)
            (fun rows hrows => by rw [hstage] at hrows; exact hrows) hsees
          obtain ⟨_, _, _, _, _, hcreated⟩ :=
            hcreates.key_created hunused hcommitted (happ'.trans happ) hcolumn
          exact hcreated.completes.1
      · exact ih he hread

/-! ## Once everything was aborted -/

theorem exec_identifiers {o : Op} {r : o.Ret} {db' : Database} {c : Choice}
    (he : exec policies db o c = some (r, db')) : db.identifiers ≤ db'.identifiers := by
  cases exec_effect he with
  | within t hwithin => exact hwithin.identifiers
  | begun a' => exact Nat.le_refl _
  | committed t hended => exact Nat.le_refl _
  | rolledBack t hended => exact Nat.le_refl _

theorem identifiers_grow (h : Run P (System.start db) s) :
    db.identifiers ≤ s.world.identifiers := by
  refine Discipline.run_invariant (D := keyedDiscipline policies environment a key)
    (fun _ w => db.identifiers ≤ w.identifiers) (Nat.le_refl _) (fun _ hle _ => hle)
    (fun hle _ _ _ he => hle.trans (exec_identifiers he)) (fun {_ w w' event} hle he => ?_) h
  cases event with
  | clock now =>
    simp only [databaseOutside] at he
    split at he
    · cases he
      exact hle
    · cases he
  | aborted t =>
    obtain ⟨⟨u, w''⟩, hrollback, rfl⟩ := Option.map_eq_some_iff.1 he
    obtain ⟨store, rfl, -⟩ := rollbackTransaction_ended hrollback
    exact hle

theorem rollbackTransaction_open {t : Nat} {own : Table Row}
    (h : db.store.opened t = some own) : ∃ db', rollbackTransaction t db = some ((), db') := by
  unfold rollbackTransaction Store.rollback
  split
  · rename_i hnone
    cases hnone.symm.trans h
  · exact ⟨_, rfl⟩

/-- What is left once every transaction was aborted. -/
structure Cleared (s s' : System (keyed policies environment a key)) : Prop where
  threads : s'.threads = s.threads
  committed : s'.world.store.committed = s.world.store.committed
  next : s'.world.store.next = s.world.store.next
  identifiers : s'.world.identifiers = s.world.identifiers

theorem abort_below (s : System (keyed policies environment a key)) (i n : Nat) :
    ∃ s', Run (fun _ l => l.IsFor i) s s' ∧ Cleared s s' ∧
      ∀ t < n, s'.world.store.opened t = none := by
  induction n with
  | zero => exact ⟨s, .refl, ⟨rfl, rfl, rfl, rfl⟩, fun t ht => absurd ht (Nat.not_lt_zero t)⟩
  | succ n ih =>
    obtain ⟨s₁, hrun, hcleared, hbelow⟩ := ih
    cases hopen : s₁.world.store.opened n with
    | none =>
      refine ⟨s₁, hrun, hcleared, fun t ht => ?_⟩
      rcases Nat.lt_succ_iff_lt_or_eq.1 ht with ht | rfl
      · exact hbelow t ht
      · exact hopen
    | some own =>
      obtain ⟨db', hrollback⟩ := rollbackTransaction_open hopen
      obtain ⟨store, rfl, hended⟩ := rollbackTransaction_ended hrollback
      have hstep : s₁.step (.outside (.aborted n)) =
          some { s₁ with world := { s₁.world with store } } :=
        System.step_outside.2 ⟨_, Option.map_eq_some_iff.2 ⟨_, hrollback, rfl⟩, rfl⟩
      have hfor : Label.IsFor i (.outside (.aborted n) :
        Label (keyed policies environment a key)) := trivial
      refine ⟨_, .tail hrun hfor hstep, ⟨hcleared.threads,
        hended.committed.trans hcleared.committed, hended.next.trans hcleared.next,
        hcleared.identifiers⟩, fun t ht => ?_⟩
      change store.opened t = none
      rw [hended.opened]
      rcases Nat.lt_succ_iff_lt_or_eq.1 ht with ht | rfl
      · rw [Function.update_of_ne (Nat.ne_of_lt ht)]
        exact hbelow t ht
      · exact Function.update_self _ _ _

theorem abort_all (s : System (keyed policies environment a key)) (i : Nat) :
    ∃ s', Run (fun _ l => l.IsFor i) s s' ∧ Cleared s s' ∧ s'.world.store.Idle := by
  obtain ⟨s', hrun, hcleared, hbelow⟩ := abort_below s i s.world.store.next
  refine ⟨s', hrun, hcleared, fun t => ?_⟩
  rcases Nat.lt_or_ge t s.world.store.next with ht | ht
  · exact hbelow t ht
  · exact s'.world.store.coherent.bounded t (hcleared.next ▸ ht)

/-- What validation accepts and the columns hold is created, if nobody is in the way. -/
theorem KeyedRequest.returns (request : KeyedRequest a key) {now : Date}
    (hready : Ready db request.accepted.input) (hfits : Fits request.accepted.input now)
    (hfuture : request.accepted.input.scheduledAt.any (· ≤ now) = false) :
    (request.creation.program environment).Returns (exec policies) (.date now) db
      fun result _ => ∃ answer, result.answer = .ok answer := by
  obtain ⟨correlationId, accepted, happlication, hkeyed⟩ := request
  cases accepted with
  | single principal body supplied =>
    refine Prog.returns_bind.2 ((returns_create environment correlationId hready
      (AcceptedRequest.single principal body supplied).bounded body.recipient_isValid hfits
      hfuture).mono ?_)
    rintro _ _ ⟨x, rfl⟩
    exact Prog.returns_done.2 ⟨_, rfl⟩
  | batch principal body supplied =>
    refine Prog.returns_bind.2 ((returns_createBatch environment correlationId hready
      (AcceptedRequest.batch principal body supplied).bounded body.recipients_areValid hfits
      hfuture).mono ?_)
    rintro _ _ ⟨x, rfl⟩
    exact Prog.returns_done.2 ⟨_, rfl⟩

/-- As long as nothing was created a request can still succeed, once the others are out of the
way. -/
theorem succeeds_later (h : Run P (System.start db) s) (hunused : Unused a key db)
    (huntouched : Untouched db.store.committed (creatings s) s.world)
    (request : KeyedRequest a key) {now : Date} (hready : Ready db request.accepted.input)
    (hfits : Fits request.accepted.input now)
    (hfuture : request.accepted.input.scheduledAt.any (· ≤ now) = false)
    (hfree : s.threads i = none) : ∃ s' result notifications, Run Any s s' ∧
      s'.threads i = some ⟨request, .running (.done result)⟩ ∧
        result.answer = .ok (notifications, false) := by
  obtain ⟨s₁, hrun₁, hcleared, hidle⟩ := abort_all s i
  have hcommitted : s₁.world.store.committed = db.store.committed :=
    hcleared.committed.trans huntouched.committed
  have hready₁ : Ready s₁.world request.accepted.input := by
    refine ⟨hidle, fun r hr => ?_, ?_, ?_⟩
    · rw [hcommitted] at hr
      exact (hready.numbered r hr).trans_le (hcleared.identifiers ▸ identifiers_grow h)
    · rw [hcommitted]
      exact hready.resolves
    · rw [hcommitted]
      exact hready.fresh
  let s₂ : System (keyed policies environment a key) := { s₁ with
    threads := Function.update s₁.threads i
      (some ⟨request, .running (request.creation.program environment)⟩) }
  have hspawn : s₁.step (.spawn i request) = some s₂ :=
    System.step_spawn.2 ⟨by rw [hcleared.threads, hfree], rfl⟩
  have hreturns : (request.creation.program environment).Returns (exec policies) (.date now)
      s₁.world fun result _ => ∃ answer, result.answer = .ok answer :=
    request.returns hready₁ hfits hfuture
  obtain ⟨result, w, halone, answer, hanswer⟩ := hreturns
  have hstarted : s₂.threads i =
      some ⟨request, .running (request.creation.program environment)⟩ := by
    simp only [s₂, Function.update_self]
  obtain ⟨s', hrun₂, -, hdone⟩ := Run.of_alone hstarted halone
  have hfor : Label.IsFor i (.spawn i request : Label (keyed policies environment a key)) := rfl
  have hrun : Run (fun _ l => l.IsFor i) s s' := (Run.tail hrun₁ hfor hspawn).trans hrun₂
  obtain ⟨notifications, wasReplayed⟩ := answer
  refine ⟨s', result, notifications, hrun.any, hdone, ?_⟩
  obtain ⟨j, q, claim, written, k, rows, hcreated, -, -, -, hmine⟩ :=
    answered_creation (h.any.trans hrun.any) hunused hdone hanswer
  -- who has created the notifications is no thread that was there before
  have hji : j = i := by
    by_contra hji
    obtain ⟨hthreads, hhistory⟩ := hrun.others hji
    have hphase := hcreated.phase
    rw [creatings, Discipline.phase, hthreads, hhistory] at hphase
    exact huntouched.none hphase hcreated.created
  rw [hmine.1 hji] at hanswer
  exact hanswer

end Runs

/-! ## One creation for a key -/

/-- What requests with one key come to, from a database `db` and after a run that ended in `s`. -/
structure CreatedOnce {policies : Bool} {environment : Environment} {a : Uuid} {key : Text}
    (db : Database) (s : System (keyed policies environment a key)) : Prop where
  /-- One request at most changed the committed rows, -/
  once : ∃ i, ∀ {s₁ s₂ l}, Run Any (System.start db) s₁ → s₁.step l = some s₂ → Run Any s₂ s →
    s₂.world.store.committed ≠ s₁.world.store.committed → ∃ c, l = .advance i c
  /-- and what it added is a row of the key, notifications, and entries and jobs of theirs. -/
  rows : ∀ {r}, Added db.store.committed.rows s.world r → (∃ k, r = .idempotencyKey k) ∨
    ∃ n, Added db.store.committed.rows s.world (.notification n) ∧ r.about? = some n.id
  /-- Who is answered has the fingerprint of the key, and is answered with these notifications, in
  the order of its recipients. -/
  answered : ∀ {i request result notifications wasReplayed},
    s.threads i = some ⟨request, .running (.done result)⟩ →
    result.answer = .ok (notifications, wasReplayed) →
    (∃ k, Added db.store.committed.rows s.world (.idempotencyKey k) ∧
      k.requestFingerprint = request.fingerprint environment) ∧
      (∀ n, n ∈ notifications ↔ Added db.store.committed.rows s.world (.notification n)) ∧
      List.Forall₂ (fun value n => parsePhoneNumber value = some n.recipientPhoneNumber)
        request.creation.recipients notifications
  /-- Who has another is refused, and changed nothing with any of its steps. -/
  refused : ∀ {i request k}, s.requestOf i = some request →
    Added db.store.committed.rows s.world (.idempotencyKey k) →
    k.requestFingerprint ≠ request.fingerprint environment →
    (∀ {result}, s.threads i = some ⟨request, .running (.done result)⟩ →
      ∃ e, result.answer = .error e) ∧
      ∀ {s₁ s₂ c}, Run Any (System.start db) s₁ → s₁.step (.advance i c) = some s₂ →
        Run Any s₂ s → s₂.world.store.committed = s₁.world.store.committed
  /-- Nobody reads the key in flight. -/
  completed : ∀ {i t a' text record}, ⟨i, .findByKey t a' text, some record⟩ ∈ s.trace →
    record.state = .COMPLETED
  /-- Unless a row of the key was added nothing is left behind, -/
  aborted : (∀ k, ¬ Added db.store.committed.rows s.world (.idempotencyKey k)) →
    s.world.store.committed = db.store.committed
  /-- and a request that could have succeeded at the start can do so still. -/
  later : (∀ k, ¬ Added db.store.committed.rows s.world (.idempotencyKey k)) →
    ∀ (request : KeyedRequest a key) {now : Date} {i : Nat}, Ready db request.accepted.input →
      Fits request.accepted.input now →
      request.accepted.input.scheduledAt.any (· ≤ now) = false → s.threads i = none →
      ∃ s' result notifications, Run Any s s' ∧
        s'.threads i = some ⟨request, .running (.done result)⟩ ∧
          result.answer = .ok (notifications, false)

section Theorem

variable {policies : Bool} {environment : Environment} {a : Uuid} {key : Text}
  {P : System (keyed policies environment a key) → Label (keyed policies environment a key) → Prop}
  {s : System (keyed policies environment a key)} {db : Database} {i : Nat}

theorem untouched_of_no_key (h : Run P (System.start db) s)
    (hnone : ∀ k, ¬ Added db.store.committed.rows s.world (.idempotencyKey k)) :
    Untouched db.store.committed (creatings s) s.world := by
  refine (creates_once_run h).outcome.resolve_right ?_
  rintro ⟨i, q, claim, written, k, rows, hcreated⟩
  exact hnone k (hcreated.added.2 hcreated.wrote.claim)

/-- Whoever changed the committed rows on the way is the one that created its notifications. -/
theorem changer_created (h : Run P (System.start db) s)
    {s₁ s₂ : System (keyed policies environment a key)}
    {l : Label (keyed policies environment a key)} (h₁ : Run Any (System.start db) s₁)
    (hs : s₁.step l = some s₂) (h₂ : Run Any s₂ s)
    (hchange : s₂.world.store.committed ≠ s₁.world.store.committed) :
    ∃ i c q claim written k rows, l = .advance i c ∧ CreatedBy environment db.store.committed
      (creatings s) s.world i q claim written k rows := by
  obtain ⟨i, c, q, claim, written, rfl, hq, hstage⟩ := change_creates h₁ hs hchange
  have hlast := created_lasts (.tail h₁ trivial hs) h₂ hq hstage
  rcases (creates_once_run h).outcome with huntouched | ⟨j, q', claim', written', k, rows, hcreated⟩
  · exact absurd hstage (huntouched.none hlast)
  · obtain rfl : i = j := hcreated.alone hlast hstage
    exact ⟨i, c, q', claim', written', k, rows, rfl, hcreated⟩

/-- **One creation for a key**, however many requests carry it, however they interleave and
whichever of their transactions are aborted. -/
theorem created_once (h : Run P (System.start db) s) (hunused : Unused a key db)
    (hfree : CollisionFree environment a key) : CreatedOnce db s := by
  have hcreates := creates_once_run h
  have hkey : ∀ {i q claim written k rows k'}, CreatedBy environment db.store.committed
      (creatings s) s.world i q claim written k rows →
      Added db.store.committed.rows s.world (.idempotencyKey k') → k' = k := by
    intro i q claim written k rows k' hcreated hk'
    rcases hcreated.wrote.only _ (hcreated.added.1 hk') with he | ⟨d, -, habout⟩
    · exact Row.idempotencyKey.inj he
    · cases habout
  refine ⟨?_, ?_, ?_, ?_, fun hread => read_completed h hunused hread rfl,
    fun hnone => (untouched_of_no_key h hnone).committed,
    fun hnone request now i => succeeds_later h hunused (untouched_of_no_key h hnone) request⟩
  · rcases hcreates.outcome with huntouched | ⟨j, q, claim, written, k, rows, hcreated⟩
    · refine ⟨0, fun h₁ hs h₂ hchange => ?_⟩
      obtain ⟨_, _, _, _, _, _, _, -, hcreated⟩ := changer_created h h₁ hs h₂ hchange
      exact absurd hcreated.created (huntouched.none hcreated.phase)
    · refine ⟨j, fun h₁ hs h₂ hchange => ?_⟩
      obtain ⟨i, c, _, _, _, _, _, rfl, hcreated'⟩ := changer_created h h₁ hs h₂ hchange
      obtain rfl : i = j := hcreated.alone hcreated'.phase hcreated'.created
      exact ⟨c, rfl⟩
  · intro r hr
    rcases hcreates.outcome with huntouched | ⟨j, q, claim, written, k, rows, hcreated⟩
    · refine absurd hr.1 fun hmem => hr.2 ?_
      rw [← huntouched.committed]
      exact hmem
    · rcases hcreated.wrote.only r (hcreated.added.1 hr) with hk | ⟨d, hd, habout⟩
      · exact .inl ⟨k, hk⟩
      · obtain ⟨n, hn, hbecomes⟩ := hcreated.wrote.notifications d hd
        exact .inr ⟨n, hcreated.added.2 hn, habout.trans (congrArg some hbecomes.id.symm)⟩
  · intro i request result notifications wasReplayed hi hanswer
    obtain ⟨j, q, claim, written, k, rows, hcreated, hfingerprint, hcommitted, hids, -⟩ :=
      answered_creation h hunused hi hanswer
    refine ⟨⟨k, hcreated.added.2 hcreated.wrote.claim, hfingerprint⟩,
      hcreated.exactly hcommitted hids, ?_⟩
    obtain ⟨request', -, hrequest'⟩ := creating_request h hcreated.phase
    have hsame : request'.fingerprint environment = request.fingerprint environment := by
      rw [← hfingerprint, hcreated.claimed.fingerprint, hrequest']
      rfl
    rw [← hfree.recipients hsame, ← hrequest']
    exact hcreated.addressed hcommitted hids
  · intro i request k hi hk hother
    constructor
    · intro result hdone
      cases hanswer : result.answer with
      | error e => exact ⟨e, rfl⟩
      | ok answer =>
        obtain ⟨j, q, claim, written, k', rows, hcreated, hfingerprint, -⟩ :=
          answered_creation h hunused hdone hanswer
        rw [hkey hcreated hk] at hother
        exact absurd hfingerprint hother
    · intro s₁ s₂ c h₁ hs h₂
      by_contra hchange
      obtain ⟨j, c', q, claim, written, k', rows, hl, hcreated⟩ :=
        changer_created h h₁ hs h₂ hchange
      cases hl
      obtain ⟨request', hrequest', hq⟩ := creating_request h hcreated.phase
      obtain rfl : request = request' := Option.some.inj (hi.symm.trans hrequest')
      rw [hkey hcreated hk, hcreated.claimed.fingerprint, hq] at hother
      exact hother rfl

end Theorem

/-! ## One order, sent three times -/

namespace Retried

/-- Both bytes of every unit. -/
def digest (s : Text) : Buffer :=
  s.flatMap fun u : UInt16 => [UInt8.ofNat (u.toNat / 256), u.toUInt8]

theorem digest_injective : Function.Injective digest := by
  have hunit : ∀ u v : UInt16, UInt8.ofNat (u.toNat / 256) = UInt8.ofNat (v.toNat / 256) →
      u.toUInt8 = v.toUInt8 → u = v := by
    intro u v hhigh hlow
    have hu := u.toNat_lt
    have hv := v.toNat_lt
    have hquotient := congrArg UInt8.toNat hhigh
    have hremainder := congrArg UInt8.toNat hlow
    simp only [UInt8.toNat_ofNat', UInt16.toNat_toUInt8] at hquotient hremainder
    apply UInt16.toNat_inj.1
    omega
  intro s
  induction s with
  | nil =>
    intro s' h
    cases s' with
    | nil => rfl
    | cons v s' => cases h
  | cons u s ih =>
    intro s' h
    cases s' with
    | nil => cases h
    | cons v s' =>
      simp only [digest, List.flatMap_cons, List.cons_append, List.nil_append,
        List.cons.injEq] at h
      rw [hunit u v h.1 h.2.1, ih h.2.2]

def environment : Environment := { Intake.environment with sha256 := digest }

def key : IdempotencyKey := ⟨Utf16.ofString "order-1", by decide⟩

theorem collisionFree : CollisionFree environment 1 key.value := by
  intro r r' h
  simp only [KeyedRequest.fingerprint, CreationRequest.fingerprint, fingerprintRequest,
    KeyedRequest.input_creation, KeyedRequest.addressing_creation] at h
  exact digest_injective h

def content : NotificationContent := Intake.content [72, 105] (by decide)

theorem application_bound : (1 : Uuid) < 2 ^ 128 := by decide

theorem recipient_isValid : isValidPhoneNumber "+5511999998888" = true := by decide

def principal : ApiKeyPrincipal := ⟨1, application_bound⟩

def order : KeyedRequest 1 key.value where
  correlationId := none
  accepted := .single principal ⟨content, "+5511999998888", recipient_isValid⟩ (some key)
  application := rfl
  keyed := rfl

/-- The same message to two recipients, under the same key. -/
def batch : KeyedRequest 1 key.value where
  correlationId := none
  accepted := .batch principal ⟨content, ["+5511999998888", "+5511999997777"], by decide,
    by decide, by decide⟩ (some key)
  application := rfl
  keyed := rfl

/-- The first order is cut off when it has claimed the key. The second is in the way of the third,
which waits, and of the batch, which comes after. -/
def answered : System (keyed true environment 1 key.value) :=
  (System.start Intake.database).after
    ([.spawn 0 order, .advance 0 (.date 0)] ++ List.replicate 5 (.advance 0 .nothing) ++
      [.outside (.aborted 0), .spawn 1 order, .spawn 2 order, .spawn 3 batch,
        .advance 1 (.date 0)] ++ List.replicate 6 (.advance 1 .nothing) ++
      [.advance 2 (.date 0)] ++ List.replicate 5 (.advance 2 .nothing) ++
      List.replicate 6 (.advance 1 .nothing) ++ List.replicate 4 (.advance 2 .nothing) ++
      [.advance 3 .nothing, .advance 3 .nothing, .advance 3 (.date 0)] ++
      List.replicate 7 (.advance 3 .nothing))

/-- Whether a request has returned, and whether it was a replay if it was not refused. -/
def outcome? (i : Nat) : Option (Option Bool) :=
  match answered.threads i with
  | some ⟨_, .running (.done result)⟩ => some (result.answer.toOption.map (·.2))
  | _ => none

end Retried

/-- The cut-off order leaves nothing. The next one creates, the one after it replays, and the batch
is refused. -/
theorem retried_order_created_once :
    [0, 1, 2, 3].map Retried.outcome? = [none, some (some false), some (some true), some none] ∧
      CreatedOnce Intake.database Retried.answered := by
  refine ⟨by decide +kernel, created_once (.any_after _) ?_ Retried.collisionFree⟩
  intro k hk
  cases List.mem_singleton.1 hk

end PublicApi

end NotificationPlatform
