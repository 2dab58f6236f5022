import NotificationPlatform.Interleaving.Alone
import NotificationPlatform.PublicApi.Alone

/-!
# What validation accepts and the database stores

Validation counts code units and knows no column types. What it accepts is stored if the columns can
hold it: `Fits` is what the columns ask for beside the contract. A request that fits goes through
every statement of its transaction, and one that does not is refused by the first insert whose
columns cannot hold its values.
-/

namespace NotificationPlatform

namespace PublicApi

open Interleaving CreateNotificationService
open Utf16 (Text)

/-! ## Columns -/

/-- No unit is zero. -/
def IsText (s : Text) : Prop := 0 ∉ s

/-- No unit is zero, and every surrogate is one of a pair. -/
def IsJsonText (s : Text) : Prop := 0 ∉ s ∧ Utf16.isWellFormed s = true

/-- The year has four digits, and is not zero. -/
def HasStorableYear (d : Date) : Prop := 1 ≤ yearOf d ∧ yearOf d ≤ 9999

theorem textColumn_eq_some {s : Text} {stored : String} :
    textColumn s = some stored ↔ IsText s ∧ Utf16.toUnicode s = stored := by
  unfold textColumn IsText
  split <;> simp_all

theorem timestamptzColumn_eq_some {d d' : Date} :
    timestamptzColumn d = some d' ↔ HasStorableYear d ∧ d = d' := by
  unfold timestamptzColumn HasStorableYear
  split <;> simp_all

theorem jsonbString_isSome {s : Text} : (∃ stored, jsonbString s = some stored) ↔ IsJsonText s := by
  unfold jsonbString IsJsonText
  rw [← Bool.not_eq_false, ← not_or]
  split <;> simp_all

theorem jsonbEntries_isSome {entries : List (Text × Text)} :
    (∃ stored, jsonbEntries entries = some stored) ↔
      ∀ e ∈ entries, IsJsonText e.1 ∧ IsJsonText e.2 := by
  induction entries with
  | nil => exact ⟨fun _ e he => absurd he List.not_mem_nil, fun _ => ⟨[], rfl⟩⟩
  | cons e entries ih =>
    rw [List.forall_mem_cons, ← ih, ← jsonbString_isSome, ← jsonbString_isSome]
    simp only [jsonbEntries, List.mapM_cons, Option.bind_eq_bind, Option.pure_def,
      Option.bind_eq_some_iff, Option.some.injEq]
    constructor
    · rintro ⟨_, _, ⟨name, hname, value, hvalue, -⟩, rest, hrest, -⟩
      exact ⟨⟨⟨name, hname⟩, value, hvalue⟩, rest, hrest⟩
    · rintro ⟨⟨⟨name, hname⟩, value, hvalue⟩, rest, hrest⟩
      exact ⟨_, _, ⟨name, hname, value, hvalue, rfl⟩, rest, hrest, rfl⟩

theorem mapM_timestamptzColumn {o o' : Option Date} :
    o.mapM timestamptzColumn = some o' ↔ (∀ d ∈ o, HasStorableYear d) ∧ o = o' := by
  cases o with
  | none => simp [eq_comm]
  | some d =>
    simp only [Option.mapM_some, Option.map_eq_map, Option.map_eq_some_iff,
      timestamptzColumn_eq_some, Option.mem_def, Option.some.injEq, forall_eq']
    constructor
    · rintro ⟨_, ⟨hd, rfl⟩, rfl⟩
      exact ⟨hd, rfl⟩
    · rintro ⟨hd, rfl⟩
      exact ⟨d, ⟨hd, rfl⟩, rfl⟩

theorem columns_isSome {input : InsertNotificationInput} :
    (∃ draft, input.columns = some draft) ↔ IsText input.renderedBody ∧
      (∀ d ∈ input.scheduledAt, HasStorableYear d) ∧
        ∀ e ∈ input.metadata, IsJsonText e.1 ∧ IsJsonText e.2 := by
  rw [← jsonbEntries_isSome]
  simp only [columns_eq_some, textColumn_eq_some, mapM_timestamptzColumn]
  constructor
  · rintro ⟨_, _, _, metadata, ⟨hbody, -⟩, ⟨hscheduled, -⟩, hmetadata, -⟩
    exact ⟨hbody, hscheduled, metadata, hmetadata⟩
  · rintro ⟨hbody, hscheduled, metadata, hmetadata⟩
    exact ⟨_, _, _, metadata, ⟨hbody, rfl⟩, ⟨hscheduled, rfl⟩, hmetadata, rfl⟩

/-! ## The contract and the checks -/

/-- What the columns ask of a request beside the contract. A key is stored with its expiry and with
the time of its completion. -/
structure Fits (request : NotificationRequest) (now : Date) : Prop where
  body : IsText request.body
  metadata : ∀ e ∈ request.metadata, IsJsonText e.1 ∧ IsJsonText e.2
  schedule : ∀ d ∈ request.scheduledAt, HasStorableYear d
  key : ∀ key ∈ request.idempotencyKey, IsText key ∧ HasStorableYear now ∧
    HasStorableYear (now + IDEMPOTENCY_WINDOW_HOURS * 3600000)

/-- The bounds the contract sets. -/
structure Bounded (request : NotificationRequest) : Prop where
  body : 1 ≤ request.body.length ∧ request.body.length ≤ 4096
  attempts : ∀ n ∈ request.maximumAttempts, 1 ≤ n ∧ n ≤ 10
  key : ∀ key ∈ request.idempotencyKey, 1 ≤ key.length ∧ key.length ≤ 255

theorem AcceptedRequest.bounded (r : AcceptedRequest) : Bounded r.input := by
  have hkey : ∀ supplied : Option IdempotencyKey, ∀ key ∈ supplied.map (·.value),
      1 ≤ key.length ∧ key.length ≤ 255 := by
    intro supplied key hk
    obtain ⟨k, -, rfl⟩ := Option.map_eq_some_iff.1 hk
    exact k.bounds
  cases r with
  | single _ body key => exact ⟨body.body_bounds, body.attempts_bounds, hkey key⟩
  | batch _ body key => exact ⟨body.body_bounds, body.attempts_bounds, hkey key⟩

/-- A text has no more characters than units, and at least one unless it is empty. -/
theorem length_toUnicode {s : Text} {n : Nat} (h : 1 ≤ s.length ∧ s.length ≤ n) :
    1 ≤ (Utf16.toUnicode s).length ∧ (Utf16.toUnicode s).length ≤ n := by
  obtain ⟨hle, hpos⟩ := Utf16.length_characters s
  have hne : s ≠ [] := List.ne_nil_of_length_pos h.1
  rw [Utf16.toUnicode, String.length_ofList]
  exact ⟨hpos hne, hle.trans h.2⟩

theorem key_check {key : Text} (h : 1 ≤ key.length ∧ key.length ≤ 255) :
    IdempotencyKeyRepository.satisfiesKeyLengthCheck (Utf16.toUnicode key) = true :=
  decide_eq_true (length_toUnicode h)

section Steps

variable {request : NotificationRequest} {now : Date}

theorem draft_checks (hb : Bounded request) {id sessionId : Uuid} {recipient : String}
    {key : Option Uuid} {correlationId : CorrelationId} {d : NotificationDraft}
    (hd : (draft request id recipient sessionId key correlationId).columns = some d)
    (t : Timestamptz) : ({ d.row t with
      status := (draft request id recipient sessionId key correlationId).status } :
        NotificationRecord).satisfiesChecks = true := by
  obtain ⟨body, scheduledAt, metadata, hbody, hscheduled, -, rfl⟩ := columns_eq_some.1 hd
  obtain ⟨-, rfl⟩ := textColumn_eq_some.1 hbody
  obtain ⟨-, rfl⟩ := mapM_timestamptzColumn.1 hscheduled
  have hlength := length_toUnicode hb.body
  have hattempts : 1 ≤ request.maximumAttempts.getD 5 ∧ request.maximumAttempts.getD 5 ≤ 10 := by
    cases hn : request.maximumAttempts with
    | none => decide
    | some n => exact hb.attempts n hn
  have hacknowledgement : (-1 : Int) ≤ 0 ∧ (0 : Int) ≤ 4 := by decide
  refine decide_eq_true ⟨?_, ?_, ?_, hattempts, hacknowledgement, hlength⟩
  all_goals simp only [NotificationDraft.row, draft]
  · cases request.scheduledAt <;> simp
  · cases request.scheduledAt <;> simp
  · cases request.scheduledAt <;> simp

/-! ## Step by step -/

variable {policies : Bool} {c : Choice} {db : Database} {t : Nat} {a : Uuid}

/-- The connection a request is bound to, among the rows `sees` admits. -/
def Resolves (sees : Row → Prop) (request : NotificationRequest) : Prop :=
  ∃ s, sees (.session s) ∧ s.applicationId = request.applicationId ∧
    ∀ requested ∈ request.whatsAppSessionId, Utf16.ofString (uuidText s.id) = requested

/-- Nobody of the application has the key, as it is stored. -/
def KeyIsFresh (sees : Row → Prop) (request : NotificationRequest) : Prop :=
  ∀ key ∈ request.idempotencyKey, ∀ k, sees (.idempotencyKey k) →
    k.applicationId = request.applicationId → k.key ≠ Utf16.toUnicode key

theorem chooseSession_mem {sessions : List StoredSessionRecord} {s : StoredSessionRecord}
    (h : chooseSession sessions = some s) : s ∈ sessions := by
  simp only [chooseSession, Option.orElse_eq_orElse, Option.orElse_eq_or,
    Option.or_eq_some_iff] at h
  rcases h with h | ⟨-, h | ⟨-, h⟩⟩
  · exact List.mem_of_find?_eq_some h
  · exact List.mem_reverse.1 (List.mem_of_find?_eq_some h)
  · exact List.mem_of_getLast? h

theorem chooseSession_isSome {sessions : List StoredSessionRecord} {s : StoredSessionRecord}
    (h : s ∈ sessions) : ∃ s', chooseSession sessions = some s' := by
  have hlast : sessions.getLast?.isSome = true :=
    List.getLast?_isSome.2 (List.ne_nil_of_mem h)
  refine Option.isSome_iff_exists.1 ?_
  simp only [chooseSession, Option.orElse_eq_orElse, Option.orElse_eq_or, Option.isSome_or, hlast,
    Bool.or_true]

theorem returns_resolveSession (h : db.Serving t a) (ha : request.applicationId = a)
    (hsession : Resolves (db.sees t) request) :
    (resolveSession t a request.whatsAppSessionId).run.Returns (exec policies) c db fun r db' =>
      db' = db ∧ ∃ s, r = .ok s ∧ db.sees t (.session s) ∧ s.applicationId = a := by
  obtain ⟨sessions, hexec, hmem⟩ := @exec_listForApplication db t a policies h
  obtain ⟨s, hs, happ, hrequested⟩ := hsession
  have hs : s ∈ sessions := (hmem s).2 ⟨hs, happ.trans ha⟩
  refine Raising.returns_call.2 ⟨sessions, db, hexec c, ?_⟩
  cases hr : request.whatsAppSessionId with
  | none =>
    obtain ⟨s', hs'⟩ := chooseSession_isSome hs
    simp only [hs']
    exact Prog.returns_done.2 ⟨rfl, s', rfl, (hmem s').1 (chooseSession_mem hs')⟩
  | some requested =>
    cases hfind : sessions.find? fun s => Utf16.ofString (uuidText s.id) = requested with
    | none =>
      have hnot := List.find?_eq_none.1 hfind s hs
      simp only [decide_eq_true_eq] at hnot
      exact absurd (hrequested requested hr) hnot
    | some s' =>
      simp only [hfind]
      exact Prog.returns_done.2 ⟨rfl, s', rfl, (hmem s').1 (List.mem_of_find?_eq_some hfind)⟩

/-- A request whose key fits claims it. -/
theorem returns_claimIdempotencyKey (h : db.Serving t a) (hn : db.Numbered t)
    (ha : request.applicationId = a) (hb : Bounded request) (hfits : Fits request now)
    (hfresh : KeyIsFresh (db.sees t) request) (fingerprint : Buffer) :
    (claimIdempotencyKey t request fingerprint now).run.Returns (exec policies) c db fun r db' =>
      ∃ id lock new, r = .ok (.fresh id lock) ∧ Adds db db' t new ∧ db'.Numbered t ∧
        (∀ row, ¬ new (.notification row)) ∧ (id.isSome → HasStorableYear now) := by
  have hgenerated := Adds.generated db t
  have hn₁ := hgenerated.numbered hn fun r hr => hr.elim
  refine Raising.returns_call.2 ⟨_, _, rfl, ?_⟩
  cases hk : request.idempotencyKey with
  | none =>
    exact Prog.returns_done.2 ⟨none, _, _, rfl, hgenerated, hn₁, fun _ hr => hr.elim, by simp⟩
  | some key =>
    obtain ⟨htext, hnow, hexpires⟩ := hfits.key key hk
    obtain ⟨db', id, row, hexec, hadds, hn'⟩ := @exec_insertClaim_free _ t a policies
      (hgenerated.serving h) hn₁ (claimInput request key fingerprint db.identifiers now) _ _ ha
      (textColumn_eq_some.2 ⟨htext, rfl⟩) (timestamptzColumn_eq_some.2 ⟨hexpires, rfl⟩)
      (key_check (hb.key key hk)) fun k hsees happ => hfresh key hk k hsees (happ.trans ha.symm)
    refine Raising.returns_bind.2 (Raising.returns_call.2 ⟨_, db', hexec c, ?_⟩)
    refine Prog.returns_done.2 (Prog.returns_done.2 ⟨some id, _, _, rfl, hgenerated.trans hadds, hn',
      ?_, fun _ => hnow⟩)
    rintro r (hr | hr)
    · exact hr.elim
    · cases hr

/-- Transaction `t` wrote the notifications `ns` of application `a`. -/
structure Written (db db' : Database) (t : Nat) (a : Uuid) (ns : List Uuid) : Prop where
  serving : db'.Serving t a
  numbered : db'.Numbered t
  identifiers : db.identifiers ≤ db'.identifiers
  keeps : ∀ r, db.sees t r → db'.sees t r
  others : ∀ row, db'.sees t (.notification row) → db.sees t (.notification row) ∨ row.id ∈ ns
  found : ∀ n ∈ ns, ∃ row, db'.sees t (.notification row) ∧ row.applicationId = a ∧ row.id = n

/-- What a notification needs to be written: columns that hold it, a connection, and an identifier
of its own. -/
structure Writable (db : Database) (t : Nat) (a : Uuid) (input : InsertNotificationInput) :
    Prop where
  application : input.applicationId = a
  columns : ∃ draft, input.columns = some draft ∧ ∀ now, ({ draft.row now with
    status := input.status } : NotificationRecord).satisfiesChecks = true
  session : ∃ s, db.sees t (.session s) ∧ s.id = input.whatsAppSessionId ∧ s.applicationId = a
  generated : input.id < db.identifiers
  unwritten : ∀ row, db.sees t (.notification row) → row.id ≠ input.id

theorem returns_writeNotification (h : db.Serving t a) (hn : db.Numbered t)
    {input : InsertNotificationInput} (hw : Writable db t a input) :
    (CreateNotificationService.writeNotification t input).run.Returns (exec policies) c db fun r db' =>
      r = .ok () ∧ Written db db' t a [input.id] := by
  obtain ⟨draft, hcolumns, hchecks⟩ := hw.columns
  obtain ⟨db₁, row, hexec₁, hadds₁, hn₁, hid, happ⟩ := @exec_insertNotification_free db t a policies
    h hn input draft hw.application hcolumns hchecks hw.session hw.generated hw.unwritten
  obtain ⟨db₂, event, hexec₂, hadds₂, hn₂⟩ := @exec_appendEvent_free db₁ t a policies
    (hadds₁.serving h) hn₁ (createdEvent input) hw.application
  obtain ⟨db₃, new, hexec₃, hadds₃, hn₃, hnew⟩ := @exec_enqueueDispatch_free db₂ t a policies
    (hadds₂.serving (hadds₁.serving h)) hn₂ (firstJob input) hw.application
  have hadds := (hadds₁.trans hadds₂).trans hadds₃
  refine Raising.returns_call.2 ⟨_, db₁, hexec₁ c, Raising.returns_call.2 ⟨_, db₂, hexec₂ c, ?_⟩⟩
  refine Prog.returns_perform.2 ⟨_, db₃, hexec₃ c, Prog.returns_done.2 ⟨rfl, ?_⟩⟩
  refine ⟨hadds.serving h, hn₃, hadds.identifiers, fun r hr => (hadds.sees r).2 (.inl hr), ?_, ?_⟩
  · intro row' hrow'
    rcases (hadds.sees _).1 hrow' with hrow' | (hrow' | hrow') | hrow'
    · exact .inl hrow'
    · cases hrow'
      exact .inr (by rw [hid]; exact List.mem_singleton_self _)
    · cases hrow'
    · obtain ⟨_, hjob⟩ := hnew _ hrow'
      cases hjob
  · intro n hmem
    rw [List.mem_singleton.1 hmem]
    exact ⟨row, (hadds.sees _).2 (.inr (.inl (.inl rfl))), happ, hid⟩

theorem returns_writeNotifications {inputs : List InsertNotificationInput} (h : db.Serving t a)
    (hn : db.Numbered t) (hw : ∀ input ∈ inputs, Writable db t a input)
    (hdistinct : (inputs.map (·.id)).Nodup) :
    (writeNotifications t inputs).run.Returns (exec policies) c db fun r db' =>
      r = .ok () ∧ Written db db' t a (inputs.map (·.id)) := by
  induction inputs generalizing db with
  | nil =>
    refine Prog.returns_done.2 ⟨rfl, h, hn, Nat.le_refl _, fun _ hr => hr, fun _ hr => .inl hr, ?_⟩
    exact fun n hn => absurd hn List.not_mem_nil
  | cons input inputs ih =>
    obtain ⟨hfirst, hdistinct⟩ := List.nodup_cons.1 hdistinct
    refine Raising.returns_bind.2 ?_
    refine (returns_writeNotification h hn (hw input List.mem_cons_self)).mono ?_
    rintro _ db₁ ⟨rfl, hwritten⟩
    -- the others can still be written
    have hrest : ∀ other ∈ inputs, Writable db₁ t a other := by
      intro other hother
      have hwo := hw other (List.mem_cons_of_mem _ hother)
      refine ⟨hwo.application, hwo.columns, ?_, hwo.generated.trans_le hwritten.identifiers, ?_⟩
      · obtain ⟨s, hs, hsession⟩ := hwo.session
        exact ⟨s, hwritten.keeps _ hs, hsession⟩
      · intro row hrow hid
        rcases hwritten.others row hrow with hrow | hrow
        · exact hwo.unwritten row hrow hid
        · rw [List.mem_singleton.1 hrow] at hid
          exact hfirst (List.mem_map.2 ⟨other, hother, hid.symm⟩)
    refine (ih hwritten.serving hwritten.numbered hrest hdistinct).mono ?_
    rintro _ db₂ ⟨rfl, hall⟩
    refine ⟨rfl, hall.serving, hall.numbered, hwritten.identifiers.trans hall.identifiers,
      fun r hr => hall.keeps r (hwritten.keeps r hr), ?_, ?_⟩
    · intro row hrow
      rcases hall.others row hrow with hrow | hrow
      · refine (hwritten.others row hrow).imp id fun hid => ?_
        rw [List.mem_singleton.1 hid]
        exact List.mem_cons_self
      · exact .inr (List.mem_cons_of_mem _ hrow)
    · intro n hmem
      rcases List.mem_cons.1 hmem with rfl | hmem
      · obtain ⟨row, hrow, hfound⟩ := hwritten.found _ (List.mem_singleton_self _)
        exact ⟨row, hall.keeps _ hrow, hfound⟩
      · exact hall.found n hmem

/-- A completion leaves the notifications in sight. -/
theorem returns_completeKey (h : db.Serving t a) {id : Option Uuid}
    (hnow : id.isSome → HasStorableYear now) (lock : Uuid) (responseBody : ResponseBody)
    (resourceId : Option Uuid) :
    (completeKey t id lock responseBody resourceId now).run.Returns (exec policies) c db
      fun r db' => r = .ok () ∧ db'.Serving t a ∧
        ∀ row, db.sees t (.notification row) → db'.sees t (.notification row) := by
  cases id with
  | none => exact Prog.returns_done.2 ⟨rfl, h, fun _ hr => hr⟩
  | some id =>
    let input : CompleteInput := ⟨id, lock, 202, responseBody, resourceId, now⟩
    obtain ⟨db', hexec⟩ := @exec_complete_free db t a policies h input _
      (timestamptzColumn_eq_some.2 ⟨hnow rfl, rfl⟩)
    obtain ⟨hserving, -, selected, -, hselected, hsees⟩ := exec_complete h (hexec c)
    refine Prog.returns_perform.2 ⟨_, db', hexec c, Prog.returns_done.2 ⟨rfl, hserving, ?_⟩⟩
    intro row hrow
    refine (hsees _).2 ⟨_, hrow, ?_⟩
    rw [if_neg]
    intro hs
    cases hselected _ hs

theorem returns_readOrFail (h : db.Serving t a) {n : Uuid}
    (hfound : ∃ row, db.sees t (.notification row) ∧ row.applicationId = a ∧ row.id = n) :
    (readOrFail t a n).run.Returns (exec policies) c db fun r db' =>
      db' = db ∧ ∃ row, r = .ok row := by
  obtain ⟨found, hexec, -, hnone⟩ := @exec_findNotificationById db t a policies h n
  obtain ⟨row, hrow, happ, hid⟩ := hfound
  refine Raising.returns_call.2 ⟨_, _, hexec c, ?_⟩
  cases found with
  | none => exact absurd hid (hnone rfl row hrow happ)
  | some row => exact Prog.returns_done.2 ⟨rfl, row, rfl⟩

theorem returns_readAllOrFail (h : db.Serving t a) {ns : List Uuid}
    (hfound : ∀ n ∈ ns, ∃ row, db.sees t (.notification row) ∧ row.applicationId = a ∧
      row.id = n) :
    (readAllOrFail t a ns).run.Returns (exec policies) c db fun r db' =>
      db' = db ∧ ∃ rows, r = .ok rows := by
  induction ns with
  | nil => exact Prog.returns_done.2 ⟨rfl, [], rfl⟩
  | cons n ns ih =>
    refine Raising.returns_bind.2 ?_
    refine (returns_readOrFail h (hfound n List.mem_cons_self)).mono ?_
    rintro _ _ ⟨rfl, row, rfl⟩
    refine Raising.returns_bind.2 ?_
    refine (ih fun n hn => hfound n (List.mem_cons_of_mem _ hn)).mono ?_
    rintro _ _ ⟨rfl, rows, rfl⟩
    exact Prog.returns_done.2 ⟨rfl, _, rfl⟩

/-- A transaction that starts while none is open sees what was committed, and commits what its work
returns. -/
theorem returns_withTenantScope {α : Type} {work : Nat → Service α} (hidle : db.store.Idle)
    (hwork : ∀ t db', db'.Serving t a → (∀ r, db'.sees t r ↔ r ∈ db.store.committed.rows) →
      db'.identifiers = db.identifiers → (work t).run.Returns (exec policies) c db' fun r db'' =>
        (∃ x, r = .ok x) ∧ db''.Serving t a) :
    (withTenantScope a work).run.Returns (exec policies) c db fun r _ => ∃ x, r = .ok x := by
  obtain ⟨t, db₁, hbegin, hserving, hid, -, hsees⟩ := @exec_begin db a policies hidle
  refine Raising.returns_call.2 ⟨t, db₁, hbegin c, Raising.returns_bind.2 ?_⟩
  refine Prog.returns_bind.2 ((hwork t db₁ hserving hsees hid).mono ?_)
  rintro _ db₂ ⟨⟨x, rfl⟩, hserving⟩
  obtain ⟨db₃, hcommit, -⟩ := @exec_commit db₂ t a policies hserving
  exact Prog.returns_done.2 (Raising.returns_call.2
    ⟨_, db₃, hcommit c, Prog.returns_done.2 ⟨x, rfl⟩⟩)

/-! ## A request that fits -/

/-- Nothing but identifiers was handed out. -/
structure Prepared (db db' : Database) : Prop where
  store : db'.store = db.store
  identifiers : db.identifiers ≤ db'.identifiers

theorem returns_parseRecipient {value : String} (h : isValidPhoneNumber value = true) :
    (parseRecipient value).run.Returns (exec policies) c db fun r db' =>
      r = .ok value ∧ db' = db := by
  unfold parseRecipient
  rw [parsePhoneNumber_of_isValid h]
  exact Prog.returns_done.2 ⟨rfl, rfl⟩

theorem returns_resolveCorrelationId (correlationId : Option CorrelationId) :
    (resolveCorrelationId correlationId).run.Returns (exec policies) c db fun r db' =>
      (∃ id, r = .ok id) ∧ Prepared db db' := by
  cases correlationId with
  | some id => exact Prog.returns_done.2 ⟨⟨id, rfl⟩, rfl, Nat.le_refl _⟩
  | none =>
    exact Raising.returns_call.2 ⟨_, _, rfl, Prog.returns_done.2 ⟨⟨_, rfl⟩, rfl, Nat.le_succ _⟩⟩

/-- The notifications of a batch get identifiers of their own. -/
theorem returns_numberRecipients {recipients : List String}
    (h : ∀ r ∈ recipients, isValidPhoneNumber r = true) :
    (numberRecipients recipients).run.Returns (exec policies) c db fun r db' =>
      ∃ drafts, r = .ok drafts ∧ drafts.length = recipients.length ∧ Prepared db db' ∧
        (drafts.map (·.1)).Nodup ∧
          ∀ d ∈ drafts, db.identifiers ≤ d.1 ∧ d.1 < db'.identifiers := by
  induction recipients generalizing db with
  | nil =>
    exact Prog.returns_done.2 ⟨[], rfl, rfl, ⟨rfl, Nat.le_refl _⟩, List.nodup_nil,
      fun d hd => absurd hd List.not_mem_nil⟩
  | cons value recipients ih =>
    refine Raising.returns_call.2 ⟨_, _, rfl, Raising.returns_bind.2 ?_⟩
    refine (returns_parseRecipient (h value List.mem_cons_self)).mono ?_
    rintro _ _ ⟨rfl, rfl⟩
    refine Raising.returns_bind.2 ((ih fun r hr => h r (List.mem_cons_of_mem _ hr)).mono ?_)
    rintro _ db' ⟨drafts, rfl, hlength, hprepared, hdistinct, hids⟩
    have hlater : db.identifiers + 1 ≤ db'.identifiers := hprepared.identifiers
    have hids : ∀ d ∈ drafts, db.identifiers + 1 ≤ d.1 ∧ d.1 < db'.identifiers := hids
    refine Prog.returns_done.2
      ⟨_, rfl, congrArg (· + 1) hlength, ⟨hprepared.store, Nat.le_of_succ_le hlater⟩, ?_, ?_⟩
    · refine List.nodup_cons.2 ⟨fun hmem => ?_, hdistinct⟩
      obtain ⟨d, hd, he⟩ := List.mem_map.1 hmem
      have hne : d.1 ≠ db.identifiers := Nat.ne_of_gt (hids d hd).1
      exact hne he
    · intro d hd
      rcases List.mem_cons.1 hd with rfl | hd
      · exact ⟨Nat.le_refl _, hlater⟩
      · exact ⟨Nat.le_of_succ_le (hids d hd).1, (hids d hd).2⟩

/-- What a creation finds in the database: no transaction open, identifiers not used yet, the
connection and the key as its request asks for. -/
structure Ready (db : Database) (request : NotificationRequest) : Prop where
  idle : db.store.Idle
  numbered : ∀ r ∈ db.store.committed.rows, r.id < db.identifiers
  resolves : Resolves (· ∈ db.store.committed.rows) request
  fresh : KeyIsFresh (· ∈ db.store.committed.rows) request

/-- A transaction that sees what was committed, after identifiers `ns` were handed out. -/
structure Begun (db db₁ : Database) (t : Nat) (a : Uuid) (ns : List Uuid) : Prop where
  serving : db₁.Serving t a
  sees : ∀ r, db₁.sees t r ↔ r ∈ db.store.committed.rows
  identifiers : db.identifiers ≤ db₁.identifiers
  generated : ∀ n ∈ ns, db.identifiers ≤ n ∧ n < db₁.identifiers

theorem Ready.seen {db₁ : Database} (h : Ready db request)
    (hsees : ∀ r, db₁.sees t r ↔ r ∈ db.store.committed.rows) :
    Resolves (db₁.sees t) request ∧ KeyIsFresh (db₁.sees t) request := by
  constructor
  · obtain ⟨s, hs, hsession⟩ := h.resolves
    exact ⟨s, (hsees _).2 hs, hsession⟩
  · exact fun key hk k hk' => h.fresh key hk k ((hsees _).1 hk')

theorem Ready.begun {db₁ : Database} {ns : List Uuid} (h : Ready db request)
    (hb : Begun db db₁ t request.applicationId ns) :
    db₁.Numbered t ∧ Resolves (db₁.sees t) request ∧ KeyIsFresh (db₁.sees t) request := by
  exact ⟨fun r hr => (h.numbered r ((hb.sees r).1 hr)).trans_le hb.identifiers, h.seen hb.sees⟩

/-- Connection and key, as every creation takes them first. -/
structure Claimed (db db' : Database) (t : Nat) (a sessionId : Uuid) (id : Option Uuid)
    (now : Date) : Prop where
  serving : db'.Serving t a
  numbered : db'.Numbered t
  identifiers : db.identifiers ≤ db'.identifiers
  notifications : ∀ row, db'.sees t (.notification row) → db.sees t (.notification row)
  session : ∃ s, db'.sees t (.session s) ∧ s.id = sessionId ∧ s.applicationId = a
  time : id.isSome → HasStorableYear now

/-- After connection and key a creation can write its notifications. -/
theorem Claimed.writable {db₁ db₂ : Database} {ns : List Uuid} {sessionId : Uuid}
    {id : Option Uuid} (h : Ready db request) (hb : Begun db db₁ t request.applicationId ns)
    (hc : Claimed db₁ db₂ t request.applicationId sessionId id now) (hbounded : Bounded request)
    (hfits : Fits request now) {n : Uuid} (hn : n ∈ ns) (recipient : String)
    (correlationId : CorrelationId) : Writable db₂ t request.applicationId
      (draft request n recipient sessionId id correlationId) where
  application := rfl
  columns := by
    obtain ⟨d, hd⟩ := (@columns_isSome (draft request n recipient sessionId id correlationId)).2
      ⟨hfits.body, hfits.schedule, hfits.metadata⟩
    exact ⟨d, hd, draft_checks hbounded hd⟩
  session := hc.session
  generated := (hb.generated n hn).2.trans_le hc.identifiers
  unwritten := by
    intro row hrow
    have hold := h.numbered _ ((hb.sees _).1 (hc.notifications row hrow))
    exact Nat.ne_of_lt (Nat.lt_of_lt_of_le hold (hb.generated n hn).1)

variable (environment : Environment)

theorem claimed_of_adds {db₁ db₂ : Database} {new : Row → Prop} {s : StoredSessionRecord}
    {id : Option Uuid} (h : db₁.Serving t a) (hs : db₁.sees t (.session s))
    (happ : s.applicationId = a) (hadds : Adds db₁ db₂ t new) (hn : db₂.Numbered t)
    (hnew : ∀ row, ¬ new (.notification row)) (htime : id.isSome → HasStorableYear now) :
    Claimed db₁ db₂ t a s.id id now where
  serving := hadds.serving h
  numbered := hn
  identifiers := hadds.identifiers
  notifications := fun row hrow => ((hadds.sees _).1 hrow).resolve_right (hnew row)
  session := ⟨s, (hadds.sees _).2 (.inl hs), rfl, happ⟩
  time := htime

theorem returns_createWork {input : CreateNotificationInput} {db₁ : Database} {n : Uuid}
    (h : Ready db input.toNotificationRequest) (hb : Begun db db₁ t input.applicationId [n])
    (hbounded : Bounded input.toNotificationRequest) (hfits : Fits input.toNotificationRequest now)
    (recipient : String) (correlationId : CorrelationId) :
    (createWork environment input recipient now correlationId n t).run.Returns (exec policies) c db₁
      fun r db' => (∃ x, r = .ok x) ∧ db'.Serving t input.applicationId := by
  obtain ⟨hn, hresolves, hfresh⟩ := h.begun hb
  refine Raising.returns_bind.2 ((returns_resolveSession hb.serving rfl hresolves).mono ?_)
  rintro _ _ ⟨rfl, s, rfl, hs, happ⟩
  refine Raising.returns_bind.2
    ((returns_claimIdempotencyKey hb.serving hn rfl hbounded hfits hfresh _).mono ?_)
  rintro _ db₂ ⟨id, lock, new, rfl, hadds, hn₂, hnew, htime⟩
  have hclaimed := claimed_of_adds hb.serving hs happ hadds hn₂ hnew htime
  have hwritable := Claimed.writable h hb hclaimed hbounded hfits (List.mem_singleton_self n)
    recipient correlationId
  refine Raising.returns_bind.2
    ((returns_writeNotification hclaimed.serving hclaimed.numbered hwritable).mono ?_)
  rintro _ db₃ ⟨rfl, hwritten⟩
  refine Raising.returns_bind.2
    ((returns_completeKey hwritten.serving hclaimed.time lock _ _).mono ?_)
  rintro _ db₄ ⟨rfl, hserving, hkeeps⟩
  obtain ⟨row, hrow, hfound⟩ := hwritten.found n (List.mem_singleton_self n)
  refine Raising.returns_bind.2
    ((returns_readOrFail hserving ⟨row, hkeeps row hrow, hfound⟩).mono ?_)
  rintro _ _ ⟨rfl, row, rfl⟩
  exact Prog.returns_done.2 ⟨⟨_, rfl⟩, hserving⟩

theorem returns_createBatchWork {input : CreateNotificationBatchInput} {db₁ : Database}
    {drafts : List (Uuid × String)} (h : Ready db input.toNotificationRequest)
    (hb : Begun db db₁ t input.applicationId (drafts.map (·.1)))
    (hdistinct : (drafts.map (·.1)).Nodup) (hbounded : Bounded input.toNotificationRequest)
    (hfits : Fits input.toNotificationRequest now) (correlationId : CorrelationId) :
    (createBatchWork environment input drafts now correlationId t).run.Returns (exec policies) c db₁
      fun r db' => (∃ x, r = .ok x) ∧ db'.Serving t input.applicationId := by
  obtain ⟨hn, hresolves, hfresh⟩ := h.begun hb
  refine Raising.returns_bind.2 ((returns_resolveSession hb.serving rfl hresolves).mono ?_)
  rintro _ _ ⟨rfl, s, rfl, hs, happ⟩
  refine Raising.returns_bind.2
    ((returns_claimIdempotencyKey hb.serving hn rfl hbounded hfits hfresh _).mono ?_)
  rintro _ db₂ ⟨id, lock, new, rfl, hadds, hn₂, hnew, htime⟩
  have hclaimed := claimed_of_adds hb.serving hs happ hadds hn₂ hnew htime
  let inputs := drafts.map fun d =>
    draft input.toNotificationRequest d.1 d.2 s.id id correlationId
  have hids : inputs.map (·.id) = drafts.map (·.1) := List.map_map
  have hwritable : ∀ i ∈ inputs, Writable db₂ t input.applicationId i := by
    intro i hi
    obtain ⟨d, hd, rfl⟩ := List.mem_map.1 hi
    exact Claimed.writable h hb hclaimed hbounded hfits (List.mem_map_of_mem hd) _ _
  refine Raising.returns_bind.2 ((returns_writeNotifications hclaimed.serving hclaimed.numbered
    hwritable (hids ▸ hdistinct)).mono ?_)
  rintro _ db₃ ⟨rfl, hwritten⟩
  refine Raising.returns_bind.2
    ((returns_completeKey hwritten.serving hclaimed.time lock _ _).mono ?_)
  rintro _ db₄ ⟨rfl, hserving, hkeeps⟩
  refine Raising.returns_bind.2 ((returns_readAllOrFail hserving fun n hn => ?_).mono ?_)
  · obtain ⟨row, hrow, hfound⟩ := hwritten.found n (hids ▸ hn)
    exact ⟨row, hkeeps row hrow, hfound⟩
  · rintro _ _ ⟨rfl, rows, rfl⟩
    exact Prog.returns_done.2 ⟨⟨_, rfl⟩, hserving⟩

theorem returns_assertSchedule (hfuture : request.scheduledAt.any (· ≤ now) = false) :
    (assertScheduleIsInTheFuture request now).run.Returns (exec policies) c db fun r db' =>
      r = .ok () ∧ db' = db := by
  unfold assertScheduleIsInTheFuture
  rw [hfuture]
  exact Prog.returns_done.2 ⟨rfl, rfl⟩

theorem returns_create {input : CreateNotificationInput} (correlationId : Option CorrelationId)
    (h : Ready db input.toNotificationRequest) (hbounded : Bounded input.toNotificationRequest)
    (hrecipient : isValidPhoneNumber input.recipient = true)
    (hfits : Fits input.toNotificationRequest now)
    (hfuture : input.scheduledAt.any (· ≤ now) = false) :
    (create environment correlationId input).run.Returns (exec policies) (.date now) db
      fun r _ => ∃ x, r = .ok x := by
  refine Raising.returns_bind.2 ((returns_parseRecipient hrecipient).mono ?_)
  rintro _ _ ⟨rfl, rfl⟩
  refine Raising.returns_call.2 ⟨now, _, rfl, ?_⟩
  refine Raising.returns_bind.2 ((returns_assertSchedule hfuture).mono ?_)
  rintro _ _ ⟨rfl, rfl⟩
  refine Raising.returns_bind.2 ((returns_resolveCorrelationId correlationId).mono ?_)
  rintro _ db₁ ⟨⟨correlationId, rfl⟩, hprepared⟩
  refine Raising.returns_call.2 ⟨_, _, rfl, returns_withTenantScope ?_ ?_⟩
  · rw [hprepared.store]
    exact h.idle
  · intro t db₂ hserving hsees hids
    rw [hprepared.store] at hsees
    have hlater : db₁.identifiers < db₂.identifiers := hids ▸ Nat.lt_succ_self _
    refine returns_createWork environment h ⟨hserving, hsees, ?_, ?_⟩ hbounded hfits _ _
    · exact hprepared.identifiers.trans hlater.le
    · intro n hn
      rw [List.mem_singleton.1 hn]
      exact ⟨hprepared.identifiers, hlater⟩

theorem returns_createBatch {input : CreateNotificationBatchInput}
    (correlationId : Option CorrelationId) (h : Ready db input.toNotificationRequest)
    (hbounded : Bounded input.toNotificationRequest)
    (hrecipients : ∀ r ∈ input.recipients, isValidPhoneNumber r = true)
    (hfits : Fits input.toNotificationRequest now)
    (hfuture : input.scheduledAt.any (· ≤ now) = false) :
    (createBatch environment correlationId input).run.Returns (exec policies) (.date now) db
      fun r _ => ∃ x, r = .ok x := by
  refine Raising.returns_bind.2 ((returns_numberRecipients hrecipients).mono ?_)
  rintro _ db₁ ⟨drafts, rfl, -, hnumbered, hdistinct, hids⟩
  refine Raising.returns_call.2 ⟨now, _, rfl, ?_⟩
  refine Raising.returns_bind.2 ((returns_assertSchedule hfuture).mono ?_)
  rintro _ db₁ ⟨rfl, rfl⟩
  refine Raising.returns_bind.2 ((returns_resolveCorrelationId correlationId).mono ?_)
  rintro _ db₂ ⟨⟨correlationId, rfl⟩, hprepared⟩
  have hstore : db₂.store = db.store := hprepared.store.trans hnumbered.store
  refine returns_withTenantScope (hstore ▸ h.idle) fun t db₃ hserving hsees hsame => ?_
  rw [hstore] at hsees
  have hlater : db₁.identifiers ≤ db₃.identifiers := hsame ▸ hprepared.identifiers
  refine returns_createBatchWork environment h ⟨hserving, hsees, ?_, ?_⟩ hdistinct hbounded hfits _
  · exact hnumbered.identifiers.trans hlater
  · intro n hn
    obtain ⟨d, hd, rfl⟩ := List.mem_map.1 hn
    exact ⟨(hids d hd).1, (hids d hd).2.trans_le hlater⟩

/-! ## A request that goes through -/

theorem of_returns_claimIdempotencyKey (hfresh : KeyIsFresh (db.sees t) request)
    {fingerprint : Buffer}
    {Q : Except RequestError IdempotencyClaimResult → Database → Prop}
    (hr : (claimIdempotencyKey t request fingerprint now).run.Returns (exec policies) c db Q) :
    ∃ id lock db', Q (.ok (.fresh id lock)) db' ∧ ∀ key ∈ request.idempotencyKey,
      IsText key ∧ HasStorableYear (now + IDEMPOTENCY_WINDOW_HOURS * 3600000) ∧
        id.isSome = true := by
  obtain ⟨lockToken, db₁, hgenerate, hr⟩ := Raising.returns_call.1 hr
  cases hgenerate
  cases hk : request.idempotencyKey with
  | none =>
    rw [hk] at hr
    exact ⟨_, _, _, Prog.returns_done.1 hr, fun key hkey => absurd hkey (by simp)⟩
  | some key =>
    rw [hk] at hr
    obtain ⟨claimed, db₂, hinsert, hr⟩ := Raising.returns_call.1 (Raising.returns_bind.1 hr)
    obtain ⟨stored, expiresAt, hstored, hexpires, hclaimed⟩ := exec_insertClaim hinsert
    obtain ⟨htext, rfl⟩ := textColumn_eq_some.1 hstored
    obtain ⟨hyear, -⟩ := timestamptzColumn_eq_some.1 hexpires
    rcases hclaimed with ⟨id, at', rfl, -⟩ | ⟨-, -, k, hsees, happ, hkey⟩
    · have hr := (Prog.returns_done (a := Except.ok (Sum.inl (id, db.identifiers)))).1 hr
      refine ⟨some id, db.identifiers, db₂, Prog.returns_done.1 hr, ?_⟩
      rintro _ ⟨⟩
      exact ⟨htext, hyear, rfl⟩
    · exact absurd hkey (hfresh key hk k hsees happ)

theorem of_returns_writeNotification {input : InsertNotificationInput}
    {Q : Except RequestError Unit → Database → Prop}
    (hr : (CreateNotificationService.writeNotification t input).run.Returns (exec policies) c db Q) :
    ∃ db', Q (.ok ()) db' ∧ ∃ draft, input.columns = some draft := by
  obtain ⟨_, db₁, hinsert, hr⟩ := Raising.returns_call.1 hr
  obtain ⟨_, db₂, -, hr⟩ := Raising.returns_call.1 hr
  obtain ⟨_, db₃, -, hr⟩ := Prog.returns_perform.1 hr
  obtain ⟨draft, -, hdraft, -⟩ := exec_insertNotification hinsert
  exact ⟨db₃, Prog.returns_done.1 hr, draft, hdraft⟩

theorem of_returns_writeNotifications {inputs : List InsertNotificationInput}
    {Q : Except RequestError Unit → Database → Prop}
    (hr : (writeNotifications t inputs).run.Returns (exec policies) c db Q) :
    ∃ db', Q (.ok ()) db' ∧ ∀ input ∈ inputs, ∃ draft, input.columns = some draft := by
  induction inputs generalizing db with
  | nil => exact ⟨db, Prog.returns_done.1 hr, fun _ h => absurd h List.not_mem_nil⟩
  | cons input inputs ih =>
    obtain ⟨db₁, hr, hinput⟩ := of_returns_writeNotification (Raising.returns_bind.1 hr)
    obtain ⟨db₂, hQ, hinputs⟩ := ih hr
    exact ⟨db₂, hQ, List.forall_mem_cons.2 ⟨hinput, hinputs⟩⟩

theorem of_returns_completeKey {id : Option Uuid} {lock : Uuid} {responseBody : ResponseBody}
    {resourceId : Option Uuid} {Q : Except RequestError Unit → Database → Prop}
    (hr : (completeKey t id lock responseBody resourceId now).run.Returns (exec policies) c db Q)
    (hid : id.isSome = true) : HasStorableYear now := by
  obtain ⟨id, rfl⟩ := Option.isSome_iff_exists.1 hid
  obtain ⟨_, db', hcomplete, -⟩ := Prog.returns_perform.1 hr
  have hcolumn := exec_complete_time hcomplete
  obtain ⟨d, hd⟩ := hcolumn
  exact (timestamptzColumn_eq_some.1 hd).1

/-- The work of a transaction that returns has returned. -/
theorem of_returns_withTenantScope {α : Type} {work : Nat → Service α} (hidle : db.store.Idle)
    (hr : (withTenantScope a work).run.Returns (exec policies) c db fun r _ => ∃ x, r = .ok x) :
    ∃ t db', db'.Serving t a ∧ (∀ r, db'.sees t r ↔ r ∈ db.store.committed.rows) ∧
      (work t).run.Returns (exec policies) c db' fun r _ => ∃ x, r = .ok x := by
  obtain ⟨t, db₁, hbegin, hr⟩ := Raising.returns_call.1 hr
  obtain ⟨t', db₁', hbegin', hserving, -, -, hsees⟩ := @exec_begin db a policies hidle
  rw [hbegin' c] at hbegin
  cases hbegin
  refine ⟨t, db₁, hserving, hsees, (Prog.returns_bind.1 (Raising.returns_bind.1 hr)).mono ?_⟩
  intro r db₂ hr
  have hr := Prog.returns_done.1 hr
  cases r with
  | ok x => exact ⟨x, rfl⟩
  | error e =>
    obtain ⟨_, db₃, -, hr⟩ := Raising.returns_call.1 hr
    obtain ⟨x, hx⟩ := (Prog.returns_done (a := Except.error e)).1 hr
    cases hx

/-- What the statements of a creation that returns say of its request. -/
theorem fits_of_statements {id : Option Uuid} {inputs : List InsertNotificationInput}
    (hkey : ∀ key ∈ request.idempotencyKey, IsText key ∧
      HasStorableYear (now + IDEMPOTENCY_WINDOW_HOURS * 3600000) ∧ id.isSome = true)
    (hcolumns : ∃ input ∈ inputs, input.renderedBody = request.body ∧
      input.scheduledAt = request.scheduledAt ∧ input.metadata = request.metadata)
    (hinputs : ∀ input ∈ inputs, ∃ draft, input.columns = some draft)
    (htime : id.isSome = true → HasStorableYear now) : Fits request now := by
  obtain ⟨input, hmem, hbody, hschedule, hmetadata⟩ := hcolumns
  obtain ⟨htext, hyear, hentries⟩ := columns_isSome.1 (hinputs input hmem)
  refine ⟨hbody ▸ htext, hmetadata ▸ hentries, hschedule ▸ hyear, fun key hk => ?_⟩
  obtain ⟨hkeyText, hexpires, hid⟩ := hkey key hk
  exact ⟨hkeyText, htime hid, hexpires⟩

theorem fits_of_createWork {input : CreateNotificationInput} {db₁ : Database} {n : Uuid}
    {recipient : String} {correlationId : CorrelationId} (h : db₁.Serving t input.applicationId)
    (hresolves : Resolves (db₁.sees t) input.toNotificationRequest)
    (hfresh : KeyIsFresh (db₁.sees t) input.toNotificationRequest)
    (hr : (createWork environment input recipient now correlationId n t).run.Returns
      (exec policies) c db₁ fun r _ => ∃ x, r = .ok x) : Fits input.toNotificationRequest now := by
  obtain ⟨_, _, ⟨rfl, s, rfl, -⟩, hr⟩ :=
    (returns_resolveSession h rfl hresolves).both (Raising.returns_bind.1 hr)
  obtain ⟨id, lock, db₂, hr, hkey⟩ :=
    of_returns_claimIdempotencyKey hfresh (Raising.returns_bind.1 hr)
  obtain ⟨db₃, hr, hcolumns⟩ := of_returns_writeNotification (Raising.returns_bind.1 hr)
  have htime := of_returns_completeKey (Raising.returns_bind.1 hr)
  exact fits_of_statements hkey ⟨_, List.mem_singleton_self _, rfl, rfl, rfl⟩
    (fun i hi => List.mem_singleton.1 hi ▸ hcolumns) htime

theorem fits_of_createBatchWork {input : CreateNotificationBatchInput} {db₁ : Database}
    {drafts : List (Uuid × String)} {correlationId : CorrelationId}
    (h : db₁.Serving t input.applicationId)
    (hresolves : Resolves (db₁.sees t) input.toNotificationRequest)
    (hfresh : KeyIsFresh (db₁.sees t) input.toNotificationRequest) (hsome : drafts ≠ [])
    (hr : (createBatchWork environment input drafts now correlationId t).run.Returns
      (exec policies) c db₁ fun r _ => ∃ x, r = .ok x) : Fits input.toNotificationRequest now := by
  obtain ⟨_, _, ⟨rfl, s, rfl, -⟩, hr⟩ :=
    (returns_resolveSession h rfl hresolves).both (Raising.returns_bind.1 hr)
  obtain ⟨id, lock, db₂, hr, hkey⟩ :=
    of_returns_claimIdempotencyKey hfresh (Raising.returns_bind.1 hr)
  obtain ⟨db₃, hr, hcolumns⟩ := of_returns_writeNotifications (Raising.returns_bind.1 hr)
  have htime := of_returns_completeKey (Raising.returns_bind.1 hr)
  obtain ⟨d, hd⟩ := List.exists_mem_of_ne_nil drafts hsome
  exact fits_of_statements hkey ⟨_, List.mem_map_of_mem hd, rfl, rfl, rfl⟩ hcolumns htime

theorem fits_of_create {input : CreateNotificationInput} {correlationId : Option CorrelationId}
    (h : Ready db input.toNotificationRequest)
    (hrecipient : isValidPhoneNumber input.recipient = true)
    (hfuture : input.scheduledAt.any (· ≤ now) = false)
    (hr : (create environment correlationId input).run.Returns (exec policies) (.date now) db
      fun r _ => ∃ x, r = .ok x) : Fits input.toNotificationRequest now := by
  obtain ⟨_, _, ⟨rfl, rfl⟩, hclocked⟩ :=
    (returns_parseRecipient hrecipient).both (Raising.returns_bind.1 hr)
  obtain ⟨_, _, hclock, hasserted⟩ := Raising.returns_call.1 hclocked
  cases hclock
  obtain ⟨_, _, ⟨rfl, rfl⟩, hcorrelated⟩ :=
    (returns_assertSchedule hfuture).both (Raising.returns_bind.1 hasserted)
  obtain ⟨_, db₁, ⟨⟨correlationId, rfl⟩, hprepared⟩, hgenerated⟩ :=
    (returns_resolveCorrelationId correlationId).both (Raising.returns_bind.1 hcorrelated)
  obtain ⟨_, _, hgenerate, hscoped⟩ := Raising.returns_call.1 hgenerated
  cases hgenerate
  obtain ⟨t, db₂, hserving, hsees, hwork⟩ := of_returns_withTenantScope
    (by rw [hprepared.store]; exact h.idle) hscoped
  rw [hprepared.store] at hsees
  obtain ⟨hresolves, hfresh⟩ := h.seen hsees
  exact fits_of_createWork environment hserving hresolves hfresh hwork

theorem fits_of_createBatch {input : CreateNotificationBatchInput}
    {correlationId : Option CorrelationId} (h : Ready db input.toNotificationRequest)
    (hrecipients : ∀ r ∈ input.recipients, isValidPhoneNumber r = true)
    (hsome : 1 ≤ input.recipients.length)
    (hfuture : input.scheduledAt.any (· ≤ now) = false)
    (hr : (createBatch environment correlationId input).run.Returns (exec policies) (.date now) db
      fun r _ => ∃ x, r = .ok x) : Fits input.toNotificationRequest now := by
  obtain ⟨_, db₁, ⟨drafts, rfl, hlength, hnumbered, -⟩, hclocked⟩ :=
    (returns_numberRecipients hrecipients).both (Raising.returns_bind.1 hr)
  obtain ⟨_, _, hclock, hasserted⟩ := Raising.returns_call.1 hclocked
  cases hclock
  obtain ⟨_, db₁, ⟨rfl, rfl⟩, hcorrelated⟩ :=
    (returns_assertSchedule hfuture).both (Raising.returns_bind.1 hasserted)
  obtain ⟨_, db₂, ⟨⟨correlationId, rfl⟩, hprepared⟩, hscoped⟩ :=
    (returns_resolveCorrelationId correlationId).both (Raising.returns_bind.1 hcorrelated)
  have hstore : db₂.store = db.store := hprepared.store.trans hnumbered.store
  obtain ⟨t, db₃, hserving, hsees, hwork⟩ := of_returns_withTenantScope (hstore ▸ h.idle) hscoped
  rw [hstore] at hsees
  obtain ⟨hresolves, hfresh⟩ := h.seen hsees
  have hdrafts : drafts ≠ [] := List.ne_nil_of_length_pos (hlength ▸ hsome)
  exact fits_of_createBatchWork environment hserving hresolves hfresh hdrafts hwork

/-- How a request ends: it is refused if its time has passed, and creates its notifications if
not. -/
def Answers {α : Type} (past : Bool) (r : Except RequestError α) : Prop :=
  if past then r = .error (.domainError "invalid_schedule"
    "A scheduled notification must be scheduled for a time in the future.")
  else ∃ x, r = .ok x

/-- A request for a time that has passed is refused. -/
theorem returns_past {α : Type} {f : Unit → Service α}
    (hpast : request.scheduledAt.any (· ≤ now) = true) :
    (assertScheduleIsInTheFuture request now >>= f).run.Returns (exec policies) c db
      fun r _ => Answers true r := by
  unfold assertScheduleIsInTheFuture
  rw [if_pos hpast]
  exact Prog.returns_done.2 rfl

/-- What is made of a result decides nothing. -/
theorem answers_map {α β : Type} {past : Bool} {x : Service α} {g : α → β} :
    ((x >>= fun a => pure (g a)).run.Returns (exec policies) c db fun r _ => Answers past r) ↔
      x.run.Returns (exec policies) c db fun r _ => Answers past r := by
  rw [Raising.returns_bind]
  constructor
  · refine fun h => h.mono fun r w hr => ?_
    cases r with
    | ok a =>
      have hr := (Prog.returns_done (a := Except.ok (g a))).1 hr
      cases past with
      | true => cases hr
      | false => exact ⟨a, rfl⟩
    | error e =>
      cases past with
      | true =>
        cases hr
        exact rfl
      | false =>
        obtain ⟨_, he⟩ := hr
        cases he
  · refine fun h => h.mono fun r w hr => ?_
    cases past with
    | true =>
      cases hr
      exact rfl
    | false =>
      obtain ⟨a, rfl⟩ := hr
      exact Prog.returns_done.2 ⟨_, rfl⟩

theorem create_answers_iff {input : CreateNotificationInput}
    (correlationId : Option CorrelationId) (h : Ready db input.toNotificationRequest)
    (hbounded : Bounded input.toNotificationRequest)
    (hrecipient : isValidPhoneNumber input.recipient = true) :
    ((create environment correlationId input).run.Returns (exec policies) (.date now) db
      fun r _ => Answers (input.scheduledAt.any (· ≤ now)) r) ↔
        (input.scheduledAt.any (· ≤ now) = true ∨ Fits input.toNotificationRequest now) := by
  cases hpast : input.scheduledAt.any (· ≤ now) with
  | true =>
    refine iff_of_true (Raising.returns_bind.2 ?_) (.inl rfl)
    refine (returns_parseRecipient hrecipient).mono ?_
    rintro _ _ ⟨rfl, rfl⟩
    exact Raising.returns_call.2 ⟨now, _, rfl, returns_past hpast⟩
  | false =>
    simp only [Bool.false_eq_true, false_or]
    exact ⟨fits_of_create environment h hrecipient hpast,
      fun hfits => returns_create environment correlationId h hbounded hrecipient hfits hpast⟩

theorem createBatch_answers_iff {input : CreateNotificationBatchInput}
    (correlationId : Option CorrelationId) (h : Ready db input.toNotificationRequest)
    (hbounded : Bounded input.toNotificationRequest)
    (hrecipients : ∀ r ∈ input.recipients, isValidPhoneNumber r = true)
    (hsome : 1 ≤ input.recipients.length) :
    ((createBatch environment correlationId input).run.Returns (exec policies) (.date now) db
      fun r _ => Answers (input.scheduledAt.any (· ≤ now)) r) ↔
        (input.scheduledAt.any (· ≤ now) = true ∨ Fits input.toNotificationRequest now) := by
  cases hpast : input.scheduledAt.any (· ≤ now) with
  | true =>
    refine iff_of_true (Raising.returns_bind.2 ?_) (.inl rfl)
    refine (returns_numberRecipients hrecipients).mono ?_
    rintro _ db₁ ⟨drafts, rfl, -⟩
    exact Raising.returns_call.2 ⟨now, _, rfl, returns_past hpast⟩
  | false =>
    simp only [Bool.false_eq_true, false_or]
    exact ⟨fits_of_createBatch environment h hrecipients hsome hpast,
      fun hfits => returns_createBatch environment correlationId h hbounded hrecipients hfits hpast⟩

end Steps

/-- **What validation accepts, the database stores.** An accepted request whose connection resolves
and whose key is fresh creates its notifications, or is refused because its time has passed, exactly
if its time has passed or its values fit the columns. -/
theorem accepted_is_answered_iff (policies : Bool) (environment : Environment) (r : AcceptedRequest)
    (correlationId : Option CorrelationId) (now : Date) (db : Database) (h : Ready db r.input) :
    ((r.handle environment correlationId).run.Returns (exec policies) (.date now) db
      fun result _ => Answers (r.input.scheduledAt.any (· ≤ now)) result) ↔
        (r.input.scheduledAt.any (· ≤ now) = true ∨ Fits r.input now) := by
  cases r with
  | single principal body key =>
    exact answers_map.trans (create_answers_iff environment correlationId h
      (AcceptedRequest.single principal body key).bounded body.recipient_isValid)
  | batch principal body key =>
    exact answers_map.trans (createBatch_answers_iff environment correlationId h
      (AcceptedRequest.batch principal body key).bounded body.recipients_areValid
        body.recipients_bounds.1)

/-! ## One application with one connection -/

namespace Intake

def environment : Environment where
  sha256 s := s.map (·.toUInt8)
  localeCompare := compareOn id
  collates := inferInstance

def session : StoredSessionRecord where
  id := 2
  applicationId := 1
  providerSessionName := "wnp-2"
  status := .WORKING
  phoneNumber := none
  pushName := none
  sendPacingMinimumSeconds := 30
  sendPacingMaximumSeconds := 60
  nextSendAllowedAt := 0
  sendingPausedUntil := none
  sendingPausedReason := none
  accountLimits := none
  accountLimitsCheckedAt := none
  lastStatusAt := 0
  lastError := none
  updatedAt := 0
  webhookSigningKeyCiphertext := []
  createdAt := 0

def database : Database where
  store := .settled (Transactional.one (.session session)) (by
    intro r hr r' hr' x _ _
    rw [List.mem_singleton.1 hr, List.mem_singleton.1 hr'])
  now := 0
  identifiers := 3
  scope := fun _ => none
  startedAt := fun _ => 0

def content (body : Text) (h : 1 ≤ body.length ∧ body.length ≤ 4096) : NotificationContent :=
  Sample.content body h ⟨[], List.nodup_nil, fun _ h => absurd h List.not_mem_nil⟩

/-- A message to one recipient, without a key. -/
def request (body : Text) (h : 1 ≤ body.length ∧ body.length ≤ 4096) : AcceptedRequest :=
  Sample.request (content body h)

theorem ready (body : Text) (h : 1 ≤ body.length ∧ body.length ≤ 4096) :
    Ready database (request body h).input where
  idle := fun _ => rfl
  numbered := by
    intro r hr
    rw [List.mem_singleton.1 hr]
    decide
  resolves := ⟨session, List.mem_singleton_self _, rfl, by rintro x ⟨⟩⟩
  fresh := by rintro key ⟨⟩

end Intake

/-- A message of ordinary characters is stored. -/
theorem ordinary_message_is_stored :
    ((Intake.request [72, 105] (by decide)).handle Intake.environment none).run.Returns (exec true)
      (.date 0) Intake.database fun result _ => Answers false result :=
  (accepted_is_answered_iff true Intake.environment (Intake.request [72, 105] (by decide)) none 0
    Intake.database (Intake.ready _ _)).2 (.inr ⟨show (0 : UInt16) ∉ [72, 105] by decide,
      by rintro e ⟨⟩, by rintro d ⟨⟩, by rintro key ⟨⟩⟩)

/-- A message that is a single U+0000 passes validation, and no column holds it. -/
theorem null_character_is_not_stored :
    Ready Intake.database (Intake.request [0] (by decide)).input ∧
      ¬ ((Intake.request [0] (by decide)).handle Intake.environment none).run.Returns (exec true)
        (.date 0) Intake.database fun result _ => Answers false result := by
  have hnone : (((Intake.request [0] (by decide)).handle Intake.environment none).run.alone
      (exec true) (.date 0) Intake.database).isNone = true := by decide +kernel
  refine ⟨Intake.ready _ _, ?_⟩
  rintro ⟨result, db, hrun, -⟩
  rw [hrun] at hnone
  cases hnone

end PublicApi

end NotificationPlatform
