import NotificationPlatform.PublicApi.Creations
import NotificationPlatform.PublicApi.Validation

/-!
# A key is not forgotten

`expires_at` is written and never read: `claim` decides by the unique index, which knows no time,
and nothing deletes a row that has expired. So a request that carries the key of an expired row is
answered from that row, or refused because of it.
-/

namespace NotificationPlatform

namespace PublicApi

open Interleaving Relational Transactional CreateNotificationService
open Utf16 (Text)

/-! ## A key that is taken -/

/-- The application has a committed row with the key. -/
def KeyTaken (db : Database) (a : Uuid) (key : String) : Prop :=
  ∃ k, Row.idempotencyKey k ∈ db.store.committed.rows ∧ k.applicationId = a ∧ k.key = key

theorem uniqueValue_eq_applicationKey {r : Row} {a : Uuid} {key : String} :
    r.uniqueValue = some (.applicationKey a key) ↔
      ∃ k, r = .idempotencyKey k ∧ k.applicationId = a ∧ k.key = key := by
  cases r <;> simp [Row.uniqueValue]

section Operations

variable {policies : Bool} {db db' : Database} {c : Choice} {a : Uuid} {key : String}

/-- A transaction sees the key whatever it wrote. -/
theorem KeyTaken.seen (h : KeyTaken db a key) (t : Nat) :
    ∃ k, Row.idempotencyKey k ∈ (db.store.view t).rows ∧ k.applicationId = a ∧ k.key = key := by
  obtain ⟨k, hk, ha, hkey⟩ := h
  obtain ⟨r, hr, hsame⟩ : ∃ r ∈ (db.store.view t).rows,
      Relational.key r = Relational.key (Row.idempotencyKey k) := overlay_covers hk
  obtain ⟨holder, hh, -⟩ := Store.of_mem_view hr
  have hindex : index r = index (Row.idempotencyKey k) :=
    db.store.coherent.stable hh (show Row.idempotencyKey k ∈ (db.store.of none).rows from hk) hsame
  obtain ⟨k', rfl, ha', hkey'⟩ := uniqueValue_eq_applicationKey.1 hindex
  exact ⟨k', hr, ha'.trans ha, hkey'.trans hkey⟩

theorem KeyTaken.of_committed (h : KeyTaken db a key)
    (hsame : db'.store.committed = db.store.committed) : KeyTaken db' a key := by
  obtain ⟨k, hk, hrest⟩ := h
  exact ⟨k, hsame ▸ hk, hrest⟩

/-- No operation frees a key. -/
theorem exec_taken {o : Op} {r : o.Ret} (h : KeyTaken db a key)
    (he : exec policies db o c = some (r, db')) : KeyTaken db' a key := by
  cases exec_effect he with
  | within t hwithin => exact h.of_committed hwithin.committed
  | begun a' => exact h.of_committed rfl
  | committed t hended =>
    obtain ⟨k, hk, hrest⟩ := h.seen t
    exact ⟨k, by rw [hended.committed]; exact hk, hrest⟩
  | rolledBack t hended => exact h.of_committed hended.committed

theorem outside_taken {event : CreationEvent} (h : KeyTaken db a key)
    (he : creationsOutside db event = some db') : KeyTaken db' a key := by
  cases event with
  | clock now =>
    simp only [creationsOutside] at he
    split at he
    · cases he
      exact h.of_committed rfl
    · cases he
  | aborted t =>
    obtain ⟨⟨r, db''⟩, hrollback, rfl⟩ := Option.map_eq_some_iff.1 he
    obtain ⟨store, rfl, hended⟩ := rollbackTransaction_ended hrollback
    exact h.of_committed hended.committed
  | elsewhere service =>
    cases he
    obtain ⟨k, hk, hrest⟩ := h
    exact ⟨k, (service.keys db none k).2 hk, hrest⟩

theorem outside_scope {event : CreationEvent} (he : creationsOutside db event = some db') {t : Nat}
    (ht : t < db.store.next) : t < db'.store.next ∧ db'.scope t = db.scope t := by
  cases event with
  | clock now =>
    simp only [creationsOutside] at he
    split at he
    · cases he
      exact ⟨ht, rfl⟩
    · cases he
  | aborted t' =>
    obtain ⟨⟨r, db''⟩, hrollback, rfl⟩ := Option.map_eq_some_iff.1 he
    obtain ⟨store, rfl, hended⟩ := rollbackTransaction_ended hrollback
    exact ⟨hended.next ▸ ht, rfl⟩
  | elsewhere service =>
    cases he
    exact ⟨ht.trans_le (service.next db), service.scope db t ht⟩

/-- A claim inserts no key that is taken. -/
theorem KeyTaken.insertClaim {t : Nat} {input : IdempotencyClaimInput}
    {claimed : Option (Uuid × Uuid)} (h : KeyTaken db input.applicationId key) (hkey : textColumn input.key = some key)
    (he : exec policies db (.insertClaim t input) c = some (claimed, db')) : claimed = none := by
  obtain ⟨id, db₁, h₁, he⟩ := Statement.bind_eq_some.1 he
  cases h₁
  obtain ⟨now, db₂, h₂, he⟩ := Statement.bind_eq_some.1 he
  cases h₂
  cases hexpires : timestamptzColumn input.expiresAt with
  | none =>
    simp only [hkey, hexpires] at he
    cases he
  | some expiresAt =>
    simp only [hkey, hexpires] at he
    split at he
    · obtain ⟨inserted, db₃, h₃, he⟩ := Statement.bind_eq_some.1 he
      obtain ⟨rfl, -⟩ := Statement.pure_eq_some.1 he
      unfold QueryExecutor.insert at h₃
      split at h₃
      · obtain ⟨⟨b, store⟩, hinsert, hp⟩ := Option.map_eq_some_iff.1 h₃
        cases hp
        rcases Store.insert_cases hinsert with ⟨rfl, -, hfree⟩ | ⟨rfl, -⟩
        · obtain ⟨k, hk, ha, hk'⟩ := h
          refine absurd ?_ ((Store.clash_eq_false.1 (hfree none _ hk)).2 _ rfl)
          rw [index_row, uniqueValue_eq_applicationKey]
          exact ⟨k, rfl, ha, hk'⟩
        · rfl
      · cases h₃
    · cases he

/-- A read of a key that is taken finds it. -/
theorem KeyTaken.findByKey {t : Nat} {text : Text} {found : Option IdempotencyRecord}
    (h : KeyTaken db a key) (hkey : textColumn text = some key) (hscope : db.scope t = some a)
    (he : exec policies db (.findByKey t a text) c = some (found, db')) : found.isSome = true := by
  change IdempotencyKeyRepository.findByKey _ _ _ _ = _ at he
  unfold IdempotencyKeyRepository.findByKey at he
  simp only [hkey] at he
  obtain ⟨rows, db₁, h₁, he⟩ := Statement.bind_eq_some.1 he
  obtain ⟨rfl, -⟩ := Statement.pure_eq_some.1 he
  unfold QueryExecutor.select at h₁
  split at h₁
  · cases h₁
    obtain ⟨k, hk, ha, hk'⟩ := h.seen t
    refine List.find?_isSome.2 ⟨k, List.mem_filterMap.2 ⟨_, List.mem_filter.2 ⟨hk, ?_⟩, rfl⟩, ?_⟩
    · simp [QueryExecutor.admits, hscope, Row.applicationId, ha]
    · simp [ha, hk']
  · cases h₁

end Operations

/-! ## A request for a key that is taken -/

section Requests

variable {policies : Bool} {environment : Environment} {a : Uuid} {key : String}

variable (policies environment a key) in
/-- The ghost of a request is the transaction it has begun. Nobody frees the key, and nobody changes
the scope of the transaction. -/
def taking : Protocol (creations policies environment) where
  Ghost := Option Nat
  idle := none
  Fits g db := KeyTaken db a key ∧ ∀ t ∈ g, t < db.store.next ∧ db.scope t = some a
  Apart _ _ := True
  Rely _ db db' := (KeyTaken db a key → KeyTaken db' a key) ∧
    ∀ t < db.store.next, t < db'.store.next ∧ db'.scope t = db.scope t
  Guarantee _ db _ db' := (KeyTaken db a key → KeyTaken db' a key) ∧
    ∀ t < db.store.next, t < db'.store.next ∧ db'.scope t = db.scope t
  rely_refl _ _ := ⟨id, fun _ ht => ⟨ht, rfl⟩⟩
  rely_trans h h' := ⟨h'.1 ∘ h.1, fun t ht =>
    ⟨(h'.2 t (h.2 t ht).1).1, ((h'.2 t (h.2 t ht).1).2).trans (h.2 t ht).2⟩⟩
  fits_rely hfits h := ⟨h.1 hfits.1, fun t ht =>
    have hbegun := h.2 t (hfits.2 t ht).1
    ⟨hbegun.1, hbegun.2.trans (hfits.2 t ht).2⟩⟩
  apart_symm _ := trivial
  apart_idle _ := trivial
  interferes h _ _ _ := ⟨h, trivial⟩
  outside he _ := ⟨fun h => outside_taken h he, fun _ ht => outside_scope he ht⟩

theorem taking_guarantee {g g' : Option Nat} {db db' : Database} {o : Op} {r : o.Ret} {c : Choice}
    (he : exec policies db o c = some (r, db')) :
    (taking policies environment a key).Guarantee g db g' db' :=
  ⟨fun h => exec_taken h he, fun _ ht => exec_scope he ht⟩

theorem taking_fits {g : Option Nat} {db db' : Database} {o : Op} {r : o.Ret} {c : Choice}
    (h : (taking policies environment a key).Fits g db)
    (he : exec policies db o c = some (r, db')) : (taking policies environment a key).Fits g db' :=
  (taking policies environment a key).fits_rely h
    ⟨fun h => exec_taken h he, fun _ ht => exec_scope he ht⟩

/-- One operation, whatever it is. -/
theorem keeps_perform {β : Type} {o : Op} {f : o.Ret → Service β} {g : Option Nat} {db : Database}
    {Q : Except RequestError β → Option Nat → Database → Prop}
    (h : ∀ db₁ c r db₂, (taking policies environment a key).Fits g db₁ →
      exec policies db₁ o c = some (r, db₂) →
        (taking policies environment a key).Keeps Q (f r).run g db₂) :
    (taking policies environment a key).Keeps Q ((perform o : Service _) >>= f).run g db :=
  fun db₁ _ hfits c r db₂ he =>
    ⟨g, taking_guarantee he, taking_fits hfits he, h db₁ c r db₂ hfits he⟩

/-- A program that is free to end in any way. -/
theorem keeps_any {α : Type} {Q : α → Option Nat → Database → Prop} {p : Prog operations α}
    {g : Option Nat} {db : Database} (hQ : ∀ r db', Q r g db') :
    (taking policies environment a key).Keeps Q p g db := by
  induction p generalizing db with
  | done r => exact hQ r db
  | perform o k ih =>
    exact fun db₁ _ hfits c r db₂ he => ⟨g, taking_guarantee he, taking_fits hfits he, ih r⟩

/-- A part of a request, and what follows it. -/
theorem keeps_then {α β : Type} {x : Service α} {f : α → Service β} {g : Option Nat}
    {db : Database} {Q : Except RequestError β → Option Nat → Database → Prop}
    (herror : ∀ e db', Q (.error e) g db')
    (h : ∀ r db', (taking policies environment a key).Keeps Q (f r).run g db') :
    (taking policies environment a key).Keeps Q (x >>= f).run g db := by
  refine Protocol.keeps_bind_raising (keeps_any fun r db' => ?_)
  cases r with
  | ok r => exact h r db'
  | error e => exact herror e db'

/-- The claim of a request finds the key completed, or the request is over. -/
theorem keeps_claimIdempotencyKey {t : Nat} {request : NotificationRequest} {fingerprint : Buffer}
    {now : Date} {text : Text} {db : Database} (happ : request.applicationId = a)
    (hrequest : request.idempotencyKey = some text) (htext : textColumn text = some key) :
    (taking policies environment a key).Keeps
      (fun r g _ => g = some t ∧ ∀ claim, r = .ok claim →
        ∃ resourceId responseBody, claim = .completed resourceId responseBody)
      (claimIdempotencyKey t request fingerprint now).run (some t) db := by
  refine keeps_perform fun _ _ lockToken db₁ _ _ => ?_
  rw [hrequest]
  refine Protocol.keeps_bind_raising ?_
  refine keeps_perform fun db₂ _ claimed db₃ hfits he => ?_
  have htaken : KeyTaken db₂ request.applicationId key := happ ▸ hfits.1
  obtain rfl := htaken.insertClaim htext he
  refine keeps_perform fun db₄ _ found db₅ hfits he => ?_
  have hscope := (hfits.2 t rfl).2
  subst happ
  obtain ⟨record, rfl⟩ := Option.isSome_iff_exists.1 (hfits.1.findByKey htext hscope he)
  show (taking policies environment _ key).Keeps _ (readClaim record fingerprint).run _ _
  unfold readClaim
  split
  · exact ⟨rfl, by rintro _ ⟨⟩⟩
  · split
    · exact ⟨rfl, fun _ hclaim => ⟨_, _, (Except.ok.inj hclaim).symm⟩⟩
    · exact ⟨rfl, by rintro _ ⟨⟩⟩

/-- A transaction in the application's scope. -/
theorem keeps_withTenantScope {α : Type} {work : Nat → Service α} {db : Database}
    {Q : Except RequestError α → Prop} (herror : ∀ e, Q (.error e))
    (hwork : ∀ t db, (taking policies environment a key).Keeps (fun r _ _ => Q r)
      (work t).run (some t) db) :
    (taking policies environment a key).Keeps (fun r _ _ => Q r) (withTenantScope a work).run none
      db := by
  intro db₁ _ hfits c t db₂ he
  have he : exec policies db₁ (.begin (some a)) c = some (t, db₂) := he
  have htaken := exec_taken hfits.1 he
  have hguarantee : (taking policies environment a key).Guarantee none db₁ (some t) db₂ :=
    taking_guarantee he
  obtain ⟨rfl, rfl⟩ := exec_begin_eq he
  refine ⟨some db₁.store.next, hguarantee, ⟨htaken, ?_⟩, ?_⟩
  · rintro t ⟨⟩
    exact ⟨Nat.lt_succ_self _, Function.update_self _ _ _⟩
  · refine Protocol.keeps_bind_raising (Protocol.keeps_map ?_)
    refine (hwork _ _).mono fun r g db hr => ?_
    cases r with
    | ok result => exact keeps_perform fun _ _ _ _ _ _ => hr
    | error e => exact keeps_perform fun _ _ _ _ _ _ => herror e

/-- Nothing was created. -/
def NotNew {α : Type} (wasReplayed : α → Bool) (r : Except RequestError α) : Prop :=
  ∀ result, r = .ok result → wasReplayed result = true

theorem keeps_create {correlationId : Option CorrelationId} {input : CreateNotificationInput}
    {text : Text} {db : Database} (happ : input.applicationId = a)
    (hrequest : input.idempotencyKey = some text) (htext : textColumn text = some key) :
    (taking policies environment a key).Keeps
      (fun r _ _ => NotNew CreateNotificationResult.wasReplayed r)
      (create environment correlationId input).run none db := by
  have herror : ∀ e : RequestError, NotNew CreateNotificationResult.wasReplayed (.error e) := by
    rintro _ _ ⟨⟩
  refine keeps_then (fun e _ => herror e) fun recipient db => ?_
  refine keeps_then (fun e _ => herror e) fun now db => ?_
  refine keeps_then (fun e _ => herror e) fun _ db => ?_
  refine keeps_then (fun e _ => herror e) fun correlationId db => ?_
  refine keeps_then (fun e _ => herror e) fun notificationId db => ?_
  subst happ
  refine keeps_withTenantScope herror fun t db => ?_
  refine keeps_then (fun e _ => herror e) fun session db => ?_
  refine Protocol.keeps_bind_raising ?_
  refine (keeps_claimIdempotencyKey rfl hrequest htext).mono ?_
  rintro (e | claim) _ db ⟨rfl, hclaim⟩
  · exact herror e
  · obtain ⟨resourceId, responseBody, rfl⟩ := hclaim claim rfl
    cases resourceId with
    | none => exact herror _
    | some resourceId =>
      refine keeps_then (fun e _ => herror e) fun notification db => ?_
      rintro result ⟨⟩
      rfl

theorem keeps_createBatch {correlationId : Option CorrelationId}
    {input : CreateNotificationBatchInput} {text : Text} {db : Database}
    (happ : input.applicationId = a) (hrequest : input.idempotencyKey = some text)
    (htext : textColumn text = some key) :
    (taking policies environment a key).Keeps
      (fun r _ _ => NotNew CreateNotificationBatchResult.wasReplayed r)
      (createBatch environment correlationId input).run none db := by
  have herror : ∀ e : RequestError,
      NotNew CreateNotificationBatchResult.wasReplayed (.error e) := by
    rintro _ _ ⟨⟩
  refine keeps_then (fun e _ => herror e) fun drafts db => ?_
  refine keeps_then (fun e _ => herror e) fun now db => ?_
  refine keeps_then (fun e _ => herror e) fun _ db => ?_
  refine keeps_then (fun e _ => herror e) fun correlationId db => ?_
  subst happ
  refine keeps_withTenantScope herror fun t db => ?_
  refine keeps_then (fun e _ => herror e) fun session db => ?_
  refine Protocol.keeps_bind_raising ?_
  refine (keeps_claimIdempotencyKey rfl hrequest htext).mono ?_
  rintro (e | claim) _ db ⟨rfl, hclaim⟩
  · exact herror e
  · obtain ⟨resourceId, responseBody, rfl⟩ := hclaim claim rfl
    refine keeps_then (fun e _ => herror e) fun identifiers db => ?_
    refine keeps_then (fun e _ => herror e) fun notifications db => ?_
    rintro result ⟨⟩
    rfl

/-- Whoever asks for a key that is taken is refused, or is answered with what was created before. -/
theorem keeps_program {request : CreationRequest} {text : Text} {db : Database}
    (happ : request.input.applicationId = a) (hrequest : request.input.idempotencyKey = some text)
    (htext : textColumn text = some key) :
    (taking policies environment a key).Keeps
      (fun result _ _ => NotNew Prod.snd result.answer) (request.program environment) none db := by
  cases request with
  | create correlationId input =>
    refine Protocol.keeps_map ((keeps_create happ hrequest htext).mono fun result g db h => ?_)
    cases result with
    | ok result =>
      rintro _ ⟨⟩
      exact h result rfl
    | error e => rintro _ ⟨⟩
  | createBatch correlationId input =>
    refine Protocol.keeps_map ((keeps_createBatch happ hrequest htext).mono fun result g db h => ?_)
    cases result with
    | ok result =>
      rintro _ ⟨⟩
      exact h result rfl
    | error e => rintro _ ⟨⟩

end Requests

/-! ## A key whose window has closed -/

section Runs

variable {policies : Bool} {environment : Environment}
  {s s' : System (creations policies environment)} {i : Nat} {request : CreationRequest}
  {now : Date}

/-- The row of the request's key expired at `now` or before. -/
def HoldsExpired (db : Database) (request : CreationRequest) (now : Date) : Prop :=
  ∃ text key k, request.input.idempotencyKey = some text ∧ textColumn text = some key ∧
    Row.idempotencyKey k ∈ db.store.committed.rows ∧
    k.applicationId = request.input.applicationId ∧ k.key = key ∧ k.expiresAt ≤ now

/-- Thread `i` starts on the request when the row of its key is there, and by the clock it reads the
row has expired. -/
structure Reuses (s s' : System (creations policies environment)) (i : Nat)
    (request : CreationRequest) (now : Date) : Prop where
  starts : s.threads i = some ⟨request, .running (request.program environment)⟩
  reads : ⟨i, .clockNow, now⟩ ∈ s'.trace
  expired : HoldsExpired s.world request now

/-- It created its notifications, and the key is its own for another window. -/
structure TreatedAsNew (s : System (creations policies environment)) (i : Nat)
    (request : CreationRequest) (now : Date) : Prop where
  created : ∃ result notifications, s.threads i = some ⟨request, .running (.done result)⟩ ∧
    result.answer = .ok (notifications, false)
  recorded : ∃ k, Row.idempotencyKey k ∈ s.world.store.committed.rows ∧
    k.applicationId = request.input.applicationId ∧
    k.requestFingerprint = request.fingerprint environment ∧
    k.expiresAt = now + IDEMPOTENCY_WINDOW_HOURS * 3600000

/-- **No request is treated as new when its key is on file, however long ago the key expired**: not
in any run, whatever the other requests and the other services do. -/
theorem expired_key_is_not_forgotten {P : System (creations policies environment) →
    Label (creations policies environment) → Prop} (hrun : Run P s s')
    (h : Reuses s s' i request now) : ¬ TreatedAsNew s' i request now := by
  obtain ⟨text, key, k, hrequest, htext, hk, happ, hkey, -⟩ := h.expired
  have hserves : s.requestOf i = some request := by
    rw [System.requestOf, h.starts]
    rfl
  have hkept : (taking policies environment request.input.applicationId key).Kept
      (fun _ result _ _ => NotNew Prod.snd result.answer) (· = i) s fun _ => none := by
    refine ⟨fun _ => ⟨⟨k, hk, happ, hkey⟩, by rintro _ ⟨⟩⟩, fun _ _ _ => trivial,
      fun _ _ => rfl, ?_⟩
    rintro _ request' rest rfl hrunning
    cases h.starts.symm.trans hrunning
    exact keeps_program rfl hrequest htext
  obtain ⟨ghost, hkept'⟩ : ∃ ghost, (taking policies environment request.input.applicationId
      key).Kept (fun _ result _ _ => NotNew Prod.snd result.answer) (· = i) s' ghost := by
    refine hkept.run (fun _ => fun _ _ => id) ?_ ?_ (hrun.serves hserves)
    · rintro s j request' rfl hs hfree
      rw [System.requestOf, hfree] at hs
      cases hs
    · intro s j c _ _ g o r w _ he
      exact ⟨fun htaken => exec_taken htaken he, fun _ ht => exec_scope he ht⟩
  rintro ⟨⟨result, notifications, hdone, hanswer⟩, -⟩
  cases hkept'.returned rfl hdone _ hanswer

end Runs

/-! ## The same request a day later -/

namespace Intake

def order : CreateNotificationInput where
  applicationId := 1
  body := [72, 105]
  whatsAppSessionId := none
  scheduledAt := none
  maximumAttempts := none
  metadata := []
  idempotencyKey := some (Utf16.ofString "order-1")
  requestPath := "/v1/notifications"
  recipient := "+5511999998888"

/-- The order is created at 0, and 25 hours pass. -/
def ordered : System (creations true environment) :=
  (System.start database).after
    ([.spawn 0 (.create none order), .advance 0 (.date 0)] ++
      List.replicate 12 (.advance 0 .nothing) ++ [.outside (.clock 90000000000)])

/-- The same request again. -/
def reordered : System (creations true environment) :=
  let request : CreationRequest := .create none order
  { ordered with
    threads := Function.update ordered.threads 1
      (some ⟨request, .running (request.program environment)⟩) }

def answered : System (creations true environment) :=
  reordered.after (.advance 1 (.date 90000000) :: List.replicate 9 (.advance 1 .nothing))

/-- The thread and the answer of an entry that reads the clock. -/
def reading? : Performed operations → Option (Nat × Date)
  | ⟨i, .clockNow, now⟩ => some (i, now)
  | _ => none

theorem reading?_eq_some {e : Performed operations} {i : Nat} {now : Date}
    (h : reading? e = some (i, now)) : e = ⟨i, .clockNow, now⟩ := by
  obtain ⟨j, o, r⟩ := e
  cases o <;> cases h
  rfl

/-- What a thread has returned, and whether it is a replay. -/
def replay? (s : System (creations true environment)) (i : Nat) : Option Bool :=
  match s.threads i with
  | some ⟨_, .running (.done result)⟩ => result.answer.toOption.map (·.2)
  | _ => none

theorem run_ordered : Run Any (System.start database) ordered := .any_after _

theorem run_reordered : Run Any (System.start database) reordered := by
  have hfree : (ordered.threads 1).isNone = true := by decide +kernel
  exact .tail run_ordered trivial (System.step_spawn.2 ⟨Option.isNone_iff_eq_none.1 hfree, rfl⟩)

theorem run_answered : Run Any reordered answered := .any_after _

theorem reuses_order : Reuses reordered answered 1 (.create none order) 90000000 where
  starts := by simp only [reordered, Function.update_self]
  reads := by
    have hread : answered.trace.any (fun e => decide (reading? e = some (1, 90000000))) = true := by
      decide +kernel
    obtain ⟨e, he, hreading⟩ := List.any_eq_true.1 hread
    rw [← reading?_eq_some (of_decide_eq_true hreading)]
    exact he
  expired := by
    have hrow : reordered.world.store.committed.rows.any (fun r => r.idempotencyKey?.any fun k =>
        decide (k.applicationId = 1 ∧ k.key = "order-1" ∧ k.expiresAt ≤ 90000000)) = true := by
      decide +kernel
    obtain ⟨r, hr, hkey⟩ := List.any_eq_true.1 hrow
    obtain ⟨k, hk, hexpired⟩ := (Option.any_eq_true _ _).1 hkey
    obtain ⟨happ, hname, hexpires⟩ := of_decide_eq_true hexpired
    rw [Row.idempotencyKey?_eq_some.1 hk] at hr
    exact ⟨_, "order-1", k, rfl, by decide +kernel, hr, happ, hname, hexpires⟩

theorem not_treatedAsNew_of_replay {s : System (creations true environment)} {i : Nat}
    {request : CreationRequest} {now : Date} (h : replay? s i = some true) :
    ¬ TreatedAsNew s i request now := by
  rintro ⟨⟨result, notifications, hdone, hanswer⟩, -⟩
  rw [replay?, hdone] at h
  simp only [hanswer, Except.toOption, Option.map_some, Option.some.injEq] at h
  cases h

end Intake

/-- The second order is answered with the first. -/
theorem expired_order_not_forgotten :
    ¬ TreatedAsNew Intake.answered 1 (.create none Intake.order) 90000000 :=
  expired_key_is_not_forgotten Intake.run_answered Intake.reuses_order

theorem expired_key_replays : ∃ s s' : System (creations true Intake.environment),
    Run Any (System.start Intake.database) s ∧ Run Any s s' ∧
      Reuses s s' 1 (.create none Intake.order) 90000000 ∧ Intake.replay? s' 1 = some true ∧
      ¬ TreatedAsNew s' 1 (.create none Intake.order) 90000000 := by
  have hreplay : Intake.replay? Intake.answered 1 = some true := by decide +kernel
  exact ⟨Intake.reordered, Intake.answered, Intake.run_reordered, Intake.run_answered,
    Intake.reuses_order, hreplay, Intake.not_treatedAsNew_of_replay hreplay⟩

end PublicApi

end NotificationPlatform
