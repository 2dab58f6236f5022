import NotificationPlatform.Connections.Service
import NotificationPlatform.Inbox.Ingestion
import NotificationPlatform.Interleaving.Moments

/-!
# Signing keys

The platform stores the signing key of a connection encrypted, and the provider signs callbacks with
the key it was given. Connections are created, started, stopped, logged out and deleted at once,
statement by statement and request by request, and the provider forgets sessions and performs
requests whose answers are lost. Whatever it signs for a connection, the platform verifies.
-/

namespace NotificationPlatform

namespace Connections

open Interleaving Relational Security

open Utf16 (Text IsAscii hexDigit)

open Connections.WhatsAppSessionRepository (InsertInput StatusInput)

open Connections.WhatsAppSessionService

/-! ## What a request performs -/

section Programs

variable {configuration : ConnectionConfiguration} {es : List (Performed connectionOperations)}

/-- An operation that neither draws an identifier, nor inserts a row, nor has the provider create a
session. -/
def IsPlain : ConnectionOp → Prop
  | .generate | .insert _ | .postSession _ => False
  | _ => True

/-- An operation that neither draws an identifier nor inserts a row, and has the provider create no
other session than this one. -/
def AsksOnlyFor (session : HostedSession) : ConnectionOp → Prop
  | .generate | .insert _ => False
  | .postSession x => x = session
  | _ => True

theorem IsPlain.asksOnlyFor {o : ConnectionOp} (h : IsPlain o) (session : HostedSession) :
    AsksOnlyFor session o := by
  cases o with
  | generate | insert | postSession => exact h.elim
  | clockNow | randomBytes | findById | listForApplication | existsForSession | recordStatus
  | delete | postStart | postStop | postLogout | deleteSession => trivial

theorem AsksOnlyFor.not_insert {session : HostedSession} {o : ConnectionOp}
    (h : AsksOnlyFor session o) (x : InsertInput) : o ≠ .insert x := by
  rintro rfl
  exact h

theorem uses_getOrFail (a s : Uuid) : (getOrFail a s).run.Uses IsPlain := by
  refine Raising.uses_bind ⟨trivial, fun _ => trivial⟩ fun found => ?_
  cases found <;> trivial

theorem uses_recordSession (a s : Uuid) (session : ProviderSession) :
    (recordSession a s session).run.Uses IsPlain :=
  ⟨trivial, fun _ => ⟨trivial, fun _ => uses_getOrFail a s⟩⟩

theorem uses_recordAndReturn (a s : Uuid) (status : ProviderSessionStatus) :
    (recordAndReturn a s status).run.Uses IsPlain :=
  Raising.uses_bind (uses_getOrFail a s) fun _ =>
    ⟨trivial, fun _ => ⟨trivial, fun _ => uses_getOrFail a s⟩⟩

theorem uses_startSession (name : String) : (WahaProvider.startSession name).run.Uses IsPlain := by
  refine Raising.uses_bind ⟨trivial, fun _ => trivial⟩ fun started => ?_
  cases started with
  | failed failure => trivial
  | succeeded session =>
    dsimp only
    split
    · trivial
    · refine Raising.uses_bind ⟨trivial, fun _ => trivial⟩ fun stopped => ?_
      cases stopped with
      | failed failure => trivial
      | succeeded session => exact ⟨trivial, fun _ => trivial⟩

/-- The requests that only look at connections, stop them or end them. -/
theorem uses_plain {request : ConnectionRequest} (hcreate : ∀ input, request ≠ .create input)
    (hstart : ∀ a s, request ≠ .start a s) :
    (ConnectionRequest.program configuration request).Uses IsPlain := by
  cases request with
  | create input => exact absurd rfl (hcreate input)
  | start a s => exact absurd rfl (hstart a s)
  | list a => exact ⟨trivial, fun _ => trivial⟩
  | stop a s =>
    refine Prog.Uses.bind (Raising.uses_bind (uses_getOrFail a s) fun record => ?_)
      fun _ => trivial
    refine Raising.uses_bind ⟨trivial, fun _ => trivial⟩ fun stopped => ?_
    cases stopped with
    | failed failure => trivial
    | succeeded session => exact uses_recordAndReturn a s session.status
  | logout a s =>
    refine Prog.Uses.bind (Raising.uses_bind (uses_getOrFail a s) fun record => ?_)
      fun _ => trivial
    refine Raising.uses_bind ⟨trivial, fun _ => trivial⟩ fun loggedOut => ?_
    cases loggedOut with
    | succeeded session => exact uses_recordAndReturn a s session.status
    | failed failure =>
      dsimp only
      split
      · exact ⟨trivial, fun _ => ⟨trivial, fun _ => uses_getOrFail a s⟩⟩
      · trivial
  | delete a s =>
    refine Prog.Uses.bind (Raising.uses_bind (uses_getOrFail a s) fun record => ?_)
      fun _ => trivial
    refine Raising.uses_bind ⟨trivial, fun _ => trivial⟩ fun isInUse => ?_
    split
    · trivial
    · refine Raising.uses_bind ⟨trivial, fun _ => trivial⟩ fun deleted => ?_
      cases deleted with
      | succeeded value => exact ⟨trivial, fun _ => trivial⟩
      | failed failure =>
        dsimp only
        split
        · exact ⟨trivial, fun _ => trivial⟩
        · trivial

/-- What `create` does once it has inserted its row. -/
def afterInsertion (configuration : ConnectionConfiguration) (input : CreateWhatsAppSessionInput)
    (sessionId : Uuid) (signingKey : Text) (record : ConnectionRecord) :
    Service ConnectionRecord := do
  let created ← perform (.postSession
    (hostedSession configuration sessionId record.providerSessionName signingKey))
  match created with
  | .failed failure =>
    let _ ← perform (.delete input.applicationId sessionId)
    throw (unavailable "refused to create the connection" failure)
  | .succeeded session => recordSession input.applicationId sessionId session

/-- What `create` does once it has drawn what it needs. -/
def afterDraws (configuration : ConnectionConfiguration) (input : CreateWhatsAppSessionInput)
    (sessionId : Uuid) (bytes initialisationVector : Security.Buffer) : Service ConnectionRecord :=
  match encryptSecret configuration.cipher (toHex bytes) configuration.encryptionKey
      initialisationVector with
  | none => throw .cipher
  | some webhookSigningKeyCiphertext => do
    let record ← perform (.insert (insertion input sessionId webhookSigningKeyCiphertext))
    afterInsertion configuration input sessionId (toHex bytes) record

theorem create_eq (configuration : ConnectionConfiguration) (input : CreateWhatsAppSessionInput) :
    create configuration input = (do
      let sessionId ← perform .generate
      let bytes ← perform (.randomBytes SIGNING_KEY_BYTES)
      let initialisationVector ← perform (.randomBytes INITIALISATION_VECTOR_BYTES)
      afterDraws configuration input sessionId bytes initialisationVector) := by
  refine bind_congr fun sessionId => bind_congr fun bytes => bind_congr fun vector => ?_
  unfold afterDraws
  cases encryptSecret configuration.cipher (toHex bytes) configuration.encryptionKey vector with
  | none => rfl
  | some cipherText =>
    refine bind_congr fun record => bind_congr fun created => ?_
    cases created <;> rfl

theorem uses_afterInsertion (input : CreateWhatsAppSessionInput) (id : Uuid) (key : Text)
    (record : ConnectionRecord) : (afterInsertion configuration input id key record).run.Uses
      (AsksOnlyFor (hostedSession configuration id record.providerSessionName key)) := by
  refine Raising.uses_bind ⟨rfl, fun _ => trivial⟩ fun created => ?_
  cases created with
  | failed failure => exact ⟨trivial, fun _ => trivial⟩
  | succeeded session => exact (uses_recordSession _ _ _).mono fun _ h => h.asksOnlyFor _

/-- What a `create` has performed once it has inserted its row: it drew the identifier, the key and
the vector itself. -/
def Inserted (configuration : ConnectionConfiguration) (input : CreateWhatsAppSessionInput)
    (id : Uuid) (key : Text) (record : ConnectionRecord)
    (es rest : List (Performed connectionOperations)) : Prop :=
  ∃ i₁ i₂ i₃ i₄ bytes iv cipherText,
    es = ⟨i₁, .generate, id⟩ :: ⟨i₂, .randomBytes SIGNING_KEY_BYTES, bytes⟩ ::
      ⟨i₃, .randomBytes INITIALISATION_VECTOR_BYTES, iv⟩ ::
      ⟨i₄, .insert (insertion input id cipherText), record⟩ :: rest ∧
    key = toHex bytes ∧
    encryptSecret configuration.cipher key configuration.encryptionKey iv = some cipherText

/-- A `create` that has inserted no row has asked the provider for nothing. -/
theorem begins_create {input : CreateWhatsAppSessionInput}
    (h : (ConnectionRequest.program configuration (.create input)).Begins es) :
    (∀ e ∈ es, (∀ x, e.op ≠ .insert x) ∧ ∀ x, e.op ≠ .postSession x) ∨
      ∃ id key record rest, Inserted configuration input id key record es rest ∧
        (ConnectionResult.connection <$>
          (afterInsertion configuration input id key record).run).Begins rest := by
  rw [ConnectionRequest.program, create_eq] at h
  cases es with
  | nil => simp
  | cons e₁ es =>
    obtain ⟨i₁, id, rfl, h⟩ := h
    cases es with
    | nil => simp
    | cons e₂ es =>
      obtain ⟨i₂, bytes, rfl, h⟩ := h
      cases es with
      | nil => simp
      | cons e₃ es =>
        obtain ⟨i₃, iv, rfl, h⟩ := h
        replace h : (ConnectionResult.connection <$>
          (afterDraws configuration input id bytes iv).run).Begins es := h
        unfold afterDraws at h
        cases hencrypted : encryptSecret configuration.cipher (toHex bytes)
            configuration.encryptionKey iv with
        | none =>
          rw [hencrypted] at h
          cases es with
          | nil => simp
          | cons e₄ es => exact h.elim
        | some cipherText =>
          rw [hencrypted] at h
          cases es with
          | nil => simp
          | cons e₄ es =>
            obtain ⟨i₄, record, rfl, h⟩ := h
            exact .inr ⟨id, _, record, es, ⟨i₁, i₂, i₃, i₄, bytes, iv, cipherText, rfl, rfl,
              hencrypted⟩, h⟩

theorem took_getOrFail {a k : Uuid} {r : Except ConnectionError ConnectionRecord}
    (h : (getOrFail a k).run.Took es r) : ∃ i found, es = [⟨i, .findById a k, found⟩] ∧
      r = found.elim (.error sessionNotFound) .ok := by
  obtain ⟨i, found, rest, hes, h⟩ := Raising.took_call.1 h
  cases found with
  | none =>
    obtain ⟨rfl, hr⟩ := Raising.took_throw.1 h
    exact ⟨i, none, hes, hr⟩
  | some found =>
    obtain ⟨rfl, hr⟩ := Raising.took_pure.1 h
    exact ⟨i, some found, hes, hr⟩

/-- A session is created again under the name and the key of the row. -/
theorem uses_recreateAtProvider {record : ConnectionRecord} {key : Text}
    (hkey : decryptSecret configuration.cipher record.webhookSigningKeyCiphertext
      configuration.encryptionKey = some key) :
    (recreateAtProvider configuration record).run.Uses
      (AsksOnlyFor (hostedSession configuration record.id record.providerSessionName key)) := by
  unfold recreateAtProvider
  rw [hkey]
  refine Raising.uses_bind ⟨rfl, fun _ => trivial⟩ fun created => ?_
  cases created with
  | failed failure => trivial
  | succeeded session => exact (uses_recordSession _ _ _).mono fun _ h => h.asksOnlyFor _

/-- A `start` asks the provider for nothing but the session of the row it read. -/
theorem begins_start {a k : Uuid}
    (h : (ConnectionRequest.program configuration (.start a k)).Begins es) :
    (∀ e ∈ es, IsPlain e.op) ∨ ∃ i record key,
      (⟨i, .findById a k, some record⟩ : Performed connectionOperations) ∈ es ∧
      decryptSecret configuration.cipher record.webhookSigningKeyCiphertext
        configuration.encryptionKey = some key ∧
      ∀ e ∈ es,
        AsksOnlyFor (hostedSession configuration record.id record.providerSessionName key) e.op := by
  rcases Raising.begins_bind (Prog.begins_map h) with h |
    ⟨before, after, found, rfl, hbefore, h⟩
  · exact .inl (h.uses (uses_getOrFail a k))
  have hread := hbefore.begins.uses (uses_getOrFail a k)
  obtain ⟨i, found, rfl, rfl⟩ := took_getOrFail hbefore
  have hplain : (∀ e ∈ after, IsPlain e.op) → ∀ e ∈ [(⟨i, .findById a k, found⟩ :
      Performed connectionOperations)] ++ after, IsPlain e.op := by
    intro hafter e he
    rcases List.mem_append.1 he with he | he
    · exact hread e he
    · exact hafter e he
  cases found with
  | none => exact .inl (hplain (h.uses trivial))
  | some record =>
    rcases Raising.begins_bind h with h | ⟨before, last, started, rfl, hbefore, h⟩
    · exact .inl (hplain (h.uses (uses_startSession _)))
    have hstarted := hbefore.begins.uses (uses_startSession _)
    have hlast : (∀ e ∈ last, IsPlain e.op) → ∀ e ∈ before ++ last, IsPlain e.op := by
      intro hlast e he
      rcases List.mem_append.1 he with he | he
      · exact hstarted e he
      · exact hlast e he
    cases started with
    | error e => exact .inl (hplain (hlast (h.uses trivial)))
    | ok started =>
      cases started with
      | succeeded session => exact .inl (hplain (hlast (h.uses (uses_recordAndReturn _ _ _))))
      | failed failure =>
        dsimp only [Raising.andThen] at h
        split at h
        · cases hkey : decryptSecret configuration.cipher record.webhookSigningKeyCiphertext
              configuration.encryptionKey with
          | none =>
            unfold recreateAtProvider at h
            rw [hkey] at h
            exact .inl (hplain (hlast (h.uses trivial)))
          | some key =>
            refine .inr ⟨i, record, key, by simp, hkey, fun e he => ?_⟩
            rcases List.mem_append.1 he with he | he
            · exact (hread e he).asksOnlyFor _
            rcases List.mem_append.1 he with he | he
            · exact (hstarted e he).asksOnlyFor _
            · exact h.uses (uses_recreateAtProvider hkey) e he
        · exact .inl (hplain (hlast (h.uses trivial)))

end Programs

/-! ## What an operation changes -/

/-- What a row of `whatsapp_sessions` keeps. -/
structure ConnectionRecord.Keeps (r r' : ConnectionRecord) : Prop where
  id : r'.id = r.id
  applicationId : r'.applicationId = r.applicationId
  providerSessionName : r'.providerSessionName = r.providerSessionName
  displayName : r'.displayName = r.displayName
  webhookSigningKeyCiphertext : r'.webhookSigningKeyCiphertext = r.webhookSigningKeyCiphertext

theorem ConnectionRecord.Keeps.refl (r : ConnectionRecord) : r.Keeps r := ⟨rfl, rfl, rfl, rfl, rfl⟩

theorem ConnectionRecord.Keeps.trans {r₁ r₂ r₃ : ConnectionRecord} (h : r₁.Keeps r₂)
    (h' : r₂.Keeps r₃) : r₁.Keeps r₃ where
  id := h'.id.trans h.id
  applicationId := h'.applicationId.trans h.applicationId
  providerSessionName := h'.providerSessionName.trans h.providerSessionName
  displayName := h'.displayName.trans h.displayName
  webhookSigningKeyCiphertext :=
    h'.webhookSigningKeyCiphertext.trans h.webhookSigningKeyCiphertext

/-- A session the provider has, or was asked to create. -/
def Switchboard.Asked (w : Switchboard) (session : HostedSession) : Prop :=
  session ∈ w.hosted.rows ∨ session ∈ w.inFlight

/-- What one operation can change. Only an insertion adds rows and only a deletion takes them, and
what rows keep nothing changes. -/
structure Within (o : ConnectionOp) (w w' : Switchboard) : Prop where
  older : (∀ x, o ≠ .insert x) → ∀ {k r'}, w'.sessions.find? k = some r' →
    ∃ r, w.sessions.find? k = some r ∧ r.Keeps r'
  newer : (∀ a k, o ≠ .delete a k) → ∀ {k r}, w.sessions.find? k = some r →
    ∃ r', w'.sessions.find? k = some r' ∧ r.Keeps r'
  asked : (∀ x, o ≠ .postSession x) → ∀ x, w'.Asked x → w.Asked x
  drawn : o ≠ .generate → w'.drawn = w.drawn

variable {w w' : Switchboard}

theorem within_of_sessions {o : ConnectionOp} (hsessions : w'.sessions = w.sessions)
    (hasked : (∀ x, o ≠ .postSession x) → ∀ x, w'.Asked x → w.Asked x)
    (hdrawn : o ≠ .generate → w'.drawn = w.drawn) : Within o w w' where
  older := fun _ _ r' hr' => ⟨r', hsessions ▸ hr', .refl r'⟩
  newer := fun _ _ r hr => ⟨r, hsessions.symm ▸ hr, .refl r⟩
  asked := hasked
  drawn := hdrawn

theorem within_refl (o : ConnectionOp) (w : Switchboard) : Within o w w :=
  within_of_sessions rfl (fun _ _ h => h) fun _ => rfl

theorem within_recordStatus (o : ConnectionOp) {k : Uuid} {input : StatusInput}
    (h : WhatsAppSessionRepository.recordStatus k input w = some w') : Within o w w' := by
  obtain ⟨-, h⟩ := Option.ite_none_right_eq_some.1 h
  cases h
  have hfind : ∀ k' r, w.sessions.find? k' = some r → ∃ r',
      (w.sessions.update (·.id = k) input.apply input.key_apply).find? k' = some r' ∧
        r.Keeps r' := by
    intro k' r hr
    refine ⟨_, by rw [Table.find?_update, hr, Option.map_some], ?_⟩
    split
    · exact ⟨rfl, rfl, rfl, rfl, rfl⟩
    · exact .refl r
  refine ⟨fun _ k' r' hr' => ?_, fun _ k' r hr => hfind k' r hr, fun _ _ h => h, fun _ => rfl⟩
  cases hr : w.sessions.find? k' with
  | none =>
    dsimp only at hr'
    rw [Table.find?_update, hr] at hr'
    cases hr'
  | some r =>
    obtain ⟨r'', hr'', hkeeps⟩ := hfind k' r hr
    cases hr'.symm.trans hr''
    exact ⟨r, rfl, hkeeps⟩

theorem within_insert {x : InsertInput} {r : ConnectionRecord}
    (h : WhatsAppSessionRepository.insert x w = some (r, w')) :
    r = x.row w.now ∧ (∀ k, w'.sessions.find? k = if x.id = k then some r else w.sessions.find? k) ∧
      Within (.insert x) w w' := by
  unfold WhatsAppSessionRepository.insert at h
  split at h
  · obtain ⟨sessions, hinsert, h⟩ := Option.map_eq_some_iff.1 h
    cases h
    have hfind := fun k => Table.find?_insert? hinsert k
    refine ⟨rfl, hfind, ⟨fun ho => absurd rfl (ho x), fun _ k r hr => ⟨r, ?_, .refl r⟩,
      fun _ _ h => h, fun _ => rfl⟩⟩
    rw [hfind, if_neg, hr]
    rintro rfl
    have hfresh := Table.insert?_fresh hinsert
    rw [hr] at hfresh
    cases hfresh
  · cases h

theorem within_delete {a k : Uuid} {deleted : Bool}
    (h : WhatsAppSessionRepository.delete a k w = some (deleted, w')) :
    Within (.delete a k) w w' ∧
      ∀ k' r, w.sessions.find? k' = some r → (∃ r', w'.sessions.find? k' = some r' ∧ r.Keeps r') ∨
        k' = k ∧ deleted = true := by
  unfold WhatsAppSessionRepository.delete at h
  cases hfound : WhatsAppSessionRepository.findById a k w with
  | none =>
    rw [hfound] at h
    cases h
    exact ⟨within_refl _ w, fun k' r hr => .inl ⟨r, hr, .refl r⟩⟩
  | some found =>
    simp only [hfound] at h
    split at h
    · cases h
    · cases h
      have hfind := fun k' => Table.find?_remove w.sessions k k'
      refine ⟨⟨fun _ k' r' hr' => ?_, fun ho => absurd rfl (ho a k), fun _ _ h => h, fun _ => rfl⟩,
        fun k' r hr => ?_⟩
      · rw [hfind] at hr'
        split at hr'
        · cases hr'
        · exact ⟨r', hr', .refl r'⟩
      · by_cases hk : k' = k
        · exact .inr ⟨hk, rfl⟩
        · exact .inl ⟨r, by rw [hfind, if_neg hk, hr], .refl r⟩

theorem asked_insert? {session x : HostedSession} {hosted : Table HostedSession}
    (h : w.hosted.insert? session = some hosted) (hx : x ∈ hosted.rows) :
    x = session ∨ x ∈ w.hosted.rows := by
  have hfind := Table.find?_insert? h (key x)
  rw [Table.find?_key hx] at hfind
  split at hfind
  · exact .inl (Option.some.inj hfind)
  · exact .inr (Table.mem_of_find? hfind.symm)

theorem asked_remove {name : String} {x : HostedSession}
    (h : Switchboard.Asked { w with hosted := w.hosted.remove name } x) : w.Asked x := by
  rcases h with h | h
  · have hfind := Table.find?_remove w.hosted name (key x)
    rw [Table.find?_key h] at hfind
    split at hfind
    · cases hfind
    · exact .inl (Table.mem_of_find? hfind.symm)
  · exact .inr h

theorem within_creates {heard : Heard ProviderSession} {session : HostedSession}
    {r : ProviderResult ProviderSession} (h : heard.creates session w = some (r, w')) :
    Within (.postSession session) w w' ∧ ∀ x, w'.Asked x → x = session ∨ w.Asked x := by
  cases heard with
  | lost failure =>
    cases h
    refine ⟨within_of_sessions rfl (fun ho => absurd rfl (ho session)) fun _ => rfl,
      fun x hx => ?_⟩
    rcases hx with hx | hx
    · exact .inr (.inl hx)
    · rcases List.mem_cons.1 hx with rfl | hx
      · exact .inl rfl
      · exact .inr (.inr hx)
  | answer result =>
    cases result with
    | failed failure =>
      cases h
      exact ⟨within_refl _ w, fun x hx => .inr hx⟩
    | succeeded value =>
      obtain ⟨hosted, hinsert, h⟩ := Option.map_eq_some_iff.1 h
      cases h
      refine ⟨within_of_sessions rfl (fun ho => absurd rfl (ho session)) fun _ => rfl,
        fun x hx => ?_⟩
      rcases hx with hx | hx
      · exact (asked_insert? hinsert hx).imp id .inl
      · exact .inr (.inr hx)

theorem within_deletes {heard : Heard Unit} {name : String}
    {p : ProviderResult Unit × Table HostedSession} (h : heard.deletes name w.hosted = some p) :
    Within (.deleteSession name) w { w with hosted := p.2 } := by
  refine within_of_sessions rfl (fun _ x hx => ?_) fun _ => rfl
  cases heard with
  | answer result =>
    cases result with
    | succeeded value =>
      cases h
      exact asked_remove hx
    | failed failure =>
      simp only [Heard.deletes] at h
      split at h
      · cases h
      · cases h
        exact hx
  | lost failure =>
    simp only [Heard.deletes] at h
    split at h
    · cases h
    · cases h
      exact asked_remove hx

theorem exec_within {o : ConnectionOp} {c : ConnectionChoice} {r : o.Ret}
    (h : exec w o c = some (r, w')) : Within o w w' := by
  cases o with
  | clockNow | findById | listForApplication | existsForSession =>
    cases h
    exact within_refl _ w
  | generate =>
    cases c with
    | identifier id =>
      simp only [exec, Option.ite_none_right_eq_some, Option.some.injEq, Prod.mk.injEq] at h
      obtain ⟨-, -, rfl⟩ := h
      exact within_of_sessions rfl (fun _ _ h => h) fun ho => absurd rfl ho
    | nothing | bytes | session | deletion => cases h
  | randomBytes count =>
    cases c with
    | bytes bytes =>
      simp only [exec, Option.ite_none_right_eq_some, Option.some.injEq, Prod.mk.injEq] at h
      obtain ⟨-, -, rfl⟩ := h
      exact within_refl _ _
    | nothing | identifier | session | deletion => cases h
  | insert x => exact (within_insert h).2.2
  | recordStatus k input =>
    obtain ⟨w₁, hrecord, h⟩ := Option.map_eq_some_iff.1 h
    cases h
    exact within_recordStatus _ hrecord
  | delete a k => exact (within_delete h).1
  | postSession session =>
    cases c with
    | session heard => exact (within_creates h).1
    | nothing | identifier | bytes | deletion => cases h
  | postStart name | postStop name | postLogout name =>
    cases c with
    | session heard =>
      obtain ⟨result, -, h⟩ := Option.map_eq_some_iff.1 h
      cases h
      exact within_refl _ w
    | nothing | identifier | bytes | deletion => cases h
  | deleteSession name =>
    cases c with
    | deletion heard =>
      obtain ⟨p, hdeletes, h⟩ := Option.map_eq_some_iff.1 h
      cases h
      exact within_deletes hdeletes
    | nothing | identifier | bytes | session => cases h

/-- What happens besides changes no more than an operation can. -/
theorem outside_within {event : ConnectionEvent} (h : outside w event = some w')
    (o : ConnectionOp) : Within o w w' := by
  cases event with
  | clock now =>
    simp only [outside, Option.ite_none_right_eq_some, Option.some.injEq] at h
    obtain ⟨-, rfl⟩ := h
    exact within_of_sessions rfl (fun _ _ h => h) fun _ => rfl
  | queued a k =>
    simp only [outside, Option.ite_none_right_eq_some, Option.some.injEq] at h
    obtain ⟨-, rfl⟩ := h
    exact within_of_sessions rfl (fun _ _ h => h) fun _ => rfl
  | reported k input => exact within_recordStatus o h
  | arrived session =>
    simp only [outside, Option.ite_none_right_eq_some] at h
    obtain ⟨hflight, h⟩ := h
    obtain ⟨hosted, hinsert, rfl⟩ := Option.map_eq_some_iff.1 h
    refine within_of_sessions rfl (fun _ x hx => ?_) fun _ => rfl
    rcases hx with hx | hx
    · rcases asked_insert? hinsert hx with rfl | hx
      · exact .inr hflight
      · exact .inl hx
    · exact .inr hx
  | forgotten name =>
    cases h
    exact within_of_sessions rfl (fun _ _ hx => asked_remove hx) fun _ => rfl

/-! ## Runs -/

section Runs

variable {configuration : ConnectionConfiguration}
  {P : System (connections configuration) → Label (connections configuration) → Prop}
  {s s' : System (connections configuration)}

/-- What the world holds, some thread has put there. -/
structure Traced (s : System (connections configuration)) : Prop where
  drawn : ∀ i id, ⟨i, .generate, id⟩ ∈ s.trace → id ∈ s.world.drawn ∧ id < 2 ^ 128
  once : ∀ i j id, ⟨i, .generate, id⟩ ∈ s.trace → ⟨j, .generate, id⟩ ∈ s.trace → i = j
  rows : ∀ k r, s.world.sessions.find? k = some r → ∃ j x now,
    ⟨j, .insert x, x.row now⟩ ∈ s.trace ∧ (x.row now).Keeps r
  asked : ∀ x, s.world.Asked x → ∃ j r, ⟨j, .postSession x, r⟩ ∈ s.trace
  kept : ∀ j x r, ⟨j, .insert x, r⟩ ∈ s.trace →
    (∃ r', s.world.sessions.find? x.id = some r') ∨ ∃ i a, ⟨i, .delete a x.id, true⟩ ∈ s.trace

/-- A step that performs nothing. -/
theorem traced_quiet (h : Traced s) (hw : ∀ o, Within o s.world w') :
    Traced { s with world := w' } where
  drawn := by
    intro i id he
    obtain ⟨hmem, hid⟩ := h.drawn i id he
    exact ⟨((hw .clockNow).drawn (by simp)).symm ▸ hmem, hid⟩
  once := h.once
  rows := by
    intro k r' hr'
    obtain ⟨r, hr, hkeeps⟩ := (hw .clockNow).older (by simp) hr'
    obtain ⟨j, x, now, he, hkeeps'⟩ := h.rows k r hr
    exact ⟨j, x, now, he, hkeeps'.trans hkeeps⟩
  asked := fun x hx => h.asked x ((hw .clockNow).asked (by simp) x hx)
  kept := by
    intro j x r he
    rcases h.kept j x r he with ⟨r', hr'⟩ | hdeleted
    · obtain ⟨r'', hr'', -⟩ := (hw .clockNow).newer (by simp) hr'
      exact .inl ⟨r'', hr''⟩
    · exact .inr hdeleted

theorem drawn_exec {o : ConnectionOp} {c : ConnectionChoice} {r : o.Ret}
    (h : exec w o c = some (r, w')) {id : Uuid} (hid : id ∈ w.drawn) : id ∈ w'.drawn := by
  by_cases ho : o = .generate
  · subst ho
    cases c with
    | identifier id' =>
      simp only [exec, Option.ite_none_right_eq_some, Option.some.injEq, Prod.mk.injEq] at h
      obtain ⟨-, -, rfl⟩ := h
      exact List.mem_cons_of_mem _ hid
    | nothing | bytes | session | deletion => cases h
  · rw [(exec_within h).drawn ho]
    exact hid

theorem generate_exec {c : ConnectionChoice} {id : Uuid}
    (h : exec w .generate c = some (id, w')) : id ∉ w.drawn ∧ id < 2 ^ 128 ∧ id ∈ w'.drawn := by
  cases c with
  | identifier id' =>
    simp only [exec, Option.ite_none_right_eq_some, Option.some.injEq, Prod.mk.injEq] at h
    obtain ⟨⟨hfresh, hid⟩, rfl, rfl⟩ := h
    exact ⟨hfresh, hid, List.mem_cons_self⟩
  | nothing | bytes | session | deletion => cases h

section Record

variable {i : Nat} {o : ConnectionOp} {c : ConnectionChoice} {r : o.Ret}

theorem Traced.drawn_record (h : Traced s) (he : exec s.world o c = some (r, w')) {j : Nat}
    {id : Uuid}
    (hj : ⟨j, .generate, id⟩ ∈ (⟨i, o, r⟩ : Performed connectionOperations) :: s.trace) :
    id ∈ w'.drawn ∧ id < 2 ^ 128 := by
  rcases List.mem_cons.1 hj with hnew | hearlier
  · cases hnew
    obtain ⟨-, hid, hmem⟩ := generate_exec he
    exact ⟨hmem, hid⟩
  · obtain ⟨hmem, hid⟩ := h.drawn j id hearlier
    exact ⟨drawn_exec he hmem, hid⟩

theorem Traced.once_record (h : Traced s) (he : exec s.world o c = some (r, w')) {j j' : Nat}
    {id : Uuid} (hj : ⟨j, .generate, id⟩ ∈ (⟨i, o, r⟩ : Performed connectionOperations) :: s.trace)
    (hj' : ⟨j', .generate, id⟩ ∈ (⟨i, o, r⟩ : Performed connectionOperations) :: s.trace) :
    j = j' := by
  rcases List.mem_cons.1 hj with hnew | hearlier
  · cases hnew
    rcases List.mem_cons.1 hj' with hnew | hearlier
    · cases hnew
      rfl
    · exact absurd (h.drawn j' id hearlier).1 (generate_exec he).1
  · rcases List.mem_cons.1 hj' with hnew | hearlier'
    · cases hnew
      exact absurd (h.drawn j id hearlier).1 (generate_exec he).1
    · exact h.once j j' id hearlier hearlier'

theorem Traced.rows_record (h : Traced s) (he : exec s.world o c = some (r, w')) {k : Uuid}
    {r' : ConnectionRecord} (hr' : w'.sessions.find? k = some r') : ∃ j x now,
    ⟨j, .insert x, x.row now⟩ ∈ (⟨i, o, r⟩ : Performed connectionOperations) :: s.trace ∧
      (x.row now).Keeps r' := by
  by_cases ho : ∀ x, o ≠ .insert x
  · obtain ⟨r₀, hr₀, hkeeps⟩ := (exec_within he).older ho hr'
    obtain ⟨j, x, now, hj, hkeeps'⟩ := h.rows k r₀ hr₀
    exact ⟨j, x, now, List.mem_cons_of_mem _ hj, hkeeps'.trans hkeeps⟩
  · obtain ⟨x, rfl⟩ := not_forall_not.1 ho
    obtain ⟨rfl, hfind, -⟩ := within_insert he
    rw [hfind] at hr'
    split at hr'
    · cases hr'
      exact ⟨i, x, _, List.mem_cons_self, .refl _⟩
    · obtain ⟨j, x', now, hj, hkeeps⟩ := h.rows k r' hr'
      exact ⟨j, x', now, List.mem_cons_of_mem _ hj, hkeeps⟩

theorem Traced.asked_record (h : Traced s) (he : exec s.world o c = some (r, w'))
    {x : HostedSession} (hx : w'.Asked x) : ∃ j result,
    ⟨j, .postSession x, result⟩ ∈ (⟨i, o, r⟩ : Performed connectionOperations) :: s.trace := by
  by_cases ho : ∀ session, o ≠ .postSession session
  · obtain ⟨j, result, hj⟩ := h.asked x ((exec_within he).asked ho x hx)
    exact ⟨j, result, List.mem_cons_of_mem _ hj⟩
  · obtain ⟨session, rfl⟩ := not_forall_not.1 ho
    cases c with
    | session heard =>
      rcases (within_creates he).2 x hx with rfl | hx
      · exact ⟨i, r, List.mem_cons_self⟩
      · obtain ⟨j, result, hj⟩ := h.asked x hx
        exact ⟨j, result, List.mem_cons_of_mem _ hj⟩
    | nothing | identifier | bytes | deletion => cases he

theorem Traced.kept_record (h : Traced s) (he : exec s.world o c = some (r, w')) {j : Nat}
    {x : InsertInput} {record : ConnectionRecord}
    (hj : ⟨j, .insert x, record⟩ ∈ (⟨i, o, r⟩ : Performed connectionOperations) :: s.trace) :
    (∃ r', w'.sessions.find? x.id = some r') ∨ ∃ i' a,
      ⟨i', .delete a x.id, true⟩ ∈ (⟨i, o, r⟩ : Performed connectionOperations) :: s.trace := by
  rcases List.mem_cons.1 hj with hnew | hearlier
  · cases hnew
    obtain ⟨-, hfind, -⟩ := within_insert he
    exact .inl ⟨_, by rw [hfind, if_pos rfl]⟩
  rcases h.kept j x record hearlier with ⟨r', hr'⟩ | ⟨i', a, hdeleted⟩
  · by_cases ho : ∀ a k, o ≠ .delete a k
    · obtain ⟨r'', hr'', -⟩ := (exec_within he).newer ho hr'
      exact .inl ⟨r'', hr''⟩
    · push Not at ho
      obtain ⟨a, k, rfl⟩ := ho
      rcases (within_delete he).2 x.id r' hr' with ⟨r'', hr'', -⟩ | ⟨rfl, rfl⟩
      · exact .inl ⟨r'', hr''⟩
      · exact .inr ⟨i, a, List.mem_cons_self⟩
  · exact .inr ⟨i', a, List.mem_cons_of_mem _ hdeleted⟩

theorem traced_record (h : Traced s) {request : ConnectionRequest}
    {rest : Prog connectionOperations ConnectionResult} (he : exec s.world o c = some (r, w')) :
    Traced (s.record i request o r rest w') where
  drawn _ _ hj := h.drawn_record he hj
  once _ _ _ hj hj' := h.once_record he hj hj'
  rows _ _ hr' := h.rows_record he hr'
  asked _ hx := h.asked_record he hx
  kept _ _ _ hj := h.kept_record he hj

end Record

/-- At the start there are neither rows nor sessions, and nothing has been asked for. -/
structure Blank (w : Switchboard) : Prop where
  sessions : w.sessions.rows = []
  hosted : w.hosted.rows = []
  inFlight : w.inFlight = []

theorem traced_run {w : Switchboard} (hw : Blank w) (h : Run P (System.start w) s) : Traced s := by
  induction h with
  | refl =>
    refine ⟨fun _ _ he => ?_, fun _ _ _ he => ?_, fun k r hr => ?_, fun x hx => ?_,
      fun _ _ _ he => ?_⟩
    · cases he
    · cases he
    · have hmem : r ∈ w.sessions.rows := Table.mem_of_find? hr
      rw [hw.sessions] at hmem
      cases hmem
    · rcases hx with hx | hx
      · replace hx : x ∈ w.hosted.rows := hx
        rw [hw.hosted] at hx
        cases hx
      · replace hx : x ∈ w.inFlight := hx
        rw [hw.inFlight] at hx
        cases hx
    · cases he
  | @tail s₁ s₂ l _ _ hs ih =>
    cases l with
    | spawn i request =>
      obtain ⟨-, rfl⟩ := System.step_spawn.1 hs
      exact ⟨ih.drawn, ih.once, ih.rows, ih.asked, ih.kept⟩
    | advance i c =>
      obtain ⟨request, o, next, r, w', -, he, rfl⟩ := System.step_advance.1 hs
      exact traced_record ih he
    | crash i =>
      obtain ⟨request, o, next, -, rfl⟩ := System.step_crash.1 hs
      exact ⟨ih.drawn, ih.once, ih.rows, ih.asked, ih.kept⟩
    | outside event =>
      obtain ⟨w', hw', rfl⟩ := System.step_outside.1 hs
      exact traced_quiet ih (outside_within hw')

/-! ## Whose session it is -/

theorem toHex_ascii (bytes : Security.Buffer) : IsAscii (toHex bytes) := by
  have hdigit : ∀ d < 16, (hexDigit d).toNat < 128 := by decide
  intro u hu
  obtain ⟨b, -, hu⟩ := List.mem_flatMap.1 hu
  have hbyte : b.toNat < 256 := b.toNat_lt
  rcases List.mem_cons.1 hu with rfl | hu
  · exact hdigit _ (by omega)
  · rcases List.mem_singleton.1 hu with rfl
    exact hdigit _ (by omega)

theorem randomBytes_length {w : Switchboard} (h : Run P (System.start w) s) {i count : Nat}
    {bytes : Security.Buffer} (he : ⟨i, .randomBytes count, bytes⟩ ∈ s.trace) :
    bytes.length = count := by
  rcases h.moment he with he | ⟨s₁, l, s₂, -, -, hperforms, -⟩
  · cases he
  obtain ⟨c, rfl, he⟩ := hperforms.exec
  cases c with
  | bytes bytes' =>
    replace he : (if bytes'.length = count then some (bytes', s₁.world) else none) =
      some (bytes, s₂.world) := he
    obtain ⟨hlength, he⟩ := Option.ite_none_right_eq_some.1 he
    obtain ⟨rfl, -⟩ := Prod.mk.inj (Option.some.inj he)
    exact hlength
  | nothing | identifier | session | deletion => cases he

theorem insert_row {w : Switchboard} (h : Run P (System.start w) s) {i : Nat} {x : InsertInput}
    {r : ConnectionRecord} (he : ⟨i, .insert x, r⟩ ∈ s.trace) : ∃ now, r = x.row now := by
  rcases h.moment he with he | ⟨s₁, l, s₂, -, -, hperforms, -⟩
  · cases he
  obtain ⟨c, rfl, he⟩ := hperforms.exec
  exact ⟨s₁.world.now, (within_insert he).1⟩

/-- Thread `i` drew the identifier of this row, the platform reads this key off the row, and the
thread inserts no other row and has the provider create no session but the row's, with this key. -/
structure Reserves (s : System (connections configuration)) (i : Nat) (x : InsertInput)
    (signingKey : Text) : Prop where
  drew : ⟨i, .generate, x.id⟩ ∈ s.trace
  name : x.providerSessionName = toProviderSessionName x.id
  decrypts : decryptSecret configuration.cipher x.webhookSigningKeyCiphertext
    configuration.encryptionKey = some signingKey
  inserts : ∀ y r, ⟨i, .insert y, r⟩ ∈ s.trace → y = x
  asks : ∀ y r, ⟨i, .postSession y, r⟩ ∈ s.trace →
    y = hostedSession configuration x.id x.providerSessionName signingKey

/-- A `create` reserves a row before it asks the provider for anything. -/
theorem reserves_create (hcipher : configuration.cipher.Lawful) {w : Switchboard}
    (h : Run P (System.start w) s) {i : Nat} {input : CreateWhatsAppSessionInput}
    (hbegins : (ConnectionRequest.program configuration (.create input)).Begins
      (s.history i).reverse) :
    (∀ e ∈ s.history i, (∀ x, e.op ≠ .insert x) ∧ ∀ x, e.op ≠ .postSession x) ∨
      ∃ x r signingKey, ⟨i, .insert x, r⟩ ∈ s.trace ∧ Reserves s i x signingKey := by
  rcases begins_create hbegins with hnone | ⟨id, signingKey, record, rest, hinserted, hrest⟩
  · exact .inl fun e he => hnone e (List.mem_reverse.2 he)
  refine .inr ?_
  obtain ⟨i₁, i₂, i₃, i₄, bytes, iv, cipherText, hes, hkey, hencrypted⟩ := hinserted
  have hmine : ∀ {e : Performed connectionOperations}, e ∈ (s.history i).reverse →
      e ∈ s.trace ∧ e.thread = i := fun he => System.mem_history.1 (List.mem_reverse.1 he)
  have hentry : ∀ {o : ConnectionOp} {r : o.Ret}, (⟨i, o, r⟩ : Performed connectionOperations) ∈
      s.trace → ⟨i, o, r⟩ ∈ (s.history i).reverse :=
    fun he => List.mem_reverse.2 (System.mem_history.2 ⟨he, rfl⟩)
  have hafter := hrest.uses ((uses_afterInsertion input id signingKey record).bind fun _ => trivial)
  rw [hes] at hmine hentry
  obtain ⟨hdrew, rfl⟩ := hmine (e := ⟨i₁, .generate, id⟩) (by simp)
  obtain ⟨hvector, -⟩ := hmine (e := ⟨i₃, .randomBytes INITIALISATION_VECTOR_BYTES, iv⟩) (by simp)
  obtain ⟨hinsert, hthread⟩ := hmine (e := ⟨i₄, .insert (insertion input id cipherText), record⟩)
    (by simp)
  cases hthread
  obtain ⟨now, rfl⟩ := insert_row h hinsert
  refine ⟨insertion input id cipherText, _, signingKey, hinsert, hdrew, rfl, ?_, ?_, ?_⟩
  · exact decryptSecret_encryptSecret hcipher (hkey ▸ Utf16.isUnicode_ascii (toHex_ascii bytes))
      (randomBytes_length h hvector) hencrypted
  · intro y r he
    have hmem := hentry he
    simp only [List.mem_cons] at hmem
    rcases hmem with hmem | hmem | hmem | hmem | hmem
    · cases hmem
    · cases hmem
    · cases hmem
    · cases hmem
      rfl
    · exact absurd rfl ((hafter _ hmem).not_insert y)
  · intro y r he
    have hmem := hentry he
    simp only [List.mem_cons] at hmem
    rcases hmem with hmem | hmem | hmem | hmem | hmem
    · cases hmem
    · cases hmem
    · cases hmem
    · cases hmem
    · exact hafter _ hmem

/-- A row is reserved by whoever inserts it. -/
theorem reserves_insert (hcipher : configuration.cipher.Lawful) {w : Switchboard}
    (h : Run P (System.start w) s) {i : Nat} {x : InsertInput} {r : ConnectionRecord}
    (he : ⟨i, .insert x, r⟩ ∈ s.trace) : ∃ signingKey, Reserves s i x signingKey := by
  obtain ⟨request, -, hbegins⟩ := h.began he
  have hmem : (⟨i, .insert x, r⟩ : Performed connectionOperations) ∈ s.history i :=
    System.mem_history.2 ⟨he, rfl⟩
  have hrev := List.mem_reverse.2 hmem
  by_cases hcreate : ∃ input, request = .create input
  · obtain ⟨input, rfl⟩ := hcreate
    rcases reserves_create hcipher h hbegins with hnone | ⟨y, r', key, -, hreserves⟩
    · exact absurd rfl ((hnone _ hmem).1 x)
    · cases hreserves.inserts x r he
      exact ⟨key, hreserves⟩
  · by_cases hstart : ∃ a k, request = .start a k
    · obtain ⟨a, k, rfl⟩ := hstart
      rcases begins_start hbegins with hplain | ⟨j, record, key, -, -, hasks⟩
      · exact (hplain _ hrev).elim
      · exact (hasks _ hrev).elim
    · exact (hbegins.uses (uses_plain (fun input hr => hcreate ⟨input, hr⟩)
        fun a k hr => hstart ⟨a, k, hr⟩) _ hrev).elim

theorem toProviderSessionName_inj {id id' : Uuid} (h : id < 2 ^ 128) (h' : id' < 2 ^ 128)
    (hname : toProviderSessionName id = toProviderSessionName id') : id = id' := by
  have hchars : ("wnp-" ++ PublicApi.uuidText id).toList =
      ("wnp-" ++ PublicApi.uuidText id').toList :=
    congrArg String.toList hname
  rw [String.toList_append, String.toList_append] at hchars
  exact PublicApi.uuidText_inj h h' (String.toList_injective (List.append_cancel_left hchars))

/-- Rows of one identifier are inserted once. -/
theorem insert_unique (hcipher : configuration.cipher.Lawful) {w : Switchboard} (hw : Blank w)
    (h : Run P (System.start w) s) {i j : Nat} {x y : InsertInput} {r r' : ConnectionRecord}
    (hx : ⟨i, .insert x, r⟩ ∈ s.trace) (hy : ⟨j, .insert y, r'⟩ ∈ s.trace) (hid : x.id = y.id) :
    x = y := by
  obtain ⟨_, hreserves⟩ := reserves_insert hcipher h hx
  obtain ⟨_, hreserves'⟩ := reserves_insert hcipher h hy
  have hij : i = j := (traced_run hw h).once i j x.id hreserves.drew (hid ▸ hreserves'.drew)
  subst hij
  exact (hreserves.inserts y r' hy).symm

/-- A row on file was inserted by one thread, and has kept what it was inserted with. -/
theorem reserves_row (hcipher : configuration.cipher.Lawful) {w : Switchboard} (hw : Blank w)
    (h : Run P (System.start w) s) {k : Uuid} {r : ConnectionRecord}
    (hr : s.world.sessions.find? k = some r) : ∃ i x r₀ signingKey,
      ⟨i, .insert x, r₀⟩ ∈ s.trace ∧ Reserves s i x signingKey ∧ x.id = k ∧ x.id = r.id ∧
      r.providerSessionName = x.providerSessionName ∧
      r.webhookSigningKeyCiphertext = x.webhookSigningKeyCiphertext := by
  obtain ⟨i, x, now, he, hkeeps⟩ := (traced_run hw h).rows k r hr
  obtain ⟨signingKey, hreserves⟩ := reserves_insert hcipher h he
  have hid : r.id = k := Table.key_of_find? hr
  exact ⟨i, x, _, signingKey, he, hreserves, hkeeps.id.symm.trans hid, hkeeps.id.symm,
    hkeeps.providerSessionName, hkeeps.webhookSigningKeyCiphertext⟩

/-- The provider is asked for no session but that of a row that was inserted, with the row's key. -/
theorem reserves_postSession (hcipher : configuration.cipher.Lawful) {w : Switchboard}
    (hw : Blank w) (h : Run P (System.start w) s) {i : Nat} {session : HostedSession}
    {result : ProviderResult ProviderSession} (he : ⟨i, .postSession session, result⟩ ∈ s.trace) :
    ∃ j x r signingKey, ⟨j, .insert x, r⟩ ∈ s.trace ∧ Reserves s j x signingKey ∧
      session = hostedSession configuration x.id x.providerSessionName signingKey := by
  obtain ⟨request, -, hbegins⟩ := h.began he
  have hmem : (⟨i, .postSession session, result⟩ : Performed connectionOperations) ∈ s.history i :=
    System.mem_history.2 ⟨he, rfl⟩
  have hrev := List.mem_reverse.2 hmem
  by_cases hcreate : ∃ input, request = .create input
  · obtain ⟨input, rfl⟩ := hcreate
    rcases reserves_create hcipher h hbegins with hnone | ⟨x, r, key, hinsert, hreserves⟩
    · exact absurd rfl ((hnone _ hmem).2 session)
    · exact ⟨i, x, r, key, hinsert, hreserves, hreserves.asks session result he⟩
  · by_cases hstart : ∃ a k, request = .start a k
    · obtain ⟨a, k, rfl⟩ := hstart
      rcases begins_start hbegins with hplain | ⟨j, record, key, hread, hkey, hasks⟩
      · exact (hplain _ hrev).elim
      -- the row was read at an earlier moment, and holds what it was inserted with
      obtain ⟨hread, hthread⟩ := System.mem_history.1 (List.mem_reverse.1 hread)
      cases hthread
      rcases h.moment hread with hread | ⟨s₁, l, s₂, hrun, -, hperforms, hrest⟩
      · cases hread
      obtain ⟨c, -, hexec⟩ := hperforms.exec
      have hfound : WhatsAppSessionRepository.findById a k s₁.world = some record :=
        (Prod.mk.inj (Option.some.inj hexec)).1
      obtain ⟨hrow, -⟩ := Option.filter_eq_some_iff.1 hfound
      obtain ⟨i', x, r₀, -, hinsert, -, -, hid, hname, hcipherText⟩ :=
        reserves_row hcipher hw hrun hrow
      have hlater : ⟨i', .insert x, r₀⟩ ∈ s.trace :=
        hrest.trace_suffix.subset (hperforms.2 ▸ List.mem_cons_of_mem _ hinsert)
      obtain ⟨key', hreserves⟩ := reserves_insert hcipher h hlater
      have hsame : key' = key := by
        have hdecrypts := hreserves.decrypts
        rw [← hcipherText, hkey] at hdecrypts
        exact (Option.some.inj hdecrypts).symm
      refine ⟨i', x, r₀, key', hlater, hreserves, ?_⟩
      rw [hsame, hid, ← hname]
      exact hasks _ hrev
    · exact (hbegins.uses (uses_plain (fun input hr => hcreate ⟨input, hr⟩)
        fun a k hr => hstart ⟨a, k, hr⟩) _ hrev).elim

theorem reserves_asked (hcipher : configuration.cipher.Lawful) {w : Switchboard} (hw : Blank w)
    (h : Run P (System.start w) s) {session : HostedSession} (hsession : s.world.Asked session) :
    ∃ j x r signingKey, ⟨j, .insert x, r⟩ ∈ s.trace ∧ Reserves s j x signingKey ∧
      session = hostedSession configuration x.id x.providerSessionName signingKey := by
  obtain ⟨i, result, he⟩ := (traced_run hw h).asked session hsession
  exact reserves_postSession hcipher hw h he

/-- A name tells which row a session is of. -/
theorem reserves_name (hcipher : configuration.cipher.Lawful) {w : Switchboard} (hw : Blank w)
    (h : Run P (System.start w) s) {i j : Nat} {x y : InsertInput} {r r' : ConnectionRecord}
    {key key' : Text} (hx : ⟨i, .insert x, r⟩ ∈ s.trace) (hreserves : Reserves s i x key)
    (hy : ⟨j, .insert y, r'⟩ ∈ s.trace) (hreserves' : Reserves s j y key')
    (hname : x.providerSessionName = y.providerSessionName) : x = y ∧ key = key' := by
  have htraced := traced_run hw h
  rw [hreserves.name, hreserves'.name] at hname
  have hid : x.id = y.id := toProviderSessionName_inj (htraced.drawn _ _ hreserves.drew).2
    (htraced.drawn _ _ hreserves'.drew).2 hname
  obtain rfl := insert_unique hcipher hw h hx hy hid
  exact ⟨rfl, Option.some.inj (hreserves.decrypts.symm.trans hreserves'.decrypts)⟩

/-- A callback that is signed with the key of the row comes from its connection. -/
theorem authenticates_signed {environment : PublicApi.IngestEnvironment}
    {input : PublicApi.IngestWebhookInput} {r : ConnectionRecord} {signingKey : Text}
    (hkey : environment.decryptSecret r.webhookSigningKeyCiphertext = some signingKey)
    (hid : input.whatsAppSessionId = r.id)
    (hsigned : input.signature = some (environment.createHmac signingKey input.rawBody)) :
    PublicApi.Authenticates environment input r.toStoredSessionRecord := by
  refine ⟨hid.symm, _, signingKey, hsigned, hkey, ?_⟩
  simp [PublicApi.isWebhookSignatureValid]

/-- **Whatever the provider signs for a connection on file, the platform verifies**: in every run,
each session that the provider has or may still create has the name and the callback URL of one
identifier that was drawn, whose row is on file unless a statement deleted it; no two of them share
a name; and the session of a row on file signs with the key that is read off the row. -/
theorem signing_keys_agree (hcipher : configuration.cipher.Lawful) {w : Switchboard}
    (hw : Blank w) (h : Run P (System.start w) s) :
    (∀ session, s.world.Asked session →
      (∃ id, id < 2 ^ 128 ∧ (∃ i, ⟨i, .generate, id⟩ ∈ s.trace) ∧
        session.name = toProviderSessionName id ∧
        session.webhookUrl = toWebhookUrl configuration id ∧
        ((∃ r, s.world.sessions.find? id = some r) ∨
          ∃ i a, ⟨i, .delete a id, true⟩ ∈ s.trace)) ∧
      ∀ other, s.world.Asked other → other.name = session.name → other = session) ∧
    ∀ r ∈ s.world.sessions.rows, r.providerSessionName = toProviderSessionName r.id ∧
      ∃ signingKey, decryptSecret configuration.cipher r.webhookSigningKeyCiphertext
          configuration.encryptionKey = some signingKey ∧
        ∀ session, s.world.Asked session → session.name = r.providerSessionName →
          session = hostedSession configuration r.id r.providerSessionName signingKey ∧
          ∀ (environment : PublicApi.IngestEnvironment) (input : PublicApi.IngestWebhookInput),
            environment.decryptSecret =
              (decryptSecret configuration.cipher · configuration.encryptionKey) →
            input.whatsAppSessionId = r.id →
            input.signature =
              some (environment.createHmac session.webhookSigningKey input.rawBody) →
            PublicApi.Authenticates environment input r.toStoredSessionRecord := by
  have htraced := traced_run hw h
  refine ⟨fun session hsession => ?_, fun r hr => ?_⟩
  · obtain ⟨j, x, r, key, hinsert, hreserves, rfl⟩ := reserves_asked hcipher hw h hsession
    refine ⟨⟨x.id, (htraced.drawn _ _ hreserves.drew).2, ⟨j, hreserves.drew⟩, hreserves.name, rfl,
      htraced.kept j x r hinsert⟩, fun other hother hname => ?_⟩
    obtain ⟨j', x', r', key', hinsert', hreserves', rfl⟩ := reserves_asked hcipher hw h hother
    obtain ⟨rfl, rfl⟩ := reserves_name hcipher hw h hinsert' hreserves' hinsert hreserves hname
    rfl
  · obtain ⟨i, x, r₀, key, hinsert, hreserves, -, hid, hname, hcipherText⟩ :=
      reserves_row hcipher hw h (Table.find?_key hr)
    have hkey : decryptSecret configuration.cipher r.webhookSigningKeyCiphertext
        configuration.encryptionKey = some key := hcipherText ▸ hreserves.decrypts
    refine ⟨by rw [hname, hreserves.name, hid], key, hkey, fun session hsession hsessionName => ?_⟩
    obtain ⟨j', x', r', key', hinsert', hreserves', rfl⟩ := reserves_asked hcipher hw h hsession
    obtain ⟨rfl, rfl⟩ := reserves_name hcipher hw h hinsert' hreserves' hinsert hreserves
      (hsessionName.trans hname)
    refine ⟨by rw [hid, hname], fun environment input henvironment hinput hsigned => ?_⟩
    exact authenticates_signed (by rw [henvironment]; exact hkey) hinput hsigned

end Runs

/-! ## A connection whose session was forgotten, and one whose creation was not heard -/

namespace Sample

def initialisationVector (n : UInt8) : Security.Buffer :=
  List.replicate INITIALISATION_VECTOR_BYTES n

/-- What the algorithm makes of the two signing keys under 32 zero bytes. -/
def recorded (iv : Security.Buffer) : Option (Security.Buffer × Enciphered) :=
  if iv = initialisationVector 1 then
    some (List.replicate 64 49, {
      cipherText := [68, 113, 242, 91, 75, 184, 73, 204, 83, 135, 213, 183, 138, 30, 77, 88, 141, 84,
        221, 106, 62, 215, 4, 7, 62, 132, 32, 129, 206, 222, 150, 221, 177, 25, 150, 108, 203, 74,
        221, 210, 121, 163, 221, 79, 173, 89, 241, 73, 211, 101, 209, 15, 131, 143, 76, 190, 84, 21,
        73, 76, 127, 234, 139, 63]
      authenticationTag := [220, 15, 192, 193, 248, 62, 225, 207, 226, 182, 7, 156, 15, 211, 253,
        232] })
  else if iv = initialisationVector 2 then
    some (List.replicate 64 50, {
      cipherText := [118, 202, 62, 223, 10, 65, 240, 23, 182, 206, 232, 77, 152, 202, 230, 232, 216,
        74, 39, 57, 186, 27, 31, 252, 115, 51, 141, 203, 127, 200, 236, 157, 198, 55, 25, 225, 114,
        159, 28, 254, 143, 172, 49, 71, 130, 220, 19, 43, 96, 23, 83, 189, 173, 25, 52, 48, 19, 55,
        67, 226, 106, 160, 59, 44]
      authenticationTag := [230, 120, 216, 176, 86, 167, 242, 103, 111, 55, 194, 221, 245, 161, 176,
        249] })
  else none

/-- A tag that none of the two has. -/
def blankTag : Security.Buffer := List.replicate AUTHENTICATION_TAG_BYTES 0

def cipher : Aes256Gcm where
  encrypt _ iv plainText :=
    ((recorded iv).filter (·.1 = plainText)).elim ⟨plainText, blankTag⟩ (·.2)
  decrypt _ iv enciphered :=
    if enciphered.authenticationTag = blankTag then some enciphered.cipherText
    else ((recorded iv).filter fun p => p.2.cipherText = enciphered.cipherText ∧
      p.2.authenticationTag = enciphered.authenticationTag).map (·.1)

theorem recorded_tag {iv : Security.Buffer} {p : Security.Buffer × Enciphered}
    (h : recorded iv = some p) : p.2.authenticationTag.length = AUTHENTICATION_TAG_BYTES ∧
      p.2.authenticationTag ≠ blankTag := by
  unfold recorded at h
  split at h
  · cases h
    decide
  · split at h
    · cases h
      decide
    · cases h

theorem cipher_lawful : cipher.Lawful where
  tag_length := by
    intro key iv plainText
    cases h : (recorded iv).filter (·.1 = plainText) with
    | none => simp only [cipher, h, Option.elim_none, blankTag, List.length_replicate]
    | some p =>
      simp only [cipher, h, Option.elim_some]
      exact (recorded_tag (Option.filter_eq_some_iff.1 h).1).1
  decrypt_encrypt := by
    intro key iv plainText
    cases h : (recorded iv).filter (·.1 = plainText) with
    | none => simp only [cipher, h, Option.elim_none, if_true]
    | some p =>
      obtain ⟨hp, hplain⟩ := Option.filter_eq_some_iff.1 h
      simp only [cipher, Option.elim_some, if_neg (recorded_tag hp).2, hp, Option.filter_some,
        and_self, decide_true, if_true, Option.map_some, of_decide_eq_true hplain]

def configuration : ConnectionConfiguration where
  cipher := cipher
  encryptionKey := Utf16.ofString "AAAAAAAAAAAAAAAAAAAAAAAAAAAAAAAAAAAAAAAAAAA="
  webhookPublicUrl := "https://platform.example/"
  encryptionKey_length := by decide +kernel

def blank : Switchboard where
  sessions := .empty
  notifications := []
  hosted := .empty
  inFlight := []
  drawn := []
  now := 1000

theorem blank_blank : Blank blank := ⟨rfl, rfl, rfl⟩

def starting (name : String) : Heard ProviderSession :=
  .answer (.succeeded ⟨name, .STARTING, none, none, none⟩)

def timedOut : ProviderFailure where
  code := .provider_timeout
  classification := classifyFailureCode .provider_timeout
  message := "The provider did not answer in time."
  retryAfterSeconds := none
  providerStatusCode := none

def gone : ProviderFailure where
  code := .session_missing
  classification := classifyFailureCode .session_missing
  message := "Session not found"
  retryAfterSeconds := none
  providerStatusCode := some PROVIDER_NOT_FOUND

/-- Two connections are created at once. The answer for the first one is lost: its row is deleted,
and its session comes up at the provider later. The second one's session is forgotten and created
again by a start. -/
def rehosted : System (connections configuration) :=
  (System.start blank).after
    [.spawn 0 (.create ⟨1, "Shop"⟩), .spawn 1 (.create ⟨1, "Office"⟩),
      .advance 0 (.identifier 10), .advance 1 (.identifier 11),
      .advance 0 (.bytes (List.replicate SIGNING_KEY_BYTES 0x11)),
      .advance 1 (.bytes (List.replicate SIGNING_KEY_BYTES 0x22)),
      .advance 1 (.bytes (initialisationVector 2)), .advance 0 (.bytes (initialisationVector 1)),
      .advance 0 .nothing, .advance 1 .nothing,
      .advance 0 (.session (.lost timedOut)),
      .advance 1 (.session (starting (toProviderSessionName 11))),
      .advance 0 .nothing, .advance 1 .nothing, .advance 1 .nothing, .advance 1 .nothing,
      .outside (.arrived (hostedSession configuration 10 (toProviderSessionName 10)
        (toHex (List.replicate SIGNING_KEY_BYTES 0x11)))),
      .outside (.forgotten (toProviderSessionName 11)),
      .spawn 2 (.start 1 11), .advance 2 .nothing, .advance 2 (.session (.answer (.failed gone))),
      .advance 2 (.session (starting (toProviderSessionName 11)))]

theorem run_rehosted : Run Any (System.start blank) rehosted := .any_after _

end Sample

/-- The session that was created again signs with the key on file. The one that came up late is of a
row that was deleted. -/
theorem rehosted_keys_agree :
    (∃ orphan ∈ Sample.rehosted.world.hosted.rows, ∃ id i a,
      orphan.name = toProviderSessionName id ∧ ⟨i, .delete a id, true⟩ ∈ Sample.rehosted.trace) ∧
    ∃ r ∈ Sample.rehosted.world.sessions.rows, ∃ session ∈ Sample.rehosted.world.hosted.rows,
      session.name = r.providerSessionName ∧
      ∀ (environment : PublicApi.IngestEnvironment) (input : PublicApi.IngestWebhookInput),
        environment.decryptSecret =
          (decryptSecret Sample.cipher · Sample.configuration.encryptionKey) →
        input.whatsAppSessionId = r.id →
        input.signature = some (environment.createHmac session.webhookSigningKey input.rawBody) →
        PublicApi.Authenticates environment input r.toStoredSessionRecord := by
  have hagree := signing_keys_agree Sample.cipher_lawful Sample.blank_blank Sample.run_rehosted
  constructor
  · have horphan : ∃ orphan ∈ Sample.rehosted.world.hosted.rows,
        orphan.name = toProviderSessionName 10 := by decide +kernel
    obtain ⟨orphan, hmem, hname⟩ := horphan
    obtain ⟨⟨id, hid, -, hname', -, hrow | ⟨i, a, hdeleted⟩⟩, -⟩ := hagree.1 orphan (.inl hmem)
    · obtain rfl := toProviderSessionName_inj hid (by decide) (hname'.symm.trans hname)
      have hgone : Sample.rehosted.world.sessions.find? 10 = none := by decide +kernel
      obtain ⟨r, hr⟩ := hrow
      rw [hgone] at hr
      cases hr
    · exact ⟨orphan, hmem, id, i, a, hname', hdeleted⟩
  · have hhosted : ∃ r ∈ Sample.rehosted.world.sessions.rows,
        ∃ session ∈ Sample.rehosted.world.hosted.rows,
          session.name = r.providerSessionName := by decide +kernel
    obtain ⟨r, hr, session, hsession, hname⟩ := hhosted
    obtain ⟨-, key, -, hsigned⟩ := hagree.2 r hr
    exact ⟨r, hr, session, hsession, hname, (hsigned session (.inl hsession) hname).2⟩

end Connections

end NotificationPlatform
