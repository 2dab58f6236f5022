import NotificationPlatform.Interleaving.Moments
import NotificationPlatform.Tenant.ApiKeyService

/-!
# The life of an API key

Requests that create, list, revoke and check keys run at once, statement by statement, while
applications are created, suspended and archived. A check that passes was made with a key that
`create` handed out, and at one moment of the check the key was live. Once a revocation has
returned no check that starts later passes, and until then every one passes.
-/

namespace NotificationPlatform

namespace Tenancy

open Interleaving Relational ApiKey ApiKeyRepository

open Utf16 (Text)

/-! ## Scopes -/

theorem asApiKeyScope_text (scope : ApiKeyScope) : asApiKeyScope scope.text = some scope := by
  cases scope <;> decide

/-- The scopes that were stored are the scopes that are read. -/
theorem filterMap_asApiKeyScope (scopes : List ApiKeyScope) :
    (scopes.map ApiKeyScope.text).filterMap asApiKeyScope = scopes := by
  induction scopes with
  | nil => rfl
  | cons scope rest ih => simp [asApiKeyScope_text, ih]

theorem missingScopes_eq_nil {required : List ApiKeyScope} {p : ApiKeyPrincipal} :
    ApiKeyGuard.missingScopes required p = [] ↔ ∀ scope ∈ required, scope ∈ p.scopes := by
  simp [ApiKeyGuard.missingScopes, hasScope, List.filter_eq_nil_iff]

/-! ## What a check performs -/

section Programs

variable {keying : Keying} {es : List (Performed keyOperations)}

/-- Whether the row that was found lets the token in. -/
def accepts (keying : Keying) (parsed : ParsedApiKey) (found : ApiKeyAuthenticationRecord) : Bool :=
  canApplicationAcceptNotifications found.applicationStatus &&
    isApiKeySecretValid keying.hashApiKeySecret found.keyHash parsed.secret keying.apiKeyPepper

/-- A check reads the clock, then looks the identifier up, and the row decides. -/
theorem took_authenticate {token : Text} {r : Except KeyError (Option ApiKeyPrincipal)}
    (h : (ApiKeyService.authenticate keying token).run.Took es r) :
    (tryParseApiKey token = none ∧ r = .ok none) ∨
      ∃ parsed i now j found rest, tryParseApiKey token = some parsed ∧
        es = ⟨i, .clockNow, now⟩ ::
          ⟨j, .findActiveByIdentifier parsed.identifier now, found⟩ :: rest ∧
        r = .ok ((found.filter (accepts keying parsed)).map ApiKeyService.principal) := by
  unfold ApiKeyService.authenticate at h
  cases hparse : tryParseApiKey token with
  | none =>
    rw [hparse] at h
    obtain ⟨-, hr⟩ := Raising.took_pure.1 h
    exact .inl ⟨rfl, hr⟩
  | some parsed =>
    simp only [hparse] at h
    obtain ⟨i, now, rest₁, hes, h⟩ := Raising.took_call.1 h
    obtain ⟨j, found, rest, hrest, h⟩ := Raising.took_call.1 h
    refine .inr ⟨parsed, i, now, j, found, rest, rfl, by rw [hes, hrest], ?_⟩
    cases found with
    | none => exact (Raising.took_pure.1 h).2
    | some found =>
      simp only at h
      by_cases hstatus : canApplicationAcceptNotifications found.applicationStatus = false
      · rw [if_pos hstatus] at h
        rw [(Raising.took_pure.1 h).2]
        simp [accepts, hstatus]
      · rw [if_neg hstatus] at h
        by_cases hsecret : isApiKeySecretValid keying.hashApiKeySecret found.keyHash parsed.secret
            keying.apiKeyPepper = false
        · rw [if_pos hsecret] at h
          rw [(Raising.took_pure.1 h).2]
          simp [accepts, hsecret]
        · rw [if_neg hsecret] at h
          obtain ⟨k, u, rest', -, h⟩ := Raising.took_call.1 h
          rw [(Raising.took_pure.1 h).2]
          simp only [Bool.not_eq_false] at hstatus hsecret
          simp [accepts, hstatus, hsecret]

theorem took_canActivate {header : Option Text} {required : List ApiKeyScope}
    {r : Except KeyError ApiKeyPrincipal}
    (h : (ApiKeyGuard.canActivate keying header required).run.Took es r) :
    (∃ e, r = .error e ∧ ∀ token, header = some (ApiKeyGuard.BEARER_PREFIX ++ token) →
        tryParseApiKey token = none) ∨
      ∃ token parsed i now j found rest, header = some (ApiKeyGuard.BEARER_PREFIX ++ token) ∧
        tryParseApiKey token = some parsed ∧
        es = ⟨i, .clockNow, now⟩ ::
          ⟨j, .findActiveByIdentifier parsed.identifier now, found⟩ :: rest ∧
        r = ((found.filter (accepts keying parsed)).map ApiKeyService.principal).elim
          (.error ApiKeyGuard.invalidKey) (ApiKeyGuard.decision required) := by
  unfold ApiKeyGuard.canActivate at h
  cases header with
  | none =>
    obtain ⟨-, hr⟩ := Raising.took_throw.1 h
    exact .inl ⟨_, hr, by simp⟩
  | some header =>
    simp only at h
    by_cases hprefix : ApiKeyGuard.BEARER_PREFIX.isPrefixOf header = true
    · rw [if_pos hprefix] at h
      obtain ⟨token, rfl⟩ := List.isPrefixOf_iff_prefix.1 hprefix
      rw [List.drop_left] at h
      obtain ⟨before, after, result, hes, hauthenticate, hafter⟩ := Raising.took_bind.1 h
      rcases took_authenticate hauthenticate with ⟨hparse, rfl⟩ |
        ⟨parsed, i, now, j, found, rest, hparse, hbefore, rfl⟩
      · obtain ⟨-, hr⟩ := Raising.took_throw.1 hafter
        refine .inl ⟨_, hr, fun token' htoken' => ?_⟩
        rw [← List.append_cancel_left (Option.some.inj htoken')]
        exact hparse
      · refine .inr ⟨token, parsed, i, now, j, found, rest ++ after, rfl, hparse, ?_, ?_⟩
        · rw [hes, hbefore]
          rfl
        · cases hfound : (found.filter (accepts keying parsed)).map ApiKeyService.principal with
          | none =>
            rw [hfound] at hafter
            exact (Raising.took_throw.1 hafter).2
          | some p =>
            rw [hfound] at hafter
            exact hafter.2
    · rw [if_neg hprefix] at h
      obtain ⟨-, hr⟩ := Raising.took_throw.1 h
      refine .inl ⟨_, hr, fun token htoken => absurd ?_ hprefix⟩
      rw [Option.some.inj htoken]
      exact List.isPrefixOf_iff_prefix.2 (List.prefix_append _ _)

/-- The application is found under the caller's organization, or the request ends. -/
theorem took_getOrFail {o a : Uuid} {r : Except KeyError ApplicationRecord}
    (h : (ApplicationService.getOrFail o a).run.Took es r) :
    ∃ i found, es = [⟨i, .findApplicationById o a, found⟩] ∧
      r = found.elim (.error ApplicationService.applicationNotFound) .ok := by
  obtain ⟨i, found, rest, hes, h⟩ := Raising.took_call.1 h
  cases found with
  | none =>
    obtain ⟨rfl, hr⟩ := Raising.took_throw.1 h
    exact ⟨i, none, hes, hr⟩
  | some found =>
    obtain ⟨rfl, hr⟩ := Raising.took_pure.1 h
    exact ⟨i, some found, hes, hr⟩

theorem took_create (keying : Keying) {o : Uuid} {input : CreateApiKeyInput}
    {r : Except KeyError CreatedApiKey}
    (h : (KeyRequest.program keying (.create o input)).Took es (.created r)) :
    r = .error ApplicationService.applicationNotFound ∨
      ∃ i found j generated k record, es = [⟨i, .findApplicationById o input.applicationId,
          some found⟩, ⟨j, .generateApiKey, generated⟩,
          ⟨k, .insert (ApiKeyService.CreateApiKeyInput.insertion input generated), record⟩] ∧
        r = .ok ⟨record, generated.token⟩ := by
  obtain ⟨r, h, ⟨⟩⟩ := Prog.took_map h
  obtain ⟨before, after, result, rfl, hfound, hafter⟩ := Raising.took_bind.1 h
  obtain ⟨i, found, rfl, rfl⟩ := took_getOrFail hfound
  cases found with
  | none => exact .inl hafter.2
  | some found =>
    obtain ⟨j, generated, rest, hes, hrest⟩ := Raising.took_call.1 hafter
    obtain ⟨k, record, rest', hes', hrest'⟩ := Raising.took_call.1 hrest
    obtain ⟨rfl, hr⟩ := Raising.took_pure.1 hrest'
    refine .inr ⟨i, found, j, generated, k, record, ?_, hr⟩
    rw [hes, hes']
    rfl

theorem took_revoke (keying : Keying) {o a k : Uuid}
    (h : (KeyRequest.program keying (.revoke o a k)).Took es (.revoked (.ok ()))) :
    ∃ i now, ⟨i, .revoke a k now, true⟩ ∈ es := by
  obtain ⟨r, h, ⟨⟩⟩ := Prog.took_map h
  obtain ⟨before, after, result, rfl, hfound, hafter⟩ := Raising.took_bind.1 h
  obtain ⟨i, found, rfl, rfl⟩ := took_getOrFail hfound
  cases found with
  | none => cases hafter.2
  | some found =>
    obtain ⟨j, now, rest, hes, hrest⟩ := Raising.took_call.1 hafter
    obtain ⟨l, wasRevoked, rest', hes', hrest'⟩ := Raising.took_call.1 hrest
    cases wasRevoked with
    | false => cases hrest'.2
    | true =>
      refine ⟨l, now, ?_⟩
      rw [hes, hes']
      simp

theorem took_archive (keying : Keying) {o a : Uuid}
    (h : (KeyRequest.program keying (.archive o a)).Took es (.archived (.ok ()))) :
    ∃ i now, ⟨i, .archive o a now, true⟩ ∈ es := by
  obtain ⟨r, h, ⟨⟩⟩ := Prog.took_map h
  obtain ⟨j, now, rest, hes, hrest⟩ := Raising.took_call.1 h
  obtain ⟨l, wasArchived, rest', hes', hrest'⟩ := Raising.took_call.1 hrest
  cases wasArchived with
  | false => cases hrest'.2
  | true =>
    refine ⟨l, now, ?_⟩
    rw [hes, hes']
    simp

theorem decision_eq_ok {required : List ApiKeyScope} {p p' : ApiKeyPrincipal}
    (h : ApiKeyGuard.decision required p = .ok p') :
    p' = p ∧ ∀ scope ∈ required, scope ∈ p.scopes := by
  unfold ApiKeyGuard.decision at h
  split at h
  · rename_i hmissing
    cases h
    exact ⟨rfl, missingScopes_eq_nil.1 hmissing⟩
  · cases h

/-- A check that passed found a row that lets the token in. -/
theorem took_activated (keying : Keying) {header : Option Text} {required : List ApiKeyScope}
    {p : ApiKeyPrincipal}
    (h : (KeyRequest.program keying (.canActivate header required)).Took es (.activated (.ok p))) :
    ∃ token parsed i now j found rest, header = some (ApiKeyGuard.BEARER_PREFIX ++ token) ∧
      tryParseApiKey token = some parsed ∧
      es = ⟨i, .clockNow, now⟩ ::
        ⟨j, .findActiveByIdentifier parsed.identifier now, some found⟩ :: rest ∧
      accepts keying parsed found = true ∧ p = ApiKeyService.principal found ∧
      ∀ scope ∈ required, scope ∈ p.scopes := by
  obtain ⟨r, h, ⟨⟩⟩ := Prog.took_map h
  rcases took_canActivate h with ⟨e, hr, -⟩ |
    ⟨token, parsed, i, now, j, found, rest, hheader, hparse, hes, hr⟩
  · cases hr
  · cases found with
    | none => cases hr
    | some found =>
      by_cases haccepts : accepts keying parsed found = true
      · simp only [Option.filter_some, haccepts, if_true, Option.map_some, Option.elim_some] at hr
        obtain ⟨rfl, hscopes⟩ := decision_eq_ok hr.symm
        exact ⟨token, parsed, i, now, j, found, rest, hheader, hparse, hes, haccepts, rfl, hscopes⟩
      · simp [Option.filter_some, haccepts] at hr

end Programs

/-! ## What never changes -/

/-- What a row of `api_keys` keeps: who it is for and what it opens. A revocation is final. -/
structure ApiKeyRecord.Keeps (r r' : ApiKeyRecord) : Prop where
  id : r'.id = r.id
  applicationId : r'.applicationId = r.applicationId
  keyIdentifier : r'.keyIdentifier = r.keyIdentifier
  keyHash : r'.keyHash = r.keyHash
  scopes : r'.scopes = r.scopes
  expiresAt : r'.expiresAt = r.expiresAt
  revokedAt : r.revokedAt ≠ none → r'.revokedAt ≠ none

/-- An application keeps its organization, and stays archived. -/
structure ApplicationRecord.Keeps (a a' : ApplicationRecord) : Prop where
  organizationId : a'.organizationId = a.organizationId
  archivedAt : a.archivedAt ≠ none → a'.archivedAt ≠ none

theorem ApiKeyRecord.Keeps.refl (r : ApiKeyRecord) : r.Keeps r :=
  ⟨rfl, rfl, rfl, rfl, rfl, rfl, fun h => h⟩

theorem ApiKeyRecord.Keeps.trans {r₁ r₂ r₃ : ApiKeyRecord} (h : r₁.Keeps r₂) (h' : r₂.Keeps r₃) :
    r₁.Keeps r₃ where
  id := h'.id.trans h.id
  applicationId := h'.applicationId.trans h.applicationId
  keyIdentifier := h'.keyIdentifier.trans h.keyIdentifier
  keyHash := h'.keyHash.trans h.keyHash
  scopes := h'.scopes.trans h.scopes
  expiresAt := h'.expiresAt.trans h.expiresAt
  revokedAt := fun hr => h'.revokedAt (h.revokedAt hr)

theorem ApplicationRecord.Keeps.refl (a : ApplicationRecord) : a.Keeps a := ⟨rfl, fun h => h⟩

/-- What one registry has become in another. -/
structure Evolves (d d' : Registry) : Prop where
  apiKeys : ∀ {k r}, d.apiKeys.find? k = some r → ∃ r', d'.apiKeys.find? k = some r' ∧ r.Keeps r'
  applications : ∀ {a r}, d.applications.find? a = some r →
    ∃ r', d'.applications.find? a = some r' ∧ r.Keeps r'
  now : d.now ≤ d'.now

theorem Evolves.refl (d : Registry) : Evolves d d :=
  ⟨fun h => ⟨_, h, .refl _⟩, fun h => ⟨_, h, .refl _⟩, le_refl _⟩

theorem Evolves.trans {d₁ d₂ d₃ : Registry} (h : Evolves d₁ d₂) (h' : Evolves d₂ d₃) :
    Evolves d₁ d₃ where
  apiKeys := by
    intro k r hr
    obtain ⟨r₂, hr₂, hkeeps⟩ := h.apiKeys hr
    obtain ⟨r₃, hr₃, hkeeps'⟩ := h'.apiKeys hr₂
    exact ⟨r₃, hr₃, hkeeps.trans hkeeps'⟩
  applications := by
    intro a r hr
    obtain ⟨r₂, hr₂, horganization, harchived⟩ := h.applications hr
    obtain ⟨r₃, hr₃, horganization', harchived'⟩ := h'.applications hr₂
    exact ⟨r₃, hr₃, horganization'.trans horganization, fun ha => harchived' (harchived ha)⟩
  now := h.now.trans h'.now

namespace ApiKeyTable

variable {t t' : ApiKeyTable} {k k' : Uuid} {r : ApiKeyRecord} {p : ApiKeyRecord → Bool}
  {f : ApiKeyRecord → ApiKeyRecord}
  {hf : ∀ r, (f r).id = r.id ∧ (f r).keyIdentifier = r.keyIdentifier}

theorem find?_updateAt (hf : ∀ r, (f r).id = r.id ∧ (f r).keyIdentifier = r.keyIdentifier) :
    (t.updateAt k p f hf).2.find? k' =
    (t.find? k').map fun r => if (decide (r.id = k) && p r) = true then f r else r :=
  Table.find?_update t.toTable _ f (fun r => (hf r).1) k'

theorem updateAt_isSome : (t.updateAt k p f hf).1.isSome = true ↔
    ∃ r, t.find? k = some r ∧ p r = true := by
  rw [Option.isSome_iff_exists]
  constructor
  · intro h
    obtain ⟨r', hr'⟩ := h
    have hupdated : (t.toTable.updateAt k p f fun r => (hf r).1).1 = some r' := hr'
    obtain ⟨r, hr, hp, -⟩ := Table.updateAt_eq_some.1 hupdated
    exact ⟨r, hr, hp⟩
  · intro h
    obtain ⟨r, hr, hp⟩ := h
    have hupdated : (t.toTable.updateAt k p f fun r => (hf r).1).1 = some (f r) :=
      Table.updateAt_eq_some.2 ⟨r, hr, hp, rfl⟩
    exact ⟨f r, hupdated⟩

theorem find?_insert? (h : t.insert? r = some t') :
    t'.find? k = if r.id = k then some r else t.find? k := by
  unfold insert? at h
  split at h
  · rename_i hfree
    cases h
    simp only [Table.find?, List.find?_append]
    by_cases hk : r.id = k
    · have hnone : t.rows.find? (fun r' => key r' = k) = none := by
        rw [List.find?_eq_none]
        intro r' hr' hr'k
        exact (hfree r' hr').1 ((of_decide_eq_true hr'k).trans hk.symm)
      rw [hnone]
      simp [hk]
    · simp [hk]
  · cases h

theorem insert?_fresh (h : t.insert? r = some t') : t.find? r.id = none := by
  unfold insert? at h
  split at h
  · rename_i hfree
    rw [Table.find?, List.find?_eq_none]
    intro r' hr' hr'k
    exact (hfree r' hr').1 (of_decide_eq_true hr'k)
  · cases h

end ApiKeyTable

/-- A row that was changed, in a way that keeps what is kept, or not. -/
theorem keeps_ite {c : Bool} {r r' : ApiKeyRecord} (h : c = true → r.Keeps r') :
    r.Keeps (if c = true then r' else r) := by
  cases c with
  | false => exact .refl r
  | true => exact h rfl

/-- A row in the table after an update is one that was there, changed. -/
theorem find?_updateAt_keeps {t : ApiKeyTable} {k k' : Uuid} {p : ApiKeyRecord → Bool}
    (f : ApiKeyRecord → ApiKeyRecord)
    (hf : ∀ r, (f r).id = r.id ∧ (f r).keyIdentifier = r.keyIdentifier)
    (h : ∀ r, p r = true → r.Keeps (f r)) :
    Option.Rel ApiKeyRecord.Keeps (t.find? k') ((t.updateAt k p f hf).2.find? k') := by
  rw [ApiKeyTable.find?_updateAt]
  cases t.find? k' with
  | none => exact .none
  | some r => exact .some (keeps_ite fun hp => h r (Bool.and_eq_true_iff.1 hp).2)

theorem rel_insert {input : InsertInput} {id : Uuid} {d d' : Registry} {r : ApiKeyRecord}
    (h : ApiKeyRepository.insert input id d = some (r, d')) :
    r = input.row id d.now ∧ d.apiKeys.find? id = none ∧
      (∀ k, d'.apiKeys.find? k = if id = k then some r else d.apiKeys.find? k) ∧
      d'.applications = d.applications ∧ d'.now = d.now := by
  unfold ApiKeyRepository.insert at h
  split at h
  · obtain ⟨apiKeys, hinsert, h⟩ := Option.map_eq_some_iff.1 h
    cases h
    exact ⟨rfl, ApiKeyTable.insert?_fresh hinsert, fun k => ApiKeyTable.find?_insert? hinsert,
      rfl, rfl⟩
  · cases h

/-- What one step that adds no key makes of a registry. -/
structure Kept (d d' : Registry) : Prop where
  apiKeys : ∀ k, Option.Rel ApiKeyRecord.Keeps (d.apiKeys.find? k) (d'.apiKeys.find? k)
  applications : ∀ {a r}, d.applications.find? a = some r →
    ∃ r', d'.applications.find? a = some r' ∧ r.Keeps r'
  now : d.now ≤ d'.now

theorem rel_refl (r : Option ApiKeyRecord) : Option.Rel ApiKeyRecord.Keeps r r := by
  cases r with
  | none => exact .none
  | some r => exact .some (.refl r)

theorem Kept.refl (d : Registry) : Kept d d :=
  ⟨fun _ => rel_refl _, fun h => ⟨_, h, .refl _⟩, le_refl _⟩

theorem Kept.evolves {d d' : Registry} (h : Kept d d') : Evolves d d' where
  apiKeys := by
    intro k r hr
    have hrel := h.apiKeys k
    rw [hr] at hrel
    cases hfound : d'.apiKeys.find? k with
    | none =>
      rw [hfound] at hrel
      cases hrel
    | some r' =>
      rw [hfound] at hrel
      cases hrel with
      | some hkeeps => exact ⟨r', rfl, hkeeps⟩
  applications := h.applications
  now := h.now

theorem Kept.before {d d' : Registry} (h : Kept d d') {k : Uuid} {r' : ApiKeyRecord}
    (hr' : d'.apiKeys.find? k = some r') : ∃ r, d.apiKeys.find? k = some r ∧ r.Keeps r' := by
  have hrel := h.apiKeys k
  rw [hr'] at hrel
  cases hfound : d.apiKeys.find? k with
  | none =>
    rw [hfound] at hrel
    cases hrel
  | some r =>
    rw [hfound] at hrel
    cases hrel with
    | some hkeeps => exact ⟨r, rfl, hkeeps⟩

/-- An update of `applications` that keeps what is kept. -/
theorem find?_application_keeps {t : Table ApplicationRecord} {a a' : Uuid}
    {p : ApplicationRecord → Bool} (f : ApplicationRecord → ApplicationRecord)
    (hf : ∀ r, key (f r) = key r) (h : ∀ r, p r = true → r.Keeps (f r)) {r : ApplicationRecord}
    (hr : t.find? a' = some r) : ∃ r', (t.updateAt a p f hf).2.find? a' = some r' ∧ r.Keeps r' := by
  refine ⟨_, by rw [Table.updateAt, Table.find?_update, hr, Option.map_some], ?_⟩
  split
  · rename_i hp
    exact h r (Bool.and_eq_true_iff.1 hp).2
  · exact .refl r

theorem exec_kept {keying : Keying} {d d' : Registry} {o : KeyOp} {c : KeyChoice} {r : o.Ret}
    (ho : ∀ input, o ≠ .insert input) (h : exec keying d o c = some (r, d')) : Kept d d' := by
  cases o with
  | clockNow | findApplicationById | listForApplication | findActiveByIdentifier =>
    cases h
    exact .refl _
  | startTouch k now =>
    cases h
    exact ⟨fun _ => rel_refl _, fun hr => ⟨_, hr, .refl _⟩, le_refl _⟩
  | generateApiKey =>
    cases c with
    | chunks chunks =>
      obtain ⟨generated, -, h⟩ := Option.map_eq_some_iff.1 h
      cases h
      exact .refl _
    | nothing | identifier => cases h
  | archive o a now =>
    cases h
    refine ⟨fun _ => rel_refl _, fun hr => find?_application_keeps
      (fun a => { a with archivedAt := some now }) (fun _ => rfl) ?_ hr, le_refl _⟩
    intro a _
    exact ⟨rfl, fun _ => by simp⟩
  | insert input => exact absurd rfl (ho input)
  | revoke a k now =>
    cases h
    refine ⟨fun _ => find?_updateAt_keeps (fun r => { r with revokedAt := some now })
      (fun _ => ⟨rfl, rfl⟩) ?_, fun hr => ⟨_, hr, .refl _⟩, le_refl _⟩
    intro r _
    exact ⟨rfl, rfl, rfl, rfl, rfl, rfl, fun _ => by simp⟩

theorem outside_kept {d d' : Registry} {event : KeyEvent} (h : outside d event = some d') :
    Kept d d' := by
  cases event with
  | clock now =>
    simp only [outside, Option.ite_none_right_eq_some, Option.some.injEq] at h
    obtain ⟨hnow, rfl⟩ := h
    exact ⟨fun _ => rel_refl _, fun hr => ⟨_, hr, .refl _⟩, hnow⟩
  | application row =>
    obtain ⟨applications, hinsert, rfl⟩ := Option.map_eq_some_iff.1 h
    refine ⟨fun _ => rel_refl _, fun {a r} hr => ⟨r, ?_, .refl r⟩, le_refl _⟩
    change applications.find? a = some r
    rw [Table.find?_insert? hinsert, if_neg, hr]
    intro hkey
    rw [← hkey, Table.insert?_fresh hinsert] at hr
    cases hr
  | status a status =>
    cases h
    refine ⟨fun _ => rel_refl _, fun hr => find?_application_keeps
      (fun r => { r with status }) (fun _ => rfl) ?_ hr, le_refl _⟩
    intro r _
    exact ⟨rfl, fun h => h⟩
  | touched k now =>
    simp only [outside, Option.ite_none_right_eq_some, Option.some.injEq] at h
    obtain ⟨-, rfl⟩ := h
    refine ⟨fun _ => find?_updateAt_keeps (fun r => { r with lastUsedAt := some now })
      (fun _ => ⟨rfl, rfl⟩) ?_, fun hr => ⟨_, hr, .refl _⟩, le_refl _⟩
    intro r _
    exact ⟨rfl, rfl, rfl, rfl, rfl, rfl, fun h => h⟩

/-! ## Runs -/

section Runs

variable {keying : Keying} {P : System (keyring keying) → Label (keyring keying) → Prop}
  {s s' : System (keyring keying)} {d : Registry}

theorem insert_evolves {input : InsertInput} {id : Uuid} {d d' : Registry} {r : ApiKeyRecord}
    (h : ApiKeyRepository.insert input id d = some (r, d')) : Evolves d d' := by
  obtain ⟨-, hfresh, hfind, happlications, hnow⟩ := rel_insert h
  refine ⟨fun {k r'} hr' => ⟨r', ?_, .refl r'⟩, fun {a r'} hr' => ⟨r', ?_, .refl r'⟩, hnow.ge⟩
  · rw [hfind, if_neg, hr']
    rintro rfl
    rw [hfresh] at hr'
    cases hr'
  · rw [happlications, hr']

theorem exec_evolves {d d' : Registry} {o : KeyOp} {c : KeyChoice} {r : o.Ret}
    (h : exec keying d o c = some (r, d')) : Evolves d d' := by
  cases o with
  | insert input =>
    cases c with
    | identifier id => exact insert_evolves h
    | nothing | chunks => cases h
  | clockNow | generateApiKey | findApplicationById | archive | listForApplication
  | findActiveByIdentifier | revoke | startTouch =>
    exact (exec_kept (by simp) h).evolves

theorem step_evolves {l : Label (keyring keying)} (h : s.step l = some s') :
    Evolves s.world s'.world := by
  cases l with
  | spawn i request =>
    obtain ⟨-, rfl⟩ := System.step_spawn.1 h
    exact .refl _
  | advance i c =>
    obtain ⟨request, o, k, r, w, -, he, rfl⟩ := System.step_advance.1 h
    exact exec_evolves he
  | crash i =>
    obtain ⟨request, o, k, -, rfl⟩ := System.step_crash.1 h
    exact .refl _
  | outside event =>
    obtain ⟨w, hw, rfl⟩ := System.step_outside.1 h
    exact (outside_kept hw).evolves

theorem run_evolves (h : Run P s s') : Evolves s.world s'.world := by
  induction h with
  | refl => exact .refl _
  | tail _ _ hs ih => exact ih.trans (step_evolves hs)

theorem withApplication_eq_some {d : Registry} {r : ApiKeyRecord}
    {found : ApiKeyAuthenticationRecord} : withApplication d r = some found ↔
      ∃ a, d.applications.find? r.applicationId = some a ∧ a.archivedAt = none ∧
        found = ⟨r.id, r.applicationId, a.organizationId, r.keyHash, r.scopes, a.status⟩ := by
  simp only [withApplication, Option.map_eq_some_iff, Option.filter_eq_some_iff, decide_eq_true_eq,
    and_assoc, eq_comm (b := found)]

/-- The identifier is the one of a single row, so the row that is found is the row that fits. -/
theorem findActiveByIdentifier_eq_some {keyIdentifier : Text} {now : Date} {d : Registry}
    {found : ApiKeyAuthenticationRecord} :
    findActiveByIdentifier keyIdentifier now d = some found ↔ ∃ r, d.apiKeys.find? r.id = some r ∧
      r.keyIdentifier = keyIdentifier ∧ isActive now r = true ∧
      withApplication d r = some found := by
  unfold findActiveByIdentifier
  constructor
  · intro h
    obtain ⟨r, hr, hfound⟩ := List.exists_of_findSome?_eq_some h
    obtain ⟨hmem, hr⟩ := List.mem_filter.1 hr
    obtain ⟨hidentifier, hactive⟩ := of_decide_eq_true hr
    exact ⟨r, Table.find?_key hmem, hidentifier, hactive, hfound⟩
  · intro h
    obtain ⟨r, hr, hidentifier, hactive, hfound⟩ := h
    have hmem : r ∈ d.apiKeys.rows.filter fun r => r.keyIdentifier = keyIdentifier ∧
        isActive now r :=
      List.mem_filter.2 ⟨Table.mem_of_find? hr, decide_eq_true ⟨hidentifier, hactive⟩⟩
    have hone : ∀ r' ∈ d.apiKeys.rows.filter fun r => r.keyIdentifier = keyIdentifier ∧
        isActive now r, withApplication d r' = some found := by
      intro r' hr'
      obtain ⟨hmem', hr'⟩ := List.mem_filter.1 hr'
      have hsame := d.apiKeys.distinct r' hmem' r (Table.mem_of_find? hr)
        ((of_decide_eq_true hr').1.trans hidentifier.symm)
      rw [hsame, hfound]
    cases hlist : d.apiKeys.rows.filter fun r => r.keyIdentifier = keyIdentifier ∧
        isActive now r with
    | nil =>
      rw [hlist] at hmem
      cases hmem
    | cons r' rest =>
      rw [hlist] at hone
      rw [List.findSome?_cons, hone r' List.mem_cons_self]

theorem revoked_of_revoke {a k : Uuid} {now : Date} {d d' : Registry}
    (h : ApiKeyRepository.revoke a k now d = (true, d')) :
    ∃ r, d'.apiKeys.find? k = some r ∧ r.revokedAt ≠ none := by
  obtain ⟨hrevoked, rfl⟩ := Prod.mk.inj h
  obtain ⟨r, hr, hp⟩ := ApiKeyTable.updateAt_isSome.1 hrevoked
  refine ⟨{ r with revokedAt := some now }, ?_, by simp⟩
  have hkey : r.id = k := Table.key_of_find? hr
  refine (ApiKeyTable.find?_updateAt (f := fun r => { r with revokedAt := some now })
    fun _ => ⟨rfl, rfl⟩).trans ?_
  rw [hr, Option.map_some, if_pos]
  rw [hp, hkey, Bool.and_true, decide_eq_true_eq]

theorem archived_of_archive {o a : Uuid} {now : Date} {d d' : Registry}
    (h : ApplicationRepository.archive o a now d = (true, d')) :
    ∃ r, d'.applications.find? a = some r ∧ r.archivedAt ≠ none := by
  obtain ⟨harchived, rfl⟩ := Prod.mk.inj h
  obtain ⟨r', hr'⟩ := Option.isSome_iff_exists.1 harchived
  obtain ⟨r, hr, hp, -⟩ := Table.updateAt_eq_some.1 hr'
  refine ⟨{ r with archivedAt := some now }, ?_, by simp⟩
  refine (Table.find?_updateAt_self d.applications a _
    (fun r => { r with archivedAt := some now }) fun _ => rfl).trans ?_
  rw [hr, Option.map_some, if_pos hp]

/-- What a request that has returned performed, it performed at some moment before. -/
theorem performed_before (h : Run P (System.start d) s) {j : Nat} {e : Performed keyOperations}
    (he : e ∈ (s.history j).reverse) :
    ∃ (s₁ : System (keyring keying)) (l : _) (s₂ : System (keyring keying)),
      s₁.Performs l e s₂ ∧ Run P s₂ s := by
  rcases h.moment (System.mem_history.1 (List.mem_reverse.1 he)).1 with hstart |
    ⟨s₁, l, s₂, -, -, hperforms, hlater⟩
  · cases hstart
  · exact ⟨s₁, l, s₂, hperforms, hlater⟩

theorem revoked_stays (h : Run P (System.start d) s) {j : Nat} {o a k : Uuid}
    (hj : s.requestOf j = some (.revoke o a k)) (hrevoked : s.Returned j (.revoked (.ok ()))) :
    ∃ r, s.world.apiKeys.find? k = some r ∧ r.revokedAt ≠ none := by
  obtain ⟨request, hrequest, htook⟩ := h.took hrevoked
  rw [hj] at hrequest
  cases hrequest
  obtain ⟨i, now, he⟩ := took_revoke keying htook
  obtain ⟨s₁, l, s₂, hperforms, hlater⟩ := performed_before h he
  obtain ⟨c, -, hexec⟩ := hperforms.exec
  obtain ⟨r, hr, hended⟩ := revoked_of_revoke (Option.some.inj hexec)
  obtain ⟨r', hr', hkeeps⟩ := (run_evolves hlater).apiKeys hr
  exact ⟨r', hr', hkeeps.revokedAt hended⟩

theorem archived_stays (h : Run P (System.start d) s) {j : Nat} {o a : Uuid}
    (hj : s.requestOf j = some (.archive o a)) (harchived : s.Returned j (.archived (.ok ()))) :
    ∃ r, s.world.applications.find? a = some r ∧ r.archivedAt ≠ none := by
  obtain ⟨request, hrequest, htook⟩ := h.took harchived
  rw [hj] at hrequest
  cases hrequest
  obtain ⟨i, now, he⟩ := took_archive keying htook
  obtain ⟨s₁, l, s₂, hperforms, hlater⟩ := performed_before h he
  obtain ⟨c, -, hexec⟩ := hperforms.exec
  obtain ⟨r, hr, hended⟩ := archived_of_archive (Option.some.inj hexec)
  obtain ⟨r', hr', hkeeps⟩ := (run_evolves hlater).applications hr
  exact ⟨r', hr', hkeeps.archivedAt hended⟩

/-! ## Where keys come from -/

/-- What every operation but an insertion of a key is. -/
def NoInsert (o : KeyOp) : Prop := ∀ input, o ≠ .insert input

theorem uses_getOrFail (o a : Uuid) : (ApplicationService.getOrFail o a).run.Uses NoInsert := by
  refine ⟨by simp [NoInsert], fun found => ?_⟩
  cases found <;> trivial

theorem uses_authenticate (keying : Keying) (token : Text) :
    (ApiKeyService.authenticate keying token).run.Uses NoInsert := by
  unfold ApiKeyService.authenticate
  cases tryParseApiKey token with
  | none => trivial
  | some parsed =>
    refine Raising.uses_bind ⟨by simp [NoInsert], fun _ => trivial⟩ fun now => ?_
    refine Raising.uses_bind ⟨by simp [NoInsert], fun _ => trivial⟩ fun found => ?_
    cases found with
    | none => trivial
    | some found =>
      dsimp only
      split
      · trivial
      · split
        · trivial
        · exact ⟨by simp [NoInsert], fun _ => trivial⟩

/-- Only `create` inserts keys. -/
theorem uses_no_insert (keying : Keying) {request : KeyRequest}
    (h : ∀ o input, request ≠ .create o input) :
    (KeyRequest.program keying request).Uses NoInsert := by
  cases request with
  | create o input => exact absurd rfl (h o input)
  | list o a =>
    refine Prog.Uses.bind (Raising.uses_bind (uses_getOrFail o a) fun _ => ?_) fun _ => trivial
    exact ⟨by simp [NoInsert], fun _ => trivial⟩
  | revoke o a k =>
    refine Prog.Uses.bind (Raising.uses_bind (uses_getOrFail o a) fun _ => ?_) fun _ => trivial
    refine ⟨by simp [NoInsert], fun now => ⟨by simp [NoInsert], fun wasRevoked => ?_⟩⟩
    cases wasRevoked <;> trivial
  | archive o a =>
    refine Prog.Uses.bind ⟨by simp [NoInsert], fun now => ⟨by simp [NoInsert], fun was => ?_⟩⟩
      fun _ => trivial
    cases was <;> trivial
  | canActivate header required =>
    refine Prog.Uses.bind ?_ fun _ => trivial
    unfold ApiKeyGuard.canActivate
    cases header with
    | none => trivial
    | some header =>
      dsimp only
      split
      · refine Raising.uses_bind (uses_authenticate keying _) fun found => ?_
        cases found <;> trivial
      · trivial

/-- A request that inserted a key is a `create`, and has performed all of it. -/
theorem took_of_insert (keying : Keying) {request : KeyRequest}
    {es : List (Performed keyOperations)} (h : (KeyRequest.program keying request).Begins es)
    {i : Nat} {input : InsertInput} {record : ApiKeyRecord}
    (he : (⟨i, .insert input, record⟩ : Performed keyOperations) ∈ es) :
    ∃ o input', request = .create o input' ∧
      ∃ i found j generated k, es = [⟨i, .findApplicationById o input'.applicationId, some found⟩,
        ⟨j, .generateApiKey, generated⟩,
        ⟨k, .insert (ApiKeyService.CreateApiKeyInput.insertion input' generated), record⟩] ∧
      input = ApiKeyService.CreateApiKeyInput.insertion input' generated ∧
      (KeyRequest.program keying request).Took es (.created (.ok ⟨record, generated.token⟩)) := by
  by_cases hrequest : ∀ o input, request ≠ .create o input
  · exact absurd rfl (h.uses (uses_no_insert keying hrequest) _ he input)
  · push Not at hrequest
    obtain ⟨o, input', rfl⟩ := hrequest
    refine ⟨o, input', rfl, ?_⟩
    -- a create performs its operations one after the other, so what it has performed is a prefix
    cases es with
    | nil => cases he
    | cons e₁ es =>
      obtain ⟨i₁, found, rfl, h⟩ := h
      cases found with
      | none =>
        cases es with
        | nil => simp at he
        | cons e₂ es => exact h.elim
      | some found =>
        cases es with
        | nil => simp at he
        | cons e₂ es =>
          obtain ⟨i₂, generated, rfl, h⟩ := h
          cases es with
          | nil => simp at he
          | cons e₃ es =>
            obtain ⟨i₃, record', rfl, h⟩ := h
            cases es with
            | nil =>
              have hlast : (⟨i, .insert input, record⟩ : Performed keyOperations) =
                  ⟨i₃, .insert (ApiKeyService.CreateApiKeyInput.insertion input' generated),
                    record'⟩ := by simpa using he
              cases hlast
              exact ⟨i₁, found, i₂, generated, i, rfl, rfl, i₁, some found, _, rfl, i₂, generated,
                _, rfl, i, record, _, rfl, rfl, rfl⟩
            | cons e₄ es => exact h.elim

/-- Every row of `api_keys` was inserted by a thread. -/
def Issued (s : System (keyring keying)) : Prop :=
  ∀ k r, s.world.apiKeys.find? k = some r → ∃ j input now,
    ⟨j, .insert input, input.row k now⟩ ∈ s.trace ∧ (input.row k now).Keeps r

theorem issued_kept (h : Issued s) (hkept : Kept s.world s'.world)
    (htrace : s.trace <:+ s'.trace) : Issued s' := by
  intro k r' hr'
  obtain ⟨r, hr, hkeeps⟩ := hkept.before hr'
  obtain ⟨j, input, now, he, hkeeps'⟩ := h k r hr
  exact ⟨j, input, now, htrace.subset he, hkeeps'.trans hkeeps⟩

theorem issued_step {l : Label (keyring keying)} (h : Issued s) (hs : s.step l = some s') :
    Issued s' := by
  have htrace : s.trace <:+ s'.trace := (Run.tail .refl trivial hs : Run Any s s').trace_suffix
  cases l with
  | spawn i request =>
    obtain ⟨-, rfl⟩ := System.step_spawn.1 hs
    exact h
  | advance i c =>
    obtain ⟨request, o, next, r, w, -, he, rfl⟩ := System.step_advance.1 hs
    by_cases ho : ∀ input, o ≠ .insert input
    · exact issued_kept h (exec_kept ho he) htrace
    · obtain ⟨input, rfl⟩ := not_forall_not.1 ho
      cases c with
      | nothing | chunks => cases he
      | identifier id =>
        obtain ⟨rfl, -, hfind, -, -⟩ := rel_insert he
        intro k r' hr'
        replace hr' : w.apiKeys.find? k = some r' := hr'
        rw [hfind] at hr'
        split at hr'
        · rename_i hk
          cases hr'
          subst hk
          exact ⟨i, input, _, List.mem_cons_self, .refl _⟩
        · obtain ⟨j, input', now, hmem, hkeeps⟩ := h k r' hr'
          exact ⟨j, input', now, List.mem_cons_of_mem _ hmem, hkeeps⟩
  | crash i =>
    obtain ⟨request, o, k, -, rfl⟩ := System.step_crash.1 hs
    exact h
  | outside event =>
    obtain ⟨w, hw, rfl⟩ := System.step_outside.1 hs
    exact issued_kept h (outside_kept hw) htrace

theorem issued_run (h : Run P (System.start d) s) (hd : d.apiKeys.rows = []) : Issued s := by
  induction h with
  | refl =>
    intro k r hr
    have hmem := Table.mem_of_find? hr
    change r ∈ d.apiKeys.rows at hmem
    rw [hd] at hmem
    cases hmem
  | tail _ _ hs ih => exact issued_step ih hs

/-- A thread that inserted a key has returned it: it drew the key itself, for an application it had
found under the organization of its caller. -/
theorem created_of_insert (h : Run P (System.start d) s) {j : Nat} {input : InsertInput}
    {record : ApiKeyRecord}
    (he : (⟨j, .insert input, record⟩ : Performed keyOperations) ∈ s.trace) :
    ∃ o input' generated secret, s.requestOf j = some (.create o input') ∧
      s.Returned j (.created (.ok ⟨record, generated.token⟩)) ∧
      input = ApiKeyService.CreateApiKeyInput.insertion input' generated ∧
      generated.token = formatApiKey keying.environment generated.identifier secret ∧
      generated.keyHash = keying.hashApiKeySecret secret keying.apiKeyPepper ∧
      (generated.identifier.length = apiKeyIdentifierLength ∧ secret.length = apiKeySecretLength ∧
        ∀ u ∈ generated.identifier ++ secret, isTokenUnit u = true) ∧
      ∃ a, s.world.applications.find? input'.applicationId = some a ∧ a.organizationId = o := by
  obtain ⟨request, hrequest⟩ :=
    (Discipline.disciplined_run (D := Discipline.lax _) h).quiet.requestOf he
  obtain ⟨t, ht, rfl⟩ := Option.map_eq_some_iff.1 hrequest
  have hmem : (⟨j, .insert input, record⟩ : Performed keyOperations) ∈ (s.history j).reverse :=
    List.mem_reverse.2 (System.mem_history.2 ⟨he, rfl⟩)
  obtain ⟨o, input', hcreate, i₁, found, i₂, generated, i₃, hes, hinput, htook⟩ :=
    took_of_insert keying (h.begins ht) hmem
  have hreturned := h.returned ht htook
  obtain ⟨s₁, l₁, s₂, hgenerated, -⟩ := performed_before h
    (show (⟨i₂, .generateApiKey, generated⟩ : Performed keyOperations) ∈ _ by rw [hes]; simp)
  obtain ⟨c, -, hexec⟩ := hgenerated.exec
  obtain ⟨s₃, l₃, s₄, hfound, hlater⟩ := performed_before h
    (show (⟨i₁, .findApplicationById o input'.applicationId, some found⟩ :
      Performed keyOperations) ∈ _ by rw [hes]; simp)
  obtain ⟨c', -, hexec'⟩ := hfound.exec
  obtain ⟨hfind, hworld⟩ := Prod.mk.inj (Option.some.inj hexec')
  obtain ⟨happlication, howner⟩ := Option.filter_eq_some_iff.1 hfind
  rw [hworld] at happlication
  obtain ⟨a, ha, hkeeps⟩ := (run_evolves hlater).applications happlication
  cases c with
  | nothing | identifier => cases hexec
  | chunks chunks =>
    obtain ⟨drawn, hdraw, hdrawn⟩ := Option.map_eq_some_iff.1 hexec
    obtain ⟨rfl, -⟩ := Prod.mk.inj hdrawn
    obtain ⟨secret, htoken, hhash, hidentifier, hsecret, hunits⟩ := generateApiKey_spec hdraw
    exact ⟨o, input', drawn.1, secret, by rw [hrequest, hcreate], hreturned, hinput, htoken, hhash,
      ⟨hidentifier, hsecret, hunits⟩, a, ha,
      hkeeps.organizationId.trans (of_decide_eq_true howner).1⟩

/-- The key is neither revoked nor expired, and its application is active, not archived, and the
organization's. -/
def Live (p : ApiKeyPrincipal) (now : Date) (d : Registry) : Prop :=
  ∃ r a, d.apiKeys.find? p.apiKeyId = some r ∧ d.applications.find? p.applicationId = some a ∧
    r.applicationId = p.applicationId ∧ a.organizationId = p.organizationId ∧
    r.revokedAt = none ∧ (∀ expiresAt ∈ r.expiresAt, now < expiresAt) ∧
    a.status = .ACTIVE ∧ a.archivedAt = none

theorem accepts_iff {parsed : ParsedApiKey} {found : ApiKeyAuthenticationRecord} :
    accepts keying parsed found = true ↔ found.applicationStatus = .ACTIVE ∧
      found.keyHash = keying.hashApiKeySecret parsed.secret keying.apiKeyPepper := by
  rw [accepts, Bool.and_eq_true]
  refine and_congr decide_eq_true_iff ?_
  unfold isApiKeySecretValid
  split
  · rename_i hlength
    refine iff_of_false (by simp) fun hsame => hlength ?_
    rw [hsame]
  · exact decide_eq_true_iff

/-- A row that was inserted is still there, as far as it is kept. -/
theorem inserted_stays (h : Run P (System.start d) s) {j : Nat} {input : InsertInput}
    {record : ApiKeyRecord}
    (he : (⟨j, .insert input, record⟩ : Performed keyOperations) ∈ (s.history j).reverse) :
    (∃ now, record = input.row record.id now) ∧
      ∃ r, s.world.apiKeys.find? record.id = some r ∧ record.Keeps r := by
  obtain ⟨s₁, l, s₂, hinsert, hlater⟩ := performed_before h he
  obtain ⟨c, -, hexec⟩ := hinsert.exec
  cases c with
  | nothing | chunks => cases hexec
  | identifier id =>
    obtain ⟨hrecord, -, hfind, -, -⟩ := rel_insert hexec
    have hid : id = record.id := by rw [hrecord, InsertInput.row]
    refine ⟨⟨s₁.world.now, by rw [← hid]; exact hrecord⟩, ?_⟩
    exact (run_evolves hlater).apiKeys (by rw [hfind, if_pos hid])

/-- What a request that created a key has left behind. -/
structure Leaves (o : Uuid) (input : CreateApiKeyInput) (created : CreatedApiKey)
    (s : System (keyring keying)) (identifier secret : Text) (r : ApiKeyRecord)
    (a : ApplicationRecord) : Prop where
  token : created.plaintextKey = formatApiKey keying.environment identifier secret
  parses : tryParseApiKey created.plaintextKey = some ⟨keying.environment, identifier, secret⟩
  row : s.world.apiKeys.find? created.record.id = some r
  id : r.id = created.record.id
  applicationId : r.applicationId = input.applicationId
  keyIdentifier : r.keyIdentifier = identifier
  keyHash : r.keyHash = keying.hashApiKeySecret secret keying.apiKeyPepper
  scopes : r.scopes = input.scopes.map ApiKeyScope.text
  application : s.world.applications.find? input.applicationId = some a
  owner : a.organizationId = o

theorem leaves_run (h : Run P (System.start d) s) {j : Nat} {o : Uuid} {input : CreateApiKeyInput}
    {created : CreatedApiKey} (hj : s.requestOf j = some (.create o input))
    (hcreated : s.Returned j (.created (.ok created))) :
    ∃ identifier secret r a, Leaves o input created s identifier secret r a := by
  obtain ⟨request, hrequest, htook⟩ := h.took hcreated
  rw [hj] at hrequest
  cases hrequest
  rcases took_create keying htook with hfail |
    ⟨i₁, found₁, i₂, generated, i₃, record, hes, hrecord⟩
  · cases hfail
  cases hrecord
  have hmem : (⟨i₃, .insert (ApiKeyService.CreateApiKeyInput.insertion input generated), record⟩ :
      Performed keyOperations) ∈ (s.history j).reverse := by rw [hes]; simp
  obtain ⟨htrace, rfl⟩ := System.mem_history.1 (List.mem_reverse.1 hmem)
  obtain ⟨⟨createdAt, hrow⟩, r, hr, hkeeps⟩ := inserted_stays h hmem
  obtain ⟨o', input', generated', secret, hj', hcreated', hinput, htoken, hhash, ⟨hidentifier,
    hsecret, hunits⟩, a, ha, howner⟩ := created_of_insert h htrace
  rw [hj] at hj'
  cases hj'
  have hplaintext : generated.token = generated'.token := by
    have hsame := (System.returned_iff.1 hcreated).symm.trans (System.returned_iff.1 hcreated')
    simp only [Option.some.injEq, KeyResult.created.injEq, Except.ok.injEq,
      CreatedApiKey.mk.injEq] at hsame
    exact hsame.2
  rw [hinput] at hrow
  refine ⟨generated'.identifier, secret, r, a, {
    token := hplaintext.trans htoken
    parses := ?_
    row := hr
    id := hkeeps.id
    applicationId := by rw [hkeeps.applicationId, hrow]; rfl
    keyIdentifier := by rw [hkeeps.keyIdentifier, hrow]; rfl
    keyHash := by rw [hkeeps.keyHash, hrow]; exact hhash
    scopes := by rw [hkeeps.scopes, hrow]; rfl
    application := ha
    owner := howner }⟩
  rw [hplaintext, htoken]
  exact tryParse_format hidentifier hsecret hunits

/-- A later check of a token that parses looks its identifier up at some moment, and answers what
the row it finds says. -/
theorem looked_up (h : Run Any (System.start d) s) (h' : Run P s s') {i : Nat}
    (hi : s.threads i = none) {token : Text} {parsed : ParsedApiKey}
    (hparse : tryParseApiKey token = some parsed) {required : List ApiKeyScope}
    {result : Except KeyError ApiKeyPrincipal}
    (hguard : s'.requestOf i =
      some (.canActivate (some (ApiKeyGuard.BEARER_PREFIX ++ token)) required))
    (hresult : s'.Returned i (.activated result)) :
    ∃ s₁ l now, Run P s s₁ ∧ P s₁ l ∧ Evolves s₁.world s'.world ∧ now ≤ s'.world.now ∧
      result = (((findActiveByIdentifier parsed.identifier now s₁.world).filter
        (accepts keying parsed)).map ApiKeyService.principal).elim
          (.error ApiKeyGuard.invalidKey) (ApiKeyGuard.decision required) := by
  obtain ⟨request, hrequest, htook⟩ := (h.trans h'.any).took hresult
  rw [hguard] at hrequest
  cases hrequest
  obtain ⟨result', htook, hresult'⟩ := Prog.took_map htook
  cases hresult'
  rcases took_canActivate htook with ⟨e, -, hfail⟩ |
    ⟨token', parsed', i₁, now, i₂, found, rest, hheader, hparsed, hes, hr⟩
  · rw [hfail _ rfl] at hparse
    cases hparse
  rw [← List.append_cancel_left (Option.some.inj hheader), hparse] at hparsed
  cases hparsed
  obtain ⟨s₁, l₁, s₂, hearlier, hpermitted, hlookup, hlater⟩ := h.moment_after hi h'
    (show (⟨i₂, .findActiveByIdentifier parsed.identifier now, found⟩ :
      Performed keyOperations) ∈ s'.history i by rw [← List.mem_reverse, hes]; simp)
  obtain ⟨s₀, l₀, s₀', -, -, hclock, hlater₀⟩ := h.moment_after hi h'
    (show (⟨i₁, .clockNow, now⟩ : Performed keyOperations) ∈ s'.history i by
      rw [← List.mem_reverse, hes]; simp)
  obtain ⟨c₀, -, hexec₀⟩ := hclock.exec
  obtain ⟨c₁, -, hexec₁⟩ := hlookup.exec
  obtain ⟨rfl, hworld₀⟩ := Prod.mk.inj (Option.some.inj hexec₀)
  obtain ⟨rfl, hworld₁⟩ := Prod.mk.inj (Option.some.inj hexec₁)
  refine ⟨s₁, l₁, s₀.world.now, hearlier, hpermitted, ?_, ?_, hr⟩
  · rw [hworld₁]
    exact run_evolves hlater
  · rw [hworld₀]
    exact (run_evolves hlater₀).now

/-- A key that is active was active before. -/
theorem isActive_before {r r' : ApiKeyRecord} {now later : Date} (h : r.Keeps r')
    (hnow : now ≤ later) (hactive : isActive later r' = true) : isActive now r = true := by
  obtain ⟨hrevoked, hexpires⟩ := of_decide_eq_true hactive
  refine decide_eq_true ⟨?_, ?_⟩
  · by_contra hended
    exact h.revokedAt hended hrevoked
  · intro expiresAt hexpiresAt
    rw [← h.expiresAt] at hexpiresAt
    exact lt_of_le_of_lt hnow (hexpires expiresAt hexpiresAt)

/-- The application may send. -/
def Active (a : Uuid) (d : Registry) : Prop :=
  ∃ r, d.applications.find? a = some r ∧ r.status = .ACTIVE

end Runs

/-! ## Two keys of one application -/

namespace Handout

/-- The hash of a secret is the secret. -/
def keying : Keying := ⟨false, [], fun secret _ => secret.map (·.toUInt8)⟩

theorem distinct_nil (r : ApiKeyRecord) (hr : r ∈ (Table.empty : Table ApiKeyRecord).rows) :
    ∀ r' ∈ (Table.empty : Table ApiKeyRecord).rows,
      r.keyIdentifier = r'.keyIdentifier → r = r' := by
  cases hr

def registry : Registry := ⟨⟨Table.empty, distinct_nil⟩, Table.empty, [], 0⟩

def input : CreateApiKeyInput := ⟨5, "orders", [.notificationsWrite], none, some 1000⟩

/-- The header of the key that is drawn from one byte. -/
def header (environment : ApiKeyEnvironment) (unit : UInt16) : Text :=
  ApiKeyGuard.BEARER_PREFIX ++
    formatApiKey environment (List.replicate 12 unit) (List.replicate 32 unit)

def creation (i : Nat) (byte : UInt8) (id : Uuid) : List (Label (keyring keying)) :=
  [.spawn i (.create 9 input), .advance i .nothing,
    .advance i (.chunks [List.replicate 24 byte, List.replicate 64 byte]),
    .advance i (.identifier id)]

def check (i : Nat) (environment : ApiKeyEnvironment) (unit : UInt16) (operations : Nat) :
    List (Label (keyring keying)) :=
  .spawn i (.canActivate (some (header environment unit)) [.notificationsWrite]) ::
    List.replicate operations (.advance i .nothing)

def created : System (keyring keying) :=
  (System.start registry).after
    (.outside (.application ⟨5, 9, .ACTIVE, none⟩) :: (creation 0 0 7 ++ creation 1 1 8))

def checked : System (keyring keying) := created.after (check 2 .test 65 3)

def revoked : System (keyring keying) :=
  checked.after (.spawn 3 (.revoke 9 5 7) :: List.replicate 3 (.advance 3 .nothing))

/-- Both keys again, the second one under the name of the other environment. -/
def rechecked : System (keyring keying) := revoked.after (check 4 .test 65 2 ++ check 5 .live 66 3)

/-- What `create` returned first. -/
def createdKey : CreatedApiKey where
  record := {
    id := 7
    applicationId := 5
    name := "orders"
    keyIdentifier := List.replicate 12 65
    keyPrefix := apiKeyDisplayPrefix .test (List.replicate 12 65)
    keyHash := List.replicate 32 65
    lastFour := List.replicate 4 65
    scopes := ["notifications:write"]
    createdByUserId := none
    createdAt := 0
    lastUsedAt := none
    expiresAt := some 1000
    revokedAt := none }
  plaintextKey := formatApiKey .test (List.replicate 12 65) (List.replicate 32 65)

def principal (id : Uuid) : ApiKeyPrincipal := ⟨id, 5, 9, [.notificationsWrite]⟩

theorem run_created : Run Any (System.start registry) created := Run.any_after _

theorem run_checked : Run Any created checked := Run.any_after _

theorem run_revoked : Run Any checked revoked := Run.any_after _

theorem run_rechecked : Run Any revoked rechecked := Run.any_after _

theorem run_all : Run Any (System.start registry) revoked :=
  run_created.trans (run_checked.trans run_revoked)

/-- What the requests are and what they have returned. -/
theorem outcomes :
    (created.requestOf 0 = some (.create 9 input) ∧
      created.result? 0 = some (.created (.ok createdKey)) ∧ (created.threads 2).isNone = true) ∧
    (checked.requestOf 2 =
        some (.canActivate (some (header .test 65)) [.notificationsWrite]) ∧
      checked.result? 2 = some (.activated (.ok (principal 7))) ∧
      (checked.world.apiKeys.find? 7).any (isActive checked.world.now) = true ∧
      (checked.world.applications.find? 5).any (fun a => decide (a.archivedAt = none)) = true) ∧
    (revoked.requestOf 3 = some (.revoke 9 5 7) ∧
      revoked.result? 3 = some (.revoked (.ok ())) ∧ (revoked.threads 5).isNone = true) ∧
    rechecked.requestOf 5 =
        some (.canActivate (some (header .live 66)) [.notificationsWrite]) ∧
      rechecked.result? 5 = some (.activated (.ok (principal 8))) ∧
      rechecked.result? 4 = some (.activated (.error ApiKeyGuard.invalidKey)) := by decide +kernel

/-- Whether the application may send. -/
def isSending (s : System (keyring keying)) : Bool :=
  (s.world.applications.find? 5).any (·.status = .ACTIVE)

theorem run_active : Run (fun s _ => Active 5 s.world) created checked := by
  refine (Run.of_checks (b := isSending) (by decide +kernel)).mono fun s _ h => ?_
  obtain ⟨r, hr, hactive⟩ := (Option.any_eq_true _ _).1 h
  exact ⟨r, hr, of_decide_eq_true hactive⟩

end Handout

/-! ## What a key opens, and for how long -/

/-- **An accepted key was issued, and was live.** A check that passes was given the token of a key
that a request of the same organization created for the application, with the scopes it was created
with, and when the check looked the key up it was live by the clock the check had read. Of the
environment a token names nothing is checked. -/
theorem accepted_key_was_issued (keying : Keying) {d : Registry} (hd : d.apiKeys.rows = [])
    {s : System (keyring keying)} (h : Run Any (System.start d) s) {i : Nat} {header : Option Text}
    {required : List ApiKeyScope} {p : ApiKeyPrincipal}
    (hguard : s.requestOf i = some (.canActivate header required))
    (hp : s.Returned i (.activated (.ok p))) :
    ∃ j o input created secret environment presented,
      s.requestOf j = some (.create o input) ∧ s.Returned j (.created (.ok created)) ∧
      created.plaintextKey =
        formatApiKey keying.environment created.record.keyIdentifier secret ∧
      header = some (ApiKeyGuard.BEARER_PREFIX ++
        formatApiKey environment created.record.keyIdentifier presented) ∧
      keying.hashApiKeySecret presented keying.apiKeyPepper =
        keying.hashApiKeySecret secret keying.apiKeyPepper ∧
      p = ⟨created.record.id, input.applicationId, o, input.scopes⟩ ∧
      (∀ scope ∈ required, scope ∈ p.scopes) ∧
      ∃ (s₀ s₀' s₁ s₁' : System (keyring keying)) (l₀ l₁ : Label (keyring keying))
        (found : Option ApiKeyAuthenticationRecord),
        Run Any (System.start d) s₀ ∧ s₀.Performs l₀ ⟨i, .clockNow, s₀.world.now⟩ s₀' ∧
        Run Any s₀' s₁ ∧ s₁.Performs l₁
          ⟨i, .findActiveByIdentifier created.record.keyIdentifier s₀.world.now, found⟩ s₁' ∧
        Run Any s₁' s ∧ Live p s₀.world.now s₁.world := by
  obtain ⟨request, hrequest, htook⟩ := h.took hp
  rw [hguard] at hrequest
  cases hrequest
  obtain ⟨token, parsed, i₁, now, i₂, found, rest, hheader, hparse, hes, haccepts, rfl, hscopes⟩ :=
    took_activated keying htook
  have hhistory : s.history i = rest.reverse ++
      ⟨i₂, .findActiveByIdentifier parsed.identifier now, some found⟩ ::
        [⟨i₁, .clockNow, now⟩] := by
    rw [← List.reverse_reverse (s.history i), hes]
    simp
  obtain rfl : i₁ = i := (System.mem_history.1
    (show (⟨i₁, .clockNow, now⟩ : Performed keyOperations) ∈ s.history i by
      rw [hhistory]; simp)).2
  obtain rfl : i₂ = i₁ := (System.mem_history.1
    (show (⟨i₂, .findActiveByIdentifier parsed.identifier now, some found⟩ :
      Performed keyOperations) ∈ s.history i₁ by rw [hhistory]; simp)).2
  obtain ⟨s₁, l₁, s₂, h₁, hfirst, hlookup, h₂⟩ := h.moment_at hhistory
  obtain ⟨s₀, l₀, s₀', h₀, -, hclock, h₀'⟩ := h₁.moment_at (hfirst.trans (List.nil_append _).symm)
  obtain ⟨c₀, -, hexec₀⟩ := hclock.exec
  obtain ⟨c₁, -, hexec₁⟩ := hlookup.exec
  obtain rfl : s₀.world.now = now := congrArg Prod.fst (Option.some.inj hexec₀)
  have hfound : findActiveByIdentifier parsed.identifier s₀.world.now s₁.world = some found :=
    congrArg Prod.fst (Option.some.inj hexec₁)
  obtain ⟨r, hr, hidentifier, hactive, hrow⟩ := findActiveByIdentifier_eq_some.1 hfound
  obtain ⟨a, ha, hopen, rfl⟩ := withApplication_eq_some.1 hrow
  obtain ⟨hstatus, hhash⟩ := accepts_iff.1 haccepts
  obtain ⟨hrevoked, hexpires⟩ := of_decide_eq_true hactive
  have hlive : Live (ApiKeyService.principal ⟨r.id, r.applicationId, a.organizationId, r.keyHash,
      r.scopes, a.status⟩) s₀.world.now s₁.world :=
    ⟨r, a, hr, ha, rfl, rfl, hrevoked, hexpires, hstatus, hopen⟩
  obtain ⟨j, input, created, hinsert, hkeeps⟩ := issued_run h₁ hd r.id r hr
  obtain ⟨o, input', generated, secret, hcreate, hreturned, rfl, htoken, hgenerated, -, a', ha',
    howner⟩ := created_of_insert h₁ hinsert
  have hserves := (Run.tail .refl trivial hlookup.1).trans h₂
  obtain ⟨environment, keyIdentifier, presented⟩ := parsed
  have hsame : r.applicationId = input'.applicationId := hkeeps.applicationId
  have hscopes' : r.scopes = input'.scopes.map ApiKeyScope.text := hkeeps.scopes
  obtain rfl : keyIdentifier = generated.identifier :=
    hidentifier.symm.trans hkeeps.keyIdentifier
  rw [hsame, ha'] at ha
  cases ha
  refine ⟨j, o, input', _, secret, environment, presented, hserves.requestOf_stays hcreate,
    hserves.returned_stays hreturned, htoken, ?_, ?_, ?_, hscopes, s₀, s₀', s₁, s₂, l₀, l₁, _, h₀,
    hclock, h₀', hlookup, h₂, hlive⟩
  · rw [hheader, ← format_of_tryParse hparse]
    rfl
  · exact hhash.symm.trans (hkeeps.keyHash.trans hgenerated)
  · simp only [ApiKeyService.principal, hsame, howner, hscopes', filterMap_asApiKeyScope]
    rfl

/-- The second key was presented under the name of another environment, and was live when it was
looked up, by the clock the check had read. -/
theorem second_key_was_issued : ∃ j o input created,
    Handout.rechecked.requestOf j = some (.create o input) ∧
      Handout.rechecked.Returned j (.created (.ok created)) ∧
      Handout.principal 8 = ⟨created.record.id, input.applicationId, o, input.scopes⟩ ∧
      ∃ (s₀ s₁ : System (keyring Handout.keying)), Run Any s₀ s₁ ∧
        s₁.nextOp 5 =
          some (.findActiveByIdentifier created.record.keyIdentifier s₀.world.now) ∧
        Live (Handout.principal 8) s₀.world.now s₁.world := by
  obtain ⟨-, -, -, hguard, hactivated, -⟩ := Handout.outcomes
  obtain ⟨j, o, input, created, _, _, _, hj, hcreated, -, -, -, hp, -, s₀, s₀', s₁, _, _, _, _, -,
    hclock, hrun, hlookup, -, hlive⟩ := accepted_key_was_issued Handout.keying rfl
      (Handout.run_all.trans Handout.run_rechecked) hguard (System.returned_iff.2 hactivated)
  exact ⟨j, o, input, created, hj, hcreated, hp, s₀, s₁,
    (Run.tail .refl trivial hclock.1).trans hrun, hlookup.nextOp, hlive⟩

/-- **An ended key is refused.** Once a revocation of a key has returned, or the archival of an
application, no check that starts later passes with that key, or for that application. -/
theorem ended_key_is_refused (keying : Keying) {d : Registry} {s s' : System (keyring keying)}
    (h : Run Any (System.start d) s) (h' : Run Any s s') {i : Nat} (hi : s.threads i = none)
    {header : Option Text} {required : List ApiKeyScope} {p : ApiKeyPrincipal}
    (hguard : s'.requestOf i = some (.canActivate header required))
    (hp : s'.Returned i (.activated (.ok p))) :
    (∀ j o a k, s.requestOf j = some (.revoke o a k) → s.Returned j (.revoked (.ok ())) →
      p.apiKeyId ≠ k) ∧
    ∀ j o a, s.requestOf j = some (.archive o a) → s.Returned j (.archived (.ok ())) →
      p.applicationId ≠ a := by
  obtain ⟨request, hrequest, htook⟩ := (h.trans h').took hp
  rw [hguard] at hrequest
  cases hrequest
  obtain ⟨token, parsed, i₁, now, i₂, found, rest, -, -, hes, -, rfl, -⟩ :=
    took_activated keying htook
  have hlookup : (⟨i₂, .findActiveByIdentifier parsed.identifier now, some found⟩ :
      Performed keyOperations) ∈ s'.history i := by
    rw [← List.mem_reverse, hes]
    simp
  obtain ⟨s₁, l, s₂, hearlier, -, hperforms, -⟩ := h.moment_after hi h' hlookup
  obtain ⟨c, -, he⟩ := hperforms.exec
  have hfound : findActiveByIdentifier parsed.identifier now s₁.world = some found :=
    congrArg Prod.fst (Option.some.inj he)
  obtain ⟨r, hr, -, hactive, hrow⟩ := findActiveByIdentifier_eq_some.1 hfound
  obtain ⟨a₁, ha₁, hopen, rfl⟩ := withApplication_eq_some.1 hrow
  have hevolves : Evolves s.world s₁.world := run_evolves hearlier
  constructor
  · intro j o a k hj hrevoked hk
    obtain ⟨r₀, hr₀, hended⟩ := revoked_stays h hj hrevoked
    obtain ⟨r₁, hr₁, hkeeps⟩ := hevolves.apiKeys hr₀
    subst hk
    cases hr.symm.trans hr₁
    exact hkeeps.revokedAt hended (of_decide_eq_true hactive).1
  · intro j o a hj harchived ha
    obtain ⟨r₀, hr₀, hended⟩ := archived_stays h hj harchived
    obtain ⟨r₁, hr₁, hkeeps⟩ := hevolves.applications hr₀
    subst ha
    cases ha₁.symm.trans hr₁
    exact hkeeps.archivedAt hended hopen

/-- Once the first key is revoked only the second one passes. -/
theorem first_key_is_refused :
    Handout.rechecked.result? 4 = some (.activated (.error ApiKeyGuard.invalidKey)) ∧
      (Handout.principal 8).apiKeyId ≠ 7 := by
  obtain ⟨-, -, ⟨hrevoke, hrevoked, hfresh⟩, hguard, hactivated, hrefused⟩ := Handout.outcomes
  exact ⟨hrefused, (ended_key_is_refused Handout.keying Handout.run_all Handout.run_rechecked
    (Option.isNone_iff_eq_none.1 hfresh) hguard (System.returned_iff.2 hactivated)).1 3 9 5 7
      hrevoke (System.returned_iff.2 hrevoked)⟩

/-- **An issued key is accepted.** Whatever runs beside it, a check of a key that `create` returned
before is decided by the scopes alone, if the application was active throughout and, when the check
has returned, the key is neither revoked nor expired and the application not archived. -/
theorem issued_key_is_accepted (keying : Keying) {d : Registry} {s s' : System (keyring keying)}
    (h : Run Any (System.start d) s) {j : Nat} {o : Uuid} {input : CreateApiKeyInput}
    {created : CreatedApiKey} (hj : s.requestOf j = some (.create o input))
    (hcreated : s.Returned j (.created (.ok created)))
    (h' : Run (fun s _ => Active input.applicationId s.world) s s') {i : Nat}
    (hi : s.threads i = none) {required : List ApiKeyScope}
    {result : Except KeyError ApiKeyPrincipal}
    (hguard : s'.requestOf i =
      some (.canActivate (some (ApiKeyGuard.BEARER_PREFIX ++ created.plaintextKey)) required))
    (hresult : s'.Returned i (.activated result))
    (hkey : ∃ r, s'.world.apiKeys.find? created.record.id = some r ∧
      isActive s'.world.now r = true)
    (hopen : ∃ a, s'.world.applications.find? input.applicationId = some a ∧
      a.archivedAt = none) :
    result = ApiKeyGuard.decision required
      ⟨created.record.id, input.applicationId, o, input.scopes⟩ := by
  obtain ⟨identifier, secret, r, a, hleaves⟩ := leaves_run h hj hcreated
  obtain ⟨s₁, l, now, hearlier, ⟨a₁, ha₁, hactive⟩, hlast, hnow, rfl⟩ :=
    looked_up h h' hi hleaves.parses hguard hresult
  have hfirst : Evolves s.world s₁.world := run_evolves hearlier
  -- the row at the moment of the lookup
  obtain ⟨r₁, hr₁, hkeeps⟩ := hfirst.apiKeys hleaves.row
  obtain ⟨r₂, hr₂, hunended⟩ := hkey
  obtain ⟨r₂', hr₂', hkeeps'⟩ := hlast.apiKeys hr₁
  cases hr₂.symm.trans hr₂'
  have hactive₁ : isActive now r₁ = true := isActive_before hkeeps' hnow hunended
  have hid : r₁.id = created.record.id := hkeeps.id.trans hleaves.id
  have happlication : r₁.applicationId = input.applicationId :=
    hkeeps.applicationId.trans hleaves.applicationId
  -- its application at that moment
  obtain ⟨a₁', ha₁', hkept⟩ := hfirst.applications hleaves.application
  cases ha₁.symm.trans ha₁'
  obtain ⟨a₂, ha₂, hunarchived⟩ := hopen
  obtain ⟨a₂', ha₂', hkept'⟩ := hlast.applications ha₁
  cases ha₂.symm.trans ha₂'
  have hopen₁ : a₁.archivedAt = none := by
    by_contra hended
    exact hkept'.archivedAt hended hunarchived
  have hfound : findActiveByIdentifier identifier now s₁.world = some ⟨r₁.id, r₁.applicationId,
      a₁.organizationId, r₁.keyHash, r₁.scopes, a₁.status⟩ := by
    refine findActiveByIdentifier_eq_some.2 ⟨r₁, ?_, ?_, hactive₁, ?_⟩
    · rw [hid]
      exact hr₁
    · exact hkeeps.keyIdentifier.trans hleaves.keyIdentifier
    · refine withApplication_eq_some.2 ⟨a₁, ?_, hopen₁, rfl⟩
      rw [happlication]
      exact ha₁
  have hhash : r₁.keyHash = keying.hashApiKeySecret secret keying.apiKeyPepper :=
    hkeeps.keyHash.trans hleaves.keyHash
  rw [hfound, Option.filter_some, if_pos (accepts_iff.2 ⟨hactive, hhash⟩)]
  simp only [Option.map_some, Option.elim_some, ApiKeyService.principal, hid, happlication,
    hkept.organizationId, hleaves.owner, hkeeps.scopes.trans hleaves.scopes,
    filterMap_asApiKeyScope]

/-- The first key, as long as it was not revoked. -/
theorem first_key_is_accepted : Except.ok (Handout.principal 7) =
    ApiKeyGuard.decision [.notificationsWrite]
      ⟨Handout.createdKey.record.id, Handout.input.applicationId, 9, Handout.input.scopes⟩ := by
  obtain ⟨⟨hcreate, hcreated, hfresh⟩, ⟨hguard, hactivated, hkey, hopen⟩, -⟩ := Handout.outcomes
  obtain ⟨a, ha, hunarchived⟩ := (Option.any_eq_true _ _).1 hopen
  exact issued_key_is_accepted Handout.keying Handout.run_created hcreate
    (System.returned_iff.2 hcreated) Handout.run_active (Option.isNone_iff_eq_none.1 hfresh) hguard
    (System.returned_iff.2 hactivated) ((Option.any_eq_true _ _).1 hkey)
    ⟨a, ha, of_decide_eq_true hunarchived⟩

end Tenancy

end NotificationPlatform
