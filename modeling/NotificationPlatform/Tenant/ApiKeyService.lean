import Mathlib.Data.List.Sort
import NotificationPlatform.Database.Schema
import NotificationPlatform.Interleaving.Raising
import NotificationPlatform.Interleaving.System
import NotificationPlatform.Relational.Table
import NotificationPlatform.Tenant.ApiKey

/-!
# API keys in use

`packages/composition/src/tenancy/api-key.service.ts`, with the statements of `ApiKeyRepository`
and `ApplicationRepository` it needs, the guard of the public API and the dashboard's requests on
keys. Every statement is a transaction of its own. A use of a key is recorded by a statement that
nobody waits for: it is started, and goes through later or never.
-/

namespace NotificationPlatform

namespace Tenancy

open Interleaving Relational ApiKey

open Utf16 (Text ofString)

/-! ## `packages/domain/src/tenant` -/

inductive ApiKeyScope where
  | notificationsWrite
  | notificationsRead
  | templatesWrite
  | templatesRead
  | sessionsRead
deriving DecidableEq, Repr

def ApiKeyScope.text : ApiKeyScope → String
  | .notificationsWrite => "notifications:write"
  | .notificationsRead => "notifications:read"
  | .templatesWrite => "templates:write"
  | .templatesRead => "templates:read"
  | .sessionsRead => "sessions:read"

def apiKeyScopes : List ApiKeyScope :=
  [.notificationsWrite, .notificationsRead, .templatesWrite, .templatesRead, .sessionsRead]

/-- `isApiKeyScope`, with the scope the candidate is. -/
def asApiKeyScope (candidate : String) : Option ApiKeyScope :=
  apiKeyScopes.find? fun scope => scope.text = candidate

def hasScope (granted : List ApiKeyScope) (required : ApiKeyScope) : Bool := required ∈ granted

inductive ApplicationStatus where
  | ACTIVE
  | SUSPENDED
deriving DecidableEq, Repr

def canApplicationAcceptNotifications (status : ApplicationStatus) : Bool := status = .ACTIVE

/-! ## Rows -/

/-- A row of `api_keys`. -/
structure ApiKeyRecord where
  id : Uuid
  applicationId : Uuid
  name : String
  keyIdentifier : Text
  keyPrefix : Text
  keyHash : ApiKey.Buffer
  lastFour : Text
  scopes : List String
  createdByUserId : Option Uuid
  createdAt : Date
  lastUsedAt : Option Date
  expiresAt : Option Date
  revokedAt : Option Date
deriving DecidableEq

/-- The columns of `applications` that say who may use it. -/
structure ApplicationRecord where
  id : Uuid
  organizationId : Uuid
  status : ApplicationStatus
  archivedAt : Option Date
deriving DecidableEq

instance : Keyed ApiKeyRecord Uuid := ⟨ApiKeyRecord.id⟩

instance : Keyed ApplicationRecord Uuid := ⟨ApplicationRecord.id⟩

@[simp] theorem key_apiKey (r : ApiKeyRecord) : key r = r.id := rfl

@[simp] theorem key_tenant (r : ApplicationRecord) : key r = r.id := rfl

/-- `api_keys` with its unique index on the identifier. -/
structure ApiKeyTable extends Table ApiKeyRecord where
  distinct : ∀ r ∈ rows, ∀ r' ∈ rows, r.keyIdentifier = r'.keyIdentifier → r = r'

namespace ApiKeyTable

/-- Adds a row, unless its key or its identifier is taken. -/
def insert? (t : ApiKeyTable) (r : ApiKeyRecord) : Option ApiKeyTable :=
  if h : ∀ r' ∈ t.rows, r'.id ≠ r.id ∧ r'.keyIdentifier ≠ r.keyIdentifier then some {
    rows := t.rows ++ [r]
    nodup := by
      rw [List.map_append, List.nodup_append]
      refine ⟨t.nodup, List.nodup_singleton _, ?_⟩
      intro k hk k' hk' heq
      obtain ⟨r', hr', rfl⟩ := List.mem_map.1 hk
      rw [List.map_singleton, List.mem_singleton] at hk'
      exact (h r' hr').1 (heq.trans hk')
    distinct := by
      intro a ha b hb hab
      rcases List.mem_append.1 ha with ha | ha <;> rcases List.mem_append.1 hb with hb | hb
      · exact t.distinct a ha b hb hab
      · rw [List.mem_singleton.1 hb] at hab
        exact absurd hab (h a ha).2
      · rw [List.mem_singleton.1 ha] at hab
        exact absurd hab.symm (h b hb).2
      · rw [List.mem_singleton.1 ha, List.mem_singleton.1 hb] }
  else none

/-- Changes the row of a key, as `Table.updateAt` does. The change keeps the identifier. -/
def updateAt (t : ApiKeyTable) (k : Uuid) (p : ApiKeyRecord → Bool)
    (f : ApiKeyRecord → ApiKeyRecord)
    (hf : ∀ r, (f r).id = r.id ∧ (f r).keyIdentifier = r.keyIdentifier) :
    Option ApiKeyRecord × ApiKeyTable :=
  let updated := t.toTable.updateAt k p f fun r => (hf r).1
  (updated.1, {
    toTable := updated.2
    distinct := by
      have hkept : ∀ (q : Bool) (r : ApiKeyRecord),
          (if q = true then f r else r).keyIdentifier = r.keyIdentifier := by
        intro q r
        cases q with
        | false => rfl
        | true => exact (hf r).2
      intro r' hr' q' hq' hsame
      obtain ⟨r, hr, rfl⟩ := List.mem_map.1 hr'
      obtain ⟨q, hq, rfl⟩ := List.mem_map.1 hq'
      rw [hkept, hkept] at hsame
      rw [t.distinct r hr q hq hsame] })

end ApiKeyTable

/-- What the requests share, and the uses of keys that are being recorded. -/
structure Registry where
  apiKeys : ApiKeyTable
  applications : Table ApplicationRecord
  touches : List (Uuid × Date)
  now : Date

/-! ## Statements -/

namespace ApplicationRepository

def findById (organizationId applicationId : Uuid) (d : Registry) : Option ApplicationRecord :=
  (d.applications.find? applicationId).filter fun a =>
    a.organizationId = organizationId ∧ a.archivedAt = none

/-- Whether a row was archived. -/
def archive (organizationId applicationId : Uuid) (now : Date) (d : Registry) : Bool × Registry :=
  let updated := d.applications.updateAt applicationId
    (fun a => a.organizationId = organizationId ∧ a.archivedAt = none)
    (fun a => { a with archivedAt := some now }) fun _ => rfl
  (updated.1.isSome, { d with applications := updated.2 })

end ApplicationRepository

namespace ApiKeyRepository

structure InsertInput where
  applicationId : Uuid
  name : String
  keyIdentifier : Text
  keyPrefix : Text
  keyHash : ApiKey.Buffer
  lastFour : Text
  scopes : List ApiKeyScope
  createdByUserId : Option Uuid
  expiresAt : Option Date

/-- The row an insert writes under a generated identifier. -/
def InsertInput.row (input : InsertInput) (id : Uuid) (now : Date) : ApiKeyRecord where
  id := id
  applicationId := input.applicationId
  name := input.name
  keyIdentifier := input.keyIdentifier
  keyPrefix := input.keyPrefix
  keyHash := input.keyHash
  lastFour := input.lastFour
  scopes := input.scopes.map ApiKeyScope.text
  createdByUserId := input.createdByUserId
  createdAt := now
  lastUsedAt := none
  expiresAt := input.expiresAt
  revokedAt := none

/-- The CHECK constraints, the foreign key and the unique index on the hash. -/
def InsertInput.isAccepted (input : InsertInput) (d : Registry) : Bool :=
  input.lastFour.length = 4 ∧ 1 ≤ input.scopes.length ∧
    (d.applications.find? input.applicationId).isSome ∧
    ∀ r ∈ d.apiKeys.rows, r.keyHash ≠ input.keyHash

def insert (input : InsertInput) (id : Uuid) (d : Registry) : Option (ApiKeyRecord × Registry) :=
  if input.isAccepted d then
    (d.apiKeys.insert? (input.row id d.now)).map fun apiKeys =>
      (input.row id d.now, { d with apiKeys })
  else none

def listForApplication (applicationId : Uuid) (d : Registry) : List ApiKeyRecord :=
  (d.apiKeys.rows.filter (·.applicationId = applicationId)).insertionSort
    fun a b => b.createdAt ≤ a.createdAt

/-- What authentication needs. -/
structure ApiKeyAuthenticationRecord where
  id : Uuid
  applicationId : Uuid
  organizationId : Uuid
  keyHash : ApiKey.Buffer
  scopes : List String
  applicationStatus : ApplicationStatus
deriving DecidableEq

/-- Neither expired nor revoked. -/
def isActive (now : Date) (r : ApiKeyRecord) : Bool :=
  r.revokedAt = none ∧ ∀ expiresAt ∈ r.expiresAt, now < expiresAt

/-- The row of a key joined with the one of its application, if that is not archived. -/
def withApplication (d : Registry) (r : ApiKeyRecord) : Option ApiKeyAuthenticationRecord :=
  ((d.applications.find? r.applicationId).filter (·.archivedAt = none)).map fun a => {
    id := r.id
    applicationId := r.applicationId
    organizationId := a.organizationId
    keyHash := r.keyHash
    scopes := r.scopes
    applicationStatus := a.status }

def findActiveByIdentifier (keyIdentifier : Text) (now : Date) (d : Registry) :
    Option ApiKeyAuthenticationRecord :=
  (d.apiKeys.rows.filter fun r => r.keyIdentifier = keyIdentifier ∧ isActive now r).findSome?
    (withApplication d)

/-- Whether a row was revoked. -/
def revoke (applicationId apiKeyId : Uuid) (now : Date) (d : Registry) : Bool × Registry :=
  let updated := d.apiKeys.updateAt apiKeyId
    (fun r => r.applicationId = applicationId ∧ r.revokedAt = none)
    (fun r => { r with revokedAt := some now }) fun _ => ⟨rfl, rfl⟩
  (updated.1.isSome, { d with apiKeys := updated.2 })

/-- At most one write per minute and key. -/
def touchLastUsed (apiKeyId : Uuid) (now : Date) (d : Registry) : Registry :=
  { d with apiKeys := (d.apiKeys.updateAt apiKeyId
      (fun r => r.lastUsedAt.all (· < now - 60000))
      (fun r => { r with lastUsedAt := some now }) fun _ => ⟨rfl, rfl⟩).2 }

end ApiKeyRepository

open ApiKeyRepository (ApiKeyAuthenticationRecord)

/-! ## Operations -/

inductive KeyOp where
  | clockNow
  | generateApiKey
  | findApplicationById (organizationId applicationId : Uuid)
  | archive (organizationId applicationId : Uuid) (now : Date)
  | insert (input : ApiKeyRepository.InsertInput)
  | listForApplication (applicationId : Uuid)
  | findActiveByIdentifier (keyIdentifier : Text) (now : Date)
  | revoke (applicationId apiKeyId : Uuid) (now : Date)
  -- `void this.apiKeys.touchLastUsed(..)`
  | startTouch (apiKeyId : Uuid) (now : Date)

@[reducible] def KeyOp.Ret : KeyOp → Type
  | .clockNow => Date
  | .generateApiKey => GeneratedApiKey
  | .findApplicationById _ _ => Option ApplicationRecord
  | .archive _ _ _ => Bool
  | .insert _ => ApiKeyRecord
  | .listForApplication _ => List ApiKeyRecord
  | .findActiveByIdentifier _ _ => Option ApiKeyAuthenticationRecord
  | .revoke _ _ _ => Bool
  | .startTouch _ _ => Unit

abbrev keyOperations : Interface := ⟨KeyOp, KeyOp.Ret⟩

/-- What the surroundings choose: the bytes that are drawn, or an identifier the database
generates. -/
inductive KeyChoice where
  | nothing
  | chunks (chunks : List ApiKey.Buffer)
  | identifier (id : Uuid)

/-- The settings of the process, and the hash of a secret under the pepper. -/
structure Keying where
  nodeEnvironmentIsProduction : Bool
  apiKeyPepper : Text
  hashApiKeySecret : Text → Text → ApiKey.Buffer

/-- The environment that keys are created for. -/
def Keying.environment (keying : Keying) : ApiKeyEnvironment :=
  if keying.nodeEnvironmentIsProduction then .live else .test

/-- Runs one operation. -/
def exec (keying : Keying) (d : Registry) : (o : KeyOp) → KeyChoice → Option (o.Ret × Registry)
  | .clockNow, _ => some (d.now, d)
  | .generateApiKey, .chunks chunks =>
    (ApiKey.generateApiKey keying.hashApiKeySecret keying.environment keying.apiKeyPepper
      chunks).map fun generated => (generated.1, d)
  | .generateApiKey, _ => none
  | .findApplicationById o a, _ => some (ApplicationRepository.findById o a d, d)
  | .archive o a now, _ => some (ApplicationRepository.archive o a now d)
  | .insert input, .identifier id => ApiKeyRepository.insert input id d
  | .insert _, _ => none
  | .listForApplication a, _ => some (ApiKeyRepository.listForApplication a d, d)
  | .findActiveByIdentifier i now, _ => some (ApiKeyRepository.findActiveByIdentifier i now d, d)
  | .revoke a k now, _ => some (ApiKeyRepository.revoke a k now d)
  | .startTouch k now, _ => some ((), { d with touches := (k, now) :: d.touches })

/-! ## The services -/

/-- What a request throws. -/
inductive KeyError where
  | domainError (code message : String)
  | unauthorized (message : String)
  | forbidden (message : String)
deriving DecidableEq

abbrev Service := Raising keyOperations KeyError

def perform (o : KeyOp) : Service o.Ret := Raising.call (I := keyOperations) o

namespace ApplicationService

def applicationNotFound : KeyError :=
  .domainError "application_not_found" "That application does not exist."

def getOrFail (organizationId applicationId : Uuid) : Service ApplicationRecord := do
  let found ← perform (.findApplicationById organizationId applicationId)
  match found with
  | none => throw applicationNotFound
  | some found => return found

def archive (organizationId applicationId : Uuid) : Service Unit := do
  let now ← perform .clockNow
  let wasArchived ← perform (.archive organizationId applicationId now)
  if wasArchived then return () else throw applicationNotFound

end ApplicationService

structure CreatedApiKey where
  record : ApiKeyRecord
  /-- Returned once and never stored. -/
  plaintextKey : Text
deriving DecidableEq

structure ApiKeyPrincipal where
  apiKeyId : Uuid
  applicationId : Uuid
  organizationId : Uuid
  scopes : List ApiKeyScope
deriving DecidableEq

structure CreateApiKeyInput where
  applicationId : Uuid
  name : String
  scopes : List ApiKeyScope
  createdByUserId : Option Uuid
  expiresAt : Option Date
deriving DecidableEq

namespace ApiKeyService

/-- The row `create` inserts for a key that was generated. -/
def CreateApiKeyInput.insertion (input : CreateApiKeyInput) (generated : GeneratedApiKey) :
    ApiKeyRepository.InsertInput where
  applicationId := input.applicationId
  name := input.name
  keyIdentifier := generated.identifier
  keyPrefix := generated.displayPrefix
  keyHash := generated.keyHash
  lastFour := generated.lastFour
  scopes := input.scopes
  createdByUserId := input.createdByUserId
  expiresAt := input.expiresAt

def create (input : CreateApiKeyInput) : Service CreatedApiKey := do
  let generated ← perform .generateApiKey
  let record ← perform (.insert (CreateApiKeyInput.insertion input generated))
  return { record, plaintextKey := generated.token }

def list (applicationId : Uuid) : Service (List ApiKeyRecord) :=
  perform (.listForApplication applicationId)

def revoke (applicationId apiKeyId : Uuid) : Service Unit := do
  let now ← perform .clockNow
  let wasRevoked ← perform (.revoke applicationId apiKeyId now)
  if wasRevoked then return ()
  else throw (.domainError "api_key_not_found" "That API key does not exist.")

/-- A scope the platform has never heard of grants nothing. -/
def principal (found : ApiKeyAuthenticationRecord) : ApiKeyPrincipal where
  apiKeyId := found.id
  applicationId := found.applicationId
  organizationId := found.organizationId
  scopes := found.scopes.filterMap asApiKeyScope

/-- Resolves a bearer token to the tenant it belongs to. -/
def authenticate (keying : Keying) (token : Text) : Service (Option ApiKeyPrincipal) := do
  match tryParseApiKey token with
  | none => return none
  | some parsed =>
    let now ← perform .clockNow
    let found ← perform (.findActiveByIdentifier parsed.identifier now)
    match found with
    | none => return none
    | some found =>
      if canApplicationAcceptNotifications found.applicationStatus = false then return none
      else if isApiKeySecretValid keying.hashApiKeySecret found.keyHash parsed.secret
          keying.apiKeyPepper = false then return none
      else
        perform (.startTouch found.id now)
        return some (principal found)

end ApiKeyService

/-! ## `apps/api/src/http/authentication/api-key.guard.ts` -/

namespace ApiKeyGuard

def BEARER_PREFIX : Text := ofString "Bearer "

def missingToken : KeyError := .unauthorized "Provide an API key as a bearer token."

def invalidKey : KeyError := .unauthorized "The API key is invalid."

/-- The scopes of the route that the key does not have. -/
def missingScopes (requiredScopes : List ApiKeyScope) (principal : ApiKeyPrincipal) :
    List ApiKeyScope :=
  requiredScopes.filter fun scope => !hasScope principal.scopes scope

def missingScope (scopes : List ApiKeyScope) : KeyError :=
  .forbidden ("This API key is missing the required scope: " ++
    ", ".intercalate (scopes.map (·.text)) ++ ".")

/-- What is decided of an authenticated key. -/
def decision (requiredScopes : List ApiKeyScope) (principal : ApiKeyPrincipal) :
    Except KeyError ApiKeyPrincipal :=
  if missingScopes requiredScopes principal = [] then .ok principal
  else .error (missingScope (missingScopes requiredScopes principal))

/-- Whom the request is from, if it may go on. -/
def canActivate (keying : Keying) (authorization : Option Text)
    (requiredScopes : List ApiKeyScope) : Service ApiKeyPrincipal := do
  match authorization with
  | none => throw missingToken
  | some header =>
    if BEARER_PREFIX.isPrefixOf header then
      let principal ← ApiKeyService.authenticate keying (header.drop BEARER_PREFIX.length)
      match principal with
      | none => throw invalidKey
      | some principal => ExceptT.mk (.done (decision requiredScopes principal))
    else throw missingToken

end ApiKeyGuard

/-! ## Requests -/

inductive KeyRequest where
  | create (organizationId : Uuid) (input : CreateApiKeyInput)
  | list (organizationId applicationId : Uuid)
  | revoke (organizationId applicationId apiKeyId : Uuid)
  | archive (organizationId applicationId : Uuid)
  | canActivate (authorization : Option Text) (requiredScopes : List ApiKeyScope)
deriving DecidableEq

inductive KeyResult where
  | created (result : Except KeyError CreatedApiKey)
  | listed (result : Except KeyError (List ApiKeyRecord))
  | revoked (result : Except KeyError Unit)
  | archived (result : Except KeyError Unit)
  | activated (result : Except KeyError ApiKeyPrincipal)
deriving DecidableEq

/-- The dashboard's requests establish the application under the caller's organization first. -/
def KeyRequest.program (keying : Keying) : KeyRequest → Prog keyOperations KeyResult
  | create o input => .created <$> (do
      let _ ← ApplicationService.getOrFail o input.applicationId
      ApiKeyService.create input : Service CreatedApiKey).run
  | list o a => .listed <$> (do
      let _ ← ApplicationService.getOrFail o a
      ApiKeyService.list a : Service (List ApiKeyRecord)).run
  | revoke o a k => .revoked <$> (do
      let _ ← ApplicationService.getOrFail o a
      ApiKeyService.revoke a k : Service Unit).run
  | archive o a => .archived <$> (ApplicationService.archive o a).run
  | canActivate header scopes => .activated <$> (ApiKeyGuard.canActivate keying header scopes).run

/-- What happens besides: time passes, an application is created, an operator suspends one or lets
it go on, and a use of a key is recorded. -/
inductive KeyEvent where
  | clock (now : Date)
  | application (row : ApplicationRecord)
  | status (applicationId : Uuid) (status : ApplicationStatus)
  | touched (apiKeyId : Uuid) (now : Date)

def outside (d : Registry) : KeyEvent → Option Registry
  | .clock now => if d.now ≤ now then some { d with now } else none
  | .application row => (d.applications.insert? row).map fun applications => { d with applications }
  | .status a status => some { d with
      applications := (d.applications.updateAt a (fun _ => true) (fun r => { r with status })
        fun _ => rfl).2 }
  | .touched k now =>
    if (k, now) ∈ d.touches then
      some { ApiKeyRepository.touchLastUsed k now d with touches := d.touches.erase (k, now) }
    else none

@[reducible] def keyring (keying : Keying) : Machine keyOperations where
  World := Registry
  Choice := KeyChoice
  Request := KeyRequest
  Result := KeyResult
  Event := KeyEvent
  exec := exec keying
  program := KeyRequest.program keying
  outside := outside

end Tenancy

end NotificationPlatform
