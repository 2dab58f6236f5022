import NotificationPlatform.Domain.Provider
import NotificationPlatform.Interleaving.Raising
import NotificationPlatform.Interleaving.System
import NotificationPlatform.Relational.Table

/-!
# Signing in to the dashboard

`packages/composition/src/authentication/authentication.service.ts` with the statements of
`UserRepository`, `UserSessionRepository` and `OrganizationRepository` it uses. Every statement,
every read of the clock and every check of a password is one operation. The password hash, the hash
of a session token and the database's `lower` are those of a `Credentials`.
-/

namespace NotificationPlatform

namespace Authentication

open Interleaving Relational

/-- A `uuid` column. -/
abbrev Identifier := Nat

abbrev Buffer := List UInt8

inductive UserRole where
  | OWNER
  | ADMIN
  | MEMBER
deriving DecidableEq, Repr

inductive UserStatus where
  | ACTIVE
  | DISABLED
deriving DecidableEq, Repr

structure UserRecord where
  id : Identifier
  organizationId : Identifier
  email : String
  passwordHash : String
  name : String
  role : UserRole
  status : UserStatus
  failedLoginCount : Nat
  lockedUntil : Option Date
  lastLoginAt : Option Date
deriving DecidableEq

structure OrganizationRecord where
  id : Identifier
  name : String
  slug : String
deriving DecidableEq

/-- A row of `user_sessions`. -/
structure UserSessionRecord where
  id : Identifier
  userId : Identifier
  tokenHash : Buffer
  absoluteExpiresAt : Date
  idleExpiresAt : Date
  ipAddress : Option String
  userAgent : Option String
  lastUsedAt : Date
  revokedAt : Option Date
deriving DecidableEq

instance : Keyed UserRecord Identifier := ⟨UserRecord.id⟩

instance : Keyed OrganizationRecord Identifier := ⟨OrganizationRecord.id⟩

instance : Keyed UserSessionRecord Identifier := ⟨UserSessionRecord.id⟩

@[simp] theorem key_user (r : UserRecord) : key r = r.id := rfl

@[simp] theorem key_organization (r : OrganizationRecord) : key r = r.id := rfl

@[simp] theorem key_userSession (r : UserSessionRecord) : key r = r.id := rfl

/-- What the requests share. -/
structure Directory where
  users : Table UserRecord
  organizations : Table OrganizationRecord
  userSessions : Table UserSessionRecord
  /-- The clock of the processes. -/
  now : Date

/-- What the service computes with and does not define. -/
structure Credentials where
  /-- The database's `lower`. -/
  lower : String → String
  /-- `verify` of Argon2; a hash it cannot read verifies nothing. -/
  isPasswordValid : String → String → Bool
  hashSessionToken : String → Buffer

/-! ## Statements -/

section Statements

variable (credentials : Credentials)

namespace UserRepository

/-- Email is compared case-insensitively to match the unique index. -/
def findByEmail (email : String) (d : Directory) : Option UserRecord :=
  d.users.rows.find? fun r => credentials.lower r.email = credentials.lower email

def recordSuccessfulLogin (userId : Identifier) (at' : Date) (d : Directory) : Directory :=
  { d with users := (d.users.updateAt userId (fun _ => true) (fun r => { r with
      lastLoginAt := some at'
      failedLoginCount := 0
      lockedUntil := none }) fun _ => rfl).2 }

/-- Increments in the database; the lock is written as it was decided. -/
def recordFailedLogin (userId : Identifier) (lockUntil : Option Date) (d : Directory) : Directory :=
  { d with users := (d.users.updateAt userId (fun _ => true) (fun r => { r with
      failedLoginCount := r.failedLoginCount + 1
      lockedUntil := lockUntil }) fun _ => rfl).2 }

end UserRepository

def OrganizationRepository.findById (id : Identifier) (d : Directory) : Option OrganizationRecord :=
  d.organizations.find? id

namespace UserSessionRepository

structure InsertInput where
  userId : Identifier
  tokenHash : Buffer
  absoluteExpiresAt : Date
  idleExpiresAt : Date
  ipAddress : Option String
  userAgent : Option String

/-- The row an insert writes under a generated identifier. -/
def InsertInput.row (input : InsertInput) (id : Identifier) (now : Date) : UserSessionRecord where
  id := id
  userId := input.userId
  tokenHash := input.tokenHash
  absoluteExpiresAt := input.absoluteExpiresAt
  idleExpiresAt := input.idleExpiresAt
  ipAddress := input.ipAddress
  userAgent := input.userAgent
  lastUsedAt := now
  revokedAt := none

/-- `user_sessions_token_hash_unique` and the foreign key refuse a row. -/
def insert (input : InsertInput) (id : Identifier) (d : Directory) :
    Option (Identifier × Directory) :=
  if (d.users.find? input.userId).isSome ∧
      ∀ r ∈ d.userSessions.rows, r.tokenHash ≠ input.tokenHash then
    (d.userSessions.insert? (input.row id d.now)).map fun userSessions =>
      (id, { d with userSessions })
  else none

structure SessionWithUser where
  sessionId : Identifier
  userId : Identifier
  organizationId : Identifier
  organizationName : String
  organizationSlug : String
  email : String
  name : String
  role : UserRole
  status : UserStatus
  idleExpiresAt : Date
  absoluteExpiresAt : Date
deriving DecidableEq

/-- A session with its user and the user's organization. -/
def withUser (s : UserSessionRecord) (d : Directory) : Option SessionWithUser := do
  let user ← d.users.find? s.userId
  let organization ← d.organizations.find? user.organizationId
  return {
    sessionId := s.id
    userId := user.id
    organizationId := user.organizationId
    organizationName := organization.name
    organizationSlug := organization.slug
    email := user.email
    name := user.name
    role := user.role
    status := user.status
    idleExpiresAt := s.idleExpiresAt
    absoluteExpiresAt := s.absoluteExpiresAt }

/-- Both expiry bounds are applied in the query. -/
def findActiveByTokenHash (tokenHash : Buffer) (now : Date) (d : Directory) :
    Option SessionWithUser :=
  (d.userSessions.rows.find? fun s => s.tokenHash = tokenHash ∧ s.revokedAt = none ∧
    s.idleExpiresAt > now ∧ s.absoluteExpiresAt > now).bind fun s => withUser s d

/-- The idle window slides on use, but the absolute expiry never moves. -/
def touch (sessionId : Identifier) (idleExpiresAt now : Date) (d : Directory) : Directory :=
  { d with userSessions := (d.userSessions.updateAt sessionId (fun _ => true)
      (fun r => { r with idleExpiresAt := idleExpiresAt, lastUsedAt := now }) fun _ => rfl).2 }

def revoke (sessionId : Identifier) (now : Date) (d : Directory) : Directory :=
  { d with userSessions := (d.userSessions.updateAt sessionId (fun r => r.revokedAt = none)
      (fun r => { r with revokedAt := some now }) fun _ => rfl).2 }

end UserSessionRepository

end Statements

export UserSessionRepository (SessionWithUser InsertInput)

/-! ## Operations -/

inductive AuthOp where
  | clockNow
  | findByEmail (email : String)
  /-- A hash that is computed for the time it takes. -/
  | hashPassword (password : String)
  | isPasswordValid (storedHash password : String)
  | recordFailedLogin (userId : Identifier) (lockUntil : Option Date)
  | recordSuccessfulLogin (userId : Identifier) (at' : Date)
  | findOrganizationById (id : Identifier)
  | generateSessionToken
  | insertSession (input : InsertInput)
  | findActiveByTokenHash (tokenHash : Buffer) (now : Date)
  | touch (sessionId : Identifier) (idleExpiresAt now : Date)
  | revoke (sessionId : Identifier) (now : Date)

@[reducible] def AuthOp.Ret : AuthOp → Type
  | .clockNow => Date
  | .findByEmail _ => Option UserRecord
  | .hashPassword _ => Unit
  | .isPasswordValid _ _ => Bool
  | .recordFailedLogin _ _ => Unit
  | .recordSuccessfulLogin _ _ => Unit
  | .findOrganizationById _ => Option OrganizationRecord
  | .generateSessionToken => String
  | .insertSession _ => Identifier
  | .findActiveByTokenHash _ _ => Option SessionWithUser
  | .touch _ _ _ => Unit
  | .revoke _ _ => Unit

abbrev authentication : Interface := ⟨AuthOp, AuthOp.Ret⟩

/-- What the surroundings choose: a token, or an identifier the database generates. -/
inductive AuthChoice where
  | nothing
  | token (token : String)
  | identifier (id : Identifier)

/-- Runs one operation. -/
def exec (credentials : Credentials) (d : Directory) :
    (o : AuthOp) → AuthChoice → Option (o.Ret × Directory)
  | .clockNow, _ => some (d.now, d)
  | .findByEmail email, _ => some (UserRepository.findByEmail credentials email d, d)
  | .hashPassword _, _ => some ((), d)
  | .isPasswordValid storedHash password, _ =>
    some (credentials.isPasswordValid storedHash password, d)
  | .recordFailedLogin u lockUntil, _ => some ((), UserRepository.recordFailedLogin u lockUntil d)
  | .recordSuccessfulLogin u at', _ => some ((), UserRepository.recordSuccessfulLogin u at' d)
  | .findOrganizationById id, _ => some (OrganizationRepository.findById id d, d)
  | .generateSessionToken, .token token => some (token, d)
  | .generateSessionToken, _ => none
  | .insertSession input, .identifier id => UserSessionRepository.insert input id d
  | .insertSession _, _ => none
  | .findActiveByTokenHash tokenHash now, _ =>
    some (UserSessionRepository.findActiveByTokenHash tokenHash now d, d)
  | .touch s idleExpiresAt now, _ => some ((), UserSessionRepository.touch s idleExpiresAt now d)
  | .revoke s now, _ => some ((), UserSessionRepository.revoke s now d)

/-! ## The service -/

structure DomainError where
  code : String
  message : String
deriving DecidableEq

/-- A request, or part of one. -/
abbrev Service := Raising authentication DomainError

def perform (o : AuthOp) : Service o.Ret := Raising.call (I := authentication) o

structure SessionLifetimes where
  sessionAbsoluteLifetimeSeconds : Nat
  sessionIdleLifetimeSeconds : Nat

structure AuthenticatedPrincipal where
  userId : Identifier
  organizationId : Identifier
  organizationName : String
  organizationSlug : String
  email : String
  name : String
  role : UserRole
  sessionId : Identifier
deriving DecidableEq

structure EstablishedSession where
  token : String
  expiresAt : Date
  principal : AuthenticatedPrincipal
deriving DecidableEq

structure LoginInput where
  email : String
  password : String
  ipAddress : Option String
  userAgent : Option String
deriving DecidableEq

namespace AuthenticationService

def MAXIMUM_FAILED_LOGINS : Nat := 10

def LOCKOUT_MINUTES : Nat := 15

/-- How long a lock lasts, in milliseconds. -/
def lockoutMilliseconds : Int := LOCKOUT_MINUTES * 60000

variable (credentials : Credentials) (lifetimes : SessionLifetimes)

def absoluteExpiry (now : Date) : Date := now + lifetimes.sessionAbsoluteLifetimeSeconds * 1000

def idleExpiry (now : Date) : Date := now + lifetimes.sessionIdleLifetimeSeconds * 1000

def establishSession (user : UserRecord) (organization : OrganizationRecord)
    (ipAddress userAgent : Option String) : Service EstablishedSession := do
  let now ← perform .clockNow
  let token ← perform .generateSessionToken
  let absoluteExpiresAt := absoluteExpiry lifetimes now
  let idleExpiresAt := idleExpiry lifetimes now
  let sessionId ← perform (.insertSession {
    userId := user.id
    tokenHash := credentials.hashSessionToken token
    absoluteExpiresAt
    idleExpiresAt := if idleExpiresAt > absoluteExpiresAt then absoluteExpiresAt else idleExpiresAt
    ipAddress
    userAgent })
  return {
    token
    expiresAt := absoluteExpiresAt
    principal := {
      userId := user.id
      organizationId := organization.id
      organizationName := organization.name
      organizationSlug := organization.slug
      email := user.email
      name := user.name
      role := user.role
      sessionId } }

def logout (sessionId : Identifier) : Service Unit := do
  let now ← perform .clockNow
  perform (.revoke sessionId now)

def invalidCredentials : DomainError :=
  ⟨"invalid_credentials", "The email address or password is incorrect."⟩

def accountDisabled : DomainError := ⟨"account_disabled", "This account has been disabled."⟩

def accountLocked : DomainError :=
  ⟨"account_locked", "Too many failed attempts. Try again later."⟩

/-- The lock a failed attempt on the row decides on. -/
def lockUntil (user : UserRecord) (now : Date) : Option Date :=
  if user.failedLoginCount + 1 ≥ MAXIMUM_FAILED_LOGINS then some (now + lockoutMilliseconds)
  else none

/-- The row has a lock that lasts beyond `now`. -/
def isLocked (user : UserRecord) (now : Date) : Bool := user.lockedUntil.any (· > now)

/-- What follows when the password was right. -/
def signIn (user : UserRecord) (input : LoginInput) (now : Date) : Service EstablishedSession := do
  perform (.recordSuccessfulLogin user.id now)
  let organization ← perform (.findOrganizationById user.organizationId)
  match organization with
  | none => throw invalidCredentials
  | some organization =>
    establishSession credentials lifetimes user organization input.ipAddress input.userAgent

def login (input : LoginInput) : Service EstablishedSession := do
  let user ← perform (.findByEmail input.email)
  let now ← perform .clockNow
  match user with
  | none =>
    perform (.hashPassword input.password)
    throw invalidCredentials
  | some user =>
    if user.status ≠ .ACTIVE then throw accountDisabled
    else if isLocked user now then throw accountLocked
    else
      let isPasswordCorrect ← perform (.isPasswordValid user.passwordHash input.password)
      if isPasswordCorrect then signIn credentials lifetimes user input now
      else
        perform (.recordFailedLogin user.id (lockUntil user now))
        throw invalidCredentials

def SessionWithUser.principal (found : SessionWithUser) : AuthenticatedPrincipal where
  userId := found.userId
  organizationId := found.organizationId
  organizationName := found.organizationName
  organizationSlug := found.organizationSlug
  email := found.email
  name := found.name
  role := found.role
  sessionId := found.sessionId

/-- Resolves a session cookie to its principal and slides the idle window. -/
def resolveSession (token : String) : Service (Option AuthenticatedPrincipal) := do
  let now ← perform .clockNow
  let found ← perform (.findActiveByTokenHash (credentials.hashSessionToken token) now)
  match found with
  | none => return none
  | some found =>
    if found.status ≠ .ACTIVE then return none
    else
      let nextIdleExpiry := idleExpiry lifetimes now
      let cappedIdleExpiry :=
        if nextIdleExpiry > found.absoluteExpiresAt then found.absoluteExpiresAt else nextIdleExpiry
      perform (.touch found.sessionId cappedIdleExpiry now)
      return some (SessionWithUser.principal found)

end AuthenticationService

namespace Sample

/-- A database whose `lower` changes nothing, and passwords that are stored as they are. -/
def credentials : Credentials where
  lower := id
  isPasswordValid storedHash password := storedHash == password
  hashSessionToken token := token.toUTF8.toList

def lifetimes : SessionLifetimes := ⟨604800, 86400⟩

def user (failedLoginCount : Nat) (lockedUntil : Option Date) : UserRecord where
  id := 1
  organizationId := 1
  email := "maria@example.com"
  passwordHash := "correct horse"
  name := "Maria"
  role := .OWNER
  status := .ACTIVE
  failedLoginCount := failedLoginCount
  lockedUntil := lockedUntil
  lastLoginAt := none

def organization : OrganizationRecord := ⟨1, "Shop", "shop"⟩

/-- The users of a platform with one. -/
def only (user : UserRecord) : Table UserRecord := ⟨[user], List.nodup_singleton _⟩

/-- The directory of these users when the clock starts. -/
def directory (users : Table UserRecord) : Directory :=
  ⟨users, ⟨[organization], List.nodup_singleton _⟩, .empty, 0⟩

/-- A guess at the password. -/
def input : LoginInput := ⟨"maria@example.com", "battery staple", none, none⟩

end Sample

end Authentication

end NotificationPlatform
