import NotificationPlatform.Authentication.Service

/-!
# Logins side by side

Any number of logins run at their statements beside a clock that moves on. What a login may do next
depends on the row it read and on what it made of it, and no operation changes who an address
belongs to.
-/

namespace NotificationPlatform

namespace Authentication

open Interleaving Relational AuthenticationService

/-- The clock moves on, by milliseconds. -/
inductive Elapse where
  | milliseconds (n : Nat)

@[reducible] def loginMachine (credentials : Credentials) (lifetimes : SessionLifetimes) :
    Machine authentication where
  World := Directory
  Choice := AuthChoice
  Request := LoginInput
  Result := Except DomainError EstablishedSession
  Event := Elapse
  exec := exec credentials
  program input := (login credentials lifetimes input).run
  outside d
    | .milliseconds n => some { d with now := d.now + n }

/-! ## The stages of a login -/

/-- How far a login has come. -/
inductive Part where
  | starting
  /-- It has read the row, and not the clock. -/
  | found (user : Option UserRecord)
  /-- Neither the status nor a lock of the row kept it from the password. -/
  | admitted (user : UserRecord) (now : Date)
  /-- The password was wrong. -/
  | mistaken (user : UserRecord) (now : Date)
  /-- The password was right. -/
  | signedIn (user : UserRecord)
  | refused

structure Stage where
  input : LoginInput
  part : Part

/-- The row a failed attempt will be recorded on. -/
def Part.row? : Part → Option UserRecord
  | .found user => user
  | .admitted user _ | .mistaken user _ => some user
  | _ => none

/-- The row and the time a lock is decided from. -/
def Part.clocked? : Part → Option (UserRecord × Date)
  | .admitted user now | .mistaken user now => some (user, now)
  | _ => none

/-- The operations after a right password. -/
def FollowsSignIn (user : UserRecord) : AuthOp → Prop
  | .recordSuccessfulLogin u _ => u = user.id
  | .findOrganizationById _ | .clockNow | .generateSessionToken | .insertSession _ => True
  | _ => False

def loginStages : Typestate authentication where
  Phase := Stage
  Allows q o := match q.part with
    | .starting => o = .findByEmail q.input.email
    | .found _ => o = .clockNow
    | .admitted user _ => o = .isPasswordValid user.passwordHash q.input.password
    | .mistaken user now => o = .recordFailedLogin user.id (lockUntil user now)
    | .signedIn user => FollowsSignIn user o
    | .refused => o = .hashPassword q.input.password
  advance q o r := { q with part := match q.part, o, r with
    | .starting, .findByEmail _, user => .found user
    | .found (some user), .clockNow, now =>
      if user.status = .ACTIVE ∧ isLocked user now = false then .admitted user now else .refused
    | .admitted user now, .isPasswordValid _ _, isPasswordCorrect =>
      if isPasswordCorrect then .signedIn user else .mistaken user now
    | .signedIn user, _, _ => .signedIn user
    | _, _, _ => .refused }

variable {credentials : Credentials} {lifetimes : SessionLifetimes}

theorem conforms_signIn {A : (o : AuthOp) → o.Ret → Prop} {input input' : LoginInput}
    {user : UserRecord} {now : Date} :
    Conforms loginStages A ⟨input, .signedIn user⟩
      (signIn credentials lifetimes user input' now).run fun _ _ => True := by
  refine .call rfl fun _ _ => ?_
  refine .call trivial fun organization _ => ?_
  cases organization with
  | none => trivial
  | some organization =>
    refine .call trivial fun _ _ => ?_
    refine .call trivial fun _ _ => ?_
    refine .call trivial fun _ _ => ?_
    trivial

theorem conforms_login {A : (o : AuthOp) → o.Ret → Prop} (input : LoginInput) :
    Conforms loginStages A ⟨input, .starting⟩ (login credentials lifetimes input).run
      fun _ _ => True := by
  refine .call rfl fun found _ => ?_
  refine .call rfl fun now _ => ?_
  cases found with
  | none => exact .call rfl fun _ _ => trivial
  | some user =>
    -- after the clock the login is admitted or refused, as the row says
    change Conforms loginStages A ⟨input, if user.status = .ACTIVE ∧ isLocked user now = false then
      .admitted user now else .refused⟩ (ExceptT.run (ite _ _ _)) _
    by_cases hstatus : user.status = .ACTIVE
    · rw [if_neg (not_not.2 hstatus)]
      by_cases hlocked : isLocked user now = true
      · rw [if_pos hlocked]
        trivial
      · rw [if_neg hlocked, if_pos ⟨hstatus, Bool.eq_false_iff.2 hlocked⟩]
        refine .call rfl fun isPasswordCorrect _ => ?_
        cases isPasswordCorrect with
        | true => exact conforms_signIn
        | false => exact .call rfl fun _ _ => trivial
    · rw [if_pos hstatus]
      trivial

/-- Every login keeps to its stages. -/
def loginDiscipline (credentials : Credentials) (lifetimes : SessionLifetimes) :
    Discipline (loginMachine credentials lifetimes) where
  toTypestate := loginStages
  initial input := ⟨input, .starting⟩
  Answers _ _ := True
  Returns _ _ _ := True
  answers_exec _ := trivial
  conforms := conforms_login

/-- The stage of a login. -/
def stage (s : System (loginMachine credentials lifetimes)) (i : Nat) : Option Stage :=
  (loginDiscipline credentials lifetimes).phase s i

theorem after_input (q : Stage) (history : List (Performed authentication)) :
    (loginStages.after q history).input = q.input := by
  induction history with
  | nil => rfl
  | cons p older ih => exact ih

/-- The login a thread is at some stage of is the one it was started for. -/
theorem requestOf_stage {s : System (loginMachine credentials lifetimes)} {i : Nat} {q : Stage}
    (h : stage s i = some q) : s.requestOf i = some q.input := by
  obtain ⟨t, ht, rfl⟩ := Option.map_eq_some_iff.1 h
  simp only [System.requestOf, ht, Option.map_some]
  exact congrArg some (after_input ⟨t.request, .starting⟩ (s.history i)).symm

/-! ## What an operation does -/

/-- Whose address it is, and what the password is checked against. -/
def identify (credentials : Credentials) (email : String) (d : Directory) :
    Option (Identifier × String) :=
  (UserRepository.findByEmail credentials email d).map fun r => (r.id, r.passwordHash)

variable {d d' : Directory} {o : AuthOp} {c : AuthChoice} {r : o.Ret}

/-- What an operation of a login makes of the rows of users. -/
inductive Rewrites (d : Directory) : AuthOp → Directory → Prop
  | aside {o : AuthOp} {d' : Directory} (h : d'.users = d.users)
    (hfailed : ∀ u lockUntil, o ≠ .recordFailedLogin u lockUntil) : Rewrites d o d'
  | failed (u : Identifier) (lockUntil : Option Date) :
    Rewrites d (.recordFailedLogin u lockUntil) (UserRepository.recordFailedLogin u lockUntil d)
  | successful (u : Identifier) (at' : Date) :
    Rewrites d (.recordSuccessfulLogin u at') (UserRepository.recordSuccessfulLogin u at' d)

theorem insert_users {input : InsertInput} {id id' : Identifier}
    (h : UserSessionRepository.insert input id d = some (id', d')) :
    d'.users = d.users ∧ d'.now = d.now := by
  simp only [UserSessionRepository.insert] at h
  split at h
  · obtain ⟨userSessions, -, heq⟩ := Option.map_eq_some_iff.1 h
    cases heq
    exact ⟨rfl, rfl⟩
  · cases h

theorem exec_rewrites (h : exec credentials d o c = some (r, d')) :
    Rewrites d o d' ∧ d'.now = d.now := by
  cases o with
  | recordFailedLogin u lockUntil =>
    cases h
    exact ⟨.failed u lockUntil, rfl⟩
  | recordSuccessfulLogin u at' =>
    cases h
    exact ⟨.successful u at', rfl⟩
  | generateSessionToken =>
    cases c with
    | token =>
      cases h
      exact ⟨.aside rfl nofun, rfl⟩
    | _ => cases h
  | insertSession input =>
    cases c with
    | identifier id =>
      obtain ⟨husers, hnow⟩ := insert_users h
      exact ⟨.aside husers nofun, hnow⟩
    | _ => cases h
  | _ =>
    cases h
    exact ⟨.aside rfl nofun, rfl⟩

/-- A change of the row of one user that keeps who it is leaves every address where it was. -/
theorem identify_update {u : Identifier} (f : UserRecord → UserRecord)
    (hf : ∀ r, key (f r) = key r) (husers : d'.users = (d.users.updateAt u (fun _ => true) f hf).2)
    (hemail : ∀ r, (f r).email = r.email) (hhash : ∀ r, (f r).passwordHash = r.passwordHash)
    (email : String) : identify credentials email d' = identify credentials email d := by
  have hfound : UserRepository.findByEmail credentials email d' =
      (UserRepository.findByEmail credentials email d).map fun r =>
        if key r = u && true then f r else r := by
    rw [UserRepository.findByEmail, husers]
    exact Table.rows_find?_update _ _ _ hf fun r _ => by simp only [hemail]
  rw [identify, identify, hfound, Option.map_map]
  refine congrArg (Option.map · _) (funext fun r => ?_)
  simp only [Function.comp]
  split
  · exact congrArg₂ Prod.mk (hf r) (hhash r)
  · rfl

theorem Rewrites.identify (h : Rewrites d o d') (email : String) :
    identify credentials email d' = identify credentials email d := by
  cases h with
  | aside h _ => rw [Authentication.identify, UserRepository.findByEmail, h]; rfl
  | failed u lockUntil =>
    exact identify_update (fun r => { r with
      failedLoginCount := r.failedLoginCount + 1
      lockedUntil := lockUntil }) (fun _ => rfl) rfl (fun _ => rfl) (fun _ => rfl) email
  | successful u at' =>
    exact identify_update (fun r => { r with
      lastLoginAt := some at'
      failedLoginCount := 0
      lockedUntil := none }) (fun _ => rfl) rfl (fun _ => rfl) (fun _ => rfl) email

variable {u : Identifier} {row : UserRecord}

/-- The row of a user, after an operation that records nothing on it. -/
theorem Rewrites.find? (h : Rewrites d o d') (hfailed : ∀ L, o ≠ .recordFailedLogin u L)
    (hsuccessful : ∀ t, o ≠ .recordSuccessfulLogin u t) :
    d'.users.find? u = d.users.find? u := by
  cases h with
  | aside h _ => rw [h]
  | failed v L =>
    have hv : u ≠ v := fun heq => hfailed L (heq ▸ rfl)
    simp only [UserRepository.recordFailedLogin]
    exact Table.find?_updateAt_other _ hv _ _ _
  | successful v t =>
    have hv : u ≠ v := fun heq => hsuccessful t (heq ▸ rfl)
    simp only [UserRepository.recordSuccessfulLogin]
    exact Table.find?_updateAt_other _ hv _ _ _

/-- The row of a user a failed attempt is recorded on. -/
theorem find?_recordFailedLogin (h : d.users.find? u = some row) (lockUntil : Option Date) :
    (UserRepository.recordFailedLogin u lockUntil d).users.find? u = some { row with
      failedLoginCount := row.failedLoginCount + 1
      lockedUntil := lockUntil } := by
  simp [UserRepository.recordFailedLogin, Table.find?_updateAt_self, h]

/-- The row an address finds is the row of its user. -/
theorem find?_of_findByEmail {email : String}
    (h : UserRepository.findByEmail credentials email d = some row) :
    d.users.find? row.id = some row := Table.find?_key (List.mem_of_find?_eq_some h)

end Authentication

end NotificationPlatform
