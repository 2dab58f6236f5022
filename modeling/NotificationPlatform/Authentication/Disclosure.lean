import NotificationPlatform.Authentication.Service
import NotificationPlatform.Interleaving.Alone

/-!
# What a refused login says

A login with a wrong password is refused. On an account that is disabled or locked it is refused
before the password is looked at, with an error of its own, so two directories of which one lacks
the account are told apart exactly by an account in one of these two states (`login_undisclosed`).
-/

namespace NotificationPlatform

namespace Authentication

open Interleaving Relational

namespace AuthenticationService

variable {credentials : Credentials} {lifetimes : SessionLifetimes} {input : LoginInput}
  {user : UserRecord} {d d' : Directory} {c : AuthChoice}

/-- The login ends with the error. -/
def Refused (credentials : Credentials) (lifetimes : SessionLifetimes) (input : LoginInput)
    (c : AuthChoice) (d : Directory) (error : DomainError) : Prop :=
  (login credentials lifetimes input).run.Returns (exec credentials) c d fun result _ =>
    result = .error error

/-- What a wrong password for the account is refused with. -/
def refusal (user : UserRecord) (now : Date) : DomainError :=
  if user.status ≠ .ACTIVE then accountDisabled
  else if isLocked user now then accountLocked
  else invalidCredentials

theorem refused_absent (h : UserRepository.findByEmail credentials input.email d = none) :
    Refused credentials lifetimes input c d invalidCredentials := by
  refine Raising.returns_call.2 ⟨none, d, by simp [exec, h], ?_⟩
  refine Raising.returns_call.2 ⟨d.now, d, rfl, ?_⟩
  refine Raising.returns_call.2 ⟨(), d, rfl, ?_⟩
  exact Prog.returns_done.2 rfl

theorem refused_present (h : UserRepository.findByEmail credentials input.email d = some user)
    (hwrong : credentials.isPasswordValid user.passwordHash input.password = false) :
    Refused credentials lifetimes input c d (refusal user d.now) := by
  refine Raising.returns_call.2 ⟨some user, d, by simp [exec, h], ?_⟩
  refine Raising.returns_call.2 ⟨d.now, d, rfl, ?_⟩
  simp only [refusal]
  split
  · exact Prog.returns_done.2 rfl
  · split
    · exact Prog.returns_done.2 rfl
    · refine Raising.returns_call.2 ⟨false, d, by simp [exec, hwrong], ?_⟩
      refine Raising.returns_call.2 ⟨(), _, rfl, ?_⟩
      exact Prog.returns_done.2 rfl

theorem refusal_eq_iff {now : Date} : refusal user now = invalidCredentials ↔
    user.status = .ACTIVE ∧ isLocked user now = false := by
  have hdisabled : accountDisabled ≠ invalidCredentials := by decide
  have hlocked : accountLocked ≠ invalidCredentials := by decide
  unfold refusal
  split
  · rename_i hstatus
    simp [hdisabled, hstatus]
  · rename_i hstatus
    rw [not_not] at hstatus
    split
    · rename_i h
      simp [hlocked, h]
    · rename_i h
      simp [hstatus, h]

/-- Two directories that differ in the row of one address: there is none in the first, and in the
second it is the row of `user`. -/
structure OneRow (credentials : Credentials) (email : String) (user : UserRecord)
    (d d' : Directory) : Prop where
  absent : ∀ r ∈ d.users.rows, credentials.lower r.email ≠ credentials.lower email
  present : credentials.lower user.email = credentials.lower email
  others : ∀ r, r ∈ d'.users.rows ↔ r = user ∨ r ∈ d.users.rows
  organizations : d'.organizations = d.organizations
  userSessions : d'.userSessions = d.userSessions
  now : d'.now = d.now

theorem OneRow.findByEmail_absent {email : String} (h : OneRow credentials email user d d') :
    UserRepository.findByEmail credentials email d = none := by
  refine List.find?_eq_none.2 fun r hr => ?_
  simpa using h.absent r hr

theorem OneRow.findByEmail_present {email : String} (h : OneRow credentials email user d d') :
    UserRepository.findByEmail credentials email d' = some user := by
  have hmem : user ∈ d'.users.rows := (h.others user).2 (.inl rfl)
  have hsome : (UserRepository.findByEmail credentials email d').isSome = true :=
    List.find?_isSome.2 ⟨user, hmem, by simpa using h.present⟩
  obtain ⟨r, hr⟩ := Option.isSome_iff_exists.1 hsome
  have hlower : credentials.lower r.email = credentials.lower email := by
    simpa using List.find?_some hr
  rcases (h.others r).1 (List.mem_of_find?_eq_some hr) with rfl | hmem
  · exact hr
  · exact absurd hlower (h.absent r hmem)

/-- A login with a wrong password ends with the same error in the directory that has the account and
in the one that lacks it exactly when the account is active and not locked. -/
theorem login_undisclosed (hrow : OneRow credentials input.email user d d')
    (hwrong : credentials.isPasswordValid user.passwordHash input.password = false)
    (c c' : AuthChoice) :
    ∃ error error', Refused credentials lifetimes input c d error ∧
      Refused credentials lifetimes input c' d' error' ∧
      (error = error' ↔ user.status = .ACTIVE ∧ isLocked user d'.now = false) := by
  refine ⟨_, _, refused_absent hrow.findByEmail_absent,
    refused_present hrow.findByEmail_present hwrong, ?_⟩
  rw [eq_comm, refusal_eq_iff]

theorem oneRow_sample (user : UserRecord) (h : user.email = Sample.input.email) :
    OneRow Sample.credentials Sample.input.email user (Sample.directory .empty)
      (Sample.directory (Sample.only user)) where
  absent r hr := absurd hr List.not_mem_nil
  present := congrArg Sample.credentials.lower h
  others r := by simp [Sample.directory, Sample.only, Table.empty]
  organizations := rfl
  userSessions := rfl
  now := rfl

theorem login_undisclosed_active : ∃ error error',
    Refused Sample.credentials Sample.lifetimes Sample.input .nothing (Sample.directory .empty)
        error ∧
      Refused Sample.credentials Sample.lifetimes Sample.input .nothing
        (Sample.directory (Sample.only (Sample.user 3 none))) error' ∧
      (error = error' ↔
        (Sample.user 3 none).status = .ACTIVE ∧ isLocked (Sample.user 3 none) 0 = false) :=
  login_undisclosed (oneRow_sample (Sample.user 3 none) rfl) (by decide) .nothing .nothing

/-- An account that is locked is told from none. -/
theorem login_undisclosed_fails : ¬ ∀ (credentials : Credentials) (lifetimes : SessionLifetimes)
      (input : LoginInput) (user : UserRecord) (d d' : Directory) (c c' : AuthChoice),
    OneRow credentials input.email user d d' →
    credentials.isPasswordValid user.passwordHash input.password = false →
    ∃ error, Refused credentials lifetimes input c d error ∧
      Refused credentials lifetimes input c' d' error := by
  intro h
  have hrow := oneRow_sample (Sample.user 10 (some 900000)) rfl
  obtain ⟨error, habsent, hpresent⟩ := h Sample.credentials Sample.lifetimes Sample.input
    (Sample.user 10 (some 900000)) _ _ .nothing .nothing hrow (by decide)
  obtain ⟨_, _, hleft, hleft'⟩ := habsent.both (refused_absent hrow.findByEmail_absent)
  obtain ⟨_, _, hright, hright'⟩ :=
    hpresent.both (refused_present hrow.findByEmail_present (by decide))
  have herror : error = invalidCredentials := Except.error.inj (hleft.symm.trans hleft')
  have herror' : error = accountLocked := Except.error.inj (hright.symm.trans hright')
  exact absurd (herror.symm.trans herror') (by decide)

end AuthenticationService

end Authentication

end NotificationPlatform
