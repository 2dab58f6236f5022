import Mathlib.Algebra.Order.Group.Unbundled.Basic
import Mathlib.Tactic.Tauto
import NotificationPlatform.Authentication.Service
import NotificationPlatform.Interleaving.Alone

/-!
# The window of a session

A session is established, resolved any number of times and revoked, one request after another. Its
row holds two instants, and each accepted request rewrites one of them. What they say of a request
is what the history says of it: `Standing` ties the row to the requests before, and
`session_window` reads the answer to the next one off the history alone.
-/

namespace NotificationPlatform

namespace Authentication

open Interleaving Relational

namespace AuthenticationService

/-! ## Histories -/

/-- The row of a user is there, and is who the session was established for. -/
structure Knows (user : UserRecord) (organization : OrganizationRecord) (d : Directory) : Prop where
  user : ∃ row, d.users.find? user.id = some row ∧ row.organizationId = organization.id ∧
    row.email = user.email ∧ row.name = user.name ∧ row.role = user.role
  organization : d.organizations.find? organization.id = some organization

/-- The user may sign in. -/
def IsActive (user : UserRecord) (d : Directory) : Prop :=
  ∃ row, d.users.find? user.id = some row ∧ row.status = .ACTIVE

/-- A request on the session. -/
inductive Request where
  | resolveSession (answer : Option AuthenticatedPrincipal)
  | logout

/-- A request and the time it read from the clock. -/
structure Served where
  time : Date
  request : Request

/-- The time of a use that was accepted. -/
def Served.accepted? : Served → Option Date
  | ⟨time, .resolveSession (some _)⟩ => some time
  | _ => none

/-- The latest of the time a session was established and the last use that was accepted. -/
def lastUse (established : Date) (past : List Served) : Date :=
  match (past.filterMap Served.accepted?).getLast? with
  | none => established
  | some time => max established time

def IsRevoked (past : List Served) : Prop := ∃ served ∈ past, served.request = .logout

section

variable (credentials : Credentials) (lifetimes : SessionLifetimes) (user : UserRecord)
  (organization : OrganizationRecord) (session : EstablishedSession)

/-- One request at a time, by itself. -/
inductive Serves (t : Date) (d : Directory) : Request → Directory → Prop
  | resolveSession {answer : Option AuthenticatedPrincipal} {d' : Directory}
    (h : (resolveSession credentials lifetimes session.token).run.alone (exec credentials) .nothing
      { d with now := t } = some (.ok answer, d')) : Serves t d (.resolveSession answer) d'
  | logout {d' : Directory}
    (h : (logout session.principal.sessionId).run.alone (exec credentials) .nothing
      { d with now := t } = some (.ok (), d')) : Serves t d .logout d'

/-- What anything but a request on the session does: the row of the session, the names of its user
and the hash of its token stay. -/
structure Elsewhere (d d' : Directory) : Prop where
  row : d'.userSessions.find? session.principal.sessionId =
    d.userSessions.find? session.principal.sessionId
  unique : ∀ row ∈ d'.userSessions.rows,
    row.tokenHash = credentials.hashSessionToken session.token →
      row.id = session.principal.sessionId
  knows : Knows user organization d → Knows user organization d'
  now : d.now ≤ d'.now

/-- What came of a session, and the requests on it so far. -/
inductive History (established : Directory) : List Served → Directory → Prop
  | established : History established [] established
  | served {past : List Served} {d d' : Directory} {t : Date} {request : Request}
    (h : History established past d) (ht : d.now ≤ t)
    (hserves : Serves credentials lifetimes session t d request d') :
    History established (past ++ [⟨t, request⟩]) d'
  | elsewhere {past : List Served} {d d' : Directory} (h : History established past d)
    (helse : Elsewhere credentials user organization session d d') : History established past d'

/-- What a session of the user is resolved to. -/
def principalOf (sessionId : Identifier) : AuthenticatedPrincipal where
  userId := user.id
  organizationId := organization.id
  organizationName := organization.name
  organizationSlug := organization.slug
  email := user.email
  name := user.name
  role := user.role
  sessionId := sessionId

/-- The row of a session as its history says. -/
structure Standing (c : Date) (past : List Served) (d : Directory) (row : UserSessionRecord) :
    Prop where
  principal : session.principal = principalOf user organization session.principal.sessionId
  found : d.userSessions.find? session.principal.sessionId = some row
  userId : row.userId = user.id
  tokenHash : row.tokenHash = credentials.hashSessionToken session.token
  unique : ∀ other ∈ d.userSessions.rows,
    other.tokenHash = credentials.hashSessionToken session.token →
      other.id = session.principal.sessionId
  absolute : row.absoluteExpiresAt = absoluteExpiry lifetimes c
  idle : row.idleExpiresAt =
    min (idleExpiry lifetimes (lastUse c past)) (absoluteExpiry lifetimes c)
  revoked : row.revokedAt = none ↔ ¬ IsRevoked past
  knows : Knows user organization d
  used : lastUse c past ≤ d.now
  created : c ≤ d.now

/-- The history lets a request at time `t` pass. -/
def Accepts (c : Date) (past : List Served) (d : Directory) (t : Date) : Prop :=
  IsActive user d ∧ ¬ IsRevoked past ∧ t < c + lifetimes.sessionAbsoluteLifetimeSeconds * 1000 ∧
    t - lastUse c past < lifetimes.sessionIdleLifetimeSeconds * 1000

end

variable {credentials : Credentials} {lifetimes : SessionLifetimes} {user : UserRecord}
  {organization : OrganizationRecord} {session : EstablishedSession} {c t : Date}
  {past : List Served} {d d' : Directory} {row : UserSessionRecord}

/-! ## The history, one request longer -/

theorem lastUse_refused (h : Served.accepted? served = none) :
    lastUse c (past ++ [served]) = lastUse c past := by
  simp [lastUse, h]

theorem lastUse_accepted (h : Served.accepted? served = some t) (hc : c ≤ t) :
    lastUse c (past ++ [served]) = t := by
  simp [lastUse, h, hc]

theorem isRevoked_append {served : Served} :
    IsRevoked (past ++ [served]) ↔ IsRevoked past ∨ served.request = .logout := by
  simp only [IsRevoked, List.mem_append, List.mem_singleton]
  constructor
  · rintro ⟨other, hother | rfl, h⟩
    · exact .inl ⟨other, hother, h⟩
    · exact .inr h
  · rintro (⟨other, hother, h⟩ | h)
    · exact ⟨other, .inl hother, h⟩
    · exact ⟨served, .inr rfl, h⟩

/-! ## The statement that finds a session -/

/-- A search that selects rows of one key at most looks at the row of that key. -/
theorem rows_find?_eq {ρ κ : Type} [Keyed ρ κ] [DecidableEq κ] {table : Table ρ} {p : ρ → Bool}
    {k : κ} (h : ∀ r ∈ table.rows, p r = true → key r = k) :
    table.rows.find? p = (table.find? k).filter p := by
  cases hfound : table.rows.find? p with
  | some r =>
    have hp : p r = true := List.find?_some hfound
    have hmem : r ∈ table.rows := List.mem_of_find?_eq_some hfound
    rw [← h r hmem hp, Table.find?_key hmem, Option.filter_some, if_pos hp]
  | none =>
    refine (Option.filter_eq_none_iff.2 fun r hr => ?_).symm
    exact List.find?_eq_none.1 hfound r (Table.mem_of_find? hr)

/-- The row lets a request at time `t` pass. -/
def Live (row : UserSessionRecord) (t : Date) : Prop :=
  row.revokedAt = none ∧ row.idleExpiresAt > t ∧ row.absoluteExpiresAt > t

instance : Decidable (Live row t) := inferInstanceAs (Decidable (_ ∧ _ ∧ _))

theorem Standing.findActive
    (h : Standing credentials lifetimes user organization session c past d row) :
    UserSessionRepository.findActiveByTokenHash (credentials.hashSessionToken session.token) t d =
      if Live row t then UserSessionRepository.withUser row d else none := by
  have hrows : d.userSessions.rows.find? (fun s => decide
      (s.tokenHash = credentials.hashSessionToken session.token ∧ s.revokedAt = none ∧
        s.idleExpiresAt > t ∧ s.absoluteExpiresAt > t)) =
      if Live row t then some row else none := by
    rw [rows_find?_eq fun r hr hp => h.unique r hr (of_decide_eq_true hp).1, h.found,
      Option.filter_some]
    simp [h.tokenHash, Live]
  rw [UserSessionRepository.findActiveByTokenHash, hrows]
  split <;> rfl

/-- The session and user a live row is joined to. -/
theorem Knows.withUser (h : Knows user organization d) (hrow : row.userId = user.id) :
    ∃ found, UserSessionRepository.withUser row d = some found ∧ found.sessionId = row.id ∧
      SessionWithUser.principal found = principalOf user organization row.id ∧
      found.absoluteExpiresAt = row.absoluteExpiresAt ∧
      (found.status = .ACTIVE ↔ IsActive user d) := by
  obtain ⟨account, haccount, horganization, hemail, hname, hrole⟩ := h.user
  have hjoined : d.organizations.find? account.organizationId = some organization :=
    horganization ▸ h.organization
  have hid : account.id = user.id := Table.key_of_find? haccount
  refine ⟨_, by simp only [UserSessionRepository.withUser, hrow, haccount, hjoined,
    Option.bind_eq_bind, Option.bind_some]; rfl, rfl, ?_, rfl, ?_⟩
  · simp [SessionWithUser.principal, principalOf, horganization, hemail, hname, hrole, hid]
  · simp [IsActive, haccount]

/-! ## One request -/

theorem Standing.accepts_iff
    (h : Standing credentials lifetimes user organization session c past d row) :
    Accepts lifetimes user c past d t ↔ IsActive user d ∧ Live row t := by
  have hidle : row.idleExpiresAt > t ↔
      t - lastUse c past < lifetimes.sessionIdleLifetimeSeconds * 1000 ∧
        t < absoluteExpiry lifetimes c := by
    rw [h.idle, gt_iff_lt, lt_min_iff, idleExpiry, sub_lt_iff_lt_add']
  have habsolute : row.absoluteExpiresAt > t ↔
      t < c + lifetimes.sessionAbsoluteLifetimeSeconds * 1000 := by
    rw [h.absolute, gt_iff_lt, absoluteExpiry]
  simp only [Accepts, Live, h.revoked, hidle, habsolute, absoluteExpiry]
  tauto

/-- The clock moves on. -/
theorem Standing.later
    (h : Standing credentials lifetimes user organization session c past d row)
    (ht : d.now ≤ t) :
    Standing credentials lifetimes user organization session c past { d with now := t } row :=
  { h with
    knows := ⟨h.knows.user, h.knows.organization⟩
    used := h.used.trans ht
    created := h.created.trans ht }

/-- A request that is refused leaves the window unmoved. -/
theorem Standing.refused
    (h : Standing credentials lifetimes user organization session c past d row) :
    Standing credentials lifetimes user organization session c
      (past ++ [⟨t, .resolveSession none⟩]) d row := by
  have huse : lastUse c (past ++ [⟨t, .resolveSession none⟩]) = lastUse c past :=
    lastUse_refused rfl
  exact { h with
    idle := huse ▸ h.idle
    revoked := by simp [h.revoked, isRevoked_append]
    used := huse ▸ h.used }

theorem capped_eq_min {idle absolute : Date} :
    (if idle > absolute then absolute else idle) = min idle absolute := by
  split
  · rename_i hlt
    exact (min_eq_right (le_of_lt hlt)).symm
  · rename_i hle
    exact (min_eq_left (not_lt.1 hle)).symm

/-- A change of some rows that keeps their keys and token hashes. -/
theorem mem_changed {rows : List UserSessionRecord} {p : UserSessionRecord → Bool}
    {f : UserSessionRecord → UserSessionRecord} {other : UserSessionRecord}
    (h : other ∈ rows.map fun r => if p r then f r else r) (hid : ∀ r, (f r).id = r.id)
    (hhash : ∀ r, (f r).tokenHash = r.tokenHash) :
    ∃ before ∈ rows, other.id = before.id ∧ other.tokenHash = before.tokenHash := by
  obtain ⟨before, hbefore, rfl⟩ := List.mem_map.1 h
  refine ⟨before, hbefore, ?_⟩
  split
  · exact ⟨hid before, hhash before⟩
  · exact ⟨rfl, rfl⟩

/-- A request that is accepted moves it to the time of the request. -/
theorem Standing.accepted {principal : AuthenticatedPrincipal}
    (h : Standing credentials lifetimes user organization session c past d row) :
    ∃ row', Standing credentials lifetimes user organization session c
      (past ++ [⟨d.now, .resolveSession (some principal)⟩])
      (UserSessionRepository.touch session.principal.sessionId
        (if idleExpiry lifetimes d.now > row.absoluteExpiresAt then row.absoluteExpiresAt
          else idleExpiry lifetimes d.now) d.now d) row' := by
  have huse : lastUse c (past ++ [⟨d.now, .resolveSession (some principal)⟩]) = d.now :=
    lastUse_accepted rfl h.created
  refine ⟨{ row with
    idleExpiresAt := if idleExpiry lifetimes d.now > row.absoluteExpiresAt
      then row.absoluteExpiresAt else idleExpiry lifetimes d.now
    lastUsedAt := d.now }, {
    principal := h.principal
    found := by simp [UserSessionRepository.touch, Table.find?_updateAt_self, h.found]
    userId := h.userId
    tokenHash := h.tokenHash
    unique := fun other hother hhash => ?_
    absolute := h.absolute
    idle := ?_
    revoked := by simp [h.revoked, isRevoked_append]
    knows := ⟨h.knows.user, h.knows.organization⟩
    used := huse.le
    created := h.created }⟩
  · obtain ⟨before, hbefore, hid, htoken⟩ := mem_changed hother (fun _ => rfl) fun _ => rfl
    exact hid.trans (h.unique before hbefore (htoken.symm.trans hhash))
  · rw [huse, ← h.absolute]
    exact capped_eq_min

/-- A logout revokes the session. -/
theorem Standing.loggedOut
    (h : Standing credentials lifetimes user organization session c past d row) :
    ∃ row', Standing credentials lifetimes user organization session c (past ++ [⟨t, .logout⟩])
      (UserSessionRepository.revoke session.principal.sessionId t d) row' := by
  have huse : lastUse c (past ++ [⟨t, .logout⟩]) = lastUse c past := lastUse_refused rfl
  refine ⟨if row.revokedAt = none then { row with revokedAt := some t } else row, {
    principal := h.principal
    found := ?_
    userId := ?_
    tokenHash := ?_
    unique := fun other hother hhash => ?_
    absolute := ?_
    idle := ?_
    revoked := ?_
    knows := ⟨h.knows.user, h.knows.organization⟩
    used := huse ▸ h.used
    created := h.created }⟩
  · simp [UserSessionRepository.revoke, Table.find?_updateAt_self, h.found]
  · split <;> exact h.userId
  · split <;> exact h.tokenHash
  · obtain ⟨before, hbefore, hid, htoken⟩ := mem_changed hother (fun _ => rfl) fun _ => rfl
    exact hid.trans (h.unique before hbefore (htoken.symm.trans hhash))
  · split <;> exact h.absolute
  · rw [huse]
    split <;> exact h.idle
  · have hrevoked : IsRevoked (past ++ [⟨t, .logout⟩]) := isRevoked_append.2 (.inr rfl)
    simp only [hrevoked, not_true_eq_false, iff_false]
    split
    · simp
    · assumption

/-- What happens elsewhere leaves the row of the session as its history says. -/
theorem Standing.elsewhere
    (h : Standing credentials lifetimes user organization session c past d row)
    (helse : Elsewhere credentials user organization session d d') :
    Standing credentials lifetimes user organization session c past d' row :=
  { h with
    found := helse.row.trans h.found
    unique := helse.unique
    knows := helse.knows h.knows
    used := h.used.trans helse.now
    created := h.created.trans helse.now }

/-- What `resolveSession` makes of the row its statement found. -/
def resolved (lifetimes : SessionLifetimes) (t : Date) (d : Directory) :
    Option SessionWithUser → Option AuthenticatedPrincipal × Directory
  | none => (none, d)
  | some found =>
    if found.status ≠ .ACTIVE then (none, d)
    else (some (SessionWithUser.principal found), UserSessionRepository.touch found.sessionId
      (if idleExpiry lifetimes t > found.absoluteExpiresAt then found.absoluteExpiresAt
        else idleExpiry lifetimes t) t d)

theorem returns_resolveSession (token : String) (d : Directory) :
    (resolveSession credentials lifetimes token).run.Returns (exec credentials) .nothing d
      fun result d' => ∃ answer, result = .ok answer ∧
        resolved lifetimes d.now d (UserSessionRepository.findActiveByTokenHash
          (credentials.hashSessionToken token) d.now d) = (answer, d') := by
  refine Raising.returns_call.2 ⟨d.now, d, rfl, ?_⟩
  refine Raising.returns_call.2 ⟨_, d, rfl, ?_⟩
  cases UserSessionRepository.findActiveByTokenHash (credentials.hashSessionToken token) d.now d
    with
  | none => exact Prog.returns_done.2 ⟨none, rfl, rfl⟩
  | some found =>
    simp only [resolved]
    split
    · exact Prog.returns_done.2 ⟨none, rfl, rfl⟩
    · refine Raising.returns_call.2 ⟨(), _, rfl, ?_⟩
      exact Prog.returns_done.2 ⟨_, rfl, rfl⟩

/-- A use of the session is served in one way. -/
theorem serves_resolveSession {answer : Option AuthenticatedPrincipal} :
    Serves credentials lifetimes session t d (.resolveSession answer) d' ↔
      resolved lifetimes t { d with now := t } (UserSessionRepository.findActiveByTokenHash
        (credentials.hashSessionToken session.token) t { d with now := t }) = (answer, d') := by
  have hreturns : (resolveSession credentials lifetimes session.token).run.Returns
      (exec credentials) .nothing { d with now := t } _ :=
    returns_resolveSession session.token { d with now := t }
  obtain ⟨result, d'', halone, answer', rfl, hresolved⟩ := hreturns
  rw [hresolved]
  constructor
  · rintro ⟨hrun⟩
    rw [halone] at hrun
    cases hrun
    rfl
  · intro h
    cases h
    exact .resolveSession halone

theorem Standing.id_eq
    (h : Standing credentials lifetimes user organization session c past d row) :
    row.id = session.principal.sessionId := Table.key_of_find? h.found

/-- What a use of the session is answered, and that the history goes on from there. -/
theorem Standing.resolved
    (h : Standing credentials lifetimes user organization session c past d row)
    {answer : Option AuthenticatedPrincipal}
    (h' : AuthenticationService.resolved lifetimes d.now d
      (UserSessionRepository.findActiveByTokenHash (credentials.hashSessionToken session.token)
        d.now d) = (answer, d')) :
    (∃ row', Standing credentials lifetimes user organization session c
        (past ++ [⟨d.now, .resolveSession answer⟩]) d' row') ∧
      (Accepts lifetimes user c past d d.now ∧ answer = some session.principal ∨
        ¬ Accepts lifetimes user c past d d.now ∧ answer = none) := by
  obtain ⟨found, hfound, hid, hprincipal, habsolute, hactive⟩ := h.knows.withUser h.userId
  rw [h.id_eq] at hid
  rw [h.id_eq, ← h.principal] at hprincipal
  rw [h.findActive, hfound] at h'
  rw [h.accepts_iff, ← hactive]
  by_cases hlive : Live row d.now
  · rw [if_pos hlive, AuthenticationService.resolved] at h'
    split at h'
    · rename_i hstatus
      cases h'
      exact ⟨⟨row, h.refused⟩, .inr ⟨fun ha => hstatus ha.1, rfl⟩⟩
    · rename_i hstatus
      cases h'
      rw [hid, habsolute, hprincipal]
      exact ⟨h.accepted, .inl ⟨⟨not_not.1 hstatus, hlive⟩, rfl⟩⟩
  · rw [if_neg hlive] at h'
    cases h'
    exact ⟨⟨row, h.refused⟩, .inr ⟨fun ha => hlive ha.2, rfl⟩⟩

/-- One request keeps the row as the history says. -/
theorem Standing.serves
    (h : Standing credentials lifetimes user organization session c past d row) (ht : d.now ≤ t)
    {request : Request} (hserves : Serves credentials lifetimes session t d request d') :
    ∃ row', Standing credentials lifetimes user organization session c
      (past ++ [⟨t, request⟩]) d' row' := by
  cases hserves with
  | resolveSession hrun =>
    exact ((h.later ht).resolved (serves_resolveSession.1 (.resolveSession hrun))).1
  | logout hrun =>
    cases hrun
    exact (h.later ht).loggedOut

theorem History.standing {established : Directory}
    (hstart : Standing credentials lifetimes user organization session c [] established row)
    (h : History credentials lifetimes user organization session established past d) :
    ∃ row', Standing credentials lifetimes user organization session c past d row' := by
  induction h with
  | established => exact ⟨row, hstart⟩
  | served _ ht hserves ih =>
    obtain ⟨_, hrow⟩ := ih
    exact hrow.serves ht hserves
  | elsewhere _ helse ih =>
    obtain ⟨before, hbefore⟩ := ih
    exact ⟨before, hbefore.elsewhere helse⟩

/-! ## The session window -/

theorem mem_insert? {table table' : Table UserSessionRecord} {other : UserSessionRecord}
    (h : table.insert? row = some table') (hother : other ∈ table'.rows) :
    other = row ∨ other ∈ table.rows := by
  have hfound := Table.find?_insert? h (key other)
  rw [Table.find?_key hother] at hfound
  split at hfound
  · exact .inl (Option.some.inj hfound)
  · exact .inr (Table.mem_of_find? hfound.symm)

theorem insert_eq_some {input : InsertInput} {id id' : Identifier}
    (h : UserSessionRepository.insert input id d = some (id', d')) :
    id' = id ∧ (∀ r ∈ d.userSessions.rows, r.tokenHash ≠ input.tokenHash) ∧
      ∃ userSessions, d.userSessions.insert? (input.row id d.now) = some userSessions ∧
        d' = { d with userSessions } := by
  simp only [UserSessionRepository.insert] at h
  split at h
  · rename_i hfree
    obtain ⟨userSessions, hinsert, heq⟩ := Option.map_eq_some_iff.1 h
    cases heq
    exact ⟨rfl, hfree.2, userSessions, hinsert, rfl⟩
  · cases h

/-- A session that was established stands at the start of its history. -/
theorem standing_established {ipAddress userAgent : Option String} {cs : List AuthChoice}
    (hknows : Knows user organization d)
    (hrun : (establishSession credentials lifetimes user organization ipAddress userAgent).run.runs
      (exec credentials) cs d = some (.ok session, d')) :
    ∃ row, Standing credentials lifetimes user organization session d.now [] d' row := by
  obtain ⟨_, _, now, _, -, hclock, hrun⟩ := Prog.runs_perform.1 hrun
  cases hclock
  obtain ⟨choice, _, token, _, -, htoken, hrun⟩ := Prog.runs_perform.1 hrun
  obtain rfl : choice = .token token := by
    cases choice <;> simp_all [exec]
  cases htoken
  obtain ⟨choice, _, id, d₁, -, hinsert, hrun⟩ := Prog.runs_perform.1 hrun
  obtain ⟨-, hend⟩ := Prog.runs_done.1 hrun
  cases hend
  obtain ⟨generated, rfl⟩ : ∃ generated, choice = .identifier generated := by
    cases choice <;> simp_all [exec]
  obtain ⟨rfl, hfree, userSessions, hstored, rfl⟩ := insert_eq_some hinsert
  have hfound := Table.find?_insert? hstored
  refine ⟨_, {
    principal := rfl
    found := (hfound id).trans (if_pos rfl)
    userId := rfl
    tokenHash := rfl
    unique := fun other hother hhash => ?_
    absolute := rfl
    idle := ?_
    revoked := by simp [IsRevoked, UserSessionRepository.InsertInput.row]
    knows := ⟨hknows.user, hknows.organization⟩
    used := le_refl d.now
    created := le_refl d.now }⟩
  · rcases mem_insert? hstored hother with rfl | hmem
    · rfl
    · exact absurd hhash (hfree other hmem)
  · exact capped_eq_min

/-- A use of a session is accepted exactly when the user is active, the session was not revoked,
its lifetime is not over, and the latest of its start and the last use that was accepted is less
than the idle lifetime ago. The end of the lifetime is where it was put. -/
theorem session_window {ipAddress userAgent : Option String} {cs : List AuthChoice}
    {established : Directory} (hknows : Knows user organization d)
    (hestablished : (establishSession credentials lifetimes user organization ipAddress
      userAgent).run.runs (exec credentials) cs d = some (.ok session, established))
    (hpast : History credentials lifetimes user organization session established past d')
    (ht : d'.now ≤ t) :
    (∃ answer d'', Serves credentials lifetimes session t d' (.resolveSession answer) d'') ∧
      (∀ answer d'', Serves credentials lifetimes session t d' (.resolveSession answer) d'' →
        (answer = some session.principal ↔ Accepts lifetimes user d.now past d' t) ∧
        (answer = none ↔ ¬ Accepts lifetimes user d.now past d' t)) ∧
      ∃ row, d'.userSessions.find? session.principal.sessionId = some row ∧
        row.absoluteExpiresAt = absoluteExpiry lifetimes d.now := by
  obtain ⟨_, hstart⟩ := standing_established hknows hestablished
  obtain ⟨row, hrow⟩ := hpast.standing hstart
  refine ⟨⟨_, _, serves_resolveSession.2 rfl⟩, fun answer d'' hserves => ?_,
    row, hrow.found, hrow.absolute⟩
  have hanswer : Accepts lifetimes user d.now past d' t ∧ answer = some session.principal ∨
      ¬ Accepts lifetimes user d.now past d' t ∧ answer = none :=
    ((hrow.later ht).resolved (serves_resolveSession.1 hserves)).2
  rcases hanswer with ⟨haccepts, rfl⟩ | ⟨hrefuses, rfl⟩
  · simp [haccepts]
  · simp [hrefuses]

end AuthenticationService

namespace Sample

open AuthenticationService

/-- A session of the account, established when the clock starts. -/
def session : EstablishedSession where
  token := "token"
  expiresAt := 604800000
  principal := principalOf (user 0 none) organization 7

/-- The directory it leaves. -/
def established : Directory where
  users := only (user 0 none)
  organizations := (directory (only (user 0 none))).organizations
  userSessions := ⟨[{
    id := 7
    userId := 1
    tokenHash := credentials.hashSessionToken "token"
    absoluteExpiresAt := 604800000
    idleExpiresAt := 86400000
    ipAddress := none
    userAgent := none
    lastUsedAt := 0
    revokedAt := none }], List.nodup_singleton _⟩
  now := 0

theorem runs_establishSession :
    (establishSession credentials lifetimes (user 0 none) organization none none).run.runs
      (exec credentials) [.nothing, .token "token", .identifier 7]
      (directory (only (user 0 none))) = some (.ok session, established) := rfl

/-- The user is disabled, or let in again. -/
def setStatus (status : UserStatus) (d : Directory) : Directory :=
  { d with users := only { user 0 none with status } }

/-- The session is used once, and once more while its user is disabled. -/
def past : List Served :=
  [⟨80000000, .resolveSession (some session.principal)⟩, ⟨90000000, .resolveSession none⟩]

/-- What the first use leaves. -/
def touched : Directory :=
  UserSessionRepository.touch 7 166400000 80000000 { established with now := 80000000 }

/-- What both leave, the user let in again. -/
def used : Directory := setStatus .ACTIVE { setStatus .DISABLED touched with now := 90000000 }

theorem elsewhere_setStatus (status : UserStatus) {d : Directory}
    (hone : ∀ row ∈ d.userSessions.rows, row.id = 7)
    (horganization : d.organizations.find? 1 = some organization) :
    Elsewhere credentials (user 0 none) organization session d (setStatus status d) where
  row := rfl
  unique row hrow _ := hone row hrow
  knows _ := ⟨⟨_, rfl, rfl, rfl, rfl, rfl⟩, horganization⟩
  now := le_refl _

/-- What the statement that finds the session joins to it. -/
def found (status : UserStatus) (idleExpiresAt : Date) : SessionWithUser where
  sessionId := 7
  userId := 1
  organizationId := 1
  organizationName := "Shop"
  organizationSlug := "shop"
  email := "maria@example.com"
  name := "Maria"
  role := .OWNER
  status := status
  idleExpiresAt := idleExpiresAt
  absoluteExpiresAt := 604800000

theorem serves_touched : Serves credentials lifetimes session 80000000 established
    (.resolveSession (some session.principal)) touched := by
  have hfound : UserSessionRepository.findActiveByTokenHash
      (credentials.hashSessionToken session.token) 80000000 { established with now := 80000000 } =
        some (found .ACTIVE 86400000) := by decide +kernel
  refine serves_resolveSession.2 ?_
  rw [hfound]
  rfl

theorem serves_disabled : Serves credentials lifetimes session 90000000 (setStatus .DISABLED touched)
    (.resolveSession none) { setStatus .DISABLED touched with now := 90000000 } := by
  have hfound : UserSessionRepository.findActiveByTokenHash
      (credentials.hashSessionToken session.token) 90000000
        { setStatus .DISABLED touched with now := 90000000 } =
          some (found .DISABLED 166400000) := by decide +kernel
  refine serves_resolveSession.2 ?_
  rw [hfound]
  rfl

theorem history_used :
    History credentials lifetimes (user 0 none) organization session established past used := by
  have hdisabled := (History.established.served (by decide) serves_touched).elsewhere
    (elsewhere_setStatus .DISABLED (by decide) rfl)
  exact (hdisabled.served (by decide) serves_disabled).elsewhere
    (elsewhere_setStatus .ACTIVE (by decide) rfl)

end Sample

namespace AuthenticationService

/-- Until a day after the use that was accepted the session is resolved, whatever was refused
since, and not from then on; after a logout it is not. -/
theorem session_window_used :
    (∃ d', Serves Sample.credentials Sample.lifetimes Sample.session 166399999 Sample.used
      (.resolveSession (some Sample.session.principal)) d') ∧
    (∃ d', Serves Sample.credentials Sample.lifetimes Sample.session 166400000 Sample.used
      (.resolveSession none) d') ∧
    ∃ d d', Serves Sample.credentials Sample.lifetimes Sample.session 100000000 Sample.used
        .logout d ∧
      Serves Sample.credentials Sample.lifetimes Sample.session 100000001 d
        (.resolveSession none) d' := by
  have hknows : Knows (Sample.user 0 none) Sample.organization
      (Sample.directory (Sample.only (Sample.user 0 none))) :=
    ⟨⟨_, rfl, rfl, rfl, rfl, rfl⟩, rfl⟩
  have hactive : IsActive (Sample.user 0 none) Sample.used := ⟨_, rfl, rfl⟩
  have hlast : lastUse 0 Sample.past = 80000000 := by decide
  have hkept : ¬ IsRevoked Sample.past := by
    rintro ⟨served, hmem, hlogout⟩
    rcases List.mem_pair.1 hmem with rfl | rfl <;> cases hlogout
  refine ⟨?_, ?_, ?_⟩
  · obtain ⟨⟨answer, d', hserves⟩, hanswer, -⟩ := session_window hknows
      Sample.runs_establishSession Sample.history_used (t := 166399999) (by decide)
    have haccepts : Accepts Sample.lifetimes (Sample.user 0 none) 0 Sample.past Sample.used
        166399999 := ⟨hactive, hkept, by decide, by rw [hlast]; decide⟩
    obtain rfl := (hanswer answer d' hserves).1.2 haccepts
    exact ⟨d', hserves⟩
  · obtain ⟨⟨answer, d', hserves⟩, hanswer, -⟩ := session_window hknows
      Sample.runs_establishSession Sample.history_used (t := 166400000) (by decide)
    have hover : ¬ Accepts Sample.lifetimes (Sample.user 0 none) 0 Sample.past Sample.used
        166400000 := fun haccepts => absurd haccepts.2.2.2 (by rw [hlast]; decide)
    obtain rfl := (hanswer answer d' hserves).2.2 hover
    exact ⟨d', hserves⟩
  · have hlogout : Serves Sample.credentials Sample.lifetimes Sample.session 100000000 Sample.used
        .logout _ := .logout rfl
    obtain ⟨⟨answer, d', hserves⟩, hanswer, -⟩ := session_window hknows
      Sample.runs_establishSession (Sample.history_used.served (by decide) hlogout)
        (t := 100000001) (by decide)
    obtain rfl := (hanswer answer d' hserves).2.2 fun haccepts =>
      haccepts.2.1 (isRevoked_append.2 (.inr rfl))
    exact ⟨_, d', hlogout, hserves⟩

end AuthenticationService

end Authentication

end NotificationPlatform
