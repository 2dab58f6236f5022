import Mathlib.Data.Finset.Card
import NotificationPlatform.Authentication.Logins

/-!
# Locking an account

A failed attempt is counted in the database, and whether it locks the account is decided from the
count the login read before it checked the password. Logins that are under way together can all
read a count that is too low for a lock. Where no two are under way once the account is within reach
of one, the decision is the one the count in the database asks for (`Sound`), the account is locked
in time and stays locked (`lockout`).
-/

namespace NotificationPlatform

namespace Authentication

open Interleaving Relational AuthenticationService

/-! ## Runs -/

section

variable (credentials : Credentials) (u : Identifier)

/-- The login is for the account. -/
def targets (d : Directory) (input : LoginInput) : Bool :=
  (identify credentials input.email d).any (·.1 = u)

def isCheck : AuthOp → Bool
  | .isPasswordValid _ _ => true
  | _ => false

variable {credentials} {lifetimes : SessionLifetimes}

/-- How many passwords were checked against the hash of the account. -/
def checks (s : System (loginMachine credentials lifetimes)) : Nat :=
  s.trace.countP fun e =>
    isCheck e.op && (s.requestOf e.thread).any (targets credentials u s.world)

/-- The lock of the account. -/
def lock (d : Directory) : Option Date := (d.users.find? u).bind (·.lockedUntil)

/-- The account is locked at present. -/
def IsLocked (d : Directory) : Prop := ∃ L, lock u d = some L ∧ d.now < L

/-- A login that may yet record a failed attempt on the account: it read the row as active, and the
lock it read, if any, has run out. -/
def Stage.UnderWay (now : Date) (q : Stage) : Prop :=
  ∃ r, q.part.row? = some r ∧ r.id = u ∧ r.status = .ACTIVE ∧
    (q.part.clocked? = none → isLocked r now = false)

/-- The logins the statement is about: none dies, and no password for the account is right. -/
structure Attempts (s : System (loginMachine credentials lifetimes))
    (l : Label (loginMachine credentials lifetimes)) : Prop where
  alive : ∀ i, l ≠ .crash i
  wrong : ∀ i input, l = .spawn i input → ∀ hash,
    identify credentials input.email s.world = some (u, hash) →
      credentials.isPasswordValid hash input.password = false

/-- At most one login for the account is under way, or the attempts they come to, with those that
are recorded, are too few for a lock. A lock is recorded before it has run out. -/
structure Apart (s : System (loginMachine credentials lifetimes))
    (l : Label (loginMachine credentials lifetimes)) : Prop where
  steady : ∀ row, s.world.users.find? u = some row → ∀ F : Finset Nat,
    (∀ i ∈ F, ∃ q, stage s i = some q ∧ q.UnderWay u s.world.now) →
      F.card ≤ 1 ∨ row.failedLoginCount + F.card < MAXIMUM_FAILED_LOGINS
  timely : ∀ i c L, l = .advance i c → s.nextOp i = some (.recordFailedLogin u (some L)) →
    s.world.now < L

/-! ## The invariant -/

/-- A row that was read is behind the row as it is, and decides a lock as it would. -/
structure Current (row r : UserRecord) : Prop where
  count : r.failedLoginCount ≤ row.failedLoginCount
  decision : r.failedLoginCount + 1 < MAXIMUM_FAILED_LOGINS →
    row.failedLoginCount + 1 < MAXIMUM_FAILED_LOGINS
  locked : r.lockedUntil ≠ none → MAXIMUM_FAILED_LOGINS ≤ r.failedLoginCount

variable (credentials)

/-- What a login holds is in keeping with the row of the account. -/
structure Fits (d : Directory) (row : UserRecord) (q : Stage) : Prop where
  wrong : ∀ hash, identify credentials q.input.email d = some (u, hash) →
    credentials.isPasswordValid hash q.input.password = false
  reads : ∀ r, q.part.row? = some r →
    identify credentials q.input.email d = some (r.id, r.passwordHash)
  current : ∀ r, q.part.row? = some r → r.id = u → r.status = .ACTIVE → Current row r
  clocked : ∀ r t, q.part.clocked? = some (r, t) → r.id = u → r.status = .ACTIVE ∧ t ≤ d.now ∧
    ∀ L, row.lockedUntil = some L → L ≤ t + lockoutMilliseconds
  signedIn : ∀ r, q.part = .signedIn r → r.id ≠ u

variable {credentials}

structure Sound (s : System (loginMachine credentials lifetimes)) (row : UserRecord) : Prop where
  found : s.world.users.find? u = some row
  locked : row.lockedUntil ≠ none ↔ MAXIMUM_FAILED_LOGINS ≤ row.failedLoginCount
  ahead : ∀ L, row.lockedUntil = some L → L ≤ s.world.now + lockoutMilliseconds
  fits : ∀ i q, stage s i = some q → Fits credentials u s.world row q

end

section

variable {credentials : Credentials} {lifetimes : SessionLifetimes} {u : Identifier}
  {d d' : Directory} {row : UserRecord} {q : Stage}
  {s s' : System (loginMachine credentials lifetimes)}

theorem row?_of_clocked? {part : Part} {r : UserRecord} {t : Date}
    (h : part.clocked? = some (r, t)) : part.row? = some r := by
  cases part <;> cases h <;> rfl

theorem isLocked_of_none {r : UserRecord} {t : Date} (h : r.lockedUntil = none) :
    isLocked r t = false := by
  simp [isLocked, h]

/-- Nothing was recorded on the account. -/
theorem Fits.elsewhere (h : Fits credentials u d row q)
    (hidentify : ∀ email, identify credentials email d' = identify credentials email d)
    (hnow : d.now ≤ d'.now) : Fits credentials u d' row q where
  wrong := by simpa only [hidentify] using h.wrong
  reads := by simpa only [hidentify] using h.reads
  current := h.current
  clocked r t hr hu := by
    obtain ⟨hactive, ht, hlock⟩ := h.clocked r t hr hu
    exact ⟨hactive, ht.trans hnow, hlock⟩
  signedIn := h.signedIn

/-- A failed attempt was recorded on the account by a login that was under way alone, or too early
for a lock. -/
theorem Fits.recorded (h : Fits credentials u d row q) {lockUntil : Option Date}
    (halone : q.UnderWay u d.now →
      row.failedLoginCount + 2 < MAXIMUM_FAILED_LOGINS ∧ lockUntil = none) :
    Fits credentials u (UserRepository.recordFailedLogin u lockUntil d)
      { row with failedLoginCount := row.failedLoginCount + 1, lockedUntil := lockUntil } q where
  wrong := by simpa only [(Rewrites.failed u lockUntil).identify] using h.wrong
  reads := by simpa only [(Rewrites.failed u lockUntil).identify] using h.reads
  current r hr hu hactive := by
    have hcurrent := h.current r hr hu hactive
    refine ⟨hcurrent.count.trans (Nat.le_succ _), fun hfew => ?_, hcurrent.locked⟩
    -- a row that is too low for a lock had none
    have hnone : r.lockedUntil = none := by
      by_contra hlocked
      exact absurd (hcurrent.locked hlocked) (by omega)
    exact (halone ⟨r, hr, hu, hactive, fun _ => isLocked_of_none hnone⟩).1
  clocked r t hr hu := by
    obtain ⟨hactive, ht, -⟩ := h.clocked r t hr hu
    refine ⟨hactive, ht, fun L hL => ?_⟩
    have hnone : lockUntil = none :=
      (halone ⟨r, row?_of_clocked? hr, hu, hactive, fun hclocked => by simp [hclocked] at hr⟩).2
    exact absurd (hL.symm.trans hnone) nofun
  signedIn := h.signedIn

/-- A row of the account that is read is the row as it is. -/
theorem current_self
    (hlocked : row.lockedUntil ≠ none → MAXIMUM_FAILED_LOGINS ≤ row.failedLoginCount) :
    Current row row := ⟨le_refl _, id, hlocked⟩

theorem Fits.starting {input : LoginInput}
    (hwrong : ∀ hash, identify credentials input.email d = some (u, hash) →
      credentials.isPasswordValid hash input.password = false) :
    Fits credentials u d row ⟨input, .starting⟩ where
  wrong := hwrong
  reads := nofun
  current := nofun
  clocked := nofun
  signedIn := nofun

/-- Only the address and the password of a login that is refused matter. -/
theorem Fits.refused (h : Fits credentials u d row q) :
    Fits credentials u d row { q with part := .refused } where
  wrong := h.wrong
  reads := nofun
  current := nofun
  clocked := nofun
  signedIn := nofun

/-- One operation of a login, before what it does to the directory. -/
theorem Fits.advance (h : Fits credentials u d row q) (hfound : d.users.find? u = some row)
    (hlocked : row.lockedUntil ≠ none → MAXIMUM_FAILED_LOGINS ≤ row.failedLoginCount)
    (hahead : ∀ L, row.lockedUntil = some L → L ≤ d.now + lockoutMilliseconds) {o : AuthOp}
    {c : AuthChoice} {r : o.Ret} (hallowed : loginStages.Allows q o)
    (hexec : exec credentials d o c = some (r, d')) :
    Fits credentials u d row (loginStages.advance q o r) := by
  obtain ⟨input, part⟩ := q
  cases part with
  | starting =>
    obtain rfl : o = .findByEmail input.email := hallowed
    cases hexec
    refine ⟨h.wrong, fun r hr => ?_, fun r hr hu _ => ?_, ?_, ?_⟩
    · have hr : UserRepository.findByEmail credentials input.email d = some r := hr
      simp only [identify, loginStages, hr, Option.map_some]
    · have hr : UserRepository.findByEmail credentials input.email d = some r := hr
      obtain rfl : r = row := Option.some.inj ((find?_of_findByEmail hr).symm.trans (hu ▸ hfound))
      exact current_self hlocked
    · rintro _ _ ⟨⟩
    · rintro _ ⟨⟩
  | found user =>
    obtain rfl : o = .clockNow := hallowed
    cases hexec
    cases user with
    | none => exact h.refused
    | some user =>
      simp only [loginStages]
      split
      · rename_i hadmitted
        refine ⟨h.wrong, h.reads, h.current, fun r t hr hu => ?_, by rintro _ ⟨⟩⟩
        cases hr
        exact ⟨hadmitted.1, le_refl _, hahead⟩
      · exact h.refused
  | admitted user now =>
    obtain rfl : o = .isPasswordValid user.passwordHash input.password := hallowed
    cases hexec
    simp only [loginStages]
    split
    · rename_i hright
      refine ⟨h.wrong, by rintro _ ⟨⟩, by rintro _ ⟨⟩, by rintro _ _ ⟨⟩, fun r hr hu => ?_⟩
      cases hr
      have hwrong := h.wrong user.passwordHash (hu ▸ h.reads user rfl)
      cases hright.symm.trans hwrong
    · exact ⟨h.wrong, h.reads, h.current, h.clocked, by rintro _ ⟨⟩⟩
  | mistaken user now =>
    exact h.refused
  | signedIn user => exact h
  | refused => exact h.refused

/-! ## One step -/

/-- What a step recorded on the account. -/
inductive Records (u : Identifier) (s : System (loginMachine credentials lifetimes))
    (row : UserRecord) : Label (loginMachine credentials lifetimes) → UserRecord → Prop
  | nothing {l : Label (loginMachine credentials lifetimes)}
    (h : ∀ i c L, l = .advance i c → s.nextOp i ≠ some (.recordFailedLogin u L)) :
    Records u s row l row
  | failed {i : Nat} {c : AuthChoice} {input : LoginInput} {r : UserRecord} {t : Date}
    (hstage : stage s i = some ⟨input, .mistaken r t⟩) (hu : r.id = u)
    (hnext : s.nextOp i = some (.recordFailedLogin u (lockUntil r t))) :
    Records u s row (.advance i c) { row with
      failedLoginCount := row.failedLoginCount + 1
      lockedUntil := lockUntil r t }

/-- Only a login whose password was wrong records a failed attempt. -/
theorem mistaken_of_recordFailedLogin {v : Identifier} {L : Option Date}
    (h : loginStages.Allows q (.recordFailedLogin v L)) :
    ∃ r t, q.part = .mistaken r t ∧ r.id = v ∧ L = lockUntil r t := by
  obtain ⟨input, part⟩ := q
  cases part with
  | mistaken r t =>
    cases h
    exact ⟨r, t, rfl, rfl, rfl⟩
  | signedIn r => exact absurd h id
  | _ => cases h

/-- A login that passed does not touch the account. -/
theorem not_recordSuccessfulLogin (h : Fits credentials u d row q) {t : Date} :
    ¬ loginStages.Allows q (.recordSuccessfulLogin u t) := by
  intro hallowed
  obtain ⟨input, part⟩ := q
  cases part with
  | signedIn r => exact h.signedIn r rfl hallowed.symm
  | _ => cases hallowed

theorem lockUntil_eq_none {r : UserRecord} {t : Date}
    (h : r.failedLoginCount + 1 < MAXIMUM_FAILED_LOGINS) : lockUntil r t = none :=
  if_neg (Nat.not_le.2 h)

theorem lockUntil_eq_some {r : UserRecord} {t : Date}
    (h : MAXIMUM_FAILED_LOGINS ≤ r.failedLoginCount + 1) :
    lockUntil r t = some (t + lockoutMilliseconds) := if_pos h

/-- The decision of a login is the one the row asks for. -/
theorem Current.lockUntil {r : UserRecord} (h : Current row r) {t : Date} :
    lockUntil r t = if MAXIMUM_FAILED_LOGINS ≤ row.failedLoginCount + 1
      then some (t + lockoutMilliseconds) else none := by
  have hcount := h.count
  split
  · rename_i hrow
    refine lockUntil_eq_some (Nat.not_lt.1 fun hfew => ?_)
    exact absurd (h.decision hfew) (by omega)
  · exact lockUntil_eq_none (by omega)

/-- Two logins under way are too early for a lock. -/
theorem Apart.pair {l : Label (loginMachine credentials lifetimes)} (h : Apart u s l)
    (hfound : s.world.users.find? u = some row) {i j : Nat} (hij : j ≠ i) {qi qj : Stage}
    (hi : stage s i = some qi) (hj : stage s j = some qj) (hiu : qi.UnderWay u s.world.now)
    (hju : qj.UnderWay u s.world.now) : row.failedLoginCount + 2 < MAXIMUM_FAILED_LOGINS := by
  have hunder : ∀ k ∈ ({i, j} : Finset Nat), ∃ q, stage s k = some q ∧
      q.UnderWay u s.world.now := by
    intro k hk
    rcases Finset.mem_insert.1 hk with rfl | hk
    · exact ⟨qi, hi, hiu⟩
    · obtain rfl := Finset.mem_singleton.1 hk
      exact ⟨qj, hj, hju⟩
  have hcard : ({i, j} : Finset Nat).card = 2 := Finset.card_pair hij.symm
  have hsteady := h.steady row hfound {i, j} hunder
  omega

/-- An operation of a login keeps the account in keeping with what the logins hold. -/
theorem Sound.advanced {i : Nat} {c : AuthChoice} {o : AuthOp} {r : o.Ret} (h : Sound u s row)
    (hapart : Apart u s (.advance i c))
    (phases : stage s' = Function.update (stage s) i (some (loginStages.advance q o r)))
    (step : (loginDiscipline credentials lifetimes).Advanced s s' i c o r q) :
    ∃ row', Records u s row (.advance i c) row' ∧ Sound u s' row' := by
  obtain ⟨hrewrites, hnow⟩ := exec_rewrites step.exec
  have hbefore : Fits credentials u s.world row q := h.fits i q step.before
  have hself : Fits credentials u s.world row (loginStages.advance q o r) :=
    hbefore.advance h.found h.locked.1 h.ahead step.allowed step.exec
  have hfits : ∀ j q', stage s' j = some q' → Fits credentials u s.world row q' := by
    intro j q' hj
    rw [phases] at hj
    by_cases hji : j = i
    · subst hji
      rw [Function.update_self] at hj
      exact Option.some.inj hj ▸ hself
    · rw [Function.update_of_ne hji] at hj
      exact h.fits j q' hj
  by_cases hrecords : ∃ L, o = .recordFailedLogin u L
  · obtain ⟨L, rfl⟩ := hrecords
    obtain ⟨read, t, hpart, hu, rfl⟩ := mistaken_of_recordFailedLogin step.allowed
    obtain ⟨input, part⟩ := q
    obtain rfl : part = .mistaken read t := hpart
    have hworld : s'.world = UserRepository.recordFailedLogin u (lockUntil read t) s.world :=
      (congrArg Prod.snd (Option.some.inj step.exec)).symm
    obtain ⟨hactive, ht, -⟩ := hbefore.clocked read t rfl hu
    have hcurrent : Current row read := hbefore.current read rfl hu hactive
    have hunder : Stage.UnderWay u s.world.now ⟨input, .mistaken read t⟩ :=
      ⟨read, rfl, hu, hactive, nofun⟩
    refine ⟨_, .failed step.before hu step.nextOp, ?_, ?_, ?_, fun j q' hj => ?_⟩
    · rw [hworld]
      exact find?_recordFailedLogin h.found _
    · simp only [hcurrent.lockUntil]
      split
      · rename_i hmany
        exact iff_of_true nofun hmany
      · rename_i hfew
        exact iff_of_false (fun hnone => hnone rfl) hfew
    · intro L hL
      simp only [hcurrent.lockUntil] at hL
      split at hL
      · cases hL
        rw [hnow]
        exact add_le_add_left ht _
      · cases hL
    · rw [hworld]
      refine (hfits j q' hj).recorded fun hunder' => ?_
      rw [phases] at hj
      by_cases hji : j = i
      · subst hji
        rw [Function.update_self] at hj
        cases hj
        obtain ⟨_, hnone, -⟩ := hunder'
        cases hnone
      · rw [Function.update_of_ne hji] at hj
        have hfew := hapart.pair h.found hji step.before hj hunder hunder'
        have hcount := hcurrent.count
        exact ⟨hfew, lockUntil_eq_none (by omega)⟩
  · have hsuccessful (t : Date) : o ≠ .recordSuccessfulLogin u t := by
      rintro rfl
      exact not_recordSuccessfulLogin hbefore step.allowed
    have hfailed (L : Option Date) : o ≠ .recordFailedLogin u L := fun heq => hrecords ⟨L, heq⟩
    refine ⟨row, .nothing fun j c' L hl hnext => ?_, ?_, h.locked, ?_, fun j q' hj => ?_⟩
    · cases hl
      exact hfailed L (Option.some.inj (step.nextOp.symm.trans hnext))
    · exact (hrewrites.find? hfailed hsuccessful).trans h.found
    · rw [hnow]
      exact h.ahead
    · exact (hfits j q' hj).elsewhere hrewrites.identify hnow.ge

variable {l : Label (loginMachine credentials lifetimes)}

/-- Every step does. -/
theorem Sound.step (h : Sound u s row) (hattempts : Attempts u s l) (hapart : Apart u s l)
    (hdisciplined : (loginDiscipline credentials lifetimes).Disciplined s)
    (hs : s.step l = some s') : ∃ row', Records u s row l row' ∧ Sound u s' row' := by
  cases hdisciplined.stepped hs with
  | @spawned i input fresh phases _ world _ =>
    refine ⟨row, .nothing nofun, world ▸ h.found, h.locked, world ▸ h.ahead, fun j q hj => ?_⟩
    rw [stage, phases] at hj
    rw [world]
    by_cases hji : j = i
    · subst hji
      rw [Function.update_self] at hj
      cases hj
      exact .starting (hattempts.wrong j input rfl)
    · rw [Function.update_of_ne hji] at hj
      exact h.fits j q hj
  | advanced phases _ _ step => exact h.advanced hapart phases step
  | @crashed i => exact absurd rfl (hattempts.alive i)
  | @outside event phases _ world _ =>
    obtain ⟨n⟩ := event
    have hworld : s'.world = { s.world with now := s.world.now + n } :=
      (Option.some.inj world).symm
    have hnow : s.world.now ≤ s'.world.now := by
      rw [hworld]
      exact Int.le_add_of_nonneg_right (Int.natCast_nonneg n)
    refine ⟨row, .nothing nofun, ?_, h.locked, fun L hL => ?_, fun j q hj => ?_⟩
    · rw [hworld]
      exact h.found
    · exact (h.ahead L hL).trans (Int.add_le_add_right hnow _)
    · rw [stage, phases] at hj
      exact (h.fits j q hj).elsewhere (fun email => by rw [hworld]; rfl) hnow

/-- A lock stays, or moves on. -/
theorem Records.lock_le {row' : UserRecord} (h : Sound u s row) (hrecords : Records u s row l row')
    {L : Date} (hL : row.lockedUntil = some L) : ∃ L', row'.lockedUntil = some L' ∧ L ≤ L' := by
  cases hrecords with
  | nothing => exact ⟨L, hL, le_refl L⟩
  | @failed i c input r t hstage hu _ =>
    have hfits := h.fits i _ hstage
    obtain ⟨hactive, -, hahead⟩ := hfits.clocked r t rfl hu
    have hcurrent : Current row r := hfits.current r rfl hu hactive
    have hmany : MAXIMUM_FAILED_LOGINS ≤ row.failedLoginCount :=
      h.locked.1 (by rw [hL]; exact nofun)
    refine ⟨t + lockoutMilliseconds, ?_, hahead L hL⟩
    simp only [hcurrent.lockUntil]
    exact if_pos (by omega)

/-- The runs in which every step is in order. -/
def Orderly (u : Identifier) (s : System (loginMachine credentials lifetimes))
    (l : Label (loginMachine credentials lifetimes)) : Prop := Attempts u s l ∧ Apart u s l

variable {w : Directory}

theorem sound_start (hfound : w.users.find? u = some row) (hcount : row.failedLoginCount = 0)
    (hlock : row.lockedUntil = none) :
    Sound u (System.start w : System (loginMachine credentials lifetimes)) row where
  found := hfound
  locked := by simp [hlock, hcount, MAXIMUM_FAILED_LOGINS]
  ahead L hL := absurd (hL.symm.trans hlock) nofun
  fits _ _ h := by cases h

/-- An account without failures stays in keeping with its logins. -/
theorem sound_run (hfound : w.users.find? u = some row) (hcount : row.failedLoginCount = 0)
    (hlock : row.lockedUntil = none)
    (h : Run (Orderly u) (System.start w : System (loginMachine credentials lifetimes)) s) :
    ∃ row', Sound u s row' := by
  induction h with
  | refl => exact ⟨row, sound_start hfound hcount hlock⟩
  | tail hr hp hs ih =>
    obtain ⟨_, hsound⟩ := ih
    obtain ⟨row', -, hsound'⟩ := hsound.step hp.1 hp.2 (Discipline.disciplined_run hr) hs
    exact ⟨row', hsound'⟩

/-! ## Counting -/

/-- A login for the account whose wrong password is yet to be recorded. -/
def Stage.IsMistaken (u : Identifier) (q : Stage) : Prop := ∃ r t, q.part = .mistaken r t ∧ r.id = u

def Mistaken (u : Identifier) (s : System (loginMachine credentials lifetimes)) (i : Nat) : Prop :=
  ∃ q, stage s i = some q ∧ q.IsMistaken u

/-- Every password that was checked is recorded, or is yet to be. -/
def Counted (u : Identifier) (s : System (loginMachine credentials lifetimes)) (row : UserRecord) :
    Prop :=
  ∃ C : Finset Nat, (∀ i, i ∈ C ↔ Mistaken u s i) ∧ checks u s = row.failedLoginCount + C.card

theorem targets_eq (h : ∀ email, identify credentials email d' = identify credentials email d)
    (input : LoginInput) : targets credentials u d' input = targets credentials u d input := by
  rw [targets, targets, h]

/-- What was performed counts as it did. -/
theorem countP_checks
    (hdisciplined : (loginDiscipline credentials lifetimes).Disciplined s) (hs : s.step l = some s')
    (htargets : ∀ input,
      targets credentials u s'.world input = targets credentials u s.world input) :
    s.trace.countP (fun e => isCheck e.op &&
      (s'.requestOf e.thread).any (targets credentials u s'.world)) = checks u s := by
  refine List.countP_congr fun e he => ?_
  obtain ⟨request, hrequest⟩ := hdisciplined.quiet.requestOf he
  rw [System.requestOf_step hs hrequest, hrequest, Option.any_some, Option.any_some, htargets]

theorem checks_quiet (hdisciplined : (loginDiscipline credentials lifetimes).Disciplined s)
    (hs : s.step l = some s') (trace : s'.trace = s.trace)
    (htargets : ∀ input,
      targets credentials u s'.world input = targets credentials u s.world input) :
    checks u s' = checks u s := by
  rw [checks, trace]
  exact countP_checks hdisciplined hs htargets

theorem checks_advanced {i : Nat} {c : AuthChoice} {o : AuthOp} {r : o.Ret}
    (hdisciplined : (loginDiscipline credentials lifetimes).Disciplined s)
    (hs : s.step (.advance i c) = some s')
    (step : (loginDiscipline credentials lifetimes).Advanced s s' i c o r q) :
    checks u s' = checks u s +
      if isCheck o && targets credentials u s.world q.input then 1 else 0 := by
  have htargets : ∀ input,
      targets credentials u s'.world input = targets credentials u s.world input :=
    targets_eq (exec_rewrites step.exec).1.identify
  have hrequest : s'.requestOf i = some q.input :=
    step.request.trans (requestOf_stage step.before)
  rw [checks, step.trace, List.countP_cons, countP_checks hdisciplined hs htargets, hrequest,
    Option.any_some, htargets]

theorem mistaken_update {i : Nat} (phases : stage s' = Function.update (stage s) i (some q))
    (j : Nat) : Mistaken u s' j ↔ j = i ∧ q.IsMistaken u ∨ j ≠ i ∧ Mistaken u s j := by
  rw [Mistaken, phases]
  by_cases hji : j = i
  · subst hji
    simp
  · simp [Mistaken, hji]

/-- What the row of a login says of the account its address belongs to. -/
theorem Fits.targets (h : Fits credentials u d row q) {r : UserRecord} (hr : q.part.row? = some r) :
    targets credentials u d q.input = decide (r.id = u) := by
  rw [Authentication.targets, h.reads r hr, Option.any_some]

/-- A check that counts leaves the login with a failed attempt to record. -/
theorem isMistaken_of_check {o : AuthOp} {r : o.Ret} (h : Fits credentials u d row q)
    (hself : Fits credentials u d row (loginStages.advance q o r))
    (hallowed : loginStages.Allows q o)
    (hcheck : (isCheck o && targets credentials u d q.input) = true) :
    (loginStages.advance q o r).IsMistaken u ∧ ∃ read, q.part.row? = some read ∧ read.id = u ∧
      q.part.clocked? ≠ none := by
  rw [Bool.and_eq_true] at hcheck
  obtain ⟨input, part⟩ := q
  cases part with
  | admitted read t =>
    obtain rfl : o = .isPasswordValid read.passwordHash input.password := hallowed
    have hu : read.id = u := by
      have := hcheck.2
      rw [h.targets rfl] at this
      exact of_decide_eq_true this
    refine ⟨?_, read, rfl, hu, nofun⟩
    cases r with
    | true => exact absurd hu (hself.signedIn read rfl)
    | false => exact ⟨read, t, rfl, hu⟩
  | starting => cases hallowed; cases hcheck.1
  | found => cases hallowed; cases hcheck.1
  | mistaken => cases hallowed; cases hcheck.1
  | refused => cases hallowed; cases hcheck.1
  | signedIn =>
    cases o with
    | isPasswordValid => exact absurd hallowed id
    | _ => cases hcheck.1

/-- A failed attempt to record comes from a check that counts. -/
theorem check_of_isMistaken {o : AuthOp} {r : o.Ret} (h : Fits credentials u d row q)
    (hallowed : loginStages.Allows q o) (hafter : (loginStages.advance q o r).IsMistaken u) :
    (isCheck o && targets credentials u d q.input) = true ∧ ¬ q.IsMistaken u := by
  obtain ⟨input, part⟩ := q
  obtain ⟨read, t, hpart, hu⟩ := hafter
  cases part with
  | admitted read' t' =>
    obtain rfl : o = .isPasswordValid read'.passwordHash input.password := hallowed
    have hread : read' = read := by
      cases r with
      | true => cases hpart
      | false => cases hpart; rfl
    refine ⟨?_, nofun⟩
    rw [h.targets rfl]
    simp [isCheck, hread, hu]
  | starting => cases hallowed; cases hpart
  | found user =>
    cases hallowed
    cases user with
    | none => cases hpart
    | some user =>
      simp only [loginStages] at hpart
      split at hpart <;> cases hpart
  | mistaken => cases hpart
  | refused => cases hpart
  | signedIn => cases hpart

/-- What an operation adds to the count, it adds to what is recorded or yet to be. -/
theorem Counted.advanced {i : Nat} {c : AuthChoice} {o : AuthOp} {r : o.Ret} {row' : UserRecord}
    (h : Counted u s row) (hsound : Sound u s row) (hrecords : Records u s row (.advance i c) row')
    (hdisciplined : (loginDiscipline credentials lifetimes).Disciplined s)
    (hs : s.step (.advance i c) = some s')
    (phases : stage s' = Function.update (stage s) i (some (loginStages.advance q o r)))
    (step : (loginDiscipline credentials lifetimes).Advanced s s' i c o r q) :
    Counted u s' row' := by
  obtain ⟨C, hC, hchecks⟩ := h
  have hfits : Fits credentials u s.world row q := hsound.fits i q step.before
  have hself : Fits credentials u s.world row (loginStages.advance q o r) :=
    hfits.advance hsound.found hsound.locked.1 hsound.ahead step.allowed step.exec
  have hadvanced := checks_advanced (u := u) hdisciplined hs step
  have hbefore : i ∈ C ↔ q.IsMistaken u := by
    rw [hC, Mistaken]
    constructor
    · rintro ⟨q', hq', hmistaken⟩
      cases hq'.symm.trans step.before
      exact hmistaken
    · exact fun hmistaken => ⟨q, step.before, hmistaken⟩
  by_cases hafter : (loginStages.advance q o r).IsMistaken u
  · -- a wrong password was checked
    obtain ⟨hcheck, hnot⟩ := check_of_isMistaken hfits step.allowed hafter
    rw [if_pos hcheck] at hadvanced
    have hfresh : i ∉ C := fun hi => hnot (hbefore.1 hi)
    cases hrecords with
    | nothing =>
      refine ⟨insert i C, fun j => ?_, ?_⟩
      · rw [Finset.mem_insert, mistaken_update phases, ← hC]
        by_cases hji : j = i <;> simp [hji, hafter]
      · rw [hadvanced, hchecks, Finset.card_insert_of_notMem hfresh, add_assoc]
    | failed hstage hu hnext =>
      cases hstage.symm.trans step.before
      exact absurd ⟨_, _, rfl, hu⟩ hnot
  · have hcheck : ¬ (isCheck o && targets credentials u s.world q.input) = true := fun hcheck =>
      hafter (isMistaken_of_check hfits hself step.allowed hcheck).1
    rw [if_neg hcheck, add_zero] at hadvanced
    cases hrecords with
    | nothing hnothing =>
      have hfresh : i ∉ C := by
        intro hi
        obtain ⟨read, t, hpart, rfl⟩ := hbefore.1 hi
        obtain ⟨input, part⟩ := q
        obtain rfl : part = .mistaken read t := hpart
        have ho : o = .recordFailedLogin read.id (lockUntil read t) := step.allowed
        exact hnothing i c _ rfl (ho ▸ step.nextOp)
      refine ⟨C, fun j => ?_, hadvanced.trans hchecks⟩
      rw [mistaken_update phases, ← hC]
      by_cases hji : j = i
      · simp [hji, hafter, hfresh]
      · simp [hji]
    | failed hstage hu hnext =>
      -- a failed attempt was recorded
      cases hstage.symm.trans step.before
      have hmem : i ∈ C := hbefore.2 ⟨_, _, rfl, hu⟩
      refine ⟨C.erase i, fun j => ?_, ?_⟩
      · rw [Finset.mem_erase, mistaken_update phases, ← hC]
        simp [hafter]
      · have hcard : (C.erase i).card + 1 = C.card := Finset.card_erase_add_one hmem
        rw [hadvanced, hchecks, ← hcard]
        exact (Nat.add_assoc _ _ 1).symm.trans (Nat.add_right_comm _ _ 1)

theorem Counted.step {row' : UserRecord} (h : Counted u s row) (hsound : Sound u s row)
    (hrecords : Records u s row l row') (halive : ∀ i, l ≠ .crash i)
    (hdisciplined : (loginDiscipline credentials lifetimes).Disciplined s)
    (hs : s.step l = some s') : Counted u s' row' := by
  cases hdisciplined.stepped hs with
  | @spawned i input fresh phases _ world trace =>
    cases hrecords
    obtain ⟨C, hC, hchecks⟩ := h
    refine ⟨C, fun j => ?_, ?_⟩
    · have hfresh : ¬ Mistaken u s i := fun ⟨q, hq, _⟩ => absurd (fresh.symm.trans hq) nofun
      have hstart : ¬ Stage.IsMistaken u ⟨input, .starting⟩ := nofun
      rw [hC, mistaken_update phases]
      by_cases hji : j = i
      · subst hji
        simp [hfresh, hstart, loginDiscipline]
      · simp [hji]
    · rw [← hchecks]
      exact checks_quiet hdisciplined hs trace fun input => by rw [world]
  | advanced phases _ _ step =>
    exact h.advanced hsound hrecords hdisciplined hs phases step
  | @crashed i => exact absurd rfl (halive i)
  | @outside event phases _ world trace =>
    cases hrecords
    obtain ⟨C, hC, hchecks⟩ := h
    refine ⟨C, fun j => ?_, ?_⟩
    · rw [hC, Mistaken, Mistaken, stage, stage, phases]
    · rw [← hchecks]
      refine checks_quiet hdisciplined hs trace fun input => ?_
      obtain ⟨n⟩ := event
      rw [← Option.some.inj world]
      rfl

/-- The logins whose wrong password is yet to be recorded are under way. -/
theorem Fits.underWay (h : Fits credentials u d row q) (hmistaken : q.IsMistaken u) {now : Date} :
    q.UnderWay u now := by
  obtain ⟨input, part⟩ := q
  obtain ⟨r, t, hpart, hu⟩ := hmistaken
  obtain rfl : part = .mistaken r t := hpart
  exact ⟨r, rfl, hu, (h.clocked r t rfl hu).1, nofun⟩

/-- Before a lock is due there is room for what was checked, and for one check more where a login
is about to make it. -/
theorem Counted.bound (h : Counted u s row) (hsound : Sound u s row) (hapart : Apart u s l)
    (hfew : row.failedLoginCount < MAXIMUM_FAILED_LOGINS) :
    checks u s ≤ MAXIMUM_FAILED_LOGINS ∧ ∀ i q, stage s i = some q → ¬ q.IsMistaken u →
      q.UnderWay u s.world.now → checks u s + 1 ≤ MAXIMUM_FAILED_LOGINS := by
  obtain ⟨C, hC, hchecks⟩ := h
  have hunder : ∀ j ∈ C, ∃ q, stage s j = some q ∧ q.UnderWay u s.world.now := by
    intro j hj
    obtain ⟨q, hq, hmistaken⟩ := (hC j).1 hj
    exact ⟨q, hq, (hsound.fits j q hq).underWay hmistaken⟩
  constructor
  · have hsteady := hapart.steady row hsound.found C hunder
    omega
  · intro i q hi hnot hiu
    have hfresh : i ∉ C := by
      intro hmem
      obtain ⟨q', hq', hmistaken⟩ := (hC i).1 hmem
      cases hq'.symm.trans hi
      exact hnot hmistaken
    have hcard : (insert i C).card = C.card + 1 := Finset.card_insert_of_notMem hfresh
    have hsteady := hapart.steady row hsound.found (insert i C) fun j hj => by
      rcases Finset.mem_insert.1 hj with rfl | hj
      · exact ⟨q, hi, hiu⟩
      · exact hunder j hj
    omega

/-- A step before a lock is due makes one check too many on no account. -/
theorem checks_step_le (h : Counted u s row) (hsound : Sound u s row) (hattempts : Attempts u s l)
    (hapart : Apart u s l) (hfew : row.failedLoginCount < MAXIMUM_FAILED_LOGINS)
    (hdisciplined : (loginDiscipline credentials lifetimes).Disciplined s)
    (hs : s.step l = some s') : checks u s' ≤ MAXIMUM_FAILED_LOGINS := by
  obtain ⟨hroom, hmore⟩ := h.bound hsound hapart hfew
  cases hdisciplined.stepped hs with
  | spawned _ _ _ world trace =>
    rw [checks_quiet hdisciplined hs trace fun input => by rw [world]]
    exact hroom
  | @advanced i c o r q phases _ _ step =>
    rw [checks_advanced hdisciplined hs step]
    split
    · rename_i hcheck
      have hfits : Fits credentials u s.world row q := hsound.fits i q step.before
      have hself := hfits.advance hsound.found hsound.locked.1 hsound.ahead step.allowed step.exec
      obtain ⟨hafter, read, hrow, hu, hclocked⟩ :=
        isMistaken_of_check hfits hself step.allowed hcheck
      obtain ⟨⟨read', t⟩, hread⟩ := Option.ne_none_iff_exists'.1 hclocked
      cases hrow.symm.trans (row?_of_clocked? hread)
      refine hmore i q step.before (check_of_isMistaken hfits step.allowed hafter).2
        ⟨read, hrow, hu, (hfits.clocked read t hread hu).1, fun hnone => absurd hnone hclocked⟩
    · exact hroom
  | @crashed i => exact absurd rfl (hattempts.alive i)
  | @outside event _ _ world trace =>
    rw [checks_quiet hdisciplined hs trace fun input => by
      obtain ⟨n⟩ := event
      rw [← Option.some.inj world]
      rfl]
    exact hroom

/-! ## The lockout -/

theorem lock_of_found (h : d.users.find? u = some row) : lock u d = row.lockedUntil := by
  rw [lock, h, Option.bind_some]

/-- A lock that was recorded has not run out. -/
theorem Records.fresh {row' : UserRecord} (hrecords : Records u s row l row')
    (hapart : Apart u s l) (hnone : row.lockedUntil = none)
    (hdisciplined : (loginDiscipline credentials lifetimes).Disciplined s)
    (hs : s.step l = some s') {L : Date} (hL : row'.lockedUntil = some L) : s'.world.now < L := by
  cases hrecords with
  | nothing => exact absurd (hL.symm.trans hnone) nofun
  | @failed i c input r t hstage hu hnext =>
    have hL : lockUntil r t = some L := hL
    cases hdisciplined.stepped hs with
    | advanced phases _ _ step =>
      rw [(exec_rewrites step.exec).2]
      exact hapart.timely i c L rfl (hL ▸ hnext)

/-- As long as an account has not been locked its lock is none, or new, and the checks are few. -/
theorem unlocked_run (hfound : w.users.find? u = some row) (hcount : row.failedLoginCount = 0)
    (hlock : row.lockedUntil = none)
    (h : Run (fun s l => Orderly u s l ∧ ¬ IsLocked u s.world)
      (System.start w : System (loginMachine credentials lifetimes)) s) :
    checks u s ≤ MAXIMUM_FAILED_LOGINS ∧ ∃ row', Sound u s row' ∧ Counted u s row' ∧
      ∀ L, row'.lockedUntil = some L → s.world.now < L := by
  induction h with
  | refl =>
    refine ⟨Nat.zero_le _, row, sound_start hfound hcount hlock, ⟨∅, fun i => ?_, ?_⟩, fun L hL =>
      absurd (hL.symm.trans hlock) nofun⟩
    · refine iff_of_false (Finset.notMem_empty i) ?_
      rintro ⟨_, hq, -⟩
      cases hq
    · rw [hcount]
      rfl
  | @tail s₁ s₂ l hr hp hs ih =>
    obtain ⟨-, row₁, hsound, hcounted, hnew⟩ := ih
    obtain ⟨⟨hattempts, hapart⟩, hunlocked⟩ := hp
    have hdisciplined := Discipline.disciplined_run (D := loginDiscipline credentials lifetimes) hr
    have hnone : row₁.lockedUntil = none := by
      by_contra hsome
      obtain ⟨L, hL⟩ := Option.ne_none_iff_exists'.1 hsome
      exact hunlocked ⟨L, (lock_of_found hsound.found).trans hL, hnew L hL⟩
    have hfew : row₁.failedLoginCount < MAXIMUM_FAILED_LOGINS :=
      Nat.not_le.1 fun hmany => hsound.locked.2 hmany hnone
    obtain ⟨row₂, hrecords, hsound'⟩ := hsound.step hattempts hapart hdisciplined hs
    exact ⟨checks_step_le hcounted hsound hattempts hapart hfew hdisciplined hs, row₂, hsound',
      hcounted.step hsound hrecords hattempts.alive hdisciplined hs,
      fun L hL => hrecords.fresh hapart hnone hdisciplined hs hL⟩

/-- Where logins for an account are apart, no more passwords than the maximum are checked before
the account is locked, and no step clears a lock that is in force or moves it earlier. -/
theorem lockout (hfound : w.users.find? u = some row) (hcount : row.failedLoginCount = 0)
    (hlock : row.lockedUntil = none) :
    (∀ s : System (loginMachine credentials lifetimes),
      Run (fun s l => Orderly u s l ∧ ¬ IsLocked u s.world) (System.start w) s →
        checks u s ≤ MAXIMUM_FAILED_LOGINS) ∧
    ∀ (s s' : System (loginMachine credentials lifetimes)) l,
      Run (Orderly u) (System.start w) s → Orderly u s l → s.step l = some s' →
        ∀ L, lock u s.world = some L → s.world.now < L →
          ∃ L', lock u s'.world = some L' ∧ L ≤ L' := by
  refine ⟨fun s h => (unlocked_run hfound hcount hlock h).1, fun s s' l h hp hs L hL _ => ?_⟩
  obtain ⟨row', hsound⟩ := sound_run hfound hcount hlock h
  obtain ⟨row'', hrecords, hsound'⟩ :=
    hsound.step hp.1 hp.2 (Discipline.disciplined_run h) hs
  rw [lock_of_found hsound.found] at hL
  rw [lock_of_found hsound'.found]
  exact hrecords.lock_le hsound hL

/-! ## Two runs -/

/-- The step is one of logins with wrong passwords. -/
def isAttempt (u : Identifier) (s : System (loginMachine credentials lifetimes)) :
    Label (loginMachine credentials lifetimes) → Bool
  | .spawn _ input => (identify credentials input.email s.world).all fun p =>
      p.1 ≠ u || !credentials.isPasswordValid p.2 input.password
  | .crash _ => false
  | _ => true

theorem attempts_of_isAttempt (h : isAttempt u s l = true) : Attempts u s l where
  alive := by
    rintro i rfl
    cases h
  wrong := by
    rintro i input rfl hash hidentify
    simpa [isAttempt, hidentify] using h

/-- The login may yet record a failed attempt on the account. -/
def Stage.isUnderWay (u : Identifier) (now : Date) (q : Stage) : Bool :=
  q.part.row?.any fun r =>
    r.id = u ∧ r.status = .ACTIVE ∧ (q.part.clocked? = none → isLocked r now = false)

theorem Stage.UnderWay.isUnderWay {now : Date} (h : q.UnderWay u now) :
    q.isUnderWay u now = true := by
  obtain ⟨r, hrow, hr⟩ := h
  exact (Option.any_eq_true _ _).2 ⟨r, hrow, decide_eq_true hr⟩

/-- Which of the first logins are under way. -/
def underWay (bound : Nat) (u : Identifier) (s : System (loginMachine credentials lifetimes)) :
    Finset Nat :=
  (Finset.range bound).filter fun i => (stage s i).any (·.isUnderWay u s.world.now) = true

/-- Only the first logins are started, those under way are apart, and no lock that has run out is
recorded. -/
def isApart (bound : Nat) (u : Identifier) (s : System (loginMachine credentials lifetimes))
    (l : Label (loginMachine credentials lifetimes)) : Bool :=
  l.startsBelow bound && ((s.world.users.find? u).all fun row => (underWay bound u s).card ≤ 1 ∨
    row.failedLoginCount + (underWay bound u s).card < MAXIMUM_FAILED_LOGINS) &&
  match l with
  | .advance i _ => match s.nextOp i with
    | some (.recordFailedLogin v (some L)) => v ≠ u || s.world.now < L
    | _ => true
  | _ => true

theorem apart_of_isApart {bound : Nat} (h : ∀ j, bound ≤ j → s.threads j = none)
    (hapart : isApart bound u s l = true) : Apart u s l := by
  obtain ⟨hbelow, hlast⟩ := Bool.and_eq_true_iff.1 hapart
  have hfew := (Bool.and_eq_true_iff.1 hbelow).2
  refine ⟨fun row hrow F hF => ?_, ?_⟩
  · have hsub : F ⊆ underWay bound u s := by
      intro i hi
      obtain ⟨q, hq, hunder⟩ := hF i hi
      have hlt : i < bound := by
        by_contra hle
        rw [stage, Discipline.phase, h i (Nat.not_lt.1 hle)] at hq
        cases hq
      refine Finset.mem_filter.2 ⟨Finset.mem_range.2 hlt, ?_⟩
      rw [hq]
      exact hunder.isUnderWay
    have hcard := Finset.card_le_card hsub
    rw [hrow] at hfew
    have hfew := of_decide_eq_true hfew
    omega
  · rintro i c L rfl hnext
    simpa [hnext] using hlast

/-- Attempts that are apart, of the first logins only, are in order. -/
theorem orderly_below {bound : Nat} {P : System (loginMachine credentials lifetimes) → Prop}
    (h : Run (fun s l => (isAttempt u s l && isApart bound u s l) = true ∧ P s)
      (System.start w) s) :
    Run (fun s l => Orderly u s l ∧ P s) (System.start w) s ∧
      ∀ j, bound ≤ j → s.threads j = none := by
  have hstarts : ∀ (s : System (loginMachine credentials lifetimes)) l,
      (isAttempt u s l && isApart bound u s l) = true ∧ P s → l.startsBelow bound = true := by
    rintro s l ⟨hb, -⟩
    simp only [isApart, Bool.and_eq_true] at hb
    exact hb.2.1.1
  have hnone : ∀ {s}, Run _ (System.start w) s → ∀ j, bound ≤ j → s.threads j = none :=
    fun hr => hr.threads_eq_none hstarts fun _ _ => rfl
  refine ⟨?_, hnone h⟩
  induction h with
  | refl => exact .refl
  | tail hr hp hs ih =>
    obtain ⟨hattempt, hapart⟩ := Bool.and_eq_true_iff.1 hp.1
    exact .tail ih ⟨⟨attempts_of_isAttempt hattempt, apart_of_isApart (hnone hr) hapart⟩, hp.2⟩ hs

end

namespace Sample

/-- The logins for the account of the platform with one user. -/
abbrev Logins := System (loginMachine credentials lifetimes)

def unlocked : Logins := .start (directory (only (user 0 none)))

/-- A login from its start to the check of the password. -/
def login (i : Nat) : List (Label (loginMachine credentials lifetimes)) :=
  [.spawn i input, .advance i .nothing, .advance i .nothing, .advance i .nothing]

/-- Ten wrong passwords, the first three checked before any attempt is recorded. -/
def tenth : List (Label (loginMachine credentials lifetimes)) :=
  (List.range 3).flatMap login ++ (List.range 3).map (.advance · .nothing) ++
    (List.range' 3 7).flatMap fun i => login i ++ [.advance i .nothing]

/-- An eleventh login reads the row, and has not read the clock. -/
def eleventh : List (Label (loginMachine credentials lifetimes)) :=
  tenth ++ [.outside (.milliseconds 60000), .spawn 10 input, .advance 10 .nothing]

/-- The login was told that the account is locked. -/
def isRefused (s : Logins) (i : Nat) : Bool :=
  match s.threads i with
  | some ⟨_, .running (.done (.error e))⟩ => e = accountLocked
  | _ => false

end Sample

/-- The tenth wrong password locks the account, and a login a minute later is refused and leaves the
lock as it is. -/
theorem lockout_tenth : ∃ (s : Sample.Logins) (L : Date),
    (Sample.unlocked.after Sample.eleventh).step (.advance 10 .nothing) = some s ∧
      checks 1 (Sample.unlocked.after Sample.tenth) ≤ MAXIMUM_FAILED_LOGINS ∧
      lock 1 (Sample.unlocked.after Sample.tenth).world = some 900000 ∧
      Sample.isRefused s 10 = true ∧ lock 1 s.world = some L ∧ 900000 ≤ L := by
  have hall : (checksEach (fun s l => isAttempt 1 s l && isApart 11 1 s l &&
        decide (lock 1 s.world = none)) Sample.unlocked Sample.tenth &&
      checksEach (fun s l => isAttempt 1 s l && isApart 11 1 s l) Sample.unlocked
        Sample.eleventh &&
      (isAttempt 1 (Sample.unlocked.after Sample.eleventh) (.advance 10 .nothing) &&
        isApart 11 1 (Sample.unlocked.after Sample.eleventh) (.advance 10 .nothing)) &&
      decide (lock 1 (Sample.unlocked.after Sample.tenth).world = some 900000) &&
      decide (lock 1 (Sample.unlocked.after Sample.eleventh).world = some 900000 ∧
        (Sample.unlocked.after Sample.eleventh).world.now < 900000) &&
      ((Sample.unlocked.after Sample.eleventh).step (.advance 10 .nothing)).any
        (Sample.isRefused · 10)) = true := by decide +kernel
  simp only [Bool.and_eq_true, decide_eq_true_eq] at hall
  obtain ⟨⟨⟨⟨⟨htenth, heleventh⟩, hattempt, hapart⟩, hset⟩, hlocked, hnow⟩, hstep⟩ := hall
  obtain ⟨s, hs, hrefused⟩ := (Option.any_eq_true _ _).1 hstep
  obtain ⟨hfew, hkeeps⟩ := @lockout Sample.credentials Sample.lifetimes 1 (Sample.user 0 none)
    (Sample.directory (Sample.only (Sample.user 0 none))) rfl rfl rfl
  -- up to the tenth failed attempt there is no lock
  have hunlocked := (orderly_below (P := fun s => ¬ IsLocked 1 s.world)
    ((Run.of_checksEach htenth).mono fun s l hb => by
      simp only [Bool.and_eq_true, decide_eq_true_eq] at hb
      refine ⟨Bool.and_eq_true_iff.2 hb.1, ?_⟩
      rintro ⟨L, hL, -⟩
      cases hL.symm.trans hb.2)).1
  obtain ⟨hrun, hthreads⟩ := orderly_below (P := fun _ => True)
    ((Run.of_checksEach heleventh).mono fun _ _ hb => ⟨hb, trivial⟩)
  have horderly : Orderly 1 (Sample.unlocked.after Sample.eleventh) (.advance 10 .nothing) :=
    ⟨attempts_of_isAttempt hattempt, apart_of_isApart hthreads hapart⟩
  obtain ⟨L, hL, hle⟩ := hkeeps _ s _ (hrun.mono fun _ _ hp => hp.1) horderly hs 900000 hlocked hnow
  exact ⟨s, L, hs, hfew _ hunlocked, hset, hrefused, hL, hle⟩

/-- Eleven logins that run together all read that nothing was recorded, and all check. -/
theorem lockout_fails : ¬ ∀ (credentials : Credentials) (lifetimes : SessionLifetimes)
      (u : Identifier) (w : Directory) (row : UserRecord),
    w.users.find? u = some row → row.failedLoginCount = 0 → row.lockedUntil = none →
    ∀ s : System (loginMachine credentials lifetimes),
      Run (fun s l => Attempts u s l ∧ ¬ IsLocked u s.world) (System.start w) s →
        checks u s ≤ MAXIMUM_FAILED_LOGINS := by
  intro h
  have hrun : Run (fun s l => (isAttempt 1 s l && decide (lock 1 s.world = none)) = true)
      Sample.unlocked (Sample.unlocked.after ((List.range 11).flatMap Sample.login)) :=
    Run.of_checksEach (by decide +kernel)
  have hfew := h Sample.credentials Sample.lifetimes 1 _ _ rfl rfl rfl _ (hrun.mono fun s l hb => by
    simp only [Bool.and_eq_true, decide_eq_true_eq] at hb
    refine ⟨attempts_of_isAttempt hb.1, ?_⟩
    rintro ⟨L, hL, -⟩
    exact absurd (hL.symm.trans hb.2) nofun)
  exact absurd hfew (by decide +kernel)

end Authentication

end NotificationPlatform
