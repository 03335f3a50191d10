/-
The login pipeline as a task.

`perform_login` tests the lock, reads the credentials, verifies the password and
records the outcome.  The tracker and the sessions have a lock of their own, so
each access to them is a step of its own, as is each wait for the database.
Several logins may run at the same time, from one source and from others; the
tracker is keyed by the source and they all share it.

The log keeps what the tracker does not: every verification, every failure and
success recorded, in order and with the source and the time of its login.
-/
import GreenRelay.Lib.Machine
import GreenRelay.Admin.LoginTracker

namespace GreenRelay
namespace Admin

/-! ## Sessions -/

structure Session where
  adminId : Int
  lastActivity : Nat
  csrfToken : String
  deriving DecidableEq, Repr

structure SessionStore where
  sessions : AList (fun _ : String => Session)

namespace SessionStore

def new : SessionStore := ⟨∅⟩

/-- A session under a fresh token; both tokens are random. -/
def create (s : SessionStore) (token csrfToken : String) (adminId : Int) (now : Nat) :
    SessionStore :=
  ⟨s.sessions.insert token ⟨adminId, now, csrfToken⟩⟩

end SessionStore

/-! ## Logins -/

inductive LoginResult where
  | success (token : String)
  | failed
  | lockedOut
  deriving DecidableEq, Repr

/-- Whether a password has a stored hash.  It is the one part of a login that is
not decided by the program. -/
abbrev PasswordVerifier := String → String → Bool

/-- The row of an admin user: its id and the hash of its password. -/
abbrev Credentials := Int × String

/-- Where a login stands. -/
inductive LoginPhase where
  /-- Rejected by the lock test; the audit row is to come. -/
  | rejected
  /-- Past the lock test, waiting for the credentials. -/
  | checked
  | found (credentials : Option Credentials)
  /-- The password is verified, for an admin or in vain. -/
  | verified (admin : Option Int)
  | cleared (adminId : Int)
  | opened (token : String)
  | recorded (nowLocked : Bool)
  /-- The failure is audited and the lock that it made is not. -/
  | audited
  /-- `done none` is an error, or a handler that was dropped. -/
  | done (result : Option LoginResult)
  deriving DecidableEq, Repr

structure Login where
  clientIp : String
  username : String
  password : String
  now : Nat
  phase : LoginPhase
  deriving DecidableEq, Repr

def Login.enter (l : Login) (p : LoginPhase) : Login := { l with phase := p }

inductive Entry where
  | verified (now : Nat) (ok : Bool)
  | failed (now : Nat)
  | succeeded (now : Nat)
  deriving DecidableEq, Repr

structure AuditRow where
  eventType : String
  detail : String
  deriving DecidableEq, Repr

structure State where
  clock : Nat
  tracker : AdminLoginTracker
  sessions : SessionStore
  audit : List AuditRow
  logins : Nat → Option Login
  log : List (String × Entry)

/-- The entries of one source. -/
def State.logOf (s : State) (clientIp : String) : List Entry :=
  (s.log.filter (fun e => e.1 = clientIp)).map Prod.snd

def State.setLogin (s : State) (n : Nat) (l : Login) : State :=
  { s with logins := fun m => if m = n then some l else s.logins m }

inductive Act where
  /-- A login begins, and tests the lock. -/
  | check (n : Nat) (clientIp username password : String) (now : Nat)
  | find (n : Nat) (credentials : Option Credentials)
  | verify (n : Nat)
  | record (n : Nat)
  | openSession (n : Nat) (token csrfToken : String)
  | audit (n : Nat)
  /-- The database fails, or the handler is dropped, while the login waits. -/
  | fail (n : Nat)
  deriving DecidableEq, Repr

/-! ## Steps -/

/-- The user that does not exist costs a verification as well. -/
def credentialsOk (verify : PasswordVerifier) (password : String) : Option Credentials → Option Int
  | some (id, hash) => if verify password hash then some id else none
  | none => none

def checkLogin (clientIp : String) (s : State) (now : Nat) : LoginPhase :=
  if s.tracker.isLocked clientIp now then .rejected else .checked

/-- The failure and the lock test after it are under one lock. -/
def recordFailed (s : State) (n : Nat) (l : Login) : State :=
  let tracker := s.tracker.recordFailure l.clientIp l.now
  { s.setLogin n (l.enter (.recorded (tracker.isLocked l.clientIp l.now))) with
    tracker := tracker
    log := s.log ++ [(l.clientIp, .failed l.now)] }

def recordSucceeded (s : State) (n : Nat) (l : Login) (adminId : Int) : State :=
  { s.setLogin n (l.enter (.cleared adminId)) with
    tracker := s.tracker.recordSuccess l.clientIp
    log := s.log ++ [(l.clientIp, .succeeded l.now)] }

/-- The row that a login waits for, and what it goes on with. -/
def auditOf (l : Login) : Option (AuditRow × LoginPhase) :=
  match l.phase with
  | .rejected => some (⟨"admin_login_locked_out",
      "login rejected from locked source for `" ++ l.username ++ "`"⟩, .done (some .lockedOut))
  | .opened token => some (⟨"admin_login_success",
      "admin `" ++ l.username ++ "` authenticated"⟩, .done (some (.success token)))
  | .recorded nowLocked => some (⟨"admin_login_failed", "failed login for `" ++ l.username ++ "`"⟩,
      if nowLocked then .audited else .done (some .failed))
  | .audited => some (⟨"admin_login_locked_out",
      "account `" ++ l.username ++ "` locked after repeated failures"⟩, .done (some .lockedOut))
  | _ => none

/-- The login waits for the database. -/
def LoginPhase.waits : LoginPhase → Bool
  | .rejected | .checked | .opened _ | .recorded _ | .audited => true
  | _ => false

def step (verify : PasswordVerifier) (s : State) : Act → Option State
  | .check n clientIp username password now =>
    if s.logins n = none ∧ s.clock ≤ now then
      some { s.setLogin n ⟨clientIp, username, password, now, checkLogin clientIp s now⟩ with
        clock := now }
    else none
  | .find n credentials => (s.logins n).bind (fun l =>
    match l.phase with
    | .checked => some (s.setLogin n (l.enter (.found credentials)))
    | _ => none)
  | .verify n => (s.logins n).bind (fun l =>
    match l.phase with
    | .found credentials =>
      let admin := credentialsOk verify l.password credentials
      some { s.setLogin n (l.enter (.verified admin)) with
        log := s.log ++ [(l.clientIp, .verified l.now admin.isSome)] }
    | _ => none)
  | .record n => (s.logins n).bind (fun l =>
    match l.phase with
    | .verified (some adminId) => some (recordSucceeded s n l adminId)
    | .verified none => some (recordFailed s n l)
    | _ => none)
  | .openSession n token csrfToken => (s.logins n).bind (fun l =>
    match l.phase with
    | .cleared adminId => some { s.setLogin n (l.enter (.opened token)) with
        sessions := s.sessions.create token csrfToken adminId l.now }
    | _ => none)
  | .audit n => (s.logins n).bind (fun l =>
    (auditOf l).map (fun row => { s.setLogin n (l.enter row.2) with audit := s.audit ++ [row.1] }))
  | .fail n => (s.logins n).bind (fun l =>
    if l.phase.waits then some (s.setLogin n (l.enter (.done none))) else none)

/-- The service starts with a new tracker. -/
structure Starting (s : State) : Prop where
  tracker : s.tracker = .new
  sessions : s.sessions = .new
  audit : s.audit = []
  logins : s.logins = fun _ => none
  log : s.log = []

def logins (verify : PasswordVerifier) : Machine State Act := ⟨Starting, step verify⟩

def fresh : State := ⟨0, .new, .new, [], fun _ => none, []⟩

theorem starting_fresh : Starting fresh := ⟨rfl, rfl, rfl, rfl, rfl⟩

/-- The steps with their guards. -/
inductive Stepped (verify : PasswordVerifier) (s : State) : Act → State → Prop where
  | check {n : Nat} {now : Nat} (clientIp username password : String) (hn : s.logins n = none)
    (hnow : s.clock ≤ now) :
    Stepped verify s (.check n clientIp username password now)
      { s.setLogin n ⟨clientIp, username, password, now, checkLogin clientIp s now⟩ with
        clock := now }
  | find {n : Nat} {l : Login} (credentials : Option Credentials) (hl : s.logins n = some l)
    (hp : l.phase = .checked) :
    Stepped verify s (.find n credentials) (s.setLogin n (l.enter (.found credentials)))
  | verify {n : Nat} {l : Login} {credentials : Option Credentials} (hl : s.logins n = some l)
    (hp : l.phase = .found credentials) :
    Stepped verify s (.verify n)
      { s.setLogin n (l.enter (.verified (credentialsOk verify l.password credentials))) with
        log := s.log ++
          [(l.clientIp, .verified l.now (credentialsOk verify l.password credentials).isSome)] }
  | recordSucceeded {n : Nat} {l : Login} {adminId : Int} (hl : s.logins n = some l)
    (hp : l.phase = .verified (some adminId)) :
    Stepped verify s (.record n) (recordSucceeded s n l adminId)
  | recordFailed {n : Nat} {l : Login} (hl : s.logins n = some l) (hp : l.phase = .verified none) :
    Stepped verify s (.record n) (recordFailed s n l)
  | openSession {n : Nat} {l : Login} {adminId : Int} (token csrfToken : String)
    (hl : s.logins n = some l) (hp : l.phase = .cleared adminId) :
    Stepped verify s (.openSession n token csrfToken)
      { s.setLogin n (l.enter (.opened token)) with
        sessions := s.sessions.create token csrfToken adminId l.now }
  | audit {n : Nat} {l : Login} {row : AuditRow} {p : LoginPhase} (hl : s.logins n = some l)
    (hrow : auditOf l = some (row, p)) :
    Stepped verify s (.audit n)
      { s.setLogin n (l.enter p) with audit := s.audit ++ [row] }
  | fail {n : Nat} {l : Login} (hl : s.logins n = some l) (hwaits : l.phase.waits = true) :
    Stepped verify s (.fail n) (s.setLogin n (l.enter (.done none)))

theorem stepped_of_step {verify : PasswordVerifier} {s s' : State} {a : Act}
    (h : step verify s a = some s') : Stepped verify s a s' := by
  cases a with
  | check n clientIp username password now =>
    simp only [step] at h
    split at h <;> cases h
    rename_i hguard
    exact .check clientIp username password hguard.1 hguard.2
  | find n credentials =>
    obtain ⟨l, hl, h⟩ := Option.bind_eq_some_iff.mp h
    split at h <;> cases h
    exact .find credentials hl ‹_›
  | verify n =>
    obtain ⟨l, hl, h⟩ := Option.bind_eq_some_iff.mp h
    split at h <;> cases h
    exact .verify hl ‹_›
  | record n =>
    obtain ⟨l, hl, h⟩ := Option.bind_eq_some_iff.mp h
    split at h <;> cases h
    · exact .recordSucceeded hl ‹_›
    · exact .recordFailed hl ‹_›
  | openSession n token csrfToken =>
    obtain ⟨l, hl, h⟩ := Option.bind_eq_some_iff.mp h
    split at h <;> cases h
    exact .openSession token csrfToken hl ‹_›
  | audit n =>
    obtain ⟨l, hl, h⟩ := Option.bind_eq_some_iff.mp h
    obtain ⟨⟨row, p⟩, hrow, rfl⟩ := Option.map_eq_some_iff.mp h
    exact .audit hl hrow
  | fail n =>
    obtain ⟨l, hl, h⟩ := Option.bind_eq_some_iff.mp h
    split at h <;> cases h
    exact .fail hl ‹_›

/-- Only the login that moves changes. -/
theorem setLogin_logins {s : State} {n m : Nat} {l l' : Login}
    (h : (s.setLogin n l).logins m = some l') : m = n ∧ l' = l ∨ m ≠ n ∧ s.logins m = some l' := by
  by_cases hm : m = n
  · simp only [State.setLogin, if_pos hm, Option.some.injEq] at h
    exact .inl ⟨hm, h.symm⟩
  · simp only [State.setLogin, if_neg hm] at h
    exact .inr ⟨hm, h⟩

end Admin
end GreenRelay
