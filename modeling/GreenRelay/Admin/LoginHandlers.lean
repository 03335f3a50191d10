/-
The login as one call, and the two handlers around it.

The pipeline is the one that runs as a task elsewhere; here it runs to its end
on the state it finds, and what may go wrong is each of its database calls in
turn.  Nothing of what it did before a call that fails is taken back.
-/
import GreenRelay.Admin.Portal

namespace GreenRelay
namespace Admin

open Auth (secs toHex)

/-! ## The pipeline -/

/-- The admin area with what only a login looks at.  The service reads the table of
admin users and never writes it. -/
structure Portal where
  admin : AdminState
  loginTracker : AdminLoginTracker
  adminUsers : String → Option Credentials

/-- What a login gets from outside: the instant, the text of the wall clock, which
of its database calls fail, counted from 0, and the bytes of its two tokens. -/
structure LoginMoment where
  now : Nat
  rfc3339 : String
  fails : Nat → Bool
  tokenBytes : Vector UInt8 32
  csrfBytes : Vector UInt8 32

def randomToken (bytes : Vector UInt8 32) : String := toHex bytes.toList

def LoginMoment.token (m : LoginMoment) : String := randomToken m.tokenBytes

def Portal.audited (p : Portal) (m : LoginMoment) (eventType detail : String) : Portal :=
  { p with admin := { p.admin with db := { p.admin.db with
      audit := p.admin.db.audit ++ [⟨eventType, none, some detail, m.rfc3339⟩] } } }

def Portal.succeeded (p : Portal) (m : LoginMoment) (clientIp : String) (adminId : Int) : Portal :=
  { p with
    loginTracker := p.loginTracker.recordSuccess clientIp
    admin := { p.admin with
      sessions := p.admin.sessions.create m.token (randomToken m.csrfBytes) adminId m.now } }

def Portal.failed (p : Portal) (m : LoginMoment) (clientIp : String) : Portal :=
  { p with loginTracker := p.loginTracker.recordFailure clientIp m.now }

/-- `none` is an error of the database. -/
def performLogin (verify : PasswordVerifier) (p : Portal) (m : LoginMoment)
    (username password clientIp : String) : Portal × Option LoginResult :=
  if p.loginTracker.isLocked clientIp m.now then
    if m.fails 0 then (p, none)
    else (p.audited m "admin_login_locked_out"
      ("login rejected from locked source for `" ++ username ++ "`"), some .lockedOut)
  else if m.fails 0 then (p, none)
  else
    match credentialsOk verify password (p.adminUsers username) with
    | some adminId =>
      let p := p.succeeded m clientIp adminId
      if m.fails 1 then (p, none)
      else (p.audited m "admin_login_success" ("admin `" ++ username ++ "` authenticated"),
        some (.success m.token))
    | none =>
      let p := p.failed m clientIp
      let nowLocked := p.loginTracker.isLocked clientIp m.now
      if m.fails 1 then (p, none)
      else
        let p := p.audited m "admin_login_failed" ("failed login for `" ++ username ++ "`")
        if nowLocked then
          if m.fails 2 then (p, none)
          else (p.audited m "admin_login_locked_out"
            ("account `" ++ username ++ "` locked after repeated failures"), some .lockedOut)
        else (p, some .failed)

/-! ## The session cookie -/

def asSecs (duration : Nat) : Nat := duration / secs 1

def sessionCookie (token : String) (secure : Bool) : String :=
  sessionCookieName ++ "=" ++ token ++ "; HttpOnly; SameSite=Strict; Path=/" ++
    (if secure then "; Secure" else "") ++ "; Max-Age=" ++ toString (asSecs sessionIdleTimeout)

/-- `HeaderValue::from_str`: visible ASCII characters and tabs. -/
def headerValue (text : String) : Option String :=
  if text.toList.all (fun c => c == '\t' || (32 ≤ c.toNat && c.toNat < 127)) then some text
  else none

/-! ## Handlers -/

structure LoginForm where
  username : String
  password : String
  deriving DecidableEq, Repr

def Html.loginSubmit (verify : PasswordVerifier) (p : Portal) (m : LoginMoment) (ip : String)
    (form : LoginForm) : Portal × Response :=
  match performLogin verify p m form.username form.password ip with
  | (p, some (.success token)) =>
    (p, { redirectTo "/admin" with
      setCookie := headerValue (sessionCookie token p.admin.cookieSecure) })
  | (p, some .failed) => (p, respond 401 (.loginPage (some "Invalid username or password.")))
  | (p, some .lockedOut) => (p, respond 401 (.loginPage (some
      "Account temporarily locked due to repeated failed logins. Try again later.")))
  | (p, none) => (p, respond 500 (.loginPage (some "A server error occurred. Please try again.")))

def Json.apiLogin (verify : PasswordVerifier) (p : Portal) (m : LoginMoment) (ip : String)
    (body : LoginForm) : Portal × Response :=
  match performLogin verify p m body.username body.password ip with
  | (p, some (.success token)) =>
    (p, { respond 200 .empty with
      setCookie := headerValue (sessionCookie token p.admin.cookieSecure) })
  | (p, some .failed) => (p, respond 401 (.error "Invalid username or password."))
  | (p, some .lockedOut) =>
    (p, respond 429 (.error "Account temporarily locked after repeated failed logins."))
  | (p, none) => (p, jsonServerError "A server error occurred. Please try again.")

/-- The two ways to log in. -/
inductive FrontEnd where
  | html
  | json
  deriving DecidableEq, Repr

def FrontEnd.login (verify : PasswordVerifier) (p : Portal) (m : LoginMoment) (ip : String)
    (form : LoginForm) : FrontEnd → Portal × Response
  | .html => Html.loginSubmit verify p m ip form
  | .json => Json.apiLogin verify p m ip form

/-! ## What a login does -/

/-- The ways in which a login ends. -/
inductive LoginEnd (verify : PasswordVerifier) (p : Portal) (m : LoginMoment)
    (username password clientIp : String) : Portal → Option LoginResult → Prop
  | unread (hfail : m.fails 0 = true) :
    LoginEnd verify p m username password clientIp p none
  | locked (detail : String) (hlocked : p.loginTracker.isLocked clientIp m.now = true) :
    LoginEnd verify p m username password clientIp
      (p.audited m "admin_login_locked_out" detail) (some .lockedOut)
  | unaudited {adminId : Int} (hlocked : p.loginTracker.isLocked clientIp m.now = false)
    (hfind : m.fails 0 = false)
    (hok : credentialsOk verify password (p.adminUsers username) = some adminId)
    (hfail : m.fails 1 = true) :
    LoginEnd verify p m username password clientIp (p.succeeded m clientIp adminId) none
  | success {adminId : Int} (detail : String)
    (hok : credentialsOk verify password (p.adminUsers username) = some adminId) :
    LoginEnd verify p m username password clientIp
      ((p.succeeded m clientIp adminId).audited m "admin_login_success" detail)
      (some (.success m.token))
  | unrecorded {p' : Portal} (hlocked : p.loginTracker.isLocked clientIp m.now = false)
    (hfind : m.fails 0 = false)
    (hok : credentialsOk verify password (p.adminUsers username) = none)
    (hfail : m.fails 1 = true ∨ m.fails 2 = true)
    (hsessions : p'.admin.sessions = p.admin.sessions)
    (htracker : p'.loginTracker = (p.failed m clientIp).loginTracker) :
    LoginEnd verify p m username password clientIp p' none
  | refused {p' : Portal} {result : LoginResult} (hresult : ∀ token, result ≠ .success token)
    (hok : credentialsOk verify password (p.adminUsers username) = none)
    (hsessions : p'.admin.sessions = p.admin.sessions) :
    LoginEnd verify p m username password clientIp p' (some result)

theorem performLogin_end (verify : PasswordVerifier) (p : Portal) (m : LoginMoment)
    (username password clientIp : String) :
    LoginEnd verify p m username password clientIp
      (performLogin verify p m username password clientIp).1
      (performLogin verify p m username password clientIp).2 := by
  unfold performLogin
  cases hlocked : p.loginTracker.isLocked clientIp m.now with
  | true =>
    cases hfail : m.fails 0 with
    | true => exact .unread hfail
    | false => exact .locked _ hlocked
  | false =>
    cases hfind : m.fails 0 with
    | true => exact .unread hfind
    | false =>
      cases hok : credentialsOk verify password (p.adminUsers username) with
      | some adminId =>
        cases hfail : m.fails 1 with
        | true => exact .unaudited hlocked hfind hok hfail
        | false => exact .success _ hok
      | none =>
        cases hfail : m.fails 1 with
        | true => exact .unrecorded hlocked hfind hok (.inl hfail) rfl rfl
        | false =>
          cases hnow : (p.failed m clientIp).loginTracker.isLocked clientIp m.now with
          | false =>
            simp only [hnow]
            exact .refused (fun _ h => by cases h) hok rfl
          | true =>
            simp only [hnow]
            cases hlast : m.fails 2 with
            | true => exact .unrecorded hlocked hfind hok (.inr hlast) rfl rfl
            | false => exact .refused (fun _ h => by cases h) hok rfl

end Admin
end GreenRelay
