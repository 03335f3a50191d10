/-
The handlers of the admin area.

There are two front-ends, the HTML portal and the JSON API, with the same guards
written out in each of their handlers: the session cookie must name a session
that validates, and a request that changes something must come with the CSRF
token of that session, in a form field or in a header.

A handler runs to its end on the state it finds.  Which of its database calls
fail is up to the environment, and so are the time and the random values
(`Moment`).  Pages are given by the data they are rendered from, and timestamps
by their stored text.
-/
import GreenRelay.Admin.Sessions
import GreenRelay.Auth.Keys
import GreenRelay.Modem.Protocol
import GreenRelay.Lib.Unicode

namespace GreenRelay
namespace Admin

open Text Unicode
open Auth (ApiKeys ApiKeyRecord CachedKey Digest keyIdentifier rateLimitOfColumn secs)

/-! ## State -/

structure AuditEvent where
  eventType : String
  keyIdentifier : Option String
  detail : Option String
  createdAt : String
  deriving DecidableEq, Repr

structure ActivityEntry where
  timestamp : Nat
  description : String
  deriving DecidableEq, Repr

structure OutboundActivityRow where
  createdAt : Nat
  status : String
  toNumber : String

structure InboundActivityRow where
  receivedAt : Nat
  fromNumber : String

/-- The tables behind the admin area.  The message tables are only read, by the
queries for what came since some time. -/
structure Db where
  apiKeys : ApiKeys
  audit : List AuditEvent
  recentOutboundActivity : Nat → List OutboundActivityRow
  recentInboundActivity : Nat → List InboundActivityRow

structure AdminState where
  db : Db
  keyCache : String → Option CachedKey
  sessions : SessionStore
  modem : ModemStatusSnapshot
  cookieSecure : Bool

inductive DbCall where
  | insertApiKey
  | insertAudit
  | listApiKeys
  | apiKeyIdentifier
  | setApiKeyRevoked
  | recentOutboundActivity
  | recentInboundActivity
  deriving DecidableEq, Repr

/-- What a handler gets from outside: the instant, the wall clock and its text,
which of its database calls fail, and random values.  The hash of a password has
a random salt in it. -/
structure Moment where
  now : Nat
  nowUtc : Nat
  rfc3339 : String
  fails : DbCall → Bool
  randomToken : String
  hashPassword : String → String

/-! ## API keys -/

structure ApiKeyView where
  id : Nat
  keyIdentifier : String
  customRateLimit : Option Nat
  revoked : Bool
  createdAt : String
  deriving DecidableEq, Repr

def insertAudit (s : AdminState) (m : Moment) (eventType : String) (identifier : Option String)
    (detail : String) : AdminState :=
  { s with db := { s.db with
      audit := s.db.audit ++ [⟨eventType, identifier, some detail, m.rfc3339⟩] } }

/-- The key that was inserted stays when its audit row fails. -/
def createApiKey (sha256 : Digest) (s : AdminState) (m : Moment) :
    AdminState × Option (String × ApiKeyView) :=
  let plaintext := "sk_" ++ m.randomToken
  let identifier := keyIdentifier sha256 plaintext
  let keyHash := m.hashPassword plaintext
  if m.fails .insertApiKey then (s, none)
  else
    match s.db.apiKeys.insertApiKey keyHash identifier m.rfc3339 with
    | none => (s, none)
    | some keys =>
      let s := { s with db := { s.db with apiKeys := keys } }
      if m.fails .insertAudit then (s, none)
      else (insertAudit s m "api_key_created" (some identifier) "admin created a new API key",
        some (plaintext, ⟨keys.table.seq, identifier, none, false, m.rfc3339⟩))

/-- `ORDER BY created_at DESC, id DESC`. -/
def newestFirst (a b : ApiKeyRecord) : Prop :=
  b.createdAt < a.createdAt ∨ (b.createdAt = a.createdAt ∧ b.id ≤ a.id)

instance : DecidableRel newestFirst := fun _ _ => inferInstanceAs (Decidable (_ ∨ _))

def viewOf (r : ApiKeyRecord) : ApiKeyView :=
  ⟨r.id, r.keyIdentifier, r.customRateLimit.bind rateLimitOfColumn, r.revoked, r.createdAt⟩

def listApiKeys (s : AdminState) (m : Moment) : Option (List ApiKeyView) :=
  if m.fails .listApiKeys then none
  else some ((s.db.apiKeys.table.rows.insertionSort newestFirst).map viewOf)

/-- No row has a negative id. -/
def rowId (id : Int) : Option Nat := if 0 ≤ id then some id.toNat else none

def revokeApiKey (s : AdminState) (m : Moment) (id : Int) : AdminState × Option Nat :=
  if m.fails .apiKeyIdentifier then (s, none)
  else
    let identifier := (rowId id).bind s.db.apiKeys.apiKeyIdentifier
    if m.fails .setApiKeyRevoked then (s, none)
    else
      match rowId id with
      | none => (s, some 0)
      | some row =>
        let (keys, affected) := s.db.apiKeys.setApiKeyRevoked row
        let s := { s with db := { s.db with apiKeys := keys } }
        if 0 < affected then
          let s := match identifier with
            | some identifier =>
              { s with keyCache := fun i => if i = identifier then none else s.keyCache i }
            | none => s
          if m.fails .insertAudit then (s, none)
          else (insertAudit s m "api_key_revoked" identifier "admin revoked an API key",
            some affected)
        else (s, some affected)

/-! ## Dashboard -/

inductive ServiceHealth where
  | healthy
  | degraded
  | unhealthy
  deriving DecidableEq, Repr

def deriveHealth (s : ModemStatusSnapshot) : ServiceHealth :=
  if !s.serialConnected || !s.responsive || !s.simStatus.isReady then .unhealthy
  else if !s.registered then .degraded
  else .healthy

structure DashboardData where
  health : ServiceHealth
  signalPercent : Option Nat
  recent : List ActivityEntry
  deriving DecidableEq, Repr

def recentActivityLimit : Nat := 10

def dayWindow : Nat := secs (24 * 60 * 60)

def recentActivity (entries : List ActivityEntry) (now : Nat) : List ActivityEntry :=
  let recent := entries.filter (fun e => e.timestamp ≤ now && now - e.timestamp ≤ dayWindow)
  (recent.insertionSort (fun a b => b.timestamp ≤ a.timestamp)).take recentActivityLimit

def recentMessageActivity (s : AdminState) (m : Moment) : Option (List ActivityEntry) :=
  let cutoff := m.nowUtc - dayWindow
  if m.fails .recentOutboundActivity || m.fails .recentInboundActivity then none
  else some (
    (s.db.recentOutboundActivity cutoff).map (fun row =>
      ⟨row.createdAt, "Outbound to " ++ row.toNumber ++ " (" ++ row.status ++ ")"⟩) ++
    (s.db.recentInboundActivity cutoff).map (fun row =>
      ⟨row.receivedAt, "Inbound from " ++ row.fromNumber⟩))

def dashboardData (s : AdminState) (m : Moment) : Option DashboardData :=
  (recentMessageActivity s m).map (fun recent =>
    ⟨deriveHealth s.modem, s.modem.signalPercent, recentActivity recent m.nowUtc⟩)

/-! ## Requests -/

/-- Headers in their order, under lower-case names. -/
abbrev HeaderMap := List (String × List UInt8)

def header (headers : HeaderMap) (name : String) : Option (List UInt8) :=
  (headers.find? (·.1 = name)).map (·.2)

/-- `HeaderValue::to_str`: visible ASCII characters and tabs. -/
def toStr (value : List UInt8) : Option (List Char) :=
  if value.all (fun b => b == 9 || (32 ≤ b && b < 127)) then decodeAscii value else none

def sessionCookieName : String := "admin_session"

def parseCookie (headerValue : List Char) (name : String) : Option String :=
  (headerValue.splitOn ';').findSome? (fun pair =>
    (splitOnce '=' pair).bind (fun (k, v) =>
      if trim k = name.toList then some (String.ofList (trimMatches '"' (trim v))) else none))

def sessionTokenFromHeaders (headers : HeaderMap) : Option String :=
  ((header headers "cookie").bind toStr).bind (parseCookie · sessionCookieName)

inductive Authz where
  | authorized (id : Int)
  | redirect
  deriving DecidableEq, Repr

def authorize (s : AdminState) (headers : HeaderMap) (now : Nat) : AdminState × Authz :=
  match sessionTokenFromHeaders headers with
  | none => (s, .redirect)
  | some token =>
    let (sessions, id) := s.sessions.validate token now
    ({ s with sessions := sessions },
      match id with
      | some id => .authorized id
      | none => .redirect)

def csrfTokenForRequest (s : AdminState) (headers : HeaderMap) (now : Nat) : Option String :=
  (sessionTokenFromHeaders headers).bind (s.sessions.csrfToken · now)

def constantTimeEq (a b : List UInt8) : Bool :=
  if a.length ≠ b.length then false
  else (a.zip b).foldl (fun diff p => diff ||| (p.1 ^^^ p.2)) 0 == 0

def csrfValid (s : AdminState) (headers : HeaderMap) (submitted : String) (now : Nat) : Bool :=
  match csrfTokenForRequest s headers now with
  | some expected =>
    expected != "" && constantTimeEq (utf8 expected.toList) (utf8 submitted.toList)
  | none => false

def csrfHeader : String := "x-csrf-token"

/-- The token in the header, or the empty text. -/
def headerToken (headers : HeaderMap) : String :=
  String.ofList (((header headers csrfHeader).bind toStr).getD [])

def jsonCsrfOk (s : AdminState) (headers : HeaderMap) (now : Nat) : Bool :=
  csrfValid s headers (headerToken headers) now

/-- A field that is missing is the empty text. -/
structure CsrfForm where
  csrfToken : String
  deriving DecidableEq, Repr

/-- What an extractor answers to a body that is no form, or to a path without a
number. -/
structure Rejection where
  status : Nat
  text : String
  deriving DecidableEq, Repr

/-- What the extractors make of a request. -/
structure Request where
  headers : HeaderMap
  form : Except Rejection CsrfForm
  id : Except Rejection Int

/-! ## Responses -/

inductive Body where
  | empty
  | text (text : String)
  | html (text : String)
  | loginPage (error : Option String)
  | dashboardPage (data : DashboardData) (csrf : String)
  | keysPage (keys : List ApiKeyView) (newKey : Option String) (csrf : String)
  | error (message : String)
  | session (csrfToken : String)
  | dashboard (health : ServiceHealth) (modem : ModemStatusSnapshot) (activity : List ActivityEntry)
  | keys (keys : List ApiKeyView)
  | createdKey (plaintext : String) (key : ApiKeyView)
  deriving DecidableEq, Repr

structure Response where
  status : Nat
  location : Option String
  setCookie : Option String
  body : Body
  deriving DecidableEq, Repr

def respond (status : Nat) (body : Body) : Response := ⟨status, none, none, body⟩

/-- `Redirect::to`. -/
def redirectTo (location : String) : Response := ⟨303, some location, none, .empty⟩

def Rejection.response (rejection : Rejection) : Response :=
  respond rejection.status (.text rejection.text)

def clearCookie (secure : Bool) : String :=
  sessionCookieName ++ "=; HttpOnly; SameSite=Strict; Path=/" ++
    (if secure then "; Secure" else "") ++ "; Max-Age=0"

def forbidden : Response := respond 403 (.html "<h1>Invalid or missing CSRF token</h1>")

def jsonServerError (message : String) : Response := respond 500 (.error message)

def jsonForbiddenCsrf : Response := respond 403 (.error "Invalid or missing CSRF token.")

/-- A handler goes on with a session that validates. -/
def withSession (s : AdminState) (headers : HeaderMap) (now : Nat) (refusal : Response)
    (act : AdminState → AdminState × Response) : AdminState × Response :=
  match authorize s headers now with
  | (s, .redirect) => (s, refusal)
  | (s, .authorized _) => act s

def removePresented (s : AdminState) (headers : HeaderMap) : AdminState :=
  match sessionTokenFromHeaders headers with
  | some token => { s with sessions := s.sessions.remove token }
  | none => s

/-! ## The HTML portal -/

namespace Html

def loginForm (s : AdminState) : AdminState × Response := (s, respond 200 (.loginPage none))

def logout (s : AdminState) (m : Moment) (headers : HeaderMap) (form : CsrfForm) :
    AdminState × Response :=
  withSession s headers m.now (redirectTo "/admin/login") (fun s =>
    if !csrfValid s headers form.csrfToken m.now then (s, forbidden)
    else
      let s := removePresented s headers
      (s, { redirectTo "/admin/login" with setCookie := some (clearCookie s.cookieSecure) }))

def dashboard (s : AdminState) (m : Moment) (headers : HeaderMap) : AdminState × Response :=
  withSession s headers m.now (redirectTo "/admin/login") (fun s =>
    let csrf := (csrfTokenForRequest s headers m.now).getD ""
    match dashboardData s m with
    | some data => (s, respond 200 (.dashboardPage data csrf))
    | none => (s, respond 500 (.html "<h1>Dashboard unavailable</h1>")))

def keysView (s : AdminState) (m : Moment) (headers : HeaderMap) : AdminState × Response :=
  withSession s headers m.now (redirectTo "/admin/login") (fun s =>
    let csrf := (csrfTokenForRequest s headers m.now).getD ""
    match listApiKeys s m with
    | some keys => (s, respond 200 (.keysPage keys none csrf))
    | none => (s, respond 500 (.html "<h1>Unable to load API keys</h1>")))

def keysCreate (sha256 : Digest) (s : AdminState) (m : Moment) (headers : HeaderMap)
    (form : CsrfForm) : AdminState × Response :=
  withSession s headers m.now (redirectTo "/admin/login") (fun s =>
    if !csrfValid s headers form.csrfToken m.now then (s, forbidden)
    else
      let csrf := (csrfTokenForRequest s headers m.now).getD ""
      match createApiKey sha256 s m with
      | (s, some (plaintext, _)) =>
        match listApiKeys s m with
        | some keys => (s, respond 200 (.keysPage keys (some plaintext) csrf))
        | none => (s, respond 500 (.html "<h1>Key created but listing failed</h1>"))
      | (s, none) => (s, respond 500 (.html "<h1>Unable to create API key</h1>")))

def keysRevoke (s : AdminState) (m : Moment) (headers : HeaderMap) (id : Int) (form : CsrfForm) :
    AdminState × Response :=
  withSession s headers m.now (redirectTo "/admin/login") (fun s =>
    if !csrfValid s headers form.csrfToken m.now then (s, forbidden)
    else
      match revokeApiKey s m id with
      | (s, some _) => (s, redirectTo "/admin/keys")
      | (s, none) => (s, respond 500 (.html "<h1>Unable to revoke API key</h1>")))

end Html

/-! ## The JSON API -/

namespace Json

def apiSession (s : AdminState) (m : Moment) (headers : HeaderMap) : AdminState × Response :=
  withSession s headers m.now (respond 401 .empty) (fun s =>
    (s, respond 200 (.session ((csrfTokenForRequest s headers m.now).getD ""))))

def apiLogout (s : AdminState) (m : Moment) (headers : HeaderMap) : AdminState × Response :=
  withSession s headers m.now (respond 401 .empty) (fun s =>
    if !jsonCsrfOk s headers m.now then (s, jsonForbiddenCsrf)
    else
      let s := removePresented s headers
      (s, { respond 200 .empty with setCookie := some (clearCookie s.cookieSecure) }))

def apiDashboard (s : AdminState) (m : Moment) (headers : HeaderMap) : AdminState × Response :=
  withSession s headers m.now (respond 401 .empty) (fun s =>
    match recentMessageActivity s m with
    | some entries =>
      (s, respond 200 (.dashboard (deriveHealth s.modem) s.modem
        (recentActivity entries m.nowUtc)))
    | none => (s, jsonServerError "Failed to load dashboard."))

def apiKeysList (s : AdminState) (m : Moment) (headers : HeaderMap) : AdminState × Response :=
  withSession s headers m.now (respond 401 .empty) (fun s =>
    match listApiKeys s m with
    | some keys => (s, respond 200 (.keys keys))
    | none => (s, jsonServerError "Unable to load API keys."))

def apiKeysCreate (sha256 : Digest) (s : AdminState) (m : Moment) (headers : HeaderMap) :
    AdminState × Response :=
  withSession s headers m.now (respond 401 .empty) (fun s =>
    if !jsonCsrfOk s headers m.now then (s, jsonForbiddenCsrf)
    else
      match createApiKey sha256 s m with
      | (s, some (plaintext, view)) => (s, respond 201 (.createdKey plaintext view))
      | (s, none) => (s, jsonServerError "Unable to create API key."))

def apiKeysRevoke (s : AdminState) (m : Moment) (headers : HeaderMap) (id : Int) :
    AdminState × Response :=
  withSession s headers m.now (respond 401 .empty) (fun s =>
    if !jsonCsrfOk s headers m.now then (s, jsonForbiddenCsrf)
    else
      match revokeApiKey s m id with
      | (s, some _) => (s, respond 200 .empty)
      | (s, none) => (s, jsonServerError "Unable to revoke API key."))

end Json

/-! ## Routes -/

/-- The handlers that change something. -/
inductive Mutator where
  | logout
  | keysCreate
  | keysRevoke
  | apiLogout
  | apiKeysCreate
  | apiKeysRevoke
  deriving DecidableEq, Repr

inductive Reader where
  | loginForm
  | dashboard
  | keysView
  | apiSession
  | apiDashboard
  | apiKeysList
  deriving DecidableEq, Repr

def Mutator.handle (sha256 : Digest) (s : AdminState) (m : Moment) (r : Request) :
    Mutator → AdminState × Response
  | .logout =>
    match r.form with
    | .ok form => Html.logout s m r.headers form
    | .error rejection => (s, rejection.response)
  | .keysCreate =>
    match r.form with
    | .ok form => Html.keysCreate sha256 s m r.headers form
    | .error rejection => (s, rejection.response)
  | .keysRevoke =>
    match r.id, r.form with
    | .ok id, .ok form => Html.keysRevoke s m r.headers id form
    | .error rejection, _ => (s, rejection.response)
    | .ok _, .error rejection => (s, rejection.response)
  | .apiLogout => Json.apiLogout s m r.headers
  | .apiKeysCreate => Json.apiKeysCreate sha256 s m r.headers
  | .apiKeysRevoke =>
    match r.id with
    | .ok id => Json.apiKeysRevoke s m r.headers id
    | .error rejection => (s, rejection.response)

/-- Where the handler takes the CSRF token from. -/
def Mutator.submitted (r : Request) : Mutator → String
  | .logout | .keysCreate | .keysRevoke =>
    match r.form with
    | .ok form => form.csrfToken
    | .error _ => ""
  | .apiLogout | .apiKeysCreate | .apiKeysRevoke => headerToken r.headers

def Reader.handle (s : AdminState) (m : Moment) (headers : HeaderMap) :
    Reader → AdminState × Response
  | .loginForm => Html.loginForm s
  | .dashboard => Html.dashboard s m headers
  | .keysView => Html.keysView s m headers
  | .apiSession => Json.apiSession s m headers
  | .apiDashboard => Json.apiDashboard s m headers
  | .apiKeysList => Json.apiKeysList s m headers

end Admin
end GreenRelay
