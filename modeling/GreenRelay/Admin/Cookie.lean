/-
The session cookie in the browser.

The server lets a session slide: every authorized request keeps it for another
`sessionIdleTimeout`.  The browser keeps the cookie for as long as the response
to the login told it, and no other response but that to a logout sets it again.
A session that is in use throughout is thus lost to the browser when the time
that the login gave the cookie is over.
-/
import GreenRelay.Admin.Gate
import GreenRelay.Admin.LoginHandlers
import Mathlib.Data.List.Chain

namespace GreenRelay
namespace Admin

open Text Unicode
open Auth (Digest secs lowerHex toHex)

/-! ## The browser -/

/-- The cookie `admin_session` as a browser keeps it. -/
structure Cookie where
  value : String
  expires : Nat
  deriving DecidableEq, Repr

abbrev Browser := Option Cookie

/-- The value in a part `name=value` of a header. -/
def attributeValue (name : String) (part : List Char) : Option (List Char) :=
  (splitOnce '=' (trim part)).bind (fun (k, v) => if k = name.toList then some v else none)

/-- The value and the `Max-Age` of a `Set-Cookie` for the session cookie. -/
def parseSetCookie (text : List Char) : Option (String × Nat) :=
  match text.splitOn ';' with
  | [] => none
  | pair :: attributes =>
    (attributeValue sessionCookieName pair).bind (fun value =>
      (attributes.findSome? (attributeValue "Max-Age")).bind (fun maxAge =>
        (parseUnsigned (2 ^ 64) maxAge).map (fun maxAge => (String.ofList value, maxAge))))

namespace Browser

def receive (b : Browser) (now : Nat) (r : Response) : Browser :=
  match r.setCookie.bind (fun text => parseSetCookie text.toList) with
  | some (value, maxAge) => some ⟨value, now + secs maxAge⟩
  | none => b

def sends (b : Browser) (now : Nat) : Option String :=
  (b.filter (fun c => now < c.expires)).map Cookie.value

/-- The headers of a request, with the cookie among them. -/
def headers (b : Browser) (now : Nat) (others : HeaderMap) : HeaderMap :=
  match b.sends now with
  | some value => ("cookie", utf8 (sessionCookieName ++ "=" ++ value).toList) :: others
  | none => others

end Browser

/-! ## Runs -/

inductive Handler where
  | reads (handler : Reader)
  | changes (handler : Mutator)
  deriving DecidableEq, Repr

namespace Handler

def handle (sha256 : Digest) (s : AdminState) (m : Moment) (r : Request) :
    Handler → AdminState × Response
  | .reads handler => handler.handle s m r.headers
  | .changes handler => handler.handle sha256 s m r

/-- The handlers for which one has to be logged in, apart from the logouts. -/
def authenticated : Handler → Bool
  | .reads .loginForm | .changes .logout | .changes .apiLogout => false
  | _ => true

/-- The extractors pass the request on to the handler. -/
def readable (r : Request) : Handler → Bool
  | .changes .logout | .changes .keysCreate => r.form.isOk
  | .changes .keysRevoke => r.id.isOk && r.form.isOk
  | .changes .apiKeysRevoke => r.id.isOk
  | _ => true

end Handler

/-- A request of the admin, without the cookie. -/
structure Visit where
  moment : Moment
  handler : Handler
  headers : HeaderMap
  form : Except Rejection CsrfForm
  id : Except Rejection Int

def Visit.request (v : Visit) (b : Browser) : Request :=
  ⟨b.headers v.moment.now v.headers, v.form, v.id⟩

/-- What the service meets after the admin has logged in: the requests of the
admin, those and the logins of everyone else, and its own sweeps. -/
inductive Event where
  | visit (v : Visit)
  | other (handler : Handler) (m : Moment) (r : Request)
  | login (front : FrontEnd) (m : LoginMoment) (ip : String) (form : LoginForm)
  | sweep (now : Nat)

namespace Event

def now : Event → Nat
  | .visit v => v.moment.now
  | .other _ m _ => m.now
  | .login _ m _ _ => m.now
  | .sweep now => now

def visited : Event → Option Nat
  | .visit v => some v.moment.now
  | _ => none

/-- The event of an admin who stays logged in, with `token`, and of others who have
other tokens. -/
def Fair (token : String) : Event → Prop
  | .visit v => v.handler.authenticated = true ∧ ∀ b, v.handler.readable (v.request b) = true
  | .other _ _ r => sessionTokenFromHeaders r.headers ≠ some token
  | .login _ m _ _ => m.token ≠ token
  | .sweep _ => True

end Event

/-- What comes of a request of the admin: the session cookie that is sent with it,
and whether it is authorized. -/
structure Seen where
  now : Nat
  sent : Option String
  authz : Authz
  deriving DecidableEq, Repr

def browse (sha256 : Digest) (verify : PasswordVerifier) :
    Portal → Browser → List Event → List Seen
  | _, _, [] => []
  | p, b, .visit v :: events =>
    let result := v.handler.handle sha256 p.admin v.moment (v.request b)
    ⟨v.moment.now, b.sends v.moment.now,
        (authorize p.admin (v.request b).headers v.moment.now).2⟩ ::
      browse sha256 verify { p with admin := result.1 } (b.receive v.moment.now result.2) events
  | p, b, .other handler m r :: events =>
    browse sha256 verify { p with admin := (handler.handle sha256 p.admin m r).1 } b events
  | p, b, .login front m ip form :: events =>
    browse sha256 verify (front.login verify p m ip form).1 b events
  | p, b, .sweep now :: events =>
    browse sha256 verify
      { p with admin := { p.admin with sessions := p.admin.sessions.sweepExpired now } } b events

/-! ## The text of the cookie -/

theorem lowerHex_mem (n : Nat) : lowerHex n ∈ "0123456789abcdef".toList := by
  rw [lowerHex, List.getD_eq_getElem?_getD]
  cases hget : "0123456789abcdef".toList[n]? with
  | none => decide
  | some c => exact List.mem_of_getElem? hget

theorem token_hex (bytes : Vector UInt8 32) :
    ∀ c ∈ (randomToken bytes).toList, c ∈ "0123456789abcdef".toList := by
  intro c hc
  rw [randomToken, toHex, String.toList_ofList, List.mem_flatMap] at hc
  obtain ⟨b, -, hc⟩ := hc
  rcases List.mem_cons.mp hc with rfl | hc
  · exact lowerHex_mem _
  · rw [List.mem_singleton.mp hc]
    exact lowerHex_mem _

/-- What a character of a token is not. -/
theorem token_char {bytes : Vector UInt8 32} {c : Char} (h : c ∈ (randomToken bytes).toList) :
    c ≠ ';' ∧ c ≠ '"' ∧ isWhite c = false ∧ 32 ≤ c.toNat ∧ c.toNat < 127 := by
  have hall : "0123456789abcdef".toList.all (fun c => c != ';' && c != '"' && !isWhite c &&
      decide (32 ≤ c.toNat) && decide (c.toNat < 127)) = true := by decide
  simpa [and_assoc] using List.all_eq_true.mp hall c (token_hex bytes c h)

theorem trim_plain {s : List Char} (h : ∀ c ∈ s, isWhite c = false) : trim s = s :=
  trim_of_ends (fun c hc => h c (List.mem_of_mem_head? hc))
    (fun c hc => h c (List.mem_of_getLast? hc))

theorem trim_token (bytes : Vector UInt8 32) :
    trim (randomToken bytes).toList = (randomToken bytes).toList :=
  trim_plain (fun _ hc => (token_char hc).2.2.1)

theorem cookieText_toList (token : String) :
    (sessionCookieName ++ "=" ++ token).toList =
      sessionCookieName.toList ++ '=' :: token.toList := by
  rw [String.toList_append, String.toList_append, List.append_assoc]
  rfl

theorem cookieText_char {bytes : Vector UInt8 32} {c : Char}
    (h : c ∈ (sessionCookieName ++ "=" ++ randomToken bytes).toList) :
    c ≠ ';' ∧ isWhite c = false ∧ 32 ≤ c.toNat ∧ c.toNat < 127 := by
  have hname : (sessionCookieName.toList ++ ['=']).all (fun c => c != ';' && !isWhite c &&
      decide (32 ≤ c.toNat) && decide (c.toNat < 127)) = true := by decide
  rw [cookieText_toList, List.append_cons] at h
  rcases List.mem_append.mp h with h | h
  · simpa [and_assoc] using List.all_eq_true.mp hname c h
  · obtain ⟨hsemi, -, hwhite, hrange⟩ := token_char h
    exact ⟨hsemi, hwhite, hrange⟩

theorem toStr_visible {s : List Char} (h : ∀ c ∈ s, 32 ≤ c.toNat ∧ c.toNat < 127) :
    toStr (utf8 s) = some s := by
  have hbytes : ∀ s : List Char, (∀ c ∈ s, 32 ≤ c.toNat ∧ c.toNat < 127) →
      (utf8 s).all (fun b => b == 9 || (32 ≤ b && b < 127)) = true := by
    intro s
    induction s with
    | nil => exact fun _ => rfl
    | cons c s ih =>
      intro h
      obtain ⟨hlow, hhigh⟩ := h c List.mem_cons_self
      have hascii : c.toNat < 128 := Nat.lt_succ_of_lt hhigh
      rw [utf8_cons, utf8EncodeChar_ascii hascii, List.singleton_append, List.all_cons,
        ih (fun d hd => h d (List.mem_cons_of_mem c hd)), Bool.and_true]
      simp [UInt8.le_iff_toNat_le, UInt8.lt_iff_toNat_lt, byte_ascii hascii, hlow, hhigh]
  rw [toStr, if_pos (hbytes s h), decodeAscii_utf8 (fun c hc => Nat.lt_succ_of_lt (h c hc).2)]

/-- The server reads back the token that the browser sends. -/
theorem sessionTokenFromHeaders_cookie (bytes : Vector UInt8 32) (others : HeaderMap) :
    sessionTokenFromHeaders
      (("cookie", utf8 (sessionCookieName ++ "=" ++ randomToken bytes).toList) :: others) =
      some (randomToken bytes) := by
  have hsplit : (sessionCookieName ++ "=" ++ randomToken bytes).toList.splitOn ';' =
      [(sessionCookieName ++ "=" ++ randomToken bytes).toList] :=
    List.splitOn_eq_singleton (fun h => (cookieText_char h).1 rfl)
  have hquote : trimMatches '"' (randomToken bytes).toList = (randomToken bytes).toList :=
    trimMatches_plain (fun h => (token_char h).2.1 rfl)
  have hheader : header (("cookie", utf8 (sessionCookieName ++ "=" ++ randomToken bytes).toList) ::
      others) "cookie" = some (utf8 (sessionCookieName ++ "=" ++ randomToken bytes).toList) := by
    simp [header]
  rw [sessionTokenFromHeaders, hheader, Option.bind_some,
    toStr_visible (fun c hc => (cookieText_char hc).2.2), Option.bind_some, parseCookie, hsplit,
    cookieText_toList, List.findSome?_singleton, splitOnce_append (by decide), Option.bind_some]
  show (if trim sessionCookieName.toList = sessionCookieName.toList then
    some (String.ofList (trimMatches '"' (trim (randomToken bytes).toList))) else none) = _
  rw [if_pos (by decide), trim_token, hquote, String.ofList_toList]

/-- What stands after the token in the cookie that is set. -/
def cookieAttributes (secure : Bool) : List Char :=
  " HttpOnly; SameSite=Strict; Path=/".toList ++
    ((if secure then "; Secure" else "").toList ++ "; Max-Age=1800".toList)

theorem sessionCookie_toList (token : String) (secure : Bool) :
    (sessionCookie token secure).toList =
      (sessionCookieName ++ "=" ++ token).toList ++ ';' :: cookieAttributes secure := by
  have hrest : ("; HttpOnly; SameSite=Strict; Path=/" ++ ((if secure then "; Secure" else "") ++
      ("; Max-Age=" ++ toString (asSecs sessionIdleTimeout)))).toList =
      ';' :: cookieAttributes secure := by
    cases secure <;> decide +kernel
  rw [← hrest, ← String.toList_append]
  refine congrArg String.toList ?_
  simp only [sessionCookie, String.append_assoc]

/-- The browser reads the token and the time out of the cookie that is set. -/
theorem parseSetCookie_sessionCookie (bytes : Vector UInt8 32) (secure : Bool) :
    parseSetCookie (sessionCookie (randomToken bytes) secure).toList =
      some (randomToken bytes, asSecs sessionIdleTimeout) := by
  have htrim : trim (sessionCookieName ++ "=" ++ randomToken bytes).toList =
      (sessionCookieName ++ "=" ++ randomToken bytes).toList :=
    trim_plain (fun _ hc => (cookieText_char hc).2.1)
  have hpair : attributeValue sessionCookieName
      (sessionCookieName ++ "=" ++ randomToken bytes).toList =
      some (randomToken bytes).toList := by
    rw [attributeValue, htrim, cookieText_toList, splitOnce_append (by decide), Option.bind_some]
    exact if_pos rfl
  have hage : ((cookieAttributes secure).splitOn ';').findSome? (attributeValue "Max-Age") =
      some "1800".toList := by
    cases secure <;> decide +kernel
  have hparse : parseUnsigned (2 ^ 64) "1800".toList = some (asSecs sessionIdleTimeout) := by
    decide +kernel
  rw [parseSetCookie, sessionCookie_toList,
    List.splitOn_append_cons_self_of_not_mem (fun h => (cookieText_char h).1 rfl)]
  simp only [hpair, hage, hparse, Option.bind_some, Option.map_some, String.ofList_toList]

theorem headerValue_sessionCookie (bytes : Vector UInt8 32) (secure : Bool) :
    headerValue (sessionCookie (randomToken bytes) secure) =
      some (sessionCookie (randomToken bytes) secure) := by
  have hattributes : (';' :: cookieAttributes secure).all
      (fun c => c == '\t' || (32 ≤ c.toNat && c.toNat < 127)) = true := by
    cases secure <;> decide +kernel
  refine if_pos ?_
  rw [sessionCookie_toList, List.all_append, hattributes, Bool.and_true, List.all_eq_true]
  intro c hc
  simp [(cookieText_char hc).2.2]

/-! ## The server -/

/-- A handler that leaves the sessions alone once it has one, and sets no cookie. -/
theorem withSession_sessions {s : AdminState} {headers : HeaderMap} {now : Nat} {refusal : Response}
    {act : AdminState → AdminState × Response} (hrefusal : refusal.setCookie = none)
    (hact : ∀ s, (act s).1.sessions = s.sessions ∧ (act s).2.setCookie = none) :
    (withSession s headers now refusal act).1.sessions = (authorize s headers now).1.sessions ∧
      (withSession s headers now refusal act).2.setCookie = none := by
  unfold withSession
  generalize authorize s headers now = result
  obtain ⟨s', authz⟩ := result
  cases authz with
  | redirect => exact ⟨rfl, hrefusal⟩
  | authorized id => exact hact s'

theorem createApiKey_sessions (sha256 : Digest) (s : AdminState) (m : Moment) :
    (createApiKey sha256 s m).1.sessions = s.sessions := by
  unfold createApiKey
  cases m.fails .insertApiKey with
  | true => rfl
  | false =>
    simp only [Bool.false_eq_true, if_false]
    split
    · rfl
    · cases m.fails .insertAudit <;> rfl

theorem revokeApiKey_sessions (s : AdminState) (m : Moment) (id : Int) :
    (revokeApiKey s m id).1.sessions = s.sessions := by
  unfold revokeApiKey
  split
  · rfl
  · split
    · rfl
    · split
      · rfl
      · simp only
        split
        · cases (rowId id).bind s.db.apiKeys.apiKeyIdentifier <;>
            cases m.fails .insertAudit <;> rfl
        · rfl

theorem lookup_authorize (s : AdminState) (headers : HeaderMap) (now : Nat) (token : String) :
    (authorize s headers now).1.sessions.sessions.lookup token =
      if sessionTokenFromHeaders headers = some token then
        (s.sessions.current token now).map (fun session => { session with lastActivity := now })
      else s.sessions.sessions.lookup token := by
  unfold authorize
  cases htoken : sessionTokenFromHeaders headers with
  | none => rfl
  | some presented =>
    refine (s.sessions.lookup_validate presented now token).trans ?_
    simp only [Option.some.injEq]
    by_cases heq : token = presented
    · subst heq
      rw [if_pos rfl]
    · rw [if_neg heq, if_neg (Ne.symm heq)]

theorem exists_of_isOk {α : Type} {x : Except Rejection α} (h : x.isOk = true) :
    ∃ a, x = .ok a := by
  cases x with
  | error rejection => cases h
  | ok a => exact ⟨a, rfl⟩

theorem exists_of_not_isOk {α : Type} {x : Except Rejection α} (h : x.isOk = false) :
    ∃ rejection, x = .error rejection := by
  cases x with
  | error rejection => exact ⟨rejection, rfl⟩
  | ok a => cases h

/-- An authenticated handler that a request reaches authorizes it and does nothing
else to the sessions. -/
theorem Handler.authenticated_effect (sha256 : Digest) (s : AdminState) (m : Moment) {r : Request}
    {handler : Handler} (h : handler.authenticated = true) (hr : handler.readable r = true) :
    (handler.handle sha256 s m r).1.sessions = (authorize s r.headers m.now).1.sessions ∧
      (handler.handle sha256 s m r).2.setCookie = none := by
  cases handler with
  | reads handler =>
    cases handler with
    | loginForm => cases h
    | dashboard =>
      exact withSession_sessions rfl (fun s => by cases dashboardData s m <;> exact ⟨rfl, rfl⟩)
    | keysView | apiKeysList =>
      exact withSession_sessions rfl (fun s => by cases listApiKeys s m <;> exact ⟨rfl, rfl⟩)
    | apiSession => exact withSession_sessions rfl (fun s => ⟨rfl, rfl⟩)
    | apiDashboard =>
      exact withSession_sessions rfl
        (fun s => by cases recentMessageActivity s m <;> exact ⟨rfl, rfl⟩)
  | changes handler =>
    have hgated : ∀ {refusal denial : Response} {submitted : String}
        {change : AdminState → AdminState × Response}, refusal.setCookie = none →
        denial.setCookie = none →
        (∀ s, (change s).1.sessions = s.sessions ∧ (change s).2.setCookie = none) →
        (withSession s r.headers m.now refusal (fun s =>
          if !csrfValid s r.headers submitted m.now then (s, denial) else change s)).1.sessions =
          (authorize s r.headers m.now).1.sessions ∧
        (withSession s r.headers m.now refusal (fun s =>
          if !csrfValid s r.headers submitted m.now then (s, denial)
          else change s)).2.setCookie = none := by
      intro refusal denial submitted change hrefusal hdenial hchange
      refine withSession_sessions hrefusal (fun s => ?_)
      cases csrfValid s r.headers submitted m.now with
      | true => exact hchange s
      | false => exact ⟨rfl, hdenial⟩
    cases handler with
    | logout | apiLogout => cases h
    | keysCreate =>
      obtain ⟨form, hform⟩ := exists_of_isOk hr
      rw [handle, Mutator.handle, hform]
      refine hgated rfl rfl (fun s => ?_)
      have hcreated := createApiKey_sessions sha256 s m
      generalize createApiKey sha256 s m = result at hcreated
      obtain ⟨s', created⟩ := result
      cases created with
      | none => exact ⟨hcreated, rfl⟩
      | some key =>
        simp only
        cases listApiKeys s' m <;> exact ⟨hcreated, rfl⟩
    | keysRevoke =>
      obtain ⟨hid, hform⟩ := Bool.and_eq_true_iff.mp hr
      obtain ⟨id, hid⟩ := exists_of_isOk hid
      obtain ⟨form, hform⟩ := exists_of_isOk hform
      rw [handle, Mutator.handle, hid, hform]
      refine hgated rfl rfl (fun s => ?_)
      have hrevoked := revokeApiKey_sessions s m id
      generalize revokeApiKey s m id = result at hrevoked
      obtain ⟨s', affected⟩ := result
      cases affected <;> exact ⟨hrevoked, rfl⟩
    | apiKeysCreate =>
      refine hgated rfl rfl (fun s => ?_)
      have hcreated := createApiKey_sessions sha256 s m
      generalize createApiKey sha256 s m = result at hcreated
      obtain ⟨s', created⟩ := result
      cases created <;> exact ⟨hcreated, rfl⟩
    | apiKeysRevoke =>
      obtain ⟨id, hid⟩ := exists_of_isOk hr
      rw [handle, Mutator.handle, hid]
      refine hgated rfl rfl (fun s => ?_)
      have hrevoked := revokeApiKey_sessions s m id
      generalize revokeApiKey s m id = result at hrevoked
      obtain ⟨s', affected⟩ := result
      cases affected <;> exact ⟨hrevoked, rfl⟩

theorem lookup_removePresented {s : AdminState} {headers : HeaderMap} {token : String}
    (h : sessionTokenFromHeaders headers ≠ some token) :
    (removePresented s headers).sessions.sessions.lookup token =
      s.sessions.sessions.lookup token := by
  unfold removePresented
  cases htoken : sessionTokenFromHeaders headers with
  | none => rfl
  | some presented =>
    refine (s.sessions.lookup_remove presented token).trans (if_neg (fun heq => h ?_))
    rw [htoken, heq]

theorem lookup_logout {s : AdminState} {headers : HeaderMap} {now : Nat} {token submitted : String}
    {refusal denial : Response} {answer : AdminState → Response}
    (h : sessionTokenFromHeaders headers ≠ some token) :
    (withSession s headers now refusal (fun s =>
      if !csrfValid s headers submitted now then (s, denial)
      else (removePresented s headers, answer s))).1.sessions.sessions.lookup token =
      s.sessions.sessions.lookup token := by
  have hauth := lookup_authorize s headers now token
  rw [if_neg h] at hauth
  unfold withSession
  generalize authorize s headers now = result at hauth ⊢
  obtain ⟨s', authz⟩ := result
  cases authz with
  | redirect => exact hauth
  | authorized id =>
    simp only
    cases csrfValid s' headers submitted now with
    | false => exact hauth
    | true => exact (lookup_removePresented h).trans hauth

/-- What the extractors turn down never reaches the handler. -/
theorem Handler.unreadable_effect (sha256 : Digest) (s : AdminState) (m : Moment) {r : Request}
    {handler : Handler} (h : handler.readable r = false) :
    (handler.handle sha256 s m r).1 = s := by
  cases handler with
  | reads handler => cases h
  | changes handler =>
    cases handler with
    | apiLogout | apiKeysCreate => cases h
    | logout | keysCreate =>
      obtain ⟨rejection, hform⟩ := exists_of_not_isOk h
      rw [handle, Mutator.handle, hform]
    | apiKeysRevoke =>
      obtain ⟨rejection, hid⟩ := exists_of_not_isOk h
      rw [handle, Mutator.handle, hid]
    | keysRevoke =>
      rw [handle, Mutator.handle]
      cases hid : r.id with
      | error rejection => rfl
      | ok id =>
        cases hform : r.form with
        | error rejection => rfl
        | ok form =>
          rw [readable, hid, hform] at h
          cases h

/-- A request touches no session but the one it presents. -/
theorem Handler.lookup_other (sha256 : Digest) (s : AdminState) (m : Moment) {r : Request}
    {token : String} (h : sessionTokenFromHeaders r.headers ≠ some token) (handler : Handler) :
    (handler.handle sha256 s m r).1.sessions.sessions.lookup token =
      s.sessions.sessions.lookup token := by
  cases hreadable : handler.readable r with
  | false => rw [handler.unreadable_effect sha256 s m hreadable]
  | true =>
    cases hauth : handler.authenticated with
    | true =>
      rw [(handler.authenticated_effect sha256 s m hauth hreadable).1, lookup_authorize, if_neg h]
    | false =>
      cases handler with
      | reads handler => cases handler <;> first | rfl | cases hauth
      | changes handler =>
        cases handler with
        | logout =>
          obtain ⟨form, hform⟩ := exists_of_isOk hreadable
          rw [handle, Mutator.handle, hform]
          exact lookup_logout h
        | apiLogout => exact lookup_logout h
        | keysCreate | keysRevoke | apiKeysCreate | apiKeysRevoke => cases hauth

/-- A login touches no session but the one it creates. -/
theorem FrontEnd.lookup_login (verify : PasswordVerifier) (p : Portal) {m : LoginMoment}
    {token : String} (h : m.token ≠ token) (front : FrontEnd) (ip : String) (form : LoginForm) :
    (front.login verify p m ip form).1.admin.sessions.sessions.lookup token =
      p.admin.sessions.sessions.lookup token := by
  have hstate : (front.login verify p m ip form).1 =
      (performLogin verify p m form.username form.password ip).1 := by
    cases front <;>
      simp only [FrontEnd.login, Html.loginSubmit, Json.apiLogin] <;> split <;> simp_all
  have hcreate : ∀ adminId, (p.succeeded m ip adminId).admin.sessions.sessions.lookup token =
      p.admin.sessions.sessions.lookup token := fun adminId =>
    (p.admin.sessions.lookup_create _ _ adminId m.now token).trans (if_neg (Ne.symm h))
  have hend := performLogin_end verify p m form.username form.password ip
  rw [hstate]
  generalize performLogin verify p m form.username form.password ip = result at hend
  obtain ⟨p', result⟩ := result
  cases hend with
  | unread _ => rfl
  | locked _ _ => rfl
  | unaudited _ _ _ _ => exact hcreate _
  | success _ _ => exact hcreate _
  | unrecorded _ _ _ _ hsessions _ => exact congrArg (·.sessions.lookup token) hsessions
  | refused _ _ hsessions => exact congrArg (·.sessions.lookup token) hsessions

/-! ## Runs of the browser -/

section Browsing

variable {sha256 : Digest} {verify : PasswordVerifier}

theorem receive_authenticated {v : Visit} {token : String} (h : Event.Fair token (.visit v))
    (s : AdminState) (b : Browser) (now : Nat) :
    b.receive now (v.handler.handle sha256 s v.moment (v.request b)).2 = b := by
  rw [Browser.receive, (v.handler.authenticated_effect sha256 s v.moment h.1 (h.2 b)).2]
  rfl

/-- The cookie stays what the login made it, whatever the server makes of it. -/
theorem browse_sent {token : String} {events : List Event} (hfair : ∀ e ∈ events, e.Fair token)
    (p : Portal) (b : Browser) :
    ∀ seen ∈ browse sha256 verify p b events, seen.sent = b.sends seen.now := by
  induction events generalizing p with
  | nil => exact fun seen h => by cases h
  | cons e events ih =>
    obtain ⟨he, hrest⟩ := List.forall_mem_cons.mp hfair
    cases e with
    | visit v =>
      rw [browse, receive_authenticated he]
      exact List.forall_mem_cons.mpr ⟨rfl, ih hrest _⟩
    | other handler m r => exact ih hrest _
    | login front m ip form => exact ih hrest _
    | sweep now => exact ih hrest _

/-- Every request of the admin is seen. -/
theorem browse_now (p : Portal) (b : Browser) (events : List Event) :
    (browse sha256 verify p b events).map Seen.now = events.filterMap Event.visited := by
  induction events generalizing p b with
  | nil => rfl
  | cons e events ih =>
    cases e with
    | visit v =>
      rw [browse, List.map_cons, ih]
      rfl
    | other handler m r => exact ih _ _
    | login front m ip form => exact ih _ _
    | sweep now => exact ih _ _

/-- Gaps between the requests of the admin that keep the session. -/
def Busy (last : Nat) (events : List Event) : Prop :=
  (last :: events.filterMap Event.visited).IsChain (fun a b => b < a + sessionIdleTimeout)

theorem now_of_visited {e : Event} {t : Nat} (h : e.visited = some t) : e.now = t := by
  cases e with
  | visit v => exact Option.some.inj h
  | other | login | sweep => cases h

theorem sends_kept {value : String} {expires now : Nat} (h : now < expires) :
    Browser.sends (some ⟨value, expires⟩) now = some value := by
  simp [Browser.sends, h]

/-- While the browser has the cookie, each request finds the session that the one
before it left. -/
theorem browse_authorized {bytes : Vector UInt8 32} {expires : Nat} {events : List Event}
    (hfair : ∀ e ∈ events, e.Fair (randomToken bytes))
    (hkept : ∀ t ∈ events.filterMap Event.visited, t < expires) {last clock : Nat}
    (hclock : (clock :: events.map Event.now).Pairwise (· ≤ ·)) (hlast : last ≤ clock)
    (hbusy : Busy last events) {p : Portal}
    (hlive : events.filterMap Event.visited = [] ∨ ∃ session,
      p.admin.sessions.sessions.lookup (randomToken bytes) = some session ∧
        session.lastActivity = last) :
    ∀ seen ∈ browse sha256 verify p (some ⟨randomToken bytes, expires⟩) events,
      seen.sent = some (randomToken bytes) ∧ ∃ id, seen.authz = .authorized id := by
  induction events generalizing p last clock with
  | nil => exact fun seen h => by cases h
  | cons e events ih =>
    obtain ⟨he, hrest⟩ := List.forall_mem_cons.mp hfair
    obtain ⟨hfirst, hlater⟩ := List.pairwise_cons.mp hclock
    have hnow : clock ≤ e.now := hfirst e.now List.mem_cons_self
    cases e with
    | visit v =>
      obtain ⟨session, hlookup, hused⟩ : ∃ session,
          p.admin.sessions.sessions.lookup (randomToken bytes) = some session ∧
            session.lastActivity = last := hlive.resolve_left (by simp [Event.visited])
      obtain ⟨hgap, hbusy⟩ := List.isChain_cons_cons.mp hbusy
      obtain ⟨hbefore, hkept⟩ := List.forall_mem_cons.mp hkept
      have hsends := @sends_kept (randomToken bytes) expires v.moment.now hbefore
      have htoken : sessionTokenFromHeaders
          (v.request (some ⟨randomToken bytes, expires⟩)).headers = some (randomToken bytes) := by
        rw [Visit.request, Browser.headers, hsends]
        exact sessionTokenFromHeaders_cookie bytes v.headers
      have hcurrent : p.admin.sessions.current (randomToken bytes) v.moment.now = some session := by
        refine SessionStore.current_some.mpr ⟨hlookup, ?_⟩
        rw [sessionValid, decide_eq_true_eq]
        have hpos : 0 < sessionIdleTimeout := by decide
        omega
      have hauthz : (authorize p.admin (v.request (some ⟨randomToken bytes, expires⟩)).headers
          v.moment.now).2 = .authorized session.adminId := by
        rw [authorize, htoken]
        simp only [SessionStore.validate_result, hcurrent, Option.map_some]
      rw [browse, receive_authenticated he]
      refine List.forall_mem_cons.mpr ⟨⟨hsends, _, hauthz⟩, ?_⟩
      refine ih hrest hkept hlater (Nat.le_refl _) hbusy (.inr ?_)
      refine ⟨{ session with lastActivity := v.moment.now }, ?_, rfl⟩
      refine (congrArg (·.sessions.lookup (randomToken bytes))
        (v.handler.authenticated_effect sha256 p.admin v.moment he.1 (he.2 _)).1).trans ?_
      refine (lookup_authorize p.admin _ v.moment.now (randomToken bytes)).trans ?_
      rw [if_pos htoken, hcurrent]
      rfl
    | other handler m r =>
      refine ih hrest hkept hlater (Nat.le_trans hlast hnow) hbusy (hlive.imp id ?_)
      exact fun h => h.imp (fun _ hs =>
        ⟨(handler.lookup_other sha256 p.admin m he).trans hs.1, hs.2⟩)
    | login front m ip form =>
      refine ih hrest hkept hlater (Nat.le_trans hlast hnow) hbusy (hlive.imp id ?_)
      exact fun h => h.imp (fun _ hs => ⟨(front.lookup_login verify p he ip form).trans hs.1, hs.2⟩)
    | sweep now =>
      refine ih hrest hkept hlater (Nat.le_trans hlast hnow) hbusy ?_
      -- The sweep is before the next request, for which the session is still valid.
      cases hvisits : events.filterMap Event.visited with
      | nil => exact .inl rfl
      | cons t visits =>
        obtain ⟨e', he', ht⟩ := List.mem_filterMap.mp (hvisits ▸ List.mem_cons_self : t ∈ _)
        have hnext : now ≤ t := by
          rw [← now_of_visited ht]
          exact (List.pairwise_cons.mp hlater).1 _ (List.mem_map_of_mem he')
        have hsame : (Event.sweep now :: events).filterMap Event.visited = t :: visits := hvisits
        obtain ⟨session, hlookup, hused⟩ :=
          hlive.resolve_left (by rw [hsame]; exact List.cons_ne_nil t visits)
        have hgap : t < last + sessionIdleTimeout := by
          rw [Busy, hsame] at hbusy
          exact (List.isChain_cons_cons.mp hbusy).1
        refine .inr ⟨session, ?_, hused⟩
        refine (p.admin.sessions.lookup_sweepExpired (randomToken bytes) now).trans ?_
        refine SessionStore.current_some.mpr ⟨hlookup, ?_⟩
        rw [sessionValid, decide_eq_true_eq]
        have hpos : 0 < sessionIdleTimeout := by decide
        omega

end Browsing

/-! ## The login -/

/-- What the login of the admin leaves on both sides. -/
theorem login_success {verify : PasswordVerifier} {p : Portal} {m : LoginMoment} {ip : String}
    {form : LoginForm} (front : FrontEnd)
    (h : (performLogin verify p m form.username form.password ip).2 = some (.success m.token))
    (b : Browser) :
    (∃ session, (front.login verify p m ip form).1.admin.sessions.sessions.lookup m.token =
      some session ∧ session.lastActivity = m.now) ∧
    b.receive m.now (front.login verify p m ip form).2 =
      some ⟨m.token, m.now + sessionIdleTimeout⟩ := by
  have hend := performLogin_end verify p m form.username form.password ip
  generalize hresult : performLogin verify p m form.username form.password ip = result at h hend
  obtain ⟨p', result⟩ := result
  obtain rfl : result = some (.success m.token) := h
  cases hend with
  | refused hne _ _ => exact absurd rfl (hne m.token)
  | @success adminId detail hok =>
    have hlookup : (p.succeeded m ip adminId).admin.sessions.sessions.lookup m.token =
        some ⟨adminId, m.now, randomToken m.csrfBytes⟩ :=
      (p.admin.sessions.lookup_create m.token _ adminId m.now m.token).trans (if_pos rfl)
    have hcookie : (front.login verify p m ip form).2.setCookie =
        some (sessionCookie m.token p.admin.cookieSecure) := by
      cases front <;> simp only [FrontEnd.login, Html.loginSubmit, Json.apiLogin, hresult] <;>
        exact headerValue_sessionCookie m.tokenBytes p.admin.cookieSecure
    constructor
    · refine ⟨⟨adminId, m.now, randomToken m.csrfBytes⟩, ?_, rfl⟩
      cases front <;> simp only [FrontEnd.login, Html.loginSubmit, Json.apiLogin, hresult] <;>
        exact hlookup
    · rw [Browser.receive, hcookie, Option.bind_some, LoginMoment.token,
        parseSetCookie_sessionCookie]
      rfl

/-- An admin who logs in and keeps the session in use is sent back to the login
exactly when a request is made later than the time that the cookie was given at the
login. -/
theorem cookie_follows_session (sha256 : Digest) {verify : PasswordVerifier} {p : Portal}
    {m : LoginMoment} {ip : String} {form : LoginForm} {front : FrontEnd} {events : List Event}
    (hlogin : (performLogin verify p m form.username form.password ip).2 =
      some (.success m.token))
    (hfair : ∀ e ∈ events, e.Fair m.token)
    (hclock : (m.now :: events.map Event.now).Pairwise (· ≤ ·)) (hbusy : Busy m.now events)
    (b : Browser) :
    (∀ seen ∈ browse sha256 verify (front.login verify p m ip form).1
        (b.receive m.now (front.login verify p m ip form).2) events,
      seen.sent = some m.token ∧ ∃ id, seen.authz = .authorized id) ↔
    ∀ t ∈ events.filterMap Event.visited, t < m.now + sessionIdleTimeout := by
  obtain ⟨hsession, hcookie⟩ := login_success front hlogin b
  rw [hcookie]
  constructor
  · intro hall t ht
    rw [← @browse_now sha256 verify (front.login verify p m ip form).1
      (some ⟨m.token, m.now + sessionIdleTimeout⟩) events] at ht
    obtain ⟨seen, hseen, rfl⟩ := List.mem_map.mp ht
    have hsent := browse_sent hfair _ _ seen hseen
    rw [(hall seen hseen).1] at hsent
    obtain ⟨c, hc, -⟩ := Option.map_eq_some_iff.mp hsent.symm
    obtain ⟨hsome, hlt⟩ := Option.filter_eq_some_iff.mp hc
    cases hsome
    exact of_decide_eq_true hlt
  · intro hkept
    exact browse_authorized hfair hkept hclock (Nat.le_refl _) hbusy (.inr hsession)

/-! ## Visits -/

def onePortal : Portal where
  admin := ⟨⟨.empty, [], fun _ => [], fun _ => []⟩, fun _ => none, .new,
    ⟨true, .ready, true, true, none, none⟩, false⟩
  loginTracker := .new
  adminUsers := fun username => if username = "root" then some (1, "pw") else none

def loginAtZero : LoginMoment :=
  ⟨0, "2024-01-01T00:00:00+00:00", fun _ => false, Vector.replicate 32 1, Vector.replicate 32 2⟩

def dashboardAt (minutes : Nat) : Event :=
  .visit ⟨⟨secs (60 * minutes), secs (60 * minutes), "", fun _ => false, "", fun s => s⟩,
    .reads .dashboard, [], .ok ⟨""⟩, .ok 0⟩

def loggedIn : Portal × Browser :=
  let result := FrontEnd.html.login (· == ·) onePortal loginAtZero "192.0.2.1" ⟨"root", "pw"⟩
  (result.1, Browser.receive none loginAtZero.now result.2)

theorem dashboard_fair (minutes : Nat) : (dashboardAt minutes).Fair loginAtZero.token :=
  ⟨rfl, fun _ => rfl⟩

/-- A login of someone else, with other random bytes. -/
def otherLogin (minutes : Nat) : Event :=
  .login .json ⟨secs (60 * minutes), "", fun _ => false, Vector.replicate 32 3,
    Vector.replicate 32 4⟩ "192.0.2.9" ⟨"root", "guess"⟩

/-- Three visits within half an hour, and what others and the service do between
them. -/
def visits : List Event :=
  [dashboardAt 10, .sweep (secs 900), dashboardAt 20, otherLogin 25, dashboardAt 29]

theorem cookie_follows_session_visits :
    visits.filterMap Event.visited = [secs 600, secs 1200, secs 1740] ∧
      ∀ seen ∈ browse (fun bytes => bytes) (· == ·) loggedIn.1 loggedIn.2 visits,
        seen.sent = some loginAtZero.token ∧ ∃ id, seen.authz = .authorized id := by
  have hvisited : visits.filterMap Event.visited = [secs 600, secs 1200, secs 1740] := rfl
  have hbusy : Busy loginAtZero.now visits := by
    rw [Busy, hvisited]
    show List.IsChain _ [0, secs 600, secs 1200, secs 1740]
    simp [secs, sessionIdleTimeout]
  have hclock : (loginAtZero.now :: visits.map Event.now).Pairwise (· ≤ ·) := by decide +kernel
  have hlogin : (performLogin (· == ·) onePortal loginAtZero "root" "pw" "192.0.2.1").2 =
      some (.success loginAtZero.token) := by decide +kernel
  have hother : (otherLogin 25).Fair loginAtZero.token := by
    show randomToken (Vector.replicate 32 3) ≠ randomToken (Vector.replicate 32 1)
    decide +kernel
  have hfair : ∀ e ∈ visits, e.Fair loginAtZero.token :=
    List.forall_mem_cons.mpr ⟨dashboard_fair 10, List.forall_mem_cons.mpr ⟨trivial,
      List.forall_mem_cons.mpr ⟨dashboard_fair 20, List.forall_mem_cons.mpr ⟨hother,
        List.forall_mem_singleton.mpr (dashboard_fair 29)⟩⟩⟩⟩
  have hiff := @cookie_follows_session (fun bytes => bytes) (· == ·) onePortal loginAtZero
    "192.0.2.1" ⟨"root", "pw"⟩ .html visits hlogin hfair hclock hbusy none
  have hkept : ∀ t ∈ visits.filterMap Event.visited,
      t < loginAtZero.now + sessionIdleTimeout := by
    rw [hvisited]
    decide +kernel
  refine ⟨hvisited, ?_⟩
  simp only [loggedIn]
  exact hiff.mpr hkept

/-- An admin who looks at the dashboard every 20 minutes is logged out after 40. -/
theorem busy_admin_logged_out :
    (performLogin (· == ·) onePortal loginAtZero "root" "pw" "192.0.2.1").2 =
      some (.success loginAtZero.token) ∧
    (∀ e ∈ [dashboardAt 20, dashboardAt 40], e.Fair loginAtZero.token) ∧
    (0 :: [dashboardAt 20, dashboardAt 40].map Event.now).Pairwise (· ≤ ·) ∧
    Busy 0 [dashboardAt 20, dashboardAt 40] ∧
    browse (fun bytes => bytes) (· == ·) loggedIn.1 loggedIn.2 [dashboardAt 20, dashboardAt 40] =
      [⟨secs 1200, some loginAtZero.token, .authorized 1⟩, ⟨secs 2400, none, .redirect⟩] := by
  refine ⟨by decide +kernel, ?_, by decide, ?_, by decide +kernel⟩
  · exact List.forall_mem_cons.mpr ⟨dashboard_fair 20,
      List.forall_mem_singleton.mpr (dashboard_fair 40)⟩
  · show List.IsChain _ [0, secs (60 * 20), secs (60 * 40)]
    simp [secs, sessionIdleTimeout]

end Admin
end GreenRelay
