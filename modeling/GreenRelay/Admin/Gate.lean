/-
What it takes to change something in the admin area.

The guards of a handler come down to one condition on the request and the state
it finds (`Admits`): the cookie names a session that is valid at that time, and
the submitted token is the CSRF token of that session, byte for byte.  Without
it a handler leaves everything as it was, but for the time of the last activity
of the session the cookie names.
-/
import GreenRelay.Admin.Portal

namespace GreenRelay
namespace Admin

open Unicode
open Auth (Digest)

/-! ## The comparison -/

theorem foldl_xor_eq_zero (pairs : List (UInt8 × UInt8)) (diff : UInt8) :
    pairs.foldl (fun diff p => diff ||| (p.1 ^^^ p.2)) diff = 0 ↔
      diff = 0 ∧ ∀ p ∈ pairs, p.1 = p.2 := by
  induction pairs generalizing diff with
  | nil => simp
  | cons p pairs ih =>
    rw [List.foldl_cons, ih, UInt8.or_eq_zero_iff, UInt8.xor_eq_zero_iff, List.forall_mem_cons,
      and_assoc]

theorem constantTimeEq_iff {a b : List UInt8} : constantTimeEq a b = true ↔ a = b := by
  unfold constantTimeEq
  split
  · next hlen =>
    simp only [Bool.false_eq_true, false_iff]
    exact fun h => hlen (by rw [h])
  · next hlen =>
    have hlen : a.length = b.length := not_not.mp hlen
    rw [beq_iff_eq, foldl_xor_eq_zero]
    simp only [true_and]
    constructor
    · intro hall
      apply List.ext_getElem hlen
      intro i ha hb
      have hi : i < (a.zip b).length := by
        rw [List.length_zip]
        omega
      have hpair := hall _ (List.getElem_mem hi)
      rwa [List.getElem_zip] at hpair
    · rintro rfl p hp
      obtain ⟨i, hi, rfl⟩ := List.getElem_of_mem hp
      rw [List.getElem_zip]

/-! ## The guards -/

/-- The session that the cookie of a request names, if it is valid. -/
def presented (s : AdminState) (headers : HeaderMap) (now : Nat) : Option Session :=
  (sessionTokenFromHeaders headers).bind (s.sessions.current · now)

/-- The request may change something: its cookie names a valid session, and the
submitted token has the bytes of the CSRF token of that session. -/
def Admits (s : AdminState) (headers : HeaderMap) (submitted : String) (now : Nat) : Prop :=
  ∃ token session, sessionTokenFromHeaders headers = some token ∧
    s.sessions.sessions.lookup token = some session ∧ sessionValid session now = true ∧
    session.csrfToken ≠ "" ∧ utf8 submitted.toList = utf8 session.csrfToken.toList

theorem csrfTokenForRequest_eq (s : AdminState) (headers : HeaderMap) (now : Nat) :
    csrfTokenForRequest s headers now = (presented s headers now).map Session.csrfToken := by
  unfold csrfTokenForRequest presented
  cases sessionTokenFromHeaders headers with
  | none => rfl
  | some token => rfl

theorem csrfValid_iff {s : AdminState} {headers : HeaderMap} {submitted : String} {now : Nat} :
    csrfValid s headers submitted now = true ↔ Admits s headers submitted now := by
  unfold csrfValid
  rw [csrfTokenForRequest_eq]
  cases hpresented : presented s headers now with
  | none =>
    simp only [Option.map_none, Bool.false_eq_true, false_iff]
    rintro ⟨token, session, htoken, hlookup, hvalid, -⟩
    have hsome : presented s headers now = some session := by
      rw [presented, htoken]
      exact SessionStore.current_some.mpr ⟨hlookup, hvalid⟩
    rw [hpresented] at hsome
    cases hsome
  | some session =>
    simp only [Option.map_some, Bool.and_eq_true, bne_iff_ne, ne_eq, constantTimeEq_iff]
    obtain ⟨token, htoken, hcurrent⟩ := Option.bind_eq_some_iff.mp hpresented
    obtain ⟨hlookup, hvalid⟩ := SessionStore.current_some.mp hcurrent
    constructor
    · rintro ⟨hne, heq⟩
      exact ⟨token, session, htoken, hlookup, hvalid, hne, heq.symm⟩
    · rintro ⟨token', session', htoken', hlookup', -, hne, heq⟩
      rw [htoken, Option.some.injEq] at htoken'
      subst htoken'
      rw [hlookup, Option.some.injEq] at hlookup'
      subst hlookup'
      exact ⟨hne, heq.symm⟩

/-! ## Nothing changes -/

/-- The state after a request is the one before it, up to sessions that are used up
and to the last activity of the session that the cookie names. -/
structure Unchanged (headers : HeaderMap) (now : Nat) (s s' : AdminState) : Prop where
  apiKeys : s'.db.apiKeys = s.db.apiKeys
  keyCache : s'.keyCache = s.keyCache
  audit : s'.db.audit = s.db.audit
  sessions : ∀ token, s'.sessions.current token now = s.sessions.current token now ∨
    (sessionTokenFromHeaders headers = some token ∧ s'.sessions.current token now =
      (s.sessions.current token now).map (fun session => { session with lastActivity := now }))

theorem Unchanged.refl (headers : HeaderMap) (now : Nat) (s : AdminState) :
    Unchanged headers now s s := ⟨rfl, rfl, rfl, fun _ => Or.inl rfl⟩

theorem current_validate (s : SessionStore) (token : String) (now : Nat) (other : String) :
    (s.validate token now).1.current other now =
      if other = token then
        (s.current token now).map (fun session => { session with lastActivity := now })
      else s.current other now := by
  rw [SessionStore.current, SessionStore.lookup_validate]
  split
  · cases s.current token now with
    | none => rfl
    | some session =>
      have hvalid : sessionValid { session with lastActivity := now } now = true := by
        have hpos : 0 < sessionIdleTimeout := by decide
        simp [sessionValid, hpos]
      exact Option.filter_some_pos (p := (sessionValid · now)) hvalid
  · rfl

/-- The authorization of a request only touches the session that it presents. -/
theorem authorize_unchanged (s : AdminState) (headers : HeaderMap) (now : Nat) :
    Unchanged headers now s (authorize s headers now).1 := by
  unfold authorize
  cases htoken : sessionTokenFromHeaders headers with
  | none => exact .refl headers now s
  | some token =>
    refine ⟨rfl, rfl, rfl, fun other => ?_⟩
    show (s.sessions.validate token now).1.current other now = _ ∨ _
    rw [current_validate]
    split
    · next heq =>
      subst heq
      exact Or.inr ⟨htoken, rfl⟩
    · exact Or.inl rfl

/-- A request that is admitted after its authorization was admitted before. -/
theorem Admits.of_authorize {s : AdminState} {headers : HeaderMap} {submitted : String} {now : Nat}
    (h : Admits (authorize s headers now).1 headers submitted now) :
    Admits s headers submitted now := by
  obtain ⟨token, session, htoken, hlookup, hvalid, hne, heq⟩ := h
  have hlookup' : (s.sessions.validate token now).1.sessions.lookup token = some session := by
    rw [authorize, htoken] at hlookup
    exact hlookup
  rw [SessionStore.lookup_validate, if_pos rfl, Option.map_eq_some_iff] at hlookup'
  obtain ⟨before, hbefore, rfl⟩ := hlookup'
  obtain ⟨hfound, hwas⟩ := SessionStore.current_some.mp hbefore
  exact ⟨token, before, htoken, hfound, hwas, hne, heq⟩

/-- A handler that only reads once it has a session. -/
theorem withSession_reads {s : AdminState} {headers : HeaderMap} {now : Nat} {refusal : Response}
    {act : AdminState → AdminState × Response} (hact : ∀ s, (act s).1 = s) :
    Unchanged headers now s (withSession s headers now refusal act).1 := by
  have hauth := authorize_unchanged s headers now
  unfold withSession
  generalize authorize s headers now = result at hauth ⊢
  obtain ⟨s', authz⟩ := result
  cases authz with
  | redirect => exact hauth
  | authorized id =>
    simp only [hact]
    exact hauth

/-- A handler that turns a request down where the CSRF token is not valid. -/
theorem withSession_gated {s : AdminState} {headers : HeaderMap} {submitted : String} {now : Nat}
    {refusal denial : Response} {change : AdminState → AdminState × Response}
    (h : ¬ Admits s headers submitted now) :
    Unchanged headers now s (withSession s headers now refusal (fun s =>
      if !csrfValid s headers submitted now then (s, denial) else change s)).1 := by
  have hauth := authorize_unchanged s headers now
  have hinvalid : csrfValid (authorize s headers now).1 headers submitted now = false := by
    rw [← Bool.not_eq_true, csrfValid_iff]
    exact fun hadmits => h hadmits.of_authorize
  unfold withSession
  generalize authorize s headers now = result at hauth hinvalid ⊢
  obtain ⟨s', authz⟩ := result
  cases authz with
  | redirect => exact hauth
  | authorized id =>
    simp only [hinvalid, Bool.not_false, if_true]
    exact hauth

theorem Mutator.gated (sha256 : Digest) (s : AdminState) (m : Moment) (r : Request)
    (handler : Mutator) (h : ¬ Admits s r.headers (handler.submitted r) m.now) :
    Unchanged r.headers m.now s (handler.handle sha256 s m r).1 := by
  cases handler with
  | logout | keysCreate =>
    cases hform : r.form with
    | error rejection =>
      rw [Mutator.handle, hform]
      exact .refl r.headers m.now s
    | ok form =>
      rw [Mutator.submitted, hform] at h
      rw [Mutator.handle, hform]
      exact withSession_gated h
  | keysRevoke =>
    cases hid : r.id with
    | error rejection =>
      rw [Mutator.handle, hid]
      exact .refl r.headers m.now s
    | ok id =>
      cases hform : r.form with
      | error rejection =>
        rw [Mutator.handle, hid, hform]
        exact .refl r.headers m.now s
      | ok form =>
        rw [Mutator.submitted, hform] at h
        rw [Mutator.handle, hid, hform]
        exact withSession_gated h
  | apiLogout | apiKeysCreate => exact withSession_gated h
  | apiKeysRevoke =>
    cases hid : r.id with
    | error rejection =>
      rw [Mutator.handle, hid]
      exact .refl r.headers m.now s
    | ok id =>
      rw [Mutator.handle, hid]
      exact withSession_gated h

theorem Reader.unchanged (s : AdminState) (m : Moment) (headers : HeaderMap) (handler : Reader) :
    Unchanged headers m.now s (handler.handle s m headers).1 := by
  cases handler with
  | loginForm => exact .refl headers m.now s
  | dashboard | keysView =>
    refine withSession_reads (fun s => ?_)
    simp only
    split <;> rfl
  | apiSession => exact withSession_reads (fun s => rfl)
  | apiDashboard | apiKeysList =>
    refine withSession_reads (fun s => ?_)
    split <;> rfl

/-- Every change is gated, and no handler that reads changes anything. -/
theorem admin_gated (sha256 : Digest) (s : AdminState) (m : Moment) (r : Request) :
    (∀ handler : Mutator, Admits s r.headers (handler.submitted r) m.now ∨
      Unchanged r.headers m.now s (handler.handle sha256 s m r).1) ∧
    ∀ handler : Reader, Unchanged r.headers m.now s (handler.handle s m r.headers).1 :=
  ⟨fun handler => or_iff_not_imp_left.mpr (handler.gated sha256 s m r),
    fun handler => handler.unchanged s m r.headers⟩

end Admin
end GreenRelay
