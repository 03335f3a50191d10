/-
The store of admin sessions.

A session is used up when it was idle for `sessionIdleTimeout`.  The store finds
that out when the session is asked for, or in a sweep; both only remove sessions
that are used up, so nobody can tell whether there was a sweep.
-/
import GreenRelay.Admin.Login

namespace GreenRelay
namespace Admin

open Auth (secs)

def sessionIdleTimeout : Nat := secs (30 * 60)

def sessionValid (session : Session) (now : Nat) : Bool :=
  now - session.lastActivity < sessionIdleTimeout

namespace SessionStore

def csrfToken (s : SessionStore) (token : String) (now : Nat) : Option String :=
  ((s.sessions.lookup token).filter (sessionValid · now)).map Session.csrfToken

def validate (s : SessionStore) (token : String) (now : Nat) : SessionStore × Option Int :=
  match s.sessions.lookup token with
  | some session =>
    if sessionValid session now then
      (⟨s.sessions.insert token { session with lastActivity := now }⟩, some session.adminId)
    else (⟨s.sessions.erase token⟩, none)
  | none => (s, none)

def remove (s : SessionStore) (token : String) : SessionStore := ⟨s.sessions.erase token⟩

def sweepExpired (s : SessionStore) (now : Nat) : SessionStore where
  sessions := {
    entries := s.sessions.entries.filter (fun e => sessionValid e.2 now)
    nodupKeys := s.sessions.nodupKeys.sublist List.filter_sublist }

/-- The session of a token, as far as it is not used up. -/
def current (s : SessionStore) (token : String) (now : Nat) : Option Session :=
  (s.sessions.lookup token).filter (sessionValid · now)

/-! ## Lookups -/

theorem dlookup_filter_valid (token : String) (now : Nat)
    {l : List (Sigma (fun _ : String => Session))} (hl : l.NodupKeys) :
    List.dlookup token (l.filter (fun e => sessionValid e.2 now)) =
      (List.dlookup token l).filter (sessionValid · now) := by
  induction l with
  | nil => rfl
  | cons e l ih =>
    obtain ⟨hnew, hrest⟩ := List.nodupKeys_cons.mp hl
    by_cases htoken : token = e.1
    · subst htoken
      rw [List.filter_cons, List.dlookup_cons_eq]
      cases hvalid : sessionValid e.2 now with
      | true =>
        rw [if_pos rfl, List.dlookup_cons_eq]
        exact (Option.filter_some_pos (p := (sessionValid · now)) hvalid).symm
      | false =>
        rw [if_neg (by decide), ih hrest, List.dlookup_eq_none.mpr hnew]
        exact (Option.filter_some_neg (p := (sessionValid · now)) hvalid).symm
    · rw [List.dlookup_cons_ne _ _ htoken, List.filter_cons]
      split
      · rw [List.dlookup_cons_ne _ _ htoken, ih hrest]
      · exact ih hrest

theorem lookup_sweepExpired (s : SessionStore) (token : String) (now : Nat) :
    (s.sweepExpired now).sessions.lookup token = s.current token now :=
  dlookup_filter_valid token now s.sessions.nodupKeys

theorem current_some {s : SessionStore} {token : String} {now : Nat} {session : Session} :
    s.current token now = some session ↔
      s.sessions.lookup token = some session ∧ sessionValid session now = true := by
  rw [current, Option.filter_eq_some_iff]

/-- A session that is valid was valid before. -/
theorem sessionValid_anti {session : Session} {now now' : Nat} (hle : now ≤ now')
    (h : sessionValid session now' = true) : sessionValid session now = true := by
  simp only [sessionValid, decide_eq_true_eq] at h ⊢
  omega

theorem lookup_create (s : SessionStore) (token csrf : String) (adminId : Int) (now : Nat)
    (other : String) : (s.create token csrf adminId now).sessions.lookup other =
      if other = token then some ⟨adminId, now, csrf⟩ else s.sessions.lookup other := by
  rw [create]
  split
  · next h => rw [h, AList.lookup_insert]
  · next h => rw [AList.lookup_insert_ne h]

theorem lookup_remove (s : SessionStore) (token other : String) :
    (s.remove token).sessions.lookup other =
      if other = token then none else s.sessions.lookup other := by
  rw [remove]
  split
  · next h => rw [h, AList.lookup_erase]
  · next h => rw [AList.lookup_erase_ne h]

theorem lookup_validate (s : SessionStore) (token : String) (now : Nat) (other : String) :
    (s.validate token now).1.sessions.lookup other =
      if other = token then
        (s.current token now).map (fun session => { session with lastActivity := now })
      else s.sessions.lookup other := by
  unfold validate current
  by_cases hother : other = token
  · subst hother
    rw [if_pos rfl]
    cases hlookup : s.sessions.lookup other with
    | none => simpa using hlookup
    | some session =>
      simp only
      cases hvalid : sessionValid session now with
      | true => simp [hvalid]
      | false => simp [hvalid]
  · rw [if_neg hother]
    cases s.sessions.lookup token with
    | none => rfl
    | some session =>
      simp only
      split
      · exact AList.lookup_insert_ne hother
      · exact AList.lookup_erase_ne hother

theorem validate_result (s : SessionStore) (token : String) (now : Nat) :
    (s.validate token now).2 = (s.current token now).map Session.adminId := by
  unfold validate current
  cases s.sessions.lookup token with
  | none => rfl
  | some session =>
    simp only
    cases hvalid : sessionValid session now with
    | true => simp [hvalid]
    | false => simp [hvalid]

theorem csrfToken_eq (s : SessionStore) (token : String) (now : Nat) :
    s.csrfToken token now = (s.current token now).map Session.csrfToken := rfl

/-- A session has a CSRF token exactly when it validates. -/
theorem csrfToken_isSome (s : SessionStore) (token : String) (now : Nat) :
    (s.csrfToken token now).isSome = (s.validate token now).2.isSome := by
  rw [csrfToken_eq, validate_result, Option.isSome_map, Option.isSome_map]

end SessionStore

end Admin
end GreenRelay
