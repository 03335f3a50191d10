/-
What an admin operation that ends in an error has done.

No operation runs in a transaction and none takes anything back.  Each writes
its audit row last, so an error before that row leaves nothing and an error of
that row leaves the effect: an API key whose plaintext nobody was given, a
session whose token nobody was given, or a login that the tracker has counted.
-/
import GreenRelay.Admin.LoginHandlers

namespace GreenRelay
namespace Admin

open Auth (ApiKeys ApiKeyRecord Digest keyIdentifier)

/-! ## Keys -/

def activeKeys (s : AdminState) : List ApiKeyRecord :=
  s.db.apiKeys.table.rows.filter (fun r => !r.revoked)

theorem active_insertApiKey {k k' : ApiKeys} {keyHash identifier createdAt : String}
    (h : k.insertApiKey keyHash identifier createdAt = some k') :
    k'.table.rows.filter (fun r => !r.revoked) = k.table.rows.filter (fun r => !r.revoked) ++
      [⟨k.table.seq + 1, keyHash, identifier, none, false, createdAt⟩] := by
  unfold ApiKeys.insertApiKey at h
  split at h
  · cases h
    exact List.filter_append _ _
  · cases h

/-- An error of the insertion changes nothing, and an error of the audit row leaves
the one key that was inserted. -/
theorem createApiKey_error {sha256 : Digest} {s : AdminState} {m : Moment}
    (h : (createApiKey sha256 s m).2 = none) :
    (createApiKey sha256 s m).1 = s ∨
      (m.fails .insertApiKey = false ∧ m.fails .insertAudit = true ∧ ∃ key : ApiKeyRecord,
        key.keyIdentifier = keyIdentifier sha256 ("sk_" ++ m.randomToken) ∧
        activeKeys (createApiKey sha256 s m).1 = activeKeys s ++ [key]) := by
  unfold createApiKey at h ⊢
  cases hinsert : m.fails .insertApiKey with
  | true => exact .inl rfl
  | false =>
    simp only [hinsert, Bool.false_eq_true, if_false] at h ⊢
    split at h
    · exact .inl rfl
    · next keys hkeys =>
      cases haudit : m.fails .insertAudit with
      | false =>
        rw [haudit] at h
        cases h
      | true =>
        refine .inr ⟨trivial, rfl, _, ?_, active_insertApiKey hkeys⟩
        rfl

/-! ## Errors -/

/-- A failed creation leaves no new key but the one whose audit row failed.  A
failed login leaves everything as it was when the source is locked or the
credentials were not read; else it failed at the audit row of an outcome that
is recorded, and a new session is there only if the password was right. -/
theorem failed_operations (sha256 : Digest) (verify : PasswordVerifier) :
    (∀ s m, (createApiKey sha256 s m).2 = none →
      (createApiKey sha256 s m).1 = s ∨
        (m.fails .insertApiKey = false ∧ m.fails .insertAudit = true ∧ ∃ key : ApiKeyRecord,
          key.keyIdentifier = keyIdentifier sha256 ("sk_" ++ m.randomToken) ∧
          activeKeys (createApiKey sha256 s m).1 = activeKeys s ++ [key])) ∧
    ∀ p m username password clientIp p', performLogin verify p m username password clientIp =
        (p', none) →
      (p' = p ∧ m.fails 0 = true) ∨
      (p.loginTracker.isLocked clientIp m.now = false ∧ m.fails 0 = false ∧
        ((∃ adminId, credentialsOk verify password (p.adminUsers username) = some adminId ∧
            m.fails 1 = true ∧
            p'.admin.sessions =
              p.admin.sessions.create m.token (randomToken m.csrfBytes) adminId m.now ∧
            p'.loginTracker = p.loginTracker.recordSuccess clientIp) ∨
          (credentialsOk verify password (p.adminUsers username) = none ∧
            (m.fails 1 = true ∨ m.fails 2 = true) ∧ p'.admin.sessions = p.admin.sessions ∧
            p'.loginTracker = p.loginTracker.recordFailure clientIp m.now))) := by
  refine ⟨fun s m h => createApiKey_error h, ?_⟩
  intro p m username password clientIp p' h
  have hend := performLogin_end verify p m username password clientIp
  rw [h] at hend
  cases hend with
  | unread hfail => exact .inl ⟨rfl, hfail⟩
  | @unaudited adminId hlocked hfind hok hfail =>
    exact .inr ⟨hlocked, hfind, .inl ⟨adminId, hok, hfail, rfl, rfl⟩⟩
  | unrecorded hlocked hfind hok hfail hsessions htracker =>
    exact .inr ⟨hlocked, hfind, .inr ⟨hok, hfail, hsessions, htracker⟩⟩

/-! ## A database that takes no audit rows -/

def quietModem : ModemStatusSnapshot := ⟨true, .ready, true, true, none, none⟩

/-- An admin `root` with the password `pw`, and a source that failed four times. -/
def unaudited : Portal where
  admin := ⟨⟨.empty, [], fun _ => [], fun _ => []⟩, fun _ => none, .new, quietModem, false⟩
  loginTracker := (List.range 4).foldl (fun t n => t.recordFailure "192.0.2.1" n) .new
  adminUsers := fun username => if username = "root" then some (1, "pw") else none

def auditFails : Moment :=
  ⟨10, 0, "2024-01-01T00:00:00+00:00", fun call => call = .insertAudit, "t", fun s => s⟩

def secondCallFails : LoginMoment :=
  ⟨10, "2024-01-01T00:00:00+00:00", fun n => n = 1, Vector.replicate 32 1, Vector.replicate 32 2⟩

/-- The errors leave a key, a session and a locked source. -/
theorem unaudited_left :
    ((createApiKey (fun bytes => bytes) unaudited.admin auditFails).2 = none ∧
      activeKeys unaudited.admin = [] ∧
      (activeKeys (createApiKey (fun bytes => bytes) unaudited.admin auditFails).1).length = 1) ∧
    ((performLogin (· == ·) unaudited secondCallFails "root" "pw" "192.0.2.1").2 = none ∧
      unaudited.admin.sessions.sessions.keys = [] ∧
      (performLogin (· == ·) unaudited secondCallFails "root" "pw"
        "192.0.2.1").1.admin.sessions.sessions.keys = [secondCallFails.token]) ∧
    ((performLogin (· == ·) unaudited secondCallFails "root" "no" "192.0.2.1").2 = none ∧
      unaudited.loginTracker.isLocked "192.0.2.1" 10 = false ∧
      (performLogin (· == ·) unaudited secondCallFails "root" "no"
        "192.0.2.1").1.loginTracker.isLocked "192.0.2.1" 10 = true) := by
  refine ⟨⟨?_, ?_, ?_⟩, ⟨?_, ?_, ?_⟩, ?_, ?_, ?_⟩ <;> decide +kernel

end Admin
end GreenRelay
