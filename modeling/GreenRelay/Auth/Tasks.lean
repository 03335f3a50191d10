/-
Authentications and key administration as tasks on shared state.

Requests and admin operations share the key table, the cache and the failure
tracker, and an `await` stands between any two of their accesses.  So an
authentication is the sequence cache, database, cache, tracker, and a revocation
is the sequence look up, update, invalidate, audit, each step of which is one
action of the machine.  `Stepped` lists the steps with their guards.
-/
import GreenRelay.Lib.Machine
import GreenRelay.Auth.Keys

namespace GreenRelay
namespace Auth

/-! ## Tasks -/

structure AuthContext where
  customRateLimit : Option Nat
  identifier : String
  deriving DecidableEq, Repr

/-- How the middleware ends: the request goes on, or a 401, or a 500. -/
inductive Reply where
  | next (id : ApiKeyId) (context : AuthContext)
  | refused (outcome : AuthOutcome)
  | serverError
  deriving DecidableEq, Repr

def reply (identifier : String) (resolved : CachedKey) : AuthOutcome → Reply
  | .authorized id => .next id ⟨resolved.bind (·.2), identifier⟩
  | outcome => .refused outcome

/-- Where an authentication stands: past the guard, after a miss, with what it
has read and not yet cached, with the key resolved. -/
inductive AttemptPhase where
  | guarded
  | missed
  | fetched (resolved : CachedKey)
  | resolved (resolved : CachedKey)
  | done (reply : Reply)
  deriving DecidableEq, Repr

/-- A run of `auth_middleware`.  `after` records the revocations that had
returned when it began. -/
structure Attempt where
  identifier : String
  now : Nat
  after : List ApiKeyId
  phase : AttemptPhase
  deriving DecidableEq, Repr

inductive RevocationPhase where
  | started
  | identified (identifier : Option String)
  | updated (identifier : Option String)
  | invalidated
  | done (affected : Option Nat)
  deriving DecidableEq, Repr

/-- A run of `revoke_api_key`; `done none` is an error. -/
structure Revocation where
  id : ApiKeyId
  phase : RevocationPhase
  deriving DecidableEq, Repr

structure State where
  now : Nat
  keys : ApiKeys
  cache : String → Option CachedKey
  tracker : FailureTracker
  attempts : Nat → Option Attempt
  revocations : Nat → Option Revocation
  /-- The keys whose revocation has returned with a row affected. -/
  returned : List ApiKeyId

namespace State

def setCache (s : State) (identifier : String) (entry : Option CachedKey) : State :=
  { s with cache := fun i => if i = identifier then entry else s.cache i }

def setAttempt (s : State) (n : Nat) (a : Attempt) : State :=
  { s with attempts := fun m => if m = n then some a else s.attempts m }

def setRevocation (s : State) (n : Nat) (v : Revocation) : State :=
  { s with revocations := fun m => if m = n then some v else s.revocations m }

/-- The middleware before it asks for the key. -/
def guardPhase (s : State) (presented identifier : String) : AttemptPhase :=
  if passesGuard presented then
    if s.tracker.isLocked identifier s.now then .done (.refused .lockedOut) else .guarded
  else .done (.refused .unauthorized)

end State

inductive Act where
  | tick (d : Nat)
  /-- `create_api_key` inserts the row of a new key. -/
  | create (keyHash identifier createdAt : String)
  /-- The cache drops an entry for its capacity. -/
  | evict (identifier : String)
  | begin (n : Nat) (presented : String)
  | get (n : Nat)
  | lookup (n : Nat) (ok : Bool)
  | insert (n : Nat)
  | authenticate (n : Nat)
  | revoke (n : Nat) (id : ApiKeyId)
  | identify (n : Nat) (ok : Bool)
  | update (n : Nat) (ok : Bool)
  | invalidate (n : Nat)
  | audit (n : Nat) (ok : Bool)
  deriving DecidableEq, Repr

/-! ## Steps -/

def Attempt.enter (a : Attempt) (p : AttemptPhase) : Attempt := { a with phase := p }

def Revocation.enter (v : Revocation) (p : RevocationPhase) : Revocation := { v with phase := p }

/-- `resolve_active_key` asks the cache first. -/
def getCached (s : State) (a : Attempt) : AttemptPhase :=
  match s.cache a.identifier with
  | some cached => .resolved cached
  | none => .missed

def lookupKey (s : State) (a : Attempt) (ok : Bool) : AttemptPhase :=
  if ok then .fetched (s.keys.lookupActiveKey a.identifier) else .done .serverError

/-- `ResolvedStore` answers with the id that was resolved. -/
def decideAttempt (s : State) (n : Nat) (a : Attempt) (resolved : CachedKey) : State :=
  let decided := authenticateIdentified a.identifier (fun _ => resolved.map (·.1)) s.tracker a.now
  { s.setAttempt n (a.enter (.done (reply a.identifier resolved decided.1))) with
    tracker := decided.2 }

/-- `set_api_key_revoked`; a revocation that affects no row returns at once. -/
def updateKey (s : State) (n : Nat) (v : Revocation) (identifier : Option String) : State :=
  let (keys, affected) := s.keys.setApiKeyRevoked v.id
  { s.setRevocation n (v.enter (if 0 < affected then .updated identifier else .done (some 0))) with
    keys := keys }

def invalidateKey (s : State) : Option String → State
  | some identifier => s.setCache identifier none
  | none => s

/-- The audit row decides whether `revoke_api_key` returns `Ok`. -/
def auditRevocation (s : State) (n : Nat) (v : Revocation) (ok : Bool) : State :=
  if ok then
    { s.setRevocation n (v.enter (.done (some 1))) with returned := s.returned ++ [v.id] }
  else s.setRevocation n (v.enter (.done none))

def step (sha256 : Digest) (s : State) : Act → Option State
  | .tick d => some { s with now := s.now + d }
  | .create keyHash identifier createdAt =>
    (s.keys.insertApiKey keyHash identifier createdAt).map (fun k => { s with keys := k })
  | .evict identifier => some (s.setCache identifier none)
  | .begin n presented =>
    let identifier := keyIdentifier sha256 presented
    if s.attempts n = none then
      some (s.setAttempt n ⟨identifier, s.now, s.returned, s.guardPhase presented identifier⟩)
    else none
  | .get n => (s.attempts n).bind (fun a =>
    match a.phase with
    | .guarded => some (s.setAttempt n (a.enter (getCached s a)))
    | _ => none)
  | .lookup n ok => (s.attempts n).bind (fun a =>
    match a.phase with
    | .missed => some (s.setAttempt n (a.enter (lookupKey s a ok)))
    | _ => none)
  | .insert n => (s.attempts n).bind (fun a =>
    match a.phase with
    | .fetched r => some ((s.setCache a.identifier (some r)).setAttempt n (a.enter (.resolved r)))
    | _ => none)
  | .authenticate n => (s.attempts n).bind (fun a =>
    match a.phase with
    | .resolved r => some (decideAttempt s n a r)
    | _ => none)
  | .revoke n id =>
    if s.revocations n = none then some (s.setRevocation n ⟨id, .started⟩) else none
  | .identify n ok => (s.revocations n).bind (fun v =>
    match v.phase with
    | .started => some (s.setRevocation n (v.enter
        (if ok then .identified (s.keys.apiKeyIdentifier v.id) else .done none)))
    | _ => none)
  | .update n ok => (s.revocations n).bind (fun v =>
    match v.phase with
    | .identified i =>
      some (if ok then updateKey s n v i else s.setRevocation n (v.enter (.done none)))
    | _ => none)
  | .invalidate n => (s.revocations n).bind (fun v =>
    match v.phase with
    | .updated i => some ((invalidateKey s i).setRevocation n (v.enter .invalidated))
    | _ => none)
  | .audit n ok => (s.revocations n).bind (fun v =>
    match v.phase with
    | .invalidated => some (auditRevocation s n v ok)
    | _ => none)

/-- The start of the service, on the keys that are stored. -/
structure Starting (s : State) : Prop where
  cache : s.cache = fun _ => none
  tracker : s.tracker = .new
  attempts : s.attempts = fun _ => none
  revocations : s.revocations = fun _ => none
  returned : s.returned = []

def service (sha256 : Digest) : Machine State Act := ⟨Starting, step sha256⟩

def fresh : State := ⟨0, .empty, fun _ => none, .new, fun _ => none, fun _ => none, []⟩

theorem starting_fresh : Starting fresh := ⟨rfl, rfl, rfl, rfl, rfl⟩

inductive Stepped (sha256 : Digest) (s : State) : Act → State → Prop where
  | tick (d : Nat) : Stepped sha256 s (.tick d) { s with now := s.now + d }
  | create {keyHash identifier createdAt : String} {k : ApiKeys}
    (hk : s.keys.insertApiKey keyHash identifier createdAt = some k) :
    Stepped sha256 s (.create keyHash identifier createdAt) { s with keys := k }
  | evict (identifier : String) : Stepped sha256 s (.evict identifier) (s.setCache identifier none)
  | begin {n : Nat} (presented : String) (hn : s.attempts n = none) :
    Stepped sha256 s (.begin n presented) (s.setAttempt n ⟨keyIdentifier sha256 presented, s.now,
      s.returned, s.guardPhase presented (keyIdentifier sha256 presented)⟩)
  | get {n : Nat} {a : Attempt} (ha : s.attempts n = some a) (hp : a.phase = .guarded) :
    Stepped sha256 s (.get n) (s.setAttempt n (a.enter (getCached s a)))
  | lookup {n : Nat} {a : Attempt} (ok : Bool) (ha : s.attempts n = some a)
    (hp : a.phase = .missed) :
    Stepped sha256 s (.lookup n ok) (s.setAttempt n (a.enter (lookupKey s a ok)))
  | insert {n : Nat} {a : Attempt} {r : CachedKey} (ha : s.attempts n = some a)
    (hp : a.phase = .fetched r) :
    Stepped sha256 s (.insert n)
      ((s.setCache a.identifier (some r)).setAttempt n (a.enter (.resolved r)))
  | authenticate {n : Nat} {a : Attempt} {r : CachedKey} (ha : s.attempts n = some a)
    (hp : a.phase = .resolved r) :
    Stepped sha256 s (.authenticate n) (decideAttempt s n a r)
  | revoke {n : Nat} (id : ApiKeyId) (hn : s.revocations n = none) :
    Stepped sha256 s (.revoke n id) (s.setRevocation n ⟨id, .started⟩)
  | identify {n : Nat} {v : Revocation} (ok : Bool) (hv : s.revocations n = some v)
    (hp : v.phase = .started) :
    Stepped sha256 s (.identify n ok) (s.setRevocation n (v.enter
      (if ok then .identified (s.keys.apiKeyIdentifier v.id) else .done none)))
  | update {n : Nat} {v : Revocation} {i : Option String} (hv : s.revocations n = some v)
    (hp : v.phase = .identified i) :
    Stepped sha256 s (.update n true) (updateKey s n v i)
  | updateFailed {n : Nat} {v : Revocation} {i : Option String} (hv : s.revocations n = some v)
    (hp : v.phase = .identified i) :
    Stepped sha256 s (.update n false) (s.setRevocation n (v.enter (.done none)))
  | invalidate {n : Nat} {v : Revocation} {i : Option String} (hv : s.revocations n = some v)
    (hp : v.phase = .updated i) :
    Stepped sha256 s (.invalidate n) ((invalidateKey s i).setRevocation n (v.enter .invalidated))
  | audit {n : Nat} {v : Revocation} (hv : s.revocations n = some v) (hp : v.phase = .invalidated) :
    Stepped sha256 s (.audit n true)
      { s.setRevocation n (v.enter (.done (some 1))) with returned := s.returned ++ [v.id] }
  | auditFailed {n : Nat} {v : Revocation} (hv : s.revocations n = some v)
    (hp : v.phase = .invalidated) :
    Stepped sha256 s (.audit n false) (s.setRevocation n (v.enter (.done none)))

theorem stepped_of_step {sha256 : Digest} {s s' : State} {a : Act}
    (h : step sha256 s a = some s') : Stepped sha256 s a s' := by
  cases a with
  | tick d =>
    cases h
    exact .tick d
  | create keyHash identifier createdAt =>
    obtain ⟨k, hk, rfl⟩ := Option.map_eq_some_iff.mp h
    exact .create hk
  | evict identifier =>
    cases h
    exact .evict identifier
  | begin n presented =>
    simp only [step] at h
    split at h <;> cases h
    exact .begin presented ‹_›
  | get n =>
    obtain ⟨a, ha, h⟩ := Option.bind_eq_some_iff.mp h
    split at h <;> cases h
    exact .get ha ‹_›
  | lookup n ok =>
    obtain ⟨a, ha, h⟩ := Option.bind_eq_some_iff.mp h
    split at h <;> cases h
    exact .lookup ok ha ‹_›
  | insert n =>
    obtain ⟨a, ha, h⟩ := Option.bind_eq_some_iff.mp h
    split at h <;> cases h
    exact .insert ha ‹_›
  | authenticate n =>
    obtain ⟨a, ha, h⟩ := Option.bind_eq_some_iff.mp h
    split at h <;> cases h
    exact .authenticate ha ‹_›
  | revoke n id =>
    simp only [step] at h
    split at h <;> cases h
    exact .revoke id ‹_›
  | identify n ok =>
    obtain ⟨v, hv, h⟩ := Option.bind_eq_some_iff.mp h
    split at h <;> cases h
    exact .identify ok hv ‹_›
  | update n ok =>
    obtain ⟨v, hv, h⟩ := Option.bind_eq_some_iff.mp h
    split at h <;> cases h
    cases ok with
    | true => exact .update hv ‹_›
    | false => exact .updateFailed hv ‹_›
  | invalidate n =>
    obtain ⟨v, hv, h⟩ := Option.bind_eq_some_iff.mp h
    split at h <;> cases h
    exact .invalidate hv ‹_›
  | audit n ok =>
    obtain ⟨v, hv, h⟩ := Option.bind_eq_some_iff.mp h
    split at h <;> cases h
    cases ok with
    | true => exact .audit hv ‹_›
    | false => exact .auditFailed hv ‹_›

end Auth
end GreenRelay
