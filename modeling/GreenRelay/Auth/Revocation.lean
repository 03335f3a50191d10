/-
A revoked key is refused.

A fill of the cache is not atomic with the read it is made from.  An
authentication that has read a key as active may insert it after the revocation
of that key has invalidated the entry, and the entry then stays.  Where no
invalidation meets such an authentication, and the revoked key was there when
its identifier was looked up, `revoked_key_refused` holds: an authentication
that begins after the revocation has returned is refused.

The invariant is that a key whose revocation has passed its invalidation is
`Dead`: its row is revoked, no entry of the cache says otherwise and nobody is
about to put one there.  Every step keeps a dead key dead.
-/
import GreenRelay.Auth.Tasks

namespace GreenRelay
namespace Auth

/-- An authentication that begins after the revocation of its key has returned
does not end as authorized. -/
def RevokedRefused (s : State) : Prop :=
  ∀ n a, s.attempts n = some a → ∀ id ∈ a.after,
    s.keys.apiKeyIdentifier id = some a.identifier → ∀ k context, a.phase ≠ .done (.next k context)

/-- When a revocation invalidates the entry of a key, no authentication is
between reading that key as active and caching it; and a revocation updates no
row that was not there when it looked up the identifier. -/
def NoStaleFill (s : State) : Act → Prop
  | .invalidate n => ∀ v i, s.revocations n = some v → v.phase = .updated (some i) →
      ∀ m a, s.attempts m = some a → a.identifier = i → ∀ e, a.phase ≠ .fetched (some e)
  | .update n true => ∀ v, s.revocations n = some v → v.phase = .identified none →
      s.keys.find v.id = none
  | _ => True

/-! ## The invariant -/

/-- No entry says that the key is active, and none is about to. -/
structure Clean (s : State) (identifier : String) : Prop where
  cache : ∀ e, s.cache identifier ≠ some (some e)
  fetched : ∀ n a, s.attempts n = some a → a.identifier = identifier →
    ∀ e, a.phase ≠ .fetched (some e)

def Dead (s : State) (id : ApiKeyId) : Prop :=
  ∃ r, s.keys.find id = some r ∧ r.revoked = true ∧ Clean s r.keyIdentifier

/-- The phase of an authentication that is not going to be authorized, as far as
it depends on what it has resolved. -/
def AttemptPhase.refusing : AttemptPhase → Prop
  | .resolved r => r = none
  | .done (.next _ _) => False
  | _ => True

/-- What a revocation has achieved by the phase that it is in. -/
def Revocation.Achieved (s : State) (v : Revocation) : Prop :=
  match v.phase with
  | .identified (some i) => ∃ r, s.keys.find v.id = some r ∧ r.keyIdentifier = i
  | .updated i => ∃ r, s.keys.find v.id = some r ∧ r.revoked = true ∧ i = some r.keyIdentifier
  | .invalidated => Dead s v.id
  | _ => True

/-- An authentication that began after a revocation of its key is on its way to
a refusal. -/
def Attempt.Barred (s : State) (a : Attempt) : Prop :=
  ∀ id ∈ a.after, id ∈ s.returned ∧
    (s.keys.apiKeyIdentifier id = some a.identifier → a.phase.refusing)

structure Sound (s : State) : Prop where
  returned : ∀ id ∈ s.returned, Dead s id
  revocations : ∀ n v, s.revocations n = some v → v.Achieved s
  attempts : ∀ n a, s.attempts n = some a → a.Barred s

/-! ## Dead keys -/

section Steps

variable {sha256 : Digest} {s s' : State} {act : Act} {id : ApiKeyId}

theorem setAttempt_attempts {n m : Nat} {a b : Attempt}
    (h : (s.setAttempt n a).attempts m = some b) :
    m = n ∧ b = a ∨ m ≠ n ∧ s.attempts m = some b := by
  by_cases hm : m = n
  · simp only [State.setAttempt, if_pos hm, Option.some.injEq] at h
    exact .inl ⟨hm, h.symm⟩
  · simp only [State.setAttempt, if_neg hm] at h
    exact .inr ⟨hm, h⟩

theorem setRevocation_revocations {n m : Nat} {v w : Revocation}
    (h : (s.setRevocation n v).revocations m = some w) :
    m = n ∧ w = v ∨ m ≠ n ∧ s.revocations m = some w := by
  by_cases hm : m = n
  · simp only [State.setRevocation, if_pos hm, Option.some.injEq] at h
    exact .inl ⟨hm, h.symm⟩
  · simp only [State.setRevocation, if_neg hm] at h
    exact .inr ⟨hm, h⟩

/-- A row stays through every step: its identifier for good, and its revocation
once it is there. -/
theorem find_stepped {r : ApiKeyRecord} (h : Stepped sha256 s act s')
    (hr : s.keys.find id = some r) :
    ∃ r', s'.keys.find id = some r' ∧ r'.keyIdentifier = r.keyIdentifier ∧
      (r.revoked = true → r'.revoked = true) := by
  cases h with
  | create hk => exact ⟨r, ApiKeys.find_insertApiKey hk hr, rfl, fun h => h⟩
  | @update n v i hv hp =>
    refine ⟨if id = v.id then ApiKeys.revoke r else r, ?_, ?_, ?_⟩
    · show (s.keys.setApiKeyRevoked v.id).1.find id = _
      rw [ApiKeys.find_setApiKeyRevoked, hr, Option.map_some]
    · split <;> rfl
    · intro h
      split
      · rfl
      · exact h
  | @invalidate n v i hv hp => cases i <;> exact ⟨r, hr, rfl, fun h => h⟩
  | tick | evict | begin | get | lookup | insert | authenticate | revoke | identify | updateFailed
  | audit | auditFailed => exact ⟨r, hr, rfl, fun h => h⟩

theorem identifier_stepped {r : ApiKeyRecord} {i : String} (h : Stepped sha256 s act s')
    (hr : s.keys.find id = some r) (hi : s'.keys.apiKeyIdentifier id = some i) :
    s.keys.apiKeyIdentifier id = some i := by
  obtain ⟨r', hr', hsame, _⟩ := find_stepped h hr
  rw [ApiKeys.apiKeyIdentifier, hr', Option.map_some, hsame] at hi
  rw [ApiKeys.apiKeyIdentifier, hr, Option.map_some, hi]

theorem Clean.setAttempt {i : String} {n : Nat} {a : Attempt} (h : Clean s i)
    (ha : a.identifier = i → ∀ e, a.phase ≠ .fetched (some e)) : Clean (s.setAttempt n a) i where
  cache := h.cache
  fetched m b hb hi := by
    rcases setAttempt_attempts hb with ⟨_, rfl⟩ | ⟨_, hb⟩
    · exact ha hi
    · exact h.fetched m b hb hi

theorem Clean.setCache {i j : String} {entry : Option CachedKey} (h : Clean s i)
    (he : i = j → ∀ e, entry ≠ some (some e)) : Clean (s.setCache j entry) i where
  cache e := by
    by_cases hij : i = j
    · simp only [State.setCache, if_pos hij]
      exact he hij e
    · simp only [State.setCache, if_neg hij]
      exact h.cache e
  fetched := h.fetched

theorem guardPhase_ne_fetched (s : State) (presented i : String) (r : CachedKey) :
    s.guardPhase presented i ≠ .fetched r := by
  unfold State.guardPhase
  split
  · split <;> exact fun h => by cases h
  · exact fun h => by cases h

theorem getCached_ne_fetched (s : State) (a : Attempt) (r : CachedKey) :
    getCached s a ≠ .fetched r := by
  unfold getCached
  split <;> exact fun h => by cases h

/-- The table answers an authentication that comes late, so only a stale read
could bring a dead key back. -/
theorem clean_stepped {r : ApiKeyRecord} (h : Stepped sha256 s act s')
    (hr : s.keys.find id = some r) (hrevoked : r.revoked = true) (hc : Clean s r.keyIdentifier) :
    Clean s' r.keyIdentifier := by
  cases h with
  | evict identifier => exact hc.setCache (fun _ _ h => by cases h)
  | begin presented hn => exact hc.setAttempt (fun _ _ => guardPhase_ne_fetched _ _ _ _)
  | get ha hp => exact hc.setAttempt (fun _ _ => getCached_ne_fetched _ _ _)
  | @lookup n a ok ha hp =>
    apply hc.setAttempt
    intro (hi : a.identifier = r.keyIdentifier) e
    cases ok with
    | true =>
      show AttemptPhase.fetched (s.keys.lookupActiveKey a.identifier) ≠ _
      rw [hi, ApiKeys.lookupActiveKey_revoked hr hrevoked]
      exact fun h => by cases h
    | false => exact fun h => by cases h
  | @insert n a e ha hp =>
    refine Clean.setAttempt (hc.setCache ?_) (fun _ _ h => by cases h)
    rintro hi e' ⟨rfl⟩
    exact hc.fetched n a ha hi.symm e' hp
  | @authenticate n a e ha hp =>
    refine ⟨hc.cache, ?_⟩
    intro m b hb hi
    rcases setAttempt_attempts hb with ⟨_, rfl⟩ | ⟨_, hb⟩
    · exact fun _ h => by cases h
    · exact hc.fetched m b hb hi
  | @invalidate n v i hv hp =>
    cases i with
    | some i =>
      have hset : Clean (s.setCache i none) r.keyIdentifier := hc.setCache (fun _ _ h => by cases h)
      exact ⟨hset.cache, hset.fetched⟩
    | none => exact ⟨hc.cache, hc.fetched⟩
  | tick | create | revoke | identify | update | updateFailed | audit | auditFailed =>
    exact ⟨hc.cache, hc.fetched⟩

theorem Dead.step (h : Dead s id) (hstep : Stepped sha256 s act s') : Dead s' id := by
  obtain ⟨r, hr, hrevoked, hc⟩ := h
  obtain ⟨r', hr', hsame, hkeep⟩ := find_stepped hstep hr
  refine ⟨r', hr', hkeep hrevoked, ?_⟩
  rw [hsame]
  exact clean_stepped hstep hr hrevoked hc

/-! ## Steps of a sound state -/

theorem achieved_stepped {v : Revocation} (h : v.Achieved s) (hstep : Stepped sha256 s act s') :
    v.Achieved s' := by
  unfold Revocation.Achieved at h ⊢
  split at h
  · obtain ⟨r, hr, hi⟩ := h
    obtain ⟨r', hr', hsame, _⟩ := find_stepped hstep hr
    exact ⟨r', hr', hsame.trans hi⟩
  · obtain ⟨r, hr, hrevoked, hi⟩ := h
    obtain ⟨r', hr', hsame, hkeep⟩ := find_stepped hstep hr
    exact ⟨r', hr', hkeep hrevoked, hi.trans (congrArg some hsame.symm)⟩
  · exact h.step hstep
  · exact trivial

theorem Sound.barred_stepped {a : Attempt} (h : Sound s) (ha : a.Barred s)
    (hstep : Stepped sha256 s act s') (hreturned : ∀ id ∈ s.returned, id ∈ s'.returned) :
    a.Barred s' := by
  intro id hid
  obtain ⟨hold, hrefusing⟩ := ha id hid
  obtain ⟨r, hr, _⟩ := h.returned id hold
  exact ⟨hreturned id hold, fun hi => hrefusing (identifier_stepped hstep hr hi)⟩

theorem refusing_guardPhase (s : State) (presented i : String) :
    (s.guardPhase presented i).refusing := by
  unfold State.guardPhase
  split
  · split <;> exact trivial
  · exact trivial

/-- The cache does not answer for a dead key. -/
theorem refusing_getCached {a : Attempt} {r : ApiKeyRecord} (hi : r.keyIdentifier = a.identifier)
    (hc : Clean s r.keyIdentifier) : (getCached s a).refusing := by
  unfold getCached
  split
  · rename_i cached hcached
    rw [← hi] at hcached
    cases cached with
    | none => rfl
    | some e => exact absurd hcached (hc.cache e)
  · exact trivial

theorem refusing_decided (i : String) (t : FailureTracker) (now : Nat) :
    AttemptPhase.refusing (.done (reply i none
      (authenticateIdentified i (fun _ => (none : CachedKey).map (·.1)) t now).1)) := by
  cases h : (authenticateIdentified i (fun _ => (none : CachedKey).map (·.1)) t now).1 with
  | authorized id => cases authenticateIdentified_authorized h
  | unauthorized => exact trivial
  | lockedOut => exact trivial

/-- The moving authentication, when its identifier is that of a dead key. -/
theorem Sound.move {n : Nat} {a : Attempt} {p : AttemptPhase} (h : Sound s)
    (hstep : Stepped sha256 s act s') (ha : s.attempts n = some a)
    (hreturned : s'.returned = s.returned)
    (hp : ∀ r : ApiKeyRecord, r.keyIdentifier = a.identifier → Clean s r.keyIdentifier →
      a.phase.refusing → p.refusing) : (a.enter p).Barred s' := by
  intro id hid
  obtain ⟨hold, hrefusing⟩ := h.attempts n a ha id hid
  obtain ⟨r, hr, _, hc⟩ := h.returned id hold
  refine ⟨hreturned ▸ hold, fun hi => ?_⟩
  have hi' := identifier_stepped hstep hr hi
  have hsame : r.keyIdentifier = a.identifier := by
    rw [ApiKeys.apiKeyIdentifier, hr, Option.map_some, Option.some.injEq] at hi'
    exact hi'
  exact hp r hsame hc (hrefusing hi')

/-- The update hits the row whose identifier was looked up. -/
theorem achieved_update {n : Nat} {v : Revocation} {i : Option String} (h : Sound s)
    (hc : NoStaleFill s (.update n true)) (hv : s.revocations n = some v)
    (hp : v.phase = .identified i) :
    Revocation.Achieved (updateKey s n v i)
      (v.enter (if 0 < (s.keys.setApiKeyRevoked v.id).2 then .updated i else .done (some 0))) := by
  cases hfind : s.keys.find v.id with
  | none =>
    have hzero : ¬ 0 < (s.keys.setApiKeyRevoked v.id).2 := by
      simp [ApiKeys.setApiKeyRevoked, hfind]
    rw [if_neg hzero]
    exact trivial
  | some r =>
    have hone : 0 < (s.keys.setApiKeyRevoked v.id).2 := by
      simp [ApiKeys.setApiKeyRevoked, hfind]
    rw [if_pos hone]
    cases i with
    | none => cases (hc v hv hp).symm.trans hfind
    | some i =>
      have hachieved := h.revocations n v hv
      rw [Revocation.Achieved, hp] at hachieved
      obtain ⟨r', hr', hi⟩ := hachieved
      rw [hfind, Option.some.injEq] at hr'
      subst hr'
      refine ⟨ApiKeys.revoke r, ?_, rfl, congrArg some hi.symm⟩
      show (s.keys.setApiKeyRevoked v.id).1.find v.id = _
      rw [ApiKeys.find_setApiKeyRevoked, hfind, Option.map_some, if_pos rfl]

/-- After the invalidation the key is dead. -/
theorem achieved_invalidate {n : Nat} {v : Revocation} {i : Option String} (h : Sound s)
    (hc : NoStaleFill s (.invalidate n)) (hv : s.revocations n = some v)
    (hp : v.phase = .updated i) :
    Revocation.Achieved ((invalidateKey s i).setRevocation n (v.enter .invalidated))
      (v.enter .invalidated) := by
  have hachieved := h.revocations n v hv
  rw [Revocation.Achieved, hp] at hachieved
  obtain ⟨r, hr, hrevoked, rfl⟩ := hachieved
  refine ⟨r, hr, hrevoked, ?_, ?_⟩
  · intro e
    show (s.setCache r.keyIdentifier none).cache r.keyIdentifier ≠ _
    simp [State.setCache]
  · exact fun m a ha hi => hc v _ hv hp m a ha hi

end Steps

namespace Sound

variable {sha256 : Digest} {s s' : State} {act : Act}

theorem step (h : Sound s) (hc : NoStaleFill s act) (hstep : Stepped sha256 s act s') :
    Sound s' := by
  have hdead : ∀ id ∈ s.returned, Dead s' id := fun id hid => (h.returned id hid).step hstep
  have hachieved : ∀ n v, s.revocations n = some v → v.Achieved s' :=
    fun n v hv => achieved_stepped (h.revocations n v hv) hstep
  have hbarred : s'.returned = s.returned → ∀ n a, s.attempts n = some a → a.Barred s' :=
    fun heq n a ha => h.barred_stepped (h.attempts n a ha) hstep (fun id hid => heq ▸ hid)
  -- One revocation moves, the others are as they were.
  have hset : ∀ {n : Nat} {v : Revocation}, v.Achieved s' → ∀ m w,
      (s.setRevocation n v).revocations m = some w → w.Achieved s' := by
    intro n v hv m w hw
    rcases setRevocation_revocations hw with ⟨_, rfl⟩ | ⟨_, hw⟩
    · exact hv
    · exact hachieved m w hw
  have hmove : s'.returned = s.returned → ∀ {n : Nat} {a : Attempt}, a.Barred s' → ∀ m b,
      (s.setAttempt n a).attempts m = some b → b.Barred s' := by
    intro heq n a ha m b hb
    rcases setAttempt_attempts hb with ⟨_, rfl⟩ | ⟨_, hb⟩
    · exact ha
    · exact hbarred heq m b hb
  have hstep' := hstep
  cases hstep with
  | tick d => exact ⟨hdead, hachieved, hbarred rfl⟩
  | create hk => exact ⟨hdead, hachieved, hbarred rfl⟩
  | evict identifier => exact ⟨hdead, hachieved, hbarred rfl⟩
  | begin presented hn =>
    refine ⟨hdead, hachieved, hmove rfl ?_⟩
    exact fun id hid => ⟨hid, fun _ => refusing_guardPhase _ _ _⟩
  | get ha hp =>
    refine ⟨hdead, hachieved, hmove rfl (h.move hstep' ha rfl ?_)⟩
    exact fun r hi hclean _ => refusing_getCached hi hclean
  | lookup ok ha hp =>
    refine ⟨hdead, hachieved, hmove rfl (h.move hstep' ha rfl ?_)⟩
    intro r _ _ _
    cases ok <;> exact trivial
  | @insert n a e ha hp =>
    refine ⟨hdead, hachieved, hmove rfl (h.move hstep' ha rfl ?_)⟩
    intro r hi hclean _
    cases e with
    | none => rfl
    | some e => exact absurd hp (hclean.fetched n a ha hi.symm e)
  | @authenticate n a e ha hp =>
    refine ⟨hdead, hachieved, hmove rfl (h.move hstep' ha rfl ?_)⟩
    intro r _ _ hrefusing
    rw [hp] at hrefusing
    have hnone : e = none := hrefusing
    subst hnone
    exact refusing_decided _ _ _
  | revoke id hn => exact ⟨hdead, hset trivial, hbarred rfl⟩
  | @identify n v ok hv hp =>
    refine ⟨hdead, hset ?_, hbarred rfl⟩
    cases ok with
    | false => exact trivial
    | true =>
      cases hfind : s.keys.find v.id with
      | none =>
        rw [ApiKeys.apiKeyIdentifier, hfind]
        exact trivial
      | some r =>
        rw [ApiKeys.apiKeyIdentifier, hfind]
        exact ⟨r, hfind, rfl⟩
  | update hv hp => exact ⟨hdead, hset (achieved_update h hc hv hp), hbarred rfl⟩
  | updateFailed hv hp => exact ⟨hdead, hset trivial, hbarred rfl⟩
  | @invalidate n v i hv hp =>
    have hnew := achieved_invalidate h hc hv hp
    cases i <;> exact ⟨hdead, hset hnew, hbarred rfl⟩
  | @audit n v hv hp =>
    have hkey := hachieved n v hv
    rw [Revocation.Achieved, hp] at hkey
    refine ⟨?_, hset trivial, ?_⟩
    · intro id hid
      rcases List.mem_append.mp hid with hid | hid
      · exact hdead id hid
      · rw [List.mem_singleton.mp hid]
        exact hkey
    · exact fun m a ha => h.barred_stepped (h.attempts m a ha) hstep'
        (fun id hid => List.mem_append_left _ hid)
  | auditFailed hv hp => exact ⟨hdead, hset trivial, hbarred rfl⟩

theorem invariant (sha256 : Digest) : (service sha256).Inductive NoStaleFill Sound where
  start s hs := by
    refine ⟨?_, ?_, ?_⟩
    · rw [hs.returned]
      exact fun _ hid => by cases hid
    · rw [hs.revocations]
      exact fun _ _ hv => by cases hv
    · rw [hs.attempts]
      exact fun _ _ ha => by cases ha
  step s a t h hc ht := h.step hc (stepped_of_step ht)

end Sound

/-- Where no authentication holds a stale read of a key when its entry is
invalidated, revocation is immediate and permanent. -/
theorem revoked_key_refused (sha256 : Digest) :
    (service sha256).Always NoStaleFill RevokedRefused := by
  intro s hr n a ha id hid hi k context hp
  have hs : Sound s := (Sound.invariant sha256).reach hr
  have hrefusing := (hs.attempts n a ha id hid).2 hi
  rw [hp] at hrefusing
  exact hrefusing

/-- The digest of the key `k`. -/
def digestOfK : Digest := fun _ =>
  [0x82, 0x54, 0xc3, 0x29, 0xa9, 0x28, 0x50, 0xf6, 0xd5, 0x39, 0xdd, 0x37, 0x6f, 0x48, 0x16, 0xee,
    0x27, 0x64, 0x51, 0x7d, 0xa5, 0xe0, 0x23, 0x55, 0x14, 0xaf, 0x43, 0x31, 0x64, 0x48, 0x0d, 0x7a]

/-- An authentication that is there has begun. -/
theorem begun_of_exec {sha256 : Digest} {acts : List Act} {s t : State}
    (ht : (service sha256).exec s acts = some t) {n : Nat} (hn : t.attempts n ≠ none) :
    s.attempts n ≠ none ∨ ∃ presented, .begin n presented ∈ acts := by
  induction acts generalizing s with
  | nil =>
    cases ht
    exact .inl hn
  | cons act acts ih =>
    obtain ⟨u, hu, hrest⟩ := Option.bind_eq_some_iff.mp ht
    rcases ih hrest with hbefore | ⟨presented, hmem⟩
    · have hmove : ∀ {m : Nat} {a b : Attempt}, s.attempts m = some b →
          (s.setAttempt m a).attempts n ≠ none → s.attempts n ≠ none := by
        intro m a b hb hset
        by_cases hm : n = m
        · rw [hm, hb]
          exact Option.some_ne_none b
        · simpa [State.setAttempt, hm] using hset
      cases stepped_of_step hu with
      | @begin m presented hm =>
        by_cases hnm : n = m
        · exact .inr ⟨presented, hnm ▸ List.mem_cons_self⟩
        · exact .inl (by simpa [State.setAttempt, hnm] using hbefore)
      | get ha hp => exact .inl (hmove ha hbefore)
      | lookup ok ha hp => exact .inl (hmove ha hbefore)
      | insert ha hp => exact .inl (hmove ha hbefore)
      | authenticate ha hp => exact .inl (hmove ha hbefore)
      | @invalidate m v i hv hp => cases i <;> exact .inl hbefore
      | tick | create | evict | revoke | identify | update | updateFailed | audit | auditFailed =>
        exact .inl hbefore
    · exact .inr ⟨presented, List.mem_cons_of_mem act hmem⟩

/-- A key is created and used, and a revocation of it has looked up its identifier. -/
def keyUsed : List Act :=
  [.create "$argon2id$" "8254c329a92850f6d539dd376f4816ee2764517da5e0235514af433164480d7a"
      "2026-01-01T00:00:00+00:00",
    .begin 0 "k", .get 0, .lookup 0 true, .insert 0, .authenticate 0,
    .revoke 0 1, .identify 0 true]

/-- It is presented again when the revocation has returned. -/
def presentedAgain : List Act :=
  [.audit 0 true, .begin 1 "k", .get 1, .lookup 1 true, .insert 1, .authenticate 1]

theorem keyUsed_meets : (service digestOfK).Meets NoStaleFill fresh
    (keyUsed ++ .update 0 true :: .invalidate 0 :: presentedAgain) := by
  have hrun : ((service digestOfK).exec fresh keyUsed).map (fun s => s.revocations 0)
      = some (some ⟨1, .identified (some (keyIdentifier digestOfK "k"))⟩) := by
    decide +kernel
  have hread : ((service digestOfK).exec fresh (keyUsed ++ [.update 0 true])).bind
      (fun s => (s.attempts 0).map Attempt.phase)
      = some (.done (.next 1 ⟨none, keyIdentifier digestOfK "k"⟩)) := by
    decide +kernel
  obtain ⟨s, hs, hrevocation⟩ := Option.map_eq_some_iff.mp hrun
  obtain ⟨t, ht, hphase⟩ := Option.bind_eq_some_iff.mp hread
  have hupdated : (service digestOfK).step s (.update 0 true) = some t :=
    Machine.step_of_exec hs ht
  have hquiet : ∀ act ∈ keyUsed, ∀ s, NoStaleFill s act := by
    intro act hact s
    simp only [keyUsed, List.mem_cons, List.not_mem_nil, or_false] at hact
    rcases hact with rfl | rfl | rfl | rfl | rfl | rfl | rfl | rfl <;> exact trivial
  have hlate : ∀ act ∈ presentedAgain, ∀ s, NoStaleFill s act := by
    intro act hact s
    simp only [presentedAgain, List.mem_cons, List.not_mem_nil, or_false] at hact
    rcases hact with rfl | rfl | rfl | rfl | rfl | rfl <;> exact trivial
  apply Machine.Meets.append (Machine.meets_of_forall hquiet) hs
  refine .cons ?_ hupdated ⟨?_, fun _ _ => Machine.meets_of_forall hlate⟩
  · intro v hv hp
    rw [hrevocation] at hv
    cases hv
    cases hp
  · intro v i hv hp m a ha hi e hfetched
    rcases begun_of_exec ht (ha ▸ Option.some_ne_none a) with hbefore | ⟨presented, hbegin⟩
    · exact absurd rfl hbefore
    · obtain ⟨rfl, -⟩ : m = 0 ∧ presented = "k" := by simpa [keyUsed] using hbegin
      rw [ha, Option.map_some, hfetched] at hphase
      cases hphase

/-- The key that was used before is refused once its revocation has returned. -/
theorem revoked_key_refused_used :
    ∃ s, (service digestOfK).exec fresh
        (keyUsed ++ .update 0 true :: .invalidate 0 :: presentedAgain) = some s ∧
      RevokedRefused s ∧
      s.attempts 0 = some ⟨keyIdentifier digestOfK "k", 0, [],
        .done (.next 1 ⟨none, keyIdentifier digestOfK "k"⟩)⟩ ∧
      s.attempts 1 =
        some ⟨keyIdentifier digestOfK "k", 0, [1], .done (.refused .unauthorized)⟩ := by
  have hrun : ((service digestOfK).exec fresh
      (keyUsed ++ .update 0 true :: .invalidate 0 :: presentedAgain)).map
      (fun s => (s.attempts 0, s.attempts 1))
      = some (some ⟨keyIdentifier digestOfK "k", 0, [],
          .done (.next 1 ⟨none, keyIdentifier digestOfK "k"⟩)⟩,
        some ⟨keyIdentifier digestOfK "k", 0, [1], .done (.refused .unauthorized)⟩) := by
    decide +kernel
  obtain ⟨s, hs, hattempts⟩ := Option.map_eq_some_iff.mp hrun
  obtain ⟨hfirst, hsecond⟩ := Prod.mk.inj hattempts
  exact ⟨s, hs, revoked_key_refused digestOfK s
    (Machine.reach_of_meets starting_fresh keyUsed_meets hs), hfirst, hsecond⟩

/-- An authentication reads the key, a revocation of the key runs to its end, and
only then is the reading cached. -/
def staleFill : List Act :=
  [.create "$argon2id$" "8254c329a92850f6d539dd376f4816ee2764517da5e0235514af433164480d7a"
      "2026-01-01T00:00:00+00:00",
    .begin 0 "k", .get 0, .lookup 0 true,
    .revoke 0 1, .identify 0 true, .update 0 true, .invalidate 0, .audit 0 true,
    .insert 0, .begin 1 "k", .get 1, .authenticate 1]

theorem revoked_key_accepted :
    ¬ ∀ sha256, (service sha256).Always Machine.anything RevokedRefused := by
  intro h
  have hrun : (((service digestOfK).exec fresh staleFill).bind (fun s => s.attempts 1)) = some
      ⟨keyIdentifier digestOfK "k", 0, [1],
        .done (.next 1 ⟨none, keyIdentifier digestOfK "k"⟩)⟩ := by
    decide +kernel
  have hkeys : (((service digestOfK).exec fresh staleFill).map
      (fun s => s.keys.apiKeyIdentifier 1)) = some (some (keyIdentifier digestOfK "k")) := by
    decide +kernel
  obtain ⟨s, hs, ha⟩ := Option.bind_eq_some_iff.mp hrun
  rw [hs, Option.map_some, Option.some.injEq] at hkeys
  exact h digestOfK s (Machine.reach_of_exec starting_fresh hs) 1 _ ha 1
    (List.mem_singleton.mpr rfl)
    hkeys 1 _ rfl

end Auth
end GreenRelay
