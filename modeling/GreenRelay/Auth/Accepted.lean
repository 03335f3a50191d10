/-
An active key is accepted.

What the cache answers is older than the table, and the failures that lock a key
out are counted apart from both.  As long as a key is first presented after it was
created, none of this turns its holder away: the cache never says that the key is
unknown, no failure is ever counted against it, and every authentication that ends
with an answer lets the request go on as that key, under the limit of its row
(`active_key_accepted`).  Who is let on is always a key of the table (`Credible`),
active or revoked, and this needs no condition.

Authentications are told apart by the digest of what was presented, so of the digest
it is asked that it `Separates` the texts that fail the guard from the stored keys.
-/
import GreenRelay.Auth.Revocation

namespace GreenRelay
namespace Auth

/-! ## What a resolved key says -/

/-- There is a row with this identifier, and `e` is its id and its limit. -/
def ApiKeys.Grants (k : ApiKeys) (identifier : String) (e : ApiKeyId × Option Nat) : Prop :=
  ∃ r, k.find e.1 = some r ∧ r.keyIdentifier = identifier ∧
    e.2 = r.customRateLimit.bind rateLimitOfColumn

/-- What an authentication has learned so far is in the table. -/
def AttemptPhase.Credible (k : ApiKeys) (identifier : String) : AttemptPhase → Prop
  | .fetched c => ∀ e, c = some e → k.Grants identifier e
  | .resolved c => ∀ e, c = some e → k.Grants identifier e
  | .done (.next id context) =>
    k.Grants identifier (id, context.customRateLimit) ∧ context.identifier = identifier
  | _ => True

structure Credible (s : State) : Prop where
  cache : ∀ i e, s.cache i = some (some e) → s.keys.Grants i e
  attempts : ∀ n a, s.attempts n = some a → a.phase.Credible s.keys a.identifier

section Grants

variable {k k' : ApiKeys} {i : String} {e : ApiKeyId × Option Nat}

theorem ApiKeys.Grants.insertApiKey {keyHash identifier createdAt : String}
    (h : k.Grants i e) (hk : k.insertApiKey keyHash identifier createdAt = some k') :
    k'.Grants i e := by
  obtain ⟨r, hr, hi, he⟩ := h
  exact ⟨r, ApiKeys.find_insertApiKey hk hr, hi, he⟩

theorem ApiKeys.Grants.setApiKeyRevoked (h : k.Grants i e) (id : ApiKeyId) :
    (k.setApiKeyRevoked id).1.Grants i e := by
  obtain ⟨r, hr, hi, he⟩ := h
  refine ⟨if e.1 = id then ApiKeys.revoke r else r, ?_, ?_, ?_⟩
  · rw [ApiKeys.find_setApiKeyRevoked, hr, Option.map_some]
  · rw [← hi]
    split <;> rfl
  · rw [he]
    split <;> rfl

/-- The table vouches for its own answer. -/
theorem ApiKeys.grants_lookupActiveKey (h : k.lookupActiveKey i = some e) : k.Grants i e := by
  obtain ⟨r, hr, he⟩ := Option.map_eq_some_iff.mp h
  have hfound := List.find?_some hr
  rw [decide_eq_true_eq] at hfound
  subst he
  exact ⟨r, Table.find_of_mem (List.mem_of_find?_eq_some hr), hfound.1, rfl⟩

/-- An active key is in the answer of the table. -/
theorem ApiKeys.lookupActiveKey_active {r : ApiKeyRecord} (hr : r ∈ k.table.rows)
    (hactive : r.revoked = false) : k.lookupActiveKey r.keyIdentifier ≠ none := by
  intro h
  rw [ApiKeys.lookupActiveKey, Option.map_eq_none_iff, List.find?_eq_none] at h
  exact h r hr (by simp [hactive])

theorem ApiKeys.row_of_identifier {r r' : ApiKeyRecord} (hr : r ∈ k.table.rows)
    (hr' : r' ∈ k.table.rows) (h : r.keyIdentifier = r'.keyIdentifier) : r = r' :=
  List.inj_on_of_nodup_map k.uniqueIdentifier hr hr' h

/-- A grant is that of the only row with the identifier. -/
theorem ApiKeys.Grants.unique {r : ApiKeyRecord} (h : k.Grants r.keyIdentifier e)
    (hr : r ∈ k.table.rows) : e = (r.id, r.customRateLimit.bind rateLimitOfColumn) := by
  obtain ⟨r', hr', hi, he⟩ := h
  have hsame : r' = r := ApiKeys.row_of_identifier (Table.mem_of_find hr') hr hi
  have hid : r'.id = e.1 := Table.find_key hr'
  rw [hsame] at he hid
  rw [hid, ← he]

theorem AttemptPhase.Credible.mono {p : AttemptPhase} (h : p.Credible k i)
    (hk : ∀ e, k.Grants i e → k'.Grants i e) : p.Credible k' i := by
  unfold AttemptPhase.Credible at h ⊢
  split at h
  · exact fun e he => hk e (h e he)
  · exact fun e he => hk e (h e he)
  · exact ⟨hk _ h.1, h.2⟩
  · exact trivial

end Grants

namespace Credible

variable {sha256 : Digest} {s s' : State} {act : Act}

theorem grants_stepped {i : String} {e : ApiKeyId × Option Nat} (hstep : Stepped sha256 s act s')
    (h : s.keys.Grants i e) : s'.keys.Grants i e := by
  cases hstep with
  | create hk => exact h.insertApiKey hk
  | @update n v j hv hp => exact h.setApiKeyRevoked v.id
  | @invalidate n v j hv hp => cases j <;> exact h
  | tick | evict | begin | get | lookup | insert | authenticate | revoke | identify | updateFailed
  | audit | auditFailed => exact h

theorem guardPhase (k : ApiKeys) (s : State) (presented i : String) :
    (s.guardPhase presented i).Credible k i := by
  unfold State.guardPhase
  split
  · split <;> exact trivial
  · exact trivial

/-- Who is authorized is who was resolved. -/
theorem decided {a : Attempt} {c : CachedKey} {k : ApiKeys} (t : FailureTracker)
    (h : ∀ e, c = some e → k.Grants a.identifier e) :
    AttemptPhase.Credible k a.identifier (.done (reply a.identifier c
      (authenticateIdentified a.identifier (fun _ => c.map (·.1)) t a.now).1)) := by
  cases hout : (authenticateIdentified a.identifier (fun _ => c.map (·.1)) t a.now).1 with
  | unauthorized => exact trivial
  | lockedOut => exact trivial
  | authorized id =>
    obtain ⟨e, he, rfl⟩ := Option.map_eq_some_iff.mp (authenticateIdentified_authorized hout)
    subst he
    exact ⟨h e rfl, rfl⟩

theorem step (h : Credible s) (hstep : Stepped sha256 s act s') : Credible s' := by
  have hgrants := fun i e => grants_stepped (i := i) (e := e) hstep
  have hcache : ∀ i e, s.cache i = some (some e) → s'.keys.Grants i e :=
    fun i e hi => hgrants i e (h.cache i e hi)
  have hold : ∀ n a, s.attempts n = some a → a.phase.Credible s'.keys a.identifier :=
    fun n a ha => (h.attempts n a ha).mono (hgrants a.identifier)
  -- One attempt moves, the others know what they knew.
  have hmove : ∀ {n : Nat} {a : Attempt}, a.phase.Credible s'.keys a.identifier → ∀ m b,
      (s.setAttempt n a).attempts m = some b → b.phase.Credible s'.keys b.identifier := by
    intro n a ha m b hb
    rcases setAttempt_attempts hb with ⟨_, rfl⟩ | ⟨_, hb⟩
    · exact ha
    · exact hold m b hb
  have hset : ∀ j entry, (∀ e, entry = some (some e) → s'.keys.Grants j e) → ∀ i e,
      (s.setCache j entry).cache i = some (some e) → s'.keys.Grants i e := by
    intro j entry hentry i e hi
    by_cases hij : i = j
    · simp only [State.setCache, if_pos hij] at hi
      exact hij ▸ hentry e hi
    · simp only [State.setCache, if_neg hij] at hi
      exact hcache i e hi
  cases hstep with
  | tick d => exact ⟨hcache, hold⟩
  | create hk => exact ⟨hcache, hold⟩
  | evict i => exact ⟨hset i none (fun _ he => by cases he), hold⟩
  | begin presented hn => exact ⟨hcache, hmove (guardPhase _ _ _ _)⟩
  | @get n a ha hp =>
    refine ⟨hcache, hmove ?_⟩
    show (getCached s a).Credible s.keys a.identifier
    unfold getCached
    split
    · next c hc => exact fun e he => h.cache a.identifier e (he ▸ hc)
    · exact trivial
  | @lookup n a ok ha hp =>
    refine ⟨hcache, hmove ?_⟩
    cases ok with
    | true => exact fun e he => ApiKeys.grants_lookupActiveKey he
    | false => exact trivial
  | @insert n a c ha hp =>
    have hc : ∀ e, c = some e → s.keys.Grants a.identifier e := by
      have hphase := h.attempts n a ha
      rw [hp] at hphase
      exact hphase
    exact ⟨hset _ _ (fun e he => hc e (Option.some.inj he)), hmove hc⟩
  | @authenticate n a c ha hp =>
    have hphase := h.attempts n a ha
    rw [hp] at hphase
    exact ⟨hcache, hmove (decided s.tracker hphase)⟩
  | @invalidate n v j hv hp =>
    cases j with
    | none => exact ⟨hcache, hold⟩
    | some j => exact ⟨hset j none (fun _ he => by cases he), hold⟩
  | revoke | identify | update | updateFailed | audit | auditFailed => exact ⟨hcache, hold⟩

theorem invariant (sha256 : Digest) : (service sha256).Inductive Machine.anything Credible where
  start s hs := by
    constructor
    · intro i e hi
      rw [hs.cache] at hi
      cases hi
    · intro n a ha
      rw [hs.attempts] at ha
      cases ha
  step s a t h _ ht := h.step (stepped_of_step ht)

end Credible

/-! ## What is held against a key -/

/-- No text of `texts` that fails the guard has the digest of a stored key. -/
def Separates (sha256 : Digest) (texts : Set String) (k : ApiKeys) : Prop :=
  ∀ presented ∈ texts, passesGuard presented = false →
    ∀ r ∈ k.table.rows, r.keyIdentifier ≠ keyIdentifier sha256 presented

/-- A key is created before it is presented; `texts` are the texts that are. -/
def CreatedFirst (texts : Set String) (s : State) : Act → Prop
  | .create _ identifier _ => ∀ n a, s.attempts n = some a → a.identifier ≠ identifier
  | .begin _ presented => presented ∈ texts
  | _ => True

/-- The authentication has not been told that its key is unknown. -/
def AttemptPhase.Welcoming : AttemptPhase → Prop
  | .fetched c => c ≠ none
  | .resolved c => c ≠ none
  | .done (.refused _) => False
  | _ => True

/-- Nothing is held against an identifier. -/
structure Welcome (s : State) (i : String) : Prop where
  cache : s.cache i ≠ some none
  tracker : i ∉ s.tracker.failures
  attempts : ∀ n a, s.attempts n = some a → a.identifier = i → a.phase.Welcoming

def Presented (s : State) (i : String) : Prop := ∃ n a, s.attempts n = some a ∧ a.identifier = i

/-- Every active key is welcome, and the cache and the tracker know only of
identifiers that were presented. -/
structure Open (s : State) : Prop where
  active : ∀ r ∈ s.keys.table.rows, r.revoked = false → Welcome s r.keyIdentifier
  cached : ∀ i, s.cache i ≠ none → Presented s i
  failed : ∀ i ∈ s.tracker.failures, Presented s i

section Tracker

variable {t : FailureTracker} {i j : String}

theorem mem_evictStale {now : Nat} (h : i ∈ (t.evictStale now).failures) : i ∈ t.failures := by
  rw [AList.mem_keys] at h ⊢
  obtain ⟨e, he, rfl⟩ := List.mem_map.mp h
  obtain ⟨e', he', rfl⟩ := List.mem_map.mp (List.mem_filter.mp he).1
  exact List.mem_map.mpr ⟨e', he', rfl⟩

theorem mem_pushFailure {now : Nat} (h : i ∈ (t.pushFailure j now).failures) :
    i = j ∨ i ∈ t.failures := (AList.mem_insert _).mp h

theorem mem_recordFailure {now : Nat} (h : i ∈ (t.recordFailure j now).failures) :
    i = j ∨ i ∈ t.failures := by
  unfold FailureTracker.recordFailure at h
  split at h
  · dsimp only at h
    split at h
    · exact .inr (mem_evictStale h)
    · exact (mem_pushFailure h).imp_right mem_evictStale
  · exact mem_pushFailure h

theorem mem_recordSuccess (h : i ∈ (t.recordSuccess j).failures) : i ∈ t.failures :=
  (AList.mem_erase.mp h).2

theorem not_isLocked {now : Nat} (h : i ∉ t.failures) : t.isLocked i now = false := by
  rw [FailureTracker.isLocked, AList.lookup_eq_none.mpr h]
  rfl

/-- A failure counts against the identifier that was presented. -/
theorem mem_authenticateIdentified {store : KeyStore} {now : Nat}
    (h : i ∈ (authenticateIdentified j store t now).2.failures) : i = j ∨ i ∈ t.failures := by
  unfold authenticateIdentified at h
  split at h
  · exact .inr h
  · split at h
    · exact .inr (mem_recordSuccess h)
    · exact mem_recordFailure h

theorem authenticateIdentified_welcome {store : KeyStore} {now : Nat} {id : ApiKeyId}
    (h : i ∉ t.failures) (hstore : store i = some id) :
    authenticateIdentified i store t now = (.authorized id, t.recordSuccess i) := by
  rw [authenticateIdentified, not_isLocked h, hstore]
  rfl

end Tracker

namespace Welcome

variable {s : State} {i : String}

theorem setAttempt {n : Nat} {a : Attempt} (h : Welcome s i)
    (ha : a.identifier = i → a.phase.Welcoming) : Welcome (s.setAttempt n a) i where
  cache := h.cache
  tracker := h.tracker
  attempts m b hb hi := by
    rcases setAttempt_attempts hb with ⟨_, rfl⟩ | ⟨_, hb⟩
    · exact ha hi
    · exact h.attempts m b hb hi

theorem setCache {j : String} {entry : Option CachedKey} (h : Welcome s i)
    (he : i = j → entry ≠ some none) : Welcome (s.setCache j entry) i where
  cache := by
    by_cases hij : i = j
    · simp only [State.setCache, if_pos hij]
      exact he hij
    · simp only [State.setCache, if_neg hij]
      exact h.cache
  tracker := h.tracker
  attempts := h.attempts

theorem guardPhase {presented : String} (h : Welcome s i) (hguard : passesGuard presented = true) :
    (s.guardPhase presented i).Welcoming := by
  rw [State.guardPhase, if_pos hguard, not_isLocked h.tracker]
  exact trivial

theorem getCached {a : Attempt} (h : Welcome s a.identifier) : (getCached s a).Welcoming := by
  unfold Auth.getCached
  split
  · next c hc =>
    intro hnone
    exact h.cache (hnone ▸ hc)
  · exact trivial

/-- A welcome key that was found is let on. -/
theorem decideAttempt {n : Nat} {a : Attempt} {c : CachedKey} (h : Welcome s i)
    (hphase : a.phase = .resolved c) (ha : s.attempts n = some a) :
    Welcome (decideAttempt s n a c) i where
  cache := h.cache
  tracker := by
    intro (hmem : i ∈ (authenticateIdentified a.identifier _ s.tracker a.now).2.failures)
    rcases mem_authenticateIdentified hmem with rfl | hold
    · have hwelcome := h.attempts n a ha rfl
      rw [hphase] at hwelcome
      obtain ⟨e, rfl⟩ := Option.ne_none_iff_exists'.mp hwelcome
      rw [authenticateIdentified_welcome h.tracker rfl] at hmem
      exact h.tracker (mem_recordSuccess hmem)
    · exact h.tracker hold
  attempts m b hb hi := by
    rcases setAttempt_attempts hb with ⟨_, rfl⟩ | ⟨_, hb⟩
    · have hsame : a.identifier = i := hi
      subst hsame
      have hwelcome := h.attempts n a ha rfl
      rw [hphase] at hwelcome
      obtain ⟨e, rfl⟩ := Option.ne_none_iff_exists'.mp hwelcome
      show (AttemptPhase.done (reply a.identifier (some e) _)).Welcoming
      rw [authenticateIdentified_welcome h.tracker rfl]
      exact trivial
    · exact h.attempts m b hb hi

end Welcome

theorem Presented.setAttempt {s : State} {i : String} {n : Nat} {a : Attempt} (h : Presented s i)
    (hn : ∀ b, s.attempts n = some b → b.identifier = a.identifier) :
    Presented (s.setAttempt n a) i := by
  obtain ⟨m, b, hb, hi⟩ := h
  by_cases hm : m = n
  · refine ⟨n, a, by simp [State.setAttempt], ?_⟩
    rw [← hn b (hm ▸ hb), hi]
  · exact ⟨m, b, by simp [State.setAttempt, hm, hb], hi⟩

namespace Open

variable {sha256 : Digest} {texts : Set String} {s s' : State} {act : Act}

/-- What was presented stays so. -/
theorem presented_stepped {i : String} (hstep : Stepped sha256 s act s') (h : Presented s i) :
    Presented s' i := by
  cases hstep with
  | begin presented hn =>
    apply h.setAttempt
    intro b hb
    cases hn.symm.trans hb
  | get ha hp => exact h.setAttempt (fun b hb => by cases ha.symm.trans hb; rfl)
  | lookup ok ha hp => exact h.setAttempt (fun b hb => by cases ha.symm.trans hb; rfl)
  | insert ha hp => exact h.setAttempt (fun b hb => by cases ha.symm.trans hb; rfl)
  | @authenticate n a c ha hp =>
    exact h.setAttempt (a := a.enter _) (fun b hb => by cases ha.symm.trans hb; rfl)
  | @invalidate n v j hv hp => cases j <;> exact h
  | tick | create | evict | revoke | identify | update | updateFailed | audit | auditFailed =>
    exact h

/-- A step keeps a key welcome for as long as the table has it as active. -/
theorem welcome_stepped {r : ApiKeyRecord} (hc : CreatedFirst texts s act)
    (hsha : Separates sha256 texts s.keys) (hr : r ∈ s.keys.table.rows)
    (hactive : r.revoked = false) (h : Welcome s r.keyIdentifier)
    (hstep : Stepped sha256 s act s') : Welcome s' r.keyIdentifier := by
  cases hstep with
  | evict j => exact h.setCache (fun _ he => by cases he)
  | @begin n presented hn =>
    apply h.setAttempt
    intro (hi : keyIdentifier sha256 presented = r.keyIdentifier)
    show (s.guardPhase presented (keyIdentifier sha256 presented)).Welcoming
    cases hguard : passesGuard presented with
    | true =>
      rw [hi]
      exact h.guardPhase hguard
    | false => exact absurd hi.symm (hsha presented hc hguard r hr)
  | @get n a ha hp =>
    apply h.setAttempt
    intro (hi : a.identifier = r.keyIdentifier)
    exact Welcome.getCached (hi ▸ h)
  | @lookup n a ok ha hp =>
    apply h.setAttempt
    intro (hi : a.identifier = r.keyIdentifier)
    cases ok with
    | true =>
      show s.keys.lookupActiveKey a.identifier ≠ none
      rw [hi]
      exact ApiKeys.lookupActiveKey_active hr hactive
    | false => exact trivial
  | @insert n a c ha hp =>
    have hfound : a.identifier = r.keyIdentifier → c ≠ none := by
      intro hi
      have hphase := h.attempts n a ha hi
      rw [hp] at hphase
      exact hphase
    apply (h.setCache _).setAttempt
    · exact hfound
    · intro hi he
      exact hfound hi.symm (Option.some.inj he)
  | @authenticate n a c ha hp => exact h.decideAttempt hp ha
  | @invalidate n v j hv hp =>
    cases j with
    | none => exact ⟨h.cache, h.tracker, h.attempts⟩
    | some j =>
      have hset : Welcome (s.setCache j none) r.keyIdentifier :=
        h.setCache (fun _ he => by cases he)
      exact ⟨hset.cache, hset.tracker, hset.attempts⟩
  | tick | create | revoke | identify | update | updateFailed | audit | auditFailed =>
    exact ⟨h.cache, h.tracker, h.attempts⟩

/-- A key that was never presented is welcome. -/
theorem welcome_new (h : Open s) {i : String}
    (hi : ∀ n a, s.attempts n = some a → a.identifier ≠ i) : Welcome s i where
  cache hcache := by
    obtain ⟨n, a, ha, heq⟩ := h.cached i (by rw [hcache]; exact Option.some_ne_none _)
    exact hi n a ha heq
  tracker hmem := by
    obtain ⟨n, a, ha, heq⟩ := h.failed i hmem
    exact hi n a ha heq
  attempts n a ha heq := absurd heq (hi n a ha)

/-- An active row of the new table is an old one, or has just been created. -/
theorem active_stepped {r' : ApiKeyRecord} (hstep : Stepped sha256 s act s')
    (hr' : r' ∈ s'.keys.table.rows) (hactive : r'.revoked = false) :
    r' ∈ s.keys.table.rows ∨
      ∃ keyHash createdAt, act = .create keyHash r'.keyIdentifier createdAt := by
  cases hstep with
  | @create keyHash i createdAt k hk =>
    unfold ApiKeys.insertApiKey at hk
    split at hk
    · cases hk
      rcases List.mem_append.mp hr' with hold | hnew
      · exact .inl hold
      · rw [List.mem_singleton.mp hnew]
        exact .inr ⟨keyHash, createdAt, rfl⟩
    · cases hk
  | @update n v j hv hp =>
    obtain ⟨r, hr, heq⟩ := List.mem_map.mp hr'
    split at heq
    · rw [← heq] at hactive
      cases hactive
    · exact .inl (heq ▸ hr)
  | @invalidate n v j hv hp => cases j <;> exact .inl hr'
  | tick | evict | begin | get | lookup | insert | authenticate | revoke | identify | updateFailed
  | audit | auditFailed => exact .inl hr'

theorem cached_stepped {i : String} (h : Open s) (hstep : Stepped sha256 s act s')
    (hi : s'.cache i ≠ none) : Presented s' i := by
  have hold : s.cache i ≠ none → Presented s' i :=
    fun hi => presented_stepped hstep (h.cached i hi)
  cases hstep with
  | evict j =>
    by_cases hij : i = j
    · simp [State.setCache, hij] at hi
    · simp only [State.setCache, if_neg hij] at hi
      exact hold hi
  | @insert n a c ha hp =>
    by_cases hij : i = a.identifier
    · exact ⟨n, a.enter (.resolved c), by simp [State.setAttempt], hij.symm⟩
    · simp only [State.setAttempt, State.setCache, if_neg hij] at hi
      exact hold hi
  | @invalidate n v j hv hp =>
    cases j with
    | none => exact hold hi
    | some j =>
      by_cases hij : i = j
      · simp [State.setRevocation, invalidateKey, State.setCache, hij] at hi
      · simp only [State.setRevocation, invalidateKey, State.setCache, if_neg hij] at hi
        exact hold hi
  | tick | create | begin | get | lookup | authenticate | revoke | identify | update | updateFailed
  | audit | auditFailed => exact hold hi

theorem failed_stepped {i : String} (h : Open s) (hstep : Stepped sha256 s act s')
    (hi : i ∈ s'.tracker.failures) : Presented s' i := by
  have hold : i ∈ s.tracker.failures → Presented s' i :=
    fun hi => presented_stepped hstep (h.failed i hi)
  cases hstep with
  | @authenticate n a c ha hp =>
    rcases mem_authenticateIdentified hi with rfl | hbefore
    · exact ⟨n, _, if_pos rfl, rfl⟩
    · exact hold hbefore
  | @invalidate n v j hv hp => cases j <;> exact hold hi
  | tick | create | evict | begin | get | lookup | insert | revoke | identify | update
  | updateFailed | audit | auditFailed => exact hold hi

/-- A table keeps its rows, so what is separated from them later was so before. -/
theorem separates_stepped (hstep : Stepped sha256 s act s')
    (hsha : Separates sha256 texts s'.keys) : Separates sha256 texts s.keys := by
  intro presented hmem hguard r hr
  obtain ⟨r', hr', hsame, -⟩ := find_stepped hstep (Table.find_of_mem hr)
  rw [← hsame]
  exact hsha presented hmem hguard r' (Table.mem_of_find hr')

theorem step (h : Open s) (hc : CreatedFirst texts s act) (hsha : Separates sha256 texts s.keys)
    (hstep : Stepped sha256 s act s') : Open s' where
  active r' hr' hactive := by
    rcases active_stepped hstep hr' hactive with hr | ⟨keyHash, createdAt, rfl⟩
    · exact welcome_stepped hc hsha hr hactive (h.active r' hr hactive) hstep
    · have hnew := h.welcome_new hc
      cases hstep
      exact ⟨hnew.cache, hnew.tracker, hnew.attempts⟩
  cached _ hi := h.cached_stepped hstep hi
  failed _ hi := h.failed_stepped hstep hi

theorem invariant (sha256 : Digest) (texts : Set String) :
    (service sha256).Inductive (CreatedFirst texts)
      (fun s => Separates sha256 texts s.keys → Open s) where
  start s hs _ := by
    refine ⟨fun r hr hactive => ⟨?_, ?_, ?_⟩, ?_, ?_⟩
    · rw [hs.cache]
      exact fun h => by cases h
    · rw [hs.tracker]
      exact AList.notMem_empty _
    · rw [hs.attempts]
      exact fun n a ha => by cases ha
    · rw [hs.cache]
      exact fun i hi => absurd rfl hi
    · rw [hs.tracker]
      exact fun i hi => absurd hi (AList.notMem_empty _)
  step s a t h hc ht hsha := by
    have hstep := stepped_of_step ht
    have hbefore := separates_stepped hstep hsha
    exact (h hbefore).step hc hbefore hstep

end Open

/-! ## The result -/

/-- The answer to a request that came with an active key. -/
def ActiveAccepted (s : State) : Prop :=
  ∀ n a r, s.attempts n = some a → r ∈ s.keys.table.rows → r.keyIdentifier = a.identifier →
    r.revoked = false → ∀ answer, a.phase = .done answer →
      answer = .next r.id ⟨r.customRateLimit.bind rateLimitOfColumn, r.keyIdentifier⟩ ∨
        answer = .serverError

/-- Where keys are created before they are presented, an authentication with an
active key ends as that key, or with a database error. -/
theorem active_key_accepted {sha256 : Digest} {texts : Set String} {s : State}
    (hr : (service sha256).Reach (CreatedFirst texts) s) (hsha : Separates sha256 texts s.keys) :
    ActiveAccepted s := by
  intro n a r ha hrow hi hactive answer hp
  have hopen : Open s := (Open.invariant sha256 texts).reach hr hsha
  have hcredible : Credible s :=
    ((Credible.invariant sha256).restrict (fun _ _ _ => trivial)).reach hr
  have hwelcome := (hopen.active r hrow hactive).attempts n a ha hi.symm
  have hphase := hcredible.attempts n a ha
  rw [hp] at hwelcome hphase
  cases answer with
  | next id context =>
    left
    obtain ⟨hgrants, hcontext⟩ := hphase
    rw [← hi] at hgrants hcontext
    obtain ⟨hid, hlimit⟩ := Prod.mk.inj (hgrants.unique hrow)
    cases context with
    | mk limit i =>
      have hl : limit = r.customRateLimit.bind rateLimitOfColumn := hlimit
      have hc : i = r.keyIdentifier := hcontext
      rw [hid, hl, hc]
  | refused outcome => exact absurd hwelcome (fun h => h)
  | serverError => exact .inr rfl

/-- A key is created and presented, an empty text is presented, and the key once
more, when the cache knows it. -/
def presentedTwice : List Act :=
  [.create "$argon2id$" "6b" "2026-01-01T00:00:00+00:00",
    .begin 0 "k", .get 0, .lookup 0 true, .insert 0, .authenticate 0,
    .begin 1 "", .begin 2 "k", .get 2, .authenticate 2]

/-- Texts are their own digests here. -/
theorem active_key_accepted_twice :
    ∃ s, (service (fun bytes => bytes)).exec fresh presentedTwice = some s ∧ ActiveAccepted s ∧
      (s.attempts 2).map Attempt.phase = some (.done (.next 1 ⟨none, "6b"⟩)) := by
  have hrun : ((service (fun bytes => bytes)).exec fresh presentedTwice).map
      (fun s => (s.keys.table.rows.map ApiKeyRecord.keyIdentifier,
        (s.attempts 2).map Attempt.phase))
      = some (["6b"], some (.done (.next 1 ⟨none, "6b"⟩))) := by
    decide +kernel
  obtain ⟨s, hs, hfacts⟩ := Option.map_eq_some_iff.mp hrun
  obtain ⟨hrows, hphase⟩ := Prod.mk.inj hfacts
  obtain ⟨t, ht⟩ : ∃ t, (service (fun bytes => bytes)).step fresh
      (.create "$argon2id$" "6b" "2026-01-01T00:00:00+00:00") = some t :=
    Option.isSome_iff_exists.mp (by decide +kernel)
  have hmeets : (service (fun bytes => bytes)).Meets (CreatedFirst {"k", ""}) fresh
      presentedTwice := by
    refine Machine.Meets.cons (fun n a ha => by cases ha) ht (Machine.meets_of_forall ?_)
    intro a ha s
    simp only [List.mem_cons, List.not_mem_nil, or_false] at ha
    rcases ha with rfl | rfl | rfl | rfl | rfl | rfl | rfl | rfl | rfl <;>
      simp [CreatedFirst]
  have hsha : Separates (fun bytes => bytes) {"k", ""} s.keys := by
    intro presented hmem hguard r hr
    have hkey : r.keyIdentifier ∈ ["6b"] := hrows ▸ List.mem_map_of_mem hr
    rw [List.mem_singleton.mp hkey]
    rcases hmem with rfl | rfl
    · exact absurd hguard (by decide +kernel)
    · decide +kernel
  exact ⟨s, hs, active_key_accepted (Machine.reach_of_meets starting_fresh hmeets hs) hsha,
    hphase⟩

/-- A key that is presented before it is created is refused after that as well:
the cache goes on saying that there is no such key. -/
example : (((service (fun _ => [0])).exec fresh
    [.begin 0 "k", .get 0, .lookup 0 true, .insert 0, .authenticate 0,
      .create "$argon2id$" "00" "2026-01-01T00:00:00+00:00",
      .begin 1 "k", .get 1, .authenticate 1]).bind (fun s => s.attempts 1)).map (·.phase)
    = some (.done (.refused .unauthorized)) := by
  decide +kernel

end Auth
end GreenRelay
