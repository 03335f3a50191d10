/-
Runs of the session store.

`Lives` says from the history of a run, without the store, how long a session
lives: its token was created and not removed since, and it was used when it was
created and by each `validate` that succeeded.  The store agrees with the
history (`Agrees`) after every run, so a session validates exactly while no two
of its uses are `sessionIdleTimeout` apart.  A run and the run without its
sweeps give the same results, since the two stores have the same sessions left.
-/
import GreenRelay.Admin.Sessions
import Mathlib.Data.List.Chain

namespace GreenRelay
namespace Admin
namespace SessionStore

open Auth (secs)

/-! ## Runs -/

/-- The calls of the store; `create` comes with its two random tokens. -/
inductive Op where
  | create (adminId : Int) (token csrf : String)
  | validate (token : String)
  | csrfToken (token : String)
  | remove (token : String)
  | sweepExpired
  deriving DecidableEq, Repr

structure Call where
  now : Nat
  op : Op
  deriving DecidableEq, Repr

inductive Result where
  | token (token : String)
  | admin (id : Option Int)
  | csrf (token : Option String)
  | done
  deriving DecidableEq, Repr

def perform (s : SessionStore) (call : Call) : SessionStore × Result :=
  match call.op with
  | .create adminId token csrf => (s.create token csrf adminId call.now, .token token)
  | .validate token => ((s.validate token call.now).1, .admin (s.validate token call.now).2)
  | .csrfToken token => (s, .csrf (s.csrfToken token call.now))
  | .remove token => (s.remove token, .done)
  | .sweepExpired => (s.sweepExpired call.now, .done)

abbrev Event := Call × Result

/-- The store after a run, and the events of the run in their order. -/
def run : SessionStore → List Call → SessionStore × List Event
  | s, [] => (s, [])
  | s, call :: calls =>
    let next := s.perform call
    let rest := run next.1 calls
    (rest.1, (call, next.2) :: rest.2)

theorem run_concat (s : SessionStore) (calls : List Call) (call : Call) :
    s.run (calls ++ [call]) =
      (((s.run calls).1.perform call).1,
        (s.run calls).2 ++ [(call, ((s.run calls).1.perform call).2)]) := by
  induction calls generalizing s with
  | nil => rfl
  | cons first calls ih => rw [List.cons_append, run, ih, run]; rfl

/-! ## Histories -/

/-- The token that a call makes. -/
def Call.made (call : Call) : Option String :=
  match call.op with
  | .create _ token _ => some token
  | _ => none

/-- The time of a `validate` of the token that succeeded. -/
def use (token : String) (e : Event) : Option Nat :=
  match e with
  | (⟨now, .validate t⟩, .admin (some _)) => if t = token then some now else none
  | _ => none

/-- In the history the token was created for the admin, with the CSRF token, and
not removed since; `uses` are its creation and its successful validations. -/
def Lives (h : List Event) (token : String) (adminId : Int) (csrf : String) (uses : List Nat) :
    Prop :=
  ∃ before now after, h = before ++ (⟨now, .create adminId token csrf⟩, .token token) :: after ∧
    (∀ e ∈ after, e.1.op ≠ .remove token) ∧ uses = now :: after.filterMap (use token)

/-- Two uses in a row that keep a session. -/
def Near (a b : Nat) : Prop := b < a + sessionIdleTimeout

theorem Lives.extend {h : List Event} {token csrf : String} {adminId : Int} {uses : List Nat}
    (hl : Lives h token adminId csrf uses) {e : Event} (he : e.1.op ≠ .remove token) :
    Lives (h ++ [e]) token adminId csrf (uses ++ (use token e).toList) := by
  obtain ⟨before, now, after, rfl, hkept, rfl⟩ := hl
  refine ⟨before, now, after ++ [e], by simp, ?_, ?_⟩
  · intro d hd
    rcases List.mem_append.mp hd with hd | hd
    · exact hkept d hd
    · rw [List.mem_singleton.mp hd]
      exact he
  · rw [List.filterMap_append, List.cons_append]
    congr 2

/-- The last event of a history made the session, or left it as it was. -/
theorem Lives.of_concat {h : List Event} {e : Event} {token csrf : String} {adminId : Int}
    {uses : List Nat} (hl : Lives (h ++ [e]) token adminId csrf uses) :
    (e = (⟨e.1.now, .create adminId token csrf⟩, .token token) ∧ uses = [e.1.now]) ∨
      (e.1.op ≠ .remove token ∧
        ∃ earlier, Lives h token adminId csrf earlier ∧
            uses = earlier ++ (use token e).toList) := by
  obtain ⟨before, now, after, heq, hkept, rfl⟩ := hl
  rcases List.eq_nil_or_concat after with rfl | ⟨after', last, rfl⟩
  · have hlast := (List.append_inj' heq rfl).2
    rw [List.cons.injEq] at hlast
    rw [hlast.1]
    exact Or.inl ⟨rfl, rfl⟩
  · rw [List.concat_eq_append, ← List.cons_append, ← List.append_assoc] at heq
    obtain ⟨hh, hlast⟩ := List.append_inj' heq rfl
    rw [List.cons.injEq] at hlast
    obtain ⟨rfl, -⟩ := hlast
    rw [List.concat_eq_append] at hkept ⊢
    refine Or.inr ⟨hkept e (by simp), _, ⟨before, now, after', hh,
      fun d hd => hkept d (List.mem_append_left _ hd), rfl⟩, ?_⟩
    rw [List.filterMap_append, List.cons_append]
    congr 2

/-- The token of a session that lives was made in the history. -/
theorem Lives.made {h : List Event} {token csrf : String} {adminId : Int} {uses : List Nat}
    (hl : Lives h token adminId csrf uses) : token ∈ h.filterMap (fun e => e.1.made) := by
  obtain ⟨before, now, after, rfl, -, -⟩ := hl
  simp [Call.made]

/-! ## The store against the history -/

/-- What the store has under a token is what the history makes of it; what it does
not have is used up by now. -/
structure Agrees (h : List Event) (token : String) (found : Option Session) (now : Nat) : Prop where
  held : ∀ session, found = some session →
    ∃ uses, Lives h token session.adminId session.csrfToken uses ∧
      uses.getLast? = some session.lastActivity ∧ uses.IsChain Near
  lost : ∀ adminId csrf uses, Lives h token adminId csrf uses →
    (∃ session, found = some session ∧ session.adminId = adminId ∧ session.csrfToken = csrf ∧
      uses.getLast? = some session.lastActivity) ∨
    (found = none ∧ ∃ last, uses.getLast? = some last ∧ last + sessionIdleTimeout ≤ now)

section Steps

variable {h : List Event} {token : String} {found : Option Session} {now now' : Nat} {e : Event}

/-- An event that is not about the token. -/
theorem Agrees.frame (ha : Agrees h token found now) (hle : now ≤ now')
    (huse : use token e = none) (hremove : e.1.op ≠ .remove token)
    (hmade : e.1.made ≠ some token) : Agrees (h ++ [e]) token found now' where
  held session hfound := by
    obtain ⟨uses, hl, hlast, hchain⟩ := ha.held session hfound
    have hext := hl.extend hremove
    rw [huse, Option.toList_none, List.append_nil] at hext
    exact ⟨uses, hext, hlast, hchain⟩
  lost adminId csrf uses hl := by
    rcases hl.of_concat with ⟨he, -⟩ | ⟨-, earlier, hearlier, huses⟩
    · rw [he] at hmade
      exact absurd rfl hmade
    · rw [huse, Option.toList_none, List.append_nil] at huses
      subst huses
      rcases ha.lost adminId csrf uses hearlier with hfound | ⟨hnone, last, hlast, hidle⟩
      · exact Or.inl hfound
      · exact Or.inr ⟨hnone, last, hlast, Nat.le_trans hidle hle⟩

/-- The session is dropped, which only happens to one that is used up. -/
theorem Agrees.current (ha : Agrees h token found now) (hle : now ≤ now') :
    Agrees h token (found.filter (sessionValid · now')) now' where
  held session hfound := ha.held session (Option.filter_eq_some_iff.mp hfound).1
  lost adminId csrf uses hl := by
    rcases ha.lost adminId csrf uses hl with ⟨session, hfound, hid, hcsrf, hlast⟩ | ⟨hnone, hidle⟩
    · cases hvalid : sessionValid session now' with
      | true =>
        refine Or.inl ⟨session, ?_, hid, hcsrf, hlast⟩
        exact Option.filter_eq_some_iff.mpr ⟨hfound, hvalid⟩
      | false =>
        refine Or.inr ⟨?_, session.lastActivity, hlast, ?_⟩
        · rw [hfound]
          exact Option.filter_some_neg (p := (sessionValid · now')) hvalid
        · have hpos : 0 < sessionIdleTimeout := by decide
          simp only [sessionValid, decide_eq_false_iff_not] at hvalid
          omega
    · obtain ⟨last, hlast, hidle⟩ := hidle
      refine Or.inr ⟨?_, last, hlast, Nat.le_trans hidle hle⟩
      rw [hnone]
      rfl

/-- A session that validates is used now. -/
theorem Agrees.used (ha : Agrees h token found now)
    (hvalid : ∀ s ∈ found, sessionValid s now = true)
    (hremove : e.1.op ≠ .remove token) (hmade : e.1.made ≠ some token)
    (huse : use token e = found.map (fun _ => now)) :
    Agrees (h ++ [e]) token (found.map (fun session => { session with lastActivity := now }))
      now := by
  cases hfound : found with
  | none =>
    rw [hfound] at ha huse
    exact ha.frame (Nat.le_refl now) huse hremove hmade
  | some session =>
    rw [hfound, Option.map_some] at huse
    constructor
    · intro used hused
      have hsession : { session with lastActivity := now } = used := Option.some.inj hused
      obtain ⟨uses, hl, hlast, hchain⟩ := ha.held session hfound
      have hext := hl.extend hremove
      rw [huse, Option.toList_some] at hext
      subst hsession
      refine ⟨uses ++ [now], hext, List.getLast?_concat, List.isChain_append.mpr
        ⟨hchain, List.isChain_singleton now, ?_⟩⟩
      intro a hlast' b hb
      rw [List.head?_cons, Option.mem_some] at hb
      rw [hlast, Option.mem_some] at hlast'
      subst hb hlast'
      have hnow := hvalid session hfound
      simp only [sessionValid, decide_eq_true_eq] at hnow
      show now < session.lastActivity + sessionIdleTimeout
      omega
    · intro adminId csrf uses hl
      rcases hl.of_concat with ⟨he, -⟩ | ⟨-, earlier, hearlier, huses⟩
      · rw [he] at hmade
        exact absurd rfl hmade
      · rw [huse, Option.toList_some] at huses
        rcases ha.lost adminId csrf earlier hearlier with ⟨s, hs, hid, hcsrf, -⟩ | ⟨hnone, -⟩
        · have hsame : session = s := Option.some.inj (hfound.symm.trans hs)
          subst hsame
          refine Or.inl ⟨{ session with lastActivity := now }, rfl, hid, hcsrf, ?_⟩
          rw [huses]
          exact List.getLast?_concat
        · rw [hfound] at hnone
          cases hnone

/-- A session that is created under a token that was not in use. -/
theorem Agrees.created (hnew : token ∉ h.filterMap (fun e => e.1.made)) (adminId : Int)
    (csrf : String) (now : Nat) :
    Agrees (h ++ [(⟨now, .create adminId token csrf⟩, .token token)]) token
      (some ⟨adminId, now, csrf⟩) now where
  held session hsession := by
    have hs : ⟨adminId, now, csrf⟩ = session := Option.some.inj hsession
    subst hs
    refine ⟨[now], ⟨h, now, [], rfl, ?_, rfl⟩, rfl, List.isChain_singleton now⟩
    intro e he
    cases he
  lost adminId' csrf' uses hl := by
    rcases hl.of_concat with ⟨he, huses⟩ | ⟨-, earlier, hearlier, -⟩
    · injection he with hcall
      injection hcall with _ hop
      injection hop with hid _ hcsrf
      rw [huses]
      exact Or.inl ⟨_, rfl, hid, hcsrf, rfl⟩
    · exact absurd hearlier.made hnew

/-- A session that is removed is gone from the history as well. -/
theorem Agrees.removed (h : List Event) (token : String) (now : Nat) (result : Result) :
    Agrees (h ++ [(⟨now, .remove token⟩, result)]) token none now where
  held session hsession := by cases hsession
  lost adminId csrf uses hl := by
    rcases hl.of_concat with ⟨he, -⟩ | ⟨hkept, -⟩
    · injection he with hcall
      injection hcall with _ hop
      cases hop
    · exact absurd rfl hkept

end Steps

/-- One call keeps the store in agreement with the history. -/
theorem agrees_perform {h : List Event} {s : SessionStore} {now : Nat} {call : Call}
    (hs : ∀ token, Agrees h token (s.sessions.lookup token) now) (hle : now ≤ call.now)
    (hfresh : ∀ token, call.made = some token → token ∉ h.filterMap (fun e => e.1.made))
    (token : String) :
    Agrees (h ++ [(call, (s.perform call).2)]) token ((s.perform call).1.sessions.lookup token)
      call.now := by
  obtain ⟨now', op⟩ := call
  have ha := hs token
  cases op with
  | create adminId t csrf =>
    show Agrees _ token ((s.create t csrf adminId now').sessions.lookup token) now'
    rw [lookup_create]
    split
    · next heq =>
      subst heq
      exact .created (hfresh token rfl) adminId csrf now'
    · next hne =>
      refine ha.frame hle rfl (fun hop => by cases hop) (fun hmade => ?_)
      exact hne (Option.some.inj hmade).symm
  | validate t =>
    show Agrees (h ++ [(⟨now', .validate t⟩, .admin (s.validate t now').2)]) token
      ((s.validate t now').1.sessions.lookup token) now'
    rw [lookup_validate, validate_result]
    split
    · next heq =>
      subst heq
      refine (ha.current hle).used (fun session hsession => (current_some.mp hsession).2)
        (fun hop => by cases hop) (fun hmade => by cases hmade) ?_
      show use token (⟨now', .validate token⟩, .admin ((s.current token now').map _)) =
        (s.current token now').map _
      cases s.current token now' with
      | none => rfl
      | some session => exact if_pos rfl
    · next hne =>
      refine ha.frame hle ?_ (fun hop => by cases hop) (fun hmade => by cases hmade)
      show use token (⟨now', .validate t⟩, .admin ((s.current t now').map _)) = none
      cases s.current t now' with
      | none => rfl
      | some session => exact if_neg (Ne.symm hne)
  | csrfToken t =>
    exact ha.frame hle rfl (fun hop => by cases hop) (fun hmade => by cases hmade)
  | remove t =>
    show Agrees _ token ((s.remove t).sessions.lookup token) now'
    rw [lookup_remove]
    split
    · next heq =>
      subst heq
      exact .removed h token now' _
    · next hne =>
      refine ha.frame hle rfl (fun hop => ?_) (fun hmade => by cases hmade)
      injection hop with ht
      exact hne ht.symm
  | sweepExpired =>
    show Agrees _ token ((s.sweepExpired now').sessions.lookup token) now'
    rw [lookup_sweepExpired]
    exact (ha.current hle).frame (Nat.le_refl now') rfl (fun hop => by cases hop)
      (fun hmade => by cases hmade)

theorem run_calls (s : SessionStore) (calls : List Call) :
    (s.run calls).2.map Prod.fst = calls := by
  induction calls generalizing s with
  | nil => rfl
  | cons call calls ih => rw [run, List.map_cons, ih]

/-- Every run keeps the store in agreement with its history. -/
theorem agrees_run {calls : List Call} (hsorted : (calls.map Call.now).Pairwise (· ≤ ·))
    (hfresh : (calls.filterMap Call.made).Nodup) {now : Nat} (hnow : ∀ call ∈ calls, call.now ≤ now)
    (token : String) :
    Agrees (new.run calls).2 token ((new.run calls).1.sessions.lookup token) now := by
  induction calls using List.reverseRecOn generalizing now token with
  | nil =>
    constructor
    · intro session hsession
      cases hsession
    · intro adminId csrf uses hl
      have hmade := hl.made
      cases hmade
  | append_singleton calls call ih =>
    rw [List.map_append, List.pairwise_append] at hsorted
    rw [List.filterMap_append, List.nodup_append] at hfresh
    have hlast : ∀ c ∈ calls, c.now ≤ call.now := fun c hc =>
      hsorted.2.2 c.now (List.mem_map_of_mem hc) call.now (by simp)
    have hs := ih hsorted.1 hfresh.1 hlast
    have hcall : call.now ≤ now := hnow call (by simp)
    rw [run_concat]
    have hstep := agrees_perform hs (Nat.le_refl call.now) (fun t hmade hmem => ?_) token
    · refine ⟨hstep.held, fun adminId csrf uses hl => ?_⟩
      rcases hstep.lost adminId csrf uses hl with hfound | ⟨hnone, last, hget, hidle⟩
      · exact Or.inl hfound
      · exact Or.inr ⟨hnone, last, hget, Nat.le_trans hidle hcall⟩
    · have hmem' : t ∈ calls.filterMap Call.made := by
        rw [← run_calls new calls, List.filterMap_map]
        exact hmem
      exact hfresh.2.2 t hmem' t (by simp [hmade]) rfl

theorem current_iff {h : List Event} {s : SessionStore} {token : String} {now : Nat}
    (ha : Agrees h token (s.sessions.lookup token) now) (adminId : Int) (csrf : String) :
    (∃ session, s.current token now = some session ∧ session.adminId = adminId ∧
        session.csrfToken = csrf) ↔
      ∃ uses, Lives h token adminId csrf uses ∧ (uses ++ [now]).IsChain Near := by
  constructor
  · rintro ⟨session, hcurrent, rfl, rfl⟩
    obtain ⟨hfound, hvalid⟩ := current_some.mp hcurrent
    obtain ⟨uses, hl, hlast, hchain⟩ := ha.held session hfound
    refine ⟨uses, hl, List.isChain_append.mpr ⟨hchain, List.isChain_singleton now, ?_⟩⟩
    intro a hlast' b hb
    rw [hlast, Option.mem_some] at hlast'
    rw [List.head?_cons, Option.mem_some] at hb
    subst hlast' hb
    simp only [sessionValid, decide_eq_true_eq] at hvalid
    show now < session.lastActivity + sessionIdleTimeout
    omega
  · rintro ⟨uses, hl, hchain⟩
    have hnear : ∀ last, uses.getLast? = some last → now < last + sessionIdleTimeout :=
      fun last hlast => (List.isChain_append.mp hchain).2.2 last hlast now rfl
    rcases ha.lost adminId csrf uses hl with ⟨session, hfound, hid, hcsrf, hlast⟩ |
        ⟨-, last, hlast, hidle⟩
    · refine ⟨session, current_some.mpr ⟨hfound, ?_⟩, hid, hcsrf⟩
      have hpos : 0 < sessionIdleTimeout := by decide
      have hlt := hnear session.lastActivity hlast
      simp only [sessionValid, decide_eq_true_eq]
      omega
    · have hlt := hnear last hlast
      omega

/-! ## Sweeps -/

def withoutSweeps (calls : List Call) : List Call := calls.filter (·.op ≠ .sweepExpired)

/-- The results of a run, but for its sweeps, which have none. -/
def results (s : SessionStore) (calls : List Call) : List Event :=
  (s.run calls).2.filter (·.1.op ≠ .sweepExpired)

/-- The stores have the same sessions that are not used up. -/
def SameLeft (now : Nat) (s s' : SessionStore) : Prop :=
  ∀ token, s.current token now = s'.current token now

section Sweeps

variable {s s' : SessionStore} {now now' : Nat}

/-- What is left later is what is left of what was left before. -/
theorem current_current (s : SessionStore) (token : String) (hle : now ≤ now') :
    s.current token now' = (s.current token now).filter (sessionValid · now') := by
  ext session
  rw [Option.filter_eq_some_iff, current_some, current_some]
  constructor
  · exact fun h => ⟨⟨h.1, sessionValid_anti hle h.2⟩, h.2⟩
  · exact fun h => ⟨h.1.1, h.2⟩

theorem SameLeft.mono (h : SameLeft now s s') (hle : now ≤ now') : SameLeft now' s s' := by
  intro token
  rw [current_current s token hle, current_current s' token hle, h token]

theorem current_sweepExpired (s : SessionStore) (token : String) (now : Nat) :
    (s.sweepExpired now).current token now = s.current token now := by
  rw [current, lookup_sweepExpired, ← current_current s token (Nat.le_refl now)]

theorem sameLeft_lookup {t t' : SessionStore} {changed : Prop} [Decidable changed]
    {token : String} {new : Option Session} (h : SameLeft now s s')
    (ht : t.sessions.lookup token = if changed then new else s.sessions.lookup token)
    (ht' : t'.sessions.lookup token = if changed then new else s'.sessions.lookup token) :
    t.current token now = t'.current token now := by
  have hs : (s.sessions.lookup token).filter (sessionValid · now) =
      (s'.sessions.lookup token).filter (sessionValid · now) := h token
  rw [current, current, ht, ht']
  split
  · rfl
  · exact hs

/-- A call on stores with the same sessions left has the same result and leaves the
same sessions. -/
theorem sameLeft_perform (call : Call) (h : SameLeft call.now s s') :
    (s.perform call).2 = (s'.perform call).2 ∧
      SameLeft call.now (s.perform call).1 (s'.perform call).1 := by
  obtain ⟨now, op⟩ := call
  cases op with
  | create adminId t csrf =>
    exact ⟨rfl, fun token => sameLeft_lookup h (lookup_create s t csrf adminId now token)
      (lookup_create s' t csrf adminId now token)⟩
  | validate t =>
    constructor
    · show Result.admin (s.validate t now).2 = .admin (s'.validate t now).2
      rw [validate_result, validate_result, h t]
    · intro token
      refine sameLeft_lookup h (lookup_validate s t now token) ?_
      rw [h t]
      exact lookup_validate s' t now token
  | csrfToken t =>
    refine ⟨?_, h⟩
    show Result.csrf (s.csrfToken t now) = .csrf (s'.csrfToken t now)
    rw [csrfToken_eq, csrfToken_eq, h t]
  | remove t =>
    exact ⟨rfl, fun token => sameLeft_lookup h (lookup_remove s t token)
      (lookup_remove s' t token)⟩
  | sweepExpired =>
    refine ⟨rfl, fun token => ?_⟩
    show (s.sweepExpired now).current token now = (s'.sweepExpired now).current token now
    rw [current_sweepExpired, current_sweepExpired]
    exact h token

/-- A run gives the results of the run without its sweeps. -/
theorem results_withoutSweeps {calls : List Call} {last : Nat}
    (hsorted : (last :: calls.map Call.now).Pairwise (· ≤ ·)) (h : SameLeft last s s') :
    results s calls = results s' (withoutSweeps calls) := by
  induction calls generalizing s s' last with
  | nil => rfl
  | cons call calls ih =>
    obtain ⟨hfirst, hrest⟩ := List.pairwise_cons.mp hsorted
    have hnow : SameLeft call.now s s' := h.mono (hfirst call.now List.mem_cons_self)
    by_cases hsweep : call.op = .sweepExpired
    · have hskip : withoutSweeps (call :: calls) = withoutSweeps calls := by
        simp [withoutSweeps, hsweep]
      have hnone : results s (call :: calls) = results (s.perform call).1 calls := by
        simp [results, run, hsweep]
      have hleft : SameLeft call.now (s.perform call).1 s' := by
        intro token
        rw [show (s.perform call).1 = s.sweepExpired call.now by rw [perform, hsweep],
          current_sweepExpired]
        exact hnow token
      rw [hskip, hnone]
      exact ih hrest hleft
    · obtain ⟨hresult, hleft⟩ := sameLeft_perform call hnow
      have hkeep : withoutSweeps (call :: calls) = call :: withoutSweeps calls := by
        simp [withoutSweeps, hsweep]
      have hcons : ∀ (t : SessionStore) (rest : List Call), results t (call :: rest) =
          (call, (t.perform call).2) :: results (t.perform call).1 rest := by
        intro t rest
        simp [results, run, hsweep]
      rw [hkeep, hcons, hcons, hresult, ih hrest hleft]

end Sweeps

/-- A session validates exactly as long as it lives and no two of its uses in a row
are `sessionIdleTimeout` apart, and just as long it has the CSRF token it was
created with; and the sweeps of a run change none of its results. -/
theorem sessions_live {calls : List Call} (hsorted : (calls.map Call.now).Pairwise (· ≤ ·))
    (hfresh : (calls.filterMap Call.made).Nodup) :
    (∀ token now, (∀ call ∈ calls, call.now ≤ now) →
      (∀ adminId, ((new.run calls).1.validate token now).2 = some adminId ↔
        ∃ csrf uses, Lives (new.run calls).2 token adminId csrf uses ∧
          (uses ++ [now]).IsChain Near) ∧
      (∀ csrf, (new.run calls).1.csrfToken token now = some csrf ↔
        ∃ adminId uses, Lives (new.run calls).2 token adminId csrf uses ∧
          (uses ++ [now]).IsChain Near) ∧
      ((new.run calls).1.csrfToken token now).isSome =
        ((new.run calls).1.validate token now).2.isSome) ∧
    (∀ calls', (calls'.map Call.now).Pairwise (· ≤ ·) →
      withoutSweeps calls' = withoutSweeps calls → results new calls' = results new calls) := by
  constructor
  · intro token now hnow
    have hcurrent := current_iff (agrees_run hsorted hfresh hnow token)
    refine ⟨fun adminId => ?_, fun csrf => ?_, csrfToken_isSome _ token now⟩
    · rw [validate_result, Option.map_eq_some_iff]
      constructor
      · rintro ⟨session, hsession, hid⟩
        exact ⟨session.csrfToken, (hcurrent adminId _).mp ⟨session, hsession, hid, rfl⟩⟩
      · rintro ⟨csrf, hlives⟩
        obtain ⟨session, hsession, hid, -⟩ := (hcurrent adminId csrf).mpr hlives
        exact ⟨session, hsession, hid⟩
    · rw [csrfToken_eq, Option.map_eq_some_iff]
      constructor
      · rintro ⟨session, hsession, hcsrf⟩
        exact ⟨session.adminId, (hcurrent _ csrf).mp ⟨session, hsession, rfl, hcsrf⟩⟩
      · rintro ⟨adminId, hlives⟩
        obtain ⟨session, hsession, -, hcsrf⟩ := (hcurrent adminId csrf).mpr hlives
        exact ⟨session, hsession, hcsrf⟩
  · intro calls' hsorted' hsame
    have hstrip : ∀ run : List Call, (run.map Call.now).Pairwise (· ≤ ·) →
        results new run = results new (withoutSweeps run) := by
      intro run hrun
      have hzero : (0 :: run.map Call.now).Pairwise (· ≤ ·) :=
        List.pairwise_cons.mpr ⟨fun _ _ => Nat.zero_le _, hrun⟩
      exact results_withoutSweeps hzero (fun _ => rfl)
    rw [hstrip calls' hsorted', hstrip calls hsorted, hsame]

/-- A session is used, swept after it was idle for too long, and asked for again. -/
def sweptRun : List Call :=
  [⟨0, .create 1 "t" "c"⟩, ⟨secs 60, .validate "t"⟩, ⟨secs 3600, .sweepExpired⟩,
    ⟨secs 3601, .validate "t"⟩]

theorem sessions_live_swept :
    ((new.run sweptRun).1.csrfToken "t" (secs 3601)).isSome =
      ((new.run sweptRun).1.validate "t" (secs 3601)).2.isSome :=
  ((@sessions_live sweptRun (by decide) (by decide)).1 "t" (secs 3601) (by decide)).2.2

end SessionStore
end Admin
end GreenRelay
