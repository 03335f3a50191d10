/-
What the bounded trackers forget makes no difference.

Both trackers prune by age, cut histories to a capacity and sweep keys out.  In
every run of calls at times that do not go back, in which no failure is dropped
because the map is saturated, they answer as the rule does on all failures since
the last success.  `BoundedTracker` is what the two have in common: a map that
is kept as the policy says, and a lock test that finds the locks of the policy.
-/
import GreenRelay.Lib.Machine
import GreenRelay.Admin.LoginTracker

namespace GreenRelay
namespace Admin

open Lockout (Policy Histories Tracks)
open Auth (FailureTracker lockoutUntil isLockedOut lockoutFailureThreshold lockoutWindow
  lockoutDuration maxTrackedIdentifiers maxFailuresPerIdentifier)

structure BoundedTracker (T : Type) where
  policy : Policy
  new : T
  failures : T → Histories String
  recordFailure : T → String → Nat → T
  recordSuccess : T → String → T
  isLocked : T → String → Nat → Bool
  failures_new : failures new = ∅
  failures_recordFailure : ∀ t id now,
    failures (recordFailure t id now) = policy.recordFailure (failures t) id now
  failures_recordSuccess : ∀ t id, failures (recordSuccess t id) = (failures t).erase id
  isLocked_iff : ∀ t id now, (∀ f ∈ ((failures t).lookup id).getD [], f ≤ now) →
    (isLocked t id now = true ↔ policy.Locked (((failures t).lookup id).getD []) now)

/-! ## The two trackers -/

def authPolicy : Policy where
  threshold := lockoutFailureThreshold
  window := lockoutWindow
  duration := lockoutDuration
  capacity := maxFailuresPerIdentifier
  keys := maxTrackedIdentifiers
  blocks := 7
  positive := by decide
  roomy := by decide
  spread := by decide

/-- The latest end of a lock is past, unless some lock goes on. -/
theorem any_foldl_max {α : Type} (l : List α) (P : α → Prop) [DecidablePred P] (f : α → Nat)
    (now : Nat) (r : Option Nat) :
    (l.foldl (fun r e => if P e then some (r.elim (f e) (max · (f e))) else r) r).any (now < ·) =
      true ↔ r.any (now < ·) = true ∨ ∃ e ∈ l, P e ∧ now < f e := by
  induction l generalizing r with
  | nil => simp
  | cons e l ih =>
    rw [List.foldl_cons, ih, List.exists_mem_cons_iff]
    by_cases he : P e
    · rw [if_pos he]
      cases r with
      | none => simp [he]
      | some u => simp [he, or_assoc]
    · rw [if_neg he]
      simp [he]

/-- The lockout of an identifier lasts as long as a lock of the policy. -/
theorem isLockedOut_iff {failures : List Nat} {now : Nat} (hpast : ∀ f ∈ failures, f ≤ now) :
    isLockedOut failures now = true ↔ authPolicy.Locked failures now := by
  have hperm := List.perm_insertionSort (· ≤ ·) failures
  have hsorted := List.pairwise_insertionSort (· ≤ ·) failures
  rw [← Policy.locked_perm hperm, Policy.Locked,
    ← Lockout.exists_anchor_iff hsorted (fun a => a ≤ now ∧ now < a + authPolicy.duration),
    isLockedOut, lockoutUntil, any_foldl_max]
  constructor
  · rintro (hnone | ⟨e, he, hcount, hend⟩)
    · cases hnone
    · have hmem : e.1 ∈ failures := hperm.mem_iff.mp (List.fst_mem_of_mem_zipIdx he)
      exact ⟨e, he, hcount, hpast _ hmem, hend⟩
  · rintro ⟨e, he, hcount, _, hend⟩
    exact .inr ⟨e, he, hcount, hend⟩

theorem recordFailure_failures (t : FailureTracker) (id : String) (now : Nat) :
    (t.recordFailure id now).failures = authPolicy.recordFailure t.failures id now := by
  unfold FailureTracker.recordFailure Policy.recordFailure
  by_cases hfull : id ∉ t.failures ∧ maxTrackedIdentifiers ≤ t.failures.entries.length
  · rw [if_pos hfull, if_pos (show _ ∧ authPolicy.keys ≤ _ from hfull)]
    exact apply_ite FailureTracker.failures _ _ _
  · rw [if_neg hfull, if_neg (show ¬ (_ ∧ authPolicy.keys ≤ _) from hfull)]
    rfl

/-- A key without a history is not locked. -/
theorem any_lookup_iff {p : Policy} {h : Histories String} {id : String} {now : Nat}
    {locked : List Nat → Nat → Bool}
    (hlocked : locked ((h.lookup id).getD []) now = true ↔
      p.Locked ((h.lookup id).getD []) now) :
    (h.lookup id).any (locked · now) = true ↔ p.Locked ((h.lookup id).getD []) now := by
  cases hl : h.lookup id with
  | none =>
    rw [Option.any_none, Option.getD_none]
    constructor
    · intro h
      cases h
    · rintro ⟨_, ha, _⟩
      cases ha
  | some history =>
    rw [hl] at hlocked
    exact hlocked

def authTracker : BoundedTracker FailureTracker where
  policy := authPolicy
  new := .new
  failures := (·.failures)
  recordFailure t := t.recordFailure
  recordSuccess t := t.recordSuccess
  isLocked t := t.isLocked
  failures_new := rfl
  failures_recordFailure := recordFailure_failures
  failures_recordSuccess _ _ := rfl
  isLocked_iff _ _ _ hpast := any_lookup_iff (isLockedOut_iff hpast)

def loginTracker : BoundedTracker AdminLoginTracker where
  policy := adminPolicy
  new := .new
  failures := (·.failures)
  recordFailure t := t.recordFailure
  recordSuccess t := t.recordSuccess
  isLocked t := t.isLocked
  failures_new := rfl
  failures_recordFailure _ _ _ := rfl
  failures_recordSuccess _ _ := rfl
  isLocked_iff _ _ _ _ := any_lookup_iff (adminLocked_iff _ _)

/-! ## Runs of calls -/

inductive Call where
  | recordFailure (id : String) (now : Nat)
  | recordSuccess (id : String)
  | isLocked (id : String) (now : Nat)
  deriving DecidableEq, Repr

/-- A tracker, the time of the last call and all failures since the last success
of each key. -/
structure Tracked (T : Type) where
  clock : Nat
  tracker : T
  failures : String → List Nat

namespace BoundedTracker

variable {T : Type} (k : BoundedTracker T)

def call (s : Tracked T) : Call → Option (Tracked T)
  | .recordFailure id now =>
    if s.clock ≤ now then
      some ⟨now, k.recordFailure s.tracker id now,
        Function.update s.failures id (s.failures id ++ [now])⟩
    else none
  | .recordSuccess id =>
    some ⟨s.clock, k.recordSuccess s.tracker id, Function.update s.failures id []⟩
  | .isLocked _ now => if s.clock ≤ now then some { s with clock := now } else none

/-- The calls that a new tracker may get, at times that do not go back. -/
def calls : Machine (Tracked T) Call where
  Start s := s.tracker = k.new ∧ s.failures = fun _ => []
  step := k.call

/-- The failure is not dropped. -/
def Unsaturated (s : Tracked T) : Call → Prop
  | .recordFailure id now => ¬ k.policy.Saturated (k.failures s.tracker) id now
  | _ => True

/-- The tracker is within its bounds, and answers as the rule does on all
failures. -/
structure Faithful (s : Tracked T) : Prop where
  keys : (k.failures s.tracker).entries.length ≤ k.policy.keys
  histories : ∀ id history, (k.failures s.tracker).lookup id = some history →
    history.length ≤ k.policy.capacity
  answers : ∀ id now, s.clock ≤ now →
    (k.isLocked s.tracker id now = true ↔ k.policy.Locked (s.failures id) now)

def Tracking (s : Tracked T) : Prop :=
  Tracks k.policy s.clock s.failures (k.failures s.tracker)

theorem tracking_step {s s' : Tracked T} {c : Call} (h : k.Tracking s) (hc : k.Unsaturated s c)
    (hstep : k.call s c = some s') : k.Tracking s' := by
  unfold Tracking
  cases c with
  | recordFailure id now =>
    simp only [call] at hstep
    split at hstep
    · rename_i hle
      cases hstep
      rw [k.failures_recordFailure]
      exact Tracks.recordFailure h hle hc
    · cases hstep
  | recordSuccess id =>
    cases hstep
    rw [k.failures_recordSuccess]
    exact Tracks.recordSuccess h id
  | isLocked id now =>
    simp only [call] at hstep
    split at hstep
    · rename_i hle
      cases hstep
      exact Tracks.mono h hle
    · cases hstep

theorem tracking_invariant : k.calls.Inductive k.Unsaturated k.Tracking where
  start s hs := by
    rw [Tracking, hs.1, hs.2, k.failures_new]
    exact .empty _ _
  step _ _ _ h hc hstep := k.tracking_step h hc hstep

theorem faithful_of_tracking {s : Tracked T} (h : k.Tracking s) : k.Faithful s where
  keys := h.bounded
  histories id history hlookup := by
    have hbounded := (h.history id).bounded
    rw [hlookup] at hbounded
    exact hbounded
  answers id now hle := by
    have hremembers := h.history id
    obtain ⟨forgotten, heq, _⟩ := hremembers.suffix
    have hpast : ∀ f ∈ ((k.failures s.tracker).lookup id).getD [], f ≤ now := by
      intro f hf
      have hf' : f ∈ s.failures id := heq ▸ List.mem_append_right _ hf
      exact ((h.past id).past f hf').trans hle
    rw [k.isLocked_iff _ _ _ hpast, hremembers.locked_iff (h.past id) hle]

/-- A call brings at most one key. -/
theorem keys_call {s s' : Tracked T} {c : Call} (h : k.call s c = some s') :
    (k.failures s'.tracker).entries.length ≤ (k.failures s.tracker).entries.length + 1 := by
  cases c with
  | recordFailure id now =>
    simp only [call] at h
    split at h
    · cases h
      rw [k.failures_recordFailure]
      exact k.policy.length_recordFailure_le _ id now
    · cases h
  | recordSuccess id =>
    cases h
    rw [k.failures_recordSuccess, Histories.length_entries, Histories.length_entries,
      AList.keys_erase]
    exact List.length_erase_le.trans (Nat.le_succ _)
  | isLocked id now =>
    simp only [call] at h
    split at h
    · cases h
      exact Nat.le_succ _
    · cases h

/-- Where there is room for a key at each of the calls, none of them is dropped. -/
theorem unsaturated_of_room {calls : List Call} {s : Tracked T}
    (h : (k.failures s.tracker).entries.length + calls.length ≤ k.policy.keys) :
    k.calls.Meets k.Unsaturated s calls := by
  induction calls generalizing s with
  | nil => exact trivial
  | cons c calls ih =>
    rw [List.length_cons] at h
    constructor
    · cases c with
      | recordFailure id now =>
        intro hfull
        have hkeys := hfull.2.1
        omega
      | recordSuccess | isLocked => exact trivial
    · intro s' hs'
      have hkeys := k.keys_call hs'
      exact ih (by omega)

end BoundedTracker

/-- In every run of calls in which no failure is dropped, both trackers stay
within their bounds and answer as the unbounded rule does. -/
theorem trackers_refine_rule :
    authTracker.calls.Always authTracker.Unsaturated authTracker.Faithful ∧
      loginTracker.calls.Always loginTracker.Unsaturated loginTracker.Faithful :=
  ⟨authTracker.tracking_invariant.always (fun _ h => authTracker.faithful_of_tracking h),
    loginTracker.tracking_invariant.always (fun _ h => loginTracker.faithful_of_tracking h)⟩

/-- A key fails every ten seconds, more often than a history is long, and another one
fails and succeeds. -/
def repeatedFailures : List Call :=
  (List.range 35).map (fun i => .recordFailure "key" (Auth.secs (10 * i))) ++
    [.recordFailure "other" (Auth.secs 341), .recordSuccess "other"]

/-- The trackers have forgotten three failures, and answer as if they had not. -/
theorem trackers_refine_rule_repeated :
    (∃ s, authTracker.calls.exec ⟨0, .new, fun _ => []⟩ repeatedFailures = some s ∧
      authTracker.Faithful s ∧ (s.failures "key").length = 35 ∧
      (s.tracker.failures.lookup "key").map List.length = some 32 ∧
      authPolicy.Locked (s.failures "key") (Auth.secs 341)) ∧
    ∃ s, loginTracker.calls.exec ⟨0, .new, fun _ => []⟩ repeatedFailures = some s ∧
      loginTracker.Faithful s ∧ (s.failures "key").length = 35 ∧
      (s.tracker.failures.lookup "key").map List.length = some 32 ∧
      adminPolicy.Locked (s.failures "key") (Auth.secs 341) := by
  have hauth : (authTracker.calls.exec ⟨0, .new, fun _ => []⟩ repeatedFailures).map
      (fun s => ((s.failures "key").length, (s.tracker.failures.lookup "key").map List.length,
        decide (authPolicy.Locked (s.failures "key") (Auth.secs 341))))
      = some (35, some 32, true) := by
    decide +kernel
  have hlogin : (loginTracker.calls.exec ⟨0, .new, fun _ => []⟩ repeatedFailures).map
      (fun s => ((s.failures "key").length, (s.tracker.failures.lookup "key").map List.length,
        decide (adminPolicy.Locked (s.failures "key") (Auth.secs 341))))
      = some (35, some 32, true) := by
    decide +kernel
  constructor
  · obtain ⟨s, hs, hfacts⟩ := Option.map_eq_some_iff.mp hauth
    simp only [Prod.mk.injEq, decide_eq_true_eq] at hfacts
    exact ⟨s, hs, trackers_refine_rule.1 s (Machine.reach_of_meets ⟨rfl, rfl⟩
      (authTracker.unsaturated_of_room (by decide +kernel)) hs), hfacts⟩
  · obtain ⟨s, hs, hfacts⟩ := Option.map_eq_some_iff.mp hlogin
    simp only [Prod.mk.injEq, decide_eq_true_eq] at hfacts
    exact ⟨s, hs, trackers_refine_rule.2 s (Machine.reach_of_meets ⟨rfl, rfl⟩
      (loginTracker.unsaturated_of_room (by decide +kernel)) hs), hfacts⟩

end Admin
end GreenRelay
