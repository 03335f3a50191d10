/-
The tracker of failed admin logins.

It is the tracker of failed authentications with other bounds, keyed by the
source of the login, and with a lock test of its own: it looks for a failure
that locks at this very moment, where the other one computes how long the last
lock lasts.
-/
import GreenRelay.Lib.Histories
import GreenRelay.Auth.Lockout

namespace GreenRelay
namespace Admin

open Lockout (Policy Histories)
open Auth (secs)

def adminMaxFailures : Nat := 5

def adminFailureWindow : Nat := secs (15 * 60)

def adminLockDuration : Nat := secs (15 * 60)

def maxTrackedUsernames : Nat := 50000

def maxFailuresPerUsername : Nat := 32

def adminPolicy : Policy where
  threshold := adminMaxFailures
  window := adminFailureWindow
  duration := adminLockDuration
  capacity := maxFailuresPerUsername
  keys := maxTrackedUsernames
  blocks := 7
  positive := by decide
  roomy := by decide
  spread := by decide

def adminLocked (failures : List Nat) (now : Nat) : Bool :=
  let sorted := failures.insertionSort (· ≤ ·)
  sorted.zipIdx.any (fun e =>
    let count := (sorted.take (e.2 + 1)).countP (fun t => e.1 - t ≤ adminFailureWindow)
    adminMaxFailures ≤ count ∧ e.1 ≤ now ∧ now - e.1 < adminLockDuration)

structure AdminLoginTracker where
  failures : Histories String

namespace AdminLoginTracker

def new : AdminLoginTracker := ⟨∅⟩

def isLocked (t : AdminLoginTracker) (username : String) (now : Nat) : Bool :=
  (t.failures.lookup username).any (adminLocked · now)

def evictStale (t : AdminLoginTracker) (now : Nat) : AdminLoginTracker :=
  ⟨adminPolicy.evictStale t.failures now⟩

def recordFailure (t : AdminLoginTracker) (username : String) (now : Nat) : AdminLoginTracker :=
  ⟨adminPolicy.recordFailure t.failures username now⟩

def recordSuccess (t : AdminLoginTracker) (username : String) : AdminLoginTracker :=
  ⟨t.failures.erase username⟩

end AdminLoginTracker

/-- The lock test finds a lock of the policy. -/
theorem adminLocked_iff (failures : List Nat) (now : Nat) :
    adminLocked failures now = true ↔ adminPolicy.Locked failures now := by
  have hperm := List.perm_insertionSort (· ≤ ·) failures
  have hsorted := List.pairwise_insertionSort (· ≤ ·) failures
  rw [← Policy.locked_perm hperm, Policy.Locked,
    ← Lockout.exists_anchor_iff hsorted (fun a => a ≤ now ∧ now < a + adminPolicy.duration),
    adminLocked, List.any_eq_true]
  constructor
  · rintro ⟨e, he, htest⟩
    rw [decide_eq_true_eq] at htest
    obtain ⟨hcount, hle, hlt⟩ := htest
    have hend : now < e.1 + adminLockDuration := by omega
    exact ⟨e, he, hcount, hle, hend⟩
  · rintro ⟨e, he, hcount, hle, hend⟩
    have hlt : now - e.1 < adminLockDuration := by
      have hend' : now < e.1 + adminLockDuration := hend
      omega
    exact ⟨e, he, decide_eq_true ⟨hcount, hle, hlt⟩⟩

end Admin
end GreenRelay
