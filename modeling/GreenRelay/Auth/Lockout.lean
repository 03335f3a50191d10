/-
Authentication of an API key, and the lockout after failed attempts.

A presented key is known by its identifier, the SHA-256 digest of its text in
hexadecimal.  The digest is the one thing here that is not defined by the
program: it is a parameter, and no property of it is used.  Instants are
nanoseconds on the monotonic clock.
-/
import GreenRelay.Lib.Unicode
import Mathlib.Data.List.AList
import Mathlib.Data.List.Sort

namespace GreenRelay
namespace Auth

abbrev ApiKeyId := Nat

abbrev Digest := List UInt8 → List UInt8

def secs (n : Nat) : Nat := n * 1000000000

def maxKeyLen : Nat := 256

def lockoutFailureThreshold : Nat := 5

def lockoutWindow : Nat := secs 60

def lockoutDuration : Nat := secs 300

def maxTrackedIdentifiers : Nat := 50000

def maxFailuresPerIdentifier : Nat := 32

/-! ## Identifiers -/

def lowerHex (n : Nat) : Char := "0123456789abcdef".toList.getD n '0'

def toHex (bytes : List UInt8) : String :=
  String.ofList (bytes.flatMap (fun b => [lowerHex (b.toNat / 16), lowerHex (b.toNat % 16)]))

def keyIdentifier (sha256 : Digest) (presented : String) : String :=
  toHex (sha256 (Unicode.utf8 presented.toList))

def passesGuard (presented : String) : Bool :=
  1 ≤ presented.toList.length ∧ presented.toList.length ≤ maxKeyLen

/-! ## Lockout -/

/-- The end of the last lockout that the failures amount to.  Each failure in
turn is the anchor of a window that reaches back from it. -/
def lockoutUntil (failures : List Nat) : Option Nat :=
  let sorted := failures.insertionSort (· ≤ ·)
  sorted.zipIdx.foldl (fun result e =>
    let count := (sorted.take (e.2 + 1)).countP (fun t => e.1 - t ≤ lockoutWindow)
    if lockoutFailureThreshold ≤ count then
      some (result.elim (e.1 + lockoutDuration) (max · (e.1 + lockoutDuration)))
    else result) none

def isLockedOut (failures : List Nat) (now : Nat) : Bool :=
  (lockoutUntil failures).any (now < ·)

abbrev Histories := AList (fun _ : String => List Nat)

structure FailureTracker where
  failures : Histories

namespace FailureTracker

def new : FailureTracker := ⟨∅⟩

def isLocked (t : FailureTracker) (identifier : String) (now : Nat) : Bool :=
  (t.failures.lookup identifier).any (isLockedOut · now)

/-- How long a failure can matter. -/
def horizon : Nat := lockoutWindow + lockoutDuration

def retained (history : List Nat) (now : Nat) : List Nat := history.filter (now - · ≤ horizon)

def evictStale (t : FailureTracker) (now : Nat) : FailureTracker where
  failures := {
    entries := (t.failures.entries.map (fun e => ⟨e.1, retained e.2 now⟩)).filter
      (fun e => !e.2.isEmpty)
    nodupKeys := by
      refine List.NodupKeys.sublist List.filter_sublist ?_
      rw [List.NodupKeys, List.keys, List.map_map]
      exact t.failures.nodupKeys }

def pushFailure (t : FailureTracker) (identifier : String) (now : Nat) : FailureTracker :=
  let history := retained ((t.failures.lookup identifier).getD [] ++ [now]) now
  ⟨t.failures.insert identifier (history.drop (history.length - maxFailuresPerIdentifier))⟩

/-- A tracker that is full of identifiers with live failures drops the failure
of a new one. -/
def recordFailure (t : FailureTracker) (identifier : String) (now : Nat) : FailureTracker :=
  if identifier ∉ t.failures ∧ maxTrackedIdentifiers ≤ t.failures.entries.length then
    let t := t.evictStale now
    if maxTrackedIdentifiers ≤ t.failures.entries.length then t else t.pushFailure identifier now
  else t.pushFailure identifier now

def recordSuccess (t : FailureTracker) (identifier : String) : FailureTracker :=
  ⟨t.failures.erase identifier⟩

end FailureTracker

/-! ## Authentication -/

inductive AuthOutcome where
  | authorized (id : ApiKeyId)
  | unauthorized
  | lockedOut
  deriving DecidableEq, Repr

/-- The lookup of an active key by its identifier. -/
abbrev KeyStore := String → Option ApiKeyId

def authenticateIdentified (identifier : String) (store : KeyStore) (tracker : FailureTracker)
    (now : Nat) : AuthOutcome × FailureTracker :=
  if tracker.isLocked identifier now then (.lockedOut, tracker)
  else
    match store identifier with
    | some id => (.authorized id, tracker.recordSuccess identifier)
    | none => (.unauthorized, tracker.recordFailure identifier now)

/-- Only what the store has is authorized. -/
theorem authenticateIdentified_authorized {identifier : String} {store : KeyStore}
    {tracker : FailureTracker} {now : Nat} {id : ApiKeyId}
    (h : (authenticateIdentified identifier store tracker now).1 = .authorized id) :
    store identifier = some id := by
  unfold authenticateIdentified at h
  split at h
  · cases h
  · cases hs : store identifier with
    | none =>
      rw [hs] at h
      cases h
    | some k =>
      rw [hs] at h
      rw [AuthOutcome.authorized.inj h]

end Auth
end GreenRelay
