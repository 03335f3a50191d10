/-
A broadcast channel whose readers may fall behind.

Values are sent to all readers.  The channel holds on to the last values only, at
least as many as its capacity, and each reader has a position of its own.  A
reader whose next value is gone is told how far it lags and goes on with a later
value (`Channel`); that there is such a channel is shown by one that holds exactly
its capacity (`ring`).

A reader gets a part of what was sent since it subscribed, in order and each
value once; it loses something only where it was further behind than the capacity,
and where it never was it gets all of it (`Reader.Sound`).
-/
import Mathlib.Data.List.Basic

namespace Broadcast

inductive Received (α : Type) where
  | value (a : α)
  | lagged (skipped : Nat)
  | empty
  deriving DecidableEq, Repr

/-- What a reader at a position receives of what was sent, and its position
afterwards. -/
structure Channel (α : Type) (capacity : Nat) where
  recv : List α → Nat → Received α × Nat
  value : ∀ {sent next a next'}, recv sent next = (.value a, next') →
    sent[next]? = some a ∧ next' = next + 1
  lagged : ∀ {sent next skipped next'}, recv sent next = (.lagged skipped, next') →
    0 < skipped ∧ next' = next + skipped ∧ next' + capacity ≤ sent.length
  empty : ∀ {sent next next'}, recv sent next = (.empty, next') →
    sent.length ≤ next ∧ next' = next

/-- The channel that holds exactly its capacity. -/
def ring (α : Type) (capacity : Nat) : Channel α capacity where
  recv sent next :=
    if next + capacity < sent.length then
      (.lagged (sent.length - capacity - next), sent.length - capacity)
    else
      match sent[next]? with
      | some a => (.value a, next + 1)
      | none => (.empty, next)
  value {sent next a next'} h := by
    split at h
    · cases h
    · cases hnext : sent[next]? with
      | none =>
        rw [hnext] at h
        cases h
      | some b =>
        rw [hnext] at h
        cases h
        exact ⟨rfl, rfl⟩
  lagged {sent next skipped next'} h := by
    split at h
    · cases h
      omega
    · split at h <;> cases h
  empty {sent next next'} h := by
    split at h
    · cases h
    · cases hnext : sent[next]? with
      | none =>
        rw [hnext] at h
        cases h
        exact ⟨List.getElem?_eq_none_iff.mp hnext, rfl⟩
      | some b =>
        rw [hnext] at h
        cases h

section

variable {α : Type} {capacity : Nat} (chan : Channel α capacity)

/-- A reader, with what it was given and how far behind it was whenever it lagged. -/
structure Reader (α : Type) where
  since : Nat
  next : Nat
  got : List α
  losses : List Nat

def Reader.new (sent : List α) : Reader α := ⟨sent.length, sent.length, [], []⟩

/-- One receive, with the value that it gives. -/
def Reader.poll (sent : List α) (r : Reader α) : Reader α × Option α :=
  match chan.recv sent r.next with
  | (.value a, next) => ({ r with next := next, got := r.got ++ [a] }, some a)
  | (.lagged _, next) =>
    ({ r with next := next, losses := r.losses ++ [sent.length - r.next] }, none)
  | (.empty, _) => (r, none)

end

namespace Reader

variable {α : Type} {capacity : Nat} {chan : Channel α capacity} {sent : List α} {r : Reader α}

/-- What was sent since the reader subscribed, up to its position. -/
def passed (sent : List α) (r : Reader α) : List α := (sent.take r.next).drop r.since

structure Sound (capacity : Nat) (sent : List α) (r : Reader α) : Prop where
  began : r.since ≤ r.next
  bound : r.next ≤ sent.length
  part : r.got.Sublist (r.passed sent)
  whole : r.losses = [] → r.got = r.passed sent
  behind : ∀ n ∈ r.losses, capacity < n

theorem passed_append (h : r.next ≤ sent.length) (a : α) :
    r.passed (sent ++ [a]) = r.passed sent := by
  rw [passed, passed, List.take_append_of_le_length h]

theorem Sound.new (capacity : Nat) (sent : List α) : Sound capacity sent (Reader.new sent) where
  began := Nat.le_refl _
  bound := Nat.le_refl _
  part := List.nil_sublist _
  whole _ := by simp [Reader.new, passed]
  behind n hn := by cases hn

/-- A value that is sent later. -/
theorem Sound.send (h : Sound capacity sent r) (a : α) : Sound capacity (sent ++ [a]) r where
  began := h.began
  bound := by
    have hbound := h.bound
    rw [List.length_append]
    omega
  part := by
    rw [passed_append h.bound]
    exact h.part
  whole hnone := by
    rw [passed_append h.bound]
    exact h.whole hnone
  behind := h.behind

/-- The position goes on to the value after the one that is given. -/
theorem passed_next (hsince : r.since ≤ r.next) {a : α} (ha : sent[r.next]? = some a) :
    (sent.take (r.next + 1)).drop r.since = r.passed sent ++ [a] := by
  have hlen : r.next < sent.length := (List.getElem?_eq_some_iff.mp ha).1
  rw [passed, List.take_add_one, ha, Option.toList_some, List.drop_append_of_le_length]
  rw [List.length_take, Nat.min_eq_left (Nat.le_of_lt hlen)]
  exact hsince

theorem passed_sublist {m n since : Nat} (h : m ≤ n) :
    ((sent.take m).drop since).Sublist ((sent.take n).drop since) := by
  have hprefix : sent.take m <+: sent.take n := List.take_prefix_take_left h
  exact hprefix.sublist.drop since

theorem Sound.poll (h : Sound capacity sent r) : Sound capacity sent (r.poll chan sent).1 := by
  have hbegan := h.began
  have hbound := h.bound
  cases hrecv : chan.recv sent r.next with
  | mk received next =>
    cases received with
    | value a =>
      obtain ⟨hnext, rfl⟩ := chan.value hrecv
      have hpoll : (r.poll chan sent).1 = { r with next := r.next + 1, got := r.got ++ [a] } := by
        rw [Reader.poll, hrecv]
      have hlen : r.next < sent.length := (List.getElem?_eq_some_iff.mp hnext).1
      have hpassed := passed_next hbegan hnext
      rw [hpoll]
      refine ⟨?_, hlen, ?_, ?_, h.behind⟩
      · show r.since ≤ r.next + 1
        omega
      · show (r.got ++ [a]).Sublist ((sent.take (r.next + 1)).drop r.since)
        rw [hpassed]
        exact h.part.append (List.Sublist.refl _)
      · intro hnone
        show r.got ++ [a] = (sent.take (r.next + 1)).drop r.since
        rw [hpassed, h.whole hnone]
    | lagged skipped =>
      obtain ⟨hpos, rfl, hheld⟩ := chan.lagged hrecv
      have hpoll : (r.poll chan sent).1 = { r with
          next := r.next + skipped
          losses := r.losses ++ [sent.length - r.next] } := by
        rw [Reader.poll, hrecv]
      rw [hpoll]
      refine ⟨?_, ?_, ?_, ?_, ?_⟩
      · show r.since ≤ r.next + skipped
        omega
      · show r.next + skipped ≤ sent.length
        omega
      · exact h.part.trans (passed_sublist (Nat.le_add_right r.next skipped))
      · intro hnone
        exact absurd hnone (by simp)
      · intro n hn
        rcases List.mem_append.mp hn with hn | hn
        · exact h.behind n hn
        · rw [List.mem_singleton.mp hn]
          omega
    | empty =>
      have hpoll : (r.poll chan sent).1 = r := by
        rw [Reader.poll, hrecv]
      rw [hpoll]
      exact h

/-- A value that is given is added to what the reader has. -/
theorem poll_got (r : Reader α) :
    (r.poll chan sent).1.got = r.got ++ (r.poll chan sent).2.toList := by
  rw [Reader.poll]
  split <;> simp

/-- A value that is given was sent. -/
theorem mem_of_poll {a : α} (h : (r.poll chan sent).2 = some a) : a ∈ sent := by
  rw [Reader.poll] at h
  cases hrecv : chan.recv sent r.next with
  | mk received next =>
    rw [hrecv] at h
    cases received with
    | value b =>
      cases h
      exact List.mem_of_getElem? (chan.value hrecv).1
    | lagged | empty => cases h

end Reader

end Broadcast
