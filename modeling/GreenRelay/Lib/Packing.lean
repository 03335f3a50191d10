/-
Cutting a list into contiguous pieces within a budget.

The greedy cut closes the open piece only at an element that does not fit any
more.  It is counted here by a state of two numbers, the pieces closed so far and
the load of the open one.  In the lexicographic order of these states a step is
monotone, so the greedy cut is never behind any other cut of what has been read,
and `closed_lt_length` says that it needs the fewest pieces.
-/
import Mathlib.Algebra.GroupWithZero.Nat
import Mathlib.Order.Bounds.Defs

namespace Packing

variable {α : Type} {weight : α → Nat} {budget : Nat}

def load (weight : α → Nat) (xs : List α) : Nat := (xs.map weight).sum

theorem load_cons (weight : α → Nat) (x : α) (xs : List α) :
    load weight (x :: xs) = weight x + load weight xs := by
  simp [load]

/-- The pieces, put together, are the list, and each is within the budget. -/
structure CutOf (weight : α → Nat) (budget : Nat) (xs : List α) (pieces : List (List α)) :
    Prop where
  whole : pieces.flatten = xs
  within : ∀ piece ∈ pieces, load weight piece ≤ budget

/-- The numbers of pieces that a list can be cut into. -/
def lengths (weight : α → Nat) (budget : Nat) (xs : List α) : Set Nat :=
  fun n => ∃ pieces, CutOf weight budget xs pieces ∧ pieces.length = n

/-! ## The greedy cut -/

/-- The pieces closed so far and the load of the open piece. -/
structure Level where
  closed : Nat
  filled : Nat

def Level.start : Level := ⟨0, 0⟩

def Level.step (weight : α → Nat) (budget : Nat) (s : Level) (x : α) : Level :=
  if budget < s.filled + weight x then ⟨s.closed + 1, weight x⟩
  else ⟨s.closed, s.filled + weight x⟩

/-- One level is not behind another: it has closed fewer pieces, or as many and
has filled no more of the open one. -/
def Level.Le (s t : Level) : Prop :=
  s.closed < t.closed ∨ (s.closed = t.closed ∧ s.filled ≤ t.filled)

theorem Level.Le.refl (s : Level) : s.Le s := Or.inr ⟨rfl, Nat.le_refl _⟩

theorem Level.Le.closed_le {s t : Level} (h : s.Le t) : s.closed ≤ t.closed := by
  rcases h with h | ⟨h, -⟩
  · exact Nat.le_of_lt h
  · exact Nat.le_of_eq h

/-- Closing a piece early never pays. -/
theorem Level.Le.close {s t : Level} (h : s.Le t) : s.Le ⟨t.closed + 1, 0⟩ :=
  Or.inl (Nat.lt_succ_of_le h.closed_le)

/-- A step stays behind any level in which the element fits the open piece. -/
theorem Level.Le.step {s t : Level} (h : s.Le t) {x : α}
    (hfits : t.filled + weight x ≤ budget) :
    (s.step weight budget x).Le ⟨t.closed, t.filled + weight x⟩ := by
  simp only [Level.step]
  rcases h with hlt | ⟨heq, hle⟩
  · split
    · rcases Nat.lt_or_eq_of_le (Nat.succ_le_of_lt hlt) with h | h
      · exact Or.inl h
      · exact Or.inr ⟨h, Nat.le_add_left _ _⟩
    · exact Or.inl hlt
  · rw [if_neg (by omega)]
    exact Or.inr ⟨heq, Nat.add_le_add_right hle _⟩

/-- Over a whole piece, by induction on its elements. -/
theorem Level.Le.piece : ∀ (piece : List α) {s t : Level}, s.Le t →
    t.filled + load weight piece ≤ budget →
    (piece.foldl (Level.step weight budget) s).Le ⟨t.closed, t.filled + load weight piece⟩ := by
  intro piece
  induction piece with
  | nil =>
    intro s t h _
    exact h
  | cons x piece ih =>
    intro s t h hfits
    rw [load_cons, ← Nat.add_assoc] at hfits ⊢
    exact ih (h.step (by omega)) hfits

/-- After the pieces of a cut the greedy cut has closed at most as many. -/
theorem Level.Le.pieces : ∀ (pieces : List (List α)) {s : Level} {n : Nat}, s.Le ⟨n, 0⟩ →
    (∀ piece ∈ pieces, load weight piece ≤ budget) →
    (pieces.flatten.foldl (Level.step weight budget) s).Le ⟨n + pieces.length, 0⟩ := by
  intro pieces
  induction pieces with
  | nil =>
    intro s n h _
    exact h
  | cons piece pieces ih =>
    intro s n h hwithin
    have hpiece : load weight piece ≤ budget := hwithin piece List.mem_cons_self
    have hfits : 0 + load weight piece ≤ budget := by rwa [Nat.zero_add]
    have hnext : (piece.foldl (Level.step weight budget) s).Le ⟨n + 1, 0⟩ :=
      (Level.Le.piece piece h hfits).close
    rw [List.flatten_cons, List.foldl_append, List.length_cons, Nat.add_comm pieces.length,
      ← Nat.add_assoc]
    exact ih hnext (fun p hp => hwithin p (List.mem_cons_of_mem piece hp))

/-- The greedy cut needs no more pieces than any other. -/
theorem closed_lt_length {xs : List α} {pieces : List (List α)}
    (h : CutOf weight budget xs pieces) (hne : xs ≠ []) :
    (xs.foldl (Level.step weight budget) Level.start).closed < pieces.length := by
  rcases List.eq_nil_or_concat pieces with rfl | ⟨init, last, rfl⟩
  · exact absurd h.whole.symm hne
  · rw [List.concat_eq_append] at h ⊢
    have hinit := Level.Le.pieces init (Level.Le.refl Level.start)
      (fun p hp => h.within p (List.mem_append_left _ hp))
    have hlast : load weight last ≤ budget := h.within last (by simp)
    have hfits : 0 + load weight last ≤ budget := by rwa [Nat.zero_add]
    have hall := (Level.Le.piece last hinit hfits).closed_le
    have hwhole : init.flatten ++ last = xs := by
      rw [← h.whole, List.flatten_append, List.flatten_singleton]
    rw [← List.foldl_append, hwhole] at hall
    simp only [Level.start, Nat.zero_add] at hall ⊢
    rw [List.length_append, List.length_singleton]
    exact Nat.lt_succ_of_le hall

end Packing
