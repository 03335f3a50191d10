/-
Arrivals in time, and how many of them an interval can hold.

A stream of arrivals is cut into windows, each of them opened by an arrival that
does not belong to the one before.  If the first `n` arrivals of every window are
admitted, an interval of the length of the windows holds fewer than `2 * n` of
them: it meets two windows, and the one that it meets late has been opened before
it (`admitted_within`).
-/
import Mathlib.Data.List.Sort

namespace Arrivals

/-! ## Windows -/

/-- An arrival, and whether what came before it was still known. -/
structure Arrival where
  now : Nat
  known : Bool
  deriving DecidableEq

/-- The arrival belongs to the window that was opened at `start`. -/
def Arrival.within (w start : Nat) (a : Arrival) : Bool := a.known && a.now - start < w

def windows (w : Nat) : List Arrival → List (List Nat)
  | [] => []
  | a :: as =>
    (a.now :: (as.takeWhile (Arrival.within w a.now)).map Arrival.now) ::
      windows w (as.dropWhile (Arrival.within w a.now))
termination_by as => as.length
decreasing_by exact Nat.lt_succ_of_le (List.dropWhile_sublist _).length_le

/-- The first `n` arrivals of every window. -/
def admitted (n w : Nat) (as : List Arrival) : List Nat := (windows w as).flatMap (List.take n)

/-- The arrivals that are admitted when the window opened at `start` has room for
`room` more. -/
def admittedFrom (n w start room : Nat) (as : List Arrival) : List Nat :=
  ((as.takeWhile (Arrival.within w start)).map Arrival.now).take room ++
    admitted n w (as.dropWhile (Arrival.within w start))

theorem admitted_cons (n w : Nat) (a : Arrival) (as : List Arrival) :
    admitted (n + 1) w (a :: as) = a.now :: admittedFrom (n + 1) w a.now n as := by
  rw [admitted, windows, List.flatMap_cons, List.take_succ_cons]
  rfl

theorem admittedFrom_nil (n w start room : Nat) : admittedFrom n w start room [] = [] := by
  simp [admittedFrom, admitted, windows]

/-- An arrival outside the window opens the next one. -/
theorem admittedFrom_over (n w start room : Nat) {a : Arrival} (h : a.within w start = false)
    (as : List Arrival) : admittedFrom n w start room (a :: as) = admitted n w (a :: as) := by
  rw [admittedFrom, List.takeWhile_cons_of_neg (by simp [h]),
    List.dropWhile_cons_of_neg (by simp [h]), List.map_nil, List.take_nil, List.nil_append]

theorem admittedFrom_room (n w start room : Nat) {a : Arrival} (h : a.within w start = true)
    (as : List Arrival) :
    admittedFrom n w start (room + 1) (a :: as) = a.now :: admittedFrom n w start room as := by
  rw [admittedFrom, List.takeWhile_cons_of_pos h, List.dropWhile_cons_of_pos h]
  rfl

theorem admittedFrom_full (n w start : Nat) {a : Arrival} (h : a.within w start = true)
    (as : List Arrival) : admittedFrom n w start 0 (a :: as) = admittedFrom n w start 0 as := by
  rw [admittedFrom, List.dropWhile_cons_of_pos h, List.take_zero]
  rfl

/-! ## Intervals -/

/-- At most `n` of the times lie in any half-open interval of length `w`. -/
def Bounded (n w : Nat) (times : List Nat) : Prop :=
  ∀ t, (times.filter (fun u => t ≤ u && u < t + w)).length ≤ n

/-- The number of times in the half-open interval of length `w` from `t` on. -/
def countIn (t w : Nat) (times : List Nat) : Nat :=
  (times.filter (fun u => t ≤ u && u < t + w)).length

/-- The number of arrivals of the interval that were not known. -/
def unknownIn (t w : Nat) (as : List Arrival) : Nat :=
  as.countP (fun a => !a.known && (t ≤ a.now && a.now < t + w))

section Intervals

variable {n w t : Nat} {a b : Arrival} {as rest : List Arrival}

theorem countIn_append (t w : Nat) (xs ys : List Nat) :
    countIn t w (xs ++ ys) = countIn t w xs + countIn t w ys := by
  rw [countIn, List.filter_append, List.length_append]
  rfl

theorem countIn_eq_zero {times : List Nat} (h : ∀ u ∈ times, u < t ∨ t + w ≤ u) :
    countIn t w times = 0 := by
  rw [countIn, List.length_eq_zero_iff, List.filter_eq_nil_iff]
  intro u hu
  have := h u hu
  simp only [Bool.and_eq_true, decide_eq_true_eq]
  omega

theorem countIn_take_le (t w n : Nat) (times : List Nat) : countIn t w (times.take n) ≤ n :=
  Nat.le_trans (List.length_filter_le _ _) (List.length_take_le n times)

/-- The window that the first arrival opens, and the others. -/
theorem admitted_split (n w : Nat) (a : Arrival) (as : List Arrival) :
    admitted n w (a :: as)
      = (a.now :: (as.takeWhile (Arrival.within w a.now)).map Arrival.now).take n
        ++ admitted n w (as.dropWhile (Arrival.within w a.now)) := by
  rw [admitted, windows, List.flatMap_cons]
  rfl

theorem admitted_nil (n w : Nat) : admitted n w [] = [] := by
  simp [admitted, windows]

/-- Only arrivals are admitted. -/
theorem admitted_sublist (n w : Nat) (as : List Arrival) :
    (admitted n w as).Sublist (as.map Arrival.now) := by
  induction as using windows.induct w with
  | case1 => rw [admitted_nil, List.map_nil]
  | case2 a as ih =>
    rw [admitted_split]
    have hsplit : (a :: as).map Arrival.now
        = (a.now :: (as.takeWhile (Arrival.within w a.now)).map Arrival.now)
          ++ (as.dropWhile (Arrival.within w a.now)).map Arrival.now := by
      rw [List.cons_append, ← List.map_append, List.takeWhile_append_dropWhile, List.map_cons]
    rw [hsplit]
    exact (List.take_sublist n _).append ih

/-- The arrival that opens the next window was not known, or is late. -/
theorem opener (h : as.dropWhile (Arrival.within w a.now) = b :: rest) :
    b.known = false ∨ a.now + w ≤ b.now ∨ w = 0 := by
  have hout : b.within w a.now = false := by
    have hhead := List.head?_dropWhile_not (Arrival.within w a.now) as
    rw [h] at hhead
    simpa using hhead
  simp only [Arrival.within, Bool.and_eq_false_iff, decide_eq_false_iff_not] at hout
  rcases hout with hunknown | hlate
  · exact .inl hunknown
  · right
    omega

theorem unknownIn_dropWhile_le (p : Arrival → Bool) (t w : Nat) (as : List Arrival) :
    unknownIn t w (as.dropWhile p) ≤ unknownIn t w as :=
  (List.dropWhile_sublist p).countP_le

/-- From the start of the interval on, a window is opened by the first arrival and
by those that were not known. -/
theorem admitted_late (hsorted : as.Pairwise (fun a b => a.now ≤ b.now))
    (hlate : ∀ a ∈ as, t ≤ a.now) :
    countIn t w (admitted n w as) ≤ n * (1 + unknownIn t w as.tail) := by
  induction as using windows.induct w with
  | case1 => simp [admitted_nil, countIn]
  | case2 a as ih =>
    obtain ⟨hfirst, htail⟩ := List.pairwise_cons.mp hsorted
    have hopened := countIn_take_le t w n
      (a.now :: (as.takeWhile (Arrival.within w a.now)).map Arrival.now)
    have hle := unknownIn_dropWhile_le (Arrival.within w a.now) t w as
    have hrest := ih (htail.sublist (List.dropWhile_sublist _))
      (fun c hc => hlate c (List.mem_cons_of_mem a ((List.dropWhile_sublist _).subset hc)))
    rw [admitted_split, countIn_append, List.tail_cons, Nat.mul_add, Nat.mul_one]
    suffices h : countIn t w (admitted n w (as.dropWhile (Arrival.within w a.now)))
        ≤ n * unknownIn t w as by omega
    cases hdrop : as.dropWhile (Arrival.within w a.now) with
    | nil => simp [admitted_nil, countIn]
    | cons b rest =>
      rw [hdrop] at hle hrest
      have ha : t ≤ a.now := hlate a List.mem_cons_self
      have hsuffix : (b :: rest).Pairwise (fun a b => a.now ≤ b.now) :=
        hdrop ▸ htail.sublist (List.dropWhile_sublist _)
      by_cases hin : b.now < t + w
      · -- Inside the interval the next window can only be due to an unknown arrival.
        have hunknown : b.known = false := by
          rcases opener hdrop with h | h | h
          · exact h
          · omega
          · have hb : t ≤ b.now :=
              hlate b (List.mem_cons_of_mem a ((List.dropWhile_sublist _).subset
                (hdrop ▸ List.mem_cons_self)))
            omega
        have hb : t ≤ b.now :=
          hlate b (List.mem_cons_of_mem a ((List.dropWhile_sublist _).subset
            (hdrop ▸ List.mem_cons_self)))
        have hcount : unknownIn t w (b :: rest) = 1 + unknownIn t w rest := by
          rw [unknownIn, List.countP_cons_of_pos (by simp [hunknown, hb, hin]), unknownIn]
          omega
        rw [List.tail_cons, ← hcount] at hrest
        exact Nat.le_trans hrest (Nat.mul_le_mul_left n hle)
      · rw [countIn_eq_zero]
        · exact Nat.zero_le _
        · intro u hu
          obtain ⟨c, hc, rfl⟩ := List.mem_map.mp ((admitted_sublist n w _).subset hu)
          right
          rcases List.mem_cons.mp hc with rfl | hc
          · omega
          · have := (List.pairwise_cons.mp hsuffix).1 c hc
            omega

theorem countIn_take_lt (t w : Nat) {n u : Nat} (hn : 1 ≤ n) (hu : u < t) (times : List Nat) :
    countIn t w ((u :: times).take n) < n := by
  obtain ⟨m, rfl⟩ : ∃ m, n = m + 1 := ⟨n - 1, by omega⟩
  have hskip : countIn t w (u :: times.take m) = countIn t w (times.take m) := by
    unfold countIn
    rw [List.filter_cons_of_neg]
    simp only [Bool.and_eq_true, decide_eq_true_eq]
    omega
  rw [List.take_succ_cons, hskip]
  exact Nat.lt_succ_of_le (countIn_take_le t w m times)

/-- An interval of the length of the windows meets two of them, of which one has
been opened before it, and one more for each arrival that was not known. -/
theorem admitted_within (hn : 1 ≤ n) (hsorted : as.Pairwise (fun a b => a.now ≤ b.now)) :
    countIn t w (admitted n w as) < n * (2 + unknownIn t w as.tail) := by
  induction as using windows.induct w with
  | case1 =>
    rw [admitted_nil]
    exact Nat.mul_pos hn (by omega)
  | case2 a as ih =>
    obtain ⟨hfirst, htail⟩ := List.pairwise_cons.mp hsorted
    have htwo : n * (2 + unknownIn t w as) = n + n * (1 + unknownIn t w as) := by
      rw [show 2 + unknownIn t w as = 1 + (1 + unknownIn t w as) by omega, Nat.mul_add,
        Nat.mul_one]
    rw [List.tail_cons, htwo]
    by_cases ha : t ≤ a.now
    · have hlate : ∀ c ∈ a :: as, t ≤ c.now := by
        intro c hc
        rcases List.mem_cons.mp hc with rfl | hc
        · exact ha
        · exact Nat.le_trans ha (hfirst c hc)
      have hle := admitted_late (n := n) (w := w) hsorted hlate
      rw [List.tail_cons] at hle
      omega
    · have hopened := countIn_take_lt t w hn (Nat.lt_of_not_le ha)
        ((as.takeWhile (Arrival.within w a.now)).map Arrival.now)
      have hle := unknownIn_dropWhile_le (Arrival.within w a.now) t w as
      have hsuffix := htail.sublist (List.dropWhile_sublist (Arrival.within w a.now))
      have hrest := ih hsuffix
      have hsplit := List.takeWhile_append_dropWhile (p := Arrival.within w a.now) (l := as)
      rw [admitted_split, countIn_append]
      cases hdrop : as.dropWhile (Arrival.within w a.now) with
      | nil =>
        have hnone : countIn t w (admitted n w []) = 0 := by
          rw [admitted_nil]
          rfl
        omega
      | cons b rest =>
        rw [hdrop] at hle hrest hsuffix hsplit
        have hmono : unknownIn t w (b :: rest).tail ≤ unknownIn t w as :=
          Nat.le_trans (List.sublist_cons_self b rest).countP_le hle
        by_cases hb : t ≤ b.now
        · -- The window of `a` may reach into the interval, and the rest is late.
          have hlate : ∀ c ∈ b :: rest, t ≤ c.now := by
            intro c hc
            rcases List.mem_cons.mp hc with rfl | hc
            · exact hb
            · exact Nat.le_trans hb ((List.pairwise_cons.mp hsuffix).1 c hc)
          have hnext := admitted_late (n := n) (w := w) hsuffix hlate
          have hbound := Nat.mul_le_mul_left n (Nat.add_le_add_left hmono 1)
          omega
        · -- The window of `a` is over before the interval.
          have hbefore : countIn t w ((a.now ::
              (as.takeWhile (Arrival.within w a.now)).map Arrival.now).take n) = 0 := by
            apply countIn_eq_zero
            intro u hu
            left
            rcases List.mem_cons.mp (List.mem_of_mem_take hu) with rfl | hu
            · omega
            · obtain ⟨c, hc, rfl⟩ := List.mem_map.mp hu
              rw [← hsplit, List.pairwise_append] at htail
              have := htail.2.2 c hc b List.mem_cons_self
              omega
          have hbound := Nat.mul_le_mul_left n (Nat.add_le_add_left hmono 2)
          rw [htwo] at hbound
          omega

end Intervals

end Arrivals
