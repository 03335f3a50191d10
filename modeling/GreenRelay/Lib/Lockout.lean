/-
A lockout after repeated failures, and how much of the past it needs.

The rule is about all failures since the last success: a failure that is the
last of `threshold` ones within `window` locks for `duration`.  A tracker keeps
less.  It drops a failure that is older than `window + duration` and keeps at
most `capacity` of them.  The first can be no part of a window that still locks.
For the second, `capacity` failures that all lie in `window + duration` have
`threshold` of them within one window, and late enough to lock as long as any
failure that was dropped would: this is `exists_block`, and the reason for
`blocks` in a policy.  `Remembers` is what a tracker knows of the past, and
`Remembers.locked_iff` says that it is enough.
-/
import Mathlib.Data.List.GetD
import Mathlib.Data.List.Pairwise
import Mathlib.Data.List.Sort

namespace Lockout

structure Policy where
  threshold : Nat
  window : Nat
  duration : Nat
  /-- How many failures are kept of each key. -/
  capacity : Nat
  /-- How many keys are kept. -/
  keys : Nat
  /-- Runs of `threshold` failures, each sharing an end with the next, that fit
  into `capacity` failures. -/
  blocks : Nat
  positive : 0 < threshold
  roomy : blocks * (threshold - 1) < capacity
  spread : window + duration ≤ blocks * (window + 1)

namespace Policy

variable (p : Policy)

/-- How long a failure can matter. -/
def horizon : Nat := p.window + p.duration

/-- A failure at `t` is in the window that ends at `a`. -/
def near (a t : Nat) : Bool := t ≤ a ∧ a ≤ t + p.window

/-- Some failure completes `threshold` ones in a window and locks at `q`. -/
def Locked (failures : List Nat) (q : Nat) : Prop :=
  ∃ a ∈ failures, p.threshold ≤ failures.countP (p.near a) ∧ a ≤ q ∧ q < a + p.duration

instance (failures : List Nat) (q : Nat) : Decidable (p.Locked failures q) :=
  inferInstanceAs (Decidable (∃ a ∈ failures, _))

def retained (history : List Nat) (now : Nat) : List Nat :=
  history.filter (fun t => now - t ≤ p.horizon)

/-- A new failure in a history. -/
def push (history : List Nat) (now : Nat) : List Nat :=
  let history := p.retained (history ++ [now]) now
  history.drop (history.length - p.capacity)

end Policy

/-- Failures in the order in which they happened, up to `now`. -/
structure Chronological (now : Nat) (failures : List Nat) : Prop where
  sorted : failures.Pairwise (· ≤ ·)
  past : ∀ t ∈ failures, t ≤ now

/-- What is kept of all failures: the last ones, and where they are fewer than
the capacity only old ones are forgotten. -/
structure Remembers (p : Policy) (now : Nat) (all kept : List Nat) : Prop where
  suffix : ∃ forgotten, all = forgotten ++ kept ∧
    (kept.length = p.capacity ∨ ∀ t ∈ forgotten, p.horizon < now - t)
  bounded : kept.length ≤ p.capacity

/-! ## Chronological lists -/

namespace Chronological

variable {now now' : Nat} {failures : List Nat}

theorem nil (now : Nat) : Chronological now [] := ⟨List.Pairwise.nil, fun _ h => by cases h⟩

theorem concat (h : Chronological now failures) (hle : now ≤ now') :
    Chronological now' (failures ++ [now']) := by
  refine ⟨?_, ?_⟩
  · rw [List.pairwise_append]
    refine ⟨h.sorted, List.pairwise_singleton _ _, ?_⟩
    intro t ht u hu
    rw [List.mem_singleton.mp hu]
    exact (h.past t ht).trans hle
  · intro t ht
    rcases List.mem_append.mp ht with ht | ht
    · exact (h.past t ht).trans hle
    · rw [List.mem_singleton.mp ht]

theorem mono (h : Chronological now failures) (hle : now ≤ now') :
    Chronological now' failures :=
  ⟨h.sorted, fun t ht => (h.past t ht).trans hle⟩

theorem suffix {xs ys : List Nat} (h : Chronological now (xs ++ ys)) : Chronological now ys :=
  ⟨(List.pairwise_append.mp h.sorted).2.1, fun t ht => h.past t (List.mem_append_right xs ht)⟩

/-- A property that failures only lose as they get older holds of the last ones. -/
theorem filter_eq_suffix {P : Nat → Bool} (hP : ∀ t u, t ≤ u → P t = true → P u = true)
    (h : failures.Pairwise (· ≤ ·)) :
    ∃ old, failures = old ++ failures.filter P ∧ ∀ t ∈ old, P t = false := by
  induction failures with
  | nil => exact ⟨[], rfl, fun _ h => by cases h⟩
  | cons a failures ih =>
    obtain ⟨hfirst, hrest⟩ := List.pairwise_cons.mp h
    cases ha : P a with
    | true =>
      have hall : (a :: failures).filter P = a :: failures := by
        rw [List.filter_eq_self]
        intro t ht
        rcases List.mem_cons.mp ht with rfl | ht
        · exact ha
        · exact hP a t (hfirst t ht) ha
      exact ⟨[], hall.symm, fun _ h => by cases h⟩
    | false =>
      obtain ⟨old, heq, hold⟩ := ih hrest
      refine ⟨a :: old, ?_, ?_⟩
      · rw [List.filter_cons, ha, if_neg Bool.false_ne_true, List.cons_append, ← heq]
      · intro t ht
        rcases List.mem_cons.mp ht with rfl | ht
        · exact ha
        · exact hold t ht

end Chronological

/-! ## Windows -/

section Windows

variable {l : List Nat} {w : Nat}

/-- Where `m` runs of `n` steps stay within `m * w`, one of them stays within `w`. -/
theorem exists_block {n : Nat} (f : Nat → Nat) (m : Nat) (h : f (m * n) < f 0 + m * (w + 1)) :
    ∃ k < m, f (k * n + n) ≤ f (k * n) + w := by
  induction m with
  | zero =>
    rw [Nat.zero_mul, Nat.zero_mul] at h
    omega
  | succ m ih =>
    rcases Nat.lt_or_ge (f (m * n)) (f 0 + m * (w + 1)) with hlt | hge
    · obtain ⟨k, hk, hblock⟩ := ih hlt
      exact ⟨k, Nat.lt_succ_of_lt hk, hblock⟩
    · refine ⟨m, Nat.lt_succ_self m, ?_⟩
      rw [Nat.succ_mul, Nat.succ_mul] at h
      omega

theorem getElem_le_getElem (hl : l.Pairwise (· ≤ ·)) {i j : Nat} (hij : i ≤ j) (hj : j < l.length) :
    l[i] ≤ l[j] :=
  hl.rel_get_of_le (a := ⟨i, Nat.lt_of_le_of_lt hij hj⟩) (b := ⟨j, hj⟩) hij

/-- Failures in a row that lie in a window are counted there. -/
theorem le_countP_of_run {p : Policy} (hl : l.Pairwise (· ≤ ·)) {i n a : Nat}
    (hi : i + n < l.length) (hlast : l[i + n] ≤ a) (hfirst : a ≤ l[i] + p.window) :
    n + 1 ≤ l.countP (p.near a) := by
  have hrun : ((l.drop i).take (n + 1)).Sublist l :=
    (List.take_sublist _ _).trans (List.drop_sublist _ _)
  have hlen : ((l.drop i).take (n + 1)).length = n + 1 := by
    rw [List.length_take, List.length_drop]
    omega
  have hall : ((l.drop i).take (n + 1)).countP (p.near a) = n + 1 := by
    refine Eq.trans ?_ hlen
    rw [List.countP_eq_length]
    intro t ht
    obtain ⟨k, hk, rfl⟩ := List.mem_iff_getElem.mp ht
    rw [hlen] at hk
    rw [List.getElem_take, List.getElem_drop]
    have hlow : l[i] ≤ l[i + k] := getElem_le_getElem hl (Nat.le_add_right i k) (by omega)
    have hhigh : l[i + k] ≤ l[i + n] := getElem_le_getElem hl (by omega) hi
    rw [Policy.near, decide_eq_true_eq]
    omega
  calc n + 1 = _ := hall.symm
    _ ≤ l.countP (p.near a) := hrun.countP_le

end Windows

/-! ## What is remembered is enough -/

namespace Remembers

variable {p : Policy} {now now' q t : Nat} {all kept : List Nat}

/-- A full history lies within the window of a failure and the lock that the
failure makes, so some of what is kept locks for as long. -/
theorem locked_of_full {a t : Nat} (hfull : kept.length = p.capacity) (hc : Chronological q kept)
    (hfirst : ∀ x ∈ kept, t ≤ x) (hnear : p.near a t = true) (hq : a ≤ q ∧ q < a + p.duration)
    (ha : a ∈ kept ∨ ∀ x ∈ kept, a ≤ x) : p.Locked kept q := by
  obtain ⟨n, hn⟩ : ∃ n, p.threshold = n + 1 := ⟨p.threshold - 1, by have := p.positive; omega⟩
  have hroomy := p.roomy
  have hspread := p.spread
  rw [hn, Nat.add_sub_cancel, ← hfull] at hroomy
  rw [Policy.near, decide_eq_true_eq] at hnear
  have hblocks : 0 < p.blocks := by
    apply Nat.pos_of_ne_zero
    intro hzero
    rw [hzero, Nat.zero_mul] at hspread
    omega
  have hlen : n < kept.length := Nat.lt_of_le_of_lt (Nat.le_mul_of_pos_left n hblocks) hroomy
  have hzero : 0 < kept.length := by omega
  rcases Nat.lt_or_ge kept[n] a with hearly | hlate
  · -- The first ones that are kept are in the window of `a` already.
    have hmem : a ∈ kept :=
      ha.resolve_right (fun h => absurd (h _ (List.getElem_mem hlen)) (Nat.not_le_of_lt hearly))
    have hlow : t ≤ kept[0] := hfirst _ (List.getElem_mem hzero)
    have hcount := le_countP_of_run (p := p) (a := a) (i := 0) (n := n) hc.sorted (by omega)
      (by simpa using hearly.le) (by omega)
    exact ⟨a, hmem, hn ▸ hcount, hq.1, hq.2⟩
  · have hspan : kept.getD (p.blocks * n) 0 < kept.getD 0 0 + p.blocks * (p.window + 1) := by
      have hlast : kept[p.blocks * n] ≤ q := hc.past _ (List.getElem_mem hroomy)
      have hlow : t ≤ kept[0] := hfirst _ (List.getElem_mem hzero)
      rw [List.getD_eq_getElem _ _ hroomy, List.getD_eq_getElem _ _ hzero]
      omega
    obtain ⟨k, hk, hblock⟩ := exists_block (fun i => kept.getD i 0) p.blocks hspan
    have hend : k * n + n < kept.length := by
      have hle : (k + 1) * n ≤ p.blocks * n := Nat.mul_le_mul_right n hk
      rw [Nat.succ_mul] at hle
      omega
    rw [List.getD_eq_getElem _ _ hend, List.getD_eq_getElem _ _ (by omega : k * n < kept.length)]
      at hblock
    have hafter : kept[n] ≤ kept[k * n + n] :=
      getElem_le_getElem hc.sorted (Nat.le_add_left n (k * n)) hend
    refine ⟨kept[k * n + n], List.getElem_mem hend, ?_, hc.past _ (List.getElem_mem hend), ?_⟩
    · rw [hn]
      exact le_countP_of_run hc.sorted hend (Nat.le_refl _) hblock
    · omega

/-- Of the failures that are forgotten none makes a difference any more. -/
theorem locked_iff (h : Remembers p now all kept) (hc : Chronological now all) (hq : now ≤ q) :
    p.Locked all q ↔ p.Locked kept q := by
  obtain ⟨forgotten, rfl, hwhy⟩ := h.suffix
  constructor
  · rintro ⟨a, ha, hcount, hle, hlt⟩
    by_cases hpart : ∃ t ∈ forgotten, p.near a t = true
    · obtain ⟨t, ht, hnear⟩ := hpart
      have hfull : kept.length = p.capacity := by
        apply hwhy.resolve_right
        intro hold
        have hgone := hold t ht
        rw [Policy.near, decide_eq_true_eq] at hnear
        rw [Policy.horizon] at hgone
        omega
      have hcross := (List.pairwise_append.mp hc.sorted).2.2
      have hwhere : a ∈ kept ∨ ∀ x ∈ kept, a ≤ x := by
        rcases List.mem_append.mp ha with ha | ha
        · exact .inr (fun x hx => hcross a ha x hx)
        · exact .inl ha
      exact locked_of_full hfull (hc.suffix.mono hq) (fun x hx => hcross t ht x hx) hnear
        ⟨hle, hlt⟩ hwhere
    · have hzero : forgotten.countP (p.near a) = 0 := by
        rw [List.countP_eq_zero]
        exact fun t ht hnear => hpart ⟨t, ht, hnear⟩
      have hself : p.near a a = true := by
        rw [Policy.near, decide_eq_true_eq]
        omega
      rw [List.countP_append, hzero, Nat.zero_add] at hcount
      have hmem : a ∈ kept :=
        (List.mem_append.mp ha).resolve_left (fun ha => hpart ⟨a, ha, hself⟩)
      exact ⟨a, hmem, hcount, hle, hlt⟩
  · rintro ⟨a, ha, hcount, hle, hlt⟩
    refine ⟨a, List.mem_append_right _ ha, ?_, hle, hlt⟩
    rw [List.countP_append]
    omega

theorem nil (p : Policy) (now : Nat) : Remembers p now [] [] :=
  ⟨⟨[], rfl, .inr (fun _ h => by cases h)⟩, Nat.zero_le _⟩

theorem older {forgotten : List Nat} (h : ∀ t ∈ forgotten, p.horizon < now - t) (hle : now ≤ now') :
    ∀ t ∈ forgotten, p.horizon < now' - t := by
  intro t ht
  have hgone := h t ht
  omega

theorem mono (h : Remembers p now all kept) (hle : now ≤ now') : Remembers p now' all kept := by
  obtain ⟨forgotten, heq, hwhy⟩ := h.suffix
  exact ⟨⟨forgotten, heq, hwhy.imp id (fun hold => older hold hle)⟩, h.bounded⟩

/-- What is dropped for its age are the first failures. -/
theorem retained_suffix (p : Policy) {l : List Nat} (hl : l.Pairwise (· ≤ ·)) (now : Nat) :
    ∃ old, l = old ++ p.retained l now ∧ ∀ t ∈ old, p.horizon < now - t := by
  have hyounger : ∀ t u, t ≤ u → decide (now - t ≤ p.horizon) = true →
      decide (now - u ≤ p.horizon) = true := by
    intro t u htu ht
    rw [decide_eq_true_eq] at ht ⊢
    omega
  obtain ⟨old, heq, hold⟩ := Chronological.filter_eq_suffix hyounger hl
  refine ⟨old, heq, fun t ht => ?_⟩
  have hgone := hold t ht
  rw [decide_eq_false_iff_not] at hgone
  omega

/-- Failures before one that is dropped for its age are as old. -/
theorem old_of_dropped {forgotten old : List Nat} (hold : ∀ t ∈ old, p.horizon < now - t)
    (hcross : ∀ t ∈ forgotten, ∀ x ∈ old, t ≤ x) (hne : old ≠ []) :
    ∀ t ∈ forgotten ++ old, p.horizon < now - t := by
  intro t ht
  rcases List.mem_append.mp ht with ht | ht
  · obtain ⟨x, hx⟩ := List.exists_mem_of_ne_nil old hne
    have hle := hcross t ht x hx
    have hgone := hold x hx
    omega
  · exact hold t ht

/-- A sweep at a time that is past by now. -/
theorem retain (h : Remembers p now all kept) (hc : Chronological now all) (hle : now ≤ now')
    (ht : t ≤ now') : Remembers p now' all (p.retained kept t) := by
  obtain ⟨forgotten, rfl, hwhy⟩ := h.suffix
  obtain ⟨old, heq, hgone⟩ := retained_suffix p hc.suffix.sorted t
  have hold := older hgone ht
  have hbounded : (p.retained kept t).length ≤ p.capacity :=
    (List.length_filter_le _ _).trans h.bounded
  refine ⟨⟨forgotten ++ old, ?_, ?_⟩, hbounded⟩
  · rw [List.append_assoc, ← heq]
  · by_cases hne : old = []
    · subst hne
      rw [List.nil_append] at heq
      rw [← heq, List.append_nil]
      exact hwhy.imp id (fun hgone => older hgone hle)
    · right
      have hcross := (List.pairwise_append.mp hc.sorted).2.2
      exact old_of_dropped hold
        (fun t ht x hx => hcross t ht x (heq ▸ List.mem_append_left _ hx)) hne

/-- A failure at a time that is past by now, and the last of all. -/
theorem push (h : Remembers p now all kept) (hc : Chronological t (all ++ [t])) (hle : now ≤ now')
    (ht : t ≤ now') : Remembers p now' (all ++ [t]) (p.push kept t) := by
  obtain ⟨forgotten, rfl, hwhy⟩ := h.suffix
  rw [List.append_assoc] at hc ⊢
  obtain ⟨old, heq, hgone⟩ := retained_suffix p hc.suffix.sorted t
  have hold := older hgone ht
  unfold Policy.push
  generalize p.retained (kept ++ [t]) t = recent at heq ⊢
  refine ⟨⟨forgotten ++ old ++ recent.take (recent.length - p.capacity), ?_, ?_⟩, ?_⟩
  · rw [List.append_assoc, List.take_append_drop, List.append_assoc, ← heq]
  · rw [List.length_drop]
    rcases Nat.lt_or_ge p.capacity recent.length with hmany | hfew
    · left
      omega
    · rw [Nat.sub_eq_zero_of_le hfew, List.take_zero, List.append_nil, Nat.sub_zero]
      by_cases hne : old = []
      · subst hne
        rw [List.nil_append] at heq
        rw [List.append_nil]
        refine .inr (older (hwhy.resolve_left (fun hfull => ?_)) hle)
        rw [← heq, List.length_append, List.length_singleton] at hfew
        omega
      · right
        have hcross := (List.pairwise_append.mp hc.sorted).2.2
        exact old_of_dropped hold
          (fun t ht x hx => hcross t ht x (heq ▸ List.mem_append_left _ hx)) hne
  · rw [List.length_drop]
    omega

end Remembers

/-- Enough failures since `start`, within the window and the lock after it. -/
theorem Policy.locked_of_burst {p : Policy} {failures : List Nat} {start q : Nat}
    (hpast : ∀ t ∈ failures, t ≤ q) (hwindow : q < start + p.window)
    (hlock : q < start + p.duration)
    (hcount : p.threshold ≤ failures.countP (start ≤ ·)) : p.Locked failures q := by
  have hpos : 0 < failures.countP (start ≤ ·) := Nat.lt_of_lt_of_le p.positive hcount
  obtain ⟨first, hfirst, hstart⟩ := List.countP_pos_iff.mp hpos
  obtain ⟨last, hlast⟩ := Option.isSome_iff_exists.mp
    (List.isSome_max?_iff.mpr (List.ne_nil_of_mem hfirst))
  obtain ⟨hmem, hmax⟩ := List.max?_eq_some_iff.mp hlast
  rw [decide_eq_true_eq] at hstart
  have hlate : first ≤ last := hmax first hfirst
  have hle : last ≤ q := hpast last hmem
  refine ⟨last, hmem, hcount.trans ?_, hle, by omega⟩
  apply List.countP_mono_left
  intro t ht hsince
  have hbefore : t ≤ last := hmax t ht
  rw [decide_eq_true_eq] at hsince
  rw [Policy.near, decide_eq_true_eq]
  omega

/-! ## The anchors of a sorted list -/

/-- A failure that counts only what comes before it in the sorted list counts
enough, if and only if one that counts its whole window does. -/
theorem exists_anchor_iff {p : Policy} {l : List Nat} (hl : l.Pairwise (· ≤ ·)) (P : Nat → Prop) :
    (∃ e ∈ l.zipIdx, p.threshold ≤ (l.take (e.2 + 1)).countP (fun t => e.1 - t ≤ p.window) ∧
      P e.1) ↔
      ∃ a ∈ l, p.threshold ≤ l.countP (p.near a) ∧ P a := by
  constructor
  · rintro ⟨⟨a, i⟩, he, hcount, hP⟩
    have hmem := List.mem_zipIdx' he
    simp only at hmem hcount hP
    have hi : i < l.length := hmem.1
    have ha : a = l[i] := hmem.2
    subst ha
    refine ⟨l[i], List.getElem_mem hi, hcount.trans ?_, hP⟩
    have hmono : (l.take (i + 1)).countP (fun t => l[i] - t ≤ p.window) ≤
        (l.take (i + 1)).countP (p.near l[i]) := by
      apply List.countP_mono_left
      intro t ht hnear
      obtain ⟨k, hk, rfl⟩ := List.mem_iff_getElem.mp ht
      rw [List.length_take] at hk
      rw [List.getElem_take, decide_eq_true_eq] at hnear
      have hle : l[k] ≤ l[i] := getElem_le_getElem hl (by omega) hi
      rw [List.getElem_take, Policy.near, decide_eq_true_eq]
      omega
    exact hmono.trans (List.take_sublist _ _).countP_le
  · rintro ⟨a, ha, hcount, hP⟩
    -- The last of the failures at `a` has all of its window before it.
    obtain ⟨later, before, heq, hlast⟩ := List.eq_append_cons_of_mem (List.mem_reverse.mpr ha)
    obtain rfl : l = before.reverse ++ a :: later.reverse := by
      rw [← List.reverse_reverse l, heq]
      simp
    refine ⟨⟨a, before.reverse.length⟩, ?_, ?_, hP⟩
    · rw [List.mem_zipIdx_iff_getElem?]
      simp
    · have hsplit : before.reverse ++ a :: later.reverse =
          (before.reverse ++ [a]) ++ later.reverse := by simp
      have hlen : before.reverse.length + 1 = (before.reverse ++ [a]).length := by simp
      have hzero : later.reverse.countP (p.near a) = 0 := by
        rw [List.countP_eq_zero]
        intro t ht hnear
        have hle : a ≤ t :=
          (List.pairwise_cons.mp (List.pairwise_append.mp hl).2.1).1 t ht
        rw [Policy.near, decide_eq_true_eq] at hnear
        have hsame : a = t := by omega
        exact hlast (hsame ▸ List.mem_reverse.mp ht)
      rw [hsplit, List.countP_append, hzero, Nat.add_zero] at hcount
      rw [hsplit, hlen, List.take_left']
      · apply hcount.trans
        apply List.countP_mono_left
        intro t _ hnear
        rw [Policy.near, decide_eq_true_eq] at hnear
        rw [decide_eq_true_eq]
        omega
      · rfl

/-- The order of the failures does not matter. -/
theorem Policy.locked_perm {p : Policy} {l l' : List Nat} (h : l.Perm l') (q : Nat) :
    p.Locked l q ↔ p.Locked l' q := by
  unfold Policy.Locked
  constructor
  · rintro ⟨a, ha, hcount, hq⟩
    exact ⟨a, h.mem_iff.mp ha, h.countP_eq _ ▸ hcount, hq⟩
  · rintro ⟨a, ha, hcount, hq⟩
    exact ⟨a, h.mem_iff.mpr ha, h.countP_eq _ ▸ hcount, hq⟩

end Lockout
