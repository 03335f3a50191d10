/-
The greatest of a list by a key.

`Greatest key n all shown`: `shown` is what is left of `all`, greatest key first, when
it is cut to `n`, and nothing that was cut off is greater than what was kept.
Elements with equal keys may be kept either way.  Cuts compose: two lists that are
cut first and joined afterwards have the same greatest elements as the two lists joined,
as long as neither cut was shorter than the last one (`Greatest.append`).
-/
import GreenRelay.Lib.Query

def Greatest {α : Type} (key : α → Nat) (n : Nat) (all shown : List α) : Prop :=
  ∃ left, (shown ++ left).Perm all ∧ shown.Pairwise (fun a b => key b ≤ key a) ∧
    shown.length = min n all.length ∧ ∀ a ∈ shown, ∀ b ∈ left, key b ≤ key a

namespace Greatest

variable {α β : Type} {key : α → Nat} {m n : Nat}

theorem subset {all shown : List α} (h : Greatest key n all shown) {a : α} (ha : a ∈ shown) :
    a ∈ all := by
  obtain ⟨left, hperm, _⟩ := h
  exact hperm.mem_iff.mp (List.mem_append_left left ha)

/-- A sorted list is cut at the end. -/
theorem of_sorted {all sorted : List α} (hperm : sorted.Perm all)
    (hsorted : sorted.Pairwise (fun a b => key b ≤ key a)) :
    Greatest key n all (sorted.take n) := by
  have hsplit : (sorted.take n ++ sorted.drop n).Pairwise (fun a b => key b ≤ key a) := by
    rwa [List.take_append_drop]
  refine ⟨sorted.drop n, ?_, hsorted.take, ?_, (List.pairwise_append.mp hsplit).2.2⟩
  · rwa [List.take_append_drop]
  · rw [List.length_take, hperm.length_eq]

/-- When something greater than one that is shown was cut off before, what was
kept before is greater too and fills the list. -/
theorem append {A B a b shown : List α} (hmn : n ≤ m) (ha : Greatest key m A a)
    (hb : Greatest key m B b) (h : Greatest key n (a ++ b) shown) :
    Greatest key n (A ++ B) shown := by
  obtain ⟨left, hperm, hsorted, hlength, hleft⟩ := h
  obtain ⟨leftA, hpermA, _, hlengthA, hleftA⟩ := ha
  obtain ⟨leftB, hpermB, _, hlengthB, hleftB⟩ := hb
  have hlenA := hpermA.length_eq
  have hlenB := hpermB.length_eq
  rw [List.length_append] at hlenA hlenB hlength
  have hcut (kept cut : List α) (hkept : kept.Subperm (a ++ b))
      (hfull : cut ≠ [] → m ≤ kept.length) (hbelow : ∀ x ∈ kept, ∀ y ∈ cut, key y ≤ key x) :
      ∀ x ∈ shown, ∀ y ∈ cut, key y ≤ key x := by
    intro x hx y hy
    apply Nat.le_of_not_lt
    intro hlt
    have hnone : left.countP (fun z => decide (key y ≤ key z)) = 0 := by
      rw [List.countP_eq_zero]
      intro z hz
      have := hleft x hx z hz
      rw [decide_eq_true_iff]
      omega
    have hall : kept.countP (fun z => decide (key y ≤ key z)) = kept.length := by
      rw [List.countP_eq_length]
      exact fun z hz => decide_eq_true (hbelow z hz y hy)
    have hcount := hkept.countP_le (fun z => decide (key y ≤ key z))
    rw [← hperm.countP_eq, List.countP_append, hnone, hall, Nat.add_zero] at hcount
    have hshown := List.countP_le_length (p := fun z => decide (key y ≤ key z)) (l := shown)
    have hfilled := hfull (List.ne_nil_of_mem hy)
    have hevery : shown.countP (fun z => decide (key y ≤ key z)) = shown.length := by omega
    have := of_decide_eq_true (List.countP_eq_length.mp hevery x hx)
    omega
  refine ⟨left ++ (leftA ++ leftB), ?_, hsorted, ?_, ?_⟩
  · have hcuts : (a ++ b ++ (leftA ++ leftB)).Perm (a ++ leftA ++ (b ++ leftB)) := by
      rw [List.append_assoc, List.append_assoc]
      exact (List.perm_append_comm_assoc b leftA leftB).append_left a
    rw [← List.append_assoc]
    exact ((hperm.append_right _).trans hcuts).trans (hpermA.append hpermB)
  · rw [List.length_append]
    omega
  · intro x hx y hy
    rcases List.mem_append.mp hy with hy | hy
    · exact hleft x hx y hy
    · rcases List.mem_append.mp hy with hy | hy
      · refine hcut a leftA (List.sublist_append_left a b).subperm ?_ hleftA x hx y hy
        intro hne
        have := List.length_pos_iff.mpr hne
        omega
      · refine hcut b leftB (List.sublist_append_right a b).subperm ?_ hleftB x hx y hy
        intro hne
        have := List.length_pos_iff.mpr hne
        omega

theorem map {f : β → α} {all shown : List β} (h : Greatest (fun b => key (f b)) n all shown) :
    Greatest key n (all.map f) (shown.map f) := by
  obtain ⟨left, hperm, hsorted, hlength, hleft⟩ := h
  refine ⟨left.map f, ?_, List.pairwise_map.mpr hsorted, ?_, ?_⟩
  · rw [← List.map_append]
    exact hperm.map f
  · rw [List.length_map, List.length_map, hlength]
  · intro a ha b hb
    obtain ⟨x, hx, rfl⟩ := List.mem_map.mp ha
    obtain ⟨y, hy, rfl⟩ := List.mem_map.mp hb
    exact hleft x hx y hy

end Greatest

/-- A statement that orders by a key and has a limit. -/
theorem Query.Answers.greatest {ρ : Type} {q : Query ρ} {key : ρ → Nat} {n : Nat}
    {rows out : List ρ}
    (hbefore : ∀ a b, q.before a b → key b ≤ key a) (hlimit : q.limit = n) (hoffset : q.offset = 0)
    (h : q.Answers rows out) : Greatest key n (rows.filter q.keep) out := by
  obtain ⟨sorted, hperm, hsorted, rfl⟩ := h
  have hwindow : q.window sorted = sorted.take n := by
    rw [window, hlimit, hoffset, if_neg (Int.not_lt.mpr (Int.natCast_nonneg n))]
    rfl
  rw [hwindow]
  exact Greatest.of_sorted hperm (hsorted.imp (hbefore _ _))
