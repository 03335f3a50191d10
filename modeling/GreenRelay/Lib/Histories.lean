/-
A map of failure histories that is bounded in its keys.

When a new key finds the map full, histories of which nothing is left are swept
out; where none is, the failure of the new key is dropped, and the map is
saturated.  `Tracks` says what the map knows of all failures of all keys.  Every
operation keeps it, but for a failure that is dropped so.
-/
import GreenRelay.Lib.Lockout
import Mathlib.Data.List.AList

namespace Lockout

abbrev Histories (κ : Type) := AList (fun _ : κ => List Nat)

theorem Histories.length_entries {κ : Type} (h : Histories κ) :
    h.entries.length = h.keys.length := (List.length_map _).symm

namespace Policy

variable {κ : Type} [DecidableEq κ] (p : Policy)

def evictStale (h : Histories κ) (now : Nat) : Histories κ where
  entries := (h.entries.map (fun e => ⟨e.1, p.retained e.2 now⟩)).filter (fun e => !e.2.isEmpty)
  nodupKeys := by
    refine List.NodupKeys.sublist List.filter_sublist ?_
    rw [List.NodupKeys, List.keys, List.map_map]
    exact h.nodupKeys

def pushFailure (h : Histories κ) (i : κ) (now : Nat) : Histories κ :=
  h.insert i (p.push ((h.lookup i).getD []) now)

def recordFailure (h : Histories κ) (i : κ) (now : Nat) : Histories κ :=
  if i ∉ h ∧ p.keys ≤ h.entries.length then
    let h := p.evictStale h now
    if p.keys ≤ h.entries.length then h else p.pushFailure h i now
  else p.pushFailure h i now

/-- A failure of the key is dropped. -/
def Saturated (h : Histories κ) (i : κ) (now : Nat) : Prop :=
  i ∉ h ∧ p.keys ≤ h.entries.length ∧ p.keys ≤ (p.evictStale h now).entries.length

theorem length_pushFailure_le (h : Histories κ) (i : κ) (now : Nat) :
    (p.pushFailure h i now).entries.length ≤ h.entries.length + 1 := by
  have hlen := List.length_erase_le (a := i) (l := h.keys)
  rw [Histories.length_entries, h.length_entries, pushFailure, AList.keys_insert,
    List.length_cons]
  omega

omit [DecidableEq κ] in
theorem length_evictStale_le (h : Histories κ) (now : Nat) :
    (p.evictStale h now).entries.length ≤ h.entries.length := by
  refine (List.length_filter_le _ _).trans ?_
  rw [List.length_map]

/-- A failure brings at most one key. -/
theorem length_recordFailure_le (h : Histories κ) (i : κ) (now : Nat) :
    (p.recordFailure h i now).entries.length ≤ h.entries.length + 1 := by
  have hstale := p.length_evictStale_le h now
  unfold recordFailure
  split
  · dsimp only
    split
    · omega
    · exact (p.length_pushFailure_le _ i now).trans (Nat.succ_le_succ hstale)
  · exact p.length_pushFailure_le h i now

end Policy

/-- What is kept of all failures, for every key. -/
structure Tracks {κ : Type} [DecidableEq κ] (p : Policy) (now : Nat) (all : κ → List Nat)
    (h : Histories κ) : Prop where
  past : ∀ i, Chronological now (all i)
  history : ∀ i, Remembers p now (all i) ((h.lookup i).getD [])
  bounded : h.entries.length ≤ p.keys

namespace Tracks

variable {κ : Type} [DecidableEq κ] {p : Policy} {now now' : Nat} {all : κ → List Nat}
  {h : Histories κ}

theorem empty (p : Policy) (now : Nat) : Tracks p now (fun _ : κ => []) ∅ where
  past _ := .nil now
  history _ := .nil p now
  bounded := Nat.zero_le _

theorem mono (ht : Tracks p now all h) (hle : now ≤ now') : Tracks p now' all h where
  past i := (ht.past i).mono hle
  history i := (ht.history i).mono hle
  bounded := ht.bounded

/-- A history that is swept out has nothing left to be found. -/
theorem getD_dlookup_filter {f : List Nat → List Nat} (hf : f [] = []) (i : κ)
    {l : List (Sigma (fun _ : κ => List Nat))} (hl : l.NodupKeys) :
    (List.dlookup i ((l.map (fun e => (⟨e.1, f e.2⟩ : Sigma (fun _ : κ => List Nat)))).filter
      (fun e => !e.2.isEmpty))).getD [] = f ((List.dlookup i l).getD []) := by
  induction l with
  | nil => exact hf.symm
  | cons e l ih =>
    obtain ⟨hnew, hrest⟩ := List.nodupKeys_cons.mp hl
    rw [List.map_cons, List.filter_cons]
    by_cases hi : i = e.1
    · subst hi
      have hnone : List.dlookup e.1 l = none := List.dlookup_eq_none.mpr hnew
      have hih := ih hrest
      rw [hnone, Option.getD_none, hf] at hih
      rw [List.dlookup_cons_eq, Option.getD_some]
      by_cases hempty : (f e.2).isEmpty = true
      · rw [hempty]
        rw [List.isEmpty_iff] at hempty
        rw [if_neg (by decide), hih, hempty]
      · rw [Bool.eq_false_iff.mpr hempty, if_pos (by decide), List.dlookup_cons_eq,
          Option.getD_some]
    · have hskip : ∀ (b : List Nat) (rest : List (Sigma (fun _ : κ => List Nat))),
          List.dlookup i (⟨e.1, b⟩ :: rest) = List.dlookup i rest := fun b rest =>
        List.dlookup_cons_ne rest ⟨e.1, b⟩ hi
      rw [hskip e.2 l, ← ih hrest]
      split
      · rw [hskip]
      · rfl

theorem lookup_evictStale (h : Histories κ) (i : κ) (now : Nat) :
    ((p.evictStale h now).lookup i).getD [] = p.retained ((h.lookup i).getD []) now :=
  getD_dlookup_filter (f := (p.retained · now)) rfl i h.nodupKeys

theorem evictStale (ht : Tracks p now all h) (hle : now ≤ now') :
    Tracks p now' all (p.evictStale h now') where
  past i := (ht.past i).mono hle
  history i := by
    rw [lookup_evictStale]
    exact (ht.history i).retain (ht.past i) hle (Nat.le_refl _)
  bounded := (p.length_evictStale_le h now').trans ht.bounded

theorem pushFailure (ht : Tracks p now all h) (hle : now ≤ now') {i : κ}
    (hroom : i ∈ h ∨ h.entries.length < p.keys) :
    Tracks p now' (Function.update all i (all i ++ [now'])) (p.pushFailure h i now') where
  past j := by
    by_cases hj : j = i
    · subst hj
      rw [Function.update_self]
      exact (ht.past j).concat hle
    · rw [Function.update_of_ne hj]
      exact (ht.past j).mono hle
  history j := by
    by_cases hj : j = i
    · subst hj
      rw [Function.update_self, Policy.pushFailure, AList.lookup_insert, Option.getD_some]
      exact (ht.history j).push ((ht.past j).concat hle) hle (Nat.le_refl _)
    · rw [Function.update_of_ne hj, Policy.pushFailure, AList.lookup_insert_ne hj]
      exact (ht.history j).mono hle
  bounded := by
    have hbounded := ht.bounded
    rcases hroom with hmem | hroom
    · have hlen := List.length_erase_of_mem (AList.mem_keys.mp hmem)
      have hpos := List.length_pos_of_mem (AList.mem_keys.mp hmem)
      rw [h.length_entries] at hbounded
      rw [Histories.length_entries, Policy.pushFailure, AList.keys_insert, List.length_cons]
      omega
    · exact (p.length_pushFailure_le h i now').trans hroom

theorem recordFailure (ht : Tracks p now all h) (hle : now ≤ now') {i : κ}
    (hroom : ¬ p.Saturated h i now') :
    Tracks p now' (Function.update all i (all i ++ [now'])) (p.recordFailure h i now') := by
  unfold Policy.recordFailure
  split
  · rename_i hfull
    have hroom' : (p.evictStale h now').entries.length < p.keys :=
      Nat.lt_of_not_le (fun hge => hroom ⟨hfull.1, hfull.2, hge⟩)
    simp only
    rw [if_neg (Nat.not_le_of_lt hroom')]
    exact (ht.evictStale hle).pushFailure (Nat.le_refl _) (.inr hroom')
  · rename_i hfull
    apply ht.pushFailure hle
    by_cases hmem : i ∈ h
    · exact .inl hmem
    · exact .inr (Nat.lt_of_not_le (fun hge => hfull ⟨hmem, hge⟩))

/-- A success clears the history of its key. -/
theorem recordSuccess (ht : Tracks p now all h) (i : κ) :
    Tracks p now (Function.update all i []) (h.erase i) where
  past j := by
    by_cases hj : j = i
    · subst hj
      rw [Function.update_self]
      exact .nil now
    · rw [Function.update_of_ne hj]
      exact ht.past j
  history j := by
    by_cases hj : j = i
    · subst hj
      rw [Function.update_self, AList.lookup_erase]
      exact .nil p now
    · rw [Function.update_of_ne hj, AList.lookup_erase_ne hj]
      exact ht.history j
  bounded := (List.kerase_sublist i h.entries).length_le.trans ht.bounded

end Tracks

/-! ## The history of one key

What follows holds of every map, also of one that has dropped failures. -/

section OneKey

variable {κ : Type} [DecidableEq κ] {p : Policy} {h : Histories κ} {i j : κ} {now : Nat}

def historyOf (h : Histories κ) (i : κ) : List Nat := (h.lookup i).getD []

theorem historyOf_of_notMem (hi : i ∉ h) : historyOf h i = [] := by
  rw [historyOf, AList.lookup_eq_none.mpr hi, Option.getD_none]

theorem mem_of_historyOf (hne : historyOf h i ≠ []) : i ∈ h := by
  by_contra hi
  exact hne (historyOf_of_notMem hi)

theorem historyOf_evictStale : historyOf (p.evictStale h now) i = p.retained (historyOf h i) now :=
  Tracks.lookup_evictStale h i now

omit [DecidableEq κ] in
theorem mem_of_evictStale (hi : i ∈ p.evictStale h now) : i ∈ h := by
  obtain ⟨e, he, rfl⟩ := List.mem_map.mp (AList.mem_keys.mp hi)
  obtain ⟨e', he', rfl⟩ := List.mem_map.mp (List.mem_filter.mp he).1
  exact AList.mem_keys.mpr (List.mem_map.mpr ⟨e', he', rfl⟩)

theorem historyOf_pushFailure_ne (hij : i ≠ j) :
    historyOf (p.pushFailure h j now) i = historyOf h i := by
  rw [historyOf, Policy.pushFailure, AList.lookup_insert_ne hij]
  rfl

theorem historyOf_pushFailure :
    historyOf (p.pushFailure h i now) i = p.push (historyOf h i) now := by
  rw [historyOf, Policy.pushFailure, AList.lookup_insert, Option.getD_some]
  rfl

/-- Another key's failure leaves the history alone, or sweeps the old out of it. -/
theorem historyOf_recordFailure_ne (hij : i ≠ j) :
    historyOf (p.recordFailure h j now) i = historyOf h i ∨
      historyOf (p.recordFailure h j now) i = p.retained (historyOf h i) now := by
  unfold Policy.recordFailure
  split
  · simp only
    split
    · exact .inr historyOf_evictStale
    · exact .inr ((historyOf_pushFailure_ne hij).trans historyOf_evictStale)
  · exact .inl (historyOf_pushFailure_ne hij)

theorem mem_of_recordFailure_ne (hij : i ≠ j) (hi : i ∈ p.recordFailure h j now) : i ∈ h := by
  have hpush : ∀ {k : Histories κ}, i ∈ p.pushFailure k j now → i ∈ k := by
    intro k hk
    exact (AList.mem_insert k).mp hk |>.resolve_left hij
  unfold Policy.recordFailure at hi
  split at hi
  · simp only at hi
    split at hi
    · exact mem_of_evictStale hi
    · exact mem_of_evictStale (hpush hi)
  · exact hpush hi

/-- A key that is in the map gets its failure. -/
theorem historyOf_recordFailure_mem (hi : i ∈ h) :
    historyOf (p.recordFailure h i now) i = p.push (historyOf h i) now := by
  rw [Policy.recordFailure, if_neg (fun hfull => hfull.1 hi), historyOf_pushFailure]

/-- A key that is not gets it unless the map is saturated. -/
theorem historyOf_recordFailure_new (hi : i ∉ h) :
    (p.Saturated h i now → historyOf (p.recordFailure h i now) i = []) ∧
      (¬ p.Saturated h i now → historyOf (p.recordFailure h i now) i = p.push [] now) := by
  have hnone := historyOf_of_notMem hi
  have hswept : historyOf (p.evictStale h now) i = [] := by
    rw [historyOf_evictStale, hnone]
    rfl
  constructor
  · rintro ⟨-, hfull, hstill⟩
    rw [Policy.recordFailure, if_pos ⟨hi, hfull⟩]
    simp only
    rw [if_pos hstill, hswept]
  · intro hroom
    unfold Policy.recordFailure
    split
    · next hfull =>
      simp only
      rw [if_neg (fun hstill => hroom ⟨hi, hfull.2, hstill⟩), historyOf_pushFailure, hswept]
    · rw [historyOf_pushFailure, hnone]

theorem length_retained_le (l : List Nat) (now : Nat) : (p.retained l now).length ≤ l.length :=
  List.length_filter_le _ _

theorem length_push_le (l : List Nat) (now : Nat) : (p.push l now).length ≤ l.length + 1 := by
  have hretained := length_retained_le (p := p) (l ++ [now]) now
  rw [List.length_append, List.length_singleton] at hretained
  simp only [Policy.push, List.length_drop]
  omega

theorem length_recordFailure_le :
    (historyOf (p.recordFailure h i now) i).length ≤ (historyOf h i).length + 1 := by
  by_cases hi : i ∈ h
  · rw [historyOf_recordFailure_mem hi]
    exact length_push_le _ _
  · by_cases hfull : p.Saturated h i now
    · rw [(historyOf_recordFailure_new hi).1 hfull]
      exact Nat.zero_le _
    · rw [(historyOf_recordFailure_new hi).2 hfull]
      exact (length_push_le [] now).trans (Nat.succ_le_succ (Nat.zero_le _))

theorem length_recordFailure_ne (hij : i ≠ j) :
    (historyOf (p.recordFailure h j now) i).length ≤ (historyOf h i).length := by
  rcases @historyOf_recordFailure_ne κ _ p h i j now hij with heq | heq
  · rw [heq]
  · rw [heq]
    exact length_retained_le _ _

theorem retained_of_recent {l : List Nat} (hrecent : ∀ t ∈ l, now - t ≤ p.horizon) :
    p.retained l now = l :=
  List.filter_eq_self.mpr (fun t ht => decide_eq_true (hrecent t ht))

/-- A failure is appended to a history that is short and recent. -/
theorem push_of_recent {l : List Nat} (hrecent : ∀ t ∈ l, now - t ≤ p.horizon)
    (hroom : l.length < p.capacity) : p.push l now = l ++ [now] := by
  have hall : ∀ t ∈ l ++ [now], now - t ≤ p.horizon := by
    intro t ht
    rcases List.mem_append.mp ht with ht | ht
    · exact hrecent t ht
    · rw [List.mem_singleton.mp ht, Nat.sub_self]
      exact Nat.zero_le _
  have hlen : (l ++ [now]).length - p.capacity = 0 := by
    rw [List.length_append, List.length_singleton]
    omega
  simp only [Policy.push, retained_of_recent hall, hlen, List.drop_zero]

theorem mem_push {l : List Nat} {t : Nat} (ht : t ∈ p.push l now) : t ∈ l ∨ t = now := by
  have hmem := (List.mem_filter.mp (List.mem_of_mem_drop ht)).1
  rcases List.mem_append.mp hmem with hmem | hmem
  · exact .inl hmem
  · exact .inr (List.mem_singleton.mp hmem)

theorem self_mem_push (l : List Nat) (hcapacity : 0 < p.capacity) : now ∈ p.push l now := by
  have hsplit : p.retained (l ++ [now]) now = p.retained l now ++ [now] := by
    simp [Policy.retained, List.filter_append]
  simp only [Policy.push, hsplit]
  rw [List.drop_append_of_le_length]
  · exact List.mem_append_right _ (List.mem_singleton_self now)
  · rw [List.length_append, List.length_singleton]
    omega

theorem historyOf_erase_ne (hij : i ≠ j) : historyOf (h.erase j) i = historyOf h i := by
  rw [historyOf, AList.lookup_erase_ne hij]
  rfl

theorem historyOf_erase : historyOf (h.erase i) i = [] := by
  rw [historyOf, AList.lookup_erase]
  rfl

/-- What a call puts into a history is its own time. -/
theorem mem_recordFailure {t : Nat} (ht : t ∈ historyOf (p.recordFailure h j now) i) :
    t ∈ historyOf h i ∨ t = now := by
  by_cases hij : i = j
  · subst hij
    by_cases hi : i ∈ h
    · rw [historyOf_recordFailure_mem hi] at ht
      exact mem_push ht
    · by_cases hfull : p.Saturated h i now
      · rw [(historyOf_recordFailure_new hi).1 hfull] at ht
        cases ht
      · rw [(historyOf_recordFailure_new hi).2 hfull] at ht
        exact (mem_push ht).imp (fun h => by cases h) id
  · rcases @historyOf_recordFailure_ne κ _ p h i j now hij with heq | heq
    · exact .inl (heq ▸ ht)
    · rw [heq] at ht
      exact .inl (List.mem_filter.mp ht).1

end OneKey

end Lockout
