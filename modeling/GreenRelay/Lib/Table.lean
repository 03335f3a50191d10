/-
A table with an integer primary key that the table hands out itself.

The rows stand in the order in which they were inserted.  `seq` is the last key
given (`AUTOINCREMENT` keeps it apart from the rows): every insertion takes the
next one, so a key names at most one row for the life of the table.
-/
import Mathlib.Data.List.Nodup

/-- The rows of a table and the last key given. -/
structure Table (ρ : Type) (key : ρ → Nat) where
  rows : List ρ
  seq : Nat
  bounded : ∀ r ∈ rows, key r ≤ seq
  distinct : (rows.map key).Nodup

namespace Table

variable {ρ : Type} {key : ρ → Nat}

def empty : Table ρ key := ⟨[], 0, by simp, by simp⟩

def find (t : Table ρ key) (id : Nat) : Option ρ := t.rows.find? (fun r => key r = id)

/-- The row `mk` makes of the next key, at the end of the table. -/
def insert (t : Table ρ key) (mk : Nat → ρ) (hmk : ∀ n, key (mk n) = n) : Table ρ key where
  rows := t.rows ++ [mk (t.seq + 1)]
  seq := t.seq + 1
  bounded := by
    intro r hr
    rcases List.mem_append.mp hr with hr | hr
    · exact Nat.le_succ_of_le (t.bounded r hr)
    · rw [List.mem_singleton.mp hr]
      exact Nat.le_of_eq (hmk _)
  distinct := by
    rw [List.map_append, List.nodup_append]
    refine ⟨t.distinct, by simp, ?_⟩
    intro a ha b hb
    obtain ⟨r, hr, rfl⟩ := List.mem_map.mp ha
    have hle := t.bounded r hr
    simp only [List.map_cons, List.map_nil, List.mem_singleton, hmk] at hb
    omega

/-- `f` applied to the row with key `id`. -/
def modify (t : Table ρ key) (id : Nat) (f : ρ → ρ) (hf : ∀ r, key (f r) = key r) :
    Table ρ key where
  rows := t.rows.map (fun r => if key r = id then f r else r)
  seq := t.seq
  bounded := by
    intro r hr
    obtain ⟨r', hr', rfl⟩ := List.mem_map.mp hr
    split
    · rw [hf]
      exact t.bounded r' hr'
    · exact t.bounded r' hr'
  distinct := by
    have hkeys : (t.rows.map (fun r => if key r = id then f r else r)).map key
        = t.rows.map key := by
      rw [List.map_map]
      apply List.map_congr_left
      intro r _
      show key (if key r = id then f r else r) = key r
      split
      · exact hf r
      · rfl
    rw [hkeys]
    exact t.distinct

theorem find_key {t : Table ρ key} {id : Nat} {r : ρ} (h : t.find id = some r) : key r = id := by
  simpa using List.find?_some h

theorem mem_of_find {t : Table ρ key} {id : Nat} {r : ρ} (h : t.find id = some r) : r ∈ t.rows :=
  List.mem_of_find?_eq_some h

theorem find_of_mem {t : Table ρ key} {r : ρ} (h : r ∈ t.rows) : t.find (key r) = some r := by
  have hsome : (t.find (key r)).isSome := by
    rw [find, List.find?_isSome]
    exact ⟨r, h, by simp⟩
  obtain ⟨r', hr'⟩ := Option.isSome_iff_exists.mp hsome
  have heq : r' = r := List.inj_on_of_nodup_map t.distinct (mem_of_find hr') h (find_key hr')
  rw [hr', heq]

theorem le_seq_of_find {t : Table ρ key} {id : Nat} {r : ρ} (h : t.find id = some r) :
    id ≤ t.seq := by
  have hle := t.bounded r (mem_of_find h)
  rwa [find_key h] at hle

/-- The row with a key, and the others on both sides of it. -/
theorem rows_split {t : Table ρ key} {id : Nat} {r : ρ} (h : t.find id = some r) :
    ∃ before after, t.rows = before ++ r :: after ∧ key r = id ∧ (∀ x ∈ before, key x ≠ id) ∧
      ∀ x ∈ after, key x ≠ id := by
  obtain ⟨before, after, hrows⟩ := List.append_of_mem (mem_of_find h)
  have hkey := find_key h
  have hdistinct := t.distinct
  rw [hrows, List.map_append, List.map_cons, List.nodup_middle, List.nodup_cons, hkey,
    List.mem_append, not_or] at hdistinct
  refine ⟨before, after, hrows, hkey, ?_, ?_⟩
  · intro x hx he
    exact hdistinct.1.1 (he ▸ List.mem_map_of_mem hx)
  · intro x hx he
    exact hdistinct.1.2 (he ▸ List.mem_map_of_mem hx)

theorem find_next (t : Table ρ key) : t.find (t.seq + 1) = none := by
  cases h : t.find (t.seq + 1) with
  | none => rfl
  | some r => exact absurd (le_seq_of_find h) (by omega)

theorem find_insert_next (t : Table ρ key) (mk : Nat → ρ) (hmk : ∀ n, key (mk n) = n) :
    (t.insert mk hmk).find (t.seq + 1) = some (mk (t.seq + 1)) := by
  have hnone : t.rows.find? (fun r => key r = t.seq + 1) = none := t.find_next
  simp [find, insert, List.find?_append, hnone, hmk]

theorem find_insert_of_ne (t : Table ρ key) (mk : Nat → ρ) (hmk : ∀ n, key (mk n) = n) {id : Nat}
    (h : id ≠ t.seq + 1) : (t.insert mk hmk).find id = t.find id := by
  have hne : ¬ t.seq + 1 = id := fun e => h e.symm
  simp [find, insert, List.find?_append, hmk, hne]

theorem find_insert_of_find {t : Table ρ key} {mk : Nat → ρ} {hmk : ∀ n, key (mk n) = n} {id : Nat}
    {r : ρ} (h : t.find id = some r) : (t.insert mk hmk).find id = some r := by
  have hle := le_seq_of_find h
  rw [find_insert_of_ne t mk hmk (by omega), h]

theorem find_modify (t : Table ρ key) (id : Nat) (f : ρ → ρ) (hf : ∀ r, key (f r) = key r)
    (j : Nat) :
    (t.modify id f hf).find j = (t.find j).map (fun r => if j = id then f r else r) := by
  have hpred : ((fun r => decide (key r = j)) ∘ fun r => if key r = id then f r else r)
      = fun r => decide (key r = j) := by
    funext r
    show decide (key (if key r = id then f r else r) = j) = decide (key r = j)
    split
    · rw [hf]
    · rfl
  have hfind : (t.modify id f hf).find j
      = (t.find j).map (fun r => if key r = id then f r else r) := by
    show (t.rows.map _).find? _ = _
    rw [List.find?_map, hpred]
    rfl
  rw [hfind]
  cases h : t.find j with
  | none => rfl
  | some r => rw [Option.map_some, Option.map_some, find_key h]

theorem find_modify_same {t : Table ρ key} {id : Nat} {f : ρ → ρ} {hf : ∀ r, key (f r) = key r}
    {r : ρ} (h : t.find id = some r) : (t.modify id f hf).find id = some (f r) := by
  rw [find_modify, h, Option.map_some, if_pos rfl]

theorem find_modify_of_ne (t : Table ρ key) {id j : Nat} (f : ρ → ρ)
    (hf : ∀ r, key (f r) = key r) (h : j ≠ id) : (t.modify id f hf).find j = t.find j := by
  rw [find_modify]
  simp [h]

theorem modify_self (t : Table ρ key) (id : Nat) : t.modify id (fun r => r) (fun _ => rfl) = t := by
  cases t with
  | mk rows seq bounded distinct => simp [modify]

/-- The table of what is made of each row. -/
def map {σ : Type} {key' : σ → Nat} (t : Table ρ key) (f : ρ → σ) (hf : ∀ r, key' (f r) = key r) :
    Table σ key' where
  rows := t.rows.map f
  seq := t.seq
  bounded := by
    intro s hs
    obtain ⟨r, hr, rfl⟩ := List.mem_map.mp hs
    rw [hf]
    exact t.bounded r hr
  distinct := by
    have hkeys : (t.rows.map f).map key' = t.rows.map key := by
      rw [List.map_map]
      exact List.map_congr_left (fun r _ => hf r)
    rw [hkeys]
    exact t.distinct

theorem map_insert {σ : Type} {key' : σ → Nat} (t : Table ρ key) {f : ρ → σ}
    (hf : ∀ r, key' (f r) = key r) (mk : Nat → ρ) (hmk : ∀ n, key (mk n) = n) :
    (t.insert mk hmk).map f hf
      = (t.map f hf).insert (fun n => f (mk n)) (fun n => (hf _).trans (hmk n)) := by
  simp [map, insert]

theorem map_modify {σ : Type} {key' : σ → Nat} (t : Table ρ key) {f : ρ → σ}
    (hf : ∀ r, key' (f r) = key r) (id : Nat) {g : ρ → ρ} (hg : ∀ r, key (g r) = key r)
    {g' : σ → σ} (hg' : ∀ s, key' (g' s) = key' s) (hcomm : ∀ r, f (g r) = g' (f r)) :
    (t.modify id g hg).map f hf = (t.map f hf).modify id g' hg' := by
  simp only [map, modify, List.map_map, mk.injEq, and_true]
  apply List.map_congr_left
  intro r _
  show f (if key r = id then g r else r) = if key' (f r) = id then g' (f r) else f r
  rw [hf]
  split
  · exact hcomm r
  · rfl

end Table
