/-
`SELECT` statements over the rows of one table: a condition, an order and a
window.

Rows that the order does not tell apart may come out either way round, so a
statement has answers, not one answer.  `Answers.of_map` moves a statement from
the stored columns to the values that they encode: when the condition and the
order read the same on both sides, an answer about the columns is an answer about
the values.
-/
import Mathlib.Data.List.Perm.Basic
import Mathlib.Data.List.Sort

/-- `before a b`: the order lets `a` stand in front of `b`.  A negative limit is no
limit. -/
structure Query (ρ : Type) where
  keep : ρ → Bool
  before : ρ → ρ → Bool
  limit : Int
  offset : Int

namespace Query

variable {ρ σ : Type}

def window (q : Query ρ) (rows : List σ) : List σ :=
  if q.limit < 0 then rows.drop q.offset.toNat
  else (rows.drop q.offset.toNat).take q.limit.toNat

def Answers (q : Query ρ) (rows out : List ρ) : Prop :=
  ∃ sorted : List ρ, sorted.Perm (rows.filter q.keep) ∧
    sorted.Pairwise (fun a b => q.before a b) ∧ out = q.window sorted

/-- The answer that leaves ties in the order of the table. -/
def run (q : Query ρ) (rows : List ρ) : List ρ :=
  q.window ((rows.filter q.keep).mergeSort q.before)

theorem run_answers (q : Query ρ) (htrans : ∀ a b c, q.before a b → q.before b c → q.before a c)
    (htotal : ∀ a b, q.before a b || q.before b a) (rows : List ρ) : q.Answers rows (q.run rows) :=
  ⟨_, List.mergeSort_perm _ _, List.pairwise_mergeSort htrans htotal _, rfl⟩

theorem mem_window {q : Query ρ} {rows : List σ} {r : σ} (h : r ∈ q.window rows) : r ∈ rows := by
  unfold window at h
  split at h
  · exact List.mem_of_mem_drop h
  · exact List.mem_of_mem_drop (List.mem_of_mem_take h)

theorem Answers.mem {q : Query ρ} {rows out : List ρ} (h : q.Answers rows out) {r : ρ}
    (hr : r ∈ out) : r ∈ rows ∧ q.keep r := by
  obtain ⟨sorted, hperm, _, rfl⟩ := h
  exact List.mem_filter.mp (hperm.mem_iff.mp (mem_window hr))

theorem window_map (q : Query ρ) (f : σ → ρ) (rows : List σ) :
    q.window (rows.map f) = (q.window rows).map f := by
  unfold window
  split
  · rw [List.map_drop]
  · rw [List.map_take, List.map_drop]

/-- A statement about the images of rows is one about the rows. -/
theorem Answers.of_map {q : Query ρ} {q' : Query σ} {f : σ → ρ} {rows : List σ} {out : List ρ}
    (hkeep : ∀ r, q.keep (f r) = q'.keep r) (hbefore : ∀ r s, q.before (f r) (f s) = q'.before r s)
    (hlimit : q.limit = q'.limit) (hoffset : q.offset = q'.offset)
    (h : q.Answers (rows.map f) out) : ∃ out', q'.Answers rows out' ∧ out = out'.map f := by
  obtain ⟨sorted, hperm, hsorted, rfl⟩ := h
  have hfilter : (rows.map f).filter q.keep = (rows.filter q'.keep).map f := by
    rw [List.filter_map]
    congr 1
    exact List.filter_congr (fun r _ => hkeep r)
  rw [hfilter] at hperm
  have hcomp := congrFun (congrFun (List.eq_map_comp_perm f) sorted) (rows.filter q'.keep)
  obtain ⟨sorted', rfl, hperm'⟩ := hcomp.mpr hperm
  have hpairs : sorted'.Pairwise (fun a b => q'.before a b) := by
    rw [List.pairwise_map] at hsorted
    exact hsorted.imp (fun hab => by rwa [← hbefore])
  have hwindow : q.window sorted' = q'.window sorted' := by
    rw [window, window, hlimit, hoffset]
  refine ⟨q'.window sorted', ⟨sorted', hperm', hpairs, rfl⟩, ?_⟩
  rw [window_map, hwindow]

end Query
