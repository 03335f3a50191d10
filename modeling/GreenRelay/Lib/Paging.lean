/-
A listing that is read page by page while rows are added.

The reader asks for the rows from `0`, from `limit`, from `2 * limit` and so on,
and is done with the first page that is not full.  Every page is of the table as
it stands then.  A row that is added stands somewhere in the order, and moves the
rows behind it back, never forward: what was there at the start has been read or
is still ahead of the reader (`Reading.ahead`).  A row may be read twice; the
entries read are at most as many as the rows there are.
-/
import GreenRelay.Lib.Query
import Mathlib.Data.List.Count
import Mathlib.Data.List.Perm.Subperm

namespace Paging

variable {ρ : Type} {before : ρ → ρ → Bool} {limit : Nat}

/-! ## Positions -/

/-- The order lets distinct rows stand in one way only. -/
structure Ordered (before : ρ → ρ → Bool) (rows : List ρ) : Prop where
  nodup : rows.Nodup
  antisymm : ∀ a ∈ rows, ∀ b ∈ rows, before a b → before b a → a = b

/-- The number of rows in front of `a`. -/
def rank (before : ρ → ρ → Bool) (rows : List ρ) (a : ρ) : Nat :=
  rows.countP (fun b => before b a && !before a b)

theorem Ordered.sublist {rows rows' : List ρ} (h : Ordered before rows')
    (hsub : rows.Sublist rows') :
    Ordered before rows where
  nodup := h.nodup.sublist hsub
  antisymm a ha b hb := h.antisymm a (hsub.subset ha) b (hsub.subset hb)

theorem rank_perm {rows rows' : List ρ} (h : rows.Perm rows') (a : ρ) :
    rank before rows a = rank before rows' a :=
  h.countP_eq _

theorem rank_mono {rows rows' : List ρ} (h : rows.Sublist rows') (a : ρ) :
    rank before rows a ≤ rank before rows' a :=
  h.countP_le

theorem rank_lt_length {rows : List ρ} {a : ρ} (ha : a ∈ rows) :
    rank before rows a < rows.length := by
  rw [rank, List.countP_lt_length_iff]
  refine ⟨a, ha, ?_⟩
  cases before a a <;> rfl

/-- In a sorted list the rank is the index. -/
theorem rank_getElem {sorted : List ρ} (hsorted : sorted.Pairwise (fun a b => before a b))
    (hord : Ordered before sorted) {i : Nat} (hi : i < sorted.length) :
    rank before sorted sorted[i] = i := by
  have hsplit : sorted = sorted.take i ++ sorted[i] :: sorted.drop (i + 1) := by
    rw [List.getElem_cons_drop, List.take_append_drop]
  generalize sorted[i] = a at hsplit ⊢
  have hlength : (sorted.take i).length = i := by
    rw [List.length_take]
    omega
  generalize sorted.take i = front at hsplit hlength
  generalize sorted.drop (i + 1) = rest at hsplit
  subst hsplit
  rw [List.pairwise_append, List.pairwise_cons] at hsorted
  have hfront : front.countP (fun b => before b a && !before a b) = front.length := by
    rw [List.countP_eq_length]
    intro b hb
    have hba := hsorted.2.2 b hb a (List.mem_cons_self ..)
    have hne : b ≠ a := by
      have hdisjoint := List.disjoint_of_nodup_append hord.nodup hb
      intro heq
      exact hdisjoint (heq ▸ List.mem_cons_self ..)
    have hab : ¬ before a b = true := fun hab =>
      hne (hord.antisymm b (List.mem_append_left _ hb) a
        (List.mem_append_right _ (List.mem_cons_self ..)) hba hab)
    simp [hba, hab]
  have hrest : (a :: rest).countP (fun b => before b a && !before a b) = 0 := by
    rw [List.countP_eq_zero]
    intro b hb
    rcases List.mem_cons.mp hb with rfl | hb
    · cases before b b <;> simp
    · simp [hsorted.2.1.1 b hb]
  rw [rank, List.countP_append, hfront, hrest, Nat.add_zero, hlength]

/-! ## Pages -/

/-- `page` holds the rows from `offset` on, `limit` of them where there are so many. -/
def IsPage (before : ρ → ρ → Bool) (limit offset : Nat) (rows page : List ρ) : Prop :=
  ∃ sorted : List ρ, sorted.Perm rows ∧ sorted.Pairwise (fun a b => before a b) ∧
    page = (sorted.drop offset).take limit

theorem IsPage.of_answers {q : Query ρ} {rows page : List ρ} (h : q.Answers rows page)
    (hkeep : ∀ r, q.keep r) (hlimit : 0 ≤ q.limit) :
    IsPage q.before q.limit.toNat q.offset.toNat rows page := by
  obtain ⟨sorted, hperm, hsorted, rfl⟩ := h
  rw [List.filter_eq_self.mpr (fun r _ => hkeep r)] at hperm
  refine ⟨sorted, hperm, hsorted, ?_⟩
  rw [Query.window, if_neg (by omega)]

variable {offset : Nat} {rows page : List ρ}

theorem IsPage.length (h : IsPage before limit offset rows page) :
    page.length = min limit (rows.length - offset) := by
  obtain ⟨sorted, hperm, _, rfl⟩ := h
  rw [List.length_take, List.length_drop, hperm.length_eq]

theorem IsPage.mem (h : IsPage before limit offset rows page) {a : ρ} (ha : a ∈ page) :
    a ∈ rows := by
  obtain ⟨sorted, hperm, _, rfl⟩ := h
  exact hperm.mem_iff.mp (List.mem_of_mem_drop (List.mem_of_mem_take ha))

theorem IsPage.sorted (h : IsPage before limit offset rows page) :
    page.Pairwise (fun a b => before a b) := by
  obtain ⟨sorted, _, hsorted, rfl⟩ := h
  exact hsorted.sublist ((List.take_sublist _ _).trans (List.drop_sublist _ _))

/-- A row whose rank is in the window is on the page. -/
theorem IsPage.mem_of_rank (h : IsPage before limit offset rows page) (hord : Ordered before rows)
    {a : ρ} (ha : a ∈ rows) (hlow : offset ≤ rank before rows a)
    (hhigh : rank before rows a < offset + limit) : a ∈ page := by
  obtain ⟨sorted, hperm, hsorted, rfl⟩ := h
  have hord' : Ordered before sorted :=
    ⟨hperm.nodup_iff.mpr hord.nodup, fun a ha b hb =>
      hord.antisymm a (hperm.mem_iff.mp ha) b (hperm.mem_iff.mp hb)⟩
  obtain ⟨i, hi, rfl⟩ := List.getElem_of_mem (hperm.mem_iff.mpr ha)
  rw [← rank_perm hperm, rank_getElem hsorted hord' hi] at hlow hhigh
  have hget : ((sorted.drop offset).take limit)[i - offset]? = some sorted[i] := by
    rw [List.getElem?_take_of_lt (by omega), List.getElem?_drop, Nat.add_sub_cancel' hlow,
      List.getElem?_eq_getElem hi]
  exact List.mem_of_getElem? hget

/-! ## Readings -/

def Full (limit : Nat) (pages : List (List ρ)) : Prop := ∀ page ∈ pages, page.length = limit

/-- A reading that began with the rows `start`: the rows now, and the pages so far. -/
inductive Reading (before : ρ → ρ → Bool) (limit : Nat) (start : List ρ) :
    List ρ → List (List ρ) → Prop where
  | begins : Reading before limit start start []
  | added {rows rows' : List ρ} {pages : List (List ρ)} :
      Reading before limit start rows pages → rows.Sublist rows' →
      Reading before limit start rows' pages
  | read {rows page : List ρ} {pages : List (List ρ)} :
      Reading before limit start rows pages → Full limit pages →
      IsPage before limit (pages.length * limit) rows page →
      Reading before limit start rows (pages ++ [page])

namespace Reading

variable {start : List ρ} {pages : List (List ρ)}

theorem sublist (h : Reading before limit start rows pages) : start.Sublist rows := by
  induction h with
  | begins => exact List.Sublist.refl _
  | added _ hadded ih => exact ih.trans hadded
  | read _ _ _ ih => exact ih

theorem mem (h : Reading before limit start rows pages) {a : ρ} (ha : a ∈ pages.flatten) :
    a ∈ rows := by
  induction h with
  | begins => simp at ha
  | added _ hadded ih => exact hadded.subset (ih ha)
  | read _ _ hpage ih =>
      rw [List.flatten_append, List.mem_append, List.flatten_singleton] at ha
      exact ha.elim ih hpage.mem

theorem sorted (h : Reading before limit start rows pages) :
    ∀ page ∈ pages, page.Pairwise (fun a b => before a b) := by
  induction h with
  | begins => simp
  | added _ _ ih => exact ih
  | read _ _ hpage ih =>
      intro page hmem
      rcases List.mem_append.mp hmem with hmem | hmem
      · exact ih page hmem
      · rw [List.mem_singleton.mp hmem]
        exact hpage.sorted

theorem full_append {page : List ρ} (hfull : Full limit pages) (hpage : page.length = limit) :
    Full limit (pages ++ [page]) := by
  intro p hp
  rcases List.mem_append.mp hp with hp | hp
  · exact hfull p hp
  · rw [List.mem_singleton.mp hp, hpage]

theorem length_flatten (hfull : Full limit pages) :
    pages.flatten.length = pages.length * limit := by
  induction pages with
  | nil => simp
  | cons page pages ih =>
      rw [List.flatten_cons, List.length_append,
        ih (fun p hp => hfull p (List.mem_cons_of_mem _ hp)),
        hfull page (List.mem_cons_self ..), List.length_cons, Nat.succ_mul, Nat.add_comm]

/-- The entries read are at most as many as the rows. -/
theorem length_le (h : Reading before limit start rows pages) :
    pages.flatten.length ≤ rows.length := by
  induction h with
  | begins => simp
  | added _ hadded ih => exact ih.trans hadded.length_le
  | @read rows page pages _ hfull hpage ih =>
      have hlength := hpage.length
      have hread := length_flatten hfull
      rw [List.flatten_append, List.length_append, List.flatten_singleton]
      omega

/-- A row of the start has been read, or the pages so far are full and it stands behind them. -/
theorem ahead (h : Reading before limit start rows pages) (hord : Ordered before rows) {a : ρ}
    (ha : a ∈ start) :
    a ∈ pages.flatten ∨ (Full limit pages ∧ pages.length * limit ≤ rank before rows a) := by
  induction h with
  | begins => exact Or.inr ⟨by simp [Full], by simp⟩
  | added _ hadded ih =>
      rcases ih (hord.sublist hadded) with hread | ⟨hfull, hrank⟩
      · exact Or.inl hread
      · exact Or.inr ⟨hfull, hrank.trans (rank_mono hadded a)⟩
  | @read rows page pages hreading hfull hpage ih =>
      have hrow : a ∈ rows := hreading.sublist.subset ha
      rw [List.flatten_append, List.mem_append, List.flatten_singleton, List.length_append,
        List.length_singleton, Nat.succ_mul]
      rcases ih hord with hread | ⟨_, hrank⟩
      · exact Or.inl (Or.inl hread)
      · by_cases hhigh : rank before rows a < pages.length * limit + limit
        · exact Or.inl (Or.inr (hpage.mem_of_rank hord hrow hrank hhigh))
        · have hlt : rank before rows a < rows.length := rank_lt_length hrow
          have hlength : page.length = limit := by
            rw [hpage.length]
            omega
          exact Or.inr ⟨full_append hfull hlength, by omega⟩

/-- When a page is not full, every row of the start has been read. -/
theorem covers (h : Reading before limit start rows pages) (hord : Ordered before rows)
    (hdone : ¬ Full limit pages) : ∀ a ∈ start, a ∈ pages.flatten := by
  intro a ha
  rcases h.ahead hord ha with hread | ⟨hfull, _⟩
  · exact hread
  · exact absurd hfull hdone

/-- Where no row was added the pages are one after the other of one sorted list. -/
theorem prefix_of_still (h : Reading before limit start rows pages) (hord : Ordered before rows)
    (hstill : rows.length ≤ start.length) {sorted : List ρ} (hperm : sorted.Perm start)
    (hsorted : sorted.Pairwise (fun a b => before a b)) :
    pages.flatten = sorted.take (pages.length * limit) := by
  induction h with
  | begins => simp
  | added hreading hadded ih =>
      exact ih (hord.sublist hadded) (hadded.length_le.trans hstill)
  | @read rows page pages hreading _ hpage ih =>
      have hsame : start = rows := hreading.sublist.eq_of_length_le hstill
      subst hsame
      obtain ⟨sorted', hperm', hsorted', rfl⟩ := hpage
      have huniq : sorted' = sorted := by
        apply (hperm'.trans hperm.symm).eq_of_pairwise _ hsorted' hsorted
        intro a b ha hb
        exact hord.antisymm a (hperm'.mem_iff.mp ha) b (hperm.mem_iff.mp hb)
      rw [huniq, List.flatten_append, List.flatten_singleton, ih hord hstill, List.length_append,
        List.length_singleton, Nat.succ_mul, List.take_add]

/-- Where no row was added, a reading that is done has read the sorted rows. -/
theorem eq_of_still (h : Reading before limit start rows pages) (hord : Ordered before rows)
    (hdone : ¬ Full limit pages) (hstill : rows.length ≤ start.length) {sorted : List ρ}
    (hperm : sorted.Perm start) (hsorted : sorted.Pairwise (fun a b => before a b)) :
    pages.flatten = sorted := by
  have htake := h.prefix_of_still hord hstill hperm hsorted
  have hsub : pages.flatten.Sublist sorted := by
    rw [htake]
    exact List.take_sublist _ _
  apply hsub.eq_of_length_le
  have hnodup : sorted.Nodup := hperm.nodup_iff.mpr (hord.sublist h.sublist).nodup
  exact (hnodup.subperm (fun a ha => h.covers hord hdone a (hperm.mem_iff.mp ha))).length_le

end Reading

end Paging
