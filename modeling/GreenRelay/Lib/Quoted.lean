/-
Cutting a list at the separators that stand outside quotes.

A separator stands outside quotes when an even number of quotes comes before it.
`Cut s fs` says that the fields `fs` are what lies between these separators of
`s`.  A list has one such cut at most, so a list of fields is recovered from its
join as soon as each field is closed and keeps its own separators in quotes.
-/
import Mathlib.Data.List.Basic
import Mathlib.Data.Nat.Basic

namespace Quoted

variable {α : Type*}

/-! ## Joining -/

theorem intercalate_append_cons (sep : List α) (before : List (List α)) (f : List α)
    (after : List (List α)) : sep.intercalate (before ++ f :: after) =
      before.flatMap (fun g => g ++ sep) ++ sep.intercalate (f :: after) := by
  induction before with
  | nil => rfl
  | cons g before ih =>
    rw [List.cons_append, List.intercalate_cons_of_ne_nil (by simp), ih, List.flatMap_cons,
      List.append_assoc, List.append_assoc, List.append_assoc]

theorem intercalate_append_left (sep a f : List α) (after : List (List α)) :
    sep.intercalate ((a ++ f) :: after) = a ++ sep.intercalate (f :: after) := by
  cases after with
  | nil => simp
  | cons g after => simp [List.append_assoc]

/-! ## Fields -/

variable [DecidableEq α] (quote sep : α)

/-- A quote is open at the end of the list. -/
def Open (s : List α) : Prop := s.count quote % 2 = 1

instance instDecidableOpen (s : List α) : Decidable (Open quote s) :=
  inferInstanceAs (Decidable (s.count quote % 2 = 1))

/-- Every separator in the field is in quotes. -/
def Solid (f : List α) : Prop := ∀ a b, f = a ++ sep :: b → Open quote a

inductive Cut : List α → List (List α) → Prop
  | last {f : List α} (solid : Solid quote sep f) : Cut f [f]
  | field {f s : List α} {fs : List (List α)} (solid : Solid quote sep f)
      (closed : ¬ Open quote f) (rest : Cut s fs) : Cut (f ++ sep :: s) (f :: fs)

variable {quote sep}

/-! ## Open quotes -/

theorem open_nil : ¬ Open quote ([] : List α) := by simp [Open]

theorem open_quote (s : List α) : Open quote (s ++ [quote]) ↔ ¬ Open quote s := by
  simp only [Open, List.count_append, List.count_singleton_self]
  omega

theorem open_other {c : α} (h : c ≠ quote) (s : List α) :
    Open quote (s ++ [c]) ↔ Open quote s := by
  simp [Open, List.count_append, h]

/-- A closed beginning does not matter. -/
theorem open_append {s : List α} (h : ¬ Open quote s) (t : List α) :
    Open quote (s ++ t) ↔ Open quote t := by
  unfold Open at h ⊢
  rw [List.count_append]
  omega

theorem open_field {f : List α} (hne : sep ≠ quote) (h : ¬ Open quote f) (t : List α) :
    Open quote (f ++ sep :: t) ↔ Open quote t := by
  rw [← List.singleton_append, ← List.append_assoc]
  exact open_append (fun ho => h ((open_other hne f).mp ho)) t

theorem open_fields {before : List (List α)} (hne : sep ≠ quote)
    (h : ∀ f ∈ before, ¬ Open quote f) (t : List α) :
    Open quote (before.flatMap (fun f => f ++ [sep]) ++ t) ↔ Open quote t := by
  induction before with
  | nil => rfl
  | cons f before ih =>
    have hfields := ih (fun g hg => h g (List.mem_cons_of_mem f hg))
    rw [List.flatMap_cons, List.append_assoc, List.append_assoc, List.singleton_append,
      open_field hne (h f List.mem_cons_self), hfields]

/-! ## Solid fields -/

theorem solid_nil : Solid quote sep ([] : List α) := by
  intro a b h
  cases a <;> cases h

/-- A field stays solid when it grows by anything but a separator outside
quotes. -/
theorem solid_snoc {f : List α} {c : α} (hf : Solid quote sep f) (hc : c = sep → Open quote f) :
    Solid quote sep (f ++ [c]) := by
  intro a b h
  rcases List.eq_nil_or_concat b with hb | ⟨b', d, hb⟩
  · subst hb
    obtain ⟨ha, hsep⟩ := List.append_inj' h rfl
    subst ha
    exact hc (List.singleton_inj.mp hsep)
  · subst hb
    refine hf a b' ?_
    have h' : f ++ [c] = (a ++ sep :: b') ++ [d] := by simpa using h
    exact (List.append_inj' h' rfl).1

/-! ## The cut -/

theorem Cut.ne_nil {s : List α} {fs : List (List α)} (h : Cut quote sep s fs) : fs ≠ [] := by
  cases h <;> exact List.cons_ne_nil _ _

/-- Nothing is lost. -/
theorem Cut.joined {s : List α} {fs : List (List α)} (h : Cut quote sep s fs) :
    [sep].intercalate fs = s := by
  induction h with
  | last _ => exact List.intercalate_singleton
  | @field f s fs _ _ hrest ih =>
    rw [List.intercalate_cons_of_ne_nil hrest.ne_nil, ih, List.append_assoc, List.singleton_append]

/-- The fields of a list are determined. -/
theorem Cut.unique {s : List α} {fs gs : List (List α)} (hf : Cut quote sep s fs)
    (hg : Cut quote sep s gs) : fs = gs := by
  -- A field that ended sooner than the other would leave the other a separator
  -- outside quotes.
  induction hf generalizing gs with
  | @last f hsolid =>
    cases hg with
    | last _ => rfl
    | field _ hclosed _ => exact absurd (hsolid _ _ rfl) hclosed
  | @field f s fs hsolid hclosed hrest ih =>
    generalize hs : f ++ sep :: s = whole at hg
    cases hg with
    | last hsolid' => exact absurd (hsolid' f s hs.symm) hclosed
    | @field g t gs hsolid' hclosed' hrest' =>
      rcases List.append_eq_append_iff.mp hs with ⟨m, hm, htail⟩ | ⟨m, hm, htail⟩
      · cases m with
        | nil =>
          obtain rfl : g = f := by simpa using hm
          obtain rfl : s = t := (List.cons.inj htail).2
          rw [ih hrest']
        | cons d m =>
          obtain ⟨rfl, -⟩ := List.cons.inj htail
          exact absurd (hsolid' f m hm) hclosed
      · cases m with
        | nil =>
          obtain rfl : f = g := by simpa using hm
          obtain rfl : t = s := (List.cons.inj htail).2
          rw [ih hrest']
        | cons d m =>
          obtain ⟨rfl, -⟩ := List.cons.inj htail
          exact absurd (hsolid g m hm) hclosed'

/-- The join of closed and solid fields is cut into these fields. -/
theorem cut_intercalate {fs : List (List α)} (hne : fs ≠ [])
    (h : ∀ f ∈ fs, ¬ Open quote f ∧ Solid quote sep f) :
    Cut quote sep ([sep].intercalate fs) fs := by
  induction fs with
  | nil => exact absurd rfl hne
  | cons f fs ih =>
    obtain ⟨hclosed, hsolid⟩ := h f List.mem_cons_self
    by_cases hfs : fs = []
    · subst hfs
      rw [List.intercalate_singleton]
      exact .last hsolid
    · have hrest := ih hfs (fun g hg => h g (List.mem_cons_of_mem f hg))
      rw [List.intercalate_cons_of_ne_nil hfs, List.append_assoc, List.singleton_append]
      exact .field hsolid hclosed hrest

theorem Cut.closed_before {s f : List α} {before after : List (List α)}
    (h : Cut quote sep s (before ++ f :: after)) : ∀ g ∈ before, ¬ Open quote g := by
  induction before generalizing s with
  | nil => exact fun g hg => absurd hg List.not_mem_nil
  | cons g before ih =>
    rw [List.cons_append] at h
    generalize hfs : before ++ f :: after = fs at h
    cases h with
    | last _ => simp at hfs
    | field _ hclosed hrest =>
      rw [← hfs] at hrest
      exact List.forall_mem_cons.mpr ⟨hclosed, ih hrest⟩

theorem Cut.solid {s : List α} {fs : List (List α)} (h : Cut quote sep s fs) :
    ∀ f ∈ fs, Solid quote sep f := by
  induction h with
  | last hsolid => exact List.forall_mem_singleton.mpr hsolid
  | field hsolid _ _ ih => exact List.forall_mem_cons.mpr ⟨hsolid, ih⟩

/-- A separator that stays inside a field stands in quotes in the whole list
too. -/
theorem Cut.inside {s a b : List α} {before after : List (List α)} (hne : sep ≠ quote)
    (h : Cut quote sep s (before ++ (a ++ sep :: b) :: after)) :
    ∃ rest, s = before.flatMap (fun g => g ++ [sep]) ++ a ++ sep :: rest ∧
      Open quote (before.flatMap (fun g => g ++ [sep]) ++ a) := by
  refine ⟨[sep].intercalate (b :: after), ?_, ?_⟩
  · rw [← h.joined, intercalate_append_cons, intercalate_append_left,
      List.intercalate_cons_cons_left, List.append_assoc]
  · rw [open_fields hne h.closed_before]
    exact h.solid _ (by simp) a b rfl

/-! ## Counting the fields -/

/-- A separator stands at position `i`, outside quotes. -/
def Outside (quote sep : α) (s : List α) (i : Nat) : Prop :=
  s[i]? = some sep ∧ ¬ Open quote (s.take i)

instance instDecidableOutside (quote sep : α) (s : List α) (i : Nat) :
    Decidable (Outside quote sep s i) :=
  inferInstanceAs (Decidable (s[i]? = some sep ∧ ¬ Open quote (s.take i)))

theorem solid_iff {f : List α} : Solid quote sep f ↔ ∀ i, ¬ Outside quote sep f i := by
  constructor
  · intro h i hi
    obtain ⟨hlt, hget⟩ := List.getElem?_eq_some_iff.mp hi.1
    refine hi.2 (h (f.take i) (f.drop (i + 1)) ?_)
    rw [← hget, List.getElem_cons_drop, List.take_append_drop]
  · intro h a b heq
    by_contra hopen
    exact h a.length ⟨by simp [heq], by simpa [heq] using hopen⟩

def outsideCount (quote sep : α) (s : List α) : Nat :=
  (List.range s.length).countP (fun i => Outside quote sep s i)

theorem outside_left {f s : List α} {i : Nat} (h : i < f.length) :
    Outside quote sep (f ++ s) i ↔ Outside quote sep f i := by
  rw [Outside, Outside, List.getElem?_append_left h,
    List.take_append_of_le_length (Nat.le_of_lt h)]

theorem outside_at {f s : List α} (h : ¬ Open quote f) :
    Outside quote sep (f ++ sep :: s) f.length := by
  simpa [Outside] using h

theorem outside_right {f s : List α} (hne : sep ≠ quote) (h : ¬ Open quote f) (j : Nat) :
    Outside quote sep (f ++ sep :: s) (f.length + (1 + j)) ↔ Outside quote sep s j := by
  have hget : (f ++ sep :: s)[f.length + (1 + j)]? = s[j]? := by
    rw [List.getElem?_append_right (Nat.le_add_right _ _), Nat.add_sub_cancel_left,
      Nat.add_comm, List.getElem?_cons_succ]
  have htake : (f ++ sep :: s).take (f.length + (1 + j)) = f ++ sep :: s.take j := by
    rw [List.take_length_add_append, Nat.add_comm, List.take_succ_cons]
  rw [Outside, Outside, hget, htake, open_field hne h]

theorem outsideCount_solid {f : List α} (h : Solid quote sep f) : outsideCount quote sep f = 0 :=
  List.countP_eq_zero.mpr (fun i _ hi => solid_iff.mp h i (of_decide_eq_true hi))

theorem outsideCount_field {f s : List α} (hne : sep ≠ quote) (hsolid : Solid quote sep f)
    (hclosed : ¬ Open quote f) :
    outsideCount quote sep (f ++ sep :: s) = outsideCount quote sep s + 1 := by
  have hlength : (f ++ sep :: s).length = f.length + (1 + s.length) := by
    simp [Nat.add_comm]
  have hleft : (List.range f.length).countP (fun i => Outside quote sep (f ++ sep :: s) i) = 0 :=
    List.countP_eq_zero.mpr (fun i hi ho => solid_iff.mp hsolid i
      ((outside_left (List.mem_range.mp hi)).mp (of_decide_eq_true ho)))
  have hright : ((List.range s.length).map (fun j => f.length + (1 + j))).countP
      (fun i => Outside quote sep (f ++ sep :: s) i) = outsideCount quote sep s := by
    rw [List.countP_map, outsideCount]
    exact List.countP_congr (fun j _ => by simp [outside_right hne hclosed])
  have hat : Outside quote sep (f ++ sep :: s) f.length := outside_at hclosed
  rw [outsideCount, hlength, List.range_add, List.range_add, List.map_append, List.map_map,
    List.countP_append, List.countP_append, hleft]
  simp only [Function.comp_def] at hright ⊢
  rw [hright]
  simp [hat, Nat.add_comm]

/-- There is one field more than there are separators outside quotes. -/
theorem Cut.length_eq {s : List α} {fs : List (List α)} (hne : sep ≠ quote)
    (h : Cut quote sep s fs) : fs.length = outsideCount quote sep s + 1 := by
  induction h with
  | last hsolid => rw [outsideCount_solid hsolid]; rfl
  | field hsolid hclosed _ ih => rw [outsideCount_field hne hsolid hclosed, List.length_cons, ih]

end Quoted
