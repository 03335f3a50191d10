/-
Systems of atomic steps, and what holds along their runs.

A `Machine` has states to start in and, for every action, a partial step: the
action is possible in a state when the step is defined there.  The interleaving
of several tasks is one machine whose actions are the atomic steps of all of
them, so a run is any order of steps.

Runs are taken under a condition `C` on the state and the action: every step of
the run met it before it was taken.  `anything` excludes no step.  The two
kinds of result are `Always C P`, that `P` holds in every state that a run
reaches, and `Along C R`, that `R` relates every state of a run to every later
one.  Both come from an invariant that a single step keeps.
-/

/-- A system of atomic steps. -/
structure Machine (S A : Type) where
  Start : S → Prop
  step : S → A → Option S

namespace Machine

variable {S A : Type} (M : Machine S A) (C : S → A → Prop)

/-- A run from one state to another, all of whose steps meet the condition. -/
inductive Run : S → S → Prop where
  | refl (s : S) : Run s s
  | next {s t u : S} {a : A} : Run s t → C t a → M.step t a = some u → Run s u

/-- The states that runs from a start reach. -/
def Reach (s : S) : Prop := ∃ s₀, M.Start s₀ ∧ M.Run C s₀ s

/-- `P` holds in every state reached. -/
def Always (P : S → Prop) : Prop := ∀ s, M.Reach C s → P s

/-- `R` relates every state reached to every state that a run goes on to. -/
def Along (R : S → S → Prop) : Prop := ∀ s t, M.Reach C s → M.Run C s t → R s t

/-- The condition that every step meets. -/
def anything : S → A → Prop := fun _ _ => True

/-- An invariant that holds at the start and that every step keeps. -/
structure Inductive (I : S → Prop) : Prop where
  start : ∀ s, M.Start s → I s
  step : ∀ s a t, I s → C s a → M.step s a = some t → I t

variable {M C}

/-! ## Composing runs -/

theorem Run.trans {s t u : S} (h₁ : M.Run C s t) (h₂ : M.Run C t u) : M.Run C s u := by
  induction h₂ with
  | refl => exact h₁
  | next _ hc hs ih => exact .next ih hc hs

theorem Reach.trans {s t : S} (hs : M.Reach C s) (h : M.Run C s t) : M.Reach C t := by
  obtain ⟨s₀, hstart, hrun⟩ := hs
  exact ⟨s₀, hstart, hrun.trans h⟩

theorem Reach.next {s t : S} {a : A} (hs : M.Reach C s) (hc : C s a) (h : M.step s a = some t) :
    M.Reach C t :=
  hs.trans (.next (.refl s) hc h)

/-! ## Invariants -/

namespace Inductive

variable {I J : S → Prop}

theorem run (h : M.Inductive C I) {s t : S} (hs : I s) (hrun : M.Run C s t) : I t := by
  induction hrun with
  | refl => exact hs
  | next _ hc hstep ih => exact h.step _ _ _ ih hc hstep

theorem reach (h : M.Inductive C I) {s : S} (hs : M.Reach C s) : I s := by
  obtain ⟨s₀, hstart, hrun⟩ := hs
  exact h.run (h.start s₀ hstart) hrun

theorem always (h : M.Inductive C I) {P : S → Prop} (hP : ∀ s, I s → P s) : M.Always C P :=
  fun s hs => hP s (h.reach hs)

/-- A second invariant may use the first one in its step. -/
theorem and (h : M.Inductive C I) (hstart : ∀ s, M.Start s → J s)
    (hstep : ∀ s a t, I s → J s → C s a → M.step s a = some t → J t) :
    M.Inductive C (fun s => I s ∧ J s) where
  start s hs := ⟨h.start s hs, hstart s hs⟩
  step s a t hs hc ht := ⟨h.step s a t hs.1 hc ht, hstep s a t hs.1 hs.2 hc ht⟩

/-- An invariant under a weaker condition is one under a stronger condition. -/
theorem restrict {D : S → A → Prop} (h : M.Inductive C I) (hD : ∀ s a, D s a → C s a) :
    M.Inductive D I where
  start := h.start
  step s a t hs hd ht := h.step s a t hs (hD s a hd) ht

/-- What relates the two ends of each step, and is a preorder, relates the two
ends of a run. -/
theorem along (h : M.Inductive C I) {R : S → S → Prop} (hrefl : ∀ s, R s s)
    (htrans : ∀ s t u, R s t → R t u → R s u)
    (hstep : ∀ s a t, I s → C s a → M.step s a = some t → R s t) : M.Along C R := by
  intro s t hs hrun
  induction hrun with
  | refl => exact hrefl _
  | next hr hc ht ih => exact htrans _ _ _ ih (hstep _ _ _ (h.reach (hs.trans hr)) hc ht)

/-- Where an invariant of the runs under `C` makes every step meet `D`, those
runs are runs under `D`. -/
theorem meets {D : S → A → Prop} (h : M.Inductive C I)
    (hD : ∀ s a t, I s → C s a → M.step s a = some t → D s a) {s t : S} (hs : I s)
    (hrun : M.Run C s t) : M.Run D s t := by
  induction hrun with
  | refl => exact .refl _
  | next hr hc ht ih => exact .next ih (hD _ _ _ (h.run hs hr) hc ht) ht

end Inductive

/-! ## Execution -/

variable (M) in
/-- The state after a list of actions, when each of them is possible in turn. -/
def exec : S → List A → Option S
  | s, [] => some s
  | s, a :: as => (M.step s a).bind (fun t => exec t as)

theorem exec_append_eq (s : S) (as bs : List A) :
    M.exec s (as ++ bs) = (M.exec s as).bind (fun t => M.exec t bs) := by
  induction as generalizing s with
  | nil => rfl
  | cons a as ih =>
    rw [List.cons_append, exec, exec, Option.bind_assoc]
    exact Option.bind_congr (fun t _ => ih t)

theorem exec_append {s t u : S} {as bs : List A} (ht : M.exec s as = some t)
    (hu : M.exec t bs = some u) : M.exec s (as ++ bs) = some u := by
  rw [exec_append_eq, ht]
  exact hu

/-- The last action of an execution. -/
theorem step_of_exec {s t u : S} {as : List A} {a : A} (ht : M.exec s as = some t)
    (hu : M.exec s (as ++ [a]) = some u) : M.step t a = some u := by
  rw [exec_append_eq, ht, Option.bind_some, exec] at hu
  obtain ⟨v, hv, hlast⟩ := Option.bind_eq_some_iff.mp hu
  exact hv.trans hlast

/-- A condition that holds of every step of an execution. -/
def Meets (M : Machine S A) (C : S → A → Prop) : S → List A → Prop
  | _, [] => True
  | s, a :: as => C s a ∧ ∀ t, M.step s a = some t → Meets M C t as

theorem run_of_exec {s t : S} {as : List A} (hc : M.Meets C s as) (h : M.exec s as = some t) :
    M.Run C s t := by
  induction as generalizing s with
  | nil =>
    rw [exec, Option.some.injEq] at h
    exact h ▸ .refl s
  | cons a as ih =>
    obtain ⟨u, hu, h⟩ := Option.bind_eq_some_iff.mp h
    exact Run.trans (.next (.refl s) hc.1 hu) (ih (hc.2 u hu) h)

/-- A condition that the actions meet in every state. -/
theorem meets_of_forall {s : S} {as : List A} (h : ∀ a ∈ as, ∀ s, C s a) : M.Meets C s as := by
  induction as generalizing s with
  | nil => exact trivial
  | cons a as ih =>
    refine ⟨h a List.mem_cons_self s, ?_⟩
    intro t _
    exact ih (fun b hb => h b (List.mem_cons_of_mem a hb))

theorem Meets.append {s t : S} {as bs : List A} (hs : M.Meets C s as) (h : M.exec s as = some t)
    (ht : M.Meets C t bs) : M.Meets C s (as ++ bs) := by
  induction as generalizing s with
  | nil =>
    rw [Option.some.inj h]
    exact ht
  | cons a as ih =>
    obtain ⟨u, hu, hrest⟩ := Option.bind_eq_some_iff.mp h
    refine ⟨hs.1, fun v hv => ?_⟩
    rw [hu, Option.some.injEq] at hv
    exact hv ▸ ih (hs.2 u hu) hrest

theorem Meets.cons {s t : S} {a : A} {as : List A} (hc : C s a) (h : M.step s a = some t)
    (ht : M.Meets C t as) : M.Meets C s (a :: as) :=
  ⟨hc, fun _ hu => Option.some.inj (h.symm.trans hu) ▸ ht⟩

theorem reach_of_meets {s t : S} {as : List A} (hs : M.Start s) (hc : M.Meets C s as)
    (h : M.exec s as = some t) : M.Reach C t :=
  ⟨s, hs, run_of_exec hc h⟩

theorem reach_of_exec {s t : S} {as : List A} (hs : M.Start s) (h : M.exec s as = some t) :
    M.Reach anything t :=
  reach_of_meets hs (meets_of_forall (fun _ _ _ => trivial)) h

theorem Reach.exec {s t : S} {as : List A} (hs : M.Reach anything s)
    (h : M.exec s as = some t) : M.Reach anything t :=
  hs.trans (run_of_exec (meets_of_forall (fun _ _ _ => trivial)) h)

end Machine
