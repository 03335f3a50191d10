/-
Total correctness of programs that run against a script.

A `Triple` says nothing of a program that goes on for ever.  `Total` counts the
answers: a program returns before it has taken more than `n` of them, or its
script was shorter than that.  The count adds up over a composition, and over a
loop it is bounded by a measure that falls from round to round.
-/
import GreenRelay.Lib.Scripted

namespace Scripted

/-- From a state in `P`, where the environment keeps to the monitor, `p` returns
with at most `n` answers and leaves the state in `Q`.  Where its script ends
before that the state is in `C`. -/
def Total {A E S α : Type} (M : Monitor E S) (P : S → Prop) (n : Nat) (p : Prog A E α)
    (Q : α → S → Prop) (C : S → Prop) : Prop :=
  ∀ script s s', P s → M.Path s (p script).trace s' →
    match (p script).outcome with
    | .done a => Q a s' ∧ script.length ≤ (p script).rest.length + n
    | .failed => False
    | .cut => C s' ∧ script.length < n

section Rules

variable {A E S α β σ : Type} {M : Monitor E S} {P P' J : S → Prop} {C : S → Prop}
  {Q T : α → S → Prop} {n k : Nat}

theorem total_pure {a : α} (h : ∀ s, P s → Q a s) : Total M P n (pure a : Prog A E α) Q C := by
  intro script s s' hs hpath
  obtain rfl : s = s' := hpath
  exact ⟨h s hs, Nat.le_add_right _ _⟩

theorem total_emit {e : E} {Q : Unit → S → Prop} (h : ∀ s s', P s → M.step s e s' → Q () s') :
    Total M P n (emit e : Prog A E Unit) Q C := by
  intro script s s' hs hpath
  obtain ⟨m, hm, rfl⟩ := hpath
  exact ⟨h s m hs hm, Nat.le_add_right _ _⟩

theorem total_perform {event : A → E} {result : A → Option α} (hcut : ∀ s, P s → C s)
    (h : ∀ a s s', P s → M.step s (event a) s' → ∃ v, result a = some v ∧ Q v s') :
    Total M P 1 (perform event result) Q C := by
  intro script s s' hs hpath
  cases script with
  | nil =>
    obtain rfl : s = s' := hpath
    exact ⟨hcut s hs, Nat.one_pos⟩
  | cons a rest =>
    have hevent : (perform event result (a :: rest)).trace = [event a] := by
      rw [perform]
      cases result a <;> rfl
    rw [hevent] at hpath
    obtain ⟨m, hm, rfl⟩ := hpath
    obtain ⟨v, hv, hQ⟩ := h a s m hs hm
    simp only [perform, hv]
    exact ⟨hQ, Nat.le_refl _⟩

theorem total_bind {p : Prog A E α} {q : α → Prog A E β} {Q : β → S → Prop}
    (hp : Total M P n p T C) (hq : ∀ a, Total M (T a) k (q a) Q C) :
    Total M P (n + k) (p >>= q) Q C := by
  intro script s s' hs hpath
  have hfirst := hp script s
  rcases run_bind_cases p q script with
    ⟨a, rest, t, hrun, hbind⟩ | ⟨rest, t, hrun, hbind⟩ | ⟨rest, t, hrun, hbind⟩ <;>
    rw [hrun] at hfirst <;> rw [hbind] at hpath ⊢
  · obtain ⟨m, hm, hm'⟩ := M.path_append.mp hpath
    obtain ⟨hT, htaken⟩ := hfirst m hs hm
    have hsecond := hq a rest m s' hT hm'
    simp only at htaken ⊢
    cases hr : (q a rest).outcome with
    | done b =>
      rw [hr] at hsecond
      exact ⟨hsecond.1, by have := hsecond.2; omega⟩
    | failed =>
      rw [hr] at hsecond
      exact hsecond
    | cut =>
      rw [hr] at hsecond
      exact ⟨hsecond.1, by have := hsecond.2; omega⟩
  · exact hfirst s' hs hpath
  · obtain ⟨hC, hlt⟩ := hfirst s' hs hpath
    exact ⟨hC, Nat.lt_of_lt_of_le hlt (Nat.le_add_right n k)⟩

theorem total_conseq {p : Prog A E α} (h : Total M P' n p T C) (hn : n ≤ k) (hP : ∀ s, P s → P' s)
    (hQ : ∀ a s, T a s → Q a s) : Total M P k p Q C := by
  intro script s s' hs hpath
  have hrun := h script s s' (hP s hs) hpath
  cases hr : (p script).outcome with
  | done a =>
    rw [hr] at hrun
    exact ⟨hQ a s' hrun.1, by have := hrun.2; omega⟩
  | failed =>
    rw [hr] at hrun
    exact hrun
  | cut =>
    rw [hr] at hrun
    exact ⟨hrun.1, by have := hrun.2; omega⟩

theorem total_pre {p : Prog A E α} (h : Total M P' n p Q C) (hP : ∀ s, P s → P' s) :
    Total M P n p Q C :=
  total_conseq h (Nat.le_refl n) hP (fun _ _ h => h)

theorem total_post {p : Prog A E α} (h : Total M P n p T C) (hQ : ∀ a s, T a s → Q a s) :
    Total M P n p Q C :=
  total_conseq h (Nat.le_refl n) (fun _ h => h) hQ

theorem total_mono {p : Prog A E α} (h : Total M P n p Q C) (hn : n ≤ k) : Total M P k p Q C :=
  total_conseq h hn (fun _ h => h) (fun _ _ h => h)

/-- A precondition is shown state by state. -/
theorem total_of_forall {p : Prog A E α} (h : ∀ s₀, P s₀ → Total M (fun s => s = s₀) n p Q C) :
    Total M P n p Q C := by
  intro script s s' hs
  exact h s hs script s s' rfl

/-- The rule of the loop.  `I` is the invariant at the head, and a round that goes
on lowers the measure. -/
theorem total_iterate {body : σ → Prog A E (σ ⊕ β)} (hbody : Advances body) {I : σ → S → Prop}
    {Q : β → S → Prop} (μ : σ → S → Nat)
    (h : ∀ x s₀, I x s₀ → Total M (fun s => s = s₀) n (body x)
      (fun r s => match r with
        | .inl y => I y s ∧ μ y s < μ x s₀
        | .inr b => Q b s) C) (bound : Nat) (x : σ) :
    Total M (fun s => I x s ∧ μ x s < bound) (bound * n) (iterate body x) Q C := by
  induction bound generalizing x with
  | zero =>
    intro script s s' hs
    exact absurd hs.2 (Nat.not_lt_zero _)
  | succ bound ih =>
    refine total_of_forall (fun s₀ hs₀ => ?_)
    have hround : Total M (fun s => s = s₀) (n + bound * n) (iterate body x) Q C := by
      rw [iterate_eq hbody]
      refine total_bind (h x s₀ hs₀.1) (fun r => ?_)
      cases r with
      | inl y => exact total_pre (ih y) (fun s hs => ⟨hs.1, by have := hs.2; omega⟩)
      | inr b => exact total_pure (fun _ hb => hb)
    exact total_mono hround (Nat.le_of_eq (by rw [Nat.succ_mul, Nat.add_comm]))

/-- What every step of the environment keeps holds at the end. -/
theorem total_kept {p : Prog A E α} (hJ : ∀ s e s', J s → M.step s e s' → J s')
    (h : Total M P n p Q C) : Total M (fun s => P s ∧ J s) n p (fun a s => Q a s ∧ J s) C := by
  have hpath : ∀ t s s', J s → M.Path s t s' → J s' := by
    intro t
    induction t with
    | nil =>
      intro s s' hs heq
      obtain rfl : s = s' := heq
      exact hs
    | cons e t ih =>
      intro s s' hs hpath
      obtain ⟨m, hm, hrest⟩ := hpath
      exact ih m s' (hJ s e m hs hm) hrest
  intro script s s' hs hp
  have hrun := h script s s' hs.1 hp
  cases hr : (p script).outcome with
  | done a =>
    rw [hr] at hrun
    exact ⟨⟨hrun.1, hpath _ s s' hs.2 hp⟩, hrun.2⟩
  | failed =>
    rw [hr] at hrun
    exact hrun
  | cut =>
    rw [hr] at hrun
    exact hrun

end Rules

end Scripted
