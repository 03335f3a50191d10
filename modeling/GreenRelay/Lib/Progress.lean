/-
Machines that come to rest.

Some actions of a machine are work: they use up something that was there before.
A machine drains when a number goes down with every piece of work, in the states
of an invariant.  Then no run of work alone goes on for longer than that number,
and every such run can be continued to a state in which no work is left.
-/
import GreenRelay.Lib.Machine

namespace Machine

variable {S A : Type}

/-- Work keeps `I` and lowers `load`. -/
structure Drains (M : Machine S A) (I : S → Prop) (work : A → Prop) (load : S → Nat) : Prop where
  keep : ∀ s a t, I s → work a → M.step s a = some t → I t
  lower : ∀ s a t, I s → work a → M.step s a = some t → load t < load s

/-- No work is possible. -/
def AtRest (M : Machine S A) (work : A → Prop) (s : S) : Prop := ∀ a, work a → M.step s a = none

namespace Drains

variable {M : Machine S A} {I : S → Prop} {work : A → Prop} {load : S → Nat} {s t : S} {as : List A}

theorem exec (h : M.Drains I work load) (hs : I s) (hwork : ∀ a ∈ as, work a)
    (ht : M.exec s as = some t) : I t ∧ as.length + load t ≤ load s := by
  induction as generalizing s with
  | nil =>
    rw [Option.some.inj ht]
    rw [Machine.exec, Option.some.injEq] at ht
    exact ⟨ht ▸ hs, by simp⟩
  | cons a as ih =>
    obtain ⟨u, hu, hrest⟩ := Option.bind_eq_some_iff.mp ht
    have ha : work a := hwork a List.mem_cons_self
    have hlower := h.lower s a u hs ha hu
    obtain ⟨hI, hle⟩ := ih (h.keep s a u hs ha hu)
      (fun b hb => hwork b (List.mem_cons_of_mem a hb)) hrest
    refine ⟨hI, ?_⟩
    rw [List.length_cons]
    omega

/-- What else work keeps may be added to the invariant. -/
theorem restrict {J : S → Prop} (h : M.Drains I work load)
    (hJ : ∀ s a t, I s → J s → work a → M.step s a = some t → J t) :
    M.Drains (fun s => I s ∧ J s) work load where
  keep s a t hs ha ht := ⟨h.keep s a t hs.1 ha ht, hJ s a t hs.1 hs.2 ha ht⟩
  lower s a t hs := h.lower s a t hs.1

/-- A part of the work drains as well. -/
theorem mono {part : A → Prop} (h : M.Drains I work load) (hpart : ∀ a, part a → work a) :
    M.Drains I part load where
  keep s a t hs ha ht := h.keep s a t hs (hpart a ha) ht
  lower s a t hs ha ht := h.lower s a t hs (hpart a ha) ht

/-- Work alone leads to rest. -/
theorem exists_atRest (h : M.Drains I work load) (hs : I s) :
    ∃ as t, (∀ a ∈ as, work a) ∧ M.exec s as = some t ∧ M.AtRest work t := by
  induction hn : load s using Nat.strongRecOn generalizing s with
  | ind n ih =>
    by_cases hmore : ∃ a u, work a ∧ M.step s a = some u
    · obtain ⟨a, u, ha, hu⟩ := hmore
      have hlower := h.lower s a u hs ha hu
      obtain ⟨as, t, hwork, ht, hquiet⟩ := ih (load u) (hn ▸ hlower) (h.keep s a u hs ha hu) rfl
      refine ⟨a :: as, t, ?_, ?_, hquiet⟩
      · intro b hb
        rcases List.mem_cons.mp hb with rfl | hb
        · exact ha
        · exact hwork b hb
      · rw [Machine.exec, hu]
        exact ht
    · refine ⟨[], s, (fun a ha => by cases ha), rfl, ?_⟩
      intro a ha
      cases hu : M.step s a with
      | none => rfl
      | some u => exact absurd ⟨a, u, ha, hu⟩ hmore

end Drains

end Machine
