/-
Every delivery comes to its end.

`Act.isWork` are the actions that the tasks take by themselves: neither the
clock, nor a new request or cycle, nor the end of the manager or of the reaper.
`State.load` counts the actions that are left for each delivery, each handler,
each request with the manager and each row of the reaper's batch.  Every piece of
work lowers it, and so does a client that goes.  So nothing goes on for ever.  Nothing hangs either:
`Served` says that a task which waits has its request with the manager, that the
reaper is only where it should be, and that it plans only between two cycles,
and from this, work is possible until all of it is done.
-/
import GreenRelay.Lib.Progress
import GreenRelay.Outbound.Terminal
import Mathlib.Algebra.BigOperators.Group.Finset.Basic
import Mathlib.Algebra.Order.BigOperators.Group.Finset

namespace GreenRelay
namespace Outbound

open Modem (SendResult)

def Act.isWork : Act → Prop
  | .clock _ | .prepareSend .. | .dropHandler _ | .close | .tick | .abort => False
  | _ => True

/-- Work, or the drop of a handler, which leaves less of it. -/
def Act.drains (a : Act) : Prop := a.isWork ∨ ∃ id, a = .dropHandler id

/-! ## The load -/

/-- More than the actions that are left of a delivery: a request that is handed
in and a handler that begins to wait bring loads of their own. -/
def Phase.load : Phase → Nat
  | .persisted => 12
  | .submitting => 9
  | .awaiting => 6
  | .answered _ => 5
  | .resolved _ => 4
  | .recorded _ => 3
  | .counted _ => 2
  | .published _ => 1
  | .finished => 0

def Waiter.load : Waiter → Nat
  | .waiting => 2
  | .received _ => 1
  | .absent | .dropped => 0

namespace Tasks

def phaseLoad (t : Tasks) (c : Courier) : Nat := ((t.phase c).map Phase.load).getD 0

/-- The deliveries of the messages below `n`. -/
def deliveryLoad (t : Tasks) (n : Nat) : Nat :=
  Finset.sum (Finset.range n) (fun id => t.phaseLoad (.dispatch id) + t.phaseLoad (.reaper id))

/-- The handlers that wait for the messages below `n`. -/
def waiterLoad (t : Tasks) (n : Nat) : Nat :=
  Finset.sum (Finset.range n) (fun id => (t.waiter id).load)

/-- The rows that the reaper has not come to.  A cycle that is about to query
may find a full batch of them. -/
def planLoad (t : Tasks) : Nat :=
  match t.reaper with
  | some r => (if r.cutoff.isSome then 10 * queuedReapBatch + 1 else 0) + 10 * r.todo.length
  | none => 0

end Tasks

def Manager.load (m : Manager) : Nat :=
  2 * m.callers.length + (if m.handling.isSome then 0 else 1)

def State.load (s : State) : Nat :=
  s.tasks.deliveryLoad (s.table.seq + 1) + s.tasks.waiterLoad (s.table.seq + 1)
    + s.tasks.planLoad + s.manager.load

theorem sum_range_of_ne {f g : Nat → Nat} {n i : Nat} (hi : i < n) (h : ∀ j, j ≠ i → f j = g j) :
    Finset.sum (Finset.range n) f + g i = Finset.sum (Finset.range n) g + f i := by
  have hmem : i ∈ Finset.range n := Finset.mem_range.mpr hi
  have hrest : Finset.sum ((Finset.range n).erase i) f = Finset.sum ((Finset.range n).erase i) g :=
    Finset.sum_congr rfl (fun j hj => h j (Finset.ne_of_mem_erase hj))
  have hsplit : ∀ k : Nat → Nat, k i + Finset.sum ((Finset.range n).erase i) k
      = Finset.sum (Finset.range n) k := fun k => Finset.add_sum_erase (Finset.range n) k hmem
  rw [← hsplit f, ← hsplit g, hrest]
  omega

namespace Tasks

variable {t t' : Tasks} {c : Courier} {p q : Phase} {id n : Nat}

theorem phaseLoad_of_phase (h : t.phase c = some p) : t.phaseLoad c = p.load := by
  rw [phaseLoad, h]
  rfl

theorem phaseLoad_of_none (h : t.phase c = none) : t.phaseLoad c = 0 := by
  rw [phaseLoad, h]
  rfl

/-- Where one courier changes, only its own share of the load does. -/
theorem deliveryLoad_of_ne (t t' : Tasks) (hc : c.id < n)
    (h : ∀ c', c' ≠ c → t'.phaseLoad c' = t.phaseLoad c') :
    t'.deliveryLoad n + t.phaseLoad c = t.deliveryLoad n + t'.phaseLoad c := by
  have hsum := sum_range_of_ne (n := n)
    (f := fun id => t'.phaseLoad (.dispatch id) + t'.phaseLoad (.reaper id))
    (g := fun id => t.phaseLoad (.dispatch id) + t.phaseLoad (.reaper id)) hc
    (fun j hj => by
      rw [h (.dispatch j) (fun e => hj (congrArg Courier.id e)),
        h (.reaper j) (fun e => hj (congrArg Courier.id e))])
  have hrival := h c.rival c.rival_ne
  rw [deliveryLoad, deliveryLoad]
  cases c with
  | dispatch id =>
    simp only [Courier.id, Courier.rival] at hsum hrival
    omega
  | reaper id =>
    simp only [Courier.id, Courier.rival] at hsum hrival
    omega

theorem deliveryLoad_congr (h : ∀ c, t'.phase c = t.phase c) :
    t'.deliveryLoad n = t.deliveryLoad n := by
  simp only [deliveryLoad, phaseLoad, h]

theorem deliveryLoad_moves (h : Moves t t' c p q) (hc : c.id < n) :
    t'.deliveryLoad n + p.load = t.deliveryLoad n + q.load := by
  have hload := deliveryLoad_of_ne t t' hc (fun c' hne => by
    rw [phaseLoad, phaseLoad, h.others c' hne])
  rwa [phaseLoad_of_phase h.before, phaseLoad_of_phase h.after] at hload

theorem deliveryLoad_leaves (h : Leaves t t' id p) (hid : id < n) :
    t'.deliveryLoad n + p.load = t.deliveryLoad n := by
  have hload := deliveryLoad_of_ne t t' (c := .reaper id) hid (by
    intro c' hne
    cases c' with
    | dispatch j => rw [phaseLoad, phaseLoad, h.dispatch]
    | reaper j =>
      rw [phaseLoad_of_none (h.reaper j)]
      cases hj : t.phase (.reaper j) with
      | none => rw [phaseLoad_of_none hj]
      | some x => exact absurd (congrArg Courier.reaper (reaper_unique hj h.before)) hne)
  rwa [phaseLoad_of_phase h.before, phaseLoad_of_none (h.reaper id), Nat.add_zero] at hload

theorem deliveryLoad_forget (hp : t.phase (.dispatch id) = some p) (hid : id < n) :
    (t.forget id).deliveryLoad n + p.load = t.deliveryLoad n := by
  have hload := deliveryLoad_of_ne t (t.forget id) (c := .dispatch id) hid (by
    intro c' hne
    rw [phaseLoad, phaseLoad, phase_forget_of_ne hne])
  rwa [phaseLoad_of_phase hp, phaseLoad_of_none (t.phase_forget_same id), Nat.add_zero] at hload

theorem waiterLoad_forget (t : Tasks) (id : Nat) : (t.forget id).waiterLoad n ≤ t.waiterLoad n := by
  apply Finset.sum_le_sum
  intro j _
  rw [waiter_forget]
  split
  · exact Nat.zero_le _
  · exact Nat.le_refl _

theorem waiterLoad_congr (h : ∀ id, t'.waiter id = t.waiter id) :
    t'.waiterLoad n = t.waiterLoad n := by
  simp only [waiterLoad, h]

theorem waiterLoad_setWaiter (hid : id < n) (w : Waiter) :
    (t.setWaiter id w).waiterLoad n + (t.waiter id).load ≤ t.waiterLoad n + w.load := by
  have hsum := sum_range_of_ne (n := n) (f := fun j => ((t.setWaiter id w).waiter j).load)
    (g := fun j => (t.waiter j).load) hid (fun j hj => by
      rw [setWaiter, waiter_setDispatch, if_neg hj])
  have hle : ((t.setWaiter id w).waiter id).load ≤ w.load := by
    rw [setWaiter, waiter_setDispatch, if_pos rfl]
    cases t.dispatches id with
    | none => exact Nat.zero_le _
    | some d => exact Nat.le_refl _
  rw [waiterLoad, waiterLoad]
  omega

theorem waiterLoad_handOver (hid : id < n) (o : DispatchOutcome) :
    (t.handOver id o).waiterLoad n ≤ t.waiterLoad n := by
  have hsum := sum_range_of_ne (n := n) (f := fun j => ((t.handOver id o).waiter j).load)
    (g := fun j => (t.waiter j).load) hid (fun j hj => by
      rw [handOver, waiter_setDispatch, if_neg hj])
  have hle : ((t.handOver id o).waiter id).load ≤ (t.waiter id).load := by
    rw [handOver, waiter_setDispatch, if_pos rfl, waiter]
    cases t.dispatches id with
    | none => exact Nat.zero_le _
    | some d =>
      rw [Option.map_some, Option.getD_some]
      show (if d.waiter = .waiting then _ else d).waiter.load ≤ d.waiter.load
      by_cases hw : d.waiter = .waiting
      · rw [if_pos hw, hw]
        exact Nat.le_succ 1
      · rw [if_neg hw]
  rw [waiterLoad, waiterLoad]
  omega

theorem planLoad_setReaper {f : Reaper → Reaper} (hcutoff : ∀ r, (f r).cutoff = r.cutoff)
    (htodo : ∀ r, (f r).todo = r.todo) : (t.setReaper f).planLoad = t.planLoad := by
  cases hr : t.reaper <;> simp [setReaper, planLoad, hr, hcutoff, htodo]

@[simp] theorem planLoad_move (t : Tasks) (c : Courier) (p : Phase) :
    (t.move c p).planLoad = t.planLoad := by
  cases c with
  | dispatch id => rfl
  | reaper id => exact planLoad_setReaper (fun _ => rfl) (fun _ => rfl)

@[simp] theorem planLoad_leaveCurrent (t : Tasks) : t.leaveCurrent.planLoad = t.planLoad :=
  planLoad_setReaper (fun _ => rfl) (fun _ => rfl)

@[simp] theorem planLoad_deliver (t : Tasks) (c : Courier) (r : SendResult) :
    (t.deliver c r).planLoad = t.planLoad := by
  rw [deliver]
  split
  · exact t.planLoad_move c _
  · rfl

end Tasks

/-! ## The invariant -/

/-- Where the reaper can be with a row. -/
def Phase.ofReaper : Phase → Bool
  | .submitting | .awaiting | .answered _ | .resolved _ | .recorded _ => true
  | _ => false

/-- A reaper that is about to query is at no row and has none to come to. -/
def Tasks.PlansBetween (t : Tasks) : Prop :=
  ∀ r, t.reaper = some r → r.cutoff.isSome → r.todo = [] ∧ r.current = none

structure Served (s : State) : Prop where
  nodup : s.manager.callers.Nodup
  awaiting : ∀ c ∈ s.manager.callers, s.tasks.phase c = some .awaiting ∨
    s.tasks.reaper = none ∧ ∃ id, c = .reaper id
  backed : ∀ c, s.tasks.phase c = some .awaiting → c ∈ s.manager.callers
  rows : ∀ id p, s.tasks.phase (.reaper id) = some p → p.ofReaper = true
  plans : s.tasks.PlansBetween

theorem Tasks.PlansBetween.setReaper {t : Tasks} (h : t.PlansBetween) {f : Reaper → Reaper}
    (hcutoff : ∀ r, (f r).cutoff = r.cutoff) (htodo : ∀ r, (f r).todo = r.todo)
    (hcurrent : ∀ r, r.current = none → (f r).current = none) : (t.setReaper f).PlansBetween := by
  intro r hr hsome
  obtain ⟨r₀, hr₀, rfl⟩ := Option.map_eq_some_iff.mp hr
  rw [hcutoff] at hsome
  obtain ⟨hnil, hnone⟩ := h r₀ hr₀ hsome
  exact ⟨(htodo r₀).trans hnil, hcurrent r₀ hnone⟩

theorem Tasks.PlansBetween.move {t : Tasks} (h : t.PlansBetween) (c : Courier) (p : Phase) :
    (t.move c p).PlansBetween := by
  cases c with
  | dispatch id => exact h
  | reaper id =>
    exact h.setReaper (fun _ => rfl) (fun _ => rfl) (fun r hr => by rw [hr]; rfl)

theorem Tasks.PlansBetween.deliver {t : Tasks} (h : t.PlansBetween) (c : Courier) (r : SendResult) :
    (t.deliver c r).PlansBetween := by
  rw [Tasks.deliver]
  split
  · exact h.move c _
  · exact h

namespace Served

variable {s s' : State} {c : Courier} {p q : Phase}

/-- A task that does not wait has no request with the manager. -/
theorem not_caller (h : Served s) (hp : s.tasks.phase c = some p) (hne : p ≠ .awaiting) :
    c ∉ s.manager.callers := by
  intro hc
  rcases h.awaiting c hc with hw | ⟨hnone, id, rfl⟩
  · rw [hp, Option.some.injEq] at hw
    exact hne hw
  · rw [phase_reaper_of_none (by rw [hnone]; rfl)] at hp
    cases hp

theorem quiet (h : Served s) (hcallers : s'.manager.callers = s.manager.callers)
    (hphase : ∀ c, s'.tasks.phase c = s.tasks.phase c)
    (hreaper : s.tasks.reaper = none → s'.tasks.reaper = none) (hplans : s'.tasks.PlansBetween) :
    Served s' where
  nodup := hcallers ▸ h.nodup
  awaiting c hc := by
    rw [hphase]
    exact (h.awaiting c (hcallers ▸ hc)).imp_right (fun hr => ⟨hreaper hr.1, hr.2⟩)
  backed c hc := by
    rw [hphase] at hc
    exact hcallers ▸ h.backed c hc
  rows id p hp := h.rows id p (hphase _ ▸ hp)
  plans := hplans

/-- A courier that goes on without the manager. -/
theorem moves (h : Served s) (hm : Moves s.tasks s'.tasks c p q)
    (hcallers : s'.manager.callers = s.manager.callers) (hplans : s'.tasks.PlansBetween)
    (hp : p ≠ .awaiting) (hq : q ≠ .awaiting)
    (hrow : ∀ id, c = .reaper id → q.ofReaper = true) : Served s' where
  nodup := hcallers ▸ h.nodup
  awaiting c' hc' := by
    rw [hcallers] at hc'
    have hother : c' ≠ c := fun e => h.not_caller hm.before hp (e ▸ hc')
    rw [hm.others c' hother, hm.reaper]
    exact h.awaiting c' hc'
  backed c' hc' := by
    by_cases hne : c' = c
    · rw [hne, hm.after, Option.some.injEq] at hc'
      exact absurd hc' hq
    · rw [hm.others c' hne] at hc'
      exact hcallers ▸ h.backed c' hc'
  rows id p' hp' := by
    by_cases hne : .reaper id = c
    · rw [hne, hm.after, Option.some.injEq] at hp'
      exact hp' ▸ hrow id hne.symm
    · rw [hm.others _ hne] at hp'
      exact h.rows id p' hp'
  plans := hplans

theorem leaves (h : Served s) {id : Nat} (hl : Leaves s.tasks s'.tasks id p)
    (hcallers : s'.manager = s.manager) (hplans : s'.tasks.PlansBetween) (hp : p ≠ .awaiting) :
    Served s' where
  nodup := hcallers ▸ h.nodup
  awaiting c' hc' := by
    rw [hcallers] at hc'
    rw [hl.running]
    cases c' with
    | dispatch j =>
      rw [hl.dispatch]
      exact h.awaiting _ hc'
    | reaper j =>
      rcases h.awaiting _ hc' with hj | hnone
      · rw [← Tasks.reaper_unique hl.before hj] at hc'
        exact absurd hc' (h.not_caller hl.before hp)
      · exact .inr hnone
  backed c' hc' := by
    cases c' with
    | dispatch j =>
      rw [hl.dispatch] at hc'
      exact hcallers ▸ h.backed _ hc'
    | reaper j =>
      rw [hl.reaper] at hc'
      cases hc'
  rows j p' hp' := by
    rw [hl.reaper] at hp'
    cases hp'
  plans := hplans

theorem submit (h : Served s) (d : Delivery) (hp : s.tasks.phase c = some .submitting) :
    Served (s.submit c d) := by
  have hm : Moves s.tasks (s.submit c d).tasks c .submitting .awaiting := moves_move hp _
  have hout : c ∉ s.manager.callers := h.not_caller hp (fun h => by cases h)
  have hcallers : (s.submit c d).manager.callers = s.manager.callers ++ [c] := by
    simp [State.submit, Manager.callers]
  refine ⟨?_, ?_, ?_, ?_, h.plans.move c _⟩
  · rw [hcallers]
    exact List.nodup_append.mpr ⟨h.nodup, List.nodup_singleton c,
      fun a ha b hb e => hout (by rw [← List.mem_singleton.mp hb, ← e]; exact ha)⟩
  · intro c' hc'
    by_cases hne : c' = c
    · rw [hne]
      exact .inl hm.after
    · rw [hm.others c' hne, hm.reaper]
      exact h.awaiting c' ((callers_submit.mp hc').resolve_right hne)
  · intro c' hc'
    apply callers_submit.mpr
    by_cases hne : c' = c
    · exact .inr hne
    · rw [hm.others c' hne] at hc'
      exact .inl (h.backed c' hc')
  · intro id p' hp'
    by_cases hne : .reaper id = c
    · rw [hne, hm.after, Option.some.injEq] at hp'
      exact hp' ▸ rfl
    · rw [hm.others _ hne] at hp'
      exact h.rows id p' hp'

theorem answered (h : Served s) {m : Manager} (r : SendResult)
    (hm : s.manager.callers = c :: m.callers) :
    Served { s with tasks := s.tasks.deliver c r, manager := m } := by
  have hnodup := h.nodup
  rw [hm, List.nodup_cons] at hnodup
  have hcallers : ∀ c', c' ∈ s.manager.callers ↔ c' = c ∨ c' ∈ m.callers := by
    intro c'
    rw [hm, List.mem_cons]
  refine ⟨hnodup.2, ?_, ?_, ?_, h.plans.deliver c r⟩
  · intro c' hc'
    have hne : c' ≠ c := fun e => hnodup.1 (e ▸ hc')
    rw [Tasks.phase_deliver_of_ne hne, Tasks.reaper_deliver_isNone]
    exact h.awaiting c' ((hcallers c').mpr (.inr hc'))
  · intro c' hc'
    have hold : s.tasks.phase c' = some .awaiting ∧ c' ≠ c := by
      rw [Tasks.phase_deliver] at hc'
      split at hc'
      · cases hc'
      · rename_i hne
        exact ⟨hc', fun e => hne ⟨e, e ▸ hc'⟩⟩
    exact ((hcallers c').mp (h.backed c' hold.1)).resolve_left hold.2
  · intro id p' hp'
    rw [Tasks.phase_deliver] at hp'
    split at hp'
    · cases hp'
      rfl
    · exact h.rows id p' hp'

/-- The reaper between two rows waits for nothing. -/
theorem not_reaper (h : Served s) {cutoff : Option Nat} {todo : List OutboundMessage}
    (hr : s.tasks.reaper = some ⟨cutoff, todo, none⟩) (id : Nat) :
    .reaper id ∉ s.manager.callers := by
  intro hid
  rcases h.awaiting _ hid with hp | ⟨hnone, _⟩
  · rw [phase_reaper_of_none (by rw [hr]; rfl)] at hp
    cases hp
  · cases hr.symm.trans hnone

/-- The requests with the manager where no task of the reaper has one. -/
theorem awaiting_dispatch (h : Served s) (hnone : ∀ id, .reaper id ∉ s.manager.callers)
    (hc : c ∈ s.manager.callers) : ∃ id, c = .dispatch id ∧ s.tasks.phase c = some .awaiting := by
  cases c with
  | dispatch id =>
    refine ⟨id, rfl, (h.awaiting _ hc).resolve_right ?_⟩
    intro ⟨_, j, hj⟩
    cases hj
  | reaper id => exact absurd hc (hnone id)

theorem prepareSend (h : Served s) (hk : Known s) (createdAt : Nat) (toNumber body : String)
    (partCount : Nat) (sync : Bool) :
    Served (s.prepareSend createdAt toNumber body partCount sync) where
  nodup := h.nodup
  awaiting c hc := by
    have hne : c ≠ .dispatch (s.table.seq + 1) := fun e => ne_next (hk.callers c hc) (e ▸ rfl)
    rw [State.prepareSend, Tasks.phase_spawn_of_ne hne]
    exact h.awaiting c hc
  backed c hc := by
    by_cases hne : c = .dispatch (s.table.seq + 1)
    · rw [hne, State.prepareSend, Tasks.phase_spawn_same] at hc
      cases hc
    · rw [State.prepareSend, Tasks.phase_spawn_of_ne hne] at hc
      exact h.backed c hc
  rows := h.rows
  plans := h.plans

theorem forget (h : Served s) {id : Nat} (hp : s.tasks.phase (.dispatch id) = some .persisted) :
    Served { s with tasks := s.tasks.forget id } where
  nodup := h.nodup
  awaiting c hc := by
    have hne : c ≠ .dispatch id := fun e => h.not_caller hp (by simp) (e ▸ hc)
    rw [Tasks.phase_forget_of_ne hne]
    exact h.awaiting c hc
  backed c hc := h.backed c (Tasks.phase_of_forget hc)
  rows := h.rows
  plans := h.plans

/-- The reaper begins with a row that it has yet to hand to the manager. -/
theorem nextStuck (h : Served s) {cutoff : Option Nat} {m : OutboundMessage}
    {rest : List OutboundMessage} (hr : s.tasks.reaper = some ⟨cutoff, m :: rest, none⟩) :
    Served (s.setReaper (some ⟨cutoff, rest,
      some ⟨m.id, ⟨m.toNumber, m.body, .submitting⟩⟩⟩)) where
  nodup := h.nodup
  awaiting c hc := by
    obtain ⟨id, rfl, hp⟩ := h.awaiting_dispatch (h.not_reaper hr) hc
    exact .inl hp
  backed c hc := by
    cases c with
    | dispatch id => exact h.backed _ hc
    | reaper id =>
      rw [phase_setReaper_current] at hc
      split at hc <;> cases hc
  rows id p hp := by
    rw [phase_setReaper_current] at hp
    split at hp <;> cases hp
    rfl
  plans r hr' hsome := by
    cases hr'
    cases cutoff with
    | none => cases hsome
    | some n => cases (h.plans _ hr rfl).1

theorem abort (h : Served s) : Served (s.setReaper none) where
  nodup := h.nodup
  awaiting c hc := by
    cases c with
    | dispatch id => exact .inl ((h.awaiting _ hc).resolve_right (fun hn => by simp at hn))
    | reaper id => exact .inr ⟨rfl, id, rfl⟩
  backed c hc := by
    cases c with
    | dispatch id => exact h.backed _ hc
    | reaper id => cases hc
  rows id p hp := by cases hp
  plans r hr := by cases hr

theorem step {a : Act} (hk : Known s) (h : Served s) (hstep : Stepped s a s') : Served s' := by
  cases hstep with
  | clock now => exact h.quiet rfl (fun _ => rfl) id h.plans
  | prepareSend createdAt toNumber body partCount sync => exact h.prepareSend hk _ _ _ _ _
  | syncSend hp =>
    exact h.moves ((moves_move hp _).setWaiter _ _) rfl h.plans (by simp) (by simp) (by simp)
  | queueSend d hp => exact h.moves (moves_move hp _) rfl h.plans (by simp) (by simp) (by simp)
  | submit d hp => exact h.submit d hp
  | refused hp | wake hp =>
    exact h.moves (moves_move hp _) rfl (h.plans.move _ _) (by simp) (by simp) (fun _ _ => rfl)
  | manager _ hm => exact h.quiet hm (fun _ => rfl) id h.plans
  | answered r _ hm => exact h.answered r hm
  | recordStatus ok hp hw =>
    exact h.moves (moves_move hp _) rfl (h.plans.move _ _) (by simp) (by simp) (fun _ _ => rfl)
  | deferDispatch hp hw =>
    exact h.moves (moves_move hp _) rfl h.plans (by simp) (by simp) (by simp)
  | deferReaper hp hw =>
    exact h.leaves (leaves_leaveCurrent hp) rfl
      (h.plans.setReaper (fun _ => rfl) (fun _ => rfl) (fun _ _ => rfl)) (by simp)
  | recordMetric hp | publishDispatch hp =>
    exact h.moves (moves_move hp _) rfl h.plans (by simp) (by simp) (by simp)
  | publishReaper hp =>
    exact h.leaves (leaves_leaveCurrent hp) rfl
      (h.plans.setReaper (fun _ => rfl) (fun _ => rfl) (fun _ _ => rfl)) (by simp)
  | replyOutcome hp =>
    exact h.moves ((moves_move hp _).handOver _ _) rfl h.plans (by simp) (by simp) (by simp)
  | respond parts hw | expire parts hw | dropWaiting hw =>
    exact h.quiet rfl (Tasks.phase_setWaiter _ _ _) id h.plans
  | forget hp => exact h.forget hp
  | tick hr =>
    refine h.quiet rfl (phase_between hr) (fun hnone => by cases hr.symm.trans hnone) ?_
    intro r hr' _
    cases hr'
    exact ⟨rfl, rfl⟩
  | queryQueued ok hr =>
    refine h.quiet rfl (phase_between hr) (fun hnone => by cases hr.symm.trans hnone) ?_
    intro r hr' hsome
    cases hr'
    cases hsome
  | nextStuck hr => exact h.nextStuck hr
  | abort => exact h.abort

theorem invariant : service.Inductive Machine.anything (fun s => Known s ∧ Served s) := by
  apply (Known.invariant Machine.anything).and
  · intro s hs
    have hnone : s.manager.callers = [] := by rw [hs.manager]; rfl
    refine ⟨?_, ?_, ?_, ?_, ?_⟩
    · rw [hnone]
      exact List.nodup_nil
    · rw [hnone]
      exact fun c hc => by cases hc
    · intro c hc
      rw [hs.tasks] at hc
      cases c <;> cases hc
    · intro id p hp
      rw [hs.tasks] at hp
      cases hp
    · intro r hr hsome
      rw [hs.tasks] at hr
      cases hr
      cases hsome
  · exact fun s a t hk h _ ht => h.step hk (stepped_of_step ht)

end Served

/-! ## Work lowers the load -/

theorem Manager.load_callers {m m' : Manager} {c : Courier} (h : m.callers = c :: m'.callers) :
    m'.load < m.load := by
  have hlen : m.callers.length = m'.callers.length + 1 := by rw [h, List.length_cons]
  rw [Manager.load, Manager.load]
  split <;> split <;> omega

theorem Manager.load_submit (s : State) (c : Courier) (d : Delivery) :
    (s.submit c d).manager.load = s.manager.load + 2 := by
  have hlen : (s.submit c d).manager.callers.length = s.manager.callers.length + 1 := by
    simp [State.submit, Manager.callers]
    omega
  have hhandling : (s.submit c d).manager.handling = s.manager.handling := rfl
  rw [Manager.load, Manager.load, hlen, hhandling]
  omega

/-- A handler that waits or has received belongs to a dispatch. -/
theorem phase_of_waiter {t : Tasks} {id : Nat} (h : 0 < (t.waiter id).load) :
    ∃ p, t.phase (.dispatch id) = some p := by
  cases hd : t.dispatches id with
  | none =>
    rw [Tasks.waiter, hd] at h
    exact absurd h (Nat.lt_irrefl 0)
  | some d => exact ⟨d.delivery.phase, by simp [Tasks.phase, Tasks.delivery, hd]⟩

namespace State

variable {s s' : State} {c : Courier} {p q : Phase}

theorem id_lt (hk : Known s) (hp : s.tasks.phase c = some p) : c.id < s.table.seq + 1 := by
  obtain ⟨r, hr⟩ := Option.isSome_iff_exists.mp (hk.phase c p hp)
  exact Nat.lt_succ_of_le (Table.le_seq_of_find hr)

/-- A courier goes on. -/
theorem load_moves (hk : Known s) (hm : Moves s.tasks s'.tasks c p q)
    (hseq : s'.table.seq = s.table.seq)
    (hrest : s'.tasks.waiterLoad (s.table.seq + 1) + s'.tasks.planLoad + s'.manager.load + q.load
      < s.tasks.waiterLoad (s.table.seq + 1) + s.tasks.planLoad + s.manager.load + p.load) :
    s'.load < s.load := by
  have hload := Tasks.deliveryLoad_moves hm (id_lt hk hm.before)
  rw [load, load, hseq]
  omega

theorem load_move (hk : Known s) (hp : s.tasks.phase c = some p) (q : Phase) (hlt : q.load < p.load)
    (htasks : s'.tasks = s.tasks.move c q) (hseq : s'.table.seq = s.table.seq)
    (hmanager : s'.manager = s.manager) : s'.load < s.load := by
  apply load_moves hk (htasks ▸ moves_move hp q) hseq
  have hwaiter : s'.tasks.waiterLoad (s.table.seq + 1) = s.tasks.waiterLoad (s.table.seq + 1) :=
    Tasks.waiterLoad_congr (fun id => by rw [htasks, Tasks.waiter_move])
  have hplan : s'.tasks.planLoad = s.tasks.planLoad := by rw [htasks, Tasks.planLoad_move]
  rw [hmanager]
  omega

theorem load_leaveCurrent {id : Nat} (hk : Known s) (hp : s.tasks.phase (.reaper id) = some p)
    (hlt : 0 < p.load) (htasks : s'.tasks = s.tasks.leaveCurrent)
    (htable : s'.table = s.table) (hmanager : s'.manager = s.manager) : s'.load < s.load := by
  have hload := Tasks.deliveryLoad_leaves (leaves_leaveCurrent hp) (id_lt hk hp)
  have hwaiter : s'.tasks.waiterLoad (s.table.seq + 1) = s.tasks.waiterLoad (s.table.seq + 1) :=
    Tasks.waiterLoad_congr (fun id => by rw [htasks]; rfl)
  have hplan : s'.tasks.planLoad = s.tasks.planLoad := by
    rw [htasks, Tasks.planLoad_leaveCurrent]
  rw [load, load, htable, hmanager, hwaiter, hplan, htasks]
  omega

/-- A handler that waited answers, or is dropped. -/
theorem load_setWaiter {id : Nat} {w : Waiter} (hk : Known s)
    (hw : w.isOver = true) (hover : (s.tasks.waiter id).isOver = false)
    (htasks : s'.tasks = s.tasks.setWaiter id w) (htable : s'.table = s.table)
    (hmanager : s'.manager = s.manager) : s'.load < s.load := by
  have hwaiter : 0 < (s.tasks.waiter id).load := by
    cases h : s.tasks.waiter id <;> simp_all [Waiter.load, Waiter.isOver]
  obtain ⟨p, hp⟩ := phase_of_waiter hwaiter
  have hid : id < s.table.seq + 1 := id_lt hk hp
  have hwait := Tasks.waiterLoad_setWaiter (t := s.tasks) hid w
  have hphase : (s.tasks.setWaiter id w).deliveryLoad (s.table.seq + 1)
      = s.tasks.deliveryLoad (s.table.seq + 1) :=
    Tasks.deliveryLoad_congr (s.tasks.phase_setWaiter id w)
  have hzero : w.load = 0 := by cases w <;> first | rfl | cases hw
  have hplan : (s.tasks.setWaiter id w).planLoad = s.tasks.planLoad := rfl
  rw [load, load, htasks, htable, hmanager, hphase, hplan]
  omega

theorem load_forget {id : Nat} (hk : Known s)
    (hp : s.tasks.phase (.dispatch id) = some .persisted) :
    State.load { s with tasks := s.tasks.forget id } < s.load := by
  have hdelivery := Tasks.deliveryLoad_forget hp (id_lt hk hp)
  have hwaiter := Tasks.waiterLoad_forget (n := s.table.seq + 1) s.tasks id
  have hplan : (s.tasks.forget id).planLoad = s.tasks.planLoad := rfl
  have hpersisted : Phase.load .persisted = 12 := rfl
  rw [load, load]
  show (s.tasks.forget id).deliveryLoad (s.table.seq + 1)
    + (s.tasks.forget id).waiterLoad (s.table.seq + 1) + (s.tasks.forget id).planLoad
    + s.manager.load < _
  omega

theorem load_syncSend {id : Nat} (hk : Known s)
    (hp : s.tasks.phase (.dispatch id) = some .persisted) : (s.syncSend id).load < s.load := by
  have hwait := Tasks.waiterLoad_setWaiter (t := s.tasks.move (.dispatch id) .submitting)
    (id_lt hk hp) .waiting
  have hmoved := Tasks.waiterLoad_congr (n := s.table.seq + 1)
    (s.tasks.waiter_move (.dispatch id) .submitting)
  have hm : Moves s.tasks (s.syncSend id).tasks (.dispatch id) .persisted .submitting :=
    (moves_move hp _).setWaiter _ _
  apply load_moves hk hm rfl
  have hplan : (s.syncSend id).tasks.planLoad = s.tasks.planLoad := rfl
  have hload : Phase.load .persisted = 12 ∧ Phase.load .submitting = 9 ∧ Waiter.load .waiting = 2 :=
    ⟨rfl, rfl, rfl⟩
  simp only [Courier.id] at hwait
  show ((s.tasks.move (.dispatch id) .submitting).setWaiter id .waiting).waiterLoad _
    + (s.syncSend id).tasks.planLoad + s.manager.load + _ < _
  omega

theorem load_submit (hk : Known s) (d : Delivery) (hp : s.tasks.phase c = some .submitting) :
    (s.submit c d).load < s.load := by
  have hm : Moves s.tasks (s.submit c d).tasks c .submitting .awaiting := moves_move hp _
  apply load_moves hk hm rfl
  have hwaiter : (s.submit c d).tasks.waiterLoad (s.table.seq + 1)
      = s.tasks.waiterLoad (s.table.seq + 1) :=
    Tasks.waiterLoad_congr (fun id => s.tasks.waiter_move c .awaiting id)
  have hplan : (s.submit c d).tasks.planLoad = s.tasks.planLoad := s.tasks.planLoad_move c _
  have hload : Phase.load .submitting = 9 ∧ Phase.load .awaiting = 6 := ⟨rfl, rfl⟩
  rw [Manager.load_submit, hwaiter, hplan]
  omega

theorem load_answered (hk : Known s) {m : Manager} (r : SendResult)
    (hm : s.manager.callers = c :: m.callers) :
    State.load { s with tasks := s.tasks.deliver c r, manager := m } < s.load := by
  have hlt := Manager.load_callers hm
  by_cases hp : s.tasks.phase c = some .awaiting
  · have hm' : Moves s.tasks { s with tasks := s.tasks.deliver c r, manager := m }.tasks c .awaiting
        (.answered r) := moves_deliver hp r
    apply load_moves hk hm' rfl
    have hwaiter := Tasks.waiterLoad_congr (n := s.table.seq + 1) (s.tasks.waiter_deliver c r)
    have hplan := s.tasks.planLoad_deliver c r
    have hload : Phase.load .awaiting = 6 ∧ Phase.load (.answered r) = 5 := ⟨rfl, rfl⟩
    show (s.tasks.deliver c r).waiterLoad _ + (s.tasks.deliver c r).planLoad + m.load + _ < _
    omega
  · rw [Tasks.deliver, if_neg hp, load, load]
    show s.tasks.deliveryLoad (s.table.seq + 1) + s.tasks.waiterLoad (s.table.seq + 1)
      + s.tasks.planLoad + m.load < _
    omega

theorem load_replyOutcome {id : Nat} {o : DispatchOutcome} (hk : Known s)
    (hp : s.tasks.phase (.dispatch id) = some (.published o)) :
    (s.replyOutcome id o).load < s.load := by
  have hwait := Tasks.waiterLoad_handOver (t := s.tasks.move (.dispatch id) .finished)
    (id_lt hk hp) o
  have hmoved := Tasks.waiterLoad_congr (n := s.table.seq + 1)
    (s.tasks.waiter_move (.dispatch id) .finished)
  have hm : Moves s.tasks (s.replyOutcome id o).tasks (.dispatch id) (.published o) .finished :=
    (moves_move hp _).handOver _ _
  apply load_moves hk hm rfl
  have hload : Phase.load (.published o) = 1 ∧ Phase.load .finished = 0 := ⟨rfl, rfl⟩
  have hplan : (s.replyOutcome id o).tasks.planLoad = s.tasks.planLoad := rfl
  simp only [Courier.id] at hwait
  show ((s.tasks.move (.dispatch id) .finished).handOver id o).waiterLoad _
    + (s.replyOutcome id o).tasks.planLoad + s.manager.load + _ < _
  omega

/-- A batch has no more rows than a cycle that is about to query is counted for. -/
theorem load_query {cutoff : Nat} {batch : List OutboundMessage}
    (hr : s.tasks.reaper = some ⟨some cutoff, [], none⟩) (hlen : batch.length ≤ queuedReapBatch) :
    (s.setReaper (some ⟨none, batch, none⟩)).load < s.load := by
  have hphase : ∀ c, (s.setReaper (some ⟨none, batch, none⟩)).tasks.phase c = s.tasks.phase c :=
    phase_between hr
  have hdelivery := Tasks.deliveryLoad_congr (n := s.table.seq + 1) hphase
  have hbefore : s.tasks.planLoad = 10 * queuedReapBatch + 1 := by
    simp [Tasks.planLoad, hr]
  have hafter : (s.setReaper (some ⟨none, batch, none⟩)).tasks.planLoad = 10 * batch.length := by
    simp [setReaper, Tasks.planLoad]
  rw [load, load, hbefore, hafter]
  show Tasks.deliveryLoad _ (s.table.seq + 1) + s.tasks.waiterLoad (s.table.seq + 1)
    + _ + s.manager.load < _
  omega

theorem load_nextStuck {cutoff : Option Nat} {m : OutboundMessage} {rest : List OutboundMessage}
    (hk : Known s) (hr : s.tasks.reaper = some ⟨cutoff, m :: rest, none⟩) :
    (s.setReaper (some ⟨cutoff, rest, some ⟨m.id, ⟨m.toNumber, m.body, .submitting⟩⟩⟩)).load
      < s.load := by
  have hstuck : m.id ∈ s.tasks.stuck := by
    rw [Tasks.stuck, hr]
    exact List.mem_cons_self
  obtain ⟨r, hfind⟩ := Option.isSome_iff_exists.mp (hk.stuck m.id hstuck)
  have hid : m.id < s.table.seq + 1 := Nat.lt_succ_of_le (Table.le_seq_of_find hfind)
  have hfree : ∀ id, s.tasks.phase (.reaper id) = none := phase_reaper_of_none (by rw [hr]; rfl)
  have hload := Tasks.deliveryLoad_of_ne s.tasks (s.setReaper (some ⟨cutoff, rest,
    some ⟨m.id, ⟨m.toNumber, m.body, .submitting⟩⟩⟩)).tasks (c := .reaper m.id) hid (by
      intro c' hne
      cases c' with
      | dispatch j => rfl
      | reaper j =>
        have hj : m.id ≠ j := fun e => hne (e ▸ rfl)
        rw [Tasks.phaseLoad_of_none (hfree j), Tasks.phaseLoad_of_none]
        rw [phase_setReaper_current, if_neg hj])
  rw [Tasks.phaseLoad_of_none (hfree m.id), Tasks.phaseLoad_of_phase (p := .submitting) (by
    rw [phase_setReaper_current, if_pos rfl])] at hload
  have hplan : (s.setReaper (some ⟨cutoff, rest,
      some ⟨m.id, ⟨m.toNumber, m.body, .submitting⟩⟩⟩)).tasks.planLoad + 10 = s.tasks.planLoad := by
    simp [setReaper, Tasks.planLoad, hr]
    omega
  have hnine : Phase.load .submitting = 9 := rfl
  rw [load, load]
  show Tasks.deliveryLoad _ (s.table.seq + 1) + s.tasks.waiterLoad (s.table.seq + 1)
    + Tasks.planLoad _ + s.manager.load < _
  omega

end State

theorem length_queuedOutboundMessages (t : OutboundMessages) (olderThan : Nat) :
    (queuedOutboundMessages t olderThan queuedReapBatch).length ≤ queuedReapBatch := by
  rw [queuedOutboundMessages]
  exact List.length_take_le _ _

/-- The manager takes a request. -/
theorem load_recv {s s' : State} (hs : step s .recv = some s') : s'.load < s.load := by
  simp only [step] at hs
  split at hs
  · rename_i q rest hmanager
    cases hs
    have hlt : Manager.load ⟨rest, some q, false⟩ < s.manager.load := by
      rw [hmanager, Manager.load, Manager.load]
      simp [Manager.callers]
    simp only [State.load]
    omega
  · cases hs

theorem load_lt_of_drains {s s' : State} {a : Act} (hk : Known s) (ha : a.drains)
    (hs : step s a = some s') : s'.load < s.load := by
  cases stepped_of_step hs with
  | clock | prepareSend | tick | abort => rcases ha with ha | ⟨id, he⟩ <;> contradiction
  | syncSend hp => exact State.load_syncSend hk hp
  | queueSend d hp => exact State.load_move hk hp .submitting (by simp [Phase.load]) rfl rfl rfl
  | submit d hp => exact State.load_submit hk d hp
  | refused hp | wake hp =>
    exact State.load_move hk hp (.resolved _) (by simp [Phase.load]) rfl rfl rfl
  | manager hact hm =>
    rcases hact with rfl | rfl
    · exact load_recv hs
    · rcases ha with ha | ⟨id, he⟩ <;> contradiction
  | answered r _ hm => exact State.load_answered hk r hm
  | @recordStatus c r w ok hp hw =>
    have hseq : (s.recordStatus c r w ok).table.seq = s.table.seq := by
      show Table.seq (if ok then setOutboundStatus s.table s.now c.id w else s.table) = s.table.seq
      split <;> rfl
    exact State.load_move hk hp (.recorded (dispatchOutcome r)) (by simp [Phase.load]) rfl hseq rfl
  | deferDispatch hp hw =>
    exact State.load_move hk hp (.published _) (by simp [Phase.load]) rfl rfl rfl
  | deferReaper hp hw => exact State.load_leaveCurrent hk hp (by simp [Phase.load]) rfl rfl rfl
  | recordMetric hp => exact State.load_move hk hp (.counted _) (by simp [Phase.load]) rfl rfl rfl
  | publishDispatch hp =>
    exact State.load_move hk hp (.published _) (by simp [Phase.load]) rfl rfl rfl
  | publishReaper hp => exact State.load_leaveCurrent hk hp (by simp [Phase.load]) rfl rfl rfl
  | replyOutcome hp => exact State.load_replyOutcome hk hp
  | respond parts hw => exact State.load_setWaiter hk rfl (by rw [hw]; rfl) rfl rfl rfl
  | expire parts hw => exact State.load_setWaiter hk rfl (by rw [hw]; rfl) rfl rfl rfl
  | forget hp => exact State.load_forget hk hp
  | dropWaiting hw => exact State.load_setWaiter hk rfl hw rfl rfl rfl
  | queryQueued ok hr =>
    apply State.load_query hr
    split
    · exact length_queuedOutboundMessages _ _
    · exact Nat.zero_le _
  | nextStuck hr => exact State.load_nextStuck hk hr

theorem drains : service.Drains (fun s => Known s ∧ Served s) Act.drains State.load where
  keep _ _ _ h _ hs := ⟨h.1.step (stepped_of_step hs), h.2.step h.1 (stepped_of_step hs)⟩
  lower _ _ _ h ha hs := load_lt_of_drains h.1 ha hs

/-! ## Rest -/

/-- Every delivery has ended, no handler has yet to answer, the manager has no
request, and the reaper is between two cycles. -/
structure AllDone (s : State) : Prop where
  deliveries : ∀ c p, s.tasks.phase c = some p → p = .finished
  handlers : ∀ id, (s.tasks.waiter id).isOver = true
  requests : s.manager.callers = []
  reaper : ∀ r, s.tasks.reaper = some r → r = ⟨none, [], none⟩

section

variable {s : State}

/-- A request with the manager is answered or dropped. -/
theorem callers_of_atRest (h : service.AtRest Act.isWork s) : s.manager.callers = [] := by
  cases hm : s.manager with
  | mk channel handling closed =>
    cases handling with
    | some q =>
      have hnone := h (.reply unavailable) trivial
      simp [service, step, hm] at hnone
    | none =>
      cases channel with
      | nil => rfl
      | cons q rest =>
        cases closed with
        | false =>
          have hnone := h .recv trivial
          simp [service, step, hm] at hnone
        | true =>
          have hnone := h .dropQueued trivial
          simp [service, step, hm] at hnone

theorem submit_isSome {c : Courier} (hp : s.tasks.phase c = some .submitting)
    (hcallers : s.manager.callers = []) : step s (.submit c) ≠ none := by
  obtain ⟨d, hd, hphase⟩ := Option.map_eq_some_iff.mp hp
  have hchannel : s.manager.channel = [] := by
    rw [Manager.callers, List.map_eq_nil_iff, List.append_eq_nil_iff] at hcallers
    exact hcallers.2
  cases hclosed : s.manager.closed <;>
    simp [step, hd, hphase, hchannel, hclosed, modemChannelBuffer]

theorem result_isSome {c : Courier} {r : SendResult} (hp : s.tasks.phase c = some (.resolved r)) :
    ∃ a, a.isWork ∧ step s a ≠ none := by
  cases hw : statusWrite r with
  | some w => exact ⟨.recordStatus c true, trivial, by simp [step, hp, hw]⟩
  | none =>
    refine ⟨.leaveQueued c, trivial, ?_⟩
    cases c <;> simp [step, hp, hw]

theorem allDone_of_atRest (hserved : Served s) (h : service.AtRest Act.isWork s) : AllDone s := by
  have hcallers := callers_of_atRest h
  have habsurd : ∀ {a : Act}, a.isWork → step s a ≠ none → False := fun ha hne => hne (h _ ha)
  have hphase : ∀ c p, s.tasks.phase c = some p → p = .finished := by
    intro c p hp
    cases p with
    | persisted =>
      cases c with
      | reaper id => cases hserved.rows id _ hp
      | dispatch id =>
        obtain ⟨d, hd, hphase⟩ := Option.map_eq_some_iff.mp hp
        obtain ⟨d', hd', rfl⟩ := Option.map_eq_some_iff.mp hd
        refine (habsurd (a := .spawnDispatch id) trivial ?_).elim
        cases hsync : d'.sync <;> simp [step, hd', hphase, hsync]
    | submitting => exact (habsurd (a := .submit c) trivial (submit_isSome hp hcallers)).elim
    | awaiting =>
      have hmem := hserved.backed c hp
      rw [hcallers] at hmem
      cases hmem
    | answered r => exact (habsurd (a := .wake c) trivial (by simp [step, hp])).elim
    | resolved r =>
      obtain ⟨a, ha, hne⟩ := result_isSome hp
      exact (habsurd ha hne).elim
    | recorded o =>
      cases c with
      | dispatch id => exact (habsurd (a := .recordMetric id) trivial (by simp [step, hp])).elim
      | reaper id => exact (habsurd (a := .publish (.reaper id)) trivial (by simp [step, hp])).elim
    | counted o =>
      cases c with
      | dispatch id =>
        exact (habsurd (a := .publish (.dispatch id)) trivial (by simp [step, hp])).elim
      | reaper id => cases hserved.rows id _ hp
    | published o =>
      cases c with
      | dispatch id => exact (habsurd (a := .replyOutcome id) trivial (by simp [step, hp])).elim
      | reaper id => cases hserved.rows id _ hp
    | finished => rfl
  refine ⟨hphase, ?_, hcallers, ?_⟩
  · intro id
    cases hd : s.tasks.dispatches id with
    | none => rw [Tasks.waiter, hd, Waiter.isOver]
    | some d =>
      cases d with
      | mk delivery parts sync waiter =>
        cases waiter with
        | absent | dropped => rw [Tasks.waiter, hd, Waiter.isOver]
        | waiting => exact (habsurd (a := .expire id) trivial (by simp [step, hd])).elim
        | received o => exact (habsurd (a := .respond id) trivial (by simp [step, hd])).elim
  · intro r hr
    cases r with
    | mk cutoff todo current =>
      cases current with
      | some k =>
        have hk := hphase (.reaper k.id) k.delivery.phase
          (by simp [Tasks.phase, Tasks.delivery, hr])
        have hrow := hserved.rows k.id k.delivery.phase (by simp [Tasks.phase, Tasks.delivery, hr])
        rw [hk] at hrow
        cases hrow
      | none =>
        cases todo with
        | cons m rest =>
          exact (habsurd (a := .nextStuck) trivial (by simp [step, hr, Reaper.next])).elim
        | nil =>
          cases cutoff with
          | none => rfl
          | some n => exact (habsurd (a := .queryQueued true) trivial (by simp [step, hr])).elim

end

/-- Whatever state the service has reached: what its tasks, the manager and the
reaper's batch do by themselves comes to an end within a bound, whichever of them
goes on next, whichever clients go meanwhile and whatever the modem and the database
answer; as long as a delivery, a handler or a request is left, one of them can go on;
and so they can always bring all of it to its end.  Only such steps are counted: the
clock, new requests, new cycles of the reaper and the ends of the manager and of the
reaper are not among them. -/
theorem work_completes {s : State} (hs : service.Reach Machine.anything s) :
    (∀ acts t, (∀ a ∈ acts, a.drains) → service.exec s acts = some t →
      acts.length + t.load ≤ s.load ∧ ((∃ a, a.isWork ∧ step t a ≠ none) ∨ AllDone t)) ∧
    ∃ acts t, (∀ a ∈ acts, a.isWork) ∧ service.exec s acts = some t ∧ AllDone t := by
  have hI := Served.invariant.reach hs
  refine ⟨?_, ?_⟩
  · intro acts t hwork ht
    obtain ⟨hIt, hle⟩ := drains.exec hI hwork ht
    refine ⟨hle, ?_⟩
    by_cases hmore : ∃ a, a.isWork ∧ step t a ≠ none
    · exact .inl hmore
    · right
      apply allDone_of_atRest hIt.2
      intro a ha
      by_contra hne
      exact hmore ⟨a, ha, hne⟩
  · have hwork : service.Drains (fun s => Known s ∧ Served s) Act.isWork State.load :=
      drains.mono (fun _ => .inl)
    obtain ⟨acts, t, hacts, ht, hrest⟩ := hwork.exists_atRest hI
    exact ⟨acts, t, hacts, ht, allDone_of_atRest (hwork.exec hI hacts ht).1.2 hrest⟩

theorem work_completes_handedOver :
    (∀ acts t, (∀ a ∈ acts, a.drains) → service.exec (stateAfter handedOver) acts = some t →
      acts.length + t.load ≤ (stateAfter handedOver).load ∧
        ((∃ a, a.isWork ∧ step t a ≠ none) ∨ AllDone t)) ∧
    ∃ acts t, (∀ a ∈ acts, a.isWork) ∧ service.exec (stateAfter handedOver) acts = some t ∧
      AllDone t := by
  have hs : service.exec fresh handedOver = some (stateAfter handedOver) := rfl
  exact work_completes (Machine.reach_of_exec starting_fresh hs)

end Outbound
end GreenRelay
