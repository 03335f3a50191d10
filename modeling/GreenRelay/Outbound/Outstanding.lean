/-
At most one request of a message is with the modem manager.

A dispatch and the reaper can both have a request for the same message in the
channel: the reaper goes by the age of the row and does not know whether the
dispatch of that row still waits.  It is enough, and what the grace period is
there for, that the reaper hands a row over only after the dispatch of that row
has got its result.  Under this condition the invariant is `Exclusive`: the
requests with the manager belong to different tasks that wait for them, and
where one of them is the reaper's the dispatch of its message is past waiting.

`outstanding_twice` is a run in which a dispatch waits in the channel for longer
than the grace period.
-/
import GreenRelay.Outbound.Steps

namespace GreenRelay
namespace Outbound

open Modem (SendResult)

/-- The requests for a message that wait in the channel or are being handled. -/
def outstanding (s : State) (id : Nat) : Nat := s.manager.callers.countP (fun c => c.id = id)

def Phase.hasResult : Phase → Bool
  | .persisted | .submitting | .awaiting => false
  | _ => true

/-- The reaper hands a row over only when the dispatch of that row, if there is
one, has its result. -/
def AfterResult (s : State) : Act → Prop
  | .submit (.reaper id) => ∀ p, s.tasks.phase (.dispatch id) = some p → p.hasResult = true
  | _ => True

/-! ## The invariant -/

structure Exclusive (s : State) : Prop where
  nodup : s.manager.callers.Nodup
  awaiting : ∀ c ∈ s.manager.callers, s.tasks.phase c = some .awaiting ∨
    s.tasks.reaper = none ∧ ∃ id, c = .reaper id
  settled : ∀ id, .reaper id ∈ s.manager.callers →
    ∀ p, s.tasks.phase (.dispatch id) = some p → p.hasResult = true

theorem countP_le_one {α : Type} {l : List α} {P : α → Bool} (hl : l.Nodup)
    (hP : ∀ a ∈ l, ∀ b ∈ l, P a = true → P b = true → a = b) : l.countP P ≤ 1 := by
  induction l with
  | nil => exact Nat.zero_le 1
  | cons a l ih =>
    have hrest : l.countP P ≤ 1 := ih (List.nodup_cons.mp hl).2 (fun x hx y hy =>
      hP x (List.mem_cons_of_mem a hx) y (List.mem_cons_of_mem a hy))
    rw [List.countP_cons]
    by_cases ha : P a = true
    · have hzero : l.countP P = 0 := by
        rw [List.countP_eq_zero]
        intro b hb hPb
        have hab := hP a List.mem_cons_self b (List.mem_cons_of_mem a hb) ha hPb
        exact (List.nodup_cons.mp hl).1 (hab ▸ hb)
      rw [if_pos ha, hzero]
    · rw [if_neg ha]
      exact hrest

namespace Exclusive

variable {s s' : State} {c : Courier} {p q : Phase}

theorem outstanding_le_one (h : Exclusive s) (id : Nat) : outstanding s id ≤ 1 := by
  -- A dispatch that waits and a reaper that waits exclude each other.
  have hboth : ∀ j, .dispatch j ∈ s.manager.callers → .reaper j ∉ s.manager.callers := by
    intro j hd hr
    rcases h.awaiting _ hd with hp | ⟨_, k, hk⟩
    · cases h.settled j hr _ hp
    · cases hk
  apply countP_le_one h.nodup
  intro a ha b hb hida hidb
  simp only [decide_eq_true_eq] at hida hidb
  cases a with
  | dispatch i =>
    cases b with
    | dispatch j => rw [show i = j from hida.trans hidb.symm]
    | reaper j =>
      have hij : i = j := hida.trans hidb.symm
      exact absurd hb (hboth j (hij ▸ ha))
  | reaper i =>
    cases b with
    | dispatch j =>
      have hij : j = i := hidb.trans hida.symm
      exact absurd ha (hboth i (hij ▸ hb))
    | reaper j => rw [show i = j from hida.trans hidb.symm]

/-- A task that does not wait has no request with the manager. -/
theorem not_caller (h : Exclusive s) (hp : s.tasks.phase c = some p) (hne : p ≠ .awaiting) :
    c ∉ s.manager.callers := by
  intro hc
  rcases h.awaiting c hc with hw | ⟨hnone, id, rfl⟩
  · rw [hp, Option.some.injEq] at hw
    exact hne hw
  · rw [phase_reaper_of_none (by rw [hnone]; rfl)] at hp
    cases hp

theorem quiet (h : Exclusive s) (hcallers : s'.manager.callers = s.manager.callers)
    (hphase : ∀ c, s'.tasks.phase c = s.tasks.phase c)
    (hreaper : s.tasks.reaper = none → s'.tasks.reaper = none) : Exclusive s' where
  nodup := hcallers ▸ h.nodup
  awaiting c hc := by
    rw [hphase]
    exact (h.awaiting c (hcallers ▸ hc)).imp_right (fun hr => ⟨hreaper hr.1, hr.2⟩)
  settled id hid := by
    rw [hphase]
    exact h.settled id (hcallers ▸ hid)

theorem moves (h : Exclusive s) (hm : Moves s.tasks s'.tasks c p q)
    (hcallers : s'.manager.callers = s.manager.callers) (hne : p ≠ .awaiting)
    (hkeep : p.hasResult = true → q.hasResult = true) : Exclusive s' where
  nodup := hcallers ▸ h.nodup
  awaiting c' hc' := by
    rw [hcallers] at hc'
    have hother : c' ≠ c := fun e => h.not_caller hm.before hne (e ▸ hc')
    rw [hm.others c' hother, hm.reaper]
    exact h.awaiting c' hc'
  settled id hid p' hp' := by
    rw [hcallers] at hid
    by_cases hc : .dispatch id = c
    · subst hc
      rw [hm.after, Option.some.injEq] at hp'
      exact hp' ▸ hkeep (h.settled id hid p hm.before)
    · rw [hm.others _ hc] at hp'
      exact h.settled id hid p' hp'

theorem leaves (h : Exclusive s) {id : Nat} (hl : Leaves s.tasks s'.tasks id p)
    (hcallers : s'.manager = s.manager) (hne : p ≠ .awaiting) : Exclusive s' where
  nodup := hcallers ▸ h.nodup
  awaiting c' hc' := by
    rw [hcallers] at hc'
    rw [hl.running]
    cases c' with
    | dispatch j =>
      rw [hl.dispatch]
      exact h.awaiting _ hc'
    | reaper j =>
      rcases h.awaiting _ hc' with hp | hnone
      · rw [← Tasks.reaper_unique hl.before hp] at hc'
        exact absurd hc' (h.not_caller hl.before hne)
      · exact .inr hnone
  settled j hj := by
    rw [hl.dispatch]
    exact h.settled j (hcallers ▸ hj)

theorem submit (h : Exclusive s) (d : Delivery) (hp : s.tasks.phase c = some .submitting)
    (hc : AfterResult s (.submit c)) : Exclusive (s.submit c d) := by
  have hm : Moves s.tasks (s.submit c d).tasks c .submitting .awaiting := moves_move hp _
  have hout : c ∉ s.manager.callers := h.not_caller hp (fun h => by cases h)
  have hcallers : (s.submit c d).manager.callers = s.manager.callers ++ [c] := by
    simp [State.submit, Manager.callers]
  refine ⟨?_, ?_, ?_⟩
  · rw [hcallers]
    exact List.nodup_append.mpr ⟨h.nodup, List.nodup_singleton c,
      fun a ha b hb e => hout (by rw [← List.mem_singleton.mp hb, ← e]; exact ha)⟩
  · intro c' hc'
    by_cases hne : c' = c
    · rw [hne]
      exact .inl hm.after
    · rw [hm.others c' hne, hm.reaper]
      rcases callers_submit.mp hc' with hc' | hc'
      · exact h.awaiting c' hc'
      · exact absurd hc' hne
  · intro id hid p' hp'
    rcases callers_submit.mp hid with hold | rfl
    · -- An earlier request of the reaper: its dispatch is not submitting now.
      have hne : .dispatch id ≠ c := by
        rintro rfl
        cases h.settled id hold _ hp
      rw [hm.others _ hne] at hp'
      exact h.settled id hold p' hp'
    · rw [hm.others (.dispatch id) (fun h => by cases h)] at hp'
      exact hc p' hp'

theorem answered (h : Exclusive s) {m : Manager} (r : SendResult)
    (hm : s.manager.callers = c :: m.callers) :
    Exclusive { s with tasks := s.tasks.deliver c r, manager := m } := by
  have hnodup := h.nodup
  rw [hm, List.nodup_cons] at hnodup
  have hsub : ∀ c' ∈ m.callers, c' ∈ s.manager.callers := by
    rw [hm]
    exact fun c' => List.mem_cons_of_mem c
  refine ⟨hnodup.2, ?_, ?_⟩
  · intro c' hc'
    have hne : c' ≠ c := fun e => hnodup.1 (e ▸ hc')
    rw [Tasks.phase_deliver_of_ne hne, Tasks.reaper_deliver_isNone]
    exact h.awaiting c' (hsub c' hc')
  · intro id hid p' hp'
    simp only [Tasks.phase_deliver] at hp'
    split at hp'
    · cases hp'
      rfl
    · exact h.settled id (hsub _ hid) p' hp'

/-- The reaper between two rows waits for nothing. -/
theorem not_reaper (h : Exclusive s) {cutoff : Option Nat} {todo : List OutboundMessage}
    (hr : s.tasks.reaper = some ⟨cutoff, todo, none⟩) (id : Nat) :
    .reaper id ∉ s.manager.callers := by
  intro hid
  rcases h.awaiting _ hid with hp | ⟨hnone, _⟩
  · rw [phase_reaper_of_none (by rw [hr]; rfl)] at hp
    cases hp
  · cases hr.symm.trans hnone

theorem step {a : Act} (hk : Known s) (h : Exclusive s) (hc : AfterResult s a)
    (hstep : Stepped s a s') : Exclusive s' := by
  cases hstep with
  | clock now => exact h.quiet rfl (fun _ => rfl) id
  | prepareSend createdAt toNumber body partCount sync =>
    have hnew : ∀ c ∈ s.manager.callers, c.id ≠ s.table.seq + 1 :=
      fun c hc => ne_next (hk.callers c hc)
    refine ⟨h.nodup, ?_, ?_⟩
    · intro c hc
      have hne : c ≠ .dispatch (s.table.seq + 1) := fun e => hnew c hc (e ▸ rfl)
      rw [State.prepareSend, Tasks.phase_spawn_of_ne hne]
      exact h.awaiting c hc
    · intro id hid p hp
      have hne : Courier.dispatch id ≠ .dispatch (s.table.seq + 1) := by
        rintro ⟨⟩
        exact hnew _ hid rfl
      rw [State.prepareSend, Tasks.phase_spawn_of_ne hne] at hp
      exact h.settled id hid p hp
  | syncSend hp =>
    exact h.moves ((moves_move hp _).setWaiter _ _) rfl
      (fun h => by cases h) (fun h => by cases h)
  | queueSend d hp =>
    exact h.moves (moves_move hp _) rfl
      (fun h => by cases h) (fun h => by cases h)
  | submit d hp => exact h.submit d hp hc
  | refused hp => exact h.moves (moves_move hp _) rfl (fun h => by cases h) (fun _ => rfl)
  | wake hp => exact h.moves (moves_move hp _) rfl (fun h => by cases h) (fun _ => rfl)
  | manager _ hm => exact h.quiet hm (fun _ => rfl) id
  | answered r _ hm => exact h.answered r hm
  | recordStatus ok hp hw =>
    exact h.moves (moves_move hp _) rfl (fun h => by cases h) (fun _ => rfl)
  | deferDispatch hp hw => exact h.moves (moves_move hp _) rfl (fun h => by cases h) (fun _ => rfl)
  | deferReaper hp hw => exact h.leaves (leaves_leaveCurrent hp) rfl (fun h => by cases h)
  | recordMetric hp => exact h.moves (moves_move hp _) rfl (fun h => by cases h) (fun _ => rfl)
  | publishDispatch hp => exact h.moves (moves_move hp _) rfl (fun h => by cases h) (fun _ => rfl)
  | publishReaper hp => exact h.leaves (leaves_leaveCurrent hp) rfl (fun h => by cases h)
  | replyOutcome hp =>
    exact h.moves ((moves_move hp _).handOver _ _) rfl
      (fun h => by cases h) (fun _ => rfl)
  | respond parts hw => exact h.quiet rfl (Tasks.phase_setWaiter _ _ _) id
  | expire parts hw => exact h.quiet rfl (Tasks.phase_setWaiter _ _ _) id
  | @forget id hp =>
    refine ⟨h.nodup, ?_, fun j hj p hp' => h.settled j hj p (Tasks.phase_of_forget hp')⟩
    intro c hc
    have hne : c ≠ .dispatch id := fun e => h.not_caller hp (fun h => by cases h) (e ▸ hc)
    rw [Tasks.phase_forget_of_ne hne]
    exact h.awaiting c hc
  | dropWaiting hw => exact h.quiet rfl (Tasks.phase_setWaiter _ _ _) id
  | tick hr => exact h.quiet rfl (phase_between hr) (fun hnone => by cases hr.symm.trans hnone)
  | queryQueued ok hr =>
    exact h.quiet rfl (phase_between hr) (fun hnone => by cases hr.symm.trans hnone)
  | nextStuck hr =>
    refine ⟨h.nodup, ?_, fun id hid => absurd hid (h.not_reaper hr id)⟩
    intro c hc
    cases c with
    | dispatch id => exact .inl ((h.awaiting _ hc).resolve_right (fun hn => by simp at hn))
    | reaper id => exact absurd hc (h.not_reaper hr id)
  | abort =>
    refine ⟨h.nodup, ?_, h.settled⟩
    intro c hc
    cases c with
    | dispatch id => exact .inl ((h.awaiting _ hc).resolve_right (fun hn => by simp at hn))
    | reaper id => exact .inr ⟨rfl, id, rfl⟩

theorem invariant : service.Inductive AfterResult (fun s => Known s ∧ Exclusive s) := by
  apply (Known.invariant AfterResult).and
  · intro s hs
    have hnone : s.manager.callers = [] := by rw [hs.manager]; rfl
    refine ⟨?_, ?_, ?_⟩ <;> rw [hnone]
    · exact List.nodup_nil
    · exact fun c hc => by cases hc
    · exact fun id hid => by cases hid
  · exact fun s a t hk h hc ht => h.step hk hc (stepped_of_step ht)

end Exclusive

/-- In every run in which the reaper hands a row over only after the dispatch of
that row has its result, a message has at most one request with the manager at
any moment. -/
theorem one_request_outstanding {s : State} (hs : service.Reach AfterResult s) (id : Nat) :
    outstanding s id ≤ 1 :=
  (Exclusive.invariant.reach hs).2.outstanding_le_one id

theorem one_request_outstanding_handedOver : outstanding (stateAfter handedOver) 1 ≤ 1 := by
  have hmeets : service.Meets AfterResult fresh handedOver :=
    .cons trivial rfl (.cons trivial rfl (.cons trivial rfl trivial))
  exact one_request_outstanding (Machine.reach_of_meets starting_fresh hmeets rfl) 1

/-- A dispatch whose request stays in the channel for more than the grace
period. -/
def slowManager : List Act :=
  [.prepareSend 0 "+15551230000" "hello" 1 false, .spawnDispatch 1, .submit (.dispatch 1),
    .clock (301 * nanosPerSec), .tick, .queryQueued true, .nextStuck, .submit (.reaper 1)]

theorem outstanding_twice :
    ¬ service.Always Machine.anything (fun s => ∀ id, outstanding s id ≤ 1) := by
  intro h
  have hrun : ((service.exec fresh slowManager).map (fun s => outstanding s 1)) = some 2 := by
    decide
  obtain ⟨s, hs, htwo⟩ := Option.map_eq_some_iff.mp hrun
  have hle := h s (Machine.reach_of_exec starting_fresh hs) 1
  omega

end Outbound
end GreenRelay
