/-
What one step of the delivery machine does.

`Stepped` lists the steps with their guards, each of them stated of the phase
that a courier is in, and `stepped_of_step` is the only place where `step` is
taken apart.  The lemmas before it say what the operations on the tasks do to
the phases.  `Known` is the invariant that needs no assumption: every message
that a task, a batch or a request speaks of has its row.
-/
import GreenRelay.Outbound.Model

namespace GreenRelay
namespace Outbound

open Modem (SendResult)

/-! ## Phases -/

namespace Tasks

variable {t : Tasks} {c c' : Courier} {p q : Phase}

/-- The messages of the batch that the reaper has not come to. -/
def stuck (t : Tasks) : List Nat :=
  match t.reaper with
  | some r => r.todo.map (·.id)
  | none => []

def waiter (t : Tasks) (id : Nat) : Waiter :=
  match t.dispatches id with
  | some d => d.waiter
  | none => .absent

theorem phase_of_delivery {d : Delivery} (h : t.delivery c = some d) :
    t.phase c = some d.phase := by
  rw [phase, h, Option.map_some]

/-- The reaper is at one row at a time. -/
theorem reaper_unique {i j : Nat} (hi : t.phase (.reaper i) = some p)
    (hj : t.phase (.reaper j) = some q) : i = j := by
  have hat : ∀ {k : Nat} {x : Phase}, t.phase (.reaper k) = some x →
      ∃ c, t.reaper.bind (·.current) = some c ∧ c.id = k := by
    intro k x hk
    obtain ⟨d, hd, _⟩ := Option.map_eq_some_iff.mp hk
    obtain ⟨c, hc, hid⟩ := Option.bind_eq_some_iff.mp hd
    by_cases h : c.id = k
    · exact ⟨c, hc, h⟩
    · rw [if_neg h] at hid
      cases hid
  obtain ⟨ci, hci, rfl⟩ := hat hi
  obtain ⟨cj, hcj, rfl⟩ := hat hj
  rw [hci, Option.some.injEq] at hcj
  rw [hcj]

theorem delivery_move (t : Tasks) (c : Courier) (p : Phase) (c' : Courier) :
    (t.move c p).delivery c'
      = if c' = c then (t.delivery c).map (Delivery.enter p) else t.delivery c' := by
  cases c with
  | dispatch id =>
    cases c' with
    | dispatch j =>
      by_cases h : j = id
      · subst h
        simp [move, setDispatch, delivery, Function.comp_def]
      · simp [move, setDispatch, delivery, h]
    | reaper j => simp [move, setDispatch, delivery]
  | reaper id =>
    cases c' with
    | dispatch j => simp [move, setReaper, delivery]
    | reaper j =>
      cases hr : t.reaper with
      | none => simp [move, setReaper, delivery, hr]
      | some r =>
        cases hc : r.current with
        | none => simp [move, setReaper, delivery, hr, hc]
        | some k =>
          by_cases hk : k.id = id
          · by_cases hj : j = id
            · simp [move, setReaper, delivery, hr, hc, Reaping.enter, hk, hj]
            · have hne : ¬ id = j := fun e => hj e.symm
              simp [move, setReaper, delivery, hr, hc, Reaping.enter, hk, hj, hne]
          · by_cases hj : j = id
            · simp [move, setReaper, delivery, hr, hc, Reaping.enter, hk, hj]
            · simp [move, setReaper, delivery, hr, hc, Reaping.enter, hk, hj]

theorem phase_move (t : Tasks) (c : Courier) (p : Phase) (c' : Courier) :
    (t.move c p).phase c' = if c' = c then (t.phase c).map (fun _ => p) else t.phase c' := by
  rw [phase, delivery_move]
  by_cases h : c' = c
  · rw [if_pos h, if_pos h, phase, Option.map_map, Option.map_map]
    rfl
  · rw [if_neg h, if_neg h, phase]

theorem phase_move_same (h : t.phase c = some q) : (t.move c p).phase c = some p := by
  rw [phase_move, if_pos rfl, h, Option.map_some]

theorem phase_move_of_ne (h : c' ≠ c) : (t.move c p).phase c' = t.phase c' := by
  rw [phase_move, if_neg h]

@[simp] theorem stuck_move (t : Tasks) (c : Courier) (p : Phase) :
    (t.move c p).stuck = t.stuck := by
  cases c with
  | dispatch id => rfl
  | reaper id =>
    cases hr : t.reaper <;> simp [move, setReaper, stuck, hr]

@[simp] theorem reaper_move_isNone (t : Tasks) (c : Courier) (p : Phase) :
    (t.move c p).reaper = none ↔ t.reaper = none := by
  cases c with
  | dispatch id => rfl
  | reaper id => simp [move, setReaper]

@[simp] theorem waiter_move (t : Tasks) (c : Courier) (p : Phase) (id : Nat) :
    (t.move c p).waiter id = t.waiter id := by
  cases c with
  | dispatch j =>
    by_cases h : id = j
    · subst h
      cases hd : t.dispatches id <;> simp [move, setDispatch, waiter, hd]
    · simp [move, setDispatch, waiter, h]
  | reaper j => rfl

/-! A waiter changes without its dispatch. -/

theorem phase_setDispatch (t : Tasks) (id : Nat) {f : Dispatch → Dispatch}
    (hf : ∀ d, (f d).delivery = d.delivery) (c : Courier) :
    (t.setDispatch id f).phase c = t.phase c := by
  cases c with
  | dispatch j =>
    by_cases h : j = id
    · subst h
      simp [phase, delivery, setDispatch, Function.comp_def, hf]
    · simp [phase, delivery, setDispatch, h]
  | reaper j => rfl

@[simp] theorem phase_setWaiter (t : Tasks) (id : Nat) (w : Waiter) (c : Courier) :
    (t.setWaiter id w).phase c = t.phase c := by
  apply t.phase_setDispatch id
  intro d
  rfl

@[simp] theorem phase_handOver (t : Tasks) (id : Nat) (o : DispatchOutcome) (c : Courier) :
    (t.handOver id o).phase c = t.phase c := by
  apply t.phase_setDispatch id
  intro d
  split <;> rfl

@[simp] theorem stuck_setWaiter (t : Tasks) (id : Nat) (w : Waiter) :
    (t.setWaiter id w).stuck = t.stuck := rfl

@[simp] theorem stuck_handOver (t : Tasks) (id : Nat) (o : DispatchOutcome) :
    (t.handOver id o).stuck = t.stuck := rfl

@[simp] theorem reaper_setWaiter (t : Tasks) (id : Nat) (w : Waiter) :
    (t.setWaiter id w).reaper = t.reaper := rfl

@[simp] theorem reaper_handOver (t : Tasks) (id : Nat) (o : DispatchOutcome) :
    (t.handOver id o).reaper = t.reaper := rfl

/-! A dispatch that is never spawned. -/

@[simp] theorem phase_forget_same (t : Tasks) (id : Nat) :
    (t.forget id).phase (.dispatch id) = none := by
  simp [forget, phase, delivery]

theorem phase_forget_of_ne {id : Nat} (h : c ≠ .dispatch id) :
    (t.forget id).phase c = t.phase c := by
  cases c with
  | dispatch j =>
    have hj : j ≠ id := fun e => h (e ▸ rfl)
    simp [forget, phase, delivery, hj]
  | reaper j => rfl

/-- What is left in a phase was in it before. -/
theorem phase_of_forget {id : Nat} (h : (t.forget id).phase c = some p) : t.phase c = some p := by
  by_cases hc : c = .dispatch id
  · rw [hc, phase_forget_same] at h
    cases h
  · rwa [phase_forget_of_ne hc] at h

theorem waiter_forget (t : Tasks) (id j : Nat) :
    (t.forget id).waiter j = if j = id then .absent else t.waiter j := by
  by_cases h : j = id <;> simp [forget, waiter, h]

@[simp] theorem stuck_forget (t : Tasks) (id : Nat) : (t.forget id).stuck = t.stuck := rfl

@[simp] theorem reaper_forget (t : Tasks) (id : Nat) : (t.forget id).reaper = t.reaper := rfl

/-! A result that is delivered moves the task that waits for it. -/

theorem phase_deliver (t : Tasks) (c : Courier) (r : SendResult) (c' : Courier) :
    (t.deliver c r).phase c'
      = if c' = c ∧ t.phase c = some .awaiting then some (.answered r) else t.phase c' := by
  rw [deliver]
  by_cases hp : t.phase c = some .awaiting
  · rw [if_pos hp, phase_move, hp]
    by_cases h : c' = c <;> simp [h]
  · rw [if_neg hp, if_neg (fun h => hp h.2)]

theorem phase_deliver_of_ne {r : SendResult} (h : c' ≠ c) :
    (t.deliver c r).phase c' = t.phase c' := by
  rw [phase_deliver, if_neg (fun e => h e.1)]

@[simp] theorem stuck_deliver (t : Tasks) (c : Courier) (r : SendResult) :
    (t.deliver c r).stuck = t.stuck := by
  rw [deliver]
  split
  · exact t.stuck_move c _
  · rfl

@[simp] theorem reaper_deliver_isNone (t : Tasks) (c : Courier) (r : SendResult) :
    (t.deliver c r).reaper = none ↔ t.reaper = none := by
  rw [deliver]
  split
  · exact t.reaper_move_isNone c _
  · rfl

@[simp] theorem waiter_deliver (t : Tasks) (c : Courier) (r : SendResult) (id : Nat) :
    (t.deliver c r).waiter id = t.waiter id := by
  rw [deliver]
  split
  · exact t.waiter_move c _ id
  · rfl

/-! The row that the reaper is at. -/

@[simp] theorem phase_leaveCurrent_dispatch (t : Tasks) (id : Nat) :
    t.leaveCurrent.phase (.dispatch id) = t.phase (.dispatch id) := rfl

@[simp] theorem phase_leaveCurrent_reaper (t : Tasks) (id : Nat) :
    t.leaveCurrent.phase (.reaper id) = none := by
  cases hr : t.reaper <;> simp [leaveCurrent, setReaper, phase, delivery, hr]

@[simp] theorem stuck_leaveCurrent (t : Tasks) : t.leaveCurrent.stuck = t.stuck := by
  cases hr : t.reaper <;> simp [leaveCurrent, setReaper, stuck, hr]

@[simp] theorem reaper_leaveCurrent_isNone (t : Tasks) :
    t.leaveCurrent.reaper = none ↔ t.reaper = none := by
  simp [leaveCurrent, setReaper]

/-! A new dispatch. -/

theorem phase_spawn_same (t : Tasks) (id : Nat) (d : Dispatch) :
    (t.spawn id d).phase (.dispatch id) = some d.delivery.phase := by
  simp [spawn, phase, delivery]

theorem phase_spawn_of_ne {id : Nat} {d : Dispatch} (h : c ≠ .dispatch id) :
    (t.spawn id d).phase c = t.phase c := by
  cases c with
  | dispatch j =>
    have hj : j ≠ id := fun e => h (e ▸ rfl)
    simp [spawn, phase, delivery, hj]
  | reaper j => rfl

end Tasks

/-! ## Moves -/

/-- One courier goes from a phase to another and nothing else happens to the
tasks, up to the handlers that wait for an outcome. -/
structure Moves (t t' : Tasks) (c : Courier) (p q : Phase) : Prop where
  before : t.phase c = some p
  after : t'.phase c = some q
  others : ∀ c', c' ≠ c → t'.phase c' = t.phase c'
  stuck : t'.stuck = t.stuck
  reaper : t'.reaper = none ↔ t.reaper = none

/-- The reaper lets go of its row. -/
structure Leaves (t t' : Tasks) (id : Nat) (p : Phase) : Prop where
  before : t.phase (.reaper id) = some p
  dispatch : ∀ j, t'.phase (.dispatch j) = t.phase (.dispatch j)
  reaper : ∀ j, t'.phase (.reaper j) = none
  stuck : t'.stuck = t.stuck
  running : t'.reaper = none ↔ t.reaper = none

theorem moves_move {t : Tasks} {c : Courier} {p : Phase} (h : t.phase c = some p) (q : Phase) :
    Moves t (t.move c q) c p q where
  before := h
  after := Tasks.phase_move_same h
  others _ := Tasks.phase_move_of_ne
  stuck := t.stuck_move c q
  reaper := t.reaper_move_isNone c q

theorem moves_deliver {t : Tasks} {c : Courier} (h : t.phase c = some .awaiting) (r : SendResult) :
    Moves t (t.deliver c r) c .awaiting (.answered r) := by
  rw [Tasks.deliver, if_pos h]
  exact moves_move h _

theorem leaves_leaveCurrent {t : Tasks} {id : Nat} {p : Phase} (h : t.phase (.reaper id) = some p) :
    Leaves t t.leaveCurrent id p where
  before := h
  dispatch := t.phase_leaveCurrent_dispatch
  reaper := t.phase_leaveCurrent_reaper
  stuck := t.stuck_leaveCurrent
  running := t.reaper_leaveCurrent_isNone

theorem Moves.setWaiter {t t' : Tasks} {c : Courier} {p q : Phase} (h : Moves t t' c p q) (id : Nat)
    (w : Waiter) : Moves t (t'.setWaiter id w) c p q where
  before := h.before
  after := by rw [Tasks.phase_setWaiter, h.after]
  others c' hne := by rw [Tasks.phase_setWaiter, h.others c' hne]
  stuck := h.stuck
  reaper := h.reaper

theorem Moves.handOver {t t' : Tasks} {c : Courier} {p q : Phase} (h : Moves t t' c p q) (id : Nat)
    (o : DispatchOutcome) : Moves t (t'.handOver id o) c p q where
  before := h.before
  after := by rw [Tasks.phase_handOver, h.after]
  others c' hne := by rw [Tasks.phase_handOver, h.others c' hne]
  stuck := h.stuck
  reaper := h.reaper

/-! ## Steps -/

/-- The actions with which a request leaves the manager. -/
def Act.answers : Act → Prop
  | .reply _ | .disconnect | .dropQueued => True
  | _ => False

theorem Manager.callers_handling {m : Manager} {q : SendSms} (h : m.handling = some q) :
    m.callers = q.reply :: { m with handling := none }.callers := by
  simp [callers, h]

inductive Stepped (s : State) : Act → State → Prop where
  | clock (now : Nat) : Stepped s (.clock now) { s with now := now }
  | prepareSend (createdAt : Nat) (toNumber body : String) (partCount : Nat) (sync : Bool) :
    Stepped s (.prepareSend createdAt toNumber body partCount sync)
      (s.prepareSend createdAt toNumber body partCount sync)
  | syncSend {id : Nat} (hp : s.tasks.phase (.dispatch id) = some .persisted) :
    Stepped s (.spawnDispatch id) (s.syncSend id)
  | queueSend {id : Nat} (d : Dispatch) (hp : s.tasks.phase (.dispatch id) = some .persisted) :
    Stepped s (.spawnDispatch id) (s.queueSend id d)
  | submit {c : Courier} (d : Delivery) (hp : s.tasks.phase c = some .submitting) :
    Stepped s (.submit c) (s.submit c d)
  | refused {c : Courier} (hp : s.tasks.phase c = some .submitting) :
    Stepped s (.submit c) (s.resolve c unavailable)
  | wake {c : Courier} {r : SendResult} (hp : s.tasks.phase c = some (.answered r)) :
    Stepped s (.wake c) (s.resolve c r)
  | manager {a : Act} {m : Manager} (ha : a = .recv ∨ a = .close)
    (hm : m.callers = s.manager.callers) : Stepped s a { s with manager := m }
  | answered {a : Act} {c : Courier} {m : Manager} (r : SendResult) (ha : a.answers)
    (hm : s.manager.callers = c :: m.callers) :
    Stepped s a { s with tasks := s.tasks.deliver c r, manager := m }
  | recordStatus {c : Courier} {r : SendResult} {w : StatusWrite} (ok : Bool)
    (hp : s.tasks.phase c = some (.resolved r)) (hw : statusWrite r = some w) :
    Stepped s (.recordStatus c ok) (s.recordStatus c r w ok)
  | deferDispatch {id : Nat} {r : SendResult}
    (hp : s.tasks.phase (.dispatch id) = some (.resolved r)) (hw : statusWrite r = none) :
    Stepped s (.leaveQueued (.dispatch id))
      { s with tasks := s.tasks.move (.dispatch id) (.published (dispatchOutcome r)) }
  | deferReaper {id : Nat} {r : SendResult}
    (hp : s.tasks.phase (.reaper id) = some (.resolved r)) (hw : statusWrite r = none) :
    Stepped s (.leaveQueued (.reaper id)) { s with tasks := s.tasks.leaveCurrent }
  | recordMetric {id : Nat} {o : DispatchOutcome}
    (hp : s.tasks.phase (.dispatch id) = some (.recorded o)) :
    Stepped s (.recordMetric id) (s.recordMetric id o)
  | publishDispatch {id : Nat} {o : DispatchOutcome}
    (hp : s.tasks.phase (.dispatch id) = some (.counted o)) :
    Stepped s (.publish (.dispatch id))
      (s.publish id o (s.tasks.move (.dispatch id) (.published o)))
  | publishReaper {id : Nat} {o : DispatchOutcome}
    (hp : s.tasks.phase (.reaper id) = some (.recorded o)) :
    Stepped s (.publish (.reaper id)) (s.publish id o s.tasks.leaveCurrent)
  | replyOutcome {id : Nat} {o : DispatchOutcome}
    (hp : s.tasks.phase (.dispatch id) = some (.published o)) :
    Stepped s (.replyOutcome id) (s.replyOutcome id o)
  | respond {id : Nat} {o : DispatchOutcome} (parts : Nat)
    (hw : s.tasks.waiter id = .received o) :
    Stepped s (.respond id) (s.respond id (syncResponse id parts o))
  | expire {id : Nat} (parts : Nat) (hw : s.tasks.waiter id = .waiting) :
    Stepped s (.expire id) (s.respond id (.accepted ⟨id, .queued, parts⟩))
  | forget {id : Nat} (hp : s.tasks.phase (.dispatch id) = some .persisted) :
    Stepped s (.dropHandler id) { s with tasks := s.tasks.forget id }
  | dropWaiting {id : Nat} (hw : (s.tasks.waiter id).isOver = false) :
    Stepped s (.dropHandler id) { s with tasks := s.tasks.setWaiter id .dropped }
  | tick (hr : s.tasks.reaper = some ⟨none, [], none⟩) :
    Stepped s .tick (s.setReaper (some ⟨some (s.now - grace), [], none⟩))
  | queryQueued {cutoff : Nat} (ok : Bool) (hr : s.tasks.reaper = some ⟨some cutoff, [], none⟩) :
    Stepped s (.queryQueued ok) (s.setReaper (some ⟨none,
      if ok then queuedOutboundMessages s.table cutoff queuedReapBatch else [], none⟩))
  | nextStuck {cutoff : Option Nat} {m : OutboundMessage} {rest : List OutboundMessage}
    (hr : s.tasks.reaper = some ⟨cutoff, m :: rest, none⟩) :
    Stepped s .nextStuck (s.setReaper (some ⟨cutoff, rest,
      some ⟨m.id, ⟨m.toNumber, m.body, .submitting⟩⟩⟩))
  | abort : Stepped s .abort (s.setReaper none)

section Cases

variable {s s' : State}

theorem phase_of_dispatch {d : Dispatch} {id : Nat} (h : s.tasks.dispatches id = some d) :
    s.tasks.phase (.dispatch id) = some d.delivery.phase := by
  rw [Tasks.phase, Tasks.delivery, h, Option.map_some, Option.map_some]

theorem stepped_spawnDispatch {id : Nat} (h : step s (.spawnDispatch id) = some s') :
    Stepped s (.spawnDispatch id) s' := by
  simp only [step] at h
  split at h
  · rename_i d hd
    have hphase := phase_of_dispatch hd
    by_cases hp : d.delivery.phase = .persisted
    · rw [hp] at hphase
      rw [if_neg (fun hne => hne hp)] at h
      split at h <;> cases h
      · exact .syncSend hphase
      · exact .queueSend d hphase
    · rw [if_pos hp] at h
      cases h
  · cases h

theorem stepped_submit {c : Courier} (h : step s (.submit c) = some s') :
    Stepped s (.submit c) s' := by
  simp only [step] at h
  split at h
  · rename_i d hd
    by_cases hp : d.phase = .submitting
    · have hphase := Tasks.phase_of_delivery hd
      rw [hp] at hphase
      rw [if_neg (fun hne => hne hp)] at h
      split at h
      · cases h
        exact .refused hphase
      · split at h <;> cases h
        exact .submit d hphase
    · rw [if_pos hp] at h
      cases h
  · cases h

theorem stepped_leaveQueued {c : Courier} (h : step s (.leaveQueued c) = some s') :
    Stepped s (.leaveQueued c) s' := by
  simp only [step] at h
  split at h
  · rename_i r hp
    by_cases hw : statusWrite r = none
    · rw [if_neg (fun hne => hne hw)] at h
      cases c with
      | dispatch id =>
        cases h
        exact .deferDispatch hp hw
      | reaper id =>
        cases h
        exact .deferReaper hp hw
    · rw [if_pos hw] at h
      cases h
  · cases h

theorem stepped_dropHandler {id : Nat} (h : step s (.dropHandler id) = some s') :
    Stepped s (.dropHandler id) s' := by
  simp only [step] at h
  split at h
  · rename_i d hd
    have hphase := phase_of_dispatch hd
    by_cases hp : d.delivery.phase = .persisted
    · rw [hp] at hphase
      rw [if_pos hp] at h
      cases h
      exact .forget hphase
    · rw [if_neg hp] at h
      by_cases hover : d.waiter.isOver = true
      · rw [if_pos hover] at h
        cases h
      · rw [if_neg hover] at h
        cases h
        have hwaiter : s.tasks.waiter id = d.waiter := by rw [Tasks.waiter, hd]
        exact .dropWaiting (by rw [hwaiter, Bool.eq_false_iff]; exact hover)
  · cases h

theorem stepped_nextStuck (h : step s .nextStuck = some s') : Stepped s .nextStuck s' := by
  obtain ⟨r, hr, rfl⟩ := Option.map_eq_some_iff.mp h
  obtain ⟨⟨cutoff, todo, current⟩, hreaper, hnext⟩ := Option.bind_eq_some_iff.mp hr
  unfold Reaper.next at hnext
  split at hnext <;> cases hnext
  rename_i hcurrent htodo
  simp only at hcurrent htodo
  subst hcurrent htodo
  exact .nextStuck hreaper

end Cases

theorem stepped_of_step {s s' : State} {a : Act} (h : step s a = some s') : Stepped s a s' := by
  cases a with
  | clock now =>
    cases h
    exact .clock now
  | prepareSend createdAt toNumber body partCount sync =>
    cases h
    exact .prepareSend createdAt toNumber body partCount sync
  | spawnDispatch id => exact stepped_spawnDispatch h
  | submit c => exact stepped_submit h
  | wake c =>
    simp only [step] at h
    split at h <;> cases h
    exact .wake ‹_›
  | recv =>
    simp only [step] at h
    split at h <;> cases h
    rename_i hm
    refine .manager (.inl rfl) ?_
    rw [hm]
    rfl
  | reply r =>
    obtain ⟨q, hq, rfl⟩ := Option.map_eq_some_iff.mp h
    exact .answered r trivial (Manager.callers_handling hq)
  | disconnect =>
    obtain ⟨q, hq, rfl⟩ := Option.map_eq_some_iff.mp h
    exact .answered droppedReply trivial (Manager.callers_handling hq)
  | close =>
    simp only [step] at h
    split at h <;> cases h
    exact .manager (.inr rfl) rfl
  | dropQueued =>
    simp only [step] at h
    split at h <;> cases h
    rename_i hm
    refine .answered droppedReply trivial ?_
    rw [hm]
    rfl
  | recordStatus c ok =>
    simp only [step] at h
    split at h
    · obtain ⟨w, hw, rfl⟩ := Option.map_eq_some_iff.mp h
      exact .recordStatus ok ‹_› hw
    · cases h
  | leaveQueued c => exact stepped_leaveQueued h
  | recordMetric id =>
    simp only [step] at h
    split at h <;> cases h
    exact .recordMetric ‹_›
  | publish c =>
    cases c with
    | dispatch id =>
      simp only [step] at h
      split at h <;> cases h
      exact .publishDispatch ‹_›
    | reaper id =>
      simp only [step] at h
      split at h <;> cases h
      exact .publishReaper ‹_›
  | replyOutcome id =>
    simp only [step] at h
    split at h <;> cases h
    exact .replyOutcome ‹_›
  | respond id =>
    simp only [step] at h
    split at h <;> cases h
    rename_i hd
    exact .respond _ (by rw [Tasks.waiter, hd])
  | expire id =>
    simp only [step] at h
    split at h <;> cases h
    rename_i hd
    exact .expire _ (by rw [Tasks.waiter, hd])
  | dropHandler id => exact stepped_dropHandler h
  | tick =>
    simp only [step] at h
    split at h <;> cases h
    exact .tick ‹_›
  | queryQueued ok =>
    simp only [step] at h
    split at h <;> cases h
    exact .queryQueued ok ‹_›
  | nextStuck => exact stepped_nextStuck h
  | abort =>
    cases h
    exact .abort

/-! ## The reaper between rows -/

theorem phase_reaper_of_none {t : Tasks} (h : t.reaper.bind (·.current) = none) (id : Nat) :
    t.phase (.reaper id) = none := by
  rw [Tasks.phase, Tasks.delivery, h]
  rfl

theorem phase_setReaper_current (s : State) (cutoff : Option Nat) (todo : List OutboundMessage)
    (k : Reaping) (id : Nat) :
    (s.setReaper (some ⟨cutoff, todo, some k⟩)).tasks.phase (.reaper id)
      = if k.id = id then some k.delivery.phase else none := by
  by_cases h : k.id = id <;> simp [State.setReaper, Tasks.phase, Tasks.delivery, h]

/-- Between two rows the reaper only plans. -/
theorem phase_between {s : State} {cutoff cutoff' : Option Nat} {todo todo' : List OutboundMessage}
    (h : s.tasks.reaper = some ⟨cutoff, todo, none⟩) (c : Courier) :
    (s.setReaper (some ⟨cutoff', todo', none⟩)).tasks.phase c = s.tasks.phase c := by
  cases c with
  | dispatch id => rfl
  | reaper id =>
    have hnone : s.tasks.reaper.bind (·.current) = none := by rw [h]; rfl
    rw [phase_reaper_of_none hnone]
    rfl

theorem callers_submit {s : State} {c c' : Courier} {d : Delivery} :
    c' ∈ (s.submit c d).manager.callers ↔ c' ∈ s.manager.callers ∨ c' = c := by
  simp [State.submit, Manager.callers, or_assoc]

/-- An entry is old or about the message that the step is about. -/
theorem mem_history {es : List Entry} {e e' : Entry} (h : e' ∈ es ++ [e]) :
    e' ∈ es ∨ e'.id = e.id := by
  rcases List.mem_append.mp h with h | h
  · exact .inl h
  · exact .inr (List.mem_singleton.mp h ▸ rfl)

/-! ## Messages have rows -/

/-- Every message that a task, the reaper's batch, a request or the history is
about has its row in the table. -/
structure Known (s : State) : Prop where
  phase : ∀ c p, s.tasks.phase c = some p → (s.table.find c.id).isSome
  stuck : ∀ id ∈ s.tasks.stuck, (s.table.find id).isSome
  callers : ∀ c ∈ s.manager.callers, (s.table.find c.id).isSome
  history : ∀ e ∈ s.history, (s.table.find e.id).isSome

theorem isSome_setOutboundStatus {t : OutboundMessages} {now id j : Nat} {w : StatusWrite}
    (h : (t.find j).isSome) : ((setOutboundStatus t now id w).find j).isSome := by
  rw [setOutboundStatus, Table.find_modify, Option.isSome_map]
  exact h

theorem isSome_createOutboundMessage {t : OutboundMessages} {createdAt : Nat}
    {toNumber body : String}
    {status : MessageStatus} {parts j : Nat} (h : (t.find j).isSome) :
    ((createOutboundMessage t createdAt toNumber body status parts).find j).isSome := by
  obtain ⟨r, hr⟩ := Option.isSome_iff_exists.mp h
  rw [createOutboundMessage, Table.find_insert_of_find hr]
  rfl

/-- The next id is not given yet. -/
theorem ne_next {t : OutboundMessages} {id : Nat} (h : (t.find id).isSome) : id ≠ t.seq + 1 := by
  rintro rfl
  rw [t.find_next] at h
  cases h

theorem mem_queuedOutboundMessages {t : OutboundMessages} {olderThan limit : Nat}
    {m : OutboundMessage} (h : m ∈ queuedOutboundMessages t olderThan limit) :
    t.find m.id = some m ∧ m.status = .queued ∧ m.createdAt < olderThan := by
  have hmem := (List.mem_insertionSort _).mp (List.mem_of_mem_take h)
  rw [List.mem_filter, decide_eq_true_eq] at hmem
  exact ⟨Table.find_of_mem hmem.1, hmem.2⟩

namespace Known

variable {s s' : State} {c : Courier} {p q : Phase}

/-- What stays known while the tables grow and nobody takes up a new message. -/
theorem grow (h : Known s) (htable : ∀ id, (s.table.find id).isSome → (s'.table.find id).isSome)
    (hphase : ∀ c p, s'.tasks.phase c = some p → (s.table.find c.id).isSome)
    (hstuck : s'.tasks.stuck = s.tasks.stuck)
    (hcallers : ∀ c ∈ s'.manager.callers, (s.table.find c.id).isSome)
    (hhistory : ∀ e ∈ s'.history, (s.table.find e.id).isSome) : Known s' where
  phase c p hp := htable _ (hphase c p hp)
  stuck id hid := htable _ (h.stuck id (hstuck ▸ hid))
  callers c hc := htable _ (hcallers c hc)
  history e he := htable _ (hhistory e he)

/-- A courier may hand in a request and leave an entry on its way. -/
theorem moves (h : Known s) (hm : Moves s.tasks s'.tasks c p q)
    (htable : ∀ id, (s.table.find id).isSome → (s'.table.find id).isSome)
    (hcallers : ∀ c' ∈ s'.manager.callers, c' ∈ s.manager.callers ∨ c' = c)
    (hhistory : ∀ e ∈ s'.history, e ∈ s.history ∨ e.id = c.id) : Known s' := by
  have hc : (s.table.find c.id).isSome := h.phase c p hm.before
  apply h.grow htable _ hm.stuck
  · intro c' hc'
    rcases hcallers c' hc' with hc' | rfl
    · exact h.callers c' hc'
    · exact hc
  · intro e he
    rcases hhistory e he with he | he
    · exact h.history e he
    · rw [he]
      exact hc
  · intro c' p' hp'
    by_cases hne : c' = c
    · rw [hne]
      exact hc
    · rw [hm.others c' hne] at hp'
      exact h.phase c' p' hp'

theorem leaves (h : Known s) {id : Nat} (hl : Leaves s.tasks s'.tasks id p)
    (htable : s'.table = s.table) (hcallers : s'.manager = s.manager)
    (hhistory : s'.history = s.history) : Known s' := by
  apply h.grow (fun _ hid => htable ▸ hid) _ hl.stuck (hcallers ▸ h.callers)
    (hhistory ▸ h.history)
  intro c' p' hp'
  cases c' with
  | dispatch j =>
    rw [hl.dispatch] at hp'
    exact h.phase _ _ hp'
  | reaper j =>
    rw [hl.reaper] at hp'
    cases hp'

/-- A handler or a task that goes takes nothing up. -/
theorem fewer (h : Known s) (htable : s'.table = s.table)
    (hphase : ∀ c p, s'.tasks.phase c = some p → s.tasks.phase c = some p)
    (hstuck : ∀ id ∈ s'.tasks.stuck, id ∈ s.tasks.stuck)
    (hcallers : ∀ c ∈ s'.manager.callers, c ∈ s.manager.callers)
    (hhistory : s'.history = s.history) : Known s' where
  phase c p hp := htable ▸ h.phase c p (hphase c p hp)
  stuck id hid := htable ▸ h.stuck id (hstuck id hid)
  callers c hc := htable ▸ h.callers c (hcallers c hc)
  history e he := htable ▸ h.history e (hhistory ▸ he)

/-- The new dispatch is about the new row. -/
theorem prepareSend (h : Known s) (createdAt : Nat) (toNumber body : String) (partCount : Nat)
    (sync : Bool) : Known (s.prepareSend createdAt toNumber body partCount sync) where
  phase c p hp := by
    by_cases hc : c = .dispatch (s.table.seq + 1)
    · subst hc
      show ((createOutboundMessage s.table createdAt toNumber body .queued partCount).find
        (s.table.seq + 1)).isSome
      rw [createOutboundMessage, Table.find_insert_next]
      rfl
    · rw [State.prepareSend, Tasks.phase_spawn_of_ne hc] at hp
      exact isSome_createOutboundMessage (h.phase c p hp)
  stuck id hid := isSome_createOutboundMessage (h.stuck id hid)
  callers c hc := isSome_createOutboundMessage (h.callers c hc)
  history e he := isSome_createOutboundMessage (h.history e he)

theorem deliver (h : Known s) {m : Manager} (r : SendResult)
    (hm : s.manager.callers = c :: m.callers) :
    Known { s with manager := m, tasks := s.tasks.deliver c r } := by
  have hsub : ∀ c' ∈ m.callers, c' ∈ s.manager.callers := by
    rw [hm]
    exact fun c' => List.mem_cons_of_mem c
  by_cases hp : s.tasks.phase c = some .awaiting
  · exact h.moves (moves_deliver hp r) (fun _ hid => hid) (fun c' hc' => .inl (hsub c' hc'))
      (fun _ => .inl)
  · rw [Tasks.deliver, if_neg hp]
    exact h.fewer rfl (fun _ _ => id) (fun _ => id) hsub rfl

/-- The batch is read from the table. -/
theorem query (h : Known s) {cutoff : Nat} (ok : Bool)
    (hr : s.tasks.reaper = some ⟨some cutoff, [], none⟩) :
    Known (s.setReaper (some ⟨none, if ok then
      queuedOutboundMessages s.table cutoff queuedReapBatch else [], none⟩)) := by
  refine ⟨?_, ?_, h.callers, h.history⟩
  · intro c' p' hp'
    rw [phase_between hr] at hp'
    exact h.phase c' p' hp'
  · intro id hid
    obtain ⟨m, hm, rfl⟩ := List.mem_map.mp hid
    cases ok with
    | true => exact Option.isSome_iff_exists.mpr ⟨m, (mem_queuedOutboundMessages hm).1⟩
    | false => cases hm

/-- The reaper takes the first row of its batch up. -/
theorem nextStuck (h : Known s) {m : OutboundMessage} {rest : List OutboundMessage}
    {cutoff : Option Nat} {d : Delivery} (hr : s.tasks.reaper = some ⟨cutoff, m :: rest, none⟩) :
    Known (s.setReaper (some ⟨cutoff, rest, some ⟨m.id, d⟩⟩)) := by
  have hstuck : s.tasks.stuck = m.id :: rest.map (·.id) := by rw [Tasks.stuck, hr]; rfl
  refine ⟨?_, ?_, h.callers, h.history⟩
  · intro c' p' hp'
    cases c' with
    | dispatch id => exact h.phase _ _ hp'
    | reaper id =>
      rw [phase_setReaper_current] at hp'
      by_cases hid : m.id = id
      · apply h.stuck
        rw [hstuck]
        exact hid ▸ List.mem_cons_self
      · rw [if_neg hid] at hp'
        cases hp'
  · intro id hid
    apply h.stuck
    rw [hstuck]
    exact List.mem_cons_of_mem _ hid

theorem step {a : Act} (h : Known s) (hstep : Stepped s a s') : Known s' := by
  cases hstep with
  | clock now => exact ⟨h.phase, h.stuck, h.callers, h.history⟩
  | prepareSend createdAt toNumber body partCount sync => exact h.prepareSend _ _ _ _ _
  | syncSend hp =>
    exact h.moves ((moves_move hp _).setWaiter _ _) (fun _ hid => hid) (fun _ => .inl)
      (fun _ => .inl)
  | queueSend d hp =>
    exact h.moves (moves_move hp _) (fun _ hid => hid) (fun _ => .inl) (fun _ => .inl)
  | submit d hp =>
    exact h.moves (moves_move hp _) (fun _ hid => hid)
      (fun _ => callers_submit.mp) (fun _ => mem_history)
  | refused hp | wake hp =>
    exact h.moves (moves_move hp _) (fun _ hid => hid) (fun _ => .inl) (fun _ => mem_history)
  | manager _ hm =>
    exact ⟨h.phase, h.stuck, fun c hc => h.callers c (hm ▸ hc), h.history⟩
  | answered r _ hm => exact h.deliver r hm
  | recordStatus ok hp hw =>
    refine h.moves (moves_move hp _) ?_ (fun _ => .inl) (fun _ => .inl)
    intro id hid
    show (Table.find (if ok then _ else s.table) id).isSome
    split
    · exact isSome_setOutboundStatus hid
    · exact hid
  | deferDispatch hp hw =>
    exact h.moves (moves_move hp _) (fun _ hid => hid) (fun _ => .inl) (fun _ => .inl)
  | deferReaper hp hw => exact h.leaves (leaves_leaveCurrent hp) rfl rfl rfl
  | recordMetric hp | publishDispatch hp =>
    exact h.moves (moves_move hp _) (fun _ hid => hid) (fun _ => .inl) (fun _ => .inl)
  | publishReaper hp => exact h.leaves (leaves_leaveCurrent hp) rfl rfl rfl
  | replyOutcome hp =>
    exact h.moves ((moves_move hp _).handOver _ _) (fun _ hid => hid) (fun _ => .inl)
      (fun _ => .inl)
  | respond parts hw | expire parts hw =>
    refine h.fewer rfl (fun c' p' hp' => ?_) (fun _ => id) (fun _ => id) rfl
    rwa [State.respond, Tasks.phase_setWaiter] at hp'
  | forget hp =>
    exact h.fewer rfl (fun _ _ => Tasks.phase_of_forget) (fun _ => id) (fun _ => id) rfl
  | dropWaiting hw =>
    refine h.fewer rfl (fun c' p' hp' => ?_) (fun _ => id) (fun _ => id) rfl
    rwa [Tasks.phase_setWaiter] at hp'
  | tick hr =>
    have hstuck : s.tasks.stuck = [] := by rw [Tasks.stuck, hr]; rfl
    refine h.grow (fun _ hid => hid) ?_ hstuck.symm h.callers h.history
    intro c' p' hp'
    rw [phase_between hr] at hp'
    exact h.phase c' p' hp'
  | queryQueued ok hr => exact h.query ok hr
  | nextStuck hr => exact h.nextStuck hr
  | abort =>
    refine h.fewer rfl (fun c' p' hp' => ?_) (fun _ hid => by cases hid) (fun _ => id) rfl
    cases c' with
    | dispatch id => exact hp'
    | reaper id => cases hp'

theorem invariant (C : State → Act → Prop) : service.Inductive C Known where
  start s hs := by
    refine ⟨?_, ?_, ?_, ?_⟩
    · intro c p hp
      rw [hs.tasks] at hp
      cases c <;> cases hp
    · rw [hs.tasks]
      exact fun _ hid => by cases hid
    · rw [hs.manager]
      exact fun _ hc => by cases hc
    · rw [hs.history]
      exact fun _ he => by cases he
  step s a t hs _ ht := hs.step (stepped_of_step ht)

end Known

end Outbound
end GreenRelay
