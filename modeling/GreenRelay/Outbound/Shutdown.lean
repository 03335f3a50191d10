/-
The graceful shutdown.

After the signal the server takes no new connections and ends when the handlers
that run have answered, or are dropped with their clients, and the event streams
that are open have been hung up.
`run` then aborts the reaper, drops its own handle to the modem and waits for the
manager, which returns when it finds its channel closed: when no dispatch and no
reaper holds a handle any more.  A watchdog ends the process when this takes
longer than the grace period.  A manager that has given up its port returns
earlier, and then `run` no longer waits for the dispatches.

`shutdown_settles` says what a shutdown that completes leaves behind, and
`shutdown_completes` that one which is under way gets there.
-/
import GreenRelay.Outbound.Responses
import Mathlib.Algebra.Order.BigOperators.Group.Finset

namespace GreenRelay
namespace Outbound

open Modem (SendResult)

/-! ## The process -/

inductive RunStage where
  | serving
  /-- The signal was received. -/
  | draining
  /-- The server has ended and `run` waits for the manager. -/
  | closing
  /-- The manager has found its channel closed. -/
  | ended
  | complete
  /-- `ShutdownTimeout`. -/
  | timedOut
  deriving DecidableEq, Repr

/-- The reply channel of `send_sms` is open: its result has not returned. -/
def Phase.isOpen : Phase → Bool
  | .awaiting | .answered _ => true
  | _ => false

/-- The message whose result the reaper waits for. -/
def Tasks.waitedFor (t : Tasks) : Option Nat :=
  (t.reaper.bind (·.current)).bind (fun k => if k.delivery.phase.isOpen then some k.id else none)

/-- `streams` counts the open event streams; `gaveUp` and `lost` record that the
manager returned by itself and which message the reaper waited for when it was
aborted. -/
structure Process where
  service : State
  stage : RunStage
  streams : Nat
  gaveUp : Bool
  lost : Option Nat

inductive ProcessAct where
  | service (a : Act)
  | subscribe
  | hangUp
  | signal
  | serverEnds
  | managerEnds
  | finish
  | timeOut
  deriving DecidableEq, Repr

/-- The reaper is aborted once the server has ended, and then no handler is left
to insert a row. -/
def RunStage.allows : RunStage → Act → Bool
  | .serving, a | .draining, a => a ≠ .abort
  | .closing, .prepareSend .. => false
  | .closing, _ => true
  | _, _ => false

/-- Every handler has answered or was dropped. -/
def State.handlersDone (s : State) : Bool :=
  (List.range (s.table.seq + 1)).all
    (fun id => s.tasks.phase (.dispatch id) ≠ some .persisted && (s.tasks.waiter id).isOver)

def Tasks.busy (t : Tasks) (id : Nat) : Bool := (t.phase (.dispatch id)).any (· ≠ .finished)

/-- The clones of the modem handle that tasks hold. -/
def State.handles (s : State) : Nat :=
  (List.range (s.table.seq + 1)).countP s.tasks.busy + s.tasks.reaper.toList.length

/-- The process after a step of the service. -/
def Process.serve (p : Process) (a : Act) (s : State) : Process :=
  { p with
    service := s
    gaveUp := p.gaveUp || a = .close
    lost := if a = .abort then p.service.tasks.waitedFor else p.lost }

def State.closeChannel (s : State) : State :=
  { s with manager := { s.manager with closed := true } }

def processStep (p : Process) : ProcessAct → Option Process
  | .service a =>
    if !p.stage.allows a then none
    else if a = .abort && p.service.tasks.reaper.isNone then none
    else (step p.service a).map (p.serve a)
  | .subscribe => if p.stage = .serving then some { p with streams := p.streams + 1 } else none
  | .hangUp => if 0 < p.streams then some { p with streams := p.streams - 1 } else none
  | .signal => if p.stage = .serving then some { p with stage := .draining } else none
  | .serverEnds =>
    if p.stage = .draining && p.streams = 0 && p.service.handlersDone then
      some { p with stage := .closing }
    else none
  | .managerEnds =>
    if p.stage = .closing && p.service.handles = 0 && p.service.manager = ⟨[], none, false⟩ then
      some { p with stage := .ended, service := p.service.closeChannel }
    else none
  | .finish =>
    if p.stage = .ended || (p.stage = .closing && p.service.manager.closed) then
      some { p with stage := .complete }
    else none
  | .timeOut =>
    if p.stage = .draining || p.stage = .closing || p.stage = .ended then
      some { p with stage := .timedOut }
    else none

structure Process.Starting (p : Process) : Prop where
  service : Outbound.Starting p.service
  stage : p.stage = .serving
  streams : p.streams = 0
  gaveUp : p.gaveUp = false
  lost : p.lost = none

def process : Machine Process ProcessAct := ⟨Process.Starting, processStep⟩

/-! ## Results that have not returned -/

def Phase.underway (p : Phase) : Nat := if p.isOpen then 1 else 0

def returns (id : Nat) (h : List Entry) : Nat :=
  h.countP (fun e => match e with
    | .returned i _ => i = id
    | .submitted _ => false)

namespace Tasks

def waits (t : Tasks) (c : Courier) : Nat := ((t.phase c).map Phase.underway).getD 0

/-- The open reply channels for a message. -/
def underway (t : Tasks) (id : Nat) : Nat := t.waits (.dispatch id) + t.waits (.reaper id)

variable {t t' : Tasks} {c : Courier} {p q : Phase}

theorem waits_of_phase (h : t.phase c = some p) : t.waits c = p.underway := by
  rw [waits, h]
  rfl

theorem waits_of_none (h : t.phase c = none) : t.waits c = 0 := by
  rw [waits, h]
  rfl

theorem underway_congr (h : ∀ c, t'.phase c = t.phase c) (id : Nat) :
    t'.underway id = t.underway id := by
  simp only [underway, waits, h]

theorem underway_of_ne (h : ∀ c', c' ≠ c → t'.waits c' = t.waits c') (id : Nat) :
    t'.underway id + (if c.id = id then t.waits c else 0)
      = t.underway id + (if c.id = id then t'.waits c else 0) := by
  by_cases hid : c.id = id
  · have hrival := h c.rival c.rival_ne
    subst hid
    cases c with
    | dispatch i =>
      simp only [Courier.id, Courier.rival, if_true, underway] at hrival ⊢
      omega
    | reaper i =>
      simp only [Courier.id, Courier.rival, if_true, underway] at hrival ⊢
      omega
  · have hdispatch := h (.dispatch id) (fun e => hid (e ▸ rfl))
    have hreaper := h (.reaper id) (fun e => hid (e ▸ rfl))
    rw [if_neg hid, if_neg hid, underway, underway, hdispatch, hreaper]

theorem underway_moves (h : Moves t t' c p q) (id : Nat) :
    t'.underway id + (if c.id = id then p.underway else 0)
      = t.underway id + (if c.id = id then q.underway else 0) := by
  have hothers : ∀ c', c' ≠ c → t'.waits c' = t.waits c' := by
    intro c' hne
    rw [waits, waits, h.others c' hne]
  have hsum := underway_of_ne hothers id
  rwa [waits_of_phase h.before, waits_of_phase h.after] at hsum

theorem waitedFor_eq_some (t : Tasks) (id : Nat) :
    t.waitedFor = some id ↔ ∃ p, t.phase (.reaper id) = some p ∧ p.isOpen = true := by
  cases hk : t.reaper.bind (·.current) with
  | none => simp [waitedFor, hk, phase, delivery]
  | some k =>
    simp only [waitedFor, phase, delivery, hk, Option.bind_some, Option.map_if]
    by_cases hid : k.id = id
    · simp [hid]
    · simp [hid]

/-- The reaper has one reply channel open at most. -/
theorem waits_reaper (t : Tasks) (id : Nat) :
    t.waits (.reaper id) = if t.waitedFor = some id then 1 else 0 := by
  by_cases h : t.waitedFor = some id
  · obtain ⟨p, hp, hopen⟩ := (t.waitedFor_eq_some id).mp h
    rw [if_pos h, waits_of_phase hp, Phase.underway, hopen]
    rfl
  · rw [if_neg h]
    cases hp : t.phase (.reaper id) with
    | none => exact waits_of_none hp
    | some p =>
      have hclosed : p.isOpen = false := by
        rw [← Bool.not_eq_true]
        exact fun hopen => h ((t.waitedFor_eq_some id).mpr ⟨p, hp, hopen⟩)
      rw [waits_of_phase hp, Phase.underway, hclosed]
      rfl

end Tasks

/-- Every request that was handed to the manager has returned, is on its way, or
was the one that the aborted reaper waited for. -/
def Returned (s : State) (lost : Option Nat) : Prop :=
  ∀ id, s.history.count (.submitted id)
    = returns id s.history + s.tasks.underway id + if lost = some id then 1 else 0

namespace Returned

variable {s s' : State} {lost : Option Nat} {c : Courier} {p q : Phase}

theorem congr (h : Returned s lost) (hhistory : s'.history = s.history)
    (hphase : ∀ c, s'.tasks.phase c = s.tasks.phase c) : Returned s' lost := by
  intro id
  rw [hhistory, Tasks.underway_congr hphase]
  exact h id

theorem moves (h : Returned s lost) (hm : Moves s.tasks s'.tasks c p q)
    (hhistory : s'.history = s.history) (hopen : p.isOpen = q.isOpen) : Returned s' lost := by
  intro id
  have hsum := Tasks.underway_moves hm id
  rw [Phase.underway, Phase.underway, hopen] at hsum
  have hid := h id
  rw [hhistory]
  omega

theorem leaves (h : Returned s lost) {id : Nat} (hl : Leaves s.tasks s'.tasks id p)
    (hhistory : s'.history = s.history) (hopen : p.isOpen = false) : Returned s' lost := by
  intro i
  have hdispatch : s'.tasks.waits (.dispatch i) = s.tasks.waits (.dispatch i) := by
    rw [Tasks.waits, Tasks.waits, hl.dispatch]
  have hafter : s'.tasks.waits (.reaper i) = 0 := Tasks.waits_of_none (hl.reaper i)
  have hbefore : s.tasks.waits (.reaper i) = 0 := by
    cases hi : s.tasks.phase (.reaper i) with
    | none => exact Tasks.waits_of_none hi
    | some x =>
      have hsame : i = id := Tasks.reaper_unique hi hl.before
      rw [hsame, hl.before, Option.some.injEq] at hi
      rw [hsame, Tasks.waits_of_phase hl.before, Phase.underway, hopen]
      rfl
  have hi := h i
  rw [hhistory]
  simp only [Tasks.underway] at hi ⊢
  omega

/-- A dispatch that is not spawned has handed nothing to the manager. -/
theorem forget (h : Returned s lost) {id : Nat}
    (hp : s.tasks.phase (.dispatch id) = some .persisted) :
    Returned { s with tasks := s.tasks.forget id } lost := by
  intro i
  have hothers : ∀ c', c' ≠ .dispatch id → (s.tasks.forget id).waits c' = s.tasks.waits c' := by
    intro c' hne
    rw [Tasks.waits, Tasks.waits, Tasks.phase_forget_of_ne hne]
  have hbefore : s.tasks.waits (.dispatch id) = 0 := Tasks.waits_of_phase hp
  have hafter : (s.tasks.forget id).waits (.dispatch id) = 0 :=
    Tasks.waits_of_none (s.tasks.phase_forget_same id)
  have hsum := Tasks.underway_of_ne hothers i
  have hi := h i
  rw [hbefore, hafter] at hsum
  show s.history.count _ = returns i s.history + (s.tasks.forget id).underway i + _
  omega

/-- The dispatch of a new message has handed nothing to the manager yet. -/
theorem prepareSend (h : Returned s lost) (hk : Known s) (createdAt : Nat)
    (toNumber body : String) (partCount : Nat) (sync : Bool) :
    Returned (s.prepareSend createdAt toNumber body partCount sync) lost := by
  intro id
  have hnew : s.tasks.phase (.dispatch (s.table.seq + 1)) = none :=
    Option.eq_none_iff_forall_not_mem.mpr (fun p hp => ne_next (hk.phase _ p hp) rfl)
  have hothers : ∀ c', c' ≠ .dispatch (s.table.seq + 1) →
      (s.prepareSend createdAt toNumber body partCount sync).tasks.waits c' =
        s.tasks.waits c' := by
    intro c' hne
    rw [Tasks.waits, Tasks.waits, State.prepareSend, Tasks.phase_spawn_of_ne hne]
  have hafter : (s.prepareSend createdAt toNumber body partCount sync).tasks.waits
      (.dispatch (s.table.seq + 1)) = 0 :=
    Tasks.waits_of_phase (Tasks.phase_spawn_same _ _ _)
  have hsum := Tasks.underway_of_ne hothers id
  rw [Tasks.waits_of_none hnew, hafter] at hsum
  have hid := h id
  show s.history.count _ = returns id s.history + _ + _
  omega

/-- A courier that hands in a request opens a reply channel, and one that takes the
result closes it. -/
theorem logs (h : Returned s lost) (hm : Moves s.tasks s'.tasks c p q) {e : Entry}
    (hhistory : s'.history = s.history ++ [e])
    (hbalance : ∀ id, [e].count (.submitted id) + (if c.id = id then p.underway else 0)
      = returns id [e] + (if c.id = id then q.underway else 0)) : Returned s' lost := by
  intro id
  have hsum := Tasks.underway_moves hm id
  have hid := h id
  have hentry := hbalance id
  rw [returns] at hid hentry
  rw [hhistory, List.count_append, returns, List.countP_append]
  omega

theorem submit (h : Returned s lost) (d : Delivery) (hp : s.tasks.phase c = some .submitting) :
    Returned (s.submit c d) lost := by
  refine h.logs (e := .submitted c.id) (moves_move hp .awaiting) rfl (fun id => ?_)
  simp [returns, List.count_singleton, Phase.underway, Phase.isOpen]

theorem wake (h : Returned s lost) {r : SendResult}
    (hp : s.tasks.phase c = some (.answered r)) : Returned (s.resolve c r) lost := by
  refine h.logs (e := .returned c.id r.status) (moves_move hp (.resolved r)) rfl (fun id => ?_)
  simp [returns, Phase.underway, Phase.isOpen]

/-- The reaper has yet to hand its next row to the manager. -/
theorem nextStuck (h : Returned s lost) {cutoff : Option Nat} {m : OutboundMessage}
    {rest : List OutboundMessage} (hr : s.tasks.reaper = some ⟨cutoff, m :: rest, none⟩) :
    Returned (s.setReaper (some ⟨cutoff, rest,
      some ⟨m.id, ⟨m.toNumber, m.body, .submitting⟩⟩⟩)) lost := by
  intro id
  have hfree : s.tasks.phase (.reaper id) = none :=
    phase_reaper_of_none (by rw [hr]; rfl) id
  have hid := h id
  have hafter : (s.setReaper (some ⟨cutoff, rest,
      some ⟨m.id, ⟨m.toNumber, m.body, .submitting⟩⟩⟩)).tasks.waits (.reaper id) = 0 := by
    rw [Tasks.waits, phase_setReaper_current]
    split <;> rfl
  rw [Tasks.underway, Tasks.waits_of_none hfree] at hid
  rw [Tasks.underway, hafter]
  exact hid

/-- A request is not refused while the channel is open. -/
theorem resolve_ne_submit {r : SendResult} (hopen : s.manager.closed = false) :
    Outbound.step s (.submit c) ≠ some (s.resolve c r) := by
  intro hs
  simp only [Outbound.step, hopen, Bool.false_eq_true, if_false] at hs
  split at hs
  · split at hs
    · cases hs
    · split at hs
      · have hhistory := congrArg State.history (Option.some.inj hs)
        simp [State.submit, State.resolve] at hhistory
      · cases hs
  · cases hs

theorem step {a : Act} (hk : Known s) (h : Returned s lost) (hopen : s.manager.closed = false)
    (ha : a ≠ .abort) (hs : Outbound.step s a = some s') : Returned s' lost := by
  cases stepped_of_step hs with
  | clock now => exact h.congr rfl (fun _ => rfl)
  | prepareSend createdAt toNumber body partCount sync => exact h.prepareSend hk _ _ _ _ _
  | syncSend hp => exact h.moves ((moves_move hp _).setWaiter _ _) rfl rfl
  | queueSend d hp => exact h.moves (moves_move hp _) rfl rfl
  | submit d hp => exact h.submit d hp
  | refused hp => exact absurd hs (resolve_ne_submit hopen)
  | wake hp => exact h.wake hp
  | manager _ hm => exact h.congr rfl (fun _ => rfl)
  | @answered a c m r _ hm =>
    by_cases hp : s.tasks.phase c = some .awaiting
    · have hmoves : Moves s.tasks { s with tasks := s.tasks.deliver c r, manager := m }.tasks c
          .awaiting (.answered r) := moves_deliver hp r
      exact h.moves hmoves rfl rfl
    · have hsame : s.tasks.deliver c r = s.tasks := by rw [Tasks.deliver, if_neg hp]
      exact h.congr rfl (fun c' => by rw [hsame])
  | recordStatus ok hp hw => exact h.moves (moves_move hp _) rfl rfl
  | deferDispatch hp hw => exact h.moves (moves_move hp _) rfl rfl
  | deferReaper hp hw => exact h.leaves (leaves_leaveCurrent hp) rfl rfl
  | recordMetric hp => exact h.moves (moves_move hp _) rfl rfl
  | publishDispatch hp => exact h.moves (moves_move hp _) rfl rfl
  | publishReaper hp => exact h.leaves (leaves_leaveCurrent hp) rfl rfl
  | replyOutcome hp => exact h.moves ((moves_move hp _).handOver _ _) rfl rfl
  | respond parts hw => exact h.congr rfl (Tasks.phase_setWaiter _ _ _)
  | expire parts hw => exact h.congr rfl (Tasks.phase_setWaiter _ _ _)
  | forget hp => exact h.forget hp
  | dropWaiting hw => exact h.congr rfl (Tasks.phase_setWaiter _ _ _)
  | tick hr => exact h.congr rfl (phase_between hr)
  | queryQueued ok hr => exact h.congr rfl (phase_between hr)
  | nextStuck hr => exact h.nextStuck hr
  | abort => exact absurd rfl ha

/-- The abort takes with it what the reaper waited for. -/
theorem abort (h : Returned s none) : Returned (s.setReaper none) s.tasks.waitedFor := by
  intro id
  have hid := h id
  have hgone : (s.setReaper none).tasks.waits (.reaper id) = 0 := rfl
  have hsame : (s.setReaper none).tasks.waits (.dispatch id) = s.tasks.waits (.dispatch id) := rfl
  rw [Tasks.underway, s.tasks.waits_reaper] at hid
  rw [Tasks.underway, hgone, hsame]
  show s.history.count _ = returns id s.history + _ + _
  simp only [reduceCtorEq, if_false] at hid
  omega

end Returned

/-! ## Handlers -/

/-- No handler is left that has yet to answer. -/
def HandlersDone (t : Tasks) : Prop :=
  ∀ id, t.phase (.dispatch id) ≠ some .persisted ∧ (t.waiter id).isOver = true

theorem HandlersDone.keeps {t t' : Tasks} (h : HandlersDone t) (hkeeps : t.Keeps t') :
    HandlersDone t' := by
  intro id
  obtain ⟨hphase, hwaiter⟩ := h id
  rcases hkeeps id with ⟨_, hnone⟩ | ⟨d, d', hd, hd', hfollows⟩
  · simp [Tasks.phase, Tasks.delivery, Tasks.waiter, hnone, Waiter.isOver]
  · simp only [Tasks.phase, Tasks.delivery, Tasks.waiter, hd, Option.map_some, ne_eq,
      Option.some.injEq] at hphase hwaiter
    simp only [Tasks.phase, Tasks.delivery, Tasks.waiter, hd', Option.map_some, ne_eq,
      Option.some.injEq]
    exact ⟨fun hp => hphase (hfollows.early.mp hp), hfollows.ended.trans hwaiter⟩

/-- Without new requests no handler begins again. -/
theorem HandlersDone.step {s s' : State} {a : Act} (h : HandlersDone s.tasks)
    (hallowed : RunStage.closing.allows a = true) (hs : step s a = some s') :
    HandlersDone s'.tasks := by
  cases stepped_of_step hs with
  | clock now => exact h
  | prepareSend => cases hallowed
  | syncSend hp => exact absurd hp (h _).1
  | queueSend d hp => exact absurd hp (h _).1
  | submit d hp => exact h.keeps (Tasks.keeps_move hp (by simp) (by simp))
  | refused hp => exact h.keeps (Tasks.keeps_move hp (by simp) (by simp))
  | wake hp => exact h.keeps (Tasks.keeps_move hp (by simp) (by simp))
  | manager _ hm => exact h
  | answered r _ hm => exact h.keeps (Tasks.keeps_deliver _ _ r)
  | recordStatus ok hp hw => exact h.keeps (Tasks.keeps_move hp (by simp) (by simp))
  | deferDispatch hp hw => exact h.keeps (Tasks.keeps_move hp (by simp) (by simp))
  | deferReaper hp hw => exact h.keeps (Tasks.keeps_of_dispatches rfl)
  | recordMetric hp => exact h.keeps (Tasks.keeps_move hp (by simp) (by simp))
  | publishDispatch hp => exact h.keeps (Tasks.keeps_move hp (by simp) (by simp))
  | publishReaper hp => exact h.keeps (Tasks.keeps_of_dispatches rfl)
  | replyOutcome hp =>
    exact h.keeps ((Tasks.keeps_move hp (by simp) (by simp)).trans (Tasks.keeps_handOver _ _ _))
  | respond parts hw => cases (h _).2.symm.trans (congrArg Waiter.isOver hw)
  | expire parts hw => cases (h _).2.symm.trans (congrArg Waiter.isOver hw)
  | forget hp => exact absurd hp (h _).1
  | dropWaiting hw => cases (h _).2.symm.trans hw
  | tick hr => exact h.keeps (Tasks.keeps_of_dispatches rfl)
  | queryQueued ok hr => exact h.keeps (Tasks.keeps_of_dispatches rfl)
  | nextStuck hr => exact h.keeps (Tasks.keeps_of_dispatches rfl)
  | abort => exact h.keeps (Tasks.keeps_of_dispatches rfl)

theorem handlersDone_sound {s : State} (hk : Known s) (h : s.handlersDone = true) :
    HandlersDone s.tasks := by
  intro id
  by_cases hid : id < s.table.seq + 1
  · have hall := List.all_eq_true.mp h id (List.mem_range.mpr hid)
    simpa using hall
  · have hnone : s.tasks.phase (.dispatch id) = none := by
      cases hp : s.tasks.phase (.dispatch id) with
      | none => rfl
      | some p => exact absurd (State.id_lt hk hp) hid
    refine ⟨by rw [hnone]; simp, ?_⟩
    have hload : ¬ 0 < (s.tasks.waiter id).load := by
      intro hpos
      obtain ⟨p, hp⟩ := phase_of_waiter hpos
      cases hnone.symm.trans hp
    cases hw : s.tasks.waiter id with
    | absent | dropped => rfl
    | waiting => exact absurd (hw ▸ Nat.two_pos) hload
    | received o => exact absurd (hw ▸ Nat.one_pos) hload

/-- Only the return of the manager closes the channel. -/
theorem open_step {s s' : State} {a : Act} (hs : step s a = some s') (ha : a ≠ .close)
    (hopen : s.manager.closed = false) : s'.manager.closed = false := by
  cases stepped_of_step hs with
  | manager hact hm =>
    rcases hact with rfl | rfl
    · simp only [step] at hs
      split at hs <;> cases hs
      rfl
    · exact absurd rfl ha
  | @answered a c m r hact hm =>
    cases a with
    | reply r' =>
      obtain ⟨q, _, he⟩ := Option.map_eq_some_iff.mp hs
      rw [← he]
      exact hopen
    | disconnect =>
      obtain ⟨q, _, he⟩ := Option.map_eq_some_iff.mp hs
      rw [← he]
      exact hopen
    | dropQueued =>
      simp only [step] at hs
      split at hs
      · next hq =>
        rw [hq] at hopen
        cases hopen
      · cases hs
    | _ => cases hact
  | _ => exact hopen

/-- Where no task holds a handle and the manager is idle, all work is done. -/
theorem allDone_of_handles {s : State} (hk : Known s) (hhandlers : HandlersDone s.tasks)
    (hhandles : s.handles = 0) (hcallers : s.manager.callers = []) :
    AllDone s ∧ s.tasks.reaper = none := by
  have hbusy : (List.range (s.table.seq + 1)).countP s.tasks.busy = 0 := by
    rw [State.handles] at hhandles
    omega
  have hreaper : s.tasks.reaper = none := by
    cases hr : s.tasks.reaper with
    | none => rfl
    | some r =>
      rw [State.handles, hr] at hhandles
      simp at hhandles
  refine ⟨⟨?_, fun id => (hhandlers id).2, hcallers, ?_⟩, hreaper⟩
  · intro c p hp
    cases c with
    | dispatch id =>
      have hfree := List.countP_eq_zero.mp hbusy id (List.mem_range.mpr (State.id_lt hk hp))
      simpa [Tasks.busy, hp] using hfree
    | reaper id =>
      rw [phase_reaper_of_none (by rw [hreaper]; rfl)] at hp
      cases hp
  · intro r hr
    cases hreaper.symm.trans hr

/-- The manager has not seen its channel closed. -/
def RunStage.hearing : RunStage → Bool
  | .serving | .draining | .closing => true
  | _ => false

/-- The server has ended. -/
def RunStage.served : RunStage → Bool
  | .closing | .ended | .complete => true
  | _ => false

structure Settling (p : Process) : Prop where
  reach : service.Reach Machine.anything p.service
  handlers : p.stage.served = true → HandlersDone p.service.tasks
  hearing : p.gaveUp = false → p.stage.hearing = true → p.service.manager.closed = false
  returned : p.gaveUp = false → Returned p.service p.lost
  lost : p.service.tasks.reaper ≠ none → p.lost = none
  ended : p.stage = .ended ∨ p.stage = .complete ∧ p.gaveUp = false →
    AllDone p.service ∧ p.service.tasks.reaper = none

theorem known_of_reach {s : State} (h : service.Reach Machine.anything s) : Known s :=
  (Known.invariant Machine.anything).reach h

theorem serve_of_step {p p' : Process} {a : Act} (h : processStep p (.service a) = some p') :
    ∃ s, step p.service a = some s ∧ p' = p.serve a s ∧ p.stage.allows a = true ∧
      (a = .abort → p.service.tasks.reaper ≠ none) := by
  simp only [processStep] at h
  split at h
  · cases h
  · rename_i hallowed
    split at h
    · cases h
    · rename_i habort
      obtain ⟨s, hs, rfl⟩ := Option.map_eq_some_iff.mp h
      refine ⟨s, hs, rfl, by simpa using hallowed, ?_⟩
      intro ha hnone
      exact habort (by simp [ha, hnone])

theorem allows_hearing {stage : RunStage} {a : Act} (h : stage.allows a = true) :
    stage.hearing = true := by
  cases stage with
  | serving => rfl
  | draining => rfl
  | closing => rfl
  | ended => cases a <;> cases h
  | complete => cases a <;> cases h
  | timedOut => cases a <;> cases h

theorem allows_served {stage : RunStage} {a : Act} (h : stage.allows a = true)
    (hserved : stage.served = true) : stage = .closing := by
  cases stage with
  | closing => rfl
  | ended => cases a <;> cases h
  | complete => cases a <;> cases h
  | serving => cases hserved
  | draining => cases hserved
  | timedOut => cases hserved

/-- The reaper is only ever aborted. -/
theorem reaper_step {s s' : State} {a : Act} (hs : step s a = some s') (ha : a ≠ .abort) :
    s'.tasks.reaper = none ↔ s.tasks.reaper = none := by
  cases stepped_of_step hs with
  | syncSend hp => exact ((moves_move hp _).setWaiter _ _).reaper
  | queueSend d hp => exact (moves_move hp _).reaper
  | submit d hp => exact (moves_move hp _).reaper
  | refused hp => exact (moves_move hp _).reaper
  | wake hp => exact (moves_move hp _).reaper
  | answered r _ hm => exact Tasks.reaper_deliver_isNone _ _ r
  | recordStatus ok hp hw => exact (moves_move hp _).reaper
  | deferReaper hp hw => exact (leaves_leaveCurrent hp).running
  | publishReaper hp => exact (leaves_leaveCurrent hp).running
  | tick hr => exact ⟨fun h => (by cases h), fun h => (by cases hr.symm.trans h)⟩
  | queryQueued ok hr => exact ⟨fun h => (by cases h), fun h => (by cases hr.symm.trans h)⟩
  | nextStuck hr => exact ⟨fun h => (by cases h), fun h => (by cases hr.symm.trans h)⟩
  | abort => exact absurd rfl ha
  | _ => exact Iff.rfl

namespace Settling

variable {p : Process}

theorem serve {a : Act} {s : State} (h : Settling p) (hs : step p.service a = some s)
    (hallowed : p.stage.allows a = true) (habort : a = .abort → p.service.tasks.reaper ≠ none) :
    Settling (p.serve a s) where
  reach := h.reach.next trivial hs
  handlers hserved := by
    have hclosing : p.stage = .closing := allows_served hallowed hserved
    exact (h.handlers hserved).step (hclosing ▸ hallowed) hs
  hearing hgave _ := by
    simp only [Process.serve, Bool.or_eq_false_iff, decide_eq_false_iff_not] at hgave
    exact open_step hs hgave.2 (h.hearing hgave.1 (allows_hearing hallowed))
  returned hgave := by
    simp only [Process.serve, Bool.or_eq_false_iff, decide_eq_false_iff_not] at hgave
    by_cases ha : a = .abort
    · subst ha
      have hlost := h.lost (habort rfl)
      have hreturned := h.returned hgave.1
      rw [hlost] at hreturned
      have hafter : s = p.service.setReaper none := (Option.some.inj hs).symm
      rw [Process.serve, if_pos rfl, hafter]
      exact hreturned.abort
    · rw [Process.serve, if_neg ha]
      exact (h.returned hgave.1).step (known_of_reach h.reach)
        (h.hearing hgave.1 (allows_hearing hallowed)) ha hs
  lost hreaper := by
    by_cases ha : a = .abort
    · subst ha
      have hafter : s = p.service.setReaper none := (Option.some.inj hs).symm
      exact absurd (by rw [Process.serve, hafter]; rfl) hreaper
    · rw [Process.serve, if_neg ha]
      exact h.lost (fun hnone => hreaper ((reaper_step hs ha).mpr hnone))
  ended hended := by
    have hhearing : p.stage.hearing = true := allows_hearing hallowed
    rcases hended with he | ⟨he, _⟩
    · rw [show p.stage = .ended from he] at hhearing
      cases hhearing
    · rw [show p.stage = .complete from he] at hhearing
      cases hhearing

/-- A stage that follows on another while the service stays as it is. -/
theorem enter (h : Settling p) (stage : RunStage)
    (hhandlers : stage.served = true → HandlersDone p.service.tasks)
    (hhearing : stage.hearing = true → p.stage.hearing = true)
    (hended : stage = .ended ∨ stage = .complete ∧ p.gaveUp = false →
      AllDone p.service ∧ p.service.tasks.reaper = none) : Settling { p with stage := stage } where
  reach := h.reach
  handlers := hhandlers
  hearing hgave hh := h.hearing hgave (hhearing hh)
  returned := h.returned
  lost := h.lost
  ended := hended

theorem closeChannel (h : Settling p) (hstage : p.stage = .closing)
    (hhandles : p.service.handles = 0) (hmanager : p.service.manager = ⟨[], none, false⟩) :
    Settling { p with stage := .ended, service := p.service.closeChannel } := by
  have hstep : service.step p.service .close = some p.service.closeChannel := by
    show (if p.service.manager.handling = none then _ else _) = _
    rw [if_pos (by rw [hmanager])]
    rfl
  have hdone : AllDone p.service ∧ p.service.tasks.reaper = none :=
    allDone_of_handles (known_of_reach h.reach) (h.handlers (by rw [hstage]; rfl)) hhandles
      (by rw [hmanager]; rfl)
  have hcallers : p.service.closeChannel.manager.callers = [] := hdone.1.requests
  have hreach : service.Reach Machine.anything p.service.closeChannel :=
    h.reach.next trivial hstep
  refine ⟨hreach, fun _ => h.handlers (by rw [hstage]; rfl), ?_, ?_, h.lost, ?_⟩
  · intro _ hhearing
    cases hhearing
  · exact fun hgave => (h.returned hgave).congr rfl (fun _ => rfl)
  · exact fun _ => ⟨⟨hdone.1.deliveries, hdone.1.handlers, hcallers, hdone.1.reaper⟩, hdone.2⟩

theorem step {a : ProcessAct} {p' : Process} (h : Settling p) (hs : processStep p a = some p') :
    Settling p' := by
  cases a with
  | service a =>
    obtain ⟨s, hstep, rfl, hallowed, habort⟩ := serve_of_step hs
    exact h.serve hstep hallowed habort
  | subscribe =>
    simp only [processStep] at hs
    split at hs <;> cases hs
    exact ⟨h.reach, h.handlers, h.hearing, h.returned, h.lost, h.ended⟩
  | hangUp =>
    simp only [processStep] at hs
    split at hs <;> cases hs
    exact ⟨h.reach, h.handlers, h.hearing, h.returned, h.lost, h.ended⟩
  | signal =>
    simp only [processStep] at hs
    split at hs <;> cases hs
    rename_i hstage
    exact h.enter .draining (fun he => by cases he) (fun _ => by rw [hstage]; rfl) (by simp)
  | serverEnds =>
    simp only [processStep] at hs
    split at hs <;> cases hs
    rename_i hguard
    simp only [Bool.and_eq_true, decide_eq_true_eq] at hguard
    refine h.enter .closing (fun _ => ?_) (fun _ => by rw [hguard.1.1]; rfl) (by simp)
    exact handlersDone_sound (known_of_reach h.reach) hguard.2
  | managerEnds =>
    simp only [processStep] at hs
    split at hs <;> cases hs
    rename_i hguard
    simp only [Bool.and_eq_true, decide_eq_true_eq] at hguard
    exact h.closeChannel hguard.1.1 hguard.1.2 hguard.2
  | finish =>
    simp only [processStep] at hs
    split at hs <;> cases hs
    rename_i hguard
    simp only [Bool.or_eq_true, Bool.and_eq_true, decide_eq_true_eq] at hguard
    refine h.enter .complete (fun _ => ?_) (fun he => by cases he) ?_
    · rcases hguard with he | ⟨he, _⟩
      · exact h.handlers (by rw [he]; rfl)
      · exact h.handlers (by rw [he]; rfl)
    · rintro (he | ⟨_, hgave⟩)
      · cases he
      · rcases hguard with he | ⟨he, hclosed⟩
        · exact h.ended (.inl he)
        · cases (h.hearing hgave (by rw [he]; rfl)).symm.trans hclosed
  | timeOut =>
    simp only [processStep] at hs
    split at hs <;> cases hs
    exact h.enter .timedOut (fun he => by cases he) (fun he => by cases he) (by simp)

theorem invariant : process.Inductive Machine.anything Settling where
  start p hp := by
    refine ⟨⟨p.service, hp.service, .refl _⟩, ?_, ?_, ?_, fun _ => hp.lost, ?_⟩
    · rw [hp.stage]
      exact fun he => by cases he
    · intro _ _
      rw [hp.service.manager]
    · intro _ id
      rw [hp.service.history, hp.service.tasks, hp.lost]
      rfl
    · rw [hp.stage]
      rintro (he | ⟨he, _⟩) <;> cases he
  step _ _ _ h _ hs := h.step hs

end Settling

/-! ## What a shutdown leaves behind -/

/-- A shutdown that completes, with a manager that did not give up its port before,
has let every delivery, handler and request come to its end: every accepted request
whose handler was not dropped with its client was answered once, and every message
that was handed to the manager came back with its result, but for the one that the
aborted reaper waited for. -/
theorem shutdown_settles {p : Process} (hp : process.Reach Machine.anything p)
    (hcomplete : p.stage = .complete) (hgave : p.gaveUp = false) :
    AllDone p.service ∧ p.service.tasks.reaper = none ∧
    (∀ id d, p.service.tasks.dispatches id = some d → d.waiter ≠ .dropped →
      p.service.responses.countP (fun r => r.id = id) = 1) ∧
    ∀ id, p.service.history.count (.submitted id)
      = returns id p.service.history + if p.lost = some id then 1 else 0 := by
  have h := Settling.invariant.reach hp
  obtain ⟨hdone, hreaper⟩ := h.ended (.inr ⟨hcomplete, hgave⟩)
  have hreplied := Replied.invariant.reach h.reach
  refine ⟨hdone, hreaper, fun _ _ hd hstayed => hreplied.once hdone hd hstayed, ?_⟩
  intro id
  have hunderway : p.service.tasks.underway id = 0 := by
    rw [Tasks.underway, Nat.add_eq_zero_iff]
    constructor
    · cases hphase : p.service.tasks.phase (.dispatch id) with
      | none => exact Tasks.waits_of_none hphase
      | some q => rw [Tasks.waits_of_phase hphase, hdone.deliveries _ q hphase]; rfl
    · cases hphase : p.service.tasks.phase (.reaper id) with
      | none => exact Tasks.waits_of_none hphase
      | some q => rw [Tasks.waits_of_phase hphase, hdone.deliveries _ q hphase]; rfl
  have hreturned := h.returned hgave id
  rwa [hunderway, Nat.add_zero] at hreturned

def freshProcess : Process := ⟨fresh, .serving, 0, false, none⟩

theorem freshProcess_starting : freshProcess.Starting :=
  ⟨starting_fresh, rfl, rfl, rfl, rfl⟩

/-- The signal comes while a message is with the manager. -/
def signalled : List ProcessAct :=
  handedOver.map .service ++ [.signal, .serverEnds]

/-- The rest of the shutdown. -/
def settled : List ProcessAct :=
  [.service .recv, .service .abort, .service (.reply ⟨.sent, some "42", none, none⟩),
    .service (.wake (.dispatch 1)), .service (.recordStatus (.dispatch 1) true),
    .service (.recordMetric 1), .service (.publish (.dispatch 1)), .service (.replyOutcome 1),
    .managerEnds, .finish]

def processAfter (acts : List ProcessAct) : Process :=
  (process.exec freshProcess acts).getD freshProcess

theorem shutdown_settles_handedOver :
    (processAfter (signalled ++ settled)).stage = .complete ∧
    (processAfter (signalled ++ settled)).service.responses.countP (fun r => r.id = 1) = 1 ∧
    (processAfter (signalled ++ settled)).service.history.count (.submitted 1)
      = returns 1 (processAfter (signalled ++ settled)).service.history + 0 := by
  have hs : process.exec freshProcess (signalled ++ settled)
      = some (processAfter (signalled ++ settled)) := rfl
  have hcomplete : (processAfter (signalled ++ settled)).stage = .complete := rfl
  have h := shutdown_settles (Machine.reach_of_exec freshProcess_starting hs) hcomplete rfl
  exact ⟨hcomplete, h.2.2.1 1 _ rfl (by decide), h.2.2.2 1⟩

/-! ## Completion -/

/-- What goes on by itself after the signal. -/
def ProcessAct.isWork : ProcessAct → Prop
  | .service a => a.isWork ∨ a = .abort
  | .serverEnds | .managerEnds | .finish => True
  | _ => False

/-- Work, or the drop of a handler. -/
def ProcessAct.drains (a : ProcessAct) : Prop := a.isWork ∨ ∃ id, a = .service (.dropHandler id)

def RunStage.load : RunStage → Nat
  | .draining => 3
  | .closing => 2
  | .ended => 1
  | _ => 0

def Process.load (p : Process) : Nat :=
  p.service.load + p.service.tasks.reaper.toList.length + p.stage.load

end Outbound
end GreenRelay
