/-
The manager of the delivery machine is the manager that runs.

The machine knows of the modem manager that it takes a request, is busy with it,
and answers or drops it.  The manager itself is a program with a serial port, and
what it does is in its trace.  `joint` runs the two together: the other tasks take
their steps as before, the manager goes on as some run of its program does, and
each of its events is an action of the machine or none.  Whatever the program does
next, the machine can do as well, so what holds of the machine in all its runs
holds of the tasks together with the program (`manager_simulated`).
-/
import GreenRelay.Modem.Requests
import GreenRelay.Outbound.Steps

namespace GreenRelay
namespace Outbound

open Modem (Desk desk SendResult runModemManager)
open Scripted (Monitor)

/-! ## The joint machine -/

/-- The actions that are the manager's own. -/
def Act.isManager : Act → Bool
  | .recv | .reply _ | .disconnect | .close => true
  | _ => false

structure Joint where
  state : State
  /-- What the manager has done so far. -/
  trace : List Modem.Event
  returned : Bool

inductive JointAct where
  | task (a : Act)
  | event (e : Modem.Event)
  | exit

/-- The recipient and the text of the send request in service. -/
def sending (d : Desk) : Option (String × String) :=
  match d.request with
  | some (.sendSms toNumber body) => some (toNumber, body)
  | _ => none

def deskOf (trace : List Modem.Event) : Desk := trace.foldl Desk.next .vacant

/-- What an event of the manager is to the machine. -/
def actOf (d : Desk) : Modem.Event → Option Act
  | .took (.sendSms _ _) => some .recv
  | .repliedSend r => some (.reply r)
  | .ended _ => if (sending d).isSome then some .disconnect else none
  | _ => none

def Joint.step (s : Joint) : JointAct → Option Joint
  | .task a => if a.isManager then none else (Outbound.step s.state a).map ({ s with state := · })
  | .event e =>
    match actOf (deskOf s.trace) e with
    | some a => (Outbound.step s.state a).map (⟨·, s.trace ++ [e], s.returned⟩)
    | none => some { s with trace := s.trace ++ [e] }
  | .exit => (Outbound.step s.state .close).map (⟨·, s.trace, true⟩)

def joint : Machine Joint JointAct :=
  ⟨fun s => Starting s.state ∧ s.trace = [] ∧ s.returned = false, Joint.step⟩

/-- The manager does what some run of its program does next, and the request that it
takes is the first one in the channel. -/
def Possible (cfg : Modem.Config) (s : Joint) : JointAct → Prop
  | .task _ => True
  | .event e => s.returned = false ∧
      (∃ script, s.trace ++ [e] <+: (runModemManager cfg script).trace) ∧
      ∀ toNumber body, e = .took (.sendSms toNumber body) →
        ∃ q rest, s.state.manager.channel = q :: rest ∧ q.toNumber = toNumber ∧ q.body = body
  | .exit => s.returned = false ∧
      ∃ script, (runModemManager cfg script).outcome = .done () ∧
        (runModemManager cfg script).trace = s.trace

/-! ## The simulation -/

/-- The machine's manager is busy with the request that the program serves. -/
structure Simulates (s : Joint) : Prop where
  reach : service.Reach Machine.anything s.state
  handling : s.state.manager.handling.map (fun q => (q.toNumber, q.body)) = sending (deskOf s.trace)
  running : s.returned = false → s.state.manager.closed = false

section Steps

variable {cfg : Modem.Config} {s s' : Joint} {a : Act} {e : Modem.Event}

/-- The other tasks only put requests into the channel. -/
theorem step_manager {t t' : State} (ha : a.isManager = false) (h : step t a = some t') :
    t'.manager.handling = t.manager.handling ∧ t'.manager.closed = t.manager.closed := by
  have hcases := stepped_of_step h
  cases hcases with
  | manager hact hm => rcases hact with rfl | rfl <;> cases ha
  | answered r hact hm =>
    cases a with
    | dropQueued =>
      simp only [step] at h
      split at h
      · next hq =>
        rw [hq, ← Option.some.inj h]
        exact ⟨rfl, rfl⟩
      · cases h
    | reply r => cases ha
    | disconnect => cases ha
    | _ => cases hact
  | _ => exact ⟨rfl, rfl⟩

theorem deskOf_append (trace : List Modem.Event) (e : Modem.Event) :
    deskOf (trace ++ [e]) = (deskOf trace).next e := by
  rw [deskOf, List.foldl_append]
  rfl

/-- What the program does next meets the demands of the monitor. -/
theorem ok_of_possible (h : Possible cfg s (.event e)) : desk.ok (deskOf s.trace) e := by
  obtain ⟨_, ⟨script, rest, htrace⟩, _⟩ := h
  have hsafe : desk.Safe .vacant (runModemManager cfg script).trace :=
    (Modem.keeps_runModemManager_desk cfg).safe script rfl
  rw [← htrace, List.append_assoc] at hsafe
  exact Monitor.ok_of_safe_append hsafe

/-- A program that returns has served its last request. -/
theorem vacant_of_exit (h : Possible cfg s .exit) : (deskOf s.trace).request = none := by
  obtain ⟨_, script, hdone, htrace⟩ := h
  have hpath := Monitor.path_observing Desk.next desk.ok .vacant
    (runModemManager cfg script).trace
  have hend := ((Modem.keeps_runModemManager_desk cfg) script .vacant rfl).2 _ hpath
  rw [hdone, htrace] at hend
  exact hend

/-- The machine takes part in an event that is no action of its own. -/
theorem Simulates.aside (h : Simulates s) (hsame : sending ((deskOf s.trace).next e)
      = sending (deskOf s.trace)) :
    Simulates { s with trace := s.trace ++ [e] } where
  reach := h.reach
  handling := by
    rw [deskOf_append, hsame]
    exact h.handling
  running := h.running

theorem reach_step {t t' : State} (ht : service.Reach Machine.anything t)
    (h : step t a = some t') : service.Reach Machine.anything t' :=
  ht.next trivial h

/-- One event of the manager: the machine has the action, and simulates on. -/
theorem Simulates.event (h : Simulates s) (hc : Possible cfg s (.event e)) :
    ∃ t, Joint.step s (.event e) = some t ∧ Simulates t := by
  have hok := ok_of_possible hc
  obtain ⟨hrunning, _, hhead⟩ := hc
  have hopen := h.running hrunning
  have hhandling := h.handling
  -- An event that is no action leaves the machine as it is.
  have hplain : actOf (deskOf s.trace) e = none →
      sending ((deskOf s.trace).next e) = sending (deskOf s.trace) →
      ∃ t, Joint.step s (.event e) = some t ∧ Simulates t := by
    intro hact hsame
    refine ⟨{ s with trace := s.trace ++ [e] }, ?_, h.aside hsame⟩
    rw [Joint.step, hact]
  -- An action of the machine that leaves it busy as the program is.
  have hact : ∀ act t, actOf (deskOf s.trace) e = some act → step s.state act = some t →
      t.manager.handling.map (fun q => (q.toNumber, q.body))
        = sending ((deskOf s.trace).next e) → t.manager.closed = false →
      ∃ t, Joint.step s (.event e) = some t ∧ Simulates t := by
    intro act t hact hstep hbusy hclosed
    refine ⟨⟨t, s.trace ++ [e], s.returned⟩, ?_, ?_⟩
    · rw [Joint.step, hact]
      show (step s.state act).map _ = _
      rw [hstep, Option.map_some]
    · refine ⟨reach_step h.reach hstep, ?_, fun _ => hclosed⟩
      rw [deskOf_append]
      exact hbusy
  -- The request that is being served is the one the machine is busy with.
  have hbusy : ∀ toNumber body, sending (deskOf s.trace) = some (toNumber, body) →
      ∃ q, s.state.manager.handling = some q := by
    intro toNumber body hsending
    rw [hsending] at hhandling
    obtain ⟨q, hq, _⟩ := Option.map_eq_some_iff.mp hhandling
    exact ⟨q, hq⟩
  cases e with
  | took r =>
    have hvacant : (deskOf s.trace).request = none := hok
    have hnone : sending (deskOf s.trace) = none := by rw [sending, hvacant]
    cases r with
    | raw command => exact hplain rfl hnone.symm
    | sendSms toNumber body =>
      obtain ⟨q, rest, hchannel, hto, hbody⟩ := hhead toNumber body rfl
      rw [hnone, Option.map_eq_none_iff] at hhandling
      have hmanager : s.state.manager = ⟨q :: rest, none, false⟩ := by
        rw [← hchannel, ← hhandling, ← hopen]
      apply hact .recv { s.state with manager := ⟨rest, some q, false⟩ } rfl
      · simp only [step, hmanager]
      · show some (q.toNumber, q.body) = some (toNumber, body)
        rw [hto, hbody]
      · rfl
  | repliedSend r =>
    obtain ⟨toNumber, body, hrequest⟩ := hok
    obtain ⟨q, hq⟩ := hbusy toNumber body (by rw [sending, hrequest])
    apply hact (.reply r) (s.state.answer q r) rfl
    · rw [step, hq, Option.map_some]
    · rfl
    · exact hopen
  | repliedRaw x =>
    have hrequest : (deskOf s.trace).request = some (.raw x.command) := hok
    have hnone : sending (deskOf s.trace) = none := by rw [sending, hrequest]
    exact hplain rfl hnone.symm
  | ended outcome =>
    cases hsending : sending (deskOf s.trace) with
    | none =>
      apply hplain
      · simp [actOf, hsending]
      · rw [hsending]
        rfl
    | some pair =>
      obtain ⟨q, hq⟩ := hbusy pair.1 pair.2 hsending
      apply hact .disconnect (s.state.answer q droppedReply)
      · simp [actOf, hsending]
      · rw [step, hq, Option.map_some]
      · rfl
      · exact hopen
  | wrote out reply => cases out <;> exact hplain rfl rfl
  | _ => exact hplain rfl rfl

theorem Simulates.exit (h : Simulates s) (hc : Possible cfg s .exit) :
    ∃ t, Joint.step s .exit = some t ∧ Simulates t := by
  have hnone : sending (deskOf s.trace) = none := by rw [sending, vacant_of_exit hc]
  have hhandling := h.handling
  rw [hnone, Option.map_eq_none_iff] at hhandling
  have hclose : step s.state .close
      = some { s.state with manager := { s.state.manager with closed := true } } := by
    rw [step, if_pos hhandling]
  refine ⟨⟨_, s.trace, true⟩, ?_, reach_step h.reach hclose, ?_, fun hr => by cases hr⟩
  · rw [Joint.step, hclose, Option.map_some]
  · exact h.handling

theorem Simulates.step {act : JointAct} (h : Simulates s) (hc : Possible cfg s act)
    (hstep : Joint.step s act = some s') : Simulates s' := by
  cases act with
  | task a =>
    simp only [Joint.step] at hstep
    split at hstep
    · cases hstep
    · next ha =>
      obtain ⟨t, ht, rfl⟩ := Option.map_eq_some_iff.mp hstep
      obtain ⟨hhandling, hclosed⟩ := step_manager (by simpa using ha) ht
      refine ⟨reach_step h.reach ht, ?_, fun hr => hclosed.trans (h.running hr)⟩
      show t.manager.handling.map _ = _
      rw [hhandling]
      exact h.handling
  | event e =>
    obtain ⟨t, ht, hsim⟩ := h.event hc
    rw [ht] at hstep
    exact Option.some.inj hstep ▸ hsim
  | exit =>
    obtain ⟨t, ht, hsim⟩ := h.exit hc
    rw [ht] at hstep
    exact Option.some.inj hstep ▸ hsim

end Steps

theorem simulates_invariant (cfg : Modem.Config) :
    joint.Inductive (Possible cfg) Simulates where
  start s hs := by
    obtain ⟨hstart, htrace, hreturned⟩ := hs
    refine ⟨⟨s.state, hstart, .refl _⟩, ?_, ?_⟩
    · rw [hstart.manager, htrace]
      rfl
    · intro _
      rw [hstart.manager]
  step s a t h hc ht := h.step hc ht

/-- The joint state is one of the machine, and whatever the program of the manager
does next is open to the machine. -/
structure Simulated (cfg : Modem.Config) (s : Joint) : Prop where
  reach : service.Reach Machine.anything s.state
  handling : s.state.manager.handling.map (fun q => (q.toNumber, q.body)) = sending (deskOf s.trace)
  event : ∀ e, Possible cfg s (.event e) → (Joint.step s (.event e)).isSome
  exit : Possible cfg s .exit → (Joint.step s .exit).isSome

/-- In every interleaving of the tasks with a run of the manager's program, the
machine goes along with the program. -/
theorem manager_simulated (cfg : Modem.Config) :
    joint.Always (Possible cfg) (Simulated cfg) := by
  intro s hr
  have h : Simulates s := (simulates_invariant cfg).reach hr
  refine ⟨h.reach, h.handling, ?_, ?_⟩
  · intro e hc
    obtain ⟨t, ht, _⟩ := h.event hc
    rw [ht]
    rfl
  · intro hc
    obtain ⟨t, ht, _⟩ := h.exit hc
    rw [ht]
    rfl

/-! ## A message that is delivered -/

section Run

variable {cfg : Modem.Config} {s t : Joint}

theorem trace_of_event {e : Modem.Event} (h : joint.step s (.event e) = some t) :
    t.trace = s.trace ++ [e] ∧ t.returned = s.returned := by
  simp only [joint, Joint.step] at h
  split at h
  · obtain ⟨state, -, rfl⟩ := Option.map_eq_some_iff.mp h
    exact ⟨rfl, rfl⟩
  · cases h
    exact ⟨rfl, rfl⟩

theorem trace_of_events {es : List Modem.Event} (h : joint.exec s (es.map .event) = some t) :
    t.trace = s.trace ++ es ∧ t.returned = s.returned := by
  induction es generalizing s with
  | nil =>
    cases h
    exact ⟨(List.append_nil _).symm, rfl⟩
  | cons e es ih =>
    obtain ⟨u, hu, hrest⟩ := Option.bind_eq_some_iff.mp h
    obtain ⟨htrace, hreturned⟩ := trace_of_event hu
    rw [(ih hrest).1, (ih hrest).2, htrace, hreturned, List.append_assoc]
    exact ⟨rfl, rfl⟩

/-- Events of a run in which no send is taken ask nothing of the channel. -/
theorem meets_events (script : List Modem.Answer) {es : List Modem.Event}
    (hreturned : s.returned = false)
    (hbegins : s.trace ++ es <+: (runModemManager cfg script).trace)
    (hquiet : ∀ e ∈ es, ∀ toNumber body, e ≠ .took (.sendSms toNumber body)) :
    joint.Meets (Possible cfg) s (es.map .event) := by
  induction es generalizing s with
  | nil => exact trivial
  | cons e es ih =>
    obtain ⟨hfirst, hrest⟩ := List.forall_mem_cons.mp hquiet
    have hnext : (s.trace ++ [e]) ++ es <+: (runModemManager cfg script).trace := by
      rw [List.append_assoc]
      exact hbegins
    refine ⟨⟨hreturned, ⟨script, (List.prefix_append _ es).trans hnext⟩, ?_⟩, fun t ht => ?_⟩
    · exact fun toNumber body he => absurd he (hfirst toNumber body)
    · obtain ⟨htrace, hkept⟩ := trace_of_event ht
      exact ih (hkept.trans hreturned) (htrace ▸ hnext) hrest

theorem trace_of_tasks {acts : List Act} (h : joint.exec s (acts.map .task) = some t) :
    t.trace = s.trace ∧ t.returned = s.returned := by
  induction acts generalizing s with
  | nil =>
    cases h
    exact ⟨rfl, rfl⟩
  | cons a acts ih =>
    obtain ⟨u, hu, hrest⟩ := Option.bind_eq_some_iff.mp h
    simp only [joint, Joint.step] at hu
    split at hu
    · cases hu
    · obtain ⟨state, -, rfl⟩ := Option.map_eq_some_iff.mp hu
      have hkept := ih hrest
      exact hkept

theorem meets_tasks (acts : List Act) : joint.Meets (Possible cfg) s (acts.map .task) := by
  apply Machine.meets_of_forall
  intro a ha s
  obtain ⟨b, -, rfl⟩ := List.mem_map.mp ha
  exact trivial

/-- Tasks, the manager up to a request that is the next one in the channel and from
there on, and tasks again. -/
theorem meets_serving {script : List Modem.Answer} {before after : List Modem.Event}
    {first last : List Act} {toNumber body : String} {w : Joint}
    (hnil : s.trace = []) (hreturned : s.returned = false)
    (htrace : before ++ [.took (.sendSms toNumber body)] ++ after
      <+: (runModemManager cfg script).trace)
    (hquiet : ∀ e ∈ before ++ after, ∀ toNumber body, e ≠ .took (.sendSms toNumber body))
    (ht : joint.exec s (first.map .task ++ before.map .event) = some t)
    (hchannel : ∃ q rest, t.state.manager.channel = q :: rest ∧ q.toNumber = toNumber ∧
      q.body = body)
    (hw : joint.exec s (first.map .task ++ before.map .event ++
      .event (.took (.sendSms toNumber body)) :: (after.map .event ++ last.map .task)) = some w) :
    joint.Meets (Possible cfg) s (first.map .task ++ before.map .event ++
      .event (.took (.sendSms toNumber body)) :: (after.map .event ++ last.map .task)) := by
  have hup := ht
  rw [Machine.exec_append_eq] at hup
  obtain ⟨r, hr, hup⟩ := Option.bind_eq_some_iff.mp hup
  obtain ⟨hrtrace, hrreturned⟩ := trace_of_tasks hr
  obtain ⟨httrace, htreturned⟩ := trace_of_events hup
  rw [hrtrace, hnil, List.nil_append] at httrace
  rw [hrreturned, hreturned] at htreturned
  rw [Machine.exec_append_eq, ht, Option.bind_some, Machine.exec] at hw
  obtain ⟨u, hu, hw⟩ := Option.bind_eq_some_iff.mp hw
  obtain ⟨hutrace, hureturned⟩ := trace_of_event hu
  rw [Machine.exec_append_eq] at hw
  obtain ⟨v, hv, -⟩ := Option.bind_eq_some_iff.mp hw
  have htaken : before ++ [.took (.sendSms toNumber body)] <+: (runModemManager cfg script).trace :=
    (List.prefix_append _ after).trans htrace
  refine .append (.append (meets_tasks first) hr (meets_events script ?_ ?_ ?_)) ht
    (.cons ⟨htreturned, ⟨script, ?_⟩, ?_⟩ hu
      (.append (meets_events script ?_ ?_ ?_) hv (meets_tasks last)))
  · exact hrreturned.trans hreturned
  · rw [hrtrace, hnil, List.nil_append]
    exact (List.prefix_append _ _).trans htaken
  · exact fun e he => hquiet e (List.mem_append_left _ he)
  · rw [httrace]
    exact htaken
  · intro toNumber' body' htook
    cases htook
    exact hchannel
  · exact hureturned.trans htreturned
  · rw [hutrace, httrace]
    exact htrace
  · exact fun e he => hquiet e (List.mem_append_right _ he)

end Run

/-- The answers that the program of the manager gets. -/
def deliversHello : List Modem.Answer :=
  Modem.connects ++ [.took (.sendSms "+15551230000" "hello")] ++ Modem.answered ["OK"] ++
    [.quiet, { prompt := .prompt [] }] ++ Modem.answered ["+CMGS: 42", "OK"]

def helloTrace : List Modem.Event := (runModemManager Modem.plainConfig deliversHello).trace

/-- The message is handed over, and the manager comes up. -/
def comesUp : List JointAct := handedOver.map .task ++ (helloTrace.take 31).map .event

/-- The manager takes the message and delivers it, and the task of the message goes on. -/
def jointly : List JointAct :=
  comesUp ++ .event (.took (.sendSms "+15551230000" "hello")) ::
    ((helloTrace.drop 32).map .event ++ (delivered.drop 5).map .task)

def takesNothing : Modem.Event → Bool
  | .took _ => false
  | _ => true

theorem helloTrace_took :
    helloTrace.take 31 ++ [.took (.sendSms "+15551230000" "hello")] ++ helloTrace.drop 32
      <+: (runModemManager Modem.plainConfig deliversHello).trace :=
  ⟨[], by decide +kernel⟩

theorem helloTrace_quiet : ∀ e ∈ helloTrace.take 31 ++ helloTrace.drop 32, ∀ toNumber body,
    e ≠ .took (.sendSms toNumber body) := by
  have hquiet : (helloTrace.take 31 ++ helloTrace.drop 32).all takesNothing = true := by
    decide +kernel
  intro e he toNumber body htook
  have h := List.all_eq_true.mp hquiet e he
  rw [htook] at h
  cases h

/-- The machine goes along until the row says that the message was sent. -/
theorem manager_simulated_hello :
    ∃ s, joint.exec ⟨fresh, [], false⟩ jointly = some s ∧ Simulated Modem.plainConfig s ∧
      s.trace = helloTrace ∧ s.state.table.rows.map (fun m => m.status) = [.sent] := by
  have hup : (joint.exec ⟨fresh, [], false⟩ comesUp).map (fun s =>
      s.state.manager.channel.map (fun q => (q.toNumber, q.body)))
      = some [("+15551230000", "hello")] := by decide +kernel
  have hrun : (joint.exec ⟨fresh, [], false⟩ jointly).map (fun s =>
      (s.trace, s.state.table.rows.map (fun m => m.status))) = some (helloTrace, [.sent]) := by
    decide +kernel
  obtain ⟨t, ht, hchannel⟩ := Option.map_eq_some_iff.mp hup
  obtain ⟨q, rest, hq, hhead, -⟩ := List.map_eq_cons_iff.mp hchannel
  obtain ⟨hto, hbody⟩ := Prod.mk.inj hhead
  obtain ⟨s, hs, hend⟩ := Option.map_eq_some_iff.mp hrun
  obtain ⟨htrace, hrows⟩ := Prod.mk.inj hend
  have hmeets : joint.Meets (Possible Modem.plainConfig) ⟨fresh, [], false⟩ jointly :=
    meets_serving rfl rfl helloTrace_took helloTrace_quiet ht
      ⟨q, rest, hq, hto, hbody⟩ hs
  exact ⟨s, hs, manager_simulated Modem.plainConfig s
    (Machine.reach_of_meets ⟨starting_fresh, rfl, rfl⟩ hmeets hs), htrace, hrows⟩

end Outbound
end GreenRelay
