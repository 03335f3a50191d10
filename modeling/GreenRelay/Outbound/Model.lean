/-
The delivery of outbound messages: the tasks behind the send endpoints, the
reaper of stuck messages and the modem manager, as one machine.

Two tasks can deliver the same message.  `dispatch_send` is spawned once for
every accepted request; the reaper takes rows that are still `queued` after a
grace period.  Both hand the message to the modem manager over one bounded
channel, wait for its result, write the stored status and publish an event, so
they share their phases: a `Courier` is either of them at work on one message.

An action is what happens between two points where another task can run: at an
`await`, or between two effects that another thread can see.  The handler of a
request can be dropped at each of its `await`s; the dispatch that it spawned
cannot.  The manager is its channel and the request that it is busy with.  How
long it is busy, in what order the tasks run, what the modem answers and which
statements of the database fail is left open.  Nothing here depends on a real
duration other than the clock that rows are stamped with, so a timer may go off
at any time.
-/
import GreenRelay.Lib.Machine
import GreenRelay.Lib.Table
import GreenRelay.Modem.World
import Mathlib.Data.List.Sort

namespace GreenRelay
namespace Outbound

open Modem (SendResult)

/-! ## The outbound table -/

/-- Times are nanoseconds since the epoch, which is what the stored texts order
by. -/
structure OutboundMessage where
  id : Nat
  toNumber : String
  body : String
  status : MessageStatus
  partCount : Nat
  msgReference : Option String
  errorCode : Option String
  createdAt : Nat
  updatedAt : Nat
  deriving DecidableEq, Repr

abbrev OutboundMessages := Table OutboundMessage OutboundMessage.id

def createOutboundMessage (t : OutboundMessages) (createdAt : Nat) (toNumber body : String)
    (status : MessageStatus) (partCount : Nat) : OutboundMessages :=
  t.insert (fun id => ⟨id, toNumber, body, status, partCount, none, none, createdAt, createdAt⟩)
    (fun _ => rfl)

/-- What an `UPDATE` of the status sets. -/
structure StatusWrite where
  status : MessageStatus
  msgReference : Option String
  errorCode : Option String
  deriving DecidableEq, Repr

def StatusWrite.apply (w : StatusWrite) (now : Nat) (m : OutboundMessage) : OutboundMessage :=
  { m with status := w.status, msgReference := w.msgReference, errorCode := w.errorCode,
           updatedAt := now }

theorem StatusWrite.apply_id (w : StatusWrite) (now : Nat) (m : OutboundMessage) :
    (w.apply now m).id = m.id := rfl

/-- An unconditional `UPDATE`: the status that the row holds is not looked at. -/
def setOutboundStatus (t : OutboundMessages) (now id : Nat) (w : StatusWrite) : OutboundMessages :=
  t.modify id (w.apply now) (w.apply_id now)

def queuedOutboundMessages (t : OutboundMessages) (olderThan limit : Nat) : List OutboundMessage :=
  ((t.rows.filter (fun m => m.status = .queued ∧ m.createdAt < olderThan)).insertionSort
    (fun a b => a.createdAt ≤ b.createdAt)).take limit

/-! ## Results -/

def unavailable : SendResult := ⟨.failed, none, none, some "modem manager unavailable"⟩

def droppedReply : SendResult := ⟨.failed, none, none, some "modem manager dropped the reply"⟩

/-- The resolved outcome of a single dispatch. -/
structure DispatchOutcome where
  status : MessageStatus
  reference : Option String
  deriving DecidableEq, Repr

def dispatchOutcome (r : SendResult) : DispatchOutcome :=
  match r.status with
  | .sent => ⟨.sent, r.reference⟩
  | .failed => ⟨.failed, none⟩
  | .queued => ⟨.queued, none⟩

def failureDetail (r : SendResult) : Option String := (r.errorCode.map toString).or r.error

/-- The write that a result calls for.  A message that could not be delivered
yet stays as it is. -/
def statusWrite (r : SendResult) : Option StatusWrite :=
  match r.status with
  | .sent => some ⟨.sent, r.reference, none⟩
  | .failed => some ⟨.failed, none, failureDetail r⟩
  | .queued => none

theorem statusWrite_eq_none {r : SendResult} (h : statusWrite r = none) : r.status = .queued := by
  cases hr : r.status <;> simp [statusWrite, hr] at h ⊢

/-- The write sets the status and the reference of the outcome that is
announced. -/
theorem statusWrite_outcome {r : SendResult} {w : StatusWrite} (h : statusWrite r = some w) :
    w.status = r.status ∧ r.status ≠ .queued ∧
      dispatchOutcome r = ⟨w.status, w.msgReference⟩ := by
  cases hr : r.status <;> simp [statusWrite, dispatchOutcome, hr] at h ⊢ <;> subst h <;> simp

structure MessageStatusEvent where
  id : Nat
  status : MessageStatus
  reference : Option String
  deriving DecidableEq, Repr

structure SendResponse where
  id : Nat
  status : MessageStatus
  parts : Nat
  deriving DecidableEq, Repr

structure SyncSendResponse where
  id : Nat
  status : MessageStatus
  reference : Option String
  parts : Nat
  deriving DecidableEq, Repr

/-- The responses of the send endpoints to a request that was accepted. -/
inductive Response where
  | ok (body : SyncSendResponse)
  | accepted (body : SendResponse)
  deriving DecidableEq, Repr

/-- The response of `sync_send` to the outcome that it received in time. -/
def syncResponse (id parts : Nat) (o : DispatchOutcome) : Response :=
  if o.status ≠ .queued then .ok ⟨id, o.status, o.reference, parts⟩
  else .accepted ⟨id, .queued, parts⟩

structure Metrics where
  messagesAccepted : Nat
  messagesSent : Nat
  messagesFailed : Nat
  deriving DecidableEq, Repr

def Metrics.recordOutcome (m : Metrics) (o : DispatchOutcome) : Metrics :=
  match o.status with
  | .sent => { m with messagesSent := m.messagesSent + 1 }
  | .failed => { m with messagesFailed := m.messagesFailed + 1 }
  | .queued => m

/-! ## Tasks -/

/-- Where the delivery of a message stands.  A result is `answered` while it is
on its way back in the reply channel and `resolved` once `send_sms` has returned
it. -/
inductive Phase where
  | persisted
  | submitting
  | awaiting
  | answered (result : SendResult)
  | resolved (result : SendResult)
  | recorded (outcome : DispatchOutcome)
  | counted (outcome : DispatchOutcome)
  | published (outcome : DispatchOutcome)
  | finished
  deriving DecidableEq, Repr

structure Delivery where
  toNumber : String
  body : String
  phase : Phase
  deriving DecidableEq, Repr

/-- The handler of `sync_send`, which waits for the outcome of its dispatch.  It is
dropped when its client disconnects, and then nobody is answered. -/
inductive Waiter where
  | absent
  | waiting
  | received (outcome : DispatchOutcome)
  | dropped
  deriving DecidableEq, Repr

/-- There is no handler that has yet to answer. -/
def Waiter.isOver : Waiter → Bool
  | .absent | .dropped => true
  | .waiting | .received _ => false

/-- A request to one of the send endpoints after its row was inserted, and the
dispatch that it spawns. -/
structure Dispatch where
  delivery : Delivery
  partCount : Nat
  sync : Bool
  waiter : Waiter
  deriving DecidableEq, Repr

structure Reaping where
  id : Nat
  delivery : Delivery
  deriving DecidableEq, Repr

/-- The reaper in its loop: the cutoff of a cycle that has begun, the rows of
the batch that it has not come to, and the row that it is at. -/
structure Reaper where
  cutoff : Option Nat
  todo : List OutboundMessage
  current : Option Reaping
  deriving DecidableEq, Repr

/-- A task at work on one message. -/
inductive Courier where
  | dispatch (id : Nat)
  | reaper (id : Nat)
  deriving DecidableEq, Repr

def Courier.id : Courier → Nat
  | .dispatch id => id
  | .reaper id => id

/-- The other task that may be at work on the same message. -/
def Courier.rival : Courier → Courier
  | .dispatch id => .reaper id
  | .reaper id => .dispatch id

theorem Courier.rival_id (c : Courier) : c.rival.id = c.id := by
  cases c <;> rfl

theorem Courier.rival_ne (c : Courier) : c.rival ≠ c := by
  cases c <;> exact fun h => by cases h

theorem Courier.eq_or_rival {c c' : Courier} (h : c'.id = c.id) : c' = c ∨ c' = c.rival := by
  cases c <;> cases c' <;> simp_all [Courier.id, Courier.rival]

/-- All tasks.  A reaper that was aborted is `none`. -/
structure Tasks where
  dispatches : Nat → Option Dispatch
  reaper : Option Reaper

def Delivery.enter (p : Phase) (d : Delivery) : Delivery := { d with phase := p }

def Reaping.enter (id : Nat) (p : Phase) (c : Reaping) : Reaping :=
  if c.id = id then { c with delivery := c.delivery.enter p } else c

namespace Tasks

def delivery (t : Tasks) : Courier → Option Delivery
  | .dispatch id => (t.dispatches id).map (·.delivery)
  | .reaper id =>
    (t.reaper.bind (·.current)).bind (fun c => if c.id = id then some c.delivery else none)

def phase (t : Tasks) (c : Courier) : Option Phase := (t.delivery c).map (·.phase)

def setDispatch (t : Tasks) (id : Nat) (f : Dispatch → Dispatch) : Tasks :=
  { t with dispatches := fun j => if j = id then (t.dispatches j).map f else t.dispatches j }

def setReaper (t : Tasks) (f : Reaper → Reaper) : Tasks := { t with reaper := t.reaper.map f }

/-- The courier goes on to a phase. -/
def move (t : Tasks) (c : Courier) (p : Phase) : Tasks :=
  match c with
  | .dispatch id => t.setDispatch id (fun d => { d with delivery := d.delivery.enter p })
  | .reaper id => t.setReaper (fun r => { r with current := r.current.map (Reaping.enter id p) })

/-- The reaper is done with the row that it is at. -/
def leaveCurrent (t : Tasks) : Tasks := t.setReaper (fun r => { r with current := none })

def setWaiter (t : Tasks) (id : Nat) (w : Waiter) : Tasks :=
  t.setDispatch id (fun d => { d with waiter := w })

/-- The outcome for the handler, which may have stopped waiting. -/
def handOver (t : Tasks) (id : Nat) (o : DispatchOutcome) : Tasks :=
  t.setDispatch id (fun d => if d.waiter = .waiting then { d with waiter := .received o } else d)

def spawn (t : Tasks) (id : Nat) (d : Dispatch) : Tasks :=
  { t with dispatches := fun j => if j = id then some d else t.dispatches j }

/-- No dispatch is spawned for a row whose handler was dropped at the insertion. -/
def forget (t : Tasks) (id : Nat) : Tasks :=
  { t with dispatches := fun j => if j = id then none else t.dispatches j }

/-- A result in the reply channel of the task that waits for it, if that task is
still there. -/
def deliver (t : Tasks) (c : Courier) (r : SendResult) : Tasks :=
  if t.phase c = some .awaiting then t.move c (.answered r) else t

end Tasks

/-- The reaper takes the next row of its batch. -/
def Reaper.next (r : Reaper) : Option Reaper :=
  match r.current, r.todo with
  | none, m :: rest =>
    some { r with todo := rest, current := some ⟨m.id, ⟨m.toNumber, m.body, .submitting⟩⟩ }
  | _, _ => none

/-! ## The manager -/

/-- A request in the channel.  The source identifies it by the sender of its
reply channel, that is, by the task that waits for it. -/
structure SendSms where
  toNumber : String
  body : String
  reply : Courier
  deriving DecidableEq, Repr

structure Manager where
  channel : List SendSms
  handling : Option SendSms
  closed : Bool
  deriving DecidableEq, Repr

/-- The tasks whose requests are waiting in the channel or being handled. -/
def Manager.callers (m : Manager) : List Courier :=
  (m.handling.toList ++ m.channel).map (·.reply)

def modemChannelBuffer : Nat := 32

/-! ## The service -/

/-- What an observer of `ModemHandle::send_sms` sees. -/
inductive Entry where
  | submitted (id : Nat)
  | returned (id : Nat) (status : MessageStatus)
  deriving DecidableEq, Repr

def Entry.id : Entry → Nat
  | .submitted id => id
  | .returned id _ => id

/-- `events`, `responses` and `history` are what has been seen from outside so
far. -/
structure State where
  now : Nat
  table : OutboundMessages
  manager : Manager
  tasks : Tasks
  metrics : Metrics
  events : List MessageStatusEvent
  responses : List Response
  history : List Entry

def queuedReapBatch : Nat := 200

def queuedReapGraceSecs : Nat := 300

def nanosPerSec : Nat := 1000000000

def grace : Nat := queuedReapGraceSecs * nanosPerSec

namespace State

/-- The row of a request that passed validation and the deliverability gate.
The clock was read before the statement ran. -/
def prepareSend (s : State) (createdAt : Nat) (toNumber body : String) (partCount : Nat)
    (sync : Bool) : State :=
  { s with
    table := createOutboundMessage s.table createdAt toNumber body .queued partCount
    tasks := s.tasks.spawn (s.table.seq + 1)
      ⟨⟨toNumber, body, .persisted⟩, partCount, sync, .absent⟩ }

/-- The end of `prepare_send` and the `tokio::spawn` of `queue_send`, which
answers at once. -/
def queueSend (s : State) (id : Nat) (d : Dispatch) : State :=
  { s with
    tasks := s.tasks.move (.dispatch id) .submitting
    metrics := { s.metrics with messagesAccepted := s.metrics.messagesAccepted + 1 }
    responses := s.responses ++ [.accepted ⟨id, .queued, d.partCount⟩] }

/-- The same in `sync_send`, which begins to wait. -/
def syncSend (s : State) (id : Nat) : State :=
  { s with
    tasks := (s.tasks.move (.dispatch id) .submitting).setWaiter id .waiting
    metrics := { s.metrics with messagesAccepted := s.metrics.messagesAccepted + 1 } }

/-- `send_sms` gives its request away. -/
def submit (s : State) (c : Courier) (d : Delivery) : State :=
  { s with
    tasks := s.tasks.move c .awaiting
    manager := { s.manager with channel := s.manager.channel ++ [⟨d.toNumber, d.body, c⟩] }
    history := s.history ++ [.submitted c.id] }

/-- `send_sms` returns. -/
def resolve (s : State) (c : Courier) (r : SendResult) : State :=
  { s with
    tasks := s.tasks.move c (.resolved r)
    history := s.history ++ [.returned c.id r.status] }

/-- The manager is done with the request that it was busy with. -/
def answer (s : State) (q : SendSms) (r : SendResult) : State :=
  { s with
    tasks := s.tasks.deliver q.reply r
    manager := { s.manager with handling := none } }

/-- The status write of a terminal result, whose error is discarded. -/
def recordStatus (s : State) (c : Courier) (r : SendResult) (w : StatusWrite) (ok : Bool) : State :=
  { s with
    tasks := s.tasks.move c (.recorded (dispatchOutcome r))
    table := if ok then setOutboundStatus s.table s.now c.id w else s.table }

def recordMetric (s : State) (id : Nat) (o : DispatchOutcome) : State :=
  { s with
    tasks := s.tasks.move (.dispatch id) (.counted o)
    metrics := s.metrics.recordOutcome o }

def publish (s : State) (id : Nat) (o : DispatchOutcome) (t : Tasks) : State :=
  { s with tasks := t, events := s.events ++ [⟨id, o.status, o.reference⟩] }

/-- The end of `dispatch_send`. -/
def replyOutcome (s : State) (id : Nat) (o : DispatchOutcome) : State :=
  { s with tasks := (s.tasks.move (.dispatch id) .finished).handOver id o }

/-- The response of a `sync_send` handler, which ends it. -/
def respond (s : State) (id : Nat) (r : Response) : State :=
  { s with tasks := s.tasks.setWaiter id .absent, responses := s.responses ++ [r] }

def setReaper (s : State) (r : Option Reaper) : State :=
  { s with tasks := { s.tasks with reaper := r } }

end State

inductive Act where
  /-- The system clock, which may be set. -/
  | clock (now : Nat)
  | prepareSend (createdAt : Nat) (toNumber body : String) (partCount : Nat) (sync : Bool)
  | spawnDispatch (id : Nat)
  /-- `send_sms` up to the point where its request is in the channel. -/
  | submit (c : Courier)
  /-- `send_sms` returns the result that was sent back. -/
  | wake (c : Courier)
  /-- The manager takes the next request. -/
  | recv
  | reply (r : SendResult)
  /-- An I/O error ends the session and with it the request. -/
  | disconnect
  /-- The manager returns. -/
  | close
  | dropQueued
  | recordStatus (c : Courier) (ok : Bool)
  | leaveQueued (c : Courier)
  | recordMetric (id : Nat)
  | publish (c : Courier)
  | replyOutcome (id : Nat)
  | respond (id : Nat)
  /-- The wait of `sync_send` is over. -/
  | expire (id : Nat)
  /-- The client disconnects, and its handler is dropped at the `await` that it is
  at: the insertion of its row, which the database carries out all the same, or the
  wait of `sync_send`. -/
  | dropHandler (id : Nat)
  /-- A cycle of the reaper begins with a look at the clock. -/
  | tick
  | queryQueued (ok : Bool)
  | nextStuck
  | abort
  deriving DecidableEq, Repr

def step (s : State) : Act → Option State
  | .clock now => some { s with now := now }
  | .prepareSend createdAt toNumber body partCount sync =>
    some (s.prepareSend createdAt toNumber body partCount sync)
  | .spawnDispatch id =>
    match s.tasks.dispatches id with
    | some d =>
      if d.delivery.phase ≠ .persisted then none
      else if d.sync then some (s.syncSend id)
      else some (s.queueSend id d)
    | none => none
  | .submit c =>
    match s.tasks.delivery c with
    | some d =>
      if d.phase ≠ .submitting then none
      else if s.manager.closed then some (s.resolve c unavailable)
      else if s.manager.channel.length < modemChannelBuffer then some (s.submit c d)
      else none
    | none => none
  | .wake c =>
    match s.tasks.phase c with
    | some (.answered r) => some (s.resolve c r)
    | _ => none
  | .recv =>
    match s.manager with
    | ⟨q :: rest, none, false⟩ => some { s with manager := ⟨rest, some q, false⟩ }
    | _ => none
  | .reply r => s.manager.handling.map (fun q => s.answer q r)
  | .disconnect => s.manager.handling.map (fun q => s.answer q droppedReply)
  | .close =>
    if s.manager.handling = none then some { s with manager := { s.manager with closed := true } }
    else none
  | .dropQueued =>
    match s.manager with
    | ⟨q :: rest, none, true⟩ =>
      some { s with
        tasks := s.tasks.deliver q.reply droppedReply
        manager := ⟨rest, none, true⟩ }
    | _ => none
  | .recordStatus c ok =>
    match s.tasks.phase c with
    | some (.resolved r) => (statusWrite r).map (fun w => s.recordStatus c r w ok)
    | _ => none
  | .leaveQueued c =>
    match s.tasks.phase c with
    | some (.resolved r) =>
      if statusWrite r ≠ none then none
      else match c with
        | .dispatch id =>
          some { s with tasks := s.tasks.move (.dispatch id) (.published (dispatchOutcome r)) }
        | .reaper _ => some { s with tasks := s.tasks.leaveCurrent }
    | _ => none
  | .recordMetric id =>
    match s.tasks.phase (.dispatch id) with
    | some (.recorded o) => some (s.recordMetric id o)
    | _ => none
  | .publish (.dispatch id) =>
    match s.tasks.phase (.dispatch id) with
    | some (.counted o) => some (s.publish id o (s.tasks.move (.dispatch id) (.published o)))
    | _ => none
  | .publish (.reaper id) =>
    match s.tasks.phase (.reaper id) with
    | some (.recorded o) => some (s.publish id o s.tasks.leaveCurrent)
    | _ => none
  | .replyOutcome id =>
    match s.tasks.phase (.dispatch id) with
    | some (.published o) => some (s.replyOutcome id o)
    | _ => none
  | .respond id =>
    match s.tasks.dispatches id with
    | some ⟨_, parts, _, .received o⟩ => some (s.respond id (syncResponse id parts o))
    | _ => none
  | .expire id =>
    match s.tasks.dispatches id with
    | some ⟨_, parts, _, .waiting⟩ => some (s.respond id (.accepted ⟨id, .queued, parts⟩))
    | _ => none
  | .dropHandler id =>
    match s.tasks.dispatches id with
    | some d =>
      if d.delivery.phase = .persisted then some { s with tasks := s.tasks.forget id }
      else if d.waiter.isOver then none
      else some { s with tasks := s.tasks.setWaiter id .dropped }
    | none => none
  | .tick =>
    match s.tasks.reaper with
    | some ⟨none, [], none⟩ => some (s.setReaper (some ⟨some (s.now - grace), [], none⟩))
    | _ => none
  | .queryQueued ok =>
    match s.tasks.reaper with
    | some ⟨some cutoff, [], none⟩ =>
      let stuck := if ok then queuedOutboundMessages s.table cutoff queuedReapBatch else []
      some (s.setReaper (some ⟨none, stuck, none⟩))
    | _ => none
  | .nextStuck => (s.tasks.reaper.bind Reaper.next).map (fun r => s.setReaper (some r))
  | .abort => some (s.setReaper none)

/-- The start of the service, on the rows that earlier runs left. -/
structure Starting (s : State) : Prop where
  manager : s.manager = ⟨[], none, false⟩
  tasks : s.tasks = ⟨fun _ => none, some ⟨none, [], none⟩⟩
  metrics : s.metrics = ⟨0, 0, 0⟩
  events : s.events = []
  responses : s.responses = []
  history : s.history = []

def service : Machine State Act := ⟨Starting, step⟩

/-- The service on an empty table. -/
def fresh : State :=
  ⟨0, .empty, ⟨[], none, false⟩, ⟨fun _ => none, some ⟨none, [], none⟩⟩, ⟨0, 0, 0⟩, [], [], []⟩

theorem starting_fresh : Starting fresh := ⟨rfl, rfl, rfl, rfl, rfl, rfl⟩

/-- A message on its way to the modem. -/
def handedOver : List Act :=
  [.prepareSend 0 "+15551230000" "hello" 1 false, .spawnDispatch 1, .submit (.dispatch 1)]

/-- A message that is sent and recorded. -/
def delivered : List Act :=
  handedOver ++ [.recv, .reply ⟨.sent, some "42", none, none⟩, .wake (.dispatch 1),
    .recordStatus (.dispatch 1) true, .recordMetric 1, .publish (.dispatch 1)]

/-- A message whose delivery is deferred, up to the reaper's look at its row. -/
def deferred : List Act :=
  handedOver ++ [.recv,
    .reply ⟨.queued, none, none, some "modem not ready for delivery; will retry"⟩,
    .wake (.dispatch 1), .leaveQueued (.dispatch 1), .replyOutcome 1, .clock (grace + 1), .tick]

/-- A batch with one row, which is sent and recorded. -/
def reaped : List Act :=
  [.queryQueued true, .nextStuck, .submit (.reaper 1), .recv,
    .reply ⟨.sent, some "42", none, none⟩, .wake (.reaper 1), .recordStatus (.reaper 1) true,
    .publish (.reaper 1)]

/-- A message that is not deliverable at first is sent by the reaper. -/
def reapedLater : List Act := deferred ++ reaped

/-- The state after actions that are possible on an empty table. -/
def stateAfter (acts : List Act) : State := (service.exec fresh acts).getD fresh

end Outbound
end GreenRelay
