/-
The event bus, its connected clients, and what reaches them.

`events_handler` gives each client a subscription of its own and writes every
event that it receives as a frame; a client that has fallen behind the channel is
told so, which the handler skips without a word.  Between two frames comments keep
the connection alive.  An action is one of the things that producers, handlers
and clients do, in any order.

`clients_receive` goes from `publish` to the Python client: whatever has been
written to a client so far, the client reads from it the events that its
subscription delivered, in their order.
-/
import GreenRelay.Events.Stream
import GreenRelay.Lib.Broadcast
import GreenRelay.Lib.Machine

namespace GreenRelay
namespace Events

open Broadcast

def eventBusCapacity : Nat := 256

/-- What `EventBus::new` asks the channel for. -/
def channelCapacity (capacity : Nat) : Nat := max capacity 1

/-- A connected client: its subscription, and the lines that were written to it. -/
structure Subscriber where
  reader : Reader ServiceEvent
  lines : List (List Char)

/-- The channel and the handlers of the connected clients.  `sent` is what was sent
over the channel so far. -/
structure Bus where
  sent : List ServiceEvent
  clients : List Subscriber

inductive BusAct where
  | publish (e : ServiceEvent)
  | subscribe
  /-- The stream of a client is polled. -/
  | poll (i : Nat)
  | keepAlive (i : Nat) (comment : List Char)
  | disconnect (i : Nat)

/-- Without a receiver `send` fails and the error is dropped. -/
def Bus.publish (b : Bus) (e : ServiceEvent) : Bus :=
  if b.clients.isEmpty then b else { b with sent := b.sent ++ [e] }

def Bus.subscribe (b : Bus) : Bus := { b with clients := b.clients ++ [⟨.new b.sent, []⟩] }

section

variable {capacity : Nat} (chan : Channel ServiceEvent (channelCapacity capacity))
  (compact : Json → List Char)

/-- One item of the stream: an event is written as a frame, a lag is filtered out. -/
def Subscriber.poll (sent : List ServiceEvent) (c : Subscriber) : Subscriber :=
  let (reader, event) := c.reader.poll chan sent
  ⟨reader, c.lines ++ event.toList.flatMap (sseEvent compact)⟩

/-- A comment and the empty line after it. -/
def Subscriber.keepAlive (comment : List Char) (c : Subscriber) : Subscriber :=
  { c with lines := c.lines ++ [comment, []] }

def Bus.modify (b : Bus) (i : Nat) (f : Subscriber → Subscriber) : Option Bus :=
  b.clients[i]?.map (fun c => { b with clients := b.clients.set i (f c) })

def Bus.step (b : Bus) : BusAct → Option Bus
  | .publish e => some (b.publish e)
  | .subscribe => some b.subscribe
  | .poll i => b.modify i (Subscriber.poll chan compact b.sent)
  | .keepAlive i comment =>
    if isComment comment && !comment.contains '\n' && !comment.contains '\r' then
      b.modify i (Subscriber.keepAlive comment)
    else none
  | .disconnect i => b.clients[i]?.map (fun _ => { b with clients := b.clients.eraseIdx i })

def bus : Machine Bus BusAct := ⟨fun b => b = ⟨[], []⟩, Bus.step chan compact⟩

end

/-! ## The lines of a client -/

section Lines

variable {compact : Json → List Char} {loads : List Char → Except PyError Json}

/-- Whatever is written next, the client makes these events of the lines first. -/
def Reads (loads : List Char → Except PyError Json) (lines : List (List Char))
    (events : List ServiceEvent) :
    Prop :=
  ∀ rest, iterFrom loads .start ((lines ++ rest).map RawLine.str) =
    (events.map ServiceEvent.received ++ (iterFrom loads .start (rest.map RawLine.str)).1,
      (iterFrom loads .start (rest.map RawLine.str)).2)

theorem Reads.nil : Reads loads [] [] := fun _ => rfl

theorem Reads.append {xs ys : List (List Char)} {as bs : List ServiceEvent} (hx : Reads loads xs as)
    (hy : Reads loads ys bs) : Reads loads (xs ++ ys) (as ++ bs) := by
  intro rest
  rw [List.append_assoc, hx, hy, List.map_append, List.append_assoc]

theorem reads_sseEvent {e : ServiceEvent} (hjson : loads (compact e.json) = .ok e.json) :
    Reads loads (sseEvent compact e) [e] := by
  intro rest
  rw [iterFrom_sseEvent hjson]
  rfl

/-- A comment between two frames makes no event. -/
theorem reads_keepAlive {comment : List Char} (h : isComment comment = true) :
    Reads loads [comment, []] [] := by
  intro rest
  have hfilter : ([comment, []] ++ rest).filter (fun line => !isComment line)
      = [] :: rest.filter (fun line => !isComment line) := by
    rw [List.cons_append, List.filter_cons_of_neg (by simp [h]), List.cons_append,
      List.nil_append, List.filter_cons_of_pos (by rfl)]
  rw [iterFrom_comments, hfilter, iterFrom_comments rest]
  rfl

end Lines

/-! ## The invariant -/

/-- What holds of each client. -/
structure Subscriber.Sound (capacity : Nat) (loads : List Char → Except PyError Json)
    (sent : List ServiceEvent) (c : Subscriber) : Prop where
  reader : c.reader.Sound (channelCapacity capacity) sent
  reads : Reads loads c.lines c.reader.got
  breaks : ∀ line ∈ c.lines, '\n' ∉ line ∧ '\r' ∉ line

def Bus.Sound (capacity : Nat) (compact : Json → List Char)
    (loads : List Char → Except PyError Json)
    (b : Bus) : Prop :=
  (∀ e ∈ b.sent, Carries compact loads e.json) → ∀ c ∈ b.clients, c.Sound capacity loads b.sent

section

variable {capacity : Nat} {chan : Channel ServiceEvent (channelCapacity capacity)}
  {compact : Json → List Char} {loads : List Char → Except PyError Json}
  {sent : List ServiceEvent} {c : Subscriber} {b b' : Bus}

theorem Subscriber.Sound.poll (h : c.Sound capacity loads sent)
    (hjson : ∀ e ∈ sent, Carries compact loads e.json) :
    (c.poll chan compact sent).Sound capacity loads sent := by
  have hlines : (c.poll chan compact sent).lines
      = c.lines ++ (c.reader.poll chan sent).2.toList.flatMap (sseEvent compact) := rfl
  have hreader : (c.poll chan compact sent).reader = (c.reader.poll chan sent).1 := rfl
  refine ⟨h.reader.poll, ?_, ?_⟩
  · rw [hlines, hreader, Reader.poll_got]
    apply h.reads.append
    cases hevent : (c.reader.poll chan sent).2 with
    | none => exact .nil
    | some e =>
      rw [Option.toList_some, List.flatMap_singleton]
      exact reads_sseEvent (hjson e (Reader.mem_of_poll hevent)).decode
  · intro line hline
    rw [hlines] at hline
    rcases List.mem_append.mp hline with hline | hline
    · exact h.breaks line hline
    · obtain ⟨e, he, hline⟩ := List.mem_flatMap.mp hline
      exact sseEvent_line (hjson e (Reader.mem_of_poll (Option.mem_toList.mp he))) line hline

theorem Subscriber.Sound.keepAlive (h : c.Sound capacity loads sent) {comment : List Char}
    (hcomment : isComment comment = true) (hn : '\n' ∉ comment) (hr : '\r' ∉ comment) :
    (c.keepAlive comment).Sound capacity loads sent := by
  refine ⟨h.reader, ?_, ?_⟩
  · have hnothing : Reads loads [comment, []] [] := reads_keepAlive hcomment
    have hreads := h.reads.append hnothing
    rwa [List.append_nil] at hreads
  · intro line hline
    rcases List.mem_append.mp hline with hline | hline
    · exact h.breaks line hline
    · simp only [List.mem_cons, List.not_mem_nil, or_false] at hline
      rcases hline with rfl | rfl
      · exact ⟨hn, hr⟩
      · simp

theorem Bus.Sound.modify (h : b.Sound capacity compact loads) {i : Nat}
    {f : Subscriber → Subscriber}
    (hf : (∀ e ∈ b.sent, Carries compact loads e.json) → ∀ c : Subscriber,
      c.Sound capacity loads b.sent → (f c).Sound capacity loads b.sent)
    (hb : b.modify i f = some b') : b'.Sound capacity compact loads := by
  obtain ⟨c, hc, rfl⟩ := Option.map_eq_some_iff.mp hb
  intro hjson c' hc'
  rcases List.mem_or_eq_of_mem_set hc' with hold | rfl
  · exact h hjson c' hold
  · exact hf hjson c (h hjson c (List.mem_of_getElem? hc))

theorem Bus.Sound.step (h : b.Sound capacity compact loads) {a : BusAct}
    (hb : b.step chan compact a = some b') : b'.Sound capacity compact loads := by
  cases a with
  | publish e =>
    have hpublish : b' = b.publish e := (Option.some.inj hb).symm
    rw [hpublish, Bus.publish]
    split
    · exact h
    · intro hjson c hc
      have hold := h (fun x hx => hjson x (List.mem_append_left _ hx)) c hc
      exact ⟨hold.reader.send e, hold.reads, hold.breaks⟩
  | subscribe =>
    have hsubscribe : b' = b.subscribe := (Option.some.inj hb).symm
    rw [hsubscribe]
    intro hjson c hc
    rcases List.mem_append.mp hc with hold | hnew
    · exact h hjson c hold
    · rw [List.mem_singleton.mp hnew]
      exact ⟨.new _ _, .nil, fun line hline => by cases hline⟩
  | poll i => exact h.modify (fun hjson _ hc => hc.poll hjson) hb
  | keepAlive i comment =>
    simp only [Bus.step] at hb
    split at hb
    · rename_i hok
      simp only [Bool.and_eq_true, Bool.not_eq_true', List.contains_eq_mem, decide_eq_false_iff_not]
        at hok
      exact h.modify (fun _ _ hc => hc.keepAlive hok.1.1 hok.1.2 hok.2) hb
    · cases hb
  | disconnect i =>
    obtain ⟨c, _, rfl⟩ := Option.map_eq_some_iff.mp hb
    exact fun hjson c' hc' => h hjson c' (List.mem_of_mem_eraseIdx hc')

theorem Bus.Sound.invariant (chan : Channel ServiceEvent (channelCapacity capacity))
    (compact : Json → List Char) (loads : List Char → Except PyError Json) :
    (bus chan compact).Inductive Machine.anything (Bus.Sound capacity compact loads) where
  start b hb := by
    have hempty : b = ⟨[], []⟩ := hb
    rw [hempty]
    intro _ c hc
    cases hc
  step _ _ _ h _ hb := h.step hb

end

/-- In every run of producers, handlers and clients, with a channel that holds at
least its capacity: what a connected client reads from the lines that were written
to it are the events that its subscription delivered, whichever keep-alives stand
between them; these are events that were published after it connected, in that
order and each at most once; all of them up to the point it has come to, unless
it lagged; and it lagged only where it was more than the capacity behind. -/
theorem clients_receive {capacity : Nat} {chan : Channel ServiceEvent (channelCapacity capacity)}
    {compact : Json → List Char} {loads : List Char → Except PyError Json} {b : Bus}
    (hb : (bus chan compact).Reach Machine.anything b)
    (hjson : ∀ e ∈ b.sent, Carries compact loads e.json) {c : Subscriber} (hc : c ∈ b.clients)
    {raws : List RawLine} (hraws : raws.map RawLine.text = (splitLines (wire c.lines)).map some) :
    iterEvents loads raws = (c.reader.got.map ServiceEvent.received, none) ∧
      c.reader.got.Sublist (b.sent.drop c.reader.since) ∧
      (c.reader.losses = [] → c.reader.got = (b.sent.take c.reader.next).drop c.reader.since) ∧
      ∀ n ∈ c.reader.losses, max capacity 1 < n := by
  have h := (Bus.Sound.invariant chan compact loads).reach hb hjson c hc
  refine ⟨?_, ?_, h.reader.whole, h.reader.behind⟩
  · rw [splitLines_wire h.breaks] at hraws
    have hreads := h.reads []
    rw [List.append_nil] at hreads
    rw [iterEvents, iterFrom_text .start hraws, hreads, List.map_nil, iterFrom, List.append_nil]
  · exact h.reader.part.trans ((List.take_sublist _ _).drop _)

/-- One client, an event, and a comment before and after it. -/
def oneClient : List BusAct :=
  [.publish sampleEvent, .subscribe, .keepAlive 0 ":".toList, .publish sampleEvent, .poll 0,
    .keepAlive 0 ":".toList]

/-- The bus after they have happened. -/
def oneClientBus : Bus :=
  ⟨[sampleEvent], [⟨⟨0, 1, [sampleEvent], []⟩,
    [":".toList, []] ++ sseEvent (fun _ => samplePayload) sampleEvent ++ [":".toList, []]⟩]⟩

theorem clients_receive_one :
    iterEvents (fun _ => .ok sampleEvent.json) ((([":".toList, []]
        ++ sseEvent (fun _ => samplePayload) sampleEvent ++ [":".toList, []])).map RawLine.str)
      = ([sampleEvent].map ServiceEvent.received, none) := by
  have hpayload : '\n' ∉ samplePayload ∧ '\r' ∉ samplePayload := by decide +kernel
  have hcarries : Carries (fun _ => samplePayload) (fun _ => .ok sampleEvent.json)
      sampleEvent.json := ⟨hpayload.1, hpayload.2, rfl⟩
  have hreach : (bus (ring ServiceEvent (channelCapacity eventBusCapacity))
      (fun _ => samplePayload)).Reach
      Machine.anything oneClientBus := by
    refine Machine.reach_of_exec rfl (?_ : Machine.exec _ _ oneClient = some oneClientBus)
    rfl
  have hsent : ∀ e ∈ oneClientBus.sent,
      Carries (fun _ => samplePayload) (fun _ => .ok sampleEvent.json) e.json :=
    fun e he => List.mem_singleton.mp he ▸ hcarries
  have hsound := (Bus.Sound.invariant _ _ _).reach hreach hsent _ List.mem_cons_self
  exact (clients_receive hreach hsent List.mem_cons_self
    (by rw [splitLines_wire hsound.breaks]; rfl)).1

end Events
end GreenRelay
