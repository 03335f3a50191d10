/-
The event stream, from the service to the Python client.

The service writes each event as a frame of three lines: its name, its payload
as JSON and an empty line.  The client reads lines, skips comments, and makes an
event of what it has when an empty line comes.  The two JSON libraries are
parameters; what is asked of them is that they agree on the payloads
(`Carries`).
-/
import GreenRelay.Lib.Text
import GreenRelay.Lib.Unicode
import GreenRelay.Modem.Protocol

namespace GreenRelay
namespace Events

open Text Unicode

/-- JSON values.  A number that is no integer is kept as it is written. -/
inductive Json where
  | null
  | bool (b : Bool)
  | int (n : Int)
  | float (literal : String)
  | str (s : String)
  | arr (items : List Json)
  | obj (fields : List (String × Json))

/-! ## The service -/

structure MessageStatusEvent where
  id : Int
  status : MessageStatus
  reference : Option String
  deriving DecidableEq, Repr

structure InboundSmsEvent where
  id : Int
  sender : String
  body : String
  deriving DecidableEq, Repr

inductive ServiceEvent where
  | messageStatus (payload : MessageStatusEvent)
  | inboundSms (payload : InboundSmsEvent)
  deriving DecidableEq, Repr

def ServiceEvent.name : ServiceEvent → String
  | .messageStatus _ => "message_status"
  | .inboundSms _ => "inbound_sms"

/-- `rename_all = "lowercase"`. -/
def statusName : MessageStatus → String
  | .queued => "queued"
  | .sent => "sent"
  | .failed => "failed"

def optionalStr : Option String → Json
  | some s => .str s
  | none => .null

/-- What the derived `Serialize` makes of a payload. -/
def ServiceEvent.json : ServiceEvent → Json
  | .messageStatus p =>
    .obj [("id", .int p.id), ("status", .str (statusName p.status)),
      ("reference", optionalStr p.reference)]
  | .inboundSms p => .obj [("id", .int p.id), ("from", .str p.sender), ("body", .str p.body)]

/-- The lines of an event: `Event::event` and `Event::json_data`. -/
def sseEvent (compact : Json → List Char) (e : ServiceEvent) : List (List Char) :=
  ["event: ".toList ++ e.name.toList, "data: ".toList ++ compact e.json, []]

/-- Lines as they are sent. -/
def wire (lines : List (List Char)) : List Char := lines.flatMap (· ++ ['\n'])

/-! ## The client -/

inductive PyError where
  | unicodeDecodeError
  | jsonDecodeError
  | typeError
  | keyError (key : String)
  | valueError
  | recursionError
  deriving DecidableEq, Repr

/-- `ValueError` and its subclasses. -/
def PyError.isValueError : PyError → Bool
  | .unicodeDecodeError | .jsonDecodeError | .valueError => true
  | .typeError | .keyError _ | .recursionError => false

/-- `MessageStatusEvent` of the client; nothing checks the types of the fields. -/
structure PyMessageStatusEvent where
  id : Json
  status : MessageStatus
  reference : Json

structure PyInboundSmsEvent where
  id : Json
  sender : Json
  body : Json

inductive EventData where
  | messageStatus (e : PyMessageStatusEvent)
  | inboundSms (e : PyInboundSmsEvent)
  | payload (data : Json)

structure PyServiceEvent where
  name : String
  data : EventData

/-- The last of several entries under one key. -/
def lookupKey (fields : List (String × Json)) (key : String) : Option Json :=
  (fields.reverse.find? (·.1 = key)).map (·.2)

/-- `data[key]`. -/
def subscript (data : Json) (key : String) : Except PyError Json :=
  match data with
  | .obj fields =>
    match lookupKey fields key with
    | some value => .ok value
    | none => .error (.keyError key)
  | _ => .error .typeError

/-- `data.get(key)`, which a dictionary has. -/
def getKey (data : Json) (key : String) : Json :=
  match data with
  | .obj fields => (lookupKey fields key).getD .null
  | _ => .null

/-- The enumeration by its values. -/
def messageStatusOf : Json → Except PyError MessageStatus
  | .str "queued" => .ok .queued
  | .str "sent" => .ok .sent
  | .str "failed" => .ok .failed
  | _ => .error .valueError

def PyMessageStatusEvent.fromDict (data : Json) : Except PyError PyMessageStatusEvent := do
  let id ← subscript data "id"
  let status ← messageStatusOf (← subscript data "status")
  pure ⟨id, status, getKey data "reference"⟩

def PyInboundSmsEvent.fromDict (data : Json) : Except PyError PyInboundSmsEvent := do
  let id ← subscript data "id"
  let sender ← subscript data "from"
  let body ← subscript data "body"
  pure ⟨id, sender, body⟩

def decodeEvent (name : String) (payload : Json) : Except PyError EventData :=
  if name = "message_status" then
    (PyMessageStatusEvent.fromDict payload).map EventData.messageStatus
  else if name = "inbound_sms" then
    (PyInboundSmsEvent.fromDict payload).map EventData.inboundSms
  else .ok (.payload payload)

inductive RawLine where
  | str (s : List Char)
  | bytes (b : List UInt8)

def decodeUtf8 (bytes : List UInt8) : Option (List Char) :=
  (ByteArray.mk bytes.toArray).utf8Decode?.map Array.toList

def RawLine.text : RawLine → Option (List Char)
  | .str s => some s
  | .bytes b => decodeUtf8 b

/-- `bytes.splitlines`. -/
def splitLinesFrom : List Char → List Char → List (List Char)
  | [], [] => []
  | current, [] => [current]
  | current, '\r' :: '\n' :: s => current :: splitLinesFrom [] s
  | current, '\r' :: s => current :: splitLinesFrom [] s
  | current, '\n' :: s => current :: splitLinesFrom [] s
  | current, c :: s => splitLinesFrom (current ++ [c]) s

def splitLines (s : List Char) : List (List Char) := splitLinesFrom [] s

/-- What `iter_events` has of the event that it is reading. -/
structure Reading where
  name : Option (List Char)
  dataParts : List (List Char)

def Reading.start : Reading := ⟨none, []⟩

/-- `name or "message"`: an empty name counts as none. -/
def nameOr : Option (List Char) → List Char
  | some (c :: name) => c :: name
  | _ => "message".toList

section Client

variable (loads : List Char → Except PyError Json)

/-- The payload of an event.  A text that is no JSON is its own payload; the other
exceptions of `json.loads`, at an integer of too many digits or a value that is
nested too deep, are not caught. -/
def loadPayload (payloadText : List Char) : Except PyError Json :=
  match loads payloadText with
  | .error .jsonDecodeError => .ok (.str (String.ofList payloadText))
  | loaded => loaded

/-- The event of an empty line, where there are data. -/
def finish (r : Reading) : Except PyError (Option PyServiceEvent) :=
  if r.dataParts.isEmpty then .ok none
  else do
    let eventName := String.ofList (nameOr r.name)
    let payload ← loadPayload loads (join ['\n'] r.dataParts)
    (decodeEvent eventName payload).map (fun data => some ⟨eventName, data⟩)

/-- The name and the value of a field; one space after the colon is dropped. -/
def fieldOf (line : List Char) : List Char × List Char :=
  match splitOnce ':' line with
  | some (name, value) => (name, (stripPrefix [' '] value).getD value)
  | none => (line, [])

/-- A line that is not empty. -/
def readField (r : Reading) (line : List Char) : Reading :=
  if line.head? = some ':' then r
  else
    let (field, value) := fieldOf line
    if field = "event".toList then { r with name := some value }
    else if field = "data".toList then { r with dataParts := r.dataParts ++ [value] }
    else r

/-- The events that are yielded, and the exception that ends the iteration. -/
def iterFrom : Reading → List RawLine → List PyServiceEvent × Option PyError
  | _, [] => ([], none)
  | r, raw :: lines =>
    match raw.text with
    | none => ([], some .unicodeDecodeError)
    | some [] =>
      match finish loads r with
      | .error e => ([], some e)
      | .ok event =>
        let rest := iterFrom .start lines
        (event.toList ++ rest.1, rest.2)
    | some line => iterFrom (readField r line) lines

def iterEvents (lines : List RawLine) : List PyServiceEvent × Option PyError :=
  iterFrom loads .start lines

end Client

/-! ## Round trip -/

/-- The client's event with the fields of the service's. -/
def ServiceEvent.received : ServiceEvent → PyServiceEvent
  | .messageStatus p =>
    ⟨"message_status", .messageStatus ⟨.int p.id, p.status, optionalStr p.reference⟩⟩
  | .inboundSms p => ⟨"inbound_sms", .inboundSms ⟨.int p.id, .str p.sender, .str p.body⟩⟩

/-- The two JSON libraries agree on a value: it is written on one line and read
back as what it was. -/
structure Carries (compact : Json → List Char) (loads : List Char → Except PyError Json)
    (j : Json) :
    Prop where
  newline : '\n' ∉ compact j
  carriageReturn : '\r' ∉ compact j
  decode : loads (compact j) = .ok j

theorem ServiceEvent.name_ne_nil (e : ServiceEvent) : e.name.toList ≠ [] := by
  cases e with
  | messageStatus p =>
    show "message_status".toList ≠ []
    decide
  | inboundSms p =>
    show "inbound_sms".toList ≠ []
    decide

def isComment (line : List Char) : Bool := line.head? = some ':'

theorem decodeUtf8_utf8 (s : List Char) : decodeUtf8 (utf8 s) = some s := by
  have h : ByteArray.mk (utf8 s).toArray = s.utf8Encode := by
    rw [List.utf8Encode]
    apply ByteArray.ext
    simp [utf8]
  rw [decodeUtf8, h, List.utf8Decode?_utf8Encode]
  rfl

theorem messageStatusOf_statusName (status : MessageStatus) :
    messageStatusOf (.str (statusName status)) = .ok status := by
  cases status <;> rfl

theorem decodeEvent_json (e : ServiceEvent) :
    decodeEvent e.name e.json = .ok e.received.data := by
  cases e with
  | messageStatus p =>
    obtain ⟨id, status, reference⟩ := p
    cases status <;> rfl
  | inboundSms p => rfl

/-! ### Lines on the wire -/

theorem splitLinesFrom_line {line : List Char} (hn : '\n' ∉ line) (hr : '\r' ∉ line)
    (s : List Char) : ∀ current, splitLinesFrom current (line ++ '\n' :: s) =
      (current ++ line) :: splitLinesFrom [] s := by
  induction line with
  | nil =>
    intro current
    rw [List.nil_append, List.append_nil, splitLinesFrom]
  | cons c line ih =>
    intro current
    have hcn : c ≠ '\n' := fun e => hn (by rw [e]; exact List.mem_cons_self)
    have hcr : c ≠ '\r' := fun e => hr (by rw [e]; exact List.mem_cons_self)
    have hstep : splitLinesFrom current (c :: (line ++ '\n' :: s)) =
        splitLinesFrom (current ++ [c]) (line ++ '\n' :: s) := by
      rw [splitLinesFrom.eq_def]
      split <;> simp_all
    rw [List.cons_append, hstep, ih (fun h => hn (List.mem_cons_of_mem c h))
      (fun h => hr (List.mem_cons_of_mem c h)), List.append_assoc]
    rfl

theorem splitLines_wire {lines : List (List Char)}
    (h : ∀ line ∈ lines, '\n' ∉ line ∧ '\r' ∉ line) : splitLines (wire lines) = lines := by
  induction lines with
  | nil => rfl
  | cons line lines ih =>
    obtain ⟨hn, hr⟩ := h line List.mem_cons_self
    rw [wire, List.flatMap_cons, List.append_assoc, splitLines]
    show splitLinesFrom [] (line ++ '\n' :: wire lines) = _
    rw [splitLinesFrom_line hn hr, List.nil_append]
    show line :: splitLines (wire lines) = _
    rw [ih (fun l hl => h l (List.mem_cons_of_mem line hl))]

/-! ### The client over the lines of the service -/

section Frames

variable {compact : Json → List Char} {loads : List Char → Except PyError Json}

theorem iterFrom_text {raws : List RawLine} : ∀ {lines : List (List Char)} (r : Reading),
    raws.map RawLine.text = lines.map some →
      iterFrom loads r raws = iterFrom loads r (lines.map RawLine.str) := by
  induction raws with
  | nil =>
    intro lines r h
    cases lines with
    | nil => rfl
    | cons line lines => cases h
  | cons raw raws ih =>
    intro lines r h
    cases lines with
    | nil => cases h
    | cons line lines =>
      rw [List.map_cons, List.map_cons, List.cons.injEq] at h
      rw [List.map_cons, iterFrom, iterFrom, h.1]
      cases line with
      | nil =>
        simp only [RawLine.text]
        cases finish loads r with
        | error e => rfl
        | ok event =>
          simp only
          rw [ih .start h.2]
      | cons c line => exact ih _ h.2

/-- Comments change nothing. -/
theorem iterFrom_comments (lines : List (List Char)) : ∀ r : Reading,
    iterFrom loads r (lines.map RawLine.str) =
      iterFrom loads r ((lines.filter (fun line => !isComment line)).map RawLine.str) := by
  induction lines with
  | nil => exact fun r => rfl
  | cons line lines ih =>
    intro r
    cases line with
    | nil =>
      rw [List.filter_cons_of_pos (by rfl), List.map_cons, List.map_cons, iterFrom, iterFrom]
      simp only [RawLine.text]
      cases finish loads r with
      | error e => rfl
      | ok event =>
        simp only
        rw [ih .start]
    | cons c line =>
      rw [List.filter_cons]
      split
      · rw [List.map_cons, List.map_cons, iterFrom, iterFrom]
        exact ih _
      · next hcomment =>
        simp only [Bool.not_eq_true', Bool.not_eq_false] at hcomment
        have hskip : readField r (c :: line) = r := if_pos (of_decide_eq_true hcomment)
        rw [List.map_cons, iterFrom]
        show iterFrom loads (readField r (c :: line)) (lines.map RawLine.str) = _
        rw [hskip]
        exact ih r

theorem readField_event (r : Reading) {name : List Char} :
    readField r ("event: ".toList ++ name) = { r with name := some name } := by
  have hfield : fieldOf ("event: ".toList ++ name) = ("event".toList, name) := by
    have hsplit := splitOnce_append (c := ':') (p := "event".toList) (by decide) (' ' :: name)
    rw [fieldOf, show "event: ".toList ++ name = "event".toList ++ ':' :: ' ' :: name from rfl,
      hsplit]
    rfl
  have hhead : ("event: ".toList ++ name).head? ≠ some ':' := by
    show some 'e' ≠ some ':'
    decide
  rw [readField, if_neg hhead, hfield]
  rfl

theorem readField_data (r : Reading) {value : List Char} :
    readField r ("data: ".toList ++ value) = { r with dataParts := r.dataParts ++ [value] } := by
  have hfield : fieldOf ("data: ".toList ++ value) = ("data".toList, value) := by
    have hsplit := splitOnce_append (c := ':') (p := "data".toList) (by decide) (' ' :: value)
    rw [fieldOf, show "data: ".toList ++ value = "data".toList ++ ':' :: ' ' :: value from rfl,
      hsplit]
    rfl
  have hhead : ("data: ".toList ++ value).head? ≠ some ':' := by
    show some 'd' ≠ some ':'
    decide
  rw [readField, if_neg hhead, hfield]
  rfl

theorem nameOr_some {name : List Char} (h : name ≠ []) : nameOr (some name) = name := by
  cases name with
  | nil => exact absurd rfl h
  | cons c name => rfl

theorem finish_frame {e : ServiceEvent} (hjson : loads (compact e.json) = .ok e.json) :
    finish loads ⟨some e.name.toList, [compact e.json]⟩ = .ok (some e.received) := by
  have hname : String.ofList (nameOr (some e.name.toList)) = e.name := by
    rw [nameOr_some e.name_ne_nil, String.ofList_toList]
  have hreceived : e.received = ⟨e.name, e.received.data⟩ := by
    cases e <;> rfl
  have hpayload : loadPayload loads (join ['\n'] [compact e.json]) = .ok e.json := by
    rw [show join ['\n'] [compact e.json] = compact e.json from List.append_nil _, loadPayload,
      hjson]
  rw [finish, List.isEmpty_cons, if_neg (by decide)]
  simp only
  rw [hname, hpayload, hreceived]
  show (decodeEvent e.name e.json).map _ = _
  rw [decodeEvent_json]
  rfl

/-- The lines of an event make this event. -/
theorem iterFrom_sseEvent {e : ServiceEvent} (hjson : loads (compact e.json) = .ok e.json)
    (rest : List (List Char)) :
    iterFrom loads .start ((sseEvent compact e ++ rest).map RawLine.str) =
      (e.received :: (iterFrom loads .start (rest.map RawLine.str)).1,
        (iterFrom loads .start (rest.map RawLine.str)).2) := by
  have hlines : (sseEvent compact e ++ rest).map RawLine.str =
      .str ("event: ".toList ++ e.name.toList) :: .str ("data: ".toList ++ compact e.json) ::
        .str [] :: rest.map RawLine.str := rfl
  have hstep : ∀ (r : Reading) (c : Char) (line : List Char) (lines : List RawLine),
      iterFrom loads r (.str (c :: line) :: lines) =
        iterFrom loads (readField r (c :: line)) lines := fun r c line lines => rfl
  rw [hlines]
  show iterFrom loads .start (.str ('e' :: ("vent: ".toList ++ e.name.toList)) ::
    .str ('d' :: ("ata: ".toList ++ compact e.json)) :: .str [] :: rest.map RawLine.str) = _
  rw [hstep, show 'e' :: ("vent: ".toList ++ e.name.toList) = "event: ".toList ++ e.name.toList
    from rfl, readField_event, hstep, show 'd' :: ("ata: ".toList ++ compact e.json) =
    "data: ".toList ++ compact e.json from rfl, readField_data, iterFrom]
  simp only [RawLine.text, Reading.start, List.nil_append]
  rw [finish_frame hjson]
  rfl

theorem iterEvents_frames {events : List ServiceEvent}
    (hjson : ∀ e ∈ events, loads (compact e.json) = .ok e.json) :
    iterEvents loads ((events.flatMap (sseEvent compact)).map RawLine.str) =
      (events.map ServiceEvent.received, none) := by
  induction events with
  | nil => rfl
  | cons e events ih =>
    rw [List.flatMap_cons, iterEvents, iterFrom_sseEvent (hjson e List.mem_cons_self)]
    have hrest := ih (fun e' he' => hjson e' (List.mem_cons_of_mem e he'))
    rw [iterEvents] at hrest
    rw [hrest]
    rfl

/-- A line of an event has no line break in it. -/
theorem sseEvent_line {e : ServiceEvent} (h : Carries compact loads e.json) :
    ∀ line ∈ sseEvent compact e, '\n' ∉ line ∧ '\r' ∉ line := by
  have hname : '\n' ∉ e.name.toList ∧ '\r' ∉ e.name.toList := by
    cases e with
    | messageStatus p =>
      show '\n' ∉ "message_status".toList ∧ '\r' ∉ "message_status".toList
      decide
    | inboundSms p =>
      show '\n' ∉ "inbound_sms".toList ∧ '\r' ∉ "inbound_sms".toList
      decide
  intro line hline
  simp only [sseEvent, List.mem_cons, List.not_mem_nil, or_false] at hline
  rcases hline with rfl | rfl | rfl
  · simp [hname.1, hname.2]
  · simp [h.newline, h.carriageReturn]
  · simp

end Frames

/-- The client makes of the stream of the service the events that were published,
in their order and with equal fields, whatever comments stand between the lines
and whether it is given the lines as text or as bytes. -/
theorem stream_roundTrip {compact : Json → List Char} {loads : List Char → Except PyError Json}
    {events : List ServiceEvent} (hjson : ∀ e ∈ events, Carries compact loads e.json)
    {lines : List (List Char)}
    (hlines : lines.filter (fun line => !isComment line) = events.flatMap (sseEvent compact))
    (hcomments : ∀ line ∈ lines, isComment line = true → '\n' ∉ line ∧ '\r' ∉ line)
    {raws : List RawLine} (hraws : raws.map RawLine.text = (splitLines (wire lines)).map some) :
    iterEvents loads raws = (events.map ServiceEvent.received, none) := by
  have hbreaks : ∀ line ∈ lines, '\n' ∉ line ∧ '\r' ∉ line := by
    intro line hline
    cases hcomment : isComment line with
    | true => exact hcomments line hline hcomment
    | false =>
      have hmem : line ∈ events.flatMap (sseEvent compact) := by
        rw [← hlines]
        exact List.mem_filter.mpr ⟨hline, by rw [hcomment]; rfl⟩
      obtain ⟨e, he, hmem⟩ := List.mem_flatMap.mp hmem
      exact sseEvent_line (hjson e he) line hmem
  rw [splitLines_wire hbreaks] at hraws
  rw [iterEvents, iterFrom_text .start hraws, iterFrom_comments, hlines]
  exact iterEvents_frames (fun e he => (hjson e he).decode)

/-- A body with a line break, a colon and a leading space. -/
def sampleEvent : ServiceEvent := .inboundSms ⟨7, "+14155550123", " a\n: b"⟩

def samplePayload : List Char :=
  "\x7b\"id\":7,\"from\":\"+14155550123\",\"body\":\" a\\n: b\"\x7d".toList

/-- A status without a reference. -/
def sampleStatus : ServiceEvent := .messageStatus ⟨3, .failed, none⟩

def sampleStatusPayload : List Char :=
  "\x7b\"id\":3,\"status\":\"failed\",\"reference\":null\x7d".toList

/-- The two libraries on the payloads of the samples. -/
def sampleCompact (j : Json) : List Char :=
  match subscript j "status" with
  | .ok _ => sampleStatusPayload
  | .error _ => samplePayload

def sampleLoads (text : List Char) : Except PyError Json :=
  if text = samplePayload then .ok sampleEvent.json
  else if text = sampleStatusPayload then .ok sampleStatus.json
  else .error .jsonDecodeError

theorem samples_carried :
    ∀ e ∈ [sampleStatus, sampleEvent], Carries sampleCompact sampleLoads e.json := by
  have hstatus : '\n' ∉ sampleStatusPayload ∧ '\r' ∉ sampleStatusPayload ∧
      sampleStatusPayload ≠ samplePayload := by decide +kernel
  have hinbound : '\n' ∉ samplePayload ∧ '\r' ∉ samplePayload := by decide +kernel
  refine List.forall_mem_cons.mpr ⟨⟨hstatus.1, hstatus.2.1, ?_⟩,
    List.forall_mem_singleton.mpr ⟨hinbound.1, hinbound.2, ?_⟩⟩
  · show sampleLoads sampleStatusPayload = _
    rw [sampleLoads, if_neg hstatus.2.2, if_pos rfl]
  · exact if_pos rfl

/-- The lines of the samples with comments between them. -/
def sampleLines : List (List Char) :=
  [":".toList, "event: message_status".toList, "data: ".toList ++ sampleStatusPayload, [],
    "event: inbound_sms".toList, ": ping".toList, "data: ".toList ++ samplePayload, []]

/-- A status and a message, given as bytes. -/
theorem stream_roundTrip_sample :
    iterEvents sampleLoads (sampleLines.map (fun line => .bytes (utf8 line))) =
      ([sampleStatus, sampleEvent].map ServiceEvent.received, none) := by
  have hbreaks : ∀ line ∈ sampleLines, '\n' ∉ line ∧ '\r' ∉ line := by decide +kernel
  refine @stream_roundTrip _ _ _ samples_carried sampleLines ?_
    (fun line hline _ => hbreaks line hline) _ ?_
  · decide +kernel
  · rw [splitLines_wire hbreaks, List.map_map]
    exact List.map_congr_left (fun line _ => decodeUtf8_utf8 line)

end Events
end GreenRelay
