/-
Blocks of the event stream.

An empty line ends a block and clears what was read, so a stream is read block
by block.  A payload that is no JSON is passed on as text, but the typed events
are decoded after that, and a payload that is not of their shape raises, as does a
text at which `json.loads` gives up otherwise: the iteration ends with it, and so do
the blocks that come later.
-/
import GreenRelay.Events.Stream

namespace GreenRelay
namespace Events

open Text

/-! ## The shape of a payload -/

/-- The payload has what the decoder of the typed event takes out of it. -/
def Shaped (name : String) (payload : Json) : Prop :=
  (name = "message_status" → ∃ fields id status, payload = .obj fields ∧
    lookupKey fields "id" = some id ∧ lookupKey fields "status" = some (.str status) ∧
    status ∈ ["queued", "sent", "failed"]) ∧
  (name = "inbound_sms" → ∃ fields id sender body, payload = .obj fields ∧
    lookupKey fields "id" = some id ∧ lookupKey fields "from" = some sender ∧
    lookupKey fields "body" = some body)

theorem bind_ok {α β : Type} {x : Except PyError α} {f : α → Except PyError β} {b : β} :
    (x >>= f) = .ok b ↔ ∃ a, x = .ok a ∧ f a = .ok b := by
  cases x with
  | error e =>
    constructor
    · intro h
      cases h
    · rintro ⟨a, ha, -⟩
      cases ha
  | ok a =>
    refine ⟨fun h => ⟨a, rfl, h⟩, ?_⟩
    rintro ⟨a', ha, h⟩
    cases ha
    exact h

theorem subscript_ok {data value : Json} {key : String} :
    subscript data key = .ok value ↔
      ∃ fields, data = .obj fields ∧ lookupKey fields key = some value := by
  cases data with
  | obj fields =>
    simp only [subscript]
    cases hlookup : lookupKey fields key <;> simp [hlookup]
  | _ => simp [subscript]

theorem messageStatusOf_ok {j : Json} :
    (∃ status, messageStatusOf j = .ok status) ↔
      ∃ s, j = .str s ∧ s ∈ ["queued", "sent", "failed"] := by
  unfold messageStatusOf
  split
  · exact ⟨fun _ => ⟨_, rfl, by simp⟩, fun _ => ⟨_, rfl⟩⟩
  · exact ⟨fun _ => ⟨_, rfl, by simp⟩, fun _ => ⟨_, rfl⟩⟩
  · exact ⟨fun _ => ⟨_, rfl, by simp⟩, fun _ => ⟨_, rfl⟩⟩
  · next hqueued hsent hfailed =>
    constructor
    · rintro ⟨status, h⟩
      cases h
    · rintro ⟨s, rfl, hs⟩
      simp only [List.mem_cons, List.not_mem_nil, or_false] at hs
      rcases hs with rfl | rfl | rfl
      · exact absurd rfl hqueued
      · exact absurd rfl hsent
      · exact absurd rfl hfailed

theorem messageStatusFromDict_ok {data : Json} :
    (∃ e, PyMessageStatusEvent.fromDict data = .ok e) ↔ ∃ fields id status, data = .obj fields ∧
      lookupKey fields "id" = some id ∧ lookupKey fields "status" = some (.str status) ∧
      status ∈ ["queued", "sent", "failed"] := by
  constructor
  · rintro ⟨e, h⟩
    obtain ⟨id, hid, h⟩ := bind_ok.mp h
    obtain ⟨status, hstatus, h⟩ := bind_ok.mp h
    obtain ⟨parsed, hparsed, -⟩ := bind_ok.mp h
    obtain ⟨fields, rfl, hlookup⟩ := subscript_ok.mp hid
    obtain ⟨fields', hfields, hstatus⟩ := subscript_ok.mp hstatus
    cases hfields
    obtain ⟨s, rfl, hs⟩ := messageStatusOf_ok.mp ⟨parsed, hparsed⟩
    exact ⟨fields, id, s, rfl, hlookup, hstatus, hs⟩
  · rintro ⟨fields, id, s, rfl, hid, hstatus, hs⟩
    obtain ⟨status, hparsed⟩ := messageStatusOf_ok.mpr ⟨s, rfl, hs⟩
    refine ⟨⟨id, status, getKey (.obj fields) "reference"⟩, ?_⟩
    refine bind_ok.mpr ⟨id, subscript_ok.mpr ⟨fields, rfl, hid⟩, ?_⟩
    refine bind_ok.mpr ⟨_, subscript_ok.mpr ⟨fields, rfl, hstatus⟩, ?_⟩
    exact bind_ok.mpr ⟨status, hparsed, rfl⟩

theorem inboundSmsFromDict_ok {data : Json} :
    (∃ e, PyInboundSmsEvent.fromDict data = .ok e) ↔ ∃ fields id sender body, data = .obj fields ∧
      lookupKey fields "id" = some id ∧ lookupKey fields "from" = some sender ∧
      lookupKey fields "body" = some body := by
  constructor
  · rintro ⟨e, h⟩
    obtain ⟨id, hid, h⟩ := bind_ok.mp h
    obtain ⟨sender, hsender, h⟩ := bind_ok.mp h
    obtain ⟨body, hbody, -⟩ := bind_ok.mp h
    obtain ⟨fields, rfl, hlookup⟩ := subscript_ok.mp hid
    obtain ⟨fields', hfields, hsender⟩ := subscript_ok.mp hsender
    cases hfields
    obtain ⟨fields', hfields, hbody⟩ := subscript_ok.mp hbody
    cases hfields
    exact ⟨fields, id, sender, body, rfl, hlookup, hsender, hbody⟩
  · rintro ⟨fields, id, sender, body, rfl, hid, hsender, hbody⟩
    refine ⟨⟨id, sender, body⟩, ?_⟩
    refine bind_ok.mpr ⟨id, subscript_ok.mpr ⟨fields, rfl, hid⟩, ?_⟩
    refine bind_ok.mpr ⟨sender, subscript_ok.mpr ⟨fields, rfl, hsender⟩, ?_⟩
    exact bind_ok.mpr ⟨body, subscript_ok.mpr ⟨fields, rfl, hbody⟩, rfl⟩

theorem map_ok {α β : Type} {x : Except PyError α} {f : α → β} :
    (∃ b, x.map f = .ok b) ↔ ∃ a, x = .ok a := by
  cases x with
  | error e =>
    constructor
    · rintro ⟨b, h⟩
      cases h
    · rintro ⟨a, h⟩
      cases h
  | ok a => exact ⟨fun _ => ⟨a, rfl⟩, fun _ => ⟨f a, rfl⟩⟩

/-- The typed decoding raises nothing exactly on payloads of the shape. -/
theorem decodeEvent_ok {name : String} {payload : Json} :
    (∃ data, decodeEvent name payload = .ok data) ↔ Shaped name payload := by
  unfold decodeEvent Shaped
  by_cases hstatus : name = "message_status"
  · subst hstatus
    rw [if_pos rfl, map_ok, messageStatusFromDict_ok]
    simp
  · rw [if_neg hstatus]
    by_cases hinbound : name = "inbound_sms"
    · subst hinbound
      rw [if_pos rfl, map_ok, inboundSmsFromDict_ok]
      simp
    · rw [if_neg hinbound]
      simp [hstatus, hinbound]

/-! ## Blocks -/

/-- What has been read when a block ends. -/
def reading (block : List (List Char)) : Reading := block.foldl readField .start

def eventName (r : Reading) : String := String.ofList (nameOr r.name)

/-- A line that says nothing: a comment, or an unknown field. -/
def ignored (line : List Char) : Bool :=
  line ≠ [] && (isComment line ||
    ((fieldOf line).1 ≠ "event".toList && (fieldOf line).1 ≠ "data".toList))

def RawLine.relevant (raw : RawLine) : Bool :=
  match raw.text with
  | some line => !ignored line
  | none => true

section Reading

variable (loads : List Char → Except PyError Json)

def payloadText (r : Reading) : List Char := join ['\n'] r.dataParts

/-- The value of the data, or their text where they have none. -/
def payloadOf (r : Reading) : Json :=
  match loads (payloadText r) with
  | .ok payload => payload
  | .error _ => .str (String.ofList (payloadText r))

/-- The event of a block, where a payload that its decoder does not take is passed
on as it is. -/
def blockEvent (r : Reading) : Option PyServiceEvent :=
  if r.dataParts.isEmpty then none
  else
    match decodeEvent (eventName r) (payloadOf loads r) with
    | .ok data => some ⟨eventName r, data⟩
    | .error _ => some ⟨eventName r, .payload (payloadOf loads r)⟩

/-- The events of the blocks of some lines. -/
def blockEvents (lines : List (List Char)) : List PyServiceEvent :=
  (lines.splitOn []).filterMap (fun block => blockEvent loads (reading block))

/-- `json.loads` gives a value or says that the text is no JSON. -/
def Loadable (text : List Char) : Prop := ∀ e, loads text = .error e → e = .jsonDecodeError

/-- A block without data, or one whose payload can be loaded and has the shape of its
name. -/
def Harmless (r : Reading) : Prop :=
  r.dataParts ≠ [] → Loadable loads (payloadText r) ∧ Shaped (eventName r) (payloadOf loads r)

variable {loads}

theorem loadPayload_ok {r : Reading} {payload : Json} :
    loadPayload loads (payloadText r) = .ok payload ↔
      Loadable loads (payloadText r) ∧ payload = payloadOf loads r := by
  unfold loadPayload Loadable payloadOf
  cases loads (payloadText r) with
  | ok value => simp [eq_comm]
  | error e => cases e <;> simp [eq_comm]

theorem finish_data {r : Reading} (hparts : r.dataParts ≠ []) :
    finish loads r = loadPayload loads (payloadText r) >>= fun payload =>
      (decodeEvent (eventName r) payload).map (fun data => some ⟨eventName r, data⟩) := by
  rw [finish, if_neg (by simpa using hparts)]
  rfl

theorem finish_harmless {r : Reading} (h : Harmless loads r) :
    finish loads r = .ok (blockEvent loads r) := by
  by_cases hparts : r.dataParts = []
  · rw [finish, blockEvent, hparts]
    rfl
  · obtain ⟨hload, hshaped⟩ := h hparts
    obtain ⟨data, hdata⟩ := decodeEvent_ok.mpr hshaped
    rw [finish_data hparts, loadPayload_ok.mpr ⟨hload, rfl⟩, blockEvent,
      if_neg (by simpa using hparts),
      hdata]
    show (decodeEvent (eventName r) (payloadOf loads r)).map _ = _
    rw [hdata]
    rfl

theorem finish_ok {r : Reading} {event : Option PyServiceEvent}
    (h : finish loads r = .ok event) : Harmless loads r := by
  intro hparts
  rw [finish_data hparts] at h
  obtain ⟨payload, hpayload, hdecode⟩ := bind_ok.mp h
  obtain ⟨hload, rfl⟩ := loadPayload_ok.mp hpayload
  exact ⟨hload, decodeEvent_ok.mp (map_ok.mp ⟨event, hdecode⟩)⟩

/-! ## Iteration over blocks -/

/-- The lines of a block are read, and the empty line after them ends it. -/
theorem iterFrom_block {block : List (List Char)} (hblock : [] ∉ block) (rest : List RawLine) :
    ∀ r : Reading, iterFrom loads r (block.map RawLine.str ++ .str [] :: rest) =
      match finish loads (block.foldl readField r) with
      | .error e => ([], some e)
      | .ok event =>
        (event.toList ++ (iterFrom loads .start rest).1, (iterFrom loads .start rest).2) := by
  induction block with
  | nil => exact fun r => rfl
  | cons line block ih =>
    intro r
    obtain ⟨hline, hrest⟩ : [] ≠ line ∧ [] ∉ block := by simpa [not_or] using hblock
    cases line with
    | nil => exact absurd rfl hline
    | cons c line => exact ih hrest (readField r (c :: line))

/-- Blocks with the empty lines that end them. -/
def blockLines (blocks : List (List (List Char))) : List (List Char) :=
  blocks.flatMap (fun block => block ++ [[]])

theorem exists_blocks (lines : List (List Char)) (hend : lines = [] ∨ lines.getLast? = some []) :
    ∃ blocks, (∀ block ∈ blocks, [] ∉ block) ∧ lines = blockLines blocks := by
  induction lines with
  | nil => exact ⟨[], by simp, rfl⟩
  | cons line lines ih =>
    have hlast : lines = [] ∨ lines.getLast? = some [] := by
      cases lines with
      | nil => exact .inl rfl
      | cons next lines => exact .inr (by simpa using hend)
    obtain ⟨blocks, hblocks, rfl⟩ := ih hlast
    by_cases hline : line = []
    · subst hline
      exact ⟨[] :: blocks, List.forall_mem_cons.mpr ⟨by simp, hblocks⟩, rfl⟩
    · cases blocks with
      | nil =>
        rw [blockLines, List.flatMap_nil] at hend
        simp [hline] at hend
      | cons block blocks =>
        obtain ⟨hblock, hrest⟩ := List.forall_mem_cons.mp hblocks
        refine ⟨(line :: block) :: blocks, List.forall_mem_cons.mpr ⟨?_, hrest⟩, rfl⟩
        exact List.not_mem_cons_of_ne_of_not_mem (Ne.symm hline) hblock

theorem splitOn_blockLines {blocks : List (List (List Char))}
    (hblocks : ∀ block ∈ blocks, [] ∉ block) :
    (blockLines blocks).splitOn [] = blocks ++ [[]] := by
  induction blocks with
  | nil => rfl
  | cons block blocks ih =>
    obtain ⟨hblock, hrest⟩ := List.forall_mem_cons.mp hblocks
    rw [blockLines, List.flatMap_cons, List.append_assoc, List.singleton_append,
      List.splitOn_append_cons_self_of_not_mem hblock]
    exact congrArg (block :: ·) (ih hrest)

theorem blockLines_cons (block : List (List Char)) (blocks : List (List (List Char))) :
    (blockLines (block :: blocks)).map RawLine.str =
      block.map RawLine.str ++ .str [] :: (blockLines blocks).map RawLine.str := by
  rw [blockLines, List.flatMap_cons, List.map_append, List.map_append, List.append_assoc]
  rfl

theorem iterEvents_harmless {blocks : List (List (List Char))}
    (hblocks : ∀ block ∈ blocks, [] ∉ block)
    (hharmless : ∀ block ∈ blocks, Harmless loads (reading block)) :
    iterEvents loads ((blockLines blocks).map RawLine.str) =
      (blocks.filterMap (fun block => blockEvent loads (reading block)), none) := by
  induction blocks with
  | nil => rfl
  | cons block blocks ih =>
    obtain ⟨hblock, hrest⟩ := List.forall_mem_cons.mp hblocks
    obtain ⟨hfirst, hlater⟩ := List.forall_mem_cons.mp hharmless
    have hevents := ih hrest hlater
    rw [iterEvents] at hevents
    rw [blockLines_cons, iterEvents, iterFrom_block hblock,
      show block.foldl readField .start = reading block from rfl, finish_harmless hfirst]
    simp only [hevents]
    cases hevent : blockEvent loads (reading block) <;> simp [hevent]

theorem harmless_of_iterEvents {blocks : List (List (List Char))}
    (hblocks : ∀ block ∈ blocks, [] ∉ block)
    (h : (iterEvents loads ((blockLines blocks).map RawLine.str)).2 = none) :
    ∀ block ∈ blocks, Harmless loads (reading block) := by
  induction blocks with
  | nil => exact fun block hblock => by cases hblock
  | cons block blocks ih =>
    obtain ⟨hblock, hrest⟩ := List.forall_mem_cons.mp hblocks
    rw [blockLines_cons, iterEvents, iterFrom_block hblock] at h
    cases hfinish : finish loads (block.foldl readField .start) with
    | error e =>
      rw [hfinish] at h
      cases h
    | ok event =>
      rw [hfinish] at h
      exact List.forall_mem_cons.mpr ⟨finish_ok hfinish, ih hrest h⟩

/-! ## Parts of a stream -/

/-- The lines end with an empty one. -/
def EndsBlank (raws : List RawLine) : Prop := ∃ raw, raws.getLast? = some raw ∧ raw.text = some []

theorem EndsBlank.tail {raw : RawLine} {raws : List RawLine} (h : EndsBlank (raw :: raws)) :
    (raws = [] ∧ raw.text = some []) ∨ EndsBlank raws := by
  obtain ⟨last, hlast, htext⟩ := h
  cases raws with
  | nil =>
    cases hlast
    exact .inl ⟨rfl, htext⟩
  | cons next raws => exact .inr ⟨last, by simpa using hlast, htext⟩

/-- What comes after an empty line is read from the start, unless the iteration has
ended before. -/
theorem iterFrom_append {raws : List RawLine} (ys : List RawLine) (hend : EndsBlank raws) :
    ∀ r : Reading, iterFrom loads r (raws ++ ys) =
      match (iterFrom loads r raws).2 with
      | some e => ((iterFrom loads r raws).1, some e)
      | none => ((iterFrom loads r raws).1 ++ (iterEvents loads ys).1,
          (iterEvents loads ys).2) := by
  induction raws with
  | nil =>
    obtain ⟨last, hlast, -⟩ := hend
    cases hlast
  | cons raw raws ih =>
    intro r
    rw [List.cons_append, iterFrom, iterFrom]
    cases htext : raw.text with
    | none => rfl
    | some line =>
      cases line with
      | cons c line =>
        have hrest : EndsBlank raws := hend.tail.resolve_left (fun h => by
          rw [htext] at h
          cases h.2)
        exact ih hrest _
      | nil =>
        simp only
        cases finish loads r with
        | error e => rfl
        | ok event =>
          simp only
          rcases hend.tail with ⟨rfl, -⟩ | hrest
          · simp [iterFrom, iterEvents]
          · rw [ih hrest .start]
            cases (iterFrom loads .start raws).2 <;> simp

/-- An iteration that raises nothing could decode every line. -/
theorem decoded_of_iterFrom {raws : List RawLine} :
    ∀ {r : Reading}, (iterFrom loads r raws).2 = none → ∀ raw ∈ raws, raw.text.isSome := by
  induction raws with
  | nil => exact fun _ raw h => by cases h
  | cons raw raws ih =>
    intro r h
    rw [iterFrom] at h
    cases htext : raw.text with
    | none =>
      rw [htext] at h
      cases h
    | some line =>
      rw [htext] at h
      refine List.forall_mem_cons.mpr ⟨by rw [htext]; rfl, ?_⟩
      cases line with
      | cons c line => exact ih h
      | nil =>
        simp only at h
        cases hfinish : finish loads r with
        | error e =>
          rw [hfinish] at h
          cases h
        | ok event =>
          rw [hfinish] at h
          exact ih h

theorem map_text {raws : List RawLine} (h : ∀ raw ∈ raws, raw.text.isSome) :
    raws.map RawLine.text = (raws.filterMap RawLine.text).map some := by
  induction raws with
  | nil => rfl
  | cons raw raws ih =>
    obtain ⟨hraw, hrest⟩ := List.forall_mem_cons.mp h
    obtain ⟨line, hline⟩ := Option.isSome_iff_exists.mp hraw
    rw [List.map_cons, ih hrest, List.filterMap_cons_some hline, hline, List.map_cons]

theorem readField_ignored (r : Reading) {line : List Char} (h : ignored line = true) :
    readField r line = r := by
  obtain ⟨-, h⟩ := Bool.and_eq_true_iff.mp h
  unfold readField
  split
  · rfl
  · next hcomment =>
    rcases Bool.or_eq_true_iff.mp h with h | h
    · exact absurd (of_decide_eq_true h) hcomment
    · obtain ⟨hevent, hdata⟩ := Bool.and_eq_true_iff.mp h
      simp only
      rw [if_neg (of_decide_eq_true hevent), if_neg (of_decide_eq_true hdata)]

/-- Comments and unknown fields change nothing. -/
theorem iterFrom_relevant (raws : List RawLine) : ∀ r : Reading,
    iterFrom loads r (raws.filter RawLine.relevant) = iterFrom loads r raws := by
  induction raws with
  | nil => exact fun _ => rfl
  | cons raw raws ih =>
    intro r
    cases htext : raw.text with
    | none =>
      rw [List.filter_cons_of_pos (by rw [RawLine.relevant, htext]), iterFrom, iterFrom, htext]
    | some line =>
      cases hignored : ignored line with
      | true =>
        have hskip := readField_ignored r hignored
        rw [List.filter_cons_of_neg (by rw [RawLine.relevant, htext]; simp [hignored]), ih,
          iterFrom, htext]
        cases line with
        | nil => cases hignored
        | cons c line =>
          simp only
          rw [hskip]
      | false =>
        rw [List.filter_cons_of_pos (by rw [RawLine.relevant, htext]; simp [hignored]), iterFrom,
          iterFrom, htext]
        cases line with
        | nil =>
          simp only
          cases finish loads r with
          | error e => rfl
          | ok event => simp only [ih]
        | cons c line => exact ih _

end Reading

/-- The blocks of a stream are independent, and what their decoders do not take is
passed on, exactly when every line can be decoded, the data of every block can be
loaded or are said to be no JSON, and every block with the name of a typed event has a
payload of its shape. -/
theorem iterEvents_blocks (loads : List Char → Except PyError Json) {xs : List RawLine}
    (hend : EndsBlank xs) :
    ((∀ ys, iterEvents loads (xs ++ ys) =
        ((iterEvents loads xs).1 ++ (iterEvents loads ys).1, (iterEvents loads ys).2)) ∧
      iterEvents loads xs = (blockEvents loads (xs.filterMap RawLine.text), none) ∧
      ∀ zs, zs.filter RawLine.relevant = xs.filter RawLine.relevant →
        iterEvents loads zs = iterEvents loads xs) ↔
    (∀ raw ∈ xs, raw.text.isSome) ∧
      ∀ block ∈ (xs.filterMap RawLine.text).splitOn [], Harmless loads (reading block) := by
  have hblocks : (∀ raw ∈ xs, raw.text.isSome) → ∃ blocks, (∀ block ∈ blocks, [] ∉ block) ∧
      xs.filterMap RawLine.text = blockLines blocks ∧
      iterEvents loads xs = iterEvents loads ((blockLines blocks).map RawLine.str) := by
    intro hdecoded
    have htexts := map_text hdecoded
    have hlast : (xs.filterMap RawLine.text).getLast? = some [] := by
      obtain ⟨raw, hraw, htext⟩ := hend
      have h := congrArg List.getLast? htexts
      rw [List.getLast?_map, List.getLast?_map, hraw, Option.map_some, htext] at h
      obtain ⟨line, hline, hsome⟩ := Option.map_eq_some_iff.mp h.symm
      cases hsome
      exact hline
    obtain ⟨blocks, hclean, heq⟩ := exists_blocks _ (.inr hlast)
    refine ⟨blocks, hclean, heq, ?_⟩
    rw [← heq]
    exact iterFrom_text .start htexts
  constructor
  · rintro ⟨-, hxs, -⟩
    have hnone : (iterEvents loads xs).2 = none := by rw [hxs]
    have hdecoded := decoded_of_iterFrom hnone
    obtain ⟨blocks, hclean, heq, hiter⟩ := hblocks hdecoded
    rw [hiter] at hnone
    refine ⟨hdecoded, fun block hblock => ?_⟩
    rw [heq, splitOn_blockLines hclean] at hblock
    rcases List.mem_append.mp hblock with hblock | hblock
    · exact harmless_of_iterEvents hclean hnone block hblock
    · rw [List.mem_singleton.mp hblock]
      exact fun h => absurd rfl h
  · rintro ⟨hdecoded, hharmless⟩
    obtain ⟨blocks, hclean, heq, hiter⟩ := hblocks hdecoded
    rw [heq, splitOn_blockLines hclean] at hharmless
    have hxs : iterEvents loads xs = (blockEvents loads (xs.filterMap RawLine.text), none) := by
      rw [hiter, iterEvents_harmless hclean
        (fun block hblock => hharmless block (List.mem_append_left _ hblock)), blockEvents, heq,
        splitOn_blockLines hclean, List.filterMap_append]
      simp [blockEvent, reading, Reading.start]
    refine ⟨fun ys => ?_, hxs, fun zs hzs => ?_⟩
    · have happend := @iterFrom_append loads xs ys hend .start
      rw [show (iterFrom loads .start xs).2 = none from congrArg Prod.snd hxs] at happend
      exact happend
    · rw [iterEvents, ← iterFrom_relevant zs, hzs, iterFrom_relevant]
      rfl

def textLines (lines : List (List Char)) : List RawLine := lines.map RawLine.str

/-- `json.loads` on texts that are no JSON. -/
def noJson : List Char → Except PyError Json := fun _ => .error .jsonDecodeError

/-- A block of another name whose text is no JSON is passed on. -/
theorem iterEvents_blocks_text :
    iterEvents noJson (textLines ["data: x".toList, []]) =
      (blockEvents noJson ((textLines ["data: x".toList, []]).filterMap RawLine.text), none) := by
  refine ((iterEvents_blocks noJson ⟨.str [], rfl, rfl⟩).mpr ⟨?_, ?_⟩).2.1
  · simp [textLines, RawLine.text]
  · have hblocks : ((textLines ["data: x".toList, []]).filterMap RawLine.text).splitOn [] =
        [["data: x".toList], []] := by decide +kernel
    have hname : eventName (reading ["data: x".toList]) = "message" := by decide +kernel
    have hload : Loadable noJson (payloadText (reading ["data: x".toList])) := by
      intro e he
      cases he
      rfl
    rw [hblocks]
    refine List.forall_mem_cons.mpr ⟨fun _ => ⟨hload, ?_⟩,
      List.forall_mem_singleton.mpr (absurd rfl)⟩
    rw [hname]
    exact ⟨fun h => absurd h (by decide), fun h => absurd h (by decide)⟩

/-- The text of a typed event is no JSON: the block after it is lost. -/
theorem typed_text_raises :
    let bad := textLines ["event: message_status".toList, "data: hello".toList, []]
    let good := textLines ["data: x".toList, []]
    (iterEvents noJson good).1.length = 1 ∧
      (iterEvents noJson (bad ++ good)).1.length = 0 ∧
      (iterEvents noJson (bad ++ good)).2 = some .typeError := by
  decide +kernel

end Events
end GreenRelay
