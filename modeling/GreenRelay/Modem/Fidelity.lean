/-
What is stored of a message the modem reports.

The lines of the response are collected without the blank ones, and parsing
takes every line between the header and the OK for the body.  A body with blank
lines therefore loses them, and a notification that comes between the header and
the OK becomes a line of the body.
-/
import GreenRelay.Modem.Exchanges
import GreenRelay.Modem.StoredMessage

namespace GreenRelay
namespace Modem

open Text Scripted

/-! ## The lines the modem delivers -/

/-- A `+CMTI:` line. -/
def isCmti (line : String) : Bool := (stripPrefix "+CMTI:".toList (trim line.toList)).isSome

/-- The body can be told from result codes and notifications by its lines. -/
structure PlainBody (body : String) : Prop where
  ending : ∀ l ∈ bodyLines body, l.getLast? ≠ some '\r'
  noResult : ∀ l ∈ bodyLines body, classifyLine (String.ofList l) = .nonTerminating
  noCmti : ∀ l ∈ bodyLines body, isCmti (String.ofList l) = false

/-- The modem reports the body between a header and the OK, with notifications
before the header and anywhere after it. -/
structure Interleaved (body : String) (before after : List String) : Prop where
  ahead : ∀ l ∈ before, isCmti l = true ∧ IsLine l.toList
  among : ∀ l ∈ after, isCmti l = true → IsLine l.toList
  rest : after.filter (fun l => !isCmti l) = (bodyLines body).map String.ofList

/-- The lines of the response up to its last one, the OK. -/
def reported (sender : String) (before after : List String) : List String :=
  before ++ cmgrHeader sender :: after

theorem isCmti_trim {line : String} (h : isCmti line = true) :
    ∃ rest, trim line.toList = "+CMTI:".toList ++ rest := by
  obtain ⟨rest, hrest⟩ := Option.isSome_iff_exists.mp h
  exact ⟨rest, stripPrefix_eq_some.mp hrest⟩

theorem isBlank_cmti {line : String} (h : isCmti line = true) : isBlank line = false := by
  obtain ⟨rest, hrest⟩ := isCmti_trim h
  rw [isBlank, hrest]
  rfl

theorem classifyLine_cmti {line : String} (h : isCmti line = true) :
    classifyLine line = .nonTerminating := by
  obtain ⟨rest, hrest⟩ := isCmti_trim h
  rw [classifyLine, hrest]
  rfl

theorem not_header_cmti {line : String} (h : isCmti line = true) :
    ¬ IsCmgrHeader line.toList := by
  obtain ⟨rest, hrest⟩ := isCmti_trim h
  obtain ⟨rest', hrest'⟩ := trimStart_of_trim hrest
  rw [IsCmgrHeader, hrest']
  exact Bool.false_ne_true

section Delivery

variable {sender body : String} {before after : List String}

/-- A line after the header is a notification or a line of the body. -/
theorem Interleaved.mem_after (h : Interleaved body before after) {line : String}
    (hline : line ∈ after) : isCmti line = true ∨ line.toList ∈ bodyLines body := by
  cases hcmti : isCmti line with
  | true => exact .inl rfl
  | false =>
    have hmem : line ∈ (bodyLines body).map String.ofList := by
      rw [← h.rest]
      exact List.mem_filter.mpr ⟨hline, by simp [hcmti]⟩
    obtain ⟨l, hl, rfl⟩ := List.mem_map.mp hmem
    exact .inr (by rwa [String.toList_ofList])

theorem Interleaved.isLine (h : Interleaved body before after) (hbody : PlainBody body)
    {line : String} (hline : line ∈ after) : IsLine line.toList := by
  rcases h.mem_after hline with hcmti | hmem
  · exact h.among line hline hcmti
  · exact ⟨not_mem_of_mem_splitOn hmem, hbody.ending _ hmem⟩

theorem Interleaved.nonTerminating (h : Interleaved body before after) (hbody : PlainBody body)
    (sender : String) : ∀ l ∈ reported sender before after, classifyLine l = .nonTerminating := by
  intro l hl
  rcases List.mem_append.mp hl with hl | hl
  · exact classifyLine_cmti (h.ahead l hl).1
  · rcases List.mem_cons.mp hl with rfl | hl
    · exact classifyLine_header sender
    · rcases h.mem_after hl with hcmti | hmem
      · exact classifyLine_cmti hcmti
      · have hclass := hbody.noResult _ hmem
        rwa [String.ofList_toList] at hclass

/-- The lines that are collected from the response. -/
theorem Interleaved.collected (h : Interleaved body before after) :
    (reported sender before after).filter (fun l => !isBlank l) =
      reported sender before (after.filter (fun l => !isBlank l)) := by
  have hbefore : before.filter (fun l => !isBlank l) = before :=
    List.filter_eq_self.mpr (fun l hl => by rw [isBlank_cmti (h.ahead l hl).1]; rfl)
  rw [reported, List.filter_append, hbefore, List.filter_cons, isBlank_header]
  rfl

/-- The text that is taken for the body. -/
def received (after : List String) : String :=
  String.ofList (join ['\n'] ((after.filter (fun l => !isBlank l)).map String.toList))

theorem parseCmgr_reported (h : Interleaved body before after) (hbody : PlainBody body)
    (hquote : '"' ∉ sender.toList) (hsender : '\n' ∉ sender.toList) (command : String) :
    parseCmgr (AtExchange.response ⟨command, reported sender before
      (after.filter (fun l => !isBlank l)) ++ ["OK"], .ok⟩) = some ⟨sender, received after⟩ := by
  have hafter : ∀ l ∈ after.filter (fun l => !isBlank l), l ∈ after :=
    fun l hl => (List.mem_filter.mp hl).1
  have hmap : (reported sender before (after.filter (fun l => !isBlank l)) ++ ["OK"]).map
      String.toList = (before.map String.toList ++ (cmgrHeader sender).toList ::
        (after.filter (fun l => !isBlank l)).map String.toList) ++ ["OK".toList] := by
    simp [reported]
  have hlines : ∀ l ∈ before.map String.toList ++ (cmgrHeader sender).toList ::
      (after.filter (fun l => !isBlank l)).map String.toList, IsLine l := by
    intro l hl
    rcases List.mem_append.mp hl with hl | hl
    · obtain ⟨line, hline, rfl⟩ := List.mem_map.mp hl
      exact (h.ahead line hline).2
    · rcases List.mem_cons.mp hl with rfl | hl
      · exact isLine_header hsender
      · obtain ⟨line, hline, rfl⟩ := List.mem_map.mp hl
        exact h.isLine hbody (hafter line hline)
  have hok : classifyLine (String.ofList "OK".toList) ≠ .nonTerminating := by decide
  refine parseCmgr_lines (before.map String.toList) [] hquote ?_ ?_ ?_ hok
  · rw [AtExchange.response, String.toList_ofList, hmap, lines_join hlines (by decide) (by decide)]
    simp
  · intro l hl
    obtain ⟨line, hline, rfl⟩ := List.mem_map.mp hl
    exact not_header_cmti (h.ahead line hline).1
  · intro l hl
    obtain ⟨line, hline, rfl⟩ := List.mem_map.mp hl
    rw [String.ofList_toList]
    exact h.nonTerminating hbody sender line
      (List.mem_append_right _ (List.mem_cons_of_mem _ (hafter line hline)))

/-- The body survives: no notification came among its lines, and none of the
lines is blank. -/
def Unharmed (body : String) (after : List String) : Prop :=
  (∀ l ∈ after, isCmti l = false) ∧
    (body = "" ∨ ∀ l ∈ bodyLines body, isBlank (String.ofList l) = false)

theorem received_eq_iff (h : Interleaved body before after) (hbody : PlainBody body) :
    received after = body ↔ Unharmed body after := by
  constructor
  · intro heq
    have hjoin : join ['\n'] ((after.filter (fun l => !isBlank l)).map String.toList) =
        body.toList := by
      rw [← heq, received, String.toList_ofList]
    have hkept : ∀ l ∈ after, isCmti l = true → l ∈ after.filter (fun l => !isBlank l) :=
      fun l hl hcmti => List.mem_filter.mpr ⟨hl, by rw [isBlank_cmti hcmti]; rfl⟩
    cases hempty : after.filter (fun l => !isBlank l) with
    | nil =>
      refine ⟨fun l hl => ?_, .inl ?_⟩
      · cases hcmti : isCmti l with
        | false => rfl
        | true =>
          have hmem := hkept l hl hcmti
          rw [hempty] at hmem
          cases hmem
      · rw [hempty] at hjoin
        exact String.toList_eq_nil_iff.mp hjoin.symm
    | cons line kept =>
      -- What is joined of lines without a newline is split into the same lines.
      have hsplit : bodyLines body = (after.filter (fun l => !isBlank l)).map String.toList := by
        rw [bodyLines, ← hjoin]
        refine List.splitOn_intercalate '\n' (fun l hl => ?_) (by simp [hempty])
        obtain ⟨line, hline, rfl⟩ := List.mem_map.mp hl
        exact (h.isLine hbody (List.mem_filter.mp hline).1).1
      refine ⟨fun l hl => ?_, .inr (fun l hl => ?_)⟩
      · cases hcmti : isCmti l with
        | false => rfl
        | true =>
          have hmem : l.toList ∈ bodyLines body := by
            rw [hsplit]
            exact List.mem_map_of_mem (hkept l hl hcmti)
          have hno := hbody.noCmti _ hmem
          rw [String.ofList_toList, hcmti] at hno
          cases hno
      · rw [hsplit] at hl
        obtain ⟨line, hline, rfl⟩ := List.mem_map.mp hl
        rw [String.ofList_toList]
        simpa using (List.mem_filter.mp hline).2
  · rintro ⟨hcmti, hblank⟩
    have hafter : after = (bodyLines body).map String.ofList := by
      rw [← h.rest]
      exact (List.filter_eq_self.mpr (fun l hl => by rw [hcmti l hl]; rfl)).symm
    rcases hblank with hbody | hblank
    · rw [hafter, hbody]
      rfl
    · have hall : ((bodyLines body).map String.ofList).filter (fun l => !isBlank l) =
          (bodyLines body).map String.ofList := by
        refine List.filter_eq_self.mpr (fun l hl => ?_)
        obtain ⟨line, hline, rfl⟩ := List.mem_map.mp hl
        rw [hblank line hline]
        rfl
      have hid : String.toList ∘ String.ofList = id := funext (fun _ => String.toList_ofList)
      rw [received, hafter, hall, List.map_map, hid, List.map_id, join_bodyLines,
        String.ofList_toList]

/-- The notifications that are found are those the modem sent. -/
theorem indices_collected {last : String} {result : AtResult}
    (hlast : classifyLine last = .terminator result) :
    indices ((reported sender before after).filter (fun l => !isBlank l) ++ [last]) =
      indices (before ++ after) := by
  rw [indices_response _ hlast]
  simp [indices, reported, parseCmtiIndex_header]

end Delivery

/-! ## What the handler stores -/

def Event.insertion : Event → Option ParsedInbound
  | .inserted message _ => some message
  | _ => none

def Event.push : Event → Option Nat
  | .pushed index => some index
  | _ => none

/-- The run stores one message, this one, and by then has queued these indices. -/
def Stores (message : ParsedInbound) (queued : List Nat) (t : List Event) : Prop :=
  ∃ before reply after, t = before ++ .inserted message reply :: after ∧
    before.filterMap Event.insertion = [] ∧ after.filterMap Event.insertion = [] ∧
    before.filterMap Event.push = queued

theorem Stores.unique {message message' : ParsedInbound} {queued queued' : List Nat}
    {t : List Event} (h : Stores message queued t) (h' : Stores message' queued' t) :
    message = message' := by
  have hone : ∀ {m q}, Stores m q t → t.filterMap Event.insertion = [m] := by
    rintro m q ⟨before, reply, after, rfl, hbefore, hafter, -⟩
    rw [List.filterMap_append, hbefore, List.nil_append, List.filterMap_cons, hafter]
    rfl
  have heq := (hone h).symm.trans (hone h')
  exact List.singleton_inj.mp heq

theorem deaf_insertion : Deaf Event.insertion :=
  ⟨fun _ _ => rfl, fun _ => rfl, fun _ => rfl, fun _ => rfl⟩

theorem deaf_push : Deaf Event.push :=
  ⟨fun _ _ => rfl, fun _ => rfl, fun _ => rfl, fun _ => rfl⟩

theorem push_pushed (ns : List Nat) : (ns.map Event.pushed).filterMap Event.push = ns := by
  rw [List.filterMap_map]
  exact List.filterMap_some

theorem silent_scanCmti (lines : List String) (pending : List Nat) :
    Silent Event.insertion (scanCmti lines pending) := by
  intro script
  rw [scanCmti_run]
  simp [List.filterMap_map, Event.insertion]

/-- What is left of the handling of a message when it has been stored. -/
def finishInbound (events : Bool) (index : Nat) (message : ParsedInbound) (pending : List Nat) :
    DbReply → Prog (List Nat)
  | .ok rowId => do
    publishInbound events rowId message
    let delete ← exchange (cmgdCommand index)
    let pending ← scanCmti delete.lines pending
    auditDelete index delete.result
    pure pending
  | .error text => do
    audit "inbound_persist_failed"
      ("persisting inbound at index " ++ toString index ++ " failed: " ++ text)
    pure pending

theorem storeInbound_eq (events : Bool) (index : Nat) (message : ParsedInbound)
    (pending : List Nat) :
    storeInbound events index message pending =
      createInboundMessage message >>= finishInbound events index message pending := rfl

theorem silent_finishInbound (events : Bool) (index : Nat) (message : ParsedInbound)
    (pending : List Nat) (reply : DbReply) :
    Silent Event.insertion (finishInbound events index message pending reply) := by
  cases reply with
  | ok rowId =>
    refine silent_bind ?_ (fun _ => silent_bind (silent_exchange deaf_insertion _) (fun delete =>
      silent_bind (silent_scanCmti _ _) (fun pending => silent_bind ?_ (fun _ => silent_pure _))))
    · cases events with
      | true => exact silent_emit rfl
      | false => exact silent_pure ()
    · unfold auditDelete
      split
      · exact silent_pure ()
      · exact silent_perform (fun _ => rfl)
  | error text => exact silent_bind (silent_perform (fun _ => rfl)) (fun _ => silent_pure _)

section Handling

variable {sender body : String} {before after : List String}

/-- The first attempt to read the message succeeds. -/
theorem readInbound_run (h : Interleaved body before after) (hbody : PlainBody body)
    (hquote : '"' ∉ sender.toList) (hsender : '\n' ∉ sender.toList) (index : Nat)
    (pending : List Nat) {w : Answer} (hw : w.write = .ok) {reads : List Answer}
    (hreads : reads.map Answer.read = (reported sender before after ++ ["OK"]).map ReadReply.line)
    (rest : List Answer) :
    ∃ t, readInbound index 3 pending (w :: (reads ++ rest)) =
        ⟨.done (some ⟨sender, received after⟩, pending ++ indices (before ++ after)), rest, t⟩ ∧
      t.filterMap Event.insertion = [] ∧ t.filterMap Event.push = indices (before ++ after) := by
  have hok : classifyLine "OK" = .terminator .ok := by decide
  obtain ⟨t, hexchange⟩ := exchange_lines (cmgrCommand index) hw
    (h.nonTerminating hbody sender) hok hreads rest
  have hinsertion : t.filterMap Event.insertion = [] := by
    have hsilent := silent_exchange deaf_insertion (cmgrCommand index) (w :: (reads ++ rest))
    rwa [hexchange] at hsilent
  have hpush : t.filterMap Event.push = [] := by
    have hsilent := silent_exchange deaf_push (cmgrCommand index) (w :: (reads ++ rest))
    rwa [hexchange] at hsilent
  have hinbound : AtExchange.inbound ⟨cmgrCommand index,
      (reported sender before after).filter (fun l => !isBlank l) ++ ["OK"], .ok⟩ =
      some ⟨sender, received after⟩ := by
    rw [h.collected]
    simp only [AtExchange.inbound, AtResult.isOk, if_true]
    exact parseCmgr_reported h hbody hquote hsender (cmgrCommand index)
  have hscan := scanCmti_run
    ((reported sender before after).filter (fun l => !isBlank l) ++ ["OK"]) pending rest
  rw [indices_collected hok] at hscan
  refine ⟨t ++ (indices (before ++ after)).map Event.pushed ++ [], ?_, ?_, ?_⟩
  · unfold readInbound
    rw [run_bind_done hexchange, run_bind_done hscan, hinbound, List.append_assoc]
    rfl
  · simp [hinsertion, List.filterMap_map, Event.insertion]
  · rw [List.append_nil, List.filterMap_append, hpush, push_pushed, List.nil_append]

/-- The handler stores what it received. -/
theorem handleInbound_stores (h : Interleaved body before after) (hbody : PlainBody body)
    (hquote : '"' ∉ sender.toList) (hsender : '\n' ∉ sender.toList) (events : Bool) (index : Nat)
    (pending : List Nat) {w : Answer} (hw : w.write = .ok) {reads : List Answer}
    (hreads : reads.map Answer.read = (reported sender before after ++ ["OK"]).map ReadReply.line)
    (insert : Answer) (rest : List Answer) :
    Stores ⟨sender, received after⟩ (indices (before ++ after))
      (handleInboundInner events index pending (w :: (reads ++ insert :: rest))).trace := by
  obtain ⟨t, hread, hinsertion, hpush⟩ :=
    readInbound_run h hbody hquote hsender index pending hw hreads (insert :: rest)
  have hcreate : createInboundMessage ⟨sender, received after⟩ (insert :: rest) =
      ⟨.done insert.db, rest, [.inserted ⟨sender, received after⟩ insert.db]⟩ := rfl
  unfold handleInboundInner
  rw [run_bind_done hread]
  simp only [storeInbound_eq]
  rw [run_bind_done hcreate]
  exact ⟨t, insert.db, _, rfl, hinsertion, silent_finishInbound _ _ _ _ _ rest, hpush⟩

/-- A reported message is stored as it was sent if and only if no notification
came after the header and no line of the body is blank, or the body is empty.
Parsing the whole response would have recovered it in any case. -/
theorem stored_iff_unharmed (sender body : String) (hquote : '"' ∉ sender.toList)
    (hsender : '\n' ∉ sender.toList) (hbody : PlainBody body) :
    (lines (formatCmgrResponse sender body).toList).map String.ofList =
      cmgrHeader sender :: ((bodyLines body).map String.ofList ++ ["OK"]) ∧
    parseCmgr (formatCmgrResponse sender body) = some ⟨sender, body⟩ ∧
    ∀ (events : Bool) (index : Nat) (pending : List Nat) (before after : List String)
      (w : Answer) (reads : List Answer) (insert : Answer) (rest : List Answer),
      Interleaved body before after → w.write = .ok →
      reads.map Answer.read = (reported sender before after ++ ["OK"]).map ReadReply.line →
      (Stores ⟨sender, body⟩ (indices (before ++ after))
          (handleInboundInner events index pending (w :: (reads ++ insert :: rest))).trace ↔
        Unharmed body after) := by
  refine ⟨?_, parseCmgr_format hquote hsender hbody.ending hbody.noResult, ?_⟩
  · rw [lines_formatCmgrResponse hsender hbody.ending]
    simp
  intro events index pending before after w reads insert rest h hw hreads
  have hstores := handleInbound_stores h hbody hquote hsender events index pending hw hreads
    insert rest
  rw [← received_eq_iff h hbody]
  constructor
  · intro hexact
    have hsame := hstores.unique hexact
    injection hsame
  · intro heq
    rwa [heq] at hstores

end Handling

/-- A body of two lines. -/
def twoLines : String := "first\nsecond"

theorem plainBody_twoLines : PlainBody twoLines where
  ending := by decide +kernel
  noResult := by decide +kernel
  noCmti := by decide +kernel

theorem interleaved_twoLines :
    Interleaved twoLines ["+CMTI: \"SM\",4"] ["first", "second"] where
  ahead := List.forall_mem_singleton.mpr
    ⟨by decide +kernel, by decide +kernel, by decide +kernel⟩
  among := by
    have hno : ∀ l ∈ ["first", "second"], isCmti l = false := by decide +kernel
    intro l hl hcmti
    rw [hno l hl] at hcmti
    cases hcmti
  rest := by decide +kernel

/-- The message in slot 4 is announced before the header. -/
theorem stored_iff_unharmed_twoLines :
    Stores ⟨"+15551234567", twoLines⟩ [4]
      (handleInboundInner true 3 [] (.quiet :: ((reported "+15551234567" ["+CMTI: \"SM\",4"]
        ["first", "second"] ++ ["OK"]).map Answer.line ++ [.quiet]))).trace := by
  have hreads : ((reported "+15551234567" ["+CMTI: \"SM\",4"] ["first", "second"] ++
      ["OK"]).map Answer.line).map Answer.read = (reported "+15551234567" ["+CMTI: \"SM\",4"]
      ["first", "second"] ++ ["OK"]).map ReadReply.line := by
    rw [List.map_map]
    rfl
  have hindices : indices (["+CMTI: \"SM\",4"] ++ ["first", "second"]) = [4] := by decide +kernel
  have hunharmed : Unharmed twoLines ["first", "second"] :=
    ⟨by decide +kernel, .inr (by decide +kernel)⟩
  have hiff := (stored_iff_unharmed "+15551234567" twoLines (by decide +kernel) (by decide +kernel)
    plainBody_twoLines).2.2 true 3 [] ["+CMTI: \"SM\",4"] ["first", "second"] .quiet _ .quiet []
    interleaved_twoLines rfl hreads
  rw [hindices] at hiff
  exact hiff.mpr hunharmed

/-- A body of two paragraphs. -/
def paragraphs : String := "a\n\nb"

theorem plainBody_paragraphs : PlainBody paragraphs where
  ending := by decide +kernel
  noResult := by decide +kernel
  noCmti := by decide +kernel

theorem interleaved_paragraphs : Interleaved paragraphs [] ["a", "", "b"] where
  ahead := by simp
  among := by
    have hno : ∀ l ∈ ["a", "", "b"], isCmti l = false := by decide +kernel
    intro l hl hcmti
    rw [hno l hl] at hcmti
    cases hcmti
  rest := by decide +kernel

/-- The blank line between them is not stored. -/
theorem paragraphs_joined : ¬ ∀ (sender body : String), '"' ∉ sender.toList →
    '\n' ∉ sender.toList → PlainBody body →
    ∀ (events : Bool) (index : Nat) (pending : List Nat) (before after : List String)
      (w : Answer) (reads : List Answer) (insert : Answer) (rest : List Answer),
      Interleaved body before after → w.write = .ok →
      reads.map Answer.read = (reported sender before after ++ ["OK"]).map ReadReply.line →
      Stores ⟨sender, body⟩ (indices (before ++ after))
        (handleInboundInner events index pending (w :: (reads ++ insert :: rest))).trace := by
  intro h
  have hquote : '"' ∉ "+15551234567".toList := by decide +kernel
  have hsender : '\n' ∉ "+15551234567".toList := by decide +kernel
  have hreads : ((reported "+15551234567" [] ["a", "", "b"] ++ ["OK"]).map Answer.line).map
      Answer.read = (reported "+15551234567" [] ["a", "", "b"] ++ ["OK"]).map ReadReply.line := by
    rw [List.map_map]
    rfl
  have hexact := h "+15551234567" paragraphs hquote hsender plainBody_paragraphs false 3 [] []
    ["a", "", "b"] .quiet _ .quiet [] interleaved_paragraphs rfl hreads
  have hstores := handleInbound_stores interleaved_paragraphs plainBody_paragraphs hquote hsender
    false 3 [] (w := .quiet) rfl hreads .quiet []
  have hsame : received ["a", "", "b"] = paragraphs := by
    injection hstores.unique hexact
  exact absurd hsame (by decide +kernel)

end Modem
end GreenRelay
