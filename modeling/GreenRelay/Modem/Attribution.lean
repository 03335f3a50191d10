/-
Whose answer is read.

The modem answers what it is written in order, each answer when it likes, so
the lines on their way to the service form a queue.  `Dialogue` keeps the queue
with the number of the write that each line answers.  Between them the service
may read a notice, a line that answers nothing, such as `+CMTI`, and blank lines,
which frame the others.  An exchange that starts with an empty queue can only
read its own answer and notices.  After a timeout the service does not wait for
the late answer, and then every exchange reads the answer of an earlier one.
-/
import GreenRelay.Modem.Rules

namespace GreenRelay
namespace Modem

open Sms Scripted Text

/-! ## The monitor -/

/-- `out` is the last command or body that was written, `own` the modem's answer
to it, and `got` what has been read since, each line with the number of the write
that it answers, a notice with none.  `submitted` has the answers to the bodies
written for the request at hand. -/
structure Dialogue where
  queue : List (Nat × String)
  count : Nat
  out : Option Output
  own : List String
  got : List (Option Nat × String)
  submitted : List (List String)
  raw : Bool
  deriving DecidableEq, Repr

/-- A write, with the lines that the modem is going to answer. -/
def Dialogue.write (s : Dialogue) (out : Output) (answer : List String) : Dialogue :=
  let s := { s with
    queue := s.queue ++ answer.map (Prod.mk (s.count + 1))
    count := s.count + 1 }
  match out with
  | .command _ => { s with out := some out, own := answer, got := [] }
  | .body _ _ =>
    { s with out := some out, own := answer, got := [], submitted := s.submitted ++ [answer] }
  | _ => s

/-- A line is read: a blank one, which is the framing of the others, the first of
the queue, or a notice. -/
def Dialogue.Reads (s : Dialogue) (line : String) (s' : Dialogue) : Prop :=
  (isBlank line = true ∧ s' = s) ∨
    (∃ n rest, s.queue = (n, line) :: rest ∧
      s' = { s with queue := rest, got := s.got ++ [(some n, line)] }) ∨
    (isBlank line = false ∧ s' = { s with got := s.got ++ [(none, line)] })

/-- The lines among those read that answer something. -/
def answers (got : List (Option Nat × String)) : List (Option Nat × String) :=
  got.filter (fun x => x.1.isSome)

/-- The result that the last line of an answer stands for. -/
def resultOf (answer : List String) : Option AtResult :=
  match answer.getLast?.map classifyLine with
  | some (.terminator result) => some result
  | _ => none

/-- What is returned is what was read, and the answers in it are the answer to the
last write, line by line; without a notice nothing else is returned. -/
def Dialogue.Returns (s : Dialogue) (e : AtExchange) : Prop :=
  e.result ≠ .timeout →
    e.lines = s.got.map Prod.snd ∧ answers s.got = s.own.map (Prod.mk (some s.count)) ∧
      ((∀ x ∈ s.got, x.1.isSome = true) → e.lines = s.own) ∧ resultOf s.own = some e.result

/-- The reference of a message that is reported sent answered one of its own
submissions. -/
def Dialogue.Backs (s : Dialogue) (r : SendResult) : Prop :=
  r.status = .sent → ∀ reference, r.reference = some reference →
    ∃ answer ∈ s.submitted, ∃ line ∈ answer,
      (parseCmgsReference line).map toString = some reference

/-- The modem's own answer to `AT+CMGR` for the index is OK and holds a message. -/
def Dialogue.HasRead (s : Dialogue) (index : Nat) : Prop :=
  s.out = some (.command (cmgrCommand index)) ∧
    ((⟨cmgrCommand index, s.own, (resultOf s.own).getD .timeout⟩ : AtExchange).inbound).isSome

def Dialogue.initial (queue : List (Nat × String)) : Dialogue :=
  ⟨queue, 0, none, [], [], [], false⟩

def attribution : Monitor Event Dialogue where
  step s e s' :=
    match e with
    | .wrote out _ => ∃ answer, s' = s.write out answer
    | .read (.line line) => s.Reads line s'
    | .polled (.line line) => s.Reads line s'
    -- The wait for the prompt drops some of the lines.
    | .prompted _ => ∃ rest, rest <:+ s.queue ∧ s' = { s with queue := rest }
    | .took (.raw _) => s' = { s with submitted := [], raw := true }
    | .took (.sendSms _ _) => s' = { s with submitted := [] }
    | .repliedRaw _ => s' = { s with raw := false }
    | _ => s' = s
  ok s e :=
    match e with
    | .exchanged x => s.Returns x
    | .submitted x => s.Returns x
    | .repliedSend r => s.Backs r
    | .wrote (.command text) _ =>
      s.raw = true ∨ ∀ index, text = cmgdCommand index → s.HasRead index
    | _ => True

def Output.expectsAnswer : Output → Bool
  | .command _ | .body _ _ => true
  | .header _ _ | .abort => false

/-- The first line of a text that begins the report of a stored message. -/
def findCmgrHeader (text : List Char) : Option (List Char) :=
  (lines text).find? (fun l => (stripPrefix "+CMGR:".toList (trimStart l)).isSome)

/-- Inside an answer the line reads neither as a result, nor as a reference, nor as
the header of a stored message. -/
structure IsNotice (line : String) : Prop where
  plain : classifyLine line = .nonTerminating
  noReference : parseCmgsReference line = none
  noHeader : findCmgrHeader (line.toList ++ ['\n']) = none

instance (line : String) : Decidable (IsNotice line) :=
  decidable_of_iff (classifyLine line = .nonTerminating ∧ parseCmgsReference line = none ∧
    findCmgrHeader (line.toList ++ ['\n']) = none)
    ⟨fun h => ⟨h.1, h.2.1, h.2.2⟩, fun h => ⟨h.plain, h.noReference, h.noHeader⟩⟩

/-- A command or a body is written when no line of an earlier answer is unread; no
line of its answer is blank, and none but the last reads as a result; and what is
read in between and answers nothing is a notice. -/
def Synchronised (s : Dialogue) (e : Event) (s' : Dialogue) : Prop :=
  match e with
  | .wrote out _ => out.expectsAnswer = true →
    s.queue = [] ∧ (∀ line ∈ s'.own, isBlank line = false) ∧
      ∀ line ∈ s'.own.dropLast, classifyLine line = .nonTerminating
  | .read (.line line) => s'.got = s.got ++ [(none, line)] → IsNotice line
  | _ => True

abbrev synchronised : Monitor Event Dialogue := attribution.restrict Synchronised

/-! ## Notices in an answer -/

theorem parseCmgr_isSome (response : String) :
    (parseCmgr response).isSome
      = ((findCmgrHeader response.toList).bind parseCmgrSender).isSome := by
  rw [findCmgrHeader, List.find?_eq_head?_dropWhile_not]
  unfold parseCmgr
  simp only
  split
  · next hlines => rw [hlines]; rfl
  · next header rest hlines =>
    rw [hlines]
    show _ = (parseCmgrSender header).isSome
    cases parseCmgrSender header <;> rfl

theorem findCmgrHeader_break (l s : List Char) :
    findCmgrHeader (l ++ '\n' :: s) = (findCmgrHeader (l ++ ['\n'])).or (findCmgrHeader s) := by
  rw [findCmgrHeader, lines_break, List.find?_append]
  rfl

theorem findCmgrHeader_join (ls : List (List Char)) (last : List Char) :
    findCmgrHeader (join ['\n'] (ls ++ [last]))
      = (ls.findSome? (fun l => findCmgrHeader (l ++ ['\n']))).or (findCmgrHeader last) := by
  induction ls with
  | nil =>
    rw [List.nil_append, join, List.intercalate_singleton]
    rfl
  | cons l ls ih =>
    have hne : ls ++ [last] ≠ [] := by simp
    rw [List.cons_append, join, List.intercalate_cons_of_ne_nil hne, List.append_assoc,
      List.singleton_append, findCmgrHeader_break, ← join, ih, List.findSome?_cons]
    cases findCmgrHeader (l ++ ['\n']) <;> rfl

theorem findSome_answers {got : List (Option Nat × String)}
    (h : ∀ line, (none, line) ∈ got → IsNotice line) :
    got.findSome? (fun x => findCmgrHeader (x.2.toList ++ ['\n']))
      = (answers got).findSome? (fun x => findCmgrHeader (x.2.toList ++ ['\n'])) := by
  induction got with
  | nil => rfl
  | cons x got ih =>
    have hrest := ih (fun line hline => h line (List.mem_cons_of_mem x hline))
    obtain ⟨n, line⟩ := x
    cases n with
    | none =>
      have hnone := (h line List.mem_cons_self).noHeader
      rw [List.findSome?_cons, hnone]
      exact hrest
    | some n =>
      rw [answers, List.filter_cons_of_pos rfl, List.findSome?_cons, List.findSome?_cons, ← answers,
        hrest]

/-- Notices before its last line do not make an answer hold a message. -/
theorem inbound_answers {got init : List (Option Nat × String)} {n : Nat} {own : List String}
    {last : String} (hgot : got = init ++ [(some n, last)])
    (hnotice : ∀ line, (none, line) ∈ got → IsNotice line)
    (hown : answers got = own.map (Prod.mk (some n))) (command : String) (result : AtResult) :
    (⟨command, got.map Prod.snd, result⟩ : AtExchange).inbound.isSome
      = (⟨command, own, result⟩ : AtExchange).inbound.isSome := by
  have hanswers : answers got = answers init ++ [(some n, last)] := by
    rw [hgot, answers, List.filter_append, answers]
    rfl
  have hlines : own = (answers init).map Prod.snd ++ [last] := by
    have hsnd := congrArg (List.map Prod.snd) (hown.symm.trans hanswers)
    simpa [Function.comp_def] using hsnd
  have hfind := findSome_answers (fun line h => hnotice line (hgot ▸ List.mem_append_left _ h))
  simp only [AtExchange.inbound]
  cases result.isOk with
  | false => rfl
  | true =>
    simp only [if_true, parseCmgr_isSome, AtExchange.response, String.toList_ofList]
    rw [hlines, hgot, List.map_append, List.map_append, List.map_append]
    show ((findCmgrHeader (join _ (_ ++ [last.toList]))).bind _).isSome
      = ((findCmgrHeader (join _ (_ ++ [last.toList]))).bind _).isSome
    rw [findCmgrHeader_join, findCmgrHeader_join]
    simp only [List.findSome?_map, Function.comp_def]
    rw [hfind]

/-! ## Reading an answer -/

/-- An assertion that more submissions do not spoil. -/
def Grows (I : Dialogue → Prop) : Prop :=
  ∀ s s', (∀ answer ∈ s.submitted, answer ∈ s'.submitted) → I s → I s'

theorem grows_true : Grows (fun _ => True) := fun _ _ _ _ => trivial

/-- An answer is being read: the lines read are those of the answer, up to what is
still in the queue, and notices. -/
structure Receiving (written : Output) (lines : List String) (s : Dialogue) : Prop where
  out : s.out = some written
  got : s.got.map Prod.snd = lines
  rest : ∃ read rest, s.own = read ++ rest ∧ s.queue = rest.map (Prod.mk s.count) ∧
    answers s.got = read.map (Prod.mk (some s.count))
  notices : ∀ line, (none, line) ∈ s.got → IsNotice line
  framed : ∀ line ∈ s.own, isBlank line = false
  plain : ∀ line ∈ s.own.dropLast, classifyLine line = .nonTerminating
  noted : ∀ part encoding, written = .body part encoding → s.own ∈ s.submitted

/-- The whole answer has been read, with its last line just now. -/
structure Complete (line : String) (s : Dialogue) : Prop where
  last : ∃ init, s.got = init ++ [(some s.count, line)]
  whole : answers s.got = s.own.map (Prod.mk (some s.count))
  ends : s.own.getLast? = some line

/-- An answer has been read, or given up. -/
structure Received (written : Output) (e : AtExchange) (s : Dialogue) : Prop where
  out : s.out = some written
  returns : s.Returns e
  lines : ∀ line ∈ e.lines, line ∈ s.own ∨ IsNotice line
  inbound : e.inbound.isSome = (⟨e.command, s.own, e.result⟩ : AtExchange).inbound.isSome
  noted : ∀ part encoding, written = .body part encoding → s.own ∈ s.submitted

section

variable {out : Output} {lines : List String} {s s' : Dialogue} {line : String}

/-- The next line of the answer; a result line is the last. -/
theorem Receiving.answer (h : Receiving out lines s) {n : Nat} {queue : List (Nat × String)}
    (hqueue : s.queue = (n, line) :: queue)
    (hs' : s' = { s with queue := queue, got := s.got ++ [(some n, line)] }) :
    isBlank line = false ∧ Receiving out (lines ++ [line]) s' ∧
      ∀ result, classifyLine line = .terminator result → Complete line s' := by
  subst hs'
  obtain ⟨read, rest, hown, hrest, hanswers⟩ := h.rest
  cases rest with
  | nil => rw [hqueue] at hrest; cases hrest
  | cons l rest =>
    rw [hqueue, List.map_cons] at hrest
    obtain ⟨hhead, hqueue'⟩ := List.cons.inj hrest
    obtain ⟨rfl, rfl⟩ := Prod.mk.inj hhead
    have hown' : s.own = (read ++ [line]) ++ rest := by rw [hown, List.append_cons]
    have hmem : line ∈ s.own := by rw [hown]; exact List.mem_append_cons_self
    have hanswers' : answers (s.got ++ [(some s.count, line)])
        = (read ++ [line]).map (Prod.mk (some s.count)) := by
      rw [List.map_append, ← hanswers, answers, List.filter_append, answers]
      rfl
    refine ⟨h.framed line hmem, ⟨h.out, ?_, ⟨read ++ [line], rest, hown', hqueue', hanswers'⟩, ?_,
      h.framed, h.plain, h.noted⟩, ?_⟩
    · show (s.got ++ _).map _ = _
      rw [List.map_append, h.got]
      rfl
    · intro l hl
      rcases List.mem_append.mp hl with hold | hnew
      · exact h.notices l hold
      · cases List.mem_singleton.mp hnew
    · intro result hresult
      have hlast : rest = [] := by
        cases rest with
        | nil => rfl
        | cons l rest =>
          -- A line before the last would not be a result.
          have hinit : line ∈ s.own.dropLast := by
            rw [hown, List.dropLast_append_of_ne_nil (List.cons_ne_nil _ _),
              List.dropLast_cons_cons]
            exact List.mem_append_cons_self
          rw [h.plain line hinit] at hresult
          cases hresult
      rw [hlast, List.append_nil] at hown'
      refine ⟨⟨s.got, rfl⟩, hanswers'.trans (by rw [hown']), ?_⟩
      show s.own.getLast? = some line
      rw [hown', List.getLast?_concat]

/-- A notice comes between the lines of the answer. -/
theorem Receiving.notice (h : Receiving out lines s) (hnotice : IsNotice line)
    (hs' : s' = { s with got := s.got ++ [(none, line)] }) :
    Receiving out (lines ++ [line]) s' := by
  subst hs'
  obtain ⟨read, rest, hown, hqueue, hanswers⟩ := h.rest
  refine ⟨h.out, ?_, ⟨read, rest, hown, hqueue, ?_⟩, ?_, h.framed, h.plain, h.noted⟩
  · show (s.got ++ _).map _ = _
    rw [List.map_append, h.got]
    rfl
  · show answers (s.got ++ _) = _
    rw [answers, List.filter_append, ← answers, hanswers]
    exact List.append_nil _
  · intro l hl
    rcases List.mem_append.mp hl with hold | hnew
    · exact h.notices l hold
    · rw [(Prod.mk.inj (List.mem_singleton.mp hnew)).2]
      exact hnotice

theorem Receiving.read (h : Receiving out lines s) (hread : s.Reads line s')
    (hnotice : s'.got = s.got ++ [(none, line)] → IsNotice line) :
    (isBlank line = true ∧ s' = s) ∨
      (isBlank line = false ∧ Receiving out (lines ++ [line]) s' ∧
        ∀ result, classifyLine line = .terminator result → Complete line s') := by
  rcases hread with hblank | ⟨n, queue, hqueue, hs'⟩ | ⟨hline, hs'⟩
  · exact Or.inl hblank
  · exact Or.inr (h.answer hqueue hs')
  · have hplain : IsNotice line := hnotice (by rw [hs'])
    refine Or.inr ⟨hline, h.notice hplain hs', ?_⟩
    intro result hresult
    cases hplain.plain.symm.trans hresult

/-- The lines that have been read are the answer's and notices. -/
theorem Receiving.lines_mem (h : Receiving out lines s) :
    ∀ line ∈ lines, line ∈ s.own ∨ IsNotice line := by
  intro line hline
  obtain ⟨read, rest, hown, _, hanswers⟩ := h.rest
  rw [← h.got] at hline
  obtain ⟨⟨n, line⟩, hmem, rfl⟩ := List.mem_map.mp hline
  cases n with
  | none => exact .inr (h.notices line hmem)
  | some n =>
    left
    have hanswer : (some n, line) ∈ answers s.got := List.mem_filter.mpr ⟨hmem, rfl⟩
    rw [hanswers] at hanswer
    obtain ⟨l, hl, hpair⟩ := List.mem_map.mp hanswer
    rw [hown, ← (Prod.mk.inj hpair).2]
    exact List.mem_append_left rest hl

/-- What is returned after the last line. -/
theorem Receiving.received (h : Receiving out lines s) {result : AtResult}
    (hresult : classifyLine line = .terminator result) (hcomplete : Complete line s)
    (command : String) : Received out ⟨command, lines, result⟩ s := by
  obtain ⟨init, hgot⟩ := hcomplete.last
  refine ⟨h.out, fun _ => ⟨h.got.symm, hcomplete.whole, ?_, ?_⟩, h.lines_mem, ?_, h.noted⟩
  · intro hall
    have hsame : answers s.got = s.got := List.filter_eq_self.mpr hall
    have hown := hsame.symm.trans hcomplete.whole
    show lines = s.own
    rw [← h.got, hown]
    simp [Function.comp_def]
  · rw [resultOf, hcomplete.ends, Option.map_some, hresult]
  · have hinbound := inbound_answers hgot h.notices hcomplete.whole command result
    rwa [h.got] at hinbound

/-- What is returned when the time is up. -/
theorem Receiving.given_up (h : Receiving out lines s) (command : String) :
    Received out ⟨command, lines, .timeout⟩ s :=
  ⟨h.out, fun htimeout => absurd rfl htimeout, h.lines_mem, rfl, h.noted⟩

end

theorem triple_collect_received {I : Dialogue → Prop} (hI : Grows I) (out : Output)
    (command : String) :
    Triple synchronised (fun s => I s ∧ Receiving out [] s) (collectUntilTerminator command)
      (fun e s => I s ∧ e.command = command ∧ Received out e s) I := by
  unfold collectUntilTerminator
  refine triple_iterate (I := fun lines s => I s ∧ Receiving out lines s) (fun lines => ?_) []
  unfold collectStep
  refine triple_bind (T := fun read s => read.elim (I s ∧ Receiving out lines s) (fun line => I s ∧
    ((isBlank line = true ∧ Receiving out lines s) ∨
      (isBlank line = false ∧ Receiving out (lines ++ [line]) s ∧
        ∀ result, classifyLine line = .terminator result → Complete line s)))) ?_
    (fun read => ?_)
  · refine triple_perform (fun a s s' hs hstep => ⟨trivial, ?_⟩)
    obtain ⟨hkeep, hreceiving⟩ := hs
    have hmove := hstep.2
    cases hr : a.read with
    | timeout =>
      rw [hr] at hmove
      obtain rfl : s' = s := hmove
      exact ⟨hkeep, hreceiving⟩
    | ioError =>
      rw [hr] at hmove
      obtain rfl : s' = s := hmove
      exact hkeep
    | line text =>
      rw [hr] at hmove
      have hread : s.Reads text s' := hmove
      have hkeep' : I s' := by
        refine hI s s' (fun answer h => ?_) hkeep
        rcases hread with ⟨_, rfl⟩ | ⟨n, rest, _, rfl⟩ | ⟨_, rfl⟩ <;> exact h
      have hnotice : s'.got = s.got ++ [(none, text)] → IsNotice text := by
        have hsync := hstep.1
        rwa [hr] at hsync
      refine ⟨hkeep', ?_⟩
      rcases hreceiving.read hread hnotice with ⟨hblank, rfl⟩ | hnext
      · exact Or.inl ⟨hblank, hreceiving⟩
      · exact Or.inr hnext
  cases read with
  | none => exact triple_pure (fun s hs => ⟨hs.1, rfl, hs.2.given_up command⟩)
  | some line =>
    simp only
    cases hclass : classifyLine line with
    | nonTerminating =>
      refine triple_pure (fun s hs => ?_)
      obtain ⟨hkeep, ⟨hblank, hreceiving⟩ | ⟨hblank, hreceiving, _⟩⟩ := hs
      · rw [hblank]
        exact ⟨hkeep, hreceiving⟩
      · rw [hblank]
        exact ⟨hkeep, hreceiving⟩
    | terminator result =>
      refine triple_pure (fun s hs => ?_)
      obtain ⟨hkeep, ⟨hblank, _⟩ | ⟨_, hreceiving, hlast⟩⟩ := hs
      · rw [classifyLine_blank hblank] at hclass
        cases hclass
      · exact ⟨hkeep, rfl, hreceiving.received hclass (hlast result hclass) command⟩

/-- The answer to what has just been written is still to come. -/
theorem receiving_written {out : Output} (hout : out.expectsAnswer = true) {s s' : Dialogue}
    {reply : WriteReply} (hstep : synchronised.step s (.wrote out reply) s') :
    Receiving out [] s' := by
  obtain ⟨hsync, answer, rfl⟩ := hstep
  obtain ⟨hempty, hframed, hplain⟩ := hsync hout
  have hqueue : s.queue ++ answer.map (Prod.mk (s.count + 1)) =
      answer.map (Prod.mk (s.count + 1)) := by
    rw [hempty, List.nil_append]
  have hnone : ∀ line, (none, line) ∈ ([] : List (Option Nat × String)) → IsNotice line :=
    fun _ h => absurd h List.not_mem_nil
  cases out with
  | header | abort => cases hout
  | command text =>
    exact ⟨rfl, rfl, ⟨[], answer, rfl, hqueue, rfl⟩,
      hnone, hframed, hplain, fun _ _ h => by cases h⟩
  | body part encoding =>
    have hmem : answer ∈ s.submitted ++ [answer] := List.mem_append_right _ List.mem_cons_self
    exact ⟨rfl, rfl, ⟨[], answer, rfl, hqueue, rfl⟩, hnone, hframed, hplain, fun _ _ _ => hmem⟩

/-! ## Exchanges -/

theorem keepsLocal_grows {I : Dialogue → Prop} (hI : Grows I) : KeepsLocal synchronised I := by
  intro e s s' he hs hstep
  have hkeep : I s' := by
    refine hI s s' (fun answer h => ?_) hs
    have hmove := hstep.2
    cases e <;> first
      | exact (show s' = s from hmove) ▸ h
      | exact (show s' = { s with raw := false } from hmove) ▸ h
      | cases he
  refine ⟨?_, hkeep⟩
  cases e <;> trivial

/-- What is done with a message does not touch the dialogue. -/
theorem keepsInbound_dialogue (I : Dialogue → Prop) : KeepsInbound synchronised I := by
  intro e s s' he hs hstep
  have hsame : s' = s := by
    cases e <;> first | exact hstep.2 | cases he
  refine ⟨?_, hsame ▸ hs⟩
  cases e <;> trivial

/-- What a command has to show for itself before it is written. -/
def MayCommand (text : String) (s : Dialogue) : Prop :=
  s.raw = true ∨ ∀ index, text = cmgdCommand index → s.HasRead index

theorem triple_exchange_received {I : Dialogue → Prop} (hI : Grows I) (text : String) :
    Triple synchronised (fun s => I s ∧ MayCommand text s) (exchange text)
      (fun e s => I s ∧ e.command = text ∧ Received (.command text) e s) I := by
  refine triple_exchange (C := fun s => I s ∧ Receiving (.command text) [] s) ?_
    (triple_collect_received hI (.command text) text) ?_
  · refine triple_perform (fun a s s' hs hstep => ⟨hs.2, ?_⟩)
    have hreceiving := receiving_written rfl hstep
    obtain ⟨_, answer, rfl⟩ := hstep
    have hkeep : I (s.write (.command text) answer) := hI s _ (fun _ h => h) hs.1
    cases a.write with
    | ioError n => exact hkeep
    | ok => exact ⟨hkeep, hreceiving⟩
  · intro e s s' he hstep
    obtain ⟨hkeep, hcommand, hreceived⟩ := he
    obtain rfl : s' = s := hstep.2
    exact ⟨hreceived.returns, hkeep, hcommand, hreceived⟩

/-- A command that deletes nothing needs nothing. -/
theorem mayCommand_of_tag {text : String} (h : tag text ≠ some 'D') (s : Dialogue) :
    MayCommand text s :=
  .inr (fun index htext => absurd htext.symm (cmgd_ne h index))

theorem keeps_exchange_grows {I R : Dialogue → Prop} (hI : Grows I) (hR : ∀ s, I s → R s)
    {text : String} (h : tag text ≠ some 'D') : Keeps synchronised I R (exchange text) :=
  triple_conseq (triple_exchange_received hI text) (fun s hs => ⟨hs, mayCommand_of_tag h s⟩)
    (fun _ _ hs => hs.1) hR

/-! ## Submissions -/

theorem keepsSubmission_grows {I : Dialogue → Prop} (hI : Grows I) (encoding : SmsEncoding) :
    KeepsSubmission synchronised I encoding := by
  intro e s s' he hs hstep
  have hmove := hstep.2
  match e with
  | .wrote (.header toNumber enc) reply =>
    obtain ⟨answer, rfl⟩ := hmove
    exact ⟨trivial, hI s _ (fun _ h => h) hs⟩
  | .wrote (.body part enc) reply =>
    obtain ⟨answer, rfl⟩ := hmove
    exact ⟨trivial, hI s _ (fun _ h => List.mem_append_left _ h) hs⟩
  | .wrote .abort reply =>
    obtain ⟨answer, rfl⟩ := hmove
    exact ⟨trivial, hI s _ (fun _ h => h) hs⟩
  | .prompted reply =>
    obtain ⟨rest, _, rfl⟩ := hmove
    exact ⟨trivial, hI s _ (fun _ h => h) hs⟩
  | .read (.line line) =>
    refine ⟨trivial, hI s s' (fun answer h => ?_) hs⟩
    rcases hmove with ⟨_, rfl⟩ | ⟨n, rest, _, rfl⟩ | ⟨_, rfl⟩ <;> exact h
  | .read .timeout => exact ⟨trivial, (show s' = s from hmove) ▸ hs⟩
  | .read .ioError => exact ⟨trivial, (show s' = s from hmove) ▸ hs⟩

/-- The lines of a submission answer a body of the request, but for the notices. -/
def Noted (e : AtExchange) (s : Dialogue) : Prop :=
  ∀ line ∈ e.lines, (∃ answer ∈ s.submitted, line ∈ answer) ∨ IsNotice line

theorem grows_noted (e : AtExchange) : Grows (Noted e) := by
  intro s s' hmore h line hline
  refine (h line hline).imp_left ?_
  rintro ⟨answer, hanswer, hmem⟩
  exact ⟨answer, hmore answer hanswer, hmem⟩

theorem triple_submitBody (part : String) (encoding : SmsEncoding) :
    Triple synchronised Anything (submitBody part encoding)
      (fun e s => s.Returns e ∧ Noted e s) Anything := by
  unfold submitBody
  refine triple_bind (T := fun _ s => True ∧ Receiving (.body part encoding) [] s) ?_ (fun _ => ?_)
  · refine triple_perform (fun a s s' _ hstep => ⟨trivial, ?_⟩)
    cases a.write with
    | ioError n => trivial
    | ok => exact ⟨trivial, receiving_written rfl hstep⟩
  refine triple_bind (triple_collect_received grows_true (.body part encoding) "AT+CMGS")
    (fun e => ?_)
  have hnoted : ∀ s, (True ∧ e.command = "AT+CMGS" ∧ Received (.body part encoding) e s) →
      Noted e s := fun s hs line hline =>
    (hs.2.2.lines line hline).imp_left (fun hown => ⟨s.own, hs.2.2.noted part encoding rfl, hown⟩)
  split
  · next htimeout =>
    -- What the ESC drains is not returned.
    refine triple_bind (T := fun _ => Noted e) ?_ (fun _ => ?_)
    · have habort := keeps_abortToCommandMode (keepsSubmission_grows (grows_noted e) encoding)
      exact triple_conseq habort hnoted (fun _ _ h => h) (fun _ _ => trivial)
    · exact triple_pure (fun s hs => ⟨fun h => absurd htimeout h, hs⟩)
  · exact triple_pure (fun s hs => ⟨hs.2.2.returns, hnoted s hs⟩)

theorem triple_sendSmsPart_noted (toNumber part : String) (encoding : SmsEncoding) :
    Triple synchronised Anything (sendSmsPart toNumber part encoding)
      (fun e s => s.Returns e ∧ Noted e s) Anything := by
  have hport := keepsSubmission_grows grows_true encoding
  unfold sendSmsPart
  refine triple_bind (T := fun _ => Anything) ?_ (fun _ => ?_)
  · exact keeps_writeBytes hport (fun _ => by cases encoding <;> rfl)
  refine triple_bind (T := fun _ => Anything) ?_ (fun seen => ?_)
  · refine triple_perform (fun a s s' _ _ => ⟨trivial, ?_⟩)
    cases a.prompt <;> trivial
  cases seen with
  | true => exact triple_submitBody part encoding
  | false =>
    refine triple_bind (keeps_abortToCommandMode hport) (fun _ => triple_pure (fun s _ => ?_))
    exact ⟨fun h => absurd rfl h, fun line hline => absurd hline List.not_mem_nil⟩

theorem triple_sendAttempts_backed (cfg : Config) (toNumber part : String) (encoding : SmsEncoding)
    (left : Nat) (lastCode : Option Nat) :
    Triple synchronised Anything (sendAttempts cfg toNumber part encoding left lastCode)
      (fun r s => s.Backs r) Anything := by
  have hlocal := keepsLocal_grows grows_true
  induction left generalizing lastCode with
  | zero =>
    refine triple_bind (keeps_audit hlocal.notes _ _) (fun _ => triple_pure (fun s _ h => ?_))
    cases h
  | succ left ih =>
    unfold sendAttempts
    refine triple_bind (triple_sendSmsPart_noted toNumber part encoding) (fun e => ?_)
    refine triple_bind (T := fun _ => Noted e) ?_ (fun _ => ?_)
    · refine triple_emit (fun s s' hs hstep => ⟨hs.1, ?_⟩)
      exact (show s' = s from hstep.2) ▸ hs.2
    refine if hsent : (parseSendOutcome e.lines).status = .sent then ?_ else ?_
    · simp only [hsent, if_true]
      refine triple_pure (fun s hs _ reference href => ?_)
      obtain ⟨r, hr, line, hline, hparse⟩ := parseSendOutcome_sent hsent
      rcases hs line hline with ⟨answer, hanswer, hmem⟩ | hnotice
      · refine ⟨answer, hanswer, line, hmem, ?_⟩
        rw [hr] at href
        rw [hparse]
        exact href
      · cases hnotice.noReference.symm.trans hparse
    · simp only [hsent, if_false]
      split
      · refine triple_bind (T := fun _ => Anything) ?_ (fun _ => triple_pure (fun s _ h => ?_))
        · exact triple_pre (keeps_audit hlocal.notes _ _) (fun _ _ => trivial)
        · cases h
      · refine triple_bind (T := fun _ => Anything) ?_ (fun _ => ih _)
        unfold retryPause
        split
        · exact triple_pure (fun _ _ => trivial)
        · exact triple_pre (keeps_emit_local hlocal rfl) (fun _ _ => trivial)

/-! ## Messages -/

theorem grows_backs (r : SendResult) : Grows (fun s => s.Backs r) := by
  intro s s' hmore h hsent reference href
  obtain ⟨answer, hanswer, hline⟩ := h hsent reference href
  exact ⟨answer, hmore answer hanswer, hline⟩

theorem triple_sendAllSegments_backed (cfg : Config) (toNumber : String) (segments : List Segment)
    (encoding : SmsEncoding) :
    Triple synchronised Anything (sendAllSegments cfg toNumber segments encoding)
      (fun r s => s.Backs r) Anything := by
  have hfrom : ∀ reference, Triple synchronised
      (fun s => s.Backs ⟨.sent, reference, none, none⟩)
      (sendAllSegmentsFrom cfg toNumber encoding segments reference) (fun r s => s.Backs r)
      Anything := by
    induction segments with
    | nil => exact fun reference => triple_pure (fun _ h => h)
    | cons segment segments ih =>
      intro reference
      unfold sendAllSegmentsFrom
      refine triple_bind (triple_pre
        (triple_sendAttempts_backed cfg toNumber segment.text encoding _ _)
        (fun _ _ => trivial)) (fun result => ?_)
      cases hstatus : result.status with
      | sent => exact triple_pre (ih result.reference) (fun s hs _ => hs hstatus)
      | queued => exact triple_pure (fun _ h => h)
      | failed => exact triple_pure (fun _ h => h)
  exact triple_pre (hfrom none) (fun _ _ _ reference href => by cases href)

theorem triple_sendEncoded_backed (cfg : Config) (toNumber : String) (segments : List Segment)
    (encoding : SmsEncoding) :
    Triple synchronised Anything (sendEncoded cfg toNumber segments encoding) (fun r s => s.Backs r)
      Anything := by
  have hx : ∀ {I : Dialogue → Prop}, Grows I → ∀ c ∈ sendCommands,
      Keeps synchronised I I (exchange c) := by
    intro I hI c hc
    have htag : ∀ c ∈ sendCommands, tag c ≠ some 'D' := by decide +kernel
    exact keeps_exchange_grows hI (fun _ h => h) (htag c hc)
  unfold sendEncoded
  refine triple_bind (hx grows_true _ (by decide)) (fun _ => ?_)
  cases encoding with
  | gsm7 => exact triple_sendAllSegments_backed cfg toNumber segments .gsm7
  | ucs2 =>
    refine triple_bind (T := fun _ => Anything) ?_ (fun _ => ?_)
    · exact keeps_setCharset (hx grows_true _ (by decide)) (hx grows_true _ (by decide))
    refine triple_bind (T := fun outcome s => outcome.elim True s.Backs) ?_ (fun outcome => ?_)
    · exact triple_attempt (triple_sendAllSegments_backed cfg toNumber segments .ucs2)
    -- The restore submits nothing, so the reference is still backed.
    cases outcome with
    | some r =>
      have hI := grows_backs r
      refine triple_bind (keeps_attempt (keeps_setCharset (hx hI _ (by decide))
        (hx hI _ (by decide)))) (fun _ => triple_pure (fun _ h => h))
    | none =>
      refine triple_bind (keeps_attempt (keeps_setCharset (hx grows_true _ (by decide))
        (hx grows_true _ (by decide)))) (fun _ => triple_fail (fun _ h => h))

theorem triple_handleSend_backed (cfg : Config) (status : ModemStatusSnapshot)
    (toNumber body : String) :
    Triple synchronised Anything (handleSend cfg status toNumber body) (fun r s => s.Backs r)
      Anything := by
  unfold handleSend
  split
  · split
    · exact triple_sendEncoded_backed cfg toNumber _ _
    · refine triple_bind (keeps_audit (keepsLocal_grows grows_true).notes _ _) (fun _ => ?_)
      exact triple_pure (fun _ _ h => by cases h)
  · exact triple_pure (fun _ _ h => by cases h)

/-! ## Inbound messages -/

theorem triple_readInbound_own (i attempts : Nat) (pending : List Nat) :
    Triple synchronised Anything (readInbound i attempts pending)
      (fun r s => r.1.isSome = true → s.HasRead i) Anything := by
  induction attempts generalizing pending with
  | zero => exact triple_pure (fun _ _ h => by cases h)
  | succ attempts ih =>
    unfold readInbound
    refine triple_bind (T := fun e s => e.inbound.isSome = true → s.HasRead i) ?_ (fun e => ?_)
    · refine triple_conseq (triple_exchange_received grows_true (cmgrCommand i)) ?_ ?_
        (fun _ h => h)
      · exact fun s _ => ⟨trivial, mayCommand_of_tag (by rw [tag_cmgr]; decide) s⟩
      · intro e s hs hinbound
        obtain ⟨_, hcommand, hreceived⟩ := hs
        have hok : e.result = .ok := by
          cases hresult : e.result with
          | ok => rfl
          | _ => simp [AtExchange.inbound, hresult, AtResult.isOk] at hinbound
        obtain ⟨_, _, _, hown⟩ := hreceived.returns (by rw [hok]; exact fun h => by cases h)
        refine ⟨hreceived.out, ?_⟩
        rw [hown, ← hcommand]
        exact hreceived.inbound.symm.trans hinbound
    refine triple_bind (keeps_scanCmti (keepsInbound_dialogue _) _ _) (fun pending => ?_)
    cases hinbound : e.inbound with
    | none => exact triple_pre (ih pending) (fun _ _ => trivial)
    | some message => exact triple_pure (fun _ h _ => h rfl)

theorem triple_storeInbound_own (events : Bool) (i : Nat) (message : ParsedInbound)
    (pending : List Nat) :
    Triple synchronised (fun s => s.HasRead i) (storeInbound events i message pending)
      (fun _ => Anything) Anything := by
  have hlocal := keepsLocal_grows grows_true
  have hread := keepsInbound_dialogue (fun s => s.HasRead i)
  unfold storeInbound
  refine triple_bind (keeps_createInboundMessage hread message) (fun reply => ?_)
  cases reply with
  | error text =>
    refine triple_bind (T := fun _ => Anything) ?_ (fun _ => triple_pure (fun _ h => h))
    exact triple_pre (keeps_audit hlocal.notes _ _) (fun _ _ => trivial)
  | ok rowId =>
    refine triple_bind (T := fun _ s => s.HasRead i) ?_ (fun _ => ?_)
    · unfold publishInbound
      cases events
      · exact triple_pure (fun _ h => h)
      · exact keeps_emit_inbound hread rfl
    refine triple_bind (T := fun _ => Anything) ?_ (fun delete => ?_)
    · refine triple_conseq (triple_exchange_received grows_true (cmgdCommand i)) ?_
        (fun _ _ h => h.1) (fun _ h => h)
      refine fun s hs => ⟨trivial, Or.inr (fun index htext => ?_)⟩
      obtain ⟨hout, hinbound⟩ := hs
      unfold Dialogue.HasRead
      rw [← cmgr_eq_of_cmgd htext]
      exact ⟨hout, hinbound⟩
    refine triple_bind (keeps_scanCmti (keepsInbound_dialogue _) _ _) (fun pending => ?_)
    refine triple_bind (T := fun _ => Anything) ?_ (fun _ => triple_pure (fun _ h => h))
    unfold auditDelete
    split
    · exact keeps_pure ()
    · exact keeps_audit hlocal.notes _ _

theorem keeps_drainPending_own (events : Bool) (pending : List Nat) :
    Keeps synchronised Anything Anything (drainPending events pending) := by
  unfold drainPending
  refine keeps_iterate (fun pending => ?_) pending
  cases pending with
  | nil => exact keeps_pure _
  | cons i pending =>
    refine keeps_bind (keeps_emit_inbound (keepsInbound_dialogue _) rfl) (fun _ => ?_)
    refine keeps_bind (p := handleInboundInner events i pending) ?_ (fun _ => keeps_pure _)
    unfold handleInboundInner
    refine triple_bind (triple_readInbound_own i 3 pending) (fun r => ?_)
    obtain ⟨message, pending⟩ := r
    cases message with
    | none =>
      refine triple_bind (T := fun _ => Anything) ?_ (fun _ => triple_pure (fun _ h => h))
      exact triple_pre (keeps_audit (keepsLocal_grows grows_true).notes _ _) (fun _ _ => trivial)
    | some message =>
      exact triple_pre (triple_storeInbound_own events i message pending) (fun _ h => h rfl)

/-! ## The session -/

theorem triple_handleRequest_own (cfg : Config) (s : SessionState) (r : ModemRequest) :
    Triple synchronised (fun st => ∀ command, r = .raw command → st.raw = true)
      (handleRequest cfg s r) (fun _ => Anything) Anything := by
  have hlocal := keepsLocal_grows grows_true
  cases r with
  | raw command =>
    show Triple synchronised _ (handleRaw command s) _ _
    unfold handleRaw
    refine triple_bind (T := fun _ => Anything) ?_ (fun e => ?_)
    · exact triple_conseq (triple_exchange_received grows_true command)
        (fun _ h => ⟨trivial, Or.inl (h command rfl)⟩) (fun _ _ h => h.1) (fun _ h => h)
    refine keeps_bind (keeps_scanCmti (keepsInbound_dialogue _) _ _) (fun pending => ?_)
    refine keeps_bind (keeps_emit_local hlocal rfl) (fun _ => ?_)
    exact keeps_bind (keeps_emit_local hlocal rfl) (fun _ => keeps_pure _)
  | sendSms toNumber body =>
    refine triple_bind (triple_pre (triple_handleSend_backed cfg s.status toNumber body)
      (fun _ _ => trivial)) (fun result => ?_)
    refine triple_bind (T := fun _ => Anything) ?_ (fun _ => triple_pure (fun _ h => h))
    exact triple_emit (fun _ _ hs _ => ⟨hs, trivial⟩)

theorem triple_sessionStep_own (cfg : Config) (events : Bool) (s : SessionState) :
    Triple synchronised Anything (sessionStep cfg events s)
      (afterTurn (fun _ => Anything) Anything) Anything := by
  have hlocal := keepsLocal_grows grows_true
  have hstatus : ∀ c ∈ statusCommands, tag c ≠ some 'D' := by decide +kernel
  refine triple_sessionStep (I := fun _ => Anything) s (keeps_drainPending_own events)
    hlocal.reports ?_ ?_
  · exact keeps_refreshStatus hlocal
      (fun c hc => keeps_exchange_grows grows_true (fun _ h => h) (hstatus c hc))
  intro s _
  refine triple_serveTurn (I := fun _ => Anything)
    (P := fun choice st => ∀ command, choice = .request (.raw command) → st.raw = true)
    ?_ (fun _ _ => trivial) (fun _ _ => trivial) (fun _ _ => trivial) (fun line => ?_) (fun r => ?_)
  · refine triple_select (fun r st st' _ hstep => ⟨trivial, ?_⟩)
      (fun st st' _ _ => ⟨trivial, fun _ h => by cases h⟩)
      (fun reply st st' _ _ => ⟨trivial, fun _ h => by cases reply <;> cases h⟩)
    intro command hr
    obtain rfl := Choice.request.inj hr
    have hmove : st' = { st with submitted := [], raw := true } := hstep.2
    rw [hmove]
  · exact triple_pre (keeps_scanCmti (keepsInbound_dialogue _) _ _) (fun _ _ => trivial)
  · exact triple_pre (triple_handleRequest_own cfg s r)
      (fun _ h command hr => h command (congrArg Choice.request hr))

/-- In every run of a session in which nothing is written while an earlier
answer is unread, every exchange returns the modem's answer to its own command;
so a reference that is reported answered a body of its own message, and a
message is deleted on the strength of its own `AT+CMGR` alone. -/
theorem answers_attributed (cfg : Config) (events : Bool) (status : ModemStatusSnapshot)
    (script : List Answer) (queue : List (Nat × String)) :
    (attribution.restrict Synchronised).Safe (.initial queue)
      (runSessionInner cfg events status script).trace :=
  (triple_runSessionInner (I := fun _ => Anything) (R := Anything) status
    (fun _ _ _ => keepsLocal_grows grows_true _ _ _ rfl) (triple_sessionStep_own cfg events)
    script _ trivial).1

/-! ## Conversations -/

/-- Hears a line: the next one of the queue if it is that one, else framing or a
notice. -/
def Dialogue.hear (s : Dialogue) (line : String) : Dialogue :=
  match s.queue with
  | (n, l) :: rest =>
    if l = line then { s with queue := rest, got := s.got ++ [(some n, line)] }
    else if isBlank line then s else { s with got := s.got ++ [(none, line)] }
  | [] => if isBlank line then s else { s with got := s.got ++ [(none, line)] }

theorem Dialogue.reads_hear (s : Dialogue) (line : String) : s.Reads line (s.hear line) := by
  have hother : s.Reads line (if isBlank line then s else
      { s with got := s.got ++ [(none, line)] }) := by
    cases hblank : isBlank line with
    | true => exact .inl ⟨hblank, rfl⟩
    | false => exact .inr (.inr ⟨hblank, rfl⟩)
  unfold Dialogue.hear
  split
  · next n l rest hqueue =>
    by_cases hline : l = line
    · rw [if_pos hline]
      exact .inr (.inl ⟨n, rest, hline ▸ hqueue, rfl⟩)
    · rw [if_neg hline]
      exact hother
  · exact hother

/-- How a dialogue goes on with a modem that answers every write alike. -/
def conversing (modem : Output → List String) (s : Dialogue) (e : Event) : Dialogue :=
  match e with
  | .wrote out _ => s.write out (modem out)
  | .read (.line line) => s.hear line
  | .polled (.line line) => s.hear line
  | .took (.raw _) => { s with submitted := [], raw := true }
  | .took (.sendSms _ _) => { s with submitted := [] }
  | .repliedRaw _ => { s with raw := false }
  | _ => s

theorem step_conversing (modem : Output → List String) (s : Dialogue) (e : Event) :
    attribution.step s e (conversing modem s e) := by
  cases e with
  | wrote out reply => exact ⟨modem out, rfl⟩
  | read reply =>
    cases reply with
    | line text => exact s.reads_hear text
    | timeout | ioError => rfl
  | polled reply =>
    cases reply with
    | line text => exact s.reads_hear text
    | timeout | ioError => rfl
  | prompted reply => exact ⟨s.queue, List.suffix_rfl, rfl⟩
  | took r => cases r <;> rfl
  | _ => rfl

instance (s : Dialogue) (e : Event) (s' : Dialogue) : Decidable (Synchronised s e s') := by
  delta Synchronised
  split <;> infer_instance

/-- The same as long as the dialogue is synchronised. -/
def attending (modem : Output → List String) (s : Dialogue) (e : Event) : Option Dialogue :=
  if Synchronised s e (conversing modem s e) then some (conversing modem s e) else none

theorem step_attending (modem : Output → List String) (s : Dialogue) (e : Event) (s' : Dialogue)
    (h : attending modem s e = some s') : synchronised.step s e s' := by
  unfold attending at h
  split at h
  · next hsync =>
    cases h
    exact ⟨hsync, step_conversing modem s e⟩
  · cases h

/-- A modem with a message in slot 3. -/
def storing : Output → List String
  | .command "AT+CPIN?" => ["+CPIN: READY", "OK"]
  | .command "AT+CMGR=3" => ["+CMGR: \"REC UNREAD\",\"+15551230000\"", "hello", "OK"]
  | .command _ => ["OK"]
  | _ => []

/-- The message is announced, and another one while it is read. -/
def announcedTwice : List Answer :=
  [.quiet, .line "+CPIN: READY", .line "", .line "OK", .quiet, .line "OK", .quiet, .line "OK",
    .quiet, .line "OK", .line "+CMTI: \"SM\",3", .quiet,
    .line "+CMGR: \"REC UNREAD\",\"+15551230000\"", .line "+CMTI: \"SM\",4", .line "hello",
    .line "OK", .quiet, .quiet]

/-- When the first message is deleted: its answer with the notice has been read. -/
def deleting : Dialogue where
  queue := []
  count := 5
  out := some (.command "AT+CMGR=3")
  own := ["+CMGR: \"REC UNREAD\",\"+15551230000\"", "hello", "OK"]
  got := [(some 5, "+CMGR: \"REC UNREAD\",\"+15551230000\""), (none, "+CMTI: \"SM\",4"),
    (some 5, "hello"), (some 5, "OK")]
  submitted := []
  raw := false

theorem answers_attributed_announcedTwice :
    (deleting, .wrote (.command "AT+CMGD=3") .ok) ∈ Monitor.follow (attending storing) (.initial [])
      (runSessionInner plainConfig true initialSnapshot announcedTwice).trace ∧
    deleting.HasRead 3 := by
  have hmem : (deleting, .wrote (.command "AT+CMGD=3") .ok) ∈
      Monitor.follow (attending storing) (.initial [])
        (runSessionInner plainConfig true initialSnapshot announcedTwice).trace := by
    decide +kernel
  have hok : ∀ script x, x ∈ Monitor.follow (attending storing) (.initial [])
      (runSessionInner plainConfig true initialSnapshot script).trace → synchronised.ok x.1 x.2 :=
    fun script _ => synchronised.ok_of_mem_follow (step_attending storing)
      (answers_attributed plainConfig true initialSnapshot script [])
  have hread : MayCommand "AT+CMGD=3" deleting := hok announcedTwice _ hmem
  have htext : "AT+CMGD=3" = cmgdCommand 3 := by decide +kernel
  exact ⟨hmem, hread.resolve_left Bool.false_ne_true 3 htext⟩

/-! ## A late answer -/

/-- A modem that answers the two first status queries. -/
def modemAnswer : Output → List String
  | .command "AT+CPIN?" => ["+CPIN: READY", "OK"]
  | .command "AT+CREG?" => ["+CREG: 0,1", "OK"]
  | _ => []

/-- The answer to `AT+CPIN?` comes when the service has given it up. -/
def lateAnswer : List Answer :=
  [.quiet, .quiet, .quiet, .line "+CPIN: READY", .line "OK"]

theorem late_answer_misattributed :
    ¬ ∀ (cfg : Config) (events : Bool) (status : ModemStatusSnapshot) (script : List Answer),
      attribution.Safe (.initial []) (runSessionInner cfg events status script).trace := by
  intro h
  have hmem : ((⟨[(2, "+CREG: 0,1"), (2, "OK")], 2, some (.command "AT+CREG?"),
      ["+CREG: 0,1", "OK"], [(some 1, "+CPIN: READY"), (some 1, "OK")], [], false⟩,
      .exchanged ⟨"AT+CREG?", ["+CPIN: READY", "OK"], .ok⟩) : Dialogue × Event) ∈
        Monitor.follow (fun s e => some (conversing modemAnswer s e)) (.initial [])
          (runSessionInner plainConfig true initialSnapshot lateAnswer).trace := by decide +kernel
  have hstep : ∀ s e s', some (conversing modemAnswer s e) = some s' → attribution.step s e s' :=
    fun s e s' hs' => Option.some_inj.mp hs' ▸ step_conversing modemAnswer s e
  have hreturns := attribution.ok_of_mem_follow hstep (h _ _ _ _) hmem (by decide)
  exact absurd hreturns.2.2.1 (by decide)

end Modem
end GreenRelay
