/-
Exchanges read as a whole.

What a command exchange collects, how the lines that a modem answers become the
lines of the exchange, and what an observer who does not look at the dialogue
sees of it.
-/
import GreenRelay.Modem.Rules

namespace GreenRelay
namespace Modem

open Sms Text Scripted

/-! ## Collected responses -/

/-- A response ends with its first terminator, or in a timeout without one. -/
def AtExchange.Collected (e : AtExchange) : Prop :=
  (e.result = .timeout ∧ ∀ line ∈ e.lines, classifyLine line = .nonTerminating) ∨
    ∃ lines last, e.lines = lines ++ [last] ∧ classifyLine last = .terminator e.result ∧
      ∀ line ∈ lines, classifyLine line = .nonTerminating

/-! ## The lines of an exchange -/

theorem readLine_line {a : Answer} {text : String} (h : a.read = .line text)
    (rest : List Answer) : readLine (a :: rest) = ⟨.done (some text), rest, [.read a.read]⟩ := by
  simp [readLine, Scripted.perform, h]

/-! A round of the collection takes one answer. -/

section Rounds

variable (command : String) (lines : List String) {a : Answer} (rest : List Answer)

theorem collectStep_timeout (h : a.read = .timeout) : collectStep command lines (a :: rest) =
    ⟨.done (.inr ⟨command, lines, .timeout⟩), rest, [.read a.read]⟩ := by
  have hline : readLine (a :: rest) = ⟨.done none, rest, [.read a.read]⟩ := by
    simp [readLine, Scripted.perform, h]
  unfold collectStep
  rw [run_bind_done hline]
  rfl

theorem collectStep_ioError (h : a.read = .ioError) :
    collectStep command lines (a :: rest) = ⟨.failed, rest, [.read a.read]⟩ := by
  have hline : readLine (a :: rest) = ⟨.failed, rest, [.read a.read]⟩ := by
    simp [readLine, Scripted.perform, h]
  unfold collectStep
  rw [run_bind, hline]

theorem collectStep_terminator {text : String} {result : AtResult} (h : a.read = .line text)
    (hclass : classifyLine text = .terminator result) : collectStep command lines (a :: rest) =
    ⟨.done (.inr ⟨command, lines ++ [text], result⟩), rest, [.read a.read]⟩ := by
  unfold collectStep
  rw [run_bind_done (readLine_line h rest)]
  simp only [hclass]
  rfl

theorem collectStep_nonTerminating {text : String} (h : a.read = .line text)
    (hclass : classifyLine text = .nonTerminating) : collectStep command lines (a :: rest) =
    ⟨.done (.inl (if isBlank text then lines else lines ++ [text])), rest, [.read a.read]⟩ := by
  unfold collectStep
  rw [run_bind_done (readLine_line h rest)]
  simp only [hclass]
  rfl

theorem collectStep_rest : (collectStep command lines (a :: rest)).rest = rest := by
  cases hread : a.read with
  | ioError => rw [collectStep_ioError command lines rest hread]
  | timeout => rw [collectStep_timeout command lines rest hread]
  | line text =>
    cases hclass : classifyLine text with
    | terminator result => rw [collectStep_terminator command lines rest hread hclass]
    | nonTerminating => rw [collectStep_nonTerminating command lines rest hread hclass]

end Rounds

theorem advances_collectStep (command : String) : Advances (collectStep command) := by
  intro lines script y h
  cases script with
  | nil => cases h
  | cons a rest =>
    rw [collectStep_rest]
    exact Nat.lt_succ_self _

/-- A collection that returns has taken lines that end nothing and one last
answer, a result code or a timeout. -/
theorem iterate_collectStep {command : String} {script rest : List Answer} {e : AtExchange}
    {t : List Event} {collected : List String}
    (h : Scripted.iterate (collectStep command) collected script = ⟨.done e, rest, t⟩) :
    ∃ (reads : List Answer) (a : Answer) (lines : List String), script = reads ++ a :: rest ∧
      reads.map Answer.read = lines.map .line ∧
      (∀ l ∈ lines, classifyLine l = .nonTerminating) ∧
      ((a.read = .timeout ∧
          e = ⟨command, collected ++ lines.filter (fun l => !isBlank l), .timeout⟩) ∨
        ∃ last result, a.read = .line last ∧ classifyLine last = .terminator result ∧
          e = ⟨command, collected ++ lines.filter (fun l => !isBlank l) ++ [last], result⟩) := by
  induction script generalizing collected e t with
  | nil => cases h
  | cons a script ih =>
    rw [iterate_eq (advances_collectStep command)] at h
    cases hread : a.read with
    | ioError =>
      rw [run_bind, collectStep_ioError command collected script hread] at h
      cases h
    | timeout =>
      rw [run_bind_done (collectStep_timeout command collected script hread)] at h
      injection h with he hrest
      injection he with he
      subst he hrest
      exact ⟨[], a, [], rfl, rfl, by simp, .inl ⟨hread, by simp⟩⟩
    | line text =>
      cases hclass : classifyLine text with
      | terminator result =>
        rw [run_bind_done (collectStep_terminator command collected script hread hclass)] at h
        injection h with he hrest
        injection he with he
        subst he hrest
        exact ⟨[], a, [], rfl, rfl, by simp, .inr ⟨text, result, hread, hclass, by simp⟩⟩
      | nonTerminating =>
        rw [run_bind_done (collectStep_nonTerminating command collected script hread hclass)] at h
        injection h with he hrest
        obtain ⟨reads, b, lines, rfl, hreads, hlines, hend⟩ :=
          ih (t := (Scripted.iterate (collectStep command) _ script).trace) (by rw [← he, ← hrest])
        have hfilter : (if isBlank text then collected else collected ++ [text]) ++
            lines.filter (fun l => !isBlank l) =
              collected ++ (text :: lines).filter (fun l => !isBlank l) := by
          cases hblank : isBlank text <;> simp [hblank]
        rw [hfilter] at hend
        exact ⟨a :: reads, b, text :: lines, rfl, by simp [hread, hreads],
          List.forall_mem_cons.mpr ⟨hclass, hlines⟩, hend⟩

theorem collected (command : String) (script : List Answer) {e : AtExchange} {rest : List Answer}
    {t : List Event} (h : collectUntilTerminator command script = ⟨.done e, rest, t⟩) :
    e.Collected := by
  obtain ⟨reads, a, lines, -, -, hlines, hend⟩ := iterate_collectStep h
  have hkept : ∀ l ∈ [] ++ lines.filter (fun l => !isBlank l),
      classifyLine l = .nonTerminating :=
    fun l hl => hlines l (List.mem_filter.mp hl).1
  rcases hend with ⟨-, rfl⟩ | ⟨last, result, -, hlast, rfl⟩
  · exact .inl ⟨rfl, hkept⟩
  · exact .inr ⟨_, last, rfl, hlast, hkept⟩

/-- The lines a modem answers, up to the first terminator, are collected without
the blank ones. -/
theorem collect_lines (command : String) {lines : List String} {last : String} {result : AtResult}
    (hlines : ∀ l ∈ lines, classifyLine l = .nonTerminating)
    (hlast : classifyLine last = .terminator result) {reads : List Answer}
    (hreads : reads.map Answer.read = (lines ++ [last]).map ReadReply.line) (rest : List Answer) :
    collectUntilTerminator command (reads ++ rest) =
      ⟨.done ⟨command, lines.filter (fun l => !isBlank l) ++ [last], result⟩, rest,
        reads.map (fun a => .read a.read)⟩ := by
  have hloop : ∀ (lines : List String) (collected : List String) (reads : List Answer),
      (∀ l ∈ lines, classifyLine l = .nonTerminating) →
      reads.map Answer.read = (lines ++ [last]).map ReadReply.line →
      Scripted.iterate (collectStep command) collected (reads ++ rest) =
        ⟨.done ⟨command, collected ++ lines.filter (fun l => !isBlank l) ++ [last], result⟩, rest,
          reads.map (fun a => .read a.read)⟩ := by
    intro lines
    induction lines with
    | nil =>
      intro collected reads _ hreads
      obtain ⟨a, hsingle, ha⟩ : ∃ a, reads = [a] ∧ a.read = .line last := by
        simpa [List.map_eq_cons_iff] using hreads
      rw [hsingle, List.singleton_append, iterate_eq (advances_collectStep command),
        run_bind_done (collectStep_terminator command collected rest ha hlast), List.filter_nil,
        List.append_nil]
      rfl
    | cons line lines ih =>
      intro collected reads hlines hreads
      obtain ⟨a, reads, rfl, ha, hrest⟩ := List.map_eq_cons_iff.mp hreads
      have hstep := collectStep_nonTerminating command collected (reads ++ rest) ha
        (hlines line List.mem_cons_self)
      rw [List.cons_append, iterate_eq (advances_collectStep command), run_bind_done hstep]
      simp only [ih _ reads (fun l hl => hlines l (List.mem_cons_of_mem line hl)) hrest]
      cases hblank : isBlank line <;> simp [hblank]
  exact hloop lines [] reads hlines hreads

/-- An exchange with a modem that answers in time. -/
theorem exchange_lines (command : String) {w : Answer} (hw : w.write = .ok) {lines : List String}
    {last : String} {result : AtResult} (hlines : ∀ l ∈ lines, classifyLine l = .nonTerminating)
    (hlast : classifyLine last = .terminator result) {reads : List Answer}
    (hreads : reads.map Answer.read = (lines ++ [last]).map ReadReply.line) (rest : List Answer) :
    ∃ t, exchange command (w :: (reads ++ rest)) =
      ⟨.done ⟨command, lines.filter (fun l => !isBlank l) ++ [last], result⟩, rest, t⟩ := by
  have hwrite : writeBytes (.command command) (w :: (reads ++ rest)) =
      ⟨.done (), reads ++ rest, [.wrote (.command command) w.write]⟩ := by
    simp [writeBytes, Scripted.perform, hw]
  unfold exchange
  rw [run_bind_done hwrite, run_bind_done (collect_lines command hlines hlast hreads rest)]
  exact ⟨_, rfl⟩

/-- The indices that lines announce are queued in order. -/
theorem scanCmti_run (lines : List String) (pending : List Nat) (script : List Answer) :
    scanCmti lines pending script =
      ⟨.done (pending ++ indices lines), script, (indices lines).map .pushed⟩ := by
  induction lines generalizing pending with
  | nil =>
    rw [scanCmti, indices, List.filterMap_nil, List.append_nil]
    rfl
  | cons line lines ih =>
    unfold scanCmti indices
    cases hline : parseCmtiIndex line with
    | none =>
      rw [List.filterMap_cons_none hline]
      exact ih pending
    | some index =>
      have hemit : emit (.pushed index) script = ⟨.done (), script, [.pushed index]⟩ := rfl
      simp only
      rw [run_bind_done hemit, ih, List.filterMap_cons_some hline, List.append_assoc]
      rfl

/-- Blank lines announce nothing. -/
theorem indices_nonblank (lines : List String) :
    indices (lines.filter (fun l => !isBlank l)) = indices lines := by
  induction lines with
  | nil => rfl
  | cons l lines ih =>
    unfold indices at ih ⊢
    cases hblank : isBlank l with
    | false =>
      rw [List.filter_cons_of_pos (by simp [hblank]), List.filterMap_cons, List.filterMap_cons, ih]
    | true =>
      rw [List.filter_cons_of_neg (by simp [hblank]), ih,
        List.filterMap_cons_none (parseCmtiIndex_blank hblank)]

/-- Nor does a result code. -/
theorem parseCmtiIndex_terminator {line : String} {result : AtResult}
    (h : classifyLine line = .terminator result) : parseCmtiIndex line = none := by
  rw [parseCmtiIndex]
  cases hstrip : stripPrefix "+CMTI:".toList (trim line.toList) with
  | none => rfl
  | some rest =>
    have hline : classifyLine line = .nonTerminating := by
      rw [classifyLine, stripPrefix_eq_some.mp hstrip]
      rfl
    cases h.symm.trans hline

/-- What the lines of a response announce, of which the last is the result. -/
theorem indices_response (lines : List String) {last : String} {result : AtResult}
    (h : classifyLine last = .terminator result) :
    indices (lines.filter (fun l => !isBlank l) ++ [last]) = indices lines := by
  rw [indices, List.filterMap_append, ← indices, indices_nonblank,
    List.filterMap_cons_none (parseCmtiIndex_terminator h), List.filterMap_nil, List.append_nil]

/-! ## What an exchange hears -/

/-- What is collected from what the reads deliver, after `lines`. -/
def heard (command : String) : List String → List ReadReply → Outcome AtExchange
  | _, [] => .cut
  | lines, .timeout :: _ => .done ⟨command, lines, .timeout⟩
  | _, .ioError :: _ => .failed
  | lines, .line text :: replies =>
    match classifyLine text with
    | .terminator result => .done ⟨command, lines ++ [text], result⟩
    | .nonTerminating => heard command (if isBlank text then lines else lines ++ [text]) replies

theorem heard_terminator (command : String) (lines : List String) {text : String}
    {result : AtResult} (h : classifyLine text = .terminator result) (replies : List ReadReply) :
    heard command lines (.line text :: replies) = .done ⟨command, lines ++ [text], result⟩ := by
  rw [heard, h]

theorem heard_nonTerminating (command : String) (lines : List String) {text : String}
    (h : classifyLine text = .nonTerminating) (replies : List ReadReply) :
    heard command lines (.line text :: replies) =
      heard command (if isBlank text then lines else lines ++ [text]) replies := by
  rw [heard, h]

theorem collect_heard (command : String) (lines : List String) (script : List Answer) :
    (Scripted.iterate (collectStep command) lines script).outcome =
      heard command lines (script.map Answer.read) := by
  induction script generalizing lines with
  | nil => rfl
  | cons a script ih =>
    rw [iterate_eq (advances_collectStep command), List.map_cons]
    cases hread : a.read with
    | timeout =>
      rw [run_bind_done (collectStep_timeout command lines script hread)]
      rfl
    | ioError =>
      rw [run_bind, collectStep_ioError command lines script hread]
      rfl
    | line text =>
      cases hclass : classifyLine text with
      | terminator result =>
        rw [run_bind_done (collectStep_terminator command lines script hread hclass),
          heard_terminator command lines hclass]
        rfl
      | nonTerminating =>
        rw [run_bind_done (collectStep_nonTerminating command lines script hread hclass),
          heard_nonTerminating command lines hclass]
        exact ih _

/-- Lines that end nothing are kept, apart from the blank ones. -/
theorem heard_lines (command : String) {ls : List String}
    (h : ∀ l ∈ ls, classifyLine l = .nonTerminating) (lines : List String)
    (replies : List ReadReply) : heard command lines (ls.map .line ++ replies) =
      heard command (lines ++ ls.filter (fun l => !isBlank l)) replies := by
  induction ls generalizing lines with
  | nil => simp
  | cons l ls ih =>
    rw [List.map_cons, List.cons_append,
      heard_nonTerminating command lines (h l List.mem_cons_self),
      ih (fun k hk => h k (List.mem_cons_of_mem l hk))]
    cases hblank : isBlank l <;> simp [hblank]

/-- Lines before an exchange stand before what it collects. -/
theorem heard_prefix {command : String} {lines : List String} {replies : List ReadReply}
    {e : AtExchange} (h : heard command lines replies = .done e) (before : List String) :
    heard command (before ++ lines) replies = .done { e with lines := before ++ e.lines } := by
  induction replies generalizing lines with
  | nil => cases h
  | cons reply replies ih =>
    cases reply with
    | timeout =>
      rw [heard] at h ⊢
      rw [← Outcome.done.inj h]
    | ioError => cases h
    | line text =>
      cases hclass : classifyLine text with
      | terminator result =>
        rw [heard_terminator command lines hclass] at h
        rw [heard_terminator command (before ++ lines) hclass, ← Outcome.done.inj h,
          List.append_assoc]
      | nonTerminating =>
        rw [heard_nonTerminating command lines hclass] at h
        rw [heard_nonTerminating command (before ++ lines) hclass, ← ih h]
        split <;> simp

/-! ## Observers of something else -/

/-- The observer does not look at reads and exchanges. -/
structure Deaf {ω : Type} (obs : Event → Option ω) : Prop where
  command : ∀ text reply, obs (.wrote (.command text) reply) = none
  abort : ∀ reply, obs (.wrote .abort reply) = none
  read : ∀ reply, obs (.read reply) = none
  exchanged : ∀ e, obs (.exchanged e) = none

theorem silent_collect {ω : Type} {obs : Event → Option ω}
    (hread : ∀ reply, obs (.read reply) = none)
    (command : String) : Silent obs (collectUntilTerminator command) := by
  refine silent_iterate (fun lines => ?_) []
  refine silent_bind (silent_perform (fun a => hread a.read)) (fun read => ?_)
  cases read with
  | none => exact silent_pure _
  | some line =>
    simp only
    cases classifyLine line <;> exact silent_pure _

section Deafness

variable {ω : Type} {obs : Event → Option ω} (h : Deaf obs)
include h

theorem silent_exchange (command : String) : Silent obs (exchange command) :=
  silent_bind (silent_perform (fun a => h.command command a.write)) (fun _ =>
    silent_bind (silent_collect h.read command) (fun e =>
      silent_bind (silent_emit (h.exchanged e)) (fun _ => silent_pure e)))

theorem silent_abort : Silent obs abortToCommandMode :=
  silent_bind (silent_perform (fun a => h.abort a.write)) (fun _ =>
    silent_bind (silent_collect h.read "ESC") (fun _ => silent_pure ()))

end Deafness

end Modem
end GreenRelay
