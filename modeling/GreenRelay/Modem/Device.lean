/-
A session and the modem it talks to.

`Device` is a modem that keeps one message in its store: what it answers to
each write, what it announces unasked, and at which unread line its prompt
stands.  The lines of the stored text are the only part of an answer that the
device itself does not determine.  `Connection` is what a session has in front of it:
the modem, the lines it has sent that are not yet read, and what the rest of
the world is going to answer.  A trace of the session is a run against the
device if `Device.next` can follow it.
-/
import GreenRelay.Modem.Exchanges
import GreenRelay.Modem.StoredMessage

namespace GreenRelay
namespace Modem

open Text Sms Scripted

/-! ## The lines of a text -/

/-- `trim_end_matches(['\r', '\n'])`. -/
def trimLineEnd (s : List Char) : List Char :=
  (s.reverse.dropWhile (fun c => c == '\r' || c == '\n')).reverse

/-- The lines in which `read_line` hands out a text. -/
def textLines (text : String) : List String :=
  (text.toList.splitOn '\n').map (fun l => String.ofList (trimLineEnd l))

def isResult (line : String) : Bool := classifyLine line != .nonTerminating

def results (lines : List String) : Nat := lines.countP isResult

/-- No line of the text is a result code or a notification. -/
def Innocuous (text : String) : Prop :=
  ∀ line ∈ textLines text, isResult line = false ∧ parseCmtiIndex line = none

instance (text : String) : Decidable (Innocuous text) :=
  inferInstanceAs (Decidable (∀ line ∈ textLines text, _))

/-! ## Devices -/

/-- A part of an answer: a line, or the lines of the stored text. -/
inductive Item where
  | line (text : String)
  | stored
  deriving DecidableEq, Repr

def Item.lines (text : String) : Item → List String
  | .line l => [l]
  | .stored => textLines text

def Item.isResult : Item → Bool
  | .line l => Modem.isResult l
  | .stored => false

def expand (text : String) (items : List Item) : List String := items.flatMap (Item.lines text)

/-- A modem with the states `σ`.  After `prompt` unread lines there is a `>`;
`refused` says that the last header was answered with a result instead, and
`shows` which commands answer with stored messages. -/
structure Device (σ : Type) where
  react : σ → Output → σ × List Item
  idle : σ → σ × List String
  prompt : σ → List String → Option Nat
  refused : σ → Bool
  shows : String → Bool

variable {σ : Type}

/-- The modem answers every command in time: each command has one result, which
follows it at once.  From the header to the end of its submission, `AT+CMGS` is
one command. -/
structure Device.InTime (d : Device σ) : Prop where
  command : ∀ s text, (d.react s (.command text)).2.countP Item.isResult = 1
  header : ∀ s toNumber encoding,
    (d.react s (.header toNumber encoding)).2.countP Item.isResult =
      if d.refused (d.react s (.header toNumber encoding)).1 then 1 else 0
  body : ∀ s part encoding, (d.react s (.body part encoding)).2.countP Item.isResult =
    if d.refused s then 0 else 1
  abort : ∀ s, (d.react s .abort).2.countP Item.isResult ≤ if d.refused s then 0 else 1
  idle : ∀ s, results (d.idle s).2 = 0

/-- The commands of a session other than `AT+CMGR` and `AT+CMGD`. -/
def ownCommands : List String := statusCommands ++ sendCommands

/-- The stored text stands in the answers to commands that ask for it, before the
result, and in an answer to `AT+CMGR` after the header. -/
structure Device.ShowsStored (d : Device σ) : Prop where
  asked : ∀ s out, .stored ∈ (d.react s out).2 → ∃ command, out = .command command ∧
    d.shows command = true
  own : ∀ command ∈ ownCommands, d.shows command = false
  delete : ∀ index, d.shows (cmgdCommand index) = false
  ended : ∀ s command pre post, (d.react s (.command command)).2 = pre ++ .stored :: post →
    ∃ item ∈ post, item.isResult = true
  headed : ∀ s index pre post,
    (d.react s (.command (cmgrCommand index))).2 = pre ++ .stored :: post →
      ∃ header, .line header ∈ pre ∧ IsLine header.toList ∧ IsCmgrHeader header.toList

/-! ## Connections -/

structure Connection (σ : Type) where
  modem : σ
  unread : List String
  answers : List Answer

/-- The next answer of the rest of the world is `reply`. -/
def Connection.ask {ρ : Type} [DecidableEq ρ] (p : Connection σ) (f : Answer → ρ) (reply : ρ) :
    Option (Connection σ) :=
  match p.answers with
  | [] => none
  | a :: answers => if f a = reply then some { p with answers := answers } else none

namespace Device

variable (d : Device σ)

def hear (text : String) (p : Connection σ) (out : Output) : Connection σ :=
  { p with
    modem := (d.react p.modem out).1
    unread := p.unread ++ expand text (d.react p.modem out).2 }

/-- A write that fails does not reach the modem as a whole, and it is not answered. -/
def written (text : String) (p : Connection σ) (out : Output) : WriteReply → Connection σ
  | .ok => d.hear text p out
  | .ioError _ => p

/-- Nothing is unread, and time passes. -/
def wait (p : Connection σ) : Connection σ :=
  { p with modem := (d.idle p.modem).1, unread := (d.idle p.modem).2 }

def read (p : Connection σ) : ReadReply → Option (Connection σ)
  | .line text =>
    match p.unread with
    | [] => none
    | line :: unread => if line = text then some { p with unread := unread } else none
  | .timeout => if p.unread = [] then some (d.wait p) else none
  | .ioError => none

/-- The wait for the prompt consumes the lines before it, and none if it is not
there. -/
def promptReply (p : Connection σ) : PromptReply :=
  match d.prompt p.modem p.unread with
  | some n => .prompt (p.unread.take n)
  | none => .timeout []

/-- What an event of the session makes of the connection, if it is what the modem
and the rest of the world answer.  A connection that is lost is lost in a write or
while the session waits for a turn. -/
def next (text : String) (p : Connection σ) : Event → Option (Connection σ)
  | .wrote out reply => (p.ask Answer.write reply).map (fun p => d.written text p out reply)
  | .read reply => d.read p reply
  | .prompted reply =>
    if reply = d.promptReply p then some { p with unread := p.unread.drop reply.dropped.length }
    else none
  | .inserted _ reply | .audited _ _ reply => p.ask Answer.db reply
  | .clock due => p.ask Answer.due due
  | .took r => p.ask Answer.turn (.request r)
  | .closed => p.ask Answer.turn .closed
  | .polled reply =>
    (p.ask (fun a => (a.turn, a.read == .ioError)) (.poll, reply == .ioError)).bind (fun p =>
      if reply = .ioError then some p else d.read p reply)
  | _ => some p

/-- The runs against the device with the text in its store. -/
def monitor (text : String) : Monitor Event (Connection σ) :=
  ⟨fun p e p' => d.next text p e = some p', fun _ _ => True⟩

end Device

/-! ## Observations -/

/-- The response to a command that shows stored messages is not compared. -/
def AtExchange.veiled (shows : String → Bool) (e : AtExchange) : AtExchange :=
  if shows e.command then { e with lines := [] } else e

def ParsedInbound.veiled (message : ParsedInbound) : ParsedInbound := { message with body := "" }

/-- What a session does, apart from the text of stored messages. -/
def visible (shows : String → Bool) : Event → Option Event
  | .read _ => none
  | .exchanged e => some (.exchanged (e.veiled shows))
  | .repliedRaw e => some (.repliedRaw (e.veiled shows))
  | .inserted message reply => some (.inserted message.veiled reply)
  | .published rowId message => some (.published rowId message.veiled)
  | e => some e

/-! ## What the rest of the world answers -/

theorem Connection.ask_unique {ρ : Type} [DecidableEq ρ] {p q q' : Connection σ}
    {f : Answer → ρ} {r r' : ρ}
    (h : p.ask f r = some q) (h' : p.ask f r' = some q') :
    r = r' ∧ q = q' ∧ q.modem = p.modem ∧ q.unread = p.unread := by
  unfold Connection.ask at h h'
  cases hp : p.answers with
  | nil =>
    rw [hp] at h
    cases h
  | cons a answers =>
    rw [hp] at h h'
    simp only at h h'
    split at h
    · next hr =>
      split at h'
      · next hr' =>
        injection h with h
        injection h' with h'
        exact ⟨hr.symm.trans hr', h.symm.trans h', by rw [← h], by rw [← h]⟩
      · cases h'
    · cases h

/-! ## Answers of the modem -/

theorem results_append (l m : List String) : results (l ++ m) = results l + results m :=
  List.countP_append

theorem results_cons (line : String) (lines : List String) :
    results (line :: lines) = results lines + if isResult line then 1 else 0 := List.countP_cons

theorem expand_append (text : String) (l m : List Item) :
    expand text (l ++ m) = expand text l ++ expand text m := List.flatMap_append

theorem results_textLines {text : String} (h : Innocuous text) : results (textLines text) = 0 :=
  List.countP_eq_zero.mpr (fun line hline => by rw [(h line hline).1]; exact Bool.false_ne_true)

/-- A innocuous text adds no result to an answer. -/
theorem results_expand {text : String} (h : Innocuous text) (items : List Item) :
    results (expand text items) = items.countP Item.isResult := by
  induction items with
  | nil => rfl
  | cons item items ih =>
    rw [List.countP_cons, ← ih, show expand text (item :: items) =
      item.lines text ++ expand text items from rfl, results_append, Nat.add_comm]
    cases item with
    | line l =>
      rw [Item.lines, results_cons, show results [] = 0 from rfl, Nat.zero_add]
      rfl
    | stored =>
      rw [Item.lines, results_textLines h]
      rfl

theorem expand_of_unstored {items : List Item} (h : .stored ∉ items) (text text' : String) :
    expand text items = expand text' items := by
  induction items with
  | nil => rfl
  | cons item items ih =>
    obtain ⟨hitem, hitems⟩ : Item.stored ≠ item ∧ Item.stored ∉ items := by
      simpa [not_or] using h
    have hsame : item.lines text = item.lines text' := by
      cases item with
      | line l => rfl
      | stored => exact absurd rfl hitem
    show item.lines text ++ expand text items = item.lines text' ++ expand text' items
    rw [hsame, ih hitems]

/-- A innocuous text announces nothing, and its blank lines are passed over like
all others. -/
theorem indices_expand {text text' : String} (h : Innocuous text) (h' : Innocuous text')
    (items : List Item) :
    indices ((expand text items).filter (fun l => !isBlank l)) =
      indices ((expand text' items).filter (fun l => !isBlank l)) := by
  have hnone : ∀ {text : String}, Innocuous text →
      indices ((textLines text).filter (fun l => !isBlank l)) = [] := by
    intro text h
    refine List.filterMap_eq_nil_iff.mpr (fun line hline => ?_)
    exact (h line (List.mem_filter.mp hline).1).2
  induction items with
  | nil => rfl
  | cons item items ih =>
    show indices ((item.lines text ++ expand text items).filter _) =
      indices ((item.lines text' ++ expand text' items).filter _)
    rw [List.filter_append, List.filter_append, indices, indices, List.filterMap_append,
      List.filterMap_append]
    refine congrArg₂ (· ++ ·) ?_ ih
    cases item with
    | line l => rfl
    | stored => exact (hnone h).trans (hnone h').symm

/-! ## What an exchange collects -/

/-- What is collected from the unread lines, and the lines after the result if
there is one. -/
def collectLines (command : String) : List String → List String → AtExchange × Option (List String)
  | lines, [] => (⟨command, lines, .timeout⟩, none)
  | lines, line :: unread =>
    match classifyLine line with
    | .terminator result => (⟨command, lines ++ [line], result⟩, some unread)
    | .nonTerminating =>
      collectLines command (if isBlank line then lines else lines ++ [line]) unread

theorem collectLines_result (command : String) {before : List String} (lines : List String)
    {last : String} {result : AtResult} (hbefore : results before = 0)
    (hlast : classifyLine last = .terminator result) (unread : List String) :
    collectLines command lines (before ++ last :: unread) =
      (⟨command, lines ++ before.filter (fun l => !isBlank l) ++ [last], result⟩, some unread) := by
  induction before generalizing lines with
  | nil => simp [collectLines, hlast]
  | cons line before ih =>
    rw [results_cons] at hbefore
    have hline : classifyLine line = .nonTerminating := by
      cases hresult : isResult line with
      | true =>
        rw [hresult] at hbefore
        cases hbefore
      | false => simpa [isResult] using hresult
    rw [List.cons_append, collectLines, hline]
    simp only
    rw [ih _ (Nat.eq_zero_of_add_eq_zero_right hbefore)]
    cases hblank : isBlank line <;> simp [hblank]

/-- What follows the first result holds one result less. -/
theorem results_collectLines (command : String) (lines unread : List String) :
    match (collectLines command lines unread).2 with
    | none => results unread = 0
    | some rest => results rest + 1 = results unread := by
  induction unread generalizing lines with
  | nil => rfl
  | cons line unread ih =>
    rw [collectLines]
    cases hline : classifyLine line with
    | terminator result => simp [results, isResult, hline]
    | nonTerminating =>
      have hsame : results (line :: unread) = results unread := by
        simp [results, isResult, hline]
      simp only [hsame]
      exact ih _

namespace Device

variable (d : Device σ)

def collect (command : String) (lines : List String) (p : Connection σ) :
    AtExchange × Connection σ :=
  match collectLines command lines p.unread with
  | (e, some unread) => (e, { p with unread := unread })
  | (e, none) => (e, d.wait p)

/-- What is left of the collection of `whole` after a read, with `lines` before it. -/
def Rest (whole : AtExchange × Connection σ) (command : String) (lines : List String)
    (p : Connection σ) : Option String → Prop
  | none => (⟨command, lines, .timeout⟩, p) = whole
  | some line =>
    match classifyLine line with
    | .terminator result => (⟨command, lines ++ [line], result⟩, p) = whole
    | .nonTerminating =>
      d.collect command (if isBlank line then lines else lines ++ [line]) p = whole

/-- Against a device, the collected response is a function of the connection. -/
theorem triple_collect (text command : String) (p : Connection σ) :
    Triple (d.monitor text) (fun p' => p' = p) (collectUntilTerminator command)
      (fun e p' => (e, p') = d.collect command [] p) (fun _ => False) := by
  refine triple_pre (triple_iterate
    (I := fun lines p' => d.collect command lines p' = d.collect command [] p) (fun lines => ?_) [])
    (fun p' hp' => by rw [hp'])
  unfold collectStep
  refine triple_bind (T := fun reply p' =>
    d.Rest (d.collect command [] p) command lines p' reply)
    (triple_perform (fun a q q' hq hstep => ?_)) (fun reply => ?_)
  · refine ⟨trivial, ?_⟩
    rw [← hq]
    have hread : d.read q a.read = some q' := hstep
    cases ha : a.read with
    | ioError =>
      rw [ha] at hread
      cases hread
    | timeout =>
      rw [ha] at hread
      unfold read at hread
      simp only at hread ⊢
      split at hread
      · next hempty =>
        injection hread with hread
        rw [collect, hempty, ← hread]
        rfl
      · cases hread
    | line line =>
      rw [ha] at hread
      unfold read at hread
      simp only at hread ⊢
      cases hunread : q.unread with
      | nil =>
        rw [hunread] at hread
        cases hread
      | cons first unread =>
        rw [hunread] at hread
        simp only at hread
        split at hread
        · next hfirst =>
          subst hfirst
          injection hread with hread
          rw [collect, hunread, collectLines]
          cases hline : classifyLine first with
          | terminator result =>
            rw [← hread]
            simp only [Rest, hline]
          | nonTerminating =>
            rw [← hread]
            simp only [Rest, hline]
            rfl
        · cases hread
  · cases reply with
    | none => exact triple_pure (fun _ h => h)
    | some line =>
      simp only [Rest]
      cases classifyLine line with
      | terminator result => exact triple_pure (fun _ h => h)
      | nonTerminating => exact triple_pure (fun _ h => h)

variable {d}

/-- The unread lines decide what a read delivers, and they hold a result if it
does. -/
theorem read_unique {p q q' : Connection σ} {r r' : ReadReply} (h : d.read p r = some q)
    (h' : d.read p r' = some q') : r = r' ∧ q = q' := by
  cases hunread : p.unread with
  | nil =>
    cases r <;> simp only [read, hunread, if_true, reduceCtorEq] at h
    cases r' <;> simp only [read, hunread, if_true, reduceCtorEq] at h'
    exact ⟨rfl, Option.some.inj (h.symm.trans h')⟩
  | cons line unread =>
    cases r <;> simp only [read, hunread, reduceCtorEq, if_false] at h
    cases r' <;> simp only [read, hunread, reduceCtorEq, if_false] at h'
    split at h
    · next hline =>
      split at h'
      · next hline' =>
        exact ⟨by rw [← hline, ← hline'], Option.some.inj (h.symm.trans h')⟩
      · cases h'
    · cases h

theorem results_read (htime : d.InTime) {p q : Connection σ} {r : ReadReply}
    (hp : results p.unread = 0) (h : d.read p r = some q) : results q.unread = 0 := by
  cases hunread : p.unread with
  | nil =>
    cases r <;> simp only [read, hunread, if_true, reduceCtorEq] at h
    rw [← Option.some.inj h]
    exact htime.idle p.modem
  | cons line unread =>
    cases r <;> simp only [read, hunread, reduceCtorEq, if_false] at h
    split at h
    · rw [← Option.some.inj h]
      rw [hunread, results_cons] at hp
      exact Nat.eq_zero_of_add_eq_zero_right hp
    · cases h

/-- After at most one result nothing but unasked lines is left. -/
theorem results_collect (htime : d.InTime) (command : String) (lines : List String)
    {p : Connection σ}
    (h : results p.unread ≤ 1) : results (d.collect command lines p).2.unread = 0 := by
  have hcount := results_collectLines command lines p.unread
  unfold collect
  match hcollect : collectLines command lines p.unread with
  | (e, none) => exact htime.idle p.modem
  | (e, some rest) =>
    rw [hcollect] at hcount
    simp only at hcount ⊢
    omega

end Device

end Modem
end GreenRelay
