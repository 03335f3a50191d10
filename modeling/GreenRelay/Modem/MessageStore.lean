/-
The drain loop against the storage of the modem.

While the loop runs nothing is delivered, so all the modem says is what is in
its storage: it answers `AT+CMGR` with the stored message and `AT+CMGD` with OK,
after which the message is gone, or with an error, after which it is not.  Yet
the queue can grow, because the lines of a message's own text are scanned for
notifications.  `MessageStore` tells the indices of the first queue from those
that texts have put into it, and notes which messages have been dealt with and
are still stored.
-/
import GreenRelay.Lib.Total
import GreenRelay.Modem.Rounds
import GreenRelay.Modem.StoredMessage

namespace GreenRelay
namespace Modem

open Text Sms Scripted

/-! ## The storage -/

/-- A stored message, as the lines in which the modem reports it. -/
structure StoredSms where
  index : Nat
  header : String
  text : List String
  isLine : IsLine header.toList
  isHeader : IsCmgrHeader header.toList
  hasSender : (parseCmgrSender header.toList).isSome

def StoredSms.report (m : StoredSms) : List String := m.header :: m.text

/-- The indices that the text of the message seems to announce. -/
def StoredSms.announced (m : StoredSms) : List Nat := indices m.report

/-- The modem and the queue.  `queued` is what is left of the first queue and
`echoed` what has been pushed since, `handling` the index that was popped last,
`kept` the indices of messages that were left in the storage when they had been
dealt with, and `rows` the indices for which a row was inserted. -/
structure MessageStore where
  stored : List StoredSms
  unread : List String
  queued : List Nat
  echoed : List Nat
  handling : Option Nat
  kept : List Nat
  rows : List Nat

namespace MessageStore

def initial (stored : List StoredSms) (pending : List Nat) : MessageStore :=
  ⟨stored, [], pending, [], none, [], []⟩

/-- The lines of an answer are to be read. -/
def hear (s : MessageStore) (lines : List String) : MessageStore :=
  { s with unread := s.unread ++ lines }

def remove (s : MessageStore) (index : Nat) : MessageStore :=
  { s with stored := s.stored.filter (fun m => m.index != index) }

def keep (s : MessageStore) (index : Nat) : MessageStore := { s with kept := s.kept ++ [index] }

def echo (s : MessageStore) (indices : List Nat) : MessageStore :=
  { s with echoed := s.echoed ++ indices }

/-- The first queue is popped before what has been pushed behind it. -/
def pop (s : MessageStore) (index : Nat) : MessageStore :=
  match s.queued with
  | [] => { s with echoed := s.echoed.tail, handling := some index }
  | _ :: queued => { s with queued := queued, handling := some index }

/-- What the modem answers to a command.  An index without a message is answered
with OK or with an error. -/
inductive Answers (s : MessageStore) : String → MessageStore → Prop where
  | shown (m : StoredSms) : m ∈ s.stored →
      Answers s (cmgrCommand m.index) (s.hear (m.report ++ ["OK"]))
  | absent (index : Nat) (last : String) (result : AtResult) :
      (∀ m ∈ s.stored, m.index ≠ index) → classifyLine last = .terminator result →
        (result = .ok → last = "OK") → Answers s (cmgrCommand index) (s.hear [last])
  | deleted (index : Nat) : Answers s (cmgdCommand index) ((s.remove index).hear ["OK"])
  | refused (index : Nat) (last : String) (result : AtResult) :
      classifyLine last = .terminator result → result ≠ .ok →
        Answers s (cmgdCommand index) ((s.keep index).hear [last])

def row (s : MessageStore) (index : Nat) : MessageStore := { s with rows := s.rows ++ [index] }

/-- A message that could not be inserted stays in the storage. -/
def insert (s : MessageStore) : DbReply → MessageStore
  | .ok _ => { s with rows := s.rows ++ s.handling.toList }
  | .error _ => { s with kept := s.kept ++ s.handling.toList }

/-- The runs against the storage.  Every line is read in time, so a read without
one means that nothing is left to be read. -/
def Step (s : MessageStore) (e : Event) (s' : MessageStore) : Prop :=
  match e with
  | .wrote (.command text) .ok => s.Answers text s'
  | .wrote _ _ => False
  | .read (.line line) => s.unread = line :: s'.unread ∧ s' = { s with unread := s'.unread }
  | .read .timeout => s.unread = [] ∧ s' = s
  | .read .ioError => False
  | .pushed index => s' = s.echo [index]
  | .popped index => s' = s.pop index
  | .inserted _ reply => s' = s.insert reply
  | _ => s' = s

/-- No line of a text is taken for something else: the response that is read has
its only result at the end, and no message that is kept has been announced. -/
structure Harmless (s : MessageStore) : Prop where
  legible : ∀ line ∈ s.unread.dropLast, classifyLine line = .nonTerminating
  unechoed : ∀ index ∈ s.kept, index ∉ s.echoed

theorem echo_nil (s : MessageStore) : s.echo [] = s := by
  rw [echo, List.append_nil]

end MessageStore

def storage : Monitor Event MessageStore := ⟨MessageStore.Step, fun _ _ => True⟩

/-- The runs in which no line of a text does harm. -/
abbrev harmless : Monitor Event MessageStore := storage.restrict (fun _ _ s' => s'.Harmless)

/-! ## What the modem answers -/

theorem cmgrCommand_inj {i j : Nat} (h : cmgrCommand i = cmgrCommand j) : i = j := by
  rw [cmgrCommand, cmgrCommand, String.append_right_inj, Nat.toString_eq_ofList_toDigits,
    Nat.toString_eq_ofList_toDigits] at h
  have hdigits : Nat.toDigits 10 i = Nat.toDigits 10 j := by
    rw [← String.toList_ofList (l := Nat.toDigits 10 i), h, String.toList_ofList]
  rw [← @Nat.ofDigitChars_ten_toDigits i, hdigits, Nat.ofDigitChars_ten_toDigits]

theorem cmgdCommand_inj {i j : Nat} (h : cmgdCommand i = cmgdCommand j) : i = j :=
  cmgrCommand_inj (cmgr_eq_of_cmgd h)

namespace MessageStore

variable {s s' : MessageStore} {index : Nat}

theorem answers_cmgr (h : s.Answers (cmgrCommand index) s') :
    (∃ m ∈ s.stored, m.index = index ∧ s' = s.hear (m.report ++ ["OK"])) ∨
      (∀ m ∈ s.stored, m.index ≠ index) ∧ ∃ last result,
        classifyLine last = .terminator result ∧ (result = .ok → last = "OK") ∧
          s' = s.hear [last] := by
  generalize hcommand : cmgrCommand index = command at h
  cases h with
  | shown m hm => exact .inl ⟨m, hm, (cmgrCommand_inj hcommand).symm, rfl⟩
  | absent i last result hnone hlast hok =>
    obtain rfl := cmgrCommand_inj hcommand
    exact .inr ⟨hnone, last, result, hlast, hok, rfl⟩
  | deleted i => exact absurd hcommand (cmgr_ne_cmgd _ _)
  | refused i last result => exact absurd hcommand (cmgr_ne_cmgd _ _)

theorem answers_cmgd (h : s.Answers (cmgdCommand index) s') :
    s' = (s.remove index).hear ["OK"] ∨ ∃ last result,
      classifyLine last = .terminator result ∧ s' = (s.keep index).hear [last] := by
  generalize hcommand : cmgdCommand index = command at h
  cases h with
  | shown m hm => exact absurd hcommand.symm (cmgr_ne_cmgd _ _)
  | absent i last result => exact absurd hcommand.symm (cmgr_ne_cmgd _ _)
  | deleted i =>
    obtain rfl := cmgdCommand_inj hcommand
    exact .inl rfl
  | refused i last result hlast =>
    obtain rfl := cmgdCommand_inj hcommand
    exact .inr ⟨last, result, hlast, rfl⟩

end MessageStore

/-- A stored message is parsed, whatever its text. -/
theorem inbound_report (m : StoredSms) (command : String) :
    (AtExchange.inbound
      ⟨command, m.report.filter (fun l => !isBlank l) ++ ["OK"], .ok⟩).isSome := by
  obtain ⟨text, htext⟩ : ∃ text, m.report.filter (fun l => !isBlank l) ++ ["OK"] =
      m.header :: (text ++ ["OK"]) := by
    refine ⟨m.text.filter (fun l => !isBlank l), ?_⟩
    rw [StoredSms.report, List.filter_cons_of_pos (by simp [isBlank_of_isCmgrHeader m.isHeader]),
      List.cons_append]
  have hlines : lines (AtExchange.response ⟨command, m.header :: (text ++ ["OK"]), .ok⟩).toList =
      [m.header.toList] ++ lines (join ['\n'] ((text ++ ["OK"]).map String.toList)) := by
    rw [AtExchange.response, String.toList_ofList, List.map_cons, join,
      List.intercalate_cons_of_ne_nil (by simp), List.append_assoc, List.singleton_append,
      lines_append m.isLine]
    rfl
  have hsender := parseCmgr_sender hlines (List.mem_singleton_self _) m.isHeader
  have hdrop : [m.header.toList].dropWhile
      (fun l => !(stripPrefix "+CMGR:".toList (trimStart l)).isSome) = [m.header.toList] := by
    have hheader : (stripPrefix "+CMGR:".toList (trimStart m.header.toList)).isSome = true :=
      m.isHeader
    rw [List.dropWhile_cons, hheader]
    rfl
  rw [hdrop, List.head?_cons, Option.bind_some] at hsender
  have hok : AtExchange.inbound ⟨command, m.header :: (text ++ ["OK"]), .ok⟩ =
      parseCmgr (AtExchange.response ⟨command, m.header :: (text ++ ["OK"]), .ok⟩) := if_pos rfl
  rw [htext, hok, ← Option.isSome_map, hsender]
  exact m.hasSender

/-- A result alone is no message. -/
theorem inbound_result (command : String) {last : String} {result : AtResult}
    (hok : result = .ok → last = "OK") : AtExchange.inbound ⟨command, [last], result⟩ = none := by
  have hnone : parseCmgr (AtExchange.response ⟨command, ["OK"], .ok⟩) = none := by
    show parseCmgr (String.ofList (join ['\n'] (["OK"].map String.toList))) = none
    decide +kernel
  cases result with
  | ok =>
    rw [hok rfl]
    exact hnone
  | _ => rfl

/-! ## Exchanges with the storage -/

section Exchanges

variable {R : List Nat → Prop} {s : MessageStore}

theorem total_readLine (hread : s.unread = []) (hR : R s.rows) (line : String)
    (rest : List String) :
    Total harmless (fun s' => s' = s.hear (line :: rest)) 1 readLine
      (fun read s' => read = some line ∧ s' = s.hear rest) (fun s' => R s'.rows) := by
  refine total_perform (fun s' hs' => by rw [hs']; exact hR) (fun a s₁ s₂ hs₁ hstep => ?_)
  have hunread : s₁.unread = line :: rest := by
    rw [hs₁, MessageStore.hear, hread, List.nil_append]
  cases hr : a.read with
  | ioError =>
    rw [hr] at hstep
    exact hstep.2.elim
  | timeout =>
    rw [hr] at hstep
    cases hunread.symm.trans hstep.2.1
  | line text =>
    rw [hr] at hstep
    obtain ⟨-, hhead, hs₂⟩ := hstep
    obtain ⟨rfl, hrest⟩ := List.cons.inj (hunread.symm.trans hhead)
    refine ⟨_, rfl, rfl, ?_⟩
    rw [hs₂, ← hrest, hs₁, MessageStore.hear, MessageStore.hear, hread, List.nil_append]
    rfl

theorem total_collectStep (hread : s.unread = []) (hR : R s.rows) (command : String)
    (collected : List String) (line : String) (rest : List String) :
    Total harmless (fun s' => s' = s.hear (line :: rest)) 1 (collectStep command collected)
      (fun r s' => r = (match classifyLine line with
        | .terminator result => .inr ⟨command, collected ++ [line], result⟩
        | .nonTerminating => .inl (if isBlank line then collected else collected ++ [line])) ∧
        s' = s.hear rest) (fun s' => R s'.rows) := by
  unfold collectStep
  refine total_bind (k := 0) (total_readLine hread hR line rest) (fun read => ?_)
  cases read with
  | none => exact fun _ _ _ hs => by cases hs.1
  | some text =>
    simp only
    cases hclass : classifyLine text with
    | terminator result =>
      refine total_pure (fun s' hs' => ?_)
      obtain rfl := Option.some.inj hs'.1
      exact ⟨by rw [hclass], hs'.2⟩
    | nonTerminating =>
      refine total_pure (fun s' hs' => ?_)
      obtain rfl := Option.some.inj hs'.1
      exact ⟨by rw [hclass], hs'.2⟩

/-- A response that is waiting is read to its end. -/
theorem total_collect (hread : s.unread = []) (hR : R s.rows) (command : String)
    {lines : List String} {last : String} {result : AtResult}
    (hlines : ∀ l ∈ lines, classifyLine l = .nonTerminating)
    (hlast : classifyLine last = .terminator result) (collected : List String) :
    Total harmless (fun s' => s' = s.hear (lines ++ [last])) (lines.length + 1)
      (Scripted.iterate (collectStep command) collected)
      (fun e s' =>
        e = ⟨command, collected ++ lines.filter (fun l => !isBlank l) ++ [last], result⟩ ∧
          s' = s.hear [])
      (fun s' => R s'.rows) := by
  induction lines generalizing collected with
  | nil =>
    have hstep := total_collectStep hread hR command collected last []
    rw [hlast] at hstep
    rw [iterate_eq (advances_collectStep command)]
    refine total_mono (total_bind (k := 0) hstep (fun r => ?_)) (Nat.le_refl 1)
    cases r with
    | inl y => exact fun _ _ _ hs => by cases hs.1
    | inr e =>
      refine total_pure (fun s' hs' => ⟨?_, hs'.2⟩)
      rw [Sum.inr.inj hs'.1, List.filter_nil, List.append_nil]
  | cons line lines ih =>
    have hstep := total_collectStep hread hR command collected line (lines ++ [last])
    rw [hlines line List.mem_cons_self] at hstep
    rw [iterate_eq (advances_collectStep command)]
    refine total_mono (total_bind (k := lines.length + 1) hstep (fun r => ?_)) (by
      rw [List.length_cons]
      omega)
    cases r with
    | inr e => exact fun _ _ _ hs => by cases hs.1
    | inl y =>
      have hrest := ih (fun l hl => hlines l (List.mem_cons_of_mem line hl)) y
      refine total_of_forall (fun s₀ hs₀ => ?_)
      refine total_conseq hrest (Nat.le_refl _) (fun s' hs' => hs'.trans hs₀.2) (fun e s' he => ?_)
      refine ⟨?_, he.2⟩
      rw [he.1, Sum.inl.inj hs₀.1]
      cases hblank : isBlank line <;> simp [hblank]

/-- The answer is a response of at most `n` lines and a result, and what is read
is `e`. -/
structure Responds (n : Nat) (e : AtExchange) (s t : MessageStore) (lines : List String)
    (last : String) : Prop where
  state : s = t.hear (lines ++ [last])
  read : t.unread = []
  short : lines.length ≤ n
  framed : ∀ l ∈ lines, classifyLine l = .nonTerminating
  ending : classifyLine last = .terminator e.result
  collected : e.lines = lines.filter (fun l => !isBlank l) ++ [last]

theorem total_exchange {n : Nat} {command : String} {Q : AtExchange → MessageStore → Prop}
    (hR : R s.rows)
    (h : ∀ s', s'.Harmless → s.Answers command s' → ∃ e t lines last,
      Responds n e s' t lines last ∧ e.command = command ∧ R t.rows ∧ Q e t) :
    Total harmless (fun s' => s' = s) (n + 2) (exchange command) Q (fun s' => R s'.rows) := by
  unfold exchange
  have hwrite : Total harmless (fun s' => s' = s) 1 (writeBytes (.command command))
      (fun _ s' => s'.Harmless ∧ s.Answers command s') (fun s' => R s'.rows) := by
    refine total_perform (fun s' hs' => by rw [hs']; exact hR) (fun a s₁ s₂ hs₁ hstep => ?_)
    subst hs₁
    cases hw : a.write with
    | ok =>
      rw [hw] at hstep
      exact ⟨(), rfl, hstep⟩
    | ioError sent =>
      rw [hw] at hstep
      exact hstep.2.elim
  refine total_mono (total_bind (k := n + 1) hwrite (fun _ => ?_)) (by omega)
  refine total_of_forall (fun s₁ hs₁ => ?_)
  obtain ⟨e, t, lines, last, hresponds, hcommand, hrows, hQ⟩ := h s₁ hs₁.1 hs₁.2
  have hcollect := total_collect hresponds.read hrows command hresponds.framed hresponds.ending []
  rw [← hresponds.state] at hcollect
  refine total_mono (total_bind (k := 0) hcollect (fun e' => ?_)) (by
    have := hresponds.short
    omega)
  refine total_bind (n := 0) (k := 0) (total_emit (Q := fun _ => Q e') (fun s₂ s₃ hs₂ hstep => ?_))
    (fun _ => total_pure (fun _ h => h))
  have he : e' = e := by
    rw [hs₂.1, List.nil_append, ← hresponds.collected, ← hcommand]
  have hs₃ : s₃ = t := by
    rw [show s₃ = s₂ from hstep.2, hs₂.2, MessageStore.hear, List.append_nil]
  rw [he, hs₃]
  exact hQ

theorem total_scanCmti (lines : List String) (pending : List Nat) {C : MessageStore → Prop} :
    Total harmless (fun s' => s' = s) 0 (scanCmti lines pending)
      (fun r s' => r = pending ++ indices lines ∧ s' = s.echo (indices lines)) C := by
  induction lines generalizing pending s with
  | nil => exact total_pure (fun s' hs' => by simp [hs', indices, MessageStore.echo])
  | cons line lines ih =>
    unfold scanCmti indices
    rw [List.filterMap_cons]
    cases parseCmtiIndex line with
    | none => exact ih pending
    | some index =>
      have hpush : Total harmless (fun s' => s' = s) 0 (emit (.pushed index))
          (fun _ s' => s' = s.echo [index]) C :=
        total_emit (fun s₁ s₂ hs₁ hstep => by rw [← hs₁]; exact hstep.2)
      refine total_bind (n := 0) (k := 0) hpush (fun _ => ?_)
      refine total_post (ih (pending ++ [index])) (fun r s' hr => ?_)
      obtain ⟨rfl, rfl⟩ := hr
      simp [indices, MessageStore.echo]

/-! ## The handling of an index -/

theorem total_audit (hR : R s.rows) (eventType detail : String) :
    Total harmless (fun s' => s' = s) 1 (audit eventType detail) (fun _ s' => s' = s)
      (fun s' => R s'.rows) :=
  total_perform (fun s' hs' => by rw [hs']; exact hR)
    (fun a s₁ s₂ hs₁ hstep => ⟨(), rfl, Eq.trans hstep.2 hs₁⟩)

/-- An index without a message is not read in any attempt. -/
theorem total_readInbound_absent {index : Nat} (hread : s.unread = []) (hR : R s.rows)
    (hnone : ∀ m ∈ s.stored, m.index ≠ index) (attempts : Nat) (pending : List Nat) :
    Total harmless (fun s' => s' = s) (attempts * 2) (readInbound index attempts pending)
      (fun r s' => r = (none, pending) ∧ s' = s) (fun s' => R s'.rows) := by
  induction attempts with
  | zero => exact total_pure (fun s' hs' => ⟨rfl, hs'⟩)
  | succ attempts ih =>
    unfold readInbound
    have hexchange : Total harmless (fun s' => s' = s) 2 (exchange (cmgrCommand index))
        (fun e s' => (indices e.lines = [] ∧ e.inbound = none) ∧ s' = s) (fun s' => R s'.rows) := by
      refine total_exchange (n := 0) hR (fun s' _ hs' => ?_)
      rcases MessageStore.answers_cmgr hs' with
        ⟨m, hm, hindex, -⟩ | ⟨-, last, result, hlast, hok, rfl⟩
      · exact absurd hindex (hnone m hm)
      · exact ⟨⟨_, [last], result⟩, s, [], last, ⟨rfl, hread, Nat.le_refl 0, by simp, hlast, rfl⟩,
          rfl, hR, ⟨indices_response [] hlast, inbound_result _ hok⟩, rfl⟩
    refine total_mono (total_bind (k := attempts * 2) hexchange (fun e => ?_)) (by omega)
    refine total_of_forall (fun s₁ hs₁ => ?_)
    obtain ⟨⟨hindices, hinbound⟩, rfl⟩ := hs₁
    refine total_mono (total_bind (n := 0) (k := attempts * 2)
      (total_scanCmti e.lines pending) (fun pending' => ?_)) (by omega)
    refine total_of_forall (fun s₂ hs₂ => ?_)
    obtain ⟨rfl, rfl⟩ := hs₂
    rw [hinbound, hindices, List.append_nil, MessageStore.echo_nil]
    exact ih

/-- A stored message is read in the first attempt, and what its text announces is
pushed. -/
theorem total_readInbound_stored {index n : Nat} (hread : s.unread = []) (hR : R s.rows)
    (hshort : ∀ m ∈ s.stored, m.report.length ≤ n)
    (hsome : ∃ m ∈ s.stored, m.index = index) (attempts : Nat) (pending : List Nat) :
    Total harmless (fun s' => s' = s) (n + 2) (readInbound index (attempts + 1) pending)
      (fun r s' => ∃ m ∈ s.stored, m.index = index ∧ r.1.isSome ∧
        r.2 = pending ++ m.announced ∧ s' = s.echo m.announced) (fun s' => R s'.rows) := by
  unfold readInbound
  have hexchange : Total harmless (fun s' => s' = s) (n + 2) (exchange (cmgrCommand index))
      (fun e s' => (∃ m ∈ s.stored, m.index = index ∧ e.inbound.isSome ∧
        indices e.lines = m.announced) ∧ s' = s) (fun s' => R s'.rows) := by
    refine total_exchange hR (fun s' hharmless hs' => ?_)
    rcases MessageStore.answers_cmgr hs' with ⟨m, hm, hindex, rfl⟩ | ⟨hnone, -⟩
    · have hreport : ∀ l ∈ m.report, classifyLine l = .nonTerminating := by
        intro l hl
        refine hharmless.legible l ?_
        rw [MessageStore.hear, hread, List.nil_append, List.dropLast_concat]
        exact hl
      have hok : classifyLine "OK" = .terminator .ok := by decide
      exact ⟨⟨_, m.report.filter (fun l => !isBlank l) ++ ["OK"], .ok⟩, s, m.report, "OK",
        ⟨rfl, hread, hshort m hm, hreport, hok, rfl⟩, rfl, hR,
        ⟨m, hm, hindex, inbound_report m _, indices_response m.report hok⟩, rfl⟩
    · obtain ⟨m, hm, hindex⟩ := hsome
      exact absurd hindex (hnone m hm)
  refine total_bind (k := 0) hexchange (fun e => ?_)
  refine total_of_forall (fun s₁ hs₁ => ?_)
  obtain ⟨⟨m, hm, hindex, hinbound, hindices⟩, rfl⟩ := hs₁
  refine total_bind (n := 0) (k := 0) (total_scanCmti e.lines pending) (fun pending' => ?_)
  obtain ⟨message, hmessage⟩ := Option.isSome_iff_exists.mp hinbound
  rw [hmessage, hindices]
  exact total_pure (fun s' hs' => ⟨m, hm, hindex, rfl, hs'.1, hs'.2⟩)

/-- How a message that was read is dealt with: without a row it is kept, and with
a row it is removed or kept, as the modem says. -/
inductive Dealt (s : MessageStore) (index : Nat) : MessageStore → Prop where
  | uninserted : Dealt s index (s.keep index)
  | deleted : Dealt s index ((s.row index).remove index)
  | refused : Dealt s index ((s.row index).keep index)

theorem total_storeInbound {index : Nat} (hread : s.unread = []) (hR : R s.rows)
    (hR' : R (s.rows ++ [index])) (hhandling : s.handling = some index) (events : Bool)
    (message : ParsedInbound) (pending : List Nat) :
    Total harmless (fun s' => s' = s) 4 (storeInbound events index message pending)
      (fun r s' => r = pending ∧ Dealt s index s') (fun s' => R s'.rows) := by
  unfold storeInbound
  have hinsert : Total harmless (fun s' => s' = s) 1 (createInboundMessage message)
      (fun reply s' => s' = s.insert reply) (fun s' => R s'.rows) :=
    total_perform (fun s' hs' => by rw [hs']; exact hR)
      (fun a s₁ s₂ hs₁ hstep => ⟨a.db, rfl, by rw [← hs₁]; exact hstep.2⟩)
  refine total_bind (k := 3) hinsert (fun reply => ?_)
  cases reply with
  | error text =>
    have hkept : s.insert (.error text) = s.keep index := by
      simp [MessageStore.insert, MessageStore.keep, hhandling]
    rw [hkept]
    refine total_mono (total_bind (k := 0) (total_audit (s := s.keep index) hR _ _)
      (fun _ => ?_)) (by omega)
    exact total_pure (fun s' hs' => ⟨rfl, by rw [hs']; exact .uninserted⟩)
  | ok rowId =>
    have hrow : s.insert (.ok rowId) = s.row index := by
      simp [MessageStore.insert, MessageStore.row, hhandling]
    rw [hrow]
    have hpublish : Total harmless (fun s' => s' = s.row index) 0
        (publishInbound events rowId message) (fun _ s' => s' = s.row index)
        (fun s' => R s'.rows) := by
      unfold publishInbound
      cases events with
      | false => exact total_pure (fun _ h => h)
      | true => exact total_emit (fun s₁ s₂ hs₁ hstep => Eq.trans hstep.2 hs₁)
    have hdelete : Total harmless (fun s' => s' = s.row index) 2 (exchange (cmgdCommand index))
        (fun e s' => indices e.lines = [] ∧ Dealt s index s' ∧ R s'.rows)
        (fun s' => R s'.rows) := by
      refine total_exchange (n := 0) hR' (fun s' _ hs' => ?_)
      rcases MessageStore.answers_cmgd hs' with rfl | ⟨last, result, hlast, rfl⟩
      · have hok : classifyLine "OK" = .terminator .ok := by decide
        exact ⟨⟨_, ["OK"], .ok⟩, (s.row index).remove index, [], "OK",
          ⟨rfl, hread, Nat.le_refl 0, by simp, hok, rfl⟩, rfl, hR',
          indices_response [] hok, .deleted, hR'⟩
      · exact ⟨⟨_, [last], result⟩, (s.row index).keep index, [], last,
          ⟨rfl, hread, Nat.le_refl 0, by simp, hlast, rfl⟩, rfl, hR',
          indices_response [] hlast, .refused, hR'⟩
    refine total_bind (n := 0) (k := 3) hpublish (fun _ => ?_)
    refine total_bind (n := 2) (k := 1) hdelete (fun delete => ?_)
    refine total_of_forall (fun t ht => ?_)
    obtain ⟨hindices, hdealt, hrows⟩ := ht
    refine total_bind (n := 0) (k := 1) (total_scanCmti delete.lines pending) (fun pending' => ?_)
    rw [hindices, List.append_nil, MessageStore.echo_nil]
    refine total_bind (T := fun _ s' => pending' = pending ∧ s' = t) (n := 1) (k := 0) ?_
      (fun _ => total_pure (fun s' hs' => ⟨hs'.1, by rw [hs'.2]; exact hdealt⟩))
    unfold auditDelete
    split
    · exact total_pure (fun _ h => h)
    · refine total_of_forall (fun t' ht' => ?_)
      obtain ⟨rfl, rfl⟩ := ht'
      exact total_post (total_audit hrows _ _) (fun _ s' hs' => ⟨rfl, hs'⟩)

/-- What the handling of an index comes to: nothing, or a message has been read and
dealt with. -/
inductive Handled (s : MessageStore) (index : Nat) : List Nat → MessageStore → Prop where
  | absent : (∀ m ∈ s.stored, m.index ≠ index) → Handled s index [] s
  | stored (m : StoredSms) (s' : MessageStore) : m ∈ s.stored → m.index = index →
      Dealt (s.echo m.announced) index s' → Handled s index m.announced s'

theorem total_handleInboundInner {index n : Nat} (hread : s.unread = []) (hR : R s.rows)
    (hR' : (∃ m ∈ s.stored, m.index = index) → R (s.rows ++ [index]))
    (hshort : ∀ m ∈ s.stored, m.report.length ≤ n)
    (hhandling : s.handling = some index) (events : Bool) (pending : List Nat) :
    Total harmless (fun s' => s' = s) (n + 7) (handleInboundInner events index pending)
      (fun r s' => ∃ pushed, r = pending ++ pushed ∧ Handled s index pushed s')
      (fun s' => R s'.rows) := by
  unfold handleInboundInner
  by_cases hsome : ∃ m ∈ s.stored, m.index = index
  · refine total_mono (total_bind (k := 4)
      (total_readInbound_stored hread hR hshort hsome 2 pending) (fun r => ?_)) (by omega)
    refine total_of_forall (fun t ht => ?_)
    obtain ⟨m, hm, hindex, hmessage, hpending, rfl⟩ := ht
    obtain ⟨message, hmessage⟩ := Option.isSome_iff_exists.mp hmessage
    obtain ⟨message', pending'⟩ := r
    obtain rfl : message' = some message := hmessage
    obtain rfl : pending' = pending ++ m.announced := hpending
    have hstore := @total_storeInbound R (s.echo m.announced) index hread hR (hR' hsome) hhandling
      events message (pending ++ m.announced)
    exact total_post hstore (fun r s' hr => ⟨m.announced, hr.1, .stored m s' hm hindex hr.2⟩)
  · have hnone : ∀ m ∈ s.stored, m.index ≠ index := fun m hm h => hsome ⟨m, hm, h⟩
    refine total_mono (total_bind (k := 1)
      (total_readInbound_absent hread hR hnone 3 pending) (fun r => ?_)) (by omega)
    refine total_of_forall (fun t ht => ?_)
    obtain ⟨rfl, rfl⟩ := ht
    refine total_bind (k := 0) (total_audit hR _ _) (fun _ => total_pure (fun s' hs' => ?_))
    exact ⟨[], (List.append_nil pending).symm, by rw [hs']; exact .absent hnone⟩

end Exchanges

end Modem
end GreenRelay
