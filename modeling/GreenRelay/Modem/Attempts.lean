/-
The attempts at one part of a message.

`shown` keeps of a trace what tells the attempts apart: the headers, the bodies
and the exchanges in which the submissions ended.  An attempt is shown as its
header, its body if the prompt came, and its exchange.  `sendAttempts_shown`
says what a run of the retry loop shows and how that decides its result, whether
the run comes to an end, is broken off by an I/O error, or is looked at half way.
-/
import GreenRelay.Modem.Exchanges

namespace GreenRelay
namespace Modem

open Sms Scripted

/-! ## What is shown of a trace -/

inductive Shown where
  | header (toNumber : String) (encoding : SmsEncoding)
  | body (part : String) (encoding : SmsEncoding)
  | result (e : AtExchange)
  deriving DecidableEq, Repr

def Event.shown : Event → Option Shown
  | .wrote (.header toNumber encoding) _ => some (.header toNumber encoding)
  | .wrote (.body part encoding) _ => some (.body part encoding)
  | .submitted e => some (.result e)
  | _ => none

def shown (t : List Event) : List Shown := t.filterMap Event.shown

@[simp] theorem shown_nil : shown [] = [] := rfl

@[simp] theorem shown_cons (e : Event) (t : List Event) :
    shown (e :: t) = e.shown.toList ++ shown t := by
  cases h : e.shown <;> simp [shown, h]

@[simp] theorem shown_append (t u : List Event) : shown (t ++ u) = shown t ++ shown u :=
  List.filterMap_append

theorem deaf_shown : Deaf Event.shown :=
  ⟨fun _ _ => rfl, fun _ => rfl, fun _ => rfl, fun _ => rfl⟩

theorem shown_of_silent {α : Type} {p : Prog α} (h : Silent Event.shown p)
    (script : List Answer) : shown (p script).trace = [] := h script

/-! ## One attempt -/

/-- An attempt that is over: whether the prompt came, and the exchange. -/
structure Attempt where
  prompted : Bool
  exchange : AtExchange
  deriving DecidableEq, Repr

section Attempts

variable (toNumber part : String) (encoding : SmsEncoding)

/-- What has been shown of an attempt before its exchange is over. -/
def underWay (prompted : Bool) : List Shown :=
  .header toNumber encoding :: if prompted then [.body part encoding] else []

def Attempt.shown (a : Attempt) : List Shown :=
  underWay toNumber part encoding a.prompted ++ [.result a.exchange]

/-- A write is shown by what it wrote, and it shows even when it fails. -/
theorem writeBytes_shown (out : Output) {x : Shown}
    (hout : ∀ r, (Event.wrote out r).shown = some x) (script : List Answer) :
    (∃ rest t, writeBytes out script = ⟨.done (), rest, t⟩ ∧ shown t = [x]) ∨
    (∃ rest t, writeBytes out script = ⟨.failed, rest, t⟩ ∧ shown t = [x]) ∨
    ∃ rest, writeBytes out script = ⟨.cut, rest, []⟩ := by
  cases script with
  | nil => exact .inr (.inr ⟨[], rfl⟩)
  | cons a script =>
    have hshown : shown [.wrote out a.write] = [x] := by simp [hout]
    cases hwrite : a.write with
    | ok =>
      rw [hwrite] at hshown
      exact .inl ⟨script, [.wrote out .ok], by simp [writeBytes, Scripted.perform, hwrite], hshown⟩
    | ioError n =>
      rw [hwrite] at hshown
      exact .inr (.inl ⟨script, [.wrote out (.ioError n)],
        by simp [writeBytes, Scripted.perform, hwrite], hshown⟩)

/-- What is left of a submission once the body is out. -/
def awaitResult : Prog AtExchange := do
  let e ← collectUntilTerminator "AT+CMGS"
  match e.result with
  | .timeout => do abortToCommandMode; pure e
  | _ => pure e

theorem submitBody_eq :
    submitBody part encoding = (do writeBytes (.body part encoding); awaitResult) := rfl

theorem silent_awaitResult : Silent Event.shown awaitResult := by
  refine silent_bind (silent_collect deaf_shown.read "AT+CMGS") (fun e => ?_)
  cases e.result with
  | timeout => exact silent_bind (silent_abort deaf_shown) (fun _ => silent_pure e)
  | _ => exact silent_pure e

/-- The wait for the result returns what it has collected. -/
theorem awaitResult_exchange {script : List Answer} {e : AtExchange}
    (h : (awaitResult script).outcome = .done e) :
    ∃ rest t, collectUntilTerminator "AT+CMGS" script = ⟨.done e, rest, t⟩ := by
  unfold awaitResult at h
  rcases run_bind_cases (collectUntilTerminator "AT+CMGS") _ script with
    ⟨e₁, rest, t, hcollect, hrun⟩ | ⟨rest, t, -, hrun⟩ | ⟨rest, t, -, hrun⟩ <;> rw [hrun] at h
  · have he : e₁ = e := by
      cases hresult : e₁.result with
      | timeout =>
        simp only [hresult] at h
        exact done_of_bind_pure h
      | _ =>
        simp only [hresult] at h
        exact Outcome.done.inj h
    exact ⟨rest, t, he ▸ hcollect⟩
  · cases h
  · cases h

theorem awaitResult_collected {script : List Answer} {e : AtExchange}
    (h : (awaitResult script).outcome = .done e) : e.Collected := by
  obtain ⟨rest, t, hcollect⟩ := awaitResult_exchange h
  exact collected "AT+CMGS" script hcollect

/-- The submission after its header: what the run has shown is the body or
nothing, and its value is the exchange. -/
theorem submitBody_shown (script : List Answer) :
    (∃ prompted : Bool, shown (submitBody part encoding script).trace =
        if prompted then [.body part encoding] else []) ∧
      ∀ e, (submitBody part encoding script).outcome = .done e → e.Collected := by
  rw [submitBody_eq]
  rcases writeBytes_shown (.body part encoding) (fun _ => rfl) script with
    ⟨rest, t, hwrite, ht⟩ | ⟨rest, t, hwrite, ht⟩ | ⟨rest, hwrite⟩
  · rw [run_bind_done hwrite]
    refine ⟨⟨true, ?_⟩, fun e he => awaitResult_collected he⟩
    rw [shown_append, ht, shown_of_silent silent_awaitResult rest]
    rfl
  · rw [run_bind, hwrite]
    exact ⟨⟨true, ht⟩, fun e he => by cases he⟩
  · rw [run_bind, hwrite]
    exact ⟨⟨false, rfl⟩, fun e he => by cases he⟩

/-- What is left of a submission whose prompt did not come. -/
def giveUp : Prog AtExchange := do
  abortToCommandMode
  pure ⟨"AT+CMGS", [], .timeout⟩

theorem silent_giveUp : Silent Event.shown giveUp :=
  silent_bind (silent_abort deaf_shown) (fun _ => silent_pure _)

theorem giveUp_collected {script : List Answer} {e : AtExchange}
    (h : (giveUp script).outcome = .done e) : e.Collected := by
  rw [← done_of_bind_pure h]
  exact .inl ⟨rfl, fun l hl => by cases hl⟩

/-- What is left of a submission whose header is out. -/
def awaitPrompt : Prog AtExchange := do
  match ← waitForPrompt with
  | true => submitBody part encoding
  | false => giveUp

theorem sendSmsPart_eq :
    sendSmsPart toNumber part encoding =
      (do writeBytes (.header toNumber encoding); awaitPrompt part encoding) := rfl

/-- What the wait shows is the body or nothing. -/
theorem awaitPrompt_shown (script : List Answer) :
    (∃ prompted : Bool, shown (awaitPrompt part encoding script).trace =
        if prompted then [.body part encoding] else []) ∧
      ∀ e, (awaitPrompt part encoding script).outcome = .done e → e.Collected := by
  cases script with
  | nil => exact ⟨⟨false, rfl⟩, fun e he => by cases he⟩
  | cons a rest =>
    cases hprompt : a.prompt with
    | prompt dropped =>
      have hwait : waitForPrompt (a :: rest) = ⟨.done true, rest, [.prompted a.prompt]⟩ := by
        simp [waitForPrompt, Scripted.perform, hprompt]
      unfold awaitPrompt
      rw [run_bind_done hwait]
      exact submitBody_shown part encoding rest
    | timeout dropped =>
      have hwait : waitForPrompt (a :: rest) = ⟨.done false, rest, [.prompted a.prompt]⟩ := by
        simp [waitForPrompt, Scripted.perform, hprompt]
      unfold awaitPrompt
      rw [run_bind_done hwait]
      exact ⟨⟨false, shown_of_silent silent_giveUp rest⟩, fun e he => giveUp_collected he⟩
    | ioError dropped =>
      have hwait : waitForPrompt (a :: rest) = ⟨.failed, rest, [.prompted a.prompt]⟩ := by
        simp [waitForPrompt, Scripted.perform, hprompt]
      unfold awaitPrompt
      rw [run_bind, hwait]
      exact ⟨⟨false, rfl⟩, fun e he => by cases he⟩

/-- What a run of `send_sms_part` shows, however it ends: the header is written
first, so only a run that has not begun shows nothing. -/
theorem sendSmsPart_shown (script : List Answer) :
    ((sendSmsPart toNumber part encoding script).outcome = .cut ∧
        shown (sendSmsPart toNumber part encoding script).trace = []) ∨
      ∃ prompted : Bool,
        shown (sendSmsPart toNumber part encoding script).trace =
            underWay toNumber part encoding prompted ∧
          ∀ e, (sendSmsPart toNumber part encoding script).outcome = .done e → e.Collected := by
  rw [sendSmsPart_eq]
  rcases writeBytes_shown (.header toNumber encoding) (fun _ => rfl) script with
    ⟨rest, t, hwrite, ht⟩ | ⟨rest, t, hwrite, ht⟩ | ⟨rest, hwrite⟩
  · rw [run_bind_done hwrite]
    obtain ⟨⟨prompted, hbody⟩, hcollected⟩ := awaitPrompt_shown part encoding rest
    refine .inr ⟨prompted, ?_, hcollected⟩
    rw [shown_append, ht, hbody]
    rfl
  · rw [run_bind, hwrite]
    exact .inr ⟨false, ht, fun e he => by cases he⟩
  · rw [run_bind, hwrite]
    exact .inl ⟨rfl, rfl⟩

/-! ## An attempt that is prompted -/

/-- With the prompt, an attempt is decided by the answers after its body. -/
theorem sendSmsPart_await {header prompt body : Answer} {dropped : List String}
    (hheader : header.write = .ok) (hprompt : prompt.prompt = .prompt dropped)
    (hbody : body.write = .ok) (after : List Answer) :
    (sendSmsPart toNumber part encoding (header :: prompt :: body :: after)).outcome =
      (awaitResult after).outcome := by
  have hwrite : writeBytes (.header toNumber encoding) (header :: prompt :: body :: after) =
      ⟨.done (), prompt :: body :: after, [.wrote (.header toNumber encoding) header.write]⟩ := by
    simp [writeBytes, Scripted.perform, hheader]
  have hwait : waitForPrompt (prompt :: body :: after) =
      ⟨.done true, body :: after, [.prompted prompt.prompt]⟩ := by
    simp [waitForPrompt, Scripted.perform, hprompt]
  have hsubmit : writeBytes (.body part encoding) (body :: after) =
      ⟨.done (), after, [.wrote (.body part encoding) body.write]⟩ := by
    simp [writeBytes, Scripted.perform, hbody]
  rw [sendSmsPart_eq, run_bind_done hwrite]
  show (awaitPrompt part encoding (prompt :: body :: after)).outcome = _
  unfold awaitPrompt
  rw [run_bind_done hwait]
  show (submitBody part encoding (body :: after)).outcome = _
  rw [submitBody_eq, run_bind_done hsubmit]

/-- Without the prompt, an attempt is given up. -/
theorem sendSmsPart_unprompted {header prompt : Answer} {dropped : List String}
    (hheader : header.write = .ok) (hprompt : prompt.prompt = .timeout dropped)
    (after : List Answer) :
    (sendSmsPart toNumber part encoding (header :: prompt :: after)).outcome =
      (giveUp after).outcome := by
  have hwrite : writeBytes (.header toNumber encoding) (header :: prompt :: after) =
      ⟨.done (), prompt :: after, [.wrote (.header toNumber encoding) header.write]⟩ := by
    simp [writeBytes, Scripted.perform, hheader]
  have hwait : waitForPrompt (prompt :: after) =
      ⟨.done false, after, [.prompted prompt.prompt]⟩ := by
    simp [waitForPrompt, Scripted.perform, hprompt]
  rw [sendSmsPart_eq, run_bind_done hwrite]
  show (awaitPrompt part encoding (prompt :: after)).outcome = _
  unfold awaitPrompt
  rw [run_bind_done hwait]

theorem awaitResult_heard {after : List Answer} {e : AtExchange}
    (h : (awaitResult after).outcome = .done e) :
    heard "AT+CMGS" [] (after.map Answer.read) = .done e := by
  obtain ⟨rest, t, hcollect⟩ := awaitResult_exchange h
  rw [← collect_heard]
  show (collectUntilTerminator "AT+CMGS" after).outcome = .done e
  rw [hcollect]

/-- A result that is heard is returned. -/
theorem awaitResult_of_heard {after : List Answer} {e : AtExchange}
    (h : heard "AT+CMGS" [] (after.map Answer.read) = .done e) (hresult : e.result ≠ .timeout) :
    (awaitResult after).outcome = .done e := by
  rw [← collect_heard] at h
  have houtcome : (collectUntilTerminator "AT+CMGS" after).outcome = .done e := h
  unfold awaitResult
  rcases run_bind_cases (collectUntilTerminator "AT+CMGS") _ after with
    ⟨e₁, rest, t, hcollect, hrun⟩ | ⟨rest, t, hcollect, -⟩ | ⟨rest, t, hcollect, -⟩ <;>
    rw [hcollect] at houtcome
  · obtain rfl := Outcome.done.inj houtcome
    rw [hrun]
    cases hr : e₁.result with
    | timeout => exact absurd hr hresult
    | _ => simp only; rfl
  · cases houtcome
  · cases houtcome

/-! ## The attempts of a part -/

/-- What an exchange decides at once.  A send that was neither acknowledged nor
left without an answer decides nothing, and the part is tried again. -/
def Attempt.verdict (a : Attempt) : Option SendResult :=
  if (parseSendOutcome a.exchange.lines).status = .sent then
    some ⟨.sent, (parseSendOutcome a.exchange.lines).reference.map toString, none, none⟩
  else if a.exchange.result = .timeout then some ⟨.failed, none, none, some "timeout"⟩
  else none

def Attempt.code (a : Attempt) : Option Nat := (parseSendOutcome a.exchange.lines).errorCode

def exhausted (code : Option Nat) : SendResult :=
  ⟨.failed, none, code, some "maximum send attempts exhausted"⟩

/-- The last attempt decides, or there were as many as are allowed. -/
def Decides (left : Nat) (code : Option Nat) (attempts : List Attempt) (result : SendResult) :
    Prop :=
  (∃ a ∈ attempts.getLast?, a.verdict = some result) ∨
    ((∀ a ∈ attempts, a.verdict = none) ∧ attempts.length = left ∧
      result = exhausted ((attempts.getLast?.map Attempt.code).getD code))

/-- An attempt has been started that is not over. -/
def Started (left : Nat) (attempts : List Attempt) (tail : List Shown) : Prop :=
  (∃ prompted, tail = underWay toNumber part encoding prompted) ∧
    (∀ a ∈ attempts, a.verdict = none) ∧ attempts.length < left

/-- A run of the retry loop read as the attempts that are over and what it has
shown after them. -/
structure AttemptLog (left : Nat) (code : Option Nat) (r : Run Answer Event SendResult)
    (attempts : List Attempt) (tail : List Shown) : Prop where
  shows : shown r.trace = attempts.flatMap (Attempt.shown toNumber part encoding) ++ tail
  collected : ∀ a ∈ attempts, a.exchange.Collected
  repeated : ∀ a ∈ attempts.dropLast, a.verdict = none
  bounded : attempts.length ≤ left
  ending :
    match r.outcome with
    | .done result => tail = [] ∧ Decides left code attempts result
    | .failed => Started toNumber part encoding left attempts tail
    | .cut => tail = [] ∨ Started toNumber part encoding left attempts tail

/-- The log of a run that goes on after a transient error. -/
theorem AttemptLog.cons {left : Nat} {code : Option Nat} {r : Run Answer Event SendResult}
    {attempts : List Attempt} {tail : List Shown} {a : Attempt} {t : List Event}
    (h : AttemptLog toNumber part encoding left a.code r attempts tail)
    (ha : a.exchange.Collected) (hverdict : a.verdict = none)
    (ht : shown t = a.shown toNumber part encoding) :
    AttemptLog toNumber part encoding (left + 1) code ⟨r.outcome, r.rest, t ++ r.trace⟩
      (a :: attempts) tail where
  shows := by simp [ht, h.shows]
  collected := by simpa using ⟨ha, h.collected⟩
  repeated := by
    cases attempts with
    | nil => simp
    | cons b attempts => simpa using ⟨hverdict, h.repeated⟩
  bounded := by simpa using h.bounded
  ending := by
    have hstarted : Started toNumber part encoding left attempts tail →
        Started toNumber part encoding (left + 1) (a :: attempts) tail := by
      rintro ⟨htail, hnone, hlt⟩
      exact ⟨htail, by simpa using ⟨hverdict, hnone⟩, by simpa using hlt⟩
    have hending := h.ending
    cases houtcome : r.outcome with
    | done result =>
      simp only [houtcome] at hending ⊢
      obtain ⟨htail, ⟨last, hlast, hdecides⟩ | ⟨hnone, hlength, hresult⟩⟩ := hending
      · refine ⟨htail, .inl ⟨last, ?_, hdecides⟩⟩
        rw [List.getLast?_cons, Option.mem_def.mp hlast]
        rfl
      · refine ⟨htail, .inr ⟨by simpa using ⟨hverdict, hnone⟩, by simp [hlength], ?_⟩⟩
        rw [hresult, List.getLast?_cons]
        cases attempts.getLast? <;> rfl
    | failed =>
      simp only [houtcome] at hending ⊢
      exact hstarted hending
    | cut =>
      simp only [houtcome] at hending ⊢
      exact hending.imp_right hstarted

/-- The log of a run that ends with its first attempt. -/
theorem AttemptLog.single {left : Nat} {code : Option Nat} {r : Run Answer Event SendResult}
    {a : Attempt} {result : SendResult} (hr : r.outcome = .done result ∨ r.outcome = .cut)
    (ht : shown r.trace = a.shown toNumber part encoding) (ha : a.exchange.Collected)
    (hverdict : a.verdict = some result) :
    AttemptLog toNumber part encoding (left + 1) code r [a] [] where
  shows := by simp [ht]
  collected := by simpa using ha
  repeated := by simp
  bounded := by simp
  ending := by
    rcases hr with hr | hr <;> rw [hr]
    · exact ⟨rfl, .inl ⟨a, rfl, hverdict⟩⟩
    · exact .inl rfl

/-- What the retry loop does with an exchange. -/
def judge (cfg : Config) (left : Nat) (e : AtExchange) : Prog SendResult :=
  if (parseSendOutcome e.lines).status = .sent then
    pure ⟨.sent, (parseSendOutcome e.lines).reference.map toString, none, none⟩
  else if e.result = .timeout then do
    audit "send_failed" "AT+CMGS timed out with no result"
    pure ⟨.failed, none, none, some "timeout"⟩
  else do
    retryPause cfg (left == 0)
    sendAttempts cfg toNumber part encoding left (parseSendOutcome e.lines).errorCode

theorem sendAttempts_succ (cfg : Config) (left : Nat) (code : Option Nat) :
    sendAttempts cfg toNumber part encoding (left + 1) code = (do
      let e ← sendSmsPart toNumber part encoding
      emit (.submitted e)
      judge toNumber part encoding cfg left e) := rfl

/-- A verdict ends the loop; a run cut short has not yet recorded the failure. -/
theorem judge_decided (cfg : Config) (left : Nat) {a : Attempt} {result : SendResult}
    (h : a.verdict = some result) (script : List Answer) :
    shown (judge toNumber part encoding cfg left a.exchange script).trace = [] ∧
      ((judge toNumber part encoding cfg left a.exchange script).outcome = .done result ∨
        (judge toNumber part encoding cfg left a.exchange script).outcome = .cut) := by
  unfold Attempt.verdict at h
  unfold judge
  by_cases hsent : (parseSendOutcome a.exchange.lines).status = .sent
  · rw [if_pos hsent] at h ⊢
    rw [← Option.some.inj h]
    exact ⟨rfl, .inl rfl⟩
  · rw [if_neg hsent] at h ⊢
    by_cases htimeout : a.exchange.result = .timeout
    · rw [if_pos htimeout] at h ⊢
      rw [← Option.some.inj h]
      cases script with
      | nil => exact ⟨rfl, .inr rfl⟩
      | cons answer rest => exact ⟨rfl, .inl rfl⟩
    · rw [if_neg htimeout] at h
      cases h

theorem judge_transient (cfg : Config) (left : Nat) {a : Attempt} (h : a.verdict = none) :
    judge toNumber part encoding cfg left a.exchange = (do
      retryPause cfg (left == 0)
      sendAttempts cfg toNumber part encoding left a.code) := by
  unfold Attempt.verdict at h
  unfold judge
  by_cases hsent : (parseSendOutcome a.exchange.lines).status = .sent
  · rw [if_pos hsent] at h
    cases h
  · rw [if_neg hsent] at h ⊢
    by_cases htimeout : a.exchange.result = .timeout
    · rw [if_pos htimeout] at h
      cases h
    · rw [if_neg htimeout]
      rfl

/-- A transient error is followed by a pause and the rest of the attempts. -/
theorem judge_undecided (cfg : Config) (left : Nat) {a : Attempt} (h : a.verdict = none)
    (script : List Answer) :
    ∃ t, shown t = [] ∧ judge toNumber part encoding cfg left a.exchange script =
      ⟨(sendAttempts cfg toNumber part encoding left a.code script).outcome,
        (sendAttempts cfg toNumber part encoding left a.code script).rest,
        t ++ (sendAttempts cfg toNumber part encoding left a.code script).trace⟩ := by
  rw [judge_transient toNumber part encoding cfg left h]
  unfold retryPause
  cases left with
  | zero => exact ⟨[], rfl, rfl⟩
  | succ left => exact ⟨[.slept cfg.sendRetryDelaySecs], rfl, rfl⟩

/-- Every run of the retry loop has a log. -/
theorem sendAttempts_log (cfg : Config) (left : Nat) (code : Option Nat) (script : List Answer) :
    ∃ attempts tail, AttemptLog toNumber part encoding left code
      (sendAttempts cfg toNumber part encoding left code script) attempts tail := by
  induction left generalizing code script with
  | zero =>
    refine ⟨[], [], ?_⟩
    unfold sendAttempts
    cases script with
    | nil => exact ⟨rfl, by simp, by simp, Nat.le_refl _, .inl rfl⟩
    | cons a rest => exact ⟨rfl, by simp, by simp, Nat.le_refl _, rfl, .inr ⟨by simp, rfl, rfl⟩⟩
  | succ left ih =>
    rw [sendAttempts_succ]
    have hpart := sendSmsPart_shown toNumber part encoding script
    rcases run_bind_cases (sendSmsPart toNumber part encoding) _ script with
      ⟨e, rest, t, hsend, hrun⟩ | ⟨rest, t, hsend, hrun⟩ | ⟨rest, t, hsend, hrun⟩ <;>
      rw [hsend] at hpart
    · obtain ⟨h, -⟩ | ⟨prompted, hshown, hcollected⟩ := hpart
      · cases h
      have he := hcollected e rfl
      have ht : shown (t ++ [.submitted e]) =
          Attempt.shown toNumber part encoding ⟨prompted, e⟩ := by
        rw [shown_append, hshown]
        rfl
      have hjudge : (sendSmsPart toNumber part encoding >>= fun e =>
            emit (.submitted e) >>= fun _ => judge toNumber part encoding cfg left e) script =
          ⟨(judge toNumber part encoding cfg left e rest).outcome,
            (judge toNumber part encoding cfg left e rest).rest,
            t ++ [.submitted e] ++ (judge toNumber part encoding cfg left e rest).trace⟩ := by
        rw [hrun, List.append_assoc]
        rfl
      rw [hjudge]
      cases hverdict : Attempt.verdict ⟨prompted, e⟩ with
      | some result =>
        obtain ⟨hnothing, hend⟩ := judge_decided toNumber part encoding cfg left hverdict rest
        exact ⟨[⟨prompted, e⟩], [], AttemptLog.single toNumber part encoding hend
          (by rw [shown_append, ht, hnothing, List.append_nil]) he hverdict⟩
      | none =>
        obtain ⟨pause, hpause, hrest⟩ :=
          judge_undecided toNumber part encoding cfg left hverdict rest
        obtain ⟨attempts, tail, hlog⟩ := ih (Attempt.code ⟨prompted, e⟩) rest
        rw [hrest]
        refine ⟨⟨prompted, e⟩ :: attempts, tail, ?_⟩
        simp only [← List.append_assoc]
        exact hlog.cons toNumber part encoding he hverdict
          (by rw [shown_append, ht, hpause, List.append_nil])
    · rw [hrun]
      obtain ⟨h, -⟩ | ⟨prompted, hshown, hcollected⟩ := hpart
      · cases h
      exact ⟨[], underWay toNumber part encoding prompted, hshown, by simp, by simp, by simp,
        ⟨prompted, rfl⟩, by simp, by simp⟩
    · rw [hrun]
      obtain ⟨-, hshown⟩ | ⟨prompted, hshown, hcollected⟩ := hpart
      · exact ⟨[], [], hshown, by simp, by simp, by simp, .inl rfl⟩
      · exact ⟨[], underWay toNumber part encoding prompted, hshown, by simp, by simp, by simp,
          .inr ⟨⟨prompted, rfl⟩, by simp, by simp⟩⟩

end Attempts

end Modem
end GreenRelay
