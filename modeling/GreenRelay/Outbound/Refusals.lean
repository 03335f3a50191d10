/-
A submission that the modem refuses.

The modem may refuse a part with a numbered error in place of the prompt or
after the body.  A refusal after the body counts as a transient failure with its
number, and the last of them is what is stored for the message.  A refusal in
place of the prompt is not read as one: the wait for the prompt passes over it,
and the part is given up as timed out.
-/
import GreenRelay.Modem.Attempts
import GreenRelay.Modem.Manager
import GreenRelay.Modem.Rounds
import GreenRelay.Outbound.Model

namespace GreenRelay
namespace Outbound

open Modem Text Sms Scripted

/-! ## Refusals -/

/-- The lines that refuse with the number `c`. -/
def refusals (c : Nat) : List String := [(AtResult.cmsError c).text, (AtResult.cmeError c).text]

/-- The answers to an attempt that the modem refuses with `line`, in place of the
prompt or, if `prompted`, after the body. -/
inductive Refused (line : String) : Bool → List Answer → Prop
  /-- The wait for the prompt takes the line and goes on until it times out. -/
  | passed {header prompt : Answer} {dropped : List String} {rest : List Answer}
      (hheader : header.write = .ok) (hprompt : prompt.prompt = .timeout dropped)
      (hline : line ∈ dropped) : Refused line false (header :: prompt :: rest)
  /-- The wait leaves the line to the collection that follows the ESC. -/
  | left {header prompt abort : Answer} {dropped lines : List String} {reads rest : List Answer}
      (hheader : header.write = .ok) (hprompt : prompt.prompt = .timeout dropped)
      (habort : abort.write = .ok)
      (hreads : reads.map Answer.read = (lines ++ [line]).map ReadReply.line)
      (hlines : ∀ l ∈ lines, classifyLine l = .nonTerminating) :
      Refused line false (header :: prompt :: abort :: (reads ++ rest))
  | result {header prompt body : Answer} {dropped lines : List String} {reads rest : List Answer}
      (hheader : header.write = .ok) (hprompt : prompt.prompt = .prompt dropped)
      (hbody : body.write = .ok)
      (hreads : reads.map Answer.read = (lines ++ [line]).map ReadReply.line)
      (hlines : ∀ l ∈ lines, classifyLine l = .nonTerminating) :
      Refused line true (header :: prompt :: body :: (reads ++ rest))

/-- What is stored for a message that failed with the number `c`. -/
def StoresCode (c : Nat) (r : SendResult) : Prop :=
  r.status = .failed ∧ r.errorCode = some c ∧
    statusWrite r = some ⟨.failed, none, some (toString c)⟩

section Counting

variable (cfg : Config) (toNumber part : String) (encoding : SmsEncoding)

/-- An attempt with `left` more allowed after it counts as a transient failure
with the number `c`.  The next attempt follows after the pause; if there is none,
the send fails with the number as soon as the insert of the audit is answered. -/
def CountsAs (left : Nat) (code : Option Nat) (c : Nat) (script : List Answer) : Prop :=
  ∃ (prompted : Bool) (e : AtExchange) (rest : List Answer) (t : List Event),
    sendSmsPart toNumber part encoding script = ⟨.done e, rest, t⟩ ∧
      Attempt.verdict ⟨prompted, e⟩ = none ∧ Attempt.code ⟨prompted, e⟩ = some c ∧
        (∀ n, left = n + 1 →
          sendAttempts cfg toNumber part encoding (left + 1) code script =
            ⟨(sendAttempts cfg toNumber part encoding left (some c) rest).outcome,
              (sendAttempts cfg toNumber part encoding left (some c) rest).rest,
              t ++ [.submitted e, .slept cfg.sendRetryDelaySecs] ++
                (sendAttempts cfg toNumber part encoding left (some c) rest).trace⟩) ∧
          (left = 0 → StoresCode c (exhausted (some c)) ∧
            (∀ r, (sendAttempts cfg toNumber part encoding (left + 1) code script).outcome =
              .done r → r = exhausted (some c)) ∧
            ∀ a, (sendAttempts cfg toNumber part encoding (left + 1) code
              (script ++ [a])).outcome = .done (exhausted (some c)))

/-! ## Reading a refusal -/

theorem trim_refusal {tag : List Char} (c : Nat) (htag : tag.head? = some '+') :
    trim (tag ++ ' ' :: Nat.toDigits 10 c) = tag ++ ' ' :: Nat.toDigits 10 c := by
  apply trim_of_ends
  · intro d hd
    rw [List.head?_append, htag] at hd
    obtain rfl := Option.some.inj hd
    decide
  · intro d hd
    have hlast : d ∈ (Nat.toDigits 10 c).getLast? := by
      rw [List.getLast?_append_of_ne_nil _ (List.cons_ne_nil _ _)] at hd
      rwa [List.getLast?_cons_of_ne_nil Nat.toDigits_ne_nil] at hd
    exact isWhite_digit (isDigit_toDigits (List.mem_of_getLast? hlast))

theorem trim_toDigits (c : Nat) : trim (' ' :: Nat.toDigits 10 c) = Nat.toDigits 10 c := by
  rw [trim, trimStart, List.dropWhile_cons_of_pos (by decide)]
  show trim (Nat.toDigits 10 c) = Nat.toDigits 10 c
  apply trim_of_ends
  · exact fun d hd => isWhite_digit (isDigit_toDigits (List.mem_of_mem_head? hd))
  · exact fun d hd => isWhite_digit (isDigit_toDigits (List.mem_of_getLast? hd))

/-- What a refusal is classified as: its number counts if it is in range. -/
def Refuses (c : Nat) (result : AtResult) : Prop :=
  result ≠ .ok ∧ result ≠ .timeout ∧ result.errorCode = if c < 65536 then some c else none

theorem refuses_codedError {wrap : Nat → AtResult}
    (hwrap : ∀ n, wrap n ≠ .ok ∧ wrap n ≠ .timeout ∧ (wrap n).errorCode = some n) (c : Nat) :
    Refuses c (codedError wrap (' ' :: Nat.toDigits 10 c)) := by
  rw [codedError, trim_toDigits, parseU16, parseUnsigned_toDigits, Refuses]
  by_cases hc : c < 65536
  · rw [if_pos hc]
    exact hwrap c
  · rw [if_neg hc]
    exact ⟨AtResult.noConfusion, AtResult.noConfusion, rfl⟩

theorem toList_refusal (tag : String) (c : Nat) :
    (tag ++ toString c).toList = tag.toList ++ Nat.toDigits 10 c := by
  rw [String.toList_append, Nat.toString_eq_ofList_toDigits, String.toList_ofList]

theorem classifyLine_cms (c : Nat) : classifyLine (AtResult.cmsError c).text =
    .terminator (codedError .cmsError (' ' :: Nat.toDigits 10 c)) := by
  have htag : "+CMS ERROR: ".toList = "+CMS ERROR:".toList ++ [' '] := by decide +kernel
  rw [classifyLine, AtResult.text, toList_refusal, htag, List.append_assoc, List.singleton_append,
    trim_refusal c (by decide +kernel)]
  rfl

theorem classifyLine_cme (c : Nat) : classifyLine (AtResult.cmeError c).text =
    .terminator (codedError .cmeError (' ' :: Nat.toDigits 10 c)) := by
  have htag : "+CME ERROR: ".toList = "+CME ERROR:".toList ++ [' '] := by decide +kernel
  rw [classifyLine, AtResult.text, toList_refusal, htag, List.append_assoc, List.singleton_append,
    trim_refusal c (by decide +kernel)]
  rfl

theorem classifyLine_refusal {c : Nat} {line : String} (h : line ∈ refusals c) :
    ∃ result, classifyLine line = .terminator result ∧ Refuses c result := by
  rw [refusals, List.mem_cons, List.mem_singleton] at h
  rcases h with rfl | rfl
  · refine ⟨_, classifyLine_cms c, refuses_codedError (fun n => ⟨?_, ?_, rfl⟩) c⟩
    · exact fun h => by cases h
    · exact fun h => by cases h
  · refine ⟨_, classifyLine_cme c, refuses_codedError (fun n => ⟨?_, ?_, rfl⟩) c⟩
    · exact fun h => by cases h
    · exact fun h => by cases h

/-! ## Counting a refusal -/

theorem parseSendOutcomeFrom_refusal {line : String} {result : AtResult}
    (hclass : classifyLine line = .terminator result) (hok : result ≠ .ok)
    (reference : Option Nat) :
    parseSendOutcomeFrom reference [line] = .failed result.errorCode := by
  have hnone := parseCmgsReference_terminator hclass
  simp only [parseSendOutcomeFrom, hnone, hclass]
  cases result with
  | ok => exact absurd rfl hok
  | _ => rfl

/-- What an attempt returns that is refused after its body. -/
theorem refused_result {line : String} {c : Nat} {script : List Answer} (hline : line ∈ refusals c)
    (h : Refused line true script) :
    ∃ e, (sendSmsPart toNumber part encoding script).outcome = .done e ∧
      e.result ≠ .timeout ∧
        parseSendOutcome e.lines = .failed (if c < 65536 then some c else none) := by
  obtain ⟨result, hclass, hok, htimeout, hcode⟩ := classifyLine_refusal hline
  cases h with
  | @result header prompt body dropped lines reads rest hheader hprompt hbody hreads hlines =>
    have hheard : heard "AT+CMGS" [] ((reads ++ rest).map Answer.read) =
        .done ⟨"AT+CMGS", lines.filter (fun l => !isBlank l) ++ [line], result⟩ := by
      rw [List.map_append, hreads, List.map_append, List.append_assoc,
        heard_lines "AT+CMGS" hlines]
      exact heard_terminator "AT+CMGS" _ hclass _
    obtain ⟨found, hfound, _⟩ :=
      @parseSendOutcomeFrom_append (lines.filter (fun l => !isBlank l)) [line]
        (fun l hl => hlines l (List.mem_filter.mp hl).1) none
    refine ⟨⟨"AT+CMGS", lines.filter (fun l => !isBlank l) ++ [line], result⟩, ?_, htimeout, ?_⟩
    · rw [sendSmsPart_await toNumber part encoding hheader hprompt hbody]
      exact awaitResult_of_heard hheard htimeout
    · rw [parseSendOutcome, hfound, parseSendOutcomeFrom_refusal hclass hok, hcode]

/-- An attempt that is refused in place of the prompt returns a timeout, if it
returns. -/
theorem refused_prompt {line : String} {script : List Answer} {e : AtExchange}
    (h : Refused line false script)
    (hdone : (sendSmsPart toNumber part encoding script).outcome = .done e) :
    e = ⟨"AT+CMGS", [], .timeout⟩ := by
  cases h with
  | passed hheader hprompt | left hheader hprompt =>
    rw [sendSmsPart_unprompted toNumber part encoding hheader hprompt] at hdone
    exact (done_of_bind_pure hdone).symm

/-- A transient failure is followed by the next attempt or by the failure of the
part. -/
theorem countsAs_of_transient {left c : Nat} {code : Option Nat} {script : List Answer}
    {e : AtExchange} (hdone : (sendSmsPart toNumber part encoding script).outcome = .done e)
    (hresult : e.result ≠ .timeout) (hparse : parseSendOutcome e.lines = .failed (some c)) :
    CountsAs cfg toNumber part encoding left code c script := by
  have hverdict : Attempt.verdict ⟨true, e⟩ = none := by
    have hfailed : (SendOutcome.failed (some c)).status ≠ .sent := MessageStatus.noConfusion
    rw [Attempt.verdict, hparse, if_neg hfailed, if_neg hresult]
  have hcode : Attempt.code ⟨true, e⟩ = some c := by
    rw [Attempt.code, hparse]
    rfl
  have hrun : sendSmsPart toNumber part encoding script =
      ⟨.done e, (sendSmsPart toNumber part encoding script).rest,
        (sendSmsPart toNumber part encoding script).trace⟩ := by
    rw [← hdone]
  have hjudge : judge toNumber part encoding cfg left e = (do
      retryPause cfg (left == 0)
      sendAttempts cfg toNumber part encoding left (some c)) := by
    rw [← hcode]
    exact judge_transient toNumber part encoding cfg left hverdict
  refine ⟨true, e, _, _, hrun, hverdict, hcode, ?_, ?_⟩
  · rintro n rfl
    rw [sendAttempts_succ, run_bind_done hrun, hjudge, List.append_assoc]
    rfl
  · rintro rfl
    refine ⟨⟨rfl, rfl, rfl⟩, ?_, ?_⟩
    · intro r hr
      rw [sendAttempts_succ, run_bind_done hrun, hjudge] at hr
      exact (done_of_bind_pure hr).symm
    · intro a
      have hbegins := (causal_sendSmsPart toNumber part encoding).begins script [a]
      rw [hrun] at hbegins
      rw [sendAttempts_succ, run_bind_done hbegins.done, hjudge]
      -- The audit takes the first of the answers that are left.
      cases (sendSmsPart toNumber part encoding script).rest <;> rfl

theorem not_countsAs_unprompted {left c : Nat} {code : Option Nat} {line : String}
    {script : List Answer} (h : Refused line false script) :
    ¬ CountsAs cfg toNumber part encoding left code c script := by
  rintro ⟨prompted, e, rest, t, hrun, hverdict, -⟩
  have hdone : (sendSmsPart toNumber part encoding script).outcome = .done e := by rw [hrun]
  rw [refused_prompt toNumber part encoding h hdone] at hverdict
  cases hverdict

/-- A refusal counts as the failure it reports when it comes after the body, with a
number of 16 bits, and in no other case. -/
theorem refusal_counts_iff (left : Nat) (code : Option Nat) {c : Nat} {line : String}
    {prompted : Bool} {script : List Answer} (hline : line ∈ refusals c)
    (h : Refused line prompted script) :
    CountsAs cfg toNumber part encoding left code c script ↔ prompted = true ∧ c < 65536 := by
  constructor
  · intro hcounts
    cases prompted with
    | false => exact absurd hcounts (not_countsAs_unprompted cfg toNumber part encoding h)
    | true =>
      obtain ⟨_, e, rest, t, hrun, _, hcode, -⟩ := hcounts
      obtain ⟨e', hdone, _, hparse⟩ := refused_result toNumber part encoding hline h
      rw [hrun] at hdone
      obtain rfl := Outcome.done.inj hdone
      rw [Attempt.code, hparse] at hcode
      by_cases hc : c < 65536
      · exact ⟨rfl, hc⟩
      · rw [if_neg hc] at hcode
        cases hcode
  · rintro ⟨rfl, hc⟩
    obtain ⟨e, hdone, hresult, hparse⟩ := refused_result toNumber part encoding hline h
    rw [if_pos hc] at hparse
    exact countsAs_of_transient cfg toNumber part encoding hdone hresult hparse

end Counting

/-- The last of two attempts, refused after the body. -/
theorem refusal_counts_iff_38 :
    CountsAs plainConfig "+15551234567" "hello" .gsm7 0 (some 500) 38
      (.quiet :: { prompt := .prompt [] } :: .quiet :: ([.line "+CMS ERROR: 38"] ++ [.quiet])) :=
  (refusal_counts_iff plainConfig "+15551234567" "hello" .gsm7 0 (some 500) (by decide +kernel)
    (@Refused.result "+CMS ERROR: 38" .quiet { prompt := .prompt [] } .quiet [] []
      [.line "+CMS ERROR: 38"] [.quiet] rfl rfl rfl rfl (fun l hl => by cases hl))).mpr
    ⟨rfl, by decide⟩

/-- A refusal in place of the prompt that the abort reads and drops. -/
theorem refusal_not_counted :
    ¬ ∀ (cfg : Config) (toNumber part : String) (encoding : SmsEncoding) (left : Nat)
      (code : Option Nat) (c : Nat) (line : String) (prompted : Bool) (script : List Answer),
      line ∈ refusals c → Refused line prompted script →
        CountsAs cfg toNumber part encoding left code c script := by
  intro h
  have hrefused : Refused "+CMS ERROR: 38" false
      (.quiet :: .quiet :: .quiet :: ([.line "+CMS ERROR: 38"] ++ [])) :=
    @Refused.left "+CMS ERROR: 38" .quiet .quiet .quiet [] [] [.line "+CMS ERROR: 38"] [] rfl rfl
      rfl rfl (fun l hl => by cases hl)
  exact not_countsAs_unprompted plainConfig "+15551234567" "hello" .gsm7 hrefused
    (h plainConfig "+15551234567" "hello" .gsm7 1 none 38 _ _ _ (by decide +kernel) hrefused)

end Outbound
end GreenRelay
