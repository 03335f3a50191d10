/-
The two verdicts on an exchange.

Reading stops at the first line that is a result code and calls the exchange by
it.  The outcome of a submission is read from the same lines a second time, with
the last reference among them.  Both see the same result code, since no line
reads as a timeout and a line with a reference is no result code.
-/
import GreenRelay.Modem.Exchanges

namespace GreenRelay
namespace Modem

open Text Scripted

/-! ## What the lines say -/

/-- What a submission comes to, given how its exchange ended. -/
def verdict (reference : Option Nat) : AtResult → SendOutcome
  | .ok =>
    match reference with
    | some r => .sent r
    | none => .failed none
  | .cmsError code => .failed (some code)
  | .cmeError code => .failed (some code)
  | .error => .failed none
  | .timeout => .failed none

theorem parseSendOutcome_timeout {lines : List String}
    (hlines : ∀ l ∈ lines, classifyLine l = .nonTerminating) :
    parseSendOutcome lines = .failed none := by
  have h := parseSendOutcomeFrom_lines hlines none []
  rw [List.append_nil] at h
  rw [parseSendOutcome, h, parseSendOutcomeFrom]

theorem parseSendOutcome_terminator {lines : List String} {last : String} {result : AtResult}
    (hlines : ∀ l ∈ lines, classifyLine l = .nonTerminating)
    (hlast : classifyLine last = .terminator result) :
    parseSendOutcome (lines ++ [last]) = verdict (lastReference (lines ++ [last])) result := by
  have hnone := parseCmgsReference_terminator hlast
  have hreference : lastReference (lines ++ [last]) = lastReference lines := by
    rw [lastReference, List.filterMap_append, List.filterMap_cons_none hnone, List.filterMap_nil,
      List.append_nil, lastReference]
  rw [parseSendOutcome, parseSendOutcomeFrom_lines hlines, Option.or_none, hreference]
  cases result with
  | ok => cases lastReference lines <;> simp [parseSendOutcomeFrom, hnone, hlast, verdict]
  | _ => simp [parseSendOutcomeFrom, hnone, hlast, verdict]

theorem verdict_code (reference : Option Nat) (result : AtResult) (code : Nat) :
    (result = .cmsError code ∨ result = .cmeError code) ↔
      (verdict reference result).status = .failed ∧
        (verdict reference result).errorCode = some code := by
  cases result with
  | ok => cases reference <;> simp [verdict, SendOutcome.sent, SendOutcome.failed]
  | _ => simp [verdict, SendOutcome.failed]

theorem verdict_sent (reference : Option Nat) (result : AtResult) (r : Nat) :
    ((verdict reference result).status = .sent ∧ (verdict reference result).reference = some r) ↔
      result = .ok ∧ reference = some r := by
  cases result with
  | ok => cases reference <;> simp [verdict, SendOutcome.sent, SendOutcome.failed]
  | _ => simp [verdict, SendOutcome.failed]

/-! ## Both verdicts -/

/-- The result of an exchange and the outcome read from its lines agree, and the
answers left unread are those after the line that ended it. -/
theorem verdicts_agree {command : String} {script rest : List Answer} {e : AtExchange}
    {t : List Event} (h : collectUntilTerminator command script = ⟨.done e, rest, t⟩) :
    (e.result ≠ .timeout → ∃ (reads : List Answer) (a : Answer)
      (lines : List String) (last : String),
      script = reads ++ a :: rest ∧
      reads.map Answer.read = lines.map .line ∧ a.read = .line last ∧
      e.lines = lines.filter (fun l => !isBlank l) ++ [last] ∧
      classifyLine last = .terminator e.result ∧
      ∀ l ∈ lines, classifyLine l = .nonTerminating) ∧
    (e.result = .timeout → (∀ l ∈ e.lines, classifyLine l = .nonTerminating) ∧
      (parseSendOutcome e.lines).status = .failed ∧
      (parseSendOutcome e.lines).errorCode = none) ∧
    (∀ code, (e.result = .cmsError code ∨ e.result = .cmeError code) ↔
      (parseSendOutcome e.lines).status = .failed ∧
        (parseSendOutcome e.lines).errorCode = some code) ∧
    ∀ r, ((parseSendOutcome e.lines).status = .sent ∧
        (parseSendOutcome e.lines).reference = some r) ↔
      e.result = .ok ∧ (e.lines.filterMap parseCmgsReference).getLast? = some r := by
  obtain ⟨reads, a, lines, hscript, hreads, hlines, hend⟩ := iterate_collectStep h
  have hkept : ∀ l ∈ lines.filter (fun l => !isBlank l), classifyLine l = .nonTerminating :=
    fun l hl => hlines l (List.mem_filter.mp hl).1
  rcases hend with ⟨-, he⟩ | ⟨last, result, hread, hlast, he⟩
  · rw [List.nil_append] at he
    subst he
    have houtcome := parseSendOutcome_timeout hkept
    refine ⟨fun hne => absurd rfl hne, fun _ => ⟨hkept, ?_, ?_⟩, fun code => ?_, fun r => ?_⟩
    · rw [houtcome]; rfl
    · rw [houtcome]; rfl
    · simp [houtcome, SendOutcome.failed]
    · simp [houtcome, SendOutcome.failed]
  · rw [List.nil_append] at he
    subst he
    have houtcome := parseSendOutcome_terminator hkept hlast
    have hresult : result ≠ .timeout := by
      intro heq
      exact classifyLine_ne_timeout last (heq ▸ hlast)
    refine ⟨fun _ => ⟨reads, a, lines, last, hscript, hreads, hread, rfl, hlast, hlines⟩,
      fun heq => absurd heq hresult, fun code => ?_, fun r => ?_⟩
    · rw [houtcome]
      exact verdict_code _ _ _
    · rw [houtcome]
      exact verdict_sent _ _ _

theorem verdicts_agree_sent :
    (parseSendOutcome ["+CMGS: 7", "OK"]).status = .sent ∧
      (parseSendOutcome ["+CMGS: 7", "OK"]).reference = some 7 :=
  ((verdicts_agree (@collect_lines "AT+CMGS" ["", "+CMGS: 7"] "OK" .ok (by decide +kernel)
    (by decide +kernel) [{ read := .line "" }, { read := .line "+CMGS: 7" }, { read := .line "OK" }]
    rfl [])).2.2.2 7).mpr ⟨rfl, by decide +kernel⟩

end Modem
end GreenRelay
