/-
Command echo during a submission.

The service never turns the echo of the modem off, so what is typed at the
prompt comes back line by line and ahead of the response, and every line of it
is read like a line of the response.  An attempt is looked at twice, with echo
and without, for the same response.
-/
import GreenRelay.Modem.Attempts
import GreenRelay.Modem.Device

namespace GreenRelay
namespace Modem

open Sms Scripted

/-! ## The same response with echo and without -/

/-- The lines in which a text comes back. -/
def echoed (echo : Bool) (part : String) : List ReadReply :=
  if echo then (textLines part).map .line else []

/-- The answers to an attempt that is prompted.  What comes before the prompt, as
the echo of the header does, is dropped by the wait for it; after the body comes
its echo and then `response`. -/
def Attempted (echo : Bool) (part : String) (response : List ReadReply) (script : List Answer) :
    Prop :=
  ∃ (header prompt body : Answer) (dropped : List String) (after : List Answer),
    script = header :: prompt :: body :: after ∧ header.write = .ok ∧
      prompt.prompt = .prompt dropped ∧ body.write = .ok ∧
        after.map Answer.read = echoed echo part ++ response

/-- What an attempt makes of a response is the same with echo and without. -/
def EchoHarmless (toNumber part : String) : Prop :=
  ∀ (response : List ReadReply) (script script' : List Answer) (e e' : AtExchange),
    Attempted true part response script → Attempted false part response script' →
    (sendSmsPart toNumber part .gsm7 script).outcome = .done e →
    (sendSmsPart toNumber part .gsm7 script').outcome = .done e' →
    parseSendOutcome e.lines = parseSendOutcome e'.lines

/-- No line of the text reads as a result or as a message reference. -/
def PlainLines (part : String) : Prop :=
  ∀ line ∈ textLines part, classifyLine line = .nonTerminating ∧ parseCmgsReference line = none

theorem Attempted.heard {echo : Bool} {toNumber part : String} {response : List ReadReply}
    {script : List Answer} {e : AtExchange} (h : Attempted echo part response script)
    (hdone : (sendSmsPart toNumber part .gsm7 script).outcome = .done e) :
    Modem.heard "AT+CMGS" [] (echoed echo part ++ response) = .done e := by
  obtain ⟨header, prompt, body, dropped, after, rfl, hheader, hprompt, hbody, hreads⟩ := h
  rw [sendSmsPart_await toNumber part .gsm7 hheader hprompt hbody] at hdone
  rw [← hreads]
  exact awaitResult_heard hdone

/-- The answers of a modem that prompts and then sends what it is told to. -/
def prompts (replies : List ReadReply) : List Answer :=
  {} :: { prompt := .prompt [] } :: {} :: replies.map (fun r => { read := r })

theorem attempted_prompts (echo : Bool) (part : String) (response : List ReadReply) :
    Attempted echo part response (prompts (echoed echo part ++ response)) := by
  refine ⟨_, _, _, [], _, rfl, rfl, rfl, rfl, ?_⟩
  rw [List.map_map]
  exact List.map_id _

theorem prompts_done {toNumber part : String} {replies : List ReadReply} {e : AtExchange}
    (h : heard "AT+CMGS" [] replies = .done e) (hresult : e.result ≠ .timeout) :
    (sendSmsPart toNumber part .gsm7 (prompts replies)).outcome = .done e := by
  have hreads : (replies.map (fun r => ({ read := r } : Answer))).map Answer.read = replies := by
    rw [List.map_map]
    exact List.map_id _
  unfold prompts
  rw [sendSmsPart_await toNumber part .gsm7 rfl rfl rfl]
  apply awaitResult_of_heard _ hresult
  rw [hreads]
  exact h

/-- A text without such lines adds nothing that decides. -/
theorem echoHarmless_of_plain {part : String} (h : PlainLines part) (toNumber : String) :
    EchoHarmless toNumber part := by
  intro response script script' e e' hon hoff hdone hdone'
  have hnot : ∀ l ∈ textLines part, classifyLine l = .nonTerminating := fun l hl => (h l hl).1
  have hheard := hon.heard hdone
  have hheard' := hoff.heard hdone'
  rw [echoed, if_pos rfl, heard_lines "AT+CMGS" hnot, List.nil_append] at hheard
  have hlonger := heard_prefix hheard' ((textLines part).filter (fun l => !isBlank l))
  rw [List.append_nil] at hlonger
  have he := Outcome.done.inj (hheard.symm.trans hlonger)
  rw [he]
  obtain ⟨found, hfound, hiff⟩ :=
    @parseSendOutcomeFrom_append ((textLines part).filter (fun l => !isBlank l)) e'.lines
      (fun l hl => hnot l (List.mem_filter.mp hl).1) none
  have hnone : found = none := by
    rw [← Option.not_isSome_iff_eq_none, hiff]
    rintro (hsome | ⟨l, hl, hreference⟩)
    · cases hsome
    · rw [(h l (List.mem_filter.mp hl).1).2] at hreference
      cases hreference
  rw [parseSendOutcome, hfound, hnone]
  rfl

/-- Lines end an exchange at the first of them that is a result, if there is one. -/
theorem terminator_cases (ls : List String) :
    (∀ l ∈ ls, classifyLine l = .nonTerminating) ∨
      ∃ before last after result, ls = before ++ last :: after ∧
        (∀ l ∈ before, classifyLine l = .nonTerminating) ∧
          classifyLine last = .terminator result := by
  induction ls with
  | nil => exact .inl (fun l hl => absurd hl List.not_mem_nil)
  | cons l ls ih =>
    cases hclass : classifyLine l with
    | terminator result =>
      exact .inr ⟨[], l, ls, result, rfl, fun k hk => absurd hk List.not_mem_nil, hclass⟩
    | nonTerminating =>
      rcases ih with hall | ⟨before, last, after, result, rfl, hbefore, hlast⟩
      · left
        intro k hk
        rcases List.mem_cons.mp hk with rfl | hk
        · exact hclass
        · exact hall k hk
      · refine .inr ⟨l :: before, last, after, result, rfl, ?_, hlast⟩
        intro k hk
        rcases List.mem_cons.mp hk with rfl | hk
        · exact hclass
        · exact hbefore k hk

/-- A text that an attempt is to be indifferent to has no line that ends it. -/
theorem nonTerminating_of_harmless {toNumber part : String} (h : EchoHarmless toNumber part) :
    ∀ l ∈ textLines part, classifyLine l = .nonTerminating := by
  rcases terminator_cases (textLines part) with hall |
    ⟨before, last, after, result, hls, hbefore, hlast⟩
  · exact hall
  · -- The exchange ends with the echo, so two acknowledgements cannot be told apart.
    exfalso
    have hresult : result ≠ .timeout := fun heq => classifyLine_ne_timeout last (heq ▸ hlast)
    have hecho : ∀ response, heard "AT+CMGS" [] (echoed true part ++ response) =
        .done ⟨"AT+CMGS", before.filter (fun l => !isBlank l) ++ [last], result⟩ := by
      intro response
      rw [echoed, if_pos rfl, hls, List.map_append, List.append_assoc,
        heard_lines "AT+CMGS" hbefore, List.map_cons, List.cons_append,
        heard_terminator _ _ hlast, List.nil_append]
    have hoff : ∀ reference : Bool, ∃ response e', heard "AT+CMGS" [] response = .done e' ∧
        e'.result ≠ .timeout ∧
          (parseSendOutcome e'.lines).reference = some (if reference then 1 else 0) := by
      intro reference
      cases reference with
      | false =>
        exact ⟨[.line "+CMGS: 0", .line "OK"], ⟨"AT+CMGS", ["+CMGS: 0", "OK"], .ok⟩,
          by decide +kernel, by decide, by decide +kernel⟩
      | true =>
        exact ⟨[.line "+CMGS: 1", .line "OK"], ⟨"AT+CMGS", ["+CMGS: 1", "OK"], .ok⟩,
          by decide +kernel, by decide, by decide +kernel⟩
    have hsame : ∀ reference : Bool,
        (parseSendOutcome (before.filter (fun l => !isBlank l) ++ [last])).reference =
          some (if reference then 1 else 0) := by
      intro reference
      obtain ⟨response, e', hheard, hdone, hreference⟩ := hoff reference
      have heq := h response _ _ _ _ (attempted_prompts true part response)
        (attempted_prompts false part response) (prompts_done (hecho response) hresult)
        (prompts_done hheard hdone)
      rw [heq, hreference]
    exact absurd ((hsame false).symm.trans (hsame true)) (by decide)

/-- Nor has it a line that gives a reference, which would acknowledge an `OK`. -/
theorem plainLines_of_harmless {toNumber part : String} (h : EchoHarmless toNumber part) :
    PlainLines part := by
  have hnot := nonTerminating_of_harmless h
  intro line hline
  refine ⟨hnot line hline, ?_⟩
  by_contra hreference
  have hsome : (parseCmgsReference line).isSome := Option.ne_none_iff_isSome.mp hreference
  have hok : classifyLine "OK" = .terminator .ok := by decide
  have hecho : heard "AT+CMGS" [] (echoed true part ++ [.line "OK"]) =
      .done ⟨"AT+CMGS", (textLines part).filter (fun l => !isBlank l) ++ ["OK"], .ok⟩ := by
    rw [echoed, if_pos rfl, heard_lines "AT+CMGS" hnot, heard_terminator _ _ hok, List.nil_append]
  have hoff : heard "AT+CMGS" [] [.line "OK"] = .done ⟨"AT+CMGS", ["OK"], .ok⟩ := by decide +kernel
  have hresult : AtResult.ok ≠ .timeout := by decide
  have hsame := h _ _ _ _ _ (attempted_prompts true part [.line "OK"])
    (attempted_prompts false part [.line "OK"]) (prompts_done hecho hresult)
    (prompts_done hoff hresult)
  obtain ⟨found, hfound, hiff⟩ :=
    @parseSendOutcomeFrom_append ((textLines part).filter (fun l => !isBlank l)) ["OK"]
      (fun l hl => hnot l (List.mem_filter.mp hl).1) none
  have hblank : isBlank line = false := by
    cases hb : isBlank line with
    | false => rfl
    | true =>
      have hnil : Text.trim line.toList = [] := List.isEmpty_iff.mp hb
      rw [parseCmgsReference, hnil] at hsome
      cases hsome
  have hkept : line ∈ (textLines part).filter (fun l => !isBlank l) :=
    List.mem_filter.mpr ⟨hline, by simp [hblank]⟩
  obtain ⟨r, rfl⟩ := Option.isSome_iff_exists.mp (hiff.mpr (.inr ⟨line, hkept, hsome⟩))
  have hsent : (parseSendOutcome ((textLines part).filter (fun l => !isBlank l) ++ ["OK"])).status =
      .sent := by
    rw [parseSendOutcome, hfound]
    simp only [parseSendOutcomeFrom, hok, show parseCmgsReference "OK" = none by decide +kernel]
    rfl
  rw [hsame] at hsent
  exact absurd hsent (by decide +kernel)

/-- Echo changes what an attempt makes of a response for exactly those texts with a
line that reads as a result or as a message reference. -/
theorem echo_harmless_iff (toNumber part : String) :
    EchoHarmless toNumber part ↔ PlainLines part :=
  ⟨plainLines_of_harmless, fun h => echoHarmless_of_plain h toNumber⟩

/-- The text `+CMGS: 5` acknowledges itself. -/
theorem echo_not_harmless : ¬ ∀ toNumber part, isGsm7 part = true → EchoHarmless toNumber part := by
  intro h
  have hplain := plainLines_of_harmless (h "+15551234567" "+CMGS: 5" (by decide +kernel))
  exact absurd (hplain "+CMGS: 5" (by decide +kernel)).2 (by decide +kernel)

end Modem
end GreenRelay
