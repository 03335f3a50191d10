/-
Command exchanges and the two-phase submission of a part.
-/
import GreenRelay.Modem.World

namespace GreenRelay
namespace Modem

open Sms

def collectStep (command : String) (lines : List String) :
    Prog (List String ⊕ AtExchange) := do
  match ← readLine with
  | none => pure (.inr ⟨command, lines, .timeout⟩)
  | some line =>
    match classifyLine line with
    | .terminator result => pure (.inr ⟨command, lines ++ [line], result⟩)
    | .nonTerminating => pure (.inl (if isBlank line then lines else lines ++ [line]))

/-- Reads response lines until a terminator or the deadline. -/
def collectUntilTerminator (command : String) : Prog AtExchange :=
  Scripted.iterate (collectStep command) []

/-- Writes a command and collects its response. -/
def exchange (command : String) : Prog AtExchange := do
  writeBytes (.command command)
  let e ← collectUntilTerminator command
  emit (.exchanged e)
  pure e

/-- Writes ESC and drains what acknowledges it. -/
def abortToCommandMode : Prog Unit := do
  writeBytes .abort
  let _ ← collectUntilTerminator "ESC"
  pure ()

def recoverCommandMode : Prog Unit := abortToCommandMode

/-- Phase 3 and 4 of a submission: the body, the result, and the abort that
releases a modem which did not answer. -/
def submitBody (part : String) (encoding : SmsEncoding) : Prog AtExchange := do
  writeBytes (.body part encoding)
  let e ← collectUntilTerminator "AT+CMGS"
  match e.result with
  | .timeout => do abortToCommandMode; pure e
  | _ => pure e

/-- Submits one part: header, prompt, body, result.  A missing prompt is
reported as a timeout. -/
def sendSmsPart (toNumber part : String) (encoding : SmsEncoding) : Prog AtExchange := do
  writeBytes (.header toNumber encoding)
  match ← waitForPrompt with
  | true => submitBody part encoding
  | false => do
    abortToCommandMode
    pure ⟨"AT+CMGS", [], .timeout⟩

end Modem
end GreenRelay
