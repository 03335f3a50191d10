/-
The world of the modem manager: what it writes, what it is answered, and what
its runs leave behind.

The manager owns the serial port, so all it meets is a sequence of answers: how
a write went, what a read delivered, whether a statement of the database went
through, which branch of a `select!` was ready.  `Answer` has one field for
each kind of operation and an operation looks at its own field only.  Durations
are not modelled: that a deadline has passed is one of the answers.
-/
import GreenRelay.Lib.Scripted
import GreenRelay.Modem.Protocol

namespace GreenRelay
namespace Modem

open Sms Unicode

/-- Everything the service writes to the port. -/
inductive Output where
  | command (text : String)
  | header (toNumber : String) (encoding : SmsEncoding)
  | body (part : String) (encoding : SmsEncoding)
  | abort
  deriving DecidableEq, Repr

def smsSubmit : UInt8 := 0x1A

def smsAbort : UInt8 := 0x1B

def Output.bytes : Output → List UInt8
  | .command text => utf8 text.toList ++ [13]
  | .header toNumber encoding => buildCmgsHeader toNumber encoding
  | .body part encoding => buildCmgsBody part encoding
  | .abort => [smsAbort]

/-- The terminal result of an outbound send. -/
structure SendResult where
  status : MessageStatus
  reference : Option String
  errorCode : Option Nat
  error : Option String
  deriving DecidableEq, Repr

inductive ModemRequest where
  | raw (command : String)
  | sendSms (toNumber body : String)
  deriving DecidableEq, Repr

inductive SessionOutcome where
  | channelClosed
  | disconnected
  deriving DecidableEq, Repr

/-! ## Answers -/

/-- A write that fails may have sent a part of its bytes. -/
inductive WriteReply where
  | ok
  | ioError (sent : Nat)
  deriving DecidableEq, Repr

def WriteReply.sent (r : WriteReply) (data : List UInt8) : List UInt8 :=
  match r with
  | .ok => data
  | .ioError n => data.take n

theorem WriteReply.sent_isPrefix (r : WriteReply) (data : List UInt8) : r.sent data <+: data := by
  cases r with
  | ok => exact List.prefix_rfl
  | ioError n => exact List.take_prefix n data

inductive ReadReply where
  | line (text : String)
  | timeout
  | ioError
  deriving DecidableEq, Repr

/-- How the wait for the `>` prompt ends, with the lines it consumed on the way. -/
inductive PromptReply where
  | prompt (dropped : List String)
  | timeout (dropped : List String)
  | ioError (dropped : List String)
  deriving DecidableEq, Repr

def PromptReply.dropped : PromptReply → List String
  | .prompt ls => ls
  | .timeout ls => ls
  | .ioError ls => ls

inductive DbReply where
  | ok (rowId : Nat)
  | error (text : String)
  deriving DecidableEq, Repr

def DbReply.isOk : DbReply → Bool
  | .ok _ => true
  | .error _ => false

/-- The branch of the `select!` in the session loop that is ready first. -/
inductive Turn where
  | request (r : ModemRequest)
  | closed
  | poll
  deriving DecidableEq, Repr

structure Answer where
  write : WriteReply := .ok
  read : ReadReply := .timeout
  prompt : PromptReply := .timeout []
  db : DbReply := .ok 0
  due : Bool := false
  turn : Turn := .poll
  opened : Bool := true
  deriving Repr

/-! ## Events -/

inductive Event where
  | opened (ok : Bool)
  | wrote (out : Output) (reply : WriteReply)
  | read (reply : ReadReply)
  | prompted (reply : PromptReply)
  | exchanged (e : AtExchange)
  | submitted (e : AtExchange)
  | pushed (index : Nat)
  | popped (index : Nat)
  | inserted (message : ParsedInbound) (reply : DbReply)
  | published (rowId : Nat) (message : ParsedInbound)
  | audited (eventType detail : String) (reply : DbReply)
  | status (s : ModemStatusSnapshot)
  | clock (due : Bool)
  | took (r : ModemRequest)
  | repliedRaw (e : AtExchange)
  | repliedSend (r : SendResult)
  | polled (reply : ReadReply)
  | closed
  | ended (outcome : SessionOutcome)
  | slept (secs : Nat)
  deriving DecidableEq, Repr

def Event.isIoError : Event → Bool
  | .wrote _ (.ioError _) | .read .ioError | .prompted (.ioError _) | .polled .ioError => true
  | _ => false

abbrev Prog (α : Type) : Type := Scripted.Prog Answer Event α

/-! ## Operations -/

def writeBytes (out : Output) : Prog Unit :=
  Scripted.perform (fun a => .wrote out a.write) (fun a =>
    match a.write with
    | .ok => some ()
    | .ioError _ => none)

/-- A deadline that has passed before the read is the same answer as a read
that runs out of time: in both cases nothing is read. -/
def readLine : Prog (Option String) :=
  Scripted.perform (fun a => .read a.read) (fun a =>
    match a.read with
    | .line text => some (some text)
    | .timeout => some none
    | .ioError => none)

def waitForPrompt : Prog Bool :=
  Scripted.perform (fun a => .prompted a.prompt) (fun a =>
    match a.prompt with
    | .prompt _ => some true
    | .timeout _ => some false
    | .ioError _ => none)

def createInboundMessage (message : ParsedInbound) : Prog DbReply :=
  Scripted.perform (fun a => .inserted message a.db) (fun a => some a.db)

def audit (eventType detail : String) : Prog Unit :=
  -- An insert that fails is only logged.
  Scripted.perform (fun a => .audited eventType detail a.db) (fun _ => some ())

def refreshDue : Prog Bool := Scripted.perform (fun a => .clock a.due) (fun a => some a.due)

def openSerial : Prog Bool := Scripted.perform (fun a => .opened a.opened) (fun a => some a.opened)

def emit (e : Event) : Prog Unit := Scripted.emit e

/-- What the `select!` hands to the session loop. -/
inductive Choice where
  | request (r : ModemRequest)
  | closed
  | line (text : Option String)
  | lost
  deriving DecidableEq, Repr

def ReadReply.choice : ReadReply → Choice
  | .line text => .line (some text)
  | .timeout => .line none
  | .ioError => .lost

def Answer.choice (a : Answer) : Choice :=
  match a.turn with
  | .request r => .request r
  | .closed => .closed
  | .poll => a.read.choice

def Answer.choiceEvent (a : Answer) : Event :=
  match a.turn with
  | .request r => .took r
  | .closed => .closed
  | .poll => .polled a.read

def select : Prog Choice := Scripted.perform Answer.choiceEvent (fun a => some a.choice)

end Modem
end GreenRelay
