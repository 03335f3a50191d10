/-
In-session work: initialization, status refresh, inbound retrieval, outbound
send with retries, and the request and notification loop of one connection.

Every function that may lose the port is a program that may fail; `attempt` is
where the source looks at the error instead of handing it on.  The queue of
announced storage indices is a local variable of the session, so it is passed
along and lost with the session; its changes are left in the trace.
-/
import GreenRelay.Modem.Transport
import GreenRelay.Sms.Segment

namespace GreenRelay
namespace Modem

open Sms

structure Config where
  serviceCenterNumber : Option String
  reopenMaxAttempts : Nat
  sendMaxAttempts : Nat
  sendRetryDelaySecs : Nat

def scanCmti : List String → List Nat → Prog (List Nat)
  | [], pending => pure pending
  | line :: lines, pending =>
    match parseCmtiIndex line with
    | some index => do
      emit (.pushed index)
      scanCmti lines (pending ++ [index])
    | none => scanCmti lines pending

/-! ## Initialization and status -/

def initCommands (cfg : Config) : List String :=
  ["AT+CMGF=1", "AT+CSCS=\"IRA\"", "AT+CSMP=17,167,0,0", "AT+CSDH=1"] ++
    match cfg.serviceCenterNumber with
    | some csca => ["AT+CSCA=\"" ++ csca ++ "\""]
    | none => []

def runCommands : List String → Bool → Prog Bool
  | [], ok => pure ok
  | command :: commands, ok => do
    let e ← exchange command
    runCommands commands (ok && e.result.isOk)

/-- Runs the setup sequence; false if a command was not answered OK. -/
def initializeModem (cfg : Config) : Prog Bool := runCommands (initCommands cfg) true

def refreshStatus : Prog ModemStatusSnapshot := do
  let cpin ← exchange "AT+CPIN?"
  let creg ← exchange "AT+CREG?"
  let csq ← exchange "AT+CSQ"
  let cops ← exchange "AT+COPS?"
  let snapshot : ModemStatusSnapshot :=
    { serialConnected := true
      responsive := cpin.result != .timeout
      simStatus := parseCpin cpin.lines
      registered := parseCregRegistered creg.lines
      signalPercent := parseCsqPercent csq.lines
      operator := parseCopsOperator cops.lines }
  emit (.status snapshot)
  pure snapshot

/-! ## Inbound messages -/

def cmgrCommand (index : Nat) : String := "AT+CMGR=" ++ toString index

def cmgdCommand (index : Nat) : String := "AT+CMGD=" ++ toString index

/-- The message an `AT+CMGR` exchange yields, if it ended in OK and parses. -/
def AtExchange.inbound (e : AtExchange) : Option ParsedInbound :=
  if e.result.isOk then parseCmgr e.response else none

/-- At most `attempts` reads of a stored message. -/
def readInbound (index : Nat) : Nat → List Nat → Prog (Option ParsedInbound × List Nat)
  | 0, pending => pure (none, pending)
  | attempts + 1, pending => do
    let e ← exchange (cmgrCommand index)
    let pending ← scanCmti e.lines pending
    match e.inbound with
    | some message => pure (some message, pending)
    | none => readInbound index attempts pending

def publishInbound (events : Bool) (rowId : Nat) (message : ParsedInbound) : Prog Unit :=
  if events then emit (.published rowId message) else pure ()

def auditDelete (index : Nat) (result : AtResult) : Prog Unit :=
  if result.isOk then pure ()
  else audit "inbound_delete_failed"
    ("AT+CMGD for index " ++ toString index ++ " returned " ++ result.text)

/-- Stores a message that was read and only then deletes it from the modem. -/
def storeInbound (events : Bool) (index : Nat) (message : ParsedInbound) (pending : List Nat) :
    Prog (List Nat) := do
  match ← createInboundMessage message with
  | .ok rowId => do
    publishInbound events rowId message
    let delete ← exchange (cmgdCommand index)
    let pending ← scanCmti delete.lines pending
    auditDelete index delete.result
    pure pending
  | .error text => do
    audit "inbound_persist_failed"
      ("persisting inbound at index " ++ toString index ++ " failed: " ++ text)
    pure pending

/-- Reads, persists and deletes the message at a storage index.  `events` says
whether there is a bus to publish on. -/
def handleInboundInner (events : Bool) (index : Nat) (pending : List Nat) :
    Prog (List Nat) := do
  match ← readInbound index 3 pending with
  | (none, pending) => do
    audit "inbound_read_failed"
      ("AT+CMGR for index " ++ toString index ++ " failed after 3 attempts")
    pure pending
  | (some message, pending) => storeInbound events index message pending

/-! ## Outbound messages -/

def codeText : Option Nat → String
  | some c => "Some(" ++ toString c ++ ")"
  | none => "None"

def retryPause (cfg : Config) (last : Bool) : Prog Unit :=
  if last then pure () else emit (.slept cfg.sendRetryDelaySecs)

/-- The attempts `attempt..=max_attempts` of a part, `left` of them. -/
def sendAttempts (cfg : Config) (toNumber part : String) (encoding : SmsEncoding) :
    Nat → Option Nat → Prog SendResult
  | 0, lastCode => do
    audit "send_failed" ("send failed after " ++ toString (max cfg.sendMaxAttempts 1) ++
      " attempts (last code " ++ codeText lastCode ++ ")")
    pure ⟨.failed, none, lastCode, some "maximum send attempts exhausted"⟩
  | left + 1, _ => do
    let e ← sendSmsPart toNumber part encoding
    emit (.submitted e)
    let outcome := parseSendOutcome e.lines
    if outcome.status = .sent then
      pure ⟨.sent, outcome.reference.map toString, none, none⟩
    else if e.result = .timeout then do
      audit "send_failed" "AT+CMGS timed out with no result"
      pure ⟨.failed, none, none, some "timeout"⟩
    else do
      retryPause cfg (left == 0)
      sendAttempts cfg toNumber part encoding left outcome.errorCode

def sendPartWithRetries (cfg : Config) (toNumber part : String) (encoding : SmsEncoding) :
    Prog SendResult :=
  sendAttempts cfg toNumber part encoding (max cfg.sendMaxAttempts 1) none

def sendAllSegmentsFrom (cfg : Config) (toNumber : String) (encoding : SmsEncoding) :
    List Segment → Option String → Prog SendResult
  | [], lastReference => pure ⟨.sent, lastReference, none, none⟩
  | segment :: segments, _ => do
    let result ← sendPartWithRetries cfg toNumber segment.text encoding
    match result.status with
    | .sent => sendAllSegmentsFrom cfg toNumber encoding segments result.reference
    | _ => pure result

def sendAllSegments (cfg : Config) (toNumber : String) (segments : List Segment)
    (encoding : SmsEncoding) : Prog SendResult :=
  sendAllSegmentsFrom cfg toNumber encoding segments none

/-- Sets the character set and the text-mode parameters; answers other than OK
are only logged. -/
def setCharset (cscs csmp : String) : Prog Unit := do
  let _ ← exchange ("AT+CSCS=\"" ++ cscs ++ "\"")
  let _ ← exchange ("AT+CSMP=" ++ csmp)
  pure ()

def deliverable (snapshot : ModemStatusSnapshot) : Bool :=
  snapshot.simStatus.isReady && snapshot.registered

/-- The sending of a segmented message.  A UCS2 message switches the character
set first and restores it afterwards, whether or not the segments went out; an
error of the restore itself is dropped. -/
def sendEncoded (cfg : Config) (toNumber : String) (segments : List Segment)
    (encoding : SmsEncoding) :
    Prog SendResult := do
  let _ ← exchange "AT+CMGF=1"
  match encoding with
  | .gsm7 => sendAllSegments cfg toNumber segments .gsm7
  | .ucs2 => do
    setCharset "UCS2" "17,167,0,8"
    let outcome ← Scripted.attempt (sendAllSegments cfg toNumber segments .ucs2)
    let _ ← Scripted.attempt (setCharset "IRA" "17,167,0,0")
    match outcome with
    | some result => pure result
    | none => Scripted.fail

def handleSend (cfg : Config) (status : ModemStatusSnapshot) (toNumber body : String) :
    Prog SendResult :=
  if deliverable status then
    match segmentMessage body with
    | .ok segments => sendEncoded cfg toNumber segments (messageEncoding body)
    | .error e => do
      audit "send_failed" ("segmentation error: " ++ e.message)
      pure ⟨.failed, none, none, some e.message⟩
  else pure ⟨.queued, none, none, some "modem not ready for delivery; will retry"⟩

/-! ## The session loop -/

structure SessionState where
  pending : List Nat
  refreshed : Bool
  status : ModemStatusSnapshot

def handleRaw (command : String) (s : SessionState) : Prog SessionState := do
  let e ← exchange command
  let pending ← scanCmti e.lines s.pending
  let status := { s.status with responsive := e.result != .timeout }
  emit (.status status)
  emit (.repliedRaw e)
  pure { s with pending := pending, status := status }

def handleRequest (cfg : Config) (s : SessionState) : ModemRequest → Prog SessionState
  | .raw command => handleRaw command s
  | .sendSms toNumber body => do
    let result ← handleSend cfg s.status toNumber body
    emit (.repliedSend result)
    pure s

def drainStep (events : Bool) : List Nat → Prog (List Nat ⊕ Unit)
  | [] => pure (.inr ())
  | index :: pending => do
    emit (.popped index)
    let pending ← handleInboundInner events index pending
    pure (.inl pending)

/-- `while let Some(index) = pending.pop_front()`. -/
def drainPending (events : Bool) (pending : List Nat) : Prog Unit :=
  Scripted.iterate (drainStep events) pending

/-- A session is due for its first refresh at once. -/
def dueForRefresh (s : SessionState) : Prog Bool :=
  if s.refreshed then refreshDue else pure true

def refreshIfDue (s : SessionState) : Prog SessionState := do
  let due ← dueForRefresh s
  if due then do
    let status ← refreshStatus
    pure { s with refreshed := true, status := status }
  else pure s

def pushPolled (s : SessionState) (line : String) : Prog SessionState := do
  let pending ← scanCmti [line] s.pending
  pure { s with pending := pending }

abbrev SessionEnd := SessionOutcome × ModemStatusSnapshot

def serveTurn (cfg : Config) (s : SessionState) : Prog (SessionState ⊕ SessionEnd) := do
  match ← select with
  | .closed => pure (.inr (.channelClosed, s.status))
  | .lost => pure (.inr (.disconnected, s.status))
  | .line none => pure (.inl s)
  | .line (some line) => do
    let s ← pushPolled s line
    pure (.inl s)
  | .request r => do
    match ← Scripted.attempt (handleRequest cfg s r) with
    | some s => pure (.inl s)
    | none => pure (.inr (.disconnected, s.status))

def sessionStep (cfg : Config) (events : Bool) (s : SessionState) :
    Prog (SessionState ⊕ SessionEnd) := do
  match ← Scripted.attempt (drainPending events s.pending) with
  | none => pure (.inr (.disconnected, s.status))
  | some () => do
    match ← Scripted.attempt (refreshIfDue { s with pending := [] }) with
    | none => pure (.inr (.disconnected, s.status))
    | some s => serveTurn cfg s

def runSessionInner (cfg : Config) (events : Bool) (status : ModemStatusSnapshot) :
    Prog SessionEnd := do
  let r ← Scripted.iterate (sessionStep cfg events) ⟨[], false, status⟩
  emit (.ended r.1)
  pure r

end Modem
end GreenRelay
