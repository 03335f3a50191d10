/-
The modem manager: one session per connection, and the backoff between them.
-/
import GreenRelay.Modem.Session

namespace GreenRelay
namespace Modem

structure ManagerState where
  attempt : Nat
  status : ModemStatusSnapshot

def initialSnapshot : ModemStatusSnapshot :=
  { serialConnected := false
    simStatus := .unknown
    registered := false
    responsive := false
    signalPercent := none
    operator := none }

def markConnected (status : ModemStatusSnapshot) : Prog ModemStatusSnapshot := do
  let status := { status with serialConnected := true, responsive := true }
  emit (.status status)
  pure status

def markDisconnected (status : ModemStatusSnapshot) : Prog ModemStatusSnapshot := do
  let status := { status with serialConnected := false, responsive := false }
  emit (.status status)
  pure status

/-- Counts a failed cycle and waits, or gives up. -/
def backoffOrGiveup (cfg : Config) (s : ManagerState) : Prog (ManagerState ⊕ Unit) := do
  let attempt := min (s.attempt + 1) 4294967295
  if cfg.reopenMaxAttempts < attempt then do
    audit "modem_reconnect_exhausted"
      ("exhausted " ++ toString cfg.reopenMaxAttempts ++ " serial reopen attempts")
    let _ ← markDisconnected s.status
    pure (.inr ())
  else do
    emit (.slept (reconnectBackoffSecs attempt))
    pure (.inl { s with attempt := attempt })

def dropConnection (cfg : Config) (s : ManagerState) : Prog (ManagerState ⊕ Unit) := do
  let status ← markDisconnected s.status
  backoffOrGiveup cfg { s with status := status }

def auditInit (ok : Bool) : Prog Unit :=
  if ok then pure ()
  else audit "modem_init_failed" "one or more initialization commands returned an error"

/-- The session on a connection that has been set up. -/
def serveConnection (cfg : Config) (s : ManagerState) : Prog (ManagerState ⊕ Unit) := do
  let (outcome, status) ← runSessionInner cfg true s.status
  let status ← markDisconnected status
  match outcome with
  | .channelClosed => pure (.inr ())
  | .disconnected => backoffOrGiveup cfg { s with status := status }

def managerStep (cfg : Config) (s : ManagerState) : Prog (ManagerState ⊕ Unit) := do
  match ← openSerial with
  | false => dropConnection cfg s
  | true => do
    let status ← markConnected s.status
    let s : ManagerState := ⟨0, status⟩
    match ← Scripted.attempt recoverCommandMode with
    | none => dropConnection cfg s
    | some () => do
      match ← Scripted.attempt (initializeModem cfg) with
      | none => dropConnection cfg s
      | some ok => do
        auditInit ok
        serveConnection cfg s

/-- Owns the serial port and reconnects on loss. -/
def runModemManager (cfg : Config) : Prog Unit :=
  Scripted.iterate (managerStep cfg) ⟨0, initialSnapshot⟩

/-! ## Pieces of concrete scripts -/

def plainConfig : Config := ⟨none, 3, 2, 1⟩

/-- The answer of an operation that goes through, or of a read that times out. -/
def Answer.quiet : Answer := { write := .ok }

def Answer.line (text : String) : Answer := { read := .line text }

def Answer.took (r : ModemRequest) : Answer := { turn := .request r }

/-- A command that is written and answered in time. -/
def answered (lines : List String) : List Answer := .quiet :: lines.map .line

/-- The status of a modem that is ready to send. -/
def refreshed : List Answer :=
  answered ["+CPIN: READY", "OK"] ++ answered ["+CREG: 0,1", "OK"] ++
    answered ["OK"] ++ answered ["OK"]

/-- A connection that comes up: the ESC, the setup sequence, and the status. -/
def connects : List Answer :=
  [.quiet, .quiet, .quiet] ++
    answered ["OK"] ++ answered ["OK"] ++ answered ["OK"] ++ answered ["OK"] ++ refreshed

end Modem
end GreenRelay
