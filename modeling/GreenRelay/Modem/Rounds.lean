/-
The loops of the session and of the manager, round by round.

`iterate` bounds a loop by the answers that are left.  Every round that goes on
takes one of them: the drain reads a message, the session loop waits for its next
turn, and the manager opens the port.  So the bound cuts no loop short.
-/
import GreenRelay.Modem.Exchanges
import GreenRelay.Modem.Manager

namespace GreenRelay
namespace Modem

open Sms Scripted

/-! ## Exchanges -/

theorem takes_write (out : Output) : Takes (writeBytes out) := takes_perform _ _

theorem causal_audit (eventType detail : String) : Causal (audit eventType detail) :=
  causal_perform _ _

theorem causal_collect (command : String) : Causal (collectUntilTerminator command) := by
  refine causal_iterate (fun lines => causal_bind (causal_perform _ _) (fun read => ?_)) []
  cases read with
  | none => exact causal_pure _
  | some line =>
    simp only
    cases classifyLine line <;> exact causal_pure _

theorem takes_exchange (command : String) : Takes (exchange command) :=
  takes_bind (takes_write _) (fun _ => causal_bind (causal_collect command)
    (fun e => causal_bind (causal_emit _) (fun _ => causal_pure e)))

theorem causal_exchange (command : String) : Causal (exchange command) :=
  (takes_exchange command).causal

theorem causal_abort : Causal abortToCommandMode :=
  causal_bind (takes_write _).causal
    (fun _ => causal_bind (causal_collect _) (fun _ => causal_pure ()))

theorem causal_scanCmti (lines : List String) (pending : List Nat) :
    Causal (scanCmti lines pending) := by
  induction lines generalizing pending with
  | nil => exact causal_pure pending
  | cons line lines ih =>
    unfold scanCmti
    cases parseCmtiIndex line with
    | none => exact ih pending
    | some index => exact causal_bind (causal_emit _) (fun _ => ih _)

/-! ## Inbound messages -/

theorem takes_readInbound (index attempts : Nat) (pending : List Nat) :
    Takes (readInbound index (attempts + 1) pending) := by
  have hread : ∀ attempts pending, Causal (readInbound index attempts pending) := by
    intro attempts
    induction attempts with
    | zero => exact fun pending => causal_pure _
    | succ attempts ih =>
      intro pending
      refine causal_bind (causal_exchange _) (fun e =>
        causal_bind (causal_scanCmti _ _) (fun pending => ?_))
      cases e.inbound with
      | none => exact ih pending
      | some message => exact causal_pure _
  refine takes_bind (takes_exchange _) (fun e =>
    causal_bind (causal_scanCmti _ _) (fun pending => ?_))
  cases e.inbound with
  | none => exact hread attempts pending
  | some message => exact causal_pure _

theorem causal_storeInbound (events : Bool) (index : Nat) (message : ParsedInbound)
    (pending : List Nat) : Causal (storeInbound events index message pending) := by
  refine causal_bind (causal_perform _ _) (fun stored => ?_)
  cases stored with
  | error text => exact causal_bind (causal_audit _ _) (fun _ => causal_pure pending)
  | ok rowId =>
    have hpublish : Causal (publishInbound events rowId message) := by
      unfold publishInbound
      split
      · exact causal_emit _
      · exact causal_pure ()
    refine causal_bind hpublish (fun _ => causal_bind (causal_exchange _) (fun delete =>
      causal_bind (causal_scanCmti _ _) (fun pending => causal_bind ?_
        (fun _ => causal_pure pending))))
    unfold auditDelete
    split
    · exact causal_pure ()
    · exact causal_audit _ _

theorem takes_handleInboundInner (events : Bool) (index : Nat) (pending : List Nat) :
    Takes (handleInboundInner events index pending) := by
  refine takes_bind (takes_readInbound index 2 pending) (fun found => ?_)
  obtain ⟨message, pending⟩ := found
  cases message with
  | none => exact causal_bind (causal_audit _ _) (fun _ => causal_pure pending)
  | some message => exact causal_storeInbound events index message pending

/-! ## Outbound messages -/

theorem causal_sendSmsPart (toNumber part : String) (encoding : SmsEncoding) :
    Causal (sendSmsPart toNumber part encoding) := by
  refine causal_bind (takes_write _).causal (fun _ =>
    causal_bind (causal_perform _ _) (fun prompted => ?_))
  cases prompted with
  | false => exact causal_bind causal_abort (fun _ => causal_pure _)
  | true =>
    refine causal_bind (takes_write _).causal (fun _ =>
      causal_bind (causal_collect _) (fun e => ?_))
    cases e.result with
    | timeout => exact causal_bind causal_abort (fun _ => causal_pure e)
    | _ => exact causal_pure e

theorem causal_sendAttempts (cfg : Config) (toNumber part : String) (encoding : SmsEncoding)
    (left : Nat) (code : Option Nat) :
    Causal (sendAttempts cfg toNumber part encoding left code) := by
  induction left generalizing code with
  | zero => exact causal_bind (causal_audit _ _) (fun _ => causal_pure _)
  | succ left ih =>
    refine causal_bind (causal_sendSmsPart toNumber part encoding) (fun e =>
      causal_bind (causal_emit _) (fun _ => ?_))
    simp only
    split
    · exact causal_pure _
    · split
      · exact causal_bind (causal_audit _ _) (fun _ => causal_pure _)
      · refine causal_bind ?_ (fun _ => ih _)
        unfold retryPause
        split
        · exact causal_pure ()
        · exact causal_emit _

theorem causal_sendAllSegments (cfg : Config) (toNumber : String) (segments : List Segment)
    (encoding : SmsEncoding) : Causal (sendAllSegments cfg toNumber segments encoding) := by
  have hfrom : ∀ reference,
      Causal (sendAllSegmentsFrom cfg toNumber encoding segments reference) := by
    induction segments with
    | nil => exact fun reference => causal_pure _
    | cons segment segments ih =>
      refine fun reference => causal_bind
        (causal_sendAttempts cfg toNumber segment.text encoding _ _) (fun result => ?_)
      cases result.status with
      | sent => exact ih result.reference
      | _ => exact causal_pure result
  exact hfrom none

theorem causal_setCharset (cscs csmp : String) : Causal (setCharset cscs csmp) :=
  causal_bind (causal_exchange _)
    (fun _ => causal_bind (causal_exchange _) (fun _ => causal_pure ()))

theorem causal_sendEncoded (cfg : Config) (toNumber : String) (segments : List Segment)
    (encoding : SmsEncoding) : Causal (sendEncoded cfg toNumber segments encoding) := by
  have hparts := causal_sendAllSegments cfg toNumber segments
  refine causal_bind (causal_exchange _) (fun _ => ?_)
  cases encoding with
  | gsm7 => exact hparts .gsm7
  | ucs2 =>
    refine causal_bind (causal_setCharset _ _) (fun _ =>
      causal_bind (causal_attempt (hparts .ucs2)) (fun outcome =>
        causal_bind (causal_attempt (causal_setCharset _ _)) (fun _ => ?_)))
    cases outcome with
    | none => exact causal_fail
    | some result => exact causal_pure result

theorem causal_handleSend (cfg : Config) (status : ModemStatusSnapshot) (toNumber body : String) :
    Causal (handleSend cfg status toNumber body) := by
  unfold handleSend
  split
  · split
    · exact causal_sendEncoded cfg toNumber _ _
    · exact causal_bind (causal_audit _ _) (fun _ => causal_pure _)
  · exact causal_pure _

/-! ## The session loop -/

theorem advancing_drainStep (events : Bool) (pending : List Nat) :
    Advancing (drainStep events pending) := by
  cases pending with
  | nil => exact advancing_leave ()
  | cons index pending =>
    have hread := takes_handleInboundInner events index pending
    exact advancing_bind (causal_emit _)
      (fun _ => (takes_bind hread (fun _ => causal_pure _)).advancing)

theorem causal_drainPending (events : Bool) (pending : List Nat) :
    Causal (drainPending events pending) :=
  causal_iterate (fun pending => (advancing_drainStep events pending).causal) pending

theorem causal_refreshIfDue (s : SessionState) : Causal (refreshIfDue s) := by
  have hdue : Causal (dueForRefresh s) := by
    unfold dueForRefresh
    split
    · exact causal_perform _ _
    · exact causal_pure true
  have hrefresh : Causal refreshStatus :=
    causal_bind (causal_exchange _) (fun _ => causal_bind (causal_exchange _) (fun _ =>
      causal_bind (causal_exchange _) (fun _ => causal_bind (causal_exchange _) (fun _ =>
        causal_bind (causal_emit _) (fun _ => causal_pure _)))))
  refine causal_bind hdue (fun due => ?_)
  split
  · exact causal_bind hrefresh (fun _ => causal_pure _)
  · exact causal_pure s

theorem causal_handleRequest (cfg : Config) (s : SessionState) (r : ModemRequest) :
    Causal (handleRequest cfg s r) := by
  cases r with
  | raw command =>
    exact causal_bind (causal_exchange command) (fun e =>
      causal_bind (causal_scanCmti _ _) (fun pending =>
        causal_bind (causal_emit _) (fun _ =>
          causal_bind (causal_emit _) (fun _ => causal_pure _))))
  | sendSms toNumber body =>
    exact causal_bind (causal_handleSend cfg s.status toNumber body) (fun result =>
      causal_bind (causal_emit _) (fun _ => causal_pure s))

theorem takes_serveTurn (cfg : Config) (s : SessionState) : Takes (serveTurn cfg s) := by
  refine takes_bind (takes_perform _ _) (fun choice => ?_)
  cases choice with
  | closed => exact causal_pure _
  | lost => exact causal_pure _
  | line polled =>
    cases polled with
    | none => exact causal_pure _
    | some line =>
      exact causal_bind (causal_bind (causal_scanCmti _ _) (fun _ => causal_pure _))
        (fun _ => causal_pure _)
  | request r =>
    refine causal_bind (causal_attempt (causal_handleRequest cfg s r)) (fun served => ?_)
    cases served <;> exact causal_pure _

theorem advancing_sessionStep (cfg : Config) (events : Bool) (s : SessionState) :
    Advancing (sessionStep cfg events s) := by
  refine advancing_bind (causal_attempt (causal_drainPending events s.pending))
    (fun drained => ?_)
  cases drained with
  | none => exact advancing_leave _
  | some drained =>
    refine advancing_bind (causal_attempt (causal_refreshIfDue _)) (fun refreshed => ?_)
    cases refreshed with
    | none => exact advancing_leave _
    | some s => exact (takes_serveTurn cfg s).advancing

theorem causal_runSessionInner (cfg : Config) (events : Bool) (status : ModemStatusSnapshot) :
    Causal (runSessionInner cfg events status) :=
  causal_bind (causal_iterate (fun s => (advancing_sessionStep cfg events s).causal) _)
    (fun _ => causal_bind (causal_emit _) (fun _ => causal_pure _))

/-! ## The manager loop -/

theorem causal_markDisconnected (status : ModemStatusSnapshot) :
    Causal (markDisconnected status) :=
  causal_bind (causal_emit _) (fun _ => causal_pure _)

theorem causal_backoffOrGiveup (cfg : Config) (s : ManagerState) :
    Causal (backoffOrGiveup cfg s) := by
  unfold backoffOrGiveup
  simp only
  split
  · exact causal_bind (causal_audit _ _) (fun _ =>
      causal_bind (causal_markDisconnected _) (fun _ => causal_pure _))
  · exact causal_bind (causal_emit _) (fun _ => causal_pure _)

theorem causal_dropConnection (cfg : Config) (s : ManagerState) :
    Causal (dropConnection cfg s) :=
  causal_bind (causal_markDisconnected _) (fun _ => causal_backoffOrGiveup cfg _)

theorem causal_initializeModem (cfg : Config) : Causal (initializeModem cfg) := by
  have hrun : ∀ commands ok, Causal (runCommands commands ok) := by
    intro commands
    induction commands with
    | nil => exact fun ok => causal_pure ok
    | cons command commands ih =>
      exact fun ok => causal_bind (causal_exchange command) (fun e => ih _)
  exact hrun _ _

theorem causal_serveConnection (cfg : Config) (s : ManagerState) :
    Causal (serveConnection cfg s) := by
  refine causal_bind (causal_runSessionInner cfg true s.status) (fun ended => ?_)
  obtain ⟨outcome, status⟩ := ended
  refine causal_bind (causal_markDisconnected status) (fun status => ?_)
  cases outcome with
  | channelClosed => exact causal_pure _
  | disconnected => exact causal_backoffOrGiveup cfg _

theorem takes_managerStep (cfg : Config) (s : ManagerState) : Takes (managerStep cfg s) := by
  refine takes_bind (takes_perform _ _) (fun opened => ?_)
  cases opened with
  | false => exact causal_dropConnection cfg s
  | true =>
    refine causal_bind (causal_bind (causal_emit _) (fun _ => causal_pure _))
      (fun status => causal_bind (causal_attempt causal_abort) (fun recovered => ?_))
    cases recovered with
    | none => exact causal_dropConnection cfg _
    | some recovered =>
      refine causal_bind (causal_attempt (causal_initializeModem cfg))
        (fun initialized => ?_)
      cases initialized with
      | none => exact causal_dropConnection cfg _
      | some ok =>
        refine causal_bind ?_ (fun _ => causal_serveConnection cfg _)
        unfold auditInit
        split
        · exact causal_pure ()
        · exact causal_audit _ _

/-! ## The bound is not felt

More rounds than `iterate` allows make no run of a loop a different one. -/

section Rounds

variable (cfg : Config) {script : List Answer} {fuel : Nat} (h : script.length < fuel)
include h

theorem collect_rounds (command : String) (lines : List String) :
    iterateFor (collectStep command) fuel lines script =
      iterate (collectStep command) lines script :=
  iterateFor_fuel (advances_collectStep command) fuel script lines h

theorem drainPending_rounds (events : Bool) (pending : List Nat) :
    iterateFor (drainStep events) fuel pending script = drainPending events pending script :=
  iterateFor_fuel (fun pending => (advancing_drainStep events pending).taken) fuel script pending h

theorem session_rounds (events : Bool) (s : SessionState) :
    iterateFor (sessionStep cfg events) fuel s script =
      iterate (sessionStep cfg events) s script :=
  iterateFor_fuel (fun s => (advancing_sessionStep cfg events s).taken) fuel script s h

theorem runModemManager_rounds :
    iterateFor (managerStep cfg) fuel ⟨0, initialSnapshot⟩ script = runModemManager cfg script :=
  iterateFor_fuel (fun s => (takes_managerStep cfg s).advancing.taken) fuel script _ h

end Rounds

end Modem
end GreenRelay
