/-
The manager serves one request at a time, and nothing of one gets into another.

Requests come through a channel, and each brings a sender for its one answer.  The
manager takes a request, serves it and answers it before it takes the next one; in
between it neither looks at the port for announcements nor stores a message.  All
that is written for a send request carries its own recipient and its own text.  A
request is left without an answer only where the connection was lost under it.

`Desk` is what a trace tells of the request in service, and `desk` demands all of
this at every event of the trace.
-/
import GreenRelay.Modem.Rules

namespace GreenRelay
namespace Modem

open Sms Scripted

/-! ## The monitor -/

/-- The request in service, and the last header that was written for it. -/
structure Desk where
  request : Option ModemRequest
  header : Option (String × SmsEncoding)

def Desk.vacant : Desk := ⟨none, none⟩

def Desk.next (s : Desk) : Event → Desk
  | .took r => ⟨some r, none⟩
  | .repliedRaw _ | .repliedSend _ | .ended _ => .vacant
  | .wrote (.header toNumber encoding) _ => { s with header := some (toNumber, encoding) }
  | _ => s

/-- A segment of the text. -/
def IsPart (body part : String) : Prop :=
  ∃ segments, segmentMessage body = .ok segments ∧ ∃ segment ∈ segments, segment.text = part

/-- What may be written while a request is being served. -/
def Desk.MayWrite (s : Desk) : Output → Prop
  | .command text => ∀ command, s.request = some (.raw command) → text = command
  | .header toNumber encoding =>
    ∃ body, s.request = some (.sendSms toNumber body) ∧ encoding = messageEncoding body
  | .body part encoding =>
    ∃ toNumber body, s.request = some (.sendSms toNumber body) ∧
      s.header = some (toNumber, encoding) ∧ IsPart body part
  | .abort => True

def desk : Monitor Event Desk :=
  .observing Desk.next (fun s e =>
    match e with
    | .wrote out _ => s.MayWrite out
    | .repliedRaw e => s.request = some (.raw e.command)
    | .repliedSend _ => ∃ toNumber body, s.request = some (.sendSms toNumber body)
    | .ended outcome => outcome = .disconnected ∨ s.request = none
    | .took _ | .polled _ | .popped _ | .inserted _ _ | .published _ _ | .opened _ =>
      s.request = none
    | _ => True)

/-! ## Assertions -/

def Vacant (s : Desk) : Prop := s.request = none

def Occupied (r : ModemRequest) (s : Desk) : Prop := s.request = some r

/-- The events that the monitor takes no note of. -/
def Event.isAside : Event → Bool
  | .took _ | .repliedRaw _ | .repliedSend _ | .ended _ | .wrote _ _ | .polled _ | .popped _
  | .inserted _ _ | .published _ _ | .opened _ => false
  | _ => true

section Keeping

variable {I R : Desk → Prop}

theorem desk_aside {e : Event} (he : e.isAside = true) {s s' : Desk} (hs : I s)
    (hstep : desk.step s e s') : desk.ok s e ∧ I s' := by
  have hsame : s' = s := by
    have hnext : s' = s.next e := hstep
    cases e <;> first | exact hnext | cases he
  refine ⟨?_, hsame ▸ hs⟩
  cases e <;> first | exact trivial | cases he

theorem desk_reports : KeepsReports desk I := by
  intro e s s' he
  exact desk_aside (by cases e <;> first | rfl | cases he)

theorem desk_inbound : KeepsInbound desk Vacant := by
  intro e s s' he hs hstep
  cases e with
  | pushed index => exact desk_aside rfl hs hstep
  | popped index =>
    have hsame : s' = s := hstep
    exact ⟨hs, hsame ▸ hs⟩
  | inserted message reply =>
    have hsame : s' = s := hstep
    exact ⟨hs, hsame ▸ hs⟩
  | published rowId message =>
    have hsame : s' = s := hstep
    exact ⟨hs, hsame ▸ hs⟩
  | _ => cases he

/-- A scan of lines for announcements is beside any request. -/
theorem desk_scanCmti (lines : List String) (pending : List Nat) :
    Keeps desk I R (scanCmti lines pending) :=
  keeps_scanCmti_pushed (fun _ _ _ => desk_aside rfl) lines pending

/-- A write of anything but a header. -/
theorem triple_writeBytes_desk {out : Output} (hout : ∀ s, I s → s.MayWrite out)
    (hplain : ∀ (s : Desk) reply, s.next (.wrote out reply) = s) (hR : ∀ s, I s → R s) :
    Triple desk I (writeBytes out) (fun _ => I) R := by
  refine triple_perform (fun a s s' hs hstep => ?_)
  have hnext : s' = s.next (.wrote out a.write) := hstep
  rw [hplain] at hnext
  refine ⟨hout s hs, ?_⟩
  rw [hnext]
  cases a.write with
  | ok => exact hs
  | ioError n => exact hR s hs

theorem triple_collect_desk (hR : ∀ s, I s → R s) (command : String) :
    Triple desk I (collectUntilTerminator command) (fun e s => e.command = command ∧ I s) R := by
  refine triple_collect (fun r s s' hs hstep => ?_) command
  obtain ⟨hok, hI⟩ := desk_aside (e := .read r) rfl hs hstep
  refine ⟨hok, ?_⟩
  split
  · exact hR s' hI
  · exact hI

/-- A command other than the one that was asked for is written only for another
kind of request. -/
theorem triple_exchange_desk {text : String}
    (htext : ∀ s, I s → ∀ command, s.request = some (.raw command) → text = command)
    (hR : ∀ s, I s → R s) :
    Triple desk I (exchange text) (fun e s => e.command = text ∧ I s) R := by
  refine triple_exchange (triple_writeBytes_desk htext (fun _ _ => rfl) hR)
    (triple_collect_desk hR text) ?_
  rintro e s s' ⟨he, hs⟩ hstep
  obtain ⟨hok, hI⟩ := desk_aside (I := I) (e := .exchanged e) rfl hs hstep
  exact ⟨hok, he, hI⟩

theorem keeps_abortToCommandMode_desk (hR : ∀ s, I s → R s) :
    Keeps desk I R abortToCommandMode := by
  refine keeps_bind (triple_writeBytes_desk (fun _ _ => trivial) (fun _ _ => rfl) hR) (fun _ => ?_)
  exact triple_bind (triple_collect_desk hR "ESC") (fun _ => triple_pure (fun _ h => h.2))

end Keeping

/-- With nobody in service any command may be written. -/
theorem keeps_exchange_vacant (text : String) : Keeps desk Vacant Vacant (exchange text) := by
  refine triple_post (triple_exchange_desk ?_ (fun _ h => h)) (fun _ _ h => h.2)
  intro s hs command hr
  rw [hs] at hr
  cases hr

/-- So may it for a send request, which is no raw command. -/
theorem keeps_exchange_send (toNumber body text : String) :
    Keeps desk (Occupied (.sendSms toNumber body)) (Occupied (.sendSms toNumber body))
      (exchange text) := by
  refine triple_post (triple_exchange_desk ?_ (fun _ h => h)) (fun _ _ h => h.2)
  intro s hs command hr
  rw [hs] at hr
  cases hr

/-! ## A send request -/

section Send

variable {toNumber body part : String}

/-- A part is typed under a header with the number of its own request. -/
theorem keeps_sendSmsPart_desk (hpart : IsPart body part) :
    Keeps desk (Occupied (.sendSms toNumber body)) (Occupied (.sendSms toNumber body))
      (sendSmsPart toNumber part (messageEncoding body)) := by
  have hheader : Triple desk (Occupied (.sendSms toNumber body))
      (writeBytes (.header toNumber (messageEncoding body)))
      (fun _ s => Occupied (.sendSms toNumber body) s ∧
        s.header = some (toNumber, messageEncoding body))
      (Occupied (.sendSms toNumber body)) := by
    refine triple_perform (fun a s s' hs hstep => ?_)
    have hnext : s' = { s with header := some (toNumber, messageEncoding body) } := hstep
    refine ⟨⟨body, hs, rfl⟩, ?_⟩
    rw [hnext]
    cases a.write with
    | ok => exact ⟨hs, rfl⟩
    | ioError n => exact hs
  have hdrop : ∀ s, Occupied (.sendSms toNumber body) s ∧
      s.header = some (toNumber, messageEncoding body) → Occupied (.sendSms toNumber body) s :=
    fun _ h => h.1
  unfold sendSmsPart
  refine triple_bind hheader (fun _ => ?_)
  refine triple_bind (T := fun _ s => Occupied (.sendSms toNumber body) s ∧
      s.header = some (toNumber, messageEncoding body)) ?_ (fun seen => ?_)
  · refine triple_perform (fun a s s' hs hstep => ?_)
    have hsame : s' = s := hstep
    refine ⟨trivial, ?_⟩
    rw [hsame]
    cases a.prompt with
    | prompt => exact hs
    | timeout => exact hs
    | ioError => exact hs.1
  cases seen with
  | false =>
    refine triple_pre ?_ hdrop
    exact keeps_bind (keeps_abortToCommandMode_desk (fun _ h => h)) (fun _ => keeps_pure _)
  | true =>
    show Triple desk _ (submitBody part (messageEncoding body)) _ _
    unfold submitBody
    refine triple_bind (T := fun _ => Occupied (.sendSms toNumber body)) ?_ (fun _ => ?_)
    · refine triple_post (triple_writeBytes_desk ?_ (fun _ _ => rfl) hdrop) (fun _ => hdrop)
      exact fun s hs => ⟨toNumber, body, hs.1, hs.2, hpart⟩
    refine triple_bind (triple_collect_desk (fun _ h => h) "AT+CMGS") (fun e => ?_)
    refine triple_pre ?_ (fun _ h => h.2)
    split
    · exact keeps_bind (keeps_abortToCommandMode_desk (fun _ h => h)) (fun _ => keeps_pure e)
    · exact keeps_pure e

theorem keeps_sendAllSegments_desk (cfg : Config) {segments : List Segment}
    (hsegments : segmentMessage body = .ok segments) :
    Keeps desk (Occupied (.sendSms toNumber body)) (Occupied (.sendSms toNumber body))
      (sendAllSegments cfg toNumber segments (messageEncoding body)) := by
  apply keeps_sendAllSegments
  intro segment hmem
  apply keeps_sendAttempts desk_reports.notes
  · exact keeps_sendSmsPart_desk ⟨segments, hsegments, segment, hmem, rfl⟩
  · exact fun _ _ _ => desk_aside rfl

theorem keeps_handleSend_desk (cfg : Config) (status : ModemStatusSnapshot) :
    Keeps desk (Occupied (.sendSms toNumber body)) (Occupied (.sendSms toNumber body))
      (handleSend cfg status toNumber body) := by
  unfold handleSend
  split
  · cases hsegments : segmentMessage body with
    | error e => exact keeps_bind (keeps_audit desk_reports.notes _ _) (fun _ => keeps_pure _)
    | ok segments =>
      have hparts : Keeps desk (Occupied (.sendSms toNumber body))
          (Occupied (.sendSms toNumber body))
          (sendAllSegments cfg toNumber segments (messageEncoding body)) :=
        keeps_sendAllSegments_desk cfg hsegments
      have hcharset : ∀ cscs csmp, Keeps desk (Occupied (.sendSms toNumber body))
          (Occupied (.sendSms toNumber body)) (setCharset cscs csmp) := fun _ _ =>
        keeps_setCharset (keeps_exchange_send _ _ _) (keeps_exchange_send _ _ _)
      show Keeps desk _ _ (sendEncoded cfg toNumber segments (messageEncoding body))
      unfold sendEncoded
      refine keeps_bind (keeps_exchange_send _ _ _) (fun _ => ?_)
      cases hencoding : messageEncoding body with
      | gsm7 =>
        rw [hencoding] at hparts
        exact hparts
      | ucs2 =>
        rw [hencoding] at hparts
        refine keeps_bind (hcharset _ _) (fun _ => ?_)
        refine keeps_bind (keeps_attempt hparts) (fun outcome => ?_)
        refine keeps_bind (keeps_attempt (hcharset _ _)) (fun _ => ?_)
        cases outcome with
        | some result => exact keeps_pure result
        | none => exact triple_fail (fun _ h => h)
  · exact keeps_pure _

end Send

/-! ## The session -/

/-- A request that was taken is answered, or lost with the connection. -/
theorem triple_handleRequest_desk (cfg : Config) (s : SessionState) (r : ModemRequest) :
    Triple desk (Occupied r) (handleRequest cfg s r) (fun _ => Vacant) Anything := by
  cases r with
  | raw command =>
    unfold handleRequest handleRaw
    refine triple_bind (T := fun e st => e.command = command ∧ Occupied (.raw command) st) ?_
      (fun e => ?_)
    · refine triple_exchange_desk ?_ (fun _ _ => trivial)
      intro st hst c hc
      rw [hst] at hc
      cases hc
      rfl
    refine triple_pure_pre (fun hcommand => ?_)
    refine triple_bind (desk_scanCmti _ _) (fun pending => ?_)
    refine triple_bind (keeps_emit (fun _ _ => desk_aside rfl)) (fun _ => ?_)
    refine triple_bind (T := fun _ => Vacant) (triple_emit ?_) (fun _ => triple_pure (fun _ h => h))
    intro st st' hst hstep
    have hnext : st' = .vacant := hstep
    rw [hnext]
    refine ⟨?_, rfl⟩
    show st.request = some (.raw e.command)
    rw [hcommand]
    exact hst
  | sendSms toNumber body =>
    unfold handleRequest
    refine triple_bind (keeps_weaken (keeps_handleSend_desk cfg s.status) (fun _ _ => trivial))
      (fun result => ?_)
    refine triple_bind (T := fun _ => Vacant) (triple_emit ?_) (fun _ => triple_pure (fun _ h => h))
    intro st st' hst hstep
    have hnext : st' = .vacant := hstep
    rw [hnext]
    exact ⟨⟨toNumber, body, hst⟩, rfl⟩

/-- A request may be in service only where the connection was lost. -/
def Closing : SessionState ⊕ SessionEnd → Desk → Prop
  | .inl _ => Vacant
  | .inr r => fun st => r.1 = .disconnected ∨ Vacant st

/-- A request that was taken is in service. -/
def AtHand : Choice → Desk → Prop
  | .request r => Occupied r
  | _ => Vacant

theorem triple_serveTurn_desk {R : Desk → Prop} (cfg : Config) (s : SessionState) :
    Triple desk Vacant (serveTurn cfg s) Closing R := by
  have hselect : Triple desk Vacant select AtHand R := by
    apply triple_select
    · intro r st st' hst hstep
      have hnext : st' = ⟨some r, none⟩ := hstep
      rw [hnext]
      exact ⟨hst, rfl⟩
    · intro st st' hst hstep
      exact desk_aside rfl hst hstep
    · intro reply st st' hst hstep
      have hsame : st' = st := hstep
      rw [hsame]
      refine ⟨hst, ?_⟩
      cases reply <;> exact hst
  unfold serveTurn
  refine triple_bind hselect (fun choice => ?_)
  cases choice with
  | closed => exact triple_pure (fun _ h => .inr h)
  | lost => exact triple_pure (fun _ h => .inr h)
  | line polled =>
    cases polled with
    | none => exact triple_pure (fun _ h => h)
    | some line =>
      refine triple_bind (T := fun _ => Vacant) ?_ (fun _ => triple_pure (fun _ h => h))
      exact keeps_bind (desk_scanCmti _ _) (fun _ => keeps_pure _)
  | request r =>
    show Triple desk (Occupied r) _ Closing R
    refine triple_bind (T := fun o st => o.elim True (fun _ => Vacant st))
      (triple_attempt (triple_handleRequest_desk cfg s r)) (fun o => ?_)
    cases o with
    | none => exact triple_pure (fun _ _ => .inl rfl)
    | some s' => exact triple_pure (fun _ h => h)

theorem triple_sessionStep_desk {R : Desk → Prop} (cfg : Config) (events : Bool)
    (s : SessionState) : Triple desk Vacant (sessionStep cfg events s) Closing R := by
  have hdrain : Keeps desk Vacant Vacant (drainPending events s.pending) :=
    keeps_drainPending desk_reports.notes desk_inbound (fun _ => keeps_exchange_vacant _)
      (fun _ => keeps_exchange_vacant _) events s.pending
  have hrefresh : ∀ s, Keeps desk Vacant Vacant (refreshIfDue s) := fun s =>
    triple_post (triple_refreshIfDue desk_reports
      (keeps_refreshStatus_reports desk_reports (fun c _ => keeps_exchange_vacant c)) s)
      (fun _ _ h => h.2)
  unfold sessionStep
  refine triple_bind (keeps_attempt hdrain) (fun o => ?_)
  cases o with
  | none => exact triple_pure (fun _ _ => .inl rfl)
  | some u =>
    refine triple_bind (keeps_attempt (hrefresh _)) (fun o => ?_)
    cases o with
    | none => exact triple_pure (fun _ _ => .inl rfl)
    | some s' => exact triple_serveTurn_desk cfg s'

theorem keeps_runSessionInner_desk (cfg : Config) (status : ModemStatusSnapshot) :
    Keeps desk Vacant Vacant (runSessionInner cfg true status) := by
  unfold runSessionInner
  have hloop : Triple desk Vacant (Scripted.iterate (sessionStep cfg true) ⟨[], false, status⟩)
      (fun r st => r.1 = .disconnected ∨ Vacant st) Vacant := by
    refine triple_iterate (I := fun _ => Vacant) (fun s => ?_) _
    refine triple_post (triple_sessionStep_desk cfg true s) (fun r st h => ?_)
    cases r <;> exact h
  refine triple_bind hloop (fun r => ?_)
  refine triple_bind (T := fun _ => Vacant) (triple_emit ?_) (fun _ => triple_pure (fun _ h => h))
  intro st st' h hstep
  have hnext : st' = .vacant := hstep
  rw [hnext]
  exact ⟨h, rfl⟩

/-! ## The manager -/

theorem keeps_runModemManager_desk (cfg : Config) :
    Keeps desk Vacant Vacant (runModemManager cfg) := by
  apply keeps_runModemManager
  intro s
  refine keeps_managerStep_reports (C := Vacant) s desk_reports desk_reports ?_
    (keeps_abortToCommandMode_desk (fun _ h => h)) ?_ (keeps_runSessionInner_desk cfg)
  · intro ok st st' h hstep
    have hsame : st' = st := hstep
    exact ⟨h, hsame ▸ h⟩
  · exact keeps_runCommands (fun c _ => keeps_exchange_vacant c) true

/-- Over every run of the manager, requests are served one after the other, each
answer is to the request that was taken last, and what is written for a request is
its own. -/
theorem requests_kept_apart (cfg : Config) (script : List Answer) :
    desk.Safe .vacant (runModemManager cfg script).trace :=
  (keeps_runModemManager_desk cfg).safe script rfl

end Modem
end GreenRelay
