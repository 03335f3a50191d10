/-
Rules of the manager's functions, for any monitor.

A property of the manager's runs is shown with a monitor and an invariant `I` of
its states.  Most of the functions are sequences of exchanges and of events
that such a monitor does not look at, and for these the rules below reduce the
invariant to the exchanges.  `J` is what holds between two sessions: it is what
an error leaves, and what the next connection starts from.
-/
import GreenRelay.Modem.Manager

namespace GreenRelay
namespace Modem

open Sms Scripted

/-- Events of the service's own bookkeeping. -/
def Event.isLocal : Event → Bool
  | .audited _ _ _ | .status _ | .clock _ | .repliedRaw _ | .ended _ | .slept _ => true
  | _ => false

/-- The local events that say nothing about the modem. -/
def Event.isNote : Event → Bool
  | .audited _ _ _ | .clock _ | .slept _ => true
  | _ => false

/-- The local events that do not end anything. -/
def Event.isReport : Event → Bool
  | .audited _ _ _ | .status _ | .clock _ | .slept _ => true
  | _ => false

/-- Events of the queue of announced messages and of what is done with them. -/
def Event.isInbound : Event → Bool
  | .pushed _ | .popped _ | .inserted _ _ | .published _ _ => true
  | _ => false

/-! ## The commands of an index -/

/-- The letter that tells the commands of an index from all the others. -/
def tag (command : String) : Option Char := command.toList[6]?

theorem tag_cmgr (i : Nat) : tag (cmgrCommand i) = some 'R' := by
  rw [tag, cmgrCommand, String.toList_append]
  rfl

theorem tag_cmgd (i : Nat) : tag (cmgdCommand i) = some 'D' := by
  rw [tag, cmgdCommand, String.toList_append]
  rfl

/-- A command with another letter does not read an index. -/
theorem cmgr_ne {text : String} (h : tag text ≠ some 'R') (i : Nat) : cmgrCommand i ≠ text := by
  intro he
  rw [← he, tag_cmgr] at h
  exact h rfl

theorem cmgd_ne {text : String} (h : tag text ≠ some 'D') (i : Nat) : cmgdCommand i ≠ text := by
  intro he
  rw [← he, tag_cmgd] at h
  exact h rfl

theorem cmgr_ne_cmgd (i j : Nat) : cmgrCommand i ≠ cmgdCommand j := by
  apply cmgr_ne
  rw [tag_cmgd]
  decide

/-- Indices that are deleted under one name are read under one name. -/
theorem cmgr_eq_of_cmgd {i j : Nat} (h : cmgdCommand i = cmgdCommand j) :
    cmgrCommand i = cmgrCommand j := by
  rw [cmgdCommand, cmgdCommand] at h
  have htext : toString i = toString j := by
    rwa [String.append_right_inj] at h
  rw [cmgrCommand, cmgrCommand, htext]

/-- The assertion that claims nothing. -/
abbrev Anything {S : Type} : S → Prop := fun _ => True

section Rules

variable {S : Type} {M : Monitor Event S} {I J : S → Prop}

/-- The monitor demands nothing of local events, and they keep `I`. -/
def KeepsLocal (M : Monitor Event S) (I : S → Prop) : Prop :=
  ∀ e s s', e.isLocal = true → I s → M.step s e s' → M.ok s e ∧ I s'

def KeepsNotes (M : Monitor Event S) (I : S → Prop) : Prop :=
  ∀ e s s', e.isNote = true → I s → M.step s e s' → M.ok s e ∧ I s'

theorem KeepsLocal.notes (hI : KeepsLocal M I) : KeepsNotes M I := by
  intro e s s' he
  exact hI e s s' (by cases e <;> first | rfl | cases he)

def KeepsReports (M : Monitor Event S) (I : S → Prop) : Prop :=
  ∀ e s s', e.isReport = true → I s → M.step s e s' → M.ok s e ∧ I s'

theorem KeepsLocal.reports (hI : KeepsLocal M I) : KeepsReports M I := by
  intro e s s' he
  exact hI e s s' (by cases e <;> first | rfl | cases he)

theorem KeepsReports.notes (hI : KeepsReports M I) : KeepsNotes M I := by
  intro e s s' he
  exact hI e s s' (by cases e <;> first | rfl | cases he)

def KeepsInbound (M : Monitor Event S) (I : S → Prop) : Prop :=
  ∀ e s s', e.isInbound = true → I s → M.step s e s' → M.ok s e ∧ I s'

theorem keeps_emit_local (hI : KeepsLocal M I) {e : Event} (he : e.isLocal = true) :
    Keeps M I J (emit e) :=
  keeps_emit (fun s s' => hI e s s' he)

theorem keeps_emit_report (hI : KeepsReports M I) {e : Event} (he : e.isReport = true) :
    Keeps M I J (emit e) :=
  keeps_emit (fun s s' => hI e s s' he)

theorem keeps_audit (hI : KeepsNotes M I) (eventType detail : String) :
    Keeps M I J (audit eventType detail) :=
  keeps_perform (fun _ => rfl) (fun _ s s' => hI _ s s' rfl)

theorem keeps_refreshDue (hI : KeepsNotes M I) : Keeps M I J refreshDue :=
  keeps_perform (fun _ => rfl) (fun _ s s' => hI _ s s' rfl)

/-! ## Exchanges -/

theorem triple_exchange {P C : S → Prop} {T Q : AtExchange → S → Prop} {command : String}
    (hwrite : Triple M P (writeBytes (.command command)) (fun _ => C) J)
    (hcollect : Triple M C (collectUntilTerminator command) T J)
    (hdone : ∀ e s s', T e s → M.step s (.exchanged e) s' → M.ok s (.exchanged e) ∧ Q e s') :
    Triple M P (exchange command) Q J := by
  unfold exchange
  refine triple_bind hwrite (fun _ => triple_bind hcollect (fun e => ?_))
  exact triple_bind (triple_emit (fun s s' => hdone e s s')) (fun _ => triple_pure (fun _ h => h))

/-- A monitor that lets every read pass keeps its invariant while a response is
collected. -/
theorem triple_collect
    (hread : ∀ r s s', I s → M.step s (.read r) s' → M.ok s (.read r) ∧
      if r = .ioError then J s' else I s')
    (command : String) :
    Triple M I (collectUntilTerminator command) (fun e s => e.command = command ∧ I s) J := by
  unfold collectUntilTerminator
  refine triple_iterate (I := fun _ => I) (fun lines => ?_) []
  unfold collectStep
  refine triple_bind (T := fun _ => I) ?_ (fun line => ?_)
  · refine triple_perform (fun a s s' hs hstep => ?_)
    have h := hread a.read s s' hs hstep
    cases hr : a.read <;> rw [hr] at h <;> simpa using h
  · cases line with
    | none => exact triple_pure (fun _ h => ⟨rfl, h⟩)
    | some line =>
      simp only
      cases classifyLine line with
      | terminator result => exact triple_pure (fun _ h => ⟨rfl, h⟩)
      | nonTerminating => exact triple_pure (fun _ h => h)

/-- The setup sequence ends with the service center where one is configured. -/
theorem initCommands_eq (cfg : Config) : ∃ last,
    initCommands cfg = ["AT+CMGF=1", "AT+CSCS=\"IRA\"", "AT+CSMP=17,167,0,0", "AT+CSDH=1"] ++ last ∧
      ∀ c ∈ last, ∃ csca, cfg.serviceCenterNumber = some csca ∧
        c = "AT+CSCA=\"" ++ csca ++ "\"" := by
  unfold initCommands
  cases cfg.serviceCenterNumber with
  | none => exact ⟨[], rfl, fun c hc => by cases hc⟩
  | some csca => exact ⟨_, rfl, fun c hc => ⟨csca, rfl, List.mem_singleton.mp hc⟩⟩

/-- The setup does not ask for the status. -/
theorem initCommands_ne {cfg : Config} {c d : String} (hc : c ∈ initCommands cfg)
    (hd : d ∈ ["AT+CPIN?", "AT+COPS?"]) : c ≠ d := by
  obtain ⟨last, hinit, hlast⟩ := initCommands_eq cfg
  rw [hinit] at hc
  rcases List.mem_append.mp hc with hfixed | hcsca
  · have hdisjoint : ∀ c ∈ ["AT+CMGF=1", "AT+CSCS=\"IRA\"", "AT+CSMP=17,167,0,0", "AT+CSDH=1"],
        ∀ d ∈ ["AT+CPIN?", "AT+COPS?"], c ≠ d := by decide +kernel
    exact hdisjoint c hfixed d hd
  · obtain ⟨csca, -, rfl⟩ := hlast c hcsca
    have hletter : (("AT+CSCA=\"" ++ csca ++ "\"").toList)[5]? = some 'C' := by simp
    have hother : ∀ d ∈ ["AT+CPIN?", "AT+COPS?"], d.toList[5]? ≠ some 'C' := by decide +kernel
    intro hsame
    rw [hsame] at hletter
    exact hother d hd hletter

theorem keeps_runCommands {commands : List String}
    (hx : ∀ c ∈ commands, Keeps M I J (exchange c)) (ok : Bool) :
    Keeps M I J (runCommands commands ok) := by
  induction commands generalizing ok with
  | nil => exact keeps_pure ok
  | cons c commands ih =>
    unfold runCommands
    refine keeps_bind (hx c List.mem_cons_self) (fun e => ?_)
    exact ih (fun d hd => hx d (List.mem_cons_of_mem c hd)) _

def statusCommands : List String := ["AT+CPIN?", "AT+CREG?", "AT+CSQ", "AT+COPS?"]

theorem keeps_refreshStatus_reports (hI : KeepsReports M I)
    (hx : ∀ c ∈ statusCommands, Keeps M I J (exchange c)) : Keeps M I J refreshStatus := by
  unfold refreshStatus
  refine keeps_bind (hx _ (by decide)) (fun _ => keeps_bind (hx _ (by decide)) (fun _ => ?_))
  refine keeps_bind (hx _ (by decide)) (fun _ => keeps_bind (hx _ (by decide)) (fun _ => ?_))
  exact keeps_bind (keeps_emit_report hI rfl) (fun _ => keeps_pure _)

theorem keeps_refreshStatus (hI : KeepsLocal M I)
    (hx : ∀ c ∈ statusCommands, Keeps M I J (exchange c)) : Keeps M I J refreshStatus :=
  keeps_refreshStatus_reports hI.reports hx

theorem triple_refreshIfDue (hI : KeepsReports M I) (hrefresh : Keeps M I J refreshStatus)
    (s : SessionState) :
    Triple M I (refreshIfDue s) (fun s' st => s'.pending = s.pending ∧ I st) J := by
  unfold refreshIfDue
  refine triple_bind (p := dueForRefresh s) (T := fun _ => I) ?_ (fun due => ?_)
  · unfold dueForRefresh
    cases s.refreshed
    · exact keeps_pure true
    · exact keeps_refreshDue hI.notes
  · cases due
    · exact triple_pure (fun _ h => ⟨rfl, h⟩)
    · exact triple_bind hrefresh (fun _ => triple_pure (fun _ h => ⟨rfl, h⟩))

theorem keeps_setCharset {cscs csmp : String}
    (hcscs : Keeps M I J (exchange ("AT+CSCS=\"" ++ cscs ++ "\"")))
    (hcsmp : Keeps M I J (exchange ("AT+CSMP=" ++ csmp))) :
    Keeps M I J (setCharset cscs csmp) := by
  unfold setCharset
  exact keeps_bind hcscs (fun _ => keeps_bind hcsmp (fun _ => keeps_pure ()))

/-! ## Inbound messages -/

theorem keeps_emit_inbound (hN : KeepsInbound M I) {e : Event} (he : e.isInbound = true) :
    Keeps M I J (emit e) :=
  keeps_emit (fun s s' => hN e s s' he)

theorem keeps_createInboundMessage (hN : KeepsInbound M I) (message : ParsedInbound) :
    Keeps M I J (createInboundMessage message) :=
  keeps_perform (fun _ => rfl) (fun _ s s' => hN _ s s' rfl)

theorem keeps_scanCmti_pushed
    (hP : ∀ index s s', I s → M.step s (.pushed index) s' → M.ok s (.pushed index) ∧ I s')
    (lines : List String) (pending : List Nat) : Keeps M I J (scanCmti lines pending) := by
  induction lines generalizing pending with
  | nil => exact keeps_pure pending
  | cons line lines ih =>
    unfold scanCmti
    cases parseCmtiIndex line with
    | none => exact ih pending
    | some index => exact keeps_bind (keeps_emit (hP index)) (fun _ => ih _)

theorem keeps_scanCmti (hN : KeepsInbound M I) (lines : List String) (pending : List Nat) :
    Keeps M I J (scanCmti lines pending) :=
  keeps_scanCmti_pushed (fun _ s s' => hN _ s s' rfl) lines pending

theorem keeps_readInbound (hN : KeepsInbound M I) {index : Nat}
    (hx : Keeps M I J (exchange (cmgrCommand index))) (attempts : Nat) (pending : List Nat) :
    Keeps M I J (readInbound index attempts pending) := by
  induction attempts generalizing pending with
  | zero => exact keeps_pure _
  | succ attempts ih =>
    unfold readInbound
    refine keeps_bind hx (fun e => keeps_bind (keeps_scanCmti hN _ _) (fun pending => ?_))
    cases e.inbound with
    | none => exact ih pending
    | some message => exact keeps_pure _

theorem keeps_storeInbound (hI : KeepsNotes M I) (hN : KeepsInbound M I) {index : Nat}
    (hx : Keeps M I J (exchange (cmgdCommand index))) (events : Bool) (message : ParsedInbound)
    (pending : List Nat) : Keeps M I J (storeInbound events index message pending) := by
  unfold storeInbound
  refine keeps_bind (keeps_createInboundMessage hN message) (fun reply => ?_)
  cases reply with
  | error text => exact keeps_bind (keeps_audit hI _ _) (fun _ => keeps_pure pending)
  | ok rowId =>
    refine keeps_bind (p := publishInbound events rowId message) ?_ (fun _ => ?_)
    · cases events
      · exact keeps_pure ()
      · exact keeps_emit_inbound hN rfl
    refine keeps_bind hx (fun delete => keeps_bind (keeps_scanCmti hN _ _) (fun pending => ?_))
    refine keeps_bind (p := auditDelete index delete.result) ?_ (fun _ => keeps_pure pending)
    unfold auditDelete
    split
    · exact keeps_pure ()
    · exact keeps_audit hI _ _

theorem keeps_handleInboundInner (hI : KeepsNotes M I) (hN : KeepsInbound M I) {index : Nat}
    (hread : Keeps M I J (exchange (cmgrCommand index)))
    (hdelete : Keeps M I J (exchange (cmgdCommand index))) (events : Bool) (pending : List Nat) :
    Keeps M I J (handleInboundInner events index pending) := by
  unfold handleInboundInner
  refine keeps_bind (keeps_readInbound hN hread 3 pending) (fun r => ?_)
  obtain ⟨message, pending⟩ := r
  cases message with
  | none => exact keeps_bind (keeps_audit hI _ _) (fun _ => keeps_pure pending)
  | some message => exact keeps_storeInbound hI hN hdelete events message pending

theorem keeps_drainPending (hI : KeepsNotes M I) (hN : KeepsInbound M I)
    (hread : ∀ index, Keeps M I J (exchange (cmgrCommand index)))
    (hdelete : ∀ index, Keeps M I J (exchange (cmgdCommand index))) (events : Bool)
    (pending : List Nat) : Keeps M I J (drainPending events pending) := by
  unfold drainPending
  refine keeps_iterate (fun pending => ?_) pending
  cases pending with
  | nil => exact keeps_pure _
  | cons index pending =>
    refine keeps_bind (keeps_emit_inbound hN rfl) (fun _ => ?_)
    refine keeps_bind ?_ (fun _ => keeps_pure _)
    exact keeps_handleInboundInner hI hN (hread index) (hdelete index) events pending

/-! ## Outbound messages -/

theorem keeps_sendAttempts (hI : KeepsNotes M I) {cfg : Config} {toNumber part : String}
    {encoding : SmsEncoding} (hpart : Keeps M I J (sendSmsPart toNumber part encoding))
    (hdone : ∀ e s s', I s → M.step s (.submitted e) s' → M.ok s (.submitted e) ∧ I s')
    (left : Nat) (lastCode : Option Nat) :
    Keeps M I J (sendAttempts cfg toNumber part encoding left lastCode) := by
  induction left generalizing lastCode with
  | zero => exact keeps_bind (keeps_audit hI _ _) (fun _ => keeps_pure _)
  | succ left ih =>
    unfold sendAttempts
    refine keeps_bind hpart (fun e => keeps_bind (keeps_emit (hdone e)) (fun _ => ?_))
    refine if hsent : (parseSendOutcome e.lines).status = .sent then ?_ else ?_
    · simp only [hsent, if_true]
      exact keeps_pure _
    · simp only [hsent, if_false]
      split
      · exact keeps_bind (keeps_audit hI _ _) (fun _ => keeps_pure _)
      · refine keeps_bind (p := retryPause cfg (left == 0)) ?_ (fun _ => ih _)
        unfold retryPause
        split
        · exact keeps_pure ()
        · exact keeps_emit (fun s s' => hI _ s s' rfl)

theorem keeps_sendAllSegments {cfg : Config} {toNumber : String} {segments : List Segment}
    {encoding : SmsEncoding} (hpart : ∀ segment ∈ segments,
      Keeps M I J (sendPartWithRetries cfg toNumber segment.text encoding)) :
    Keeps M I J (sendAllSegments cfg toNumber segments encoding) := by
  have hfrom : ∀ reference, Keeps M I J
    (sendAllSegmentsFrom cfg toNumber encoding segments reference) := by
    induction segments with
    | nil => exact fun reference => keeps_pure _
    | cons segment segments ih =>
      intro reference
      unfold sendAllSegmentsFrom
      refine keeps_bind (hpart segment List.mem_cons_self) (fun result => ?_)
      have hrest := ih (fun other hother => hpart other (List.mem_cons_of_mem segment hother))
      cases result.status with
      | sent => exact hrest result.reference
      | queued => exact keeps_pure result
      | failed => exact keeps_pure result
  exact hfrom none


/-- The events of a submission in an encoding, up to its result. -/
def Event.isSubmission (encoding : SmsEncoding) : Event → Bool
  | .wrote (.header _ e) _ | .wrote (.body _ e) _ => e == encoding
  | .wrote .abort _ | .prompted _ | .read _ => true
  | _ => false

/-- The monitor keeps `I` at every event of a submission, failed or not. -/
def KeepsSubmission (M : Monitor Event S) (I : S → Prop) (encoding : SmsEncoding) : Prop :=
  ∀ e s s', e.isSubmission encoding = true → I s → M.step s e s' → M.ok s e ∧ I s'

section Submission

variable {encoding : SmsEncoding} (hS : KeepsSubmission M I encoding)
include hS

theorem keeps_collect (command : String) : Keeps M I I (collectUntilTerminator command) := by
  refine triple_post (triple_collect (fun r s s' hs hstep => ?_) command) (fun _ _ h => h.2)
  obtain ⟨hok, hI⟩ := hS _ s s' rfl hs hstep
  refine ⟨hok, ?_⟩
  split <;> exact hI

theorem keeps_writeBytes {out : Output}
    (hout : ∀ reply, (Event.wrote out reply).isSubmission encoding = true) :
    Keeps M I I (writeBytes out) := by
  refine triple_perform (fun a s s' hs hstep => ?_)
  obtain ⟨hok, hI⟩ := hS _ s s' (hout a.write) hs hstep
  refine ⟨hok, ?_⟩
  cases a.write <;> exact hI

theorem keeps_abortToCommandMode : Keeps M I I abortToCommandMode :=
  keeps_bind (keeps_writeBytes hS (fun _ => rfl))
    (fun _ => keeps_bind (keeps_collect hS "ESC") (fun _ => keeps_pure ()))

theorem keeps_sendSmsPart (toNumber part : String) :
    Keeps M I I (sendSmsPart toNumber part encoding) := by
  have hsame : (encoding == encoding) = true := by cases encoding <;> rfl
  unfold sendSmsPart
  refine keeps_bind (keeps_writeBytes hS (fun _ => hsame)) (fun _ => keeps_bind ?_ (fun seen => ?_))
  · refine triple_perform (fun a s s' hs hstep => ?_)
    obtain ⟨hok, hI⟩ := hS _ s s' rfl hs hstep
    refine ⟨hok, ?_⟩
    cases a.prompt <;> exact hI
  cases seen with
  | false => exact keeps_bind (keeps_abortToCommandMode hS) (fun _ => keeps_pure _)
  | true =>
    show Keeps M I I (submitBody part encoding)
    unfold submitBody
    refine keeps_bind (keeps_writeBytes hS (fun _ => hsame)) (fun _ => ?_)
    refine keeps_bind (keeps_collect hS "AT+CMGS") (fun e => ?_)
    split
    · exact keeps_bind (keeps_abortToCommandMode hS) (fun _ => keeps_pure e)
    · exact keeps_pure e

end Submission

def sendCommands : List String :=
  ["AT+CMGF=1", "AT+CSCS=\"UCS2\"", "AT+CSMP=17,167,0,8", "AT+CSCS=\"IRA\"", "AT+CSMP=17,167,0,0"]

/-- A message, for a monitor that keeps `I` at each of its exchanges and
submissions. -/
theorem keeps_handleSend (hI : KeepsNotes M I) (hS : ∀ encoding, KeepsSubmission M I encoding)
    (hx : ∀ c ∈ sendCommands, Keeps M I I (exchange c))
    (hdone : ∀ e s s', I s → M.step s (.submitted e) s' → M.ok s (.submitted e) ∧ I s')
    (cfg : Config) (status : ModemStatusSnapshot) (toNumber body : String) :
    Keeps M I I (handleSend cfg status toNumber body) := by
  have hparts : ∀ segments encoding,
      Keeps M I I (sendAllSegments cfg toNumber segments encoding) := fun segments encoding =>
    keeps_sendAllSegments (fun segment _ =>
      keeps_sendAttempts hI (keeps_sendSmsPart (hS encoding) toNumber segment.text) hdone _ _)
  unfold handleSend
  split
  · split
    · unfold sendEncoded
      refine keeps_bind (hx _ (by decide)) (fun _ => ?_)
      cases messageEncoding body with
      | gsm7 => exact hparts _ .gsm7
      | ucs2 =>
        refine keeps_bind (keeps_setCharset (hx _ (by decide)) (hx _ (by decide))) (fun _ => ?_)
        refine keeps_bind (keeps_attempt (hparts _ .ucs2)) (fun outcome => ?_)
        refine keeps_bind (keeps_attempt (keeps_setCharset (hx _ (by decide)) (hx _ (by decide))))
          (fun _ => ?_)
        cases outcome with
        | some result => exact keeps_pure result
        | none => exact triple_fail (fun _ h => h)
    · exact keeps_bind (keeps_audit hI _ _) (fun _ => keeps_pure _)
  · exact keeps_pure _

end Rules

/-! ## The loops

The queue of announced indices is a local variable of the session, so here the
invariant is a family over it.  An error or the closing of the channel ends the
session in `J`. -/

section Loops

variable {S : Type} {M : Monitor Event S} {I : List Nat → S → Prop} {J R : S → Prop}

theorem triple_select {P : S → Prop} {Q : Choice → S → Prop}
    (hrequest : ∀ r s s', P s → M.step s (.took r) s' → M.ok s (.took r) ∧ Q (.request r) s')
    (hclosed : ∀ s s', P s → M.step s .closed s' → M.ok s .closed ∧ Q .closed s')
    (hpoll : ∀ reply s s', P s → M.step s (.polled reply) s' →
      M.ok s (.polled reply) ∧ Q reply.choice s') : Triple M P select Q R := by
  refine triple_perform (fun a s s' hs hstep => ?_)
  unfold Answer.choiceEvent at hstep ⊢
  unfold Answer.choice
  cases hturn : a.turn with
  | request r => rw [hturn] at hstep; exact hrequest r s s' hs hstep
  | closed => rw [hturn] at hstep; exact hclosed s s' hs hstep
  | poll => rw [hturn] at hstep; exact hpoll a.read s s' hs hstep

/-- What a round of the session loop leaves. -/
def afterTurn (I : List Nat → S → Prop) (J : S → Prop) : SessionState ⊕ SessionEnd → S → Prop
  | .inl s => I s.pending
  | .inr _ => J

/-- `P` is what the choice of the `select!` tells. -/
theorem triple_serveTurn {cfg : Config} {s : SessionState} {P : Choice → S → Prop}
    (hselect : Triple M (I s.pending) select P R)
    (hclosed : ∀ st, P .closed st → J st) (hlost : ∀ st, P .lost st → J st)
    (hidle : ∀ st, P (.line none) st → I s.pending st)
    (hline : ∀ line, Triple M (P (.line (some line))) (scanCmti [line] s.pending) I R)
    (hrequest : ∀ r, Triple M (P (.request r)) (handleRequest cfg s r) (fun s' => I s'.pending) J) :
    Triple M (I s.pending) (serveTurn cfg s) (afterTurn I J) R := by
  unfold serveTurn
  refine triple_bind hselect (fun choice => ?_)
  cases choice with
  | closed => exact triple_pure hclosed
  | lost => exact triple_pure hlost
  | line polled =>
    cases polled with
    | none => exact triple_pure hidle
    | some line =>
      refine triple_bind (T := fun s' => I s'.pending) ?_ (fun s' => ?_)
      · unfold pushPolled
        exact triple_bind (hline line) (fun pending => triple_pure (fun _ h => h))
      · exact triple_pure (fun _ h => h)
  | request r =>
    refine triple_bind (T := fun o st => o.elim (J st) (fun s' => I s'.pending st))
      (triple_attempt (hrequest r)) (fun o => ?_)
    cases o <;> exact triple_pure (fun _ h => h)

theorem triple_sessionStep {cfg : Config} {events : Bool} (s : SessionState)
    (hdrain : ∀ pending, Triple M (I pending) (drainPending events pending) (fun _ => I []) J)
    (hreports : KeepsReports M (I [])) (hrefresh : Keeps M (I []) J refreshStatus)
    (hserve : ∀ s, s.pending = [] → Triple M (I s.pending) (serveTurn cfg s) (afterTurn I J) R) :
    Triple M (I s.pending) (sessionStep cfg events s) (afterTurn I J) R := by
  unfold sessionStep
  refine triple_bind (T := fun o st => o.elim (J st) (fun _ => I [] st))
    (triple_attempt (hdrain s.pending)) (fun o => ?_)
  cases o with
  | none => exact triple_pure (fun _ h => h)
  | some u =>
    -- A refresh leaves the queue alone, so it is still empty when the turn starts.
    refine triple_bind (T := fun o st => o.elim (J st) (fun s' => s'.pending = [] ∧ I [] st))
      (triple_attempt ?_) (fun o => ?_)
    · exact triple_refreshIfDue hreports hrefresh { s with pending := [] }
    · cases o with
      | none => exact triple_pure (fun _ h => h)
      | some s' =>
        refine triple_pure_pre (fun hempty => ?_)
        have h := hserve s' hempty
        rw [hempty] at h
        exact h

/-- `K` is what the end of the session makes of `J`. -/
theorem triple_runSessionInner {K : S → Prop} {cfg : Config} {events : Bool}
    (status : ModemStatusSnapshot)
    (hended : ∀ r st st', J st → M.step st (.ended r) st' → M.ok st (.ended r) ∧ K st')
    (hstep : ∀ s, Triple M (I s.pending) (sessionStep cfg events s) (afterTurn I J) R) :
    Triple M (I []) (runSessionInner cfg events status) (fun _ => K) R := by
  unfold runSessionInner
  refine triple_bind (T := fun _ => J) ?_ (fun r => ?_)
  · refine triple_iterate (I := fun s : SessionState => I s.pending) (fun s => ?_)
      ⟨[], false, status⟩
    exact triple_post (hstep s) (fun r st h => by cases r <;> exact h)
  · exact triple_bind (triple_emit (hended r.1)) (fun _ => triple_pure (fun _ h => h))

end Loops

/-! ## Monitors that a session does not concern -/

section Unconcerned

variable {S : Type} {M : Monitor Event S} {I : S → Prop}

/-- The events between which a session runs. -/
def Event.isBoundary : Event → Bool
  | .opened _ | .ended _ => true
  | _ => false

/-- Only the boundaries of the sessions matter to `I`. -/
def Unconcerned (M : Monitor Event S) (I : S → Prop) : Prop :=
  ∀ e s s', e.isBoundary = false → I s → M.step s e s' → M.ok s e ∧ I s'

theorem Unconcerned.keepsReports (h : Unconcerned M I) : KeepsReports M I := by
  intro e s s' he
  exact h e s s' (by cases e <;> first | rfl | cases he)

theorem Unconcerned.keepsInbound (h : Unconcerned M I) : KeepsInbound M I := by
  intro e s s' he
  exact h e s s' (by cases e <;> first | rfl | cases he)

theorem Unconcerned.keepsSubmission (h : Unconcerned M I) (encoding : SmsEncoding) :
    KeepsSubmission M I encoding := by
  intro e s s' he
  exact h e s s' (by cases e <;> first | rfl | cases he)

theorem Unconcerned.exchange (h : Unconcerned M I) (command : String) :
    Keeps M I I (exchange command) := by
  refine triple_exchange (C := I) (T := fun _ => I) ?_
    (keeps_collect (h.keepsSubmission .gsm7) command)
    (fun e s s' => h (.exchanged e) s s' rfl)
  refine triple_perform (fun a s s' hs hstep => ?_)
  obtain ⟨hok, hI⟩ := h _ s s' rfl hs hstep
  refine ⟨hok, ?_⟩
  cases a.write <;> exact hI

theorem Unconcerned.handleRequest (h : Unconcerned M I) (cfg : Config) (s : SessionState)
    (r : ModemRequest) : Keeps M I I (handleRequest cfg s r) := by
  cases r with
  | raw command =>
    refine keeps_bind (h.exchange command) (fun e => ?_)
    refine keeps_bind (keeps_scanCmti h.keepsInbound _ _) (fun pending => ?_)
    refine keeps_bind (keeps_emit_report h.keepsReports rfl) (fun _ => ?_)
    exact keeps_bind (keeps_emit (fun s s' => h _ s s' rfl)) (fun _ => keeps_pure _)
  | sendSms toNumber body =>
    refine keeps_bind (keeps_handleSend h.keepsReports.notes h.keepsSubmission
      (fun c _ => h.exchange c) (fun e s s' => h (.submitted e) s s' rfl)
        cfg s.status toNumber body)
      (fun r => ?_)
    refine keeps_bind (keeps_emit (fun s s' => h _ s s' rfl)) (fun _ => keeps_pure _)

theorem Unconcerned.sessionStep (h : Unconcerned M I) (cfg : Config) (events : Bool)
    (s : SessionState) : Keeps M I I (sessionStep cfg events s) := by
  refine triple_post (T := afterTurn (fun _ => I) I) ?_ (fun r st hst => by cases r <;> exact hst)
  refine triple_sessionStep (I := fun _ => I) s ?_ h.keepsReports ?_ (fun s _ => ?_)
  · exact fun pending => keeps_drainPending h.keepsReports.notes h.keepsInbound
      (fun _ => h.exchange _) (fun _ => h.exchange _) events pending
  · exact keeps_refreshStatus_reports h.keepsReports (fun c _ => h.exchange c)
  · refine triple_serveTurn (I := fun _ => I) (P := fun _ => I) ?_ (fun _ h => h) (fun _ h => h)
      (fun _ h => h) (fun line => keeps_scanCmti h.keepsInbound _ _)
      (fun r => h.handleRequest cfg s r)
    exact triple_select (fun r s s' => h _ s s' rfl) (fun s s' => h _ s s' rfl)
      (fun reply s s' => h _ s s' rfl)

/-- Such a monitor only sees how the session ends. -/
theorem Unconcerned.runSessionInner {K : SessionEnd → S → Prop} (h : Unconcerned M I)
    (hended : ∀ r s s', I s → M.step s (.ended r.1) s' → M.ok s (.ended r.1) ∧ K r s')
    (cfg : Config) (events : Bool) (status : ModemStatusSnapshot) :
    Triple M I (runSessionInner cfg events status) K I := by
  refine triple_bind (keeps_iterate (h.sessionStep cfg events) _) (fun r => ?_)
  exact triple_bind (triple_emit (hended r)) (fun _ => triple_pure (fun _ hr => hr))

end Unconcerned

/-! ## The manager -/

section Manager

variable {S : Type} {M : Monitor Event S} {I J : S → Prop}

theorem keeps_markConnected (hreports : KeepsReports M J) (status : ModemStatusSnapshot) :
    Keeps M J J (markConnected status) :=
  keeps_bind (keeps_emit_report hreports rfl) (fun _ => keeps_pure _)

theorem keeps_markDisconnected (hreports : KeepsReports M J) (status : ModemStatusSnapshot) :
    Keeps M J J (markDisconnected status) :=
  keeps_bind (keeps_emit_report hreports rfl) (fun _ => keeps_pure _)

theorem keeps_backoffOrGiveup (hreports : KeepsReports M J) (cfg : Config) (s : ManagerState) :
    Keeps M J J (backoffOrGiveup cfg s) := by
  rw [backoffOrGiveup]
  split
  · refine keeps_bind (keeps_audit hreports.notes _ _) (fun _ => ?_)
    exact keeps_bind (keeps_markDisconnected hreports _) (fun _ => keeps_pure _)
  · exact keeps_bind (keeps_emit_report hreports rfl) (fun _ => keeps_pure _)

theorem keeps_dropConnection (hreports : KeepsReports M J) (cfg : Config) (s : ManagerState) :
    Keeps M J J (dropConnection cfg s) :=
  keeps_bind (keeps_markDisconnected hreports _) (fun _ => keeps_backoffOrGiveup hreports cfg _)

theorem triple_serveConnection {cfg : Config} (s : ManagerState) (hreports : KeepsReports M J)
    (hsession : ∀ status, Triple M I (runSessionInner cfg true status) (fun _ => J) J) :
    Triple M I (serveConnection cfg s) (fun _ => J) J := by
  unfold serveConnection
  refine triple_bind (hsession s.status) (fun r => ?_)
  refine keeps_bind (keeps_markDisconnected hreports _) (fun status => ?_)
  cases r.1 with
  | channelClosed => exact keeps_pure _
  | disconnected => exact keeps_backoffOrGiveup hreports cfg _

/-- One connection of the manager: the ESC that recovers the command mode takes
`J` to `C`, the setup `C` to the invariant `I` of a session with nothing
announced, and whatever ends the connection leaves `J`. -/
theorem keeps_managerStep_reports {C : S → Prop} {cfg : Config} (s : ManagerState)
    (hreportsJ : KeepsReports M J) (hreportsI : KeepsReports M I)
    (hopen : ∀ ok st st', J st → M.step st (.opened ok) st' → M.ok st (.opened ok) ∧ J st')
    (hrecover : Triple M J recoverCommandMode (fun _ => C) J)
    (hinit : Triple M C (initializeModem cfg) (fun _ => I) J)
    (hsession : ∀ status, Triple M I (runSessionInner cfg true status) (fun _ => J) J) :
    Keeps M J J (managerStep cfg s) := by
  unfold managerStep
  refine keeps_bind (keeps_perform (fun _ => rfl) (fun a => hopen a.opened)) (fun ok => ?_)
  cases ok with
  | false => exact keeps_dropConnection hreportsJ cfg s
  | true =>
    refine keeps_bind (keeps_markConnected hreportsJ s.status) (fun status => ?_)
    refine triple_bind (T := fun o st => match o with
      | some () => C st
      | none => J st) (triple_attempt hrecover) (fun o => ?_)
    cases o with
    | none => exact keeps_dropConnection hreportsJ cfg _
    | some u =>
      refine triple_bind (T := fun o st => match o with
        | some _ => I st
        | none => J st) (triple_attempt hinit) (fun o => ?_)
      cases o with
      | none => exact keeps_dropConnection hreportsJ cfg _
      | some ok =>
        refine triple_bind (p := auditInit ok) (T := fun _ => I) ?_ (fun _ => ?_)
        · cases ok
          · exact keeps_audit hreportsI.notes _ _
          · exact keeps_pure ()
        · exact triple_serveConnection _ hreportsJ hsession

theorem keeps_managerStep {C : S → Prop} {cfg : Config} (s : ManagerState)
    (hlocalJ : KeepsLocal M J) (hlocalI : KeepsLocal M I)
    (hopen : ∀ ok st st', J st → M.step st (.opened ok) st' → M.ok st (.opened ok) ∧ J st')
    (hrecover : Triple M J recoverCommandMode (fun _ => C) J)
    (hinit : Triple M C (initializeModem cfg) (fun _ => I) J)
    (hsession : ∀ status, Triple M I (runSessionInner cfg true status) (fun _ => J) J) :
    Keeps M J J (managerStep cfg s) :=
  keeps_managerStep_reports s hlocalJ.reports hlocalI.reports hopen hrecover hinit hsession

theorem keeps_runModemManager {cfg : Config} (hstep : ∀ s, Keeps M J J (managerStep cfg s)) :
    Keeps M J J (runModemManager cfg) :=
  keeps_iterate hstep ⟨0, initialSnapshot⟩

end Manager

end Modem
end GreenRelay
