/-
The storage indices that the modem has announced.

A `+CMTI` line may be read by any operation.  The polls of the session, the
exchanges about stored messages and the raw requests put its index into the
queue; the other readers drop it.  The queue itself is lost with the session,
and a failure that nobody records leaves a message behind.  `Ledger` follows an
index from the line that announces it: it is owed until a row has been inserted
or the failure has been put down, and where it is meanwhile is one of three
lists.  As long as no line is read by an operation that drops it the three lists
are, one after the other, what is owed.
-/
import GreenRelay.Modem.Rules

namespace GreenRelay
namespace Modem

open Sms Text Scripted

/-! ## The monitor -/

/-- `reading` is what the response that is being read has announced; `scanned`
says whether its reader puts the announcements into the queue. -/
structure Ledger where
  owed : List Nat
  handling : List Nat
  pending : List Nat
  reading : List Nat
  raw : Bool
  scanned : Bool
  deriving DecidableEq, Repr

def isInboundCommand (text : String) : Bool :=
  (stripPrefix "AT+CMGR=".toList text.toList).isSome ||
    (stripPrefix "AT+CMGD=".toList text.toList).isSome

def isInboundFailure (eventType : String) : Bool :=
  eventType == "inbound_read_failed" || eventType == "inbound_persist_failed"

def Ledger.announce (s : Ledger) (lines : List String) : Ledger :=
  { s with owed := s.owed ++ indices lines, reading := s.reading ++ indices lines }

/-- The handling of an index is over, `done` with a row to show for it. -/
def Ledger.settle (s : Ledger) (done : Bool) : Ledger :=
  { s with owed := if done then s.handling.foldl List.erase s.owed else s.owed, handling := [] }

/-- An event after which nothing more is put into the queue from a response. -/
def Ledger.after (s : Ledger) : Event → Ledger
  | .wrote (.command text) _ => { s with scanned := s.raw || isInboundCommand text }
  | .wrote _ _ => { s with scanned := false }
  | .popped index => { s with pending := s.pending.tail, handling := [index] }
  | .inserted _ (.ok _) => s.settle true
  | .audited eventType _ reply =>
    if isInboundFailure eventType then s.settle reply.isOk else s
  | .took (.raw _) => { s with raw := true }
  | .repliedRaw _ => { s with raw := false }
  | .ended _ => { s with handling := [], pending := [], raw := false, scanned := false }
  | _ => s

def Ledger.next (s : Ledger) : Event → Ledger
  | .read (.line line) => s.announce [line]
  | .read _ => s
  | .polled (.line line) => s.announce [line]
  | .prompted reply => s.announce reply.dropped
  | .exchanged _ => { s with scanned := false }
  | .pushed index =>
    { s with pending := s.pending ++ [index], reading := s.reading.erase index }
  | e => { s with reading := [] }.after e

/-- Every index that is owed is being handled, in the queue, or in the response
that is being read. -/
def Ledger.Accounted (s : Ledger) : Prop :=
  ∀ index, s.owed.count index ≤ (s.handling ++ s.pending ++ s.reading).count index

def announcements : Monitor Event Ledger := .observing Ledger.next (fun s e => (s.next e).Accounted)

/-- No reader drops a `+CMTI` line, no I/O error hits the port while an index is
owed, and a failure is put down. -/
def Heeded (s : Ledger) (e : Event) (s' : Ledger) : Prop :=
  (e.isIoError = true → s'.owed = []) ∧
    match e with
    | .read (.line line) => s.scanned = false → parseCmtiIndex line = none
    | .prompted reply => ∀ line ∈ reply.dropped, parseCmtiIndex line = none
    | .audited eventType _ reply => isInboundFailure eventType = true → reply.isOk = true
    | _ => True

abbrev heeded : Monitor Event Ledger := announcements.restrict Heeded

/-! ## The state between two steps -/

/-- What is owed is what is being handled, then the queue, then what is read. -/
def holding (raw scanned : Bool) (handling pending reading : List Nat) : Ledger :=
  ⟨handling ++ pending ++ reading, handling, pending, reading, raw, scanned⟩

def empty : Ledger := holding false false [] [] []

theorem accounted_holding (raw scanned : Bool) (handling pending reading : List Nat) :
    (holding raw scanned handling pending reading).Accounted :=
  fun _ => Nat.le_refl _

theorem announce_holding (raw scanned : Bool) (handling pending reading : List Nat)
    (lines : List String) :
    (holding raw scanned handling pending reading).announce lines =
      holding raw scanned handling pending (reading ++ indices lines) := by
  simp [holding, Ledger.announce]

/-- The session has lost its connection, with nothing owed. -/
def Lost (s : Ledger) : Prop := ∃ raw scanned, s = holding raw scanned [] [] []

theorem lost_of_owed {raw scanned : Bool} {handling pending reading : List Nat}
    (h : (holding raw scanned handling pending reading).owed = []) :
    Lost (holding raw scanned handling pending reading) := by
  obtain ⟨hfront, rfl⟩ := List.append_eq_nil_iff.mp h
  obtain ⟨rfl, rfl⟩ := List.append_eq_nil_iff.mp hfront
  exact ⟨raw, scanned, rfl⟩

/-- The monitor's step, with the state it leads to given as one that is
accounted for. -/
theorem step_holding {s s' : Ledger} {e : Event} {raw scanned : Bool}
    {handling pending reading : List Nat} (hstep : heeded.step s e s')
    (hnext : s.next e = holding raw scanned handling pending reading) :
    heeded.ok s e ∧ s' = holding raw scanned handling pending reading := by
  have hmove : s' = s.next e := hstep.2
  refine ⟨?_, hmove.trans hnext⟩
  show (s.next e).Accounted
  rw [hnext]
  exact accounted_holding _ _ _ _ _

/-! ## Reading and scanning a response -/

theorem indices_append (lines : List String) (line : String) :
    indices (lines ++ [line]) = indices lines ++ indices [line] :=
  List.filterMap_append

theorem indices_blank {line : String} (h : isBlank line = true) : indices [line] = [] := by
  simp [indices, parseCmtiIndex_blank h]

theorem triple_collect_scanned (raw : Bool) (handling pending : List Nat) (command : String) :
    Triple heeded (fun s => s = holding raw true handling pending [])
      (collectUntilTerminator command)
      (fun e s => s = holding raw true handling pending (indices e.lines)) Lost := by
  unfold collectUntilTerminator
  refine triple_iterate (I := fun lines s => s = holding raw true handling pending (indices lines))
    (fun lines => ?_) []
  unfold collectStep
  refine triple_bind (T := fun read s => s = holding raw true handling pending
    (indices (read.elim lines (fun line => lines ++ [line])))) ?_ (fun read => ?_)
  · refine triple_perform (fun a s s' hs hstep => ?_)
    subst hs
    cases hr : a.read with
    | timeout =>
      rw [hr] at hstep
      exact step_holding hstep rfl
    | ioError =>
      rw [hr] at hstep
      obtain ⟨hok, rfl⟩ := step_holding hstep rfl
      exact ⟨hok, lost_of_owed (hstep.1.1 rfl)⟩
    | line text =>
      rw [hr] at hstep
      have hnext := announce_holding raw true handling pending (indices lines) [text]
      rw [← indices_append] at hnext
      exact step_holding hstep hnext
  cases read with
  | none => exact triple_pure (fun _ h => h)
  | some line =>
    simp only
    cases classifyLine line with
    | terminator result => exact triple_pure (fun _ h => h)
    | nonTerminating =>
      refine triple_pure (fun s hs => ?_)
      rw [Option.elim_some] at hs
      by_cases hblank : isBlank line = true
      · rw [indices_append, indices_blank hblank, List.append_nil] at hs
        rw [if_pos hblank]
        exact hs
      · rw [if_neg hblank]
        exact hs

/-- Scanning puts what the response has announced into the queue. -/
theorem triple_scanCmti (raw : Bool) (handling : List Nat) (lines : List String)
    (pending : List Nat) {R : Ledger → Prop} :
    Triple heeded (fun s => s = holding raw false handling pending (indices lines))
      (scanCmti lines pending) (fun pending s => s = holding raw false handling pending []) R := by
  induction lines generalizing pending with
  | nil => exact triple_pure (fun _ h => h)
  | cons line lines ih =>
    unfold scanCmti indices
    rw [List.filterMap_cons]
    cases parseCmtiIndex line with
    | none => exact ih pending
    | some index =>
      refine triple_bind (T := fun _ s =>
        s = holding raw false handling (pending ++ [index]) (indices lines)) ?_ (fun _ => ih _)
      refine triple_emit (fun s s' hs hstep => ?_)
      subst hs
      refine step_holding hstep ?_
      simp [holding, Ledger.next, indices]

/-- An exchange whose response is scanned afterwards. -/
theorem triple_exchange_scanned {raw : Bool} {text : String}
    (h : raw = true ∨ isInboundCommand text = true) (handling pending : List Nat) :
    Triple heeded (fun s => s = holding raw false handling pending []) (exchange text)
      (fun e s => s = holding raw false handling pending (indices e.lines)) Lost := by
  refine triple_exchange (C := fun s => s = holding raw true handling pending []) ?_
    (triple_collect_scanned raw handling pending text) ?_
  · refine triple_perform (fun a s s' hs hstep => ?_)
    subst hs
    have hnext : (holding raw false handling pending []).next (.wrote (.command text) a.write) =
        holding raw true handling pending [] := by
      simp only [Ledger.next, Ledger.after, holding]
      rw [(Bool.or_eq_true _ _).mpr h]
    obtain ⟨hok, hs'⟩ := step_holding hstep hnext
    refine ⟨hok, ?_⟩
    cases hw : a.write with
    | ok => exact hs'
    | ioError n =>
      rw [hw] at hstep
      have howed := hstep.1.1 rfl
      rw [hs'] at howed ⊢
      exact lost_of_owed howed
  · intro e s s' hs hstep
    subst hs
    exact step_holding hstep rfl

/-! ## The handling of an index -/

theorem isInboundCommand_cmgr (index : Nat) : isInboundCommand (cmgrCommand index) = true := by
  rw [isInboundCommand, cmgrCommand, String.toList_append]
  rfl

theorem isInboundCommand_cmgd (index : Nat) : isInboundCommand (cmgdCommand index) = true := by
  rw [isInboundCommand, cmgdCommand, String.toList_append]
  rfl

/-- A row for the failure settles the index. -/
theorem triple_audit_failure {eventType : String} (h : isInboundFailure eventType = true)
    (index : Nat) (pending : List Nat) (detail : String) {R : Ledger → Prop} :
    Triple heeded (fun s => s = holding false false [index] pending []) (audit eventType detail)
      (fun _ s => s = holding false false [] pending []) R := by
  refine triple_perform (fun a s s' hs hstep => ?_)
  subst hs
  have hok : a.db.isOk = true := hstep.1.2 h
  refine step_holding hstep ?_
  simp [Ledger.next, Ledger.after, h, hok, Ledger.settle, holding]

theorem triple_audit_other {eventType : String} (h : isInboundFailure eventType = false)
    (pending : List Nat) (detail : String) {R : Ledger → Prop} :
    Keeps heeded (fun s => s = holding false false [] pending []) R (audit eventType detail) := by
  refine keeps_perform (fun _ => rfl) (fun a s s' hs hstep => ?_)
  subst hs
  refine step_holding hstep ?_
  simp [Ledger.next, Ledger.after, h, holding]

theorem triple_readInbound_holding (index attempts : Nat) (pending : List Nat) :
    Triple heeded (fun s => s = holding false false [index] pending [])
      (readInbound index attempts pending)
      (fun r s => s = holding false false [index] r.2 []) Lost := by
  induction attempts generalizing pending with
  | zero => exact triple_pure (fun _ h => h)
  | succ attempts ih =>
    unfold readInbound
    refine triple_bind (triple_exchange_scanned (Or.inr (isInboundCommand_cmgr index))
      [index] pending)
      (fun e => ?_)
    refine triple_bind (triple_scanCmti false [index] e.lines pending) (fun pending => ?_)
    cases e.inbound with
    | none => exact ih pending
    | some message => exact triple_pure (fun _ h => h)

theorem triple_storeInbound_holding (events : Bool) (index : Nat) (message : ParsedInbound)
    (pending : List Nat) :
    Triple heeded (fun s => s = holding false false [index] pending [])
      (storeInbound events index message pending)
      (fun pending s => s = holding false false [] pending []) Lost := by
  unfold storeInbound
  refine triple_bind (T := fun reply s => s = holding false false
    (if reply.isOk then [] else [index]) pending []) ?_ (fun reply => ?_)
  · refine triple_perform (fun a s s' hs hstep => ?_)
    subst hs
    refine step_holding hstep ?_
    cases a.db with
    | ok rowId => simp [Ledger.next, Ledger.after, Ledger.settle, holding, DbReply.isOk]
    | error text => rfl
  cases reply with
  | error text =>
    exact triple_bind (triple_audit_failure (by decide) index pending _)
      (fun _ => triple_pure (fun _ h => h))
  | ok rowId =>
    refine triple_bind (T := fun _ s => s = holding false false [] pending []) ?_ (fun _ => ?_)
    · unfold publishInbound
      cases events with
      | false => exact triple_pure (fun _ h => h)
      | true =>
        refine triple_emit (fun s s' hs hstep => ?_)
        obtain rfl : s = holding false false [] pending [] := hs
        exact step_holding hstep rfl
    refine triple_bind (triple_exchange_scanned (Or.inr (isInboundCommand_cmgd index)) [] pending)
      (fun delete => ?_)
    refine triple_bind (triple_scanCmti false [] delete.lines pending) (fun pending => ?_)
    refine triple_bind (T := fun _ s => s = holding false false [] pending []) ?_
      (fun _ => triple_pure (fun _ h => h))
    unfold auditDelete
    split
    · exact triple_pure (fun _ h => h)
    · exact triple_audit_other (by decide) pending _

theorem triple_handleInboundInner_holding (events : Bool) (index : Nat) (pending : List Nat) :
    Triple heeded (fun s => s = holding false false [index] pending [])
      (handleInboundInner events index pending)
      (fun pending s => s = holding false false [] pending []) Lost := by
  unfold handleInboundInner
  refine triple_bind (triple_readInbound_holding index 3 pending) (fun r => ?_)
  obtain ⟨message, pending⟩ := r
  cases message with
  | none =>
    exact triple_bind (triple_audit_failure (by decide) index pending _)
      (fun _ => triple_pure (fun _ h => h))
  | some message => exact triple_storeInbound_holding events index message pending

theorem triple_drainPending_holding (events : Bool) (pending : List Nat) :
    Triple heeded (fun s => s = holding false false [] pending []) (drainPending events pending)
      (fun _ s => s = empty) Lost := by
  unfold drainPending
  refine triple_iterate (I := fun pending s => s = holding false false [] pending [])
    (fun pending => ?_) pending
  cases pending with
  | nil => exact triple_pure (fun _ h => h)
  | cons index pending =>
    refine triple_bind (T := fun _ s => s = holding false false [index] pending []) ?_ (fun _ => ?_)
    · refine triple_emit (fun s s' hs hstep => ?_)
      subst hs
      exact step_holding hstep rfl
    · exact triple_bind (triple_handleInboundInner_holding events index pending)
        (fun _ => triple_pure (fun _ h => h))

/-! ## With nothing announced -/

theorem lost_of_empty {s : Ledger} (h : s = empty) : Lost s := ⟨false, false, h⟩

theorem keepsLocal_empty : KeepsLocal heeded (fun s => s = empty) := by
  intro e s s' he hs hstep
  subst hs
  refine step_holding hstep ?_
  match e with
  | .audited eventType detail reply =>
    simp [Ledger.next, Ledger.after, Ledger.settle, empty, holding]
  | .status snapshot => rfl
  | .clock due => rfl
  | .repliedRaw x => rfl
  | .ended outcome => rfl
  | .slept secs => rfl

theorem keepsSubmission_empty (encoding : SmsEncoding) :
    KeepsSubmission heeded (fun s => s = empty) encoding := by
  intro e s s' he hs hstep
  subst hs
  refine step_holding hstep ?_
  match e with
  | .wrote (.header toNumber enc) reply => rfl
  | .wrote (.body part enc) reply => rfl
  | .wrote .abort reply => rfl
  | .prompted reply =>
    have hnone : indices reply.dropped = [] := List.filterMap_eq_nil_iff.mpr hstep.1.2
    rw [Ledger.next, empty, announce_holding, hnone]
    rfl
  | .read (.line line) =>
    have hnone : indices [line] = [] := by simp [indices, hstep.1.2 rfl]
    rw [Ledger.next, empty, announce_holding, hnone]
    rfl
  | .read .timeout => rfl
  | .read .ioError => rfl

/-- An exchange whose response is not scanned. -/
theorem keeps_exchange_empty {text : String} (h : isInboundCommand text = false) :
    Keeps heeded (fun s => s = empty) (fun s => s = empty) (exchange text) := by
  refine triple_exchange (C := fun s => s = empty) ?_
    (keeps_collect (keepsSubmission_empty .gsm7) text) (fun e s s' hs hstep => ?_)
  · refine triple_perform (fun a s s' hs hstep => ?_)
    subst hs
    have hnext : empty.next (.wrote (.command text) a.write) = empty := by
      simp [Ledger.next, Ledger.after, empty, holding, h]
    obtain ⟨hok, hs'⟩ := step_holding hstep hnext
    refine ⟨hok, ?_⟩
    cases a.write <;> exact hs'
  · subst hs
    exact step_holding hstep rfl

theorem keeps_exchange_lost {text : String} (h : isInboundCommand text = false) :
    Keeps heeded (fun s => s = empty) Lost (exchange text) :=
  keeps_weaken (keeps_exchange_empty h) (fun _ => lost_of_empty)

/-! ## The session and the manager -/

/-- What the `select!` leaves, by its choice. -/
def chosen : Choice → Ledger
  | .request (.raw _) => holding true false [] [] []
  | .line (some line) => holding false false [] [] (indices [line])
  | _ => empty

theorem triple_select_holding {R : Ledger → Prop} :
    Triple heeded (fun s => s = empty) select (fun choice s => s = chosen choice) R := by
  refine triple_select (fun r s s' hs hstep => ?_) (fun s s' hs hstep => ?_)
    (fun reply s s' hs hstep => ?_)
  · subst hs
    cases r <;> exact step_holding hstep rfl
  · subst hs
    exact step_holding hstep rfl
  · subst hs
    cases reply with
    | line text =>
      refine step_holding hstep ?_
      rw [Ledger.next, empty, announce_holding]
      rfl
    | timeout => exact step_holding hstep rfl
    | ioError => exact step_holding hstep rfl

theorem triple_handleRequest_holding (cfg : Config) {s : SessionState} (hs : s.pending = [])
    (r : ModemRequest) :
    Triple heeded (fun st => st = chosen (.request r)) (handleRequest cfg s r)
      (fun s' st => st = holding false false [] s'.pending []) Lost := by
  cases r with
  | raw command =>
    show Triple heeded (fun st => st = holding true false [] [] []) (handleRaw command s) _ _
    unfold handleRaw
    rw [hs]
    refine triple_bind (triple_exchange_scanned (Or.inl rfl) [] []) (fun e => ?_)
    refine triple_bind (triple_scanCmti true [] e.lines []) (fun pending => ?_)
    refine triple_bind (T := fun _ st => st = holding true false [] pending []) ?_ (fun _ => ?_)
    · refine triple_emit (fun st st' hst hstep => ?_)
      subst hst
      exact step_holding hstep rfl
    refine triple_bind (T := fun _ st => st = holding false false [] pending []) ?_
      (fun _ => triple_pure (fun _ h => h))
    refine triple_emit (fun st st' hst hstep => ?_)
    subst hst
    exact step_holding hstep rfl
  | sendSms toNumber body =>
    have hcommands : ∀ c ∈ sendCommands, isInboundCommand c = false := by decide +kernel
    have hsend := keeps_handleSend keepsLocal_empty.notes keepsSubmission_empty
      (fun c hc => keeps_exchange_empty (hcommands c hc))
      (fun e st st' hst hstep => by subst hst; exact step_holding hstep rfl)
      cfg s.status toNumber body
    refine triple_bind (keeps_weaken hsend (fun _ => lost_of_empty)) (fun result => ?_)
    refine triple_bind (T := fun _ st => st = empty) ?_ (fun _ => triple_pure (fun st hst => ?_))
    · refine triple_emit (fun st st' hst hstep => ?_)
      subst hst
      exact step_holding hstep rfl
    · rw [hs]
      exact hst

theorem triple_sessionStep_holding (cfg : Config) (events : Bool) (s : SessionState)
    {R : Ledger → Prop} :
    Triple heeded (fun st => st = holding false false [] s.pending []) (sessionStep cfg events s)
      (afterTurn (fun pending st => st = holding false false [] pending []) Lost) R := by
  have hstatus : ∀ c ∈ statusCommands, isInboundCommand c = false := by decide +kernel
  refine triple_sessionStep (I := fun pending st => st = holding false false [] pending []) s
    (triple_drainPending_holding events) keepsLocal_empty.reports ?_ (fun s hs => ?_)
  · exact keeps_refreshStatus keepsLocal_empty
      (fun c hc => keeps_exchange_lost (hstatus c hc))
  refine triple_serveTurn (I := fun pending st => st = holding false false [] pending [])
    (P := fun choice st => st = chosen choice) ?_ (fun _ => lost_of_empty) (fun _ => lost_of_empty)
    (fun st hst => ?_) (fun line => ?_) (triple_handleRequest_holding cfg hs)
  · rw [hs]
    exact triple_select_holding
  · rw [hs]
    exact hst
  · rw [hs]
    exact triple_scanCmti false [] [line] []

theorem keeps_managerStep_empty (cfg : Config) (s : ManagerState) :
    Keeps heeded (fun st => st = empty) (fun st => st = empty) (managerStep cfg s) := by
  refine keeps_managerStep (I := fun st => st = empty) (C := fun st => st = empty) s
    keepsLocal_empty keepsLocal_empty (fun ok st st' hst hstep => ?_) ?_ ?_ (fun status => ?_)
  · subst hst
    exact step_holding hstep rfl
  · exact keeps_abortToCommandMode (keepsSubmission_empty .gsm7)
  · refine keeps_runCommands (fun c hc => keeps_exchange_empty ?_) true
    have hfixed : ∀ c ∈ ["AT+CMGF=1", "AT+CSCS=\"IRA\"", "AT+CSMP=17,167,0,0", "AT+CSDH=1"],
        isInboundCommand c = false := by decide +kernel
    obtain ⟨last, hcommands, hlast⟩ := initCommands_eq cfg
    rw [hcommands] at hc
    rcases List.mem_append.mp hc with hc | hc
    · exact hfixed c hc
    · obtain ⟨csca, _, rfl⟩ := hlast c hc
      unfold isInboundCommand
      rw [String.toList_append, String.toList_append]
      rfl
  · refine triple_runSessionInner (I := fun pending st => st = holding false false [] pending [])
      (J := Lost) status (fun r st st' hst hstep => ?_)
      (fun s => triple_sessionStep_holding cfg true s)
    obtain ⟨raw, scanned, rfl⟩ := hst
    exact step_holding hstep rfl

/-- In every run of the manager whose readers drop no announcement, that meets
no I/O error while an index is owed, and that puts failures down, every index
that was announced is in the queue, in hand, or done with. -/
theorem announced_accounted (cfg : Config) (script : List Answer) :
    (announcements.restrict Heeded).Safe empty (runModemManager cfg script).trace :=
  (keeps_runModemManager (keeps_managerStep_empty cfg)).safe script rfl

/-! ## An announcement while a message is read -/

def heeds (s : Ledger) : Event → Bool
  | .read (.line line) => s.scanned || (parseCmtiIndex line).isNone
  | .prompted reply => reply.dropped.all (fun line => (parseCmtiIndex line).isNone)
  | .audited eventType _ reply => !isInboundFailure eventType || reply.isOk
  | _ => true

theorem heeded_of_heeds {s s' : Ledger} {e : Event}
    (howed : e.isIoError = true → s'.owed = []) (h : heeds s e = true) : Heeded s e s' := by
  refine ⟨howed, ?_⟩
  split
  · intro hscanned
    simpa [heeds, hscanned] using h
  · intro line hline
    exact Option.isNone_iff_eq_none.mp (List.all_eq_true.mp h line hline)
  · intro hfailure
    simpa [heeds, hfailure] using h
  · trivial

/-- The ledger as long as the events are heeded. -/
def heeding (s : Ledger) (e : Event) : Option Ledger :=
  if (e.isIoError = true → (s.next e).owed = []) ∧ heeds s e = true then some (s.next e) else none

theorem step_heeding (s : Ledger) (e : Event) (s' : Ledger) (h : heeding s e = some s') :
    heeded.step s e s' := by
  unfold heeding at h
  split at h
  · next hheeds =>
    cases h
    exact ⟨heeded_of_heeds hheeds.1 hheeds.2, rfl⟩
  · cases h

/-- The message in slot 4 is announced while the one in slot 3 is read. -/
def announcedMeanwhile : List Answer :=
  connects ++ [.quiet, .quiet, .line "+CMTI: \"SM\",3", .quiet, .line "+CMTI: \"SM\",4",
    .line "+CMGR: \"REC UNREAD\",\"+15551230000\"", .line "hello", .line "OK", .quiet,
    .quiet, .quiet, .line "OK"]

/-- Both are owed while the first one is handled, and then the second one is. -/
theorem announced_accounted_meanwhile :
    ((⟨[3, 4], [3], [4], [], false, false⟩, .inserted ⟨"+15551230000", "hello"⟩ (.ok 0)) :
        Ledger × Event) ∈ Monitor.follow heeding empty
      (runModemManager plainConfig announcedMeanwhile).trace ∧
    ((⟨[4], [], [4], [], false, false⟩, .popped 4) : Ledger × Event) ∈
      Monitor.follow heeding empty (runModemManager plainConfig announcedMeanwhile).trace ∧
    (Ledger.next ⟨[4], [], [4], [], false, false⟩ (.popped 4)).Accounted := by
  have hinserted : ((⟨[3, 4], [3], [4], [], false, false⟩,
      .inserted ⟨"+15551230000", "hello"⟩ (.ok 0)) : Ledger × Event) ∈
      Monitor.follow heeding empty (runModemManager plainConfig announcedMeanwhile).trace := by
    decide +kernel
  have hpopped : ((⟨[4], [], [4], [], false, false⟩, .popped 4) : Ledger × Event) ∈
      Monitor.follow heeding empty (runModemManager plainConfig announcedMeanwhile).trace := by
    decide +kernel
  have hok : ∀ script x, x ∈ Monitor.follow heeding empty
      (runModemManager plainConfig script).trace → heeded.ok x.1 x.2 :=
    fun script _ => heeded.ok_of_mem_follow step_heeding (announced_accounted plainConfig script)
  exact ⟨hinserted, hpopped, hok _ _ hpopped⟩

/-! ## An announcement that a status query reads -/

def announcedToRefresh : List Answer :=
  [.quiet, .quiet, .quiet] ++
    answered ["OK"] ++ answered ["OK"] ++ answered ["OK"] ++ answered ["OK"] ++
    answered ["+CMTI: \"SM\",3", "+CPIN: READY", "OK"] ++ [.quiet]

theorem announcement_dropped :
    ¬ ∀ (cfg : Config) (script : List Answer),
      announcements.Safe empty (runModemManager cfg script).trace := by
  intro h
  have hnext : ∀ (s : Ledger) (e : Event) (s' : Ledger), some (s.next e) = some s' →
      announcements.step s e s' := fun s e s' h => (Option.some_inj.mp h).symm
  have hmem : ((⟨[3], [], [], [3], false, false⟩, .wrote (.command "AT+CREG?") .ok) :
      Ledger × Event) ∈ Monitor.follow (fun s e => some (s.next e)) empty
        (runModemManager plainConfig announcedToRefresh).trace := by decide +kernel
  have hok := announcements.ok_of_mem_follow hnext (h _ _) hmem
  exact absurd (hok 3) (by decide +kernel)

end Modem
end GreenRelay
