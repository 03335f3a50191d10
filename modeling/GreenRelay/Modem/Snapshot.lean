/-
What is shown of a modem that is disconnected.

The snapshot is written in five places.  Only a refresh fills the registration,
the signal and the operator, and nothing clears them: `mark_disconnected` resets
the two flags of the connection and leaves the rest.  So the fields are at all
times what the last completed refresh found, and a disconnected modem is shown
as unavailable exactly when that refresh found nothing
(`disconnected_unavailable_iff`).

`Seen` is what a trace tells of the snapshot: what was written last, and the
last refresh, told by its four exchanges and the write after them.
-/
import GreenRelay.Api.Status
import GreenRelay.Modem.Rules

namespace GreenRelay
namespace Modem

open Scripted

/-! ## The monitor -/

/-- The exchanges of a refresh whose answers are shown. -/
structure Refresh where
  creg : AtExchange
  csq : AtExchange
  cops : AtExchange

/-- The refresh that the latest exchanges are, the last of them first. -/
def completed : List AtExchange → Option Refresh
  | cops :: csq :: creg :: cpin :: _ =>
    if [cpin, creg, csq, cops].map (·.command) = statusCommands then some ⟨creg, csq, cops⟩
    else none
  | _ => none

/-- `probe` are the exchanges since the snapshot was last written or a request
was taken, the latest first. -/
structure Seen where
  probe : List AtExchange
  refresh : Option Refresh
  shown : ModemStatusSnapshot

def Seen.initial : Seen := ⟨[], none, initialSnapshot⟩

def Seen.next (s : Seen) : Event → Seen
  | .exchanged e => { s with probe := e :: s.probe }
  | .status x => ⟨[], (completed s.probe).or s.refresh, x⟩
  | .took _ => { s with probe := [] }
  | _ => s

/-- The snapshot and the last refresh after a part of a run. -/
def observe (t : List Event) : Seen := t.foldl Seen.next .initial

/-- The fields of a snapshot that a refresh fills are those of this one. -/
def Carries : Option Refresh → ModemStatusSnapshot → Prop
  | none, x => x.registered = false ∧ x.signalPercent = none ∧ x.operator = none
  | some r, x => x.registered = parseCregRegistered r.creg.lines ∧
      x.signalPercent = parseCsqPercent r.csq.lines ∧ x.operator = parseCopsOperator r.cops.lines

structure Seen.Sound (s : Seen) : Prop where
  carries : Carries s.refresh s.shown
  down : s.shown.serialConnected = false → s.shown.responsive = false

def snapshots : Monitor Event Seen :=
  .observing Seen.next (fun s e =>
    match e with
    | .status _ => (s.next e).Sound
    | _ => True)

/-- What is written with every step is true at every point of the run. -/
theorem sound_of_safe {s : Seen} (hs : s.Sound) {t : List Event} (h : snapshots.Safe s t) :
    ∀ t', t' <+: t → (t'.foldl Seen.next s).Sound := by
  induction t generalizing s with
  | nil =>
      intro t' ht'
      rw [List.prefix_nil.mp ht']
      exact hs
  | cons e t ih =>
      intro t' ht'
      obtain ⟨hok, hrest⟩ := h (s.next e) rfl
      have hnext : (s.next e).Sound := by
        cases e with
        | status x => exact hok
        | _ => exact ⟨hs.carries, hs.down⟩
      cases t' with
      | nil => exact hs
      | cons e' t' =>
          obtain ⟨rfl, hrest'⟩ := List.cons_prefix_cons.mp ht'
          exact ih hnext hrest t' hrest'

/-! ## Assertions -/

/-- The program holds a snapshot with what the last refresh found, and no refresh
is about to be completed. -/
structure Holding (x : ModemStatusSnapshot) (s : Seen) : Prop where
  carries : Carries s.refresh x
  probe : completed s.probe = none

theorem completed_cons {e : AtExchange} (h : e.command ≠ "AT+COPS?") (probe : List AtExchange) :
    completed (e :: probe) = none := by
  unfold completed
  split
  · rename_i heq
    rw [List.cons.injEq] at heq
    rw [heq.1] at h
    rw [if_neg]
    simp [statusCommands, h]
  · rfl

/-- The events that the monitor takes no note of. -/
def Event.isApart : Event → Bool
  | .exchanged _ | .status _ | .took _ => false
  | _ => true

section Keeping

variable {x : ModemStatusSnapshot}

theorem apart {e : Event} (he : e.isApart = true) {I : Seen → Prop} {s s' : Seen} (hs : I s)
    (hstep : snapshots.step s e s') : snapshots.ok s e ∧ I s' := by
  have hsame : s' = s := by
    have hnext : s' = s.next e := hstep
    cases e with
    | exchanged | status | took => cases he
    | _ => exact hnext
  rw [hsame]
  cases e with
  | status => cases he
  | _ => exact ⟨trivial, hs⟩

theorem keepsNotes_snapshots (I : Seen → Prop) : KeepsNotes snapshots I := by
  intro e s s' he hs hstep
  exact apart (by cases e <;> first | rfl | cases he) hs hstep

theorem keepsInbound_snapshots (I : Seen → Prop) : KeepsInbound snapshots I := by
  intro e s s' he hs hstep
  exact apart (by cases e <;> first | rfl | cases he) hs hstep

theorem keepsSubmission_snapshots (I : Seen → Prop) (encoding : Sms.SmsEncoding) :
    KeepsSubmission snapshots I encoding := by
  intro e s s' he hs hstep
  exact apart (by cases e <;> first | rfl | cases he) hs hstep

theorem status_written {s s' : Seen} {y : ModemStatusSnapshot}
    (hcarries : Carries ((completed s.probe).or s.refresh) y)
    (hdown : y.serialConnected = false → y.responsive = false)
    (hstep : snapshots.step s (.status y) s') : snapshots.ok s (.status y) ∧ Holding y s' := by
  have hnext : s' = s.next (.status y) := hstep
  rw [hnext]
  exact ⟨⟨hcarries, hdown⟩, hcarries, rfl⟩

/-- A write of the snapshot that leaves alone what a refresh filled. -/
theorem status_held {s s' : Seen} (hs : Holding x s) {y : ModemStatusSnapshot}
    (hfields : y.registered = x.registered ∧ y.signalPercent = x.signalPercent ∧
      y.operator = x.operator)
    (hdown : y.serialConnected = false → y.responsive = false)
    (hstep : snapshots.step s (.status y) s') : snapshots.ok s (.status y) ∧ Holding y s' := by
  refine status_written ?_ hdown hstep
  have h := hs.carries
  rw [hs.probe, Option.none_or]
  cases hr : s.refresh <;> rw [hr] at h <;>
    exact ⟨hfields.1.trans h.1, hfields.2.1.trans h.2.1, hfields.2.2.trans h.2.2⟩

theorem triple_command_snapshots (I : Seen → Prop) (text : String) :
    Keeps snapshots I I (writeBytes (.command text)) := by
  refine triple_perform (fun a s s' hs hstep => ?_)
  obtain ⟨hok, h⟩ := apart rfl hs hstep
  refine ⟨hok, ?_⟩
  cases a.write <;> exact h

/-- An exchange adds itself to the exchanges so far. -/
theorem triple_exchange_snapshots {I : Seen → Prop} {Q : AtExchange → Seen → Prop} (text : String)
    (h : ∀ e s, e.command = text → I s → Q e { s with probe := e :: s.probe }) :
    Triple snapshots I (exchange text) Q I := by
  refine triple_exchange (triple_command_snapshots I text)
    (triple_collect (fun r s s' hs hstep => ?_) text) ?_
  · obtain ⟨hok, hI⟩ := apart rfl hs hstep
    refine ⟨hok, ?_⟩
    split <;> exact hI
  · intro e s s' hs hstep
    have hnext : s' = { s with probe := e :: s.probe } := hstep
    rw [hnext]
    exact ⟨trivial, h e s hs.1 hs.2⟩

/-- Only the last exchange of a refresh can complete one. -/
theorem keeps_exchange_snapshots {text : String} (htext : text ≠ "AT+COPS?") :
    Keeps snapshots (Holding x) (Holding x) (exchange text) := by
  apply triple_exchange_snapshots
  intro e s he hs
  exact ⟨hs.carries, completed_cons (he ▸ htext) s.probe⟩

end Keeping

/-! ## The refresh -/

/-- The exchanges of a refresh so far, the latest first. -/
def Refreshing (x : ModemStatusSnapshot) (es : List AtExchange) (s : Seen) : Prop :=
  Holding x s ∧ ∃ older, s.probe = es ++ older

theorem triple_probe {x : ModemStatusSnapshot} (es : List AtExchange) {text : String}
    (htext : text ≠ "AT+COPS?") :
    Triple snapshots (Refreshing x es) (exchange text)
      (fun e s => e.command = text ∧ Refreshing x (e :: es) s) (Holding x) := by
  refine triple_conseq (triple_exchange_snapshots text ?_) (fun _ h => h) (fun _ _ h => h)
    (fun _ h => h.1)
  intro e s he ⟨hs, older, hprobe⟩
  exact ⟨he, ⟨hs.carries, completed_cons (he ▸ htext) s.probe⟩, older, by rw [hprobe]; rfl⟩

/-- A refresh writes and returns what it has found. -/
theorem triple_refreshStatus_snapshots (x : ModemStatusSnapshot) :
    Triple snapshots (Holding x) refreshStatus
      (fun y s => y.serialConnected = true ∧ Holding y s) (Holding x) := by
  unfold refreshStatus
  refine triple_bind (triple_pre (triple_probe [] (by decide)) (fun s hs => ⟨hs, s.probe, rfl⟩))
    (fun cpin => triple_pure_pre (fun hcpin => ?_))
  refine triple_bind (triple_probe [cpin] (by decide))
    (fun creg => triple_pure_pre (fun hcreg => ?_))
  refine triple_bind (triple_probe [creg, cpin] (by decide))
    (fun csq => triple_pure_pre (fun hcsq => ?_))
  refine triple_bind (T := fun cops s => cops.command = "AT+COPS?" ∧
    completed s.probe = some ⟨creg, csq, cops⟩) ?_ (fun cops => triple_pure_pre (fun hcops => ?_))
  · refine triple_conseq (triple_exchange_snapshots "AT+COPS?" ?_) (fun _ h => h) (fun _ _ h => h)
      (fun _ h => h.1)
    intro cops s hcops ⟨_, older, hprobe⟩
    refine ⟨hcops, ?_⟩
    show completed (cops :: s.probe) = _
    rw [hprobe]
    show (if [cpin, creg, csq, cops].map (·.command) = statusCommands then _ else none) = _
    rw [if_pos]
    simp [statusCommands, hcpin, hcreg, hcsq, hcops]
  · refine triple_bind (triple_emit ?_) (fun _ => triple_pure (fun _ h => h))
    intro s s' hcompleted hstep
    obtain ⟨hok, h⟩ := status_written (by rw [hcompleted]; exact ⟨rfl, rfl, rfl⟩)
      (fun hdown => by cases hdown) hstep
    exact ⟨hok, rfl, h⟩

/-! ## The session -/

/-- At the head of the session loop. -/
def AtTurn (s : SessionState) (st : Seen) : Prop :=
  s.status.serialConnected = true ∧ Holding s.status st

def atRoundEnd : SessionState ⊕ SessionEnd → Seen → Prop
  | .inl s => AtTurn s
  | .inr r => Holding r.2

theorem keeps_drainPending_snapshots (x : ModemStatusSnapshot) (events : Bool)
    (pending : List Nat) :
    Keeps snapshots (Holding x) (Holding x) (drainPending events pending) := by
  apply keeps_drainPending (keepsNotes_snapshots _) (keepsInbound_snapshots _)
  · intro index
    exact keeps_exchange_snapshots (cmgr_ne (by decide) index)
  · intro index
    exact keeps_exchange_snapshots (cmgd_ne (by decide) index)

theorem triple_refreshIfDue_snapshots (s : SessionState) :
    Triple snapshots (AtTurn s) (refreshIfDue s) AtTurn (Holding s.status) := by
  unfold refreshIfDue
  refine triple_bind (T := fun _ => AtTurn s) ?_ (fun due => ?_)
  · unfold dueForRefresh
    cases s.refreshed
    · exact keeps_pure true
    · exact keeps_refreshDue (keepsNotes_snapshots _)
  · cases due
    · exact triple_pure (fun _ h => h)
    · exact triple_bind (triple_pre (triple_refreshStatus_snapshots s.status) (fun _ h => h.2))
        (fun status => triple_pure (fun _ h => h))

/-- A raw request may be any command, but it is one exchange only. -/
theorem triple_handleRaw_snapshots (command : String) (s : SessionState) :
    Triple snapshots (fun st => AtTurn s st ∧ st.probe = []) (handleRaw command s) AtTurn
      (Holding s.status) := by
  unfold handleRaw
  refine triple_bind (T := fun _ => AtTurn s) ?_ (fun e => ?_)
  · refine triple_conseq (triple_exchange_snapshots (Q := fun _ => AtTurn s) command ?_)
      (fun _ h => h) (fun _ _ h => h) (fun _ h => h.1.2)
    intro e st he ⟨hs, hprobe⟩
    refine ⟨hs.1, hs.2.carries, ?_⟩
    show completed (e :: st.probe) = none
    rw [hprobe]
    rfl
  refine triple_bind (keeps_scanCmti (keepsInbound_snapshots _) e.lines s.pending)
    (fun pending => ?_)
  refine triple_bind (T := fun _ st => AtTurn
    { s with
      pending := pending
      status := { s.status with responsive := e.result != .timeout } } st)
    (triple_emit ?_) (fun _ => ?_)
  · intro st st' hs hstep
    have hup : s.status.serialConnected ≠ false := by
      rw [hs.1]
      decide
    obtain ⟨hok, h⟩ := status_held
      (y := { s.status with responsive := e.result != .timeout }) hs.2 ⟨rfl, rfl, rfl⟩
      (fun hdown => absurd hdown hup) hstep
    exact ⟨hok, hs.1, h⟩
  · exact triple_bind (triple_emit (fun st st' hs hstep => apart rfl hs hstep))
      (fun _ => triple_pure (fun _ h => h))

/-- What the choice of the `select!` tells the session. -/
def AtChoice (s : SessionState) : Choice → Seen → Prop
  | .request _ => fun st => AtTurn s st ∧ st.probe = []
  | _ => AtTurn s

theorem triple_handleRequest_snapshots (cfg : Config) (s : SessionState) (r : ModemRequest) :
    Triple snapshots (AtChoice s (.request r)) (handleRequest cfg s r) AtTurn
      (Holding s.status) := by
  cases r with
  | raw command => exact triple_handleRaw_snapshots command s
  | sendSms toNumber body =>
      have hcommands : ∀ c ∈ sendCommands,
          Keeps snapshots (Holding s.status) (Holding s.status) (exchange c) := by
        intro c hc
        apply keeps_exchange_snapshots
        intro h
        subst h
        exact absurd hc (by decide)
      have hsend := keeps_handleSend (keepsNotes_snapshots _) (keepsSubmission_snapshots _)
        hcommands (fun e st st' => apart rfl) cfg s.status toNumber body
      refine triple_pre (triple_pure_pre (φ := s.status.serialConnected = true)
        (P := Holding s.status) (fun hup => ?_)) (fun st h => h.1)
      refine triple_bind hsend (fun r => ?_)
      exact triple_bind (triple_emit (fun st st' hs hstep => apart rfl hs hstep))
        (fun _ => triple_pure (fun st h => ⟨hup, h⟩))

theorem triple_select_snapshots {R : Seen → Prop} (s : SessionState) :
    Triple snapshots (AtTurn s) select (AtChoice s) R := by
  refine triple_select ?_ ?_ ?_
  · intro r st st' hs hstep
    have hnext : st' = { st with probe := [] } := hstep
    rw [hnext]
    exact ⟨trivial, ⟨hs.1, hs.2.carries, rfl⟩, rfl⟩
  · intro st st' hs hstep
    exact apart rfl hs hstep
  · intro reply st st' hs hstep
    obtain ⟨hok, h⟩ := apart rfl hs hstep
    refine ⟨hok, ?_⟩
    cases reply <;> exact h

theorem triple_serveTurn_snapshots {R : Seen → Prop} (cfg : Config) (s : SessionState) :
    Triple snapshots (AtTurn s) (serveTurn cfg s) atRoundEnd R := by
  unfold serveTurn
  refine triple_bind (triple_select_snapshots s) (fun choice => ?_)
  cases choice with
  | closed => exact triple_pure (fun _ h => h.2)
  | lost => exact triple_pure (fun _ h => h.2)
  | line polled =>
    cases polled with
    | none => exact triple_pure (fun _ h => h)
    | some line =>
      refine triple_bind (T := fun s' => AtTurn s') ?_ (fun s' => triple_pure (fun _ h => h))
      unfold pushPolled
      exact triple_bind (keeps_scanCmti (I := AtTurn s) (keepsInbound_snapshots _) [line] s.pending)
        (fun pending => triple_pure (fun _ h => h))
  | request r =>
    refine triple_bind (T := fun o st => o.elim (Holding s.status st) (fun s' => AtTurn s' st))
      (triple_attempt (triple_handleRequest_snapshots cfg s r)) (fun o => ?_)
    cases o with
    | none => exact triple_pure (fun _ h => h)
    | some s' => exact triple_pure (fun _ h => h)

theorem triple_sessionStep_snapshots {R : Seen → Prop} (cfg : Config) (events : Bool)
    (s : SessionState) :
    Triple snapshots (AtTurn s) (sessionStep cfg events s) atRoundEnd R := by
  unfold sessionStep
  refine triple_pre (triple_pure_pre (φ := s.status.serialConnected = true)
    (P := Holding s.status) (fun hup => ?_)) (fun st h => h)
  refine triple_bind (T := fun _ => Holding s.status)
    (triple_attempt (keeps_drainPending_snapshots s.status events s.pending)) (fun o => ?_)
  cases o with
  | none => exact triple_pure (fun _ h => h)
  | some u =>
    refine triple_bind (T := fun o st => o.elim (Holding s.status st) (fun s' => AtTurn s' st))
      (triple_attempt (triple_pre (triple_refreshIfDue_snapshots { s with pending := [] })
        (fun st h => ⟨hup, h⟩))) (fun o => ?_)
    cases o with
    | none => exact triple_pure (fun _ h => h)
    | some s' => exact triple_serveTurn_snapshots cfg s'

theorem triple_runSessionInner_snapshots {R : Seen → Prop} (cfg : Config) (events : Bool)
    {status : ModemStatusSnapshot} (hup : status.serialConnected = true) :
    Triple snapshots (Holding status) (runSessionInner cfg events status)
      (fun r => Holding r.2) R := by
  unfold runSessionInner
  refine triple_bind (T := fun r => Holding r.2) (triple_pre (triple_iterate (I := AtTurn)
    (fun s => ?_) ⟨[], false, status⟩) (fun st h => ⟨hup, h⟩)) (fun r => ?_)
  · refine triple_post (triple_sessionStep_snapshots cfg events s) (fun r st h => ?_)
    cases r <;> exact h
  · exact triple_bind (triple_emit (fun st st' hs hstep => apart rfl hs hstep))
      (fun _ => triple_pure (fun _ h => h))

/-! ## The manager -/

section Manager

variable {R : Seen → Prop}

theorem triple_markConnected_snapshots (x : ModemStatusSnapshot) :
    Triple snapshots (Holding x) (markConnected x)
      (fun y st => y.serialConnected = true ∧ Holding y st) R := by
  refine triple_bind (triple_emit (fun st st' hs hstep => ?_)) (fun _ => triple_pure (fun _ h => h))
  obtain ⟨hok, h⟩ := status_held (y := { x with serialConnected := true, responsive := true }) hs
    ⟨rfl, rfl, rfl⟩ (fun hdown => by cases hdown) hstep
  exact ⟨hok, rfl, h⟩

/-- The connection is marked as lost; what was found stays. -/
theorem triple_markDisconnected_snapshots (x : ModemStatusSnapshot) :
    Triple snapshots (Holding x) (markDisconnected x) Holding R :=
  triple_bind (triple_emit (fun _ _ hs hstep => status_held
      (y := { x with serialConnected := false, responsive := false }) hs ⟨rfl, rfl, rfl⟩
      (fun _ => rfl) hstep))
    (fun _ => triple_pure (fun _ h => h))

/-- Between two connections. -/
def betweenCycles : ManagerState ⊕ Unit → Seen → Prop
  | .inl s => Holding s.status
  | .inr _ => Anything

theorem triple_backoffOrGiveup_snapshots (cfg : Config) (s : ManagerState) :
    Triple snapshots (Holding s.status) (backoffOrGiveup cfg s) betweenCycles R := by
  rw [backoffOrGiveup]
  split
  · refine triple_bind (keeps_audit (keepsNotes_snapshots _) _ _) (fun _ => ?_)
    exact triple_bind (triple_markDisconnected_snapshots s.status)
      (fun _ => triple_pure (fun _ _ => trivial))
  · exact triple_bind (triple_emit (fun st st' hs hstep => apart rfl hs hstep))
      (fun _ => triple_pure (fun _ h => h))

theorem triple_dropConnection_snapshots (cfg : Config) (s : ManagerState) :
    Triple snapshots (Holding s.status) (dropConnection cfg s) betweenCycles R :=
  triple_bind (triple_markDisconnected_snapshots s.status)
    (fun status => triple_backoffOrGiveup_snapshots cfg { s with status := status })

theorem triple_serveConnection_snapshots (cfg : Config) {s : ManagerState}
    (hup : s.status.serialConnected = true) :
    Triple snapshots (Holding s.status) (serveConnection cfg s) betweenCycles R := by
  unfold serveConnection
  refine triple_bind (triple_runSessionInner_snapshots cfg true hup) (fun r => ?_)
  refine triple_bind (triple_markDisconnected_snapshots r.2) (fun status => ?_)
  cases r.1 with
  | channelClosed => exact triple_pure (fun _ _ => trivial)
  | disconnected => exact triple_backoffOrGiveup_snapshots cfg { s with status := status }

theorem keeps_recoverCommandMode_snapshots (x : ModemStatusSnapshot) :
    Keeps snapshots (Holding x) (Holding x) recoverCommandMode := by
  refine triple_bind (T := fun _ => Holding x) ?_ (fun _ => ?_)
  · refine triple_perform (fun a s s' hs hstep => ?_)
    obtain ⟨hok, h⟩ := apart rfl hs hstep
    refine ⟨hok, ?_⟩
    cases a.write <;> exact h
  · exact triple_bind (keeps_collect (keepsSubmission_snapshots _ .gsm7) "ESC")
      (fun _ => triple_pure (fun _ h => h))

theorem keeps_initializeModem_snapshots (x : ModemStatusSnapshot) (cfg : Config) :
    Keeps snapshots (Holding x) (Holding x) (initializeModem cfg) := by
  unfold initializeModem
  apply keeps_runCommands
  intro c hc
  exact keeps_exchange_snapshots (initCommands_ne hc (by decide))

theorem triple_managerStep_snapshots (cfg : Config) (s : ManagerState) :
    Triple snapshots (Holding s.status) (managerStep cfg s) betweenCycles R := by
  unfold managerStep
  refine triple_bind (T := fun _ => Holding s.status)
    (keeps_perform (fun _ => rfl) (fun a st st' hs hstep => apart rfl hs hstep)) (fun ok => ?_)
  cases ok with
  | false => exact triple_dropConnection_snapshots cfg s
  | true =>
    refine triple_bind (triple_markConnected_snapshots s.status)
      (fun status => triple_pure_pre (fun hup => ?_))
    refine triple_bind (T := fun _ => Holding status)
      (triple_attempt (keeps_recoverCommandMode_snapshots status)) (fun o => ?_)
    cases o with
    | none => exact triple_dropConnection_snapshots cfg ⟨0, status⟩
    | some u =>
      refine triple_bind (T := fun _ => Holding status)
        (triple_attempt (keeps_initializeModem_snapshots status cfg)) (fun o => ?_)
      cases o with
      | none => exact triple_dropConnection_snapshots cfg ⟨0, status⟩
      | some ok =>
        refine triple_bind (p := auditInit ok) (T := fun _ => Holding status) ?_ (fun _ => ?_)
        · cases ok
          · exact keeps_audit (keepsNotes_snapshots _) _ _
          · exact keeps_pure ()
        · exact triple_serveConnection_snapshots cfg (s := ⟨0, status⟩) hup

end Manager

/-- The snapshot is sound at every point of every run. -/
theorem runModemManager_snapshots (cfg : Config) (script : List Answer) {t : List Event}
    (ht : t <+: (runModemManager cfg script).trace) : (observe t).Sound := by
  have hinitial : Seen.initial.Sound := ⟨⟨rfl, rfl, rfl⟩, fun _ => rfl⟩
  have hrun : Triple snapshots (Holding initialSnapshot) (runModemManager cfg)
      (fun _ => Anything) Anything := by
    refine triple_iterate (I := fun s : ManagerState => Holding s.status) (fun s => ?_)
      ⟨0, initialSnapshot⟩
    refine triple_post (triple_managerStep_snapshots cfg s) (fun r st h => ?_)
    cases r <;> exact h
  exact sound_of_safe hinitial (hrun script .initial ⟨⟨rfl, rfl, rfl⟩, rfl⟩).1 t ht

/-! ## What is shown of a disconnected modem -/

/-- The status response lists every field as unavailable, and the metrics show no
registration and no signal. -/
structure ShownUnavailable (metrics : Api.Metrics) (x : ModemStatusSnapshot) : Prop where
  listed : ∀ field ∈ ["signal", "registration", "operator"],
    field ∈ (Api.buildStatusResponse x).unavailable
  registered : Api.sample (metrics.render x) "green_relay_modem_registered" = some ['0']
  signal : Api.sample (metrics.render x) "green_relay_modem_signal_percent" = none

theorem shownUnavailable_iff (metrics : Api.Metrics) (x : ModemStatusSnapshot) :
    ShownUnavailable metrics x ↔
      x.responsive = false ∧ x.registered = false ∧ x.signalPercent = none ∧ x.operator = none := by
  have hregistered : Api.sample (metrics.render x) "green_relay_modem_registered" = some ['0'] ↔
      x.registered = false := by
    rw [Api.sample_registered]
    cases x.registered <;> decide +kernel
  have hsignal : Api.sample (metrics.render x) "green_relay_modem_signal_percent" = none ↔
      x.signalPercent = none := by
    rw [Api.sample_signal, Option.map_eq_none_iff]
  constructor
  · intro h
    exact ⟨(Api.registration_unavailable x).mp (h.listed _ (by simp)), hregistered.mp h.registered,
      hsignal.mp h.signal, (Api.operator_unavailable x).mp (h.listed _ (by simp))⟩
  · intro ⟨hresponsive, hr, hs, ho⟩
    refine ⟨?_, hregistered.mpr hr, hsignal.mpr hs⟩
    intro field hfield
    simp only [List.mem_cons, List.not_mem_nil, or_false] at hfield
    rcases hfield with rfl | rfl | rfl
    · exact (Api.signal_unavailable x).mpr hs
    · exact (Api.registration_unavailable x).mpr hresponsive
    · exact (Api.operator_unavailable x).mpr ho

/-- The answers to a refresh tell of no registration, no signal and no operator. -/
def Refresh.FoundNothing (r : Refresh) : Prop :=
  parseCregRegistered r.creg.lines = false ∧ parseCsqPercent r.csq.lines = none ∧
    parseCopsOperator r.cops.lines = none

/-- At every point of every run where the modem is disconnected, it is shown as
unavailable if and only if the last refresh that was completed, if there was one,
found nothing. -/
theorem disconnected_unavailable_iff (cfg : Config) (script : List Answer) (metrics : Api.Metrics)
    {t : List Event} (ht : t <+: (runModemManager cfg script).trace)
    (hdown : (observe t).shown.serialConnected = false) :
    ShownUnavailable metrics (observe t).shown ↔
      ∀ r, (observe t).refresh = some r → r.FoundNothing := by
  have hsound := runModemManager_snapshots cfg script ht
  have hresponsive := hsound.down hdown
  have hcarries := hsound.carries
  rw [shownUnavailable_iff]
  cases hr : (observe t).refresh with
  | none =>
      rw [hr] at hcarries
      exact ⟨(fun _ r h => by cases h), fun _ => ⟨hresponsive, hcarries⟩⟩
  | some r =>
      rw [hr] at hcarries
      obtain ⟨hregistered, hsignal, hoperator⟩ := hcarries
      rw [hregistered, hsignal, hoperator]
      constructor
      · intro h r' hr'
        rw [← Option.some.inj hr']
        exact h.2
      · intro h
        exact ⟨hresponsive, h r rfl⟩

/-- A connection that is lost after its first refresh has found a signal, an
operator and the registration. -/
def lostScript : List Answer :=
  [.quiet, .quiet, .quiet] ++
    answered ["OK"] ++ answered ["OK"] ++ answered ["OK"] ++ answered ["OK"] ++
    answered ["+CPIN: READY", "OK"] ++ answered ["+CREG: 0,1", "OK"] ++
    answered ["+CSQ: 15,99", "OK"] ++ answered ["+COPS: 0,0,\"Carrier\"", "OK"] ++
    [{ read := .ioError }]

theorem lostScript_shown :
    (observe (runModemManager plainConfig lostScript).trace).shown
      = ⟨false, .ready, true, false, some 48, some "Carrier"⟩ := by
  decide +kernel

theorem disconnected_unavailable_iff_lost :
    ShownUnavailable ⟨0, 0, 0, 0, 0⟩
        (observe (runModemManager plainConfig lostScript).trace).shown ↔
      ∀ r, (observe (runModemManager plainConfig lostScript).trace).refresh = some r →
        r.FoundNothing :=
  disconnected_unavailable_iff plainConfig lostScript ⟨0, 0, 0, 0, 0⟩ List.prefix_rfl
    (by rw [lostScript_shown])

theorem disconnected_shown_available :
    ¬ ∀ (cfg : Config) (script : List Answer) (metrics : Api.Metrics) (t : List Event),
      t <+: (runModemManager cfg script).trace → (observe t).shown.serialConnected = false →
        ShownUnavailable metrics (observe t).shown := by
  intro h
  have hshown := h plainConfig lostScript ⟨0, 0, 0, 0, 0⟩ _ List.prefix_rfl
    (by rw [lostScript_shown])
  rw [shownUnavailable_iff, lostScript_shown] at hshown
  exact absurd hshown.2.1 (by decide)

end Modem
end GreenRelay
