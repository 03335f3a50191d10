/-
No request is served on a readiness that an earlier connection found.

The snapshot of the status outlives a connection: `mark_disconnected` leaves the
SIM status and the registration in it, and requests wait in the channel while
the port is away.  That none of them is served on what is left there rests on
the order of the session loop, which refreshes the status before it looks at the
channel for the first time.

`Readiness` is what a trace tells of the current connection: what its last
completed refresh found, and whether a send request is being served.  A refresh
is told by its four exchanges and the write of the snapshot after them, so that
raw requests, which write the snapshot as well, are not taken for one.
-/
import GreenRelay.Modem.Rules

namespace GreenRelay
namespace Modem

open Sms Scripted

/-! ## The monitor -/

/-- The exchanges since the snapshot was last written or a request was taken,
the latest first, and what the last refresh of this connection found. -/
structure Readiness where
  probe : List AtExchange
  refresh : Option Bool
  serving : Bool

def Readiness.initial : Readiness := ⟨[], none, false⟩

/-- The SIM is ready and the modem is registered. -/
def found (cpin creg : AtExchange) : Bool :=
  (parseCpin cpin.lines).isReady && parseCregRegistered creg.lines

/-- What a refresh found whose exchanges these are. -/
def refreshFound : List AtExchange → Option Bool
  | cops :: csq :: creg :: cpin :: _ =>
    if [cpin, creg, csq, cops].map (·.command) = statusCommands then some (found cpin creg)
    else none
  | _ => none

def Readiness.next (s : Readiness) : Event → Readiness
  | .opened _ => .initial
  | .ended _ => { s with serving := false }
  | .exchanged e => { s with probe := e :: s.probe }
  | .status _ => { s with probe := [], refresh := (refreshFound s.probe).or s.refresh }
  | .took (.sendSms _ _) => { s with probe := [], serving := true }
  | .took (.raw _) => { s with probe := [] }
  | .repliedSend _ => { s with serving := false }
  | _ => s

/-- A header, and whatever else happens while a send request is served, asks for
a refresh that found the modem ready.  Without it the reply comes at once and
says `Queued`. -/
def readiness : Monitor Event Readiness :=
  .observing Readiness.next (fun s e =>
    match e with
    | .wrote (.header _ _) _ => s.refresh = some true
    | .repliedSend r => s.refresh = some true ∨ r.status = .queued
    | _ => s.serving = true → s.refresh = some true)

/-! ## Assertions -/

/-- No request is being served, and the last refresh found `r`. -/
structure Quiet (r : Option Bool) (s : Readiness) : Prop where
  serving : s.serving = false
  refresh : s.refresh = r
  probe : refreshFound s.probe = none

/-- A request is being served by a modem that was found ready. -/
structure FoundReady (s : Readiness) : Prop where
  refresh : s.refresh = some true
  probe : refreshFound s.probe = none

/-- What an error leaves within a session. -/
structure Broken (s : Readiness) : Prop where
  ready : s.serving = true → s.refresh = some true
  probe : refreshFound s.probe = none

/-- Between two sessions. -/
structure Unserved (s : Readiness) : Prop where
  serving : s.serving = false
  probe : refreshFound s.probe = none

theorem Quiet.unserved {r : Option Bool} {s : Readiness} (h : Quiet r s) : Unserved s :=
  ⟨h.serving, h.probe⟩

theorem Unserved.broken {s : Readiness} (h : Unserved s) : Broken s := by
  refine ⟨?_, h.probe⟩
  intro hs
  rw [h.serving] at hs
  cases hs

theorem refreshFound_cons {e : AtExchange} (h : e.command ≠ "AT+COPS?") (probe : List AtExchange) :
    refreshFound (e :: probe) = none := by
  unfold refreshFound
  split
  · rename_i heq
    rw [List.cons.injEq] at heq
    rw [heq.1] at h
    rw [if_neg]
    simp [statusCommands, h]
  · rfl

/-- An assertion under which either nobody is served or the modem was found
ready, whatever exchanges follow that are not a refresh. -/
structure Steady (I : Readiness → Prop) : Prop where
  broken : ∀ s, I s → Broken s
  probe : ∀ s probe, I s → refreshFound probe = none → I { s with probe := probe }
  ended : ∀ s, I s → I { s with serving := false }

theorem steady_quiet (r : Option Bool) : Steady (Quiet r) where
  broken _ h := h.unserved.broken
  probe _ _ h hp := ⟨h.serving, h.refresh, hp⟩
  ended _ h := ⟨rfl, h.refresh, h.probe⟩

theorem steady_unserved : Steady Unserved where
  broken _ h := h.broken
  probe _ _ h hp := ⟨h.serving, hp⟩
  ended _ h := ⟨rfl, h.probe⟩

theorem steady_foundReady : Steady FoundReady where
  broken _ h := ⟨fun _ => h.refresh, h.probe⟩
  probe _ _ h hp := ⟨h.refresh, hp⟩
  ended _ h := ⟨h.refresh, h.probe⟩

/-- The events that the monitor takes no note of, and that are no header. -/
def Event.isUnnoted : Event → Bool
  | .opened _ | .ended _ | .exchanged _ | .status _ | .took _ | .repliedSend _ => false
  | .wrote (.header _ _) _ => false
  | _ => true

section Keeping

variable {I R : Readiness → Prop}

theorem unnoted (hI : ∀ s, I s → Broken s) {e : Event} (he : e.isUnnoted = true)
    {s s' : Readiness} (hs : I s) (hstep : readiness.step s e s') : readiness.ok s e ∧ I s' := by
  have hsame : s' = s := by
    have hnext : s' = s.next e := hstep
    cases e with
    | wrote out reply => exact hnext
    | _ => first | exact hnext | cases he
  refine ⟨?_, hsame ▸ hs⟩
  cases e with
  | wrote out reply =>
    cases out with
    | header toNumber encoding => cases he
    | _ => exact (hI s hs).ready
  | _ => first | exact (hI s hs).ready | cases he

/-- The snapshot is written without a refresh. -/
theorem status_kept (hI : Steady I) {x : ModemStatusSnapshot} {s s' : Readiness} (hs : I s)
    (hstep : readiness.step s (.status x) s') : readiness.ok s (.status x) ∧ I s' := by
  have hnext : s' = { s with probe := [] } := by
    have h : s' = s.next (.status x) := hstep
    rw [h, Readiness.next, (hI.broken s hs).probe, Option.none_or]
  rw [hnext]
  exact ⟨(hI.broken s hs).ready, hI.probe s [] hs rfl⟩

theorem exchanged_kept (hI : Steady I) {e : AtExchange} (he : e.command ≠ "AT+COPS?")
    {s s' : Readiness} (hs : I s) (hstep : readiness.step s (.exchanged e) s') :
    readiness.ok s (.exchanged e) ∧ I s' := by
  have hnext : s' = { s with probe := e :: s.probe } := hstep
  rw [hnext]
  exact ⟨(hI.broken s hs).ready, hI.probe s _ hs (refreshFound_cons he s.probe)⟩

theorem keepsLocal_readiness (hI : Steady I) : KeepsLocal readiness I := by
  intro e s s' he hs hstep
  cases e with
  | status x => exact status_kept hI hs hstep
  | ended o =>
    have hnext : s' = { s with serving := false } := hstep
    rw [hnext]
    exact ⟨(hI.broken s hs).ready, hI.ended s hs⟩
  | audited => exact unnoted hI.broken rfl hs hstep
  | clock => exact unnoted hI.broken rfl hs hstep
  | repliedRaw => exact unnoted hI.broken rfl hs hstep
  | slept => exact unnoted hI.broken rfl hs hstep
  | _ => cases he

theorem keepsInbound_readiness (hI : Steady I) : KeepsInbound readiness I := by
  intro e s s' he hs hstep
  cases e with
  | pushed => exact unnoted hI.broken rfl hs hstep
  | popped => exact unnoted hI.broken rfl hs hstep
  | inserted => exact unnoted hI.broken rfl hs hstep
  | published => exact unnoted hI.broken rfl hs hstep
  | _ => cases he

/-- A monitor state in which a header may be written. -/
theorem keepsSubmission_foundReady (encoding : SmsEncoding) :
    KeepsSubmission readiness FoundReady encoding := by
  intro e s s' he hs hstep
  cases e with
  | wrote out reply =>
    have hsame : s' = s := hstep
    rw [hsame]
    cases out with
    | command text => cases he
    | _ => exact ⟨by first | exact hs.refresh | exact fun _ => hs.refresh, hs⟩
  | prompted => exact unnoted steady_foundReady.broken rfl hs hstep
  | read => exact unnoted steady_foundReady.broken rfl hs hstep
  | _ => cases he

/-! ## Exchanges -/

theorem triple_command (hI : ∀ s, I s → Broken s) (hR : ∀ s, I s → R s) (text : String) :
    Triple readiness I (writeBytes (.command text)) (fun _ => I) R := by
  refine triple_perform (fun a s s' hs hstep => ?_)
  obtain ⟨hok, hI'⟩ := unnoted hI rfl hs hstep
  refine ⟨hok, ?_⟩
  cases a.write with
  | ok => exact hI'
  | ioError n => exact hR s' hI'

theorem triple_collect_readiness (hI : ∀ s, I s → Broken s) (hR : ∀ s, I s → R s)
    (command : String) :
    Triple readiness I (collectUntilTerminator command)
      (fun e s => e.command = command ∧ I s) R := by
  refine triple_collect (fun r s s' hs hstep => ?_) command
  obtain ⟨hok, hI'⟩ := unnoted hI rfl hs hstep
  refine ⟨hok, ?_⟩
  split
  · exact hR s' hI'
  · exact hI'

/-- Only the last exchange of a refresh can complete one. -/
theorem keeps_exchange_readiness (hI : Steady I) (hR : ∀ s, I s → R s) {text : String}
    (htext : text ≠ "AT+COPS?") : Keeps readiness I R (exchange text) := by
  refine triple_exchange (triple_command hI.broken hR text)
    (triple_collect_readiness hI.broken hR text) ?_
  rintro e s s' ⟨he, hs⟩ hstep
  exact exchanged_kept hI (he ▸ htext) hs hstep

end Keeping

/-! ## The refresh -/

/-- The exchanges of a refresh so far, the latest first. -/
def Probed (es : List AtExchange) (s : Readiness) : Prop :=
  s.serving = false ∧ ∃ older, s.probe = es ++ older

theorem triple_exchange_probed (es : List AtExchange) (text : String) :
    Triple readiness (fun s => Unserved s ∧ Probed es s) (exchange text)
      (fun e s => e.command = text ∧ Probed (e :: es) s) Broken := by
  have hbroken : ∀ s, Unserved s ∧ Probed es s → Broken s := fun s h => h.1.broken
  refine triple_exchange (triple_command hbroken hbroken text)
    (triple_collect_readiness hbroken hbroken text) ?_
  rintro e s s' ⟨he, hunserved, hserving, older, hprobe⟩ hstep
  have hnext : s' = { s with probe := e :: s.probe } := hstep
  rw [hnext]
  exact ⟨hunserved.broken.ready, he, hserving, older, by rw [hprobe]; rfl⟩

/-- As long as the last command is still to come, nothing has been found. -/
theorem triple_exchange_probing (es : List AtExchange) {text : String} (htext : text ≠ "AT+COPS?") :
    Triple readiness (fun s => Unserved s ∧ Probed es s) (exchange text)
      (fun e s => e.command = text ∧ Unserved s ∧ Probed (e :: es) s) Broken := by
  refine triple_post (triple_exchange_probed es text) ?_
  rintro e s ⟨he, hserving, older, hprobe⟩
  have hfound : refreshFound s.probe = none := by
    rw [hprobe]
    exact refreshFound_cons (he ▸ htext) _
  exact ⟨he, ⟨hserving, hfound⟩, hserving, older, hprobe⟩

/-- What a refresh returns is what the monitor has seen it find. -/
theorem triple_refreshStatus :
    Triple readiness Unserved refreshStatus (fun x => Quiet (some (deliverable x))) Broken := by
  unfold refreshStatus
  refine triple_bind (triple_pre (triple_exchange_probing [] (by decide))
    (fun s hs => ⟨hs, hs.serving, s.probe, rfl⟩)) (fun cpin => ?_)
  refine triple_pure_pre (fun hcpin => ?_)
  refine triple_bind (triple_exchange_probing [cpin] (by decide)) (fun creg => ?_)
  refine triple_pure_pre (fun hcreg => ?_)
  refine triple_bind (triple_exchange_probing [creg, cpin] (by decide)) (fun csq => ?_)
  refine triple_pure_pre (fun hcsq => ?_)
  refine triple_bind (triple_exchange_probed [csq, creg, cpin] "AT+COPS?") (fun cops => ?_)
  refine triple_pure_pre (fun hcops => ?_)
  refine triple_bind (T := fun _ => Quiet (some (found cpin creg))) ?_
    (fun _ => triple_pure (fun _ h => h))
  refine triple_emit ?_
  rintro s s' ⟨hserving, older, hprobe⟩ hstep
  have hfound : refreshFound s.probe = some (found cpin creg) := by
    rw [hprobe]
    show (if [cpin, creg, csq, cops].map (·.command) = statusCommands then _ else none) = _
    rw [if_pos]
    simp [statusCommands, hcpin, hcreg, hcsq, hcops]
  have hnext : s' = { s with probe := [], refresh := some (found cpin creg) } := by
    have h : s' = s.next (.status _) := hstep
    rw [h, Readiness.next, hfound, Option.some_or]
  rw [hnext]
  refine ⟨?_, hserving, rfl, rfl⟩
  intro hs
  rw [hserving] at hs
  cases hs

/-! ## The session -/

/-- At the head of the session loop a session that has refreshed goes by what
that refresh found. -/
def AtHead (s : SessionState) (st : Readiness) : Prop :=
  Unserved st ∧ (s.refreshed = true → st.refresh = some (deliverable s.status))

def afterRound : SessionState ⊕ SessionEnd → Readiness → Prop
  | .inl s => AtHead s
  | .inr _ => Broken

theorem keeps_drainPending_readiness (r : Option Bool) (events : Bool) (pending : List Nat) :
    Keeps readiness (Quiet r) Broken (drainPending events pending) := by
  have hsteady := steady_quiet r
  have hbroken : ∀ s, Quiet r s → Broken s := fun _ h => h.unserved.broken
  apply keeps_drainPending (keepsLocal_readiness hsteady).notes (keepsInbound_readiness hsteady)
  · intro index
    exact keeps_exchange_readiness hsteady hbroken (cmgr_ne (by decide) index)
  · intro index
    exact keeps_exchange_readiness hsteady hbroken (cmgd_ne (by decide) index)

/-- After the refresh that is due, the session goes by a refresh. -/
theorem triple_refreshIfDue_readiness (s : SessionState) :
    Triple readiness (AtHead s) (refreshIfDue s)
      (fun s' st => s'.refreshed = true ∧ AtHead s' st) Broken := by
  unfold refreshIfDue
  refine triple_bind (T := fun due st => (due = false → s.refreshed = true) ∧ AtHead s st) ?_
    (fun due => ?_)
  · unfold dueForRefresh
    cases hr : s.refreshed with
    | false => exact triple_pure (fun st h => ⟨(fun hd => by cases hd), h⟩)
    | true =>
      refine triple_perform (fun a st st' hs hstep => ?_)
      obtain ⟨hok, h⟩ := unnoted (I := AtHead s) (fun _ h => h.1.broken) rfl hs hstep
      exact ⟨hok, fun _ => rfl, h⟩
  · cases due with
    | false => exact triple_pure (fun st h => ⟨h.1 rfl, h.2⟩)
    | true =>
      refine triple_bind (triple_pre triple_refreshStatus (fun st h => h.2.1)) (fun status => ?_)
      exact triple_pure (fun st h => ⟨rfl, h.unserved, fun _ => h.refresh⟩)

/-! ## Requests -/

/-- The state of the session is what the last refresh found. -/
def Current (status : ModemStatusSnapshot) (st : Readiness) : Prop :=
  refreshFound st.probe = none ∧ st.refresh = some (deliverable status)

/-- Where the last refresh did not find the modem ready, nothing happens but the
reply. -/
theorem triple_handleSend_readiness (cfg : Config) (status : ModemStatusSnapshot)
    (toNumber body : String) :
    Triple readiness (Current status) (handleSend cfg status toNumber body)
      (fun r st => (st.refresh = some true ∨ r.status = .queued) ∧ Current status st) Broken := by
  cases hready : deliverable status with
  | false =>
    have hsame : handleSend cfg status toNumber body
        = pure ⟨.queued, none, none, some "modem not ready for delivery; will retry"⟩ := by
      rw [handleSend, hready]
      rfl
    rw [hsame]
    exact triple_pure (fun st h => ⟨.inr rfl, h⟩)
  | true =>
    have hcommands : ∀ c ∈ sendCommands, Keeps readiness FoundReady FoundReady (exchange c) := by
      intro c hc
      apply keeps_exchange_readiness steady_foundReady (fun _ h => h)
      intro h
      subst h
      exact absurd hc (by decide)
    have hsend := keeps_handleSend (keepsLocal_readiness steady_foundReady).notes
      keepsSubmission_foundReady hcommands (fun e s s' => unnoted steady_foundReady.broken rfl)
      cfg status toNumber body
    refine triple_conseq hsend ?_ ?_ steady_foundReady.broken
    · intro st h
      rw [Current, hready] at h
      exact ⟨h.2, h.1⟩
    · intro r st h
      rw [Current, hready]
      exact ⟨.inl h.refresh, h.probe, h.refresh⟩

/-- A raw request may be any command, but it is one exchange only. -/
theorem triple_exchange_single (r : Option Bool) (command : String) :
    Triple readiness (fun st => Quiet r st ∧ st.probe = []) (exchange command)
      (fun _ => Quiet r) Broken := by
  have hbroken : ∀ st, Quiet r st ∧ st.probe = [] → Broken st := fun _ h => h.1.unserved.broken
  refine triple_exchange (triple_command hbroken hbroken command)
    (triple_collect_readiness hbroken hbroken command) ?_
  rintro e s s' ⟨_, hquiet, hprobe⟩ hstep
  have hnext : s' = { s with probe := [e] } := by rw [← hprobe]; exact hstep
  rw [hnext]
  exact ⟨hquiet.unserved.broken.ready, hquiet.serving, hquiet.refresh, rfl⟩

theorem triple_handleRaw (command : String) (s : SessionState) :
    Triple readiness
      (fun st => Quiet (some (deliverable s.status)) st ∧ st.probe = []) (handleRaw command s)
      (fun s' st => AtHead s' st) Broken := by
  have hsteady := steady_quiet (some (deliverable s.status))
  have hlocal := keepsLocal_readiness hsteady
  unfold handleRaw
  refine triple_bind (triple_exchange_single _ command) (fun e => ?_)
  refine triple_bind (keeps_scanCmti (keepsInbound_readiness hsteady) e.lines s.pending)
    (fun pending => ?_)
  refine triple_bind (keeps_emit_local hlocal rfl) (fun _ => ?_)
  refine triple_bind (keeps_emit_local hlocal rfl) (fun _ => ?_)
  exact triple_pure (fun st h => ⟨h.unserved, fun _ => h.refresh⟩)

/-- What the choice of the `select!` tells the session. -/
def taken (s : SessionState) : Choice → Readiness → Prop
  | .request (.sendSms _ _) => Current s.status
  | .request (.raw _) => fun st => Quiet (some (deliverable s.status)) st ∧ st.probe = []
  | _ => AtHead s

theorem triple_select_readiness {R : Readiness → Prop} (s : SessionState)
    (hs : s.refreshed = true) : Triple readiness (AtHead s) select (taken s) R := by
  have hbroken : ∀ st, AtHead s st → Broken st := fun _ h => h.1.broken
  refine triple_select ?_ ?_ ?_
  · intro r st st' hst hstep
    refine ⟨hst.1.broken.ready, ?_⟩
    cases r with
    | sendSms toNumber body =>
      have hnext : st' = { st with probe := [], serving := true } := hstep
      rw [hnext]
      exact ⟨rfl, hst.2 hs⟩
    | raw command =>
      have hnext : st' = { st with probe := [] } := hstep
      rw [hnext]
      exact ⟨⟨hst.1.serving, hst.2 hs, rfl⟩, rfl⟩
  · intro st st' hst hstep
    exact unnoted hbroken rfl hst hstep
  · intro reply st st' hst hstep
    obtain ⟨hok, h⟩ := unnoted hbroken rfl hst hstep
    refine ⟨hok, ?_⟩
    cases reply <;> exact h

theorem triple_handleRequest_readiness (cfg : Config) (s : SessionState) (r : ModemRequest) :
    Triple readiness (taken s (.request r)) (handleRequest cfg s r) (fun s' st => AtHead s' st)
      Broken := by
  cases r with
  | raw command => exact triple_handleRaw command s
  | sendSms toNumber body =>
    unfold handleRequest
    refine triple_bind (triple_handleSend_readiness cfg s.status toNumber body) (fun r => ?_)
    refine triple_bind (T := fun _ => AtHead s) (triple_emit ?_)
      (fun _ => triple_pure (fun _ h => h))
    rintro st st' ⟨hr, hprobe, hrefresh⟩ hstep
    have hnext : st' = { st with serving := false } := hstep
    rw [hnext]
    exact ⟨hr, ⟨rfl, hprobe⟩, fun _ => hrefresh⟩

theorem triple_serveTurn_readiness {R : Readiness → Prop} (cfg : Config) (s : SessionState)
    (hs : s.refreshed = true) : Triple readiness (AtHead s) (serveTurn cfg s) afterRound R := by
  unfold serveTurn
  refine triple_bind (triple_select_readiness s hs) (fun choice => ?_)
  cases choice with
  | closed => exact triple_pure (fun _ h => h.1.broken)
  | lost => exact triple_pure (fun _ h => h.1.broken)
  | line polled =>
    cases polled with
    | none => exact triple_pure (fun _ h => h)
    | some line =>
      have hbroken : ∀ st, AtHead s st → Broken st := fun _ h => h.1.broken
      refine triple_bind (T := fun s' => AtHead s') ?_ (fun s' => triple_pure (fun _ h => h))
      unfold pushPolled
      refine triple_bind (T := fun _ => AtHead s) ?_ (fun pending => triple_pure (fun _ h => h))
      unfold scanCmti
      cases parseCmtiIndex line with
      | none => exact keeps_pure s.pending
      | some index =>
        refine keeps_bind (keeps_emit (fun _ _ => unnoted hbroken rfl)) (fun _ => keeps_pure _)
  | request r =>
    refine triple_bind (T := fun o st => o.elim (Broken st) (fun s' => AtHead s' st))
      (triple_attempt (triple_handleRequest_readiness cfg s r)) (fun o => ?_)
    cases o with
    | none => exact triple_pure (fun _ h => h)
    | some s' => exact triple_pure (fun _ h => h)

/-- A round of the loop handles its errors itself. -/
theorem triple_sessionStep_readiness {R : Readiness → Prop} (cfg : Config) (events : Bool)
    (s : SessionState) : Triple readiness (AtHead s) (sessionStep cfg events s) afterRound R := by
  unfold sessionStep
  refine triple_bind
    (T := fun o st => o.elim (Broken st) (fun _ => AtHead { s with pending := [] } st))
    (triple_attempt ?_) (fun o => ?_)
  · refine triple_of_forall (fun st₀ hst₀ => ?_)
    refine triple_conseq (keeps_drainPending_readiness st₀.refresh events s.pending) ?_ ?_
      (fun _ h => h)
    · rintro st rfl
      exact ⟨hst₀.1.serving, rfl, hst₀.1.probe⟩
    · intro _ st h
      exact ⟨h.unserved, fun hr => by rw [h.refresh]; exact hst₀.2 hr⟩
  cases o with
  | none => exact triple_pure (fun _ h => h)
  | some u =>
    refine triple_bind (T := fun o st => o.elim (Broken st)
      (fun s' => s'.refreshed = true ∧ AtHead s' st))
      (triple_attempt (p := refreshIfDue { s with pending := [] }) ?_) (fun o => ?_)
    · exact triple_refreshIfDue_readiness { s with pending := [] }
    cases o with
    | none => exact triple_pure (fun _ h => h)
    | some s' => exact triple_pure_pre (fun hr => triple_serveTurn_readiness cfg s' hr)

theorem triple_runSessionInner_readiness (cfg : Config) (events : Bool)
    (status : ModemStatusSnapshot) :
    Triple readiness Unserved (runSessionInner cfg events status) (fun _ => Unserved) Unserved := by
  unfold runSessionInner
  have hloop : Triple readiness (AtHead ⟨[], false, status⟩)
      (Scripted.iterate (sessionStep cfg events) ⟨[], false, status⟩) (fun _ => Broken)
      Unserved := by
    refine triple_iterate (I := AtHead) (fun s => ?_) _
    refine triple_post (triple_sessionStep_readiness cfg events s) (fun r st h => ?_)
    cases r <;> exact h
  have hstart : ∀ st, Unserved st → AtHead ⟨[], false, status⟩ st :=
    fun st h => ⟨h, fun hr => by cases hr⟩
  refine triple_bind (triple_pre hloop hstart) (fun r => ?_)
  refine triple_bind (T := fun _ => Unserved) (triple_emit ?_)
    (fun _ => triple_pure (fun _ h => h))
  intro st st' h hstep
  have hnext : st' = { st with serving := false } := hstep
  rw [hnext]
  exact ⟨h.ready, rfl, h.probe⟩

/-! ## The manager -/

theorem keeps_recoverCommandMode_readiness :
    Keeps readiness Unserved Unserved recoverCommandMode := by
  refine triple_bind (T := fun _ => Unserved) ?_ (fun _ => ?_)
  · refine triple_perform (fun a s s' hs hstep => ?_)
    obtain ⟨hok, h⟩ := unnoted steady_unserved.broken rfl hs hstep
    refine ⟨hok, ?_⟩
    cases a.write <;> exact h
  · refine triple_bind (triple_collect_readiness steady_unserved.broken (fun _ h => h) "ESC")
      (fun _ => ?_)
    exact triple_pure (fun _ h => h.2)

theorem keeps_initializeModem_readiness (cfg : Config) :
    Keeps readiness Unserved Unserved (initializeModem cfg) := by
  unfold initializeModem
  apply keeps_runCommands
  intro c hc
  exact keeps_exchange_readiness steady_unserved (fun _ h => h) (initCommands_ne hc (by decide))

/-- Over every run of the manager, a header is written for a request only where
the last refresh of the current connection found the SIM ready and the modem
registered, and without such a refresh nothing happens to a request but that it
is answered `Queued`. -/
theorem no_request_on_stale_readiness (cfg : Config) (script : List Answer) :
    readiness.Safe .initial (runModemManager cfg script).trace := by
  have hlocal := keepsLocal_readiness steady_unserved
  have hrun : Keeps readiness Unserved Unserved (runModemManager cfg) := by
    apply keeps_runModemManager
    intro s
    refine keeps_managerStep (I := Unserved) (C := Unserved) s hlocal hlocal ?_
      keeps_recoverCommandMode_readiness (keeps_initializeModem_readiness cfg)
      (triple_runSessionInner_readiness cfg true)
    intro ok st st' h hstep
    have hnext : st' = .initial := hstep
    rw [hnext]
    exact ⟨h.broken.ready, rfl, rfl⟩
  exact hrun.safe script ⟨rfl, rfl⟩

end Modem
end GreenRelay
