/-
The reconnect policy of the manager.

`attempt` numbers the reopen attempts: the wait before the `n`-th of them is
`reconnect_backoff_secs(n)`, and the manager gives up when `reopen_max_attempts`
of them have failed.  The attempts are counted from the start or from the last
session that was lost, so the cycle of that session is the first of its streak:
it is followed by the wait before the first attempt.

`Reconnect` follows a trace from one opening of the port to the next.  What
counts as the number of a cycle is a parameter of it.  `consecutive` counts the
cycles since the last session, and `second_wait` is a run that does not keep to
it.  `reopening` counts as the manager does.  It says nothing after a cycle that
opened the port and failed to set up the modem, unless that was the first of its
streak: the counter is reset when the port opens, before the setup.

That the manager goes on after a cycle is shown of the runs that are cut: such a
run waits for an answer, and with one more it opens the port or has returned.
-/
import GreenRelay.Modem.Rounds
import GreenRelay.Modem.Rules

namespace GreenRelay
namespace Modem

open Scripted

theorem reconnectBackoffSecs_eq (n : Nat) : reconnectBackoffSecs n = min (2 ^ (n - 1)) 60 := by
  show (if 6 ≤ n - 1 then 60 else min (1 <<< (n - 1)) 60) = _
  by_cases h : 6 ≤ n - 1
  · have hpow : 2 ^ 6 ≤ 2 ^ (n - 1) := Nat.pow_le_pow_right (by omega) h
    rw [if_pos h]
    omega
  · rw [if_neg h, Nat.one_shiftLeft]

/-! ## The monitor -/

/-- How far the cycle of a connection has come.  It is `up` while the modem is
set up, and the session that follows asks for the state of the SIM first. -/
inductive Cycle where
  | start
  | refused
  | up
  | failed
  | serving
  | ended (outcome : SessionOutcome)
  deriving DecidableEq, Repr

/-- An I/O error before the session is a failure of the setup. -/
def Cycle.next (c : Cycle) (e : Event) : Cycle :=
  match c, e with
  | .up, .wrote out reply =>
    if out = .command "AT+CPIN?" then .serving else if reply = .ok then .up else .failed
  | .up, .read .ioError => .failed
  | c, _ => c

/-- The ways in which a cycle can be over. -/
inductive Failure where
  | open
  | setUp
  | session
  deriving DecidableEq, Repr

/-- The cycle that is under way, how long the manager has slept since it was
over, and the number of the cycle before it. -/
structure Reconnect where
  cycle : Cycle
  waits : List Nat
  streak : Option Nat
  deriving DecidableEq, Repr

def Reconnect.initial : Reconnect := ⟨.start, [], some 0⟩

/-- The port was not opened, the modem was not set up, or the session has ended. -/
def Reconnect.IsOver (s : Reconnect) : Prop :=
  s.cycle = .refused ∨ s.cycle = .failed ∨ ∃ outcome, s.cycle = .ended outcome

section Policy

variable (count : Failure → Option Nat → Option Nat) (limit : Nat)

/-- The number of the cycle that is under way, should it end here. -/
def Reconnect.number (s : Reconnect) : Option Nat :=
  match s.cycle with
  | .start => s.streak
  | .refused => count .open s.streak
  | .up | .failed => count .setUp s.streak
  | .serving | .ended _ => count .session s.streak

def Reconnect.next (s : Reconnect) : Event → Reconnect
  | .opened ok => ⟨if ok then .up else .refused, [], s.number count⟩
  | .ended outcome => { s with cycle := .ended outcome, waits := [] }
  | .slept secs => { s with waits := s.waits ++ [secs] }
  | e => { s with cycle := s.cycle.next e }

/-- The cycle that is over has been followed by the wait of its number. -/
def Reconnect.Waited (s : Reconnect) : Prop :=
  ∀ n, s.number count = some n → n = 0 ∨ s.waits = [min (2 ^ (n - 1)) 60] ∧ n ≤ limit

/-- The manager may return because its channel was closed or because the cycle
after the last attempt is over. -/
def Reconnect.Returned (s : Reconnect) : Prop :=
  s.IsOver ∧ (s.cycle = .ended .channelClosed ∨ ∀ n, s.number count = some n → n = limit + 1)

def reconnect : Monitor Event Reconnect :=
  .observing (Reconnect.next count) (fun s e =>
    match e with
    | .opened _ => s.cycle = .start ∨ s.IsOver ∧ s.Waited count limit
    | _ => True)

/-- What the next answer does in a run that waits for it after a cycle of the
number `n`: the program returns, or it opens the port. -/
def GoesOn {α : Type} (last : α) (p : Prog α) (script : List Answer) (n : Nat) : Prop :=
  ∀ a, if n = limit + 1 then (p (script ++ [a])).outcome = .done last
    else ∃ t, (p (script ++ [a])).trace = (p script).trace ++ .opened a.opened :: t

/-- Every opening but the first has been waited for.  The manager returns when,
and only when, the channel is closed or the cycle after the last attempt is over;
after every other cycle it opens the port again. -/
structure ReconnectPolicy (manager : Prog Unit) : Prop where
  waits : ∀ script, (reconnect count limit).Safe .initial (manager script).trace
  returns : ∀ script s, (manager script).outcome = .done () →
    (reconnect count limit).Path .initial (manager script).trace s → s.Returned count limit
  goesOn : ∀ script s n, (manager script).outcome = .cut →
    (reconnect count limit).Path .initial (manager script).trace s → s.IsOver →
      s.number count = some n →
        s.cycle ≠ .ended .channelClosed ∧ GoesOn limit () manager script n

end Policy

/-- The cycles since the last that reached a running session. -/
def consecutive : Failure → Option Nat → Option Nat
  | .session, _ => some 0
  | .open, k => k.map (· + 1)
  | .setUp, k => k.map (· + 1)

/-- The cycles since the start or since the last session, which is counted. -/
def reopening : Failure → Option Nat → Option Nat
  | .session, _ => some 1
  | .open, k => k.map (· + 1)
  | .setUp, k => if k = some 0 then some 1 else none

/-! ## Cycles -/

section Keeping

variable {limit : Nat}

/-- The manager before it opens the port: `attempt` is the number of the cycle
before, which has been waited for. -/
structure Opening (limit : Nat) (s : ManagerState) (st : Reconnect) : Prop where
  waited : st.cycle = .start ∨ st.IsOver ∧ st.Waited reopening limit
  notClosed : st.cycle ≠ .ended .channelClosed
  number : ∀ n, st.number reopening = some n → s.attempt = n ∧ n ≤ limit

/-- The manager when a cycle is over that no closed channel has ended: its number
is the next attempt. -/
structure Over (limit : Nat) (s : ManagerState) (st : Reconnect) : Prop where
  isOver : st.IsOver
  notClosed : st.cycle ≠ .ended .channelClosed
  waits : st.waits = []
  number : ∀ n, st.number reopening = some n → s.attempt + 1 = n ∧ n ≤ limit + 1

/-- A connection on which no session has run. -/
def Up (st : Reconnect) : Prop := st.cycle = .up ∧ st.waits = []

def SetUpFailed (st : Reconnect) : Prop := st.cycle = .failed ∧ st.waits = []

/-- Events that the monitor takes no note of in any state. -/
def Event.isUnwatched : Event → Bool
  | .opened _ | .ended _ | .slept _ | .wrote _ _ | .read _ => false
  | _ => true

theorem unwatched {I : Reconnect → Prop} {e : Event} (he : e.isUnwatched = true) {s s' : Reconnect}
    (hs : I s) (hstep : (reconnect reopening limit).step s e s') :
    (reconnect reopening limit).ok s e ∧ I s' := by
  have hsame : s' = s := by
    have hcycle : s.cycle.next e = s.cycle := by
      cases e <;> first | (cases s.cycle <;> rfl) | cases he
    have hnext : s' = s.next reopening e := hstep
    have hkept : s.next reopening e = { s with cycle := s.cycle.next e } := by
      cases e <;> first | rfl | cases he
    rw [hnext, hkept, hcycle]
  refine ⟨?_, hsame ▸ hs⟩
  cases e <;> trivial

theorem keeps_audit_reconnect (I R : Reconnect → Prop) (eventType detail : String) :
    Keeps (reconnect reopening limit) I R (audit eventType detail) :=
  keeps_perform (fun _ => rfl) (fun _ _ _ => unwatched rfl)

theorem keeps_markDisconnected_reconnect (I R : Reconnect → Prop) (status : ModemStatusSnapshot) :
    Keeps (reconnect reopening limit) I R (markDisconnected status) :=
  keeps_bind (keeps_emit (fun _ _ => unwatched rfl)) (fun _ => keeps_pure _)

/-! ## The end of a cycle -/

/-- What the manager goes on with after a cycle. -/
def afterCycle (limit : Nat) : ManagerState ⊕ Unit → Reconnect → Prop
  | .inl s => Opening limit s
  | .inr _ => fun st => st.Returned reopening limit

/-- The rest of a round, from `P` on.  When the cycle is over it takes an answer
only to give up. -/
structure Ends (limit : Nat) (P : Reconnect → Prop) (p : Prog (ManagerState ⊕ Unit)) : Prop where
  triple : Triple (reconnect reopening limit) P p (afterCycle limit) Anything
  last : ∀ script st st' n, P st → (p script).outcome = .cut →
    (reconnect reopening limit).Path st (p script).trace st' → st'.IsOver →
      st'.number reopening = some n → st'.cycle ≠ .ended .channelClosed ∧ n = limit + 1 ∧
        ∀ a, (p (script ++ [a])).outcome = .done (.inr ())

/-- A part of a round that takes no answer when the cycle is over. -/
structure Passes {α : Type} (limit : Nat) (P : Reconnect → Prop) (p : Prog α)
    (T : α → Reconnect → Prop) : Prop where
  triple : Triple (reconnect reopening limit) P p T Anything
  causal : Causal p
  waiting : Waiting (reconnect reopening limit) P p (fun st => ¬ st.IsOver)

theorem Ends.of_pure {P : Reconnect → Prop} {r : ManagerState ⊕ Unit}
    (h : ∀ st, P st → afterCycle limit r st) : Ends limit P (pure r) where
  triple := triple_pure h
  last := by
    intro script st st' n _ hcut
    cases hcut

theorem Ends.pre {P P' : Reconnect → Prop} {p : Prog (ManagerState ⊕ Unit)} (h : Ends limit P' p)
    (hP : ∀ st, P st → P' st) : Ends limit P p where
  triple := triple_pre h.triple hP
  last := fun script st st' n hst => h.last script st st' n (hP st hst)

theorem Passes.bind {α : Type} {P : Reconnect → Prop} {p : Prog α} {T : α → Reconnect → Prop}
    {k : α → Prog (ManagerState ⊕ Unit)} (hp : Passes limit P p T)
    (hk : ∀ a, Ends limit (T a) (k a)) : Ends limit P (p >>= k) where
  triple := triple_bind hp.triple (fun a => (hk a).triple)
  last := by
    intro script st st' n hst hcut hpath hover hn
    have hpost := (hp.triple script st hst).2
    have hbegins := fun a => hp.causal.begins script [a]
    have hwait := hp.waiting script st st' hst
    rcases run_bind_cases p k script with
      ⟨v, rest, t, hrun, h⟩ | ⟨rest, t, hrun, h⟩ | ⟨rest, t, hrun, h⟩ <;> rw [h] at hcut hpath <;>
      rw [hrun] at hpost hbegins hwait
    · obtain ⟨m, hm, hm'⟩ := (reconnect reopening limit).path_append.mp hpath
      obtain ⟨hopen, hlast, hdone⟩ := (hk v).last rest m st' n (hpost m hm) hcut hm' hover hn
      refine ⟨hopen, hlast, fun a => ?_⟩
      rw [run_bind_done (hbegins a).done]
      exact hdone a
    · cases hcut
    · exact absurd hover (hwait rfl hpath)

theorem passes_emit {P T : Reconnect → Prop} {e : Event}
    (h : ∀ st st', P st → (reconnect reopening limit).step st e st' →
      (reconnect reopening limit).ok st e ∧ T st') :
    Passes limit P (emit e : Prog Unit) (fun _ => T) :=
  ⟨triple_emit h, causal_emit e, waiting_emit e⟩

theorem passes_markDisconnected (P : Reconnect → Prop) (status : ModemStatusSnapshot) :
    Passes limit P (markDisconnected status) (fun _ => P) where
  triple := keeps_markDisconnected_reconnect P _ status
  causal := causal_markDisconnected status
  waiting := waiting_bind (keeps_emit (R := Anything) (fun _ _ => unwatched rfl)) (waiting_emit _)
    (fun _ => waiting_pure _)

/-- The counter does not saturate before the manager gives up. -/
theorem ends_backoffOrGiveup {cfg : Config} (hlimit : cfg.reopenMaxAttempts < 4294967295)
    (s : ManagerState) :
    Ends cfg.reopenMaxAttempts (Over cfg.reopenMaxAttempts s) (backoffOrGiveup cfg s) := by
  rw [backoffOrGiveup]
  by_cases hgive : cfg.reopenMaxAttempts < min (s.attempt + 1) 4294967295
  · rw [if_pos hgive]
    refine ⟨?_, ?_⟩
    · refine triple_bind (keeps_audit_reconnect _ _ _ _) (fun _ => ?_)
      refine triple_bind (keeps_markDisconnected_reconnect _ _ _) (fun _ => triple_pure ?_)
      intro st h
      refine ⟨h.isOver, .inr ?_⟩
      intro n hn
      obtain ⟨hattempt, hle⟩ := h.number n hn
      omega
    · intro script st st' n h hcut hpath _ hn
      cases script with
      | nil =>
        obtain rfl : st = st' := hpath
        obtain ⟨hattempt, hle⟩ := h.number n hn
        exact ⟨h.notClosed, by omega, fun a => rfl⟩
      | cons b rest => cases hcut
  · rw [if_neg hgive]
    refine (passes_emit (T := Opening cfg.reopenMaxAttempts
      { s with attempt := min (s.attempt + 1) 4294967295 }) ?_).bind
      (fun _ => .of_pure (fun _ h => h))
    intro st st' h hstep
    have hnext : st' =
        { st with waits := [reconnectBackoffSecs (min (s.attempt + 1) 4294967295)] } := by
      have hslept : st' = st.next reopening (.slept _) := hstep
      rw [hslept, Reconnect.next, h.waits]
      rfl
    rw [hnext]
    refine ⟨trivial, .inr ⟨h.isOver, ?_⟩, h.notClosed, ?_⟩
    · intro n hn
      obtain ⟨hattempt, hle⟩ := h.number n hn
      have hmin : min (s.attempt + 1) 4294967295 = n := by omega
      right
      rw [hmin, reconnectBackoffSecs_eq]
      exact ⟨rfl, by omega⟩
    · intro n hn
      obtain ⟨hattempt, hle⟩ := h.number n hn
      show min (s.attempt + 1) 4294967295 = n ∧ n ≤ _
      omega

theorem ends_dropConnection {cfg : Config} (hlimit : cfg.reopenMaxAttempts < 4294967295)
    (s : ManagerState) :
    Ends cfg.reopenMaxAttempts (Over cfg.reopenMaxAttempts s) (dropConnection cfg s) :=
  (passes_markDisconnected _ s.status).bind (fun status =>
    (ends_backoffOrGiveup hlimit { s with status := status }).pre
      (fun _ h => ⟨h.isOver, h.notClosed, h.waits, h.number⟩))

/-! ## The setup -/

theorem up_not_over {st : Reconnect} (h : Up st) : ¬ st.IsOver := by
  rintro (hover | hover | ⟨outcome, hover⟩) <;> rw [h.1] at hover <;> cases hover

/-- A part of the setup: an I/O error fails the cycle. -/
structure SetsUp {α : Type} (limit : Nat) (p : Prog α) : Prop where
  keeps : Keeps (reconnect reopening limit) Up SetUpFailed p
  waiting : Waiting (reconnect reopening limit) Up p (fun st => ¬ st.IsOver)

theorem setsUp_pure {α : Type} (a : α) : SetsUp limit (pure a : Prog α) :=
  ⟨keeps_pure a, waiting_pure a⟩

theorem setsUp_bind {α β : Type} {p : Prog α} {k : α → Prog β} (hp : SetsUp limit p)
    (hk : ∀ a, SetsUp limit (k a)) : SetsUp limit (p >>= k) :=
  ⟨keeps_bind hp.keeps (fun a => (hk a).keeps),
    waiting_bind hp.keeps hp.waiting (fun a => (hk a).waiting)⟩

theorem setsUp_write {out : Output} (hout : out ≠ .command "AT+CPIN?") :
    SetsUp limit (writeBytes out) where
  keeps := by
    refine triple_perform (fun a st st' hst hstep => ?_)
    have hnext : st' = { st with cycle := st.cycle.next (.wrote out a.write) } := hstep
    rw [hst.1, Cycle.next, if_neg hout] at hnext
    refine ⟨trivial, ?_⟩
    cases hreply : a.write with
    | ok =>
      rw [hreply, if_pos rfl] at hnext
      rw [hnext]
      exact ⟨rfl, hst.2⟩
    | ioError sent =>
      rw [hreply, if_neg (fun h => by cases h)] at hnext
      rw [hnext]
      exact ⟨rfl, hst.2⟩
  waiting := waiting_perform (fun _ => up_not_over)

theorem setsUp_readLine : SetsUp limit readLine where
  keeps := by
    refine triple_perform (fun a st st' hst hstep => ?_)
    have hnext : st' = { st with cycle := st.cycle.next (.read a.read) } := hstep
    rw [hst.1] at hnext
    refine ⟨trivial, ?_⟩
    cases hread : a.read <;> rw [hread] at hnext <;> rw [hnext] <;> exact ⟨rfl, hst.2⟩
  waiting := waiting_perform (fun _ => up_not_over)

theorem setsUp_collect (command : String) : SetsUp limit (collectUntilTerminator command) := by
  have hstep : ∀ lines, SetsUp limit (collectStep command lines) := by
    intro lines
    refine setsUp_bind setsUp_readLine (fun line => ?_)
    cases line with
    | none => exact setsUp_pure _
    | some line =>
      simp only
      cases classifyLine line <;> exact setsUp_pure _
  refine ⟨keeps_iterate (fun lines => (hstep lines).keeps) [], ?_⟩
  refine waiting_iterate (I := fun _ => Up) (Q := fun _ => Up) (R := SetUpFailed) (fun lines => ?_)
    (fun lines => (hstep lines).waiting) (fun _ _ => up_not_over) []
  refine triple_post (hstep lines).keeps (fun r st hst => ?_)
  cases r <;> exact hst

theorem setsUp_exchange {command : String} (h : command ≠ "AT+CPIN?") :
    SetsUp limit (exchange command) := by
  refine setsUp_bind (setsUp_write (fun hout => h (Output.command.inj hout))) (fun _ => ?_)
  refine setsUp_bind (setsUp_collect command) (fun e => ?_)
  exact setsUp_bind ⟨keeps_emit (fun _ _ => unwatched rfl), waiting_emit _⟩
    (fun _ => setsUp_pure e)

theorem setsUp_recoverCommandMode : SetsUp limit recoverCommandMode :=
  setsUp_bind (setsUp_write (fun hout => by cases hout))
    (fun _ => setsUp_bind (setsUp_collect "ESC") (fun _ => setsUp_pure ()))

theorem setsUp_initializeModem (cfg : Config) : SetsUp limit (initializeModem cfg) := by
  have hrun : ∀ commands, (∀ c ∈ commands, c ≠ "AT+CPIN?") → ∀ ok,
      SetsUp limit (runCommands commands ok) := by
    intro commands
    induction commands with
    | nil => exact fun _ ok => setsUp_pure ok
    | cons c commands ih =>
      intro hne ok
      unfold runCommands
      refine setsUp_bind (setsUp_exchange (hne c List.mem_cons_self)) (fun e => ?_)
      exact ih (fun d hd => hne d (List.mem_cons_of_mem c hd)) _
  exact hrun _ (fun c hc => initCommands_ne hc (by decide)) true

theorem SetsUp.passes {α : Type} {p : Prog α} (h : SetsUp limit p) (hcausal : Causal p) :
    Passes limit Up (attempt p) (fun o st => if o.isSome then Up st else SetUpFailed st) where
  triple := triple_attempt h.keeps
  causal := causal_attempt hcausal
  waiting := waiting_attempt h.waiting

/-- The setup of a connection starts the count anew. -/
theorem over_of_failed {st : Reconnect} (status : ModemStatusSnapshot) (h : SetUpFailed st) :
    Over limit ⟨0, status⟩ st where
  isOver := .inr (.inl h.1)
  notClosed := by
    rw [h.1]
    exact Cycle.noConfusion
  waits := h.2
  number := by
    intro n hn
    rw [Reconnect.number, h.1] at hn
    show 0 + 1 = n ∧ n ≤ limit + 1
    by_cases hfirst : st.streak = some 0
    · simp only [reopening, hfirst, if_true, Option.some.injEq] at hn
      omega
    · simp [reopening, hfirst] at hn

/-! ## The session -/

/-- The events that only the manager leaves. -/
def unbounded : Monitor Event Unit :=
  .observing (fun s _ => s) (fun _ e => e.isBoundary = false)

theorem session_unbounded (cfg : Config) (events : Bool) (s : SessionState) (script : List Answer) :
    ∀ e ∈ (iterate (sessionStep cfg events) s script).trace, e.isBoundary = false := by
  have hunconcerned : Unconcerned unbounded Anything := fun _ _ _ he _ _ => ⟨he, trivial⟩
  have hsafe := Keeps.safe (R := Anything) (s := ())
    (keeps_iterate (hunconcerned.sessionStep cfg events) s) script trivial
  intro e he
  obtain ⟨t, u, htrace⟩ := List.append_of_mem he
  rw [htrace] at hsafe
  exact Monitor.ok_of_safe_append hsafe

/-- A session begins with its first refresh. -/
theorem session_first (cfg : Config) (events : Bool) (status : ModemStatusSnapshot)
    (script : List Answer) :
    (iterate (sessionStep cfg events) ⟨[], false, status⟩ script).trace = [] ∨
      ∃ reply t, (iterate (sessionStep cfg events) ⟨[], false, status⟩ script).trace =
        .wrote (.command "AT+CPIN?") reply :: t := by
  cases script with
  | nil => exact .inl rfl
  | cons a rest =>
    have hrefresh : [Event.wrote (.command "AT+CPIN?") a.write] <+:
        (refreshIfDue ⟨[], false, status⟩ (a :: rest)).trace := by
      have hwrite : (writeBytes (.command "AT+CPIN?") (a :: rest)).trace =
          [.wrote (.command "AT+CPIN?") a.write] := trace_perform_cons _ _ a rest
      rw [← hwrite]
      exact (trace_bind _ _ _).trans ((trace_bind _ _ _).trans (trace_bind _ _ _))
    have hstep : (refreshIfDue ⟨[], false, status⟩ (a :: rest)).trace <+:
        (sessionStep cfg events ⟨[], false, status⟩ (a :: rest)).trace := by
      rw [← trace_attempt]
      exact trace_bind _ _ _
    obtain ⟨t, htrace⟩ := (hrefresh.trans hstep).trans (trace_bind _ _ _)
    exact .inr ⟨a.write, t, htrace.symm⟩

theorem serving_foldl {t : List Event} (st : Reconnect) (hst : st.cycle = .serving)
    (ht : ∀ e ∈ t, e.isBoundary = false) :
    (t.foldl (Reconnect.next reopening) st).cycle = .serving := by
  induction t generalizing st with
  | nil => exact hst
  | cons e t ih =>
    refine ih _ ?_ (fun e' he' => ht e' (List.mem_cons_of_mem e he'))
    have he := ht e List.mem_cons_self
    cases e <;> first | (simp [Reconnect.next, Cycle.next, hst]; done) | cases he

/-- A session that waits for an answer is not over. -/
theorem waiting_session (cfg : Config) (events : Bool) (status : ModemStatusSnapshot) :
    Waiting (reconnect reopening limit) Up (runSessionInner cfg events status)
      (fun st => ¬ st.IsOver) := by
  intro script st st' hst hcut hpath
  rcases run_bind_cases (iterate (sessionStep cfg events) ⟨[], false, status⟩) _ script with
    ⟨r, rest, t, hrun, h⟩ | ⟨rest, t, hrun, h⟩ | ⟨rest, t, hrun, h⟩
  · rw [runSessionInner, h] at hcut
    cases hcut
  · rw [runSessionInner, h] at hcut
    cases hcut
  · rw [runSessionInner, h] at hpath
    have hunbounded := session_unbounded cfg events ⟨[], false, status⟩ script
    have hfirst := session_first cfg events status script
    rw [hrun] at hunbounded hfirst
    rw [Monitor.eq_of_path_observing hpath]
    rcases hfirst with hnone | ⟨reply, t', hfirst⟩
    · rw [show t = [] from hnone]
      exact up_not_over hst
    · obtain rfl : t = _ := hfirst
      have hcycle := serving_foldl (st.next reopening (.wrote (.command "AT+CPIN?") reply))
        (by simp [Reconnect.next, Cycle.next, hst.1])
        (fun e he => hunbounded e (List.mem_cons_of_mem _ he))
      rintro (hover | hover | ⟨outcome, hover⟩) <;> rw [List.foldl_cons, hcycle] at hover <;>
        cases hover

theorem passes_session (cfg : Config) (events : Bool) (status : ModemStatusSnapshot) :
    Passes limit Up (runSessionInner cfg events status)
      (fun r st => st.cycle = .ended r.1 ∧ st.waits = []) where
  triple := by
    have hunconcerned : Unconcerned (reconnect reopening limit) Anything := by
      intro e s s' he _ _
      refine ⟨?_, trivial⟩
      cases e <;> trivial
    refine triple_pre (hunconcerned.runSessionInner ?_ cfg events status) (fun _ _ => trivial)
    intro r s s' _ hstep
    have hnext : s' = { s with cycle := .ended r.1, waits := [] } := hstep
    rw [hnext]
    exact ⟨trivial, rfl, rfl⟩
  causal := causal_runSessionInner cfg events status
  waiting := waiting_session cfg events status

theorem ends_serveConnection {cfg : Config} (hlimit : cfg.reopenMaxAttempts < 4294967295)
    (status : ModemStatusSnapshot) :
    Ends cfg.reopenMaxAttempts Up (serveConnection cfg ⟨0, status⟩) := by
  refine (passes_session cfg true status).bind (fun r => ?_)
  obtain ⟨outcome, status'⟩ := r
  refine (passes_markDisconnected _ status').bind (fun status'' => ?_)
  cases outcome with
  | channelClosed => exact .of_pure (fun st h => ⟨.inr (.inr ⟨_, h.1⟩), .inl h.1⟩)
  | disconnected =>
    refine (ends_backoffOrGiveup hlimit _).pre ?_
    rintro st ⟨hcycle, hwaits⟩
    refine ⟨.inr (.inr ⟨_, hcycle⟩), ?_, hwaits, ?_⟩
    · rw [hcycle]
      exact fun h => by cases h
    intro n hn
    rw [Reconnect.number, hcycle] at hn
    cases hn
    exact ⟨rfl, by omega⟩

/-! ## A round -/

theorem triple_openSerial {cfg : Config} (s : ManagerState) :
    Triple (reconnect reopening cfg.reopenMaxAttempts) (Opening cfg.reopenMaxAttempts s) openSerial
      (fun ok st => if ok = true then Up st else Over cfg.reopenMaxAttempts s st) Anything := by
  refine triple_perform (fun a st st' hst hstep => ?_)
  refine ⟨hst.waited, ?_⟩
  have hnext : st' = ⟨if a.opened then .up else .refused, [], st.number reopening⟩ := hstep
  cases hopened : a.opened with
  | true =>
    rw [hnext, hopened]
    exact ⟨rfl, rfl⟩
  | false =>
    rw [hnext, hopened]
    refine ⟨.inl rfl, Cycle.noConfusion, rfl, ?_⟩
    intro n hn
    obtain ⟨k, hk, rfl⟩ := Option.map_eq_some_iff.mp hn
    obtain ⟨hattempt, hle⟩ := hst.number k hk
    omega

/-- What a round goes on with when the port is open or has been refused. -/
theorem managerStep_eq {cfg : Config} (hlimit : cfg.reopenMaxAttempts < 4294967295)
    (s : ManagerState) :
    ∃ k : Bool → Prog (ManagerState ⊕ Unit), managerStep cfg s = openSerial >>= k ∧
      ∀ ok, Ends cfg.reopenMaxAttempts
        (fun st => if ok = true then Up st else Over cfg.reopenMaxAttempts s st) (k ok) := by
  refine ⟨_, rfl, fun ok => ?_⟩
  cases ok with
  | false => exact ends_dropConnection hlimit s
  | true =>
    have hconnect : Passes cfg.reopenMaxAttempts Up (markConnected s.status) (fun _ => Up) :=
      ⟨keeps_bind (keeps_emit (fun _ _ => unwatched rfl)) (fun _ => keeps_pure _),
        causal_bind (causal_emit _) (fun _ => causal_pure _),
        waiting_bind (keeps_emit (R := Anything) (fun _ _ => unwatched rfl)) (waiting_emit _)
          (fun _ => waiting_pure _)⟩
    refine hconnect.bind (fun status => ?_)
    have hdrop := (ends_dropConnection hlimit ⟨0, status⟩).pre (fun _ => over_of_failed status)
    refine (setsUp_recoverCommandMode.passes causal_abort).bind (fun o => ?_)
    cases o with
    | none => exact hdrop
    | some u =>
      refine ((setsUp_initializeModem cfg).passes (causal_initializeModem cfg)).bind (fun o => ?_)
      cases o with
      | none => exact hdrop
      | some ok =>
        refine Passes.bind (p := auditInit ok) (T := fun _ => Up) ?_
          (fun _ => ends_serveConnection hlimit status)
        cases ok with
        | true => exact ⟨keeps_pure (), causal_pure (), waiting_pure ()⟩
        | false =>
          exact ⟨keeps_audit_reconnect _ _ _ _, causal_audit _ _,
            waiting_perform (fun _ => up_not_over)⟩

theorem triple_managerStep_reconnect {cfg : Config}
    (hlimit : cfg.reopenMaxAttempts < 4294967295) (s : ManagerState) :
    Triple (reconnect reopening cfg.reopenMaxAttempts) (Opening cfg.reopenMaxAttempts s)
      (managerStep cfg s) (afterCycle cfg.reopenMaxAttempts) Anything := by
  obtain ⟨k, hround, hk⟩ := managerStep_eq hlimit s
  rw [hround]
  exact triple_bind (triple_openSerial s) (fun ok => (hk ok).triple)

/-- A round that waits for an answer after a cycle is the last one, or it is about
to open the port. -/
theorem managerStep_goesOn {cfg : Config} (hlimit : cfg.reopenMaxAttempts < 4294967295)
    (s : ManagerState) {script : List Answer} {st st' : Reconnect} {n : Nat}
    (hst : Opening cfg.reopenMaxAttempts s st) (hcut : (managerStep cfg s script).outcome = .cut)
    (hpath : (reconnect reopening cfg.reopenMaxAttempts).Path st
      (managerStep cfg s script).trace st')
    (hover : st'.IsOver) (hn : st'.number reopening = some n) :
    st'.cycle ≠ .ended .channelClosed ∧
      GoesOn cfg.reopenMaxAttempts (.inr ()) (managerStep cfg s) script n := by
  obtain ⟨k, hround, hk⟩ := managerStep_eq hlimit s
  rw [hround] at hcut hpath ⊢
  unfold GoesOn
  cases script with
  | nil =>
    obtain rfl : st = st' := hpath
    obtain ⟨_, hle⟩ := hst.number n hn
    simp only [if_neg (show n ≠ cfg.reopenMaxAttempts + 1 by omega)]
    exact ⟨hst.notClosed, fun a => ⟨(k a.opened []).trace, rfl⟩⟩
  | cons b rest =>
    obtain ⟨m, hm, hm'⟩ := hpath
    have hopened := ((triple_openSerial s) [b] st hst).2 m ⟨m, hm, rfl⟩
    obtain ⟨hopen, hlast, hdone⟩ := (hk b.opened).last rest m st' n hopened hcut hm' hover hn
    simp only [if_pos hlast]
    exact ⟨hopen, hdone⟩

/-- A loop goes on as its round does in which it waits. -/
theorem GoesOn.ofRound {σ : Type} {body : σ → Prog (σ ⊕ Unit)} (hbody : Advances body) {x : σ}
    {script : List Answer} {n : Nat} (hcut : (body x script).outcome = .cut)
    (h : GoesOn limit (.inr ()) (body x) script n) :
    GoesOn limit () (iterate body x) script n := by
  have htrace : (iterate body x script).trace = (body x script).trace := by
    rw [iterate_eq hbody, run_bind]
    match hrun : body x script with
    | ⟨.done r, rest, t⟩ => rw [hrun] at hcut; cases hcut
    | ⟨.failed, rest, t⟩ => rfl
    | ⟨.cut, rest, t⟩ => rfl
  intro a
  have hnext := h a
  rw [htrace]
  split at hnext
  · rw [if_pos ‹_›, iterate_eq hbody, outcome_bind _ hnext]
    rfl
  · obtain ⟨t, ht⟩ := hnext
    obtain ⟨u, hu⟩ := trace_round hbody x (script ++ [a])
    rw [if_neg ‹_›]
    refine ⟨t ++ u, ?_⟩
    rw [← hu, ht, List.append_assoc, List.cons_append]

/-- A loop goes on after a round as it does from the round's end. -/
theorem GoesOn.afterRound {σ : Type} {body : σ → Prog (σ ⊕ Unit)} (hbody : Advances body)
    {x y : σ} {script rest : List Answer} {t : List Event} {n : Nat} (hcausal : Causal (body x))
    (hrun : body x script = ⟨.done (.inl y), rest, t⟩)
    (h : GoesOn limit () (iterate body y) rest n) : GoesOn limit () (iterate body x) script n := by
  intro a
  have hbegins := hcausal.begins script [a]
  rw [hrun] at hbegins
  have hnext := h a
  rw [iterate_eq hbody, run_bind_done hrun, run_bind_done hbegins.done]
  split at hnext
  · rw [if_pos ‹_›]
    exact hnext
  · obtain ⟨u, hu⟩ := hnext
    rw [if_neg ‹_›]
    exact ⟨u, by simp only [hu, List.append_assoc]⟩

theorem manager_goesOn {cfg : Config} (hlimit : cfg.reopenMaxAttempts < 4294967295)
    {script : List Answer} {s : ManagerState} {st st' : Reconnect} {n : Nat}
    (hst : Opening cfg.reopenMaxAttempts s st)
    (hcut : (iterate (managerStep cfg) s script).outcome = .cut)
    (hpath : (reconnect reopening cfg.reopenMaxAttempts).Path st
      (iterate (managerStep cfg) s script).trace st')
    (hover : st'.IsOver) (hn : st'.number reopening = some n) :
    st'.cycle ≠ .ended .channelClosed ∧
      GoesOn cfg.reopenMaxAttempts () (iterate (managerStep cfg) s) script n := by
  have htakes := takes_managerStep cfg
  have hadvances : Advances (managerStep cfg) := fun s => (htakes s).advancing.taken
  induction hlen : script.length using Nat.strongRecOn generalizing script s st with
  | ind len ih =>
    have hpost := (triple_managerStep_reconnect hlimit s script st hst).2
    have hrounds := hcut
    have hrounds' := hpath
    rw [iterate_eq hadvances] at hrounds hrounds'
    rcases run_bind_cases (managerStep cfg s) _ script with
      ⟨r, rest, t, hrun, h⟩ | ⟨rest, t, hrun, h⟩ | ⟨rest, t, hrun, h⟩ <;>
      rw [h] at hrounds hrounds'
    · cases r with
      | inr u => cases hrounds
      | inl s' =>
        rw [hrun] at hpost
        obtain ⟨m, hm, hm'⟩ := (reconnect reopening cfg.reopenMaxAttempts).path_append.mp hrounds'
        have hlt := (htakes s).taken script _ (by rw [hrun])
        rw [hrun] at hlt
        obtain ⟨hopen, hrest⟩ := ih rest.length (hlen ▸ hlt) (hpost m hm) hrounds hm' rfl
        exact ⟨hopen, hrest.afterRound hadvances (htakes s).causal hrun⟩
    · cases hrounds
    · have hwaits : (managerStep cfg s script).outcome = .cut := by rw [hrun]
      obtain ⟨hopen, hround⟩ := managerStep_goesOn hlimit s hst hwaits
        (by rw [hrun]; exact hrounds') hover hn
      exact ⟨hopen, hround.ofRound hadvances hwaits⟩

end Keeping

/-- The manager reopens the port after the waits of its reopen attempts, and
returns when the attempts are used up.  `Config::from_map` accepts at most 1000
of them. -/
theorem reconnects_by_attempts (cfg : Config) (hlimit : cfg.reopenMaxAttempts < 4294967295) :
    ReconnectPolicy reopening cfg.reopenMaxAttempts (runModemManager cfg) := by
  have hrun : Triple (reconnect reopening cfg.reopenMaxAttempts)
      (Opening cfg.reopenMaxAttempts ⟨0, initialSnapshot⟩) (runModemManager cfg)
      (fun _ st => st.Returned reopening cfg.reopenMaxAttempts) Anything := by
    refine triple_iterate (I := fun s => Opening cfg.reopenMaxAttempts s) (fun s => ?_) _
    refine triple_post (triple_managerStep_reconnect hlimit s) (fun r st h => ?_)
    cases r <;> exact h
  have hstart : Opening cfg.reopenMaxAttempts ⟨0, initialSnapshot⟩ .initial := by
    refine ⟨.inl rfl, Cycle.noConfusion, ?_⟩
    intro n hn
    cases hn
    exact ⟨rfl, Nat.zero_le _⟩
  refine ⟨fun script => (hrun script .initial hstart).1, ?_, ?_⟩
  · intro script s hdone hpath
    have hreturned := (hrun script .initial hstart).2 s hpath
    rw [hdone] at hreturned
    exact hreturned
  · intro script s n hcut hpath hover hn
    exact manager_goesOn hlimit hstart hcut hpath hover hn

/-- The port cannot be opened four times, and there are three reopen attempts. -/
def neverOpened : List Answer := List.replicate 4 { opened := false }

theorem reconnects_by_attempts_refused : plainConfig.reopenMaxAttempts < 4294967295 ∧
    (runModemManager plainConfig neverOpened).outcome = .cut ∧
      ∀ a, (runModemManager plainConfig (neverOpened ++ [a])).outcome = .done () := by
  have hlimit : plainConfig.reopenMaxAttempts < 4294967295 := by decide
  have hcut : (runModemManager plainConfig neverOpened).outcome = .cut := by decide +kernel
  refine ⟨hlimit, hcut, fun a => ?_⟩
  have hlast : (runModemManager plainConfig neverOpened).trace.foldl (Reconnect.next reopening)
      .initial = ⟨.refused, [], some 3⟩ := by decide +kernel
  have hgoes := (reconnects_by_attempts plainConfig hlimit).goesOn neverOpened _ 4 hcut
    (Monitor.path_observing _ _ _ _) (.inl (by rw [hlast])) (by rw [hlast]; rfl)
  exact hgoes.2 a

/-! ## After a session -/

/-- A session is lost, the port cannot be opened once, and then it can. -/
def lostThenRefused : List Answer :=
  connects ++ [{ read := .ioError }, { opened := false }, .quiet]

/-- The cycle after a lost session is the first that reaches no session, but it
is followed by the second wait. -/
theorem second_wait : ¬ ∀ cfg : Config, cfg.reopenMaxAttempts ≤ 1000 →
    ReconnectPolicy consecutive cfg.reopenMaxAttempts (runModemManager cfg) := by
  intro h
  have hsafe := (h plainConfig (by decide)).waits lostThenRefused
  have hmem : ((⟨.refused, [2], some 0⟩, .opened true) : Reconnect × Event) ∈
      Monitor.follow (fun s e => some (s.next consecutive e)) .initial
        (runModemManager plainConfig lostThenRefused).trace := by
    decide +kernel
  have hok := (reconnect consecutive 3).ok_of_mem_follow (fun _ _ _ h => (Option.some.inj h).symm)
    hsafe hmem
  rcases hok with hstart | ⟨_, hwaited⟩
  · cases hstart
  · rcases hwaited 1 rfl with hzero | ⟨hwaits, _⟩
    · cases hzero
    · exact absurd hwaits (by decide)

end Modem
end GreenRelay
