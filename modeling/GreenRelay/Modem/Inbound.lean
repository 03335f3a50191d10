/-
A stored message is persisted before it is deleted from the modem.

`Slot` is what a trace tells of one storage index: what the last `AT+CMGR` for
it yielded, whether that has been inserted since, and, of the handling that is
under way for whatever index, the reads, the rows and the events.  A raw request
is the one way around: it is written as it stands, so it may delete anything.
-/
import GreenRelay.Modem.Rules

namespace GreenRelay
namespace Modem

open Sms Scripted

/-! ## The monitor -/

structure Slot where
  raw : Bool
  parsed : Option ParsedInbound
  stored : Bool
  reads : Nat
  rows : List (Nat × ParsedInbound)
  published : List (Nat × ParsedInbound)
  deriving DecidableEq, Repr

def Slot.initial : Slot := ⟨false, none, false, 0, [], []⟩

def Slot.next (index : Nat) (s : Slot) : Event → Slot
  | .took (.raw _) => { s with raw := true }
  | .repliedRaw _ => { s with raw := false }
  | .popped _ => { s with reads := 0, rows := [], published := [] }
  | .wrote (.command text) _ =>
    if text = cmgrCommand index then
      { s with parsed := none, stored := false, reads := s.reads + 1 }
    else s
  | .exchanged e => if e.command = cmgrCommand index then { s with parsed := e.inbound } else s
  | .inserted message (.ok rowId) =>
    { s with
      stored := s.stored || decide (s.parsed = some message)
      rows := s.rows ++ [(rowId, message)] }
  | .published rowId message => { s with published := s.published ++ [(rowId, message)] }
  | _ => s

/-- The commands of a handling: at most three reads, and a deletion only of what
was stored since the last read. -/
def Slot.MayWrite (index : Nat) (s : Slot) (text : String) : Prop :=
  (text = cmgrCommand index → s.reads < 3) ∧
    (text = cmgdCommand index → s.stored = true ∧ s.rows ≠ [])

/-- At most one row is inserted by a handling, and exactly the inserted rows have
been published when it is over. -/
def inbound (index : Nat) : Monitor Event Slot :=
  .observing (Slot.next index) (fun s e =>
    match e with
    | .wrote (.command text) _ => s.MayWrite index text
    | .inserted _ (.ok _) => s.rows = []
    | .popped _ | .clock _ | .ended _ => s.published = s.rows
    | _ => True)

/-- The rows that a session publishes: all of them, if there is a bus. -/
def Slot.due (events : Bool) (s : Slot) : List (Nat × ParsedInbound) :=
  if events then s.rows else []

/-- The same for what the service does of its own accord, with or without a
bus. -/
def ownInbound (events : Bool) (index : Nat) : Monitor Event Slot :=
  .observing (Slot.next index) (fun s e =>
    match e with
    | .wrote (.command text) _ => s.raw = true ∨ s.MayWrite index text
    | .inserted _ (.ok _) => s.rows = []
    | .popped _ | .clock _ | .ended _ => s.published = s.due events
    | _ => True)

section Sessions

variable {events : Bool} {index : Nat}

/-! ## Exchanges -/

/-- The over-all state between two handlings. -/
def Settled (events : Bool) (s : Slot) : Prop := s.published = s.due events

def Idle (events : Bool) (s : Slot) : Prop := s.raw = false ∧ Settled events s

/-- The events that a slot takes no note of. -/
def Event.isSteady : Event → Bool
  | .read _ | .submitted _ | .audited _ _ _ | .pushed _ | .status _ | .slept _ => true
  | _ => false

theorem steady {I : Slot → Prop} {e : Event} (he : e.isSteady = true) {s s' : Slot} (hs : I s)
    (hstep : (ownInbound events index).step s e s') :
    (ownInbound events index).ok s e ∧ I s' := by
  have hsame : s' = s := by
    cases e <;> first | exact hstep | cases he
  refine ⟨?_, hsame ▸ hs⟩
  cases e <;> trivial

theorem triple_collect_slot {I R : Slot → Prop} (hR : ∀ s, I s → R s) (command : String) :
    Triple (ownInbound events index) I (collectUntilTerminator command)
      (fun e s => e.command = command ∧ I s) R := by
  refine triple_collect (fun r s s' hs hstep => ?_) command
  obtain ⟨hok, hI⟩ := steady rfl hs hstep
  refine ⟨hok, ?_⟩
  split
  · exact hR s' hI
  · exact hI

/-- A command that neither reads nor deletes the slot. -/
theorem keeps_exchange_foreign {I R : Slot → Prop} (hR : ∀ s, I s → R s) {text : String}
    (hread : text ≠ cmgrCommand index) (hdelete : text ≠ cmgdCommand index) :
    Keeps (ownInbound events index) I R (exchange text) := by
  refine triple_exchange (C := I) ?_ (triple_collect_slot hR text) ?_
  · refine triple_perform (fun a s s' hs hstep => ?_)
    have hsame : s' = s := by
      have hnext : s' = Slot.next index s (.wrote (.command text) a.write) := hstep
      rwa [Slot.next, if_neg hread] at hnext
    refine ⟨Or.inr ⟨fun h => absurd h hread, fun h => absurd h hdelete⟩, ?_⟩
    rw [hsame]
    cases a.write with
    | ok => exact hs
    | ioError n => exact hR s hs
  · intro e s s' he hstep
    have hsame : s' = s := by
      have hnext : s' = Slot.next index s (.exchanged e) := hstep
      rwa [Slot.next, he.1, if_neg hread] at hnext
    exact ⟨trivial, hsame ▸ he.2⟩

/-! ## The handling of an index -/

/-- A handling that has inserted nothing, with some of its reads left. -/
structure Reading (left : Nat) (s : Slot) : Prop where
  raw : s.raw = false
  rows : s.rows = []
  published : s.published = []
  reads : s.reads + left ≤ 3

theorem Reading.settled {left : Nat} {s : Slot} (h : Reading left s) : Settled events s := by
  unfold Settled Slot.due
  rw [h.published, h.rows, ite_self]

theorem triple_exchange_cmgr (left i : Nat) :
    Triple (ownInbound events index) (Reading (left + 1)) (exchange (cmgrCommand i))
      (fun e s => Reading left s ∧ (cmgrCommand i = cmgrCommand index → s.parsed = e.inbound))
      (Settled events) := by
  refine triple_exchange (C := Reading left) ?_
    (triple_collect_slot (fun _ h => h.settled) (cmgrCommand i)) ?_
  · refine triple_perform (fun a s s' hs hstep => ?_)
    obtain ⟨hraw, hrows, hpublished, hreads⟩ := hs
    have hnext : s' = Slot.next index s (.wrote (.command (cmgrCommand i)) a.write) := hstep
    have hread : Reading left s' := by
      rw [Slot.next] at hnext
      by_cases hsame : cmgrCommand i = cmgrCommand index
      · rw [if_pos hsame] at hnext
        subst hnext
        exact ⟨hraw, hrows, hpublished, by show s.reads + 1 + left ≤ 3; omega⟩
      · rw [if_neg hsame] at hnext
        subst hnext
        exact ⟨hraw, hrows, hpublished, by omega⟩
    refine ⟨Or.inr ⟨fun _ => by omega, fun h => absurd h (cmgr_ne_cmgd i index)⟩, ?_⟩
    cases a.write with
    | ok => exact hread
    | ioError n => exact hread.settled
  · intro e s s' he hstep
    obtain ⟨hcommand, hread⟩ := he
    have hnext : s' = Slot.next index s (.exchanged e) := hstep
    rw [Slot.next, hcommand] at hnext
    refine ⟨trivial, ?_⟩
    by_cases hsame : cmgrCommand i = cmgrCommand index
    · rw [if_pos hsame] at hnext
      subst hnext
      exact ⟨⟨hread.raw, hread.rows, hread.published, hread.reads⟩, fun _ => rfl⟩
    · rw [if_neg hsame] at hnext
      subst hnext
      exact ⟨hread, fun h => absurd h hsame⟩

theorem keeps_scanCmti_slot (I R : Slot → Prop) (lines : List String) (pending : List Nat) :
    Keeps (ownInbound events index) I R (scanCmti lines pending) := by
  induction lines generalizing pending with
  | nil => exact keeps_pure pending
  | cons line lines ih =>
    unfold scanCmti
    cases parseCmtiIndex line with
    | none => exact ih pending
    | some i => exact keeps_bind (keeps_emit (fun _ _ => steady rfl)) (fun _ => ih _)

theorem keeps_audit_slot (I R : Slot → Prop) (eventType detail : String) :
    Keeps (ownInbound events index) I R (audit eventType detail) :=
  keeps_perform (fun _ => rfl) (fun _ _ _ => steady rfl)

/-- What was read, in a handling that has not stored it. -/
def Parsed (index i : Nat) (message : ParsedInbound) (s : Slot) : Prop :=
  Reading 0 s ∧ (cmgrCommand i = cmgrCommand index → s.parsed = some message)

theorem triple_readInbound (i : Nat) (attempts : Nat) (pending : List Nat) :
    Triple (ownInbound events index) (Reading attempts) (readInbound i attempts pending)
      (fun r s => Reading 0 s ∧ ∀ message, r.1 = some message → Parsed index i message s)
      (Settled events) := by
  induction attempts generalizing pending with
  | zero => exact triple_pure (fun _ h => ⟨h, fun _ hm => by cases hm⟩)
  | succ left ih =>
    unfold readInbound
    refine triple_bind (triple_exchange_cmgr left i) (fun e => ?_)
    refine triple_bind (keeps_scanCmti_slot _ _ _ _) (fun pending => ?_)
    cases hinbound : e.inbound with
    | none => exact triple_pre (ih pending) (fun _ h => h.1)
    | some message =>
      refine triple_pure (fun s hs => ?_)
      have hdone : Reading 0 s :=
        ⟨hs.1.raw, hs.1.rows, hs.1.published, Nat.le_trans (Nat.le_add_right _ left) hs.1.reads⟩
      refine ⟨hdone, fun m hm => ⟨hdone, fun hsame => ?_⟩⟩
      exact (hs.2 hsame).trans (hinbound.symm ▸ hm)

/-- A handling that has inserted its row and published it, if there is a bus. -/
structure Stored (events : Bool) (index i : Nat) (s : Slot) : Prop where
  raw : s.raw = false
  settled : Settled events s
  rows : s.rows ≠ []
  stored : cmgrCommand i = cmgrCommand index → s.stored = true

theorem triple_exchange_cmgd (i : Nat) :
    Triple (ownInbound events index) (Stored events index i) (exchange (cmgdCommand i))
      (fun _ => Idle events) (Settled events) := by
  have hforeign : cmgdCommand i ≠ cmgrCommand index := fun h => cmgr_ne_cmgd index i h.symm
  refine triple_exchange (C := Idle events)
    ?_ (triple_collect_slot (fun _ h => h.2) (cmgdCommand i)) ?_
  · refine triple_perform (fun a s s' hs hstep => ?_)
    have hsame : s' = s := by
      have hnext : s' = Slot.next index s (.wrote (.command (cmgdCommand i)) a.write) := hstep
      rwa [Slot.next, if_neg hforeign] at hnext
    subst hsame
    refine ⟨Or.inr ⟨fun h => absurd h hforeign, fun h => ?_⟩, ?_⟩
    · exact ⟨hs.stored (cmgr_eq_of_cmgd h), hs.rows⟩
    · cases a.write with
      | ok => exact ⟨hs.raw, hs.settled⟩
      | ioError n => exact hs.settled
  · intro e s s' he hstep
    have hnext : s' = Slot.next index s (.exchanged e) := hstep
    rw [Slot.next, he.1, if_neg hforeign] at hnext
    exact ⟨trivial, hnext ▸ he.2⟩

/-- After the insert of what was read at an index. -/
def Inserted (events : Bool) (index i : Nat) (message : ParsedInbound) : DbReply → Slot → Prop
  | .ok rowId, s => s.raw = false ∧ s.rows = [(rowId, message)] ∧ s.published = [] ∧
      (cmgrCommand i = cmgrCommand index → s.stored = true)
  | .error _, s => Idle events s

theorem triple_storeInbound (i : Nat) (message : ParsedInbound) (pending : List Nat) :
    Triple (ownInbound events index) (Parsed index i message)
      (storeInbound events i message pending) (fun _ => Idle events) (Settled events) := by
  unfold storeInbound
  refine triple_bind (T := Inserted events index i message) ?_ (fun reply => ?_)
  · refine triple_perform (fun a s s' hs hstep => ?_)
    obtain ⟨hread, hparsed⟩ := hs
    have hnext : s' = Slot.next index s (.inserted message a.db) := hstep
    cases hdb : a.db with
    | error text =>
      rw [hdb] at hnext
      subst hnext
      exact ⟨trivial, hread.raw, hread.settled⟩
    | ok rowId =>
      rw [hdb] at hnext
      subst hnext
      refine ⟨hread.rows, hread.raw, ?_, hread.published, fun hsame => ?_⟩
      · show s.rows ++ _ = _
        rw [hread.rows, List.nil_append]
      · show (s.stored || decide (s.parsed = some message)) = true
        rw [hparsed hsame, decide_eq_true rfl, Bool.or_true]
  cases reply with
  | error text =>
    exact triple_bind (keeps_audit_slot _ _ _ _) (fun _ => triple_pure (fun _ h => h))
  | ok rowId =>
    refine triple_bind (T := fun _ => Stored events index i) ?_ (fun _ => ?_)
    · unfold publishInbound
      cases events with
      | false =>
        refine triple_pure (fun s hs => ?_)
        obtain ⟨hraw, hrows, hpublished, hstored⟩ := hs
        exact ⟨hraw, hpublished, by rw [hrows]; exact List.cons_ne_nil _ _, hstored⟩
      | true =>
        refine triple_emit (fun s s' hs hstep => ⟨trivial, ?_⟩)
        obtain ⟨hraw, hrows, hpublished, hstored⟩ := hs
        have hnext : s' = Slot.next index s (.published rowId message) := hstep
        subst hnext
        refine ⟨hraw, ?_, by show s.rows ≠ []; rw [hrows]; exact List.cons_ne_nil _ _, hstored⟩
        show s.published ++ [(rowId, message)] = s.rows
        rw [hpublished, hrows, List.nil_append]
    refine triple_bind (triple_exchange_cmgd i) (fun delete => ?_)
    refine triple_bind (keeps_scanCmti_slot _ _ _ _) (fun pending => ?_)
    refine triple_bind (T := fun _ => Idle events) ?_ (fun _ => triple_pure (fun _ h => h))
    unfold auditDelete
    split
    · exact keeps_pure ()
    · exact keeps_audit_slot _ _ _ _

/-- The handling of an index reads at most three times, inserts at most one row,
and deletes what it stored and nothing else. -/
theorem triple_handleInboundInner (i : Nat) (pending : List Nat) :
    Triple (ownInbound events index) (Reading 3) (handleInboundInner events i pending)
      (fun _ => Idle events) (Settled events) := by
  unfold handleInboundInner
  refine triple_bind (triple_readInbound i 3 pending) (fun r => ?_)
  obtain ⟨message, pending⟩ := r
  cases message with
  | none =>
    refine triple_bind (keeps_audit_slot _ _ _ _) (fun _ => triple_pure (fun s hs => ?_))
    exact ⟨hs.1.raw, hs.1.settled⟩
  | some message =>
    exact triple_pre (triple_storeInbound i message pending) (fun _ h => h.2 message rfl)

theorem triple_drainPending (pending : List Nat) :
    Triple (ownInbound events index) (Idle events) (drainPending events pending)
      (fun _ => Idle events) (Settled events) := by
  unfold drainPending
  refine keeps_iterate (fun pending => ?_) pending
  cases pending with
  | nil => exact keeps_pure _
  | cons i pending =>
    refine triple_bind (T := fun _ => Reading 3) ?_ (fun _ => ?_)
    · refine triple_emit (fun s s' hs hstep => ⟨hs.2, ?_⟩)
      have hnext : s' = Slot.next index s (.popped i) := hstep
      subst hnext
      exact ⟨hs.1, rfl, rfl, Nat.le_of_eq (Nat.zero_add 3)⟩
    · exact triple_bind (triple_handleInboundInner i pending)
        (fun _ => triple_pure (fun _ h => h))

/-! ## The session -/

theorem keepsLocal_slot {I : Slot → Prop} (hsettled : ∀ s, I s → Settled events s)
    (hraw : ∀ s, I s → I { s with raw := false }) : KeepsLocal (ownInbound events index) I := by
  intro e s s' he hs hstep
  match e with
  | .audited eventType detail reply => exact steady rfl hs hstep
  | .status snapshot => exact steady rfl hs hstep
  | .slept secs => exact steady rfl hs hstep
  | .clock due => exact ⟨hsettled s hs, (show s' = s from hstep) ▸ hs⟩
  | .ended outcome => exact ⟨hsettled s hs, (show s' = s from hstep) ▸ hs⟩
  | .repliedRaw x => exact ⟨trivial, (show s' = { s with raw := false } from hstep) ▸ hraw s hs⟩

theorem keepsLocal_idle : KeepsLocal (ownInbound events index) (Idle events) :=
  keepsLocal_slot (fun _ h => h.2) (fun _ h => ⟨rfl, h.2⟩)

theorem keepsLocal_settled : KeepsLocal (ownInbound events index) (Settled events) :=
  keepsLocal_slot (fun _ h => h) (fun _ h => h)

theorem keepsSubmission_slot (I : Slot → Prop) (encoding : SmsEncoding) :
    KeepsSubmission (ownInbound events index) I encoding := by
  intro e s s' he hs hstep
  match e with
  | .wrote (.header toNumber enc) reply => exact ⟨trivial, (show s' = s from hstep) ▸ hs⟩
  | .wrote (.body part enc) reply => exact ⟨trivial, (show s' = s from hstep) ▸ hs⟩
  | .wrote .abort reply => exact ⟨trivial, (show s' = s from hstep) ▸ hs⟩
  | .prompted reply => exact ⟨trivial, (show s' = s from hstep) ▸ hs⟩
  | .read reply => exact steady rfl hs hstep

theorem keeps_exchange_tagged {R : Slot → Prop} (hR : ∀ s, Idle events s → R s) {text : String}
    (h : tag text ≠ some 'R' ∧ tag text ≠ some 'D') :
    Keeps (ownInbound events index) (Idle events) R (exchange text) := by
  exact keeps_exchange_foreign hR (cmgr_ne h.1 index).symm (cmgd_ne h.2 index).symm

/-- While a raw request is served its command may be anything. -/
def Serving (events : Bool) (s : Slot) : Prop := s.raw = true ∧ Settled events s

theorem triple_exchange_raw (text : String) :
    Keeps (ownInbound events index) (Serving events) (Settled events) (exchange text) := by
  refine triple_exchange (C := Serving events) ?_ (triple_collect_slot (fun _ h => h.2) text) ?_
  · refine triple_perform (fun a s s' hs hstep => ⟨Or.inl hs.1, ?_⟩)
    have hnext : s' = Slot.next index s (.wrote (.command text) a.write) := hstep
    have hserving : Serving events s' := by
      rw [Slot.next] at hnext
      split at hnext <;> subst hnext <;> exact hs
    cases a.write with
    | ok => exact hserving
    | ioError n => exact hserving.2
  · intro e s s' he hstep
    have hnext : s' = Slot.next index s (.exchanged e) := hstep
    refine ⟨trivial, ?_⟩
    rw [Slot.next] at hnext
    split at hnext <;> subst hnext <;> exact he.2

theorem triple_handleRequest_slot (cfg : Config) (s : SessionState) (r : ModemRequest) :
    Triple (ownInbound events index)
      (match r with
        | .raw _ => Serving events
        | .sendSms _ _ => Idle events)
      (handleRequest cfg s r) (fun _ => Idle events) (Settled events) := by
  cases r with
  | raw command =>
    show Triple _ (Serving events) (handleRaw command s) _ _
    unfold handleRaw
    refine triple_bind (triple_exchange_raw command) (fun e => ?_)
    refine triple_bind (keeps_scanCmti_slot _ _ _ _) (fun pending => ?_)
    refine triple_bind (T := fun _ => Serving events) ?_ (fun _ => ?_)
    · exact triple_emit (fun _ _ => steady rfl)
    refine triple_bind (T := fun _ => Idle events) ?_ (fun _ => triple_pure (fun _ h => h))
    refine triple_emit (fun st st' hst hstep => ⟨trivial, ?_⟩)
    have hnext : st' = { st with raw := false } := hstep
    subst hnext
    exact ⟨rfl, hst.2⟩
  | sendSms toNumber body =>
    have hcommands : ∀ c ∈ sendCommands, tag c ≠ some 'R' ∧ tag c ≠ some 'D' := by decide +kernel
    have hsend := keeps_handleSend (M := ownInbound events index) keepsLocal_idle.notes
      (keepsSubmission_slot _) (fun c hc => keeps_exchange_tagged (fun _ h => h) (hcommands c hc))
      (fun _ _ _ => steady rfl) cfg s.status toNumber body
    refine triple_bind (keeps_weaken hsend (fun _ h => h.2)) (fun result => ?_)
    refine keeps_bind (keeps_emit (fun st st' hst hstep => ⟨trivial, ?_⟩)) (fun _ => keeps_pure s)
    exact (show st' = st from hstep) ▸ hst

/-- What the `select!` leaves, by its choice. -/
def Selected (events : Bool) : Choice → Slot → Prop
  | .request (.raw _) => Serving events
  | _ => Idle events

theorem triple_sessionStep_slot (cfg : Config) (s : SessionState) :
    Triple (ownInbound events index) (Idle events) (sessionStep cfg events s)
      (afterTurn (fun _ => Idle events) (Settled events)) (Settled events) := by
  have hstatus : ∀ c ∈ statusCommands, tag c ≠ some 'R' ∧ tag c ≠ some 'D' := by decide +kernel
  refine triple_sessionStep (I := fun _ => Idle events) s triple_drainPending
    keepsLocal_idle.reports ?_ ?_
  · exact keeps_refreshStatus keepsLocal_idle
      (fun c hc => keeps_exchange_tagged (fun _ h => h.2) (hstatus c hc))
  intro s _
  refine triple_serveTurn (I := fun _ => Idle events) (P := Selected events) ?_
    (fun _ h => h.2) (fun _ h => h.2) (fun _ h => h) (fun line => ?_) ?_
  · refine triple_select (fun r st st' hst hstep => ⟨trivial, ?_⟩)
      (fun st st' hst hstep => ⟨trivial, ?_⟩) (fun reply st st' hst hstep => ⟨trivial, ?_⟩)
    · cases r with
      | raw command =>
        have hnext : st' = { st with raw := true } := hstep
        subst hnext
        exact ⟨rfl, hst.2⟩
      | sendSms toNumber body => exact (show st' = st from hstep) ▸ hst
    · exact (show st' = st from hstep) ▸ hst
    · have hidle : Idle events st' := (show st' = st from hstep) ▸ hst
      cases reply <;> exact hidle
  · exact keeps_scanCmti_slot _ _ _ _
  · intro r
    refine triple_pre (triple_handleRequest_slot cfg s r) (fun _ h => ?_)
    cases r <;> exact h

end Sessions

/-- Over every run of a session, a deletion that no raw request carries follows
the storing of what the last read of the same index yielded, and every handling
keeps to three reads, one row, and one event for the row if there is a bus. -/
theorem persisted_before_deleted (cfg : Config) (events : Bool) (status : ModemStatusSnapshot)
    (script : List Answer) (index : Nat) :
    (ownInbound events index).Safe .initial (runSessionInner cfg events status script).trace := by
  have hinitial : Idle events .initial := by
    refine ⟨rfl, ?_⟩
    cases events <;> rfl
  exact (triple_runSessionInner (I := fun _ => Idle events) status
    (fun _ _ _ => keepsLocal_settled _ _ _ rfl) (triple_sessionStep_slot cfg)
    script .initial hinitial).1

/-! ## What a raw request and a session without a bus do -/

def rawDelete : List Answer := refreshed ++ [.took (.raw "AT+CMGD=1"), .quiet]

def announcedMessage : List Answer :=
  refreshed ++ [.line "+CMTI: \"SM\",1"] ++
    answered ["+CMGR: \"REC UNREAD\",\"+15550001111\",,\"25/01/01,00:00:00\"", "hi", "OK"] ++
    [.quiet] ++ answered ["OK"] ++ [.quiet]

theorem raw_delete_and_silent_insert :
    (¬ ∀ (cfg : Config) (status : ModemStatusSnapshot) (script : List Answer) (index : Nat),
      (inbound index).Safe .initial (runSessionInner cfg true status script).trace) ∧
    ¬ ∀ (cfg : Config) (status : ModemStatusSnapshot) (script : List Answer) (index : Nat),
      (inbound index).Safe .initial (runSessionInner cfg false status script).trace := by
  have hnext : ∀ (s : Slot) (e : Event) (s' : Slot), some (Slot.next 1 s e) = some s' →
      (inbound 1).step s e s' := fun s e s' h => (Option.some_inj.mp h).symm
  refine ⟨fun h => ?_, fun h => ?_⟩
  · -- The command of the raw request finds nothing stored.
    have hmem : ((⟨true, none, false, 0, [], []⟩, .wrote (.command "AT+CMGD=1") .ok) :
        Slot × Event) ∈ Monitor.follow (fun s e => some (Slot.next 1 s e)) .initial
          (runSessionInner plainConfig true initialSnapshot rawDelete).trace := by decide +kernel
    have hok := (inbound 1).ok_of_mem_follow hnext (h _ _ _ 1) hmem
    exact absurd (hok.2 (by decide +kernel)).1 (by decide)
  · -- The row is there when the next round begins, and no event.
    have hmem : ((⟨false, some ⟨"+15550001111", "hi"⟩, true, 1,
        [(0, ⟨"+15550001111", "hi"⟩)], []⟩, .clock false) : Slot × Event) ∈
          Monitor.follow (fun s e => some (Slot.next 1 s e)) .initial
            (runSessionInner plainConfig false initialSnapshot announcedMessage).trace := by
      decide +kernel
    have hok : ([] : List (Nat × ParsedInbound)) = [(0, ⟨"+15550001111", "hi"⟩)] :=
      (inbound 1).ok_of_mem_follow hnext (h _ _ _ 1) hmem
    cases hok

end Modem
end GreenRelay
