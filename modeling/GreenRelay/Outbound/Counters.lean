/-
The message counters and the rows of the outbound table.

A message is accepted, and later sent or failed, once in its row and once in the
counters.  The row is written first and the counter is raised after it, so the
two are compared where no request is in between.  Each row of a table that was
empty at the start has the dispatch of its request, and a row together with the
phase of that dispatch is a `Sending`: from it alone it can be told which
counters have been raised for the message.  `Accounted` says that the counters
are exactly that, and every step changes one sending and the counters alike.

There are two exceptions.  The reaper writes the status of a message that it
delivered and announces it, as `dispatch_send` does, but it raises no counter, so
the condition is that its write leaves the status of the row as it is.  And a
handler that is dropped with its client while it waits for the insertion leaves a
row that was never counted as accepted and that no dispatch will resolve.
`delivered_uncounted` is a run in which the reaper delivers a message, and
`abandoned_uncounted` one in which a client goes.
-/
import GreenRelay.Outbound.Steps

namespace GreenRelay
namespace Outbound

open Modem (SendResult)

/-- The service, started on an empty outbound table. -/
def emptyService : Machine State Act := ⟨fun s => Starting s ∧ s.table.rows = [], step⟩

/-- Every statement of the database succeeds. -/
def NoDatabaseError (_ : State) : Act → Prop
  | .recordStatus _ ok => ok = true
  | .queryQueued ok => ok = true
  | _ => True

/-- A result that the reaper writes is the status that the row has already. -/
def ReaperKeepsStatus (s : State) : Act → Prop
  | .recordStatus (.reaper id) _ => ∀ r, s.tasks.phase (.reaper id) = some (.resolved r) →
      (s.table.find id).map (·.status) = some r.status
  | _ => True

/-- No handler is dropped while it waits for the insertion of its row. -/
def AcceptsAll (s : State) : Act → Prop
  | .dropHandler id => s.tasks.phase (.dispatch id) ≠ some .persisted
  | _ => True

/-- No dispatch is between its status write and the counter that belongs to it. -/
def UpToDate (s : State) : Prop := ∀ id o, s.tasks.phase (.dispatch id) ≠ some (.recorded o)

/-- No handler is between the insertion of its row and `record_message_accepted`. -/
def AcceptedUpToDate (s : State) : Prop := ∀ id, s.tasks.phase (.dispatch id) ≠ some .persisted

def State.rowsWith (s : State) (status : MessageStatus) : Nat :=
  s.table.rows.countP (fun m => m.status = status)

def Balanced (s : State) : Prop :=
  s.metrics.messagesAccepted
      = s.metrics.messagesSent + s.metrics.messagesFailed + s.rowsWith .queued ∧
    s.metrics.messagesSent = s.rowsWith .sent ∧ s.metrics.messagesFailed = s.rowsWith .failed

def CountersBalance (C : State → Act → Prop) : Prop :=
  ∀ s, emptyService.Reach C s → UpToDate s → Balanced s

/-! ## Sendings -/

/-- The status of a row and where the dispatch of its request stands. -/
structure Sending where
  status : MessageStatus
  phase : Option Phase
  deriving DecidableEq, Repr

def State.sendings (s : State) : List Sending :=
  s.table.rows.map (fun m => ⟨m.status, s.tasks.phase (.dispatch m.id)⟩)

inductive Counter where
  | accepted
  | sent
  | failed

def Metrics.get (m : Metrics) : Counter → Nat
  | .accepted => m.messagesAccepted
  | .sent => m.messagesSent
  | .failed => m.messagesFailed

def Phase.uncounted : Phase → Bool
  | .recorded _ => true
  | _ => false

/-- Whether the counter has been raised for the message. -/
def Sending.counted (x : Sending) : Counter → Bool
  | .accepted => x.phase ≠ some .persisted
  | .sent => x.status = .sent ∧ ¬ x.phase.any Phase.uncounted
  | .failed => x.status = .failed ∧ ¬ x.phase.any Phase.uncounted

/-- Whether the counter is due for a message with that status. -/
def Counter.due : Counter → MessageStatus → Bool
  | .accepted, _ => true
  | .sent, status => status = .sent
  | .failed, status => status = .failed

/-- What the phase of a dispatch says about the status of its row. -/
def Phase.Allows (status : MessageStatus) : Phase → Prop
  | .recorded o => status = o.status
  | .counted _ | .published _ | .finished => True
  | _ => status = .queued

def Sending.Sound (x : Sending) : Prop := ∃ p, x.phase = some p ∧ p.Allows x.status

/-- The counters are what the sendings say they are. -/
structure Accounted (s : State) : Prop where
  sound : ∀ x ∈ s.sendings, x.Sound
  counters : ∀ k, s.metrics.get k = s.sendings.countP (·.counted k)

/-- One sending becomes another. -/
def Replaced (s s' : State) (x y : Sending) : Prop :=
  ∃ l r, s.sendings = l ++ x :: r ∧ s'.sendings = l ++ y :: r

theorem sendings_congr {s s' : State} (htable : s'.table = s.table)
    (hphase : ∀ id, s'.tasks.phase (.dispatch id) = s.tasks.phase (.dispatch id)) :
    s'.sendings = s.sendings := by
  unfold State.sendings
  rw [htable]
  simp only [hphase]

/-- The row of a message changes, and with it at most the phase of its own
dispatch. -/
theorem replaced_modify {s s' : State} {id : Nat} {m : OutboundMessage}
    {f : OutboundMessage → OutboundMessage} (hf : ∀ r, (f r).id = r.id)
    (hfind : s.table.find id = some m) (htable : s'.table = s.table.modify id f hf)
    (hothers : ∀ j, j ≠ id → s'.tasks.phase (.dispatch j) = s.tasks.phase (.dispatch j)) :
    Replaced s s' ⟨m.status, s.tasks.phase (.dispatch id)⟩
      ⟨(f m).status, s'.tasks.phase (.dispatch id)⟩ := by
  obtain ⟨l, r, hrows, hid, hl, hr⟩ := Table.rows_split hfind
  have hsame : ∀ rows : List OutboundMessage, (∀ x ∈ rows, x.id ≠ id) →
      (rows.map (fun x => if x.id = id then f x else x)).map
          (fun x => (⟨x.status, s'.tasks.phase (.dispatch x.id)⟩ : Sending))
        = rows.map (fun x => ⟨x.status, s.tasks.phase (.dispatch x.id)⟩) := by
    intro rows hrows
    rw [List.map_map]
    apply List.map_congr_left
    intro x hx
    have hne := hrows x hx
    simp [hne, hothers x.id hne]
  refine ⟨l.map (fun x => ⟨x.status, s.tasks.phase (.dispatch x.id)⟩),
    r.map (fun x => ⟨x.status, s.tasks.phase (.dispatch x.id)⟩), ?_, ?_⟩
  · rw [State.sendings, hrows, List.map_append, List.map_cons, hid]
  · rw [State.sendings, htable]
    show ((s.table.rows.map _).map _) = _
    rw [hrows, List.map_append, List.map_cons, List.map_append, List.map_cons, hsame l hl,
      hsame r hr, if_pos hid, hf, hid]

/-- A dispatch goes on to its next phase. -/
theorem replaced_moves {s s' : State} {id : Nat} {p q : Phase} (hk : Known s)
    (hm : Moves s.tasks s'.tasks (.dispatch id) p q) (htable : s'.table = s.table) :
    ∃ status, Replaced s s' ⟨status, some p⟩ ⟨status, some q⟩ := by
  have hsome : (s.table.find id).isSome := hk.phase _ _ hm.before
  obtain ⟨m, hfind⟩ := Option.isSome_iff_exists.mp hsome
  refine ⟨m.status, ?_⟩
  have hmodify : s'.table = s.table.modify id (fun m => m) (fun _ => rfl) := by
    rw [htable, Table.modify_self]
  have hr := replaced_modify (fun _ => rfl) hfind hmodify
    (fun j hj => hm.others _ (fun e => hj (Courier.dispatch.inj e)))
  rwa [hm.before, hm.after] at hr

/-! ## Steps -/

namespace Accounted

variable {s s' : State} {c : Courier} {p q : Phase} {id : Nat} {x y : Sending}

theorem same (h : Accounted s) (hsendings : s'.sendings = s.sendings)
    (hmetrics : s'.metrics = s.metrics) : Accounted s' where
  sound := hsendings ▸ h.sound
  counters k := by rw [hsendings, hmetrics, h.counters]

/-- A sending and the counters change alike. -/
theorem replaced (h : Accounted s) (hr : Replaced s s' x y) (hy : x.Sound → y.Sound)
    (hk : x.Sound → ∀ k, s'.metrics.get k + (x.counted k).toNat
      = s.metrics.get k + (y.counted k).toNat) : Accounted s' := by
  obtain ⟨l, r, hs, hs'⟩ := hr
  have hx : x.Sound := h.sound x (by rw [hs]; simp)
  refine ⟨?_, ?_⟩
  · intro z hz
    rw [hs'] at hz
    rcases List.mem_append.mp hz with hz | hz
    · exact h.sound z (by rw [hs]; exact List.mem_append_left _ hz)
    · rcases List.mem_cons.mp hz with rfl | hz
      · exact hy hx
      · exact h.sound z (by rw [hs]; simp [hz])
  · intro k
    have hchange := hk hx k
    have hone : ∀ z : Sending, (if z.counted k = true then 1 else 0) = (z.counted k).toNat := by
      intro z
      cases z.counted k <;> rfl
    rw [h.counters k, hs, List.countP_append, List.countP_cons, hone] at hchange
    rw [hs', List.countP_append, List.countP_cons, hone]
    omega

/-- A dispatch moves on, and raises the counters by what the move says. -/
theorem counts (h : Accounted s) (hk : Known s) (hm : Moves s.tasks s'.tasks (.dispatch id) p q)
    (htable : s'.table = s.table) (hallows : ∀ status, p.Allows status → q.Allows status)
    (hcount : ∀ status, p.Allows status → ∀ k,
      s'.metrics.get k + ((⟨status, some p⟩ : Sending).counted k).toNat
        = s.metrics.get k + ((⟨status, some q⟩ : Sending).counted k).toNat) : Accounted s' := by
  obtain ⟨status, hr⟩ := replaced_moves hk hm htable
  have hp : (⟨status, some p⟩ : Sending).Sound → p.Allows status := by
    rintro ⟨p', hp', hallows'⟩
    cases hp'
    exact hallows'
  apply h.replaced hr
  · intro hx
    exact ⟨q, rfl, hallows status (hp hx)⟩
  · intro hx
    exact hcount status (hp hx)

/-- Either courier moves on without a counter. -/
theorem moves (h : Accounted s) (hk : Known s) (hm : Moves s.tasks s'.tasks c p q)
    (htable : s'.table = s.table) (hmetrics : s'.metrics = s.metrics)
    (hallows : ∀ status, p.Allows status → q.Allows status)
    (hcount : ∀ status, p.Allows status → ∀ k,
      (⟨status, some p⟩ : Sending).counted k = (⟨status, some q⟩ : Sending).counted k) :
    Accounted s' := by
  cases c with
  | dispatch id =>
    apply h.counts hk hm htable hallows
    intro status hp k
    rw [hmetrics, hcount status hp k]
  | reaper id =>
    apply h.same (sendings_congr htable _) hmetrics
    intro j
    exact hm.others _ (fun e => by cases e)

/-- The new row has nothing counted for it. -/
theorem prepareSend (h : Accounted s) (createdAt : Nat) (toNumber body : String)
    (partCount : Nat) (sync : Bool) :
    Accounted (s.prepareSend createdAt toNumber body partCount sync) := by
  have hsendings : (s.prepareSend createdAt toNumber body partCount sync).sendings
      = s.sendings ++ [⟨.queued, some .persisted⟩] := by
    show ((s.table.rows ++ [_]).map _) = _
    rw [List.map_append, List.map_singleton]
    congr 1
    · apply List.map_congr_left
      intro m hm
      have hle := s.table.bounded m hm
      have hne : Courier.dispatch m.id ≠ .dispatch (s.table.seq + 1) := by
        intro e
        have hid := Courier.dispatch.inj e
        omega
      show (⟨m.status, (s.tasks.spawn _ _).phase _⟩ : Sending) = _
      rw [Tasks.phase_spawn_of_ne hne]
    · show [(⟨.queued, (s.tasks.spawn _ _).phase _⟩ : Sending)] = _
      rw [Tasks.phase_spawn_same]
  refine ⟨?_, ?_⟩
  · intro x hx
    rw [hsendings] at hx
    rcases List.mem_append.mp hx with hx | hx
    · exact h.sound x hx
    · rw [List.mem_singleton.mp hx]
      exact ⟨.persisted, rfl, rfl⟩
  · intro k
    rw [hsendings, List.countP_append, ← h.counters k]
    cases k <;> rfl

/-- The write of a dispatch finds the row `queued` and counts nothing yet. -/
theorem recordDispatch (h : Accounted s) (hk : Known s) {r : SendResult} {w : StatusWrite}
    (hp : s.tasks.phase (.dispatch id) = some (.resolved r)) (hw : statusWrite r = some w) :
    Accounted (s.recordStatus (.dispatch id) r w true) := by
  have hsome : (s.table.find id).isSome := hk.phase _ _ hp
  obtain ⟨m, hfind⟩ := Option.isSome_iff_exists.mp hsome
  obtain ⟨_, _, houtcome⟩ := statusWrite_outcome hw
  have hm : Moves s.tasks (s.recordStatus (.dispatch id) r w true).tasks (.dispatch id)
    (.resolved r) (.recorded (dispatchOutcome r)) := moves_move hp _
  have hr : Replaced s (s.recordStatus (.dispatch id) r w true) _ _ :=
    replaced_modify (w.apply_id s.now) hfind rfl
      (fun j hj => hm.others _ (fun e => hj (Courier.dispatch.inj e)))
  rw [hm.before, hm.after] at hr
  apply h.replaced hr
  · intro _
    refine ⟨_, rfl, ?_⟩
    rw [houtcome]
    rfl
  · rintro ⟨p, hp', hallows⟩ k
    cases hp'
    have hqueued : m.status = .queued := hallows
    cases k <;> simp [Sending.counted, Phase.uncounted, hqueued, State.recordStatus]

/-- The write of the reaper, where it changes no status. -/
theorem recordReaper (h : Accounted s) {r : SendResult} {w : StatusWrite}
    (hw : statusWrite r = some w)
    (hkeeps : (s.table.find id).map (·.status) = some r.status) :
    Accounted (s.recordStatus (.reaper id) r w true) := by
  obtain ⟨m, hfind, hstatus⟩ := Option.map_eq_some_iff.mp hkeeps
  have hw' := (statusWrite_outcome hw).1
  obtain ⟨l, l', hs, hs'⟩ : Replaced s (s.recordStatus (.reaper id) r w true) _ _ :=
    replaced_modify (w.apply_id s.now) hfind rfl (fun _ _ => rfl)
  refine h.same ?_ rfl
  rw [hs, hs']
  have hsame : (w.apply s.now m).status = m.status := hw'.trans hstatus.symm
  rw [hsame]
  rfl

theorem step {a : Act} (h : Accounted s) (hk : Known s) (hdb : NoDatabaseError s a)
    (hreaper : ReaperKeepsStatus s a) (haccepts : AcceptsAll s a) (hstep : Stepped s a s') :
    Accounted s' := by
  cases hstep with
  | clock now => exact h.same rfl rfl
  | prepareSend createdAt toNumber body partCount sync =>
    exact h.prepareSend createdAt toNumber body partCount sync
  | syncSend hp =>
    refine h.counts hk ((moves_move hp .submitting).setWaiter _ _) rfl (fun _ hq => hq) ?_
    intro status hq k
    cases hq
    cases k <;> rfl
  | queueSend d hp =>
    refine h.counts hk (moves_move hp .submitting) rfl (fun _ hq => hq) ?_
    intro status hq k
    cases hq
    cases k <;> rfl
  | submit d hp =>
    refine h.moves hk (moves_move hp .awaiting) rfl rfl (fun _ hq => hq) ?_
    intro status hq k
    cases hq
    cases k <;> rfl
  | refused hp | wake hp =>
    refine h.moves hk (moves_move hp (.resolved _)) rfl rfl (fun _ hq => hq) ?_
    intro status hq k
    cases hq
    cases k <;> rfl
  | manager _ _ => exact h.same rfl rfl
  | @answered a c m r _ _ =>
    by_cases hp : s.tasks.phase c = some .awaiting
    · refine h.moves hk (moves_deliver hp r) rfl rfl (fun _ hq => hq) ?_
      intro status hq k
      cases hq
      cases k <;> rfl
    · rw [Tasks.deliver, if_neg hp]
      exact h.same rfl rfl
  | @recordStatus c r w ok hp hw =>
    cases (show ok = true from hdb)
    cases c with
    | dispatch id => exact h.recordDispatch hk hp hw
    | reaper id => exact h.recordReaper hw (hreaper r hp)
  | deferDispatch hp hw =>
    refine h.moves hk (moves_move hp (.published _)) rfl rfl (fun _ _ => trivial) ?_
    intro status hq k
    cases hq
    cases k <;> rfl
  | deferReaper hp hw =>
    exact h.same (sendings_congr rfl (fun _ => rfl)) rfl
  | @recordMetric id o hp =>
    refine h.counts hk (moves_move hp (.counted o)) rfl (fun _ _ => trivial) ?_
    intro status hq k
    have ho : status = o.status := hq
    subst ho
    cases o with
    | mk status reference =>
      cases status <;> cases k <;> rfl
  | publishDispatch hp =>
    refine h.moves hk (moves_move hp (.published _)) rfl rfl (fun _ _ => trivial) ?_
    intro status _ k
    cases k <;> rfl
  | publishReaper hp => exact h.same (sendings_congr rfl (fun _ => rfl)) rfl
  | replyOutcome hp =>
    refine h.moves hk ((moves_move hp .finished).handOver _ _) rfl rfl (fun _ _ => trivial) ?_
    intro status _ k
    cases k <;> rfl
  | respond parts hw | expire parts hw | dropWaiting hw =>
    exact h.same (sendings_congr rfl (fun _ => Tasks.phase_setWaiter _ _ _ _)) rfl
  | forget hp => exact absurd hp haccepts
  | tick hr => exact h.same rfl rfl
  | queryQueued ok hr => exact h.same rfl rfl
  | nextStuck hr => exact h.same rfl rfl
  | abort => exact h.same rfl rfl

end Accounted

/-- The condition under which the counters balance. -/
def CountsAll (s : State) (a : Act) : Prop :=
  NoDatabaseError s a ∧ ReaperKeepsStatus s a ∧ AcceptsAll s a

theorem known_onEmpty (C : State → Act → Prop) : emptyService.Inductive C Known where
  start s hs := (Known.invariant C).start s hs.1
  step := (Known.invariant C).step

theorem accounted_invariant :
    emptyService.Inductive CountsAll (fun s => Known s ∧ Accounted s) := by
  apply (known_onEmpty CountsAll).and
  · intro s hs
    have hsendings : s.sendings = [] := by rw [State.sendings, hs.2, List.map_nil]
    refine ⟨?_, ?_⟩
    · rw [hsendings]
      intro x hx
      cases hx
    · intro k
      rw [hsendings, hs.1.metrics]
      cases k <;> rfl
  · intro s a t hk h hc ht
    exact h.step hk hc.1 hc.2.1 hc.2.2 (stepped_of_step ht)

/-! ## The balance -/

theorem length_eq_rowsWith (s : State) :
    s.table.rows.length = s.rowsWith .sent + s.rowsWith .failed + s.rowsWith .queued := by
  unfold State.rowsWith
  induction s.table.rows with
  | nil => rfl
  | cons m rows ih =>
    rw [List.length_cons, ih]
    cases hm : m.status <;> simp [hm] <;> omega

/-- Where nothing is in between, a message is counted for what its row says. -/
theorem counted_of_upToDate {s : State} (h : Accounted s) (hupToDate : UpToDate s)
    (haccepted : AcceptedUpToDate s) {x : Sending} (hx : x ∈ s.sendings) (k : Counter) :
    x.counted k = k.due x.status := by
  obtain ⟨p, hp, _⟩ := h.sound x hx
  obtain ⟨m, _, rfl⟩ := List.mem_map.mp hx
  have hphase : s.tasks.phase (.dispatch m.id) = some p := hp
  have hpersisted : p ≠ .persisted := fun he => haccepted m.id (he ▸ hphase)
  have huncounted : p.uncounted = false := by
    cases p with
    | recorded o => exact absurd hphase (hupToDate m.id o)
    | _ => rfl
  cases k <;> simp [Sending.counted, Counter.due, hphase, huncounted, hpersisted]

theorem balanced_of_accounted {s : State} (h : Accounted s) (hupToDate : UpToDate s)
    (haccepted : AcceptedUpToDate s) : Balanced s := by
  have hcount : ∀ k, s.metrics.get k = s.table.rows.countP (fun m => k.due m.status) := by
    intro k
    have hdue : s.sendings.countP (·.counted k) = s.sendings.countP (fun x => k.due x.status) := by
      apply List.countP_congr
      intro x hx
      rw [counted_of_upToDate h hupToDate haccepted hx]
    rw [h.counters k, hdue, State.sendings, List.countP_map]
    rfl
  have htotal := hcount .accepted
  have hlength : s.table.rows.countP (fun _ => true) = s.table.rows.length := by simp
  rw [show (fun m : OutboundMessage => Counter.accepted.due m.status) = fun _ => true from rfl,
    hlength, length_eq_rowsWith] at htotal
  have hsent : s.metrics.messagesSent = s.rowsWith .sent := hcount .sent
  have hfailed : s.metrics.messagesFailed = s.rowsWith .failed := hcount .failed
  refine ⟨?_, hsent, hfailed⟩
  rw [hsent, hfailed]
  exact htotal

/-- Where the reaper changes no status and no handler is dropped at the insertion of
its row, the counters balance with the rows whenever no counter is still to follow. -/
theorem counters_balance {s : State} (hs : emptyService.Reach CountsAll s)
    (hupToDate : UpToDate s) (haccepted : AcceptedUpToDate s) : Balanced s :=
  balanced_of_accounted (accounted_invariant.reach hs).2 hupToDate haccepted

/-- Every dispatch is known, so it is enough to look at the rows. -/
theorem upToDate_of_sendings {s : State} (hk : Known s)
    (h : ∀ x ∈ s.sendings, ∀ p, x.phase = some p → p ≠ .persisted ∧ p.uncounted = false) :
    UpToDate s ∧ AcceptedUpToDate s := by
  have hphase : ∀ id p, s.tasks.phase (.dispatch id) = some p →
      p ≠ .persisted ∧ p.uncounted = false := by
    intro id p hp
    have hsome : (s.table.find id).isSome := hk.phase _ _ hp
    obtain ⟨m, hm⟩ := Option.isSome_iff_exists.mp hsome
    have hx := h _ (List.mem_map_of_mem (Table.mem_of_find hm)) p
    rw [Table.find_key hm] at hx
    exact hx hp
  refine ⟨?_, fun id hp => (hphase id _ hp).1 rfl⟩
  intro id o hp
  cases (hphase id _ hp).2

theorem counters_balance_delivered :
    UpToDate (stateAfter delivered) ∧ AcceptedUpToDate (stateAfter delivered) ∧
      Balanced (stateAfter delivered) := by
  have hs : emptyService.Reach CountsAll (stateAfter delivered) := by
    have hmeets : emptyService.Meets CountsAll fresh delivered := by
      apply Machine.meets_of_forall
      simp [delivered, handedOver, CountsAll, NoDatabaseError, ReaperKeepsStatus, AcceptsAll]
    exact Machine.reach_of_meets ⟨starting_fresh, rfl⟩ hmeets rfl
  have hupToDate : UpToDate (stateAfter delivered) ∧ AcceptedUpToDate (stateAfter delivered) := by
    apply upToDate_of_sendings (accounted_invariant.reach hs).1
    have hsendings : (stateAfter delivered).sendings
        = [⟨.sent, some (.published ⟨.sent, some "42"⟩)⟩] := by
      decide
    intro x hx p hp
    rw [hsendings] at hx
    rw [List.mem_singleton.mp hx] at hp
    cases hp
    exact ⟨by decide, rfl⟩
  exact ⟨hupToDate.1, hupToDate.2, counters_balance hs hupToDate.1 hupToDate.2⟩

theorem delivered_uncounted : ¬ CountersBalance NoDatabaseError := by
  intro h
  have hrun : ((emptyService.exec fresh reapedLater).map
      (fun s => (s.metrics, s.sendings, s.rowsWith .sent)))
        = some (⟨1, 0, 0⟩, [⟨.sent, some .finished⟩], 1) := by
    decide
  obtain ⟨s, hexec, hseen⟩ := Option.map_eq_some_iff.mp hrun
  rw [Prod.mk.injEq, Prod.mk.injEq] at hseen
  obtain ⟨hmetrics, hsendings, hrows⟩ := hseen
  have hmeets : emptyService.Meets NoDatabaseError fresh reapedLater := by
    apply Machine.meets_of_forall
    simp [reapedLater, deferred, reaped, handedOver, NoDatabaseError]
  have hs : emptyService.Reach NoDatabaseError s :=
    Machine.reach_of_meets ⟨starting_fresh, rfl⟩ hmeets hexec
  have hupToDate : UpToDate s ∧ AcceptedUpToDate s := by
    apply upToDate_of_sendings ((known_onEmpty _).reach hs)
    intro x hx p hp
    rw [hsendings] at hx
    rw [List.mem_singleton.mp hx] at hp
    cases hp
    exact ⟨by decide, rfl⟩
  have hsent : s.metrics.messagesSent = s.rowsWith .sent := (h s hs hupToDate.1).2.1
  rw [hmetrics, hrows] at hsent
  cases hsent

/-- A client that goes while its row is inserted. -/
def abandoned : List Act := [.prepareSend 0 "+15551230000" "hello" 1 false, .dropHandler 1]

theorem abandoned_uncounted :
    ¬ CountersBalance (fun s a => NoDatabaseError s a ∧ ReaperKeepsStatus s a) := by
  intro h
  have hmeets : emptyService.Meets (fun s a => NoDatabaseError s a ∧ ReaperKeepsStatus s a) fresh
      abandoned := by
    apply Machine.meets_of_forall
    simp [abandoned, NoDatabaseError, ReaperKeepsStatus]
  have hs : emptyService.Reach (fun s a => NoDatabaseError s a ∧ ReaperKeepsStatus s a)
      (stateAfter abandoned) := Machine.reach_of_meets ⟨starting_fresh, rfl⟩ hmeets rfl
  have hnone : ∀ id, (stateAfter abandoned).tasks.phase (.dispatch id) = none := by
    intro id
    show (((fresh.prepareSend 0 "+15551230000" "hello" 1 false).tasks.forget 1).phase _) = none
    by_cases hid : id = 1
    · rw [hid, Tasks.phase_forget_same]
    · have hne : Courier.dispatch id ≠ .dispatch 1 := fun e => hid (Courier.dispatch.inj e)
      have hspawn : (fresh.prepareSend 0 "+15551230000" "hello" 1 false).tasks.phase (.dispatch id)
          = fresh.tasks.phase (.dispatch id) := Tasks.phase_spawn_of_ne hne
      rw [Tasks.phase_forget_of_ne hne, hspawn]
      rfl
  have hupToDate : UpToDate (stateAfter abandoned) := by
    intro id o hp
    cases (hnone id).symm.trans hp
  cases (h _ hs hupToDate).1

end Outbound
end GreenRelay
