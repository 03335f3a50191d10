/-
No request after a send that the modem confirmed.

That a message was sent is remembered in the stored status and nowhere else, and
the tasks work on what they read of it earlier: a dispatch on the fact that its
row was new, the reaper on its batch.  So two things have to hold for a confirmed
message not to be submitted again: the write after every `Sent` result succeeds, and
the reaper reads no row whose dispatch is still on its way to that write.

`Apart` is what the second one gives.  `Remembered` is the invariant on top of it:
of a confirmed message it says that whoever has yet to write it holds its `Sent`
result, and that its row is no longer `queued` unless such a courier is there, or no
reaper is left to read it.

In `sent_again` the write is lost, which is discarded silently, and the reaper
finds the row still `queued`.
-/
import GreenRelay.Outbound.Apart

namespace GreenRelay
namespace Outbound

open Modem (SendResult)

/-- No request for a message after `send_sms` has returned `Sent` for it. -/
def NoResend (h : List Entry) : Prop :=
  h.Pairwise (fun a b => ∀ id, a = .returned id .sent → b ≠ .submitted id)

/-- A `Sent` result between `send_sms` and the status write. -/
def Phase.holdsSent : Phase → Bool
  | .resolved r => r.status = .sent
  | _ => false

/-- The write after a `Sent` result succeeds. -/
def SentWritten (s : State) : Act → Prop
  | .recordStatus c ok => At s c Phase.holdsSent → ok = true
  | _ => True

/-- Every `Sent` result is recorded, and no batch is read with a row whose dispatch
has yet to write. -/
def SentRecorded (s : State) (a : Act) : Prop := SentWritten s a ∧ ReadsFree s a

/-! ## The invariant -/

def Confirmed (s : State) (id : Nat) : Prop := .returned id .sent ∈ s.history

structure Remembered (s : State) : Prop where
  history : NoResend s.history
  held : ∀ c, Pending s c → Confirmed s c.id → At s c Phase.holdsSent
  stored : ∀ id, Confirmed s id → storedStatus s id ≠ some .queued ∨
    (∃ c, c.id = id ∧ At s c Phase.holdsSent) ∨ s.tasks.reaper = none

theorem NoResend.append {h : List Entry} {e : Entry} (hh : NoResend h)
    (he : ∀ id, .returned id .sent ∈ h → e ≠ .submitted id) : NoResend (h ++ [e]) := by
  rw [NoResend, List.pairwise_append]
  refine ⟨hh, List.pairwise_singleton _ _, ?_⟩
  intro a ha b hb id hid
  rw [List.mem_singleton.mp hb]
  exact he id (hid ▸ ha)

theorem Phase.unwritten_of_holdsSent {p : Phase} (h : p.holdsSent = true) : p.unwritten = true := by
  cases p <;> simp_all [Phase.holdsSent, Phase.unwritten]

theorem confirmed_congr {s s' : State} (hhistory : s'.history = s.history) (id : Nat) :
    Confirmed s' id ↔ Confirmed s id := by
  rw [Confirmed, hhistory, Confirmed]

/-- An entry other than a `Sent` result confirms nothing. -/
theorem confirmed_append {s s' : State} {e : Entry} (hhistory : s'.history = s.history ++ [e])
    {id : Nat} (he : e ≠ .returned id .sent) (h : Confirmed s' id) : Confirmed s id := by
  rw [Confirmed, hhistory] at h
  rcases List.mem_append.mp h with hold | hnew
  · exact hold
  · exact absurd (List.mem_singleton.mp hnew).symm he

namespace Remembered

variable {s s' : State} {c : Courier} {p q : Phase}

/-- Whoever is about to submit a message holds no result of it, so the message is not
confirmed. -/
theorem not_confirmed (h : Remembered s) (hp : s.tasks.phase c = some p)
    (hunwritten : p.unwritten = true) (hheld : p.holdsSent = false) : ¬ Confirmed s c.id := by
  intro hconf
  have hat := h.held c (.inl ⟨p, hp, hunwritten⟩) hconf
  rw [at_of_phase hp, hheld] at hat
  cases hat

/-- Nobody takes up a message and no result is let go. -/
theorem keeps (h : Remembered s) (hpending : ∀ c, Pending s' c → Pending s c)
    (hheld : ∀ c, At s c Phase.holdsSent → At s' c Phase.holdsSent)
    (hhistory : s'.history = s.history) (htable : s'.table = s.table)
    (hreaper : s.tasks.reaper = none → s'.tasks.reaper = none) : Remembered s' where
  history := hhistory ▸ h.history
  held c hc hconf := hheld c (h.held c (hpending c hc) ((confirmed_congr hhistory _).mp hconf))
  stored id hid := by
    rw [Apart.storedStatus_congr htable]
    rcases h.stored id ((confirmed_congr hhistory _).mp hid) with hne | ⟨c, hc, hat⟩ | hnone
    · exact .inl hne
    · exact .inr (.inl ⟨c, hc, hheld c hat⟩)
    · exact .inr (.inr (hreaper hnone))

theorem quiet (h : Remembered s) (hphase : ∀ c, s'.tasks.phase c = s.tasks.phase c)
    (hstuck : s'.tasks.stuck = s.tasks.stuck) (hhistory : s'.history = s.history)
    (htable : s'.table = s.table) (hreaper : s.tasks.reaper = none → s'.tasks.reaper = none) :
    Remembered s' := by
  have hat : ∀ c f, At s' c f ↔ At s c f := fun c f => by rw [At, At, hphase]
  refine h.keeps ?_ (fun c hc => (hat c _).mpr hc) hhistory htable hreaper
  intro c hc
  rwa [Pending, hat, hstuck] at hc

/-- A courier goes on without a result to hold. -/
theorem moves (h : Remembered s) (hm : Moves s.tasks s'.tasks c p q)
    (hq : q.unwritten = true → p.unwritten = true) (hheld : p.holdsSent = false)
    (hhistory : s'.history = s.history) (htable : s'.table = s.table) : Remembered s' := by
  refine h.keeps (fun _ => pending_moves hm hq) ?_ hhistory htable hm.reaper.mpr
  intro c' hat
  by_cases hc : c' = c
  · rw [hc, at_before hm, hheld] at hat
    cases hat
  · exact (at_others hm hc).mpr hat

/-- The reaper lets go of a row of which it holds no `Sent` result. -/
theorem leaves (h : Remembered s) {id : Nat} (hl : Leaves s.tasks s'.tasks id p)
    (hheld : p.holdsSent = false) (hhistory : s'.history = s.history)
    (htable : s'.table = s.table) : Remembered s' := by
  refine h.keeps (fun _ => pending_leaves hl) ?_ hhistory htable hl.running.mpr
  rintro c ⟨q, hq, hsent⟩
  cases c with
  | dispatch j =>
    rw [← hl.dispatch] at hq
    exact ⟨q, hq, hsent⟩
  | reaper j =>
    rw [← Tasks.reaper_unique hl.before hq, hl.before, Option.some.injEq] at hq
    rw [← hq, hheld] at hsent
    cases hsent

/-- `send_sms` begins or ends for a message that is not confirmed, and does not
confirm it. -/
theorem entry (h : Remembered s) (e : Entry) (hm : Moves s.tasks s'.tasks c p q)
    (hp : p.unwritten = true) (hheld : p.holdsSent = false) (hid : e.id = c.id)
    (he : e ≠ .returned c.id .sent) (hhistory : s'.history = s.history ++ [e])
    (htable : s'.table = s.table) : Remembered s' := by
  have hnot := h.not_confirmed hm.before hp hheld
  have hconf : ∀ id, Confirmed s' id → Confirmed s id ∧ id ≠ c.id := by
    intro id hconf
    have hold : Confirmed s id := by
      apply confirmed_append hhistory _ hconf
      rintro rfl
      exact he (by rw [show id = c.id from hid])
    exact ⟨hold, fun hc => hnot (hc ▸ hold)⟩
  refine ⟨?_, ?_, ?_⟩
  · rw [hhistory]
    apply h.history.append
    rintro id hmem rfl
    exact hnot (hid ▸ hmem)
  · intro c' hc' hconf'
    obtain ⟨hold, hne⟩ := hconf c'.id hconf'
    have hcc : c' ≠ c := fun he => hne (he ▸ rfl)
    exact (at_others hm hcc).mpr (h.held c' (pending_moves hm (fun _ => hp) hc') hold)
  · intro id hid'
    obtain ⟨hold, hne⟩ := hconf id hid'
    rw [Apart.storedStatus_congr htable]
    rcases h.stored id hold with hstored | ⟨c', hc', hat⟩ | hnone
    · exact .inl hstored
    · have hcc : c' ≠ c := fun he => hne (by rw [← hc', he])
      exact .inr (.inl ⟨c', hc', (at_others hm hcc).mpr hat⟩)
    · exact .inr (.inr (hm.reaper.mpr hnone))

/-- A result that confirms the message: its courier holds it, and the rival has
nothing left to write. -/
theorem confirm (h : Remembered s) (ha : Apart s) {r : SendResult}
    (hp : s.tasks.phase c = some (.answered r)) (hr : r.status = .sent) :
    Remembered (s.resolve c r) := by
  have hm : Moves s.tasks (s.resolve c r).tasks c (.answered r) (.resolved r) := moves_move hp _
  have hholds : At (s.resolve c r) c Phase.holdsSent := by
    rw [at_after hm]
    simp [Phase.holdsSent, hr]
  have hbefore : ∀ c', Pending (s.resolve c r) c' → Pending s c' :=
    fun _ => pending_moves hm (fun _ => rfl)
  have hother : ∀ id, id ≠ c.id → Confirmed (s.resolve c r) id → Confirmed s id := by
    intro id hid
    apply confirmed_append rfl
    exact fun he => hid (Entry.returned.inj he).1.symm
  refine ⟨h.history.append (fun _ _ h => by cases h), ?_, ?_⟩
  · intro c' hc' hconf
    by_cases hid : c'.id = c.id
    · rcases Courier.eq_or_rival hid with rfl | rfl
      · exact hholds
      · exact absurd (hbefore _ hc') (ha.alone c (.inl ⟨_, hp, rfl⟩))
    · have hne : c' ≠ c := fun he => hid (he ▸ rfl)
      exact (at_others hm hne).mpr (h.held c' (hbefore _ hc') (hother _ hid hconf))
  · intro id hconf
    by_cases hid : id = c.id
    · exact .inr (.inl ⟨c, hid.symm, hholds⟩)
    · rcases h.stored id (hother id hid hconf) with hstored | ⟨c', hc', hat⟩ | hnone
      · exact .inl hstored
      · have hne : c' ≠ c := fun he => hid (by rw [← hc', he])
        exact .inr (.inl ⟨c', hc', (at_others hm hne).mpr hat⟩)
      · exact .inr (.inr (hm.reaper.mpr hnone))

/-- A message with a `Sent` result is written as such, and one that is written
otherwise is not confirmed. -/
theorem record (h : Remembered s) (hk : Known s) (ha : Apart s) {r : SendResult}
    {w : StatusWrite} {ok : Bool} (hp : s.tasks.phase c = some (.resolved r))
    (hw : statusWrite r = some w) (hc : SentWritten s (.recordStatus c ok)) :
    Remembered (s.recordStatus c r w ok) := by
  have hm : Moves s.tasks (s.recordStatus c r w ok).tasks c (.resolved r)
    (.recorded (dispatchOutcome r)) := moves_move hp _
  have hbefore : ∀ c', Pending (s.recordStatus c r w ok) c' → Pending s c' :=
    fun _ => pending_moves hm (fun h => by cases h)
  have hothers : ∀ id, id ≠ c.id →
      storedStatus (s.recordStatus c r w ok) id = storedStatus s id := by
    intro id hid
    cases ok with
    | true => simp [storedStatus, State.recordStatus, setOutboundStatus, Table.find_modify, hid]
    | false => rfl
  refine ⟨h.history, ?_, ?_⟩
  · intro c' hc' hconf
    have hne : c' ≠ c := by
      rintro rfl
      rcases hc' with hat | ⟨id, hid, rfl⟩
      · cases (at_after hm).mp hat
      · cases (ha.current id (hm.stuck ▸ hid)).symm.trans hp
    exact (at_others hm hne).mpr (h.held c' (hbefore _ hc') hconf)
  · intro id hconf
    by_cases hid : id = c.id
    · left
      rw [hid] at hconf ⊢
      by_cases hr : r.status = .sent
      · have hok : ok = true := hc ((at_of_phase hp).mpr (by simp [Phase.holdsSent, hr]))
        obtain ⟨m, hfind⟩ := Option.isSome_iff_exists.mp (hk.phase c _ hp)
        have hstatus : w.status = .sent := (statusWrite_outcome hw).1.trans hr
        have hwritten : storedStatus (s.recordStatus c r w ok) c.id = some w.status := by
          simp [storedStatus, State.recordStatus, setOutboundStatus, Table.find_modify, hfind, hok,
            StatusWrite.apply]
        rw [hwritten, hstatus]
        exact fun h => by cases h
      · exact absurd hconf (h.not_confirmed hp rfl (by simp [Phase.holdsSent, hr]))
    · rw [hothers id hid]
      rcases h.stored id hconf with hstored | ⟨c', hc', hat⟩ | hnone
      · exact .inl hstored
      · have hne : c' ≠ c := fun he => hid (by rw [← hc', he])
        exact .inr (.inl ⟨c', hc', (at_others hm hne).mpr hat⟩)
      · exact .inr (.inr (hm.reaper.mpr hnone))

/-- A row of a batch is not confirmed: whoever held the result would have yet to
write it. -/
theorem query (h : Remembered s) {cutoff : Nat} (ok : Bool) (hc : ReadsFree s (.queryQueued ok))
    (hr : s.tasks.reaper = some ⟨some cutoff, [], none⟩) :
    Remembered (s.setReaper (some ⟨none,
      if ok then queuedOutboundMessages s.table cutoff queuedReapBatch else [], none⟩)) := by
  rw [← batch_eq hr]
  have hidle : ∀ id, s.tasks.phase (.reaper id) = none := phase_reaper_of_none (by rw [hr]; rfl)
  have hphase : ∀ c, (s.setReaper (some ⟨none, if ok then s.batch else [],
    none⟩)).tasks.phase c = s.tasks.phase c := phase_between hr
  have hat : ∀ c f,
      At (s.setReaper (some ⟨none, if ok then s.batch else [], none⟩)) c f ↔ At s c f :=
    fun c f => by rw [At, At, hphase]
  have hread : ∀ m ∈ s.batch, ¬ Confirmed s m.id := by
    intro m hm hconf
    rcases h.stored m.id hconf with hne | ⟨c, hid, hheld⟩ | hnone
    · exact hne (storedStatus_of_batch hm)
    · obtain ⟨p, hp, hsent⟩ := hheld
      cases c with
      | reaper j => cases (hidle j).symm.trans hp
      | dispatch j =>
        rw [show j = m.id from hid] at hp
        exact hc m hm ⟨p, hp, Phase.unwritten_of_holdsSent hsent⟩
    · cases hr.symm.trans hnone
  refine ⟨h.history, ?_, ?_⟩
  · intro c hpending hconf
    rw [hat]
    rcases hpending with hnow | ⟨id, hid, rfl⟩
    · exact h.held c (.inl ((hat c _).mp hnow)) hconf
    · obtain ⟨m, hm, rfl⟩ := List.mem_map.mp hid
      cases ok with
      | true => exact absurd hconf (hread m hm)
      | false => cases hm
  · intro id hid
    simp only [hat]
    exact (h.stored id hid).imp_right (Or.imp_right (fun hnone => by cases hr.symm.trans hnone))

/-- The next row of a batch is no more confirmed than before. -/
theorem nextStuck (h : Remembered s) {cutoff : Option Nat} {m : OutboundMessage}
    {rest : List OutboundMessage} (hr : s.tasks.reaper = some ⟨cutoff, m :: rest, none⟩)
    (d : Delivery) :
    Remembered (s.setReaper (some ⟨cutoff, rest, some ⟨m.id, d⟩⟩)) := by
  have hidle : ∀ id, s.tasks.phase (.reaper id) = none := phase_reaper_of_none (by rw [hr]; rfl)
  refine h.keeps (fun _ => pending_nextStuck hr) ?_ rfl rfl
    (fun hnone => by cases hr.symm.trans hnone)
  rintro c ⟨p, hp, hsent⟩
  cases c with
  | dispatch j => exact ⟨p, hp, hsent⟩
  | reaper j => cases (hidle j).symm.trans hp

theorem prepareSend (h : Remembered s) (hk : Known s) (createdAt : Nat) (toNumber body : String)
    (partCount : Nat) (sync : Bool) :
    Remembered (s.prepareSend createdAt toNumber body partCount sync) := by
  -- Nothing confirmed is about the new message.
  have hne : ∀ {id : Nat}, Confirmed s id → id ≠ s.table.seq + 1 :=
    fun hid => ne_next (hk.history _ hid)
  have hat : ∀ c f, c.id ≠ s.table.seq + 1 →
      (At (s.prepareSend createdAt toNumber body partCount sync) c f ↔ At s c f) := by
    intro c f hc
    have hphase : (s.prepareSend createdAt toNumber body partCount sync).tasks.phase c
        = s.tasks.phase c := Tasks.phase_spawn_of_ne (fun e => hc (e ▸ rfl))
    rw [At, At, hphase]
  refine ⟨h.history, ?_, ?_⟩
  · intro c hpending hconf
    rw [hat c _ (hne hconf)]
    rw [Pending, hat c _ (hne hconf)] at hpending
    exact h.held c hpending hconf
  · intro id hid
    have hrow : storedStatus (s.prepareSend createdAt toNumber body partCount sync) id
        = storedStatus s id := by
      show ((createOutboundMessage s.table createdAt toNumber body .queued partCount).find id).map _
        = _
      rw [createOutboundMessage, Table.find_insert_of_ne _ _ _ (hne hid), storedStatus]
    rw [hrow]
    refine (h.stored id hid).imp_right (Or.imp_left ?_)
    rintro ⟨c, hc, hheld⟩
    exact ⟨c, hc, (hat c _ (by rw [hc]; exact hne hid)).mpr hheld⟩

theorem step {a : Act} (hk : Known s) (ha : Apart s) (h : Remembered s) (hc : SentRecorded s a)
    (hstep : Stepped s a s') : Remembered s' := by
  cases hstep with
  | clock now => exact h.quiet (fun _ => rfl) rfl rfl rfl id
  | prepareSend createdAt toNumber body partCount sync => exact h.prepareSend hk _ _ _ _ _
  | syncSend hp => exact h.moves ((moves_move hp _).setWaiter _ _) (fun _ => rfl) rfl rfl rfl
  | queueSend d hp => exact h.moves (moves_move hp _) (fun _ => rfl) rfl rfl rfl
  | submit d hp =>
    exact h.entry (.submitted _) (moves_move hp _) rfl rfl rfl (fun h => by cases h) rfl rfl
  | refused hp =>
    exact h.entry (.returned _ unavailable.status) (moves_move hp _) rfl rfl rfl
      (fun h => by cases h) rfl rfl
  | @wake c r hp =>
    by_cases hr : r.status = .sent
    · exact h.confirm ha hp hr
    · exact h.entry (.returned c.id r.status) (moves_move hp (.resolved r)) rfl rfl rfl
        (fun he => hr (Entry.returned.inj he).2) rfl rfl
  | manager _ hm => exact h.quiet (fun _ => rfl) rfl rfl rfl id
  | @answered a c m r _ hm =>
    by_cases hp : s.tasks.phase c = some .awaiting
    · exact h.moves (moves_deliver hp r) (fun _ => rfl) rfl rfl rfl
    · rw [Tasks.deliver, if_neg hp]
      exact h.quiet (fun _ => rfl) rfl rfl rfl id
  | recordStatus ok hp hw => exact h.record hk ha hp hw hc.1
  | deferDispatch hp hw =>
    refine h.moves (moves_move hp _) (fun h => by cases h) ?_ rfl rfl
    simp [Phase.holdsSent, statusWrite_eq_none hw]
  | deferReaper hp hw =>
    refine h.leaves (leaves_leaveCurrent hp) ?_ rfl rfl
    simp [Phase.holdsSent, statusWrite_eq_none hw]
  | recordMetric hp | publishDispatch hp =>
    exact h.moves (moves_move hp _) (fun h => by cases h) rfl rfl rfl
  | publishReaper hp => exact h.leaves (leaves_leaveCurrent hp) rfl rfl rfl
  | replyOutcome hp =>
    exact h.moves ((moves_move hp _).handOver _ _) (fun h => by cases h) rfl rfl rfl
  | respond parts hw | expire parts hw | dropWaiting hw =>
    exact h.quiet (Tasks.phase_setWaiter _ _ _) rfl rfl rfl id
  | @forget id hp =>
    refine h.keeps (fun _ => pending_forget) ?_ rfl rfl (fun hnone => hnone)
    intro c hat
    have hne : c ≠ .dispatch id := by
      rintro rfl
      cases (at_of_phase hp).mp hat
    rwa [At, Tasks.phase_forget_of_ne hne]
  | tick hr =>
    have hstuck : s.tasks.stuck = [] := by rw [Tasks.stuck, hr]; rfl
    exact h.quiet (phase_between hr) hstuck.symm rfl rfl (fun hnone => by cases hr.symm.trans hnone)
  | queryQueued ok hr => exact h.query ok hc.2 hr
  | nextStuck hr => exact h.nextStuck hr _
  | abort =>
    refine ⟨h.history, ?_, fun _ _ => .inr (.inr rfl)⟩
    intro c hpending hconf
    cases c with
    | dispatch j => exact h.held (.dispatch j) (pending_abort hpending) hconf
    | reaper j =>
      rcases hpending with ⟨p, hp, _⟩ | ⟨id, hid, _⟩
      · cases hp
      · cases hid

theorem invariant :
    service.Inductive SentRecorded (fun s => (Known s ∧ Apart s) ∧ Remembered s) := by
  apply (Apart.invariant.restrict (fun _ _ hc => hc.2)).and
  · intro s hs
    have hconf : ∀ id, ¬ Confirmed s id := by
      intro id hid
      rw [Confirmed, hs.history] at hid
      cases hid
    refine ⟨?_, fun c _ hid => absurd hid (hconf _), fun id hid => absurd hid (hconf id)⟩
    rw [hs.history]
    exact List.Pairwise.nil
  · exact fun s a t hs h hc ht => h.step hs.1 hs.2 hc (stepped_of_step ht)

end Remembered

/-- Where every `Sent` result is recorded and the reaper reads no row whose dispatch
has yet to write, no request follows a confirmed send. -/
theorem no_request_after_sent {s : State} (hs : service.Reach SentRecorded s) :
    NoResend s.history :=
  (Remembered.invariant.reach hs).2.history

theorem no_request_after_sent_reapedLater : NoResend (stateAfter reapedLater).history := by
  have hmeets : service.Meets SentRecorded fresh reapedLater := by
    have hbefore : service.Meets SentRecorded fresh deferred := by
      apply Machine.meets_of_forall
      simp [deferred, handedOver, SentRecorded, SentWritten, ReadsFree]
    refine hbefore.append (t := stateAfter deferred) rfl ⟨⟨trivial, readsFree_deferred⟩, ?_⟩
    intro t _
    apply Machine.meets_of_forall
    simp [SentRecorded, SentWritten, ReadsFree]
  exact no_request_after_sent (Machine.reach_of_meets starting_fresh hmeets rfl)

/-- A `Sent` result whose status write fails. -/
def lostWrite : List Act :=
  [.prepareSend 0 "+15551230000" "hello" 1 false, .spawnDispatch 1, .submit (.dispatch 1), .recv,
    .reply ⟨.sent, some "42", none, none⟩, .wake (.dispatch 1), .recordStatus (.dispatch 1) false,
    .clock (301 * nanosPerSec), .tick, .queryQueued true, .nextStuck, .submit (.reaper 1)]

theorem sent_again : ¬ service.Always Machine.anything (fun s => NoResend s.history) := by
  intro h
  have hrun : ((service.exec fresh lostWrite).map (fun s => s.history))
      = some [.submitted 1, .returned 1 .sent, .submitted 1] := by
    decide
  obtain ⟨s, hs, hhistory⟩ := Option.map_eq_some_iff.mp hrun
  have hno : NoResend s.history := h s (Machine.reach_of_exec starting_fresh hs)
  rw [hhistory] at hno
  have hlater := (List.pairwise_cons.mp (List.pairwise_cons.mp hno).2).1 _ List.mem_cons_self
  exact hlater 1 rfl rfl

end Outbound
end GreenRelay
