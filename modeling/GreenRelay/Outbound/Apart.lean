/-
The two couriers of a message, kept apart by the reads of the reaper.

What the reaper knows of a row it knows from its batch, which it reads once a cycle
and then works off.  If a dispatch of a row in the batch has yet to write its status
when the batch is read, the two can both submit the message and both write.  If it
has written, or never will, the row is the reaper's alone: nothing makes a dispatch
begin again.  So one look at the moments in which batches are read keeps the
couriers of every message apart for good, and a row is `queued` for as long as one
of them has yet to write it (`Apart`).
-/
import GreenRelay.Outbound.Steps

namespace GreenRelay
namespace Outbound

open Modem (SendResult)

/-- The courier is in a phase with the property. -/
def At (s : State) (c : Courier) (f : Phase → Bool) : Prop :=
  ∃ p, s.tasks.phase c = some p ∧ f p = true

def storedStatus (s : State) (id : Nat) : Option MessageStatus := (s.table.find id).map (·.status)

/-- The status write of the delivery is still to come. -/
def Phase.unwritten : Phase → Bool
  | .persisted | .submitting | .awaiting | .answered _ | .resolved _ => true
  | _ => false

/-- The batch that the reaper would read now. -/
def State.batch (s : State) : List OutboundMessage :=
  match s.tasks.reaper.bind (·.cutoff) with
  | some cutoff => queuedOutboundMessages s.table cutoff queuedReapBatch
  | none => []

/-- Where the reaper reads its batch, the dispatch of no row in it has yet to write. -/
def ReadsFree (s : State) : Act → Prop
  | .queryQueued _ => ∀ m ∈ s.batch, ¬ At s (.dispatch m.id) Phase.unwritten
  | _ => True

/-- The courier has yet to write the status of its message. -/
def Pending (s : State) (c : Courier) : Prop :=
  At s c Phase.unwritten ∨ ∃ id ∈ s.tasks.stuck, c = .reaper id

/-- While a courier has yet to write, the row is `queued` and its rival does not
write. -/
structure Apart (s : State) : Prop where
  queued : ∀ c, Pending s c → storedStatus s c.id = some .queued
  alone : ∀ c, Pending s c → ¬ Pending s c.rival
  batch : s.tasks.stuck.Nodup
  current : ∀ id ∈ s.tasks.stuck, s.tasks.phase (.reaper id) = none

section AfterMove

variable {s s' : State} {c c' : Courier} {p q : Phase} {f : Phase → Bool}

theorem at_after (hm : Moves s.tasks s'.tasks c p q) : At s' c f ↔ f q = true := by
  rw [At, hm.after]
  simp

theorem at_before (hm : Moves s.tasks s'.tasks c p q) : At s c f ↔ f p = true := by
  rw [At, hm.before]
  simp

theorem at_others (hm : Moves s.tasks s'.tasks c p q) (h : c' ≠ c) : At s' c' f ↔ At s c' f := by
  rw [At, At, hm.others c' h]

theorem at_of_phase (h : s.tasks.phase c = some p) : At s c f ↔ f p = true := by
  rw [At, h]
  simp

theorem not_at_of_none (h : s.tasks.phase c = none) : ¬ At s c f := by
  rintro ⟨p, hp, _⟩
  cases h.symm.trans hp

/-- A courier takes up no message by going on. -/
theorem pending_moves (hm : Moves s.tasks s'.tasks c p q)
    (hq : q.unwritten = true → p.unwritten = true) (h : Pending s' c') : Pending s c' := by
  rcases h with hat | ⟨id, hid, hc⟩
  · left
    by_cases hc : c' = c
    · rw [hc] at hat ⊢
      exact (at_before hm).mpr (hq ((at_after hm).mp hat))
    · exact (at_others hm hc).mp hat
  · exact .inr ⟨id, hm.stuck ▸ hid, hc⟩

theorem pending_leaves {id : Nat} (hl : Leaves s.tasks s'.tasks id p) (h : Pending s' c) :
    Pending s c := by
  rcases h with ⟨q, hq, hunwritten⟩ | ⟨j, hj, hc⟩
  · cases c with
    | dispatch j =>
      rw [hl.dispatch] at hq
      exact .inl ⟨q, hq, hunwritten⟩
    | reaper j =>
      rw [hl.reaper] at hq
      cases hq
  · exact .inr ⟨j, hl.stuck ▸ hj, hc⟩

theorem pending_forget {id : Nat} (h : Pending { s with tasks := s.tasks.forget id } c) :
    Pending s c := by
  rcases h with ⟨p, hp, hunwritten⟩ | hstuck
  · exact .inl ⟨p, Tasks.phase_of_forget hp, hunwritten⟩
  · exact .inr hstuck

theorem pending_abort (h : Pending (s.setReaper none) c) : Pending s c := by
  rcases h with ⟨p, hp, hunwritten⟩ | ⟨id, hid, _⟩
  · cases c with
    | dispatch j => exact .inl ⟨p, hp, hunwritten⟩
    | reaper j => cases hp
  · cases hid

/-- The next row leaves the batch and is pending as it was. -/
theorem pending_nextStuck {cutoff : Option Nat} {m : OutboundMessage} {rest : List OutboundMessage}
    {d : Delivery} (hr : s.tasks.reaper = some ⟨cutoff, m :: rest, none⟩)
    (h : Pending (s.setReaper (some ⟨cutoff, rest, some ⟨m.id, d⟩⟩)) c) : Pending s c := by
  have hstuck : s.tasks.stuck = m.id :: rest.map (·.id) := by rw [Tasks.stuck, hr]; rfl
  rcases h with ⟨p, hp, hunwritten⟩ | ⟨id, hid, rfl⟩
  · cases c with
    | dispatch j => exact .inl ⟨p, hp, hunwritten⟩
    | reaper j =>
      rw [phase_setReaper_current] at hp
      by_cases hj : m.id = j
      · exact .inr ⟨j, by rw [hstuck, ← hj]; exact List.mem_cons_self, rfl⟩
      · rw [if_neg hj] at hp
        cases hp
  · exact .inr ⟨id, by rw [hstuck]; exact List.mem_cons_of_mem _ hid, rfl⟩

end AfterMove

/-! ## Batches -/

theorem stuck_queryQueued_nodup (t : OutboundMessages) (olderThan limit : Nat) :
    ((queuedOutboundMessages t olderThan limit).map (·.id)).Nodup := by
  apply ((List.take_sublist limit _).map OutboundMessage.id).nodup
  rw [((List.perm_insertionSort _ _).map OutboundMessage.id).nodup_iff]
  exact (List.filter_sublist.map OutboundMessage.id).nodup t.distinct

theorem batch_eq {s : State} {cutoff : Nat} {todo : List OutboundMessage}
    (hr : s.tasks.reaper = some ⟨some cutoff, todo, none⟩) :
    s.batch = queuedOutboundMessages s.table cutoff queuedReapBatch := by
  rw [State.batch, hr]
  rfl

/-- A row of the batch is `queued`. -/
theorem storedStatus_of_batch {s : State} {m : OutboundMessage} (h : m ∈ s.batch) :
    storedStatus s m.id = some .queued := by
  rw [State.batch] at h
  split at h
  · have hrow := mem_queuedOutboundMessages h
    rw [storedStatus, hrow.1, Option.map_some, hrow.2.1]
  · cases h

/-! ## Steps -/

namespace Apart

variable {s s' : State} {c : Courier} {p q : Phase}

/-- Where nobody takes up a message and the rows that are pending stay as they are,
the couriers stay apart. -/
theorem shrinks (h : Apart s) (hpending : ∀ c, Pending s' c → Pending s c)
    (hstatus : ∀ c, Pending s' c → storedStatus s' c.id = storedStatus s c.id)
    (hbatch : s'.tasks.stuck.Nodup)
    (hcurrent : ∀ id ∈ s'.tasks.stuck, s'.tasks.phase (.reaper id) = none) : Apart s' where
  queued c hc := by
    rw [hstatus c hc]
    exact h.queued c (hpending c hc)
  alone c hc hrival := h.alone c (hpending c hc) (hpending c.rival hrival)
  batch := hbatch
  current := hcurrent

theorem storedStatus_congr (htable : s'.table = s.table) (id : Nat) :
    storedStatus s' id = storedStatus s id := by
  rw [storedStatus, storedStatus, htable]

/-- The reaper is not at a row of its batch when a courier goes on. -/
theorem current_moves (h : Apart s) (hm : Moves s.tasks s'.tasks c p q) :
    ∀ id ∈ s'.tasks.stuck, s'.tasks.phase (.reaper id) = none := by
  intro id hid
  rw [hm.stuck] at hid
  have hne : .reaper id ≠ c := by
    intro he
    have hnone := h.current id hid
    rw [he, hm.before] at hnone
    cases hnone
  rw [hm.others _ hne]
  exact h.current id hid

theorem moves (h : Apart s) (hm : Moves s.tasks s'.tasks c p q)
    (hq : q.unwritten = true → p.unwritten = true) (htable : s'.table = s.table) : Apart s' :=
  h.shrinks (fun _ => pending_moves hm hq) (fun c _ => storedStatus_congr htable c.id)
    (hm.stuck ▸ h.batch) (h.current_moves hm)

theorem leaves (h : Apart s) {id : Nat} (hl : Leaves s.tasks s'.tasks id p)
    (htable : s'.table = s.table) : Apart s' :=
  h.shrinks (fun _ => pending_leaves hl) (fun c _ => storedStatus_congr htable c.id)
    (hl.stuck ▸ h.batch) (fun id _ => hl.reaper id)

theorem quiet (h : Apart s) (hphase : ∀ c, s'.tasks.phase c = s.tasks.phase c)
    (hstuck : s'.tasks.stuck = s.tasks.stuck) (htable : s'.table = s.table) : Apart s' := by
  refine h.shrinks ?_ (fun c _ => storedStatus_congr htable c.id) (hstuck ▸ h.batch) ?_
  · intro c hc
    rwa [Pending, At, hphase, hstuck] at hc
  · intro id hid
    rw [hphase]
    exact h.current id (hstuck ▸ hid)

/-- A status write is its courier's own, so no other pending row changes. -/
theorem record (h : Apart s) {r : SendResult} {w : StatusWrite} (ok : Bool)
    (hp : s.tasks.phase c = some (.resolved r)) : Apart (s.recordStatus c r w ok) := by
  have hm : Moves s.tasks (s.recordStatus c r w ok).tasks c (.resolved r)
    (.recorded (dispatchOutcome r)) := moves_move hp _
  have hbefore : ∀ c', Pending (s.recordStatus c r w ok) c' → Pending s c' :=
    fun _ => pending_moves hm (fun h => by cases h)
  refine h.shrinks hbefore ?_ (hm.stuck ▸ h.batch) (h.current_moves hm)
  intro c' hc'
  have hself : Pending s c := .inl ⟨_, hp, rfl⟩
  have hne : c'.id ≠ c.id := by
    intro hid
    rcases Courier.eq_or_rival hid with rfl | rfl
    · rcases hc' with hat | ⟨id, hid, rfl⟩
      · cases (at_after hm).mp hat
      · cases (h.current id (hm.stuck ▸ hid)).symm.trans hp
    · exact h.alone c hself (hbefore _ hc')
  cases ok with
  | true => simp [storedStatus, State.recordStatus, setOutboundStatus, Table.find_modify, hne]
  | false => rfl

/-- The batch takes up `queued` rows that no dispatch is pending on. -/
theorem query (h : Apart s) {cutoff : Nat} (ok : Bool) (hc : ReadsFree s (.queryQueued ok))
    (hr : s.tasks.reaper = some ⟨some cutoff, [], none⟩) :
    Apart (s.setReaper (some ⟨none,
      if ok then queuedOutboundMessages s.table cutoff queuedReapBatch else [], none⟩)) := by
  have hbatch := batch_eq hr
  have hidle : ∀ id, s.tasks.phase (.reaper id) = none := phase_reaper_of_none (by rw [hr]; rfl)
  rw [← hbatch]
  have hphase : ∀ c, (s.setReaper (some ⟨none, if ok then s.batch else [],
    none⟩)).tasks.phase c = s.tasks.phase c := phase_between hr
  -- A pending courier was pending before, or its row has just been read.
  have hcases : ∀ c, Pending (s.setReaper (some ⟨none, if ok then s.batch else [], none⟩)) c →
      Pending s c ∨ ∃ m ∈ s.batch, c = .reaper m.id := by
    intro c hpending
    rcases hpending with ⟨p, hp, hunwritten⟩ | ⟨id, hid, hcid⟩
    · rw [hphase] at hp
      exact .inl (.inl ⟨p, hp, hunwritten⟩)
    · obtain ⟨m, hm, rfl⟩ := List.mem_map.mp hid
      cases ok with
      | true => exact .inr ⟨m, hm, hcid⟩
      | false => cases hm
  have hnone : s.tasks.stuck = [] := by rw [Tasks.stuck, hr]; rfl
  have hreaper : ∀ id, ¬ Pending s (.reaper id) := by
    rintro id (hat | ⟨j, hj, _⟩)
    · exact not_at_of_none (hidle id) hat
    · rw [hnone] at hj
      cases hj
  have hdispatch : ∀ m ∈ s.batch, ¬ Pending s (.dispatch m.id) := by
    rintro m hm (hat | ⟨j, _, hj⟩)
    · exact hc m hm hat
    · cases hj
  refine ⟨?_, ?_, ?_, fun id _ => (hphase _).trans (hidle id)⟩
  · intro c hpending
    rcases hcases c hpending with hold | ⟨m, hm, rfl⟩
    · exact h.queued c hold
    · have hqueued : storedStatus s m.id = some .queued := storedStatus_of_batch hm
      exact hqueued
  · intro c hpending hrival
    rcases hcases c hpending with hold | ⟨m, hm, rfl⟩
    · rcases hcases _ hrival with hold' | ⟨m, hm, he⟩
      · exact h.alone c hold hold'
      · cases c with
        | dispatch j =>
          cases he
          exact hdispatch m hm hold
        | reaper j => cases he
    · rcases hcases _ hrival with hold' | ⟨m', _, he⟩
      · exact hdispatch m hm hold'
      · cases he
  · show (List.map _ (if ok then s.batch else [])).Nodup
    cases ok with
    | true =>
      rw [hbatch]
      exact stuck_queryQueued_nodup _ _ _
    | false => exact List.nodup_nil

theorem nextStuck (h : Apart s) {cutoff : Option Nat} {m : OutboundMessage}
    {rest : List OutboundMessage} (hr : s.tasks.reaper = some ⟨cutoff, m :: rest, none⟩)
    (d : Delivery) :
    Apart (s.setReaper (some ⟨cutoff, rest, some ⟨m.id, d⟩⟩)) := by
  have hstuck : s.tasks.stuck = m.id :: rest.map (·.id) := by rw [Tasks.stuck, hr]; rfl
  have hnodup := h.batch
  rw [hstuck, List.nodup_cons] at hnodup
  refine h.shrinks (fun _ => pending_nextStuck hr) (fun _ _ => rfl) hnodup.2 ?_
  intro id hid
  rw [phase_setReaper_current, if_neg]
  rintro rfl
  exact hnodup.1 hid

/-- The new row is pending by its dispatch alone. -/
theorem prepareSend (h : Apart s) (hk : Known s) (createdAt : Nat) (toNumber body : String)
    (partCount : Nat) (sync : Bool) :
    Apart (s.prepareSend createdAt toNumber body partCount sync) := by
  have hphase : ∀ c, c ≠ .dispatch (s.table.seq + 1) →
      (s.prepareSend createdAt toNumber body partCount sync).tasks.phase c = s.tasks.phase c :=
    fun c hc => Tasks.phase_spawn_of_ne hc
  have hbefore : ∀ c, c ≠ .dispatch (s.table.seq + 1) →
      Pending (s.prepareSend createdAt toNumber body partCount sync) c → Pending s c := by
    intro c hc hpending
    rwa [Pending, At, hphase c hc] at hpending
  have hknown : ∀ c, Pending s c → c.id ≠ s.table.seq + 1 := by
    rintro c (⟨p, hp, _⟩ | ⟨id, hid, rfl⟩)
    · exact ne_next (hk.phase c p hp)
    · exact ne_next (hk.stuck id hid)
  refine ⟨?_, ?_, h.batch, ?_⟩
  · intro c hpending
    show Option.map _
      ((createOutboundMessage s.table createdAt toNumber body .queued partCount).find c.id) = _
    by_cases hc : c = .dispatch (s.table.seq + 1)
    · rw [hc, createOutboundMessage, Courier.id, Table.find_insert_next]
      rfl
    · have hs := hbefore c hc hpending
      rw [createOutboundMessage, Table.find_insert_of_ne _ _ _ (hknown c hs)]
      exact h.queued c hs
  · intro c hpending hrival
    by_cases hc : c = .dispatch (s.table.seq + 1)
    · subst hc
      exact hknown _ (hbefore _ (fun he => by cases he) hrival) rfl
    · have hs := hbefore c hc hpending
      have hc' : c.rival ≠ .dispatch (s.table.seq + 1) := by
        intro he
        apply hknown c hs
        rw [← Courier.rival_id, he]
        rfl
      exact h.alone c hs (hbefore _ hc' hrival)
  · intro id hid
    rw [hphase _ (fun he => by cases he)]
    exact h.current id hid

theorem step {a : Act} (hk : Known s) (h : Apart s) (hc : ReadsFree s a)
    (hstep : Stepped s a s') : Apart s' := by
  cases hstep with
  | clock now => exact h.quiet (fun _ => rfl) rfl rfl
  | prepareSend createdAt toNumber body partCount sync => exact h.prepareSend hk _ _ _ _ _
  | syncSend hp => exact h.moves ((moves_move hp _).setWaiter _ _) (fun _ => rfl) rfl
  | queueSend d hp => exact h.moves (moves_move hp _) (fun _ => rfl) rfl
  | submit d hp => exact h.moves (moves_move hp _) (fun _ => rfl) rfl
  | refused hp | wake hp => exact h.moves (moves_move hp _) (fun _ => rfl) rfl
  | manager _ hm => exact h.quiet (fun _ => rfl) rfl rfl
  | @answered a c m r _ hm =>
    by_cases hp : s.tasks.phase c = some .awaiting
    · exact h.moves (moves_deliver hp r) (fun _ => rfl) rfl
    · rw [Tasks.deliver, if_neg hp]
      exact h.quiet (fun _ => rfl) rfl rfl
  | recordStatus ok hp hw => exact h.record ok hp
  | deferDispatch hp hw => exact h.moves (moves_move hp _) (fun h => by cases h) rfl
  | deferReaper hp hw => exact h.leaves (leaves_leaveCurrent hp) rfl
  | recordMetric hp | publishDispatch hp =>
    exact h.moves (moves_move hp _) (fun h => by cases h) rfl
  | publishReaper hp => exact h.leaves (leaves_leaveCurrent hp) rfl
  | replyOutcome hp =>
    exact h.moves ((moves_move hp _).handOver _ _) (fun h => by cases h) rfl
  | respond parts hw | expire parts hw | dropWaiting hw =>
    exact h.quiet (Tasks.phase_setWaiter _ _ _) rfl rfl
  | forget hp => exact h.shrinks (fun _ => pending_forget) (fun _ _ => rfl) h.batch h.current
  | tick hr =>
    have hstuck : s.tasks.stuck = [] := by rw [Tasks.stuck, hr]; rfl
    exact h.quiet (phase_between hr) hstuck.symm rfl
  | queryQueued ok hr => exact h.query ok hc hr
  | nextStuck hr => exact h.nextStuck hr _
  | abort =>
    exact h.shrinks (fun _ => pending_abort) (fun _ _ => rfl) List.nodup_nil (fun _ _ => rfl)

theorem invariant : service.Inductive ReadsFree (fun s => Known s ∧ Apart s) := by
  apply (Known.invariant ReadsFree).and
  · intro s hs
    have hstuck : s.tasks.stuck = [] := by rw [hs.tasks]; rfl
    have hphase : ∀ c, s.tasks.phase c = none := by
      intro c
      rw [hs.tasks]
      cases c <;> rfl
    have hnobody : ∀ c, ¬ Pending s c := by
      rintro c (hat | ⟨id, hid, _⟩)
      · exact not_at_of_none (hphase c) hat
      · rw [hstuck] at hid
        cases hid
    exact ⟨fun c hc => absurd hc (hnobody c), fun c hc => absurd hc (hnobody c),
      hstuck ▸ List.nodup_nil, fun id _ => hphase _⟩
  · exact fun s a t hk h hc ht => h.step hk hc (stepped_of_step ht)

end Apart

/-- The dispatch of the row that is read has ended when the reaper reads it. -/
theorem readsFree_deferred : ReadsFree (stateAfter deferred) (.queryQueued true) := by
  intro m hm hat
  have hids : (stateAfter deferred).batch.map (·.id) = [1] := by decide
  have hid : m.id = 1 := by
    rw [← List.mem_singleton, ← hids]
    exact List.mem_map_of_mem hm
  have hphase : (stateAfter deferred).tasks.phase (.dispatch 1) = some .finished := rfl
  rw [hid, at_of_phase hphase] at hat
  cases hat

end Outbound
end GreenRelay
