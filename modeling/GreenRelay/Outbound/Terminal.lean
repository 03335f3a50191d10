/-
A terminal status is final and is what was announced.

The event and the reply of a dispatch are made from the result of the modem, not
from the row.  That the row says the same is up to the write before them, an
unconditional `UPDATE` that may fail or hit a row which the other courier has
settled already.  So the writes have to succeed, and the reaper must not read a row
whose dispatch has yet to write: then the couriers of a message are `Apart`, every
write finds its row still `queued`, and everything that is said of a message after
that is said by the courier that wrote it.

`Truthful` is the invariant.  It follows an outcome from the write to the event,
to the handler that waits for it and to the response.  `event_without_row` is a
run in which the write fails.
-/
import GreenRelay.Outbound.Apart

namespace GreenRelay
namespace Outbound

open Modem (SendResult)

/-- The stored row has the terminal status and the reference of the outcome. -/
def Stored (s : State) (id : Nat) (o : DispatchOutcome) : Prop :=
  o.status ≠ .queued ∧
    ∃ m, s.table.find id = some m ∧ m.status = o.status ∧ m.msgReference = o.reference

/-- Rows stay, and those with a terminal status stay as they are. -/
def Final (s t : State) : Prop :=
  ∀ id m, s.table.find id = some m → ∃ m', t.table.find id = some m' ∧
    (m.status ≠ .queued → m'.status = m.status ∧ m'.msgReference = m.msgReference ∧
      m'.errorCode = m.errorCode)

/-- What has been announced of messages is what their rows hold. -/
def Announced (s t : State) : Prop :=
  (∀ e ∈ s.events, Stored t e.id ⟨e.status, e.reference⟩) ∧
    ∀ b, .ok b ∈ s.responses → Stored t b.id ⟨b.status, b.reference⟩

/-- Terminal statuses are final from the moment they are stored, everything that
is published or answered is stored from then on, and a message has at most one
event. -/
def TerminalIsFinal (C : State → Act → Prop) : Prop :=
  ∀ s t, service.Reach C s → service.Run C s t →
    (Final s t ∧ Announced s t) ∧ ∀ id, s.events.countP (fun e => e.id = id) ≤ 1

/-- The write of a terminal result succeeds. -/
def StatusWritten (_ : State) : Act → Prop
  | .recordStatus _ ok => ok = true
  | _ => True

/-- Every terminal result is recorded, and no batch is read with a row whose dispatch
has yet to write. -/
def TerminalRecorded (s : State) (a : Act) : Prop := StatusWritten s a ∧ ReadsFree s a

/-- The write succeeds and finds the row still `queued`. -/
def WritesOnce (s : State) : Act → Prop
  | .recordStatus c ok => ok = true ∧ storedStatus s c.id = some .queued
  | _ => True

/-- A courier that writes has yet to write, so its row is `queued`. -/
theorem writesOnce_of_apart {s s' : State} {a : Act} (h : Apart s) (hc : StatusWritten s a)
    (hs : step s a = some s') : WritesOnce s a := by
  cases stepped_of_step hs with
  | recordStatus ok hp hw => exact ⟨hc, h.queued _ (.inl ⟨_, hp, rfl⟩)⟩
  | manager hact hm => rcases hact with rfl | rfl <;> exact trivial
  | @answered a c m r hact hm => cases a <;> first | exact trivial | cases hact
  | _ => exact trivial

/-! ## The invariant -/

/-- The outcome that a courier goes by after the write. -/
def Phase.outcome : Phase → Option DispatchOutcome
  | .recorded o | .counted o | .published o => some o
  | _ => none

def Phase.announcing : Phase → Bool
  | .recorded _ | .counted _ => true
  | _ => false

theorem Phase.outcome_of_announcing {p : Phase} (h : p.announcing = true) :
    ∃ o, p.outcome = some o := by
  cases p <;> simp_all [Phase.announcing, Phase.outcome]

structure Truthful (s : State) : Prop where
  outcome : ∀ c p o, s.tasks.phase c = some p → p.outcome = some o → o.status ≠ .queued →
    Stored s c.id o
  announcing : ∀ c p, s.tasks.phase c = some p → p.announcing = true →
    (∀ o, p.outcome = some o → o.status ≠ .queued) ∧ c.id ∉ s.events.map (·.id) ∧
      ∀ p', s.tasks.phase c.rival = some p' → p'.announcing = false
  waiter : ∀ id o, s.tasks.waiter id = .received o → o.status ≠ .queued → Stored s id o
  events : ∀ e ∈ s.events, Stored s e.id ⟨e.status, e.reference⟩
  once : (s.events.map (·.id)).Nodup
  responses : ∀ b, .ok b ∈ s.responses → Stored s b.id ⟨b.status, b.reference⟩

/-! ## Waiters -/

namespace Tasks

variable {t : Tasks} {id j : Nat} {o o' : DispatchOutcome}

theorem waiter_setDispatch (t : Tasks) (id : Nat) (f : Dispatch → Dispatch) (j : Nat) :
    (t.setDispatch id f).waiter j =
      if j = id then ((t.dispatches id).map (fun d => (f d).waiter)).getD .absent
      else t.waiter j := by
  by_cases h : j = id
  · subst h
    cases hd : t.dispatches j <;> simp [waiter, setDispatch, hd]
  · simp [waiter, setDispatch, h]

/-- A handler that begins or ends its wait has received nothing. -/
theorem received_setWaiter {w : Waiter} (h : (t.setWaiter id w).waiter j = .received o)
    (hw : ∀ o, w ≠ .received o) : t.waiter j = .received o := by
  rw [setWaiter, waiter_setDispatch] at h
  by_cases hj : j = id
  · rw [if_pos hj] at h
    cases hd : t.dispatches id with
    | none => rw [hd] at h; cases h
    | some d => rw [hd] at h; exact absurd h (hw o)
  · rwa [if_neg hj] at h

theorem received_handOver (h : (t.handOver id o).waiter j = .received o') :
    t.waiter j = .received o' ∨ j = id ∧ o' = o := by
  rw [handOver, waiter_setDispatch] at h
  by_cases hj : j = id
  · subst hj
    rw [if_pos rfl] at h
    cases hd : t.dispatches j with
    | none => rw [hd] at h; cases h
    | some d =>
      rw [hd, Option.map_some, Option.getD_some] at h
      by_cases hw : d.waiter = .waiting
      · rw [if_pos hw] at h
        exact .inr ⟨rfl, (Waiter.received.inj h).symm⟩
      · rw [if_neg hw] at h
        left
        rw [waiter, hd]
        exact h
  · rw [if_neg hj] at h
    exact .inl h

theorem received_spawn {d : Dispatch} (hd : d.waiter = .absent)
    (h : (t.spawn id d).waiter j = .received o) : t.waiter j = .received o := by
  by_cases hj : j = id
  · simp [waiter, spawn, hj, hd] at h
  · simpa [waiter, spawn, hj] using h

end Tasks

/-! ## Steps -/

/-- Whatever is said in the phase, the courier has said before. -/
def Backed (t : Tasks) (c : Courier) (q : Phase) : Prop :=
  (∀ o, q.outcome = some o → o.status ≠ .queued → ∃ p, t.phase c = some p ∧ p.outcome = some o) ∧
    (q.announcing = true → ∃ p, t.phase c = some p ∧ p.announcing = true ∧ p.outcome = q.outcome)

theorem backed_same {t : Tasks} {c : Courier} {q : Phase} (h : t.phase c = some q) :
    Backed t c q :=
  ⟨fun _ ho _ => ⟨q, h, ho⟩, fun ha => ⟨q, h, ha, rfl⟩⟩

theorem backed_silent {t : Tasks} {c : Courier} {q : Phase} (h : q.outcome = none) :
    Backed t c q := by
  refine ⟨fun o ho => (by cases h.symm.trans ho), fun ha => ?_⟩
  obtain ⟨o, ho⟩ := Phase.outcome_of_announcing ha
  cases h.symm.trans ho

/-- A move to a phase with no other outcome than the one before. -/
theorem backed_moves {t t' : Tasks} {c : Courier} {p q : Phase} (hm : Moves t t' c p q)
    (hq : Backed t c q) (c' : Courier) (q' : Phase) (hq' : t'.phase c' = some q') :
    Backed t c' q' := by
  by_cases hc : c' = c
  · rw [hc, hm.after, Option.some.injEq] at hq'
    rw [hc, ← hq']
    exact hq
  · rw [hm.others c' hc] at hq'
    exact backed_same hq'

theorem backed_leaves {t t' : Tasks} {id : Nat} {p : Phase} (hl : Leaves t t' id p) (c : Courier)
    (q : Phase) (hq : t'.phase c = some q) : Backed t c q := by
  cases c with
  | dispatch j =>
    rw [hl.dispatch] at hq
    exact backed_same hq
  | reaper j =>
    rw [hl.reaper] at hq
    cases hq

namespace Truthful

variable {s s' : State} {c : Courier} {p q : Phase} {o : DispatchOutcome}

/-- Tasks, handlers and responses that say no more than what is stored. -/
theorem passes (h : Truthful s) (hstored : ∀ id o, Stored s id o → Stored s' id o)
    (hevents : s'.events = s.events)
    (hphase : ∀ c q, s'.tasks.phase c = some q → Backed s.tasks c q)
    (hwaiter : ∀ id o, s'.tasks.waiter id = .received o → o.status ≠ .queued →
      s.tasks.waiter id = .received o ∨ Stored s id o)
    (hresponses : ∀ b, .ok b ∈ s'.responses → .ok b ∈ s.responses ∨
      Stored s b.id ⟨b.status, b.reference⟩) : Truthful s' where
  outcome c q o hq ho hne := by
    obtain ⟨p, hp, hpo⟩ := (hphase c q hq).1 o ho hne
    exact hstored _ _ (h.outcome c p o hp hpo hne)
  announcing c q hq ha := by
    obtain ⟨p, hp, hpa, hpo⟩ := (hphase c q hq).2 ha
    obtain ⟨hterminal, hid, hrival⟩ := h.announcing c p hp hpa
    refine ⟨hpo ▸ hterminal, hevents ▸ hid, ?_⟩
    intro q' hq'
    by_contra hne
    obtain ⟨p', hp', hpa', _⟩ := (hphase c.rival q' hq').2 (Bool.not_eq_false _ ▸ hne)
    cases (hrival p' hp').symm.trans hpa'
  waiter id o hw hne := by
    rcases hwaiter id o hw hne with hw | hs
    · exact hstored _ _ (h.waiter id o hw hne)
    · exact hstored _ _ hs
  events e he := hstored _ _ (h.events e (hevents ▸ he))
  once := hevents ▸ h.once
  responses b hb := by
    rcases hresponses b hb with hb | hs
    · exact hstored _ _ (h.responses b hb)
    · exact hstored _ _ hs

/-- The event of the outcome that the courier has just written. -/
theorem publish (h : Truthful s) (hp : s.tasks.phase c = some p) (ha : p.announcing = true)
    (ho : p.outcome = some o)
    (hself : ∀ q, s'.tasks.phase c = some q → q.outcome = some o ∧ q.announcing = false)
    (hothers : ∀ c' q, c' ≠ c → s'.tasks.phase c' = some q → s.tasks.phase c' = some q)
    (hwaiter : ∀ id, s'.tasks.waiter id = s.tasks.waiter id)
    (hevents : s'.events = s.events ++ [⟨c.id, o.status, o.reference⟩])
    (htable : s'.table = s.table) (hresponses : s'.responses = s.responses) : Truthful s' := by
  obtain ⟨hterminal, hfresh, hrival⟩ := h.announcing c p hp ha
  have hown : Stored s c.id o := h.outcome c p o hp ho (hterminal o ho)
  have hsame : ∀ id o, Stored s' id o ↔ Stored s id o := fun id o => by
    rw [Stored, Stored, htable]
  refine ⟨?_, ?_, ?_, ?_, ?_, ?_⟩
  · intro c' q o' hq ho' hne
    rw [hsame]
    by_cases hc : c' = c
    · subst hc
      rw [(hself q hq).1, Option.some.injEq] at ho'
      exact ho' ▸ hown
    · exact h.outcome c' q o' (hothers c' q hc hq) ho' hne
  · intro c' q hq hqa
    have hc : c' ≠ c := by
      rintro rfl
      cases (hself q hq).2.symm.trans hqa
    have hq' := hothers c' q hc hq
    obtain ⟨hterminal', hfresh', hrival'⟩ := h.announcing c' q hq' hqa
    have hid : c'.id ≠ c.id := by
      intro hid
      rcases Courier.eq_or_rival hid with rfl | rfl
      · exact hc rfl
      · cases (hrival q hq').symm.trans hqa
    refine ⟨hterminal', ?_, ?_⟩
    · rw [hevents, List.map_append, List.mem_append]
      rintro (hmem | hmem)
      · exact hfresh' hmem
      · exact hid (List.mem_singleton.mp hmem)
    · intro p' hp'
      have hne : c'.rival ≠ c := fun e => hid (by rw [← e, Courier.rival_id])
      exact hrival' p' (hothers _ p' hne hp')
  · intro id o' hw hne
    rw [hsame]
    exact h.waiter id o' (hwaiter id ▸ hw) hne
  · intro e he
    rw [hsame]
    rw [hevents] at he
    rcases List.mem_append.mp he with he | he
    · exact h.events e he
    · rw [List.mem_singleton.mp he]
      exact hown
  · rw [hevents, List.map_append]
    refine List.nodup_append.mpr ⟨h.once, List.nodup_singleton _, ?_⟩
    intro i hi j hj hij
    rw [hij, List.mem_singleton.mp hj] at hi
    exact hfresh hi
  · intro b hb
    rw [hsame]
    exact h.responses b (hresponses ▸ hb)

/-- While its row is `queued`, nothing has been said of a message. -/
theorem record (h : Truthful s) {r : SendResult} {w : StatusWrite} {ok : Bool}
    (hp : s.tasks.phase c = some (.resolved r)) (hw : statusWrite r = some w)
    (hc : WritesOnce s (.recordStatus c ok)) : Truthful (s.recordStatus c r w ok) := by
  obtain ⟨rfl, hqueued⟩ := hc
  obtain ⟨m, hfind, hstatus⟩ := Option.map_eq_some_iff.mp hqueued
  obtain ⟨hws, hterminal, houtcome⟩ := statusWrite_outcome hw
  have hm : Moves s.tasks (s.recordStatus c r w true).tasks c (.resolved r)
    (.recorded (dispatchOutcome r)) := moves_move hp _
  have hother : ∀ {id : Nat} {o : DispatchOutcome}, Stored s id o → id ≠ c.id := by
    rintro id o ⟨hne, m', hm', hs', _⟩ rfl
    rw [hfind, Option.some.injEq] at hm'
    exact hne (by rw [← hs', ← hm', hstatus])
  have hkeep : ∀ id o, Stored s id o → Stored (s.recordStatus c r w true) id o := by
    intro id o ho
    have hne := hother ho
    obtain ⟨hq, m', hm', hrest⟩ := ho
    refine ⟨hq, m', ?_, hrest⟩
    show (setOutboundStatus s.table s.now c.id w).find id = some m'
    rw [setOutboundStatus, Table.find_modify_of_ne _ _ _ hne, hm']
  have hnew : Stored (s.recordStatus c r w true) c.id (dispatchOutcome r) := by
    rw [houtcome]
    refine ⟨fun hq => hterminal (hws ▸ hq), w.apply s.now m, ?_, rfl, rfl⟩
    show (setOutboundStatus s.table s.now c.id w).find c.id = _
    rw [setOutboundStatus, Table.find_modify_same hfind]
  have hquiet : c.id ∉ s.events.map (·.id) := by
    intro hmem
    obtain ⟨e, he, hid⟩ := List.mem_map.mp hmem
    exact hother (h.events e he) hid
  have hwaiter : ∀ id, (s.recordStatus c r w true).tasks.waiter id = s.tasks.waiter id :=
    s.tasks.waiter_move c _
  refine ⟨?_, ?_, fun id o hw hne => hkeep _ _ (h.waiter id o (hwaiter id ▸ hw) hne),
    fun e he => hkeep _ _ (h.events e he), h.once, fun b hb => hkeep _ _ (h.responses b hb)⟩
  · intro c' q o hq ho hne
    by_cases hcc : c' = c
    · rw [hcc, hm.after, Option.some.injEq] at hq
      subst hq
      rw [hcc, ← Option.some.inj ho]
      exact hnew
    · rw [hm.others c' hcc] at hq
      exact hkeep _ _ (h.outcome c' q o hq ho hne)
  · intro c' q hq ha
    by_cases hcc : c' = c
    · rw [hcc, hm.after, Option.some.injEq] at hq
      subst hq hcc
      refine ⟨?_, hquiet, ?_⟩
      · intro o ho
        rw [← Option.some.inj ho]
        exact hnew.1
      · intro p' hp'
        rw [hm.others _ c'.rival_ne] at hp'
        by_contra hpa
        have hpa' : p'.announcing = true := Bool.not_eq_false _ ▸ hpa
        obtain ⟨hterminal', _, _⟩ := h.announcing _ p' hp' hpa'
        obtain ⟨o, ho⟩ := Phase.outcome_of_announcing hpa'
        exact hother (h.outcome _ p' o hp' ho (hterminal' o ho)) c'.rival_id
    · rw [hm.others c' hcc] at hq
      obtain ⟨hterminal', hfresh, hrival⟩ := h.announcing c' q hq ha
      refine ⟨hterminal', hfresh, ?_⟩
      intro p' hp'
      by_cases hr : c'.rival = c
      · -- The rival writes only while this courier has nothing to announce.
        obtain ⟨o, ho⟩ := Phase.outcome_of_announcing ha
        exact absurd (by rw [← hr, Courier.rival_id])
          (hother (h.outcome c' q o hq ho (hterminal' o ho)))
      · rw [hm.others _ hr] at hp'
        exact hrival p' hp'

theorem stored_prepareSend (createdAt : Nat) (toNumber body : String) (partCount : Nat)
    (sync : Bool) (id : Nat) (o : DispatchOutcome) (h : Stored s id o) :
    Stored (s.prepareSend createdAt toNumber body partCount sync) id o := by
  obtain ⟨hne, m, hm, hrest⟩ := h
  exact ⟨hne, m, Table.find_insert_of_find hm, hrest⟩

theorem phase_prepareSend {createdAt : Nat} {toNumber body : String} {partCount : Nat}
    {sync : Bool}
    (hq : (s.prepareSend createdAt toNumber body partCount sync).tasks.phase c = some q) :
    Backed s.tasks c q := by
  by_cases hc : c = .dispatch (s.table.seq + 1)
  · subst hc
    rw [State.prepareSend, Tasks.phase_spawn_same, Option.some.injEq] at hq
    rw [← hq]
    exact backed_silent rfl
  · rw [State.prepareSend, Tasks.phase_spawn_of_ne hc] at hq
    exact backed_same hq

theorem phase_setReaper {r : Option Reaper}
    (hr : ∀ k, r.bind (·.current) = some k → k.delivery.phase.outcome = none)
    (hq : (s.setReaper r).tasks.phase c = some q) : Backed s.tasks c q := by
  cases c with
  | dispatch id => exact backed_same hq
  | reaper id =>
    apply backed_silent
    obtain ⟨d, hd, hphase⟩ := Option.map_eq_some_iff.mp hq
    obtain ⟨k, hk, hid⟩ := Option.bind_eq_some_iff.mp hd
    by_cases he : k.id = id
    · rw [if_pos he, Option.some.injEq] at hid
      rw [← hphase, ← hid]
      exact hr k hk
    · rw [if_neg he] at hid
      cases hid

/-- Handlers that go by what they have received. -/
theorem sameWaiters {t : Tasks} (heq : ∀ id, t.waiter id = s.tasks.waiter id) (id : Nat)
    (o : DispatchOutcome) (hw : t.waiter id = .received o) (_ : o.status ≠ .queued) :
    s.tasks.waiter id = .received o ∨ Stored s id o :=
  .inl (heq id ▸ hw)

/-- A courier goes on to a phase that says nothing new. -/
theorem moved (h : Truthful s) (hm : Moves s.tasks s'.tasks c p q) (hq : Backed s.tasks c q)
    (hwaiter : ∀ id, s'.tasks.waiter id = s.tasks.waiter id) (htable : s'.table = s.table)
    (hevents : s'.events = s.events) (hresponses : s'.responses = s.responses) : Truthful s' := by
  refine h.passes ?_ hevents (backed_moves hm hq) (sameWaiters hwaiter) ?_
  · intro id o ho
    rwa [Stored, htable]
  · intro b hb
    exact .inl (hresponses ▸ hb)

/-- A handler stops waiting, and what is answered, if anything, it has received. -/
theorem setsWaiter (h : Truthful s) {id : Nat} {w : Waiter} (hw : ∀ o, w ≠ .received o)
    (htasks : s'.tasks = s.tasks.setWaiter id w) (htable : s'.table = s.table)
    (hevents : s'.events = s.events)
    (hresponses : ∀ b, .ok b ∈ s'.responses → .ok b ∈ s.responses ∨
      Stored s b.id ⟨b.status, b.reference⟩) : Truthful s' := by
  refine h.passes ?_ hevents ?_ ?_ hresponses
  · intro id o ho
    rwa [Stored, htable]
  · intro c q hq
    rw [htasks, Tasks.phase_setWaiter] at hq
    exact backed_same hq
  · intro j o hr _
    rw [htasks] at hr
    exact .inl (Tasks.received_setWaiter hr hw)

theorem syncSend (h : Truthful s) {id : Nat} (hp : s.tasks.phase (.dispatch id) = some .persisted) :
    Truthful (s.syncSend id) := by
  refine h.passes (fun _ _ ho => ho) rfl
    (backed_moves ((moves_move hp _).setWaiter _ _) (backed_silent rfl)) ?_ (fun _ => .inl)
  intro j o hw _
  have hmove := Tasks.received_setWaiter hw (fun _ h => by cases h)
  exact .inl (by rwa [Tasks.waiter_move] at hmove)

theorem queueSend (h : Truthful s) {id : Nat} (d : Dispatch)
    (hp : s.tasks.phase (.dispatch id) = some .persisted) : Truthful (s.queueSend id d) := by
  refine h.passes (fun _ _ ho => ho) rfl (backed_moves (moves_move hp _) (backed_silent rfl))
    (sameWaiters (Tasks.waiter_move s.tasks (.dispatch id) _)) ?_
  intro b hb
  exact .inl (by simpa [State.queueSend] using hb)

/-- Of an outcome that is `queued` nothing is said. -/
theorem deferDispatch (h : Truthful s) {id : Nat} {r : SendResult}
    (hp : s.tasks.phase (.dispatch id) = some (.resolved r)) (hw : statusWrite r = none) :
    Truthful { s with tasks := s.tasks.move (.dispatch id) (.published (dispatchOutcome r)) } := by
  have hqueued : (dispatchOutcome r).status = .queued := by
    rw [dispatchOutcome, statusWrite_eq_none hw]
  refine h.moved (moves_move hp _) ⟨?_, fun h => by cases h⟩
    (Tasks.waiter_move s.tasks (.dispatch id) _) rfl rfl rfl
  rintro o ⟨rfl⟩ hne
  exact absurd hqueued hne

theorem publishDispatch (h : Truthful s) {id : Nat} {o : DispatchOutcome}
    (hp : s.tasks.phase (.dispatch id) = some (.counted o)) :
    Truthful (s.publish id o (s.tasks.move (.dispatch id) (.published o))) := by
  have hm := moves_move hp (.published o)
  refine h.publish hp rfl rfl ?_ ?_ (Tasks.waiter_move s.tasks (.dispatch _) _) rfl rfl rfl
  · intro q hq
    rw [State.publish, hm.after, Option.some.injEq] at hq
    rw [← hq]
    exact ⟨rfl, rfl⟩
  · intro c' q hne hq
    rw [State.publish, hm.others c' hne] at hq
    exact hq

theorem publishReaper (h : Truthful s) {id : Nat} {o : DispatchOutcome}
    (hp : s.tasks.phase (.reaper id) = some (.recorded o)) :
    Truthful (s.publish id o s.tasks.leaveCurrent) := by
  have hl := leaves_leaveCurrent hp
  refine h.publish hp rfl rfl ?_ ?_ (fun _ => rfl) rfl rfl rfl
  · intro q hq
    rw [State.publish, hl.reaper] at hq
    cases hq
  · intro c' q _ hq
    cases c' with
    | dispatch j => exact hq
    | reaper j =>
      rw [State.publish, hl.reaper] at hq
      cases hq

/-- The handler receives what its dispatch has written. -/
theorem replyOutcome (h : Truthful s) {id : Nat} {o : DispatchOutcome}
    (hp : s.tasks.phase (.dispatch id) = some (.published o)) : Truthful (s.replyOutcome id o) := by
  refine h.passes (fun _ _ ho => ho) rfl
    (backed_moves ((moves_move hp _).handOver _ _) (backed_silent rfl)) ?_ (fun _ => .inl)
  intro j o' hw hne
  rcases Tasks.received_handOver hw with hw | ⟨rfl, rfl⟩
  · exact .inl (by rwa [Tasks.waiter_move] at hw)
  · exact .inr (h.outcome _ _ _ hp rfl hne)

theorem respond (h : Truthful s) {id : Nat} {o : DispatchOutcome} (parts : Nat)
    (hw : s.tasks.waiter id = .received o) : Truthful (s.respond id (syncResponse id parts o)) := by
  refine h.setsWaiter (fun _ h => by cases h) rfl rfl rfl ?_
  intro b hb
  rcases List.mem_append.mp hb with hb | hb
  · exact .inl hb
  · have heq := List.mem_singleton.mp hb
    rw [syncResponse] at heq
    by_cases hne : o.status ≠ .queued
    · rw [if_pos hne, Response.ok.injEq] at heq
      rw [heq]
      exact .inr (h.waiter id o hw hne)
    · rw [if_neg hne] at heq
      cases heq

theorem step {a : Act} (h : Truthful s) (hc : WritesOnce s a) (hstep : Stepped s a s') :
    Truthful s' := by
  cases hstep with
  | clock now | manager _ hm =>
    exact h.passes (fun _ _ ho => ho) rfl (fun _ _ => backed_same) (sameWaiters fun _ => rfl)
      (fun _ => .inl)
  | prepareSend createdAt toNumber body partCount sync =>
    exact h.passes (stored_prepareSend _ _ _ _ _) rfl (fun _ _ => phase_prepareSend)
      (fun _ _ hw _ => .inl (Tasks.received_spawn rfl hw)) (fun _ => .inl)
  | syncSend hp => exact h.syncSend hp
  | queueSend d hp => exact h.queueSend d hp
  | submit d hp | refused hp | wake hp =>
    exact h.moved (moves_move hp _) (backed_silent rfl) (Tasks.waiter_move s.tasks _ _) rfl rfl rfl
  | @answered a c m r _ hm =>
    refine h.passes (fun _ _ ho => ho) rfl ?_ (sameWaiters (Tasks.waiter_deliver _ _ _))
      (fun _ => .inl)
    by_cases hp : s.tasks.phase c = some .awaiting
    · exact backed_moves (moves_deliver hp r) (backed_silent rfl)
    · rw [Tasks.deliver, if_neg hp]
      exact fun _ _ => backed_same
  | recordStatus ok hp hw => exact h.record hp hw hc
  | deferDispatch hp hw => exact h.deferDispatch hp hw
  | deferReaper hp hw =>
    exact h.passes (fun _ _ ho => ho) rfl (backed_leaves (leaves_leaveCurrent hp))
      (sameWaiters fun _ => rfl) (fun _ => .inl)
  | recordMetric hp =>
    exact h.moved (moves_move hp _) ⟨fun _ ho _ => ⟨_, hp, ho⟩, fun _ => ⟨_, hp, rfl, rfl⟩⟩
      (Tasks.waiter_move s.tasks (.dispatch _) _) rfl rfl rfl
  | publishDispatch hp => exact h.publishDispatch hp
  | publishReaper hp => exact h.publishReaper hp
  | replyOutcome hp => exact h.replyOutcome hp
  | respond parts hw => exact h.respond parts hw
  | expire parts hw =>
    refine h.setsWaiter (fun _ h => by cases h) rfl rfl rfl ?_
    intro b hb
    exact .inl (by simpa [State.respond] using hb)
  | forget hp =>
    refine h.passes (fun _ _ ho => ho) rfl (fun _ _ hq => backed_same (Tasks.phase_of_forget hq)) ?_
      (fun _ => .inl)
    intro j o hw _
    rw [Tasks.waiter_forget] at hw
    split at hw
    · cases hw
    · exact .inl hw
  | dropWaiting hw =>
    exact h.setsWaiter (fun _ h => by cases h) rfl rfl rfl (fun _ => .inl)
  | tick hr | queryQueued ok hr =>
    exact h.passes (fun _ _ ho => ho) rfl (fun _ _ => phase_setReaper (fun _ h => by cases h))
      (sameWaiters fun _ => rfl) (fun _ => .inl)
  | nextStuck hr =>
    refine h.passes (fun _ _ ho => ho) rfl (fun _ _ => phase_setReaper ?_)
      (sameWaiters fun _ => rfl)
      (fun _ => .inl)
    rintro k ⟨rfl⟩
    rfl
  | abort =>
    exact h.passes (fun _ _ ho => ho) rfl (fun _ _ => phase_setReaper (fun _ h => by cases h))
      (sameWaiters fun _ => rfl) (fun _ => .inl)

theorem invariant : service.Inductive WritesOnce Truthful where
  start s hs := by
    have hphase : ∀ c, s.tasks.phase c = none := by
      intro c
      rw [hs.tasks]
      cases c <;> rfl
    refine ⟨fun c p o hp => ?_, fun c p hp => ?_, fun id o hw => ?_, ?_, ?_, ?_⟩
    · cases (hphase c).symm.trans hp
    · cases (hphase c).symm.trans hp
    · rw [hs.tasks] at hw
      cases hw
    · rw [hs.events]
      exact fun _ he => by cases he
    · rw [hs.events]
      exact List.nodup_nil
    · rw [hs.responses]
      exact fun _ hb => by cases hb
  step s a t h hc ht := h.step hc (stepped_of_step ht)

end Truthful

/-! ## Along a run -/

theorem Final.of_table {s t : State} (h : t.table = s.table) : Final s t := by
  intro id m hm
  exact ⟨m, h ▸ hm, fun _ => ⟨rfl, rfl, rfl⟩⟩

theorem Final.trans {s t u : State} (h₁ : Final s t) (h₂ : Final t u) : Final s u := by
  intro id m hm
  obtain ⟨m', hm', hkeep⟩ := h₁ id m hm
  obtain ⟨m'', hm'', hkeep'⟩ := h₂ id m' hm'
  refine ⟨m'', hm'', fun hne => ?_⟩
  obtain ⟨hs, hr, he⟩ := hkeep hne
  obtain ⟨hs', hr', he'⟩ := hkeep' (hs ▸ hne)
  exact ⟨hs'.trans hs, hr'.trans hr, he'.trans he⟩

theorem Final.stored {s t : State} (h : Final s t) {id : Nat} {o : DispatchOutcome}
    (ho : Stored s id o) : Stored t id o := by
  obtain ⟨hne, m, hm, hs, hr⟩ := ho
  obtain ⟨m', hm', hkeep⟩ := h id m hm
  obtain ⟨hs', hr', _⟩ := hkeep (hs ▸ hne)
  exact ⟨hne, m', hm', hs'.trans hs, hr'.trans hr⟩

theorem final_recordStatus {s : State} {c : Courier} {r : SendResult} {w : StatusWrite} {ok : Bool}
    (hc : WritesOnce s (.recordStatus c ok)) : Final s (s.recordStatus c r w ok) := by
  intro id m hm
  obtain ⟨rfl, hqueued⟩ := hc
  show ∃ m', (setOutboundStatus s.table s.now c.id w).find id = some m' ∧ _
  by_cases hid : id = c.id
  · subst hid
    rw [storedStatus, hm, Option.map_some, Option.some.injEq] at hqueued
    exact ⟨_, Table.find_modify_same hm, fun hne => absurd hqueued hne⟩
  · rw [setOutboundStatus, Table.find_modify_of_ne _ _ _ hid, hm]
    exact ⟨m, rfl, fun _ => ⟨rfl, rfl, rfl⟩⟩

theorem final_step {s s' : State} {a : Act} (hc : WritesOnce s a) (hstep : Stepped s a s') :
    Final s s' := by
  cases hstep with
  | prepareSend createdAt toNumber body partCount sync =>
    intro id m hm
    exact ⟨m, Table.find_insert_of_find hm, fun _ => ⟨rfl, rfl, rfl⟩⟩
  | recordStatus ok hp hw => exact final_recordStatus hc
  | clock | syncSend | queueSend | submit | refused | wake | manager | answered | deferDispatch
  | deferReaper | recordMetric | publishDispatch | publishReaper | replyOutcome | respond | expire
  | forget | dropWaiting | tick | queryQueued | nextStuck | abort => exact Final.of_table rfl

theorem final_run : service.Along WritesOnce Final :=
  Truthful.invariant.along (fun _ => .of_table rfl) (fun _ _ _ => .trans)
    (fun _ _ _ _ hc ht => final_step hc (stepped_of_step ht))

/-- A run under the condition is one whose writes all find their rows `queued`. -/
theorem run_writesOnce {s t : State} (h : Known s ∧ Apart s)
    (hrun : service.Run TerminalRecorded s t) :
    service.Run WritesOnce s t :=
  (Apart.invariant.restrict (fun _ _ hc => hc.2)).meets
    (fun _ _ _ h hc ht => writesOnce_of_apart h.2 hc.1 ht) h hrun

theorem reach_writesOnce {s : State} (hs : service.Reach TerminalRecorded s) :
    service.Reach WritesOnce s := by
  obtain ⟨s₀, hstart, hrun⟩ := hs
  exact ⟨s₀, hstart, run_writesOnce (Apart.invariant.start s₀ hstart) hrun⟩

/-- Where every status write succeeds and the reaper reads no row whose dispatch has
yet to write, terminal statuses are final and are what was announced. -/
theorem terminal_is_final {s t : State} (hs : service.Reach TerminalRecorded s)
    (hrun : service.Run TerminalRecorded s t) :
    (Final s t ∧ Announced s t) ∧ ∀ id, s.events.countP (fun e => e.id = id) ≤ 1 := by
  have htruth := Truthful.invariant.reach (reach_writesOnce hs)
  have hapart := (Apart.invariant.restrict (fun _ _ hc => hc.2)).reach hs
  refine ⟨?_, ?_⟩
  · have hfinal := final_run s t (reach_writesOnce hs) (run_writesOnce hapart hrun)
    exact ⟨hfinal, fun e he => hfinal.stored (htruth.events e he),
      fun b hb => hfinal.stored (htruth.responses b hb)⟩
  · intro id
    have honce := htruth.once
    have hcount : s.events.countP (fun e => e.id = id) = (s.events.map (·.id)).count id := by
      rw [List.count, List.countP_map]
      rfl
    rw [hcount]
    exact List.nodup_iff_count_le_one.mp honce id

theorem terminal_is_final_reapedLater :
    (Final (stateAfter deferred) (stateAfter reapedLater) ∧
      Announced (stateAfter deferred) (stateAfter reapedLater)) ∧
    ∀ id, (stateAfter deferred).events.countP (fun e => e.id = id) ≤ 1 := by
  have hbefore : service.Meets TerminalRecorded fresh deferred := by
    apply Machine.meets_of_forall
    simp [deferred, handedOver, TerminalRecorded, StatusWritten, ReadsFree]
  have hlater : service.Meets TerminalRecorded (stateAfter deferred) reaped := by
    refine ⟨⟨trivial, readsFree_deferred⟩, fun t _ => ?_⟩
    apply Machine.meets_of_forall
    simp [TerminalRecorded, StatusWritten, ReadsFree]
  exact terminal_is_final (Machine.reach_of_meets starting_fresh hbefore rfl)
    (Machine.run_of_exec hlater rfl)

/-- A `Sent` result whose status write fails before its event is published. -/
def lostBeforeEvent : List Act :=
  [.prepareSend 0 "+15551230000" "hello" 1 false, .spawnDispatch 1, .submit (.dispatch 1), .recv,
    .reply ⟨.sent, some "42", none, none⟩, .wake (.dispatch 1), .recordStatus (.dispatch 1) false,
    .recordMetric 1, .publish (.dispatch 1)]

theorem event_without_row : ¬ TerminalIsFinal Machine.anything := by
  intro h
  have hrun : ((service.exec fresh lostBeforeEvent).map (fun s =>
      (s.events, (s.table.find 1).map (·.status)))) =
        some ([⟨1, .sent, some "42"⟩], some .queued) := by
    decide
  obtain ⟨s, hs, hseen⟩ := Option.map_eq_some_iff.mp hrun
  rw [Prod.mk.injEq] at hseen
  obtain ⟨⟨_, hevents, _⟩, _⟩ := h s s (Machine.reach_of_exec starting_fresh hs) (.refl s)
  obtain ⟨_, m, hm, hsent, _⟩ := hevents ⟨1, .sent, some "42"⟩ (by rw [hseen.1]; simp)
  rw [hm, Option.map_some, Option.some.injEq] at hseen
  cases hsent.symm.trans hseen.2

end Outbound
end GreenRelay
