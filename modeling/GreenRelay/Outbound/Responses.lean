/-
Every accepted request whose client stays is answered once.

A handler answers at two places: `queue_send` when it spawns the dispatch, and
`sync_send` when the outcome arrives or its wait is over, whichever comes first,
while the dispatch goes on.  A handler that is dropped with its client before
that place answers nobody.  `State.answered` says how many responses there must
be for a message, given how far its dispatch and its handler are, and `Replied`
that there are as many.  A response repeats what the row was created with, and
one that reports an outcome reports a result that `send_sms` returned.
-/
import GreenRelay.Outbound.Progress

namespace GreenRelay
namespace Outbound

open Modem (SendResult)

def Response.id : Response → Nat
  | .ok body => body.id
  | .accepted body => body.id

/-- The responses to the request behind a dispatch so far. -/
def Dispatch.answers (d : Dispatch) : Nat :=
  if d.delivery.phase = .persisted ∨ d.waiter ≠ .absent then 0 else 1

def State.answered (s : State) (id : Nat) : Nat :=
  match s.tasks.dispatches id with
  | some d => d.answers
  | none => 0

/-- What a response says about the message with a row. -/
def Response.Reports (history : List Entry) (m : OutboundMessage) : Response → Prop
  | .ok body => body.parts = m.partCount ∧ body.status ≠ .queued ∧
      .returned body.id body.status ∈ history
  | .accepted body => body.parts = m.partCount ∧ body.status = .queued

/-- The status of the result that a courier carries. -/
def Phase.status : Phase → Option MessageStatus
  | .resolved r => some r.status
  | .recorded o | .counted o | .published o => some o.status
  | _ => none

structure Replied (s : State) : Prop where
  counted : ∀ id, s.responses.countP (fun r => r.id = id) = s.answered id
  early : ∀ id d, s.tasks.dispatches id = some d → d.delivery.phase = .persisted →
    d.waiter = .absent
  rows : ∀ id d, s.tasks.dispatches id = some d →
    ∃ m, s.table.find id = some m ∧ m.partCount = d.partCount
  reports : ∀ r ∈ s.responses, ∃ m, s.table.find r.id = some m ∧ r.Reports s.history m
  carried : ∀ c p status, s.tasks.phase c = some p → p.status = some status →
    .returned c.id status ∈ s.history
  received : ∀ id o, s.tasks.waiter id = .received o → .returned id o.status ∈ s.history

/-! ## Steps that no handler sees -/

theorem dispatchOutcome_status (r : SendResult) : (dispatchOutcome r).status = r.status := by
  cases hr : r.status <;> simp [dispatchOutcome, hr]

/-- The handler and the request of a dispatch stay as they are. -/
structure Dispatch.Follows (d d' : Dispatch) : Prop where
  parts : d'.partCount = d.partCount
  early : d'.delivery.phase = .persisted ↔ d.delivery.phase = .persisted
  absent : d'.waiter = .absent ↔ d.waiter = .absent
  ended : d'.waiter.isOver = d.waiter.isOver

theorem Dispatch.Follows.refl (d : Dispatch) : d.Follows d := ⟨rfl, Iff.rfl, Iff.rfl, rfl⟩

namespace Tasks

variable {t t' : Tasks} {c : Courier} {p q : Phase} {id : Nat}

/-- Every dispatch is still there and followed by what it has become. -/
def Keeps (t t' : Tasks) : Prop :=
  ∀ id, (t.dispatches id = none ∧ t'.dispatches id = none) ∨
    ∃ d d', t.dispatches id = some d ∧ t'.dispatches id = some d' ∧ d.Follows d'

theorem keeps_of_dispatches (h : t'.dispatches = t.dispatches) : t.Keeps t' := by
  intro id
  cases hd : t.dispatches id with
  | none => exact .inl ⟨rfl, h ▸ hd⟩
  | some d => exact .inr ⟨d, d, rfl, h ▸ hd, .refl d⟩

theorem keeps_setDispatch {f : Dispatch → Dispatch}
    (hf : ∀ d, t.dispatches id = some d → d.Follows (f d)) : t.Keeps (t.setDispatch id f) := by
  intro j
  by_cases hj : j = id
  · subst hj
    cases hd : t.dispatches j with
    | none => exact .inl ⟨rfl, by simp [setDispatch, hd]⟩
    | some d => exact .inr ⟨d, f d, rfl, by simp [setDispatch, hd], hf d hd⟩
  · cases hd : t.dispatches j with
    | none => exact .inl ⟨rfl, by simp [setDispatch, hj, hd]⟩
    | some d => exact .inr ⟨d, d, rfl, by simp [setDispatch, hj, hd], .refl d⟩

theorem Keeps.trans {u : Tasks} (h₁ : t.Keeps t') (h₂ : t'.Keeps u) : t.Keeps u := by
  intro id
  rcases h₁ id with ⟨hn, hn'⟩ | ⟨d, d', hd, hd', hf⟩
  · rcases h₂ id with ⟨_, hu⟩ | ⟨e, _, he, _, _⟩
    · exact .inl ⟨hn, hu⟩
    · cases hn'.symm.trans he
  · rcases h₂ id with ⟨hn', _⟩ | ⟨e, e', he, he', hg⟩
    · cases hd'.symm.trans hn'
    · cases hd'.symm.trans he
      exact .inr ⟨d, e', hd, he', hg.parts.trans hf.parts, hg.early.trans hf.early,
        hg.absent.trans hf.absent, hg.ended.trans hf.ended⟩

/-- A courier past the beginning goes on. -/
theorem keeps_move (hp : t.phase c = some p) (hpe : p ≠ .persisted) (hqe : q ≠ .persisted) :
    t.Keeps (t.move c q) := by
  cases c with
  | reaper id => exact keeps_of_dispatches rfl
  | dispatch id =>
    apply keeps_setDispatch
    intro d hd
    have hphase : d.delivery.phase = p := by
      simpa [phase, delivery, hd] using hp
    refine ⟨rfl, ?_, Iff.rfl, rfl⟩
    show q = .persisted ↔ d.delivery.phase = .persisted
    rw [hphase]
    exact ⟨fun h => absurd h hqe, fun h => absurd h hpe⟩

theorem keeps_handOver (t : Tasks) (id : Nat) (o : DispatchOutcome) :
    t.Keeps (t.handOver id o) := by
  apply keeps_setDispatch
  intro d _
  by_cases hw : d.waiter = .waiting
  · rw [if_pos hw]
    exact ⟨rfl, Iff.rfl, by simp [hw], by rw [hw]; rfl⟩
  · rw [if_neg hw]
    exact .refl d

theorem keeps_deliver (t : Tasks) (c : Courier) (r : SendResult) : t.Keeps (t.deliver c r) := by
  rw [deliver]
  split
  · rename_i hp
    exact keeps_move hp (by simp) (by simp)
  · exact keeps_of_dispatches rfl

end Tasks

theorem State.answered_of_keeps {s s' : State} (h : s.tasks.Keeps s'.tasks) (id : Nat) :
    s'.answered id = s.answered id := by
  rcases h id with ⟨hn, hn'⟩ | ⟨d, d', hd, hd', hf⟩
  · rw [answered, answered, hn, hn']
  · simp only [answered, hd, hd', Dispatch.answers, hf.early, hf.absent, ne_eq]

namespace Replied

variable {s s' : State} {c : Courier} {p q : Phase}

theorem keeps (h : Replied s) (ht : s.tasks.Keeps s'.tasks)
    (hresponses : s'.responses = s.responses)
    (htable : ∀ id m, s.table.find id = some m →
      ∃ m', s'.table.find id = some m' ∧ m'.partCount = m.partCount)
    (hhistory : ∀ e ∈ s.history, e ∈ s'.history)
    (hcarried : ∀ c p status, s'.tasks.phase c = some p → p.status = some status →
      (∃ p', s.tasks.phase c = some p' ∧ p'.status = some status) ∨
        .returned c.id status ∈ s'.history)
    (hreceived : ∀ id o, s'.tasks.waiter id = .received o →
      s.tasks.waiter id = .received o ∨ .returned id o.status ∈ s'.history) : Replied s' where
  counted id := by rw [hresponses, h.counted, State.answered_of_keeps ht]
  early id d' hd' hp := by
    rcases ht id with ⟨_, hn'⟩ | ⟨d, e, hd, he, hf⟩
    · cases hn'.symm.trans hd'
    · cases he.symm.trans hd'
      exact hf.absent.mpr (h.early id d hd (hf.early.mp hp))
  rows id d' hd' := by
    rcases ht id with ⟨_, hn'⟩ | ⟨d, e, hd, he, hf⟩
    · cases hn'.symm.trans hd'
    · cases he.symm.trans hd'
      obtain ⟨m, hm, hparts⟩ := h.rows id d hd
      obtain ⟨m', hm', hparts'⟩ := htable id m hm
      exact ⟨m', hm', by rw [hparts', hparts, hf.parts]⟩
  reports r hr := by
    obtain ⟨m, hm, hreports⟩ := h.reports r (hresponses ▸ hr)
    obtain ⟨m', hm', hparts⟩ := htable r.id m hm
    refine ⟨m', hm', ?_⟩
    cases r with
    | ok body =>
      exact ⟨hparts ▸ hreports.1, hreports.2.1, hhistory _ hreports.2.2⟩
    | accepted body => exact ⟨hparts ▸ hreports.1, hreports.2⟩
  carried c p status hp hstatus := by
    rcases hcarried c p status hp hstatus with ⟨p', hp', hold⟩ | hnew
    · exact hhistory _ (h.carried c p' status hp' hold)
    · exact hnew
  received id o hw := by
    rcases hreceived id o hw with hold | hnew
    · exact hhistory _ (h.received id o hold)
    · exact hnew

/-- A step of one courier that leaves the handlers alone. -/
theorem moves (h : Replied s) (hm : Moves s.tasks s'.tasks c p q) (ht : s.tasks.Keeps s'.tasks)
    (hwaiter : ∀ id, s'.tasks.waiter id = s.tasks.waiter id)
    (hresponses : s'.responses = s.responses)
    (htable : ∀ id m, s.table.find id = some m →
      ∃ m', s'.table.find id = some m' ∧ m'.partCount = m.partCount)
    (hhistory : ∀ e ∈ s.history, e ∈ s'.history)
    (hq : ∀ status, q.status = some status → p.status = some status ∨
      .returned c.id status ∈ s'.history) : Replied s' := by
  apply h.keeps ht hresponses htable hhistory
  · intro c' p' status hp' hstatus
    by_cases hc : c' = c
    · rw [hc, hm.after, Option.some.injEq] at hp'
      rw [← hp'] at hstatus
      rw [hc]
      exact (hq status hstatus).imp_left (fun hold => ⟨p, hm.before, hold⟩)
    · rw [hm.others c' hc] at hp'
      exact .inl ⟨p', hp', hstatus⟩
  · intro id o hw
    exact .inl (hwaiter id ▸ hw)

/-- A step that leaves everything about messages alone. -/
theorem quiet (h : Replied s) (ht : s'.tasks.dispatches = s.tasks.dispatches)
    (hphase : ∀ c p status, s'.tasks.phase c = some p → p.status = some status →
      s.tasks.phase c = some p) (hresponses : s'.responses = s.responses)
    (htable : s'.table = s.table) (hhistory : s'.history = s.history) : Replied s' := by
  apply h.keeps (Tasks.keeps_of_dispatches ht) hresponses
  · intro id m hm
    exact ⟨m, htable ▸ hm, rfl⟩
  · exact fun e he => hhistory ▸ he
  · exact fun c p status hp hstatus => .inl ⟨p, hphase c p status hp hstatus, hstatus⟩
  · intro id o hw
    left
    rwa [Tasks.waiter, ht] at hw

/-! ## Answers -/

theorem answered_setDispatch {id : Nat} {f : Dispatch → Dispatch} {d : Dispatch}
    (hd : s.tasks.dispatches id = some d) (htasks : s'.tasks = s.tasks.setDispatch id f) (j : Nat) :
    s'.answered j = if j = id then (f d).answers else s.answered j := by
  by_cases hj : j = id
  · simp [State.answered, htasks, Tasks.setDispatch, hj, hd]
  · simp [State.answered, htasks, Tasks.setDispatch, hj]

/-- The handler of a dispatch goes on, with a response or without. -/
theorem handles (h : Replied s) {id : Nat} {f : Dispatch → Dispatch} {d : Dispatch}
    {new : List Response} (hd : s.tasks.dispatches id = some d)
    (hparts : (f d).partCount = d.partCount) (hlate : (f d).delivery.phase ≠ .persisted)
    (hnothing : ∀ o, (f d).waiter ≠ .received o) (hcount : (f d).answers = d.answers + new.length)
    (htasks : s'.tasks = s.tasks.setDispatch id f) (hresponses : s'.responses = s.responses ++ new)
    (htable : s'.table = s.table) (hhistory : s'.history = s.history)
    (hnew : ∀ r ∈ new, r.id = id ∧ ∀ m, m.partCount = d.partCount → r.Reports s.history m)
    (hcarried : ∀ c p status, s'.tasks.phase c = some p → p.status = some status →
      s.tasks.phase c = some p) : Replied s' where
  counted j := by
    rw [hresponses, List.countP_append, h.counted j, answered_setDispatch hd htasks]
    by_cases hj : j = id
    · have hall : new.countP (fun r => r.id = j) = new.length :=
        List.countP_eq_length.mpr (fun r hr => by simp [(hnew r hr).1, hj])
      rw [if_pos hj, hall, hcount, hj, State.answered, hd]
    · have hnone : new.countP (fun r => r.id = j) = 0 :=
        List.countP_eq_zero.mpr (fun r hr => by simp [(hnew r hr).1, Ne.symm hj])
      rw [if_neg hj, hnone, Nat.add_zero]
  early j d' hd' hp := by
    rw [htasks] at hd'
    by_cases hj : j = id
    · simp only [Tasks.setDispatch, hj, if_true, hd, Option.map_some, Option.some.injEq] at hd'
      exact absurd (hd' ▸ hp) hlate
    · simp only [Tasks.setDispatch, hj, if_false] at hd'
      exact h.early j d' hd' hp
  rows j d' hd' := by
    rw [htasks] at hd'
    rw [htable]
    by_cases hj : j = id
    · simp only [Tasks.setDispatch, hj, if_true, hd, Option.map_some, Option.some.injEq] at hd'
      rw [hj, ← hd', hparts]
      exact h.rows id d hd
    · simp only [Tasks.setDispatch, hj, if_false] at hd'
      exact h.rows j d' hd'
  reports r hr := by
    rw [htable, hhistory]
    rw [hresponses] at hr
    rcases List.mem_append.mp hr with hold | hmem
    · exact h.reports r hold
    · obtain ⟨hid, hreports⟩ := hnew r hmem
      obtain ⟨m, hm, hmp⟩ := h.rows id d hd
      rw [hid]
      exact ⟨m, hm, hreports m hmp⟩
  carried c p status hp hstatus := by
    rw [hhistory]
    exact h.carried c p status (hcarried c p status hp hstatus) hstatus
  received j o hw := by
    rw [hhistory]
    rw [htasks, Tasks.waiter_setDispatch] at hw
    by_cases hj : j = id
    · rw [if_pos hj, hd, Option.map_some, Option.getD_some] at hw
      exact absurd hw (hnothing o)
    · rw [if_neg hj] at hw
      exact h.received j o hw

end Replied

theorem find_setOutboundStatus_partCount {t : OutboundMessages} {now id j : Nat} {w : StatusWrite}
    {m : OutboundMessage} (h : t.find j = some m) :
    ∃ m', (setOutboundStatus t now id w).find j = some m' ∧ m'.partCount = m.partCount := by
  refine ⟨if j = id then w.apply now m else m, ?_, ?_⟩
  · rw [setOutboundStatus, Table.find_modify, h, Option.map_some]
  · split <;> rfl

/-- The actions with which a handler may answer. -/
def Act.ofHandler : Act → Prop
  | .spawnDispatch _ | .respond _ | .expire _ => True
  | _ => False

namespace Replied

variable {s s' : State} {c : Courier} {p q : Phase}

theorem prepareSend (h : Replied s) (createdAt : Nat) (toNumber body : String)
    (partCount : Nat) (sync : Bool) :
    Replied (s.prepareSend createdAt toNumber body partCount sync) := by
  have hfresh : s.tasks.dispatches (s.table.seq + 1) = none := by
    cases hd : s.tasks.dispatches (s.table.seq + 1) with
    | none => rfl
    | some d =>
      obtain ⟨m, hm, _⟩ := h.rows _ d hd
      cases s.table.find_next.symm.trans hm
  have hother : ∀ j, j ≠ s.table.seq + 1 →
      (s.prepareSend createdAt toNumber body partCount sync).tasks.dispatches j
        = s.tasks.dispatches j := fun j hj => if_neg hj
  have hself : (s.prepareSend createdAt toNumber body partCount sync).tasks.dispatches
      (s.table.seq + 1) = some ⟨⟨toNumber, body, .persisted⟩, partCount, sync, .absent⟩ :=
        if_pos rfl
  have hfind : ∀ j m, s.table.find j = some m →
      (s.prepareSend createdAt toNumber body partCount sync).table.find j = some m :=
    fun j m hm => Table.find_insert_of_find hm
  refine ⟨?_, ?_, ?_, ?_, ?_, ?_⟩
  · intro j
    show s.responses.countP _ = _
    rw [h.counted j]
    by_cases hj : j = s.table.seq + 1
    · rw [State.answered, State.answered, hj, hself, hfresh]
      rfl
    · rw [State.answered, State.answered, hother j hj]
  · intro j d hd hp
    by_cases hj : j = s.table.seq + 1
    · rw [hj, hself, Option.some.injEq] at hd
      rw [← hd]
    · exact h.early j d (hother j hj ▸ hd) hp
  · intro j d hd
    by_cases hj : j = s.table.seq + 1
    · rw [hj, hself, Option.some.injEq] at hd
      rw [hj, ← hd]
      exact ⟨_, s.table.find_insert_next _ _, rfl⟩
    · obtain ⟨m, hm, hparts⟩ := h.rows j d (hother j hj ▸ hd)
      exact ⟨m, hfind j m hm, hparts⟩
  · intro r hr
    obtain ⟨m, hm, hreports⟩ := h.reports r hr
    exact ⟨m, hfind r.id m hm, hreports⟩
  · intro c p status hp hstatus
    by_cases hc : c = .dispatch (s.table.seq + 1)
    · rw [hc, State.prepareSend, Tasks.phase_spawn_same, Option.some.injEq] at hp
      rw [← hp] at hstatus
      cases hstatus
    · rw [State.prepareSend, Tasks.phase_spawn_of_ne hc] at hp
      exact h.carried c p status hp hstatus
  · intro j o hw
    exact h.received j o (Tasks.received_spawn rfl hw)

/-- A dispatch that begins is in a phase that carries nothing. -/
theorem carried_spawn {id : Nat} {t : Tasks}
    (ht : ∀ c, t.phase c = (s.tasks.move (.dispatch id) .submitting).phase c)
    (c : Courier) (p : Phase)
    (status : MessageStatus) (hp : t.phase c = some p) (hstatus : p.status = some status) :
    s.tasks.phase c = some p := by
  rw [ht, Tasks.phase_move] at hp
  split at hp
  · obtain ⟨_, _, rfl⟩ := Option.map_eq_some_iff.mp hp
    cases hstatus
  · exact hp

theorem spawnDispatch (h : Replied s) {id : Nat} {d : Dispatch}
    (hd : s.tasks.dispatches id = some d)
    (hp : d.delivery.phase = .persisted) :
    Replied (s.syncSend id) ∧ Replied (s.queueSend id d) := by
  have habsent := h.early id d hd hp
  have hzero : d.answers = 0 := if_pos (.inl hp)
  refine ⟨?_, ?_⟩
  · have htasks : (s.syncSend id).tasks = s.tasks.setDispatch id (fun d =>
        { d with delivery := d.delivery.enter .submitting, waiter := .waiting }) := by
      simp only [State.syncSend, Tasks.move, Tasks.setWaiter, Tasks.setDispatch, Tasks.mk.injEq,
        and_true]
      funext j
      by_cases hj : j = id <;> simp [hj, Function.comp_def]
    apply h.handles hd rfl (by simp [Delivery.enter]) (by simp) _ htasks (List.append_nil _).symm
      rfl rfl
    · intro r hr
      cases hr
    · exact carried_spawn (Tasks.phase_setWaiter _ id .waiting)
    · rw [hzero, Dispatch.answers, if_pos (.inr (by simp))]
      rfl
  · have htasks : (s.queueSend id d).tasks = s.tasks.setDispatch id (fun d =>
        { d with delivery := d.delivery.enter .submitting }) := rfl
    apply h.handles hd rfl (by simp [Delivery.enter]) (by simp [habsent]) _ htasks rfl rfl rfl
    · intro r hr
      rw [List.mem_singleton.mp hr]
      exact ⟨rfl, fun m hm => ⟨hm.symm, rfl⟩⟩
    · exact carried_spawn (fun _ => rfl)
    · rw [hzero, Dispatch.answers, if_neg (by simp [Delivery.enter, habsent])]
      rfl

/-- A `sync_send` handler that is done with waiting answers. -/
theorem respond (h : Replied s) {id : Nat} {d : Dispatch} {r : Response}
    (hd : s.tasks.dispatches id = some d) (hwaiter : d.waiter ≠ .absent) (hid : r.id = id)
    (hreports : ∀ m, m.partCount = d.partCount → r.Reports s.history m) :
    Replied (s.respond id r) := by
  have hlate : d.delivery.phase ≠ .persisted := fun hp => hwaiter (h.early id d hd hp)
  have htasks : (s.respond id r).tasks = s.tasks.setDispatch id (fun d =>
      { d with waiter := .absent }) := rfl
  apply h.handles hd rfl hlate (by simp) _ htasks rfl rfl rfl
  · intro r' hr'
    rw [List.mem_singleton.mp hr']
    exact ⟨hid, hreports⟩
  · intro c p status hp _
    rwa [State.respond, Tasks.phase_setWaiter] at hp
  · have hzero : d.answers = 0 := if_pos (.inr hwaiter)
    rw [hzero, Dispatch.answers, if_neg (by simp [hlate])]
    rfl

theorem reports_syncResponse {id parts : Nat} {o : DispatchOutcome} {history : List Entry}
    {m : OutboundMessage} (ho : .returned id o.status ∈ history) (hm : m.partCount = parts) :
    (syncResponse id parts o).Reports history m := by
  rw [syncResponse]
  split
  · exact ⟨hm.symm, ‹_›, ho⟩
  · exact ⟨hm.symm, rfl⟩

theorem id_syncResponse (id parts : Nat) (o : DispatchOutcome) :
    (syncResponse id parts o).id = id := by
  rw [syncResponse]
  split <;> rfl

/-- A handler that is dropped while it waits has not answered and does not. -/
theorem dropWaiting (h : Replied s) {id : Nat} (hw : (s.tasks.waiter id).isOver = false) :
    Replied { s with tasks := s.tasks.setWaiter id .dropped } := by
  have htasks : { s with tasks := s.tasks.setWaiter id .dropped }.tasks
    = s.tasks.setDispatch id (fun d => { d with waiter := .dropped }) := rfl
  rw [Tasks.waiter] at hw
  cases hd : s.tasks.dispatches id with
  | none =>
    rw [hd] at hw
    cases hw
  | some d =>
    have hwaiter : d.waiter ≠ .absent := by
      intro habsent
      simp [hd, habsent, Waiter.isOver] at hw
    have hlate : d.delivery.phase ≠ .persisted := fun hp => hwaiter (h.early id d hd hp)
    apply h.handles hd rfl hlate (by simp) _ htasks (List.append_nil _).symm rfl rfl
    · intro r hr
      cases hr
    · intro c p status hp _
      rwa [Tasks.phase_setWaiter] at hp
    · have hzero : d.answers = 0 := if_pos (.inr hwaiter)
      rw [hzero, Dispatch.answers, if_pos (.inr (by simp))]
      rfl

/-- A handler that is dropped at the insertion of its row leaves no dispatch, and
it has not answered. -/
theorem forget (h : Replied s) {id : Nat} (hp : s.tasks.phase (.dispatch id) = some .persisted) :
    Replied { s with tasks := s.tasks.forget id } := by
  have hother : ∀ j d, (s.tasks.forget id).dispatches j = some d →
      j ≠ id ∧ s.tasks.dispatches j = some d := by
    intro j d hd
    by_cases hj : j = id
    · simp [Tasks.forget, hj] at hd
    · exact ⟨hj, by simpa [Tasks.forget, hj] using hd⟩
  refine ⟨?_, fun j d hd => h.early j d (hother j d hd).2,
    fun j d hd => h.rows j d (hother j d hd).2,
    h.reports, fun c p status hc => h.carried c p status (Tasks.phase_of_forget hc), ?_⟩
  · intro j
    show s.responses.countP _ = _
    rw [h.counted j]
    by_cases hj : j = id
    · obtain ⟨delivery, hdelivery, hphase⟩ := Option.map_eq_some_iff.mp hp
      obtain ⟨d, hd, rfl⟩ := Option.map_eq_some_iff.mp hdelivery
      rw [State.answered, State.answered, hj, hd]
      simp [Tasks.forget, Dispatch.answers, hphase]
    · simp [State.answered, Tasks.forget, hj]
  · intro j o hw
    rw [Tasks.waiter_forget] at hw
    split at hw
    · cases hw
    · exact h.received j o hw

theorem deliver (h : Replied s) (m : Manager) (c : Courier) (r : SendResult) :
    Replied { s with manager := m, tasks := s.tasks.deliver c r } := by
  refine h.keeps (Tasks.keeps_deliver _ c r) rfl (fun _ m hm => ⟨m, hm, rfl⟩)
    (fun _ he => he) ?_ ?_
  · intro c' p status hp hstatus
    rw [Tasks.phase_deliver] at hp
    split at hp
    · cases hp
      cases hstatus
    · exact .inl ⟨p, hp, hstatus⟩
  · intro id o hw
    rw [Tasks.waiter_deliver] at hw
    exact .inl hw

/-- The outcome that a handler receives is the one that its dispatch carried. -/
theorem replyOutcome (h : Replied s) {id : Nat} {o : DispatchOutcome}
    (hp : s.tasks.phase (.dispatch id) = some (.published o)) : Replied (s.replyOutcome id o) := by
  have ht : s.tasks.Keeps (s.replyOutcome id o).tasks :=
    (Tasks.keeps_move hp (by simp) (by simp)).trans (Tasks.keeps_handOver _ id o)
  refine h.keeps ht rfl (fun _ m hm => ⟨m, hm, rfl⟩) (fun _ he => he) ?_ ?_
  · intro c p status hq hstatus
    rw [State.replyOutcome, Tasks.phase_handOver, Tasks.phase_move] at hq
    split at hq
    · obtain ⟨_, _, rfl⟩ := Option.map_eq_some_iff.mp hq
      cases hstatus
    · exact .inl ⟨p, hq, hstatus⟩
  · intro j o' hw
    rcases Tasks.received_handOver hw with hold | ⟨rfl, rfl⟩
    · rw [Tasks.waiter_move] at hold
      exact .inl hold
    · exact .inr (h.carried _ _ _ hp rfl)

/-- The steps of tasks other than handlers. -/
theorem others {a : Act} (h : Replied s) (ha : ¬ a.ofHandler) (hstep : Stepped s a s') :
    Replied s' := by
  have hsame : ∀ id m, s.table.find id = some m →
      ∃ m', s.table.find id = some m' ∧ m'.partCount = m.partCount := fun _ m hm => ⟨m, hm, rfl⟩
  have hgrows : ∀ (e e' : Entry), e' ∈ s.history → e' ∈ s.history ++ [e] :=
    fun e e' he => List.mem_append_left _ he
  have hlast : ∀ e : Entry, e ∈ s.history ++ [e] := fun e =>
    List.mem_append_right _ List.mem_cons_self
  cases hstep with
  | syncSend | queueSend | respond | expire => exact absurd trivial ha
  | clock now => exact h.quiet rfl (fun _ _ _ hp _ => hp) rfl rfl rfl
  | prepareSend createdAt toNumber body partCount sync =>
    exact h.prepareSend createdAt toNumber body partCount sync
  | submit d hp =>
    exact h.moves (moves_move hp _) (Tasks.keeps_move hp (by simp) (by simp))
      (Tasks.waiter_move _ _ _) rfl hsame (hgrows _) (fun _ hq => by cases hq)
  | refused hp | wake hp =>
    exact h.moves (moves_move hp _) (Tasks.keeps_move hp (by simp) (by simp))
      (Tasks.waiter_move _ _ _) rfl hsame (hgrows _) (fun _ hq => by cases hq; exact .inr (hlast _))
  | manager _ hm => exact h.quiet rfl (fun _ _ _ hp _ => hp) rfl rfl rfl
  | answered r _ hm => exact h.deliver _ _ r
  | @recordStatus c r w ok hp hw =>
    refine h.moves (moves_move hp _) (Tasks.keeps_move hp (by simp) (by simp))
      (Tasks.waiter_move _ c _) rfl ?_ (fun _ he => he) (fun status hq =>
        .inl (hq ▸ congrArg some (dispatchOutcome_status r).symm))
    · intro id m hm
      show ∃ m', Table.find (if ok then setOutboundStatus s.table s.now c.id w else s.table) id
        = some m' ∧ _
      split
      · exact find_setOutboundStatus_partCount hm
      · exact hsame id m hm
  | @deferDispatch id r hp hw =>
    exact h.moves (moves_move hp _) (Tasks.keeps_move hp (by simp) (by simp))
      (Tasks.waiter_move _ (.dispatch id) _) rfl hsame (fun _ he => he) (fun status hq =>
        .inl (hq ▸ congrArg some (dispatchOutcome_status r).symm))
  | @recordMetric id o hp =>
    exact h.moves (moves_move hp (.counted o)) (Tasks.keeps_move hp (by simp) (by simp))
      (s.tasks.waiter_move (.dispatch id) (.counted o)) rfl hsame (fun _ he => he)
      (fun _ hq => .inl hq)
  | @publishDispatch id o hp =>
    exact h.moves (moves_move hp (.published o)) (Tasks.keeps_move hp (by simp) (by simp))
      (s.tasks.waiter_move (.dispatch id) (.published o)) rfl hsame (fun _ he => he)
      (fun _ hq => .inl hq)
  | deferReaper hp | publishReaper hp =>
    refine h.quiet rfl ?_ rfl rfl rfl
    intro c p status hq _
    cases c with
    | dispatch j => exact hq
    | reaper j => cases (Tasks.phase_leaveCurrent_reaper _ j).symm.trans hq
  | replyOutcome hp => exact h.replyOutcome hp
  | tick hr | queryQueued ok hr =>
    exact h.quiet rfl (fun c p _ hp _ => by rwa [phase_between hr] at hp) rfl rfl rfl
  | forget hp => exact h.forget hp
  | dropWaiting hw => exact h.dropWaiting hw
  | nextStuck hr =>
    refine h.quiet rfl ?_ rfl rfl rfl
    intro c p status hp hstatus
    cases c with
    | dispatch j => exact hp
    | reaper j =>
      rw [phase_setReaper_current] at hp
      split at hp <;> cases hp
      cases hstatus
  | abort =>
    refine h.quiet rfl ?_ rfl rfl rfl
    intro c p status hp _
    cases c with
    | dispatch j => exact hp
    | reaper j => cases hp

theorem step {a : Act} (h : Replied s) (hs : step s a = some s') : Replied s' := by
  cases a with
  | spawnDispatch id =>
    simp only [Outbound.step] at hs
    split at hs
    · rename_i d hd
      by_cases hp : d.delivery.phase = .persisted
      · rw [if_neg (fun hne => hne hp)] at hs
        split at hs <;> cases hs
        · exact (h.spawnDispatch hd hp).1
        · exact (h.spawnDispatch hd hp).2
      · rw [if_pos hp] at hs
        cases hs
    · cases hs
  | respond id =>
    simp only [Outbound.step] at hs
    split at hs <;> cases hs
    rename_i o hd
    have ho : .returned id o.status ∈ s.history := h.received id o (by rw [Tasks.waiter, hd])
    exact h.respond hd (by simp) (id_syncResponse id _ o) (fun m hm => reports_syncResponse ho hm)
  | expire id =>
    simp only [Outbound.step] at hs
    split at hs <;> cases hs
    rename_i hd
    exact h.respond hd (by simp) rfl (fun m hm => ⟨hm.symm, rfl⟩)
  | _ => exact h.others (by simp [Act.ofHandler]) (stepped_of_step hs)

theorem invariant : service.Inductive Machine.anything Replied where
  start s hs := by
    have hnone : ∀ id, s.tasks.dispatches id = none := by
      intro id
      rw [hs.tasks]
    refine ⟨?_, ?_, ?_, ?_, ?_, ?_⟩
    · intro id
      rw [hs.responses, State.answered, hnone]
      rfl
    · intro id d hd
      cases (hnone id).symm.trans hd
    · intro id d hd
      cases (hnone id).symm.trans hd
    · intro r hr
      rw [hs.responses] at hr
      cases hr
    · intro c p status hp
      rw [hs.tasks] at hp
      cases c <;> cases hp
    · intro id o hw
      rw [Tasks.waiter, hnone] at hw
      cases hw
  step _ _ _ h _ hs := h.step hs

end Replied

/-- Where all work is done every dispatch whose handler stayed has been answered for. -/
theorem Replied.once {s : State} (h : Replied s) (hdone : AllDone s) {id : Nat} {d : Dispatch}
    (hd : s.tasks.dispatches id = some d) (hstayed : d.waiter ≠ .dropped) :
    s.responses.countP (fun r => r.id = id) = 1 := by
  have hphase := hdone.deliveries (.dispatch id) d.delivery.phase
    (by simp [Tasks.phase, Tasks.delivery, hd])
  have hover := hdone.handlers id
  rw [Tasks.waiter, hd] at hover
  have hwaiter : d.waiter = .absent := by
    cases hw : d.waiter <;> simp_all [Waiter.isOver]
  rw [h.counted, State.answered, hd]
  simp only [Dispatch.answers, hphase, hwaiter]
  rfl

/-- In every reachable state a request that was accepted has had one response if
its dispatch was spawned and its handler neither waits nor was dropped with its
client, and none otherwise; once all work is done every one whose handler was not
dropped has had its response.  A response repeats the part count of the row, and
one that reports an outcome reports a terminal status that `send_sms` returned for
that message. -/
theorem answered_once {s : State} (hs : service.Reach Machine.anything s) :
    (∀ id, s.responses.countP (fun r => r.id = id) = s.answered id) ∧
    (AllDone s → ∀ id d, s.tasks.dispatches id = some d → d.waiter ≠ .dropped →
      s.responses.countP (fun r => r.id = id) = 1) ∧
    ∀ r ∈ s.responses, ∃ m, s.table.find r.id = some m ∧ r.Reports s.history m := by
  have h := Replied.invariant.reach hs
  exact ⟨h.counted, fun hdone _ _ hd hstayed => h.once hdone hd hstayed, h.reports⟩

/-- Two messages; the client of the second disconnects while it waits for the outcome. -/
def disconnected : List Act :=
  delivered ++ [.prepareSend 1 "+15551230001" "again" 1 true, .spawnDispatch 2, .dropHandler 2]

theorem answered_once_disconnected :
    (stateAfter disconnected).responses.countP (fun r => r.id = 1) = 1 ∧
    (stateAfter disconnected).responses.countP (fun r => r.id = 2) = 0 ∧
    ∀ r ∈ (stateAfter disconnected).responses, ∃ m,
      (stateAfter disconnected).table.find r.id = some m ∧
      r.Reports (stateAfter disconnected).history m := by
  have hs : service.exec fresh disconnected = some (stateAfter disconnected) := rfl
  have h := answered_once (Machine.reach_of_exec starting_fresh hs)
  exact ⟨h.1 1, h.1 2, h.2.2⟩

end Outbound
end GreenRelay
