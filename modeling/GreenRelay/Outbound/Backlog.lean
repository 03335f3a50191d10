/-
The reaper works off a backlog.

A message is overdue at a time when it is still `queued` and was stored before.
The reaper hands its rows to the modem in batches of the oldest ones, so a cycle
deals with two hundred overdue messages, or with all of them, as long as what it
is told is terminal and its statements go through (`Reaps`).  `Draining` is the
invariant that carries this over the runs of the service: the overdue messages
that are not in hand, neither in the batch nor being delivered, are at most so
many.  A cycle that queries takes its batch off that number, and every other
step, of whichever task, leaves it.
-/
import GreenRelay.Outbound.Steps
import Mathlib.Data.List.Sort

namespace GreenRelay
namespace Outbound

open Modem (SendResult)

def OutboundMessage.overdue (time : Nat) (m : OutboundMessage) : Bool :=
  m.status = .queued ∧ m.createdAt < time

/-- The overdue messages of a table. -/
def overdue (time : Nat) (t : OutboundMessages) : Nat := t.rows.countP (·.overdue time)

def Act.isQuery : Act → Bool
  | .queryQueued _ => true
  | _ => false

/-- New messages are stored at `time` or later, and the reaper runs at least the
grace period after `time`, reads its batches, is told terminal results and
records them. -/
def Reaps (time : Nat) (s : State) : Act → Prop
  | .prepareSend createdAt .. => time ≤ createdAt
  | .tick => time + grace ≤ s.now
  | .queryQueued ok => ok = true
  | .reply r => r.status ≠ .queued
  | .recordStatus (.reaper _) ok => ok = true
  | .abort => False
  | _ => True

/-! ## The first elements of a sorted list -/

/-- Where a sorted list is cut after `n`, at most `n` fewer elements of an
initial kind are left. -/
theorem countP_drop_le {α : Type} {key : α → Nat} {bound n : Nat} {P : α → Bool} {l : List α}
    (hsorted : l.Pairwise (fun a b => key a ≤ key b)) (hP : ∀ a ∈ l, P a = true ↔ key a < bound) :
    (l.drop n).countP P ≤ l.countP P - n := by
  have hsplit : l.countP P = (l.take n).countP P + (l.drop n).countP P := by
    rw [← List.countP_append, List.take_append_drop]
  by_cases hall : (l.take n).countP P = (l.take n).length
  · by_cases hlen : n ≤ l.length
    · rw [List.length_take, Nat.min_eq_left hlen] at hall
      omega
    · rw [List.drop_eq_nil_of_le (by omega), List.countP_nil]
      exact Nat.zero_le _
  · -- An element of another kind is kept, so no later one is of that kind.
    have hbelow : (l.take n ++ l.drop n).Pairwise (fun a b => key a ≤ key b) := by
      rwa [List.take_append_drop]
    have hzero : (l.drop n).countP P = 0 := by
      rw [List.countP_eq_length] at hall
      simp only [not_forall] at hall
      obtain ⟨a, ha, hPa⟩ := hall
      rw [List.countP_eq_zero]
      intro b hb hPb
      have hle := (List.pairwise_append.mp hbelow).2.2 a ha b hb
      have hlt := (hP b (List.mem_of_mem_drop hb)).mp hPb
      exact hPa ((hP a (List.mem_of_mem_take ha)).mpr (by omega))
    omega

theorem OutboundMessage.overdue_iff {time : Nat} {m : OutboundMessage} :
    m.overdue time = true ↔ m.status = .queued ∧ m.createdAt < time := by
  rw [OutboundMessage.overdue, decide_eq_true_eq]

/-- A batch leaves so many fewer of the overdue messages out. -/
theorem countP_left_le (t : OutboundMessages) {time olderThan : Nat} (hle : time ≤ olderThan)
    (limit : Nat) :
    t.rows.countP (fun m => m.overdue time
      && !((queuedOutboundMessages t olderThan limit).map (·.id)).contains m.id)
      ≤ overdue time t - limit := by
  let older := t.rows.filter (fun m => m.status = .queued ∧ m.createdAt < olderThan)
  let sorted := older.insertionSort (fun a b => a.createdAt ≤ b.createdAt)
  have hperm : sorted.Perm older := List.perm_insertionSort _ _
  have hsorted : sorted.Pairwise (fun a b => a.createdAt ≤ b.createdAt) :=
    List.pairwise_insertionSort _ _
  have hmem : ∀ m, m ∈ sorted ↔ m ∈ t.rows ∧ m.status = .queued ∧ m.createdAt < olderThan := by
    intro m
    rw [hperm.mem_iff, List.mem_filter, decide_eq_true_eq]
  -- An overdue message is among the older ones.
  have hcount : ∀ f : OutboundMessage → Bool, (∀ m, f m = true → m.overdue time = true) →
      t.rows.countP f = sorted.countP f := by
    intro f hf
    rw [hperm.countP_eq, List.countP_filter]
    apply List.countP_congr
    intro m _
    constructor
    · intro hm
      obtain ⟨hq, hlt⟩ := OutboundMessage.overdue_iff.mp (hf m hm)
      simp only [hm, hq, Bool.and_eq_true, decide_eq_true_eq, true_and]
      omega
    · intro hm
      exact (Bool.and_eq_true_iff.mp hm).1
  have hkind : ∀ m ∈ sorted, m.overdue time = true ↔ m.createdAt < time := by
    intro m hm
    rw [OutboundMessage.overdue_iff, and_iff_right ((hmem m).mp hm).2.1]
  have hdrop := countP_drop_le (n := limit) hsorted hkind
  have htotal : overdue time t = sorted.countP (·.overdue time) := hcount _ (fun _ h => h)
  rw [hcount _ (fun m hm => (Bool.and_eq_true_iff.mp hm).1), htotal]
  apply Nat.le_trans _ hdrop
  have hcut : sorted = sorted.take limit ++ sorted.drop limit := (List.take_append_drop _ _).symm
  have hkept : (sorted.take limit).countP (fun m => m.overdue time
      && !((queuedOutboundMessages t olderThan limit).map (·.id)).contains m.id) = 0 := by
    rw [List.countP_eq_zero]
    intro m hm hPm
    have hnot := (Bool.and_eq_true_iff.mp hPm).2
    have hin : ((queuedOutboundMessages t olderThan limit).map (·.id)).contains m.id = true :=
      List.contains_iff_mem.mpr (List.mem_map_of_mem hm)
    rw [hin] at hnot
    cases hnot
  rw [hcut, List.countP_append, hkept, Nat.zero_add, ← hcut]
  exact List.countP_mono_left (fun m _ hm => (Bool.and_eq_true_iff.mp hm).1)

/-! ## The invariant -/

/-- The reaper has the message and has not recorded its result. -/
def Phase.inHand : Phase → Bool
  | .submitting | .awaiting | .answered _ | .resolved _ => true
  | _ => false

/-- The result on its way to a courier. -/
def Phase.result : Phase → Option SendResult
  | .answered r | .resolved r => some r
  | _ => none

def Tasks.inHand (t : Tasks) (id : Nat) : Bool :=
  t.stuck.contains id || ((t.phase (.reaper id)).map Phase.inHand).getD false

/-- The overdue messages that the reaper does not have. -/
def State.left (time : Nat) (s : State) : Nat :=
  s.table.rows.countP (fun m => m.overdue time && !s.tasks.inHand m.id)

structure Draining (time n : Nat) (s : State) : Prop where
  cutoff : ∀ r c, s.tasks.reaper = some r → r.cutoff = some c → time ≤ c
  terminal : ∀ id p r, s.tasks.phase (.reaper id) = some p → p.result = some r → r.status ≠ .queued
  left : s.left time ≤ n

namespace Draining

variable {time n : Nat} {s s' : State} {c : Courier} {p q : Phase}

/-- A step after which the reaper has what it had, and no message is newly
overdue. -/
theorem keeps (h : Draining time n s)
    (hcutoff : ∀ r' c, s'.tasks.reaper = some r' → r'.cutoff = some c →
      ∃ r, s.tasks.reaper = some r ∧ r.cutoff = some c)
    (hterminal : ∀ id p r, s'.tasks.phase (.reaper id) = some p → p.result = some r →
      (∃ p', s.tasks.phase (.reaper id) = some p' ∧ p'.result = some r) ∨ r.status ≠ .queued)
    (hleft : s'.left time ≤ s.left time) : Draining time n s' where
  cutoff r' c hr' hc := by
    obtain ⟨r, hr, hrc⟩ := hcutoff r' c hr' hc
    exact h.cutoff r c hr hrc
  terminal id p r hp hr := by
    rcases hterminal id p r hp hr with ⟨p', hp', hr'⟩ | hr
    · exact h.terminal id p' r hp' hr'
    · exact hr
  left := Nat.le_trans hleft h.left

theorem left_congr (htable : s'.table = s.table)
    (h : ∀ id, s'.tasks.inHand id = s.tasks.inHand id) :
    s'.left time = s.left time := by
  simp only [State.left, htable, h]

/-- Nothing about the reaper or the table changes. -/
theorem quiet (h : Draining time n s) (htable : s'.table = s.table)
    (hreaper : s'.tasks.reaper = s.tasks.reaper) : Draining time n s' := by
  have hphase : ∀ id, s'.tasks.phase (.reaper id) = s.tasks.phase (.reaper id) := by
    intro id
    simp only [Tasks.phase, Tasks.delivery, hreaper]
  apply h.keeps
  · exact fun r c hr hc => ⟨r, hreaper ▸ hr, hc⟩
  · exact fun id p r hp hr => .inl ⟨p, hphase id ▸ hp, hr⟩
  · apply Nat.le_of_eq
    apply left_congr htable
    intro id
    simp only [Tasks.inHand, Tasks.stuck, hreaper, hphase]

theorem cutoff_move (t : Tasks) (c : Courier) (p : Phase) (r' : Reaper) (n : Nat)
    (hr' : (t.move c p).reaper = some r') (hc : r'.cutoff = some n) :
    ∃ r, t.reaper = some r ∧ r.cutoff = some n := by
  cases c with
  | dispatch id => exact ⟨r', hr', hc⟩
  | reaper id =>
    obtain ⟨r, hr, rfl⟩ := Option.map_eq_some_iff.mp hr'
    exact ⟨r, hr, hc⟩

theorem inHand_moves (hm : Moves s.tasks s'.tasks c p q) {id : Nat}
    (h : c = .reaper id → q.inHand = p.inHand) : s'.tasks.inHand id = s.tasks.inHand id := by
  rw [Tasks.inHand, Tasks.inHand, hm.stuck]
  by_cases hc : .reaper id = c
  · rw [hc, hm.after, hm.before, Option.map_some, Option.map_some, h hc.symm]
  · rw [hm.others _ hc]

/-- A courier goes on. -/
theorem moves (h : Draining time n s) (hm : Moves s.tasks s'.tasks c p q)
    (hcutoff : ∀ r' n, s'.tasks.reaper = some r' → r'.cutoff = some n →
      ∃ r, s.tasks.reaper = some r ∧ r.cutoff = some n)
    (hresult : ∀ id, c = .reaper id → ∀ r, q.result = some r →
      p.result = some r ∨ r.status ≠ .queued)
    (hleft : s'.left time ≤ s.left time) : Draining time n s' := by
  refine h.keeps hcutoff ?_ hleft
  intro id p' r hp' hr
  by_cases hc : .reaper id = c
  · rw [hc, hm.after, Option.some.injEq] at hp'
    rw [← hp'] at hr
    exact (hresult id hc.symm r hr).imp_left (fun hold => ⟨p, hc ▸ hm.before, hold⟩)
  · rw [hm.others _ hc] at hp'
    exact .inl ⟨p', hp', hr⟩

/-- A courier goes on with a message that stays in hand, or out of it. -/
theorem passes (h : Draining time n s) (hp : s.tasks.phase c = some p)
    (htasks : s'.tasks = s.tasks.move c q) (htable : s'.table = s.table)
    (hhand : q.inHand = p.inHand)
    (hresult : ∀ r, q.result = some r → p.result = some r ∨ r.status ≠ .queued) :
    Draining time n s' := by
  have hm : Moves s.tasks s'.tasks c p q := htasks ▸ moves_move hp q
  refine h.moves hm (htasks ▸ cutoff_move s.tasks c q) (fun _ _ => hresult) ?_
  exact Nat.le_of_eq (left_congr htable (fun id => inHand_moves hm (fun _ => hhand)))

theorem statusWrite_status {r : SendResult} {w : StatusWrite} (hw : statusWrite r = some w) :
    w.status ≠ .queued := by
  obtain ⟨hstatus, hterminal, _⟩ := statusWrite_outcome hw
  exact fun e => hterminal (hstatus ▸ e)

/-- The row of a result that is recorded is not overdue any more. -/
theorem left_setOutboundStatus {id : Nat} {w : StatusWrite} (hw : w.status ≠ .queued)
    (htable : s'.table = setOutboundStatus s.table s.now id w)
    (hhand : ∀ j, j ≠ id → s'.tasks.inHand j = s.tasks.inHand j) :
    s'.left time ≤ s.left time := by
  rw [State.left, State.left, htable]
  show ((s.table.rows.map (fun m => if m.id = id then w.apply s.now m else m)).countP _) ≤ _
  rw [List.countP_map]
  apply List.countP_mono_left
  intro m _ hm
  rw [Function.comp_apply, Bool.and_eq_true_iff] at hm
  by_cases hid : m.id = id
  · rw [if_pos hid, OutboundMessage.overdue_iff] at hm
    exact absurd hm.1.1 hw
  · rw [if_neg hid] at hm
    rw [Bool.and_eq_true_iff, ← hhand m.id hid]
    exact hm

theorem recordStatus (h : Draining time n s) {r : SendResult} {w : StatusWrite} {ok : Bool}
    (hc : Reaps time s (.recordStatus c ok)) (hp : s.tasks.phase c = some (.resolved r))
    (hw : statusWrite r = some w) : Draining time n (s.recordStatus c r w ok) := by
  have hm : Moves s.tasks (s.recordStatus c r w ok).tasks c (.resolved r)
      (.recorded (dispatchOutcome r)) := moves_move hp _
  refine h.moves hm (cutoff_move s.tasks c _) (fun _ _ _ hr => by cases hr) ?_
  have hothers : ∀ j, c ≠ .reaper j →
      (s.recordStatus c r w ok).tasks.inHand j = s.tasks.inHand j :=
    fun j hj => inHand_moves hm (fun e => absurd e hj)
  cases ok with
  | true =>
    apply left_setOutboundStatus (statusWrite_status hw) rfl
    intro j hj
    exact hothers j (fun e => hj (congrArg Courier.id e).symm)
  | false =>
    cases c with
    | reaper id => cases hc
    | dispatch id => exact Nat.le_of_eq (left_congr rfl (fun j => hothers j (fun e => by cases e)))

/-- The reaper leaves a row whose result it has recorded. -/
theorem leaves (h : Draining time n s) {id : Nat} (hp : s.tasks.phase (.reaper id) = some p)
    (hhand : p.inHand = false) (htasks : s'.tasks = s.tasks.leaveCurrent)
    (htable : s'.table = s.table) : Draining time n s' := by
  have hnone : ∀ j, s'.tasks.phase (.reaper j) = none := by
    rw [htasks]
    exact s.tasks.phase_leaveCurrent_reaper
  apply h.keeps
  · intro r' c hr' hc
    rw [htasks] at hr'
    obtain ⟨r, hr, rfl⟩ := Option.map_eq_some_iff.mp hr'
    exact ⟨r, hr, hc⟩
  · intro j p' r hp'
    rw [hnone] at hp'
    cases hp'
  · apply Nat.le_of_eq
    apply left_congr htable
    intro j
    rw [Tasks.inHand, Tasks.inHand, hnone, htasks, Tasks.stuck_leaveCurrent]
    cases hj : s.tasks.phase (.reaper j) with
    | none => rfl
    | some x =>
      have hid := Tasks.reaper_unique hj hp
      rw [hid, hp, Option.some.injEq] at hj
      rw [← hj, Option.map_some, Option.getD_some, hhand]
      rfl

theorem answered (h : Draining time n s) (c : Courier) (m : Manager) {r : SendResult}
    (hr : r.status ≠ .queued) :
    Draining time n { s with tasks := s.tasks.deliver c r, manager := m } := by
  by_cases hp : s.tasks.phase c = some .awaiting
  · refine h.passes hp (q := .answered r) (by rw [Tasks.deliver, if_pos hp]) rfl rfl ?_
    intro r' hr'
    cases hr'
    exact .inr hr
  · rw [Tasks.deliver, if_neg hp]
    exact h.quiet rfl rfl

/-- The reaper begins a cycle. -/
theorem tick (h : Draining time n s) (hr : s.tasks.reaper = some ⟨none, [], none⟩)
    (hnow : time + grace ≤ s.now) :
    Draining time n (s.setReaper (some ⟨some (s.now - grace), [], none⟩)) where
  cutoff r c hr' hc := by
    have hr := Option.some.inj hr'
    rw [← hr] at hc
    rw [← Option.some.inj hc]
    exact Nat.le_sub_of_add_le hnow
  terminal id p r hp := by
    rw [phase_between hr] at hp
    exact h.terminal id p r hp
  left := by
    have hhand : ∀ id, (s.setReaper (some ⟨some (s.now - grace), [], none⟩)).tasks.inHand id
        = s.tasks.inHand id := by
      intro id
      rw [Tasks.inHand, Tasks.inHand, phase_between hr]
      simp [Tasks.stuck, State.setReaper, hr]
    have hleft : (s.setReaper (some ⟨some (s.now - grace), [], none⟩)).left time = s.left time :=
      left_congr rfl hhand
    rw [hleft]
    exact h.left

/-- A batch takes its share of what was left. -/
theorem query (h : Draining time n s) {cutoff : Nat}
    (hr : s.tasks.reaper = some ⟨some cutoff, [], none⟩) :
    Draining time (n - queuedReapBatch)
      (s.setReaper (some ⟨none, queuedOutboundMessages s.table cutoff queuedReapBatch, none⟩)) where
  cutoff r c hr' hc := by
    cases hr'
    cases hc
  terminal id p r hp := by
    rw [phase_between hr] at hp
    exact h.terminal id p r hp
  left := by
    have hnone : ∀ id, s.tasks.phase (.reaper id) = none := phase_reaper_of_none (by rw [hr]; rfl)
    have hbefore : s.left time = overdue time s.table := by
      rw [State.left, overdue]
      apply List.countP_congr
      intro m _
      simp [Tasks.inHand, Tasks.stuck, hr, hnone]
    have hafter := countP_left_le s.table (h.cutoff _ cutoff hr rfl) queuedReapBatch
    have hhand : ∀ id, (s.setReaper (some ⟨none, queuedOutboundMessages s.table cutoff
        queuedReapBatch, none⟩)).tasks.inHand id
        = ((queuedOutboundMessages s.table cutoff queuedReapBatch).map (·.id)).contains id := by
      intro id
      rw [Tasks.inHand, phase_between hr, hnone]
      exact Bool.or_false _
    have hleft := h.left
    simp only [State.left, hhand]
    show s.table.rows.countP _ ≤ _
    omega

/-- The reaper takes a row of its batch in hand. -/
theorem nextStuck (h : Draining time n s) {cutoff : Option Nat} {m : OutboundMessage}
    {rest : List OutboundMessage} (hr : s.tasks.reaper = some ⟨cutoff, m :: rest, none⟩) :
    Draining time n (s.setReaper (some ⟨cutoff, rest,
      some ⟨m.id, ⟨m.toNumber, m.body, .submitting⟩⟩⟩)) := by
  have hnone : ∀ id, s.tasks.phase (.reaper id) = none := phase_reaper_of_none (by rw [hr]; rfl)
  apply h.keeps
  · intro r' c hr' hc
    cases hr'
    exact ⟨_, hr, hc⟩
  · intro id p r hp hresult
    rw [phase_setReaper_current] at hp
    split at hp <;> cases hp
    cases hresult
  · refine Nat.le_of_eq (left_congr rfl ?_)
    intro id
    rw [Tasks.inHand, Tasks.inHand, phase_setReaper_current, hnone]
    by_cases hid : m.id = id
    · simp [Tasks.stuck, State.setReaper, hr, hid, Phase.inHand]
    · simp [Tasks.stuck, State.setReaper, hr, hid, Ne.symm hid]

theorem prepareSend (h : Draining time n s) {createdAt : Nat} (htime : time ≤ createdAt)
    (toNumber body : String) (partCount : Nat) (sync : Bool) :
    Draining time n (s.prepareSend createdAt toNumber body partCount sync) where
  cutoff := h.cutoff
  terminal := h.terminal
  left := by
    apply Nat.le_trans (Nat.le_of_eq _) h.left
    show (s.table.rows ++ [_]).countP _ = _
    rw [List.countP_append, List.countP_singleton]
    have hnew : OutboundMessage.overdue time
        ⟨s.table.seq + 1, toNumber, body, .queued, partCount, none, none, createdAt,
          createdAt⟩ = false := by
      rw [OutboundMessage.overdue, decide_eq_false_iff_not]
      exact fun hlt => absurd hlt.2 (Nat.not_lt.mpr htime)
    rw [hnew, Bool.false_and]
    rfl

/-- The steps that neither query nor answer. -/
theorem others {a : Act} (h : Draining time n s) (hc : Reaps time s a) (ha : ¬ a.answers)
    (hquery : a.isQuery = false) (hstep : Stepped s a s') : Draining time n s' := by
  cases hstep with
  | clock now => exact h.quiet rfl rfl
  | prepareSend createdAt toNumber body partCount sync =>
    exact h.prepareSend hc toNumber body partCount sync
  | syncSend hp | queueSend d hp => exact h.quiet rfl rfl
  | submit d hp => exact h.passes hp rfl rfl rfl (fun r hr => by cases hr)
  | refused hp =>
    refine h.passes hp rfl rfl rfl (fun r hr => ?_)
    cases hr
    exact .inr (by simp [unavailable])
  | wake hp => exact h.passes hp rfl rfl rfl (fun r hr => .inl hr)
  | manager _ hm => exact h.quiet rfl rfl
  | answered r hanswers hm => exact absurd hanswers ha
  | recordStatus ok hp hw => exact h.recordStatus hc hp hw
  | deferDispatch hp hw => exact h.quiet rfl rfl
  | deferReaper hp hw => exact absurd (statusWrite_eq_none hw) (h.terminal _ _ _ hp rfl)
  | recordMetric hp | publishDispatch hp | replyOutcome hp => exact h.quiet rfl rfl
  | publishReaper hp => exact h.leaves hp rfl rfl rfl
  | respond parts hw | expire parts hw | forget hp | dropWaiting hw => exact h.quiet rfl rfl
  | tick hr => exact h.tick hr hc
  | queryQueued ok hr => cases hquery
  | nextStuck hr => exact h.nextStuck hr
  | abort => exact hc.elim

theorem step {a : Act} (h : Draining time n s) (hc : Reaps time s a)
    (hs : step s a = some s') :
    Draining time (n - if a.isQuery then queuedReapBatch else 0) s' := by
  cases a with
  | queryQueued ok =>
    have hok : ok = true := hc
    subst hok
    simp only [Outbound.step] at hs
    split at hs <;> cases hs
    exact h.query ‹_›
  | reply r =>
    obtain ⟨q, _, rfl⟩ := Option.map_eq_some_iff.mp hs
    exact h.answered _ _ hc
  | disconnect =>
    obtain ⟨q, _, rfl⟩ := Option.map_eq_some_iff.mp hs
    exact h.answered _ _ (by simp [droppedReply])
  | dropQueued =>
    simp only [Outbound.step] at hs
    split at hs <;> cases hs
    exact h.answered _ _ (by simp [droppedReply])
  | _ => exact h.others hc (by simp [Act.answers]) rfl (stepped_of_step hs)

/-- Every query of a run takes its batch off. -/
theorem exec {acts : List Act} (h : Draining time n s) (hc : service.Meets (Reaps time) s acts)
    (hs : service.exec s acts = some s') :
    Draining time (n - queuedReapBatch * acts.countP Act.isQuery) s' := by
  induction acts generalizing s n with
  | nil =>
    rw [Option.some.inj hs] at h
    exact h
  | cons a acts ih =>
    obtain ⟨u, hu, hrest⟩ := Option.bind_eq_some_iff.mp hs
    have hlater := ih (h.step hc.1 hu) (hc.2 u hu) hrest
    have hcount : n - (if a.isQuery then queuedReapBatch else 0)
        - queuedReapBatch * acts.countP Act.isQuery
        = n - queuedReapBatch * (a :: acts).countP Act.isQuery := by
      rw [List.countP_cons, Nat.mul_add, Nat.sub_sub, Nat.add_comm]
      cases a.isQuery <;> simp
    rw [← hcount]
    exact hlater

end Draining

/-- Of the messages that are overdue when the reaper is between two cycles, at
least two hundred are gone for every cycle that it has gone through since, or
all of them, whatever the other tasks do meanwhile. -/
theorem backlog_drains {time : Nat} {s s' : State} {acts : List Act}
    (hidle : s.tasks.reaper = some ⟨none, [], none⟩)
    (hc : service.Meets (Reaps time) s acts) (hs : service.exec s acts = some s')
    (hidle' : s'.tasks.reaper = some ⟨none, [], none⟩) :
    overdue time s'.table ≤ overdue time s.table - queuedReapBatch * acts.countP Act.isQuery := by
  have hnothing : ∀ u : State, u.tasks.reaper = some ⟨none, [], none⟩ →
      u.left time = overdue time u.table := by
    intro u hu
    have hnone : ∀ id, u.tasks.phase (.reaper id) = none := phase_reaper_of_none (by rw [hu]; rfl)
    rw [State.left, overdue]
    apply List.countP_congr
    intro m _
    simp [Tasks.inHand, Tasks.stuck, hu, hnone]
  have hstart : Draining time (overdue time s.table) s := by
    refine ⟨?_, ?_, Nat.le_of_eq (hnothing s hidle)⟩
    · intro r c hr hc
      rw [hidle] at hr
      cases hr
      cases hc
    · intro id p r hp
      rw [phase_reaper_of_none (by rw [hidle]; rfl)] at hp
      cases hp
  rw [← hnothing s' hidle']
  exact (hstart.exec hc hs).left

/-- Two hundred and one messages that an earlier run left. -/
def crowded : State :=
  { fresh with
    table := (List.range 201).foldl (fun t i =>
      t.insert (fun id => ⟨id, "+15551230000", "hello", .queued, 1, none, none, i, i⟩)
        (fun _ => rfl)) .empty }

/-- The reaper delivers one message. -/
def reapOne (id : Nat) : List Act :=
  [.nextStuck, .submit (.reaper id), .recv, .reply ⟨.sent, some "42", none, none⟩,
    .wake (.reaper id), .recordStatus (.reaper id) true, .publish (.reaper id)]

/-- A cycle of the reaper that delivers a full batch. -/
def fullCycle : List Act :=
  [.clock (301 * nanosPerSec), .tick] ++
    (.queryQueued true :: (List.range 200).flatMap (fun i => reapOne (i + 1)))

theorem fullCycle_meets : service.Meets (Reaps nanosPerSec) crowded fullCycle := by
  refine .cons trivial rfl (.cons (Nat.le_refl (301 * nanosPerSec)) rfl
    (Machine.meets_of_forall (fun a ha s => ?_)))
  rcases List.mem_cons.mp ha with rfl | ha
  · rfl
  · obtain ⟨i, -, ha⟩ := List.mem_flatMap.mp ha
    simp only [reapOne, List.mem_cons, List.not_mem_nil, or_false] at ha
    rcases ha with rfl | rfl | rfl | rfl | rfl | rfl | rfl <;> simp [Reaps]

/-- One message is left for the next cycle. -/
theorem backlog_drains_fullCycle :
    overdue nanosPerSec crowded.table = 201 ∧
      ∃ s, service.exec crowded fullCycle = some s ∧ overdue nanosPerSec s.table ≤ 1 := by
  have hcrowded : overdue nanosPerSec crowded.table = 201 := by decide +kernel
  have hqueries : queuedReapBatch * fullCycle.countP Act.isQuery = 200 := by decide +kernel
  have hrun : (service.exec crowded fullCycle).map (fun s => s.tasks.reaper)
      = some (some ⟨none, [], none⟩) := by decide +kernel
  obtain ⟨s, hs, hidle⟩ := Option.map_eq_some_iff.mp hrun
  have hdrains := @backlog_drains nanosPerSec _ _ _ rfl fullCycle_meets hs hidle
  rw [hcrowded, hqueries] at hdrains
  exact ⟨hcrowded, s, hs, hdrains⟩

end Outbound
end GreenRelay
