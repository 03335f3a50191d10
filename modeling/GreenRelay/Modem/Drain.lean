/-
The drain loop comes to an end and stores a message once.

A text that announces indices makes the queue longer, and a text that announces
its own index makes the loop read its message again.  This does no harm as long
as the message is gone by then.  The loop then has a measure: an index of the
first queue may bring all the announcements of one text, and so may a message
that has not been dealt with, but an index that a text has announced finds such
a message or finds nothing.
-/
import GreenRelay.Modem.MessageStore

namespace GreenRelay
namespace Modem

open Sms Scripted

/-! ## What a round changes -/

/-- Nothing more is to be done for the index: its message is kept, or there is none. -/
def MessageStore.Settled (s : MessageStore) (index : Nat) : Prop :=
  index ∈ s.kept ∨ ∀ m ∈ s.stored, m.index ≠ index

theorem MessageStore.pop_cases {s : MessageStore} {index : Nat} {pending : List Nat}
    (h : index :: pending = s.queued ++ s.echoed) :
    (s.queued = [] ∧ s.echoed = index :: pending ∧
      s.pop index = { s with echoed := pending, handling := some index }) ∨
    ∃ queued, s.queued = index :: queued ∧ pending = queued ++ s.echoed ∧
      s.pop index = { s with queued := queued, handling := some index } := by
  unfold MessageStore.pop
  cases hqueued : s.queued with
  | nil =>
    rw [hqueued, List.nil_append] at h
    exact .inl ⟨rfl, h.symm, by rw [← h, List.tail_cons]⟩
  | cons first queued =>
    rw [hqueued, List.cons_append] at h
    obtain ⟨rfl, hpending⟩ := List.cons.inj h
    exact .inr ⟨queued, rfl, hpending, rfl⟩

/-- The state after a round in terms of the state after the pop. -/
structure Changed (s : MessageStore) (index : Nat) (pushed : List Nat) (s' : MessageStore) :
    Prop where
  unread : s'.unread = s.unread
  queued : s'.queued = s.queued
  echoed : s'.echoed = s.echoed ++ pushed
  stored : ∀ m ∈ s'.stored, m ∈ s.stored
  kept : ∀ k ∈ s.kept, k ∈ s'.kept
  rows : s'.rows = s.rows ∨
    s'.rows = s.rows ++ [index] ∧ (∃ m ∈ s.stored, m.index = index) ∧ s'.Settled index

theorem Dealt.changed {s s' : MessageStore} {index : Nat} {pushed : List Nat}
    (h : Dealt (s.echo pushed) index s') (hsome : ∃ m ∈ s.stored, m.index = index) :
    Changed s index pushed s' := by
  have hkept : ∀ k ∈ s.kept, k ∈ s.kept ++ [index] := fun k hk => List.mem_append_left _ hk
  have hlast : index ∈ s.kept ++ [index] := List.mem_append_right _ (List.mem_singleton_self _)
  cases h with
  | uninserted => exact ⟨rfl, rfl, rfl, fun m hm => hm, hkept, .inl rfl⟩
  | deleted =>
    refine ⟨rfl, rfl, rfl, fun m hm => (List.mem_filter.mp hm).1, fun k hk => hk,
      .inr ⟨rfl, hsome, .inr (fun m hm => ?_)⟩⟩
    simpa using (List.mem_filter.mp hm).2
  | refused => exact ⟨rfl, rfl, rfl, fun m hm => hm, hkept, .inr ⟨rfl, hsome, .inl hlast⟩⟩

theorem Handled.changed {s s' : MessageStore} {index : Nat} {pushed : List Nat}
    (h : Handled s index pushed s') : Changed s index pushed s' := by
  cases h with
  | absent => exact ⟨rfl, rfl, (List.append_nil _).symm, fun m hm => hm, fun k hk => hk, .inl rfl⟩
  | stored m s' hm hindex hdealt => exact hdealt.changed ⟨m, hm, hindex⟩

theorem Changed.settled {s s' : MessageStore} {index k : Nat} {pushed : List Nat}
    (h : Changed s index pushed s') (hk : s.Settled k) : s'.Settled k := by
  rcases hk with hkept | hgone
  · exact .inl (h.kept k hkept)
  · exact .inr (fun m hm => hgone m (h.stored m hm))

/-! ## A row for each message -/

/-- There is at most one row for the index, counting one that the first queue may
still bring, and where there is one the index is settled. -/
structure MessageStore.Once (s : MessageStore) (index : Nat) : Prop where
  count : s.rows.count index + s.queued.count index ≤ 1
  settled : s.rows.count index = 1 → s.Settled index

/-- The state at the head of the loop. -/
structure Ready (stored : List StoredSms) (first pending : List Nat) (s : MessageStore) : Prop where
  unread : s.unread = []
  queue : pending = s.queued ++ s.echoed
  stored : ∀ m ∈ s.stored, m ∈ stored
  once : ∀ k, first.count k ≤ 1 → s.Once k
  harmless : s.Harmless

variable {stored : List StoredSms} {first pending : List Nat} {s s' : MessageStore} {index : Nat}

theorem ready_initial (stored : List StoredSms) (first : List Nat) :
    Ready stored first first (.initial stored first) where
  unread := rfl
  queue := (List.append_nil first).symm
  stored := fun _ hm => hm
  once := by
    intro k hk
    refine ⟨?_, fun h => ?_⟩
    · simpa [MessageStore.initial] using hk
    · simp [MessageStore.initial] at h
  harmless := ⟨fun _ h => absurd h List.not_mem_nil, fun _ h => absurd h List.not_mem_nil⟩

/-- An index whose message is still there has no row yet, and the rest of the
first queue will not bring it. -/
theorem Ready.unstored (h : Ready stored first (index :: pending) s)
    (hcount : first.count index ≤ 1)
    (hsome : ∃ m ∈ s.stored, m.index = index) :
    s.rows.count index = 0 ∧ (s.pop index).queued.count index = 0 := by
  have honce := h.once index hcount
  have hle := honce.count
  rcases MessageStore.pop_cases h.queue with ⟨hqueued, hechoed, hpop⟩ | ⟨queued, hqueued, -, hpop⟩
  · rw [hpop, hqueued]
    refine ⟨?_, rfl⟩
    have hne : s.rows.count index ≠ 1 := by
      intro hone
      rcases honce.settled hone with hkept | hgone
      · exact h.harmless.unechoed index hkept (by rw [hechoed]; exact List.mem_cons_self)
      · obtain ⟨m, hm, hindex⟩ := hsome
        exact hgone m hm hindex
    omega
  · rw [hqueued, List.count_cons_self] at hle
    rw [hpop]
    show s.rows.count index = 0 ∧ queued.count index = 0
    omega

/-- A round leads back to the head of the loop. -/
theorem Ready.round (h : Ready stored first (index :: pending) s) {pushed : List Nat}
    (hround : Changed (s.pop index) index pushed s') (hharmless : s'.Harmless) :
    Ready stored first (pending ++ pushed) s' := by
  have hpop : (s.pop index).unread = s.unread ∧ (s.pop index).stored = s.stored ∧
      (s.pop index).rows = s.rows ∧ (∀ k, s.Settled k → (s.pop index).Settled k) ∧
      pending = (s.pop index).queued ++ (s.pop index).echoed ∧
      ∀ k, (s.pop index).queued.count k ≤ s.queued.count k := by
    rcases MessageStore.pop_cases h.queue with
      ⟨hqueued, -, hpop⟩ | ⟨queued, hqueued, hpending, hpop⟩ <;> rw [hpop]
    · exact ⟨rfl, rfl, rfl, fun k hk => hk, by rw [hqueued, List.nil_append],
        fun k => Nat.le_refl _⟩
    · refine ⟨rfl, rfl, rfl, fun k hk => hk, hpending, fun k => ?_⟩
      rw [hqueued]
      exact List.count_le_count_cons
  obtain ⟨hunread, hstored, hrows, hsettled, hqueue, hqueued⟩ := hpop
  refine ⟨hround.unread.trans (hunread.trans h.unread), ?_, fun m hm => ?_, fun k hk => ?_,
    hharmless⟩
  · rw [hround.queued, hround.echoed, ← List.append_assoc, ← hqueue]
  · exact h.stored m (hstored ▸ hround.stored m hm)
  · have honce := h.once k hk
    have hle := honce.count
    have hleft : s'.queued.count k ≤ s.queued.count k := by
      rw [hround.queued]
      exact hqueued k
    rcases hround.rows with hsame | ⟨hnew, hsome, hdone⟩
    · rw [hrows] at hsame
      refine ⟨by rw [hsame]; omega, fun hone => ?_⟩
      rw [hsame] at hone
      exact hround.settled (hsettled k (honce.settled hone))
    · rw [hrows] at hnew
      rw [hstored] at hsome
      by_cases hindex : k = index
      · subst hindex
        obtain ⟨hnone, hlast⟩ := h.unstored hk hsome
        refine ⟨?_, fun _ => hdone⟩
        rw [hnew, List.count_append, hnone, hround.queued, hlast, List.count_singleton_self]
      · have hother : s'.rows.count k = s.rows.count k := by
          rw [hnew, List.count_append, List.count_singleton, if_neg (by simpa using Ne.symm hindex)]
          rfl
        refine ⟨by rw [hother]; omega, fun hone => ?_⟩
        rw [hother] at hone
        exact hround.settled (hsettled k (honce.settled hone))

/-! ## The measure -/

/-- The messages that have not been dealt with. -/
def MessageStore.fresh (s : MessageStore) : Nat :=
  s.stored.countP (fun m => decide (m.index ∉ s.kept))

def MessageStore.freshAt (s : MessageStore) (index : Nat) : Nat :=
  (s.stored.filter (fun m => m.index == index)).countP (fun m => decide (m.index ∉ s.kept))

/-- What is still to be done, where a text has at most `a` announcements. -/
def MessageStore.load (a : Nat) (s : MessageStore) : Nat :=
  (a + 1) * s.queued.length + s.echoed.length + a * s.fresh

/-- Dealing with an index takes its messages from those that are fresh. -/
theorem Dealt.fresh (h : Dealt s index s') : s.fresh = s'.fresh + s.freshAt index := by
  have hsplit := List.countP_eq_countP_filter_add s.stored
    (fun m => decide (m.index ∉ s.kept)) (fun m => m.index != index)
  simp only [bne, Bool.not_not] at hsplit
  rw [MessageStore.fresh, hsplit]
  congr 1
  have hkeep : s.stored.countP (fun m => decide (m.index ∉ s.kept ++ [index])) =
      (s.stored.filter (fun m => m.index != index)).countP
        (fun m => decide (m.index ∉ s.kept)) := by
    rw [List.countP_filter]
    congr 1
    funext m
    by_cases hk : m.index ∈ s.kept <;> by_cases hi : m.index = index <;> simp [hk, hi]
  cases h with
  | uninserted => exact hkeep.symm
  | deleted => rfl
  | refused => exact hkeep.symm

theorem Ready.load_lt (h : Ready stored first (index :: pending) s) {a : Nat}
    (ha : ∀ m ∈ stored, m.announced.length ≤ a) {pushed : List Nat}
    (hround : Handled (s.pop index) index pushed s') : s'.load a < s.load a := by
  have hchanged := hround.changed
  rw [MessageStore.load, MessageStore.load, hchanged.queued, hchanged.echoed, List.length_append]
  -- An index of the first queue pays for all that is pushed.  One that a text has
  -- pushed is not kept, so its message is fresh and pays.
  rcases MessageStore.pop_cases h.queue with
    ⟨hqueued, hechoed, hpop⟩ | ⟨queued, hqueued, -, hpop⟩ <;> rw [hpop] at hround ⊢
  · have hunkept : index ∉ s.kept := by
      intro hkept
      exact h.harmless.unechoed index hkept (by rw [hechoed]; exact List.mem_cons_self)
    have hlength : s.echoed.length = pending.length + 1 := by rw [hechoed, List.length_cons]
    rw [hqueued]
    cases hround with
    | absent =>
      have hfresh : MessageStore.fresh { s with echoed := pending, handling := some index } =
          s.fresh := rfl
      simp only [hfresh, List.length_nil]
      omega
    | stored m s' hm hindex hdealt =>
      have hpushed := ha m (h.stored m hm)
      have hpays : 1 ≤ s.freshAt index := by
        refine List.countP_pos_iff.mpr ⟨m, List.mem_filter.mpr ⟨hm, by simpa using hindex⟩, ?_⟩
        rw [hindex]
        exact decide_eq_true hunkept
      have hfresh : s'.fresh + 1 ≤ s.fresh := by
        have hsplit : s.fresh = s'.fresh + s.freshAt index := hdealt.fresh
        omega
      have hmul := Nat.mul_le_mul_left a hfresh
      rw [Nat.mul_add, Nat.mul_one] at hmul
      simp only [List.length_nil]
      omega
  · rw [hqueued, List.length_cons, Nat.mul_add (a + 1), Nat.mul_one]
    cases hround with
    | absent =>
      have hfresh : MessageStore.fresh { s with queued := queued, handling := some index } =
          s.fresh := rfl
      simp only [hfresh, List.length_nil]
      omega
    | stored m s' hm hindex hdealt =>
      have hpushed := ha m (h.stored m hm)
      have hfresh : s'.fresh ≤ s.fresh := by
        have hsplit : s.fresh = s'.fresh + s.freshAt index := hdealt.fresh
        omega
      have hmul := Nat.mul_le_mul_left a hfresh
      simp only
      omega

/-! ## The loop -/

/-- No index that is at most once in the first queue has two rows. -/
def OneRow (first rows : List Nat) : Prop := ∀ k, first.count k ≤ 1 → rows.count k ≤ 1

theorem Ready.oneRow (h : Ready stored first pending s) : OneRow first s.rows := by
  intro k hk
  have := (h.once k hk).count
  omega

/-- Nor will it with a row for a message that is still there. -/
theorem Ready.oneRow_insert (h : Ready stored first (index :: pending) s)
    (hsome : ∃ m ∈ s.stored, m.index = index) : OneRow first (s.rows ++ [index]) := by
  intro k hk
  rw [List.count_append]
  by_cases hindex : k = index
  · subst hindex
    rw [(h.unstored hk hsome).1, List.count_singleton_self]
  · rw [List.count_singleton, if_neg (by simpa using Ne.symm hindex)]
    exact h.oneRow k hk

theorem total_drainStep (h : Ready stored first (index :: pending) s) {n : Nat}
    (hshort : ∀ m ∈ stored, m.report.length ≤ n) (events : Bool) :
    Total harmless (fun s' => s' = s) (n + 7) (drainStep events (index :: pending))
      (fun r s' => ∃ pushed, r = .inl (pending ++ pushed) ∧ Handled (s.pop index) index pushed s')
      (fun s' => OneRow first s'.rows) := by
  have hpop : (s.pop index).unread = s.unread ∧ (s.pop index).stored = s.stored ∧
      (s.pop index).rows = s.rows ∧ (s.pop index).handling = some index := by
    rcases MessageStore.pop_cases h.queue with ⟨-, -, hpop⟩ | ⟨queued, -, -, hpop⟩ <;> rw [hpop] <;>
      exact ⟨rfl, rfl, rfl, rfl⟩
  obtain ⟨hunread, hstored, hrows, hhandling⟩ := hpop
  have hpopped : Total harmless (fun s' => s' = s) 0 (emit (.popped index))
      (fun _ s' => s' = s.pop index) (fun s' => OneRow first s'.rows) :=
    total_emit (fun s₁ s₂ hs₁ hstep => by rw [← hs₁]; exact hstep.2)
  have hhandle := @total_handleInboundInner (OneRow first) (s.pop index) index n
    (hunread.trans h.unread) (by rw [hrows]; exact h.oneRow)
    (by rw [hstored, hrows]; exact h.oneRow_insert)
    (by rw [hstored]; exact fun m hm => hshort m (h.stored m hm)) hhandling events pending
  unfold drainStep
  refine total_mono (total_bind (n := 0) (k := n + 7) hpopped (fun _ => ?_)) (by omega)
  refine total_bind (k := 0) hhandle (fun pending' => total_pure (fun s' hs' => ?_))
  obtain ⟨pushed, rfl, hhandled⟩ := hs'
  exact ⟨pushed, rfl, hhandled⟩

/-- The loop returns, with at most one row for each index that was queued once. -/
theorem total_drainPending (events : Bool) (stored : List StoredSms) (first : List Nat) {a n : Nat}
    (ha : ∀ m ∈ stored, m.announced.length ≤ a)
    (hshort : ∀ m ∈ stored, m.report.length ≤ n) (bound : Nat) (pending : List Nat) :
    Total harmless (fun s => Ready stored first pending s ∧ s.load a < bound) (bound * (n + 7))
      (drainPending events pending) (fun _ s => OneRow first s.rows)
      (fun s => OneRow first s.rows) := by
  refine total_iterate (fun pending => (advancing_drainStep events pending).taken)
    (I := Ready stored first) (fun _ s => s.load a) (fun pending s hready => ?_) bound pending
  cases pending with
  | nil => exact total_pure (fun s' hs' => by rw [hs']; exact hready.oneRow)
  | cons index pending =>
    have hstep := total_kept (M := harmless) (J := MessageStore.Harmless) (fun _ _ _ _ h => h.1)
      (total_drainStep hready hshort events)
    refine total_conseq hstep (Nat.le_refl _)
      (fun s' hs' => ⟨hs', by rw [hs']; exact hready.harmless⟩) (fun r s' hr => ?_)
    obtain ⟨⟨pushed, rfl, hhandled⟩, hharmless⟩ := hr
    exact ⟨hready.round hhandled.changed hharmless, hready.load_lt ha hhandled⟩

theorem exists_bound (size : StoredSms → Nat) (stored : List StoredSms) :
    ∃ n, ∀ m ∈ stored, size m ≤ n := by
  induction stored with
  | nil => exact ⟨0, fun m hm => absurd hm List.not_mem_nil⟩
  | cons m stored ih =>
    obtain ⟨n, hn⟩ := ih
    refine ⟨max (size m) n, fun k hk => ?_⟩
    rcases List.mem_cons.mp hk with rfl | hk
    · exact Nat.le_max_left _ _
    · exact Nat.le_trans (hn k hk) (Nat.le_max_right _ _)

/-- In every run in which no line of a text does harm, the loop comes to an end, and
a message whose index is once in the first queue gets at most one row. -/
theorem drain_stores_once (events : Bool) (stored : List StoredSms) (pending : List Nat) :
    ∃ bound, ∀ script s',
      (storage.restrict (fun _ _ s' => s'.Harmless)).Path (.initial stored pending)
        (drainPending events pending script).trace s' →
      ((drainPending events pending script).outcome = .done () ∨
        (drainPending events pending script).outcome = .cut ∧ script.length < bound) ∧
      ∀ m ∈ stored, pending.count m.index = 1 → s'.rows.count m.index ≤ 1 := by
  obtain ⟨a, ha⟩ := exists_bound (fun m => m.announced.length) stored
  obtain ⟨n, hshort⟩ := exists_bound (fun m => m.report.length) stored
  have hloop := total_drainPending events stored pending ha hshort
    (MessageStore.load a (.initial stored pending) + 1) pending
  refine ⟨(MessageStore.load a (.initial stored pending) + 1) * (n + 7), fun script s' hpath => ?_⟩
  have hrun := hloop script _ s' ⟨ready_initial stored pending, Nat.lt_succ_self _⟩ hpath
  have hrows : ∀ rows, OneRow pending rows →
      ∀ m ∈ stored, pending.count m.index = 1 → rows.count m.index ≤ 1 :=
    fun rows h m _ hcount => h m.index (Nat.le_of_eq hcount)
  cases hr : (drainPending events pending script).outcome with
  | done v =>
    rw [hr] at hrun
    exact ⟨.inl rfl, hrows _ hrun.1⟩
  | failed =>
    rw [hr] at hrun
    exact hrun.elim
  | cut =>
    rw [hr] at hrun
    exact ⟨.inr ⟨rfl, hrun.2⟩, hrows _ hrun.1⟩

/-- A modem with one slot, which is cleared by a removal or says ERROR to it. -/
def oneSlot (index : Nat) (removes : Bool) (s : MessageStore) (text : String) :
    Option MessageStore :=
  if text = cmgrCommand index then
    match s.stored.find? (fun m => m.index == index) with
    | some m => some (s.hear (m.report ++ ["OK"]))
    | none => some (s.hear ["ERROR"])
  else if text = cmgdCommand index then
    some (if removes then (s.remove index).hear ["OK"] else (s.keep index).hear ["ERROR"])
  else none

def replay (index : Nat) (removes : Bool) (s : MessageStore) : Event → Option MessageStore
  | .wrote (.command text) .ok => oneSlot index removes s text
  | .wrote _ _ => none
  | .read (.line line) =>
    match s.unread with
    | [] => none
    | next :: unread => if next = line then some { s with unread := unread } else none
  | .read _ => none
  | .pushed i => some (s.echo [i])
  | .popped i => some (s.pop i)
  | .inserted _ reply => some (s.insert reply)
  | _ => some s

theorem answers_oneSlot (index : Nat) (removes : Bool) (s s' : MessageStore) (text : String)
    (h : oneSlot index removes s text = some s') : s.Answers text s' := by
  unfold oneSlot at h
  split at h
  · next hread =>
    subst hread
    split at h
    · next m hm =>
      have hindex : m.index = index := by simpa using List.find?_some hm
      rw [← hindex, ← Option.some.inj h]
      exact .shown m (List.mem_of_find?_eq_some hm)
    · next hnone =>
      have hother : ∀ m ∈ s.stored, m.index ≠ index := by simpa using hnone
      rw [← Option.some.inj h]
      exact .absent index "ERROR" .error hother (by decide) (fun h => by cases h)
  · split at h
    · next hdelete =>
      subst hdelete
      rw [← Option.some.inj h]
      cases removes with
      | true => exact .deleted index
      | false => exact .refused index "ERROR" .error (by decide) (fun h => by cases h)
    · cases h

theorem step_replay (index : Nat) (removes : Bool) (s : MessageStore) (e : Event)
    (s' : MessageStore) (h : replay index removes s e = some s') : storage.step s e s' := by
  cases e with
  | wrote out reply =>
    cases out <;> cases reply <;> first
      | exact answers_oneSlot index removes s s' _ h
      | cases h
  | read reply =>
    cases reply with
    | line line =>
      unfold replay at h
      simp only at h
      split at h
      · cases h
      · next hunread =>
        split at h
        · next heq =>
          subst heq
          obtain rfl := Option.some.inj h
          exact ⟨hunread, rfl⟩
        · cases h
    | timeout => cases h
    | ioError => cases h
  | _ => exact (Option.some.inj h).symm

/-- A message whose text announces the message. -/
def selfAnnouncing : StoredSms where
  index := 7
  header := cmgrHeader "+15551234567"
  text := ["+CMTI: \"SM\",7"]
  isLine := isLine_header (by decide +kernel)
  isHeader := isCmgrHeader_header "+15551234567"
  hasSender := by
    rw [parseCmgrSender_header (by decide +kernel)]
    rfl

/-- The message is read and a row inserted for it, and the removal is about to be
answered. -/
def takesMessage : List Answer :=
  .quiet :: (selfAnnouncing.report ++ ["OK"]).map Answer.line ++ [.quiet, .quiet]

instance MessageStore.decidableHarmless (s : MessageStore) : Decidable s.Harmless :=
  decidable_of_iff ((∀ line ∈ s.unread.dropLast, classifyLine line = .nonTerminating) ∧
    ∀ index ∈ s.kept, index ∉ s.echoed)
    ⟨fun h => ⟨h.1, h.2⟩, fun h => ⟨h.legible, h.unechoed⟩⟩

/-- The message is removed, and what its text announces is not found. -/
def removedMessage : List Answer :=
  takesMessage ++ .line "OK" ::
    [.quiet, .line "ERROR", .quiet, .line "ERROR", .quiet, .line "ERROR", .quiet]

theorem removed_harmless : ∃ s', (storage.restrict (fun _ _ s' => s'.Harmless)).Path
    (.initial [selfAnnouncing] [7]) (drainPending false [7] removedMessage).trace s' ∧
      s'.rows = [7] := by
  have hrows : ((drainPending false [7] removedMessage).trace.foldlM
      (fun s e => (replay 7 true s e).filter (fun s' => decide s'.Harmless))
        (.initial [selfAnnouncing] [7])).map MessageStore.rows = some [7] := by
    decide +kernel
  obtain ⟨s', hs', hrow⟩ := Option.map_eq_some_iff.mp hrows
  refine ⟨s', Monitor.path_of_foldlM _ (fun s e t h => ?_) hs', hrow⟩
  obtain ⟨ht, hharmless⟩ := Option.filter_eq_some_iff.mp h
  exact ⟨of_decide_eq_true hharmless, step_replay 7 true s e t ht⟩

/-- The message that announces itself is stored once if it is removed. -/
theorem drain_stores_once_removed : ∃ bound s',
    (storage.restrict (fun _ _ s' => s'.Harmless)).Path (.initial [selfAnnouncing] [7])
      (drainPending false [7] removedMessage).trace s' ∧ s'.rows = [7] ∧
    ((drainPending false [7] removedMessage).outcome = .done () ∨
      (drainPending false [7] removedMessage).outcome = .cut ∧ removedMessage.length < bound) ∧
    s'.rows.count 7 ≤ 1 := by
  obtain ⟨bound, h⟩ := drain_stores_once false [selfAnnouncing] [7]
  obtain ⟨s', hpath, hrows⟩ := removed_harmless
  obtain ⟨hends, hcount⟩ := h removedMessage s' hpath
  exact ⟨bound, s', hpath, hrows, hends, hcount selfAnnouncing (List.mem_singleton_self _) rfl⟩

/-- A message that announces itself and is not removed is stored again. -/
theorem self_announcing_stored_twice : ¬ ∀ (events : Bool) (stored : List StoredSms)
    (pending : List Nat), ∃ bound, ∀ script s',
      storage.Path (.initial stored pending) (drainPending events pending script).trace s' →
      ((drainPending events pending script).outcome = .done () ∨
        (drainPending events pending script).outcome = .cut ∧ script.length < bound) ∧
      ∀ m ∈ stored, pending.count m.index = 1 → s'.rows.count m.index ≤ 1 := by
  intro h
  obtain ⟨bound, hruns⟩ := h false [selfAnnouncing] [7]
  have hrows : ((drainPending false [7]
      (takesMessage ++ .line "ERROR" :: .quiet :: takesMessage)).trace.foldlM (replay 7 false)
        (.initial [selfAnnouncing] [7])).map MessageStore.rows = some [7, 7] := by
    decide +kernel
  obtain ⟨s', hs', htwice⟩ := Option.map_eq_some_iff.mp hrows
  have hcount := (hruns _ s' (Monitor.path_of_foldlM _ (step_replay 7 false) hs')).2 selfAnnouncing
    (List.mem_singleton_self _) rfl
  rw [htwice] at hcount
  exact absurd hcount (by decide)

end Modem
end GreenRelay
