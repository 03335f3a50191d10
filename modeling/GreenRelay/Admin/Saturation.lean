/-
The lockout in a saturated tracker.

A tracker whose map is full of live histories drops the failure of a key that is
not in it.  One dropped failure would not matter, but while the map stays full
every further one is dropped as well.  For a key that is not in the map the first
of its failures decides: if it is kept, the key stays in the map as long as the
failure can count and the threshold locks it; if it is dropped, it is not locked.
-/
import GreenRelay.Admin.Tracking

namespace GreenRelay
namespace Admin

open Lockout (Policy Histories historyOf)

/-- A recorded failure of the key. -/
def Call.fails (id : String) : Call → Bool
  | .recordFailure j _ => j == id
  | _ => false

/-- A call for another key. -/
def Call.ofOther (id : String) : Call → Bool
  | .recordFailure j _ => j != id
  | .recordSuccess j => j != id
  | .isLocked j _ => j != id

namespace BoundedTracker

variable {T : Type} (k : BoundedTracker T)

/-- The history that a tracker has of a key. -/
def history (s : Tracked T) (id : String) : List Nat := historyOf (k.failures s.tracker) id

/-- Five failures of a key that was not in the map, within one window, with calls
for other keys before and between them, and no success of the key. -/
structure FiveFailures (id : String) (s s₁ s₂ s₃ s' : Tracked T) (first last : Nat) : Prop where
  reach : k.calls.Reach Machine.anything s
  new : id ∉ k.failures s.tracker
  before : ∃ cs, k.calls.exec s cs = some s₁ ∧ ∀ c ∈ cs, c.ofOther id
  opening : k.call s₁ (.recordFailure id first) = some s₂
  between : ∃ cs, k.calls.exec s₂ cs = some s₃ ∧ cs.countP (Call.fails id) = 3 ∧
    .recordSuccess id ∉ cs
  closing : k.call s₃ (.recordFailure id last) = some s'
  window : last ≤ first + k.policy.window

/-! ## One call -/

section
variable {k} {s s' : Tracked T} {id : String}

theorem call_recordFailure {j : String} {now : Nat}
    (h : k.call s (.recordFailure j now) = some s') :
    s.clock ≤ now ∧ s'.clock = now ∧
      k.failures s'.tracker = k.policy.recordFailure (k.failures s.tracker) j now := by
  simp only [call] at h
  split at h
  · next hle =>
    cases h
    exact ⟨hle, rfl, k.failures_recordFailure _ _ _⟩
  · cases h

theorem call_recordSuccess {j : String} (h : k.call s (.recordSuccess j) = some s') :
    s'.clock = s.clock ∧ k.failures s'.tracker = (k.failures s.tracker).erase j := by
  cases h
  exact ⟨rfl, k.failures_recordSuccess _ _⟩

theorem call_isLocked {j : String} {now : Nat} (h : k.call s (.isLocked j now) = some s') :
    s.clock ≤ s'.clock ∧ s'.tracker = s.tracker := by
  simp only [call] at h
  split at h
  · next hle =>
    cases h
    exact ⟨hle, rfl⟩
  · cases h

theorem clock_le_call {c : Call} (h : k.call s c = some s') : s.clock ≤ s'.clock := by
  cases c with
  | recordFailure j now =>
    obtain ⟨hle, heq, -⟩ := call_recordFailure h
    rw [heq]
    exact hle
  | recordSuccess j => exact Nat.le_of_eq (call_recordSuccess h).1.symm
  | isLocked j now => exact (call_isLocked h).1

/-- Nothing in a history is later than the clock. -/
def Past (s : Tracked T) : Prop := ∀ id, ∀ t ∈ k.history s id, t ≤ s.clock

end

theorem past_invariant : k.calls.Inductive Machine.anything k.Past where
  start s hs := by
    intro id t ht
    rw [history, hs.1, k.failures_new] at ht
    cases ht
  step s c s' h _ hstep := by
    intro id t ht
    have hclock : s.clock ≤ s'.clock := clock_le_call hstep
    cases c with
    | recordFailure j now =>
      obtain ⟨-, hnow, hmap⟩ := call_recordFailure hstep
      rw [history, hmap] at ht
      rcases Lockout.mem_recordFailure ht with ht | rfl
      · exact (h id t ht).trans hclock
      · exact Nat.le_of_eq hnow.symm
    | recordSuccess j =>
      obtain ⟨-, hmap⟩ := call_recordSuccess hstep
      rw [history, hmap] at ht
      by_cases hj : id = j
      · subst hj
        rw [Lockout.historyOf_erase] at ht
        cases ht
      · rw [Lockout.historyOf_erase_ne hj] at ht
        exact (h id t ht).trans hclock
    | isLocked j now =>
      have hcall : k.call s (.isLocked j now) = some s' := hstep
      obtain ⟨-, hsame⟩ := call_isLocked hcall
      rw [history, hsame] at ht
      exact (h id t ht).trans hclock

/-! ## Runs of calls -/

section
variable {k} {s s' : Tracked T} {id : String}

theorem clock_le_exec : ∀ {cs : List Call} {s : Tracked T}, k.calls.exec s cs = some s' →
    s.clock ≤ s'.clock := by
  intro cs
  induction cs with
  | nil =>
    intro s h
    rw [Option.some.inj h]
  | cons c cs ih =>
    intro s h
    obtain ⟨t, ht, hrest⟩ := Option.bind_eq_some_iff.mp h
    exact (clock_le_call ht).trans (ih hrest)

/-- Calls for other keys do not bring a key into the map. -/
theorem new_of_others : ∀ {cs : List Call} {s : Tracked T}, k.calls.exec s cs = some s' →
    (∀ c ∈ cs, c.ofOther id) → id ∉ k.failures s.tracker → id ∉ k.failures s'.tracker := by
  intro cs
  induction cs with
  | nil =>
    intro s h _ hnew
    rwa [← Option.some.inj h]
  | cons c cs ih =>
    intro s h hothers hnew
    obtain ⟨t, ht, hrest⟩ := Option.bind_eq_some_iff.mp h
    have hother := hothers c List.mem_cons_self
    refine ih hrest (fun d hd => hothers d (List.mem_cons_of_mem c hd)) ?_
    cases c with
    | recordFailure j now =>
      have hj : id ≠ j := fun heq => by simp [Call.ofOther, heq] at hother
      obtain ⟨-, -, hmap⟩ := call_recordFailure ht
      rw [hmap]
      exact fun hmem => hnew (Lockout.mem_of_recordFailure_ne hj hmem)
    | recordSuccess j =>
      obtain ⟨-, hmap⟩ := call_recordSuccess ht
      rw [hmap]
      exact fun hmem => hnew (AList.mem_erase.mp hmem).2
    | isLocked j now =>
      have hcall : k.call s (.isLocked j now) = some t := ht
      obtain ⟨-, hsame⟩ := call_isLocked hcall
      rwa [hsame]

/-- A history grows by no more than the failures that are recorded. -/
theorem length_history_exec : ∀ {cs : List Call} {s : Tracked T}, k.calls.exec s cs = some s' →
    (k.history s' id).length ≤ (k.history s id).length + cs.countP (Call.fails id) := by
  intro cs
  induction cs with
  | nil =>
    intro s h
    rw [Option.some.inj h]
    exact Nat.le_refl _
  | cons c cs ih =>
    intro s h
    obtain ⟨t, ht, hrest⟩ := Option.bind_eq_some_iff.mp h
    have hlater := ih hrest
    have hstep : (k.history t id).length ≤
        (k.history s id).length + if Call.fails id c then 1 else 0 := by
      cases c with
      | recordFailure j now =>
        obtain ⟨-, -, hmap⟩ := call_recordFailure ht
        rw [history, hmap]
        by_cases hj : id = j
        · subst hj
          rw [Call.fails, if_pos (beq_self_eq_true id)]
          exact Lockout.length_recordFailure_le
        · exact (Lockout.length_recordFailure_ne hj).trans (Nat.le_add_right _ _)
      | recordSuccess j =>
        obtain ⟨-, hmap⟩ := call_recordSuccess ht
        rw [history, hmap]
        by_cases hj : id = j
        · subst hj
          rw [Lockout.historyOf_erase]
          exact Nat.zero_le _
        · rw [Lockout.historyOf_erase_ne hj]
          exact Nat.le_add_right _ _
      | isLocked j now =>
        have hcall : k.call s (.isLocked j now) = some t := ht
        obtain ⟨-, hsame⟩ := call_isLocked hcall
        rw [history, hsame]
        exact Nat.le_add_right _ _
    rw [List.countP_cons]
    omega

/-- What a history holds since `first`: so many failures, and nothing before. -/
structure Since (k : BoundedTracker T) (s : Tracked T) (id : String) (first count : Nat) :
    Prop where
  length : (k.history s id).length = count
  late : ∀ t ∈ k.history s id, first ≤ t

/-- While its failures are recent a key keeps all of them. -/
theorem since_call {first count : Nat} {c : Call} (h : Since k s id first count) (hpos : 0 < count)
    (hroom : count + (if Call.fails id c then 1 else 0) ≤ k.policy.capacity)
    (hrecent : s'.clock ≤ first + k.policy.window)
    (hlate : first ≤ s.clock) (hc : c ≠ .recordSuccess id) (hcall : k.call s c = some s') :
    Since k s' id first (count + if Call.fails id c then 1 else 0) := by
  have hhorizon : k.policy.window ≤ k.policy.horizon := Nat.le_add_right _ _
  cases c with
  | recordFailure j now =>
    obtain ⟨hle, hnow, hmap⟩ := call_recordFailure hcall
    have hyoung : ∀ t ∈ k.history s id, now - t ≤ k.policy.horizon := by
      intro t ht
      have := h.late t ht
      omega
    by_cases hj : id = j
    · subst hj
      have hmem : id ∈ k.failures s.tracker :=
        Lockout.mem_of_historyOf (List.ne_nil_of_length_pos (h.length ▸ hpos))
      rw [Call.fails, if_pos (beq_self_eq_true id)] at hroom ⊢
      have hpush : k.history s' id = k.history s id ++ [now] := by
        rw [history, hmap, Lockout.historyOf_recordFailure_mem hmem]
        exact Lockout.push_of_recent hyoung (h.length ▸ hroom)
      refine ⟨by rw [hpush, List.length_append, h.length]; rfl, fun t ht => ?_⟩
      rw [hpush] at ht
      rcases List.mem_append.mp ht with ht | ht
      · exact h.late t ht
      · rw [List.mem_singleton.mp ht]
        exact hlate.trans hle
    · have hsame : k.history s' id = k.history s id := by
        rw [history, hmap]
        rcases Lockout.historyOf_recordFailure_ne hj with heq | heq
        · exact heq
        · rw [heq]
          exact Lockout.retained_of_recent hyoung
      have hno : Call.fails id (.recordFailure j now) = false := by
        rw [Call.fails, beq_eq_false_iff_ne]
        exact fun heq => hj heq.symm
      rw [hno, if_neg (by decide), Nat.add_zero]
      exact ⟨hsame ▸ h.length, hsame ▸ h.late⟩
  | recordSuccess j =>
    have hj : id ≠ j := fun heq => hc (by rw [heq])
    obtain ⟨-, hmap⟩ := call_recordSuccess hcall
    have hsame : k.history s' id = k.history s id := by
      rw [history, hmap, Lockout.historyOf_erase_ne hj]
      rfl
    exact ⟨hsame ▸ h.length, hsame ▸ h.late⟩
  | isLocked j now =>
    obtain ⟨-, htracker⟩ := call_isLocked hcall
    have hsame : k.history s' id = k.history s id := by
      rw [history, htracker]
      rfl
    exact ⟨hsame ▸ h.length, hsame ▸ h.late⟩

theorem since_exec {first : Nat} : ∀ {cs : List Call} {s : Tracked T} {count : Nat},
    Since k s id first count → 0 < count → count + cs.countP (Call.fails id) ≤ k.policy.capacity →
    s'.clock ≤ first + k.policy.window → first ≤ s.clock → .recordSuccess id ∉ cs →
    k.calls.exec s cs = some s' → Since k s' id first (count + cs.countP (Call.fails id)) := by
  intro cs
  induction cs with
  | nil =>
    intro s count h _ _ _ _ _ hexec
    rw [← Option.some.inj hexec]
    exact h
  | cons c cs ih =>
    intro s count h hpos hroom hrecent hlate hnot hexec
    obtain ⟨t, ht, hrest⟩ := Option.bind_eq_some_iff.mp hexec
    rw [List.countP_cons] at hroom ⊢
    have hclock := clock_le_exec hrest
    have hc : c ≠ .recordSuccess id := fun heq => hnot (heq ▸ List.mem_cons_self)
    have hnext := since_call h hpos (by omega) (hclock.trans hrecent) hlate hc ht
    have hlater := ih hnext (by omega) (by omega) hrecent (hlate.trans (clock_le_call ht))
      (fun hmem => hnot (List.mem_cons_of_mem c hmem)) hrest
    rwa [Nat.add_assoc, Nat.add_comm (ite _ _ _)] at hlater

/-! ## Five failures -/

/-- What is recent and reaches the threshold locks. -/
theorem locked_of_since {first now : Nat} (hs : k.Past s) (h : Since k s id first 5)
    (hthreshold : k.policy.threshold = 5) (hduration : 0 < k.policy.duration)
    (hclock : s.clock = now) (hnow : now ∈ k.history s id)
    (hwindow : now ≤ first + k.policy.window) :
    k.isLocked s.tracker id now = true := by
  have hpast : ∀ t ∈ k.history s id, t ≤ now := fun t ht => hclock ▸ hs id t ht
  refine (k.isLocked_iff s.tracker id now hpast).mpr ⟨now, hnow, ?_, Nat.le_refl _, by omega⟩
  have hall : (k.history s id).countP (k.policy.near now) = (k.history s id).length := by
    rw [List.countP_eq_length]
    intro t ht
    have hlow := h.late t ht
    have hhigh := hpast t ht
    rw [Policy.near, decide_eq_true_eq]
    omega
  have hcount : (k.history s id).countP (k.policy.near now) = 5 := hall.trans h.length
  exact Nat.le_of_eq (hthreshold.trans hcount.symm)

/-- Too few failures do not lock. -/
theorem not_locked_of_few {now : Nat} (hs : k.Past s) (hclock : s.clock = now)
    (hfew : (k.history s id).length < k.policy.threshold) :
    k.isLocked s.tracker id now = false := by
  have hpast : ∀ t ∈ k.history s id, t ≤ now := fun t ht => hclock ▸ hs id t ht
  rw [Bool.eq_false_iff]
  intro hlocked
  obtain ⟨a, -, hcount, -⟩ := (k.isLocked_iff s.tracker id now hpast).mp hlocked
  have hle : (k.history s id).countP (k.policy.near a) ≤ (k.history s id).length :=
    List.countP_le_length
  exact absurd (hcount.trans hle) (Nat.not_le_of_lt hfew)

/-- Whether the first failure is dropped decides whether the fifth locks. -/
theorem locked_iff_first_kept {s s₁ s₂ s₃ s' : Tracked T} {first last : Nat}
    (hthreshold : k.policy.threshold = 5) (hcapacity : 5 ≤ k.policy.capacity)
    (hduration : 0 < k.policy.duration) (h : k.FiveFailures id s s₁ s₂ s₃ s' first last) :
    k.isLocked s'.tracker id last = true ↔
      ¬ k.policy.Saturated (k.failures s₁.tracker) id first := by
  obtain ⟨cs, hbefore, hothers⟩ := h.before
  obtain ⟨ds, hbetween, hthree, hnot⟩ := h.between
  have hnew := new_of_others hbefore hothers h.new
  obtain ⟨hle, hnow, hmap⟩ := call_recordFailure h.opening
  obtain ⟨hle', hnow', hmap'⟩ := call_recordFailure h.closing
  have hclock := clock_le_exec hbetween
  have hstep : k.calls.step s₁ (Call.recordFailure id first) = some s₂ := h.opening
  have hstep' : k.calls.step s₃ (Call.recordFailure id last) = some s' := h.closing
  have hclosing : k.calls.exec s₃ [Call.recordFailure id last] = some s' := by
    rw [Machine.exec, hstep']
    rfl
  have hexec := Machine.exec_append hbetween hclosing
  have hfour : (ds ++ [Call.recordFailure id last]).countP (Call.fails id) = 4 := by
    rw [List.countP_append, hthree, List.countP_singleton]
    simp [Call.fails]
  have hreach : k.calls.Reach Machine.anything s' :=
    ((h.reach.exec hbefore).next trivial hstep).exec hexec
  have hpast : k.Past s' := k.past_invariant.reach hreach
  constructor
  · intro hlocked hsat
    have hnone : k.history s₂ id = [] := by
      rw [history, hmap]
      exact (Lockout.historyOf_recordFailure_new hnew).1 hsat
    have hlen : (k.history s' id).length ≤ _ := length_history_exec hexec
    rw [hnone, hfour, List.length_nil] at hlen
    rw [not_locked_of_few hpast hnow' (by omega)] at hlocked
    cases hlocked
  · intro hroom
    have hone : k.history s₂ id = [first] := by
      rw [history, hmap, (Lockout.historyOf_recordFailure_new hnew).2 hroom]
      exact Lockout.push_of_recent (fun t ht => by cases ht) (by simp; omega)
    have hsince : Since k s₂ id first 1 := by
      refine ⟨by rw [hone]; rfl, fun t ht => ?_⟩
      rw [hone] at ht
      exact Nat.le_of_eq (List.mem_singleton.mp ht).symm
    have hnot' : Call.recordSuccess id ∉ ds ++ [Call.recordFailure id last] := by
      simp [hnot]
    have hfive := since_exec hsince (by decide) (by omega) (hnow' ▸ h.window)
      (Nat.le_of_eq hnow.symm) hnot' hexec
    have hfour' := since_exec hsince (by decide) (by omega)
      (hle'.trans h.window) (Nat.le_of_eq hnow.symm) hnot hbetween
    have hpos : 0 < (k.history s₃ id).length := by
      rw [hfour'.length]
      omega
    have hmem : id ∈ k.failures s₃.tracker :=
      Lockout.mem_of_historyOf (List.ne_nil_of_length_pos hpos)
    have hlast : last ∈ k.history s' id := by
      rw [history, hmap', Lockout.historyOf_recordFailure_mem hmem]
      exact Lockout.self_mem_push _ (by omega)
    rw [hfour] at hfive
    exact locked_of_since hpast hfive hthreshold hduration hnow' hlast h.window

end

/-! ## A map that fills up -/

/-- A key for each number. -/
def nthKey (n : Nat) : String := String.ofList (List.replicate n 'x')

theorem nthKey_inj {m n : Nat} (h : nthKey m = nthKey n) : m = n := by
  have hlen := congrArg (fun s => s.toList.length) h
  simpa [nthKey] using hlen

/-- The state after a failure of the key at time zero. -/
def failed (s : Tracked T) (id : String) : Tracked T :=
  ⟨0, k.recordFailure s.tracker id 0, Function.update s.failures id (s.failures id ++ [0])⟩

theorem call_failed {s : Tracked T} (hs : s.clock = 0) (id : String) :
    k.call s (.recordFailure id 0) = some (k.failed s id) := by
  rw [call, if_pos (Nat.le_of_eq hs)]
  rfl

/-- The map holds `n` keys, each with one failure at time zero. -/
structure Filled (n : Nat) (s : Tracked T) : Prop where
  reach : k.calls.Reach Machine.anything s
  clock : s.clock = 0
  count : (k.failures s.tracker).entries.length = n
  live : ∀ e ∈ (k.failures s.tracker).entries, e.2 = [0]
  named : ∀ key ∈ k.failures s.tracker, ∃ i < n, key = nthKey i

theorem filled_failed (hcapacity : 0 < k.policy.capacity) {n : Nat} (hn : n < k.policy.keys)
    {s : Tracked T} (h : k.Filled n s) : k.Filled (n + 1) (k.failed s (nthKey n)) := by
  have hnew : nthKey n ∉ k.failures s.tracker := by
    intro hmem
    obtain ⟨i, hi, heq⟩ := h.named _ hmem
    have := nthKey_inj heq
    omega
  have hmap : k.failures (k.failed s (nthKey n)).tracker =
      (k.failures s.tracker).insert (nthKey n) [0] := by
    have hpush : k.policy.push [] 0 = [0] :=
      Lockout.push_of_recent (fun t ht => by cases ht) hcapacity
    rw [failed, k.failures_recordFailure, Policy.recordFailure,
      if_neg (fun hfull => absurd hfull.2 (by rw [h.count]; omega)), Policy.pushFailure,
      AList.lookup_eq_none.mpr hnew, Option.getD_none, hpush]
  have hentries : (k.failures (k.failed s (nthKey n)).tracker).entries =
      ⟨nthKey n, [0]⟩ :: (k.failures s.tracker).entries := by
    rw [hmap, AList.entries_insert_of_notMem hnew]
  have hstep : k.calls.step s (Call.recordFailure (nthKey n) 0) = some (k.failed s (nthKey n)) :=
    k.call_failed h.clock _
  refine ⟨h.reach.next trivial hstep, rfl, ?_, ?_, ?_⟩
  · rw [hentries, List.length_cons, h.count]
  · intro e he
    rw [hentries] at he
    rcases List.mem_cons.mp he with rfl | he
    · rfl
    · exact h.live e he
  · intro key hkey
    rw [hmap] at hkey
    rcases (AList.mem_insert _).mp hkey with rfl | hkey
    · exact ⟨n, Nat.lt_succ_self n, rfl⟩
    · obtain ⟨i, hi, heq⟩ := h.named key hkey
      exact ⟨i, Nat.lt_succ_of_lt hi, heq⟩

def empty : Tracked T := ⟨0, k.new, fun _ => []⟩

theorem reach_empty : k.calls.Reach Machine.anything k.empty :=
  ⟨k.empty, ⟨rfl, rfl⟩, .refl _⟩

theorem exists_filled (hcapacity : 0 < k.policy.capacity) :
    ∀ n ≤ k.policy.keys, ∃ s, k.Filled n s := by
  intro n
  induction n with
  | zero =>
    intro _
    have hnone : k.failures k.empty.tracker = ∅ := k.failures_new
    refine ⟨k.empty, k.reach_empty, rfl, ?_, ?_, ?_⟩
    · rw [hnone]
      rfl
    · intro e he
      rw [hnone] at he
      cases he
    · intro key hkey
      rw [hnone] at hkey
      cases hkey
  | succ n ih =>
    intro hn
    obtain ⟨s, hs⟩ := ih (Nat.le_of_succ_le hn)
    exact ⟨_, k.filled_failed hcapacity hn hs⟩

/-- A full map of live histories has no room for another key. -/
theorem saturated_of_filled {s : Tracked T} (h : k.Filled k.policy.keys s) {id : String}
    (hid : id ∉ k.failures s.tracker) : k.policy.Saturated (k.failures s.tracker) id 0 := by
  refine ⟨hid, Nat.le_of_eq h.count.symm, ?_⟩
  have hkept : ∀ e ∈ (k.failures s.tracker).entries, k.policy.retained e.2 0 = e.2 := by
    intro e he
    rw [h.live e he]
    exact Lockout.retained_of_recent (fun t ht => by
      rw [List.mem_singleton.mp ht]
      exact Nat.zero_le _)
  have hall : ∀ e ∈ (k.failures s.tracker).entries.map
      (fun e => (⟨e.1, k.policy.retained e.2 0⟩ : Sigma (fun _ : String => List Nat))),
      (!e.2.isEmpty) = true := by
    intro e he
    obtain ⟨e', he', rfl⟩ := List.mem_map.mp he
    show (!(k.policy.retained e'.2 0).isEmpty) = true
    rw [hkept e' he', h.live e' he']
    rfl
  show k.policy.keys ≤ (List.filter _ _).length
  rw [List.filter_eq_self.mpr hall, List.length_map, h.count]

/-- The state after some failures of one key at time zero. -/
def failing (id : String) (n : Nat) (s : Tracked T) : Tracked T := (k.failed · id)^[n] s

theorem fiveFailures_failing {s : Tracked T} {id : String}
    (hreach : k.calls.Reach Machine.anything s) (hclock : s.clock = 0)
    (hid : id ∉ k.failures s.tracker) :
    k.FiveFailures id s s (k.failing id 1 s) (k.failing id 4 s) (k.failing id 5 s) 0 0 where
  reach := hreach
  new := hid
  before := ⟨[], rfl, by simp⟩
  opening := k.call_failed hclock id
  between := ⟨List.replicate 3 (Call.recordFailure id 0), rfl, by simp [Call.fails], by simp⟩
  closing := @call_failed _ k (k.failing id 4 s) rfl id
  window := Nat.zero_le _

/-- While the map is full, five failures of a new key do not lock it. -/
theorem not_locked_when_full (hthreshold : k.policy.threshold = 5)
    (hcapacity : 5 ≤ k.policy.capacity) (hduration : 0 < k.policy.duration) :
    ¬ ∀ id s s₁ s₂ s₃ s' first last, k.FiveFailures id s s₁ s₂ s₃ s' first last →
      k.isLocked s'.tracker id last = true := by
  intro hall
  obtain ⟨s, hs⟩ := k.exists_filled (by omega) _ (Nat.le_refl _)
  have hid : "new" ∉ k.failures s.tracker := by
    intro hmem
    obtain ⟨i, -, heq⟩ := hs.named _ hmem
    have hx : 'n' ∈ (nthKey i).toList := by
      rw [← heq]
      decide
    rw [nthKey, String.toList_ofList] at hx
    exact absurd (List.eq_of_mem_replicate hx) (by decide)
  have hfive := k.fiveFailures_failing hs.reach hs.clock hid
  have hlocked := hall _ _ _ _ _ _ _ _ hfive
  exact (locked_iff_first_kept hthreshold hcapacity hduration hfive).mp hlocked
    (k.saturated_of_filled hs hid)

end BoundedTracker

/-- A failure that is dropped while the map is saturated is not the only one: five
of them are, and the key is not locked. -/
theorem fifth_failure_not_locked :
    (¬ ∀ id s s₁ s₂ s₃ s' first last, authTracker.FiveFailures id s s₁ s₂ s₃ s' first last →
      authTracker.isLocked s'.tracker id last = true) ∧
    (¬ ∀ id s s₁ s₂ s₃ s' first last, loginTracker.FiveFailures id s s₁ s₂ s₃ s' first last →
      loginTracker.isLocked s'.tracker id last = true) :=
  ⟨authTracker.not_locked_when_full rfl (by decide) (by decide),
    loginTracker.not_locked_when_full rfl (by decide) (by decide)⟩

/-- For a key that is not in the map, five failures within one window lock it at
the fifth if and only if the first of them found the map not saturated. -/
theorem fifth_failure_locks_iff (id : String) (first last : Nat) :
    (∀ s s₁ s₂ s₃ s', authTracker.FiveFailures id s s₁ s₂ s₃ s' first last →
      (authTracker.isLocked s'.tracker id last = true ↔
        ¬ authPolicy.Saturated s₁.tracker.failures id first)) ∧
    (∀ s s₁ s₂ s₃ s', loginTracker.FiveFailures id s s₁ s₂ s₃ s' first last →
      (loginTracker.isLocked s'.tracker id last = true ↔
        ¬ adminPolicy.Saturated s₁.tracker.failures id first)) :=
  ⟨fun _ _ _ _ _ h => BoundedTracker.locked_iff_first_kept rfl (by decide) (by decide) h,
    fun _ _ _ _ _ h => BoundedTracker.locked_iff_first_kept rfl (by decide) (by decide) h⟩

theorem fifth_failure_locks_iff_empty :
    authTracker.isLocked (authTracker.failing "key" 5 authTracker.empty).tracker "key" 0 = true ↔
      ¬ authPolicy.Saturated authTracker.empty.tracker.failures "key" 0 :=
  (fifth_failure_locks_iff "key" 0 0).1 _ _ _ _ _
    (authTracker.fiveFailures_failing authTracker.reach_empty rfl (AList.notMem_empty _))

end Admin
end GreenRelay
