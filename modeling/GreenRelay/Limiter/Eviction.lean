/-
When dropping idle entries changes a decision.

An entry that was idle for `entryTtl` is dropped.  The next request of its key
starts a new window, and so it does without the drop if the window of the entry
is over by then.  A window that is longer than `entryTtl` may still be running.
-/
import GreenRelay.Limiter.RateLimit
import Mathlib.Data.List.Dedup

namespace GreenRelay
namespace Limiter

open Cache

/-- The requests the limiter is asked about: every one with a limit and with the
configured window, in the order of time, of no more keys than the cache holds. -/
structure Admissible (windowSecs : Nat) (calls : List Check) : Prop where
  limit : ∀ call ∈ calls, 1 ≤ call.request.limit
  window : ∀ call ∈ calls, call.request.window = ofSecs windowSecs
  inOrder : (calls.map Call.now).Pairwise (· ≤ ·)
  keys : (calls.map Call.key).dedup.length < maxTrackedKeys

/-- A request that finds the entry of its key idle for too long finds its window
over as well. -/
def WindowOver (states : States) (call : Check) : Prop :=
  ∀ e ∈ states.lookup call.key, e.accessed + entryTtl ≤ call.now →
    call.request.window ≤ call.now - e.value.windowStart

/-- A key that was asked about has a request in its window, and the window began
with one of its requests. -/
def Begun (state : WindowState) (accessed : Nat) : Prop :=
  1 ≤ state.count ∧ state.windowStart ≤ accessed

def Limited (quota : Quota) : Prop := 1 ≤ quota.limit ∧ 1 ≤ quota.window

theorem windows_keeps : windows.Keeps Limited Begun where
  fresh quota now h := by
    have hdecide := decide_new h.1 h.2 now
    show Begun (decide (.new now) quota.limit quota.window now).1 now
    rw [hdecide]
    exact ⟨Nat.le_refl 1, Nat.le_refl now⟩
  act state accessed quota now h hbegun hle := by
    obtain ⟨hcount, hstart⟩ := hbegun
    show Begun (decide state quota.limit quota.window now).1 now
    by_cases hover : quota.window ≤ now - state.windowStart
    · rw [decide_over hover]
      exact ⟨Nat.le_refl 1, Nat.le_refl now⟩
    · by_cases hroom : state.count < quota.limit
      · rw [decide_under _ hover hroom]
        refine ⟨?_, Nat.le_trans hstart hle⟩
        show 1 ≤ min (state.count + 1) u32Max
        unfold u32Max
        omega
      · rw [decide_full hover hroom]
        exact ⟨hcount, Nat.le_trans hstart hle⟩

/-- A request in a running window is told from the first of a new one. -/
theorem decide_eq_new_iff {state : WindowState} {limit window now : Nat} (hlimit : 1 ≤ limit)
    (hwindow : 1 ≤ window) (hcount : 1 ≤ state.count) :
    (decide state limit window now).2 = (decide (.new now) limit window now).2 ↔
      window ≤ now - state.windowStart := by
  rw [decide_new hlimit hwindow]
  by_cases hover : window ≤ now - state.windowStart
  · simp [decide_over hover, hover]
  · simp only [hover, iff_false]
    by_cases hroom : state.count < limit
    · rw [decide_under _ hover hroom]
      intro h
      injection h with h
      unfold u32Max at h
      omega
    · rw [decide_full hover hroom]
      intro h
      cases h

theorem windows_tells : windows.Tells Limited Begun := by
  intro state accessed quota now hok hbegun _ hout
  show decide state quota.limit quota.window now = decide (.new now) quota.limit quota.window now
  rw [decide_over ((decide_eq_new_iff hok.1 hok.2 hbegun.1).mp hout), decide_new hok.1 hok.2]

/-- The drop of an entry goes unnoticed when its window is over. -/
theorem unnoticed_iff_over {victims : States → States} {states : States} {call : Check}
    {keys : List String} {last : Nat} (h : Holds Begun keys last states)
    (hok : Limited call.request) :
    Unnoticed windows (mokaRetention victims) states call ↔ WindowOver states call := by
  refine forall_congr' (fun e => forall_congr' (fun he => ?_))
  obtain ⟨⟨hcount, -⟩, -⟩ := h.value call.key e he
  have hexpired : (mokaRetention victims).expired e.accessed call.now = true ↔
      e.accessed + entryTtl ≤ call.now := decide_eq_true_iff
  rw [hexpired]
  refine imp_congr_right (fun _ => ?_)
  show decide e.value call.request.limit call.request.window call.now =
    decide (.new call.now) call.request.limit call.request.window call.now ↔ _
  rw [← decide_eq_new_iff hok.1 hok.2 hcount]
  constructor
  · exact fun heq => congrArg Prod.snd heq
  · intro hout
    rw [decide_over ((decide_eq_new_iff hok.1 hok.2 hcount).mp hout), decide_new hok.1 hok.2]

theorem Admissible.limited {windowSecs : Nat} {calls : List Check} (h : Admissible windowSecs calls)
    (hwindow : 1 ≤ windowSecs) : ∀ call ∈ calls, Limited call.request := by
  intro call hcall
  refine ⟨h.limit call hcall, ?_⟩
  rw [h.window call hcall, ofSecs]
  omega

theorem key_mem_dedup (calls : List Check) :
    ∀ call ∈ calls, call.key ∈ (calls.map Call.key).dedup :=
  fun _ hcall => List.mem_dedup.mpr (List.mem_map_of_mem hcall)

theorem Admissible.sorted {windowSecs : Nat} {calls : List Check}
    (h : Admissible windowSecs calls) :
    (0 :: calls.map Call.now).Pairwise (· ≤ ·) :=
  List.pairwise_cons.mpr ⟨fun _ _ => Nat.zero_le _, h.inOrder⟩

/-- The decisions are those of a limiter that drops nothing if and only if every
drop comes after the end of the window. -/
theorem decisions_eq_iff {windowSecs : Nat} {calls : List Check} (h : Admissible windowSecs calls)
    (hwindow : 1 ≤ windowSecs) (victims : States → States) :
    decisions victims calls = decisionsKeeping calls ↔ EachCall windows WindowOver ∅ calls := by
  have hok := h.limited hwindow
  rw [decisions, decisionsKeeping, mokaRetention,
    outputs_eq_iff windows_keeps windows_tells (Nat.le_of_lt h.keys) hok
      (key_mem_dedup calls) h.sorted
      (Holds.empty Begun _ 0)]
  exact EachCall.congr windows_keeps
    (fun states call last hholds hlimited _ => unnoticed_iff_over hholds hlimited) hok
    (key_mem_dedup calls)
    h.sorted (Holds.empty Begun _ 0)

/-- A window of an hour at most is over when an entry is dropped. -/
theorem eachCall_windowOver {windowSecs : Nat} {calls : List Check}
    (h : Admissible windowSecs calls) (hwindow : 1 ≤ windowSecs) (hshort : windowSecs ≤ 3600) :
    EachCall windows WindowOver ∅ calls := by
  have hok : ∀ call ∈ calls, Limited call.request ∧ call.request.window = ofSecs windowSecs :=
    fun call hcall => ⟨h.limited hwindow call hcall, h.window call hcall⟩
  have hkeeps : windows.Keeps
      (fun quota => Limited quota ∧ quota.window = ofSecs windowSecs) Begun :=
    ⟨fun quota now hquota => windows_keeps.fresh quota now hquota.1,
      fun state accessed quota now hquota => windows_keeps.act state accessed quota now hquota.1⟩
  refine EachCall.of_holds hkeeps ?_ hok (key_mem_dedup calls) h.sorted (Holds.empty Begun _ 0)
  intro states call last hholds hquota _ e he hidle
  obtain ⟨⟨-, hstart⟩, -⟩ := hholds.value call.key e he
  rw [hquota.2]
  unfold entryTtl ofSecs at *
  omega

/-- Two requests of one key, the second when the entry of the first is dropped. -/
def idleFor (limit windowSecs : Nat) : List Check :=
  [⟨"k", ⟨limit, ofSecs windowSecs⟩, 0⟩, ⟨"k", ⟨limit, ofSecs windowSecs⟩, entryTtl⟩]

theorem idleFor_admissible {limit : Nat} (hlimit : 1 ≤ limit) (windowSecs : Nat) :
    Admissible windowSecs (idleFor limit windowSecs) where
  limit := by simp [idleFor, hlimit]
  window := by simp [idleFor]
  inOrder := by simp [idleFor]
  keys := by
    show (["k", "k"] : List String).dedup.length < maxTrackedKeys
    decide

/-- The second of them finds a longer window running. -/
theorem idleFor_noticed {limit windowSecs : Nat} (hlimit : 1 ≤ limit) (hlong : 3600 < windowSecs) :
    ¬ EachCall windows WindowOver ∅ (idleFor limit windowSecs) := by
  rintro ⟨-, hsecond, -⟩
  have hfirst : (access windows .keeping ∅ ⟨"k", ⟨limit, ofSecs windowSecs⟩, 0⟩).1.lookup "k" =
      some ⟨⟨1, 0⟩, 0⟩ := by
    have hwindow : 1 ≤ ofSecs windowSecs := by
      unfold ofSecs
      omega
    have hinsert : (access windows .keeping ∅ ⟨"k", ⟨limit, ofSecs windowSecs⟩, 0⟩).1 =
        AList.insert "k" ⟨(decide (.new 0) limit (ofSecs windowSecs) 0).1, 0⟩ ∅ := rfl
    rw [hinsert, AList.lookup_insert, decide_new hlimit hwindow]
  have hover := hsecond _ hfirst (by simp)
  simp only [ofSecs, entryTtl] at hover
  omega

/-- Dropping idle entries changes no decision of a run in which the windows of
the dropped entries are over.  In every run they are if the window is an hour at
most, and only then. -/
theorem eviction_unnoticed_iff (map : Settings) (windowSecs : Nat)
    (haccepted : rateWindowSecs map = .ok windowSecs) (victims : States → States) :
    (∀ calls, Admissible windowSecs calls →
      (decisions victims calls = decisionsKeeping calls ↔ EachCall windows WindowOver ∅ calls)) ∧
    ∀ limit, 1 ≤ limit →
      ((∀ calls, Admissible windowSecs calls → (∀ call ∈ calls, call.request.limit = limit) →
          decisions victims calls = decisionsKeeping calls) ↔ windowSecs ≤ 3600) := by
  have hwindow := rateWindowSecs_pos haccepted
  refine ⟨fun calls h => decisions_eq_iff h hwindow victims, fun limit hlimit => ?_⟩
  constructor
  · intro h
    by_contra hlong
    have hadmissible := idleFor_admissible hlimit windowSecs
    refine idleFor_noticed hlimit (Nat.lt_of_not_le hlong) ?_
    exact (decisions_eq_iff hadmissible hwindow victims).mp (h _ hadmissible (by simp [idleFor]))
  · intro hshort calls h _
    exact (decisions_eq_iff h hwindow victims).mpr (eachCall_windowOver h hwindow hshort)

/-- The default window. -/
theorem eviction_unnoticed_default :
    (∀ calls, Admissible 60 calls →
      (decisions id calls = decisionsKeeping calls ↔ EachCall windows WindowOver ∅ calls)) ∧
    ∀ limit, 1 ≤ limit →
      ((∀ calls, Admissible 60 calls → (∀ call ∈ calls, call.request.limit = limit) →
          decisions id calls = decisionsKeeping calls) ↔ 60 ≤ 3600) :=
  eviction_unnoticed_iff (fun _ => none) 60 rfl id

/-- A window of two hours. -/
def twoHours : Settings := fun key => if key = keyRateWindowSecs then some "7200" else none

/-- The request that comes an hour after the only one that is allowed is let
through. -/
theorem quota_forgotten : ¬ ∀ (map : Settings) (windowSecs : Nat) (victims : States → States)
    (calls : List Check), rateWindowSecs map = .ok windowSecs → Admissible windowSecs calls →
      decisions victims calls = decisionsKeeping calls := by
  intro h
  have haccepted : rateWindowSecs twoHours = .ok 7200 := by rfl
  have hsame := h twoHours 7200 id (idleFor 1 7200) haccepted
    (idleFor_admissible (Nat.le_refl 1) 7200)
  have hdropped : decisions id (idleFor 1 7200) = [.allow 0, .allow 0] := by decide +kernel
  have hkept : decisionsKeeping (idleFor 1 7200) = [.allow 0, .reject 3600] := by decide +kernel
  rw [hdropped, hkept] at hsame
  cases hsame

end Limiter
end GreenRelay
