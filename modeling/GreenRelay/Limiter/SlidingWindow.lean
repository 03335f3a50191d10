/-
How many requests of a key an interval can get past the limiter.

The limiter counts in windows of its own: a request that finds its window over,
or its entry gone, opens a new one and starts counting again.  What it allows is
the first `limit` requests of each of these windows.  A burst at the end of a
window and one at the start of the next are counted apart, so an interval across
the two is not bounded by the limit, but by less than twice of it.
-/
import GreenRelay.Lib.Arrivals
import GreenRelay.Limiter.RateLimit

namespace GreenRelay
namespace Limiter

open Cache Arrivals

def RateDecision.isAllow : RateDecision → Bool
  | .allow _ => true
  | .reject _ => false

/-- The cache drops entries and does not change any. -/
def DropsOnly (victims : States → States) : Prop :=
  ∀ states key e, (victims states).lookup key = some e → states.lookup key = some e

section Runs

variable (victims : States → States) (key : String)

/-- The times of the requests of a key that are allowed. -/
def allowed : States → List Check → List Nat
  | _, [] => []
  | states, call :: calls =>
    let next := check victims states call
    if call.key = key ∧ next.2.isAllow then call.now :: allowed next.1 calls
    else allowed next.1 calls

/-- The request finds the entry of its key. -/
def findsEntry (states : States) (call : Check) : Bool :=
  match states.lookup call.key with
  | some e => !(mokaRetention victims).expired e.accessed call.now
  | none => false

/-- The requests of a key, as they arrive at the cache. -/
def arrivals : States → List Check → List Arrival
  | _, [] => []
  | states, call :: calls =>
    let next := check victims states call
    if call.key = key then ⟨call.now, findsEntry victims states call⟩ :: arrivals next.1 calls
    else arrivals next.1 calls

end Runs

section Simulation

variable {victims : States → States} {key : String} {limit window : Nat}

/-! ## What the cache keeps of a key -/

theorem lookup_trim (hvictims : DropsOnly victims) (key : String) (states : States) :
    ((mokaRetention victims).trim states).lookup key = states.lookup key ∨
      ((mokaRetention victims).trim states).lookup key = none := by
  show (if maxTrackedKeys < states.entries.length then victims states else states).lookup key
    = _ ∨ (if maxTrackedKeys < states.entries.length then victims states else states).lookup key
    = none
  split
  · cases hlookup : (victims states).lookup key with
    | none => exact Or.inr rfl
    | some e => exact Or.inl (hvictims states key e hlookup).symm
  · exact Or.inl rfl

theorem lookup_check_ne (hvictims : DropsOnly victims) (states : States) {call : Check}
    (hkey : call.key ≠ key) :
    (check victims states call).1.lookup key = states.lookup key ∨
      (check victims states call).1.lookup key = none := by
  have h := lookup_trim hvictims key (states.insert call.key
    ⟨(windows.act (taken windows (mokaRetention victims) states call) call.request call.now).1,
      call.now⟩)
  rw [AList.lookup_insert_ne (Ne.symm hkey)] at h
  exact h

theorem lookup_check_self (hvictims : DropsOnly victims) (states : States) (call : Check) :
    (check victims states call).1.lookup call.key = some
        ⟨(windows.act (taken windows (mokaRetention victims) states call) call.request
          call.now).1, call.now⟩ ∨
      (check victims states call).1.lookup call.key = none := by
  have h := lookup_trim hvictims call.key (states.insert call.key
    ⟨(windows.act (taken windows (mokaRetention victims) states call) call.request call.now).1,
      call.now⟩)
  rw [AList.lookup_insert] at h
  exact h

theorem arrivals_other (states : States) {call : Check} (hkey : call.key ≠ key)
    (calls : List Check) : arrivals victims key states (call :: calls) =
      arrivals victims key (check victims states call).1 calls := if_neg hkey

theorem allowed_other (states : States) {call : Check} (hkey : call.key ≠ key)
    (calls : List Check) : allowed victims key states (call :: calls) =
      allowed victims key (check victims states call).1 calls :=
  if_neg (fun h => hkey h.1)

/-- A key without an entry is not known when it is asked about next. -/
theorem arrivals_unknown (hvictims : DropsOnly victims) (calls : List Check) :
    ∀ {states : States}, states.lookup key = none →
      ∀ a ∈ (arrivals victims key states calls).head?, a.known = false := by
  induction calls with
  | nil =>
    intro states _ a ha
    cases ha
  | cons call calls ih =>
    intro states hnone
    by_cases hkey : call.key = key
    · intro a ha
      have hfound : findsEntry victims states call = false := by
        rw [findsEntry, hkey, hnone]
      rw [arrivals, if_pos hkey, List.head?_cons, Option.mem_some] at ha
      rw [← ha, hfound]
    · rw [arrivals_other states hkey]
      refine ih ?_
      rcases lookup_check_ne hvictims states hkey with h | h
      · rw [h, hnone]
      · exact h

/-- What is admitted of the arrivals when the entry is in the cache, or is not. -/
def admittedAfter (limit window : Nat) (e : Option (Entry WindowState)) (as : List Arrival) :
    List Nat :=
  match e with
  | some e => admittedFrom limit window e.value.windowStart (limit - e.value.count) as
  | none => admitted limit window as

/-- An entry that is dropped makes no difference to arrivals that do not find it. -/
theorem admittedAfter_unknown {as : List Arrival} (h : ∀ a ∈ as.head?, a.known = false)
    (e : Option (Entry WindowState)) :
    admittedAfter limit window e as = admitted limit window as := by
  cases e with
  | none => rfl
  | some e =>
    cases as with
    | nil =>
      rw [admittedAfter, admittedFrom_nil]
      simp [admitted, Arrivals.windows]
    | cons a as =>
      have hout : a.within window e.value.windowStart = false := by
        rw [Arrival.within, h a rfl, Bool.false_and]
      exact admittedFrom_over limit window _ _ hout as

theorem admittedAfter_check (hvictims : DropsOnly victims) (states : States) (call : Check)
    {e : Option (Entry WindowState)} (calls : List Check)
    (he : (check victims states call).1.lookup key = e ∨
      (check victims states call).1.lookup key = none) :
    admittedAfter limit window ((check victims states call).1.lookup key)
        (arrivals victims key (check victims states call).1 calls) =
      admittedAfter limit window e (arrivals victims key (check victims states call).1 calls) := by
  rcases he with h | h
  · rw [h]
  · have hunknown := arrivals_unknown hvictims calls h
    rw [admittedAfter_unknown hunknown, admittedAfter_unknown hunknown]

/-! ## One request -/

/-- The decision for one request, against the windows of the arrivals. -/
theorem decide_admitted (hlimit : 1 ≤ limit) (hmax : limit ≤ u32Max) (state : WindowState)
    (now : Nat) (as : List Arrival) :
    admittedFrom limit window state.windowStart (limit - state.count) (⟨now, true⟩ :: as) =
      if (decide state limit window now).2.isAllow then
        now :: admittedFrom limit window (decide state limit window now).1.windowStart
          (limit - (decide state limit window now).1.count) as
      else admittedFrom limit window (decide state limit window now).1.windowStart
          (limit - (decide state limit window now).1.count) as := by
  by_cases hover : window ≤ now - state.windowStart
  · have hout : Arrival.within window state.windowStart ⟨now, true⟩ = false := by
      simp [Arrival.within]
      omega
    obtain ⟨room, rfl⟩ : ∃ room, limit = room + 1 := ⟨limit - 1, by omega⟩
    rw [decide_over hover, admittedFrom_over _ _ _ _ hout, admitted_cons]
    rfl
  · have hin : Arrival.within window state.windowStart ⟨now, true⟩ = true := by
      simp [Arrival.within]
      omega
    by_cases hroom : state.count < limit
    · have hcount : min (state.count + 1) u32Max = state.count + 1 := by omega
      rw [decide_under state hover hroom, hcount]
      show _ = now :: admittedFrom limit window state.windowStart (limit - (state.count + 1)) as
      rw [show limit - state.count = limit - (state.count + 1) + 1 by omega,
        admittedFrom_room _ _ _ _ hin]
    · have hnone : limit - state.count = 0 := by omega
      rw [decide_full hover hroom]
      show _ = admittedFrom limit window state.windowStart (limit - state.count) as
      rw [hnone, admittedFrom_full _ _ _ hin]

/-- A request that does not find an entry opens a window. -/
theorem decide_new_admitted (hlimit : 1 ≤ limit) (window now : Nat)
    (as : List Arrival) :
    decide (.new now) limit window now = (⟨1, now⟩, .allow (limit - 1)) ∧
      admitted limit window (⟨now, false⟩ :: as) =
        now :: admittedFrom limit window now (limit - 1) as := by
  constructor
  · rcases Nat.eq_zero_or_pos window with hzero | hpos
    · exact decide_over (by omega)
    · exact decide_new hlimit hpos now
  · obtain ⟨room, rfl⟩ : ∃ room, limit = room + 1 := ⟨limit - 1, by omega⟩
    exact admitted_cons room window ⟨now, false⟩ as

theorem taken_found {states : States} {call : Check}
    (h : findsEntry victims states call = true) :
    ∃ e, states.lookup call.key = some e ∧
      taken windows (mokaRetention victims) states call = e.value := by
  unfold findsEntry at h
  cases hlookup : states.lookup call.key with
  | none =>
    rw [hlookup] at h
    cases h
  | some e =>
    rw [hlookup] at h
    simp only [Bool.not_eq_true'] at h
    refine ⟨e, rfl, ?_⟩
    rw [taken_of_lookup hlookup, h]
    rfl

theorem taken_not_found {states : States} {call : Check}
    (h : findsEntry victims states call = false) :
    taken windows (mokaRetention victims) states call = .new call.now := by
  unfold findsEntry at h
  cases hlookup : states.lookup call.key with
  | none => exact taken_of_none hlookup
  | some e =>
    rw [hlookup] at h
    simp only [Bool.not_eq_false'] at h
    rw [taken_of_lookup hlookup, if_pos h]
    rfl

/-! ## Runs -/

/-- The limiter allows the first `limit` requests of every window. -/
theorem allowed_eq_admittedAfter (hvictims : DropsOnly victims) (hlimit : 1 ≤ limit)
    (hmax : limit ≤ u32Max) {calls : List Check}
    (hquota : ∀ call ∈ calls, call.key = key → call.request = ⟨limit, window⟩) :
    ∀ states, allowed victims key states calls =
      admittedAfter limit window (states.lookup key) (arrivals victims key states calls) := by
  induction calls with
  | nil =>
    intro states
    rw [allowed, arrivals, admittedAfter_unknown (fun a ha => by cases ha)]
    simp [admitted, Arrivals.windows]
  | cons call calls ih =>
    intro states
    have hnext := ih (fun c hc => hquota c (List.mem_cons_of_mem call hc))
      (check victims states call).1
    by_cases hkey : call.key = key
    · have hrequest := hquota call List.mem_cons_self hkey
      subst hkey
      rw [admittedAfter_check hvictims states call calls
        (lookup_check_self hvictims states call), admittedAfter] at hnext
      have hcheck : (check victims states call).2 = (decide (taken windows (mokaRetention victims)
          states call) limit window call.now).2 := by
        show (decide _ call.request.limit call.request.window call.now).2 = _
        rw [hrequest]
      have hstate : (windows.act (taken windows (mokaRetention victims) states call) call.request
          call.now).1 = (decide (taken windows (mokaRetention victims) states call) limit window
            call.now).1 := by
        show (decide _ call.request.limit call.request.window call.now).1 = _
        rw [hrequest]
      rw [allowed, arrivals, if_pos rfl]
      simp only [true_and]
      rw [hnext, hcheck, hstate]
      cases hfound : findsEntry victims states call with
      | true =>
        obtain ⟨e, he, htaken⟩ := taken_found hfound
        rw [htaken, he]
        exact (decide_admitted hlimit hmax e.value call.now _).symm
      | false =>
        obtain ⟨hnew, hadmit⟩ := decide_new_admitted hlimit window call.now
          (arrivals victims call.key (check victims states call).1 calls)
        have hunknown : ∀ a ∈ (⟨call.now, false⟩ ::
            arrivals victims call.key (check victims states call).1 calls).head?,
            a.known = false := by
          intro a ha
          rw [List.head?_cons, Option.mem_some] at ha
          rw [← ha]
        rw [taken_not_found hfound, admittedAfter_unknown hunknown, hnew, hadmit]
        rfl
    · rw [allowed_other states hkey, arrivals_other states hkey, hnext]
      exact admittedAfter_check hvictims states call calls (lookup_check_ne hvictims states hkey)

end Simulation

/-- Two requests in 10 seconds are allowed.  One comes at the start of a window
and one at its end, and the next window takes two more at once. -/
def bursts : List Check :=
  [⟨"k", ⟨2, ofSecs 10⟩, 0⟩, ⟨"k", ⟨2, ofSecs 10⟩, ofSecs 9⟩, ⟨"k", ⟨2, ofSecs 10⟩, ofSecs 10⟩,
    ⟨"k", ⟨2, ofSecs 10⟩, ofSecs 11⟩]

theorem bursts_quota : ∀ call ∈ bursts, call.key = "k" → call.request = ⟨2, ofSecs 10⟩ := by
  intro call hcall _
  simp only [bursts, List.mem_cons, List.not_mem_nil, or_false] at hcall
  rcases hcall with rfl | rfl | rfl | rfl <;> rfl

theorem allowed_not_bounded : ¬ ∀ victims key limit window calls, DropsOnly victims → 1 ≤ limit →
    limit ≤ u32Max → (calls.map Call.now).Pairwise (· ≤ ·) →
    (∀ call ∈ calls, call.key = key → call.request = ⟨limit, window⟩) →
      Bounded limit window (allowed victims key ∅ calls) := by
  intro h
  have hbound := h id "k" 2 (ofSecs 10) bursts (fun _ _ _ h => h) (by decide) (by decide)
    (by decide) bursts_quota (ofSecs 9)
  have hthree : allowed id "k" ∅ bursts = [0, ofSecs 9, ofSecs 10, ofSecs 11] := by
    decide +kernel
  rw [hthree] at hbound
  revert hbound
  decide

/-! ## Twice the limit -/

theorem arrivals_sublist (victims : States → States) (key : String) (states : States)
    (calls : List Check) :
    ((arrivals victims key states calls).map Arrival.now).Sublist (calls.map Call.now) := by
  induction calls generalizing states with
  | nil => exact List.Sublist.refl _
  | cons call calls ih =>
    rw [arrivals, List.map_cons]
    split
    · exact (ih _).cons_cons call.now
    · exact (ih _).cons call.now

theorem admitted_of_allowed {victims : States → States} (hvictims : DropsOnly victims)
    (key : String) {limit window : Nat} (hlimit : 1 ≤ limit) (hmax : limit ≤ u32Max)
    {calls : List Check}
    (hquota : ∀ call ∈ calls, call.key = key → call.request = ⟨limit, window⟩) :
    allowed victims key ∅ calls = admitted limit window (arrivals victims key ∅ calls) := by
  have hallowed := allowed_eq_admittedAfter hvictims hlimit hmax hquota ∅
  rwa [AList.lookup_empty, admittedAfter] at hallowed

/-- What the windows do bound: an interval of their length meets two of them, and
one more for each request in it that finds its entry dropped. -/
theorem allowed_within {victims : States → States} (hvictims : DropsOnly victims)
    {key : String} {limit window : Nat} (hlimit : 1 ≤ limit) (hmax : limit ≤ u32Max)
    {calls : List Check} (hsorted : (calls.map Call.now).Pairwise (· ≤ ·))
    (hquota : ∀ call ∈ calls, call.key = key → call.request = ⟨limit, window⟩) (t : Nat) :
    countIn t window (allowed victims key ∅ calls) <
      limit * (2 + unknownIn t window (arrivals victims key ∅ calls).tail) := by
  rw [admitted_of_allowed hvictims key hlimit hmax hquota]
  apply admitted_within hlimit
  exact List.pairwise_map.mp (hsorted.sublist (arrivals_sublist victims key ∅ calls))

/-- The requests of a key that are allowed are the first `limit` of every window,
and fewer than twice the limit lie in an interval of the window's length in which
no request finds its entry dropped. -/
theorem allowed_by_windows {victims : States → States} (hvictims : DropsOnly victims)
    (key : String) {limit window : Nat} (hlimit : 1 ≤ limit) (hmax : limit ≤ u32Max)
    {calls : List Check} (hsorted : (calls.map Call.now).Pairwise (· ≤ ·))
    (hquota : ∀ call ∈ calls, call.key = key → call.request = ⟨limit, window⟩) :
    allowed victims key ∅ calls = admitted limit window (arrivals victims key ∅ calls) ∧
      ∀ t, countIn t window (allowed victims key ∅ calls) <
        limit * (2 + unknownIn t window (arrivals victims key ∅ calls).tail) :=
  ⟨admitted_of_allowed hvictims key hlimit hmax hquota,
    allowed_within hvictims hlimit hmax hsorted hquota⟩

theorem allowed_by_windows_bursts :
    Arrivals.windows (ofSecs 10) (arrivals id "k" ∅ bursts) =
        [[0, ofSecs 9], [ofSecs 10, ofSecs 11]] ∧
      allowed id "k" ∅ bursts = admitted 2 (ofSecs 10) (arrivals id "k" ∅ bursts) ∧
      countIn (ofSecs 9) (ofSecs 10) (allowed id "k" ∅ bursts) = 3 ∧
      countIn (ofSecs 9) (ofSecs 10) (allowed id "k" ∅ bursts) <
        2 * (2 + unknownIn (ofSecs 9) (ofSecs 10) (arrivals id "k" ∅ bursts).tail) := by
  have hvictims : DropsOnly (id : States → States) := fun _ _ _ h => h
  obtain ⟨hwindows, hbound⟩ := allowed_by_windows hvictims "k" (show 1 ≤ 2 by decide)
    (by decide) (show (bursts.map Call.now).Pairwise (· ≤ ·) by decide) bursts_quota
  refine ⟨?_, hwindows, ?_, hbound (ofSecs 9)⟩
  · have harrivals : arrivals id "k" ∅ bursts =
        [⟨0, false⟩, ⟨ofSecs 9, true⟩, ⟨ofSecs 10, true⟩, ⟨ofSecs 11, true⟩] := by decide +kernel
    rw [harrivals]
    simp [Arrivals.windows, Arrival.within, ofSecs]
  · decide +kernel

end Limiter
end GreenRelay
