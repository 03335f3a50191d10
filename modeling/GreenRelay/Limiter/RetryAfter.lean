/-
How long a rejected request is told to wait, and what a window allows.

A rejection names the seconds that are left of the window, rounded up.  After
them the window is over, and a second earlier it is not.  A rejection changes
nothing, so within a window the requests that are allowed are the first ones.
-/
import GreenRelay.Limiter.RateLimit

namespace GreenRelay
namespace Limiter

/-! ## Runs of one key -/

/-- The state after requests at the given times. -/
def after (limit window : Nat) (state : WindowState) (times : List Nat) : WindowState :=
  times.foldl (fun s now => (decide s limit window now).1) state

def answers (limit window : Nat) : WindowState → List Nat → List RateDecision
  | _, [] => []
  | state, now :: times =>
    (decide state limit window now).2 ::
      answers limit window (decide state limit window now).1 times

/-- The window is over when the request comes, so that a new one begins. -/
def Resets (state : WindowState) (window now : Nat) : Prop := window ≤ now - state.windowStart

/-- None of the requests begins a new window. -/
def NoReset (limit window : Nat) : WindowState → List Nat → Prop
  | _, [] => True
  | state, now :: times =>
    ¬ Resets state window now ∧ NoReset limit window (decide state limit window now).1 times

/-- A request that begins a window: the last one is over, or the key is new. -/
def Opens (state : WindowState) (window now : Nat) : Prop :=
  Resets state window now ∨ state = .new now

theorem decide_windowStart {state : WindowState} {limit window now later : Nat}
    (hstart : state.windowStart ≤ now) (hlater : now ≤ later) :
    (decide state limit window now).1.windowStart ≤ later := by
  by_cases hover : window ≤ now - state.windowStart
  · rw [decide_over hover]
    exact hlater
  · by_cases hcount : state.count < limit
    · rw [decide_under state hover hcount]
      exact Nat.le_trans hstart hlater
    · rw [decide_full hover hcount]
      exact Nat.le_trans hstart hlater

/-- The window of a run never begins after the next request. -/
theorem after_windowStart {limit window now : Nat} : ∀ (times : List Nat) (state : WindowState),
    (state.windowStart :: (times ++ [now])).Pairwise (· ≤ ·) →
      (after limit window state times).windowStart ≤ now := by
  intro times
  induction times with
  | nil =>
    intro state h
    exact (List.pairwise_cons.mp h).1 now (by simp)
  | cons first times ih =>
    intro state h
    obtain ⟨hstart, hrest⟩ := List.pairwise_cons.mp h
    obtain ⟨hfirst, htail⟩ := List.pairwise_cons.mp hrest
    refine ih _ (List.pairwise_cons.mpr ⟨fun later hlater => ?_, htail⟩)
    exact decide_windowStart (hstart first (by simp)) (hfirst later hlater)

/-! ## Retry-After -/

/-- What a rejection at `now` promises with its number of seconds. -/
structure RetryAfter (state : WindowState) (limit windowSecs now secs : Nat) : Prop where
  pos : 1 ≤ secs
  within : secs ≤ windowSecs
  unchanged : (decide state limit (ofSecs windowSecs) now).1 = state
  sufficient : ∀ later, now + ofSecs secs ≤ later → ∃ remaining,
    (decide (decide state limit (ofSecs windowSecs) now).1 limit (ofSecs windowSecs) later).2
      = .allow remaining
  tight : 1 < secs → ∃ other,
    (decide (decide state limit (ofSecs windowSecs) now).1 limit (ofSecs windowSecs)
      (now + ofSecs (secs - 1))).2 = .reject other

/-- The seconds are what is left of the window, rounded up. -/
theorem retryAfterSecs_ceil {windowSecs elapsed : Nat} (hleft : elapsed < ofSecs windowSecs) :
    let secs := retryAfterSecs (ofSecs windowSecs) elapsed
    1 ≤ secs ∧ secs ≤ windowSecs ∧ ofSecs windowSecs ≤ elapsed + ofSecs secs ∧
      elapsed + ofSecs (secs - 1) < ofSecs windowSecs := by
  simp only [retryAfterSecs, ofSecs, asSecs] at hleft ⊢
  omega

theorem retryAfter_of_reject {state : WindowState} {limit windowSecs now secs : Nat}
    (hstart : state.windowStart ≤ now)
    (h : (decide state limit (ofSecs windowSecs) now).2 = .reject secs) :
    RetryAfter state limit windowSecs now secs := by
  by_cases hover : ofSecs windowSecs ≤ now - state.windowStart
  · rw [decide_over hover] at h
    cases h
  · by_cases hcount : state.count < limit
    · rw [decide_under state hover hcount] at h
      cases h
    · have hfull := decide_full hover hcount
      rw [hfull] at h
      obtain ⟨hpos, hwithin, hafter, hbefore⟩ := retryAfterSecs_ceil (Nat.lt_of_not_le hover)
      obtain rfl := RateDecision.reject.inj h
      refine ⟨hpos, hwithin, by rw [hfull], fun later hlater => ?_, fun _ => ?_⟩
      · have hreset : ofSecs windowSecs ≤ later - state.windowStart := by omega
        rw [hfull]
        exact ⟨_, congrArg Prod.snd (decide_over hreset)⟩
      · have hwithin : ¬ ofSecs windowSecs ≤ now + ofSecs
            (retryAfterSecs (ofSecs windowSecs) (now - state.windowStart) - 1) -
              state.windowStart := by omega
        rw [hfull]
        exact ⟨_, congrArg Prod.snd (decide_full hwithin hcount)⟩

/-! ## The budget of a window -/

/-- Within a window the next requests are allowed until the count is full. -/
theorem answers_within {limit window : Nat} (hmax : limit ≤ u32Max) :
    ∀ (times : List Nat) (state : WindowState), NoReset limit window state times →
      ∀ i answer, (answers limit window state times)[i]? = some answer →
        (state.count + i < limit → answer = .allow (limit - 1 - (state.count + i))) ∧
          (limit ≤ state.count + i → ∃ secs, answer = .reject secs) := by
  intro times
  induction times with
  | nil =>
    intro state _ i answer h
    cases h
  | cons now times ih =>
    intro state hnone i answer h
    obtain ⟨hreset, hrest⟩ := hnone
    by_cases hcount : state.count < limit
    · have hunder := decide_under state hreset hcount
      have hmin : min (state.count + 1) u32Max = state.count + 1 := by omega
      rw [hmin] at hunder
      rw [answers, hunder] at h
      rw [hunder] at hrest
      cases i with
      | zero =>
        obtain rfl := Option.some.inj h
        exact ⟨fun _ => by rw [Nat.add_zero, Nat.sub_sub, Nat.add_comm 1], fun hge => by omega⟩
      | succ i =>
        have hnext := ih _ hrest i answer h
        simp only [show state.count + 1 + i = state.count + (i + 1) by omega] at hnext
        exact hnext
    · have hfull := decide_full hreset hcount
      rw [answers, hfull] at h
      rw [hfull] at hrest
      cases i with
      | zero =>
        obtain rfl := Option.some.inj h
        exact ⟨fun hlt => by omega, fun _ => ⟨_, rfl⟩⟩
      | succ i =>
        have hnext := ih state hrest i answer h
        exact ⟨fun hlt => by omega, fun _ => hnext.2 (by omega)⟩

theorem decide_opens {state : WindowState} {limit window now : Nat} (hlimit : 1 ≤ limit)
    (hwindow : 1 ≤ window) (h : Opens state window now) :
    decide state limit window now = (⟨1, now⟩, .allow (limit - 1)) := by
  rcases h with hreset | rfl
  · exact decide_over hreset
  · exact decide_new hlimit hwindow now

/-- Between two resets exactly the first `limit` requests are allowed, and the
remaining budget counts down to zero. -/
theorem answers_opened {limit window : Nat} (hlimit : 1 ≤ limit) (hmax : limit ≤ u32Max)
    (hwindow : 1 ≤ window) {state : WindowState} {now : Nat} (hopens : Opens state window now)
    {times : List Nat} (hnone : NoReset limit window (decide state limit window now).1 times)
    {i : Nat} {answer : RateDecision}
    (h : (answers limit window state (now :: times))[i]? = some answer) :
    (i < limit → answer = .allow (limit - 1 - i)) ∧
      (limit ≤ i → ∃ secs, answer = .reject secs) := by
  have hopened := decide_opens hlimit hwindow hopens
  rw [answers, hopened] at h
  rw [hopened] at hnone
  cases i with
  | zero =>
    obtain rfl := Option.some.inj h
    exact ⟨fun _ => rfl, fun hge => by omega⟩
  | succ i =>
    have hnext := answers_within hmax times _ hnone i answer h
    simp only [Nat.add_comm 1 i] at hnext
    exact hnext

/-- In every run of requests for a key, at times that do not go back from the
start of its window on: a rejection names a wait that is sufficient and tight, and
changes nothing; and a window that a request opens allows exactly its budget. -/
theorem decide_exact {limit windowSecs : Nat} (hlimit : 1 ≤ limit) (hmax : limit ≤ u32Max)
    (hwindow : 1 ≤ windowSecs) {state : WindowState} {times : List Nat} {now : Nat}
    (hsorted : (state.windowStart :: (times ++ [now])).Pairwise (· ≤ ·)) :
    let reached := after limit (ofSecs windowSecs) state times
    (∀ secs, (decide reached limit (ofSecs windowSecs) now).2 = .reject secs →
      RetryAfter reached limit windowSecs now secs) ∧
    (Opens reached (ofSecs windowSecs) now → ∀ later,
      NoReset limit (ofSecs windowSecs) (decide reached limit (ofSecs windowSecs) now).1 later →
      ∀ i answer, (answers limit (ofSecs windowSecs) reached (now :: later))[i]? = some answer →
        (i < limit → answer = .allow (limit - 1 - i)) ∧
          (limit ≤ i → ∃ secs, answer = .reject secs)) := by
  have hpos : 1 ≤ ofSecs windowSecs := by
    simp only [ofSecs]
    omega
  constructor
  · intro secs hreject
    exact retryAfter_of_reject (after_windowStart times state hsorted) hreject
  · intro hopens later hnone i answer hanswer
    exact answers_opened hlimit hmax hpos hopens hnone hanswer

theorem decide_exact_full : RetryAfter ⟨1, 0⟩ 1 2 500000000 2 :=
  (@decide_exact 1 2 (by decide) (by decide) (by decide) ⟨1, 0⟩ [] 500000000 (by simp)).1 2
    (by decide +kernel)

end Limiter
end GreenRelay
