/-
The rate limiter of the API and the configuration it runs under.

`decide` is the decision for one key; the limiter keeps the state of every key
in a cache that drops entries which were idle for `entryTtl`, and others when
there are more than `maxTrackedKeys`.  Instants and durations are counted in
nanoseconds.  The ceiling of the remaining seconds is taken exactly.
-/
import GreenRelay.Lib.Cache
import GreenRelay.Lib.Text

namespace GreenRelay
namespace Limiter

open Text Cache

/-! ## Configuration -/

abbrev Settings := String → Option String

inductive ConfigError where
  | invalidValue (key value reason : String)
  deriving DecidableEq, Repr

def keyDefaultRateLimit : String := "DEFAULT_RATE_LIMIT"

def keyRateWindowSecs : String := "RATE_WINDOW_SECS"

def optionalString (map : Settings) (key : String) : Option String :=
  ((map key).map (fun v => trim v.toList)).bind
    (fun v => if v.isEmpty then none else some (String.ofList v))

/-- A number below `bound`, or the default where there is none. -/
def parseOrDefault (bound : Nat) (map : Settings) (key : String) (default : Nat) :
    Except ConfigError Nat :=
  match optionalString map key with
  | none => .ok default
  | some raw =>
    match parseUnsigned bound raw.toList with
    | some n => .ok n
    | none => .error (.invalidValue key raw "expected a non-negative integer")

def parseU32OrDefault := parseOrDefault 4294967296

def parseU64OrDefault := parseOrDefault 18446744073709551616

def outOfRange (map : Settings) (key reason : String) : ConfigError :=
  .invalidValue key ((map key).getD "") reason

/-- The default limit that `from_map` accepts. -/
def defaultRateLimit (map : Settings) : Except ConfigError Nat :=
  match parseU32OrDefault map keyDefaultRateLimit 100 with
  | .ok n =>
    if 1 ≤ n ∧ n ≤ 10000 then .ok n
    else .error (outOfRange map keyDefaultRateLimit "must be between 1 and 10000 requests")
  | .error e => .error e

/-- The rate window that `from_map` accepts. -/
def rateWindowSecs (map : Settings) : Except ConfigError Nat :=
  match parseU64OrDefault map keyRateWindowSecs 60 with
  | .ok n =>
    if n = 0 then .error (outOfRange map keyRateWindowSecs "must be greater than 0") else .ok n
  | .error e => .error e

theorem defaultRateLimit_range {map : Settings} {n : Nat} (h : defaultRateLimit map = .ok n) :
    1 ≤ n ∧ n ≤ 10000 := by
  unfold defaultRateLimit at h
  split at h
  · split at h
    · next hrange =>
      rw [← Except.ok.inj h]
      exact hrange
    · cases h
  · cases h

theorem rateWindowSecs_pos {map : Settings} {n : Nat} (h : rateWindowSecs map = .ok n) : 1 ≤ n := by
  unfold rateWindowSecs at h
  split at h
  · split at h
    · cases h
    · next hzero =>
      rw [← Except.ok.inj h]
      exact Nat.pos_of_ne_zero hzero
  · cases h

/-! ## Limits -/

def customLimitMin : Nat := 1

def customLimitMax : Nat := 10000

structure RateLimitConfigError where
  configured : Nat
  deriving DecidableEq, Repr

def effectiveLimit (custom : Option Nat) (default : Nat) : Nat × Option RateLimitConfigError :=
  match custom with
  | some c =>
    if customLimitMin ≤ c ∧ c ≤ customLimitMax then (c, none) else (default, some ⟨c⟩)
  | none => (default, none)

/-- No key has a limit of zero. -/
theorem effectiveLimit_pos (custom : Option Nat) {default : Nat} (h : 1 ≤ default) :
    1 ≤ (effectiveLimit custom default).1 := by
  unfold effectiveLimit
  split
  · split
    · next hrange => exact hrange.1
    · exact h
  · exact h

/-! ## The decision for one key -/

def ofSecs (n : Nat) : Nat := n * 1000000000

def asSecs (nanos : Nat) : Nat := nanos / 1000000000

def u32Max : Nat := 4294967295

structure WindowState where
  count : Nat
  windowStart : Nat
  deriving DecidableEq, Repr

def WindowState.new (now : Nat) : WindowState := ⟨0, now⟩

inductive RateDecision where
  | allow (remaining : Nat)
  | reject (retryAfterSecs : Nat)
  deriving DecidableEq, Repr

def retryAfterSecs (window elapsed : Nat) : Nat :=
  let windowSecs := max (asSecs window) 1
  let remaining := window - elapsed
  let secs := asSecs (remaining + 999999999)
  min (max secs 1) windowSecs

def decide (state : WindowState) (limit window now : Nat) : WindowState × RateDecision :=
  let elapsed := now - state.windowStart
  if window ≤ elapsed then (⟨1, now⟩, .allow (limit - 1))
  else if state.count < limit then
    let count := min (state.count + 1) u32Max
    (⟨count, state.windowStart⟩, .allow (limit - count))
  else (state, .reject (retryAfterSecs window elapsed))

theorem decide_over {state : WindowState} {limit window now : Nat}
    (h : window ≤ now - state.windowStart) :
    decide state limit window now = (⟨1, now⟩, .allow (limit - 1)) := if_pos h

theorem decide_under (state : WindowState) {limit window now : Nat}
    (h : ¬ window ≤ now - state.windowStart) (hcount : state.count < limit) :
    decide state limit window now = (⟨min (state.count + 1) u32Max, state.windowStart⟩,
      .allow (limit - min (state.count + 1) u32Max)) := by
  unfold decide
  rw [if_neg h, if_pos hcount]

theorem decide_full {state : WindowState} {limit window now : Nat}
    (h : ¬ window ≤ now - state.windowStart) (hcount : ¬ state.count < limit) :
    decide state limit window now =
      (state, .reject (retryAfterSecs window (now - state.windowStart))) := by
  unfold decide
  rw [if_neg h, if_neg hcount]

/-- The first request of a key is like the first of a new window. -/
theorem decide_new {limit window : Nat} (hlimit : 1 ≤ limit) (hwindow : 1 ≤ window) (now : Nat) :
    decide (.new now) limit window now = (⟨1, now⟩, .allow (limit - 1)) :=
  decide_under (.new now) (by simp only [WindowState.new]; omega) hlimit

/-! ## The limiter -/

def maxTrackedKeys : Nat := 50000

def entryTtl : Nat := ofSecs 3600

/-- The limit and the window a request is checked against. -/
structure Quota where
  limit : Nat
  window : Nat

def windows : Object WindowState Quota RateDecision where
  fresh := WindowState.new
  act state quota now := decide state quota.limit quota.window now

abbrev States := Entries String WindowState

abbrev Check := Call String Quota

/-- What the cache of the limiter does not keep.  Which entries go when there are
too many is left to the cache. -/
def mokaRetention (victims : States → States) : Retention String WindowState :=
  .bounded entryTtl maxTrackedKeys victims

def check (victims : States → States) (states : States) (call : Check) : States × RateDecision :=
  access windows (mokaRetention victims) states call

/-- The decisions of a new limiter. -/
def decisions (victims : States → States) (calls : List Check) : List RateDecision :=
  outputs windows (mokaRetention victims) ∅ calls

/-- The decisions of a limiter that never drops an entry. -/
def decisionsKeeping (calls : List Check) : List RateDecision := outputs windows .keeping ∅ calls

end Limiter
end GreenRelay
