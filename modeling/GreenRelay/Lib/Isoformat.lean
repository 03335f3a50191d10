/-
Dates and times as `datetime.fromisoformat` of Python reads them.

The texts are `YYYY-MM-DD[*HH[:MM[:SS[.fff[fff]]]][+HH:MM[:SS[.ffffff]]]]`, with
any character in the place of `*`.  A strict reader takes fractions of three or
six digits, and a lenient one, that of 3.11 and later, takes any number of them
and keeps six; its further forms (without separators, by weeks, with a comma or
`Z`) are left out.  What is read of an RFC 3339 text is the instant without what
is below a microsecond (`fromisoformat_toRfc3339`).
-/
import GreenRelay.Lib.Rfc3339
import GreenRelay.Lib.Text
import Mathlib.Data.Option.Basic

namespace Isoformat

open Rfc3339 Text

/-! ## Reading -/

structure Clock where
  hour : Nat
  minute : Nat
  second : Nat
  microsecond : Nat
  deriving DecidableEq, Repr

/-- The offset from UTC, in microseconds, is absent from a naive one. -/
structure DateTime where
  year : Nat
  month : Nat
  day : Nat
  clock : Clock
  offset : Option Int
  deriving DecidableEq, Repr

/-- A number of exactly `width` digits, and what comes after it. -/
def number (width : Nat) (s : List Char) : Option (Nat × List Char) :=
  if (s.take width).length = width ∧ (s.take width).all Char.isDigit = true then
    some (digitsValue (s.take width), s.drop width)
  else none

/-- A number that comes after a separator. -/
def numberAfter (c : Char) (width : Nat) (s : List Char) : Option (Nat × List Char) :=
  (stripPrefix [c] s).bind (number width)

def microseconds (lenient : Bool) (ds : List Char) : Option Nat :=
  if ds.all Char.isDigit = true ∧
      (if lenient then ds ≠ [] else ds.length = 3 ∨ ds.length = 6) then
    some (digitsValue (ds.take 6) * 10 ^ (6 - (ds.take 6).length))
  else none

def readClock (lenient : Bool) (s : List Char) : Option Clock := do
  let (hour, s) ← number 2 s
  if s.isEmpty then return ⟨hour, 0, 0, 0⟩
  let (minute, s) ← numberAfter ':' 2 s
  if s.isEmpty then return ⟨hour, minute, 0, 0⟩
  let (second, s) ← numberAfter ':' 2 s
  if s.isEmpty then return ⟨hour, minute, second, 0⟩
  let microsecond ← (stripPrefix ['.'] s).bind (microseconds lenient)
  return ⟨hour, minute, second, microsecond⟩

def Clock.micros (c : Clock) : Nat :=
  ((c.hour * 60 + c.minute) * 60 + c.second) * 1000000 + c.microsecond

def dayMicros : Nat := 86400000000

def isSign (c : Char) : Bool := c == '+' || c == '-'

/-- The offset after its sign. -/
def readOffset (lenient : Bool) (sign : Char) (s : List Char) : Option Int := do
  guard (lenient ∨ s.length = 5 ∨ s.length = 8 ∨ s.length = 15)
  let c ← readClock lenient s
  guard (c.micros < dayMicros)
  return if sign = '-' then -c.micros else c.micros

def readTime (lenient : Bool) (s : List Char) : Option (Clock × Option Int) := do
  let clock ← readClock lenient (s.takeWhile (fun c => !isSign c))
  match s.dropWhile (fun c => !isSign c) with
  | [] => return (clock, none)
  | sign :: rest =>
    let offset ← readOffset lenient sign rest
    return (clock, some offset)

structure DateTime.Valid (d : DateTime) : Prop where
  year : 0 < d.year ∧ d.year < 10000
  month : 0 < d.month ∧ d.month ≤ 12
  day : 0 < d.day ∧ d.day ≤ daysInMonth d.year d.month
  hour : d.clock.hour < 24
  minute : d.clock.minute < 60
  second : d.clock.second < 60

instance decidableValid (d : DateTime) : Decidable d.Valid :=
  decidable_of_iff ((0 < d.year ∧ d.year < 10000) ∧ (0 < d.month ∧ d.month ≤ 12) ∧
      (0 < d.day ∧ d.day ≤ daysInMonth d.year d.month) ∧ d.clock.hour < 24 ∧
      d.clock.minute < 60 ∧ d.clock.second < 60)
    ⟨fun h => ⟨h.1, h.2.1, h.2.2.1, h.2.2.2.1, h.2.2.2.2.1, h.2.2.2.2.2⟩,
      fun h => ⟨h.year, h.month, h.day, h.hour, h.minute, h.second⟩⟩

/-- Nothing is read where Python raises a `ValueError`. -/
def fromisoformat (lenient : Bool) (s : List Char) : Option DateTime := do
  let (year, s) ← number 4 s
  let (month, s) ← numberAfter '-' 2 s
  let (day, s) ← numberAfter '-' 2 s
  let (clock, offset) ← match s with
    | [] => some (⟨0, 0, 0, 0⟩, none)
    | _ :: time => readTime lenient time
  guard (DateTime.Valid ⟨year, month, day, clock, offset⟩)
  return ⟨year, month, day, clock, offset⟩

/-! ## Digits -/

theorem isDigit_digit (n : Nat) : (digit n).isDigit = true := by
  have hvalue := digit_toNat n
  simp only [Char.isDigit, Bool.and_eq_true, decide_eq_true_eq, ge_iff_le,
    UInt32.le_iff_toNat_le]
  show 48 ≤ (digit n).toNat ∧ (digit n).toNat ≤ 57
  omega

theorem all_pad (width n : Nat) : (pad width n).all Char.isDigit = true := by
  induction width generalizing n with
  | zero => rfl
  | succ width ih => rw [pad, List.all_append, ih, List.all_cons, isDigit_digit]; rfl

theorem length_pad (width n : Nat) : (pad width n).length = width := by
  induction width generalizing n with
  | zero => rfl
  | succ width ih => rw [pad, List.length_append, ih]; rfl

theorem digitsValue_pad {width n : Nat} (h : n < 10 ^ width) : digitsValue (pad width n) = n := by
  induction width generalizing n with
  | zero =>
    rw [Nat.pow_zero] at h
    rw [pad]
    show 0 = n
    omega
  | succ width ih =>
    rw [Nat.pow_succ] at h
    have hrest : digitsValue (pad width (n / 10)) = n / 10 := ih (by omega)
    rw [digitsValue] at hrest
    rw [pad, digitsValue, List.foldl_append, hrest, List.foldl_cons, List.foldl_nil, digit_toNat]
    omega

theorem number_pad {width n : Nat} (h : n < 10 ^ width) (r : List Char) :
    number width (pad width n ++ r) = some (n, r) := by
  have htake : (pad width n ++ r).take width = pad width n := List.take_left' (length_pad width n)
  have hdrop : (pad width n ++ r).drop width = r := List.drop_left' (length_pad width n)
  rw [number, htake, hdrop, if_pos ⟨length_pad width n, all_pad width n⟩, digitsValue_pad h]

theorem numberAfter_pad {width n : Nat} (c : Char) (h : n < 10 ^ width) (r : List Char) :
    numberAfter c width (c :: (pad width n ++ r)) = some (n, r) := by
  have hstrip : stripPrefix [c] (c :: (pad width n ++ r)) = some (pad width n ++ r) :=
    stripPrefix_eq_some.mpr rfl
  rw [numberAfter, hstrip, Option.bind_some, number_pad h]

/-! ## Fractions -/

theorem microseconds_pad (lenient : Bool) {width n : Nat} (h : n < 10 ^ width)
    (hwidth : width = 3 ∨ width = 6) :
    microseconds lenient (pad width n) = some (n * 10 ^ (6 - width)) := by
  have htake : (pad width n).take 6 = pad width n :=
    List.take_of_length_le (by rw [length_pad]; omega)
  have hsome : if lenient then pad width n ≠ [] else (pad width n).length = 3 ∨
      (pad width n).length = 6 := by
    cases lenient with
    | true =>
      have hlength := length_pad width n
      intro hnil
      rw [hnil] at hlength
      simp at hlength
      omega
    | false =>
      rw [if_neg (by decide), length_pad]
      exact hwidth
  rw [microseconds, htake, if_pos ⟨all_pad width n, hsome⟩, digitsValue_pad h, length_pad]

/-- Of nine digits a lenient reader keeps six, and a strict one takes none. -/
theorem microseconds_pad_nine (lenient : Bool) {n : Nat} (h : n < 1000000000) :
    microseconds lenient (pad 9 n) = if lenient then some (n / 1000) else none := by
  have htake : (pad 9 n).take 6 = pad 6 (n / 1000) := by
    have hsplit : pad (6 + 3) n = pad 6 (n / 10 ^ 3) ++ pad 3 (n % 10 ^ 3) := pad_append 6 3 n
    rw [show (9 : Nat) = 6 + 3 from rfl, hsplit]
    exact List.take_left' (length_pad 6 _)
  cases lenient with
  | true =>
    have hne : pad 9 n ≠ [] := by
      intro hnil
      have hlength := length_pad 9 n
      rw [hnil] at hlength
      cases hlength
    rw [microseconds, if_pos ⟨all_pad 9 n, hne⟩, htake, digitsValue_pad (by omega), length_pad]
    simp
  | false =>
    rw [microseconds, if_neg]
    · rfl
    · rintro ⟨_, hlength⟩
      simp [length_pad] at hlength

/-! ## RFC 3339 texts -/

/-- A reader keeps the microseconds of a fraction; a strict one takes no digits
below them. -/
def Takes (lenient : Bool) (nano : Nat) : Prop := lenient = true ∨ nano % 1000 = 0

instance decidableTakes (lenient : Bool) (nano : Nat) : Decidable (Takes lenient nano) :=
  inferInstanceAs (Decidable (_ ∨ _))

theorem readFraction {lenient : Bool} {nano : Nat} (h : nano < 1000000000) (hne : nano ≠ 0) :
    (stripPrefix ['.'] (fraction nano)).bind (microseconds lenient)
      = if Takes lenient nano then some (nano / 1000) else none := by
  have hdigits : ∀ ds, stripPrefix ['.'] ('.' :: ds) = some ds :=
    fun ds => stripPrefix_eq_some.mpr rfl
  unfold fraction
  rw [if_neg hne]
  by_cases hsix : nano % 1000 = 0
  · have htakes : Takes lenient nano := Or.inr hsix
    rw [if_pos htakes]
    by_cases hthree : nano % 1000000 = 0
    · rw [if_pos hthree, hdigits, Option.bind_some,
        microseconds_pad lenient (by omega) (.inl rfl)]
      congr 1
      omega
    · rw [if_neg hthree, if_pos hsix, hdigits, Option.bind_some,
        microseconds_pad lenient (by omega) (.inr rfl)]
      congr 1
      omega
  · have htakes : Takes lenient nano ↔ lenient = true := or_iff_left hsix
    rw [if_neg (by omega), if_neg hsix, hdigits, Option.bind_some, microseconds_pad_nine lenient h]
    simp only [htakes]

/-- The text of an instant between the date and the offset. -/
def clockText (t : Instant) : List Char :=
  pad 2 t.hour ++ ':' :: (pad 2 t.minute ++ ':' :: (pad 2 t.second ++ fraction t.nano))

theorem isEmpty_fraction (nano : Nat) : (fraction nano).isEmpty = decide (nano = 0) := by
  unfold fraction
  by_cases hne : nano = 0
  · simp [hne]
  · rw [if_neg hne, decide_eq_false hne]
    split
    · rfl
    · split <;> rfl

theorem nano_lt (t : Instant) : t.nano < 1000000000 := Nat.mod_lt _ (by decide)

theorem readClock_clockText (lenient : Bool) (t : Instant) :
    readClock lenient (clockText t) = if Takes lenient t.nano then
      some ⟨t.hour, t.minute, t.second, t.nano / 1000⟩ else none := by
  unfold readClock clockText
  simp only [number_pad t.hour_two, Option.bind_eq_bind, Option.bind_some, List.isEmpty_cons,
    Bool.false_eq_true, if_false, numberAfter_pad ':' t.minute_two]
  rw [numberAfter_pad ':' t.second_two]
  simp only [Option.bind_some, isEmpty_fraction]
  by_cases hne : t.nano = 0
  · have htakes : Takes lenient t.nano := Or.inr (by rw [hne])
    rw [if_pos htakes, if_pos (by simpa using hne), hne]
    rfl
  · rw [if_neg (by simpa using hne), readFraction (nano_lt t) hne]
    split <;> rfl

theorem isSign_of_digit {c : Char} (h : c.isDigit = true) : isSign c = false := by
  simp only [isSign, Bool.or_eq_false_iff, beq_eq_false_iff_ne]
  constructor <;>
  · intro hc
    rw [hc] at h
    exact absurd h (by decide)

theorem isSign_pad {width n : Nat} {c : Char} (h : c ∈ pad width n) : isSign c = false :=
  isSign_of_digit (List.all_eq_true.mp (all_pad width n) c h)

theorem isSign_fraction {nano : Nat} {c : Char} (h : c ∈ fraction nano) : isSign c = false := by
  unfold fraction at h
  split at h
  · cases h
  · split at h
    · rcases List.mem_cons.mp h with rfl | hc
      · rfl
      · exact isSign_pad hc
    · split at h <;>
      · rcases List.mem_cons.mp h with rfl | hc
        · rfl
        · exact isSign_pad hc

theorem isSign_clockText {t : Instant} {c : Char} (h : c ∈ clockText t) : isSign c = false := by
  simp only [clockText, List.mem_append, List.mem_cons] at h
  rcases h with hc | rfl | hc | rfl | hc | hc
  · exact isSign_pad hc
  · rfl
  · exact isSign_pad hc
  · rfl
  · exact isSign_pad hc
  · exact isSign_fraction hc

theorem toRfc3339_eq (t : Instant) :
    t.toRfc3339 = pad 4 t.year ++ '-' :: (pad 2 t.month ++ '-' :: (pad 2 t.day ++
      'T' :: (clockText t ++ utcOffset))) := by
  simp only [Instant.toRfc3339, clockText, List.append_assoc, List.cons_append]

theorem readTime_text (lenient : Bool) (t : Instant) :
    readTime lenient (clockText t ++ utcOffset) = if Takes lenient t.nano then
      some (⟨t.hour, t.minute, t.second, t.nano / 1000⟩, some 0) else none := by
  have hplain : ∀ c ∈ clockText t, (!isSign c) = true := by
    intro c hc
    rw [isSign_clockText hc]
    rfl
  have hstart : (clockText t ++ utcOffset).takeWhile (fun c => !isSign c) = clockText t := by
    rw [List.takeWhile_append_of_pos hplain]
    exact List.append_nil _
  have hrest : (clockText t ++ utcOffset).dropWhile (fun c => !isSign c) = utcOffset := by
    rw [List.dropWhile_append_of_pos hplain]
    rfl
  have hoffset : readOffset lenient '+' ['0', '0', ':', '0', '0'] = some 0 := by
    cases lenient <;> decide
  rw [readTime, hstart, hrest, readClock_clockText]
  by_cases htakes : Takes lenient t.nano
  · rw [if_pos htakes, if_pos htakes]
    show (readOffset lenient '+' ['0', '0', ':', '0', '0']).bind _ = _
    rw [hoffset]
    rfl
  · rw [if_neg htakes, if_neg htakes]
    rfl

/-- An instant as a reader sees it, without what is below a microsecond. -/
def ofInstant (t : Instant) : DateTime :=
  ⟨t.year, t.month, t.day, ⟨t.hour, t.minute, t.second, t.nano / 1000⟩, some 0⟩

/-- There is neither a year 0 nor a leap second. -/
def Readable (lenient : Bool) (t : Instant) : Prop :=
  Takes lenient t.nano ∧ 0 < t.year ∧ t.NoLeap

instance decidableReadable (lenient : Bool) (t : Instant) : Decidable (Readable lenient t) :=
  inferInstanceAs (Decidable (_ ∧ _ ∧ _))

theorem valid_ofInstant (t : Instant) : (ofInstant t).Valid ↔ 0 < t.year ∧ t.NoLeap := by
  have hsecs := t.secs_lt
  have hleap := t.leap
  constructor
  · intro h
    refine ⟨h.year.1, ?_⟩
    have hsecond : t.second < 60 := h.second
    rw [Instant.second] at hsecond
    rw [Instant.NoLeap]
    omega
  · rintro ⟨hyear, hno⟩
    rw [Instant.NoLeap] at hno
    refine ⟨⟨hyear, t.year_lt⟩, ⟨t.month_pos, t.month_le⟩, ⟨t.day_pos, t.day_le⟩,
      ?_, ?_, ?_⟩
    · show t.hour < 24
      rw [Instant.hour]
      omega
    · show t.minute < 60
      rw [Instant.minute]
      omega
    · show t.second < 60
      rw [Instant.second]
      omega

/-- An instant is read back to the microsecond, or not at all. -/
theorem fromisoformat_toRfc3339 (lenient : Bool) (t : Instant) :
    fromisoformat lenient t.toRfc3339
      = if Readable lenient t then some (ofInstant t) else none := by
  rw [toRfc3339_eq, fromisoformat, number_pad t.year_lt]
  simp only [Option.bind_eq_bind, Option.bind_some, numberAfter_pad '-' t.month_two]
  rw [numberAfter_pad '-' t.day_two]
  simp only [Option.bind_some, readTime_text]
  by_cases htakes : Takes lenient t.nano
  · rw [if_pos htakes]
    simp only [Option.bind_some]
    show ((guard (ofInstant t).Valid : Option Unit).bind fun _ => some (ofInstant t)) = _
    by_cases hvalid : (ofInstant t).Valid
    · rw [if_pos ⟨htakes, (valid_ofInstant t).mp hvalid⟩, guard, if_pos hvalid]
      rfl
    · rw [if_neg (fun h => hvalid ((valid_ofInstant t).mpr h.2)), guard, if_neg hvalid]
      rfl
  · rw [if_neg htakes, if_neg (fun h => htakes h.1)]
    rfl

/-- The text with `Z` in the place of the offset. -/
def zuluText (t : Instant) : List Char :=
  pad 4 t.year ++ '-' :: (pad 2 t.month ++ '-' :: (pad 2 t.day ++ 'T' :: (clockText t ++ ['Z'])))

theorem replace_of_notMem {c : Char} {new s : List Char} (h : c ∉ s) : replace c new s = s := by
  induction s with
  | nil => rfl
  | cons d s ih =>
    have hd : d ≠ c := fun e => h (e ▸ List.mem_cons_self)
    rw [replace, List.flatMap_cons, if_neg hd, ← replace,
      ih (fun hc => h (List.mem_cons_of_mem d hc))]
    rfl

theorem replace_append (c : Char) (new s r : List Char) :
    replace c new (s ++ r) = replace c new s ++ replace c new r := List.flatMap_append

/-- Writing the offset out gives the other text. -/
theorem replace_zuluText (t : Instant) : replace 'Z' utcOffset (zuluText t) = t.toRfc3339 := by
  have hpad : ∀ width n, 'Z' ∉ pad width n := by
    intro width n h
    exact absurd (List.all_eq_true.mp (all_pad width n) _ h) (by decide)
  have hfraction : 'Z' ∉ fraction t.nano := by
    intro h
    unfold fraction at h
    split at h
    · cases h
    · split at h
      · exact (List.mem_cons.mp h).elim (by decide) (hpad _ _)
      · split at h <;> exact (List.mem_cons.mp h).elim (by decide) (hpad _ _)
  have hclock : 'Z' ∉ clockText t := by
    simp only [clockText, List.mem_append, List.mem_cons, not_or]
    exact ⟨hpad _ _, by decide, hpad _ _, by decide, hpad _ _, hfraction⟩
  have hcons : ∀ (d : Char) (s : List Char), d ≠ 'Z' →
      replace 'Z' utcOffset (d :: s) = d :: replace 'Z' utcOffset s := by
    intro d s hd
    rw [replace, List.flatMap_cons, if_neg hd]
    rfl
  have hoffset : replace 'Z' utcOffset ['Z'] = utcOffset := rfl
  rw [zuluText, toRfc3339_eq]
  simp only [replace_append, replace_of_notMem (hpad _ _), replace_of_notMem hclock,
    hcons '-' _ (by decide), hcons 'T' _ (by decide), hoffset]

end Isoformat
