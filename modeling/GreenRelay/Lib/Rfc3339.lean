/-
Instants of the proleptic Gregorian calendar in UTC, and their RFC 3339 texts.

An instant is kept as a date, the second of the day and a fraction.  A leap
second is the second 59 again with a fraction of a second or more, so two
instants compare by day, then second, then fraction, and `ticks` counts them in
that order.  The text writes the fraction with the fewest of 0, 3, 6 or 9 digits
that keep it exact.  Texts of different lengths are compared here: what decides
between them is where `+`, `.` and the digits stand in the character set.
-/
import GreenRelay.Lib.Unicode

namespace Rfc3339

open Unicode

/-! ## Days -/

def isLeap (year : Nat) : Bool := (year % 4 = 0 && year % 100 ≠ 0) || year % 400 = 0

def daysInMonth (year month : Nat) : Nat :=
  match month with
  | 2 => if isLeap year then 29 else 28
  | 4 | 6 | 9 | 11 => 30
  | _ => 31

def daysBeforeYear : Nat → Nat
  | 0 => 0
  | year + 1 => daysBeforeYear year + if isLeap year then 366 else 365

/-- The days of the first `months` months of a year. -/
def daysOfMonths (year : Nat) : Nat → Nat
  | 0 => 0
  | months + 1 => daysOfMonths year months + daysInMonth year (months + 1)

theorem daysOfMonths_twelve (year : Nat) :
    daysOfMonths year 12 = if isLeap year then 366 else 365 := by
  cases h : isLeap year <;> simp [daysOfMonths, daysInMonth, h]

theorem daysBeforeYear_mono {y y' : Nat} (h : y ≤ y') : daysBeforeYear y ≤ daysBeforeYear y' := by
  induction h with
  | refl => omega
  | step _ ih =>
      rw [daysBeforeYear]
      omega

theorem daysOfMonths_mono (year : Nat) {m m' : Nat} (h : m ≤ m') :
    daysOfMonths year m ≤ daysOfMonths year m' := by
  induction h with
  | refl => omega
  | step _ ih =>
      rw [daysOfMonths]
      omega

structure Instant where
  year : Nat
  month : Nat
  day : Nat
  secs : Nat
  frac : Nat
  year_lt : year < 10000
  month_pos : 0 < month
  month_le : month ≤ 12
  day_pos : 0 < day
  day_le : day ≤ daysInMonth year month
  secs_lt : secs < 86400
  frac_lt : frac < 2000000000
  leap : 1000000000 ≤ frac → secs % 60 = 59
  deriving DecidableEq, Repr

namespace Instant

def dayOfYear (t : Instant) : Nat := daysOfMonths t.year (t.month - 1) + (t.day - 1)

def dayNumber (t : Instant) : Nat := daysBeforeYear t.year + t.dayOfYear

/-- Chronological order: every second has room for the leap second that may
follow it. -/
def ticks (t : Instant) : Nat := (t.dayNumber * 86400 + t.secs) * 2000000000 + t.frac

def hour (t : Instant) : Nat := t.secs / 3600

def minute (t : Instant) : Nat := t.secs / 60 % 60

def second (t : Instant) : Nat := t.secs % 60 + t.frac / 1000000000

def nano (t : Instant) : Nat := t.frac % 1000000000

theorem dayOfMonth_lt (t : Instant) : t.dayOfYear < daysOfMonths t.year t.month := by
  have hpos := t.month_pos
  have hday := t.day_pos
  have hle := t.day_le
  have hmonth : t.month = t.month - 1 + 1 := by omega
  rw [dayOfYear, hmonth, daysOfMonths, ← hmonth]
  omega

theorem dayOfYear_lt (t : Instant) :
    t.dayOfYear < if isLeap t.year then 366 else 365 := by
  rw [← daysOfMonths_twelve]
  exact Nat.lt_of_lt_of_le t.dayOfMonth_lt (daysOfMonths_mono t.year t.month_le)

theorem year_order {s t : Instant} (h : s.year < t.year) : s.dayNumber < t.dayNumber := by
  have hin := s.dayOfYear_lt
  have hyears : daysBeforeYear (s.year + 1) ≤ daysBeforeYear t.year := daysBeforeYear_mono h
  rw [daysBeforeYear] at hyears
  rw [dayNumber, dayNumber]
  omega

theorem month_order {s t : Instant} (hyear : s.year = t.year) (h : s.month < t.month) :
    s.dayNumber < t.dayNumber := by
  have hin := s.dayOfMonth_lt
  have hmonths : daysOfMonths t.year s.month ≤ daysOfMonths t.year (t.month - 1) :=
    daysOfMonths_mono t.year (by omega)
  rw [hyear] at hin
  have ht : t.dayOfYear = daysOfMonths t.year (t.month - 1) + (t.day - 1) := rfl
  rw [dayNumber, dayNumber, hyear]
  omega

theorem day_order {s t : Instant} (hyear : s.year = t.year) (hmonth : s.month = t.month)
    (h : s.day < t.day) : s.dayNumber < t.dayNumber := by
  have hpos := s.day_pos
  rw [dayNumber, dayNumber, dayOfYear, dayOfYear, hyear, hmonth]
  omega

theorem dayNumber_lt_iff (s t : Instant) : s.dayNumber < t.dayNumber ↔
    s.year < t.year ∨ s.year = t.year ∧
      (s.month < t.month ∨ s.month = t.month ∧ s.day < t.day) := by
  constructor
  · intro h
    rcases Nat.lt_trichotomy s.year t.year with hyear | hyear | hyear
    · exact Or.inl hyear
    · refine Or.inr ⟨hyear, ?_⟩
      rcases Nat.lt_trichotomy s.month t.month with hmonth | hmonth | hmonth
      · exact Or.inl hmonth
      · refine Or.inr ⟨hmonth, ?_⟩
        rw [dayNumber, dayNumber, dayOfYear, dayOfYear, hyear, hmonth] at h
        omega
      · have := month_order hyear.symm hmonth
        omega
    · have := year_order hyear
      omega
  · rintro (hyear | ⟨hyear, hmonth | ⟨hmonth, hday⟩⟩)
    · exact year_order hyear
    · exact month_order hyear hmonth
    · exact day_order hyear hmonth hday

theorem dayNumber_eq_iff (s t : Instant) : s.dayNumber = t.dayNumber ↔
    s.year = t.year ∧ s.month = t.month ∧ s.day = t.day := by
  have hst := dayNumber_lt_iff s t
  have hts := dayNumber_lt_iff t s
  omega

theorem ticks_inj {s t : Instant} : s.ticks = t.ticks ↔ s = t := by
  constructor
  · intro h
    have hs := s.secs_lt
    have ht := t.secs_lt
    have hsf := s.frac_lt
    have htf := t.frac_lt
    rw [ticks, ticks] at h
    have hday : s.dayNumber = t.dayNumber := by omega
    have hsecs : s.secs = t.secs := by omega
    have hfrac : s.frac = t.frac := by omega
    have hdate := (dayNumber_eq_iff s t).mp hday
    cases s
    cases t
    simp only [mk.injEq]
    exact ⟨hdate.1, hdate.2.1, hdate.2.2, hsecs, hfrac⟩
  · intro h
    rw [h]

/-- The order of the fields as they are written, the leap second as 60. -/
theorem ticks_lt_iff (s t : Instant) : s.ticks < t.ticks ↔
    s.dayNumber < t.dayNumber ∨ s.dayNumber = t.dayNumber ∧
      (s.hour < t.hour ∨ s.hour = t.hour ∧ (s.minute < t.minute ∨ s.minute = t.minute ∧
        (s.second < t.second ∨ s.second = t.second ∧ s.nano < t.nano))) := by
  have hs := s.secs_lt
  have ht := t.secs_lt
  have hsf := s.frac_lt
  have htf := t.frac_lt
  have hsl := s.leap
  have htl := t.leap
  simp only [ticks, hour, minute, second, nano]
  omega

/-- Nanoseconds, in days of 86400 seconds. -/
def nanos (t : Instant) : Nat := (t.dayNumber * 86400 + t.secs) * 1000000000 + t.frac

def NoLeap (t : Instant) : Prop := t.frac < 1000000000

instance decidableNoLeap (t : Instant) : Decidable t.NoLeap :=
  inferInstanceAs (Decidable (t.frac < 1000000000))

theorem nanos_le_iff {s t : Instant} (hs : s.NoLeap) (ht : t.NoLeap) :
    s.nanos ≤ t.nanos ↔ s.ticks ≤ t.ticks := by
  rw [NoLeap] at hs ht
  rw [nanos, nanos, ticks, ticks]
  omega

end Instant

/-! ## Texts -/

def digit (n : Nat) : Char := Char.ofNat (48 + n % 10)

/-- `n` in decimal, in `width` digits. -/
def pad : Nat → Nat → List Char
  | 0, _ => []
  | width + 1, n => pad width (n / 10) ++ [digit n]

def utcOffset : List Char := ['+', '0', '0', ':', '0', '0']

/-- The fraction of a second with the fewest groups of digits. -/
def fraction (nano : Nat) : List Char :=
  if nano = 0 then []
  else if nano % 1000000 = 0 then '.' :: pad 3 (nano / 1000000)
  else if nano % 1000 = 0 then '.' :: pad 6 (nano / 1000)
  else '.' :: pad 9 nano

def Instant.toRfc3339 (t : Instant) : List Char :=
  pad 4 t.year ++ '-' :: (pad 2 t.month ++ '-' :: (pad 2 t.day ++ 'T' :: (pad 2 t.hour ++ ':' ::
    (pad 2 t.minute ++ ':' :: (pad 2 t.second ++ (fraction t.nano ++ utcOffset))))))

theorem digit_toNat (n : Nat) : (digit n).toNat = 48 + n % 10 := by
  apply toNat_ofNat_of_valid
  exact Or.inl (by omega)

theorem digit_lt_iff (n m : Nat) : digit n < digit m ↔ n % 10 < m % 10 := by
  rw [Char.lt_def, UInt32.lt_iff_toNat_lt]
  show (digit n).toNat < (digit m).toNat ↔ _
  rw [digit_toNat, digit_toNat]
  omega

theorem digit_inj (n m : Nat) : digit n = digit m ↔ n % 10 = m % 10 := by
  rw [← Char.toNat_inj, digit_toNat, digit_toNat]
  omega

/-- Numbers of one width compare as their values, and what follows decides
between equal ones. -/
theorem pad_append_lt (width : Nat) {n m : Nat} (hn : n < 10 ^ width) (hm : m < 10 ^ width)
    (r s : List Char) : pad width n ++ r < pad width m ++ s ↔ n < m ∨ n = m ∧ r < s := by
  induction width generalizing n m r s with
  | zero =>
      have hzero : n = 0 ∧ m = 0 := by omega
      simp [pad, hzero]
  | succ width ih =>
      rw [Nat.pow_succ] at hn hm
      have hn' : n / 10 < 10 ^ width := by omega
      have hm' : m / 10 < 10 ^ width := by omega
      rw [pad, pad, List.append_assoc, List.append_assoc, ih hn' hm', List.singleton_append,
        List.singleton_append, List.cons_lt_cons_iff, digit_lt_iff, digit_inj]
      have hdigits : (n / 10 < m / 10 ∨ n / 10 = m / 10 ∧ n % 10 < m % 10 ↔ n < m) ∧
          (n / 10 = m / 10 ∧ n % 10 = m % 10 ↔ n = m) := by omega
      by_cases hrs : r < s
      · simp only [hrs, and_true]
        omega
      · simp only [hrs, and_false, or_false]
        omega

theorem pad_append (width k n : Nat) :
    pad (width + k) n = pad width (n / 10 ^ k) ++ pad k (n % 10 ^ k) := by
  induction k generalizing n with
  | zero => simp [pad]
  | succ k ih =>
      have hdiv : n / 10 / 10 ^ k = n / 10 ^ (k + 1) := by
        rw [Nat.div_div_eq_div_mul, Nat.pow_succ, Nat.mul_comm]
      have hmod : n % 10 ^ (k + 1) / 10 = n / 10 % 10 ^ k := by
        rw [Nat.pow_succ, Nat.mul_comm, Nat.mod_mul_right_div_self]
      have hlast : digit (n % 10 ^ (k + 1)) = digit n := by
        rw [digit_inj, Nat.pow_succ, Nat.mod_mul_left_mod]
      rw [← Nat.add_assoc, pad, ih, pad, hdiv, hmod, hlast, List.append_assoc]

theorem div_mod_order {b : Nat} (hb : 0 < b) (n m : Nat) :
    n / b < m / b ∨ n / b = m / b ∧ n % b < m % b ↔ n < m := by
  have hn := Nat.div_add_mod n b
  have hm := Nat.div_add_mod m b
  have hnlt := Nat.mod_lt n hb
  have hmlt := Nat.mod_lt m hb
  rcases Nat.lt_trichotomy (n / b) (m / b) with h | h | h
  · have hstep := Nat.mul_le_mul_left b h
    rw [Nat.mul_succ] at hstep
    omega
  · rw [h] at hn
    omega
  · have hstep := Nat.mul_le_mul_left b h
    rw [Nat.mul_succ] at hstep
    omega

/-! ## The order of fractions -/

/-- The digits after the point in `k` groups of three, without the groups at the
end that are zero. -/
def groups : Nat → Nat → List Char
  | 0, _ => utcOffset
  | k + 1, n => if n = 0 then utcOffset
      else pad 3 (n / 1000 ^ k) ++ groups k (n % 1000 ^ k)

theorem groups_zero (k : Nat) : groups k 0 = utcOffset := by
  cases k <;> simp [groups]

/-- `+` stands before every digit. -/
theorem plus_lt_digit (n : Nat) : '+' < digit n := by
  rw [Char.lt_def, UInt32.lt_iff_toNat_lt]
  show 43 < (digit n).toNat
  rw [digit_toNat]
  omega

theorem utcOffset_lt_pad (n : Nat) (r : List Char) : utcOffset < pad 3 n ++ r := by
  have hhead : pad 3 n ++ r = digit (n / 10 / 10) :: (digit (n / 10) :: digit n :: r) := by
    simp [pad]
  rw [hhead, utcOffset, List.cons_lt_cons_iff]
  exact Or.inl (plus_lt_digit _)

theorem groups_lt (k : Nat) {n m : Nat} (hn : n < 1000 ^ k) (hm : m < 1000 ^ k) :
    groups k n < groups k m ↔ n < m := by
  induction k generalizing n m with
  | zero =>
      have hzero : n = 0 ∧ m = 0 := by omega
      simp [hzero]
  | succ k ih =>
      by_cases hn0 : n = 0
      · by_cases hm0 : m = 0
        · simp [hn0, hm0]
        · have hlt := utcOffset_lt_pad (m / 1000 ^ k) (groups k (m % 1000 ^ k))
          rw [groups, groups, if_pos hn0, if_neg hm0]
          exact ⟨fun _ => by omega, fun _ => hlt⟩
      · by_cases hm0 : m = 0
        · have hlt := utcOffset_lt_pad (n / 1000 ^ k) (groups k (n % 1000 ^ k))
          rw [groups, groups, if_neg hn0, if_pos hm0]
          exact ⟨fun h => absurd h (List.lt_asymm hlt), fun h => by omega⟩
        · have hpos : 0 < 1000 ^ k := Nat.pow_pos (by omega)
          have hn3 : n / 1000 ^ k < 10 ^ 3 := by
            rw [Nat.div_lt_iff_lt_mul hpos, Nat.mul_comm]
            exact hn
          have hm3 : m / 1000 ^ k < 10 ^ 3 := by
            rw [Nat.div_lt_iff_lt_mul hpos, Nat.mul_comm]
            exact hm
          rw [groups, groups, if_neg hn0, if_neg hm0, pad_append_lt 3 hn3 hm3,
            ih (Nat.mod_lt n hpos) (Nat.mod_lt m hpos)]
          exact div_mod_order hpos n m

/-- The fraction and the offset as one run of groups. -/
theorem fraction_append (n : Nat) :
    fraction n ++ utcOffset = if n = 0 then utcOffset else '.' :: groups 3 n := by
  by_cases h0 : n = 0
  · rw [fraction, if_pos h0, if_pos h0, List.nil_append]
  · have h6 : pad 6 (n / 1000) = pad 3 (n / 1000000) ++ pad 3 (n / 1000 % 1000) := by
      rw [pad_append 3 3, Nat.div_div_eq_div_mul]
      rfl
    have h9 : pad 9 n = pad 3 (n / 1000000) ++ (pad 3 (n / 1000 % 1000) ++ pad 3 (n % 1000)) := by
      rw [pad_append 6 3, pad_append 3 3, List.append_assoc, Nat.div_div_eq_div_mul]
      rfl
    have hmid : n % 1000000 / 1000 = n / 1000 % 1000 := by omega
    have hlow : n % 1000000 % 1000 = n % 1000 := by omega
    have hgroups : groups 3 n = pad 3 (n / 1000000) ++ groups 2 (n % 1000000) := by
      rw [groups, if_neg h0]
      rfl
    rw [fraction, if_neg h0, if_neg h0, hgroups]
    by_cases hn6 : n % 1000000 = 0
    · rw [if_pos hn6, hn6, groups_zero, List.cons_append]
    · have hgroups2 : groups 2 (n % 1000000) = pad 3 (n / 1000 % 1000) ++ groups 1 (n % 1000) := by
        rw [groups, if_neg hn6, ← hmid, ← hlow]
        rfl
      rw [if_neg hn6, hgroups2]
      by_cases hn3 : n % 1000 = 0
      · rw [if_pos hn3, hn3, groups_zero, h6, List.cons_append, List.append_assoc]
      · have hgroups1 : groups 1 (n % 1000) = pad 3 (n % 1000) ++ utcOffset := by
          rw [groups, if_neg hn3, Nat.pow_zero, Nat.div_one]
          rfl
        rw [if_neg hn3, hgroups1, h9, List.cons_append, List.append_assoc, List.append_assoc]

theorem fraction_lt {n m : Nat} (hn : n < 1000000000) (hm : m < 1000000000) :
    fraction n ++ utcOffset < fraction m ++ utcOffset ↔ n < m := by
  have hpoint (k : Nat) : utcOffset < '.' :: groups 3 k :=
    List.cons_lt_cons_iff.mpr (Or.inl (by decide))
  rw [fraction_append, fraction_append]
  by_cases hn0 : n = 0
  · by_cases hm0 : m = 0
    · simp [hn0, hm0]
    · rw [if_pos hn0, if_neg hm0]
      exact ⟨fun _ => by omega, fun _ => hpoint m⟩
  · by_cases hm0 : m = 0
    · rw [if_neg hn0, if_pos hm0]
      exact ⟨fun h => absurd h (List.lt_asymm (hpoint n)), fun h => by omega⟩
    · rw [if_neg hn0, if_neg hm0, List.cons_lt_cons_iff]
      have hgroups : groups 3 n < groups 3 m ↔ n < m := groups_lt 3 hn hm
      simp [hgroups]

namespace Instant

theorem month_two (t : Instant) : t.month < 10 ^ 2 := by
  have := t.month_le
  omega

theorem day_two (t : Instant) : t.day < 10 ^ 2 := by
  have hle := t.day_le
  have hmonth : daysInMonth t.year t.month ≤ 31 := by
    unfold daysInMonth
    split
    · split <;> omega
    · omega
    · omega
    · omega
    · omega
    · omega
  omega

theorem hour_two (t : Instant) : t.hour < 10 ^ 2 := by
  have := t.secs_lt
  rw [hour]
  omega

theorem minute_two (t : Instant) : t.minute < 10 ^ 2 := by
  rw [minute]
  omega

theorem second_two (t : Instant) : t.second < 10 ^ 2 := by
  have := t.frac_lt
  rw [second]
  omega

theorem toRfc3339_lt_iff (s t : Instant) : s.toRfc3339 < t.toRfc3339 ↔ s.ticks < t.ticks := by
  have hs : s.nano < 1000000000 := Nat.mod_lt _ (by omega)
  have ht : t.nano < 1000000000 := Nat.mod_lt _ (by omega)
  rw [toRfc3339, toRfc3339, pad_append_lt 4 s.year_lt t.year_lt, List.cons_lt_cons_self,
    pad_append_lt 2 s.month_two t.month_two, List.cons_lt_cons_self,
    pad_append_lt 2 s.day_two t.day_two, List.cons_lt_cons_self,
    pad_append_lt 2 s.hour_two t.hour_two, List.cons_lt_cons_self,
    pad_append_lt 2 s.minute_two t.minute_two, List.cons_lt_cons_self,
    pad_append_lt 2 s.second_two t.second_two, fraction_lt hs ht,
    ticks_lt_iff, dayNumber_lt_iff, dayNumber_eq_iff]
  omega

theorem toRfc3339_inj {s t : Instant} : s.toRfc3339 = t.toRfc3339 ↔ s.ticks = t.ticks := by
  constructor
  · intro h
    have hst := toRfc3339_lt_iff s t
    have hts := toRfc3339_lt_iff t s
    rw [h] at hst hts
    have hnot : ¬ s.ticks < t.ticks := fun hlt => List.lt_irrefl _ (hst.mpr hlt)
    have hnot' : ¬ t.ticks < s.ticks := fun hlt => List.lt_irrefl _ (hts.mpr hlt)
    omega
  · intro h
    rw [ticks_inj.mp h]

theorem mem_pad {width n : Nat} {c : Char} (h : c ∈ pad width n) : c.toNat < 128 := by
  induction width generalizing n with
  | zero => simp [pad] at h
  | succ width ih =>
      rw [pad, List.mem_append, List.mem_singleton] at h
      rcases h with h | h
      · exact ih h
      · rw [h, digit_toNat]
        omega

theorem mem_fraction {n : Nat} {c : Char} (h : c ∈ fraction n) : c.toNat < 128 := by
  have hpoint {width m : Nat} (hc : c ∈ '.' :: pad width m) : c.toNat < 128 := by
    rcases List.mem_cons.mp hc with rfl | hc
    · decide
    · exact mem_pad hc
  unfold fraction at h
  split at h
  · simp at h
  · split at h
    · exact hpoint h
    · split at h
      · exact hpoint h
      · exact hpoint h

theorem mem_toRfc3339 {t : Instant} {c : Char} (h : c ∈ t.toRfc3339) : c.toNat < 128 := by
  simp only [toRfc3339, List.mem_append, List.mem_cons] at h
  rcases h with h | rfl | h | rfl | h | rfl | h | rfl | h | rfl | h | h | h
  · exact mem_pad h
  · decide
  · exact mem_pad h
  · decide
  · exact mem_pad h
  · decide
  · exact mem_pad h
  · decide
  · exact mem_pad h
  · decide
  · exact mem_pad h
  · exact mem_fraction h
  · have hall : utcOffset.all (fun c => c.toNat < 128) = true := by decide
    exact of_decide_eq_true (List.all_eq_true.mp hall c h)

/-- The texts as bytes. -/
theorem utf8_toRfc3339_lt_iff (s t : Instant) :
    utf8 s.toRfc3339 < utf8 t.toRfc3339 ↔ s.ticks < t.ticks := by
  rw [utf8_lt_iff (fun _ => mem_toRfc3339) (fun _ => mem_toRfc3339), toRfc3339_lt_iff]

end Instant

end Rfc3339
