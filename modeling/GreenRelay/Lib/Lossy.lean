/-
Reading bytes as UTF-8 with replacement.

The decoder takes one byte at a time.  A sequence that is not completed is
replaced by one U+FFFD, as far as it could have been the start of a character,
and the byte that breaks it off is read afresh.  This is what
`String::from_utf8_lossy` documents.
-/

import Mathlib.Tactic.SplitIfs

namespace Unicode

/-- A sequence that has begun: the bytes it needs after the next one, its bits so
far, and the range of the next byte, counted from `0x80`. -/
structure Unfinished where
  owed : Nat
  bits : Nat
  low : Nat
  high : Nat
  wide : 2 ≤ bits * 64 + low
  last : owed = 0 → 2 ≤ bits

def replacement : Char := '\uFFFD'

/-- The first byte of a character. -/
def leadByte (b : UInt8) : List Char × Option Unfinished :=
  let n := b.toNat
  if n < 0x80 then ([Char.ofNat n], none)
  else if h : 0xC2 ≤ n ∧ n ≤ 0xDF then ([], some ⟨0, n - 0xC0, 0, 0x3F, by omega, by omega⟩)
  else if n = 0xE0 then ([], some ⟨1, 0, 0x20, 0x3F, by omega, by omega⟩)
  else if n = 0xED then ([], some ⟨1, 0xD, 0, 0x1F, by omega, by omega⟩)
  else if h : 0xE1 ≤ n ∧ n ≤ 0xEF then ([], some ⟨1, n - 0xE0, 0, 0x3F, by omega, by omega⟩)
  else if n = 0xF0 then ([], some ⟨2, 0, 0x10, 0x3F, by omega, by omega⟩)
  else if h : 0xF1 ≤ n ∧ n ≤ 0xF3 then ([], some ⟨2, n - 0xF0, 0, 0x3F, by omega, by omega⟩)
  else if n = 0xF4 then ([], some ⟨2, 4, 0, 0xF, by omega, by omega⟩)
  else ([replacement], none)

/-- A further byte of a character, or the first one of the next. -/
def nextByte (b : UInt8) : Option Unfinished → List Char × Option Unfinished
  | none => leadByte b
  | some u =>
    let n := b.toNat
    if h : 0x80 + u.low ≤ n ∧ n ≤ 0x80 + u.high then
      if u.owed = 0 then ([Char.ofNat (u.bits * 64 + (n - 0x80))], none)
      else ([], some ⟨u.owed - 1, u.bits * 64 + (n - 0x80), 0, 0x3F,
        by have := u.wide; omega, by have := u.wide; omega⟩)
    else (replacement :: (leadByte b).1, (leadByte b).2)

def lossyFrom : Option Unfinished → List UInt8 → List Char
  | none, [] => []
  | some _, [] => [replacement]
  | u, b :: bs => (nextByte b u).1 ++ lossyFrom (nextByte b u).2 bs

def fromUtf8Lossy (bs : List UInt8) : List Char := lossyFrom none bs

example : fromUtf8Lossy [0x41, 0xE2, 0x82, 0xAC, 0xE2, 0x82, 0x41] =
    ['A', '€', replacement, 'A'] := by
  decide +kernel

theorem lossyFrom_cons (u : Option Unfinished) (b : UInt8) (bs : List UInt8) :
    lossyFrom u (b :: bs) = (nextByte b u).1 ++ lossyFrom (nextByte b u).2 bs := by
  cases u <;> rfl

theorem leadByte_ascii {b : UInt8} (hb : b.toNat < 0x80) :
    leadByte b = ([Char.ofNat b.toNat], none) := by
  unfold leadByte
  exact if_pos hb

/-- An ASCII byte is a character by itself, whatever stands before it. -/
theorem lossyFrom_ascii {b : UInt8} (hb : b.toNat < 0x80) (u : Option Unfinished)
    (s t : List UInt8) :
    lossyFrom u (s ++ b :: t) = lossyFrom u s ++ Char.ofNat b.toNat :: lossyFrom none t := by
  induction s generalizing u with
  | nil =>
    rw [List.nil_append, lossyFrom_cons]
    cases u with
    | none =>
      rw [nextByte, leadByte_ascii hb]
      rfl
    | some u =>
      have hrange : ¬ (0x80 + u.low ≤ b.toNat ∧ b.toNat ≤ 0x80 + u.high) := by omega
      rw [nextByte, dif_neg hrange, leadByte_ascii hb]
      rfl
  | cons a s ih => rw [List.cons_append, lossyFrom_cons, lossyFrom_cons, ih, List.append_assoc]

theorem toNat_ofNat {n : Nat} (h : (Char.ofNat n).toNat ≠ 0) : (Char.ofNat n).toNat = n := by
  unfold Char.ofNat at h ⊢
  by_cases hvalid : n.isValidChar
  · rw [dif_pos hvalid]
    rfl
  · rw [dif_neg hvalid] at h
    exact absurd rfl h

theorem ne_replacement {c : Char} (hc : c.toNat < 0x80) : c ≠ replacement := by
  intro heq
  rw [heq] at hc
  exact absurd hc (by decide)

theorem leadByte_char {c : Char} (hc : c.toNat < 0x80) (hzero : c.toNat ≠ 0) {b : UInt8}
    (h : c ∈ (leadByte b).1) : b.toNat = c.toNat := by
  have hreplaced := ne_replacement hc
  unfold leadByte at h
  simp only at h
  split at h
  · obtain rfl := List.mem_singleton.mp h
    exact (toNat_ofNat hzero).symm
  · split_ifs at h <;> simp [hreplaced] at h

/-- An ASCII character is read from its own byte only. -/
theorem nextByte_char {c : Char} (hc : c.toNat < 0x80) (hzero : c.toNat ≠ 0) {b : UInt8}
    {u : Option Unfinished} (h : c ∈ (nextByte b u).1) : b.toNat = c.toNat := by
  cases u with
  | none => exact leadByte_char hc hzero h
  | some u =>
    unfold nextByte at h
    simp only at h
    by_cases hrange : 0x80 + u.low ≤ b.toNat ∧ b.toNat ≤ 0x80 + u.high
    · rw [dif_pos hrange] at h
      by_cases howed : u.owed = 0
      · rw [if_pos howed] at h
        have heq := List.mem_singleton.mp h
        rw [heq] at hc hzero
        have hvalue := toNat_ofNat hzero
        have hbits := u.last howed
        omega
      · rw [if_neg howed] at h
        exact absurd h List.not_mem_nil
    · rw [dif_neg hrange] at h
      rcases List.mem_cons.mp h with heq | hlead
      · exact absurd heq (ne_replacement hc)
      · exact leadByte_char hc hzero hlead

theorem mem_lossyFrom {c : Char} (hc : c.toNat < 0x80) (hzero : c.toNat ≠ 0) {bs : List UInt8}
    {u : Option Unfinished} (h : c ∈ lossyFrom u bs) : ∃ b ∈ bs, b.toNat = c.toNat := by
  induction bs generalizing u with
  | nil =>
    cases u with
    | none => exact absurd h List.not_mem_nil
    | some u =>
      exact absurd (List.mem_singleton.mp h) (ne_replacement hc)
  | cons b bs ih =>
    rw [lossyFrom_cons] at h
    rcases List.mem_append.mp h with h | h
    · exact ⟨b, List.mem_cons_self, nextByte_char hc hzero h⟩
    · obtain ⟨a, ha, hval⟩ := ih h
      exact ⟨a, List.mem_cons_of_mem b ha, hval⟩

end Unicode
