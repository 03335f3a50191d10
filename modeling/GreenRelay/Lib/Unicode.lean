/-
Encodings of text: UTF-8 and ASCII bytes, UTF-16 code units, and code units
written as groups of four hexadecimal digits.

The UTF-8 encoding of a character is the one of the core library.  The UTF-16
half is a codec of its own: `decode` accepts exactly the well-formed sequences
of code units, and `decode_encode` says that it undoes `encode`.
-/
import Mathlib.Algebra.GroupWithZero.Nat

namespace Unicode

/-! ## UTF-8 and ASCII -/

def utf8 (s : List Char) : List UInt8 := s.flatMap String.utf8EncodeChar

theorem utf8_cons (c : Char) (s : List Char) :
    utf8 (c :: s) = String.utf8EncodeChar c ++ utf8 s := rfl

theorem utf8_append (s t : List Char) : utf8 (s ++ t) = utf8 s ++ utf8 t :=
  List.flatMap_append

/-! ### Slices by byte offset

`str::get` with a range of byte offsets is `none` unless both ends are character
boundaries.  `slice` computes it by walking the characters. -/

def utf8Length (s : List Char) : Nat := (s.map Char.utf8Size).sum

def dropBytes : List Char → Nat → Option (List Char)
  | s, 0 => some s
  | [], _ + 1 => none
  | c :: s, n + 1 => if c.utf8Size ≤ n + 1 then dropBytes s (n + 1 - c.utf8Size) else none

def takeBytes : List Char → Nat → Option (List Char)
  | _, 0 => some []
  | [], _ + 1 => none
  | c :: s, n + 1 =>
    if c.utf8Size ≤ n + 1 then (takeBytes s (n + 1 - c.utf8Size)).map (c :: ·) else none

def slice (s : List Char) (start stop : Nat) : Option (List Char) :=
  if start ≤ stop then (dropBytes s start).bind (takeBytes · (stop - start)) else none

theorem utf8Length_cons (c : Char) (s : List Char) :
    utf8Length (c :: s) = c.utf8Size + utf8Length s := by
  simp [utf8Length]

theorem utf8Length_append (s t : List Char) :
    utf8Length (s ++ t) = utf8Length s + utf8Length t := by
  simp [utf8Length]

theorem dropBytes_append (s t : List Char) : dropBytes (s ++ t) (utf8Length s) = some t := by
  induction s with
  | nil => cases t <;> rfl
  | cons c s ih =>
    have hpos := Char.utf8Size_pos c
    obtain ⟨n, hn⟩ : ∃ n, utf8Length (c :: s) = n + 1 :=
      ⟨utf8Length (c :: s) - 1, by rw [utf8Length_cons]; omega⟩
    have hrest : n + 1 - c.utf8Size = utf8Length s := by rw [← hn, utf8Length_cons]; omega
    have hle : c.utf8Size ≤ n + 1 := by rw [← hn, utf8Length_cons]; omega
    rw [hn, List.cons_append, dropBytes, if_pos hle, hrest]
    exact ih

theorem takeBytes_append (s t : List Char) : takeBytes (s ++ t) (utf8Length s) = some s := by
  induction s with
  | nil => cases t <;> rfl
  | cons c s ih =>
    have hpos := Char.utf8Size_pos c
    obtain ⟨n, hn⟩ : ∃ n, utf8Length (c :: s) = n + 1 :=
      ⟨utf8Length (c :: s) - 1, by rw [utf8Length_cons]; omega⟩
    have hrest : n + 1 - c.utf8Size = utf8Length s := by rw [← hn, utf8Length_cons]; omega
    have hle : c.utf8Size ≤ n + 1 := by rw [← hn, utf8Length_cons]; omega
    rw [hn, List.cons_append, takeBytes, if_pos hle, hrest, ih, Option.map_some]

/-- Between character boundaries a slice is the text between them. -/
theorem slice_append (s t u : List Char) :
    slice (s ++ t ++ u) (utf8Length s) (utf8Length s + utf8Length t) = some t := by
  have hle : utf8Length s ≤ utf8Length s + utf8Length t := Nat.le_add_right _ _
  rw [slice, if_pos hle, List.append_assoc, dropBytes_append, Option.bind_some,
    Nat.add_sub_cancel_left, takeBytes_append]

theorem byte_ascii {c : Char} (h : c.toNat < 128) : (UInt8.ofNat c.toNat).toNat = c.toNat := by
  simp
  omega

theorem utf8EncodeChar_ascii {c : Char} (h : c.toNat < 128) :
    String.utf8EncodeChar c = [UInt8.ofNat c.toNat] := by
  have hv : c.toNat ≤ 127 := by omega
  simp [String.utf8EncodeChar, hv]

/-- Outside ASCII every byte of an encoded character has its top bit set. -/
theorem utf8EncodeChar_high {c : Char} (h : 128 ≤ c.toNat) :
    ∀ b ∈ String.utf8EncodeChar c, 128 ≤ b.toNat := by
  intro b hb
  have hv : ¬ c.toNat ≤ 127 := by omega
  simp only [String.utf8EncodeChar, Char.toNat_val, hv, if_false] at hb
  split at hb
  · simp only [List.mem_cons, List.not_mem_nil, or_false] at hb
    rcases hb with rfl | rfl <;> simp <;> omega
  · split at hb
    · simp only [List.mem_cons, List.not_mem_nil, or_false] at hb
      rcases hb with rfl | rfl | rfl <;> simp <;> omega
    · simp only [List.mem_cons, List.not_mem_nil, or_false] at hb
      rcases hb with rfl | rfl | rfl | rfl <;> simp <;> omega

/-- A low byte of an encoded text is one of its ASCII characters. -/
theorem mem_utf8_low {s : List Char} {b : UInt8} (hb : b ∈ utf8 s) (hlow : b.toNat < 128) :
    ∃ c ∈ s, c.toNat = b.toNat := by
  obtain ⟨c, hc, hbc⟩ := List.mem_flatMap.mp hb
  rcases Nat.lt_or_ge c.toNat 128 with h | h
  · rw [utf8EncodeChar_ascii h, List.mem_singleton] at hbc
    subst hbc
    exact ⟨c, hc, by simp; omega⟩
  · exact absurd (utf8EncodeChar_high h b hbc) (by omega)

/-- Reads bytes as 7-bit characters, one byte each. -/
def decodeAscii : List UInt8 → Option (List Char)
  | [] => some []
  | b :: bs => if b.toNat < 128 then (decodeAscii bs).map (Char.ofNat b.toNat :: ·) else none

theorem decodeAscii_utf8 {s : List Char} (h : ∀ c ∈ s, c.toNat < 128) :
    decodeAscii (utf8 s) = some s := by
  induction s with
  | nil => rfl
  | cons c s ih =>
    have hc : c.toNat < 128 := h c List.mem_cons_self
    rw [utf8_cons, utf8EncodeChar_ascii hc, List.singleton_append, decodeAscii, byte_ascii hc,
      if_pos hc,
      ih (fun d hd => h d (List.mem_cons_of_mem c hd))]
    simp

/-- ASCII texts compare as their bytes do. -/
theorem utf8_lt_iff {s t : List Char} (hs : ∀ c ∈ s, c.toNat < 128) (ht : ∀ c ∈ t, c.toNat < 128) :
    utf8 s < utf8 t ↔ s < t := by
  induction s generalizing t with
  | nil =>
      cases t with
      | nil => simp [utf8]
      | cons d t =>
          rw [utf8_cons, utf8EncodeChar_ascii (ht d (List.mem_cons_self ..))]
          simp [utf8]
  | cons c s ih =>
      have hc := hs c (List.mem_cons_self ..)
      rw [utf8_cons, utf8EncodeChar_ascii hc]
      cases t with
      | nil => simp [utf8]
      | cons d t =>
          have hd := ht d (List.mem_cons_self ..)
          have hbyte : UInt8.ofNat c.toNat < UInt8.ofNat d.toNat ↔ c < d := by
            rw [UInt8.lt_iff_toNat_lt, byte_ascii hc, byte_ascii hd, Char.lt_def,
              UInt32.lt_iff_toNat_lt]
            rfl
          have hsame : UInt8.ofNat c.toNat = UInt8.ofNat d.toNat ↔ c = d := by
            rw [← UInt8.toNat_inj, byte_ascii hc, byte_ascii hd, Char.toNat_inj]
          rw [utf8_cons, utf8EncodeChar_ascii hd, List.singleton_append, List.singleton_append,
            List.cons_lt_cons_iff, List.cons_lt_cons_iff, hbyte, hsame,
            ih (fun x hx => hs x (List.mem_cons_of_mem c hx))
              (fun x hx => ht x (List.mem_cons_of_mem d hx))]

theorem decodeAscii_isSome {bs : List UInt8} (h : (decodeAscii bs).isSome) :
    ∀ b ∈ bs, b.toNat < 128 := by
  induction bs with
  | nil => simp
  | cons a bs ih =>
    simp only [decodeAscii] at h
    by_cases ha : a.toNat < 128
    · rw [if_pos ha, Option.isSome_map] at h
      intro b hb
      rcases List.mem_cons.mp hb with rfl | hb
      · exact ha
      · exact ih h b hb
    · rw [if_neg ha] at h
      exact absurd h (by simp)

/-! ## UTF-16 -/

/-- The code units of one character: itself, or a surrogate pair. -/
def units (c : Char) : List Nat :=
  if c.toNat < 0x10000 then [c.toNat]
  else [0xD800 + (c.toNat - 0x10000) / 0x400, 0xDC00 + (c.toNat - 0x10000) % 0x400]

def encode (s : List Char) : List Nat := s.flatMap units

/-- Reads code units as text.  A surrogate outside a pair, or a number that is
no code unit, makes the whole sequence ill-formed. -/
def decode : List Nat → Option (List Char)
  | [] => some []
  | u :: us =>
    if u < 0xD800 ∨ (0xE000 ≤ u ∧ u < 0x10000) then (decode us).map (Char.ofNat u :: ·)
    else if u < 0xDC00 then
      match us with
      | v :: vs =>
        if 0xDC00 ≤ v ∧ v < 0xE000 then
          (decode vs).map (Char.ofNat (0x10000 + (u - 0xD800) * 0x400 + (v - 0xDC00)) :: ·)
        else none
      | [] => none
    else none

theorem toNat_not_surrogate (c : Char) :
    c.toNat < 0xD800 ∨ (0xDFFF < c.toNat ∧ c.toNat < 0x110000) := by
  have h := c.valid
  simpa [UInt32.isValidChar, Nat.isValidChar] using h

theorem units_lt (c : Char) : ∀ u ∈ units c, u < 0x10000 := by
  intro u hu
  have h := toNat_not_surrogate c
  simp only [units] at hu
  split at hu
  · simp only [List.mem_singleton] at hu
    omega
  · simp only [List.mem_cons, List.not_mem_nil, or_false] at hu
    omega

theorem decode_units_append (c : Char) (us : List Nat) :
    decode (units c ++ us) = (decode us).map (c :: ·) := by
  have h := toNat_not_surrogate c
  by_cases hc : c.toNat < 0x10000
  · have hu : c.toNat < 0xD800 ∨ (0xE000 ≤ c.toNat ∧ c.toNat < 0x10000) := by omega
    rw [units, if_pos hc, List.singleton_append, decode.eq_def]
    simp only [hu, if_true, Char.ofNat_toNat]
  · let m := c.toNat - 0x10000
    have hm : m < 0x100000 := by simp only [m]; omega
    have hdiv : m / 0x400 < 0x400 := by omega
    have hmod : m % 0x400 < 0x400 := Nat.mod_lt _ (by decide)
    have hback : 0x10000 + (0xD800 + m / 0x400 - 0xD800) * 0x400 + (0xDC00 + m % 0x400 - 0xDC00)
        = c.toNat := by
      have := Nat.div_add_mod m 0x400
      simp only [m] at *
      omega
    have hu : units c = [0xD800 + m / 0x400, 0xDC00 + m % 0x400] := by rw [units, if_neg hc]
    rw [hu, List.cons_append, List.cons_append, List.nil_append, decode.eq_def]
    have h₁ : ¬ (0xD800 + m / 0x400 < 0xD800 ∨
        (0xE000 ≤ 0xD800 + m / 0x400 ∧ 0xD800 + m / 0x400 < 0x10000)) := by omega
    have h₂ : 0xD800 + m / 0x400 < 0xDC00 := by omega
    have h₃ : 0xDC00 ≤ 0xDC00 + m % 0x400 ∧ 0xDC00 + m % 0x400 < 0xE000 := by omega
    simp only [h₁, if_false, h₂, if_true, h₃, and_self, hback, Char.ofNat_toNat]

theorem decode_encode (s : List Char) : decode (encode s) = some s := by
  induction s with
  | nil => rfl
  | cons c s ih =>
    show decode (units c ++ encode s) = _
    rw [decode_units_append, ih, Option.map_some]

theorem toNat_ofNat_of_valid {n : Nat} (h : n.isValidChar) : (Char.ofNat n).toNat = n := by
  rw [Char.ofNat, dif_pos h]
  rfl

/-- The accepted sequences are the well-formed ones. -/
theorem encode_decode (us : List Nat) : ∀ s, decode us = some s → encode s = us := by
  fun_induction decode us with
  | case1 =>
    intro s h
    cases h
    rfl
  | case2 u us hu ih =>
    intro s h
    obtain ⟨t, ht, rfl⟩ := Option.map_eq_some_iff.mp h
    have hval : (Char.ofNat u).toNat = u := by
      apply toNat_ofNat_of_valid
      simp only [Nat.isValidChar]
      omega
    show units (Char.ofNat u) ++ encode t = u :: us
    rw [ih t ht, units, hval, if_pos (by omega)]
    rfl
  | case3 u hbmp hhigh v vs hlow ih =>
    intro s h
    obtain ⟨t, ht, rfl⟩ := Option.map_eq_some_iff.mp h
    have hval : (Char.ofNat (0x10000 + (u - 0xD800) * 0x400 + (v - 0xDC00))).toNat =
        0x10000 + (u - 0xD800) * 0x400 + (v - 0xDC00) := by
      apply toNat_ofNat_of_valid
      simp only [Nat.isValidChar]
      omega
    show units _ ++ encode t = u :: v :: vs
    rw [ih t ht, units, hval, if_neg (by omega)]
    have hfirst : 0xD800 + (0x10000 + (u - 0xD800) * 0x400 + (v - 0xDC00) - 0x10000) / 0x400
        = u := by omega
    have hsecond : 0xDC00 + (0x10000 + (u - 0xD800) * 0x400 + (v - 0xDC00) - 0x10000) % 0x400
        = v := by omega
    rw [hfirst, hsecond]
    rfl
  | case4 =>
    intro s h
    cases h
  | case5 =>
    intro s h
    cases h
  | case6 =>
    intro s h
    cases h

/-- The ill-formed sequences are those that no text is written as. -/
theorem decode_eq_none {us : List Nat} : decode us = none ↔ ¬ ∃ s, encode s = us := by
  constructor
  · rintro hnone ⟨s, rfl⟩
    rw [decode_encode] at hnone
    cases hnone
  · intro hill
    cases hdecode : decode us with
    | none => rfl
    | some s => exact absurd ⟨s, encode_decode us s hdecode⟩ hill

/-! ## Code units in hexadecimal -/

def hexDigit (n : Nat) : Char := if n < 10 then Char.ofNat (48 + n) else Char.ofNat (55 + n)

/-- The value of a hexadecimal digit of either case. -/
def hexValue (c : Char) : Option Nat :=
  let n := c.toNat
  if 48 ≤ n ∧ n ≤ 57 then some (n - 48)
  else if 65 ≤ n ∧ n ≤ 70 then some (n - 55)
  else if 97 ≤ n ∧ n ≤ 102 then some (n - 87)
  else none

theorem hexValue_hexDigit {n : Nat} (h : n < 16) : hexValue (hexDigit n) = some n := by
  have hall : ∀ m : Fin 16, hexValue (hexDigit m.val) = some m.val := by decide
  exact hall ⟨n, h⟩

theorem hexDigit_range {n : Nat} (h : n < 16) :
    48 ≤ (hexDigit n).toNat ∧ (hexDigit n).toNat < 128 := by
  have hall : ∀ m : Fin 16, 48 ≤ (hexDigit m.val).toNat ∧ (hexDigit m.val).toNat < 128 := by decide
  exact hall ⟨n, h⟩

/-- One code unit as four digits, the most significant first. -/
def hexUnit (u : Nat) : List Char :=
  [hexDigit (u / 4096 % 16), hexDigit (u / 256 % 16), hexDigit (u / 16 % 16), hexDigit (u % 16)]

/-- Reads a text as groups of four digits, one code unit each. -/
def decodeHex : List Char → Option (List Nat)
  | [] => some []
  | a :: b :: c :: d :: s =>
    match hexValue a, hexValue b, hexValue c, hexValue d with
    | some x, some y, some z, some w =>
      (decodeHex s).map ((x * 4096 + y * 256 + z * 16 + w) :: ·)
    | _, _, _, _ => none
  | _ => none

theorem decodeHex_flatMap {us : List Nat} (h : ∀ u ∈ us, u < 0x10000) :
    decodeHex (us.flatMap hexUnit) = some us := by
  induction us with
  | nil => rfl
  | cons u us ih =>
    have hu : u < 0x10000 := h u List.mem_cons_self
    have hback : u / 4096 % 16 * 4096 + u / 256 % 16 * 256 + u / 16 % 16 * 16 + u % 16 = u := by
      omega
    have hmod : ∀ n : Nat, n % 16 < 16 := fun n => Nat.mod_lt n (by decide)
    show decodeHex (hexUnit u ++ us.flatMap hexUnit) = _
    simp only [hexUnit, List.cons_append, List.nil_append, decodeHex,
      hexValue_hexDigit (hmod _), hback]
    rw [ih (fun v hv => h v (List.mem_cons_of_mem u hv)), Option.map_some]

theorem encode_lt (s : List Char) : ∀ u ∈ encode s, u < 0x10000 := by
  intro u hu
  obtain ⟨c, _, hc⟩ := List.mem_flatMap.mp hu
  exact units_lt c u hc

theorem hexUnit_range (u : Nat) : ∀ c ∈ hexUnit u, 48 ≤ c.toNat ∧ c.toNat < 128 := by
  intro c hc
  have hmod : ∀ n : Nat, n % 16 < 16 := fun n => Nat.mod_lt n (by decide)
  simp only [hexUnit, List.mem_cons, List.not_mem_nil, or_false] at hc
  rcases hc with rfl | rfl | rfl | rfl <;> exact hexDigit_range (hmod _)

theorem hexValue_low {c : Char} (h : (hexValue c).isSome) : c.toNat < 128 := by
  simp only [hexValue] at h
  split at h
  · omega
  · split at h
    · omega
    · split at h
      · omega
      · cases h

/-- Writing the value of a digit gives the digit in upper case. -/
theorem hexDigit_hexValue {c : Char} {n : Nat} (h : hexValue c = some n) :
    n < 16 ∧ hexDigit n = c.toUpper := by
  have hall : ∀ m : Fin 128, (hexValue (Char.ofNat m.val)).all
      (fun k => decide (k < 16) && hexDigit k == (Char.ofNat m.val).toUpper) = true := by
    decide +kernel
  have hc := hall ⟨c.toNat, hexValue_low (by rw [h]; rfl)⟩
  rw [Char.ofNat_toNat, h, Option.all_some, Bool.and_eq_true, decide_eq_true_eq,
    beq_iff_eq] at hc
  exact hc

/-- What is read as code units is their text, but for the case of its letters. -/
theorem flatMap_decodeHex (s : List Char) :
    ∀ us, decodeHex s = some us → us.flatMap hexUnit = s.map Char.toUpper := by
  fun_induction decodeHex s with
  | case1 =>
    intro us h
    cases h
    rfl
  | case2 a b c d s x y z w hx hy hz hw ih =>
    intro us h
    obtain ⟨vs, hvs, rfl⟩ := Option.map_eq_some_iff.mp h
    obtain ⟨hx, hdx⟩ := hexDigit_hexValue hx
    obtain ⟨hy, hdy⟩ := hexDigit_hexValue hy
    obtain ⟨hz, hdz⟩ := hexDigit_hexValue hz
    obtain ⟨hw, hdw⟩ := hexDigit_hexValue hw
    have hunit : hexUnit (x * 4096 + y * 256 + z * 16 + w) =
        [a.toUpper, b.toUpper, c.toUpper, d.toUpper] := by
      rw [← hdx, ← hdy, ← hdz, ← hdw, hexUnit]
      congr <;> omega
    rw [List.flatMap_cons, hunit, ih vs hvs]
    rfl
  | case3 =>
    intro us h
    cases h
  | case4 =>
    intro us h
    cases h

/-- Whole groups of four digits. -/
def WholeGroups (s : List Char) : Prop := s.length % 4 = 0 ∧ ∀ c ∈ s, (hexValue c).isSome

theorem decodeHex_isSome (s : List Char) (h : WholeGroups s) : (decodeHex s).isSome := by
  fun_induction decodeHex s with
  | case1 => rfl
  | case2 a b c d s x y z w hx hy hz hw ih =>
    rw [Option.isSome_map]
    refine ih ⟨?_, fun e he => h.2 e (by simp [he])⟩
    have hlen := h.1
    simp only [List.length_cons] at hlen
    omega
  | case3 a b c d s hnone =>
    obtain ⟨x, hx⟩ := Option.isSome_iff_exists.mp (h.2 a (by simp))
    obtain ⟨y, hy⟩ := Option.isSome_iff_exists.mp (h.2 b (by simp))
    obtain ⟨z, hz⟩ := Option.isSome_iff_exists.mp (h.2 c (by simp))
    obtain ⟨w, hw⟩ := Option.isSome_iff_exists.mp (h.2 d (by simp))
    exact absurd hw (hnone x y z w hx hy hz)
  | case4 s hnil hfour =>
    rcases s with _ | ⟨a, _ | ⟨b, _ | ⟨c, _ | ⟨d, s⟩⟩⟩⟩
    · exact absurd rfl hnil
    · exact absurd h.1 (by simp)
    · exact absurd h.1 (by simp)
    · exact absurd h.1 (by simp)
    · exact absurd rfl (hfour a b c d s)

theorem hexValue_hexUnit {u : Nat} {c : Char} (h : c ∈ hexUnit u) : (hexValue c).isSome := by
  have hmod : ∀ n : Nat, n % 16 < 16 := fun n => Nat.mod_lt n (by decide)
  simp only [hexUnit, List.mem_cons, List.not_mem_nil, or_false] at h
  rcases h with rfl | rfl | rfl | rfl <;> rw [hexValue_hexDigit (hmod _)] <;> rfl

theorem wholeGroups_flatMap (us : List Nat) : WholeGroups (us.flatMap hexUnit) := by
  constructor
  · induction us with
    | nil => rfl
    | cons u us ih =>
      rw [List.flatMap_cons, List.length_append]
      show (4 + (us.flatMap hexUnit).length) % 4 = 0
      omega
  · intro c hc
    obtain ⟨u, -, hcu⟩ := List.mem_flatMap.mp hc
    exact hexValue_hexUnit hcu

end Unicode
