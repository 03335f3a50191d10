/-
Validation of a message and its encodings on the wire.

The alphabet table decides how a message is sent: a body whose characters all
have a septet cost goes out as GSM-7, any other as UCS2.  The choice is made
once for the whole body and used for each of its parts.
-/
import GreenRelay.Lib.Text
import GreenRelay.Lib.Unicode

namespace GreenRelay
namespace Sms

open Unicode

def maxBodyChars : Nat := 1530

def e164MinDigits : Nat := 7

def e164MaxDigits : Nat := 15

inductive ValidationError where
  | missingFields (fields : List String)
  | invalidPhoneNumber
  | bodyEmpty
  | bodyTooLong
  deriving DecidableEq, Repr

def validateE164 (s : String) : Except ValidationError Unit :=
  match utf8 s.toList with
  | 43 :: digits =>
    if e164MinDigits ≤ digits.length ∧ digits.length ≤ e164MaxDigits then
      if digits.all (fun b => 48 ≤ b && b ≤ 57) then .ok () else .error .invalidPhoneNumber
    else .error .invalidPhoneNumber
  | _ => .error .invalidPhoneNumber

def validateBody (body : String) : Except ValidationError Unit :=
  -- The source counts bytes on its ASCII path; there the two counts agree.
  let len := body.toList.length
  if len = 0 then .error .bodyEmpty
  else if maxBodyChars < len then .error .bodyTooLong
  else .ok ()

def checkRequiredFields (toNumber body : Option String) : Except ValidationError Unit :=
  let missing := (if toNumber.isNone then ["to"] else []) ++ (if body.isNone then ["body"] else [])
  if missing.isEmpty then .ok () else .error (.missingFields missing)

/-! ## The GSM 03.38 alphabet -/

inductive SmsEncoding where
  | gsm7
  | ucs2
  deriving DecidableEq, Repr

/-- The characters of the extension table, two septets each. -/
def gsm7Extension : List Char := ['^', '{', '}', '\\', '[', '~', ']', '|', '€']

/-- The characters of the basic table outside its three ASCII ranges. -/
def gsm7Basic : List Char :=
  ['@', '\n', '\r', '£', '¥', 'è', 'é', 'ù', 'ì', 'ò', 'Ç', 'Ø', 'ø', 'Å', 'å', 'Δ', '_', 'Φ',
   'Γ', 'Λ', 'Ω', 'Π', 'Ψ', 'Σ', 'Θ', 'Ξ', 'Æ', 'æ', 'ß', 'É', '¤', '¡', 'Ä', 'Ö', 'Ñ', 'Ü',
   '§', '¿', 'ä', 'ö', 'ñ', 'ü', 'à']

/-- The ranges `' '..='?'`, `'A'..='Z'` and `'a'..='z'`. -/
def gsm7Range (c : Char) : Bool :=
  (32 ≤ c.toNat && c.toNat ≤ 63) || (65 ≤ c.toNat && c.toNat ≤ 90) ||
    (97 ≤ c.toNat && c.toNat ≤ 122)

def gsm7Septets (c : Char) : Option Nat :=
  if c ∈ gsm7Extension then some 2
  else if c ∈ gsm7Basic ∨ gsm7Range c = true then some 1
  else none

def isGsm7 (s : String) : Bool := s.toList.all (fun c => (gsm7Septets c).isSome)

def messageEncoding (body : String) : SmsEncoding := if isGsm7 body then .gsm7 else .ucs2

/-- No control character below the space is in the alphabet but the two line
breaks, so neither Ctrl-Z nor ESC is. -/
theorem gsm7Septets_control {c : Char} (h : (gsm7Septets c).isSome) (hc : c.toNat < 32) :
    c = '\n' ∨ c = '\r' := by
  have hext : ∀ d ∈ gsm7Extension, 32 ≤ d.toNat := by simp [gsm7Extension]
  have hbasic : ∀ d ∈ gsm7Basic, 32 ≤ d.toNat ∨ d = '\n' ∨ d = '\r' := by simp [gsm7Basic]
  simp only [gsm7Septets] at h
  split at h
  · next hmem => have := hext c hmem; omega
  · split at h
    · next hmem =>
      rcases hmem with hmem | hmem
      · rcases hbasic c hmem with hge | hbr
        · omega
        · exact hbr
      · simp only [gsm7Range, Bool.or_eq_true, Bool.and_eq_true, decide_eq_true_eq] at hmem
        omega
    · exact absurd h (by simp)

theorem isGsm7_iff {s : String} : isGsm7 s = true ↔ ∀ c ∈ s.toList, (gsm7Septets c).isSome := by
  simp [isGsm7, List.all_eq_true]

theorem messageEncoding_gsm7 {body : String} :
    messageEncoding body = .gsm7 ↔ isGsm7 body = true := by
  unfold messageEncoding
  cases isGsm7 body <;> simp

/-! ## UCS2 in hexadecimal -/

def ucs2HexEncode (s : String) : String :=
  String.ofList ((encode s.toList).flatMap hexUnit)

def ucs2HexDecode (hex : String) : Option String :=
  let h := Text.trim hex.toList
  -- A text with a non-ASCII character fails the digit test, so counting
  -- characters instead of bytes decides the same.
  if h = [] ∨ h.length % 4 ≠ 0 ∨ ¬ h.all (fun c => (hexValue c).isSome) then none
  else ((decodeHex h).bind decode).map String.ofList

/-! ## The `AT+CMGS` submission -/

def buildCmgsHeader (toNumber : String) (encoding : SmsEncoding) : List UInt8 :=
  let sanitized := toNumber.toList.filter (fun c => c.isDigit || c == '+')
  let address := match encoding with
    | .gsm7 => sanitized
    | .ucs2 => (ucs2HexEncode (String.ofList sanitized)).toList
  utf8 "AT+CMGS=\"".toList ++ utf8 address ++ utf8 "\"\r".toList

/-- The body without its terminator.  GSM-7 text is sent verbatim, less any
Ctrl-Z; UCS2 text is sent as hexadecimal. -/
def cmgsPayload (part : String) : SmsEncoding → List UInt8
  | .gsm7 => (utf8 part.toList).filter (· != 0x1A)
  | .ucs2 => utf8 (ucs2HexEncode part).toList

def buildCmgsBody (part : String) (encoding : SmsEncoding) : List UInt8 :=
  cmgsPayload part encoding ++ [0x1A]

theorem ucs2HexEncode_toList (s : String) :
    (ucs2HexEncode s).toList = (encode s.toList).flatMap hexUnit := by
  simp [ucs2HexEncode]

theorem ucs2HexEncode_range (s : String) :
    ∀ c ∈ (ucs2HexEncode s).toList, 48 ≤ c.toNat ∧ c.toNat < 128 := by
  intro c hc
  rw [ucs2HexEncode_toList] at hc
  obtain ⟨u, _, hu⟩ := List.mem_flatMap.mp hc
  exact hexUnit_range u c hu

/-- The four digits of a code unit: upper case, and read back as that unit. -/
structure HexGroup (u : Nat) (group : List Char) : Prop where
  length : group.length = 4
  digits : ∀ c ∈ group, ('0' ≤ c ∧ c ≤ '9') ∨ ('A' ≤ c ∧ c ≤ 'F')
  value : decodeHex group = some [u]

theorem hexGroup_hexUnit {u : Nat} (h : u < 0x10000) : HexGroup u (hexUnit u) where
  length := rfl
  digits := by
    have hdigit : ∀ m : Fin 16, ('0' ≤ hexDigit m.val ∧ hexDigit m.val ≤ '9') ∨
        ('A' ≤ hexDigit m.val ∧ hexDigit m.val ≤ 'F') := by decide
    have hmod : ∀ n : Nat, n % 16 < 16 := fun n => Nat.mod_lt n (by decide)
    intro c hc
    simp only [hexUnit, List.mem_cons, List.not_mem_nil, or_false] at hc
    rcases hc with rfl | rfl | rfl | rfl
    · exact hdigit ⟨_, hmod _⟩
    · exact hdigit ⟨_, hmod _⟩
    · exact hdigit ⟨_, hmod _⟩
    · exact hdigit ⟨_, hmod _⟩
  value := by
    have hread := @decodeHex_flatMap [u] (by simpa using h)
    rwa [List.flatMap_singleton] at hread

theorem ucs2HexEncode_ne_nil {s : String} (h : s ≠ "") : (ucs2HexEncode s).toList ≠ [] := by
  rw [ucs2HexEncode_toList]
  cases hs : s.toList with
  | nil => exact absurd (String.toList_eq_nil_iff.mp hs) h
  | cons c cs =>
    show (encode (c :: cs)).flatMap hexUnit ≠ []
    unfold encode units
    rw [List.flatMap_cons]
    split <;> simp [hexUnit]

theorem isWhite_hexUnit {u : Nat} {c : Char} (h : c ∈ hexUnit u) : Text.isWhite c = false := by
  have hdigit : ∀ m : Fin 16, Text.isWhite (hexDigit m.val) = false := by decide
  have hmod : ∀ n : Nat, n % 16 < 16 := fun n => Nat.mod_lt n (by decide)
  simp only [hexUnit, List.mem_cons, List.not_mem_nil, or_false] at h
  rcases h with rfl | rfl | rfl | rfl
  · exact hdigit ⟨_, hmod _⟩
  · exact hdigit ⟨_, hmod _⟩
  · exact hdigit ⟨_, hmod _⟩
  · exact hdigit ⟨_, hmod _⟩

/-- Digits have no white space among them to trim. -/
theorem trim_ucs2HexEncode (s : String) :
    Text.trim (ucs2HexEncode s).toList = (ucs2HexEncode s).toList := by
  have hplain : ∀ c ∈ (ucs2HexEncode s).toList, Text.isWhite c = false := by
    intro c hc
    rw [ucs2HexEncode_toList] at hc
    obtain ⟨u, hu, hcu⟩ := List.mem_flatMap.mp hc
    exact isWhite_hexUnit hcu
  exact Text.trim_of_ends (fun c hc => hplain c (List.mem_of_mem_head? hc))
    (fun c hc => hplain c (List.mem_of_getLast? hc))

/-- The first check of `ucs2_hex_decode`. -/
theorem ucs2HexDecode_refused {h : String}
    (hbad : Text.trim h.toList = [] ∨ ¬ WholeGroups (Text.trim h.toList)) :
    ucs2HexDecode h = none := by
  unfold ucs2HexDecode
  refine if_pos ?_
  rcases hbad with hnil | hbad
  · exact Or.inl hnil
  · by_cases hlen : (Text.trim h.toList).length % 4 = 0
    · refine Or.inr (Or.inr (fun hall => hbad ⟨hlen, List.all_eq_true.mp hall⟩))
    · exact Or.inr (Or.inl hlen)

/-- The conversion of an encoded text, without the check that it is not empty. -/
theorem ucs2HexDecode_eq {h : String} (hne : Text.trim h.toList ≠ [])
    (hwhole : WholeGroups (Text.trim h.toList)) :
    ucs2HexDecode h = ((decodeHex (Text.trim h.toList)).bind decode).map String.ofList := by
  have hall : (Text.trim h.toList).all (fun c => (hexValue c).isSome) = true :=
    List.all_eq_true.mpr hwhole.2
  unfold ucs2HexDecode
  exact if_neg (by simp [hne, hwhole.1, hall])

theorem ucs2HexDecode_encode {s : String} (h : s ≠ "") :
    ucs2HexDecode (ucs2HexEncode s) = some s := by
  have hne : Text.trim (ucs2HexEncode s).toList ≠ [] := by
    rw [trim_ucs2HexEncode]
    exact ucs2HexEncode_ne_nil h
  have hwhole : WholeGroups (Text.trim (ucs2HexEncode s).toList) := by
    rw [trim_ucs2HexEncode, ucs2HexEncode_toList]
    exact wholeGroups_flatMap (encode s.toList)
  rw [ucs2HexDecode_eq hne hwhole, trim_ucs2HexEncode, ucs2HexEncode_toList,
    decodeHex_flatMap (encode_lt s.toList), Option.bind_some, decode_encode, Option.map_some,
    String.ofList_toList]

/-- Decoding undoes encoding of a text that is not empty, what is decoded is the
encoding of its text but for the case of its digits, and nothing else is refused
than what is no encoding. -/
theorem ucs2Hex_codec :
    (∀ s : String, s ≠ "" → ucs2HexDecode (ucs2HexEncode s) = some s) ∧
    (∀ s : String, (ucs2HexEncode s).toList = (encode s.toList).flatMap hexUnit ∧
      ∀ u ∈ encode s.toList, HexGroup u (hexUnit u)) ∧
    (∀ h s : String, ucs2HexDecode h = some s →
      (ucs2HexEncode s).toList = (Text.trim h.toList).map Char.toUpper) ∧
    (∀ h : String, ucs2HexDecode h = none ↔
      Text.trim h.toList = [] ∨ ¬ WholeGroups (Text.trim h.toList) ∨
        ∃ us, decodeHex (Text.trim h.toList) = some us ∧ ¬ ∃ text, encode text = us) := by
  refine ⟨fun s hs => ucs2HexDecode_encode hs, fun s => ⟨ucs2HexEncode_toList s, fun u hu =>
    hexGroup_hexUnit (encode_lt s.toList u hu)⟩, ?_, ?_⟩
  · intro h s hdecode
    by_cases hgood : Text.trim h.toList = [] ∨ ¬ WholeGroups (Text.trim h.toList)
    · rw [ucs2HexDecode_refused hgood] at hdecode
      cases hdecode
    · obtain ⟨hne, hwhole⟩ := not_or.mp hgood
      rw [ucs2HexDecode_eq hne (Classical.not_not.mp hwhole)] at hdecode
      obtain ⟨text, htext, rfl⟩ := Option.map_eq_some_iff.mp hdecode
      obtain ⟨us, hread, htext⟩ := Option.bind_eq_some_iff.mp htext
      rw [ucs2HexEncode_toList, String.toList_ofList, encode_decode us text htext,
        flatMap_decodeHex _ us hread]
  · intro h
    by_cases hgood : Text.trim h.toList = [] ∨ ¬ WholeGroups (Text.trim h.toList)
    · refine ⟨fun _ => ?_, fun _ => ucs2HexDecode_refused hgood⟩
      rcases hgood with hnil | hbad
      · exact Or.inl hnil
      · exact Or.inr (Or.inl hbad)
    · obtain ⟨hne, hwhole⟩ := not_or.mp hgood
      have hwhole := Classical.not_not.mp hwhole
      obtain ⟨us, hread⟩ := Option.isSome_iff_exists.mp (decodeHex_isSome _ hwhole)
      rw [ucs2HexDecode_eq hne hwhole, hread, Option.bind_some, Option.map_eq_none_iff,
        decode_eq_none]
      constructor
      · intro hill
        exact Or.inr (Or.inr ⟨us, rfl, hill⟩)
      · rintro (hnil | hbad | ⟨vs, hvs, hill⟩)
        · exact absurd hnil hne
        · exact absurd hwhole hbad
        · rwa [Option.some.inj hvs]

theorem ucs2Hex_codec_accent : ucs2HexDecode (ucs2HexEncode "hé") = some "hé" :=
  ucs2Hex_codec.1 "hé" (by decide)

/-- A text whose only control characters are line breaks has neither Ctrl-Z nor
ESC among its bytes. -/
theorem utf8_no_submit_abort {s : List Char} (h : ∀ c ∈ s, c.toNat < 32 → c = '\n' ∨ c = '\r') :
    ∀ b ∈ utf8 s, b ≠ 0x1A ∧ b ≠ 0x1B := by
  have hbyte : ∀ b ∈ utf8 s, b.toNat < 32 → b.toNat = 10 ∨ b.toNat = 13 := by
    intro b hb hlow
    obtain ⟨c, hc, hval⟩ := mem_utf8_low hb (by omega)
    rcases h c hc (by omega) with rfl | rfl
    · exact Or.inl hval.symm
    · exact Or.inr hval.symm
  intro b hb
  constructor
  · rintro rfl
    exact absurd (hbyte _ hb (by decide)) (by decide)
  · rintro rfl
    exact absurd (hbyte _ hb (by decide)) (by decide)

end Sms
end GreenRelay
