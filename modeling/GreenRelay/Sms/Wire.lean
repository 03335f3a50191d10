/-
What the modem reads off the wire.

The body of a part is written under the TE character set selected for its
message.  Under `IRA` the modem takes each byte for one 7-bit character; under
`UCS2` it takes four hexadecimal digits for one UTF-16 code unit.  A UCS2 part
is always read back as the text it was built from.  A GSM-7 part is written as
UTF-8, so it is read back exactly when it is ASCII: the accented letters of the
alphabet and the euro sign go out as bytes that IRA does not have.
-/
import GreenRelay.Sms.Segment

namespace GreenRelay
namespace Sms

open Unicode

/-- The text the modem takes a body for, in the character set the service has
selected for the encoding. -/
def teDecode : SmsEncoding → List UInt8 → Option (List Char)
  | .gsm7, bytes => decodeAscii bytes
  | .ucs2, bytes => ((decodeAscii bytes).bind decodeHex).bind decode

/-- A part arrives: what is written before the final Ctrl-Z is read as its text,
and a GSM-7 part is written in 7-bit bytes. -/
def Arrives (encoding : SmsEncoding) (part : String) : Prop :=
  let bytes := (buildCmgsBody part encoding).dropLast
  teDecode encoding bytes = some part.toList ∧
    (encoding = .gsm7 → ∀ b ∈ bytes, b.toNat < 128)

theorem buildCmgsBody_dropLast (part : String) (encoding : SmsEncoding) :
    (buildCmgsBody part encoding).dropLast = cmgsPayload part encoding := by
  simp [buildCmgsBody]

/-- Ctrl-Z is not in the alphabet, so nothing is stripped from a GSM-7 part. -/
theorem cmgsPayload_gsm7 {part : String} (h : isGsm7 part = true) :
    cmgsPayload part .gsm7 = utf8 part.toList := by
  rw [cmgsPayload, List.filter_eq_self]
  intro b hb
  have hctl := fun c hc => gsm7Septets_control (isGsm7_iff.mp h c hc)
  exact bne_iff_ne.mpr (utf8_no_submit_abort hctl b hb).1

theorem arrives_ucs2 (part : String) : Arrives .ucs2 part := by
  refine ⟨?_, fun h => by cases h⟩
  rw [buildCmgsBody_dropLast, cmgsPayload]
  show ((decodeAscii (utf8 (ucs2HexEncode part).toList)).bind decodeHex).bind decode = _
  rw [decodeAscii_utf8 (fun c hc => (ucs2HexEncode_range part c hc).2), Option.bind_some,
    ucs2HexEncode_toList, decodeHex_flatMap (encode_lt _), Option.bind_some, decode_encode]

theorem arrives_gsm7 {part : String} (hpart : isGsm7 part = true) :
    Arrives .gsm7 part ↔ ∀ c ∈ part.toList, c.toNat < 128 := by
  have hbytes : (buildCmgsBody part .gsm7).dropLast = utf8 part.toList := by
    rw [buildCmgsBody_dropLast, cmgsPayload_gsm7 hpart]
  simp only [Arrives, hbytes, teDecode, forall_const]
  constructor
  · rintro ⟨_, hlow⟩ c hc
    rcases Nat.lt_or_ge c.toNat 128 with h | h
    · exact h
    · obtain ⟨b, hb⟩ := List.exists_mem_of_ne_nil _ (String.utf8EncodeChar_ne_nil (c := c))
      have hsmall := hlow b (List.mem_flatMap.mpr ⟨c, hc, hb⟩)
      exact absurd (utf8EncodeChar_high h b hb) (by omega)
  · intro hascii
    have hdec := decodeAscii_utf8 hascii
    exact ⟨hdec, decodeAscii_isSome (by rw [hdec]; rfl)⟩

/-- Every part of a body, of accepted length or not, arrives if and only if the
body is sent as UCS2 or is ASCII. -/
theorem segments_arrive_iff {body : String} {segments : List Segment}
    (h : segmentMessage body = .ok segments) :
    (∀ seg ∈ segments, Arrives (messageEncoding body) seg.text) ↔
      messageEncoding body = .ucs2 ∨ ∀ c ∈ body.toList, c.toNat < 128 := by
  cases henc : messageEncoding body with
  | ucs2 => exact ⟨fun _ => Or.inl rfl, fun _ seg _ => arrives_ucs2 seg.text⟩
  | gsm7 =>
    have hgsm := isGsm7_iff.mp (messageEncoding_gsm7.mp henc)
    have hpart : ∀ seg ∈ segments, isGsm7 seg.text = true := fun seg hseg =>
      isGsm7_iff.mpr (fun c hc => hgsm c (mem_body_of_mem_segment h hseg hc))
    constructor
    · intro harr
      refine Or.inr (fun c hc => ?_)
      rw [← segmentMessage_joined h] at hc
      obtain ⟨seg, hseg, hcs⟩ := List.mem_flatMap.mp hc
      exact (arrives_gsm7 (hpart seg hseg)).mp (harr seg hseg) c hcs
    · rintro (hne | hascii) seg hseg
      · cases hne
      · exact (arrives_gsm7 (hpart seg hseg)).mpr
          (fun c hc => hascii c (mem_body_of_mem_segment h hseg hc))

theorem segments_arrive_iff_two :
    Arrives (messageEncoding "hello") "hello" ∧
      ∀ seg ∈ cyrillicParts, Arrives (messageEncoding cyrillicLong) seg.text :=
  ⟨(@segments_arrive_iff "hello" [⟨1, "hello"⟩] rfl).mpr (Or.inr (by simp)) _ List.mem_cons_self,
    (segments_arrive_iff segmentMessage_cyrillicLong).mpr (Or.inl (by decide +kernel))⟩

/-- The body `é` is accepted as one GSM-7 part and written as the bytes C3 A9,
which are no IRA text. -/
theorem segments_arrive_fails : ¬ ∀ body segments, validateBody body = .ok () →
    segmentMessage body = .ok segments →
      ∀ seg ∈ segments, Arrives (messageEncoding body) seg.text := by
  intro h
  have hseg := h "é" [⟨1, "é"⟩] rfl rfl ⟨1, "é"⟩ List.mem_cons_self
  exact absurd hseg.1 (by decide)

/-! ## The frame of a submission -/

/-- The bytes of a text in UTF-16BE. -/
def utf16BE (s : List Char) : List Nat := (encode s).flatMap (fun u => [u / 256, u % 256])

def hexByte (b : Nat) : List Char := [hexDigit (b / 16), hexDigit (b % 16)]

/-- The text that is to be submitted for a part. -/
def partBytes (part : String) : SmsEncoding → List UInt8
  | .gsm7 => utf8 part.toList
  | .ucs2 => utf8 ((utf16BE part.toList).flatMap hexByte)

theorem hexUnit_bytes {u : Nat} (hu : u < 0x10000) :
    hexByte (u / 256) ++ hexByte (u % 256) = hexUnit u := by
  have h₁ : u / 256 / 16 = u / 4096 % 16 := by omega
  have h₂ : u % 256 / 16 = u / 16 % 16 := by omega
  have h₃ : u % 256 % 16 = u % 16 := by omega
  rw [hexByte, hexByte, h₁, h₂, h₃]
  rfl

theorem hexByte_utf16BE (s : List Char) :
    (utf16BE s).flatMap hexByte = (encode s).flatMap hexUnit := by
  rw [utf16BE, List.flatMap_assoc, List.flatMap_def, List.flatMap_def]
  apply congrArg List.flatten
  apply List.map_congr_left
  intro u hu
  show hexByte (u / 256) ++ (hexByte (u % 256) ++ []) = hexUnit u
  rw [List.append_nil, hexUnit_bytes (encode_lt s u hu)]

/-- What is written for a part is the text that is to be submitted. -/
theorem cmgsPayload_eq {part : String} {encoding : SmsEncoding}
    (h : encoding = .gsm7 → isGsm7 part = true) :
    cmgsPayload part encoding = partBytes part encoding := by
  cases encoding with
  | gsm7 => exact cmgsPayload_gsm7 (h rfl)
  | ucs2 =>
    show utf8 (ucs2HexEncode part).toList = utf8 ((utf16BE part.toList).flatMap hexByte)
    rw [ucs2HexEncode_toList, hexByte_utf16BE]

/-- The characters of an address as it is written. -/
def addressAlphabet : SmsEncoding → List Char
  | .gsm7 => "0123456789+".toList
  | .ucs2 => "0123456789ABCDEF".toList

/-- The command line of a header. -/
def cmgsLine (address : List UInt8) : List UInt8 := utf8 "AT+CMGS=\"".toList ++ address ++ [34]

theorem hexDigit_address {n : Nat} (h : n < 16) : hexDigit n ∈ addressAlphabet .ucs2 := by
  have hall : ∀ m : Fin 16, hexDigit m.val ∈ addressAlphabet .ucs2 := by decide +kernel
  exact hall ⟨n, h⟩

theorem isDigit_address {c : Char} (h : c.isDigit = true) : c ∈ addressAlphabet .gsm7 := by
  have hall : ∀ m : Fin 10, Char.ofNat (48 + m.val) ∈ addressAlphabet .gsm7 := by decide +kernel
  obtain ⟨hlow, hhigh⟩ : 48 ≤ c.toNat ∧ c.toNat ≤ 57 := by
    simpa [Char.isDigit, UInt32.le_iff_toNat_le] using h
  have hc : Char.ofNat (48 + (c.toNat - 48)) = c := by
    rw [Nat.add_sub_cancel' hlow, Char.ofNat_toNat]
  exact hc ▸ hall ⟨c.toNat - 48, by omega⟩

theorem ucs2HexEncode_address (s : String) :
    ∀ c ∈ (ucs2HexEncode s).toList, c ∈ addressAlphabet .ucs2 := by
  intro c hc
  have hmod : ∀ n : Nat, n % 16 < 16 := fun n => Nat.mod_lt n (by decide)
  rw [ucs2HexEncode_toList] at hc
  obtain ⟨u, _, hu⟩ := List.mem_flatMap.mp hc
  simp only [hexUnit, List.mem_cons, List.not_mem_nil, or_false] at hu
  rcases hu with rfl | rfl | rfl | rfl <;> exact hexDigit_address (hmod _)

theorem utf8_subset {s a : List Char} (h : ∀ c ∈ s, c ∈ a) : ∀ b ∈ utf8 s, b ∈ utf8 a := by
  intro b hb
  obtain ⟨c, hc, hbc⟩ := List.mem_flatMap.mp hb
  exact List.mem_flatMap.mpr ⟨c, h c hc, hbc⟩

/-- A header is one command line with an address between its quotes. -/
theorem buildCmgsHeader_line (toNumber : String) (encoding : SmsEncoding) : ∃ address,
    (∀ b ∈ address, b ∈ utf8 (addressAlphabet encoding)) ∧
      buildCmgsHeader toNumber encoding = cmgsLine address ++ [13] := by
  have hframe : ∀ address : List Char,
      utf8 "AT+CMGS=\"".toList ++ utf8 address ++ utf8 "\"\r".toList =
        cmgsLine (utf8 address) ++ [13] := by
    intro address
    rw [cmgsLine, show utf8 "\"\r".toList = [34] ++ [13] by decide +kernel,
      List.append_assoc _ [34]]
  cases encoding with
  | gsm7 =>
    refine ⟨_, utf8_subset (fun c hc => ?_), hframe _⟩
    have hkept := (List.mem_filter.mp hc).2
    by_cases hdigit : c.isDigit = true
    · exact isDigit_address hdigit
    · obtain rfl : c = '+' := by simpa [hdigit] using hkept
      decide +kernel
  | ucs2 => exact ⟨_, utf8_subset (ucs2HexEncode_address _), hframe _⟩

theorem cmgsLine_plain {encoding : SmsEncoding} {address : List UInt8}
    (h : ∀ b ∈ address, b ∈ utf8 (addressAlphabet encoding)) :
    ∀ b ∈ cmgsLine address, b ≠ 13 ∧ b ≠ 0x1B := by
  have halphabet : ∀ e, ∀ b ∈ utf8 (addressAlphabet e), b ≠ 13 ∧ b ≠ 0x1B := by
    intro e
    cases e <;> decide +kernel
  have hcommand : ∀ b ∈ utf8 "AT+CMGS=\"".toList, b ≠ 13 ∧ b ≠ 0x1B := by decide +kernel
  intro b hb
  rw [cmgsLine, List.mem_append, List.mem_append, List.mem_singleton] at hb
  rcases hb with (hb | hb) | rfl
  · exact hcommand b hb
  · exact halphabet encoding b (h b hb)
  · decide

end Sms
end GreenRelay
