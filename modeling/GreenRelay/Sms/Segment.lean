/-
Segmentation of a body into parts.

Both segmenters keep byte offsets into the body and cut their parts out with
`str::get`, whose `None` is turned into the empty text.  The main result is that
this never happens: the parts of an accepted body, put together, are the body.
-/
import GreenRelay.Sms.Encoding

namespace GreenRelay
namespace Sms

open Unicode

def singlePartMax : Nat := 160

def multiPartMax : Nat := 153

def ucs2SingleMax : Nat := 70

def ucs2MultiMax : Nat := 67

def maxParts : Nat := 10

structure Segment where
  seq : Nat
  text : String
  deriving DecidableEq, Repr

inductive SegmentError where
  | tooManyParts (required : Nat)
  deriving DecidableEq, Repr

def SegmentError.message : SegmentError → String
  | .tooManyParts required =>
    "message requires " ++ toString required ++ " parts which exceeds the maximum of 10"

/-- `body.get(start..stop).unwrap_or_default()`. -/
def textBetween (body : List Char) (start stop : Nat) : String :=
  String.ofList ((slice body start stop).getD [])

/-- The sequence number of the next part: `segments.len() + 1` as a `u8`. -/
def nextSeq (segments : List Segment) : Nat := (segments.length + 1) % 256

def simpleAsciiGsm7Len (s : String) : Option Nat :=
  let bytes := utf8 s.toList
  if bytes.all (fun b => b == 10 || b == 13 || b == 64 || b == 95 || (32 ≤ b && b ≤ 63) ||
      (65 ≤ b && b ≤ 90) || (97 ≤ b && b ≤ 122)) then
    some bytes.length
  else none

/-- The loop of `segment_simple_ascii_gsm7`; `fuel` bounds its rounds. -/
def cutSimple (body : List Char) (len : Nat) : Nat → Nat → List Segment → List Segment
  | 0, _, segments => segments
  | fuel + 1, start, segments =>
    if start < len then
      let stop := min (start + multiPartMax) len
      cutSimple body len fuel stop
        (segments ++ [⟨nextSeq segments, textBetween body start stop⟩])
    else segments

def segmentSimpleAsciiGsm7 (body : String) (len : Nat) : Except SegmentError (List Segment) :=
  if len ≤ singlePartMax then .ok [⟨1, body⟩]
  else
    let required := (len + multiPartMax - 1) / multiPartMax
    if maxParts < required then .error (.tooManyParts required)
    else .ok (cutSimple body.toList len len 0 [])

/-- The state of the loop of `segment_by` before the character at byte `idx`. -/
structure Cursor where
  segments : List Segment
  segStart : Nat
  currentLen : Nat
  idx : Nat

def Cursor.start : Cursor := ⟨[], 0, 0, 0⟩

def Cursor.step (body : List Char) (cost : Char → Nat) (multiMax : Nat) (s : Cursor) (c : Char) :
    Cursor :=
  let clen := cost c
  let next := s.idx + c.utf8Size
  if multiMax < s.currentLen + clen then
    ⟨s.segments ++ [⟨nextSeq s.segments, textBetween body s.segStart s.idx⟩], s.idx, clen, next⟩
  else ⟨s.segments, s.segStart, s.currentLen + clen, next⟩

def segmentBy (body : String) (cost : Char → Nat) (singleMax multiMax : Nat) :
    Except SegmentError (List Segment) :=
  let cs := body.toList
  if (cs.map cost).sum ≤ singleMax then .ok [⟨1, body⟩]
  else
    let s := cs.foldl (Cursor.step cs cost multiMax) Cursor.start
    let segments := s.segments ++
      [⟨nextSeq s.segments, textBetween cs s.segStart (utf8Length cs)⟩]
    if maxParts < segments.length then .error (.tooManyParts segments.length)
    else .ok segments

def gsm7Cost (c : Char) : Nat := (gsm7Septets c).getD 1

def utf16Cost (c : Char) : Nat := (units c).length

def segmentMessage (body : String) : Except SegmentError (List Segment) :=
  match simpleAsciiGsm7Len body with
  | some len => segmentSimpleAsciiGsm7 body len
  | none =>
    match messageEncoding body with
    | .gsm7 => segmentBy body gsm7Cost singlePartMax multiPartMax
    | .ucs2 => segmentBy body utf16Cost ucs2SingleMax ucs2MultiMax

/-! ## The parts put together -/

def joined (segments : List Segment) : List Char := segments.flatMap (fun s => s.text.toList)

theorem joined_append (a b : List Segment) : joined (a ++ b) = joined a ++ joined b :=
  List.flatMap_append

theorem joined_singleton (n : Nat) (t : String) : joined [⟨n, t⟩] = t.toList := by
  simp [joined]

/-- A cut between character boundaries is the text between them. -/
theorem textBetween_append (s t u : List Char) :
    (textBetween (s ++ t ++ u) (utf8Length s) (utf8Length s + utf8Length t)).toList = t := by
  rw [textBetween, slice_append, Option.getD_some, String.toList_ofList]

/-- The parts cut so far and the open part make up the characters read so far,
and the two offsets are the boundaries of the open part. -/
structure Cursor.Inv (s : Cursor) (read : List Char) : Prop where
  start : s.segStart = utf8Length (joined s.segments)
  cover : ∃ current, read = joined s.segments ++ current
  idx : s.idx = utf8Length read

theorem Cursor.step_inv {body read rest : List Char} {c : Char} {cost : Char → Nat}
    {multiMax : Nat} {s : Cursor} (hbody : body = read ++ c :: rest) (h : s.Inv read) :
    (s.step body cost multiMax c).Inv (read ++ [c]) := by
  obtain ⟨hstart, ⟨current, hcover⟩, hidx⟩ := h
  have hnext : s.idx + c.utf8Size = utf8Length (read ++ [c]) := by
    rw [utf8Length_append, hidx]
    simp [utf8Length]
  simp only [Cursor.step]
  split
  · have hcut : (textBetween body s.segStart s.idx).toList = current := by
      rw [hbody, hstart, hidx, hcover, utf8Length_append]
      exact textBetween_append _ _ _
    have hjoin : joined (s.segments ++
        [⟨nextSeq s.segments, textBetween body s.segStart s.idx⟩]) = read := by
      rw [joined_append, joined_singleton, hcut, hcover]
    exact ⟨by rw [hjoin]; exact hidx, ⟨[c], by rw [hjoin]⟩, hnext⟩
  · exact ⟨hstart, ⟨current ++ [c], by rw [hcover, List.append_assoc]⟩, hnext⟩

theorem Cursor.foldl_inv {body : List Char} {cost : Char → Nat} {multiMax : Nat} :
    ∀ (rest read : List Char) (s : Cursor), body = read ++ rest → s.Inv read →
      (rest.foldl (Cursor.step body cost multiMax) s).Inv body := by
  intro rest
  induction rest with
  | nil =>
    intro read s hbody h
    rw [hbody, List.append_nil]
    exact h
  | cons c rest ih =>
    intro read s hbody h
    exact ih (read ++ [c]) _ (by rw [hbody, List.append_assoc]; rfl) (Cursor.step_inv hbody h)

/-- What `segment_by` makes of the state after its loop. -/
def Cursor.finish (body : List Char) (s : Cursor) : List Segment :=
  s.segments ++ [⟨nextSeq s.segments, textBetween body s.segStart (utf8Length body)⟩]

/-- After the whole body the range of the open part is that part. -/
theorem Cursor.Inv.last {s : Cursor} {body current : List Char} (h : s.Inv body)
    (hcover : body = joined s.segments ++ current) :
    (textBetween body s.segStart (utf8Length body)).toList = current := by
  have hcut := textBetween_append (joined s.segments) current []
  rwa [List.append_nil, ← hcover, ← utf8Length_append, ← hcover, ← h.start] at hcut

theorem foldl_joined (body : List Char) (cost : Char → Nat) (multiMax : Nat) :
    joined ((body.foldl (Cursor.step body cost multiMax) Cursor.start).finish body) = body := by
  have hinv := @Cursor.foldl_inv body cost multiMax body [] Cursor.start rfl
    ⟨rfl, ⟨[], rfl⟩, rfl⟩
  obtain ⟨current, hcover⟩ := hinv.cover
  rw [Cursor.finish, joined_append, joined_singleton, hinv.last hcover, ← hcover]

theorem segmentBy_joined {body : String} {cost : Char → Nat} {singleMax multiMax : Nat}
    {segments : List Segment} (h : segmentBy body cost singleMax multiMax = .ok segments) :
    joined segments = body.toList := by
  simp only [segmentBy] at h
  split at h
  · cases h
    exact joined_singleton 1 body
  · split at h
    · cases h
    · cases h
      exact foldl_joined body.toList cost multiMax

/-! ## The ASCII path -/

theorem simpleAscii_of_len {s : String} {len : Nat} (h : simpleAsciiGsm7Len s = some len) :
    (∀ c ∈ s.toList, c.toNat < 128) ∧ len = (utf8 s.toList).length := by
  simp only [simpleAsciiGsm7Len] at h
  split at h
  · next hall =>
    refine ⟨fun c hc => ?_, by simpa using h.symm⟩
    rcases Nat.lt_or_ge c.toNat 128 with hlt | hge
    · exact hlt
    · obtain ⟨b, hb⟩ : ∃ b, b ∈ String.utf8EncodeChar c :=
        List.exists_mem_of_ne_nil _ String.utf8EncodeChar_ne_nil
      have hhigh := utf8EncodeChar_high hge b hb
      have hlow := List.all_eq_true.mp hall b (List.mem_flatMap.mpr ⟨c, hc, hb⟩)
      have hle : b ≤ 127 := by
        simp only [Bool.or_eq_true, Bool.and_eq_true, beq_iff_eq, decide_eq_true_eq] at hlow
        rcases hlow with ((((((rfl | rfl) | rfl) | rfl) | h) | h) | h)
        · decide
        · decide
        · decide
        · decide
        · exact Nat.le_trans (UInt8.le_iff_toNat_le.mp h.2) (by decide)
        · exact Nat.le_trans (UInt8.le_iff_toNat_le.mp h.2) (by decide)
        · exact Nat.le_trans (UInt8.le_iff_toNat_le.mp h.2) (by decide)
      have := UInt8.le_iff_toNat_le.mp hle
      simp at this
      omega
  · exact absurd h (by simp)

theorem utf8Length_ascii {s : List Char} (h : ∀ c ∈ s, c.toNat < 128) :
    utf8Length s = s.length := by
  induction s with
  | nil => rfl
  | cons c s ih =>
    have hc : c.toNat < 128 := h c List.mem_cons_self
    have hsize : c.utf8Size = 1 := by
      rw [← String.length_utf8EncodeChar, utf8EncodeChar_ascii hc]
      rfl
    rw [utf8Length_cons, hsize, ih (fun d hd => h d (List.mem_cons_of_mem c hd)),
      List.length_cons]
    omega

theorem utf8_length (s : List Char) : (utf8 s).length = utf8Length s := by
  induction s with
  | nil => rfl
  | cons c s ih => rw [utf8_cons, List.length_append, ih, utf8Length_cons,
      String.length_utf8EncodeChar]

theorem slice_ascii {body : List Char} (h : ∀ c ∈ body, c.toNat < 128) {start stop : Nat}
    (hle : start ≤ stop) (hstop : stop ≤ body.length) :
    slice body start stop = some ((body.drop start).take (stop - start)) := by
  have hsplit : body.take start ++ (body.drop start).take (stop - start)
      ++ (body.drop start).drop (stop - start) = body := by
    rw [List.append_assoc, List.take_append_drop, List.take_append_drop]
  have hfirst : utf8Length (body.take start) = start := by
    rw [utf8Length_ascii (fun c hc => h c (List.mem_of_mem_take hc)), List.length_take]
    omega
  have hnext : utf8Length ((body.drop start).take (stop - start)) = stop - start := by
    rw [utf8Length_ascii
      (fun c hc => h c (List.mem_of_mem_drop (List.mem_of_mem_take hc))), List.length_take,
      List.length_drop]
    omega
  have hcut := slice_append (body.take start) ((body.drop start).take (stop - start))
    ((body.drop start).drop (stop - start))
  rwa [hsplit, hfirst, hnext, Nat.add_sub_cancel' hle] at hcut

/-- One round of the ASCII loop cuts the next `stop - start` characters. -/
theorem textBetween_ascii {body : List Char} (h : ∀ c ∈ body, c.toNat < 128) {start stop : Nat}
    (hle : start ≤ stop) (hstop : stop ≤ body.length) :
    (textBetween body start stop).toList = (body.drop start).take (stop - start) := by
  rw [textBetween, slice_ascii h hle hstop, Option.getD_some, String.toList_ofList]

theorem cutSimple_joined {body : List Char} (h : ∀ c ∈ body, c.toNat < 128) :
    ∀ (fuel start : Nat) (segments : List Segment), body.length ≤ start + fuel →
      start ≤ body.length → joined segments = body.take start →
      joined (cutSimple body body.length fuel start segments) = body := by
  intro fuel
  induction fuel with
  | zero =>
    intro start segments hfuel hstart hjoin
    rw [cutSimple, hjoin, List.take_of_length_le (by omega)]
  | succ fuel ih =>
    intro start segments hfuel hstart hjoin
    rw [cutSimple]
    split
    · next hlt =>
      have hmax : 0 < multiPartMax := by decide
      refine ih _ _ (by omega) (by omega) ?_
      rw [joined_append, joined_singleton, hjoin,
        textBetween_ascii h (by omega) (by omega)]
      have hlen : start ≤ min (start + multiPartMax) body.length := by omega
      rw [show body.take (min (start + multiPartMax) body.length)
          = body.take (start + (min (start + multiPartMax) body.length - start)) by
            congr 1; omega, List.take_add]
    · rw [hjoin, List.take_of_length_le (by omega)]

theorem segmentSimple_joined {body : String} {len : Nat} {segments : List Segment}
    (hlen : simpleAsciiGsm7Len body = some len)
    (h : segmentSimpleAsciiGsm7 body len = .ok segments) : joined segments = body.toList := by
  obtain ⟨hascii, hlen⟩ := simpleAscii_of_len hlen
  have hlen : len = body.toList.length := by rw [hlen, utf8_length, utf8Length_ascii hascii]
  subst hlen
  simp only [segmentSimpleAsciiGsm7] at h
  split at h
  · cases h
    exact joined_singleton 1 body
  · split at h
    · cases h
    · cases h
      exact cutSimple_joined hascii _ 0 [] (by omega) (Nat.zero_le _) (by simp [joined])

/-- The parts of an accepted body, put together, are the body. -/
theorem segmentMessage_joined {body : String} {segments : List Segment}
    (h : segmentMessage body = .ok segments) : joined segments = body.toList := by
  simp only [segmentMessage] at h
  split at h
  · next hlen => exact segmentSimple_joined hlen h
  · split at h
    · exact segmentBy_joined h
    · exact segmentBy_joined h

/-- A character of a part is a character of the body. -/
theorem mem_body_of_mem_segment {body : String} {segments : List Segment}
    (h : segmentMessage body = .ok segments) {seg : Segment} (hseg : seg ∈ segments) {c : Char}
    (hc : c ∈ seg.text.toList) : c ∈ body.toList := by
  rw [← segmentMessage_joined h]
  exact List.mem_flatMap.mpr ⟨seg, hseg, hc⟩

/-- A body of two parts in UCS2. -/
def cyrillicLong : String := String.ofList (List.replicate 80 'я')

def cyrillicParts : List Segment :=
  [⟨1, String.ofList (List.replicate 67 'я')⟩, ⟨2, String.ofList (List.replicate 13 'я')⟩]

theorem segmentMessage_cyrillicLong : segmentMessage cyrillicLong = .ok cyrillicParts := by
  decide +kernel

end Sms
end GreenRelay
