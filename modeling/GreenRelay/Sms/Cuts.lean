/-
The two segmenters are one, and no cut has fewer parts.

The loop for simple ASCII strides over the bytes and knows the number of parts
beforehand; the greedy one measures each character and counts its parts at the
end.  On a text of one-byte characters that cost one septet each they cut at the
same places.  With that, `segmentMessage` is the greedy loop for every body, and
what the greedy cut achieves is a fact about packing.
-/
import GreenRelay.Lib.Packing
import GreenRelay.Sms.Parts

namespace GreenRelay
namespace Sms

open Unicode

/-! ## The strides of the ASCII loop -/

/-- The loop of `segment_simple_ascii_gsm7` with the default of its `get` taken
away: it ends without a result where a range is no slice of the body. -/
def cutSimpleStrict (body : List Char) (len : Nat) :
    Nat → Nat → List Segment → Option (List Segment)
  | 0, _, segments => some segments
  | fuel + 1, start, segments =>
    if start < len then
      let stop := min (start + multiPartMax) len
      (slice body start stop).bind (fun text =>
        cutSimpleStrict body len fuel stop
          (segments ++ [⟨nextSeq segments, String.ofList text⟩]))
    else some segments

theorem cutSimpleStrict_eq {body : List Char} (h : ∀ c ∈ body, c.toNat < 128) :
    ∀ (fuel start : Nat) (segments : List Segment),
      cutSimpleStrict body body.length fuel start segments =
        some (cutSimple body body.length fuel start segments) := by
  intro fuel
  induction fuel with
  | zero => exact fun _ _ => rfl
  | succ fuel ih =>
    intro start segments
    rw [cutSimpleStrict, cutSimple]
    by_cases hlt : start < body.length
    · have hslice := slice_ascii h (Nat.le_min.mpr ⟨Nat.le_add_right start multiPartMax,
        Nat.le_of_lt hlt⟩) (Nat.min_le_right _ _)
      simp only [hlt, if_true, textBetween, hslice, Option.bind_some, Option.getD_some]
      exact ih _ _
    · rw [if_neg hlt, if_neg hlt]

/-! ## The greedy loop on one-byte characters -/

/-- The open part closed at the current offset. -/
def Cursor.closed (body : List Char) (s : Cursor) : Cursor :=
  ⟨s.segments ++ [⟨nextSeq s.segments, textBetween body s.segStart s.idx⟩], s.idx, 0, s.idx⟩

/-- A character that costs one septet and takes one byte. -/
def OneByte (cost : Char → Nat) (c : Char) : Prop := cost c = 1 ∧ c.utf8Size = 1

section
variable {body : List Char} {cost : Char → Nat} {multiMax : Nat}

theorem Cursor.foldl_within : ∀ (text : List Char) (s : Cursor), (∀ c ∈ text, OneByte cost c) →
    s.currentLen + text.length ≤ multiMax →
    text.foldl (Cursor.step body cost multiMax) s =
      ⟨s.segments, s.segStart, s.currentLen + text.length, s.idx + text.length⟩ := by
  intro text
  induction text with
  | nil =>
    intro s _ _
    rfl
  | cons c text ih =>
    intro s hone hroom
    obtain ⟨hcost, hsize⟩ := hone c List.mem_cons_self
    rw [List.length_cons] at hroom ⊢
    have hstep : s.step body cost multiMax c =
        ⟨s.segments, s.segStart, s.currentLen + 1, s.idx + 1⟩ := by
      simp only [Cursor.step, hcost, hsize]
      rw [if_neg (by omega)]
    rw [List.foldl_cons, hstep, ih _ (fun d hd => hone d (List.mem_cons_of_mem c hd))
      (by show s.currentLen + 1 + text.length ≤ multiMax; omega)]
    simp only [Nat.add_assoc, Nat.add_comm 1]

/-- A full part is closed by the character after it. -/
theorem Cursor.foldl_full {text : List Char} (hne : text ≠ []) (hone : ∀ c ∈ text, OneByte cost c)
    (hpos : 0 < multiMax) {s : Cursor} (hfull : s.currentLen = multiMax) :
    text.foldl (Cursor.step body cost multiMax) s =
      text.foldl (Cursor.step body cost multiMax) (s.closed body) := by
  cases text with
  | nil => exact absurd rfl hne
  | cons c text =>
    obtain ⟨hcost, -⟩ := hone c List.mem_cons_self
    have hstep : s.step body cost multiMax c = (s.closed body).step body cost multiMax c := by
      simp only [Cursor.step, Cursor.closed, hcost]
      rw [if_pos (by omega), if_neg (by omega)]
    rw [List.foldl_cons, List.foldl_cons, hstep]

end

/-- One round of the ASCII loop is what the greedy loop does with the next 153
characters; by induction on the rounds. -/
theorem finish_eq_cutSimple {body : List Char} (hascii : ∀ c ∈ body, c.toNat < 128)
    (hone : ∀ c ∈ body, OneByte gsm7Cost c) :
    ∀ (fuel start : Nat) (segments : List Segment), body.length ≤ start + fuel →
      start < body.length →
      ((body.drop start).foldl (Cursor.step body gsm7Cost multiPartMax)
        ⟨segments, start, 0, start⟩).finish body =
          cutSimple body body.length fuel start segments := by
  have hmax : multiPartMax = 153 := rfl
  intro fuel
  induction fuel with
  | zero =>
    intro start segments hfuel hlt
    omega
  | succ fuel ih =>
    intro start segments hfuel hlt
    have hdrop : ∀ c ∈ body.drop start, OneByte gsm7Cost c :=
      fun c hc => hone c (List.mem_of_mem_drop hc)
    rw [cutSimple, if_pos hlt]
    by_cases hlast : body.length ≤ start + multiPartMax
    · have hend : min (start + multiPartMax) body.length = body.length := by omega
      have hroom : 0 + (body.drop start).length ≤ multiPartMax := by
        rw [List.length_drop]
        omega
      rw [hend, Cursor.foldl_within _ _ hdrop hroom, Cursor.finish,
        utf8Length_ascii hascii]
      cases fuel with
      | zero => rfl
      | succ fuel => rw [cutSimple, if_neg (Nat.lt_irrefl _)]
    · have hstop : min (start + multiPartMax) body.length = start + multiPartMax := by omega
      have htake : ((body.drop start).take multiPartMax).length = multiPartMax := by
        rw [List.length_take, List.length_drop]
        omega
      have hrest : (body.drop start).drop multiPartMax = body.drop (start + multiPartMax) :=
        List.drop_drop
      have hne : body.drop (start + multiPartMax) ≠ [] := by
        intro hnil
        have := List.drop_eq_nil_iff.mp hnil
        omega
      have hfirst := @Cursor.foldl_within body gsm7Cost multiPartMax
        ((body.drop start).take multiPartMax) ⟨segments, start, 0, start⟩
        (fun c hc => hdrop c (List.mem_of_mem_take hc))
        (by show 0 + _ ≤ multiPartMax; omega)
      rw [hstop, ← List.take_append_drop multiPartMax (body.drop start), List.foldl_append,
        hfirst, hrest, htake, Cursor.foldl_full hne
          (fun c hc => hone c (List.mem_of_mem_drop hc)) (by omega) (Nat.zero_add _)]
      exact ih (start + multiPartMax) _ (by omega) (by omega)

theorem oneByte_of_simple {body : List Char} (hascii : ∀ c ∈ body, c.toNat < 128)
    (hsimple : ∀ c ∈ body, gsm7Septets c = some 1) {c : Char} (hc : c ∈ body) :
    OneByte gsm7Cost c := by
  constructor
  · rw [gsm7Cost, hsimple c hc]
    rfl
  · rw [← String.length_utf8EncodeChar, utf8EncodeChar_ascii (hascii c hc)]
    rfl

/-- The two segmenters agree wherever the first one is used. -/
theorem segmentSimple_eq_segmentBy {body : String} {len : Nat}
    (h : simpleAsciiGsm7Len body = some len) :
    segmentSimpleAsciiGsm7 body len = segmentBy body gsm7Cost singlePartMax multiPartMax := by
  have hsimple := gsm7Septets_simple h
  obtain ⟨hascii, hlen⟩ := simpleAscii_of_len h
  have hlen : len = body.toList.length := by rw [hlen, utf8_length, utf8Length_ascii hascii]
  have htotal : (body.toList.map gsm7Cost).sum = body.toList.length := costOf_simple hsimple
  simp only [segmentSimpleAsciiGsm7, segmentBy, hlen, htotal]
  by_cases hfits : body.toList.length ≤ singlePartMax
  · rw [if_pos hfits, if_pos hfits]
  · have hsingle : singlePartMax = 160 := rfl
    have hmulti : multiPartMax = 153 := rfl
    have hfinish := finish_eq_cutSimple hascii
      (fun c hc => oneByte_of_simple hascii hsimple hc) body.toList.length 0 []
      (by omega) (by omega)
    have hcut := cutSimple_cut hascii hsimple body.toList.length 0 [] (by omega) SimpleCut.start_nil
    have hstart := hcut.start
    have hcount := hcut.count
    have hrequired : (cutSimple body.toList body.toList.length body.toList.length 0 []).length =
        (body.toList.length + multiPartMax - 1) / multiPartMax := by
      simp only [hmulti] at hstart hcount ⊢
      omega
    rw [List.drop_zero, Cursor.finish] at hfinish
    rw [if_neg hfits, if_neg hfits, Cursor.start, hfinish, hrequired]

/-- On the bodies of the fast path the encoding is GSM-7, the fast path is the
general one, and none of its ranges falls back to the empty text. -/
theorem fast_path_agrees {body : String} {len : Nat} (h : simpleAsciiGsm7Len body = some len) :
    messageEncoding body = .gsm7 ∧
      segmentSimpleAsciiGsm7 body len = segmentBy body gsm7Cost singlePartMax multiPartMax ∧
      cutSimpleStrict body.toList len len 0 [] = some (cutSimple body.toList len len 0 []) := by
  obtain ⟨hascii, hlen⟩ := simpleAscii_of_len h
  have hlen : len = body.toList.length := by rw [hlen, utf8_length, utf8Length_ascii hascii]
  refine ⟨messageEncoding_simple h, segmentSimple_eq_segmentBy h, ?_⟩
  rw [hlen]
  exact cutSimpleStrict_eq hascii _ _ _

/-- A body of two parts on the fast path. -/
def plainLong : String := String.ofList (List.replicate 161 'a')

theorem fast_path_agrees_long : messageEncoding plainLong = .gsm7 ∧
    segmentSimpleAsciiGsm7 plainLong 161
      = segmentBy plainLong gsm7Cost singlePartMax multiPartMax ∧
    cutSimpleStrict plainLong.toList 161 161 0 []
      = some (cutSimple plainLong.toList 161 161 0 []) :=
  fast_path_agrees (by decide +kernel)

/-! ## The fewest parts -/

/-- Every body is cut by the greedy loop, with the costs and budgets of its
encoding. -/
theorem segmentMessage_eq_segmentBy (body : String) :
    segmentMessage body = segmentBy body (charCost (messageEncoding body))
      (singleBudget (messageEncoding body)) (partBudget (messageEncoding body)) := by
  rw [segmentMessage]
  cases hlen : simpleAsciiGsm7Len body with
  | some len =>
    rw [messageEncoding_simple hlen]
    exact segmentSimple_eq_segmentBy hlen
  | none => cases messageEncoding body <;> rfl

def Cursor.level (s : Cursor) : Packing.Level := ⟨s.segments.length, s.currentLen⟩

/-- The greedy loop closes its parts where the greedy cut does. -/
theorem Cursor.level_step (body : List Char) (cost : Char → Nat) (budget : Nat) (s : Cursor)
    (c : Char) : (s.step body cost budget c).level = s.level.step cost budget c := by
  have hfilled : s.level.filled = s.currentLen := rfl
  by_cases hover : budget < s.currentLen + cost c
  · rw [Packing.Level.step, hfilled, if_pos hover, Cursor.step, if_pos hover, Cursor.level,
      List.length_append, List.length_singleton]
    rfl
  · rw [Packing.Level.step, hfilled, if_neg hover, Cursor.step, if_neg hover]
    rfl

theorem Cursor.level_foldl (body : List Char) (cost : Char → Nat) (budget : Nat) :
    ∀ (text : List Char) (s : Cursor), (text.foldl (Cursor.step body cost budget) s).level =
      text.foldl (Packing.Level.step cost budget) s.level := by
  intro text
  induction text with
  | nil => exact fun _ => rfl
  | cons c text ih =>
    intro s
    rw [List.foldl_cons, List.foldl_cons, ih, Cursor.level_step]

/-- The texts of the parts. -/
def texts (segments : List Segment) : List (List Char) := segments.map (fun s => s.text.toList)

theorem texts_flatten (segments : List Segment) : (texts segments).flatten = joined segments := by
  rw [texts, joined, List.flatMap_def]

/-- The parts before the check of their number: a cut, and one with the fewest
pieces. -/
theorem greedy_least {body : String} {cost : Char → Nat} {budget : Nat}
    (hcost : ∀ c ∈ body.toList, cost c ≤ budget) (hne : body.toList ≠ []) :
    IsLeast (Packing.lengths cost budget body.toList)
      ((body.toList.foldl (Cursor.step body.toList cost budget) Cursor.start).finish
        body.toList).length := by
  constructor
  · have hcut := foldl_cut hcost hne
    refine ⟨texts _, ⟨?_, ?_⟩, by rw [texts, List.length_map]⟩
    · rw [texts_flatten]
      exact foldl_joined body.toList cost budget
    · intro piece hpiece
      obtain ⟨seg, hseg, rfl⟩ := List.mem_map.mp hpiece
      exact (hcut.2 seg hseg).2
  · rintro n ⟨pieces, hpieces, rfl⟩
    have hlevel := Cursor.level_foldl body.toList cost budget body.toList Cursor.start
    have hlt := Packing.closed_lt_length hpieces hne
    have hclosed : (body.toList.foldl (Cursor.step body.toList cost budget)
        Cursor.start).segments.length < pieces.length := by
      rw [show Packing.Level.start = Cursor.start.level from rfl, ← hlevel] at hlt
      exact hlt
    rw [Cursor.finish, List.length_append, List.length_singleton]
    exact hclosed

/-- A cut of a body, on character boundaries, into contiguous pieces within the
budget of a part. -/
abbrev BodyCut (body : String) : List (List Char) → Prop :=
  Packing.CutOf (charCost (messageEncoding body)) (partBudget (messageEncoding body)) body.toList

theorem charCost_le (encoding : SmsEncoding) (c : Char) :
    charCost encoding c ≤ partBudget encoding := by
  cases encoding with
  | gsm7 => exact gsm7Cost_le c
  | ucs2 => exact utf16Cost_le c

/-- The two outcomes for a body that is not sent as it is: its parts are as few
as any cut has, and they are refused if they are more than ten. -/
theorem segmentMessage_long {body : String}
    (hlong : singleBudget (messageEncoding body) <
      costOf (charCost (messageEncoding body)) body.toList) :
    ∃ segments : List Segment,
      IsLeast (Packing.lengths (charCost (messageEncoding body))
        (partBudget (messageEncoding body)) body.toList) segments.length ∧
      segmentMessage body =
        if maxParts < segments.length then .error (.tooManyParts segments.length)
        else .ok segments := by
  have hne : body.toList ≠ [] := by
    intro hnil
    rw [hnil] at hlong
    exact absurd hlong (Nat.not_lt_zero _)
  refine ⟨_, greedy_least (fun c _ => charCost_le (messageEncoding body) c) hne, ?_⟩
  have htotal : ¬ (body.toList.map (charCost (messageEncoding body))).sum ≤
      singleBudget (messageEncoding body) := Nat.not_le_of_lt hlong
  rw [segmentMessage_eq_segmentBy, segmentBy, if_neg htotal]
  rfl

theorem segmentMessage_short {body : String}
    (hfits : costOf (charCost (messageEncoding body)) body.toList ≤
      singleBudget (messageEncoding body)) : segmentMessage body = .ok [⟨1, body⟩] := by
  have htotal : (body.toList.map (charCost (messageEncoding body))).sum ≤
      singleBudget (messageEncoding body) := hfits
  rw [segmentMessage_eq_segmentBy, segmentBy, if_pos htotal]

/-- Segmentation fails exactly on the bodies that are over the single budget and
have no cut into ten pieces; the number it reports is the least number of pieces,
and so is the number of parts it makes. -/
theorem segmentMessage_minimal (body : String) :
    ((∃ required, segmentMessage body = .error (.tooManyParts required)) ↔
      singleBudget (messageEncoding body) <
          costOf (charCost (messageEncoding body)) body.toList ∧
        ¬ ∃ pieces, BodyCut body pieces ∧ pieces.length ≤ 10) ∧
    (∀ required, segmentMessage body = .error (.tooManyParts required) →
      (∃ pieces, BodyCut body pieces ∧ pieces.length = required) ∧
        ∀ pieces, BodyCut body pieces → required ≤ pieces.length) ∧
    (∀ segments, segmentMessage body = .ok segments → 1 < segments.length →
      ∀ pieces, BodyCut body pieces → segments.length ≤ pieces.length) := by
  by_cases hlong : singleBudget (messageEncoding body) <
      costOf (charCost (messageEncoding body)) body.toList
  · obtain ⟨parts, ⟨⟨cut, hcut, hlen⟩, hleast⟩, heq⟩ := segmentMessage_long hlong
    have hmin : ∀ pieces, BodyCut body pieces → parts.length ≤ pieces.length :=
      fun pieces h => hleast ⟨pieces, h, rfl⟩
    by_cases hmany : maxParts < parts.length
    · rw [if_pos hmany] at heq
      refine ⟨⟨fun _ => ⟨hlong, ?_⟩, fun _ => ⟨_, heq⟩⟩, ?_, ?_⟩
      · rintro ⟨pieces, hpieces, hten⟩
        exact absurd (Nat.le_trans (hmin pieces hpieces) hten) (Nat.not_le_of_lt hmany)
      · intro required hrequired
        rw [heq] at hrequired
        cases hrequired
        exact ⟨⟨cut, hcut, hlen⟩, hmin⟩
      · intro segments hok
        rw [heq] at hok
        cases hok
    · rw [if_neg hmany] at heq
      refine ⟨⟨?_, ?_⟩, ?_, ?_⟩
      · rintro ⟨required, hrequired⟩
        rw [heq] at hrequired
        cases hrequired
      · rintro ⟨-, hnone⟩
        exact absurd ⟨cut, hcut, hlen ▸ Nat.le_of_not_lt hmany⟩ hnone
      · intro required hrequired
        rw [heq] at hrequired
        cases hrequired
      · intro segments hok _
        rw [heq] at hok
        cases hok
        exact hmin
  · have heq := segmentMessage_short (Nat.le_of_not_lt hlong)
    refine ⟨⟨?_, fun h => absurd h.1 hlong⟩, ?_, ?_⟩
    · rintro ⟨required, hrequired⟩
      rw [heq] at hrequired
      cases hrequired
    · intro required hrequired
      rw [heq] at hrequired
      cases hrequired
    · intro segments hok hmany
      rw [heq] at hok
      cases hok
      exact absurd hmany (Nat.lt_irrefl 1)

end Sms
end GreenRelay
