/-
The parts of an accepted body.

The segmenter has two loops, a greedy one that counts what each character costs
and one for simple ASCII that cuts every 153 bytes.  Both keep the parts they
have cut numbered, not empty and within the budget of a part, and the greedy one
also keeps the count of the open part.  `segmentMessage_sound` reads off what a
sender can rely on.
-/
import GreenRelay.Sms.Segment

namespace GreenRelay
namespace Sms

open Unicode

/-- What a character costs on the air: septets, or UTF-16 code units. -/
def charCost : SmsEncoding → Char → Nat
  | .gsm7 => gsm7Cost
  | .ucs2 => utf16Cost

def costOf (cost : Char → Nat) (s : List Char) : Nat := (s.map cost).sum

def singleBudget : SmsEncoding → Nat
  | .gsm7 => 160
  | .ucs2 => 70

def partBudget : SmsEncoding → Nat
  | .gsm7 => 153
  | .ucs2 => 67

/-- The parts of a body, measured in the encoding that is selected for it. -/
structure SoundParts (body : String) (segments : List Segment) : Prop where
  count : 1 ≤ segments.length ∧ segments.length ≤ 10
  seq : ∀ i seg, segments[i]? = some seg → seg.seq = i + 1
  whole : joined segments = body.toList
  boundary : ∀ i, (dropBytes body.toList (utf8Length (joined (segments.take i)))).isSome
  nonempty : 1 < segments.length → ∀ seg ∈ segments, seg.text ≠ ""
  several : 1 < segments.length → ∀ seg ∈ segments,
    costOf (charCost (messageEncoding body)) seg.text.toList ≤ partBudget (messageEncoding body)
  single : segments.length = 1 → ∀ seg ∈ segments,
    costOf (charCost (messageEncoding body)) seg.text.toList ≤ singleBudget (messageEncoding body)
  fits :
      costOf (charCost (messageEncoding body)) body.toList ≤ singleBudget (messageEncoding body) →
    segments.length = 1

theorem costOf_append (cost : Char → Nat) (s t : List Char) :
    costOf cost (s ++ t) = costOf cost s + costOf cost t := by
  simp [costOf]

/-! ## Numbers and sizes of the parts -/

def Numbered (segments : List Segment) : Prop :=
  ∀ i seg, segments[i]? = some seg → seg.seq = (i + 1) % 256

/-- Parts that are not empty and within a budget. -/
def Sized (cost : Char → Nat) (budget : Nat) (segments : List Segment) : Prop :=
  ∀ seg ∈ segments, seg.text.toList ≠ [] ∧ costOf cost seg.text.toList ≤ budget

theorem Numbered.nil : Numbered [] := by
  intro i seg h
  cases h

theorem Numbered.push {segments : List Segment} (h : Numbered segments) (text : String) :
    Numbered (segments ++ [⟨nextSeq segments, text⟩]) := by
  intro i seg hi
  rcases Nat.lt_or_ge i segments.length with hlt | hge
  · rw [List.getElem?_append_left hlt] at hi
    exact h i seg hi
  · rw [List.getElem?_append_right hge] at hi
    cases hk : i - segments.length with
    | zero =>
      rw [hk] at hi
      have hi' : i = segments.length := by omega
      rw [← Option.some.inj hi, nextSeq, hi']
    | succ k =>
      rw [hk] at hi
      cases hi

theorem Sized.push {cost : Char → Nat} {budget : Nat} {segments : List Segment}
    (h : Sized cost budget segments) {seq : Nat} {text : String} (hne : text.toList ≠ [])
    (hcost : costOf cost text.toList ≤ budget) : Sized cost budget (segments ++ [⟨seq, text⟩]) := by
  intro seg hseg
  rcases List.mem_append.mp hseg with hseg | hseg
  · exact h seg hseg
  · rw [List.mem_singleton.mp hseg]
    exact ⟨hne, hcost⟩

/-! ## The greedy loop -/

/-- What the greedy loop has cut and counted after reading some characters. -/
structure Cursor.Counts (cost : Char → Nat) (budget : Nat) (s : Cursor) (read : List Char) :
    Prop where
  numbered : Numbered s.segments
  sized : Sized cost budget s.segments
  current : ∀ current, read = joined s.segments ++ current →
    costOf cost current = s.currentLen ∧ (read ≠ [] → current ≠ [])
  within : s.currentLen ≤ budget

theorem Cursor.step_counts {body read rest : List Char} {c : Char} {cost : Char → Nat}
    {budget : Nat} {s : Cursor} (hbody : body = read ++ c :: rest) (hc : cost c ≤ budget)
    (hinv : s.Inv read) (h : s.Counts cost budget read) :
    (s.step body cost budget c).Counts cost budget (read ++ [c]) := by
  obtain ⟨hstart, ⟨current, hcover⟩, hidx⟩ := hinv
  obtain ⟨hcount, -⟩ := h.current current hcover
  simp only [Cursor.step]
  split
  · next hover =>
    have hcut : (textBetween body s.segStart s.idx).toList = current := by
      rw [hbody, hstart, hidx, hcover, utf8Length_append]
      exact textBetween_append _ _ _
    have hne : current ≠ [] := by
      rintro rfl
      have hzero : s.currentLen = 0 := hcount.symm
      omega
    have hjoin : joined (s.segments ++
        [⟨nextSeq s.segments, textBetween body s.segStart s.idx⟩]) = read := by
      rw [joined_append, joined_singleton, hcut, hcover]
    refine ⟨h.numbered.push _, h.sized.push (by rw [hcut]; exact hne) ?_, ?_, hc⟩
    · rw [hcut, hcount]
      exact h.within
    · intro current' hread
      rw [hjoin] at hread
      have hnew : current' = [c] := (List.append_cancel_left hread).symm
      rw [hnew]
      exact ⟨by simp [costOf], fun _ => List.cons_ne_nil c []⟩
  · next hunder =>
    refine ⟨h.numbered, h.sized, ?_, Nat.le_of_not_lt hunder⟩
    intro current' hread
    have hnew : current' = current ++ [c] := by
      rw [hcover, List.append_assoc] at hread
      exact (List.append_cancel_left hread).symm
    rw [hnew, costOf_append, hcount]
    exact ⟨by simp [costOf], fun _ => by simp⟩

theorem Cursor.foldl_counts {body : List Char} {cost : Char → Nat} {budget : Nat}
    (hcost : ∀ c ∈ body, cost c ≤ budget) :
    ∀ (rest read : List Char) (s : Cursor), body = read ++ rest → s.Inv read →
      s.Counts cost budget read →
      (rest.foldl (Cursor.step body cost budget) s).Counts cost budget body := by
  intro rest
  induction rest with
  | nil =>
    intro read s hbody _ h
    rw [hbody, List.append_nil]
    exact h
  | cons c rest ih =>
    intro read s hbody hinv h
    have hc : cost c ≤ budget := hcost c (by rw [hbody]; simp)
    exact ih (read ++ [c]) _ (by rw [hbody, List.append_assoc]; rfl)
      (Cursor.step_inv hbody hinv) (Cursor.step_counts hbody hc hinv h)

theorem Cursor.start_counts (cost : Char → Nat) (budget : Nat) :
    Cursor.start.Counts cost budget [] where
  numbered := Numbered.nil
  sized := by
    intro seg hseg
    cases hseg
  current := by
    intro current h
    have : current = [] := h.symm
    subst this
    exact ⟨rfl, fun hne => absurd rfl hne⟩
  within := Nat.zero_le _

/-- What the two segmenters promise of a body that is not sent as it is. -/
structure Cut (cost : Char → Nat) (budget : Nat) (segments : List Segment) : Prop where
  count : 1 ≤ segments.length ∧ segments.length ≤ maxParts
  numbered : Numbered segments
  sized : Sized cost budget segments

/-- The parts of a text that is not empty, before the check of their number. -/
theorem foldl_cut {body : List Char} {cost : Char → Nat} {budget : Nat}
    (hcost : ∀ c ∈ body, cost c ≤ budget) (hbody : body ≠ []) :
    let segments := (body.foldl (Cursor.step body cost budget) Cursor.start).finish body
    Numbered segments ∧ Sized cost budget segments := by
  have hinv := @Cursor.foldl_inv body cost budget body [] Cursor.start rfl
    ⟨rfl, ⟨[], rfl⟩, rfl⟩
  have hcounts := Cursor.foldl_counts hcost body [] Cursor.start rfl
    ⟨rfl, ⟨[], rfl⟩, rfl⟩ (Cursor.start_counts cost budget)
  obtain ⟨current, hcover⟩ := hinv.cover
  have hlast := hinv.last hcover
  obtain ⟨hcount, hne⟩ := hcounts.current current hcover
  refine ⟨hcounts.numbered.push _, hcounts.sized.push ?_ ?_⟩
  · rw [hlast]
    exact hne hbody
  · rw [hlast, hcount]
    exact hcounts.within

theorem segmentBy_cut {body : String} {cost : Char → Nat} {single budget : Nat}
    (hcost : ∀ c ∈ body.toList, cost c ≤ budget) {segments : List Segment}
    (h : segmentBy body cost single budget = .ok segments) :
    (costOf cost body.toList ≤ single ∧ segments = [⟨1, body⟩]) ∨
      (single < costOf cost body.toList ∧ Cut cost budget segments) := by
  simp only [segmentBy] at h
  split at h
  · next hfits =>
    cases h
    exact Or.inl ⟨hfits, rfl⟩
  · next hlong =>
    split at h
    · cases h
    · next hmax =>
      cases h
      refine Or.inr ⟨Nat.lt_of_not_le hlong, ?_⟩
      have hbody : body.toList ≠ [] := by
        intro hnil
        rw [hnil] at hlong
        exact hlong (Nat.zero_le _)
      obtain ⟨hnumbered, hsized⟩ := foldl_cut hcost hbody
      exact ⟨⟨by simp, by omega⟩, hnumbered, hsized⟩

/-! ## The loop for simple ASCII -/

/-- An ASCII character that the fast path accepts is one septet of the basic table. -/
theorem gsm7Septets_simple {s : String} {len : Nat} (h : simpleAsciiGsm7Len s = some len) :
    ∀ c ∈ s.toList, gsm7Septets c = some 1 := by
  intro c hc
  have hlow := (simpleAscii_of_len h).1 c hc
  have hbyte : UInt8.ofNat c.toNat ∈ utf8 s.toList := by
    refine List.mem_flatMap.mpr ⟨c, hc, ?_⟩
    rw [utf8EncodeChar_ascii hlow]
    exact List.mem_singleton_self _
  simp only [simpleAsciiGsm7Len] at h
  split at h
  · next hall =>
    have hb := List.all_eq_true.mp hall _ hbyte
    have htable : ∀ n : Fin 128, (UInt8.ofNat n.val == 10 || UInt8.ofNat n.val == 13 ||
        UInt8.ofNat n.val == 64 || UInt8.ofNat n.val == 95 ||
        (32 ≤ UInt8.ofNat n.val && UInt8.ofNat n.val ≤ 63) ||
        (65 ≤ UInt8.ofNat n.val && UInt8.ofNat n.val ≤ 90) ||
        (97 ≤ UInt8.ofNat n.val && UInt8.ofNat n.val ≤ 122)) = true →
        gsm7Septets (Char.ofNat n.val) = some 1 := by decide +kernel
    have hsept := htable ⟨c.toNat, hlow⟩ hb
    rwa [Char.ofNat_toNat] at hsept
  · cases h

theorem costOf_simple {s : List Char} (h : ∀ c ∈ s, gsm7Septets c = some 1) :
    costOf gsm7Cost s = s.length := by
  induction s with
  | nil => rfl
  | cons c s ih =>
    have hc : gsm7Cost c = 1 := by rw [gsm7Cost, h c List.mem_cons_self]; rfl
    have hs := ih (fun d hd => h d (List.mem_cons_of_mem c hd))
    show gsm7Cost c + costOf gsm7Cost s = s.length + 1
    omega

/-- The loop for simple ASCII has cut `start` bytes into parts of 153. -/
structure SimpleCut (body : List Char) (start : Nat) (segments : List Segment) : Prop where
  start : start = min (multiPartMax * segments.length) body.length
  count : multiPartMax * segments.length < body.length + multiPartMax
  numbered : Numbered segments
  sized : Sized gsm7Cost multiPartMax segments

theorem SimpleCut.start_nil {body : List Char} : SimpleCut body 0 [] where
  start := by simp
  count := by simp [multiPartMax]
  numbered := Numbered.nil
  sized := by
    intro seg hseg
    cases hseg

theorem SimpleCut.step {body : List Char} (hascii : ∀ c ∈ body, c.toNat < 128)
    (hsimple : ∀ c ∈ body, gsm7Septets c = some 1) {start : Nat} {segments : List Segment}
    (h : SimpleCut body start segments) (hlt : start < body.length) :
    SimpleCut body (min (start + multiPartMax) body.length)
      (segments ++ [⟨nextSeq segments,
        textBetween body start (min (start + multiPartMax) body.length)⟩]) := by
  have hmax : multiPartMax = 153 := rfl
  have hstart := h.start
  have hle : start ≤ min (start + multiPartMax) body.length := by omega
  have htext := textBetween_ascii hascii hle (Nat.min_le_right _ _)
  have hlen : (textBetween body start (min (start + multiPartMax) body.length)).toList.length =
      min (start + multiPartMax) body.length - start := by
    rw [htext, List.length_take, List.length_drop]
    omega
  refine ⟨?_, ?_, h.numbered.push _, h.sized.push ?_ ?_⟩
  · rw [List.length_append, List.length_singleton]
    simp only [multiPartMax] at hstart ⊢
    omega
  · rw [List.length_append, List.length_singleton]
    simp only [multiPartMax] at hstart ⊢
    omega
  · intro hnil
    rw [hnil, List.length_nil] at hlen
    omega
  · rw [costOf_simple]
    · omega
    · intro c hc
      rw [htext] at hc
      exact hsimple c (List.mem_of_mem_drop (List.mem_of_mem_take hc))

theorem cutSimple_cut {body : List Char} (hascii : ∀ c ∈ body, c.toNat < 128)
    (hsimple : ∀ c ∈ body, gsm7Septets c = some 1) :
    ∀ (fuel start : Nat) (segments : List Segment), body.length ≤ start + fuel →
      SimpleCut body start segments →
      SimpleCut body body.length (cutSimple body body.length fuel start segments) := by
  intro fuel
  induction fuel with
  | zero =>
    intro start segments hfuel h
    have hend : start = body.length := by
      have := h.start
      omega
    rw [cutSimple, ← hend]
    exact h
  | succ fuel ih =>
    intro start segments hfuel h
    rw [cutSimple]
    split
    · next hlt =>
      have hmax : multiPartMax = 153 := rfl
      exact ih _ _ (by omega) (h.step hascii hsimple hlt)
    · next hge =>
      have hend : start = body.length := by
        have := h.start
        omega
      rw [← hend]
      exact h

theorem segmentSimple_cut {body : String} {len : Nat} {segments : List Segment}
    (hlen : simpleAsciiGsm7Len body = some len)
    (h : segmentSimpleAsciiGsm7 body len = .ok segments) :
    (costOf gsm7Cost body.toList ≤ singlePartMax ∧ segments = [⟨1, body⟩]) ∨
      (singlePartMax < costOf gsm7Cost body.toList ∧ Cut gsm7Cost multiPartMax segments) := by
  have hsimple := gsm7Septets_simple hlen
  obtain ⟨hascii, hlen⟩ := simpleAscii_of_len hlen
  have hlen : len = body.toList.length := by rw [hlen, utf8_length, utf8Length_ascii hascii]
  rw [costOf_simple hsimple]
  subst hlen
  simp only [segmentSimpleAsciiGsm7] at h
  split at h
  · next hfits =>
    cases h
    exact Or.inl ⟨hfits, rfl⟩
  · next hlong =>
    split at h
    · cases h
    · next hmax =>
      cases h
      have hpart : multiPartMax = 153 := rfl
      have hcut := cutSimple_cut hascii hsimple body.toList.length 0 [] (by omega)
        SimpleCut.start_nil
      have hstart := hcut.start
      have hcount := hcut.count
      simp only [multiPartMax, maxParts, singlePartMax] at hstart hcount hmax hlong
      exact Or.inr ⟨Nat.lt_of_not_le hlong, ⟨by omega, by rw [maxParts]; omega⟩,
        hcut.numbered, hcut.sized⟩

/-! ## The parts of a message -/

theorem gsm7Cost_le (c : Char) : gsm7Cost c ≤ multiPartMax := by
  have hmax : multiPartMax = 153 := rfl
  unfold gsm7Cost gsm7Septets
  split
  · simp [hmax]
  · split <;> simp [hmax]

theorem utf16Cost_le (c : Char) : utf16Cost c ≤ ucs2MultiMax := by
  have hmax : ucs2MultiMax = 67 := rfl
  unfold utf16Cost units
  split <;> simp [hmax]

theorem messageEncoding_simple {body : String} {len : Nat}
    (h : simpleAsciiGsm7Len body = some len) : messageEncoding body = .gsm7 :=
  messageEncoding_gsm7.mpr (isGsm7_iff.mpr (fun c hc => by
    rw [gsm7Septets_simple h c hc]
    rfl))

/-- A body goes out whole if it fits a single part, and cut up otherwise. -/
theorem segmentMessage_cut {body : String} {segments : List Segment}
    (h : segmentMessage body = .ok segments) :
    let cost := charCost (messageEncoding body)
    (costOf cost body.toList ≤ singleBudget (messageEncoding body) ∧ segments = [⟨1, body⟩]) ∨
      (singleBudget (messageEncoding body) < costOf cost body.toList ∧
        Cut cost (partBudget (messageEncoding body)) segments) := by
  simp only [segmentMessage] at h
  split at h
  · next len hlen =>
    rw [messageEncoding_simple hlen]
    exact segmentSimple_cut hlen h
  · cases henc : messageEncoding body with
    | gsm7 =>
      rw [henc] at h
      exact segmentBy_cut (fun c _ => gsm7Cost_le c) h
    | ucs2 =>
      rw [henc] at h
      exact segmentBy_cut (fun c _ => utf16Cost_le c) h

theorem segmentMessage_count {body : String} {segments : List Segment}
    (h : segmentMessage body = .ok segments) : 1 ≤ segments.length ∧ segments.length ≤ 10 := by
  rcases segmentMessage_cut h with ⟨-, rfl⟩ | ⟨-, hcut⟩
  · simp
  · exact hcut.count

theorem joined_take_drop (segments : List Segment) (i : Nat) :
    joined segments = joined (segments.take i) ++ joined (segments.drop i) := by
  rw [← joined_append, List.take_append_drop]

theorem segmentMessage_sound {body : String} {segments : List Segment}
    (h : segmentMessage body = .ok segments) : SoundParts body segments := by
  have hwhole := segmentMessage_joined h
  have hcount := segmentMessage_count h
  have hboundary : ∀ i,
      (dropBytes body.toList (utf8Length (joined (segments.take i)))).isSome := by
    intro i
    rw [← hwhole, joined_take_drop segments i, dropBytes_append]
    rfl
  have hparts : partBudget (messageEncoding body) ≤ singleBudget (messageEncoding body) := by
    cases messageEncoding body <;> decide
  rcases segmentMessage_cut h with ⟨hfits, rfl⟩ | ⟨hlong, hcut⟩
  · have hone : [(⟨1, body⟩ : Segment)].length = 1 := rfl
    refine ⟨hcount, ?_, hwhole, hboundary, ?_, ?_, ?_, fun _ => rfl⟩
    · intro i seg hi
      cases i with
      | zero => rw [← Option.some.inj hi]
      | succ i => cases hi
    · intro hmany
      omega
    · intro hmany
      omega
    · intro _ seg hseg
      rw [List.mem_singleton.mp hseg]
      exact hfits
  · refine ⟨hcount, ?_, hwhole, hboundary, ?_, ?_, ?_, fun hfits => absurd hfits (by omega)⟩
    · intro i seg hi
      have hi' : i < segments.length := (List.getElem?_eq_some_iff.mp hi).1
      rw [hcut.numbered i seg hi]
      omega
    · intro _ seg hseg hempty
      exact (hcut.sized seg hseg).1 (by rw [hempty]; rfl)
    · exact fun _ seg hseg => (hcut.sized seg hseg).2
    · exact fun _ seg hseg => Nat.le_trans (hcut.sized seg hseg).2 hparts

/-- A body of 72 UTF-16 units.  No pair of surrogates is split, so the first part
has 66 of its 67. -/
def smileys : String := String.ofList (List.replicate 36 '😀')

theorem segmentMessage_sound_smileys : SoundParts smileys
    [⟨1, String.ofList (List.replicate 33 '😀')⟩, ⟨2, String.ofList (List.replicate 3 '😀')⟩] :=
  segmentMessage_sound (by decide +kernel)

end Sms
end GreenRelay
