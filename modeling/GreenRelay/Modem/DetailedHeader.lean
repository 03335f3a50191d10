/-
The detailed header of a stored message and texts sent as UCS2.

With `AT+CSDH=1` the header has at least eight fields and the eighth says how the
text is encoded.  A field is any text with balanced quotes and no comma outside
of them.  Trimming a header changes no field but the first and the last, and
neither of these beyond its white space.
-/
import GreenRelay.Modem.Fields
import GreenRelay.Modem.StoredMessage

namespace GreenRelay
namespace Modem

open Text Quoted

/-! ## Fields -/

/-- Read from inside or outside of quotes, the text has no comma outside of them
and ends outside. -/
def Closed : List Char → Bool → Prop
  | [], inQuotes => inQuotes = false
  | c :: s, inQuotes =>
    if c = '"' then Closed s (!inQuotes) else (c = ',' → inQuotes = true) ∧ Closed s inQuotes

instance Closed.decidable : ∀ (f : List Char) (inQuotes : Bool), Decidable (Closed f inQuotes)
  | [], inQuotes => inferInstanceAs (Decidable (inQuotes = false))
  | c :: s, inQuotes =>
    have := Closed.decidable s (!inQuotes)
    have := Closed.decidable s inQuotes
    if h : c = '"' then decidable_of_iff (Closed s (!inQuotes)) (by rw [Closed, if_pos h])
    else decidable_of_iff ((c = ',' → inQuotes = true) ∧ Closed s inQuotes)
      (by rw [Closed, if_neg h])

abbrev IsField (f : List Char) : Prop := Closed f false

/-- Behind a text `p` whose quotes are open as the flag says, a closed text has
all its commas in quotes and leaves none open. -/
theorem Closed.spec {f : List Char} : ∀ {inQuotes : Bool} {p : List Char},
    (inQuotes = true ↔ Open '"' p) → Closed f inQuotes →
      ¬ Open '"' (p ++ f) ∧ ∀ a b, f = a ++ ',' :: b → Open '"' (p ++ a) := by
  induction f with
  | nil =>
    intro inQuotes p hflag h
    rw [List.append_nil, ← hflag, show inQuotes = false from h]
    exact ⟨by simp, fun a b heq => by cases a <;> cases heq⟩
  | cons c f ih =>
    intro inQuotes p hflag h
    rw [Closed] at h
    have htail : (c = ',' → Open '"' p) ∧ ¬ Open '"' (p ++ [c] ++ f) ∧
        ∀ a b, f = a ++ ',' :: b → Open '"' (p ++ [c] ++ a) := by
      by_cases hc : c = '"'
      · subst hc
        rw [if_pos rfl] at h
        refine ⟨fun heq => absurd heq (by decide), ih ?_ h⟩
        rw [open_quote, ← hflag]
        simp
      · rw [if_neg hc] at h
        exact ⟨fun heq => hflag.mp (h.1 heq), ih (by rw [open_other hc, hflag]) h.2⟩
    obtain ⟨hcomma, hend, htail⟩ := htail
    rw [List.append_cons]
    refine ⟨hend, fun a b heq => ?_⟩
    cases a with
    | nil =>
      rw [List.append_nil]
      exact hcomma (List.cons.inj heq).1
    | cons d a =>
      obtain ⟨rfl, hf⟩ := List.cons.inj heq
      rw [List.append_cons]
      exact htail a b hf

theorem splitQuotedCsv_join {fields : List (List Char)} (hne : fields ≠ [])
    (h : ∀ f ∈ fields, IsField f) : splitQuotedCsv (join [','] fields) = fields :=
  splitQuotedCsv_intercalate hne
    (fun f hf => Closed.spec (p := []) (by simp [open_nil]) (h f hf))

/-! ## Trimming a joined text -/

theorem Closed.trimStart {f : List Char} (h : IsField f) : IsField (trimStart f) := by
  induction f with
  | nil => exact h
  | cons c f ih =>
    by_cases hc : isWhite c = true
    · rw [Text.trimStart, List.dropWhile_cons_of_pos hc]
      have hquote : c ≠ '"' := by
        rintro rfl
        cases hc
      rw [IsField, Closed, if_neg hquote] at h
      exact ih h.2
    · rw [trimStart_of_head (Bool.eq_false_iff.mpr hc)]
      exact h

theorem closed_append_white {f w : List Char} (hw : ∀ c ∈ w, isWhite c = true) :
    ∀ {inQuotes : Bool}, Closed (f ++ w) inQuotes → Closed f inQuotes := by
  induction f with
  | nil =>
    intro inQuotes h
    induction w with
    | nil => exact h
    | cons c w ih =>
      have hquote : c ≠ '"' := by
        rintro rfl
        exact absurd (hw '"' List.mem_cons_self) (by decide)
      rw [List.nil_append, Closed, if_neg hquote] at h
      exact ih (fun d hd => hw d (List.mem_cons_of_mem c hd)) h.2
  | cons c f ih =>
    intro inQuotes h
    rw [List.cons_append, Closed] at h
    rw [Closed]
    by_cases hc : c = '"'
    · rw [if_pos hc] at h ⊢
      exact ih h
    · rw [if_neg hc] at h ⊢
      exact ⟨h.1, ih h.2⟩

theorem trimStart_join (f : List Char) (fields : List (List Char)) :
    trimStart (join [','] (f :: fields)) = join [','] (trimStart f :: fields) := by
  cases fields with
  | nil => rw [join, join, List.intercalate_singleton, List.intercalate_singleton]
  | cons g fields =>
    rw [join, join, List.intercalate_cons_cons, List.intercalate_cons_cons, List.append_assoc,
      List.append_assoc, List.singleton_append, trimStart_append_cons (by decide)]

theorem trimEnd_join (last : List Char) (fields : List (List Char)) :
    trimEnd (join [','] (fields ++ [last])) = join [','] (fields ++ [trimEnd last]) := by
  induction fields with
  | nil => rw [List.nil_append, List.nil_append, join, join, List.intercalate_singleton,
      List.intercalate_singleton]
  | cons f fields ih =>
    have hcons : ∀ l, join [','] (f :: fields ++ [l]) = f ++ ',' :: join [','] (fields ++ [l]) := by
      intro l
      rw [join, List.cons_append, List.intercalate_cons_of_ne_nil (by simp), List.append_assoc]
      rfl
    rw [hcons, hcons, trimEnd_append_cons (by decide), ih]

/-- Trimming the whole trims its first and its last field. -/
theorem trim_join {fields : List (List Char)} (hne : fields ≠ []) (h : ∀ f ∈ fields, IsField f) :
    ∃ trimmed, trim (join [','] fields) = join [','] trimmed ∧ trimmed ≠ [] ∧
      (∀ f ∈ trimmed, IsField f) ∧ trimmed.map trim = fields.map trim := by
  obtain ⟨f, rest, rfl⟩ := List.exists_cons_of_ne_nil hne
  obtain ⟨init, last, hsplit⟩ :=
    (List.eq_nil_or_concat (Text.trimStart f :: rest)).resolve_left (by simp)
  rw [List.concat_eq_append] at hsplit
  have hall : ∀ g ∈ init ++ [last], IsField g := by
    intro g hg
    rw [← hsplit] at hg
    rcases List.mem_cons.mp hg with rfl | hg
    · exact (h f List.mem_cons_self).trimStart
    · exact h g (List.mem_cons_of_mem f hg)
  obtain ⟨w, hlast, hw⟩ := exists_trimEnd last
  refine ⟨init ++ [trimEnd last], ?_, by simp, ?_, ?_⟩
  · rw [trim, trimStart_join, hsplit, trimEnd_join]
  · intro g hg
    rcases List.mem_append.mp hg with hg | hg
    · exact hall g (List.mem_append_left _ hg)
    · rw [List.mem_singleton.mp hg]
      have hfield := hall last (by simp)
      rw [hlast] at hfield
      exact closed_append_white hw hfield
  · have hmap := congrArg (List.map trim) hsplit
    rw [List.map_cons, trim_trimStart, ← List.map_cons] at hmap
    rw [hmap, List.map_append, List.map_append, List.map_singleton, List.map_singleton,
      trim_trimEnd]

/-! ## The detailed header -/

/-- A header whose second field quotes the sender and whose eighth field is a
data-coding scheme. -/
structure DetailedHeader (sender : String) (dcs : Nat) (header : List Char)
    (fields : List (List Char)) : Prop where
  text : trimStart header = "+CMGR:".toList ++ join [','] fields
  closed : ∀ f ∈ fields, IsField f
  sender : fields[1]?.map trim = some (quoted sender.toList)
  dcs : ∃ digits, (fields[7]?.map trim = some digits ∨ fields[7]?.map trim = some (quoted digits)) ∧
    parseU16 digits = some dcs

theorem quote_notMem_digits {digits : List Char} {n : Nat} (h : parseU16 digits = some n) :
    '"' ∉ digits := by
  intro hmem
  simp only [parseU16, parseUnsigned] at h
  split at h
  · next hgood =>
    have hdrop : '"' ∈ dropPlus digits := by
      unfold dropPlus
      split
      · exact (List.mem_cons.mp hmem).resolve_left (by decide)
      · exact hmem
    exact absurd (List.all_eq_true.mp hgood.2.1 '"' hdrop) (by decide)
  · cases h

section
variable {sender : String} {dcs : Nat} {header : List Char} {fields : List (List Char)}

/-- The fields that the parser sees are those of the header, but for white space. -/
theorem DetailedHeader.split (h : DetailedHeader sender dcs header fields) :
    ∃ rest, stripPrefix "+CMGR:".toList (trimStart header) = some rest ∧
      (splitQuotedCsv (trim rest)).map trim = fields.map trim := by
  have hne : fields ≠ [] := by
    rintro rfl
    have := h.sender
    cases this
  obtain ⟨trimmed, htrim, htrimmed, hclosed, hmap⟩ := trim_join hne h.closed
  refine ⟨join [','] fields, stripPrefix_eq_some.mpr h.text, ?_⟩
  rw [htrim, splitQuotedCsv_join htrimmed hclosed, hmap]

theorem DetailedHeader.isHeader (h : DetailedHeader sender dcs header fields) :
    IsCmgrHeader header := by
  obtain ⟨rest, hrest, -⟩ := h.split
  rw [IsCmgrHeader, hrest]
  rfl

theorem DetailedHeader.parseSender (h : DetailedHeader sender dcs header fields)
    (hquote : '"' ∉ sender.toList) : parseCmgrSender header = some sender := by
  obtain ⟨rest, hrest, hmap⟩ := h.split
  have hfield := congrArg (fun l => l[1]?) hmap
  simp only [List.getElem?_map, h.sender] at hfield
  obtain ⟨f, hf, htrim⟩ := Option.map_eq_some_iff.mp hfield
  unfold parseCmgrSender
  rw [hrest, Option.bind_eq_bind, Option.bind_some, hf, Option.bind_some, htrim, quoted,
    trimMatches_between hquote, String.ofList_toList]
  rfl

theorem DetailedHeader.isUcs2 (h : DetailedHeader sender dcs header fields)
    (hdcs : dcs &&& 0x0C = 0x08) : cmgrDcsIsUcs2 header = true := by
  obtain ⟨rest, hrest, hmap⟩ := h.split
  obtain ⟨digits, hdigits, hparse⟩ := h.dcs
  have hquote := quote_notMem_digits hparse
  have hfield := congrArg (fun l => l[7]?) hmap
  simp only [List.getElem?_map] at hfield
  have hread : (splitQuotedCsv (trim rest))[7]?.bind
      (fun f => parseU16 (trimMatches '"' (trim f))) = some dcs := by
    rcases hdigits with hdigits | hdigits
    · rw [hdigits] at hfield
      obtain ⟨f, hf, htrim⟩ := Option.map_eq_some_iff.mp hfield
      rw [hf, Option.bind_some, htrim, trimMatches_plain hquote, hparse]
    · rw [hdigits] at hfield
      obtain ⟨f, hf, htrim⟩ := Option.map_eq_some_iff.mp hfield
      rw [hf, Option.bind_some, htrim, quoted, trimMatches_between hquote, hparse]
  simp only [cmgrDcsIsUcs2, hrest, hread, hdcs, beq_self_eq_true]

end

/-! ## A text in UCS2 -/

/-- No line of digits is a result. -/
theorem classifyLine_hex (s : String) :
    classifyLine (String.ofList (Sms.ucs2HexEncode s).toList) = .nonTerminating := by
  have hdigit : ∀ c ∈ (Sms.ucs2HexEncode s).toList, (Unicode.hexValue c).isSome := by
    rw [Sms.ucs2HexEncode_toList]
    exact (Unicode.wholeGroups_flatMap _).2
  have hnone : ∀ c, (Unicode.hexValue c).isSome = false → c ∉ (Sms.ucs2HexEncode s).toList := by
    intro c hc hmem
    rw [hdigit c hmem] at hc
    cases hc
  have hplus := hnone '+' (by decide)
  have hcms : stripPrefix "+CMS ERROR:".toList (Sms.ucs2HexEncode s).toList = none := by
    cases hstrip : stripPrefix "+CMS ERROR:".toList (Sms.ucs2HexEncode s).toList with
    | none => rfl
    | some rest => exact absurd (by rw [stripPrefix_eq_some.mp hstrip]; simp) hplus
  have hcme : stripPrefix "+CME ERROR:".toList (Sms.ucs2HexEncode s).toList = none := by
    cases hstrip : stripPrefix "+CME ERROR:".toList (Sms.ucs2HexEncode s).toList with
    | none => rfl
    | some rest => exact absurd (by rw [stripPrefix_eq_some.mp hstrip]; simp) hplus
  have hok : (Sms.ucs2HexEncode s).toList ≠ "OK".toList :=
    fun heq => hnone 'O' (by decide) (by rw [heq]; decide)
  have herror : (Sms.ucs2HexEncode s).toList ≠ "ERROR".toList :=
    fun heq => hnone 'R' (by decide) (by rw [heq]; decide)
  simp only [classifyLine, String.toList_ofList, Sms.trim_ucs2HexEncode, if_neg hok, if_neg herror,
    hcms, hcme]

theorem parseCmgr_ucs2 {sender text : String} {dcs : Nat} {header : List Char}
    {fields : List (List Char)} {response : String} (hquote : '"' ∉ sender.toList)
    (htext : text ≠ "") (hheader : DetailedHeader sender dcs header fields)
    (hdcs : dcs &&& 0x0C = 0x08)
    (hlines : lines response.toList =
      [header, (Sms.ucs2HexEncode text).toList, "OK".toList]) :
    parseCmgr response = some ⟨sender, text⟩ := by
  have hdrop : (lines response.toList).dropWhile
      (fun l => !(stripPrefix "+CMGR:".toList (trimStart l)).isSome) =
      [header, (Sms.ucs2HexEncode text).toList, "OK".toList] := by
    have hfound : (stripPrefix "+CMGR:".toList (trimStart header)).isSome = true :=
      hheader.isHeader
    rw [hlines, List.dropWhile_cons_of_neg (by rw [hfound]; simp)]
  have htake : [(Sms.ucs2HexEncode text).toList, "OK".toList].takeWhile
      (fun l => classifyLine (String.ofList l) == .nonTerminating) =
      [(Sms.ucs2HexEncode text).toList] := by
    rw [List.takeWhile_cons_of_pos (by rw [classifyLine_hex]; rfl),
      List.takeWhile_cons_of_neg (by decide)]
  have hdecode : Sms.ucs2HexDecode (String.ofList (trim (join ['\n']
      [(Sms.ucs2HexEncode text).toList]))) = some text := by
    rw [join, List.intercalate_singleton, Sms.trim_ucs2HexEncode, String.ofList_toList,
      Sms.ucs2HexDecode_encode htext]
  unfold parseCmgr
  simp only [hdrop, hheader.parseSender hquote, htake, hheader.isUcs2 hdcs, if_true, hdecode,
    Option.getD_some]

/-- Parsing undoes formatting, and a UCS2 message under a detailed header is read
back as the text that was encoded. -/
theorem parseCmgr_undoes_format :
    (∀ sender body : String, '"' ∉ sender.toList → '\n' ∉ sender.toList →
      (∀ l ∈ bodyLines body, l.getLast? ≠ some '\r' ∧
        classifyLine (String.ofList l) = .nonTerminating) →
      parseCmgr (formatCmgrResponse sender body) = some ⟨sender, body⟩) ∧
    (∀ (sender text response : String) (dcs : Nat) (header : List Char)
        (fields : List (List Char)), '"' ∉ sender.toList → '\n' ∉ sender.toList → text ≠ "" →
      DetailedHeader sender dcs header fields → dcs &&& 0x0C = 0x08 →
      lines response.toList = [header, (Sms.ucs2HexEncode text).toList, "OK".toList] →
      parseCmgr response = some ⟨sender, text⟩) := by
  constructor
  · intro sender body hquote hsender hbody
    exact parseCmgr_format hquote hsender (fun l hl => (hbody l hl).1) (fun l hl => (hbody l hl).2)
  · intro sender text response dcs header fields hquote _ htext hheader hdcs hlines
    exact parseCmgr_ucs2 hquote htext hheader hdcs hlines

def sampleFields : List (List Char) :=
  [" \"REC UNREAD\"".toList, "\"+15551234567\"".toList, [], "\"24/01/02,03:04:05+00\"".toList,
    "145".toList, "4".toList, "0".toList, "8".toList, "\"+15550000000\"".toList, "145".toList,
    "2".toList]

theorem sampleFields_header : DetailedHeader "+15551234567" 8
    ("+CMGR:".toList ++ join [','] sampleFields) sampleFields where
  text := by decide +kernel
  closed := by decide +kernel
  sender := by decide +kernel
  dcs := ⟨['8'], Or.inl (by decide +kernel), by decide⟩

theorem parseCmgr_undoes_format_sample :
    parseCmgr (formatCmgrResponse "+15551234567" "hi, you") = some ⟨"+15551234567", "hi, you"⟩ ∧
    parseCmgr (String.ofList (join ['\n'] ["+CMGR:".toList ++ join [','] sampleFields,
      (Sms.ucs2HexEncode "hé").toList, "OK".toList])) = some ⟨"+15551234567", "hé"⟩ :=
  ⟨parseCmgr_undoes_format.1 "+15551234567" "hi, you" (by decide +kernel) (by decide +kernel)
      (by decide +kernel),
    parseCmgr_undoes_format.2 "+15551234567" "hé" _ 8 _ sampleFields (by decide +kernel)
      (by decide +kernel) (by decide) sampleFields_header rfl (by decide +kernel)⟩

end Modem
end GreenRelay
