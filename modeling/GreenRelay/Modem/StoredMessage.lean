/-
Stored messages as the modem reports them and as they are parsed.

The lines of a response to `AT+CMGR` are the header, the lines of the body and
the result.  Parsing takes the first header and all lines after it up to the
first terminator, whatever lines they are.
-/
import GreenRelay.Modem.Protocol
import Mathlib.Data.List.TakeWhile

namespace GreenRelay
namespace Modem

open Text

/-! ## The header -/

theorem splitQuotedCsvFrom_quoted {s r current : List Char} (h : '"' ∉ s) :
    splitQuotedCsvFrom (s ++ r) current true = splitQuotedCsvFrom r (current ++ s) true := by
  induction s generalizing current with
  | nil => simp
  | cons c s ih =>
    obtain ⟨hc, hs⟩ : '"' ≠ c ∧ '"' ∉ s := by simpa [not_or] using h
    rw [List.cons_append, splitQuotedCsvFrom, if_neg hc.symm, if_neg (by simp), ih hs]
    simp

/-- A field in quotes. -/
def quoted (s : List Char) : List Char := '"' :: (s ++ ['"'])

theorem splitQuotedCsvFrom_field {s r current : List Char} (h : '"' ∉ s) :
    splitQuotedCsvFrom (quoted s ++ r) current false =
      splitQuotedCsvFrom r (current ++ quoted s) false := by
  rw [quoted, List.cons_append, List.append_assoc, List.singleton_append, splitQuotedCsvFrom,
    if_pos rfl, Bool.not_false, splitQuotedCsvFrom_quoted h, splitQuotedCsvFrom, if_pos rfl]
  simp

theorem splitQuotedCsvFrom_comma (r current : List Char) :
    splitQuotedCsvFrom (',' :: r) current false = current :: splitQuotedCsvFrom r [] false := by
  rw [splitQuotedCsvFrom, if_neg (by decide), if_pos ⟨rfl, rfl⟩]

theorem trim_quoted (s : List Char) : trim (quoted s) = quoted s :=
  trim_between (by decide) (by decide)

def recUnread : List Char := ['R', 'E', 'C', ' ', 'U', 'N', 'R', 'E', 'A', 'D']

def timestamp : List Char :=
  ['2', '4', '/', '0', '1', '/', '0', '2',
    ',', '0', '3', ':', '0', '4', ':', '0', '5', '+', '0', '0']

/-- The text of the header after `+CMGR: `. -/
def headerFields (sender : List Char) : List Char :=
  quoted recUnread ++ ',' :: (quoted sender ++ ',' :: ',' :: quoted timestamp)

theorem toList_between {first last : String} {p q : List Char} (hfirst : first.toList = p)
    (hlast : last.toList = q) (s : String) :
    (first ++ s ++ last).toList = p ++ (s.toList ++ q) := by
  rw [String.toList_append, String.toList_append, hfirst, hlast, List.append_assoc]

theorem cmgrHeader_toList (sender : String) :
    (cmgrHeader sender).toList = "+CMGR: ".toList ++ headerFields sender.toList := by
  have hfirst : "+CMGR: \"REC UNREAD\",\"".toList =
      "+CMGR: ".toList ++ (quoted recUnread ++ [',', '"']) := by decide +kernel
  have hlast : "\",,\"24/01/02,03:04:05+00\"".toList = '"' :: ',' :: ',' :: quoted timestamp := by
    decide +kernel
  refine (toList_between hfirst hlast sender).trans ?_
  simp only [headerFields, quoted, List.append_assoc, List.cons_append, List.nil_append]

theorem split_headerFields {sender : List Char} (h : '"' ∉ sender) :
    splitQuotedCsv (headerFields sender) =
      [quoted recUnread, quoted sender, [], quoted timestamp] := by
  have hrec : '"' ∉ recUnread := by simp [recUnread]
  have htime : '"' ∉ timestamp := by simp [timestamp]
  rw [splitQuotedCsv, headerFields, splitQuotedCsvFrom_field hrec, List.nil_append,
    splitQuotedCsvFrom_comma, splitQuotedCsvFrom_field h, List.nil_append,
    splitQuotedCsvFrom_comma, splitQuotedCsvFrom_comma, ← List.append_nil (quoted timestamp),
    splitQuotedCsvFrom_field htime, List.nil_append, List.append_nil]
  rfl

theorem trim_headerFields (sender : List Char) :
    trim (' ' :: headerFields sender) = headerFields sender := by
  have hbetween : headerFields sender = '"' :: ((recUnread ++ '"' :: ',' ::
      (quoted sender ++ ',' :: ',' :: '"' :: timestamp)) ++ ['"']) := by
    simp [headerFields, quoted]
  have hstart : trimStart (' ' :: headerFields sender) = trimStart (headerFields sender) := by
    rw [trimStart, List.dropWhile_cons_of_pos (by decide)]
    rfl
  rw [trim, hstart, hbetween]
  exact trim_between (by decide) (by decide)

/-- What is left of the header without its tag. -/
theorem strip_cmgrHeader (sender : String) :
    stripPrefix "+CMGR:".toList (trimStart (cmgrHeader sender).toList) =
      some (' ' :: headerFields sender.toList) := by
  rw [cmgrHeader_toList]
  rfl

theorem parseCmgrSender_header {sender : String} (h : '"' ∉ sender.toList) :
    parseCmgrSender (cmgrHeader sender).toList = some sender := by
  unfold parseCmgrSender
  rw [strip_cmgrHeader, Option.bind_eq_bind, Option.bind_some, trim_headerFields,
    split_headerFields h]
  show some (String.ofList (trimMatches '"' (trim (quoted sender.toList)))) = some sender
  rw [trim_quoted, quoted, trimMatches_between h, String.ofList_toList]

theorem cmgrDcsIsUcs2_header {sender : String} (h : '"' ∉ sender.toList) :
    cmgrDcsIsUcs2 (cmgrHeader sender).toList = false := by
  unfold cmgrDcsIsUcs2
  rw [strip_cmgrHeader]
  simp only [trim_headerFields, split_headerFields h]
  rfl

/-- The header ends in a quote. -/
theorem cmgrHeader_between (sender : String) :
    ∃ middle, (cmgrHeader sender).toList = '+' :: (middle ++ ['"']) := by
  refine ⟨"CMGR: ".toList ++ quoted recUnread ++ ',' ::
    (quoted sender.toList ++ ',' :: ',' :: '"' :: timestamp), ?_⟩
  rw [cmgrHeader_toList]
  simp [headerFields, quoted]

theorem trim_cmgrHeader (sender : String) :
    trim (cmgrHeader sender).toList = "+CMGR: ".toList ++ headerFields sender.toList := by
  obtain ⟨middle, hmiddle⟩ := cmgrHeader_between sender
  rw [hmiddle, trim_between (by decide) (by decide), ← hmiddle, cmgrHeader_toList]

theorem classifyLine_header (sender : String) :
    classifyLine (cmgrHeader sender) = .nonTerminating := by
  rw [classifyLine, trim_cmgrHeader]
  rfl

theorem isBlank_header (sender : String) : isBlank (cmgrHeader sender) = false := by
  rw [isBlank, trim_cmgrHeader]
  rfl

theorem parseCmtiIndex_header (sender : String) : parseCmtiIndex (cmgrHeader sender) = none := by
  rw [parseCmtiIndex, trim_cmgrHeader]
  rfl

theorem newline_notMem_header {sender : String} (h : '\n' ∉ sender.toList) :
    '\n' ∉ (cmgrHeader sender).toList := by
  rw [cmgrHeader_toList]
  simp [headerFields, quoted, recUnread, timestamp, h]

theorem isLine_header {sender : String} (h : '\n' ∉ sender.toList) :
    IsLine (cmgrHeader sender).toList := by
  refine ⟨newline_notMem_header h, ?_⟩
  obtain ⟨middle, hmiddle⟩ := cmgrHeader_between sender
  rw [hmiddle, ← List.cons_append, List.getLast?_append]
  show some '"' ≠ some '\r'
  decide

/-! ## The response -/

/-- The newline-separated lines of a body. -/
def bodyLines (body : String) : List (List Char) := body.toList.splitOn '\n'

theorem join_bodyLines (body : String) : join ['\n'] (bodyLines body) = body.toList :=
  List.intercalate_splitOn '\n'

def IsCmgrHeader (l : List Char) : Prop :=
  (stripPrefix "+CMGR:".toList (trimStart l)).isSome

theorem isCmgrHeader_header (sender : String) : IsCmgrHeader (cmgrHeader sender).toList := by
  rw [IsCmgrHeader, strip_cmgrHeader]
  rfl

theorem trim_of_isCmgrHeader {header : String} (h : IsCmgrHeader header.toList) :
    ∃ rest, trim header.toList = "+CMGR:".toList ++ rest := by
  obtain ⟨rest, hrest⟩ := Option.isSome_iff_exists.mp h
  have hstart : trimStart header.toList = ['+', 'C', 'M', 'G', 'R'] ++ ':' :: rest := by
    rw [stripPrefix_eq_some.mp hrest]
    rfl
  refine ⟨trimEnd rest, ?_⟩
  rw [trim, hstart, trimEnd_append_cons (by decide)]
  rfl

theorem isBlank_of_isCmgrHeader {header : String} (h : IsCmgrHeader header.toList) :
    isBlank header = false := by
  obtain ⟨rest, hrest⟩ := trim_of_isCmgrHeader h
  rw [isBlank, hrest]
  rfl

/-- A response is parsed as the lines between its first header and the terminator
that follows. -/
theorem parseCmgr_lines {response sender : String} (first : List (List Char))
    {body : List (List Char)} {last : List Char} (rest : List (List Char))
    (hsender : '"' ∉ sender.toList)
    (hlines : lines response.toList = first ++ (cmgrHeader sender).toList :: (body ++ last :: rest))
    (hfirst : ∀ l ∈ first, ¬ IsCmgrHeader l)
    (hbody : ∀ l ∈ body, classifyLine (String.ofList l) = .nonTerminating)
    (hlast : classifyLine (String.ofList last) ≠ .nonTerminating) :
    parseCmgr response = some ⟨sender, String.ofList (join ['\n'] body)⟩ := by
  have hdrop : (lines response.toList).dropWhile
      (fun l => !(stripPrefix "+CMGR:".toList (trimStart l)).isSome) =
      (cmgrHeader sender).toList :: (body ++ last :: rest) := by
    rw [hlines, List.dropWhile_append_of_pos, List.dropWhile_cons_of_neg]
    · rw [strip_cmgrHeader]
      simp
    · intro l hl
      have hnot := hfirst l hl
      unfold IsCmgrHeader at hnot
      rw [Bool.eq_false_iff.mpr hnot, Bool.not_false]
  have htake : (body ++ last :: rest).takeWhile
      (fun l => classifyLine (String.ofList l) == .nonTerminating) = body := by
    rw [List.takeWhile_append_of_pos, List.takeWhile_cons_of_neg, List.append_nil]
    · simpa using hlast
    · intro l hl
      simpa using hbody l hl
  unfold parseCmgr
  simp only [hdrop, parseCmgrSender_header hsender, htake, cmgrDcsIsUcs2_header hsender]
  rfl

/-- The sender is read from the first header. -/
theorem parseCmgr_sender {response : String} {first rest : List (List Char)}
    (hlines : lines response.toList = first ++ rest) {header : List Char} (hmem : header ∈ first)
    (hheader : IsCmgrHeader header) :
    (parseCmgr response).map ParsedInbound.sender =
      ((first.dropWhile (fun l => !(stripPrefix "+CMGR:".toList (trimStart l)).isSome)).head?).bind
        parseCmgrSender := by
  unfold parseCmgr
  simp only [hlines, List.dropWhile_append]
  cases hdrop : first.dropWhile
      (fun l => !(stripPrefix "+CMGR:".toList (trimStart l)).isSome) with
  | nil =>
    have hall := List.dropWhile_eq_nil_iff.mp hdrop header hmem
    unfold IsCmgrHeader at hheader
    rw [hheader] at hall
    cases hall
  | cons found later =>
    simp only [List.isEmpty_cons, Bool.false_eq_true, if_false, List.cons_append, List.head?_cons,
      Option.bind_some]
    cases parseCmgrSender found <;> rfl

theorem lines_formatCmgrResponse {sender body : String} (hsender : '\n' ∉ sender.toList)
    (hbody : ∀ l ∈ bodyLines body, l.getLast? ≠ some '\r') :
    lines (formatCmgrResponse sender body).toList =
      (cmgrHeader sender).toList :: (bodyLines body ++ ["OK".toList]) := by
  have htext : (formatCmgrResponse sender body).toList = (cmgrHeader sender).toList ++
      '\r' :: '\n' :: (join ['\n'] (bodyLines body) ++ '\r' :: '\n' :: "OK".toList) := by
    rw [formatCmgrResponse, String.toList_append, String.toList_append, String.toList_append,
      join_bodyLines, List.append_assoc, List.append_assoc]
    rfl
  have hlines : ∀ l ∈ bodyLines body, IsLine l :=
    fun l hl => ⟨not_mem_of_mem_splitOn hl, hbody l hl⟩
  rw [htext, lines_crlf_append (newline_notMem_header hsender),
    lines_body hlines (List.splitOn_ne_nil _ _) (by decide) (by decide)]

/-- Parsing undoes formatting. -/
theorem parseCmgr_format {sender body : String} (hquote : '"' ∉ sender.toList)
    (hsender : '\n' ∉ sender.toList) (hcr : ∀ l ∈ bodyLines body, l.getLast? ≠ some '\r')
    (hbody : ∀ l ∈ bodyLines body, classifyLine (String.ofList l) = .nonTerminating) :
    parseCmgr (formatCmgrResponse sender body) = some ⟨sender, body⟩ := by
  have hlines := lines_formatCmgrResponse hsender hcr
  rw [parseCmgr_lines [] [] hquote hlines (by simp) hbody (by decide), join_bodyLines,
    String.ofList_toList]

end Modem
end GreenRelay
