/-
Text operations on lists of characters.

These are the string functions of the Rust standard library that line-oriented
parsers are written with: trimming, stripping a prefix, splitting at a
separator, splitting into lines, and reading an unsigned decimal number.  Each
follows the documented behaviour of its namesake.
-/
import Mathlib.Data.List.TakeWhile

namespace Text

/-- `char::is_whitespace`: the Unicode property `White_Space`. -/
def isWhite (c : Char) : Bool :=
  let n := c.toNat
  (9 ≤ n && n ≤ 13) || n == 32 || n == 0x85 || n == 0xA0 || n == 0x1680 ||
    (0x2000 ≤ n && n ≤ 0x200A) || n == 0x2028 || n == 0x2029 || n == 0x202F || n == 0x205F ||
    n == 0x3000

def trimStart (s : List Char) : List Char := s.dropWhile isWhite

def trimEnd (s : List Char) : List Char := (s.reverse.dropWhile isWhite).reverse

def trim (s : List Char) : List Char := trimEnd (trimStart s)

/-- `str::trim_matches` for one character. -/
def trimMatches (c : Char) (s : List Char) : List Char :=
  ((s.dropWhile (· == c)).reverse.dropWhile (· == c)).reverse

def stripPrefix : List Char → List Char → Option (List Char)
  | [], s => some s
  | _ :: _, [] => none
  | p :: ps, c :: cs => if p = c then stripPrefix ps cs else none

/-- A prefix can be stripped exactly from the texts that begin with it. -/
theorem stripPrefix_eq_some {p s r : List Char} : stripPrefix p s = some r ↔ s = p ++ r := by
  induction p generalizing s with
  | nil => simp [stripPrefix, eq_comm]
  | cons c p ih =>
    cases s with
    | nil => simp [stripPrefix]
    | cons d s =>
      by_cases h : c = d
      · subst h; simp [stripPrefix, ih]
      · have h' : d ≠ c := fun e => h e.symm
        simp [stripPrefix, h, h']

/-- `str::replace` of one character. -/
def replace (c : Char) (new s : List Char) : List Char :=
  s.flatMap (fun d => if d = c then new else [d])

/-- `str::split_once` at one character. -/
def splitOnce (c : Char) : List Char → Option (List Char × List Char)
  | [] => none
  | d :: s => if d = c then some ([], s) else (splitOnce c s).map (fun p => (d :: p.1, p.2))

theorem splitOnce_append {c : Char} {p : List Char} (h : c ∉ p) (s : List Char) :
    splitOnce c (p ++ c :: s) = some (p, s) := by
  induction p with
  | nil => simp [splitOnce]
  | cons d p ih =>
    have hd : d ≠ c := fun e => h (by rw [e]; exact List.mem_cons_self)
    rw [List.cons_append, splitOnce, if_neg hd, ih (fun hc => h (List.mem_cons_of_mem d hc))]
    rfl

/-- The lines of a text, each with its line ending: `split_inclusive('\n')`. -/
def splitInclusive : List Char → List (List Char)
  | [] => []
  | '\n' :: s => ['\n'] :: splitInclusive s
  | c :: s =>
    match splitInclusive s with
    | [] => [[c]]
    | l :: ls => (c :: l) :: ls

/-- Drops a line ending, a newline with or without a carriage return before it. -/
def stripLineEnding (l : List Char) : List Char :=
  match l.reverse with
  | '\n' :: '\r' :: r => r.reverse
  | '\n' :: r => r.reverse
  | _ => l

/-- `str::lines`. -/
def lines (s : List Char) : List (List Char) := (splitInclusive s).map stripLineEnding

def digitsValue (ds : List Char) : Nat := ds.foldl (fun n c => 10 * n + (c.toNat - 48)) 0

def dropPlus : List Char → List Char
  | '+' :: s => s
  | s => s

/-- `str::parse` at an unsigned type with `bound` values: an optional plus sign
and at least one digit, the value below `bound`. -/
def parseUnsigned (bound : Nat) (s : List Char) : Option Nat :=
  let ds := dropPlus s
  if ds ≠ [] ∧ ds.all Char.isDigit = true ∧ digitsValue ds < bound then
    some (digitsValue ds)
  else none

def join (sep : List Char) (ls : List (List Char)) : List Char := sep.intercalate ls

/-! ## Trimming -/

theorem trimStart_of_head {c : Char} {s : List Char} (h : isWhite c = false) :
    trimStart (c :: s) = c :: s := by
  rw [trimStart, List.dropWhile_cons_of_neg (by simp [h])]

theorem trimEnd_of_last {c : Char} {s : List Char} (h : isWhite c = false) :
    trimEnd (s ++ [c]) = s ++ [c] := by
  rw [trimEnd, List.reverse_append, List.reverse_singleton, List.singleton_append,
    List.dropWhile_cons_of_neg (by simp [h]), List.reverse_cons, List.reverse_reverse]

/-- A text between two characters that are no white space is trimmed already. -/
theorem trim_between {c d : Char} {s : List Char} (hc : isWhite c = false)
    (hd : isWhite d = false) : trim (c :: (s ++ [d])) = c :: (s ++ [d]) := by
  rw [trim, trimStart_of_head hc]
  exact trimEnd_of_last (s := c :: s) hd

theorem trimEnd_prefix (s : List Char) : trimEnd s <+: s := by
  obtain ⟨t, ht⟩ := List.dropWhile_suffix (l := s.reverse) isWhite
  refine ⟨t.reverse, ?_⟩
  have h := congrArg List.reverse ht
  rw [List.reverse_append, List.reverse_reverse] at h
  exact h

/-- What begins a trimmed text begins the text that is trimmed at its start. -/
theorem trimStart_of_trim {p s r : List Char} (h : trim s = p ++ r) :
    ∃ r', trimStart s = p ++ r' := by
  obtain ⟨t, ht⟩ := trimEnd_prefix (trimStart s)
  refine ⟨r ++ t, ?_⟩
  rw [← ht, show trimEnd (trimStart s) = p ++ r from h, List.append_assoc]

theorem trimMatches_plain {c : Char} {s : List Char} (h : c ∉ s) : trimMatches c s = s := by
  have hdrop : ∀ t : List Char, c ∉ t → t.dropWhile (· == c) = t := by
    intro t ht
    cases t with
    | nil => rfl
    | cons d t =>
      have hd : d ≠ c := fun e => ht (by rw [e]; exact List.mem_cons_self)
      rw [List.dropWhile_cons_of_neg (by simpa using hd)]
  rw [trimMatches, hdrop s h, hdrop s.reverse (by simpa using h), List.reverse_reverse]

theorem trimMatches_between {c : Char} {s : List Char} (h : c ∉ s) :
    trimMatches c (c :: (s ++ [c])) = s := by
  unfold trimMatches
  rw [List.dropWhile_cons_of_pos (by simp)]
  cases s with
  | nil => simp
  | cons d s =>
    have hd : (d == c) = false := by
      have hne : c ≠ d := fun heq => h (by simp [heq])
      simpa using hne.symm
    rw [List.cons_append, List.dropWhile_cons_of_neg (by simp [hd]), ← List.cons_append,
      List.reverse_append, List.reverse_singleton, List.singleton_append,
      List.dropWhile_cons_of_pos (by simp)]
    cases hrev : (d :: s).reverse with
    | nil => simp at hrev
    | cons x r =>
      have hx : (x == c) = false := by
        have hmem : x ∈ d :: s := List.mem_reverse.mp (by simp [hrev])
        have hne : x ≠ c := fun heq => h (heq ▸ hmem)
        simpa using hne
      rw [List.dropWhile_cons_of_neg (by simp [hx]), ← hrev, List.reverse_reverse]

/-- A text that neither begins nor ends with white space is trimmed already. -/
theorem trim_of_ends {s : List Char} (hhead : ∀ c ∈ s.head?, isWhite c = false)
    (hlast : ∀ c ∈ s.getLast?, isWhite c = false) : trim s = s := by
  cases s with
  | nil => rfl
  | cons c s =>
    obtain ⟨init, d, hsplit⟩ := (List.eq_nil_or_concat (c :: s)).resolve_left (List.cons_ne_nil c s)
    rw [trim, trimStart_of_head (hhead c rfl), hsplit, List.concat_eq_append]
    exact trimEnd_of_last (hlast d (by rw [hsplit]; simp))

/-- Trimming goes no further than a character that is no white space. -/
theorem trimStart_append_cons {c : Char} (hc : isWhite c = false) (w s : List Char) :
    trimStart (w ++ c :: s) = trimStart w ++ c :: s := by
  rw [trimStart, trimStart, List.dropWhile_append]
  split
  · next hnil =>
    rw [List.isEmpty_iff.mp hnil, List.dropWhile_cons_of_neg (by simp [hc])]
    rfl
  · rfl

theorem trimEnd_append_cons {c : Char} (hc : isWhite c = false) (w s : List Char) :
    trimEnd (w ++ c :: s) = w ++ c :: trimEnd s := by
  have hrev : (w ++ c :: s).reverse = s.reverse ++ c :: w.reverse := by simp
  have hdrop : trimStart (s.reverse ++ c :: w.reverse) = trimStart s.reverse ++ c :: w.reverse :=
    trimStart_append_cons hc s.reverse w.reverse
  rw [trimEnd, hrev]
  show (trimStart (s.reverse ++ c :: w.reverse)).reverse = w ++ c :: (trimStart s.reverse).reverse
  rw [hdrop]
  simp

theorem last_trimEnd {s : List Char} {d : Char} (h : (trimEnd s).getLast? = some d) :
    isWhite d = false := by
  rw [trimEnd, List.getLast?_reverse] at h
  have hnot := List.head?_dropWhile_not isWhite s.reverse
  rw [h] at hnot
  exact hnot

/-- What is trimmed from the end is white space. -/
theorem exists_trimEnd (s : List Char) :
    ∃ w, s = trimEnd s ++ w ∧ ∀ c ∈ w, isWhite c = true := by
  refine ⟨(s.reverse.takeWhile isWhite).reverse, ?_, fun c hc => ?_⟩
  · rw [trimEnd, ← List.reverse_append, List.takeWhile_append_dropWhile, List.reverse_reverse]
  · exact List.mem_takeWhile_imp (List.mem_reverse.mp hc)

theorem trimStart_white {s : List Char} (h : ∀ c ∈ s, isWhite c = true) : trimStart s = [] :=
  List.dropWhile_eq_nil_iff.mpr h

theorem trimEnd_white {s : List Char} (h : ∀ c ∈ s, isWhite c = true) : trimEnd s = [] := by
  rw [trimEnd, List.dropWhile_eq_nil_iff.mpr (fun c hc => h c (List.mem_reverse.mp hc))]
  rfl

/-- A text is white space, or has a first character that is none. -/
theorem white_or_split (s : List Char) : (∀ c ∈ s, isWhite c = true) ∨
    ∃ w c r, s = w ++ c :: r ∧ (∀ d ∈ w, isWhite d = true) ∧ isWhite c = false := by
  induction s with
  | nil => exact Or.inl (fun c hc => absurd hc List.not_mem_nil)
  | cons c s ih =>
    by_cases hc : isWhite c = true
    · rcases ih with hall | ⟨w, d, r, rfl, hw, hd⟩
      · exact Or.inl (List.forall_mem_cons.mpr ⟨hc, hall⟩)
      · exact Or.inr ⟨c :: w, d, r, rfl, List.forall_mem_cons.mpr ⟨hc, hw⟩, hd⟩
    · exact Or.inr ⟨[], c, s, rfl, fun d hd => absurd hd List.not_mem_nil,
        Bool.eq_false_iff.mpr hc⟩

/-- Trimming one end beforehand changes nothing. -/
theorem trim_trimStart (s : List Char) : trim (trimStart s) = trim s := by
  rcases white_or_split s with hall | ⟨w, c, r, rfl, hw, hc⟩
  · rw [trim, trim, trimStart_white hall]
    rfl
  · rw [trimStart_append_cons hc, trimStart_white hw, List.nil_append, trim, trim,
      trimStart_of_head hc, trimStart_append_cons hc, trimStart_white hw, List.nil_append]

theorem trim_trimEnd (s : List Char) : trim (trimEnd s) = trim s := by
  rcases white_or_split s with hall | ⟨w, c, r, rfl, hw, hc⟩
  · rw [trimEnd_white hall, trim, trim, trimStart_white hall]
    rfl
  · have hidem : trimEnd (trimEnd r) = trimEnd r := by
      rcases List.eq_nil_or_concat (trimEnd r) with hnil | ⟨init, d, hinit⟩
      · rw [hnil]
        rfl
      · have hd : isWhite d = false := last_trimEnd (by rw [hinit]; simp)
        rw [hinit, List.concat_eq_append]
        exact trimEnd_of_last hd
    rw [trimEnd_append_cons hc, trim, trim, trimStart_append_cons hc, trimStart_append_cons hc,
      trimStart_white hw, List.nil_append, List.nil_append]
    have hone := trimEnd_append_cons hc [] r
    have htwo := trimEnd_append_cons hc [] (trimEnd r)
    rw [List.nil_append, List.nil_append] at hone htwo
    rw [hone, htwo, hidem]

theorem isWhite_digit {c : Char} (h : c.isDigit = true) : isWhite c = false := by
  obtain ⟨hlow, hhigh⟩ : 48 ≤ c.toNat ∧ c.toNat ≤ 57 := by
    simpa [Char.isDigit, UInt32.le_iff_toNat_le] using h
  simp only [isWhite, Bool.or_eq_false_iff, Bool.and_eq_false_iff, decide_eq_false_iff_not,
    beq_eq_false_iff_ne]
  omega

theorem isDigit_toDigits {n : Nat} {c : Char} (h : c ∈ Nat.toDigits 10 n) : c.isDigit = true :=
  Nat.isDigit_of_mem_toDigits (by decide) (by decide) h

/-- A decimal number is read back if it is in range. -/
theorem parseUnsigned_toDigits (bound n : Nat) :
    parseUnsigned bound (Nat.toDigits 10 n) = if n < bound then some n else none := by
  have hplus : dropPlus (Nat.toDigits 10 n) = Nat.toDigits 10 n := by
    unfold dropPlus
    split
    · next rest heq => exact absurd (isDigit_toDigits (heq ▸ List.mem_cons_self)) (by decide)
    · rfl
  have hvalue : digitsValue (Nat.toDigits 10 n) = n := Nat.ofDigitChars_ten_toDigits
  have hall : (Nat.toDigits 10 n).all Char.isDigit = true :=
    List.all_eq_true.mpr (fun c hc => isDigit_toDigits hc)
  simp only [parseUnsigned, hplus, hvalue]
  by_cases hn : n < bound
  · rw [if_pos hn, if_pos ⟨Nat.toDigits_ne_nil, hall, hn⟩]
  · rw [if_neg hn, if_neg (fun h => hn h.2.2)]

/-! ## Lines -/

theorem splitInclusive_append {l s : List Char} (h : '\n' ∉ l) :
    splitInclusive (l ++ '\n' :: s) = (l ++ ['\n']) :: splitInclusive s := by
  induction l with
  | nil => rfl
  | cons c l ih =>
    obtain ⟨hc, hl⟩ : '\n' ≠ c ∧ '\n' ∉ l := by simpa [not_or] using h
    rw [List.cons_append, splitInclusive, ih hl]
    · rfl
    · exact fun heq => hc heq.symm

theorem splitInclusive_line {l : List Char} (h : '\n' ∉ l) (hne : l ≠ []) :
    splitInclusive l = [l] := by
  induction l with
  | nil => exact absurd rfl hne
  | cons c l ih =>
    obtain ⟨hc, hl⟩ : '\n' ≠ c ∧ '\n' ∉ l := by simpa [not_or] using h
    rw [splitInclusive]
    · cases l with
      | nil => rfl
      | cons d l => rw [ih hl (by simp)]
    · exact fun heq => hc heq.symm

theorem splitInclusive_cons {c : Char} (hc : c ≠ '\n') (s : List Char) :
    splitInclusive (c :: s) =
      match splitInclusive s with
      | [] => [[c]]
      | l :: ls => (c :: l) :: ls := by
  rw [splitInclusive]
  exact hc

theorem splitInclusive_ne_nil (c : Char) (s : List Char) : splitInclusive (c :: s) ≠ [] := by
  by_cases hc : c = '\n'
  · subst hc
    simp [splitInclusive]
  · rw [splitInclusive_cons hc]
    cases splitInclusive s <;> simp

/-- A line break ends a line, whatever follows. -/
theorem splitInclusive_break (l s : List Char) :
    splitInclusive (l ++ '\n' :: s) = splitInclusive (l ++ ['\n']) ++ splitInclusive s := by
  induction l with
  | nil => rfl
  | cons c l ih =>
    by_cases hc : c = '\n'
    · subst hc
      show ['\n'] :: splitInclusive (l ++ '\n' :: s) =
        ['\n'] :: splitInclusive (l ++ ['\n']) ++ splitInclusive s
      rw [ih, List.cons_append]
    · rw [List.cons_append, List.cons_append, splitInclusive_cons hc, splitInclusive_cons hc, ih]
      cases hsplit : splitInclusive (l ++ ['\n']) with
      | nil => cases l <;> exact absurd hsplit (splitInclusive_ne_nil _ _)
      | cons k ks => rfl

/-- What a line of a text may be: it holds no line break and ends in no carriage
return. -/
def IsLine (l : List Char) : Prop := '\n' ∉ l ∧ l.getLast? ≠ some '\r'

theorem stripLineEnding_newline {l : List Char} (h : l.getLast? ≠ some '\r') :
    stripLineEnding (l ++ ['\n']) = l := by
  unfold stripLineEnding
  rw [List.reverse_append]
  rw [List.getLast?_eq_head?_reverse] at h
  rw [← List.reverse_reverse l]
  generalize l.reverse = r at h
  rw [List.reverse_reverse]
  cases r with
  | nil => rfl
  | cons c r =>
    have hc : c ≠ '\r' := fun heq => h (by rw [heq]; rfl)
    simp only [List.reverse_cons, List.reverse_nil, List.nil_append, List.cons_append]
    split
    · next heq =>
      injection heq with _ heq
      injection heq with hr
      exact absurd hr hc
    · next heq =>
      injection heq with _ heq
      rw [← heq]
      simp
    · next hno => exact absurd rfl (hno _)

theorem stripLineEnding_crlf (l : List Char) : stripLineEnding (l ++ ['\r', '\n']) = l := by
  unfold stripLineEnding
  rw [List.reverse_append]
  simp

theorem stripLineEnding_line {l : List Char} (h : '\n' ∉ l) : stripLineEnding l = l := by
  have hrev : '\n' ∉ l.reverse := by simpa using h
  unfold stripLineEnding
  split
  · next heq =>
    rw [heq] at hrev
    simp at hrev
  · next heq =>
    rw [heq] at hrev
    simp at hrev
  · rfl

theorem lines_append {l s : List Char} (h : IsLine l) : lines (l ++ '\n' :: s) = l :: lines s := by
  rw [lines, splitInclusive_append h.1, List.map_cons, stripLineEnding_newline h.2]
  rfl

theorem lines_break (l s : List Char) :
    lines (l ++ '\n' :: s) = lines (l ++ ['\n']) ++ lines s := by
  rw [lines, splitInclusive_break, List.map_append]
  rfl

/-- Joined lines up to one of them do not depend on those that follow. -/
theorem exists_lines_join (before : List (List Char)) {l : List Char} (h : IsLine l) :
    ∃ first, l ∈ first ∧ ∀ after, after ≠ [] →
      lines (join ['\n'] (before ++ l :: after)) = first ++ lines (join ['\n'] after) := by
  induction before with
  | nil =>
    refine ⟨[l], List.mem_cons_self, fun after hafter => ?_⟩
    rw [List.nil_append, join, List.intercalate_cons_of_ne_nil hafter, List.append_assoc,
      List.singleton_append, lines_append h]
    rfl
  | cons k before ih =>
    obtain ⟨first, hmem, hfirst⟩ := ih
    refine ⟨lines (k ++ ['\n']) ++ first, List.mem_append_right _ hmem, fun after hafter => ?_⟩
    rw [join, List.cons_append, List.intercalate_cons_of_ne_nil (by simp), List.append_assoc,
      List.singleton_append, lines_break, List.append_assoc]
    exact congrArg (lines (k ++ ['\n']) ++ ·) (hfirst after hafter)

theorem lines_crlf_append {l s : List Char} (h : '\n' ∉ l) :
    lines (l ++ '\r' :: '\n' :: s) = l :: lines s := by
  have hcr : '\n' ∉ l ++ ['\r'] := by simpa using h
  rw [List.append_cons, lines, splitInclusive_append hcr, List.map_cons, List.append_assoc]
  rw [show ['\r'] ++ ['\n'] = ['\r', '\n'] from rfl, stripLineEnding_crlf]
  rfl

theorem lines_line {l : List Char} (h : '\n' ∉ l) (hne : l ≠ []) : lines l = [l] := by
  rw [lines, splitInclusive_line h hne, List.map_singleton, stripLineEnding_line h]

/-- The lines that were joined are read back. -/
theorem lines_join {ls : List (List Char)} {last : List Char} (h : ∀ l ∈ ls, IsLine l)
    (hlast : '\n' ∉ last) (hne : last ≠ []) :
    lines (join ['\n'] (ls ++ [last])) = ls ++ [last] := by
  induction ls with
  | nil =>
    rw [join, List.nil_append, List.intercalate_singleton]
    exact lines_line hlast hne
  | cons l ls ih =>
    rw [join, List.cons_append, List.intercalate_cons_of_ne_nil (by simp), List.append_assoc,
      List.singleton_append, lines_append (h l List.mem_cons_self)]
    exact congrArg (l :: ·) (ih (fun k hk => h k (List.mem_cons_of_mem l hk)))

/-- The lines of a text that is followed by a line break and a last line. -/
theorem lines_body {ls : List (List Char)} {last : List Char} (h : ∀ l ∈ ls, IsLine l)
    (hls : ls ≠ []) (hlast : '\n' ∉ last) (hne : last ≠ []) :
    lines (join ['\n'] ls ++ '\r' :: '\n' :: last) = ls ++ [last] := by
  induction ls with
  | nil => exact absurd rfl hls
  | cons l ls ih =>
    have hl := h l List.mem_cons_self
    cases ls with
    | nil =>
      rw [join, List.intercalate_singleton, lines_crlf_append hl.1, lines_line hlast hne]
      rfl
    | cons k ls =>
      rw [join, List.intercalate_cons_cons, List.append_assoc, List.append_assoc,
        List.singleton_append, lines_append hl]
      exact congrArg (l :: ·) (ih (fun j hj => h j (List.mem_cons_of_mem l hj)) (by simp))

theorem not_mem_of_mem_splitOn {s l : List Char} {c : Char} (h : l ∈ s.splitOn c) : c ∉ l := by
  induction s generalizing l with
  | nil =>
    rw [List.splitOn_nil, List.mem_singleton] at h
    rw [h]
    simp
  | cons d s ih =>
    rw [List.splitOn_cons_eq_if_modifyHead] at h
    by_cases hd : d = c
    · rw [if_pos (by simpa using hd)] at h
      rcases List.mem_cons.mp h with rfl | h
      · simp
      · exact ih h
    · rw [if_neg (by simpa using hd)] at h
      cases hs : s.splitOn c with
      | nil => exact absurd hs (List.splitOn_ne_nil c s)
      | cons k ls =>
        rw [hs] at h ih
        rcases List.mem_cons.mp h with rfl | h
        · have hk := ih List.mem_cons_self
          simp [Ne.symm hd, hk]
        · exact ih (List.mem_cons_of_mem k h)

end Text
