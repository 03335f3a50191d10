/-
A strict reader of HTML.

The reader takes the documents that need no repair: every element is closed by
its own end tag, except the void ones; names are in lower case; attribute values
stand in double quotes; and every `&` begins one of four character references.
All others it refuses.  It starts from the characters as they come: line ends are
normalised before anything is read, and null characters are dropped from the texts
and replaced in the values of attributes.  Elements it takes as they are nested;
which of them may stand in which is not its concern.

`escape` makes any text fit for such a document.  A tree that is written out with
its texts and attribute values escaped is read back with the same elements, and
its texts and values as a reader receives them (`parse_write`).  Without carriage
returns and null characters that is as they were (`received_of_write`).
-/
import GreenRelay.Lib.Text

namespace Markup

open Text

/-- Closed strings are quicker to compare than their lists of characters. -/
theorem eq_toList {cs : List Char} {s : String} (h : String.ofList cs = s) : cs = s.toList := by
  rw [← h, String.toList_ofList]

/-! ## Character references -/

def escapeChar (c : Char) : List Char :=
  if c = '&' then "&amp;".toList
  else if c = '<' then "&lt;".toList
  else if c = '>' then "&gt;".toList
  else if c = '"' then "&quot;".toList
  else [c]

def escape (s : List Char) : List Char := s.flatMap escapeChar

/-- What follows the `&` of a reference. -/
def entities : List (List Char) := ["amp;".toList, "lt;".toList, "gt;".toList, "quot;".toList]

/-- A text with its references resolved. -/
def decode : List Char → Option (List Char)
  | [] => some []
  | '&' :: 'a' :: 'm' :: 'p' :: ';' :: s => (decode s).map ('&' :: ·)
  | '&' :: 'l' :: 't' :: ';' :: s => (decode s).map ('<' :: ·)
  | '&' :: 'g' :: 't' :: ';' :: s => (decode s).map ('>' :: ·)
  | '&' :: 'q' :: 'u' :: 'o' :: 't' :: ';' :: s => (decode s).map ('"' :: ·)
  | c :: s => if c = '&' then none else (decode s).map (c :: ·)

theorem escape_append (s t : List Char) : escape (s ++ t) = escape s ++ escape t :=
  List.flatMap_append

theorem escape_empty : escape "".toList = [] := rfl

/-- A text without special characters stays as it is. -/
theorem escape_plain {s : List Char} (h : ∀ c ∈ s, c ∉ ['&', '<', '>', '"']) : escape s = s := by
  induction s with
  | nil => rfl
  | cons c s ih =>
    have hc := h c List.mem_cons_self
    have hchar : escapeChar c = [c] := by
      simp only [List.mem_cons, List.not_mem_nil, or_false, not_or] at hc
      rw [escapeChar, if_neg hc.1, if_neg hc.2.1, if_neg hc.2.2.1, if_neg hc.2.2.2]
    show escapeChar c ++ escape s = c :: s
    rw [hchar, ih (fun d hd => h d (List.mem_cons_of_mem c hd))]
    rfl

theorem decode_escapeChar (c : Char) (t : List Char) :
    decode (escapeChar c ++ t) = (decode t).map (c :: ·) := by
  unfold escapeChar
  split_ifs with hamp hlt hgt hquot
  · subst hamp; rfl
  · subst hlt; rfl
  · subst hgt; rfl
  · subst hquot; rfl
  · simp [decode, hamp]

theorem decode_escape (s : List Char) : decode (escape s) = some s := by
  induction s with
  | nil => rfl
  | cons c s ih =>
    show decode (escapeChar c ++ escape s) = some (c :: s)
    rw [decode_escapeChar, ih]
    rfl

/-- A character stays, or a reference stands for it. -/
theorem escapeChar_cases (c : Char) :
    c ∉ ['&', '<', '>', '"'] ∧ escapeChar c = [c] ∨ ∃ e ∈ entities, escapeChar c = '&' :: e := by
  unfold escapeChar
  split_ifs with hamp hlt hgt hquot
  · exact .inr ⟨"amp;".toList, by decide, rfl⟩
  · exact .inr ⟨"lt;".toList, by decide, rfl⟩
  · exact .inr ⟨"gt;".toList, by decide, rfl⟩
  · exact .inr ⟨"quot;".toList, by decide, rfl⟩
  · exact .inl ⟨by simp [hamp, hlt, hgt, hquot], rfl⟩

theorem not_mem_entity {m : Char} (h : m ∈ ['&', '<', '>', '"']) {e : List Char}
    (he : e ∈ entities) : m ∉ e := by
  have hall : entities.all (fun e => ['&', '<', '>', '"'].all (fun m => !e.contains m)) = true := by
    decide
  have hm := List.all_eq_true.mp (List.all_eq_true.mp hall e he) m h
  simpa using hm

/-- No markup is left in an escaped text. -/
theorem not_mem_escape {m : Char} (h : m ∈ ['<', '>', '"']) (s : List Char) : m ∉ escape s := by
  intro hm
  have hm' : m ∈ ['&', '<', '>', '"'] := List.mem_cons_of_mem _ h
  obtain ⟨c, -, hc⟩ := List.mem_flatMap.mp hm
  rcases escapeChar_cases c with ⟨hplain, heq⟩ | ⟨e, he, heq⟩
  · rw [heq, List.mem_singleton] at hc
    exact hplain (hc ▸ hm')
  · rw [heq, List.mem_cons] at hc
    rcases hc with rfl | hc
    · exact absurd h (by decide)
    · exact not_mem_entity hm' he hc

theorem escapeChar_ampersand {c : Char} {a r : List Char} (h : escapeChar c = a ++ '&' :: r) :
    r ∈ entities := by
  rcases escapeChar_cases c with ⟨hplain, heq⟩ | ⟨e, he, heq⟩
  · have hmem : '&' ∈ [c] := by rw [← heq, h]; simp
    obtain rfl := List.mem_singleton.mp hmem
    exact absurd hplain (by decide)
  · rw [heq] at h
    cases a with
    | nil => rwa [(List.cons.inj h).2] at he
    | cons d a =>
      refine absurd ?_ (not_mem_entity (m := '&') (by decide) he)
      rw [(List.cons.inj h).2]
      exact List.mem_append_right a List.mem_cons_self

/-- Every `&` of an escaped text begins a reference. -/
theorem escape_ampersand {s a b : List Char} (h : escape s = a ++ '&' :: b) :
    ∃ e ∈ entities, e <+: b := by
  induction s generalizing a with
  | nil => simp [escape] at h
  | cons c s ih =>
    rcases List.append_eq_append_iff.mp (show escapeChar c ++ escape s = a ++ '&' :: b from h) with
      ⟨a', rfl, htail⟩ | ⟨r, hc, htail⟩
    · exact ih htail
    · cases r with
      | nil => exact ih (a := []) (by simpa using htail.symm)
      | cons d r =>
        obtain ⟨rfl, rfl⟩ := List.cons.inj htail
        exact ⟨r, escapeChar_ampersand hc, List.prefix_append r _⟩

/-! ## Received texts -/

/-- A carriage return is read as a line feed, and a line feed that comes right
after one is passed over. -/
def normaliseAfter : Bool → List Char → List Char
  | _, [] => []
  | cr, c :: s =>
    if c = '\r' then '\n' :: normaliseAfter true s
    else if c = '\n' ∧ cr then normaliseAfter false s
    else c :: normaliseAfter false s

def normalise (s : List Char) : List Char := normaliseAfter false s

def null : Char := '\x00'

def replacement : Char := '\uFFFD'

def dropNulls (s : List Char) : List Char := s.filter (· ≠ null)

def replaceNulls (s : List Char) : List Char := s.map (fun c => if c = null then replacement else c)

def linesOf (s : String) : String := String.ofList (normalise s.toList)

/-- What is read of a text once its references are resolved. -/
def textOf (s : List Char) : String := String.ofList (dropNulls s)

/-- What is read of the value of an attribute. -/
def valueOf (s : List Char) : String := String.ofList (replaceNulls s)

/-- What is received of a text. -/
def receivedText (s : String) : String := textOf (normalise s.toList)

/-- What is received of the value of an attribute. -/
def receivedValue (s : String) : String := valueOf (normalise s.toList)

/-- The characters that are received as they are. -/
def isPlain (c : Char) : Bool := c ≠ '\r' && c ≠ null

def Plain (s : List Char) : Prop := ∀ c ∈ s, isPlain c = true

instance instDecidablePlain (s : List Char) : Decidable (Plain s) :=
  decidable_of_iff (s.all isPlain = true) List.all_eq_true

def isLineEnd (c : Char) : Bool := c = '\r' || c = '\n'

def NoLineEnd (s : List Char) : Prop := ∀ c ∈ s, isLineEnd c = false

instance instDecidableNoLineEnd (s : List Char) : Decidable (NoLineEnd s) :=
  decidable_of_iff (s.any isLineEnd = false) (by simp [NoLineEnd])

theorem normaliseAfter_skip {c : Char} {s : List Char}
    (h : NoLineEnd (c :: s)) (cr : Bool) (t : List Char) :
    normaliseAfter cr (c :: s ++ t) = c :: s ++ normaliseAfter false t := by
  induction s generalizing c cr with
  | nil =>
    have hc := h c List.mem_cons_self
    simp only [isLineEnd, Bool.or_eq_false_iff, decide_eq_false_iff_not] at hc
    simp [normaliseAfter, hc.1, hc.2]
  | cons d s ih =>
    have hc := h c List.mem_cons_self
    have hrest := ih (fun e he => h e (List.mem_cons_of_mem c he)) false
    simp only [isLineEnd, Bool.or_eq_false_iff, decide_eq_false_iff_not] at hc
    simp only [List.cons_append] at hrest ⊢
    rw [normaliseAfter, if_neg hc.1, if_neg (fun hn => hc.2 hn.1), hrest]

theorem normalise_skip {s : List Char} (h : NoLineEnd s) (t : List Char) :
    normalise (s ++ t) = s ++ normalise t := by
  cases s with
  | nil => rfl
  | cons c s => exact normaliseAfter_skip h false t

/-- Nothing is normalised across a character that is no line feed. -/
theorem normaliseAfter_append {c : Char} (h : c ≠ '\n') (cr : Bool) (s t : List Char) :
    normaliseAfter cr (s ++ c :: t) = normaliseAfter cr s ++ normalise (c :: t) := by
  induction s generalizing cr with
  | nil =>
    simp only [List.nil_append, normalise, normaliseAfter, h, false_and, if_false]
  | cons d s ih =>
    rw [List.cons_append, normaliseAfter, normaliseAfter]
    split
    · rw [ih, List.cons_append]
    · split
      · exact ih false
      · rw [ih, List.cons_append]

theorem noLineEnd_entity {e : List Char} (h : e ∈ entities) : NoLineEnd ('&' :: e) := by
  revert e
  decide

/-- Line ends are normalised alike before a text is escaped and after. -/
theorem normaliseAfter_escape (cr : Bool) (s : List Char) :
    normaliseAfter cr (escape s) = escape (normaliseAfter cr s) := by
  induction s generalizing cr with
  | nil => rfl
  | cons c s ih =>
    show normaliseAfter cr (escapeChar c ++ escape s) = escape (normaliseAfter cr (c :: s))
    by_cases hcr : c = '\r'
    · subst hcr
      exact congrArg ('\n' :: ·) (ih true)
    · by_cases hskip : c = '\n' ∧ cr = true
      · obtain ⟨rfl, rfl⟩ := hskip
        exact ih false
      · have hkept : normaliseAfter cr (c :: s) = c :: normaliseAfter false s := by
          rw [normaliseAfter, if_neg hcr, if_neg hskip]
        rw [hkept]
        show _ = escapeChar c ++ escape (normaliseAfter false s)
        rcases escapeChar_cases c with ⟨_, heq⟩ | ⟨e, he, heq⟩
        · rw [heq, List.singleton_append, normaliseAfter, if_neg hcr, if_neg hskip, ih]
          rfl
        · rw [heq, normaliseAfter_skip (noLineEnd_entity he), ih]

/-- An escaped text before a character of the markup. -/
theorem normalise_escape {c : Char} (h : c ≠ '\n') (s t : List Char) :
    normalise (escape s ++ c :: t) = escape (normalise s) ++ normalise (c :: t) := by
  rw [normalise, normaliseAfter_append h, normaliseAfter_escape]
  rfl

theorem normalise_plain {s : List Char} (h : Plain s) : normalise s = s := by
  unfold normalise
  induction s with
  | nil => rfl
  | cons c s ih =>
    have hc := h c List.mem_cons_self
    simp only [isPlain, Bool.and_eq_true, decide_eq_true_eq] at hc
    rw [normaliseAfter, if_neg hc.1, if_neg (by simp),
      ih (fun d hd => h d (List.mem_cons_of_mem c hd))]

theorem receivedText_plain {s : String} (h : Plain s.toList) : receivedText s = s := by
  have hkept : dropNulls s.toList = s.toList := by
    rw [dropNulls, List.filter_eq_self]
    intro c hc
    have hplain := h c hc
    simp only [isPlain, Bool.and_eq_true] at hplain
    exact hplain.2
  rw [receivedText, normalise_plain h, textOf, hkept, String.ofList_toList]

theorem receivedValue_plain {s : String} (h : Plain s.toList) : receivedValue s = s := by
  have hkept : replaceNulls s.toList = s.toList := by
    refine (List.map_congr_left (fun c hc => ?_)).trans (List.map_id _)
    have hplain := h c hc
    simp only [isPlain, Bool.and_eq_true, decide_eq_true_eq] at hplain
    exact if_neg hplain.2
  rw [receivedValue, normalise_plain h, valueOf, hkept, String.ofList_toList]

/-! ## Documents -/

inductive Tag
  | start (name : String) (attrs : List (String × String))
  | close (name : String)
  deriving DecidableEq, Repr

/-- A tag with the text before it. -/
structure Piece where
  before : String
  tag : Tag
  deriving DecidableEq, Repr

/-- Elements that follow each other, each with the text before it, and the text
after the last.  Two tags with nothing between them have the empty text there. -/
inductive Forest
  | text (last : String)
  | void (before name : String) (attrs : List (String × String)) (rest : Forest)
  | element (before name : String) (attrs : List (String × String)) (children rest : Forest)
  deriving DecidableEq, Repr

def voids : List String :=
  ["area", "base", "br", "col", "embed", "hr", "img", "input", "link", "meta", "source", "track",
    "wbr"]

/-! ## Writing -/

def writeAttr (a : String × String) : List Char :=
  ' ' :: (a.1.toList ++ '=' :: '"' :: (escape a.2.toList ++ ['"']))

def Tag.write : Tag → List Char
  | .start name attrs => '<' :: (name.toList ++ (attrs.flatMap writeAttr ++ ['>']))
  | .close name => '<' :: '/' :: (name.toList ++ ['>'])

def Piece.write (p : Piece) : List Char := escape p.before.toList ++ p.tag.write

def Forest.write : Forest → List Char
  | .text last => escape last.toList
  | .void before name attrs rest =>
    escape before.toList ++ ((Tag.start name attrs).write ++ rest.write)
  | .element before name attrs children rest =>
    escape before.toList ++ ((Tag.start name attrs).write ++
      (children.write ++ ((Tag.close name).write ++ rest.write)))

/-- The same elements with other texts and values. -/
def Forest.mapTexts (text value : String → String) : Forest → Forest
  | .text last => .text (text last)
  | .void before name attrs rest =>
    .void (text before) name (attrs.map (fun a => (a.1, value a.2))) (rest.mapTexts text value)
  | .element before name attrs children rest =>
    .element (text before) name (attrs.map (fun a => (a.1, value a.2)))
      (children.mapTexts text value)
      (rest.mapTexts text value)

def Tag.mapValues (value : String → String) : Tag → Tag
  | .start name attrs => .start name (attrs.map (fun a => (a.1, value a.2)))
  | .close name => .close name

def Piece.mapTexts (text value : String → String) (p : Piece) : Piece :=
  ⟨text p.before, p.tag.mapValues value⟩

/-- What is received of a document. -/
def Forest.received : Forest → Forest := Forest.mapTexts receivedText receivedValue

/-- The text that the last tag is followed by. -/
def Forest.last : Forest → String
  | .text last => last
  | .void _ _ _ rest => rest.last
  | .element _ _ _ _ rest => rest.last

def Forest.pieces : Forest → List Piece
  | .text _ => []
  | .void before name attrs rest => ⟨before, .start name attrs⟩ :: rest.pieces
  | .element before name attrs children rest =>
    ⟨before, .start name attrs⟩ :: (children.pieces ++ ⟨children.last, .close name⟩ :: rest.pieces)

theorem Forest.last_mapTexts (text value : String → String) (f : Forest) :
    (f.mapTexts text value).last = text f.last := by
  induction f with
  | text last => rfl
  | void before name attrs rest ih => exact ih
  | element before name attrs children rest _ ih => exact ih

theorem Forest.mapTexts_mapTexts (text value text' value' : String → String) (f : Forest) :
    (f.mapTexts text value).mapTexts text' value' = f.mapTexts (text' ∘ text) (value' ∘ value) := by
  induction f with
  | text last => rfl
  | void before name attrs rest ih => simp [Forest.mapTexts, ih]
  | element before name attrs children rest ihc ih => simp [Forest.mapTexts, ihc, ih]

theorem Forest.pieces_mapTexts (text value : String → String) (f : Forest) :
    (f.mapTexts text value).pieces = f.pieces.map (Piece.mapTexts text value) := by
  induction f with
  | text last => rfl
  | void before name attrs rest ih =>
    simp [Forest.mapTexts, Forest.pieces, Piece.mapTexts, Tag.mapValues, ih]
  | element before name attrs children rest ihc ih =>
    simp [Forest.mapTexts, Forest.pieces, Piece.mapTexts, Tag.mapValues, ihc, ih,
      Forest.last_mapTexts]

theorem Forest.write_pieces (f : Forest) :
    f.write = f.pieces.flatMap Piece.write ++ escape f.last.toList := by
  induction f with
  | text last => rfl
  | void before name attrs rest ih =>
    simp [Forest.write, Forest.pieces, Forest.last, Piece.write, ih]
  | element before name attrs children rest ihc ih =>
    simp [Forest.write, Forest.pieces, Forest.last, Piece.write, ihc, ih]

/-- Without a text before it, an element begins with its start tag. -/
theorem write_void (name : String) (attrs : List (String × String)) (rest : Forest) :
    (Forest.void "" name attrs rest).write = (Tag.start name attrs).write ++ rest.write := by
  rw [Forest.write, escape_empty, List.nil_append]

theorem write_element (name : String) (attrs : List (String × String)) (children rest : Forest) :
    (Forest.element "" name attrs children rest).write = (Tag.start name attrs).write ++
      (children.write ++ ((Tag.close name).write ++ rest.write)) := by
  rw [Forest.write, escape_empty, List.nil_append]

theorem write_text (s : String) : (Forest.text s).write = escape s.toList := rfl

/-- A start tag up to the value of its last attribute. -/
def startUpTo (name : String) (attrs : List (String × String)) (attr : String) : List Char :=
  '<' :: (name.toList ++ (attrs.flatMap writeAttr ++ ' ' :: (attr.toList ++ ['=', '"'])))

theorem write_start_concat (name : String) (attrs : List (String × String)) (attr value : String) :
    (Tag.start name (attrs ++ [(attr, value)])).write =
      startUpTo name attrs attr ++ (escape value.toList ++ ['"', '>']) := by
  simp [Tag.write, startUpTo, writeAttr]

/-! ## Reading tags -/

/-- A start tag whose end has not been read. -/
structure Opening where
  before : String
  name : String
  attrs : List (String × String)

/-- Where the reader stands, with what it has read of the part it is in. -/
inductive Mode
  | text (read : List Char)
  | opened (before : String)
  | closing (before : String) (name : List Char)
  | naming (before : String) (name : List Char)
  | within (tag : Opening)
  | attrName (tag : Opening) (name : List Char)
  | equals (tag : Opening) (name : String)
  | value (tag : Opening) (name : String) (read : List Char)

def isNameChar (c : Char) : Bool := c.isLower || c.isDigit

def IsName (name : String) : Prop :=
  name.toList.head?.any Char.isLower = true ∧ name.toList.all isNameChar = true

instance instDecidableIsName (name : String) : Decidable (IsName name) :=
  inferInstanceAs (Decidable (_ ∧ _))

/-- After the name of a start tag, and after a value. -/
def betweenAttrs (tag : Opening) (c : Char) : Option (List Piece × Mode) :=
  if c = ' ' then some ([], .attrName tag [])
  else if c = '>' then some ([⟨tag.before, .start tag.name tag.attrs⟩], .text [])
  else none

def step : Mode → Char → Option (List Piece × Mode)
  | .text read, c =>
    if c = '<' then (decode read).map (fun t => ([], .opened (textOf t)))
    else some ([], .text (read ++ [c]))
  | .opened before, c =>
    if c = '/' then some ([], .closing before [])
    else if c.isLower then some ([], .naming before [c])
    else none
  | .closing before name, c =>
    if isNameChar c then some ([], .closing before (name ++ [c]))
    else if c = '>' then some ([⟨before, .close (String.ofList name)⟩], .text [])
    else none
  | .naming before name, c =>
    if isNameChar c then some ([], .naming before (name ++ [c]))
    else betweenAttrs ⟨before, String.ofList name, []⟩ c
  | .within tag, c => betweenAttrs tag c
  | .attrName tag name, c =>
    if isNameChar c then some ([], .attrName tag (name ++ [c]))
    else if c = '=' ∧ name ≠ [] then some ([], .equals tag (String.ofList name))
    else none
  | .equals tag name, c => if c = '"' then some ([], .value tag name []) else none
  | .value tag name read, c =>
    if c = '"' then (decode read).map (fun v =>
      ([], .within ⟨tag.before, tag.name, tag.attrs ++ [(name, valueOf v)]⟩))
    else some ([], .value tag name (read ++ [c]))

def run : Mode → List Char → Option (List Piece × Mode)
  | m, [] => some ([], m)
  | m, c :: s => (step m c).bind (fun p => (run p.2 s).map (fun q => (p.1 ++ q.1, q.2)))

/-- The pieces of a document and the text after the last. -/
def tokenize (s : List Char) : Option (List Piece × String) :=
  match run (.text []) s with
  | some (pieces, .text read) => (decode read).map (fun last => (pieces, textOf last))
  | _ => none

/-! ## Reading trees -/

/-- The elements at the start of the pieces, and what follows each end tag whose
start tag is not among them. -/
def build : List Piece → String → Option (Forest × List (String × Forest))
  | [], last => some (.text last, [])
  | ⟨before, .close name⟩ :: pieces, last =>
    (build pieces last).map (fun p => (.text before, (name, p.1) :: p.2))
  | ⟨before, .start name attrs⟩ :: pieces, last =>
    (build pieces last).bind (fun p =>
      if name ∈ voids then some (.void before name attrs p.1, p.2)
      else match p.2 with
        | [] => none
        | (closed, rest) :: others =>
          if closed = name then some (.element before name attrs p.1 rest, others) else none)

def readForest (s : List Char) : Option Forest := do
  let (pieces, last) ← tokenize s
  let (f, unopened) ← build pieces last
  if unopened.isEmpty then some f else none

def doctype : List Char := "<!DOCTYPE html>".toList

def parse (s : List Char) : Option Forest := (stripPrefix doctype (normalise s)).bind readForest

/-! ## Tags are read as they were written -/

theorem run_append {m m' m'' : Mode} {s t : List Char} {ps qs : List Piece}
    (hs : run m s = some (ps, m')) (ht : run m' t = some (qs, m'')) :
    run m (s ++ t) = some (ps ++ qs, m'') := by
  induction s generalizing m ps with
  | nil =>
    obtain ⟨rfl, rfl⟩ : [] = ps ∧ m = m' := by simpa [run] using hs
    exact ht
  | cons c s ih =>
    obtain ⟨⟨ps₁, m₁⟩, hstep, hrest⟩ := Option.bind_eq_some_iff.mp hs
    obtain ⟨⟨ps₂, m₂⟩, hrun, heq⟩ := Option.map_eq_some_iff.mp hrest
    obtain ⟨rfl, rfl⟩ : ps₁ ++ ps₂ = ps ∧ m₂ = m' := by simpa using heq
    simp [run, hstep, ih hrun]

theorem run_cons {m m' m'' : Mode} {c : Char} {s : List Char} {ps qs : List Piece}
    (hc : step m c = some (ps, m')) (hs : run m' s = some (qs, m'')) :
    run m (c :: s) = some (ps ++ qs, m'') := by
  simp [run, hc, hs]

/-- A part is collected character by character. -/
theorem run_collect (m : List Char → Mode) {s : List Char}
    (h : ∀ read, ∀ c ∈ s, step (m read) c = some ([], m (read ++ [c]))) (read : List Char) :
    run (m read) s = some ([], m (read ++ s)) := by
  induction s generalizing read with
  | nil => simp [run]
  | cons c s ih =>
    have hs := ih (fun read c hc => h read c (List.mem_cons_of_mem _ hc)) (read ++ [c])
    have hrun := run_cons (h read c List.mem_cons_self) hs
    rwa [List.append_assoc, List.singleton_append] at hrun

theorem run_text (s : List Char) : run (.text []) (escape s) = some ([], .text (escape s)) := by
  refine run_collect Mode.text (fun read c hc => ?_) []
  have hne : c ≠ '<' := fun e => not_mem_escape (by decide) s (e ▸ hc)
  exact if_neg hne

theorem run_value (tag : Opening) (name : String) (s : List Char) :
    run (.value tag name []) (escape s) = some ([], .value tag name (escape s)) := by
  refine run_collect (Mode.value tag name) (fun read c hc => ?_) []
  have hne : c ≠ '"' := fun e => not_mem_escape (by decide) s (e ▸ hc)
  exact if_neg hne

theorem IsName.chars {name : String} (h : IsName name) : ∀ c ∈ name.toList, isNameChar c = true :=
  List.all_eq_true.mp h.2

theorem IsName.head {name : String} (h : IsName name) :
    ∃ c cs, name.toList = c :: cs ∧ c.isLower = true := by
  have hhead := h.1
  cases hs : name.toList with
  | nil => rw [hs] at hhead; exact absurd hhead (by decide)
  | cons c cs => rw [hs] at hhead; exact ⟨c, cs, rfl, hhead⟩

theorem run_attrName (tag : Opening) {name : String} (h : IsName name) :
    run (.attrName tag []) name.toList = some ([], .attrName tag name.toList) :=
  run_collect (Mode.attrName tag) (fun _ c hc => if_pos (h.chars c hc)) []

theorem run_closing (before : String) {name : String} (h : IsName name) :
    run (.closing before []) name.toList = some ([], .closing before name.toList) :=
  run_collect (Mode.closing before) (fun _ c hc => if_pos (h.chars c hc)) []

theorem run_naming (before : String) {name : String} (h : IsName name) :
    run (.opened before) name.toList = some ([], .naming before name.toList) := by
  obtain ⟨c, cs, heq, hlower⟩ := h.head
  have hchars := h.chars
  rw [heq] at hchars ⊢
  have hslash : c ≠ '/' := by rintro rfl; exact absurd hlower (by decide)
  have hstep : step (.opened before) c = some ([], .naming before [c]) := by
    rw [step, if_neg hslash, if_pos hlower]
  exact run_cons hstep (run_collect (Mode.naming before)
    (fun _ d hd => if_pos (hchars d (List.mem_cons_of_mem c hd))) [c])

def readAttr (a : String × String) : String × String := (a.1, valueOf a.2.toList)

/-- What is read of a piece that was written. -/
def Piece.read : Piece → Piece :=
  Piece.mapTexts (fun t => textOf t.toList) (fun v => valueOf v.toList)

theorem run_attr (tag : Opening) {a : String × String} (h : IsName a.1) :
    run (.within tag) (writeAttr a) =
      some ([], .within ⟨tag.before, tag.name, tag.attrs ++ [readAttr a]⟩) := by
  have hequals : step (.attrName tag a.1.toList) '=' = some ([], .equals tag a.1) := by
    have hne : a.1.toList ≠ [] := by
      obtain ⟨c, cs, heq, -⟩ := h.head
      rw [heq]
      exact List.cons_ne_nil c cs
    have hnot : isNameChar '=' = false := by decide
    simp [step, hne, hnot]
  have hend : run (.value tag a.1 (escape a.2.toList)) ['"'] =
      some ([], .within ⟨tag.before, tag.name, tag.attrs ++ [readAttr a]⟩) := by
    simp [run, step, decode_escape, readAttr]
  have hvalue : run (.equals tag a.1) ('"' :: (escape a.2.toList ++ ['"'])) =
      some ([], .within ⟨tag.before, tag.name, tag.attrs ++ [readAttr a]⟩) :=
    run_cons (rfl : step (.equals tag a.1) '"' = some ([], .value tag a.1 []))
      (run_append (run_value tag a.1 a.2.toList) hend)
  exact run_cons (rfl : step (.within tag) ' ' = some ([], .attrName tag []))
    (run_append (run_attrName tag h) (run_cons hequals hvalue))

theorem run_attrs (tag : Opening) {attrs : List (String × String)} (h : ∀ a ∈ attrs, IsName a.1) :
    run (.within tag) (attrs.flatMap writeAttr) =
      some ([], .within ⟨tag.before, tag.name, tag.attrs ++ attrs.map readAttr⟩) := by
  induction attrs generalizing tag with
  | nil => simp [run]
  | cons a attrs ih =>
    have hrest := ih ⟨tag.before, tag.name, tag.attrs ++ [readAttr a]⟩
      (fun b hb => h b (List.mem_cons_of_mem a hb))
    have hrun := run_append (run_attr tag (h a List.mem_cons_self)) hrest
    simpa using hrun

/-- A name ends where an attribute or the end of the tag begins. -/
theorem run_naming_end (before name : String) {c : Char} (h : c = ' ' ∨ c = '>') (s : List Char) :
    run (.naming before name.toList) (c :: s) = run (.within ⟨before, name, []⟩) (c :: s) := by
  have hstep : step (.naming before name.toList) c = step (.within ⟨before, name, []⟩) c := by
    have hnot : isNameChar c = false := by rcases h with rfl | rfl <;> decide
    rw [step, hnot, String.ofList_toList]
    rfl
  rw [run, run, hstep]

/-! ## Documents are read as they were written -/

/-- The names of a tag can be told from what follows them. -/
def Tag.Proper : Tag → Prop
  | .start name attrs => IsName name ∧ ∀ a ∈ attrs, IsName a.1
  | .close name => IsName name

theorem run_open (before : String) :
    run (.text []) (escape before.toList ++ ['<']) =
      some ([], .opened (textOf before.toList)) := by
  refine run_append (run_text before.toList) ?_
  simp [run, step, decode_escape]

theorem run_piece {p : Piece} (h : p.tag.Proper) :
    run (.text []) p.write = some ([p.read], .text []) := by
  obtain ⟨text, tag⟩ := p
  have hopen := run_open text
  generalize hbefore : textOf text.toList = before at hopen
  cases tag with
  | start name attrs =>
    obtain ⟨hname, hattrs⟩ := h
    have htag : run (.within ⟨before, name, []⟩) (attrs.flatMap writeAttr ++ ['>']) =
        some ([⟨before, .start name (attrs.map readAttr)⟩], .text []) :=
      run_append (run_attrs ⟨before, name, []⟩ hattrs) rfl
    have hend : run (.naming before name.toList) (attrs.flatMap writeAttr ++ ['>']) =
        some ([⟨before, .start name (attrs.map readAttr)⟩], .text []) := by
      cases attrs with
      | nil => rw [← htag]; exact run_naming_end before name (.inr rfl) []
      | cons a attrs => rw [← htag]; exact run_naming_end before name (.inl rfl) _
    have hrun := run_append hopen (run_append (run_naming before hname) hend)
    show _ = some ([Piece.mk (textOf text.toList) (.start name (attrs.map readAttr))], _)
    simpa [Piece.write, Tag.write, hbefore] using hrun
  | close name =>
    have hend : run (.closing before name.toList) ['>'] =
        some ([⟨before, .close name⟩], .text []) := by
      have hnot : isNameChar '>' = false := by decide
      simp [run, step, hnot]
    have hrun := run_append hopen
      (run_cons (rfl : step (.opened before) '/' = some ([], .closing before []))
        (run_append (run_closing before h) hend))
    show _ = some ([Piece.mk (textOf text.toList) (.close name)], _)
    simpa [Piece.write, Tag.write, hbefore] using hrun

theorem run_pieces {ps : List Piece} (h : ∀ p ∈ ps, p.tag.Proper) :
    run (.text []) (ps.flatMap Piece.write) = some (ps.map Piece.read, .text []) := by
  induction ps with
  | nil => rfl
  | cons p ps ih =>
    exact run_append (run_piece (h p List.mem_cons_self))
      (ih (fun q hq => h q (List.mem_cons_of_mem p hq)))

theorem tokenize_write {ps : List Piece} (h : ∀ p ∈ ps, p.tag.Proper) (last : String) :
    tokenize (ps.flatMap Piece.write ++ escape last.toList) =
      some (ps.map Piece.read, textOf last.toList) := by
  have hrun := run_append (run_pieces h) (run_text last.toList)
  rw [List.append_nil] at hrun
  rw [tokenize, hrun]
  simp [decode_escape]

/-- Void elements are the ones with a void name. -/
def Forest.Proper : Forest → Prop
  | .text _ => True
  | .void _ name attrs rest => (Tag.start name attrs).Proper ∧ name ∈ voids ∧ rest.Proper
  | .element _ name attrs children rest =>
    (Tag.start name attrs).Proper ∧ name ∉ voids ∧ children.Proper ∧ rest.Proper

theorem Forest.Proper.element {before name : String} {attrs : List (String × String)}
    {children rest : Forest} (hname : IsName name ∧ name ∉ voids)
    (hattrs : ∀ n ∈ attrs.map Prod.fst, IsName n) (hchildren : children.Proper)
    (hrest : rest.Proper) : (Forest.element before name attrs children rest).Proper :=
  ⟨⟨hname.1, fun _ ha => hattrs _ (List.mem_map_of_mem ha)⟩, hname.2, hchildren, hrest⟩

theorem Forest.Proper.pieces {f : Forest} (h : f.Proper) : ∀ p ∈ f.pieces, p.tag.Proper := by
  induction f with
  | text last => intro p hp; exact absurd hp List.not_mem_nil
  | void before name attrs rest ih =>
    intro p hp
    rcases List.mem_cons.mp hp with rfl | hp
    · exact h.1
    · exact ih h.2.2 p hp
  | element before name attrs children rest ihc ih =>
    obtain ⟨htag, -, hchildren, hrest⟩ := h
    intro p hp
    rcases List.mem_cons.mp hp with rfl | hp
    · exact htag
    · rcases List.mem_append.mp hp with hp | hp
      · exact ihc hchildren p hp
      · rcases List.mem_cons.mp hp with rfl | hp
        · exact htag.1
        · exact ih hrest p hp

/-- The pieces of a forest are taken off the front of what can be built. -/
theorem build_append {f : Forest} (h : f.Proper) {ps : List Piece} {last : String}
    {others : List (String × Forest)} (hps : build ps last = some (.text f.last, others)) :
    build (f.pieces ++ ps) last = some (f, others) := by
  induction f generalizing ps others with
  | text t => exact hps
  | void before name attrs rest ih =>
    obtain ⟨-, hvoid, hrest⟩ := h
    simp [Forest.pieces, build, ih hrest hps, hvoid]
  | element before name attrs children rest ihc ih =>
    obtain ⟨-, hvoid, hchildren, hrest⟩ := h
    have hafter := ih hrest hps
    have hclose : build (⟨children.last, .close name⟩ :: (rest.pieces ++ ps)) last =
        some (.text children.last, (name, rest) :: others) := by
      rw [build, hafter]
      rfl
    have hopen := ihc hchildren hclose
    simp [Forest.pieces, build, hopen, hvoid]

theorem Forest.Proper.mapTexts {f : Forest} (h : f.Proper) (text value : String → String) :
    (f.mapTexts text value).Proper := by
  have hattrs : ∀ {attrs : List (String × String)}, (∀ a ∈ attrs, IsName a.1) →
      ∀ a ∈ attrs.map (fun a => (a.1, value a.2)), IsName a.1 := by
    intro attrs h a ha
    obtain ⟨b, hb, rfl⟩ := List.mem_map.mp ha
    exact h b hb
  induction f with
  | text last => trivial
  | void before name attrs rest ih =>
    obtain ⟨⟨hname, hnames⟩, hvoid, hrest⟩ := h
    exact ⟨⟨hname, hattrs hnames⟩, hvoid, ih hrest⟩
  | element before name attrs children rest ihc ih =>
    obtain ⟨⟨hname, hnames⟩, hvoid, hchildren, hrest⟩ := h
    exact ⟨⟨hname, hattrs hnames⟩, hvoid, ihc hchildren, ih hrest⟩

/-- What was written is read back without its null characters. -/
theorem readForest_write {f : Forest} (h : f.Proper) :
    readForest f.write =
      some (f.mapTexts (fun t => textOf t.toList) (fun v => valueOf v.toList)) := by
  have hproper := h.mapTexts (fun t => textOf t.toList) (fun v => valueOf v.toList)
  have htokens : tokenize f.write = some (f.pieces.map Piece.read, textOf f.last.toList) := by
    rw [f.write_pieces]
    exact tokenize_write h.pieces f.last
  have hbuild := build_append hproper
    (rfl : build [] (f.mapTexts _ _).last = some (.text (f.mapTexts _ _).last, []))
  rw [List.append_nil, Forest.pieces_mapTexts, Forest.last_mapTexts] at hbuild
  rw [readForest, htokens]
  simp only [Option.bind_eq_bind, Option.bind_some]
  show (build (f.pieces.map (Piece.mapTexts _ _)) _).bind _ = _
  rw [hbuild]
  rfl

/-! ## Line ends -/

theorem IsName.noLineEnd {name : String} (h : IsName name) : NoLineEnd name.toList := by
  intro c hc
  have hchar := h.chars c hc
  by_contra hend
  simp only [isLineEnd, Bool.not_eq_false, Bool.or_eq_true, decide_eq_true_eq] at hend
  rcases hend with rfl | rfl <;> exact absurd hchar (by decide)

/-- A text before a character of the markup. -/
theorem normalise_text {c : Char} (h : isLineEnd c = false) (s : String) (t : List Char) :
    normalise (escape s.toList ++ c :: t) = escape (linesOf s).toList ++ c :: normalise t := by
  have hne : c ≠ '\n' := by
    rintro rfl
    exact absurd h (by decide)
  have hone : normalise (c :: t) = c :: normalise t :=
    normalise_skip (s := [c]) (List.forall_mem_singleton.mpr h) t
  rw [normalise_escape hne, hone, linesOf, String.toList_ofList]

theorem normalise_attr {a : String × String} (h : IsName a.1) (t : List Char) :
    normalise (writeAttr a ++ t) = writeAttr (a.1, linesOf a.2) ++ normalise t := by
  have hfront : NoLineEnd (' ' :: (a.1.toList ++ ['=', '"'])) :=
    List.forall_mem_cons.mpr ⟨by decide, List.forall_mem_append.mpr
      ⟨h.noLineEnd, show NoLineEnd ['=', '"'] by decide⟩⟩
  have hsplit : ∀ v t, writeAttr (a.1, v) ++ t =
      (' ' :: (a.1.toList ++ ['=', '"'])) ++ (escape v.toList ++ '"' :: t) := by
    intro v t
    simp [writeAttr]
  rw [hsplit a.2, normalise_skip hfront, normalise_text (by decide), ← hsplit]

theorem normalise_attrs {attrs : List (String × String)} (h : ∀ a ∈ attrs, IsName a.1)
    (t : List Char) : normalise (attrs.flatMap writeAttr ++ t) =
      (attrs.map (fun a => (a.1, linesOf a.2))).flatMap writeAttr ++ normalise t := by
  induction attrs with
  | nil => rfl
  | cons a attrs ih =>
    rw [List.flatMap_cons, List.append_assoc, normalise_attr (h a List.mem_cons_self),
      ih (fun b hb => h b (List.mem_cons_of_mem a hb)), List.map_cons, List.flatMap_cons,
      List.append_assoc]

theorem normalise_tag {tag : Tag} (h : tag.Proper) (t : List Char) :
    normalise (tag.write ++ t) = (tag.mapValues linesOf).write ++ normalise t := by
  cases tag with
  | start name attrs =>
    obtain ⟨hname, hattrs⟩ := h
    have hopen : NoLineEnd ('<' :: name.toList) :=
      List.forall_mem_cons.mpr ⟨by decide, hname.noLineEnd⟩
    have hsplit : (Tag.start name attrs).write ++ t =
        ('<' :: name.toList) ++ (attrs.flatMap writeAttr ++ (['>'] ++ t)) := by simp [Tag.write]
    rw [hsplit, normalise_skip hopen, normalise_attrs hattrs, normalise_skip (by decide)]
    simp [Tag.mapValues, Tag.write]
  | close name =>
    have hopen : NoLineEnd ('<' :: '/' :: (name.toList ++ ['>'])) := by
      refine List.forall_mem_cons.mpr ⟨by decide, List.forall_mem_cons.mpr ⟨by decide, ?_⟩⟩
      exact List.forall_mem_append.mpr ⟨h.noLineEnd, show NoLineEnd ['>'] by decide⟩
    exact normalise_skip hopen t

theorem normalise_piece {p : Piece} (h : p.tag.Proper) (t : List Char) :
    normalise (p.write ++ t) = (p.mapTexts linesOf linesOf).write ++ normalise t := by
  obtain ⟨before, tag⟩ := p
  have hbefore : normalise (escape before.toList ++ (tag.write ++ t)) =
      escape (linesOf before).toList ++ normalise (tag.write ++ t) := by
    rw [linesOf, String.toList_ofList]
    cases tag <;> exact normalise_escape (by decide) before.toList _
  rw [Piece.write, List.append_assoc, hbefore, normalise_tag h, ← List.append_assoc]
  rfl

theorem normalise_pieces {ps : List Piece} (h : ∀ p ∈ ps, p.tag.Proper) (t : List Char) :
    normalise (ps.flatMap Piece.write ++ t) =
      (ps.map (Piece.mapTexts linesOf linesOf)).flatMap Piece.write ++ normalise t := by
  induction ps with
  | nil => rfl
  | cons p ps ih =>
    rw [List.flatMap_cons, List.append_assoc, normalise_piece (h p List.mem_cons_self),
      ih (fun q hq => h q (List.mem_cons_of_mem p hq)), List.map_cons, List.flatMap_cons,
      List.append_assoc]

theorem normalise_write {f : Forest} (h : f.Proper) :
    normalise f.write = (f.mapTexts linesOf linesOf).write := by
  have hlast : normalise (escape f.last.toList) = escape (linesOf f.last).toList := by
    rw [normalise, normaliseAfter_escape, linesOf, String.toList_ofList, normalise]
  rw [f.write_pieces, normalise_pieces h.pieces, hlast, Forest.write_pieces,
    Forest.pieces_mapTexts, Forest.last_mapTexts]

/-- What was written is read back, the texts and the values of attributes as they
are received. -/
theorem parse_write {f : Forest} (h : f.Proper) :
    parse (doctype ++ f.write) = some f.received := by
  have hdoctype : NoLineEnd doctype := by decide
  rw [parse, normalise_skip hdoctype, normalise_write h, stripPrefix_eq_some.mpr rfl,
    Option.bind_some, readForest_write (h.mapTexts linesOf linesOf), Forest.mapTexts_mapTexts]
  have htext : (fun t => textOf t.toList) ∘ linesOf = receivedText := by
    funext t
    rw [Function.comp, linesOf, String.toList_ofList, receivedText]
  have hvalue : (fun v => valueOf v.toList) ∘ linesOf = receivedValue := by
    funext v
    rw [Function.comp, linesOf, String.toList_ofList, receivedValue]
  rw [htext, hvalue, Forest.received]

/-! ## Element structure -/

/-- The elements with the names of their attributes, without texts and values. -/
def Forest.skeleton : Forest → Forest
  | .text _ => .text ""
  | .void _ name attrs rest => .void "" name (attrs.map (fun a => (a.1, ""))) rest.skeleton
  | .element _ name attrs children rest =>
    .element "" name (attrs.map (fun a => (a.1, ""))) children.skeleton rest.skeleton

/-- The elements are received whatever the texts are. -/
theorem skeleton_received (f : Forest) : f.received.skeleton = f.skeleton := by
  unfold Forest.received
  induction f with
  | text last => rfl
  | void before name attrs rest ih => simp [Forest.mapTexts, Forest.skeleton, ih]
  | element before name attrs children rest ihc ih =>
    simp [Forest.mapTexts, Forest.skeleton, ihc, ih]

/-! ## Plain texts -/

theorem plain_append {s t : List Char} : Plain (s ++ t) ↔ Plain s ∧ Plain t :=
  List.forall_mem_append

theorem plain_flatMap {α : Type} {f : α → List Char} {as : List α} :
    Plain (as.flatMap f) ↔ ∀ a ∈ as, Plain (f a) := by
  simp only [Plain, List.mem_flatMap]
  exact ⟨fun h a ha c hc => h c ⟨a, ha, hc⟩, fun h c ⟨a, ha, hc⟩ => h a ha c hc⟩

theorem plain_escapeChar (c : Char) : Plain (escapeChar c) ↔ isPlain c = true := by
  unfold escapeChar
  split_ifs with hamp hlt hgt hquot
  · subst hamp; decide
  · subst hlt; decide
  · subst hgt; decide
  · subst hquot; decide
  · exact List.forall_mem_singleton

theorem plain_escape {s : List Char} : Plain (escape s) ↔ Plain s := by
  rw [escape, plain_flatMap]
  exact forall₂_congr (fun c _ => plain_escapeChar c)

theorem receivedValue_attrs {attrs : List (String × String)} (h : Plain (attrs.flatMap writeAttr)) :
    attrs.map (fun a => (a.1, receivedValue a.2)) = attrs := by
  refine (List.map_congr_left (fun a ha => ?_)).trans (List.map_id _)
  have hattr := plain_flatMap.mp h a ha
  have hvalue : Plain a.2.toList := by
    rw [← plain_escape]
    intro c hc
    exact hattr c (by simp [writeAttr, hc])
  rw [receivedValue_plain hvalue]
  rfl

/-- A document whose characters are plain is received as it was written. -/
theorem received_of_write {f : Forest} (h : Plain f.write) : f.received = f := by
  have hattrs : ∀ {name : String} {attrs : List (String × String)},
      Plain (Tag.start name attrs).write →
        attrs.map (fun a => (a.1, receivedValue a.2)) = attrs := by
    intro name attrs h
    refine receivedValue_attrs (fun c hc => h c ?_)
    simp [Tag.write, hc]
  unfold Forest.received
  induction f with
  | text last =>
    rw [Forest.mapTexts, receivedText_plain (plain_escape.mp h)]
  | void before name attrs rest ih =>
    obtain ⟨hbefore, htag, hrest⟩ : _ ∧ _ ∧ _ := by
      simpa only [Forest.write, plain_append, plain_escape] using h
    rw [Forest.mapTexts, receivedText_plain hbefore, hattrs htag, ih hrest]
  | element before name attrs children rest ihc ih =>
    obtain ⟨hbefore, htag, hchildren, -, hrest⟩ : _ ∧ _ ∧ _ ∧ _ ∧ _ := by
      simpa only [Forest.write, plain_append, plain_escape] using h
    rw [Forest.mapTexts, receivedText_plain hbefore, hattrs htag, ihc hchildren, ih hrest]

end Markup
