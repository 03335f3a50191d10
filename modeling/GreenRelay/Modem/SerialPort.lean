/-
The serial port: lines and the prompt, read from bytes.

The transport keeps the bytes it has read and not yet handed out.  `readLine`
waits for a newline among them and `waitForPrompt` for a `>`; the wait that the
trait provides goes by lines instead.  A call is a function of the pending bytes
and of how the reads of the port are going to end.
-/
import GreenRelay.Lib.Buffered
import GreenRelay.Lib.Lossy
import GreenRelay.Modem.Device

namespace GreenRelay
namespace Modem
namespace SerialPort

open Text Unicode Buffered

/-! ## The transport -/

def newline : UInt8 := 10

/-- The byte `>`. -/
def mark : UInt8 := 0x3E

/-- What a call leaves: how it ended, the pending bytes, and the reads after it.
A deadline that has passed before a read is the same as a read that times out,
and a read of no bytes is a failure. -/
structure Call (β : Type) where
  reply : Reply β
  pending : List UInt8
  rest : List (Read UInt8)

def lineText (bytes : List UInt8) : String := String.ofList (trimLineEnd (fromUtf8Lossy bytes))

def readLine (pending : List UInt8) (reads : List (Read UInt8)) : Call String :=
  match pending.findIdx? (· == newline) with
  | some pos => ⟨.found (lineText (pending.take (pos + 1))), pending.drop (pos + 1), reads⟩
  | none =>
    match reads with
    | [] => ⟨.cut, pending, []⟩
    | .data bytes :: rest => readLine (pending ++ bytes) rest
    | .timeout :: rest => ⟨.timeout, pending, rest⟩
    | .failed :: rest => ⟨.failed, pending, rest⟩

/-- The prompt may be followed by a space. -/
def promptEnd (pending : List UInt8) (pos : Nat) : Nat :=
  if pending[pos + 1]? = some 0x20 then pos + 2 else pos + 1

/-- The call succeeds with the bytes before the `>`, to say where it was. -/
def waitForPrompt (pending : List UInt8) (reads : List (Read UInt8)) : Call (List UInt8) :=
  match pending.findIdx? (· == mark) with
  | some pos => ⟨.found (pending.take pos), pending.drop (promptEnd pending pos), reads⟩
  | none =>
    match reads with
    | [] => ⟨.cut, pending, []⟩
    | .data bytes :: rest => waitForPrompt (pending ++ bytes) rest
    | .timeout :: rest => ⟨.timeout, pending, rest⟩
    | .failed :: rest => ⟨.failed, pending, rest⟩

/-- A line comes from a read, or the pending bytes get fewer. -/
theorem readLine_consumes {pending : List UInt8} {reads : List (Read UInt8)} {line : String}
    (h : (readLine pending reads).reply = .found line) :
    (readLine pending reads).rest.length < reads.length ∨
      (readLine pending reads).rest.length = reads.length ∧
        (readLine pending reads).pending.length < pending.length := by
  induction reads generalizing pending with
  | nil =>
    unfold readLine at h ⊢
    cases hpos : pending.findIdx? (· == newline) with
    | none =>
      rw [hpos] at h
      cases h
    | some pos =>
      have hlt := (List.findIdx?_eq_some_iff_findIdx_eq.mp hpos).1
      refine .inr ⟨rfl, ?_⟩
      show (pending.drop (pos + 1)).length < pending.length
      rw [List.length_drop]
      omega
  | cons read rest ih =>
    unfold readLine at h ⊢
    cases hpos : pending.findIdx? (· == newline) with
    | none =>
      rw [hpos] at h
      left
      cases read with
      | data bytes =>
        have hrest := ih h
        simp only [List.length_cons]
        omega
      | timeout => cases h
      | failed => cases h
    | some pos =>
      have hlt := (List.findIdx?_eq_some_iff_findIdx_eq.mp hpos).1
      refine .inr ⟨rfl, ?_⟩
      show (pending.drop (pos + 1)).length < pending.length
      rw [List.length_drop]
      omega

/-- The wait that the trait provides. -/
def defaultWaitForPrompt (pending : List UInt8) (reads : List (Read UInt8)) : Call Unit :=
  match _hline : (readLine pending reads).reply with
  | .found line =>
    if isPrompt line then ⟨.found (), (readLine pending reads).pending,
        (readLine pending reads).rest⟩
    else defaultWaitForPrompt (readLine pending reads).pending (readLine pending reads).rest
  | .timeout => ⟨.timeout, (readLine pending reads).pending, (readLine pending reads).rest⟩
  | .failed => ⟨.failed, (readLine pending reads).pending, (readLine pending reads).rest⟩
  | .cut => ⟨.cut, (readLine pending reads).pending, (readLine pending reads).rest⟩
termination_by (reads.length, pending.length)
decreasing_by
  rcases readLine_consumes _hline with hlt | ⟨heq, hlt⟩
  · exact Prod.Lex.left _ _ hlt
  · rw [heq]
    exact Prod.Lex.right _ hlt

/-! ## Prompts on lines -/

/-- Where a prompt stands in the bytes after `seen` and the begun line `line`: on
a line that has ended, or, if `begun` says so, on the line that has not.  The
result is what stands before its `>`, and what is left after its line. -/
def promptIn (begun : Bool) (seen line : List UInt8) :
    List UInt8 → Option (List UInt8 × List UInt8)
  | [] =>
    if begun && isPrompt (lineText line) then some (seen ++ line.takeWhile (· != mark), [])
    else none
  | b :: bytes =>
    if b = newline then
      if isPrompt (lineText (line ++ [b])) then some (seen ++ line.takeWhile (· != mark), bytes)
      else promptIn begun (seen ++ line ++ [b]) [] bytes
    else promptIn begun seen (line ++ [b]) bytes

/-- The default wait if it is shown the begun line as well: the lines before the
prompt are dropped, and so is the line of the prompt. -/
def waitOnLines (pending : List UInt8) (reads : List (Read UInt8)) : Call (List UInt8) :=
  match promptIn true [] [] pending with
  | some (before, left) => ⟨.found before, left, reads⟩
  | none =>
    match reads with
    | [] => ⟨.cut, pending, []⟩
    | .data bytes :: rest => waitOnLines (pending ++ bytes) rest
    | .timeout :: rest => ⟨.timeout, pending, rest⟩
    | .failed :: rest => ⟨.failed, pending, rest⟩

def blankBytes (bytes : List UInt8) : Bool := (fromUtf8Lossy bytes).all isWhite

def lastLine (bytes : List UInt8) : List UInt8 :=
  (bytes.reverse.takeWhile (· != newline)).reverse

/-- Nothing but white space stands on the line after these bytes. -/
def OpensLine (before : List UInt8) : Prop := blankBytes (lastLine before) = true

/-! ## The prompt on one line -/

theorem isPrompt_chars (s : List Char) :
    isPrompt (String.ofList s) = true ↔ ∃ w r, s = w ++ '>' :: r ∧ w.all isWhite = true := by
  have hmark : isWhite '>' = false := by decide
  rw [isPrompt, String.toList_ofList, trimStart]
  constructor
  · intro h
    obtain ⟨r, hr⟩ := Option.isSome_iff_exists.mp h
    have hdrop := stripPrefix_eq_some.mp hr
    refine ⟨s.takeWhile isWhite, r, ?_, List.all_takeWhile⟩
    rw [← List.singleton_append, ← hdrop, List.takeWhile_append_dropWhile]
  · rintro ⟨w, r, rfl, hw⟩
    rw [List.dropWhile_append_of_pos (List.all_eq_true.mp hw),
      List.dropWhile_cons_of_neg (by simp [hmark])]
    rfl

theorem trimLineEnd_prefix (s : List Char) : trimLineEnd s <+: s := by
  rw [trimLineEnd]
  have h := List.dropWhile_suffix (l := s.reverse) (fun c => c == '\r' || c == '\n')
  rwa [← List.reverse_prefix, List.reverse_reverse] at h

theorem trimLineEnd_append (w r : List Char) :
    ∃ r', trimLineEnd (w ++ '>' :: r) = w ++ '>' :: r' := by
  rw [trimLineEnd, List.reverse_append, List.reverse_cons, List.append_assoc, List.dropWhile_append]
  split
  · refine ⟨[], ?_⟩
    rw [List.singleton_append, List.dropWhile_cons_of_neg (by decide), List.reverse_cons,
      List.reverse_reverse]
  · refine ⟨(r.reverse.dropWhile (fun c => c == '\r' || c == '\n')).reverse, ?_⟩
    simp

/-- The line ending does not decide whether a line is a prompt. -/
theorem isPrompt_trimmed (s : List Char) : isPrompt (String.ofList (trimLineEnd s)) = true ↔
    ∃ w r, s = w ++ '>' :: r ∧ w.all isWhite = true := by
  rw [isPrompt_chars]
  constructor
  · rintro ⟨w, r, hs, hw⟩
    obtain ⟨t, ht⟩ := trimLineEnd_prefix s
    exact ⟨w, r ++ t, by rw [← ht, hs, List.append_assoc, List.cons_append], hw⟩
  · rintro ⟨w, r, rfl, hw⟩
    obtain ⟨r', hr'⟩ := trimLineEnd_append w r
    exact ⟨w, r', hr', hw⟩

theorem takeWhile_ne {α : Type} [DecidableEq α] {a : α} {before : List α} (h : a ∉ before)
    (after : List α) : (before ++ a :: after).takeWhile (· != a) = before := by
  have hall : ∀ b ∈ before, (b != a) = true := by
    intro b hb
    rw [bne_iff_ne]
    exact fun heq => h (heq ▸ hb)
  rw [List.takeWhile_append_of_pos hall, List.takeWhile_cons_of_neg (by simp), List.append_nil]

theorem char_not_mem {bytes : List UInt8} (h : mark ∉ bytes) : '>' ∉ fromUtf8Lossy bytes := by
  intro hmem
  obtain ⟨b, hb, hval⟩ := mem_lossyFrom (by decide) (by decide) hmem
  have hmark : b = mark := UInt8.toNat_inj.mp hval
  exact h (hmark ▸ hb)

theorem fromUtf8Lossy_mark (before after : List UInt8) :
    fromUtf8Lossy (before ++ mark :: after) = fromUtf8Lossy before ++ '>' :: fromUtf8Lossy after :=
  lossyFrom_ascii (by decide) none before after

/-- A line is a prompt if a `>` stands on it after white space. -/
theorem isPrompt_line (line : List UInt8) : isPrompt (lineText line) = true ↔
    ∃ before after, line = before ++ mark :: after ∧ mark ∉ before ∧ blankBytes before = true := by
  rw [lineText, isPrompt_trimmed]
  constructor
  · rintro ⟨w, r, hw, hblank⟩
    have hmem : mark ∈ line := by
      by_contra hnot
      exact char_not_mem hnot (hw ▸ List.mem_append_right w List.mem_cons_self)
    obtain ⟨before, after, rfl, hbefore⟩ := List.eq_append_cons_of_mem hmem
    refine ⟨before, after, rfl, hbefore, ?_⟩
    -- The characters before the first `>` are read from the bytes before it.
    have hnot : '>' ∉ w := by
      intro hgt
      exact absurd (List.all_eq_true.mp hblank '>' hgt) (by decide)
    rw [fromUtf8Lossy_mark] at hw
    have htake := congrArg (List.takeWhile (· != '>')) hw
    rw [takeWhile_ne (char_not_mem hbefore), takeWhile_ne hnot] at htake
    rwa [blankBytes, htake]
  · rintro ⟨before, after, rfl, _, hblank⟩
    exact ⟨fromUtf8Lossy before, fromUtf8Lossy after, fromUtf8Lossy_mark before after, hblank⟩

theorem isPrompt_mem {line : List UInt8} (h : isPrompt (lineText line) = true) : mark ∈ line := by
  obtain ⟨before, after, rfl, _⟩ := (isPrompt_line line).mp h
  exact List.mem_append_right before List.mem_cons_self

/-- More bytes of a line do not take its prompt away. -/
theorem isPrompt_append {line : List UInt8} (h : isPrompt (lineText line) = true)
    (bytes : List UInt8) : isPrompt (lineText (line ++ bytes)) = true ∧
      (line ++ bytes).takeWhile (· != mark) = line.takeWhile (· != mark) := by
  obtain ⟨before, after, rfl, hbefore, hblank⟩ := (isPrompt_line line).mp h
  rw [List.append_assoc, List.cons_append, takeWhile_ne hbefore, takeWhile_ne hbefore]
  exact ⟨(isPrompt_line _).mpr ⟨before, after ++ bytes, rfl, hbefore, hblank⟩, rfl⟩

/-- The newline does not decide whether a line is a prompt. -/
theorem isPrompt_ended {line : List UInt8} (h : isPrompt (lineText (line ++ [newline])) = true) :
    isPrompt (lineText line) = true := by
  obtain ⟨before, after, hline, hbefore, hblank⟩ := (isPrompt_line _).mp h
  have hmem : mark ∈ line := by
    have hmark : mark ∈ line ++ [newline] := hline ▸ List.mem_append_right before List.mem_cons_self
    rcases List.mem_append.mp hmark with hmem | hlast
    · exact hmem
    · exact absurd (List.mem_singleton.mp hlast) (by decide)
  obtain ⟨w, r, rfl, hw⟩ := List.eq_append_cons_of_mem hmem
  have htake := congrArg (List.takeWhile (· != mark)) hline
  rw [List.append_assoc, List.cons_append, takeWhile_ne hw, takeWhile_ne hbefore] at htake
  exact (isPrompt_line _).mpr ⟨w, r, rfl, hw, htake ▸ hblank⟩

/-! ## The prompt in a buffer -/

/-- The bytes before a line: none, or some that end with a newline. -/
def LineEnd (seen : List UInt8) : Prop := seen = [] ∨ seen.getLast? = some newline

theorem lastLine_append {seen line : List UInt8} (hseen : LineEnd seen) (hline : newline ∉ line) :
    lastLine (seen ++ line) = line := by
  have hall : ∀ b ∈ line.reverse, (b != newline) = true := by
    intro b hb
    rw [bne_iff_ne]
    exact fun heq => hline (heq ▸ List.mem_reverse.mp hb)
  rw [lastLine, List.reverse_append, List.takeWhile_append_of_pos hall]
  rcases hseen with rfl | hlast
  · simp
  · obtain ⟨init, rfl⟩ := List.getLast?_eq_some_iff.mp hlast
    have hrev : (init ++ [newline]).reverse = newline :: init.reverse := by simp
    rw [hrev, List.takeWhile_cons_of_neg (by simp), List.append_nil, List.reverse_reverse]

theorem prompt_opensLine {seen line : List UInt8} (hseen : LineEnd seen) (hline : newline ∉ line)
    (h : isPrompt (lineText line) = true) (rest : List UInt8) :
    OpensLine (seen ++ line.takeWhile (· != mark)) ∧ ∃ after,
      seen ++ line ++ rest = seen ++ line.takeWhile (· != mark) ++ mark :: after ∧
        rest <:+ after := by
  obtain ⟨w, r, rfl, hw, hblank⟩ := (isPrompt_line line).mp h
  have hnew : newline ∉ w := fun hmem => hline (List.mem_append_left _ hmem)
  rw [takeWhile_ne hw]
  constructor
  · rw [OpensLine, lastLine_append hseen hnew]
    exact hblank
  · exact ⟨r ++ rest, by simp, List.suffix_append r rest⟩

/-- What is found is a `>` with nothing but white space before it on its line, and
what is left comes after it. -/
theorem promptIn_sound {begun : Bool} {seen line bytes before left : List UInt8}
    (hseen : LineEnd seen) (hline : newline ∉ line)
    (h : promptIn begun seen line bytes = some (before, left)) :
    OpensLine before ∧ ∃ after, seen ++ line ++ bytes = before ++ mark :: after ∧
      left <:+ after := by
  induction bytes generalizing seen line with
  | nil =>
    rw [promptIn] at h
    split at h
    · next hcond =>
      rw [Bool.and_eq_true] at hcond
      obtain ⟨rfl, rfl⟩ := Prod.mk.inj (Option.some_inj.mp h)
      exact prompt_opensLine hseen hline hcond.2 []
    · cases h
  | cons b bytes ih =>
    rw [promptIn] at h
    by_cases hb : b = newline
    · rw [if_pos hb, hb] at h
      by_cases hended : isPrompt (lineText (line ++ [newline])) = true
      · rw [if_pos hended] at h
        obtain ⟨rfl, rfl⟩ := Prod.mk.inj (Option.some_inj.mp h)
        obtain ⟨hopens, after, hafter, hsuffix⟩ :=
          prompt_opensLine hseen hline (isPrompt_ended hended) (b :: bytes)
        exact ⟨hopens, after, hafter, (List.suffix_cons b bytes).trans hsuffix⟩
      · rw [if_neg hended] at h
        have hnext := ih (.inr (by simp)) (by simp) h
        rwa [List.append_nil, List.append_assoc, List.singleton_append, ← hb] at hnext
    · rw [if_neg hb] at h
      have hnext := ih hseen (by simp [hline, Ne.symm hb]) h
      rwa [← List.append_assoc, List.append_assoc, List.singleton_append] at hnext

/-- Without a `>` there is no prompt. -/
theorem promptIn_eq_none {begun : Bool} {seen line bytes : List UInt8} (h : mark ∉ line ++ bytes) :
    promptIn begun seen line bytes = none := by
  induction bytes generalizing seen line with
  | nil =>
    have hline : isPrompt (lineText line) ≠ true := fun hp => h (by simpa using isPrompt_mem hp)
    rw [promptIn, if_neg (by simp [hline])]
  | cons b bytes ih =>
    obtain ⟨hline, hb, hbytes⟩ : mark ∉ line ∧ mark ≠ b ∧ mark ∉ bytes := by
      simpa [not_or] using h
    rw [promptIn]
    by_cases hnew : b = newline
    · have hended : isPrompt (lineText (line ++ [b])) ≠ true := by
        intro hp
        exact absurd (isPrompt_mem hp) (by simp [hline, hb])
      rw [if_pos hnew, if_neg hended]
      exact ih (by simpa using hbytes)
    · rw [if_neg hnew]
      exact ih (by simp [hline, hb, hbytes])

/-- Once a line has a prompt, its end and what follows do not matter. -/
theorem promptIn_begun (seen : List UInt8) {line : List UInt8} (h : isPrompt (lineText line) = true)
    (bytes : List UInt8) :
    ∃ left, promptIn true seen line bytes = some (seen ++ line.takeWhile (· != mark), left) := by
  induction bytes generalizing line with
  | nil => exact ⟨[], by rw [promptIn, if_pos (by simp [h])]⟩
  | cons b bytes ih =>
    obtain ⟨hlonger, hsame⟩ := isPrompt_append h [b]
    rw [promptIn]
    by_cases hnew : b = newline
    · exact ⟨bytes, by rw [if_pos hnew, if_pos hlonger]⟩
    · rw [if_neg hnew, ← hsame]
      exact ih hlonger

/-- A first `>` that opens its line is found. -/
theorem promptIn_first {seen line before after : List UInt8} (hseen : LineEnd seen)
    (hline : newline ∉ line) (hbefore : mark ∉ line ++ before)
    (hopens : OpensLine (seen ++ line ++ before)) :
    ∃ left, promptIn true seen line (before ++ mark :: after) =
      some (seen ++ line ++ before, left) := by
  induction before generalizing seen line with
  | nil =>
    rw [List.append_nil] at hbefore hopens ⊢
    have hprompt : isPrompt (lineText (line ++ [mark])) = true := by
      refine (isPrompt_line _).mpr ⟨line, [], rfl, hbefore, ?_⟩
      rwa [OpensLine, lastLine_append hseen hline] at hopens
    have hbegun := promptIn_begun seen hprompt after
    rw [takeWhile_ne hbefore] at hbegun
    rwa [List.nil_append, promptIn, if_neg (by decide)]
  | cons b before ih =>
    obtain ⟨hmark, hb, hrest⟩ : mark ∉ line ∧ mark ≠ b ∧ mark ∉ before := by
      simpa [not_or] using hbefore
    rw [List.cons_append, promptIn]
    by_cases hnew : b = newline
    · have hended : isPrompt (lineText (line ++ [b])) ≠ true := by
        intro hp
        exact absurd (isPrompt_mem hp) (by simp [hmark, hb])
      have hsame : seen ++ line ++ b :: before = seen ++ line ++ [b] ++ [] ++ before := by simp
      rw [if_pos hnew, if_neg hended, hsame]
      rw [hsame] at hopens
      exact ih (.inr (by simp [hnew])) (by simp) (by simpa using hrest) hopens
    · have hsame : seen ++ line ++ b :: before = seen ++ (line ++ [b]) ++ before := by simp
      rw [if_neg hnew, hsame]
      rw [hsame] at hopens
      exact ih hseen (by simp [hline, Ne.symm hnew]) (by simp [hmark, hb, hrest]) hopens

/-! ## The two waits -/

def firstMark (buffer : List UInt8) : Option (List UInt8) :=
  (buffer.findIdx? (· == mark)).map buffer.take

def placeOnLine (buffer : List UInt8) : Option (List UInt8) :=
  (promptIn true [] [] buffer).map Prod.fst

theorem firstMark_first {before : List UInt8} (h : mark ∉ before) (after : List UInt8) :
    firstMark (before ++ mark :: after) = some before := by
  induction before with
  | nil => rfl
  | cons b before ih =>
    obtain ⟨hb, hrest⟩ : mark ≠ b ∧ mark ∉ before := by simpa [not_or] using h
    have hnext := ih hrest
    unfold firstMark at hnext ⊢
    obtain ⟨pos, hpos, htake⟩ := Option.map_eq_some_iff.mp hnext
    rw [List.cons_append, List.findIdx?_cons, if_neg (by simpa using hb.symm), hpos]
    show some (b :: (before ++ mark :: after).take pos) = some (b :: before)
    rw [htake]

theorem firstMark_none {buffer : List UInt8} (h : mark ∉ buffer) : firstMark buffer = none := by
  have hnone : buffer.findIdx? (· == mark) = none := by
    rw [List.findIdx?_eq_none_iff]
    intro b hb
    rw [beq_eq_false_iff_ne]
    exact fun heq => h (heq ▸ hb)
  rw [firstMark, hnone]
  rfl

/-- A buffer without a `>`, or split at its first one. -/
theorem mark_cases (buffer : List UInt8) :
    mark ∉ buffer ∨ ∃ before after, buffer = before ++ mark :: after ∧ mark ∉ before := by
  by_cases h : mark ∈ buffer
  · obtain ⟨before, after, hsplit, hbefore⟩ := List.eq_append_cons_of_mem h
    exact .inr ⟨before, after, hsplit, hbefore⟩
  · exact .inl h

theorem waitForPrompt_reply (pending : List UInt8) (reads : List (Read UInt8)) :
    (waitForPrompt pending reads).reply = scan firstMark pending reads := by
  induction reads generalizing pending with
  | nil =>
    unfold waitForPrompt scan firstMark
    cases pending.findIdx? (· == mark) <;> rfl
  | cons read rest ih =>
    unfold waitForPrompt scan firstMark
    cases pending.findIdx? (· == mark) with
    | some pos => rfl
    | none =>
      cases read with
      | data bytes => exact ih (pending ++ bytes)
      | timeout => rfl
      | failed => rfl

theorem waitOnLines_reply (pending : List UInt8) (reads : List (Read UInt8)) :
    (waitOnLines pending reads).reply = scan placeOnLine pending reads := by
  induction reads generalizing pending with
  | nil =>
    unfold waitOnLines scan placeOnLine
    cases promptIn true [] [] pending <;> rfl
  | cons read rest ih =>
    unfold waitOnLines scan placeOnLine
    cases promptIn true [] [] pending with
    | some found => rfl
    | none =>
      cases read with
      | data bytes => exact ih (pending ++ bytes)
      | timeout => rfl
      | failed => rfl

/-- What a wait that found a prompt leaves comes after it. -/
def DropsBefore (pending : List UInt8) (reads : List (Read UInt8)) (c : Call (List UInt8)) : Prop :=
  ∀ before, c.reply = .found before → ∃ after,
    before ++ mark :: after <+: pending ++ delivered reads ∧ c.pending <:+ after

theorem DropsBefore.data {pending bytes : List UInt8} {rest : List (Read UInt8)}
    {c : Call (List UInt8)} (h : DropsBefore (pending ++ bytes) rest c) :
    DropsBefore pending (.data bytes :: rest) c := by
  intro before hbefore
  obtain ⟨after, hpre, hsuffix⟩ := h before hbefore
  exact ⟨after, by rwa [List.append_assoc] at hpre, hsuffix⟩

theorem DropsBefore.found {pending before after left : List UInt8} {reads rest : List (Read UInt8)}
    (hsplit : pending = before ++ mark :: after) (hleft : left <:+ after) :
    DropsBefore pending reads ⟨.found before, left, rest⟩ := by
  intro b hb
  obtain rfl := Reply.found.inj hb
  exact ⟨after, hsplit ▸ List.prefix_append _ _, hleft⟩

theorem findIdx?_split {pending : List UInt8} {pos : Nat}
    (h : pending.findIdx? (· == mark) = some pos) :
    pending = pending.take pos ++ mark :: pending.drop (pos + 1) := by
  obtain ⟨hlt, hget, _⟩ := List.findIdx?_eq_some_iff_getElem.mp h
  have hmark : pending[pos] = mark := by simpa using hget
  rw [← hmark, ← List.drop_eq_getElem_cons hlt, List.take_append_drop]

theorem drop_promptEnd (pending : List UInt8) (pos : Nat) :
    pending.drop (promptEnd pending pos) <:+ pending.drop (pos + 1) := by
  unfold promptEnd
  split
  · rw [show pos + 2 = pos + 1 + 1 from rfl, ← List.drop_drop]
    exact List.drop_suffix 1 _
  · exact List.suffix_refl _

theorem waitForPrompt_drops (pending : List UInt8) (reads : List (Read UInt8)) :
    DropsBefore pending reads (waitForPrompt pending reads) := by
  induction reads generalizing pending with
  | nil =>
    unfold waitForPrompt
    cases hpos : pending.findIdx? (· == mark) with
    | some pos => exact .found (findIdx?_split hpos) (drop_promptEnd pending pos)
    | none => exact fun before h => by cases h
  | cons read rest ih =>
    unfold waitForPrompt
    cases hpos : pending.findIdx? (· == mark) with
    | some pos => exact .found (findIdx?_split hpos) (drop_promptEnd pending pos)
    | none =>
      cases read with
      | data bytes => exact (ih (pending ++ bytes)).data
      | timeout => exact fun before h => by cases h
      | failed => exact fun before h => by cases h

theorem promptIn_sound_start {begun : Bool} {pending before left : List UInt8}
    (h : promptIn begun [] [] pending = some (before, left)) :
    OpensLine before ∧ ∃ after, pending = before ++ mark :: after ∧ left <:+ after :=
  promptIn_sound (.inl rfl) List.not_mem_nil h

theorem waitOnLines_drops (pending : List UInt8) (reads : List (Read UInt8)) :
    DropsBefore pending reads (waitOnLines pending reads) := by
  induction reads generalizing pending with
  | nil =>
    unfold waitOnLines
    cases hfound : promptIn true [] [] pending with
    | some found =>
      obtain ⟨_, after, hsplit, hleft⟩ := promptIn_sound_start hfound
      exact .found hsplit hleft
    | none => exact fun before h => by cases h
  | cons read rest ih =>
    unfold waitOnLines
    cases hfound : promptIn true [] [] pending with
    | some found =>
      obtain ⟨_, after, hsplit, hleft⟩ := promptIn_sound_start hfound
      exact .found hsplit hleft
    | none =>
      cases read with
      | data bytes => exact (ih (pending ++ bytes)).data
      | timeout => exact fun before h => by cases h
      | failed => exact fun before h => by cases h

/-! ## The default wait -/

/-- How a wait ends for its caller. -/
def promptResult {β : Type} : Reply β → Scripted.Outcome Bool
  | .found _ => .done true
  | .timeout => .done false
  | .failed => .failed
  | .cut => .cut

theorem promptIn_ended (begun : Bool) {bytes : List UInt8} (h : newline ∉ bytes)
    (seen line rest : List UInt8) : promptIn begun seen line (bytes ++ newline :: rest) =
      if isPrompt (lineText (line ++ bytes ++ [newline])) then
        some (seen ++ (line ++ bytes).takeWhile (· != mark), rest)
      else promptIn begun (seen ++ (line ++ bytes) ++ [newline]) [] rest := by
  induction bytes generalizing line with
  | nil => rw [List.nil_append, promptIn, if_pos rfl, List.append_nil]
  | cons b bytes ih =>
    obtain ⟨hb, hrest⟩ : newline ≠ b ∧ newline ∉ bytes := by simpa [not_or] using h
    rw [List.cons_append, promptIn, if_neg hb.symm, ih hrest, List.append_assoc line,
      List.singleton_append]

theorem promptIn_unended {bytes : List UInt8} (h : newline ∉ bytes) (seen line : List UInt8) :
    promptIn false seen line bytes = none := by
  induction bytes generalizing line with
  | nil => rfl
  | cons b bytes ih =>
    obtain ⟨hb, hrest⟩ : newline ≠ b ∧ newline ∉ bytes := by simpa [not_or] using h
    rw [promptIn, if_neg hb.symm, ih hrest]

/-- What a call of `readLine` means for a wait that looks at ended lines. -/
def Reads {β : Type} (find : List UInt8 → Option β) (whole : Reply β) (c : Call String) : Prop :=
  match c.reply with
  | .found line => ∃ bytes, newline ∉ bytes ∧ line = lineText (bytes ++ [newline]) ∧
      whole = scan find (bytes ++ newline :: c.pending) c.rest
  | .timeout => whole = .timeout
  | .failed => whole = .failed
  | .cut => whole = .cut

theorem Reads.ended {β : Type} {find : List UInt8 → Option β} {whole : Reply β} {c : Call String}
    {line : String} (h : Reads find whole c) (hline : c.reply = .found line) :
    ∃ bytes, newline ∉ bytes ∧ line = lineText (bytes ++ [newline]) ∧
      whole = scan find (bytes ++ newline :: c.pending) c.rest := by
  rwa [Reads, hline] at h

theorem Reads.unended {β : Type} {find : List UInt8 → Option β} {whole : Reply β} {c : Call String}
    (h : Reads find whole c) (hnot : promptResult c.reply ≠ .done true) :
    promptResult whole = promptResult c.reply := by
  unfold Reads at h
  cases hreply : c.reply with
  | found line =>
    rw [hreply] at hnot
    exact absurd rfl hnot
  | _ =>
    rw [hreply] at h
    rw [h]
    rfl

theorem readLine_scan {β : Type} {find : List UInt8 → Option β}
    (hfind : ∀ bytes, newline ∉ bytes → find bytes = none) (pending : List UInt8)
    (reads : List (Read UInt8)) :
    Reads find (scan find pending reads) (readLine pending reads) := by
  have hfound : ∀ {pending : List UInt8} {pos : Nat} (reads : List (Read UInt8)),
      pending.findIdx? (· == newline) = some pos → Reads find (scan find pending reads)
        ⟨.found (lineText (pending.take (pos + 1))), pending.drop (pos + 1), reads⟩ := by
    intro pending pos reads hpos
    obtain ⟨hlt, hget, hbefore⟩ := List.findIdx?_eq_some_iff_getElem.mp hpos
    have hnew : pending[pos] = newline := by simpa using hget
    refine ⟨pending.take pos, ?_, ?_, ?_⟩
    · intro hmem
      obtain ⟨j, hj, hval⟩ := List.mem_take_iff_getElem.mp hmem
      exact hbefore j (by omega) (by simpa using hval)
    · rw [← hnew, List.take_append_getElem hlt]
    · show scan find pending reads =
        scan find (pending.take pos ++ newline :: pending.drop (pos + 1)) reads
      rw [← hnew, ← List.drop_eq_getElem_cons hlt, List.take_append_drop]
  have hnone : ∀ {pending : List UInt8}, pending.findIdx? (· == newline) = none →
      find pending = none := by
    intro pending hpos
    apply hfind
    intro hmem
    exact absurd (List.findIdx?_eq_none_iff.mp hpos newline hmem) (by simp)
  induction reads generalizing pending with
  | nil =>
    unfold readLine
    cases hpos : pending.findIdx? (· == newline) with
    | some pos => exact hfound [] hpos
    | none =>
      show scan find pending [] = .cut
      rw [scan, hnone hpos]
  | cons read rest ih =>
    unfold readLine
    cases hpos : pending.findIdx? (· == newline) with
    | some pos => exact hfound (read :: rest) hpos
    | none =>
      cases read with
      | data bytes =>
        rw [scan_data (hnone hpos)]
        exact ih (pending ++ bytes)
      | timeout =>
        show scan find pending (.timeout :: rest) = .timeout
        rw [scan, hnone hpos]
      | failed =>
        show scan find pending (.failed :: rest) = .failed
        rw [scan, hnone hpos]

theorem defaultWaitForPrompt_line {pending : List UInt8} {reads : List (Read UInt8)} {line : String}
    (h : (readLine pending reads).reply = .found line) :
    (defaultWaitForPrompt pending reads).reply =
      if isPrompt line then .found ()
      else (defaultWaitForPrompt (readLine pending reads).pending
        (readLine pending reads).rest).reply := by
  rw [defaultWaitForPrompt]
  split
  · next other hother =>
    obtain rfl := Reply.found.inj (h.symm.trans hother)
    split <;> rfl
  all_goals next hother => cases h.symm.trans hother

/-- A wait that is given no line ends as the read of it does. -/
theorem defaultWaitForPrompt_ends {pending : List UInt8} {reads : List (Read UInt8)}
    (h : promptResult (readLine pending reads).reply ≠ .done true) :
    promptResult (defaultWaitForPrompt pending reads).reply =
      promptResult (readLine pending reads).reply := by
  rw [defaultWaitForPrompt]
  split
  · next line hline =>
    rw [hline] at h
    exact absurd rfl h
  all_goals next hline => rw [hline]; rfl

/-- The default wait sees the prompts on ended lines. -/
theorem defaultWaitForPrompt_scan (pending : List UInt8) (reads : List (Read UInt8))
    (seen : List UInt8) :
    promptResult (defaultWaitForPrompt pending reads).reply =
      promptResult (scan (promptIn false seen []) pending reads) := by
  have hreads := fun pending reads => readLine_scan (fun _ h => promptIn_unended h seen [])
    pending reads
  induction pending, reads using defaultWaitForPrompt.induct generalizing seen with
  | case1 pending reads line hline hprompt =>
    obtain ⟨bytes, hbytes, rfl, hscan⟩ := (hreads pending reads).ended hline
    rw [defaultWaitForPrompt_line hline, if_pos hprompt, hscan]
    have hfound := promptIn_ended false hbytes seen [] (readLine pending reads).pending
    rw [List.nil_append, if_pos hprompt] at hfound
    rw [scan_some hfound]
    rfl
  | case2 pending reads line hline hprompt ih =>
    obtain ⟨bytes, hbytes, rfl, hscan⟩ := (hreads pending reads).ended hline
    rw [defaultWaitForPrompt_line hline, if_neg hprompt, hscan, List.append_cons, scan_append]
    rw [ih (seen ++ bytes ++ [newline])
      (fun p r => readLine_scan (fun _ h => promptIn_unended h _ []) p r)]
    -- The line is no prompt, so the wait goes on with what is after it.
    apply congrArg promptResult
    apply scan_congr
    intro rest _
    have hended := promptIn_ended false hbytes seen [] rest
    rw [List.nil_append, if_neg hprompt] at hended
    rw [List.append_assoc bytes, List.singleton_append, hended]
  | case3 pending reads hline | case4 pending reads hline | case5 pending reads hline =>
    have hnot : promptResult (readLine pending reads).reply ≠ .done true := by
      rw [hline]
      decide
    rw [defaultWaitForPrompt_ends hnot, (hreads pending reads).unended hnot]

theorem promptIn_of_ended {seen line bytes : List UInt8} {found : List UInt8 × List UInt8}
    (h : promptIn false seen line bytes = some found) :
    promptIn true seen line bytes = some found := by
  induction bytes generalizing seen line with
  | nil => cases h
  | cons b bytes ih =>
    rw [promptIn] at h ⊢
    by_cases hnew : b = newline
    · rw [if_pos hnew] at h ⊢
      by_cases hended : isPrompt (lineText (line ++ [b])) = true
      · rwa [if_pos hended] at h ⊢
      · rw [if_neg hended] at h ⊢
        exact ih h
    · rw [if_neg hnew] at h ⊢
      exact ih h

/-- Where the default wait reports a prompt, the wait that is shown the begun line
does so as well. -/
theorem waitOnLines_of_default {pending : List UInt8} {reads : List (Read UInt8)}
    (h : promptResult (defaultWaitForPrompt pending reads).reply = .done true) :
    ∃ before, (waitOnLines pending reads).reply = .found before := by
  rw [defaultWaitForPrompt_scan pending reads []] at h
  rw [waitOnLines_reply]
  cases hscan : scan (promptIn false [] []) pending reads with
  | found v =>
    refine scan_found_of_imp (fun seen found hfound => ?_) hscan
    rw [placeOnLine, promptIn_of_ended hfound]
    rfl
  | timeout | failed | cut =>
    rw [hscan] at h
    cases h

/-! ## Where they agree -/

/-- Both waits report a prompt at the same place of the stream, or end alike
without one, and both drop the lines before it. -/
structure PromptsAgree (pending : List UInt8) (reads : List (Read UInt8)) : Prop where
  reported : (waitForPrompt pending reads).reply = (waitOnLines pending reads).reply
  handled : DropsBefore pending reads (waitForPrompt pending reads) ∧
    DropsBefore pending reads (waitOnLines pending reads)

/-- The first `>` of a stream, if it has one, opens its line. -/
def FirstMarkOpensLine (stream : List UInt8) : Prop :=
  ∀ before after, stream = before ++ mark :: after → mark ∉ before → OpensLine before

theorem placeOnLine_none {buffer : List UInt8} (h : mark ∉ buffer) : placeOnLine buffer = none := by
  rw [placeOnLine, promptIn_eq_none (by simpa using h)]
  rfl

theorem placeOnLine_first {before : List UInt8} (h : mark ∉ before) (hopens : OpensLine before)
    (after : List UInt8) : placeOnLine (before ++ mark :: after) = some before := by
  obtain ⟨left, hfound⟩ := @promptIn_first [] [] before after (.inl rfl) List.not_mem_nil h hopens
  rw [placeOnLine, hfound]
  rfl

/-- The wait of the serial port is exact for the streams whose first `>` opens its
line, and for no others. -/
theorem prompts_agree_iff (pending : List UInt8) (reads : List (Read UInt8)) :
    PromptsAgree pending reads ↔ FirstMarkOpensLine (pending ++ delivered reads) := by
  constructor
  · intro h before after hstream hbefore
    -- The serial port reports the first `>`, and what the default reports opens its line.
    have hfirst : scan firstMark pending reads = .found before := by
      apply scan_eq_found
      · rw [hstream, firstMark_first hbefore]
      · intro seen hseen v hv
        rcases mark_cases seen with hnone | ⟨b, a, rfl, hb⟩
        · rw [firstMark_none hnone] at hv
          cases hv
        · rw [firstMark_first hb] at hv
          obtain ⟨rest, hrest⟩ := hseen
          rw [hstream, List.append_assoc, List.cons_append] at hrest
          have htake := congrArg (List.takeWhile (· != mark)) hrest
          rw [takeWhile_ne hb, takeWhile_ne hbefore] at htake
          rw [← Option.some_inj.mp hv, htake]
    have hreported := h.reported
    rw [waitForPrompt_reply, waitOnLines_reply, hfirst] at hreported
    obtain ⟨seen, _, hplace⟩ := scan_found hreported.symm
    obtain ⟨⟨b, left⟩, hfound, rfl⟩ := Option.map_eq_some_iff.mp hplace
    exact (promptIn_sound_start hfound).1
  · intro h
    refine ⟨?_, waitForPrompt_drops pending reads, waitOnLines_drops pending reads⟩
    rw [waitForPrompt_reply, waitOnLines_reply]
    apply scan_congr
    intro seen hseen
    rcases mark_cases seen with hnone | ⟨before, after, rfl, hbefore⟩
    · rw [firstMark_none hnone, placeOnLine_none hnone]
    · obtain ⟨rest, hrest⟩ := hseen
      rw [List.append_assoc, List.cons_append] at hrest
      rw [firstMark_first hbefore, placeOnLine_first hbefore (h _ _ hrest.symm hbefore)]

/-- A `>` in the name of a network is taken for the prompt. -/
theorem prompts_disagree : ¬ ∀ pending reads, PromptsAgree pending reads := by
  intro h
  have hreported := (h (utf8 "+COPS: 0,0,\"A>B\"\r\n".toList) [.timeout]).reported
  rw [waitForPrompt_reply, waitOnLines_reply] at hreported
  exact absurd hreported (by decide +kernel)

end SerialPort
end Modem
end GreenRelay
