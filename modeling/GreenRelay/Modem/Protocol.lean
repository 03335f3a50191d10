/-
Parsing and classification of modem lines.

Everything here is a pure function of the lines a modem sends: which lines end
an exchange and with what result, and what the data lines of the exchanges and
the unsolicited notifications say.
-/
import GreenRelay.Sms.Encoding

namespace GreenRelay

inductive MessageStatus where
  | queued
  | sent
  | failed
  deriving DecidableEq, Repr

inductive SimStatus where
  | ready
  | notReady
  | unknown
  deriving DecidableEq, Repr

def SimStatus.isReady : SimStatus → Bool
  | .ready => true
  | _ => false

structure ModemStatusSnapshot where
  serialConnected : Bool
  simStatus : SimStatus
  registered : Bool
  responsive : Bool
  signalPercent : Option Nat
  operator : Option String
  deriving DecidableEq, Repr

namespace Modem

open Text

def reconnectBackoffCapSecs : Nat := 60

def reconnectBackoffSecs (attempt : Nat) : Nat :=
  let exponent := attempt - 1
  if 6 ≤ exponent then reconnectBackoffCapSecs
  else min (1 <<< exponent) reconnectBackoffCapSecs

/-! ## Result codes -/

inductive AtResult where
  | ok
  | error
  | cmsError (code : Nat)
  | cmeError (code : Nat)
  | timeout
  deriving DecidableEq, Repr

def AtResult.isOk : AtResult → Bool
  | .ok => true
  | _ => false

def AtResult.errorCode : AtResult → Option Nat
  | .cmsError c => some c
  | .cmeError c => some c
  | _ => none

def AtResult.text : AtResult → String
  | .ok => "OK"
  | .error => "ERROR"
  | .cmsError c => "+CMS ERROR: " ++ toString c
  | .cmeError c => "+CME ERROR: " ++ toString c
  | .timeout => "TIMEOUT"

inductive LineClass where
  | terminator (result : AtResult)
  | nonTerminating
  deriving DecidableEq, Repr

def parseU16 (s : List Char) : Option Nat := parseUnsigned 65536 s

def parseU32 (s : List Char) : Option Nat := parseUnsigned 4294967296 s

/-- The result of a numbered error line: the code, or a plain error when the
text after the colon is no number. -/
def codedError (wrap : Nat → AtResult) (rest : List Char) : AtResult :=
  match parseU16 (trim rest) with
  | some code => wrap code
  | none => .error

def classifyLine (line : String) : LineClass :=
  let trimmed := trim line.toList
  if trimmed = "OK".toList then .terminator .ok
  else if trimmed = "ERROR".toList then .terminator .error
  else
    match stripPrefix "+CMS ERROR:".toList trimmed with
    | some rest => .terminator (codedError .cmsError rest)
    | none =>
      match stripPrefix "+CME ERROR:".toList trimmed with
      | some rest => .terminator (codedError .cmeError rest)
      | none => .nonTerminating

def isBlank (line : String) : Bool := (trim line.toList).isEmpty

def isPrompt (fragment : String) : Bool :=
  (stripPrefix ['>'] (trimStart fragment.toList)).isSome

theorem codedError_ne_timeout {wrap : Nat → AtResult} (hwrap : ∀ n, wrap n ≠ .timeout)
    (rest : List Char) : codedError wrap rest ≠ .timeout := by
  unfold codedError
  split
  · exact hwrap _
  · exact fun h => by cases h

/-- No line reads as a timeout. -/
theorem classifyLine_ne_timeout (line : String) : classifyLine line ≠ .terminator .timeout := by
  rw [classifyLine]
  split
  · exact fun h => by cases h
  · split
    · exact fun h => by cases h
    · split
      · intro h
        injection h with h
        exact @codedError_ne_timeout .cmsError (fun _ h => by cases h) _ h
      · split
        · intro h
          injection h with h
          exact @codedError_ne_timeout .cmeError (fun _ h => by cases h) _ h
        · exact fun h => by cases h

theorem classifyLine_blank {line : String} (h : isBlank line = true) :
    classifyLine line = .nonTerminating := by
  have hnil : trim line.toList = [] := List.isEmpty_iff.mp h
  rw [classifyLine, hnil]
  rfl

/-! ## The outcome of a submission -/

def parseCmgsReference (line : String) : Option Nat :=
  (stripPrefix "+CMGS:".toList (trim line.toList)).bind (fun rest => parseU32 (trim rest))

structure SendOutcome where
  status : MessageStatus
  reference : Option Nat
  errorCode : Option Nat
  deriving DecidableEq, Repr

def SendOutcome.sent (reference : Nat) : SendOutcome := ⟨.sent, some reference, none⟩

def SendOutcome.failed (errorCode : Option Nat) : SendOutcome := ⟨.failed, none, errorCode⟩

def parseSendOutcomeFrom : Option Nat → List String → SendOutcome
  | _, [] => .failed none
  | reference, line :: lines =>
    match parseCmgsReference line with
    | some r => parseSendOutcomeFrom (some r) lines
    | none =>
      match classifyLine line with
      | .terminator .ok =>
        match reference with
        | some r => .sent r
        | none => .failed none
      | .terminator (.cmsError code) => .failed (some code)
      | .terminator (.cmeError code) => .failed (some code)
      | .terminator .error => .failed none
      | .terminator .timeout => .failed none
      | .nonTerminating => parseSendOutcomeFrom reference lines

def parseSendOutcome (lines : List String) : SendOutcome := parseSendOutcomeFrom none lines

theorem parseSendOutcomeFrom_sent {lines : List String} :
    ∀ {reference : Option Nat}, (parseSendOutcomeFrom reference lines).status = .sent →
      ∃ r, (parseSendOutcomeFrom reference lines).reference = some r ∧
        (reference = some r ∨ ∃ line ∈ lines, parseCmgsReference line = some r) := by
  induction lines with
  | nil => intro reference h; cases h
  | cons line lines ih =>
    intro reference h
    simp only [parseSendOutcomeFrom] at h ⊢
    split at h
    · next r hr =>
      obtain ⟨r', hr', hfrom⟩ := ih h
      refine ⟨r', hr', Or.inr ?_⟩
      rcases hfrom with hsame | ⟨l, hl, hlr⟩
      · exact ⟨line, List.mem_cons_self, by rw [hr, hsame]⟩
      · exact ⟨l, List.mem_cons_of_mem line hl, hlr⟩
    · split at h
      · cases reference with
        | none => cases h
        | some r => exact ⟨r, rfl, Or.inl rfl⟩
      · cases h
      · cases h
      · cases h
      · cases h
      · obtain ⟨r, hr, hfrom⟩ := ih h
        refine ⟨r, hr, ?_⟩
        rcases hfrom with hsame | ⟨l, hl, hlr⟩
        · exact Or.inl hsame
        · exact Or.inr ⟨l, List.mem_cons_of_mem line hl, hlr⟩

/-- A submission counts as sent only with a reference that one of its lines
reports. -/
theorem parseSendOutcome_sent {lines : List String} (h : (parseSendOutcome lines).status = .sent) :
    ∃ r, (parseSendOutcome lines).reference = some r ∧
      ∃ line ∈ lines, parseCmgsReference line = some r := by
  obtain ⟨r, hr, hfrom⟩ := parseSendOutcomeFrom_sent h
  rcases hfrom with hnone | hline
  · cases hnone
  · exact ⟨r, hr, hline⟩

/-- A line that gives a reference ends nothing. -/
theorem classifyLine_reference {line : String} (h : (parseCmgsReference line).isSome) :
    classifyLine line = .nonTerminating := by
  unfold parseCmgsReference at h
  cases hstrip : stripPrefix "+CMGS:".toList (trim line.toList) with
  | none =>
    rw [hstrip] at h
    cases h
  | some rest =>
    rw [classifyLine, stripPrefix_eq_some.mp hstrip]
    rfl

theorem parseCmgsReference_terminator {line : String} {result : AtResult}
    (h : classifyLine line = .terminator result) : parseCmgsReference line = none := by
  cases hreference : parseCmgsReference line with
  | none => rfl
  | some r => cases h.symm.trans (classifyLine_reference (by rw [hreference]; rfl))

/-- The reference in the last line that gives one. -/
def lastReference (lines : List String) : Option Nat :=
  (lines.filterMap parseCmgsReference).getLast?

theorem parseSendOutcomeFrom_reference {line : String} {r : Nat}
    (h : parseCmgsReference line = some r) (reference : Option Nat) (lines : List String) :
    parseSendOutcomeFrom reference (line :: lines) = parseSendOutcomeFrom (some r) lines := by
  simp [parseSendOutcomeFrom, h]

theorem parseSendOutcomeFrom_data {line : String} (hnone : parseCmgsReference line = none)
    (h : classifyLine line = .nonTerminating) (reference : Option Nat) (lines : List String) :
    parseSendOutcomeFrom reference (line :: lines) = parseSendOutcomeFrom reference lines := by
  simp [parseSendOutcomeFrom, hnone, h]

/-- Lines that end nothing leave the last reference among them. -/
theorem parseSendOutcomeFrom_lines {lines : List String}
    (hlines : ∀ l ∈ lines, classifyLine l = .nonTerminating) (reference : Option Nat)
    (rest : List String) : parseSendOutcomeFrom reference (lines ++ rest) =
      parseSendOutcomeFrom ((lastReference lines).or reference) rest := by
  induction lines generalizing reference with
  | nil => rfl
  | cons line lines ih =>
    have hrest := ih (fun l hl => hlines l (List.mem_cons_of_mem line hl))
    rw [List.cons_append, lastReference]
    cases hline : parseCmgsReference line with
    | none =>
      rw [parseSendOutcomeFrom_data hline (hlines line List.mem_cons_self),
        List.filterMap_cons_none hline]
      exact hrest reference
    | some r =>
      have hlast : ((lines.filterMap parseCmgsReference).getLast?.or (some r)).or reference =
          (lines.filterMap parseCmgsReference).getLast?.or (some r) := by
        cases (lines.filterMap parseCmgsReference).getLast? <;> rfl
      rw [parseSendOutcomeFrom_reference hline, List.filterMap_cons_some hline, List.getLast?_cons,
        ← Option.or_some, hlast]
      exact hrest (some r)

/-- There is a reference then if one of the lines gives one or there was one. -/
theorem parseSendOutcomeFrom_append {lines : List String} (rest : List String)
    (hlines : ∀ line ∈ lines, classifyLine line = .nonTerminating) (reference : Option Nat) :
    ∃ found, parseSendOutcomeFrom reference (lines ++ rest) = parseSendOutcomeFrom found rest ∧
      (found.isSome ↔ reference.isSome ∨ ∃ line ∈ lines, (parseCmgsReference line).isSome) := by
  refine ⟨_, parseSendOutcomeFrom_lines hlines reference rest, ?_⟩
  have hlast : (lastReference lines).isSome ↔
      ∃ line ∈ lines, (parseCmgsReference line).isSome := by
    rw [lastReference, List.getLast?_isSome, ne_eq, List.filterMap_eq_nil_iff]
    simp [Option.isSome_iff_ne_none]
  rw [← hlast, Option.isSome_or, Bool.or_eq_true, or_comm]

/-! ## Stored messages -/

structure ParsedInbound where
  sender : String
  body : String
  deriving DecidableEq, Repr

/-- Splits at commas outside double quotes: the fields closed so far, the open
field, and whether a quote is open. -/
def splitQuotedCsvFrom : List Char → List Char → Bool → List (List Char)
  | [], current, _ => [current]
  | c :: s, current, inQuotes =>
    if c = '"' then splitQuotedCsvFrom s (current ++ [c]) (!inQuotes)
    else if c = ',' ∧ inQuotes = false then current :: splitQuotedCsvFrom s [] inQuotes
    else splitQuotedCsvFrom s (current ++ [c]) inQuotes

def splitQuotedCsv (s : List Char) : List (List Char) := splitQuotedCsvFrom s [] false

def parseCmgrSender (header : List Char) : Option String := do
  let rest ← stripPrefix "+CMGR:".toList (trimStart header)
  let field ← (splitQuotedCsv (trim rest))[1]?
  return String.ofList (trimMatches '"' (trim field))

def cmgrDcsIsUcs2 (header : List Char) : Bool :=
  match stripPrefix "+CMGR:".toList (trimStart header) with
  | none => false
  | some rest =>
    match (splitQuotedCsv (trim rest))[7]?.bind
        (fun f => parseU16 (trimMatches '"' (trim f))) with
    | some dcs => dcs &&& 0x0C == 0x08
    | none => false

def parseCmgr (response : String) : Option ParsedInbound :=
  let isHeader := fun l => (stripPrefix "+CMGR:".toList (trimStart l)).isSome
  match (lines response.toList).dropWhile (fun l => !isHeader l) with
  | [] => none
  | header :: rest =>
    match parseCmgrSender header with
    | none => none
    | some sender =>
      let bodyLines := rest.takeWhile (fun l =>
        classifyLine (String.ofList l) == .nonTerminating)
      let rawBody := join ['\n'] bodyLines
      let body :=
        if cmgrDcsIsUcs2 header then
          (Sms.ucs2HexDecode (String.ofList (trim rawBody))).getD (String.ofList rawBody)
        else String.ofList rawBody
      some ⟨sender, body⟩

def cmgrHeader (sender : String) : String :=
  "+CMGR: \"REC UNREAD\",\"" ++ sender ++ "\",,\"24/01/02,03:04:05+00\""

def formatCmgrResponse (sender body : String) : String :=
  cmgrHeader sender ++ "\r\n" ++ body ++ "\r\nOK"

structure AtExchange where
  command : String
  lines : List String
  result : AtResult
  deriving DecidableEq, Repr

/-- `lines.join("\n")`. -/
def AtExchange.response (e : AtExchange) : String :=
  String.ofList (join ['\n'] (e.lines.map String.toList))

/-! ## Notifications and status lines -/

def parseCmtiIndex (line : String) : Option Nat := do
  let rest ← stripPrefix "+CMTI:".toList (trim line.toList)
  let last ← (rest.splitOn ',').getLast?
  parseU32 (trim last)

theorem parseCmtiIndex_blank {line : String} (h : isBlank line = true) :
    parseCmtiIndex line = none := by
  have hnil : trim line.toList = [] := List.isEmpty_iff.mp h
  rw [parseCmtiIndex, hnil]
  rfl

/-- The indices that the notifications among the lines announce. -/
def indices (lines : List String) : List Nat := lines.filterMap parseCmtiIndex

/-- The text after the first line that begins with `tag`. -/
def findTagged (tag : String) (ls : List String) : Option (List Char) :=
  ls.findSome? (fun l => stripPrefix tag.toList (trim l.toList))

def parseCpin (ls : List String) : SimStatus :=
  match findTagged "+CPIN:" ls with
  | some rest => if trim rest = "READY".toList then .ready else .notReady
  | none => .unknown

def parseCregRegistered (ls : List String) : Bool :=
  match findTagged "+CREG:" ls with
  | none => false
  | some rest =>
    match (rest.splitOn ',')[1]? with
    | none => false
    | some stat =>
      let s := trimMatches '"' (trim stat)
      s == ['1'] || s == ['5']

def parseCsqPercent (ls : List String) : Option Nat := do
  let rest ← findTagged "+CSQ:" ls
  let first ← (rest.splitOn ',').head?
  let rssi ← parseU32 (trim first)
  if rssi = 99 ∨ 31 < rssi then none
  else some (rssi * 100 / 31)

def parseCopsOperator (ls : List String) : Option String := do
  let rest ← findTagged "+COPS:" ls
  let field ← (splitQuotedCsv (trim rest))[2]?
  let operator := trimMatches '"' (trim field)
  if operator.isEmpty then none else some (String.ofList operator)

end Modem
end GreenRelay
