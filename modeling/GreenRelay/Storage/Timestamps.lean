/-
Timestamps in TEXT columns.

Every time is stored as the text that `to_rfc3339` prints, and the statements
that order messages or compare them with a cutoff leave that to SQLite, which
compares the bytes.  The texts differ in length, with the digits of the fraction,
but their order is the order of the instants (`Rfc3339`), so an answer about the
stored rows is an answer about the messages (`Query.Answers.of_map`).

`chrono` is outside the repository.  What it prints is assumed for every
instant; what it reads back only for the instants that are stored.
-/
import GreenRelay.Lib.Query
import GreenRelay.Lib.Rfc3339
import GreenRelay.Lib.Table
import GreenRelay.Modem.World
import GreenRelay.Storage.Migrations

namespace GreenRelay
namespace Storage

open Rfc3339 (Instant)
open Unicode (utf8)

structure Chrono where
  toRfc3339 : Instant → List Char
  parseFromRfc3339 : List Char → Except String Instant

def Chrono.Prints (chrono : Chrono) : Prop := ∀ t, chrono.toRfc3339 t = t.toRfc3339

def Chrono.Reads (chrono : Chrono) (t : Instant) : Prop :=
  chrono.parseFromRfc3339 (chrono.toRfc3339 t) = .ok t

/-- The comparison of TEXT values. -/
def textBefore (a b : List Char) : Bool := utf8 a < utf8 b

def decodeError (source : String) : DbError :=
  .sqlx ("error occurred while decoding: " ++ source)

def parseTs (chrono : Chrono) (text : List Char) : Except DbError Instant :=
  (chrono.parseFromRfc3339 text).mapError decodeError

def asDbStr : MessageStatus → String
  | .queued => "queued"
  | .sent => "sent"
  | .failed => "failed"

def fromDbStr (s : String) : Option MessageStatus :=
  if s = "queued" then some .queued
  else if s = "sent" then some .sent
  else if s = "failed" then some .failed
  else none

theorem fromDbStr_asDbStr (status : MessageStatus) : fromDbStr (asDbStr status) = some status := by
  cases status <;> decide

theorem asDbStr_inj {status status' : MessageStatus} :
    asDbStr status = asDbStr status' ↔ status = status' := by
  cases status <;> cases status' <;> decide

/-! ## Inbound messages -/

structure InboundMessage where
  id : Nat
  fromNumber : String
  body : String
  receivedAt : Instant
  deriving DecidableEq, Repr

structure InboundRow where
  id : Nat
  fromNumber : String
  body : String
  receivedAt : List Char
  deriving DecidableEq, Repr

abbrev InboundRows := Table InboundRow InboundRow.id

def createInboundMessage (chrono : Chrono) (t : InboundRows) (fromNumber body : String)
    (receivedAt : Instant) : InboundRows × InboundMessage :=
  (t.insert (fun id => ⟨id, fromNumber, body, chrono.toRfc3339 receivedAt⟩) (fun _ => rfl),
    ⟨t.seq + 1, fromNumber, body, receivedAt⟩)

def inboundFromRow (chrono : Chrono) (row : InboundRow) : Except DbError InboundMessage := do
  let receivedAt ← parseTs chrono row.receivedAt
  return ⟨row.id, row.fromNumber, row.body, receivedAt⟩

/-- `ORDER BY received_at DESC, id DESC LIMIT ? OFFSET ?`. -/
def listInboundQuery (limit offset : Int) : Query InboundRow where
  keep _ := true
  before a b := textBefore b.receivedAt a.receivedAt ||
    decide (a.receivedAt = b.receivedAt ∧ b.id ≤ a.id)
  limit := limit
  offset := offset

def listInboundMessages (chrono : Chrono) (answer : List InboundRow) :
    Except DbError (List InboundMessage) :=
  answer.mapM (inboundFromRow chrono)

structure InboundActivityRow where
  receivedAt : Instant
  fromNumber : String
  deriving DecidableEq, Repr

/-- `WHERE column >= ? ORDER BY column DESC LIMIT 50`. -/
def recentQuery {ρ : Type} (column : ρ → List Char) (cutoff : List Char) : Query ρ where
  keep r := !textBefore (column r) cutoff
  before a b := !textBefore (column a) (column b)
  limit := 50
  offset := 0

/-- Rows whose timestamp does not parse are left out. -/
def recentInboundActivity (chrono : Chrono) (answer : List InboundRow) : List InboundActivityRow :=
  answer.filterMap fun row =>
    (chrono.parseFromRfc3339 row.receivedAt).toOption.map fun ts => ⟨ts, row.fromNumber⟩

/-! ## Outbound messages -/

structure OutboundMessage where
  id : Nat
  toNumber : String
  body : String
  status : MessageStatus
  partCount : UInt8
  msgReference : Option String
  errorCode : Option String
  createdAt : Instant
  updatedAt : Instant
  deriving DecidableEq, Repr

structure OutboundRow where
  id : Nat
  toNumber : String
  body : String
  status : String
  partCount : Nat
  msgReference : Option String
  errorCode : Option String
  createdAt : List Char
  updatedAt : List Char
  deriving DecidableEq, Repr

abbrev OutboundRows := Table OutboundRow OutboundRow.id

/-- A write that was committed. -/
inductive OutboundWrite where
  | create (now : Instant) (toNumber body : String) (status : MessageStatus) (partCount : UInt8)
  | setStatus (now : Instant) (id : Nat) (status : MessageStatus)
      (msgReference errorCode : Option String)
  deriving DecidableEq, Repr

def writeOutbound (chrono : Chrono) (t : OutboundRows) : OutboundWrite → OutboundRows
  | .create now toNumber body status partCount =>
      t.insert (fun id => ⟨id, toNumber, body, asDbStr status, partCount.toNat, none, none,
        chrono.toRfc3339 now, chrono.toRfc3339 now⟩) (fun _ => rfl)
  | .setStatus now id status msgReference errorCode =>
      t.modify id (fun r => { r with status := asDbStr status, msgReference, errorCode,
                                     updatedAt := chrono.toRfc3339 now }) (fun _ => rfl)

def outboundFromRow (chrono : Chrono) (row : OutboundRow) : Except DbError OutboundMessage := do
  let status ← match fromDbStr row.status with
    | some status => pure status
    | none => throw (decodeError ("unknown message status " ++ "`" ++ row.status ++ "`"))
  let createdAt ← parseTs chrono row.createdAt
  let updatedAt ← parseTs chrono row.updatedAt
  return ⟨row.id, row.toNumber, row.body, status, UInt8.ofNat row.partCount, row.msgReference,
    row.errorCode, createdAt, updatedAt⟩

/-- `WHERE status = ? AND created_at < ? ORDER BY created_at ASC LIMIT ?`. -/
def queuedOutboundQuery (olderThan : List Char) (limit : Int) : Query OutboundRow where
  keep r := decide (r.status = asDbStr .queued) && textBefore r.createdAt olderThan
  before a b := !textBefore b.createdAt a.createdAt
  limit := limit
  offset := 0

def queuedOutboundMessages (chrono : Chrono) (answer : List OutboundRow) :
    Except DbError (List OutboundMessage) :=
  answer.mapM (outboundFromRow chrono)

structure OutboundActivityRow where
  createdAt : Instant
  status : String
  toNumber : String
  deriving DecidableEq, Repr

def recentOutboundActivity (chrono : Chrono) (answer : List OutboundRow) :
    List OutboundActivityRow :=
  answer.filterMap fun row =>
    (chrono.parseFromRfc3339 row.createdAt).toOption.map fun ts => ⟨ts, row.status, row.toNumber⟩

/-! ## Persisted messages -/

def InboundMessage.row (chrono : Chrono) (m : InboundMessage) : InboundRow :=
  ⟨m.id, m.fromNumber, m.body, chrono.toRfc3339 m.receivedAt⟩

def OutboundMessage.row (chrono : Chrono) (m : OutboundMessage) : OutboundRow :=
  ⟨m.id, m.toNumber, m.body, asDbStr m.status, m.partCount.toNat, m.msgReference, m.errorCode,
    chrono.toRfc3339 m.createdAt, chrono.toRfc3339 m.updatedAt⟩

theorem OutboundMessage.row_id (chrono : Chrono) (m : OutboundMessage) :
    (m.row chrono).id = m.id := rfl

structure InboundCall where
  fromNumber : String
  body : String
  receivedAt : Instant
  deriving DecidableEq, Repr

/-- The table and the messages that were returned, after one more call. -/
def receive (chrono : Chrono) (s : InboundRows × List InboundMessage) (c : InboundCall) :
    InboundRows × List InboundMessage :=
  let (t, m) := createInboundMessage chrono s.1 c.fromNumber c.body c.receivedAt
  (t, s.2 ++ [m])

def receiveAll (chrono : Chrono) (calls : List InboundCall) : InboundRows × List InboundMessage :=
  calls.foldl (receive chrono) (Table.empty, [])

/-- What a write does to the messages that the rows stand for. -/
def OutboundWrite.apply (t : Table OutboundMessage OutboundMessage.id) :
    OutboundWrite → Table OutboundMessage OutboundMessage.id
  | .create now toNumber body status partCount =>
      t.insert (fun id => ⟨id, toNumber, body, status, partCount, none, none, now, now⟩)
        (fun _ => rfl)
  | .setStatus now id status msgReference errorCode =>
      t.modify id (fun m => { m with status, msgReference, errorCode, updatedAt := now })
        (fun _ => rfl)

section

variable (chrono : Chrono)

theorem foldl_receive_rows (calls : List InboundCall) (s : InboundRows × List InboundMessage)
    (h : s.1.rows = s.2.map (InboundMessage.row chrono)) :
    (calls.foldl (receive chrono) s).1.rows
      = (calls.foldl (receive chrono) s).2.map (InboundMessage.row chrono) := by
  induction calls generalizing s with
  | nil => exact h
  | cons c calls ih =>
      apply ih
      show s.1.rows ++ _ = (s.2 ++ _).map _
      rw [h, List.map_append]
      rfl

theorem receiveAll_rows (calls : List InboundCall) :
    (receiveAll chrono calls).1.rows
      = (receiveAll chrono calls).2.map (InboundMessage.row chrono) :=
  foldl_receive_rows chrono calls _ rfl

theorem writeOutbound_map (t : Table OutboundMessage OutboundMessage.id) (w : OutboundWrite) :
    writeOutbound chrono (t.map (OutboundMessage.row chrono) (OutboundMessage.row_id chrono)) w
      = (w.apply t).map (OutboundMessage.row chrono) (OutboundMessage.row_id chrono) := by
  cases w with
  | create now toNumber body status partCount =>
      rw [OutboundWrite.apply, Table.map_insert]
      rfl
  | setStatus now id status msgReference errorCode =>
      symm
      apply Table.map_modify t (OutboundMessage.row_id chrono) <;> exact fun _ => rfl

theorem foldl_writeOutbound (writes : List OutboundWrite)
    (t : Table OutboundMessage OutboundMessage.id) :
    writes.foldl (writeOutbound chrono)
      (t.map (OutboundMessage.row chrono) (OutboundMessage.row_id chrono))
      = (writes.foldl OutboundWrite.apply t).map (OutboundMessage.row chrono)
          (OutboundMessage.row_id chrono) := by
  induction writes generalizing t with
  | nil => rfl
  | cons w writes ih => rw [List.foldl_cons, List.foldl_cons, writeOutbound_map, ih]

/-- The stored rows are those of the messages. -/
theorem outbound_rows (writes : List OutboundWrite) :
    (writes.foldl (writeOutbound chrono) Table.empty).rows
      = (writes.foldl OutboundWrite.apply Table.empty).rows.map (OutboundMessage.row chrono) := by
  have h := congrArg Table.rows (foldl_writeOutbound chrono writes Table.empty)
  exact h

variable {chrono}

theorem parseTs_printed {t : Instant} (h : chrono.Reads t) :
    parseTs chrono (chrono.toRfc3339 t) = .ok t := by
  rw [parseTs, h]
  rfl

theorem inboundFromRow_row {m : InboundMessage} (h : chrono.Reads m.receivedAt) :
    inboundFromRow chrono (m.row chrono) = .ok m := by
  rw [inboundFromRow, InboundMessage.row, parseTs_printed h]
  rfl

theorem outboundFromRow_row {m : OutboundMessage} (hcreated : chrono.Reads m.createdAt)
    (hupdated : chrono.Reads m.updatedAt) : outboundFromRow chrono (m.row chrono) = .ok m := by
  rw [outboundFromRow, OutboundMessage.row, fromDbStr_asDbStr, parseTs_printed hcreated,
    parseTs_printed hupdated]
  show Except.ok _ = _
  rw [UInt8.ofNat_toNat]

theorem mapM_rows {μ ρ : Type} {row : μ → ρ} {read : ρ → Except DbError μ} {ms : List μ}
    (h : ∀ m ∈ ms, read (row m) = .ok m) : (ms.map row).mapM read = .ok ms := by
  induction ms with
  | nil => rfl
  | cons m ms ih =>
      rw [List.map_cons, List.mapM_cons, h m (List.mem_cons_self ..),
        ih (fun m' hm' => h m' (List.mem_cons_of_mem m hm'))]
      rfl

theorem filterMap_rows {μ ρ α : Type} {row : μ → ρ} {read : ρ → Option α} {activity : μ → α}
    {ms : List μ} (h : ∀ m ∈ ms, read (row m) = some (activity m)) :
    (ms.map row).filterMap read = ms.map activity := by
  induction ms with
  | nil => rfl
  | cons m ms ih =>
      rw [List.map_cons, List.filterMap_cons_some (h m (List.mem_cons_self ..)),
        ih (fun m' hm' => h m' (List.mem_cons_of_mem m hm')), List.map_cons]

/-! ## Statements about instants -/

/-- Newest first, and the later id first between equal times. -/
def newestFirst (limit offset : Int) : Query InboundMessage where
  keep _ := true
  before a b := decide (b.receivedAt.ticks < a.receivedAt.ticks) ||
    decide (a.receivedAt.ticks = b.receivedAt.ticks ∧ b.id ≤ a.id)
  limit := limit
  offset := offset

/-- The queued messages older than an instant, oldest first. -/
def queuedBefore (cutoff : Instant) (limit : Int) : Query OutboundMessage where
  keep m := decide (m.status = .queued) && decide (m.createdAt.ticks < cutoff.ticks)
  before a b := decide (a.createdAt.ticks ≤ b.createdAt.ticks)
  limit := limit
  offset := 0

/-- What is not older than an instant, newest first. -/
def notOlder {μ : Type} (time : μ → Instant) (cutoff : Instant) : Query μ where
  keep m := decide (cutoff.ticks ≤ (time m).ticks)
  before a b := decide ((time b).ticks ≤ (time a).ticks)
  limit := 50
  offset := 0

theorem textBefore_printed (hprint : chrono.Prints) (s t : Instant) :
    textBefore (chrono.toRfc3339 s) (chrono.toRfc3339 t) = decide (s.ticks < t.ticks) := by
  rw [textBefore, hprint, hprint]
  exact decide_eq_decide.mpr (Instant.utf8_toRfc3339_lt_iff s t)

theorem not_textBefore_printed (hprint : chrono.Prints) (s t : Instant) :
    (!textBefore (chrono.toRfc3339 s) (chrono.toRfc3339 t)) = decide (t.ticks ≤ s.ticks) := by
  rw [textBefore_printed hprint, ← decide_not]
  exact decide_eq_decide.mpr Nat.not_lt

theorem listInbound_answers (hprint : chrono.Prints) {ms : List InboundMessage} {limit offset : Int}
    {answer : List InboundRow}
    (h : (listInboundQuery limit offset).Answers (ms.map (InboundMessage.row chrono)) answer) :
    ∃ listed, (newestFirst limit offset).Answers ms listed ∧
      answer = listed.map (InboundMessage.row chrono) := by
  refine Query.Answers.of_map (fun _ => rfl) ?_ rfl rfl h
  intro a b
  have hsame : chrono.toRfc3339 a.receivedAt = chrono.toRfc3339 b.receivedAt ↔
      a.receivedAt.ticks = b.receivedAt.ticks := by
    rw [hprint, hprint, Instant.toRfc3339_inj]
  show (textBefore (chrono.toRfc3339 b.receivedAt) (chrono.toRfc3339 a.receivedAt) ||
    decide (chrono.toRfc3339 a.receivedAt = chrono.toRfc3339 b.receivedAt ∧ b.id ≤ a.id)) = _
  rw [textBefore_printed hprint, decide_eq_decide.mpr (and_congr_left' hsame)]
  rfl

theorem recent_answers (hprint : chrono.Prints) {μ ρ : Type} {row : μ → ρ} {column : ρ → List Char}
    {time : μ → Instant} (hcolumn : ∀ m, column (row m) = chrono.toRfc3339 (time m))
    {ms : List μ} {cutoff : Instant} {answer : List ρ}
    (h : (recentQuery column (chrono.toRfc3339 cutoff)).Answers (ms.map row) answer) :
    ∃ recent, (notOlder time cutoff).Answers ms recent ∧ answer = recent.map row := by
  refine Query.Answers.of_map ?_ ?_ rfl rfl h
  · intro m
    show (!textBefore (column (row m)) (chrono.toRfc3339 cutoff)) = _
    rw [hcolumn, not_textBefore_printed hprint]
    rfl
  · intro a b
    show (!textBefore (column (row a)) (column (row b))) = _
    rw [hcolumn, hcolumn, not_textBefore_printed hprint]
    rfl

theorem recentQuery_run {ρ : Type} (column : ρ → List Char) (cutoff : List Char) (rows : List ρ) :
    (recentQuery column cutoff).Answers rows ((recentQuery column cutoff).run rows) := by
  apply Query.run_answers
  · intro a b c hab hbc
    simp only [recentQuery, textBefore, Bool.not_eq_true', decide_eq_false_iff_not,
      List.not_lt] at *
    exact List.le_trans hbc hab
  · intro a b
    simp only [recentQuery, textBefore, Bool.or_eq_true, Bool.not_eq_true',
      decide_eq_false_iff_not, List.not_lt]
    exact List.le_total _ _

theorem queued_answers (hprint : chrono.Prints) {ms : List OutboundMessage} {cutoff : Instant}
    {limit : Int} {answer : List OutboundRow}
    (h : (queuedOutboundQuery (chrono.toRfc3339 cutoff) limit).Answers
      (ms.map (OutboundMessage.row chrono)) answer) :
    ∃ queued, (queuedBefore cutoff limit).Answers ms queued ∧
      answer = queued.map (OutboundMessage.row chrono) := by
  refine Query.Answers.of_map ?_ ?_ rfl rfl h
  · intro m
    show (decide (asDbStr m.status = asDbStr .queued) &&
      textBefore (chrono.toRfc3339 m.createdAt) (chrono.toRfc3339 cutoff)) = _
    rw [textBefore_printed hprint, decide_eq_decide.mpr asDbStr_inj]
    rfl
  · intro a b
    exact not_textBefore_printed hprint b.createdAt a.createdAt

end

/-! ## The order of stored timestamps -/

def InboundMessage.activity (m : InboundMessage) : InboundActivityRow :=
  ⟨m.receivedAt, m.fromNumber⟩

def OutboundMessage.activity (m : OutboundMessage) : OutboundActivityRow :=
  ⟨m.createdAt, asDbStr m.status, m.toNumber⟩

theorem recentInboundActivity_rows {chrono : Chrono} {ms : List InboundMessage}
    (h : ∀ m ∈ ms, chrono.Reads m.receivedAt) :
    recentInboundActivity chrono (ms.map (InboundMessage.row chrono))
      = ms.map InboundMessage.activity := by
  apply filterMap_rows
  intro m hm
  have hread : chrono.parseFromRfc3339 (chrono.toRfc3339 m.receivedAt) = .ok m.receivedAt := h m hm
  rw [InboundMessage.row, hread]
  rfl

theorem recentOutboundActivity_rows {chrono : Chrono} {ms : List OutboundMessage}
    (h : ∀ m ∈ ms, chrono.Reads m.createdAt) :
    recentOutboundActivity chrono (ms.map (OutboundMessage.row chrono))
      = ms.map OutboundMessage.activity := by
  apply filterMap_rows
  intro m hm
  have hread : chrono.parseFromRfc3339 (chrono.toRfc3339 m.createdAt) = .ok m.createdAt := h m hm
  rw [OutboundMessage.row, hread]
  rfl

/-- The texts compare as the instants do, so each statement answers about the
messages what its text says about time: the listing is newest first, the reaper
sees exactly the queued messages older than its cutoff, and the activity feed
exactly the messages that are not. -/
theorem timestamps_sort_as_time {chrono : Chrono} (hprint : chrono.Prints) :
    (∀ s t : Instant,
      textBefore (chrono.toRfc3339 s) (chrono.toRfc3339 t) = true ↔ s.ticks < t.ticks) ∧
    (∀ (calls : List InboundCall) (limit offset : Int) (answer : List InboundRow),
      (∀ m ∈ (receiveAll chrono calls).2, chrono.Reads m.receivedAt) →
      (listInboundQuery limit offset).Answers (receiveAll chrono calls).1.rows answer →
      ∃ listed, (newestFirst limit offset).Answers (receiveAll chrono calls).2 listed ∧
        listInboundMessages chrono answer = .ok listed) ∧
    (∀ (calls : List InboundCall) (cutoff : Instant) (answer : List InboundRow),
      (∀ m ∈ (receiveAll chrono calls).2, chrono.Reads m.receivedAt) →
      (recentQuery InboundRow.receivedAt (chrono.toRfc3339 cutoff)).Answers
        (receiveAll chrono calls).1.rows answer →
      ∃ recent, (notOlder InboundMessage.receivedAt cutoff).Answers (receiveAll chrono calls).2
          recent ∧
        recentInboundActivity chrono answer = recent.map InboundMessage.activity) ∧
    (∀ (writes : List OutboundWrite) (cutoff : Instant) (limit : Int) (answer : List OutboundRow),
      (∀ m ∈ (writes.foldl OutboundWrite.apply Table.empty).rows,
        chrono.Reads m.createdAt ∧ chrono.Reads m.updatedAt) →
      (queuedOutboundQuery (chrono.toRfc3339 cutoff) limit).Answers
        (writes.foldl (writeOutbound chrono) Table.empty).rows answer →
      ∃ queued, (queuedBefore cutoff limit).Answers
          (writes.foldl OutboundWrite.apply Table.empty).rows queued ∧
        queuedOutboundMessages chrono answer = .ok queued) ∧
    (∀ (writes : List OutboundWrite) (cutoff : Instant) (answer : List OutboundRow),
      (∀ m ∈ (writes.foldl OutboundWrite.apply Table.empty).rows, chrono.Reads m.createdAt) →
      (recentQuery OutboundRow.createdAt (chrono.toRfc3339 cutoff)).Answers
        (writes.foldl (writeOutbound chrono) Table.empty).rows answer →
      ∃ recent, (notOlder OutboundMessage.createdAt cutoff).Answers
          (writes.foldl OutboundWrite.apply Table.empty).rows recent ∧
        recentOutboundActivity chrono answer = recent.map OutboundMessage.activity) := by
  refine ⟨?_, ?_, ?_, ?_, ?_⟩
  · intro s t
    rw [textBefore_printed hprint, decide_eq_true_iff]
  · intro calls limit offset answer hreads h
    rw [receiveAll_rows] at h
    obtain ⟨listed, hlisted, rfl⟩ := listInbound_answers hprint h
    exact ⟨listed, hlisted,
      mapM_rows (fun m hm => inboundFromRow_row (hreads m (hlisted.mem hm).1))⟩
  · intro calls cutoff answer hreads h
    rw [receiveAll_rows] at h
    have hcolumn (m : InboundMessage) :
        (m.row chrono).receivedAt = chrono.toRfc3339 m.receivedAt := rfl
    obtain ⟨recent, hrecent, rfl⟩ := recent_answers hprint hcolumn h
    exact ⟨recent, hrecent, recentInboundActivity_rows (fun m hm => hreads m (hrecent.mem hm).1)⟩
  · intro writes cutoff limit answer hreads h
    rw [outbound_rows] at h
    obtain ⟨queued, hqueued, rfl⟩ := queued_answers hprint h
    refine ⟨queued, hqueued, mapM_rows (fun m hm => ?_)⟩
    have hread := hreads m (hqueued.mem hm).1
    exact outboundFromRow_row hread.1 hread.2
  · intro writes cutoff answer hreads h
    rw [outbound_rows] at h
    have hcolumn (m : OutboundMessage) :
        (m.row chrono).createdAt = chrono.toRfc3339 m.createdAt := rfl
    obtain ⟨recent, hrecent, rfl⟩ := recent_answers hprint hcolumn h
    exact ⟨recent, hrecent, recentOutboundActivity_rows (fun m hm => hreads m (hrecent.mem hm).1)⟩

def sampleSecond : Instant :=
  ⟨2024, 6, 1, 43205, 0, by decide, by decide, by decide, by decide, by decide, by decide,
    by decide, by decide⟩

def sampleHalf : Instant :=
  ⟨2024, 6, 1, 43205, 500000000, by decide, by decide, by decide, by decide, by decide, by decide,
    by decide, by decide⟩

def sampleChrono : Chrono where
  toRfc3339 := Instant.toRfc3339
  parseFromRfc3339 text :=
    if text = sampleSecond.toRfc3339 then .ok sampleSecond
    else if text = sampleHalf.toRfc3339 then .ok sampleHalf
    else .error "premature end of input"

def sampleCalls : List InboundCall :=
  [⟨"+14155550001", "second", sampleSecond⟩, ⟨"+14155550002", "half", sampleHalf⟩]

theorem sampleChrono_reads :
    sampleChrono.Reads sampleSecond ∧ sampleChrono.Reads sampleHalf := by
  have hne : sampleHalf.toRfc3339 ≠ sampleSecond.toRfc3339 := by decide +kernel
  simp [Chrono.Reads, sampleChrono, hne]

theorem timestamps_sort_as_time_mixed :
    textBefore (sampleChrono.toRfc3339 sampleSecond) (sampleChrono.toRfc3339 sampleHalf) = true ∧
    ∃ listed, (newestFirst 10 0).Answers (receiveAll sampleChrono sampleCalls).2 listed ∧
      listInboundMessages sampleChrono (receiveAll sampleChrono sampleCalls).1.rows.reverse
        = .ok listed := by
  have hprint : sampleChrono.Prints := fun _ => rfl
  have hreads : ∀ m ∈ (receiveAll sampleChrono sampleCalls).2,
      sampleChrono.Reads m.receivedAt := by
    intro m hm
    have hmem : m.receivedAt ∈ [sampleSecond, sampleHalf] := List.mem_map_of_mem hm
    simp only [List.mem_cons, List.not_mem_nil, or_false] at hmem
    rcases hmem with h | h
    · rw [h]
      exact sampleChrono_reads.1
    · rw [h]
      exact sampleChrono_reads.2
  have hanswer : (listInboundQuery 10 0).Answers (receiveAll sampleChrono sampleCalls).1.rows
      (receiveAll sampleChrono sampleCalls).1.rows.reverse :=
    ⟨(receiveAll sampleChrono sampleCalls).1.rows.reverse, by decide +kernel, by decide +kernel,
      rfl⟩
  exact ⟨((timestamps_sort_as_time hprint).1 sampleSecond sampleHalf).mpr (by decide +kernel),
    (timestamps_sort_as_time hprint).2.1 sampleCalls 10 0 _ hreads hanswer⟩

end Storage
end GreenRelay
