/-
Lines, whatever the timing.

A call of `read_line` can end in the middle of a line: its deadline passes, or
the caller drops it at an await point, as `tokio::select!` does when the other
branch is ready first.  What it has read stays pending, so a run of calls returns
the lines of the stream in order, however the stream is cut into reads.
-/
import GreenRelay.Modem.SerialPort

namespace GreenRelay
namespace Modem
namespace SerialPort

open Buffered Unicode

/-- What becomes of a call at an await point: the read ends there, or the call is
dropped, and then the read has taken nothing from the port.  A call that is
dropped before it is polled does nothing at all, and is not a call here. -/
inductive Await where
  | ended (read : Read UInt8)
  | dropped
  deriving DecidableEq, Repr

inductive Ending where
  | line (text : String)
  | timeout
  | failed
  | dropped
  | waiting
  deriving DecidableEq, Repr

structure LineCall where
  ending : Ending
  pending : List UInt8
  rest : List Await

/-- `read_line` with its await points. -/
def pollLine (pending : List UInt8) (awaits : List Await) : LineCall :=
  match pending.findIdx? (· == newline) with
  | some pos => ⟨.line (lineText (pending.take (pos + 1))), pending.drop (pos + 1), awaits⟩
  | none =>
    match awaits with
    | [] => ⟨.waiting, pending, []⟩
    | .ended (.data bytes) :: rest => pollLine (pending ++ bytes) rest
    | .ended .timeout :: rest => ⟨.timeout, pending, rest⟩
    | .ended .failed :: rest => ⟨.failed, pending, rest⟩
    | .dropped :: rest => ⟨.dropped, pending, rest⟩

def Ending.ofReply : Reply String → Ending
  | .found text => .line text
  | .timeout => .timeout
  | .failed => .failed
  | .cut => .waiting

/-- A call that is not dropped is `readLine`. -/
theorem pollLine_ended (pending : List UInt8) (reads : List (Read UInt8)) :
    pollLine pending (reads.map .ended) =
      ⟨.ofReply (readLine pending reads).reply, (readLine pending reads).pending,
        (readLine pending reads).rest.map .ended⟩ := by
  induction reads generalizing pending with
  | nil =>
    unfold readLine
    rw [List.map_nil]
    unfold pollLine
    cases pending.findIdx? (· == newline) <;> rfl
  | cons read reads ih =>
    unfold readLine
    rw [List.map_cons]
    unfold pollLine
    cases pending.findIdx? (· == newline) with
    | some pos => rfl
    | none =>
      cases read with
      | data bytes => exact ih (pending ++ bytes)
      | timeout => rfl
      | failed => rfl

/-- The bytes that the reads deliver. -/
def stream : List Await → List UInt8
  | [] => []
  | .ended (.data bytes) :: rest => bytes ++ stream rest
  | _ :: rest => stream rest

/-! ## One call -/

/-- The first piece of the bytes that are pending or to come, or no line. -/
structure LineCall.Framed (call : LineCall) (bytes : List UInt8) : Prop where
  line : ∀ text, call.ending = .line text → ∃ piece, newline ∉ piece ∧ text = lineText piece ∧
    bytes = piece ++ newline :: (call.pending ++ stream call.rest)
  other : (∀ text, call.ending ≠ .line text) → bytes = call.pending ++ stream call.rest

theorem findIdx?_newline {pending : List UInt8} {pos : Nat}
    (h : pending.findIdx? (· == newline) = some pos) :
    newline ∉ pending.take pos ∧ pending.take (pos + 1) = pending.take pos ++ [newline] := by
  obtain ⟨hlt, hget, hbefore⟩ := List.findIdx?_eq_some_iff_getElem.mp h
  have hbyte : pending[pos] = newline := by simpa using hget
  constructor
  · intro hmem
    obtain ⟨i, hi, heq⟩ := List.mem_take_iff_getElem.mp hmem
    exact absurd heq (by simpa using hbefore i (by omega))
  · rw [← hbyte, List.take_succ_eq_append_getElem hlt]

/-- The newline and a carriage return before it are no part of the text. -/
theorem lineText_newline (piece : List UInt8) : lineText (piece ++ [newline]) = lineText piece := by
  have hread : fromUtf8Lossy (piece ++ [newline]) = fromUtf8Lossy piece ++ ['\n'] :=
    lossyFrom_ascii (by decide) none piece []
  rw [lineText, lineText, hread, trimLineEnd, List.reverse_append, List.reverse_singleton,
    List.singleton_append, List.dropWhile_cons_of_pos (by decide)]
  rfl

theorem framed_found {pending : List UInt8} {pos : Nat}
    (h : pending.findIdx? (· == newline) = some pos) (awaits : List Await) :
    LineCall.Framed ⟨.line (lineText (pending.take (pos + 1))), pending.drop (pos + 1), awaits⟩
      (pending ++ stream awaits) := by
  obtain ⟨hnot, htake⟩ := findIdx?_newline h
  constructor
  · intro text htext
    obtain rfl := Ending.line.inj htext
    refine ⟨pending.take pos, hnot, by rw [htake, lineText_newline], ?_⟩
    rw [List.append_cons, ← htake, ← List.append_assoc, List.take_append_drop]
  · intro hother
    exact absurd rfl (hother _)

theorem framed_other {call : LineCall} {bytes : List UInt8}
    (hother : ∀ text, call.ending ≠ .line text)
    (hbytes : bytes = call.pending ++ stream call.rest) : call.Framed bytes :=
  ⟨fun text h => absurd h (hother text), fun _ => hbytes⟩

theorem pollLine_framed (pending : List UInt8) (awaits : List Await) :
    (pollLine pending awaits).Framed (pending ++ stream awaits) := by
  induction awaits generalizing pending with
  | nil =>
    unfold pollLine
    cases hpos : pending.findIdx? (· == newline) with
    | some pos => exact framed_found hpos []
    | none => exact framed_other (fun text h => by cases h) rfl
  | cons await awaits ih =>
    unfold pollLine
    cases hpos : pending.findIdx? (· == newline) with
    | some pos => exact framed_found hpos (await :: awaits)
    | none =>
      cases await with
      | dropped => exact framed_other (fun text h => by cases h) rfl
      | ended read =>
        cases read with
        | data bytes =>
          have hnext := ih (pending ++ bytes)
          rwa [List.append_assoc] at hnext
        | timeout => exact framed_other (fun text h => by cases h) rfl
        | failed => exact framed_other (fun text h => by cases h) rfl

/-- A line that is whole returns, and a call that returns none has met the end of
none. -/
structure Progresses (pending : List UInt8) (awaits : List Await) : Prop where
  returns : newline ∈ pending → ∃ text, (pollLine pending awaits).ending = .line text
  quiet : (∀ text, (pollLine pending awaits).ending ≠ .line text) →
    newline ∉ (pollLine pending awaits).pending

theorem findIdx?_none {pending : List UInt8} (h : pending.findIdx? (· == newline) = none) :
    newline ∉ pending := by
  intro hmem
  have hne := List.findIdx?_eq_none_iff.mp h newline hmem
  simp at hne

theorem pollLine_progresses (pending : List UInt8) (awaits : List Await) :
    Progresses pending awaits := by
  constructor
  · intro hmem
    unfold pollLine
    cases hpos : pending.findIdx? (· == newline) with
    | some pos => exact ⟨_, rfl⟩
    | none => exact absurd hmem (findIdx?_none hpos)
  · induction awaits generalizing pending with
    | nil =>
      unfold pollLine
      cases hpos : pending.findIdx? (· == newline) with
      | some pos => exact fun hother => absurd rfl (hother _)
      | none => exact fun _ => findIdx?_none hpos
    | cons await awaits ih =>
      unfold pollLine
      cases hpos : pending.findIdx? (· == newline) with
      | some pos => exact fun hother => absurd rfl (hother _)
      | none =>
        cases await with
        | dropped => exact fun _ => findIdx?_none hpos
        | ended read =>
          cases read with
          | data bytes => exact ih (pending ++ bytes)
          | timeout | failed => exact fun _ => findIdx?_none hpos

/-! ## A run of calls -/

structure LineRun where
  lines : List String
  pending : List UInt8
  rest : List Await

def Ending.lines : Ending → List String
  | .line text => [text]
  | _ => []

/-- Successive calls on one transport. -/
def readLines : Nat → List UInt8 → List Await → LineRun
  | 0, pending, awaits => ⟨[], pending, awaits⟩
  | calls + 1, pending, awaits =>
    let call := pollLine pending awaits
    let run := readLines calls call.pending call.rest
    ⟨call.ending.lines ++ run.lines, run.pending, run.rest⟩

/-- The lines that a run of calls returns are the first pieces of the stream, cut
at each newline, and the bytes after them are pending or still to be delivered.  The
call that comes next returns a line if one is whole, and else when one becomes so. -/
theorem readLines_framing (calls : Nat) (pending : List UInt8) (awaits : List Await) :
    let run := readLines calls pending awaits
    ∃ pieces, pieces <+: (pending ++ stream awaits).splitOn newline ∧
      run.lines = pieces.map lineText ∧
      pending ++ stream awaits =
        pieces.flatMap (· ++ [newline]) ++ (run.pending ++ stream run.rest) ∧
      Progresses run.pending run.rest := by
  induction calls generalizing pending awaits with
  | zero => exact ⟨[], List.nil_prefix, rfl, rfl, pollLine_progresses pending awaits⟩
  | succ calls ih =>
    have hcall := pollLine_framed pending awaits
    obtain ⟨pieces, hpieces, hlines, hrest, hprogress⟩ :=
      ih (pollLine pending awaits).pending (pollLine pending awaits).rest
    simp only [readLines]
    cases hending : (pollLine pending awaits).ending with
    | line text =>
      obtain ⟨piece, hpiece, rfl, hbytes⟩ := hcall.line text hending
      refine ⟨piece :: pieces, ?_, ?_, ?_, hprogress⟩
      · rw [hbytes, List.splitOn_append_cons_self_of_not_mem hpiece]
        exact (List.prefix_cons_inj piece).mpr hpieces
      · rw [hlines]
        rfl
      · rw [hbytes, hrest, List.flatMap_cons, List.append_assoc, List.append_assoc]
        rfl
    | timeout | failed | dropped | waiting =>
      have hbytes := hcall.other (fun text h => by rw [hending] at h; cases h)
      rw [hbytes]
      exact ⟨pieces, hpieces, hlines, hrest, hprogress⟩

end SerialPort
end Modem
end GreenRelay
