/-
The outcome of a whole send.

A run of `handle_send` is read as a log: one entry for each part it came to, with
the attempts at that part that are over.  The log says in which order the parts
went out, how often each of them was tried, and how the last exchanges decide
the result.  `Settles` says that a run comes to its end once the modem has
nothing more to say.
-/
import GreenRelay.Modem.Attempts
import GreenRelay.Modem.Manager

namespace GreenRelay
namespace Modem

open Sms Scripted

/-! ## The error code of an exchange -/

theorem errorCode_of_unsent {e : AtExchange} (h : e.Collected)
    (hunsent : (parseSendOutcome e.lines).status ≠ .sent) :
    (parseSendOutcome e.lines).errorCode = e.result.errorCode := by
  obtain ⟨htimeout, hlines⟩ | ⟨lines, last, he, hlast, hlines⟩ := h
  · obtain ⟨found, hfound, -⟩ := parseSendOutcomeFrom_append [] hlines none
    rw [parseSendOutcome, ← List.append_nil e.lines, hfound, htimeout]
    rfl
  · obtain ⟨found, hfound, -⟩ := parseSendOutcomeFrom_append [last] hlines none
    rw [parseSendOutcome, he, hfound] at hunsent ⊢
    have hnone := parseCmgsReference_terminator hlast
    simp only [parseSendOutcomeFrom, hnone, hlast] at hunsent ⊢
    cases hresult : e.result with
    | ok =>
      simp only [hresult] at hunsent ⊢
      cases found with
      | none => rfl
      | some r => exact absurd rfl hunsent
    | _ => rfl

/-! ## The log of a send -/

/-- A part and the attempts at it that are over. -/
structure PartLog where
  segment : Segment
  attempts : List Attempt

def PartLog.shown (toNumber : String) (encoding : SmsEncoding) (p : PartLog) : List Shown :=
  p.attempts.flatMap (Attempt.shown toNumber p.segment.text encoding)

/-- The exchange of the attempt parsed as `Sent`. -/
def Attempt.Sent (a : Attempt) : Prop := (parseSendOutcome a.exchange.lines).status = .sent

/-- The last exchange of the part was `Sent`. -/
def PartLog.Sent (p : PartLog) : Prop := ∃ a ∈ p.attempts.getLast?, a.Sent

/-- The reference that the last exchange of the part gives. -/
def PartLog.reference (p : PartLog) : Option String :=
  p.attempts.getLast?.bind (fun a => (parseSendOutcome a.exchange.lines).reference.map toString)

/-- The part was tried as often as the budget allows, and not again after it
went out or timed out. -/
structure PartLog.Tried (cfg : Config) (p : PartLog) : Prop where
  bounded : p.attempts.length ≤ max 1 cfg.sendMaxAttempts
  again : ∀ a ∈ p.attempts.dropLast, ¬ a.Sent ∧ a.exchange.result ≠ .timeout

/-- How the parts decide the result.  `lastReference` is the reference of the
part before them. -/
structure Decided (lastReference : Option String) (segments : List Segment) (parts : List PartLog)
    (result : SendResult) : Prop where
  sent : result.status = .sent ↔ parts.map PartLog.segment = segments ∧ ∀ p ∈ parts, p.Sent
  reference : result.status = .sent →
    result.reference = parts.getLast?.elim lastReference PartLog.reference
  failed : result.status ≠ .sent → result.status = .failed ∧
    ∃ p ∈ parts.getLast?, ∃ a ∈ p.attempts.getLast?, ¬ a.Sent ∧
      result.errorCode = a.exchange.result.errorCode

/-- A run of the sending of `segments`, however it ends, with what it has shown
of an attempt that is not over. -/
structure SendLog (cfg : Config) (toNumber : String) (encoding : SmsEncoding)
    (lastReference : Option String) (segments : List Segment) (r : Run Answer Event SendResult)
    (parts : List PartLog) (tail : List Shown) : Prop where
  shows : shown r.trace = parts.flatMap (PartLog.shown toNumber encoding) ++ tail
  inOrder : parts.map PartLog.segment <+: segments
  inTurn : ∀ p ∈ parts.dropLast, p.Sent
  tried : ∀ p ∈ parts, p.Tried cfg
  underway : tail = [] ∨ ∃ p ∈ parts.getLast?, Started toNumber p.segment.text encoding
    (max cfg.sendMaxAttempts 1) p.attempts tail
  ending : ∀ result, r.outcome = .done result →
    tail = [] ∧ Decided lastReference segments parts result

/-! ## One part -/

theorem Attempt.undecided {a : Attempt} (h : a.verdict = none) :
    ¬ a.Sent ∧ a.exchange.result ≠ .timeout := by
  unfold Attempt.verdict at h
  by_cases hsent : (parseSendOutcome a.exchange.lines).status = .sent
  · rw [if_pos hsent] at h
    cases h
  · rw [if_neg hsent] at h
    refine ⟨hsent, fun htimeout => ?_⟩
    rw [if_pos htimeout] at h
    cases h

section Parts

variable {cfg : Config} {toNumber : String} {encoding : SmsEncoding} {segment : Segment}
  {r : Run Answer Event SendResult} {attempts : List Attempt} {tail : List Shown}

theorem AttemptLog.partTried
    (h : AttemptLog toNumber segment.text encoding (max cfg.sendMaxAttempts 1)
      none r attempts tail) :
    PartLog.Tried cfg ⟨segment, attempts⟩ where
  bounded := Nat.max_comm _ _ ▸ h.bounded
  again := fun a ha => Attempt.undecided (h.repeated a ha)

/-- The result of a part that is over is what its last exchange says. -/
theorem AttemptLog.partResult {part : String} {left : Nat}
    (h : AttemptLog toNumber part encoding left none r attempts tail) (hleft : 0 < left)
    {result : SendResult} (hr : r.outcome = .done result) :
    tail = [] ∧ ∃ a ∈ attempts.getLast?, (result.status = .sent ∨ result.status = .failed) ∧
      (result.status = .sent ↔ a.Sent) ∧
      (a.Sent → result.reference =
        (parseSendOutcome a.exchange.lines).reference.map toString) ∧
      (¬ a.Sent → result.errorCode = a.exchange.result.errorCode) := by
  have hending := h.ending
  rw [hr] at hending
  obtain ⟨htail, ⟨a, hlast, hverdict⟩ | ⟨hnone, hlength, hresult⟩⟩ := hending
  · refine ⟨htail, a, hlast, ?_⟩
    unfold Attempt.verdict at hverdict
    unfold Attempt.Sent
    by_cases hsent : (parseSendOutcome a.exchange.lines).status = .sent
    · rw [if_pos hsent] at hverdict
      rw [← Option.some.inj hverdict]
      simp [hsent]
    · rw [if_neg hsent] at hverdict
      by_cases htimeout : a.exchange.result = .timeout
      · rw [if_pos htimeout] at hverdict
        rw [← Option.some.inj hverdict, htimeout]
        simp [hsent, AtResult.errorCode]
      · rw [if_neg htimeout] at hverdict
        cases hverdict
  · obtain ⟨a, hlast⟩ : ∃ a, attempts.getLast? = some a := by
      cases hattempts : attempts.getLast? with
      | some a => exact ⟨a, rfl⟩
      | none =>
        rw [List.getLast?_eq_none_iff.mp hattempts, List.length_nil] at hlength
        omega
    have hmem := List.mem_of_getLast? hlast
    obtain ⟨hunsent, -⟩ := Attempt.undecided (hnone a hmem)
    refine ⟨htail, a, hlast, ?_⟩
    rw [hresult]
    refine ⟨.inr rfl, ⟨(fun h => by cases h), fun h => absurd h hunsent⟩,
      fun h => absurd h hunsent, fun _ => ?_⟩
    show (attempts.getLast?.map Attempt.code).getD none = a.exchange.result.errorCode
    rw [hlast]
    exact errorCode_of_unsent (h.collected a hmem) hunsent

end Parts

/-! ## All the parts -/

section Sending

variable {cfg : Config} {toNumber : String} {encoding : SmsEncoding} {segment : Segment}
  {segments : List Segment} {lastReference : Option String}

/-- The log of a send that stops at its first part. -/
theorem SendLog.single {r : Run Answer Event SendResult} {attempts : List Attempt}
    {tail : List Shown}
    (h : AttemptLog toNumber segment.text encoding (max cfg.sendMaxAttempts 1) none r attempts tail)
    (hstop : ∀ result, r.outcome = .done result → result.status ≠ .sent) :
    SendLog cfg toNumber encoding lastReference (segment :: segments) r [⟨segment, attempts⟩]
      tail where
  shows := by simpa [PartLog.shown] using h.shows
  inOrder := by simp
  inTurn := by simp
  tried := by simpa using h.partTried
  underway := by
    have hending := h.ending
    cases houtcome : r.outcome with
    | done result =>
      rw [houtcome] at hending
      exact .inl hending.1
    | failed =>
      rw [houtcome] at hending
      exact .inr ⟨_, rfl, hending⟩
    | cut =>
      rw [houtcome] at hending
      exact hending.imp_right (fun hstarted => ⟨_, rfl, hstarted⟩)
  ending := by
    intro result hr
    obtain ⟨htail, a, hlast, hstatus, hsent, -, hcode⟩ := h.partResult (by omega) hr
    have hunsent : ¬ a.Sent := fun ha => hstop result hr (hsent.mpr ha)
    refine ⟨htail, ⟨fun h => absurd h (hstop result hr), ?_⟩,
      fun h => absurd h (hstop result hr), fun _ => ⟨hstatus.resolve_left (hstop result hr), ?_⟩⟩
    · rintro ⟨-, hall⟩
      obtain ⟨b, hb, hbsent⟩ := hall ⟨segment, attempts⟩ List.mem_cons_self
      rw [hlast] at hb
      cases hb
      exact absurd hbsent hunsent
    · exact ⟨_, rfl, a, hlast, hunsent, hcode hunsent⟩

/-- The log of a send whose first part went out. -/
theorem SendLog.cons {r₁ r : Run Answer Event SendResult} {attempts : List Attempt}
    {tail₁ tail : List Shown} {parts : List PartLog} {result₁ : SendResult}
    (h₁ : AttemptLog toNumber segment.text encoding (max cfg.sendMaxAttempts 1) none r₁ attempts
      tail₁)
    (hr₁ : r₁.outcome = .done result₁) (hsent₁ : result₁.status = .sent)
    (h : SendLog cfg toNumber encoding result₁.reference segments r parts tail) :
    SendLog cfg toNumber encoding lastReference (segment :: segments)
      ⟨r.outcome, r.rest, r₁.trace ++ r.trace⟩ (⟨segment, attempts⟩ :: parts) tail := by
  obtain ⟨htail₁, a, hlast, -, hsent, hreference, -⟩ := h₁.partResult (by omega) hr₁
  have ha : a.Sent := hsent.mp hsent₁
  have hfirst : PartLog.Sent ⟨segment, attempts⟩ := ⟨a, hlast, ha⟩
  have hlastPart : ∀ p ∈ parts.getLast?, p ∈ (⟨segment, attempts⟩ :: parts).getLast? := by
    intro p hp
    rw [List.getLast?_cons, Option.mem_def.mp hp]
    rfl
  refine ⟨?_, ?_, ?_, ?_, ?_, ?_⟩
  · simp [PartLog.shown, h₁.shows, htail₁, h.shows]
  · simpa using h.inOrder
  · cases parts with
    | nil => simp
    | cons p parts => simpa using ⟨hfirst, h.inTurn⟩
  · simpa using ⟨h₁.partTried, h.tried⟩
  · exact h.underway.imp_right (fun ⟨p, hp, hstarted⟩ => ⟨p, hlastPart p hp, hstarted⟩)
  · intro result hr
    obtain ⟨htail, hdecided⟩ := h.ending result hr
    refine ⟨htail, ⟨?_, fun hs => ?_, fun hs => ?_⟩⟩
    · rw [hdecided.sent]
      simp [hfirst]
    · rw [hdecided.reference hs, List.getLast?_cons]
      cases parts.getLast? with
      | some p => rfl
      | none =>
        rw [Option.elim_none, hreference ha]
        simp [PartLog.reference, Option.mem_def.mp hlast]
    · obtain ⟨hstatus, p, hp, hcode⟩ := hdecided.failed hs
      exact ⟨hstatus, p, hlastPart p hp, hcode⟩

/-- Every run of the loop over the segments has a log. -/
theorem sendAllSegmentsFrom_log (segments : List Segment) (lastReference : Option String)
    (script : List Answer) :
    ∃ parts tail, SendLog cfg toNumber encoding lastReference segments
      (sendAllSegmentsFrom cfg toNumber encoding segments lastReference script) parts tail := by
  induction segments generalizing lastReference script with
  | nil =>
    refine ⟨[], [], rfl, by simp, by simp, by simp, .inl rfl, ?_⟩
    intro result hr
    cases hr
    exact ⟨rfl, by simp, fun _ => rfl, fun h => absurd rfl h⟩
  | cons segment segments ih =>
    unfold sendAllSegmentsFrom
    obtain ⟨attempts, tail, hlog⟩ := sendAttempts_log toNumber segment.text encoding cfg
      (max cfg.sendMaxAttempts 1) none script
    rcases run_bind_cases (sendPartWithRetries cfg toNumber segment.text encoding) _ script with
      ⟨result, rest, t, hpart, hrun⟩ | ⟨rest, t, hpart, hrun⟩ | ⟨rest, t, hpart, hrun⟩ <;>
      rw [show sendAttempts cfg toNumber segment.text encoding
          (max cfg.sendMaxAttempts 1) none script
        = _ from hpart] at hlog <;> rw [hrun]
    · cases hstatus : result.status with
      | sent =>
        obtain ⟨parts, tail', hrest⟩ := ih result.reference rest
        exact ⟨⟨segment, attempts⟩ :: parts, tail', SendLog.cons hlog rfl hstatus hrest⟩
      | _ =>
        refine ⟨[⟨segment, attempts⟩], tail, ?_⟩
        show SendLog cfg toNumber encoding lastReference (segment :: segments)
          ⟨.done result, rest, t ++ []⟩ _ tail
        rw [List.append_nil]
        refine SendLog.single hlog (fun result' hr => ?_)
        rw [← Outcome.done.inj hr, hstatus]
        decide
    · exact ⟨_, tail, SendLog.single hlog (fun result hr => by cases hr)⟩
    · exact ⟨_, tail, SendLog.single hlog (fun result hr => by cases hr)⟩

/-- What is done before and after the parts does not show in the log. -/
theorem SendLog.around {r r' : Run Answer Event SendResult} {parts : List PartLog}
    {tail : List Shown} (h : SendLog cfg toNumber encoding lastReference segments r parts tail)
    (hshown : shown r'.trace = shown r.trace)
    (hdone : ∀ result, r'.outcome = .done result → r.outcome = .done result) :
    SendLog cfg toNumber encoding lastReference segments r' parts tail :=
  { h with
    shows := hshown.trans h.shows
    ending := fun result hr => h.ending result (hdone result hr) }

theorem SendLog.unbegun {r : Run Answer Event SendResult} (hshown : shown r.trace = [])
    (hdone : ∀ result, r.outcome ≠ .done result) :
    SendLog cfg toNumber encoding lastReference segments r [] [] :=
  ⟨hshown, List.nil_prefix, by simp, by simp, .inl rfl, fun result hr => absurd hr (hdone result)⟩

theorem log_bind {α : Type} {p : Prog α} {k : α → Prog SendResult} (hp : Silent Event.shown p)
    (hk : ∀ a script, ∃ parts tail,
      SendLog cfg toNumber encoding lastReference segments (k a script) parts tail)
    (script : List Answer) :
    ∃ parts tail,
      SendLog cfg toNumber encoding lastReference segments ((p >>= k) script) parts tail := by
  have hshown := shown_of_silent hp script
  rcases run_bind_cases p k script with
    ⟨a, rest, t, hrun, h⟩ | ⟨rest, t, hrun, h⟩ | ⟨rest, t, hrun, h⟩ <;>
    rw [hrun] at hshown <;> rw [h]
  · obtain ⟨parts, tail, hlog⟩ := hk a rest
    exact ⟨parts, tail, hlog.around (by simp [hshown]) (fun _ hr => hr)⟩
  · exact ⟨[], [], SendLog.unbegun hshown (fun _ hr => by cases hr)⟩
  · exact ⟨[], [], SendLog.unbegun hshown (fun _ hr => by cases hr)⟩

theorem silent_setCharset (cscs csmp : String) : Silent Event.shown (setCharset cscs csmp) :=
  silent_bind (silent_exchange deaf_shown _) (fun _ =>
    silent_bind (silent_exchange deaf_shown _) (fun _ => silent_pure ()))

/-- What is left of a UCS2 send when the parts are done with. -/
def restoreCharset (outcome : Option SendResult) : Prog SendResult := do
  let _ ← Scripted.attempt (setCharset "IRA" "17,167,0,0")
  match outcome with
  | some result => pure result
  | none => Scripted.fail

theorem silent_restoreCharset (outcome : Option SendResult) :
    Silent Event.shown (restoreCharset outcome) := by
  refine silent_bind (silent_attempt (silent_setCharset _ _)) (fun _ => ?_)
  cases outcome with
  | some result => exact silent_pure result
  | none => exact silent_fail

theorem restoreCharset_done {outcome : Option SendResult} {result : SendResult}
    {script : List Answer} (h : (restoreCharset outcome script).outcome = .done result) :
    outcome = some result := by
  cases outcome with
  | some r => rw [done_of_bind_pure h]
  | none =>
    unfold restoreCharset at h
    rcases run_bind_cases (attempt (setCharset "IRA" "17,167,0,0"))
        (fun _ => (Scripted.fail : Prog SendResult)) script with
      ⟨_, rest, t, -, hrun⟩ | ⟨rest, t, -, hrun⟩ | ⟨rest, t, -, hrun⟩ <;> rw [hrun] at h <;> cases h

theorem log_restore {p : Prog SendResult} {script : List Answer} {parts : List PartLog}
    {tail : List Shown}
    (h : SendLog cfg toNumber encoding lastReference segments (p script) parts tail) :
    SendLog cfg toNumber encoding lastReference segments
      ((Scripted.attempt p >>= restoreCharset) script) parts tail := by
  rcases run_attempt_cases p script with
    ⟨result, rest, t, hp, hrun⟩ | ⟨rest, t, hp, hrun⟩ | ⟨rest, t, hp, hrun⟩ <;> rw [hp] at h
  · rw [run_bind_done hrun]
    refine h.around ?_ (fun r hr => ?_)
    · rw [shown_append, shown_of_silent (silent_restoreCharset _), List.append_nil]
    · rw [Option.some.inj (restoreCharset_done hr)]
  · rw [run_bind_done hrun]
    refine h.around ?_ (fun r hr => ?_)
    · rw [shown_append, shown_of_silent (silent_restoreCharset _), List.append_nil]
    · cases restoreCharset_done hr
  · rw [run_bind, hrun]
    exact h

theorem sendEncoded_ucs2 (cfg : Config) (toNumber : String) (segments : List Segment) :
    sendEncoded cfg toNumber segments .ucs2 = (do
      let _ ← exchange "AT+CMGF=1"
      setCharset "UCS2" "17,167,0,8"
      let outcome ← Scripted.attempt (sendAllSegments cfg toNumber segments .ucs2)
      restoreCharset outcome) := rfl

theorem sendEncoded_log (segments : List Segment) (encoding : SmsEncoding) (script : List Answer) :
    ∃ parts tail, SendLog cfg toNumber encoding none segments
      (sendEncoded cfg toNumber segments encoding script) parts tail := by
  cases encoding with
  | gsm7 =>
    exact log_bind (silent_exchange deaf_shown _) (fun _ => sendAllSegmentsFrom_log segments none)
      script
  | ucs2 =>
    rw [sendEncoded_ucs2]
    refine log_bind (silent_exchange deaf_shown _)
      (fun _ => log_bind (silent_setCharset _ _) (fun _ => ?_))
      script
    intro script
    obtain ⟨parts, tail, hlog⟩ := sendAllSegmentsFrom_log segments none script
    exact ⟨parts, tail, log_restore hlog⟩

end Sending


/-! ## Every send comes to its end -/

/-- An answer without an I/O error. -/
structure Answer.Sound (a : Answer) : Prop where
  write : a.write = .ok
  read : a.read ≠ .ioError
  prompt : ∀ dropped, a.prompt ≠ .ioError dropped

/-- The program returns when sound answers are followed by `n` that bring
nothing more. -/
abbrev Returns {α : Type} (n : Nat) (p : Prog α) : Prop := Settles Answer.Sound Answer.quiet n p

theorem returns_write (out : Output) : Returns 1 (writeBytes out) :=
  settles_perform (fun a ha => by rw [ha.write]; rfl) rfl

theorem returns_readLine : Returns 1 readLine := by
  refine settles_perform (fun a ha => ?_) rfl
  cases hread : a.read with
  | ioError => exact absurd hread ha.read
  | _ => rfl

theorem returns_waitForPrompt : Returns 1 waitForPrompt := by
  refine settles_perform (fun a ha => ?_) rfl
  cases hprompt : a.prompt with
  | ioError dropped => exact absurd hprompt (ha.prompt dropped)
  | _ => rfl

theorem returns_audit (eventType detail : String) : Returns 1 (audit eventType detail) :=
  settles_perform (fun _ _ => rfl) rfl

theorem returns_collect (command : String) : Returns 2 (collectUntilTerminator command) := by
  refine settles_iterate (n := 1) (advances_collectStep command) (fun lines => ?_) ?_ []
  · refine settles_bind (n := 1) (k := 0) returns_readLine (fun read => ?_)
    cases read with
    | none => exact settles_pure _
    | some line =>
      simp only
      cases classifyLine line <;> exact settles_pure _
  · intro lines m hm
    obtain ⟨m, rfl⟩ : ∃ k, m = k + 1 := ⟨m - 1, by omega⟩
    exact ⟨_, m, _, rfl, Nat.le_succ m, Nat.le_refl _⟩

theorem returns_exchange (command : String) : Returns 3 (exchange command) :=
  settles_bind (n := 1) (k := 2) (returns_write _) (fun _ =>
    settles_bind (n := 2) (k := 0) (returns_collect command) (fun e =>
      settles_bind (n := 0) (k := 0) (settles_emit _) (fun _ => settles_pure e)))

theorem returns_setCharset (cscs csmp : String) : Returns 6 (setCharset cscs csmp) :=
  settles_bind (n := 3) (k := 3) (returns_exchange _) (fun _ =>
    settles_bind (n := 3) (k := 0) (returns_exchange _) (fun _ => settles_pure ()))

theorem returns_abort : Returns 3 abortToCommandMode :=
  settles_bind (n := 1) (k := 2) (returns_write _) (fun _ =>
    settles_bind (n := 2) (k := 0) (returns_collect "ESC") (fun _ => settles_pure ()))

theorem returns_submitBody (part : String) (encoding : SmsEncoding) :
    Returns 6 (submitBody part encoding) := by
  refine settles_bind (n := 1) (k := 5) (returns_write _) (fun _ =>
    settles_bind (n := 2) (k := 3) (returns_collect "AT+CMGS") (fun e => ?_))
  cases e.result with
  | timeout => exact settles_bind (n := 3) (k := 0) returns_abort (fun _ => settles_pure e)
  | _ => exact settles_pure e

theorem returns_sendSmsPart (toNumber part : String) (encoding : SmsEncoding) :
    Returns 8 (sendSmsPart toNumber part encoding) := by
  refine settles_bind (n := 1) (k := 7) (returns_write _) (fun _ =>
    settles_bind (n := 1) (k := 6) returns_waitForPrompt (fun prompted => ?_))
  cases prompted with
  | true => exact returns_submitBody part encoding
  | false =>
    exact settles_mono (settles_bind (n := 3) (k := 0) returns_abort (fun _ => settles_pure _))
      (by omega)

/-- Nine quiet answers are enough for an attempt and what follows from it. -/
theorem returns_sendAttempts (cfg : Config) (toNumber part : String) (encoding : SmsEncoding)
    (left : Nat) (code : Option Nat) :
    Returns (9 * left + 1) (sendAttempts cfg toNumber part encoding left code) := by
  induction left generalizing code with
  | zero => exact settles_bind (n := 1) (k := 0) (returns_audit _ _) (fun _ => settles_pure _)
  | succ left ih =>
    rw [sendAttempts_succ]
    refine settles_mono (settles_bind (n := 8) (k := 9 * left + 1)
      (returns_sendSmsPart toNumber part encoding) (fun e =>
        settles_mono (settles_bind (n := 0) (k := 9 * left + 1) (settles_emit _) (fun _ => ?_))
          (by omega))) (by omega)
    unfold judge
    by_cases hsent : (parseSendOutcome e.lines).status = .sent
    · rw [if_pos hsent]
      exact settles_pure _
    · rw [if_neg hsent]
      by_cases htimeout : e.result = .timeout
      · rw [if_pos htimeout]
        exact settles_mono (settles_bind (n := 1) (k := 0) (returns_audit _ _)
          (fun _ => settles_pure _)) (by omega)
      · rw [if_neg htimeout]
        refine settles_mono (settles_bind (n := 0) ?_ (fun _ => ih _)) (by omega)
        unfold retryPause
        cases left == 0 with
        | true => exact settles_pure ()
        | false => exact settles_emit _

theorem returns_sendAllSegments (cfg : Config) (toNumber : String) (encoding : SmsEncoding)
    (segments : List Segment) (lastReference : Option String) :
    Returns ((9 * max cfg.sendMaxAttempts 1 + 1) * segments.length)
      (sendAllSegmentsFrom cfg toNumber encoding segments lastReference) := by
  induction segments generalizing lastReference with
  | nil => exact settles_pure _
  | cons segment segments ih =>
    refine settles_mono (settles_bind (k := (9 * max cfg.sendMaxAttempts 1 + 1) * segments.length)
      (returns_sendAttempts cfg toNumber segment.text encoding _ none) (fun result => ?_))
      (Nat.le_of_eq (by rw [List.length_cons, Nat.mul_succ, Nat.add_comm]))
    cases result.status with
    | sent => exact ih result.reference
    | _ => exact settles_pure result

theorem returns_sendEncoded (cfg : Config) (toNumber : String) (segments : List Segment)
    (encoding : SmsEncoding) : ∃ n, Returns n (sendEncoded cfg toNumber segments encoding) := by
  have hparts := fun encoding => returns_sendAllSegments cfg toNumber encoding segments none
  cases encoding with
  | gsm7 => exact ⟨_, settles_bind (returns_exchange _) (fun _ => hparts .gsm7)⟩
  | ucs2 =>
    rw [sendEncoded_ucs2]
    exact ⟨_, settles_bind (returns_exchange _) (fun _ =>
      settles_bind (returns_setCharset _ _) (fun _ =>
        settles_attempt_bind (hparts .ucs2) (fun _ =>
          settles_attempt_bind (k := 0) (returns_setCharset _ _) (fun _ => settles_pure _))))⟩

/-! ## The outcome of a send -/

theorem handleSend_eq (cfg : Config) {status : ModemStatusSnapshot} {toNumber body : String}
    {segments : List Segment} (hready : deliverable status)
    (hsegments : segmentMessage body = .ok segments) :
    handleSend cfg status toNumber body =
      sendEncoded cfg toNumber segments (messageEncoding body) := by
  unfold handleSend
  rw [if_pos hready, hsegments]

/-- A send on a ready modem works through the parts in order.  Every run of it
has a log, and every run returns. -/
theorem handleSend_delivers (cfg : Config) (status : ModemStatusSnapshot) (toNumber body : String)
    (segments : List Segment) (hready : deliverable status)
    (hsegments : segmentMessage body = .ok segments) :
    (∀ script, ∃ parts tail, SendLog cfg toNumber (messageEncoding body) none segments
      (handleSend cfg status toNumber body script) parts tail) ∧
    ∃ n, ∀ script : List Answer, (∀ a ∈ script, a.Sound) → ∃ result,
      (handleSend cfg status toNumber body (script ++ List.replicate n .quiet)).outcome =
        .done result := by
  rw [handleSend_eq cfg hready hsegments]
  obtain ⟨n, hn⟩ := returns_sendEncoded cfg toNumber segments (messageEncoding body)
  refine ⟨sendEncoded_log segments (messageEncoding body), n, fun script hscript => ?_⟩
  obtain ⟨result, s, m, t, hrun, -⟩ := hn script n hscript (Nat.le_refl n)
  exact ⟨result, by rw [hrun]⟩

/-- Both parts of a message are worked through. -/
theorem handleSend_delivers_two :
    (∀ script, ∃ parts tail, SendLog plainConfig "+15551234567" .ucs2 none cyrillicParts
      (handleSend plainConfig ⟨true, .ready, true, true, none, none⟩ "+15551234567" cyrillicLong
        script) parts tail) ∧
    ∃ n, ∀ script : List Answer, (∀ a ∈ script, a.Sound) → ∃ result,
      (handleSend plainConfig ⟨true, .ready, true, true, none, none⟩ "+15551234567" cyrillicLong
        (script ++ List.replicate n .quiet)).outcome = .done result := by
  have hencoding : messageEncoding cyrillicLong = .ucs2 := by decide +kernel
  have hdelivers := handleSend_delivers plainConfig ⟨true, .ready, true, true, none, none⟩
    "+15551234567" cyrillicLong cyrillicParts rfl segmentMessage_cyrillicLong
  rwa [hencoding] at hdelivers

end Modem
end GreenRelay
