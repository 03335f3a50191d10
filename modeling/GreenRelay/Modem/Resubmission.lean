/-
Whether a part the modem has accepted is submitted again.

The retry loop stops at a submission it takes for sent, and it takes a
submission for sent when it ended in OK and one of its lines gave a reference.
An OK without such a line is taken for a transient error, although the modem has
accepted the message by then.
-/
import GreenRelay.Modem.Attempts
import GreenRelay.Modem.Manager

namespace GreenRelay
namespace Modem

open Sms Scripted

/-! ## Accepted submissions -/

/-- One of the lines of the response gives the reference of the message. -/
def AtExchange.Acknowledged (e : AtExchange) : Prop :=
  ∃ line ∈ e.lines, (parseCmgsReference line).isSome

/-- An exchange that ended in OK is taken for sent if a line of it gives the
reference. -/
theorem sent_iff_acknowledged {e : AtExchange} (h : e.Collected) (hok : e.result = .ok) :
    (parseSendOutcome e.lines).status = .sent ↔ e.Acknowledged := by
  obtain ⟨htimeout, -⟩ | ⟨lines, last, he, hlast, hlines⟩ := h
  · rw [hok] at htimeout
    cases htimeout
  rw [hok] at hlast
  have hnone := parseCmgsReference_terminator hlast
  obtain ⟨found, hfound, hiff⟩ := parseSendOutcomeFrom_append _ hlines none
  have hack : e.Acknowledged ↔ found.isSome := by
    simp [AtExchange.Acknowledged, he, hiff, hnone]
  rw [hack, parseSendOutcome, he, hfound]
  cases found <;> simp [parseSendOutcomeFrom, hnone, hlast, SendOutcome.sent, SendOutcome.failed]

/-- A response that ended in OK lets the part be tried again only if none of its
lines gives the reference. -/
theorem verdict_of_ok {a : Attempt} (h : a.exchange.Collected) (hok : a.exchange.result = .ok) :
    a.verdict = none ↔ ¬ a.exchange.Acknowledged := by
  rw [← sent_iff_acknowledged h hok, Attempt.verdict, hok]
  by_cases hsent : (parseSendOutcome a.exchange.lines).status = .sent <;> simp [hsent]

/-! ## Reading the attempts in a trace -/

def Event.submission : Event → Option AtExchange
  | .submitted e => some e
  | _ => none

/-- The submissions that are over. -/
def submissions (t : List Event) : List AtExchange := t.filterMap Event.submission

def Shown.submission : Shown → Option AtExchange
  | .result e => some e
  | _ => none

theorem submissions_eq (t : List Event) : submissions t = (shown t).filterMap Shown.submission := by
  rw [submissions, shown, List.filterMap_filterMap]
  congr 1
  funext e
  cases e with
  | wrote out => cases out <;> rfl
  | _ => rfl

/-- Two ways to split a list at a submission, one of them at the first. -/
theorem split_at_result {first rest before after : List Shown} {e e' : AtExchange}
    (hfirst : ∀ x ∈ first, x.submission = none)
    (h : first ++ .result e :: rest = before ++ .result e' :: after) :
    (before = first ∧ e' = e ∧ after = rest) ∨
      ∃ middle, before = first ++ .result e :: middle ∧ rest = middle ++ .result e' :: after := by
  rcases List.append_eq_append_iff.mp h with ⟨c, hbefore, hc⟩ | ⟨c, hfirst', hc⟩
  · cases c with
    | nil =>
      obtain ⟨he, hrest⟩ := List.cons.inj hc
      exact .inl ⟨by simpa using hbefore, (Shown.result.inj he).symm, hrest.symm⟩
    | cons x c =>
      obtain ⟨hx, hrest⟩ := List.cons.inj hc
      exact .inr ⟨c, by rw [hbefore, ← hx], hrest⟩
  · cases c with
    | nil =>
      obtain ⟨he, hrest⟩ := List.cons.inj hc
      exact .inl ⟨by simpa using hfirst'.symm, Shown.result.inj he, hrest⟩
    | cons x c =>
      obtain ⟨hx, -⟩ := List.cons.inj hc
      have hmem : Shown.result e' ∈ first := by
        rw [hfirst', ← hx]
        simp
      cases hfirst _ hmem

theorem underWay_submission (toNumber part : String) (encoding : SmsEncoding) (prompted : Bool) :
    ∀ x ∈ underWay toNumber part encoding prompted, x.submission = none := by
  intro x hx
  rcases List.mem_cons.mp hx with rfl | hx
  · rfl
  · cases prompted with
    | false => cases hx
    | true =>
      rw [List.mem_singleton.mp hx]
      rfl

section Reading

variable {toNumber part : String} {encoding : SmsEncoding}

/-- Where a submission is over, its attempt is, and the attempts before and
after it are shown before and after. -/
theorem attempt_split {attempts : List Attempt} {tail before after : List Shown} {e : AtExchange}
    (htail : ∀ x ∈ tail, x.submission = none)
    (h : attempts.flatMap (Attempt.shown toNumber part encoding) ++ tail =
      before ++ .result e :: after) :
    ∃ earlier a later, attempts = earlier ++ a :: later ∧ a.exchange = e ∧
      before.filterMap Shown.submission = earlier.map Attempt.exchange ∧
      after = later.flatMap (Attempt.shown toNumber part encoding) ++ tail := by
  induction attempts generalizing before with
  | nil =>
    have hmem : Shown.result e ∈ tail := by
      rw [show tail = before ++ .result e :: after from h]
      simp
    cases htail _ hmem
  | cons a attempts ih =>
    simp only [List.flatMap_cons, Attempt.shown, List.append_assoc, List.singleton_append] at h
    have hunder := underWay_submission toNumber part encoding a.prompted
    obtain ⟨hsame, he, hafter⟩ | ⟨middle, hbefore, hrest⟩ :=
      split_at_result (fun x hx => hunder x hx) h
    · refine ⟨[], a, attempts, rfl, he.symm, ?_, hafter⟩
      rw [hsame]
      exact List.filterMap_eq_nil_iff.mpr hunder
    · obtain ⟨earlier, b, later, hattempts, hb, hmiddle, hafter⟩ := ih hrest
      refine ⟨a :: earlier, b, later, by rw [hattempts]; rfl, hb, ?_, hafter⟩
      rw [hbefore, List.filterMap_append, List.filterMap_eq_nil_iff.mpr hunder]
      simp [Shown.submission, hmiddle]

/-- What is shown after the attempts that are over starts with a header. -/
theorem Started.header_mem {left : Nat} {attempts : List Attempt} {tail : List Shown}
    (h : Started toNumber part encoding left attempts tail) : .header toNumber encoding ∈ tail := by
  obtain ⟨⟨prompted, htail⟩, -, -⟩ := h
  rw [htail]
  exact List.mem_cons_self

theorem Attempt.header_mem (toNumber part : String) (encoding : SmsEncoding) (a : Attempt) :
    .header toNumber encoding ∈ a.shown toNumber part encoding := by
  simp [Attempt.shown, underWay]

end Reading

/-! ## Submitting again -/

/-- After a submission that ended in OK no header is written. -/
def NotResubmitted (t : List Event) : Prop :=
  ∀ before after e, t = before ++ .submitted e :: after → e.result = .ok →
    ∀ toNumber encoding reply, .wrote (.header toNumber encoding) reply ∉ after

/-- Every OK comes with a reference, except that the last of the attempts may go
without. -/
def OkAcknowledged (attempts : Nat) (t : List Event) : Prop :=
  ∀ before after e, t = before ++ .submitted e :: after → e.result = .ok →
    e.Acknowledged ∨ (submissions before).length + 1 = attempts

/-- A submission in the trace of the retry loop, with the attempts around it. -/
theorem AttemptLog.split {toNumber part : String} {encoding : SmsEncoding} {left : Nat}
    {code : Option Nat} {r : Run Answer Event SendResult} {attempts : List Attempt}
    {tail : List Shown} (h : AttemptLog toNumber part encoding left code r attempts tail)
    {before after : List Event} {e : AtExchange} (ht : r.trace = before ++ .submitted e :: after) :
    ∃ earlier a later, attempts = earlier ++ a :: later ∧ a.exchange = e ∧
      (submissions before).length = earlier.length ∧
      shown after = later.flatMap (Attempt.shown toNumber part encoding) ++ tail := by
  have hshows := h.shows
  rw [ht, shown_append, shown_cons] at hshows
  have htail : ∀ x ∈ tail, x.submission = none := by
    have hending := h.ending
    have hstarted : Started toNumber part encoding left attempts tail →
        ∀ x ∈ tail, x.submission = none := by
      rintro ⟨⟨prompted, htail⟩, -, -⟩
      rw [htail]
      exact underWay_submission _ _ _ prompted
    cases houtcome : r.outcome with
    | done result =>
      simp only [houtcome] at hending
      simp [hending.1]
    | failed =>
      simp only [houtcome] at hending
      exact hstarted hending
    | cut =>
      simp only [houtcome] at hending
      rcases hending with hnil | hending
      · simp [hnil]
      · exact hstarted hending
  obtain ⟨earlier, a, later, hattempts, he, hbefore, hafter⟩ := attempt_split htail hshows.symm
  refine ⟨earlier, a, later, hattempts, he, ?_, hafter⟩
  rw [submissions_eq, hbefore, List.length_map]

theorem header_mem_shown {t : List Event} {toNumber : String} {encoding : SmsEncoding} :
    .header toNumber encoding ∈ shown t ↔
      ∃ reply, .wrote (.header toNumber encoding) reply ∈ t := by
  constructor
  · intro h
    obtain ⟨e, he, hshown⟩ := List.mem_filterMap.mp h
    cases e with
    | wrote out reply =>
      cases out with
      | header n enc =>
        injection hshown with hshown
        injection hshown with hn henc
        exact ⟨reply, by rwa [← hn, ← henc]⟩
      | body part enc =>
        injection hshown with hshown
        cases hshown
      | command text => cases hshown
      | abort => cases hshown
    | submitted e =>
      injection hshown with hshown
      cases hshown
    | _ => cases hshown
  · rintro ⟨reply, h⟩
    exact List.mem_filterMap.mpr ⟨_, h, rfl⟩

/-- An acknowledged OK ends the attempts, and so does the last one. -/
theorem AttemptLog.notResubmitted {toNumber part : String} {encoding : SmsEncoding} {left : Nat}
    {code : Option Nat} {r : Run Answer Event SendResult} {attempts : List Attempt}
    {tail : List Shown} (h : AttemptLog toNumber part encoding left code r attempts tail)
    (hack : OkAcknowledged left r.trace) : NotResubmitted r.trace := by
  intro before after e ht hok n enc reply hheader
  obtain ⟨earlier, a, later, hattempts, rfl, hbefore, hafter⟩ := h.split ht
  have hcollected : a.exchange.Collected := h.collected a (by simp [hattempts])
  -- What follows the attempt is another attempt, over or under way.
  have hmore : a.verdict = none ∧ earlier.length + 1 < left := by
    have hmem := header_mem_shown.mpr ⟨reply, hheader⟩
    rw [hafter] at hmem
    cases later with
    | cons b later =>
      refine ⟨h.repeated a ?_, ?_⟩
      · rw [hattempts, List.dropLast_append_of_ne_nil (by simp)]
        simp
      · have hbounded := h.bounded
        simp only [hattempts, List.length_append, List.length_cons] at hbounded
        omega
    | nil =>
      have hstarted : Started toNumber part encoding left attempts tail := by
        have hending := h.ending
        have htail : tail ≠ [] := by
          rintro rfl
          cases hmem
        cases houtcome : r.outcome with
        | done result =>
          simp only [houtcome] at hending
          exact absurd hending.1 htail
        | failed =>
          simp only [houtcome] at hending
          exact hending
        | cut =>
          simp only [houtcome] at hending
          exact hending.resolve_left htail
      obtain ⟨-, hnone, hlt⟩ := hstarted
      refine ⟨hnone a (by simp [hattempts]), ?_⟩
      simpa [hattempts] using hlt
  rcases hack before after a.exchange ht hok with hacknowledged | hlast
  · exact (verdict_of_ok hcollected hok).mp hmore.1 hacknowledged
  · omega

/-- In a run that is over, an OK that is neither acknowledged nor the answer to
the last attempt is followed by another submission. -/
theorem AttemptLog.okAcknowledged {toNumber part : String} {encoding : SmsEncoding} {left : Nat}
    {code : Option Nat} {r : Run Answer Event SendResult} {attempts : List Attempt}
    {tail : List Shown} (h : AttemptLog toNumber part encoding left code r attempts tail)
    (hover : r.outcome ≠ .cut) (hnot : NotResubmitted r.trace) : OkAcknowledged left r.trace := by
  intro before after e ht hok
  obtain ⟨earlier, a, later, hattempts, rfl, hbefore, hafter⟩ := h.split ht
  have hcollected : a.exchange.Collected := h.collected a (by simp [hattempts])
  by_cases hack : a.exchange.Acknowledged
  · exact .inl hack
  right
  have hverdict := (verdict_of_ok hcollected hok).mpr hack
  have hnone : ∀ x ∈ later.flatMap (Attempt.shown toNumber part encoding) ++ tail,
      x ≠ .header toNumber encoding := by
    rintro x hx rfl
    obtain ⟨reply, hheader⟩ := header_mem_shown.mp (hafter ▸ hx)
    exact hnot before after a.exchange ht hok toNumber encoding reply hheader
  have hlater : later = [] := by
    cases later with
    | nil => rfl
    | cons b later =>
      have hmem := Attempt.header_mem toNumber part encoding b
      exact absurd rfl (hnone _ (by simp [hmem]))
  have hending := h.ending
  cases houtcome : r.outcome with
  | done result =>
    simp only [houtcome] at hending
    obtain ⟨-, ⟨last, hlast, hdecides⟩ | ⟨-, hlength, -⟩⟩ := hending
    · have hlast : a = last := by simpa [hattempts, hlater] using hlast
      rw [← hlast, hverdict] at hdecides
      cases hdecides
    · simpa [hbefore, hattempts, hlater] using hlength
  | failed =>
    simp only [houtcome] at hending
    exact absurd rfl (hnone _ (List.mem_append_right _ hending.header_mem))
  | cut => exact absurd houtcome hover

/-- A part is submitted again after an OK exactly when the OK came without a
reference and there is an attempt left. -/
theorem notResubmitted_iff (cfg : Config) (toNumber part : String) (encoding : SmsEncoding)
    (script : List Answer) :
    let r := sendPartWithRetries cfg toNumber part encoding script
    (OkAcknowledged (max cfg.sendMaxAttempts 1) r.trace → NotResubmitted r.trace) ∧
      (r.outcome ≠ .cut → NotResubmitted r.trace →
        OkAcknowledged (max cfg.sendMaxAttempts 1) r.trace) := by
  obtain ⟨attempts, tail, hlog⟩ := sendAttempts_log toNumber part encoding cfg
    (max cfg.sendMaxAttempts 1) none script
  exact ⟨hlog.notResubmitted, hlog.okAcknowledged⟩

/-- The modem takes the message and reports its reference with a time stamp. -/
def acceptedWithTimestamp : List Answer :=
  [.quiet, { prompt := .prompt [] }, .quiet, .line "+CMGS: 25,\"24/01/02,03:04:05+00\"",
    .line "OK", .quiet]

/-- The message that was accepted is submitted a second time. -/
theorem accepted_resubmitted : ¬ ∀ (cfg : Config) (toNumber part : String)
    (encoding : SmsEncoding) (script : List Answer),
    NotResubmitted (sendPartWithRetries cfg toNumber part encoding script).trace := by
  intro h
  have htrace : (sendPartWithRetries plainConfig "+15551234567" "hi" .gsm7
        acceptedWithTimestamp).trace =
      [.wrote (.header "+15551234567" .gsm7) .ok, .prompted (.prompt []),
        .wrote (.body "hi" .gsm7) .ok, .read (.line "+CMGS: 25,\"24/01/02,03:04:05+00\""),
        .read (.line "OK")] ++
      .submitted ⟨"AT+CMGS", ["+CMGS: 25,\"24/01/02,03:04:05+00\"", "OK"], .ok⟩ ::
        [.slept 1, .wrote (.header "+15551234567" .gsm7) .ok] := by
    decide +kernel
  have hnot := h plainConfig "+15551234567" "hi" .gsm7 acceptedWithTimestamp _ _ _ htrace rfl
  exact hnot "+15551234567" .gsm7 .ok (by simp)

end Modem
end GreenRelay
