/-
One submission at the modem.

`Reception` is the modem as the bytes it receives decide it, together with what
it keeps of them: the command lines that were ended and the texts that were
submitted.  A submission that returns has handed it one command line, which is
the header, and of the part either nothing or the whole text.
-/
import GreenRelay.Modem.CommandMode
import GreenRelay.Sms.Wire

namespace GreenRelay
namespace Modem

open Sms Unicode Scripted

/-! ## The modem that keeps what it receives -/

/-- `typed` is the text since the prompt. -/
structure Reception where
  mode : LineMode
  typed : List UInt8
  lines : List (List UInt8)
  texts : List (List UInt8)
  prompted : Bool
  deriving DecidableEq, Repr

/-- What is kept of a byte that leads to `mode`. -/
def Reception.note (t : Reception) (b : UInt8) (mode : LineMode) : Reception :=
  match t.mode with
  | .command line =>
    if b = 13 then { t with mode := mode, typed := [], lines := t.lines ++ [line] }
    else { t with mode := mode }
  | .textEntry =>
    if b = smsSubmit then { t with mode := mode, typed := [], texts := t.texts ++ [t.typed] }
    else if b = smsAbort then { t with mode := mode, typed := [] }
    else { t with mode := mode, typed := t.typed ++ [b] }

def keepingAutomaton : Monitor UInt8 Reception where
  step t b t' := ∃ mode, Receives t.mode b mode ∧ t' = t.note b mode
  ok _ _ := True

theorem keeps_line {line bs : List UInt8} {t t' : Reception} (hmode : t.mode = .command line)
    (h : ∀ b ∈ bs, b ≠ 13 ∧ b ≠ smsAbort) (hpath : keepingAutomaton.Path t bs t') :
    t' = { t with mode := .command (line ++ bs) } := by
  induction bs generalizing t line with
  | nil =>
    obtain rfl : t = t' := hpath
    rw [List.append_nil, ← hmode]
  | cons b bs ih =>
    obtain ⟨_, ⟨mode, hreceives, rfl⟩, hrest⟩ := hpath
    obtain ⟨hcr, hesc⟩ := h b List.mem_cons_self
    have hnote : t.note b mode = { t with mode := mode } := by
      rw [Reception.note, hmode]
      exact if_neg hcr
    rw [hmode] at hreceives
    rw [hnote] at hrest
    have hbs := fun c hc => h c (List.mem_cons_of_mem b hc)
    cases hreceives with
    | char => rw [ih rfl hbs hrest, List.append_assoc, List.singleton_append]
    | refuse => exact absurd rfl hcr
    | enter => exact absurd rfl hcr
    | cancel => exact absurd rfl hesc

theorem keeps_return {line : List UInt8} {t t' : Reception} (hmode : t.mode = .command line)
    (hpath : keepingAutomaton.Path t [13] t') :
    ∃ mode, t' = { t with mode := mode, typed := [], lines := t.lines ++ [line] } := by
  obtain ⟨_, ⟨mode, _, rfl⟩, rfl⟩ := hpath
  rw [Reception.note, hmode]
  exact ⟨mode, rfl⟩

theorem keeps_text {bs : List UInt8} {t t' : Reception} (hmode : t.mode = .textEntry)
    (h : ∀ b ∈ bs, b ≠ smsSubmit ∧ b ≠ smsAbort) (hpath : keepingAutomaton.Path t bs t') :
    t' = { t with typed := t.typed ++ bs } := by
  induction bs generalizing t with
  | nil =>
    obtain rfl : t = t' := hpath
    rw [List.append_nil]
  | cons b bs ih =>
    obtain ⟨_, ⟨mode, hreceives, rfl⟩, hrest⟩ := hpath
    obtain ⟨hsub, hesc⟩ := h b List.mem_cons_self
    have hnote : t.note b mode = { t with mode := mode, typed := t.typed ++ [b] } := by
      rw [Reception.note, hmode]
      simp only
      rw [if_neg hsub, if_neg hesc]
    rw [hmode] at hreceives
    rw [hnote] at hrest
    have hbs := fun c hc => h c (List.mem_cons_of_mem b hc)
    cases hreceives with
    | text =>
      rw [ih rfl hbs hrest, ← hmode]
      simp
    | leave hend => exact absurd hend (by simp [hsub, hesc])

theorem keeps_submit {t t' : Reception} (hmode : t.mode = .textEntry)
    (hpath : keepingAutomaton.Path t [smsSubmit] t') :
    t' = { t with mode := .command [], typed := [], texts := t.texts ++ [t.typed] } := by
  obtain ⟨_, ⟨mode, hreceives, rfl⟩, rfl⟩ := hpath
  rw [hmode] at hreceives
  rw [Reception.note, hmode]
  cases hreceives with
  | text hsub => exact absurd rfl hsub
  | leave => rfl

theorem keeps_abort {t t' : Reception} (hpath : keepingAutomaton.Path t [smsAbort] t') :
    t' = { t with mode := .command [], typed := t'.typed } := by
  obtain ⟨_, ⟨mode, hreceives, rfl⟩, rfl⟩ := hpath
  have hmode : mode = .command [] := receives_abort ⟨mode, hreceives, rfl⟩
  rw [Reception.note, hmode]
  cases t.mode <;> rfl

/-! ## The monitor -/

/-- The bytes reach the modem, and the prompt is seen in text entry only. -/
def submission : Monitor Event Reception where
  step t e t' :=
    match e with
    | .wrote out reply => keepingAutomaton.Path t (reply.sent out.bytes) t'
    | .prompted (.prompt _) => t.mode = .textEntry ∧ t' = { t with prompted := true }
    | _ => t' = t
  ok _ _ := True

/-- What the modem has kept. -/
structure Reception.Has (lines texts : List (List UInt8)) (prompted : Bool) (t : Reception) :
    Prop where
  lines : t.lines = lines
  texts : t.texts = texts
  prompted : t.prompted = prompted

section Submitting

variable (lines texts : List (List UInt8)) (prompted : Bool)

theorem triple_collect_has (command : String) (mode : LineMode) :
    Triple submission (fun t => t.mode = mode ∧ t.Has lines texts prompted)
      (collectUntilTerminator command) (fun _ t => t.mode = mode ∧ t.Has lines texts prompted)
      Anything := by
  have hread : ∀ (r : ReadReply) (t t' : Reception), (t.mode = mode ∧ t.Has lines texts prompted) →
      submission.step t (.read r) t' → submission.ok t (.read r) ∧
        if r = .ioError then Anything t' else (t'.mode = mode ∧ t'.Has lines texts prompted) := by
    intro r t t' ht hstep
    obtain rfl : t' = t := hstep
    constructor
    · trivial
    · split
      · trivial
      · exact ht
  exact triple_post (triple_collect hread command) (fun _ _ h => h.2)

/-- The ESC ends the text entry and submits nothing. -/
theorem triple_abort_has :
    Triple submission (Reception.Has lines texts prompted) abortToCommandMode
      (fun _ t => t.mode = .command [] ∧ t.Has lines texts prompted) Anything := by
  have hwrite : Triple submission (Reception.Has lines texts prompted) (writeBytes .abort)
      (fun _ t => t.mode = .command [] ∧ t.Has lines texts prompted) Anything := by
    apply triple_perform
    intro a t t' ht hstep
    cases hw : a.write with
    | ioError n => exact ⟨trivial, trivial⟩
    | ok =>
      have hpath : keepingAutomaton.Path t (a.write.sent [smsAbort]) t' := hstep
      rw [hw] at hpath
      have hkept := keeps_abort hpath
      exact ⟨trivial, by rw [hkept], by rw [hkept]; exact ht.lines,
        by rw [hkept]; exact ht.texts, by rw [hkept]; exact ht.prompted⟩
  exact triple_bind hwrite (fun _ => triple_bind
    (triple_collect_has lines texts prompted "ESC" (.command []))
    (fun _ => triple_pure (fun _ h => h)))

theorem triple_writeHeader_has (line : List UInt8) {address : List UInt8} {toNumber : String}
    {encoding : SmsEncoding} (haddress : ∀ b ∈ address, b ∈ utf8 (addressAlphabet encoding))
    (hheader : buildCmgsHeader toNumber encoding = cmgsLine address ++ [13]) :
    Triple submission (fun t => t.mode = .command line ∧ t.Has lines texts prompted)
      (writeBytes (.header toNumber encoding))
      (fun _ t => t.typed = [] ∧ t.Has (lines ++ [line ++ cmgsLine address]) texts prompted)
      Anything := by
  apply triple_perform
  intro a t t' ht hstep
  cases hw : a.write with
  | ioError n => exact ⟨trivial, trivial⟩
  | ok =>
    have hpath : keepingAutomaton.Path t
      (a.write.sent (buildCmgsHeader toNumber encoding)) t' := hstep
    rw [hw, hheader] at hpath
    obtain ⟨m, hline, hreturn⟩ := keepingAutomaton.path_append.mp hpath
    have hm := keeps_line ht.1 (cmgsLine_plain haddress) hline
    obtain ⟨mode, ht'⟩ := keeps_return (by rw [hm]) hreturn
    rw [ht', hm]
    exact ⟨trivial, rfl, by simp only [ht.2.lines], ht.2.texts, ht.2.prompted⟩

/-- The body is taken as a whole, because nothing before its Ctrl-Z ends it. -/
theorem triple_writeBody_has {part : String} {encoding : SmsEncoding}
    (hpart : encoding = .gsm7 → isGsm7 part = true) :
    Triple submission
      (fun t => t.mode = .textEntry ∧ t.typed = [] ∧ t.Has lines texts prompted)
      (writeBytes (.body part encoding))
      (fun _ t => t.mode = .command [] ∧ t.Has lines (texts ++ [partBytes part encoding]) prompted)
      Anything := by
  apply triple_perform
  intro a t t' ht hstep
  obtain ⟨hmode, htyped, hhas⟩ := ht
  cases hw : a.write with
  | ioError n => exact ⟨trivial, trivial⟩
  | ok =>
    have hpath : keepingAutomaton.Path t (a.write.sent (buildCmgsBody part encoding)) t' := hstep
    rw [hw] at hpath
    obtain ⟨m, htext, hsubmit⟩ := keepingAutomaton.path_append.mp hpath
    have hm := keeps_text hmode (cmgsPayload_text hpart) htext
    have ht' := keeps_submit (by rw [hm]; exact hmode) hsubmit
    rw [ht', hm, htyped, List.nil_append, cmgsPayload_eq hpart]
    exact ⟨trivial, rfl, hhas.lines, by simp only [hhas.texts], hhas.prompted⟩

theorem triple_submitBody_has {part : String} {encoding : SmsEncoding}
    (hpart : encoding = .gsm7 → isGsm7 part = true) :
    Triple submission
      (fun t => t.mode = .textEntry ∧ t.typed = [] ∧ t.Has lines texts prompted)
      (submitBody part encoding)
      (fun _ t => t.mode = .command [] ∧ t.Has lines (texts ++ [partBytes part encoding]) prompted)
      Anything := by
  unfold submitBody
  apply triple_bind (triple_writeBody_has lines texts prompted hpart)
  intro _
  apply triple_bind
    (triple_collect_has lines (texts ++ [partBytes part encoding]) prompted "AT+CMGS" (.command []))
  intro e
  split
  · have habort := triple_abort_has lines (texts ++ [partBytes part encoding]) prompted
    exact triple_bind (triple_pre habort (fun _ h => h.2)) (fun _ => triple_pure (fun _ h => h))
  · exact triple_pure (fun _ h => h)

end Submitting

/-- What the modem has been handed when a submission returns. -/
structure Framed (toNumber part : String) (encoding : SmsEncoding) (line : List UInt8)
    (t t' : Reception) : Prop where
  mode : t'.mode = .command []
  header : ∃ address, (∀ b ∈ address, b ∈ utf8 (addressAlphabet encoding)) ∧
    buildCmgsHeader toNumber encoding = cmgsLine address ++ [13] ∧ 13 ∉ cmgsLine address ∧
      t'.lines = t.lines ++ [line ++ cmgsLine address]
  text : t'.texts = t.texts ++ if t'.prompted then [partBytes part encoding] else []
  whole : ∀ b ∈ partBytes part encoding, b ≠ smsSubmit ∧ b ≠ smsAbort

/-- A part that reads as its encoding is handed over in one frame. -/
theorem triple_sendSmsPart_framed {toNumber part : String} {encoding : SmsEncoding}
    (hpart : encoding = .gsm7 → isGsm7 part = true) {line : List UInt8} (t : Reception)
    (hmode : t.mode = .command line) (hprompted : t.prompted = false) :
    Triple submission (fun t₀ => t₀ = t) (sendSmsPart toNumber part encoding)
      (fun _ => Framed toNumber part encoding line t) Anything := by
  obtain ⟨address, haddress, hheader⟩ := buildCmgsHeader_line toNumber encoding
  have hcr : (13 : UInt8) ∉ cmgsLine address := fun h => (cmgsLine_plain haddress 13 h).1 rfl
  have hframed : ∀ (seen : Bool) (t' : Reception), (t'.mode = .command [] ∧
      t'.Has (t.lines ++ [line ++ cmgsLine address])
        (t.texts ++ if seen then [partBytes part encoding] else []) seen) →
      Framed toNumber part encoding line t t' := by
    intro seen t' h
    exact ⟨h.1, ⟨address, haddress, hheader, hcr, h.2.lines⟩, by rw [h.2.texts, h.2.prompted],
      cmgsPayload_eq hpart ▸ cmgsPayload_text hpart⟩
  unfold sendSmsPart
  have hstart := triple_writeHeader_has t.lines t.texts false line haddress hheader
  apply triple_bind
    (triple_pre hstart (fun t₀ ht => by rw [ht]; exact ⟨hmode, rfl, rfl, hprompted⟩))
  intro _
  apply triple_bind (T := fun seen t' => (seen = true → t'.mode = .textEntry) ∧ t'.typed = [] ∧
    t'.Has (t.lines ++ [line ++ cmgsLine address]) t.texts seen)
  · apply triple_perform
    intro a t₁ t' ht hstep
    cases hprompt : a.prompt with
    | prompt dropped =>
      rw [hprompt] at hstep
      obtain ⟨hentry, rfl⟩ := hstep
      exact ⟨trivial, fun _ => hentry, ht.1, ht.2.lines, ht.2.texts, rfl⟩
    | timeout dropped =>
      rw [hprompt] at hstep
      obtain rfl : t' = t₁ := hstep
      exact ⟨trivial, (fun h => absurd h Bool.false_ne_true), ht.1, ht.2⟩
    | ioError dropped => exact ⟨trivial, trivial⟩
  · intro seen
    cases seen with
    | false =>
      have habort := triple_abort_has (t.lines ++ [line ++ cmgsLine address]) t.texts false
      apply triple_bind (triple_pre habort (fun t' ht' => ht'.2.2))
      intro _
      apply triple_pure
      intro t' ht'
      exact hframed false t' (by simpa using ht')
    | true =>
      have hbody := triple_submitBody_has (t.lines ++ [line ++ cmgsLine address]) t.texts true hpart
      exact triple_conseq hbody (fun t' ht' => ⟨ht'.1 rfl, ht'.2⟩)
        (fun _ t' ht' => hframed true t' ht') (fun _ h => h)

/-- Whatever is answered, a submission that returns leaves the modem in command
mode, with one header and with nothing or exactly the part. -/
theorem submission_framed {body : String} {segments : List Segment}
    (hseg : segmentMessage body = .ok segments) {segment : Segment} (hmem : segment ∈ segments)
    (toNumber : String) {script : List Answer} {e : AtExchange}
    (hdone : (sendSmsPart toNumber segment.text (messageEncoding body) script).outcome = .done e)
    {line : List UInt8} {t t' : Reception} (hmode : t.mode = .command line)
    (hprompted : t.prompted = false)
    (hpath : submission.Path t
      (sendSmsPart toNumber segment.text (messageEncoding body) script).trace t') :
    Framed toNumber segment.text (messageEncoding body) line t t' := by
  have hpart : messageEncoding body = .gsm7 → isGsm7 segment.text = true := by
    intro henc
    have hbody := isGsm7_iff.mp (messageEncoding_gsm7.mp henc)
    exact isGsm7_iff.mpr (fun c hc => hbody c (mem_body_of_mem_segment hseg hmem hc))
  have hpost := (triple_sendSmsPart_framed hpart t hmode hprompted script t rfl).2 t' hpath
  rwa [hdone] at hpost

/-- A modem that accepts every header. -/
def accept (t : Reception) (e : Event) : Option Reception :=
  match e with
  | .wrote out reply =>
    some ((reply.sent out.bytes).foldl (fun t b => t.note b (receive t.mode b)) t)
  | .prompted (.prompt _) => if t.mode = .textEntry then some { t with prompted := true } else none
  | _ => some t

theorem path_note (t : Reception) (bs : List UInt8) :
    keepingAutomaton.Path t bs (bs.foldl (fun t b => t.note b (receive t.mode b)) t) := by
  induction bs generalizing t with
  | nil => rfl
  | cons b bs ih => exact ⟨_, ⟨receive t.mode b, receives_receive t.mode b, rfl⟩, ih _⟩

theorem step_accept (t : Reception) (e : Event) (t' : Reception) (h : accept t e = some t') :
    submission.step t e t' := by
  unfold accept at h
  split at h
  · next out reply =>
    obtain rfl := Option.some_inj.mp h
    exact path_note t (reply.sent out.bytes)
  · next dropped =>
    by_cases hmode : t.mode = .textEntry
    · rw [if_pos hmode] at h
      exact ⟨hmode, (Option.some_inj.mp h).symm⟩
    · rw [if_neg hmode] at h
      cases h
  · next hwrote hprompt =>
    obtain rfl := Option.some_inj.mp h
    cases e with
    | wrote out reply => exact absurd rfl (hwrote out reply)
    | prompted reply =>
      cases reply with
      | prompt dropped => exact absurd rfl (hprompt dropped)
      | _ => rfl
    | _ => rfl

theorem submission_framed_hello :
    Framed "+15551234567" "hello" .gsm7 [] ⟨.command [], [], [], [], false⟩
      ⟨.command [], [], [utf8 "AT+CMGS=\"+15551234567\"".toList], [utf8 "hello".toList], true⟩ := by
  let script : List Answer :=
    [.quiet, { prompt := .prompt [] }] ++ answered ["+CMGS: 7", "OK"]
  have hdone : (sendSmsPart "+15551234567" "hello" .gsm7 script).outcome =
      .done ⟨"AT+CMGS", ["+CMGS: 7", "OK"], .ok⟩ := by decide +kernel
  have hrun : (sendSmsPart "+15551234567" "hello" .gsm7 script).trace.foldlM accept
      ⟨.command [], [], [], [], false⟩ =
      some ⟨.command [], [], [utf8 "AT+CMGS=\"+15551234567\"".toList],
          [utf8 "hello".toList], true⟩ := by
    decide +kernel
  exact @submission_framed "hello" [⟨1, "hello"⟩] rfl ⟨1, "hello"⟩ List.mem_cons_self _ script _
    hdone _ _ _ rfl rfl (submission.path_of_foldlM step_accept hrun)

end Modem
end GreenRelay
