/-
The modem's line mode.

`LineMode` is the mode of the modem as far as the bytes it has received decide
it, with the line it has not seen the end of.  Nothing else changes it, so it is
the mode of a modem that was left at the `>` prompt by an earlier process as
well as of a freshly started one.  The service writes a command only in command
mode, whatever times out or fails, with one exception: a UCS2 message restores
the character set after its parts, also when an I/O error has cut the last part
off at the prompt.
-/
import GreenRelay.Modem.Rules

namespace GreenRelay
namespace Modem

open Sms Unicode Scripted

/-! ## The automaton -/

inductive LineMode where
  | command (line : List UInt8)
  | textEntry
  deriving DecidableEq, Repr

def cmgs : List UInt8 := utf8 "AT+CMGS".toList

def CarriesCmgs (line : List UInt8) : Prop := cmgs <:+: line

instance (line : List UInt8) : Decidable (CarriesCmgs line) :=
  inferInstanceAs (Decidable (cmgs <:+: line))

/-- What the modem may do with a byte.  Only a line that carries `AT+CMGS` is
answered with the prompt; ESC drops an unfinished line. -/
inductive Receives : LineMode → UInt8 → LineMode → Prop where
  | char {line : List UInt8} {b : UInt8} (hcr : b ≠ 13) (hesc : b ≠ smsAbort) :
      Receives (.command line) b (.command (line ++ [b]))
  | refuse {line : List UInt8} : Receives (.command line) 13 (.command [])
  | enter {line : List UInt8} (h : CarriesCmgs line) : Receives (.command line) 13 .textEntry
  | cancel {line : List UInt8} : Receives (.command line) smsAbort (.command [])
  | text {b : UInt8} (hsub : b ≠ smsSubmit) (hesc : b ≠ smsAbort) :
      Receives .textEntry b .textEntry
  | leave {b : UInt8} (h : b = smsSubmit ∨ b = smsAbort) : Receives .textEntry b (.command [])

def lineAutomaton : Monitor UInt8 LineMode := ⟨Receives, fun _ _ => True⟩

/-! ## Lines that do not open the text entry -/

theorem not_carries_left {line rest : List UInt8} (h : ¬ CarriesCmgs (line ++ rest)) :
    ¬ CarriesCmgs line :=
  fun hl => h (hl.trans List.infix_append_left)

theorem not_carries_right {line rest : List UInt8} (h : ¬ CarriesCmgs (line ++ rest)) :
    ¬ CarriesCmgs rest :=
  fun hl => h (hl.trans List.infix_append_right)

/-- A byte that stands in `AT+CMGS` at most in the first place parts a line into
two that can be looked at apart. -/
theorem not_carries_append {line rest : List UInt8} {b : UInt8} (hb : b ∉ cmgs.tail)
    (hline : ¬ CarriesCmgs line) (hrest : ¬ CarriesCmgs (b :: rest)) :
    ¬ CarriesCmgs (line ++ b :: rest) := by
  induction line with
  | nil => exact hrest
  | cons a line ih =>
    have htail : ¬ CarriesCmgs line := @not_carries_right [a] line hline
    intro h
    rcases List.infix_cons_iff.mp h with hpre | hinf
    · -- `AT+CMGS` would begin at `a` and reach over `b`.
      have hlen : (a :: line).length < cmgs.length := by
        refine Nat.lt_of_not_le (fun hle => hline ?_)
        exact (List.prefix_of_prefix_length_le hpre (List.prefix_append (a :: line) _) hle).isInfix
      have hget := List.prefix_iff_getElem?.mp hpre _ hlen
      rw [show a :: line.append (b :: rest) = (a :: line) ++ b :: rest from rfl,
        List.getElem?_append_right (Nat.le_refl _), Nat.sub_self, List.getElem?_cons_zero,
        Option.some_inj] at hget
      refine hb (@List.mem_of_getElem? _ _ line.length _ ?_)
      rw [List.getElem?_tail, hget, List.getElem?_eq_some_iff]
      exact ⟨hlen, rfl⟩
    · exact ih htail hinf

/-- The bytes of a line that carries no `AT+CMGS` leave the modem in command
mode, with no such line begun. -/
theorem receives_command {line bs : List UInt8} {m : LineMode} (h : ¬ CarriesCmgs (line ++ bs))
    (hpath : lineAutomaton.Path (.command line) bs m) :
    ∃ line', m = .command line' ∧ ¬ CarriesCmgs line' := by
  induction bs generalizing line with
  | nil =>
    obtain rfl : LineMode.command line = m := hpath
    exact ⟨line, rfl, by rwa [List.append_nil] at h⟩
  | cons b bs ih =>
    obtain ⟨n, hn, hm⟩ := hpath
    have hbs : ¬ CarriesCmgs ([] ++ bs) := by
      rw [List.append_cons] at h
      exact not_carries_right h
    cases hn with
    | char hcr hesc => exact ih (by rwa [List.append_cons] at h) hm
    | refuse => exact ih hbs hm
    | enter hline => exact absurd hline (not_carries_left h)
    | cancel => exact ih hbs hm

theorem receives_text {bs : List UInt8} {m : LineMode} (h : ∀ b ∈ bs, b ≠ smsSubmit ∧ b ≠ smsAbort)
    (hpath : lineAutomaton.Path .textEntry bs m) : m = .textEntry := by
  induction bs with
  | nil => exact hpath.symm
  | cons b bs ih =>
    obtain ⟨n, hn, hm⟩ := hpath
    obtain ⟨hsub, hesc⟩ := h b List.mem_cons_self
    cases hn with
    | text => exact ih (fun c hc => h c (List.mem_cons_of_mem b hc)) hm
    | leave hend => exact absurd hend (by simp [hsub, hesc])

theorem receives_abort {m n : LineMode} (hpath : lineAutomaton.Path m [smsAbort] n) :
    n = .command [] := by
  obtain ⟨k, hk, rfl⟩ := hpath
  cases hk with
  | char hcr hesc => exact absurd rfl hesc
  | cancel => rfl
  | text hsub hesc => exact absurd rfl hesc
  | leave => rfl

/-! ## What the service writes -/

/-- A command that opens no text entry, whatever stands on the line before it. -/
def Harmless (text : String) : Prop :=
  (utf8 text.toList).head? = some 65 ∧ ¬ CarriesCmgs (utf8 text.toList)

instance (text : String) : Decidable (Harmless text) :=
  inferInstanceAs (Decidable ((utf8 text.toList).head? = some 65 ∧ _))

theorem Harmless.append {text : String} (h : Harmless text) {line : List UInt8}
    (hline : ¬ CarriesCmgs line) : ¬ CarriesCmgs (line ++ utf8 text.toList) := by
  obtain ⟨hhead, hcarries⟩ := h
  obtain ⟨rest, hrest⟩ := List.head?_eq_some_iff.mp hhead
  rw [hrest] at hcarries ⊢
  exact not_carries_append (by decide) hline hcarries

theorem harmless_of_no_S {text : String} (hhead : (utf8 text.toList).head? = some 65)
    (h : 'S' ∉ text.toList) : Harmless text := by
  refine ⟨hhead, fun hcarries => h ?_⟩
  have hmem : (83 : UInt8) ∈ utf8 text.toList := hcarries.mem (by decide)
  obtain ⟨c, hc, hval⟩ := mem_utf8_low hmem (by decide)
  have hS : c = 'S' := Char.toNat_inj.mp hval
  exact hS ▸ hc

theorem toString_no_S (n : Nat) : 'S' ∉ (toString n).toList := by
  intro h
  rw [Nat.toString_eq_ofList_toDigits, String.toList_ofList] at h
  exact absurd (Nat.isDigit_of_mem_toDigits (by decide) (by decide) h) (by decide)

theorem harmless_cmgr (index : Nat) : Harmless (cmgrCommand index) := by
  rw [cmgrCommand]
  refine harmless_of_no_S (by rw [String.toList_append, utf8_append]; rfl) ?_
  rw [String.toList_append, List.mem_append, not_or]
  exact ⟨by decide, toString_no_S index⟩

theorem harmless_cmgd (index : Nat) : Harmless (cmgdCommand index) := by
  rw [cmgdCommand]
  refine harmless_of_no_S (by rw [String.toList_append, utf8_append]; rfl) ?_
  rw [String.toList_append, List.mem_append, not_or]
  exact ⟨by decide, toString_no_S index⟩

/-- The text of a part holds no byte that leaves the text entry. -/
theorem cmgsPayload_text {part : String} {encoding : SmsEncoding}
    (h : encoding = .gsm7 → isGsm7 part = true) :
    ∀ b ∈ cmgsPayload part encoding, b ≠ smsSubmit ∧ b ≠ smsAbort := by
  intro b hb
  cases encoding with
  | gsm7 =>
    have hctl := fun c hc => gsm7Septets_control (isGsm7_iff.mp (h rfl) c hc)
    exact utf8_no_submit_abort hctl b (List.mem_filter.mp hb).1
  | ucs2 =>
    refine utf8_no_submit_abort (fun c hc hlow => ?_) b hb
    have := (ucs2HexEncode_range part c hc).1
    omega

/-! ## The monitor -/

/-- The mode, and the encoding of a submission whose Ctrl-Z or ESC has not been
written. -/
structure Port where
  mode : LineMode
  unfinished : Option SmsEncoding
  deriving DecidableEq, Repr

def unfinishedAfter (u : Option SmsEncoding) : Event → Option SmsEncoding
  | .wrote (.header toNumber encoding) reply =>
    if reply.sent (Output.header toNumber encoding).bytes = [] then u else some encoding
  | .wrote (.body part encoding) reply =>
    if reply.sent (Output.body part encoding).bytes = (Output.body part encoding).bytes then none
    else u
  | .wrote .abort reply => if reply.sent Output.abort.bytes = [] then u else none
  | _ => u

/-- The lines that the modem takes for commands. -/
def Output.isCommand : Output → Bool
  | .command _ | .header _ _ => true
  | .body _ _ | .abort => false

/-- The mode follows the bytes; the prompt is seen in text entry only.  The
first byte of a command line has to find the modem in command mode. -/
def commandMode : Monitor Event Port where
  step p e p' :=
    p'.unfinished = unfinishedAfter p.unfinished e ∧
      match e with
      | .wrote out reply => lineAutomaton.Path p.mode (reply.sent out.bytes) p'.mode
      | .prompted (.prompt _) => p.mode = .textEntry ∧ p'.mode = p.mode
      | _ => p'.mode = p.mode
  ok p e :=
    match e with
    | .wrote out reply => out.isCommand = true → reply.sent out.bytes ≠ [] →
        ∃ line, p.mode = .command line
    | _ => True

/-- No I/O error leaves a UCS2 submission unfinished, and no raw request carries
`AT+CMGS`, alone or with what stands on the line before it. -/
def Undisturbed (p : Port) (e : Event) (p' : Port) : Prop :=
  (e.isIoError = true → p'.unfinished ≠ some .ucs2) ∧
    ∀ command line, e = .took (.raw command) → p.mode = .command line →
      ¬ CarriesCmgs (line ++ utf8 command.toList)

/-- The modem is in command mode, and no line is begun that opens the text
entry. -/
def Free (p : Port) : Prop := ∃ line, p.mode = .command line ∧ ¬ CarriesCmgs line

theorem Free.of_mode {p p' : Port} (h : Free p) (hmode : p'.mode = p.mode) : Free p' := by
  unfold Free
  rwa [hmode]

abbrev undisturbed : Monitor Event Port := commandMode.restrict Undisturbed

theorem ioError_closes {p p' : Port} {e : Event} (h : undisturbed.step p e p')
    (he : e.isIoError = true) : unfinishedAfter p.unfinished e ≠ some .ucs2 :=
  h.2.1 ▸ h.1.1 he

/-! ## Exchanges -/

theorem keepsLocal_free : KeepsLocal undisturbed Free := by
  intro e p p' he hfree hstep
  have hmode : p'.mode = p.mode := by
    cases e <;> first | exact hstep.2.2 | cases he
  refine ⟨?_, hfree.of_mode hmode⟩
  cases e <;> trivial

theorem keepsInbound_free : KeepsInbound undisturbed Free := by
  intro e p p' he hfree hstep
  have hmode : p'.mode = p.mode := by
    cases e <;> first | exact hstep.2.2 | cases he
  refine ⟨?_, hfree.of_mode hmode⟩
  cases e <;> trivial

theorem triple_writeCommand (text : String) :
    Triple undisturbed
      (fun p => Free p ∧ ∀ line, p.mode = .command line → ¬ CarriesCmgs (line ++ utf8 text.toList))
      (writeBytes (.command text)) (fun _ => Free) Free := by
  refine triple_perform (fun a p p' hp hstep => ?_)
  obtain ⟨⟨line, hmode, _⟩, htext⟩ := hp
  obtain ⟨_, _, hpath⟩ := hstep
  have hwhole : ¬ CarriesCmgs (line ++ (utf8 text.toList ++ [13])) := by
    rw [← List.append_assoc]
    exact not_carries_append (by decide) (htext line hmode) (by decide)
  have hsent : ¬ CarriesCmgs (line ++ a.write.sent (Output.command text).bytes) := by
    obtain ⟨rest, hrest⟩ := a.write.sent_isPrefix (Output.command text).bytes
    refine @not_carries_left _ rest ?_
    rw [List.append_assoc, hrest]
    exact hwhole
  have hfree : Free p' := by
    rw [hmode] at hpath
    exact receives_command hsent hpath
  refine ⟨fun _ _ => ⟨line, hmode⟩, ?_⟩
  cases a.write <;> exact hfree

theorem keeps_collect_free (command : String) :
    Keeps undisturbed Free Free (collectUntilTerminator command) := by
  refine triple_post (triple_collect (fun r p p' hfree hstep => ⟨trivial, ?_⟩) command)
    (fun _ _ h => h.2)
  have hfree' : Free p' := hfree.of_mode hstep.2.2
  split <;> exact hfree'

/-- An exchange that opens no text entry leaves the modem in command mode, also
when it fails. -/
theorem triple_exchange_free (text : String) :
    Triple undisturbed
      (fun p => Free p ∧ ∀ line, p.mode = .command line → ¬ CarriesCmgs (line ++ utf8 text.toList))
      (exchange text) (fun _ => Free) Free := by
  refine triple_exchange (triple_writeCommand text) (keeps_collect_free text) ?_
  exact fun e p p' hfree hstep => ⟨trivial, hfree.of_mode hstep.2.2⟩

theorem keeps_exchange_harmless {text : String} (h : Harmless text) :
    Keeps undisturbed Free Free (exchange text) := by
  refine triple_pre (triple_exchange_free text) (fun p hfree => ⟨hfree, fun line hline => ?_⟩)
  obtain ⟨line', hmode, hn⟩ := hfree
  obtain rfl : line' = line := by
    rw [hmode] at hline
    exact LineMode.command.inj hline
  exact h.append hn

/-! ## The submission of a part

Of a failed GSM-7 submission nothing is claimed: the next thing written is the
ESC of the next connection. -/

/-- What is left when the submission of a part fails. -/
def Dropped (encoding : SmsEncoding) (p : Port) : Prop := encoding = .ucs2 → Free p

theorem triple_abort (encoding : SmsEncoding) :
    Triple undisturbed (fun p => encoding = .ucs2 → Free p ∨ p.unfinished = some .ucs2)
      abortToCommandMode (fun _ => Free) (Dropped encoding) := by
  unfold abortToCommandMode
  refine triple_bind (T := fun _ => Free) ?_ (fun _ => ?_)
  · refine triple_perform (fun a p p' hp hstep => ⟨fun h => (by cases h), ?_⟩)
    have hcond := ioError_closes hstep
    have hpath : lineAutomaton.Path p.mode (a.write.sent [smsAbort]) p'.mode := hstep.2.2
    cases hw : a.write with
    | ok =>
      rw [hw] at hpath
      exact ⟨[], receives_abort hpath, by decide⟩
    | ioError n =>
      rw [hw] at hpath hcond
      intro henc
      cases n with
      | zero =>
        -- The ESC is not out: a submission that is open stays open.
        have hmode : p.mode = p'.mode := hpath
        rcases hp henc with hfree | hopen
        · exact hfree.of_mode hmode.symm
        · exact absurd hopen (hcond rfl)
      | succ n =>
        rw [show (WriteReply.ioError (n + 1)).sent [smsAbort] = [smsAbort] by
          simp [WriteReply.sent]] at hpath
        exact ⟨[], receives_abort hpath, by decide⟩
  · refine triple_bind (T := fun _ => Free) ?_ (fun _ => triple_pure (fun _ h => h))
    exact triple_conseq (keeps_collect_free "ESC") (fun _ h => h) (fun _ _ h => h) (fun _ h _ => h)

theorem buildCmgsHeader_ne_nil (toNumber : String) (encoding : SmsEncoding) :
    buildCmgsHeader toNumber encoding ≠ [] := by
  unfold buildCmgsHeader
  exact List.append_ne_nil_of_left_ne_nil (List.append_ne_nil_of_left_ne_nil (by decide) _) _

theorem triple_writeHeader (toNumber : String) (encoding : SmsEncoding) :
    Triple undisturbed Free (writeBytes (.header toNumber encoding))
      (fun _ p => p.unfinished = some encoding) (Dropped encoding) := by
  refine triple_perform (fun a p p' hp hstep => ?_)
  obtain ⟨line, hmode, hn⟩ := hp
  have hcond := ioError_closes hstep
  have hafter := hstep.2.1
  have hpath : lineAutomaton.Path p.mode (a.write.sent (buildCmgsHeader toNumber encoding))
      p'.mode :=
    hstep.2.2
  refine ⟨fun _ _ => ⟨line, hmode⟩, ?_⟩
  cases hw : a.write with
  | ok =>
    rw [hw] at hafter
    have hopen : p'.unfinished =
        if buildCmgsHeader toNumber encoding = [] then p.unfinished else some encoding := hafter
    rwa [if_neg (buildCmgsHeader_ne_nil toNumber encoding)] at hopen
  | ioError n =>
    rw [hw] at hpath hcond
    intro henc
    have hnot := hcond rfl
    rw [henc] at hnot hpath
    simp only [unfinishedAfter] at hnot
    split at hnot
    · next hnil =>
      rw [show (WriteReply.ioError n).sent (buildCmgsHeader toNumber .ucs2) = [] from hnil] at hpath
      exact ⟨line, (show p.mode = p'.mode from hpath) ▸ hmode, hn⟩
    · exact absurd rfl hnot

/-- The body finds the text entry and its Ctrl-Z leaves it. -/
theorem triple_writeBody {part : String} {encoding : SmsEncoding}
    (hpart : encoding = .gsm7 → isGsm7 part = true) :
    Triple undisturbed (fun p => p.unfinished = some encoding ∧ p.mode = .textEntry)
      (writeBytes (.body part encoding)) (fun _ => Free) (Dropped encoding) := by
  have hwhole : ∀ m, lineAutomaton.Path .textEntry (buildCmgsBody part encoding) m →
      m = .command [] := by
    intro m hm
    obtain ⟨n, hn, k, hk, rfl⟩ := lineAutomaton.path_append.mp hm
    obtain rfl := receives_text (cmgsPayload_text hpart) hn
    cases hk with
    | text hsub hesc => exact absurd rfl hsub
    | leave => rfl
  refine triple_perform (fun a p p' hp hstep => ⟨fun h => (by cases h), ?_⟩)
  obtain ⟨hopen, hmode⟩ := hp
  have hcond := ioError_closes hstep
  have hpath : lineAutomaton.Path p.mode (a.write.sent (buildCmgsBody part encoding)) p'.mode :=
    hstep.2.2
  rw [hmode] at hpath
  cases hw : a.write with
  | ok =>
    rw [hw] at hpath
    exact ⟨[], hwhole p'.mode hpath, by decide⟩
  | ioError n =>
    rw [hw] at hpath hcond
    intro henc
    have hnot := hcond rfl
    simp only [unfinishedAfter] at hnot
    split at hnot
    · next hall =>
      rw [show (WriteReply.ioError n).sent (buildCmgsBody part encoding) = _ from hall] at hpath
      exact ⟨[], hwhole p'.mode hpath, by decide⟩
    · exact absurd (henc ▸ hopen) hnot

/-- A part is submitted from command mode, and leaves the modem there. -/
theorem triple_sendSmsPart {toNumber part : String} {encoding : SmsEncoding}
    (hpart : encoding = .gsm7 → isGsm7 part = true) :
    Triple undisturbed Free (sendSmsPart toNumber part encoding) (fun _ => Free)
      (Dropped encoding) := by
  unfold sendSmsPart
  refine triple_bind (triple_writeHeader toNumber encoding) (fun _ => ?_)
  refine triple_bind (T := fun seen p => p.unfinished = some encoding ∧
    (seen = true → p.mode = .textEntry)) ?_ (fun seen => ?_)
  · refine triple_perform (fun a p p' hopen hstep => ⟨trivial, ?_⟩)
    have hafter : p'.unfinished = some encoding := hstep.2.1.trans hopen
    have hcond := ioError_closes hstep
    have hmode := hstep.2.2
    cases hr : a.prompt with
    | prompt dropped =>
      rw [hr] at hmode
      exact ⟨hafter, fun _ => hmode.2.trans hmode.1⟩
    | timeout dropped => exact ⟨hafter, fun h => by cases h⟩
    | ioError dropped =>
      rw [hr] at hcond
      intro henc
      exact absurd (henc ▸ hopen) (hcond rfl)
  cases seen with
  | false =>
    refine triple_bind (T := fun _ => Free) ?_ (fun _ => triple_pure (fun _ h => h))
    exact triple_pre (triple_abort encoding) (fun p hp henc => Or.inr (henc ▸ hp.1))
  | true =>
    show Triple undisturbed _ (submitBody part encoding) _ _
    unfold submitBody
    refine triple_bind (triple_pre (triple_writeBody hpart) (fun p hp => ⟨hp.1, hp.2 rfl⟩))
      (fun _ => ?_)
    refine triple_bind (T := fun _ => Free) ?_ (fun e => ?_)
    · exact triple_conseq (keeps_collect_free "AT+CMGS") (fun _ h => h) (fun _ _ h => h)
        (fun _ h _ => h)
    split
    · refine triple_bind (T := fun _ => Free) ?_ (fun _ => triple_pure (fun _ h => h))
      exact triple_pre (triple_abort encoding) (fun p hp _ => Or.inl hp)
    · exact triple_pure (fun _ h => h)

/-! ## Messages -/

theorem keeps_exchange_anything {text : String} (h : Harmless text) :
    Keeps undisturbed Free Anything (exchange text) :=
  keeps_weaken (keeps_exchange_harmless h) (fun _ _ => trivial)

theorem keeps_sendAllSegments_free {cfg : Config} {toNumber : String} {segments : List Segment}
    {encoding : SmsEncoding}
    (hparts : encoding = .gsm7 → ∀ segment ∈ segments, isGsm7 segment.text = true) :
    Keeps undisturbed Free (Dropped encoding) (sendAllSegments cfg toNumber segments encoding) := by
  refine keeps_sendAllSegments (fun segment hmem => ?_)
  refine keeps_sendAttempts keepsLocal_free.notes ?_ ?_ _ _
  · exact triple_sendSmsPart (fun henc => hparts henc segment hmem)
  · exact fun e p p' hfree hstep => ⟨trivial, hfree.of_mode hstep.2.2⟩

theorem keeps_sendEncoded {cfg : Config} {toNumber : String} {segments : List Segment}
    {encoding : SmsEncoding}
    (hparts : encoding = .gsm7 → ∀ segment ∈ segments, isGsm7 segment.text = true) :
    Keeps undisturbed Free Anything (sendEncoded cfg toNumber segments encoding) := by
  unfold sendEncoded
  refine keeps_bind (keeps_exchange_anything (by decide +kernel)) (fun _ => ?_)
  cases encoding with
  | gsm7 => exact keeps_weaken (keeps_sendAllSegments_free hparts) (fun _ _ => trivial)
  | ucs2 =>
    have hselect : Keeps undisturbed Free Free (setCharset "UCS2" "17,167,0,8") :=
      keeps_setCharset (keeps_exchange_harmless (by decide +kernel))
        (keeps_exchange_harmless (by decide +kernel))
    have hrestore : Keeps undisturbed Free Free (setCharset "IRA" "17,167,0,0") :=
      keeps_setCharset (keeps_exchange_harmless (by decide +kernel))
        (keeps_exchange_harmless (by decide +kernel))
    refine keeps_bind (keeps_weaken hselect (fun _ _ => trivial)) (fun _ => ?_)
    -- The restore follows a send that failed as well as one that returned.
    refine keeps_bind (keeps_attempt ?_) (fun outcome => ?_)
    · exact triple_conseq (keeps_sendAllSegments_free hparts) (fun _ h => h) (fun _ _ h => h)
        (fun _ h => h rfl)
    refine keeps_bind (keeps_attempt hrestore) (fun _ => ?_)
    cases outcome with
    | some result => exact keeps_pure result
    | none => exact triple_fail (fun _ _ => trivial)

theorem keeps_handleSend_free (cfg : Config) (status : ModemStatusSnapshot)
    (toNumber body : String) :
    Keeps undisturbed Free Anything (handleSend cfg status toNumber body) := by
  unfold handleSend
  split
  · split
    · next segments hseg =>
      refine keeps_sendEncoded (fun henc segment hmem => ?_)
      have hbody := isGsm7_iff.mp (messageEncoding_gsm7.mp henc)
      exact isGsm7_iff.mpr (fun c hc => hbody c (mem_body_of_mem_segment hseg hmem hc))
    · exact keeps_bind (keeps_audit keepsLocal_free.notes _ _) (fun _ => keeps_pure _)
  · exact keeps_pure _

/-! ## The session and the manager -/

/-- What the `select!` tells of the port: a raw request carries no `AT+CMGS`. -/
def Chosen : Choice → Port → Prop
  | .request (.raw command), p => Free p ∧
      ∀ line, p.mode = .command line → ¬ CarriesCmgs (line ++ utf8 command.toList)
  | _, p => Free p

theorem Chosen.free {choice : Choice} {p : Port} (h : Chosen choice p) : Free p := by
  unfold Chosen at h
  split at h
  · exact h.1
  · exact h

theorem triple_select_chosen : Triple undisturbed Free select Chosen Anything := by
  refine triple_select (fun r p p' hfree hstep => ?_) (fun p p' hfree hstep => ?_)
    (fun reply p p' hfree hstep => ?_)
  · have hfree' : Free p' := hfree.of_mode hstep.2.2
    cases r with
    | sendSms toNumber body => exact ⟨trivial, hfree'⟩
    | raw command =>
      refine ⟨trivial, hfree', fun line hline => ?_⟩
      exact hstep.1.2 command line rfl (hstep.2.2.symm.trans hline)
  · exact ⟨trivial, hfree.of_mode hstep.2.2⟩
  · have hfree' : Free p' := hfree.of_mode hstep.2.2
    cases reply <;> exact ⟨trivial, hfree'⟩

theorem triple_handleRequest (cfg : Config) (s : SessionState) (r : ModemRequest) :
    Triple undisturbed (Chosen (.request r)) (handleRequest cfg s r) (fun _ => Free)
      Anything := by
  cases r with
  | raw command =>
    show Triple undisturbed _ (handleRaw command s) _ _
    unfold handleRaw
    refine triple_bind (T := fun _ => Free) ?_ (fun e => ?_)
    · exact triple_conseq (triple_exchange_free command) (fun _ h => h) (fun _ _ h => h)
        (fun _ _ => trivial)
    refine keeps_bind (keeps_scanCmti keepsInbound_free _ _) (fun pending => ?_)
    refine keeps_bind (keeps_emit_local keepsLocal_free rfl) (fun _ => ?_)
    exact keeps_bind (keeps_emit_local keepsLocal_free rfl) (fun _ => keeps_pure _)
  | sendSms toNumber body =>
    refine triple_bind (keeps_handleSend_free cfg s.status toNumber body) (fun result => ?_)
    refine keeps_bind (keeps_emit (fun p p' hfree hstep => ?_)) (fun _ => keeps_pure s)
    exact ⟨trivial, hfree.of_mode hstep.2.2⟩

theorem triple_sessionStep_free (cfg : Config) (events : Bool) (s : SessionState) :
    Triple undisturbed Free (sessionStep cfg events s)
      (afterTurn (fun _ => Free) Anything) Anything := by
  have hstatus : ∀ c ∈ statusCommands, Harmless c := by decide +kernel
  refine triple_sessionStep (I := fun _ => Free) s (fun pending => ?_) keepsLocal_free.reports ?_ ?_
  · exact keeps_drainPending keepsLocal_free.notes keepsInbound_free
      (fun index => keeps_exchange_anything (harmless_cmgr index))
      (fun index => keeps_exchange_anything (harmless_cmgd index)) events pending
  · exact keeps_refreshStatus keepsLocal_free
      (fun c hc => keeps_exchange_anything (hstatus c hc))
  · intro s _
    refine triple_serveTurn (I := fun _ => Free) triple_select_chosen (fun _ _ => trivial)
      (fun _ _ => trivial) (fun _ h => h.free) (fun line => ?_) (triple_handleRequest cfg s)
    exact triple_pre (keeps_scanCmti keepsInbound_free _ _) (fun _ h => h.free)

theorem keepsLocal_anything : KeepsLocal undisturbed Anything := by
  intro e p p' he _ _
  refine ⟨?_, trivial⟩
  cases e <;> trivial

theorem not_carries_cons {line : List UInt8} {b : UInt8} (hb : b ∉ cmgs)
    (hline : ¬ CarriesCmgs line) : ¬ CarriesCmgs (b :: line) := by
  intro h
  rcases List.infix_cons_iff.mp h with hpre | hinf
  · obtain ⟨rest, hrest⟩ := hpre
    have hhead : some 65 = some b := congrArg List.head? hrest
    exact hb (Option.some_inj.mp hhead ▸ by decide)
  · exact hline hinf

/-- The one setting that the setup sequence writes is not validated. -/
def PlainServiceCenter (cfg : Config) : Prop :=
  ∀ csca, cfg.serviceCenterNumber = some csca → ¬ CarriesCmgs (utf8 csca.toList)

theorem harmless_initCommands {cfg : Config} (hcfg : PlainServiceCenter cfg) :
    ∀ c ∈ initCommands cfg, Harmless c := by
  have hfixed : ∀ c ∈ ["AT+CMGF=1", "AT+CSCS=\"IRA\"", "AT+CSMP=17,167,0,0", "AT+CSDH=1"],
      Harmless c := by decide +kernel
  intro c hc
  obtain ⟨last, hcommands, hlast⟩ := initCommands_eq cfg
  rw [hcommands] at hc
  rcases List.mem_append.mp hc with hc | hc
  · exact hfixed c hc
  · obtain ⟨csca, hcsca, rfl⟩ := hlast c hc
    have htext : utf8 ("AT+CSCA=\"" ++ csca ++ "\"").toList =
        utf8 "AT+CSCA=".toList ++ 34 :: (utf8 csca.toList ++ [34]) := by
      rw [String.toList_append, String.toList_append, utf8_append, utf8_append,
        show utf8 "AT+CSCA=\"".toList = utf8 "AT+CSCA=".toList ++ [34] by decide +kernel,
        show utf8 "\"".toList = [34] by decide +kernel, List.append_assoc, List.append_assoc]
      exact congrArg _ List.singleton_append
    have hhead : (utf8 "AT+CSCA=".toList).head? = some 65 := by decide +kernel
    refine ⟨by rw [htext, List.head?_append, hhead]; exact Option.some_or, ?_⟩
    rw [htext]
    refine not_carries_append (by decide) (by decide +kernel) ?_
    apply not_carries_cons (by decide)
    exact not_carries_append (by decide) (hcfg csca hcsca) (by decide)

theorem keeps_managerStep_anything {cfg : Config} (hcfg : PlainServiceCenter cfg)
    (s : ManagerState) : Keeps undisturbed Anything Anything (managerStep cfg s) := by
  refine keeps_managerStep (I := Free) (C := Free) s keepsLocal_anything keepsLocal_free
    (fun ok p p' _ hstep => ⟨trivial, trivial⟩) ?_ ?_ (fun status => ?_)
  · exact triple_conseq (triple_abort .gsm7) (fun _ _ h => by cases h) (fun _ _ h => h)
      (fun _ _ => trivial)
  · have hharmless := harmless_initCommands hcfg
    exact keeps_runCommands (fun c hc => keeps_exchange_anything (hharmless c hc)) true
  · exact triple_runSessionInner (I := fun _ => Free) status
      (fun _ _ _ => keepsLocal_anything _ _ _ rfl)
      (triple_sessionStep_free cfg true)

/-- In every run of the manager, from any mode of the modem, whose steps are
undisturbed, commands are written in command mode only. -/
theorem commands_written_in_command_mode {cfg : Config} (hcfg : PlainServiceCenter cfg)
    (mode : LineMode) (script : List Answer) :
    (commandMode.restrict Undisturbed).Safe ⟨mode, none⟩ (runModemManager cfg script).trace :=
  (keeps_runModemManager (keeps_managerStep_anything hcfg)).safe script trivial

/-- A modem that was left at the prompt, and then sends a message. -/
theorem commands_written_in_command_mode_hello :
    (commandMode.restrict Undisturbed).Safe ⟨.textEntry, none⟩
      (runModemManager plainConfig (connects ++ [.took (.sendSms "+15551234567" "hello")] ++
        answered ["OK"] ++ [.quiet, { prompt := .prompt [] }] ++
        answered ["+CMGS: 7", "OK"])).trace :=
  commands_written_in_command_mode (fun _ h => by cases h) .textEntry _

/-! ## A restore at the prompt -/

/-- A modem that accepts every submission. -/
def receive : LineMode → UInt8 → LineMode
  | .command line, b =>
    if b = 13 then (if CarriesCmgs line then .textEntry else .command [])
    else if b = smsAbort then .command [] else .command (line ++ [b])
  | .textEntry, b => if b = smsSubmit ∨ b = smsAbort then .command [] else .textEntry

theorem receives_receive (m : LineMode) (b : UInt8) : Receives m b (receive m b) := by
  cases m with
  | command line =>
    by_cases hcr : b = 13
    · subst hcr
      by_cases hline : CarriesCmgs line
      · rw [receive, if_pos rfl, if_pos hline]
        exact .enter hline
      · rw [receive, if_pos rfl, if_neg hline]
        exact .refuse
    · by_cases hesc : b = smsAbort
      · rw [receive, if_neg hcr, if_pos hesc, hesc]
        exact .cancel
      · rw [receive, if_neg hcr, if_neg hesc]
        exact .char hcr hesc
  | textEntry =>
    by_cases hend : b = smsSubmit ∨ b = smsAbort
    · rw [receive, if_pos hend]
      exact .leave hend
    · rw [receive, if_neg hend]
      exact .text (fun h => hend (Or.inl h)) (fun h => hend (Or.inr h))

theorem path_receive (m : LineMode) (bs : List UInt8) :
    lineAutomaton.Path m bs (bs.foldl receive m) := by
  induction bs generalizing m with
  | nil => rfl
  | cons b bs ih => exact ⟨receive m b, receives_receive m b, ih (receive m b)⟩

def accepting (p : Port) (e : Event) : Option Port :=
  match e with
  | .wrote out reply =>
    some ⟨(reply.sent out.bytes).foldl receive p.mode, unfinishedAfter p.unfinished e⟩
  | .prompted (.prompt _) =>
    if p.mode = .textEntry then some ⟨p.mode, unfinishedAfter p.unfinished e⟩ else none
  | _ => some ⟨p.mode, unfinishedAfter p.unfinished e⟩

theorem step_accepting (p : Port) (e : Event) (p' : Port) (h : accepting p e = some p') :
    commandMode.step p e p' := by
  unfold accepting at h
  split at h
  · next out reply =>
    obtain rfl := Option.some_inj.mp h
    exact ⟨rfl, path_receive p.mode (reply.sent out.bytes)⟩
  · next dropped =>
    by_cases hmode : p.mode = .textEntry
    · rw [if_pos hmode] at h
      obtain rfl := Option.some_inj.mp h
      exact ⟨rfl, hmode, rfl⟩
    · rw [if_neg hmode] at h
      cases h
  · next hwrote hprompt =>
    obtain rfl := Option.some_inj.mp h
    refine ⟨rfl, ?_⟩
    cases e with
    | wrote out reply => exact absurd rfl (hwrote out reply)
    | prompted reply =>
      cases reply with
      | prompt dropped => exact absurd rfl (hprompt dropped)
      | _ => rfl
    | _ => rfl

/-- A UCS2 message whose prompt is lost to an I/O error: the part stays open,
and `AT+CSCS="IRA"` is written into it. -/
def lostPrompt : List Answer :=
  connects ++ [.took (.sendSms "+15551234567" "я")] ++
    answered ["OK"] ++ answered ["OK"] ++ answered ["OK"] ++
    [.quiet, { prompt := .ioError [] }, .quiet]

/-- The request that was taken is a raw one. -/
def Event.isRaw : Event → Bool
  | .took (.raw _) => true
  | _ => false

theorem restore_written_in_text_entry :
    ¬ ∀ (cfg : Config) (script : List Answer) (mode : LineMode),
      (∀ command, .took (.raw command) ∈ (runModemManager cfg script).trace →
        ¬ CarriesCmgs (utf8 command.toList)) →
      commandMode.Safe ⟨mode, none⟩ (runModemManager cfg script).trace := by
  intro h
  have hraw : (runModemManager plainConfig lostPrompt).trace.all
      (fun e => !e.isRaw) = true := by decide +kernel
  have hsafe := h plainConfig lostPrompt (.command []) (fun command hmem =>
    absurd (List.all_eq_true.mp hraw _ hmem) (by simp [Event.isRaw]))
  have hmem : ((⟨.textEntry, some .ucs2⟩, .wrote (.command "AT+CSCS=\"IRA\"") .ok) : Port × Event) ∈
      Monitor.follow accepting ⟨.command [], none⟩
        (runModemManager plainConfig lostPrompt).trace := by
    decide +kernel
  obtain ⟨line, hline⟩ := commandMode.ok_of_mem_follow step_accepting hsafe hmem rfl (by decide)
  cases hline

end Modem
end GreenRelay
