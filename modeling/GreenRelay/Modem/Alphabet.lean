/-
The alphabet the modem is set to.

The TE character set and the data-coding scheme live in the modem and change
with a command that it answers OK.  The service asks for the pair that a part
needs before it submits the part, but goes on when the modem refuses or stays
silent.  So a part meets its own alphabet whenever the last command for each of
the two settings was answered OK, and not in general.
-/
import GreenRelay.Modem.Rules

namespace GreenRelay
namespace Modem

open Sms Text Scripted

/-! ## The settings -/

inductive Setting where
  | charset
  | scheme
  deriving DecidableEq, Repr

/-- The setting that a command is for, and the value it asks for: the name of
the character set, or the last of the text-mode parameters. -/
def setting (command : String) : Option (Setting × String) :=
  match stripPrefix "AT+CSCS=".toList command.toList with
  | some name => some (.charset, String.ofList (trimMatches '"' name))
  | none =>
    (stripPrefix "AT+CSMP=".toList command.toList).map
      (fun params => (.scheme, String.ofList ((params.splitOn ',').getLastD [])))

/-- A value in the modem, and whether the last command for it was answered OK. -/
structure Knob where
  value : String
  sure : Bool
  deriving DecidableEq, Repr

structure Alphabet where
  charset : Knob
  scheme : Knob
  deriving DecidableEq, Repr

def Alphabet.knob (s : Alphabet) : Setting → Knob
  | .charset => s.charset
  | .scheme => s.scheme

def Alphabet.put (s : Alphabet) (k : Setting) (x : Knob) : Alphabet :=
  match k with
  | .charset => { s with charset := x }
  | .scheme => { s with scheme := x }

theorem Alphabet.knob_put_same (s : Alphabet) (k : Setting) (x : Knob) :
    (s.put k x).knob k = x := by
  cases k <;> rfl

theorem Alphabet.knob_put_other (s : Alphabet) {j k : Setting} (h : j ≠ k) (x : Knob) :
    (s.put k x).knob j = s.knob j := by
  cases j <;> cases k <;> first | rfl | exact absurd rfl h

/-- The values a part of the encoding is read under. -/
def wanted : SmsEncoding → Setting → String
  | .gsm7, .charset => "IRA"
  | .gsm7, .scheme => "0"
  | .ucs2, .charset => "UCS2"
  | .ucs2, .scheme => "8"

def Alphabet.Fits (s : Alphabet) (encoding : SmsEncoding) : Prop :=
  ∀ k, (s.knob k).value = wanted encoding k

/-! ## The monitor -/

/-- The modem after a command of which nothing is known but that it was
written: it may or may not have had its effect. -/
def Alphabet.Written (s : Alphabet) (command : String) (s' : Alphabet) : Prop :=
  match setting command with
  | some (k, v) => s' = s.put k ⟨(s.knob k).value, false⟩ ∨ s' = s.put k ⟨v, false⟩
  | none => s' = s

def Alphabet.confirm (s : Alphabet) (command : String) : Alphabet :=
  match setting command with
  | some (k, v) => s.put k ⟨v, true⟩
  | none => s

/-- A command that is answered OK has its effect, and one that is answered with
an error, or not at all, leaves what there was after its writing.  Raw requests
could change the settings on their own account and are left out. -/
def alphabet : Monitor Event Alphabet where
  step s e s' :=
    match e with
    | .wrote (.command text) _ => s.Written text s'
    | .exchanged x => s' = if x.result.isOk then s.confirm x.command else s
    | .took (.raw _) => False
    | _ => s' = s
  ok s e :=
    match e with
    | .wrote (.header _ encoding) _ => s.Fits encoding
    | .wrote (.body _ encoding) _ => s.Fits encoding
    | _ => True

/-- The last command for each setting was answered OK. -/
def Alphabet.Sure (s : Alphabet) : Prop := ∀ k, (s.knob k).sure = true

/-- No part is submitted while a setting is in doubt. -/
def Confirmed (s : Alphabet) (e : Event) (_ : Alphabet) : Prop :=
  match e with
  | .wrote (.header _ _) _ => s.Sure
  | .wrote (.body _ _) _ => s.Sure
  | _ => True

abbrev confirmed : Monitor Event Alphabet := alphabet.restrict Confirmed

/-! ## Exchanges -/

/-- Of the settings in the list, those that are sure have the value `w`. -/
def Agreed (w : Setting → String) (settings : List Setting) (s : Alphabet) : Prop :=
  ∀ k ∈ settings, (s.knob k).sure = true → (s.knob k).value = w k

theorem keepsLocal_alphabet (I : Alphabet → Prop) : KeepsLocal confirmed I := by
  intro e s s' he hI hstep
  have hsame : s' = s := by
    cases e <;> first | exact hstep.2 | cases he
  refine ⟨?_, hsame ▸ hI⟩
  cases e <;> trivial

theorem keepsInbound_alphabet (I : Alphabet → Prop) : KeepsInbound confirmed I := by
  intro e s s' he hI hstep
  have hsame : s' = s := by
    cases e <;> first | exact hstep.2 | cases he
  refine ⟨?_, hsame ▸ hI⟩
  cases e <;> trivial

theorem triple_collect_alphabet {I R : Alphabet → Prop} (hR : ∀ s, I s → R s) (command : String) :
    Triple confirmed I (collectUntilTerminator command) (fun e s => e.command = command ∧ I s)
      R := by
  refine triple_collect (fun r s s' hI hstep => ⟨trivial, ?_⟩) command
  obtain rfl : s' = s := hstep.2
  split
  · exact hR s' hI
  · exact hI

/-- A command for neither setting keeps whatever is known. -/
theorem keeps_exchange_neutral {I : Alphabet → Prop} {text : String} (h : setting text = none) :
    Keeps confirmed I I (exchange text) := by
  refine triple_exchange (C := I) ?_ (triple_collect_alphabet (fun _ h => h) text) ?_
  · refine triple_perform (fun a s s' hI hstep => ⟨trivial, ?_⟩)
    have hw : s.Written text s' := hstep.2
    rw [Alphabet.Written, h] at hw
    rw [hw]
    cases a.write <;> exact hI
  · intro e s s' he hstep
    have hx : s' = if e.result.isOk then s.confirm e.command else s := hstep.2
    rw [he.1, Alphabet.confirm, h, ite_self] at hx
    exact ⟨trivial, hx ▸ he.2⟩

/-- A command for a setting adds it to those that have the value `w`, if sure. -/
theorem triple_exchange_setting {w : Setting → String} {known : List Setting} {text : String}
    {k : Setting} (h : setting text = some (k, w k)) :
    Triple confirmed (Agreed w known) (exchange text) (fun _ => Agreed w (k :: known))
      (fun s => ¬ s.Sure) := by
  -- Between the writing and the OK the setting is in doubt.
  refine triple_exchange (C := fun s => (s.knob k).sure = false ∧ Agreed w known s) ?_
    (triple_collect_alphabet ?_ text) ?_
  case refine_2 => exact fun s hs hsure => Bool.false_ne_true (hs.1 ▸ hsure k)
  · refine triple_perform (fun a s s' hs hstep => ⟨trivial, ?_⟩)
    have hw : s.Written text s' := hstep.2
    rw [Alphabet.Written, h] at hw
    obtain ⟨v, rfl⟩ : ∃ v, s' = s.put k ⟨v, false⟩ := by
      rcases hw with hw | hw
      · exact ⟨_, hw⟩
      · exact ⟨_, hw⟩
    have hdoubt : ((s.put k ⟨v, false⟩).knob k).sure = false := by
      rw [Alphabet.knob_put_same]
    cases a.write with
    | ioError n => exact fun hsure => Bool.false_ne_true (hdoubt ▸ hsure k)
    | ok =>
      refine ⟨hdoubt, fun j hj hsure => ?_⟩
      by_cases hjk : j = k
      · subst hjk
        rw [hdoubt] at hsure
        cases hsure
      · rw [Alphabet.knob_put_other s hjk] at hsure ⊢
        exact hs j hj hsure
  · intro e s s' he hstep
    obtain ⟨hcommand, hdoubt, hknown⟩ := he
    have hx : s' = if e.result.isOk then s.confirm e.command else s := hstep.2
    rw [hcommand, Alphabet.confirm, h] at hx
    refine ⟨trivial, fun j hj hsure => ?_⟩
    by_cases hok : e.result.isOk = true
    · rw [if_pos hok] at hx
      subst hx
      by_cases hjk : j = k
      · subst hjk
        rw [Alphabet.knob_put_same]
      · rw [Alphabet.knob_put_other s hjk] at hsure ⊢
        exact hknown j ((List.mem_cons.mp hj).resolve_left hjk) hsure
    · rw [if_neg hok] at hx
      subst hx
      by_cases hjk : j = k
      · subst hjk
        rw [hdoubt] at hsure
        cases hsure
      · exact hknown j ((List.mem_cons.mp hj).resolve_left hjk) hsure

/-! ## Parts and messages -/

/-- A modem that is sure of its settings has those of the encoding. -/
def SetFor (encoding : SmsEncoding) (s : Alphabet) : Prop := s.Sure → s.Fits encoding

theorem setFor_of_agreed {encoding : SmsEncoding} {s : Alphabet}
    (h : Agreed (wanted encoding) [.scheme, .charset] s) : SetFor encoding s := by
  intro hsure k
  exact h k (by cases k <;> decide) (hsure k)

theorem setFor_of_not_sure {encoding : SmsEncoding} {s : Alphabet} (h : ¬ s.Sure) :
    SetFor encoding s :=
  fun hsure => absurd hsure h

theorem triple_setCharset {cscs csmp : String} {encoding : SmsEncoding}
    (hcscs : setting ("AT+CSCS=\"" ++ cscs ++ "\"") = some (.charset, wanted encoding .charset))
    (hcsmp : setting ("AT+CSMP=" ++ csmp) = some (.scheme, wanted encoding .scheme)) :
    Triple confirmed (fun _ => True) (setCharset cscs csmp) (fun _ => SetFor encoding)
      (fun s => ¬ s.Sure) := by
  unfold setCharset
  refine triple_bind (T := fun _ => Agreed (wanted encoding) [.charset]) ?_ (fun _ => ?_)
  · exact triple_pre (triple_exchange_setting hcscs) (fun _ _ _ hk => absurd hk List.not_mem_nil)
  · refine triple_bind (triple_exchange_setting hcsmp) (fun _ => ?_)
    exact triple_pure (fun _ h => setFor_of_agreed h)

theorem keepsSubmission_alphabet (encoding : SmsEncoding) :
    KeepsSubmission confirmed (SetFor encoding) encoding := by
  intro e s s' he hs hstep
  match e with
  | .wrote (.header toNumber e) reply =>
    obtain rfl : e = encoding := by simpa [Event.isSubmission] using he
    exact ⟨hs hstep.1, (show s' = s from hstep.2) ▸ hs⟩
  | .wrote (.body part e) reply =>
    obtain rfl : e = encoding := by simpa [Event.isSubmission] using he
    exact ⟨hs hstep.1, (show s' = s from hstep.2) ▸ hs⟩
  | .wrote .abort reply => exact ⟨trivial, (show s' = s from hstep.2) ▸ hs⟩
  | .prompted reply => exact ⟨trivial, (show s' = s from hstep.2) ▸ hs⟩
  | .read reply => exact ⟨trivial, (show s' = s from hstep.2) ▸ hs⟩

theorem keeps_sendAllSegments_alphabet (cfg : Config) (toNumber : String) (segments : List Segment)
    (encoding : SmsEncoding) :
    Keeps confirmed (SetFor encoding) (SetFor encoding)
      (sendAllSegments cfg toNumber segments encoding) := by
  refine keeps_sendAllSegments (fun segment _ => ?_)
  have hpart := keeps_sendSmsPart (keepsSubmission_alphabet encoding) toNumber segment.text
  refine keeps_sendAttempts (keepsLocal_alphabet _).notes hpart
    (fun e s s' hs hstep => ⟨trivial, ?_⟩) _ _
  obtain rfl : s' = s := hstep.2
  exact hs

/-- A message finds the modem set for GSM-7 and leaves it so, whatever was
answered to the commands around it. -/
theorem keeps_sendEncoded_alphabet (cfg : Config) (toNumber : String) (segments : List Segment)
    (encoding : SmsEncoding) :
    Keeps confirmed (SetFor .gsm7) (fun _ => True)
      (sendEncoded cfg toNumber segments encoding) := by
  unfold sendEncoded
  refine keeps_bind ?_ (fun _ => ?_)
  · exact keeps_weaken (keeps_exchange_neutral (by decide +kernel)) (fun _ _ => trivial)
  cases encoding with
  | gsm7 =>
    exact keeps_weaken (keeps_sendAllSegments_alphabet cfg toNumber segments .gsm7)
      (fun _ _ => trivial)
  | ucs2 =>
    have hselect := @triple_setCharset "UCS2" "17,167,0,8" .ucs2
      (by decide +kernel) (by decide +kernel)
    have hrestore := @triple_setCharset "IRA" "17,167,0,0" .gsm7
      (by decide +kernel) (by decide +kernel)
    refine triple_bind (triple_conseq hselect (fun _ _ => trivial) (fun _ _ h => h)
      (fun _ _ => trivial)) (fun _ => ?_)
    refine triple_bind (T := fun _ _ => True) ?_ (fun outcome => ?_)
    · refine triple_attempt (triple_conseq
        (keeps_sendAllSegments_alphabet cfg toNumber segments .ucs2) (fun _ h => h) ?_ ?_)
      · exact fun _ _ _ => trivial
      · exact fun _ _ => trivial
    refine triple_bind (T := fun _ => SetFor .gsm7) ?_ (fun _ => ?_)
    · exact triple_attempt (triple_conseq hrestore (fun _ h => h) (fun _ _ h => h)
        (fun _ h => setFor_of_not_sure h))
    cases outcome with
    | some result => exact triple_pure (fun _ h => h)
    | none => exact triple_fail (fun _ _ => trivial)

theorem keeps_handleSend_alphabet (cfg : Config) (status : ModemStatusSnapshot)
    (toNumber body : String) :
    Keeps confirmed (SetFor .gsm7) (fun _ => True) (handleSend cfg status toNumber body) := by
  unfold handleSend
  split
  · split
    · exact keeps_sendEncoded_alphabet cfg toNumber _ _
    · exact keeps_bind (keeps_audit (keepsLocal_alphabet _).notes _ _) (fun _ => keeps_pure _)
  · exact keeps_pure _

/-! ## The session and the manager -/

theorem keeps_exchange_other {text : String} (h : setting text = none) :
    Keeps confirmed (SetFor .gsm7) (fun _ => True) (exchange text) :=
  keeps_weaken (keeps_exchange_neutral h) (fun _ _ => trivial)

theorem setting_cmgr (index : Nat) : setting (cmgrCommand index) = none := by
  unfold setting cmgrCommand
  rw [String.toList_append]
  rfl

theorem setting_cmgd (index : Nat) : setting (cmgdCommand index) = none := by
  unfold setting cmgdCommand
  rw [String.toList_append]
  rfl

theorem setting_csca (csca : String) : setting ("AT+CSCA=\"" ++ csca ++ "\"") = none := by
  unfold setting
  rw [String.toList_append, String.toList_append]
  rfl

theorem triple_handleRequest_alphabet (cfg : Config) (s : SessionState) (r : ModemRequest) :
    Triple confirmed (fun st => SetFor .gsm7 st ∧ ∀ command, r ≠ .raw command)
      (handleRequest cfg s r) (fun _ => SetFor .gsm7) (fun _ => True) := by
  cases r with
  | raw command => exact fun script st hst => absurd rfl (hst.2 command)
  | sendSms toNumber body =>
    refine triple_bind (triple_pre (keeps_handleSend_alphabet cfg s.status toNumber body)
      (fun _ h => h.1)) (fun result => ?_)
    refine keeps_bind (keeps_emit (fun st st' hst hstep => ⟨trivial, ?_⟩)) (fun _ => keeps_pure s)
    obtain rfl : st' = st := hstep.2
    exact hst

theorem triple_sessionStep_alphabet (cfg : Config) (events : Bool) (s : SessionState) :
    Triple confirmed (SetFor .gsm7) (sessionStep cfg events s)
      (afterTurn (fun _ => SetFor .gsm7) (fun _ => True)) (fun _ => True) := by
  have hlocal := keepsLocal_alphabet (SetFor .gsm7)
  have hinbound := keepsInbound_alphabet (SetFor .gsm7)
  have hstatus : ∀ c ∈ statusCommands, setting c = none := by decide +kernel
  refine triple_sessionStep (I := fun _ => SetFor .gsm7) s (fun pending => ?_) hlocal.reports ?_ ?_
  · exact keeps_drainPending hlocal.notes hinbound
      (fun index => keeps_exchange_other (setting_cmgr index))
      (fun index => keeps_exchange_other (setting_cmgd index)) events pending
  · exact keeps_refreshStatus hlocal (fun c hc => keeps_exchange_other (hstatus c hc))
  intro s _
  refine triple_serveTurn (I := fun _ => SetFor .gsm7)
    (P := fun choice st => SetFor .gsm7 st ∧ ∀ command, choice ≠ .request (.raw command))
    ?_ (fun _ _ => trivial) (fun _ _ => trivial) (fun _ h => h.1) (fun line => ?_) (fun r => ?_)
  · refine triple_select (fun r st st' hst hstep => ⟨trivial, ?_⟩)
      (fun st st' hst hstep => ⟨trivial, ?_⟩) (fun reply st st' hst hstep => ⟨trivial, ?_⟩)
    · cases r with
      | raw command => exact absurd hstep.2 id
      | sendSms toNumber body =>
        obtain rfl : st' = st := hstep.2
        exact ⟨hst, fun _ h => by cases h⟩
    · obtain rfl : st' = st := hstep.2
      exact ⟨hst, fun _ h => by cases h⟩
    · obtain rfl : st' = st := hstep.2
      refine ⟨hst, fun _ h => ?_⟩
      cases reply <;> cases h
  · exact triple_pre (keeps_scanCmti hinbound _ _) (fun _ h => h.1)
  · exact triple_pre (triple_handleRequest_alphabet cfg s r)
      (fun _ h => ⟨h.1, fun command hr => h.2 command (congrArg Choice.request hr)⟩)

/-- The setup sequence asks for the alphabet of GSM-7 and its data-coding scheme. -/
theorem triple_initializeModem (cfg : Config) :
    Triple confirmed (fun _ => True) (initializeModem cfg) (fun _ => SetFor .gsm7)
      (fun _ => True) := by
  obtain ⟨last, hcommands, hlast⟩ := initCommands_eq cfg
  have hrest : ∀ c ∈ "AT+CSDH=1" :: last, setting c = none := by
    intro c hc
    rcases List.mem_cons.mp hc with rfl | hc
    · decide +kernel
    · obtain ⟨csca, _, rfl⟩ := hlast c hc
      exact setting_csca csca
  have hcharset := @triple_exchange_setting (wanted .gsm7) [] "AT+CSCS=\"IRA\"" .charset
    (by decide +kernel)
  have hscheme := @triple_exchange_setting (wanted .gsm7) [.charset] "AT+CSMP=17,167,0,0" .scheme
    (by decide +kernel)
  rw [initializeModem, hcommands]
  show Triple confirmed _ (runCommands ("AT+CMGF=1" :: "AT+CSCS=\"IRA\"" ::
    "AT+CSMP=17,167,0,0" :: "AT+CSDH=1" :: last) true) _ _
  unfold runCommands
  refine triple_bind (T := fun _ => Agreed (wanted .gsm7) []) ?_ (fun _ => ?_)
  · exact triple_conseq (keeps_exchange_neutral (I := fun _ => True) (by decide +kernel))
      (fun _ h => h) (fun _ _ _ _ hk => absurd hk List.not_mem_nil) (fun _ h => h)
  unfold runCommands
  refine triple_bind (triple_conseq hcharset (fun _ h => h) (fun _ _ h => h)
    (fun _ _ => trivial)) (fun _ => ?_)
  unfold runCommands
  refine triple_bind (triple_conseq hscheme (fun _ h => h) (fun _ _ h => setFor_of_agreed h)
    (fun _ _ => trivial)) (fun _ => ?_)
  exact keeps_runCommands (fun c hc => keeps_exchange_other (hrest c hc)) _

theorem keeps_managerStep_alphabet (cfg : Config) (s : ManagerState) :
    Keeps confirmed (fun _ => True) (fun _ => True) (managerStep cfg s) := by
  refine keeps_managerStep (I := SetFor .gsm7) (C := fun _ => True) s (keepsLocal_alphabet _)
    (keepsLocal_alphabet _) (fun _ _ _ _ _ => ⟨trivial, trivial⟩) ?_ (triple_initializeModem cfg)
    (fun status => ?_)
  · refine keeps_bind ?_ (fun _ => keeps_bind ?_ (fun _ => keeps_pure ()))
    · refine triple_perform (fun a _ _ _ _ => ⟨trivial, ?_⟩)
      cases a.write <;> trivial
    · exact triple_post (triple_collect_alphabet (I := fun _ => True) (fun _ h => h) "ESC")
        (fun _ _ _ => trivial)
  · exact triple_runSessionInner (I := fun _ => SetFor .gsm7) status
      (fun _ _ _ => keepsLocal_alphabet _ _ _ _ rfl)
      (triple_sessionStep_alphabet cfg true)

/-- In every run of sends, refreshes and reconnects in which no part is
submitted while a setting is in doubt, every part is submitted under its own
alphabet. -/
theorem parts_submitted_under_their_alphabet (cfg : Config) (script : List Answer)
    (s : Alphabet) : (alphabet.restrict Confirmed).Safe s (runModemManager cfg script).trace :=
  (keeps_runModemManager (keeps_managerStep_alphabet cfg)).safe script trivial

/-! ## Two messages -/

/-- A modem on which a command has no effect before it is answered OK. -/
def obeying (s : Alphabet) (e : Event) : Option Alphabet :=
  match e with
  | .wrote (.command text) _ =>
    match setting text with
    | some (k, _) => some (s.put k ⟨(s.knob k).value, false⟩)
    | none => some s
  | .exchanged x => some (if x.result.isOk then s.confirm x.command else s)
  | .took (.raw _) => none
  | _ => some s

theorem step_obeying (s : Alphabet) (e : Event) (s' : Alphabet) (h : obeying s e = some s') :
    alphabet.step s e s' := by
  unfold obeying at h
  split at h
  · next text reply =>
    show s.Written text s'
    unfold Alphabet.Written
    cases hset : setting text with
    | none => rw [hset] at h; exact (Option.some_inj.mp h).symm
    | some kv => rw [hset] at h; exact Or.inl (Option.some_inj.mp h).symm
  · exact (Option.some_inj.mp h).symm
  · cases h
  · next hcommand hexchanged hraw =>
    have hsame : s' = s := (Option.some_inj.mp h).symm
    cases e with
    | wrote out reply =>
      cases out with
      | command text => exact absurd rfl (hcommand text reply)
      | _ => exact hsame
    | exchanged x => exact absurd rfl (hexchanged x)
    | took r =>
      cases r with
      | raw command => exact absurd rfl (hraw command)
      | sendSms toNumber body => exact hsame
    | _ => exact hsame

instance (s : Alphabet) : Decidable s.Sure :=
  decidable_of_iff (s.charset.sure = true ∧ s.scheme.sure = true)
    ⟨fun h k => by cases k; exacts [h.1, h.2], fun h => ⟨h .charset, h .scheme⟩⟩

instance (s : Alphabet) (e : Event) (s' : Alphabet) : Decidable (Confirmed s e s') := by
  unfold Confirmed
  split <;> infer_instance

/-- The same as long as no part is submitted in doubt. -/
def confirming (s : Alphabet) (e : Event) : Option Alphabet :=
  (obeying s e).filter (fun s' => Confirmed s e s')

theorem step_confirming (s : Alphabet) (e : Event) (s' : Alphabet)
    (h : confirming s e = some s') : confirmed.step s e s' := by
  obtain ⟨hstep, hconfirmed⟩ := Option.filter_eq_some_iff.mp h
  exact ⟨of_decide_eq_true hconfirmed, step_obeying s e s' hstep⟩

/-- A UCS2 message, after which the modem goes back to IRA, and a GSM-7 message. -/
def acceptedRestore : List Answer :=
  connects ++ [.took (.sendSms "+15551234567" "я")] ++
    answered ["OK"] ++ answered ["OK"] ++ answered ["OK"] ++
    [.quiet, { prompt := .prompt [] }] ++ answered ["+CMGS: 7", "OK"] ++
    answered ["OK"] ++ answered ["OK"] ++
    [.quiet, .took (.sendSms "+15551234567" "hello")] ++ answered ["OK"] ++ [.quiet]

/-- The headers of the two are submitted with both settings confirmed. -/
theorem parts_submitted_under_their_alphabet_both :
    (∃ s, (s, .wrote (.header "+15551234567" .ucs2) .ok) ∈ Monitor.follow confirming
        ⟨⟨"IRA", false⟩, ⟨"0", false⟩⟩ (runModemManager plainConfig acceptedRestore).trace ∧
      s.Fits .ucs2) ∧
    ∃ s, (s, .wrote (.header "+15551234567" .gsm7) .ok) ∈ Monitor.follow confirming
        ⟨⟨"IRA", false⟩, ⟨"0", false⟩⟩ (runModemManager plainConfig acceptedRestore).trace ∧
      s.Fits .gsm7 := by
  have hucs2 : ((⟨⟨"UCS2", true⟩, ⟨"8", true⟩⟩, .wrote (.header "+15551234567" .ucs2) .ok) :
      Alphabet × Event) ∈ Monitor.follow confirming ⟨⟨"IRA", false⟩, ⟨"0", false⟩⟩
        (runModemManager plainConfig acceptedRestore).trace := by decide +kernel
  have hgsm7 : ((⟨⟨"IRA", true⟩, ⟨"0", true⟩⟩, .wrote (.header "+15551234567" .gsm7) .ok) :
      Alphabet × Event) ∈ Monitor.follow confirming ⟨⟨"IRA", false⟩, ⟨"0", false⟩⟩
        (runModemManager plainConfig acceptedRestore).trace := by decide +kernel
  have hok : ∀ script x, x ∈ Monitor.follow confirming ⟨⟨"IRA", false⟩, ⟨"0", false⟩⟩
      (runModemManager plainConfig script).trace → confirmed.ok x.1 x.2 :=
    fun script _ => confirmed.ok_of_mem_follow step_confirming
      (parts_submitted_under_their_alphabet plainConfig script _)
  exact ⟨⟨_, hucs2, hok _ _ hucs2⟩, ⟨_, hgsm7, hok _ _ hgsm7⟩⟩

/-- After a UCS2 message the modem refuses to go back to IRA, and the next
message is GSM-7. -/
def refusedRestore : List Answer :=
  connects ++ [.took (.sendSms "+15551234567" "я")] ++
    answered ["OK"] ++ answered ["OK"] ++ answered ["OK"] ++
    [.quiet, { prompt := .prompt [] }] ++ answered ["+CMGS: 7", "OK"] ++
    answered ["ERROR"] ++ answered ["OK"] ++
    [.quiet, .took (.sendSms "+15551234567" "hello")] ++ answered ["OK"] ++ [.quiet]

theorem part_submitted_under_other_alphabet :
    ¬ ∀ (cfg : Config) (script : List Answer) (s : Alphabet),
      alphabet.Safe s (runModemManager cfg script).trace := by
  intro h
  have hmem : ((⟨⟨"UCS2", false⟩, ⟨"0", true⟩⟩, .wrote (.header "+15551234567" .gsm7) .ok) :
      Alphabet × Event) ∈ Monitor.follow obeying ⟨⟨"IRA", false⟩, ⟨"0", false⟩⟩
        (runModemManager plainConfig refusedRestore).trace := by decide +kernel
  have hfits := alphabet.ok_of_mem_follow step_obeying (h _ _ _) hmem
  exact absurd (hfits .charset) (by decide)

end Modem
end GreenRelay
