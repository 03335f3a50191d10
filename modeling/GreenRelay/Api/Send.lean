/-
The send endpoints up to the point where a message is on its way.

`prepare_send` looks at the request, then at the modem, and inserts the row of a
message that passes.  A refusal leaves the service as it was.  What a request
that is accepted does to the service are two steps of the delivery machine
(`Outbound`): the insertion, and the dispatch that is spawned for the row.

The part count that is stored with the row comes from a segmentation of its own.
The modem session cuts the same body again when it sends it.
-/
import GreenRelay.Modem.Delivery
import GreenRelay.Outbound.Model
import GreenRelay.Sms.Parts
import GreenRelay.Storage.Migrations

namespace GreenRelay
namespace Api

open Sms Unicode
open Modem (deliverable handleSend SendLog)
open Outbound (SendResponse)
open Storage (DbError)

/-! ## Decisions -/

structure SendRequest where
  toNumber : Option String
  body : Option String
  deriving DecidableEq, Repr

inductive SendDecision where
  | accepted (resp : SendResponse)
  | invalid (err : ValidationError)
  | tooManyParts (required : Nat)
  | gated (retryAfterSecs : Nat)
  | notReady (retryAfterSecs : Nat)
  | serverError
  deriving DecidableEq, Repr

structure ApiError where
  error : String
  fields : List String
  deriving DecidableEq, Repr

inductive SendAnswer where
  | accepted (resp : SendResponse)
  | refused (status : Nat) (retryAfter : Option Nat) (body : ApiError)
  deriving DecidableEq, Repr

def validationResponse : ValidationError → Nat × ApiError
  | .missingFields fields => (400, ⟨"missing required fields", fields⟩)
  | .invalidPhoneNumber => (400, ⟨"phone number is not a valid E.164 number", ["to"]⟩)
  | .bodyEmpty => (400, ⟨"message body must not be empty", ["body"]⟩)
  | .bodyTooLong => (400, ⟨"message body exceeds the maximum allowed length", ["body"]⟩)

def SendDecision.intoResponse : SendDecision → SendAnswer
  | .accepted resp => .accepted resp
  | .invalid err =>
    let (status, body) := validationResponse err
    .refused status none body
  | .tooManyParts required => .refused 400 none
    ⟨"message requires " ++ toString required ++ " parts which exceeds the maximum allowed",
      ["body"]⟩
  | .gated retryAfterSecs => .refused 503 (some retryAfterSecs)
    ⟨"the modem cannot deliver messages right now; retry later", []⟩
  | .notReady retryAfterSecs => .refused 503 (some retryAfterSecs)
    ⟨"the service is not ready to accept messages", []⟩
  | .serverError => .refused 500 none ⟨"internal server error", []⟩

/-! ## Requests -/

inductive DeliverabilityOutcome where
  | deliverable
  | rejected (retryAfterSecs : Nat)
  deriving DecidableEq, Repr

def deliverabilityGate (s : ModemStatusSnapshot) (retryAfterSecs : Nat) : DeliverabilityOutcome :=
  if !s.serialConnected || !s.simStatus.isReady || !s.registered then .rejected retryAfterSecs
  else .deliverable

/-- What a request meets with: the status of the modem, the configured pause,
whether the schema is ready, and how the `INSERT` ends, which stamps the row with
the time. -/
structure Moment where
  snapshot : ModemStatusSnapshot
  retryAfterSecs : Nat
  schemaReady : Bool
  insert : Except String Nat
  deriving DecidableEq, Repr

def isNotReady : DbError → Bool
  | .notReady => true
  | _ => false

structure PreparedSend where
  id : Nat
  toNumber : String
  body : String
  parts : Nat
  deriving DecidableEq, Repr

/-- `u8::try_from(segments.len())` of the segments of a body. -/
def countParts (body : String) : Except SendDecision Nat :=
  match segmentMessage body with
  | .ok segments =>
    if segments.length < 256 then .ok segments.length else .error (.tooManyParts segments.length)
  | .error (.tooManyParts required) => .error (.tooManyParts required)

/-- The checks of `prepare_send` that come before the insertion. -/
def checkRequest (m : Moment) (request : SendRequest) :
    Except SendDecision (String × String × Nat) := do
  match request.toNumber, request.body with
  | some toNumber, some body => do
    (validateE164 toNumber).mapError .invalid
    (validateBody body).mapError .invalid
    let parts ← countParts body
    match deliverabilityGate m.snapshot m.retryAfterSecs with
    | .rejected retryAfterSecs => throw (.gated retryAfterSecs)
    | .deliverable => return (toNumber, body, parts)
  | toNumber, body =>
    match checkRequiredFields toNumber body with
    | .error err => throw (.invalid err)
    | .ok () => throw (.invalid (.missingFields []))

/-- The service after the call, and the id of the new row. -/
def createOutboundMessage (m : Moment) (s : Outbound.State) (toNumber body : String)
    (partCount : Nat) (sync : Bool) : Outbound.State × Except DbError Nat :=
  if !m.schemaReady then (s, .error .notReady)
  else
    match m.insert with
    | .ok createdAt => (s.prepareSend createdAt toNumber body partCount sync, .ok (s.table.seq + 1))
    | .error source => (s, .error (.sqlx source))

/-- The counter at the end of `prepare_send` is left to the step that spawns the
dispatch. -/
def prepareSend (m : Moment) (request : SendRequest) (sync : Bool) (s : Outbound.State) :
    Outbound.State × Except SendDecision PreparedSend :=
  match checkRequest m request with
  | .error decision => (s, .error decision)
  | .ok (toNumber, body, parts) =>
    match createOutboundMessage m s toNumber body parts sync with
    | (s, .ok id) => (s, .ok ⟨id, toNumber, body, parts⟩)
    | (s, .error err) =>
      (s, .error (if isNotReady err then .notReady m.retryAfterSecs else .serverError))

def PreparedSend.dispatch (p : PreparedSend) (sync : Bool) : Outbound.Dispatch :=
  ⟨⟨p.toNumber, p.body, .persisted⟩, p.parts, sync, .absent⟩

def queueSend (m : Moment) (request : SendRequest) (s : Outbound.State) :
    Outbound.State × SendDecision :=
  match prepareSend m request false s with
  | (s, .error decision) => (s, decision)
  | (s, .ok p) => (s.queueSend p.id (p.dispatch false), .accepted ⟨p.id, .queued, p.parts⟩)

/-- `sync_send` until it waits for the outcome of what it has prepared. -/
def syncSend (m : Moment) (request : SendRequest) (s : Outbound.State) :
    Outbound.State × Except SendDecision PreparedSend :=
  match prepareSend m request true s with
  | (s, .error decision) => (s, .error decision)
  | (s, .ok p) => (s.syncSend p.id, .ok p)

/-! ## What the checks look at -/

def E164 (s : String) : Prop :=
  ∃ digits, s.toList = '+' :: digits ∧ 7 ≤ digits.length ∧ digits.length ≤ 15 ∧
    ∀ c ∈ digits, '0' ≤ c ∧ c ≤ '9'

theorem digit_iff (c : Char) : '0' ≤ c ∧ c ≤ '9' ↔ 48 ≤ c.toNat ∧ c.toNat ≤ 57 := Iff.rfl

/-- A character is ASCII when one of its bytes is, and then it is that byte. -/
theorem utf8EncodeChar_eq_cons {c : Char} {rest bytes : List UInt8} {b : UInt8}
    (hb : b.toNat < 128) (h : String.utf8EncodeChar c ++ rest = b :: bytes) :
    c.toNat = b.toNat ∧ rest = bytes := by
  have hmem : b ∈ String.utf8EncodeChar c := by
    cases hc : String.utf8EncodeChar c with
    | nil => exact absurd hc String.utf8EncodeChar_ne_nil
    | cons b' bs =>
        rw [hc, List.cons_append, List.cons.injEq] at h
        rw [h.1]
        exact List.mem_cons_self
  have hlow : c.toNat < 128 := by
    apply Nat.lt_of_not_le
    intro hge
    have := utf8EncodeChar_high hge b hmem
    omega
  rw [utf8EncodeChar_ascii hlow, List.singleton_append, List.cons.injEq] at h
  rw [← h.1]
  exact ⟨by simp; omega, h.2⟩

theorem utf8_digits {s : List Char} :
    (∀ b ∈ utf8 s, 48 ≤ b.toNat ∧ b.toNat ≤ 57) ↔ ∀ c ∈ s, '0' ≤ c ∧ c ≤ '9' := by
  constructor
  · intro h c hc
    obtain ⟨b, hb⟩ : ∃ b, b ∈ String.utf8EncodeChar c :=
      List.exists_mem_of_ne_nil _ String.utf8EncodeChar_ne_nil
    have hdigit := h b (List.mem_flatMap.mpr ⟨c, hc, hb⟩)
    have hlow : c.toNat < 128 := by
      apply Nat.lt_of_not_le
      intro hge
      have := utf8EncodeChar_high hge b hb
      omega
    rw [utf8EncodeChar_ascii hlow, List.mem_singleton] at hb
    have hvalue : b.toNat = c.toNat := by
      rw [hb]
      simp
      omega
    rw [digit_iff]
    omega
  · intro h b hb
    obtain ⟨c, hc, hbc⟩ := List.mem_flatMap.mp hb
    have hdigit := (digit_iff c).mp (h c hc)
    have hlow : c.toNat < 128 := by omega
    rw [utf8EncodeChar_ascii hlow, List.mem_singleton] at hbc
    rw [hbc]
    simp
    omega

theorem utf8_length_digits {s : List Char} (h : ∀ c ∈ s, '0' ≤ c ∧ c ≤ '9') :
    (utf8 s).length = s.length := by
  rw [utf8_length, utf8Length_ascii]
  intro c hc
  have := (digit_iff c).mp (h c hc)
  omega

theorem validateE164_cases (s : String) :
    validateE164 s = .ok () ∨ validateE164 s = .error .invalidPhoneNumber := by
  unfold validateE164
  split
  · split
    · split
      · exact Or.inl rfl
      · exact Or.inr rfl
    · exact Or.inr rfl
  · exact Or.inr rfl

/-- The bytes are checked, and what passes is a number as characters. -/
theorem validateE164_ok {s : String} : validateE164 s = .ok () ↔ E164 s := by
  have hbyte (b : UInt8) : (decide (48 ≤ b) && decide (b ≤ 57)) = true ↔
      48 ≤ b.toNat ∧ b.toNat ≤ 57 := by
    rw [Bool.and_eq_true, decide_eq_true_iff, decide_eq_true_iff, UInt8.le_iff_toNat_le,
      UInt8.le_iff_toNat_le]
    rfl
  constructor
  · intro h
    unfold validateE164 at h
    split at h
    · next digits hutf8 =>
      cases hs : s.toList with
      | nil =>
          rw [hs] at hutf8
          cases hutf8
      | cons c cs =>
          rw [hs, utf8_cons] at hutf8
          obtain ⟨hplus, hdigits⟩ := utf8EncodeChar_eq_cons (by decide) hutf8
          have hc : c = '+' := Char.toNat_inj.mp hplus
          split at h
          · next hlength =>
            split at h
            · next hall =>
              have hchars : ∀ c ∈ cs, '0' ≤ c ∧ c ≤ '9' := by
                rw [← utf8_digits, hdigits]
                exact fun b hb => (hbyte b).mp (List.all_eq_true.mp hall b hb)
              rw [← hdigits, utf8_length_digits hchars] at hlength
              exact ⟨cs, by rw [hs, hc], hlength.1, hlength.2, hchars⟩
            · cases h
          · cases h
    · cases h
  · rintro ⟨digits, hs, hmin, hmax, hchars⟩
    have hutf8 : utf8 s.toList = 43 :: utf8 digits := by
      rw [hs, utf8_cons]
      rfl
    have hall : (utf8 digits).all (fun b => 48 ≤ b && b ≤ 57) = true :=
      List.all_eq_true.mpr (fun b hb => (hbyte b).mpr (utf8_digits.mpr hchars b hb))
    have hlength : e164MinDigits ≤ (utf8 digits).length ∧ (utf8 digits).length ≤ e164MaxDigits := by
      rw [utf8_length_digits hchars]
      exact ⟨hmin, hmax⟩
    unfold validateE164
    rw [hutf8]
    show (if e164MinDigits ≤ (utf8 digits).length ∧ (utf8 digits).length ≤ e164MaxDigits then
      if (utf8 digits).all (fun b => 48 ≤ b && b ≤ 57) = true then Except.ok ()
      else Except.error ValidationError.invalidPhoneNumber else _) = _
    rw [if_pos hlength, if_pos hall]

/-! ## What is wrong with a request -/

/-- What a request can be refused for, in the order in which it is looked at. -/
inductive Fault where
  | missingFields
  | phoneNumber
  | bodyLength
  | partCount
  | deliverability
  | readiness
  deriving DecidableEq, Repr

def Fault.rank : Fault → Nat
  | .missingFields => 0
  | .phoneNumber => 1
  | .bodyLength => 2
  | .partCount => 3
  | .deliverability => 4
  | .readiness => 5

/-- The fault is there, whatever others there are. -/
def Fault.Applies (m : Moment) (request : SendRequest) : Fault → Prop
  | .missingFields => request.toNumber = none ∨ request.body = none
  | .phoneNumber => ∃ toNumber, request.toNumber = some toNumber ∧ ¬ E164 toNumber
  | .bodyLength => ∃ body, request.body = some body ∧
      ¬ (1 ≤ body.toList.length ∧ body.toList.length ≤ 1530)
  | .partCount => ∃ body required, request.body = some body ∧
      segmentMessage body = .error (.tooManyParts required)
  | .deliverability => ¬ (m.snapshot.serialConnected ∧ m.snapshot.simStatus.isReady ∧
      m.snapshot.registered)
  | .readiness => m.schemaReady = false

theorem Fault.rank_inj {f g : Fault} (h : f.rank = g.rank) : f = g := by
  cases f <;> cases g <;> first | rfl | cases h

/-- None of the first `n` faults is there. -/
def Passes (m : Moment) (request : SendRequest) (n : Nat) : Prop :=
  ∀ f : Fault, f.rank < n → ¬ f.Applies m request

theorem passes_zero (m : Moment) (request : SendRequest) : Passes m request 0 :=
  fun _ hf => absurd hf (Nat.not_lt_zero _)

theorem Passes.next {m : Moment} {request : SendRequest} {f : Fault}
    (h : Passes m request f.rank) (hf : ¬ f.Applies m request) : Passes m request (f.rank + 1) := by
  intro g hg
  rcases Nat.lt_succ_iff_lt_or_eq.mp hg with hlt | heq
  · exact h g hlt
  · rw [Fault.rank_inj heq]
    exact hf

structure FirstFault (m : Moment) (request : SendRequest) (f : Fault) : Prop where
  applies : f.Applies m request
  first : Passes m request f.rank

/-- The fields that are not there, in their order. -/
def SendRequest.missing (request : SendRequest) : List String :=
  (if request.toNumber = none then ["to"] else []) ++ (if request.body = none then ["body"] else [])

/-- How a fault is reported. -/
inductive Reports (m : Moment) (request : SendRequest) : SendDecision → Fault → Prop where
  | missingFields : Reports m request (.invalid (.missingFields request.missing)) .missingFields
  | phoneNumber : Reports m request (.invalid .invalidPhoneNumber) .phoneNumber
  | bodyEmpty (h : request.body = some "") : Reports m request (.invalid .bodyEmpty) .bodyLength
  | bodyTooLong {body : String} (h : request.body = some body) (hlong : 1530 < body.toList.length) :
    Reports m request (.invalid .bodyTooLong) .bodyLength
  | partCount {body : String} {required : Nat} (h : request.body = some body)
    (hrequired : segmentMessage body = .error (.tooManyParts required)) :
    Reports m request (.tooManyParts required) .partCount
  | deliverability : Reports m request (.gated m.retryAfterSecs) .deliverability
  | readiness : Reports m request (.notReady m.retryAfterSecs) .readiness

/-- The fields that the report of a fault names. -/
def Fault.fields (request : SendRequest) : Fault → List String
  | .missingFields => request.missing
  | .phoneNumber => ["to"]
  | .bodyLength => ["body"]
  | .partCount => ["body"]
  | .deliverability => []
  | .readiness => []

/-- A client is told the fields that are wrong, and to come back when it is not the
request. -/
theorem Reports.response {m : Moment} {request : SendRequest} {decision : SendDecision} {f : Fault}
    (h : Reports m request decision f) : ∃ error, decision.intoResponse =
      if f = .deliverability ∨ f = .readiness then
        .refused 503 (some m.retryAfterSecs) ⟨error, f.fields request⟩
      else .refused 400 none ⟨error, f.fields request⟩ := by
  cases h <;> exact ⟨_, rfl⟩

/-! ## The checks -/

theorem validateBody_cases (body : String) :
    (validateBody body = .ok () ∧ 1 ≤ body.toList.length ∧ body.toList.length ≤ 1530) ∨
    (validateBody body = .error .bodyEmpty ∧ body = "") ∨
    (validateBody body = .error .bodyTooLong ∧ 1530 < body.toList.length) := by
  have hmax : maxBodyChars = 1530 := rfl
  unfold validateBody
  by_cases hempty : body.toList.length = 0
  · exact Or.inr (Or.inl ⟨if_pos hempty,
      String.toList_eq_nil_iff.mp (List.length_eq_zero_iff.mp hempty)⟩)
  · by_cases hlong : maxBodyChars < body.toList.length
    · exact Or.inr (Or.inr ⟨by simp only [hempty, hlong, if_true, if_false], by omega⟩)
    · exact Or.inl ⟨by simp only [hempty, hlong, if_false], by omega, by omega⟩

theorem countParts_cases (body : String) :
    (∃ segments, segmentMessage body = .ok segments ∧ countParts body = .ok segments.length) ∨
    ∃ required, segmentMessage body = .error (.tooManyParts required) ∧
      countParts body = .error (.tooManyParts required) := by
  unfold countParts
  cases hseg : segmentMessage body with
  | ok segments =>
      have hcount := segmentMessage_count hseg
      exact Or.inl ⟨segments, rfl, if_pos (by omega)⟩
  | error e =>
      cases e with
      | tooManyParts required => exact Or.inr ⟨required, rfl, rfl⟩

theorem deliverabilityGate_cases (s : ModemStatusSnapshot) (retryAfterSecs : Nat) :
    (deliverabilityGate s retryAfterSecs = .deliverable ∧
      s.serialConnected ∧ s.simStatus.isReady ∧ s.registered) ∨
    (deliverabilityGate s retryAfterSecs = .rejected retryAfterSecs ∧
      ¬ (s.serialConnected ∧ s.simStatus.isReady ∧ s.registered)) := by
  unfold deliverabilityGate
  cases s.serialConnected <;> cases s.simStatus.isReady <;> cases s.registered <;> simp

/-- A request that does not say everything. -/
theorem checkRequest_missing {m : Moment} {request : SendRequest}
    (h : request.toNumber = none ∨ request.body = none) :
    checkRequest m request = .error (.invalid (.missingFields request.missing)) := by
  obtain ⟨toNumber, body⟩ := request
  cases toNumber with
  | none => cases body <;> rfl
  | some toNumber =>
      cases body with
      | none => rfl
      | some body => simp at h

/-- A request that passed the checks before the insertion. -/
structure Admitted (m : Moment) (request : SendRequest) (toNumber body : String)
    (segments : List Segment) : Prop where
  request : request = ⟨some toNumber, some body⟩
  phone : E164 toNumber
  length : 1 ≤ body.toList.length ∧ body.toList.length ≤ 1530
  segments : segmentMessage body = .ok segments
  modem : m.snapshot.serialConnected ∧ m.snapshot.simStatus.isReady ∧ m.snapshot.registered

/-- The checks stop at the first fault, and what passes has none of them. -/
theorem checkRequest_end (m : Moment) (request : SendRequest) :
    (∃ decision f, checkRequest m request = .error decision ∧ FirstFault m request f ∧
      Reports m request decision f) ∨
    ∃ toNumber body segments, checkRequest m request = .ok (toNumber, body, segments.length) ∧
      Admitted m request toNumber body segments ∧ Passes m request Fault.readiness.rank := by
  have hstart := passes_zero m request
  by_cases hmissing : Fault.missingFields.Applies m request
  · exact Or.inl ⟨_, .missingFields, checkRequest_missing hmissing,
      ⟨hmissing, hstart⟩, .missingFields⟩
  obtain ⟨toNumber, body, rfl⟩ : ∃ toNumber body, request = ⟨some toNumber, some body⟩ := by
    obtain ⟨_ | toNumber, _ | body⟩ := request
    · exact absurd (Or.inl rfl) hmissing
    · exact absurd (Or.inl rfl) hmissing
    · exact absurd (Or.inr rfl) hmissing
    · exact ⟨toNumber, body, rfl⟩
  have hfields := Passes.next (f := .missingFields) hstart hmissing
  rcases validateE164_cases toNumber with hphone | hphone
  case inr =>
    have hbad : ¬ E164 toNumber := by
      rw [← validateE164_ok, hphone]
      exact fun h => by cases h
    refine Or.inl ⟨.invalid .invalidPhoneNumber, .phoneNumber, ?_, ⟨⟨toNumber, rfl, hbad⟩, hfields⟩,
      .phoneNumber⟩
    simp only [checkRequest, hphone]
    rfl
  have hnumber := Passes.next (f := .phoneNumber) hfields (by
    rintro ⟨number, hnumber, hbad⟩
    cases hnumber
    exact hbad (validateE164_ok.mp hphone))
  rcases validateBody_cases body with ⟨hbody, hlength⟩ | ⟨hbody, rfl⟩ | ⟨hbody, hlong⟩
  case inr.inl =>
    refine Or.inl ⟨.invalid .bodyEmpty, .bodyLength, ?_, ⟨⟨"", rfl, by decide⟩, hnumber⟩,
      .bodyEmpty rfl⟩
    simp only [checkRequest, hphone, hbody]
    rfl
  case inr.inr =>
    refine Or.inl ⟨.invalid .bodyTooLong, .bodyLength, ?_, ⟨⟨body, rfl, by omega⟩, hnumber⟩,
      .bodyTooLong rfl hlong⟩
    simp only [checkRequest, hphone, hbody]
    rfl
  have hsize := Passes.next (f := .bodyLength) hnumber (by
    rintro ⟨text, htext, hbad⟩
    cases htext
    exact hbad hlength)
  rcases countParts_cases body with ⟨segments, hsegments, hparts⟩ | ⟨required, hsegments, hparts⟩
  case inr =>
    refine Or.inl ⟨.tooManyParts required, .partCount, ?_,
      ⟨⟨body, required, rfl, hsegments⟩, hsize⟩, .partCount rfl hsegments⟩
    simp only [checkRequest, hphone, hbody, hparts]
    rfl
  have hfit := Passes.next (f := .partCount) hsize (by
    rintro ⟨text, required, htext, hbad⟩
    cases htext
    rw [hsegments] at hbad
    cases hbad)
  rcases deliverabilityGate_cases m.snapshot m.retryAfterSecs with ⟨hgate, hmodem⟩ | ⟨hgate, hmodem⟩
  · refine Or.inr ⟨toNumber, body, segments, ?_, ⟨rfl, validateE164_ok.mp hphone, hlength,
      hsegments, hmodem⟩, Passes.next (f := .deliverability) hfit (fun hbad => hbad hmodem)⟩
    simp only [checkRequest, hphone, hbody, hparts, hgate]
    rfl
  · refine Or.inl ⟨.gated m.retryAfterSecs, .deliverability, ?_, ⟨hmodem, hfit⟩, .deliverability⟩
    simp only [checkRequest, hphone, hbody, hparts, hgate]
    rfl

/-! ## Whole or not at all -/

/-- The decision reports the first fault, or the failure of the statement when
there is none. -/
structure Refused (m : Moment) (request : SendRequest) (decision : SendDecision) : Prop where
  refusal : ∀ resp, decision ≠ .accepted resp
  reason : (∃ f, FirstFault m request f ∧ Reports m request decision f) ∨
    (decision = .serverError ∧ (∀ f : Fault, ¬ f.Applies m request) ∧
      ∃ source, m.insert = .error source)

/-- Whenever the modem session sends the message, it works through as many parts. -/
def PreparedSend.SentInParts (p : PreparedSend) : Prop :=
  ∃ segments, segmentMessage p.body = .ok segments ∧ segments.length = p.parts ∧
    ∀ (cfg : Modem.Config) (status : ModemStatusSnapshot), deliverable status → ∀ script,
      ∃ parts tail, SendLog cfg p.toNumber (messageEncoding p.body) none segments
          (handleSend cfg status p.toNumber p.body script) parts tail ∧
        parts.length ≤ p.parts ∧
        ∀ result, (handleSend cfg status p.toNumber p.body script).outcome = .done result →
          result.status = .sent → parts.length = p.parts

/-- What a request that is accepted does to the service. -/
structure Accepted (m : Moment) (request : SendRequest) (sync : Bool) (s s' : Outbound.State)
    (p : PreparedSend) : Prop where
  faultless : ∀ f : Fault, ¬ f.Applies m request
  request : request = ⟨some p.toNumber, some p.body⟩
  phone : E164 p.toNumber
  length : 1 ≤ p.body.toList.length ∧ p.body.toList.length ≤ 1530
  parts : 1 ≤ p.parts ∧ p.parts ≤ 10
  sentInParts : p.SentInParts
  /-- One row, inserted and dispatched by two steps of the delivery machine, in which
  others may come between. -/
  inserted : ∃ createdAt, m.insert = .ok createdAt ∧
    s'.table.rows = s.table.rows ++
      [⟨p.id, p.toNumber, p.body, .queued, p.parts, none, none, createdAt, createdAt⟩] ∧
    Outbound.service.exec s
      [.prepareSend createdAt p.toNumber p.body p.parts sync, .spawnDispatch p.id] = some s'
  fresh : ∀ r ∈ s.table.rows, r.id ≠ p.id
  counted : s'.metrics = { s.metrics with messagesAccepted := s.metrics.messagesAccepted + 1 }
  dispatched : s'.tasks.dispatches = fun id => if id = p.id then
    some ⟨⟨p.toNumber, p.body, .submitting⟩, p.parts, sync, if sync then .waiting else .absent⟩
    else s.tasks.dispatches id
  reaper : s'.tasks.reaper = s.tasks.reaper
  manager : s'.manager = s.manager

theorem Refused.of_reports {m : Moment} {request : SendRequest} {decision : SendDecision}
    {f : Fault}
    (hfirst : FirstFault m request f) (hreports : Reports m request decision f) :
    Refused m request decision where
  refusal := by
    rintro resp rfl
    cases hreports
  reason := Or.inl ⟨f, hfirst, hreports⟩

theorem prepareSend_end (m : Moment) (request : SendRequest) (sync : Bool) (s : Outbound.State) :
    (∃ decision, prepareSend m request sync s = (s, .error decision) ∧ Refused m request decision) ∨
    ∃ createdAt p segments, m.insert = .ok createdAt ∧ p.id = s.table.seq + 1 ∧
      p.parts = segments.length ∧ Admitted m request p.toNumber p.body segments ∧
      (∀ f : Fault, ¬ f.Applies m request) ∧
      prepareSend m request sync s
        = (s.prepareSend createdAt p.toNumber p.body p.parts sync, .ok p) := by
  rcases checkRequest_end m request with
    ⟨decision, f, hcheck, hfirst, hreports⟩ | ⟨toNumber, body, segments, hcheck, hadmitted, hpasses⟩
  · refine Or.inl ⟨decision, ?_, .of_reports hfirst hreports⟩
    rw [prepareSend, hcheck]
  cases hready : m.schemaReady with
  | false =>
      have hfirst : FirstFault m request .readiness := ⟨hready, hpasses⟩
      refine Or.inl ⟨.notReady m.retryAfterSecs, ?_, .of_reports hfirst .readiness⟩
      simp only [prepareSend, hcheck, createOutboundMessage, hready]
      rfl
  | true =>
      have hfaultless : ∀ f : Fault, ¬ f.Applies m request := by
        have hready' : ¬ Fault.readiness.Applies m request := by
          rw [Fault.Applies, hready]
          exact Bool.true_eq_false.mp
        intro f
        apply (hpasses.next hready') f
        cases f <;> decide
      cases hinsert : m.insert with
      | error source =>
          have hrefused : Refused m request .serverError :=
            ⟨fun resp h => SendDecision.noConfusion h, Or.inr ⟨rfl, hfaultless, source, hinsert⟩⟩
          refine Or.inl ⟨.serverError, ?_, hrefused⟩
          simp only [prepareSend, hcheck, createOutboundMessage, hready, hinsert]
          rfl
      | ok createdAt =>
          refine Or.inr ⟨createdAt, ⟨s.table.seq + 1, toNumber, body, segments.length⟩, segments,
            rfl, rfl, rfl, hadmitted, hfaultless, ?_⟩
          simp only [prepareSend, hcheck, createOutboundMessage, hready, hinsert]
          rfl

theorem Admitted.sentInParts {m : Moment} {request : SendRequest} {p : PreparedSend}
    {segments : List Segment} (h : Admitted m request p.toNumber p.body segments)
    (hparts : p.parts = segments.length) : p.SentInParts := by
  refine ⟨segments, h.segments, hparts.symm, ?_⟩
  intro cfg status hready script
  rw [Modem.handleSend_eq cfg hready h.segments]
  have hexists : ∃ parts tail, Modem.SendLog cfg p.toNumber (messageEncoding p.body) none segments
      (Modem.sendEncoded cfg p.toNumber segments (messageEncoding p.body) script) parts tail :=
    Modem.sendEncoded_log segments (messageEncoding p.body) script
  obtain ⟨parts, tail, hlog⟩ := hexists
  have hlength := hlog.inOrder.length_le
  rw [List.length_map, ← hparts] at hlength
  refine ⟨parts, tail, hlog, hlength, ?_⟩
  intro result hresult hsent
  have hall := ((hlog.ending result hresult).2.sent.mp hsent).1
  rw [hparts, ← hall, List.length_map]

/-- The step that ends the handler of a row that was inserted. -/
def finish (sync : Bool) (p : PreparedSend) (s : Outbound.State) : Outbound.State :=
  if sync then s.syncSend p.id else s.queueSend p.id (p.dispatch false)

section

variable {s : Outbound.State} {p : PreparedSend} {createdAt : Nat} (sync : Bool)

theorem finish_exec (hid : p.id = s.table.seq + 1) :
    Outbound.service.exec s
      [.prepareSend createdAt p.toNumber p.body p.parts sync, .spawnDispatch p.id]
      = some (finish sync p (s.prepareSend createdAt p.toNumber p.body p.parts sync)) := by
  have hdispatch : (s.prepareSend createdAt p.toNumber p.body p.parts sync).tasks.dispatches p.id
      = some (p.dispatch sync) := by
    rw [hid]
    exact if_pos rfl
  show (Outbound.step _ (.spawnDispatch p.id)).bind some = _
  cases sync <;> simp [Outbound.step, hdispatch, PreparedSend.dispatch, finish]

theorem finish_dispatches (hid : p.id = s.table.seq + 1) :
    (finish sync p (s.prepareSend createdAt p.toNumber p.body p.parts sync)).tasks.dispatches
      = fun id => if id = p.id then
          some ⟨⟨p.toNumber, p.body, .submitting⟩, p.parts, sync,
            if sync then .waiting else .absent⟩
        else s.tasks.dispatches id := by
  funext id
  by_cases h : id = p.id
  · cases sync <;> simp [finish, Outbound.State.syncSend, Outbound.State.queueSend,
      Outbound.State.prepareSend, Outbound.Tasks.move, Outbound.Tasks.setDispatch,
      Outbound.Tasks.setWaiter, Outbound.Tasks.spawn, Outbound.Delivery.enter, h, hid]
  · have hseq : id ≠ s.table.seq + 1 := hid ▸ h
    cases sync <;> simp [finish, Outbound.State.syncSend, Outbound.State.queueSend,
      Outbound.State.prepareSend, Outbound.Tasks.move, Outbound.Tasks.setDispatch,
      Outbound.Tasks.setWaiter, Outbound.Tasks.spawn, h, hseq]

theorem Admitted.accepted {m : Moment} {request : SendRequest} {segments : List Segment}
    (h : Admitted m request p.toNumber p.body segments) (hparts : p.parts = segments.length)
    (hid : p.id = s.table.seq + 1) (hinsert : m.insert = .ok createdAt)
    (hfaultless : ∀ f : Fault, ¬ f.Applies m request) :
    Accepted m request sync s
      (finish sync p (s.prepareSend createdAt p.toNumber p.body p.parts sync)) p where
  faultless := hfaultless
  request := h.request
  phone := h.phone
  length := h.length
  parts := hparts ▸ segmentMessage_count h.segments
  sentInParts := h.sentInParts hparts
  inserted := by
    refine ⟨createdAt, hinsert, ?_, finish_exec sync hid⟩
    rw [hid]
    cases sync <;> rfl
  fresh := by
    intro r hr
    have := s.table.bounded r hr
    omega
  counted := by cases sync <;> rfl
  dispatched := finish_dispatches sync hid
  reaper := by cases sync <;> rfl
  manager := by cases sync <;> rfl

end

/-- A send request is accepted whole or not at all, at both endpoints. -/
theorem send_whole_or_nothing (m : Moment) (request : SendRequest) (s : Outbound.State) :
    ((∃ decision, queueSend m request s = (s, decision) ∧ Refused m request decision) ∨
      ∃ p s', queueSend m request s = (s', .accepted ⟨p.id, .queued, p.parts⟩) ∧
        Accepted m request false s s' p) ∧
    ((∃ decision, syncSend m request s = (s, .error decision) ∧ Refused m request decision) ∨
      ∃ p s', syncSend m request s = (s', .ok p) ∧ Accepted m request true s s' p) := by
  constructor
  · rcases prepareSend_end m request false s with
      ⟨decision, hprepare, hrefused⟩ |
      ⟨createdAt, p, segments, hinsert, hid, hparts, hadmitted, hfaultless, hprepare⟩
    · refine Or.inl ⟨decision, ?_, hrefused⟩
      rw [queueSend, hprepare]
    · refine Or.inr ⟨p, _, ?_, hadmitted.accepted false hparts hid hinsert hfaultless⟩
      rw [queueSend, hprepare]
      rfl
  · rcases prepareSend_end m request true s with
      ⟨decision, hprepare, hrefused⟩ |
      ⟨createdAt, p, segments, hinsert, hid, hparts, hadmitted, hfaultless, hprepare⟩
    · refine Or.inl ⟨decision, ?_, hrefused⟩
      rw [syncSend, hprepare]
    · refine Or.inr ⟨p, _, ?_, hadmitted.accepted true hparts hid hinsert hfaultless⟩
      rw [syncSend, hprepare]
      rfl

end Api
end GreenRelay
