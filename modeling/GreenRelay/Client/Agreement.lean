/-
What the service answers is what the caller of the client gets.

An answer with a value becomes that value in the terms of the client, with its
times to the microsecond; a refusal becomes an `APIError` with the status, the
message, the fields and the pause of the refusal; and no other exception is
raised, but for a time that the Python at hand cannot read.  The methods differ
in what they allow and in how they read the body, so each is an instance of one
statement about a method and an outcome (`method_http`).
-/
import GreenRelay.Client.Methods

namespace GreenRelay
namespace Client

open Api Events Isoformat Text
open Gateway (GateAnswer Stage)
open Outbound (SendResponse SyncSendResponse Response)
open Storage (Chrono DbError InboundMessage OutboundMessage OutboundRow outboundFromRow
  parseTs_printed)
open Rfc3339 (Instant utcOffset)

/-! ## Numbers in headers -/

theorem isSpace_digit {c : Char} (h : c.isDigit = true) : isSpace c = false := by
  have hdigit : 48 ≤ c.toNat ∧ c.toNat ≤ 57 := by
    simpa [Char.isDigit, UInt32.le_iff_toNat_le] using h
  rw [isSpace, isWhite_digit h, Bool.false_or, Bool.and_eq_false_iff]
  right
  rw [decide_eq_false_iff_not]
  omega

theorem strip_plain {s : List Char} (h : ∀ c ∈ s, isSpace c = false) : strip s = s := by
  have hdrop : ∀ l : List Char, (∀ c ∈ l, isSpace c = false) → l.dropWhile isSpace = l := by
    intro l hl
    cases l with
    | nil => rfl
    | cons c l => rw [List.dropWhile_cons, hl c List.mem_cons_self]; rfl
  rw [strip, hdrop s h, hdrop s.reverse (fun c hc => h c (List.mem_reverse.mp hc)),
    List.reverse_reverse]

theorem groupedDigits_digits {ds : List Char} (hne : ds ≠ []) (h : ∀ c ∈ ds, c.isDigit = true) :
    groupedDigits ds = some (digitsValue ds) := by
  have hscore : '_' ∉ ds := fun hc => absurd (h '_' hc) (by decide)
  have hsplit : ds.splitOn '_' = [ds] := by
    have hjoined : (['_'].intercalate [ds]).splitOn '_' = [ds] :=
      List.splitOn_intercalate '_' (fun l hl => List.mem_singleton.mp hl ▸ hscore)
        (List.cons_ne_nil _ _)
    rwa [List.intercalate_singleton] at hjoined
  have hfilter : ds.filter (· ≠ '_') = ds := by
    rw [List.filter_eq_self]
    intro c hc
    rw [decide_eq_true_eq]
    rintro rfl
    exact hscore hc
  rw [groupedDigits, hsplit, hfilter, if_pos]
  rw [List.all_cons, List.all_nil, Bool.and_true, Bool.and_eq_true, List.all_eq_true]
  exact ⟨by simpa using hne, h⟩

theorem intOf_toDigits (n : Nat) : intOf (Nat.toDigits 10 n) = some (n : Int) := by
  have hdigits : ∀ c ∈ Nat.toDigits 10 n, c.isDigit = true := fun c hc => isDigit_toDigits hc
  have hvalue : digitsValue (Nat.toDigits 10 n) = n := Nat.ofDigitChars_ten_toDigits
  rw [intOf, strip_plain (fun c hc => isSpace_digit (hdigits c hc))]
  split
  · next ds heq => exact absurd (hdigits '-' (heq ▸ List.mem_cons_self)) (by decide)
  · next ds heq => exact absurd (hdigits '+' (heq ▸ List.mem_cons_self)) (by decide)
  · rw [groupedDigits_digits Nat.toDigits_ne_nil hdigits, hvalue]
    rfl

/-! ## Errors -/

/-- What an error says: its message, and the fields that it names. -/
def detail (error : String) (fields : List String) : String :=
  if fields = [] then error
  else error ++ " (fields: " ++ String.ofList (join [',', ' '] (fields.map String.toList)) ++ ")"

def apiError (statusCode : Nat) (error : String) (fields : List String) (retryAfter : Option Nat) :
    APIError :=
  ⟨statusCode, .str error, .arr (fields.map .str), retryAfter.map Int.ofNat,
    "[" ++ toString statusCode ++ "] " ++ detail error fields⟩

theorem mapM_textOf (texts : List String) :
    (texts.map Json.str).mapM textOf = .ok (texts.map String.toList) := by
  induction texts with
  | nil => rfl
  | cons text texts ih =>
    rw [List.map_cons, List.mapM_cons, ih]
    rfl

theorem init_apiError (rt : Runtime) (statusCode : Nat) (error : String) (fields : List String)
    (retryAfter : Option Nat) :
    APIError.init rt statusCode (.str error) (.arr (fields.map .str)) (retryAfter.map Int.ofNat)
      = .ok (apiError statusCode error fields retryAfter) := by
  cases fields with
  | nil => rfl
  | cons field fields =>
    have hnames : joinComma (.arr ((field :: fields).map .str))
        = .ok (join [',', ' '] ((field :: fields).map String.toList)) := by
      show ((field :: fields).map Json.str).mapM textOf >>= _ = _
      rw [mapM_textOf]
      rfl
    have htruthy : truthy (.arr ((field :: fields).map .str)) = true := rfl
    rw [APIError.init]
    simp only [htruthy, if_true, hnames]
    rfl

theorem map_intOf (retryAfter : Option Nat) :
    (retryAfter.map (Nat.toDigits 10)).bind intOf = retryAfter.map Int.ofNat := by
  cases retryAfter with
  | none => rfl
  | some n => exact intOf_toDigits n

def refusal (answer : GateAnswer) : APIError :=
  apiError answer.status answer.body.error answer.body.fields answer.retryAfter

def rejection (status : Nat) (text : List Char) : APIError :=
  apiError status (if (strip text).isEmpty then "HTTP " ++ toString status
    else String.ofList (strip text)) [] none

/-! ## A method and an outcome -/

/-- What the caller gets, where `told` says what it gets of a value. -/
def Outcome.told {α β : Type} (told : α → Except Raised β) : Outcome α → Except Raised β
  | .value a => told a
  | .refused answer => .error (.apiError (refusal answer))
  | .rejected status text => .error (.apiError (rejection status text))

/-- The body is read as the JSON that was written, and of a text Python says that it is
none. -/
def Outcome.Carried {α : Type} (rt : Runtime) (compact : Json → List Char)
    (success : α → Nat × Json) (o : Outcome α) : Prop :=
  rt.loads (o.http compact success).text =
    match o.body success with
    | some body => .ok body
    | none => .error .jsonDecodeError

/-- A value comes with a status that the method takes for one, and an error does
not. -/
def Outcome.Proper {α : Type} (allowStatus : List Nat) (success : α → Nat × Json) :
    Outcome α → Prop
  | .value a => (success a).1 < 400 ∨ (success a).1 ∈ allowStatus
  | .refused answer => 400 ≤ answer.status ∧ answer.status ∉ allowStatus
  | .rejected status _ => 400 ≤ status ∧ status ∉ allowStatus

section

variable {rt : Runtime} {allowStatus : List Nat} {β : Type} {decode : Nat → Json → Except Raised β}
  {r : HttpResponse}

theorem method_ok {data : Json} (hstatus : r.statusCode < 400 ∨ r.statusCode ∈ allowStatus)
    (hdata : rt.loads r.text = .ok data) :
    method rt allowStatus decode r = decode r.statusCode data := by
  have hrequest : request rt allowStatus r = .ok r := by
    rw [request, if_neg]
    · rfl
    · rintro ⟨hge, hnot⟩
      rcases hstatus with hlt | hmem
      · omega
      · exact hnot hmem
  rw [method, hrequest]
  show json rt r >>= _ = _
  rw [json, hdata]
  rfl

theorem method_error {e : APIError} (hstatus : 400 ≤ r.statusCode ∧ r.statusCode ∉ allowStatus)
    (herror : buildError rt r = .ok e) :
    method rt allowStatus decode r = .error (.apiError e) := by
  rw [method, request, if_pos hstatus, herror]
  rfl

theorem buildError_text (h : rt.loads r.text = .error .jsonDecodeError) :
    buildError rt r = APIError.init rt r.statusCode
      (if (strip r.text).isEmpty then .str ("HTTP " ++ toString r.statusCode)
        else .str (String.ofList (strip r.text))) (.arr []) (r.retryAfter.bind intOf) := by
  rw [buildError, h]
  rfl

theorem method_http {α : Type} {compact : Json → List Char} {success : α → Nat × Json}
    {told : α → Except Raised β} {o : Outcome α} (hproper : o.Proper allowStatus success)
    (hcarried : o.Carried rt compact success)
    (hdecode : ∀ a, decode (success a).1 (success a).2 = told a) :
    method rt allowStatus decode (o.http compact success) = o.told told := by
  cases o with
  | value a =>
    have hok : method rt allowStatus decode ((Outcome.value a).http compact success)
        = decode (success a).1 (success a).2 :=
      method_ok (r := (Outcome.value a).http compact success) hproper hcarried
    exact hok.trans (hdecode a)
  | refused answer =>
    apply method_error (r := (Outcome.refused answer).http compact success) hproper
    have hbody : rt.loads (compact (ApiError.json answer.body))
        = .ok (ApiError.json answer.body) := hcarried
    have hinit := init_apiError rt answer.status answer.body.error answer.body.fields
      answer.retryAfter
    rw [← map_intOf] at hinit
    rw [buildError]
    simp only [Outcome.http, hbody]
    exact hinit
  | rejected status text =>
    apply method_error (r := (Outcome.rejected status text).http compact success) hproper
    rw [buildError_text hcarried, rejection]
    show APIError.init rt status (if (strip text).isEmpty then _ else _) (.arr []) none = _
    by_cases hempty : (strip text).isEmpty = true
    · rw [if_pos hempty, if_pos hempty]
      exact init_apiError rt status _ [] none
    · rw [if_neg hempty, if_neg hempty]
      exact init_apiError rt status _ [] none

end

/-! ## Values -/

/-- A time to the microsecond, where the Python at hand reads it. -/
def timeTold (rt : Runtime) (t : Instant) : Except Raised (Option DateTime) :=
  if Readable rt.lenient t then .ok (some (ofInstant t)) else .error (.python .valueError)

def sendTold (r : SendResponse) : Except Raised PySendResponse :=
  .ok ⟨.int r.id, r.status, .int r.parts⟩

def syncTold : Response → Except Raised PySyncSendResponse
  | .ok body => .ok ⟨.int body.id, body.status, .int body.parts, optionalStr body.reference, false⟩
  | .accepted body => .ok ⟨.int body.id, body.status, .int body.parts, .null, true⟩

def messageTold (rt : Runtime) (m : OutboundMessage) : Except Raised PyOutboundMessage := do
  let createdAt ← timeTold rt m.createdAt
  let updatedAt ← timeTold rt m.updatedAt
  return ⟨.int m.id, .str m.toNumber, .str m.body, m.status, .int m.partCount.toNat,
    optionalStr m.msgReference, optionalStr m.errorCode, createdAt, updatedAt⟩

def inboundTold (rt : Runtime) (m : InboundMessage) : Except Raised PyInboundMessage := do
  let receivedAt ← timeTold rt m.receivedAt
  return ⟨.int m.id, .str m.fromNumber, .str m.body, receivedAt⟩

def healthTold (r : Nat × HealthResponse) : Except Raised PyHealthResponse :=
  .ok ⟨.str r.2.health, .bool r.2.serialConnected, .str r.2.simStatus⟩

def statusTold (r : StatusResponse) : Except Raised PyStatusResponse :=
  .ok ⟨optionalInt r.signalPercent, optionalBool r.registered, optionalStr r.operator,
    r.unavailable.map .str⟩

theorem parseDt_timeJson (rt : Runtime) (t : Instant) :
    parseDt rt (timeJson t) = timeTold rt t := by
  rw [timeJson, parseDt, String.toList_ofList, replace_zuluText, fromisoformat_toRfc3339, timeTold]
  by_cases h : Readable rt.lenient t
  · rw [if_pos h, if_pos h]
  · rw [if_neg h, if_neg h]

theorem statusOf_statusName (status : MessageStatus) :
    statusOf (.str (statusName status)) = .ok status := by
  rw [statusOf, messageStatusOf_statusName]
  rfl

theorem send_fromDict (r : SendResponse) :
    PySendResponse.fromDict (SendResponse.json r) = sendTold r := by
  obtain ⟨id, status, parts⟩ := r
  cases status <;> rfl

theorem syncSend_fromDict (r : Response) :
    PySyncSendResponse.fromDict (syncSuccess r).2 ((syncSuccess r).1 = 202) = syncTold r := by
  cases r with
  | ok body =>
    obtain ⟨id, status, reference, parts⟩ := body
    cases status <;> rfl
  | accepted body =>
    obtain ⟨id, status, parts⟩ := body
    cases status <;> rfl

theorem ok_bind {α β : Type} (a : α) (f : α → Except Raised β) :
    (Except.ok a >>= f) = f a := rfl

theorem message_fromDict (rt : Runtime) (m : OutboundMessage) :
    PyOutboundMessage.fromDict rt (OutboundMessage.json m) = messageTold rt m := by
  simp only [PyOutboundMessage.fromDict, item, Except.mapError, subscript, OutboundMessage.json,
    lookupKey, List.reverse_cons, List.reverse_nil, List.nil_append, List.cons_append,
    String.reduceEq, decide_false, Bool.false_eq_true, not_false_eq_true, List.find?_cons_of_neg,
    decide_true, List.find?_cons_of_pos, Option.map_some, getOr, Option.getD_some]
  simp only [ok_bind, statusOf_statusName, parseDt_timeJson, messageTold]

theorem inbound_fromDict (rt : Runtime) (m : InboundMessage) :
    PyInboundMessage.fromDict rt (InboundMessage.json m) = inboundTold rt m := by
  simp only [PyInboundMessage.fromDict, item, Except.mapError, subscript, InboundMessage.json,
    lookupKey, List.reverse_cons, List.reverse_nil, List.nil_append, List.cons_append,
    String.reduceEq, decide_false, Bool.false_eq_true, not_false_eq_true, List.find?_cons_of_neg,
    decide_true, List.find?_cons_of_pos, Option.map_some, getOr, Option.getD_some]
  simp only [ok_bind, parseDt_timeJson, inboundTold]

theorem inbound_fromDicts (rt : Runtime) (ms : List InboundMessage) :
    (ms.map InboundMessage.json).mapM (PyInboundMessage.fromDict rt)
      = ms.mapM (inboundTold rt) := by
  induction ms with
  | nil => rfl
  | cons m ms ih => rw [List.map_cons, List.mapM_cons, List.mapM_cons, inbound_fromDict, ih]

theorem health_fromDict (r : Nat × HealthResponse) :
    PyHealthResponse.fromDict (healthSuccess r).2 = healthTold r := rfl

theorem status_fromDict (r : StatusResponse) :
    PyStatusResponse.fromDict (statusSuccess r).2 = statusTold r := rfl

/-! ## What the service may answer -/

/-- The middleware of the protected routes answers itself, or lets a handler
answer. -/
inductive Guarded {α : Type} (answers : Outcome α → Prop) : Outcome α → Prop where
  | turnedAway {stage : Stage} {answer : GateAnswer} (h : stage.answer = some answer) :
    Guarded answers (.refused answer)
  | handled {o : Outcome α} (h : answers o) : Guarded answers o

def Sends (o : Outcome SendResponse) : Prop := ∃ m body s, o = (sendHandler m body s).2

/-- The handler that waits answers with the outcome of its dispatch, or that the
message is still queued. -/
inductive SendsSync : Outcome Response → Prop where
  | refused {m : Api.Moment} {body : Option Json} {s : Outbound.State} {o : Outcome Response}
    (h : (sendSyncHandler m body s).2 = .inl o) : SendsSync o
  | answered (r : Response) : SendsSync (.value r)

/-- The path has to be a number, which the extractor sees to. -/
inductive Gets (chrono : Chrono) : Outcome OutboundMessage → Prop where
  | answered (retryAfterSecs : Nat) (fetched : Except DbError (Option OutboundRow)) :
    Gets chrono (outboundStatusHandler chrono retryAfterSecs fetched)
  | rejected (text : List Char) : Gets chrono (.rejected 400 text)

/-- So does it with the numbers of the query. -/
inductive Lists (chrono : Chrono) : Outcome (List InboundMessage) → Prop where
  | answered (retryAfterSecs : Nat) (fetched : Except DbError (List Storage.InboundRow)) :
    Lists chrono (ofInboundAnswer (inboundHandler chrono retryAfterSecs fetched))
  | rejected (text : List Char) : Lists chrono (.rejected 400 text)

section

variable {α : Type} {allowStatus : List Nat} {success : α → Nat × Json}

/-- The statuses of refusals. -/
def IsRefusal (status : Nat) : Prop :=
  status = 400 ∨ status = 401 ∨ status = 404 ∨ status = 429 ∨ status = 500 ∨ status = 503

theorem refusal_proper {answer : GateAnswer} (h : IsRefusal answer.status)
    (hallow : ∀ status ∈ allowStatus, status < 400) :
    (Outcome.refused answer : Outcome α).Proper allowStatus success := by
  have hge : 400 ≤ answer.status := by
    rw [IsRefusal] at h
    omega
  refine ⟨hge, fun hmem => ?_⟩
  have := hallow _ hmem
  omega

theorem gate_refusal {stage : Stage} {answer : GateAnswer} (h : stage.answer = some answer) :
    IsRefusal answer.status := by
  cases stage <;> cases h <;> simp [IsRefusal, Gateway.unauthorizedResponse,
    Gateway.jsonWithRetryAfter]

theorem dbError_refusal (err : DbError) (retryAfterSecs : Nat) :
    IsRefusal (dbErrorResponse err retryAfterSecs).status := by
  rw [dbErrorResponse]
  split <;> simp [IsRefusal, Gateway.jsonWithRetryAfter]

theorem Guarded.proper {answers : Outcome α → Prop} {o : Outcome α} (h : Guarded answers o)
    (hallow : ∀ status ∈ allowStatus, status < 400)
    (hanswers : ∀ o, answers o → o.Proper allowStatus success) : o.Proper allowStatus success := by
  cases h with
  | turnedAway hstage => exact refusal_proper (gate_refusal hstage) hallow
  | handled ho => exact hanswers o ho

theorem decision_proper (f : SendResponse → α) (d : SendDecision)
    (hallow : ∀ status ∈ allowStatus, status < 400) (hvalue : ∀ resp, (success (f resp)).1 = 202) :
    (ofSendAnswer f d.intoResponse).Proper allowStatus success := by
  cases d with
  | accepted resp =>
    left
    show (success (f resp)).1 < 400
    rw [hvalue]
    decide
  | invalid err => cases err <;> exact refusal_proper (.inl rfl) hallow
  | tooManyParts required => exact refusal_proper (.inl rfl) hallow
  | gated retryAfterSecs => exact refusal_proper (by simp [IsRefusal]) hallow
  | notReady retryAfterSecs => exact refusal_proper (by simp [IsRefusal]) hallow
  | serverError => exact refusal_proper (by simp [IsRefusal]) hallow

end

theorem Sends.proper {o : Outcome SendResponse} (h : Sends o) : o.Proper [] sendSuccess := by
  obtain ⟨m, body, s, rfl⟩ := h
  rw [sendHandler]
  split
  · exact decision_proper id _ (fun _ hmem => by cases hmem) (fun _ => rfl)
  · exact refusal_proper (.inl rfl) (fun _ hmem => by cases hmem)

theorem SendsSync.proper {o : Outcome Response} (h : SendsSync o) : o.Proper [202] syncSuccess := by
  have hallow : ∀ status ∈ [202], status < 400 := by decide
  cases h with
  | @refused m body s _ h =>
    rw [sendSyncHandler] at h
    split at h
    · split at h
      · cases h
        exact decision_proper Response.accepted _ hallow (fun _ => rfl)
      · cases h
    · cases h
      exact refusal_proper (.inl rfl) hallow
  | answered r =>
    cases r with
    | ok body => exact .inl (by decide : 200 < 400)
    | accepted body => exact .inl (by decide : 202 < 400)

theorem Gets.proper {chrono : Chrono} {o : Outcome OutboundMessage} (h : Gets chrono o) :
    o.Proper [] messageSuccess := by
  cases h with
  | answered retryAfterSecs fetched =>
    rw [outboundStatusHandler]
    split
    · exact .inl (by decide : 200 < 400)
    · exact refusal_proper (by simp [IsRefusal]) (fun _ hmem => by cases hmem)
    · exact refusal_proper (dbError_refusal _ _) (fun _ hmem => by cases hmem)
  | rejected text => exact ⟨Nat.le_refl 400, fun hmem => by cases hmem⟩

theorem Lists.proper {chrono : Chrono} {o : Outcome (List InboundMessage)} (h : Lists chrono o) :
    o.Proper [] inboundSuccess := by
  cases h with
  | answered retryAfterSecs fetched =>
    rw [inboundHandler]
    split
    · exact .inl (by decide : 200 < 400)
    · exact refusal_proper (dbError_refusal _ _) (fun _ hmem => by cases hmem)
  | rejected text => exact ⟨Nat.le_refl 400, fun hmem => by cases hmem⟩

theorem health_proper (snapshot : ModemStatusSnapshot) :
    (Outcome.value (buildHealthResponse snapshot)).Proper [503] healthSuccess := by
  rw [buildHealthResponse]
  cases Admin.deriveHealth snapshot with
  | unhealthy => exact .inr (by decide : 503 ∈ [503])
  | healthy => exact .inl (by decide : 200 < 400)
  | degraded => exact .inl (by decide : 200 < 400)

/-! ## The result -/

/-- Whatever the service answers, the caller of the client is told that and nothing
else. -/
theorem answers_told (rt : Runtime) (compact : Json → List Char) (chrono : Chrono) :
    (∀ o, Guarded Sends o → o.Carried rt compact sendSuccess →
      messagesSend rt (o.http compact sendSuccess) = o.told sendTold) ∧
    (∀ o, Guarded SendsSync o → o.Carried rt compact syncSuccess →
      messagesSendSync rt (o.http compact syncSuccess) = o.told syncTold) ∧
    (∀ o, Guarded (Gets chrono) o → o.Carried rt compact messageSuccess →
      messagesGet rt (o.http compact messageSuccess) = o.told (messageTold rt)) ∧
    (∀ o, Guarded (Lists chrono) o → o.Carried rt compact inboundSuccess →
      messagesListInbound rt (o.http compact inboundSuccess)
        = o.told (fun ms => ms.mapM (inboundTold rt))) ∧
    (∀ snapshot, (Outcome.value (buildHealthResponse snapshot)).Carried rt compact healthSuccess →
      healthGet rt ((Outcome.value (buildHealthResponse snapshot)).http compact healthSuccess)
        = healthTold (buildHealthResponse snapshot)) ∧
    ∀ snapshot, (Outcome.value (buildStatusResponse snapshot)).Carried rt compact statusSuccess →
      healthStatus rt ((Outcome.value (buildStatusResponse snapshot)).http compact statusSuccess)
        = statusTold (buildStatusResponse snapshot) := by
  have hnone : ∀ status ∈ ([] : List Nat), status < 400 := fun _ hmem => by cases hmem
  refine ⟨?_, ?_, ?_, ?_, ?_, ?_⟩
  · intro o ho hcarried
    exact method_http (ho.proper hnone (fun _ h => h.proper)) hcarried send_fromDict
  · intro o ho hcarried
    exact method_http (ho.proper (by decide) (fun _ h => h.proper)) hcarried syncSend_fromDict
  · intro o ho hcarried
    exact method_http (ho.proper hnone (fun _ h => h.proper)) hcarried (message_fromDict rt)
  · intro o ho hcarried
    exact method_http (ho.proper hnone (fun _ h => h.proper)) hcarried (inbound_fromDicts rt)
  · intro snapshot hcarried
    have htold : healthGet rt ((Outcome.value (buildHealthResponse snapshot)).http compact
        healthSuccess) = (Outcome.value (buildHealthResponse snapshot)).told healthTold :=
      method_http (health_proper snapshot) hcarried health_fromDict
    exact htold
  · intro snapshot hcarried
    have htold : healthStatus rt ((Outcome.value (buildStatusResponse snapshot)).http compact
        statusSuccess) = (Outcome.value (buildStatusResponse snapshot)).told statusTold :=
      method_http (.inl (by decide : 200 < 400)) hcarried status_fromDict
    exact htold

def limited : GateAnswer := Gateway.jsonWithRetryAfter 429 7 ⟨"rate limit exceeded", []⟩

/-- A message whose status was written half a second after it was created. -/
def lateMessage : OutboundMessage :=
  ⟨1, "+15551230000", "hello", .sent, 1, some "42", none, Storage.sampleSecond, Storage.sampleHalf⟩

def lateRow : OutboundRow :=
  ⟨1, "+15551230000", "hello", "sent", 1, some "42", none,
    Storage.sampleChrono.toRfc3339 Storage.sampleSecond,
    Storage.sampleChrono.toRfc3339 Storage.sampleHalf⟩

/-- Texts for the bodies of the two. -/
def sampleText (j : Json) : List Char :=
  match subscript j "error" with
  | .ok _ => "refusal".toList
  | .error _ => "message".toList

def sampleBodies : Runtime where
  loads text :=
    if text = "refusal".toList then .ok (ApiError.json limited.body)
    else if text = "message".toList then .ok (OutboundMessage.json lateMessage)
    else .error .jsonDecodeError
  display _ := ""
  lenient := true

theorem lateRow_read (retryAfterSecs : Nat) :
    outboundStatusHandler Storage.sampleChrono retryAfterSecs (.ok (some lateRow))
      = .value lateMessage := by
  have hread : outboundFromRow Storage.sampleChrono lateRow = .ok lateMessage := by
    rw [outboundFromRow, lateRow, parseTs_printed Storage.sampleChrono_reads.1,
      parseTs_printed Storage.sampleChrono_reads.2]
    rfl
  have hfetched : (Except.ok (some lateRow) >>= getOutboundMessage Storage.sampleChrono)
      = .ok (some lateMessage) := by
    show (outboundFromRow Storage.sampleChrono lateRow).map some = _
    rw [hread]
    rfl
  rw [outboundStatusHandler, hfetched]

/-- A refusal with its `Retry-After`, and a message with its times. -/
theorem answers_told_samples :
    messagesSend sampleBodies ⟨429, some ['7'], "refusal".toList⟩
      = .error (.apiError ⟨429, .str "rate limit exceeded", .arr [], some 7,
          "[429] rate limit exceeded"⟩) ∧
    messagesGet sampleBodies ⟨200, none, "message".toList⟩
      = .ok ⟨.int 1, .str "+15551230000", .str "hello", .sent, .int 1, .str "42", .null,
          some ⟨2024, 6, 1, ⟨12, 0, 5, 0⟩, some 0⟩,
          some ⟨2024, 6, 1, ⟨12, 0, 5, 500000⟩, some 0⟩⟩ := by
  have htold := answers_told sampleBodies sampleText Storage.sampleChrono
  have hanswer : (Stage.limited ⟨"00", ⟨1, 1⟩, 0⟩ 7).answer = some limited := rfl
  have hgets : Gets Storage.sampleChrono (.value lateMessage) :=
    lateRow_read 5 ▸ .answered 5 (.ok (some lateRow))
  constructor
  · exact htold.1 (.refused limited) (.turnedAway hanswer) rfl
  · exact htold.2.2.1 (.value lateMessage) (.handled hgets) rfl

end Client
end GreenRelay
