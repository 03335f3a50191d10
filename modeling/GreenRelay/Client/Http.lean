/-
The REST service as its Python client meets it.

A handler ends with a value or with a refusal, and either becomes a status, a
body and perhaps a `Retry-After`.  The client looks at the status first: a body
is read as a value where the status is that of a success or one that the method
allows, and as an error otherwise.  What the client does with each kind of body
is written out with the errors that Python raises where a body has another
shape; which of these can be met is the subject of `Agreement`.

The JSON libraries are outside of this, and so is what `str` makes of a value
that is no text.
-/
import GreenRelay.Admin.Portal
import GreenRelay.Api.Inbound
import GreenRelay.Api.Status
import GreenRelay.Events.Stream
import GreenRelay.Lib.Isoformat

namespace GreenRelay
namespace Client

open Api Events Isoformat
open Gateway (GateAnswer Stage)
open Outbound (SendResponse SyncSendResponse Response)
open Storage (Chrono DbError InboundMessage OutboundMessage OutboundRow outboundFromRow)
open Rfc3339 (Instant utcOffset)

/-! ## Bodies -/

def ApiError.json (e : ApiError) : Json :=
  .obj [("error", .str e.error), ("fields", .arr (e.fields.map .str))]

def SendResponse.json (r : SendResponse) : Json :=
  .obj [("id", .int r.id), ("status", .str (statusName r.status)), ("parts", .int r.parts)]

def SyncSendResponse.json (r : SyncSendResponse) : Json :=
  .obj [("id", .int r.id), ("status", .str (statusName r.status)),
    ("reference", optionalStr r.reference), ("parts", .int r.parts)]

/-- `chrono` writes the time of a body with `Z`. -/
def timeJson (t : Instant) : Json := .str (String.ofList (zuluText t))

def OutboundMessage.json (m : OutboundMessage) : Json :=
  .obj [("id", .int m.id), ("to_number", .str m.toNumber), ("body", .str m.body),
    ("status", .str (statusName m.status)), ("part_count", .int m.partCount.toNat),
    ("msg_reference", optionalStr m.msgReference), ("error_code", optionalStr m.errorCode),
    ("created_at", timeJson m.createdAt), ("updated_at", timeJson m.updatedAt)]

def InboundMessage.json (m : InboundMessage) : Json :=
  .obj [("id", .int m.id), ("from_number", .str m.fromNumber), ("body", .str m.body),
    ("received_at", timeJson m.receivedAt)]

structure HealthResponse where
  health : String
  serialConnected : Bool
  simStatus : String
  deriving DecidableEq, Repr

def HealthResponse.json (r : HealthResponse) : Json :=
  .obj [("health", .str r.health), ("serial_connected", .bool r.serialConnected),
    ("sim_status", .str r.simStatus)]

def optionalInt : Option Nat → Json
  | some n => .int n
  | none => .null

def optionalBool : Option Bool → Json
  | some b => .bool b
  | none => .null

def StatusResponse.json (r : StatusResponse) : Json :=
  .obj [("signal_percent", optionalInt r.signalPercent), ("registered", optionalBool r.registered),
    ("operator", optionalStr r.operator), ("unavailable", .arr (r.unavailable.map .str))]

/-! ## Handlers -/

/-- What a handler, or the middleware in front of it, ends with. -/
inductive Outcome (α : Type) where
  | value (a : α)
  | refused (answer : GateAnswer)
  /-- A path or a query that an extractor turns down, with a text that is no JSON. -/
  | rejected (status : Nat) (text : List Char)

def ofSendAnswer {α : Type} (f : SendResponse → α) : SendAnswer → Outcome α
  | .accepted resp => .value (f resp)
  | .refused status retryAfter body => .refused ⟨status, retryAfter, none, body⟩

def asOptionalStr : Json → Option (Option String)
  | .null => some none
  | .str s => some (some s)
  | _ => none

/-- A field of a structure that serde reads: it may be absent, and must not come
twice. -/
def optionalField (fields : List (String × Json)) (key : String) : Option (Option String) :=
  match fields.filter (·.1 = key) with
  | [] => some none
  | [(_, value)] => asOptionalStr value
  | _ => none

/-- The derived `Deserialize`, which takes a list of the fields as well. -/
def SendRequest.ofJson : Json → Option SendRequest
  | .obj fields => do
    let toNumber ← optionalField fields "to"
    let body ← optionalField fields "body"
    return ⟨toNumber, body⟩
  | .arr [toNumber, body] => do
    let toNumber ← asOptionalStr toNumber
    let body ← asOptionalStr body
    return ⟨toNumber, body⟩
  | _ => none

def invalidJson : GateAnswer := ⟨400, none, none, ⟨"request body must be valid JSON", []⟩⟩

/-- The extracted body is `none` where it could not be read as JSON. -/
def parseSendRequest (body : Option Json) : Option SendRequest := body.bind SendRequest.ofJson

def sendHandler (m : Api.Moment) (body : Option Json) (s : Outbound.State) :
    Outbound.State × Outcome SendResponse :=
  match parseSendRequest body with
  | some request =>
    let (s, decision) := queueSend m request s
    (s, ofSendAnswer id decision.intoResponse)
  | none => (s, .refused invalidJson)

/-- The handler until it waits for the outcome of what it has prepared. -/
def sendSyncHandler (m : Api.Moment) (body : Option Json) (s : Outbound.State) :
    Outbound.State × (Outcome Response ⊕ PreparedSend) :=
  match parseSendRequest body with
  | some request =>
    match syncSend m request s with
    | (s, .error decision) => (s, .inl (ofSendAnswer .accepted decision.intoResponse))
    | (s, .ok p) => (s, .inr p)
  | none => (s, .inl (.refused invalidJson))

def getOutboundMessage (chrono : Chrono) (row : Option OutboundRow) :
    Except DbError (Option OutboundMessage) :=
  match row with
  | some row => (outboundFromRow chrono row).map some
  | none => .ok none

/-- The handler, given how its `SELECT` ends. -/
def outboundStatusHandler (chrono : Chrono) (retryAfterSecs : Nat)
    (fetched : Except DbError (Option OutboundRow)) : Outcome OutboundMessage :=
  match fetched >>= getOutboundMessage chrono with
  | .ok (some message) => .value message
  | .ok none => .refused ⟨404, none, none, ⟨"message not found", []⟩⟩
  | .error err => .refused (dbErrorResponse err retryAfterSecs)

def ofInboundAnswer : InboundAnswer → Outcome (List InboundMessage)
  | .ok messages => .value messages
  | .error answer => .refused answer

def healthStr : Admin.ServiceHealth → String
  | .healthy => "healthy"
  | .degraded => "degraded"
  | .unhealthy => "unhealthy"

def simStr : SimStatus → String
  | .ready => "ready"
  | .notReady => "not_ready"
  | .unknown => "unknown"

def buildHealthResponse (snapshot : ModemStatusSnapshot) : Nat × HealthResponse :=
  let health := Admin.deriveHealth snapshot
  let status := match health with
    | .unhealthy => 503
    | .healthy | .degraded => 200
  (status, ⟨healthStr health, snapshot.serialConnected, simStr snapshot.simStatus⟩)

/-! ## Responses -/

structure HttpResponse where
  statusCode : Nat
  retryAfter : Option (List Char)
  text : List Char
  deriving DecidableEq, Repr

/-- The body of an answer, where it is JSON. -/
def Outcome.body {α : Type} (success : α → Nat × Json) : Outcome α → Option Json
  | .value a => some (success a).2
  | .refused answer => some (ApiError.json answer.body)
  | .rejected _ _ => none

def Outcome.http {α : Type} (compact : Json → List Char) (success : α → Nat × Json) :
    Outcome α → HttpResponse
  | .value a => ⟨(success a).1, none, compact (success a).2⟩
  | .refused answer =>
    ⟨answer.status, answer.retryAfter.map (Nat.toDigits 10), compact (ApiError.json answer.body)⟩
  | .rejected status text => ⟨status, none, text⟩

def sendSuccess (r : SendResponse) : Nat × Json := (202, SendResponse.json r)

def syncSuccess : Response → Nat × Json
  | .ok body => (200, SyncSendResponse.json body)
  | .accepted body => (202, SendResponse.json body)

def messageSuccess (m : OutboundMessage) : Nat × Json := (200, OutboundMessage.json m)

def inboundSuccess (ms : List InboundMessage) : Nat × Json :=
  (200, .arr (ms.map InboundMessage.json))

def healthSuccess (r : Nat × HealthResponse) : Nat × Json := (r.1, HealthResponse.json r.2)

def statusSuccess (r : StatusResponse) : Nat × Json := (200, StatusResponse.json r)

end Client
end GreenRelay
