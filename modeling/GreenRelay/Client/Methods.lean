/-
The methods of the Python client.

A method sends its request and looks at the status of the response.  `APIError`
is the only exception of the client's own; the others are those of Python, at a
body that is no JSON or has another shape than the one that is read.
-/
import GreenRelay.Client.Http

namespace GreenRelay
namespace Client

open Events Isoformat Text
open Rfc3339 (utcOffset)

/-! ## Python -/

/-- `json.loads`, what `str` makes of a value that is no text, and whether
`fromisoformat` takes fractions of any length. -/
structure Runtime where
  loads : List Char → Except PyError Json
  display : Json → String
  lenient : Bool

/-- The white space of `str.strip`, which has four separators more than Unicode's. -/
def isSpace (c : Char) : Bool := isWhite c || (28 ≤ c.toNat && c.toNat ≤ 31)

def strip (s : List Char) : List Char :=
  ((s.dropWhile isSpace).reverse.dropWhile isSpace).reverse

/-- Digits, with single underscores between them. -/
def groupedDigits (s : List Char) : Option Nat :=
  let groups := s.splitOn '_'
  if groups.all (fun g => !g.isEmpty && g.all Char.isDigit) then
    some (digitsValue (s.filter (· ≠ '_')))
  else none

/-- `int` of an ASCII text. -/
def intOf (s : List Char) : Option Int :=
  match strip s with
  | '-' :: ds => (groupedDigits ds).map (fun n => -(n : Int))
  | '+' :: ds => (groupedDigits ds).map Int.ofNat
  | ds => (groupedDigits ds).map Int.ofNat

/-- The literal of a float that is zero has no other digit before its exponent. -/
def isZeroLiteral (literal : String) : Bool :=
  (literal.toList.takeWhile (fun c => c ≠ 'e' ∧ c ≠ 'E')).all (fun c => !('1' ≤ c ∧ c ≤ '9'))

def truthy : Json → Bool
  | .null => false
  | .bool b => b
  | .int n => n ≠ 0
  | .float literal => !isZeroLiteral literal
  | .str s => s ≠ ""
  | .arr items => !items.isEmpty
  | .obj fields => !fields.isEmpty

def Runtime.format (rt : Runtime) : Json → String
  | .str s => s
  | j => rt.display j

/-- What a value is a sequence of; the keys of a dictionary in the order in which
they came first. -/
def iterate : Json → Except PyError (List Json)
  | .arr items => .ok items
  | .str s => .ok (s.toList.map (fun c => .str (String.singleton c)))
  | .obj fields => .ok ((fields.map (·.1)).eraseDups.map .str)
  | _ => .error .typeError

def textOf : Json → Except PyError (List Char)
  | .str s => .ok s.toList
  | _ => .error .typeError

/-- `', '.join(value)`. -/
def joinComma (value : Json) : Except PyError (List Char) := do
  let items ← iterate value
  let texts ← items.mapM textOf
  return join [',', ' '] texts

/-! ## Errors -/

/-- `args` is the text that the exception is shown with. -/
structure APIError where
  statusCode : Nat
  error : Json
  fields : Json
  retryAfter : Option Int
  args : String

inductive Raised where
  | apiError (e : APIError)
  | attributeError
  | python (e : PyError)

def APIError.init (rt : Runtime) (statusCode : Nat) (error fields : Json)
    (retryAfter : Option Int) : Except Raised APIError := do
  let fields := if truthy fields then fields else .arr []
  let detail ← if truthy fields then do
      let names ← (joinComma fields).mapError .python
      pure (rt.format error ++ " (fields: " ++ String.ofList names ++ ")")
    else pure (rt.format error)
  return ⟨statusCode, error, fields, retryAfter, "[" ++ toString statusCode ++ "] " ++ detail⟩

/-- `data.get(key, default)`, which only a dictionary has. -/
def getOr (data : Json) (key : String) (default : Json) : Except Raised Json :=
  match data with
  | .obj fields => .ok ((lookupKey fields key).getD default)
  | _ => .error .attributeError

def buildError (rt : Runtime) (r : HttpResponse) : Except Raised APIError := do
  let errorMessage : Json := .str ("HTTP " ++ toString r.statusCode)
  let (errorMessage, fields) ← match rt.loads r.text with
    | .ok body => do
      let errorMessage ← getOr body "error" errorMessage
      let fields ← getOr body "fields" (.arr [])
      pure (errorMessage, fields)
    | .error e =>
      if e.isValueError then
        let text := strip r.text
        pure (if text.isEmpty then errorMessage else .str (String.ofList text), .arr [])
      else throw (.python e)
  APIError.init rt r.statusCode errorMessage fields (r.retryAfter.bind intOf)

/-- `GreenRelay._request` once the response is there. -/
def request (rt : Runtime) (allowStatus : List Nat) (r : HttpResponse) :
    Except Raised HttpResponse :=
  if 400 ≤ r.statusCode ∧ r.statusCode ∉ allowStatus then do
    let e ← buildError rt r
    throw (.apiError e)
  else pure r

/-- `response.json()`. -/
def json (rt : Runtime) (r : HttpResponse) : Except Raised Json :=
  (rt.loads r.text).mapError .python

/-! ## Models -/

structure PySendResponse where
  id : Json
  status : MessageStatus
  parts : Json

structure PySyncSendResponse where
  id : Json
  status : MessageStatus
  parts : Json
  reference : Json
  queued : Bool

structure PyOutboundMessage where
  id : Json
  toNumber : Json
  body : Json
  status : MessageStatus
  partCount : Json
  msgReference : Json
  errorCode : Json
  createdAt : Option DateTime
  updatedAt : Option DateTime

structure PyInboundMessage where
  id : Json
  fromNumber : Json
  body : Json
  receivedAt : Option DateTime

structure PyHealthResponse where
  health : Json
  serialConnected : Json
  simStatus : Json

structure PyStatusResponse where
  signalPercent : Json
  registered : Json
  operator : Json
  unavailable : List Json

/-- `data[key]`. -/
def item (data : Json) (key : String) : Except Raised Json := (subscript data key).mapError .python

def statusOf (j : Json) : Except Raised MessageStatus := (messageStatusOf j).mapError .python

def parseDt (rt : Runtime) : Json → Except Raised (Option DateTime)
  | .null => .ok none
  | .str value =>
    match fromisoformat rt.lenient (replace 'Z' utcOffset value.toList) with
    | some d => .ok (some d)
    | none => .error (.python .valueError)
  | _ => .error .attributeError

def PySendResponse.fromDict (data : Json) : Except Raised PySendResponse := do
  let id ← item data "id"
  let status ← statusOf (← item data "status")
  let parts ← item data "parts"
  return ⟨id, status, parts⟩

def PySyncSendResponse.fromDict (data : Json) (queued : Bool) :
    Except Raised PySyncSendResponse := do
  let id ← item data "id"
  let status ← statusOf (← item data "status")
  let parts ← item data "parts"
  let reference ← getOr data "reference" .null
  return ⟨id, status, parts, reference, queued⟩

def PyOutboundMessage.fromDict (rt : Runtime) (data : Json) : Except Raised PyOutboundMessage := do
  let id ← item data "id"
  let toNumber ← item data "to_number"
  let body ← item data "body"
  let status ← statusOf (← item data "status")
  let partCount ← item data "part_count"
  let msgReference ← getOr data "msg_reference" .null
  let errorCode ← getOr data "error_code" .null
  let createdAt ← parseDt rt (← getOr data "created_at" .null)
  let updatedAt ← parseDt rt (← getOr data "updated_at" .null)
  return ⟨id, toNumber, body, status, partCount, msgReference, errorCode, createdAt, updatedAt⟩

def PyInboundMessage.fromDict (rt : Runtime) (data : Json) : Except Raised PyInboundMessage := do
  let id ← item data "id"
  let fromNumber ← item data "from_number"
  let body ← item data "body"
  let receivedAt ← parseDt rt (← getOr data "received_at" .null)
  return ⟨id, fromNumber, body, receivedAt⟩

def PyHealthResponse.fromDict (data : Json) : Except Raised PyHealthResponse := do
  let health ← item data "health"
  let serialConnected ← item data "serial_connected"
  let simStatus ← item data "sim_status"
  return ⟨health, serialConnected, simStatus⟩

def PyStatusResponse.fromDict (data : Json) : Except Raised PyStatusResponse := do
  let signalPercent ← getOr data "signal_percent" .null
  let registered ← getOr data "registered" .null
  let operator ← getOr data "operator" .null
  let unavailable ← getOr data "unavailable" (.arr [])
  let unavailable ← (iterate unavailable).mapError .python
  return ⟨signalPercent, registered, operator, unavailable⟩

/-! ## Resources -/

/-- A method: the statuses that it allows, and how it reads the body. -/
def method {β : Type} (rt : Runtime) (allowStatus : List Nat)
    (decode : Nat → Json → Except Raised β) (r : HttpResponse) : Except Raised β := do
  let r ← request rt allowStatus r
  let data ← json rt r
  decode r.statusCode data

/-- The body of the request of `send` and `send_sync`. -/
def sendBody (toNumber body : String) : Json := .obj [("to", .str toNumber), ("body", .str body)]

def messagesSend (rt : Runtime) : HttpResponse → Except Raised PySendResponse :=
  method rt [] (fun _ => PySendResponse.fromDict)

def messagesSendSync (rt : Runtime) : HttpResponse → Except Raised PySyncSendResponse :=
  method rt [202] (fun statusCode data => PySyncSendResponse.fromDict data (statusCode = 202))

def messagesGet (rt : Runtime) : HttpResponse → Except Raised PyOutboundMessage :=
  method rt [] (fun _ => PyOutboundMessage.fromDict rt)

def messagesListInbound (rt : Runtime) : HttpResponse → Except Raised (List PyInboundMessage) :=
  method rt [] (fun _ data => do
    let items ← (iterate data).mapError .python
    items.mapM (PyInboundMessage.fromDict rt))

def healthGet (rt : Runtime) : HttpResponse → Except Raised PyHealthResponse :=
  method rt [503] (fun _ => PyHealthResponse.fromDict)

def healthStatus (rt : Runtime) : HttpResponse → Except Raised PyStatusResponse :=
  method rt [] (fun _ => PyStatusResponse.fromDict)

end Client
end GreenRelay
