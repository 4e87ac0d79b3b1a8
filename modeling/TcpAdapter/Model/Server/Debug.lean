import TcpAdapter.Codec.Strings
import TcpAdapter.Model.Server.Programs

/-! # The debug endpoint

`/debug/enqueue`: a command for a controller comes in as an HTTP request. Decoding the JSON body
is part of the environment. -/

namespace TcpAdapter.Server

open TcpAdapter.Queue TcpAdapter.Protocol TcpAdapter.Manager

/-! ## Texts -/

/-- `strings.TrimSpace`. The texts of a request are valid, so that their runes are the
characters. -/
def trimSpace (s : String) : String :=
  String.ofList (Codec.trimEnds (fun c => Codec.isSpace c.toNat) s.toList)

def hexDigit (c : Char) : Option UInt8 :=
  if '0' ≤ c ∧ c ≤ '9' then some (.ofNat (c.toNat - '0'.toNat))
  else if 'a' ≤ c ∧ c ≤ 'f' then some (.ofNat (c.toNat - 'a'.toNat + 10))
  else if 'A' ≤ c ∧ c ≤ 'F' then some (.ofNat (c.toNat - 'A'.toNat + 10))
  else none

/-- `hex.DecodeString` -/
def decodeHex : List Char → Option (List UInt8)
  | [] => some []
  | [_] => none
  | hi :: lo :: rest => do
      let hi ← hexDigit hi
      let lo ← hexDigit lo
      return (hi * 16 + lo) :: (← decodeHex rest)

/-- `Time.UnixNano`; the Unix epoch is 62135596800 seconds after Go's zero time. -/
def unixNano (t : Time) : Int :=
  int64 (t - 62135596800 * second)

/-! ## Requests and answers -/

/-- `debugEnqueueRequest` -/
structure DebugEnqueueRequest where
  controllerID : String := ""
  commandID : UInt8 := 0
  ttlSeconds : Int64 := 0
  payloadHex : String := ""
  messageID : String := ""
  traceID : String := ""
  dedupKey : String := ""

/-- What the handler reads of the HTTP request: the method, the body if it decodes, and the
header `X-Request-ID`. -/
structure HTTPRequest where
  method : String
  body : Option DebugEnqueueRequest
  requestID : String := ""

inductive HTTPResponse where
  | notFound
  | error (code : ℕ) (text : String)
  /-- 202 and the JSON object with the status `queued`. -/
  | accepted (controllerID : String) (commandID : UInt8) (messageID traceID : String)

namespace DebugEnqueueRequest

variable (req : DebugEnqueueRequest)

/-- The payload, if the hex string is one. -/
def decodedPayload : Except String (List UInt8) :=
  if trimSpace req.payloadHex = "" then .ok []
  else
    match decodeHex (trimSpace req.payloadHex).toList with
    | none => .error "payload_hex must be valid hex string"
    | some payload => .ok payload

/-- The checks of the handler, in its order. The answer is the payload. -/
def checkedPayload : Except String (List UInt8) := do
  need (trimSpace req.controllerID ≠ "") "controller_id is required"
  need (req.commandID ≠ 0) "command_id is required"
  let payload ← req.decodedPayload
  match validateServerCommandPayload req.commandID payload with
  | .error msg => .error ("invalid payload for command: " ++ msg)
  | .ok () =>
      need (¬ req.ttlSeconds < 0) "ttl_seconds must be >= 0"
      return payload

/-- `time.Duration(req.TTLSeconds) * time.Second` -/
def ttl : Duration :=
  int64 (req.ttlSeconds.toInt * second)

end DebugEnqueueRequest

/-! ## The handler -/

/-- The id that was given, or one made from the time. -/
def givenOr (given kind : String) : Serve String := do
  if given ≠ "" then return given
  else return kind ++ toString (unixNano (← perform .now))

/-- The request has passed the checks. -/
def enqueueRequest (cfg : Config) (r : HTTPRequest) (req : DebugEnqueueRequest)
    (payload : List UInt8) (fuel : ℕ) : Serve HTTPResponse := do
  let controllerID := trimSpace req.controllerID
  let messageID ← givenOr (trimSpace req.messageID) "debug-"
  let givenTrace := trimSpace req.traceID
  let traceID ← givenOr (if givenTrace = "" then trimSpace r.requestID else givenTrace) "trace-"
  let cmd : Command :=
    { messageID := messageID
      traceID := traceID
      dedupKey := trimSpace req.dedupKey
      commandID := req.commandID
      ttl := req.ttl
      payload := payload
      createdAt := ← perform .now
      -- the source leaves the priority empty
      priority := .other "" }
  match ← deliver controllerID (Delivery.enqueueCommand cfg.delivery controllerID cmd fuel) with
  | (_, some err) => return .error 400 ("enqueue failed: " ++ err.message)
  | (_, none) => return .accepted controllerID req.commandID messageID traceID

/-- The loop that makes room for the command may go round as often as `fuel` says. -/
def debugEnqueueHandler (cfg : Config) (r : HTTPRequest) (fuel : ℕ) : Serve HTTPResponse :=
  if ¬ cfg.debugLogs then return .notFound
  else if r.method ≠ "POST" then return .error 405 "method not allowed"
  else
    match r.body with
    | none => return .error 400 "invalid json body"
    | some req =>
        match req.checkedPayload with
        | .error text => return .error 400 text
        | .ok payload => enqueueRequest cfg r req payload fuel

end TcpAdapter.Server
