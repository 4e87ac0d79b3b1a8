import TcpAdapter.Model.Protocol.Commands
import TcpAdapter.Model.Server.Builder
import TcpAdapter.Model.Server.Debug

/-! # The command builder

The debug endpoint that builds the payload of a command from JSON parameters and shows the frame
that would carry it. The texts of JSON are valid strings. -/

namespace TcpAdapter.Server

open TcpAdapter.Protocol

/-! ## Parameters -/

/-- A JSON object, read into the fields of a struct: what stands under a key as a value of the
field's type. A key that is missing gives the zero value. -/
structure JsonObject where
  uint8 : String → Except String UInt8
  uint16 : String → Except String UInt16
  uint32 : String → Except String UInt32
  uint64 : String → Except String UInt64
  bool : String → Except String Bool
  text : String → Except String String
  /-- `json.RawMessage` -/
  raw : String → Except String String

/-- What is left open about the packages `encoding/json` and `encoding/hex`: how a text is
unmarshalled, and the error for a text that is no hex string. -/
structure Json where
  object : String → Except String JsonObject
  settings : String → Except String Cmd12SettingsRecord
  ids : String → Except String (List Cmd13IDRecord)
  schedules : String → Except String (List Cmd14ScheduleRecord)
  groups : String → Except String (List Cmd15GroupRecord)
  hexError : String → String

/-- The bytes of a string. -/
def utf8 (s : String) : List UInt8 :=
  s.toUTF8.toList

section build

variable (json : Json) (fmt : Fmt)

/-- `read` is the struct that the parameters are decoded into. -/
def decodeBuilderParams {α : Type} (raw : String) (read : JsonObject → Except String α) :
    Except String α :=
  let body := trimSpace raw
  let body := if body = "" ∨ body = "null" then "\x7b\x7d" else body
  wrapError "parameters" (json.object body >>= read)

def decodeHexString (s : String) : Except String (List UInt8) :=
  let trimmed := (trimSpace s).toList.filter fun c => c ∉ [' ', '\n', '\r', '\t']
  if trimmed = [] then .ok []
  else
    match decodeHex trimmed with
    | none => .error (json.hexError (String.ofList trimmed))
    | some out => .ok out

/-- A parameter that is JSON itself. -/
def decodeRecords {α : Type} (name text : String) (unmarshal : String → Except String α) :
    Except String α := do
  need (text ≠ "") s!"{name} is required"
  wrapError name (unmarshal text)

/-! ## Payloads -/

def readTriggers (o : JsonObject) : Except String Cmd5TriggerFlags := do
  return {
    manualUnlock := ← o.bool "manual_unlock"
    scenarioUnlock := ← o.bool "scenario_unlock"
    autoRegistration := ← o.bool "auto_registration"
    openForAll := ← o.bool "open_for_all"
    forwardSMS := ← o.bool "forward_sms"
    notifyUnknownIDSMS := ← o.bool "notify_unknown_id_sms"
    notifyLowBalanceSMS := ← o.bool "notify_low_balance_sms"
    scheduleForAllCalls := ← o.bool "schedule_for_all_calls" }

def readCaptureID (o : JsonObject) : Except String Cmd6CaptureIDPayload := do
  return ⟨← o.uint8 "capture_timeout", ← o.uint8 "interface", ← o.uint8 "network_address"⟩

def readOutputs (o : JsonObject) : Except String Cmd8OutputControlPayload := do
  return ⟨← o.uint8 "source_id", ← o.uint8 "output1", ← o.uint8 "output2"⟩

def readSMS (o : JsonObject) : Except String Cmd11SendSMSPayload := do
  return ⟨utf8 (trimSpace (← o.text "phone10")), utf8 (← o.text "message")⟩

/-- The parameters of a command with JSON in them. -/
def readStamped (name : String) (o : JsonObject) : Except String (UInt32 × String) := do
  return (← o.uint32 "timestamp", ← o.raw name)

def readHolidays (o : JsonObject) : Except String (UInt32 × String) := do
  return (← o.uint32 "timestamp", ← o.text "days_csv")

def readStartFW (o : JsonObject) : Except String Cmd19StartFWPayload := do
  return ⟨← o.uint16 "firmware_number", ← o.uint32 "build_timestamp", ← o.uint32 "file_size",
    ← o.uint32 "file_crc", ← o.uint16 "block_count"⟩

def readFWBlock (o : JsonObject) : Except String (UInt16 × String) := do
  return (← o.uint16 "block_number", ← o.text "data_hex")

/-- The parameters of a binding response; the number as it is to be sent is in hex. -/
def readBinding (o : JsonObject) : Except String (Cmd25BindingResponsePayload × String) := do
  return (
    { errorCode := ← o.uint8 "error_code"
      objectNumber := ← o.uint64 "object_number"
      objectNumberRaw := []
      objectName := utf8 (← o.text "object_name")
      controllerName := utf8 (← o.text "controller_name")
      adminPhone := utf8 (← o.text "admin_phone") },
    ← o.text "object_number_raw_hex")

def readCustom (o : JsonObject) : Except String (UInt8 × String) := do
  return (← o.uint8 "custom_command", ← o.text "argument_hex")

def buildCommandPayload (commandID : UInt8) (raw : String) : Except String (List UInt8) :=
  match commandID with
  | 2 => do Cmd2RebootPayload.build ⟨← decodeBuilderParams json raw (·.uint8 "timeout_sec")⟩
  | 3 => do Cmd3FactoryResetPayload.build ⟨← decodeBuilderParams json raw (·.uint8 "timeout_sec")⟩
  | 5 => do
      Cmd5TriggerStructuredPayload.build { flags := ← decodeBuilderParams json raw readTriggers }
  | 6 => do (← decodeBuilderParams json raw readCaptureID).build
  | 7 => do
      Cmd7PhotoRequestPayload.build ⟨← decodeBuilderParams json raw (·.uint8 "camera_address")⟩
  | 8 => do (← decodeBuilderParams json raw readOutputs).build
  | 9 | 10 | 17 | 21 | 22 => buildEmptyPayload commandID
  | 11 => do (← decodeBuilderParams json raw readSMS).build
  | 12 => do
      let (timestamp, text) ← decodeBuilderParams json raw (readStamped "record_json")
      Cmd12SettingsPayload.build ⟨timestamp, ← decodeRecords "record_json" text json.settings⟩
  | 13 => do
      let (timestamp, text) ← decodeBuilderParams json raw (readStamped "records_json")
      Cmd13SyncIDStructuredPayload.build ⟨timestamp, ← decodeRecords "records_json" text json.ids⟩
  | 14 => do
      let (timestamp, text) ← decodeBuilderParams json raw (readStamped "records_json")
      Cmd14SyncScheduleStructuredPayload.build
        ⟨timestamp, ← decodeRecords "records_json" text json.schedules⟩
  | 15 => do
      let (timestamp, text) ← decodeBuilderParams json raw (readStamped "records_json")
      Cmd15SyncGroupStructuredPayload.build
        ⟨timestamp, ← decodeRecords "records_json" text json.groups⟩
  | 16 => do
      let (timestamp, daysCSV) ← decodeBuilderParams json raw readHolidays
      buildSyncHolidays fmt timestamp (utf8 daysCSV)
  | 18 => do Cmd18CRCBlockPayload.build ⟨← decodeBuilderParams json raw (·.uint8 "block")⟩
  | 19 => do (← decodeBuilderParams json raw readStartFW).build
  | 20 => do
      let (blockNumber, dataHex) ← decodeBuilderParams json raw readFWBlock
      Cmd20FWBlockPayload.build ⟨blockNumber, ← wrapError "data_hex" (decodeHexString json dataHex)⟩
  | 23 => do Cmd23SetTimePayload.build ⟨← decodeBuilderParams json raw (·.uint32 "server_time")⟩
  | 25 => do
      let (p, numberHex) ← decodeBuilderParams json raw readBinding
      let number ← wrapError "object_number_raw_hex" (decodeHexString json numberHex)
      Cmd25BindingResponsePayload.build { p with objectNumberRaw := number }
  | 27 => do
      let (customCommand, argumentHex) ← decodeBuilderParams json raw readCustom
      Cmd27CustomPayload.build
        ⟨customCommand, ← wrapError "argument_hex" (decodeHexString json argumentHex)⟩
  | _ => .error s!"command {commandID} is not supported by builder"

/-! ## The handler -/

def commandName (commandID : UInt8) : String :=
  match commandID with
  | 2 => "Reboot"
  | 3 => "Factory Reset"
  | 5 => "Set Triggers"
  | 6 => "Capture ID"
  | 7 => "Request Photo"
  | 8 => "Control Outputs"
  | 9 => "Request Events"
  | 10 => "Request SMS IDs"
  | 11 => "Send SMS"
  | 12 => "Sync Settings"
  | 13 => "Sync IDs"
  | 14 => "Sync Schedules"
  | 15 => "Sync Groups"
  | 16 => "Sync Holidays"
  | 17 => "CRC All"
  | 18 => "CRC Block"
  | 19 => "FW Start"
  | 20 => "FW Block"
  | 21 => "Photo Upload Request"
  | 22 => "Status2 Request"
  | 23 => "Set Time"
  | 25 => "Binding Response"
  | 27 => "Custom"
  | _ => s!"Command {commandID}"

/-- `commandBuildResponse` -/
structure CommandBuildResponse where
  commandID : UInt8
  commandName : String
  payloadHex : String
  payloadLen : ℕ
  frameHex : String
  frameLen : ℕ

/-- `debugBuildCommandRequest` -/
structure DebugBuildCommandRequest where
  commandID : UInt8 := 0
  parameters : String := ""

/-- A status with a text, or the response. -/
inductive BuildAnswer where
  | notFound
  | error (code : ℕ) (text : String)
  | built (response : CommandBuildResponse)

/-- `strings.ToUpper(hex.EncodeToString(bytes))` -/
def upperHex (bytes : List UInt8) : String :=
  String.ofList ((encodeToString bytes).toList.map Char.toUpper)

/-- The frame is one without a mode, which is encoded with a number. -/
def buildResponse (commandID : UInt8) (payload : List UInt8) : Except String CommandBuildResponse :=
  match encodeFrame ⟨255, 1, commandID :: payload, .auto⟩ with
  | .error err => .error ("frame preview failed: " ++ err)
  | .ok frame =>
      .ok ⟨commandID, commandName commandID, upperHex payload, payload.length, upperHex frame,
        frame.length⟩

def debugBuildCommandHandler (cfg : Config) (method : String)
    (body : Option DebugBuildCommandRequest) : BuildAnswer :=
  if ¬ cfg.debugLogs then .notFound
  else if method ≠ "POST" then .error 405 "method not allowed"
  else
    match body with
    | none => .error 400 "invalid json body"
    | some req =>
        if req.commandID = 0 then .error 400 "command_id is required"
        else
          match buildCommandPayload json fmt req.commandID req.parameters with
          | .error err => .error 400 ("build failed: " ++ err)
          | .ok payload =>
              match buildResponse req.commandID payload with
              | .error text => .error 400 text
              | .ok response => .built response

end build

end TcpAdapter.Server
