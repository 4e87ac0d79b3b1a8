import TcpAdapter.Codec.Layout
import TcpAdapter.Model.Protocol.Frame

/-! # Controller messages

The frames a controller sends that the adapter acts on: registration, status 1, firmware
status and command acknowledgement. Payloads start with the command id. -/

namespace TcpAdapter.Protocol

open TcpAdapter.Codec (writeAt)

/-! ## Registration -/

/-- A string is its bytes, as in the source. -/
structure Registration where
  imei : List UInt8
  protocolVersion : UInt8
  hwVersion : UInt8
  deriving DecidableEq, Repr

inductive RegistrationError where
  | tooShort (length : ℕ)
  | unexpectedCommand (commandID : UInt8)
  | emptyIMEI
  | invalidIMEI (imei : List UInt8)
  deriving DecidableEq, Repr

/-- A byte outside ASCII is part of no digit rune, so the runes are digits if the bytes
are. -/
def isDigitsOnly (value : List UInt8) : Bool :=
  value.all fun b => 0x30 ≤ b && b ≤ 0x39

/-- The loop that leaves out the zeros at the end of the first `n` bytes. -/
def trimmedEnd (raw : List UInt8) : ℕ → ℕ
  | 0 => 0
  | n + 1 => if raw.getD n 0 = 0 then trimmedEnd raw n else n + 1

def parseRegistrationPayload (payload : List UInt8) : Except RegistrationError Registration :=
  if payload.length < 18 then .error (.tooShort payload.length)
  else if payload.getD 0 0 ≠ 1 then .error (.unexpectedCommand (payload.getD 0 0))
  else
    let imeiRaw := (payload.drop 1).take 15
    let imei := imeiRaw.take (trimmedEnd imeiRaw imeiRaw.length)
    if imei = [] then .error .emptyIMEI
    else if !isDigitsOnly imei then .error (.invalidIMEI imei)
    else .ok ⟨imei, payload.getD 16 0, payload.getD 17 0⟩

/-- The registration that `controller-sim` sends. -/
def buildRegistrationPayload (imei : List UInt8) : List UInt8 :=
  let imeiBytes := if imei.length > 15 then imei.take 15 else imei
  let pad := writeAt (List.replicate 15 0) 0 imeiBytes
  [1] ++ pad ++ [1] ++ [1]

def isKnownCommandID (cmd : UInt8) : Bool :=
  1 ≤ cmd && cmd ≤ 25 || cmd == 27

/-! ## Status and acknowledgement -/

structure Status1 where
  controllerTime : ℕ
  flags : ℕ
  bufferFree : ℕ

structure Ack11 where
  commandSeq : UInt8
  executionCode : UInt8
  controllerTime : ℕ
  bufferFreeBytes : ℕ

structure FWStatus4 where
  commandSeq : UInt8
  progressOrErr : UInt8
  executionCode : UInt8

def parseStatus1Payload (payload : List UInt8) : Except String Status1 :=
  if payload.length < 9 then .error s!"status1 payload too short: {payload.length}"
  else if payload.getD 0 0 ≠ 2 then .error s!"unexpected cmd id: {payload.getD 0 0}"
  else .ok ⟨uint32At payload 1, uint16At payload 5, uint16At payload 7⟩

def parseAck11Payload (payload : List UInt8) : Except String Ack11 :=
  if payload.length < 9 then .error s!"ack11 payload too short: {payload.length}"
  else if payload.getD 0 0 ≠ 11 then .error s!"unexpected cmd id: {payload.getD 0 0}"
  else .ok ⟨payload.getD 1 0, payload.getD 2 0, uint32At payload 3, uint16At payload 7⟩

def parseFWStatus4Payload (payload : List UInt8) : Except String FWStatus4 :=
  if payload.length < 4 then .error s!"fw status payload too short: {payload.length}"
  else if payload.getD 0 0 ≠ 4 then .error s!"unexpected cmd id: {payload.getD 0 0}"
  else .ok ⟨payload.getD 1 0, payload.getD 2 0, payload.getD 3 0⟩

/-- Bit 11 of the status flags. -/
def status1ReadyForFW (flags : ℕ) : Bool :=
  flags.testBit 11

def isFWFinished (progress : UInt8) : Bool :=
  progress == 248

def isFWFailed (progress : UInt8) : Bool :=
  249 ≤ progress && progress ≤ 255

/-! ## Execution codes -/

/-- The states of a command that acknowledgement events report. -/
inductive AckStatus where
  | accepted
  | delivered
  | failed
  | expired
  | duplicate
  | unsupported
  | inProgress
  | retrying
  deriving DecidableEq, Repr

structure Ack11Status where
  status : AckStatus
  terminal : Bool
  reason : String

def interpretAck11ExecutionCode (code : UInt8) : Ack11Status :=
  if code = 0 then ⟨.delivered, true, "ok"⟩
  else if code = 1 then ⟨.failed, true, "parameter_error"⟩
  else if code = 2 then ⟨.failed, true, "execution_error"⟩
  else if code = 3 then ⟨.failed, true, "invalid_result"⟩
  else if code = 4 then ⟨.failed, true, "password_required"⟩
  else if code = 5 then ⟨.inProgress, false, "command_started"⟩
  else if code = 6 then ⟨.expired, true, "stale_command"⟩
  else if code = 254 then ⟨.failed, true, "crc_error"⟩
  else if code = 255 then ⟨.unsupported, true, "command_not_supported"⟩
  else ⟨.failed, true, "unknown_code"⟩

def isTerminalAckStatus : AckStatus → Bool
  | .delivered | .failed | .expired | .unsupported | .duplicate => true
  | .accepted | .inProgress | .retrying => false

/-! ## Acknowledgement codes of the server -/

def ackCodeOK : UInt8 := 0

def isAckExecutionCodeAllowed (code : UInt8) : Bool :=
  code ∈ [0, 1, 2, 3, 4, 5, 6, 7, 254, 255]

end TcpAdapter.Protocol
