import TcpAdapter.Model.Protocol.Builders

/-! # Typed payload builders of the fixed-size commands -/

namespace TcpAdapter.Protocol

/-- The end of every builder: what has been built is validated. -/
def validated (commandID : UInt8) (out : List UInt8) : Except String (List UInt8) := do
  validateServerCommandPayload commandID out
  return out

structure Cmd1RegistrationAckPayload where
  executionCode : UInt8
  serverTime : UInt32

def Cmd1RegistrationAckPayload.build (p : Cmd1RegistrationAckPayload) :
    Except String (List UInt8) :=
  validated 1 ([p.executionCode] ++ putUint32 p.serverTime.toNat)

structure Cmd2RebootPayload where
  timeoutSec : UInt8

def Cmd2RebootPayload.build (p : Cmd2RebootPayload) : Except String (List UInt8) :=
  validated 2 [p.timeoutSec]

structure Cmd3FactoryResetPayload where
  timeoutSec : UInt8

def Cmd3FactoryResetPayload.build (p : Cmd3FactoryResetPayload) : Except String (List UInt8) :=
  validated 3 [p.timeoutSec]

/-! ## Command 5 -/

structure Cmd5TriggerPayload where
  flags : Arr 16 UInt8

def Cmd5TriggerPayload.build (p : Cmd5TriggerPayload) : Except String (List UInt8) :=
  validated 5 p.flags.1

structure Cmd5TriggerFlags where
  manualUnlock : Bool := false
  scenarioUnlock : Bool := false
  autoRegistration : Bool := false
  openForAll : Bool := false
  forwardSMS : Bool := false
  notifyUnknownIDSMS : Bool := false
  notifyLowBalanceSMS : Bool := false
  scheduleForAllCalls : Bool := false
  deriving DecidableEq, Repr

structure Cmd5TriggerStructuredPayload where
  flags : Cmd5TriggerFlags
  reserve : Arr 8 UInt8 := ⟨makeBytes 8, rfl⟩

def Cmd5TriggerStructuredPayload.build (p : Cmd5TriggerStructuredPayload) :
    Except String (List UInt8) :=
  validated 5
    ([boolToByte p.flags.manualUnlock, boolToByte p.flags.scenarioUnlock,
      boolToByte p.flags.autoRegistration, boolToByte p.flags.openForAll,
      boolToByte p.flags.forwardSMS, boolToByte p.flags.notifyUnknownIDSMS,
      boolToByte p.flags.notifyLowBalanceSMS, boolToByte p.flags.scheduleForAllCalls] ++
      p.reserve.1)

/-! ## Other commands -/

structure Cmd6CaptureIDPayload where
  captureTimeout : UInt8
  interface : UInt8
  networkAddress : UInt8

def Cmd6CaptureIDPayload.build (p : Cmd6CaptureIDPayload) : Except String (List UInt8) :=
  validated 6 [p.captureTimeout, p.interface, p.networkAddress]

structure Cmd7PhotoRequestPayload where
  cameraAddress : UInt8

def Cmd7PhotoRequestPayload.build (p : Cmd7PhotoRequestPayload) : Except String (List UInt8) :=
  validated 7 [p.cameraAddress]

structure Cmd8OutputControlPayload where
  sourceID : UInt8
  output1 : UInt8
  output2 : UInt8

def Cmd8OutputControlPayload.build (p : Cmd8OutputControlPayload) : Except String (List UInt8) :=
  validated 8 [p.sourceID, p.output1, p.output2]

structure Cmd18CRCBlockPayload where
  block : UInt8

def Cmd18CRCBlockPayload.build (p : Cmd18CRCBlockPayload) : Except String (List UInt8) :=
  validated 18 [p.block]

structure Cmd20FWBlockPayload where
  blockNumber : UInt16
  data : List UInt8

def Cmd20FWBlockPayload.build (p : Cmd20FWBlockPayload) : Except String (List UInt8) := do
  need (p.data.length = 1024) "cmd 20: data must be 1024 bytes"
  validated 20 (putUint16 p.blockNumber.toNat ++ p.data)

structure Cmd23SetTimePayload where
  serverTime : UInt32

def Cmd23SetTimePayload.build (p : Cmd23SetTimePayload) : Except String (List UInt8) :=
  validated 23 (putUint32 p.serverTime.toNat)

structure Cmd24AckPayload where
  commandSeq : UInt8
  code : UInt8

def Cmd24AckPayload.build (p : Cmd24AckPayload) : Except String (List UInt8) :=
  validated 24 [p.commandSeq, p.code]

def buildEmptyPayload (commandID : UInt8) : Except String (List UInt8) :=
  if commandID ∈ [9, 10, 17, 21, 22] then validated commandID []
  else .error s!"command {commandID} does not use empty payload builder"

end TcpAdapter.Protocol
