import TcpAdapter.Codec.Layout
import TcpAdapter.Model.Protocol.Validation

/-! # Typed payload builders

The builders of the commands with texts or records. A Go string is the list of its bytes, and
`copy` into a part of a byte slice is `writeAt`. Every builder ends by validating what it has
built. -/

namespace TcpAdapter.Protocol

open TcpAdapter.Codec

/-- An array `[n]T`. -/
abbrev Arr (n : ℕ) (α : Type) := { xs : List α // xs.length = n }

/-- Prefix an error. -/
def wrapError {α : Type} (context : String) : Except String α → Except String α
  | .error err => .error s!"{context}: {err}"
  | .ok x => .ok x

/-! ## Fields -/

/-- `make([]byte, n)` -/
def makeBytes (n : ℕ) : List UInt8 :=
  List.replicate n 0

def putUint64 (n : ℕ) : List UInt8 :=
  putUint32 (n % 2 ^ 32) ++ putUint32 (n / 2 ^ 32 % 2 ^ 32)

def boolToByte (v : Bool) : UInt8 :=
  if v then 1 else 0

/-- Copy a text byte by byte; the first byte that does not belong there is an error. -/
def copyText (allowed : UInt8 → Bool) (kind : String) :
    List UInt8 → ℕ → List UInt8 → Except String (List UInt8)
  | [], _, out => .ok out
  | b :: rest, i, out =>
      if allowed b then copyText allowed kind rest (i + 1) (writeAt out i [b])
      else .error s!"{kind} byte at index {i}"

def fixedASCII (s : List UInt8) (size : ℕ) : Except String (List UInt8) := do
  need (¬ s.length > size) s!"too long: len={s.length} max={size}"
  copyText (fun b => b ≤ 127) "non-ascii" s 0 (makeBytes size)

def fixedDigits (s : List UInt8) (size : ℕ) : Except String (List UInt8) := do
  need (s.length = size) s!"invalid length: len={s.length} want={size}"
  copyText (fun b => 0x30 ≤ b ∧ b ≤ 0x39) "non-digit" s 0 (makeBytes size)

/-! ## Command 11 -/

structure Cmd11SendSMSPayload where
  phone10 : List UInt8
  message : List UInt8

def Cmd11SendSMSPayload.build (p : Cmd11SendSMSPayload) : Except String (List UInt8) := do
  need (p.phone10.length = 10) "cmd 11: phone must be exactly 10 digits"
  let phone ← wrapError "cmd 11: phone" (fixedDigits p.phone10 10)
  let msg ← wrapError "cmd 11: message" (fixedASCII p.message 50)
  let out := makeBytes 60
  let out := writeAt out 0 phone
  let out := writeAt out 10 msg
  validateServerCommandPayload 11 out
  return out

/-! ## Command 12 -/

def cmd12OffPinCode : ℕ := 0
def cmd12OffServer1 : ℕ := 4
def cmd12OffServer2 : ℕ := 36
def cmd12OffNTPServer : ℕ := 68
def cmd12OffOperator : ℕ := 100
def cmd12OffCountryCode : ℕ := 133
def cmd12OffSimPhone : ℕ := 141
def cmd12OffUSSD : ℕ := 157
def cmd12OffWiegandType : ℕ := 174
def cmd12OffPeripheral : ℕ := 175
def cmd12OffInput1 : ℕ := 213
def cmd12OffInput2 : ℕ := 214
def cmd12OffReserveA : ℕ := 215
def cmd12OffReserveB : ℕ := 507

structure Cmd12Peripheral where
  address : UInt8
  type : UInt8

structure Cmd12RelaySettings where
  flags : Arr 8 UInt8
  impulseSec : UInt8
  pauseSec : UInt8
  repeats : UInt8

structure Cmd12SettingsRecord where
  pinCode : UInt32
  server1 : List UInt8
  server2 : List UInt8
  ntpServer : List UInt8
  operator : List UInt8
  networkType : UInt8
  countryCode : List UInt8
  simPhone : List UInt8
  ussd : List UInt8
  autoRebootHour : UInt8
  extendedDebug : Bool
  useVoLTE : Bool
  interface485Active : Bool
  ntpEnabled : Bool
  wiegandType : UInt8
  peripherals : Arr 8 Cmd12Peripheral
  relay1 : Cmd12RelaySettings
  relay2 : Cmd12RelaySettings
  input1Function : UInt8
  input2Function : UInt8
  reserveA : Arr 292 UInt8
  reserveB : Arr 101 UInt8

def validateRelayFlags (flags : Arr 8 UInt8) : Except String Unit :=
  needAll 8 fun i => need (¬ flags.1.getD i 0 > 1) s!"flag {i} must be 0 or 1"

def writePeripherals : List Cmd12Peripheral → ℕ → List UInt8 → List UInt8
  | [], _, out => out
  | p :: rest, off, out =>
      let out := writeAt out off [p.address]
      let out := writeAt out (off + 1) [p.type]
      writePeripherals rest (off + 2) out

def writeRelay (base : ℕ) (relay : Cmd12RelaySettings) (out : List UInt8) : List UInt8 :=
  let out := writeAt out base relay.flags.1
  let out := writeAt out (base + 8) [relay.impulseSec]
  let out := writeAt out (base + 9) [relay.pauseSec]
  writeAt out (base + 10) [relay.repeats]

/-- The assignments at the end of `Cmd12SettingsRecord.build`. Four of the eight settings bytes
are written; the others stay zero. -/
def Cmd12SettingsRecord.write (r : Cmd12SettingsRecord)
    (s1 s2 ntp op cc sim ussd : List UInt8) : List UInt8 :=
  let out := makeBytes cmd12RecordSize
  let out := writeAt out cmd12OffPinCode (putUint32 r.pinCode.toNat)
  let out := writeAt out cmd12OffServer1 s1
  let out := writeAt out cmd12OffServer2 s2
  let out := writeAt out cmd12OffNTPServer ntp
  let out := writeAt out cmd12OffOperator op
  let out := writeAt out cmd12OffNetworkType [r.networkType]
  let out := writeAt out cmd12OffCountryCode cc
  let out := writeAt out cmd12OffSimPhone sim
  let out := writeAt out cmd12OffUSSD ussd
  let out := writeAt out cmd12OffAutoReboot [r.autoRebootHour]
  let out := writeAt out cmd12OffSettingsByte [boolToByte r.extendedDebug]
  let out := writeAt out (cmd12OffSettingsByte + 1) [boolToByte r.useVoLTE]
  let out := writeAt out (cmd12OffSettingsByte + 2) [boolToByte r.interface485Active]
  let out := writeAt out (cmd12OffSettingsByte + 3) [boolToByte r.ntpEnabled]
  let out := writeAt out cmd12OffWiegandType [r.wiegandType]
  let out := writePeripherals r.peripherals.1 cmd12OffPeripheral out
  let out := writeRelay cmd12OffRelay1 r.relay1 out
  let out := writeRelay cmd12OffRelay2 r.relay2 out
  let out := writeAt out cmd12OffInput1 [r.input1Function]
  let out := writeAt out cmd12OffInput2 [r.input2Function]
  let out := writeAt out cmd12OffReserveA r.reserveA.1
  writeAt out cmd12OffReserveB r.reserveB.1

def Cmd12SettingsRecord.build (r : Cmd12SettingsRecord) : Except String (List UInt8) := do
  need (isCmd12NetworkTypeValid r.networkType)
    s!"cmd 12: network type out of range: {r.networkType}"
  need (¬ r.autoRebootHour > 23) s!"cmd 12: auto reboot hour out of range: {r.autoRebootHour}"
  wrapError "cmd 12 relay1" (validateRelayFlags r.relay1.flags)
  wrapError "cmd 12 relay2" (validateRelayFlags r.relay2.flags)
  let s1 ← wrapError "cmd 12 server1" (fixedASCII r.server1 32)
  let s2 ← wrapError "cmd 12 server2" (fixedASCII r.server2 32)
  let ntp ← wrapError "cmd 12 ntp server" (fixedASCII r.ntpServer 32)
  let op ← wrapError "cmd 12 operator" (fixedASCII r.operator 32)
  let cc ← wrapError "cmd 12 country code" (fixedASCII r.countryCode 8)
  let sim ← wrapError "cmd 12 sim phone" (fixedASCII r.simPhone 16)
  let ussd ← wrapError "cmd 12 ussd" (fixedASCII r.ussd 8)
  return r.write s1 s2 ntp op cc sim ussd

structure Cmd12SettingsPayload where
  timestamp : UInt32
  record : Cmd12SettingsRecord

def Cmd12SettingsPayload.build (p : Cmd12SettingsPayload) : Except String (List UInt8) := do
  let record ← p.record.build
  let out := makeBytes (5 + cmd12RecordSize)
  let out := writeAt out 0 (putUint32 p.timestamp.toNat)
  let out := writeAt out 4 [1]
  let out := writeAt out 5 record
  validateServerCommandPayload 12 out
  return out

/-! ## Counted commands -/

/-- The loop over the records. -/
def putRecords {ρ : Type} (name : String) (size : ℕ) (build : ρ → Except String (List UInt8)) :
    List ρ → ℕ → ℕ → List UInt8 → Except String (List UInt8)
  | [], _, _, out => .ok out
  | record :: rest, i, off, out => do
      let b ← wrapError s!"{name}: record {i}" (build record)
      putRecords name size build rest (i + 1) (off + size) (writeAt out off b)

/-- The builder shared by the structured forms of commands 13, 14 and 15. -/
def buildCounted {ρ : Type} (name : String) (commandID : UInt8) (maxCount size : ℕ)
    (build : ρ → Except String (List UInt8)) (timestamp : UInt32) (records : List ρ) :
    Except String (List UInt8) := do
  need (¬ (records.length < 1 ∨ records.length > maxCount))
    s!"{name}: records count out of range: {records.length}"
  let out := makeBytes (5 + records.length * size)
  let out := writeAt out 0 (putUint32 timestamp.toNat)
  let out := writeAt out 4 [UInt8.ofNat records.length]
  let out ← putRecords name size build records 0 5 out
  validateServerCommandPayload commandID out
  return out

/-- The loop over records that are bytes already. -/
def copyRecords (name : String) (size : ℕ) :
    List (List UInt8) → ℕ → ℕ → List UInt8 → Except String (List UInt8)
  | [], _, _, out => .ok out
  | record :: rest, i, off, out => do
      need (record.length = size) s!"{name}: record {i} size must be {size}"
      copyRecords name size rest (i + 1) (off + size) (writeAt out off record)

/-- The builder shared by the raw forms of commands 13, 14 and 15. -/
def buildRaw (name : String) (commandID : UInt8) (maxCount size : ℕ) (timestamp : UInt32)
    (records : List (List UInt8)) : Except String (List UInt8) := do
  need (¬ (records.length < 1 ∨ records.length > maxCount))
    s!"{name}: records count out of range: {records.length}"
  let out := makeBytes (5 + records.length * size)
  let out := writeAt out 0 (putUint32 timestamp.toNat)
  let out := writeAt out 4 [UInt8.ofNat records.length]
  let out ← copyRecords name size records 0 5 out
  validateServerCommandPayload commandID out
  return out

/-! ### Command 13 -/

structure Cmd13SyncIDPayload where
  timestamp : UInt32
  records : List (List UInt8)

def Cmd13SyncIDPayload.build (p : Cmd13SyncIDPayload) : Except String (List UInt8) :=
  buildRaw "cmd 13" 13 250 32 p.timestamp p.records

def cmd13OffBanDate : ℕ := 13
def cmd13OffLifetime : ℕ := 17
def cmd13OffReserve : ℕ := 20

structure Cmd13IDRecord where
  slotIndex : UInt16
  id : List UInt8
  group : UInt8
  banDate : UInt32
  lifetimeMinutes : UInt16
  idType : UInt8
  reserve : Arr 12 UInt8

def Cmd13IDRecord.build (r : Cmd13IDRecord) : Except String (List UInt8) := do
  need (¬ (r.slotIndex = 0 ∨ r.slotIndex > 50000)) s!"cmd 13: slot out of range: {r.slotIndex}"
  need (¬ r.group > 64) s!"cmd 13: group out of range: {r.group}"
  need (isCmd13IDTypeValid r.idType) s!"cmd 13: id type out of range: {r.idType}"
  let idBytes ← wrapError "cmd 13: id" (fixedASCII r.id 10)
  let out := makeBytes cmd13RecordSize
  let out := writeAt out cmd13OffSlot (putUint16 r.slotIndex.toNat)
  let out := writeAt out cmd13OffID idBytes
  let out := writeAt out cmd13OffGroup [r.group]
  let out := writeAt out cmd13OffBanDate (putUint32 r.banDate.toNat)
  let out := writeAt out cmd13OffLifetime (putUint16 r.lifetimeMinutes.toNat)
  let out := writeAt out cmd13OffIDType [r.idType]
  return writeAt out cmd13OffReserve r.reserve.1

structure Cmd13SyncIDStructuredPayload where
  timestamp : UInt32
  records : List Cmd13IDRecord

def Cmd13SyncIDStructuredPayload.build (p : Cmd13SyncIDStructuredPayload) :
    Except String (List UInt8) :=
  buildCounted "cmd 13" 13 250 cmd13RecordSize Cmd13IDRecord.build p.timestamp p.records

/-! ### Commands 14 and 15

Their records are checked by the validator of the whole command, as the only record of a
payload. -/

/-- A payload with this record and nothing else. -/
def singleRecord (size : ℕ) (record : List UInt8) : List UInt8 :=
  let p := makeBytes (5 + size)
  let p := writeAt p 4 [1]
  writeAt p 5 record

structure Cmd14SyncSchedulePayload where
  timestamp : UInt32
  records : List (List UInt8)

def Cmd14SyncSchedulePayload.build (p : Cmd14SyncSchedulePayload) : Except String (List UInt8) :=
  buildRaw "cmd 14" 14 64 32 p.timestamp p.records

def cmd14OffReserve : ℕ := 22

structure Cmd14ScheduleRecord where
  slot : UInt8
  startHour : UInt8
  startMinute : UInt8
  endHour : UInt8
  endMinute : UInt8
  flags : Arr 8 UInt8
  scenes : Arr 8 UInt8
  holidayLogic : UInt8
  reserve : Arr 10 UInt8

def Cmd14ScheduleRecord.build (r : Cmd14ScheduleRecord) : Except String (List UInt8) := do
  let out := makeBytes cmd14RecordSize
  let out := writeAt out cmd14OffSlot [r.slot]
  let out := writeAt out cmd14OffStartHour [r.startHour]
  let out := writeAt out cmd14OffStartMinute [r.startMinute]
  let out := writeAt out cmd14OffEndHour [r.endHour]
  let out := writeAt out cmd14OffEndMinute [r.endMinute]
  let out := writeAt out cmd14OffFlags r.flags.1
  let out := writeAt out cmd14OffScenes r.scenes.1
  let out := writeAt out cmd14OffHolidayLogic [r.holidayLogic]
  let out := writeAt out cmd14OffReserve r.reserve.1
  validateServerCommandPayload 14 (singleRecord cmd14RecordSize out)
  return out

structure Cmd14SyncScheduleStructuredPayload where
  timestamp : UInt32
  records : List Cmd14ScheduleRecord

def Cmd14SyncScheduleStructuredPayload.build (p : Cmd14SyncScheduleStructuredPayload) :
    Except String (List UInt8) :=
  buildCounted "cmd 14" 14 64 cmd14RecordSize Cmd14ScheduleRecord.build p.timestamp p.records

structure Cmd15SyncGroupPayload where
  timestamp : UInt32
  records : List (List UInt8)

def Cmd15SyncGroupPayload.build (p : Cmd15SyncGroupPayload) : Except String (List UInt8) :=
  buildRaw "cmd 15" 15 64 16 p.timestamp p.records

def cmd15OffReserve : ℕ := 10

structure Cmd15GroupRecord where
  slot : UInt8
  schedule : UInt8
  permissions : Arr 8 UInt8
  reserve : Arr 6 UInt8

def Cmd15GroupRecord.build (r : Cmd15GroupRecord) : Except String (List UInt8) := do
  let out := makeBytes cmd15RecordSize
  let out := writeAt out cmd15OffSlot [r.slot]
  let out := writeAt out cmd15OffSchedule [r.schedule]
  let out := writeAt out cmd15OffPermFlags r.permissions.1
  let out := writeAt out cmd15OffReserve r.reserve.1
  validateServerCommandPayload 15 (singleRecord cmd15RecordSize out)
  return out

structure Cmd15SyncGroupStructuredPayload where
  timestamp : UInt32
  records : List Cmd15GroupRecord

def Cmd15SyncGroupStructuredPayload.build (p : Cmd15SyncGroupStructuredPayload) :
    Except String (List UInt8) :=
  buildCounted "cmd 15" 15 64 cmd15RecordSize Cmd15GroupRecord.build p.timestamp p.records

/-! ### Command 16 -/

structure Cmd16SyncHolidayPayload where
  timestamp : UInt32
  days : List UInt32

def putDays : List UInt32 → ℕ → List UInt8 → List UInt8
  | [], _, out => out
  | d :: rest, off, out => putDays rest (off + 4) (writeAt out off (putUint32 d.toNat))

def Cmd16SyncHolidayPayload.build (p : Cmd16SyncHolidayPayload) : Except String (List UInt8) := do
  need (¬ (p.days.length < 1 ∨ p.days.length > 255))
    s!"cmd 16: days count out of range: {p.days.length}"
  let out := makeBytes (5 + p.days.length * 4)
  let out := writeAt out 0 (putUint32 p.timestamp.toNat)
  let out := writeAt out 4 [UInt8.ofNat p.days.length]
  let out := putDays p.days 5 out
  validateServerCommandPayload 16 out
  return out

/-! ## Command 19 -/

structure Cmd19StartFWPayload where
  firmwareNumber : UInt16
  buildTimestamp : UInt32
  fileSize : UInt32
  fileCRC : UInt32
  blockCount : UInt16

/-- A block count of zero is computed from the file size. -/
def Cmd19StartFWPayload.build (p : Cmd19StartFWPayload) : Except String (List UInt8) := do
  need (p.fileSize ≠ 0) "cmd 19: file size cannot be 0"
  need (p.fileCRC ≠ 0) "cmd 19: file crc cannot be 0"
  let want := fwBlockCountForSize p.fileSize.toNat
  let blockCount := if p.blockCount = 0 then want else p.blockCount.toNat
  need (blockCount = want) "cmd 19: block count does not match file size"
  let out := makeBytes 16
  let out := writeAt out 0 (putUint16 p.firmwareNumber.toNat)
  let out := writeAt out 2 (putUint32 p.buildTimestamp.toNat)
  let out := writeAt out 6 (putUint32 p.fileSize.toNat)
  let out := writeAt out 10 (putUint32 p.fileCRC.toNat)
  let out := writeAt out 14 (putUint16 blockCount)
  validateServerCommandPayload 19 out
  return out

/-! ## Commands 25 and 27 -/

structure Cmd25BindingResponsePayload where
  errorCode : UInt8
  objectNumber : UInt64
  objectNumberRaw : List UInt8
  objectName : List UInt8
  controllerName : List UInt8
  adminPhone : List UInt8

def Cmd25BindingResponsePayload.build (p : Cmd25BindingResponsePayload) :
    Except String (List UInt8) := do
  need (¬ (p.objectNumber ≠ 0 ∧ p.objectNumberRaw.length > 0))
    "cmd 25: use either ObjectNumber or ObjectNumberRaw, not both"
  need (¬ p.objectNumberRaw.length > 8)
    s!"cmd 25: object number too long: {p.objectNumberRaw.length}"
  let name ← wrapError "cmd 25: object name" (fixedASCII p.objectName 128)
  let controller ← wrapError "cmd 25: controller name" (fixedASCII p.controllerName 128)
  let phone ← wrapError "cmd 25: admin phone" (fixedASCII p.adminPhone 16)
  let out := makeBytes 281
  let out := writeAt out 0 [p.errorCode]
  let out :=
    if p.objectNumberRaw.length > 0 then writeAt out 1 p.objectNumberRaw
    else writeAt out 1 (putUint64 p.objectNumber.toNat)
  let out := writeAt out 9 name
  let out := writeAt out 137 controller
  let out := writeAt out 265 phone
  validateServerCommandPayload 25 out
  return out

structure Cmd27CustomPayload where
  customCommand : UInt8
  argument : List UInt8

def Cmd27CustomPayload.build (p : Cmd27CustomPayload) : Except String (List UInt8) := do
  need (¬ p.argument.length > 0xFFFF) "cmd 27: argument too large"
  let out := makeBytes (3 + p.argument.length)
  let out := writeAt out 0 [p.customCommand]
  let out := writeAt out 1 (putUint16 p.argument.length)
  let out := writeAt out 3 p.argument
  validateServerCommandPayload 27 out
  return out

end TcpAdapter.Protocol
