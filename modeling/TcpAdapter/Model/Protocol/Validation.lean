import Mathlib.Algebra.Group.Nat.Defs
import TcpAdapter.Model.Protocol.Messages

/-! # Payload validation

`validateServerCommandPayload` checks the bytes that follow the command id of a server
command. Each case of the source's switch is a definition of its own. -/

namespace TcpAdapter.Protocol

/-- Fail with `msg` unless `p` holds. -/
def need (p : Prop) [Decidable p] (msg : String) : Except String Unit :=
  if p then .ok () else .error msg

/-- Run the check for each index below `n`, in order. -/
def needAll (n : ℕ) (check : ℕ → Except String Unit) : Except String Unit :=
  (List.range n).forM check

def isBoolByte (v : UInt8) : Bool :=
  v == 0 || v == 1

/-! ## Record layouts -/

def cmd12RecordSize : ℕ := 608
def cmd12OffNetworkType : ℕ := 132
def cmd12OffAutoReboot : ℕ := 165
def cmd12OffSettingsByte : ℕ := 166
def cmd12OffRelay1 : ℕ := 191
def cmd12OffRelay2 : ℕ := 202

def isCmd12NetworkTypeValid (v : UInt8) : Bool :=
  v ≤ 4

def cmd13RecordSize : ℕ := 32
def cmd13OffSlot : ℕ := 0
def cmd13OffID : ℕ := 2
def cmd13OffGroup : ℕ := 12
def cmd13OffIDType : ℕ := 19

def isCmd13IDTypeValid (v : UInt8) : Bool :=
  v ≤ 7

def cmd14RecordSize : ℕ := 32
def cmd14OffSlot : ℕ := 0
def cmd14OffStartHour : ℕ := 1
def cmd14OffStartMinute : ℕ := 2
def cmd14OffEndHour : ℕ := 3
def cmd14OffEndMinute : ℕ := 4
def cmd14OffFlags : ℕ := 5
def cmd14OffScenes : ℕ := 13
def cmd14OffHolidayLogic : ℕ := 21

def cmd15RecordSize : ℕ := 16
def cmd15OffSlot : ℕ := 0
def cmd15OffSchedule : ℕ := 1
def cmd15OffPermFlags : ℕ := 2

/-- `i` is the index of the head of the list in the whole field. -/
def validatePaddedASCIIFrom : List UInt8 → ℕ → Bool → Except String Unit
  | [], _, _ => .ok ()
  | b :: rest, i, seenZero =>
      if b = 0 then validatePaddedASCIIFrom rest (i + 1) true
      else if seenZero then .error s!"non-zero byte after zero padding at index {i}"
      else if b > 127 then .error s!"non-ascii byte at index {i}"
      else validatePaddedASCIIFrom rest (i + 1) seenZero

def validatePaddedASCII (field : List UInt8) : Except String Unit :=
  validatePaddedASCIIFrom field 0 false

/-- The addition wraps at 32 bits, as the source's does. -/
def fwBlockCountForSize (fileSize : ℕ) : ℕ :=
  if fileSize = 0 then 0
  else
    let blocks := (fileSize + 1024 - 1) % 2 ^ 32 / 1024
    if blocks > 0xFFFF then 0xFFFF else blocks

/-! ## Fixed-size commands -/

/-- The length check shared by the fixed-size commands. -/
def needLength (payload : List UInt8) (n : ℕ) (msg : String) : Except String Unit :=
  need (payload.length = n) msg

def validateCmd1 (payload : List UInt8) : Except String Unit := do
  needLength payload 5 s!"cmd 1: payload must be 5 bytes, got={payload.length}"
  need (payload.getD 0 0 ≤ 5) s!"cmd 1: execution code out of range: {payload.getD 0 0}"

def validateCmd2 (payload : List UInt8) : Except String Unit :=
  needLength payload 1 s!"cmd 2: payload must be 1 byte, got={payload.length}"

def validateCmd3 (payload : List UInt8) : Except String Unit :=
  needLength payload 1 s!"cmd 3: payload must be 1 byte, got={payload.length}"

def validateCmd5 (payload : List UInt8) : Except String Unit := do
  needLength payload 16 s!"cmd 5: payload must be 16 bytes, got={payload.length}"
  needAll 8 fun i => need (isBoolByte (payload.getD i 0)) s!"cmd 5: flag {i} must be 0 or 1"
  needAll 8 fun i =>
    need (payload.getD (8 + i) 0 = 0) s!"cmd 5: reserved byte {8 + i} must be 0"

def validateCmd6 (payload : List UInt8) : Except String Unit := do
  needLength payload 3 s!"cmd 6: payload must be 3 bytes, got={payload.length}"
  need (payload.getD 1 0 ≤ 3) s!"cmd 6: interface out of range: {payload.getD 1 0}"
  if payload.getD 1 0 = 3 then
    need (payload.getD 2 0 ≠ 0) "cmd 6: network address must be 1..255 for interface 485"
  else
    need (payload.getD 2 0 = 0) "cmd 6: network address must be 0 for non-485 interface"

def validateCmd7 (payload : List UInt8) : Except String Unit := do
  needLength payload 1 s!"cmd 7: payload must be 1 byte, got={payload.length}"
  need (payload.getD 0 0 ≠ 0) "cmd 7: camera address 0 is reserved"

def validateCmd8 (payload : List UInt8) : Except String Unit := do
  needLength payload 3 s!"cmd 8: payload must be 3 bytes, got={payload.length}"
  need (payload.getD 0 0 ≠ 0) "cmd 8: source id 0 is reserved"
  need (payload.getD 1 0 ≤ 1 ∧ payload.getD 2 0 ≤ 1) "cmd 8: output states must be 0 or 1"

def validateCmd11 (payload : List UInt8) : Except String Unit := do
  needLength payload 60 s!"cmd 11: payload must be 60 bytes, got={payload.length}"
  needAll 10 fun i =>
    need (0x30 ≤ payload.getD i 0 ∧ payload.getD i 0 ≤ 0x39)
      "cmd 11: phone must contain only digits"

def validateCmd18 (payload : List UInt8) : Except String Unit := do
  needLength payload 1 "cmd 18: payload must be 1 byte"
  need (payload.getD 0 0 ≤ 100) s!"cmd 18: block out of range: {payload.getD 0 0}"

def validateCmd19 (payload : List UInt8) : Except String Unit := do
  needLength payload 16 s!"cmd 19: payload must be 16 bytes, got={payload.length}"
  need (uint16At payload 0 ≠ 0) "cmd 19: fw number cannot be 0"
  need (uint32At payload 6 ≠ 0) "cmd 19: file size cannot be 0"
  need (uint32At payload 10 ≠ 0) "cmd 19: file crc cannot be 0"
  let blocks := uint16At payload 14
  let want := fwBlockCountForSize (uint32At payload 6)
  need (blocks ≠ 0) "cmd 19: blocks cannot be 0"
  need (blocks = want) s!"cmd 19: blocks mismatch: got={blocks} want={want}"

def validateCmd20 (payload : List UInt8) : Except String Unit :=
  needLength payload 1026 s!"cmd 20: payload must be 1026 bytes, got={payload.length}"

def validateCmd23 (payload : List UInt8) : Except String Unit :=
  needLength payload 4 s!"cmd 23: payload must be 4 bytes, got={payload.length}"

def validateCmd24 (payload : List UInt8) : Except String Unit := do
  needLength payload 2 "cmd 24: payload must be 2 bytes"
  need (isAckExecutionCodeAllowed (payload.getD 1 0))
    s!"cmd 24: invalid execution code: {payload.getD 1 0}"

def validateCmd25 (payload : List UInt8) : Except String Unit := do
  needLength payload 281 s!"cmd 25: payload must be 281 bytes, got={payload.length}"
  need (payload.getD 0 0 ≤ 3) s!"cmd 25: error code out of range: {payload.getD 0 0}"

def validateCmd27 (payload : List UInt8) : Except String Unit := do
  need (¬ payload.length < 3) s!"cmd 27: payload too short: {payload.length}"
  let size := uint16At payload 1
  let got := (payload.drop 3).length
  need (got = size) s!"cmd 27: arg size mismatch: got={got} want={size}"

/-- Commands 9, 10, 17, 21 and 22 carry nothing. -/
def validateEmpty (name : String) (payload : List UInt8) : Except String Unit :=
  needLength payload 0 s!"{name}: payload must be empty"

/-! ## Counted commands

`[timestamp=4][count=1][count records]`. -/

/-- The part shared by the counted commands: the header, the range of the count and the
size of the whole payload. Command 12 words the range check differently. -/
def validateCounted (name : String) (maxCount recordSize : ℕ) (range : ℕ → String)
    (payload : List UInt8) : Except String ℕ := do
  need (¬ payload.length < 5) s!"{name}: payload too short: {payload.length}"
  let count := (payload.getD 4 0).toNat
  need (1 ≤ count ∧ count ≤ maxCount) (range count)
  let expected := 5 + count * recordSize
  need (payload.length = expected)
    s!"{name}: invalid payload size: got={payload.length} want={expected}"
  return count

def countOutOfRange (name : String) (count : ℕ) : String :=
  s!"{name}: count out of range: {count}"

def validateCmd12 (payload : List UInt8) : Except String Unit := do
  let _ ← validateCounted "cmd 12" 1 cmd12RecordSize (fun _ => "cmd 12: count must be 1") payload
  let rec12 := (payload.drop 5).take cmd12RecordSize
  let networkType := rec12.getD cmd12OffNetworkType 0
  need (isCmd12NetworkTypeValid networkType) s!"cmd 12: network type out of range: {networkType}"
  let hour := rec12.getD cmd12OffAutoReboot 0
  need (hour ≤ 23) s!"cmd 12: auto reboot hour out of range: {hour}"
  need (rec12.getD cmd12OffSettingsByte 0 ≤ 1 ∧ rec12.getD (cmd12OffSettingsByte + 1) 0 ≤ 1 ∧
      rec12.getD (cmd12OffSettingsByte + 2) 0 ≤ 1 ∧ rec12.getD (cmd12OffSettingsByte + 3) 0 ≤ 1)
    "cmd 12: boolean settings flags must be 0 or 1"
  needAll 8 fun i => do
    need (rec12.getD (cmd12OffRelay1 + i) 0 ≤ 1) s!"cmd 12: relay1 flag {i} must be 0 or 1"
    need (rec12.getD (cmd12OffRelay2 + i) 0 ≤ 1) s!"cmd 12: relay2 flag {i} must be 0 or 1"

def validateCmd13Record (i : ℕ) (record : List UInt8) : Except String Unit := do
  let slot := uint16At record cmd13OffSlot
  need (slot ≠ 0 ∧ slot ≤ 50000) s!"cmd 13: record {i} slot out of range: {slot}"
  match validatePaddedASCII ((record.drop cmd13OffID).take 10) with
  | .error err => .error s!"cmd 13: record {i} id: {err}"
  | .ok _ =>
      let group := record.getD cmd13OffGroup 0
      need (group ≤ 64) s!"cmd 13: record {i} group out of range: {group}"
      let idType := record.getD cmd13OffIDType 0
      need (isCmd13IDTypeValid idType) s!"cmd 13: record {i} id type out of range: {idType}"

def validateCmd14Record (i : ℕ) (record : List UInt8) : Except String Unit := do
  let slot := record.getD cmd14OffSlot 0
  need (1 ≤ slot ∧ slot ≤ 64) s!"cmd 14: record {i} slot out of range: {slot}"
  need (record.getD cmd14OffStartHour 0 ≤ 23 ∧ record.getD cmd14OffEndHour 0 ≤ 23)
    s!"cmd 14: record {i} hour out of range"
  need (record.getD cmd14OffStartMinute 0 ≤ 59 ∧ record.getD cmd14OffEndMinute 0 ≤ 59)
    s!"cmd 14: record {i} minute out of range"
  needAll 8 fun f =>
    need (isBoolByte (record.getD (cmd14OffFlags + f) 0))
      s!"cmd 14: record {i} flag {f} must be 0 or 1"
  needAll 8 fun s =>
    let scene := record.getD (cmd14OffScenes + s) 0
    need (scene ≤ 64) s!"cmd 14: record {i} scene {s} out of range: {scene}"
  let logic := record.getD cmd14OffHolidayLogic 0
  need (logic ≤ 3) s!"cmd 14: record {i} holiday logic out of range: {logic}"

def validateCmd15Record (i : ℕ) (record : List UInt8) : Except String Unit := do
  let slot := record.getD cmd15OffSlot 0
  need (1 ≤ slot ∧ slot ≤ 64) s!"cmd 15: record {i} slot out of range: {slot}"
  let sched := record.getD cmd15OffSchedule 0
  need (sched ≤ 64) s!"cmd 15: record {i} schedule out of range: {sched}"
  needAll 8 fun f =>
    need (isBoolByte (record.getD (cmd15OffPermFlags + f) 0))
      s!"cmd 15: record {i} permission flag {f} must be 0 or 1"

/-- The record loop of commands 13, 14 and 15. -/
def validateRecords (count recordSize : ℕ) (check : ℕ → List UInt8 → Except String Unit)
    (payload : List UInt8) : Except String Unit :=
  needAll count fun i => check i ((payload.drop (5 + i * recordSize)).take recordSize)

def validateCmd13 (payload : List UInt8) : Except String Unit := do
  let count ← validateCounted "cmd 13" 250 cmd13RecordSize (countOutOfRange "cmd 13") payload
  validateRecords count cmd13RecordSize validateCmd13Record payload

def validateCmd14 (payload : List UInt8) : Except String Unit := do
  let count ← validateCounted "cmd 14" 64 cmd14RecordSize (countOutOfRange "cmd 14") payload
  validateRecords count cmd14RecordSize validateCmd14Record payload

def validateCmd15 (payload : List UInt8) : Except String Unit := do
  let count ← validateCounted "cmd 15" 64 cmd15RecordSize (countOutOfRange "cmd 15") payload
  validateRecords count cmd15RecordSize validateCmd15Record payload

def validateCmd16 (payload : List UInt8) : Except String Unit := do
  let _ ← validateCounted "cmd 16" 255 4 (countOutOfRange "cmd 16") payload

/-! ## The switch -/

/-- Unknown command ids are not blocked here. -/
def validateServerCommandPayload (commandID : UInt8) (payload : List UInt8) :
    Except String Unit :=
  match commandID with
  | 1 => validateCmd1 payload
  | 2 => validateCmd2 payload
  | 3 => validateCmd3 payload
  | 5 => validateCmd5 payload
  | 6 => validateCmd6 payload
  | 7 => validateCmd7 payload
  | 8 => validateCmd8 payload
  | 9 => validateEmpty "cmd 9" payload
  | 10 => validateEmpty "cmd 10" payload
  | 11 => validateCmd11 payload
  | 12 => validateCmd12 payload
  | 13 => validateCmd13 payload
  | 14 => validateCmd14 payload
  | 15 => validateCmd15 payload
  | 16 => validateCmd16 payload
  | 17 => validateEmpty "cmd 17" payload
  | 18 => validateCmd18 payload
  | 19 => validateCmd19 payload
  | 20 => validateCmd20 payload
  | 21 => validateEmpty "cmd 21" payload
  | 22 => validateEmpty "cmd 22" payload
  | 23 => validateCmd23 payload
  | 24 => validateCmd24 payload
  | 25 => validateCmd25 payload
  | 27 => validateCmd27 payload
  | _ => .ok ()

end TcpAdapter.Protocol
