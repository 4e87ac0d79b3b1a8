import Mathlib.Data.Nat.Notation

/-! # Wire frames

`SLDN`, a little-endian length, the data and a CRC-16/MODBUS over length and data. The
data is the TTL byte, the sequence byte unless the frame is compact, and the payload. -/

namespace TcpAdapter.Protocol

/-! ## CRC-16/MODBUS -/

def crcBit (crc : UInt16) : UInt16 :=
  if crc &&& 1 ≠ 0 then (crc >>> 1) ^^^ 0xA001 else crc >>> 1

def crcBits : ℕ → UInt16 → UInt16
  | 0, crc => crc
  | n + 1, crc => crcBits n (crcBit crc)

def crcByte (crc : UInt16) (b : UInt8) : UInt16 :=
  crcBits 8 (crc ^^^ b.toUInt16)

def crc16Modbus (data : List UInt8) : UInt16 :=
  data.foldl crcByte 0xFFFF

/-! ## Little-endian integers -/

def putUint16 (n : ℕ) : List UInt8 :=
  [UInt8.ofNat (n % 256), UInt8.ofNat (n / 256 % 256)]

/-- `binary.LittleEndian.Uint16` of the two bytes at offset `off`. -/
def uint16At (bytes : List UInt8) (off : ℕ) : ℕ :=
  (bytes.getD off 0).toNat + 256 * (bytes.getD (off + 1) 0).toNat

/-- `binary.LittleEndian.Uint32` of the four bytes at offset `off`. -/
def uint32At (bytes : List UInt8) (off : ℕ) : ℕ :=
  uint16At bytes off + 65536 * uint16At bytes (off + 2)

def putUint32 (n : ℕ) : List UInt8 :=
  putUint16 (n % 65536) ++ putUint16 (n / 65536 % 65536)

/-! ## Encoding -/

def startMarker : List UInt8 :=
  [0x53, 0x4C, 0x44, 0x4E]

inductive FrameMode where
  | auto
  | sequenced
  | compact
  deriving DecidableEq, Repr

structure Frame where
  ttl : UInt8
  seq : UInt8
  payload : List UInt8
  mode : FrameMode
  deriving DecidableEq

/-- The bytes the length field counts. -/
def Frame.data (f : Frame) : List UInt8 :=
  match f.mode with
  | .compact => f.ttl :: f.payload
  | _ => f.ttl :: f.seq :: f.payload

def Frame.commandID (f : Frame) : Option UInt8 :=
  f.payload.head?

def encodeFrame (f : Frame) : Except String (List UInt8) :=
  if f.payload.length = 0 then .error "payload must include command id"
  else
    let dataLen := f.data.length
    if dataLen > 0xFFFF then .error s!"frame too large: {dataLen}"
    else
      let body := putUint16 dataLen ++ f.data
      .ok (startMarker ++ body ++ putUint16 (crc16Modbus body).toNat)

/-- `hex.EncodeToString` -/
def encodeToString (bytes : List UInt8) : String :=
  let digit (n : ℕ) := "0123456789abcdef".toList.getD n '0'
  String.ofList (bytes.flatMap fun b => [digit (b.toNat / 16), digit (b.toNat % 16)])

/-- The bytes of a received frame, for the log of raw messages. -/
def encodeFrameHex (f : Frame) : String :=
  match encodeFrame f with
  | .error _ => ""
  | .ok wire => encodeToString wire

end TcpAdapter.Protocol
