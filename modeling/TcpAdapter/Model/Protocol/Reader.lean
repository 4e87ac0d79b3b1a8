import TcpAdapter.Codec.Stream
import TcpAdapter.Model.Protocol.Messages

/-! # Reading frames

`ReadFrameWithMode` takes one frame off a byte stream. The stream holds the bytes that
arrive before the connection ends or its read deadline passes; `ended` is the error of a
read beyond them. -/

namespace TcpAdapter.Protocol

open TcpAdapter.Codec (Reader)

inductive ReadError where
  | eof
  | unexpectedEOF
  | timeout
  | invalidMarker
  | frameTooShort
  | crc
  deriving DecidableEq, Repr

/-- `io.ReadFull`: the end of the stream is unexpected if some of the bytes are there. -/
def readFull (ended : ReadError) (n : ℕ) : Reader UInt8 ReadError (List UInt8) := fun stream =>
  if n ≤ stream.length then (.ok (stream.take n), stream.drop n)
  else (.error (if ended = .eof ∧ stream ≠ [] then .unexpectedEOF else ended), [])

def compactFrame (data : List UInt8) : Frame :=
  ⟨data.getD 0 0, 0, data.drop 1, .compact⟩

def sequencedFrame (data : List UInt8) : Frame :=
  ⟨data.getD 0 0, data.getD 1 0, data.drop 2, .sequenced⟩

/-- Guess the layout of the first frame of a connection: a registration if it is one in
either layout, and else by its command id. -/
def readAutoFrame (data : List UInt8) : Except ReadError Frame :=
  if data.length < 2 then .error .frameTooShort
  else
    let compact := compactFrame data
    if (parseRegistrationPayload compact.payload).isOk then .ok compact
    else if data.length < 3 then .ok compact
    else
      let sequenced := sequencedFrame data
      if (parseRegistrationPayload sequenced.payload).isOk then .ok sequenced
      else
        let compactOK := compact.commandID.isSome
        let sequencedOK := sequenced.commandID.isSome
        let compactCmd := compact.commandID.getD 0
        let sequencedCmd := sequenced.commandID.getD 0
        if compactOK && !sequencedOK then .ok compact
        else if sequencedOK && !compactOK then .ok sequenced
        else if compactOK && !isKnownCommandID sequencedCmd && isKnownCommandID compactCmd then
          .ok compact
        else if sequencedOK && !isKnownCommandID compactCmd && isKnownCommandID sequencedCmd then
          .ok sequenced
        else .ok compact

/-- The switch on the reader's mode, for data whose checksum is right. -/
def decodeData (mode : FrameMode) (data : List UInt8) : Except ReadError Frame :=
  match mode with
  | .compact => if data.length < 2 then .error .frameTooShort else .ok (compactFrame data)
  | .auto => readAutoFrame data
  | .sequenced => if data.length < 3 then .error .frameTooShort else .ok (sequencedFrame data)

def readFrameWithMode (ended : ReadError) (mode : FrameMode) :
    Reader UInt8 ReadError Frame := fun stream =>
  match readFull ended 6 stream with
  | (.error err, rest) => (.error err, rest)
  | (.ok header, rest) =>
      if header.take 4 ≠ startMarker then (.error .invalidMarker, rest)
      else
        let dataLen := uint16At header 4
        if dataLen < 1 then (.error .frameTooShort, rest)
        else
          match readFull ended (dataLen + 2) rest with
          | (.error err, rest) => (.error err, rest)
          | (.ok dataAndCRC, rest) =>
              let data := dataAndCRC.take dataLen
              let wireCRC := uint16At dataAndCRC dataLen
              let calcCRC := (crc16Modbus (header.drop 4 ++ data)).toNat
              if wireCRC ≠ calcCRC then (.error .crc, rest)
              else (decodeData mode data, rest)

end TcpAdapter.Protocol
