import TcpAdapter.Codec.Strings
import TcpAdapter.Model.Protocol.Builders

/-! # The command builder: holidays

`parseUint32CSV` reads the days of the debug endpoint's command builder from a text. Strings are
lists of bytes. -/

namespace TcpAdapter.Server

open TcpAdapter.Codec TcpAdapter.Protocol

/-- What is left open about the package `fmt`: whether `%d` accepts a plus sign in front of an
unsigned number, and what `%q` makes of a string. -/
structure Fmt where
  acceptsPlus : Bool
  quote : List UInt8 → String

def isDecimal (b : UInt8) : Bool :=
  0x30 ≤ b && b ≤ 0x39

def decimalValue (digits : List UInt8) : ℕ :=
  digits.foldl (fun n d => 10 * n + (d.toNat - 0x30)) 0

def Fmt.skipPlus (fmt : Fmt) (part : List UInt8) : List UInt8 :=
  if fmt.acceptsPlus ∧ part.head? = some 0x2B then part.tail else part

/-- `Sscanf(part, "%d", &value)` reads the leading digits and ignores the rest. -/
def Fmt.scanUint32 (fmt : Fmt) (part : List UInt8) : Option UInt32 :=
  let digits := (fmt.skipPlus part).takeWhile isDecimal
  if digits = [] then none
  else if decimalValue digits < 2 ^ 32 then some (UInt32.ofNat (decimalValue digits))
  else none

variable (fmt : Fmt)

/-- The loop of `parseUint32CSV`. -/
def parseParts : List (List UInt8) → List UInt32 → Except String (List UInt32)
  | [], out => .ok out
  | part :: parts, out =>
      let part := Codec.trimSpace part
      if part = [] then parseParts parts out
      else
        match fmt.scanUint32 part with
        | none => .error ("invalid uint32 value " ++ fmt.quote part)
        | some value => parseParts parts (out ++ [value])

def parseUint32CSV (s : List UInt8) : Except String (List UInt32) :=
  match parseParts fmt ((Codec.trimSpace s).splitOn 0x2C) [] with
  | .error err => .error err
  | .ok out =>
      if out.length = 0 then .error "days_csv must contain at least one unix day" else .ok out

/-- The case `CmdSyncHolidays` of `buildCommandPayload`. -/
def buildSyncHolidays (timestamp : UInt32) (daysCSV : List UInt8) : Except String (List UInt8) := do
  let days ← parseUint32CSV fmt daysCSV
  Cmd16SyncHolidayPayload.build ⟨timestamp, days⟩

end TcpAdapter.Server
