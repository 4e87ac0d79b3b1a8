import Mathlib.Data.List.AList
import TcpAdapter.Codec.Strings
import TcpAdapter.Model.Protocol.Messages

/-! # Counters of acknowledgements

`publishAck` counts the outcomes of commands by a key that has the status and the reason in it,
and `metricsHandler` takes the key apart again. Strings are lists of bytes. `lower` is
`unicode.ToLower`. -/

namespace TcpAdapter.Server

open TcpAdapter.Codec TcpAdapter.Protocol

/-- The statuses are strings in the source. -/
def statusText : AckStatus → List UInt8
  | .accepted => ascii "accepted"
  | .delivered => ascii "delivered"
  | .failed => ascii "failed"
  | .expired => ascii "expired"
  | .duplicate => ascii "duplicate"
  | .unsupported => ascii "unsupported"
  | .inProgress => ascii "in_progress"
  | .retrying => ascii "retrying"

/-! ## The reason -/

/-- What stands before the first occurrence of a byte, if anything does. -/
def cutAt (c : UInt8) (r : List UInt8) : Option (List UInt8) :=
  match r.idxOf? c with
  | some (i + 1) => some (r.take (i + 1))
  | _ => none

def normalizeReasonLabel (lower : ℕ → ℕ) (reason : List UInt8) : List UInt8 :=
  let r := Codec.trimSpace reason
  if r = [] then ascii "unspecified"
  else
    let r :=
      match cutAt 0x3B r with
      | some front => Codec.trimSpace front
      | none => r
    let r :=
      match cutAt 0x3A r with
      | some front => if Codec.trimSpace front = [] then r else Codec.trimSpace front
      | none => r
    let r := toLower lower r
    let r := r.map fun b => if b = 0x20 then 0x5F else b
    let r := if r.length > 48 then r.take 48 else r
    if r = [] then ascii "unspecified" else r

/-! ## The key -/

def ackTerminalReasonKey (lower : ℕ → ℕ) (status : AckStatus) (reason : List UInt8) : List UInt8 :=
  ascii "status=" ++ statusText status ++ ascii ",reason=" ++ normalizeReasonLabel lower reason

/-- `map[string]string` -/
abbrev Labels := List UInt8 → Option (List UInt8)

def Labels.pair (status reason : List UInt8) : Labels :=
  Function.update (Function.update (fun _ => none) (ascii "status") (some status))
    (ascii "reason") (some reason)

/-- One round of the loop: a part without `=` is skipped. -/
def Labels.read (out : Labels) (p : List UInt8) : Labels :=
  match p.idxOf? 0x3D with
  | none => out
  | some i => Function.update out (p.take i) (some (p.drop (i + 1)))

def parseAckTerminalReasonKey (key : List UInt8) : Labels :=
  (key.splitOn 0x2C).foldl Labels.read (.pair [] [])

/-! ## The counters -/

structure AckCounters where
  ackStats : AckStatus → UInt64 := fun _ => 0
  ackTerminalReasonStats : AList fun _ : List UInt8 => UInt64 := ∅

def AckCounters.publishAck (lower : ℕ → ℕ) (m : AckCounters) (status : AckStatus)
    (reason : List UInt8) : AckCounters :=
  let m := { m with ackStats := Function.update m.ackStats status (m.ackStats status + 1) }
  if isTerminalAckStatus status then
    let key := ackTerminalReasonKey lower status reason
    let n := (m.ackTerminalReasonStats.lookup key).getD 0
    { m with ackTerminalReasonStats := m.ackTerminalReasonStats.insert key (n + 1) }
  else m

/-- A line of `tcpadapter_ack_terminal_total`. -/
structure Series where
  status : List UInt8
  reason : List UInt8
  count : UInt64

/-- The part of `metricsHandler` that writes `tcpadapter_ack_terminal_total`. -/
def AckCounters.terminalSeries (m : AckCounters) : List Series :=
  (m.ackTerminalReasonStats.keys.mergeSort fun k k' => decide (k ≤ k')).map fun k =>
    let labels := parseAckTerminalReasonKey k
    { status := (labels (ascii "status")).getD []
      reason := (labels (ascii "reason")).getD []
      count := (m.ackTerminalReasonStats.lookup k).getD 0 }

end TcpAdapter.Server
