import Mathlib.Algebra.Group.Nat.Defs
import Mathlib.Logic.Function.Basic
import TcpAdapter.Model.Queue
import TcpAdapter.Model.Protocol.Frame

/-! # Sessions

What `session.Manager` and its store hold for one controller, and the manager's methods
on it. A method that saves takes `save`, the error of its `SaveSession` call if that call
fails. Times a method reads from the clock are arguments. -/

namespace TcpAdapter.Manager

open TcpAdapter.Queue
open TcpAdapter.Protocol (FrameMode)

abbrev ConnID := ℕ

/-! ## Errors -/

/-- The errors of the delivery path. `text` is any other error, known by its message. -/
inductive Error where
  | sessionExists
  | sessionNotFound
  | duplicate
  | queueFull
  | queueBytesFull
  | text (msg : String)
  deriving DecidableEq, Repr

def Error.message : Error → String
  | .sessionExists => "controller session already exists"
  | .sessionNotFound => "controller session not found"
  | .duplicate => "duplicate command"
  | .queueFull => "controller queue is full"
  | .queueBytesFull => "controller queue bytes limit exceeded"
  | .text msg => msg

/-! ## The in-flight table -/

structure InFlightEntry where
  seq : UInt8
  command : Command
  sentAt : Time
  attempts : Int
  deriving DecidableEq, Repr

/-- A map with `uint8` keys. -/
abbrev InFlight := UInt8 → Option InFlightEntry

def allSeqs : List UInt8 :=
  (List.range 256).map UInt8.ofNat

/-- The entries, by sequence number. The source's map iteration has no fixed order. -/
def InFlight.entries (m : InFlight) : List InFlightEntry :=
  allSeqs.filterMap m

def InFlight.count (m : InFlight) : ℕ :=
  m.entries.length

/-! ## Sessions and snapshots -/

structure Session where
  controllerID : String
  conn : Option ConnID
  queue : ControllerQueue := {}
  lastSeen : Time
  lastTouchedPersistedAt : Time
  bufferFree : Int := 1500
  fwMode : Bool := false
  syncMode : Bool := false
  dedup : String → Option Time := fun _ => none
  inFlight : InFlight := fun _ => none
  nextSeq : UInt8 := 0
  frameMode : FrameMode := .sequenced

structure DeliveryContext where
  conn : Option ConnID
  bufferFree : Int
  fwMode : Bool
  syncMode : Bool
  frameMode : FrameMode

structure InFlightSnapshot where
  seq : UInt8
  command : Command
  sentAt : Time
  attempts : Int

structure SessionSnapshot where
  controllerID : String
  lastSeen : Time
  bufferFree : Int
  fwMode : Bool
  syncMode : Bool
  pending : List Command
  inFlight : List InFlightSnapshot
  nextSeq : UInt8

/-- The snapshot that `persistLocked` hands to the store. -/
def Session.snapshot (s : Session) : SessionSnapshot where
  controllerID := s.controllerID
  lastSeen := s.lastSeen
  bufferFree := s.bufferFree
  fwMode := s.fwMode
  syncMode := s.syncMode
  pending := s.queue.snapshot
  inFlight := s.inFlight.entries.map fun v => ⟨v.seq, v.command, v.sentAt, v.attempts⟩
  nextSeq := s.nextSeq

/-- The session of a controller seen for the first time. -/
def Session.new (controllerID : String) (conn : Option ConnID) (now : Time) : Session where
  controllerID := controllerID
  conn := conn
  lastSeen := now
  lastTouchedPersistedAt := now

def Session.deliveryContext (s : Session) : DeliveryContext :=
  ⟨s.conn, s.bufferFree, s.fwMode, s.syncMode, s.frameMode⟩

/-- A controller that reconnects takes its session over. -/
def Session.attach (s : Session) (conn : ConnID) (now : Time) : Session :=
  { s with
    conn := some conn
    lastSeen := now
    bufferFree := if s.bufferFree ≤ 0 then 1500 else s.bufferFree }

/-- Rebuild the in-flight table of a snapshot; a later entry wins over an earlier one. -/
def restoreInFlight (entries : List InFlightSnapshot) : InFlight :=
  entries.foldl (fun m v => Function.update m v.seq (some ⟨v.seq, v.command, v.sentAt, v.attempts⟩))
    fun _ => none

/-- The session that `Restore` builds from a snapshot. -/
def SessionSnapshot.restore (snap : SessionSnapshot) : Session where
  controllerID := snap.controllerID
  conn := none
  queue := ControllerQueue.restore snap.pending
  lastSeen := snap.lastSeen
  lastTouchedPersistedAt := snap.lastSeen
  bufferFree := if snap.bufferFree ≤ 0 then 1500 else snap.bufferFree
  fwMode := snap.fwMode
  syncMode := snap.syncMode
  inFlight := restoreInFlight snap.inFlight
  nextSeq := snap.nextSeq

/-! ## The manager's methods on one controller -/

/-- The manager's entry for a controller and the controller's row in the store. -/
structure Slot where
  session : Option Session := none
  saved : Option SessionSnapshot := none
  /-- Ghost: how many saves have succeeded. -/
  saves : ℕ := 0

namespace Slot

def queue (m : Slot) : ControllerQueue :=
  (m.session.map Session.queue).getD {}

def inFlight (m : Slot) : InFlight :=
  (m.session.map Session.inFlight).getD fun _ => none

def nextSeq (m : Slot) : UInt8 :=
  (m.session.map Session.nextSeq).getD 0

def fwMode (m : Slot) : Bool :=
  (m.session.map Session.fwMode).getD false

def syncMode (m : Slot) : Bool :=
  (m.session.map Session.syncMode).getD false

/-- The queue is shared: its methods change the session in place. -/
def setQueue (m : Slot) (q : ControllerQueue) : Slot :=
  { m with session := m.session.map fun s => { s with queue := q } }

def persistLocked (m : Slot) (s : Session) (save : Option Error) : Slot × Option Error :=
  match save with
  | none => ({ session := some s, saved := some s.snapshot, saves := m.saves + 1 }, none)
  | some err => ({ m with session := some s }, some err)

/-- Register `s` as the session of the controller; a failed save takes it out again. -/
def insertNew (m : Slot) (s : Session) (save : Option Error) : Slot × Option Error :=
  match m.persistLocked s save with
  | (m', none) => (m', none)
  | (m', some err) => ({ m' with session := none }, some err)

/-- `online` counts the sessions with a connection; only a new session is held against
`maxConns`. A failed save rolls back the connection and `LastSeen`, not `BufferFree`. -/
def create (maxConns online : Int) (controllerID : String) (m : Slot) (conn : ConnID)
    (now : Time) (save : Option Error) : Slot × Option Error :=
  match m.session with
  | some existing =>
      match existing.conn with
      | some _ => (m, some .sessionExists)
      | none =>
          match m.persistLocked (existing.attach conn now) save with
          | (m', none) => (m', none)
          | (m', some err) =>
              let s := { existing.attach conn now with conn := none, lastSeen := existing.lastSeen }
              ({ m' with session := some s }, some err)
  | none =>
      if online ≥ maxConns then (m, some (.text "max connections reached"))
      else m.insertNew (Session.new controllerID (some conn) now) save

def createDetachedLocked (controllerID : String) (m : Slot) (now : Time)
    (save : Option Error) : Slot × Option Error :=
  m.insertNew (Session.new controllerID none now) save

/-- How `enqueueLocked` gets hold of the session. -/
def ensureSession (controllerID : String) (m : Slot) (now : Time) (save : Option Error) :
    Slot × Option Error :=
  match m.session with
  | some _ => (m, none)
  | none => m.createDetachedLocked controllerID now save

def markOffline (m : Slot) (now : Time) (save : Option Error) : Slot × Option Error :=
  match m.session with
  | some s => m.persistLocked { s with conn := none, lastSeen := now } save
  | none => (m, none)

def touchPersistInterval : Duration := 5 * second

/-- A save error is dropped. -/
def touch (m : Slot) (now : Time) (save : Option Error) : Slot :=
  match m.session with
  | some s =>
      if now - s.lastTouchedPersistedAt < touchPersistInterval then
        { m with session := some { s with lastSeen := now } }
      else
        (m.persistLocked { s with lastSeen := now, lastTouchedPersistedAt := now } save).1
  | none => m

def updateBufferFree (m : Slot) (free : Int) : Slot :=
  match m.session with
  | some s => { m with session := some { s with bufferFree := free } }
  | none => m

def setFWMode (m : Slot) (enabled : Bool) (save : Option Error) : Slot × Option Error :=
  match m.session with
  | some s => m.persistLocked { s with fwMode := enabled } save
  | none => (m, none)

def setSyncMode (m : Slot) (enabled : Bool) (save : Option Error) : Slot × Option Error :=
  match m.session with
  | some s => m.persistLocked { s with syncMode := enabled } save
  | none => (m, none)

def setFrameMode (m : Slot) (mode : FrameMode) : Slot :=
  match m.session with
  | some s => { m with session := some { s with frameMode := mode } }
  | none => m

def ackSent (m : Slot) (save : Option Error) : Slot × Option Error :=
  match m.session with
  | some s => m.persistLocked s save
  | none => (m, none)

/-- The counter wraps at 256 and a save error is dropped. -/
def nextCommandSeq (m : Slot) (save : Option Error) : Slot × Except Error UInt8 :=
  match m.session with
  | some s =>
      let seq := s.nextSeq + 1
      ((m.persistLocked { s with nextSeq := seq } save).1, .ok seq)
  | none => (m, .error .sessionNotFound)

def inFlightCount (m : Slot) : ℕ :=
  match m.session with
  | some s => s.inFlight.count
  | none => 0

def registerInFlight (m : Slot) (seq : UInt8) (cmd : Command) (sentAt : Time)
    (save : Option Error) : Slot × Option Error :=
  match m.session with
  | some s =>
      let entry : InFlightEntry := ⟨seq, cmd, sentAt, cmd.attempts + 1⟩
      m.persistLocked { s with inFlight := Function.update s.inFlight seq (some entry) } save
  | none => (m, some .sessionNotFound)

/-- A failed save puts the entry back and reports that there was none. -/
def ackInFlight (m : Slot) (seq : UInt8) (save : Option Error) :
    Slot × Option (Command × Int) :=
  match m.session with
  | some s =>
      match s.inFlight seq with
      | none => (m, none)
      | some entry =>
          let s' := { s with inFlight := Function.update s.inFlight seq none }
          match m.persistLocked s' save with
          | (m', none) => (m', some (entry.command, entry.attempts))
          | (_, some _) => (m, none)
  | none => (m, none)

def peekInFlight (m : Slot) (seq : UInt8) : Option (Command × Int) :=
  match m.session with
  | some s => (s.inFlight seq).map fun entry => (entry.command, entry.attempts)
  | none => none

/-- A restart: the memory is lost and `Restore` reads the row back, if it names a
controller. -/
def restart (m : Slot) : Slot :=
  match m.saved with
  | some snap =>
      if snap.controllerID = "" then { m with session := none }
      else { m with session := some snap.restore }
  | none => { m with session := none }

end Slot

/-! ## Ack timeouts -/

structure DeliveryPolicy where
  ackTimeout : Duration
  retryBackoff : Duration
  maxRetries : Int
  deriving DecidableEq, Repr

/-- Two's complement 64-bit arithmetic. -/
def int64 (x : Int) : Int :=
  x.bmod (2 ^ 64)

def maxRetryBackoffShift : Int := 6

def jitterPercent : Int := 20

def lateAckGrace : Duration := 2 * second

def xorshift64 (x : UInt64) : UInt64 :=
  let x := if x = 0 then 0x9e3779b97f4a7c15 else x
  let x := x ^^^ (x <<< 13)
  let x := x ^^^ (x >>> 7)
  x ^^^ (x <<< 17)

/-- Exponential backoff from the second attempt on, with a deterministic jitter. -/
def retryDelay (attempts : Int) (base : Duration) (seed : UInt64) : Duration :=
  if attempts ≤ 1 ∨ base ≤ 0 then 0
  else
    let shift := attempts - 2
    let shift := if shift < 0 then 0 else shift
    let shift := if shift > maxRetryBackoffShift then maxRetryBackoffShift else shift
    let delay := int64 (base * 2 ^ shift.toNat)
    if delay < 0 then base
    else
      let jitterRange := (int64 (delay * jitterPercent)).tdiv 100
      if jitterRange ≤ 0 then delay
      else
        let span := int64 (jitterRange * 2 + 1)
        if span ≤ 0 then delay
        else
          let v := Int.ofNat ((xorshift64 seed).toNat % span.toNat) - jitterRange
          let out := int64 (delay + v)
          if out < 0 then 0 else out

/-- Stable for one attempt of one in-flight command. -/
def jitterSeedForEntry (entry : InFlightEntry) : UInt64 :=
  (UInt64.ofNat entry.seq.toNat <<< 32) |||
    (UInt64.ofNat (entry.attempts.emod 65536).toNat <<< 16) |||
    UInt64.ofNat entry.command.commandID.toNat

inductive OutcomeType where
  | retrying
  | expired
  | failed
  deriving DecidableEq, Repr

structure InFlightOutcome where
  type : OutcomeType
  seq : UInt8
  command : Command
  attempts : Int
  reason : String

/-- How long an entry waits for its acknowledgement. -/
def ackWait (policy : DeliveryPolicy) (entry : InFlightEntry) : Duration :=
  let ackTimeout := if policy.ackTimeout ≤ 0 then 10 * second else policy.ackTimeout
  let wait := int64 (ackTimeout + retryDelay entry.attempts policy.retryBackoff
    (jitterSeedForEntry entry))
  if wait < 0 then ackTimeout else wait

def retryLimit (policy : DeliveryPolicy) : Int :=
  if policy.maxRetries < 0 then 0 else policy.maxRetries

/-- What `ProcessInFlight` decides about one entry: leave it in flight, or take it out with
an outcome. A retried command is pushed to the queue again. -/
def inFlightOutcome (policy : DeliveryPolicy) (now : Time) (seq : UInt8)
    (entry : InFlightEntry) : Option InFlightOutcome :=
  let wait := ackWait policy entry
  if now < entry.sentAt + wait then none
  else if entry.command.expired now then
    some ⟨.expired, seq, entry.command, entry.attempts, "ttl expired while waiting ack"⟩
  else if entry.attempts ≥ int64 (retryLimit policy + 1) then
    if now < entry.sentAt + int64 (wait + lateAckGrace) then none
    else
      some ⟨.failed, seq, entry.command, entry.attempts, "ack timeout retries exceeded"⟩
  else
    let cmd := { entry.command with attempts := entry.attempts, retrySeq := seq }
    some ⟨.retrying, seq, cmd, entry.attempts, "ack timeout"⟩

/-- One round of `ProcessInFlight`'s loop, for the entry under `seq` if there still is one. -/
def Session.visitInFlight (policy : Command → DeliveryPolicy) (now : Time) (seq : UInt8)
    (s : Session) : Session × Option InFlightOutcome :=
  match s.inFlight seq with
  | none => (s, none)
  | some entry =>
      match inFlightOutcome (policy entry.command) now seq entry with
      | none => (s, none)
      | some out =>
          let s' := { s with inFlight := Function.update s.inFlight seq none }
          match out.type with
          | .retrying => ({ s' with queue := s'.queue.push out.command }, some out)
          | _ => (s', some out)

/-- The policy of a command; without a resolver it is the same for all. -/
def resolvePolicy (resolver : Option (Command → DeliveryPolicy)) (cmd : Command) :
    DeliveryPolicy :=
  match resolver with
  | none => ⟨10 * second, 0, 3⟩
  | some resolve => resolve cmd

/-- The loop of `ProcessInFlight`, over the keys in the order in which the map iteration yields
them. An entry that the loop has put back may be yielded again. -/
def Session.processInFlight (policy : Command → DeliveryPolicy) (now : Time) :
    List UInt8 → Session → Session × List InFlightOutcome
  | [], s => (s, [])
  | seq :: rest, s =>
      let visited := s.visitInFlight policy now seq
      let processed := Session.processInFlight policy now rest visited.1
      (processed.1, visited.2.toList ++ processed.2)

end TcpAdapter.Manager
