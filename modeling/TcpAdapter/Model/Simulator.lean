import Mathlib.Algebra.Order.Ring.Rat
import TcpAdapter.Concurrent.Machine
import TcpAdapter.Model.Protocol.Commands
import TcpAdapter.Model.Protocol.Reader
import TcpAdapter.Model.Session

/-! # The simulated controller

`controller-sim` is the other end of a connection. It dials, registers and then runs two
goroutines: one reads the commands of the server and answers them, the other one sends the status
when the ticker fires. When a connection ends it dials again; the goroutine that reads from the old
connection may still be at work then. What the controller remembers is shared by all of them.

A frame is written to the connection under `writeMu`, in one action. The rates are rational
numbers. -/

namespace TcpAdapter.Simulator

open TcpAdapter.Concurrent TcpAdapter.Protocol TcpAdapter.Queue TcpAdapter.Manager

/-! ## Configuration and state -/

def millisecond : Duration := 1000000

/-- The fields of `simConfig` that the goroutines read. -/
structure SimConfig where
  ackDelay : Duration := 0
  ackErrorRate : ℚ := 0
  ackDropRate : ℚ := 0
  burstSize : Int := 1
  burstSpacing : Duration := 50 * millisecond
  bufferFree : UInt16 := 1500
  reconnectMin : Duration := 500 * millisecond
  reconnectMax : Duration := 1500 * millisecond
  postCommandCoolDown : Duration := 250 * millisecond
  frameMode : FrameMode := .compact

structure ControllerState where
  bufferFree : UInt16
  triggers : Cmd5TriggerFlags := {}

def newControllerState (bufferFree : UInt16) : ControllerState :=
  { bufferFree := bufferFree }

namespace ControllerState

def reset (s : ControllerState) : ControllerState :=
  { s with triggers := {} }

def applyTriggerPayload (s : ControllerState) (payload : List UInt8) :
    Except String ControllerState := do
  validateServerCommandPayload 5 payload
  return { s with
    triggers :=
      { manualUnlock := payload.getD 0 0 == 1
        scenarioUnlock := payload.getD 1 0 == 1
        autoRegistration := payload.getD 2 0 == 1
        openForAll := payload.getD 3 0 == 1
        forwardSMS := payload.getD 4 0 == 1
        notifyUnknownIDSMS := payload.getD 5 0 == 1
        notifyLowBalanceSMS := payload.getD 6 0 == 1
        scheduleForAllCalls := payload.getD 7 0 == 1 } }

end ControllerState

/-! ## Messages -/

def ackCodeExecError : UInt8 := 2

def ackCodeStarted : UInt8 := 5

/-- `unix` is the time in seconds. -/
def buildStatus1Payload (bufferFree flags : UInt16) (unix : ℕ) : List UInt8 :=
  [2] ++ putUint32 unix ++ putUint16 flags.toNat ++ putUint16 bufferFree.toNat

def buildAck11Payload (seq code : UInt8) (bufferFree : UInt16) (unix : ℕ) : List UInt8 :=
  [11, seq, code] ++ putUint32 unix ++ putUint16 bufferFree.toNat

/-! ## Actions -/

/-- What ends a connection. -/
inductive Failure where
  | read (err : ReadError)
  | command (err : String)
  | simulatedReconnect

/-- What the loop of the ticker wakes up to. -/
inductive Event where
  | done
  | failed (err : Failure)
  | tick

inductive Act where
  /-- Whether `done` is closed. -/
  | stopped
  | dial
  | close (conn : ConnID)
  /-- `conn.Write`, under `writeMu` -/
  | write (conn : ConnID) (wire : List UInt8)
  /-- The `go` statement of `serveConn`. -/
  | spawn (conn : ConnID)
  /-- The first step of the goroutine. -/
  | begin (conn : ConnID)
  | readFrame (conn : ConnID)
  /-- `rand.Float64` -/
  | float64
  | unix
  | sleep (d : Duration)
  /-- `rand.Int63n` -/
  | int63n (n : Int)
  | bufferFree
  | applyTriggerPayload (payload : List UInt8)
  | reset
  /-- The send on `errCh`. -/
  | report (conn : ConnID) (err : Failure)
  /-- The `select` of `serveConn`. -/
  | select (conn : ConnID)
  /-- Stands for a loop that is still running; it never answers. -/
  | spin

@[reducible] def Act.Res : Act → Type
  | stopped => Bool
  | dial => Option ConnID
  | write .. | applyTriggerPayload .. => Option String
  | readFrame .. => Except ReadError Frame
  | float64 => ℚ
  | unix => ℕ
  | int63n .. => Int
  | bufferFree => UInt16
  | select .. => Event
  | close .. | spawn .. | begin .. | sleep .. | reset | report .. | spin => Unit

abbrev sig : Signature := ⟨Act, Act.Res⟩

/-- What the environment decides about an action. -/
structure Input where
  stopped : Bool := false
  dialed : Bool := true
  /-- The error of a write, and how many bytes it has sent. -/
  writeErr : Option String := none
  written : ℕ := 0
  /-- The bytes that arrive while the reader waits, and how the stream ends if they are too few. -/
  bytes : List UInt8 := []
  ended : ReadError := .eof
  random : ℚ := 0
  random63 : Int := 0
  unix : ℕ := 0
  /-- Which case a `select` takes. -/
  ticks : Bool := true

/-! ## The world -/

/-- Where a connection is. The thread is ghost. -/
inductive Stage where
  | unborn
  | dialed (tid : ℕ)
  | spawned
  | read (tid : ℕ)
  deriving DecidableEq

structure World where
  state : ControllerState
  dialed : ℕ := 0
  stage : ConnID → Stage := fun _ => .unborn
  closed : ConnID → Bool := fun _ => false
  /-- The bytes that have gone out. -/
  sent : ConnID → List UInt8 := fun _ => []
  /-- What the buffered reader holds. -/
  unread : ConnID → List UInt8 := fun _ => []
  errCh : ConnID → Option Failure := fun _ => none

section exec

variable (tid : ℕ) (w : World)

def World.setStage (conn : ConnID) (s : Stage) : World :=
  { w with stage := Function.update w.stage conn s }

/-- A write that fails has sent a part of the bytes. -/
def execWrite (conn : ConnID) (wire : List UInt8) (inp : Input) : World × Option String :=
  if w.closed conn then (w, some "use of closed network connection")
  else
    match inp.writeErr with
    | none => ({ w with sent := Function.update w.sent conn (w.sent conn ++ wire) }, none)
    | some err =>
        ({ w with sent := Function.update w.sent conn (w.sent conn ++ wire.take inp.written) },
          some err)

/-- A closed connection gives up no more bytes. -/
def execRead (conn : ConnID) (inp : Input) : Option (World × Except ReadError Frame) :=
  if w.closed conn ∧ inp.bytes ≠ [] then none
  else
    let res := readFrameWithMode inp.ended .auto (w.unread conn ++ inp.bytes)
    some ({ w with unread := Function.update w.unread conn res.2 }, res.1)

def execSelect (conn : ConnID) (inp : Input) : Option (World × Event) :=
  if inp.stopped then some (w, .done)
  else if inp.ticks then some (w, .tick)
  else
    match w.errCh conn with
    | none => none
    | some err => some ({ w with errCh := Function.update w.errCh conn none }, .failed err)

/-- The answer of one action, with the world it leaves. -/
def exec : (a : Act) → Input → Option (World × a.Res)
  | .stopped, inp => some (w, inp.stopped)
  | .dial, inp =>
      if inp.dialed then
        some ({ w.setStage w.dialed (.dialed tid) with dialed := w.dialed + 1 }, some w.dialed)
      else some (w, none)
  | .close conn, _ => some ({ w with closed := Function.update w.closed conn true }, ())
  | .write conn wire, inp => some (execWrite w conn wire inp)
  | .spawn conn, _ => some (w.setStage conn .spawned, ())
  | .begin conn, _ =>
      if w.stage conn = .spawned then some (w.setStage conn (.read tid), ()) else none
  | .readFrame conn, inp => execRead w conn inp
  | .float64, inp => some (w, inp.random)
  | .unix, inp => some (w, inp.unix % 2 ^ 32)
  | .sleep _, _ => some (w, ())
  | .int63n n, inp => some (w, inp.random63.emod n)
  | .bufferFree, _ => some (w, w.state.bufferFree)
  | .applyTriggerPayload payload, _ =>
      match w.state.applyTriggerPayload payload with
      | .error err => some (w, some err)
      | .ok s => some ({ w with state := s }, none)
  | .reset, _ => some ({ w with state := w.state.reset }, ())
  | .report conn err, _ =>
      some ({ w with errCh := Function.update w.errCh conn (some err) }, ())
  | .select conn, inp => execSelect w conn inp
  | .spin, _ => none

end exec

/-! ## The goroutines -/

abbrev Simulate := Prog sig

/-- Perform an action of the simulator. -/
abbrev perform (a : Act) : Simulate a.Res :=
  Prog.call (S := sig) a

section goroutines

variable (cfg : SimConfig) (conn : ConnID)

def writeFrame (payload : List UInt8) : Simulate (Option String) :=
  match encodeFrame ⟨255, 1, payload, cfg.frameMode⟩ with
  | .error err => return some err
  | .ok wire => perform (.write conn wire)

def chooseTerminalAckCode : Simulate UInt8 := do
  if (← perform .float64) < cfg.ackErrorRate then return ackCodeExecError
  else return ackCodeOK

/-- Only the code `started` is never dropped. -/
def dropsAck (code : UInt8) : Simulate Bool := do
  if code = ackCodeStarted then return false
  else return decide ((← perform .float64) < cfg.ackDropRate)

def sleepFor (d : Duration) : Simulate Unit :=
  if d > 0 then perform (.sleep d) else return

def sendCommandAck (seq code : UInt8) : Simulate (Option String) := do
  let bufferFree ← perform .bufferFree
  if ← dropsAck cfg code then return none
  else
    sleepFor cfg.ackDelay
    writeFrame cfg conn (buildAck11Payload seq code bufferFree (← perform .unix))

def commandDelay (timeout : UInt8) : Duration :=
  if timeout = 0 then
    if cfg.ackDelay > 0 then cfg.ackDelay else 250 * millisecond
  else timeout.toNat * second

/-- The commands that restart the controller: `finish` is what it does last before it goes
down. -/
def handleRestart (frame : Frame) (finish : Simulate Unit) : Simulate (Except String Bool) := do
  let timeout := (frame.payload.drop 1).headD 0
  match ← sendCommandAck cfg conn frame.seq ackCodeStarted with
  | some err => return .error err
  | none =>
      perform (.sleep (commandDelay cfg timeout))
      match ← sendCommandAck cfg conn frame.seq (← chooseTerminalAckCode cfg) with
      | some err => return .error err
      | none =>
          finish
          perform (.sleep cfg.postCommandCoolDown)
          return .ok true

def handleDefault (frame : Frame) : Simulate (Except String Bool) := do
  match ← sendCommandAck cfg conn frame.seq (← chooseTerminalAckCode cfg) with
  | some err => return .error err
  | none => return .ok false

/-- Whether the connection is to be closed. -/
def handleServerCommand (frame : Frame) : Simulate (Except String Bool) :=
  match frame.payload.headD 0 with
  | 2 => handleRestart cfg conn frame (return)
  | 3 => handleRestart cfg conn frame (perform .reset)
  | 5 => do
      match ← perform (.applyTriggerPayload (frame.payload.drop 1)) with
      | some err => return .error err
      | none => handleDefault cfg conn frame
  | _ => handleDefault cfg conn frame

/-- What the goroutine that reads does with a frame. Whether it goes on. -/
def handleIncoming (frame : Frame) : Simulate Bool :=
  match frame.commandID with
  | none => return true
  | some cmdID =>
      if cmdID = 24 ∨ cmdID = 1 then return true
      else do
        match ← handleServerCommand cfg conn frame with
        | .error err =>
            perform (.report conn (.command err))
            return false
        | .ok true =>
            perform (.report conn .simulatedReconnect)
            return false
        | .ok false => return true

/-- One round of the goroutine. -/
def handleNext : Simulate Bool := do
  match ← perform (.readFrame conn) with
  | .error err =>
      perform (.report conn (.read err))
      return false
  | .ok frame => handleIncoming cfg conn frame

def readLoop : ℕ → Simulate Unit
  | 0 => perform .spin
  | n + 1 => do
      if ← handleNext cfg conn then readLoop n else return

/-- `n` more packets of a burst. -/
def sendBurst : ℕ → Simulate (Option String)
  | 0 => return none
  | n + 1 => do
      let bufferFree ← perform .bufferFree
      match ← writeFrame cfg conn (buildStatus1Payload bufferFree 0 (← perform .unix)) with
      | some err => return some err
      | none =>
          sleepFor (if 0 < n then cfg.burstSpacing else 0)
          sendBurst n

def statusLoop : ℕ → Simulate Unit
  | 0 => perform .spin
  | n + 1 => do
      match ← perform (.select conn) with
      | .done => return
      | .failed _ => return
      | .tick =>
          match ← sendBurst cfg conn cfg.burstSize.toNat with
          | some _ => return
          | none => statusLoop n

def serveConn (imei : List UInt8) (fuel : ℕ) : Simulate Unit := do
  match ← writeFrame cfg conn (buildRegistrationPayload imei) with
  | some _ => return
  | none =>
      perform (.spawn conn)
      statusLoop cfg conn fuel

end goroutines

def randomJitter (min max : Duration) : Simulate Duration := do
  if min ≤ 0 ∧ max ≤ 0 then return 0
  else if max ≤ min then return min
  else return min + (← perform (.int63n (max - min)))

/-- The loop that dials, `n` times; the loop of the ticker goes round as often as `fuel` says. -/
def runController (cfg : SimConfig) (imei : List UInt8) (fuel : ℕ) : ℕ → Simulate Unit
  | 0 => perform .spin
  | n + 1 => do
      if ← perform .stopped then return
      else
        match ← perform .dial with
        | none =>
            perform (.sleep (2 * second))
            runController cfg imei fuel n
        | some conn =>
            serveConn cfg conn imei fuel
            perform (.close conn)
            perform (.sleep (← randomJitter cfg.reconnectMin cfg.reconnectMax))
            runController cfg imei fuel n

inductive Task where
  | run (fuel rounds : ℕ)
  | read (conn : ConnID) (fuel : ℕ)

def Task.prog (cfg : SimConfig) (imei : List UInt8) : Task → Simulate Unit
  | run fuel rounds => runController cfg imei fuel rounds
  | read conn fuel => do
      perform (.begin conn)
      readLoop cfg conn fuel

/-- The goroutines of one simulated controller. -/
abbrev machine (cfg : SimConfig) (imei : List UInt8) : Machine sig where
  World := World
  Input := Input
  Task := Task
  exec := exec
  prog := Task.prog cfg imei
  crash _ := { state := newControllerState cfg.bufferFree }

end TcpAdapter.Simulator
