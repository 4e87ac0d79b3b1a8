import TcpAdapter.Model.Server.Actions

/-! # The goroutines of the server

The accept loop of `Run`, `handleConn`, and what else is done for a controller. A handler's loop
is unfolded as often as its task says; then it stands still, as a loop that has not got further.
Debug records, raw-message logs and telemetry are left out, and so is what `Run` does when it
shuts down: closing a connection ends its next read. -/

namespace TcpAdapter.Server

open TcpAdapter.Concurrent TcpAdapter.Queue TcpAdapter.Protocol TcpAdapter.Manager
open TcpAdapter.Delivery (Deliver)

abbrev Serve := Prog sig

/-- Perform an action of the server. -/
abbrev perform (a : Act) : Serve a.Res :=
  Prog.call (S := sig) a

/-- Work of the delivery engine for one controller. -/
def deliver {α : Type} (id : String) : Deliver α → Serve α
  | .ret x => .ret x
  | .act a k => .act (.deliver id a) fun r => deliver id (k r)

section serve

variable (cfg : Config) (remoteHost : ConnID → String)

/-! ## Run -/

/-- One round of the accept loop. -/
def acceptConn : Serve Unit := do
  let conn ← perform .accept
  if (← perform .activeLoad) ≥ cfg.maxConnections then perform (.close conn)
  else if ← perform (.isIPBlocked (remoteHost conn) (← perform .now)) then perform (.close conn)
  else if ← perform (.tryTrackConn conn) then
    perform (.activeAdd conn 1)
    perform (.spawn conn)
  else perform (.close conn)

/-! ## handleConn -/

/-- The local variables of `handleConn` that its loop changes. -/
structure Locals where
  registered : Bool := false
  controllerID : String := ""
  frameMode : FrameMode := .auto
  lastHeartbeat : Time

/-- The digits of an IMEI as a controller id. -/
def imeiString (imei : List UInt8) : String :=
  String.ofList (imei.map fun b => Char.ofNat b.toNat)

def violation (conn : ConnID) : Serve Unit := do
  perform (.registerIPViolation (remoteHost conn) (← perform .now))

/-- A frame error is a violation as long as the controller has not registered. -/
def violationIfNew (conn : ConnID) (l : Locals) : Serve Unit :=
  if l.registered then return else violation remoteHost conn

def sendRegistrationAck (id : String) (conn : ConnID) (mode : FrameMode) (seq : UInt8) :
    Serve Bool := do
  match Delivery.registrationAckFrame mode seq (← perform .now) with
  | .error _ => return false
  | .ok bytes => return (← perform (.deliver id (.write conn bytes))).isNone

/-- The first frame of a connection. The handler stops unless it answers with its new locals. -/
def registerConn (conn : ConnID) (frame : Frame) (cmdID : UInt8) : Serve (Option Locals) := do
  if cmdID ≠ 1 then
    violation remoteHost conn
    return none
  else
    match parseRegistrationPayload frame.payload with
    | .error _ =>
        violation remoteHost conn
        return none
    | .ok reg =>
        let id := imeiString reg.imei
        match ← perform (.create id conn) with
        | some _ => return none
        | none =>
            perform (.deliver id (.setFrameMode frame.mode))
            if ← sendRegistrationAck id conn frame.mode frame.seq then
              return some
                { registered := true
                  controllerID := id
                  frameMode := frame.mode
                  lastHeartbeat := ← perform .now }
            else
              let _ ← perform (.markOffline id conn)
              return none

/-- A status report counts as a heartbeat. -/
def heartbeat (frame : Frame) (l : Locals) : Serve Locals := do
  if frame.payload.head? = some 2 ∧ (parseStatus1Payload frame.payload).isOk then
    return { l with lastHeartbeat := ← perform .now }
  else return l

/-- A frame on a registered connection. -/
def serveConn (conn : ConnID) (frame : Frame) (l : Locals) : Serve (Option Locals) := do
  let id := l.controllerID
  perform (.deliver id .touch)
  let l ← heartbeat frame l
  if ← deliver id (Delivery.dispatch id conn frame) then
    deliver id (Delivery.processInFlight id)
    match ← deliver id (Delivery.withFlushLock (Delivery.flushQueue id)) with
    | some _ => return none
    | none => return some l
  else return none

/-- A frame has been read. -/
def handleFrame (conn : ConnID) (frame : Frame) (l : Locals) : Serve (Locals × Bool) := do
  match frame.commandID with
  | none =>
      violationIfNew remoteHost conn l
      return (l, false)
  | some cmdID =>
      if l.registered then
        match ← serveConn conn frame l with
        | none => return (l, false)
        | some l => return (l, true)
      else
        match ← registerConn remoteHost conn frame cmdID with
        | none => return (l, false)
        | some l =>
            match ← serveConn conn frame l with
            | none => return (l, false)
            | some l => return (l, true)

/-- How long a read may take, or `none` after a heartbeat timeout. -/
def readWait (l : Locals) : Serve (Option Duration) := do
  let wait := if cfg.readTimeout ≤ 0 then 5 * second else cfg.readTimeout
  if l.registered ∧ cfg.heartbeatTimeout > 0 then
    let untilHeartbeatTimeout := l.lastHeartbeat + cfg.heartbeatTimeout - (← perform .now)
    if untilHeartbeatTimeout ≤ 0 then return none
    else return some (if untilHeartbeatTimeout < wait then untilHeartbeatTimeout else wait)
  else return some wait

/-- Whether the loop may go on with another read. -/
def inTime (conn : ConnID) (registrationDeadline : Time) (l : Locals) : Serve Bool := do
  if l.registered then
    if cfg.heartbeatTimeout > 0 then
      return (← perform .now) - l.lastHeartbeat ≤ cfg.heartbeatTimeout
    else return true
  else if (← perform .now) > registrationDeadline then
    violation remoteHost conn
    return false
  else return true

def readLoop (conn : ConnID) (registrationDeadline : Time) : ℕ → Locals → Serve Locals
  | 0, l => do
      perform .spin
      return l
  | fuel + 1, l => do
      if ← inTime cfg remoteHost conn registrationDeadline l then
        match ← readWait cfg l with
        | none => return l
        | some wait =>
            perform (.setReadDeadline conn ((← perform .now) + wait))
            match ← perform (.readFrame conn l.frameMode) with
            | .error err =>
                if err ≠ .timeout then violationIfNew remoteHost conn l
                return l
            | .ok frame =>
                let (l, more) ← handleFrame remoteHost conn frame l
                if more then readLoop conn registrationDeadline fuel l else return l
      else return l

/-- The deferred function of `handleConn`. -/
def cleanUp (conn : ConnID) (l : Locals) : Serve Unit := do
  if l.registered ∧ l.controllerID ≠ "" then
    let _ ← perform (.markOffline l.controllerID conn)
  perform (.activeAdd conn (-1))
  perform (.untrackConn conn)
  perform (.close conn)

def handleConn (conn : ConnID) (fuel : ℕ) : Serve Unit := do
  perform (.begin conn)
  let lastHeartbeat ← perform .now
  let registrationDeadline := (← perform .now) + cfg.registrationWindow
  let l ← readLoop cfg remoteHost conn registrationDeadline fuel { lastHeartbeat := lastHeartbeat }
  cleanUp conn l

/-! ## Tasks -/

/-- The accept loop goes round, a handler starts, the sweep loop comes to a controller, or a
command for a controller comes in. -/
inductive Task where
  | accept
  | handle (conn : ConnID) (fuel : ℕ)
  | sweep (id : String)
  | enqueue (id : String) (cmd : Command) (fuel : ℕ)
  deriving DecidableEq

def Task.prog : Task → Serve Unit
  | accept => acceptConn cfg remoteHost
  | handle conn fuel => handleConn cfg remoteHost conn fuel
  | sweep id => deliver id (Delivery.sweep id)
  | enqueue id cmd fuel => do
      let _ ← deliver id (Delivery.enqueueCommand cfg.delivery id cmd fuel)

/-- A crash loses everything but the store. -/
def World.restart (w : World) : World where
  clock := w.clock
  controllers := w.controllers
  deliveries id := (Delivery.machine cfg.delivery id).crash (w.deliveries id)
  accepted := w.accepted
  stage conn := if conn < w.accepted then .gone else .unborn

abbrev machine : Machine sig where
  World := World
  Input := Input
  Task := Task
  exec := exec cfg remoteHost
  prog := Task.prog cfg remoteHost
  crash := World.restart cfg

/-- The accept loop is one goroutine. -/
abbrev serverRules : Rules (machine cfg remoteHost) where
  start _ tid task := task = .accept → tid = 0

end serve

/-! ## Schedules -/

section schedules

variable {cfg : Config} {remoteHost : ConnID → String}

/-- A goroutine goes on for `n` actions, or to the end of its task, with the same input. -/
def go (tid n : ℕ) (inp : Input := {}) : List (Label (machine cfg remoteHost)) :=
  List.replicate n (.run tid inp)

/-- A goroutine starts a task and goes on for `n` actions. -/
def call (tid : ℕ) (task : Task) (n : ℕ) (inp : Input := {}) :
    List (Label (machine cfg remoteHost)) :=
  .start tid task :: go tid n inp

/-- The registration frame of the controller `123456789012345`. -/
def registrationBytes : List UInt8 :=
  let digits : List UInt8 := [49, 50, 51, 52, 53, 54, 55, 56, 57, 48, 49, 50, 51, 52, 53]
  (encodeFrame ⟨255, 1, 1 :: digits ++ [1, 1], .sequenced⟩).toOption.getD []

/-- The accept loop takes a connection, and its handler reads a registration. -/
def arrive (tid : ℕ) (conn : ConnID) (n : ℕ) (inp : Input := { bytes := registrationBytes }) :
    List (Label (machine cfg remoteHost)) :=
  call 0 .accept 8 inp ++ call tid (.handle conn 1) n inp

end schedules

end TcpAdapter.Server
