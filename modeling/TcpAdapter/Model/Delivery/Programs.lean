import TcpAdapter.Model.Delivery.Actions
import TcpAdapter.Model.Protocol.Validation

/-! # The delivery engine

`flushQueue`, `processInFlight`, `EnqueueCommand` and the frame handlers of `handleConn`
as programs over the atomic actions. Debug records, raw-message logs, metrics and
telemetry are left out: they read the delivery state and never change it. -/

namespace TcpAdapter.Delivery

open TcpAdapter.Concurrent TcpAdapter.Queue TcpAdapter.Protocol TcpAdapter.Manager
open TcpAdapter.Policy

abbrev Deliver := Prog sig

/-- Perform an action of the delivery engine. -/
abbrev perform (a : Act) : Deliver a.Res :=
  Prog.call (S := sig) a

/-! ## Events -/

/-- The event about a command, as every branch of the source fills it in. -/
def ackEvent (id : String) (cmd : Command) (seq : UInt8) (status : AckStatus)
    (reason : String) : AckEvent where
  messageID := cmd.messageID
  traceID := cmd.traceID
  controllerID := id
  commandID := cmd.commandID
  commandSeq := seq
  status := status
  reason := reason

def publishExpired (id : String) (cmd : Command) : Deliver Unit :=
  perform (.publishAckWithCommand (ackEvent id cmd 0 .expired "ttl expired before send") cmd)

def publishFailed (id : String) (cmd : Command) (reason : String) : Deliver Unit :=
  perform (.publishAckWithCommand (ackEvent id cmd 0 .failed reason) cmd)

def publishAllExpired (id : String) : List Command → Deliver Unit
  | [] => return
  | cmd :: rest => do
      publishExpired id cmd
      publishAllExpired id rest

/-! ## flushQueue -/

def ttlToWire (ttl : Duration) : UInt8 :=
  if ttl ≤ 0 then 255
  else
    let sec := ttl.tdiv second
    let sec := if sec ≤ 0 then 1 else sec
    if sec > 250 then 255 else UInt8.ofNat sec.toNat

def commandFrame (cmd : Command) (seq : UInt8) (mode : FrameMode) : Frame :=
  ⟨ttlToWire cmd.ttl, seq, cmd.commandID :: cmd.payload, mode⟩

/-- Push the skipped commands back, in order. -/
def pushAll : List Command → Deliver Unit
  | [] => return
  | cmd :: rest => do
      perform (.push cmd)
      pushAll rest

/-- How a pass over the queue ends. -/
inductive Pass where
  | sent (dctx : DeliveryContext) (remaining : Int) (skipped : List Command)
  | unsent (skipped : List Command)
  | exit (err : Option Error)

/-- The number of a command: the one it was sent with before, if it is a retry. -/
def commandSeq (cmd : Command) : Deliver (Except Error UInt8) :=
  if cmd.retrySeq = 0 then perform .nextCommandSeq else return .ok cmd.retrySeq

/-- Commands 12 to 16 switch sync mode on; an error is the result. -/
def enterSync (cmd : Command) (dctx : DeliveryContext) :
    Deliver (Except Error DeliveryContext) := do
  if 12 ≤ cmd.commandID ∧ cmd.commandID ≤ 16 then
    match ← perform (.setSyncMode true) with
    | some err => return .error err
    | none => return .ok { dctx with syncMode := true }
  else return .ok dctx

/-- Command 19 switches firmware mode on. -/
def enterFW (cmd : Command) (dctx : DeliveryContext) :
    Deliver (Except Error DeliveryContext) := do
  if cmd.commandID = 19 then
    match ← perform (.setFWMode true) with
    | some err => return .error err
    | none => return .ok { dctx with fwMode := true }
  else return .ok dctx

/-- What follows a successful `RegisterInFlight`. The error exits report the command as
failed and drop the skipped commands. -/
def finishSend (id : String) (cmd : Command) (seq : UInt8) (frameLen : Int)
    (dctx : DeliveryContext) (remaining : Int) (skipped : List Command) : Deliver Pass := do
  match ← enterSync cmd dctx with
  | .error err =>
      publishFailed id cmd err.message
      return .exit (some err)
  | .ok dctx =>
      match ← enterFW cmd dctx with
      | .error err =>
          publishFailed id cmd err.message
          return .exit (some err)
      | .ok dctx =>
          perform (.publishAck (ackEvent id cmd seq .accepted ""))
          match ← perform .ackSent with
          | some err =>
              perform (.publishAckWithCommand (ackEvent id cmd seq .failed err.message) cmd)
              return .exit (some err)
          | none => return .sent dctx (remaining - frameLen) skipped

/-- Write the frame and register the command. -/
def sendFrame (id : String) (conn : ConnID) (cmd : Command) (seq : UInt8)
    (frameBytes : List UInt8) (dctx : DeliveryContext) (remaining : Int)
    (skipped : List Command) : Deliver Pass := do
  match ← perform (.transmit conn frameBytes cmd seq) with
  | some err =>
      publishFailed id cmd err.message
      pushAll skipped
      return .exit (some err)
  | none =>
      match ← perform (.registerInFlight seq cmd (← perform .now)) with
      | some err =>
          publishFailed id cmd err.message
          pushAll skipped
          return .exit (some err)
      | none => finishSend id cmd seq frameBytes.length dctx remaining skipped

/-- One pass over the queue: at most `n` commands are popped, and the pass ends with the
first one it sends. -/
def scanQueue (id : String) (conn : ConnID) (dctx : DeliveryContext) (remaining : Int) :
    ℕ → List Command → Deliver Pass
  | 0, skipped => return .unsent skipped
  | n + 1, skipped => do
      match ← perform (.popNext (← perform .now) dctx.fwMode dctx.syncMode) with
      | none => return .unsent skipped
      | some cmd =>
          if cmd.expired (← perform .now) then
            publishExpired id cmd
            scanQueue id conn dctx remaining n skipped
          else if !commandAllowedInModes cmd.commandID dctx.fwMode dctx.syncMode then
            scanQueue id conn dctx remaining n (skipped ++ [cmd])
          else
            match validateServerCommandPayload cmd.commandID cmd.payload with
            | .error err =>
                publishFailed id cmd s!"invalid payload: {err}"
                scanQueue id conn dctx remaining n skipped
            | .ok _ =>
                match ← commandSeq cmd with
                | .error err =>
                    -- only without a session; the popped command is dropped here
                    pushAll skipped
                    return .exit (some err)
                | .ok seq =>
                    let cmd := { cmd with retrySeq := 0 }
                    match encodeFrame (commandFrame cmd seq dctx.frameMode) with
                    | .error err =>
                        publishFailed id cmd err
                        scanQueue id conn dctx remaining n skipped
                    | .ok frameBytes =>
                        if frameBytes.length > remaining then
                          perform (.push cmd)
                          pushAll skipped
                          return .exit none
                        else
                          sendFrame id conn cmd seq frameBytes dctx remaining skipped

/-- Leave sync mode once no sync command is queued. -/
def leaveSync (dctx : DeliveryContext) : Deliver (Except Error DeliveryContext) := do
  if dctx.syncMode then
    if ← perform .hasSync then return .ok dctx
    else
      match ← perform (.setSyncMode false) with
      | some err => return .error err
      | none => return .ok { dctx with syncMode := false }
  else return .ok dctx

/-- Leave firmware mode once no firmware block is queued. -/
def leaveFW (dctx : DeliveryContext) : Deliver (Except Error DeliveryContext) := do
  if dctx.fwMode then
    if ← perform .hasFW then return .ok dctx
    else
      match ← perform (.setFWMode false) with
      | some err => return .error err
      | none => return .ok { dctx with fwMode := false }
  else return .ok dctx

/-- The outer loop. Every send takes at least one byte of the budget, so `fuel` passes are
enough for a budget of `fuel` bytes. -/
def flushLoop (id : String) (conn : ConnID) :
    ℕ → DeliveryContext → Int → Deliver (Option Error)
  | 0, _, _ => return none
  | fuel + 1, dctx, remaining => do
      if remaining ≤ 0 then return none
      else
        publishAllExpired id (← perform (.drainExpired (← perform .now)))
        let scan ← perform .queueLen
        if scan = 0 then return none
        else
          match ← scanQueue id conn dctx remaining scan [] with
          | .exit err => return err
          | .unsent skipped =>
              pushAll skipped
              return none
          | .sent dctx remaining skipped =>
              pushAll skipped
              match ← leaveSync dctx with
              | .error err => return some err
              | .ok dctx =>
                  match ← leaveFW dctx with
                  | .error err => return some err
                  | .ok dctx => flushLoop id conn fuel dctx remaining

/-- The bytes a flush may send: the free buffer the controller advertised. -/
def maxBudget (dctx : DeliveryContext) : Int :=
  if dctx.bufferFree ≤ 0 then 1500 else dctx.bufferFree

def flushQueue (id : String) : Deliver (Option Error) := do
  match ← perform .deliveryContext with
  | none => return some .sessionNotFound
  | some dctx =>
      match dctx.conn with
      | none => return none
      | some conn =>
          if (← perform .inFlightCount) > 0 then return none
          else flushLoop id conn (maxBudget dctx).toNat dctx (maxBudget dctx)

def withFlushLock {α : Type} (fn : Deliver α) : Deliver α := do
  perform .lockFlush
  let r ← fn
  perform .unlockFlush
  return r

/-! ## processInFlight -/

/-- The entries are visited in the order of the map iteration. -/
def visitAll (now : Time) : List UInt8 → Deliver (List InFlightOutcome)
  | [] => return []
  | seq :: rest => do
      let out ← perform (.visitInFlight seq now)
      let outs ← visitAll now rest
      return out.toList ++ outs

/-- `Manager.ProcessInFlight` -/
def managerProcessInFlight (now : Time) : Deliver (Except Error (List InFlightOutcome)) := do
  perform .lockManager
  if ← perform .findSession then
    let out ← visitAll now (← perform .inFlightOrder)
    let err ← perform .persist
    perform .unlockManager
    match err with
    | some err => return .error err
    | none => return .ok out
  else
    perform .unlockManager
    return .error .sessionNotFound

def publishOutcome (id : String) (o : InFlightOutcome) : Deliver Unit :=
  match o.type with
  | .retrying => perform (.publishAck (ackEvent id o.command o.seq .retrying o.reason))
  | .expired =>
      perform (.publishAckWithCommand (ackEvent id o.command o.seq .expired o.reason) o.command)
  | .failed =>
      perform (.publishAckWithCommand (ackEvent id o.command o.seq .failed o.reason) o.command)

def publishOutcomes (id : String) : List InFlightOutcome → Deliver Unit
  | [] => return
  | o :: rest => do
      publishOutcome id o
      publishOutcomes id rest

/-- A failed save drops the outcomes. -/
def processInFlight (id : String) : Deliver Unit := do
  match ← managerProcessInFlight (← perform .now) with
  | .error _ => return
  | .ok outcomes => publishOutcomes id outcomes

/-! ## EnqueueCommand -/

inductive LimitType where
  | depth
  | bytes
  deriving DecidableEq, Repr

inductive OverflowAction where
  | rejected
  | dropped
  deriving DecidableEq, Repr

structure OverflowEvent where
  controllerID : String
  limitType : LimitType
  policy : OverflowPolicy
  action : OverflowAction

def depthExceeded (cfg : Config) : Deliver Bool := do
  if cfg.maxQueueDepth > 0 then return decide ((← perform .queueLen) + 1 > cfg.maxQueueDepth)
  else return false

def bytesExceeded (cfg : Config) (cmd : Command) : Deliver Bool := do
  if cfg.maxQueueBytes > 0 then
    return decide ((← perform .queueBytes) + estimatedCommandBytes cmd > cfg.maxQueueBytes)
  else return false

def fits (cfg : Config) (cmd : Command) : Deliver Bool := do
  if ← depthExceeded cfg then return false
  else return !(← bytesExceeded cfg cmd)

/-- Evict until the command fits. A run that uses up the fuel stands for one that is still
in the loop. -/
def dropUntilFits (cfg : Config) (id : String) (cmd : Command) :
    ℕ → List OverflowEvent → Deliver (List OverflowEvent × Option Error)
  | 0, events => do
      perform .spin
      return (events, none)
  | fuel + 1, events => do
      if ← fits cfg cmd then return (events, none)
      else
        let limitType := if ← bytesExceeded cfg cmd then .bytes else .depth
        match ← perform .dropOldest with
        | none =>
            if cfg.maxQueueBytes > 0 ∧ estimatedCommandBytes cmd > cfg.maxQueueBytes then
              return (events ++ [⟨id, .bytes, .dropOldest, .rejected⟩], some .queueBytesFull)
            else
              return (events ++ [⟨id, limitType, .dropOldest, .rejected⟩], some .queueFull)
        | some _ =>
            dropUntilFits cfg id cmd fuel (events ++ [⟨id, limitType, .dropOldest, .dropped⟩])

/-- Make room for the command, or refuse it. -/
def makeRoom (cfg : Config) (id : String) (cmd : Command) (fuel : ℕ) :
    Deliver (List OverflowEvent × Option Error) := do
  if ← fits cfg cmd then return ([], none)
  else
    let bytes ← bytesExceeded cfg cmd
    let depth ← depthExceeded cfg
    match cfg.queueOverflow with
    | .reject =>
        if bytes then return ([⟨id, .bytes, .reject, .rejected⟩], some .queueBytesFull)
        else
          return (if depth then [⟨id, .depth, .reject, .rejected⟩] else [], some .queueFull)
    | .dropOldest => dropUntilFits cfg id cmd fuel []
    | .other _ => return ([], some .queueFull)

/-- Whether the key was seen within ten minutes; if not, it is remembered. -/
def checkDedup (key : String) : Deliver Bool := do
  if key = "" then return false
  else
    match ← perform (.dedupTime key) with
    | some t =>
        if (← perform .now) - t < 10 * minute then return true
        else
          perform (.setDedup key (← perform .now))
          return false
    | none =>
        perform (.setDedup key (← perform .now))
        return false

def enqueueLocked (cfg : Config) (id : String) (cmd : Command) (fuel : ℕ) :
    Deliver (List OverflowEvent × Option Error) := do
  match ← perform .ensureSession with
  | some err => return ([], some err)
  | none =>
      if ← checkDedup cmd.dedupKey then return ([], some .duplicate)
      else
        match ← makeRoom cfg id cmd fuel with
        | (events, some err) => return (events, some err)
        | (events, none) =>
            let ticket ← perform (.pushNew cmd)
            match ← perform (.persistEnqueued ticket) with
            | some err => return (events, some err)
            | none => return (events, none)

def enqueueWithEvents (cfg : Config) (id : String) (cmd : Command) (fuel : ℕ) :
    Deliver (List OverflowEvent × Option Error) := do
  perform .lockManager
  let r ← enqueueLocked cfg id cmd fuel
  perform .unlockManager
  return r

/-- `Manager.Enqueue`: nobody asks for the events. -/
def enqueue (cfg : Config) (id : String) (cmd : Command) (fuel : ℕ) : Deliver (Option Error) := do
  perform .lockManager
  let r ← enqueueLocked cfg id cmd fuel
  perform .unlockManager
  return r.2

def creationTime (cmd : Command) : Deliver Time :=
  if cmd.createdAt.isZero then perform .now else return cmd.createdAt

def enqueueCommand (cfg : Config) (id : String) (cmd : Command) (fuel : ℕ) :
    Deliver (List OverflowEvent × Option Error) := do
  let createdAt ← creationTime cmd
  match normalizeCommandPriority { cmd with createdAt := createdAt } with
  | .error err => return ([], some err)
  | .ok normalized => enqueueWithEvents cfg id normalized fuel

/-! ## Frames from the controller

A handler answers whether the connection stays open. -/

/-- `sendControllerAck`: command 24 with the number of the frame it answers. -/
def controllerAckFrame (mode : FrameMode) (seq code : UInt8) : Except String (List UInt8) := do
  validateServerCommandPayload 24 [seq, code]
  encodeFrame ⟨255, seq, [24, seq, code], mode⟩

def handleStatus1 (conn : ConnID) (frame : Frame) : Deliver Bool := do
  match parseStatus1Payload frame.payload with
  | .error _ => return true
  | .ok st =>
      perform (.updateBufferFree st.bufferFree)
      match controllerAckFrame frame.mode frame.seq ackCodeOK with
      | .error _ => return false
      | .ok bytes =>
          match ← perform (.write conn bytes) with
          | some _ => return false
          | none =>
              if status1ReadyForFW st.flags then
                return (← perform (.setFWMode true)).isNone
              else return true

/-- The terminal branch: take the command out of flight and report its status. -/
def handleTerminalAck (id : String) (ack : Ack11) : Deliver Unit := do
  let interp := interpretAck11ExecutionCode ack.executionCode
  match ← perform (.ackInFlight ack.commandSeq) with
  | none => return
  | some (cmd, attempts) =>
      let reason := s!"{interp.reason}; code={ack.executionCode}; attempts={attempts}"
      perform (.publishAckWithCommand (ackEvent id cmd ack.commandSeq interp.status reason) cmd)

/-- The other branch: the command stays in flight. -/
def handleProgressAck (id : String) (ack : Ack11) : Deliver Unit := do
  let interp := interpretAck11ExecutionCode ack.executionCode
  let reason := s!"{interp.reason}; code={ack.executionCode}"
  match ← perform (.peekInFlight ack.commandSeq) with
  | some (cmd, _) =>
      perform (.publishAck (ackEvent id cmd ack.commandSeq interp.status reason))
  | none =>
      perform (.publishAck
        { messageID := s!"inflight-{id}-{ack.commandSeq}", traceID := "", controllerID := id,
          commandID := 0, commandSeq := ack.commandSeq, status := interp.status,
          reason := reason })

def handleAck11 (id : String) (frame : Frame) : Deliver Unit := do
  match parseAck11Payload frame.payload with
  | .error _ => return
  | .ok ack =>
      perform (.updateBufferFree ack.bufferFreeBytes)
      if (interpretAck11ExecutionCode ack.executionCode).terminal then handleTerminalAck id ack
      else handleProgressAck id ack

def handleStatus4 (frame : Frame) : Deliver Bool := do
  match parseFWStatus4Payload frame.payload with
  | .error _ => return true
  | .ok fw =>
      if isFWFinished fw.progressOrErr || isFWFailed fw.progressOrErr then
        return (← perform (.setFWMode false)).isNone
      else return true

/-- The switch on the command id of a frame. -/
def dispatch (id : String) (conn : ConnID) (frame : Frame) : Deliver Bool := do
  match frame.payload.head? with
  | some 2 => handleStatus1 conn frame
  | some 11 =>
      handleAck11 id frame
      return true
  | some 4 => handleStatus4 frame
  | _ => return true

/-- The body of the read loop for a registered connection. -/
def handleFrame (id : String) (conn : ConnID) (frame : Frame) : Deliver Bool := do
  perform .touch
  if ← dispatch id conn frame then
    processInFlight id
    return (← withFlushLock (flushQueue id)).isNone
  else return false

/-- A frame on a registered connection; the handler marks the session offline as it
returns. -/
def serveFrame (id : String) (conn : ConnID) (frame : Frame) : Deliver Unit := do
  if ← handleFrame id conn frame then return
  else
    let _ ← perform .markOffline

/-- `Time.Unix`: the seconds since 1970. -/
def unix (t : Time) : Int :=
  t / second - 62135596800

/-- `sendRegistrationAck`: command 1 with the server's time. -/
def registrationAckFrame (mode : FrameMode) (seq : UInt8) (now : Time) :
    Except String (List UInt8) := do
  let payload := ackCodeOK :: putUint32 ((unix now).emod (2 ^ 32)).toNat
  validateServerCommandPayload 1 payload
  encodeFrame ⟨255, seq, 1 :: payload, mode⟩

/-- The first frame of a connection, once it has named the controller. -/
def register (id : String) (conn : ConnID) (frame : Frame) : Deliver Unit := do
  match ← perform (.create conn) with
  | some _ => return
  | none =>
      perform (.setFrameMode frame.mode)
      match registrationAckFrame frame.mode frame.seq (← perform .now) with
      | .error _ =>
          let _ ← perform .markOffline
      | .ok bytes =>
          match ← perform (.write conn bytes) with
          | some _ =>
              let _ ← perform .markOffline
          | none => serveFrame id conn frame

def sweep (id : String) : Deliver Unit := do
  processInFlight id
  let _ ← withFlushLock (flushQueue id)

/-! ## Tasks -/

/-- What a goroutine may set out to do for the controller. The tasks from `register` on are
what the source's goroutines do; the others are parts of these, for runs that call them on
their own. -/
inductive Task where
  | enqueue (cmd : Command) (fuel : ℕ)
  | flush
  | process
  | status1 (conn : ConnID) (frame : Frame)
  | ack11 (frame : Frame)
  | status4 (frame : Frame)
  | register (conn : ConnID) (frame : Frame)
  | serve (conn : ConnID) (frame : Frame)
  | disconnect
  | sweep

def Task.prog (cfg : Config) (id : String) : Task → Deliver Unit
  | enqueue cmd fuel => do let _ ← enqueueCommand cfg id cmd fuel
  | flush => do let _ ← withFlushLock (flushQueue id)
  | process => processInFlight id
  | status1 conn frame => do let _ ← handleStatus1 conn frame
  | ack11 frame => handleAck11 id frame
  | status4 frame => do let _ ← handleStatus4 frame
  | register conn frame => Delivery.register id conn frame
  | serve conn frame => serveFrame id conn frame
  | disconnect => do let _ ← perform .markOffline
  | sweep => Delivery.sweep id

/-- The goroutines of one controller. A crash loses everything but the store. -/
abbrev machine (cfg : Config) (id : String) : Machine sig where
  World := World
  Input := Input
  Task := Task
  exec := exec cfg id
  prog := Task.prog cfg id
  crash w := { slot := w.slot.restart, tickets := w.tickets, log := .restarted :: w.log }

/-! ## Schedules -/

section schedules

variable {cfg : Config} {id : String}

/-- A thread goes on for `n` actions, or to the end of its task, with the same input. -/
def go (tid n : ℕ) (inp : Input := {}) : List (Label (machine cfg id)) :=
  List.replicate n (.run tid inp)

/-- A thread starts a task and goes on for `n` actions. -/
def call (tid : ℕ) (task : Task) (n : ℕ) (inp : Input := {}) : List (Label (machine cfg id)) :=
  .start tid task :: go tid n inp

/-- The controller connects. -/
def connect (inp : Input := {}) : List (Label (machine cfg id)) :=
  call 0 (.register 7 ⟨255, 1, [1], .sequenced⟩) 30 inp

end schedules

end TcpAdapter.Delivery
