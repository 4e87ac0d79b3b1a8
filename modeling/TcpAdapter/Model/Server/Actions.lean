import TcpAdapter.Model.Config
import TcpAdapter.Model.Delivery.Programs
import TcpAdapter.Model.Protocol.Reader

/-! # Atomic actions of the server

The accept loop and the handlers of all connections, over the sessions of all controllers.
What a goroutine does for one controller is an action of the delivery engine; `Manager.mu` is
one mutex for all of them.

Every action takes place at a time of the clock, which does not run backwards. The remote host
of a connection does not change. -/

namespace TcpAdapter.Server

open TcpAdapter.Concurrent TcpAdapter.Queue TcpAdapter.Protocol TcpAdapter.Manager

/-- How far the goroutine has got with the connection that it is in charge of. -/
inductive Role where
  | accepted
  | tracked
  | counted
  /-- The handler runs. If it has passed `Create` and not executed `MarkOffline`, `owned` is the
  controller. -/
  | handled (owned : Option String)
  | uncounted
  deriving DecidableEq

/-- Where a connection is on its way through the server. -/
inductive Stage where
  | unborn
  | held (tid : ℕ) (role : Role)
  | spawned
  | gone
  deriving DecidableEq

/-- `blockedTil` is `none` for the zero time. -/
structure IPSecurityState where
  violations : List Time := []
  blockedTil : Option Time := none
  deriving DecidableEq

/-! ## Actions and their answers -/

inductive Act where
  | now
  /-- `Listener.Accept` -/
  | accept
  | activeLoad
  /-- `active.Add`; the connection is ghost. -/
  | activeAdd (conn : ConnID) (delta : Int)
  | isIPBlocked (host : String) (now : Time)
  | registerIPViolation (host : String) (now : Time)
  | tryTrackConn (conn : ConnID)
  | untrackConn (conn : ConnID)
  /-- The `go` statement of the accept loop. -/
  | spawn (conn : ConnID)
  /-- The first step of the goroutine, which makes its reader. -/
  | begin (conn : ConnID)
  | close (conn : ConnID)
  | setReadDeadline (conn : ConnID) (t : Time)
  | readFrame (conn : ConnID) (mode : FrameMode)
  | create (id : String) (conn : ConnID)
  /-- The connection is ghost. -/
  | markOffline (id : String) (conn : ConnID)
  /-- What is done for one controller besides. -/
  | deliver (id : String) (a : Delivery.Act)
  /-- Stands for a loop that is still running; it never answers. -/
  | spin

@[reducible] def Act.Res : Act → Type
  | now => Time
  | accept => ConnID
  | activeLoad => Int
  | isIPBlocked .. | tryTrackConn .. => Bool
  | activeAdd .. | registerIPViolation .. | untrackConn .. | spawn .. | begin .. => Unit
  | close .. | setReadDeadline .. | spin => Unit
  | readFrame .. => Except ReadError Frame
  | create .. | markOffline .. => Option Error
  | deliver _ a => a.Res

abbrev sig : Signature := ⟨Act, Act.Res⟩

/-- What the environment decides about an action: besides what it decides about an action of the
delivery engine, the bytes that arrive while the reader waits, and how the stream ends if they
are too few. -/
structure Input extends Delivery.Input where
  bytes : List UInt8 := []
  ended : ReadError := .timeout

/-! ## The world -/

/-- The connections are numbered as they are accepted. `unread` is what the buffered reader of a
connection holds. The last three fields are ghost. -/
structure World where
  clock : Time := 0
  active : Int := 0
  conns : List ConnID := []
  ipConnCount : String → Option Int := fun _ => none
  ipSec : String → Option IPSecurityState := fun _ => none
  mu : Option ℕ := none
  /-- The controllers that the manager has been asked about. -/
  controllers : List String := []
  deliveries : String → Delivery.World := fun _ => {}
  accepted : ℕ := 0
  deadline : ConnID → Time := fun _ => 0
  unread : ConnID → List UInt8 := fun _ => []
  stage : ConnID → Stage := fun _ => .unborn
  acceptedAt : ConnID → Time := fun _ => 0
  /-- The last frame that the handler has read, and when it was there. -/
  lastRead : ConnID → Option (Time × Frame) := fun _ => none

namespace World

/-- `Session.Conn` -/
def connOf (w : World) (id : String) : Option ConnID :=
  (w.deliveries id).session.bind Session.conn

def onlineConnectionsLocked (w : World) : Int :=
  (w.controllers.filter fun id => (w.connOf id).isSome).length

def setStage (w : World) (conn : ConnID) (s : Stage) : World :=
  { w with stage := Function.update w.stage conn s }

end World

/-! ## What the actions do -/

section exec

variable (cfg : Config) (remoteHost : ConnID → String) (tid : ℕ) (w : World)

def isIPBlocked (host : String) (now : Time) : World × Bool :=
  if cfg.ipViolationLimit ≤ 0 then (w, false)
  else
    match w.ipSec host with
    | none => (w, false)
    | some st =>
        match st.blockedTil with
        | none => (w, false)
        | some til =>
            if now < til then (w, true)
            else ({ w with ipSec := Function.update w.ipSec host (some {}) }, false)

def registerIPViolation (host : String) (now : Time) : World :=
  if cfg.ipViolationLimit ≤ 0 ∨ host = "" then w
  else
    let st := (w.ipSec host).getD {}
    let keep := st.violations.filter fun ts => now - cfg.ipViolationWindow < ts
    let violations := keep ++ [now]
    let st :=
      if (violations.length : Int) ≥ cfg.ipViolationLimit then
        { violations := [], blockedTil := some (now + cfg.ipBlockDuration) }
      else { st with violations := violations }
    { w with ipSec := Function.update w.ipSec host (some st) }

def tryTrackConn (conn : ConnID) : World × Bool :=
  let host := remoteHost conn
  let n := (w.ipConnCount host).getD 0
  if cfg.maxConnectionsPerIP > 0 ∧ n ≥ cfg.maxConnectionsPerIP then (w, false)
  else
    ({ w with
        conns := w.conns.insert conn
        ipConnCount := Function.update w.ipConnCount host (some (n + 1)) }, true)

def untrackConn (conn : ConnID) : World :=
  let host := remoteHost conn
  let ipConnCount :=
    match w.ipConnCount host with
    | none => w.ipConnCount
    | some n => Function.update w.ipConnCount host (if n ≤ 1 then none else some (n - 1))
  { w with conns := w.conns.erase conn, ipConnCount := ipConnCount }

/-- An action for one controller, under the manager's mutex. -/
def execDeliver (id : String) (a : Delivery.Act) (inp : Input) : Option (World × a.Res) :=
  let online := { inp.toInput with online := w.onlineConnectionsLocked }
  (Delivery.exec cfg.delivery id tid { w.deliveries id with mu := w.mu } a online).map fun res =>
    ({ w with
        mu := res.1.mu
        controllers := w.controllers.insert id
        deliveries := Function.update w.deliveries id res.1 }, res.2)

/-- The bytes in the buffer are there at any time; the connection gives up bytes until its
deadline. -/
def execRead (conn : ConnID) (mode : FrameMode) (inp : Input) :
    Option (World × Except ReadError Frame) :=
  if inp.bytes ≠ [] ∧ w.deadline conn < w.clock then none
  else
    match readFrameWithMode inp.ended mode (w.unread conn ++ inp.bytes) with
    | (.error err, rest) =>
        some ({ w with unread := Function.update w.unread conn rest }, .error err)
    | (.ok frame, rest) =>
        some ({ w with
          unread := Function.update w.unread conn rest
          lastRead := Function.update w.lastRead conn (some (w.clock, frame)) }, .ok frame)

/-- The answer of an action at the time of the clock. -/
def execNow : (a : Act) → Input → Option (World × a.Res)
  | .now, _ => some (w, w.clock)
  | .accept, _ =>
      some ({ w.setStage w.accepted (.held tid .accepted) with
        accepted := w.accepted + 1
        acceptedAt := Function.update w.acceptedAt w.accepted w.clock }, w.accepted)
  | .activeLoad, _ => some (w, w.active)
  | .activeAdd conn delta, _ =>
      let w := { w with active := w.active + delta }
      some (w.setStage conn (.held tid (if delta < 0 then .uncounted else .counted)), ())
  | .isIPBlocked host now, _ => some (isIPBlocked cfg w host now)
  | .registerIPViolation host now, _ => some (registerIPViolation cfg w host now, ())
  | .tryTrackConn conn, _ =>
      match tryTrackConn cfg remoteHost w conn with
      | (w, true) => some (w.setStage conn (.held tid .tracked), true)
      | (w, false) => some (w, false)
  | .untrackConn conn, _ => some ((untrackConn remoteHost w conn).setStage conn .gone, ())
  | .spawn conn, _ => some (w.setStage conn .spawned, ())
  | .begin conn, _ =>
      if w.stage conn = .spawned then
        some ({ w.setStage conn (.held tid (.handled none)) with
          unread := Function.update w.unread conn []
          lastRead := Function.update w.lastRead conn none }, ())
      else none
  | .close conn, _ =>
      some (if w.stage conn = .held tid .accepted then w.setStage conn .gone else w, ())
  | .setReadDeadline conn t, _ =>
      some ({ w with deadline := Function.update w.deadline conn t }, ())
  | .readFrame conn mode, inp => execRead w conn mode inp
  | .create id conn, inp =>
      (execDeliver cfg tid w id (.create conn) inp).map fun res =>
        if res.2 = none then (res.1.setStage conn (.held tid (.handled (some id))), res.2)
        else res
  | .markOffline id conn, inp =>
      (execDeliver cfg tid w id .markOffline inp).map fun res =>
        (res.1.setStage conn (.held tid (.handled none)), res.2)
  | .deliver id a, inp => execDeliver cfg tid w id a inp
  | .spin, _ => none

def exec (a : Act) (inp : Input) : Option (World × a.Res) :=
  if w.clock ≤ inp.time then execNow cfg remoteHost tid { w with clock := inp.time } a inp
  else none

end exec

end TcpAdapter.Server
