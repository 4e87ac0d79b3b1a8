import Mathlib.Data.Multiset.AddSub
import Mathlib.Data.Multiset.Filter
import Mathlib.Data.Multiset.MapFold
import TcpAdapter.Concurrent.Machine
import TcpAdapter.Model.CommandPolicy
import TcpAdapter.Model.Protocol.Messages

/-! # Atomic actions of the delivery engine

The goroutines that serve one controller share its session, its queue and its row in the
store. An action is what one of them does without another getting in between: a queue
method, which holds the queue's mutex, or a manager method that touches the queue at most
once. `enqueueLocked` and `ProcessInFlight` touch it more often; they are programs that
hold `Manager.mu` from `lockManager` to `unlockManager`, and every other manager method
waits for them.

The ghost part of the world records where each command is and what has happened. No
answer and no program depends on it. -/

namespace TcpAdapter.Delivery

open TcpAdapter.Concurrent TcpAdapter.Queue TcpAdapter.Protocol TcpAdapter.Manager
open TcpAdapter.Policy

structure AckEvent where
  messageID : String
  traceID : String
  controllerID : String
  commandID : UInt8
  commandSeq : UInt8 := 0
  status : AckStatus
  reason : String := ""
  deriving DecidableEq

/-! ## Actions and their answers -/

inductive Act where
  /-- `time.Now` -/
  | now
  /-- `Conn.Write` of an acknowledgement frame. -/
  | write (conn : ConnID) (bytes : List UInt8)
  /-- `Conn.Write` of a command frame; the command and its number are ghost. -/
  | transmit (conn : ConnID) (bytes : List UInt8) (cmd : Command) (seq : UInt8)
  | publishAck (event : AckEvent)
  | publishAckWithCommand (event : AckEvent) (cmd : Command)
  -- the flush mutex of the controller and `Manager.mu`
  | lockFlush
  | unlockFlush
  | lockManager
  | unlockManager
  -- `queue.ControllerQueue`
  | queueLen
  | queueBytes
  | hasFW
  | hasSync
  | popNext (now : Time) (fwMode syncMode : Bool)
  | drainExpired (now : Time)
  | push (cmd : Command)
  | dropOldest
  /-- `Push` of a new command, which gets its ticket. -/
  | pushNew (cmd : Command)
  -- `session.Manager`
  | create (conn : ConnID)
  | markOffline
  | touch
  | updateBufferFree (free : Int)
  | setFWMode (enabled : Bool)
  | setSyncMode (enabled : Bool)
  | setFrameMode (mode : FrameMode)
  | deliveryContext
  | inFlightCount
  | ackSent
  | nextCommandSeq
  | registerInFlight (seq : UInt8) (cmd : Command) (sentAt : Time)
  | ackInFlight (seq : UInt8)
  | peekInFlight (seq : UInt8)
  -- steps of the manager's methods that hold `Manager.mu`
  | findSession
  | ensureSession
  | dedupTime (key : String)
  | setDedup (key : String) (t : Time)
  | persist
  | inFlightOrder
  | visitInFlight (seq : UInt8) (now : Time)
  /-- The save that ends `enqueueLocked`; the ticket is ghost. -/
  | persistEnqueued (ticket : ℕ)
  /-- Stands for a loop that is still running; it never answers. -/
  | spin

@[reducible] def Act.Res : Act → Type
  | now => Time
  | write .. | transmit .. => Option Error
  | publishAck .. | publishAckWithCommand .. => Unit
  | lockFlush | unlockFlush | lockManager | unlockManager => Unit
  | queueLen => ℕ
  | queueBytes => Int
  | hasFW | hasSync => Bool
  | popNext .. | dropOldest => Option Command
  | drainExpired .. => List Command
  | push .. => Unit
  | pushNew .. => ℕ
  | create .. | markOffline | setFWMode .. | setSyncMode .. | ackSent | registerInFlight .. =>
      Option Error
  | touch | updateBufferFree .. | setFrameMode .. => Unit
  | deliveryContext => Option DeliveryContext
  | inFlightCount => ℕ
  | nextCommandSeq => Except Error UInt8
  | ackInFlight .. | peekInFlight .. => Option (Command × Int)
  | findSession => Bool
  | ensureSession | persist | persistEnqueued .. => Option Error
  | dedupTime .. => Option Time
  | setDedup .. => Unit
  | inFlightOrder => List UInt8
  | visitInFlight .. => Option InFlightOutcome
  | spin => Unit

abbrev sig : Signature := ⟨Act, Act.Res⟩

/-- What the environment decides about an action: the clock reading, whether a save or a
write fails, the order of a map iteration, the number of sessions that are online. -/
structure Input where
  time : Time := 0
  saveErr : Option Error := none
  writeErr : Option Error := none
  order : List UInt8 := []
  online : Int := 0

/-! ## The world -/

/-- A command in somebody's hands: its ticket, its id and its priority. -/
abbrev Hand := ℕ × UInt8 × Priority

end TcpAdapter.Delivery

def TcpAdapter.Queue.Command.hand (cmd : Command) : TcpAdapter.Delivery.Hand :=
  (cmd.ticket, cmd.commandID, cmd.priority)

namespace TcpAdapter.Delivery

open TcpAdapter.Concurrent TcpAdapter.Queue TcpAdapter.Protocol TcpAdapter.Manager
open TcpAdapter.Policy

/-- The history of a run, as far as the properties speak about it. -/
inductive Event where
  | accepted (ticket : ℕ)
  | evicted (ticket : ℕ)
  | published (event : AckEvent) (ticket : Option ℕ)
  /-- A command frame was written while the session was in these modes. -/
  | transmitted (ticket : ℕ) (commandID seq : UInt8) (bytes : List UInt8) (fwMode syncMode : Bool)
  | acked (ticket : ℕ) (seq : UInt8)
  /-- `AckInFlight` found nothing under the number. -/
  | missed (seq : UInt8)
  | timedOut (ticket : ℕ) (seq : UInt8)
  /-- A flush pushed a command back to the queue. -/
  | putBack (ticket : ℕ)
  /-- A save succeeded while the commands `held` were in somebody's hands and `tickets`
  tickets had been given out. -/
  | saved (held : Multiset ℕ) (tickets : ℕ)
  | setFW (tid : ℕ) (enabled : Bool)
  | setSync (tid : ℕ) (enabled : Bool)
  | flushStarted (tid : ℕ)
  | flushEnded (tid : ℕ)
  | restarted
  deriving DecidableEq

/-- `mu` and `flushMu` name the thread that holds the mutex. The fields below them are
ghost: `hands` are the commands the running flush has popped and not yet disposed of,
`current` is the one it popped last, if it still has it, `written` the command and number of
a frame it has written and not yet registered, and `owed` are the commands a thread has
taken out for good and must still report. The newest event comes first in `log`. -/
structure World where
  slot : Slot := {}
  mu : Option ℕ := none
  flushMu : Option ℕ := none
  tickets : ℕ := 0
  hands : Multiset Hand := 0
  current : Option Hand := none
  written : Option (ℕ × UInt8) := none
  owed : Multiset (ℕ × Hand) := 0
  log : List Event := []

namespace World

def session (w : World) : Option Session :=
  w.slot.session

def queue (w : World) : ControllerQueue :=
  w.slot.queue

def inFlight (w : World) : InFlight :=
  w.slot.inFlight

def nextSeq (w : World) : UInt8 :=
  w.slot.nextSeq

def fwMode (w : World) : Bool :=
  w.slot.fwMode

def syncMode (w : World) : Bool :=
  w.slot.syncMode

/-- The tickets of the commands in somebody's hands. -/
def held (w : World) : Multiset ℕ :=
  w.hands.map Prod.fst + w.owed.map fun o => o.2.1

def note (w : World) (e : Event) : World :=
  { w with log := e :: w.log }

def setSession (w : World) (s : Session) : World :=
  { w with slot := { w.slot with session := some s } }

def setQueue (w : World) (q : ControllerQueue) : World :=
  { w with slot := w.slot.setQueue q }

/-- Take over the result of a manager method, and note a save that it made. -/
def commit (w : World) (m : Slot) : World :=
  { w with
    slot := m
    log := if m.saves = w.slot.saves then w.log else .saved w.held w.tickets :: w.log }

/-- The flush disposes of a command. -/
def release (w : World) (h : Hand) : World :=
  { w with
    hands := w.hands.erase h
    current := if w.current = some h then none else w.current }

/-- The thread disposes of a command it reported: one that it owed a report, or the one
that its flush had popped last. -/
def settle (w : World) (tid : ℕ) (h : Hand) : World :=
  if (tid, h) ∈ w.owed then { w with owed := w.owed.erase (tid, h) }
  else if w.flushMu = some tid ∧ w.current = some h then w.release h
  else w

/-- `Manager.mu` does not keep the thread waiting. -/
def free (w : World) (tid : ℕ) : Bool :=
  w.mu = none || w.mu = some tid

end World

/-! ## What the actions do -/

section exec

variable (cfg : Config) (id : String) (tid : ℕ) (w : World)

/-- A manager method whose answer is an error or nil. -/
def method (res : Slot × Option Error) : World × Option Error :=
  (w.commit res.1, res.2)

/-- `Manager.mu` is free or held by this thread. -/
def guarded {α : Type} (x : World × α) : Option (World × α) :=
  if w.free tid then some x else none

def execTransmit (bytes : List UInt8) (cmd : Command) (seq : UInt8) (inp : Input) :
    World × Option Error :=
  match inp.writeErr with
  | some err => (w, some err)
  | none =>
      let w' := w.note (.transmitted cmd.ticket cmd.commandID seq bytes w.fwMode w.syncMode)
      ({ w' with written := some (cmd.ticket, seq) }, none)

def execPublish (event : AckEvent) (cmd : Command) : World :=
  let w := w.note (.published event (some cmd.ticket))
  if isTerminalAckStatus event.status then w.settle tid cmd.hand else w

def execPop (fwMode syncMode : Bool) : World × Option Command :=
  match w.queue.popNext fwMode syncMode with
  | (none, _) => (w, none)
  | (some cmd, q) =>
      ({ w.setQueue q with hands := cmd.hand ::ₘ w.hands, current := some cmd.hand }, some cmd)

def execDrain (now : Time) : World × List Command :=
  let res := w.queue.drainExpired now
  ({ w.setQueue res.2 with owed := (res.1.map fun c => (tid, c.hand)) + w.owed }, res.1)

def execPush (cmd : Command) : World :=
  ((w.setQueue (w.queue.push cmd)).note (.putBack cmd.ticket)).release cmd.hand

def execDropOldest : World × Option Command :=
  match w.queue.dropOldest with
  | (none, _) => (w, none)
  | (some cmd, q) => ((w.setQueue q).note (.evicted cmd.ticket), some cmd)

def execPushNew (cmd : Command) : World × ℕ :=
  let cmd := { cmd with ticket := w.tickets }
  ({ w.setQueue (w.queue.push cmd) with tickets := w.tickets + 1 }, w.tickets)

def execRegister (seq : UInt8) (cmd : Command) (sentAt : Time) (inp : Input) :
    World × Option Error :=
  let res := w.slot.registerInFlight seq cmd sentAt inp.saveErr
  match w.session with
  | none => ({ w with written := none }, res.2)
  | some _ =>
      (({ w with written := none }.release cmd.hand).commit res.1, res.2)

def execAck (seq : UInt8) (inp : Input) : World × Option (Command × Int) :=
  match w.slot.ackInFlight seq inp.saveErr with
  | (m, none) => ((w.commit m).note (.missed seq), none)
  | (m, some (cmd, attempts)) =>
      let w := { w with owed := (tid, cmd.hand) ::ₘ w.owed }
      ((w.note (.acked cmd.ticket seq)).commit m, some (cmd, attempts))

def execVisit (seq : UInt8) (now : Time) : World × Option InFlightOutcome :=
  match w.session with
  | none => (w, none)
  | some s =>
      match s.visitInFlight (deliveryPolicyForCommand cfg) now seq with
      | (_, none) => (w, none)
      | (s', some out) =>
          let w := (w.setSession s').note (.timedOut out.command.ticket seq)
          match out.type with
          | .retrying => (w, some out)
          | _ => ({ w with owed := (tid, out.command.hand) ::ₘ w.owed }, some out)

/-- The save that ends `ProcessInFlight`. If it fails the caller drops the outcomes. -/
def execPersist (inp : Input) : World × Option Error :=
  match method w (w.slot.ackSent inp.saveErr) with
  | (w, none) => (w, none)
  | (w, some err) => ({ w with owed := w.owed.filter fun o => o.1 ≠ tid }, some err)

def execEnqueued (ticket : ℕ) (inp : Input) : World × Option Error :=
  match method w (w.slot.ackSent inp.saveErr) with
  | (w, none) => (w.note (.accepted ticket), none)
  | (w, some err) => (w, some err)

/-- The answer of one action, with the world it leaves. -/
def exec : (a : Act) → Input → Option (World × a.Res)
  | .now, inp => some (w, inp.time)
  | .write _ _, inp => some (w, inp.writeErr)
  | .transmit _ bytes cmd seq, inp => some (execTransmit w bytes cmd seq inp)
  | .publishAck event, _ => some (w.note (.published event none), ())
  | .publishAckWithCommand event cmd, _ => some (execPublish tid w event cmd, ())
  | .lockFlush, _ =>
      if w.flushMu = none then
        some (({ w with flushMu := some tid }).note (.flushStarted tid), ())
      else none
  | .unlockFlush, _ =>
      -- what the flush still has in its hands is lost with its local variables
      some (({ w with flushMu := none, hands := 0, current := none, written := none }).note
        (.flushEnded tid), ())
  | .lockManager, _ => if w.mu = none then some ({ w with mu := some tid }, ()) else none
  | .unlockManager, _ => some ({ w with mu := none }, ())
  | .queueLen, _ => some (w, w.queue.len)
  | .queueBytes, _ => some (w, w.queue.totalEstimatedBytes)
  | .hasFW, _ => some (w, w.queue.hasFW)
  | .hasSync, _ => some (w, w.queue.hasSync)
  | .popNext _ fwMode syncMode, _ => some (execPop w fwMode syncMode)
  | .drainExpired now, _ => some (execDrain tid w now)
  | .push cmd, _ => some (execPush w cmd, ())
  | .dropOldest, _ => some (execDropOldest w)
  | .pushNew cmd, _ => some (execPushNew w cmd)
  | .create conn, inp => guarded tid w
      (method w (w.slot.create cfg.maxConnections inp.online id conn inp.time inp.saveErr))
  | .markOffline, inp => guarded tid w (method w (w.slot.markOffline inp.time inp.saveErr))
  | .touch, inp => guarded tid w (w.commit (w.slot.touch inp.time inp.saveErr), ())
  | .updateBufferFree free, _ => guarded tid w (w.commit (w.slot.updateBufferFree free), ())
  | .setFWMode enabled, inp => guarded tid w
      (method (w.note (.setFW tid enabled)) (w.slot.setFWMode enabled inp.saveErr))
  | .setSyncMode enabled, inp => guarded tid w
      (method (w.note (.setSync tid enabled)) (w.slot.setSyncMode enabled inp.saveErr))
  | .setFrameMode mode, _ => guarded tid w (w.commit (w.slot.setFrameMode mode), ())
  | .deliveryContext, _ => guarded tid w (w, w.session.map Session.deliveryContext)
  | .inFlightCount, _ => guarded tid w (w, w.slot.inFlightCount)
  | .ackSent, inp => guarded tid w (method w (w.slot.ackSent inp.saveErr))
  | .nextCommandSeq, inp =>
      let res := w.slot.nextCommandSeq inp.saveErr
      guarded tid w (w.commit res.1, res.2)
  | .registerInFlight seq cmd sentAt, inp => guarded tid w (execRegister w seq cmd sentAt inp)
  | .ackInFlight seq, inp => guarded tid w (execAck tid w seq inp)
  | .peekInFlight seq, _ => guarded tid w (w, w.slot.peekInFlight seq)
  | .findSession, _ => some (w, w.session.isSome)
  | .ensureSession, inp => some (method w (w.slot.ensureSession id inp.time inp.saveErr))
  | .dedupTime key, _ => some (w, w.session.bind fun s => s.dedup key)
  | .setDedup key t, _ =>
      match w.session with
      | some s => some (w.setSession { s with dedup := Function.update s.dedup key (some t) }, ())
      | none => some (w, ())
  | .persist, inp => some (execPersist tid w inp)
  | .inFlightOrder, inp =>
      -- the iteration visits every entry that is there at its start
      if allSeqs.all fun seq => w.inFlight seq = none ∨ seq ∈ inp.order then some (w, inp.order)
      else none
  | .visitInFlight seq now, _ => some (execVisit cfg tid w seq now)
  | .persistEnqueued ticket, inp => some (execEnqueued w ticket inp)
  | .spin, _ => none

end exec

end TcpAdapter.Delivery
