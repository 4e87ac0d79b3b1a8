import TcpAdapter.Verification.Delivery.Frames

/-! # A thread that is not disturbed

What each action answers and what it makes of the session, while nobody holds the mutex of the
manager and no save and no write fails. -/

namespace TcpAdapter.Delivery

open TcpAdapter.Concurrent TcpAdapter.Queue TcpAdapter.Protocol TcpAdapter.Manager
open TcpAdapter.Policy

/-- Nobody holds `Manager.mu`, `holder` holds the flush mutex, and this is the session. -/
structure Rests (w : World) (holder : Option ℕ) (s : Session) : Prop where
  mu : w.mu = none
  flushMu : w.flushMu = holder
  session : w.session = some s

section actions

variable (cfg : Config) (id : String) (tid : ℕ)

/-- If no save and no write fails, the action answers `r` and leaves the session `s`. -/
def Gives (w : World) (a : Act) (r : a.Res) (holder : Option ℕ) (s : Session) : Prop :=
  ∀ inp : Input, inp.saveErr = none → inp.writeErr = none →
    ∃ w', exec cfg id tid w a inp = some (w', r) ∧ Rests w' holder s

variable {cfg id tid} {w : World} {s : Session} {holder : Option ℕ}

namespace Rests

theorem slot (h : Rests w holder s) : w.slot.session = some s :=
  h.session

theorem guarded {α : Type} (h : Rests w holder s) (x : World × α) : guarded tid w x = some x := by
  simp [Delivery.guarded, World.free, h.mu]

theorem queue (h : Rests w holder s) : w.queue = s.queue :=
  queue_of_session h.session

theorem inFlight (h : Rests w holder s) : w.inFlight = s.inFlight := by
  rw [World.inFlight, Slot.inFlight, h.slot]
  rfl

theorem setQueue (h : Rests w holder s) (q : ControllerQueue) :
    (w.setQueue q).session = some { s with queue := q } := by
  simp only [World.session, World.setQueue, Slot.setQueue, h.slot, Option.map_some]

theorem lockFlush (h : Rests w none s) : Gives cfg id tid w .lockFlush () (some tid) s :=
  fun _ _ _ => ⟨_, if_pos h.flushMu, h.mu, rfl, h.session⟩

theorem unlockFlush (h : Rests w holder s) : Gives cfg id tid w .unlockFlush () none s :=
  fun _ _ _ => ⟨_, rfl, h.mu, rfl, h.session⟩

theorem publishAck (h : Rests w holder s) (event : AckEvent) :
    Gives cfg id tid w (.publishAck event) () holder s :=
  fun _ _ _ => ⟨_, rfl, h.mu, h.flushMu, h.session⟩

theorem publishAckWithCommand (h : Rests w holder s) (event : AckEvent) (cmd : Command) :
    Gives cfg id tid w (.publishAckWithCommand event cmd) () holder s := by
  intro inp _ _
  refine ⟨execPublish tid w event cmd, rfl, ?_⟩
  unfold execPublish
  split
  · obtain ⟨hands, current, owed, heq⟩ :=
      settle_eq (w.note (.published event (some cmd.ticket))) tid cmd.hand
    rw [heq]
    exact ⟨h.mu, h.flushMu, h.session⟩
  · exact ⟨h.mu, h.flushMu, h.session⟩

theorem write (h : Rests w holder s) (conn : ConnID) (bytes : List UInt8) :
    Gives cfg id tid w (.write conn bytes) none holder s :=
  fun _ _ hwrite => ⟨w, by simp only [exec, hwrite], h⟩

theorem transmit (h : Rests w holder s) (conn : ConnID) (bytes : List UInt8) (cmd : Command)
    (seq : UInt8) : Gives cfg id tid w (.transmit conn bytes cmd seq) none holder s := by
  intro inp _ hwrite
  simp only [exec, execTransmit, hwrite]
  exact ⟨_, rfl, h.mu, h.flushMu, h.session⟩

/-! ## The queue -/

theorem queueLen (h : Rests w holder s) : Gives cfg id tid w .queueLen s.queue.len holder s :=
  fun _ _ _ => ⟨w, by simp only [exec, h.queue], h⟩

theorem hasSync (h : Rests w holder s) : Gives cfg id tid w .hasSync s.queue.hasSync holder s :=
  fun _ _ _ => ⟨w, by simp only [exec, h.queue], h⟩

theorem hasFW (h : Rests w holder s) : Gives cfg id tid w .hasFW s.queue.hasFW holder s :=
  fun _ _ _ => ⟨w, by simp only [exec, h.queue], h⟩

theorem drainExpired (h : Rests w holder s) (now : Time) :
    Gives cfg id tid w (.drainExpired now) (s.queue.drainExpired now).1 holder
      { s with queue := (s.queue.drainExpired now).2 } := by
  intro inp _ _
  simp only [exec, execDrain, h.queue]
  exact ⟨_, rfl, h.mu, h.flushMu, h.setQueue _⟩

theorem popNext (h : Rests w holder s) {now : Time} {fwMode syncMode : Bool} {cmd : Option Command}
    {q : ControllerQueue} (hpop : s.queue.popNext fwMode syncMode = (cmd, q)) :
    Gives cfg id tid w (.popNext now fwMode syncMode) cmd holder { s with queue := q } := by
  intro inp _ _
  simp only [exec, execPop, h.queue, hpop]
  cases cmd with
  | none =>
      rw [ControllerQueue.popNext_none hpop]
      exact ⟨w, rfl, h⟩
  | some cmd => exact ⟨_, rfl, h.mu, h.flushMu, h.setQueue q⟩

theorem push (h : Rests w holder s) (cmd : Command) :
    Gives cfg id tid w (.push cmd) () holder { s with queue := s.queue.push cmd } := by
  intro inp _ _
  simp only [exec, execPush, h.queue]
  exact ⟨_, rfl, h.mu, h.flushMu, h.setQueue _⟩

/-! ## The manager -/

theorem deliveryContext (h : Rests w holder s) :
    Gives cfg id tid w .deliveryContext (some s.deliveryContext) holder s :=
  fun _ _ _ => ⟨w, by simp only [exec, h.guarded, h.session, Option.map_some], h⟩

theorem inFlightCount (h : Rests w holder s) :
    Gives cfg id tid w .inFlightCount s.inFlight.count holder s :=
  fun _ _ _ => ⟨w, by simp only [exec, h.guarded, Slot.inFlightCount, h.slot], h⟩

theorem nextCommandSeq (h : Rests w holder s) :
    Gives cfg id tid w .nextCommandSeq (.ok (s.nextSeq + 1)) holder
      { s with nextSeq := s.nextSeq + 1 } := by
  intro inp hsave _
  simp only [exec, h.guarded, Slot.nextCommandSeq, Slot.persistLocked, h.slot, hsave]
  exact ⟨_, rfl, h.mu, h.flushMu, rfl⟩

theorem updateBufferFree (h : Rests w holder s) (free : Int) :
    Gives cfg id tid w (.updateBufferFree free) () holder { s with bufferFree := free } := by
  intro inp _ _
  simp only [exec, h.guarded, Slot.updateBufferFree, h.slot]
  exact ⟨_, rfl, h.mu, h.flushMu, rfl⟩

theorem registerInFlight (h : Rests w holder s) (seq : UInt8) (cmd : Command) (sentAt : Time) :
    Gives cfg id tid w (.registerInFlight seq cmd sentAt) none holder
      { s with inFlight :=
          Function.update s.inFlight seq (some ⟨seq, cmd, sentAt, cmd.attempts + 1⟩) } := by
  intro inp hsave _
  simp only [exec, h.guarded, execRegister, Slot.registerInFlight, Slot.persistLocked, h.session,
    h.slot, hsave]
  exact ⟨_, rfl, h.mu, h.flushMu, rfl⟩

theorem ackInFlight (h : Rests w holder s) (seq : UInt8) :
    Gives cfg id tid w (.ackInFlight seq)
      ((s.inFlight seq).map fun e => (e.command, e.attempts)) holder
      { s with inFlight := Function.update s.inFlight seq none } := by
  intro inp hsave _
  cases hentry : s.inFlight seq with
  | none =>
      rw [← hentry, Function.update_eq_self, hentry]
      simp only [exec, h.guarded, execAck, Slot.ackInFlight, h.slot, hentry]
      exact ⟨_, rfl, h.mu, h.flushMu, h.session⟩
  | some entry =>
      simp only [exec, h.guarded, execAck, Slot.ackInFlight, Slot.persistLocked, h.slot, hentry,
        hsave]
      exact ⟨_, rfl, h.mu, h.flushMu, rfl⟩

theorem setSyncMode (h : Rests w holder s) (enabled : Bool) :
    Gives cfg id tid w (.setSyncMode enabled) none holder { s with syncMode := enabled } := by
  intro inp hsave _
  simp only [exec, h.guarded, method, Slot.setSyncMode, Slot.persistLocked, h.slot, hsave]
  exact ⟨_, rfl, h.mu, h.flushMu, rfl⟩

theorem setFWMode (h : Rests w holder s) (enabled : Bool) :
    Gives cfg id tid w (.setFWMode enabled) none holder { s with fwMode := enabled } := by
  intro inp hsave _
  simp only [exec, h.guarded, method, Slot.setFWMode, Slot.persistLocked, h.slot, hsave]
  exact ⟨_, rfl, h.mu, h.flushMu, rfl⟩

theorem ackSent (h : Rests w holder s) : Gives cfg id tid w .ackSent none holder s := by
  intro inp hsave _
  simp only [exec, h.guarded, method, Slot.ackSent, Slot.persistLocked, h.slot, hsave]
  exact ⟨_, rfl, h.mu, h.flushMu, rfl⟩

end Rests

end actions

end TcpAdapter.Delivery
