import TcpAdapter.Verification.Delivery.Alone
import TcpAdapter.Verification.Delivery.Conservation
import TcpAdapter.Verification.Delivery.Flush

/-! # The counter wraps around

A flush takes a number from the counter before it knows whether the command fits, so a
command that does not fit uses up a number each time it is tried. After 256 of them the
counter is where it was, while a retry may have been waiting in the queue with its number
all along. -/

namespace TcpAdapter.Delivery

open TcpAdapter.Concurrent TcpAdapter.Queue TcpAdapter.Protocol TcpAdapter.Manager
open TcpAdapter.Policy

/-! ## A thread that is not disturbed -/

section exec

variable {cfg : Config} {id : String} {tid : ℕ} {w : World} {s : Session} {holder : Option ℕ}

theorem Gives.reaches {α : Type} {Q : World → Deliver α → Prop} {a : Act}
    {k : a.Res → Deliver α} {r : a.Res} (h : Gives cfg id tid w a r holder s)
    (hseq : freshSeq w a = true)
    (hk : ∀ w, Rests w holder s → Reaches (savingRules cfg id) tid Q w (k r)) :
    Reaches (savingRules cfg id) tid Q w (.act a k) := by
  obtain ⟨w', hexec, hw'⟩ := h {} rfl rfl
  exact .act {} ⟨rfl, hseq⟩ hexec (hk w' hw')

/-- The clock stands at 0. -/
theorem now_reaches {α : Type} {Q : World → Deliver α → Prop} {k : Time → Deliver α}
    (hk : Reaches (savingRules cfg id) tid Q w (k 0)) :
    Reaches (savingRules cfg id) tid Q w (.act .now k) :=
  .act {} ⟨rfl, rfl⟩ rfl hk

/-! ## What one flush does -/

/-- `cmd` is next in the queue, nothing keeps it from being sent, and `rest` stays behind. -/
structure Front (dctx : DeliveryContext) (q : ControllerQueue) (cmd : Command)
    (rest : ControllerQueue) : Prop where
  unexpired : q.drainExpired 0 = ([], q)
  popped : q.popNext dctx.fwMode dctx.syncMode = (some cmd, rest)
  allowed : commandAllowedInModes cmd.commandID dctx.fwMode dctx.syncMode = true
  sendable : cmd.Sendable

variable {dctx : DeliveryContext} {q rest : ControllerQueue} {cmd : Command}

theorem Front.unexpired_cmd (h : Front dctx q cmd rest) : cmd.expired 0 = false := by
  simp [Command.expired, h.sendable.1]

theorem Front.valid (h : Front dctx q cmd rest) :
    ∃ u, validateServerCommandPayload cmd.commandID cmd.payload = .ok u := by
  cases hv : validateServerCommandPayload cmd.commandID cmd.payload with
  | ok u => exact ⟨u, rfl⟩
  | error err => exact absurd h.sendable (Command.not_sendable_of_invalid hv)

theorem Front.len_ne_zero (h : Front dctx q cmd rest) : q.len ≠ 0 := by
  have hperm := (ControllerQueue.popNext_snapshot_perm h.popped).length_eq
  have hlen : q.snapshot.length = q.len := by
    simp only [ControllerQueue.snapshot, ControllerQueue.len, List.length_append]
  rw [hlen, List.length_cons] at hperm
  omega

theorem encodeFrame_of_sendable (h : cmd.Sendable) (seq : UInt8) (mode : FrameMode) :
    ∃ bytes, encodeFrame (commandFrame cmd seq mode) = .ok bytes ∧
      bytes.length = cmd.frameLength mode := by
  cases he : encodeFrame (commandFrame cmd seq mode) with
  | error err => exact absurd h (Command.not_sendable_of_encode he)
  | ok bytes => exact ⟨bytes, rfl, Command.frameLength_eq he⟩

/-- The command gets the number `seq`: its own if it is a retry, else the next one of the
counter, which then stands at `next`. -/
inductive GetsSeq (s : Session) (cmd : Command) : (seq next : UInt8) → Prop where
  | fresh (h : cmd.retrySeq = 0) : GetsSeq s cmd (s.nextSeq + 1) (s.nextSeq + 1)
  | retry (h : cmd.retrySeq ≠ 0) : GetsSeq s cmd cmd.retrySeq s.nextSeq

/-- What a pass does with the first command. -/
theorem scanQueue_front {Q : World → Deliver Pass → Prop} {conn : ConnID} {remaining : Int}
    {n : ℕ} {seq next : UInt8} (hw : Rests w holder s) (hf : Front dctx s.queue cmd rest)
    (hseq : GetsSeq s cmd seq next)
    (hk : ∀ w (bytes : List UInt8), bytes.length = cmd.frameLength dctx.frameMode →
      Rests w holder { s with queue := rest, nextSeq := next } →
      Reaches (savingRules cfg id) tid Q w
        (if bytes.length > remaining then do
          perform (.push cmd.unnumbered)
          return .exit none
        else sendFrame id conn cmd.unnumbered seq bytes dctx remaining [])) :
    Reaches (savingRules cfg id) tid Q w (scanQueue id conn dctx remaining (n + 1) []) := by
  obtain ⟨bytes, hbytes, hlength⟩ := encodeFrame_of_sendable hf.sendable seq dctx.frameMode
  obtain ⟨u, hvalid⟩ := hf.valid
  have hframe : encodeFrame (commandFrame { cmd with retrySeq := 0 } seq dctx.frameMode) =
      .ok bytes := hbytes
  refine now_reaches ?_
  refine (hw.popNext hf.popped).reaches rfl fun w hw => ?_
  refine now_reaches ?_
  simp only [Prog.bind, hf.unexpired_cmd, hf.allowed, hvalid, commandSeq, Bool.not_true,
    Bool.false_eq_true, if_false]
  cases hseq with
  | fresh hz =>
      rw [if_pos hz]
      refine hw.nextCommandSeq.reaches rfl fun w hw => ?_
      simp only [Prog.bind, hframe]
      exact hk w bytes hlength hw
  | retry hne =>
      rw [if_neg hne]
      simp only [Prog.pure_eq, Prog.ret_bind, hframe]
      exact hk w bytes hlength hw

/-- A flush finds nothing in flight and enters its loop. -/
theorem flush_begin {Q : World → Deliver Unit → Prop} {conn : ConnID} (hw : Rests w none s)
    (hconn : s.conn = some conn) (hidle : s.inFlight.count = 0)
    (hk : ∀ w, Rests w (some tid) s → Reaches (savingRules cfg id) tid
      (fun w p => Reaches (savingRules cfg id) tid Q w
        (p >>= fun _ => perform .unlockFlush)) w
      (flushLoop id conn (maxBudget s.deliveryContext).toNat s.deliveryContext
        (maxBudget s.deliveryContext))) :
    Reaches (savingRules cfg id) tid Q w (Task.prog cfg id .flush) := by
  have hdctx : s.deliveryContext.conn = some conn := hconn
  refine hw.lockFlush.reaches rfl fun w hw => ?_
  refine hw.deliveryContext.reaches rfl fun w hw => ?_
  simp only [Prog.bind, hdctx]
  refine hw.inFlightCount.reaches rfl fun w hw => ?_
  simp only [Prog.bind, hidle, gt_iff_lt, Nat.lt_irrefl, if_false]
  have h := (hk w hw).bind
  change Reaches _ _ _ _ (flushLoop _ _ _ _ _ >>= _ >>= _)
  rw [Prog.bind_bind]
  exact h

/-- The loop begins a pass. -/
theorem flushLoop_begin {Q : World → Deliver (Option Error) → Prop} {conn : ConnID}
    {fuel : ℕ} {remaining : Int}
    (hw : Rests w holder s) (hf : Front dctx s.queue cmd rest) (hremaining : 0 < remaining)
    (hk : ∀ w n, Rests w holder s → Reaches (savingRules cfg id) tid Q w
      (scanQueue id conn dctx remaining (n + 1) [] >>= fun pass => match pass with
        | .exit err => return err
        | .unsent skipped => do
            pushAll skipped
            return none
        | .sent dctx remaining skipped => do
            pushAll skipped
            match ← leaveSync dctx with
            | .error err => return some err
            | .ok dctx =>
                match ← leaveFW dctx with
                | .error err => return some err
                | .ok dctx => flushLoop id conn fuel dctx remaining)) :
    Reaches (savingRules cfg id) tid Q w (flushLoop id conn (fuel + 1) dctx remaining) := by
  obtain ⟨n, hlen⟩ := Nat.exists_eq_add_one_of_ne_zero hf.len_ne_zero
  simp only [flushLoop, if_neg (Int.not_le.mpr hremaining)]
  refine now_reaches ?_
  have hdrain : Gives cfg id tid w (.drainExpired 0) _ holder _ := hw.drainExpired 0
  rw [hf.unexpired] at hdrain
  refine hdrain.reaches rfl fun w hw => ?_
  refine hw.queueLen.reaches rfl fun w hw => ?_
  have h := hk w n hw
  simp only [Prog.bind, hlen, Nat.add_one_ne_zero, if_false]
  exact h

/-- The command in front does not fit, and it is alone in its class. -/
structure Blocked (dctx : DeliveryContext) (q : ControllerQueue) (cmd : Command)
    (rest : ControllerQueue) : Prop extends Front dctx q cmd rest where
  unnumbered : cmd.retrySeq = 0
  tooLong : maxBudget dctx < cmd.frameLength dctx.frameMode
  alone : rest.push cmd = q

theorem flushLoop_blocked {conn : ConnID} {fuel : ℕ} (hw : Rests w holder s)
    (hb : Blocked dctx s.queue cmd rest) (hpos : 0 < maxBudget dctx) :
    Reaches (savingRules cfg id) tid
      (fun w p => p = .ret none ∧ Rests w holder { s with nextSeq := s.nextSeq + 1 }) w
      (flushLoop id conn (fuel + 1) dctx (maxBudget dctx)) := by
  have hself : cmd.unnumbered = cmd := by rw [Command.unnumbered, ← hb.unnumbered]
  refine flushLoop_begin hw hb.toFront hpos fun w n hw => ?_
  refine Reaches.bind (scanQueue_front hw hb.toFront (.fresh hb.unnumbered) ?_)
  intro w bytes hlength hw
  have hlong : (bytes.length : Int) > maxBudget dctx := by
    rw [hlength]
    exact hb.tooLong
  rw [if_pos hlong, hself]
  refine (hw.push cmd).reaches rfl fun w hw => ?_
  refine .here (.here ⟨rfl, ?_⟩)
  rw [← hb.alone]
  exact hw

/-- A flush whose command does not fit uses up a number, and that is all. -/
theorem flush_blocked (hw : Rests w none s) (hb : Blocked s.deliveryContext s.queue cmd rest)
    (hconn : s.conn.isSome) (hidle : s.inFlight.count = 0) :
    Reaches (savingRules cfg id) tid
      (fun w p => p = .ret () ∧ Rests w none { s with nextSeq := s.nextSeq + 1 }) w
      (Task.prog cfg id .flush) := by
  obtain ⟨conn, hconn⟩ := Option.isSome_iff_exists.mp hconn
  have hpos : 0 < maxBudget s.deliveryContext := by
    unfold maxBudget
    split <;> omega
  obtain ⟨fuel, hfuel⟩ : ∃ fuel, (maxBudget s.deliveryContext).toNat = fuel + 1 :=
    ⟨_, (Nat.succ_pred_eq_of_pos (by omega)).symm⟩
  refine flush_begin hw hconn hidle fun w hw => ?_
  rw [hfuel]
  refine (flushLoop_blocked hw hb hpos).mono ?_
  rintro w p ⟨rfl, hw⟩
  refine hw.unlockFlush.reaches rfl fun w hw => ?_
  exact .here ⟨rfl, hw⟩

/-- A frame is written and the command is registered. -/
theorem sendFrame_sent {conn : ConnID} {seq : UInt8} {bytes : List UInt8} {remaining : Int}
    (hw : Rests w holder s) (hsync : ¬(12 ≤ cmd.commandID ∧ cmd.commandID ≤ 16))
    (hfw : cmd.commandID ≠ 19) (hfree : s.inFlight seq = none) :
    Reaches (savingRules cfg id) tid
      (fun w p => p = .ret (.sent dctx (remaining - bytes.length) []) ∧ Rests w holder
        { s with inFlight :=
            Function.update s.inFlight seq (some ⟨seq, cmd, 0, cmd.attempts + 1⟩) }) w
      (sendFrame id conn cmd seq bytes dctx remaining []) := by
  refine (hw.transmit conn bytes cmd seq).reaches rfl fun w hw => ?_
  refine now_reaches ?_
  have hseq : freshSeq w (.registerInFlight seq cmd 0) = true := by
    have hnone : w.inFlight seq = none := by rw [hw.inFlight, hfree]
    simpa [freshSeq] using hnone
  refine (hw.registerInFlight seq cmd 0).reaches hseq fun w hw => ?_
  simp only [Prog.bind, finishSend, enterSync, enterFW, if_neg hsync, if_neg hfw]
  refine (hw.publishAck _).reaches rfl fun w hw => ?_
  refine hw.ackSent.reaches rfl fun w hw => ?_
  exact .here ⟨rfl, hw⟩

/-- The program is about to register a command under a number that is in flight. -/
def Collides {α : Type} (seq : UInt8) (w : World) (p : Deliver α) : Prop :=
  (w.inFlight seq).isSome ∧ ∃ cmd sentAt k, p = .act (.registerInFlight seq cmd sentAt) k

theorem Collides.bind {α β : Type} {seq : UInt8} {p : Deliver α} (h : Collides seq w p)
    (f : α → Deliver β) : Collides seq w (p >>= f) := by
  obtain ⟨hlive, cmd, sentAt, k, rfl⟩ := h
  exact ⟨hlive, cmd, sentAt, _, rfl⟩

theorem sendFrame_collides {conn : ConnID} {seq : UInt8} {bytes : List UInt8}
    {remaining : Int} (hw : Rests w holder s) (hlive : (s.inFlight seq).isSome) :
    Reaches (savingRules cfg id) tid (Collides seq) w
      (sendFrame id conn cmd seq bytes dctx remaining []) := by
  refine (hw.transmit conn bytes cmd seq).reaches rfl fun w hw => ?_
  refine now_reaches ?_
  refine .here ⟨?_, cmd, 0, _, rfl⟩
  rwa [hw.inFlight]

/-- Two commands fit, and the second one is a retry whose number the counter has reached. -/
structure Colliding (s : Session) (cmd next : Command) (rest rest' : ControllerQueue) : Prop where
  first : Front s.deliveryContext s.queue cmd rest
  second : Front s.deliveryContext rest next rest'
  unmoded : s.fwMode = false ∧ s.syncMode = false
  staysUnmoded : ¬(12 ≤ cmd.commandID ∧ cmd.commandID ≤ 16) ∧ cmd.commandID ≠ 19
  unnumbered : cmd.retrySeq = 0
  retries : next.retrySeq = s.nextSeq + 1 ∧ next.retrySeq ≠ 0
  fit : (cmd.frameLength s.frameMode + next.frameLength s.frameMode : Int) ≤
    maxBudget s.deliveryContext

theorem frameLength_pos (mode : FrameMode) (cmd : Command) : 0 < cmd.frameLength mode :=
  Nat.succ_pos _

theorem flushLoop_collides {conn : ConnID} {fuel : ℕ} {next : Command} {rest' : ControllerQueue}
    (hw : Rests w holder s) (hc : Colliding s cmd next rest rest')
    (hidle : ∀ seq, s.inFlight seq = none) :
    Reaches (savingRules cfg id) tid (Collides (s.nextSeq + 1)) w
      (flushLoop id conn (fuel + 2) s.deliveryContext (maxBudget s.deliveryContext)) := by
  have hfit := hc.fit
  have hpos := frameLength_pos s.frameMode cmd
  have hpos' := frameLength_pos s.frameMode next
  refine flushLoop_begin hw hc.first (by omega) fun w n hw => ?_
  refine Reaches.bind (scanQueue_front hw hc.first (.fresh hc.unnumbered) ?_)
  intro w bytes hlength hw
  have hlen : (bytes.length : Int) = cmd.frameLength s.frameMode := by rw [hlength]; rfl
  rw [if_neg (by omega)]
  have hplain : ¬(12 ≤ cmd.unnumbered.commandID ∧ cmd.unnumbered.commandID ≤ 16) ∧
      cmd.unnumbered.commandID ≠ 19 := hc.staysUnmoded
  refine (sendFrame_sent hw hplain.1 hplain.2 (hidle _)).mono ?_
  rintro w p ⟨rfl, hw⟩
  -- the modes are off, so the loop goes on with the same context
  have hsync : s.deliveryContext.syncMode = false := hc.unmoded.2
  have hfw : s.deliveryContext.fwMode = false := hc.unmoded.1
  simp only [Prog.ret_bind, pushAll, Prog.pure_eq, leaveSync, leaveFW, hsync, hfw,
    Bool.false_eq_true, if_false]
  refine flushLoop_begin hw hc.second (by omega) fun w n hw => ?_
  refine Reaches.bind (scanQueue_front hw hc.second (.retry hc.retries.2) ?_)
  intro w bytes' hlength' hw
  have hlen' : (bytes'.length : Int) = next.frameLength s.frameMode := by rw [hlength']; rfl
  rw [if_neg (by omega)]
  rw [hc.retries.1]
  refine (sendFrame_collides hw (by simp)).mono fun w p hp => ?_
  exact .here (hp.bind _)

/-- The second of the two is about to be registered over the first. -/
theorem flush_collides {next : Command} {rest' : ControllerQueue} (hw : Rests w none s)
    (hc : Colliding s cmd next rest rest') (hconn : s.conn.isSome)
    (hidle : s.inFlight.count = 0) :
    Reaches (savingRules cfg id) tid (Collides (s.nextSeq + 1)) w (Task.prog cfg id .flush) := by
  obtain ⟨conn, hconn⟩ := Option.isSome_iff_exists.mp hconn
  have hfit := hc.fit
  have hpos := frameLength_pos s.frameMode cmd
  have hpos' := frameLength_pos s.frameMode next
  obtain ⟨fuel, hfuel⟩ : ∃ fuel, (maxBudget s.deliveryContext).toNat = fuel + 2 :=
    ⟨(maxBudget s.deliveryContext).toNat - 2, by omega⟩
  refine flush_begin hw hconn hidle fun w hw => ?_
  rw [hfuel]
  refine (flushLoop_collides hw hc (InFlight.count_eq_zero hidle)).mono fun w p hp => ?_
  exact .here (hp.bind _)

/-- The controller announces its free buffer. -/
theorem status1_announced {conn : ConnID} {frame : Protocol.Frame} {st : Status1}
    {bytes : List UInt8} (hw : Rests w holder s) (hparse : parseStatus1Payload frame.payload = .ok st)
    (hack : controllerAckFrame frame.mode frame.seq ackCodeOK = .ok bytes)
    (hready : status1ReadyForFW st.flags = false) :
    Reaches (savingRules cfg id) tid
      (fun w p => p = .ret () ∧ Rests w holder { s with bufferFree := st.bufferFree }) w
      (Task.prog cfg id (.status1 conn frame)) := by
  simp only [Task.prog, handleStatus1, hparse, hack, hready]
  refine (hw.updateBufferFree _).reaches rfl fun w hw => ?_
  refine (hw.write conn bytes).reaches rfl fun w hw => ?_
  exact .here ⟨rfl, hw⟩

end exec

/-! ## All around -/

section runs

variable {cfg : Config} {id : String} {tid : ℕ} {s : Session}

/-- Thread `tid` has nothing to do, and nobody holds a mutex. -/
structure Parked (tid : ℕ) (c : Concurrent.Config (machine cfg id)) (s : Session) : Prop where
  idle : c.threads tid = .ret ()
  rests : Rests c.world none s

/-- `n` flushes with a blocked command use up `n` numbers. -/
theorem flushes_blocked {c : Concurrent.Config (machine cfg id)} {cmd : Command}
    {rest : ControllerQueue} (h : Reachable (savingRules cfg id) {} c) (hc : Parked tid c s)
    (hb : Blocked s.deliveryContext s.queue cmd rest) (hconn : s.conn.isSome)
    (hidle : s.inFlight.count = 0) (n : ℕ) :
    ∃ c', Reachable (savingRules cfg id) {} c' ∧
      Parked tid c' { s with nextSeq := s.nextSeq + UInt8.ofNat n } := by
  induction n with
  | zero => exact ⟨c, h, hc.idle, by simpa using hc.rests⟩
  | succ n ih =>
      obtain ⟨c₁, h₁, hc₁⟩ := ih
      have hstart : (savingRules cfg id).start c₁.world tid .flush := trivial
      obtain ⟨c₂, h₂, hdone, hrests⟩ :=
        h₁.task hc₁.idle hstart (flush_blocked hc₁.rests hb hconn hidle)
      refine ⟨c₂, h₂, hdone, ?_⟩
      rwa [UInt8.ofNat_add, ← UInt8.add_assoc]

end runs

/-- Command 9 has timed out and waits to be sent again under number 1. -/
def retriedCommand : Command :=
  { commandID := 9, attempts := 1, retrySeq := 1, ticket := 0 }

/-- Command 24 takes 13 bytes, and the controller has 12. -/
def blockedCommand : Command :=
  { commandID := 24, payload := [1, 0], priority := .high, ticket := 1 }

def blockedLabels : List (Label (machine {} "c")) :=
  connect ++ call 0 (.enqueue { commandID := 9 } 0) 20 ++ call 0 .flush 40 ++
    call 0 .process 20 { time := 100 * second, order := [1] } ++
    call 0 (.status1 7 ⟨255, 1, [2, 0, 0, 0, 0, 0, 0, 12, 0], .sequenced⟩) 5 ++
    call 0 (.enqueue { commandID := 24, payload := [1, 0] } 0) 20

/-- The session in which the two commands wait. -/
structure Waits (s : Session) : Prop where
  queue : s.queue = { high := [blockedCommand], query := [retriedCommand] }
  conn : s.conn = some 7
  idle : s.inFlight.count = 0
  bufferFree : s.bufferFree = 12
  modes : s.fwMode = false ∧ s.syncMode = false
  frameMode : s.frameMode = .sequenced
  nextSeq : s.nextSeq = 1

theorem Waits.blocked {s : Session} (h : Waits s) :
    Blocked s.deliveryContext s.queue blockedCommand { query := [retriedCommand] } := by
  have hdctx : s.deliveryContext = ⟨some 7, 12, false, false, .sequenced⟩ := by
    rw [Session.deliveryContext, h.conn, h.bufferFree, h.modes.1, h.modes.2, h.frameMode]
  rw [hdctx, h.queue]
  constructor
  · constructor <;> decide +kernel
  · decide
  · decide
  · decide

theorem Waits.colliding {s : Session} (h : Waits s) :
    Colliding { s with nextSeq := s.nextSeq + UInt8.ofNat 255, bufferFree := 200 } blockedCommand
      retriedCommand { query := [retriedCommand] } {} := by
  have hdctx : Session.deliveryContext
      { s with nextSeq := s.nextSeq + UInt8.ofNat 255, bufferFree := 200 } =
      ⟨some 7, 200, false, false, .sequenced⟩ := by
    rw [Session.deliveryContext, h.conn, h.modes.1, h.modes.2, h.frameMode]
  constructor
  · rw [hdctx, h.queue]
    constructor <;> decide +kernel
  · rw [hdctx]
    constructor <;> decide +kernel
  · exact h.modes
  · decide
  · decide
  · change retriedCommand.retrySeq = s.nextSeq + UInt8.ofNat 255 + 1 ∧ _
    rw [h.nextSeq]
    decide
  · rw [hdctx, h.frameMode]
    decide

theorem blocked_waits :
    ∃ c s, Reachable (savingRules {} "c") {} c ∧ Parked 0 c s ∧ Waits s := by
  have hrun : ∃ c, Reachable (savingRules {} "c") {} c ∧ (c.threads 0).isDone ∧
      (c.world.mu = none ∧ c.world.flushMu = none) ∧ c.world.slot.session.isSome ∧
      ∀ s ∈ c.world.slot.session,
        s.queue = { high := [blockedCommand], query := [retriedCommand] } ∧ s.conn = some 7 ∧
          s.inFlight.count = 0 ∧ s.bufferFree = 12 ∧ (s.fwMode = false ∧ s.syncMode = false) ∧
          s.frameMode = .sequenced ∧ s.nextSeq = 1 :=
    ⟨_, Reachable.initial.run blockedLabels, by decide +kernel⟩
  obtain ⟨c, hc, hdone, hmu, hsession, hall⟩ := hrun
  obtain ⟨u, hidle⟩ := Prog.eq_ret_of_isDone hdone
  obtain ⟨s, hs⟩ := Option.isSome_iff_exists.mp hsession
  obtain ⟨hqueue, hconn, hcount, hfree, hmodes, hframe, hseq⟩ := hall s hs
  exact ⟨c, s, hc, ⟨hidle, hmu.1, hmu.2, hs⟩, hqueue, hconn, hcount, hfree, hmodes, hframe, hseq⟩

/-- A command is about to be registered under a number that is in flight. -/
theorem live_number_registered :
    ∃ c, Reachable (savingRules {} "c") {} c ∧ Collides 1 c.world (c.threads 0) := by
  obtain ⟨c, s, hc, hparked, hwaits⟩ := blocked_waits
  have hconn : s.conn.isSome := by rw [hwaits.conn]; rfl
  obtain ⟨c₁, h₁, hparked₁⟩ := flushes_blocked hc hparked hwaits.blocked hconn hwaits.idle 255
  have hstatus : (savingRules {} "c").start c₁.world 0
      (.status1 7 ⟨255, 1, [2, 0, 0, 0, 0, 0, 0, 200, 0], .sequenced⟩) := trivial
  obtain ⟨c₂, h₂, hdone, hrests⟩ :=
    h₁.task hparked₁.idle hstatus (status1_announced hparked₁.rests rfl rfl rfl)
  have hflush : (savingRules {} "c").start c₂.world 0 .flush := trivial
  obtain ⟨c₃, h₃, hcollides⟩ :=
    h₂.task hdone hflush (flush_collides hrests hwaits.colliding hconn hwaits.idle)
  refine ⟨c₃, h₃, ?_⟩
  have hseq : s.nextSeq + UInt8.ofNat 255 + 1 = 1 := by rw [hwaits.nextSeq]; decide
  rwa [← hseq]

end TcpAdapter.Delivery
