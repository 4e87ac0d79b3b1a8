import TcpAdapter.Model.Delivery.Programs

/-! # Which actions the tasks perform

A protocol that all tasks respect is checked on five programs: `EnqueueCommand`, the flush,
`processInFlight`, the handling of a terminal acknowledgement, and the rest, which performs
benign actions only. -/

namespace TcpAdapter.Delivery

open TcpAdapter.Concurrent TcpAdapter.Queue TcpAdapter.Protocol TcpAdapter.Manager
open TcpAdapter.Policy

/-- What the handlers do besides. -/
def Act.Benign : Act → Prop
  | .now | .write _ _ | .touch | .updateBufferFree _ | .setFWMode _ | .setFrameMode _ => True
  | .create _ | .markOffline | .peekInFlight _ => True
  | .publishAck event => event.status = .inProgress
  | _ => False

/-- How `enqueueLocked` makes room for a command. -/
def Act.Probing : Act → Prop
  | .now | .dedupTime _ | .setDedup _ _ | .queueLen | .queueBytes | .dropOldest | .spin => True
  | _ => False

/-- What `EnqueueCommand` does. -/
def Act.Admitting : Act → Prop
  | .lockManager | .unlockManager | .ensureSession | .pushNew _ | .persistEnqueued _ => True
  | a => a.Probing

theorem Act.Probing.admitting {a : Act} (h : a.Probing) : a.Admitting := by
  cases a <;> first | exact h | exact h.elim

/-- What happens outside `flushQueue`. -/
def Act.OffFlush : Act → Prop
  | .lockFlush | .unlockFlush | .popNext _ _ _ | .drainExpired _ | .push _ => False
  | .transmit _ _ _ _ | .registerInFlight _ _ _ | .nextCommandSeq | .ackSent => False
  | .setSyncMode _ | .hasFW | .hasSync | .deliveryContext | .inFlightCount => False
  | _ => True

theorem Act.Benign.offFlush {a : Act} (h : a.Benign) : a.OffFlush := by
  cases a <;> trivial

/-- What the handlers of a registered connection do besides. -/
def Act.Handling : Act → Prop
  | .create _ | .setFrameMode _ | .markOffline => False
  | a => a.Benign

theorem Act.Handling.benign {a : Act} (h : a.Handling) : a.Benign := by
  cases a <;> first | exact h | exact h.elim

/-- What happens neither in `flushQueue` nor when a connection comes or goes. -/
def Act.Aside : Act → Prop
  | .create _ | .setFrameMode _ | .markOffline => False
  | a => a.OffFlush

theorem Act.Aside.offFlush {a : Act} (h : a.Aside) : a.OffFlush := by
  cases a <;> first | exact h | exact h.elim

theorem Act.Handling.aside {a : Act} (h : a.Handling) : a.Aside := by
  cases a <;> trivial

theorem Act.Admitting.aside {a : Act} (h : a.Admitting) : a.Aside := by
  cases a <;> trivial

theorem interpret_terminal (code : UInt8) :
    isTerminalAckStatus (interpretAck11ExecutionCode code).status =
      (interpretAck11ExecutionCode code).terminal := by
  unfold interpretAck11ExecutionCode
  repeat' split
  all_goals rfl

/-- A command that is not finished has been started. -/
theorem interpret_progress {code : UInt8} (h : (interpretAck11ExecutionCode code).terminal = false) :
    (interpretAck11ExecutionCode code).status = .inProgress := by
  have hstarted : code = 5 := by
    unfold interpretAck11ExecutionCode at h
    repeat' split at h
    all_goals first | assumption | cases h
  rw [hstarted]
  rfl

/-! ## Handlers -/

section handlers

variable (id : String) (conn : ConnID) (frame : Frame)

theorem handleStatus1_only : (handleStatus1 conn frame).Only Act.Handling := by
  unfold handleStatus1
  split
  · trivial
  · refine ⟨trivial, fun _ => ?_⟩
    split
    · trivial
    · refine ⟨trivial, fun err => ?_⟩
      cases err with
      | some err => trivial
      | none =>
          dsimp only
          split
          · exact ⟨trivial, fun _ => trivial⟩
          · trivial

theorem handleStatus4_only : (handleStatus4 frame).Only Act.Handling := by
  unfold handleStatus4
  split
  · trivial
  · split
    · exact ⟨trivial, fun _ => trivial⟩
    · trivial

theorem handleProgressAck_only (ack : Ack11)
    (h : (interpretAck11ExecutionCode ack.executionCode).terminal = false) :
    (handleProgressAck id ack).Only Act.Handling := by
  have hstatus := interpret_progress h
  unfold handleProgressAck
  refine ⟨trivial, fun found => ?_⟩
  cases found with
  | none => exact ⟨hstatus, fun _ => trivial⟩
  | some found => exact ⟨hstatus, fun _ => trivial⟩

theorem handleTerminalAck_only (ack : Ack11) : (handleTerminalAck id ack).Only Act.Aside := by
  unfold handleTerminalAck
  refine ⟨trivial, fun found => ?_⟩
  cases found with
  | none => trivial
  | some found => exact ⟨trivial, fun _ => trivial⟩

end handlers

/-! ## processInFlight -/

section process

variable (id : String)

theorem visitAll_only (now : Time) (seqs : List UInt8) :
    (visitAll now seqs).Only Act.Aside := by
  induction seqs with
  | nil => trivial
  | cons seq rest ih => exact ⟨trivial, fun out => ih.bind fun outs => trivial⟩

theorem managerProcessInFlight_only (now : Time) :
    (managerProcessInFlight now).Only Act.Aside := by
  refine ⟨trivial, fun _ => ⟨trivial, fun found => ?_⟩⟩
  cases found with
  | false => exact ⟨trivial, fun _ => trivial⟩
  | true =>
      refine ⟨trivial, fun order => (visitAll_only now order).bind fun out => ?_⟩
      refine ⟨trivial, fun err => ⟨trivial, fun _ => ?_⟩⟩
      cases err <;> trivial

theorem publishOutcomes_only (outcomes : List InFlightOutcome) :
    (publishOutcomes id outcomes).Only Act.Aside := by
  induction outcomes with
  | nil => trivial
  | cons o rest ih =>
      refine Prog.Only.bind ?_ fun _ => ih
      unfold publishOutcome
      cases o.type <;> exact ⟨trivial, fun _ => trivial⟩

theorem processInFlight_only : (processInFlight id).Only Act.Aside := by
  refine ⟨trivial, fun now => (managerProcessInFlight_only now).bind fun res => ?_⟩
  cases res with
  | error err => trivial
  | ok outcomes => exact publishOutcomes_only id outcomes

end process

/-! ## EnqueueCommand -/

section enqueue

variable (cfg : Config) (id : String) (cmd : Command)

theorem depthExceeded_only : (depthExceeded cfg).Only Act.Probing := by
  unfold depthExceeded
  split
  · exact ⟨trivial, fun _ => trivial⟩
  · trivial

theorem bytesExceeded_only : (bytesExceeded cfg cmd).Only Act.Probing := by
  unfold bytesExceeded
  split
  · exact ⟨trivial, fun _ => trivial⟩
  · trivial

theorem fits_only : (fits cfg cmd).Only Act.Probing := by
  refine (depthExceeded_only cfg).bind fun exceeded => ?_
  split
  · trivial
  · exact (bytesExceeded_only cfg cmd).bind fun _ => trivial

theorem dropUntilFits_only (fuel : ℕ) (events : List OverflowEvent) :
    (dropUntilFits cfg id cmd fuel events).Only Act.Probing := by
  induction fuel generalizing events with
  | zero => exact ⟨trivial, fun _ => trivial⟩
  | succ fuel ih =>
      refine (fits_only cfg cmd).bind fun fit => ?_
      split
      · trivial
      · refine (bytesExceeded_only cfg cmd).bind fun bytes => ⟨trivial, fun dropped => ?_⟩
        cases dropped with
        | none =>
            dsimp only
            split <;> trivial
        | some dropped => exact ih _

theorem makeRoom_only (fuel : ℕ) : (makeRoom cfg id cmd fuel).Only Act.Probing := by
  refine (fits_only cfg cmd).bind fun fit => ?_
  split
  · trivial
  · refine (bytesExceeded_only cfg cmd).bind fun bytes => ?_
    refine (depthExceeded_only cfg).bind fun depth => ?_
    split
    · split <;> trivial
    · exact dropUntilFits_only cfg id cmd fuel []
    · trivial

theorem checkDedup_only (key : String) : (checkDedup key).Only Act.Probing := by
  unfold checkDedup
  split
  · trivial
  · refine ⟨trivial, fun seen => ?_⟩
    cases seen with
    | none => exact ⟨trivial, fun _ => ⟨trivial, fun _ => trivial⟩⟩
    | some t =>
        refine ⟨trivial, fun now => ?_⟩
        change Prog.Only (S := sig) Act.Probing (ite _ _ _)
        split
        · trivial
        · exact ⟨trivial, fun _ => ⟨trivial, fun _ => trivial⟩⟩

theorem enqueueLocked_only (fuel : ℕ) :
    (enqueueLocked cfg id cmd fuel).Only Act.Admitting := by
  refine ⟨trivial, fun err => ?_⟩
  cases err with
  | some err => trivial
  | none =>
      refine ((checkDedup_only cmd.dedupKey).mono fun _ => Act.Probing.admitting).bind
        fun dup => ?_
      split
      · trivial
      · refine ((makeRoom_only cfg id cmd fuel).mono fun _ => Act.Probing.admitting).bind
          fun room => ?_
        split
        · trivial
        · refine ⟨trivial, fun ticket => ⟨trivial, fun err => ?_⟩⟩
          cases err <;> trivial

theorem creationTime_only : (creationTime cmd).Only fun a : Act => a = .now := by
  unfold creationTime
  split
  · exact ⟨rfl, fun _ => trivial⟩
  · trivial

theorem enqueueCommand_only (fuel : ℕ) :
    (enqueueCommand cfg id cmd fuel).Only Act.Admitting := by
  have hcreated : (creationTime cmd).Only Act.Admitting :=
    (creationTime_only cmd).mono fun a ha => ha ▸ trivial
  refine hcreated.bind fun createdAt => ?_
  split
  · trivial
  · refine ⟨trivial, fun _ => (enqueueLocked_only cfg id _ fuel).bind fun r => ?_⟩
    exact ⟨trivial, fun _ => trivial⟩

end enqueue

/-! ## flushQueue -/

section flush

variable (id : String) (conn : ConnID)

/-- What `flushQueue` does. -/
def Act.InFlush : Act → Prop
  | .publishAck event => event.status = .accepted
  | .publishAckWithCommand event _ => isTerminalAckStatus event.status = true
  | .now | .transmit _ _ _ _ => True
  | .lockFlush | .unlockFlush | .queueLen | .hasFW | .hasSync | .popNext _ _ _ => True
  | .drainExpired _ | .push _ | .setFWMode _ | .setSyncMode _ | .deliveryContext => True
  | .inFlightCount | .ackSent | .nextCommandSeq | .registerInFlight _ _ _ => True
  | _ => False

/-- What it does in one round, after it has drained the queue. -/
def Act.InRound : Act → Prop
  | .deliveryContext | .drainExpired _ => False
  | a => a.InFlush

/-- What it does there besides writing frames. -/
def Act.Tending : Act → Prop
  | .transmit _ _ _ _ => False
  | a => a.InRound

theorem Act.InRound.inFlush {a : Act} (h : a.InRound) : a.InFlush := by
  cases a with
  | deliveryContext | drainExpired => trivial
  | _ => exact h

theorem Act.Tending.inRound {a : Act} (h : a.Tending) : a.InRound := by
  cases a with
  | transmit => trivial
  | _ => exact h

/-- One action of a program. -/
theorem perform_only {α : Type} {p : Act → Prop} {a : Act} {k : a.Res → Deliver α} (ha : p a)
    (hk : ∀ r, (k r).Only p) : (perform a >>= k).Only p :=
  ⟨ha, hk⟩

theorem pushAll_only (cmds : List Command) : (pushAll cmds).Only Act.Tending := by
  induction cmds with
  | nil => trivial
  | cons cmd rest ih => exact perform_only trivial fun _ => ih

theorem publishAllExpired_only (cmds : List Command) :
    (publishAllExpired id cmds).Only Act.Tending := by
  induction cmds with
  | nil => trivial
  | cons cmd rest ih => exact perform_only rfl fun _ => ih

theorem commandSeq_only (cmd : Command) : (commandSeq cmd).Only Act.Tending := by
  unfold commandSeq
  split
  · exact ⟨trivial, fun _ => trivial⟩
  · trivial

theorem enterSync_only (cmd : Command) (dctx : DeliveryContext) :
    (enterSync cmd dctx).Only Act.Tending := by
  unfold enterSync
  split
  · exact perform_only trivial fun err => by cases err <;> trivial
  · trivial

theorem enterFW_only (cmd : Command) (dctx : DeliveryContext) :
    (enterFW cmd dctx).Only Act.Tending := by
  unfold enterFW
  split
  · exact perform_only trivial fun err => by cases err <;> trivial
  · trivial

theorem leaveSync_only (dctx : DeliveryContext) : (leaveSync dctx).Only Act.Tending := by
  unfold leaveSync
  split
  · refine perform_only trivial fun more => ?_
    cases more with
    | true => trivial
    | false => exact perform_only trivial fun err => by cases err <;> trivial
  · trivial

theorem leaveFW_only (dctx : DeliveryContext) : (leaveFW dctx).Only Act.Tending := by
  unfold leaveFW
  split
  · refine perform_only trivial fun more => ?_
    cases more with
    | true => trivial
    | false => exact perform_only trivial fun err => by cases err <;> trivial
  · trivial

theorem finishSend_only (cmd : Command) (seq : UInt8) (frameLen : Int) (dctx : DeliveryContext)
    (remaining : Int) (skipped : List Command) :
    (finishSend id cmd seq frameLen dctx remaining skipped).Only Act.Tending := by
  refine (enterSync_only cmd dctx).bind fun r => ?_
  cases r with
  | error err => exact perform_only rfl fun _ => trivial
  | ok dctx =>
      refine (enterFW_only cmd dctx).bind fun r => ?_
      cases r with
      | error err => exact perform_only rfl fun _ => trivial
      | ok dctx =>
          refine perform_only rfl fun _ => perform_only trivial fun err => ?_
          cases err with
          | none => trivial
          | some err => exact perform_only rfl fun _ => trivial

theorem sendFrame_only (cmd : Command) (seq : UInt8) (frameBytes : List UInt8)
    (dctx : DeliveryContext) (remaining : Int) (skipped : List Command) :
    (sendFrame id conn cmd seq frameBytes dctx remaining skipped).Only Act.InRound := by
  have habort : ∀ err : Error, (publishFailed id cmd err.message >>= fun _ =>
      pushAll skipped >>= fun _ => (pure (.exit (some err)) : Deliver Pass)).Only Act.InRound :=
    fun _ => perform_only rfl fun _ =>
      ((pushAll_only skipped).mono fun _ => Act.Tending.inRound).bind fun _ => trivial
  refine perform_only trivial fun err => ?_
  cases err with
  | some err => exact habort err
  | none =>
      refine perform_only trivial fun sentAt => perform_only trivial fun err => ?_
      cases err with
      | some err => exact habort err
      | none =>
          exact (finishSend_only id cmd seq _ dctx remaining skipped).mono
            fun _ => Act.Tending.inRound

theorem scanQueue_only (dctx : DeliveryContext) (remaining : Int) (n : ℕ)
    (skipped : List Command) :
    (scanQueue id conn dctx remaining n skipped).Only Act.InRound := by
  induction n generalizing skipped with
  | zero => trivial
  | succ n ih =>
      have hreturn := (pushAll_only skipped).mono fun _ => Act.Tending.inRound
      refine perform_only trivial fun now => perform_only trivial fun popped => ?_
      cases popped with
      | none => trivial
      | some cmd =>
          refine perform_only trivial fun now => ?_
          change Prog.Only _ (ite _ _ _)
          split
          · exact perform_only rfl fun _ => ih _
          · split
            · exact ih _
            · split
              · exact perform_only rfl fun _ => ih _
              · refine ((commandSeq_only cmd).mono fun _ => Act.Tending.inRound).bind fun r => ?_
                cases r with
                | error err => exact hreturn.bind fun _ => trivial
                | ok seq =>
                    dsimp only
                    split
                    · exact perform_only rfl fun _ => ih _
                    · split
                      · exact perform_only trivial fun _ => hreturn.bind fun _ => trivial
                      · exact sendFrame_only ..

theorem flushLoop_only (fuel : ℕ) (dctx : DeliveryContext) (remaining : Int) :
    (flushLoop id conn fuel dctx remaining).Only Act.InFlush := by
  induction fuel generalizing dctx remaining with
  | zero => trivial
  | succ fuel ih =>
      have htend {α : Type} {p : Deliver α} (hp : p.Only Act.Tending) : p.Only Act.InFlush :=
        hp.mono fun _ h => h.inRound.inFlush
      unfold flushLoop
      split
      · trivial
      · refine perform_only trivial fun now => perform_only trivial fun expired => ?_
        refine (htend (publishAllExpired_only id expired)).bind fun _ => ?_
        refine perform_only trivial fun scan => ?_
        change Prog.Only _ (ite _ _ _)
        split
        · trivial
        · refine ((scanQueue_only id conn dctx remaining scan []).mono
            fun _ => Act.InRound.inFlush).bind
            fun pass => ?_
          cases pass with
          | exit err => trivial
          | unsent skipped => exact (htend (pushAll_only skipped)).bind fun _ => trivial
          | sent dctx remaining skipped =>
              refine (htend (pushAll_only skipped)).bind fun _ => ?_
              refine (htend (leaveSync_only dctx)).bind fun r => ?_
              cases r with
              | error err => trivial
              | ok dctx =>
                  refine (htend (leaveFW_only dctx)).bind fun r => ?_
                  cases r with
                  | error err => trivial
                  | ok dctx => exact ih dctx remaining

theorem flush_only : (withFlushLock (flushQueue id)).Only Act.InFlush := by
  refine perform_only trivial fun _ => Prog.Only.bind ?_ fun _ => ⟨trivial, fun _ => trivial⟩
  refine perform_only trivial fun dctx => ?_
  cases dctx with
  | none => trivial
  | some dctx =>
      dsimp only
      split
      · trivial
      · refine perform_only trivial fun count => ?_
        change Prog.Only _ (ite _ _ _)
        split
        · trivial
        · exact flushLoop_only ..

end flush

/-! ## Registered connections -/

section serve

variable (cfg : Config) (id : String) (conn : ConnID) (frame : Frame)

/-- Everything but the two steps that only a registration takes. -/
def Act.Serving : Act → Prop
  | .create _ | .setFrameMode _ => False
  | _ => True

theorem Act.Aside.serving {a : Act} (h : a.Aside) : a.Serving := by
  cases a <;> trivial

theorem Act.InFlush.serving {a : Act} (h : a.InFlush) : a.Serving := by
  cases a <;> trivial

theorem handleAck11_only : (handleAck11 id frame).Only Act.Aside := by
  unfold handleAck11
  split
  · trivial
  · rename_i ack hack
    refine perform_only trivial fun _ => ?_
    cases hterminal : (interpretAck11ExecutionCode ack.executionCode).terminal with
    | true => simpa using handleTerminalAck_only id ack
    | false =>
        simpa using (handleProgressAck_only id ack hterminal).mono fun _ => Act.Handling.aside

theorem dispatch_only : (dispatch id conn frame).Only Act.Aside := by
  unfold dispatch
  split
  · exact (handleStatus1_only conn frame).mono fun _ => Act.Handling.aside
  · exact (handleAck11_only id frame).bind fun _ => trivial
  · exact (handleStatus4_only frame).mono fun _ => Act.Handling.aside
  · trivial

theorem serveFrame_only : (serveFrame id conn frame).Only Act.Serving := by
  have hframe : (handleFrame id conn frame).Only Act.Serving := by
    refine perform_only trivial fun _ => ?_
    refine ((dispatch_only id conn frame).mono fun _ => Act.Aside.serving).bind fun opened => ?_
    cases opened with
    | false => trivial
    | true =>
        refine ((processInFlight_only id).mono fun _ => Act.Aside.serving).bind fun _ => ?_
        exact ((flush_only id).mono fun _ => Act.InFlush.serving).bind fun _ => trivial
  refine hframe.bind fun opened => ?_
  cases opened with
  | true => trivial
  | false => exact perform_only trivial fun _ => trivial

/-- Only a registration registers. -/
theorem Task.prog_only (task : Task) (h : ∀ conn frame, task ≠ .register conn frame) :
    (task.prog cfg id).Only Act.Serving := by
  cases task with
  | enqueue cmd fuel =>
      exact ((enqueueCommand_only cfg id cmd fuel).mono fun _ h => h.aside.serving).bind
        fun _ => trivial
  | flush => exact ((flush_only id).mono fun _ => Act.InFlush.serving).bind fun _ => trivial
  | process => exact (processInFlight_only id).mono fun _ => Act.Aside.serving
  | status1 conn frame =>
      exact ((handleStatus1_only conn frame).mono fun _ h => h.aside.serving).bind fun _ => trivial
  | ack11 frame => exact (handleAck11_only id frame).mono fun _ => Act.Aside.serving
  | status4 frame =>
      exact ((handleStatus4_only frame).mono fun _ h => h.aside.serving).bind fun _ => trivial
  | register conn frame => exact absurd rfl (h conn frame)
  | serve conn frame => exact serveFrame_only id conn frame
  | disconnect => exact perform_only trivial fun _ => trivial
  | sweep =>
      refine ((processInFlight_only id).mono fun _ => Act.Aside.serving).bind fun _ => ?_
      exact ((flush_only id).mono fun _ => Act.InFlush.serving).bind fun _ => trivial

end serve

/-! ## All tasks -/

/-- What has to be checked for every task to respect a protocol. -/
structure TaskSpec (cfg : Config) (id : String) {V : Type} (P : Protocol sig V)
    (idle : V → Prop) : Prop where
  benign : ∀ a v, a.Benign → idle v → P.may v a ∧ ∀ r v', P.next v a r v' → idle v'
  enqueue : ∀ cmd fuel v, idle v →
    (enqueueCommand cfg id cmd fuel).Respects P (fun _ v => idle v) v
  flush : ∀ v, idle v → (withFlushLock (flushQueue id)).Respects P (fun _ v => idle v) v
  process : ∀ v, idle v → (processInFlight id).Respects P (fun _ v => idle v) v
  ack : ∀ ack v, (interpretAck11ExecutionCode ack.executionCode).terminal = true → idle v →
    (handleTerminalAck id ack).Respects P (fun _ v => idle v) v

namespace TaskSpec

variable {cfg : Config} {id : String} {V : Type} {P : Protocol sig V} {idle : V → Prop}

/-- Outside the flush it is enough that each action is harmless. -/
theorem of_offFlush
    (off : ∀ a v, a.OffFlush → idle v → P.may v a ∧ ∀ r v', P.next v a r v' → idle v')
    (flush : ∀ v, idle v → (withFlushLock (flushQueue id)).Respects P (fun _ v => idle v) v) :
    TaskSpec cfg id P idle where
  benign a v ha := off a v ha.offFlush
  enqueue cmd fuel _ :=
    (enqueueCommand_only cfg id cmd fuel).respects fun a v ha => off a v ha.aside.offFlush
  flush := flush
  process _ := (processInFlight_only id).respects fun a v ha => off a v ha.offFlush
  ack ack _ _ := (handleTerminalAck_only id ack).respects fun a v ha => off a v ha.offFlush

variable (T : TaskSpec cfg id P idle)

include T

theorem action (a : Act) (ha : a.Benign) {v : V} (hv : idle v) :
    (perform a).Respects P (fun _ v => idle v) v :=
  T.benign a v ha hv

theorem handling (a : Act) (v : V) (ha : a.Handling) (hv : idle v) :
    P.may v a ∧ ∀ r v', P.next v a r v' → idle v' :=
  T.benign a v ha.benign hv

theorem handleAck11 (frame : Frame) {v : V} (hv : idle v) :
    (handleAck11 id frame).Respects P (fun _ v => idle v) v := by
  unfold Delivery.handleAck11
  split
  · exact hv
  · rename_i ack hack
    refine (T.action (.updateBufferFree _) trivial hv).bind fun _ v hv => ?_
    cases hterminal : (interpretAck11ExecutionCode ack.executionCode).terminal with
    | true => simpa using T.ack ack v hterminal hv
    | false => simpa using (handleProgressAck_only id ack hterminal).respects T.handling hv

theorem dispatch (conn : ConnID) (frame : Frame) {v : V} (hv : idle v) :
    (dispatch id conn frame).Respects P (fun _ v => idle v) v := by
  unfold Delivery.dispatch
  split
  · exact (handleStatus1_only conn frame).respects T.handling hv
  · exact (T.handleAck11 frame hv).bind fun _ _ hv => hv
  · exact (handleStatus4_only frame).respects T.handling hv
  · exact hv

theorem serveFrame (conn : ConnID) (frame : Frame) {v : V} (hv : idle v) :
    (serveFrame id conn frame).Respects P (fun _ v => idle v) v := by
  have hframe : (handleFrame id conn frame).Respects P (fun _ v => idle v) v := by
    refine (T.action .touch trivial hv).bind fun _ v hv => ?_
    refine (T.dispatch conn frame hv).bind fun opened v hv => ?_
    cases opened with
    | false => exact hv
    | true =>
        refine (T.process v hv).bind fun _ v hv => ?_
        exact (T.flush v hv).bind fun _ _ hv => hv
  refine hframe.bind fun opened v hv => ?_
  cases opened with
  | true => exact hv
  | false => exact (T.action .markOffline trivial hv).bind fun _ _ hv => hv

theorem register (conn : ConnID) (frame : Frame) {v : V} (hv : idle v) :
    (register id conn frame).Respects P (fun _ v => idle v) v := by
  refine (T.action (.create conn) trivial hv).bind fun err v hv => ?_
  cases err with
  | some err => exact hv
  | none =>
      refine (T.action (.setFrameMode _) trivial hv).bind fun _ v hv => ?_
      refine (T.action .now trivial hv).bind fun now v hv => ?_
      split
      · exact (T.action .markOffline trivial hv).bind fun _ _ hv => hv
      · refine (T.action (.write conn _) trivial hv).bind fun err v hv => ?_
        cases err with
        | some err => exact (T.action .markOffline trivial hv).bind fun _ _ hv => hv
        | none => exact T.serveFrame conn frame hv

theorem prog (task : Task) {v : V} (hv : idle v) :
    (Task.prog cfg id task).Respects P (fun _ v => idle v) v := by
  cases task with
  | enqueue cmd fuel => exact (T.enqueue cmd fuel v hv).bind fun _ _ hv => hv
  | flush => exact (T.flush v hv).bind fun _ _ hv => hv
  | process => exact T.process v hv
  | status1 conn frame =>
      exact ((handleStatus1_only conn frame).respects T.handling hv).bind fun _ _ hv => hv
  | ack11 frame => exact T.handleAck11 frame hv
  | status4 frame =>
      exact ((handleStatus4_only frame).respects T.handling hv).bind fun _ _ hv => hv
  | register conn frame => exact T.register conn frame hv
  | serve conn frame => exact T.serveFrame conn frame hv
  | disconnect => exact (T.action .markOffline trivial hv).bind fun _ _ hv => hv
  | sweep =>
      refine (T.process v hv).bind fun _ v hv => ?_
      exact (T.flush v hv).bind fun _ _ hv => hv

end TaskSpec

/-! ## What a thread is about to do -/

/-- The number under which the thread registers a command next. -/
def registering : Deliver Unit → Option UInt8
  | .act (.registerInFlight seq _ _) _ => some seq
  | _ => none

theorem exists_of_registering {p : Deliver Unit} {seq : UInt8} (h : registering p = some seq) :
    ∃ cmd sentAt k, p = .act (.registerInFlight seq cmd sentAt) k := by
  unfold registering at h
  split at h
  · rename_i seq' cmd sentAt k
    cases h
    exact ⟨cmd, sentAt, k, rfl⟩
  · cases h

end TcpAdapter.Delivery
