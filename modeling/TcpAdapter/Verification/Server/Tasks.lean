import TcpAdapter.Model.Server.Programs
import TcpAdapter.Verification.Delivery.Tasks

/-! # What the goroutines of the server do

A protocol for the server is one for the delivery engine of each controller. If the tasks of the
delivery engines respect it and the other actions of the server are harmless, every goroutine
of the server does. -/

namespace TcpAdapter.Server

open TcpAdapter.Concurrent TcpAdapter.Queue TcpAdapter.Protocol TcpAdapter.Manager
open TcpAdapter.Delivery (Deliver)

/-- An action that is not one of a delivery engine. -/
def Act.Own : Act → Prop
  | .deliver _ _ => False
  | _ => True

section tasks

variable {V : Type}

/-- The protocol for what is done for one controller. -/
def onBehalf (P : Protocol sig V) (id : String) : Protocol Delivery.sig V where
  may v a := P.may v (.deliver id a)
  next v a r v' := P.next v (.deliver id a) r v'

theorem deliver_lifts {α : Type} {P : Protocol sig V} {id : String} {post : α → V → Prop}
    {p : Deliver α} {v : V} (h : p.Respects (onBehalf P id) post v) :
    (deliver id p).Respects P post v := by
  induction p generalizing v with
  | ret x => exact h
  | act a k ih => exact ⟨h.1, fun r v' hn => ih r (h.2 r v' hn)⟩

/-- What has to be checked for every goroutine to respect a protocol. -/
structure TaskSpec (cfg : Config) (P : Protocol sig V) (idle : V → Prop) : Prop where
  own : ∀ a v, a.Own → idle v → P.may v a ∧ ∀ r v', P.next v a r v' → idle v'
  delivery : ∀ id, Delivery.TaskSpec cfg.delivery id (onBehalf P id) idle

namespace TaskSpec

variable {cfg : Config} {P : Protocol sig V} {idle : V → Prop} (T : TaskSpec cfg P idle)
  (remoteHost : ConnID → String) {v : V}

include T

theorem action (a : Act) (ha : a.Own) (hv : idle v) :
    (perform a).Respects P (fun _ v => idle v) v :=
  T.own a v ha hv

theorem onDelivery (id : String) (a : Delivery.Act) (ha : a.Benign) (hv : idle v) :
    (perform (.deliver id a)).Respects P (fun _ v => idle v) v :=
  (T.delivery id).benign a v ha hv

theorem acceptConn (hv : idle v) :
    (acceptConn cfg remoteHost).Respects P (fun _ v => idle v) v := by
  refine (T.action .accept trivial hv).bind fun conn v hv => ?_
  refine (T.action .activeLoad trivial hv).bind fun n v hv => ?_
  split
  · exact T.action (.close conn) trivial hv
  · refine (T.action .now trivial hv).bind fun now v hv => ?_
    refine (T.action (.isIPBlocked _ now) trivial hv).bind fun blocked v hv => ?_
    split
    · exact T.action (.close conn) trivial hv
    · refine (T.action (.tryTrackConn conn) trivial hv).bind fun ok v hv => ?_
      split
      · refine (T.action (.activeAdd conn 1) trivial hv).bind fun _ v hv => ?_
        exact T.action (.spawn conn) trivial hv
      · exact T.action (.close conn) trivial hv

theorem violation (conn : ConnID) (hv : idle v) :
    (violation remoteHost conn).Respects P (fun _ v => idle v) v :=
  (T.action .now trivial hv).bind fun _ _ hv =>
    T.action (.registerIPViolation _ _) trivial hv

theorem violationIfNew (conn : ConnID) (l : Locals) (hv : idle v) :
    (violationIfNew remoteHost conn l).Respects P (fun _ v => idle v) v := by
  unfold Server.violationIfNew
  split
  · exact hv
  · exact T.violation remoteHost conn hv

theorem sendRegistrationAck (id : String) (conn : ConnID) (mode : FrameMode) (seq : UInt8)
    (hv : idle v) :
    (sendRegistrationAck id conn mode seq).Respects P (fun _ v => idle v) v := by
  refine (T.action .now trivial hv).bind fun now v hv => ?_
  split
  · exact hv
  · exact (T.onDelivery id (.write conn _) trivial hv).bind fun _ _ hv => hv

theorem registerConn (conn : ConnID) (frame : Frame) (cmdID : UInt8) (hv : idle v) :
    (registerConn remoteHost conn frame cmdID).Respects P (fun _ v => idle v) v := by
  unfold Server.registerConn
  split
  · exact (T.violation remoteHost conn hv).bind fun _ _ hv => hv
  · split
    · exact (T.violation remoteHost conn hv).bind fun _ _ hv => hv
    · rename_i reg hreg
      refine (T.action (.create _ conn) trivial hv).bind fun err v hv => ?_
      cases err with
      | some err => exact hv
      | none =>
          refine (T.onDelivery _ (.setFrameMode frame.mode) trivial hv).bind fun _ v hv => ?_
          refine (T.sendRegistrationAck _ conn _ _ hv).bind fun sent v hv => ?_
          split
          · exact (T.action .now trivial hv).bind fun _ _ hv => hv
          · exact (T.action (.markOffline _ conn) trivial hv).bind fun _ _ hv => hv

theorem heartbeat (frame : Frame) (l : Locals) (hv : idle v) :
    (heartbeat frame l).Respects P (fun _ v => idle v) v := by
  unfold Server.heartbeat
  split
  · exact (T.action .now trivial hv).bind fun _ _ hv => hv
  · exact hv

theorem serveConn (conn : ConnID) (frame : Frame) (l : Locals) (hv : idle v) :
    (serveConn conn frame l).Respects P (fun _ v => idle v) v := by
  have hengine := T.delivery l.controllerID
  refine (T.onDelivery _ .touch trivial hv).bind fun _ v hv => ?_
  refine (T.heartbeat frame l hv).bind fun l' v hv => ?_
  refine (deliver_lifts (hengine.dispatch conn frame hv)).bind fun opened v hv => ?_
  split
  · refine (deliver_lifts (hengine.process v hv)).bind fun _ v hv => ?_
    refine (deliver_lifts (hengine.flush v hv)).bind fun err v hv => ?_
    cases err <;> exact hv
  · exact hv

theorem handleFrame (conn : ConnID) (frame : Frame) (l : Locals) (hv : idle v) :
    (handleFrame remoteHost conn frame l).Respects P (fun _ v => idle v) v := by
  unfold Server.handleFrame
  split
  · exact (T.violationIfNew remoteHost conn l hv).bind fun _ _ hv => hv
  · rename_i cmdID _
    split
    · refine (T.serveConn conn frame l hv).bind fun l' v hv => ?_
      cases l' <;> exact hv
    · refine (T.registerConn remoteHost conn frame cmdID hv).bind fun l' v hv => ?_
      cases l' with
      | none => exact hv
      | some l' =>
          refine (T.serveConn conn frame l' hv).bind fun l'' v hv => ?_
          cases l'' <;> exact hv

theorem inTime (conn : ConnID) (registrationDeadline : Time) (l : Locals) (hv : idle v) :
    (inTime cfg remoteHost conn registrationDeadline l).Respects P (fun _ v => idle v) v := by
  unfold Server.inTime
  split
  · split
    · exact (T.action .now trivial hv).bind fun _ _ hv => hv
    · exact hv
  · refine (T.action .now trivial hv).bind fun now v hv => ?_
    split
    · exact (T.violation remoteHost conn hv).bind fun _ _ hv => hv
    · exact hv

theorem readWait (l : Locals) (hv : idle v) :
    (readWait cfg l).Respects P (fun _ v => idle v) v := by
  unfold Server.readWait
  dsimp only
  split
  · refine (T.action .now trivial hv).bind fun now v hv => ?_
    split <;> exact hv
  · exact hv

theorem readLoop (conn : ConnID) (registrationDeadline : Time) (fuel : ℕ) (l : Locals)
    (hv : idle v) :
    (readLoop cfg remoteHost conn registrationDeadline fuel l).Respects P
      (fun _ v => idle v) v := by
  induction fuel generalizing l v with
  | zero => exact (T.action .spin trivial hv).bind fun _ _ hv => hv
  | succ fuel ih =>
      refine (T.inTime remoteHost conn registrationDeadline l hv).bind fun ok v hv => ?_
      split
      · refine (T.readWait l hv).bind fun wait v hv => ?_
        cases wait with
        | none => exact hv
        | some wait =>
            refine (T.action .now trivial hv).bind fun now v hv => ?_
            refine (T.action (.setReadDeadline conn _) trivial hv).bind fun _ v hv => ?_
            refine (T.action (.readFrame conn l.frameMode) trivial hv).bind fun res v hv => ?_
            cases res with
            | error err =>
                change Prog.Respects _ _ (ite _ _ _) _
                split
                · exact (T.violationIfNew remoteHost conn l hv).bind fun _ _ hv => hv
                · exact hv
            | ok frame =>
                refine (T.handleFrame remoteHost conn frame l hv).bind fun res v hv => ?_
                dsimp only
                split
                · exact ih _ hv
                · exact hv
      · exact hv

theorem cleanUp (conn : ConnID) (l : Locals) (hv : idle v) :
    (cleanUp conn l).Respects P (fun _ v => idle v) v := by
  have hrest : ∀ {v}, idle v → (perform (.activeAdd conn (-1)) >>= fun _ =>
      perform (.untrackConn conn) >>= fun _ => perform (.close conn)).Respects P
        (fun _ v => idle v) v := by
    intro v hv
    refine (T.action (.activeAdd conn (-1)) trivial hv).bind fun _ v hv => ?_
    refine (T.action (.untrackConn conn) trivial hv).bind fun _ v hv => ?_
    exact T.action (.close conn) trivial hv
  unfold Server.cleanUp
  split
  · exact (T.action (.markOffline _ conn) trivial hv).bind fun _ _ hv => hrest hv
  · exact hrest hv

theorem handleConn (conn : ConnID) (fuel : ℕ) (hv : idle v) :
    (handleConn cfg remoteHost conn fuel).Respects P (fun _ v => idle v) v := by
  refine (T.action (.begin conn) trivial hv).bind fun _ v hv => ?_
  refine (T.action .now trivial hv).bind fun lastHeartbeat v hv => ?_
  refine (T.action .now trivial hv).bind fun now v hv => ?_
  refine (T.readLoop remoteHost conn _ fuel _ hv).bind fun l v hv => ?_
  exact T.cleanUp conn l hv

theorem prog (task : Task) (hv : idle v) :
    (Task.prog cfg remoteHost task).Respects P (fun _ v => idle v) v := by
  cases task with
  | accept => exact T.acceptConn remoteHost hv
  | handle conn fuel => exact T.handleConn remoteHost conn fuel hv
  | sweep id =>
      have hsweep : (Delivery.sweep id).Respects (onBehalf P id) (fun _ v => idle v) v :=
        (T.delivery id).prog .sweep hv
      exact deliver_lifts hsweep
  | enqueue id cmd fuel =>
      exact (deliver_lifts ((T.delivery id).enqueue cmd fuel v hv)).bind fun _ _ hv => hv

end TaskSpec

end tasks

end TcpAdapter.Server
