import Mathlib.Data.Multiset.Count
import TcpAdapter.Verification.Delivery.Frames
import TcpAdapter.Verification.Delivery.Tasks

/-! # Who has which command

The protocol of custody. A flush keeps account of the commands in its hands: it pushes,
writes, registers and reports none but those, and it has none left when it gives the flush
lock back. Whoever takes a command out for good owes a report.

A save that fails at the wrong moment breaks the account. The protocol is therefore stated
twice: if `strict`, such saves do not fail and the reports are part of it; if not, only the
commands in hands are followed. -/

namespace TcpAdapter.Delivery

open TcpAdapter.Concurrent TcpAdapter.Queue TcpAdapter.Protocol TcpAdapter.Manager
open TcpAdapter.Policy

/-- What a thread knows about the commands it has. -/
structure Custody where
  flushing : Bool := false
  hands : Multiset Hand := 0
  current : Option Hand := none
  written : Option (ℕ × UInt8) := none
  owed : Multiset Hand := 0
  /-- The session exists. -/
  session : Bool := false
  /-- The ticket of the command that the thread is enqueueing. -/
  admitted : Option ℕ := none

namespace Custody

def release (v : Custody) (h : Hand) : Custody :=
  { v with
    hands := v.hands.erase h
    current := if v.current = some h then none else v.current }

def settle (v : Custody) (h : Hand) : Custody :=
  if h ∈ v.owed then { v with owed := v.owed.erase h }
  else if v.flushing ∧ v.current = some h then v.release h
  else v

/-- What the thread has once an action has answered. -/
def after (v : Custody) : (a : Act) → a.Res → Custody
  | .lockFlush, _ => { v with flushing := true, hands := 0, current := none, written := none }
  | .unlockFlush, _ =>
      { v with flushing := false, hands := 0, current := none, written := none }
  | .popNext _ _ _, some cmd =>
      { v with hands := cmd.hand ::ₘ v.hands, current := some cmd.hand }
  | .drainExpired _, cmds => { v with owed := cmds.map Command.hand + v.owed }
  | .push cmd, _ => v.release cmd.hand
  | .transmit _ _ cmd seq, none => { v with written := some (cmd.ticket, seq) }
  | .registerInFlight _ cmd _, _ => { v.release cmd.hand with written := none }
  | .publishAckWithCommand event cmd, _ =>
      if isTerminalAckStatus event.status then v.settle cmd.hand else v
  | .ackInFlight _, some (cmd, _) => { v with owed := cmd.hand ::ₘ v.owed }
  | .visitInFlight _ _, some out =>
      match out.type with
      | .retrying => v
      | _ => { v with owed := out.command.hand ::ₘ v.owed }
  | .deliveryContext, some _ => { v with session := true }
  | .ensureSession, none => { v with session := true }
  | .pushNew _, ticket => { v with admitted := some ticket }
  | .persist, some _ => { v with owed := 0 }
  | _, _ => v

variable (strict : Prop)

def May (v : Custody) : Act → Prop
  | .publishAck event => isTerminalAckStatus event.status = false
  | .publishAckWithCommand event cmd =>
      strict → isTerminalAckStatus event.status = true →
        cmd.hand ∈ v.owed ∨
          v.flushing = true ∧ v.current = some cmd.hand ∧ cmd.hand ∈ v.hands
  | .lockFlush => v.flushing = false
  | .unlockFlush => v.flushing = true ∧ v.written = none ∧ (strict → v.hands = 0)
  | .popNext _ _ _ | .drainExpired _ => v.flushing = true ∧ v.session = true
  | .push cmd => v.flushing = true ∧ v.session = true ∧ cmd.hand ∈ v.hands
  | .transmit _ _ cmd _ =>
      v.flushing = true ∧ v.current = some cmd.hand ∧ cmd.hand ∈ v.hands ∧ v.written = none
  | .registerInFlight seq cmd _ =>
      v.flushing = true ∧ v.session = true ∧ v.current = some cmd.hand ∧ cmd.hand ∈ v.hands ∧
        v.written = some (cmd.ticket, seq)
  | .setSyncMode _ | .nextCommandSeq | .ackSent => v.flushing = true
  | .pushNew cmd =>
      v.session = true ∧ canonicalPriorityForCommand cmd.commandID = some cmd.priority
  | .persistEnqueued ticket => v.admitted = some ticket ∧ v.session = true
  | _ => True

/-- The answers to expect. Without a session there is no command to number. -/
def Answers (v : Custody) : (a : Act) → a.Res → Prop
  | .nextCommandSeq, .error _ => v.session = false
  | .registerInFlight _ _ _, some _ => ¬strict
  | .ackSent, some _ => ¬strict
  | .setSyncMode true, some _ => ¬strict
  | .setFWMode true, some _ => v.flushing = true → ¬strict
  | .persist, some _ => v.owed ≠ 0 → ¬strict
  | _, _ => True

def protocol : Protocol sig Custody :=
  .ofAnswers (fun v => v.May strict) (fun v => v.Answers strict) after

section after

variable (v : Custody)

theorem after_now (r : Time) : v.after .now r = v := rfl

theorem after_popNext (now : Time) (fwMode syncMode : Bool) (cmd : Command) :
    v.after (.popNext now fwMode syncMode) (some cmd) =
      { v with hands := cmd.hand ::ₘ v.hands, current := some cmd.hand } := rfl

theorem after_drainExpired (now : Time) (cmds : List Command) :
    v.after (.drainExpired now) cmds = { v with owed := cmds.map Command.hand + v.owed } := rfl

theorem after_push (cmd : Command) (r : Unit) : v.after (.push cmd) r = v.release cmd.hand := rfl

theorem after_registerInFlight (seq : UInt8) (cmd : Command) (sentAt : Time) (r : Option Error) :
    v.after (.registerInFlight seq cmd sentAt) r = { v.release cmd.hand with written := none } := rfl

theorem after_publishAckWithCommand (event : AckEvent) (cmd : Command) (r : Unit) :
    v.after (.publishAckWithCommand event cmd) r =
      if isTerminalAckStatus event.status then v.settle cmd.hand else v := rfl

theorem after_ackInFlight (seq : UInt8) (cmd : Command) (attempts : Int) :
    v.after (.ackInFlight seq) (some (cmd, attempts)) = { v with owed := cmd.hand ::ₘ v.owed } := rfl

theorem after_visitInFlight (seq : UInt8) (now : Time) (out : InFlightOutcome) :
    v.after (.visitInFlight seq now) (some out) =
      if out.type = .retrying then v else { v with owed := out.command.hand ::ₘ v.owed } := by
  obtain ⟨type⟩ := out
  cases type <;> rfl

end after

/-- A thread between two tasks. -/
structure Idle (v : Custody) : Prop where
  flushing : v.flushing = false
  owed : v.owed = 0

/-! ## The flush -/

/-- A flush with the commands `hs` in its hands. -/
structure Flushing (v : Custody) (hs : Multiset Hand) : Prop where
  flushing : v.flushing = true
  session : v.session = true
  owed : v.owed = 0
  written : v.written = none
  hands : v.hands = hs

/-- A flush that has just popped `cmd` on top of `hs`. -/
structure Popped (v : Custody) (cmd : Command) (hs : Multiset Hand) : Prop extends
    v.Flushing (cmd.hand ::ₘ hs) where
  current : v.current = some cmd.hand

/-- A flush that is about to return. -/
structure Closing (v : Custody) : Prop where
  flushing : v.flushing = true
  owed : v.owed = 0
  written : v.written = none
  hands : strict → v.hands = 0

variable {strict}

theorem Flushing.closing {v : Custody} (h : v.Flushing 0) : v.Closing strict :=
  ⟨h.flushing, h.owed, h.written, fun _ => h.hands⟩

theorem Popped.settle {v : Custody} {cmd : Command} {hs : Multiset Hand}
    (h : v.Popped cmd hs) : (v.settle cmd.hand).Flushing hs := by
  have hrelease : v.settle cmd.hand = v.release cmd.hand := by
    simp [Custody.settle, h.owed, h.flushing, h.current]
  rw [hrelease]
  exact ⟨h.flushing, h.session, h.owed, h.written, by simp [release, h.hands]⟩

theorem Popped.release {v : Custody} {cmd : Command} {hs : Multiset Hand}
    (h : v.Popped cmd hs) : (v.release cmd.hand).Flushing hs :=
  ⟨h.flushing, h.session, h.owed, h.written, by simp [Custody.release, h.hands]⟩

section flush

variable (id : String) (conn : ConnID)

theorem publish_popped {v : Custody} {cmd : Command} {hs : Multiset Hand} {event : AckEvent}
    (he : isTerminalAckStatus event.status = true) (h : v.Popped cmd hs) :
    (perform (.publishAckWithCommand event cmd)).Respects (protocol strict)
      (fun _ v' => v'.Flushing hs) v := by
  refine ⟨fun _ _ => .inr ⟨h.flushing, h.current, by simp [h.hands]⟩, ?_⟩
  rintro _ _ ⟨-, rfl⟩
  simpa [after_publishAckWithCommand, he] using h.settle

theorem publishAllExpired_respects {cmds : List Command} {v : Custody} {hs : Multiset Hand}
    (hv : { v with owed := 0 }.Flushing hs) (howed : v.owed = cmds.map Command.hand) :
    (publishAllExpired id cmds).Respects (protocol strict) (fun _ v' => v'.Flushing hs) v := by
  induction cmds generalizing v with
  | nil =>
      have hzero : v = { v with owed := 0 } := by
        rw [show (0 : Multiset Hand) = v.owed by simp [howed]]
      exact hzero ▸ hv
  | cons cmd rest ih =>
      have hmem : cmd.hand ∈ v.owed := by simp [howed]
      refine ⟨fun _ _ => .inl hmem, ?_⟩
      rintro _ _ ⟨-, rfl⟩
      have hafter : v.after (.publishAckWithCommand
          (ackEvent id cmd 0 .expired "ttl expired before send") cmd) () =
          { v with owed := v.owed.erase cmd.hand } := by
        simp [after_publishAckWithCommand, ackEvent, isTerminalAckStatus, settle, hmem]
      rw [hafter]
      exact ih hv (by simp [howed])

theorem pushAll_respects {skipped : List Command} {v : Custody}
    (hv : v.Flushing (skipped.map Command.hand : Multiset Hand)) :
    (pushAll skipped).Respects (protocol strict) (fun _ v' => v'.Flushing 0) v := by
  induction skipped generalizing v with
  | nil => exact hv
  | cons cmd rest ih =>
      refine ⟨⟨hv.flushing, hv.session, by simp [hv.hands]⟩, ?_⟩
      rintro _ _ ⟨-, rfl⟩
      refine ih ⟨hv.flushing, hv.session, hv.owed, hv.written, ?_⟩
      simp [after_push, release, hv.hands]

/-- A report that does not concern a command in hands. -/
theorem publish_lost (hstrict : ¬strict) {v : Custody} {cmd : Command} {hs : Multiset Hand}
    (event : AckEvent) (h : v.Flushing hs) (hcurrent : v.current = none) :
    (perform (.publishAckWithCommand event cmd)).Respects (protocol strict)
      (fun _ v' => v'.Flushing hs) v := by
  refine ⟨fun hs => absurd hs hstrict, ?_⟩
  rintro _ _ ⟨-, rfl⟩
  have hafter : v.after (.publishAckWithCommand event cmd) () = v := by
    simp [after_publishAckWithCommand, settle, h.owed, hcurrent]
  rwa [hafter]

theorem commandSeq_respects {v : Custody} {cmd : Command} {hs : Multiset Hand}
    (h : v.Popped cmd hs) :
    (commandSeq cmd).Respects (protocol strict)
      (fun r v' => (∃ seq, r = .ok seq) ∧ v'.Popped cmd hs) v := by
  unfold commandSeq
  split
  · refine answer_respects h.flushing fun r hr => ?_
    cases r with
    | error err =>
        have hsession : v.session = false := hr
        rw [h.session] at hsession
        cases hsession
    | ok seq => exact ⟨⟨seq, rfl⟩, h⟩
  · exact ⟨⟨cmd.retrySeq, rfl⟩, h⟩

theorem enterSync_respects {v : Custody} {hs : Multiset Hand} (cmd : Command)
    (dctx : DeliveryContext) (h : v.Flushing hs) (hcurrent : v.current = none) :
    (enterSync cmd dctx).Respects (protocol strict)
      (fun r v' => v'.Flushing hs ∧ v'.current = none ∧ ∀ err, r = .error err → ¬strict) v := by
  unfold enterSync
  split
  · refine answer_respects h.flushing fun r hr => ?_
    cases r with
    | some err => exact ⟨h, hcurrent, fun _ _ => hr⟩
    | none => exact ⟨h, hcurrent, by simp⟩
  · exact ⟨h, hcurrent, by simp⟩

theorem enterFW_respects {v : Custody} {hs : Multiset Hand} (cmd : Command)
    (dctx : DeliveryContext) (h : v.Flushing hs) (hcurrent : v.current = none) :
    (enterFW cmd dctx).Respects (protocol strict)
      (fun r v' => v'.Flushing hs ∧ v'.current = none ∧ ∀ err, r = .error err → ¬strict) v := by
  unfold enterFW
  split
  · refine answer_respects trivial fun r hr => ?_
    cases r with
    | some err => exact ⟨h, hcurrent, fun _ _ => hr h.flushing⟩
    | none => exact ⟨h, hcurrent, by simp⟩
  · exact ⟨h, hcurrent, by simp⟩

variable (strict) in
/-- What a pass over the queue leaves in the hands of the flush. -/
def PassPost : Pass → Custody → Prop
  | .exit _, v => v.Closing strict
  | .unsent skipped, v | .sent _ _ skipped, v =>
      v.Flushing (skipped.map Command.hand : Multiset Hand)

theorem finishSend_respects {v : Custody} {skipped : List Command} (cmd : Command)
    (seq : UInt8) (frameLen : Int) (dctx : DeliveryContext) (remaining : Int)
    (h : v.Flushing (skipped.map Command.hand : Multiset Hand)) (hcurrent : v.current = none) :
    (finishSend id cmd seq frameLen dctx remaining skipped).Respects (protocol strict)
      (PassPost strict) v := by
  have hlost : ∀ (event : AckEvent) (err : Error) {v : Custody}, ¬strict →
      v.Flushing (skipped.map Command.hand : Multiset Hand) → v.current = none →
      (perform (.publishAckWithCommand event cmd) >>= fun _ =>
        (pure (.exit (some err)) : Deliver Pass)).Respects (protocol strict)
          (PassPost strict) v := by
    intro event err v hstrict h hcurrent
    refine (publish_lost hstrict event h hcurrent).bind fun _ v h => ?_
    exact ⟨h.flushing, h.owed, h.written, fun hs => absurd hs hstrict⟩
  refine (enterSync_respects cmd dctx h hcurrent).bind fun r v ⟨h, hcurrent, herr⟩ => ?_
  cases r with
  | error err => exact hlost _ err (herr err rfl) h hcurrent
  | ok dctx =>
      refine (enterFW_respects cmd dctx h hcurrent).bind fun r v ⟨h, hcurrent, herr⟩ => ?_
      cases r with
      | error err => exact hlost _ err (herr err rfl) h hcurrent
      | ok dctx =>
          refine answer_respects rfl fun _ _ => answer_respects h.flushing fun r hr => ?_
          cases r with
          | some err => exact hlost _ err hr h hcurrent
          | none => exact h

/-- Pushing the skipped commands back ends the pass. -/
theorem pushAll_exit {v : Custody} {skipped : List Command} (err : Option Error)
    (h : v.Flushing (skipped.map Command.hand : Multiset Hand)) :
    (pushAll skipped >>= fun _ => (pure (.exit err) : Deliver Pass)).Respects (protocol strict)
      (PassPost strict) v :=
  (pushAll_respects h).bind fun _ _ h => h.closing

theorem sendFrame_respects {v : Custody} {cmd : Command} {skipped : List Command}
    (seq : UInt8) (frameBytes : List UInt8) (dctx : DeliveryContext) (remaining : Int)
    (h : v.Popped cmd (skipped.map Command.hand : Multiset Hand)) :
    (sendFrame id conn cmd seq frameBytes dctx remaining skipped).Respects (protocol strict)
      (PassPost strict) v := by
  have hmem : cmd.hand ∈ v.hands := by simp [h.hands]
  refine answer_respects ⟨h.flushing, h.current, hmem, h.written⟩ fun err _ => ?_
  cases err with
  | some err =>
      exact (publish_popped rfl h).bind fun _ _ h => pushAll_exit (some err) h
  | none =>
      refine answer_respects trivial fun sentAt _ => ?_
      refine answer_respects ⟨h.flushing, h.session, h.current, hmem, rfl⟩ fun err herr => ?_
      have hflushing : (({ v with written := some (cmd.ticket, seq) } : Custody).after
          (.registerInFlight seq cmd sentAt) err).Flushing
            (skipped.map Command.hand : Multiset Hand) :=
        ⟨h.flushing, h.session, h.owed, rfl, h.release.hands⟩
      have hcurrent : (({ v with written := some (cmd.ticket, seq) } : Custody).after
          (.registerInFlight seq cmd sentAt) err).current = none := by
        simp [after_registerInFlight, release, h.current]
      cases err with
      | some err =>
          refine (publish_lost herr _ hflushing hcurrent).bind fun _ _ h => ?_
          exact pushAll_exit (some err) h
      | none => exact finishSend_respects id cmd seq _ dctx remaining hflushing hcurrent

theorem scanQueue_respects (dctx : DeliveryContext) (remaining : Int) (n : ℕ)
    {v : Custody} (skipped : List Command)
    (h : v.Flushing (skipped.map Command.hand : Multiset Hand)) :
    (scanQueue id conn dctx remaining n skipped).Respects (protocol strict)
      (PassPost strict) v := by
  induction n generalizing v skipped with
  | zero => exact h
  | succ n ih =>
      refine answer_respects trivial fun now _ => ?_
      refine answer_respects ⟨h.flushing, h.session⟩ fun popped _ => ?_
      cases popped with
      | none => exact h
      | some cmd =>
          have hpopped : (v.after (.popNext now dctx.fwMode dctx.syncMode) (some cmd)).Popped cmd
              (skipped.map Command.hand : Multiset Hand) :=
            ⟨⟨h.flushing, h.session, h.owed, h.written, by simp [after_popNext, h.hands]⟩, rfl⟩
          refine answer_respects trivial fun now' _ => ?_
          change Prog.Respects _ _ (ite _ _ _) _
          split
          · exact (publish_popped rfl hpopped).bind fun _ _ h => ih _ h
          · split
            · refine ih _ ⟨h.flushing, h.session, h.owed, h.written, ?_⟩
              simpa [after_popNext, after_now, h.hands] using (List.perm_append_singleton _ _).symm
            · split
              · exact (publish_popped rfl hpopped).bind fun _ _ h => ih _ h
              · refine (commandSeq_respects hpopped).bind fun r v ⟨⟨seq, hr⟩, hpopped⟩ => ?_
                subst hr
                have hpopped' : v.Popped { cmd with retrySeq := 0 }
                  (skipped.map Command.hand : Multiset Hand) := ⟨hpopped.toFlushing, hpopped.current⟩
                dsimp only
                split
                · exact (publish_popped rfl hpopped').bind fun _ _ h => ih _ h
                · split
                  · refine answer_respects ⟨hpopped.flushing, hpopped.session, ?_⟩ fun _ _ => ?_
                    · simp [hpopped.hands, Command.hand]
                    · exact pushAll_exit none hpopped'.release
                  · exact sendFrame_respects id conn seq _ dctx remaining hpopped'

theorem leaveSync_respects {v : Custody} (dctx : DeliveryContext) (h : v.Flushing 0) :
    (leaveSync dctx).Respects (protocol strict) (fun _ v' => v'.Flushing 0) v := by
  unfold leaveSync
  split
  · refine answer_respects trivial fun more _ => ?_
    cases more with
    | true => exact h
    | false =>
        refine answer_respects h.flushing fun err _ => ?_
        cases err <;> exact h
  · exact h

theorem leaveFW_respects {v : Custody} (dctx : DeliveryContext) (h : v.Flushing 0) :
    (leaveFW dctx).Respects (protocol strict) (fun _ v' => v'.Flushing 0) v := by
  unfold leaveFW
  split
  · refine answer_respects trivial fun more _ => ?_
    cases more with
    | true => exact h
    | false =>
        refine answer_respects trivial fun err _ => ?_
        cases err <;> exact h
  · exact h

theorem flushLoop_respects (fuel : ℕ) (dctx : DeliveryContext) (remaining : Int) {v : Custody}
    (h : v.Flushing 0) :
    (flushLoop id conn fuel dctx remaining).Respects (protocol strict)
      (fun _ v' => v'.Closing strict) v := by
  induction fuel generalizing dctx remaining v with
  | zero => exact h.closing
  | succ fuel ih =>
      unfold flushLoop
      split
      · exact h.closing
      · refine answer_respects trivial fun now _ => ?_
        refine answer_respects ⟨h.flushing, h.session⟩ fun expired _ => ?_
        have hdrained : ({ v.after (.drainExpired now) expired with owed := 0 } :
            Custody).Flushing 0 := ⟨h.flushing, h.session, rfl, h.written, h.hands⟩
        have howed : (v.after (.drainExpired now) expired).owed =
            (expired : List Command).map Command.hand := by
          simp [after_drainExpired, h.owed]
        refine (publishAllExpired_respects id hdrained howed).bind fun _ v h => ?_
        refine answer_respects trivial fun scan _ => ?_
        change Prog.Respects _ _ (ite _ _ _) _
        split
        · exact h.closing
        · refine (scanQueue_respects id conn dctx remaining scan [] h).bind
            fun pass v hpass => ?_
          cases pass with
          | exit err => exact hpass
          | unsent skipped => exact (pushAll_respects hpass).bind fun _ _ h => h.closing
          | sent dctx remaining skipped =>
              refine (pushAll_respects hpass).bind fun _ v h => ?_
              refine (leaveSync_respects dctx h).bind fun r v h => ?_
              cases r with
              | error err => exact h.closing
              | ok dctx =>
                  refine (leaveFW_respects dctx h).bind fun r v h => ?_
                  cases r with
                  | error err => exact h.closing
                  | ok dctx => exact ih dctx remaining h

theorem flush_respects {v : Custody} (hidle : v.Idle) :
    (withFlushLock (flushQueue id)).Respects (protocol strict) (fun _ v' => v'.Idle) v := by
  have hunlock : ∀ {v : Custody} (r : Option Error), v.Closing strict →
      (perform .unlockFlush >>= fun _ => (pure r : Deliver (Option Error))).Respects
        (protocol strict) (fun _ v' => v'.Idle) v := by
    intro v r h
    exact answer_respects ⟨h.flushing, h.written, h.hands⟩ fun _ _ => ⟨rfl, h.owed⟩
  refine answer_respects hidle.flushing fun _ _ => Prog.Respects.bind ?_ fun r _ h => hunlock r h
  refine answer_respects trivial fun dctx _ => ?_
  cases dctx with
  | none => exact ⟨rfl, hidle.owed, rfl, fun _ => rfl⟩
  | some dctx =>
      have h : ((v.after .lockFlush ()).after .deliveryContext (some dctx)).Flushing 0 :=
        ⟨rfl, rfl, hidle.owed, rfl, rfl⟩
      dsimp only
      split
      · exact h.closing
      · refine answer_respects trivial fun count _ => ?_
        change Prog.Respects _ _ (ite _ _ _) _
        split
        · exact h.closing
        · exact flushLoop_respects id _ _ dctx _ h

end flush

/-! ## Acknowledgements and timeouts -/

section reports

variable (id : String)

/-- What the outcomes of `ProcessInFlight` oblige to. -/
def owedBy (outcomes : List InFlightOutcome) : Multiset Hand :=
  (outcomes.filter fun o => o.type ≠ .retrying).map fun o => o.command.hand

theorem owedBy_append (outs outs' : List InFlightOutcome) :
    owedBy (outs ++ outs') = owedBy outs + owedBy outs' := by
  simp [owedBy]

theorem visitAll_respects (now : Time) (seqs : List UInt8) {v : Custody}
    (h : v.flushing = false) :
    (visitAll now seqs).Respects (protocol strict)
      (fun outs v' => v'.flushing = false ∧ v'.owed = owedBy outs + v.owed) v := by
  induction seqs generalizing v with
  | nil => exact ⟨h, by simp [owedBy]⟩
  | cons seq rest ih =>
      refine answer_respects trivial fun out _ => ?_
      have hafter : (v.after (.visitInFlight seq now) out).flushing = false ∧
          (v.after (.visitInFlight seq now) out).owed = owedBy out.toList + v.owed := by
        cases out with
        | none => exact ⟨h, (Multiset.zero_add _).symm⟩
        | some out => cases ht : out.type <;> simp [after_visitInFlight, ht, owedBy, h]
      refine (ih hafter.1).bind fun outs v' hv' => ⟨hv'.1, ?_⟩
      rw [hv'.2, hafter.2, owedBy_append, ← Multiset.add_assoc, Multiset.add_comm (owedBy outs)]

theorem publishOutcomes_respects {outcomes : List InFlightOutcome} {v : Custody}
    (h : v.flushing = false) (howed : v.owed = owedBy outcomes) :
    (publishOutcomes id outcomes).Respects (protocol strict) (fun _ v' => v'.Idle) v := by
  induction outcomes generalizing v with
  | nil => exact ⟨h, by simpa [owedBy] using howed⟩
  | cons o rest ih =>
      unfold publishOutcomes publishOutcome
      have hreport : ∀ event : AckEvent, isTerminalAckStatus event.status = true →
          o.type ≠ .retrying →
          (perform (.publishAckWithCommand event o.command) >>= fun _ =>
            publishOutcomes id rest).Respects (protocol strict) (fun _ v' => v'.Idle) v := by
        intro event hterminal htype
        have hcons : v.owed = o.command.hand ::ₘ owedBy rest := by
          simp [howed, owedBy, htype]
        refine answer_respects (fun _ _ => .inl (by simp [hcons])) fun _ _ => ?_
        refine ih ?_ ?_
        · simp [after_publishAckWithCommand, hterminal, settle, hcons, h]
        · simp [after_publishAckWithCommand, hterminal, settle, hcons]
      cases ht : o.type with
      | retrying =>
          have hrest : v.owed = owedBy rest := by simpa [owedBy, ht] using howed
          exact answer_respects rfl fun _ _ => ih h hrest
      | expired => exact hreport _ rfl (by simp [ht])
      | failed => exact hreport _ rfl (by simp [ht])

theorem process_respects {v : Custody} (hidle : v.Idle) :
    (processInFlight id).Respects (protocol strict) (fun _ v' => v'.Idle) v := by
  refine answer_respects trivial fun now _ => ?_
  have hmanager : (managerProcessInFlight now).Respects (protocol strict)
      (fun res v' => v'.flushing = false ∧ v'.owed = res.toOption.elim 0 owedBy) v := by
    refine answer_respects trivial fun _ _ => answer_respects trivial fun found _ => ?_
    cases found with
    | false => exact answer_respects trivial fun _ _ => ⟨hidle.flushing, hidle.owed⟩
    | true =>
        refine answer_respects trivial fun order _ => ?_
        refine (visitAll_respects now order hidle.flushing).bind fun outs v' hv' => ?_
        have howed : v'.owed = owedBy outs := by
          rw [hv'.2]
          simp [hidle.owed]
        refine answer_respects trivial fun err _ => answer_respects trivial fun _ _ => ?_
        cases err with
        | some err => exact ⟨hv'.1, rfl⟩
        | none => exact ⟨hv'.1, howed⟩
  refine hmanager.bind fun res v' hv' => ?_
  cases res with
  | error err => exact ⟨hv'.1, hv'.2⟩
  | ok outcomes => exact publishOutcomes_respects id hv'.1 hv'.2

theorem ack_respects (ack : Ack11) {v : Custody}
    (hack : (interpretAck11ExecutionCode ack.executionCode).terminal = true) (hidle : v.Idle) :
    (handleTerminalAck id ack).Respects (protocol strict) (fun _ v' => v'.Idle) v := by
  have hstatus := (interpret_terminal ack.executionCode).trans hack
  refine answer_respects trivial fun found _ => ?_
  cases found with
  | none => exact hidle
  | some found =>
      obtain ⟨cmd, attempts⟩ := found
      refine answer_respects (fun _ _ => .inl (by simp [after_ackInFlight])) fun _ _ => ?_
      refine ⟨?_, ?_⟩
      · simp [after_publishAckWithCommand, after_ackInFlight, ackEvent, hstatus, settle,
          hidle.flushing]
      · simp [after_publishAckWithCommand, after_ackInFlight, ackEvent, hstatus, settle, hidle.owed]

end reports

/-! ## EnqueueCommand -/

theorem benign_idle (a : Act) (v : Custody) (ha : a.Benign) (hidle : v.Idle) :
    (protocol strict).may v a ∧ ∀ r v', (protocol strict).next v a r v' → v'.Idle := by
  cases a with
  | publishAck event =>
      exact ⟨congrArg isTerminalAckStatus ha, fun r v' hn => hn.2 ▸ hidle⟩
  | now | write | touch | updateBufferFree | setFWMode | setFrameMode | create | markOffline
  | peekInFlight => exact ⟨trivial, fun r v' hn => hn.2 ▸ hidle⟩
  | _ => exact ha.elim

/-- A thread that has got hold of the session. -/
structure Ready (v : Custody) : Prop extends v.Idle where
  session : v.session = true

theorem probing_ready (a : Act) (v : Custody) (ha : a.Probing) (h : v.Ready) :
    (protocol strict).may v a ∧ ∀ r v', (protocol strict).next v a r v' → v'.Ready := by
  cases a with
  | now | dedupTime | setDedup | queueLen | queueBytes | dropOldest | spin =>
      exact ⟨trivial, fun r v' hn => hn.2 ▸ h⟩
  | _ => exact ha.elim

theorem normalizeCommandPriority_ok {cmd cmd' : Command}
    (h : normalizeCommandPriority cmd = .ok cmd') :
    canonicalPriorityForCommand cmd'.commandID = some cmd'.priority := by
  unfold normalizeCommandPriority at h
  split at h
  · cases h
  · rename_i p hp
    cases h
    exact hp

theorem enqueue_respects (cfg : Config) (id : String) (cmd : Command) (fuel : ℕ) {v : Custody}
    (hidle : v.Idle) :
    (enqueueCommand cfg id cmd fuel).Respects (protocol strict) (fun _ v' => v'.Idle) v := by
  have hbenign : (creationTime cmd).Only Act.Benign :=
    (creationTime_only cmd).mono fun _ ha => ha ▸ trivial
  refine (hbenign.respects benign_idle hidle).bind fun createdAt v hidle => ?_
  split
  · exact hidle
  · rename_i normalized hnormalized
    have hclass := normalizeCommandPriority_ok hnormalized
    have hlocked : (enqueueLocked cfg id normalized fuel).Respects (protocol strict)
        (fun _ v' => v'.Idle) v := by
      refine answer_respects trivial fun err _ => ?_
      cases err with
      | some err => exact hidle
      | none =>
          have h : (v.after .ensureSession none).Ready := ⟨⟨hidle.flushing, hidle.owed⟩, rfl⟩
          refine ((checkDedup_only _).respects probing_ready h).bind fun dup v h => ?_
          split
          · exact h.toIdle
          · refine ((makeRoom_only cfg id normalized fuel).respects probing_ready h).bind
              fun room v h => ?_
            split
            · exact h.toIdle
            · refine answer_respects ⟨h.session, hclass⟩ fun ticket _ =>
                answer_respects ⟨rfl, h.session⟩ fun err _ => ?_
              cases err <;> exact ⟨h.flushing, h.owed⟩
    refine answer_respects trivial fun _ _ => hlocked.bind fun r v hidle => ?_
    exact answer_respects trivial fun _ _ => hidle

/-- Every task respects the protocol of custody. -/
theorem taskSpec (cfg : Config) (id : String) : TaskSpec cfg id (protocol strict) Idle where
  benign := benign_idle
  enqueue cmd fuel _ := enqueue_respects cfg id cmd fuel
  flush _ := flush_respects id
  process _ := process_respects id
  ack ack _ := ack_respects id ack

end Custody

end TcpAdapter.Delivery
