import TcpAdapter.Concurrent.Trace
import TcpAdapter.Verification.Delivery.Flush

/-! # What a flush carries

The protocol of a flush as a carrier of commands: the commands it has popped, as they were in
the queue, the number under which the last of them is to go out, and the connection and
layout it writes in. It sends a command under the number the command had before, or else
under one from the counter. It puts commands back as they were, but for one that does not fit
into the bytes that remain: that one loses its number. -/

namespace TcpAdapter.Delivery

open TcpAdapter.Concurrent TcpAdapter.Queue TcpAdapter.Protocol TcpAdapter.Manager
open TcpAdapter.Policy

structure Courier where
  flushing : Bool := false
  /-- The connection and the layout it has read. -/
  line : Option (ConnID × FrameMode) := none
  remaining : Int := 0
  /-- The command it popped last. -/
  current : Option Command := none
  /-- The modes let it send `current`. -/
  chosen : Bool := false
  /-- The others that it has popped and not disposed of. -/
  skipped : Multiset Command := 0
  /-- The number that the counter gave for `current`. -/
  counter : Option UInt8 := none
  /-- The frame it has written and not yet registered. -/
  wrote : Option (List UInt8) := none

namespace Courier

def hands (v : Courier) : Multiset Command :=
  (v.current.toList : Multiset Command) + v.skipped

theorem hands_of_none {v : Courier} (h : v.current = none) : v.hands = v.skipped := by
  simp [hands, h]

/-- What it puts back as it was. -/
def loose (v : Courier) : Multiset Command :=
  if v.chosen then v.skipped else v.hands

theorem skipped_le_hands (v : Courier) : v.skipped ≤ v.hands :=
  Multiset.le_add_left _ _

theorem loose_le_hands (v : Courier) : v.loose ≤ v.hands := by
  unfold loose
  split
  · exact v.skipped_le_hands
  · exact le_rfl

theorem loose_of_none {v : Courier} (h : v.current = none) : v.loose = v.skipped := by
  simp [loose, hands_of_none h]

/-- The number under which `current` goes out. -/
def number (v : Courier) : Option UInt8 :=
  v.current.bind fun cmd => if cmd.retrySeq = 0 then v.counter else some cmd.retrySeq

/-- The command is `current`, without the number it had. -/
def Sends (v : Courier) (cmd : Command) (seq : UInt8) : Prop :=
  (∃ orig, v.current = some orig ∧ cmd = orig.unnumbered) ∧ v.number = some seq

/-- The command is `current` and its frame is longer than what remains. -/
def Exceeds (v : Courier) (cmd : Command) : Prop :=
  v.chosen = true ∧ ∃ orig conn mode, v.current = some orig ∧ cmd = orig.unnumbered ∧
    v.line = some (conn, mode) ∧ v.remaining < cmd.frameLength mode

/-- What the flush carries once an action has answered. -/
def after (v : Courier) : (a : Act) → a.Res → Courier
  | .lockFlush, _ => { flushing := true }
  | .unlockFlush, _ => {}
  | .deliveryContext, some dctx =>
      { flushing := v.flushing
        line := dctx.conn.map fun conn => (conn, dctx.frameMode)
        remaining := maxBudget dctx }
  | .popNext _ fwMode syncMode, some cmd =>
      { v with
        current := some cmd
        chosen := commandAllowedInModes cmd.commandID fwMode syncMode
        skipped := v.hands
        counter := none
        wrote := none }
  | .nextCommandSeq, .ok seq => { v with counter := some seq, wrote := none }
  | .transmit _ bytes _ _, none =>
      { v with wrote := some bytes, remaining := v.remaining - bytes.length }
  | .registerInFlight _ _ _, _ | .publishAckWithCommand _ _, _ =>
      { v with current := none, wrote := none }
  | .push cmd, _ =>
      { v with
        current := none
        wrote := none
        skipped :=
          if v.chosen ∧ v.current.map Command.unnumbered = some cmd then v.skipped
          else v.hands.erase cmd }
  | _, _ => v

def May (v : Courier) : Act → Prop
  | .lockFlush => v.flushing = false
  | .unlockFlush | .drainExpired _ | .deliveryContext => v.flushing = true
  | .popNext _ _ _ => v.flushing = true ∧ v.wrote = none
  | .nextCommandSeq => v.wrote = none ∧ ∃ orig, v.current = some orig ∧ orig.retrySeq = 0
  | .transmit conn bytes cmd seq =>
      v.Sends cmd seq ∧ v.wrote = none ∧ ∃ mode, v.line = some (conn, mode) ∧
        encodeFrame (commandFrame cmd seq mode) = .ok bytes
  | .registerInFlight seq cmd _ => v.Sends cmd seq ∧ v.wrote.isSome
  | .push cmd => v.wrote = none ∧ (cmd ∈ v.hands ∨ v.Exceeds cmd)
  | _ => True

theorem after_nextCommandSeq (v : Courier) (seq : UInt8) :
    v.after .nextCommandSeq (.ok seq) = { v with counter := some seq, wrote := none } := rfl

theorem after_push_skipped (v : Courier) (cmd : Command) (r : Unit) :
    (v.after (.push cmd) r).skipped =
      if v.chosen ∧ v.current.map Command.unnumbered = some cmd then v.skipped
      else v.hands.erase cmd := rfl

def protocol : Protocol sig Courier :=
  .ofAfter May after

/-! ## The flush respects its protocol -/

/-- A flush that writes to `conn` in the layout `mode` and has `cmds` to put back. -/
structure Carries (v : Courier) (conn : ConnID) (mode : FrameMode) (remaining : Int)
    (cmds : Multiset Command) : Prop where
  flushing : v.flushing = true
  line : v.line = some (conn, mode)
  remaining : v.remaining = remaining
  wrote : v.wrote = none
  loose : cmds ≤ v.loose

/-- A flush that has just popped `cmd` on top of `cmds`. -/
structure Popped (v : Courier) (conn : ConnID) (mode : FrameMode) (remaining : Int)
    (cmd : Command) (cmds : Multiset Command) : Prop where
  flushing : v.flushing = true
  line : v.line = some (conn, mode)
  remaining : v.remaining = remaining
  current : v.current = some cmd
  skipped : cmds ≤ v.skipped
  wrote : v.wrote = none

variable {v : Courier} {conn : ConnID} {mode : FrameMode} {remaining : Int}
  {cmds : Multiset Command} {cmd : Command} {seq : UInt8}

theorem Carries.pop (h : v.Carries conn mode remaining cmds) (cmd : Command) {now : Time}
    {fwMode syncMode : Bool} :
    (v.after (.popNext now fwMode syncMode) (some cmd)).Popped conn mode remaining cmd cmds :=
  ⟨h.flushing, h.line, h.remaining, rfl, h.loose.trans v.loose_le_hands, rfl⟩

/-- The modes do not let the popped command through. -/
theorem Popped.skip (h : v.Popped conn mode remaining cmd cmds) (hchosen : v.chosen = false) :
    v.Carries conn mode remaining (cmd ::ₘ cmds) := by
  refine ⟨h.flushing, h.line, h.remaining, h.wrote, ?_⟩
  simp only [loose, hchosen, Bool.false_eq_true, if_false, hands, h.current]
  exact Multiset.cons_le_cons cmd h.skipped

/-- The popped command is dropped. -/
theorem Popped.drop (h : v.Popped conn mode remaining cmd cmds) :
    v.Carries conn mode remaining cmds := by
  refine ⟨h.flushing, h.line, h.remaining, h.wrote, ?_⟩
  unfold loose
  split
  · exact h.skipped
  · exact h.skipped.trans v.skipped_le_hands

/-- The popped command was reported. -/
theorem Popped.report (h : v.Popped conn mode remaining cmd cmds) (event : AckEvent)
    (reported : Command) :
    (v.after (.publishAckWithCommand event reported) ()).Carries conn mode remaining cmds :=
  ⟨h.flushing, h.line, h.remaining, rfl, by rw [loose_of_none rfl]; exact h.skipped⟩

/-- The command that is reported is none of those in the hands. -/
theorem Carries.report (h : v.Carries conn mode remaining cmds) (hnone : v.current = none)
    (event : AckEvent) (reported : Command) :
    (v.after (.publishAckWithCommand event reported) ()).Carries conn mode remaining cmds := by
  have hle := h.loose
  rw [loose_of_none hnone] at hle
  exact ⟨h.flushing, h.line, h.remaining, rfl, by rw [loose_of_none rfl]; exact hle⟩

theorem Carries.push (h : v.Carries conn mode remaining (cmd ::ₘ cmds)) :
    v.May (.push cmd) ∧ (v.after (.push cmd) ()).Carries conn mode remaining cmds := by
  have hmem : cmd ∈ v.loose := Multiset.mem_of_le h.loose (Multiset.mem_cons_self _ _)
  refine ⟨⟨h.wrote, .inl (Multiset.mem_of_le v.loose_le_hands hmem)⟩, h.flushing, h.line,
    h.remaining, rfl, ?_⟩
  have hloose : cmds ≤ v.loose := (Multiset.le_cons_self _ _).trans h.loose
  rw [loose_of_none rfl, after_push_skipped]
  split
  · rename_i hchosen
    rwa [Courier.loose, if_pos hchosen.1] at hloose
  · have hle := Multiset.erase_le_erase cmd (h.loose.trans v.loose_le_hands)
    rwa [Multiset.erase_cons_head] at hle

/-- The popped command does not fit and loses its number. -/
theorem Popped.putBack (h : v.Popped conn mode remaining cmd cmds) (hchosen : v.chosen = true)
    (hlong : remaining < cmd.unnumbered.frameLength mode) :
    v.May (.push cmd.unnumbered) ∧
      (v.after (.push cmd.unnumbered) ()).Carries conn mode remaining cmds := by
  refine ⟨⟨h.wrote, .inr ⟨hchosen, cmd, conn, mode, h.current, rfl, h.line, ?_⟩⟩, h.flushing,
    h.line, h.remaining, rfl, ?_⟩
  · rwa [h.remaining]
  · rw [loose_of_none rfl]
    simpa [after_push_skipped, hchosen, h.current] using h.skipped

section flush

variable (id : String)

theorem pushAll_respects {skipped : List Command} {v : Courier}
    (h : v.Carries conn mode remaining skipped) :
    (pushAll skipped).Respects protocol
      (fun _ v' => v'.Carries conn mode remaining 0) v := by
  induction skipped generalizing v with
  | nil => exact h
  | cons cmd rest ih =>
      rw [← Multiset.cons_coe] at h
      obtain ⟨hmay, hrest⟩ := h.push
      exact act_respects hmay fun _ => ih hrest

theorem commandSeq_respects (h : v.Popped conn mode remaining cmd cmds)
    (hchosen : v.chosen = true) :
    (commandSeq cmd).Respects protocol
      (fun r v' => v'.Popped conn mode remaining cmd cmds ∧ v'.chosen = true ∧
        ∀ seq, r = .ok seq → v'.number = some seq) v := by
  unfold commandSeq
  split
  · rename_i hz
    refine act_respects ⟨h.wrote, cmd, h.current, hz⟩ fun r => ?_
    cases r with
    | error err => exact ⟨h, hchosen, by rintro _ ⟨⟩⟩
    | ok seq =>
        refine ⟨⟨h.flushing, h.line, h.remaining, h.current, h.skipped, rfl⟩, hchosen, ?_⟩
        rintro _ ⟨rfl⟩
        simp [number, after_nextCommandSeq, h.current, hz]
  · rename_i hz
    refine ⟨h, hchosen, ?_⟩
    rintro _ ⟨rfl⟩
    simp [number, h.current, hz]

/-- The copy of the modes has changed at most. -/
def SameLayout (mode : FrameMode) (r : Except Error DeliveryContext) : Prop :=
  ∀ dctx, r = .ok dctx → dctx.frameMode = mode

theorem SameLayout.ok {dctx : DeliveryContext} (h : dctx.frameMode = mode) :
    SameLayout mode (.ok dctx) := by
  rintro _ ⟨rfl⟩
  exact h

theorem SameLayout.error (err : Error) : SameLayout mode (.error err) := by
  rintro _ ⟨⟩

theorem enterSync_respects (cmd : Command) {dctx : DeliveryContext}
    (hmode : dctx.frameMode = mode) (h : v.Carries conn mode remaining cmds) :
    (enterSync cmd dctx).Respects protocol
      (fun r v' => v'.Carries conn mode remaining cmds ∧ SameLayout mode r) v := by
  unfold enterSync
  split
  · refine act_respects trivial fun err => ?_
    cases err with
    | some err => exact ⟨h, .error err⟩
    | none => exact ⟨h, .ok hmode⟩
  · exact ⟨h, .ok hmode⟩

theorem enterFW_respects (cmd : Command) {dctx : DeliveryContext}
    (hmode : dctx.frameMode = mode) (h : v.Carries conn mode remaining cmds) :
    (enterFW cmd dctx).Respects protocol
      (fun r v' => v'.Carries conn mode remaining cmds ∧ SameLayout mode r) v := by
  unfold enterFW
  split
  · refine act_respects trivial fun err => ?_
    cases err with
    | some err => exact ⟨h, .error err⟩
    | none => exact ⟨h, .ok hmode⟩
  · exact ⟨h, .ok hmode⟩

theorem leaveSync_respects {dctx : DeliveryContext} (hmode : dctx.frameMode = mode)
    (h : v.Carries conn mode remaining cmds) :
    (leaveSync dctx).Respects protocol
      (fun r v' => v'.Carries conn mode remaining cmds ∧ SameLayout mode r) v := by
  unfold leaveSync
  split
  · refine act_respects trivial fun more => ?_
    cases more with
    | true => exact ⟨h, .ok hmode⟩
    | false =>
        refine act_respects trivial fun err => ?_
        cases err with
        | some err => exact ⟨h, .error err⟩
        | none => exact ⟨h, .ok hmode⟩
  · exact ⟨h, .ok hmode⟩

theorem leaveFW_respects {dctx : DeliveryContext} (hmode : dctx.frameMode = mode)
    (h : v.Carries conn mode remaining cmds) :
    (leaveFW dctx).Respects protocol
      (fun r v' => v'.Carries conn mode remaining cmds ∧ SameLayout mode r) v := by
  unfold leaveFW
  split
  · refine act_respects trivial fun more => ?_
    cases more with
    | true => exact ⟨h, .ok hmode⟩
    | false =>
        refine act_respects trivial fun err => ?_
        cases err with
        | some err => exact ⟨h, .error err⟩
        | none => exact ⟨h, .ok hmode⟩
  · exact ⟨h, .ok hmode⟩

/-- What holds when a pass over the queue ends. -/
def PassPost (conn : ConnID) (mode : FrameMode) (remaining : Int) : Pass → Courier → Prop
  | .exit _, v => v.flushing = true
  | .unsent skipped, v => v.Carries conn mode remaining skipped
  | .sent dctx remaining skipped, v =>
      v.Carries conn mode remaining skipped ∧ dctx.frameMode = mode

/-- An error exit that reports a command. -/
theorem exit_respects (event : AckEvent) (cmd : Command) (err : Error) {n : Int}
    (h : v.flushing = true) :
    (perform (.publishAckWithCommand event cmd) >>= fun _ =>
      (pure (.exit (some err)) : Deliver Pass)).Respects protocol (PassPost conn mode n) v :=
  act_respects trivial fun _ => h

theorem finishSend_respects {skipped : List Command} (cmd : Command) (seq : UInt8)
    {frameLen n : Int} {dctx : DeliveryContext} (hmode : dctx.frameMode = mode)
    (h : v.Carries conn mode (remaining - frameLen) skipped) :
    (finishSend id cmd seq frameLen dctx remaining skipped).Respects protocol
      (PassPost conn mode n) v := by
  refine (enterSync_respects cmd hmode h).bind fun r v hr => ?_
  cases r with
  | error err => exact exit_respects _ cmd err hr.1.flushing
  | ok dctx =>
      refine (enterFW_respects cmd (hr.2 _ rfl) hr.1).bind fun r v hr => ?_
      cases r with
      | error err => exact exit_respects _ cmd err hr.1.flushing
      | ok dctx =>
          refine act_respects trivial fun _ => act_respects trivial fun err => ?_
          cases err with
          | some err => exact exit_respects _ cmd err hr.1.flushing
          | none => exact ⟨hr.1, hr.2 _ rfl⟩

/-- An error exit that reports a command and puts the others back. -/
theorem abort_respects {skipped : List Command} (event : AckEvent) (cmd : Command) (err : Error)
    {n : Int} (h : (v.after (.publishAckWithCommand event cmd) ()).Carries conn mode remaining
      skipped) :
    (perform (.publishAckWithCommand event cmd) >>= fun _ => pushAll skipped >>= fun _ =>
      (pure (.exit (some err)) : Deliver Pass)).Respects protocol (PassPost conn mode n) v :=
  act_respects trivial fun _ => (pushAll_respects h).bind fun _ _ h => h.flushing

theorem sendFrame_respects {skipped : List Command} {frameBytes : List UInt8} {n : Int}
    {dctx : DeliveryContext} (hmode : dctx.frameMode = mode)
    (h : v.Popped conn mode remaining cmd skipped) (hnumber : v.number = some seq)
    (hbytes : encodeFrame (commandFrame cmd.unnumbered seq mode) = .ok frameBytes) :
    (sendFrame id conn cmd.unnumbered seq frameBytes dctx remaining skipped).Respects protocol
      (PassPost conn mode n) v := by
  have hsends : v.Sends cmd.unnumbered seq := ⟨⟨cmd, h.current, rfl⟩, hnumber⟩
  refine act_respects ⟨hsends, h.wrote, mode, h.line, hbytes⟩ fun err => ?_
  cases err with
  | some err => exact abort_respects _ _ err (h.report _ _)
  | none =>
      have hwrote : (v.after (.transmit conn frameBytes cmd.unnumbered seq) none).Sends
          cmd.unnumbered seq := hsends
      refine act_respects trivial fun sentAt => act_respects ⟨hwrote, rfl⟩ fun err => ?_
      have hregistered : ((v.after (.transmit conn frameBytes cmd.unnumbered seq) none).after
          (.registerInFlight seq cmd.unnumbered sentAt) err).Carries conn mode
            (remaining - frameBytes.length) skipped := by
        refine ⟨h.flushing, h.line, ?_, rfl, ?_⟩
        · rw [← h.remaining]
          rfl
        · rw [loose_of_none rfl]
          exact h.skipped
      cases err with
      | some err => exact abort_respects _ _ err (hregistered.report rfl _ _)
      | none => exact finishSend_respects id _ seq hmode hregistered

theorem scanQueue_respects {dctx : DeliveryContext} (hmode : dctx.frameMode = mode) (n : ℕ)
    {skipped : List Command} {v : Courier} (h : v.Carries conn mode remaining skipped) :
    (scanQueue id conn dctx remaining n skipped).Respects protocol
      (PassPost conn mode remaining) v := by
  induction n generalizing skipped v with
  | zero => exact h
  | succ n ih =>
      refine act_respects trivial fun now => act_respects ⟨h.flushing, h.wrote⟩ fun popped => ?_
      cases popped with
      | none => exact h
      | some cmd =>
          have hpopped : (v.after (.popNext now dctx.fwMode dctx.syncMode) (some cmd)).Popped conn
              mode remaining cmd skipped := h.pop cmd
          refine act_respects trivial fun now' => ?_
          change Prog.Respects _ _ (ite _ _ _) _
          split
          · exact act_respects trivial fun _ => ih (hpopped.report _ _)
          · split
            · rename_i hrefused
              have hrefused :
                  commandAllowedInModes cmd.commandID dctx.fwMode dctx.syncMode = false := by
                simpa using hrefused
              have hcarries := hpopped.skip hrefused
              have hcoe : ((skipped ++ [cmd] : List Command) : Multiset Command) =
                  cmd ::ₘ (skipped : Multiset Command) := by
                simp
              rw [← hcoe] at hcarries
              exact ih hcarries
            · rename_i hallowed
              have hallowed :
                  commandAllowedInModes cmd.commandID dctx.fwMode dctx.syncMode = true := by
                simpa using hallowed
              split
              · exact act_respects trivial fun _ => ih (hpopped.report _ _)
              · refine (commandSeq_respects hpopped hallowed).bind fun r v hr => ?_
                obtain ⟨hpopped, hchosen, hnumber⟩ := hr
                cases r with
                | error err =>
                    exact (pushAll_respects hpopped.drop).bind fun _ _ h => h.flushing
                | ok seq =>
                    dsimp only
                    split
                    · exact act_respects trivial fun _ => ih (hpopped.report _ _)
                    · rename_i frameBytes hencode
                      rw [hmode] at hencode
                      split
                      · rename_i hlong
                        rw [Command.frameLength_eq hencode] at hlong
                        obtain ⟨hmay, hcarries⟩ := hpopped.putBack hchosen hlong
                        refine act_respects hmay fun _ => ?_
                        exact (pushAll_respects hcarries).bind fun _ _ h => h.flushing
                      · exact sendFrame_respects id hmode hpopped (hnumber seq rfl) hencode

theorem publishAllExpired_respects (expired : List Command) {v : Courier}
    (h : v.Carries conn mode remaining 0) :
    (publishAllExpired id expired).Respects protocol
      (fun _ v' => v'.Carries conn mode remaining 0) v := by
  induction expired generalizing v with
  | nil => exact h
  | cons cmd rest ih =>
      exact act_respects trivial fun _ =>
        ih ⟨h.flushing, h.line, h.remaining, rfl, Multiset.zero_le _⟩

theorem flushLoop_respects (fuel : ℕ) {dctx : DeliveryContext} {remaining : Int} {v : Courier}
    (hmode : dctx.frameMode = mode) (h : v.Carries conn mode remaining 0) :
    (flushLoop id conn fuel dctx remaining).Respects protocol
      (fun _ v' => v'.flushing = true) v := by
  induction fuel generalizing dctx remaining v with
  | zero => exact h.flushing
  | succ fuel ih =>
      unfold flushLoop
      split
      · exact h.flushing
      · refine act_respects trivial fun now => act_respects h.flushing fun expired => ?_
        refine (publishAllExpired_respects id expired h).bind fun _ v h => ?_
        refine act_respects trivial fun scan => ?_
        change Prog.Respects _ _ (ite _ _ _) _
        split
        · exact h.flushing
        · have hnone : v.Carries conn mode remaining (([] : List Command) : Multiset Command) := h
          refine (scanQueue_respects id hmode scan hnone).bind fun pass v hpass => ?_
          cases pass with
          | exit err => exact hpass
          | unsent skipped => exact (pushAll_respects hpass).bind fun _ _ h => h.flushing
          | sent dctx remaining skipped =>
              refine (pushAll_respects hpass.1).bind fun _ v h => ?_
              refine (leaveSync_respects hpass.2 h).bind fun r v h => ?_
              cases r with
              | error err => exact h.1.flushing
              | ok dctx =>
                  refine (leaveFW_respects (h.2 _ rfl) h.1).bind fun r v h => ?_
                  cases r with
                  | error err => exact h.1.flushing
                  | ok dctx => exact ih (h.2 _ rfl) h.1

theorem flush_respects (hidle : v = {}) :
    (withFlushLock (flushQueue id)).Respects protocol (fun _ v' => v' = {}) v := by
  subst hidle
  have hflush : (flushQueue id).Respects protocol (fun _ v' => v'.flushing = true)
      { flushing := true } := by
    refine act_respects rfl fun dctx => ?_
    cases dctx with
    | none => rfl
    | some dctx =>
        dsimp only
        split
        · rfl
        · rename_i conn hconn
          refine act_respects trivial fun count => ?_
          change Prog.Respects _ _ (ite _ _ _) _
          split
          · rfl
          · refine flushLoop_respects id _ rfl ⟨rfl, ?_, rfl, rfl, Multiset.zero_le _⟩
            exact congrArg (Option.map fun conn => (conn, dctx.frameMode)) hconn
  refine act_respects rfl fun _ => hflush.bind fun r v h => ?_
  exact act_respects h fun _ => rfl

end flush

theorem offFlush_idle (a : Act) (v : Courier) (ha : a.OffFlush) (hidle : v = {}) :
    protocol.may v a ∧ ∀ r v', protocol.next v a r v' → v' = {} := by
  subst hidle
  cases a with
  | lockFlush | unlockFlush | popNext | drainExpired | push | transmit | registerInFlight
  | nextCommandSeq | ackSent | setSyncMode | hasFW | hasSync | deliveryContext | inFlightCount =>
      exact ha.elim
  | _ => exact ⟨trivial, fun r v' hn => hn⟩

/-- Every task respects the protocol. -/
theorem taskSpec (cfg : Config) (id : String) : TaskSpec cfg id protocol fun v => v = {} :=
  .of_offFlush offFlush_idle fun _ => flush_respects id

/-! ## Couriers in the running system -/

theorem after_flushing (v : Courier) {a : Act} (r : a.Res) (ha : a.movesMutex = false) :
    (v.after a r).flushing = v.flushing := by
  cases a with
  | lockFlush | unlockFlush => cases ha
  | deliveryContext | popNext | nextCommandSeq | transmit => cases r <;> rfl
  | _ => rfl

/-- Outside a flush there is nothing to carry. -/
theorem after_off {v : Courier} {a : Act} (r : a.Res) (hmay : v.May a) (hv : v = {})
    (ha : a.movesMutex = false) : v.after a r = {} := by
  subst hv
  cases a with
  | lockFlush | unlockFlush => cases ha
  | deliveryContext | drainExpired => cases hmay
  | popNext => cases hmay.1
  | nextCommandSeq =>
      obtain ⟨-, orig, horig, -⟩ := hmay
      cases horig
  | transmit | registerInFlight =>
      obtain ⟨⟨⟨orig, horig, -⟩, -⟩, -⟩ := hmay
      cases horig
  | push cmd =>
      rcases hmay.2 with hmem | ⟨hchosen, -⟩
      · exact absurd hmem (Multiset.notMem_zero _)
      · cases hchosen
  | _ => rfl

/-- The courier that flushes is the thread that holds the flush mutex. -/
structure Holds (tid : ℕ) (w : World) (v : Courier) : Prop where
  flushing : v.flushing = true ↔ w.flushMu = some tid
  off : v.flushing = false → v = {}

section exec

variable {cfg : Config} {id : String} {tid : ℕ} {w w' : World} {inp : Input} {a : Act}
  {r : a.Res}

theorem Holds.own (hv : Holds tid w v) (hmay : v.May a)
    (h : exec cfg id tid w a inp = some (w', r)) : Holds tid w' (v.after a r) := by
  cases a with
  | lockFlush =>
      simp only [exec] at h
      split at h
      · cases h
        exact ⟨iff_of_true rfl rfl, fun hoff => by cases hoff⟩
      · cases h
  | unlockFlush =>
      cases h
      exact ⟨iff_of_false (by rintro ⟨⟩) (by simp), fun _ => rfl⟩
  | _ =>
      have hflushing := after_flushing v r rfl
      refine ⟨?_, fun hoff => after_off r hmay (hv.off (hflushing ▸ hoff)) rfl⟩
      rw [hflushing, (exec_mutex rfl h).1]
      exact hv.flushing

/-- While one thread flushes, no other does. -/
theorem Holds.off_of_mutex {w : World} (hv : Holds tid w v) (hmu : w.flushMu ≠ some tid) :
    v = {} :=
  hv.off (Bool.eq_false_iff.mpr fun hon => hmu (hv.flushing.mp hon))

theorem Holds.other {other : ℕ} {u : Courier} (hv : Holds tid w v) (hmay : v.May a)
    (hne : other ≠ tid) (hu : Holds other w u) (h : exec cfg id tid w a inp = some (w', r)) :
    Holds other w' u := by
  have hidle : w.flushMu ≠ some other → w'.flushMu ≠ some other → Holds other w' u := by
    intro hmu hmu'
    rw [hu.off_of_mutex hmu]
    exact ⟨iff_of_false (by simp) hmu', fun _ => rfl⟩
  cases a with
  | lockFlush =>
      simp only [exec] at h
      split at h
      · rename_i hfree
        cases h
        exact hidle (by simp [hfree]) (by simpa using Ne.symm hne)
      · cases h
  | unlockFlush =>
      have hmu := hv.flushing.mp hmay
      cases h
      exact hidle (by simpa [hmu] using Ne.symm hne) (by simp)
  | _ => exact ⟨by rw [(exec_mutex rfl h).1]; exact hu.flushing, hu.off⟩

/-! ### Properties of what the running flush carries

Such a property is one of the thread that flushes. Where nobody flushes, it speaks about
nothing carried. `P` is the property before the move and `Q` the one after it. -/

/-- The thread's own move. -/
theorem Holds.carried_own {P Q : World → Courier → Prop} (hv : Holds tid w v)
    (hv' : Holds tid w' (v.after a r)) (hmay : v.May a)
    (h : exec cfg id tid w a inp = some (w', r)) (hown : P w v → Q w' (v.after a r))
    (hj : w.flushMu = none → P w {}) (hk : v.flushing = true → P w v) :
    (w'.flushMu = none → Q w' {}) ∧ ((v.after a r).flushing = true → Q w' (v.after a r)) := by
  have hbefore : w'.flushMu = none ∨ (v.after a r).flushing = true → P w v := by
    have hfree : w.flushMu = none → P w v := by
      intro hfree
      rw [hv.off_of_mutex (by simp [hfree])]
      exact hj hfree
    cases a with
    | lockFlush =>
        simp only [exec] at h
        split at h
        · rename_i hmu
          exact fun _ => hfree hmu
        · cases h
    | unlockFlush => exact fun _ => hk hmay
    | _ =>
        rw [(exec_mutex rfl h).1, after_flushing v r rfl]
        exact fun hor => hor.elim hfree hk
  refine ⟨fun hfree => ?_, fun hon => hown (hbefore (.inr hon))⟩
  have hoff := hv'.off_of_mutex (by simp [hfree])
  exact hoff ▸ hown (hbefore (.inl hfree))

/-- The move of another thread, which does not flush. -/
theorem Holds.carried_other {P Q : World → Courier → Prop} {other : ℕ} {u : Courier}
    (hv : Holds tid w v) (hne : other ≠ tid) (hu : Holds other w u)
    (hbeside : v = {} → P w u → Q w' u) (hk : u.flushing = true → P w u)
    (hon : u.flushing = true) : Q w' u := by
  have hmu := hu.flushing.mp hon
  have hother : w.flushMu ≠ some tid := by
    rw [hmu]
    exact fun heq => hne (Option.some.inj heq)
  exact hbeside (hv.off_of_mutex hother) (hk hon)

end exec

end Courier

/-- The discipline of the couriers, for every kind of run. -/
def couriers (cfg : Config) (id : String) (R : Rules (machine cfg id)) :
    Discipline (machine cfg id) R {} Courier where
  protocol := Courier.protocol
  knows tid w v := Courier.Holds tid w v
  idle v := v = {}
  inv _ := True
  init := ⟨trivial, fun tid => ⟨{}, ⟨iff_of_false (by simp) (by simp), fun _ => rfl⟩, rfl⟩⟩
  start _ _ hidle _ := (Courier.taskSpec cfg id).prog _ hidle
  act _ hv _ hmay h :=
    ⟨trivial, ⟨_, rfl, hv.own hmay h⟩, fun _ hne _ hu => hv.other hmay hne hu h⟩
  crash _ _ := ⟨trivial, fun tid => ⟨{}, ⟨iff_of_false (by simp) (by simp), fun _ => rfl⟩, rfl⟩⟩

/-! ## Frames that a thread has written -/

/-- A command frame that went out. -/
structure Sent where
  conn : ConnID
  bytes : List UInt8
  cmd : Command
  seq : UInt8
  deriving DecidableEq

/-- The command frame that the thread wrote in this entry of the trace. -/
def sentBy (tid : ℕ) : Entry sig → Option Sent
  | .did other (.transmit conn bytes cmd seq) none =>
      if other = tid then some ⟨conn, bytes, cmd, seq⟩ else none
  | _ => none

/-- The last command frame that the thread wrote. -/
def lastSent (tid : ℕ) (trace : List (Entry sig)) : Option Sent :=
  trace.findSome? (sentBy tid)

theorem sentBy_other {tid other : ℕ} (hne : other ≠ tid) (a : Act) (r : a.Res) :
    sentBy tid (.did other a r) = none := by
  unfold sentBy
  split
  · rename_i h
    cases h
    exact if_neg hne
  · rfl

theorem lastSent_other {tid other : ℕ} (hne : other ≠ tid) (a : Act) (r : a.Res)
    (trace : List (Entry sig)) :
    lastSent tid (.did other a r :: trace) = lastSent tid trace := by
  rw [lastSent, List.findSome?_cons, sentBy_other hne]
  rfl

/-- The command frame that the thread writes next. -/
def transmitting : Deliver Unit → Option Sent
  | .act (.transmit conn bytes cmd seq) _ => some ⟨conn, bytes, cmd, seq⟩
  | _ => none

theorem exists_of_transmitting {p : Deliver Unit} {sent : Sent} (h : transmitting p = some sent) :
    ∃ k, p = .act (.transmit sent.conn sent.bytes sent.cmd sent.seq) k := by
  unfold transmitting at h
  split at h
  · rename_i conn bytes cmd seq k
    cases h
    exact ⟨k, rfl⟩
  · cases h

end TcpAdapter.Delivery
