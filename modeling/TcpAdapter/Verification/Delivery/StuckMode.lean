import TcpAdapter.Verification.Delivery.Conservation
import TcpAdapter.Verification.Delivery.Flush
import TcpAdapter.Verification.Delivery.ModeGate
import TcpAdapter.Verification.Delivery.OneInFlight
import TcpAdapter.Verification.Delivery.QueueMoves

/-! # Modes and the buffers they serve

A mode lets only the commands of its own buffer and high-priority ones through, and a flush
leaves it only after a send. So a mode whose buffer is empty stays on until a high-priority
command is sent. A flush leaves no such mode behind as long as the commands of the two
buffers are lost neither to expiry, to validation nor to eviction, and firmware mode is
switched on only for blocks that are there. -/

namespace TcpAdapter.Delivery

open TcpAdapter.Concurrent TcpAdapter.Queue TcpAdapter.Protocol TcpAdapter.Manager
open TcpAdapter.Policy

/-! ## Modes by buffer -/

/-- The mode that serves a buffer. -/
def World.mode (w : World) : ControllerQueue.Buffer → Bool
  | .fw => w.fwMode
  | .sync => w.syncMode
  | .high | .query => false

namespace FlushState

/-- The flush's copy of the mode. -/
def copy (v : FlushState) : ControllerQueue.Buffer → Bool
  | .fw => v.dctx.fwMode
  | .sync => v.dctx.syncMode
  | .high | .query => false

/-- The flush has yet to ask whether to leave the mode. -/
def due (v : FlushState) : ControllerQueue.Buffer → Bool
  | .fw => v.fwDue
  | .sync => v.syncDue
  | .high | .query => false

/-- A command of the class is queued or in the flush's hands. -/
def Covers (v : FlushState) (w : World) (b : ControllerQueue.Buffer) : Prop :=
  w.queue.buffer b ≠ [] ∨ ∃ cmd ∈ v.hands, cmd.priority.buffer = b

theorem Settled.due_eq_false {v : FlushState} (h : v.Settled) {b : ControllerQueue.Buffer}
    (hb : v.copy b = true) : v.due b = false := by
  cases b with
  | fw => exact h.fw hb
  | sync => exact h.sync hb
  | high | query => cases hb

end FlushState

/-- A mode serves commands of this class. -/
def moded (b : ControllerQueue.Buffer) : Prop :=
  b = .fw ∨ b = .sync

theorem moded_of_mode {w : World} {b : ControllerQueue.Buffer} (h : w.mode b = true) :
    moded b := by
  cases b with
  | fw => exact .inl rfl
  | sync => exact .inr rfl
  | high | query => cases h

/-- If a mode serves the command, nothing but a send or an eviction takes it out. -/
def Lasting (cmd : Command) : Prop :=
  moded cmd.priority.buffer → cmd.Sendable

instance (cmd : Command) : Decidable (Lasting cmd) :=
  inferInstanceAs (Decidable (_ ∨ _ → _))

/-- The buffer of every mode that is on has a command. -/
def ModesServed (w : World) : Prop :=
  ∀ b, w.mode b = true → w.queue.buffer b ≠ []

/-- What the world keeps between and during flushes. -/
structure Stocked (w : World) : Prop where
  sorted : Sorted w.queue
  queued : ∀ cmd ∈ w.queue.snapshot, Lasting cmd
  inFlight : ∀ seq entry, w.inFlight seq = some entry → Lasting entry.command
  served : w.flushMu = none → ModesServed w

/-- What a flush knows: each mode that is on is on in its copy, and is served by a command
that is left or is yet to be asked about. -/
structure KnowsStock (w : World) (v : FlushState) : Prop where
  locked : v.phase = .locked → ModesServed w ∧ v.hands = 0
  running : v.phase = .opened ∨ v.phase = .active → ∀ b, w.mode b = true →
    v.copy b = true ∧ (v.due b = true ∨ v.Covers w b)
  hands : v.phase = .opened ∨ v.phase = .active → ∀ cmd ∈ v.hands, Lasting cmd

theorem KnowsStock.of_phase {w : World} {v : FlushState} (hlocked : v.phase ≠ .locked)
    (hopened : v.phase ≠ .opened) (hactive : v.phase ≠ .active) : KnowsStock w v where
  locked hp := absurd hp hlocked
  running hp := (hp.elim hopened hactive).elim
  hands hp := (hp.elim hopened hactive).elim

/-! ## The conditions -/

/-- Enqueued commands that a mode serves are lasting, other threads than the flush switch
firmware mode on only outside flushes and with a firmware block queued, and no eviction
empties the buffer of a mode that is on. -/
def sparesModes (w : World) (tid : ℕ) : Act → Bool
  | .pushNew cmd => Lasting cmd
  | .setFWMode true => w.flushMu = some tid || (w.flushMu = none && w.queue.hasFW)
  | .dropOldest =>
      (!w.fwMode || w.queue.dropOldest.2.hasFW) && (!w.syncMode || w.queue.dropOldest.2.hasSync)
  | _ => true

/-- In a flush, saves and writes succeed. -/
def GoodFlush (w : World) (tid : ℕ) (inp : Input) : Prop :=
  w.flushMu = some tid → inp.saveErr = none ∧ inp.writeErr = none

instance (w : World) (tid : ℕ) (inp : Input) : Decidable (GoodFlush w tid inp) :=
  inferInstanceAs (Decidable (_ → _))

theorem buffer_fw_ne_nil {q : ControllerQueue} : q.hasFW = true ↔ q.buffer .fw ≠ [] := by
  simp [ControllerQueue.hasFW, ControllerQueue.buffer]

theorem buffer_sync_ne_nil {q : ControllerQueue} : q.hasSync = true ↔ q.buffer .sync ≠ [] := by
  simp [ControllerQueue.hasSync, ControllerQueue.buffer]

section exec

variable {cfg : Config} {id : String} {tid : ℕ} {w w' : World} {inp : Input} {v : FlushState}

/-- A flush whose saves and writes succeed does not fail. -/
theorem unfailed_own {a : Act} {r : a.Res} (hv : v.Holds tid w) (hne : v.phase ≠ .failed)
    (hmay : v.May a) (hio : GoodFlush w tid inp) (h : exec cfg id tid w a inp = some (w', r)) :
    (v.after a r).phase ≠ .failed := by
  have hgood : v.phase = .active → inp.saveErr = none ∧ inp.writeErr = none :=
    fun hactive => hio (hv.flushing.mp (by simp [hactive]))
  have hsession : v.phase = .active → w.session.isSome :=
    fun hactive => hv.session (by simp [hactive]) (by simp [hactive])
  cases a with
  | nextCommandSeq =>
      obtain ⟨-, -, -, hnext⟩ := exec_nextCommandSeq h
      obtain ⟨-, rfl⟩ := hnext (hsession hmay.1)
      exact hne
  | transmit conn bytes cmd seq =>
      simp only [exec, execTransmit, (hgood hmay.1).2] at h
      cases h
      exact hne
  | registerInFlight seq cmd sentAt =>
      obtain ⟨-, -, -, -, -, -, -, -, -, -, -, rfl⟩ := exec_registerInFlight (hsession hmay.1) h
      rw [(hgood hmay.1).1]
      exact hne
  | setSyncMode enabled =>
      obtain rfl := (exec_setSyncMode h).2.2.2.2 (hgood hmay.1).1
      exact hne
  | setFWMode enabled =>
      rcases hmay with hoff | ⟨hactive, -⟩
      · cases r with
        | none => exact hne
        | some err => simpa only [FlushState.after, hoff, if_true] using hne
      · obtain rfl := (exec_setFWMode h).2.2.2.2 (hgood hactive).1
        exact hne
  | ackSent =>
      obtain ⟨-, rfl⟩ := Prod.mk.inj (guarded_eq_some h)
      rw [ackSent_error _ (hgood hmay).1]
      exact hne
  | lockFlush | unlockFlush => simp [FlushState.after]
  | deliveryContext | popNext | hasSync | hasFW =>
      cases r <;> first | exact hne | simp [FlushState.after]
  | inFlightCount =>
      simp only [FlushState.after]
      split
      · simp
      · exact hne
  | _ => exact hne

theorem mode_eq (hfw : w'.fwMode = w.fwMode) (hsync : w'.syncMode = w.syncMode)
    (b : ControllerQueue.Buffer) : w'.mode b = w.mode b := by
  cases b with
  | fw => exact hfw
  | sync => exact hsync
  | high | query => rfl

theorem setFWMode_false {r : Option Error}
    (h : exec cfg id tid w (.setFWMode false) inp = some (w', r)) : w'.fwMode = false := by
  by_cases hs : w.session.isSome
  · exact (exec_setFWMode h).2.2.2.1 hs
  · have hnone : w.slot.session = none := Option.not_isSome_iff_eq_none.mp hs
    have heq := guarded_eq_some h
    simp only [method, Slot.setFWMode, hnone] at heq
    cases heq
    simp [World.fwMode, Slot.fwMode, World.commit, hnone]

/-- Outside its flush, a thread switches a mode on only when it is served and nobody flushes,
and takes no command from a mode that is on unless another one is left. -/
theorem exec_beside_modes {a : Act} {r : a.Res} (hv : v.Holds tid w) (hoff : v.phase = .off)
    (hmay : v.May a) (hrule : sparesModes w tid a = true)
    (h : exec cfg id tid w a inp = some (w', r)) {b : ControllerQueue.Buffer}
    (hb : w'.mode b = true) :
    (w.mode b = true ∨ w.flushMu = none) ∧
      (w'.queue.buffer b ≠ [] ∨ w.mode b = true ∧ w'.queue.buffer b = w.queue.buffer b) := by
  have hactive : v.phase ≠ .active := by simp [hoff]
  by_cases hset : ∃ enabled, a = .setFWMode enabled
  · obtain ⟨enabled, rfl⟩ := hset
    obtain ⟨hcalm, -, hsync, hfw, -⟩ := exec_setFWMode h
    have hqueue : w'.queue.buffer b = w.queue.buffer b := by rw [hcalm.queue]
    cases b with
    | high | query => cases hb
    | sync =>
        have hmode : w.mode .sync = true := hsync.symm.trans hb
        exact ⟨.inl hmode, .inr ⟨hmode, hqueue⟩⟩
    | fw =>
        cases enabled with
        | false =>
            cases (setFWMode_false h).symm.trans hb
        | true =>
            have hflush : w.flushMu ≠ some tid := fun hmu => hv.flushing.mpr hmu hoff
            simp only [sparesModes, hflush, decide_false, Bool.false_or, Bool.and_eq_true,
              decide_eq_true_eq] at hrule
            refine ⟨.inr hrule.1, .inl ?_⟩
            rw [hqueue]
            exact buffer_fw_ne_nil.mp hrule.2
  · have hnot : ∀ enabled, a ≠ .setFWMode enabled := fun enabled ha => hset ⟨enabled, ha⟩
    have hnotSync : ∀ enabled, a ≠ .setSyncMode enabled := by
      rintro enabled rfl
      exact hactive hmay.1
    obtain ⟨hfw, hsync⟩ := exec_modes hnot hnotSync h
    have hmode : w.mode b = true := (mode_eq hfw hsync b).symm.trans hb
    refine ⟨.inl hmode, ?_⟩
    have hm := exec_queueMove h
    generalize w'.queue = q at hm
    cases hm with
    | same => exact .inr ⟨hmode, rfl⟩
    | popped | drained => exact absurd hmay hactive
    | putBack => rcases hmay with hp | ⟨hp, -⟩ <;> cases hoff.symm.trans hp
    | enqueued cmd =>
        exact (push_buffer_cases _ _ b).imp_right fun heq => ⟨hmode, heq⟩
    | retried now hentry =>
        exact (push_buffer_cases _ _ b).imp_right fun heq => ⟨hmode, heq⟩
    | evicted hdrop =>
        left
        simp only [sparesModes, hdrop, Bool.and_eq_true, Bool.or_eq_true, Bool.not_eq_true'] at hrule
        cases b with
        | fw =>
            have hon : w.fwMode ≠ false := by rw [show w.fwMode = true from hmode]; simp
            exact buffer_fw_ne_nil.mp (hrule.1.resolve_left hon)
        | sync =>
            have hon : w.syncMode ≠ false := by rw [show w.syncMode = true from hmode]; simp
            exact buffer_sync_ne_nil.mp (hrule.2.resolve_left hon)
        | high | query => cases hmode

theorem KnowsStock.congr (hk : KnowsStock w v) (hmode : ∀ b, w'.mode b = w.mode b)
    (hqueue : w'.queue = w.queue) : KnowsStock w' v where
  locked hp := by
    refine ⟨fun b hb => ?_, (hk.locked hp).2⟩
    rw [hqueue]
    exact (hk.locked hp).1 b (hmode b ▸ hb)
  running hp b hb := by
    obtain ⟨hcopy, hcovered⟩ := hk.running hp b (hmode b ▸ hb)
    rw [FlushState.Covers, hqueue]
    exact ⟨hcopy, hcovered⟩
  hands := hk.hands

/-- What a mode serves does not expire. -/
theorem drainExpired_buffer_eq (hw : Stocked w) {b : ControllerQueue.Buffer} (hb : moded b)
    (now : Time) : (w.queue.drainExpired now).2.buffer b = w.queue.buffer b := by
  rw [ControllerQueue.drainExpired_buffer, List.filter_eq_self]
  intro cmd hcmd
  have hlasting := hw.queued cmd (ControllerQueue.mem_snapshot.mpr ⟨b, hcmd⟩)
  have hsendable := hlasting (hw.sorted b cmd hcmd ▸ hb)
  by_contra hexpired
  exact Command.not_sendable_of_expired (by simpa using hexpired) hsendable

/-- What the flush does to the commands of a class before it sends one. -/
theorem covers_own {a : Act} {r : a.Res} (hw : Stocked w) (hv : v.Holds tid w)
    (hactive : v.phase = .active) (hlasting : ∀ cmd ∈ v.hands, Lasting cmd) (hmay : v.May a)
    (hruns : a.runs = true) (hreg : ∀ seq cmd sentAt, a ≠ .registerInFlight seq cmd sentAt)
    (h : exec cfg id tid w a inp = some (w', r)) {b : ControllerQueue.Buffer} (hb : moded b)
    (hcovers : v.Covers w b) : (v.after a r).Covers w' b := by
  have hsession := hv.session (by simp [hactive]) (by simp [hactive])
  cases a with
  | registerInFlight seq cmd sentAt => exact absurd rfl (hreg seq cmd sentAt)
  | popNext now fwMode syncMode =>
      rcases exec_popNext hsession h with ⟨rfl, rfl⟩ | ⟨cmd, rfl, hpop⟩
      · exact hcovers
      · obtain ⟨b', rest, hb', hq⟩ := ControllerQueue.popNext_some hpop
        rcases hcovers with hqueued | ⟨c, hc, hclass⟩
        · by_cases hsame : b = b'
          · -- the popped command itself is of the class
            subst hsame
            have hclass := hw.sorted b cmd (by rw [hb']; exact List.mem_cons_self)
            exact .inr ⟨cmd.unnumbered, Multiset.mem_cons_self _ _, hclass⟩
          · left
            rwa [hq, ControllerQueue.buffer_setBuffer_of_ne _ hsame]
        · exact .inr ⟨c, Multiset.mem_cons_of_mem hc, hclass⟩
  | push cmd =>
      have hqueue := exec_push hsession h
      rcases push_buffer_cases w.queue cmd b with hne | heq
      · exact .inl (by rwa [hqueue])
      · rcases hcovers with hqueued | ⟨c, hc, hclass⟩
        · exact .inl (by rwa [hqueue, heq])
        · by_cases hcmd : b = cmd.priority.buffer
          · left
            rw [hqueue, ControllerQueue.push_eq, hcmd, ControllerQueue.buffer_setBuffer]
            simp
          · have hne : c ≠ cmd.unnumbered := by
              rintro rfl
              exact hcmd hclass.symm
            exact .inr ⟨c, (Multiset.mem_erase_of_ne hne).mpr hc, hclass⟩
  | drainExpired now =>
      rcases hcovers with hqueued | hhands
      · left
        rwa [exec_drainExpired hsession h, drainExpired_buffer_eq hw hb]
      · exact .inr hhands
  | publishAckWithCommand event cmd =>
      rcases hcovers with hqueued | ⟨c, hc, hclass⟩
      · exact .inl (by rwa [(exec_commands rfl h).1])
      · have hne : c ≠ cmd.unnumbered := by
          rintro rfl
          rcases hmay with hp | hp | ⟨-, hnot⟩
          · cases hactive.symm.trans hp
          · cases hactive.symm.trans hp
          · have hsendable : cmd.unnumbered.Sendable := hlasting _ hc (hclass ▸ hb)
            exact hnot hc hsendable
        exact .inr ⟨c, (Multiset.mem_erase_of_ne hne).mpr hc, hclass⟩
  | setFWMode | setSyncMode | nextCommandSeq | transmit | hasSync | hasFW | ackSent =>
      have hhands := (FlushState.after_account (v := v) r rfl).1
      rw [FlushState.Covers, hhands, (exec_commands rfl h).1]
      exact hcovers
  | _ => cases hruns

/-- What the flush has in its hands is lasting. -/
theorem hands_own {a : Act} {r : a.Res} (hw : Stocked w) (hv : v.Holds tid w)
    (hactive : v.phase = .active) (hlasting : ∀ cmd ∈ v.hands, Lasting cmd)
    (hruns : a.runs = true) (h : exec cfg id tid w a inp = some (w', r)) :
    ∀ cmd ∈ (v.after a r).hands, Lasting cmd := by
  have hsession := hv.session (by simp [hactive]) (by simp [hactive])
  cases a with
  | popNext now fwMode syncMode =>
      rcases exec_popNext hsession h with ⟨rfl, rfl⟩ | ⟨cmd, rfl, hpop⟩
      · exact hlasting
      · intro c hc
        rcases Multiset.mem_cons.mp hc with rfl | hmem
        · have hperm := ControllerQueue.popNext_snapshot_perm hpop
          exact hw.queued cmd (hperm.mem_iff.mpr List.mem_cons_self)
        · exact hlasting c hmem
  | push | publishAckWithCommand => exact fun c hc => hlasting c (Multiset.mem_of_mem_erase hc)
  | registerInFlight =>
      cases r with
      | none => exact fun c hc => hlasting c (Multiset.mem_of_mem_erase hc)
      | some err => exact hlasting
  | drainExpired => exact hlasting
  | setFWMode | setSyncMode | nextCommandSeq | transmit | hasSync | hasFW | ackSent =>
      rw [(FlushState.after_account (v := v) r rfl).1]
      exact hlasting
  | _ => cases hruns

/-- A mode that is on after an action of the flush was on before, or was just switched on
after a send. -/
theorem mode_own {a : Act} {r : a.Res} (hv : v.Holds tid w) (hactive : v.phase = .active)
    (hmay : v.May a) (hruns : a.runs = true) (hstill : (v.after a r).phase = .active)
    (h : exec cfg id tid w a inp = some (w', r)) {b : ControllerQueue.Buffer}
    (hb : w'.mode b = true) :
    (w.mode b = true ∧ (v.copy b = true → (v.after a r).copy b = true) ∧
        (v.due b = true → (v.after a r).due b = true ∨ w'.queue.buffer b ≠ [])) ∨
      (v.after a r).copy b = true ∧ (v.after a r).due b = true := by
  have hsession := hv.session (by simp [hactive]) (by simp [hactive])
  cases a with
  | setFWMode enabled =>
      obtain ⟨-, -, hsync, hfw, -⟩ := exec_setFWMode h
      cases r with
      | some err => simp [FlushState.after, hactive, FlushState.fail] at hstill
      | none =>
          cases b with
          | high | query => cases hb
          | sync => exact .inl ⟨hsync.symm.trans hb, fun hc => hc, fun hd => .inl hd⟩
          | fw =>
              obtain rfl : enabled = true := (hfw hsession).symm.trans hb
              obtain ⟨-, hdue⟩ := hmay.resolve_left (by simp [hactive])
              exact .inr ⟨rfl, Bool.and_eq_true_iff.mpr ⟨hdue rfl, rfl⟩⟩
  | setSyncMode enabled =>
      obtain ⟨-, -, hfw, hsync, -⟩ := exec_setSyncMode h
      cases r with
      | some err => cases hstill
      | none =>
          cases b with
          | high | query => cases hb
          | fw => exact .inl ⟨hfw.symm.trans hb, fun hc => hc, fun hd => .inl hd⟩
          | sync =>
              obtain rfl : enabled = true := (hsync hsession).symm.trans hb
              exact .inr ⟨rfl, Bool.and_eq_true_iff.mpr ⟨(hmay.2 rfl).1, rfl⟩⟩
  | registerInFlight seq cmd sentAt =>
      have hmode := mode_eq (exec_settings rfl h).2.1 (exec_settings rfl h).2.2 b
      cases r with
      | some err => cases hstill
      | none =>
          refine .inl ⟨hmode.symm.trans hb, fun hc => ?_, fun _ => .inl ?_⟩
          · cases b <;> exact hc
          · cases b with
            | fw | sync => rfl
            | high | query => cases hb
  | hasSync =>
      cases h
      refine .inl ⟨hb, fun hc => ?_, fun hd => ?_⟩
      · cases hhas : w.queue.hasSync <;> cases b <;> exact hc
      · cases hhas : w.queue.hasSync with
        | false => cases b <;> exact .inl hd
        | true =>
            cases b with
            | sync => exact .inr (buffer_sync_ne_nil.mp hhas)
            | _ => exact .inl hd
  | hasFW =>
      cases h
      refine .inl ⟨hb, fun hc => ?_, fun hd => ?_⟩
      · cases hhas : w.queue.hasFW <;> cases b <;> exact hc
      · cases hhas : w.queue.hasFW with
        | false => cases b <;> exact .inl hd
        | true =>
            cases b with
            | fw => exact .inr (buffer_fw_ne_nil.mp hhas)
            | _ => exact .inl hd
  | popNext | push | drainExpired | publishAckWithCommand | nextCommandSeq | transmit | ackSent =>
      obtain ⟨hfw, hsync⟩ := exec_modes (by simp) (by simp) h
      refine .inl ⟨(mode_eq hfw hsync b).symm.trans hb, fun hc => ?_, fun hd => .inl ?_⟩
      · cases r <;> cases b <;> exact hc
      · cases r <;> cases b <;> exact hd
  | _ => cases hruns

theorem due_register {seq : UInt8} {cmd : Command} {sentAt : Time} {r : Option Error}
    (hstill : (v.after (.registerInFlight seq cmd sentAt) r).phase = .active)
    {b : ControllerQueue.Buffer} (hb : moded b) :
    (v.after (.registerInFlight seq cmd sentAt) r).due b = true := by
  cases r with
  | some err => cases hstill
  | none => rcases hb with rfl | rfl <;> rfl

theorem knowsStock_own {a : Act} {r : a.Res} (hw : Stocked w) (hv : v.Holds tid w)
    (hk : KnowsStock w v) (hmay : v.May a) (h : exec cfg id tid w a inp = some (w', r)) :
    KnowsStock w' (v.after a r) := by
  refine FlushState.knowledge_own hmay h ?_ ?_ ?_ ?_ ?_ ?_
  · rintro v (hp | hp)
    · exact .of_phase (by simp [hp]) (by simp [hp]) (by simp [hp])
    · exact .of_phase (by simp [hp]) (by simp [hp]) (by simp [hp])
  · intro hslot
    exact hk.congr (mode_eq (by simp [hslot]) (by simp [hslot])) (by simp [hslot])
  · intro hfree hslot
    refine ⟨fun _ => ⟨fun b hb => ?_, rfl⟩, by simp, by simp⟩
    have hmode : w.mode b = true := by
      rw [← hb]
      exact (mode_eq (by simp [hslot]) (by simp [hslot]) b).symm
    simpa [hslot] using hw.served hfree b hmode
  · rintro s rfl hlocked rfl hs
    have hslot : w.slot.session = some s := hs
    obtain ⟨hserved, hhands⟩ := hk.locked hlocked
    refine ⟨by simp [FlushState.after], fun _ b hb => ⟨?_, .inr (.inl (hserved b hb))⟩, ?_⟩
    · cases b with
      | fw =>
          have hmode : s.fwMode = true := by simpa [World.mode, Slot.fwMode, hslot] using hb
          exact hmode
      | sync =>
          have hmode : s.syncMode = true := by simpa [World.mode, Slot.syncMode, hslot] using hb
          exact hmode
      | high | query => cases hb
    · intro _ cmd hcmd
      simp [FlushState.after, hhands] at hcmd
  · rintro hopened rfl -
    exact ⟨by simp, fun _ b hb => hk.running (.inl hopened) b hb,
      fun _ cmd hcmd => hk.hands (.inl hopened) cmd hcmd⟩
  · intro hactive hruns hstill
    have hlasting := hk.hands (.inr hactive)
    refine ⟨by simp [hstill], fun _ b hb => ?_, fun _ => hands_own hw hv hactive hlasting hruns h⟩
    rcases mode_own hv hactive hmay hruns hstill h hb with ⟨hmode, hcopy, hdue⟩ | ⟨hcopy, hdue⟩
    · obtain ⟨hcopied, hcovered⟩ := hk.running (.inr hactive) b hmode
      refine ⟨hcopy hcopied, ?_⟩
      by_cases hreg : ∃ seq cmd sentAt, a = .registerInFlight seq cmd sentAt
      · obtain ⟨seq, cmd, sentAt, rfl⟩ := hreg
        exact .inl (due_register hstill (moded_of_mode hmode))
      · have hnot : ∀ seq cmd sentAt, a ≠ .registerInFlight seq cmd sentAt :=
          fun seq cmd sentAt ha => hreg ⟨seq, cmd, sentAt, ha⟩
        rcases hcovered with hd | hcovers
        · exact (hdue hd).imp_right .inl
        · exact .inr (covers_own hw hv hactive hlasting hmay hruns hnot h (moded_of_mode hmode)
            hcovers)
    · exact ⟨hcopy, .inl hdue⟩

theorem knowsStock_other {a : Act} {r : a.Res} {other : ℕ} {u : FlushState}
    (hv : v.Holds tid w) (hmay : v.May a) (hrule : sparesModes w tid a = true)
    (hne : other ≠ tid) (hu : u.Holds other w) (hk : KnowsStock w u)
    (h : exec cfg id tid w a inp = some (w', r)) : KnowsStock w' u := by
  by_cases hon : u.phase = .off
  · exact .of_phase (by simp [hon]) (by simp [hon]) (by simp [hon])
  · have hoff := hv.off_of_other hne hu hon
    have hheld : w.flushMu ≠ none := by simp [hu.flushing.mp hon]
    refine ⟨fun hp => ⟨fun b hb => ?_, (hk.locked hp).2⟩, fun hp b hb => ?_, hk.hands⟩
    · obtain ⟨hmode, hbuffer⟩ := exec_beside_modes hv hoff hmay hrule h hb
      rcases hbuffer with hne | ⟨-, heq⟩
      · exact hne
      · rw [heq]
        exact (hk.locked hp).1 b (hmode.resolve_right hheld)
    · obtain ⟨hmode, hbuffer⟩ := exec_beside_modes hv hoff hmay hrule h hb
      obtain ⟨hcopy, hcovered⟩ := hk.running hp b (hmode.resolve_right hheld)
      refine ⟨hcopy, hcovered.imp_right fun hcovers => ?_⟩
      rcases hbuffer with hne | ⟨-, heq⟩
      · exact .inl hne
      · rwa [FlushState.Covers, heq]

/-- When a flush ends, every mode that is on is served. -/
theorem KnowsStock.served_of_unlock (hk : KnowsStock w v) (hunfailed : v.phase ≠ .failed)
    (hmay : v.May .unlockFlush) : ModesServed w := by
  intro b hb
  obtain ⟨hhands, hsettled⟩ := hmay.2 hunfailed
  have hrunning : v.phase = .opened ∨ v.phase = .active → w.queue.buffer b ≠ [] := by
    intro hp
    obtain ⟨hcopy, hdue | hqueued | ⟨cmd, hcmd, -⟩⟩ := hk.running hp b hb
    · rw [hsettled.due_eq_false hcopy] at hdue
      cases hdue
    · exact hqueued
    · simp [hhands] at hcmd
  cases hp : v.phase with
  | off => exact absurd hp hmay.1
  | locked => exact (hk.locked hp).1 b hb
  | opened => exact hrunning (.inl hp)
  | active => exact hrunning (.inr hp)
  | failed => exact absurd hp hunfailed

/-- Every step keeps what the world keeps. -/
theorem stocked_exec {a : Act} {r : a.Res} (hw : Stocked w) (hv : v.Holds tid w)
    (hunfailed : v.phase ≠ .failed) (hk : KnowsStock w v) (hmay : v.May a)
    (hrule : sparesModes w tid a = true) (h : exec cfg id tid w a inp = some (w', r)) :
    Stocked w' where
  sorted := (exec_queueMove h).sorted hw.sorted
  queued := by
    intro cmd hcmd
    rcases (exec_queueMove h).mem_snapshot hcmd with
      hold | rfl | ⟨new, rfl, rfl⟩ | ⟨seq, now, entry, rfl, hentry, rfl⟩
    · exact hw.queued cmd hold
    · obtain ⟨hactive, hmem, -⟩ := hmay.resolve_left hunfailed
      have hlasting : Lasting cmd.unnumbered := hk.hands (.inr hactive) _ hmem
      exact hlasting
    · exact of_decide_eq_true hrule
    · exact hw.inFlight seq entry hentry
  inFlight := by
    intro seq entry hentry
    rcases exec_inFlight_some h hentry with hold | ⟨cmd, sentAt, rfl, rfl⟩
    · exact hw.inFlight seq entry hold
    · exact hk.hands (.inr hmay.1) cmd hmay.2.hands
  served := by
    intro hfree b hb
    cases a with
    | lockFlush =>
        simp only [exec] at h
        split at h
        · cases h
          cases hfree
        · cases h
    | unlockFlush =>
        cases h
        exact hk.served_of_unlock hunfailed hmay b hb
    | _ =>
        rw [(exec_mutex rfl h).1] at hfree
        have hoff : v.phase = .off := by
          by_contra hon
          rw [hv.flushing.mp hon] at hfree
          cases hfree
        rcases (exec_beside_modes hv hoff hmay hrule h hb).2 with hne | ⟨hmode, heq⟩
        · exact hne
        · rw [heq]
          exact hw.served hfree b hmode

end exec

/-! ## Runs -/

section rules

variable (cfg : Config) (id : String)

/-- Runs without a restart that meet the conditions. -/
abbrev stockRules : Rules (machine cfg id) where
  act w tid a inp := sparesModes w tid a = true ∧ GoodFlush w tid inp
  crash _ := False

/-- No flush fails. -/
def unfailing : Discipline (machine cfg id) (stockRules cfg id) {} FlushState :=
  (flushes cfg id (stockRules cfg id)).strengthen
    (fun _ => True) (fun _ _ v => v.phase ≠ .failed) trivial
    (fun _ _ _ hoff hp => by cases hoff.symm.trans hp)
    (fun m _ hne hnext _ => by
      subst hnext
      exact ⟨trivial, unfailed_own m.knows hne m.may m.rule.2 m.exec⟩)
    (fun _ _ _ _ hne => hne)
    (fun _ hcrash => hcrash.elim)

theorem stocked_initial : Stocked {} where
  sorted b cmd hcmd := by cases b <;> cases hcmd
  queued cmd hcmd := by cases hcmd
  inFlight seq entry hentry := by cases hentry
  served _ b hb := by cases b <;> cases hb

def stocks : Discipline (machine cfg id) (stockRules cfg id) {} FlushState :=
  (unfailing cfg id).strengthen Stocked (fun _ w v => KnowsStock w v) stocked_initial
    (fun _ _ _ hoff => .of_phase (fun hp => by cases hoff.symm.trans hp)
      (fun hp => by cases hoff.symm.trans hp) fun hp => by cases hoff.symm.trans hp)
    (fun m hw hk hnext _ => by
      subst hnext
      exact ⟨stocked_exec hw m.knows.1 m.knows.2 hk m.may m.rule.1 m.exec,
        knowsStock_own hw m.knows.1 hk m.may m.exec⟩)
    (fun m _ hne hu hk => knowsStock_other m.knows.1 m.may m.rule.1 hne hu.1 hk m.exec)
    (fun _ hcrash => hcrash.elim)

end rules

/-- Whenever no flush is running, in particular when one has just returned, every mode that is
on has a command to serve. -/
theorem modes_served_after_flush {cfg : Config} {id : String}
    {c : Concurrent.Config (machine cfg id)} (h : Reachable (stockRules cfg id) {} c)
    (hfree : c.world.flushMu = none) :
    (c.world.syncMode = true → c.world.queue.hasSync = true) ∧
      (c.world.fwMode = true → c.world.queue.hasFW = true) := by
  have hserved := ((stocks cfg id).sound h).1.2.served hfree
  exact ⟨fun hsync => buffer_sync_ne_nil.mpr (hserved .sync hsync),
    fun hfw => buffer_fw_ne_nil.mpr (hserved .fw hfw)⟩

/-- The controller says that it is ready for firmware while only command 9 is queued. The
handler's flush returns without an error: the connection stays. -/
def stuckLabels : List (Label (machine {} "c")) :=
  connect ++ call 0 (.enqueue { commandID := 9 } 0) 20 ++ call 0 (.serve 7 fwReady) 40

/-- Firmware mode is on after a flush with nothing in flight, and no block is queued. -/
theorem fw_mode_stuck :
    ∃ c, Reachable (savingRules {} "c") {} c ∧ (c.threads 0).isDone ∧
      c.world.flushMu = none ∧ (history c.world.log).head? = some (.flushEnded 0) ∧
      c.world.session.any (fun s => s.conn = some 7) ∧ c.world.inFlight.count = 0 ∧
      c.world.fwMode = true ∧ c.world.queue.hasFW = false ∧ c.world.queue.len = 1 :=
  ⟨_, Reachable.initial.run stuckLabels, by decide +kernel⟩

/-- Two sync commands wait, and the controller has room for one. -/
def servedLabels : List (Label (machine {} "c")) :=
  connect ++ call 0 (.status1 7 ⟨255, 1, [2, 0, 0, 0, 0, 0, 0, 30, 0], .sequenced⟩) 5 ++
    call 0 (.enqueue { commandID := 16, payload := [0, 0, 0, 0, 1, 0, 0, 0, 0] } 0) 20 ++
    call 0 (.enqueue { commandID := 16, payload := [0, 0, 0, 0, 1, 0, 0, 0, 0] } 0) 20 ++
    call 0 .flush 60

theorem sync_mode_served :
    ∃ c, Reachable (stockRules {} "c") {} c ∧ c.world.flushMu = none ∧
      c.world.syncMode = true ∧ c.world.queue.hasSync = true := by
  have hserved : ∃ c, Reachable (stockRules {} "c") {} c ∧ c.world.flushMu = none ∧
      c.world.syncMode = true :=
    ⟨_, Reachable.initial.run servedLabels, by decide +kernel⟩
  obtain ⟨c, hc, hfree, hsync⟩ := hserved
  exact ⟨c, hc, hfree, hsync, (modes_served_after_flush hc hfree).1 hsync⟩

end TcpAdapter.Delivery
