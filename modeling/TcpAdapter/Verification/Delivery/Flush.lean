import Mathlib.Data.Multiset.Count
import TcpAdapter.Verification.Delivery.Frames
import TcpAdapter.Verification.Delivery.Tasks
import TcpAdapter.Verification.Protocol.Frame

/-! # A flush from inside

The protocol of `flushQueue`: what a flush has in its local variables at each point, and
what it does only when these allow it. It sends what its copy of the modes lets through
and what fits into the bytes that remain, under a number that the counter gave it or that
the command had before. After each send it asks whether a mode has to be left. -/

namespace TcpAdapter.Queue.Command

open TcpAdapter.Protocol TcpAdapter.Delivery

/-- The command as a flush sends it or puts it back. -/
def unnumbered (cmd : Command) : Command :=
  { cmd with retrySeq := 0 }

/-- The command never expires, its payload is valid, and it fits a frame. -/
def Sendable (cmd : Command) : Prop :=
  cmd.ttl ≤ 0 ∧ (validateServerCommandPayload cmd.commandID cmd.payload).isOk = true ∧
    cmd.payload.length + 3 ≤ 0xFFFF

instance (cmd : Command) : Decidable cmd.Sendable :=
  inferInstanceAs (Decidable (_ ∧ _ ∧ _))

/-- The bytes of the command's frame. -/
def frameLength (mode : FrameMode) (cmd : Command) : ℕ :=
  (commandFrame cmd 0 mode).data.length + 8

theorem frameLength_eq {cmd : Command} {seq : UInt8} {mode : FrameMode} {bytes : List UInt8}
    (h : encodeFrame (commandFrame cmd seq mode) = .ok bytes) :
    bytes.length = cmd.frameLength mode := by
  rw [encodeFrame_length h, frameLength, data_length, data_length]
  rfl

theorem not_sendable_of_expired {cmd : Command} {now : Time} (h : cmd.expired now = true) :
    ¬cmd.Sendable := by
  intro hs
  simp [expired, hs.1] at h

theorem not_sendable_of_invalid {cmd : Command} {err : String}
    (h : validateServerCommandPayload cmd.commandID cmd.payload = .error err) : ¬cmd.Sendable := by
  intro hs
  have hok := hs.2.1
  rw [h] at hok
  cases hok

theorem not_sendable_of_encode {cmd : Command} {seq : UInt8} {mode : FrameMode} {err : String}
    (h : encodeFrame (commandFrame cmd seq mode) = .error err) : ¬cmd.Sendable := by
  intro hs
  have hlen := hs.2.2
  have hdata : (commandFrame cmd seq mode).data.length ≤ cmd.payload.length + 3 := by
    rw [data_length]
    change cmd.payload.length + 1 + (if mode = .compact then 1 else 2) ≤ _
    split <;> omega
  simp only [encodeFrame] at h
  split at h
  · rename_i hempty
    cases hempty
  · split at h
    · omega
    · cases h

end TcpAdapter.Queue.Command

namespace TcpAdapter.Delivery

open TcpAdapter.Concurrent TcpAdapter.Queue TcpAdapter.Protocol TcpAdapter.Manager
open TcpAdapter.Policy

/-- The sync commands do not pass in firmware mode. -/
theorem fwMode_of_sync_allowed {commandID : UInt8} {fwMode syncMode : Bool}
    (h : commandAllowedInModes commandID fwMode syncMode = true)
    (hid : 12 ≤ commandID ∧ commandID ≤ 16) : fwMode = false := by
  cases fwMode with
  | false => rfl
  | true =>
      have hcases : commandID = 12 ∨ commandID = 13 ∨ commandID = 14 ∨ commandID = 15 ∨
          commandID = 16 := by
        simp only [UInt8.le_iff_toNat_le, ← UInt8.toNat_inj] at hid ⊢
        simp at hid ⊢
        omega
      rcases hcases with rfl | rfl | rfl | rfl | rfl <;> cases h

/-- What a flush does once it has found nothing in flight, apart from looking around. -/
def Act.runs : Act → Bool
  | .popNext _ _ _ | .drainExpired _ | .push _ | .publishAckWithCommand _ _ => true
  | .nextCommandSeq | .transmit _ _ _ _ | .registerInFlight _ _ _ => true
  | .setSyncMode _ | .setFWMode _ | .hasFW | .hasSync | .ackSent => true
  | _ => false

/-! ## What a flush knows -/

/-- How far a flush is. It is `failed` once a save or a write has failed. -/
inductive Phase where
  | off
  | locked
  | opened
  | active
  | failed
  deriving DecidableEq

structure FlushState where
  phase : Phase := .off
  dctx : DeliveryContext := ⟨none, 0, false, false, .sequenced⟩
  remaining : Int := 0
  /-- The commands it has popped and not disposed of. -/
  hands : Multiset Command := 0
  /-- The numbers that commands in `hands` had before; there may be more of them. -/
  retries : Multiset UInt8 := 0
  /-- At least as many commands in `hands` as need a number from the counter. -/
  fresh : ℕ := 0
  /-- It has put a command back that did not fit, and sends no more. -/
  spent : Bool := false
  /-- The number that the counter gave for the command it popped last. -/
  number : Option UInt8 := none
  /-- The length of the frame it wrote last. -/
  wire : ℕ := 0
  /-- It has sent a command and not yet asked whether to leave sync mode. -/
  syncDue : Bool := false
  fwDue : Bool := false

namespace FlushState

/-- Nothing is left to ask about the modes that are on. -/
structure Settled (v : FlushState) : Prop where
  sync : v.dctx.syncMode = true → v.syncDue = false
  fw : v.dctx.fwMode = true → v.fwDue = false

/-- The command may go out under this number, in a frame of `n` bytes. -/
structure Fits (v : FlushState) (cmd : Command) (seq : UInt8) (n : ℕ) : Prop where
  unspent : v.spent = false
  hands : cmd ∈ v.hands
  number : v.number = some seq ∨ seq ∈ v.retries
  length : n = cmd.frameLength v.dctx.frameMode
  remaining : n ≤ v.remaining

def fail (v : FlushState) : FlushState :=
  { v with phase := .failed }

def pop (v : FlushState) (cmd : Command) : FlushState :=
  { v with
    hands := cmd.unnumbered ::ₘ v.hands
    number := none
    retries := if cmd.retrySeq = 0 then v.retries else cmd.retrySeq ::ₘ v.retries
    fresh := if cmd.retrySeq = 0 then v.fresh + 1 else v.fresh }

/-- A command without a number that `fresh` does not account for is one that did not fit. -/
def putBack (v : FlushState) (cmd : Command) : FlushState :=
  { v with
    spent := v.spent || (cmd.retrySeq = 0 && v.fresh = 0)
    hands := v.hands.erase cmd.unnumbered
    retries := if cmd.retrySeq = 0 then v.retries else v.retries.erase cmd.retrySeq
    fresh := if cmd.retrySeq = 0 then v.fresh - 1 else v.fresh }

def register (v : FlushState) (seq : UInt8) (cmd : Command) : FlushState :=
  { v with
    hands := v.hands.erase cmd
    remaining := v.remaining - v.wire
    number := none
    retries := if v.number = some seq then v.retries else v.retries.erase seq
    syncDue := true
    fwDue := true }

/-- What the flush knows once an action has answered. -/
def after (v : FlushState) : (a : Act) → a.Res → FlushState
  | .lockFlush, _ => { phase := .locked }
  | .unlockFlush, _ => {}
  | .deliveryContext, some dctx =>
      { v with phase := .opened, dctx := dctx, remaining := maxBudget dctx }
  | .inFlightCount, count => if count = 0 then { v with phase := .active } else v
  | .popNext _ _ _, some cmd => v.pop cmd
  | .push cmd, _ => v.putBack cmd
  | .nextCommandSeq, .ok seq => { v with number := some seq, fresh := v.fresh - 1 }
  | .nextCommandSeq, .error _ => v.fail
  | .transmit _ bytes _ _, none => { v with wire := bytes.length }
  | .transmit _ _ _ _, some _ => v.fail
  | .registerInFlight seq cmd _, none => v.register seq cmd
  | .registerInFlight _ _ _, some _ => v.fail
  | .setSyncMode enabled, none =>
      { v with dctx := { v.dctx with syncMode := enabled }, syncDue := v.syncDue && enabled }
  | .setSyncMode _, some _ => v.fail
  | .setFWMode enabled, none =>
      { v with dctx := { v.dctx with fwMode := enabled }, fwDue := v.fwDue && enabled }
  | .setFWMode _, some _ => if v.phase = .off then v else v.fail
  | .hasSync, true => { v with syncDue := false }
  | .hasFW, true => { v with fwDue := false }
  | .ackSent, some _ => v.fail
  | .publishAckWithCommand _ cmd, _ => { v with hands := v.hands.erase cmd.unnumbered }
  | _, _ => v

def May (v : FlushState) : Act → Prop
  | .now | .publishAck _ | .queueLen => True
  | .lockFlush => v.phase = .off
  | .unlockFlush => v.phase ≠ .off ∧ (v.phase ≠ .failed → v.hands = 0 ∧ v.Settled)
  | .deliveryContext => v.phase = .locked
  | .inFlightCount => v.phase = .opened
  | .drainExpired _ | .popNext _ _ _ | .hasFW | .hasSync | .ackSent => v.phase = .active
  | .push cmd =>
      v.phase = .failed ∨
        v.phase = .active ∧ cmd.unnumbered ∈ v.hands ∧
          (cmd.retrySeq ≠ 0 → cmd.retrySeq ∈ v.retries)
  | .nextCommandSeq => v.phase = .active ∧ v.spent = false ∧ 0 < v.fresh
  | .transmit _ bytes cmd seq =>
      v.phase = .active ∧ v.Fits cmd seq bytes.length ∧
        commandAllowedInModes cmd.commandID v.dctx.fwMode v.dctx.syncMode = true
  | .registerInFlight seq cmd _ => v.phase = .active ∧ v.Fits cmd seq v.wire
  | .setSyncMode enabled =>
      v.phase = .active ∧ (enabled = true → v.syncDue = true ∧ v.dctx.fwMode = false)
  | .setFWMode enabled =>
      v.phase = .off ∨ v.phase = .active ∧ (enabled = true → v.fwDue = true)
  | .publishAckWithCommand _ cmd =>
      v.phase = .off ∨ v.phase = .failed ∨
        v.phase = .active ∧ (cmd.unnumbered ∈ v.hands → ¬cmd.Sendable)
  | _ => v.phase = .off

def protocol : Protocol sig FlushState :=
  .ofAfter May after

section after

variable (v : FlushState)

theorem after_lockFlush (r : Unit) : v.after .lockFlush r = { phase := .locked } := rfl

theorem after_unlockFlush (r : Unit) : v.after .unlockFlush r = {} := rfl

theorem after_deliveryContext (dctx : DeliveryContext) : v.after .deliveryContext (some dctx) =
    { v with phase := .opened, dctx := dctx, remaining := maxBudget dctx } := rfl

theorem after_inFlightCount (count : ℕ) :
    v.after .inFlightCount count = if count = 0 then { v with phase := .active } else v := rfl

theorem after_setSyncMode (enabled : Bool) : v.after (.setSyncMode enabled) none =
    { v with dctx := { v.dctx with syncMode := enabled }, syncDue := v.syncDue && enabled } := rfl

theorem after_setFWMode (enabled : Bool) : v.after (.setFWMode enabled) none =
    { v with dctx := { v.dctx with fwMode := enabled }, fwDue := v.fwDue && enabled } := rfl

theorem after_setFWMode_some (enabled : Bool) (err : Error) :
    v.after (.setFWMode enabled) (some err) = if v.phase = .off then v else v.fail := rfl

theorem after_hasSync_false : v.after .hasSync false = v := rfl

theorem after_hasFW_false : v.after .hasFW false = v := rfl

theorem after_publishAckWithCommand (event : AckEvent) (cmd : Command) (r : Unit) :
    v.after (.publishAckWithCommand event cmd) r =
      { v with hands := v.hands.erase cmd.unnumbered } := rfl

end after

/-! ## The flush respects its protocol -/

/-- The numbers that the commands had before. -/
def numbers (cmds : Multiset Command) : Multiset UInt8 :=
  (cmds.map Command.retrySeq).filter (· ≠ 0)

/-- How many of the commands need a number from the counter. -/
def unnumberedCount (cmds : Multiset Command) : ℕ :=
  cmds.countP fun cmd => cmd.retrySeq = 0

theorem numbers_cons (cmd : Command) (cmds : Multiset Command) :
    numbers (cmd ::ₘ cmds) =
      if cmd.retrySeq = 0 then numbers cmds else cmd.retrySeq ::ₘ numbers cmds := by
  by_cases h : cmd.retrySeq = 0 <;> simp [numbers, h]

theorem unnumberedCount_cons (cmd : Command) (cmds : Multiset Command) :
    unnumberedCount (cmd ::ₘ cmds) =
      unnumberedCount cmds + if cmd.retrySeq = 0 then 1 else 0 := by
  simp [unnumberedCount, Multiset.countP_cons]

/-- A flush with the commands `cmds` in its hands. -/
structure Carrying (v : FlushState) (dctx : DeliveryContext) (remaining : Int)
    (cmds : Multiset Command) : Prop where
  phase : v.phase = .active
  unspent : v.spent = false
  dctx : v.dctx = dctx
  remaining : v.remaining = remaining
  hands : v.hands = cmds.map Command.unnumbered
  retries : numbers cmds ≤ v.retries
  fresh : unnumberedCount cmds ≤ v.fresh

/-- A flush in a pass over the queue. -/
structure Scanning (v : FlushState) (dctx : DeliveryContext) (remaining : Int)
    (cmds : Multiset Command) : Prop extends v.Carrying dctx remaining cmds where
  settled : v.Settled

/-- A flush that has a number for `cmd`. -/
structure Numbered (v : FlushState) (dctx : DeliveryContext) (remaining : Int) (cmd : Command)
    (seq : UInt8) (cmds : Multiset Command) : Prop where
  phase : v.phase = .active
  unspent : v.spent = false
  dctx : v.dctx = dctx
  remaining : v.remaining = remaining
  hands : v.hands = cmd ::ₘ cmds.map Command.unnumbered
  number : v.number = some seq ∧ numbers cmds ≤ v.retries ∨
    v.number = none ∧ seq ::ₘ numbers cmds ≤ v.retries
  fresh : unnumberedCount cmds ≤ v.fresh
  settled : v.Settled

/-- A flush that only puts `cmds` back. -/
structure Returning (v : FlushState) (cmds : Multiset Command) : Prop where
  phase : v.phase = .active
  hands : v.hands = cmds.map Command.unnumbered
  retries : numbers cmds ≤ v.retries
  settled : v.Settled

variable {v : FlushState} {dctx : DeliveryContext} {remaining : Int} {cmds : Multiset Command}
  {cmd : Command} {seq : UInt8}

theorem Scanning.returning (h : v.Scanning dctx remaining cmds) : v.Returning cmds :=
  ⟨h.phase, h.hands, h.retries, h.settled⟩

theorem Returning.over (h : v.Returning 0) : v.May .unlockFlush :=
  ⟨by simp [h.phase], fun _ => ⟨h.hands, h.settled⟩⟩

theorem over_of_failed (h : v.phase = .failed) : v.May .unlockFlush :=
  ⟨by simp [h], fun hne => absurd h hne⟩

theorem Scanning.pop (h : v.Scanning dctx remaining cmds) (cmd : Command) :
    (v.pop cmd).Scanning dctx remaining (cmd ::ₘ cmds) where
  phase := h.phase
  unspent := h.unspent
  dctx := h.dctx
  remaining := h.remaining
  hands := by simp [FlushState.pop, h.hands]
  retries := by
    rw [numbers_cons]
    by_cases hz : cmd.retrySeq = 0
    · simpa [FlushState.pop, hz] using h.retries
    · simpa [FlushState.pop, hz] using h.retries
  fresh := by
    rw [unnumberedCount_cons]
    have hfresh := h.fresh
    by_cases hz : cmd.retrySeq = 0 <;> simp only [FlushState.pop, hz, if_true, if_false] <;> omega
  settled := ⟨h.settled.sync, h.settled.fw⟩

/-- The command was reported. -/
theorem Scanning.drop (h : v.Scanning dctx remaining (cmd ::ₘ cmds)) :
    ({ v with hands := v.hands.erase cmd.unnumbered } : FlushState).Scanning dctx remaining
      cmds where
  phase := h.phase
  unspent := h.unspent
  dctx := h.dctx
  remaining := h.remaining
  hands := by simp [h.hands]
  retries := by
    have hle := h.retries
    rw [numbers_cons] at hle
    split at hle
    · exact hle
    · exact (Multiset.le_cons_self _ _).trans hle
  fresh := by
    have hle := h.fresh
    rw [unnumberedCount_cons] at hle
    exact (Nat.le_add_right _ _).trans hle
  settled := ⟨h.settled.sync, h.settled.fw⟩

theorem putBack_retries (h : numbers (cmd ::ₘ cmds) ≤ v.retries) :
    numbers cmds ≤ (v.putBack cmd).retries := by
  rw [numbers_cons] at h
  by_cases hz : cmd.retrySeq = 0
  · simpa [putBack, hz] using h
  · simp only [hz, if_false] at h
    simpa [putBack, hz] using Multiset.erase_le_erase cmd.retrySeq h

theorem may_push (hphase : v.phase = .active)
    (hhands : v.hands = (cmd ::ₘ cmds).map Command.unnumbered)
    (hretries : numbers (cmd ::ₘ cmds) ≤ v.retries) : v.May (.push cmd) := by
  refine .inr ⟨hphase, by simp [hhands], fun hz => ?_⟩
  rw [numbers_cons, if_neg hz] at hretries
  exact Multiset.mem_of_le hretries (Multiset.mem_cons_self _ _)

theorem Carrying.putBack (h : v.Carrying dctx remaining (cmd ::ₘ cmds)) :
    v.May (.push cmd) ∧ (v.putBack cmd).Carrying dctx remaining cmds := by
  have hfresh := h.fresh
  rw [unnumberedCount_cons] at hfresh
  refine ⟨may_push h.phase h.hands h.retries, ?_⟩
  exact
    { phase := h.phase
      unspent := by
        by_cases hz : cmd.retrySeq = 0
        · have hne : v.fresh ≠ 0 := by
            simp only [hz, if_true] at hfresh
            omega
          simp [FlushState.putBack, hne, h.unspent]
        · simp [FlushState.putBack, hz, h.unspent]
      dctx := h.dctx
      remaining := h.remaining
      hands := by simp [FlushState.putBack, h.hands]
      retries := putBack_retries h.retries
      fresh := by
        by_cases hz : cmd.retrySeq = 0 <;>
          simp only [FlushState.putBack, hz, if_true, if_false] at hfresh ⊢ <;> omega }

theorem Returning.putBack (h : v.Returning (cmd ::ₘ cmds)) :
    v.May (.push cmd) ∧ (v.putBack cmd).Returning cmds := by
  refine ⟨may_push h.phase h.hands h.retries, ?_⟩
  exact ⟨h.phase, by simp [FlushState.putBack, h.hands], putBack_retries h.retries,
    ⟨h.settled.sync, h.settled.fw⟩⟩

/-- The numbered command was reported. -/
theorem Numbered.drop (h : v.Numbered dctx remaining cmd seq cmds) (hcmd : cmd.retrySeq = 0) :
    ({ v with hands := v.hands.erase cmd.unnumbered } : FlushState).Scanning dctx remaining
      cmds where
  phase := h.phase
  unspent := h.unspent
  dctx := h.dctx
  remaining := h.remaining
  hands := by
    have hself : cmd.unnumbered = cmd := by
      simp [Command.unnumbered, ← hcmd]
    simp [h.hands, hself]
  retries := by
    rcases h.number with ⟨-, hle⟩ | ⟨-, hle⟩
    · exact hle
    · exact (Multiset.le_cons_self _ _).trans hle
  fresh := h.fresh
  settled := ⟨h.settled.sync, h.settled.fw⟩

/-- The numbered command did not fit. -/
theorem Numbered.putBack (h : v.Numbered dctx remaining cmd seq cmds) (hcmd : cmd.retrySeq = 0) :
    v.May (.push cmd) ∧ (v.putBack cmd).Returning cmds := by
  have hself : cmd.unnumbered = cmd := by
    simp [Command.unnumbered, ← hcmd]
  refine ⟨.inr ⟨h.phase, by simp [h.hands, hself], fun hne => absurd hcmd hne⟩, h.phase,
    by simp [FlushState.putBack, h.hands, hself], ?_, ⟨h.settled.sync, h.settled.fw⟩⟩
  simp only [FlushState.putBack, hcmd, if_true]
  rcases h.number with ⟨-, hle⟩ | ⟨-, hle⟩
  · exact hle
  · exact (Multiset.le_cons_self _ _).trans hle

theorem Numbered.fits (h : v.Numbered dctx remaining cmd seq cmds) {n : ℕ}
    (hlength : n = cmd.frameLength dctx.frameMode) (hn : n ≤ remaining) : v.Fits cmd seq n where
  unspent := h.unspent
  hands := by simp [h.hands]
  number := by
    rcases h.number with ⟨hnum, -⟩ | ⟨-, hle⟩
    · exact .inl hnum
    · exact .inr (Multiset.mem_of_le hle (Multiset.mem_cons_self _ _))
  length := by rw [hlength, h.dctx]
  remaining := by rwa [h.remaining]

theorem Numbered.register (h : v.Numbered dctx remaining cmd seq cmds) :
    (v.register seq cmd).Carrying dctx (remaining - v.wire) cmds where
  phase := h.phase
  unspent := h.unspent
  dctx := h.dctx
  remaining := by simp [FlushState.register, h.remaining]
  hands := by simp [FlushState.register, h.hands]
  retries := by
    rcases h.number with ⟨hnum, hle⟩ | ⟨hnum, hle⟩
    · simpa [FlushState.register, hnum] using hle
    · simpa [FlushState.register, hnum] using Multiset.erase_le_erase seq hle
  fresh := h.fresh

section flush

variable (id : String) (conn : ConnID)

/-- Put commands back, whatever else the flush is about. -/
theorem pushAll_respects {P : Multiset Command → FlushState → Prop}
    (hP : ∀ cmd cmds v, P (cmd ::ₘ cmds) v → v.May (.push cmd) ∧ P cmds (v.putBack cmd))
    {skipped : List Command} {v : FlushState} (h : P skipped v) :
    (pushAll skipped).Respects protocol (fun _ v' => P 0 v') v := by
  induction skipped generalizing v with
  | nil => exact h
  | cons cmd rest ih =>
      obtain ⟨hmay, hrest⟩ := hP cmd rest v h
      exact act_respects hmay fun _ => ih hrest

theorem pushAll_failed (skipped : List Command) (h : v.phase = .failed) :
    (pushAll skipped).Respects protocol (fun _ v' => v'.phase = .failed) v := by
  refine pushAll_respects (P := fun _ v => v.phase = .failed) ?_ h
  intro cmd cmds v h
  exact ⟨.inl h, by simp [FlushState.putBack, h]⟩

theorem publish_failed (event : AckEvent) (cmd : Command) (h : v.phase = .failed) :
    (perform (.publishAckWithCommand event cmd)).Respects protocol
      (fun _ v' => v'.phase = .failed) v := by
  refine ⟨.inr (.inl h), ?_⟩
  rintro _ _ rfl
  exact h

/-- What holds when a pass over the queue ends. -/
def PassPost (dctx : DeliveryContext) (remaining : Int) : Pass → FlushState → Prop
  | .exit _, v => v.May .unlockFlush
  | .unsent skipped, v => v.Scanning dctx remaining skipped
  | .sent dctx remaining skipped, v => v.Carrying dctx remaining skipped

theorem commandSeq_respects (h : v.Scanning dctx remaining (cmd ::ₘ cmds))
    (hnumber : v.number = none) :
    (commandSeq cmd).Respects protocol
      (fun r v' => match r with
        | .error _ => v'.phase = .failed
        | .ok seq => v'.Numbered dctx remaining cmd.unnumbered seq cmds) v := by
  have hhands : v.hands = cmd.unnumbered ::ₘ cmds.map Command.unnumbered := by
    simp [h.hands]
  have hretries := h.retries
  have hfresh := h.fresh
  rw [numbers_cons] at hretries
  rw [unnumberedCount_cons] at hfresh
  unfold commandSeq
  split
  · rename_i hz
    rw [if_pos hz] at hretries hfresh
    refine act_respects ⟨h.phase, h.unspent, by omega⟩ fun r => ?_
    cases r with
    | error err => rfl
    | ok seq =>
        exact ⟨h.phase, h.unspent, h.dctx, h.remaining, hhands, .inl ⟨rfl, hretries⟩,
          Nat.le_sub_one_of_lt (by omega), ⟨h.settled.sync, h.settled.fw⟩⟩
  · rename_i hz
    rw [if_neg hz] at hretries hfresh
    exact ⟨h.phase, h.unspent, h.dctx, h.remaining, hhands, .inr ⟨hnumber, hretries⟩, hfresh,
      h.settled⟩

theorem enterSync_respects (h : v.Carrying dctx remaining cmds) (hdue : v.syncDue = true)
    (hfwDue : v.fwDue = true)
    (hallowed : commandAllowedInModes cmd.commandID dctx.fwMode dctx.syncMode = true) :
    (enterSync cmd dctx).Respects protocol
      (fun r v' => match r with
        | .error _ => v'.phase = .failed
        | .ok dctx' => v'.Carrying dctx' remaining cmds ∧ v'.fwDue = true) v := by
  unfold enterSync
  split
  · rename_i hid
    have hfw : v.dctx.fwMode = false := by
      rw [h.dctx]
      exact fwMode_of_sync_allowed hallowed hid
    refine act_respects ⟨h.phase, fun _ => ⟨hdue, hfw⟩⟩ fun r => ?_
    cases r with
    | some err => rfl
    | none =>
        have hdctx : (v.after (.setSyncMode true) none).dctx = { dctx with syncMode := true } := by
          simp [after_setSyncMode, h.dctx]
        exact ⟨⟨h.phase, h.unspent, hdctx, h.remaining, h.hands, h.retries, h.fresh⟩, hfwDue⟩
  · exact ⟨h, hfwDue⟩

theorem enterFW_respects (h : v.Carrying dctx remaining cmds) (hdue : v.fwDue = true) :
    (enterFW cmd dctx).Respects protocol
      (fun r v' => match r with
        | .error _ => v'.phase = .failed
        | .ok dctx' => v'.Carrying dctx' remaining cmds) v := by
  unfold enterFW
  split
  · refine act_respects (.inr ⟨h.phase, fun _ => hdue⟩) fun r => ?_
    cases r with
    | some err => simp [after_setFWMode_some, h.phase, fail]
    | none =>
        have hdctx : (v.after (.setFWMode true) none).dctx = { dctx with fwMode := true } := by
          simp [after_setFWMode, h.dctx]
        exact ⟨h.phase, h.unspent, hdctx, h.remaining, h.hands, h.retries, h.fresh⟩
  · exact h

theorem finishSend_respects {skipped : List Command} (cmd : Command) (seq : UInt8)
    (frameLen : Int) {d : DeliveryContext} {n : Int}
    (h : v.Carrying dctx (remaining - frameLen) skipped)
    (hsync : v.syncDue = true) (hfw : v.fwDue = true)
    (hallowed : commandAllowedInModes cmd.commandID dctx.fwMode dctx.syncMode = true) :
    (finishSend id cmd seq frameLen dctx remaining skipped).Respects protocol
      (PassPost d n) v := by
  have hfailed : ∀ (event : AckEvent) (err : Error) {v : FlushState}, v.phase = .failed →
      (perform (.publishAckWithCommand event cmd) >>= fun _ =>
        (pure (.exit (some err)) : Deliver Pass)).Respects protocol (PassPost d n) v := by
    intro event err v hv
    exact (publish_failed event cmd hv).bind fun _ _ hv => over_of_failed hv
  refine (enterSync_respects h hsync hfw hallowed).bind fun r v hr => ?_
  cases r with
  | error err => exact hfailed _ err hr
  | ok dctx =>
      refine (enterFW_respects hr.1 hr.2).bind fun r v hr => ?_
      cases r with
      | error err => exact hfailed _ err hr
      | ok dctx =>
          refine act_respects trivial fun _ => act_respects hr.phase fun err => ?_
          cases err with
          | some err => exact hfailed _ err rfl
          | none => exact hr

theorem sendFrame_respects {skipped : List Command} {frameBytes : List UInt8}
    {d : DeliveryContext} {n : Int}
    (h : v.Numbered dctx remaining cmd seq skipped)
    (hlength : frameBytes.length = cmd.frameLength dctx.frameMode)
    (hfits : frameBytes.length ≤ remaining)
    (hallowed : commandAllowedInModes cmd.commandID dctx.fwMode dctx.syncMode = true) :
    (sendFrame id conn cmd seq frameBytes dctx remaining skipped).Respects protocol
      (PassPost d n) v := by
  have hfailed : ∀ (event : AckEvent) (err : Error) {v : FlushState}, v.phase = .failed →
      (perform (.publishAckWithCommand event cmd) >>= fun _ => pushAll skipped >>= fun _ =>
        (pure (.exit (some err)) : Deliver Pass)).Respects protocol (PassPost d n) v := by
    intro event err v hv
    refine (publish_failed event cmd hv).bind fun _ v hv => ?_
    exact (pushAll_failed skipped hv).bind fun _ _ hv => over_of_failed hv
  refine act_respects ⟨h.phase, h.fits hlength hfits, by rwa [h.dctx]⟩ fun err => ?_
  cases err with
  | some err => exact hfailed _ err rfl
  | none =>
      have hwritten : ({ v with wire := frameBytes.length } : FlushState).Numbered dctx remaining
          cmd seq skipped :=
        ⟨h.phase, h.unspent, h.dctx, h.remaining, h.hands, h.number, h.fresh,
          ⟨h.settled.sync, h.settled.fw⟩⟩
      refine act_respects trivial fun sentAt => ?_
      refine act_respects ⟨h.phase, hwritten.fits hlength hfits⟩ fun err => ?_
      cases err with
      | some err => exact hfailed _ err rfl
      | none => exact finishSend_respects id cmd seq _ hwritten.register rfl rfl hallowed

/-- A popped command is reported because it cannot be sent. -/
theorem publish_popped (event : AckEvent) (hcmd : ¬cmd.Sendable)
    (h : v.Scanning dctx remaining (cmd ::ₘ cmds)) :
    (perform (.publishAckWithCommand event cmd)).Respects protocol
      (fun _ v' => v'.Scanning dctx remaining cmds) v := by
  refine ⟨.inr (.inr ⟨h.phase, fun _ => hcmd⟩), ?_⟩
  rintro _ _ rfl
  exact h.drop

theorem scanQueue_respects (dctx : DeliveryContext) (remaining : Int) (n : ℕ)
    {v : FlushState} (skipped : List Command) (h : v.Scanning dctx remaining skipped) :
    (scanQueue id conn dctx remaining n skipped).Respects protocol
      (PassPost dctx remaining) v := by
  induction n generalizing v skipped with
  | zero => exact h
  | succ n ih =>
      refine act_respects trivial fun now => ?_
      refine act_respects h.phase fun popped => ?_
      cases popped with
      | none => exact h
      | some cmd =>
          have hpopped := h.pop cmd
          refine act_respects trivial fun now' => ?_
          change Prog.Respects _ _ (ite _ _ _) _
          split
          · rename_i hexpired
            refine (publish_popped _ (Command.not_sendable_of_expired hexpired) hpopped).bind ?_
            exact fun _ _ h => ih _ h
          · split
            · -- the skipped command joins the others without an action
              refine ih (skipped ++ [cmd]) ?_
              have hcoe : ((skipped ++ [cmd] : List Command) : Multiset Command) =
                  cmd ::ₘ (skipped : Multiset Command) := by
                simp
              rw [hcoe]
              exact hpopped
            · rename_i hallowed
              split
              · rename_i err herr
                refine (publish_popped _ (Command.not_sendable_of_invalid herr) hpopped).bind ?_
                exact fun _ _ h => ih _ h
              · refine (commandSeq_respects hpopped rfl).bind fun r v hr => ?_
                cases r with
                | error err =>
                    exact (pushAll_failed skipped hr).bind fun _ _ hv => over_of_failed hv
                | ok seq =>
                    dsimp only
                    split
                    · rename_i err herr
                      have hmay := Command.not_sendable_of_encode herr
                      refine act_respects (.inr (.inr ⟨hr.phase, fun _ => hmay⟩)) fun _ => ?_
                      exact ih _ (hr.drop rfl)
                    · rename_i frameBytes hencode
                      have hlength := Command.frameLength_eq hencode
                      split
                      · obtain ⟨hmay, hreturning⟩ := hr.putBack rfl
                        refine act_respects hmay fun _ => ?_
                        refine (pushAll_respects (P := fun cmds v => v.Returning cmds)
                          (fun _ _ _ h => h.putBack) hreturning).bind fun _ _ h => ?_
                        exact h.over
                      · refine sendFrame_respects id conn hr hlength (by omega) ?_
                        simpa using hallowed

theorem leaveSync_respects (h : v.Carrying dctx remaining 0) :
    (leaveSync dctx).Respects protocol
      (fun r v' => match r with
        | .error _ => v'.phase = .failed
        | .ok dctx' => v'.Carrying dctx' remaining 0 ∧
            (v'.dctx.syncMode = true → v'.syncDue = false)) v := by
  unfold leaveSync
  split
  · refine act_respects h.phase fun more => ?_
    cases more with
    | true =>
        exact ⟨⟨h.phase, h.unspent, h.dctx, h.remaining, h.hands, h.retries, h.fresh⟩, fun _ => rfl⟩
    | false =>
        refine act_respects ⟨h.phase, by simp⟩ fun err => ?_
        cases err with
        | some err => rfl
        | none =>
            refine ⟨⟨h.phase, h.unspent, ?_, h.remaining, h.hands, h.retries, h.fresh⟩, ?_⟩
            · simp [after_setSyncMode, after_hasSync_false, h.dctx]
            · simp [after_setSyncMode]
  · rename_i hoff
    exact ⟨h, fun hon => absurd (h.dctx ▸ hon) hoff⟩

theorem leaveFW_respects (h : v.Carrying dctx remaining 0)
    (hsync : v.dctx.syncMode = true → v.syncDue = false) :
    (leaveFW dctx).Respects protocol
      (fun r v' => match r with
        | .error _ => v'.phase = .failed
        | .ok dctx' => v'.Scanning dctx' remaining 0) v := by
  unfold leaveFW
  split
  · refine act_respects h.phase fun more => ?_
    cases more with
    | true =>
        exact ⟨⟨h.phase, h.unspent, h.dctx, h.remaining, h.hands, h.retries, h.fresh⟩, hsync,
          fun _ => rfl⟩
    | false =>
        refine act_respects (.inr ⟨h.phase, by simp⟩) fun err => ?_
        cases err with
        | some err => simp [after_setFWMode_some, after_hasFW_false, h.phase, fail]
        | none =>
            refine ⟨⟨h.phase, h.unspent, ?_, h.remaining, h.hands, h.retries, h.fresh⟩, hsync, ?_⟩
            · simp [after_setFWMode, after_hasFW_false, h.dctx]
            · simp [after_setFWMode]
  · rename_i hoff
    exact ⟨h, hsync, fun hon => absurd (h.dctx ▸ hon) hoff⟩

theorem publishAllExpired_respects (cmds : List Command) (h : v.Scanning dctx remaining 0) :
    (publishAllExpired id cmds).Respects protocol
      (fun _ v' => v'.Scanning dctx remaining 0) v := by
  induction cmds generalizing v with
  | nil => exact h
  | cons cmd rest ih =>
      have hempty : v.hands = 0 := h.hands
      refine act_respects (.inr (.inr ⟨h.phase, fun hmem => ?_⟩)) fun _ => ih ?_
      · rw [hempty] at hmem
        exact absurd hmem (Multiset.notMem_zero _)
      · exact ⟨⟨h.phase, h.unspent, h.dctx, h.remaining,
          by simp [after_publishAckWithCommand, hempty], h.retries, h.fresh⟩,
          ⟨h.settled.sync, h.settled.fw⟩⟩

theorem flushLoop_respects (fuel : ℕ) (dctx : DeliveryContext) (remaining : Int) {v : FlushState}
    (h : v.Scanning dctx remaining 0) :
    (flushLoop id conn fuel dctx remaining).Respects protocol
      (fun _ v' => v'.May .unlockFlush) v := by
  induction fuel generalizing dctx remaining v with
  | zero => exact h.returning.over
  | succ fuel ih =>
      unfold flushLoop
      split
      · exact h.returning.over
      · refine act_respects trivial fun now => act_respects h.phase fun expired => ?_
        refine (publishAllExpired_respects id expired h).bind fun _ v h => ?_
        refine act_respects trivial fun scan => ?_
        change Prog.Respects _ _ (ite _ _ _) _
        split
        · exact h.returning.over
        · refine (scanQueue_respects id conn dctx remaining scan [] h).bind fun pass v hpass => ?_
          cases pass with
          | exit err => exact hpass
          | unsent skipped =>
              refine (pushAll_respects (P := fun cmds v => v.Returning cmds)
                (fun _ _ _ h => h.putBack) hpass.returning).bind fun _ _ h => ?_
              exact h.over
          | sent dctx remaining skipped =>
              refine (pushAll_respects (P := fun cmds v => v.Carrying dctx remaining cmds)
                (fun _ _ _ h => h.putBack) hpass).bind fun _ v h => ?_
              refine (leaveSync_respects h).bind fun r v h => ?_
              cases r with
              | error err => exact over_of_failed h
              | ok dctx =>
                  refine (leaveFW_respects h.1 h.2).bind fun r v h => ?_
                  cases r with
                  | error err => exact over_of_failed h
                  | ok dctx => exact ih dctx remaining h

theorem flush_respects (hoff : v.phase = .off) :
    (withFlushLock (flushQueue id)).Respects protocol (fun _ v' => v'.phase = .off) v := by
  have hunlock : ∀ {v : FlushState} (r : Option Error), v.May .unlockFlush →
      (perform .unlockFlush >>= fun _ => (pure r : Deliver (Option Error))).Respects
        protocol (fun _ v' => v'.phase = .off) v :=
    fun r h => act_respects h fun _ => rfl
  refine act_respects hoff fun _ => Prog.Respects.bind ?_ fun r _ h => hunlock r h
  refine act_respects rfl fun dctx => ?_
  cases dctx with
  | none => exact ⟨by rintro ⟨⟩, fun _ => ⟨rfl, fun _ => rfl, fun _ => rfl⟩⟩
  | some dctx =>
      have hopened : ({ phase := .opened, dctx := dctx, remaining := maxBudget dctx } :
          FlushState).May .unlockFlush :=
        ⟨by simp, fun _ => ⟨rfl, fun _ => rfl, fun _ => rfl⟩⟩
      dsimp only
      split
      · exact hopened
      · refine act_respects rfl fun count => ?_
        change Prog.Respects _ _ (ite _ _ _) _
        split
        · rename_i hpos
          have hne : count ≠ 0 := Nat.ne_of_gt hpos
          rw [after_inFlightCount, if_neg hne]
          exact hopened
        · rename_i hpos
          have hz : count = 0 := Nat.eq_zero_of_not_pos hpos
          refine flushLoop_respects id _ _ dctx _ ?_
          rw [after_inFlightCount, if_pos hz]
          exact ⟨⟨rfl, rfl, rfl, rfl, rfl, Multiset.zero_le _, Nat.zero_le _⟩, fun _ => rfl,
            fun _ => rfl⟩

end flush

theorem offFlush_off (a : Act) (v : FlushState) (ha : a.OffFlush) (hoff : v.phase = .off) :
    protocol.may v a ∧ ∀ r v', protocol.next v a r v' → v'.phase = .off := by
  cases a with
  | lockFlush | unlockFlush | popNext | drainExpired | push | transmit | registerInFlight
  | nextCommandSeq | ackSent | setSyncMode | hasFW | hasSync | deliveryContext | inFlightCount =>
      exact ha.elim
  | now | publishAck | queueLen => exact ⟨trivial, fun r v' hn => hn ▸ hoff⟩
  | publishAckWithCommand event cmd => exact ⟨.inl hoff, fun r v' hn => hn ▸ hoff⟩
  | setFWMode enabled =>
      refine ⟨.inl hoff, fun r v' hn => ?_⟩
      subst hn
      cases r with
      | none => exact hoff
      | some err => simp [after_setFWMode_some, hoff]
  | _ => exact ⟨hoff, fun r v' hn => hn ▸ hoff⟩

/-- Every task respects the protocol. -/
theorem taskSpec (cfg : Config) (id : String) :
    TaskSpec cfg id protocol fun v => v.phase = .off :=
  .of_offFlush offFlush_off fun _ => flush_respects id

/-! ## Flushes in the running system -/

/-- The world agrees with the flush about who holds the mutex, and there is a session once
the flush has read it. -/
structure Holds (tid : ℕ) (w : World) (v : FlushState) : Prop where
  flushing : v.phase ≠ .off ↔ w.flushMu = some tid
  session : v.phase ≠ .off → v.phase ≠ .locked → w.session.isSome

/-- How a flush gets from one phase to the next. -/
theorem after_phase {a : Act} (r : a.Res) (hmay : v.May a) (ha : a.movesMutex = false)
    (hctx : a ≠ .deliveryContext) :
    (v.after a r).phase = v.phase ∨ (v.phase = .opened ∨ v.phase = .active) ∧
      ((v.after a r).phase = .active ∨ (v.after a r).phase = .failed) := by
  cases a with
  | lockFlush | unlockFlush => cases ha
  | deliveryContext => exact absurd rfl hctx
  | inFlightCount =>
      rw [after_inFlightCount]
      split
      · exact .inr ⟨.inl hmay, .inl rfl⟩
      · exact .inl rfl
  | nextCommandSeq | transmit | registerInFlight | setSyncMode =>
      cases r
      all_goals first | exact .inl rfl | exact .inr ⟨.inr hmay.1, .inr rfl⟩
  | ackSent =>
      cases r with
      | none => exact .inl rfl
      | some err => exact .inr ⟨.inr hmay, .inr rfl⟩
  | setFWMode enabled =>
      cases r with
      | none => exact .inl rfl
      | some err =>
          rw [after_setFWMode_some]
          rcases hmay with hoff | ⟨hactive, -⟩
          · exact .inl (by rw [if_pos hoff])
          · exact .inr ⟨.inr hactive, .inr (by simp [hactive, fail])⟩
  | popNext | hasSync | hasFW =>
      cases r <;> exact .inl rfl
  | _ => exact .inl rfl

section exec

variable {cfg : Config} {id : String} {tid : ℕ} {w w' : World} {inp : Input}

theorem Holds.own {a : Act} {r : a.Res} (hv : v.Holds tid w) (hmay : v.May a)
    (h : exec cfg id tid w a inp = some (w', r)) : (v.after a r).Holds tid w' := by
  cases a with
  | lockFlush =>
      simp only [exec] at h
      split at h
      · cases h
        exact ⟨by simp [after_lockFlush], fun _ hne => absurd rfl hne⟩
      · cases h
  | unlockFlush =>
      cases h
      exact ⟨by simp [after_unlockFlush], fun hne => absurd rfl hne⟩
  | deliveryContext =>
      obtain ⟨rfl, rfl⟩ := Prod.mk.inj (guarded_eq_some h)
      have hlocked : v.phase = .locked := hmay
      have hmu : w.flushMu = some tid := hv.flushing.mp (by simp [hlocked])
      cases hs : w.session with
      | none => exact hv
      | some s => exact ⟨by simp [after_deliveryContext, hmu], fun _ _ => by rw [hs]; rfl⟩
  | _ =>
      obtain ⟨hmu, hsession⟩ := exec_mutex rfl h
      rcases after_phase r hmay rfl (by simp) with hphase | ⟨hbefore, hafter⟩
      · refine ⟨by rw [hphase, hmu]; exact hv.flushing, ?_⟩
        rw [hphase]
        exact fun hoff hlocked => hsession (hv.session hoff hlocked)
      · have hoff : v.phase ≠ .off := by rcases hbefore with hp | hp <;> simp [hp]
        have hlocked : v.phase ≠ .locked := by rcases hbefore with hp | hp <;> simp [hp]
        have hoff' : (v.after _ r).phase ≠ .off := by
          rcases hafter with hp | hp <;> simp [hp]
        refine ⟨?_, fun _ _ => hsession (hv.session hoff hlocked)⟩
        rw [hmu]
        exact ⟨fun _ => hv.flushing.mp hoff, fun _ => hoff'⟩

theorem Holds.other {a : Act} {r : a.Res} {other : ℕ} {u : FlushState} (hv : v.Holds tid w)
    (hmay : v.May a) (hne : other ≠ tid) (hu : u.Holds other w)
    (h : exec cfg id tid w a inp = some (w', r)) : u.Holds other w' := by
  cases a with
  | lockFlush =>
      simp only [exec] at h
      split at h
      · rename_i hfree
        cases h
        have hoff : u.phase = .off := by
          by_contra hon
          rw [hu.flushing.mp hon] at hfree
          cases hfree
        exact ⟨by simp [hoff, Ne.symm hne], fun hon => absurd hoff hon⟩
      · cases h
  | unlockFlush =>
      have hmu := hv.flushing.mp hmay.1
      cases h
      have hoff : u.phase = .off := by
        by_contra hon
        rw [hu.flushing.mp hon] at hmu
        exact hne (Option.some.inj hmu)
      exact ⟨by simp [hoff], fun hon => absurd hoff hon⟩
  | _ =>
      obtain ⟨hmu, hsession⟩ := exec_mutex rfl h
      exact ⟨by rw [hmu]; exact hu.flushing, fun hoff hlocked => hsession (hu.session hoff hlocked)⟩

/-- While another thread flushes, a thread is outside its own flush. -/
theorem Holds.off_of_other {other : ℕ} {u : FlushState} (hv : v.Holds tid w) (hne : other ≠ tid)
    (hu : u.Holds other w) (hon : u.phase ≠ .off) : v.phase = .off := by
  by_contra hv'
  have hmu := hv.flushing.mp hv'
  rw [hu.flushing.mp hon] at hmu
  exact hne (Option.some.inj hmu)

/-- The rule for what a flush knows about the world: it has to be established when the flush
takes the lock, when it reads the session and when it finds nothing in flight, and kept by
what it does then. Nothing need be known outside a flush and after a failure. -/
theorem knowledge_own {K : World → FlushState → Prop} {a : Act} {r : a.Res} (hmay : v.May a)
    (h : exec cfg id tid w a inp = some (w', r))
    (htrivial : ∀ v, v.phase = .off ∨ v.phase = .failed → K w' v)
    (hslot : w'.slot = w.slot → K w' v)
    (hlock : w.flushMu = none → w'.slot = w.slot → K w' { phase := .locked })
    (hopen : ∀ s, a = .deliveryContext → v.phase = .locked → w = w' → w.session = some s →
      K w (v.after .deliveryContext (some s.deliveryContext)))
    (hbegin : v.phase = .opened → w = w' → w.slot.inFlightCount = 0 →
      K w { v with phase := .active })
    (hrun : v.phase = .active → a.runs = true → (v.after a r).phase = .active →
      K w' (v.after a r)) :
    K w' (v.after a r) := by
  have hactive : v.phase = .active → a.runs = true → K w' (v.after a r) := by
    intro hactive hruns
    have hmutex : a.movesMutex = false := by cases a <;> first | rfl | cases hruns
    have hctx : a ≠ .deliveryContext := by rintro rfl; cases hruns
    rcases after_phase r hmay hmutex hctx with hsame | ⟨-, hp | hp⟩
    · exact hrun hactive hruns (hsame.trans hactive)
    · exact hrun hactive hruns hp
    · exact htrivial _ (.inr hp)
  cases a with
  | now | queueLen =>
      cases h
      exact hslot rfl
  | publishAck event =>
      cases h
      exact hslot rfl
  | lockFlush =>
      simp only [exec] at h
      split at h
      · rename_i hfree
        cases h
        exact hlock hfree rfl
      · cases h
  | unlockFlush => exact htrivial _ (.inl rfl)
  | deliveryContext =>
      obtain ⟨rfl, rfl⟩ := Prod.mk.inj (guarded_eq_some h)
      cases hs : w.session with
      | none => exact hslot rfl
      | some s => exact hopen s rfl hmay rfl hs
  | inFlightCount =>
      obtain ⟨rfl, rfl⟩ := Prod.mk.inj (guarded_eq_some h)
      rw [after_inFlightCount]
      split
      · rename_i hcount
        exact hbegin hmay rfl hcount
      · exact hslot rfl
  | popNext | drainExpired | hasFW | hasSync | ackSent => exact hactive hmay rfl
  | nextCommandSeq | transmit | registerInFlight | setSyncMode => exact hactive hmay.1 rfl
  | push cmd =>
      rcases hmay with hfailed | ⟨hp, -⟩
      · exact htrivial _ (.inr hfailed)
      · exact hactive hp rfl
  | setFWMode enabled =>
      rcases hmay with hoff | ⟨hp, -⟩
      · refine htrivial _ (.inl ?_)
        cases r with
        | none => exact hoff
        | some err => simp [after_setFWMode_some, hoff]
      · exact hactive hp rfl
  | publishAckWithCommand event cmd =>
      rcases hmay with hoff | hfailed | ⟨hp, -⟩
      · exact htrivial _ (.inl hoff)
      · exact htrivial _ (.inr hfailed)
      · exact hactive hp rfl
  | _ => exact htrivial _ (.inl hmay)

end exec

end FlushState

/-- The discipline of the flush protocol, for every kind of run. -/
def flushes (cfg : Config) (id : String) (R : Rules (machine cfg id)) :
    Discipline (machine cfg id) R {} FlushState where
  protocol := FlushState.protocol
  knows tid w v := v.Holds tid w
  idle v := v.phase = .off
  inv _ := True
  init := ⟨trivial, fun tid => ⟨{}, ⟨by simp, fun hne => absurd rfl hne⟩, rfl⟩⟩
  start _ _ hoff _ := (FlushState.taskSpec cfg id).prog _ hoff
  act _ hv _ hmay h :=
    ⟨trivial, ⟨_, rfl, hv.own hmay h⟩, fun _ hne _ hu => hv.other hmay hne hu h⟩
  crash _ _ := ⟨trivial, fun tid => ⟨{}, ⟨by simp, fun hne => absurd rfl hne⟩, rfl⟩⟩

end TcpAdapter.Delivery
