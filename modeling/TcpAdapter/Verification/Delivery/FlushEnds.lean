import TcpAdapter.Verification.Delivery.Accounts
import TcpAdapter.Verification.Delivery.Alone
import TcpAdapter.Verification.Delivery.Budget
import TcpAdapter.Verification.Delivery.Enqueue
import TcpAdapter.Verification.Delivery.History
import TcpAdapter.Verification.Delivery.Survey

/-! # A flush ends

What a flush does that is not disturbed, on a queue whose commands can all be sent: it ends without
an error, and if its budget has room for every command it sends at least one. -/

namespace TcpAdapter.Delivery

open TcpAdapter.Concurrent TcpAdapter.Queue TcpAdapter.Protocol TcpAdapter.Manager
open TcpAdapter.Policy

/-- What the environment keeps to: the clock stays before `horizon`, and the controller has
`room` bytes free whenever it answers. -/
structure Terms where
  room : Int
  horizon : Time

/-- When the command in flight is due. -/
def deadline (cfg : Config) (entry : InFlightEntry) : Time :=
  entry.sentAt + ackWait (deliveryPolicyForCommand cfg entry.command) entry

/-- Saves and writes succeed, no command in flight is overdue, and an iteration over the map of
in-flight commands visits all of them. -/
def reliable (cfg : Config) (id : String) (terms : Terms) : Rules (machine cfg id) where
  act w _ a inp := inp.saveErr = none ∧ inp.writeErr = none ∧
    (a = .now → inp.time < terms.horizon ∧
      ∀ seq entry, w.inFlight seq = some entry → inp.time < deadline cfg entry) ∧
    (a = .inFlightOrder → ∀ seq, w.inFlight seq ≠ none → seq ∈ inp.order)

/-! ## One action -/

/-- A thread is not disturbed, and so often has each ticket been reported as finished. -/
structure Sees (flushMu : Option ℕ) (done : ℕ → ℕ) (w : World) (s : Session) : Prop
    extends Rests w flushMu s where
  done : ∀ t, w.log.countP (terminalFor t) = done t

/-- The event finishes the command with the ticket. -/
def finishing (t : ℕ) (e : Option Event) : ℕ :=
  e.toList.countP (terminalFor t)

section actions

variable {cfg : Config} {id : String} {tid : ℕ} {w w' : World} {inp : Input} {s s' : Session}
  {f f' : Option ℕ} {d : ℕ → ℕ} {α : Type} {post : α → World → Prop} {terms : Terms}

theorem countP_history (t : ℕ) (log : List Event) :
    (history log).countP (terminalFor t) = log.countP (terminalFor t) := by
  rw [history, List.countP_filter]
  refine List.countP_congr fun e _ => ?_
  cases e <;> simp [Event.isSave, terminalFor]

theorem exec_finished {a : Act} {r : a.Res} (h : exec cfg id tid w a inp = some (w', r)) (t : ℕ) :
    w'.log.countP (terminalFor t) =
      finishing t (emitted tid w a r) + w.log.countP (terminalFor t) := by
  rw [← countP_history, exec_history h, List.countP_append, countP_history]
  rfl

/-- An action, with what it makes of the session and what it finishes. -/
theorem Gives.finishes {a : Act} {r : a.Res} (h : Gives cfg id tid w a r f' s') (hw : Sees f d w s) :
    (perform a).Ends (reliable cfg id terms) tid (fun r' w' => r' = r ∧
      Sees f' (fun t => finishing t (emitted tid w a r) + d t) w' s') w := by
  rintro inp ⟨hsave, hwrite, -⟩
  obtain ⟨w', hexec, hw'⟩ := h inp hsave hwrite
  exact ⟨w', r, hexec, rfl, hw', fun t => by rw [exec_finished hexec, hw.done]⟩

/-- An action that finishes nothing. -/
theorem Gives.ends {a : Act} {k : a.Res → Deliver α} {r : a.Res}
    (h : Gives cfg id tid w a r f' s') (hw : Sees f d w s)
    (hquiet : ∀ t, finishing t (emitted tid w a r) = 0)
    (hk : ∀ w', Sees f' d w' s' → (k r).Ends (reliable cfg id terms) tid post w') :
    (perform a >>= k).Ends (reliable cfg id terms) tid post w := by
  refine (h.finishes hw).bind fun r' w' hend => ?_
  obtain ⟨rfl, hw'⟩ := hend
  refine hk w' ?_
  simpa only [hquiet, Nat.zero_add] using hw'

theorem now_ends {k : Time → Deliver α}
    (hk : ∀ t < terms.horizon, (k t).Ends (reliable cfg id terms) tid post w) :
    (perform .now >>= k).Ends (reliable cfg id terms) tid post w := by
  rintro inp ⟨-, -, hclock, -⟩
  exact ⟨w, inp.time, rfl, hk _ (hclock rfl).1⟩

end actions

/-! ## Commands that can be sent -/

/-- A command that a flush can deliver: it does not expire, it has the class and a payload that
its id asks for, it has not been sent before, and its frame fits. -/
structure Deliverable (mode : FrameMode) (terms : Terms) (cmd : Command) : Prop where
  lasting : ∀ now < terms.horizon, cmd.expired now = false
  canonical : canonicalPriorityForCommand cmd.commandID = some cmd.priority
  retrySeq : cmd.retrySeq = 0
  valid : validateServerCommandPayload cmd.commandID cmd.payload = .ok ()
  fits : ∀ seq, ∃ bytes, encodeFrame (commandFrame cmd seq mode) = .ok bytes ∧
    bytes.length ≤ terms.room

theorem Deliverable.unnumbered {mode : FrameMode} {terms : Terms} {cmd : Command}
    (h : Deliverable mode terms cmd) : { cmd with retrySeq := 0 } = cmd := by
  rw [← h.retrySeq]

theorem Sorted.mem_buffer {q : ControllerQueue} (h : Sorted q) {b : ControllerQueue.Buffer}
    {cmd : Command} : cmd ∈ q.buffer b ↔ cmd ∈ q.snapshot ∧ cmd.priority.buffer = b := by
  rw [ControllerQueue.mem_snapshot]
  refine ⟨fun hcmd => ⟨⟨b, hcmd⟩, h b cmd hcmd⟩, ?_⟩
  rintro ⟨⟨b', hcmd⟩, rfl⟩
  rwa [h b' cmd hcmd]

/-- A mode is on only while a command of its class is queued. -/
structure Served (s : Session) (cmds : List Command) : Prop where
  fw : s.fwMode = true → ∃ cmd ∈ cmds, cmd.priority.buffer = .fw
  sync : s.syncMode = true → ∃ cmd ∈ cmds, cmd.priority.buffer = .sync

theorem allowed_of_fw {commandID : UInt8} {p : Priority} (syncMode : Bool)
    (h : canonicalPriorityForCommand commandID = some p) (hp : p.buffer = .fw) :
    commandAllowedInModes commandID true syncMode = true := by
  unfold canonicalPriorityForCommand at h
  split at h <;> cases h <;> cases hp
  all_goals simp [commandAllowedInModes]

theorem allowed_of_sync {commandID : UInt8} {p : Priority}
    (h : canonicalPriorityForCommand commandID = some p) (hp : p.buffer = .sync) :
    commandAllowedInModes commandID false true = true := by
  unfold canonicalPriorityForCommand at h
  split at h <;> cases h <;> cases hp
  all_goals simp [commandAllowedInModes]

/-- Something can go out in every mode. -/
theorem Served.exists_allowed {s : Session} {mode : FrameMode} {terms : Terms}
    (h : Served s s.queue.snapshot) (hsorted : Sorted s.queue)
    (hcmds : ∀ cmd ∈ s.queue.snapshot, Deliverable mode terms cmd) (hne : s.queue.len ≠ 0) :
    ∃ cmd ∈ s.queue.visible s.fwMode s.syncMode,
      commandAllowedInModes cmd.commandID s.fwMode s.syncMode = true := by
  cases hfw : s.fwMode with
  | true =>
      obtain ⟨cmd, hmem, hclass⟩ := h.fw hfw
      have hbuffer : cmd ∈ s.queue.fw := hsorted.mem_buffer.mpr ⟨hmem, hclass⟩
      exact ⟨cmd, List.mem_append_right _ hbuffer, allowed_of_fw _ (hcmds cmd hmem).canonical hclass⟩
  | false =>
      cases hsync : s.syncMode with
      | true =>
          obtain ⟨cmd, hmem, hclass⟩ := h.sync hsync
          have hbuffer : cmd ∈ s.queue.sync := hsorted.mem_buffer.mpr ⟨hmem, hclass⟩
          exact ⟨cmd, List.mem_append_right _ hbuffer,
            allowed_of_sync (hcmds cmd hmem).canonical hclass⟩
      | false =>
          have hvisible : s.queue.visible false false ≠ [] := by
            intro hnil
            refine hne ?_
            have hlen := congrArg List.length hnil
            simp only [ControllerQueue.visible, Bool.false_eq_true, if_false, List.length_append,
              List.length_nil] at hlen
            simp only [ControllerQueue.len]
            omega
          obtain ⟨cmd, hmem⟩ := List.exists_mem_of_ne_nil _ hvisible
          exact ⟨cmd, hmem, rfl⟩

/-! ## A pass -/

/-- The session after a command has been sent and registered. -/
def Session.sending (s : Session) (q : ControllerQueue) (cmd : Command) (sentAt : Time) : Session :=
  { s with
    queue := q
    nextSeq := s.nextSeq + 1
    inFlight := Function.update s.inFlight (s.nextSeq + 1)
      (some ⟨s.nextSeq + 1, cmd, sentAt, cmd.attempts + 1⟩)
    syncMode := s.syncMode || (12 ≤ cmd.commandID && cmd.commandID ≤ 16)
    fwMode := s.fwMode || cmd.commandID == 19 }

section pass

variable {cfg : Config} {id : String} {tid : ℕ} {w : World} {s : Session} {f : Option ℕ}
  {d : ℕ → ℕ} {conn : ConnID} {terms : Terms} {remaining : Int} {skipped : List Command}

/-- How a pass ends that had these commands before it, in the queue or set aside: it has sent one
of them, or the one that it found does not fit the rest of the budget. -/
def PassEnds (f : Option ℕ) (d : ℕ → ℕ) (terms : Terms) (remaining : Int) (s : Session)
    (cmds : List Command) : Pass → World → Prop
  | .sent dctx left skipped, w => ∃ cmd q sentAt, List.Perm cmds (cmd :: (q.snapshot ++ skipped)) ∧
      Sorted q ∧ Sees f d w (Session.sending s q cmd sentAt) ∧
      dctx = (Session.sending s q cmd sentAt).deliveryContext ∧ left ≤ remaining
  | .unsent _, _ => False
  | .exit err, w => err = none ∧ remaining < terms.room ∧ ∃ q, List.Perm cmds q.snapshot ∧ Sorted q ∧
      Sees f d w { s with queue := q, nextSeq := s.nextSeq + 1 }

/-- Only the commands themselves matter, not their order. -/
theorem PassEnds.perm {pass : Pass} {cmds cmds' : List Command} {q : ControllerQueue}
    (h : PassEnds f d terms remaining { s with queue := q } cmds' pass w)
    (hperm : List.Perm cmds cmds') :
    PassEnds f d terms remaining s cmds pass w := by
  cases pass with
  | sent dctx left skipped =>
      obtain ⟨cmd, q, sentAt, hsent, hrest⟩ := h
      exact ⟨cmd, q, sentAt, hperm.trans hsent, hrest⟩
  | unsent skipped => exact h
  | exit err =>
      obtain ⟨herr, hroom, q, hback, hrest⟩ := h
      exact ⟨herr, hroom, q, hperm.trans hback, hrest⟩

theorem Sees.pushAll {α : Type} {k : Unit → Deliver α} {post : α → World → Prop} {cmds : List Command}
    (hw : Sees f d w s)
    (hk : ∀ w', Sees f d w' { s with queue := cmds.foldl ControllerQueue.push s.queue } →
      (k ()).Ends (reliable cfg id terms) tid post w') :
    (pushAll cmds >>= k).Ends (reliable cfg id terms) tid post w := by
  induction cmds generalizing w s with
  | nil => exact hk w hw
  | cons cmd rest ih =>
      refine (hw.push cmd).ends hw (fun _ => rfl) fun w' hw' => ?_
      exact ih hw' hk

theorem foldl_push_snapshot (q : ControllerQueue) (cmds : List Command) :
    List.Perm (cmds.foldl ControllerQueue.push q).snapshot (q.snapshot ++ cmds) := by
  induction cmds generalizing q with
  | nil => simp
  | cons cmd rest ih =>
      have hpush := (ControllerQueue.push_snapshot_perm q cmd).append_right rest
      exact (ih (q.push cmd)).trans (hpush.trans List.perm_middle.symm)

theorem foldl_push_sorted {q : ControllerQueue} (h : Sorted q) (cmds : List Command) :
    Sorted (cmds.foldl ControllerQueue.push q) := by
  induction cmds generalizing q with
  | nil => exact h
  | cons cmd rest ih => exact ih (h.push cmd)

theorem Sees.enterSync {α : Type} {k : Except Error DeliveryContext → Deliver α}
    {post : α → World → Prop} {cmd : Command} {dctx : DeliveryContext} (hw : Sees f d w s)
    (hctx : dctx = s.deliveryContext)
    (hk : ∀ w', Sees f d w' { s with
        syncMode := s.syncMode || (12 ≤ cmd.commandID && cmd.commandID ≤ 16) } →
      (k (.ok { dctx with
        syncMode := s.syncMode || (12 ≤ cmd.commandID && cmd.commandID ≤ 16) })).Ends
          (reliable cfg id terms) tid post w') :
    (enterSync cmd dctx >>= k).Ends (reliable cfg id terms) tid post w := by
  unfold Delivery.enterSync
  split
  · rename_i hsync
    have hon : (s.syncMode || (12 ≤ cmd.commandID && cmd.commandID ≤ 16)) = true := by
      simp [hsync]
    rw [hon] at hk
    exact (hw.setSyncMode true).ends hw (fun _ => rfl) hk
  · rename_i hsync
    have hoff : (s.syncMode || (12 ≤ cmd.commandID && cmd.commandID ≤ 16)) = s.syncMode := by
      simp only [Bool.or_eq_left_iff_imp, Bool.and_eq_true, decide_eq_true_eq]
      exact fun h => absurd h hsync
    rw [hoff] at hk
    subst hctx
    exact hk w hw

theorem Sees.enterFW {α : Type} {k : Except Error DeliveryContext → Deliver α}
    {post : α → World → Prop} {cmd : Command} {dctx : DeliveryContext} (hw : Sees f d w s)
    (hctx : dctx = s.deliveryContext)
    (hk : ∀ w', Sees f d w' { s with fwMode := s.fwMode || cmd.commandID == 19 } →
      (k (.ok { dctx with fwMode := s.fwMode || cmd.commandID == 19 })).Ends
          (reliable cfg id terms) tid post w') :
    (enterFW cmd dctx >>= k).Ends (reliable cfg id terms) tid post w := by
  unfold Delivery.enterFW
  split
  · rename_i hfw
    have hon : (s.fwMode || cmd.commandID == 19) = true := by simp [hfw]
    rw [hon] at hk
    exact (hw.setFWMode true).ends hw (fun _ => rfl) hk
  · rename_i hfw
    have hoff : (s.fwMode || cmd.commandID == 19) = s.fwMode := by simp [hfw]
    rw [hoff] at hk
    subst hctx
    exact hk w hw

/-- A frame that fits is written, and its command is registered. -/
theorem sendFrame_ends {cmd : Command} {bytes : List UInt8} {q : ControllerQueue}
    {cmds : List Command} (hperm : List.Perm cmds (cmd :: (q.snapshot ++ skipped))) (hq : Sorted q)
    (hw : Sees f d w { s with queue := q, nextSeq := s.nextSeq + 1 }) :
    (sendFrame id conn cmd (s.nextSeq + 1) bytes s.deliveryContext remaining skipped).Ends
      (reliable cfg id terms) tid (PassEnds f d terms remaining s cmds) w := by
  refine (hw.transmit conn bytes cmd _).ends hw (fun _ => rfl) fun w₁ hw₁ => ?_
  refine now_ends fun sentAt _ => ?_
  refine (hw₁.registerInFlight _ cmd sentAt).ends hw₁ (fun _ => rfl) fun w₂ hw₂ => ?_
  refine hw₂.enterSync rfl fun w₃ hw₃ => hw₃.enterFW rfl fun w₄ hw₄ => ?_
  refine (hw₄.publishAck _).ends hw₄ (fun _ => rfl) fun w₅ hw₅ => ?_
  refine hw₅.ackSent.ends hw₅ (fun _ => rfl) fun w₆ hw₆ => ?_
  exact ⟨cmd, q, sentAt, hperm, hq, hw₆, rfl, Int.sub_le_self _ (Int.natCast_nonneg _)⟩

/-- A frame is written, or its command is put back because too little of the budget is left. -/
theorem offer_ends {cmd : Command} {bytes : List UInt8} {q : ControllerQueue}
    {cmds : List Command} (hperm : List.Perm cmds (cmd :: (q.snapshot ++ skipped))) (hq : Sorted q)
    (hlength : bytes.length ≤ terms.room)
    (hw : Sees f d w { s with queue := q, nextSeq := s.nextSeq + 1 }) :
    (offer id conn cmd (s.nextSeq + 1) bytes s.deliveryContext remaining skipped).Ends
      (reliable cfg id terms) tid (PassEnds f d terms remaining s cmds) w := by
  unfold offer
  split
  · rename_i hlarge
    refine (hw.push cmd).ends hw (fun _ => rfl) fun w₁ hw₁ => hw₁.pushAll fun w₂ hw₂ => ?_
    refine ⟨rfl, Int.lt_of_lt_of_le hlarge hlength, _, ?_, ?_, hw₂⟩
    · refine hperm.trans ?_
      refine (((ControllerQueue.push_snapshot_perm q cmd).append_right skipped).symm.trans ?_)
      exact (foldl_push_snapshot _ skipped).symm
    · exact foldl_push_sorted (hq.push cmd) skipped
  · exact sendFrame_ends hperm hq hw

/-- A pass over commands that can be sent, one of which the modes let out. -/
theorem scanQueue_ends {n : ℕ} (hw : Sees f d w s) (hsorted : Sorted s.queue)
    (hcmds : ∀ cmd ∈ s.queue.snapshot, Deliverable s.frameMode terms cmd)
    (hallowed : ∃ cmd ∈ s.queue.visible s.fwMode s.syncMode,
      commandAllowedInModes cmd.commandID s.fwMode s.syncMode = true)
    (hn : (s.queue.visible s.fwMode s.syncMode).length ≤ n) :
    (scanQueue id conn s.deliveryContext remaining n skipped).Ends (reliable cfg id terms) tid
      (PassEnds f d terms remaining s (s.queue.snapshot ++ skipped)) w := by
  induction n generalizing w s skipped with
  | zero =>
      obtain ⟨cmd, hmem, -⟩ := hallowed
      rw [List.length_eq_zero_iff.mp (Nat.le_zero.mp hn)] at hmem
      cases hmem
  | succ n ih =>
      refine now_ends fun now _ => ?_
      cases hpop : s.queue.popNext s.fwMode s.syncMode with
      | mk popped q =>
          cases popped with
          | none =>
              obtain ⟨cmd, hmem, -⟩ := hallowed
              rw [ControllerQueue.visible_of_popNext_none hpop] at hmem
              cases hmem
          | some cmd =>
              have hperm := ControllerQueue.popNext_snapshot_perm hpop
              have hvisible := ControllerQueue.popNext_visible hpop
              have hcmd : Deliverable s.frameMode terms cmd :=
                hcmds cmd (hperm.mem_iff.mpr List.mem_cons_self)
              refine (hw.popNext hpop).ends hw (fun _ => rfl) fun w₁ hw₁ =>
                now_ends fun now hnow => ?_
              rw [if_neg (by simp [hcmd.lasting now hnow])]
              cases hmodes : commandAllowedInModes cmd.commandID s.deliveryContext.fwMode
                  s.deliveryContext.syncMode with
              | false =>
                  -- The command is set aside, and the pass goes on behind it.
                  rw [if_pos (by rfl)]
                  have hrest : ∃ c ∈ q.visible s.fwMode s.syncMode,
                      commandAllowedInModes c.commandID s.fwMode s.syncMode = true := by
                    obtain ⟨c, hmem, hc⟩ := hallowed
                    rw [hvisible] at hmem
                    rcases List.mem_cons.mp hmem with rfl | hmem
                    · cases hc.symm.trans hmodes
                    · exact ⟨c, hmem, hc⟩
                  have hskip : List.Perm (s.queue.snapshot ++ skipped)
                      (q.snapshot ++ (skipped ++ [cmd])) := by
                    refine (hperm.append_right skipped).trans ?_
                    rw [← List.append_assoc]
                    exact (List.perm_append_singleton cmd _).symm
                  refine (ih hw₁ (hsorted.popped hpop) (fun c hc => hcmds c ?_) hrest ?_).mono
                    fun pass w' hpass => hpass.perm hskip
                  · exact hperm.mem_iff.mpr (List.mem_cons_of_mem _ hc)
                  · rw [hvisible, List.length_cons] at hn
                    exact Nat.le_of_succ_le_succ hn
              | true =>
                  rw [if_neg (by exact Bool.false_ne_true)]
                  obtain ⟨bytes, hencode, hlength⟩ := hcmd.fits (s.nextSeq + 1)
                  simp only [hcmd.valid, commandSeq, hcmd.retrySeq, if_true]
                  refine hw₁.nextCommandSeq.ends hw₁ (fun _ => rfl) fun w₂ hw₂ => ?_
                  have hunnumbered := hcmd.unnumbered
                  have hframe : encodeFrame (commandFrame { cmd with retrySeq := 0 } (s.nextSeq + 1)
                      s.deliveryContext.frameMode) = .ok bytes := by
                    rw [hunnumbered]
                    exact hencode
                  simp only [hframe]
                  rw [hunnumbered]
                  exact offer_ends (hperm.append_right skipped) (hsorted.popped hpop) hlength hw₂

end pass

/-! ## The outer loop -/

/-- Where a flush stands: every queued command can be sent, the modes are served, and a ticket is
queued, in flight or finished as often as it was at the start. -/
structure Standing (terms : Terms) (total done : ℕ → ℕ) (s : Session) : Prop where
  sendable : ∀ cmd ∈ s.queue.snapshot, Deliverable s.frameMode terms cmd
  sorted : Sorted s.queue
  served : Served s s.queue.snapshot
  balance : ∀ t, s.queue.snapshot.countP (fun c => c.ticket == t) +
    s.inFlight.entries.countP (fun e => e.command.ticket == t) + done t = total t

/-- The last `k` numbers of the counter may be in flight, and there is one left for every queued
command. -/
structure Unspent (k : ℕ) (s : Session) : Prop where
  recent : ∀ seq, s.inFlight seq ≠ none → ∃ i < k, seq = s.nextSeq - UInt8.ofNat i
  enough : s.queue.len + k ≤ 256

/-- The settings that a flush reads and does not change. -/
structure Alike (s s' : Session) : Prop where
  conn : s'.conn = s.conn
  bufferFree : s'.bufferFree = s.bufferFree
  frameMode : s'.frameMode = s.frameMode

section loop

variable {cfg : Config} {id : String} {tid : ℕ} {w : World} {s : Session} {f : Option ℕ}
  {d total : ℕ → ℕ} {conn : ConnID} {terms : Terms} {k : ℕ} {cmds : List Command}

theorem Unspent.free (h : Unspent k s) (hne : s.queue.len ≠ 0) :
    s.inFlight (s.nextSeq + 1) = none := by
  by_contra hlive
  obtain ⟨i, hi, heq⟩ := h.recent _ hlive
  have hfew := h.enough
  have hnat := congrArg UInt8.toNat heq
  have hlt := s.nextSeq.toNat_lt
  simp only [UInt8.toNat_add, UInt8.toNat_sub, UInt8.toNat_ofNat'] at hnat
  rw [show (1 : UInt8).toNat = 1 from rfl] at hnat
  omega

theorem drainExpired_of_lasting {q : ControllerQueue} {now : Time}
    (h : ∀ cmd ∈ q.snapshot, cmd.expired now = false) : q.drainExpired now = ([], q) := by
  have hqueue : (q.drainExpired now).2 = q := by
    refine ControllerQueue.ext_buffer fun b => ?_
    rw [ControllerQueue.drainExpired_buffer, List.filter_eq_self]
    intro cmd hcmd
    rw [h cmd (ControllerQueue.mem_snapshot.mpr ⟨b, hcmd⟩)]
    rfl
  have hexpired : (q.drainExpired now).1 = [] := by
    rw [ControllerQueue.drainExpired_fst, List.filter_eq_nil_iff]
    intro cmd hcmd
    rw [h cmd hcmd]
    exact Bool.false_ne_true
  exact Prod.ext hexpired hqueue

theorem Sees.leaveSync {α : Type} {k : Except Error DeliveryContext → Deliver α}
    {post : α → World → Prop} {dctx : DeliveryContext} (hw : Sees f d w s)
    (hctx : dctx = s.deliveryContext)
    (hk : ∀ w', Sees f d w' { s with syncMode := s.syncMode && s.queue.hasSync } →
      (k (.ok { dctx with syncMode := s.syncMode && s.queue.hasSync })).Ends
        (reliable cfg id terms) tid post w') :
    (leaveSync dctx >>= k).Ends (reliable cfg id terms) tid post w := by
  subst hctx
  unfold Delivery.leaveSync
  split
  · rename_i hmode
    have hmode : s.syncMode = true := hmode
    refine hw.hasSync.ends hw (fun _ => rfl) fun w₁ hw₁ => ?_
    cases hhas : s.queue.hasSync with
    | true =>
        rw [hhas, Bool.and_true] at hk
        exact hk w₁ hw₁
    | false =>
        rw [hhas, Bool.and_false] at hk
        exact (hw₁.setSyncMode false).ends hw₁ (fun _ => rfl) hk
  · rename_i hmode
    have hmode : s.syncMode = false := Bool.eq_false_iff.mpr hmode
    have hoff : (s.syncMode && s.queue.hasSync) = s.syncMode := by rw [hmode, Bool.false_and]
    rw [hoff] at hk
    exact hk w hw

theorem Sees.leaveFW {α : Type} {k : Except Error DeliveryContext → Deliver α}
    {post : α → World → Prop} {dctx : DeliveryContext} (hw : Sees f d w s)
    (hctx : dctx = s.deliveryContext)
    (hk : ∀ w', Sees f d w' { s with fwMode := s.fwMode && s.queue.hasFW } →
      (k (.ok { dctx with fwMode := s.fwMode && s.queue.hasFW })).Ends
        (reliable cfg id terms) tid post w') :
    (leaveFW dctx >>= k).Ends (reliable cfg id terms) tid post w := by
  subst hctx
  unfold Delivery.leaveFW
  split
  · rename_i hmode
    have hmode : s.fwMode = true := hmode
    refine hw.hasFW.ends hw (fun _ => rfl) fun w₁ hw₁ => ?_
    cases hhas : s.queue.hasFW with
    | true =>
        rw [hhas, Bool.and_true] at hk
        exact hk w₁ hw₁
    | false =>
        rw [hhas, Bool.and_false] at hk
        exact (hw₁.setFWMode false).ends hw₁ (fun _ => rfl) hk
  · rename_i hmode
    have hmode : s.fwMode = false := Bool.eq_false_iff.mpr hmode
    have hoff : (s.fwMode && s.queue.hasFW) = s.fwMode := by rw [hmode, Bool.false_and]
    rw [hoff] at hk
    exact hk w hw

theorem exists_of_isEmpty {q : ControllerQueue} {b : ControllerQueue.Buffer} (h : Sorted q)
    (hb : (!(q.buffer b).isEmpty) = true) : ∃ cmd ∈ q.snapshot, cmd.priority.buffer = b := by
  have hne : q.buffer b ≠ [] := by simpa using hb
  obtain ⟨cmd, hcmd⟩ := List.exists_mem_of_ne_nil _ hne
  exact ⟨cmd, h.mem_buffer.mp hcmd⟩

/-- The session with which the loop goes round after a send. -/
def Session.settled (s : Session) (q : ControllerQueue) : Session :=
  { s with
    queue := q
    syncMode := s.syncMode && q.hasSync
    fwMode := s.fwMode && q.hasFW }

theorem Standing.settled {q' : ControllerQueue} {cmd : Command} (h : Standing terms total d s)
    (hnum : Unspent k s) (q : ControllerQueue) (sentAt : Time)
    (hperm : List.Perm s.queue.snapshot (cmd :: q'.snapshot)) (hsorted : Sorted q') :
    Standing terms total d (Session.settled (Session.sending s q cmd sentAt) q') ∧
      Unspent (k + 1) (Session.settled (Session.sending s q cmd sentAt) q') ∧
      s.queue.len = q'.len + 1 ∧
      (Session.sending s q cmd sentAt).inFlight.count = s.inFlight.count + 1 := by
  have hlen : s.queue.len = q'.len + 1 := by
    rw [len_eq_length, len_eq_length, hperm.length_eq, List.length_cons]
  have hfree := hnum.free (by omega)
  refine ⟨⟨fun c hc => ?_, hsorted, ⟨fun hfw => ?_, fun hsync => ?_⟩, fun t => ?_⟩,
    ⟨fun seq hseq => ?_, ?_⟩, hlen, ?_⟩
  · exact h.sendable c (hperm.mem_iff.mpr (List.mem_cons_of_mem _ hc))
  · exact exists_of_isEmpty hsorted (b := .fw) (Bool.and_eq_true_iff.mp hfw).2
  · exact exists_of_isEmpty hsorted (b := .sync) (Bool.and_eq_true_iff.mp hsync).2
  · rw [← h.balance t, hperm.countP_eq, List.countP_cons]
    change q'.snapshot.countP _ + (InFlight.entries (Function.update _ _ _)).countP _ + _ = _
    rw [(InFlight.entries_insert_perm hfree _).countP_eq, List.countP_cons]
    dsimp only
    omega
  · by_cases hnew : seq = s.nextSeq + 1
    · exact ⟨0, Nat.succ_pos k, by rw [hnew]; simp [Session.settled, Session.sending]⟩
    · have hold : s.inFlight seq ≠ none := by
        simpa [Session.settled, Session.sending, hnew] using hseq
      obtain ⟨i, hi, rfl⟩ := hnum.recent seq hold
      refine ⟨i + 1, Nat.succ_lt_succ hi, ?_⟩
      simp only [Session.settled, Session.sending, UInt8.ofNat_add]
      grind
  · have henough := hnum.enough
    change q'.len + (k + 1) ≤ 256
    omega
  · exact (InFlight.entries_insert_perm hfree _).length_eq

/-- A command that did not fit is queued again. -/
theorem Standing.putBack {q : ControllerQueue} {n : UInt8} (h : Standing terms total d s)
    (hperm : List.Perm s.queue.snapshot q.snapshot) (hsorted : Sorted q) :
    Standing terms total d { s with queue := q, nextSeq := n } where
  sendable cmd hcmd := h.sendable cmd (hperm.mem_iff.mpr hcmd)
  sorted := hsorted
  served :=
    { fw := fun hfw => by
        obtain ⟨cmd, hcmd, hclass⟩ := h.served.fw hfw
        exact ⟨cmd, hperm.mem_iff.mp hcmd, hclass⟩
      sync := fun hsync => by
        obtain ⟨cmd, hcmd, hclass⟩ := h.served.sync hsync
        exact ⟨cmd, hperm.mem_iff.mp hcmd, hclass⟩ }
  balance t := by
    rw [← h.balance t, hperm.countP_eq]

/-- What is queued or in flight. -/
def load (s : Session) : ℕ :=
  s.queue.len + s.inFlight.count

/-- What a flush leaves behind. -/
structure Flushed (terms : Terms) (total d : ℕ → ℕ) (s s' : Session) : Prop where
  standing : Standing terms total d s'
  alike : Alike s s'
  len : s'.queue.len ≤ s.queue.len
  load : load s' = load s

theorem Standing.flushed (h : Standing terms total d s) : Flushed terms total d s s :=
  ⟨h, ⟨rfl, rfl, rfl⟩, Nat.le_refl _, rfl⟩

/-- The loop ends without an error. If its budget has room for every command and the queue is not
empty, it sends something. -/
theorem flushLoop_ends {fuel : ℕ} {remaining : Int} (hw : Sees f d w s)
    (hs : Standing terms total d s) (hnum : Unspent k s) :
    (flushLoop id conn fuel s.deliveryContext remaining).Ends (reliable cfg id terms) tid
      (fun err w' => err = none ∧ ∃ s', Sees f d w' s' ∧ Flushed terms total d s s' ∧
        (0 < fuel → 0 < remaining → terms.room ≤ remaining → s.queue.len ≠ 0 →
          s'.queue.len < s.queue.len)) w := by
  induction fuel generalizing w s k remaining with
  | zero => exact ⟨rfl, s, hw, hs.flushed, fun h => absurd h (by omega)⟩
  | succ fuel ih =>
      unfold flushLoop
      split
      · rename_i hout
        exact ⟨rfl, s, hw, hs.flushed, fun _ h => absurd hout (by omega)⟩
      · refine now_ends fun now hnow => ?_
        refine (hw.drainExpired now).ends hw (fun _ => rfl) fun w₀ hw₀ => ?_
        rw [drainExpired_of_lasting fun cmd hcmd => (hs.sendable cmd hcmd).lasting now hnow] at hw₀ ⊢
        have hw₀ : Sees f d w₀ s := hw₀
        refine hw₀.queueLen.ends hw₀ (fun _ => rfl) fun w₁ hw₁ => ?_
        by_cases hempty : s.queue.len = 0
        · rw [if_pos hempty]
          exact ⟨rfl, s, hw₁, hs.flushed, fun _ _ _ h => absurd hempty h⟩
        · rw [if_neg hempty]
          refine (scanQueue_ends hw₁ hs.sorted hs.sendable
            (hs.served.exists_allowed hs.sorted hs.sendable hempty)
            (ControllerQueue.length_visible_le _ _ _)).bind fun pass w₂ hpass => ?_
          rw [List.append_nil] at hpass
          cases pass with
          | unsent skipped => exact hpass.elim
          | exit err =>
              obtain ⟨rfl, hroom, q, hperm, hsorted, hw₂⟩ := hpass
              have hlen : q.len = s.queue.len := by
                rw [len_eq_length, len_eq_length, hperm.length_eq]
              refine ⟨rfl, _, hw₂, ⟨hs.putBack hperm hsorted, ⟨rfl, rfl, rfl⟩, hlen.le, ?_⟩,
                fun _ _ hle => absurd hroom (Int.not_lt.mpr hle)⟩
              simp only [load, hlen]
          | sent dctx left skipped =>
              obtain ⟨cmd, q, sentAt, hperm, hsorted, hw₂, rfl, -⟩ := hpass
              obtain ⟨hs', hnum', hlen, hcount⟩ := hs.settled hnum q sentAt
                (hperm.trans ((foldl_push_snapshot q skipped).symm.cons cmd))
                (foldl_push_sorted hsorted skipped)
              refine hw₂.pushAll fun w₃ hw₃ => hw₃.leaveSync rfl fun w₄ hw₄ => ?_
              refine hw₄.leaveFW rfl fun w₅ hw₅ => ?_
              have hw₅ : Sees f d w₅ (Session.settled (Session.sending s q cmd sentAt)
                  (skipped.foldl ControllerQueue.push q)) := hw₅
              refine (ih hw₅ hs' hnum').mono fun err w' hend => ?_
              obtain ⟨herr, s', hw', hflushed, -⟩ := hend
              have hless : s'.queue.len < s.queue.len :=
                Nat.lt_of_le_of_lt hflushed.len (hlen ▸ Nat.lt_succ_self _)
              have halike := hflushed.alike
              refine ⟨herr, s', hw', ⟨hflushed.standing,
                ⟨halike.conn, halike.bufferFree, halike.frameMode⟩, hless.le, ?_⟩,
                fun _ _ _ _ => hless⟩
              rw [hflushed.load]
              change (skipped.foldl ControllerQueue.push q).len +
                (Session.sending s q cmd sentAt).inFlight.count = load s
              rw [hcount, load]
              omega

end loop

end TcpAdapter.Delivery
