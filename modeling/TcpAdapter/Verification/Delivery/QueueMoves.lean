import TcpAdapter.Verification.Delivery.Frames

/-! # What an action does to the queue and to the in-flight table

An action leaves the queue alone, or it is one of the queue's own operations. Invariants of
the queue follow from the operations, whoever performs them. Only one action enters commands
into the in-flight table. -/

namespace TcpAdapter.Delivery

open TcpAdapter.Concurrent TcpAdapter.Queue TcpAdapter.Protocol TcpAdapter.Manager
open TcpAdapter.Policy

/-- What an action makes of the queue of the world `w`. -/
inductive QueueMove (w : World) : Act → ControllerQueue → Prop where
  | same (a : Act) : QueueMove w a w.queue
  | popped {now : Time} {fwMode syncMode : Bool} {cmd : Command} {q : ControllerQueue}
      (h : w.queue.popNext fwMode syncMode = (some cmd, q)) :
      QueueMove w (.popNext now fwMode syncMode) q
  | drained (now : Time) : QueueMove w (.drainExpired now) (w.queue.drainExpired now).2
  | putBack (cmd : Command) : QueueMove w (.push cmd) (w.queue.push cmd)
  | enqueued (cmd : Command) :
      QueueMove w (.pushNew cmd) (w.queue.push { cmd with ticket := w.tickets })
  | evicted {cmd : Command} {q : ControllerQueue} (h : w.queue.dropOldest = (some cmd, q)) :
      QueueMove w .dropOldest q
  | retried {seq : UInt8} {entry : InFlightEntry} (now : Time)
      (h : w.inFlight seq = some entry) :
      QueueMove w (.visitInFlight seq now)
        (w.queue.push { entry.command with attempts := entry.attempts, retrySeq := seq })

section exec

variable {cfg : Config} {id : String} {tid : ℕ} {w w' : World} {inp : Input}

/-- Without a session the queue is empty and stays empty. -/
theorem setQueue_queue_cases (w : World) (q : ControllerQueue) :
    (w.setQueue q).queue = q ∨ (w.setQueue q).queue = w.queue := by
  cases hs : w.slot.session with
  | none => exact .inr (by simp [World.queue, World.setQueue, Slot.setQueue, Slot.queue, hs])
  | some s => exact .inl (by simp [World.queue, World.setQueue, Slot.setQueue, Slot.queue, hs])

theorem QueueMove.of_eq {a : Act} (h : w'.queue = w.queue) : QueueMove w a w'.queue :=
  h ▸ .same a

theorem QueueMove.of_setQueue {a : Act} {q : ControllerQueue} (hq : QueueMove w a q)
    (h : w'.queue = (w.setQueue q).queue) : QueueMove w a w'.queue := by
  rcases setQueue_queue_cases w q with hset | hset
  · rwa [h, hset]
  · exact .of_eq (h.trans hset)

theorem exec_queueMove {a : Act} {r : a.Res} (h : exec cfg id tid w a inp = some (w', r)) :
    QueueMove w a w'.queue := by
  cases a with
  | popNext now fwMode syncMode =>
      simp only [exec, execPop] at h
      split at h
      · cases h
        exact .same _
      · rename_i cmd q hpop
        cases h
        exact .of_setQueue (.popped hpop) rfl
  | drainExpired now =>
      cases h
      exact .of_setQueue (.drained now) rfl
  | push cmd =>
      cases h
      exact .of_setQueue (.putBack cmd) rfl
  | pushNew cmd =>
      cases h
      exact .of_setQueue (.enqueued cmd) rfl
  | dropOldest =>
      simp only [exec, execDropOldest] at h
      split at h
      · cases h
        exact .same _
      · rename_i cmd q hdrop
        cases h
        exact .of_setQueue (.evicted hdrop) rfl
  | registerInFlight seq cmd sentAt =>
      by_cases hs : w.session.isSome
      · exact .of_eq (exec_registerInFlight hs h).1
      · have heq := guarded_eq_some h
        have hnone : w.session = none := Option.not_isSome_iff_eq_none.mp hs
        simp only [execRegister, hnone] at heq
        cases heq
        exact .same _
  | ackInFlight seq =>
      rcases exec_ackInFlight h with ⟨-, hquiet, -⟩ | ⟨entry, -, ht⟩
      · exact .of_eq hquiet.queue
      · exact .of_eq ht.queue
  | visitInFlight seq now =>
      rcases exec_visitInFlight h with ⟨-, rfl⟩ | ⟨entry, out, -, ⟨-, hq⟩ | ⟨-, -, ht⟩⟩
      · exact .same _
      · rw [hq.queue]
        exact .retried now hq.found
      · exact .of_eq ht.queue
  | _ => exact .of_eq (exec_commands rfl h).1

/-- An entry was in flight before, or it was registered just now. -/
theorem exec_inFlight_some {a : Act} {r : a.Res} (h : exec cfg id tid w a inp = some (w', r))
    {seq : UInt8} {entry : InFlightEntry} (hentry : w'.inFlight seq = some entry) :
    w.inFlight seq = some entry ∨
      ∃ cmd sentAt, a = .registerInFlight seq cmd sentAt ∧
        entry = ⟨seq, cmd, sentAt, cmd.attempts + 1⟩ := by
  have htaken : ∀ k, Function.update w.inFlight k none seq = some entry →
      w.inFlight seq = some entry := by
    intro k hk
    by_cases heq : seq = k
    · rw [heq, Function.update_self] at hk
      cases hk
    · rwa [Function.update_of_ne heq] at hk
  cases a with
  | registerInFlight k cmd sentAt =>
      by_cases hs : w.session.isSome
      · rw [(exec_registerInFlight hs h).2.1] at hentry
        by_cases heq : seq = k
        · subst heq
          rw [Function.update_self] at hentry
          exact .inr ⟨cmd, sentAt, rfl, (Option.some.inj hentry).symm⟩
        · rw [Function.update_of_ne heq] at hentry
          exact .inl hentry
      · have heq := guarded_eq_some h
        have hnone : w.session = none := Option.not_isSome_iff_eq_none.mp hs
        simp only [execRegister, hnone] at heq
        cases heq
        exact .inl hentry
  | ackInFlight k =>
      rcases exec_ackInFlight h with ⟨-, hquiet, -⟩ | ⟨_, -, ht⟩
      · exact .inl (hquiet.inFlight ▸ hentry)
      · exact .inl (htaken k (ht.inFlight ▸ hentry))
  | visitInFlight k now =>
      rcases exec_visitInFlight h with ⟨-, rfl⟩ | ⟨_, _, -, ⟨-, hq⟩ | ⟨-, -, ht⟩⟩
      · exact .inl hentry
      · exact .inl (htaken k (hq.inFlight ▸ hentry))
      · exact .inl (htaken k (ht.inFlight ▸ hentry))
  | _ => exact .inl (exec_inFlight rfl h ▸ hentry)

end exec

/-- Where a queued command comes from. -/
theorem QueueMove.mem_snapshot {w : World} {a : Act} {q : ControllerQueue} {cmd : Command}
    (hm : QueueMove w a q) (h : cmd ∈ q.snapshot) :
    cmd ∈ w.queue.snapshot ∨ a = .push cmd ∨
      (∃ new, a = .pushNew new ∧ cmd = { new with ticket := w.tickets }) ∨
      ∃ seq now entry, a = .visitInFlight seq now ∧ w.inFlight seq = some entry ∧
        cmd = { entry.command with attempts := entry.attempts, retrySeq := seq } := by
  have hpush : ∀ c : Command, cmd ∈ (w.queue.push c).snapshot →
      cmd = c ∨ cmd ∈ w.queue.snapshot := by
    intro c hc
    exact List.mem_cons.mp ((ControllerQueue.push_snapshot_perm w.queue c).mem_iff.mp hc)
  cases hm with
  | same => exact .inl h
  | popped hpop =>
      have hperm := ControllerQueue.popNext_snapshot_perm hpop
      exact .inl (hperm.mem_iff.mpr (List.mem_cons_of_mem _ h))
  | drained now =>
      have hperm := w.queue.drainExpired_snapshot_perm now
      exact .inl (hperm.mem_iff.mpr (List.mem_append_right _ h))
  | putBack c =>
      rcases hpush c h with rfl | hmem
      · exact .inr (.inl rfl)
      · exact .inl hmem
  | enqueued c =>
      rcases hpush _ h with heq | hmem
      · exact .inr (.inr (.inl ⟨c, rfl, heq⟩))
      · exact .inl hmem
  | evicted hdrop =>
      have hperm := ControllerQueue.dropOldest_snapshot_perm hdrop
      exact .inl (hperm.mem_iff.mpr (List.mem_cons_of_mem _ h))
  | retried now hentry =>
      rcases hpush _ h with heq | hmem
      · exact .inr (.inr (.inr ⟨_, now, _, rfl, hentry, heq⟩))
      · exact .inl hmem

theorem push_buffer_cases (q : ControllerQueue) (cmd : Command) (b : ControllerQueue.Buffer) :
    (q.push cmd).buffer b ≠ [] ∨ (q.push cmd).buffer b = q.buffer b := by
  rw [ControllerQueue.push_eq]
  by_cases hb : b = cmd.priority.buffer
  · subst hb
    rw [ControllerQueue.buffer_setBuffer]
    exact .inl (by simp)
  · exact .inr (ControllerQueue.buffer_setBuffer_of_ne _ hb _)

/-! ## Every command is in the buffer of its class -/

/-- Each buffer holds only commands of its class. -/
def Sorted (q : ControllerQueue) : Prop :=
  ∀ b, ∀ cmd ∈ q.buffer b, cmd.priority.buffer = b

theorem Sorted.push {q : ControllerQueue} (h : Sorted q) (cmd : Command) :
    Sorted (q.push cmd) := by
  intro b c hc
  rw [ControllerQueue.push_eq] at hc
  by_cases hb : b = cmd.priority.buffer
  · subst hb
    rw [ControllerQueue.buffer_setBuffer, List.mem_append, List.mem_singleton] at hc
    rcases hc with hc | rfl
    · exact h _ c hc
    · rfl
  · rw [ControllerQueue.buffer_setBuffer_of_ne _ hb] at hc
    exact h b c hc

theorem Sorted.of_subset {q q' : ControllerQueue} (h : Sorted q)
    (hsub : ∀ b, ∀ cmd ∈ q'.buffer b, cmd ∈ q.buffer b) : Sorted q' :=
  fun b cmd hcmd => h b cmd (hsub b cmd hcmd)

/-- Replacing a buffer by a part of it. -/
theorem Sorted.setBuffer {q : ControllerQueue} (h : Sorted q) {b : ControllerQueue.Buffer}
    {cmds : List Command} (hsub : ∀ cmd ∈ cmds, cmd ∈ q.buffer b) :
    Sorted (q.setBuffer b cmds) := by
  refine h.of_subset fun b' cmd hcmd => ?_
  by_cases hb : b' = b
  · subst hb
    rw [ControllerQueue.buffer_setBuffer] at hcmd
    exact hsub cmd hcmd
  · rwa [ControllerQueue.buffer_setBuffer_of_ne _ hb] at hcmd

theorem Sorted.popped {q q' : ControllerQueue} (h : Sorted q) {fwMode syncMode : Bool}
    {cmd : Command} (hpop : q.popNext fwMode syncMode = (some cmd, q')) : Sorted q' := by
  obtain ⟨b, rest, hb, rfl⟩ := ControllerQueue.popNext_some hpop
  refine h.setBuffer fun cmd hcmd => ?_
  rw [hb]
  exact List.mem_cons_of_mem _ hcmd

theorem Sorted.drained {q : ControllerQueue} (h : Sorted q) (now : Time) :
    Sorted (q.drainExpired now).2 := by
  refine h.of_subset fun b cmd hcmd => ?_
  rw [ControllerQueue.drainExpired_buffer] at hcmd
  exact List.mem_of_mem_filter hcmd

theorem Sorted.evicted {q q' : ControllerQueue} (h : Sorted q) {cmd : Command}
    (hdrop : q.dropOldest = (some cmd, q')) : Sorted q' := by
  obtain ⟨b, i, -, rfl⟩ := ControllerQueue.dropOldest_some hdrop
  exact h.setBuffer fun cmd hcmd => List.mem_of_mem_eraseIdx hcmd

theorem QueueMove.sorted {w : World} {a : Act} {q : ControllerQueue} (hm : QueueMove w a q)
    (h : Sorted w.queue) : Sorted q := by
  cases hm with
  | same => exact h
  | popped hpop => exact h.popped hpop
  | drained now => exact h.drained now
  | putBack cmd => exact h.push cmd
  | enqueued cmd => exact h.push _
  | evicted hdrop => exact h.evicted hdrop
  | retried now hentry => exact h.push _

end TcpAdapter.Delivery
