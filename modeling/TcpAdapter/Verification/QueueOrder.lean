import Mathlib.Data.List.Nodup
import TcpAdapter.Verification.Eviction

/-! # The controller queue is four FIFO lists

The abstract queue is one list: the commands that were pushed and not yet returned, in the
order of their pushes. Each buffer is the part of this list that has its class. -/

namespace TcpAdapter.Queue

open List ControllerQueue

/-! ## Histories of a queue -/

inductive Op where
  | push (cmd : Command)
  | popNext (fwMode syncMode : Bool)
  | drainExpired (now : Time)
  | dropOldest
  /-- `Restore(Snapshot())` -/
  | reload

/-- A queue with what has been pushed to it and what it has returned, in order. -/
structure History where
  queue : ControllerQueue := {}
  pushed : List Command := []
  returned : List Command := []

namespace History

/-- Each push is numbered, so that no two of them push the same occurrence of a command. -/
def step (s : History) : Op → History
  | .push cmd =>
      let cmd := { cmd with ticket := s.pushed.length }
      { s with queue := s.queue.push cmd, pushed := s.pushed ++ [cmd] }
  | .popNext fwMode syncMode =>
      let (cmd, q) := s.queue.popNext fwMode syncMode
      { s with queue := q, returned := s.returned ++ cmd.toList }
  | .drainExpired now =>
      let (cmds, q) := s.queue.drainExpired now
      { s with queue := q, returned := s.returned ++ cmds }
  | .dropOldest =>
      let (cmd, q) := s.queue.dropOldest
      { s with queue := q, returned := s.returned ++ cmd.toList }
  | .reload => { s with queue := restore s.queue.snapshot }

def run (ops : List Op) : History :=
  ops.foldl step {}

/-- The commands that were pushed and not returned, in the order of their pushes. -/
def backlog (s : History) : List Command :=
  s.pushed.filter fun c => c ∉ s.returned

/-- The part of the backlog that belongs into a buffer. -/
def waiting (s : History) (b : Buffer) : List Command :=
  s.backlog.filter fun c => c.priority.buffer = b

/-- What is kept by every operation. -/
structure Fifo (s : History) : Prop where
  numbered : s.pushed.map Command.ticket = range s.pushed.length
  fresh : s.returned.Nodup
  known : ∀ cmd ∈ s.returned, cmd ∈ s.pushed
  buffers : ∀ b, s.queue.buffer b = s.waiting b

variable {s : History}

theorem Fifo.distinct (h : s.Fifo) : s.pushed.Nodup := by
  refine Nodup.of_map Command.ticket ?_
  rw [h.numbered]
  exact nodup_range

theorem mem_backlog {cmd : Command} : cmd ∈ s.backlog ↔ cmd ∈ s.pushed ∧ cmd ∉ s.returned := by
  simp [backlog]

theorem Fifo.mem_buffer (h : s.Fifo) {b : Buffer} {cmd : Command} :
    cmd ∈ s.queue.buffer b ↔ cmd ∈ s.backlog ∧ cmd.priority.buffer = b := by
  rw [h.buffers, waiting, mem_filter, decide_eq_true_iff]

theorem Fifo.sorted (h : s.Fifo) : ∀ b, ∀ cmd ∈ s.queue.buffer b, cmd.priority.buffer = b :=
  fun _ _ hcmd => (h.mem_buffer.mp hcmd).2

theorem Fifo.nodup_buffer (h : s.Fifo) (b : Buffer) : (s.queue.buffer b).Nodup := by
  rw [h.buffers]
  exact (h.distinct.filter _).filter _

/-- The buffers hold each command of the backlog once. -/
theorem Fifo.snapshot_perm (h : s.Fifo) : s.queue.snapshot ~ s.backlog := by
  refine perm_iff_count.mpr fun cmd => ?_
  have hcount : ∀ b, (s.queue.buffer b).count cmd =
      if cmd.priority.buffer = b then s.backlog.count cmd else 0 := by
    intro b
    rw [h.buffers, waiting]
    split
    · rename_i hb
      exact count_filter (by simpa using hb)
    · rename_i hb
      exact count_eq_zero.mpr fun hmem => hb (by simpa using of_mem_filter hmem)
  have hparts : s.queue.snapshot = s.queue.buffer .high ++ s.queue.buffer .fw ++
      s.queue.buffer .sync ++ s.queue.buffer .query := rfl
  rw [hparts]
  simp only [count_append, hcount]
  cases cmd.priority.buffer <;> simp

/-! ## Steps -/

theorem Fifo.push (h : s.Fifo) (cmd : Command) : (s.step (.push cmd)).Fifo := by
  have hnew : ∀ c ∈ s.pushed, c.ticket < s.pushed.length := by
    intro c hc
    have hmem := mem_map_of_mem (f := Command.ticket) hc
    rwa [h.numbered, mem_range] at hmem
  let new := { cmd with ticket := s.pushed.length }
  have hfresh : new ∉ s.returned := by
    intro hmem
    exact absurd (hnew new (h.known new hmem)) (Nat.lt_irrefl _)
  have hbacklog : (s.step (.push cmd)).backlog = s.backlog ++ [new] := by
    have hone : [new].filter (fun c => c ∉ s.returned) = [new] :=
      filter_cons_of_pos (by simpa using hfresh)
    calc (s.step (.push cmd)).backlog
        = (s.pushed ++ [new]).filter fun c => c ∉ s.returned := rfl
      _ = s.backlog ++ [new] := by rw [filter_append, hone, backlog]
  refine ⟨?_, h.fresh, fun c hc => mem_append_left _ (h.known c hc), fun b => ?_⟩
  · have hlength : (s.step (.push cmd)).pushed = s.pushed ++ [new] := rfl
    rw [hlength, map_append, h.numbered, length_append, length_singleton, range_succ]
    rfl
  · have hqueue : (s.step (.push cmd)).queue = s.queue.push new := rfl
    rw [waiting, hbacklog, filter_append, hqueue, push_eq]
    by_cases hb : new.priority.buffer = b
    · subst hb
      rw [buffer_setBuffer, h.buffers, filter_cons_of_pos (by simp)]
      rfl
    · rw [buffer_setBuffer_of_ne _ (Ne.symm hb), h.buffers, filter_cons_of_neg (by simpa using hb),
        filter_nil, append_nil]
      rfl

/-- The queue returns the commands `out` and keeps the others. -/
theorem Fifo.remove (h : s.Fifo) {out : List Command} {q : ControllerQueue} (hout : out.Nodup)
    (hmem : ∀ cmd ∈ out, cmd ∈ s.backlog)
    (hq : ∀ b, q.buffer b = (s.queue.buffer b).filter fun c => c ∉ out) :
    Fifo { s with queue := q, returned := s.returned ++ out } := by
  refine ⟨h.numbered, ?_, fun cmd hcmd => ?_, fun b => ?_⟩
  · refine h.fresh.append hout fun cmd hcmd hnew => ?_
    exact (mem_backlog.mp (hmem cmd hnew)).2 hcmd
  · rcases mem_append.mp hcmd with hold | hnew
    · exact h.known cmd hold
    · exact (mem_backlog.mp (hmem cmd hnew)).1
  · rw [hq, h.buffers]
    simp only [waiting, backlog, filter_filter]
    refine filter_congr fun cmd _ => ?_
    simp only [mem_append, Bool.decide_or, decide_not]
    cases decide (cmd ∈ out) <;> cases decide (cmd ∈ s.returned) <;> simp

/-- One command leaves its buffer. -/
theorem Fifo.removeOne (h : s.Fifo) {b : Buffer} {i : ℕ} {cmd : Command}
    (hi : (s.queue.buffer b)[i]? = some cmd) :
    Fifo { s with
      queue := s.queue.setBuffer b ((s.queue.buffer b).eraseIdx i)
      returned := s.returned ++ [cmd] } := by
  obtain ⟨hlt, hget⟩ := List.getElem?_eq_some_iff.mp hi
  have hmem : cmd ∈ s.queue.buffer b := mem_of_getElem? hi
  refine h.remove (nodup_singleton cmd) (fun c hc => ?_) fun b' => ?_
  · rw [mem_singleton.mp hc]
    exact (h.mem_buffer.mp hmem).1
  · by_cases hb : b' = b
    · subst hb
      have herase := (h.nodup_buffer b').erase_getElem i hlt
      rw [buffer_setBuffer, ← herase, hget, (h.nodup_buffer b').erase_eq_filter]
      exact filter_congr fun c _ => by rw [Bool.eq_iff_iff]; simp
    · rw [buffer_setBuffer_of_ne _ hb]
      refine (filter_eq_self.mpr fun c hc => ?_).symm
      have hclass := (h.mem_buffer.mp hc).2
      have hcmd := (h.mem_buffer.mp hmem).2
      rw [decide_eq_true_iff, mem_singleton]
      rintro rfl
      exact hb (hclass.symm.trans hcmd)

theorem Fifo.popNext (h : s.Fifo) (fwMode syncMode : Bool) :
    (s.step (.popNext fwMode syncMode)).Fifo := by
  cases hpop : s.queue.popNext fwMode syncMode with
  | mk popped q =>
      simp only [step, hpop]
      cases popped with
      | none =>
          rw [popNext_none hpop, Option.toList_none, append_nil]
          exact h
      | some cmd =>
          obtain ⟨b, rest, hb, rfl⟩ := popNext_some hpop
          have hrest : rest = (s.queue.buffer b).eraseIdx 0 := by rw [hb, eraseIdx_zero, tail_cons]
          rw [hrest]
          exact h.removeOne (by rw [hb]; rfl)

theorem Fifo.dropOldest (h : s.Fifo) : (s.step .dropOldest).Fifo := by
  cases hdrop : s.queue.dropOldest with
  | mk dropped q =>
      simp only [step, hdrop]
      cases dropped with
      | none =>
          rw [dropOldest_none hdrop, Option.toList_none, append_nil]
          exact h
      | some cmd =>
          obtain ⟨b, i, hi, rfl⟩ := dropOldest_some hdrop
          exact h.removeOne hi

theorem Fifo.drainExpired (h : s.Fifo) (now : Time) : (s.step (.drainExpired now)).Fifo := by
  have hout : (s.queue.drainExpired now).1 = s.queue.snapshot.filter fun c => c.expired now :=
    drainExpired_fst s.queue now
  have hstep : s.step (.drainExpired now) =
      { s with
        queue := (s.queue.drainExpired now).2
        returned := s.returned ++ (s.queue.drainExpired now).1 } := rfl
  rw [hstep]
  refine h.remove ?_ (fun cmd hcmd => ?_) fun b => ?_
  · rw [hout]
    exact (h.snapshot_perm.nodup_iff.mpr (h.distinct.filter _)).filter _
  · rw [hout] at hcmd
    exact h.snapshot_perm.mem_iff.mp (mem_of_mem_filter hcmd)
  · rw [drainExpired_buffer]
    refine filter_congr fun cmd hcmd => ?_
    have hmem : cmd ∈ s.queue.snapshot := mem_snapshot.mpr ⟨b, hcmd⟩
    simp [hout, hmem]

theorem Fifo.reload (h : s.Fifo) : (s.step .reload).Fifo := by
  have hsame : s.step .reload = s := by
    simp only [step, restore_snapshot h.sorted]
  rw [hsame]
  exact h

theorem Fifo.step (h : s.Fifo) (op : Op) : (s.step op).Fifo := by
  cases op with
  | push cmd => exact h.push cmd
  | popNext fwMode syncMode => exact h.popNext fwMode syncMode
  | drainExpired now => exact h.drainExpired now
  | dropOldest => exact h.dropOldest
  | reload => exact h.reload

theorem fifo_run (ops : List Op) : (run ops).Fifo := by
  have hfold : ∀ (ops : List Op) (s : History), s.Fifo → (ops.foldl step s).Fifo := by
    intro ops
    induction ops with
    | nil => exact fun _ h => h
    | cons op ops ih => exact fun s h => ih (s.step op) (h.step op)
  refine hfold ops {} ⟨rfl, nodup_nil, by simp, fun b => ?_⟩
  cases b <;> rfl

/-! ## What a queue with a history does -/

/-- Nothing is lost or returned twice, each buffer is the waiting part of its class, and the
operations return what the backlog says. -/
structure Queues (s : History) : Prop where
  distinct : s.pushed.Nodup
  conserved : s.pushed ~ s.returned ++ s.queue.snapshot
  buffers : ∀ b, s.queue.buffer b = s.waiting b
  popNext : ∀ fwMode syncMode, (s.queue.popNext fwMode syncMode).1 =
    (eligible fwMode syncMode).findSome? fun b => (s.waiting b).head?
  drained : ∀ now, (s.queue.drainExpired now).1 =
    [Buffer.high, .fw, .sync, .query].flatMap fun b => (s.waiting b).filter fun c => c.expired now
  kept : ∀ now b, (s.queue.drainExpired now).2.buffer b =
    (s.waiting b).filter fun c => !c.expired now
  reloaded : restore s.queue.snapshot = s.queue

theorem Fifo.conserved (h : s.Fifo) : s.pushed ~ s.returned ++ s.queue.snapshot := by
  have hreturned : s.returned ~ s.pushed.filter fun c => c ∈ s.returned := by
    refine (perm_ext_iff_of_nodup h.fresh (h.distinct.filter _)).mpr fun cmd => ?_
    simp only [mem_filter, decide_eq_true_iff]
    exact ⟨fun hcmd => ⟨h.known cmd hcmd, hcmd⟩, fun hcmd => hcmd.2⟩
  have hsplit := filter_append_perm (fun c => decide (c ∈ s.returned)) s.pushed
  simp only [← decide_not] at hsplit
  exact hsplit.symm.trans (hreturned.symm.append h.snapshot_perm.symm)

/-- After any operations on an empty queue. -/
theorem queues_run (ops : List Op) : (run ops).Queues := by
  have h := fifo_run ops
  refine ⟨h.distinct, h.conserved, h.buffers, fun fwMode syncMode => ?_, fun now => ?_,
    fun now b => ?_, restore_snapshot h.sorted⟩
  · simp only [popNext_fst, h.buffers]
  · rw [drainExpired_fst]
    have hparts : (run ops).queue.snapshot =
        [Buffer.high, .fw, .sync, .query].flatMap (run ops).queue.buffer := by
      simp [snapshot, buffer]
    rw [hparts, filter_flatMap]
    simp only [h.buffers]
  · rw [drainExpired_buffer, h.buffers]

end History

end TcpAdapter.Queue
