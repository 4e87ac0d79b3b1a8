import Mathlib.Data.List.Count
import Mathlib.Data.List.Perm.Basic
import TcpAdapter.Model.Queue

/-! # Operations of the controller queue

Every operation is described by what it does to the buffers: `push` appends to one of
them, `popNext` takes the head of one, `dropOldest` erases one position, `drainExpired`
filters them all. What they do to the queue as a whole follows. -/

namespace TcpAdapter.Queue

open List

/-- The buffer `push` puts a command of this priority into. -/
def Priority.buffer : Priority → ControllerQueue.Buffer
  | .high => .high
  | .fw => .fw
  | .sync => .sync
  | .query | .other _ => .query

namespace ControllerQueue

def buffer (q : ControllerQueue) : Buffer → List Command
  | .high => q.high
  | .fw => q.fw
  | .sync => q.sync
  | .query => q.query

def setBuffer (q : ControllerQueue) (b : Buffer) (cmds : List Command) : ControllerQueue :=
  match b with
  | .high => { q with high := cmds }
  | .fw => { q with fw := cmds }
  | .sync => { q with sync := cmds }
  | .query => { q with query := cmds }

@[simp] theorem setBuffer_buffer (q : ControllerQueue) (b : Buffer) :
    q.setBuffer b (q.buffer b) = q := by
  cases b <;> rfl

@[simp] theorem buffer_setBuffer (q : ControllerQueue) (b : Buffer) (cmds : List Command) :
    (q.setBuffer b cmds).buffer b = cmds := by
  cases b <;> rfl

theorem buffer_setBuffer_of_ne (q : ControllerQueue) {b b' : Buffer} (h : b' ≠ b)
    (cmds : List Command) : (q.setBuffer b cmds).buffer b' = q.buffer b' := by
  cases b <;> cases b' <;> first | rfl | exact absurd rfl h

theorem mem_snapshot {q : ControllerQueue} {cmd : Command} :
    cmd ∈ q.snapshot ↔ ∃ b, cmd ∈ q.buffer b := by
  constructor
  · intro h
    simp only [snapshot, mem_append] at h
    rcases h with ((h | h) | h) | h
    · exact ⟨.high, h⟩
    · exact ⟨.fw, h⟩
    · exact ⟨.sync, h⟩
    · exact ⟨.query, h⟩
  · rintro ⟨b, h⟩
    cases b <;> simp [snapshot, buffer] at h ⊢ <;> simp [h]

/-- The rest of the queue does not depend on what one buffer holds. -/
theorem setBuffer_snapshot_perm (q : ControllerQueue) (b : Buffer) :
    ∃ rest, ∀ cmds, (q.setBuffer b cmds).snapshot ~ cmds ++ rest := by
  cases b with
  | high =>
      refine ⟨q.fw ++ q.sync ++ q.query, fun cmds => ?_⟩
      simp [setBuffer, snapshot]
  | fw =>
      refine ⟨q.high ++ q.sync ++ q.query, fun cmds => ?_⟩
      have hcomm : q.high ++ cmds ~ cmds ++ q.high := perm_append_comm
      simpa [setBuffer, snapshot] using hcomm.append_right (q.sync ++ q.query)
  | sync =>
      refine ⟨q.high ++ q.fw ++ q.query, fun cmds => ?_⟩
      have hcomm : q.high ++ q.fw ++ cmds ~ cmds ++ (q.high ++ q.fw) := perm_append_comm
      simpa [setBuffer, snapshot] using hcomm.append_right q.query
  | query =>
      refine ⟨q.high ++ q.fw ++ q.sync, fun cmds => ?_⟩
      exact perm_append_comm

/-! ## push -/

theorem push_eq (q : ControllerQueue) (cmd : Command) :
    q.push cmd =
      q.setBuffer cmd.priority.buffer (q.buffer cmd.priority.buffer ++ [cmd]) := by
  unfold push
  cases cmd.priority <;> rfl

theorem push_snapshot_perm (q : ControllerQueue) (cmd : Command) :
    (q.push cmd).snapshot ~ cmd :: q.snapshot := by
  obtain ⟨rest, hrest⟩ := setBuffer_snapshot_perm q cmd.priority.buffer
  have hq : q.snapshot ~ q.buffer cmd.priority.buffer ++ rest := by
    simpa using hrest (q.buffer cmd.priority.buffer)
  rw [push_eq]
  calc (q.setBuffer _ (q.buffer cmd.priority.buffer ++ [cmd])).snapshot
      ~ (q.buffer cmd.priority.buffer ++ [cmd]) ++ rest := hrest _
    _ ~ cmd :: (q.buffer cmd.priority.buffer ++ rest) := by
        simp [perm_middle]
    _ ~ cmd :: q.snapshot := hq.symm.cons cmd

theorem restore_snapshot_perm (cmds : List Command) : (restore cmds).snapshot ~ cmds := by
  have hfold : ∀ (cmds : List Command) (q : ControllerQueue),
      (cmds.foldl push q).snapshot ~ q.snapshot ++ cmds := by
    intro cmds
    induction cmds with
    | nil => simp
    | cons cmd cmds ih =>
        intro q
        have hpush := (push_snapshot_perm q cmd).append_right cmds
        exact (ih (q.push cmd)).trans (hpush.trans perm_middle.symm)
  exact hfold cmds {}

/-- Pushing one after the other appends to the classes. -/
theorem foldl_push_buffer (cmds : List Command) (q : ControllerQueue) (b : Buffer) :
    (cmds.foldl push q).buffer b =
      q.buffer b ++ cmds.filter fun c => c.priority.buffer = b := by
  induction cmds generalizing q with
  | nil => simp
  | cons cmd cmds ih =>
      rw [foldl_cons, ih, push_eq]
      by_cases hb : cmd.priority.buffer = b
      · subst hb
        simp
      · rw [buffer_setBuffer_of_ne _ (Ne.symm hb), filter_cons_of_neg (by simpa using hb)]

/-- A queue that is built from a list holds its commands by class. -/
theorem restore_buffer (cmds : List Command) (b : Buffer) :
    (restore cmds).buffer b = cmds.filter fun c => c.priority.buffer = b := by
  have hempty : ({} : ControllerQueue).buffer b = [] := by cases b <;> rfl
  rw [restore, foldl_push_buffer, hempty, nil_append]

theorem ext_buffer {q q' : ControllerQueue} (h : ∀ b, q.buffer b = q'.buffer b) : q = q' := by
  obtain ⟨high, fw, sync, query⟩ := q
  obtain ⟨high', fw', sync', query'⟩ := q'
  have hhigh : high = high' := h .high
  have hfw : fw = fw' := h .fw
  have hsync : sync = sync' := h .sync
  have hquery : query = query' := h .query
  subst hhigh hfw hsync hquery
  rfl

/-- Flattening a queue and building it again by class changes nothing. -/
theorem restore_snapshot {q : ControllerQueue}
    (h : ∀ b, ∀ cmd ∈ q.buffer b, cmd.priority.buffer = b) : restore q.snapshot = q := by
  refine ext_buffer fun b => ?_
  have hall : ∀ b', (q.buffer b').filter (fun c => c.priority.buffer = b) =
      if b' = b then q.buffer b' else [] := by
    intro b'
    split
    · rename_i hb
      exact filter_eq_self.mpr fun cmd hcmd => by simpa [← hb] using h b' cmd hcmd
    · rename_i hb
      refine filter_eq_nil_iff.mpr fun cmd hcmd => ?_
      simpa [h b' cmd hcmd] using hb
  have hparts : q.snapshot = q.buffer .high ++ q.buffer .fw ++ q.buffer .sync ++ q.buffer .query :=
    rfl
  rw [restore_buffer, hparts]
  simp only [filter_append, hall]
  cases b <;> simp

/-! ## popNext -/

/-- The buffers a pop may take from, in the order it looks at them. -/
def eligible (fwMode syncMode : Bool) : List Buffer :=
  if fwMode then [.high, .fw]
  else if syncMode then [.high, .sync]
  else [.high, .fw, .sync, .query]

/-- A pop takes the head of the first eligible buffer that is not empty. -/
theorem popNext_fst (q : ControllerQueue) (fwMode syncMode : Bool) :
    (q.popNext fwMode syncMode).1 =
      (eligible fwMode syncMode).findSome? fun b => (q.buffer b).head? := by
  obtain ⟨high, fw, sync, query⟩ := q
  cases fwMode <;> cases syncMode <;> cases high <;> cases fw <;> cases sync <;> cases query <;> rfl

theorem popNext_none {q q' : ControllerQueue} {fwMode syncMode : Bool}
    (h : q.popNext fwMode syncMode = (none, q')) : q' = q := by
  obtain ⟨high, fw, sync, query⟩ := q
  cases fwMode <;> cases syncMode <;> cases high <;> cases fw <;> cases sync <;> cases query <;>
    cases h <;> rfl

/-- A popped command was the head of a buffer, and nothing else changed. -/
theorem popNext_some {q q' : ControllerQueue} {fwMode syncMode : Bool} {cmd : Command}
    (h : q.popNext fwMode syncMode = (some cmd, q')) :
    ∃ b rest, q.buffer b = cmd :: rest ∧ q' = q.setBuffer b rest := by
  unfold popNext at h
  split at h
  · rename_i c rest hq
    cases h
    exact ⟨.high, rest, hq, rfl⟩
  · split at h
    · split at h
      · rename_i c rest hq
        cases h
        exact ⟨.fw, rest, hq, rfl⟩
      · cases h
    · split at h
      · split at h
        · rename_i c rest hq
          cases h
          exact ⟨.sync, rest, hq, rfl⟩
        · cases h
      · split at h
        · rename_i c rest hq
          cases h
          exact ⟨.fw, rest, hq, rfl⟩
        · split at h
          · rename_i c rest hq
            cases h
            exact ⟨.sync, rest, hq, rfl⟩
          · split at h
            · rename_i c rest hq
              cases h
              exact ⟨.query, rest, hq, rfl⟩
            · cases h

theorem popNext_snapshot_perm {q q' : ControllerQueue} {fwMode syncMode : Bool}
    {cmd : Command} (h : q.popNext fwMode syncMode = (some cmd, q')) :
    q.snapshot ~ cmd :: q'.snapshot := by
  obtain ⟨b, rest, hb, rfl⟩ := popNext_some h
  obtain ⟨others, hothers⟩ := setBuffer_snapshot_perm q b
  have hq := hothers (cmd :: rest)
  rw [← hb, setBuffer_buffer, hb] at hq
  exact hq.trans ((hothers rest).symm.cons cmd)

/-- The commands that pops can reach, in the order in which they reach them. -/
def visible (q : ControllerQueue) (fwMode syncMode : Bool) : List Command :=
  q.high ++ if fwMode then q.fw else if syncMode then q.sync else q.fw ++ q.sync ++ q.query

theorem popNext_visible {q q' : ControllerQueue} {fwMode syncMode : Bool} {cmd : Command}
    (h : q.popNext fwMode syncMode = (some cmd, q')) :
    q.visible fwMode syncMode = cmd :: q'.visible fwMode syncMode := by
  obtain ⟨high, fw, sync, query⟩ := q
  cases fwMode <;> cases syncMode <;> cases high <;> cases fw <;> cases sync <;> cases query <;>
    cases h <;> rfl

theorem visible_of_popNext_none {q q' : ControllerQueue} {fwMode syncMode : Bool}
    (h : q.popNext fwMode syncMode = (none, q')) : q.visible fwMode syncMode = [] := by
  obtain ⟨high, fw, sync, query⟩ := q
  cases fwMode <;> cases syncMode <;> cases high <;> cases fw <;> cases sync <;> cases query <;>
    cases h <;> rfl

theorem length_visible_le (q : ControllerQueue) (fwMode syncMode : Bool) :
    (q.visible fwMode syncMode).length ≤ q.len := by
  cases fwMode <;> cases syncMode <;> simp [visible, len] <;> omega

/-! ## drainExpired -/

theorem drainExpired_buffer (q : ControllerQueue) (now : Time) (b : Buffer) :
    (q.drainExpired now).2.buffer b = (q.buffer b).filter fun c => !c.expired now := by
  cases b <;> rfl

/-- The expired commands, class by class. -/
theorem drainExpired_fst (q : ControllerQueue) (now : Time) :
    (q.drainExpired now).1 = q.snapshot.filter fun c => c.expired now := by
  simp [drainExpired, drain, snapshot]

theorem drainExpired_snapshot_perm (q : ControllerQueue) (now : Time) :
    q.snapshot ~ (q.drainExpired now).1 ++ (q.drainExpired now).2.snapshot := by
  have hkept : (q.drainExpired now).2.snapshot = q.snapshot.filter fun c => !c.expired now := by
    simp [drainExpired, drain, snapshot]
  rw [drainExpired_fst, hkept]
  exact (filter_append_perm (fun c : Command => c.expired now) q.snapshot).symm

end ControllerQueue

end TcpAdapter.Queue
