import TcpAdapter.Model.Restore
import TcpAdapter.Verification.Delivery.QueueMoves

/-! # A session survives a save and a restore

Saving flattens the four buffers and the in-flight table, and `Restore` builds them again from
the class of each command and the number of each entry. Nothing is lost because every
operation keeps each command in the buffer of its class and each entry under its own number. -/

namespace TcpAdapter.Delivery

open TcpAdapter.Concurrent TcpAdapter.Queue TcpAdapter.Protocol TcpAdapter.Manager
open TcpAdapter.Policy

/-! ## Reachable sessions -/

/-- A method of the queue, called on the queue itself. -/
inductive QueueCall : ControllerQueue → ControllerQueue → Prop where
  | push (q : ControllerQueue) (cmd : Command) : QueueCall q (q.push cmd)
  | popNext (q : ControllerQueue) (fwMode syncMode : Bool) :
      QueueCall q (q.popNext fwMode syncMode).2
  | drainExpired (q : ControllerQueue) (now : Time) : QueueCall q (q.drainExpired now).2
  | dropOldest (q : ControllerQueue) : QueueCall q q.dropOldest.2
  | restore (q : ControllerQueue) (cmds : List Command) :
      QueueCall q (ControllerQueue.restore cmds)

/-- The worlds that any calls, by anybody and in any order, can lead to: the steps of the
manager's methods with any arguments and under any configuration, the methods of the queue,
`Delete`, and a `Restore` that finds any row. -/
inductive Reached (id : String) : World → Prop where
  | fresh : Reached id {}
  | act {w w' : World} {cfg : Config} {tid : ℕ} {a : Act} {inp : Input} {r : a.Res}
      (hexec : exec cfg id tid w a inp = some (w', r)) (h : Reached id w) : Reached id w'
  | queue {w : World} {q : ControllerQueue} (hcall : QueueCall w.queue q) (h : Reached id w) :
      Reached id (w.setQueue q)
  | delete {w : World} (h : Reached id w) : Reached id { w with slot := {} }
  | restore {w : World} (snap : SessionSnapshot) (h : Reached id w) :
      Reached id (w.setSession snap.restore)

/-- Every command in the buffer of its class, every entry under its own number. -/
structure Filed (w : World) : Prop where
  queue : Sorted w.queue
  inFlight : ∀ seq entry, w.inFlight seq = some entry → entry.seq = seq

theorem sorted_empty : Sorted {} := by
  intro b cmd hcmd
  cases b <;> cases hcmd

theorem Sorted.restore (cmds : List Command) : Sorted (ControllerQueue.restore cmds) := by
  intro b cmd hcmd
  rw [ControllerQueue.restore_buffer, List.mem_filter] at hcmd
  simpa using hcmd.2

/-- The methods that return a command leave the queue alone if they return none. -/
theorem QueueCall.sorted {q q' : ControllerQueue} (hcall : QueueCall q q') (h : Sorted q) :
    Sorted q' := by
  cases hcall with
  | push cmd => exact h.push cmd
  | popNext fwMode syncMode =>
      cases hpop : q.popNext fwMode syncMode with
      | mk cmd rest =>
          cases cmd with
          | none => exact ControllerQueue.popNext_none hpop ▸ h
          | some cmd => exact h.popped hpop
  | drainExpired now => exact h.drained now
  | dropOldest =>
      cases hdrop : q.dropOldest with
      | mk cmd rest =>
          cases cmd with
          | none => exact ControllerQueue.dropOldest_none hdrop ▸ h
          | some cmd => exact h.evicted hdrop
  | restore cmds => exact .restore cmds

section InFlight

variable {entries : List InFlightSnapshot} {seq : UInt8}

/-- One round of the loop over the entries of a snapshot. -/
def putEntry (m : InFlight) (v : InFlightSnapshot) : InFlight :=
  Function.update m v.seq (some ⟨v.seq, v.command, v.sentAt, v.attempts⟩)

theorem foldl_putEntry_eq_some {m : InFlight} {e : InFlightEntry}
    (h : entries.foldl putEntry m seq = some e) :
    m seq = some e ∨
      ∃ v ∈ entries, v.seq = seq ∧ e = ⟨v.seq, v.command, v.sentAt, v.attempts⟩ := by
  induction entries generalizing m with
  | nil => exact .inl h
  | cons v entries ih =>
      obtain hm | ⟨u, hu, hrest⟩ := ih h
      · by_cases heq : seq = v.seq
        · subst heq
          rw [putEntry, Function.update_self] at hm
          exact .inr ⟨v, List.mem_cons_self, rfl, (Option.some.inj hm).symm⟩
        · rw [putEntry, Function.update_of_ne heq] at hm
          exact .inl hm
      · exact .inr ⟨u, List.mem_cons_of_mem _ hu, hrest⟩

theorem foldl_putEntry_eq_none {m : InFlight} (h : entries.foldl putEntry m seq = none) :
    m seq = none ∧ ∀ v ∈ entries, v.seq ≠ seq := by
  induction entries generalizing m with
  | nil => exact ⟨h, by simp⟩
  | cons v entries ih =>
      obtain ⟨hm, hrest⟩ := ih h
      have hne : v.seq ≠ seq := by
        rintro rfl
        rw [putEntry, Function.update_self] at hm
        cases hm
      rw [putEntry, Function.update_of_ne hne.symm] at hm
      exact ⟨hm, List.forall_mem_cons.mpr ⟨hne, hrest⟩⟩

/-- An entry of a restored table stems from the snapshot and stands under its own number. -/
theorem restoreInFlight_eq_some {e : InFlightEntry} (h : restoreInFlight entries seq = some e) :
    e.seq = seq ∧ (⟨e.seq, e.command, e.sentAt, e.attempts⟩ : InFlightSnapshot) ∈ entries := by
  obtain hm | ⟨v, hv, rfl, rfl⟩ := foldl_putEntry_eq_some h
  · cases hm
  · exact ⟨rfl, hv⟩

/-- Flattening a table in any order and building it again changes nothing. -/
theorem restoreInFlight_entries {m : InFlight} {es : List InFlightEntry}
    (hm : ∀ seq e, m seq = some e → e.seq = seq) (hes : es.Perm m.entries) :
    restoreInFlight (es.map fun e => ⟨e.seq, e.command, e.sentAt, e.attempts⟩) = m := by
  have hmem : ∀ e, e ∈ es ↔ m e.seq = some e := by
    intro e
    rw [hes.mem_iff, InFlight.mem_entries]
    refine ⟨fun ⟨seq, hseq⟩ => ?_, fun h => ⟨_, h⟩⟩
    rwa [hm seq e hseq]
  funext seq
  cases hrestored : restoreInFlight (es.map fun e => ⟨e.seq, e.command, e.sentAt, e.attempts⟩) seq with
  | some e =>
      obtain ⟨rfl, hin⟩ := restoreInFlight_eq_some hrestored
      obtain ⟨e', he', heq⟩ := List.mem_map.mp hin
      have : e' = e := by
        cases e
        cases e'
        simpa using heq
      exact ((hmem e).mp (this ▸ he')).symm
  | none =>
      obtain ⟨-, hnone⟩ := foldl_putEntry_eq_none hrestored
      cases hseq : m seq with
      | none => rfl
      | some e =>
          have hown := hm seq e hseq
          have hin : e ∈ es := (hmem e).mpr (hown ▸ hseq)
          exact absurd hown (hnone _ (List.mem_map_of_mem hin))

end InFlight

theorem Reached.filed {id : String} {w : World} (h : Reached id w) : Filed w := by
  induction h with
  | fresh => exact ⟨sorted_empty, fun _ _ h => by cases h⟩
  | act hexec _ ih =>
      refine ⟨(exec_queueMove hexec).sorted ih.queue, fun seq entry hentry => ?_⟩
      obtain hold | ⟨cmd, sentAt, -, rfl⟩ := exec_inFlight_some hexec hentry
      · exact ih.inFlight seq entry hold
      · rfl
  | @queue w q hcall _ ih =>
      refine ⟨?_, fun seq entry hentry => ?_⟩
      · obtain hset | hset := setQueue_queue_cases w q
        · rw [hset]
          exact hcall.sorted ih.queue
        · rw [hset]
          exact ih.queue
      · rw [World.inFlight, World.setQueue, Slot.setQueue_inFlight] at hentry
        exact ih.inFlight seq entry hentry
  | delete _ _ => exact ⟨sorted_empty, fun _ _ h => by cases h⟩
  | restore snap _ _ =>
      exact ⟨Sorted.restore snap.pending, fun _ _ h => (restoreInFlight_eq_some h).1⟩

/-! ## One session -/

/-- What a restored session has in common with the one that was saved. -/
structure Survives (s s' : Session) : Prop where
  queue : ∀ b, s'.queue.buffer b = s.queue.buffer b
  inFlight : s'.inFlight = s.inFlight
  nextSeq : s'.nextSeq = s.nextSeq
  fwMode : s'.fwMode = s.fwMode
  syncMode : s'.syncMode = s.syncMode
  bufferFree : s'.bufferFree = s.bufferFree

theorem Filed.survives {w : World} {s : Session} {snap : SessionSnapshot} (hw : Filed w)
    (hs : w.session = some s) (hflat : s.Flattens snap) (hfree : 0 < s.bufferFree) :
    Survives s snap.restore := by
  obtain ⟨entries, hperm, rfl⟩ := hflat
  have hslot : w.slot.session = some s := hs
  have hqueue : w.queue = s.queue := by simp [World.queue, Slot.queue, hslot]
  have hinFlight : w.inFlight = s.inFlight := by simp [World.inFlight, Slot.inFlight, hslot]
  have hsorted : ControllerQueue.restore s.queue.snapshot = s.queue :=
    ControllerQueue.restore_snapshot (hqueue ▸ hw.queue)
  refine ⟨fun b => congrArg (·.buffer b) hsorted, ?_, rfl, rfl, rfl, ?_⟩
  · exact restoreInFlight_entries (hinFlight ▸ hw.inFlight) hperm
  · exact if_neg (Int.not_le.mpr hfree)

/-! ## All sessions -/

section Rows

variable {ss : List Session} {st : Store} {rows : List SessionSnapshot} {m : Sessions × ℕ}

theorem flattens_controllerID {s : Session} {snap : SessionSnapshot} (h : s.Flattens snap) :
    snap.controllerID = s.controllerID := by
  obtain ⟨entries, -, rfl⟩ := h
  rfl

theorem saved_row (h : Store.Saved ss st) (hids : (ss.map Session.controllerID).Nodup) :
    ∀ s ∈ ss, ∃ snap, s.Flattens snap ∧ st s.controllerID = some snap := by
  induction h with
  | nil => simp
  | @cons s ss st snap hflat _ ih =>
      rw [List.map_cons, List.nodup_cons] at hids
      have hid := flattens_controllerID hflat
      refine List.forall_mem_cons.mpr ⟨⟨snap, hflat, ?_⟩, fun s' hs' => ?_⟩
      · rw [Store.saveSession, hid, Function.update_self]
      · obtain ⟨snap', hflat', hrow⟩ := ih hids.2 s' hs'
        have hne : s'.controllerID ≠ s.controllerID :=
          fun heq => hids.1 (heq ▸ List.mem_map_of_mem hs')
        refine ⟨snap', hflat', ?_⟩
        rw [Store.saveSession, hid, Function.update_of_ne hne, hrow]

theorem saved_owner (h : Store.Saved ss st) {id : String} {snap : SessionSnapshot}
    (hrow : st id = some snap) : id ∈ ss.map Session.controllerID := by
  induction h with
  | nil => cases hrow
  | @cons s ss st snap' hflat _ ih =>
      by_cases heq : id = snap'.controllerID
      · rw [heq, flattens_controllerID hflat]
        exact List.mem_map_of_mem List.mem_cons_self
      · rw [Store.saveSession, Function.update_of_ne heq] at hrow
        exact List.mem_cons_of_mem _ (ih hrow)

/-- The rows name the controllers of the saved sessions, each once. -/
theorem rows_perm (hsaved : Store.Saved ss st) (hids : (ss.map Session.controllerID).Nodup)
    (hrows : st.Lists rows) :
    (rows.map SessionSnapshot.controllerID).Perm (ss.map Session.controllerID) := by
  refine (List.perm_ext_iff_of_nodup hrows.once hids).mpr fun id => ⟨fun h => ?_, fun h => ?_⟩
  · obtain ⟨snap, hsnap, rfl⟩ := List.mem_map.mp h
    exact saved_owner hsaved ((hrows.all _ _).mpr ⟨hsnap, rfl⟩)
  · obtain ⟨s, hs, rfl⟩ := List.mem_map.mp h
    obtain ⟨snap, -, hrow⟩ := saved_row hsaved hids s hs
    obtain ⟨hsnap, hid⟩ := (hrows.all _ _).mp hrow
    exact hid ▸ List.mem_map_of_mem hsnap

theorem foldl_load_count (rows : List SessionSnapshot) (m : Sessions × ℕ) :
    (rows.foldl Sessions.load m).2 = m.2 + rows.countP fun snap => snap.controllerID ≠ "" := by
  induction rows generalizing m with
  | nil => rfl
  | cons snap rows ih =>
      rw [List.foldl_cons, ih, Sessions.load]
      by_cases hid : snap.controllerID = ""
      · simp [hid]
      · simp [hid]
        omega

theorem foldl_load_other {id : String} (hid : id ∉ rows.map SessionSnapshot.controllerID) :
    (rows.foldl Sessions.load m).1 id = m.1 id := by
  induction rows generalizing m with
  | nil => rfl
  | cons snap rows ih =>
      rw [List.map_cons, List.mem_cons, not_or] at hid
      rw [List.foldl_cons, ih hid.2, Sessions.load]
      split
      · rfl
      · exact Function.update_of_ne hid.1 _ _

/-- Whatever the order of the rows, a row is found under its controller. -/
theorem foldl_load_row (hnodup : (rows.map SessionSnapshot.controllerID).Nodup)
    {snap : SessionSnapshot} (hsnap : snap ∈ rows) (hid : snap.controllerID ≠ "") :
    (rows.foldl Sessions.load m).1 snap.controllerID = some snap.restore := by
  induction rows generalizing m with
  | nil => cases hsnap
  | cons row rows ih =>
      rw [List.map_cons, List.nodup_cons] at hnodup
      rw [List.foldl_cons]
      obtain rfl | hrest := List.mem_cons.mp hsnap
      · rw [foldl_load_other hnodup.1, Sessions.load, if_neg hid]
        exact Function.update_self _ _ _
      · exact ih hnodup.2 hrest

end Rows

/-- Saving any sessions that were reached and running `Restore` in a fresh manager, with the
rows in any order, gives each of them back, and counts them. -/
theorem restore_gives_back (ss : List Session) (st : Store) (rows : List SessionSnapshot)
    (hreached : ∀ s ∈ ss, ∃ id w, Reached id w ∧ w.session = some s)
    (hids : (ss.map Session.controllerID).Nodup) (hsaved : Store.Saved ss st)
    (hrows : st.Lists rows) :
    (∀ s ∈ ss, s.controllerID ≠ "" → 0 < s.bufferFree →
      ∃ s', (Sessions.restore (fun _ => none) (.ok rows)).1 s.controllerID = some s' ∧
        Survives s s') ∧
    (Sessions.restore (fun _ => none) (.ok rows)).2 =
      .ok (ss.countP fun s => s.controllerID ≠ "") ∧
    ((∀ s ∈ ss, s.controllerID ≠ "" ∧ 0 < s.bufferFree) →
      (Sessions.restore (fun _ => none) (.ok rows)).2 = .ok ss.length) := by
  have hcount : (Sessions.restore (fun _ => none) (.ok rows)).2 =
      .ok (ss.countP fun s => s.controllerID ≠ "") := by
    have hperm := (rows_perm hsaved hids hrows).countP_eq fun id => id ≠ ""
    rw [List.countP_map, List.countP_map] at hperm
    exact congrArg Except.ok ((foldl_load_count rows _).trans ((Nat.zero_add _).trans hperm))
  refine ⟨fun s hs hid hfree => ?_, hcount, fun hsuch => ?_⟩
  · obtain ⟨id, w, hw, hsession⟩ := hreached s hs
    obtain ⟨snap, hflat, hrow⟩ := saved_row hsaved hids s hs
    obtain ⟨hsnap, hsame⟩ := (hrows.all _ _).mp hrow
    refine ⟨snap.restore, ?_, hw.filed.survives hsession hflat hfree⟩
    rw [← hsame] at hid ⊢
    exact foldl_load_row hrows.once hsnap hid
  · rw [hcount, List.countP_eq_length.mpr]
    exact fun s hs => by simpa using (hsuch s hs).1

/-- A session with a queued command and one in flight, as a restart may find it. -/
def busySession : Session :=
  SessionSnapshot.restore
    { controllerID := "c", lastSeen := 0, bufferFree := 100, fwMode := false, syncMode := true
      pending := [{ commandID := 5, priority := .high }]
      inFlight := [⟨7, { commandID := 8, priority := .query }, 3, 2⟩], nextSeq := 7 }

theorem busySession_restored :
    ∃ s', (Sessions.restore (fun _ => none) (.ok [busySession.snapshot])).1 "c" = some s' ∧
      Survives busySession s' := by
  have hsaved : Store.Saved [busySession] (Store.saveSession (fun _ => none) busySession.snapshot) :=
    .cons ⟨_, List.Perm.refl _, rfl⟩ .nil
  have hrows : Store.Lists (Store.saveSession (fun _ => none) busySession.snapshot)
      [busySession.snapshot] := by
    refine ⟨by simp, fun id snap => ?_⟩
    rw [Store.saveSession, Function.update_apply, List.mem_singleton]
    by_cases hid : id = busySession.snapshot.controllerID
    · rw [if_pos hid, Option.some.injEq, eq_comm]
      exact ⟨fun h => ⟨h, h ▸ hid.symm⟩, fun h => h.1⟩
    · rw [if_neg hid]
      exact ⟨nofun, fun h => absurd (h.1 ▸ h.2.symm) hid⟩
  refine (restore_gives_back [busySession] _ _ ?_ (by simp) hsaved hrows).1 busySession
    List.mem_cons_self (by decide) (by decide)
  exact List.forall_mem_singleton.mpr ⟨"c", _, .restore _ .fresh, rfl⟩

end TcpAdapter.Delivery
