import Mathlib.Data.List.Nodup
import TcpAdapter.Model.Session
import TcpAdapter.Verification.Queue

/-! # Manager methods and the commands of a session

`Keeps` says that a method left the queue and the in-flight table alone, and what it did
to the store. `Steady` adds the sequence counter and the modes. -/

namespace TcpAdapter.Manager

open List TcpAdapter.Queue
open TcpAdapter.Protocol (FrameMode)

/-! ## The in-flight table -/

theorem mem_allSeqs (seq : UInt8) : seq ∈ allSeqs := by
  refine mem_map.mpr ⟨seq.toNat, ?_, UInt8.ofNat_toNat⟩
  exact mem_range.mpr seq.toNat_lt

theorem allSeqs_nodup : allSeqs.Nodup := by
  refine Nodup.map_on ?_ nodup_range
  intro x hx y hy hxy
  have hnat := congrArg UInt8.toNat hxy
  simpa [UInt8.toNat_ofNat', Nat.mod_eq_of_lt (mem_range.mp hx),
    Nat.mod_eq_of_lt (mem_range.mp hy)] using hnat

/-- Setting one key puts its value in front of the others. -/
theorem filterMap_update_perm {α : Type} (m : UInt8 → Option α) (seq : UInt8) (v : Option α) :
    allSeqs.filterMap (Function.update m seq v) ~
      v.toList ++ allSeqs.filterMap (Function.update m seq none) := by
  obtain ⟨front, back, hsplit⟩ := append_of_mem (mem_allSeqs seq)
  have hnodup := allSeqs_nodup
  rw [hsplit, nodup_append, nodup_cons] at hnodup
  obtain ⟨-, ⟨hback, -⟩, hdisjoint⟩ := hnodup
  have hfront : seq ∉ front := fun h => hdisjoint seq h seq (by simp) rfl
  have hsame : ∀ l : List UInt8, seq ∉ l → ∀ u : Option α,
      l.filterMap (Function.update m seq u) = l.filterMap m := by
    intro l hl u
    apply filterMap_congr
    intro s hs
    have hne : s ≠ seq := fun h => hl (h ▸ hs)
    exact Function.update_of_ne hne u m
  simp only [hsplit, filterMap_append, filterMap_cons, Function.update_self,
    hsame front hfront, hsame back hback]
  cases v with
  | none => simp
  | some e => simp [perm_middle]

namespace InFlight

theorem entries_update_perm (m : InFlight) (seq : UInt8) (v : Option InFlightEntry) :
    (InFlight.entries (Function.update m seq v)) ~
      v.toList ++ InFlight.entries (Function.update m seq none) :=
  filterMap_update_perm m seq v

theorem entries_insert_perm {m : InFlight} {seq : UInt8} (h : m seq = none)
    (e : InFlightEntry) : InFlight.entries (Function.update m seq (some e)) ~ e :: m.entries := by
  have hm : Function.update m seq none = m := by
    rw [← h, Function.update_eq_self]
  simpa [hm] using entries_update_perm m seq (some e)

theorem entries_erase_perm {m : InFlight} {seq : UInt8} {e : InFlightEntry}
    (h : m seq = some e) : m.entries ~ e :: InFlight.entries (Function.update m seq none) := by
  have hm : Function.update m seq (some e) = m := by
    rw [← h, Function.update_eq_self]
  simpa [hm] using entries_update_perm m seq (some e)

theorem mem_entries {m : InFlight} {e : InFlightEntry} :
    e ∈ m.entries ↔ ∃ seq, m seq = some e := by
  simp [entries, mem_allSeqs]

/-- Overwriting an entry loses it. -/
theorem entries_insert_countP_le (m : InFlight) (seq : UInt8) (e : InFlightEntry)
    (p : InFlightEntry → Bool) :
    (InFlight.entries (Function.update m seq (some e))).countP p ≤
      [e].countP p + m.entries.countP p := by
  rw [(entries_update_perm m seq (some e)).countP_eq, countP_append]
  have hle : (InFlight.entries (Function.update m seq none)).countP p ≤ m.entries.countP p := by
    cases h : m seq with
    | none => exact Nat.le_of_eq (by rw [← h, Function.update_eq_self])
    | some old =>
        rw [(entries_erase_perm h).countP_eq, countP_cons]
        exact Nat.le_add_right _ _
  exact Nat.add_le_add_left hle _

theorem count_eq_zero {m : InFlight} (h : m.count = 0) (seq : UInt8) : m seq = none := by
  cases hm : m seq with
  | none => rfl
  | some e =>
      have hmem : e ∈ m.entries := mem_entries.mpr ⟨seq, hm⟩
      rw [List.length_eq_zero_iff.mp h] at hmem
      cases hmem

theorem count_le {m m' : InFlight} (h : ∀ seq, m seq = none → m' seq = none) :
    m'.count ≤ m.count := by
  simp only [count, entries, length_filterMap_eq_countP]
  refine countP_mono_left fun seq _ hsome => ?_
  cases hm : m seq with
  | some e => rfl
  | none =>
      rw [h seq hm] at hsome
      cases hsome

theorem count_insert {m : InFlight} (h : ∀ seq, m seq = none) (seq : UInt8) (e : InFlightEntry) :
    InFlight.count (Function.update m seq (some e)) = 1 := by
  have hempty : m.entries = [] := by
    simp [entries, h]
  rw [count, (entries_insert_perm (h seq) e).length_eq, hempty]
  rfl

end InFlight

theorem restoreInFlight_countP_le (entries : List InFlightSnapshot) (p : Command → Bool) :
    (restoreInFlight entries).entries.countP (fun e => p e.command) ≤
      entries.countP fun v => p v.command := by
  have hfold : ∀ (entries : List InFlightSnapshot) (m : InFlight),
      (InFlight.entries (entries.foldl (fun m v =>
        Function.update m v.seq (some ⟨v.seq, v.command, v.sentAt, v.attempts⟩)) m)).countP
          (fun e => p e.command) ≤
        m.entries.countP (fun e => p e.command) + entries.countP fun v => p v.command := by
    intro entries
    induction entries with
    | nil => simp
    | cons v entries ih =>
        intro m
        have hrest := ih
          (Function.update m v.seq (some ⟨v.seq, v.command, v.sentAt, v.attempts⟩))
        have hstep := InFlight.entries_insert_countP_le m v.seq
          ⟨v.seq, v.command, v.sentAt, v.attempts⟩ fun e => p e.command
        simp only [countP_cons, countP_nil, foldl_cons] at hstep ⊢
        omega
  have hempty : (InFlight.entries fun _ => none) = [] := by
    simp [InFlight.entries]
  simpa [restoreInFlight, hempty] using hfold entries fun _ => none

/-! ## 64-bit arithmetic -/

theorem int64_eq {x : Int} (hlow : -2 ^ 63 ≤ x) (hhigh : x < 2 ^ 63) : int64 x = x := by
  simp only [int64, Int.bmod_def]
  omega

theorem int64_lt (x : Int) : int64 x < 2 ^ 63 := by
  simp only [int64, Int.bmod_def]
  omega

theorem int64_le {x : Int} (h : 0 ≤ x) : int64 x ≤ x := by
  simp only [int64, Int.bmod_def]
  omega

/-! ## Ack timeouts -/

/-- An outcome is about the command of the entry. A retry changes it, and then it has been sent no
more often than it may be sent again. -/
theorem inFlightOutcome_some {policy : DeliveryPolicy} {now : Time} {seq : UInt8}
    {entry : InFlightEntry} {out : InFlightOutcome}
    (h : inFlightOutcome policy now seq entry = some out) :
    (out.type = .retrying ∧ out.seq = seq ∧
      out.command = { entry.command with attempts := entry.attempts, retrySeq := seq } ∧
      entry.attempts ≤ retryLimit policy) ∨
    (out.type ≠ .retrying ∧ out.command = entry.command) := by
  unfold inFlightOutcome at h
  dsimp only at h
  split at h
  · cases h
  · split at h
    · cases h
      exact .inr ⟨by simp, rfl⟩
    · split at h
      · split at h
        · cases h
        · cases h
          exact .inr ⟨by simp, rfl⟩
      · rename_i hleft
        cases h
        have hlimit : 0 ≤ retryLimit policy + 1 := by
          rw [retryLimit]
          split <;> omega
        have hwrap := int64_le hlimit
        exact .inl ⟨rfl, rfl, rfl, by omega⟩

theorem inFlightOutcome_seq {policy : DeliveryPolicy} {now : Time} {seq : UInt8}
    {entry : InFlightEntry} {out : InFlightOutcome}
    (h : inFlightOutcome policy now seq entry = some out) : out.seq = seq := by
  simp only [inFlightOutcome] at h
  grind

/-- A visited entry stays, goes back to the queue, or is taken out. -/
theorem Session.visitInFlight_some {policy : Command → DeliveryPolicy} {now : Time}
    {seq : UInt8} {s s' : Session} {out : InFlightOutcome}
    (h : s.visitInFlight policy now seq = (s', some out)) :
    ∃ entry, s.inFlight seq = some entry ∧
      inFlightOutcome (policy entry.command) now seq entry = some out ∧
      ((out.type = .retrying ∧
        out.command = { entry.command with attempts := entry.attempts, retrySeq := seq } ∧
        s' = { s with
          inFlight := Function.update s.inFlight seq none
          queue := s.queue.push out.command }) ∨
      (out.type ≠ .retrying ∧ out.command = entry.command ∧
        s' = { s with inFlight := Function.update s.inFlight seq none })) := by
  unfold Session.visitInFlight at h
  split at h
  · cases h
  · rename_i entry hentry
    refine ⟨entry, hentry, ?_⟩
    split at h
    · cases h
    · rename_i o ho
      rcases inFlightOutcome_some ho with ⟨htype, -, hcmd, -⟩ | ⟨htype, hcmd⟩
      · simp only [htype] at h
        cases h
        exact ⟨ho, .inl ⟨htype, hcmd, rfl⟩⟩
      · split at h
        · rename_i hretry
          exact absurd hretry htype
        · cases h
          exact ⟨ho, .inr ⟨htype, hcmd, rfl⟩⟩

/-! ## Manager methods -/

namespace Slot

theorem inFlightCount_eq (m : Slot) : m.inFlightCount = m.inFlight.count := by
  cases hs : m.session with
  | none => simp [inFlightCount, inFlight, hs, InFlight.count, InFlight.entries]
  | some s => simp [inFlightCount, inFlight, hs]

/-- What a method did to the store: nothing, or it saved the session. -/
def Stored (m m' : Slot) : Prop :=
  (m'.saves = m.saves ∧ m'.saved = m.saved) ∨
    (m'.saves = m.saves + 1 ∧ ∃ s, m'.session = some s ∧ m'.saved = some s.snapshot)

structure Keeps (m m' : Slot) : Prop where
  queue : m'.queue = m.queue
  inFlight : m'.inFlight = m.inFlight
  session : m.session.isSome → m'.session.isSome
  stored : m.Stored m'

structure Steady (m m' : Slot) : Prop extends m.Keeps m' where
  nextSeq : m'.nextSeq = m.nextSeq
  fwMode : m'.fwMode = m.fwMode
  syncMode : m'.syncMode = m.syncMode

theorem Steady.refl (m : Slot) : m.Steady m :=
  ⟨⟨rfl, rfl, id, .inl ⟨rfl, rfl⟩⟩, rfl, rfl, rfl⟩

theorem persistLocked_stored (m : Slot) (s : Session) (save : Option Error) :
    m.Stored (m.persistLocked s save).1 := by
  cases save with
  | none => exact .inr ⟨rfl, s, rfl, rfl⟩
  | some err => exact .inl ⟨rfl, rfl⟩

@[simp] theorem persistLocked_session (m : Slot) (s : Session) (save : Option Error) :
    (m.persistLocked s save).1.session = some s := by
  cases save <;> rfl

@[simp] theorem persistLocked_error (m : Slot) (s : Session) (save : Option Error) :
    (m.persistLocked s save).2 = save := by
  cases save <;> rfl

/-- A save of a session with the same commands. -/
theorem persistLocked_keeps {m : Slot} {s s' : Session} (hs : m.session = some s)
    (hqueue : s'.queue = s.queue) (hinFlight : s'.inFlight = s.inFlight)
    (save : Option Error) : m.Keeps (m.persistLocked s' save).1 where
  queue := by simp [Slot.queue, hs, hqueue]
  inFlight := by simp [Slot.inFlight, hs, hinFlight]
  session := by simp
  stored := persistLocked_stored m s' save

theorem persistLocked_steady {m : Slot} {s s' : Session} (hs : m.session = some s)
    (hqueue : s'.queue = s.queue) (hinFlight : s'.inFlight = s.inFlight)
    (hseq : s'.nextSeq = s.nextSeq) (hfw : s'.fwMode = s.fwMode)
    (hsync : s'.syncMode = s.syncMode) (save : Option Error) :
    m.Steady (m.persistLocked s' save).1 where
  toKeeps := persistLocked_keeps hs hqueue hinFlight save
  nextSeq := by simp [Slot.nextSeq, hs, hseq]
  fwMode := by simp [Slot.fwMode, hs, hfw]
  syncMode := by simp [Slot.syncMode, hs, hsync]

/-- A change of the session in memory that touches neither commands, counter nor modes. -/
theorem session_steady {m : Slot} {s s' : Session} (hs : m.session = some s)
    (hqueue : s'.queue = s.queue) (hinFlight : s'.inFlight = s.inFlight)
    (hseq : s'.nextSeq = s.nextSeq) (hfw : s'.fwMode = s.fwMode)
    (hsync : s'.syncMode = s.syncMode) : m.Steady { m with session := some s' } where
  queue := by simp [Slot.queue, hs, hqueue]
  inFlight := by simp [Slot.inFlight, hs, hinFlight]
  session := by simp
  stored := .inl ⟨rfl, rfl⟩
  nextSeq := by simp [Slot.nextSeq, hs, hseq]
  fwMode := by simp [Slot.fwMode, hs, hfw]
  syncMode := by simp [Slot.syncMode, hs, hsync]

/-- A session that starts empty stands in for one that is not there. -/
theorem insertNew_steady {m : Slot} (hs : m.session = none) (controllerID : String)
    (conn : Option ConnID) (now : Time) (save : Option Error) :
    m.Steady (m.insertNew (Session.new controllerID conn now) save).1 := by
  cases save with
  | none =>
      refine ⟨⟨?_, ?_, ?_, .inr ⟨rfl, _, rfl, rfl⟩⟩, ?_, ?_, ?_⟩ <;>
        simp [insertNew, persistLocked, Slot.queue, Slot.inFlight, Slot.nextSeq, Slot.fwMode,
          Slot.syncMode, Session.new, hs]
  | some err =>
      refine ⟨⟨?_, ?_, ?_, .inl ⟨rfl, rfl⟩⟩, ?_, ?_, ?_⟩ <;>
        simp [insertNew, persistLocked, Slot.queue, Slot.inFlight, Slot.nextSeq, Slot.fwMode,
          Slot.syncMode, hs]

theorem create_steady (m : Slot) (maxConns online : Int) (controllerID : String)
    (conn : ConnID) (now : Time) (save : Option Error) :
    m.Steady (create maxConns online controllerID m conn now save).1 := by
  unfold create
  split
  · rename_i s hs
    split
    · exact .refl m
    · cases save with
      | none =>
          change m.Steady (m.persistLocked (s.attach conn now) none).1
          apply persistLocked_steady hs <;> rfl
      | some err => apply session_steady hs <;> rfl
  · rename_i hs
    split
    · exact .refl m
    · exact insertNew_steady hs controllerID (some conn) now save

theorem ensureSession_steady (m : Slot) (controllerID : String) (now : Time)
    (save : Option Error) : m.Steady (ensureSession controllerID m now save).1 := by
  unfold ensureSession
  split
  · exact .refl m
  · rename_i hs
    exact insertNew_steady hs controllerID none now save

/-- A method that saves a changed session, if there is one. -/
theorem save_steady {m : Slot} {f : Session → Session} {res : Slot × Option Error}
    (hres : res = match m.session with
      | some s => m.persistLocked (f s) save
      | none => (m, none))
    (hqueue : ∀ s, (f s).queue = s.queue) (hinFlight : ∀ s, (f s).inFlight = s.inFlight)
    (hseq : ∀ s, (f s).nextSeq = s.nextSeq) (hfw : ∀ s, (f s).fwMode = s.fwMode)
    (hsync : ∀ s, (f s).syncMode = s.syncMode) : m.Steady res.1 := by
  subst hres
  split
  · rename_i s hs
    exact persistLocked_steady hs (hqueue s) (hinFlight s) (hseq s) (hfw s) (hsync s) save
  · exact .refl m

theorem markOffline_steady (m : Slot) (now : Time) (save : Option Error) :
    m.Steady (m.markOffline now save).1 :=
  save_steady (f := fun s => { s with conn := none, lastSeen := now }) rfl
    (fun _ => rfl) (fun _ => rfl) (fun _ => rfl) (fun _ => rfl) (fun _ => rfl)

theorem ackSent_steady (m : Slot) (save : Option Error) : m.Steady (m.ackSent save).1 :=
  save_steady (f := id) rfl
    (fun _ => rfl) (fun _ => rfl) (fun _ => rfl) (fun _ => rfl) (fun _ => rfl)

theorem touch_steady (m : Slot) (now : Time) (save : Option Error) :
    m.Steady (m.touch now save) := by
  unfold touch
  split
  · rename_i s hs
    split
    · apply session_steady hs <;> rfl
    · apply persistLocked_steady hs <;> rfl
  · exact .refl m

theorem updateBufferFree_steady (m : Slot) (free : Int) : m.Steady (m.updateBufferFree free) := by
  unfold updateBufferFree
  split
  · rename_i s hs
    apply session_steady hs <;> rfl
  · exact .refl m

theorem setFrameMode_steady (m : Slot) (mode : FrameMode) : m.Steady (m.setFrameMode mode) := by
  unfold setFrameMode
  split
  · rename_i s hs
    apply session_steady hs <;> rfl
  · exact .refl m

end Slot

end TcpAdapter.Manager
