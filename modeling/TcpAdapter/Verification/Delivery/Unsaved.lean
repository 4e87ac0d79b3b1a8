import TcpAdapter.Verification.Delivery.Rejections
import TcpAdapter.Verification.InFlight

/-! # What a failed save leaves behind

The methods of the manager change the session in memory and then save it. When the save fails,
some of them take the change back, others do not. -/

namespace TcpAdapter.Queue

open List

/-! ## Commands without their tickets -/

def Command.bare (cmd : Command) : Command :=
  { cmd with ticket := 0 }

def ControllerQueue.bare (q : ControllerQueue) : ControllerQueue where
  high := q.high.map Command.bare
  fw := q.fw.map Command.bare
  sync := q.sync.map Command.bare
  query := q.query.map Command.bare

namespace ControllerQueue

theorem buffer_bare (q : ControllerQueue) (b : Buffer) :
    q.bare.buffer b = (q.buffer b).map Command.bare := by
  cases b <;> rfl

/-! ## Evicting one command for another -/

theorem append_singleton_eq_cons {α : Type} {l : List α} {x c : α} :
    l ++ [c] = x :: l ↔ x = c ∧ ∀ y ∈ l, y = c := by
  induction l generalizing x with
  | nil => simp [eq_comm]
  | cons y l ih =>
      rw [cons_append, cons.injEq, ih, forall_mem_cons]
      constructor
      · rintro ⟨rfl, rfl, h⟩
        exact ⟨rfl, rfl, h⟩
      · rintro ⟨rfl, rfl, h⟩
        exact ⟨rfl, rfl, h⟩

/-- Taking an element out and appending another changes nothing exactly if all from the first on
are equal to the other. -/
theorem eraseIdx_append_eq_iff {α : Type} {l : List α} {i : ℕ} (hi : i < l.length) (c : α) :
    l.eraseIdx i ++ [c] = l ↔ ∀ x ∈ l.drop i, x = c := by
  induction l generalizing i with
  | nil => cases hi
  | cons x l ih =>
      cases i with
      | zero => simp [append_singleton_eq_cons]
      | succ i => simp [ih (Nat.lt_of_succ_lt_succ hi)]

theorem Candidate.place_eq_of_age {p p' : Candidate} (h : p.age ≤ p'.age) (h' : p'.age ≤ p.age) :
    p.buf = p'.buf ∧ p.idx = p'.idx := by
  have hplace : p.place = p'.place := congrArg (fun age => (ofLex age).2) (le_antisymm h h')
  obtain ⟨hrank, hidx⟩ := Prod.mk.inj (toLex_inj.mp hplace)
  exact ⟨Buffer.rank_inj hrank, hidx⟩

end ControllerQueue

end TcpAdapter.Queue

namespace TcpAdapter.Delivery

open List TcpAdapter.Concurrent TcpAdapter.Queue TcpAdapter.Manager TcpAdapter.Policy
open ControllerQueue (Candidate)

/-- The oldest command is evicted for one that is the same as this one and all behind it. -/
structure Reinstates (cfg : Config) (q : ControllerQueue) (cmd : Command) : Prop where
  full : ¬ Fits cfg q cmd
  room : Fits cfg (drops 1 q) cmd
  same : ∃ p : Candidate, p.InQueue q ∧ (∀ p' : Candidate, p'.InQueue q → p.age ≤ p'.age) ∧
    p.buf = cmd.priority.buffer ∧ ∀ c ∈ (q.buffer p.buf).drop p.idx, c.bare = cmd.bare

theorem len_drops (k : ℕ) (q : ControllerQueue) : (drops k q).len = q.len - k := by
  induction k generalizing q with
  | zero => rfl
  | succ k ih =>
      rw [drops, Function.iterate_succ_apply, ← drops, ih]
      cases hdrop : q.dropOldest with
      | mk dropped q' =>
          cases dropped with
          | none =>
              have hsame : q' = q := by
                rcases q.dropOldest_cases with ⟨h, -⟩ | ⟨p, -, -, h⟩
                · exact (Prod.mk.inj (hdrop.symm.trans h)).2
                · cases hdrop.symm.trans h
              have hempty := congrArg ControllerQueue.len (eq_empty_of_dropOldest hdrop)
              have hzero : q.len = 0 := hempty
              simp [hsame, hzero]
          | some c =>
              have hlen := dropOldest_len hdrop
              simp only
              omega

theorem len_push (q : ControllerQueue) (cmd : Command) : (q.push cmd).len = q.len + 1 := by
  rw [len_eq_length, len_eq_length, (ControllerQueue.push_snapshot_perm q cmd).length_eq]
  rfl

theorem buffer_push (q : ControllerQueue) (cmd : Command) (b : ControllerQueue.Buffer) :
    (q.push cmd).buffer b =
      if b = cmd.priority.buffer then q.buffer b ++ [cmd] else q.buffer b := by
  rw [ControllerQueue.push_eq]
  split
  · rename_i hb
    rw [hb, ControllerQueue.buffer_setBuffer]
  · rename_i hb
    exact ControllerQueue.buffer_setBuffer_of_ne q hb _

theorem len_bare (q : ControllerQueue) : q.bare.len = q.len := by
  simp [ControllerQueue.len, ControllerQueue.bare]

/-- Evicting one command and pushing another gives back the queue in one case only. -/
theorem evict_push_bare_iff {q : ControllerQueue} {cmd : Command} {p : Candidate}
    (hp : p.InQueue q) :
    ((q.setBuffer p.buf ((q.buffer p.buf).eraseIdx p.idx)).push cmd).bare = q.bare ↔
      p.buf = cmd.priority.buffer ∧ ∀ c ∈ (q.buffer p.buf).drop p.idx, c.bare = cmd.bare := by
  have hidx : p.idx < (q.buffer p.buf).length := (List.getElem?_eq_some_iff.mp hp).1
  have hsame : ((q.buffer p.buf).eraseIdx p.idx ++ [cmd]).map Command.bare =
      (q.buffer p.buf).map Command.bare ↔
        ∀ c ∈ (q.buffer p.buf).drop p.idx, c.bare = cmd.bare := by
    rw [map_append, ← eraseIdx_map, map_singleton,
      ControllerQueue.eraseIdx_append_eq_iff (by rwa [length_map]), ← map_drop, forall_mem_map]
  constructor
  · intro h
    have hbuf := congrArg (fun q => q.buffer p.buf) h
    simp only [ControllerQueue.buffer_bare, buffer_push, ControllerQueue.buffer_setBuffer] at hbuf
    split at hbuf
    · rename_i hb
      exact ⟨hb, hsame.mp hbuf⟩
    · have hlen := congrArg length hbuf
      rw [length_map, length_map, length_eraseIdx_of_lt hidx] at hlen
      omega
  · rintro ⟨hb, hc⟩
    refine ControllerQueue.ext_buffer fun b => ?_
    rw [ControllerQueue.buffer_bare, ControllerQueue.buffer_bare, buffer_push]
    split
    · rename_i hb'
      obtain rfl : b = p.buf := hb'.trans hb.symm
      rw [ControllerQueue.buffer_setBuffer, hsame.mpr hc]
    · rename_i hb'
      rw [ControllerQueue.buffer_setBuffer_of_ne _ (fun h => hb' (h.trans hb))]

/-- No more commands are evicted than there are. -/
theorem JustFits.le_len {cfg : Config} {q : ControllerQueue} {cmd : Command} {k : ℕ}
    (h : JustFits cfg q cmd k) : k ≤ q.len := by
  have hempty : ∀ n, q.len ≤ n → drops n q = {} := by
    intro n hn
    have hlen := len_drops n q
    rw [Nat.sub_eq_zero_of_le hn, len_eq_length, length_eq_zero_iff] at hlen
    simp only [ControllerQueue.snapshot, append_eq_nil_iff] at hlen
    obtain ⟨⟨⟨hhigh, hfw⟩, hsync⟩, hquery⟩ := hlen
    refine ControllerQueue.ext_buffer fun b => ?_
    cases b with
    | high => exact hhigh
    | fw => exact hfw
    | sync => exact hsync
    | query => exact hquery
  by_contra hlt
  have hlt := Nat.not_le.mp hlt
  have hfits := h.fits
  rw [hempty k (Nat.le_of_lt hlt), ← hempty q.len (Nat.le_refl _)] at hfits
  exact h.least q.len hlt hfits

theorem reinstates_iff {cfg : Config} {q : ControllerQueue} {cmd cmd' : Command} {k : ℕ}
    (hjust : JustFits cfg q cmd k) (hbare : cmd'.bare = cmd.bare) :
    ((drops k q).push cmd').bare = q.bare ↔ Reinstates cfg q cmd := by
  have hclass : cmd'.priority = cmd.priority :=
    show cmd'.bare.priority = cmd.bare.priority from congrArg _ hbare
  -- one command has to go for the one that comes
  have hone : k = 1 → 0 < q.len → (((drops k q).push cmd').bare = q.bare ↔
      ∃ p : Candidate, p.InQueue q ∧ (∀ p' : Candidate, p'.InQueue q → p.age ≤ p'.age) ∧
        p.buf = cmd.priority.buffer ∧ ∀ c ∈ (q.buffer p.buf).drop p.idx, c.bare = cmd.bare) := by
    rintro rfl hpos
    rcases q.dropOldest_cases with ⟨h, -⟩ | ⟨p, hp, hage, h⟩
    · rw [eq_empty_of_dropOldest h] at hpos
      cases hpos
    · have hdrops : drops 1 q = q.setBuffer p.buf ((q.buffer p.buf).eraseIdx p.idx) :=
        congrArg Prod.snd h
      rw [hdrops, evict_push_bare_iff hp, hclass, hbare]
      constructor
      · exact fun hsame => ⟨p, hp, hage, hsame⟩
      · rintro ⟨p', hp', hage', hsame⟩
        obtain ⟨hbuf, hidx⟩ := Candidate.place_eq_of_age (hage p' hp') (hage' p hp)
        rwa [hbuf, hidx]
  constructor
  · intro h
    have hlen := congrArg ControllerQueue.len h
    rw [len_bare, len_bare, len_push, len_drops] at hlen
    have hle := hjust.le_len
    obtain rfl : k = 1 := by omega
    exact ⟨hjust.least 0 Nat.one_pos, hjust.fits, (hone rfl (by omega)).mp h⟩
  · intro h
    have hk : k = 1 := by
      rcases Nat.lt_trichotomy k 1 with hlt | heq | hgt
      · obtain rfl : k = 0 := by omega
        exact absurd hjust.fits h.full
      · exact heq
      · exact absurd h.room (hjust.least 1 hgt)
    obtain ⟨p, hp, -⟩ := h.same
    have hmem : p.cmd ∈ q.snapshot := ControllerQueue.mem_snapshot.mpr
      ⟨p.buf, List.mem_of_getElem? hp⟩
    have hpos : 0 < q.len := len_eq_length q ▸ length_pos_of_mem hmem
    exact (hone hk hpos).mpr h.same

/-! ## Sessions without tickets -/

end TcpAdapter.Delivery

namespace TcpAdapter.Manager

def InFlightEntry.bare (e : InFlightEntry) : InFlightEntry :=
  { e with command := e.command.bare }

def Session.bare (s : Session) : Session :=
  { s with
    queue := s.queue.bare
    inFlight := fun seq => (s.inFlight seq).map InFlightEntry.bare }

end TcpAdapter.Manager

namespace TcpAdapter.Delivery

open List TcpAdapter.Concurrent TcpAdapter.Queue TcpAdapter.Manager TcpAdapter.Policy

/-- Errors of the store are none of the manager's own. -/
def SaveError (err : Error) : Prop :=
  ∃ msg, err = .text msg ∧ msg ≠ "max connections reached"

section methods

variable {cfg : Config} {id : String} {tid : ℕ} {w w' : World} {inp : Input} {err : Error}

/-! ## Single methods -/

/-- A new session is taken out again; an old one keeps the buffer size it was given. -/
theorem create_unsaved {conn : ConnID} (herr : SaveError err)
    (h : exec cfg id tid w (.create conn) inp = some (w', some err)) :
    w'.session = w.session.map fun s =>
      { s with bufferFree := if s.bufferFree ≤ 0 then 1500 else s.bufferFree } := by
  obtain ⟨msg, rfl, hmsg⟩ := herr
  obtain ⟨rfl, hres⟩ := Prod.mk.inj (guarded_eq_some h)
  change (w.slot.create _ _ _ _ _ _).1.session = w.slot.session.map _
  cases hs : w.slot.session with
  | none =>
      simp only [Slot.create, hs, Slot.insertNew, Slot.persistLocked] at hres ⊢
      split at hres
      · cases hres
        exact absurd rfl hmsg
      · rename_i honline
        rw [if_neg honline]
        cases hsave : inp.saveErr with
        | none => simp [hsave] at hres
        | some err => rfl
  | some s =>
      cases hconn : s.conn with
      | some _ => simp [Slot.create, hs, hconn] at hres
      | none =>
          cases hsave : inp.saveErr with
          | none => simp [Slot.create, hs, hconn, hsave, Slot.persistLocked] at hres
          | some err => simp [Slot.create, hs, hconn, Slot.persistLocked, Session.attach]

theorem setFWMode_unsaved {enabled : Bool}
    (h : exec cfg id tid w (.setFWMode enabled) inp = some (w', some err)) :
    w'.session = w.session.map fun s => { s with fwMode := enabled } := by
  obtain ⟨rfl, hres⟩ := Prod.mk.inj (guarded_eq_some h)
  change (w.slot.setFWMode _ _).1.session = w.slot.session.map _
  cases hs : w.slot.session with
  | none => simp [Slot.setFWMode, hs]
  | some s => simp [Slot.setFWMode, hs]

theorem setSyncMode_unsaved {enabled : Bool}
    (h : exec cfg id tid w (.setSyncMode enabled) inp = some (w', some err)) :
    w'.session = w.session.map fun s => { s with syncMode := enabled } := by
  obtain ⟨rfl, hres⟩ := Prod.mk.inj (guarded_eq_some h)
  change (w.slot.setSyncMode _ _).1.session = w.slot.session.map _
  cases hs : w.slot.session with
  | none => simp [Slot.setSyncMode, hs]
  | some s => simp [Slot.setSyncMode, hs]

theorem registerInFlight_unsaved {seq : UInt8} {cmd : Command} {sentAt : Time}
    (h : exec cfg id tid w (.registerInFlight seq cmd sentAt) inp = some (w', some err)) :
    w'.session = w.session.map fun s =>
      { s with
        inFlight := Function.update s.inFlight seq (some ⟨seq, cmd, sentAt, cmd.attempts + 1⟩) } := by
  obtain ⟨rfl, hres⟩ := Prod.mk.inj (guarded_eq_some h)
  cases hs : w.slot.session with
  | none => simp [World.session, hs]
  | some s => simp [World.session, hs, World.commit, Slot.registerInFlight]

/-- The entry is put back. -/
theorem ackInFlight_unsaved {seq : UInt8}
    (h : exec cfg id tid w (.ackInFlight seq) inp = some (w', none)) : w'.session = w.session := by
  have heq := guarded_eq_some h
  simp only [execAck, Slot.ackInFlight] at heq
  cases hs : w.slot.session with
  | none =>
      simp only [hs] at heq
      cases heq
      rfl
  | some s =>
      cases hentry : s.inFlight seq with
      | none =>
          simp only [hs, hentry] at heq
          cases heq
          rfl
      | some entry =>
          cases hsave : inp.saveErr with
          | none =>
              simp only [hs, hentry, hsave, Slot.persistLocked] at heq
              cases heq
          | some err =>
              simp only [hs, hentry, hsave, Slot.persistLocked] at heq
              cases heq
              rfl

/-! ## Locks and looks -/

theorem of_perform {α : Type} {R : Rules (machine cfg id)} {a : Act} {k : a.Res → Deliver α}
    {x : α} (h : Call R tid w (perform a >>= k) w' x) :
    ∃ inp w₁ r, R.act w tid a inp ∧ exec cfg id tid w a inp = some (w₁, r) ∧
      Call R tid w₁ (k r) w' x :=
  Call.of_act h

theorem lockManager_slot {r : Unit}
    (h : exec cfg id tid w .lockManager inp = some (w', r)) : w'.slot = w.slot := by
  simp only [exec] at h
  split at h <;> cases h
  rfl

/-- The save at the end of a method. -/
theorem ackSent_session (m : Slot) (save : Option Error) :
    (m.ackSent save).1.session = m.session := by
  cases hs : m.session <;> simp [Slot.ackSent, hs]

/-- The session after that save, whatever is done with its answer. -/
theorem method_ackSent_session {w₁ : World} {save res : Option Error}
    (h : method w (w.slot.ackSent save) = (w₁, res)) : w₁.session = w.session := by
  obtain ⟨rfl, -⟩ := Prod.mk.inj h
  exact ackSent_session w.slot save

theorem persist_session {r : Option Error}
    (h : exec cfg id tid w .persist inp = some (w', r)) : w'.session = w.session := by
  simp only [exec, execPersist] at h
  split at h <;> rename_i hsave <;> have hkeep := method_ackSent_session hsave <;> cases h <;>
    exact hkeep

theorem persistEnqueued_session {ticket : ℕ} {r : Option Error}
    (h : exec cfg id tid w (.persistEnqueued ticket) inp = some (w', r)) :
    w'.session = w.session := by
  simp only [exec, execEnqueued] at h
  split at h <;> rename_i hsave <;> have hkeep := method_ackSent_session hsave <;> cases h <;>
    exact hkeep

theorem pushNew_session {cmd : Command} {r : ℕ} {s : Session} (hs : w.session = some s)
    (h : exec cfg id tid w (.pushNew cmd) inp = some (w', r)) :
    w'.session = some { s with queue := s.queue.push { cmd with ticket := w.tickets } } := by
  cases h
  have hslot : w.slot.session = some s := hs
  simp [World.session, World.setQueue, Slot.setQueue, hslot, Slot.queue]

/-- The session is there, or it is made, or it could not be saved and is taken out again. -/
theorem ensureSession_session {r : Option Error}
    (h : exec cfg id tid w .ensureSession inp = some (w', r)) :
    (w.session.isSome ∧ r = none ∧ w'.session = w.session) ∨
      (w.session = none ∧ inp.saveErr = none ∧ r = none ∧ w'.session.isSome) ∨
        (w.session = none ∧ inp.saveErr = r ∧ r.isSome ∧ w'.session = none) := by
  obtain ⟨rfl, rfl⟩ := Prod.mk.inj (Option.some.inj h)
  change (w.slot.session.isSome ∧ _ ∧ (w.slot.ensureSession _ _ _).1.session = w.slot.session) ∨
    (w.slot.session = none ∧ _ ∧ _ ∧ (w.slot.ensureSession _ _ _).1.session.isSome) ∨
      (w.slot.session = none ∧ _ ∧ _ ∧ (w.slot.ensureSession _ _ _).1.session = none)
  cases hs : w.slot.session with
  | some s => simp [Slot.ensureSession, hs]
  | none =>
      cases hsave : inp.saveErr <;>
        simp [Slot.ensureSession, hs, Slot.createDetachedLocked, Slot.insertNew,
          Slot.persistLocked]

/-! ## ProcessInFlight -/

theorem visitInFlight_session {seq : UInt8} {now : Time} {r : Option InFlightOutcome} {s : Session}
    (hs : w.session = some s)
    (h : exec cfg id tid w (.visitInFlight seq now) inp = some (w', r)) :
    w'.session = some (s.visitInFlight (deliveryPolicyForCommand cfg) now seq).1 ∧
      r = (s.visitInFlight (deliveryPolicyForCommand cfg) now seq).2 := by
  have heq := Option.some.inj h
  simp only [execVisit, hs] at heq
  rcases s.visitInFlight_cases (deliveryPolicyForCommand cfg) now seq with
    ⟨-, hvisit⟩ | ⟨out, -, hvisit⟩
  · simp only [hvisit] at heq ⊢
    cases heq
    exact ⟨hs, rfl⟩
  · simp only [hvisit] at heq ⊢
    split at heq <;> cases heq <;> exact ⟨rfl, rfl⟩

/-- The rounds of the loop are those of the whole loop. -/
theorem visitAll_session {R : Rules (machine cfg id)} {now : Time} {order : List UInt8}
    {outs : List InFlightOutcome} {s : Session} (hs : w.session = some s)
    (h : Call R tid w (visitAll now order) w' outs) :
    w'.session = some (s.processInFlight (deliveryPolicyForCommand cfg) now order).1 ∧
      outs = (s.processInFlight (deliveryPolicyForCommand cfg) now order).2 := by
  induction order generalizing w s outs with
  | nil =>
      obtain ⟨rfl, rfl⟩ := Call.of_ret h
      exact ⟨hs, rfl⟩
  | cons seq rest ih =>
      obtain ⟨inp, w₁, out, -, hexec, h⟩ := of_perform h
      obtain ⟨hs₁, rfl⟩ := visitInFlight_session hs hexec
      obtain ⟨w₂, outs₂, hrest, hret⟩ := Call.of_bind h
      obtain ⟨rfl, rfl⟩ := Call.of_ret hret
      obtain ⟨hs₂, rfl⟩ := ih hs₁ hrest
      exact ⟨hs₂, rfl⟩

/-- The iteration comes to every entry. -/
theorem inFlightOrder_covers {order : List UInt8} {s : Session} (hs : w.session = some s)
    (h : exec cfg id tid w .inFlightOrder inp = some (w', order)) : w' = w ∧ Covers order s := by
  simp only [exec] at h
  split at h
  · rename_i hall
    cases h
    refine ⟨rfl, fun seq entry hentry => ?_⟩
    have hseq := all_eq_true.mp hall seq (mem_allSeqs seq)
    have hinFlight : w.inFlight seq = some entry := by
      rw [World.inFlight, Slot.inFlight, show w.slot.session = some s from hs]
      exact hentry
    rw [hinFlight] at hseq
    simpa using hseq
  · cases h

/-- The loop has run before the save fails. -/
theorem managerProcessInFlight_unsaved {R : Rules (machine cfg id)} {now : Time}
    (herr : SaveError err) (h : Call R tid w (managerProcessInFlight now) w' (.error err)) :
    ∃ s order, w.session = some s ∧ Covers order s ∧
      w'.session = some (s.processInFlight (deliveryPolicyForCommand cfg) now order).1 := by
  obtain ⟨_, w₁, _, -, hlock, h⟩ := of_perform h
  have hlocked : w₁.session = w.session := congrArg Slot.session (lockManager_slot hlock)
  obtain ⟨_, w₂, found, -, hfind, h⟩ := of_perform h
  cases hfind
  split at h
  · rename_i hfound
    obtain ⟨s, hs⟩ := Option.isSome_iff_exists.mp hfound
    obtain ⟨inp, w₃, order, -, horder, hloop⟩ := of_perform h
    obtain ⟨rfl, hcovers⟩ := inFlightOrder_covers hs horder
    obtain ⟨w₄, outs, hvisit, hrest⟩ := Call.of_bind hloop
    obtain ⟨_, w₅, _, -, hpersist, hend⟩ := of_perform hrest
    obtain ⟨_, w₆, _, -, hunlock, hret⟩ := of_perform hend
    have hw' : w'.session = w₅.session := by
      cases hunlock
      split at hret <;> rw [(Call.of_ret hret).1] <;> rfl
    refine ⟨s, order, hlocked.symm.trans hs, hcovers, ?_⟩
    rw [hw', persist_session hpersist, (visitAll_session hs hvisit).1]
  · obtain ⟨_, w₃, _, -, hunlock, h⟩ := of_perform h
    obtain ⟨-, hret⟩ := Call.of_ret h
    cases hret
    obtain ⟨msg, hmsg, -⟩ := herr
    cases hmsg

/-! ## Making room -/

/-- The session without its queue and its keys. -/
def World.frame (w : World) : Option Session :=
  w.session.map fun s => { s with queue := {}, dedup := fun _ => none }

theorem exec_probing_frame {a : Act} {r : a.Res} (ha : a.Probing)
    (h : exec cfg id tid w a inp = some (w', r)) : w'.frame = w.frame := by
  cases a with
  | now | dedupTime | queueLen | queueBytes =>
      cases h
      rfl
  | setDedup key t =>
      simp only [exec] at h
      cases hs : w.session with
      | none =>
          rw [hs] at h
          cases h
          rfl
      | some s =>
          rw [hs] at h
          cases h
          rw [World.frame, World.frame, hs]
          rfl
  | dropOldest =>
      have heq := Option.some.inj h
      simp only [execDropOldest] at heq
      split at heq
      · cases heq
        rfl
      · cases heq
        simp only [World.frame, World.session, World.note, World.setQueue, Slot.setQueue]
        cases w.slot.session <;> rfl
  | spin => cases h
  | _ => exact ha.elim

theorem dedup_of_session {s : Session} (hs : w.session = some s) : w.dedup = s.dedup := by
  funext key
  rw [World.dedup, hs]
  rfl

/-- Evictions change nothing but the queue. -/
theorem Evicts.session_eq {k : ℕ} {s : Session} (h : Evicts k w w') (hframe : w'.frame = w.frame)
    (hs : w.session = some s) : w'.session = some { s with queue := drops k s.queue } := by
  obtain ⟨s', hs'⟩ := Option.isSome_iff_exists.mp (h.session (by rw [hs]; rfl))
  have hqueue : s'.queue = drops k s.queue := by
    rw [← queue_of_session hs', h.queue, queue_of_session hs]
  have hdedup : s'.dedup = s.dedup := by
    rw [← dedup_of_session hs', h.dedup, dedup_of_session hs]
  rw [World.frame, World.frame, hs, hs'] at hframe
  -- fill in the queue and the keys again
  have hrest := congrArg (fun t : Session => { t with queue := drops k s.queue, dedup := s.dedup })
    (Option.some.inj hframe)
  have hs'' : s' = { s' with queue := drops k s.queue, dedup := s.dedup } := by
    rw [← hqueue, ← hdedup]
  rw [hs', hs'']
  exact congrArg some hrest

/-- Room is made, or the command is refused by the manager itself. -/
theorem makeRoom_session {R : Rules (machine cfg id)} {cmd : Command} {fuel : ℕ} {s : Session}
    {events : List OverflowEvent} {res : Option Error} (hs : w.session = some s)
    (hfuel : s.queue.len < fuel)
    (h : Call R tid w (makeRoom cfg id cmd fuel) w' (events, res)) :
    (∃ err, res = some err ∧ ¬ SaveError err) ∨
      res = none ∧ ∃ k, JustFits cfg s.queue cmd k ∧
        w'.session = some { s with queue := drops k s.queue } := by
  have hqueue := queue_of_session hs
  have hframe : w'.frame = w.frame :=
    Call.keeps_of_only World.frame (fun _ _ _ _ _ => exec_probing_frame)
      (makeRoom_only cfg id cmd fuel) h
  have hcall : Call (callRules cfg id (fun _ => True) fun _ => True) tid w
      (makeRoom cfg id cmd fuel) w' (events, res) :=
    h.mono fun _ _ _ _ => ⟨trivial, fun _ _ => trivial⟩
  have hown : ∀ err, err = .queueFull ∨ err = .queueBytesFull → ¬ SaveError err := by
    rintro err (rfl | rfl) ⟨msg, hmsg, -⟩ <;> cases hmsg
  cases (makeRoom_ends (hqueue ▸ hfuel)).call hcall with
  | cleared hcleared =>
      exact .inr ⟨rfl, _, hqueue ▸ hcleared.just, hcleared.evicts.session_eq hframe hs⟩
  | refused _ herr => exact .inl ⟨_, rfl, hown _ herr⟩
  | emptied hemptied => exact .inl ⟨_, rfl, hown _ hemptied.err⟩

end methods

end TcpAdapter.Delivery
