import TcpAdapter.Verification.Delivery.Flush
import TcpAdapter.Verification.Delivery.QueueMoves

/-! # Undisturbed flushes

Nothing stops other threads from changing the queue while a flush goes through it. The
results about what a whole flush does are about flushes during which they do not add to it:
no command is enqueued, and none comes back from the in-flight table. -/

namespace TcpAdapter.Delivery

open TcpAdapter.Concurrent TcpAdapter.Queue TcpAdapter.Protocol TcpAdapter.Manager
open TcpAdapter.Policy

/-- The actions of other threads that add to the queue. -/
def Act.fills : Act → Bool
  | .pushNew _ | .visitInFlight _ _ => true
  | _ => false

/-- While a flush runs, nobody adds to the queue. -/
def undisturbed (w : World) (a : Act) : Bool :=
  !a.fills || w.flushMu = none

section exec

variable {cfg : Config} {id : String} {tid : ℕ} {w w' : World} {inp : Input} {v : FlushState}

theorem exec_popNext {now : Time} {fwMode syncMode : Bool} {r : Option Command}
    (hsession : w.session.isSome)
    (h : exec cfg id tid w (.popNext now fwMode syncMode) inp = some (w', r)) :
    (r = none ∧ w' = w) ∨
      ∃ cmd, r = some cmd ∧ w.queue.popNext fwMode syncMode = (some cmd, w'.queue) := by
  simp only [exec, execPop] at h
  split at h
  · cases h
    exact .inl ⟨rfl, rfl⟩
  · rename_i cmd q hpop
    cases h
    exact .inr ⟨cmd, rfl, by rw [hpop]; simp [Slot.setQueue_queue q hsession]⟩

theorem exec_push {cmd : Command} {r : Unit} (hsession : w.session.isSome)
    (h : exec cfg id tid w (.push cmd) inp = some (w', r)) : w'.queue = w.queue.push cmd := by
  cases h
  simp [execPush, Slot.setQueue_queue _ hsession]

theorem exec_drainExpired {now : Time} {r : List Command} (hsession : w.session.isSome)
    (h : exec cfg id tid w (.drainExpired now) inp = some (w', r)) :
    w'.queue = (w.queue.drainExpired now).2 := by
  cases h
  simp [Slot.setQueue_queue _ hsession]

theorem exec_dropOldest {r : Option Command} (hsession : w.session.isSome)
    (h : exec cfg id tid w .dropOldest inp = some (w', r)) :
    (r = none ∧ w' = w) ∨ ∃ cmd, r = some cmd ∧ w.queue.dropOldest = (some cmd, w'.queue) := by
  simp only [exec, execDropOldest] at h
  split at h
  · cases h
    exact .inl ⟨rfl, rfl⟩
  · rename_i cmd q hdrop
    cases h
    exact .inr ⟨cmd, rfl, by rw [hdrop]; simp [Slot.setQueue_queue q hsession]⟩

/-- Only `RegisterInFlight` enters commands into the in-flight table. -/
theorem exec_inFlight_none {a : Act} {r : a.Res}
    (ha : ∀ seq cmd sentAt, a ≠ .registerInFlight seq cmd sentAt)
    (h : exec cfg id tid w a inp = some (w', r)) {seq : UInt8} (hseq : w.inFlight seq = none) :
    w'.inFlight seq = none := by
  cases hentry : w'.inFlight seq with
  | none => rfl
  | some entry =>
      rcases exec_inFlight_some h hentry with hold | ⟨cmd, sentAt, rfl, -⟩
      · cases hseq.symm.trans hold
      · exact absurd rfl (ha seq cmd sentAt)

/-- A thread outside its flush takes commands from the queue at most, and leaves the counter
alone. -/
theorem exec_beside {a : Act} {r : a.Res} (hoff : v.phase = .off) (hmay : v.May a)
    (hfills : a.fills = false) (hsession : w.session.isSome)
    (h : exec cfg id tid w a inp = some (w', r)) :
    (w'.queue.snapshot : Multiset Command) ≤ w.queue.snapshot ∧ w'.nextSeq = w.nextSeq := by
  have hactive : v.phase ≠ .active := by simp [hoff]
  cases a with
  | popNext | drainExpired => exact absurd hmay hactive
  | registerInFlight | nextCommandSeq | setSyncMode => exact absurd hmay.1 hactive
  | push cmd =>
      rcases hmay with hp | ⟨hp, -⟩ <;> cases hoff.symm.trans hp
  | pushNew | visitInFlight => cases hfills
  | dropOldest =>
      refine ⟨?_, (exec_settings rfl h).1⟩
      rcases exec_dropOldest hsession h with ⟨-, rfl⟩ | ⟨cmd, -, hdrop⟩
      · exact le_rfl
      · have hperm := ControllerQueue.dropOldest_snapshot_perm hdrop
        rw [Multiset.coe_eq_coe.mpr hperm, ← Multiset.cons_coe]
        exact Multiset.le_cons_self _ _
  | ackInFlight seq =>
      refine ⟨?_, (exec_settings rfl h).1⟩
      rcases exec_ackInFlight h with ⟨-, hquiet, -⟩ | ⟨entry, -, ht⟩
      · rw [hquiet.queue]
      · rw [ht.queue]
  | setFWMode enabled =>
      obtain ⟨hc, hseq, -⟩ := exec_setFWMode h
      exact ⟨by rw [hc.queue], hseq⟩
  | _ => exact ⟨by rw [(exec_commands rfl h).1], (exec_settings rfl h).1⟩

/-- What the move of another thread does to an undisturbed flush that has read the session. -/
theorem exec_undisturbed {a : Act} {r : a.Res} {other : ℕ} {u : FlushState}
    (hv : v.Holds tid w) (hmay : v.May a) (hrule : undisturbed w a = true) (hne : other ≠ tid)
    (hu : u.Holds other w) (hon : u.phase ≠ .off) (hlocked : u.phase ≠ .locked)
    (h : exec cfg id tid w a inp = some (w', r)) :
    (w'.queue.snapshot : Multiset Command) ≤ w.queue.snapshot ∧ w'.nextSeq = w.nextSeq ∧
      ∀ seq, w.inFlight seq = none → w'.inFlight seq = none := by
  have hoff := hv.off_of_other hne hu hon
  have hfills : a.fills = false := by
    simpa [undisturbed, hu.flushing.mp hon] using hrule
  obtain ⟨hqueue, hseq⟩ := exec_beside hoff hmay hfills (hu.session hon hlocked) h
  refine ⟨hqueue, hseq, fun seq => exec_inFlight_none ?_ h⟩
  rintro k cmd sentAt rfl
  cases hoff.symm.trans hmay.1

end exec

end TcpAdapter.Delivery
