import Mathlib.Algebra.Order.Group.Multiset
import TcpAdapter.Verification.Delivery.Conservation
import TcpAdapter.Verification.Delivery.Undisturbed

/-! # Sequence numbers

A command goes out under the next number of the counter, or under the number it had before
if it is a retry. Nothing but the arithmetic of these numbers keeps two commands of one
flush from getting the same one: the numbers of the queued retries and as many numbers of
the counter as there are other commands have to be different. -/

namespace TcpAdapter.Delivery

open TcpAdapter.Concurrent TcpAdapter.Queue TcpAdapter.Protocol TcpAdapter.Manager
open TcpAdapter.Policy
open FlushState (numbers unnumberedCount numbers_cons unnumberedCount_cons)

/-- The next `n` numbers of a counter that stands at `seq`. -/
def window (seq : UInt8) : ℕ → List UInt8
  | 0 => []
  | n + 1 => (seq + 1) :: window (seq + 1) n

theorem window_sublist (seq : UInt8) {m n : ℕ} (h : m ≤ n) :
    (window seq m).Sublist (window seq n) := by
  induction m generalizing seq n with
  | zero => exact List.nil_sublist _
  | succ m ih =>
      cases n with
      | zero => omega
      | succ n => exact (ih (seq + 1) (by omega)).cons_cons _

theorem window_le (seq : UInt8) {m n : ℕ} (h : m ≤ n) :
    (window seq m : Multiset UInt8) ≤ window seq n :=
  Multiset.coe_le.mpr (window_sublist seq h).subperm

theorem numbers_mono {cmds cmds' : Multiset Command} (h : cmds' ≤ cmds) :
    numbers cmds' ≤ numbers cmds :=
  Multiset.filter_le_filter _ (Multiset.map_le_map h)

theorem unnumberedCount_mono {cmds cmds' : Multiset Command} (h : cmds' ≤ cmds) :
    unnumberedCount cmds' ≤ unnumberedCount cmds :=
  Multiset.countP_le_of_le _ h

/-! ## The numbers of a flush -/

/-- The numbers under which the flush may still send commands: those of the retries, the one
it has taken for the command it is about to send, and those the counter still has to give. -/
def claimed (w : World) (v : FlushState) : Multiset UInt8 :=
  numbers w.queue.snapshot + v.retries + v.number.toList +
    window w.nextSeq (unnumberedCount w.queue.snapshot + v.fresh)

/-- What a flush knows about its numbers: they are all different, and none is in flight. -/
structure KnowsNumbers (w : World) (v : FlushState) : Prop where
  locked : v.phase = .locked → v.retries = 0 ∧ v.number = none ∧ v.fresh = 0
  opened : v.phase = .opened → (claimed w v).Nodup
  active : v.phase = .active → v.spent = false →
    (claimed w v).Nodup ∧ ∀ seq ∈ claimed w v, w.inFlight seq = none

section exec

variable {cfg : Config} {id : String} {tid : ℕ} {w w' : World} {inp : Input}
  {v v' : FlushState}

theorem KnowsNumbers.of_phase (hlocked : v.phase ≠ .locked) (hopened : v.phase ≠ .opened)
    (hactive : v.phase ≠ .active) : KnowsNumbers w v :=
  ⟨fun hp => absurd hp hlocked, fun hp => absurd hp hopened, fun hp => absurd hp hactive⟩

/-- Fewer queued commands claim fewer numbers. -/
theorem claimed_le (hqueue : (w'.queue.snapshot : Multiset Command) ≤ w.queue.snapshot)
    (hseq : w'.nextSeq = w.nextSeq) : claimed w' v ≤ claimed w v := by
  have hnumbers := numbers_mono hqueue
  have hwindow := window_le w.nextSeq
    (Nat.add_le_add_right (unnumberedCount_mono hqueue) v.fresh)
  rw [claimed, claimed, hseq]
  exact add_le_add (add_le_add_left (add_le_add_left hnumbers _) _) hwindow

/-- The flush takes a command from the queue into its hands. -/
theorem claimed_pop {cmd : Command}
    (hqueue : (w.queue.snapshot : Multiset Command) = cmd ::ₘ w'.queue.snapshot)
    (hseq : w'.nextSeq = w.nextSeq) : claimed w' (v.pop cmd) ≤ claimed w v := by
  rw [claimed, claimed, hqueue, hseq, numbers_cons, unnumberedCount_cons]
  have hdropped : ∀ m k : Multiset UInt8, m + k ≤ m + v.number.toList + k :=
    fun m k => add_le_add_left (Multiset.le_add_right m _) k
  by_cases hz : cmd.retrySeq = 0
  · have hcount : unnumberedCount w'.queue.snapshot + (v.fresh + 1) =
        unnumberedCount w'.queue.snapshot + 1 + v.fresh := by
      omega
    simp only [FlushState.pop, if_pos hz, hcount, Option.toList_none, Multiset.coe_nil, add_zero]
    exact hdropped _ _
  · simp only [FlushState.pop, if_neg hz, Option.toList_none, Multiset.coe_nil, add_zero,
      Multiset.add_cons, Multiset.cons_add]
    exact Multiset.cons_le_cons _ (hdropped _ _)

/-- The flush puts a command back that has not got a number yet. -/
theorem claimed_putBack {cmd : Command}
    (hqueue : (w'.queue.snapshot : Multiset Command) = cmd ::ₘ w.queue.snapshot)
    (hseq : w'.nextSeq = w.nextSeq) (hmem : cmd.retrySeq ≠ 0 → cmd.retrySeq ∈ v.retries)
    (hspent : (v.putBack cmd).spent = false) : claimed w' (v.putBack cmd) = claimed w v := by
  rw [claimed, claimed, hqueue, hseq, numbers_cons, unnumberedCount_cons]
  by_cases hz : cmd.retrySeq = 0
  · have hfresh : v.fresh ≠ 0 := by
      intro hzero
      simp [FlushState.putBack, hz, hzero] at hspent
    have hcount : unnumberedCount w.queue.snapshot + 1 + (v.fresh - 1) =
        unnumberedCount w.queue.snapshot + v.fresh := by
      omega
    simp only [FlushState.putBack, if_pos hz, hcount]
  · obtain ⟨rest, hrest⟩ := Multiset.exists_cons_of_mem (hmem hz)
    simp only [FlushState.putBack, if_neg hz, hrest, Multiset.erase_cons_head, Nat.add_zero,
      Multiset.add_cons, Multiset.cons_add]

/-- The flush takes the next number of the counter. -/
theorem claimed_next (hqueue : w'.queue = w.queue) (hseq : w'.nextSeq = w.nextSeq + 1)
    (hfresh : 0 < v.fresh) :
    claimed w' { v with number := some w'.nextSeq, fresh := v.fresh - 1 } ≤ claimed w v := by
  have hcount : unnumberedCount w.queue.snapshot + v.fresh =
      unnumberedCount w.queue.snapshot + (v.fresh - 1) + 1 := by
    omega
  have hsplit : claimed w v =
      claimed w' { v with number := some w'.nextSeq, fresh := v.fresh - 1 } + v.number.toList := by
    rw [claimed, claimed, hqueue, hseq, hcount, window, ← Multiset.cons_coe,
      ← Multiset.singleton_add, Option.toList_some, Multiset.coe_singleton]
    dsimp only
    ac_rfl
  rw [hsplit]
  exact Multiset.le_add_right _ _

/-- The flush registers a command: its number is used up. -/
theorem claimed_register {seq : UInt8} {cmd : Command} {n : ℕ} (hfits : v.Fits cmd seq n)
    (hqueue : w'.queue = w.queue) (hseq : w'.nextSeq = w.nextSeq) :
    seq ::ₘ claimed w' (v.register seq cmd) ≤ claimed w v := by
  rw [claimed, claimed, hqueue, hseq]
  by_cases hnumber : v.number = some seq
  · simp only [FlushState.register, if_true, hnumber, Option.toList_none,
      Option.toList_some, Multiset.coe_nil, Multiset.coe_singleton, add_zero,
      ← Multiset.singleton_add]
    refine le_of_eq ?_
    ac_rfl
  · have hmem : seq ∈ v.retries := hfits.number.resolve_left hnumber
    obtain ⟨rest, hrest⟩ := Multiset.exists_cons_of_mem hmem
    simp only [FlushState.register, if_neg hnumber, hrest, Multiset.erase_cons_head,
      Option.toList_none, Multiset.coe_nil, add_zero, Multiset.add_cons, Multiset.cons_add]
    exact Multiset.cons_le_cons _ (add_le_add_left (Multiset.le_add_right _ _) _)

/-- The actions on the numbers of a flush. -/
def Act.movesNumber : Act → Bool
  | .lockFlush | .unlockFlush | .popNext _ _ _ | .push _ | .nextCommandSeq => true
  | .registerInFlight _ _ _ => true
  | _ => false

theorem FlushState.after_numbers {a : Act} (r : a.Res) (ha : a.movesNumber = false) :
    (v.after a r).retries = v.retries ∧ (v.after a r).number = v.number ∧
      (v.after a r).fresh = v.fresh := by
  cases a with
  | lockFlush | unlockFlush | popNext | push | nextCommandSeq | registerInFlight => cases ha
  | inFlightCount =>
      simp only [after]
      split <;> exact ⟨rfl, rfl, rfl⟩
  | setFWMode enabled =>
      cases r with
      | none => exact ⟨rfl, rfl, rfl⟩
      | some err =>
          simp only [after]
          split <;> exact ⟨rfl, rfl, rfl⟩
  | deliveryContext | transmit | setSyncMode | hasSync | hasFW | ackSent =>
      cases r <;> exact ⟨rfl, rfl, rfl⟩
  | _ => exact ⟨rfl, rfl, rfl⟩

/-- Until it registers a command, a flush claims no new numbers. -/
theorem claimed_own {a : Act} {r : a.Res} (hv : v.Holds tid w) (hactive : v.phase = .active)
    (hmay : v.May a) (hruns : a.runs = true) (hspent : (v.after a r).spent = false)
    (hreg : ∀ seq cmd sentAt, a ≠ .registerInFlight seq cmd sentAt)
    (h : exec cfg id tid w a inp = some (w', r)) : claimed w' (v.after a r) ≤ claimed w v := by
  have hsession := hv.session (by simp [hactive]) (by simp [hactive])
  have hsame : ∀ v' : FlushState,
      v'.retries = v.retries ∧ v'.number = v.number ∧ v'.fresh = v.fresh →
      claimed w' v' = claimed w' v := by
    rintro v' ⟨hretries, hnumber, hfresh⟩
    rw [claimed, claimed, hretries, hnumber, hfresh]
  cases a with
  | registerInFlight seq cmd sentAt => exact absurd rfl (hreg seq cmd sentAt)
  | popNext now fwMode syncMode =>
      rcases exec_popNext hsession h with ⟨rfl, rfl⟩ | ⟨cmd, rfl, hpop⟩
      · exact le_rfl
      · have hperm := Multiset.coe_eq_coe.mpr (ControllerQueue.popNext_snapshot_perm hpop)
        rw [← Multiset.cons_coe] at hperm
        exact claimed_pop hperm (exec_settings rfl h).1
  | push cmd =>
      have hmem : cmd.retrySeq ≠ 0 → cmd.retrySeq ∈ v.retries := by
        rcases hmay with hp | ⟨-, -, hmem⟩
        · cases hactive.symm.trans hp
        · exact hmem
      have hperm := Multiset.coe_eq_coe.mpr (ControllerQueue.push_snapshot_perm w.queue cmd)
      rw [← exec_push hsession h, ← Multiset.cons_coe] at hperm
      exact le_of_eq (claimed_putBack hperm (exec_settings rfl h).1 hmem hspent)
  | drainExpired now =>
      refine claimed_le ?_ (exec_settings rfl h).1
      have hperm := Multiset.coe_eq_coe.mpr (w.queue.drainExpired_snapshot_perm now)
      rw [exec_drainExpired hsession h, hperm, ← Multiset.coe_add]
      exact Multiset.le_add_left _ _
  | nextCommandSeq =>
      obtain ⟨hcalm, -, -, hnext⟩ := exec_nextCommandSeq h
      obtain ⟨hseq, rfl⟩ := hnext hsession
      exact claimed_next hcalm.queue hseq hmay.2.2
  | setFWMode enabled =>
      obtain ⟨hcalm, hseq, -⟩ := exec_setFWMode h
      rw [hsame _ (FlushState.after_numbers r rfl)]
      exact claimed_le (by rw [hcalm.queue]) hseq
  | setSyncMode enabled =>
      obtain ⟨hcalm, hseq, -⟩ := exec_setSyncMode h
      rw [hsame _ (FlushState.after_numbers r rfl)]
      exact claimed_le (by rw [hcalm.queue]) hseq
  | publishAckWithCommand | transmit | hasSync | hasFW | ackSent =>
      rw [hsame _ (FlushState.after_numbers r rfl)]
      exact claimed_le (by rw [(exec_commands rfl h).1]) (exec_settings rfl h).1
  | _ => cases hruns

/-- Fewer numbers claimed and fewer in flight. -/
theorem KnowsNumbers.mono (hk : KnowsNumbers w v) (hphase : v'.phase = v.phase)
    (hspent : v'.spent = false → v.spent = false)
    (hlocked : v.phase = .locked → v'.retries = v.retries ∧ v'.number = v.number ∧
      v'.fresh = v.fresh)
    (hclaimed : v.phase = .opened ∨ v'.spent = false → claimed w' v' ≤ claimed w v)
    (hnone : ∀ seq, w.inFlight seq = none → w'.inFlight seq = none) : KnowsNumbers w' v' where
  locked hp := by
    obtain ⟨hretries, hnumber, hfresh⟩ := hlocked (hphase ▸ hp)
    rw [hretries, hnumber, hfresh]
    exact hk.locked (hphase ▸ hp)
  opened hp := Multiset.nodup_of_le (hclaimed (.inl (hphase ▸ hp))) (hk.opened (hphase ▸ hp))
  active hp hs := by
    obtain ⟨hnodup, hfree⟩ := hk.active (hphase ▸ hp) (hspent hs)
    have hle := hclaimed (.inr hs)
    exact ⟨Multiset.nodup_of_le hle hnodup,
      fun seq hseq => hnone seq (hfree seq (Multiset.mem_of_le hle hseq))⟩

/-- The numbers of the queued commands and the next numbers of the counter, as many as there
are queued commands without a number, are all different. -/
def distinctNumbers (w : World) : Act → Bool
  | .deliveryContext =>
      (numbers w.queue.snapshot +
        window w.nextSeq (unnumberedCount w.queue.snapshot)).Nodup
  | _ => true

/-- When a flush registers a command, its number is not in flight. -/
theorem register_number {seq : UInt8} {cmd : Command} {sentAt : Time} (hk : KnowsNumbers w v)
    (hmay : v.May (.registerInFlight seq cmd sentAt)) (hqueue : w'.queue = w.queue)
    (hseq : w'.nextSeq = w.nextSeq)
    (hnone : ∀ k ≠ seq, w.inFlight k = none → w'.inFlight k = none) :
    w.inFlight seq = none ∧ KnowsNumbers w' (v.register seq cmd) := by
  obtain ⟨hactive, hfits⟩ := hmay
  obtain ⟨hnodup, hfree⟩ := hk.active hactive hfits.unspent
  have hle := claimed_register hfits hqueue hseq
  have hrest := Multiset.nodup_cons.mp (Multiset.nodup_of_le hle hnodup)
  refine ⟨hfree seq (Multiset.mem_of_le hle (Multiset.mem_cons_self _ _)), fun hp => ?_,
    fun hp => ?_, fun _ _ => ⟨hrest.2, fun k hk' => ?_⟩⟩
  · cases hactive.symm.trans hp
  · cases hactive.symm.trans hp
  · have hne : k ≠ seq := fun heq => hrest.1 (heq ▸ hk')
    exact hnone k hne (hfree k (Multiset.mem_of_le hle (Multiset.mem_cons_of_mem hk')))

theorem FlushState.spent_of_after {a : Act} {r : a.Res} (hruns : a.runs = true)
    (h : (v.after a r).spent = false) : v.spent = false := by
  cases a with
  | push cmd => exact (Bool.or_eq_false_iff.mp h).1
  | setFWMode enabled =>
      cases r with
      | none => exact h
      | some err =>
          simp only [after] at h
          split at h <;> exact h
  | popNext | nextCommandSeq | transmit | registerInFlight | setSyncMode | hasSync | hasFW
  | ackSent => cases r <;> exact h
  | drainExpired | publishAckWithCommand => exact h
  | _ => cases hruns

theorem knowsNumbers_own {a : Act} {r : a.Res} (hv : v.Holds tid w) (hk : KnowsNumbers w v)
    (hmay : v.May a) (hrule : distinctNumbers w a = true)
    (h : exec cfg id tid w a inp = some (w', r)) : KnowsNumbers w' (v.after a r) := by
  refine FlushState.knowledge_own hmay h ?_ ?_ ?_ ?_ ?_ ?_
  · rintro v (hp | hp)
    · exact .of_phase (by simp [hp]) (by simp [hp]) (by simp [hp])
    · exact .of_phase (by simp [hp]) (by simp [hp]) (by simp [hp])
  · intro hslot
    refine hk.mono rfl (fun hs => hs) (fun _ => ⟨rfl, rfl, rfl⟩) (fun _ => ?_) fun seq hseq => ?_
    · exact claimed_le (by simp [hslot]) (by simp [hslot])
    · simpa [hslot] using hseq
  · exact fun _ _ => ⟨fun _ => ⟨rfl, rfl, rfl⟩, by simp, by simp⟩
  · rintro s rfl hlocked rfl hs
    obtain ⟨hretries, hnumber, hfresh⟩ := hk.locked hlocked
    refine ⟨by simp [FlushState.after], fun _ => ?_, by simp [FlushState.after]⟩
    rw [claimed]
    simp only [FlushState.after, hretries, hnumber, hfresh, Option.toList_none,
      Multiset.coe_nil, add_zero]
    exact of_decide_eq_true hrule
  · rintro hopened rfl hcount
    rw [Slot.inFlightCount_eq] at hcount
    exact ⟨by simp, by simp, fun _ _ =>
      ⟨hk.opened hopened, fun seq _ => InFlight.count_eq_zero hcount seq⟩⟩
  · intro hactive hruns hstill
    by_cases hreg : ∃ seq cmd sentAt, a = .registerInFlight seq cmd sentAt
    · obtain ⟨seq, cmd, sentAt, rfl⟩ := hreg
      have hsession := hv.session (by simp [hactive]) (by simp [hactive])
      obtain ⟨hqueue, hinFlight, -⟩ := exec_registerInFlight hsession h
      cases r with
      | some err => cases hstill
      | none =>
          refine (register_number hk hmay hqueue (exec_settings rfl h).1 fun k hne hnone => ?_).2
          rwa [hinFlight, Function.update_of_ne hne]
    · have hnot : ∀ seq cmd sentAt, a ≠ .registerInFlight seq cmd sentAt :=
        fun seq cmd sentAt ha => hreg ⟨seq, cmd, sentAt, ha⟩
      refine hk.mono (hstill.trans hactive.symm) (FlushState.spent_of_after hruns) (fun hp => ?_)
        (fun hor => ?_) fun seq => exec_inFlight_none hnot h
      · cases hactive.symm.trans hp
      · have hspent := hor.resolve_left (by simp [hactive])
        exact claimed_own hv hactive hmay hruns hspent hnot h

theorem knowsNumbers_other {a : Act} {r : a.Res} {other : ℕ} {u : FlushState}
    (hv : v.Holds tid w) (hmay : v.May a) (hrule : undisturbed w a = true) (hne : other ≠ tid)
    (hu : u.Holds other w) (hk : KnowsNumbers w u) (h : exec cfg id tid w a inp = some (w', r)) :
    KnowsNumbers w' u := by
  by_cases hon : u.phase = .off
  · exact .of_phase (by simp [hon]) (by simp [hon]) (by simp [hon])
  · by_cases hlocked : u.phase = .locked
    · exact ⟨hk.locked, by simp [hlocked], by simp [hlocked]⟩
    · obtain ⟨hqueue, hseq, hnone⟩ := exec_undisturbed hv hmay hrule hne hu hon hlocked h
      exact hk.mono rfl (fun hs => hs) (fun _ => ⟨rfl, rfl, rfl⟩)
        (fun _ => claimed_le hqueue hseq) hnone

end exec

/-! ## Runs -/

section rules

variable (cfg : Config) (id : String)

/-- Runs in which every flush finds numbers that are all different, and nobody adds to the
queue while it runs. -/
abbrev numberRules : Rules (machine cfg id) where
  act w _ a _ := undisturbed w a = true ∧ distinctNumbers w a = true

def numberings : Discipline (machine cfg id) (numberRules cfg id) {} FlushState :=
  (flushes cfg id (numberRules cfg id)).strengthen
    (fun _ => True) (fun _ w v => KnowsNumbers w v) trivial
    (fun _ _ _ hoff => .of_phase (fun hp => by cases hoff.symm.trans hp)
      (fun hp => by cases hoff.symm.trans hp) fun hp => by cases hoff.symm.trans hp)
    (fun m _ hk hnext _ => by
      subst hnext
      exact ⟨trivial, knowsNumbers_own m.knows hk m.may m.rule.2 m.exec⟩)
    (fun m _ hne hu hk => knowsNumbers_other m.knows m.may m.rule.1 hne hu hk m.exec)
    (fun _ _ => trivial)

end rules

/-- A command that is about to be registered has a number that is not in flight. -/
theorem registered_number_free {cfg : Config} {id : String}
    {c : Concurrent.Config (machine cfg id)} (h : Reachable (numberRules cfg id) {} c) {tid : ℕ}
    {seq : UInt8} {cmd : Command} {sentAt : Time}
    {k : (Act.registerInFlight seq cmd sentAt).Res → Deliver Unit}
    (ht : c.threads tid = .act (.registerInFlight seq cmd sentAt) k) :
    c.world.inFlight seq = none := by
  obtain ⟨v, ⟨-, hk⟩, hmay⟩ := (numberings cfg id).may h ht
  have hmay' : v.May (.registerInFlight seq cmd sentAt) := hmay
  exact (register_number hk hmay' rfl rfl fun _ _ hnone => hnone).1

/-- Command 9 has timed out under number 1 and is sent again, after the first of two others. -/
def retriedLabels : List (Label (machine {} "c")) :=
  connect ++ call 0 (.enqueue { commandID := 9 } 0) 20 ++ call 0 .flush 40 ++
    call 0 .process 20 { time := 100 * second, order := [1] } ++
    call 0 (.enqueue { commandID := 24, payload := [1, 0] } 0) 20 ++
    call 0 (.enqueue { commandID := 9 } 0) 20 ++ call 0 .flush 23

theorem retried_number_free :
    ∃ c, Reachable (numberRules {} "c") {} c ∧ registering (c.threads 0) = some 1 ∧
      (c.world.inFlight 2).isSome ∧ c.world.inFlight 1 = none := by
  have hretried : ∃ c, Reachable (numberRules {} "c") {} c ∧
      registering (c.threads 0) = some 1 ∧ (c.world.inFlight 2).isSome :=
    ⟨_, Reachable.initial.run retriedLabels, by decide +kernel⟩
  obtain ⟨c, hc, hregistering, hlive⟩ := hretried
  obtain ⟨cmd, sentAt, k, ht⟩ := exists_of_registering hregistering
  exact ⟨c, hc, hregistering, hlive, registered_number_free hc ht⟩

end TcpAdapter.Delivery
