import TcpAdapter.Verification.Delivery.Conservation
import TcpAdapter.Verification.Delivery.Undisturbed

/-! # At most one command in flight

A flush begins only when nothing is in flight, but then it sends as long as frames fit into
the bytes that remain. It stops after one command when no two queued commands fit
together. -/

namespace TcpAdapter.Delivery

open TcpAdapter.Concurrent TcpAdapter.Queue TcpAdapter.Protocol TcpAdapter.Manager
open TcpAdapter.Policy

/-! ## The budget of a flush -/

/-- The frame lengths of the commands that the flush can still send. -/
def pool (w : World) (v : FlushState) : Multiset ℕ :=
  ((w.queue.snapshot : Multiset Command) + v.hands).map (Command.frameLength v.dctx.frameMode)

/-- No two of the frames fit into the remaining bytes together. -/
def NoTwoFit (remaining : Int) (lengths : Multiset ℕ) : Prop :=
  ∀ m n : ℕ, m ::ₘ {n} ≤ lengths → remaining < m + n

theorem NoTwoFit.mono {remaining : Int} {lengths lengths' : Multiset ℕ}
    (h : NoTwoFit remaining lengths) (hle : lengths' ≤ lengths) : NoTwoFit remaining lengths' :=
  fun m n hmn => h m n (hmn.trans hle)

/-- After one of them is sent, none of the others fits. -/
theorem NoTwoFit.sent {remaining : Int} {lengths : Multiset ℕ} {m : ℕ}
    (h : NoTwoFit remaining (m ::ₘ lengths)) : ∀ n ∈ lengths, remaining - m < n := by
  intro n hn
  have hpair : m ::ₘ {n} ≤ m ::ₘ lengths :=
    Multiset.cons_le_cons m (Multiset.singleton_le.mpr hn)
  have hlt := h m n hpair
  omega

theorem noTwoFit_of_pairwise {remaining : Int} {lengths : List ℕ}
    (h : lengths.Pairwise fun m n : ℕ => remaining < m + n) : NoTwoFit remaining lengths := by
  intro m n hle
  have hsub : [m, n].Subperm lengths := Multiset.coe_le.mp hle
  obtain ⟨l, hperm, hl⟩ := hsub
  have hsymm : ∀ {x y : ℕ}, remaining < x + y → remaining < y + x := by
    intro x y hxy
    omega
  have hpair : [m, n].Pairwise fun m n : ℕ => remaining < m + n :=
    (hperm.pairwise_iff hsymm).mp (h.sublist hl)
  simpa using hpair

theorem pool_eq {w w' : World} {v v' : FlushState} (hqueue : w'.queue = w.queue)
    (hhands : v'.hands = v.hands) (hmode : v'.dctx.frameMode = v.dctx.frameMode) :
    pool w' v' = pool w v := by
  simp only [pool, hqueue, hhands, hmode]

/-- The actions on the commands in hands and on the budget. -/
def Act.movesBudget : Act → Bool
  | .lockFlush | .unlockFlush | .deliveryContext | .popNext _ _ _ | .push _ => true
  | .registerInFlight _ _ _ | .publishAckWithCommand _ _ => true
  | _ => false

theorem FlushState.after_account {v : FlushState} {a : Act} (r : a.Res)
    (ha : a.movesBudget = false) :
    (v.after a r).hands = v.hands ∧ (v.after a r).dctx.frameMode = v.dctx.frameMode ∧
      (v.after a r).remaining = v.remaining := by
  cases a with
  | lockFlush | unlockFlush | deliveryContext | popNext | push | registerInFlight
  | publishAckWithCommand => cases ha
  | inFlightCount =>
      simp only [after]
      split <;> exact ⟨rfl, rfl, rfl⟩
  | setFWMode enabled =>
      cases r with
      | none => exact ⟨rfl, rfl, rfl⟩
      | some err =>
          simp only [after]
          split <;> exact ⟨rfl, rfl, rfl⟩
  | nextCommandSeq | transmit | setSyncMode | hasSync | hasFW | ackSent =>
      cases r <;> exact ⟨rfl, rfl, rfl⟩
  | _ => exact ⟨rfl, rfl, rfl⟩

section exec

variable {cfg : Config} {id : String} {tid : ℕ} {w w' : World} {inp : Input} {v : FlushState}

/-- Until it registers a command, a flush adds nothing to what it can still send. -/
theorem pool_own {a : Act} {r : a.Res} (hv : v.Holds tid w) (hactive : v.phase = .active)
    (hmay : v.May a) (hmutex : a.movesMutex = false)
    (hreg : ∀ seq cmd sentAt, a ≠ .registerInFlight seq cmd sentAt)
    (h : exec cfg id tid w a inp = some (w', r)) :
    pool w' (v.after a r) ≤ pool w v ∧ (v.after a r).remaining = v.remaining := by
  have hsession := hv.session (by simp [hactive]) (by simp [hactive])
  cases a with
  | lockFlush | unlockFlush => cases hmutex
  | registerInFlight seq cmd sentAt => exact absurd rfl (hreg seq cmd sentAt)
  | popNext now fwMode syncMode =>
      rcases exec_popNext hsession h with ⟨rfl, rfl⟩ | ⟨cmd, rfl, hpop⟩
      · exact ⟨le_rfl, rfl⟩
      · have hperm := Multiset.coe_eq_coe.mpr (ControllerQueue.popNext_snapshot_perm hpop)
        refine ⟨le_of_eq ?_, rfl⟩
        rw [pool, pool, hperm, ← Multiset.cons_coe]
        simp only [FlushState.after, FlushState.pop, Multiset.map_add, Multiset.map_cons,
          Multiset.cons_add, Multiset.add_cons]
        rfl
  | push cmd =>
      have hmem : cmd.unnumbered ∈ v.hands := by
        rcases hmay with hp | ⟨-, hmem, -⟩
        · cases hactive.symm.trans hp
        · exact hmem
      have hqueue := exec_push hsession h
      have hperm := Multiset.coe_eq_coe.mpr (ControllerQueue.push_snapshot_perm w.queue cmd)
      refine ⟨le_of_eq ?_, rfl⟩
      obtain ⟨rest, hrest⟩ := Multiset.exists_cons_of_mem hmem
      rw [pool, pool, hqueue, hperm, hrest, ← Multiset.cons_coe]
      simp only [FlushState.after, FlushState.putBack, hrest, Multiset.erase_cons_head,
        Multiset.map_add, Multiset.map_cons, Multiset.cons_add, Multiset.add_cons]
      rfl
  | drainExpired now =>
      have hqueue := exec_drainExpired hsession h
      have hperm := Multiset.coe_eq_coe.mpr (w.queue.drainExpired_snapshot_perm now)
      refine ⟨Multiset.map_le_map (Multiset.add_le_add_iff_right.mpr ?_), rfl⟩
      rw [hqueue, hperm, ← Multiset.coe_add]
      exact Multiset.le_add_left _ _
  | publishAckWithCommand event cmd =>
      refine ⟨?_, rfl⟩
      rw [pool, (exec_commands rfl h).1]
      exact Multiset.map_le_map (Multiset.add_le_add_iff_left.mpr (Multiset.erase_le _ _))
  | deliveryContext | inFlightCount => cases hactive.symm.trans hmay
  | now | publishAck | queueLen | setFWMode | setSyncMode | nextCommandSeq | transmit | hasSync
  | hasFW | ackSent =>
      obtain ⟨hhands, hmode, hremaining⟩ := FlushState.after_account (v := v) r rfl
      exact ⟨le_of_eq (pool_eq (exec_commands rfl h).1 hhands hmode), hremaining⟩
  | _ => cases hactive.symm.trans hmay

/-- What a flush knows about its budget: no two of the commands fit, and once one is in
flight no other one fits. -/
structure KnowsBudget (w : World) (v : FlushState) : Prop where
  locked : v.phase = .locked → v.hands = 0
  opened : v.phase = .opened → NoTwoFit v.remaining (pool w v)
  active : v.phase = .active →
    (∀ seq, w.inFlight seq = none) ∧ NoTwoFit v.remaining (pool w v) ∨
      ∀ n ∈ pool w v, v.remaining < n

theorem KnowsBudget.of_phase (hlocked : v.phase ≠ .locked) (hopened : v.phase ≠ .opened)
    (hactive : v.phase ≠ .active) : KnowsBudget w v :=
  ⟨fun hp => absurd hp hlocked, fun hp => absurd hp hopened, fun hp => absurd hp hactive⟩

/-- Fewer commands to send and fewer in flight. -/
theorem KnowsBudget.mono {v' : FlushState} (hk : KnowsBudget w v) (hphase : v'.phase = v.phase)
    (hhands : v.phase = .locked → v'.hands = v.hands) (hremaining : v'.remaining = v.remaining)
    (hpool : pool w' v' ≤ pool w v)
    (hnone : ∀ seq, w.inFlight seq = none → w'.inFlight seq = none) : KnowsBudget w' v' where
  locked hp := (hhands (hphase ▸ hp)).trans (hk.locked (hphase ▸ hp))
  opened hp := by
    rw [hremaining]
    exact (hk.opened (hphase ▸ hp)).mono hpool
  active hp := by
    rw [hremaining]
    rcases hk.active (hphase ▸ hp) with ⟨hempty, hfit⟩ | hfull
    · exact .inl ⟨fun seq => hnone seq (hempty seq), hfit.mono hpool⟩
    · exact .inr fun n hn => hfull n (Multiset.mem_of_le hpool hn)

/-- When a flush registers a command, nothing was in flight, and nothing else fits. -/
theorem register_budget {seq : UInt8} {cmd : Command} {sentAt : Time} (hk : KnowsBudget w v)
    (hmay : v.May (.registerInFlight seq cmd sentAt)) (hqueue : w'.queue = w.queue) :
    (∀ seq, w.inFlight seq = none) ∧ KnowsBudget w' (v.register seq cmd) := by
  obtain ⟨hactive, hfits⟩ := hmay
  obtain ⟨rest, hrest⟩ := Multiset.exists_cons_of_mem hfits.hands
  have hpool : pool w v = v.wire ::ₘ pool w' (v.register seq cmd) := by
    simp only [pool, hqueue, FlushState.register, hrest, Multiset.erase_cons_head,
      Multiset.add_cons, Multiset.map_cons, hfits.length]
  rcases hk.active hactive with ⟨hempty, hfit⟩ | hfull
  · rw [hpool] at hfit
    refine ⟨hempty, fun hp => ?_, fun hp => ?_, fun _ => .inr hfit.sent⟩
    · cases hactive.symm.trans hp
    · cases hactive.symm.trans hp
  · have hlt := hfull v.wire (by simp [hpool])
    exact absurd hfits.remaining (not_le.mpr hlt)

/-- When a flush reads the session, no two queued commands fit into its budget. -/
def NoTwoQueued (w : World) : Prop :=
  ∀ s ∈ w.session, (s.queue.snapshot.map (Command.frameLength s.frameMode)).Pairwise
    fun m n : ℕ => maxBudget s.deliveryContext < m + n

instance (w : World) : Decidable (NoTwoQueued w) :=
  inferInstanceAs (Decidable (∀ s ∈ w.session, _))

def fitsOne (w : World) : Act → Bool
  | .deliveryContext => NoTwoQueued w
  | _ => true

theorem knowsBudget_own {a : Act} {r : a.Res} (hv : v.Holds tid w) (hk : KnowsBudget w v)
    (hmay : v.May a) (hrule : fitsOne w a = true)
    (h : exec cfg id tid w a inp = some (w', r)) : KnowsBudget w' (v.after a r) := by
  refine FlushState.knowledge_own hmay h ?_ ?_ ?_ ?_ ?_ ?_
  · rintro v (hp | hp)
    · exact .of_phase (by simp [hp]) (by simp [hp]) (by simp [hp])
    · exact .of_phase (by simp [hp]) (by simp [hp]) (by simp [hp])
  · intro hslot
    have hpool : pool w' v = pool w v := pool_eq (by simp [hslot]) rfl rfl
    exact hk.mono rfl (fun _ => rfl) rfl hpool.le fun seq hseq => by simpa [hslot] using hseq
  · exact fun _ _ => ⟨fun _ => rfl, by simp, by simp⟩
  · rintro s rfl hlocked rfl hs
    have hslot : w.slot.session = some s := hs
    have hfit := noTwoFit_of_pairwise (of_decide_eq_true hrule s hs)
    refine ⟨by simp [FlushState.after], fun _ => ?_, by simp [FlushState.after]⟩
    simpa [pool, FlushState.after, hk.locked hlocked, Slot.queue, hslot,
      Session.deliveryContext] using hfit
  · rintro hopened rfl hcount
    rw [Slot.inFlightCount_eq] at hcount
    exact ⟨by simp, by simp, fun _ => .inl ⟨InFlight.count_eq_zero hcount, hk.opened hopened⟩⟩
  · intro hactive hruns hstill
    by_cases hreg : ∃ seq cmd sentAt, a = .registerInFlight seq cmd sentAt
    · obtain ⟨seq, cmd, sentAt, rfl⟩ := hreg
      have hsession := hv.session (by simp [hactive]) (by simp [hactive])
      cases r with
      | some err => cases hstill
      | none => exact (register_budget hk hmay (exec_registerInFlight hsession h).1).2
    · have hmutex : a.movesMutex = false := by cases a <;> first | rfl | cases hruns
      have hnot : ∀ seq cmd sentAt, a ≠ .registerInFlight seq cmd sentAt :=
        fun seq cmd sentAt ha => hreg ⟨seq, cmd, sentAt, ha⟩
      obtain ⟨hpool, hremaining⟩ := pool_own hv hactive hmay hmutex hnot h
      refine hk.mono (hstill.trans hactive.symm) (fun hp => ?_) hremaining hpool
        fun seq => exec_inFlight_none hnot h
      cases hactive.symm.trans hp

theorem knowsBudget_other {a : Act} {r : a.Res} {other : ℕ} {u : FlushState}
    (hv : v.Holds tid w) (hmay : v.May a) (hrule : undisturbed w a = true) (hne : other ≠ tid)
    (hu : u.Holds other w) (hk : KnowsBudget w u) (h : exec cfg id tid w a inp = some (w', r)) :
    KnowsBudget w' u := by
  by_cases hon : u.phase = .off
  · exact .of_phase (by simp [hon]) (by simp [hon]) (by simp [hon])
  · by_cases hlocked : u.phase = .locked
    · exact ⟨hk.locked, by simp [hlocked], by simp [hlocked]⟩
    · obtain ⟨hqueue, -, hnone⟩ := exec_undisturbed hv hmay hrule hne hu hon hlocked h
      refine hk.mono rfl (fun _ => rfl) rfl ?_ hnone
      exact Multiset.map_le_map (Multiset.add_le_add_iff_right.mpr hqueue)

/-- A flush registers one command at most. -/
theorem count_own {a : Act} {r : a.Res} (hw : w.inFlight.count ≤ 1) (hv : v.Holds tid w)
    (hk : KnowsBudget w v) (hmay : v.May a) (h : exec cfg id tid w a inp = some (w', r)) :
    w'.inFlight.count ≤ 1 := by
  by_cases hreg : ∃ seq cmd sentAt, a = .registerInFlight seq cmd sentAt
  · obtain ⟨seq, cmd, sentAt, rfl⟩ := hreg
    have hsession := hv.session (by simp [hmay.1]) (by simp [hmay.1])
    obtain ⟨hqueue, hinFlight, -⟩ := exec_registerInFlight hsession h
    rw [hinFlight, InFlight.count_insert (register_budget hk hmay hqueue).1]
  · have hnot : ∀ seq cmd sentAt, a ≠ .registerInFlight seq cmd sentAt :=
      fun seq cmd sentAt ha => hreg ⟨seq, cmd, sentAt, ha⟩
    exact (InFlight.count_le fun seq => exec_inFlight_none hnot h).trans hw

end exec

/-! ## Runs -/

section rules

variable (cfg : Config) (id : String)

/-- Runs without a restart in which every flush finds no two queued commands that fit into
its budget, and nobody adds to the queue while it runs. -/
abbrev oneFitsRules : Rules (machine cfg id) where
  act w _ a _ := undisturbed w a = true ∧ fitsOne w a = true
  crash _ := False

def budgets : Discipline (machine cfg id) (oneFitsRules cfg id) {} FlushState :=
  (flushes cfg id (oneFitsRules cfg id)).strengthen
    (fun w => w.inFlight.count ≤ 1) (fun _ w v => KnowsBudget w v)
    (Nat.zero_le 1)
    (fun _ _ _ hoff => .of_phase (fun hp => by cases hoff.symm.trans hp)
      (fun hp => by cases hoff.symm.trans hp) fun hp => by cases hoff.symm.trans hp)
    (fun m hw hk hnext _ => by
      subst hnext
      exact ⟨count_own hw m.knows hk m.may m.exec,
        knowsBudget_own m.knows hk m.may m.rule.2 m.exec⟩)
    (fun m _ hne hu hk => knowsBudget_other m.knows m.may m.rule.1 hne hu hk m.exec)
    (fun _ hcrash => hcrash.elim)

end rules

/-- At most one command is in flight. -/
theorem at_most_one_in_flight {cfg : Config} {id : String}
    {c : Concurrent.Config (machine cfg id)} (h : Reachable (oneFitsRules cfg id) {} c) :
    c.world.inFlight.count ≤ 1 :=
  ((budgets cfg id).sound h).1.2

/-- Two commands are queued, and the controller has 1500 free bytes. -/
def twoSentLabels : List (Label (machine {} "c")) :=
  connect ++ call 0 (.enqueue { commandID := 9 } 0) 20 ++
    call 0 (.enqueue { commandID := 9 } 0) 20 ++ call 0 .flush 60

/-- One flush has put two commands in flight. -/
theorem two_in_flight :
    ∃ c, Reachable (savingRules {} "c") {} c ∧ c.world.inFlight.count = 2 :=
  ⟨_, Reachable.initial.run twoSentLabels, by decide +kernel⟩

/-- The controller has 12 free bytes and each of the two commands needs 11. -/
def oneSentLabels : List (Label (machine {} "c")) :=
  connect ++ call 0 (.status1 7 ⟨255, 1, [2, 0, 0, 0, 0, 0, 0, 12, 0], .sequenced⟩) 5 ++
    call 0 (.enqueue { commandID := 9 } 0) 20 ++ call 0 (.enqueue { commandID := 9 } 0) 20 ++
    call 0 .flush 60

theorem one_in_flight :
    ∃ c, Reachable (oneFitsRules {} "c") {} c ∧ c.world.queue.len = 1 ∧
      c.world.inFlight.count ≤ 1 := by
  have hsent : ∃ c, Reachable (oneFitsRules {} "c") {} c ∧ c.world.queue.len = 1 :=
    ⟨_, Reachable.initial.run oneSentLabels, by decide +kernel⟩
  obtain ⟨c, hc, hlen⟩ := hsent
  exact ⟨c, hc, hlen, at_most_one_in_flight hc⟩

end TcpAdapter.Delivery
