import Mathlib.Algebra.BigOperators.Group.Multiset.Basic
import Mathlib.Algebra.Order.BigOperators.Group.Multiset
import TcpAdapter.Verification.Delivery.Clerk
import TcpAdapter.Verification.Delivery.Stock

/-! # Queue limits

Only `Enqueue` holds a queue against its limits, and it counts what is queued at that moment.
What is in flight or in the hands of a flush may come back to the queue afterwards. If
`Enqueue` runs only while nothing is there but the queue, the limits hold for the whole stock
and so for the queue. -/

namespace TcpAdapter.Delivery

open TcpAdapter.Concurrent TcpAdapter.Queue TcpAdapter.Protocol TcpAdapter.Manager
open TcpAdapter.Policy

/-! ## Limits on a stock of commands -/

structure Within (cfg : Config) (cmds : Multiset Command) : Prop where
  depth : cmds.card ≤ cfg.maxQueueDepth
  bytes : (cmds.map estimatedCommandBytes).sum ≤ cfg.maxQueueBytes

theorem sum_bytes_nonneg (cmds : Multiset Command) :
    0 ≤ (cmds.map estimatedCommandBytes).sum := by
  refine Multiset.sum_nonneg fun n hn => ?_
  obtain ⟨cmd, -, rfl⟩ := Multiset.mem_map.mp hn
  unfold estimatedCommandBytes
  omega

/-- The limits do not depend on what delivery changes about a command. -/
theorem Within.of_core_le {cfg : Config} {s t : Multiset Command} (h : Within cfg t)
    (hle : s.map Command.core ≤ t.map Command.core) : Within cfg s := by
  have hbytes : ∀ u : Multiset Command,
      ((u.map Command.core).map estimatedCommandBytes).sum = (u.map estimatedCommandBytes).sum := by
    intro u
    rw [Multiset.map_map]
    rfl
  refine ⟨?_, ?_⟩
  · have hcard := Multiset.card_le_card hle
    rw [Multiset.card_map, Multiset.card_map] at hcard
    exact (Int.ofNat_le.mpr hcard).trans h.depth
  · obtain ⟨rest, hrest⟩ := Multiset.le_iff_exists_add.mp hle
    have hsum := congrArg (fun u => (Multiset.map estimatedCommandBytes u).sum) hrest
    simp only [Multiset.map_add, Multiset.sum_add, hbytes] at hsum
    have hpos := sum_bytes_nonneg rest
    have hbound := h.bytes
    omega

theorem card_queued (w : World) : w.queued.card = w.queue.len := by
  simp only [World.queued, ControllerQueue.snapshot, ControllerQueue.len, Multiset.coe_card,
    List.length_append]

theorem sum_queued (w : World) :
    (w.queued.map estimatedCommandBytes).sum = w.queue.totalEstimatedBytes := by
  simp only [World.queued, ControllerQueue.snapshot, ControllerQueue.totalEstimatedBytes,
    Multiset.map_coe, Multiset.sum_coe, List.map_append, List.sum_append]

/-- The queue is part of the stock. -/
theorem Within.queue {cfg : Config} {w : World} {v : Courier} (h : Within cfg (stock w v)) :
    w.queue.len ≤ cfg.maxQueueDepth ∧ w.queue.totalEstimatedBytes ≤ cfg.maxQueueBytes := by
  have hle : w.queued ≤ stock w v :=
    (Multiset.le_add_right w.queued w.flying).trans (Multiset.le_add_right w.shelf v.hands)
  have hqueued := h.of_core_le (Multiset.map_le_map hle)
  exact ⟨card_queued w ▸ hqueued.depth, sum_queued w ▸ hqueued.bytes⟩

/-! ## What the clerk knows about the queue -/

/-- Nothing is out of the queue, and what the clerk has read is still true. -/
structure Counted (w : World) (v : Clerk) : Prop where
  flushMu : w.flushMu = none
  inFlight : ∀ seq, w.inFlight seq = none
  depth : ∀ n, v.depth = some n → w.queue.len = n
  bytes : ∀ b, v.bytes = some b → w.queue.totalEstimatedBytes = b

/-- `Enqueue` runs only while no command is in flight and no flush is going on, and no flush
starts while a thread holds the manager. -/
def enqueuesAlone (w : World) : Act → Bool
  | .ensureSession => w.flushMu = none && w.inFlight.entries.isEmpty
  | .lockFlush => w.mu = none
  | _ => true

section exec

variable {cfg : Config} {id : String} {tid : ℕ} {w w' : World} {inp : Input} {a : Act}
  {r : a.Res} {v : Clerk}

/-- A thread that neither flushes nor holds the manager leaves the queue alone. -/
theorem exec_queue_same (hcourier : ({} : Courier).May a) (hdrop : a ≠ .dropOldest)
    (hnew : ∀ cmd, a ≠ .pushNew cmd) (hvisit : ∀ seq now, a ≠ .visitInFlight seq now)
    (h : exec cfg id tid w a inp = some (w', r)) : w'.queue = w.queue := by
  have hm := exec_queueMove h
  generalize w'.queue = q at hm
  cases hm with
  | same => rfl
  | popped => cases hcourier.1
  | drained => cases hcourier
  | putBack cmd =>
      rcases hcourier.2 with hmem | ⟨hchosen, -⟩
      · exact absurd hmem (Multiset.notMem_zero _)
      · cases hchosen
  | enqueued cmd => exact absurd rfl (hnew cmd)
  | evicted => exact absurd rfl hdrop
  | retried now => exact absurd rfl (hvisit _ now)

theorem inFlight_none_of_idle (hcourier : ({} : Courier).May a) (hnone : ∀ seq, w.inFlight seq = none)
    (h : exec cfg id tid w a inp = some (w', r)) (seq : UInt8) : w'.inFlight seq = none := by
  cases hentry : w'.inFlight seq with
  | none => rfl
  | some entry =>
      rcases exec_inFlight_some h hentry with hold | ⟨cmd, sentAt, rfl, -⟩
      · rw [hnone seq] at hold
        cases hold
      · obtain ⟨⟨⟨orig, horig, -⟩, -⟩, -⟩ := hcourier
        cases horig

/-- Nothing happens to the flush mutex while the clerk has entered. -/
theorem flushMu_none_of_idle (hcourier : ({} : Courier).May a) (hlock : a ≠ .lockFlush)
    (hnone : w.flushMu = none) (h : exec cfg id tid w a inp = some (w', r)) : w'.flushMu = none := by
  cases a with
  | lockFlush => exact absurd rfl hlock
  | unlockFlush => cases hcourier
  | _ => exact (exec_mutex rfl h).1.trans hnone

/-- The queue has not changed. -/
theorem Counted.of_same {v' : Clerk} (hc : Counted w v) (hcourier : ({} : Courier).May a)
    (hlock : a ≠ .lockFlush) (hqueue : w'.queue = w.queue) (hdepth : v'.depth = v.depth)
    (hbytes : v'.bytes = v.bytes) (h : exec cfg id tid w a inp = some (w', r)) :
    Counted w' v' where
  flushMu := flushMu_none_of_idle hcourier hlock hc.flushMu h
  inFlight := inFlight_none_of_idle hcourier hc.inFlight h
  depth n hn := by
    rw [hqueue]
    exact hc.depth n (hdepth ▸ hn)
  bytes b hb := by
    rw [hqueue]
    exact hc.bytes b (hbytes ▸ hb)

/-- The clerk has changed the queue and forgets what it read. -/
theorem Counted.forget {v' : Clerk} (hc : Counted w v) (hcourier : ({} : Courier).May a)
    (hlock : a ≠ .lockFlush) (hdepth : v'.depth = none) (hbytes : v'.bytes = none)
    (h : exec cfg id tid w a inp = some (w', r)) : Counted w' v' where
  flushMu := flushMu_none_of_idle hcourier hlock hc.flushMu h
  inFlight := inFlight_none_of_idle hcourier hc.inFlight h
  depth n hn := by
    rw [hdepth] at hn
    cases hn
  bytes b hb := by
    rw [hbytes] at hb
    cases hb

/-- `Enqueue` begins. -/
theorem Counted.enter (hrule : enqueuesAlone w .ensureSession = true) {r : Option Error}
    (h : exec cfg id tid w .ensureSession inp = some (w', r)) {v' : Clerk}
    (hdepth : v'.depth = none) (hbytes : v'.bytes = none) : Counted w' v' := by
  simp only [enqueuesAlone, Bool.and_eq_true, decide_eq_true_eq, List.isEmpty_iff] at hrule
  have hnone : ∀ seq, w.inFlight seq = none := by
    intro seq
    cases hentry : w.inFlight seq with
    | none => rfl
    | some entry =>
        have hmem := InFlight.mem_entries.mpr ⟨seq, hentry⟩
        rw [hrule.2] at hmem
        cases hmem
  have hc : Counted w {} := ⟨hrule.1, hnone, by simp, by simp⟩
  exact hc.forget (by trivial) (by simp) hdepth hbytes h

/-- A clerk that has entered holds the mutex. -/
theorem Clerk.Holds.mu_of_entered (hv : v.Holds tid w) (hon : v.entered = true) :
    w.mu = some tid := by
  refine hv.locked.mp (by_contra fun hoff => ?_)
  rw [hv.off (Bool.eq_false_iff.mpr hoff)] at hon
  cases hon

/-- No flush starts while the clerk has entered. -/
theorem ne_lockFlush {other : ℕ} (hv : v.Holds other w) (hon : v.entered = true)
    (hrule : enqueuesAlone w a = true) : a ≠ .lockFlush := by
  rintro rfl
  simp only [enqueuesAlone, decide_eq_true_eq] at hrule
  rw [hv.mu_of_entered hon] at hrule
  cases hrule

theorem Counted.own {u : Courier} (hv : v.Holds tid w) (hu : u.Holds tid w) (hmay : u.May a)
    (hrule : enqueuesAlone w a = true) (h : exec cfg id tid w a inp = some (w', r))
    (hk : v.entered = true → Counted w v) (hon : (v.after a r).entered = true) :
    Counted w' (v.after a r) := by
  have hcourier : v.entered = true → ({} : Courier).May a := by
    intro hon
    have hidle := hu.off_of_mutex (by simp [(hk hon).flushMu])
    exact hidle ▸ hmay
  -- the clerk had entered before
  have hsame : (v.after a r).entered = v.entered → a ≠ .dropOldest → (∀ cmd, a ≠ .pushNew cmd) →
      (∀ seq now, a ≠ .visitInFlight seq now) → (v.after a r).depth = v.depth →
      (v.after a r).bytes = v.bytes → Counted w' (v.after a r) := by
    intro hentered hdrop hnew hvisit hdepth hbytes
    have hon : v.entered = true := hentered ▸ hon
    have hqueue := exec_queue_same (hcourier hon) hdrop hnew hvisit h
    exact (hk hon).of_same (hcourier hon) (ne_lockFlush hv hon hrule) hqueue hdepth hbytes h
  cases a with
  | lockManager | unlockManager => cases hon
  | ensureSession =>
      cases r with
      | none => exact .enter hrule h rfl rfl
      | some err => exact hsame rfl (by simp) (by simp) (by simp) rfl rfl
  | dropOldest | visitInFlight | pushNew =>
      exact (hk hon).forget (hcourier hon) (by simp) rfl rfl h
  | queueLen =>
      cases h
      cases hentered : v.entered with
      | false => simp [Clerk.after, hentered] at hon
      | true =>
          have hc := hk hentered
          simp only [Clerk.after, hentered, if_true]
          refine ⟨hc.flushMu, hc.inFlight, fun n hn => ?_, hc.bytes⟩
          cases hn
          rfl
  | queueBytes =>
      cases h
      cases hentered : v.entered with
      | false => simp [Clerk.after, hentered] at hon
      | true =>
          have hc := hk hentered
          simp only [Clerk.after, hentered, if_true]
          refine ⟨hc.flushMu, hc.inFlight, hc.depth, fun b hb => ?_⟩
          cases hb
          rfl
  | now =>
      have hkeeps : (v.after .now r).entered = v.entered ∧ (v.after .now r).depth = v.depth ∧
          (v.after .now r).bytes = v.bytes := by
        simp only [Clerk.after]
        split <;> simp
      exact hsame hkeeps.1 (by simp) (by simp) (by simp) hkeeps.2.1 hkeeps.2.2
  | _ => exact hsame rfl (by simp) (by simp) (by simp) rfl rfl

theorem Counted.other {other : ℕ} {v' : Clerk} {u : Courier} (hv : v.Holds tid w)
    (hmay : v.May cfg a) (hu : u.Holds tid w) (hmayu : u.May a)
    (hrule : enqueuesAlone w a = true) (h : exec cfg id tid w a inp = some (w', r))
    (hne : other ≠ tid) (hv' : v'.Holds other w) (hon : v'.entered = true)
    (hc : Counted w v') : Counted w' v' := by
  have hcourier : ({} : Courier).May a := by
    have hidle := hu.off_of_mutex (by simp [hc.flushMu])
    exact hidle ▸ hmayu
  have hclerk : ({} : Clerk).May cfg a := by
    have hidle := hv.off_of_mutex (by rw [hv'.mu_of_entered hon]; simpa using hne)
    exact hidle ▸ hmay
  have hqueue : w'.queue = w.queue := by
    refine exec_queue_same hcourier ?_ ?_ ?_ h
    · rintro rfl
      cases hclerk.1
    · rintro cmd rfl
      cases hclerk.1
    · rintro seq now rfl
      cases hclerk
  exact hc.of_same hcourier (ne_lockFlush hv' hon hrule) hqueue rfl rfl h

/-! ### The stock -/

/-- The clerk has found room for the command. -/
theorem Within.pushNew {cmd : Command} {r : ℕ} (hdepth : 0 < cfg.maxQueueDepth)
    (hbytes : 0 < cfg.maxQueueBytes) (hc : Counted w v) (hroom : v.Room cfg cmd)
    (h : exec cfg id tid w (.pushNew cmd) inp = some (w', r)) : Within cfg (stock w' {}) := by
  have hflying : w'.flying = 0 := by
    have hentries : w'.inFlight.entries = [] := by
      rw [exec_inFlight rfl h]
      refine List.filterMap_eq_nil_iff.mpr fun seq _ => hc.inFlight seq
    rw [World.flying, hentries]
    rfl
  have hqueued : w'.queued ≤ w.queued + {{ cmd with ticket := w.tickets }} :=
    (exec_queueMove h).queued_le rfl (by simp)
  have hwithin : Within cfg (w.queued + {{ cmd with ticket := w.tickets }}) := by
    obtain ⟨n, hn, hroomDepth⟩ := hroom.depth hdepth
    obtain ⟨b, hb, hroomBytes⟩ := hroom.bytes hbytes
    refine ⟨?_, ?_⟩
    · rw [Multiset.card_add, Multiset.card_singleton, card_queued, hc.depth n hn]
      exact_mod_cast hroomDepth
    · rw [Multiset.map_add, Multiset.sum_add, sum_queued, hc.bytes b hb, Multiset.map_singleton,
        Multiset.sum_singleton]
      exact hroomBytes
  have hstock : stock w' {} = w'.queued := by
    simp [stock, World.shelf, hflying, Courier.hands]
  rw [hstock]
  exact hwithin.of_core_le (Multiset.map_le_map hqueued)

theorem Within.own {u : Courier} (hdepth : 0 < cfg.maxQueueDepth)
    (hbytes : 0 < cfg.maxQueueBytes) (hmay : v.May cfg a) (hk : v.entered = true → Counted w v)
    (hu : u.Holds tid w) (hmayu : u.May a) (h : exec cfg id tid w a inp = some (w', r))
    (hw : Within cfg (stock w u)) : Within cfg (stock w' (u.after a r)) := by
  by_cases ha : ∃ cmd, a = .pushNew cmd
  · obtain ⟨cmd, rfl⟩ := ha
    obtain ⟨-, hentered, hroom, -⟩ := hmay
    have hc := hk hentered
    rw [hu.off_of_mutex (by simp [hc.flushMu])]
    exact .pushNew hdepth hbytes hc hroom h
  · have hle := exec_stock hmayu h
    rw [added_of_ne fun cmd heq => ha ⟨cmd, heq⟩, Multiset.add_zero] at hle
    exact hw.of_core_le hle

theorem Within.other {u : Courier} (ha : ∀ cmd, a ≠ .pushNew cmd)
    (hmayu : ({} : Courier).May a) (h : exec cfg id tid w a inp = some (w', r))
    (hw : Within cfg (stock w u)) : Within cfg (stock w' u) := by
  have hle := exec_stock_beside u (Courier.may_idle hmayu).1 h
  rw [added_of_ne ha, Multiset.add_zero] at hle
  exact hw.of_core_le hle

end exec

/-! ## Runs -/

section rules

variable (cfg : Config) (id : String)

abbrev limitRules : Rules (machine cfg id) where
  act w _ a _ := enqueuesAlone w a = true
  crash _ := False

/-- Clerks that know what the queue holds. -/
def countingClerks : Discipline (machine cfg id) (limitRules cfg id) {} (Courier × Clerk) :=
  ((couriers cfg id (limitRules cfg id)).prod (clerks cfg id (limitRules cfg id))).strengthen
    (fun _ => True) (fun _ w v => v.2.entered = true → Counted w v.2) trivial
    (fun _ _ v hidle hon => by
      rw [hidle.2] at hon
      cases hon)
    (fun m _ hk hnext _ => by
      obtain ⟨-, -, heq⟩ := hnext
      rw [heq]
      exact ⟨trivial, fun hon => .own m.knows.2 m.knows.1 m.may.1 m.rule m.exec hk hon⟩)
    (fun m _ hne hv' hk hon =>
      .other m.knows.2 m.may.2 m.knows.1 m.may.1 m.rule m.exec hne hv'.2 hon (hk hon))
    fun _ _ => trivial

variable {cfg} in
def limits (hdepth : 0 < cfg.maxQueueDepth) (hbytes : 0 < cfg.maxQueueBytes) :
    Discipline (machine cfg id) (limitRules cfg id) {} (Courier × Clerk) :=
  (countingClerks cfg id).strengthen
    (fun w => w.flushMu = none → Within cfg (stock w {}))
    (fun _ w v => v.1.flushing = true → Within cfg (stock w v.1))
    (fun _ => by
      rw [stock_initial]
      exact ⟨by simpa using hdepth.le, by simpa using hbytes.le⟩)
    (fun _ _ v hidle hon => by
      rw [hidle.1] at hon
      cases hon)
    (fun m hj hk hnext hv' => by
      have hheld := hv'.1.1
      rw [hnext.1] at hheld ⊢
      refine Courier.Holds.carried_own (P := fun w u => Within cfg (stock w u))
        (Q := fun w u => Within cfg (stock w u)) m.knows.1.1 hheld m.may.1 m.exec
        (fun hw => ?_) hj hk
      exact hw.own hdepth hbytes m.may.2 m.knows.2 m.knows.1.1 m.may.1 m.exec)
    (fun m _ hne hu hk hon => by
      refine Courier.Holds.carried_other (P := fun w u => Within cfg (stock w u))
        (Q := fun w u => Within cfg (stock w u)) m.knows.1.1 hne hu.1.1
        (fun hidle hw => ?_) hk hon
      refine hw.other ?_ (hidle ▸ m.may.1) m.exec
      rintro cmd rfl
      -- the clerk that pushes has entered, and then nobody flushes
      have hnone := (m.knows.2 m.may.2.2.1).flushMu
      rw [hu.1.1.flushing.mp hon] at hnone
      cases hnone)
    fun _ hcrash => hcrash.elim

end rules

/-- With limits on depth and size, a queue stays within both. -/
theorem queue_within_limits {cfg : Config} {id : String} (hdepth : 0 < cfg.maxQueueDepth)
    (hbytes : 0 < cfg.maxQueueBytes) {c : Concurrent.Config (machine cfg id)}
    (h : Reachable (limitRules cfg id) {} c) :
    c.world.queue.len ≤ cfg.maxQueueDepth ∧
      c.world.queue.totalEstimatedBytes ≤ cfg.maxQueueBytes := by
  have hsound := (limits id hdepth hbytes).sound h
  cases hmu : c.world.flushMu with
  | none => exact (hsound.1.2 hmu).queue
  | some tid =>
      obtain ⟨v, ⟨⟨⟨hv, -⟩, -⟩, hk⟩, -⟩ := hsound.2 tid
      exact (hk (hv.flushing.mpr hmu)).queue

/-- One command fits into the queue. -/
def narrow : Config := { maxQueueDepth := 1 }

/-- One command is sent, another is queued, and the first one waits out its time. -/
def refilledLabels : List (Label (machine narrow "c")) :=
  connect ++ call 0 (.enqueue { commandID := 9 } 1) 20 ++ call 0 .flush 40 ++
    call 0 (.enqueue { commandID := 9 } 1) 20 ++
    call 0 .process 20 { time := 10 * second, order := [1] }

theorem retry_overfills_queue :
    ∃ c, Reachable (.any (machine narrow "c")) {} c ∧ c.world.queue.len = 2 :=
  ⟨_, Reachable.initial.run refilledLabels, by decide +kernel⟩

/-- The first command makes room for the second and the second one goes out and comes back. -/
def evictedLabels : List (Label (machine narrow "c")) :=
  connect ++ call 0 (.enqueue { commandID := 9 } 1) 20 ++
    call 0 (.enqueue { commandID := 9 } 3) 20 ++ call 0 .flush 40 ++
    call 0 .process 20 { time := 10 * second, order := [1] }

theorem evicting_queue_within_limits :
    ∃ c, Reachable (limitRules narrow "c") {} c ∧ c.world.log.countP (· = .evicted 0) = 1 ∧
      c.world.queue.len = 1 ∧ c.world.queue.len ≤ narrow.maxQueueDepth := by
  have hevicted : ∃ c, Reachable (limitRules narrow "c") {} c ∧
      c.world.log.countP (· = .evicted 0) = 1 ∧ c.world.queue.len = 1 :=
    ⟨_, Reachable.initial.run evictedLabels, by decide +kernel⟩
  obtain ⟨c, hc, hlog, hlen⟩ := hevicted
  exact ⟨c, hc, hlog, hlen, (queue_within_limits (by decide) (by decide) hc).1⟩

end TcpAdapter.Delivery
