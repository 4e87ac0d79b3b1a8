import TcpAdapter.Concurrent.Locks
import TcpAdapter.Verification.Delivery.Clerk
import TcpAdapter.Verification.Delivery.Courier
import TcpAdapter.Verification.Server.Calls
import TcpAdapter.Verification.Server.Tasks

/-! # The mutexes of the server

`Manager.mu` is one mutex for all controllers; each controller has its own flush mutex. A flush
calls methods of the manager while it holds its flush mutex, and nobody asks for a flush mutex
or for another method of the manager while it holds `Manager.mu`. So the goroutines cannot
deadlock, whichever controllers they work for. -/

namespace TcpAdapter.Server

open TcpAdapter.Concurrent TcpAdapter.Queue TcpAdapter.Protocol TcpAdapter.Manager
open TcpAdapter.Delivery (Deliver Clerk Courier)

/-- `Manager.mu`, and the flush mutex of a controller. -/
inductive Mutex where
  | manager
  | flush (id : String)
  deriving DecidableEq

namespace Mutex

/-- `Manager.mu` is acquired last. -/
def rank : Mutex → ℕ
  | manager => 1
  | flush _ => 0

/-- What an action of a delivery engine does with the mutexes. -/
def use (id : String) : Delivery.Act → LockUse Mutex
  | .lockFlush => .acquire (.flush id)
  | .unlockFlush => .release (.flush id)
  | .lockManager => .acquire .manager
  | .unlockManager => .release .manager
  | .create _ | .markOffline | .touch | .updateBufferFree _ | .setFWMode _ | .setSyncMode _ =>
      .pass .manager
  | .setFrameMode _ | .deliveryContext | .inFlightCount | .ackSent | .nextCommandSeq =>
      .pass .manager
  | .registerInFlight _ _ _ | .ackInFlight _ | .peekInFlight _ => .pass .manager
  | _ => .none

def holder (w : World) : Mutex → Option ℕ
  | manager => w.mu
  | flush id => (w.deliveries id).flushMu

end Mutex

/-- A handler waits until its connection has been handed over to it. -/
def locking : Locking sig Mutex where
  use a := a.engine.elim .none fun e => Mutex.use e.1 e.2.1
  rank := Mutex.rank
  waits a := ∃ conn, a = .begin conn
  loops a := a = .spin ∨ ∃ id, a = .deliver id .spin

/-! ## The goroutines keep to the order -/

section order

variable {id : String} {held : Set Mutex}

/-- The protocol of the mutexes for one controller. -/
abbrev engineLocks (id : String) : Protocol Delivery.sig (Set Mutex) :=
  onBehalf locking.protocol id

theorem may_of_use_none {a : Delivery.Act} (h : Mutex.use id a = .none) :
    (engineLocks id).may held a :=
  Locking.may_none h (by rintro ⟨_, ⟨⟩⟩)

theorem may_of_empty {a : Delivery.Act} (h : ∀ l, Mutex.use id a ≠ .release l) :
    (engineLocks id).may ∅ a :=
  Locking.may_empty h

theorem next_of_use_none {a : Delivery.Act} {r : a.Res} {held' : Set Mutex}
    (h : Mutex.use id a = .none) (hn : (engineLocks id).next held a r held') : held' = held := by
  have hafter : held' = (Mutex.use id a).after held := hn.2
  rwa [h] at hafter

/-- A program that has nothing to do with the mutexes. -/
theorem respects_of_use_none {α : Type} {p : Deliver α}
    (h : p.Only fun a => Mutex.use id a = .none) :
    p.Respects (engineLocks id) (fun _ held' => held' = held) held :=
  h.respects (I := fun held' => held' = held)
    (fun _ _ ha hv => ⟨may_of_use_none ha, fun _ _ hn => (next_of_use_none ha hn).trans hv⟩) rfl

/-- One action of a program. -/
theorem act_keeps_order {α : Type} {post : α → Set Mutex → Prop} {a : Delivery.Act}
    {k : a.Res → Deliver α} (hmay : (engineLocks id).may held a)
    (hk : ∀ r, (k r).Respects (engineLocks id) post ((Mutex.use id a).after held)) :
    (Delivery.perform a >>= k).Respects (engineLocks id) post held := by
  refine ⟨hmay, ?_⟩
  rintro r held' ⟨-, rfl⟩
  exact hk r

theorem benign_idle (a : Delivery.Act) (held : Set Mutex) (ha : a.Benign) (hidle : held = ∅) :
    (engineLocks id).may held a ∧ ∀ r held', (engineLocks id).next held a r held' → held' = ∅ := by
  subst hidle
  cases a with
  | publishAck | now | write | touch | updateBufferFree | setFWMode | setFrameMode | create
  | markOffline | peekInFlight => exact ⟨may_of_empty nofun, fun _ _ hn => hn.2⟩
  | _ => exact ha.elim

theorem may_unlockManager : (engineLocks id).may {.manager} .unlockManager := by
  refine ⟨nofun, ?_, by rintro ⟨_, ⟨⟩⟩⟩
  rintro l ⟨⟩
  rfl

/-- The clerk that has locked holds `Manager.mu` and nothing else. -/
def ClerkHolds (v : Clerk) (held : Set Mutex) : Prop :=
  held = if v.locked then {.manager} else ∅

theorem ClerkHolds.step {cfg : Policy.Config} {a : Delivery.Act} {v : Clerk}
    (ha : a.Admitting) (hheld : ClerkHolds v held) (hmay : (Clerk.protocol cfg).may v a) :
    (engineLocks id).may held a ∧ ∀ r held', (engineLocks id).next held a r held' →
      ∃ v', (Clerk.protocol cfg).next v a r v' ∧ ClerkHolds v' held' := by
  have hother : Mutex.use id a = .none → a ≠ .spin → a ≠ .lockManager → a ≠ .unlockManager →
      (engineLocks id).may held a ∧ ∀ r held', (engineLocks id).next held a r held' →
        ∃ v', (Clerk.protocol cfg).next v a r v' ∧ ClerkHolds v' held' := by
    intro huse hspin hlock hunlock
    refine ⟨may_of_use_none huse, fun r held' hn => ⟨_, ⟨hspin, rfl⟩, ?_⟩⟩
    rw [next_of_use_none huse hn, ClerkHolds, Clerk.after_locked v r hlock hunlock]
    exact hheld
  cases a with
  | lockManager =>
      have hoff : v.locked = false := hmay
      rw [ClerkHolds, hoff] at hheld
      subst hheld
      refine ⟨may_of_empty nofun, fun r held' hn => ⟨_, ⟨nofun, rfl⟩, hn.2.trans ?_⟩⟩
      exact insert_empty_eq _
  | unlockManager =>
      have hon : v.locked = true := hmay
      rw [ClerkHolds, hon] at hheld
      subst hheld
      refine ⟨may_unlockManager, fun r held' hn => ⟨_, ⟨nofun, rfl⟩, hn.2.trans ?_⟩⟩
      exact Set.sdiff_self
  | spin => exact ⟨may_of_use_none rfl, fun r held' hn => absurd (.inr ⟨id, rfl⟩) hn.1⟩
  | ensureSession | pushNew | persistEnqueued | now | dedupTime | setDedup | queueLen | queueBytes
  | dropOldest => exact hother rfl nofun nofun nofun
  | _ => exact ha.elim

theorem enqueue_keeps_order (cfg : Policy.Config) (cmd : Command) (fuel : ℕ) :
    (Delivery.enqueueCommand cfg id cmd fuel).Respects (engineLocks id)
      (fun _ held => held = ∅) ∅ := by
  have hclerk : (Delivery.enqueueCommand cfg id cmd fuel).Respects (Clerk.protocol cfg)
      (fun _ v => v = {}) {} := Clerk.enqueue_respects cmd fuel rfl
  have hnone : ClerkHolds {} ∅ := rfl
  refine (hclerk.transfer ClerkHolds.step (Delivery.enqueueCommand_only cfg id cmd fuel)
    hnone).mono ?_
  rintro x held ⟨v, rfl, hheld⟩
  exact hheld

/-- The flush holds its mutex and, between its calls of the manager, nothing else. -/
def CourierHolds (id : String) (v : Courier) (held : Set Mutex) : Prop :=
  held = if v.flushing then {.flush id} else ∅

/-- A flush may call a method of the manager. -/
theorem CourierHolds.may_pass {v : Courier} {a : Delivery.Act} (h : CourierHolds id v held)
    (huse : Mutex.use id a = .pass .manager) : (engineLocks id).may held a := by
  refine ⟨fun l hneeds l' hl' => ?_, fun l hl => ?_, by rintro ⟨_, ⟨⟩⟩⟩
  · have hmanager : (Mutex.use id a).needs = some l := hneeds
    rw [huse] at hmanager
    obtain rfl := Option.some.inj hmanager
    rw [h] at hl'
    split at hl'
    · obtain rfl := hl'
      exact Nat.zero_lt_one
    · exact hl'.elim
  · have hrelease : Mutex.use id a = .release l := hl
    rw [huse] at hrelease
    cases hrelease

theorem CourierHolds.step {a : Delivery.Act} {v : Courier} (ha : a.InFlush)
    (hheld : CourierHolds id v held) (hmay : Courier.protocol.may v a) :
    (engineLocks id).may held a ∧ ∀ r held', (engineLocks id).next held a r held' →
      ∃ v', Courier.protocol.next v a r v' ∧ CourierHolds id v' held' := by
  have hsame : a.movesMutex = false → ∀ r, CourierHolds id (v.after a r) held := by
    intro hmutex r
    rw [CourierHolds, Courier.after_flushing v r hmutex]
    exact hheld
  cases a with
  | lockFlush =>
      have hoff : v.flushing = false := hmay
      rw [CourierHolds, hoff] at hheld
      subst hheld
      refine ⟨may_of_empty nofun, fun r held' hn => ⟨_, rfl, hn.2.trans ?_⟩⟩
      exact insert_empty_eq _
  | unlockFlush =>
      have hon : v.flushing = true := hmay
      rw [CourierHolds, hon] at hheld
      subst hheld
      refine ⟨⟨nofun, ?_, by rintro ⟨_, ⟨⟩⟩⟩, fun r held' hn => ⟨_, rfl, hn.2.trans ?_⟩⟩
      · rintro l ⟨⟩
        rfl
      · exact Set.sdiff_self
  | now | transmit | publishAck | publishAckWithCommand | queueLen | hasFW | hasSync | popNext
  | drainExpired | push =>
      refine ⟨may_of_use_none rfl, fun r held' hn => ⟨_, rfl, ?_⟩⟩
      rw [next_of_use_none rfl hn]
      exact hsame rfl r
  | setFWMode | setSyncMode | deliveryContext | inFlightCount | ackSent | nextCommandSeq
  | registerInFlight =>
      refine ⟨hheld.may_pass rfl, ?_⟩
      rintro r held' ⟨-, rfl⟩
      exact ⟨_, rfl, hsame rfl r⟩
  | _ => exact ha.elim

theorem flush_keeps_order :
    (Delivery.withFlushLock (Delivery.flushQueue id)).Respects (engineLocks id)
      (fun _ held => held = ∅) ∅ := by
  have hcourier := Courier.flush_respects id rfl
  have hnone : CourierHolds id {} ∅ := rfl
  refine (hcourier.transfer CourierHolds.step (Delivery.flush_only id) hnone).mono ?_
  rintro x held ⟨v, rfl, hheld⟩
  exact hheld

theorem visitAll_use_none (now : Time) (seqs : List UInt8) :
    (Delivery.visitAll now seqs).Only fun a => Mutex.use id a = .none := by
  induction seqs with
  | nil => trivial
  | cons seq rest ih => exact ⟨rfl, fun out => ih.bind fun outs => trivial⟩

theorem publishOutcomes_use_none (outcomes : List InFlightOutcome) :
    (Delivery.publishOutcomes id outcomes).Only fun a => Mutex.use id a = .none := by
  induction outcomes with
  | nil => trivial
  | cons o rest ih =>
      refine Prog.Only.bind ?_ fun _ => ih
      unfold Delivery.publishOutcome
      cases o.type <;> exact ⟨rfl, fun _ => trivial⟩

theorem process_keeps_order :
    (Delivery.processInFlight id).Respects (engineLocks id) (fun _ held => held = ∅) ∅ := by
  have hmanager : ∀ now, (Delivery.managerProcessInFlight now).Respects (engineLocks id)
      (fun _ held => held = ∅) ∅ := by
    intro now
    refine act_keeps_order (may_of_empty nofun) fun _ => ?_
    rw [show (Mutex.use id .lockManager).after ∅ = {.manager} from insert_empty_eq _]
    refine act_keeps_order (may_of_use_none rfl) fun found => ?_
    cases found with
    | false => exact act_keeps_order may_unlockManager fun _ => Set.sdiff_self
    | true =>
        refine act_keeps_order (may_of_use_none rfl) fun order => ?_
        refine (respects_of_use_none (visitAll_use_none now order)).bind fun out held hheld => ?_
        refine act_keeps_order (may_of_use_none rfl) fun err => ?_
        obtain rfl := hheld
        refine act_keeps_order may_unlockManager fun _ => ?_
        cases err <;> exact Set.sdiff_self
  refine act_keeps_order (may_of_use_none rfl) fun now => (hmanager now).bind fun res held h => ?_
  obtain rfl := h
  cases res with
  | error err => rfl
  | ok outcomes => exact respects_of_use_none (publishOutcomes_use_none outcomes)

theorem ack_keeps_order (ack : Ack11) :
    (Delivery.handleTerminalAck id ack).Respects (engineLocks id) (fun _ held => held = ∅) ∅ := by
  refine act_keeps_order (may_of_empty nofun) fun found => ?_
  cases found with
  | none => rfl
  | some found => exact act_keeps_order (may_of_use_none rfl) fun _ => rfl

/-- Every goroutine keeps to the order of the mutexes. -/
theorem taskSpec_locking (cfg : Config) :
    TaskSpec cfg locking.protocol fun held => held = ∅ where
  own a held ha hidle := by
    subst hidle
    refine ⟨Locking.may_empty fun l hl => ?_, fun r held' hn => hn.2.trans ?_⟩
    · cases a with
      | deliver => exact ha
      | _ => cases hl
    · cases a with
      | deliver => exact ha.elim
      | _ => rfl
  delivery id :=
    { benign := benign_idle
      enqueue := by
        rintro cmd fuel held rfl
        exact enqueue_keeps_order cfg.delivery cmd fuel
      flush := by
        rintro held rfl
        exact flush_keeps_order
      process := by
        rintro held rfl
        exact process_keeps_order
      ack := by
        rintro ack held - rfl
        exact ack_keeps_order ack }

end order

/-! ## The machine keeps the mutexes -/

section sound

variable {cfg : Config} {remoteHost : ConnID → String}

/-- The methods of the manager give the mutex back. -/
theorem use_apply_of_ne {id : String} {a : Delivery.Act} (tid : ℕ) (holder : Mutex → Option ℕ)
    (hmutex : a.movesMutex = false) (hlock : a ≠ .lockManager) (hunlock : a ≠ .unlockManager) :
    (Mutex.use id a).apply tid holder = holder := by
  cases a with
  | lockFlush | unlockFlush => cases hmutex
  | lockManager => exact absurd rfl hlock
  | unlockManager => exact absurd rfl hunlock
  | _ => rfl

/-- The mutexes after an action of an engine: only `Manager.mu` and the flush mutex of its
controller may have changed. -/
theorem holder_of_engine {id : String} {tid : ℕ} {w w' : World} {v : Delivery.World}
    {a : Delivery.Act} {r : a.Res} {inp : Delivery.Input}
    (h : Delivery.exec cfg.delivery id tid (w.view id) a inp = some (v, r))
    (hdeliveries : w'.deliveries = Function.update w.deliveries id v) (hmu : w'.mu = v.mu) :
    Mutex.holder w' = (Mutex.use id a).apply tid (Mutex.holder w) := by
  have hholder : Mutex.holder w' =
      Function.update (Function.update (Mutex.holder w) .manager v.mu) (.flush id) v.flushMu := by
    funext l
    cases l with
    | manager => simp [Mutex.holder, hmu]
    | flush other =>
        by_cases hother : other = id
        · simp [Mutex.holder, hdeliveries, hother]
        · simp [Mutex.holder, hdeliveries, hother]
  have hmanager : ∀ mu : Option ℕ, mu = w.mu →
      Function.update (Mutex.holder w) .manager mu = Mutex.holder w := by
    rintro _ rfl
    exact Function.update_eq_self Mutex.manager (Mutex.holder w)
  have hflush : ∀ mu flushMu : Option ℕ, flushMu = (w.deliveries id).flushMu →
      Function.update (Function.update (Mutex.holder w) .manager mu) (.flush id) flushMu =
        Function.update (Mutex.holder w) .manager mu := by
    rintro mu _ rfl
    refine Function.update_eq_iff.mpr ⟨?_, fun _ _ => rfl⟩
    simp [Mutex.holder]
  rw [hholder]
  by_cases hlock : a = .lockManager
  · subst hlock
    simp only [Delivery.exec] at h
    split at h
    · cases h
      exact hflush (some tid) _ rfl
    · cases h
  · by_cases hunlock : a = .unlockManager
    · subst hunlock
      cases h
      exact hflush none _ rfl
    · rw [hmanager v.mu (Delivery.exec_mu hlock hunlock h)]
      cases hmutex : a.movesMutex with
      | false =>
          rw [use_apply_of_ne tid _ hmutex hlock hunlock, (Delivery.exec_mutex hmutex h).1]
          exact Function.update_eq_self (Mutex.flush id) (Mutex.holder w)
      | true =>
          cases a with
          | lockFlush =>
              simp only [Delivery.exec] at h
              split at h <;> cases h
              rfl
          | unlockFlush =>
              cases h
              rfl
          | _ => cases hmutex

/-- An action that is not kept waiting has an input that suits it: for a map iteration, one that
visits every number. -/
theorem engine_enabled {id : String} {tid : ℕ} {w : Delivery.World} {a : Delivery.Act}
    {inp : Delivery.Input} (horder : inp.order = allSeqs) (hspin : a ≠ .spin)
    (hmanager : (Mutex.use id a).needs = some .manager → w.mu = none)
    (hflush : (Mutex.use id a).needs = some (.flush id) → w.flushMu = none) :
    (Delivery.exec cfg.delivery id tid w a inp).isSome := by
  cases a with
  | spin => exact absurd rfl hspin
  | lockFlush => simp [Delivery.exec, hflush rfl]
  | lockManager => simp [Delivery.exec, hmanager rfl]
  | setDedup =>
      simp only [Delivery.exec]
      split <;> rfl
  | inFlightOrder => simp [Delivery.exec, horder, mem_allSeqs]
  | create | markOffline | touch | updateBufferFree | setFWMode | setSyncMode | setFrameMode
  | deliveryContext | inFlightCount | ackSent | nextCommandSeq | registerInFlight | ackInFlight
  | peekInFlight =>
      simp [Delivery.exec, Delivery.guarded, Delivery.World.free, hmanager rfl]
  | _ => rfl

/-- An input at the time of the clock that suits every action. -/
def patient (w : World) : Input :=
  { time := w.clock, order := allSeqs }

theorem exec_patient {tid : ℕ} {w : World} {a : Act} (hwaits : ¬locking.waits a)
    (hloops : ¬locking.loops a)
    (hfree : ∀ l, (locking.use a).needs = some l → Mutex.holder w l = none) :
    (exec cfg remoteHost tid w a (patient w)).isSome := by
  have hdeliver : ∀ id b, b ≠ .spin →
      (∀ l, (Mutex.use id b).needs = some l → Mutex.holder w l = none) →
      (execDeliver cfg tid { w with clock := w.clock } id b (patient w)).isSome := by
    intro id b hspin hfree
    rw [execDeliver, Option.isSome_map]
    exact engine_enabled rfl hspin (hfree .manager) (hfree (.flush id))
  rw [exec, if_pos (show w.clock ≤ (patient w).time from Int.le_refl _)]
  cases a with
  | begin conn => exact absurd ⟨conn, rfl⟩ hwaits
  | spin => exact absurd (.inl rfl) hloops
  | create id conn =>
      rw [execNow, Option.isSome_map]
      exact hdeliver id (.create conn) (by rintro ⟨⟩) hfree
  | markOffline id conn =>
      rw [execNow, Option.isSome_map]
      exact hdeliver id .markOffline (by rintro ⟨⟩) hfree
  | deliver id b => exact hdeliver id b (fun hspin => hloops (.inr ⟨id, by rw [hspin]⟩)) hfree
  | tryTrackConn conn =>
      simp only [execNow]
      split <;> rfl
  | readFrame conn mode =>
      rw [execNow, execRead, if_neg fun hbytes => hbytes.1 rfl]
      split <;> rfl
  | _ => rfl

theorem locking_sound : locking.Sound (serverRules cfg remoteHost) Mutex.holder where
  apply := by
    intro tid w a inp w' r h
    cases hengine : a.engine with
    | none =>
        obtain ⟨hdeliveries, hmu⟩ := exec_off_engine hengine h
        have huse : locking.use a = .none := by simp [locking, hengine]
        rw [huse]
        funext l
        cases l with
        | manager => exact hmu
        | flush id => simp [LockUse.apply, Mutex.holder, hdeliveries]
    | some e =>
        obtain ⟨id, b, f⟩ := e
        obtain ⟨v, hexec, hdeliveries, hmu⟩ := exec_engine hengine h
        have huse : locking.use a = Mutex.use id b := by simp [locking, hengine]
        rw [huse]
        exact holder_of_engine hexec hdeliveries hmu
  acquire := by
    intro tid w a inp w' r l h hacquire
    cases hengine : a.engine with
    | none => simp [locking, hengine] at hacquire
    | some e =>
        obtain ⟨id, b, f⟩ := e
        obtain ⟨v, hexec, -, -⟩ := exec_engine hengine h
        have huse : Mutex.use id b = .acquire l := by simpa [locking, hengine] using hacquire
        cases b with
        | lockFlush =>
            cases huse
            simp only [Delivery.exec] at hexec
            split at hexec
            · assumption
            · cases hexec
        | lockManager =>
            cases huse
            simp only [Delivery.exec] at hexec
            split at hexec
            · assumption
            · cases hexec
        | _ => cases huse
  loops := by
    rintro tid w a inp (rfl | ⟨id, rfl⟩)
    · simp [exec, execNow]
    · simp [exec, execNow, execDeliver, Delivery.exec]
  crash w l := by cases l <;> rfl
  enabled tid w a hwaits hloops hfree :=
    ⟨patient w, trivial, exec_patient hwaits hloops hfree⟩

end sound

/-! ## Whole runs -/

section runs

variable {cfg : Config} {remoteHost : ConnID → String}
  {c : Concurrent.Config (machine cfg remoteHost)}

theorem rank_le_one (l : Mutex) : locking.rank l ≤ 1 := by
  cases l with
  | manager => exact Nat.le_refl 1
  | flush id => exact Nat.zero_le 1

/-- However the goroutines of all controllers interleave, none of them waits for itself through
a chain of mutexes, the holder of `Manager.mu` never waits for a mutex, and every chain of
waiting goroutines ends with one that goes on. -/
theorem goroutines_never_deadlock (h : Reachable (serverRules cfg remoteHost) {} c) :
    (∀ tid, ¬Relation.TransGen (locking.WaitsFor Mutex.holder c) tid tid) ∧
    (∀ tid, c.world.mu = some tid → locking.GoesOn (serverRules cfg remoteHost) c tid) ∧
    ∀ tid a k, c.threads tid = .act a k → (∀ conn, a ≠ .begin conn) →
      ∃ tid', Relation.ReflTransGen (locking.WaitsFor Mutex.holder c) tid tid' ∧
        locking.GoesOn (serverRules cfg remoteHost) c tid' := by
  have hinit : ∀ l, Mutex.holder {} l = none := fun l => by cases l <;> rfl
  have hstart : ∀ task, (Task.prog cfg remoteHost task).Respects locking.protocol
      (fun _ held => held = ∅) ∅ := fun task => (taskSpec_locking cfg).prog remoteHost task rfl
  refine ⟨Locking.not_waits_for_self locking_sound hinit hstart h, fun tid hmu => ?_,
    fun tid a k ht hbegin => ?_⟩
  · obtain ⟨a, k, ht, hwaits, hrank⟩ :=
      Locking.holder_running locking_sound hinit hstart h (show Mutex.holder _ .manager = _ from hmu)
    rcases Locking.goesOn_or_held locking_sound ht hwaits with hgo | ⟨l, _, hneeds, -⟩
    · exact hgo
    · -- There is no mutex above `Manager.mu`.
      exact absurd (hrank l hneeds) (not_lt.mpr (rank_le_one l))
  · refine Locking.exists_goesOn locking_sound hinit hstart h rank_le_one ht ?_
    rintro ⟨conn, rfl⟩
    exact hbegin conn rfl

/-- One goroutine is inside `Enqueue` for a controller while another, which sweeps a second
controller, waits for it. -/
theorem sweep_waits_for_enqueue :
    ∃ c, Reachable (serverRules Env.unset.config fun _ => "10.0.0.1") {} c ∧
      locking.WaitsFor Mutex.holder c 2 1 ∧ ¬locking.WaitsFor Mutex.holder c 1 2 ∧
      locking.GoesOn (serverRules Env.unset.config fun _ => "10.0.0.1") c 1 := by
  let c : Concurrent.Config (machine Env.unset.config fun _ => "10.0.0.1") :=
    Concurrent.Config.run (serverRules Env.unset.config fun _ => "10.0.0.1") (.initial {})
      (call 1 (.enqueue "a" { commandID := 3 } 1) 2 ++ call 2 (.sweep "b") 2)
  have hc : Reachable (serverRules Env.unset.config fun _ => "10.0.0.1") {} c :=
    Reachable.initial.run _
  have hmu : c.world.mu = some 1 := by decide +kernel
  have hwaits : locking.WaitsFor Mutex.holder c 2 1 :=
    ⟨.deliver "b" .lockManager, _, .manager, rfl, rfl, hmu⟩
  have hsafe := goroutines_never_deadlock hc
  exact ⟨c, hc, hwaits, fun hback => hsafe.1 1 (.tail (.single hback) hwaits), hsafe.2.1 1 hmu⟩

end runs

end TcpAdapter.Server
