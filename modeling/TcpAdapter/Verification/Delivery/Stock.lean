import TcpAdapter.Verification.Delivery.Courier
import TcpAdapter.Verification.Delivery.Undisturbed

/-! # The stock of commands

The commands that are queued, in flight, or in the hands of the running flush. Apart from the
number and the attempts of a command, which change on the way, an action at most takes
commands from the stock, but for `Enqueue`, which adds one. -/

namespace TcpAdapter.Queue.Command

/-- The command without what delivery changes about it. -/
def core (cmd : Command) : Command :=
  { cmd with retrySeq := 0, attempts := 0 }

@[simp] theorem core_unnumbered (cmd : Command) : cmd.unnumbered.core = cmd.core := rfl

@[simp] theorem core_ticket (cmd : Command) : cmd.core.ticket = cmd.ticket := rfl

@[simp] theorem core_retried (cmd : Command) (attempts : Int) (seq : UInt8) :
    ({ cmd with attempts := attempts, retrySeq := seq } : Command).core = cmd.core := rfl

end TcpAdapter.Queue.Command

namespace TcpAdapter.Delivery

open TcpAdapter.Concurrent TcpAdapter.Queue TcpAdapter.Protocol TcpAdapter.Manager
open TcpAdapter.Policy

namespace World

def queued (w : World) : Multiset Command :=
  w.queue.snapshot

def flying (w : World) : Multiset Command :=
  (w.inFlight.entries : Multiset InFlightEntry).map InFlightEntry.command

/-- What is queued or in flight. -/
def shelf (w : World) : Multiset Command :=
  w.queued + w.flying

end World

/-- What is queued, in flight or in the hands of the flush `v`. -/
def stock (w : World) (v : Courier) : Multiset Command :=
  w.shelf + v.hands

/-- The command that an action adds. -/
def added (w : World) : Act → Multiset Command
  | .pushNew cmd => {{ cmd with ticket := w.tickets }}
  | _ => 0

theorem stock_initial : stock {} {} = 0 := rfl

theorem added_of_ne {w : World} {a : Act} (ha : ∀ cmd, a ≠ .pushNew cmd) : added w a = 0 := by
  unfold added
  split
  · rename_i cmd
    exact absurd rfl (ha cmd)
  · rfl

section exec

variable {cfg : Config} {id : String} {tid : ℕ} {w w' : World} {inp : Input}

theorem queued_push (q : ControllerQueue) (cmd : Command) :
    ((q.push cmd).snapshot : Multiset Command) = cmd ::ₘ q.snapshot := by
  rw [Multiset.cons_coe]
  exact Multiset.coe_eq_coe.mpr (ControllerQueue.push_snapshot_perm q cmd)

theorem flying_erase {seq : UInt8} {entry : InFlightEntry}
    (hfound : w.inFlight seq = some entry)
    (hinFlight : w'.inFlight = Function.update w.inFlight seq none) :
    w.flying = entry.command ::ₘ w'.flying := by
  have hperm := Multiset.coe_eq_coe.mpr (InFlight.entries_erase_perm hfound)
  rw [World.flying, World.flying, hinFlight, hperm, ← Multiset.cons_coe, Multiset.map_cons]

theorem flying_insert_le (m : InFlight) (seq : UInt8) (entry : InFlightEntry) :
    ((InFlight.entries (Function.update m seq (some entry)) : Multiset InFlightEntry).map
      InFlightEntry.command) ≤
      entry.command ::ₘ (m.entries : Multiset InFlightEntry).map InFlightEntry.command := by
  have hperm := Multiset.coe_eq_coe.mpr (InFlight.entries_update_perm m seq (some entry))
  rw [hperm, Option.toList_some, List.singleton_append, ← Multiset.cons_coe, Multiset.map_cons]
  refine Multiset.cons_le_cons _ (Multiset.map_le_map ?_)
  cases hm : m seq with
  | none => rw [← hm, Function.update_eq_self]
  | some old =>
      rw [Multiset.coe_eq_coe.mpr (InFlight.entries_erase_perm hm), ← Multiset.cons_coe]
      exact Multiset.le_cons_self _ _

/-- The actions by which a flush moves commands. -/
def Act.carries : Act → Bool
  | .popNext _ _ _ | .push _ | .registerInFlight _ _ _ => true
  | _ => false

/-- A thread that does not flush leaves the commands to the one that does. -/
theorem Courier.may_idle {a : Act} (hmay : ({} : Courier).May a) :
    a.carries = false ∧ ∀ conn bytes cmd seq, a ≠ .transmit conn bytes cmd seq := by
  cases a with
  | popNext => cases hmay.1
  | push cmd =>
      rcases hmay.2 with hmem | ⟨hchosen, -⟩
      · exact absurd hmem (Multiset.notMem_zero _)
      · cases hchosen
  | transmit | registerInFlight =>
      obtain ⟨⟨⟨orig, horig, -⟩, -⟩, -⟩ := hmay
      cases horig
  | _ => exact ⟨rfl, by simp⟩

/-- What the other actions do to the queue. -/
theorem QueueMove.queued_le {a : Act} {q : ControllerQueue} (hm : QueueMove w a q)
    (ha : a.carries = false) (hvisit : ∀ seq now, a ≠ .visitInFlight seq now) :
    (q.snapshot : Multiset Command) ≤ w.queued + added w a := by
  cases hm with
  | same => exact Multiset.le_add_right _ _
  | popped | putBack => cases ha
  | drained now =>
      have hperm := Multiset.coe_eq_coe.mpr (w.queue.drainExpired_snapshot_perm now)
      rw [World.queued, hperm, ← Multiset.coe_add]
      exact (Multiset.le_add_left _ _).trans (Multiset.le_add_right _ _)
  | enqueued cmd =>
      rw [queued_push, added, Multiset.add_comm, Multiset.singleton_add]
      rfl
  | evicted hdrop =>
      have hperm := Multiset.coe_eq_coe.mpr (ControllerQueue.dropOldest_snapshot_perm hdrop)
      rw [World.queued, hperm, ← Multiset.cons_coe]
      exact (Multiset.le_cons_self _ _).trans (Multiset.le_add_right _ _)
  | retried now => exact absurd rfl (hvisit _ now)

/-- The in-flight table loses an entry. -/
theorem TakenOut.shelf_le {seq : UInt8} {entry : InFlightEntry} {e : Event}
    (h : TakenOut tid w w' seq entry e) : w'.shelf ≤ w.shelf := by
  rw [World.shelf, World.shelf, World.queued, h.queue, flying_erase h.found h.inFlight]
  exact Multiset.add_le_add_left (Multiset.le_cons_self _ _)

theorem exec_shelf {a : Act} {r : a.Res} (ha : a.carries = false)
    (h : exec cfg id tid w a inp = some (w', r)) :
    w'.shelf.map Command.core ≤ (w.shelf + added w a).map Command.core := by
  have hle : w'.shelf ≤ w.shelf → w'.shelf.map Command.core ≤
      (w.shelf + added w a).map Command.core :=
    fun hle => Multiset.map_le_map (hle.trans (Multiset.le_add_right _ _))
  by_cases hmoves : a.movesInFlight = true
  · cases a with
    | ackInFlight seq =>
        rcases exec_ackInFlight h with ⟨-, hquiet, -⟩ | ⟨entry, -, ht⟩
        · refine hle (le_of_eq ?_)
          rw [World.shelf, World.queued, World.flying, hquiet.queue, hquiet.inFlight]
          rfl
        · exact hle ht.shelf_le
    | visitInFlight seq now =>
        rcases exec_visitInFlight h with ⟨-, rfl⟩ | ⟨entry, out, -, ⟨-, hq⟩ | ⟨-, -, ht⟩⟩
        · exact hle le_rfl
        · rw [World.shelf, World.shelf, World.queued, hq.queue, queued_push,
            flying_erase hq.found hq.inFlight]
          simp only [Multiset.map_add, Multiset.map_cons, Multiset.cons_add, Multiset.add_cons,
            Command.core_retried]
          exact Multiset.cons_le_cons _ (Multiset.le_add_right _ _)
        · exact hle ht.shelf_le
    | registerInFlight => cases ha
    | _ => cases hmoves
  · have hinFlight := exec_inFlight (Bool.eq_false_iff.mpr hmoves) h
    have hvisit : ∀ seq now, a ≠ .visitInFlight seq now := by
      rintro seq now rfl
      exact hmoves rfl
    have hqueued := (exec_queueMove h).queued_le ha hvisit
    have hflying : w'.flying = w.flying := by rw [World.flying, hinFlight, World.flying]
    refine Multiset.map_le_map ?_
    rw [World.shelf, World.shelf, hflying, Multiset.add_assoc, Multiset.add_comm w.flying,
      ← Multiset.add_assoc]
    exact Multiset.add_le_add_right hqueued

/-- What a move of another thread does to the stock of the flush `u`. -/
theorem exec_stock_beside {a : Act} {r : a.Res} (u : Courier) (ha : a.carries = false)
    (h : exec cfg id tid w a inp = some (w', r)) :
    (stock w' u).map Command.core ≤ (stock w u + added w a).map Command.core := by
  have hshelf := exec_shelf ha h
  rw [stock, stock, Multiset.add_assoc, Multiset.add_comm u.hands, ← Multiset.add_assoc,
    Multiset.map_add, Multiset.map_add]
  exact Multiset.add_le_add_right hshelf

theorem Courier.after_hands_le (v : Courier) {a : Act} (r : a.Res) (ha : a.carries = false) :
    (v.after a r).hands ≤ v.hands := by
  cases a with
  | popNext | push | registerInFlight => cases ha
  | lockFlush | unlockFlush => exact Multiset.zero_le _
  | deliveryContext =>
      cases r with
      | none => exact le_rfl
      | some dctx => exact Multiset.zero_le _
  | nextCommandSeq | transmit => cases r <;> exact le_rfl
  | publishAckWithCommand event cmd =>
      rw [Courier.hands_of_none rfl]
      exact v.skipped_le_hands
  | _ => exact le_rfl

theorem Courier.hands_of_current {v : Courier} {orig : Command} (h : v.current = some orig) :
    v.hands = orig ::ₘ v.skipped := by
  rw [Courier.hands, h]
  rfl

/-- `PopNext` finds nothing, or takes a command from the queue of a session. -/
theorem exec_popped {now : Time} {fwMode syncMode : Bool} {r : Option Command}
    (h : exec cfg id tid w (.popNext now fwMode syncMode) inp = some (w', r)) :
    (r = none ∧ w' = w) ∨ ∃ cmd, r = some cmd ∧ w.session.isSome ∧
      w.queue.popNext fwMode syncMode = (some cmd, w'.queue) ∧
      w.queued = cmd ::ₘ w'.queued := by
  cases hs : w.slot.session with
  | none =>
      have hempty : w.queue = {} := by simp [Slot.queue, hs]
      simp only [exec, execPop, hempty] at h
      cases fwMode <;> cases syncMode <;> cases h <;> exact .inl ⟨rfl, rfl⟩
  | some s =>
      have hsession : w.session.isSome := by rw [World.session, hs]; rfl
      rcases exec_popNext hsession h with hnone | ⟨cmd, hr, hpop⟩
      · exact .inl hnone
      · refine .inr ⟨cmd, hr, hsession, hpop, ?_⟩
        rw [World.queued, World.queued, Multiset.cons_coe]
        exact Multiset.coe_eq_coe.mpr (ControllerQueue.popNext_snapshot_perm hpop)

theorem stock_popNext {now : Time} {fwMode syncMode : Bool} {r : Option Command} (v : Courier)
    (h : exec cfg id tid w (.popNext now fwMode syncMode) inp = some (w', r)) :
    stock w' (v.after (.popNext now fwMode syncMode) r) = stock w v := by
  rcases exec_popped h with ⟨rfl, rfl⟩ | ⟨cmd, rfl, -, -, hqueued⟩
  · rfl
  · have hflying : w'.flying = w.flying := by
      rw [World.flying, exec_inFlight rfl h, World.flying]
    have hhands : (v.after (.popNext now fwMode syncMode) (some cmd)).hands = cmd ::ₘ v.hands :=
      Courier.hands_of_current rfl
    rw [stock, stock, World.shelf, World.shelf, hflying, hqueued, hhands, Multiset.add_cons,
      Multiset.cons_add, Multiset.cons_add]

/-- A command that is put back was in the hands, perhaps with its number. -/
theorem Courier.May.putBack {v : Courier} {cmd : Command} (h : v.May (.push cmd)) :
    v.hands.map Command.core =
      cmd.core ::ₘ (v.after (.push cmd) ()).hands.map Command.core := by
  have hhands : (v.after (.push cmd) ()).hands = (v.after (.push cmd) ()).skipped :=
    Courier.hands_of_none rfl
  rw [hhands]
  simp only [Courier.after]
  split
  · rename_i hchosen
    obtain ⟨orig, horig, rfl⟩ := Option.map_eq_some_iff.mp hchosen.2
    rw [Courier.hands_of_current horig, Multiset.map_cons, Command.core_unnumbered]
  · rename_i hloose
    rcases h.2 with hmem | ⟨hchosen, orig, conn, mode, horig, rfl, -⟩
    · rw [← Multiset.map_cons, Multiset.cons_erase hmem]
    · exact absurd ⟨hchosen, by rw [horig]; rfl⟩ hloose

theorem stock_push {cmd : Command} {r : Unit} {v : Courier} (hmay : v.May (.push cmd))
    (h : exec cfg id tid w (.push cmd) inp = some (w', r)) :
    (stock w' (v.after (.push cmd) r)).map Command.core ≤ (stock w v).map Command.core := by
  have hqueued : w'.queued ≤ cmd ::ₘ w.queued := by
    have hm := exec_queueMove h
    rw [World.queued]
    generalize w'.queue = q at hm
    cases hm with
    | same => exact Multiset.le_cons_self _ _
    | putBack => exact le_of_eq (queued_push _ _)
  have hflying : w'.flying = w.flying := by rw [World.flying, exec_inFlight rfl h, World.flying]
  rw [stock, stock, Multiset.map_add, Multiset.map_add, hmay.putBack, Multiset.add_cons,
    ← Multiset.cons_add]
  refine Multiset.add_le_add_right ?_
  rw [World.shelf, World.shelf, hflying, Multiset.map_add, Multiset.map_add, ← Multiset.cons_add,
    ← Multiset.map_cons]
  exact Multiset.add_le_add_right (Multiset.map_le_map hqueued)

theorem stock_registerInFlight {seq : UInt8} {cmd : Command} {sentAt : Time} {r : Option Error}
    {v : Courier} (hmay : v.May (.registerInFlight seq cmd sentAt))
    (h : exec cfg id tid w (.registerInFlight seq cmd sentAt) inp = some (w', r)) :
    (stock w' (v.after (.registerInFlight seq cmd sentAt) r)).map Command.core ≤
      (stock w v).map Command.core := by
  obtain ⟨⟨⟨orig, horig, rfl⟩, -⟩, -⟩ := hmay
  have hhands : (v.after (.registerInFlight seq orig.unnumbered sentAt) r).hands = v.skipped :=
    Courier.hands_of_none rfl
  have hshelf : w'.shelf ≤ orig.unnumbered ::ₘ w.shelf := by
    by_cases hs : w.session.isSome
    · obtain ⟨hqueue, hinFlight, -⟩ := exec_registerInFlight hs h
      rw [World.shelf, World.shelf, World.queued, World.flying, hqueue, hinFlight,
        ← Multiset.add_cons]
      exact Multiset.add_le_add_left (flying_insert_le _ _ _)
    · have heq := guarded_eq_some h
      simp only [execRegister, Option.not_isSome_iff_eq_none.mp hs] at heq
      cases heq
      exact Multiset.le_cons_self _ _
  rw [stock, stock, hhands, Courier.hands_of_current horig, Multiset.add_cons,
    ← Multiset.cons_add, Multiset.map_add, Multiset.map_add, Multiset.map_cons,
    ← Command.core_unnumbered, ← Multiset.map_cons]
  exact Multiset.add_le_add_right (Multiset.map_le_map hshelf)

/-- What the flush does to its own stock. -/
theorem exec_stock {a : Act} {r : a.Res} {v : Courier} (hmay : v.May a)
    (h : exec cfg id tid w a inp = some (w', r)) :
    (stock w' (v.after a r)).map Command.core ≤ (stock w v + added w a).map Command.core := by
  cases ha : a.carries with
  | false =>
      refine le_trans (Multiset.map_le_map ?_) (exec_stock_beside v ha h)
      exact Multiset.add_le_add_left (v.after_hands_le r ha)
  | true =>
      cases a with
      | popNext => exact Multiset.map_le_map ((stock_popNext v h).le.trans (Multiset.le_add_right _ _))
      | push => exact (stock_push hmay h).trans (Multiset.map_le_map (Multiset.le_add_right _ _))
      | registerInFlight =>
          exact (stock_registerInFlight hmay h).trans
            (Multiset.map_le_map (Multiset.le_add_right _ _))
      | _ => cases ha

end exec

/-! ## Tickets -/

/-- Every command of the stock has a ticket of its own that was given out. -/
structure Ticketed (w : World) (v : Courier) : Prop where
  nodup : ((stock w v).map Command.ticket).Nodup
  given : ∀ cmd ∈ stock w v, cmd.ticket < w.tickets

theorem Ticketed.initial : Ticketed {} {} where
  nodup := by rw [stock_initial]; exact Multiset.nodup_zero
  given := by rw [stock_initial]; simp

theorem mem_flying {w : World} {seq : UInt8} {entry : InFlightEntry}
    (h : w.inFlight seq = some entry) : entry.command ∈ w.flying :=
  Multiset.mem_map_of_mem _ (InFlight.mem_entries.mpr ⟨seq, h⟩)

/-- The other commands of the stock are not the one at hand. -/
theorem Ticketed.elsewhere {w : World} {v : Courier} {orig cmd : Command} (ht : Ticketed w v)
    (horig : v.current = some orig) (hmem : cmd ∈ w.shelf + v.skipped) :
    cmd.ticket ≠ orig.ticket := by
  have hnodup := ht.nodup
  rw [stock, Courier.hands_of_current horig, Multiset.add_cons, Multiset.map_cons,
    Multiset.nodup_cons] at hnodup
  intro heq
  exact hnodup.1 (heq ▸ Multiset.mem_map_of_mem _ hmem)

section exec

variable {cfg : Config} {id : String} {tid : ℕ} {w w' : World} {inp : Input} {a : Act}
  {r : a.Res} {v v' : Courier}

theorem tickets_le (h : exec cfg id tid w a inp = some (w', r)) : w.tickets ≤ w'.tickets := by
  by_cases ha : ∃ cmd, a = .pushNew cmd
  · obtain ⟨cmd, rfl⟩ := ha
    cases h
    exact Nat.le_succ _
  · exact (exec_tickets (fun cmd heq => ha ⟨cmd, heq⟩) h).ge

/-- The tickets of the stock stay different ones that were given out. -/
theorem Ticketed.step (ht : Ticketed w v)
    (hle : (stock w' v').map Command.core ≤ (stock w v + added w a).map Command.core)
    (h : exec cfg id tid w a inp = some (w', r)) : Ticketed w' v' := by
  have hle := Multiset.map_le_map (f := Command.ticket) hle
  simp only [Multiset.map_map, Function.comp_def, Command.core_ticket, Multiset.map_add] at hle
  have hboth : ((stock w v).map Command.ticket + (added w a).map Command.ticket).Nodup ∧
      ∀ t ∈ (stock w v).map Command.ticket + (added w a).map Command.ticket, t < w'.tickets := by
    have hgiven : ∀ t ∈ (stock w v).map Command.ticket, t < w.tickets := by
      intro t hticket
      obtain ⟨cmd, hmem, rfl⟩ := Multiset.mem_map.mp hticket
      exact ht.given cmd hmem
    by_cases ha : ∃ cmd, a = .pushNew cmd
    · obtain ⟨cmd, rfl⟩ := ha
      cases h
      rw [added, Multiset.map_singleton, Multiset.add_comm, Multiset.singleton_add]
      refine ⟨Multiset.nodup_cons.mpr ⟨fun hmem => (hgiven _ hmem).false, ht.nodup⟩, ?_⟩
      intro t hmem
      rcases Multiset.mem_cons.mp hmem with rfl | hold
      · exact Nat.lt_succ_self _
      · exact (hgiven t hold).trans (Nat.lt_succ_self _)
    · rw [added_of_ne fun cmd heq => ha ⟨cmd, heq⟩, Multiset.map_zero, Multiset.add_zero]
      exact ⟨ht.nodup, fun t hmem => (hgiven t hmem).trans_le (tickets_le h)⟩
  refine ⟨Multiset.nodup_of_le hle hboth.1, fun cmd hmem => ?_⟩
  exact hboth.2 _ (Multiset.mem_of_le hle (Multiset.mem_map_of_mem _ hmem))

theorem stock_transmit {conn : ConnID} {bytes : List UInt8} {cmd : Command} {seq : UInt8}
    {r : Option Error} (v : Courier)
    (h : exec cfg id tid w (.transmit conn bytes cmd seq) inp = some (w', r)) :
    stock w' (v.after (.transmit conn bytes cmd seq) r) = stock w v := by
  have hhands : (v.after (.transmit conn bytes cmd seq) r).hands = v.hands := by
    cases r <;> rfl
  rw [stock, stock, hhands, World.shelf, World.shelf, World.queued, World.queued, World.flying,
    World.flying, (exec_commands rfl h).1, exec_inFlight rfl h]

/-- A failed write changes nothing. -/
theorem exec_transmit_failed {conn : ConnID} {bytes : List UInt8} {cmd : Command} {seq : UInt8}
    {err : Error}
    (h : exec cfg id tid w (.transmit conn bytes cmd seq) inp = some (w', some err)) : w' = w := by
  simp only [exec, execTransmit] at h
  split at h
  · cases h
    rfl
  · cases h

end exec

/-! ## The commands in the hands of a flush -/

/-- The commands that the flush carries and has not written satisfy `Q`, and where it has
written the one at hand, `W` holds. -/
structure Courier.Has (Q : Command → Prop) (W : Courier → Prop) (v : Courier) : Prop where
  skipped : ∀ cmd ∈ v.skipped, Q cmd
  current : ∀ cmd, v.current = some cmd → v.wrote = none → Q cmd
  wrote : v.wrote ≠ none → W v

namespace Courier.Has

variable {Q : Command → Prop} {W : Courier → Prop} {v : Courier}

theorem nothing (Q : Command → Prop) (W : Courier → Prop) (on : Bool) :
    ({ flushing := on } : Courier).Has Q W :=
  ⟨by simp, by simp, by simp⟩

theorem hands (hv : v.Has Q W) (hwrote : v.wrote = none) : ∀ cmd ∈ v.hands, Q cmd := by
  intro cmd hmem
  rcases Multiset.mem_add.mp hmem with hcurrent | hskipped
  · exact hv.current cmd (by simpa using hcurrent) hwrote
  · exact hv.skipped cmd hskipped

theorem mono {Q' : Command → Prop} {W' : Courier → Prop} (hv : v.Has Q W)
    (hQ : ∀ cmd, Q cmd → Q' cmd) (hW : W v → W' v) : v.Has Q' W' :=
  ⟨fun cmd hmem => hQ cmd (hv.skipped cmd hmem),
    fun cmd hcurrent hwrote => hQ cmd (hv.current cmd hcurrent hwrote),
    fun hwrote => hW (hv.wrote hwrote)⟩

/-- An action that sends nothing. What the flush pops it takes from the queue. -/
theorem after {cfg : Config} {id : String} {tid : ℕ} {w w' : World} {inp : Input} {a : Act}
    {r : a.Res} (hv : v.Has Q W) (hmay : v.May a) (hqueued : ∀ cmd ∈ w.queued, Q cmd)
    (ha : ∀ conn bytes cmd seq, a ≠ .transmit conn bytes cmd seq)
    (h : exec cfg id tid w a inp = some (w', r)) : (v.after a r).Has Q W := by
  cases a with
  | transmit conn bytes cmd seq => exact absurd rfl (ha conn bytes cmd seq)
  | lockFlush | unlockFlush => exact .nothing Q W _
  | deliveryContext =>
      cases r with
      | none => exact hv
      | some dctx => exact ⟨by simp [Courier.after], by simp [Courier.after], by simp [Courier.after]⟩
  | popNext now fwMode syncMode =>
      rcases exec_popped h with ⟨rfl, rfl⟩ | ⟨cmd, rfl, -, -, htaken⟩
      · exact hv
      · have hmem : cmd ∈ w.queued := by
          rw [htaken]
          exact Multiset.mem_cons_self _ _
        refine ⟨hv.hands hmay.2, fun c hc _ => ?_, fun hwrote => absurd rfl hwrote⟩
        cases hc
        exact hqueued cmd hmem
  | nextCommandSeq =>
      cases r with
      | error err => exact hv
      | ok seq =>
          exact ⟨hv.skipped, fun cmd hcmd _ => hv.current cmd hcmd hmay.1,
            fun hwrote => absurd rfl hwrote⟩
  | registerInFlight | publishAckWithCommand =>
      exact ⟨hv.skipped, by simp [Courier.after], by simp [Courier.after]⟩
  | push cmd =>
      refine ⟨fun c hc => ?_, by simp [Courier.after], by simp [Courier.after]⟩
      simp only [Courier.after] at hc
      split at hc
      · exact hv.skipped c hc
      · exact hv.hands hmay.1 c (Multiset.mem_of_mem_erase hc)
  | _ => exact hv

end Courier.Has

end TcpAdapter.Delivery
