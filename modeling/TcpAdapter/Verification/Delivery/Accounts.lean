import TcpAdapter.Verification.Delivery.Ledger

/-! # Accounts

A census counts, for one ticket, the copies of its command in each place a command can be:
the queue, a flush's hands, the hands of a call that must still report it, the in-flight
table, and the two places in the history from which no command returns. Every action moves
commands from one place to another. -/

namespace TcpAdapter.Delivery

open TcpAdapter.Concurrent TcpAdapter.Queue TcpAdapter.Protocol TcpAdapter.Manager
open TcpAdapter.Policy

inductive Place where
  | queue
  | hands
  | owed
  | inFlight
  | evicted
  | finished
  deriving DecidableEq, Repr

/-- The event evicts the command. -/
def evictionOf (t : ℕ) : Event → Bool
  | .evicted t' => t' == t
  | _ => false

/-- The event is a terminal acknowledgement of the command. -/
def terminalFor (t : ℕ) : Event → Bool
  | .published event (some t') => isTerminalAckStatus event.status && t' == t
  | _ => false

def census (w : World) (t : ℕ) : Place → ℕ
  | .queue => w.queue.snapshot.countP fun c => c.ticket == t
  | .hands => w.hands.countP fun h => h.1 = t
  | .owed => w.owed.countP fun o => o.2.1 = t
  | .inFlight => w.inFlight.entries.countP fun e => e.command.ticket == t
  | .evicted => w.log.countP (evictionOf t)
  | .finished => w.log.countP (terminalFor t)

def total (c : Place → ℕ) : ℕ :=
  c .queue + c .hands + c .owed + c .inFlight + c .evicted + c .finished

/-- The ways a command can go. -/
def Place.leadsTo : Place → Place → Bool
  | .queue, .hands | .queue, .owed | .queue, .evicted => true
  | .hands, .queue | .hands, .inFlight | .hands, .finished => true
  | .inFlight, .queue | .inFlight, .owed => true
  | .owed, .finished => true
  | _, _ => false

/-- `k` copies went from place `p` to place `p'`. -/
structure Shift (c c' : Place → ℕ) (p p' : Place) (k : ℕ) : Prop where
  route : p.leadsTo p' = true
  source : c p = c' p + k
  target : c' p' = c p' + k
  rest : ∀ q, q ≠ p → q ≠ p' → c' q = c q

theorem Shift.refl (c : Place → ℕ) : Shift c c .queue .hands 0 :=
  ⟨by decide, rfl, rfl, fun _ _ _ => rfl⟩

theorem Shift.total {c c' : Place → ℕ} {p p' : Place} {k : ℕ} (h : Shift c c' p p' k) :
    total c' = total c := by
  obtain ⟨hroute, hsource, htarget, hrest⟩ := h
  have hq := hrest .queue
  have hh := hrest .hands
  have ho := hrest .owed
  have hi := hrest .inFlight
  have he := hrest .evicted
  have hf := hrest .finished
  unfold Delivery.total
  cases p <;> cases p' <;>
    simp only [Place.leadsTo, ne_eq, reduceCtorEq, not_true_eq_false, not_false_eq_true,
      forall_const, IsEmpty.forall_iff] at hroute hq hh ho hi he hf <;> omega

/-- What an action does to the census of one ticket. A command that is registered under an
occupied number takes the place of the one that was there. -/
inductive Moved (a : Act) (w w' : World) (t : ℕ) : Prop where
  | shift (p p' : Place) (k : ℕ) (h : Shift (census w t) (census w' t) p p' k)
      (htickets : w'.tickets = w.tickets)
  | pushed (hqueue : census w' t .queue =
        census w t .queue + if t = w.tickets then 1 else 0)
      (hrest : ∀ p, p ≠ .queue → census w' t p = census w t p)
      (htickets : w'.tickets = w.tickets + 1)
  | overwrote (seq : UInt8) (cmd : Command) (sentAt : Time) (k : ℕ)
      (ha : a = .registerInFlight seq cmd sentAt) (hseq : w.inFlight seq ≠ none)
      (hhands : census w t .hands = census w' t .hands + k)
      (hinFlight : census w' t .inFlight ≤ census w t .inFlight + k)
      (hrest : ∀ p, p ≠ .hands → p ≠ .inFlight → census w' t p = census w t p)
      (htickets : w'.tickets = w.tickets)

/-! ## Calm steps -/

theorem evictionOf_calm (t : ℕ) {e : Event} (h : e.calm = true) : evictionOf t e = false := by
  cases e <;> simp_all [Event.calm, evictionOf]

theorem terminalFor_calm (t : ℕ) {e : Event} (h : e.calm = true) : terminalFor t e = false := by
  unfold Event.calm at h
  split at h <;> simp_all [terminalFor]

theorem countP_calm {p : Event → Bool} (hp : ∀ e : Event, e.calm = true → p e = false)
    {es log : List Event} (h : ∀ e ∈ es, e.calm) : (es ++ log).countP p = log.countP p := by
  have hzero : es.countP p = 0 := by
    rw [List.countP_eq_zero]
    intro e he
    simp [hp e (h e he)]
  rw [List.countP_append, hzero, Nat.zero_add]

theorem World.Calm.census {w w' : World} (h : w.Calm w') (t : ℕ) :
    census w' t = census w t := by
  obtain ⟨es, hlog, hcalm⟩ := h.log
  funext p
  cases p with
  | queue => simp only [Delivery.census, h.queue]
  | hands => simp only [Delivery.census, h.hands]
  | owed => simp only [Delivery.census, h.owed]
  | inFlight => simp only [Delivery.census, h.inFlight]
  | evicted => simp only [Delivery.census, hlog, countP_calm (fun _ => evictionOf_calm t) hcalm]
  | finished => simp only [Delivery.census, hlog, countP_calm (fun _ => terminalFor_calm t) hcalm]

theorem World.Calm.moved {a : Act} {w w' : World} (h : w.Calm w') (t : ℕ) : Moved a w w' t := by
  refine .shift .queue .hands 0 ?_ h.tickets
  rw [h.census t]
  exact Shift.refl _

/-! ## One action -/

section exec

variable {cfg : Config} {id : String} {tid : ℕ} {w w' : World} {v : Custody} {inp : Input}

/-- A census changes in the two places that the step touches. -/
theorem Shift.intro {t : ℕ} {p p' : Place} {k : ℕ} (hroute : p.leadsTo p' = true)
    (hsource : census w t p = census w' t p + k)
    (htarget : census w' t p' = census w t p' + k)
    (hqueue : .queue ≠ p → .queue ≠ p' → w'.queue = w.queue)
    (hhands : .hands ≠ p → .hands ≠ p' → w'.hands = w.hands)
    (howed : .owed ≠ p → .owed ≠ p' → w'.owed = w.owed)
    (hinFlight : .inFlight ≠ p → .inFlight ≠ p' → w'.inFlight = w.inFlight)
    (hevicted : .evicted ≠ p → .evicted ≠ p' →
      w'.log.countP (evictionOf t) = w.log.countP (evictionOf t))
    (hfinished : .finished ≠ p → .finished ≠ p' →
      w'.log.countP (terminalFor t) = w.log.countP (terminalFor t)) :
    Shift (census w t) (census w' t) p p' k := by
  refine ⟨hroute, hsource, htarget, ?_⟩
  intro q hq hq'
  cases q with
  | queue => simp only [census, hqueue hq hq']
  | hands => simp only [census, hhands hq hq']
  | owed => simp only [census, howed hq hq']
  | inFlight => simp only [census, hinFlight hq hq']
  | evicted => exact hevicted hq hq'
  | finished => exact hfinished hq hq'

theorem moved_transmit {conn : ConnID} {bytes : List UInt8} {cmd : Command} {seq : UInt8}
    {r : Option Error} (t : ℕ)
    (h : exec cfg id tid w (.transmit conn bytes cmd seq) inp = some (w', r)) :
    Moved (.transmit conn bytes cmd seq) w w' t := by
  simp only [exec, execTransmit] at h
  split at h
  · cases h
    exact (World.Quiet.refl w).toCalm.moved t
  · cases h
    refine .shift .queue .hands 0 ?_ rfl
    exact .intro (by decide) rfl rfl (fun _ _ => rfl) (fun _ _ => rfl) (fun _ _ => rfl)
      (fun _ _ => rfl) (fun _ _ => by simp [evictionOf]) (fun _ _ => by simp [terminalFor])

theorem moved_lockFlush {r : Unit} (t : ℕ)
    (h : exec cfg id tid w .lockFlush inp = some (w', r)) : Moved .lockFlush w w' t := by
  simp only [exec] at h
  split at h
  · cases h
    refine .shift .queue .hands 0 ?_ rfl
    exact .intro (by decide) rfl rfl (fun _ _ => rfl) (fun _ _ => rfl) (fun _ _ => rfl)
      (fun _ _ => rfl) (fun _ _ => by simp [evictionOf]) (fun _ _ => by simp [terminalFor])
  · cases h

/-- A flush that has nothing in its hands loses nothing when it ends. -/
theorem moved_unlockFlush {r : Unit} (t : ℕ) (hhands : w.hands = 0)
    (h : exec cfg id tid w .unlockFlush inp = some (w', r)) : Moved .unlockFlush w w' t := by
  cases h
  refine .shift .queue .hands 0 ?_ rfl
  exact .intro (by decide) rfl (by simp [census, hhands]) (fun _ _ => rfl)
    (fun _ hne => absurd rfl hne) (fun _ _ => rfl) (fun _ _ => rfl)
    (fun _ _ => by simp [evictionOf]) (fun _ _ => by simp [terminalFor])

theorem moved_popNext {now : Time} {fwMode syncMode : Bool} {r : Option Command} (t : ℕ)
    (hsession : w.session.isSome)
    (h : exec cfg id tid w (.popNext now fwMode syncMode) inp = some (w', r)) :
    Moved (.popNext now fwMode syncMode) w w' t := by
  simp only [exec, execPop] at h
  split at h
  · cases h
    exact (World.Quiet.refl w).toCalm.moved t
  · rename_i cmd q hpop
    cases h
    have hq : (w.slot.setQueue q).queue = q := Slot.setQueue_queue q hsession
    refine .shift .queue .hands (if cmd.ticket = t then 1 else 0) ?_ rfl
    refine .intro (by decide) ?_ ?_ (fun hne => absurd rfl hne) (fun _ hne => absurd rfl hne)
      (fun _ _ => rfl) (fun _ _ => by simp) (fun _ _ => rfl) (fun _ _ => rfl)
    · have hperm := (ControllerQueue.popNext_snapshot_perm hpop).countP_eq fun c => c.ticket == t
      simp only [census]
      rw [hperm, List.countP_cons]
      simp [hq]
    · simp [census, Multiset.countP_cons, Command.hand]

theorem moved_drainExpired {now : Time} {r : List Command} (t : ℕ) (hsession : w.session.isSome)
    (h : exec cfg id tid w (.drainExpired now) inp = some (w', r)) :
    Moved (.drainExpired now) w w' t := by
  obtain ⟨rfl, rfl⟩ := Prod.mk.inj (Option.some.inj h)
  refine .shift .queue .owed ((w.queue.drainExpired now).1.countP fun c => c.ticket == t) ?_ rfl
  refine .intro (by decide) ?_ ?_ (fun hne => absurd rfl hne) (fun _ _ => rfl)
    (fun _ hne => absurd rfl hne) (fun _ _ => by simp) (fun _ _ => rfl) (fun _ _ => rfl)
  · have hperm := (ControllerQueue.drainExpired_snapshot_perm w.queue now).countP_eq
      fun c => c.ticket == t
    have hq : (w.slot.setQueue (w.slot.queue.drainExpired now).2).queue =
      (w.slot.queue.drainExpired now).2 := Slot.setQueue_queue _ hsession
    simp only [census]
    rw [hperm, List.countP_append, Nat.add_comm]
    simp only [World.queue, World.setQueue, hq]
  · simp only [census, Multiset.countP_add, Multiset.coe_countP, List.countP_map]
    rw [Nat.add_comm]
    congr 1

theorem countP_eq_erase_add {α : Type} [DecidableEq α] {s : Multiset α} {x : α} (h : x ∈ s)
    (p : α → Prop) [DecidablePred p] :
    s.countP p = (s.erase x).countP p + if p x then 1 else 0 := by
  conv_lhs => rw [← Multiset.cons_erase h]
  rw [Multiset.countP_cons]

theorem moved_push {cmd : Command} {r : Unit} (t : ℕ) (hsession : w.session.isSome)
    (hmem : cmd.hand ∈ w.hands) (h : exec cfg id tid w (.push cmd) inp = some (w', r)) :
    Moved (.push cmd) w w' t := by
  cases h
  have hq : (w.slot.setQueue (w.slot.queue.push cmd)).queue = w.slot.queue.push cmd :=
    Slot.setQueue_queue _ hsession
  refine .shift .hands .queue (if cmd.ticket = t then 1 else 0) ?_ rfl
  refine .intro (by decide) ?_ ?_ (fun _ hne => absurd rfl hne) (fun hne => absurd rfl hne)
    (fun _ _ => rfl) (fun _ _ => by simp [execPush]) (fun _ _ => by simp [execPush, evictionOf])
    (fun _ _ => by simp [execPush, terminalFor])
  · exact countP_eq_erase_add hmem _
  · have hperm := (ControllerQueue.push_snapshot_perm w.slot.queue cmd).countP_eq
      fun c => c.ticket == t
    rw [List.countP_cons] at hperm
    simpa [census, execPush, hq] using hperm

theorem moved_dropOldest {r : Option Command} (t : ℕ)
    (h : exec cfg id tid w .dropOldest inp = some (w', r)) : Moved .dropOldest w w' t := by
  simp only [exec, execDropOldest] at h
  split at h
  · cases h
    exact (World.Quiet.refl w).toCalm.moved t
  · rename_i cmd q hdrop
    cases h
    have hperm := (ControllerQueue.dropOldest_snapshot_perm hdrop).countP_eq fun c => c.ticket == t
    have hsession : w.session.isSome := by
      -- a queue that loses a command belongs to a session
      cases hs : w.slot.session with
      | some s => simp [hs]
      | none =>
          have hperm' := (ControllerQueue.dropOldest_snapshot_perm hdrop).length_eq
          simp [Slot.queue, hs, ControllerQueue.snapshot] at hperm'
    have hq : (w.slot.setQueue q).queue = q := Slot.setQueue_queue q hsession
    refine .shift .queue .evicted (if cmd.ticket = t then 1 else 0) ?_ rfl
    refine .intro (by decide) ?_ ?_ (fun hne => absurd rfl hne) (fun _ _ => rfl)
      (fun _ _ => rfl) (fun _ _ => by simp) (fun _ hne => absurd rfl hne)
      (fun _ _ => by simp [terminalFor])
    · rw [List.countP_cons] at hperm
      simpa [census, hq] using hperm
    · simp [census, List.countP_cons, evictionOf]

theorem moved_pushNew {cmd : Command} {r : ℕ} (t : ℕ) (hsession : w.session.isSome)
    (h : exec cfg id tid w (.pushNew cmd) inp = some (w', r)) : Moved (.pushNew cmd) w w' t := by
  cases h
  have hq : (w.slot.setQueue (w.slot.queue.push { cmd with ticket := w.tickets })).queue =
    w.slot.queue.push { cmd with ticket := w.tickets } := Slot.setQueue_queue _ hsession
  refine .pushed ?_ ?_ rfl
  · have hperm := (ControllerQueue.push_snapshot_perm w.slot.queue
      { cmd with ticket := w.tickets }).countP_eq fun c => c.ticket == t
    rw [List.countP_cons] at hperm
    have hticket : (w.tickets = t) = (t = w.tickets) := propext eq_comm
    simpa [census, execPushNew, hq, hticket] using hperm
  · intro p hp
    cases p with
    | queue => exact absurd rfl hp
    | inFlight => simp [census]
    | hands | owed | evicted | finished => rfl

theorem moved_registerInFlight {seq : UInt8} {cmd : Command} {sentAt : Time}
    {r : Option Error} (t : ℕ) (hsession : w.session.isSome) (hmem : cmd.hand ∈ w.hands)
    (h : exec cfg id tid w (.registerInFlight seq cmd sentAt) inp = some (w', r)) :
    Moved (.registerInFlight seq cmd sentAt) w w' t := by
  obtain ⟨hqueue, hinFlight, -, htickets, hhands, -, -, howed, -, ⟨es, hlog, hcalm⟩, -, -⟩ :=
    exec_registerInFlight hsession h
  have hsource : census w t .hands = census w' t .hands + if cmd.ticket = t then 1 else 0 := by
    simp only [census, hhands]
    exact countP_eq_erase_add hmem _
  have hevicted : w'.log.countP (evictionOf t) = w.log.countP (evictionOf t) := by
    rw [hlog, countP_calm (fun _ => evictionOf_calm t) hcalm]
  have hfinished : w'.log.countP (terminalFor t) = w.log.countP (terminalFor t) := by
    rw [hlog, countP_calm (fun _ => terminalFor_calm t) hcalm]
  by_cases hseq : w.inFlight seq = none
  · refine .shift .hands .inFlight (if cmd.ticket = t then 1 else 0) ?_ htickets
    refine .intro (by decide) hsource ?_ (fun _ _ => hqueue) (fun hne => absurd rfl hne)
      (fun _ _ => howed) (fun _ hne => absurd rfl hne) (fun _ _ => hevicted)
      (fun _ _ => hfinished)
    simp only [census, hinFlight]
    rw [(InFlight.entries_insert_perm hseq _).countP_eq, List.countP_cons]
    simp
  · refine .overwrote seq cmd sentAt _ rfl hseq hsource ?_ ?_ htickets
    · simp only [census, hinFlight]
      refine (InFlight.entries_insert_countP_le _ _ _ _).trans ?_
      rw [Nat.add_comm]
      simp [List.countP_cons]
    · intro p hp hp'
      cases p with
      | hands => exact absurd rfl hp
      | inFlight => exact absurd rfl hp'
      | queue => simp only [census, hqueue]
      | owed => simp only [census, howed]
      | evicted => exact hevicted
      | finished => exact hfinished

/-- Taking an entry out of the in-flight table. -/
theorem census_erase {seq : UInt8} {entry : InFlightEntry} (t : ℕ)
    (hfound : w.inFlight seq = some entry)
    (hinFlight : w'.inFlight = Function.update w.inFlight seq none) :
    census w t .inFlight = census w' t .inFlight + if entry.command.ticket = t then 1 else 0 := by
  simp only [census, hinFlight]
  rw [(InFlight.entries_erase_perm hfound).countP_eq, List.countP_cons]
  simp

theorem TakenOut.moved {a : Act} {seq : UInt8} {entry : InFlightEntry} {e : Event}
    (h : TakenOut tid w w' seq entry e) (t : ℕ) (hevicted : evictionOf t e = false)
    (hfinished : terminalFor t e = false) : Moved a w w' t := by
  obtain ⟨es, hlog, hcalm⟩ := h.log
  refine .shift .inFlight .owed (if entry.command.ticket = t then 1 else 0) ?_ h.tickets
  refine .intro (by decide) (census_erase t h.found h.inFlight) ?_ (fun _ _ => h.queue)
    (fun _ _ => h.hands) (fun _ hne => absurd rfl hne) (fun hne => absurd rfl hne) ?_ ?_
  · simp [census, h.owed, Multiset.countP_cons, Command.hand]
  · intro _ _
    rw [hlog, countP_calm (fun _ => evictionOf_calm t) hcalm, List.countP_cons, hevicted]
    simp
  · intro _ _
    rw [hlog, countP_calm (fun _ => terminalFor_calm t) hcalm, List.countP_cons, hfinished]
    simp

theorem Requeued.moved {a : Act} {seq : UInt8} {entry : InFlightEntry}
    (h : Requeued w w' seq entry) (t : ℕ) : Moved a w w' t := by
  refine .shift .inFlight .queue (if entry.command.ticket = t then 1 else 0) ?_ h.tickets
  refine .intro (by decide) (census_erase t h.found h.inFlight) ?_ (fun _ hne => absurd rfl hne)
    (fun _ _ => h.hands) (fun _ _ => h.owed) (fun hne => absurd rfl hne) ?_ ?_
  · simp only [census, h.queue]
    rw [(ControllerQueue.push_snapshot_perm _ _).countP_eq, List.countP_cons]
    simp
  · intro _ _
    simp [h.log, evictionOf]
  · intro _ _
    simp [h.log, terminalFor]

/-- A terminal report of a command that the thread has. -/
theorem moved_publish {event : AckEvent} {cmd : Command} {r : Unit} (t : ℕ)
    (hmine : isTerminalAckStatus event.status = true → (tid, cmd.hand) ∈ w.owed ∨
      w.flushMu = some tid ∧ w.current = some cmd.hand ∧ cmd.hand ∈ w.hands)
    (h : exec cfg id tid w (.publishAckWithCommand event cmd) inp = some (w', r)) :
    Moved (.publishAckWithCommand event cmd) w w' t := by
  cases h
  unfold execPublish
  cases hterminal : isTerminalAckStatus event.status with
  | false =>
      refine .shift .queue .hands 0 ?_ rfl
      exact .intro (by decide) rfl rfl (fun _ _ => rfl) (fun _ _ => rfl) (fun _ _ => rfl)
        (fun _ _ => rfl) (fun _ _ => by simp [evictionOf])
        (fun _ _ => by simp [terminalFor, hterminal])
  | true =>
      have hfinished : ∀ w₁ : World, w₁.log = .published event (some cmd.ticket) :: w.log →
          census w₁ t .finished = census w t .finished + if cmd.ticket = t then 1 else 0 := by
        intro w₁ hlog
        simp [census, hlog, List.countP_cons, terminalFor, hterminal]
      simp only [if_true, World.settle]
      split
      · rename_i howed
        refine .shift .owed .finished (if cmd.ticket = t then 1 else 0) ?_ rfl
        exact .intro (by decide) (countP_eq_erase_add howed _) (hfinished _ rfl)
          (fun _ _ => rfl) (fun _ _ => rfl) (fun hne => absurd rfl hne) (fun _ _ => rfl)
          (fun _ _ => by simp [evictionOf]) (fun _ hne => absurd rfl hne)
      · rename_i howed
        have hcur := (hmine hterminal).resolve_left howed
        have hcond : w.flushMu = some tid ∧ w.current = some cmd.hand := ⟨hcur.1, hcur.2.1⟩
        simp only [World.note, hcond, and_self, if_true]
        refine .shift .hands .finished (if cmd.ticket = t then 1 else 0) ?_ rfl
        exact .intro (by decide) (countP_eq_erase_add hcur.2.2 _) (hfinished _ rfl)
          (fun _ _ => rfl) (fun hne => absurd rfl hne) (fun _ _ => rfl) (fun _ _ => rfl)
          (fun _ _ => by simp [evictionOf]) (fun _ hne => absurd rfl hne)

/-- A failed save that ends a `ProcessInFlight` with nothing to report loses nothing. -/
theorem persist_calm {r : Option Error} (hgood : GoodSave w tid .persist inp)
    (h : exec cfg id tid w .persist inp = some (w', r)) : w.Calm w' := by
  obtain ⟨hok, ⟨-, hquiet⟩ | ⟨hr, w₁, hquiet, rfl⟩⟩ := exec_persist h
  · exact hquiet.toCalm
  · have hnone : ∀ o ∈ w₁.owed, o.1 ≠ tid := by
      intro o ho heq
      rw [hquiet.owed] at ho
      exact hr (hok (hgood (decide_eq_true (Multiset.mem_map.mpr ⟨o, ho, heq⟩))))
    have hfilter : w₁.owed.filter (fun o => o.1 ≠ tid) = w₁.owed :=
      Multiset.filter_eq_self.mpr hnone
    rw [hfilter]
    exact hquiet.toCalm

/-- Every action that custody permits moves commands between places. -/
theorem exec_moved {a : Act} {r : a.Res} (t : ℕ) (hknows : Knows tid w v)
    (hmay : v.May True a) (hgood : GoodSave w tid a inp)
    (h : exec cfg id tid w a inp = some (w', r)) : Moved a w w' t := by
  have hholds : v.flushing = true → v.hands = w.hands := fun hv => (hknows.hands hv).symm
  cases a with
  | now | write | publishAck | lockManager | unlockManager | queueLen | queueBytes | hasFW
  | hasSync | create | markOffline | touch | updateBufferFree | setFrameMode | inFlightCount
  | peekInFlight | findSession | dedupTime | setDedup | inFlightOrder | spin
  | deliveryContext | ensureSession | ackSent => exact (exec_quiet rfl h).toCalm.moved t
  | setFWMode enabled => exact (exec_setFWMode h).1.moved t
  | setSyncMode enabled => exact (exec_setSyncMode h).1.moved t
  | nextCommandSeq => exact (exec_nextCommandSeq h).1.moved t
  | transmit => exact moved_transmit t h
  | publishAckWithCommand event cmd =>
      refine moved_publish t (fun hterminal => ?_) h
      rcases hmay trivial hterminal with howed | ⟨hv, hcur, hmem⟩
      · exact .inl ((mem_owed_iff hknows cmd.hand).mpr howed)
      · exact .inr ⟨hknows.flushing.mp hv, (hknows.current hv).trans hcur, hholds hv ▸ hmem⟩
  | lockFlush => exact moved_lockFlush t h
  | unlockFlush =>
      exact moved_unlockFlush t ((hknows.hands hmay.1).trans (hmay.2.2 trivial)) h
  | popNext => exact moved_popNext t (hknows.session hmay.2) h
  | drainExpired => exact moved_drainExpired t (hknows.session hmay.2) h
  | push => exact moved_push t (hknows.session hmay.2.1) (hholds hmay.1 ▸ hmay.2.2) h
  | dropOldest => exact moved_dropOldest t h
  | pushNew => exact moved_pushNew t (hknows.session hmay.1) h
  | registerInFlight =>
      exact moved_registerInFlight t (hknows.session hmay.2.1) (hholds hmay.1 ▸ hmay.2.2.2.1) h
  | ackInFlight seq =>
      rcases exec_ackInFlight h with ⟨-, hquiet, -⟩ | ⟨entry, -, ht⟩
      · exact hquiet.toCalm.moved t
      · exact ht.moved t rfl rfl
  | visitInFlight seq now =>
      rcases exec_visitInFlight h with ⟨-, rfl⟩ | ⟨entry, out, -, ⟨-, hq⟩ | ⟨-, -, ht⟩⟩
      · exact (World.Quiet.refl _).toCalm.moved t
      · exact hq.moved t
      · exact ht.moved t rfl rfl
  | persist => exact (persist_calm hgood h).moved t
  | persistEnqueued ticket =>
      obtain ⟨w₁, hquiet, ⟨-, rfl⟩ | ⟨-, rfl⟩⟩ := exec_persistEnqueued h
      · refine .shift .queue .hands 0 ?_ hquiet.tickets
        rw [← hquiet.toCalm.census t]
        exact .intro (by decide) rfl rfl (fun _ _ => rfl) (fun _ _ => rfl) (fun _ _ => rfl)
          (fun _ _ => rfl) (fun _ _ => by simp [evictionOf]) (fun _ _ => by simp [terminalFor])
      · exact hquiet.toCalm.moved t

end exec

end TcpAdapter.Delivery
