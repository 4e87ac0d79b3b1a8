import TcpAdapter.Verification.Delivery.Conservation

/-! # The order of transmissions

A flush takes a command from the head of its buffer and a new command joins at the tail, so
commands of one class are first transmitted in the order in which they were enqueued. Only
a command that a flush has put back, at the tail, can be overtaken. -/

namespace TcpAdapter.Delivery

open TcpAdapter.Concurrent TcpAdapter.Queue TcpAdapter.Protocol TcpAdapter.Manager
open TcpAdapter.Policy

/-- A frame of the command was written, under this command id. -/
def SentAs (t : ℕ) (commandID : UInt8) (past : List Event) : Prop :=
  ∃ seq bytes fwMode syncMode, .transmitted t commandID seq bytes fwMode syncMode ∈ past

/-- The command has been neither transmitted nor put back. -/
def Waiting (t : ℕ) (past : List Event) : Prop :=
  (∀ commandID, ¬SentAs t commandID past) ∧ .putBack t ∉ past

/-- A command that is transmitted for the first time and was never put back comes before
every later one of its class. -/
def FirstInOrder : List Event → Prop
  | [] => True
  | .transmitted t commandID _ _ _ _ :: past =>
      (Waiting t past → ∀ t' commandID', SentAs t' commandID' past → t < t' →
        canonicalPriorityForCommand commandID' ≠ canonicalPriorityForCommand commandID) ∧
      FirstInOrder past
  | _ :: past => FirstInOrder past

theorem SentAs.mono {t : ℕ} {commandID : UInt8} {past past' : List Event}
    (h : SentAs t commandID past) (hp : past <:+ past') : SentAs t commandID past' := by
  obtain ⟨seq, bytes, fwMode, syncMode, hmem⟩ := h
  exact ⟨seq, bytes, fwMode, syncMode, hp.subset hmem⟩

theorem Waiting.mono {t : ℕ} {past past' : List Event} (h : Waiting t past')
    (hp : past <:+ past') : Waiting t past :=
  ⟨fun commandID hsent => h.1 commandID (hsent.mono hp), fun hmem => h.2 (hp.subset hmem)⟩

/-! ## The invariant -/

/-- The command has the priority of its class, and a ticket. -/
def Legit (w : World) (h : Hand) : Prop :=
  canonicalPriorityForCommand h.2.1 = some h.2.2 ∧ h.1 < w.tickets

/-- No later command of the same class has got ahead of this one. -/
structure Ahead (w : World) (h : Hand) : Prop where
  sent : ∀ t commandID, SentAs t commandID (history w.log) → h.1 < t →
    canonicalPriorityForCommand commandID ≠ some h.2.2
  hands : ∀ h' ∈ w.hands, h.1 < h'.1 → h'.2.2 ≠ h.2.2
  inFlight : ∀ seq entry, w.inFlight seq = some entry → h.1 < entry.command.ticket →
    entry.command.priority ≠ h.2.2

structure Fifo (w : World) : Prop where
  queue : ∀ b, ∀ cmd ∈ w.queue.buffer b, Legit w cmd.hand ∧ cmd.priority.buffer = b
  hands : ∀ h ∈ w.hands, Legit w h
  inFlight : ∀ seq entry, w.inFlight seq = some entry → Legit w entry.command.hand ∧
    ∃ commandID, SentAs entry.command.ticket commandID (history w.log)
  written : ∀ p ∈ w.written, ∃ commandID, SentAs p.1 commandID (history w.log)
  sent : ∀ t commandID, SentAs t commandID (history w.log) → t < w.tickets
  ahead : ∀ b, ∀ cmd ∈ w.queue.buffer b, Waiting cmd.ticket (history w.log) → Ahead w cmd.hand
  order : ∀ b, (w.queue.buffer b).Pairwise fun x y =>
    Waiting y.ticket (history w.log) → x.ticket ≤ y.ticket
  current : ∀ h ∈ w.current, h ∈ w.hands → Waiting h.1 (history w.log) → Ahead w h

/-- Nothing was added but to the queue, and nothing was transmitted. -/
structure Retains (w w' : World) : Prop where
  hands : ∀ h ∈ w'.hands, h ∈ w.hands
  current : ∀ h ∈ w'.current, h ∈ w.current
  inFlight : ∀ seq entry, w'.inFlight seq = some entry → w.inFlight seq = some entry
  written : ∀ p ∈ w'.written, p ∈ w.written
  tickets : w.tickets ≤ w'.tickets
  past : history w.log <:+ history w'.log
  sent : ∀ t commandID, SentAs t commandID (history w'.log) → SentAs t commandID (history w.log)

structure Shrinks (w w' : World) : Prop extends Retains w w' where
  queue : ∀ b, (w'.queue.buffer b).Sublist (w.queue.buffer b)

theorem Legit.mono {w w' : World} {h : Hand} (hl : Legit w h) (ht : w.tickets ≤ w'.tickets) :
    Legit w' h :=
  ⟨hl.1, hl.2.trans_le ht⟩

theorem Ahead.retains {w w' : World} {h : Hand} (ha : Ahead w h) (hs : Retains w w') :
    Ahead w' h where
  sent t commandID hsent := ha.sent t commandID (hs.sent t commandID hsent)
  hands h' hmem := ha.hands h' (hs.hands h' hmem)
  inFlight seq entry hentry := ha.inFlight seq entry (hs.inFlight seq entry hentry)

/-- A change of the queue, when nothing else was added. -/
theorem Fifo.of_retains {w w' : World} (hw : Fifo w) (hs : Retains w w')
    (hqueue : ∀ b, ∀ cmd ∈ w'.queue.buffer b, Legit w' cmd.hand ∧ cmd.priority.buffer = b)
    (hahead : ∀ b, ∀ cmd ∈ w'.queue.buffer b, Waiting cmd.ticket (history w'.log) →
      Ahead w' cmd.hand)
    (horder : ∀ b, (w'.queue.buffer b).Pairwise fun x y =>
      Waiting y.ticket (history w'.log) → x.ticket ≤ y.ticket) : Fifo w' := by
  refine ⟨hqueue, ?_, ?_, ?_, ?_, hahead, horder, ?_⟩
  · intro h hmem
    exact (hw.hands h (hs.hands h hmem)).mono hs.tickets
  · intro seq entry hentry
    obtain ⟨hl, commandID, hsent⟩ := hw.inFlight seq entry (hs.inFlight seq entry hentry)
    exact ⟨hl.mono hs.tickets, commandID, hsent.mono hs.past⟩
  · intro p hp
    obtain ⟨commandID, hsent⟩ := hw.written p (hs.written p hp)
    exact ⟨commandID, hsent.mono hs.past⟩
  · intro t commandID hsent
    exact (hw.sent t commandID (hs.sent t commandID hsent)).trans_le hs.tickets
  · intro h hcur hmem hwait
    exact (hw.current h (hs.current h hcur) (hs.hands h hmem) (hwait.mono hs.past)).retains hs

theorem Fifo.shrinks {w w' : World} (hw : Fifo w) (hs : Shrinks w w') : Fifo w' := by
  refine hw.of_retains hs.toRetains ?_ ?_ ?_
  · intro b cmd hmem
    obtain ⟨hl, hb⟩ := hw.queue b cmd ((hs.queue b).subset hmem)
    exact ⟨hl.mono hs.tickets, hb⟩
  · intro b cmd hmem hwait
    exact (hw.ahead b cmd ((hs.queue b).subset hmem) (hwait.mono hs.past)).retains hs.toRetains
  · intro b
    refine ((hw.order b).sublist (hs.queue b)).imp ?_
    intro x y hxy hwait
    exact hxy (hwait.mono hs.past)

theorem mem_push_buffer {q : ControllerQueue} {cmd x : Command} {b : ControllerQueue.Buffer}
    (h : x ∈ (q.push cmd).buffer b) :
    x ∈ q.buffer b ∨ (x = cmd ∧ b = cmd.priority.buffer) := by
  rw [ControllerQueue.push_eq] at h
  by_cases hb : b = cmd.priority.buffer
  · subst hb
    rw [ControllerQueue.buffer_setBuffer, List.mem_append, List.mem_singleton] at h
    exact h.imp_right fun hx => ⟨hx, rfl⟩
  · rw [ControllerQueue.buffer_setBuffer_of_ne q hb] at h
    exact .inl h

/-- A command joins the queue. It is new, or it does not wait for its first transmission. -/
theorem Fifo.append {w w' : World} {cmd : Command} (hw : Fifo w) (hs : Retains w w')
    (hqueue : w'.queue = w.queue.push cmd) (hlegit : Legit w' cmd.hand)
    (hnew : Waiting cmd.ticket (history w'.log) → w.tickets ≤ cmd.ticket) : Fifo w' := by
  refine hw.of_retains hs ?_ ?_ ?_
  · intro b x hmem
    rw [hqueue] at hmem
    rcases mem_push_buffer hmem with hx | ⟨rfl, rfl⟩
    · obtain ⟨hl, hb⟩ := hw.queue b x hx
      exact ⟨hl.mono hs.tickets, hb⟩
    · exact ⟨hlegit, rfl⟩
  · intro b x hmem hwait
    rw [hqueue] at hmem
    rcases mem_push_buffer hmem with hx | ⟨rfl, rfl⟩
    · exact (hw.ahead b x hx (hwait.mono hs.past)).retains hs
    · -- every ticket that was given out before is smaller
      have hle := hnew hwait
      refine ⟨fun t commandID hsent hlt => ?_, fun h hmem hlt => ?_, fun seq entry hentry hlt => ?_⟩
      · have hold := hw.sent t commandID (hs.sent t commandID hsent)
        exact absurd (hold.trans_le hle) (Nat.lt_asymm hlt)
      · have hold := (hw.hands h (hs.hands h hmem)).2
        exact absurd (hold.trans_le hle) (Nat.lt_asymm hlt)
      · have hold := (hw.inFlight seq entry (hs.inFlight seq entry hentry)).1.2
        exact absurd (hold.trans_le hle) (Nat.lt_asymm hlt)
  · intro b
    have hold : (w.queue.buffer b).Pairwise fun x y =>
        Waiting y.ticket (history w'.log) → x.ticket ≤ y.ticket := by
      refine (hw.order b).imp ?_
      intro x y hxy hwait
      exact hxy (hwait.mono hs.past)
    rw [hqueue, ControllerQueue.push_eq]
    by_cases hb : b = cmd.priority.buffer
    · subst hb
      rw [ControllerQueue.buffer_setBuffer, List.pairwise_append]
      refine ⟨hold, List.pairwise_singleton _ _, ?_⟩
      intro x hx y hy hwait
      obtain rfl := List.mem_singleton.mp hy
      exact (hw.queue _ x hx).1.2.le.trans (hnew hwait)
    · rw [ControllerQueue.buffer_setBuffer_of_ne _ hb]
      exact hold

/-! ## Actions that add nothing -/

def Act.transmits : Act → Bool
  | .transmit _ _ _ _ => true
  | _ => false

/-- The actions that put a command somewhere. -/
def Act.adds : Act → Bool
  | .popNext _ _ _ | .push _ | .pushNew _ | .transmit _ _ _ _ => true
  | .registerInFlight _ _ _ | .visitInFlight _ _ => true
  | _ => false

section exec

variable {cfg : Config} {id : String} {tid : ℕ} {w w' : World} {v : Custody} {inp : Input}

theorem past_suffix {a : Act} {r : a.Res} (h : exec cfg id tid w a inp = some (w', r)) :
    history w.log <:+ history w'.log :=
  ⟨_, (exec_history h).symm⟩

theorem SentAs.cases {t : ℕ} {commandID : UInt8} {e : Event} {past : List Event}
    (h : SentAs t commandID (e :: past)) :
    (∃ seq bytes fwMode syncMode, e = .transmitted t commandID seq bytes fwMode syncMode) ∨
      SentAs t commandID past := by
  obtain ⟨seq, bytes, fwMode, syncMode, hmem⟩ := h
  rcases List.mem_cons.mp hmem with rfl | hmem
  · exact .inl ⟨seq, bytes, fwMode, syncMode, rfl⟩
  · exact .inr ⟨seq, bytes, fwMode, syncMode, hmem⟩

theorem emitted_transmitted {a : Act} {r : a.Res} {t : ℕ} {commandID seq : UInt8}
    {bytes : List UInt8} {fwMode syncMode : Bool}
    (h : emitted tid w a r = some (.transmitted t commandID seq bytes fwMode syncMode)) :
    ∃ conn cmd, a = .transmit conn bytes cmd seq ∧ t = cmd.ticket ∧ commandID = cmd.commandID ∧
      fwMode = w.fwMode ∧ syncMode = w.syncMode := by
  cases emits_of_emitted h
  exact ⟨_, _, rfl, rfl, rfl, rfl, rfl⟩

/-- Only `transmit` adds a transmission. -/
theorem sentAs_exec {a : Act} {r : a.Res} (ha : a.transmits = false)
    (h : exec cfg id tid w a inp = some (w', r)) (t : ℕ) (commandID : UInt8)
    (hsent : SentAs t commandID (history w'.log)) : SentAs t commandID (history w.log) := by
  rw [exec_history h] at hsent
  cases he : emitted tid w a r with
  | none => simpa [he] using hsent
  | some e =>
      rw [he] at hsent
      rcases SentAs.cases hsent with ⟨seq, bytes, fwMode, syncMode, rfl⟩ | hold
      · obtain ⟨conn, cmd, rfl, -⟩ := emitted_transmitted he
        cases ha
      · exact hold

theorem setQueue_buffer_sublist (m : Slot) (q : ControllerQueue) (b : ControllerQueue.Buffer) :
    ((m.setQueue q).queue.buffer b).Sublist (q.buffer b) := by
  cases hs : m.session with
  | none =>
      have hempty : (m.setQueue q).queue.buffer b = [] := by
        simp only [Slot.setQueue, Slot.queue, hs, Option.map_none, Option.getD_none]
        cases b <;> rfl
      rw [hempty]
      exact List.nil_sublist _
  | some s =>
      rw [Slot.setQueue_queue q (by rw [hs]; rfl)]

theorem dropOldest_sublist {q q' : ControllerQueue} {cmd : Command}
    (h : q.dropOldest = (some cmd, q')) (b : ControllerQueue.Buffer) :
    (q'.buffer b).Sublist (q.buffer b) := by
  obtain ⟨b', i, -, rfl⟩ := ControllerQueue.dropOldest_some h
  by_cases hb : b = b'
  · subst hb
    rw [ControllerQueue.buffer_setBuffer]
    exact List.eraseIdx_sublist _ _
  · rw [ControllerQueue.buffer_setBuffer_of_ne q hb]

/-- A step that keeps the commands in the queue and in flight. -/
theorem Shrinks.of_commands {a : Act} {r : a.Res} (ha : a.adds = false)
    (hqueue : w'.queue = w.queue) (hinFlight : w'.inFlight = w.inFlight)
    (hhands : ∀ h ∈ w'.hands, h ∈ w.hands) (hcurrent : ∀ h ∈ w'.current, h ∈ w.current)
    (hwritten : ∀ p ∈ w'.written, p ∈ w.written) (htickets : w'.tickets = w.tickets)
    (h : exec cfg id tid w a inp = some (w', r)) : Shrinks w w' where
  queue b := by rw [hqueue]
  hands := hhands
  current := hcurrent
  inFlight seq entry := by rw [hinFlight]; exact fun h => h
  written := hwritten
  tickets := htickets.ge
  past := past_suffix h
  sent := sentAs_exec (by cases a <;> first | rfl | cases ha) h

theorem Shrinks.refl (w : World) : Shrinks w w :=
  ⟨⟨fun _ hm => hm, fun _ hm => hm, fun _ _ he => he, fun _ hp => hp, le_rfl,
    List.suffix_refl _, fun _ _ hs => hs⟩, fun _ => List.Sublist.refl _⟩

theorem World.Calm.shrinks {a : Act} {r : a.Res} (ha : a.adds = false) (hc : w.Calm w')
    (h : exec cfg id tid w a inp = some (w', r)) : Shrinks w w' :=
  .of_commands ha hc.queue hc.inFlight (fun _ hm => hc.hands ▸ hm) (fun _ hm => hc.current ▸ hm)
    (fun _ hp => hc.written ▸ hp) hc.tickets h

theorem settle_shrinks (w : World) (tid : ℕ) (h : Hand) :
    (∀ h' ∈ (w.settle tid h).hands, h' ∈ w.hands) ∧
      (∀ h' ∈ (w.settle tid h).current, h' ∈ w.current) ∧
      (w.settle tid h).tickets = w.tickets := by
  unfold World.settle
  split
  · exact ⟨fun _ hm => hm, fun _ hm => hm, rfl⟩
  · split
    · refine ⟨fun _ hm => Multiset.mem_of_mem_erase hm, fun h' hm => ?_, rfl⟩
      simp only [World.release, Option.mem_def] at hm ⊢
      split at hm
      · cases hm
      · exact hm
    · exact ⟨fun _ hm => hm, fun _ hm => hm, rfl⟩

theorem TakenOut.shrinks {a : Act} {r : a.Res} {seq : UInt8} {entry : InFlightEntry} {e : Event}
    (ht : TakenOut tid w w' seq entry e) (ha : a.transmits = false)
    (h : exec cfg id tid w a inp = some (w', r)) : Shrinks w w' where
  queue b := by rw [ht.queue]
  hands _ hm := ht.hands ▸ hm
  current _ hm := ht.current ▸ hm
  inFlight s entry' hentry := by
    rw [ht.inFlight] at hentry
    by_cases hs : s = seq
    · subst hs
      rw [Function.update_self] at hentry
      cases hentry
    · rwa [Function.update_of_ne hs] at hentry
  written _ hp := ht.written ▸ hp
  tickets := ht.tickets.ge
  past := past_suffix h
  sent := sentAs_exec ha h

theorem exec_shrinks {a : Act} {r : a.Res} (ha : a.adds = false)
    (h : exec cfg id tid w a inp = some (w', r)) : Shrinks w w' := by
  cases a with
  | now | write | publishAck | lockManager | unlockManager | queueLen | queueBytes | hasFW
  | hasSync | create | markOffline | touch | updateBufferFree | setFrameMode | inFlightCount
  | peekInFlight | findSession | dedupTime | setDedup | inFlightOrder | spin
  | deliveryContext | ensureSession | ackSent => exact (exec_quiet rfl h).toCalm.shrinks ha h
  | setFWMode enabled => exact (exec_setFWMode h).1.shrinks ha h
  | setSyncMode enabled => exact (exec_setSyncMode h).1.shrinks ha h
  | nextCommandSeq => exact (exec_nextCommandSeq h).1.shrinks ha h
  | lockFlush =>
      have hkeep := exec_commands rfl h
      refine .of_commands ha hkeep.1 hkeep.2 ?_ ?_ ?_ ?_ h <;>
        (simp only [exec] at h; split at h <;> cases h)
      · exact fun _ hm => hm
      · exact fun _ hm => hm
      · exact fun _ hm => hm
      · rfl
  | unlockFlush =>
      have hkeep := exec_commands rfl h
      refine .of_commands ha hkeep.1 hkeep.2 ?_ ?_ ?_ ?_ h <;> cases h
      · exact fun _ hm => absurd hm (Multiset.notMem_zero _)
      · exact fun _ hm => by cases hm
      · exact fun _ hm => by cases hm
      · rfl
  | publishAckWithCommand event cmd =>
      have hkeep := exec_commands rfl h
      have hsettle := settle_shrinks (w.note (.published event (some cmd.ticket))) tid cmd.hand
      refine .of_commands ha hkeep.1 hkeep.2 ?_ ?_ ?_ ?_ h
      · cases h
        unfold execPublish
        dsimp only
        split
        · exact hsettle.1
        · exact fun _ hm => hm
      · cases h
        unfold execPublish
        dsimp only
        split
        · exact hsettle.2.1
        · exact fun _ hm => hm
      · intro p hp
        rwa [exec_written rfl h] at hp
      · cases h
        unfold execPublish
        dsimp only
        split
        · exact hsettle.2.2
        · rfl
  | drainExpired now =>
      have hpast := past_suffix h
      have hsent := sentAs_exec rfl h
      obtain ⟨rfl, rfl⟩ := Prod.mk.inj (Option.some.inj h)
      refine ⟨⟨fun _ hm => hm, fun _ hm => hm, fun seq entry hentry => ?_, fun _ hm => hm, le_rfl,
        hpast, hsent⟩, fun b => ?_⟩
      · simpa using hentry
      · refine (setQueue_buffer_sublist w.slot _ b).trans ?_
        rw [ControllerQueue.drainExpired_buffer]
        exact List.filter_sublist
  | dropOldest =>
      have hpast := past_suffix h
      have hsent := sentAs_exec rfl h
      simp only [exec, execDropOldest] at h
      split at h
      · cases h
        exact .refl w
      · rename_i cmd q hdrop
        cases h
        refine ⟨⟨fun _ hm => hm, fun _ hm => hm, fun seq entry hentry => ?_, fun _ hm => hm,
          le_rfl, hpast, hsent⟩, fun b => ?_⟩
        · simpa using hentry
        · exact (setQueue_buffer_sublist w.slot _ b).trans (dropOldest_sublist hdrop b)
  | ackInFlight seq =>
      rcases exec_ackInFlight h with ⟨-, hquiet, -⟩ | ⟨entry, -, ht⟩
      · exact hquiet.toCalm.shrinks ha h
      · exact ht.shrinks rfl h
  | persist =>
      have hkeep := exec_commands rfl h
      obtain ⟨-, ⟨-, hquiet⟩ | ⟨-, w₁, hquiet, rfl⟩⟩ := exec_persist h
      · exact hquiet.toCalm.shrinks ha h
      · exact .of_commands ha hkeep.1 hkeep.2 (fun _ hm => hquiet.hands ▸ hm)
          (fun _ hm => hquiet.current ▸ hm) (fun _ hm => hquiet.written ▸ hm) hquiet.tickets h
  | persistEnqueued ticket =>
      have hkeep := exec_commands rfl h
      obtain ⟨w₁, hquiet, ⟨-, rfl⟩ | ⟨-, rfl⟩⟩ := exec_persistEnqueued h
      · exact .of_commands ha hkeep.1 hkeep.2 (fun _ hm => hquiet.hands ▸ hm)
          (fun _ hm => hquiet.current ▸ hm) (fun _ hm => hquiet.written ▸ hm) hquiet.tickets h
      · exact hquiet.toCalm.shrinks ha h
  | popNext | push | pushNew | transmit | registerInFlight | visitInFlight => cases ha

/-! ## Actions that add a command -/

theorem fifo_popNext {now : Time} {fwMode syncMode : Bool} {r : Option Command} (hw : Fifo w)
    (hsession : w.session.isSome)
    (h : exec cfg id tid w (.popNext now fwMode syncMode) inp = some (w', r)) : Fifo w' := by
  simp only [exec, execPop] at h
  split at h
  · cases h
    exact hw
  · rename_i cmd q hpop
    cases h
    obtain ⟨b, rest, hb, rfl⟩ := ControllerQueue.popNext_some hpop
    have hcmd : cmd ∈ w.queue.buffer b := by
      rw [hb]
      exact List.mem_cons_self
    have hqueue : (w.setQueue (w.queue.setBuffer b rest)).queue = w.queue.setBuffer b rest :=
      Slot.setQueue_queue _ hsession
    have hsub : ∀ b', ((w.queue.setBuffer b rest).buffer b').Sublist (w.queue.buffer b') := by
      intro b'
      by_cases hb' : b' = b
      · subst hb'
        rw [ControllerQueue.buffer_setBuffer, hb]
        exact List.sublist_cons_self _ _
      · rw [ControllerQueue.buffer_setBuffer_of_ne _ hb']
    -- a command of the class that waits behind `cmd` has the larger ticket
    have hbehind : ∀ b', ∀ x ∈ (w.queue.setBuffer b rest).buffer b',
        Waiting x.ticket (history w.log) → x.ticket < cmd.ticket → cmd.priority ≠ x.priority := by
      intro b' x hx hwait hlt hsame
      have hxb := (hw.queue b' x ((hsub b').subset hx)).2
      have hcb := (hw.queue b cmd hcmd).2
      obtain rfl : b' = b := by rw [← hxb, ← hcb, hsame]
      rw [ControllerQueue.buffer_setBuffer] at hx
      have horder := hw.order b'
      rw [hb, List.pairwise_cons] at horder
      exact absurd (horder.1 x hx hwait) (Nat.not_le.mpr hlt)
    have hahead : ∀ h, Ahead w h → (h.1 < cmd.ticket → cmd.priority ≠ h.2.2) →
        Ahead { w.setQueue (w.queue.setBuffer b rest) with
          hands := cmd.hand ::ₘ w.hands, current := some cmd.hand } h := by
      intro h ha hnew
      refine ⟨ha.sent, fun h' hmem hlt => ?_, fun seq entry hentry => ?_⟩
      · rcases Multiset.mem_cons.mp hmem with rfl | hmem
        · exact hnew hlt
        · exact ha.hands h' hmem hlt
      · exact ha.inFlight seq entry (by simpa using hentry)
    refine ⟨?_, ?_, ?_, hw.written, hw.sent, ?_, ?_, ?_⟩
    · intro b' x hx
      exact hw.queue b' x ((hsub b').subset (hqueue ▸ hx))
    · intro h hmem
      rcases Multiset.mem_cons.mp hmem with rfl | hmem
      · exact (hw.queue b cmd hcmd).1
      · exact hw.hands h hmem
    · intro seq entry hentry
      exact hw.inFlight seq entry (by simpa using hentry)
    · intro b' x hx hwait
      have hx' : x ∈ (w.queue.setBuffer b rest).buffer b' := hqueue ▸ hx
      exact hahead _ (hw.ahead b' x ((hsub b').subset hx') hwait) (hbehind b' x hx' hwait)
    · intro b'
      have horder := (hw.order b').sublist (hsub b')
      rwa [← hqueue] at horder
    · rintro h ⟨⟩ - hwait
      exact hahead _ (hw.ahead b cmd hcmd hwait) fun hlt => absurd hlt (Nat.lt_irrefl _)

theorem fifo_push {cmd : Command} {r : Unit} (hw : Fifo w) (hsession : w.session.isSome)
    (hmem : cmd.hand ∈ w.hands) (h : exec cfg id tid w (.push cmd) inp = some (w', r)) :
    Fifo w' := by
  have hpast := past_suffix h
  have hsent := sentAs_exec rfl h
  cases h
  have hqueue : (w.slot.setQueue (w.slot.queue.push cmd)).queue = w.slot.queue.push cmd :=
    Slot.setQueue_queue _ hsession
  refine hw.append ?_ hqueue (hw.hands _ hmem) ?_
  · refine ⟨fun _ hm => Multiset.mem_of_mem_erase hm, fun h' hm => ?_, fun seq entry hentry => ?_,
      fun _ hm => hm, le_rfl, hpast, hsent⟩
    · simp only [execPush, World.release, Option.mem_def] at hm ⊢
      split at hm
      · cases hm
      · exact hm
    · simpa [execPush] using hentry
  · intro hwait
    exact absurd List.mem_cons_self hwait.2

theorem fifo_requeued {seq : UInt8} {entry : InFlightEntry} (hw : Fifo w)
    (hq : Requeued w w' seq entry) : Fifo w' := by
  have hlog : history w'.log = .timedOut entry.command.ticket seq :: history w.log := by
    rw [hq.log]
    rfl
  obtain ⟨hlegit, commandID, hsent⟩ := hw.inFlight seq entry hq.found
  refine hw.append
    ?_ hq.queue (hlegit.mono hq.tickets.ge) ?_
  · refine ⟨fun _ hm => hq.hands ▸ hm, fun _ hm => hq.current ▸ hm, fun s entry' hentry => ?_,
      fun _ hp => hq.written ▸ hp, hq.tickets.ge, ⟨[_], by rw [hlog]; rfl⟩, ?_⟩
    · rw [hq.inFlight] at hentry
      by_cases hs : s = seq
      · subst hs
        rw [Function.update_self] at hentry
        cases hentry
      · rwa [Function.update_of_ne hs] at hentry
    · intro t commandID' hsent'
      rw [hlog] at hsent'
      rcases SentAs.cases hsent' with ⟨_, _, _, _, he⟩ | hold
      · cases he
      · exact hold
  · intro hwait
    exact absurd (hsent.mono ⟨[_], by rw [hlog]; rfl⟩) (hwait.1 commandID)

theorem fifo_pushNew {cmd : Command} {r : ℕ} (hw : Fifo w) (hsession : w.session.isSome)
    (hclass : canonicalPriorityForCommand cmd.commandID = some cmd.priority)
    (h : exec cfg id tid w (.pushNew cmd) inp = some (w', r)) : Fifo w' := by
  have hpast := past_suffix h
  have hsent := sentAs_exec rfl h
  cases h
  have hqueue : (w.slot.setQueue (w.slot.queue.push { cmd with ticket := w.tickets })).queue =
      w.slot.queue.push { cmd with ticket := w.tickets } := Slot.setQueue_queue _ hsession
  refine hw.append ?_ hqueue
    ⟨hclass, Nat.lt_succ_self _⟩ fun _ => le_rfl
  refine ⟨fun _ hm => hm, fun _ hm => hm, fun seq entry hentry => ?_, fun _ hm => hm,
    Nat.le_succ _, hpast, hsent⟩
  simpa [execPushNew] using hentry

theorem fifo_transmit {conn : ConnID} {bytes : List UInt8} {cmd : Command} {seq : UInt8}
    {r : Option Error} (hw : Fifo w) (hmem : cmd.hand ∈ w.hands)
    (h : exec cfg id tid w (.transmit conn bytes cmd seq) inp = some (w', r)) : Fifo w' := by
  simp only [exec, execTransmit] at h
  split at h
  · cases h
    exact hw
  · cases h
    have hlegit := hw.hands _ hmem
    have hclass : canonicalPriorityForCommand cmd.commandID = some cmd.priority := hlegit.1
    have hpast : history w.log <:+ .transmitted cmd.ticket cmd.commandID seq bytes w.fwMode
        w.syncMode :: history w.log := ⟨[_], rfl⟩
    -- whoever has stayed ahead of `cmd` in hands stays ahead of its transmission
    have hahead : ∀ h, Ahead w h → Ahead { w.note (.transmitted cmd.ticket cmd.commandID seq bytes
        w.fwMode w.syncMode) with written := some (cmd.ticket, seq) } h := by
      intro h ha
      refine ⟨fun t commandID hsent hlt => ?_, ha.hands, ha.inFlight⟩
      rcases SentAs.cases hsent with ⟨_, _, _, _, he⟩ | hold
      · cases he
        rw [hclass]
        exact fun heq => ha.hands _ hmem hlt (Option.some.inj heq)
      · exact ha.sent t commandID hold hlt
    refine ⟨hw.queue, hw.hands, ?_, ?_, ?_, ?_, ?_, ?_⟩
    · intro s entry hentry
      obtain ⟨hl, commandID, hsent⟩ := hw.inFlight s entry hentry
      exact ⟨hl, commandID, hsent.mono hpast⟩
    · rintro p ⟨⟩
      exact ⟨cmd.commandID, _, _, _, _, List.mem_cons_self⟩
    · intro t commandID hsent
      rcases SentAs.cases hsent with ⟨_, _, _, _, he⟩ | hold
      · cases he
        exact hlegit.2
      · exact hw.sent t commandID hold
    · intro b x hx hwait
      exact hahead _ (hw.ahead b x hx (hwait.mono hpast))
    · intro b
      refine (hw.order b).imp ?_
      intro x y hxy hwait
      exact hxy (hwait.mono hpast)
    · intro h hcur hhand hwait
      exact hahead _ (hw.current h hcur hhand (hwait.mono hpast))

theorem fifo_registerInFlight {seq : UInt8} {cmd : Command} {sentAt : Time} {r : Option Error}
    (hw : Fifo w) (hsession : w.session.isSome) (hmem : cmd.hand ∈ w.hands)
    (hwritten : w.written = some (cmd.ticket, seq))
    (h : exec cfg id tid w (.registerInFlight seq cmd sentAt) inp = some (w', r)) : Fifo w' := by
  have hlog : history w'.log = history w.log := exec_history h
  obtain ⟨hqueue, hinFlight, -, htickets, hhands, hcurrent, hnone, -, -, -, -, -⟩ :=
    exec_registerInFlight hsession h
  have hhands' : ∀ h ∈ w'.hands, h ∈ w.hands := by
    intro h hm
    rw [hhands] at hm
    exact Multiset.mem_of_mem_erase hm
  have hentries : ∀ s entry, w'.inFlight s = some entry →
      entry.command = cmd ∨ w.inFlight s = some entry := by
    intro s entry hentry
    rw [hinFlight] at hentry
    by_cases hs : s = seq
    · subst hs
      rw [Function.update_self] at hentry
      cases hentry
      exact .inl rfl
    · rw [Function.update_of_ne hs] at hentry
      exact .inr hentry
  have hahead : ∀ h, Ahead w h → Ahead w' h := by
    intro h ha
    refine ⟨hlog ▸ ha.sent, fun h' hm => ha.hands h' (hhands' h' hm), fun s entry hentry hlt => ?_⟩
    rcases hentries s entry hentry with hcmd | hold
    · rw [hcmd] at hlt ⊢
      exact ha.hands _ hmem hlt
    · exact ha.inFlight s entry hold hlt
  refine ⟨?_, ?_, ?_, ?_, ?_, ?_, ?_, ?_⟩
  · intro b x hx
    rw [hqueue] at hx
    obtain ⟨hl, hb⟩ := hw.queue b x hx
    exact ⟨hl.mono htickets.ge, hb⟩
  · intro h hm
    exact (hw.hands h (hhands' h hm)).mono htickets.ge
  · intro s entry hentry
    rw [hlog]
    rcases hentries s entry hentry with hcmd | hold
    · rw [hcmd]
      exact ⟨(hw.hands _ hmem).mono htickets.ge, hw.written _ hwritten⟩
    · obtain ⟨hl, hsent⟩ := hw.inFlight s entry hold
      exact ⟨hl.mono htickets.ge, hsent⟩
  · intro p hp
    rw [hnone] at hp
    cases hp
  · intro t commandID hsent
    rw [htickets]
    exact hw.sent t commandID (hlog ▸ hsent)
  · intro b x hx hwait
    rw [hqueue] at hx
    exact hahead _ (hw.ahead b x hx (hlog ▸ hwait))
  · intro b
    rw [hqueue, hlog]
    exact hw.order b
  · intro h hcur hm hwait
    rw [hcurrent] at hcur
    split at hcur
    · cases hcur
    · exact hahead _ (hw.current h hcur (hhands' h hm) (hlog ▸ hwait))

theorem exec_fifo {a : Act} {r : a.Res} (hw : Fifo w) (hknows : Knows tid w v)
    (hmay : v.May False a) (h : exec cfg id tid w a inp = some (w', r)) : Fifo w' := by
  have hholds : v.flushing = true → v.hands = w.hands := fun hv => (hknows.hands hv).symm
  cases a with
  | popNext => exact fifo_popNext hw (hknows.session hmay.2) h
  | push => exact fifo_push hw (hknows.session hmay.2.1) (hholds hmay.1 ▸ hmay.2.2) h
  | pushNew => exact fifo_pushNew hw (hknows.session hmay.1) hmay.2 h
  | transmit => exact fifo_transmit hw (hholds hmay.1 ▸ hmay.2.2.1) h
  | registerInFlight =>
      exact fifo_registerInFlight hw (hknows.session hmay.2.1) (hholds hmay.1 ▸ hmay.2.2.2.1)
        ((hknows.written hmay.1).trans hmay.2.2.2.2) h
  | visitInFlight seq now =>
      rcases exec_visitInFlight h with ⟨-, rfl⟩ | ⟨entry, out, -, ⟨-, hq⟩ | ⟨-, -, ht⟩⟩
      · exact hw
      · exact fifo_requeued hw hq
      · exact hw.shrinks (ht.shrinks rfl h)
  | _ => exact hw.shrinks (exec_shrinks rfl h)

theorem exec_firstInOrder {a : Act} {r : a.Res} (hw : Fifo w)
    (hfirst : FirstInOrder (history w.log)) (hknows : Knows tid w v) (hmay : v.May False a)
    (h : exec cfg id tid w a inp = some (w', r)) : FirstInOrder (history w'.log) := by
  refine history_of_emits h hfirst fun e he => ?_
  cases he with
  | @transmit conn bytes cmd seq =>
      refine ⟨fun hwait t commandID hsent hlt => ?_, hfirst⟩
      have hmem : cmd.hand ∈ w.hands := by
        rw [hknows.hands hmay.1]
        exact hmay.2.2.1
      have hcurrent : w.current = some cmd.hand := (hknows.current hmay.1).trans hmay.2.1
      have hclass : canonicalPriorityForCommand cmd.commandID = some cmd.priority :=
        (hw.hands _ hmem).1
      rw [hclass]
      exact (hw.current _ hcurrent hmem hwait).sent t commandID hsent hlt
  | _ => exact hfirst

end exec

/-! ## Runs -/

/-- Two commands of one class that are both transmitted are first transmitted in the order in
which they were enqueued, unless a flush put the earlier one back. -/
theorem transmitted_in_order {cfg : Config} {id : String} {c : Concurrent.Config (machine cfg id)}
    (h : Reachable (storeRules cfg id) {} c) : FirstInOrder (history c.world.log) := by
  refine ((ledger cfg id False (storeRules cfg id) fun hf => hf.elim).invariant
    (J := fun w => Fifo w ∧ FirstInOrder (history w.log)) ?_ ?_ ?_ h).2
  · refine ⟨?_, trivial⟩
    have hnone : ∀ t commandID, ¬SentAs t commandID [] := by
      rintro t commandID ⟨_, _, _, _, hmem⟩
      cases hmem
    refine ⟨?_, ?_, ?_, ?_, fun t commandID hsent => absurd hsent (hnone t commandID), ?_, ?_, ?_⟩
    · intro b cmd hmem
      cases b <;> cases hmem
    · intro h hmem
      exact absurd hmem (Multiset.notMem_zero _)
    · intro seq entry hentry
      cases hentry
    · intro p hp
      cases hp
    · intro b cmd hmem
      cases b <;> cases hmem
    · intro b
      cases b <;> exact List.Pairwise.nil
    · intro h hcur
      cases hcur
  · intro c c' tid a inp r v s hw
    have hexec : exec cfg id tid c.world a inp = some (c'.world, r) := s.exec
    exact ⟨exec_fifo hw.1 s.knows s.may hexec,
      exec_firstInOrder hw.1 hw.2 s.knows s.may hexec⟩
  · exact fun _ hcrash => hcrash.elim

/-- The transmissions, oldest first: tickets and command ids. -/
def transmissions (log : List Event) : List (ℕ × UInt8) :=
  log.reverse.filterMap fun e =>
    match e with
    | .transmitted t commandID _ _ _ _ => some (t, commandID)
    | _ => none

/-- The controller has 12 free bytes. Command 6 needs 14 and is put back behind command 9,
which needs 11. -/
def overtakenLabels : List (Label (machine {} "c")) :=
  connect ++ call 0 (.status1 7 ⟨255, 1, [2, 0, 0, 0, 0, 0, 0, 12, 0], .sequenced⟩) 5 ++
    call 0 (.enqueue { commandID := 6, payload := [1, 0, 0] } 0) 20 ++
    call 0 (.enqueue { commandID := 9 } 0) 20 ++ call 0 .flush 40 ++ call 0 .flush 40 ++
    call 0 (.ack11 ⟨255, 1, [11, 2, 0, 0, 0, 0, 0, 100, 0], .sequenced⟩) 5 ++ call 0 .flush 40

theorem overtaken_transmissions :
    ∃ c, Reachable (storeRules {} "c") {} c ∧ transmissions c.world.log = [(1, 9), (0, 6)] ∧
      ∀ t ∈ [0, 1], ∀ seq ∈ allSeqs, .timedOut t seq ∉ c.world.log :=
  ⟨_, Reachable.initial.run overtakenLabels, by decide +kernel⟩

theorem put_back_overtaken :
    (∃ c, Reachable (storeRules {} "c") {} c ∧ transmissions c.world.log = [(1, 9), (0, 6)] ∧
      ∀ t ∈ [0, 1], ∀ seq ∈ allSeqs, .timedOut t seq ∉ c.world.log) ∧
    canonicalPriorityForCommand 9 = canonicalPriorityForCommand 6 :=
  ⟨overtaken_transmissions, rfl⟩

theorem overtaken_in_order :
    ∃ c, Reachable (storeRules {} "c") {} c ∧ transmissions c.world.log = [(1, 9), (0, 6)] ∧
      FirstInOrder (history c.world.log) := by
  obtain ⟨c, hc, hsent, -⟩ := overtaken_transmissions
  exact ⟨c, hc, hsent, transmitted_in_order hc⟩

end TcpAdapter.Delivery
