import TcpAdapter.Verification.Delivery.FlushEnds
import TcpAdapter.Verification.Protocol.Reader

/-! # Queues drain

A flush sends at least one command if the controller is online, nothing is in flight and every
queued command can be sent; when the controller has answered all of them, the next flush goes on.
In this way the whole queue is delivered, whatever is in it. Sync and firmware modes come and go
on the way and never bring it to a halt. -/

namespace TcpAdapter.Delivery

open TcpAdapter.Concurrent TcpAdapter.Queue TcpAdapter.Protocol TcpAdapter.Manager
open TcpAdapter.Policy

section rounds

variable {cfg : Config} {id : String} {tid : ℕ} {w : World} {s : Session} {d total : ℕ → ℕ}
  {f : Option ℕ} {terms : Terms}

theorem withFlushLock_ends {α : Type} {p : Deliver α} {post : α → Session → Prop}
    (hw : Sees none d w s)
    (hp : ∀ w', Sees (some tid) d w' s → p.Ends (reliable cfg id terms) tid
      (fun x w' => ∃ s', Sees (some tid) d w' s' ∧ post x s') w') :
    (withFlushLock p).Ends (reliable cfg id terms) tid
      (fun x w' => ∃ s', Sees none d w' s' ∧ post x s') w := by
  refine hw.lockFlush.ends hw (fun _ => rfl) fun w₁ hw₁ => ?_
  refine (hp w₁ hw₁).bind fun x w₂ hend => ?_
  obtain ⟨s', hw₂, hx⟩ := hend
  exact hw₂.unlockFlush.ends hw₂ (fun _ => rfl) fun w₃ hw₃ => ⟨s', hw₃, hx⟩

/-- A flush of a controller that is online. While something is in flight it waits, otherwise it
sends something if there is anything to send. -/
theorem flush_ends (hw : Sees none d w s) (hs : Standing terms total d s) (hconn : s.conn.isSome)
    (hroom : terms.room ≤ maxBudget s.deliveryContext) (hfew : s.queue.len ≤ 256) :
    (withFlushLock (flushQueue id)).Ends (reliable cfg id terms) tid
      (fun err w' => ∃ s', Sees none d w' s' ∧ err = none ∧ Flushed terms total d s s' ∧
        (s'.queue.len ≠ 0 → s'.inFlight.count ≠ 0)) w := by
  refine withFlushLock_ends hw fun w₀ hw₀ => ?_
  refine hw₀.deliveryContext.ends hw₀ (fun _ => rfl) fun w₁ hw₁ => ?_
  obtain ⟨conn, hconn⟩ := Option.isSome_iff_exists.mp hconn
  have hconn : s.deliveryContext.conn = some conn := hconn
  simp only [hconn]
  refine hw₁.inFlightCount.ends hw₁ (fun _ => rfl) fun w₁ hw₁ => ?_
  split
  · rename_i hbusy
    exact ⟨s, hw₁, rfl, hs.flushed, fun _ => hbusy.ne'⟩
  · rename_i hidle
    have hidle : s.inFlight.count = 0 := Nat.eq_zero_of_not_pos hidle
    have hpos := maxBudget_pos s.deliveryContext
    have hnum : Unspent 0 s :=
      ⟨fun seq hseq => absurd (InFlight.count_eq_zero hidle seq) hseq, hfew⟩
    refine (flushLoop_ends hw₁ hs hnum).mono fun err w' hend => ?_
    obtain ⟨herr, s', hw', hflushed, hless⟩ := hend
    refine ⟨s', hw', herr, hflushed, fun hrest => ?_⟩
    -- what has left the queue is in flight
    have hload := hflushed.load
    have hlen := hflushed.len
    have hless := hless (by omega) hpos hroom (by omega)
    simp only [load] at hload
    omega

/-- The frame is a terminal acknowledgement after which `room` bytes are free. -/
structure Answers (terms : Terms) (frame : Protocol.Frame) (ack : Ack11) : Prop where
  command : frame.payload.head? = some 11
  parsed : parseAck11Payload frame.payload = .ok ack
  terminal : (interpretAck11ExecutionCode ack.executionCode).terminal = true
  room : terms.room ≤ if (ack.bufferFreeBytes : Int) ≤ 0 then (1500 : Int) else ack.bufferFreeBytes

/-- The session after a terminal acknowledgement. -/
def Session.answered (s : Session) (ack : Ack11) : Session :=
  { s with
    bufferFree := ack.bufferFreeBytes
    inFlight := Function.update s.inFlight ack.commandSeq none }

theorem Standing.answered {d' : ℕ → ℕ} {ack : Ack11} (h : Standing terms total d s)
    (hd : ∀ t, (InFlight.entries (Function.update s.inFlight ack.commandSeq none)).countP
        (fun e => e.command.ticket == t) + d' t =
      s.inFlight.entries.countP (fun e => e.command.ticket == t) + d t) :
    Standing terms total d' (Session.answered s ack) where
  sendable := h.sendable
  sorted := h.sorted
  served := ⟨h.served.fw, h.served.sync⟩
  balance t := by
    rw [← h.balance t, Nat.add_assoc, Nat.add_assoc]
    exact congrArg _ (hd t)

/-- The answer takes its command out of flight and finishes it. -/
theorem handleAck11_ends {frame : Protocol.Frame} {ack : Ack11} (hw : Sees none d w s)
    (hs : Standing terms total d s) (hack : Answers terms frame ack) :
    (handleAck11 id frame).Ends (reliable cfg id terms) tid
      (fun _ w' => ∃ d', Sees none d' w' (Session.answered s ack) ∧
        Standing terms total d' (Session.answered s ack)) w := by
  unfold handleAck11
  rw [hack.parsed]
  refine (hw.updateBufferFree _).ends hw (fun _ => rfl) fun w₁ hw₁ => ?_
  rw [if_pos hack.terminal]
  have hquiet : ∀ t, finishing t (emitted tid w₁ (.ackInFlight ack.commandSeq)
      ((s.inFlight ack.commandSeq).map fun e => (e.command, e.attempts))) = 0 := by
    intro t
    cases s.inFlight ack.commandSeq <;> rfl
  refine (hw₁.ackInFlight _).ends hw₁ hquiet fun w₂ hw₂ => ?_
  have hw₂ : Sees none d w₂ (Session.answered s ack) := hw₂
  cases hentry : s.inFlight ack.commandSeq with
  | none =>
      refine ⟨d, hw₂, hs.answered fun t => ?_⟩
      rw [← hentry, Function.update_eq_self]
  | some entry =>
      refine ((hw₂.publishAckWithCommand _ _).finishes hw₂).mono fun _ w₃ hend => ?_
      refine ⟨_, hend.2, hs.answered fun t => ?_⟩
      change _ + (finishing t (some (.published _ (some entry.command.ticket))) + d t) = _
      rw [(InFlight.entries_erase_perm hentry).countP_eq, List.countP_cons]
      simp [finishing, terminalFor, ackEvent, interpret_terminal, hack.terminal]
      omega

theorem Sees.touch {α : Type} {k : Unit → Deliver α} {post : α → World → Prop}
    (hw : Sees f d w s)
    (hk : ∀ w' now persisted,
      Sees f d w' { s with lastSeen := now, lastTouchedPersistedAt := persisted } →
      (k ()).Ends (reliable cfg id terms) tid post w') :
    (perform .touch >>= k).Ends (reliable cfg id terms) tid post w := by
  rintro inp ⟨hsave, -⟩
  have h : exec cfg id tid w .touch inp =
      some (w.commit (w.slot.touch inp.time inp.saveErr), ()) := hw.guarded _
  have hdone : ∀ t, (w.commit (w.slot.touch inp.time inp.saveErr)).log.countP (terminalFor t) = d t :=
    fun t => (exec_finished h t).trans ((Nat.zero_add _).trans (hw.done t))
  refine ⟨_, (), h, ?_⟩
  by_cases hrecent : inp.time - s.lastTouchedPersistedAt < Slot.touchPersistInterval
  · refine hk _ inp.time s.lastTouchedPersistedAt ⟨⟨hw.mu, hw.flushMu, ?_⟩, hdone⟩
    simp only [Slot.touch, hw.slot, if_pos hrecent]
    rfl
  · refine hk _ inp.time inp.time ⟨⟨hw.mu, hw.flushMu, ?_⟩, hdone⟩
    simp only [Slot.touch, hw.slot, if_neg hrecent, Slot.persistLocked, hsave]
    rfl

/-- Nothing is overdue, so every entry stays. -/
theorem visitAll_ends {now : Time} {order : List UInt8}
    (hprompt : ∀ seq entry, w.inFlight seq = some entry → now < deadline cfg entry) :
    (visitAll now order).Ends (reliable cfg id terms) tid
      (fun outs w' => outs = [] ∧ w' = w) w := by
  induction order with
  | nil => exact ⟨rfl, rfl⟩
  | cons seq rest ih =>
      have hvisit : execVisit cfg tid w seq now = (w, none) := by
        cases hs : w.session with
        | none => simp only [execVisit, hs]
        | some s =>
            cases hentry : s.inFlight seq with
            | none => simp only [execVisit, hs, Session.visitInFlight, hentry]
            | some entry =>
                have hlive : w.inFlight seq = some entry := by
                  rw [World.inFlight, Slot.inFlight, show w.slot.session = some s from hs]
                  exact hentry
                have hstays : inFlightOutcome (deliveryPolicyForCommand cfg entry.command) now seq
                    entry = none := if_pos (hprompt seq entry hlive)
                simp only [execVisit, hs, Session.visitInFlight, hentry, hstays]
      refine fun inp _ => ⟨w, none, congrArg some hvisit, ?_⟩
      refine ih.bind fun outs w' hend => ?_
      obtain ⟨rfl, rfl⟩ := hend
      exact ⟨rfl, rfl⟩

theorem managerProcessInFlight_ends {now : Time} (hw : Sees f d w s)
    (hprompt : ∀ seq entry, w.inFlight seq = some entry → now < deadline cfg entry) :
    (managerProcessInFlight now).Ends (reliable cfg id terms) tid
      (fun r w' => r = .ok [] ∧ Sees f d w' s) w := by
  intro inp _
  refine ⟨_, (), if_pos hw.mu, ?_⟩
  generalize hw₁ : ({ w with mu := some tid } : World) = w₁
  have hsession : w₁.session = some s := by
    subst hw₁
    exact hw.session
  intro inp _
  refine ⟨w₁, true, by simp only [exec, hsession, Option.isSome_some], ?_⟩
  rintro inp ⟨-, -, -, horder⟩
  have hall : exec cfg id tid w₁ .inFlightOrder inp = some (w₁, inp.order) := by
    refine if_pos (List.all_eq_true.mpr fun seq _ => decide_eq_true ?_)
    exact or_iff_not_imp_left.mpr (horder rfl seq)
  refine ⟨_, _, hall, ?_⟩
  refine (visitAll_ends (by subst hw₁; exact hprompt)).bind fun outs w' hend => ?_
  obtain ⟨rfl, rfl⟩ := hend
  rintro inp ⟨hsave, -⟩
  have hsaved : execPersist tid w' inp = ((method w' (w'.slot.ackSent none)).1, none) := by
    simp only [execPersist, hsave, method, Slot.ackSent, Slot.persistLocked,
      show w'.slot.session = some s from hsession]
  have hpersist : exec cfg id tid w' .persist inp = some (_, none) := congrArg some hsaved
  refine ⟨_, none, hpersist, ?_⟩
  intro inp _
  refine ⟨_, (), rfl, rfl, ⟨rfl, ?_, ?_⟩, fun t => ?_⟩
  · refine ((exec_mutex rfl hpersist).1).trans ?_
    subst hw₁
    exact hw.flushMu
  · simp only [method, Slot.ackSent, Slot.persistLocked,
      show w'.slot.session = some s from hsession]
    rfl
  · refine (exec_finished hpersist t).trans ?_
    subst hw₁
    exact (Nat.zero_add _).trans (hw.done t)

theorem processInFlight_ends (hw : Sees f d w s) :
    (processInFlight id).Ends (reliable cfg id terms) tid (fun _ w' => Sees f d w' s) w := by
  rintro inp ⟨-, -, hclock, -⟩
  refine ⟨w, inp.time, rfl, ?_⟩
  refine (managerProcessInFlight_ends hw (hclock rfl).2).bind fun r w' hend => ?_
  obtain ⟨rfl, hw'⟩ := hend
  exact hw'

/-- The controller is online, has room, and what is left in the queue can be sent. -/
structure Underway (terms : Terms) (total d : ℕ → ℕ) (s : Session) : Prop where
  standing : Standing terms total d s
  online : s.conn.isSome
  room : terms.room ≤ maxBudget s.deliveryContext
  few : s.queue.len ≤ 256

theorem Underway.flushed {s' : Session} (h : Underway terms total d s)
    (hflushed : Flushed terms total d s s') : Underway terms total d s' where
  standing := hflushed.standing
  online := by
    rw [hflushed.alike.conn]
    exact h.online
  room := by
    have hbudget : maxBudget s'.deliveryContext = maxBudget s.deliveryContext := by
      simp only [maxBudget, Session.deliveryContext, hflushed.alike.bufferFree]
      rfl
    rw [hbudget]
    exact h.room
  few := hflushed.len.trans h.few

theorem Underway.answered {d' : ℕ → ℕ} {frame : Protocol.Frame} {ack : Ack11} {now persisted : Time}
    (h : Underway terms total d s) (hack : Answers terms frame ack)
    (hs : Standing terms total d' (Session.answered
      { s with lastSeen := now, lastTouchedPersistedAt := persisted } ack)) :
    Underway terms total d' (Session.answered
      { s with lastSeen := now, lastTouchedPersistedAt := persisted } ack) :=
  ⟨hs, h.online, hack.room, h.few⟩

/-- The read loop handles an answer: one command is finished, and the queue moves on as soon as
nothing is in flight. -/
theorem handleFrame_ends {conn : ConnID} {frame : Protocol.Frame} {ack : Ack11}
    (hw : Sees none d w s) (hs : Underway terms total d s) (hack : Answers terms frame ack)
    (hlive : s.inFlight ack.commandSeq ≠ none) :
    (handleFrame id conn frame).Ends (reliable cfg id terms) tid
      (fun opened w' => opened = true ∧ ∃ d' s', Sees none d' w' s' ∧
        Underway terms total d' s' ∧ (s'.queue.len ≠ 0 → s'.inFlight.count ≠ 0) ∧
        load s' + 1 = load s) w := by
  unfold handleFrame
  refine hw.touch fun w₁ now persisted hw₁ => ?_
  have hstanding := hs.standing
  have hdispatch : (dispatch id conn frame).Ends (reliable cfg id terms) tid
      (fun opened w' => opened = true ∧ ∃ d', Sees none d' w' (Session.answered
          { s with lastSeen := now, lastTouchedPersistedAt := persisted } ack) ∧
        Underway terms total d' (Session.answered
          { s with lastSeen := now, lastTouchedPersistedAt := persisted } ack)) w₁ := by
    unfold dispatch
    rw [hack.command]
    refine (handleAck11_ends hw₁ ⟨hstanding.sendable, hstanding.sorted,
      ⟨hstanding.served.fw, hstanding.served.sync⟩, hstanding.balance⟩ hack).bind
      fun _ w' hend => ?_
    obtain ⟨d', hw', hs'⟩ := hend
    exact ⟨rfl, d', hw', hs.answered hack hs'⟩
  refine hdispatch.bind fun opened w₂ hend => ?_
  obtain ⟨rfl, d', hw₂, hs₂⟩ := hend
  rw [if_pos rfl]
  refine (processInFlight_ends hw₂).bind fun _ w₃ hw₃ => ?_
  refine (flush_ends hw₃ hs₂.standing hs₂.online hs₂.room hs₂.few).bind fun err w₄ hend => ?_
  obtain ⟨s', hw₄, rfl, hflushed, hgoes⟩ := hend
  refine ⟨rfl, d', s', hw₄, hs₂.flushed hflushed, hgoes, ?_⟩
  obtain ⟨entry, hentry⟩ := Option.ne_none_iff_exists'.mp hlive
  have hcount : s.inFlight.count =
      InFlight.count (Function.update s.inFlight ack.commandSeq none) + 1 :=
    (InFlight.entries_erase_perm hentry).length_eq
  rw [hflushed.load]
  simp only [load, hcount]
  rfl

/-- A run of the read loop over `n` answers. As long as one is due, something is in flight that
the controller can answer; whatever it answers is handled and the connection stays open. -/
def Delivers (cfg : Config) (id : String) (tid : ℕ) (conn : ConnID) (terms : Terms)
    (post : World → Prop) : ℕ → World → Prop
  | 0, w => post w
  | n + 1, w =>
      (∃ frame ack, Answers terms frame ack ∧ w.inFlight ack.commandSeq ≠ none) ∧
      ∀ frame ack, Answers terms frame ack → w.inFlight ack.commandSeq ≠ none →
        (handleFrame id conn frame).Ends (reliable cfg id terms) tid
          (fun opened w' => opened = true ∧ Delivers cfg id tid conn terms post n w') w

/-- Nothing is left, and a ticket has been reported as finished `total` times. -/
def Finished (total : ℕ → ℕ) (w : World) : Prop :=
  w.queue.len = 0 ∧ w.inFlight.count = 0 ∧ ∀ t, w.log.countP (terminalFor t) = total t

theorem exists_answer (hroom : terms.room ≤ 65535) (seq : UInt8) :
    ∃ frame ack, Answers terms frame ack ∧ ack.commandSeq = seq := by
  refine ⟨⟨0, 0, [11, seq, 0, 0, 0, 0, 0, 255, 255], .sequenced⟩, ⟨seq, 0, 0, 65535⟩,
    ⟨rfl, ?_, rfl, ?_⟩, rfl⟩
  · simp [parseAck11Payload, uint32At, uint16At]
  · simpa using hroom

theorem exists_inFlight {m : InFlight} (h : m.count ≠ 0) : ∃ seq, m seq ≠ none := by
  by_contra hnone
  push Not at hnone
  exact h (List.length_eq_zero_iff.mpr (List.filterMap_eq_nil_iff.mpr fun seq _ => hnone seq))

theorem delivers_of_underway {conn : ConnID} {n : ℕ} (hw : Sees none d w s)
    (hs : Underway terms total d s) (hgoes : s.queue.len ≠ 0 → s.inFlight.count ≠ 0)
    (hroom : terms.room ≤ 65535) (hload : load s = n) :
    Delivers cfg id tid conn terms (Finished total) n w := by
  induction n generalizing w s d with
  | zero =>
      obtain ⟨hqueue, hcount⟩ := Nat.add_eq_zero_iff.mp hload
      refine ⟨by rw [queue_of_session hw.session, hqueue], by rw [hw.inFlight, hcount],
        fun t => ?_⟩
      have hqueued : s.queue.snapshot = [] :=
        List.eq_nil_of_length_eq_zero ((len_eq_length s.queue).symm.trans hqueue)
      have hflying : s.inFlight.entries = [] := List.eq_nil_of_length_eq_zero hcount
      have hbalance := hs.standing.balance t
      rw [hqueued, hflying] at hbalance
      rw [hw.done, ← hbalance]
      simp
  | succ n ih =>
      have hcount : s.inFlight.count ≠ 0 := by
        simp only [load] at hload
        omega
      refine ⟨?_, fun frame ack hack hlive => ?_⟩
      · obtain ⟨seq, hseq⟩ := exists_inFlight hcount
        obtain ⟨frame, ack, hack, rfl⟩ := exists_answer hroom seq
        exact ⟨frame, ack, hack, by rwa [hw.inFlight]⟩
      · rw [hw.inFlight] at hlive
        refine (handleFrame_ends hw hs hack hlive).mono fun opened w' hend => ?_
        obtain ⟨hopened, d', s', hw', hs', hgoes', hload'⟩ := hend
        exact ⟨hopened, ih hw' hs' hgoes' (by omega)⟩

/-- A controller that is online, with nothing in flight and with commands in its queue that can
all be sent: no more than there are numbers, and a mode is on only while one of its class is
queued. -/
structure Drainable (terms : Terms) (w : World) (s : Session) : Prop where
  session : w.session = some s
  mu : w.mu = none
  flushMu : w.flushMu = none
  online : s.conn.isSome
  idle : s.inFlight.count = 0
  few : s.queue.len ≤ 256
  room : terms.room ≤ maxBudget s.deliveryContext
  wire : terms.room ≤ 65535
  sendable : ∀ cmd ∈ s.queue.snapshot, Deliverable s.frameMode terms cmd
  sorted : Sorted s.queue
  served : Served s s.queue.snapshot

/-- After a flush, exactly as many answers as there were commands deliver the whole queue: at
every point something is in flight to be answered, and in the end every command has been reported
as finished once. -/
theorem queue_drains {conn : ConnID} (h : Drainable terms w s) :
    (withFlushLock (flushQueue id)).Ends (reliable cfg id terms) tid
      (fun err w' => err = none ∧ Delivers cfg id tid conn terms
        (Finished fun t => s.queue.snapshot.countP (fun c => c.ticket == t) +
          w.log.countP (terminalFor t)) s.queue.len w') w := by
  have hw : Sees none (fun t => w.log.countP (terminalFor t)) w s :=
    ⟨⟨h.mu, h.flushMu, h.session⟩, fun _ => rfl⟩
  have hflying : s.inFlight.entries = [] := List.eq_nil_of_length_eq_zero h.idle
  have hs : Underway terms (fun t => s.queue.snapshot.countP (fun c => c.ticket == t) +
      w.log.countP (terminalFor t)) (fun t => w.log.countP (terminalFor t)) s := by
    refine ⟨⟨h.sendable, h.sorted, h.served, fun t => ?_⟩, h.online, h.room, h.few⟩
    rw [hflying, List.countP_nil, Nat.add_zero]
  refine (flush_ends hw hs.standing hs.online hs.room hs.few).mono fun err w' hend => ?_
  obtain ⟨s', hw', herr, hflushed, hgoes⟩ := hend
  refine ⟨herr, delivers_of_underway hw' (hs.flushed hflushed) hgoes h.wire ?_⟩
  rw [hflushed.load, load, h.idle, Nat.add_zero]

end rounds

theorem deliverable_of_length {mode : FrameMode} {terms : Terms} {cmd : Command}
    (hlasting : ∀ now < terms.horizon, cmd.expired now = false)
    (hcanonical : canonicalPriorityForCommand cmd.commandID = some cmd.priority)
    (hretry : cmd.retrySeq = 0)
    (hvalid : validateServerCommandPayload cmd.commandID cmd.payload = .ok ())
    (hwire : cmd.payload.length ≤ 65532) (hroom : (cmd.payload.length + 11 : Int) ≤ terms.room) :
    Deliverable mode terms cmd where
  lasting := hlasting
  canonical := hcanonical
  retrySeq := hretry
  valid := hvalid
  fits seq := by
    have hdata : (commandFrame cmd seq mode).data.length ≤ cmd.payload.length + 3 := by
      rw [data_length]
      have hmode : (if (commandFrame cmd seq mode).mode = .compact then 1 else 2) ≤ 2 := by
        split <;> omega
      simp only [commandFrame, List.length_cons] at hmode ⊢
      omega
    have henc : encodeFrame (commandFrame cmd seq mode) = .ok _ :=
      encodeFrame_eq_ok_iff.mpr ⟨List.cons_ne_nil _ _, hdata.trans (by omega), rfl⟩
    refine ⟨_, henc, ?_⟩
    rw [encodeFrame_length henc]
    omega

def blankBlock : List UInt8 :=
  List.replicate 1026 0

theorem blankBlock_length : blankBlock.length = 1026 :=
  List.length_replicate

theorem blankBlock_valid : validateServerCommandPayload 20 blankBlock = .ok () := by
  change validateCmd20 blankBlock = .ok ()
  rw [validateCmd20, needLength, need, if_pos blankBlock_length]

/-- A firmware block, and a query that has to wait for it. -/
def updating : Session :=
  { Session.new "c" (some 1) 0 with
    fwMode := true
    queue :=
      { fw := [{ commandID := 20, payload := blankBlock, priority := .fw }]
        query := [{ commandID := 9, ttl := minute, ticket := 1 }] } }

theorem updating_drainable :
    Drainable ⟨1100, minute⟩ { slot := { session := some updating } } updating where
  session := rfl
  mu := rfl
  flushMu := rfl
  online := rfl
  idle := rfl
  few := by decide
  room := by decide
  wire := by decide
  sendable cmd hcmd := by
    rcases List.mem_cons.mp hcmd with rfl | hcmd
    · refine deliverable_of_length (fun _ _ => rfl) rfl rfl blankBlock_valid ?_ ?_
      · rw [blankBlock_length]
        decide
      · rw [blankBlock_length]
        decide
    · obtain rfl := List.mem_singleton.mp hcmd
      refine deliverable_of_length (fun now hnow => ?_) rfl rfl rfl (by decide) (by decide)
      have hnow : now < minute := hnow
      simp [Command.expired, hnow.le]
  sorted := by
    intro b cmd hcmd
    cases b with
    | high | sync => cases hcmd
    | fw | query =>
        obtain rfl := List.mem_singleton.mp hcmd
        rfl
  served := ⟨fun _ => ⟨_, List.mem_cons_self, rfl⟩, fun h => by cases h⟩

theorem query_waits_for_firmware :
    (withFlushLock (flushQueue "c")).Ends (reliable {} "c" ⟨1100, minute⟩) 0
      (fun err w' => err = none ∧ Delivers {} "c" 0 1 ⟨1100, minute⟩
        (Finished fun t => updating.queue.snapshot.countP (fun c => c.ticket == t)) 2 w')
      { slot := { session := some updating } } :=
  queue_drains updating_drainable

end TcpAdapter.Delivery
