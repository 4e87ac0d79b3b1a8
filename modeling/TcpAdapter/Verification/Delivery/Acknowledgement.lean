import TcpAdapter.Verification.Delivery.Conservation

/-! # Acknowledgements

A frame is written before its command is registered. If no terminal acknowledgement is
handled in between, every acknowledgement meets the command it is for, and that command is
reported once. -/

namespace TcpAdapter.Delivery

open TcpAdapter.Concurrent TcpAdapter.Queue TcpAdapter.Protocol TcpAdapter.Manager
open TcpAdapter.Policy

/-- The newest frame of the command under this number has been neither acknowledged nor
timed out. -/
def awaiting (t : ℕ) (seq : UInt8) : List Event → Bool
  | [] => false
  | .transmitted t' _ seq' _ _ _ :: log => decide (t' = t ∧ seq' = seq) || awaiting t seq log
  | .acked t' seq' :: log | .timedOut t' seq' :: log =>
      !decide (t' = t ∧ seq' = seq) && awaiting t seq log
  | _ :: log => awaiting t seq log

/-- Every acknowledgement found the command that awaited it. -/
def AcksMeet : List Event → Prop
  | [] => True
  | .missed seq :: log => (∀ t, awaiting t seq log = false) ∧ AcksMeet log
  | .acked t seq :: log => (∀ t', awaiting t' seq log = true → t' = t) ∧ AcksMeet log
  | _ :: log => AcksMeet log

/-- No acknowledgement is handled between the write of its frame and `RegisterInFlight`, and
the save of `AckInFlight` succeeds. -/
def raceFree (w : World) : Act → Input → Bool
  | .ackInFlight seq, inp => inp.saveErr = none ∧ w.written.map Prod.snd ≠ some seq
  | _, _ => true

abbrev raceFreeRules (cfg : Config) (id : String) : Rules (machine cfg id) where
  act w tid a inp := GoodSave w tid a inp ∧ freshSeq w a = true ∧ raceFree w a inp = true
  crash _ := False

section rules

variable {cfg : Config} {id : String}

theorem accounting_of_raceFree {c : Concurrent.Config (machine cfg id)}
    (h : Reachable (raceFreeRules cfg id) {} c) : Reachable (accountingRules cfg id) {} c := by
  refine h.mono ?_
  intro c l hl
  cases l with
  | start tid task => trivial
  | run tid inp => exact fun a k hk => ⟨(hl a k hk).1, (hl a k hk).2.1⟩
  | crash => exact hl

end rules

/-! ## Where a command awaits its acknowledgement -/

/-- A command that awaits its acknowledgement is in flight under its number, or the flush has
still to register it. -/
def Tracked (w : World) : Prop :=
  ∀ t seq, awaiting t seq (history w.log) = true →
    w.written = some (t, seq) ∨ ∃ entry, w.inFlight seq = some entry ∧ entry.command.ticket = t

/-- The actions that begin or end the wait for an acknowledgement. -/
def Act.marksFrame : Act → Bool
  | .transmit _ _ _ _ | .ackInFlight _ | .visitInFlight _ _ => true
  | _ => false

section exec

variable {cfg : Config} {id : String} {tid : ℕ} {w w' : World} {v : Custody} {inp : Input}

theorem awaiting_exec {a : Act} {r : a.Res} (ha : a.marksFrame = false)
    (h : exec cfg id tid w a inp = some (w', r)) (t : ℕ) (seq : UInt8) :
    awaiting t seq (history w'.log) = awaiting t seq (history w.log) := by
  refine history_of_emits (P := fun past => awaiting t seq past = _) h rfl fun e he => ?_
  cases he <;> first | rfl | cases ha

theorem acksMeet_exec {a : Act} {r : a.Res} (ha : a.marksFrame = false)
    (h : exec cfg id tid w a inp = some (w', r)) (hw : AcksMeet (history w.log)) :
    AcksMeet (history w'.log) := by
  refine history_of_emits h hw fun e he => ?_
  cases he <;> first | exact hw | cases ha

theorem Tracked.of_eq (hw : Tracked w) (hwritten : w'.written = w.written)
    (hinFlight : w'.inFlight = w.inFlight)
    (hawait : ∀ t seq, awaiting t seq (history w'.log) = awaiting t seq (history w.log)) :
    Tracked w' := by
  intro t seq ht
  rw [hwritten, hinFlight]
  exact hw t seq (hawait t seq ▸ ht)

theorem tracked_transmit {conn : ConnID} {bytes : List UInt8} {cmd : Command} {seq : UInt8}
    {r : Option Error} (hw : Tracked w) (hwritten : w.written = none)
    (h : exec cfg id tid w (.transmit conn bytes cmd seq) inp = some (w', r)) : Tracked w' := by
  simp only [exec, execTransmit] at h
  split at h
  · cases h
    exact hw
  · cases h
    intro t s ht
    by_cases hcmd : cmd.ticket = t ∧ seq = s
    · obtain ⟨rfl, rfl⟩ := hcmd
      exact .inl rfl
    · have hold : awaiting t s (history w.log) = true := by
        simpa [awaiting, Event.isSave, hcmd] using ht
      rcases hw t s hold with hframe | hentry
      · rw [hwritten] at hframe
        cases hframe
      · exact .inr hentry

theorem tracked_registerInFlight {seq : UInt8} {cmd : Command} {sentAt : Time}
    {r : Option Error} (hw : Tracked w) (hsession : w.session.isSome)
    (hwritten : w.written = some (cmd.ticket, seq)) (hfresh : w.inFlight seq = none)
    (h : exec cfg id tid w (.registerInFlight seq cmd sentAt) inp = some (w', r)) :
    Tracked w' := by
  obtain ⟨-, hinFlight, -, -, -, -, -, -, -, -, -, -⟩ := exec_registerInFlight hsession h
  intro t s ht
  rw [awaiting_exec rfl h] at ht
  right
  rw [hinFlight]
  rcases hw t s ht with hframe | ⟨entry, hentry, hticket⟩
  · rw [hwritten] at hframe
    cases hframe
    exact ⟨_, Function.update_self .., rfl⟩
  · have hne : s ≠ seq := by
      rintro rfl
      rw [hfresh] at hentry
      cases hentry
    exact ⟨entry, by rw [Function.update_of_ne hne, hentry], hticket⟩

/-- Whoever waits under another number, or for another frame, goes on waiting. -/
theorem tracked_of_taken {seq : UInt8} {entry : InFlightEntry} {e : Event} (hw : Tracked w)
    (hfound : w.inFlight seq = some entry)
    (hinFlight : w'.inFlight = Function.update w.inFlight seq none)
    (hwritten : w'.written = w.written) (hlog : history w'.log = e :: history w.log)
    (he : ∀ t s log, awaiting t s (e :: log) =
      (!decide (entry.command.ticket = t ∧ seq = s) && awaiting t s log)) : Tracked w' := by
  intro t s ht
  rw [hlog, he, Bool.and_eq_true, Bool.not_eq_true', decide_eq_false_iff_not] at ht
  obtain ⟨hother, hold⟩ := ht
  rw [hwritten, hinFlight]
  rcases hw t s hold with hframe | ⟨entry', hentry, hticket⟩
  · exact .inl hframe
  · have hne : s ≠ seq := by
      rintro rfl
      rw [hfound] at hentry
      cases hentry
      exact hother ⟨hticket, rfl⟩
    exact .inr ⟨entry', by rw [Function.update_of_ne hne, hentry], hticket⟩

theorem exec_tracked {a : Act} {r : a.Res} (hw : Tracked w) (hknows : Knows tid w v)
    (hmay : v.May True a) (hfresh : freshSeq w a = true)
    (h : exec cfg id tid w a inp = some (w', r)) : Tracked w' := by
  cases a with
  | transmit =>
      exact tracked_transmit hw ((hknows.written hmay.1).trans hmay.2.2.2) h
  | registerInFlight =>
      exact tracked_registerInFlight hw (hknows.session hmay.2.1)
        ((hknows.written hmay.1).trans hmay.2.2.2.2) (Option.isNone_iff_eq_none.mp hfresh) h
  | unlockFlush =>
      have hwritten : w.written = none := (hknows.written hmay.1).trans hmay.2.1
      refine hw.of_eq ?_ (exec_inFlight rfl h) (awaiting_exec rfl h)
      cases h
      exact hwritten.symm
  | ackInFlight seq =>
      have hlog := exec_history h
      rcases exec_ackInFlight h with ⟨rfl, hquiet, -⟩ | ⟨entry, rfl, ht⟩
      · refine hw.of_eq hquiet.written hquiet.inFlight fun t s => ?_
        rw [hlog]
        rfl
      · exact tracked_of_taken hw ht.found ht.inFlight ht.written hlog fun _ _ _ => rfl
  | visitInFlight seq now =>
      have hlog := exec_history h
      rcases exec_visitInFlight h with
        ⟨rfl, rfl⟩ | ⟨entry, out, rfl, ⟨-, hq⟩ | ⟨-, hcmd, ht⟩⟩
      · exact hw
      · have hback : history w'.log = .timedOut entry.command.ticket seq :: history w.log := by
          rw [hq.log]
          rfl
        exact tracked_of_taken hw hq.found hq.inFlight hq.written hback fun _ _ _ => rfl
      · refine tracked_of_taken hw ht.found ht.inFlight ht.written hlog fun _ _ _ => ?_
        rw [hcmd]
        rfl
  | _ => exact hw.of_eq (exec_written rfl h) (exec_inFlight rfl h) (awaiting_exec rfl h)

theorem exec_acksMeet {a : Act} {r : a.Res} (hw : Tracked w) (hmeet : AcksMeet (history w.log))
    (hrace : raceFree w a inp = true) (h : exec cfg id tid w a inp = some (w', r)) :
    AcksMeet (history w'.log) := by
  have hlog := exec_history h
  cases a with
  | ackInFlight seq =>
      simp only [raceFree, decide_eq_true_eq] at hrace
      have hentry : ∀ t, awaiting t seq (history w.log) = true →
          ∃ entry, w.inFlight seq = some entry ∧ entry.command.ticket = t := by
        intro t ht
        rcases hw t seq ht with hframe | hentry
        · rw [hframe] at hrace
          exact absurd rfl hrace.2
        · exact hentry
      rw [hlog]
      rcases exec_ackInFlight h with ⟨rfl, -, hnone⟩ | ⟨entry, rfl, ht⟩
      · refine ⟨fun t => ?_, hmeet⟩
        by_contra hawait
        obtain ⟨entry, hsome, -⟩ := hentry t (Bool.not_eq_false _ ▸ hawait)
        rw [hnone hrace.1] at hsome
        cases hsome
      · refine ⟨fun t hawait => ?_, hmeet⟩
        obtain ⟨entry', hsome, hticket⟩ := hentry t hawait
        rw [ht.found] at hsome
        cases hsome
        exact hticket.symm
  | transmit | visitInFlight =>
      rw [hlog]
      cases r <;> exact hmeet
  | _ => exact acksMeet_exec rfl h hmeet

end exec

/-! ## Runs -/

/-- Whatever has been taken out for good stays reported or to be reported. -/
theorem Moved.reported {a : Act} {w w' : World} {t : ℕ} (h : Moved a w w' t) :
    census w t .owed + census w t .finished ≤ census w' t .owed + census w' t .finished := by
  cases h with
  | shift p p' k h htickets =>
      obtain ⟨hroute, hsource, htarget, hrest⟩ := h
      have howed := hrest .owed
      have hfinished := hrest .finished
      cases p <;> cases p' <;>
        simp only [Place.leadsTo, ne_eq, reduceCtorEq, not_true_eq_false, not_false_eq_true,
          forall_const, IsEmpty.forall_iff] at hroute howed hfinished <;> omega
  | pushed hqueue hrest htickets =>
      rw [hrest .owed (by decide), hrest .finished (by decide)]
  | overwrote seq cmd sentAt k ha hseq hhands hinFlight hrest htickets =>
      rw [hrest .owed (by decide) (by decide), hrest .finished (by decide) (by decide)]

section runs

variable {cfg : Config} {id : String} {c : Concurrent.Config (machine cfg id)}

/-- The discipline of custody on runs without the race. -/
def raceFreeLedger (cfg : Config) (id : String) :
    Discipline (machine cfg id) (raceFreeRules cfg id) {} Custody :=
  ledger cfg id True (raceFreeRules cfg id) fun _ _ _ _ _ h => h.1

theorem acksMeet_of_reachable (h : Reachable (raceFreeRules cfg id) {} c) :
    AcksMeet (history c.world.log) := by
  refine ((raceFreeLedger cfg id).invariant
    (J := fun w => Tracked w ∧ AcksMeet (history w.log)) ?_ ?_ ?_ h).2
  · exact ⟨fun _ _ h => (by cases h), trivial⟩
  · intro c c' tid a inp r v s hw
    have hexec : exec cfg id tid c.world a inp = some (c'.world, r) := s.exec
    exact ⟨exec_tracked hw.1 s.knows s.may s.rule.2.1 hexec,
      exec_acksMeet hw.1 hw.2 s.rule.2.2 hexec⟩
  · exact fun _ hcrash => hcrash.elim

theorem emitted_acked {tid t : ℕ} {w : World} {a : Act} {r : a.Res} {seq : UInt8}
    (h : emitted tid w a r = some (.acked t seq)) : a = .ackInFlight seq := by
  cases emits_of_emitted h
  rfl

/-- A command that was acknowledged is reported or about to be. -/
theorem acked_reported (h : Reachable (accountingRules cfg id) {} c) {t : ℕ} {seq : UInt8}
    (ht : .acked t seq ∈ c.world.log) :
    0 < census c.world t .owed + census c.world t .finished := by
  refine (strictLedger cfg id).invariant (J := fun w => ∀ t seq, .acked t seq ∈ w.log →
    0 < census w t .owed + census w t .finished) (by simp) ?_ ?_ h t seq ht
  · intro c c' tid a inp r v s hw t seq ht
    have hexec : exec cfg id tid c.world a inp = some (c'.world, r) := s.exec
    have hmoved := exec_moved t s.knows s.may s.rule.1 hexec
    rcases mem_log_cases rfl hexec ht with he | hold
    · obtain rfl := emitted_acked he
      rcases exec_ackInFlight hexec with ⟨rfl, -, -⟩ | ⟨entry, rfl, hout⟩
      · cases he
      · cases he
        have howed : 0 < census c'.world entry.command.ticket .owed := by
          simp [census, hout.owed, Command.hand]
        omega
    · exact (hw t seq hold).trans_le hmoved.reported
  · exact fun _ hcrash => hcrash.elim

/-- Unless an acknowledgement is handled between the write of its frame and
`RegisterInFlight`, it finds its command. The command then gets one terminal event, which
the handler that took it out still has to publish or has published. -/
theorem acks_meet_commands (h : Reachable (raceFreeRules cfg id) {} c) :
    AcksMeet (history c.world.log) ∧
      ∀ t seq, .acked t seq ∈ c.world.log →
        census c.world t .finished = 1 ∨
          (census c.world t .finished = 0 ∧
            ∃ tid hd, (tid, hd) ∈ c.world.owed ∧ hd.1 = t ∧ Running c tid) := by
  refine ⟨acksMeet_of_reachable h, ?_⟩
  intro t seq ht
  have hacc := accounting_of_raceFree h
  have hreported := acked_reported hacc ht
  have htotal := balanced_of_reachable hacc t
  have hle : total (census c.world t) ≤ 1 := by
    rw [htotal]
    split <;> omega
  unfold total at hle
  by_cases howed : census c.world t .owed = 0
  · left
    omega
  · right
    obtain ⟨tid, hd, hmem, hticket⟩ := exists_owed howed
    exact ⟨by omega, tid, hd, hmem, hticket, running_of_owed hacc hmem⟩

end runs

/-- The sweeper has written the frame of a command and has still to register it when the
terminal acknowledgement is handled. -/
def racedLabels : List (Label (machine {} "c")) :=
  connect ++ call 0 (.enqueue { commandID := 9 } 0) 20 ++ call 1 .flush 11 ++
    call 0 (.ack11 ⟨255, 1, [11, 1, 0, 0, 0, 0, 0, 100, 0], .sequenced⟩) 2

theorem not_acksMeet {t : ℕ} {seq : UInt8} {log : List Event}
    (hmissed : log.head? = some (.missed seq)) (hawait : awaiting t seq log.tail = true) :
    ¬AcksMeet log := by
  intro h
  cases log with
  | nil => cases hmissed
  | cons e log =>
      cases hmissed
      rw [List.tail_cons, h.1 t] at hawait
      cases hawait

/-- The acknowledgement is lost: it finds nothing, although its command awaits it. -/
theorem raced_ack_lost :
    ∃ c, Reachable (savingRules {} "c") {} c ∧ (history c.world.log).head? = some (.missed 1) ∧
      awaiting 0 1 (history c.world.log).tail = true ∧ ¬AcksMeet (history c.world.log) := by
  have hraced : ∃ c, Reachable (savingRules {} "c") {} c ∧
      (history c.world.log).head? = some (.missed 1) ∧
      awaiting 0 1 (history c.world.log).tail = true :=
    ⟨_, Reachable.initial.run racedLabels, by decide +kernel, by decide +kernel⟩
  obtain ⟨c, hc, hmissed, hawait⟩ := hraced
  exact ⟨c, hc, hmissed, hawait, not_acksMeet hmissed hawait⟩

theorem acked_command_met :
    ∃ c, Reachable (raceFreeRules {} "c") {} c ∧ .acked 0 1 ∈ c.world.log ∧
      AcksMeet (history c.world.log) := by
  have hacked : ∃ c, Reachable (raceFreeRules {} "c") {} c ∧ .acked 0 1 ∈ c.world.log :=
    ⟨_, Reachable.initial.run ackedLabels, by decide +kernel⟩
  obtain ⟨c, hc, ht⟩ := hacked
  exact ⟨c, hc, ht, (acks_meet_commands hc).1⟩

end TcpAdapter.Delivery
