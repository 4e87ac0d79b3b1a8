import TcpAdapter.Verification.Delivery.Accounts
import TcpAdapter.Verification.Delivery.History

/-! # Conservation of commands

In a run without a restart, in which the saves that must not fail succeed and no command is
registered under a number in flight, every command is in one place at any time. -/

namespace TcpAdapter.Delivery

open TcpAdapter.Concurrent TcpAdapter.Queue TcpAdapter.Protocol TcpAdapter.Manager
open TcpAdapter.Policy

/-- The command is not registered under a number that is in flight. -/
def freshSeq (w : World) : Act → Bool
  | .registerInFlight seq _ _ => (w.inFlight seq).isNone
  | _ => true

/-- Runs without a restart in which the saves that must not fail succeed. -/
def accountingRules (cfg : Config) (id : String) : Rules (machine cfg id) where
  act w tid a inp := GoodSave w tid a inp ∧ freshSeq w a = true
  crash _ := False

/-- Runs without a restart in which every save succeeds. -/
abbrev savingRules (cfg : Config) (id : String) : Rules (machine cfg id) where
  act w _ a inp := inp.saveErr = none ∧ freshSeq w a = true
  crash _ := False

theorem GoodSave.of_none {w : World} {tid : ℕ} {a : Act} {inp : Input}
    (h : inp.saveErr = none) : GoodSave w tid a inp :=
  fun _ => h

theorem accounting_of_saving {cfg : Config} {id : String} {c : Concurrent.Config (machine cfg id)}
    (h : Reachable (savingRules cfg id) {} c) : Reachable (accountingRules cfg id) {} c := by
  refine h.mono ?_
  intro c l hl
  cases l with
  | start tid task => trivial
  | run tid inp => exact fun a k hk => ⟨.of_none (hl a k hk).1, (hl a k hk).2⟩
  | crash => exact hl

/-! ## The balance -/

/-- Each ticket that was given out is counted once, and no other. -/
def Balanced (w : World) : Prop :=
  ∀ t, total (census w t) = if t < w.tickets then 1 else 0

theorem Moved.balanced {a : Act} {w w' : World} {t : ℕ} (h : Moved a w w' t)
    (hfresh : freshSeq w a = true)
    (hw : total (census w t) = if t < w.tickets then 1 else 0) :
    total (census w' t) = if t < w'.tickets then 1 else 0 := by
  cases h with
  | shift p p' k h htickets => rw [h.total, htickets, hw]
  | pushed hqueue hrest htickets =>
      have htotal : total (census w' t) =
          total (census w t) + if t = w.tickets then 1 else 0 := by
        simp only [total, hqueue, hrest _ (show Place.hands ≠ .queue by decide),
          hrest _ (show Place.owed ≠ .queue by decide),
          hrest _ (show Place.inFlight ≠ .queue by decide),
          hrest _ (show Place.evicted ≠ .queue by decide),
          hrest _ (show Place.finished ≠ .queue by decide)]
        omega
      rw [htotal, hw, htickets]
      split <;> split <;> split <;> omega
  | overwrote seq cmd sentAt k ha hseq =>
      subst ha
      exact absurd (Option.isNone_iff_eq_none.mp hfresh) hseq

section runs

variable {cfg : Config} {id : String} {c : Concurrent.Config (machine cfg id)}

/-- The discipline of custody on runs that keep the account. -/
def strictLedger (cfg : Config) (id : String) :
    Discipline (machine cfg id) (accountingRules cfg id) {} Custody :=
  ledger cfg id True (accountingRules cfg id) fun _ _ _ _ _ h => h.1

theorem balanced_of_reachable (h : Reachable (accountingRules cfg id) {} c) :
    Balanced c.world := by
  refine (strictLedger cfg id).invariant (J := Balanced) ?_ ?_ ?_ h
  · intro t
    simp [total, census, Slot.queue, Slot.inFlight, ControllerQueue.snapshot, InFlight.entries]
  · intro c c' tid a inp r v s hw t
    exact (exec_moved t s.knows s.may s.rule.1 s.exec).balanced s.rule.2 (hw t)
  · exact fun _ hcrash => hcrash.elim

/-- An accepted command has a ticket. -/
def AcceptedKnown (w : World) : Prop :=
  ∀ t, .accepted t ∈ w.log → t < w.tickets

theorem Kept.acceptedKnown {strict : Prop} {tid : ℕ} {w w' : World} {v : Custody} {a : Act}
    {r : a.Res} {inp : Input} (hkept : Kept strict tid w w' v a r) (hknows : Knows tid w v)
    (hmay : v.May strict a) (h : exec cfg id tid w a inp = some (w', r))
    (hw : AcceptedKnown w) : AcceptedKnown w' := by
  intro t ht
  refine Nat.lt_of_lt_of_le ?_ hkept.frame.tickets
  rcases mem_log_cases rfl h ht with he | hold
  · obtain rfl := emitted_accepted he
    exact hknows.admitted t hmay.1
  · exact hw t hold

theorem acceptedKnown_of_reachable (h : Reachable (accountingRules cfg id) {} c) :
    AcceptedKnown c.world := by
  refine (strictLedger cfg id).invariant (J := AcceptedKnown) (by simp [AcceptedKnown]) ?_ ?_ h
  · intro c c' tid a inp r v s hw
    have hkept := exec_kept ((strictLedger cfg id).sound s.before).1 s.knows s.may
      (fun _ => s.rule.1) s.exec
    exact hkept.acceptedKnown s.knows s.may s.exec hw
  · exact fun _ hcrash => hcrash.elim

/-- An event that is published without its command is not terminal. -/
theorem unattributed_of_reachable {R : Rules (machine cfg id)}
    (hgood : ∀ w tid a inp, R.act w tid a inp → GoodSave w tid a inp) (h : Reachable R {} c)
    {event : AckEvent} (he : .published event none ∈ c.world.log) :
    isTerminalAckStatus event.status = false := by
  refine (ledger cfg id True R fun _ => hgood).invariant (J := fun w => ∀ event : AckEvent,
    .published event none ∈ w.log → isTerminalAckStatus event.status = false) (by simp) ?_ ?_ h
    event he
  · intro c c' tid a inp r v s hw event hevent
    rcases mem_log_cases rfl s.exec hevent with he | hold
    · obtain rfl := emitted_published_none he
      exact s.may
    · exact hw event hold
  · intro c _ _ hw event hevent
    exact hw event (List.mem_of_ne_of_mem (by simp) hevent)

/-! ## One place -/

/-- All there is of the command is one copy in one place. -/
def InOnePlace (w : World) (t : ℕ) : Prop :=
  ∃ p, ∀ q, census w t q = if q = p then 1 else 0

theorem inOnePlace_of_total {w : World} {t : ℕ} (h : total (census w t) = 1) :
    InOnePlace w t := by
  unfold total at h
  have hsome : ∃ p, census w t p ≠ 0 := by
    by_contra hnone
    simp only [not_exists, not_not] at hnone
    simp [hnone] at h
  obtain ⟨p, hp⟩ := hsome
  refine ⟨p, fun q => ?_⟩
  cases p <;> cases q <;> simp only [reduceCtorEq, if_true, if_false] <;> omega

/-- The thread has not finished its task. -/
def Running (c : Concurrent.Config (machine cfg id)) (tid : ℕ) : Prop :=
  ∀ x, c.threads tid ≠ .ret x

/-- Commands are in somebody's hands only while a call is running. -/
theorem running_of_hands (h : Reachable (accountingRules cfg id) {} c)
    (hhands : c.world.hands ≠ 0) : ∃ tid, c.world.flushMu = some tid ∧ Running c tid := by
  obtain ⟨hfree, hthreads⟩ := (strictLedger cfg id).sound h
  obtain ⟨tid, hmu⟩ := Option.ne_none_iff_exists'.mp fun hmu => hhands (hfree.hands hmu)
  refine ⟨tid, hmu, fun x hx => ?_⟩
  obtain ⟨v, hknows, hr⟩ := hthreads tid
  rw [hx] at hr
  have hidle : v.Idle := hr
  have hv := hknows.flushing.mpr hmu
  rw [hidle.flushing] at hv
  cases hv

theorem running_of_owed (h : Reachable (accountingRules cfg id) {} c) {tid : ℕ} {hd : Hand}
    (howed : (tid, hd) ∈ c.world.owed) : Running c tid := by
  intro x hx
  obtain ⟨v, hknows, hr⟩ := ((strictLedger cfg id).sound h).2 tid
  rw [hx] at hr
  have hidle : v.Idle := hr
  have hv := (mem_owed_iff hknows hd).mp howed
  rw [hidle.owed] at hv
  cases hv

theorem inOnePlace_of_accepted (h : Reachable (accountingRules cfg id) {} c) {t : ℕ}
    (ht : .accepted t ∈ c.world.log) : InOnePlace c.world t := by
  apply inOnePlace_of_total
  rw [balanced_of_reachable h t, if_pos (acceptedKnown_of_reachable h t ht)]

theorem hands_ne_zero {w : World} {t : ℕ} (h : census w t .hands ≠ 0) : w.hands ≠ 0 := by
  intro hzero
  simp [census, hzero] at h

theorem exists_owed {w : World} {t : ℕ} (h : census w t .owed ≠ 0) :
    ∃ tid hd, (tid, hd) ∈ w.owed ∧ hd.1 = t := by
  obtain ⟨o, ho, ht⟩ := Multiset.countP_pos.mp (Nat.pos_of_ne_zero h)
  exact ⟨o.1, o.2, ho, ht⟩

/-- Every accepted command is in one place at any time: in a buffer, in the hands of the
running flush, in the in-flight table, evicted, finished by its one terminal event, or taken
out by a running call that has yet to publish that event. -/
theorem accepted_in_one_place (h : Reachable (savingRules cfg id) {} c) {t : ℕ}
    (ht : .accepted t ∈ c.world.log) :
    InOnePlace c.world t ∧
      (census c.world t .hands ≠ 0 → ∃ tid, c.world.flushMu = some tid ∧ Running c tid) ∧
      (census c.world t .owed ≠ 0 →
        ∃ tid hd, (tid, hd) ∈ c.world.owed ∧ hd.1 = t ∧ Running c tid) ∧
      ∀ event : AckEvent, .published event none ∈ c.world.log →
        isTerminalAckStatus event.status = false := by
  have hacc := accounting_of_saving h
  have hgood : ∀ w tid a inp, (savingRules cfg id).act w tid a inp → GoodSave w tid a inp :=
    fun _ _ _ _ hr => .of_none hr.1
  refine ⟨inOnePlace_of_accepted hacc ht, ?_, ?_, fun _ => unattributed_of_reachable hgood h⟩
  · exact fun hhands => running_of_hands hacc (hands_ne_zero hhands)
  · intro howed
    obtain ⟨tid, hd, hmem, hticket⟩ := exists_owed howed
    exact ⟨tid, hd, hmem, hticket, running_of_owed hacc hmem⟩

end runs

/-- A controller connects; a command is enqueued and sent; then the terminal acknowledgement
comes in, and the handler has just taken the command out of the in-flight table. -/
def ackedLabels : List (Label (machine {} "c")) :=
  connect ++ call 0 (.enqueue { commandID := 9 } 0) 20 ++ call 0 .flush 40 ++
    call 0 (.ack11 ⟨255, 1, [11, 1, 0, 0, 0, 0, 0, 100, 0], .sequenced⟩) 2

theorem acked_accepted :
    ∃ c, Reachable (savingRules {} "c") {} c ∧ .accepted 0 ∈ c.world.log :=
  ⟨_, Reachable.initial.run ackedLabels, by decide +kernel⟩

/-- At that moment it is in no buffer, in no flush's hands, not in flight, not evicted, and no
terminal event has been published. -/
theorem acked_between_places :
    ∃ c, Reachable (savingRules {} "c") {} c ∧ .accepted 0 ∈ c.world.log ∧
      ∀ p ∈ [Place.queue, .hands, .inFlight, .evicted, .finished], census c.world 0 p = 0 :=
  ⟨_, Reachable.initial.run ackedLabels, by decide +kernel, by decide +kernel⟩

theorem acked_in_one_place :
    ∃ c, Reachable (savingRules {} "c") {} c ∧ .accepted 0 ∈ c.world.log ∧ InOnePlace c.world 0 := by
  obtain ⟨c, hc, ht⟩ := acked_accepted
  exact ⟨c, hc, ht, (accepted_in_one_place hc ht).1⟩

section runs

variable {cfg : Config} {id : String} {c : Concurrent.Config (machine cfg id)}

/-- The same when saves fail, except those that must not: once all calls have returned the
command is in the queue, in flight, evicted, or finished. -/
theorem accepted_accounted (h : Reachable (accountingRules cfg id) {} c) {t : ℕ}
    (ht : .accepted t ∈ c.world.log) :
    InOnePlace c.world t ∧
      ((∀ tid, ¬Running c tid) →
        census c.world t .hands = 0 ∧ census c.world t .owed = 0) := by
  refine ⟨inOnePlace_of_accepted h ht, fun hidle => ⟨?_, ?_⟩⟩
  · by_contra hhands
    obtain ⟨tid, -, hrunning⟩ := running_of_hands h (hands_ne_zero hhands)
    exact hidle tid hrunning
  · by_contra howed
    obtain ⟨tid, hd, hmem, -⟩ := exists_owed howed
    exact hidle tid (running_of_owed h hmem)

end runs

theorem sent_accounted :
    ∃ c, Reachable (accountingRules {} "c") {} c ∧ .accepted 0 ∈ c.world.log ∧
      InOnePlace c.world 0 := by
  obtain ⟨c, hc, ht⟩ := acked_accepted
  exact ⟨c, accounting_of_saving hc, ht, (accepted_accounted (accounting_of_saving hc) ht).1⟩

/-- Runs without a restart, whatever the saves do. -/
abbrev storeRules (cfg : Config) (id : String) : Rules (machine cfg id) where
  crash _ := False

/-- The save of `RegisterInFlight` fails: twelve actions of the flush lead up to it. -/
def unregisteredLabels : List (Label (machine {} "c")) :=
  connect ++ call 0 (.enqueue { commandID := 9 } 0) 20 ++ call 0 .flush 12 ++
    go 0 20 { saveErr := some (.text "disk full") }

/-- The command expires while it waits for its acknowledgement, and the save that ends
`ProcessInFlight` fails. -/
def unreportedLabels : List (Label (machine {} "c")) :=
  connect { time := 1 } ++
    call 0 (.enqueue { commandID := 9, ttl := second } 0) 20 { time := 1 } ++
    call 0 .flush 40 { time := 1 } ++ call 0 .process 1 { time := 60 * second } ++
    go 0 20 { saveErr := some (.text "disk full"), order := [1] }

/-- A failed save leaves a command reported as failed in flight, or loses it. -/
theorem failed_save_breaks_account :
    (∃ c, Reachable (storeRules {} "c") {} c ∧ .accepted 0 ∈ c.world.log ∧
      census c.world 0 .finished = 1 ∧ census c.world 0 .inFlight = 1) ∧
    ∃ c, Reachable (storeRules {} "c") {} c ∧ .accepted 0 ∈ c.world.log ∧
      ∀ p, census c.world 0 p = 0 := by
  refine ⟨⟨_, Reachable.initial.run unregisteredLabels, ?_⟩,
    ⟨_, Reachable.initial.run unreportedLabels, ?_⟩⟩
  · decide +kernel
  · refine ⟨by decide +kernel, fun p => ?_⟩
    cases p <;> decide +kernel

end TcpAdapter.Delivery
