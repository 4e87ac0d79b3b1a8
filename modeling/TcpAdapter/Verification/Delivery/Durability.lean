import TcpAdapter.Verification.Delivery.Conservation

/-! # What a crash would find

The row in the store is the session as it was at the last save. An accepted command that
is still to be reported is in it exactly if nobody had the command in hands at that save. -/

namespace TcpAdapter.Manager

/-- The command is in the `Pending` or the `InFlight` list. -/
def SessionSnapshot.Contains (snap : SessionSnapshot) (t : ℕ) : Prop :=
  (∃ cmd ∈ snap.pending, cmd.ticket = t) ∨ ∃ v ∈ snap.inFlight, v.command.ticket = t

instance (snap : SessionSnapshot) (t : ℕ) : Decidable (snap.Contains t) :=
  inferInstanceAs (Decidable (_ ∨ _))

def SessionSnapshot.count (snap : SessionSnapshot) (t : ℕ) : ℕ :=
  (snap.pending.countP fun cmd => cmd.ticket == t) +
    snap.inFlight.countP fun v => v.command.ticket == t

theorem SessionSnapshot.contains_iff {snap : SessionSnapshot} {t : ℕ} :
    snap.Contains t ↔ 0 < snap.count t := by
  simp only [Contains, count, Nat.add_pos_iff_pos_or_pos, List.countP_pos_iff, beq_iff_eq]

end TcpAdapter.Manager

namespace TcpAdapter.Delivery

open TcpAdapter.Concurrent TcpAdapter.Queue TcpAdapter.Protocol TcpAdapter.Manager
open TcpAdapter.Policy

/-! ## What an action does to the store -/

section exec

variable {cfg : Config} {id : String} {tid : ℕ} {w w' : World} {inp : Input}

theorem stored_register {seq : UInt8} {cmd : Command} {sentAt : Time} {r : Option Error}
    (h : exec cfg id tid w (.registerInFlight seq cmd sentAt) inp = some (w', r)) :
    w.Stored w' := by
  cases hs : w.session with
  | none =>
      have heq := guarded_eq_some h
      simp only [execRegister, hs] at heq
      cases heq
      exact .same rfl rfl
  | some s =>
      have hsession : w.session.isSome := by rw [hs]; rfl
      obtain ⟨-, -, -, -, -, -, -, -, -, -, hstored, -⟩ := exec_registerInFlight hsession h
      exact hstored

/-- Every action leaves the row alone or saves the session as it then is. -/
theorem exec_stored {a : Act} {r : a.Res} (hsave : inp.saveErr = none)
    (h : exec cfg id tid w a inp = some (w', r)) : w.Stored w' := by
  cases a with
  | now | write | publishAck | lockManager | unlockManager | queueLen | queueBytes | hasFW
  | hasSync | create | markOffline | touch | updateBufferFree | setFrameMode | inFlightCount
  | peekInFlight | findSession | dedupTime | setDedup | inFlightOrder | spin
  | deliveryContext | ensureSession | ackSent => exact (exec_quiet rfl h).stored
  | setFWMode enabled => exact (exec_setFWMode h).1.stored
  | setSyncMode enabled => exact (exec_setSyncMode h).1.stored
  | nextCommandSeq => exact (exec_nextCommandSeq h).1.stored
  | drainExpired | pushNew =>
      cases h
      exact .same rfl rfl
  | unlockFlush | push =>
      cases h
      exact .noted rfl rfl rfl
  | lockFlush =>
      simp only [exec] at h
      split at h
      · cases h
        exact .noted rfl rfl rfl
      · cases h
  | transmit =>
      simp only [exec, execTransmit] at h
      split at h
      · cases h
        exact .same rfl rfl
      · cases h
        exact .noted rfl rfl rfl
  | popNext =>
      simp only [exec, execPop] at h
      split at h <;> cases h <;> exact .same rfl rfl
  | dropOldest =>
      simp only [exec, execDropOldest] at h
      split at h
      · cases h
        exact .same rfl rfl
      · cases h
        exact .noted rfl rfl rfl
  | publishAckWithCommand event cmd =>
      cases h
      unfold execPublish
      dsimp only
      split
      · exact .noted (by rw [settle_slot]; rfl) (by rw [settle_log]; rfl) rfl
      · exact .noted rfl rfl rfl
  | registerInFlight => exact stored_register h
  | ackInFlight seq =>
      rcases exec_ackInFlight h with ⟨-, hquiet, -⟩ | ⟨entry, -, ht⟩
      · exact hquiet.stored
      · exact ht.stored
  | visitInFlight seq now =>
      rcases exec_visitInFlight h with ⟨-, rfl⟩ | ⟨entry, out, -, ⟨-, hq⟩ | ⟨-, -, ht⟩⟩
      · exact .same rfl rfl
      · exact .noted hq.saved hq.log rfl
      · exact ht.stored
  | persist =>
      obtain ⟨hok, ⟨-, hquiet⟩ | ⟨hr, -⟩⟩ := exec_persist h
      · exact hquiet.stored
      · exact absurd (hok hsave) hr
  | persistEnqueued ticket =>
      obtain ⟨w₁, hquiet, ⟨-, rfl⟩ | ⟨-, rfl⟩⟩ := exec_persistEnqueued h
      · rcases hquiet.stored with ⟨hsaved, es, hes, hnone⟩ | hnow
        · exact .inl ⟨hsaved, .accepted ticket :: es, congrArg _ hes,
            by simpa [Event.isSave] using hnone⟩
        · exact .inr hnow
      · exact hquiet.stored

theorem persistEnqueued_savedNow {ticket : ℕ} {r : Option Error} (hsession : w.session.isSome)
    (hsave : inp.saveErr = none)
    (h : exec cfg id tid w (.persistEnqueued ticket) inp = some (w', r)) : w'.SavedNow := by
  obtain ⟨s, hs⟩ := Option.isSome_iff_exists.mp hsession
  have hslot : w.slot.session = some s := hs
  have heq := Option.some.inj h
  simp only [execEnqueued, method, Slot.ackSent, hslot, hsave, Slot.persistLocked] at heq
  cases heq
  have hnow : (w.commit ⟨some s, some s.snapshot, w.slot.saves + 1⟩).SavedNow :=
    World.commit_savedNow rfl rfl rfl
  exact hnow

end exec

/-! ## What the row contains -/

/-- The command has neither been evicted nor reported. -/
def Unsettled (t : ℕ) (log : List Event) : Prop :=
  ∀ e ∈ log, evictionOf t e = false ∧ terminalFor t e = false

instance (t : ℕ) (log : List Event) : Decidable (Unsettled t log) :=
  inferInstanceAs (Decidable (∀ e ∈ log, _))

theorem Unsettled.of_exec {cfg : Config} {id : String} {tid t : ℕ} {w w' : World} {inp : Input}
    {a : Act} {r : a.Res} (h : exec cfg id tid w a inp = some (w', r))
    (hw' : Unsettled t w'.log) : Unsettled t w.log := by
  intro e he
  cases hsave : e.isSave with
  | false => exact hw' e (mem_log_mono hsave h he)
  | true => cases e <;> first | exact ⟨rfl, rfl⟩ | cases hsave

theorem held_count (w : World) (t : ℕ) :
    w.held.count t = census w t .hands + census w t .owed := by
  simp only [World.held, Multiset.count_add, Multiset.count_map, census,
    Multiset.countP_eq_card_filter, eq_comm]

theorem SessionSnapshot.count_eq {w : World} {snap : SessionSnapshot} (t : ℕ)
    (hpending : snap.pending = w.queue.snapshot)
    (hinFlight : snap.inFlight.map (·.command) = w.inFlight.entries.map (·.command)) :
    snap.count t = census w t .queue + census w t .inFlight := by
  have hcount := congrArg (List.countP fun cmd : Command => cmd.ticket == t) hinFlight
  simp only [List.countP_map] at hcount
  simp only [SessionSnapshot.count, census, hpending]
  exact congrArg _ hcount

/-- A command that is still to be reported is in the row or was in somebody's hands at the
last save. -/
structure Durable (t : ℕ) (w : World) : Prop where
  known : .accepted t ∈ w.log → ∃ held n, lastSave w.log = some (held, n) ∧ t < n
  kept : ∀ held n, lastSave w.log = some (held, n) → t < n → Unsettled t w.log →
    ∃ snap, w.slot.saved = some snap ∧ snap.count t + held.count t = 1

theorem World.SavedNow.durable {w : World} {t : ℕ} (h : w.SavedNow) (hbalanced : Balanced w)
    (hknown : AcceptedKnown w) : Durable t w := by
  obtain ⟨snap, hsnap, hpending, hinFlight, hlast⟩ := h
  refine ⟨fun ht => ⟨_, _, hlast, hknown t ht⟩, ?_⟩
  intro held n hlast' htickets hopen
  rw [hlast] at hlast'
  cases hlast'
  refine ⟨snap, hsnap, ?_⟩
  have hevicted : census w t .evicted = 0 := by
    simp only [census, List.countP_eq_zero]
    exact fun e he => by simp [(hopen e he).1]
  have hfinished : census w t .finished = 0 := by
    simp only [census, List.countP_eq_zero]
    exact fun e he => by simp [(hopen e he).2]
  have htotal := hbalanced t
  rw [if_pos htickets] at htotal
  rw [SessionSnapshot.count_eq t hpending hinFlight, held_count]
  unfold total at htotal
  omega

section runs

variable {cfg : Config} {id : String} {c : Concurrent.Config (machine cfg id)}

/-- The discipline of custody on runs in which every save succeeds. -/
def savingLedger (cfg : Config) (id : String) :
    Discipline (machine cfg id) (savingRules cfg id) {} Custody :=
  ledger cfg id True (savingRules cfg id) fun _ _ _ _ _ h => .of_none h.1

theorem durable_of_reachable (t : ℕ) (h : Reachable (savingRules cfg id) {} c) :
    Durable t c.world := by
  refine (savingLedger cfg id).invariant (J := Durable t) ?_ ?_ ?_ h
  · exact ⟨by simp, by simp [lastSave]⟩
  · intro c c' tid a inp r v s hw
    have hexec : exec cfg id tid c.world a inp = some (c'.world, r) := s.exec
    have hknown := acceptedKnown_of_reachable (accounting_of_saving s.after)
    have hbalanced := balanced_of_reachable (accounting_of_saving s.after)
    rcases exec_stored s.rule.1 hexec with ⟨hsaved, es, hes, hnone⟩ | hnow
    · have hlast : lastSave c'.world.log = lastSave c.world.log := by
        rw [hes, lastSave_append hnone]
      refine ⟨fun ht => ?_, fun held n hsave htickets hopen => ?_⟩
      · rcases mem_log_cases rfl hexec ht with he | hold
        · obtain rfl := emitted_accepted he
          have hsession := s.knows.session s.may.2
          have hnow := persistEnqueued_savedNow hsession s.rule.1 hexec
          exact (hnow.durable hbalanced hknown).known ht
        · rw [hlast]
          exact hw.known hold
      · rw [hlast] at hsave
        rw [hsaved]
        exact hw.kept held n hsave htickets (hopen.of_exec hexec)
    · exact hnow.durable hbalanced hknown
  · exact fun _ hcrash => hcrash.elim

/-- At any point of a run in which every save succeeds, an accepted command that is still to
be reported is in the row that a restart would read, exactly if no call had it in its hands
at the last save. -/
theorem accepted_stored_iff (h : Reachable (savingRules cfg id) {} c) {t : ℕ}
    (ht : .accepted t ∈ c.world.log) (hopen : Unsettled t c.world.log) :
    ∃ snap held n, c.world.slot.saved = some snap ∧
      lastSave c.world.log = some (held, n) ∧ (snap.Contains t ↔ t ∉ held) := by
  have hdurable := durable_of_reachable t h
  obtain ⟨held, n, hlast, htickets⟩ := hdurable.known ht
  obtain ⟨snap, hsnap, hcount⟩ := hdurable.kept held n hlast htickets hopen
  refine ⟨snap, held, n, hsnap, hlast, ?_⟩
  rw [SessionSnapshot.contains_iff, ← Multiset.count_eq_zero]
  omega

end runs

/-- A command is enqueued and a flush pops it; then `NextCommandSeq` saves the session. -/
def poppedLabels : List (Label (machine {} "c")) :=
  connect ++ call 0 (.enqueue { commandID := 9 } 0) 20 ++ call 0 .flush 10

theorem popped_unsettled :
    ∃ c, Reachable (savingRules {} "c") {} c ∧ .accepted 0 ∈ c.world.log ∧
      Unsettled 0 c.world.log :=
  ⟨_, Reachable.initial.run poppedLabels, by decide +kernel, by decide +kernel⟩

/-- A crash at that point loses the command. -/
theorem popped_not_stored :
    ∃ c, Reachable (savingRules {} "c") {} c ∧ .accepted 0 ∈ c.world.log ∧
      Unsettled 0 c.world.log ∧ c.world.slot.saved.isSome ∧
      ∀ snap ∈ c.world.slot.saved, ¬snap.Contains 0 :=
  ⟨_, Reachable.initial.run poppedLabels, by decide +kernel, by decide +kernel,
    by decide +kernel, by decide +kernel⟩

theorem popped_stored_iff :
    ∃ c, Reachable (savingRules {} "c") {} c ∧ .accepted 0 ∈ c.world.log ∧
      Unsettled 0 c.world.log ∧ ∃ snap held n, c.world.slot.saved = some snap ∧
        lastSave c.world.log = some (held, n) ∧ (snap.Contains 0 ↔ 0 ∉ held) := by
  obtain ⟨c, hc, ht, hopen⟩ := popped_unsettled
  exact ⟨c, hc, ht, hopen, accepted_stored_iff hc ht hopen⟩

end TcpAdapter.Delivery
