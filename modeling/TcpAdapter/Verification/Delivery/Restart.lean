import TcpAdapter.Verification.Delivery.Durability

/-! # Restarts

A restart reads the last row back. It may bring a command back that was reported since the
last save. If it does not happen at such a moment, no command is reported twice, and none
is transmitted after its report. -/

namespace TcpAdapter.Delivery

open TcpAdapter.Concurrent TcpAdapter.Queue TcpAdapter.Protocol TcpAdapter.Manager
open TcpAdapter.Policy

/-- The commands that got a terminal event since the last save. -/
def reportedSince : List Event → List ℕ
  | [] => []
  | .saved _ _ :: _ => []
  | .published event (some t) :: log =>
      if isTerminalAckStatus event.status then t :: reportedSince log else reportedSince log
  | _ :: log => reportedSince log

/-- Every command that was reported since the last save had been taken out before it. -/
def reportsSaved (w : World) : Bool :=
  match lastSave w.log with
  | none => true
  | some (held, _) => (reportedSince w.log).all fun t => t ∈ held

/-- Runs in which every save succeeds and a restart finds every report saved. -/
abbrev restartRules (cfg : Config) (id : String) : Rules (machine cfg id) where
  act _ _ _ inp := inp.saveErr = none
  crash w := reportsSaved w = true

theorem mem_reportedSince {t : ℕ} {es log : List Event} (hnone : ∀ e ∈ es, e.isSave = false)
    (h : (∃ e ∈ es, terminalFor t e = true) ∨ t ∈ reportedSince log) :
    t ∈ reportedSince (es ++ log) := by
  induction es with
  | nil => simpa using h
  | cons e es ih =>
      have hsave := hnone e List.mem_cons_self
      have hrest : ∀ e ∈ es, e.isSave = false := fun e he => hnone e (List.mem_cons_of_mem _ he)
      have hcases : terminalFor t e = true ∨ t ∈ reportedSince (es ++ log) := by
        rcases h with ⟨e', he', ht⟩ | hlog
        · rcases List.mem_cons.mp he' with rfl | he'
          · exact .inl ht
          · exact .inr (ih hrest (.inl ⟨e', he', ht⟩))
        · exact .inr (ih hrest (.inr hlog))
      cases e with
      | saved held tickets => cases hsave
      | published event ticket =>
          cases ticket with
          | none => simpa [reportedSince, terminalFor] using hcases
          | some t' =>
              simp only [terminalFor, Bool.and_eq_true, beq_iff_eq] at hcases
              simp only [List.cons_append, reportedSince]
              split
              · rcases hcases with ⟨-, rfl⟩ | hmem
                · exact List.mem_cons_self
                · exact List.mem_cons_of_mem _ hmem
              · rename_i hterminal
                exact hcases.resolve_left fun h => hterminal h.1
      | _ => simpa [reportedSince, terminalFor] using hcases

/-! ## At most one copy -/

/-- The copies of a command that are still to be reported, and its reports. -/
def live (c : Place → ℕ) : ℕ :=
  c .queue + c .hands + c .owed + c .inFlight + c .finished

def AtMostOnce (w : World) : Prop :=
  ∀ t, live (census w t) ≤ if t < w.tickets then 1 else 0

theorem Shift.live {c c' : Place → ℕ} {p p' : Place} {k : ℕ} (h : Shift c c' p p' k) :
    live c' ≤ live c := by
  have htotal := h.total
  have hevicted : c .evicted ≤ c' .evicted := by
    obtain ⟨hroute, hsource, htarget, hrest⟩ := h
    have hrest := hrest .evicted
    cases p <;> cases p' <;>
      simp only [Place.leadsTo, ne_eq, reduceCtorEq, not_true_eq_false, not_false_eq_true,
        forall_const, IsEmpty.forall_iff] at hroute hrest <;> omega
  simp only [Delivery.total] at htotal
  simp only [Delivery.live]
  omega

theorem Moved.atMostOnce {a : Act} {w w' : World} {t : ℕ} (h : Moved a w w' t)
    (hw : live (census w t) ≤ if t < w.tickets then 1 else 0) :
    live (census w' t) ≤ if t < w'.tickets then 1 else 0 := by
  cases h with
  | shift p p' k h htickets =>
      rw [htickets]
      exact h.live.trans hw
  | pushed hqueue hrest htickets =>
      have hlive : live (census w' t) = live (census w t) + if t = w.tickets then 1 else 0 := by
        simp only [live, hqueue, hrest _ (show Place.hands ≠ .queue by decide),
          hrest _ (show Place.owed ≠ .queue by decide),
          hrest _ (show Place.inFlight ≠ .queue by decide),
          hrest _ (show Place.finished ≠ .queue by decide)]
        omega
      rw [hlive, htickets]
      split at hw <;> split <;> split <;> omega
  | overwrote seq cmd sentAt k ha hseq hhands hinFlight hrest htickets =>
      rw [htickets]
      refine le_trans ?_ hw
      simp only [live, hhands, hrest _ (show Place.queue ≠ .hands by decide) (by decide),
        hrest _ (show Place.owed ≠ .hands by decide) (by decide),
        hrest _ (show Place.finished ≠ .hands by decide) (by decide)]
      omega

/-! ## The row and the reports -/

/-- What the row holds is single, was in nobody's hands, and was not reported before it was
saved. -/
def RowFresh (w : World) : Prop :=
  ∀ snap, w.slot.saved = some snap → ∃ held n, lastSave w.log = some (held, n) ∧
    ∀ t, 0 < snap.count t → snap.count t = 1 ∧ t < w.tickets ∧ t ∉ held ∧
      (0 < census w t .finished → t ∈ reportedSince w.log)

theorem World.SavedNow.rowFresh {w : World} (h : w.SavedNow) (hlive : AtMostOnce w) :
    RowFresh w := by
  intro snap hsnap
  obtain ⟨snap', hsnap', hpending, hinFlight, hlast⟩ := h
  rw [hsnap] at hsnap'
  cases hsnap'
  refine ⟨_, _, hlast, ?_⟩
  intro t ht
  have hcount := SessionSnapshot.count_eq t hpending hinFlight
  have hheld := held_count w t
  have hle := hlive t
  have hknown : t < w.tickets := by
    by_contra hge
    rw [if_neg hge] at hle
    unfold live at hle
    omega
  rw [if_pos hknown] at hle
  unfold live at hle
  refine ⟨by omega, hknown, ?_, by omega⟩
  rw [← Multiset.count_eq_zero]
  omega

theorem census_finished_append {t : ℕ} {w w' : World} {es : List Event}
    (hes : w'.log = es ++ w.log) (h : 0 < census w' t .finished) :
    (∃ e ∈ es, terminalFor t e = true) ∨ 0 < census w t .finished := by
  simp only [census, hes, List.countP_append] at h ⊢
  by_cases hnew : 0 < es.countP (terminalFor t)
  · exact .inl (List.countP_pos_iff.mp hnew)
  · right
    omega

theorem RowFresh.of_noted {w w' : World} {es : List Event} (hw : RowFresh w)
    (hsaved : w'.slot.saved = w.slot.saved) (hes : w'.log = es ++ w.log)
    (hnone : ∀ e ∈ es, e.isSave = false) (htickets : w.tickets ≤ w'.tickets) : RowFresh w' := by
  intro snap hsnap
  rw [hsaved] at hsnap
  obtain ⟨held, n, hlast, hrow⟩ := hw snap hsnap
  refine ⟨held, n, by rw [hes, lastSave_append hnone, hlast], ?_⟩
  intro t ht
  obtain ⟨hone, hknown, hheld, hreported⟩ := hrow t ht
  refine ⟨hone, hknown.trans_le htickets, hheld, fun hfinished => ?_⟩
  rw [hes]
  exact mem_reportedSince hnone ((census_finished_append hes hfinished).imp_right hreported)

/-- What a restart brings back is what the row holds. -/
theorem restart_census (m : Slot) (t : ℕ) {snap : SessionSnapshot} (h : m.saved = some snap) :
    (m.restart.queue.snapshot.countP fun c => c.ticket == t) +
      (m.restart.inFlight.entries.countP fun e => e.command.ticket == t) ≤ snap.count t := by
  simp only [Slot.restart, h]
  split
  · simp [Slot.queue, Slot.inFlight, ControllerQueue.snapshot, InFlight.entries]
  · have hqueue := (ControllerQueue.restore_snapshot_perm snap.pending).countP_eq
      fun c => c.ticket == t
    have hinFlight := restoreInFlight_countP_le snap.inFlight fun c => c.ticket == t
    simp only [Slot.queue, Slot.inFlight, Option.map_some, Option.getD_some,
      SessionSnapshot.restore, SessionSnapshot.count]
    omega

theorem restart_saved (m : Slot) : m.restart.saved = m.saved := by
  unfold Slot.restart
  split
  · split <;> rfl
  · rfl

theorem mem_held_of_reported {w : World} {t n : ℕ} {held : Multiset ℕ}
    (hsafe : reportsSaved w = true) (hlast : lastSave w.log = some (held, n))
    (ht : t ∈ reportedSince w.log) : t ∈ held := by
  simp only [reportsSaved, hlast, List.all_eq_true, decide_eq_true_eq] at hsafe
  exact hsafe t ht

section crash

variable {cfg : Config} {id : String} {w : World}

theorem RowFresh.crash (hw : RowFresh w) : RowFresh ((machine cfg id).crash w) := by
  refine hw.of_noted (restart_saved w.slot) (show _ = [Event.restarted] ++ w.log from rfl) ?_ le_rfl
  simp [Event.isSave]

/-- A restart at a moment at which every report is saved brings back only commands that were
not reported. -/
theorem AtMostOnce.crash (hw : AtMostOnce w) (hrow : RowFresh w)
    (hsafe : reportsSaved w = true) : AtMostOnce ((machine cfg id).crash w) := by
  intro t
  have hfinished : census ((machine cfg id).crash w) t .finished = census w t .finished := rfl
  have hhands : census ((machine cfg id).crash w) t .hands = 0 := rfl
  have howed : census ((machine cfg id).crash w) t .owed = 0 := rfl
  have hold := hw t
  unfold live at hold ⊢
  rw [hfinished, hhands, howed]
  cases hsaved : w.slot.saved with
  | none =>
      have hqueue : census ((machine cfg id).crash w) t .queue = 0 := by
        simp [census, Slot.restart, hsaved, Slot.queue, ControllerQueue.snapshot]
      have hinFlight : census ((machine cfg id).crash w) t .inFlight = 0 := by
        simp [census, Slot.restart, hsaved, Slot.inFlight, InFlight.entries]
      rw [hqueue, hinFlight]
      change _ ≤ if t < w.tickets then 1 else 0
      omega
  | some snap =>
      have hback : census ((machine cfg id).crash w) t .queue +
          census ((machine cfg id).crash w) t .inFlight ≤ snap.count t :=
        restart_census w.slot t hsaved
      change _ ≤ if t < w.tickets then 1 else 0
      by_cases hcount : snap.count t = 0
      · omega
      · obtain ⟨held, n, hlast, hfresh⟩ := hrow snap hsaved
        obtain ⟨hone, hknown, hheld, hreported⟩ := hfresh t (Nat.pos_of_ne_zero hcount)
        have hopen : census w t .finished = 0 := by
          by_contra hpos
          exact hheld (mem_held_of_reported hsafe hlast (hreported (Nat.pos_of_ne_zero hpos)))
        rw [if_pos hknown]
        omega

end crash

/-! ## Runs -/

/-- No command is transmitted once it has been reported. -/
def SentBeforeReport : List Event → Prop
  | [] => True
  | .transmitted t _ _ _ _ _ :: log => log.countP (terminalFor t) = 0 ∧ SentBeforeReport log
  | _ :: log => SentBeforeReport log

theorem exec_sentBeforeReport {cfg : Config} {id : String} {tid : ℕ} {w w' : World}
    {v : Custody} {inp : Input} {a : Act} {r : a.Res} (hlive : AtMostOnce w)
    (hknows : Knows tid w v) (hmay : v.May True a)
    (h : exec cfg id tid w a inp = some (w', r)) (hw : SentBeforeReport (history w.log)) :
    SentBeforeReport (history w'.log) := by
  refine history_of_emits h hw fun e he => ?_
  cases he with
  | @transmit conn bytes cmd seq =>
      refine ⟨?_, hw⟩
      have hmem : cmd.hand ∈ w.hands := by
        rw [hknows.hands hmay.1]
        exact hmay.2.2.1
      have hhands : 0 < census w cmd.ticket .hands :=
        Multiset.countP_pos.mpr ⟨cmd.hand, hmem, rfl⟩
      have hle := hlive cmd.ticket
      have hfinished : w.log.countP (terminalFor cmd.ticket) = 0 := by
        simp only [live, census] at hle hhands
        split at hle <;> omega
      exact Nat.le_zero.mp (hfinished ▸ List.filter_sublist.countP_le)
  | _ => exact hw

section runs

variable {cfg : Config} {id : String} {c : Concurrent.Config (machine cfg id)}

theorem goodSave_of_restart (w : World) (tid : ℕ) (a : Act) (inp : Input)
    (h : (restartRules cfg id).act w tid a inp) : GoodSave w tid a inp :=
  .of_none h

theorem atMostOnce_of_reachable (h : Reachable (restartRules cfg id) {} c) :
    AtMostOnce c.world ∧ RowFresh c.world ∧ SentBeforeReport (history c.world.log) := by
  refine (ledger cfg id True (restartRules cfg id) fun _ => goodSave_of_restart).invariant
    (J := fun w => AtMostOnce w ∧ RowFresh w ∧ SentBeforeReport (history w.log)) ?_ ?_ ?_ h
  · refine ⟨fun t => ?_, fun snap hsnap => (by cases hsnap), trivial⟩
    simp [live, census, Slot.queue, Slot.inFlight, ControllerQueue.snapshot, InFlight.entries]
  · intro c c' tid a inp r v s hw
    have hexec : exec cfg id tid c.world a inp = some (c'.world, r) := s.exec
    have hgood : GoodSave c.world tid a inp := .of_none s.rule
    have hlive : AtMostOnce c'.world := fun t =>
      (exec_moved t s.knows s.may hgood hexec).atMostOnce (hw.1 t)
    refine ⟨hlive, ?_, exec_sentBeforeReport hw.1 s.knows s.may hexec hw.2.2⟩
    rcases exec_stored s.rule hexec with ⟨hsaved, es, hes, hnone⟩ | hnow
    · have hfree := ((ledger cfg id True (restartRules cfg id) fun _ =>
        goodSave_of_restart).sound s.before).1
      have hkept := exec_kept hfree s.knows s.may (fun _ => hgood) hexec
      exact hw.2.1.of_noted hsaved hes hnone hkept.frame.tickets
    · exact hnow.rowFresh hlive
  · intro c hc hsafe hw
    exact ⟨hw.1.crash hw.2.1 hsafe, hw.2.1.crash, hw.2.2⟩

/-- Across restarts that find every report saved, no command gets two terminal events, and
one that got its terminal event is neither brought back nor transmitted again. -/
theorem reported_once_across_restarts (h : Reachable (restartRules cfg id) {} c) :
    (∀ t, census c.world t .finished ≤ 1 ∧
      (census c.world t .finished = 1 →
        ∀ p ∈ [Place.queue, .hands, .owed, .inFlight], census c.world t p = 0)) ∧
      SentBeforeReport (history c.world.log) ∧
      ∀ event : AckEvent, .published event none ∈ c.world.log →
        isTerminalAckStatus event.status = false := by
  obtain ⟨hlive, -, hsent⟩ := atMostOnce_of_reachable h
  refine ⟨fun t => ?_, hsent, fun _ => unattributed_of_reachable goodSave_of_restart h⟩
  have hle : live (census c.world t) ≤ 1 := (hlive t).trans (by split <;> omega)
  unfold live at hle
  refine ⟨by omega, fun hone => ?_⟩
  simp only [List.mem_cons, List.not_mem_nil, or_false, forall_eq_or_imp, forall_eq]
  omega

end runs

/-- Any run over a store whose saves succeed, with restarts at any point. -/
abbrev crashRules (cfg : Config) (id : String) : Rules (machine cfg id) where
  act _ _ _ inp := inp.saveErr = none

/-- A flush drains an expired command and reports it; the adapter restarts before the next
save, and the controller connects again. -/
def drainedLabels : List (Label (machine {} "c")) :=
  connect { time := 1 } ++
    call 0 (.enqueue { commandID := 9, ttl := second } 0) 20 { time := 1 } ++
    call 0 .flush 10 { time := 10 * second } ++ [.crash] ++ connect { time := 20 * second }

/-- The command is reported as expired a second time. -/
theorem drained_reported_twice :
    ∃ c, Reachable (crashRules {} "c") {} c ∧ .accepted 0 ∈ c.world.log ∧
      census c.world 0 .finished = 2 :=
  ⟨_, Reachable.initial.run drainedLabels, by decide +kernel, by decide +kernel⟩

theorem restarted_reported_once :
    ∃ c, Reachable (restartRules {} "c") {} c ∧ .restarted ∈ c.world.log ∧
      census c.world 0 .finished = 1 ∧ census c.world 0 .finished ≤ 1 := by
  have hrestarted : ∃ c, Reachable (restartRules {} "c") {} c ∧ .restarted ∈ c.world.log ∧
      census c.world 0 .finished = 1 :=
    ⟨_, Reachable.initial.run (ackedLabels ++ go 0 1 ++ [.crash]), by decide +kernel,
      by decide +kernel⟩
  obtain ⟨c, hc, hmem, hone⟩ := hrestarted
  exact ⟨c, hc, hmem, hone, ((reported_once_across_restarts hc).1 0).1⟩

end TcpAdapter.Delivery
