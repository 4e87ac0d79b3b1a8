import Mathlib.Algebra.Order.Group.Multiset
import Mathlib.Tactic.Abel
import TcpAdapter.Verification.Delivery.Budget
import TcpAdapter.Verification.Delivery.Spared

/-! # A flush that writes nothing

Such a flush should report the dead commands and leave everything else as it was. It reports those
that it comes to, and it does not come to the queue at all while something is in flight. What it
has popped it appends: a command that did not fit ends up behind the commands of its class that it
stood before, it loses the number of its retry, and the number that it was given from the counter
is used up. -/

namespace TcpAdapter.Delivery

open List TcpAdapter.Concurrent TcpAdapter.Queue TcpAdapter.Protocol TcpAdapter.Manager
open TcpAdapter.Policy

/-! ## What a survey does with its commands -/

section survey

variable {s : Session} (cmds : List Command) (times : List Time)

theorem survey_gone_terminal {r : AckStatus × Command}
    (h : r ∈ (survey s.deliveryContext cmds times).gone) : isTerminalAckStatus r.1 = true := by
  fun_induction survey s.deliveryContext cmds times with
  | case1 c rest t₀ now times ih =>
      rw [Survey.cons] at h
      split at h
      · cases h
      · rcases mem_append.mp h with h | h
        · cases hv : verdict s.deliveryContext now c with
          | barred | ready =>
              rw [hv] at h
              cases h
          | expired | invalid | unencodable =>
              rw [hv] at h
              cases mem_singleton.mp h
              rfl
        · exact ih h
  | case2 => cases h

theorem verdict_keeps {t : Time} {c : Command} (hexpired : c.expired t = false) :
    (verdict s.deliveryContext t c).keeps c = if !allowed s c then [c] else [] := by
  by_cases hmodes : commandAllowedInModes c.commandID s.fwMode s.syncMode <;>
    by_cases hvalid : (validateServerCommandPayload c.commandID c.payload).isOk <;>
    by_cases hencode : (encodeFrame (commandFrame c 0 s.frameMode)).isOk <;>
    simp [verdict, allowed, Session.deliveryContext, hexpired, hmodes, hvalid, hencode, Verdict.keeps]

theorem verdict_numbers {t now : Time} {c : Command} (hexpired : c.expired t = false)
    (hnow : c.expired now = false) (hready : verdict s.deliveryContext t c ≠ .ready) :
    (verdict s.deliveryContext t c).numbers c =
      if allowed s c && wastesNumber s.frameMode now c then 1 else 0 := by
  revert hready
  by_cases hmodes : commandAllowedInModes c.commandID s.fwMode s.syncMode <;>
    by_cases hvalid : (validateServerCommandPayload c.commandID c.payload).isOk <;>
    by_cases hencode : (encodeFrame (commandFrame c 0 s.frameMode)).isOk <;>
    simp [verdict, allowed, wastesNumber, Session.deliveryContext, hexpired, hnow, hmodes, hvalid,
      hencode, Verdict.numbers, draws]

/-- Where no command expires, those that the modes do not let through are kept. -/
theorem survey_kept (hexpired : ∀ c ∈ cmds, ∀ t ∈ times, c.expired t = false) :
    (survey s.deliveryContext cmds times).kept =
      (survey s.deliveryContext cmds times).passed.filter fun c => !allowed s c := by
  fun_induction survey s.deliveryContext cmds times with
  | case1 c rest t₀ now times ih =>
      have ih := ih fun c hc t ht => hexpired c (mem_cons_of_mem _ hc) t (by simp [ht])
      have hkeeps := verdict_keeps (s := s) (hexpired c mem_cons_self now (by simp))
      rw [Survey.cons]
      split
      · rfl
      · simp only [filter_cons, ← ih, hkeeps]
        split <;> rfl
  | case2 => rfl

/-- One number for each command without one that the encoder rejects, and one for the command that
is found, if it needs one. -/
theorem survey_drawn {now : Time} (hnow : ∀ c ∈ cmds, c.expired now = false)
    (hexpired : ∀ c ∈ cmds, ∀ t ∈ times, c.expired t = false) :
    (survey s.deliveryContext cmds times).drawn =
      ((survey s.deliveryContext cmds times).passed.countP fun c =>
        allowed s c && wastesNumber s.frameMode now c) +
      ((survey s.deliveryContext cmds times).found.toList.map draws).sum := by
  fun_induction survey s.deliveryContext cmds times with
  | case1 c rest t₀ t times ih =>
      have ih := ih (fun c hc => hnow c (mem_cons_of_mem _ hc))
        fun c hc t ht => hexpired c (mem_cons_of_mem _ hc) t (by simp [ht])
      rw [Survey.cons]
      split
      · rename_i hready
        simp [hready, Verdict.numbers]
      · rename_i hready
        have hnumbers := verdict_numbers (hexpired c mem_cons_self t (by simp))
          (hnow c mem_cons_self) hready
        simp only [countP_cons, ih, hnumbers]
        omega
  | case2 => rfl

end survey

section survey

variable {dctx : DeliveryContext} (cmds : List Command) (times : List Time)

/-- Every command that is passed is kept or reported, apart from its number. -/
theorem survey_passed_perm : (survey dctx cmds times).passed.map Command.unnumbered ~
    ((survey dctx cmds times).kept ++ (survey dctx cmds times).gone.map Prod.snd).map
      Command.unnumbered := by
  fun_induction survey dctx cmds times with
  | case1 c rest t₀ now times ih =>
      rw [Survey.cons]
      split
      · exact Perm.refl []
      · cases hv : verdict dctx now c with
        | barred => simpa [Verdict.keeps, Verdict.report] using ih
        | ready => contradiction
        | expired | invalid | unencodable =>
            simp only [Verdict.keeps, Verdict.report, map_cons, map_append, nil_append, cons_append]
              at ih ⊢
            exact (ih.cons c.unnumbered).trans perm_middle.symm
  | case2 => exact Perm.refl []

end survey

/-! ## What is left of the session -/

/-- What a flush that has written nothing puts back. -/
def Survey.putBack (sv : Survey) : List Command :=
  (sv.found.map Command.unnumbered).toList ++ sv.kept

/-- The dead commands are gone, each of them has been reported once, and nothing else has changed.
A command that cannot be encoded is reported without its number. -/
structure OnlyDeadGone (before after : Session) (now : Time)
    (reported : List (AckStatus × Command)) : Prop where
  buffer : ∀ b, after.queue.buffer b =
    (before.queue.buffer b).filter fun cmd => !dead before.frameMode now cmd
  once : ∀ b, (ofClass b (reported.map Prod.snd)).map Command.unnumbered ~
    ((before.queue.buffer b).filter (dead before.frameMode now)).map Command.unnumbered
  terminal : ∀ r ∈ reported, isTerminalAckStatus r.1 = true
  nextSeq : after.nextSeq = before.nextSeq
  inFlight : after.inFlight = before.inFlight
  fwMode : after.fwMode = before.fwMode
  syncMode : after.syncMode = before.syncMode

theorem add_ofNat_eq_self_iff (x : UInt8) (n : ℕ) : x + .ofNat n = x ↔ 256 ∣ n := by
  rw [← UInt8.toNat_inj]
  have hx := x.toNat_lt
  simp only [UInt8.toNat_add, UInt8.toNat_ofNat']
  omega

section outcome

variable {cfg : Config} {id : String} {s : Session} {t : Time} {times : List Time} {sv : Survey}
  {first : List (Step (machine cfg id))} {w : World} {q : ControllerQueue}

theorem drainExpired_perm (hsorted : Sorted s.queue) (b : ControllerQueue.Buffer) :
    s.queue.buffer b ~ ofClass b (s.queue.drainExpired t).1 ++ (drained s t).queue.buffer b := by
  have hexpired : ofClass b (s.queue.drainExpired t).1 =
      (s.queue.buffer b).filter fun c => c.expired t := by
    rw [ControllerQueue.drainExpired_fst, ← ofClass_snapshot hsorted b]
    exact filter_comm _ _ _
  rw [hexpired, drained_buffer]
  exact (filter_append_perm _ _).symm

theorem ofClass_putBack_map (sv : Survey) (b : ControllerQueue.Buffer) :
    (ofClass b sv.putBack).map Command.unnumbered =
      (ofClass b sv.found.toList).map Command.unnumbered ++
        (ofClass b sv.kept).map Command.unnumbered := by
  rw [← ofClass_map_unnumbered, ← ofClass_map_unnumbered, ← ofClass_map_unnumbered,
    Survey.putBack, map_append, ofClass_append]
  cases sv.found <;> rfl

/-- Every command is reported or still there, apart from its number. -/
theorem Surveyed.reported_perm {dctx : DeliveryContext}
    (h : Surveyed dctx (drained s t) sv first w q)
    (hsv : sv = survey dctx ((drained s t).queue.visible dctx.fwMode dctx.syncMode) times)
    (hsorted : Sorted s.queue) (b : ControllerQueue.Buffer) :
    (s.queue.buffer b).map Command.unnumbered ~
      ((sv.putBack.foldl ControllerQueue.push q).buffer b ++
        ofClass b (((s.queue.drainExpired t).1.map (AckStatus.expired, ·) ++ sv.gone).map
          Prod.snd)).map Command.unnumbered := by
  have hpassed : (ofClass b sv.passed).map Command.unnumbered ~
      (ofClass b sv.kept ++ ofClass b (sv.gone.map Prod.snd)).map Command.unnumbered := by
    rw [← ofClass_append, ← ofClass_map_unnumbered, ← ofClass_map_unnumbered, hsv]
    exact (survey_passed_perm _ _).filter _
  have hbuffer := h.buffer b (hsorted.drained t)
  have hdrained := (drainExpired_perm (t := t) hsorted b).map Command.unnumbered
  rw [← Multiset.coe_eq_coe] at hpassed hdrained ⊢
  rw [hdrained, hbuffer, ControllerQueue.foldl_push_buffer, ← ofClass]
  have hfst : ((s.queue.drainExpired t).1.map (AckStatus.expired, ·)).map Prod.snd =
      (s.queue.drainExpired t).1 := by
    rw [map_map]
    exact map_id _
  simp only [map_append, ofClass_append, hfst, ofClass_putBack_map, ← Multiset.coe_add] at hpassed ⊢
  rw [hpassed]
  abel

end outcome

/-! ## When nothing but dead commands is gone -/

/-- A pass over the queue that comes to every dead command and leaves the others as they are. -/
structure PassSpares (s : Session) (now : Time) : Prop where
  /-- A dead command is expired, or the modes let it through and it is reached. -/
  reached : ∀ cmd ∈ s.queue.snapshot, dead s.frameMode now cmd = true →
    cmd.expired now = true ∨ allowed s cmd = true ∧ cmd ∈ ahead s now
  /-- The command that may go out is too large, has no number, and is alone in its class. -/
  large : ∀ cmd ∈ firstOut s now, maxBudget s.deliveryContext < cmd.frameLength s.frameMode ∧
    cmd.retrySeq = 0 ∧ ∀ c ∈ s.queue.buffer cmd.priority.buffer,
      dead s.frameMode now c = false → c = cmd
  /-- The numbers that are used up take the counter round. -/
  numbers : 256 ∣ s.queue.snapshot.countP (wastesNumber s.frameMode now) +
    (firstOut s now).toList.length

/-- Without a connection, or while something is in flight, a flush does not come to the queue. -/
def FlushSpares (s : Session) (now : Time) : Prop :=
  if s.conn = none ∨ 0 < s.inFlight.count then
    ∀ cmd ∈ s.queue.snapshot, dead s.frameMode now cmd = false
  else PassSpares s now

/-! ## The flush -/

section flush

variable {cfg : Config} {id : String} {R : Rules (machine cfg id)} {tid : ℕ} {w w' : World}
  {s : Session} {steps : List (Step (machine cfg id))} {conn : ConnID} {remaining : Int}

/-- The commands whose frames have been written. -/
def written (steps : List (Step (machine cfg id))) : List Command :=
  steps.filterMap fun
    | ⟨_, .transmit _ _ cmd _, none⟩ => some cmd
    | _ => none

@[simp] theorem written_append (steps steps' : List (Step (machine cfg id))) :
    written (steps ++ steps') = written steps ++ written steps' :=
  filterMap_append ..

/-- A write that fails is reported. -/
theorem sendFrame_quiet {cmd : Command} {seq : UInt8} {bytes : List UInt8} {dctx : DeliveryContext}
    {skipped : List Command} {pass : Pass}
    (h : Walk R tid w (sendFrame id conn cmd seq bytes dctx remaining skipped) steps w' pass)
    (hquiet : written steps = []) :
    (∃ err, pass = .exit (some err)) ∧ (.failed, cmd) ∈ reports steps := by
  obtain ⟨_, w₁, err, _, rfl, -, -, h⟩ := Walk.of_perform h
  cases err with
  | none => cases hquiet
  | some err =>
      obtain ⟨_, w₂, _, _, rfl, -, -, h⟩ := Walk.of_perform h
      obtain ⟨w₃, _, _, _, rfl, -, h⟩ := h.of_bind
      obtain ⟨-, -, rfl⟩ := h.of_ret
      exact ⟨⟨err, rfl⟩, mem_cons_self⟩

/-- How the outer loop ends if it writes nothing. -/
inductive QuietEnd (s : Session) (remaining : Int) (t : Time) (sv : Survey) (q : ControllerQueue)
    (w' : World) : List (AckStatus × Command) → Prop where
  | putBack (hlarge : ∀ cmd ∈ sv.found, remaining < cmd.frameLength s.frameMode)
      (hsession : w'.session = some { s with
        queue := sv.putBack.foldl ControllerQueue.push q, nextSeq := s.nextSeq + .ofNat sv.drawn }) :
      QuietEnd s remaining t sv q w'
        ((s.queue.drainExpired t).1.map (AckStatus.expired, ·) ++ sv.gone)
  | failed {cmd : Command} {reported : List (AckStatus × Command)} (hfound : sv.found = some cmd)
      (hfits : cmd.frameLength s.frameMode ≤ remaining)
      (hreported : (.failed, cmd.unnumbered) ∈ reported) : QuietEnd s remaining t sv q w' reported

/-- After the survey the clock is not read any more, and only a failed write is reported. -/
theorem quietEnd_of_surveyed {t : Time} {sv : Survey} {q : ControllerQueue} {w₁ w₂ : World}
    {first last after : List (Step (machine cfg id))} {pass : Pass} {fuel : ℕ} {x : Option Error}
    (h : Surveyed s.deliveryContext (drained s t) sv first w₁ q)
    (hlast : Continues R tid conn s.deliveryContext remaining sv.kept sv.found w₁ q last w₂ pass)
    (hquiet : written last = []) (hafter : Walk R tid w₂ (afterPass id conn fuel pass) after w' x) :
    readings after = [] ∧ reports after = [] ∧
      (sv.found = none → q.visible s.fwMode s.syncMode = []) ∧
      QuietEnd s remaining t sv q w'
        ((s.queue.drainExpired t).1.map (AckStatus.expired, ·) ++ (sv.gone ++ reports last)) := by
  cases hfound : sv.found with
  | none =>
      rw [hfound] at hlast
      obtain ⟨rfl, rfl, rfl, hvisible⟩ := hlast
      obtain ⟨w₃, _, pushes, _, rfl, hpush, hafter⟩ := hafter.of_bind
      obtain ⟨rfl, rfl, -⟩ := hafter.of_ret
      obtain ⟨hsession, hreports, -, hreadings⟩ := pushAll_walk hpush h.session
      rw [append_nil]
      refine ⟨hreadings, hreports, fun _ => hvisible, ?_⟩
      rw [show reports [] = [] from rfl, append_nil]
      refine .putBack (by simp [hfound]) ?_
      rw [hsession, Survey.putBack, hfound]
      rfl
  | some cmd =>
      rw [hfound] at hlast
      obtain ⟨seq, bytes, hencode, hoffer⟩ := hlast
      have hlen : bytes.length = cmd.frameLength s.frameMode := Command.frameLength_eq hencode
      by_cases hfits : bytes.length ≤ remaining
      · have hnot : ¬remaining < bytes.length := by omega
        rw [offer, if_neg hnot] at hoffer
        obtain ⟨⟨err, rfl⟩, hfailed⟩ := sendFrame_quiet hoffer hquiet
        obtain ⟨rfl, rfl, -⟩ := hafter.of_ret
        refine ⟨rfl, rfl, by simp, .failed hfound (hlen ▸ hfits) ?_⟩
        simp [hfailed]
      · obtain ⟨rfl, hsession, hreports, -⟩ := offer_large_walk (by omega) hoffer h.session
        obtain ⟨rfl, rfl, -⟩ := hafter.of_ret
        refine ⟨rfl, rfl, by simp, ?_⟩
        rw [hreports, append_nil]
        refine .putBack ?_ ?_
        · simp only [hfound, Option.mem_some]
          rintro _ rfl
          omega
        · rw [hsession, Survey.putBack, hfound]
          rfl

theorem flushLoop_quiet {fuel : ℕ} {x : Option Error}
    (h : Walk R tid w (flushLoop id conn (fuel + 1) s.deliveryContext remaining) steps w' x)
    (hs : w.session = some s) (hpos : 0 < remaining) (hquiet : written steps = []) :
    ∃ t times sv w₁ q, ∃ first : List (Step (machine cfg id)), readings steps = t :: times ∧
      sv = survey s.deliveryContext ((drained s t).queue.visible s.fwMode s.syncMode) times ∧
      Surveyed s.deliveryContext (drained s t) sv first w₁ q ∧
      (sv.found = none → q.visible s.fwMode s.syncMode = []) ∧
      QuietEnd s remaining t sv q w' (reports steps) := by
  obtain ⟨t, w₁, opening, rest, rfl, -, hreadings, hreports, hs₁, h⟩ := flushLoop_walk h hs hpos
  obtain ⟨w₂, pass, scan, after, rfl, hscan, hafter⟩ := h.of_bind
  obtain ⟨sv, w₃, q, first, last, rfl, hsv, hsurveyed, hlast⟩ :=
    scanQueue_walk (s := drained s t) hscan hs₁ (ControllerQueue.length_visible_le ..)
  have hquiet : written last = [] := by
    have hall : written (opening ++ (first ++ last ++ after)) = [] := hquiet
    simp only [written_append, append_eq_nil_iff] at hall
    exact hall.2.1.2
  obtain ⟨hafter₁, hafter₂, hnone, hend⟩ := quietEnd_of_surveyed hsurveyed hlast hquiet hafter
  refine ⟨t, readings (first ++ last), sv, w₃, q, first, ?_, hsv, hsurveyed, hnone, ?_⟩
  · change t :: readings (opening ++ (first ++ last ++ after)) = _
    rw [readings_append, readings_append, hreadings, hafter₁, nil_append, append_nil]
  · change QuietEnd s remaining t sv q w' (reports (opening ++ (first ++ last ++ after)))
    rwa [reports_append, reports_append, reports_append, hreports, hafter₂, append_nil,
      hsurveyed.reports]

theorem mem_visible_drained {t : Time} {fwMode syncMode : Bool} {c : Command}
    (h : c ∈ (drained s t).queue.visible fwMode syncMode) :
    c ∈ s.queue.snapshot ∧ c.expired t = false := by
  rw [drained_visible, mem_filter, Bool.not_eq_true'] at h
  exact ⟨(visible_sublist ..).subset h.1, h.2⟩

/-- The pass of a flush goes over the queue as it is at `now`, if no command expires meanwhile. -/
theorem Surveyed.scanned {t now : Time} {times : List Time} {sv : Survey} {q : ControllerQueue}
    {first : List (Step (machine cfg id))}
    (h : Surveyed s.deliveryContext (drained s t) sv first w q)
    (hsv : sv = survey s.deliveryContext ((drained s t).queue.visible s.fwMode s.syncMode) times)
    (hnone : sv.found = none → q.visible s.fwMode s.syncMode = []) (hsorted : Sorted s.queue)
    (hdistinct : (s.queue.snapshot.map Command.ticket).Nodup)
    (hclock : ∀ r ∈ t :: times, ∀ cmd ∈ s.queue.snapshot, cmd.expired r = cmd.expired now) :
    Scanned s now sv.passed sv.found q := by
  have hmem : ∀ c ∈ sv.passed ++ sv.found.toList, c ∈ s.queue.snapshot := by
    intro c hc
    have hvisible : c ∈ (drained s t).queue.visible s.fwMode s.syncMode :=
      h.visible ▸ mem_append_left _ hc
    exact (mem_visible_drained hvisible).1
  have hdrained := drained_congr (hclock t mem_cons_self)
  refine ⟨hsorted, hdistinct, hdrained ▸ h.visible, fun b => ?_, fun c hc => ?_, fun c hc => ?_, hnone⟩
  · rw [← hdrained]
    exact h.buffer b (hsorted.drained t)
  · obtain ⟨r, hr, hv⟩ := survey_passed (hsv ▸ hc)
    have hexpired := hclock r (mem_cons_of_mem _ hr) c (hmem c (mem_append_left _ hc))
    rw [ne_eq, verdict_eq_ready_iff, mayGoOut_of_expired_eq hexpired] at hv
    exact Bool.eq_false_iff.mpr hv
  · obtain ⟨r, hr, hv⟩ := survey_found (hsv ▸ hc)
    have hexpired := hclock r (mem_cons_of_mem _ hr) c
      (hmem c (mem_append_right _ (Option.mem_toList.mpr hc)))
    rwa [verdict_eq_ready_iff, mayGoOut_of_expired_eq hexpired] at hv

theorem sum_draws {found : Option Command} (h : ∀ f ∈ found, f.retrySeq = 0) :
    (found.toList.map draws).sum = found.toList.length := by
  cases found with
  | none => rfl
  | some f => simp [draws, h f rfl]

/-- What is gone from a class is what was reported. -/
theorem Surveyed.once {t now : Time} {times : List Time} {sv : Survey} {q : ControllerQueue}
    {first : List (Step (machine cfg id))}
    (h : Surveyed s.deliveryContext (drained s t) sv first w q)
    (hsv : sv = survey s.deliveryContext ((drained s t).queue.visible s.fwMode s.syncMode) times)
    (hsorted : Sorted s.queue) {b : ControllerQueue.Buffer}
    (hbuffer : (sv.putBack.foldl ControllerQueue.push q).buffer b =
      (s.queue.buffer b).filter fun c => !dead s.frameMode now c) :
    (ofClass b (((s.queue.drainExpired t).1.map (AckStatus.expired, ·) ++ sv.gone).map
      Prod.snd)).map Command.unnumbered ~
        ((s.queue.buffer b).filter (dead s.frameMode now)).map Command.unnumbered := by
  have hall := h.reported_perm hsv hsorted b
  have hsplit := (filter_append_perm (dead s.frameMode now) (s.queue.buffer b)).map Command.unnumbered
  rw [hbuffer, map_append] at hall
  rw [map_append] at hsplit
  exact (perm_append_left_iff _).mp (hall.symm.trans (hsplit.symm.trans perm_append_comm))

/-- A flush that puts back changes nothing but dead commands exactly if its pass spares the others. -/
theorem Surveyed.onlyDeadGone_iff {t now : Time} {times : List Time} {sv : Survey}
    {q : ControllerQueue} {first : List (Step (machine cfg id))}
    (h : Surveyed s.deliveryContext (drained s t) sv first w q)
    (hsv : sv = survey s.deliveryContext ((drained s t).queue.visible s.fwMode s.syncMode) times)
    (hscanned : Scanned s now sv.passed sv.found q)
    (hclock : ∀ r ∈ t :: times, ∀ cmd ∈ s.queue.snapshot, cmd.expired r = cmd.expired now)
    (hlarge : ∀ cmd ∈ sv.found, maxBudget s.deliveryContext < cmd.frameLength s.frameMode) :
    OnlyDeadGone s { s with
        queue := sv.putBack.foldl ControllerQueue.push q, nextSeq := s.nextSeq + .ofNat sv.drawn }
      now ((s.queue.drainExpired t).1.map (AckStatus.expired, ·) ++ sv.gone) ↔ PassSpares s now := by
  have hnow : ∀ c ∈ (drained s t).queue.visible s.fwMode s.syncMode, c.expired now = false :=
    fun c hc => (hclock t mem_cons_self c (mem_visible_drained hc).1).symm.trans
      (mem_visible_drained hc).2
  have htimes : ∀ c ∈ (drained s t).queue.visible s.fwMode s.syncMode, ∀ r ∈ times,
      c.expired r = false := fun c hc r hr =>
    (hclock r (mem_cons_of_mem _ hr) c (mem_visible_drained hc).1).trans (hnow c hc)
  have hkept : sv.kept = Scanned.waiting s sv.passed := by
    rw [hsv]
    exact survey_kept _ _ htimes
  have hdrawn : sv.drawn = (sv.passed.countP fun c =>
      allowed s c && wastesNumber s.frameMode now c) + (sv.found.toList.map draws).sum := by
    rw [hsv]
    exact survey_drawn _ _ hnow htimes
  have hqueue : ∀ b, (sv.putBack.foldl ControllerQueue.push q).buffer b = q.buffer b ++
      ofClass b ((sv.found.map Command.unnumbered).toList ++ Scanned.waiting s sv.passed) := by
    intro b
    rw [ControllerQueue.foldl_push_buffer, ← ofClass, Survey.putBack, hkept]
  constructor
  · intro hkeeps
    obtain ⟨hreached, hfound⟩ := hscanned.buffers_iff.mp fun b =>
      (hqueue b).symm.trans (hkeeps.buffer b)
    have hnext : 256 ∣ sv.drawn := (add_ofNat_eq_self_iff _ _).mp hkeeps.nextSeq
    rw [hdrawn, sum_draws fun f hf => (hfound f hf).1, ← hscanned.countP_wastes hreached] at hnext
    rw [← hscanned.firstOut_eq] at hfound hlarge hnext
    exact ⟨hreached, fun cmd hcmd => ⟨hlarge cmd hcmd, hfound cmd hcmd⟩, hnext⟩
  · rintro ⟨hreached, hfound, hnumbers⟩
    rw [hscanned.firstOut_eq] at hfound hnumbers
    have hbuffers := hscanned.buffers_iff.mpr ⟨hreached, fun f hf => (hfound f hf).2⟩
    have hbuffer := fun b => (hqueue b).trans (hbuffers b)
    refine ⟨hbuffer, fun b => h.once hsv hscanned.sorted (hbuffer b), fun r hr => ?_, ?_, rfl, rfl,
      rfl⟩
    · rcases mem_append.mp hr with hr | hr
      · obtain ⟨cmd, -, rfl⟩ := mem_map.mp hr
        rfl
      · exact survey_gone_terminal _ _ (hsv ▸ hr)
    · refine (add_ofNat_eq_self_iff _ _).mpr ?_
      rwa [hdrawn, sum_draws fun f hf => (hfound f hf).2.1, ← hscanned.countP_wastes hreached]

theorem OnlyDeadGone.dead_of_reported {s' : Session} {now : Time}
    {reported : List (AckStatus × Command)} {status : AckStatus} {cmd : Command}
    (h : OnlyDeadGone s s' now reported) (hmem : (status, cmd.unnumbered) ∈ reported) :
    dead s.frameMode now cmd = true := by
  have hclass : cmd.unnumbered ∈ ofClass cmd.priority.buffer (reported.map Prod.snd) :=
    mem_filter.mpr ⟨mem_map.mpr ⟨_, hmem, rfl⟩, by simp [Command.unnumbered]⟩
  have hgone := (h.once cmd.priority.buffer).mem_iff.mp (mem_map_of_mem hclass)
  obtain ⟨c, hc, heq⟩ := mem_map.mp hgone
  have hdead := (mem_filter.mp hc).2
  rwa [← dead_unnumbered, heq, dead_unnumbered, dead_unnumbered] at hdead

theorem onlyDeadGone_refl_iff (s : Session) (now : Time) :
    OnlyDeadGone s s now [] ↔ ∀ cmd ∈ s.queue.snapshot, dead s.frameMode now cmd = false := by
  constructor
  · intro h cmd hcmd
    obtain ⟨b, hb⟩ := ControllerQueue.mem_snapshot.mp hcmd
    rw [h.buffer b] at hb
    simpa using (mem_filter.mp hb).2
  · intro hlive
    have hall : ∀ b, ∀ cmd ∈ s.queue.buffer b, dead s.frameMode now cmd = false := fun b cmd hcmd =>
      hlive cmd (ControllerQueue.mem_snapshot.mpr ⟨b, hcmd⟩)
    refine ⟨fun b => ?_, fun b => ?_, by simp, rfl, rfl, rfl, rfl⟩
    · exact (filter_eq_self.mpr fun cmd hcmd => by simp [hall b cmd hcmd]).symm
    · rw [filter_eq_nil_iff.mpr fun cmd hcmd => by simp [hall b cmd hcmd]]
      exact Perm.refl []

end flush

/-- A flush that nobody disturbs and that writes no frame takes the dead commands out, each with a
report, and leaves everything else as it was, if and only if it spares the live ones and comes to
all that are dead. No queued command expires while the flush runs. -/
theorem quiet_flush_changes_nothing_iff {cfg : Config} {id : String} {R : Rules (machine cfg id)}
    {tid : ℕ} {w w' : World} {s : Session} {steps : List (Step (machine cfg id))} {x : Option Error}
    {now : Time} (hs : w.session = some s) (hsorted : Sorted s.queue)
    (hdistinct : (s.queue.snapshot.map Command.ticket).Nodup)
    (h : Walk R tid w (flushQueue id) steps w' x) (hquiet : written steps = [])
    (hclock : ∀ t ∈ readings steps, ∀ cmd ∈ s.queue.snapshot, cmd.expired t = cmd.expired now) :
    ∃ s', w'.session = some s' ∧
      (OnlyDeadGone s s' now (reports steps) ↔ FlushSpares s now) := by
  have hsome : (World.session w').isSome :=
    h.call.preserves (I := fun w => (World.session w).isSome) (fun _ _ _ _ _ hw hexec =>
      exec_session hexec hw) (by rw [hs]; rfl)
  obtain ⟨s', hs'⟩ := Option.isSome_iff_exists.mp hsome
  refine ⟨s', hs', ?_⟩
  have hcount : w.slot.inFlightCount = s.inFlight.count := by
    rw [Slot.inFlightCount, show w.slot.session = some s from hs]
  rcases flushQueue_walk h hs with ⟨hconn, rfl, rfl⟩ | ⟨hbusy, rfl, rfl⟩ |
    ⟨conn, rest, hconn, hfree, rfl, hloop⟩
  · cases hs.symm.trans hs'
    rw [FlushSpares, if_pos (.inl hconn)]
    exact onlyDeadGone_refl_iff s now
  · cases hs.symm.trans hs'
    rw [FlushSpares, if_pos (.inr (hcount ▸ hbusy))]
    exact onlyDeadGone_refl_iff s now
  · have hpos := maxBudget_pos s.deliveryContext
    obtain ⟨fuel, hfuel⟩ : ∃ fuel, (maxBudget s.deliveryContext).toNat = fuel + 1 :=
      Nat.exists_eq_succ_of_ne_zero (by omega)
    rw [hfuel] at hloop
    obtain ⟨t, times, sv, w₁, q, first, hreadings, hsv, hsurveyed, hnone, hend⟩ :=
      flushLoop_quiet hloop hs hpos hquiet
    have hclock : ∀ r ∈ t :: times, ∀ cmd ∈ s.queue.snapshot, cmd.expired r = cmd.expired now :=
      hreadings ▸ hclock
    have hscanned := hsurveyed.scanned hsv hnone hsorted hdistinct hclock
    have hbegins : ¬(s.conn = none ∨ 0 < s.inFlight.count) := by
      rw [hconn, ← hcount, hfree]
      simp
    change OnlyDeadGone s s' now (reports rest) ↔ FlushSpares s now
    rw [FlushSpares, if_neg hbegins]
    generalize reports rest = reported at hend
    cases hend with
    | putBack hlarge hsession =>
        cases hsession.symm.trans hs'
        exact hsurveyed.onlyDeadGone_iff hsv hscanned hclock hlarge
    | @failed cmd _ hfound hfits hreported =>
        -- the write has failed: a live command is gone
        refine iff_of_false (fun hkeeps => ?_) fun hspares => ?_
        · have hdead := hkeeps.dead_of_reported hreported
          cases hdead.symm.trans (hscanned.live_of_found hfound)
        · have hlarge := (hspares.large cmd (hscanned.firstOut_eq.trans hfound)).1
          omega

/-- In firmware mode, an expired command and one that has to wait. -/
def waitingQueued : Session where
  controllerID := "c"
  conn := some 7
  lastSeen := 0
  lastTouchedPersistedAt := 0
  fwMode := true
  queue :=
    { high := [{ commandID := 9, ttl := 1, priority := .high },
        { commandID := 9, priority := .high, ticket := 1 }] }

theorem waiting_command_stays :
    ∃ (steps : List (Step (machine {} "c"))) (w' : World) (x : Option Error) (s' : Session),
      Walk (.any (machine {} "c")) 0 { slot := { session := some waitingQueued } } (flushQueue "c")
        steps w' x ∧
      written steps = [] ∧ w'.session = some s' ∧
      OnlyDeadGone waitingQueued s' 5 (reports steps) := by
  have hrun : ((flushQueue "c").walk (machine {} "c") 0 { time := 5 }
      { slot := { session := some waitingQueued } }).map
        (fun run => (written run.1, readings run.1)) = some ([], [5, 5, 5]) := by
    decide +kernel
  obtain ⟨⟨steps, w', x⟩, hwalk, heq⟩ := Option.map_eq_some_iff.mp hrun
  obtain ⟨hquiet, hreadings⟩ := Prod.mk.inj heq
  have hreadings : readings steps = [5, 5, 5] := hreadings
  have hsorted : Sorted waitingQueued.queue := by
    intro b
    cases b <;> decide
  have hclock : ∀ t ∈ readings steps, ∀ cmd ∈ waitingQueued.queue.snapshot,
      cmd.expired t = cmd.expired 5 := by simp [hreadings]
  have h := Prog.walk_of_eq (R := .any (machine {} "c")) { time := 5 } (fun _ _ => trivial) hwalk
  obtain ⟨s', hs', hiff⟩ := quiet_flush_changes_nothing_iff rfl hsorted (by decide) h hquiet
    hclock
  refine ⟨steps, w', x, s', h, hquiet, hs', hiff.mpr ?_⟩
  rw [FlushSpares, if_neg (by decide +kernel)]
  have hfirst : firstOut waitingQueued 5 = none := by decide +kernel
  refine ⟨by decide +kernel, ?_, by decide +kernel⟩
  rw [hfirst]
  simp

/-- A retry that does not fit into five bytes. -/
def retryQueued : Session where
  controllerID := "c"
  conn := some 7
  lastSeen := 0
  lastTouchedPersistedAt := 0
  bufferFree := 5
  queue := { query := [{ commandID := 9, retrySeq := 3 }] }

/-- It is put back without its number. -/
theorem large_retry_loses_number :
    ∃ (steps : List (Step (machine {} "c"))) (w' : World) (x : Option Error) (s' : Session),
      Walk (.any (machine {} "c")) 0 { slot := { session := some retryQueued } } (flushQueue "c")
        steps w' x ∧
      written steps = [] ∧ w'.session = some s' ∧ s'.queue.query = [{ commandID := 9 }] ∧
      ¬OnlyDeadGone retryQueued s' 0 (reports steps) := by
  have hrun : ((flushQueue "c").walk (machine {} "c") 0 {}
      { slot := { session := some retryQueued } }).map
        (fun run => (written run.1, (World.session run.2.1).map fun s => s.queue.query)) =
          some ([], some [{ commandID := 9 }]) := by
    decide +kernel
  obtain ⟨⟨steps, w', x⟩, hwalk, heq⟩ := Option.map_eq_some_iff.mp hrun
  obtain ⟨hquiet, hsession⟩ := Prod.mk.inj heq
  obtain ⟨s', hs', hquery⟩ := Option.map_eq_some_iff.mp hsession
  have h := Prog.walk_of_eq (R := .any (machine {} "c")) {} (fun _ _ => trivial) hwalk
  refine ⟨steps, w', x, s', h, hquiet, hs', hquery, fun hkeeps => ?_⟩
  have hbuffer : s'.queue.query = retryQueued.queue.query.filter _ := hkeeps.buffer .query
  rw [hquery] at hbuffer
  exact absurd hbuffer (by decide +kernel)

end TcpAdapter.Delivery
