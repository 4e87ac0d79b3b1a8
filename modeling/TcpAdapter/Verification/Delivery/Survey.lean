import TcpAdapter.Concurrent.Walk
import TcpAdapter.Verification.Delivery.Flush
import TcpAdapter.Verification.Delivery.QueueMoves

/-! # A pass over the queue, alone

What one pass of a flush does to the session if nobody else acts meanwhile. It depends on the
commands that pops can reach, on the readings of the clock, and on the bytes that remain. -/

namespace TcpAdapter.Delivery

open List TcpAdapter.Concurrent TcpAdapter.Queue TcpAdapter.Protocol TcpAdapter.Manager
open TcpAdapter.Policy

/-! ## What becomes of the commands -/

inductive Verdict where
  | expired
  /-- The modes do not let the command through. -/
  | barred
  | invalid
  | unencodable
  | ready
  deriving DecidableEq

/-- What a pass finds when it looks at a command. -/
def verdict (dctx : DeliveryContext) (now : Time) (cmd : Command) : Verdict :=
  if cmd.expired now then .expired
  else if !commandAllowedInModes cmd.commandID dctx.fwMode dctx.syncMode then .barred
  else if !(validateServerCommandPayload cmd.commandID cmd.payload).isOk then .invalid
  else if !(encodeFrame (commandFrame cmd 0 dctx.frameMode)).isOk then .unencodable
  else .ready

/-- The command is not expired, the modes let it through, its payload is valid, and it can be
encoded. -/
def mayGoOut (dctx : DeliveryContext) (now : Time) (cmd : Command) : Bool :=
  !cmd.expired now && commandAllowedInModes cmd.commandID dctx.fwMode dctx.syncMode &&
    (validateServerCommandPayload cmd.commandID cmd.payload).isOk &&
    (encodeFrame (commandFrame cmd 0 dctx.frameMode)).isOk

theorem verdict_eq_ready_iff {dctx : DeliveryContext} {now : Time} {cmd : Command} :
    verdict dctx now cmd = .ready ↔ mayGoOut dctx now cmd = true := by
  rw [verdict, mayGoOut]
  cases cmd.expired now <;> cases commandAllowedInModes cmd.commandID dctx.fwMode dctx.syncMode <;>
    cases (validateServerCommandPayload cmd.commandID cmd.payload).isOk <;>
    cases (encodeFrame (commandFrame cmd 0 dctx.frameMode)).isOk <;> decide

/-- A command without a number of its own takes one from the counter when it is encoded. -/
def draws (cmd : Command) : ℕ :=
  if cmd.retrySeq = 0 then 1 else 0

namespace Verdict

/-- How a command of which this was found is reported. -/
def report (cmd : Command) : Verdict → List (AckStatus × Command)
  | expired => [(.expired, cmd)]
  | invalid => [(.failed, cmd)]
  | unencodable => [(.failed, cmd.unnumbered)]
  | barred | ready => []

def keeps (cmd : Command) : Verdict → List Command
  | barred => [cmd]
  | expired | invalid | unencodable | ready => []

/-- How many numbers are taken from the counter for it. -/
def numbers (cmd : Command) : Verdict → ℕ
  | unencodable | ready => draws cmd
  | expired | barred | invalid => 0

end Verdict

/-- What a pass finds until it comes to a command that is ready. -/
structure Survey where
  /-- The commands it goes past. -/
  passed : List Command := []
  /-- Those of them that stay. -/
  kept : List Command := []
  /-- Those that it reports. -/
  gone : List (AckStatus × Command) := []
  /-- How many numbers it takes from the counter. -/
  drawn : ℕ := 0
  found : Option Command := none

/-- The pass comes to a command first. -/
def Survey.cons (cmd : Command) (v : Verdict) (sv : Survey) : Survey :=
  if v = .ready then { drawn := v.numbers cmd, found := some cmd }
  else
    { passed := cmd :: sv.passed
      kept := v.keeps cmd ++ sv.kept
      gone := v.report cmd ++ sv.gone
      drawn := v.numbers cmd + sv.drawn
      found := sv.found }

/-- The clock is read twice for every command, and the second reading decides. -/
def survey (dctx : DeliveryContext) : List Command → List Time → Survey
  | cmd :: rest, _ :: now :: times => .cons cmd (verdict dctx now cmd) (survey dctx rest times)
  | _, _ => {}

/-! ### What a survey says about its commands -/

theorem encodeFrame_isOk (cmd : Command) (seq seq' : UInt8) (mode : FrameMode) :
    (encodeFrame (commandFrame cmd seq mode)).isOk =
      (encodeFrame (commandFrame cmd seq' mode)).isOk := by
  have hlen : (commandFrame cmd seq mode).data.length = (commandFrame cmd seq' mode).data.length := by
    rw [data_length, data_length]
    rfl
  have hpayload : (commandFrame cmd seq mode).payload = (commandFrame cmd seq' mode).payload := rfl
  simp only [encodeFrame, hlen, hpayload]
  split
  · rfl
  · split <;> rfl

/-- It does not matter with which number the encoder is tried. -/
theorem verdict_eq_encode {dctx : DeliveryContext} {now : Time} {cmd : Command}
    (hexpired : ¬cmd.expired now)
    (hbarred : ¬!commandAllowedInModes cmd.commandID dctx.fwMode dctx.syncMode)
    (hpayload : (validateServerCommandPayload cmd.commandID cmd.payload).isOk) (seq : UInt8) :
    verdict dctx now cmd =
      if !(encodeFrame (commandFrame cmd seq dctx.frameMode)).isOk then .unencodable else .ready := by
  rw [verdict, if_neg hexpired, if_neg hbarred, if_neg (by simp [hpayload]),
    encodeFrame_isOk cmd 0 seq]

section survey

variable {dctx : DeliveryContext}

/-- It goes past no command that it found ready. -/
theorem survey_passed {cmds : List Command} {times : List Time} {cmd : Command}
    (h : cmd ∈ (survey dctx cmds times).passed) : ∃ t ∈ times, verdict dctx t cmd ≠ .ready := by
  fun_induction survey dctx cmds times with
  | case1 c rest t₀ now times ih =>
      rw [Survey.cons] at h
      split at h
      · cases h
      · rename_i hready
        rcases mem_cons.mp h with rfl | h
        · exact ⟨now, by simp, hready⟩
        · obtain ⟨t, ht, hv⟩ := ih h
          exact ⟨t, by simp [ht], hv⟩
  | case2 => cases h

theorem survey_found {cmds : List Command} {times : List Time} {cmd : Command}
    (h : (survey dctx cmds times).found = some cmd) : ∃ t ∈ times, verdict dctx t cmd = .ready := by
  fun_induction survey dctx cmds times with
  | case1 c rest t₀ now times ih =>
      rw [Survey.cons] at h
      split at h
      · rename_i hready
        cases h
        exact ⟨now, by simp, hready⟩
      · obtain ⟨t, ht, hv⟩ := ih h
        exact ⟨t, by simp [ht], hv⟩
  | case2 => cases h

end survey

/-! ## The steps of a pass -/

section steps

variable {cfg : Config} {id : String}

/-- The readings of the clock. -/
def readings (steps : List (Step (machine cfg id))) : List Time :=
  steps.filterMap fun
    | ⟨_, .now, t⟩ => some t
    | _ => none

/-- The commands that were reported, and as what. -/
def reports (steps : List (Step (machine cfg id))) : List (AckStatus × Command) :=
  steps.filterMap fun
    | ⟨_, .publishAckWithCommand event cmd, _⟩ => some (event.status, cmd)
    | _ => none

/-- The frames that were handed to the connection, and their commands. -/
def frames (steps : List (Step (machine cfg id))) : List (List UInt8 × Command) :=
  steps.filterMap fun
    | ⟨_, .transmit _ bytes cmd _, _⟩ => some (bytes, cmd)
    | _ => none

variable (steps steps' : List (Step (machine cfg id)))

@[simp] theorem readings_append :
    readings (steps ++ steps') = readings steps ++ readings steps' :=
  filterMap_append ..

@[simp] theorem reports_append : reports (steps ++ steps') = reports steps ++ reports steps' :=
  filterMap_append ..

@[simp] theorem frames_append : frames (steps ++ steps') = frames steps ++ frames steps' :=
  filterMap_append ..

end steps

/-! ## The session after an action -/

section session

variable {cfg : Config} {id : String} {tid : ℕ} {w w' : World} {inp : Input} {s : Session}

theorem setQueue_session (hs : w.session = some s) (q : ControllerQueue) :
    (w.slot.setQueue q).session = some { s with queue := q } := by
  have hslot : w.slot.session = some s := hs
  simp [Slot.setQueue, hslot]

theorem now_world {t : Time} (h : exec cfg id tid w .now inp = some (w', t)) : w' = w := by
  cases h
  rfl

theorem popNext_session {now : Time} {fwMode syncMode : Bool} {r : Option Command}
    (hs : w.session = some s)
    (h : exec cfg id tid w (.popNext now fwMode syncMode) inp = some (w', r)) :
    ∃ q, s.queue.popNext fwMode syncMode = (r, q) ∧ w'.session = some { s with queue := q } := by
  simp only [exec, execPop, queue_of_session hs] at h
  split at h
  · rename_i q hpop
    cases h
    exact ⟨q, hpop, by rw [hs, ControllerQueue.popNext_none hpop]⟩
  · rename_i cmd q hpop
    cases h
    exact ⟨q, hpop, setQueue_session hs q⟩

theorem push_session {cmd : Command} {r : Unit} (hs : w.session = some s)
    (h : exec cfg id tid w (.push cmd) inp = some (w', r)) :
    w'.session = some { s with queue := s.queue.push cmd } := by
  cases h
  rw [execPush, queue_of_session hs]
  exact setQueue_session hs _

theorem drainExpired_session {now : Time} {r : List Command} (hs : w.session = some s)
    (h : exec cfg id tid w (.drainExpired now) inp = some (w', r)) :
    r = (s.queue.drainExpired now).1 ∧
      w'.session = some { s with queue := (s.queue.drainExpired now).2 } := by
  simp only [exec, execDrain, queue_of_session hs] at h
  cases h
  exact ⟨rfl, setQueue_session hs _⟩

theorem nextCommandSeq_session {r : Except Error UInt8} (hs : w.session = some s)
    (h : exec cfg id tid w .nextCommandSeq inp = some (w', r)) :
    r = .ok (s.nextSeq + 1) ∧ w'.session = some { s with nextSeq := s.nextSeq + 1 } := by
  have hslot : w.slot.session = some s := hs
  have heq := guarded_eq_some h
  simp only [Slot.nextCommandSeq, hslot, Slot.persistLocked] at heq
  obtain ⟨rfl, rfl⟩ := Prod.mk.inj heq
  refine ⟨rfl, ?_⟩
  cases hsave : inp.saveErr <;> rfl

theorem publish_session {event : AckEvent} {cmd : Command} {r : Unit}
    (h : exec cfg id tid w (.publishAckWithCommand event cmd) inp = some (w', r)) :
    w'.session = w.session := by
  cases h
  simp only [execPublish, World.settle, World.release]
  split <;> (try split) <;> (try split) <;> rfl

end session

/-! ## The pass -/

/-- What a pass does with a command that is ready. -/
def offer (id : String) (conn : ConnID) (cmd : Command) (seq : UInt8) (frameBytes : List UInt8)
    (dctx : DeliveryContext) (remaining : Int) (skipped : List Command) : Deliver Pass :=
  if frameBytes.length > remaining then do
    perform (.push cmd)
    pushAll skipped
    return .exit none
  else sendFrame id conn cmd seq frameBytes dctx remaining skipped

/-- The commands of a class. -/
def ofClass (b : ControllerQueue.Buffer) (cmds : List Command) : List Command :=
  cmds.filter fun c => c.priority.buffer = b

@[simp] theorem ofClass_append (b : ControllerQueue.Buffer) (cmds cmds' : List Command) :
    ofClass b (cmds ++ cmds') = ofClass b cmds ++ ofClass b cmds' :=
  filter_append ..

/-- The pass has come as far as the survey goes: the session `s` has the queue `q` now. -/
structure Surveyed {cfg : Config} {id : String} (dctx : DeliveryContext) (s : Session)
    (sv : Survey) (steps : List (Step (machine cfg id))) (w : World) (q : ControllerQueue) :
    Prop where
  session : w.session = some { s with queue := q, nextSeq := s.nextSeq + .ofNat sv.drawn }
  visible : s.queue.visible dctx.fwMode dctx.syncMode =
    sv.passed ++ sv.found.toList ++ q.visible dctx.fwMode dctx.syncMode
  buffer (b : ControllerQueue.Buffer) : Sorted s.queue →
    s.queue.buffer b = ofClass b (sv.passed ++ sv.found.toList) ++ q.buffer b
  reports : reports steps = sv.gone
  frames : frames steps = []

section pass

variable {cfg : Config} {id : String} {R : Rules (machine cfg id)} {tid : ℕ} {w w' : World}
  {s : Session} {steps : List (Step (machine cfg id))} {dctx : DeliveryContext}

theorem popNext_buffer {q q' : ControllerQueue} {fwMode syncMode : Bool} {cmd : Command}
    (hq : Sorted q) (h : q.popNext fwMode syncMode = (some cmd, q')) (b : ControllerQueue.Buffer) :
    q.buffer b = ofClass b [cmd] ++ q'.buffer b := by
  obtain ⟨b', rest, hb, rfl⟩ := ControllerQueue.popNext_some h
  have hclass : cmd.priority.buffer = b' := hq b' cmd (by simp [hb])
  by_cases heq : b = b'
  · subst heq
    simp [ofClass, hb, hclass]
  · rw [ControllerQueue.buffer_setBuffer_of_ne _ heq]
    simp [ofClass, hclass, Ne.symm heq]

/-- A pass finds nothing to pop. -/
theorem Surveyed.nil (hs : w.session = some s)
    (hvisible : s.queue.visible dctx.fwMode dctx.syncMode = [])
    (hreports : Delivery.reports steps = []) (hframes : Delivery.frames steps = []) :
    Surveyed dctx s {} steps w s.queue where
  session := by simpa using hs
  visible := by simp [hvisible]
  buffer b _ := by simp [ofClass]
  reports := hreports
  frames := hframes

/-- A pass goes past a command. -/
theorem Surveyed.cons {cmd : Command} {v : Verdict} {sv : Survey} {q q₁ : ControllerQueue}
    {first : List (Step (machine cfg id))} (hv : v ≠ .ready)
    (hpop : s.queue.popNext dctx.fwMode dctx.syncMode = (some cmd, q))
    (hreports : Delivery.reports first = v.report cmd) (hframes : Delivery.frames first = [])
    (h : Surveyed dctx { s with queue := q, nextSeq := s.nextSeq + .ofNat (v.numbers cmd) }
      sv steps w q₁) : Surveyed dctx s (sv.cons cmd v) (first ++ steps) w q₁ where
  session := by
    rw [h.session, Survey.cons, if_neg hv, UInt8.ofNat_add, UInt8.add_assoc]
  visible := by
    rw [ControllerQueue.popNext_visible hpop, h.visible, Survey.cons, if_neg hv]
    rfl
  buffer b hsorted := by
    rw [popNext_buffer hsorted hpop b, h.buffer b (hsorted.popped hpop), Survey.cons, if_neg hv,
      ← append_assoc, ← ofClass_append]
    rfl
  reports := by
    rw [reports_append, hreports, h.reports, Survey.cons, if_neg hv]
  frames := by
    rw [frames_append, hframes, h.frames, nil_append]

/-- The first action of a program, as a step. -/
theorem Walk.of_perform {α : Type} {a : Act} {k : a.Res → Deliver α} {x : α}
    (h : Walk R tid w (perform a >>= k) steps w' x) :
    ∃ inp w₁ r rest, steps = ⟨w, a, r⟩ :: rest ∧ R.act w tid a inp ∧
      exec cfg id tid w a inp = some (w₁, r) ∧ Walk R tid w₁ (k r) rest w' x :=
  Walk.of_act h

/-- The number is taken from the counter if need be. -/
theorem commandSeq_walk {α : Type} {cmd : Command} {k : Except Error UInt8 → Deliver α} {x : α}
    (h : Walk R tid w (commandSeq cmd >>= k) steps w' x) (hs : w.session = some s) :
    ∃ w₁ seq first rest, steps = first ++ rest ∧ readings first = [] ∧ reports first = [] ∧
      frames first = [] ∧
      w₁.session = some { s with nextSeq := s.nextSeq + .ofNat (draws cmd) } ∧
      Walk R tid w₁ (k (.ok seq)) rest w' x := by
  rw [commandSeq] at h
  split at h
  · rename_i hseq
    obtain ⟨inp, w₁, r, rest, rfl, -, hexec, h⟩ := Walk.of_perform h
    obtain ⟨rfl, hsession⟩ := nextCommandSeq_session hs hexec
    exact ⟨w₁, _, [_], rest, rfl, rfl, rfl, rfl, by simpa [draws, hseq] using hsession, h⟩
  · rename_i hseq
    exact ⟨w, cmd.retrySeq, [], steps, rfl, rfl, rfl, rfl, by simpa [draws, hseq] using hs, h⟩

/-- How a pass goes on after its survey. -/
def Continues (R : Rules (machine cfg id)) (tid : ℕ) (conn : ConnID) (dctx : DeliveryContext)
    (remaining : Int) (skipped : List Command) (found : Option Command) (w : World)
    (q : ControllerQueue) (steps : List (Step (machine cfg id))) (w' : World) (pass : Pass) :
    Prop :=
  match found with
  | none => steps = [] ∧ w' = w ∧ pass = .unsent skipped ∧
      q.visible dctx.fwMode dctx.syncMode = []
  | some cmd => ∃ seq bytes, encodeFrame (commandFrame cmd.unnumbered seq dctx.frameMode) =
      .ok bytes ∧ Walk R tid w (offer id conn cmd.unnumbered seq bytes dctx remaining skipped)
        steps w' pass

/-- The steps of a pass: a survey, and how the pass goes on. -/
def PassWalk (R : Rules (machine cfg id)) (tid : ℕ) (conn : ConnID) (dctx : DeliveryContext)
    (remaining : Int) (skipped : List Command) (s : Session) (steps : List (Step (machine cfg id)))
    (w' : World) (pass : Pass) : Prop :=
  ∃ sv w₁ q₁ first last, steps = first ++ last ∧
    sv = survey dctx (s.queue.visible dctx.fwMode dctx.syncMode) (readings steps) ∧
    Surveyed dctx s sv first w₁ q₁ ∧
    Continues R tid conn dctx remaining (skipped ++ sv.kept) sv.found w₁ q₁ last w' pass

variable {conn : ConnID} {remaining : Int} {skipped : List Command} {pass : Pass} {cmd : Command}
  {t₁ now : Time} (first : List (Step (machine cfg id))) {rest : List (Step (machine cfg id))}
  {q : ControllerQueue}

/-- The steps by which a pass takes a command and reads the clock. -/
def taking (w w₁ : World) (dctx : DeliveryContext) (t₁ now : Time) (cmd : Command) :
    List (Step (machine cfg id)) :=
  [⟨w, .now, t₁⟩, ⟨w, .popNext t₁ dctx.fwMode dctx.syncMode, some cmd⟩, ⟨w₁, .now, now⟩]

/-- The pass ends with the first command if this is ready. -/
theorem PassWalk.of_ready (hv : verdict dctx now cmd = .ready)
    (hpop : s.queue.popNext dctx.fwMode dctx.syncMode = (some cmd, q)) {w₁ w₂ : World} {seq : UInt8}
    {bytes : List UInt8} (hreports : reports first = []) (hframes : frames first = [])
    (hreadings : readings first = [])
    (hs : w₂.session = some { s with queue := q, nextSeq := s.nextSeq + .ofNat (draws cmd) })
    (hbytes : encodeFrame (commandFrame cmd.unnumbered seq dctx.frameMode) = .ok bytes)
    (h : Walk R tid w₂ (offer id conn cmd.unnumbered seq bytes dctx remaining skipped) rest w'
      pass) :
    PassWalk R tid conn dctx remaining skipped s
      (taking w w₁ dctx t₁ now cmd ++ (first ++ rest)) w' pass := by
  refine ⟨{ drawn := draws cmd, found := some cmd }, w₂, q, taking w w₁ dctx t₁ now cmd ++ first,
    rest, (append_assoc ..).symm, ?_, ⟨hs, ?_, fun b hsorted => ?_, ?_, ?_⟩, seq, bytes, hbytes, ?_⟩
  · rw [ControllerQueue.popNext_visible hpop, readings_append, readings_append, hreadings]
    change _ = Survey.cons cmd (verdict dctx now cmd) _
    rw [hv]
    rfl
  · rw [ControllerQueue.popNext_visible hpop]
    rfl
  · exact popNext_buffer hsorted hpop b
  · rw [reports_append, hreports]
    rfl
  · rw [frames_append, hframes]
    rfl
  · rwa [append_nil]

/-- The pass goes on behind the first command otherwise. -/
theorem PassWalk.cons {v : Verdict} (hv : verdict dctx now cmd = v) (hready : v ≠ .ready)
    (hpop : s.queue.popNext dctx.fwMode dctx.syncMode = (some cmd, q)) {w₁ : World}
    (hreports : reports first = v.report cmd) (hframes : frames first = [])
    (hreadings : readings first = [])
    (h : PassWalk R tid conn dctx remaining (skipped ++ v.keeps cmd)
      { s with queue := q, nextSeq := s.nextSeq + .ofNat (v.numbers cmd) } rest w' pass) :
    PassWalk R tid conn dctx remaining skipped s
      (taking w w₁ dctx t₁ now cmd ++ (first ++ rest)) w' pass := by
  obtain ⟨sv, w₂, q₂, before, last, rfl, hsv, hsurveyed, hlast⟩ := h
  refine ⟨sv.cons cmd v, w₂, q₂, taking w w₁ dctx t₁ now cmd ++ first ++ before, last, by simp, ?_,
    .cons hready hpop ?_ ?_ hsurveyed, ?_⟩
  · rw [ControllerQueue.popNext_visible hpop, readings_append, readings_append, hreadings, hsv, ← hv]
    rfl
  · rw [reports_append, hreports]
    rfl
  · rw [frames_append, hframes]
    rfl
  · rw [Survey.cons, if_neg hready, ← append_assoc]
    exact hlast

theorem pushAll_walk {cmds : List Command} {x : Unit}
    (h : Walk R tid w (pushAll cmds) steps w' x) (hs : w.session = some s) :
    w'.session = some { s with queue := cmds.foldl ControllerQueue.push s.queue } ∧
      reports steps = [] ∧ frames steps = [] ∧ readings steps = [] := by
  induction cmds generalizing w s steps with
  | nil =>
      obtain ⟨rfl, rfl, -⟩ := h.of_ret
      exact ⟨hs, rfl, rfl, rfl⟩
  | cons cmd rest ih =>
      obtain ⟨_, w₁, _, _, rfl, -, hpush, h⟩ := Walk.of_perform h
      exact ih h (push_session hs hpush)

/-- A frame that is too large is not written. -/
theorem offer_large_walk {seq : UInt8} {bytes : List UInt8} (hlarge : remaining < bytes.length)
    (h : Walk R tid w (offer id conn cmd seq bytes dctx remaining skipped) steps w' pass)
    (hs : w.session = some s) :
    pass = .exit none ∧
      w'.session = some { s with queue := (cmd :: skipped).foldl ControllerQueue.push s.queue } ∧
      reports steps = [] ∧ frames steps = [] := by
  rw [offer, if_pos hlarge] at h
  have h : Walk R tid w (pushAll (cmd :: skipped) >>= fun _ => pure (.exit none)) steps w' pass := h
  obtain ⟨w₁, _, first, rest, rfl, hpush, h⟩ := h.of_bind
  obtain ⟨rfl, rfl, rfl⟩ := h.of_ret
  obtain ⟨hsession, hreports, hframes, -⟩ := pushAll_walk hpush hs
  rw [append_nil]
  exact ⟨rfl, hsession, hreports, hframes⟩

theorem publishAllExpired_walk {cmds : List Command} {x : Unit}
    (h : Walk R tid w (publishAllExpired id cmds) steps w' x) :
    w'.session = w.session ∧ reports steps = cmds.map (.expired, ·) ∧ readings steps = [] := by
  induction cmds generalizing w steps with
  | nil =>
      obtain ⟨rfl, rfl, -⟩ := h.of_ret
      exact ⟨rfl, rfl, rfl⟩
  | cons cmd rest ih =>
      obtain ⟨_, w₁, _, _, rfl, -, hpublish, h⟩ := Walk.of_perform h
      obtain ⟨hsession, hreports, hreadings⟩ := ih h
      exact ⟨hsession.trans (publish_session hpublish),
        congrArg ((AckStatus.expired, cmd) :: ·) hreports,
        hreadings⟩

theorem scanQueue_walk {n : ℕ}
    (h : Walk R tid w (scanQueue id conn dctx remaining n skipped) steps w' pass)
    (hs : w.session = some s)
    (hn : (s.queue.visible dctx.fwMode dctx.syncMode).length ≤ n) :
    PassWalk R tid conn dctx remaining skipped s steps w' pass := by
  induction n generalizing w s skipped steps with
  | zero =>
      have hvisible := length_eq_zero_iff.mp (Nat.le_zero.mp hn)
      obtain ⟨rfl, rfl, rfl⟩ := h.of_ret
      refine ⟨{}, w', s.queue, [], [], rfl, ?_, .nil hs hvisible rfl rfl, rfl, rfl, ?_, hvisible⟩
      · rw [hvisible]
        rfl
      · rw [append_nil]
  | succ n ih =>
      obtain ⟨_, w₁, t₁, _, rfl, -, hnow, h⟩ := Walk.of_perform h
      cases now_world hnow
      obtain ⟨_, w₂, popped, _, rfl, -, hpop, h⟩ := Walk.of_perform h
      obtain ⟨q, hq, hs₂⟩ := popNext_session hs hpop
      cases popped with
      | none =>
          have hvisible := ControllerQueue.visible_of_popNext_none hq
          cases ControllerQueue.popNext_none hq
          obtain ⟨rfl, rfl, rfl⟩ := h.of_ret
          refine ⟨{}, w', s.queue, _, [], (append_nil _).symm, ?_, .nil hs₂ hvisible rfl rfl, rfl,
            rfl, ?_, hvisible⟩
          · rw [hvisible]
            rfl
          · rw [append_nil]
      | some cmd =>
          have hn' : (q.visible dctx.fwMode dctx.syncMode).length ≤ n := by
            rw [ControllerQueue.popNext_visible hq, length_cons] at hn
            omega
          obtain ⟨_, w₃, now, rest, rfl, -, hnow, h⟩ := Walk.of_perform h
          cases now_world hnow
          have hs₃ : w₂.session = some { s with queue := q, nextSeq := s.nextSeq + .ofNat 0 } := by
            simpa using hs₂
          change Walk R tid _ (ite _ _ _) _ _ _ at h
          split at h
          · rename_i hexpired
            have hv : verdict dctx now cmd = .expired := by simp [verdict, hexpired]
            obtain ⟨_, w₄, _, rest, rfl, -, hpublish, h⟩ := Walk.of_perform h
            refine .cons [_] hv (by decide) hq rfl rfl rfl ?_
            rw [Verdict.keeps, append_nil]
            exact ih h ((publish_session hpublish).trans hs₃) hn'
          · rename_i hexpired
            split at h
            · rename_i hbarred
              have hv : verdict dctx now cmd = .barred := by simp [verdict, hexpired, hbarred]
              exact .cons [] hv (by decide) hq rfl rfl rfl (ih h hs₃ hn')
            · rename_i hbarred
              split at h
              · rename_i err hpayload
                have hv : verdict dctx now cmd = .invalid := by
                  simp [verdict, hexpired, hbarred, hpayload, Except.isOk, Except.toBool]
                obtain ⟨_, w₄, _, rest, rfl, -, hpublish, h⟩ := Walk.of_perform h
                refine .cons [_] hv (by decide) hq rfl rfl rfl ?_
                rw [Verdict.keeps, append_nil]
                exact ih h ((publish_session hpublish).trans hs₃) hn'
              · rename_i hpayload
                obtain ⟨w₄, seq, first, rest, rfl, hreadings, hreports, hframes, hs₄, h⟩ :=
                  commandSeq_walk h hs₂
                have hv := verdict_eq_encode hexpired hbarred (by rw [hpayload]; rfl) seq
                dsimp only at h
                split at h
                · rename_i err hencode
                  have hencode : encodeFrame (commandFrame cmd seq dctx.frameMode) = .error err :=
                    hencode
                  have hv : verdict dctx now cmd = .unencodable := by
                    rw [hv, hencode]
                    rfl
                  obtain ⟨_, w₅, _, rest, rfl, -, hpublish, h⟩ := Walk.of_perform h
                  rw [append_cons]
                  refine .cons (first ++ [_]) hv (by decide) hq ?_ ?_ ?_ ?_
                  · rw [reports_append, hreports]
                    rfl
                  · rw [frames_append, hframes]
                    rfl
                  · rw [readings_append, hreadings]
                    rfl
                  · rw [Verdict.keeps, append_nil]
                    exact ih h ((publish_session hpublish).trans hs₄) hn'
                · rename_i bytes hencode
                  have hv : verdict dctx now cmd = .ready := by
                    rw [hv, show encodeFrame (commandFrame cmd seq dctx.frameMode) = _ from hencode]
                    rfl
                  exact .of_ready first hv hq hreports hframes hreadings hs₄ hencode h

/-! ## The outer loop -/

/-- How a flush goes on after it has sent a command. -/
def afterSend (id : String) (conn : ConnID) (fuel : ℕ) (dctx : DeliveryContext) (remaining : Int)
    (skipped : List Command) : Deliver (Option Error) := do
  pushAll skipped
  match ← leaveSync dctx with
  | .error err => return some err
  | .ok dctx =>
      match ← leaveFW dctx with
      | .error err => return some err
      | .ok dctx => flushLoop id conn fuel dctx remaining

/-- How a flush goes on after a pass. -/
def afterPass (id : String) (conn : ConnID) (fuel : ℕ) : Pass → Deliver (Option Error)
  | .exit err => return err
  | .unsent skipped => do
      pushAll skipped
      return none
  | .sent dctx remaining skipped => afterSend id conn fuel dctx remaining skipped

/-- The outer loop drains the queue and passes over it. -/
theorem flushLoop_walk {fuel : ℕ} {x : Option Error}
    (h : Walk R tid w (flushLoop id conn (fuel + 1) dctx remaining) steps w' x)
    (hs : w.session = some s) (hpos : 0 < remaining) :
    ∃ t w₁ opening rest,
      steps = ⟨w, .now, t⟩ :: ⟨w, .drainExpired t, (s.queue.drainExpired t).1⟩ ::
        (opening ++ rest) ∧
      (∀ step ∈ opening, step.act.Tending) ∧ readings opening = [] ∧
      reports opening = (s.queue.drainExpired t).1.map (.expired, ·) ∧
      w₁.session = some { s with queue := (s.queue.drainExpired t).2 } ∧
      Walk R tid w₁ (scanQueue id conn dctx remaining (s.queue.drainExpired t).2.len [] >>=
        afterPass id conn fuel) rest w' x := by
  unfold flushLoop at h
  rw [if_neg (by omega)] at h
  obtain ⟨_, w₁, t, _, rfl, -, hnow, h⟩ := Walk.of_perform h
  cases now_world hnow
  obtain ⟨_, w₁, expired, _, rfl, -, hdrain, h⟩ := Walk.of_perform h
  obtain ⟨rfl, hs₁⟩ := drainExpired_session hs hdrain
  obtain ⟨w₂, _, published, _, rfl, hpublish, h⟩ := h.of_bind
  obtain ⟨hsession, hreports, hreadings⟩ := publishAllExpired_walk hpublish
  obtain ⟨_, w₃, scan, rest, rfl, -, hlen, h⟩ := Walk.of_perform h
  have hs₂ := hsession.trans hs₁
  cases hlen
  have hqueue : World.queue w₂ = (s.queue.drainExpired t).2 := queue_of_session hs₂
  rw [hqueue] at h
  refine ⟨t, w₂, published ++ [⟨w₂, .queueLen, (World.queue w₂).len⟩], rest, by simp, ?_, ?_, ?_,
    hs₂, ?_⟩
  · refine forall_mem_append.mpr ⟨hpublish.acts_of_only (publishAllExpired_only id _), ?_⟩
    simp [Act.Tending, Act.InRound, Act.InFlush]
  · rw [readings_append, hreadings]
    rfl
  · rw [reports_append, hreports]
    exact append_nil _
  · split at h
    · rename_i hempty
      rw [hempty]
      exact h
    · exact h

/-- A flush starts its outer loop if the controller is online and nothing is in flight. -/
theorem flushQueue_walk {x : Option Error} (h : Walk R tid w (flushQueue id) steps w' x)
    (hs : w.session = some s) :
    (s.conn = none ∧ steps = [⟨w, .deliveryContext, some s.deliveryContext⟩] ∧ w' = w) ∨
      (0 < w.slot.inFlightCount ∧ steps = [⟨w, .deliveryContext, some s.deliveryContext⟩,
        ⟨w, .inFlightCount, w.slot.inFlightCount⟩] ∧ w' = w) ∨
      ∃ conn rest, s.conn = some conn ∧ w.slot.inFlightCount = 0 ∧
        steps = ⟨w, .deliveryContext, some s.deliveryContext⟩ ::
          ⟨w, .inFlightCount, w.slot.inFlightCount⟩ :: rest ∧
        Walk R tid w (flushLoop id conn (maxBudget s.deliveryContext).toNat s.deliveryContext
          (maxBudget s.deliveryContext)) rest w' x := by
  obtain ⟨_, w₁, dctx, _, rfl, -, hctx, h⟩ := Walk.of_perform h
  obtain ⟨rfl, rfl⟩ := Prod.mk.inj (guarded_eq_some hctx)
  rw [hs] at h ⊢
  cases hconn : s.conn with
  | none =>
      have hdctx : s.deliveryContext.conn = none := hconn
      simp only [Option.map_some, hdctx] at h
      obtain ⟨rfl, rfl, -⟩ := h.of_ret
      exact .inl ⟨rfl, rfl, rfl⟩
  | some conn =>
      have hdctx : s.deliveryContext.conn = some conn := hconn
      simp only [Option.map_some, hdctx] at h
      obtain ⟨_, w₂, count, _, rfl, -, hcount, h⟩ := Walk.of_perform h
      obtain ⟨rfl, rfl⟩ := Prod.mk.inj (guarded_eq_some hcount)
      split at h
      · rename_i hbusy
        obtain ⟨rfl, rfl, -⟩ := h.of_ret
        exact .inr (.inl ⟨hbusy, rfl, rfl⟩)
      · rename_i hfree
        exact .inr (.inr ⟨conn, _, rfl, Nat.eq_zero_of_not_pos hfree, rfl, h⟩)

end pass

end TcpAdapter.Delivery
