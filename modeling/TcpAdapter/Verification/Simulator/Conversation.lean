import TcpAdapter.Concurrent.Call
import TcpAdapter.Verification.Protocol.AutoMode
import TcpAdapter.Verification.Protocol.Commands
import TcpAdapter.Verification.Simulator.Dialogue

/-! # Whole runs of a simulated controller

A connection goes from one stage to the next by the actions of one goroutine at a time, and what
has been sent over it and what has been acknowledged on it fits its stage. Hence the adapter can
read what a controller sends, and the acknowledgements in it answer the commands in turn. -/

namespace TcpAdapter.Simulator

open TcpAdapter.Concurrent TcpAdapter.Protocol TcpAdapter.Queue TcpAdapter.Manager TcpAdapter.Codec
open TcpAdapter.Policy

/-! ## Connections -/

/-- A connection as a run has left it. -/
structure Line where
  stage : Stage
  sent : List UInt8
  talk : Option Talk

def line (cfg : SimConfig) (w : World × List (Entry sig)) (conn : ConnID) : Line :=
  ⟨w.1.stage conn, w.1.sent conn, talkOf cfg conn w.2⟩

namespace Line

/-- The controller has registered on it. -/
def Open (l : Line) : Prop :=
  l.stage = .spawned ∨ ∃ tid, l.stage = .read tid

structure Stands (cfg : SimConfig) (imei : List UInt8) (l : Line) : Prop where
  sent : l.sent = [] ∨ Registered cfg imei l.sent
  unborn : l.stage = .unborn → l.sent = []
  opened : l.Open → Registered cfg imei l.sent
  quiet : (∀ tid, l.stage ≠ .read tid) → l.talk = some .quiet
  talk : l.talk.isSome

/-- What an action of a goroutine can do to a connection. -/
inductive Step (cfg : SimConfig) (imei : List UInt8) (tid : ℕ) : Line → Line → Prop where
  | idle (l : Line) : Step cfg imei tid l l
  | dial {l : Line} (hstage : l.stage = .unborn) :
      Step cfg imei tid l { l with stage := .dialed tid }
  | register {l : Line} {wire : List UInt8} (hstage : l.stage = .dialed tid) (hsent : l.sent = [])
      (hwire : encodeFrame (frameOf cfg (buildRegistrationPayload imei)) = .ok wire) :
      Step cfg imei tid l { l with sent := l.sent ++ wire }
  | spawn {l : Line} (hstage : l.stage = .dialed tid) (hsent : Registered cfg imei l.sent) :
      Step cfg imei tid l { l with stage := .spawned }
  | begin {l : Line} (hstage : l.stage = .spawned) :
      Step cfg imei tid l { l with stage := .read tid }
  | report {l : Line} {payload wire : List UInt8} (hopen : l.Open) (hreport : Report cfg payload)
      (hwire : encodeFrame (frameOf cfg payload) = .ok wire) :
      Step cfg imei tid l { l with sent := l.sent ++ wire }
  | answer {l : Line} {payload wire : List UInt8} {t : Talk} (hstage : l.stage = .read tid)
      (hreport : Report cfg payload) (hwire : encodeFrame (frameOf cfg payload) = .ok wire) :
      Step cfg imei tid l { l with sent := l.sent ++ wire, talk := some t }
  | hear {l : Line} {t : Talk} (hstage : l.stage = .read tid) :
      Step cfg imei tid l { l with talk := some t }

variable {cfg : SimConfig} {imei : List UInt8} {tid : ℕ} {l l' : Line}

theorem Step.stands (h : Step cfg imei tid l l') (hl : l.Stands cfg imei) :
    l'.Stands cfg imei := by
  obtain ⟨hsent, hunborn, hopened, hquiet, htalk⟩ := hl
  cases h with
  | idle => exact ⟨hsent, hunborn, hopened, hquiet, htalk⟩
  | dial hstage =>
      refine ⟨hsent, by simp, by simp [Open], fun _ => hquiet ?_, htalk⟩
      simp [hstage]
  | @register wire hstage hempty hwire =>
      have hreg : Registered cfg imei (l.sent ++ wire) := by
        rw [hempty]
        exact registered_first hwire
      exact ⟨.inr hreg, by simp [hstage], fun _ => hreg, hquiet, htalk⟩
  | spawn hstage hreg =>
      refine ⟨hsent, by simp, fun _ => hreg, fun _ => hquiet ?_, htalk⟩
      simp [hstage]
  | begin hstage =>
      exact ⟨hsent, by simp, fun _ => hopened (.inl hstage), by simp, htalk⟩
  | report hopen hreport hwire =>
      have hreg := (hopened hopen).append hreport hwire
      refine ⟨.inr hreg, fun hstage => ?_, fun _ => hreg, hquiet, htalk⟩
      obtain h | ⟨tid, h⟩ := hopen <;> simp [h] at hstage
  | answer hstage hreport hwire =>
      have hreg := (hopened (.inr ⟨tid, hstage⟩)).append hreport hwire
      exact ⟨.inr hreg, by simp [hstage], fun _ => hreg, fun h => absurd hstage (h tid), rfl⟩
  | hear hstage =>
      exact ⟨hsent, hunborn, hopened, fun h => absurd hstage (h tid), rfl⟩

end Line

/-! ## What a goroutine knows about its connection -/

def Phase.Holds (cfg : SimConfig) (imei : List UInt8) (tid : ℕ) : Phase → Line → Prop
  | dialed, l => l.stage = .dialed tid ∧ l.sent = []
  | registered, l => l.stage = .dialed tid ∧ Registered cfg imei l.sent
  | reporting, l => l.Open
  | reading t, l => l.stage = .read tid ∧ l.talk = some t

def Knowledge.Holds (cfg : SimConfig) (imei : List UInt8) (tid : ℕ) (lines : ConnID → Line) :
    Knowledge → Prop
  | some (conn, phase) => phase.Holds cfg imei tid (lines conn)
  | none => True

section holds

variable {cfg : SimConfig} {imei : List UInt8} {tid other : ℕ} {l l' : Line}

theorem Line.Step.open (h : Line.Step cfg imei tid l l') (hl : l.Open) : l'.Open := by
  cases h with
  | dial hstage | register hstage | spawn hstage =>
      obtain h | ⟨_, h⟩ := hl <;> simp [h] at hstage
  | begin => exact .inr ⟨tid, rfl⟩
  | _ => exact hl

/-- What another goroutine knows stays true. -/
theorem Line.Step.others (h : Line.Step cfg imei tid l l') (hne : other ≠ tid) {phase : Phase}
    (hl : phase.Holds cfg imei other l) : phase.Holds cfg imei other l' := by
  cases phase with
  | reporting => exact h.open hl
  | dialed | registered =>
      -- the stage names the goroutine, and a step of `tid` asks for its own name in it
      have hother := hl.1
      cases h with
      | idle => exact hl
      | report hopen => obtain h | ⟨_, h⟩ := hopen <;> simp [h] at hother
      | dial hstage | register hstage | spawn hstage | begin hstage | answer hstage | hear hstage =>
          simp [hstage, hne.symm] at hother
  | reading t =>
      have hother := hl.1
      cases h with
      | idle | report => exact hl
      | dial hstage | register hstage | spawn hstage | begin hstage | answer hstage | hear hstage =>
          simp [hstage, hne.symm] at hother

end holds

/-! ## The world -/

structure Sound (cfg : SimConfig) (imei : List UInt8) (w : World × List (Entry sig)) : Prop where
  buffer : w.1.state.bufferFree = cfg.bufferFree
  fresh : ∀ conn, w.1.dialed ≤ conn → w.1.stage conn = .unborn
  lines : ∀ conn, (line cfg w conn).Stands cfg imei

/-- What comes of an action, for the goroutine and for the connections. -/
structure Advances (cfg : SimConfig) (imei : List UInt8) (tid : ℕ) (w w' : World × List (Entry sig))
    (v' : Knowledge) : Prop where
  buffer : w'.1.state.bufferFree = w.1.state.bufferFree
  fresh : ∀ conn, w'.1.dialed ≤ conn → w'.1.stage conn = .unborn
  step : ∀ conn, Line.Step cfg imei tid (line cfg w conn) (line cfg w' conn)
  holds : v'.Holds cfg imei tid (line cfg w')

section world

variable {cfg : SimConfig} {imei : List UInt8} {tid other : ℕ} {conn : ConnID} {v : Knowledge}
  {w w' : World × List (Entry sig)} {a : Act} {r : a.Res} {inp : Input}
  {trace : List (Entry sig)} {W W' : World}

theorem Advances.sound (h : Advances cfg imei tid w w' v) (hw : Sound cfg imei w) :
    Sound cfg imei w' :=
  ⟨h.buffer.trans hw.buffer, h.fresh, fun conn => (h.step conn).stands (hw.lines conn)⟩

theorem Advances.others (h : Advances cfg imei tid w w' v) (hne : other ≠ tid) {u : Knowledge}
    (hu : u.Holds cfg imei other (line cfg w)) : u.Holds cfg imei other (line cfg w') := by
  rcases u with _ | ⟨conn, phase⟩
  · trivial
  · exact (h.step conn).others hne hu

/-- An action that no connection sees. -/
structure Still (W W' : World) : Prop where
  buffer : W'.state.bufferFree = W.state.bufferFree
  dialed : W'.dialed = W.dialed
  stage : W'.stage = W.stage
  sent : W'.sent = W.sent

theorem Still.refl (W : World) : Still W W :=
  ⟨rfl, rfl, rfl, rfl⟩

theorem talkOf_same (h : ∀ t : Talk, t.after cfg conn a r = some t) :
    talkOf cfg conn (.did tid a r :: trace) = talkOf cfg conn trace := by
  simp [talkOf, h]

theorem Still.advances (hw : Sound cfg imei (W, trace))
    (hv : v.Holds cfg imei tid (line cfg (W, trace))) (h : Still W W')
    (hsilent : ∀ conn, ∀ t : Talk, t.after cfg conn a r = some t) :
    Advances cfg imei tid (W, trace) (W', .did tid a r :: trace) v := by
  have hline : line cfg (W', .did tid a r :: trace) = line cfg (W, trace) := by
    funext conn
    simp only [line, h.stage, h.sent, talkOf_same (hsilent conn)]
  refine ⟨h.buffer, fun conn hconn => ?_, fun conn => hline ▸ .idle _, hline ▸ hv⟩
  rw [h.stage]
  exact hw.fresh conn (h.dialed ▸ hconn)

/-- An action that only one connection sees. -/
theorem advances_one
    (hother : ∀ c, c ≠ conn → line cfg (W', .did tid a r :: trace) c = line cfg (W, trace) c)
    (hbuffer : W'.state.bufferFree = W.state.bufferFree)
    (hfresh : ∀ conn, W'.dialed ≤ conn → W'.stage conn = .unborn)
    (hstep : Line.Step cfg imei tid (line cfg (W, trace) conn)
      (line cfg (W', .did tid a r :: trace) conn))
    {phase : Phase}
    (hphase : phase.Holds cfg imei tid (line cfg (W', .did tid a r :: trace) conn)) :
    Advances cfg imei tid (W, trace) (W', .did tid a r :: trace) (some (conn, phase)) := by
  refine ⟨hbuffer, hfresh, fun c => ?_, hphase⟩
  by_cases hc : c = conn
  · subst hc
    exact hstep
  · rw [hother c hc]
    exact .idle _

/-- An action that takes a connection to its next stage. -/
structure Staged (conn : ConnID) (s : Stage) (W W' : World) : Prop where
  buffer : W'.state.bufferFree = W.state.bufferFree
  dialed : W.dialed ≤ W'.dialed
  known : conn < W'.dialed
  stage : W'.stage = Function.update W.stage conn s
  sent : W'.sent = W.sent

theorem Staged.advances {s : Stage} {phase : Phase} (hw : Sound cfg imei (W, trace))
    (h : Staged conn s W W') (hsilent : ∀ conn, ∀ t : Talk, t.after cfg conn a r = some t)
    (hstep : Line.Step cfg imei tid (line cfg (W, trace) conn)
      { line cfg (W, trace) conn with stage := s })
    (hphase : phase.Holds cfg imei tid { line cfg (W, trace) conn with stage := s }) :
    Advances cfg imei tid (W, trace) (W', .did tid a r :: trace) (some (conn, phase)) := by
  have hline : line cfg (W', .did tid a r :: trace) conn =
      { line cfg (W, trace) conn with stage := s } := by
    simp only [line, h.stage, h.sent, talkOf_same (hsilent conn), Function.update_self]
  refine advances_one (fun c hc => ?_) h.buffer (fun c hc => ?_) (hline ▸ hstep) (hline ▸ hphase)
  · simp only [line, h.stage, h.sent, talkOf_same (hsilent c), Function.update_of_ne hc]
  · have hne : c ≠ conn := by
      rintro rfl
      exact absurd h.known (Nat.not_lt.mpr hc)
    rw [h.stage, Function.update_of_ne hne]
    exact hw.fresh c (h.dialed.trans hc)

/-- A connection that has a stage has been dialed. -/
theorem Sound.known (hw : Sound cfg imei (W, trace)) (h : W.stage conn ≠ .unborn) :
    conn < W.dialed := by
  by_contra hlt
  exact h (hw.fresh conn (Nat.not_lt.mp hlt))

/-! ### The actions one by one -/

theorem dial_advances {res : Option ConnID} (hw : Sound cfg imei (W, trace))
    (hv : v.Holds cfg imei tid (line cfg (W, trace))) (h : exec tid W .dial inp = some (W', res)) :
    Advances cfg imei tid (W, trace) (W', .did tid .dial res :: trace) (v.after cfg .dial res) := by
  simp only [exec] at h
  split at h
  · obtain ⟨rfl, rfl⟩ := Prod.mk.inj (Option.some.inj h)
    have hstage : (line cfg (W, trace) W.dialed).stage = .unborn := hw.fresh _ (Nat.le_refl _)
    have hstaged : Staged W.dialed (.dialed tid) W
        { W.setStage W.dialed (.dialed tid) with dialed := W.dialed + 1 } :=
      ⟨rfl, Nat.le_succ _, Nat.lt_succ_self _, rfl, rfl⟩
    exact hstaged.advances hw (fun _ _ => rfl) (.dial hstage)
      ⟨rfl, (hw.lines W.dialed).unborn hstage⟩
  · obtain ⟨rfl, rfl⟩ := Prod.mk.inj (Option.some.inj h)
    rw [after_dial_failed]
    exact (Still.refl W).advances hw hv fun _ _ => rfl

theorem spawn_advances (hw : Sound cfg imei (W, trace))
    (hv : v.Holds cfg imei tid (line cfg (W, trace))) (hmay : v = some (conn, .registered)) :
    Advances cfg imei tid (W, trace) (W.setStage conn .spawned, .did tid (.spawn conn) () :: trace)
      (v.after cfg (.spawn conn) ()) := by
  subst hmay
  obtain ⟨hstage, hsent⟩ := hv
  have hknown : conn < W.dialed := hw.known (by
    rw [show W.stage conn = _ from hstage]
    simp)
  have hstaged : Staged conn .spawned W (W.setStage conn .spawned) :=
    ⟨rfl, Nat.le_refl _, hknown, rfl, rfl⟩
  exact hstaged.advances hw (fun _ _ => rfl) (.spawn hstage hsent) (.inl rfl)

theorem begin_advances (hw : Sound cfg imei (W, trace)) (hstage : W.stage conn = .spawned) :
    Advances cfg imei tid (W, trace)
      (W.setStage conn (.read tid), .did tid (.begin conn) () :: trace)
      (v.after cfg (.begin conn) ()) := by
  have hknown : conn < W.dialed := hw.known (by simp [hstage])
  have hstaged : Staged conn (.read tid) W (W.setStage conn (.read tid)) :=
    ⟨rfl, Nat.le_refl _, hknown, rfl, rfl⟩
  have hquiet : (line cfg (W, trace) conn).talk = some .quiet :=
    (hw.lines conn).quiet (by simp [line, hstage])
  exact hstaged.advances hw (fun _ _ => rfl) (.begin hstage) ⟨rfl, hquiet⟩

theorem line_write {wire : List UInt8} :
    line cfg ({ W with sent := Function.update W.sent conn (W.sent conn ++ wire) },
        .did tid (.write conn wire) none :: trace) conn =
      { stage := W.stage conn
        sent := W.sent conn ++ wire
        talk := (talkOf cfg conn trace).bind fun t =>
          t.after cfg conn (.write conn wire) none } := by
  simp only [line, Function.update_self, talkOf]

/-- A frame that is no acknowledgement. -/
theorem line_write_other {wire : List UInt8} (hack : ackOf cfg wire = none) :
    line cfg ({ W with sent := Function.update W.sent conn (W.sent conn ++ wire) },
        .did tid (.write conn wire) none :: trace) conn =
      { line cfg (W, trace) conn with sent := W.sent conn ++ wire } := by
  rw [line_write]
  simp [line, Talk.after, hack]

theorem write_advances (hmode : cfg.frameMode ≠ .auto) {wire : List UInt8}
    (hw : Sound cfg imei (W, trace)) (hv : v.Holds cfg imei tid (line cfg (W, trace)))
    (hmay : v.MayWrite cfg imei conn wire) :
    Advances cfg imei tid (W, trace)
      ({ W with sent := Function.update W.sent conn (W.sent conn ++ wire) },
        .did tid (.write conn wire) none :: trace)
      (v.after cfg (.write conn wire) none) := by
  have hother : ∀ c, c ≠ conn →
      line cfg ({ W with sent := Function.update W.sent conn (W.sent conn ++ wire) },
        .did tid (.write conn wire) none :: trace) c = line cfg (W, trace) c := by
    intro c hc
    have hsame : talkOf cfg c (.did tid (.write conn wire) none :: trace) = talkOf cfg c trace :=
      talkOf_same fun t => if_neg hc.symm
    simp only [line, Function.update_of_ne hc, hsame]
  rcases v with _ | ⟨c, _ | _ | _ | t⟩
  · exact hmay.elim
  · -- the registration
    obtain ⟨rfl, hwire⟩ := hmay
    have hack : ackOf cfg wire = none := ackOf_other hmode (by decide) hwire
    refine advances_one hother rfl hw.fresh ?_ ?_
    · rw [line_write_other hack]
      exact .register hv.1 hv.2 hwire
    · rw [line_write_other hack]
      refine ⟨hv.1, ?_⟩
      change Registered cfg imei (W.sent c ++ wire)
      rw [show W.sent c = [] from hv.2]
      exact registered_first hwire
  · exact hmay.elim
  · -- a status, while another goroutine may be at an acknowledgement
    obtain ⟨rfl, unix, hwire⟩ := hmay
    have hack : ackOf cfg wire = none := ackOf_other hmode (by decide) hwire
    refine advances_one hother rfl hw.fresh ?_ ?_
    · rw [line_write_other hack]
      exact .report hv (.status unix) hwire
    · rw [line_write_other hack]
      exact hv
  · -- an acknowledgement, which moves the dialogue on
    obtain ⟨rfl, seq, code, unix, hwire, hsaid⟩ := hmay
    obtain ⟨t', hsaid⟩ := Option.isSome_iff_exists.mp hsaid
    have htalk : talkOf cfg c trace = some t := hv.2
    have hafter : t.after cfg c (.write c wire) none = some t' := by
      simp only [Talk.after, if_true, ackOf_ack hmode hwire, hsaid]
    have hline : line cfg ({ W with sent := Function.update W.sent c (W.sent c ++ wire) },
        .did tid (.write c wire) none :: trace) c =
          { line cfg (W, trace) c with sent := W.sent c ++ wire, talk := some t' } := by
      rw [line_write, htalk]
      simp only [Option.bind_some, hafter, line]
    have hknows : Knowledge.after cfg (some (c, .reading t)) (.write c wire) none =
        some (c, .reading t') := by
      simp only [Knowledge.after, hafter, Option.getD_some]
    rw [hknows]
    refine advances_one hother rfl hw.fresh ?_ ?_
    · rw [hline]
      exact .answer hv.1 (.ack seq code unix) hwire
    · rw [hline]
      exact ⟨hv.1, rfl⟩

theorem read_advances {res : Except ReadError Frame} {unread : ConnID → List UInt8}
    (hw : Sound cfg imei (W, trace)) (hv : v.Holds cfg imei tid (line cfg (W, trace)))
    (hmay : v.May cfg imei (.readFrame conn)) :
    Advances cfg imei tid (W, trace)
      ({ W with unread := unread }, .did tid (.readFrame conn) res :: trace)
      (v.after cfg (.readFrame conn) res) := by
  obtain ⟨t, rfl, ht⟩ := hmay
  have hstill : Still W { W with unread := unread } := ⟨rfl, rfl, rfl, rfl⟩
  rcases res with err | frame
  · exact hstill.advances hw hv fun _ _ => rfl
  by_cases hasks : asksForAnswer frame = true
  · have hafter : t.after cfg conn (.readFrame conn) (.ok frame) = some (.asked frame.seq) := by
      simp only [Talk.after, hasks, and_self, if_true]
      obtain rfl | ⟨seq, rfl⟩ := ht <;> rfl
    have hline : line cfg ({ W with unread := unread },
        .did tid (.readFrame conn) (.ok frame) :: trace) conn =
          { line cfg (W, trace) conn with talk := some (.asked frame.seq) } := by
      have htalk : talkOf cfg conn trace = some t := hv.2
      simp only [line, talkOf, htalk, Option.bind_some, hafter]
    have hknows : Knowledge.after cfg (some (conn, .reading t)) (.readFrame conn) (.ok frame) =
        some (conn, .reading (.asked frame.seq)) := by
      simp only [Knowledge.after, hafter, Option.getD_some]
    have hother : ∀ c, c ≠ conn → line cfg ({ W with unread := unread },
        .did tid (.readFrame conn) (.ok frame) :: trace) c = line cfg (W, trace) c := by
      intro c hc
      have hsame : talkOf cfg c (.did tid (.readFrame conn) (.ok frame) :: trace) =
          talkOf cfg c trace := talkOf_same fun t => if_neg fun h => hc h.1.symm
      simp only [line, hsame]
    rw [hknows]
    refine advances_one hother rfl hw.fresh ?_ ?_
    · rw [hline]
      exact .hear hv.1
    · rw [hline]
      exact ⟨hv.1, rfl⟩
  · have hsilent : ∀ c, ∀ t : Talk, t.after cfg c (.readFrame conn) (.ok frame) = some t :=
      fun c t => if_neg fun h => hasks h.2
    have hknows : Knowledge.after cfg (some (conn, .reading t)) (.readFrame conn) (.ok frame) =
        some (conn, .reading t) := by
      simp only [Knowledge.after, hsilent conn, Option.getD_some]
    rw [hknows]
    exact hstill.advances hw hv hsilent

theorem applyTriggerPayload_bufferFree {s s' : ControllerState} {payload : List UInt8}
    (h : s.applyTriggerPayload payload = .ok s') : s'.bufferFree = s.bufferFree := by
  unfold ControllerState.applyTriggerPayload at h
  cases hvalid : validateServerCommandPayload 5 payload with
  | error err =>
      rw [hvalid] at h
      cases h
  | ok =>
      rw [hvalid] at h
      cases h
      rfl

theorem exec_still (ha : a.Aside) (h : exec tid W a inp = some (W', r)) : Still W W' := by
  cases a with
  | applyTriggerPayload payload =>
      simp only [exec] at h
      split at h
      · cases h
        exact .refl W
      · rename_i s hs
        cases h
        exact ⟨applyTriggerPayload_bufferFree hs, rfl, rfl, rfl⟩
  | select conn =>
      simp only [exec, execSelect] at h
      split at h
      · cases h
        exact .refl W
      split at h
      · cases h
        exact .refl W
      split at h
      · cases h
      · cases h
        exact ⟨rfl, rfl, rfl, rfl⟩
  | dial | close | write | spawn | begin | readFrame => cases ha
  | spin => cases h
  | _ =>
      cases h
      exact ⟨rfl, rfl, rfl, rfl⟩

theorem aside_silent (ha : a.Aside) (t : Talk) : t.after cfg conn a r = some t := by
  cases a <;> first | rfl | cases ha

theorem aside_advances (ha : a.Aside) (hw : Sound cfg imei (W, trace))
    (hv : v.Holds cfg imei tid (line cfg (W, trace))) (h : exec tid W a inp = some (W', r)) :
    Advances cfg imei tid (W, trace) (W', .did tid a r :: trace) (v.after cfg a r) := by
  rw [aside_after ha]
  exact (exec_still ha h).advances hw hv fun _ => aside_silent ha

theorem exec_answers (hbuffer : W.state.bufferFree = cfg.bufferFree)
    (h : exec tid W a inp = some (W', r)) : Knowledge.Answers cfg a r := by
  cases a with
  | bufferFree =>
      cases h
      exact hbuffer
  | _ => trivial

/-- Every action takes the connections a step further and leaves the goroutine with what it has
got to know. -/
theorem exec_advances (hmode : cfg.frameMode ≠ .auto) (hw : Sound cfg imei (W, trace))
    (hv : v.Holds cfg imei tid (line cfg (W, trace))) (hwhole : inp.written = 0)
    (hmay : v.May cfg imei a) (h : exec tid W a inp = some (W', r)) :
    Advances cfg imei tid (W, trace) (W', .did tid a r :: trace) (v.after cfg a r) := by
  cases a with
  | dial => exact dial_advances hw hv h
  | spawn conn =>
      cases h
      exact spawn_advances hw hv hmay
  | begin conn =>
      simp only [exec] at h
      split at h
      · rename_i hstage
        cases h
        exact begin_advances hw hstage
      · cases h
  | close conn =>
      cases h
      refine ⟨rfl, hw.fresh, fun c => ?_, ?_⟩
      · have hline : line cfg ({ W with closed := Function.update W.closed conn true },
            .did tid (.close conn) () :: trace) c = line cfg (W, trace) c := by
          have hsame : talkOf cfg c (.did tid (.close conn) () :: trace) = talkOf cfg c trace :=
            talkOf_same fun _ => rfl
          simp only [line, hsame]
        rw [hline]
        exact .idle _
      · trivial
  | readFrame conn =>
      simp only [exec, execRead] at h
      split at h
      · cases h
      · cases h
        exact read_advances hw hv hmay
  | write conn wire =>
      have hfailed : ∀ err, Still W W' → r = some err →
          Advances cfg imei tid (W, trace) (W', .did tid (.write conn wire) r :: trace)
            (v.after cfg (.write conn wire) r) := by
        rintro err hstill rfl
        rw [after_write_failed]
        exact hstill.advances hw hv fun _ _ => rfl
      simp only [exec, execWrite] at h
      split at h
      · cases h
        exact hfailed _ (.refl W) rfl
      split at h
      · cases h
        exact write_advances hmode hw hv hmay
      · -- the part of the frame that has gone out is empty
        cases h
        refine hfailed _ ⟨rfl, rfl, rfl, ?_⟩ rfl
        simp [hwhole]
  | _ => exact aside_advances trivial hw hv h

end world

/-! ## The runs -/

def World.initial (cfg : SimConfig) : World :=
  { state := newControllerState cfg.bufferFree }

/-- A write that fails has sent nothing. -/
abbrev wholeFrames (cfg : SimConfig) (imei : List UInt8) : Rules (machine cfg imei) where
  start _ _ _ := True
  act _ _ _ inp := inp.written = 0
  crash _ := False

section runs

variable {cfg : SimConfig} {imei : List UInt8}

theorem sound_initial : Sound cfg imei (World.initial cfg, []) where
  buffer := rfl
  fresh _ _ := rfl
  lines _ := ⟨.inl rfl, fun _ => rfl, by simp [Line.Open, line, World.initial], fun _ => rfl, rfl⟩

/-- The goroutines know the connections that they work on. -/
def conversations (hmode : cfg.frameMode ≠ .auto) :
    Discipline (machine cfg imei).traced (wholeFrames cfg imei).traced (World.initial cfg, [])
      Knowledge where
  protocol := Knowledge.protocol cfg imei
  knows tid w v := v.Holds cfg imei tid (line cfg w)
  idle := Knowledge.Resting
  inv := Sound cfg imei
  init := ⟨sound_initial, fun _ => ⟨none, trivial, trivial⟩⟩
  start _ _ hidle _ := prog_respects hmode _ hidle
  act := by
    rintro ⟨W, trace⟩ tid a inp ⟨W', trace'⟩ r v hw hv hwhole hmay he
    obtain ⟨he, rfl⟩ := exec_of_traced he
    have hadv := exec_advances hmode hw hv hwhole hmay he
    exact ⟨hadv.sound hw, ⟨_, ⟨rfl, exec_answers hw.buffer he⟩, hadv.holds⟩,
      fun other hne u hu => hadv.others hne hu⟩
  crash _ hc := hc.elim

end runs

/-! ## Acknowledgements -/

/-- The number of the last command on a connection, with the codes of the acknowledgements that
have gone out since. -/
abbrev Answered := Option (UInt8 × List UInt8)

def Answered.after (cfg : SimConfig) (conn : ConnID) (p : Answered) : (a : Act) → a.Res → Answered
  | .readFrame c, .ok frame => if c = conn ∧ asksForAnswer frame then some (frame.seq, []) else p
  | .write c wire, none =>
      if c = conn then
        match ackOf cfg wire with
        | some (_, code) => p.map fun p => (p.1, p.2 ++ [code])
        | none => p
      else p
  | _, _ => p

def answered (cfg : SimConfig) (conn : ConnID) : List (Entry sig) → Answered
  | [] | .crashed :: _ => none
  | .did _ a r :: older => (answered cfg conn older).after cfg conn a r

/-- An acknowledgement answers the last command on its connection, which has had none before or
only the one that says that the controller has started on it. A command is read only while no
restart is under way. -/
def InTurn (cfg : SimConfig) (conn : ConnID) : Entry sig → List (Entry sig) → Prop
  | .did _ (.write c wire) none, older => c = conn → ∀ seq code, ackOf cfg wire = some (seq, code) →
      ∃ codes, answered cfg conn older = some (seq, codes) ∧
        (codes = [] ∨ codes = [ackCodeStarted] ∧ code ≠ ackCodeStarted)
  | .did _ (.readFrame c) (.ok frame), older => c = conn → asksForAnswer frame = true →
      ∀ seq codes, answered cfg conn older = some (seq, codes) → ackCodeStarted ∉ codes
  | _, _ => True

/-- What the state of the dialogue says about the acknowledgements. -/
def Talk.Fits : Talk → Answered → Prop
  | quiet, p => ∀ seq codes, p = some (seq, codes) → ackCodeStarted ∉ codes
  | asked seq, p => p = some (seq, [])
  | started seq, p => p = some (seq, [ackCodeStarted])
  | ended, _ => True

section turns

variable {cfg : SimConfig} {conn : ConnID} {t t' : Talk} {p : Answered} {a : Act} {r : a.Res}
  {seq code : UInt8}

theorem Talk.Fits.said (h : t.Fits p) (hsaid : t.said seq code = some t') :
    t'.Fits (p.map fun p => (p.1, p.2 ++ [code])) := by
  cases t with
  | quiet | ended => cases hsaid
  | asked n =>
      obtain rfl : p = some (n, []) := h
      simp only [Talk.said] at hsaid
      split at hsaid
      · by_cases hcode : code = ackCodeStarted
        · simp only [if_pos hcode, Option.some.injEq] at hsaid
          subst hsaid hcode
          rfl
        · simp only [if_neg hcode, Option.some.injEq] at hsaid
          subst hsaid
          simp [Talk.Fits, Ne.symm hcode]
      · cases hsaid
  | started n =>
      simp only [Talk.said] at hsaid
      split at hsaid
      · cases hsaid
        trivial
      · cases hsaid

theorem Talk.Fits.after (h : t.Fits p) (hafter : t.after cfg conn a r = some t') :
    t'.Fits (p.after cfg conn a r) := by
  cases a with
  | readFrame c =>
      rcases r with err | frame
      · obtain rfl : t = t' := Option.some.inj hafter
        exact h
      simp only [Talk.after] at hafter
      simp only [Answered.after]
      split at hafter
      · rename_i hc
        rw [if_pos hc]
        cases t with
        | quiet | asked =>
            cases hafter
            rfl
        | started | ended => cases hafter
      · rename_i hc
        rw [if_neg hc]
        cases hafter
        exact h
  | write c wire =>
      rcases r with _ | err
      swap
      · obtain rfl : t = t' := Option.some.inj hafter
        exact h
      simp only [Talk.after] at hafter
      simp only [Answered.after]
      split at hafter
      · rename_i hc
        rw [if_pos hc]
        cases hack : ackOf cfg wire with
        | none =>
            simp only [hack] at hafter
            cases hafter
            exact h
        | some ack =>
            simp only [hack] at hafter
            exact h.said hafter
      · rename_i hc
        rw [if_neg hc]
        cases hafter
        exact h
  | _ =>
      obtain rfl : t = t' := Option.some.inj hafter
      exact h

theorem fits_answered {trace : List (Entry sig)} (h : talkOf cfg conn trace = some t) :
    t.Fits (answered cfg conn trace) := by
  induction trace generalizing t with
  | nil =>
      cases h
      simp [Talk.Fits, answered]
  | cons e older ih =>
      cases e with
      | crashed =>
          obtain ⟨t', -, rfl⟩ := Option.map_eq_some_iff.mp h
          simp [Talk.Fits, answered]
      | did tid a r =>
          obtain ⟨t', ht', hafter⟩ := Option.bind_eq_some_iff.mp h
          exact (ih ht').after hafter

/-- The next entry is in turn if the dialogue can take it. -/
theorem Talk.Fits.inTurn {older : List (Entry sig)} {tid : ℕ}
    (h : t.Fits (answered cfg conn older)) (hafter : t.after cfg conn a r = some t') :
    InTurn cfg conn (.did tid a r) older := by
  cases a with
  | readFrame c =>
      rcases r with err | frame
      · trivial
      rintro rfl hasks seq codes hlast
      simp only [Talk.after, hasks, and_self, if_true] at hafter
      cases t with
      | quiet => exact h seq codes hlast
      | asked n =>
          rw [show answered cfg c older = _ from h] at hlast
          cases hlast
          simp
      | started | ended => cases hafter
  | write c wire =>
      rcases r with _ | err
      swap
      · trivial
      rintro rfl seq code hack
      simp only [Talk.after, if_true, hack] at hafter
      cases t with
      | quiet | ended => cases hafter
      | asked n =>
          simp only [Talk.said] at hafter
          split at hafter
          · rename_i hn
            subst hn
            exact ⟨[], h, .inl rfl⟩
          · cases hafter
      | started n =>
          simp only [Talk.said] at hafter
          split at hafter
          · rename_i hn
            obtain ⟨rfl, hcode⟩ := hn
            exact ⟨_, h, .inr ⟨rfl, hcode⟩⟩
          · cases hafter
  | _ => trivial

theorem each_inTurn {trace : List (Entry sig)} (h : (talkOf cfg conn trace).isSome) :
    Each (InTurn cfg conn) trace := by
  induction trace with
  | nil => trivial
  | cons e older ih =>
      obtain ⟨t, ht⟩ := Option.isSome_iff_exists.mp h
      cases e with
      | crashed =>
          obtain ⟨t', ht', -⟩ := Option.map_eq_some_iff.mp ht
          exact ⟨trivial, ih (ht' ▸ rfl)⟩
      | did tid a r =>
          obtain ⟨t', ht', hafter⟩ := Option.bind_eq_some_iff.mp ht
          exact ⟨(fits_answered ht').inTurn hafter, ih (ht' ▸ rfl)⟩

end turns

section results

variable {cfg : SimConfig} {imei : List UInt8} {c : Concurrent.Config (machine cfg imei).traced}

/-- Whatever the goroutines of a simulated controller do, every acknowledgement answers the last
command that was read on its connection, a command has at most one final acknowledgement, and no
command is read while the controller restarts. -/
theorem acknowledgements_in_turn (hmode : cfg.frameMode ≠ .auto)
    (h : Reachable (wholeFrames cfg imei).traced (World.initial cfg, []) c) (conn : ConnID) :
    Each (InTurn cfg conn) c.world.2 :=
  each_inTurn (((conversations hmode).sound h).1.lines conn).talk

/-- The controller registers, is told to reboot as number 200 and reports in between. -/
def reboots : List (Label (machine {} (List.replicate 15 0x37)).traced) :=
  List.map Label.traced
    ([.start 1 (.run 2 1)] ++ List.replicate 4 (.run 1 {}) ++ [.start 2 (.read 0 1)] ++
      List.replicate 5 (.run 2 { bytes := wire [255, 200, 2, 1] }) ++
      List.replicate 4 (.run 1 {}) ++ List.replicate 20 (.run 2 {}))

-- Irreducible, so that only the kernel runs the schedule.
@[irreducible] def rebooted : Concurrent.Config (machine {} (List.replicate 15 0x37)).traced :=
  Concurrent.Config.run (wholeFrames {} (List.replicate 15 0x37)).traced
    (.initial (World.initial {}, [])) reboots

theorem rebooted_reachable :
    Reachable (wholeFrames {} (List.replicate 15 0x37)).traced (World.initial {}, []) rebooted := by
  unfold rebooted
  exact Reachable.initial.run reboots

theorem reboot_acknowledged_in_turn :
    answered {} 0 rebooted.world.2 = some (200, [ackCodeStarted, ackCodeOK]) ∧
      Each (InTurn {} 0) rebooted.world.2 := by
  have hturn := acknowledgements_in_turn (by decide) rebooted_reachable 0
  exact ⟨by decide +kernel, hturn⟩

/-- What a report says about the buffer, as the adapter reads it. -/
def Reports (cfg : SimConfig) (payload : List UInt8) : Prop :=
  (∃ status, parseStatus1Payload payload = .ok status ∧
    status.bufferFree = cfg.bufferFree.toNat) ∨
  ∃ ack, parseAck11Payload payload = .ok ack ∧ ack.bufferFreeBytes = cfg.bufferFree.toNat

theorem Report.reports {payload : List UInt8} (h : Report cfg payload) : Reports cfg payload := by
  cases h with
  | status unix =>
      obtain ⟨time, hparse⟩ := parse_buildStatus1Payload cfg.bufferFree unix
      exact .inl ⟨_, hparse, rfl⟩
  | ack seq code unix =>
      obtain ⟨time, hparse⟩ := parse_buildAck11Payload seq code cfg.bufferFree unix
      exact .inr ⟨_, hparse, rfl⟩

theorem Told.reads {reports : List (List UInt8)} {bytes : List UInt8} {reg : Registration}
    (h : Told cfg imei reports bytes) (hmode : cfg.frameMode ≠ .auto)
    (hreg : parseRegistrationPayload (buildRegistrationPayload imei) = .ok reg) (ended : ReadError)
    (suffix : List UInt8) :
    ∃ rest,
      readFrameWithMode ended .auto (bytes ++ suffix) =
        (.ok (frameOf cfg (buildRegistrationPayload imei)).received, rest) ∧
      readMany (readFrameWithMode ended cfg.frameMode) reports.length rest =
        (.ok ((reports.map (frameOf cfg)).map Frame.received), suffix) := by
  obtain ⟨-, first, wires, hfirst, hwires, rfl⟩ := h
  obtain ⟨-, hlen, rfl⟩ := encodeFrame_eq_ok_iff.mp hfirst
  have hread : Reads (readFrameWithMode ended .auto) _
      (frameOf cfg (buildRegistrationPayload imei)).received :=
    reads_wire hlen (decodeData_registration hmode hreg)
  refine ⟨wires.flatten ++ suffix, ?_, ?_⟩
  · rw [List.append_assoc]
    exact hread _
  · have hmany : readMany (readFrameWithMode ended cfg.frameMode) _ _ = _ :=
      hwires.readMany hmode (by simp [frameOf]) suffix
    rwa [List.length_map] at hmany

/-- Whatever the goroutines of a simulated controller do, the adapter can read what they have sent
over a connection: a registration, which shows the layout and the id, and then reports in that
layout. -/
theorem conversation_reads_back (hmode : cfg.frameMode ≠ .auto) (hpos : 1 ≤ imei.length)
    (hle : imei.length ≤ 15) (hdigits : ∀ b ∈ imei, 0x30 ≤ b ∧ b ≤ 0x39)
    (h : Reachable (wholeFrames cfg imei).traced (World.initial cfg, []) c) (conn : ConnID)
    (hsent : c.world.1.sent conn ≠ []) (ended : ReadError) (suffix : List UInt8) :
    ∃ f rest reports,
      readFrameWithMode ended .auto (c.world.1.sent conn ++ suffix) = (.ok f, rest) ∧
      f.mode = cfg.frameMode ∧ parseRegistrationPayload f.payload = .ok ⟨imei, 1, 1⟩ ∧
      readMany (readFrameWithMode ended f.mode) reports.length rest = (.ok reports, suffix) ∧
      ∀ g ∈ reports, Reports cfg g.payload := by
  have hreg := parse_buildRegistrationPayload hpos hle hdigits
  obtain ⟨reports, htold⟩ :=
    ((((conversations hmode).sound h).1.lines conn).sent).resolve_left hsent
  obtain ⟨rest, hfirst, hmany⟩ := htold.reads hmode hreg ended suffix
  refine ⟨_, rest, (reports.map (frameOf cfg)).map Frame.received, hfirst, received_mode _, ?_, ?_,
    ?_⟩
  · rw [received_payload]
    exact hreg
  · rw [received_mode, List.length_map, List.length_map]
    exact hmany
  · intro g hg
    simp only [List.map_map, List.mem_map, Function.comp_apply] at hg
    obtain ⟨payload, hmem, rfl⟩ := hg
    rw [received_payload]
    exact (htold.report payload hmem).reports

/-- The registration, a status and the two acknowledgements. -/
theorem reboot_conversation_reads_back :
    rebooted.world.1.sent 0 ≠ [] ∧ ∃ f rest reports,
      readFrameWithMode .eof .auto (rebooted.world.1.sent 0 ++ []) = (.ok f, rest) ∧
      f.mode = .compact ∧
      parseRegistrationPayload f.payload = .ok ⟨List.replicate 15 0x37, 1, 1⟩ ∧
      readMany (readFrameWithMode .eof f.mode) reports.length rest = (.ok reports, []) ∧
      ∀ g ∈ reports, Reports {} g.payload := by
  have hsent : rebooted.world.1.sent 0 ≠ [] := by decide +kernel
  have hdigits : ∀ b ∈ List.replicate 15 (0x37 : UInt8), 0x30 ≤ b ∧ b ≤ 0x39 := by
    intro b hb
    rw [List.eq_of_mem_replicate hb]
    decide
  exact ⟨hsent, conversation_reads_back (by decide) (by decide) (by decide) hdigits
    rebooted_reachable 0 hsent .eof []⟩

end results

/-! ## Triggers -/

section triggers

variable {p : Cmd5TriggerStructuredPayload} {payload : List UInt8}

theorem applyTriggerPayload_build (hbuild : p.build = .ok payload) (s : ControllerState) :
    s.applyTriggerPayload payload = .ok { s with triggers := p.flags } := by
  obtain ⟨hvalid, rfl⟩ := validated_eq_ok.mp hbuild
  rw [ControllerState.applyTriggerPayload, hvalid]
  simp [bind, Except.bind, pure, Except.pure]

/-- The reader finds the command if its number is not the id of another one. -/
theorem decodeData_trigger (hvalid : validateServerCommandPayload 5 payload = .ok ())
    {mode : FrameMode} {seq : UInt8}
    (hmode : mode = .compact ∨ mode = .sequenced ∧ isKnownCommandID seq = false) (ttl : UInt8) :
    ∃ seq', decodeData .auto (⟨ttl, seq, 5 :: payload, mode⟩ : Frame).data =
      .ok ⟨ttl, seq', 5 :: payload, mode⟩ := by
  have hcmd : (canonicalPriorityForCommand 5).isSome := by decide
  obtain rfl | ⟨rfl, hseq⟩ := hmode
  · have hread := readAuto_command_compact hcmd hvalid ttl
    have hlen : payload.length = 16 := (need_bind_eq_ok.mp hvalid).1
    have hshort : parseRegistrationPayload payload = .error _ := if_pos (by omega)
    rw [hshort] at hread
    exact ⟨0, hread⟩
  · have hread := readAuto_command_sequenced hcmd hvalid ttl seq
    rw [hseq] at hread
    exact ⟨seq, hread⟩

/-- The actions that answer a command. -/
def Act.Answering : Act → Prop
  | .bufferFree | .float64 | .sleep _ | .unix | .write .. | .report .. => True
  | _ => False

theorem exec_answering (tid : ℕ) {a : Act} (ha : a.Answering) (w : World) (inp : Input) :
    ∃ w' r, exec tid w a inp = some (w', r) ∧ w'.state = w.state ∧ w'.unread = w.unread := by
  cases a with
  | write conn wire =>
      refine ⟨(execWrite w conn wire inp).1, (execWrite w conn wire inp).2, rfl, ?_⟩
      unfold execWrite
      split
      · exact ⟨rfl, rfl⟩
      · split <;> exact ⟨rfl, rfl⟩
  | bufferFree | float64 | sleep | unix | report => exact ⟨_, _, rfl, rfl, rfl⟩
  | _ => exact ha.elim

section answer

variable (cfg : SimConfig) (conn : ConnID)

theorem sleepFor_only (d : Duration) : (sleepFor d).Only Act.Answering := by
  unfold sleepFor
  split
  · exact ⟨trivial, fun _ => trivial⟩
  · trivial

theorem chooseTerminalAckCode_only : (chooseTerminalAckCode cfg).Only Act.Answering := by
  refine ⟨trivial, fun random => ?_⟩
  change (ite _ _ _ : Simulate UInt8).Only _
  split <;> trivial

theorem dropsAck_only (code : UInt8) : (dropsAck cfg code).Only Act.Answering := by
  unfold dropsAck
  split
  · trivial
  · exact ⟨trivial, fun _ => trivial⟩

theorem writeFrame_only (payload : List UInt8) :
    (writeFrame cfg conn payload).Only Act.Answering := by
  unfold writeFrame
  split
  · trivial
  · exact ⟨trivial, fun _ => trivial⟩

theorem sendCommandAck_only (seq code : UInt8) :
    (sendCommandAck cfg conn seq code).Only Act.Answering := by
  refine ⟨trivial, fun bufferFree => (dropsAck_only cfg code).bind fun dropped => ?_⟩
  cases dropped with
  | true => trivial
  | false =>
      refine (sleepFor_only cfg.ackDelay).bind fun _ => ?_
      exact ⟨trivial, fun unix => writeFrame_only cfg conn _⟩

theorem handleDefault_only (frame : Frame) : (handleDefault cfg conn frame).Only Act.Answering := by
  refine (chooseTerminalAckCode_only cfg).bind fun code => ?_
  refine (sendCommandAck_only cfg conn frame.seq code).bind fun err => ?_
  cases err <;> trivial

end answer

/-- The controller takes over the flags of a trigger command, whether or not its answer goes out. -/
theorem handleIncoming_trigger {cfg : SimConfig} {imei : List UInt8} {tid : ℕ} {conn : ConnID}
    (hbuild : p.build = .ok payload) (ttl seq : UInt8) (mode : FrameMode) (w : World) :
    (handleIncoming cfg conn ⟨ttl, seq, 5 :: payload, mode⟩).Ends (.any (machine cfg imei)) tid
      (fun _ w' => w'.state = { w.state with triggers := p.flags } ∧ w'.unread = w.unread) w := by
  intro inp _
  have happly : exec tid w (.applyTriggerPayload payload) inp =
      some ({ w with state := { w.state with triggers := p.flags } }, none) := by
    simp only [exec, applyTriggerPayload_build hbuild]
  refine ⟨_, _, happly, ?_⟩
  refine Prog.Only.ends (M := machine cfg imei) (p := Act.Answering) (I := fun w' : World =>
    w'.state = { w.state with triggers := p.flags } ∧ w'.unread = w.unread) ?_ ?_ ⟨rfl, rfl⟩
  · rintro w₁ a inp ha ⟨hstate, hunread⟩
    obtain ⟨w₂, r, hexec, hstate', hunread'⟩ := exec_answering tid ha w₁ inp
    exact ⟨w₂, r, hexec, hstate'.trans hstate, hunread'.trans hunread⟩
  · refine (handleDefault_only cfg conn _).bind fun res => ?_
    rcases res with err | _ | _
    · exact ⟨trivial, fun _ => trivial⟩
    · trivial
    · exact ⟨trivial, fun _ => trivial⟩

/-- A controller that reads a trigger command of the adapter's builder takes over its flags,
whatever arrives meanwhile. -/
theorem trigger_command_arrives {cfg : SimConfig} {imei bytes rest : List UInt8} {mode : FrameMode}
    (ttl seq : UInt8) (hbuild : p.build = .ok payload)
    (hmode : mode = .compact ∨ mode = .sequenced ∧ isKnownCommandID seq = false)
    (hbytes : encodeFrame ⟨ttl, seq, 5 :: payload, mode⟩ = .ok bytes) {tid : ℕ} {conn : ConnID}
    {W : World} (hopen : W.closed conn = false) (hunread : W.unread conn = bytes ++ rest) :
    (handleNext cfg conn).Ends (.any (machine cfg imei)) tid
      (fun _ w => w.state = { W.state with triggers := p.flags } ∧
        ∃ more, w.unread conn = rest ++ more) W := by
  have hvalid : validateServerCommandPayload 5 payload = .ok () := valid_of_validated hbuild
  obtain ⟨seq', hdecode⟩ := decodeData_trigger hvalid hmode ttl
  obtain ⟨-, hlen, rfl⟩ := encodeFrame_eq_ok_iff.mp hbytes
  intro inp _
  have hread : Reads (readFrameWithMode inp.ended .auto) _ _ := reads_wire hlen hdecode
  have hexec : exec tid W (.readFrame conn) inp =
      some ({ W with unread := Function.update W.unread conn (rest ++ inp.bytes) },
        .ok ⟨ttl, seq', 5 :: payload, mode⟩) := by
    simp only [exec, execRead, hopen, Bool.false_eq_true, false_and, if_false, hunread,
      List.append_assoc, hread (rest ++ inp.bytes)]
  refine ⟨_, _, hexec, (handleIncoming_trigger hbuild ttl seq' mode _).mono ?_⟩
  rintro _ w ⟨hstate, hrest⟩
  refine ⟨hstate, inp.bytes, ?_⟩
  rw [hrest]
  exact Function.update_self ..

end triggers

/-- A trigger command that opens the door for all. -/
def openForAll : Cmd5TriggerStructuredPayload :=
  ⟨{ openForAll := true }, ⟨List.replicate 8 0, rfl⟩⟩

theorem openForAll_arrives :
    (handleNext {} 0).Ends (.any (machine {} [])) 1 (fun _ w => w.state.triggers.openForAll = true)
      { World.initial {} with
        unread := fun _ =>
          wire (255 :: 5 :: [0, 0, 0, 1, 0, 0, 0, 0, 0, 0, 0, 0, 0, 0, 0, 0]) ++ [] } := by
  have hbuild : openForAll.build = .ok [0, 0, 0, 1, 0, 0, 0, 0, 0, 0, 0, 0, 0, 0, 0, 0] := rfl
  have hbytes : encodeFrame
      ⟨255, 0, 5 :: [0, 0, 0, 1, 0, 0, 0, 0, 0, 0, 0, 0, 0, 0, 0, 0], .compact⟩ =
        .ok (wire (255 :: 5 :: [0, 0, 0, 1, 0, 0, 0, 0, 0, 0, 0, 0, 0, 0, 0, 0])) :=
    encodeFrame_eq_ok_iff.mpr ⟨by simp, by decide, rfl⟩
  refine (trigger_command_arrives 255 0 hbuild (.inl rfl) hbytes rfl rfl).mono ?_
  rintro _ w ⟨hstate, -⟩
  rw [hstate]
  rfl

end TcpAdapter.Simulator
