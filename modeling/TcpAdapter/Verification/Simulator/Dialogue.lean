import TcpAdapter.Concurrent.Trace
import TcpAdapter.Model.Simulator
import TcpAdapter.Verification.Protocol.Registration

/-! # The dialogue of a simulated controller

Whatever its goroutines do, the bytes on each of its connections are a registration with reports
behind it, and the acknowledgements among them follow the commands that it has read. -/

namespace TcpAdapter.Simulator

open TcpAdapter.Concurrent TcpAdapter.Protocol TcpAdapter.Queue TcpAdapter.Manager TcpAdapter.Codec

/-! ## What goes over a connection -/

/-- A frame of the simulator. -/
def frameOf (cfg : SimConfig) (payload : List UInt8) : Frame :=
  ⟨255, 1, payload, cfg.frameMode⟩

/-- A payload of the simulator after its registration. -/
inductive Report (cfg : SimConfig) : List UInt8 → Prop where
  | status (unix : ℕ) : Report cfg (buildStatus1Payload cfg.bufferFree 0 unix)
  | ack (seq code : UInt8) (unix : ℕ) : Report cfg (buildAck11Payload seq code cfg.bufferFree unix)

/-- The registration went out, and these reports after it. -/
structure Told (cfg : SimConfig) (imei : List UInt8) (reports : List (List UInt8))
    (bytes : List UInt8) : Prop where
  report : ∀ p ∈ reports, Report cfg p
  encoded : ∃ first wires, encodeFrame (frameOf cfg (buildRegistrationPayload imei)) = .ok first ∧
    Encoded (reports.map (frameOf cfg)) wires ∧ bytes = first ++ wires.flatten

def Registered (cfg : SimConfig) (imei bytes : List UInt8) : Prop :=
  ∃ reports, Told cfg imei reports bytes

section told

variable {cfg : SimConfig} {imei bytes payload wire : List UInt8}

theorem registered_first
    (h : encodeFrame (frameOf cfg (buildRegistrationPayload imei)) = .ok wire) :
    Registered cfg imei wire :=
  ⟨[], by simp, wire, [], h, .nil, by simp⟩

theorem Registered.append (h : Registered cfg imei bytes) (hp : Report cfg payload)
    (hwire : encodeFrame (frameOf cfg payload) = .ok wire) :
    Registered cfg imei (bytes ++ wire) := by
  obtain ⟨reports, hreports, first, wires, hfirst, hwires, rfl⟩ := h
  refine ⟨reports ++ [payload], fun p hmem => ?_, first, wires ++ [wire], hfirst, ?_, by simp⟩
  · rcases List.mem_append.mp hmem with hmem | hmem
    · exact hreports p hmem
    · exact List.mem_singleton.mp hmem ▸ hp
  · rw [List.map_append]
    exact List.rel_append hwires (.cons hwire .nil)

end told

/-! ## The acknowledgements among them -/

/-- The number and the code of the acknowledgement that a frame is. -/
def ackOf (cfg : SimConfig) (wire : List UInt8) : Option (UInt8 × UInt8) :=
  match (readFrameWithMode .eof cfg.frameMode wire).1 with
  | .error _ => none
  | .ok frame =>
      match parseAck11Payload frame.payload with
      | .error _ => none
      | .ok ack => some (ack.commandSeq, ack.executionCode)

section ackOf

variable {cfg : SimConfig} {wire payload : List UInt8}

theorem read_frameOf (hmode : cfg.frameMode ≠ .auto)
    (h : encodeFrame (frameOf cfg payload) = .ok wire) :
    readFrameWithMode .eof cfg.frameMode wire = (.ok (frameOf cfg payload).received, []) := by
  have hread : Reads (readFrameWithMode .eof cfg.frameMode) wire (frameOf cfg payload).received :=
    reads_encodeFrame hmode h
  simpa using hread []

theorem parse_buildAck11Payload (seq code : UInt8) (bufferFree : UInt16) (unix : ℕ) :
    ∃ time, parseAck11Payload (buildAck11Payload seq code bufferFree unix) =
      .ok ⟨seq, code, time, bufferFree.toNat⟩ := by
  have hfree := toNat_putUint16 bufferFree.toNat_lt
  refine ⟨uint32At (buildAck11Payload seq code bufferFree unix) 3, ?_⟩
  conv_rhs => rw [← hfree]
  rfl

theorem parse_buildStatus1Payload (bufferFree : UInt16) (unix : ℕ) :
    ∃ time, parseStatus1Payload (buildStatus1Payload bufferFree 0 unix) =
      .ok ⟨time, 0, bufferFree.toNat⟩ := by
  have hfree := toNat_putUint16 bufferFree.toNat_lt
  refine ⟨uint32At (buildStatus1Payload bufferFree 0 unix) 1, ?_⟩
  conv_rhs => rw [← hfree]
  rfl

theorem ackOf_ack (hmode : cfg.frameMode ≠ .auto) {seq code : UInt8} {bufferFree : UInt16}
    {unix : ℕ}
    (h : encodeFrame (frameOf cfg (buildAck11Payload seq code bufferFree unix)) = .ok wire) :
    ackOf cfg wire = some (seq, code) := by
  obtain ⟨time, hparse⟩ := parse_buildAck11Payload seq code bufferFree unix
  simp only [ackOf, read_frameOf hmode h, received_payload, frameOf, hparse]

/-- A payload of another command. -/
theorem ackOf_other (hmode : cfg.frameMode ≠ .auto) {cmd : UInt8} {rest : List UInt8}
    (hcmd : cmd ≠ 11) (h : encodeFrame (frameOf cfg (cmd :: rest)) = .ok wire) :
    ackOf cfg wire = none := by
  have hparse : ∃ err, parseAck11Payload (cmd :: rest) = .error err := by
    rw [parseAck11Payload]
    split
    · exact ⟨_, rfl⟩
    · rw [if_pos (by simpa using hcmd)]
      exact ⟨_, rfl⟩
  obtain ⟨err, hparse⟩ := hparse
  simp only [ackOf, read_frameOf hmode h, received_payload, frameOf, hparse]

end ackOf

/-- The frame asks for an answer. -/
def asksForAnswer (frame : Frame) : Bool :=
  match frame.commandID with
  | none => false
  | some cmdID => cmdID ≠ 24 ∧ cmdID ≠ 1

/-- Where a connection is between two commands. -/
inductive Talk where
  | quiet
  | asked (seq : UInt8)
  | started (seq : UInt8)
  | ended
  deriving DecidableEq

namespace Talk

/-- The goroutine is about to read. -/
def Listens (t : Talk) : Prop :=
  t = quiet ∨ ∃ seq, t = asked seq

/-- A command comes in: not after one that restarts the controller. -/
def heard : Talk → UInt8 → Option Talk
  | quiet, seq | asked _, seq => some (asked seq)
  | started _, _ | ended, _ => none

/-- An acknowledgement goes out: for the last command, and at most one that is final. -/
def said : Talk → UInt8 → UInt8 → Option Talk
  | asked seq, n, code =>
      if n = seq then some (if code = ackCodeStarted then started seq else quiet) else none
  | started seq, n, code => if n = seq ∧ code ≠ ackCodeStarted then some ended else none
  | quiet, _, _ | ended, _, _ => none

/-- The connection after an action. -/
def after (cfg : SimConfig) (conn : ConnID) (t : Talk) : (a : Act) → a.Res → Option Talk
  | .readFrame c, .ok frame =>
      if c = conn ∧ asksForAnswer frame then t.heard frame.seq else some t
  | .write c wire, none =>
      if c = conn then
        match ackOf cfg wire with
        | some (seq, code) => t.said seq code
        | none => some t
      else some t
  | _, _ => some t

theorem after_readFrame (cfg : SimConfig) (conn : ConnID) (t : Talk) (frame : Frame) :
    t.after cfg conn (.readFrame conn) (.ok frame) =
      if asksForAnswer frame then t.heard frame.seq else some t := by
  by_cases h : asksForAnswer frame
  · rw [if_pos h]
    exact if_pos ⟨rfl, h⟩
  · rw [if_neg h]
    exact if_neg fun hboth => h hboth.2

theorem after_write {cfg : SimConfig} {conn : ConnID} {wire : List UInt8} {seq code : UInt8}
    (t : Talk) (hack : ackOf cfg wire = some (seq, code)) :
    t.after cfg conn (.write conn wire) none = t.said seq code :=
  (if_pos rfl).trans (by rw [hack])

end Talk

/-- What the acknowledgements on a connection have come to; `none` if one of them was out of
place. -/
def talkOf (cfg : SimConfig) (conn : ConnID) : List (Entry sig) → Option Talk
  | [] => some .quiet
  | .crashed :: older => (talkOf cfg conn older).map fun _ => .quiet
  | .did _ a r :: older => (talkOf cfg conn older).bind fun t => t.after cfg conn a r

/-! ## What a goroutine knows -/

/-- What a goroutine is doing on its connection. -/
inductive Phase where
  | dialed
  | registered
  | reporting
  | reading (talk : Talk)

abbrev Knowledge := Option (ConnID × Phase)

namespace Knowledge

def after (cfg : SimConfig) : Knowledge → (a : Act) → a.Res → Knowledge
  | _, .dial, some conn => some (conn, .dialed)
  | _, .begin conn, _ => some (conn, .reading .quiet)
  | _, .close _, _ => none
  | some (_, .registered), .spawn conn, _ => some (conn, .reporting)
  | some (conn, .dialed), .write _ _, none => some (conn, .registered)
  | some (conn, .reading t), a, r => some (conn, .reading ((t.after cfg conn a r).getD t))
  | v, _, _ => v

theorem after_write (cfg : SimConfig) (conn c : ConnID) (t : Talk) (wire : List UInt8) :
    after cfg (some (conn, .reading t)) (.write c wire) none =
      some (conn, .reading ((t.after cfg conn (.write c wire) none).getD t)) := rfl

theorem after_readFrame (cfg : SimConfig) (conn c : ConnID) (t : Talk) (frame : Frame) :
    after cfg (some (conn, .reading t)) (.readFrame c) (.ok frame) =
      some (conn, .reading ((t.after cfg conn (.readFrame c) (.ok frame)).getD t)) := rfl

def MayWrite (cfg : SimConfig) (imei : List UInt8) (conn : ConnID) (wire : List UInt8) :
    Knowledge → Prop
  | some (c, .dialed) =>
      c = conn ∧ encodeFrame (frameOf cfg (buildRegistrationPayload imei)) = .ok wire
  | some (c, .reporting) => c = conn ∧ ∃ unix,
      encodeFrame (frameOf cfg (buildStatus1Payload cfg.bufferFree 0 unix)) = .ok wire
  | some (c, .reading t) => c = conn ∧ ∃ seq code unix,
      encodeFrame (frameOf cfg (buildAck11Payload seq code cfg.bufferFree unix)) = .ok wire ∧
        (t.said seq code).isSome
  | some (_, .registered) | none => False

/-- It has not dialed, or the connection is open. -/
def Resting : Knowledge → Prop
  | some (_, .dialed) | some (_, .registered) => False
  | some (_, .reporting) | some (_, .reading _) | none => True

def May (cfg : SimConfig) (imei : List UInt8) (v : Knowledge) : Act → Prop
  | .write conn wire => v.MayWrite cfg imei conn wire
  | .readFrame conn => ∃ t, v = some (conn, .reading t) ∧ t.Listens
  | .spawn conn => v = some (conn, .registered)
  | .dial | .begin _ => v.Resting
  | _ => True

/-- The free buffer never changes. -/
def Answers (cfg : SimConfig) : (a : Act) → a.Res → Prop
  | .bufferFree, free => free = cfg.bufferFree
  | _, _ => True

def protocol (cfg : SimConfig) (imei : List UInt8) : Protocol sig Knowledge where
  may v a := v.May cfg imei a
  next v a r v' := v' = v.after cfg a r ∧ Answers cfg a r

end Knowledge

/-! ## What the goroutines do -/

section goroutines

variable {cfg : SimConfig} {imei : List UInt8} {conn : ConnID} {t : Talk} {v : Knowledge} {α : Type}
  {post : α → Knowledge → Prop}

/-- An action that has nothing to do with a connection. -/
def Act.Aside : Act → Prop
  | .stopped | .float64 | .unix | .sleep _ | .int63n _ | .bufferFree | .applyTriggerPayload _
  | .reset | .report .. | .select _ | .spin => True
  | _ => False

theorem aside_after {a : Act} (ha : a.Aside) (r : a.Res) : v.after cfg a r = v := by
  rcases v with _ | ⟨c, _ | _ | _ | t⟩ <;> cases a <;> first | rfl | cases ha

theorem aside_respects {a : Act} (ha : a.Aside) :
    (perform a).Respects (Knowledge.protocol cfg imei)
      (fun r v' => v' = v ∧ Knowledge.Answers cfg a r) v := by
  refine ⟨?_, ?_⟩
  · cases a <;> trivial
  · rintro r _ ⟨rfl, hr⟩
    exact ⟨aside_after ha r, hr⟩

/-- An action aside, and then the rest of the program. -/
theorem aside_bind {a : Act} {k : a.Res → Simulate α} (ha : a.Aside)
    (hk : ∀ r, Knowledge.Answers cfg a r →
      (k r).Respects (Knowledge.protocol cfg imei) post v) :
    (perform a >>= k).Respects (Knowledge.protocol cfg imei) post v := by
  refine (aside_respects ha).bind ?_
  rintro r _ ⟨rfl, hr⟩
  exact hk r hr

theorem sleepFor_respects {d : Duration} :
    (sleepFor d).Respects (Knowledge.protocol cfg imei) (fun _ v' => v' = v) v := by
  unfold sleepFor
  split
  · exact (aside_respects (a := .sleep d) trivial).mono fun _ _ h => h.1
  · rfl

theorem chooseTerminalAckCode_respects :
    (chooseTerminalAckCode cfg).Respects (Knowledge.protocol cfg imei)
      (fun code v' => v' = v ∧ code ≠ ackCodeStarted) v := by
  refine aside_bind (a := .float64) trivial fun r _ => ?_
  split
  · exact ⟨rfl, by decide⟩
  · exact ⟨rfl, by decide⟩

theorem dropsAck_respects {code : UInt8} :
    (dropsAck cfg code).Respects (Knowledge.protocol cfg imei)
      (fun dropped v' => v' = v ∧ (dropped = true → code ≠ ackCodeStarted)) v := by
  unfold dropsAck
  split
  · exact ⟨rfl, Bool.noConfusion⟩
  · rename_i hcode
    refine aside_bind (a := .float64) trivial fun r _ => ?_
    exact ⟨rfl, fun _ => hcode⟩

theorem after_write_failed {wire : List UInt8} {err : String} :
    v.after cfg (.write conn wire) (some err) = v := by
  rcases v with _ | ⟨c, _ | _ | _ | t⟩ <;> rfl

theorem after_dial_failed : v.after cfg .dial none = v := by
  rcases v with _ | ⟨c, _ | _ | _ | t⟩ <;> rfl

/-- The frame has gone out, or nothing has changed. -/
def Wrote (cfg : SimConfig) (conn : ConnID) (payload : List UInt8) (v : Knowledge)
    (err : Option String) (v' : Knowledge) : Prop :=
  match err with
  | some _ => v' = v
  | none => ∃ wire, encodeFrame (frameOf cfg payload) = .ok wire ∧
      v' = v.after cfg (.write conn wire) none

theorem writeFrame_respects {payload : List UInt8}
    (hmay : ∀ wire, encodeFrame (frameOf cfg payload) = .ok wire → v.MayWrite cfg imei conn wire) :
    (writeFrame cfg conn payload).Respects (Knowledge.protocol cfg imei)
      (Wrote cfg conn payload v) v := by
  unfold writeFrame
  split
  · rfl
  · rename_i wire hencode
    refine ⟨hmay wire hencode, ?_⟩
    rintro (_ | err) _ ⟨rfl, -⟩
    · exact ⟨wire, hencode, rfl⟩
    · exact after_write_failed

/-! ### The goroutine that reads -/

section reads

variable (hmode : cfg.frameMode ≠ .auto)

/-- The command has been handled: if the goroutine goes on, it listens. -/
def Handled (conn : ConnID) (goesOn : Prop) (v : Knowledge) : Prop :=
  ∃ t, v = some (conn, .reading t) ∧ (goesOn → t.Listens)

theorem Handled.stops {goesOn : Prop} (h : ¬goesOn) :
    Handled conn goesOn (some (conn, .reading t)) :=
  ⟨t, rfl, fun hgo => absurd hgo h⟩

include hmode

theorem sendCommandAck_respects {t' : Talk} {seq code : UInt8} (hsaid : t.said seq code = some t') :
    (sendCommandAck cfg conn seq code).Respects (Knowledge.protocol cfg imei)
      (fun err v => v = some (conn, .reading t) ∧ (err = none → code ≠ ackCodeStarted) ∨
        v = some (conn, .reading t')) (some (conn, .reading t)) := by
  refine aside_bind (a := .bufferFree) trivial fun free hfree => ?_
  obtain rfl : free = cfg.bufferFree := hfree
  refine dropsAck_respects.bind ?_
  rintro dropped _ ⟨rfl, hdropped⟩
  split
  · rename_i h
    exact .inl ⟨rfl, fun _ => hdropped h⟩
  refine sleepFor_respects.bind ?_
  rintro _ _ rfl
  refine aside_bind (a := .unix) trivial fun unix _ => ?_
  refine (writeFrame_respects fun wire hwire => ?_).mono ?_
  · exact ⟨rfl, seq, code, unix, hwire, by rw [hsaid]; rfl⟩
  · rintro (_ | err) v hwrote
    · obtain ⟨wire, hwire, rfl⟩ := hwrote
      rw [Knowledge.after_write, t.after_write (ackOf_ack hmode hwire), hsaid]
      exact .inr rfl
    · exact .inl ⟨hwrote, by simp⟩

theorem handleDefault_respects (frame : Frame) :
    (handleDefault cfg conn frame).Respects (Knowledge.protocol cfg imei)
      (fun res => Handled conn (res = .ok false)) (some (conn, .reading (.asked frame.seq))) := by
  refine chooseTerminalAckCode_respects.bind ?_
  rintro code _ ⟨rfl, hcode⟩
  have hsaid : (Talk.asked frame.seq).said frame.seq code = some .quiet := by
    simp only [Talk.said, if_true, if_neg hcode]
  refine (sendCommandAck_respects hmode hsaid).bind ?_
  rintro err _ (⟨rfl, -⟩ | rfl)
  · cases err <;> exact ⟨_, rfl, fun _ => .inr ⟨_, rfl⟩⟩
  · cases err <;> exact ⟨_, rfl, fun _ => .inl rfl⟩

theorem handleRestart_respects (frame : Frame) {finish : Simulate Unit}
    (hfinish : ∀ v, finish.Respects (Knowledge.protocol cfg imei) (fun _ v' => v' = v) v) :
    (handleRestart cfg conn frame finish).Respects (Knowledge.protocol cfg imei)
      (fun res => Handled conn (res = .ok false)) (some (conn, .reading (.asked frame.seq))) := by
  have hstarted : (Talk.asked frame.seq).said frame.seq ackCodeStarted =
      some (.started frame.seq) := by
    simp only [Talk.said, if_true]
  refine (sendCommandAck_respects hmode hstarted).bind ?_
  rintro (_ | err) v hv
  swap
  · obtain ⟨rfl, -⟩ | rfl := hv <;> exact .stops (by simp)
  obtain ⟨-, hcode⟩ | rfl := hv
  · -- the first acknowledgement is never dropped
    exact absurd rfl (hcode rfl)
  refine aside_bind (a := .sleep _) trivial fun _ _ => ?_
  refine chooseTerminalAckCode_respects.bind ?_
  rintro code _ ⟨rfl, hcode⟩
  have hsaid : (Talk.started frame.seq).said frame.seq code = some .ended := by
    simp only [Talk.said, true_and, if_pos hcode]
  refine (sendCommandAck_respects hmode hsaid).bind ?_
  rintro (_ | err) v hv
  swap
  · obtain ⟨rfl, -⟩ | rfl := hv <;> exact .stops (by simp)
  refine (hfinish v).bind ?_
  rintro _ _ rfl
  refine aside_bind (a := .sleep _) trivial fun _ _ => ?_
  obtain ⟨rfl, -⟩ | rfl := hv <;> exact .stops (by simp)

theorem handleServerCommand_respects (frame : Frame) :
    (handleServerCommand cfg conn frame).Respects (Knowledge.protocol cfg imei)
      (fun res => Handled conn (res = .ok false)) (some (conn, .reading (.asked frame.seq))) := by
  unfold handleServerCommand
  split
  · exact handleRestart_respects hmode frame fun _ => rfl
  · exact handleRestart_respects hmode frame fun _ =>
      (aside_respects (a := .reset) trivial).mono fun _ _ h => h.1
  · refine (aside_respects (a := .applyTriggerPayload _) trivial).bind ?_
    rintro (_ | err) _ ⟨rfl, -⟩
    · exact handleDefault_respects hmode frame
    · exact .stops (by simp)
  · exact handleDefault_respects hmode frame

theorem handleIncoming_respects {frame : Frame} (ht : t.Listens) :
    (handleIncoming cfg conn frame).Respects (Knowledge.protocol cfg imei)
      (fun goesOn => Handled conn (goesOn = true))
      (some (conn, .reading (if asksForAnswer frame then .asked frame.seq else t))) := by
  unfold handleIncoming asksForAnswer
  cases frame.commandID with
  | none => exact ⟨t, rfl, fun _ => ht⟩
  | some cmdID =>
      by_cases hcmd : cmdID = 24 ∨ cmdID = 1
      · have hsilent : ¬(cmdID ≠ 24 ∧ cmdID ≠ 1) := by tauto
        simp only [if_pos hcmd, hsilent, decide_false, Bool.false_eq_true, if_false]
        exact ⟨t, rfl, fun _ => ht⟩
      · have hasks : cmdID ≠ 24 ∧ cmdID ≠ 1 := by tauto
        simp only [hasks, ne_eq, not_false_eq_true, and_self, decide_true, if_true]
        refine (handleServerCommand_respects hmode frame).bind ?_
        rintro (err | _ | _) _ ⟨t', rfl, hlistens⟩
        · refine aside_bind (a := .report conn _) trivial fun _ _ => ?_
          exact .stops (by simp)
        · exact ⟨t', rfl, fun _ => hlistens rfl⟩
        · refine aside_bind (a := .report conn _) trivial fun _ _ => ?_
          exact .stops (by simp)

theorem handleNext_respects (ht : t.Listens) :
    (handleNext cfg conn).Respects (Knowledge.protocol cfg imei)
      (fun goesOn => Handled conn (goesOn = true)) (some (conn, .reading t)) := by
  refine ⟨⟨t, rfl, ht⟩, ?_⟩
  rintro (err | frame) _ ⟨rfl, -⟩
  · refine aside_bind (a := .report conn _) trivial fun _ _ => ?_
    exact .stops (by simp)
  · have hheard : t.heard frame.seq = some (.asked frame.seq) := by
      obtain rfl | ⟨seq, rfl⟩ := ht <;> rfl
    have hafter : Knowledge.after cfg (some (conn, .reading t)) (.readFrame conn) (.ok frame) =
        some (conn, .reading (if asksForAnswer frame then .asked frame.seq else t)) := by
      rw [Knowledge.after_readFrame, t.after_readFrame, hheard]
      split <;> rfl
    rw [hafter]
    exact handleIncoming_respects hmode ht

theorem readLoop_respects (fuel : ℕ) (ht : t.Listens) :
    (readLoop cfg conn fuel).Respects (Knowledge.protocol cfg imei)
      (fun _ v => v.Resting) (some (conn, .reading t)) := by
  induction fuel generalizing t with
  | zero =>
      refine (aside_respects (a := .spin) trivial).mono ?_
      rintro _ _ ⟨rfl, -⟩
      trivial
  | succ n ih =>
      refine (handleNext_respects hmode ht).bind ?_
      rintro goesOn _ ⟨t', rfl, hlistens⟩
      split
      · rename_i hgo
        exact ih (hlistens hgo)
      · trivial

end reads

/-! ### The goroutine that dials -/

theorem sendBurst_respects (n : ℕ) :
    (sendBurst cfg conn n).Respects (Knowledge.protocol cfg imei)
      (fun _ v => v = some (conn, .reporting)) (some (conn, .reporting)) := by
  induction n with
  | zero => rfl
  | succ n ih =>
      refine aside_bind (a := .bufferFree) trivial fun free hfree => ?_
      obtain rfl : free = cfg.bufferFree := hfree
      refine aside_bind (a := .unix) trivial fun unix _ => ?_
      refine (writeFrame_respects fun wire hwire => ?_).bind ?_
      · exact ⟨rfl, unix, hwire⟩
      rintro (_ | err) v hwrote
      · obtain ⟨wire, -, rfl⟩ := hwrote
        refine sleepFor_respects.bind ?_
        rintro _ _ rfl
        exact ih
      · exact hwrote

theorem statusLoop_respects (fuel : ℕ) :
    (statusLoop cfg conn fuel).Respects (Knowledge.protocol cfg imei)
      (fun _ v => v = some (conn, .reporting)) (some (conn, .reporting)) := by
  induction fuel with
  | zero => exact (aside_respects (a := .spin) trivial).mono fun _ _ h => h.1
  | succ n ih =>
      refine (aside_respects (a := .select conn) trivial).bind ?_
      rintro (_ | err | _) _ ⟨rfl, -⟩
      · rfl
      · rfl
      · refine (sendBurst_respects _).bind ?_
        rintro (_ | err) _ rfl
        · exact ih
        · rfl

theorem serveConn_respects (fuel : ℕ) :
    (serveConn cfg conn imei fuel).Respects (Knowledge.protocol cfg imei) (fun _ _ => True)
      (some (conn, .dialed)) := by
  refine (writeFrame_respects fun wire hwire => ?_).bind ?_
  · exact ⟨rfl, hwire⟩
  rintro (_ | err) v hwrote
  · obtain ⟨wire, -, rfl⟩ := hwrote
    refine ⟨rfl, ?_⟩
    rintro _ _ ⟨rfl, -⟩
    exact (statusLoop_respects fuel).mono fun _ _ _ => trivial
  · trivial

theorem randomJitter_respects {min max : Duration} :
    (randomJitter min max).Respects (Knowledge.protocol cfg imei) (fun _ v' => v' = v) v := by
  unfold randomJitter
  split
  · rfl
  split
  · rfl
  · refine aside_bind (a := .int63n _) trivial fun _ _ => ?_
    rfl

theorem runController_respects (fuel rounds : ℕ) (hv : v.Resting) :
    (runController cfg imei fuel rounds).Respects (Knowledge.protocol cfg imei)
      (fun _ v => v.Resting) v := by
  induction rounds generalizing v with
  | zero =>
      refine (aside_respects (a := .spin) trivial).mono ?_
      rintro _ _ ⟨rfl, -⟩
      exact hv
  | succ n ih =>
      refine aside_bind (a := .stopped) trivial fun stopped _ => ?_
      split
      · exact hv
      refine ⟨hv, ?_⟩
      rintro (_ | conn) _ ⟨rfl, -⟩
      · refine aside_bind (a := .sleep _) trivial fun _ _ => ?_
        exact ih (after_dial_failed.symm ▸ hv)
      · refine (serveConn_respects fuel).bind ?_
        rintro _ v -
        refine ⟨trivial, ?_⟩
        rintro _ _ ⟨rfl, -⟩
        refine randomJitter_respects.bind ?_
        rintro jitter _ rfl
        refine aside_bind (a := .sleep _) trivial fun _ _ => ?_
        exact ih trivial

theorem prog_respects (hmode : cfg.frameMode ≠ .auto) (task : Task) (hv : v.Resting) :
    (task.prog cfg imei).Respects (Knowledge.protocol cfg imei) (fun _ v => v.Resting) v := by
  cases task with
  | run fuel rounds => exact runController_respects fuel rounds hv
  | read conn fuel =>
      refine ⟨hv, ?_⟩
      rintro _ _ ⟨rfl, -⟩
      exact readLoop_respects hmode fuel (.inl rfl)

end goroutines

end TcpAdapter.Simulator
