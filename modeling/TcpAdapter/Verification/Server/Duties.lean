import TcpAdapter.Model.Server.Programs
import TcpAdapter.Verification.Delivery.Links

/-! # What a goroutine of the server is in charge of

The protocol of the accept loop and of the handlers. A goroutine is in charge of at most one
connection, takes it through its stages in order, and is in charge of none when it ends. A
handler calls `Create` for the controller that its first frame names, and `MarkOffline` for the
controller whose session it has attached itself to. -/

namespace TcpAdapter.Server

open TcpAdapter.Concurrent TcpAdapter.Queue TcpAdapter.Protocol TcpAdapter.Manager
open TcpAdapter.Delivery (Deliver)

/-- The controller whose session the handler has attached itself to. -/
def Locals.owned (l : Locals) : Option String :=
  if l.registered then some l.controllerID else none

/-- The frame registers the controller. -/
def Registers (frame : Frame) (id : String) : Prop :=
  ∃ reg, parseRegistrationPayload frame.payload = .ok reg ∧ id = imeiString reg.imei

/-- How long a read may take at most. -/
def Config.longestRead (cfg : Config) : Duration :=
  if cfg.readTimeout ≤ 0 then 5 * second else cfg.readTimeout

structure Duty where
  /-- It is the accept loop. -/
  acceptor : Bool := false
  charge : Option (ConnID × Role) := none
  /-- It has found fewer connections than the server may have. -/
  room : Bool := false
  /-- When it last looked at the clock. -/
  seen : Option Time := none
  /-- It has not read anything yet. -/
  fresh : Bool := false
  /-- It has set the deadline of its next read. -/
  armed : Bool := false
  /-- The last frame that it has read. -/
  frame : Option Frame := none

namespace Duty

variable (cfg : Config)

def after (v : Duty) : (a : Act) → a.Res → Duty
  | .now, t => { v with seen := some t }
  | .accept, conn => { v with charge := some (conn, .accepted), room := false }
  | .activeLoad, n => { v with room := n < cfg.maxConnections }
  | .tryTrackConn conn, true => { v with charge := some (conn, .tracked) }
  | .activeAdd conn delta, _ =>
      { v with charge := some (conn, if delta < 0 then .uncounted else .counted), room := false }
  | .spawn _, _ | .untrackConn _, _ => { v with charge := none }
  | .begin conn, _ =>
      { v with
        charge := some (conn, .handled none)
        seen := none
        fresh := true
        armed := false
        frame := none }
  | .close conn, _ => if v.charge = some (conn, .accepted) then { v with charge := none } else v
  | .setReadDeadline _ _, _ => { v with armed := true }
  | .readFrame _ _, .ok frame => { v with fresh := false, armed := false, frame := some frame }
  | .readFrame _ _, .error _ => { v with fresh := false, armed := false }
  | .create id conn, none => { v with charge := some (conn, .handled (some id)) }
  | .markOffline _ conn, _ => { v with charge := some (conn, .handled none), frame := none }
  | _, _ => v

def May (v : Duty) : Act → Prop
  | .accept => v.charge = none
  | .activeLoad => v.acceptor = true
  | .tryTrackConn conn => v.charge = some (conn, .accepted)
  | .activeAdd conn delta =>
      delta = 1 ∧ v.charge = some (conn, .tracked) ∧ v.room = true ∨
        delta = -1 ∧ v.charge = some (conn, .handled none)
  | .untrackConn conn => v.charge = some (conn, .uncounted)
  | .spawn conn => v.charge = some (conn, .counted)
  | .begin _ => v.charge = none
  | .setReadDeadline conn t =>
      (∃ owned, v.charge = some (conn, .handled owned)) ∧
        ∃ now, v.seen = some now ∧ t ≤ now + cfg.longestRead
  | .readFrame conn _ =>
      v.armed = true ∧ ∃ owned, v.charge = some (conn, .handled owned) ∧
        (owned = none → v.fresh = true)
  | .create id conn =>
      v.charge = some (conn, .handled none) ∧ ∃ frame, v.frame = some frame ∧ Registers frame id
  | .markOffline id conn => v.charge = some (conn, .handled (some id))
  | .deliver _ a => a.attaches = false
  | _ => True

def protocol : Protocol sig Duty :=
  .ofAfter (May cfg) fun v => v.after cfg

variable {cfg}

/-! ## Work for one controller -/

theorem deliver_respects {α : Type} {p : Deliver α} (id : String)
    (h : p.Only fun a : Delivery.Act => a.attaches = false) (v : Duty) :
    (deliver id p).Respects (protocol cfg) (fun _ v' => v' = v) v := by
  induction p with
  | ret x => rfl
  | act a k ih =>
      refine ⟨h.1, ?_⟩
      rintro r v' rfl
      exact ih r (h.2 r)

theorem not_attaches_of_aside {a : Delivery.Act} (h : a.Aside) : a.attaches = false := by
  cases a <;> first | rfl | exact h.elim

theorem not_attaches_of_inFlush {a : Delivery.Act} (h : a.InFlush) : a.attaches = false := by
  cases a <;> first | rfl | exact h.elim

theorem process_respects (id : String) (v : Duty) :
    (deliver id (Delivery.processInFlight id)).Respects (protocol cfg) (fun _ v' => v' = v) v :=
  deliver_respects id ((Delivery.processInFlight_only id).mono fun _ => not_attaches_of_aside) v

theorem flush_respects (id : String) (v : Duty) :
    (deliver id (Delivery.withFlushLock (Delivery.flushQueue id))).Respects (protocol cfg)
      (fun _ v' => v' = v) v :=
  deliver_respects id ((Delivery.flush_only id).mono fun _ => not_attaches_of_inFlush) v

theorem sweep_respects (id : String) (v : Duty) :
    (deliver id (Delivery.sweep id)).Respects (protocol cfg) (fun _ v' => v' = v) v := by
  refine deliver_respects id ?_ v
  refine ((Delivery.processInFlight_only id).mono fun _ => not_attaches_of_aside).bind fun _ => ?_
  exact ((Delivery.flush_only id).mono fun _ => not_attaches_of_inFlush).bind fun _ => trivial

/-! ## The accept loop -/

theorem acceptConn_respects (remoteHost : ConnID → String) {v : Duty}
    (hacceptor : v.acceptor = true) (hidle : v.charge = none) :
    (acceptConn cfg remoteHost).Respects (protocol cfg) (fun _ v' => v'.charge = none) v := by
  have hclose : ∀ (conn : ConnID) (u : Duty), u.charge = some (conn, .accepted) →
      (perform (.close conn)).Respects (protocol cfg) (fun _ v' => v'.charge = none) u := by
    intro conn u hu
    refine ⟨trivial, ?_⟩
    rintro r v' rfl
    simp [after, hu]
  refine act_respects hidle fun conn => act_respects hacceptor fun n => ?_
  change Prog.Respects _ _ (ite _ _ _) _
  split
  · exact hclose conn _ rfl
  · rename_i hroom
    refine act_respects trivial fun now => act_respects trivial fun blocked => ?_
    cases blocked with
    | true => exact hclose conn _ rfl
    | false =>
        refine act_respects rfl fun tracked => ?_
        cases tracked with
        | false => exact hclose conn _ rfl
        | true =>
            refine act_respects (.inl ⟨rfl, rfl, ?_⟩) fun _ => ⟨rfl, ?_⟩
            · exact decide_eq_true (Int.not_le.mp hroom)
            · rintro r v' rfl
              rfl

/-! ## handleConn -/

/-- A handler whose loop has come to its end. -/
structure Stopped (v : Duty) (conn : ConnID) (l : Locals) : Prop where
  charge : v.charge = some (conn, .handled l.owned)
  named : l.registered = true → l.controllerID ≠ ""

/-- A handler that is about to read. -/
structure Looping (v : Duty) (conn : ConnID) (l : Locals) : Prop extends v.Stopped conn l where
  fresh : l.registered = false → v.fresh = true

variable {v : Duty} {conn : ConnID} {l : Locals} (remoteHost : ConnID → String)

theorem imeiString_ne_empty {payload : List UInt8} {reg : Registration}
    (h : parseRegistrationPayload payload = .ok reg) : imeiString reg.imei ≠ "" := by
  have hne : reg.imei ≠ [] := by
    unfold parseRegistrationPayload at h
    split at h
    · cases h
    · split at h
      · cases h
      · dsimp only at h
        split at h
        · cases h
        · rename_i hne
          split at h
          · cases h
          · cases h
            exact hne
  intro hempty
  apply hne
  simpa [imeiString] using hempty

/-- The goroutine has done nothing but look at the clock. -/
def Idles (v v' : Duty) : Prop :=
  ∃ seen, v' = { v with seen := seen }

theorem Idles.refl (v : Duty) : v.Idles v :=
  ⟨v.seen, rfl⟩

theorem Idles.stopped {v' : Duty} (hv : v.Idles v') (h : v.Stopped conn l) : v'.Stopped conn l := by
  obtain ⟨seen, rfl⟩ := hv
  exact ⟨h.charge, h.named⟩

theorem Idles.looping {v' : Duty} (hv : v.Idles v') (h : v.Looping conn l) : v'.Looping conn l := by
  refine ⟨hv.stopped h.toStopped, ?_⟩
  obtain ⟨seen, rfl⟩ := hv
  exact h.fresh

theorem violation_respects :
    (violation remoteHost conn).Respects (protocol cfg) (fun _ v' => v.Idles v') v :=
  act_respects trivial fun _ => ⟨trivial, fun _ _ hv => ⟨_, hv⟩⟩

theorem violationIfNew_respects :
    (violationIfNew remoteHost conn l).Respects (protocol cfg) (fun _ v' => v.Idles v') v := by
  unfold violationIfNew
  split
  · exact .refl v
  · exact violation_respects remoteHost

theorem sendRegistrationAck_respects (id : String) (mode : FrameMode) (seq : UInt8) :
    (sendRegistrationAck id conn mode seq).Respects (protocol cfg) (fun _ v' => v.Idles v') v := by
  refine act_respects trivial fun now => ?_
  split
  · exact ⟨_, rfl⟩
  · exact act_respects rfl fun _ => ⟨_, rfl⟩

theorem registerConn_respects {frame : Frame} (cmdID : UInt8)
    (hcharge : v.charge = some (conn, .handled none)) (hframe : v.frame = some frame) :
    (registerConn remoteHost conn frame cmdID).Respects (protocol cfg)
      (fun res v' => match res with
        | none => v'.charge = some (conn, .handled none)
        | some l => v'.Stopped conn l ∧ l.registered = true) v := by
  unfold registerConn
  split
  · refine (violation_respects remoteHost).bind fun _ v' hv => ?_
    obtain ⟨seen, rfl⟩ := hv
    exact hcharge
  · split
    · refine (violation_respects remoteHost).bind fun _ v' hv => ?_
      obtain ⟨seen, rfl⟩ := hv
      exact hcharge
    · rename_i reg hreg
      refine act_respects ⟨hcharge, frame, hframe, reg, hreg, rfl⟩ fun err => ?_
      cases err with
      | some err => exact hcharge
      | none =>
          refine act_respects rfl fun _ => ?_
          refine (sendRegistrationAck_respects _ frame.mode frame.seq).bind fun sent v' hv => ?_
          obtain ⟨seen, rfl⟩ := hv
          cases sent with
          | true =>
              exact act_respects trivial fun now =>
                ⟨⟨rfl, fun _ => imeiString_ne_empty hreg⟩, rfl⟩
          | false => exact act_respects rfl fun _ => rfl

/-- The handler stays attached to its session. -/
theorem serveConn_respects (frame : Frame) (h : v.Stopped conn l) (hregistered : l.registered = true) :
    (serveConn conn frame l).Respects (protocol cfg)
      (fun res v' => match res with
        | none => v'.Stopped conn l
        | some l' => v'.Looping conn l') v := by
  have hheartbeat : (heartbeat frame l).Respects (protocol cfg)
      (fun l' v' => v.Idles v' ∧ l'.registered = true ∧ l'.controllerID = l.controllerID) v := by
    unfold heartbeat
    split
    · exact act_respects trivial fun now => ⟨⟨_, rfl⟩, hregistered, rfl⟩
    · exact ⟨.refl v, hregistered, rfl⟩
  refine act_respects rfl fun _ => hheartbeat.bind fun l' v' hl => ?_
  obtain ⟨⟨seen, rfl⟩, hregistered', hid⟩ := hl
  have howned : l'.owned = l.owned := by
    simp only [Locals.owned, hregistered, hregistered', hid]
  have hloop : ({ v with seen := seen } : Duty).Looping conn l' := by
    refine ⟨⟨howned ▸ h.charge, fun _ => hid ▸ h.named hregistered⟩, fun hnew => ?_⟩
    rw [hregistered'] at hnew
    cases hnew
  have hdispatch := (Delivery.dispatch_only l.controllerID conn frame).mono
    fun _ => not_attaches_of_aside
  refine (deliver_respects l.controllerID hdispatch _).bind fun opened u hu => ?_
  subst hu
  cases opened with
  | false => exact ⟨h.charge, h.named⟩
  | true =>
      refine (process_respects l.controllerID _).bind fun _ u hu => ?_
      subst hu
      refine (flush_respects l.controllerID _).bind fun err u hu => ?_
      subst hu
      cases err with
      | some err => exact ⟨h.charge, h.named⟩
      | none => exact hloop

theorem handleFrame_respects {frame : Frame} (h : v.Stopped conn l) (hframe : v.frame = some frame) :
    (handleFrame remoteHost conn frame l).Respects (protocol cfg)
      (fun res v' => v'.Stopped conn res.1 ∧ (res.2 = true → v'.Looping conn res.1)) v := by
  have hserve : ∀ {l : Locals} {u : Duty}, u.Stopped conn l → l.registered = true →
      (serveConn conn frame l >>= fun res => (match res with
        | none => pure (l, false)
        | some l => pure (l, true) : Serve (Locals × Bool))).Respects (protocol cfg)
        (fun res v' => v'.Stopped conn res.1 ∧ (res.2 = true → v'.Looping conn res.1)) u := by
    intro l u hu hregistered
    refine (serveConn_respects frame hu hregistered).bind fun res u' hres => ?_
    cases res with
    | none => exact ⟨hres, nofun⟩
    | some l' => exact ⟨hres.toStopped, fun _ => hres⟩
  unfold handleFrame
  split
  · refine (violationIfNew_respects remoteHost).bind fun _ v' hv => ?_
    exact ⟨hv.stopped h, nofun⟩
  · rename_i cmdID hcmd
    split
    · rename_i hregistered
      exact hserve h hregistered
    · rename_i hnew
      have hcharge : v.charge = some (conn, .handled none) := by
        rw [h.charge, Locals.owned, if_neg hnew]
      refine (registerConn_respects remoteHost cmdID hcharge hframe).bind fun res v' hres => ?_
      cases res with
      | none =>
          refine ⟨⟨?_, fun hregistered => absurd hregistered hnew⟩, nofun⟩
          rw [Locals.owned, if_neg hnew]
          exact hres
      | some l' => exact hserve hres.1 hres.2

theorem inTime_respects (registrationDeadline : Time) :
    (inTime cfg remoteHost conn registrationDeadline l).Respects (protocol cfg)
      (fun _ v' => v.Idles v') v := by
  unfold inTime
  split
  · split
    · exact act_respects trivial fun _ => ⟨_, rfl⟩
    · exact .refl v
  · refine act_respects trivial fun now => ?_
    change Prog.Respects _ _ (ite _ _ _) _
    split
    · refine (violation_respects remoteHost).bind fun _ _ hv => ?_
      obtain ⟨seen, rfl⟩ := hv
      exact ⟨seen, rfl⟩
    · exact ⟨_, rfl⟩

theorem readWait_respects :
    (readWait cfg l).Respects (protocol cfg)
      (fun res v' => v.Idles v' ∧ ∀ wait, res = some wait → wait ≤ cfg.longestRead) v := by
  have hshorter : ∀ a b : Duration, (if a < b then a else b) ≤ b := by
    intro a b
    split
    · exact Int.le_of_lt ‹a < b›
    · exact Int.le_refl b
  unfold readWait
  dsimp only
  split
  · refine act_respects trivial fun now => ?_
    change Prog.Respects _ _ (ite _ _ _) _
    split
    · exact ⟨⟨_, rfl⟩, nofun⟩
    · refine ⟨⟨_, rfl⟩, ?_⟩
      rintro wait ⟨⟩
      exact hshorter _ cfg.longestRead
  · refine ⟨.refl v, ?_⟩
    rintro wait ⟨⟩
    exact Int.le_refl _

theorem readLoop_respects (registrationDeadline : Time) (fuel : ℕ) (h : v.Looping conn l) :
    (readLoop cfg remoteHost conn registrationDeadline fuel l).Respects (protocol cfg)
      (fun l' v' => v'.Stopped conn l') v := by
  induction fuel generalizing v l with
  | zero => exact act_respects trivial fun _ => h.toStopped
  | succ fuel ih =>
      refine (inTime_respects remoteHost registrationDeadline).bind fun more u hu => ?_
      replace h := hu.looping h
      cases more with
      | false => exact h.toStopped
      | true =>
          refine readWait_respects.bind fun wait u' hu => ?_
          obtain ⟨hu, hwait⟩ := hu
          replace h := hu.looping h
          cases wait with
          | none => exact h.toStopped
          | some wait =>
              refine act_respects trivial fun now => ?_
              have hlimit : now + wait ≤ now + cfg.longestRead :=
                Int.add_le_add_left (hwait wait rfl) now
              refine act_respects ⟨⟨_, h.charge⟩, now, rfl, hlimit⟩ fun _ => ?_
              have hfirst : l.owned = none → u'.fresh = true := by
                intro hnone
                refine h.fresh (Bool.eq_false_iff.mpr fun hregistered => ?_)
                rw [Locals.owned, if_pos hregistered] at hnone
                cases hnone
              refine act_respects ⟨rfl, _, h.charge, hfirst⟩ fun res => ?_
              cases res with
              | error err =>
                  change Prog.Respects _ _ (ite _ _ _) _
                  split
                  · refine (violationIfNew_respects remoteHost).bind fun _ u hu => ?_
                    exact hu.stopped ⟨h.charge, h.named⟩
                  · exact ⟨h.charge, h.named⟩
              | ok frame =>
                  have hread : ({ u' with
                      seen := some now
                      fresh := false
                      armed := false
                      frame := some frame } : Duty).Stopped conn l := ⟨h.charge, h.named⟩
                  refine (handleFrame_respects remoteHost hread rfl).bind fun res u hres => ?_
                  obtain ⟨l', more⟩ := res
                  cases more with
                  | true => exact ih (hres.2 rfl)
                  | false => exact hres.1

/-- Whichever way the loop ended, the handler gives everything back. -/
theorem cleanUp_respects (h : v.Stopped conn l) :
    (cleanUp conn l).Respects (protocol cfg) (fun _ v' => v'.charge = none) v := by
  have hrest : ∀ {u : Duty}, u.charge = some (conn, .handled none) →
      (perform (.activeAdd conn (-1)) >>= fun _ => perform (.untrackConn conn) >>= fun _ =>
        perform (.close conn)).Respects (protocol cfg) (fun _ v' => v'.charge = none) u := by
    intro u hu
    refine act_respects (.inr ⟨rfl, hu⟩) fun _ => act_respects rfl fun _ => ⟨trivial, ?_⟩
    rintro r v' rfl
    rfl
  unfold cleanUp
  split
  · rename_i hregistered
    refine act_respects ?_ fun _ => hrest rfl
    have hcharge := h.charge
    rwa [Locals.owned, if_pos hregistered.1] at hcharge
  · rename_i hnot
    refine hrest ?_
    have hnew : ¬ l.registered = true := fun hregistered =>
      hnot ⟨hregistered, h.named hregistered⟩
    rw [h.charge, Locals.owned, if_neg hnew]

theorem handleConn_respects (fuel : ℕ) (hidle : v.charge = none) :
    (handleConn cfg remoteHost conn fuel).Respects (protocol cfg)
      (fun _ v' => v'.charge = none) v := by
  refine act_respects hidle fun _ => act_respects trivial fun lastHeartbeat => ?_
  refine act_respects trivial fun now => ?_
  refine (readLoop_respects remoteHost _ fuel ?_).bind fun l u hu => cleanUp_respects hu
  exact ⟨⟨rfl, nofun⟩, fun _ => rfl⟩

theorem prog_respects (task : Task) (hacceptor : task = .accept → v.acceptor = true)
    (hidle : v.charge = none) :
    (task.prog cfg remoteHost).Respects (protocol cfg) (fun _ v' => v'.charge = none) v := by
  cases task with
  | accept => exact acceptConn_respects remoteHost (hacceptor rfl) hidle
  | handle conn fuel => exact handleConn_respects remoteHost fuel hidle
  | sweep id => exact (sweep_respects id v).mono fun _ _ hv => hv ▸ hidle
  | enqueue id cmd fuel =>
      have honly := (Delivery.enqueueCommand_only cfg.delivery id cmd fuel).mono
        fun _ ha => not_attaches_of_aside ha.aside
      exact (deliver_respects id honly v).bind fun _ _ hv => hv ▸ hidle

end Duty

end TcpAdapter.Server
