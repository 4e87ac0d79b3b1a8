import TcpAdapter.Verification.Server.Ownership

/-! # What a handler registers

The handler of a connection registers a controller on it, or a violation of its remote host, and
then does neither again. -/

namespace TcpAdapter.Server

open TcpAdapter.Concurrent TcpAdapter.Queue TcpAdapter.Protocol TcpAdapter.Manager
open TcpAdapter.Delivery (Deliver)

/-! ## The protocol of a handler -/

structure Conduct where
  /-- The connection that it handles. -/
  conn : Option ConnID := none
  /-- It has registered a controller or a violation. -/
  spent : Bool := false

namespace Conduct

variable (remoteHost : ConnID → String)

def after (v : Conduct) : (a : Act) → a.Res → Conduct
  | .begin conn, _ => { conn := some conn }
  | .registerIPViolation _ _, _ | .create _ _, none => { v with spent := true }
  | .activeAdd _ _, _ => {}
  | _, _ => v

/-- The handler still may register something for the connection. -/
structure Open (v : Conduct) (conn : ConnID) : Prop where
  conn : v.conn = some conn
  spent : v.spent = false

def May (v : Conduct) : Act → Prop
  | .registerIPViolation host _ => ∃ conn, v.Open conn ∧ remoteHost conn = host
  | .create _ conn => v.Open conn
  | _ => True

def protocol : Protocol sig Conduct :=
  .ofAfter (May remoteHost) after

/-- The actions that have nothing to do with it. -/
def Quiet : Act → Prop
  | .begin _ | .registerIPViolation _ _ | .create _ _ | .activeAdd _ _ => False
  | _ => True

variable {remoteHost} {v : Conduct} {conn : ConnID} {l : Locals} {α : Type}

theorem after_quiet {a : Act} (ha : Quiet a) (r : a.Res) : v.after a r = v := by
  cases a with
  | begin | registerIPViolation | create | activeAdd => exact ha.elim
  | _ => rfl

theorem may_quiet {a : Act} (ha : Quiet a) : v.May remoteHost a := by
  cases a with
  | begin | registerIPViolation | create | activeAdd => exact ha.elim
  | _ => trivial

theorem respects_of_quiet {p : Serve α} (h : p.Only Quiet) :
    p.Respects (protocol remoteHost) (fun _ v' => v' = v) v := by
  refine h.respects (I := fun v' => v' = v) (fun a v' ha hv => ⟨may_quiet ha, ?_⟩) rfl
  rintro r _ rfl
  rw [hv, after_quiet ha]

theorem deliver_quiet (id : String) (p : Deliver α) : (deliver id p).Only Quiet := by
  induction p with
  | ret x => trivial
  | act a k ih => exact ⟨trivial, ih⟩

theorem acceptConn_respects (cfg : Config) (hidle : v.conn = none) :
    (acceptConn cfg remoteHost).Respects (protocol remoteHost) (fun _ v' => v'.conn = none) v := by
  refine act_respects trivial fun conn => act_respects trivial fun n => ?_
  split
  · exact act_respects trivial fun _ => hidle
  · refine act_respects trivial fun now => act_respects trivial fun blocked => ?_
    split
    · exact act_respects trivial fun _ => hidle
    · refine act_respects trivial fun ok => ?_
      split
      · exact act_respects trivial fun _ => act_respects trivial fun _ => rfl
      · exact act_respects trivial fun _ => hidle

theorem violation_respects (h : v.Open conn) :
    (violation remoteHost conn).Respects (protocol remoteHost) (fun _ _ => True) v :=
  act_respects trivial fun _ => act_respects ⟨conn, h, rfl⟩ fun _ => trivial

/-- A handler in its loop: as long as no controller has registered, it may. -/
structure Able (v : Conduct) (conn : ConnID) (l : Locals) : Prop where
  conn : v.conn = some conn
  spent : l.registered = false → v.spent = false

theorem violationIfNew_respects (h : v.Able conn l) :
    (violationIfNew remoteHost conn l).Respects (protocol remoteHost) (fun _ _ => True) v := by
  unfold violationIfNew
  split
  · trivial
  · rename_i hnew
    exact violation_respects ⟨h.conn, h.spent (Bool.eq_false_iff.mpr hnew)⟩

theorem registerConn_respects {frame : Frame} {cmdID : UInt8} (h : v.Open conn) :
    (registerConn remoteHost conn frame cmdID).Respects (protocol remoteHost)
      (fun res v' => ∀ l', res = some l' → l'.registered = true ∧ v'.conn = some conn) v := by
  have hnone : ∀ {v' : Conduct} (l' : Locals), (none : Option Locals) = some l' →
      l'.registered = true ∧ v'.conn = some conn := by
    rintro v' l' ⟨⟩
  unfold registerConn
  split
  · exact (violation_respects h).bind fun _ _ _ => hnone
  · split
    · exact (violation_respects h).bind fun _ _ _ => hnone
    · rename_i reg hreg
      refine act_respects h fun err => ?_
      cases err with
      | some err => exact hnone
      | none =>
          refine act_respects trivial fun _ => ?_
          have hack : (sendRegistrationAck (imeiString reg.imei) conn frame.mode frame.seq).Respects
              (protocol remoteHost) (fun _ v' => v'.conn = some conn) { v with spent := true } := by
            refine act_respects trivial fun now => ?_
            split
            · exact h.conn
            · exact act_respects trivial fun _ => h.conn
          refine hack.bind fun sent v' hv' => ?_
          split
          · refine act_respects trivial fun t l' hl' => ?_
            obtain rfl := Option.some.inj hl'
            exact ⟨rfl, hv'⟩
          · exact act_respects trivial fun _ => hnone

theorem serveConn_respects {frame : Frame} :
    (serveConn conn frame l).Respects (protocol remoteHost)
      (fun res v' => v' = v ∧ ∀ l', res = some l' → l'.registered = l.registered) v := by
  have hheartbeat : (heartbeat frame l).Respects (protocol remoteHost)
      (fun l' v' => v' = v ∧ l'.registered = l.registered) v := by
    unfold heartbeat
    split
    · exact act_respects trivial fun _ => ⟨rfl, rfl⟩
    · exact ⟨rfl, rfl⟩
  refine act_respects trivial fun _ => hheartbeat.bind ?_
  rintro l₁ _ ⟨rfl, hregistered⟩
  refine (respects_of_quiet (deliver_quiet _ _)).bind ?_
  rintro opened _ rfl
  split
  · refine (respects_of_quiet (deliver_quiet _ _)).bind ?_
    rintro _ _ rfl
    refine (respects_of_quiet (deliver_quiet _ _)).bind ?_
    rintro err _ rfl
    cases err with
    | some err => exact ⟨rfl, by rintro l' ⟨⟩⟩
    | none =>
        refine ⟨rfl, fun l' hl' => ?_⟩
        obtain rfl := Option.some.inj hl'
        exact hregistered
  · exact ⟨rfl, by rintro l' ⟨⟩⟩

/-- A handler goes on after a frame only if a controller has registered. -/
theorem handleFrame_respects {frame : Frame} (h : v.Able conn l) :
    (handleFrame remoteHost conn frame l).Respects (protocol remoteHost)
      (fun res v' => res.2 = true → v'.Able conn res.1) v := by
  have hserve : ∀ {l : Locals} {u : Conduct}, u.conn = some conn → l.registered = true →
      (serveConn conn frame l).Respects (protocol remoteHost)
        (fun res v' => ∀ l', res = some l' → v'.Able conn l') u := by
    intro l u hu hregistered
    refine serveConn_respects.mono ?_
    rintro res _ ⟨rfl, hres⟩ l' hl'
    refine ⟨hu, fun hnew => ?_⟩
    have hsame : l'.registered = true := (hres l' hl').trans hregistered
    rw [hsame] at hnew
    cases hnew
  unfold handleFrame
  split
  · exact (violationIfNew_respects h).bind fun _ _ _ hmore => by cases hmore
  · split
    · rename_i hregistered
      refine (hserve h.conn hregistered).bind fun res v' hres => ?_
      cases res with
      | none => exact fun hmore => by cases hmore
      | some l' => exact fun _ => hres l' rfl
    · rename_i hnew
      refine (registerConn_respects ⟨h.conn, h.spent (Bool.eq_false_iff.mpr hnew)⟩).bind
        fun res v' hres => ?_
      cases res with
      | none => exact fun hmore => by cases hmore
      | some l' =>
          refine (hserve (hres l' rfl).2 (hres l' rfl).1).bind fun res v' hres => ?_
          cases res with
          | none => exact fun hmore => by cases hmore
          | some l' => exact fun _ => hres l' rfl

theorem inTime_respects (cfg : Config) (registrationDeadline : Time) (h : v.Able conn l) :
    (inTime cfg remoteHost conn registrationDeadline l).Respects (protocol remoteHost)
      (fun ok v' => ok = true → v' = v) v := by
  unfold inTime
  split
  · split
    · exact act_respects trivial fun _ _ => rfl
    · exact fun _ => rfl
  · rename_i hnew
    refine act_respects trivial fun now => ?_
    split
    · refine (violation_respects ⟨h.conn, h.spent (Bool.eq_false_iff.mpr hnew)⟩).bind
        fun _ _ _ => nofun
    · exact fun _ => rfl

theorem readWait_respects (cfg : Config) :
    (readWait cfg l).Respects (protocol remoteHost) (fun _ v' => v' = v) v := by
  unfold readWait
  dsimp only
  split
  · refine act_respects trivial fun now => ?_
    split <;> rfl
  · rfl

theorem readLoop_respects (cfg : Config) (registrationDeadline : Time) (fuel : ℕ)
    (h : v.Able conn l) :
    (readLoop cfg remoteHost conn registrationDeadline fuel l).Respects (protocol remoteHost)
      (fun _ _ => True) v := by
  induction fuel generalizing v l with
  | zero => exact act_respects trivial fun _ => trivial
  | succ fuel ih =>
      refine (inTime_respects cfg registrationDeadline h).bind fun ok v' hv' => ?_
      cases ok with
      | false => trivial
      | true =>
          obtain rfl := hv' rfl
          refine (readWait_respects cfg).bind ?_
          rintro wait _ rfl
          cases wait with
          | none => trivial
          | some wait =>
              refine act_respects trivial fun now => act_respects trivial fun _ => ?_
              refine act_respects trivial fun res => ?_
              cases res with
              | error err =>
                  change Prog.Respects _ _ (ite _ _ _) _
                  split
                  · exact (violationIfNew_respects h).bind fun _ _ _ => trivial
                  · trivial
              | ok frame =>
                  refine (handleFrame_respects h).bind fun res v' hres => ?_
                  obtain ⟨l', more⟩ := res
                  cases more with
                  | true => exact ih (hres rfl)
                  | false => trivial

/-- The handler has let go of its connection when it returns. -/
theorem cleanUp_respects :
    (cleanUp conn l).Respects (protocol remoteHost) (fun _ v' => v'.conn = none) v := by
  have hrest : ∀ {v : Conduct}, (perform (.activeAdd conn (-1)) >>= fun _ =>
      perform (.untrackConn conn) >>= fun _ => perform (.close conn)).Respects
        (protocol remoteHost) (fun _ v' => v'.conn = none) v :=
    act_respects trivial fun _ => act_respects trivial fun _ => act_respects trivial fun _ => rfl
  unfold cleanUp
  split
  · exact act_respects trivial fun _ => hrest
  · exact hrest

theorem prog_respects (cfg : Config) (task : Task) (hidle : v.conn = none) :
    (Task.prog cfg remoteHost task).Respects (protocol remoteHost) (fun _ v' => v'.conn = none) v := by
  have hquiet : ∀ {id : String} {p : Deliver Unit}, (deliver id p).Respects (protocol remoteHost)
      (fun _ v' => v'.conn = none) v := fun {id p} =>
    (respects_of_quiet (deliver_quiet id p)).mono fun _ v' hv => hv ▸ hidle
  cases task with
  | accept => exact acceptConn_respects cfg hidle
  | handle conn fuel =>
      refine act_respects trivial fun _ => act_respects trivial fun _ => ?_
      refine act_respects trivial fun _ => ?_
      refine (readLoop_respects cfg _ fuel ⟨rfl, fun _ => rfl⟩).bind fun l _ _ => ?_
      exact cleanUp_respects
  | sweep id => exact hquiet
  | enqueue id cmd fuel =>
      exact (respects_of_quiet (deliver_quiet id _)).bind fun _ v' hv => hv ▸ hidle

end Conduct

end TcpAdapter.Server
