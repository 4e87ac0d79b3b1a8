import TcpAdapter.Concurrent.Simulation
import TcpAdapter.Verification.Server.Duties
import TcpAdapter.Verification.Server.Locks

/-! # The server as seen by one controller

The goroutines of the server serve all controllers at once and share `Manager.mu`. What they do
for one controller is what the goroutines of its delivery engine alone could have done: every
state of the server, seen by one controller, is a state of that engine. What holds in all runs
of one engine therefore holds for every controller of the whole server. -/

namespace TcpAdapter.Delivery

open TcpAdapter.Concurrent TcpAdapter.Queue TcpAdapter.Protocol TcpAdapter.Manager
open TcpAdapter.Policy

/-! ## Somebody else's use of the mutex -/

def World.withMu (w : World) (mu : Option ℕ) : World :=
  { w with mu := mu }

section withMu

variable {cfg : Config} {id : String} {tid : ℕ} {w : World} {inp : Input} {mu mu' : Option ℕ}

theorem settle_withMu (w : World) (h : Hand) :
    (w.withMu mu').settle tid h = ((w.withMu mu).settle tid h).withMu mu' := by
  by_cases howed : (tid, h) ∈ w.owed
  · simp [World.settle, World.withMu, howed]
  · by_cases hcurrent : w.flushMu = some tid ∧ w.current = some h
    · simp [World.settle, World.withMu, World.release, howed, hcurrent]
    · simp [World.settle, World.withMu, howed, hcurrent]

/-- A result with another holder of the mutex. -/
def withMu {α : Type} (mu : Option ℕ) (res : World × α) : World × α :=
  (res.1.withMu mu, res.2)

theorem execTransmit_withMu (bytes : List UInt8) (cmd : Command) (seq : UInt8) :
    execTransmit (w.withMu mu') bytes cmd seq inp =
      withMu mu' (execTransmit (w.withMu mu) bytes cmd seq inp) := by
  unfold execTransmit
  cases inp.writeErr <;> rfl

theorem execPublish_withMu (event : AckEvent) (cmd : Command) :
    execPublish tid (w.withMu mu') event cmd =
      (execPublish tid (w.withMu mu) event cmd).withMu mu' := by
  unfold execPublish
  cases isTerminalAckStatus event.status with
  | false => rfl
  | true => exact settle_withMu (w.note (.published event (some cmd.ticket))) cmd.hand

theorem execPop_withMu (fwMode syncMode : Bool) :
    execPop (w.withMu mu') fwMode syncMode =
      withMu mu' (execPop (w.withMu mu) fwMode syncMode) := by
  have hqueue : ∀ mu, (w.withMu mu).queue = w.queue := fun _ => rfl
  unfold execPop
  rw [hqueue, hqueue]
  split <;> rfl

theorem execDropOldest_withMu :
    execDropOldest (w.withMu mu') = withMu mu' (execDropOldest (w.withMu mu)) := by
  have hqueue : ∀ mu, (w.withMu mu).queue = w.queue := fun _ => rfl
  unfold execDropOldest
  rw [hqueue, hqueue]
  split <;> rfl

theorem execRegister_withMu (seq : UInt8) (cmd : Command) (sentAt : Time) :
    execRegister (w.withMu mu') seq cmd sentAt inp =
      withMu mu' (execRegister (w.withMu mu) seq cmd sentAt inp) := by
  have hsession : ∀ mu, (w.withMu mu).session = w.session := fun _ => rfl
  unfold execRegister
  rw [hsession, hsession]
  cases w.session <;> rfl

theorem execAck_withMu (seq : UInt8) :
    execAck tid (w.withMu mu') seq inp = withMu mu' (execAck tid (w.withMu mu) seq inp) := by
  have hslot : ∀ mu, (w.withMu mu).slot = w.slot := fun _ => rfl
  unfold execAck
  rw [hslot, hslot]
  split <;> rfl

theorem execVisit_withMu (seq : UInt8) (now : Time) :
    execVisit cfg tid (w.withMu mu') seq now =
      withMu mu' (execVisit cfg tid (w.withMu mu) seq now) := by
  have hsession : ∀ mu, (w.withMu mu).session = w.session := fun _ => rfl
  unfold execVisit
  rw [hsession, hsession]
  cases w.session with
  | none => rfl
  | some s =>
      dsimp only
      split
      · rfl
      · split <;> rfl

theorem execPersist_withMu :
    execPersist tid (w.withMu mu') inp = withMu mu' (execPersist tid (w.withMu mu) inp) := by
  have hslot : ∀ mu, (w.withMu mu).slot = w.slot := fun _ => rfl
  unfold execPersist method
  rw [hslot, hslot]
  cases (w.slot.ackSent inp.saveErr).2 <;> rfl

theorem execEnqueued_withMu (ticket : ℕ) :
    execEnqueued (w.withMu mu') ticket inp =
      withMu mu' (execEnqueued (w.withMu mu) ticket inp) := by
  have hslot : ∀ mu, (w.withMu mu).slot = w.slot := fun _ => rfl
  unfold execEnqueued method
  rw [hslot, hslot]
  cases (w.slot.ackSent inp.saveErr).2 <;> rfl

/-- What an action does besides depends on the mutex only if it waits for it. -/
theorem exec_withMu {a : Act} (hlock : a ≠ .lockManager) (hunlock : a ≠ .unlockManager)
    (hpass : Server.Mutex.use id a = .pass .manager →
      (w.withMu mu).free tid = true ∧ (w.withMu mu').free tid = true) :
    exec cfg id tid (w.withMu mu') a inp =
      (exec cfg id tid (w.withMu mu) a inp).map (withMu mu') := by
  have hguarded : ∀ {α : Type} (x x' : World × α), Server.Mutex.use id a = .pass .manager →
      x' = withMu mu' x →
      guarded tid (w.withMu mu') x' = (guarded tid (w.withMu mu) x).map (withMu mu') := by
    rintro α x _ huse rfl
    rw [guarded, guarded, if_pos (hpass huse).1, if_pos (hpass huse).2]
    rfl
  cases a with
  | lockManager => exact absurd rfl hlock
  | unlockManager => exact absurd rfl hunlock
  | create | markOffline | touch | updateBufferFree | setFWMode | setSyncMode | setFrameMode
  | deliveryContext | inFlightCount | ackSent | nextCommandSeq | peekInFlight =>
      exact hguarded _ _ rfl rfl
  | registerInFlight seq cmd sentAt => exact hguarded _ _ rfl (execRegister_withMu seq cmd sentAt)
  | ackInFlight seq => exact hguarded _ _ rfl (execAck_withMu seq)
  | transmit conn bytes cmd seq => exact congrArg some (execTransmit_withMu bytes cmd seq)
  | publishAckWithCommand event cmd =>
      exact congrArg (fun w => some (w, ())) (execPublish_withMu event cmd)
  | popNext now fwMode syncMode => exact congrArg some (execPop_withMu fwMode syncMode)
  | dropOldest => exact congrArg some execDropOldest_withMu
  | visitInFlight seq now => exact congrArg some (execVisit_withMu seq now)
  | persist => exact congrArg some execPersist_withMu
  | persistEnqueued ticket => exact congrArg some (execEnqueued_withMu ticket)
  | lockFlush =>
      have hflush : ∀ mu, (w.withMu mu).flushMu = w.flushMu := fun _ => rfl
      simp only [exec, hflush]
      split <;> rfl
  | setDedup key t =>
      have hsession : ∀ mu, (w.withMu mu).session = w.session := fun _ => rfl
      simp only [exec, hsession]
      split <;> rfl
  | inFlightOrder =>
      have hentries : ∀ mu, (w.withMu mu).inFlight = w.inFlight := fun _ => rfl
      simp only [exec, hentries]
      split <;> rfl
  | _ => rfl

/-- A method of the manager has waited for the mutex. -/
theorem free_of_exec {a : Act} {r : a.Res} {w' : World}
    (huse : Server.Mutex.use id a = .pass .manager)
    (h : exec cfg id tid w a inp = some (w', r)) : w.free tid = true := by
  have hguarded : ∀ {α : Type} {x y : World × α}, guarded tid w x = some y → w.free tid = true := by
    intro α x y hx
    unfold guarded at hx
    split at hx
    · assumption
    · cases hx
  cases a with
  | create | markOffline | touch | updateBufferFree | setFWMode | setSyncMode | setFrameMode
  | deliveryContext | inFlightCount | ackSent | nextCommandSeq | registerInFlight | ackInFlight
  | peekInFlight => exact hguarded h
  | _ => cases huse

end withMu

end TcpAdapter.Delivery

namespace TcpAdapter.Server

open TcpAdapter.Concurrent TcpAdapter.Queue TcpAdapter.Protocol TcpAdapter.Manager
open TcpAdapter.Delivery (Deliver)

/-! ## What shows of the server -/

/-- A controller sees what is done for it. The engine may read the clock when the server has
read it. -/
def shows (id : String) : Showing sig Delivery.sig where
  image a := a.engine.bind fun e => if e.1 = id then some e.2 else none
  aside a := a.engine = none
  free b := b = .now

/-- What a goroutine of the server still has to do shows as what one of the engine has to do. -/
abbrev Shown (cfg : Config) (id : String) : Serve Unit → Deliver Unit → Prop :=
  Follows (shows id) (Delivery.machine cfg.delivery id).IsTask

section programs

variable {cfg : Config} {remoteHost : ConnID → String} {id : String} {conn : ConnID} {l : Locals}
  {α β : Type}

theorem image_off_engine {a : Act} (h : a.engine = none) : (shows id).image a = none := by
  simp [shows, h]

theorem image_deliver_self (a : Delivery.Act) :
    (shows id).image (.deliver id a) = some ⟨a, fun r => r⟩ := by
  simp [shows, Act.engine]

theorem image_create_self (conn : ConnID) :
    (shows id).image (.create id conn) = some ⟨.create conn, fun r => r⟩ := by
  simp [shows, Act.engine]

theorem image_markOffline_self (conn : ConnID) :
    (shows id).image (.markOffline id conn) = some ⟨.markOffline, fun r => r⟩ := by
  simp [shows, Act.engine]

theorem image_deliver_other {other : String} (hne : other ≠ id) (a : Delivery.Act) :
    (shows id).image (.deliver other a) = none := by
  simp [shows, Act.engine, hne]

/-- Work for the controller shows as it is. -/
theorem shown_deliver {p : Deliver α} {k : α → Serve Unit} {k' : α → Deliver Unit}
    (h : ∀ x, Shown cfg id (k x) (k' x)) : Shown cfg id (deliver id p >>= k) (p >>= k') := by
  induction p with
  | ret x => exact h x
  | act a k₀ ih => exact .seen (image_deliver_self a) ih

theorem shown_engine (p : Deliver Unit) : Shown cfg id (deliver id p) p := by
  induction p with
  | ret x => exact .done
  | act a k ih => exact .seen (image_deliver_self a) ih

/-- Work for another controller does not show. -/
theorem hidden_deliver {other : String} (hne : other ≠ id) (p : Deliver α) :
    (shows id).Hidden (fun _ => True) (deliver other p) := by
  induction p with
  | ret x => trivial
  | act a k ih => exact ⟨image_deliver_other hne a, ih⟩

theorem hidden_own {a : Act} {k : a.Res → Serve α} {post : α → Prop} (ha : a.engine = none)
    (hk : ∀ r, (shows id).Hidden post (k r)) : (shows id).Hidden post (perform a >>= k) :=
  ⟨image_off_engine ha, hk⟩

theorem hidden_acceptConn : (shows id).Hidden (fun _ => True) (acceptConn cfg remoteHost) := by
  refine hidden_own rfl fun conn => hidden_own rfl fun n => ?_
  split
  · exact hidden_own rfl fun _ => trivial
  · refine hidden_own rfl fun now => hidden_own rfl fun blocked => ?_
    split
    · exact hidden_own rfl fun _ => trivial
    · refine hidden_own rfl fun ok => ?_
      split
      · exact hidden_own rfl fun _ => hidden_own rfl fun _ => trivial
      · exact hidden_own rfl fun _ => trivial

theorem hidden_violation : (shows id).Hidden (fun _ => True) (violation remoteHost conn) :=
  hidden_own rfl fun _ => hidden_own rfl fun _ => trivial

theorem hidden_violationIfNew :
    (shows id).Hidden (fun _ => True) (violationIfNew remoteHost conn l) := by
  unfold violationIfNew
  split
  · trivial
  · exact hidden_violation

theorem hidden_inTime (registrationDeadline : Time) :
    (shows id).Hidden (fun _ => True) (inTime cfg remoteHost conn registrationDeadline l) := by
  unfold inTime
  split
  · split
    · exact hidden_own rfl fun _ => trivial
    · trivial
  · refine hidden_own rfl fun now => ?_
    split
    · exact hidden_violation.bind fun _ _ => trivial
    · trivial

theorem hidden_readWait : (shows id).Hidden (fun _ => True) (readWait cfg l) := by
  unfold readWait
  dsimp only
  split
  · refine hidden_own rfl fun now => ?_
    split <;> trivial
  · trivial

/-- The rest of the clean-up does not show. -/
theorem shown_rest :
    Shown cfg id (perform (.activeAdd conn (-1)) >>= fun _ =>
      perform (.untrackConn conn) >>= fun _ => perform (.close conn)) (.ret ()) := by
  iterate 3 refine .silent (image_off_engine rfl) (.inr rfl) fun _ => ?_
  exact .done

/-- The locals of a handler that may go on: a registered controller has a name. -/
def Locals.Named (l : Locals) : Prop :=
  l.registered = true → l.controllerID ≠ ""

/-- The session ends in the middle of a task: the clean-up marks it offline. -/
theorem shown_cleanUp_lost (hregistered : l.registered = true) (hid : l.controllerID = id)
    (hne : id ≠ "") :
    Shown cfg id (cleanUp conn l) (Delivery.perform .markOffline >>= fun _ => .ret ()) := by
  subst hid
  unfold cleanUp
  rw [if_pos ⟨hregistered, hne⟩]
  exact .seen (image_markOffline_self conn) fun _ => shown_rest

/-- The session ends between two tasks: its end is one of its own. -/
theorem shown_cleanUp : Shown cfg id (cleanUp conn l) (.ret ()) := by
  by_cases hmine : l.registered = true ∧ l.controllerID ≠ ""
  · by_cases hid : l.controllerID = id
    · refine .start ⟨.disconnect, rfl⟩ ?_
      exact shown_cleanUp_lost hmine.1 hid (hid ▸ hmine.2)
    · unfold cleanUp
      rw [if_pos hmine]
      refine .silent ?_ (.inr rfl) fun _ => shown_rest
      simp [shows, Act.engine, hid]
  · unfold cleanUp
    rw [if_neg hmine]
    exact shown_rest

/-- A heartbeat only reads the clock and notes the time. -/
theorem shown_heartbeat {frame : Frame} {k : Locals → Serve Unit} {q : Deliver Unit}
    (h : ∀ t, Shown cfg id (k { l with lastHeartbeat := t }) q) :
    Shown cfg id (heartbeat frame l >>= k) q := by
  unfold heartbeat
  split
  · exact .silent (image_off_engine rfl) (.inl rfl) h
  · exact h l.lastHeartbeat

/-- A frame on a registered connection shows as the task that serves it. -/
theorem shown_serveConn {frame : Frame} {k : Option Locals → Serve Unit}
    (hid : l.controllerID = id)
    (hsome : ∀ t, Shown cfg id (k (some { l with lastHeartbeat := t })) (.ret ()))
    (hnone : Shown cfg id (k none) (Delivery.perform .markOffline >>= fun _ => .ret ())) :
    Shown cfg id (serveConn conn frame l >>= k) (Delivery.serveFrame id conn frame) := by
  subst hid
  refine .seen (image_deliver_self .touch) fun _ => ?_
  change Shown cfg _ ((heartbeat frame l >>= _) >>= k)
    ((Delivery.dispatch _ conn frame >>= _) >>= _)
  simp only [Prog.bind_bind]
  refine shown_heartbeat fun t => shown_deliver fun opened => ?_
  cases opened with
  | false => exact hnone
  | true =>
      simp only [if_true, Prog.bind_bind]
      refine shown_deliver fun _ => shown_deliver fun err => ?_
      cases err with
      | none => exact hsome t
      | some err => exact hnone

/-- A frame of another controller does not show. -/
theorem hidden_serveConn {frame : Frame} (hne : l.controllerID ≠ id) :
    (shows id).Hidden (fun res => ∀ l', res = some l' → ∃ t, l' = { l with lastHeartbeat := t })
      (serveConn conn frame l) := by
  have hheartbeat : (shows id).Hidden (fun l' => ∃ t, l' = { l with lastHeartbeat := t })
      (heartbeat frame l) := by
    unfold heartbeat
    split
    · exact hidden_own rfl fun t => ⟨t, rfl⟩
    · exact ⟨l.lastHeartbeat, rfl⟩
  refine ⟨image_deliver_other hne .touch, fun _ => hheartbeat.bind ?_⟩
  rintro _ ⟨t, rfl⟩
  refine (hidden_deliver hne _).bind fun opened _ => ?_
  split
  · refine (hidden_deliver hne _).bind fun _ _ => (hidden_deliver hne _).bind fun err _ => ?_
    cases err with
    | some err => exact fun l' hl' => by cases hl'
    | none => exact fun l' hl' => ⟨t, (Option.some.inj hl').symm⟩
  · exact fun l' hl' => by cases hl'

theorem hidden_registerConn {frame : Frame} {cmdID : UInt8}
    (hne : cmdID = 1 → ∀ reg, parseRegistrationPayload frame.payload = .ok reg →
      imeiString reg.imei ≠ id) :
    (shows id).Hidden
      (fun res => ∀ l', res = some l' → l'.controllerID ≠ id ∧ l'.controllerID ≠ "")
      (registerConn remoteHost conn frame cmdID) := by
  have hnone : ∀ l' : Locals, (none : Option Locals) = some l' →
      l'.controllerID ≠ id ∧ l'.controllerID ≠ "" := fun l' hl' => by cases hl'
  unfold registerConn
  split
  · exact hidden_violation.bind fun _ _ => hnone
  · rename_i hcmd
    split
    · exact hidden_violation.bind fun _ _ => hnone
    · rename_i reg hreg
      have hother := hne (not_not.mp hcmd) reg hreg
      refine ⟨by simp [shows, Act.engine, hother], fun err => ?_⟩
      cases err with
      | some err => exact hnone
      | none =>
          refine ⟨image_deliver_other hother _, fun _ => ?_⟩
          have hack : (shows id).Hidden (fun _ => True)
              (sendRegistrationAck (imeiString reg.imei) conn frame.mode frame.seq) := by
            refine hidden_own rfl fun now => ?_
            split
            · trivial
            · exact ⟨image_deliver_other hother _, fun _ => trivial⟩
          refine hack.bind fun sent _ => ?_
          split
          · refine hidden_own rfl fun t l' hl' => ?_
            obtain rfl := Option.some.inj hl'
            exact ⟨hother, Duty.imeiString_ne_empty hreg⟩
          · exact ⟨by simp [shows, Act.engine, hother], fun _ => hnone⟩

/-- The registration of the controller shows as the task that registers it. The engine reads
the clock once the server has, and gets the same time for its acknowledgement. -/
theorem shown_registerConn {frame : Frame} {reg : Registration} {k : Option Locals → Serve Unit}
    (hreg : parseRegistrationPayload frame.payload = .ok reg) (hid : imeiString reg.imei = id)
    (hsome : ∀ l' : Locals, l'.registered = true → l'.controllerID = id →
      Shown cfg id (k (some l')) (Delivery.serveFrame id conn frame))
    (hnone : Shown cfg id (k none) (.ret ())) :
    Shown cfg id (registerConn remoteHost conn frame 1 >>= k) (.ret ()) := by
  have hoffline : Shown cfg id
      (perform (.markOffline id conn) >>= fun _ => k none)
      (Delivery.perform .markOffline >>= fun _ => .ret ()) :=
    .seen (image_markOffline_self conn) fun _ => hnone
  unfold registerConn
  rw [if_neg (by simp), hreg]
  dsimp only
  rw [hid]
  refine .start ⟨.register conn frame, rfl⟩ (.seen (image_create_self conn) fun err => ?_)
  cases err with
  | some err => exact hnone
  | none =>
      refine .seen (image_deliver_self _) fun _ => ?_
      refine .silent (image_off_engine rfl) (.inl rfl) fun now => .catchUp rfl now ?_
      simp only [Prog.bind]
      cases hack : Delivery.registrationAckFrame frame.mode frame.seq now with
      | error err => exact hoffline
      | ok bytes =>
          refine .seen (image_deliver_self _) fun err => ?_
          cases err with
          | some err => exact hoffline
          | none => exact .silent (image_off_engine rfl) (.inl rfl) fun t => hsome _ rfl rfl

/-- A frame shows as a task that begins and ends with it, unless the handler gives up: then the
clean-up still has to mark the session offline. -/
theorem shown_handleFrame {frame : Frame} {k : Locals × Bool → Serve Unit} (hl : l.Named)
    (hgo : ∀ l' : Locals, l'.Named → Shown cfg id (k (l', true)) (.ret ()))
    (hstop : ∀ l' : Locals, Shown cfg id (k (l', false)) (.ret ()))
    (hlost : ∀ l' : Locals, l'.registered = true → l'.controllerID = id → id ≠ "" →
      Shown cfg id (k (l', false)) (Delivery.perform .markOffline >>= fun _ => .ret ())) :
    Shown cfg id (handleFrame remoteHost conn frame l >>= k) (.ret ()) := by
  unfold handleFrame
  split
  · simp only [Prog.bind_bind]
    exact .hidden hidden_violationIfNew fun _ _ => hstop l
  · rename_i cmdID _
    by_cases hregistered : l.registered = true
    · rw [if_pos hregistered]
      simp only [Prog.bind_bind]
      by_cases hid : l.controllerID = id
      · refine .start ⟨.serve conn frame, rfl⟩ (shown_serveConn hid (fun t => ?_) ?_)
        · exact hgo { l with lastHeartbeat := t } hl
        · exact hlost l hregistered hid (hid ▸ hl hregistered)
      · refine .hidden (hidden_serveConn hid) fun res hres => ?_
        cases res with
        | none => exact hstop l
        | some l' =>
            obtain ⟨t, rfl⟩ := hres l' rfl
            exact hgo { l with lastHeartbeat := t } hl
    · rw [if_neg hregistered]
      simp only [Prog.bind_bind]
      by_cases hmine : cmdID = 1 ∧ ∃ reg, parseRegistrationPayload frame.payload = .ok reg ∧
          imeiString reg.imei = id
      · obtain ⟨rfl, reg, hreg, hid⟩ := hmine
        have hne : id ≠ "" := hid ▸ Duty.imeiString_ne_empty hreg
        refine shown_registerConn hreg hid (fun l' hregistered' hid' => ?_) (hstop l)
        simp only [Prog.bind_bind]
        refine shown_serveConn hid' (fun t => ?_) (hlost l' hregistered' hid' hne)
        exact hgo { l' with lastHeartbeat := t } fun _ => hid' ▸ hne
      · refine .hidden (hidden_registerConn fun hcmd reg hreg hid => ?_) fun res hres => ?_
        · exact hmine ⟨hcmd, reg, hreg, hid⟩
        · cases res with
          | none => exact hstop l
          | some l' =>
              obtain ⟨hother, hne⟩ := hres l' rfl
              simp only [Prog.bind_bind]
              refine .hidden (hidden_serveConn hother) fun res hres => ?_
              cases res with
              | none => exact hstop l'
              | some l'' =>
                  obtain ⟨t, rfl⟩ := hres l'' rfl
                  exact hgo { l' with lastHeartbeat := t } fun _ => hne

/-- The loop of a handler shows as one task for each frame. -/
theorem shown_readLoop (registrationDeadline : Time) (fuel : ℕ) (hl : l.Named) :
    Shown cfg id (readLoop cfg remoteHost conn registrationDeadline fuel l >>= cleanUp conn)
      (.ret ()) := by
  induction fuel generalizing l with
  | zero => exact .silent (image_off_engine rfl) (.inr rfl) fun _ => shown_cleanUp
  | succ fuel ih =>
      unfold readLoop
      simp only [Prog.bind_bind]
      refine .hidden (hidden_inTime registrationDeadline) fun ok _ => ?_
      cases ok with
      | false => exact shown_cleanUp
      | true =>
          simp only [if_true, Prog.bind_bind]
          refine .hidden hidden_readWait fun wait _ => ?_
          cases wait with
          | none => exact shown_cleanUp
          | some wait =>
              refine .silent (image_off_engine rfl) (.inr rfl) fun now => ?_
              refine .silent (image_off_engine rfl) (.inr rfl) fun _ => ?_
              refine .silent (image_off_engine rfl) (.inr rfl) fun res => ?_
              cases res with
              | error err =>
                  change Shown cfg id (ite _ _ _ >>= cleanUp conn) _
                  split
                  · rw [Prog.bind_bind]
                    exact .hidden hidden_violationIfNew fun _ _ => shown_cleanUp
                  · exact shown_cleanUp
              | ok frame =>
                  change Shown cfg id ((handleFrame remoteHost conn frame l >>= _) >>= _) _
                  rw [Prog.bind_bind]
                  exact shown_handleFrame hl (fun _ hl' => ih hl') (fun _ => shown_cleanUp)
                    fun _ => shown_cleanUp_lost

theorem shown_prog (task : Task) : Shown cfg id (Task.prog cfg remoteHost task) (.ret ()) := by
  cases task with
  | accept => exact .of_hidden hidden_acceptConn
  | handle conn fuel =>
      iterate 3 refine .silent (image_off_engine rfl) (.inr rfl) fun _ => ?_
      exact shown_readLoop _ fuel nofun
  | sweep other =>
      by_cases hid : other = id
      · subst hid
        exact .start ⟨.sweep, rfl⟩ (shown_engine (Delivery.sweep other))
      · exact .of_hidden (hidden_deliver hid _)
  | enqueue other cmd fuel =>
      by_cases hid : other = id
      · subst hid
        exact .start ⟨.enqueue cmd fuel, rfl⟩ (shown_deliver fun _ => .done)
      · exact .hidden (hidden_deliver hid _) fun _ _ => .done

end programs

/-! ## The simulation -/

section simulation

variable {cfg : Config} {remoteHost : ConnID → String} {id : String}

/-- What the engine of a controller sees: its own part of the server. `Manager.mu` is free for it
while a goroutine holds it for somebody else. -/
structure Seen (id : String) (w : World) (u : Delivery.World) : Prop where
  mu : u.mu = none ∨ u.mu = w.mu
  rest : u = (w.deliveries id).withMu u.mu

/-- The discipline of the mutexes in the server. -/
def locks (cfg : Config) (remoteHost : ConnID → String) :
    Discipline (machine cfg remoteHost) (serverRules cfg remoteHost) {} (Set Mutex) :=
  Locking.discipline locking_sound (fun l => by cases l <;> rfl)
    fun task => (taskSpec_locking cfg).prog remoteHost task rfl

variable {w w' : World} {u : Delivery.World} {tid : ℕ}

theorem Seen.same (h : Seen id w u) (hdeliveries : w'.deliveries id = w.deliveries id)
    (hmu : w'.mu = w.mu) : Seen id w' u := by
  refine ⟨hmu ▸ h.mu, ?_⟩
  rw [hdeliveries]
  exact h.rest

/-- An action for the controller: its engine can do the same. -/
theorem Seen.engine {a : Delivery.Act} {r : a.Res} {v : Delivery.World} {inp : Delivery.Input}
    (h : Seen id w u)
    (hexec : Delivery.exec cfg.delivery id tid (w.view id) a inp = some (v, r))
    (hdeliveries : w'.deliveries = Function.update w.deliveries id v) (hmu : w'.mu = v.mu) :
    ∃ u', Delivery.exec cfg.delivery id tid u a inp = some (u', r) ∧ Seen id w' u' := by
  have hv : w'.deliveries id = v := by simp [hdeliveries]
  have hsame : Seen id w' v := ⟨.inr hmu.symm, by rw [hv]; rfl⟩
  obtain ⟨hmu₀, hrest⟩ := h
  by_cases hlock : a = .lockManager
  · subst hlock
    have hfree : w.mu = none := by
      simp only [Delivery.exec] at hexec
      split at hexec
      · assumption
      · cases hexec
    have hu : u = w.view id := by
      rw [hrest, show u.mu = w.mu by rcases hmu₀ with h | h <;> simp [h, hfree]]
      rfl
    exact ⟨v, hu ▸ hexec, hsame⟩
  · by_cases hunlock : a = .unlockManager
    · subst hunlock
      refine ⟨v, ?_, hsame⟩
      rw [hrest]
      exact hexec
    · have hview : w.view id = (w.deliveries id).withMu w.mu := rfl
      rw [hview] at hexec
      refine ⟨v.withMu u.mu, ?_, ?_⟩
      · have hequal : Delivery.exec cfg.delivery id tid ((w.deliveries id).withMu u.mu) a inp =
            (Delivery.exec cfg.delivery id tid ((w.deliveries id).withMu w.mu) a inp).map
              (Delivery.withMu u.mu) := by
          refine Delivery.exec_withMu hlock hunlock fun huse => ?_
          have hfree := Delivery.free_of_exec huse hexec
          refine ⟨hfree, ?_⟩
          rcases hmu₀ with hnone | hsome
          · simp [Delivery.World.free, Delivery.World.withMu, hnone]
          · rwa [hsome]
        rw [hexec, ← hrest] at hequal
        exact hequal
      · have hkeep : v.mu = w.mu := Delivery.exec_mu hlock hunlock hexec
        refine ⟨?_, by rw [hv]; rfl⟩
        rw [hmu, hkeep]
        exact hmu₀

/-- A goroutine of the engine that has nothing to do does not hold `Manager.mu`. -/
theorem engine_idle {e : Concurrent.Config (Delivery.machine cfg.delivery id)}
    (he : Reachable (Rules.any (Delivery.machine cfg.delivery id)) {} e)
    (hidle : e.threads tid = .ret ()) : e.world.mu ≠ some tid := by
  obtain ⟨v, hv, hrespects⟩ := ((Delivery.clerks cfg.delivery id _).sound he).2 tid
  rw [hidle] at hrespects
  obtain rfl : v = {} := hrespects
  intro hmu
  cases hv.locked.mpr hmu

/-- An action for somebody else: the engine notices nothing. A goroutine that gives `Manager.mu`
back for another controller has not taken it for this one. -/
theorem Seen.elsewhere {a : Act} {inp : Input} {r : a.Res} {v : Set Mutex}
    {e : Concurrent.Config (Delivery.machine cfg.delivery id)}
    (hmove : (locks cfg remoteHost).Move w w' tid a inp r v) (h : Seen id w e.world)
    (ha : (shows id).image a = none)
    (he : Reachable (Rules.any (Delivery.machine cfg.delivery id)) {} e)
    (hidle : (shows id).aside a ∨ e.threads tid = .ret ()) : Seen id w' e.world := by
  cases hengine : a.engine with
  | none =>
      obtain ⟨hdeliveries, hmu⟩ := exec_off_engine hengine hmove.exec
      exact h.same (by rw [hdeliveries]) hmu
  | some engine =>
      obtain ⟨other, b, f⟩ := engine
      have hne : id ≠ other := by
        rintro rfl
        simp [shows, hengine] at ha
      have hidle : e.threads tid = .ret () := by
        rcases hidle with haside | hidle
        · have hnone : a.engine = none := haside
          rw [hengine] at hnone
          cases hnone
        · exact hidle
      obtain ⟨v, hexec, hdeliveries, hmu⟩ := exec_engine hengine hmove.exec
      have hkeep : w'.deliveries id = w.deliveries id := by simp [hdeliveries, hne]
      by_cases hlock : b = .lockManager
      · subst hlock
        have hfree : w.mu = none := by
          simp only [Delivery.exec] at hexec
          split at hexec
          · assumption
          · cases hexec
        refine ⟨.inl ?_, by rw [hkeep]; exact h.rest⟩
        rcases h.mu with hnone | hsome
        · exact hnone
        · exact hsome.trans hfree
      · by_cases hunlock : b = .unlockManager
        · subst hunlock
          have hown : w.mu = some tid := by
            have hmem := hmove.may.release .manager (by simp [locking, hengine, Mutex.use])
            exact (hmove.knows .manager).mp hmem
          refine ⟨.inl ?_, by rw [hkeep]; exact h.rest⟩
          rcases h.mu with hnone | hsome
          · exact hnone
          · exact absurd (hsome.trans hown) (engine_idle he hidle)
        · refine h.same hkeep (hmu.trans ?_)
          exact Delivery.exec_mu hlock hunlock hexec

/-- The engine of a controller simulates the server. -/
def engineSimulation (cfg : Config) (remoteHost : ConnID → String) (id : String) :
    Simulation (locks cfg remoteHost) (shows id) (Delivery.machine cfg.delivery id) {} where
  view := Seen id
  init := ⟨.inl rfl, rfl⟩
  start := shown_prog
  seen := by
    intro w w' tid a inp r v u b f hmove hview hb
    have hengine : a.engine = some (id, ⟨b, f⟩) := by
      obtain ⟨⟨other, e⟩, hengine, he⟩ := Option.bind_eq_some_iff.mp hb
      split at he
      · rename_i hid
        cases he
        rw [hengine]
        exact congrArg some (Prod.ext hid rfl)
      · cases he
    obtain ⟨v', hexec, hdeliveries, hmu⟩ := exec_engine hengine hmove.exec
    exact ⟨_, hview.engine hexec hdeliveries hmu⟩
  silent hmove hview ha he hidle := Seen.elsewhere hmove hview ha he hidle
  free := by
    rintro b rfl tid u t
    exact ⟨{ time := t }, rfl⟩
  crash := by
    rintro w u - ⟨-, hrest⟩
    refine ⟨.inl rfl, ?_⟩
    rw [hrest]
    rfl

end simulation

/-! ## Whole runs -/

section runs

variable {cfg : Config} {remoteHost : ConnID → String}
  {c : Concurrent.Config (machine cfg remoteHost)}

/-- Whatever the goroutines of the server have done for all its controllers, what is there of one
controller (session, queue, flush mutex, history) is what a run of its engine alone leads to,
and the goroutines that work for it are where they are in that run. -/
theorem server_refines_engine (h : Reachable (serverRules cfg remoteHost) {} c) (id : String) :
    ∃ e, Reachable (Rules.any (Delivery.machine cfg.delivery id)) {} e ∧
      (e.world.mu = none ∨ e.world.mu = c.world.mu) ∧
      e.world = { c.world.deliveries id with mu := e.world.mu } ∧
      ∀ tid, Shown cfg id (c.threads tid) (e.threads tid) := by
  obtain ⟨e, he, hview, hthreads⟩ := (engineSimulation cfg remoteHost id).sound h
  exact ⟨e, he, hview.mu, hview.rest, hthreads⟩

/-- A command for one controller has been accepted while a goroutine holds `Manager.mu` to sweep
another. -/
theorem accepted_during_sweep :
    ∃ c e, Reachable (serverRules Env.unset.config fun _ => "10.0.0.1") {} c ∧
      Reachable (Rules.any (Delivery.machine Env.unset.config.delivery "a")) {} e ∧
      c.world.mu = some 2 ∧ e.world.tickets = 1 ∧
      e.world.log = (c.world.deliveries "a").log := by
  have hrun : ∃ c, Reachable (serverRules Env.unset.config fun _ => "10.0.0.1") {} c ∧
      c.world.mu = some 2 ∧ (c.world.deliveries "a").tickets = 1 :=
    ⟨_, Reachable.initial.run (call 1 (.enqueue "a" { commandID := 3 } 1) 20 ++
      call 2 (.sweep "b") 2), by decide +kernel⟩
  obtain ⟨c, hc, hmu, htickets⟩ := hrun
  obtain ⟨e, he, -, hworld, -⟩ := server_refines_engine hc "a"
  refine ⟨c, e, hc, he, hmu, ?_, ?_⟩
  · rw [hworld]
    exact htickets
  · rw [hworld]

end runs

end TcpAdapter.Server
