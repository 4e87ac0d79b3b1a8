import TcpAdapter.Verification.Delivery.Courier
import TcpAdapter.Verification.Delivery.Links

/-! # Registration and the flushes beside it

`Create` makes a connection visible to the sweeper before `SetFrameMode` has set its layout and
before the registration acknowledgement is out. Runs in which no flush reads the session in
between write every command after the acknowledgement and in the layout of the registration
frame. -/

namespace TcpAdapter.Delivery

open TcpAdapter.Concurrent TcpAdapter.Queue TcpAdapter.Protocol TcpAdapter.Manager
open TcpAdapter.Policy

/-! ## Registrations in the trace -/

/-- The thread that has created the session last and has neither acknowledged the registration
nor gone offline. -/
def enrolling : List (Entry sig) → Option ℕ
  | [] => none
  | .crashed :: _ => none
  | .did tid (.create _) none :: _ => some tid
  | .did tid (.write _ _) none :: rest | .did tid .markOffline _ :: rest =>
      if enrolling rest = some tid then none else enrolling rest
  | _ :: rest => enrolling rest

/-- An acknowledgement frame that went out. -/
def acknowledged : Entry sig → Option (ConnID × List UInt8)
  | .did _ (.write conn bytes) none => some (conn, bytes)
  | _ => none

section frames

variable (frames : ConnID → Protocol.Frame)

/-- The bytes acknowledge the registration of the connection. -/
def AcksRegistration (conn : ConnID) (bytes : List UInt8) : Prop :=
  ∃ now, registrationAckFrame (frames conn).mode (frames conn).seq now = .ok bytes

/-- The registration of the connection has been acknowledged, and the layout is that of its
registration frame. -/
structure SetUp (trace : List (Entry sig)) (conn : ConnID) (mode : FrameMode) : Prop where
  acked : ∃ bytes, (conn, bytes) ∈ trace.filterMap acknowledged ∧
    AcksRegistration frames conn bytes
  layout : mode = (frames conn).mode

theorem SetUp.cons {trace : List (Entry sig)} {conn : ConnID} {mode : FrameMode}
    (h : SetUp frames trace conn mode) (e : Entry sig) : SetUp frames (e :: trace) conn mode := by
  obtain ⟨bytes, hmem, hack⟩ := h.acked
  refine ⟨⟨bytes, ?_, hack⟩, h.layout⟩
  rw [List.filterMap_cons]
  split
  · exact hmem
  · exact List.mem_cons_of_mem _ hmem

end frames

/-! ## The protocol of a registration -/

/-- How far a thread is with registering a connection. -/
inductive Enrolment where
  | off
  | created (conn : ConnID)
  | ready (conn : ConnID)

namespace Enrolment

def after (v : Enrolment) (a : Act) (r : a.Res) : Enrolment :=
  match v, a, r with
  | .off, .create conn, none => .created conn
  | .created conn, .setFrameMode _, _ => .ready conn
  | .ready _, .write _ _, none => .off
  | .ready _, .markOffline, _ => .off
  | v, _, _ => v

def May (frames : ConnID → Protocol.Frame) : Enrolment → Act → Prop
  | .off, .setFrameMode _ => False
  | .off, _ => True
  | .created conn, .setFrameMode mode => mode = (frames conn).mode
  | .ready conn, .write conn' bytes => conn' = conn ∧ AcksRegistration frames conn bytes
  | .ready _, .now | .ready _, .markOffline => True
  | _, _ => False

def protocol (frames : ConnID → Protocol.Frame) : Protocol sig Enrolment :=
  .ofAfter (May frames) after

section tasks

variable {frames : ConnID → Protocol.Frame}

theorem serving_off (a : Act) (v : Enrolment) (ha : a.Serving) (hoff : v = .off) :
    (protocol frames).may v a ∧ ∀ r v', (protocol frames).next v a r v' → v' = .off := by
  subst hoff
  cases a with
  | create | setFrameMode => exact ha.elim
  | _ => exact ⟨trivial, fun r v' hn => hn⟩

theorem register_respects (id : String) (conn : ConnID) :
    (register id conn (frames conn)).Respects (protocol frames) (fun _ v => v = .off) .off := by
  have hoffline : (perform .markOffline >>= fun _ => (pure () : Deliver Unit)).Respects
      (protocol frames) (fun _ v => v = .off) (.ready conn) :=
    act_respects trivial fun _ => rfl
  refine act_respects trivial fun err => ?_
  cases err with
  | some err => rfl
  | none =>
      refine act_respects rfl fun _ => act_respects trivial fun now => ?_
      split
      · exact hoffline
      · rename_i bytes hack
        refine act_respects ⟨rfl, now, hack⟩ fun err => ?_
        cases err with
        | some err => exact hoffline
        | none => exact (serveFrame_only id conn (frames conn)).respects serving_off rfl

end tasks

/-! ## Registrations in the running system -/

variable (frames : ConnID → Protocol.Frame)

/-- What a thread knows about the registration that is under way. -/
def Holds (tid : ℕ) (w : World × List (Entry sig)) : Enrolment → Prop
  | .off => enrolling w.2 ≠ some tid
  | .created conn => enrolling w.2 = some tid ∧ ∀ c m, w.1.line = some (c, m) → c = conn
  | .ready conn => enrolling w.2 = some tid ∧
      ∀ c m, w.1.line = some (c, m) → c = conn ∧ m = (frames conn).mode

/-- While no registration is under way, the connection of the session is set up. -/
def Settled (w : World × List (Entry sig)) : Prop :=
  enrolling w.2 = none → ∀ conn mode, w.1.line = some (conn, mode) →
    SetUp frames w.2 conn mode

/-- Nobody reads or creates the session while a registration is under way. -/
def unobserved (trace : List (Entry sig)) : Act → Bool
  | .create _ | .deliveryContext => enrolling trace = none
  | _ => true

variable {frames} {cfg : Config} {id : String} {tid other : ℕ}
  {w w' : World × List (Entry sig)} {inp : Input} {a : Act} {r : a.Res} {u v : Enrolment}

theorem Holds.off_of_ne (hu : Holds frames tid w u) (hne : enrolling w.2 ≠ some tid) :
    u = .off := by
  cases u with
  | off => rfl
  | created conn => exact absurd hu.1 hne
  | ready conn => exact absurd hu.1 hne

/-- A step that leaves the registrations alone and at most breaks the line. -/
theorem Holds.of_line (hu : Holds frames tid w u) (henrolling : enrolling w'.2 = enrolling w.2)
    (hline : w'.1.line = w.1.line ∨ w'.1.line = none) : Holds frames tid w' u := by
  have hmono : ∀ l, w'.1.line = some l → w.1.line = some l := by
    intro l hl
    rcases hline with heq | hnone
    · rw [← heq, hl]
    · rw [hnone] at hl
      cases hl
  cases u with
  | off => exact fun h => hu (henrolling ▸ h)
  | created conn => exact ⟨henrolling.trans hu.1, fun c m hl => hu.2 c m (hmono _ hl)⟩
  | ready conn => exact ⟨henrolling.trans hu.1, fun c m hl => hu.2 c m (hmono _ hl)⟩

theorem Settled.of_line (hw : Settled frames w) (henrolling : enrolling w'.2 = enrolling w.2)
    {e : Entry sig} (htrace : w'.2 = e :: w.2)
    (hline : w'.1.line = w.1.line ∨ w'.1.line = none) : Settled frames w' := by
  intro hnone conn mode hl
  rcases hline with heq | hbroken
  · rw [htrace]
    exact (hw (henrolling ▸ hnone) conn mode (heq ▸ hl)).cons frames e
  · rw [hbroken] at hl
    cases hl

/-- A thread that registers nothing does not count as registering. -/
theorem enrolling_off {trace : List (Entry sig)} (hne : enrolling trace ≠ some tid)
    (hoff : Enrolment.off.after a r = .off) :
    enrolling (.did tid a r :: trace) = enrolling trace := by
  cases a with
  | create conn =>
      cases r with
      | none => cases hoff
      | some err => rfl
  | write conn bytes =>
      cases r with
      | none => exact if_neg hne
      | some err => rfl
  | markOffline => exact if_neg hne
  | _ => rfl

/-- What the step of a thread does to the world and to what the threads know. -/
structure Kept (frames : ConnID → Protocol.Frame) (tid : ℕ) (w w' : World × List (Entry sig))
    (v' : Enrolment) : Prop where
  settled : Settled frames w'
  own : Holds frames tid w' v'
  other : ∀ other, other ≠ tid → ∀ u, Holds frames other w u → Holds frames other w' u

/-- The step leaves the registrations alone and at most breaks the line. -/
theorem Kept.of_line (hw : Settled frames w) (hv : Holds frames tid w v)
    (htrace : w'.2 = .did tid a r :: w.2) (henrolling : enrolling w'.2 = enrolling w.2)
    (hline : w'.1.line = w.1.line ∨ w'.1.line = none) : Kept frames tid w w' v :=
  ⟨hw.of_line henrolling htrace hline, hv.of_line henrolling hline,
    fun _ _ _ hu => hu.of_line henrolling hline⟩

/-- The thread registers: nobody else does, and the world need not be settled. -/
theorem Kept.of_enrolling (hbefore : enrolling w.2 = none ∨ enrolling w.2 = some tid)
    (hafter : enrolling w'.2 = some tid) (hown : Holds frames tid w' v) :
    Kept frames tid w w' v := by
  refine ⟨fun hnone => ?_, hown, fun other hne u hu => ?_⟩
  · rw [hafter] at hnone
    cases hnone
  · have hoff : u = .off := by
      refine hu.off_of_ne fun h => ?_
      rcases hbefore with hnone | hsome
      · cases hnone.symm.trans h
      · exact hne (Option.some.inj (h.symm.trans hsome))
    subst hoff
    exact fun h => hne (Option.some.inj (h.symm.trans hafter))

/-- The thread has finished its registration. -/
theorem Kept.of_finished (hbefore : enrolling w.2 = some tid) (hafter : enrolling w'.2 = none)
    (hsettled : Settled frames w') : Kept frames tid w w' .off := by
  refine ⟨hsettled, fun h => ?_, fun other hne u hu => ?_⟩
  · cases hafter.symm.trans h
  · have hoff : u = .off :=
      hu.off_of_ne fun h => hne (Option.some.inj (h.symm.trans hbefore))
    subst hoff
    exact fun h => by cases hafter.symm.trans h

theorem kept_off (hw : Settled frames w) (hne : enrolling w.2 ≠ some tid)
    (hmay : Enrolment.off.May frames a) (hrule : unobserved w.2 a = true)
    (h : exec cfg id tid w.1 a inp = some (w'.1, r)) (htrace : w'.2 = .did tid a r :: w.2) :
    Kept frames tid w w' (Enrolment.off.after a r) := by
  have hsame : Enrolment.off.after a r = .off → enrolling w'.2 = enrolling w.2 := by
    intro hoff
    rw [htrace, enrolling_off hne hoff]
  have hown : Holds frames tid w .off := hne
  cases a with
  | create conn =>
      have hnone : enrolling w.2 = none := by simpa [unobserved] using hrule
      obtain ⟨-, ⟨rfl, mode, hline⟩ | ⟨herr, hline⟩⟩ := exec_create h
      · refine .of_enrolling (.inl hnone) (by rw [htrace]; rfl) ⟨by rw [htrace]; rfl, ?_⟩
        intro c m hl
        rw [hline] at hl
        cases hl
        rfl
      · cases r with
        | none => exact absurd rfl herr
        | some err => exact .of_line hw hown htrace (hsame rfl) (.inl hline)
  | setFrameMode mode => exact hmay.elim
  | _ => exact .of_line hw hown htrace (hsame rfl) (exec_line (by trivial) h)

theorem kept_created {conn : ConnID} (hv : Holds frames tid w (.created conn))
    (hmay : (Enrolment.created conn).May frames a)
    (h : exec cfg id tid w.1 a inp = some (w'.1, r)) (htrace : w'.2 = .did tid a r :: w.2) :
    Kept frames tid w w' ((Enrolment.created conn).after a r) := by
  cases a with
  | setFrameMode mode =>
      have hmode : mode = (frames conn).mode := hmay
      have henrolling : enrolling w'.2 = some tid := by
        rw [htrace]
        exact hv.1
      refine .of_enrolling (.inr hv.1) henrolling ⟨henrolling, ?_⟩
      intro c m hl
      rw [(exec_setFrameMode h).2] at hl
      obtain ⟨⟨c', m'⟩, hl', heq⟩ := Option.map_eq_some_iff.mp hl
      cases heq
      exact ⟨hv.2 _ _ hl', hmode⟩
  | _ => exact hmay.elim

theorem kept_ready {conn : ConnID} (hw : Settled frames w)
    (hv : Holds frames tid w (.ready conn)) (hmay : (Enrolment.ready conn).May frames a)
    (h : exec cfg id tid w.1 a inp = some (w'.1, r)) (htrace : w'.2 = .did tid a r :: w.2) :
    Kept frames tid w w' ((Enrolment.ready conn).after a r) := by
  cases a with
  | now => exact .of_line hw hv htrace (by rw [htrace]; rfl) (exec_line (by trivial) h)
  | markOffline =>
      refine .of_finished hv.1 (by rw [htrace]; exact if_pos hv.1) fun _ c m hl => ?_
      rw [(exec_markOffline h).2] at hl
      cases hl
  | write conn' bytes =>
      obtain ⟨rfl, hack⟩ := hmay
      cases r with
      | some err => exact .of_line hw hv htrace (by rw [htrace]; rfl) (exec_line (by trivial) h)
      | none =>
          refine .of_finished hv.1 (by rw [htrace]; exact if_pos hv.1) fun _ c m hl => ?_
          rw [(exec_link rfl h).line] at hl
          obtain ⟨rfl, hmode⟩ := hv.2 c m hl
          refine ⟨⟨bytes, ?_, hack⟩, hmode⟩
          rw [htrace]
          exact List.mem_cons_self
  | _ => exact hmay.elim

end Enrolment

/-! ## Runs -/

theorem Courier.after_line (v : Courier) {a : Act} (r : a.Res) (ha : a ≠ .deliveryContext) :
    (v.after a r).line = v.line ∨ (v.after a r).line = none := by
  cases a with
  | deliveryContext => exact absurd rfl ha
  | lockFlush | unlockFlush => exact .inr rfl
  | popNext | nextCommandSeq | transmit => cases r <;> exact .inl rfl
  | _ => exact .inl rfl

/-- The line that a flush writes on is set up. -/
def KnowsLine (frames : ConnID → Protocol.Frame) (trace : List (Entry sig)) (v : Courier) : Prop :=
  ∀ conn mode, v.line = some (conn, mode) → SetUp frames trace conn mode

section exec

variable {frames : ConnID → Protocol.Frame} {cfg : Config} {id : String} {tid : ℕ}
  {w w' : World × List (Entry sig)} {inp : Input} {a : Act} {r : a.Res} {v : Courier}

theorem KnowsLine.cons {trace : List (Entry sig)} (hk : KnowsLine frames trace v)
    (e : Entry sig) : KnowsLine frames (e :: trace) v :=
  fun conn mode hline => (hk conn mode hline).cons frames e

theorem KnowsLine.own (hw : Enrolment.Settled frames w) (hk : KnowsLine frames w.2 v)
    (hrule : Enrolment.unobserved w.2 a = true)
    (h : exec cfg id tid w.1 a inp = some (w'.1, r)) :
    KnowsLine frames (.did tid a r :: w.2) (v.after a r) := by
  by_cases ha : a = .deliveryContext
  · subst ha
    have hnone : enrolling w.2 = none := by simpa [Enrolment.unobserved] using hrule
    obtain ⟨-, rfl⟩ := Prod.mk.inj (guarded_eq_some h)
    cases hs : w.1.session with
    | none => exact hk.cons _
    | some s =>
        intro conn mode hline
        refine (hw hnone conn mode ?_).cons frames _
        rw [World.line, hs]
        exact hline
  · rcases v.after_line r ha with hsame | hnone
    · intro conn mode hline
      exact (hk conn mode (hsame ▸ hline)).cons frames _
    · intro conn mode hline
      rw [hnone] at hline
      cases hline

end exec

section rules

variable (cfg : Config) (id : String) (frames : ConnID → Protocol.Frame)

/-- The task registers a connection with the frame that the connection sent. -/
def registersWith : Task → Bool
  | .register conn frame => frame = frames conn
  | _ => true

/-- `frames` are the registration frames. While a registration is under way no flush reads the
session and no other connection is registered. -/
abbrev enrolmentRules : Rules (machine cfg id).traced where
  start _ _ task := registersWith frames task = true
  act w _ a _ := Enrolment.unobserved w.2 a = true

/-- Any run in which `frames` are the registration frames. -/
abbrev registrationRules : Rules (machine cfg id).traced where
  start _ _ task := registersWith frames task = true

def enrolments :
    Discipline (machine cfg id).traced (enrolmentRules cfg id frames) ({}, []) Enrolment where
  protocol := Enrolment.protocol frames
  knows tid w v := v.Holds frames tid w
  idle v := v = .off
  inv w := Enrolment.Settled frames w
  init := by
    refine ⟨fun _ conn mode hline => ?_, fun tid => ⟨.off, fun h => ?_, rfl⟩⟩
    · cases hline
    · cases h
  start := by
    intro w tid task v _ _ hidle hstart
    subst hidle
    by_cases hregister : ∃ conn frame, task = .register conn frame
    · obtain ⟨conn, frame, rfl⟩ := hregister
      have hframe : frame = frames conn := by simpa [enrolmentRules, registersWith] using hstart
      subst hframe
      exact Enrolment.register_respects id conn
    · have honly := Task.prog_only cfg id task fun conn frame h => hregister ⟨conn, frame, h⟩
      exact honly.respects Enrolment.serving_off rfl
  act := by
    intro w tid a inp w' r v hw hv hrule hmay he
    obtain ⟨hexec, htrace⟩ := exec_of_traced he
    have hkept : Enrolment.Kept frames tid w w' (v.after a r) := by
      cases v with
      | off => exact Enrolment.kept_off hw hv hmay hrule hexec htrace
      | created conn => exact Enrolment.kept_created hv hmay hexec htrace
      | ready conn => exact Enrolment.kept_ready hw hv hmay hexec htrace
    exact ⟨hkept.settled, ⟨_, rfl, hkept.own⟩, hkept.other⟩
  crash := by
    intro w _ _
    refine ⟨fun _ conn mode hline => ?_, fun tid => ⟨.off, fun h => ?_, rfl⟩⟩
    · rw [(crash_link cfg id w.1).1] at hline
      cases hline
    · cases h

def connections : Discipline (machine cfg id).traced (enrolmentRules cfg id frames) ({}, [])
    (Courier × Enrolment) :=
  (((couriers cfg id (.any _)).traced (enrolmentRules cfg id frames) (fun _ _ _ _ => trivial)
    (fun _ _ _ _ _ => trivial) fun _ _ => trivial).prod (enrolments cfg id frames)).strengthen
    (fun _ => True) (fun _ w v => KnowsLine frames w.2 v.1) trivial
    (fun _ _ v hidle conn mode hline => by
      rw [show v.1 = {} from hidle.1] at hline
      cases hline)
    (fun m _ hk hnext _ => by
      obtain ⟨hexec, htrace⟩ := exec_of_traced m.exec
      rw [hnext.1, htrace]
      exact ⟨trivial, hk.own m.inv.2 m.rule hexec⟩)
    (fun m _ _ _ hk => by
      rw [(exec_of_traced m.exec).2]
      exact hk.cons _)
    fun _ _ => trivial

end rules

/-- What a flush is about to write to a connection comes after the registration acknowledgement
of that connection, and it is encoded in the layout of its registration frame. -/
theorem written_after_registration {cfg : Config} {id : String}
    {frames : ConnID → Protocol.Frame} {c : Concurrent.Config (machine cfg id).traced}
    (h : Reachable (enrolmentRules cfg id frames) ({}, []) c) {tid : ℕ} {conn : ConnID}
    {bytes : List UInt8} {cmd : Command} {seq : UInt8}
    {k : (Act.transmit conn bytes cmd seq).Res → Deliver Unit}
    (ht : c.threads tid = .act (.transmit conn bytes cmd seq) k) :
    (∃ ack, (conn, ack) ∈ c.world.2.filterMap acknowledged ∧
      AcksRegistration frames conn ack) ∧
      encodeFrame (commandFrame cmd seq (frames conn).mode) = .ok bytes := by
  obtain ⟨v, ⟨-, hk⟩, ⟨-, -, mode, hline, hbytes⟩, -⟩ := (connections cfg id frames).may h ht
  have hsetUp := hk conn mode hline
  rw [← hsetUp.layout]
  exact ⟨hsetUp.acked, hbytes⟩

/-- The controller registers in the compact layout. -/
def compactRegistration : ConnID → Protocol.Frame :=
  fun _ => ⟨255, 1, [1], .compact⟩

/-- A command is queued while the controller is offline; the controller registers, and its own
flush is about to write the command. -/
def registeredLabels : List (Label (machine {} "c")) :=
  call 0 (.enqueue { commandID := 9 } 0) 20 ++ call 0 (.register 7 ⟨255, 1, [1], .compact⟩) 21

theorem compact_after_registration :
    ∃ c sent, Reachable (enrolmentRules {} "c" compactRegistration) ({}, []) c ∧
      transmitting (c.threads 0) = some sent ∧
      (∃ ack, (sent.conn, ack) ∈ c.world.2.filterMap acknowledged) ∧
      encodeFrame (commandFrame sent.cmd sent.seq .compact) = .ok sent.bytes := by
  have hsending : ∃ c sent, Reachable (enrolmentRules {} "c" compactRegistration) ({}, []) c ∧
      transmitting (c.threads 0) = some sent :=
    ⟨_, ⟨7, [83, 76, 68, 78, 2, 0, 255, 9, 128, 106], { commandID := 9 }, 1⟩,
      Reachable.initial.run (registeredLabels.map Label.traced), by decide +kernel⟩
  obtain ⟨c, sent, hc, hsending⟩ := hsending
  obtain ⟨k, ht⟩ := exists_of_transmitting hsending
  obtain ⟨⟨ack, hack, -⟩, hbytes⟩ := written_after_registration hc ht
  exact ⟨c, sent, hc, hsending, ⟨ack, hack⟩, hbytes⟩

/-- The sweeper flushes between `Create` and `SetFrameMode`. -/
def sweptLabels : List (Label (machine {} "c")) :=
  call 0 (.enqueue { commandID := 9 } 0) 20 ++
    call 0 (.register 7 ⟨255, 1, [1], .compact⟩) 1 ++ call 1 .sweep 17

/-- The command is on the wire, no acknowledgement has been written to any connection, and the
frame is not in the compact layout in which the controller registered. -/
theorem swept_before_registration :
    ∃ c sent, Reachable (registrationRules {} "c" compactRegistration) ({}, []) c ∧
      lastSent 1 c.world.2 = some sent ∧ c.world.2.filterMap acknowledged = [] ∧
      encodeFrame (commandFrame sent.cmd sent.seq (compactRegistration sent.conn).mode) ≠
        .ok sent.bytes :=
  ⟨_, ⟨7, [83, 76, 68, 78, 3, 0, 255, 1, 9, 145, 166], { commandID := 9 }, 1⟩,
    Reachable.initial.run (sweptLabels.map Label.traced), by decide +kernel⟩

end TcpAdapter.Delivery
