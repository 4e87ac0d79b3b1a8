import TcpAdapter.Verification.Delivery.Frames
import TcpAdapter.Verification.Delivery.Tasks

/-! # Connection, layout, dedup table and free buffer

Which actions touch the connection of a session, the layout of its frames, its table of dedup
keys and the free buffer of its controller. -/

namespace TcpAdapter.Delivery

open TcpAdapter.Concurrent TcpAdapter.Queue TcpAdapter.Protocol TcpAdapter.Manager
open TcpAdapter.Policy

namespace World

/-- The connection of the session and the layout it writes in. -/
def line (w : World) : Option (ConnID × FrameMode) :=
  w.session.bind fun s => s.conn.map fun conn => (conn, s.frameMode)

/-- `Session.Conn` -/
def connection (w : World) : Option ConnID :=
  w.session.bind Session.conn

theorem connection_eq (w : World) : w.connection = w.line.map Prod.fst := by
  simp [connection, line, Option.map_bind, Function.comp_def]

/-- When the key was last accepted, as far as the session remembers. -/
def dedup (w : World) (key : String) : Option Time :=
  w.session.bind fun s => s.dedup key

/-- `Session.BufferFree` -/
def bufferFree (w : World) : Option Int :=
  w.session.map Session.bufferFree

end World

/-- What these actions have in common. -/
structure SameLink (w w' : World) : Prop where
  line : w'.line = w.line
  dedup : w'.dedup = w.dedup
  bufferFree : w'.bufferFree = w.bufferFree

theorem SameLink.of_slot {w w' : World} (h : w'.slot = w.slot) : SameLink w w' := by
  constructor
  · simp only [World.line, World.session, h]
  · funext key
    simp only [World.dedup, World.session, h]
  · simp only [World.bufferFree, World.session, h]

/-- The session stays, with its connection, its layout, its dedup table and its free buffer. -/
theorem SameLink.of_session {w w' : World} {s s' : Session} (hs : w.session = some s)
    (hs' : w'.session = some s') (hconn : s'.conn = s.conn) (hmode : s'.frameMode = s.frameMode)
    (hdedup : s'.dedup = s.dedup) (hfree : s'.bufferFree = s.bufferFree) : SameLink w w' := by
  constructor
  · simp only [World.line, hs, hs', Option.bind_some, hconn, hmode]
  · funext key
    simp only [World.dedup, hs, hs', Option.bind_some, hdedup]
  · simp only [World.bufferFree, hs, hs', Option.map_some, hfree]

theorem SameLink.setQueue {w w' : World} {q : ControllerQueue}
    (h : w'.slot = w.slot.setQueue q) : SameLink w w' := by
  cases hs : w.session with
  | none =>
      refine .of_slot (h.trans ?_)
      have hslot : w.slot.session = none := hs
      simp only [Slot.setQueue, hslot, Option.map_none]
      rw [← hslot]
  | some s =>
      have hslot : w.slot.session = some s := hs
      have hs' : w'.session = some { s with queue := q } := by
        simp only [World.session, h, Slot.setQueue, hslot, Option.map_some]
      exact .of_session hs hs' rfl rfl rfl rfl

/-- A method of the manager that leaves these fields of the session alone. -/
theorem SameLink.of_method {w w' : World} {m : Slot} (hw' : w'.slot = m)
    (hnone : w.slot.session = none → m.session = none)
    (hsome : ∀ s, w.slot.session = some s → ∃ s', m.session = some s' ∧ s'.conn = s.conn ∧
      s'.frameMode = s.frameMode ∧ s'.dedup = s.dedup ∧ s'.bufferFree = s.bufferFree) :
    SameLink w w' := by
  subst hw'
  cases hs : w.slot.session with
  | none =>
      have hs' := hnone hs
      constructor
      · simp only [World.line, World.session, hs, hs']
      · funext key
        simp only [World.dedup, World.session, hs, hs']
      · simp only [World.bufferFree, World.session, hs, hs']
  | some s =>
      obtain ⟨s', hs', hconn, hmode, hdedup, hfree⟩ := hsome s hs
      exact .of_session hs hs' hconn hmode hdedup hfree

/-- The actions on the connection, the layout, the dedup table and the free buffer. -/
def Act.movesLink : Act → Bool
  | .create _ | .markOffline | .setFrameMode _ | .ensureSession | .setDedup _ _
  | .updateBufferFree _ => true
  | _ => false

section exec

variable {cfg : Config} {id : String} {tid : ℕ} {w w' : World} {inp : Input}

theorem sameLink_ackSent {save : Option Error}
    (h : w'.slot = (w.slot.ackSent save).1) : SameLink w w' := by
  refine .of_method h (fun hs => by simp [Slot.ackSent, hs]) fun s hs => ?_
  simp only [Slot.ackSent, hs]
  exact ⟨_, Slot.persistLocked_session .., rfl, rfl, rfl, rfl⟩

theorem sameLink_ackInFlight {m : Slot} {seq : UInt8} {save : Option Error}
    {out : Option (Command × Int)} (hm : w.slot.ackInFlight seq save = (m, out))
    (hw' : w'.slot = m) : SameLink w w' := by
  refine .of_method hw' (fun hs => ?_) fun s hs => ?_
  · simp only [Slot.ackInFlight, hs] at hm
    cases hm
    exact hs
  · simp only [Slot.ackInFlight, hs] at hm
    split at hm
    · cases hm
      exact ⟨s, hs, rfl, rfl, rfl, rfl⟩
    · cases save with
      | none =>
          cases hm
          exact ⟨_, rfl, rfl, rfl, rfl, rfl⟩
      | some err =>
          cases hm
          exact ⟨s, hs, rfl, rfl, rfl, rfl⟩

theorem exec_link {a : Act} {r : a.Res} (ha : a.movesLink = false)
    (h : exec cfg id tid w a inp = some (w', r)) : SameLink w w' := by
  cases a with
  | now | write | publishAck | unlockFlush | unlockManager | queueLen | queueBytes | hasFW
  | hasSync | findSession | dedupTime =>
      cases h
      exact .of_slot rfl
  | lockFlush | lockManager | inFlightOrder =>
      simp only [exec] at h
      split at h
      · cases h
        exact .of_slot rfl
      · cases h
  | spin => cases h
  | deliveryContext | inFlightCount | peekInFlight =>
      obtain ⟨rfl, -⟩ := Prod.mk.inj (guarded_eq_some h)
      exact .of_slot rfl
  | transmit =>
      simp only [exec, execTransmit] at h
      split at h <;> cases h <;> exact .of_slot rfl
  | publishAckWithCommand event cmd =>
      cases h
      unfold execPublish
      dsimp only
      split
      · exact .of_slot (settle_slot ..)
      · exact .of_slot rfl
  | drainExpired | push | pushNew =>
      cases h
      exact .setQueue rfl
  | popNext =>
      simp only [exec, execPop] at h
      split at h
      · cases h
        exact .of_slot rfl
      · cases h
        exact .setQueue rfl
  | dropOldest =>
      simp only [exec, execDropOldest] at h
      split at h
      · cases h
        exact .of_slot rfl
      · cases h
        exact .setQueue rfl
  | touch =>
      obtain ⟨rfl, -⟩ := Prod.mk.inj (guarded_eq_some h)
      refine .of_method rfl (fun hs => by simp [Slot.touch, hs]) fun s hs => ?_
      simp only [Slot.touch, hs]
      split
      · exact ⟨_, rfl, rfl, rfl, rfl, rfl⟩
      · exact ⟨_, Slot.persistLocked_session .., rfl, rfl, rfl, rfl⟩
  | setFWMode =>
      obtain ⟨rfl, -⟩ := Prod.mk.inj (guarded_eq_some h)
      refine .of_method rfl (fun hs => by simp [Slot.setFWMode, hs]) fun s hs => ?_
      simp only [Slot.setFWMode, hs]
      exact ⟨_, Slot.persistLocked_session .., rfl, rfl, rfl, rfl⟩
  | setSyncMode =>
      obtain ⟨rfl, -⟩ := Prod.mk.inj (guarded_eq_some h)
      refine .of_method rfl (fun hs => by simp [Slot.setSyncMode, hs]) fun s hs => ?_
      simp only [Slot.setSyncMode, hs]
      exact ⟨_, Slot.persistLocked_session .., rfl, rfl, rfl, rfl⟩
  | nextCommandSeq =>
      obtain ⟨rfl, -⟩ := Prod.mk.inj (guarded_eq_some h)
      refine .of_method rfl (fun hs => by simp [Slot.nextCommandSeq, hs]) fun s hs => ?_
      simp only [Slot.nextCommandSeq, hs]
      exact ⟨_, Slot.persistLocked_session .., rfl, rfl, rfl, rfl⟩
  | ackSent =>
      obtain ⟨rfl, -⟩ := Prod.mk.inj (guarded_eq_some h)
      exact sameLink_ackSent rfl
  | registerInFlight seq cmd sentAt =>
      have heq := guarded_eq_some h
      cases hs : w.slot.session with
      | none =>
          simp only [execRegister, World.session, hs] at heq
          cases heq
          exact .of_slot rfl
      | some s =>
          simp only [execRegister, World.session, hs, Slot.registerInFlight] at heq
          cases heq
          exact .of_session hs (Slot.persistLocked_session ..) rfl rfl rfl rfl
  | ackInFlight seq =>
      have heq := guarded_eq_some h
      simp only [execAck] at heq
      split at heq
      · rename_i m hm
        cases heq
        exact sameLink_ackInFlight hm rfl
      · rename_i m cmd attempts hm
        cases heq
        exact sameLink_ackInFlight hm rfl
  | visitInFlight seq now =>
      have heq := Option.some.inj h
      simp only [execVisit] at heq
      split at heq
      · cases heq
        exact .of_slot rfl
      · rename_i s hs
        split at heq
        · cases heq
          exact .of_slot rfl
        · rename_i s' out hvisit
          have hkept : s'.conn = s.conn ∧ s'.frameMode = s.frameMode ∧ s'.dedup = s.dedup ∧
              s'.bufferFree = s.bufferFree := by
            obtain ⟨_, -, -, ⟨-, -, rfl⟩ | ⟨-, -, rfl⟩⟩ :=
              Session.visitInFlight_some hvisit
            · exact ⟨rfl, rfl, rfl, rfl⟩
            · exact ⟨rfl, rfl, rfl, rfl⟩
          have hs' : w'.session = some s' := by
            split at heq <;> cases heq <;> rfl
          exact .of_session hs hs' hkept.1 hkept.2.1 hkept.2.2.1 hkept.2.2.2
  | persist =>
      have heq := Option.some.inj h
      simp only [execPersist, method] at heq
      split at heq <;> rename_i hres <;> cases heq <;> obtain ⟨rfl, -⟩ := Prod.mk.inj hres <;>
        exact sameLink_ackSent rfl
  | persistEnqueued ticket =>
      have heq := Option.some.inj h
      simp only [execEnqueued, method] at heq
      split at heq <;> rename_i hres <;> cases heq <;> obtain ⟨rfl, -⟩ := Prod.mk.inj hres <;>
        exact sameLink_ackSent rfl
  | create | markOffline | setFrameMode | ensureSession | setDedup | updateBufferFree => cases ha

/-- A failed `Create` leaves the connection as it was. -/
theorem exec_create {conn : ConnID} {r : Option Error}
    (h : exec cfg id tid w (.create conn) inp = some (w', r)) :
    w'.dedup = w.dedup ∧
      ((r = none ∧ ∃ mode, w'.line = some (conn, mode)) ∨ (r ≠ none ∧ w'.line = w.line)) := by
  obtain ⟨rfl, rfl⟩ := Prod.mk.inj (guarded_eq_some h)
  cases hs : w.slot.session with
  | none =>
      by_cases hfull : inp.online ≥ cfg.maxConnections
      · simp only [Slot.create, hs, if_pos hfull]
        exact ⟨rfl, .inr ⟨by simp, rfl⟩⟩
      · simp only [Slot.create, hs, if_neg hfull, Slot.insertNew]
        cases inp.saveErr with
        | none => exact ⟨by funext key; simp [World.dedup, hs, Slot.persistLocked, Session.new],
            .inl ⟨rfl, _, rfl⟩⟩
        | some err => exact ⟨by funext key; simp [World.dedup, hs, Slot.persistLocked],
            .inr ⟨by simp [Slot.persistLocked], by simp [World.line, hs, Slot.persistLocked]⟩⟩
  | some s =>
      cases hconn : s.conn with
      | some old =>
          simp only [Slot.create, hs, hconn]
          exact ⟨rfl, .inr ⟨by simp, rfl⟩⟩
      | none =>
          simp only [Slot.create, hs, hconn]
          cases inp.saveErr with
          | none => exact ⟨by funext key; simp [World.dedup, hs, Slot.persistLocked, Session.attach],
              .inl ⟨rfl, _, rfl⟩⟩
          | some err => exact ⟨by funext key; simp [World.dedup, hs, Slot.persistLocked,
              Session.attach], .inr ⟨by simp [Slot.persistLocked], by
                simp [World.line, hs, hconn, Slot.persistLocked]⟩⟩

theorem exec_markOffline {r : Option Error}
    (h : exec cfg id tid w .markOffline inp = some (w', r)) :
    w'.dedup = w.dedup ∧ w'.line = none := by
  obtain ⟨rfl, -⟩ := Prod.mk.inj (guarded_eq_some h)
  cases hs : w.slot.session with
  | none =>
      simp only [Slot.markOffline, hs]
      exact ⟨rfl, by simp [World.line, hs]⟩
  | some s =>
      simp only [Slot.markOffline, hs]
      exact ⟨by funext key; simp [World.dedup, hs], by simp [World.line]⟩

theorem exec_setFrameMode {mode : FrameMode} {r : Unit}
    (h : exec cfg id tid w (.setFrameMode mode) inp = some (w', r)) :
    w'.dedup = w.dedup ∧ w'.line = w.line.map fun l => (l.1, mode) := by
  obtain ⟨rfl, -⟩ := Prod.mk.inj (guarded_eq_some h)
  cases hs : w.slot.session with
  | none =>
      simp only [Slot.setFrameMode, hs]
      exact ⟨rfl, by simp [World.line, hs]⟩
  | some s =>
      simp only [Slot.setFrameMode, hs]
      exact ⟨by funext key; simp [World.dedup, hs], by
        simp [World.line, hs, Option.map_map, Function.comp_def]⟩

theorem exec_ensureSession {r : Option Error}
    (h : exec cfg id tid w .ensureSession inp = some (w', r)) :
    w'.dedup = w.dedup ∧ w'.line = w.line := by
  cases h
  cases hs : w.slot.session with
  | some s =>
      simp only [Slot.ensureSession, hs]
      exact ⟨rfl, rfl⟩
  | none =>
      simp only [Slot.ensureSession, hs, Slot.createDetachedLocked, Slot.insertNew]
      cases inp.saveErr with
      | none => exact ⟨by funext key; simp [World.dedup, hs, Slot.persistLocked, Session.new], by
          simp [World.line, hs, Slot.persistLocked, Session.new]⟩
      | some err => exact ⟨by funext key; simp [World.dedup, hs, Slot.persistLocked], by
          simp [World.line, hs, Slot.persistLocked]⟩

theorem exec_updateBufferFree {free : Int} {r : Unit}
    (h : exec cfg id tid w (.updateBufferFree free) inp = some (w', r)) :
    w'.dedup = w.dedup ∧ w'.line = w.line ∧
      (w.session.isSome → w'.bufferFree = some free) := by
  obtain ⟨rfl, -⟩ := Prod.mk.inj (guarded_eq_some h)
  cases hs : w.slot.session with
  | none =>
      simp only [Slot.updateBufferFree, hs]
      exact ⟨rfl, rfl, by simp [hs]⟩
  | some s =>
      simp only [Slot.updateBufferFree, hs]
      exact ⟨by funext key; simp [World.dedup, hs], by simp [World.line, hs], by
        simp [World.bufferFree]⟩

theorem exec_setDedup {key : String} {t : Time} {r : Unit}
    (h : exec cfg id tid w (.setDedup key t) inp = some (w', r)) :
    w'.line = w.line ∧
      (w.session.isSome → w'.dedup = Function.update w.dedup key (some t)) := by
  simp only [exec] at h
  split at h
  · rename_i s hs
    cases h
    refine ⟨by simp only [World.line, hs]; rfl, fun _ => ?_⟩
    funext other
    by_cases hkey : other = key
    · subst hkey
      simp [World.dedup]
    · simp only [World.dedup, hs, Function.update_of_ne hkey]
      simp [Function.update_of_ne hkey]
  · rename_i hs
    cases h
    refine ⟨rfl, fun hsome => ?_⟩
    rw [hs] at hsome
    cases hsome

/-- Without a registration the line stays or breaks. -/
theorem exec_line {a : Act} {r : a.Res} (ha : a.Serving)
    (h : exec cfg id tid w a inp = some (w', r)) : w'.line = w.line ∨ w'.line = none := by
  cases a with
  | create | setFrameMode => exact ha.elim
  | markOffline => exact .inr (exec_markOffline h).2
  | ensureSession => exact .inl (exec_ensureSession h).2
  | setDedup key t => exact .inl (exec_setDedup h).1
  | updateBufferFree free => exact .inl (exec_updateBufferFree h).2.1
  | _ => exact .inl (exec_link rfl h).line

/-- The actions that attach a connection to the session or detach it. -/
def Act.attaches : Act → Bool
  | .create _ | .markOffline => true
  | _ => false

theorem exec_connection {a : Act} {r : a.Res} (ha : a.attaches = false)
    (h : exec cfg id tid w a inp = some (w', r)) : w'.connection = w.connection := by
  rw [World.connection_eq, World.connection_eq]
  cases a with
  | create | markOffline => cases ha
  | setFrameMode mode =>
      rw [(exec_setFrameMode h).2, Option.map_map]
      rfl
  | ensureSession => rw [(exec_ensureSession h).2]
  | setDedup key t => rw [(exec_setDedup h).1]
  | updateBufferFree free => rw [(exec_updateBufferFree h).2.1]
  | _ => rw [(exec_link rfl h).line]

/-- `Create` attaches its connection to a session that has none, or it fails and leaves the
session as it was. -/
theorem exec_create_connection {conn : ConnID} {r : Option Error}
    (h : exec cfg id tid w (.create conn) inp = some (w', r)) :
    (r = none ∧ w.connection = none ∧ w'.connection = some conn) ∨
      (r ≠ none ∧ w'.connection = w.connection) := by
  rcases (exec_create h).2 with ⟨hr, mode, hline⟩ | ⟨hr, hline⟩
  · refine .inl ⟨hr, ?_, by rw [World.connection_eq, hline]; rfl⟩
    subst hr
    obtain ⟨-, hnone⟩ := Prod.mk.inj (guarded_eq_some h)
    cases hs : w.slot.session with
    | none => simp [World.connection, World.session, hs]
    | some s =>
        cases hconn : s.conn with
        | none => simp [World.connection, World.session, hs, hconn]
        | some old =>
            simp only [Slot.create, hs, hconn] at hnone
            cases hnone
  · exact .inr ⟨hr, by rw [World.connection_eq, World.connection_eq, hline]⟩

/-- Only a stamp changes the dedup table. -/
theorem exec_dedup {a : Act} {r : a.Res} (ha : ∀ key t, a ≠ .setDedup key t)
    (h : exec cfg id tid w a inp = some (w', r)) : w'.dedup = w.dedup := by
  cases a with
  | setDedup key t => exact absurd rfl (ha key t)
  | create => exact (exec_create h).1
  | markOffline => exact (exec_markOffline h).1
  | setFrameMode => exact (exec_setFrameMode h).1
  | ensureSession => exact (exec_ensureSession h).1
  | updateBufferFree => exact (exec_updateBufferFree h).1
  | _ => exact (exec_link rfl h).dedup

/-- `Create` takes a free buffer of no bytes for one of 1500. -/
theorem exec_create_bufferFree {conn : ConnID} {r : Option Error} {free : Int}
    (h : exec cfg id tid w (.create conn) inp = some (w', r)) (hfree : w.bufferFree = some free) :
    w'.bufferFree = some free ∨ free ≤ 0 ∧ w'.bufferFree = some 1500 := by
  obtain ⟨rfl, rfl⟩ := Prod.mk.inj (guarded_eq_some h)
  obtain ⟨s, hs, rfl⟩ := Option.map_eq_some_iff.mp hfree
  have hslot : w.slot.session = some s := hs
  cases hconn : s.conn with
  | some old =>
      simp only [Slot.create, hslot, hconn]
      exact .inl hfree
  | none =>
      have hattach : ∀ m : Slot, m.session = some (s.attach conn inp.time) ∨
          m.session = some { s.attach conn inp.time with conn := none, lastSeen := s.lastSeen } →
          m.session.map Session.bufferFree = some s.bufferFree ∨
            s.bufferFree ≤ 0 ∧ m.session.map Session.bufferFree = some 1500 := by
        intro m hm
        by_cases hzero : s.bufferFree ≤ 0
        · exact .inr ⟨hzero, by rcases hm with hm | hm <;> simp [hm, Session.attach, hzero]⟩
        · exact .inl (by rcases hm with hm | hm <;> simp [hm, Session.attach, hzero])
      refine hattach _ ?_
      simp only [Slot.create, hslot, hconn]
      cases inp.saveErr with
      | none => exact .inl rfl
      | some err => exact .inr rfl

/-- Nothing else touches what the controller has advertised. -/
theorem exec_bufferFree {a : Act} {r : a.Res} {free : Int} (ha : ∀ free, a ≠ .updateBufferFree free)
    (h : exec cfg id tid w a inp = some (w', r)) (hfree : w.bufferFree = some free) :
    w'.bufferFree = some free ∨ free ≤ 0 ∧ w'.bufferFree = some 1500 := by
  obtain ⟨s, hs, hsfree⟩ := Option.map_eq_some_iff.mp hfree
  have hslot : w.slot.session = some s := hs
  cases a with
  | updateBufferFree free => exact absurd rfl (ha free)
  | create => exact exec_create_bufferFree h hfree
  | markOffline =>
      obtain ⟨rfl, -⟩ := Prod.mk.inj (guarded_eq_some h)
      exact .inl (by simp [Slot.markOffline, hslot, World.bufferFree, hsfree])
  | setFrameMode =>
      obtain ⟨rfl, -⟩ := Prod.mk.inj (guarded_eq_some h)
      exact .inl (by simp [Slot.setFrameMode, hslot, World.bufferFree, hsfree])
  | ensureSession =>
      cases h
      exact .inl (by simp [Slot.ensureSession, hslot, World.bufferFree, hsfree])
  | setDedup =>
      simp only [exec, hs] at h
      cases h
      exact .inl (congrArg some hsfree)
  | _ => exact .inl ((exec_link rfl h).bufferFree.trans hfree)

/-- A restart loses the connection and the dedup table. -/
theorem crash_link (cfg : Config) (id : String) (w : World) :
    ((machine cfg id).crash w).line = none ∧ ((machine cfg id).crash w).dedup = fun _ => none := by
  simp only [World.line, World.session, Slot.restart]
  split
  · split
    · exact ⟨rfl, rfl⟩
    · exact ⟨rfl, rfl⟩
  · exact ⟨rfl, rfl⟩

end exec

end TcpAdapter.Delivery
