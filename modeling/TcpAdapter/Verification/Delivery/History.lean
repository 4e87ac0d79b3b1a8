import TcpAdapter.Verification.Delivery.Frames

/-! # The history of a run

Apart from saves, an action adds at most one event to the log. -/

namespace TcpAdapter.Delivery

open TcpAdapter.Concurrent TcpAdapter.Queue TcpAdapter.Protocol TcpAdapter.Manager
open TcpAdapter.Policy

/-- The log without the saves. -/
def history (log : List Event) : List Event :=
  log.filter fun e => !e.isSave

@[simp] theorem history_cons (e : Event) (log : List Event) :
    history (e :: log) = if e.isSave then history log else e :: history log := by
  cases h : e.isSave <;> simp [history, h]

theorem mem_history {e : Event} {log : List Event} (he : e.isSave = false) :
    e ∈ history log ↔ e ∈ log := by
  simp [history, he]

/-- The event that an action adds besides a save. -/
def emitted (tid : ℕ) (w : World) : (a : Act) → a.Res → Option Event
  | .transmit _ bytes cmd seq, none =>
      some (.transmitted cmd.ticket cmd.commandID seq bytes w.fwMode w.syncMode)
  | .publishAck event, _ => some (.published event none)
  | .publishAckWithCommand event cmd, _ => some (.published event (some cmd.ticket))
  | .lockFlush, _ => some (.flushStarted tid)
  | .unlockFlush, _ => some (.flushEnded tid)
  | .push cmd, _ => some (.putBack cmd.ticket)
  | .dropOldest, some cmd => some (.evicted cmd.ticket)
  | .setFWMode enabled, _ => some (.setFW tid enabled)
  | .setSyncMode enabled, _ => some (.setSync tid enabled)
  | .ackInFlight seq, some (cmd, _) => some (.acked cmd.ticket seq)
  | .ackInFlight seq, none => some (.missed seq)
  | .visitInFlight seq _, some out => some (.timedOut out.command.ticket seq)
  | .persistEnqueued ticket, none => some (.accepted ticket)
  | _, _ => none

section exec

variable {cfg : Config} {id : String} {tid : ℕ} {w w' : World} {inp : Input}

@[simp] theorem history_commit (w : World) (m : Slot) :
    history (w.commit m).log = history w.log := by
  unfold World.commit
  dsimp only
  split
  · rfl
  · rfl

theorem settle_log (w : World) (tid : ℕ) (h : Hand) : (w.settle tid h).log = w.log := by
  obtain ⟨hands, current, owed, heq⟩ := settle_eq w tid h
  rw [heq]

theorem exec_history {a : Act} {r : a.Res} (h : exec cfg id tid w a inp = some (w', r)) :
    history w'.log = (emitted tid w a r).toList ++ history w.log := by
  cases a with
  | now | write | queueLen | queueBytes | hasFW | hasSync | findSession | dedupTime
  | publishAck | unlockFlush | unlockManager | push | drainExpired | pushNew =>
      cases h
      rfl
  | lockFlush | lockManager | inFlightOrder =>
      simp only [exec] at h
      split at h
      · cases h
        rfl
      · cases h
  | create | markOffline | touch | updateBufferFree | setFrameMode | ackSent | nextCommandSeq =>
      cases guarded_eq_some h
      exact history_commit w _
  | deliveryContext | inFlightCount | peekInFlight =>
      cases guarded_eq_some h
      rfl
  | setFWMode enabled =>
      cases guarded_eq_some h
      exact history_commit (w.note (.setFW tid enabled)) _
  | setSyncMode enabled =>
      cases guarded_eq_some h
      exact history_commit (w.note (.setSync tid enabled)) _
  | ensureSession =>
      cases h
      exact history_commit w _
  | setDedup key t =>
      simp only [exec] at h
      split at h <;> cases h <;> rfl
  | transmit =>
      simp only [exec, execTransmit] at h
      split at h <;> cases h <;> rfl
  | publishAckWithCommand event cmd =>
      cases h
      unfold execPublish
      dsimp only
      split
      · rw [settle_log]
        rfl
      · rfl
  | popNext =>
      simp only [exec, execPop] at h
      split at h <;> cases h <;> rfl
  | dropOldest =>
      simp only [exec, execDropOldest] at h
      split at h <;> cases h <;> rfl
  | registerInFlight seq cmd sentAt =>
      have heq := guarded_eq_some h
      simp only [execRegister] at heq
      split at heq
      · cases heq
        rfl
      · cases heq
        exact history_commit _ _
  | ackInFlight seq =>
      have heq := guarded_eq_some h
      simp only [execAck] at heq
      split at heq
      · cases heq
        exact congrArg (List.cons _) (history_commit w _)
      · cases heq
        exact history_commit _ _
  | visitInFlight seq now =>
      have heq := Option.some.inj h
      simp only [execVisit] at heq
      split at heq
      · cases heq
        rfl
      · split at heq
        · cases heq
          rfl
        · split at heq <;> cases heq <;> rfl
  | persist =>
      have heq := Option.some.inj h
      simp only [execPersist, method] at heq
      cases herr : (w.slot.ackSent inp.saveErr).2 with
      | none =>
          rw [herr] at heq
          cases heq
          exact history_commit w _
      | some err =>
          rw [herr] at heq
          cases heq
          exact history_commit w _
  | persistEnqueued ticket =>
      have heq := Option.some.inj h
      simp only [execEnqueued, method] at heq
      cases herr : (w.slot.ackSent inp.saveErr).2 with
      | none =>
          rw [herr] at heq
          cases heq
          exact congrArg (List.cons _) (history_commit w _)
      | some err =>
          rw [herr] at heq
          cases heq
          exact history_commit w _
  | spin => cases h

/-- An event in the log was there before or is the one that the action added. -/
theorem mem_log_cases {a : Act} {r : a.Res} {e : Event} (he : e.isSave = false)
    (h : exec cfg id tid w a inp = some (w', r)) (hmem : e ∈ w'.log) :
    emitted tid w a r = some e ∨ e ∈ w.log := by
  rw [← mem_history he, exec_history h, List.mem_append, Option.mem_toList] at hmem
  exact hmem.imp_right (mem_history he).mp

theorem mem_log_mono {a : Act} {r : a.Res} {e : Event} (he : e.isSave = false)
    (h : exec cfg id tid w a inp = some (w', r)) (hmem : e ∈ w.log) : e ∈ w'.log := by
  rw [← mem_history he, exec_history h]
  exact List.mem_append_right _ ((mem_history he).mpr hmem)

/-! ## Which action an event comes from -/

/-- The actions and their events. -/
inductive Emits (tid : ℕ) (w : World) : Act → Event → Prop where
  | transmit {conn : ConnID} {bytes : List UInt8} {cmd : Command} {seq : UInt8} :
      Emits tid w (.transmit conn bytes cmd seq)
        (.transmitted cmd.ticket cmd.commandID seq bytes w.fwMode w.syncMode)
  | publishAck {event : AckEvent} : Emits tid w (.publishAck event) (.published event none)
  | publishAckWithCommand {event : AckEvent} {cmd : Command} :
      Emits tid w (.publishAckWithCommand event cmd) (.published event (some cmd.ticket))
  | lockFlush : Emits tid w .lockFlush (.flushStarted tid)
  | unlockFlush : Emits tid w .unlockFlush (.flushEnded tid)
  | push {cmd : Command} : Emits tid w (.push cmd) (.putBack cmd.ticket)
  | dropOldest {t : ℕ} : Emits tid w .dropOldest (.evicted t)
  | setFWMode {enabled : Bool} : Emits tid w (.setFWMode enabled) (.setFW tid enabled)
  | setSyncMode {enabled : Bool} : Emits tid w (.setSyncMode enabled) (.setSync tid enabled)
  | acked {t : ℕ} {seq : UInt8} : Emits tid w (.ackInFlight seq) (.acked t seq)
  | missed {seq : UInt8} : Emits tid w (.ackInFlight seq) (.missed seq)
  | timedOut {t : ℕ} {seq : UInt8} {now : Time} :
      Emits tid w (.visitInFlight seq now) (.timedOut t seq)
  | accepted {t : ℕ} : Emits tid w (.persistEnqueued t) (.accepted t)

theorem emits_of_emitted {a : Act} {r : a.Res} {e : Event} (h : emitted tid w a r = some e) :
    Emits tid w a e := by
  unfold emitted at h
  split at h <;> cases h <;> constructor

theorem emitted_accepted {a : Act} {r : a.Res} {t : ℕ}
    (h : emitted tid w a r = some (.accepted t)) : a = .persistEnqueued t := by
  cases emits_of_emitted h
  rfl

theorem emitted_published_none {a : Act} {r : a.Res} {event : AckEvent}
    (h : emitted tid w a r = some (.published event none)) : a = .publishAck event := by
  cases emits_of_emitted h
  rfl

/-- A property of the history survives an action if it survives the events that the action may
add. -/
theorem history_of_emits {a : Act} {r : a.Res} {P : List Event → Prop}
    (h : exec cfg id tid w a inp = some (w', r)) (hpast : P (history w.log))
    (hevent : ∀ e, Emits tid w a e → P (e :: history w.log)) : P (history w'.log) := by
  rw [exec_history h]
  cases he : emitted tid w a r with
  | none => exact hpast
  | some e => exact hevent e (emits_of_emitted he)

end exec

end TcpAdapter.Delivery
