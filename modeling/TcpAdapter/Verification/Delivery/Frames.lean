import TcpAdapter.Model.Delivery.Programs
import TcpAdapter.Verification.Eviction
import TcpAdapter.Verification.Session

/-! # What the actions leave alone

Most actions neither move a command nor add to its history. `Calm` says so of a step from
`w` to `w'`; `Quiet` adds that the sequence counter and the modes stay. -/

namespace TcpAdapter.Manager.Slot

open TcpAdapter.Queue

variable (m : Slot) (q : ControllerQueue)

@[simp] theorem setQueue_queue {m : Slot} (h : m.session.isSome) : (m.setQueue q).queue = q := by
  obtain ⟨s, hs⟩ := Option.isSome_iff_exists.mp h
  simp [setQueue, queue, hs]

@[simp] theorem setQueue_inFlight : (m.setQueue q).inFlight = m.inFlight := by
  cases h : m.session <;> simp [setQueue, inFlight, h]

@[simp] theorem setQueue_nextSeq : (m.setQueue q).nextSeq = m.nextSeq := by
  cases h : m.session <;> simp [setQueue, nextSeq, h]

@[simp] theorem setQueue_fwMode : (m.setQueue q).fwMode = m.fwMode := by
  cases h : m.session <;> simp [setQueue, fwMode, h]

@[simp] theorem setQueue_syncMode : (m.setQueue q).syncMode = m.syncMode := by
  cases h : m.session <;> simp [setQueue, syncMode, h]

@[simp] theorem setQueue_session_isSome : (m.setQueue q).session.isSome = m.session.isSome := by
  simp [setQueue]

@[simp] theorem setQueue_saved : (m.setQueue q).saved = m.saved := rfl

end TcpAdapter.Manager.Slot

namespace TcpAdapter.Delivery

open TcpAdapter.Concurrent TcpAdapter.Queue TcpAdapter.Protocol TcpAdapter.Manager
open TcpAdapter.Policy

attribute [simp] World.session World.queue World.inFlight World.nextSeq World.fwMode
  World.syncMode World.note World.setSession World.setQueue World.release World.commit

/-! ## Calm steps -/

/-- Events that say nothing about where a command is. -/
def Event.calm : Event → Bool
  | .saved _ _ | .setFW _ _ | .setSync _ _ | .published _ none | .missed _ => true
  | _ => false

def Event.isSave : Event → Bool
  | .saved _ _ => true
  | _ => false

/-- What the last save noted: the commands in somebody's hands, and the tickets given out. -/
def lastSave : List Event → Option (Multiset ℕ × ℕ)
  | [] => none
  | .saved held tickets :: _ => some (held, tickets)
  | _ :: log => lastSave log

theorem lastSave_append {es log : List Event} (h : ∀ e ∈ es, e.isSave = false) :
    lastSave (es ++ log) = lastSave log := by
  induction es with
  | nil => rfl
  | cons e es ih =>
      have hrest := ih fun e he => h e (List.mem_cons_of_mem _ he)
      have he := h e List.mem_cons_self
      cases e with
      | saved held tickets => cases he
      | _ => exact hrest

namespace World

/-- The row in the store is what the session holds now. -/
def SavedNow (w : World) : Prop :=
  ∃ snap, w.slot.saved = some snap ∧ snap.pending = w.queue.snapshot ∧
    snap.inFlight.map (·.command) = w.inFlight.entries.map (·.command) ∧
    lastSave w.log = some (w.held, w.tickets)

/-- There was no save, or the row in the store is the session as it is now. -/
def Stored (w w' : World) : Prop :=
  (w'.slot.saved = w.slot.saved ∧
    ∃ es, w'.log = es ++ w.log ∧ ∀ e ∈ es, e.isSave = false) ∨ w'.SavedNow

theorem Stored.same {w w' : World} (hsaved : w'.slot.saved = w.slot.saved)
    (hlog : w'.log = w.log) : w.Stored w' :=
  .inl ⟨hsaved, [], hlog, by simp⟩

theorem Stored.noted {w w' : World} {e : Event} (hsaved : w'.slot.saved = w.slot.saved)
    (hlog : w'.log = e :: w.log) (he : e.isSave = false) : w.Stored w' :=
  .inl ⟨hsaved, [e], hlog, by simpa using he⟩

structure Calm (w w' : World) : Prop where
  queue : w'.queue = w.queue
  inFlight : w'.inFlight = w.inFlight
  flushMu : w'.flushMu = w.flushMu
  tickets : w'.tickets = w.tickets
  hands : w'.hands = w.hands
  current : w'.current = w.current
  written : w'.written = w.written
  owed : w'.owed = w.owed
  session : w.session.isSome → w'.session.isSome
  log : ∃ es, w'.log = es ++ w.log ∧ ∀ e ∈ es, e.calm
  stored : w.Stored w'

structure Quiet (w w' : World) : Prop extends w.Calm w' where
  nextSeq : w'.nextSeq = w.nextSeq
  fwMode : w'.fwMode = w.fwMode
  syncMode : w'.syncMode = w.syncMode

/-- A step that leaves the session, the ghost state and the log alone. -/
theorem Quiet.of_eq {w w' : World} (hslot : w'.slot = w.slot) (hflush : w'.flushMu = w.flushMu)
    (htickets : w'.tickets = w.tickets) (hhands : w'.hands = w.hands)
    (hcurrent : w'.current = w.current) (hwritten : w'.written = w.written)
    (howed : w'.owed = w.owed) (hlog : w'.log = w.log) : w.Quiet w' where
  queue := by simp [hslot]
  inFlight := by simp [hslot]
  flushMu := hflush
  tickets := htickets
  hands := hhands
  current := hcurrent
  written := hwritten
  owed := howed
  session := by simp [hslot]
  log := ⟨[], by simp [hlog]⟩
  stored := .same (by rw [hslot]) hlog
  nextSeq := by simp [hslot]
  fwMode := by simp [hslot]
  syncMode := by simp [hslot]

theorem Quiet.refl (w : World) : w.Quiet w :=
  .of_eq rfl rfl rfl rfl rfl rfl rfl rfl

theorem SavedNow.calm {w w' : World} {es : List Event} (h : w.SavedNow) (hc : w.Calm w')
    (hsaved : w'.slot.saved = w.slot.saved) (hes : w'.log = es ++ w.log)
    (hnone : ∀ e ∈ es, e.isSave = false) : w'.SavedNow := by
  obtain ⟨snap, hsnap, hpending, hinFlight, hlog⟩ := h
  refine ⟨snap, by rw [hsaved, hsnap], by rw [hpending, hc.queue],
    by rw [hinFlight, hc.inFlight], ?_⟩
  rw [hes, lastSave_append hnone, hlog]
  simp [held, hc.hands, hc.owed, hc.tickets]

theorem Calm.trans {w w' w'' : World} (h : w.Calm w') (h' : w'.Calm w'') : w.Calm w'' where
  queue := h'.queue.trans h.queue
  inFlight := h'.inFlight.trans h.inFlight
  flushMu := h'.flushMu.trans h.flushMu
  tickets := h'.tickets.trans h.tickets
  hands := h'.hands.trans h.hands
  current := h'.current.trans h.current
  written := h'.written.trans h.written
  owed := h'.owed.trans h.owed
  session := h'.session ∘ h.session
  log := by
    obtain ⟨es, hes, hcalm⟩ := h.log
    obtain ⟨es', hes', hcalm'⟩ := h'.log
    refine ⟨es' ++ es, by rw [hes', hes, List.append_assoc], ?_⟩
    intro e he
    rcases List.mem_append.mp he with he | he
    · exact hcalm' e he
    · exact hcalm e he
  stored := by
    rcases h'.stored with ⟨hsaved', es', hes', hnone'⟩ | hnow
    · rcases h.stored with ⟨hsaved, es, hes, hnone⟩ | hnow
      · refine .inl ⟨hsaved'.trans hsaved, es' ++ es, by rw [hes', hes, List.append_assoc], ?_⟩
        intro e he
        rcases List.mem_append.mp he with he | he
        · exact hnone' e he
        · exact hnone e he
      · exact .inr (hnow.calm h' hsaved' hes' hnone')
    · exact .inr hnow

/-- The log grows by a calm event that is not a save. -/
theorem note_calm (w : World) {e : Event} (he : e.calm = true) (hsave : e.isSave = false) :
    w.Calm (w.note e) where
  queue := rfl
  inFlight := rfl
  flushMu := rfl
  tickets := rfl
  hands := rfl
  current := rfl
  written := rfl
  owed := rfl
  session := id
  log := ⟨[e], rfl, by simpa using he⟩
  stored := .noted rfl rfl hsave

/-- The row that a save writes is the session as it is then. -/
theorem commit_savedNow {w : World} {m : Slot} {s : Session}
    (hsaves : m.saves = w.slot.saves + 1) (hs : m.session = some s)
    (hsaved : m.saved = some s.snapshot) : (w.commit m).SavedNow := by
  refine ⟨s.snapshot, hsaved, ?_, ?_, ?_⟩
  · simp [Slot.queue, hs, Session.snapshot]
  · simp [Slot.inFlight, hs, Session.snapshot]
  · simp [hsaves, lastSave, held]

theorem commit_stored {w : World} {m : Slot} (h : w.slot.Stored m) : w.Stored (w.commit m) := by
  rcases h with ⟨hsaves, hsaved⟩ | ⟨hsaves, s, hs, hsaved⟩
  · exact .same hsaved (by simp [hsaves])
  · exact .inr (commit_savedNow hsaves hs hsaved)

theorem commit_log (w : World) (m : Slot) :
    ∃ es, (w.commit m).log = es ++ w.log ∧ ∀ e ∈ es, e.calm := by
  by_cases hsaves : m.saves = w.slot.saves
  · exact ⟨[], by simp [hsaves]⟩
  · exact ⟨[.saved w.held w.tickets], by simp [hsaves], by simp [Event.calm]⟩

theorem commit_calm {w : World} {m : Slot} (h : w.slot.Keeps m) : w.Calm (w.commit m) where
  queue := h.queue
  inFlight := h.inFlight
  flushMu := rfl
  tickets := rfl
  hands := rfl
  current := rfl
  written := rfl
  owed := rfl
  session := h.session
  log := commit_log w m
  stored := commit_stored h.stored

theorem commit_quiet {w : World} {m : Slot} (h : w.slot.Steady m) : w.Quiet (w.commit m) where
  toCalm := commit_calm h.toKeeps
  nextSeq := h.nextSeq
  fwMode := h.fwMode
  syncMode := h.syncMode

end World

/-! ## Quiet actions -/

/-- The actions that are quiet whatever they answer. -/
def Act.quiet : Act → Bool
  | .now | .write _ _ | .publishAck _ | .lockManager | .unlockManager => true
  | .queueLen | .queueBytes | .hasFW | .hasSync => true
  | .create _ | .markOffline | .touch | .updateBufferFree _ | .setFrameMode _ => true
  | .deliveryContext | .inFlightCount | .ackSent | .peekInFlight _ => true
  | .findSession | .ensureSession | .dedupTime _ | .setDedup _ _ => true
  | .inFlightOrder | .spin => true
  | _ => false

section exec

variable {cfg : Config} {id : String} {tid : ℕ} {w w' : World} {inp : Input}

theorem guarded_eq_some {α : Type} {x y : World × α} (h : guarded tid w x = some y) : x = y := by
  unfold guarded at h
  split at h
  · exact Option.some.inj h
  · cases h

theorem setDedup_steady (m : Slot) {s : Session} (hs : m.session = some s)
    (dedup : String → Option Time) :
    m.Steady { m with session := some { s with dedup := dedup } } := by
  apply Slot.session_steady hs <;> rfl

theorem exec_quiet {a : Act} {r : a.Res} (ha : a.quiet = true)
    (h : exec cfg id tid w a inp = some (w', r)) : w.Quiet w' := by
  cases a with
  | now | write | queueLen | queueBytes | hasFW | hasSync | findSession | dedupTime =>
      cases h
      exact .refl w
  | lockManager =>
      simp only [exec] at h
      split at h
      · cases h
        exact .of_eq rfl rfl rfl rfl rfl rfl rfl rfl
      · cases h
  | unlockManager =>
      cases h
      exact .of_eq rfl rfl rfl rfl rfl rfl rfl rfl
  | publishAck event =>
      cases h
      exact ⟨w.note_calm rfl rfl, rfl, rfl, rfl⟩
  | create conn =>
      cases guarded_eq_some h
      exact World.commit_quiet (Slot.create_steady ..)
  | markOffline =>
      cases guarded_eq_some h
      exact World.commit_quiet (Slot.markOffline_steady ..)
  | touch =>
      cases guarded_eq_some h
      exact World.commit_quiet (Slot.touch_steady ..)
  | updateBufferFree free =>
      cases guarded_eq_some h
      exact World.commit_quiet (Slot.updateBufferFree_steady ..)
  | setFrameMode mode =>
      cases guarded_eq_some h
      exact World.commit_quiet (Slot.setFrameMode_steady ..)
  | ackSent =>
      cases guarded_eq_some h
      exact World.commit_quiet (Slot.ackSent_steady ..)
  | deliveryContext | inFlightCount | peekInFlight =>
      cases guarded_eq_some h
      exact .refl w
  | ensureSession =>
      cases h
      exact World.commit_quiet (Slot.ensureSession_steady ..)
  | setDedup key t =>
      simp only [exec] at h
      split at h
      · rename_i s hs
        cases h
        have hcommit := World.commit_quiet (setDedup_steady w.slot hs
          (Function.update s.dedup key (some t)))
        simpa using hcommit
      · cases h
        exact .refl w
  | inFlightOrder =>
      simp only [exec] at h
      split at h
      · cases h
        exact .refl w
      · cases h
  | spin => cases h
  | _ => cases ha

/-! ## The other manager methods that leave the commands alone -/

theorem exec_setFWMode {enabled : Bool} {r : Option Error}
    (h : exec cfg id tid w (.setFWMode enabled) inp = some (w', r)) :
    w.Calm w' ∧ w'.nextSeq = w.nextSeq ∧ w'.syncMode = w.syncMode ∧
      (w.session.isSome → w'.fwMode = enabled) ∧ (inp.saveErr = none → r = none) := by
  have heq := guarded_eq_some h
  cases hs : w.slot.session with
  | none =>
      simp only [method, Slot.setFWMode, hs] at heq
      cases heq
      have hnote : w.Calm (w.note (.setFW tid enabled)) := w.note_calm rfl rfl
      refine ⟨by simpa using hnote, rfl, rfl, ?_, fun _ => rfl⟩
      simp [hs]
  | some s =>
      simp only [method, Slot.setFWMode, hs] at heq
      cases heq
      have hnote : w.Calm (w.note (.setFW tid enabled)) := w.note_calm rfl rfl
      have hkeeps : (w.note (.setFW tid enabled)).slot.Keeps
          (w.slot.persistLocked { s with fwMode := enabled } inp.saveErr).1 := by
        apply Slot.persistLocked_keeps hs <;> rfl
      refine ⟨hnote.trans (World.commit_calm hkeeps), ?_, ?_, ?_, ?_⟩
      · simp [Slot.nextSeq, hs]
      · simp [Slot.syncMode, hs]
      · simp [Slot.fwMode]
      · simp

theorem exec_setSyncMode {enabled : Bool} {r : Option Error}
    (h : exec cfg id tid w (.setSyncMode enabled) inp = some (w', r)) :
    w.Calm w' ∧ w'.nextSeq = w.nextSeq ∧ w'.fwMode = w.fwMode ∧
      (w.session.isSome → w'.syncMode = enabled) ∧ (inp.saveErr = none → r = none) := by
  have heq := guarded_eq_some h
  cases hs : w.slot.session with
  | none =>
      simp only [method, Slot.setSyncMode, hs] at heq
      cases heq
      have hnote : w.Calm (w.note (.setSync tid enabled)) := w.note_calm rfl rfl
      refine ⟨by simpa using hnote, rfl, rfl, ?_, fun _ => rfl⟩
      simp [hs]
  | some s =>
      simp only [method, Slot.setSyncMode, hs] at heq
      cases heq
      have hnote : w.Calm (w.note (.setSync tid enabled)) := w.note_calm rfl rfl
      have hkeeps : (w.note (.setSync tid enabled)).slot.Keeps
          (w.slot.persistLocked { s with syncMode := enabled } inp.saveErr).1 := by
        apply Slot.persistLocked_keeps hs <;> rfl
      refine ⟨hnote.trans (World.commit_calm hkeeps), ?_, ?_, ?_, ?_⟩
      · simp [Slot.nextSeq, hs]
      · simp [Slot.fwMode, hs]
      · simp [Slot.syncMode]
      · simp

theorem ackSent_error (m : Slot) {save : Option Error} (h : save = none) :
    (m.ackSent save).2 = none := by
  subst h
  unfold Slot.ackSent
  split <;> rfl

/-- A failed save at the end of `ProcessInFlight` loses what the thread owes. -/
theorem exec_persist {r : Option Error} (h : exec cfg id tid w .persist inp = some (w', r)) :
    (inp.saveErr = none → r = none) ∧
      (r = none ∧ w.Quiet w' ∨ r ≠ none ∧ ∃ w₁ : World, w.Quiet w₁ ∧
        w' = { w₁ with owed := w₁.owed.filter fun o => o.1 ≠ tid }) := by
  have hquiet : w.Quiet (w.commit (w.slot.ackSent inp.saveErr).1) :=
    World.commit_quiet (Slot.ackSent_steady ..)
  have heq := Option.some.inj h
  simp only [execPersist, method] at heq
  cases herr : (w.slot.ackSent inp.saveErr).2 with
  | none =>
      rw [herr] at heq
      cases heq
      exact ⟨fun _ => rfl, .inl ⟨rfl, hquiet⟩⟩
  | some err =>
      rw [herr] at heq
      cases heq
      refine ⟨fun hsave => ?_, .inr ⟨by simp, _, hquiet, rfl⟩⟩
      rw [ackSent_error w.slot hsave] at herr
      cases herr

theorem exec_nextCommandSeq {r : Except Error UInt8}
    (h : exec cfg id tid w .nextCommandSeq inp = some (w', r)) :
    w.Calm w' ∧ w'.fwMode = w.fwMode ∧ w'.syncMode = w.syncMode ∧
      (w.session.isSome → w'.nextSeq = w.nextSeq + 1 ∧ r = .ok w'.nextSeq) := by
  have heq := guarded_eq_some h
  cases hs : w.slot.session with
  | none =>
      simp only [Slot.nextCommandSeq, hs] at heq
      cases heq
      refine ⟨?_, by simp, by simp, by simp [hs]⟩
      exact World.commit_calm (Slot.Steady.refl w.slot).toKeeps
  | some s =>
      simp only [Slot.nextCommandSeq, hs] at heq
      cases heq
      refine ⟨World.commit_calm ?_, ?_, ?_, ?_⟩
      · apply Slot.persistLocked_keeps hs <;> rfl
      · simp [Slot.fwMode, hs]
      · simp [Slot.syncMode, hs]
      · simp [Slot.nextSeq, hs]

end exec

/-! ## Commands that leave the in-flight table -/

/-- The thread took the entry under `seq` out and owes a report on it. -/
structure TakenOut (tid : ℕ) (w w' : World) (seq : UInt8) (entry : InFlightEntry) (e : Event) :
    Prop where
  found : w.inFlight seq = some entry
  queue : w'.queue = w.queue
  inFlight : w'.inFlight = Function.update w.inFlight seq none
  flushMu : w'.flushMu = w.flushMu
  tickets : w'.tickets = w.tickets
  hands : w'.hands = w.hands
  current : w'.current = w.current
  written : w'.written = w.written
  owed : w'.owed = (tid, entry.command.hand) ::ₘ w.owed
  session : w.session.isSome → w'.session.isSome
  nextSeq : w'.nextSeq = w.nextSeq
  fwMode : w'.fwMode = w.fwMode
  syncMode : w'.syncMode = w.syncMode
  log : ∃ es, w'.log = es ++ e :: w.log ∧ ∀ e ∈ es, e.calm
  stored : w.Stored w'

/-- The entry under `seq` went back to the queue. -/
structure Requeued (w w' : World) (seq : UInt8) (entry : InFlightEntry) : Prop where
  found : w.inFlight seq = some entry
  queue : w'.queue =
    w.queue.push { entry.command with attempts := entry.attempts, retrySeq := seq }
  inFlight : w'.inFlight = Function.update w.inFlight seq none
  flushMu : w'.flushMu = w.flushMu
  tickets : w'.tickets = w.tickets
  hands : w'.hands = w.hands
  current : w'.current = w.current
  written : w'.written = w.written
  owed : w'.owed = w.owed
  session : w.session.isSome → w'.session.isSome
  nextSeq : w'.nextSeq = w.nextSeq
  fwMode : w'.fwMode = w.fwMode
  syncMode : w'.syncMode = w.syncMode
  log : w'.log = .timedOut entry.command.ticket seq :: w.log
  saved : w'.slot.saved = w.slot.saved

section exec

variable {cfg : Config} {id : String} {tid : ℕ} {w w' : World} {inp : Input}

theorem World.commit_self (w : World) : w.commit w.slot = w := by
  simp

/-- `AckInFlight` finds nothing, or takes the entry out. -/
theorem exec_ackInFlight {seq : UInt8} {r : Option (Command × Int)}
    (h : exec cfg id tid w (.ackInFlight seq) inp = some (w', r)) :
    (r = none ∧ w.Quiet w' ∧ (inp.saveErr = none → w.inFlight seq = none)) ∨
      ∃ entry, r = some (entry.command, entry.attempts) ∧
        TakenOut tid w w' seq entry (.acked entry.command.ticket seq) := by
  have heq := guarded_eq_some h
  have hmissed : w.Quiet (w.note (.missed seq)) := ⟨w.note_calm rfl rfl, rfl, rfl, rfl⟩
  simp only [execAck, Slot.ackInFlight] at heq
  cases hs : w.slot.session with
  | none =>
      simp only [hs, World.commit_self] at heq
      cases heq
      exact .inl ⟨rfl, hmissed, by simp [Slot.inFlight, hs]⟩
  | some s =>
      have hinFlight : w.inFlight = s.inFlight := by simp [Slot.inFlight, hs]
      cases hentry : s.inFlight seq with
      | none =>
          simp only [hs, hentry, World.commit_self] at heq
          cases heq
          exact .inl ⟨rfl, hmissed, fun _ => by rw [hinFlight, hentry]⟩
      | some entry =>
          cases hsave : inp.saveErr with
          | some err =>
              simp only [hs, hentry, hsave, Slot.persistLocked, World.commit_self] at heq
              cases heq
              exact .inl ⟨rfl, hmissed, by simp⟩
          | none =>
              simp only [hs, hentry, hsave, Slot.persistLocked] at heq
              cases heq
              refine .inr ⟨entry, rfl, ?_⟩
              exact
                { found := by rw [hinFlight, hentry]
                  queue := by simp [Slot.queue, hs]
                  inFlight := by simp [Slot.inFlight, hs]
                  flushMu := rfl
                  tickets := rfl
                  hands := rfl
                  current := rfl
                  written := rfl
                  owed := rfl
                  session := by simp
                  nextSeq := by simp [Slot.nextSeq, hs]
                  fwMode := by simp [Slot.fwMode, hs]
                  syncMode := by simp [Slot.syncMode, hs]
                  log := World.commit_log _ _
                  stored := .inr (World.commit_savedNow rfl rfl rfl) }

/-- A round of `ProcessInFlight` leaves the entry alone, puts its command back, or takes it
out. -/
theorem exec_visitInFlight {seq : UInt8} {now : Time} {r : Option InFlightOutcome}
    (h : exec cfg id tid w (.visitInFlight seq now) inp = some (w', r)) :
    (r = none ∧ w' = w) ∨
      ∃ entry out, r = some out ∧
        ((out.type = .retrying ∧ Requeued w w' seq entry) ∨
          (out.type ≠ .retrying ∧ out.command = entry.command ∧
            TakenOut tid w w' seq entry (.timedOut entry.command.ticket seq))) := by
  have heq := Option.some.inj h
  simp only [execVisit] at heq
  split at heq
  · cases heq
    exact .inl ⟨rfl, rfl⟩
  · rename_i s hs
    have hslot : w.slot.session = some s := hs
    split at heq
    · cases heq
      exact .inl ⟨rfl, rfl⟩
    · rename_i s' out hvisit
      have hfound : ∀ entry, s.inFlight seq = some entry → w.inFlight seq = some entry := by
        intro entry hentry
        simp [Slot.inFlight, hslot, hentry]
      obtain ⟨entry, hentry, -, ⟨htype, hcmd, rfl⟩ | ⟨htype, hcmd, rfl⟩⟩ :=
        Session.visitInFlight_some hvisit
      · simp only [htype] at heq
        cases heq
        refine .inr ⟨entry, out, rfl, .inl ⟨htype, ?_⟩⟩
        exact
          { found := hfound entry hentry
            queue := by simp [Slot.queue, hslot, hcmd]
            inFlight := by simp [Slot.inFlight, hslot]
            flushMu := rfl
            tickets := rfl
            hands := rfl
            current := rfl
            written := rfl
            owed := rfl
            session := by simp
            nextSeq := by simp [Slot.nextSeq, hslot]
            fwMode := by simp [Slot.fwMode, hslot]
            syncMode := by simp [Slot.syncMode, hslot]
            log := by simp [hcmd]
            saved := rfl }
      · refine .inr ⟨entry, out, ?_⟩
        have hout : (({ (w.setSession { s with inFlight := Function.update s.inFlight seq none }).note
              (.timedOut out.command.ticket seq) with
              owed := (tid, out.command.hand) ::ₘ w.owed } : World), some out) = (w', r) := by
          cases htype' : out.type with
          | retrying => exact absurd htype' htype
          | expired => simpa [htype'] using heq
          | failed => simpa [htype'] using heq
        cases hout
        refine ⟨rfl, .inr ⟨htype, hcmd, ?_⟩⟩
        exact
          { found := hfound entry hentry
            queue := by simp [Slot.queue, hslot]
            inFlight := by simp [Slot.inFlight, hslot]
            flushMu := rfl
            tickets := rfl
            hands := rfl
            current := rfl
            written := rfl
            owed := by simp [hcmd]
            session := by simp
            nextSeq := by simp [Slot.nextSeq, hslot]
            fwMode := by simp [Slot.fwMode, hslot]
            syncMode := by simp [Slot.syncMode, hslot]
            log := ⟨[], by simp [hcmd], by simp⟩
            stored := .noted rfl rfl rfl }

/-- `RegisterInFlight` enters the command, whether or not the save succeeds. -/
theorem exec_registerInFlight {seq : UInt8} {cmd : Command} {sentAt : Time} {r : Option Error}
    (hsession : w.session.isSome)
    (h : exec cfg id tid w (.registerInFlight seq cmd sentAt) inp = some (w', r)) :
    w'.queue = w.queue ∧
      w'.inFlight = Function.update w.inFlight seq
        (some ⟨seq, cmd, sentAt, cmd.attempts + 1⟩) ∧
      w'.flushMu = w.flushMu ∧ w'.tickets = w.tickets ∧
      w'.hands = w.hands.erase cmd.hand ∧
      w'.current = (if w.current = some cmd.hand then none else w.current) ∧
      w'.written = none ∧ w'.owed = w.owed ∧ w'.session.isSome ∧
      (∃ es, w'.log = es ++ w.log ∧ ∀ e ∈ es, e.calm) ∧ w.Stored w' ∧ r = inp.saveErr := by
  obtain ⟨s, hs⟩ := Option.isSome_iff_exists.mp hsession
  have hslot : w.slot.session = some s := hs
  have heq := guarded_eq_some h
  simp only [execRegister, World.session, hslot, Slot.registerInFlight,
    Slot.persistLocked_error] at heq
  obtain ⟨rfl, rfl⟩ := Prod.mk.inj heq
  refine ⟨?_, ?_, rfl, rfl, rfl, rfl, rfl, rfl, by simp, World.commit_log _ _,
    World.commit_stored (Slot.persistLocked_stored ..), rfl⟩
  · simp [Slot.queue, hslot]
  · simp [Slot.inFlight, hslot]

end exec

/-! ## Which actions move commands -/

def Act.movesCommand : Act → Bool
  | .popNext _ _ _ | .drainExpired _ | .push _ | .dropOldest | .pushNew _ => true
  | .registerInFlight _ _ _ | .ackInFlight _ | .visitInFlight _ _ => true
  | _ => false

def Act.movesInFlight : Act → Bool
  | .registerInFlight _ _ _ | .ackInFlight _ | .visitInFlight _ _ => true
  | _ => false

/-- The actions on the frame that a flush has written. -/
def Act.movesFrame : Act → Bool
  | .transmit _ _ _ _ | .registerInFlight _ _ _ | .unlockFlush => true
  | _ => false

/-- The actions on the flush mutex. -/
def Act.movesMutex : Act → Bool
  | .lockFlush | .unlockFlush => true
  | _ => false

/-- The actions on the sequence counter and on the modes. -/
def Act.movesSetting : Act → Bool
  | .nextCommandSeq | .setFWMode _ | .setSyncMode _ => true
  | _ => false

section exec

variable {cfg : Config} {id : String} {tid : ℕ} {w w' : World} {inp : Input}

/-- Settling a command changes only who has it. -/
theorem settle_eq (w : World) (tid : ℕ) (h : Hand) : ∃ hands current owed,
    w.settle tid h = { w with hands := hands, current := current, owed := owed } := by
  unfold World.settle
  split
  · exact ⟨w.hands, w.current, _, rfl⟩
  · split
    · exact ⟨_, _, w.owed, rfl⟩
    · exact ⟨w.hands, w.current, w.owed, rfl⟩

@[simp] theorem settle_slot (w : World) (tid : ℕ) (h : Hand) : (w.settle tid h).slot = w.slot := by
  obtain ⟨hands, current, owed, heq⟩ := settle_eq w tid h
  rw [heq]

theorem exec_persistEnqueued {ticket : ℕ} {r : Option Error}
    (h : exec cfg id tid w (.persistEnqueued ticket) inp = some (w', r)) :
    ∃ w₁ : World, w.Quiet w₁ ∧
      ((r = none ∧ w' = w₁.note (.accepted ticket)) ∨ (r ≠ none ∧ w' = w₁)) := by
  refine ⟨w.commit (w.slot.ackSent inp.saveErr).1,
    World.commit_quiet (Slot.ackSent_steady ..), ?_⟩
  have heq := Option.some.inj h
  simp only [execEnqueued, method] at heq
  cases herr : (w.slot.ackSent inp.saveErr).2 with
  | none =>
      rw [herr] at heq
      cases heq
      exact .inl ⟨rfl, rfl⟩
  | some err =>
      rw [herr] at heq
      cases heq
      exact .inr ⟨by simp, rfl⟩

/-- The other actions leave the queue and the in-flight table alone. -/
theorem exec_commands {a : Act} {r : a.Res} (ha : a.movesCommand = false)
    (h : exec cfg id tid w a inp = some (w', r)) :
    w'.queue = w.queue ∧ w'.inFlight = w.inFlight := by
  cases a with
  | now | write | publishAck | lockManager | unlockManager | queueLen | queueBytes | hasFW
  | hasSync | create | markOffline | touch | updateBufferFree | setFrameMode | inFlightCount
  | peekInFlight | findSession | dedupTime | setDedup | inFlightOrder | spin
  | deliveryContext | ensureSession | ackSent =>
      have hquiet := exec_quiet rfl h
      exact ⟨hquiet.queue, hquiet.inFlight⟩
  | setFWMode enabled => exact ⟨(exec_setFWMode h).1.queue, (exec_setFWMode h).1.inFlight⟩
  | setSyncMode enabled => exact ⟨(exec_setSyncMode h).1.queue, (exec_setSyncMode h).1.inFlight⟩
  | nextCommandSeq => exact ⟨(exec_nextCommandSeq h).1.queue, (exec_nextCommandSeq h).1.inFlight⟩
  | unlockFlush =>
      cases h
      exact ⟨rfl, rfl⟩
  | lockFlush =>
      simp only [exec] at h
      split at h
      · cases h
        exact ⟨rfl, rfl⟩
      · cases h
  | transmit =>
      simp only [exec, execTransmit] at h
      split at h <;> cases h <;> exact ⟨rfl, rfl⟩
  | publishAckWithCommand event cmd =>
      cases h
      unfold execPublish
      dsimp only
      split <;> simp
  | persist =>
      obtain ⟨-, ⟨-, hquiet⟩ | ⟨-, w₁, hquiet, rfl⟩⟩ := exec_persist h
      · exact ⟨hquiet.queue, hquiet.inFlight⟩
      · exact ⟨hquiet.queue, hquiet.inFlight⟩
  | persistEnqueued ticket =>
      obtain ⟨w₁, hquiet, ⟨-, rfl⟩ | ⟨-, rfl⟩⟩ := exec_persistEnqueued h
      · exact ⟨hquiet.queue, hquiet.inFlight⟩
      · exact ⟨hquiet.queue, hquiet.inFlight⟩
  | _ => cases ha

theorem exec_inFlight {a : Act} {r : a.Res} (ha : a.movesInFlight = false)
    (h : exec cfg id tid w a inp = some (w', r)) : w'.inFlight = w.inFlight := by
  cases a with
  | drainExpired | pushNew =>
      cases h
      simp
  | push =>
      cases h
      simp [execPush]
  | popNext =>
      simp only [exec, execPop] at h
      split at h <;> cases h <;> simp
  | dropOldest =>
      simp only [exec, execDropOldest] at h
      split at h <;> cases h <;> simp
  | registerInFlight | ackInFlight | visitInFlight => cases ha
  | _ => exact (exec_commands rfl h).2

/-- The two mutexes, the tickets given out and the frame on the wire, unless the action is one
that moves them. -/
structure SameRegisters (a : Act) (w w' : World) : Prop where
  mu : a ≠ .lockManager → a ≠ .unlockManager → w'.mu = w.mu
  flushMu : a.movesMutex = false → w'.flushMu = w.flushMu
  tickets : (∀ cmd, a ≠ .pushNew cmd) → w'.tickets = w.tickets
  written : a.movesFrame = false → w'.written = w.written

theorem exec_registers {a : Act} {r : a.Res} (h : exec cfg id tid w a inp = some (w', r)) :
    SameRegisters a w w' := by
  cases a with
  | lockManager =>
      simp only [exec] at h
      split at h
      · cases h
        exact ⟨fun hne => absurd rfl hne, fun _ => rfl, fun _ => rfl, fun _ => rfl⟩
      · cases h
  | unlockManager =>
      cases h
      exact ⟨fun _ hne => absurd rfl hne, fun _ => rfl, fun _ => rfl, fun _ => rfl⟩
  | lockFlush =>
      simp only [exec] at h
      split at h
      · cases h
        exact ⟨fun _ _ => rfl, nofun, fun _ => rfl, fun _ => rfl⟩
      · cases h
  | unlockFlush =>
      cases h
      exact ⟨fun _ _ => rfl, nofun, fun _ => rfl, nofun⟩
  | pushNew cmd =>
      cases h
      exact ⟨fun _ _ => rfl, fun _ => rfl, fun hne => absurd rfl (hne cmd), fun _ => rfl⟩
  | now | write | queueLen | queueBytes | hasFW | hasSync | findSession | dedupTime
  | publishAck | push | drainExpired | ensureSession =>
      cases h
      exact ⟨fun _ _ => rfl, fun _ => rfl, fun _ => rfl, fun _ => rfl⟩
  | create | markOffline | touch | updateBufferFree | setFrameMode | ackSent | nextCommandSeq
  | deliveryContext | inFlightCount | peekInFlight | setFWMode | setSyncMode =>
      cases guarded_eq_some h
      exact ⟨fun _ _ => rfl, fun _ => rfl, fun _ => rfl, fun _ => rfl⟩
  | inFlightOrder | setDedup =>
      simp only [exec] at h
      split at h <;> cases h <;> exact ⟨fun _ _ => rfl, fun _ => rfl, fun _ => rfl, fun _ => rfl⟩
  | popNext =>
      simp only [exec, execPop] at h
      split at h <;> cases h <;> exact ⟨fun _ _ => rfl, fun _ => rfl, fun _ => rfl, fun _ => rfl⟩
  | dropOldest =>
      simp only [exec, execDropOldest] at h
      split at h <;> cases h <;> exact ⟨fun _ _ => rfl, fun _ => rfl, fun _ => rfl, fun _ => rfl⟩
  | transmit =>
      simp only [exec, execTransmit] at h
      split at h <;> cases h <;> exact ⟨fun _ _ => rfl, fun _ => rfl, fun _ => rfl, nofun⟩
  | publishAckWithCommand event cmd =>
      cases h
      unfold execPublish
      dsimp only
      split
      · obtain ⟨hands, current, owed, heq⟩ :=
          settle_eq (w.note (.published event (some cmd.ticket))) tid cmd.hand
        rw [heq]
        exact ⟨fun _ _ => rfl, fun _ => rfl, fun _ => rfl, fun _ => rfl⟩
      · exact ⟨fun _ _ => rfl, fun _ => rfl, fun _ => rfl, fun _ => rfl⟩
  | registerInFlight seq cmd sentAt =>
      have heq := guarded_eq_some h
      simp only [execRegister] at heq
      split at heq <;> cases heq <;> exact ⟨fun _ _ => rfl, fun _ => rfl, fun _ => rfl, nofun⟩
  | ackInFlight seq =>
      have heq := guarded_eq_some h
      simp only [execAck] at heq
      split at heq <;> cases heq <;>
        exact ⟨fun _ _ => rfl, fun _ => rfl, fun _ => rfl, fun _ => rfl⟩
  | visitInFlight seq now =>
      have heq := Option.some.inj h
      simp only [execVisit] at heq
      repeat' split at heq
      all_goals
        cases heq
        exact ⟨fun _ _ => rfl, fun _ => rfl, fun _ => rfl, fun _ => rfl⟩
  | persist =>
      have heq := Option.some.inj h
      simp only [execPersist, method] at heq
      cases herr : (w.slot.ackSent inp.saveErr).2 <;> rw [herr] at heq <;> cases heq <;>
        exact ⟨fun _ _ => rfl, fun _ => rfl, fun _ => rfl, fun _ => rfl⟩
  | persistEnqueued ticket =>
      have heq := Option.some.inj h
      simp only [execEnqueued, method] at heq
      cases herr : (w.slot.ackSent inp.saveErr).2 <;> rw [herr] at heq <;> cases heq <;>
        exact ⟨fun _ _ => rfl, fun _ => rfl, fun _ => rfl, fun _ => rfl⟩
  | spin => cases h

theorem exec_written {a : Act} {r : a.Res} (ha : a.movesFrame = false)
    (h : exec cfg id tid w a inp = some (w', r)) : w'.written = w.written :=
  (exec_registers h).written ha

/-- Only `Enqueue` gives out tickets. -/
theorem exec_tickets {a : Act} {r : a.Res} (ha : ∀ cmd, a ≠ .pushNew cmd)
    (h : exec cfg id tid w a inp = some (w', r)) : w'.tickets = w.tickets :=
  (exec_registers h).tickets ha

/-- Only the two lock actions move `Manager.mu`. -/
theorem exec_mu {a : Act} {r : a.Res} (hlock : a ≠ .lockManager) (hunlock : a ≠ .unlockManager)
    (h : exec cfg id tid w a inp = some (w', r)) : w'.mu = w.mu :=
  (exec_registers h).mu hlock hunlock

theorem queue_of_session {s : Session} (hs : w.session = some s) : w.queue = s.queue := by
  rw [World.queue, Slot.queue, show w.slot.session = some s from hs]
  rfl

/-- No action takes the session away. -/
theorem exec_session {a : Act} {r : a.Res} (h : exec cfg id tid w a inp = some (w', r))
    (hs : w.session.isSome) : w'.session.isSome := by
  cases a with
  | now | write | publishAck | lockManager | unlockManager | queueLen | queueBytes | hasFW
  | hasSync | create | markOffline | touch | updateBufferFree | setFrameMode | inFlightCount
  | peekInFlight | findSession | dedupTime | setDedup | inFlightOrder | spin
  | deliveryContext | ensureSession | ackSent => exact (exec_quiet rfl h).session hs
  | setFWMode enabled => exact (exec_setFWMode h).1.session hs
  | setSyncMode enabled => exact (exec_setSyncMode h).1.session hs
  | nextCommandSeq => exact (exec_nextCommandSeq h).1.session hs
  | lockFlush =>
      simp only [exec] at h
      split at h
      · cases h
        exact hs
      · cases h
  | unlockFlush =>
      cases h
      exact hs
  | drainExpired | push | pushNew =>
      cases h
      simpa [execPush, execPushNew] using hs
  | popNext =>
      simp only [exec, execPop] at h
      split at h <;> cases h <;> simpa using hs
  | dropOldest =>
      simp only [exec, execDropOldest] at h
      split at h <;> cases h <;> simpa using hs
  | transmit =>
      simp only [exec, execTransmit] at h
      split at h <;> cases h <;> exact hs
  | publishAckWithCommand event cmd =>
      cases h
      unfold execPublish
      dsimp only
      split <;> simpa using hs
  | registerInFlight seq cmd sentAt =>
      obtain ⟨-, -, -, -, -, -, -, -, hsession, -⟩ := exec_registerInFlight hs h
      exact hsession
  | ackInFlight seq =>
      rcases exec_ackInFlight h with ⟨-, hquiet, -⟩ | ⟨entry, -, ht⟩
      · exact hquiet.session hs
      · exact ht.session hs
  | visitInFlight seq now =>
      rcases exec_visitInFlight h with ⟨-, rfl⟩ | ⟨entry, out, -, ⟨-, hq⟩ | ⟨-, -, ht⟩⟩
      · exact hs
      · exact hq.session hs
      · exact ht.session hs
  | persist =>
      obtain ⟨-, ⟨-, hquiet⟩ | ⟨-, w₁, hquiet, rfl⟩⟩ := exec_persist h
      · exact hquiet.session hs
      · exact hquiet.session hs
  | persistEnqueued ticket =>
      obtain ⟨w₁, hquiet, ⟨-, rfl⟩ | ⟨-, rfl⟩⟩ := exec_persistEnqueued h
      · exact hquiet.session hs
      · exact hquiet.session hs

/-- The other actions leave the flush mutex alone, and no action takes the session away. -/
theorem exec_mutex {a : Act} {r : a.Res} (ha : a.movesMutex = false)
    (h : exec cfg id tid w a inp = some (w', r)) :
    w'.flushMu = w.flushMu ∧ (w.session.isSome → w'.session.isSome) :=
  ⟨(exec_registers h).flushMu ha, exec_session h⟩

/-- `enqueueLocked` goes on only with a session. -/
theorem ensureSession_none {m m' : Slot} {controllerID : String} {now : Time}
    {save : Option Error} (h : m.ensureSession controllerID now save = (m', none)) :
    m'.session.isSome := by
  unfold Slot.ensureSession at h
  split at h
  · rename_i s hs
    cases h
    simp [hs]
  · cases save with
    | none =>
        cases h
        rfl
    | some err => cases h

/-- The other actions leave the sequence counter and the modes alone. -/
theorem exec_settings {a : Act} {r : a.Res} (ha : a.movesSetting = false)
    (h : exec cfg id tid w a inp = some (w', r)) :
    w'.nextSeq = w.nextSeq ∧ w'.fwMode = w.fwMode ∧ w'.syncMode = w.syncMode := by
  have hq : ∀ {w w' : World}, w.Quiet w' →
      w'.nextSeq = w.nextSeq ∧ w'.fwMode = w.fwMode ∧ w'.syncMode = w.syncMode :=
    fun hq => ⟨hq.nextSeq, hq.fwMode, hq.syncMode⟩
  cases a with
  | now | write | publishAck | lockManager | unlockManager | queueLen | queueBytes | hasFW
  | hasSync | create | markOffline | touch | updateBufferFree | setFrameMode | inFlightCount
  | peekInFlight | findSession | dedupTime | setDedup | inFlightOrder | spin
  | deliveryContext | ensureSession | ackSent => exact hq (exec_quiet rfl h)
  | unlockFlush | drainExpired | push | pushNew =>
      cases h
      simp [execPush]
  | lockFlush =>
      simp only [exec] at h
      split at h
      · cases h
        exact ⟨rfl, rfl, rfl⟩
      · cases h
  | popNext =>
      simp only [exec, execPop] at h
      split at h <;> cases h <;> simp
  | dropOldest =>
      simp only [exec, execDropOldest] at h
      split at h <;> cases h <;> simp
  | transmit =>
      simp only [exec, execTransmit] at h
      split at h <;> cases h <;> exact ⟨rfl, rfl, rfl⟩
  | publishAckWithCommand event cmd =>
      cases h
      unfold execPublish
      dsimp only
      split <;> simp
  | registerInFlight seq cmd sentAt =>
      have heq := guarded_eq_some h
      cases hs : w.slot.session with
      | none =>
          simp only [execRegister, World.session, hs] at heq
          cases heq
          exact ⟨rfl, rfl, rfl⟩
      | some s =>
          simp only [execRegister, World.session, hs, Slot.registerInFlight] at heq
          cases heq
          simp [Slot.nextSeq, Slot.fwMode, Slot.syncMode, hs]
  | ackInFlight seq =>
      rcases exec_ackInFlight h with ⟨-, hquiet, -⟩ | ⟨entry, -, ht⟩
      · exact hq hquiet
      · exact ⟨ht.nextSeq, ht.fwMode, ht.syncMode⟩
  | visitInFlight seq now =>
      rcases exec_visitInFlight h with ⟨-, rfl⟩ | ⟨entry, out, -, ⟨-, hr⟩ | ⟨-, -, ht⟩⟩
      · exact ⟨rfl, rfl, rfl⟩
      · exact ⟨hr.nextSeq, hr.fwMode, hr.syncMode⟩
      · exact ⟨ht.nextSeq, ht.fwMode, ht.syncMode⟩
  | persist =>
      obtain ⟨-, ⟨-, hquiet⟩ | ⟨-, w₁, hquiet, rfl⟩⟩ := exec_persist h
      · exact hq hquiet
      · exact ⟨hquiet.nextSeq, hquiet.fwMode, hquiet.syncMode⟩
  | persistEnqueued ticket =>
      obtain ⟨w₁, hquiet, ⟨-, rfl⟩ | ⟨-, rfl⟩⟩ := exec_persistEnqueued h
      · exact ⟨hquiet.nextSeq, hquiet.fwMode, hquiet.syncMode⟩
      · exact hq hquiet
  | nextCommandSeq | setFWMode | setSyncMode => cases ha

end exec

end TcpAdapter.Delivery
