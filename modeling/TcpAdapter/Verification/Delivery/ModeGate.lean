import TcpAdapter.Verification.Delivery.Conservation
import TcpAdapter.Verification.Delivery.Flush

/-! # Modes at the moment of transmission

A flush decides by the copy of the modes that it took at its start, while a handler may
switch firmware mode in the session. The copy is good enough as long as nobody else
switches firmware mode on during the flush, or off while sync mode is on. -/

namespace TcpAdapter.Delivery

open TcpAdapter.Concurrent TcpAdapter.Queue TcpAdapter.Protocol TcpAdapter.Manager
open TcpAdapter.Policy

/-! ## Modes in the history -/

/-- Events at which a flush begins or ends. -/
def Event.isMark : Event → Bool
  | .flushStarted _ | .flushEnded _ | .restarted => true
  | _ => false

/-- The thread whose flush is running, and what has happened since the flush began. -/
def openFlush : List Event → Option (ℕ × List Event)
  | [] => none
  | .flushStarted tid :: _ => some (tid, [])
  | .flushEnded _ :: _ | .restarted :: _ => none
  | e :: past => (openFlush past).map fun f => (f.1, e :: f.2)

/-- Another thread than `tid` switched firmware mode on. -/
def Event.raisesFW (tid : ℕ) : Event → Bool
  | .setFW other true => other ≠ tid
  | _ => false

def Event.raisesSync (tid : ℕ) : Event → Bool
  | .setSync other true => other ≠ tid
  | _ => false

/-- No flush switches a mode off that another thread has switched on since it began. -/
def keepsModes : List Event → Bool
  | [] => true
  | .setFW tid false :: past =>
      ((openFlush past).all fun f => f.1 ≠ tid || f.2.all fun e => !e.raisesFW tid) &&
        keepsModes past
  | .setSync tid false :: past =>
      ((openFlush past).all fun f => f.1 ≠ tid || f.2.all fun e => !e.raisesSync tid) &&
        keepsModes past
  | _ :: past => keepsModes past

/-- The modes in which a frame was written let its command through. -/
def Event.gated : Event → Bool
  | .transmitted _ commandID _ _ fwMode syncMode =>
      commandAllowedInModes commandID fwMode syncMode
  | _ => true

theorem openFlush_cons {e : Event} (he : e.isMark = false) (past : List Event) :
    openFlush (e :: past) = (openFlush past).map fun f => (f.1, e :: f.2) := by
  cases e with
  | flushStarted | flushEnded | restarted => cases he
  | _ => rfl

/-- The history agrees with the mutex, and no thread but the one that flushes has switched a
mode on since its flush began. -/
structure ModesKept (mu : Option ℕ) (past : List Event) : Prop where
  holder : (openFlush past).map Prod.fst = mu
  unraised : ∀ f ∈ openFlush past, ∀ e ∈ f.2, e.raisesFW f.1 = false ∧ e.raisesSync f.1 = false
  gated : ∀ e ∈ past, e.gated = true
  kept : keepsModes past = true

theorem ModesKept.keeps_cons {mu : Option ℕ} {past : List Event} (h : ModesKept mu past)
    (e : Event) : keepsModes (e :: past) = true := by
  have hnone : ∀ tid, ((openFlush past).all fun f =>
      f.1 ≠ tid || f.2.all fun e => !e.raisesFW tid) = true ∧
      ((openFlush past).all fun f => f.1 ≠ tid || f.2.all fun e => !e.raisesSync tid) = true := by
    intro tid
    cases hf : openFlush past with
    | none => exact ⟨rfl, rfl⟩
    | some f =>
        have hraised := h.unraised f hf
        by_cases heq : f.1 = tid
        · subst heq
          constructor
          · simpa using fun e he => (hraised e he).1
          · simpa using fun e he => (hraised e he).2
        · simp [heq]
  cases e with
  | setFW tid enabled =>
      cases enabled with
      | true => exact h.kept
      | false => simp only [keepsModes, (hnone tid).1, h.kept, Bool.and_self]
  | setSync tid enabled =>
      cases enabled with
      | true => exact h.kept
      | false => simp only [keepsModes, (hnone tid).2, h.kept, Bool.and_self]
  | _ => exact h.kept

/-- A flush begins or ends. -/
theorem ModesKept.mark {mu mu' : Option ℕ} {past : List Event} {e : Event}
    (h : ModesKept mu past) (hgated : e.gated = true)
    (hopen : openFlush (e :: past) = mu'.map fun tid => (tid, [])) :
    ModesKept mu' (e :: past) where
  holder := by
    rw [hopen]
    cases mu' <;> rfl
  unraised := by
    intro f hf e' he'
    rw [hopen] at hf
    obtain ⟨tid, -, rfl⟩ := Option.map_eq_some_iff.mp hf
    cases he'
  gated := List.forall_mem_cons.mpr ⟨hgated, h.gated⟩
  kept := h.keeps_cons e

/-- Anything else happens. -/
theorem ModesKept.cons {mu : Option ℕ} {past : List Event} {e : Event} (h : ModesKept mu past)
    (he : e.isMark = false) (hgated : e.gated = true)
    (hraises : ∀ tid ∈ mu, e.raisesFW tid = false ∧ e.raisesSync tid = false) :
    ModesKept mu (e :: past) where
  holder := by
    rw [openFlush_cons he, ← h.holder]
    simp [Function.comp_def]
  unraised := by
    intro f hf
    rw [openFlush_cons he] at hf
    obtain ⟨f₀, hf₀, rfl⟩ := Option.map_eq_some_iff.mp hf
    have hholder : f₀.1 ∈ mu := by
      rw [← h.holder, hf₀]
      rfl
    exact List.forall_mem_cons.mpr ⟨hraises _ hholder, h.unraised f₀ hf₀⟩
  gated := List.forall_mem_cons.mpr ⟨hgated, h.gated⟩
  kept := h.keeps_cons e

/-! ## The copy of the modes -/

/-- The session is in the modes of the copy, or firmware mode has ended meanwhile and the
session is in no mode. -/
structure Agrees (w : World) (dctx : DeliveryContext) : Prop where
  sync : w.syncMode = dctx.syncMode
  fw : w.fwMode = dctx.fwMode ∨ w.fwMode = false ∧ dctx.fwMode = true ∧ w.syncMode = false

/-- What the copy lets through, the session lets through. -/
theorem Agrees.allowed {w : World} {dctx : DeliveryContext} {commandID : UInt8}
    (h : Agrees w dctx)
    (hallowed : commandAllowedInModes commandID dctx.fwMode dctx.syncMode = true) :
    commandAllowedInModes commandID w.fwMode w.syncMode = true := by
  rcases h.fw with heq | ⟨hfw, -, hsync⟩
  · rwa [heq, h.sync]
  · rw [hfw, hsync]
    rfl

theorem Agrees.congr {w w' : World} {dctx : DeliveryContext} (h : Agrees w dctx)
    (hfw : w'.fwMode = w.fwMode) (hsync : w'.syncMode = w.syncMode) : Agrees w' dctx :=
  ⟨hsync.trans h.sync, by rw [hfw, hsync]; exact h.fw⟩

/-- The flush goes by its copy. -/
def KnowsModes (w : World) (v : FlushState) : Prop :=
  v.phase = .opened ∨ v.phase = .active → Agrees w v.dctx

/-- The actions that change the copy of the modes. -/
def Act.movesCopy : Act → Bool
  | .lockFlush | .unlockFlush | .deliveryContext | .setFWMode _ | .setSyncMode _ => true
  | _ => false

theorem FlushState.after_dctx {v : FlushState} {a : Act} (r : a.Res) (ha : a.movesCopy = false) :
    (v.after a r).dctx = v.dctx := by
  cases a with
  | lockFlush | unlockFlush | deliveryContext | setFWMode | setSyncMode => cases ha
  | inFlightCount =>
      simp only [after]
      split <;> rfl
  | popNext | nextCommandSeq | transmit | registerInFlight | hasSync | hasFW | ackSent =>
      cases r <;> rfl
  | _ => rfl

/-- During a flush, no other thread switches firmware mode on, or off while both modes are
on. -/
def keepsFWMode (w : World) (tid : ℕ) : Act → Bool
  | .setFWMode enabled =>
      w.flushMu = none || w.flushMu = some tid || (!enabled && (!w.fwMode || !w.syncMode))
  | _ => true

section exec

variable {cfg : Config} {id : String} {tid : ℕ} {w w' : World} {inp : Input} {v : FlushState}

theorem exec_modes {a : Act} {r : a.Res} (hfw : ∀ enabled, a ≠ .setFWMode enabled)
    (hsync : ∀ enabled, a ≠ .setSyncMode enabled)
    (h : exec cfg id tid w a inp = some (w', r)) :
    w'.fwMode = w.fwMode ∧ w'.syncMode = w.syncMode := by
  cases a with
  | setFWMode enabled => exact absurd rfl (hfw enabled)
  | setSyncMode enabled => exact absurd rfl (hsync enabled)
  | nextCommandSeq => exact ⟨(exec_nextCommandSeq h).2.1, (exec_nextCommandSeq h).2.2.1⟩
  | _ => exact (exec_settings rfl h).2

theorem knowsModes_own {a : Act} {r : a.Res} (hv : v.Holds tid w) (hk : KnowsModes w v)
    (hmay : v.May a) (h : exec cfg id tid w a inp = some (w', r)) :
    KnowsModes w' (v.after a r) := by
  refine FlushState.knowledge_own hmay h ?_ ?_ ?_ ?_ ?_ ?_
  · rintro v (hoff | hoff) (hp | hp) <;> cases hoff.symm.trans hp
  · exact fun hslot hphase => (hk hphase).congr (by simp [hslot]) (by simp [hslot])
  · rintro - - (hp | hp) <;> cases hp
  · rintro s rfl - rfl hs -
    have hslot : w.slot.session = some s := hs
    refine ⟨?_, .inl ?_⟩ <;>
      simp [FlushState.after, hslot, Slot.syncMode, Slot.fwMode, Session.deliveryContext]
  · exact fun hopened _ _ _ => hk (.inl hopened)
  · intro hactive hruns hstill _
    have hagrees := hk (.inr hactive)
    have hsession := hv.session (by simp [hactive]) (by simp [hactive])
    cases a with
    | setFWMode enabled =>
        obtain ⟨-, -, hsync, hfw, -⟩ := exec_setFWMode h
        cases r with
        | some err => simp [FlushState.after, hactive, FlushState.fail] at hstill
        | none => exact ⟨hsync.trans hagrees.sync, .inl (hfw hsession)⟩
    | setSyncMode enabled =>
        obtain ⟨-, -, hfw, hsync, -⟩ := exec_setSyncMode h
        cases r with
        | some err => cases hstill
        | none =>
            refine ⟨hsync hsession, ?_⟩
            rcases hagrees.fw with heq | ⟨hoff, hon, -⟩
            · exact .inl (hfw.trans heq)
            · cases enabled with
              | true =>
                  -- the flush enters sync mode only when its copy is not in firmware mode
                  cases (hmay.2 rfl).2.symm.trans hon
              | false => exact .inr ⟨hfw.trans hoff, hon, hsync hsession⟩
    | lockFlush | unlockFlush | deliveryContext => cases hruns
    | _ =>
        obtain ⟨hfw, hsync⟩ := exec_modes (by simp) (by simp) h
        rw [FlushState.after_dctx r rfl]
        exact hagrees.congr hfw hsync

theorem knowsModes_other {a : Act} {r : a.Res} {other : ℕ} {u : FlushState}
    (hv : v.Holds tid w) (hmay : v.May a) (hrule : keepsFWMode w tid a = true)
    (hne : other ≠ tid) (hu : u.Holds other w) (hk : KnowsModes w u)
    (h : exec cfg id tid w a inp = some (w', r)) : KnowsModes w' u := by
  intro hphase
  have hon : u.phase ≠ .off := by rcases hphase with hp | hp <;> simp [hp]
  have hlocked : u.phase ≠ .locked := by rcases hphase with hp | hp <;> simp [hp]
  have hmu := hu.flushing.mp hon
  have hoff := hv.off_of_other hne hu hon
  have hagrees := hk hphase
  cases a with
  | setSyncMode enabled =>
      have hactive := hmay.1
      rw [hoff] at hactive
      cases hactive
  | setFWMode enabled =>
      obtain ⟨-, -, hsync, hfw, -⟩ := exec_setFWMode h
      have hfw' := hfw (hu.session hon hlocked)
      simp only [keepsFWMode, hmu, Option.some.injEq, hne, reduceCtorEq, decide_false,
        Bool.false_or, Bool.and_eq_true, Bool.or_eq_true, Bool.not_eq_true'] at hrule
      obtain ⟨rfl, hmodes⟩ := hrule
      refine ⟨hsync.trans hagrees.sync, ?_⟩
      rw [hfw', hsync]
      cases hcopy : u.dctx.fwMode with
      | false => exact .inl rfl
      | true =>
          refine .inr ⟨rfl, rfl, ?_⟩
          rcases hmodes with hfwOff | hsyncOff
          · rcases hagrees.fw with heq | ⟨-, -, hsyncOff⟩
            · rw [heq, hcopy] at hfwOff
              cases hfwOff
            · exact hsyncOff
          · exact hsyncOff
  | _ =>
      obtain ⟨hfw, hsync⟩ := exec_modes (by simp) (by simp) h
      exact hagrees.congr hfw hsync

/-- The history keeps the modes. -/
theorem modesKept_exec {a : Act} {r : a.Res} (hw : ModesKept w.flushMu (history w.log))
    (hv : v.Holds tid w) (hk : KnowsModes w v) (hmay : v.May a)
    (hrule : keepsFWMode w tid a = true) (h : exec cfg id tid w a inp = some (w', r)) :
    ModesKept w'.flushMu (history w'.log) := by
  rw [exec_history h]
  cases a with
  | lockFlush =>
      simp only [exec] at h
      split at h
      · cases h
        exact hw.mark rfl rfl
      · cases h
  | unlockFlush =>
      cases h
      exact hw.mark rfl rfl
  | transmit conn bytes cmd seq =>
      rw [(exec_mutex rfl h).1]
      cases r with
      | some err => exact hw
      | none => exact hw.cons rfl ((hk (.inr hmay.1)).allowed hmay.2.2) fun _ _ => ⟨rfl, rfl⟩
  | setFWMode enabled =>
      rw [(exec_mutex rfl h).1]
      refine hw.cons rfl rfl fun holder hholder => ⟨?_, rfl⟩
      have hmu : w.flushMu = some holder := hholder
      cases enabled with
      | false => rfl
      | true =>
          simp only [keepsFWMode, hmu, reduceCtorEq, decide_false, Bool.false_or, Bool.not_true,
            Bool.false_and, Bool.or_false, decide_eq_true_eq, Option.some.injEq] at hrule
          simp [Event.raisesFW, hrule]
  | setSyncMode enabled =>
      rw [(exec_mutex rfl h).1]
      refine hw.cons rfl rfl fun holder hholder => ⟨rfl, ?_⟩
      have hmu : w.flushMu = some tid := hv.flushing.mp (by simp [hmay.1])
      have hself : tid = holder := Option.some.inj (hmu.symm.trans hholder)
      cases enabled with
      | false => rfl
      | true => simp [Event.raisesSync, hself]
  | _ =>
      rw [(exec_mutex rfl h).1, ← exec_history h]
      refine history_of_emits h hw fun e he => ?_
      cases he <;> exact hw.cons rfl rfl fun _ _ => ⟨rfl, rfl⟩

end exec

/-! ## Runs -/

section rules

variable (cfg : Config) (id : String)

abbrev modeRules : Rules (machine cfg id) where
  act w tid a _ := keepsFWMode w tid a = true

def modeGate : Discipline (machine cfg id) (modeRules cfg id) {} FlushState :=
  (flushes cfg id (modeRules cfg id)).strengthen
    (fun w => ModesKept w.flushMu (history w.log)) (fun _ w v => KnowsModes w v)
    { holder := rfl
      unraised := by simp [openFlush, history]
      gated := by simp [history]
      kept := rfl }
    (fun _ _ _ hoff hphase => by
      rcases hphase with hp | hp <;> cases hoff.symm.trans hp)
    (fun m hw hk hnext _ => by
      subst hnext
      exact ⟨modesKept_exec hw m.knows hk m.may m.rule m.exec,
        knowsModes_own m.knows hk m.may m.exec⟩)
    (fun m _ hne hu hk => knowsModes_other m.knows m.may m.rule hne hu hk m.exec)
    (fun {_} hw _ => show ModesKept none _ from hw.mark rfl rfl)

end rules

/-- Every frame is written in modes that let its command through, and no flush switches a
mode off that another thread has switched on since the flush began. -/
theorem transmitted_in_modes {cfg : Config} {id : String}
    {c : Concurrent.Config (machine cfg id)} (h : Reachable (modeRules cfg id) {} c) :
    (∀ ticket commandID seq bytes fwMode syncMode,
      .transmitted ticket commandID seq bytes fwMode syncMode ∈ c.world.log →
        commandAllowedInModes commandID fwMode syncMode = true) ∧
      keepsModes (history c.world.log) = true := by
  have hw : ModesKept c.world.flushMu (history c.world.log) :=
    ((modeGate cfg id).sound h).1.2
  refine ⟨fun ticket commandID seq bytes fwMode syncMode hmem => ?_, hw.kept⟩
  exact hw.gated _ ((mem_history rfl).mpr hmem)

/-- The controller says that it is ready for firmware. -/
def fwReady : Protocol.Frame :=
  ⟨255, 1, [2, 0, 0, 0, 0, 0, 8, 200, 0], .sequenced⟩

/-- The controller gets ready for firmware after the sweeper's flush has read the modes. -/
def staleLabels : List (Label (machine {} "c")) :=
  connect ++ call 0 (.enqueue { commandID := 9 } 0) 20 ++ call 1 .flush 3 ++
    call 0 (.status1 7 fwReady) 3 ++ go 1 40

/-- Firmware mode is on when the sweeper's flush begins, and the controller says once more
that it is ready. -/
def resetLabels : List (Label (machine {} "c")) :=
  connect ++ call 0 (.status1 7 fwReady) 3 ++ call 0 (.enqueue { commandID := 17 } 0) 20 ++
    call 1 .flush 3 ++ call 0 (.status1 7 fwReady) 3 ++ go 1 40

/-- A flush writes a frame in modes that do not let its command through, and another one
switches firmware mode off after the handler has switched it on. -/
theorem stale_modes :
    (∃ c, Reachable (savingRules {} "c") {} c ∧ ∃ e ∈ c.world.log, e.gated = false) ∧
    ∃ c, Reachable (savingRules {} "c") {} c ∧ keepsModes (history c.world.log) = false :=
  ⟨⟨_, Reachable.initial.run staleLabels, by decide +kernel⟩,
    ⟨_, Reachable.initial.run resetLabels, by decide +kernel⟩⟩

theorem reset_in_modes :
    ∃ c, Reachable (modeRules {} "c") {} c ∧ .setFW 1 false ∈ c.world.log ∧
      keepsModes (history c.world.log) = true := by
  have hreset : ∃ c, Reachable (modeRules {} "c") {} c ∧ .setFW 1 false ∈ c.world.log :=
    ⟨_, Reachable.initial.run resetLabels, by decide +kernel⟩
  obtain ⟨c, hc, hmem⟩ := hreset
  exact ⟨c, hc, hmem, (transmitted_in_modes hc).2⟩

end TcpAdapter.Delivery
