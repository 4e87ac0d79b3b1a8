import TcpAdapter.Verification.Delivery.Frames
import TcpAdapter.Verification.Delivery.Tasks

/-! # What a thread knows while it holds the manager

The protocol of a thread that holds `Manager.mu`. `enqueueLocked` pushes a command only after
it has read a length and a size of the queue that leave room for it, and a command with a key
only after it has stamped the key. It stamps a key that had no time, or one whose time was
ten minutes old at a reading of the clock. -/

namespace TcpAdapter.Delivery

open TcpAdapter.Concurrent TcpAdapter.Queue TcpAdapter.Protocol TcpAdapter.Manager
open TcpAdapter.Policy

structure Clerk where
  locked : Bool := false
  /-- It is about to add a command to the queue. -/
  entered : Bool := false
  /-- The length and the size of the queue as it read them, if it has not changed the queue
  since. -/
  depth : Option ℕ := none
  bytes : Option Int := none
  /-- The key it has looked up, with the time it found. -/
  seen : Option (String × Option Time) := none
  /-- What it has read from the clock since, the last reading first. -/
  readings : List Time := []
  /-- The key that it has stamped with its last reading. -/
  stamped : Option (String × Time) := none
  /-- The command that it has pushed. -/
  pushed : Option Command := none

namespace Clerk

/-- What it has read leaves room for the command. -/
structure Room (cfg : Config) (cmd : Command) (v : Clerk) : Prop where
  depth : 0 < cfg.maxQueueDepth → ∃ n : ℕ, v.depth = some n ∧ n + 1 ≤ cfg.maxQueueDepth
  bytes : 0 < cfg.maxQueueBytes →
    ∃ b, v.bytes = some b ∧ b + estimatedCommandBytes cmd ≤ cfg.maxQueueBytes

/-- It has stamped the key of the command, if there is one. -/
def Stamped (cmd : Command) (v : Clerk) : Prop :=
  cmd.dedupKey ≠ "" → ∃ t, v.stamped = some (cmd.dedupKey, t)

def after (v : Clerk) : (a : Act) → a.Res → Clerk
  | .lockManager, _ => { locked := true }
  | .unlockManager, _ => {}
  | .ensureSession, none => { v with entered := true, depth := none, bytes := none }
  | .queueLen, n => if v.entered then { v with depth := some n } else v
  | .queueBytes, b => if v.entered then { v with bytes := some b } else v
  | .dropOldest, _ | .visitInFlight _ _, _ => { v with depth := none, bytes := none }
  | .dedupTime key, last => { v with seen := some (key, last), readings := [] }
  | .now, t => if v.locked then { v with readings := t :: v.readings, stamped := none } else v
  | .setDedup key t, _ => { v with seen := none, stamped := some (key, t) }
  | .pushNew cmd, _ => { v with depth := none, bytes := none, pushed := some cmd }
  | .persistEnqueued _, _ => { v with stamped := none, pushed := none }
  | _, _ => v

def May (cfg : Config) (v : Clerk) : Act → Prop
  | .lockManager => v.locked = false
  | .unlockManager | .ensureSession | .dedupTime _ | .visitInFlight _ _ => v.locked = true
  | .dropOldest => v.locked = true ∧ v.entered = true
  | .setDedup key t => v.locked = true ∧ v.entered = true ∧ ∃ last, v.seen = some (key, last) ∧
      v.readings.head? = some t ∧ ∀ t₀, last = some t₀ → ∃ t₁ ∈ v.readings, 10 * minute ≤ t₁ - t₀
  | .pushNew cmd => v.locked = true ∧ v.entered = true ∧ v.Room cfg cmd ∧ v.Stamped cmd
  | .persistEnqueued _ => v.locked = true ∧ ∃ cmd, v.pushed = some cmd ∧ v.Stamped cmd
  | _ => True

/-- A loop that is still running never answers. -/
def protocol (cfg : Config) : Protocol sig Clerk :=
  .ofAnswers (May cfg) (fun _ a _ => a ≠ .spin) after

variable {cfg : Config} {id : String} {v : Clerk}

/-! ## EnqueueCommand respects the protocol -/

/-- In `enqueueLocked`, with the key stamped or not. -/
structure Busy (v : Clerk) (stamped : Option (String × Time)) : Prop where
  locked : v.locked = true
  entered : v.entered = true
  stamped : v.stamped = stamped

section enqueue

variable {stamped : Option (String × Time)} {cmd : Command}

theorem depthExceeded_respects (h : v.Busy stamped) :
    (depthExceeded cfg).Respects (protocol cfg)
      (fun exceeded v' => v'.Busy stamped ∧ v'.bytes = v.bytes ∧
        (exceeded = false → 0 < cfg.maxQueueDepth →
          ∃ n : ℕ, v'.depth = some n ∧ n + 1 ≤ cfg.maxQueueDepth)) v := by
  unfold depthExceeded
  split
  · refine answer_respects trivial fun n _ => ?_
    have hafter : v.after .queueLen n = { v with depth := some n } := if_pos h.entered
    rw [hafter]
    refine ⟨⟨h.locked, h.entered, h.stamped⟩, rfl, fun hroom _ => ⟨n, rfl, ?_⟩⟩
    simpa using hroom
  · rename_i hoff
    exact ⟨h, rfl, fun _ hpos => absurd hpos hoff⟩

theorem bytesExceeded_respects (h : v.Busy stamped) :
    (bytesExceeded cfg cmd).Respects (protocol cfg)
      (fun exceeded v' => v'.Busy stamped ∧ v'.depth = v.depth ∧
        (exceeded = false → 0 < cfg.maxQueueBytes →
          ∃ b, v'.bytes = some b ∧ b + estimatedCommandBytes cmd ≤ cfg.maxQueueBytes)) v := by
  unfold bytesExceeded
  split
  · refine answer_respects trivial fun b _ => ?_
    have hafter : v.after .queueBytes b = { v with bytes := some b } := if_pos h.entered
    rw [hafter]
    refine ⟨⟨h.locked, h.entered, h.stamped⟩, rfl, fun hroom _ => ⟨b, rfl, ?_⟩⟩
    simpa using hroom
  · rename_i hoff
    exact ⟨h, rfl, fun _ hpos => absurd hpos hoff⟩

theorem fits_respects (h : v.Busy stamped) :
    (fits cfg cmd).Respects (protocol cfg)
      (fun fit v' => v'.Busy stamped ∧ (fit = true → v'.Room cfg cmd)) v := by
  refine (depthExceeded_respects h).bind fun exceeded v' hdepth => ?_
  obtain ⟨hbusy, -, hdepth⟩ := hdepth
  split
  · exact ⟨hbusy, by rintro ⟨⟩⟩
  · rename_i hfalse
    refine (bytesExceeded_respects hbusy).bind fun exceeded v'' hbytes => ?_
    obtain ⟨hbusy, hsame, hbytes⟩ := hbytes
    refine ⟨hbusy, fun hfit => ⟨?_, hbytes (by simpa using hfit)⟩⟩
    rw [hsame]
    exact hdepth (Bool.eq_false_iff.mpr hfalse)

/-- What holds when `makeRoom` ends. -/
def RoomPost (cfg : Config) (cmd : Command) (stamped : Option (String × Time))
    (r : List OverflowEvent × Option Error) (v : Clerk) : Prop :=
  v.Busy stamped ∧ (r.2 = none → v.Room cfg cmd)

theorem dropUntilFits_respects (fuel : ℕ) (events : List OverflowEvent) {v : Clerk}
    (h : v.Busy stamped) :
    (dropUntilFits cfg id cmd fuel events).Respects (protocol cfg)
      (RoomPost cfg cmd stamped) v := by
  induction fuel generalizing events v with
  | zero => exact answer_respects trivial fun _ hspin => absurd rfl hspin
  | succ fuel ih =>
      refine (fits_respects h).bind fun fit v h => ?_
      split
      · rename_i hfit
        exact ⟨h.1, fun _ => h.2 hfit⟩
      · refine (bytesExceeded_respects h.1).bind fun bytes v h => ?_
        refine answer_respects ⟨h.1.locked, h.1.entered⟩ fun dropped _ => ?_
        have hbusy : (v.after .dropOldest dropped).Busy stamped :=
          ⟨h.1.locked, h.1.entered, h.1.stamped⟩
        cases dropped with
        | none =>
            dsimp only
            split
            · exact ⟨hbusy, by rintro ⟨⟩⟩
            · exact ⟨hbusy, by rintro ⟨⟩⟩
        | some dropped => exact ih _ hbusy

theorem makeRoom_respects (fuel : ℕ) (h : v.Busy stamped) :
    (makeRoom cfg id cmd fuel).Respects (protocol cfg) (RoomPost cfg cmd stamped) v := by
  refine (fits_respects h).bind fun fit v h => ?_
  split
  · rename_i hfit
    exact ⟨h.1, fun _ => h.2 hfit⟩
  · refine (bytesExceeded_respects h.1).bind fun bytes v h => ?_
    refine (depthExceeded_respects h.1).bind fun depth v h => ?_
    split
    · split
      · exact ⟨h.1, by rintro ⟨⟩⟩
      · exact ⟨h.1, by rintro ⟨⟩⟩
    · exact dropUntilFits_respects fuel [] h.1
    · exact ⟨h.1, by rintro ⟨⟩⟩

/-- Unless the key is a duplicate, it is stamped. -/
theorem checkDedup_respects (hlocked : v.locked = true) (hentered : v.entered = true) :
    (checkDedup cmd.dedupKey).Respects (protocol cfg)
      (fun dup v' => ∃ stamped, v'.Busy stamped ∧ (dup = false → v'.Stamped cmd)) v := by
  have hstamp : ∀ {v : Clerk} {last : Option Time}, v.locked = true → v.entered = true →
      v.seen = some (cmd.dedupKey, last) →
      (∀ t₀, last = some t₀ → ∃ t₁ ∈ v.readings, 10 * minute ≤ t₁ - t₀) →
      (perform .now >>= fun t => perform (.setDedup cmd.dedupKey t) >>= fun _ =>
        (pure false : Deliver Bool)).Respects (protocol cfg)
        (fun dup v' => ∃ stamped, v'.Busy stamped ∧ (dup = false → v'.Stamped cmd)) v := by
    intro v last hlocked hentered hseen hold
    refine answer_respects trivial fun t _ => ?_
    have hafter : v.after .now t = { v with readings := t :: v.readings, stamped := none } :=
      if_pos hlocked
    rw [hafter]
    refine answer_respects ⟨hlocked, hentered, last, hseen, rfl, fun t₀ ht₀ => ?_⟩ fun _ _ => ?_
    · obtain ⟨t₁, hmem, hpast⟩ := hold t₀ ht₀
      exact ⟨t₁, List.mem_cons_of_mem _ hmem, hpast⟩
    · exact ⟨some (cmd.dedupKey, t), ⟨hlocked, hentered, rfl⟩, fun _ _ => ⟨t, rfl⟩⟩
  unfold checkDedup
  split
  · rename_i hnone
    exact ⟨v.stamped, ⟨hlocked, hentered, rfl⟩, fun _ hkey => absurd hnone hkey⟩
  · refine answer_respects hlocked fun last _ => ?_
    cases last with
    | none => exact hstamp hlocked hentered rfl (by rintro _ ⟨⟩)
    | some t₀ =>
        refine answer_respects trivial fun t₁ _ => ?_
        have hafter : (v.after (.dedupTime cmd.dedupKey) (some t₀)).after .now t₁ =
            { v.after (.dedupTime cmd.dedupKey) (some t₀) with
              readings := [t₁], stamped := none } := if_pos hlocked
        rw [hafter]
        change Prog.Respects _ _ (ite _ _ _) _
        split
        · exact ⟨none, ⟨hlocked, hentered, rfl⟩, by rintro ⟨⟩⟩
        · rename_i hpast
          refine hstamp hlocked hentered rfl fun t ht => ?_
          cases ht
          exact ⟨t₁, List.mem_singleton_self _, not_lt.mp hpast⟩

theorem enqueueLocked_respects (fuel : ℕ) (hlocked : v.locked = true) :
    (enqueueLocked cfg id cmd fuel).Respects (protocol cfg) (fun _ v' => v'.locked = true) v := by
  refine answer_respects hlocked fun err _ => ?_
  cases err with
  | some err => exact hlocked
  | none =>
      have hentered : (v.after .ensureSession none).locked = true := hlocked
      refine (checkDedup_respects hentered rfl).bind fun dup v h => ?_
      obtain ⟨stamped, hbusy, hstamped⟩ := h
      split
      · exact hbusy.locked
      · rename_i hfresh
        have hstamped := hstamped (Bool.eq_false_iff.mpr hfresh)
        refine (makeRoom_respects fuel hbusy).bind fun room v' h => ?_
        obtain ⟨hbusy', hroom⟩ := h
        have hstamped' : v'.Stamped cmd := by
          intro hkey
          rw [hbusy'.stamped, ← hbusy.stamped]
          exact hstamped hkey
        split
        · exact hbusy'.locked
        · refine answer_respects ⟨hbusy'.locked, hbusy'.entered, hroom rfl, hstamped'⟩
            fun ticket _ => ?_
          refine answer_respects ⟨hbusy'.locked, cmd, rfl, hstamped'⟩ fun err _ => ?_
          cases err <;> exact hbusy'.locked

theorem benign_idle (a : Act) (v : Clerk) (ha : a.Benign) (hidle : v = {}) :
    (protocol cfg).may v a ∧ ∀ r v', (protocol cfg).next v a r v' → v' = {} := by
  subst hidle
  cases a with
  | publishAck | now | write | touch | updateBufferFree | setFWMode | setFrameMode | create
  | markOffline | peekInFlight => exact ⟨trivial, fun r v' hn => hn.2⟩
  | _ => exact ha.elim

theorem flush_idle (a : Act) (v : Clerk) (ha : a.InFlush) (hidle : v = {}) :
    (protocol cfg).may v a ∧ ∀ r v', (protocol cfg).next v a r v' → v' = {} := by
  subst hidle
  cases a with
  | now | transmit | publishAck | publishAckWithCommand | lockFlush | unlockFlush | queueLen
  | hasFW | hasSync | popNext | drainExpired | push | setFWMode | setSyncMode | deliveryContext
  | inFlightCount | ackSent | nextCommandSeq | registerInFlight =>
      exact ⟨trivial, fun r v' hn => hn.2⟩
  | _ => exact ha.elim

theorem enqueue_respects (cmd : Command) (fuel : ℕ) (hidle : v = {}) :
    (enqueueCommand cfg id cmd fuel).Respects (protocol cfg) (fun _ v' => v' = {}) v := by
  have hbenign : (creationTime cmd).Only Act.Benign :=
    (creationTime_only cmd).mono fun _ ha => ha ▸ trivial
  have hcreated : (creationTime cmd).Respects (protocol cfg) (fun _ v' => v' = {}) v :=
    hbenign.respects benign_idle hidle
  refine hcreated.bind fun createdAt v hidle => ?_
  subst hidle
  split
  · rfl
  · refine answer_respects rfl fun _ _ => (enqueueLocked_respects fuel rfl).bind fun r v h => ?_
    exact answer_respects h fun _ _ => rfl

end enqueue

section process

variable (id)

theorem visitAll_respects (now : Time) (seqs : List UInt8) {v : Clerk} (hlocked : v.locked = true) :
    (visitAll now seqs).Respects (protocol cfg) (fun _ v' => v'.locked = true) v := by
  induction seqs generalizing v with
  | nil => exact hlocked
  | cons seq rest ih =>
      refine answer_respects hlocked fun out _ => ?_
      have hafter : (v.after (.visitInFlight seq now) out).locked = true := hlocked
      exact (ih hafter).bind fun _ _ h => h

theorem publishOutcomes_respects (outcomes : List InFlightOutcome) :
    (publishOutcomes id outcomes).Respects (protocol cfg) (fun _ v' => v' = {}) {} := by
  induction outcomes with
  | nil => rfl
  | cons o rest ih =>
      unfold publishOutcomes publishOutcome
      cases o.type <;> exact answer_respects trivial fun _ _ => ih

theorem process_respects (hidle : v = {}) :
    (processInFlight id).Respects (protocol cfg) (fun _ v' => v' = {}) v := by
  subst hidle
  have hprocess : ∀ now, (managerProcessInFlight now).Respects (protocol cfg)
      (fun _ v' => v' = {}) {} := by
    intro now
    refine answer_respects rfl fun _ _ => answer_respects trivial fun found _ => ?_
    cases found with
    | false => exact answer_respects rfl fun _ _ => rfl
    | true =>
        refine answer_respects trivial fun order _ => ?_
        refine (visitAll_respects now order rfl).bind fun out v h => ?_
        refine answer_respects trivial fun err _ => answer_respects h fun _ _ => ?_
        cases err <;> rfl
  refine answer_respects trivial fun now _ => (hprocess now).bind fun res v h => ?_
  subst h
  cases res with
  | error err => rfl
  | ok outcomes => exact publishOutcomes_respects id outcomes

theorem ack_respects (ack : Ack11) (hidle : v = {}) :
    (handleTerminalAck id ack).Respects (protocol cfg) (fun _ v' => v' = {}) v := by
  subst hidle
  refine answer_respects trivial fun found _ => ?_
  cases found with
  | none => rfl
  | some found => exact answer_respects trivial fun _ _ => rfl

end process

/-- Every task respects the protocol. -/
theorem taskSpec (cfg : Config) (id : String) :
    TaskSpec cfg id (protocol cfg) fun v => v = {} where
  benign := benign_idle
  enqueue cmd fuel _ := enqueue_respects cmd fuel
  flush _ := (flush_only id).respects flush_idle
  process _ := process_respects id
  ack ack _ _ := ack_respects id ack

/-! ## Clerks in the running system -/

/-- The clerk that has locked is the thread that holds the mutex. -/
structure Holds (tid : ℕ) (w : World) (v : Clerk) : Prop where
  locked : v.locked = true ↔ w.mu = some tid
  off : v.locked = false → v = {}

section exec

variable {tid : ℕ} {w w' : World} {inp : Input} {a : Act} {r : a.Res}

theorem ne_spin (h : exec cfg id tid w a inp = some (w', r)) : a ≠ .spin := by
  rintro rfl
  cases h

theorem after_locked (v : Clerk) (r : a.Res) (hlock : a ≠ .lockManager)
    (hunlock : a ≠ .unlockManager) : (v.after a r).locked = v.locked := by
  cases a with
  | lockManager => exact absurd rfl hlock
  | unlockManager => exact absurd rfl hunlock
  | ensureSession => cases r <;> rfl
  | queueLen | queueBytes | now =>
      simp only [after]
      split <;> rfl
  | _ => rfl

/-- A thread that does not hold the mutex knows nothing. -/
theorem after_off (r : a.Res) (hmay : ({} : Clerk).May cfg a) (hlock : a ≠ .lockManager) :
    ({} : Clerk).after a r = {} := by
  cases a with
  | lockManager => exact absurd rfl hlock
  | unlockManager | ensureSession | dedupTime | visitInFlight => cases hmay
  | dropOldest | setDedup | pushNew | persistEnqueued => cases hmay.1
  | _ => rfl

theorem Holds.own (hv : Holds tid w v) (hmay : v.May cfg a)
    (h : exec cfg id tid w a inp = some (w', r)) : Holds tid w' (v.after a r) := by
  by_cases hlock : a = .lockManager
  · subst hlock
    simp only [exec] at h
    split at h
    · cases h
      exact ⟨iff_of_true rfl rfl, fun hoff => by cases hoff⟩
    · cases h
  · by_cases hunlock : a = .unlockManager
    · subst hunlock
      cases h
      exact ⟨iff_of_false (by simp [after]) (by simp), fun _ => rfl⟩
    · have hlocked := after_locked v r hlock hunlock
      refine ⟨?_, fun hoff => ?_⟩
      · rw [hlocked, exec_mu hlock hunlock h]
        exact hv.locked
      · have hv := hv.off (hlocked ▸ hoff)
        subst hv
        exact after_off r hmay hlock

/-- While one thread holds the mutex, no other does. -/
theorem Holds.off_of_mutex (hv : Holds tid w v) (hmu : w.mu ≠ some tid) : v = {} :=
  hv.off (Bool.eq_false_iff.mpr fun hon => hmu (hv.locked.mp hon))

theorem Holds.other {other : ℕ} {u : Clerk} (hv : Holds tid w v) (hmay : v.May cfg a)
    (hne : other ≠ tid) (hu : Holds other w u) (h : exec cfg id tid w a inp = some (w', r)) :
    Holds other w' u := by
  have hidle : w.mu ≠ some other → w'.mu ≠ some other → Holds other w' u := by
    intro hmu hmu'
    rw [hu.off_of_mutex hmu]
    exact ⟨iff_of_false (by simp) hmu', fun _ => rfl⟩
  by_cases hlock : a = .lockManager
  · subst hlock
    simp only [exec] at h
    split at h
    · rename_i hfree
      cases h
      exact hidle (by simp [hfree]) (by simpa using Ne.symm hne)
    · cases h
  · by_cases hunlock : a = .unlockManager
    · subst hunlock
      have hmu := hv.locked.mp hmay
      cases h
      exact hidle (by simpa [hmu] using Ne.symm hne) (by simp)
    · exact ⟨by rw [exec_mu hlock hunlock h]; exact hu.locked, hu.off⟩

end exec

end Clerk

/-- The discipline of the clerks, for every kind of run. -/
def clerks (cfg : Config) (id : String) (R : Rules (machine cfg id)) :
    Discipline (machine cfg id) R {} Clerk where
  protocol := Clerk.protocol cfg
  knows tid w v := Clerk.Holds tid w v
  idle v := v = {}
  inv _ := True
  init := ⟨trivial, fun tid => ⟨{}, ⟨iff_of_false (by simp) (by simp), fun _ => rfl⟩, rfl⟩⟩
  start _ _ hidle _ := (Clerk.taskSpec cfg id).prog _ hidle
  act _ hv _ hmay h :=
    ⟨trivial, ⟨_, ⟨Clerk.ne_spin h, rfl⟩, hv.own hmay h⟩,
      fun _ hne _ hu => hv.other hmay hne hu h⟩
  crash _ _ := ⟨trivial, fun tid => ⟨{}, ⟨iff_of_false (by simp) (by simp), fun _ => rfl⟩, rfl⟩⟩

end TcpAdapter.Delivery
