import TcpAdapter.Verification.Delivery.Unsaved
import TcpAdapter.Verification.Server.Calls

/-! # Failed saves and the sessions in memory

A method of the manager that fails because the store does should leave the sessions as they
were. Each of the methods changes a session before it saves it, and only two of them take back
all that they have changed. -/

namespace TcpAdapter.Server

open TcpAdapter.Concurrent TcpAdapter.Queue TcpAdapter.Manager
open TcpAdapter.Delivery (Deliver SaveError Reinstates)

/-! ## Operations -/

/-- The methods of the manager that save, with their arguments. The loop that makes room in
`Enqueue` may go round as often as `fuel` says. -/
inductive Operation where
  | create (conn : ConnID)
  | enqueue (cmd : Command) (fuel : ℕ)
  | setFWMode (enabled : Bool)
  | setSyncMode (enabled : Bool)
  | registerInFlight (seq : UInt8) (cmd : Command) (sentAt : Time)
  | ackInFlight (seq : UInt8)
  | processInFlight (now : Time)

/-- What a method answers: nil or an error, and `AckInFlight` that it has found nothing. -/
inductive Report where
  | done
  | failed (err : Error)
  | missed

def Report.of : Option Error → Report
  | none => .done
  | some err => .failed err

def Operation.prog (cfg : Config) (id : String) : Operation → Serve Report
  | create conn => do return .of (← perform (.create id conn))
  | enqueue cmd fuel => do
      return .of (← deliver id (Delivery.enqueue cfg.delivery id cmd fuel))
  | setFWMode enabled => do return .of (← perform (.deliver id (.setFWMode enabled)))
  | setSyncMode enabled => do return .of (← perform (.deliver id (.setSyncMode enabled)))
  | registerInFlight seq cmd sentAt => do
      return .of (← perform (.deliver id (.registerInFlight seq cmd sentAt)))
  | ackInFlight seq => do
      match ← perform (.deliver id (.ackInFlight seq)) with
      | some _ => return .done
      | none => return .missed
  | processInFlight now => do
      match ← deliver id (Delivery.managerProcessInFlight now) with
      | .ok _ => return .done
      | .error err => return .failed err

/-- The method reports that a save has failed. `AckInFlight` does not tell this from an entry
that is not there. -/
def Report.SaveFailed : Report → Prop
  | done => False
  | failed err => SaveError err
  | missed => True

/-- The sessions in memory are the same, but for the tickets. -/
def SameSessions (w w' : World) : Prop :=
  ∀ id, (w'.deliveries id).session.map Session.bare = (w.deliveries id).session.map Session.bare

theorem sameSessions_iff {id : String} {w w' : World} (h : Apart id w w') :
    SameSessions w w' ↔
      (w'.deliveries id).session.map Session.bare = (w.deliveries id).session.map Session.bare := by
  refine ⟨fun hsame => hsame id, fun hsame other => ?_⟩
  by_cases hother : other = id
  · rw [hother, hsame]
  · rw [h.others other hother]

/-! ## When a failed method leaves everything as it was -/

/-- After `n` saves of the controller's session, the store answers the next one with `store n`. -/
def storeRules (cfg : Config) (remoteHost : ConnID → String) (id : String)
    (store : ℕ → Option Error) : Rules (machine cfg remoteHost) where
  act w _ _ inp := inp.saveErr = store (w.deliveries id).slot.saves

/-- The entry is not due, or it has failed and may still be acknowledged. -/
def Undecided (policy : DeliveryPolicy) (now : Time) (entry : InFlightEntry) : Prop :=
  now < entry.sentAt + ackWait policy entry ∨
    (¬ entry.command.expired now ∧ entry.attempts ≥ int64 (retryLimit policy + 1) ∧
      now < entry.sentAt + int64 (ackWait policy entry + lateAckGrace))

theorem inFlightOutcome_eq_none (policy : DeliveryPolicy) (now : Time) (seq : UInt8)
    (entry : InFlightEntry) :
    inFlightOutcome policy now seq entry = none ↔ Undecided policy now entry := by
  simp only [inFlightOutcome, Undecided]
  split
  · rename_i hwait
    simp [hwait]
  · rename_i hwait
    split
    · rename_i hexpired
      simp [hwait, hexpired]
    · rename_i hexpired
      split
      · rename_i hlimit
        split <;> rename_i hgrace <;> simp [hwait, hexpired, hlimit, hgrace]
      · rename_i hlimit
        simp [hwait, hexpired, hlimit]

/-- What `Enqueue` changes before a save fails is what was there: with a session, the command
takes the place of an equal one; without one, it is the first save, of the new session, that
fails. -/
def Restores (cfg : Config) (firstSave : Option Error) (cmd : Command) : Option Session → Prop
  | none => firstSave.isSome
  | some s => cmd.dedupKey = "" ∧ Reinstates cfg.delivery s.queue cmd

/-- What the method changes before it saves is what it takes back, or it is no change at all. -/
def RollsBack (cfg : Config) (store : ℕ → Option Error) (id : String) (w : World) :
    Operation → Prop
  | .create _ => ∀ s, (w.deliveries id).session = some s → 0 < s.bufferFree
  | .enqueue cmd _ =>
      Restores cfg (store (w.deliveries id).slot.saves) cmd (w.deliveries id).session
  | .setFWMode enabled => ∀ s, (w.deliveries id).session = some s → s.fwMode = enabled
  | .setSyncMode enabled => ∀ s, (w.deliveries id).session = some s → s.syncMode = enabled
  | .registerInFlight seq cmd sentAt => ∀ s, (w.deliveries id).session = some s →
      (s.inFlight seq).map InFlightEntry.bare =
        some (InFlightEntry.bare ⟨seq, cmd, sentAt, cmd.attempts + 1⟩)
  | .ackInFlight _ => True
  | .processInFlight now => ∀ s, (w.deliveries id).session = some s →
      ∀ seq entry, s.inFlight seq = some entry →
        Undecided (Policy.deliveryPolicyForCommand cfg.delivery entry.command) now entry

/-! ## Enqueue -/

section enqueue

variable {cfg : Config} {remoteHost : ConnID → String} {R : Rules (machine cfg remoteHost)}
  {tid : ℕ} {id : String} {w w' : World} {s : Session} {key : String}

theorem stamp_session {fresh : Bool} (hs : (w.view id).session = some s)
    (h : Call R tid w (deliver id (do
      Delivery.perform (.setDedup key (← Delivery.perform .now))
      return false)) w' fresh) :
    ∃ t, w.clock ≤ t ∧
      (w'.view id).session = some { s with dedup := Function.update s.dedup key (some t) } := by
  obtain ⟨inp, v, t, -, hclock, hnow, hset⟩ := of_deliver h
  cases hnow
  obtain ⟨_, v', _, -, -, hexec, hret⟩ := of_deliver hset
  obtain ⟨rfl, -⟩ := Call.of_ret hret
  refine ⟨inp.time, hclock, ?_⟩
  rw [World.view_put] at hexec ⊢
  simp only [Delivery.exec, hs] at hexec
  cases hexec
  rfl

/-- A reading of the clock is not the time on record if another one before it was ten minutes
later than that. -/
theorem ne_of_stale {now last t : Int} (hstale : ¬ now - last < 10 * minute) (hlater : now ≤ t) :
    t ≠ last := by
  have hminute : (10 * minute : Int) = 600000000000 := rfl
  omega

/-- A key that is not refused gets a new time, which is later than the one it had. -/
theorem checkDedup_session (hs : (w.view id).session = some s)
    (h : Call R tid w (deliver id (Delivery.checkDedup key)) w' false) :
    ∃ dedup, (w'.view id).session = some { s with dedup := dedup } ∧
      (dedup = s.dedup ↔ key = "") := by
  unfold Delivery.checkDedup at h
  split at h
  · rename_i hkey
    obtain ⟨rfl, -⟩ := Call.of_ret h
    exact ⟨s.dedup, hs, iff_of_true rfl hkey⟩
  · rename_i hkey
    obtain ⟨_, v, seen, -, -, hseen, hrest⟩ := of_deliver h
    have hlook : v = w.view id ∧ seen = s.dedup key := by
      simp only [Delivery.exec, hs] at hseen
      cases hseen
      exact ⟨rfl, rfl⟩
    obtain ⟨rfl, rfl⟩ := hlook
    -- whatever time the key gets, it is not the one on record
    have hstamped : ∀ t, some t ≠ s.dedup key →
        (Function.update s.dedup key (some t) = s.dedup ↔ key = "") := by
      intro t ht
      refine iff_of_false (fun hsame => ht ?_) hkey
      rw [← hsame, Function.update_self]
    cases hlast : s.dedup key with
    | none =>
        rw [hlast] at hrest hstamped
        obtain ⟨t, -, hsession⟩ := stamp_session (by rw [World.view_put]; exact hs) hrest
        exact ⟨_, hsession, hstamped t (by simp)⟩
    | some last =>
        rw [hlast] at hrest hstamped
        obtain ⟨inp, v, now, -, -, hnow, hdecide⟩ := of_deliver hrest
        cases hnow
        change Call R tid _ (deliver id (ite _ _ _)) w' false at hdecide
        split at hdecide
        · cases (Call.of_ret hdecide).2
        · rename_i hold
          obtain ⟨t, hlater, hsession⟩ := stamp_session (by simpa using hs) hdecide
          refine ⟨_, hsession, hstamped t ?_⟩
          exact fun hsame => ne_of_stale hold hlater (Option.some.inj hsame)

/-- How an `Enqueue` that could not be saved has changed the session. -/
inductive Unsaved (cfg : Config) (firstSave : Option Error) (cmd : Command) :
    Option Session → Option Session → Prop where
  | notMade (h : firstSave.isSome) : Unsaved cfg firstSave cmd none none
  | made {s' : Session} (h : firstSave = none) : Unsaved cfg firstSave cmd none (some s')
  | pushed {s : Session} {k ticket : ℕ} {dedup : String → Option Time}
      (hjust : Delivery.JustFits cfg.delivery s.queue cmd k)
      (hdedup : dedup = s.dedup ↔ cmd.dedupKey = "") :
      Unsaved cfg firstSave cmd (some s)
        (some { s with
          queue := (Delivery.drops k s.queue).push { cmd with ticket := ticket }
          dedup := dedup })

theorem not_saveError_duplicate : ¬ SaveError .duplicate := by
  rintro ⟨msg, hmsg, -⟩
  cases hmsg

theorem session_isSome_of_call {α : Type} {p : Deliver α} {x : α}
    (h : Call R tid w (deliver id p) w' x) (hs : (w.view id).session.isSome) :
    (w'.view id).session.isSome :=
  Call.preserves (R := Rules.any (Delivery.machine cfg.delivery id))
    (I := fun v => v.session.isSome) (fun _ _ _ _ _ hs hexec => Delivery.exec_session hexec hs)
    (call_of_deliver h fun _ _ _ _ _ => trivial).1 hs

/-- The session was there. -/
theorem admitted_unsaved {save : Option Error} {cmd : Command} {fuel : ℕ} {err : Error}
    {v : Delivery.World} {t : Time} {events : List Delivery.OverflowEvent}
    (hs : v.session = some s) (hfuel : s.queue.len < fuel) (herr : SaveError err)
    (h : Call R tid (w.put id v t) (deliver id (do
      if ← Delivery.checkDedup cmd.dedupKey then return ([], some .duplicate)
      else
        match ← Delivery.makeRoom cfg.delivery id cmd fuel with
        | (events, some err) => return (events, some err)
        | (events, none) =>
            let ticket ← Delivery.perform (.pushNew cmd)
            match ← Delivery.perform (.persistEnqueued ticket) with
            | some err => return (events, some err)
            | none => return (events, none))) w' (events, some err)) :
    Unsaved cfg save cmd (some s) (w'.view id).session := by
  rw [deliver_bind] at h
  obtain ⟨w₁, dup, hdedup, hroom⟩ := Call.of_bind h
  cases dup with
  | true =>
      cases (Call.of_ret hroom).2
      exact absurd herr not_saveError_duplicate
  | false =>
      obtain ⟨dedup, hs₁, hkey⟩ := checkDedup_session (by rwa [World.view_put]) hdedup
      have hroom : Call R tid w₁ (deliver id (Delivery.makeRoom cfg.delivery id cmd fuel >>= _))
          w' (events, some err) := hroom
      rw [deliver_bind] at hroom
      obtain ⟨w₂, ⟨events', res⟩, hmake, hpush⟩ := Call.of_bind hroom
      have hmade := Delivery.makeRoom_session hs₁ hfuel
        (call_of_deliver (D := Rules.any _) hmake fun _ _ _ _ _ => trivial).1
      rcases hmade with ⟨err', rfl, hown⟩ | ⟨rfl, k, hjust, hs₂⟩
      · cases (Call.of_ret hpush).2
        exact absurd herr hown
      · obtain ⟨inp₃, v₃, ticket, -, -, hnew, hsave⟩ := of_deliver hpush
        have hs₃ := Delivery.pushNew_session hs₂ hnew
        obtain ⟨inp₄, v₄, res, -, -, hpersist, hret⟩ := of_deliver hsave
        have hs₄ := Delivery.persistEnqueued_session hpersist
        rw [World.view_put, hs₃] at hs₄
        have hw' : w' = World.put (World.put w₂ id v₃ inp₃.time) id v₄ inp₄.time := by
          cases res <;> exact (Call.of_ret hret).1
        rw [hw', World.view_put, hs₄]
        exact .pushed hjust hkey

theorem enqueueLocked_unsaved {store : ℕ → Option Error} {cmd : Command} {fuel : ℕ} {err : Error}
    {events : List Delivery.OverflowEvent}
    (hfuel : (w.view id).queue.len < fuel) (herr : SaveError err)
    (h : Call (storeRules cfg remoteHost id store) tid w
      (deliver id (Delivery.enqueueLocked cfg.delivery id cmd fuel)) w' (events, some err)) :
    Unsaved cfg (store (w.view id).slot.saves) cmd (w.view id).session (w'.view id).session := by
  obtain ⟨inp, v, res, hrule, -, hensure, hrest⟩ := of_deliver h
  rcases Delivery.ensureSession_session hensure with
    ⟨hsome, rfl, hsession⟩ | ⟨hnone, hsave, rfl, hmade⟩ | ⟨hnone, hsave, hfailed, hout⟩
  · obtain ⟨s, hs⟩ := Option.isSome_iff_exists.mp hsome
    rw [hs] at hsession ⊢
    exact admitted_unsaved hsession (Delivery.queue_of_session hs ▸ hfuel) herr hrest
  · obtain ⟨s', hs'⟩ := Option.isSome_iff_exists.mp
      (session_isSome_of_call hrest (by rwa [World.view_put]))
    rw [hnone, hs']
    exact .made (hrule.symm.trans hsave)
  · obtain ⟨err', rfl⟩ := Option.isSome_iff_exists.mp hfailed
    obtain ⟨rfl, -⟩ := Call.of_ret hrest
    rw [hnone, World.view_put, hout]
    have hstore : store (w.view id).slot.saves = some err' := hrule.symm.trans hsave
    exact .notMade (hstore ▸ rfl)

/-- The session after an `Enqueue` that could not be saved is the session before it if and only
if the command has no key and takes the place of an equal one. -/
theorem Unsaved.same_iff {save : Option Error} {cmd : Command} {before after : Option Session}
    (h : Unsaved cfg save cmd before after) :
    after.map Session.bare = before.map Session.bare ↔ Restores cfg save cmd before := by
  cases h with
  | notMade hsave => exact iff_of_true rfl hsave
  | made hsave => simp [Restores, hsave]
  | @pushed s k ticket dedup hjust hdedup =>
      rw [Restores, ← hdedup,
        ← Delivery.reinstates_iff hjust (show { cmd with ticket := ticket }.bare = cmd.bare from rfl)]
      simp only [Option.map_some, Option.some.injEq, Session.bare, Session.mk.injEq, true_and,
        and_true]
      exact and_comm

theorem enqueue_unsaved {store : ℕ → Option Error} {cmd : Command} {fuel : ℕ} {err : Error}
    (hfuel : (w.view id).queue.len < fuel) (herr : SaveError err)
    (h : Call (storeRules cfg remoteHost id store) tid w
      (deliver id (Delivery.enqueue cfg.delivery id cmd fuel)) w' (some err)) :
    Unsaved cfg (store (w.view id).slot.saves) cmd (w.view id).session (w'.view id).session := by
  obtain ⟨inp, v, _, -, -, hlock, hlocked⟩ := of_deliver h
  rw [deliver_bind] at hlocked
  obtain ⟨w₂, ⟨events, res⟩, henqueue, hrest⟩ := Call.of_bind hlocked
  obtain ⟨_, v₃, _, -, -, hunlock, hret⟩ := of_deliver hrest
  cases hunlock
  obtain ⟨rfl, hres⟩ := Call.of_ret hret
  obtain rfl : some err = res := hres
  have hslot : v.slot = (w.view id).slot := Delivery.lockManager_slot hlock
  have hqueue : v.queue = (w.view id).queue := congrArg Slot.queue hslot
  have hsession : v.session = (w.view id).session := congrArg Slot.session hslot
  have hunsaved := enqueueLocked_unsaved (by rwa [World.view_put, hqueue]) herr henqueue
  rw [World.view_put, hsession, hslot] at hunsaved
  rwa [World.view_put]

end enqueue

/-! ## The methods one by one -/

section methods

variable {cfg : Config} {remoteHost : ConnID → String} {R : Rules (machine cfg remoteHost)}
  {tid : ℕ} {id : String} {w w' : World} {report : Report}

/-- The session of the controller has been changed in one way. -/
theorem sameSessions_put {f : Session → Session} {v : Delivery.World} {t : Time}
    (hclock : w.clock ≤ t) (hs : v.session = (w.view id).session.map f) :
    SameSessions w (w.put id v t) ↔
      ∀ s, (w.deliveries id).session = some s → (f s).bare = s.bare := by
  rw [sameSessions_iff (.put id v hclock), ← World.view_session (w.put id v t) id, World.view_put,
    hs, World.view_session]
  cases (w.deliveries id).session with
  | none => simp
  | some s => simp

theorem of_saveFailed {res : Option Error} (h : (Report.of res).SaveFailed) :
    ∃ err, res = some err ∧ SaveError err := by
  cases res with
  | none => exact h.elim
  | some err => exact ⟨err, rfl, h⟩

/-- A method that is one action. -/
theorem of_method {a : Delivery.Act} {k : a.Res → Serve Report}
    (h : Call R tid w (perform (.deliver id a) >>= k) w' report) :
    ∃ inp v r, w.clock ≤ inp.time ∧
      Delivery.exec cfg.delivery id tid (w.view id) a (deliveryInput w inp) = some (v, r) ∧
        Call R tid (w.put id v inp.time) (k r) w' report := by
  obtain ⟨inp, w₁, r, -, hstep, h⟩ := Call.of_act h
  obtain ⟨hclock, v, rfl, hexec⟩ := exec_deliver hstep
  exact ⟨inp, v, r, hclock, hexec, h⟩

/-- `Create` also notes whose the connection is, but not if it fails. -/
theorem exec_create {conn : ConnID} {inp : Input} {err : Error}
    (h : exec cfg remoteHost tid w (.create id conn) inp = some (w', some err)) :
    exec cfg remoteHost tid w (.deliver id (.create conn)) inp = some (w', some err) := by
  rw [exec] at h ⊢
  split at h
  · rename_i hclock
    obtain ⟨⟨w₁, res⟩, hdeliver, heq⟩ := Option.map_eq_some_iff.mp h
    rw [if_pos hclock]
    refine hdeliver.trans (congrArg some ?_)
    cases res with
    | none => cases (Prod.mk.inj heq).2
    | some err' => exact heq
  · cases h

theorem create_rollsBack {conn : ConnID}
    (h : Call R tid w ((Operation.create conn).prog cfg id) w' report)
    (hfailed : report.SaveFailed) :
    SameSessions w w' ↔ ∀ s, (w.deliveries id).session = some s → 0 < s.bufferFree := by
  obtain ⟨inp, w₁, res, -, hstep, h⟩ := Call.of_act h
  obtain ⟨rfl, rfl⟩ := Call.of_ret h
  obtain ⟨err, rfl, herr⟩ := of_saveFailed hfailed
  obtain ⟨hclock, v, rfl, hexec⟩ := exec_deliver (exec_create hstep)
  rw [sameSessions_put hclock (Delivery.create_unsaved herr hexec)]
  refine forall₂_congr fun s _ => ?_
  by_cases hfree : s.bufferFree ≤ 0
  · have hlifted : ¬ 1500 = s.bufferFree := by omega
    simp [Session.bare, hfree, hlifted]
  · simp [Session.bare, hfree, Int.not_le.mp hfree]

theorem setFWMode_rollsBack {enabled : Bool}
    (h : Call R tid w ((Operation.setFWMode enabled).prog cfg id) w' report)
    (hfailed : report.SaveFailed) :
    SameSessions w w' ↔ ∀ s, (w.deliveries id).session = some s → s.fwMode = enabled := by
  obtain ⟨inp, v, res, hclock, hexec, h⟩ := of_method h
  obtain ⟨rfl, rfl⟩ := Call.of_ret h
  obtain ⟨err, rfl, -⟩ := of_saveFailed hfailed
  rw [sameSessions_put hclock (Delivery.setFWMode_unsaved hexec)]
  simp [Session.bare, eq_comm]

theorem setSyncMode_rollsBack {enabled : Bool}
    (h : Call R tid w ((Operation.setSyncMode enabled).prog cfg id) w' report)
    (hfailed : report.SaveFailed) :
    SameSessions w w' ↔ ∀ s, (w.deliveries id).session = some s → s.syncMode = enabled := by
  obtain ⟨inp, v, res, hclock, hexec, h⟩ := of_method h
  obtain ⟨rfl, rfl⟩ := Call.of_ret h
  obtain ⟨err, rfl, -⟩ := of_saveFailed hfailed
  rw [sameSessions_put hclock (Delivery.setSyncMode_unsaved hexec)]
  simp [Session.bare, eq_comm]

theorem registerInFlight_rollsBack {seq : UInt8} {cmd : Command} {sentAt : Time}
    (h : Call R tid w ((Operation.registerInFlight seq cmd sentAt).prog cfg id) w' report)
    (hfailed : report.SaveFailed) :
    SameSessions w w' ↔ ∀ s, (w.deliveries id).session = some s →
      (s.inFlight seq).map InFlightEntry.bare =
        some (InFlightEntry.bare ⟨seq, cmd, sentAt, cmd.attempts + 1⟩) := by
  obtain ⟨inp, v, res, hclock, hexec, h⟩ := of_method h
  obtain ⟨rfl, rfl⟩ := Call.of_ret h
  obtain ⟨err, rfl, -⟩ := of_saveFailed hfailed
  rw [sameSessions_put hclock (Delivery.registerInFlight_unsaved hexec)]
  refine forall₂_congr fun s _ => ?_
  simp only [Session.bare, Session.mk.injEq, true_and, and_true]
  constructor
  · intro hsame
    simpa using (congrFun hsame seq).symm
  · intro hsame
    funext key
    by_cases hkey : key = seq
    · simp [hkey, hsame]
    · simp [hkey]

theorem ackInFlight_rollsBack {seq : UInt8}
    (h : Call R tid w ((Operation.ackInFlight seq).prog cfg id) w' report)
    (hfailed : report.SaveFailed) : SameSessions w w' := by
  obtain ⟨inp, v, res, hclock, hexec, h⟩ := of_method h
  cases res with
  | some entry =>
      obtain ⟨-, rfl⟩ := Call.of_ret h
      exact hfailed.elim
  | none =>
      obtain ⟨rfl, -⟩ := Call.of_ret h
      have hsession := Delivery.ackInFlight_unsaved hexec
      rw [← World.view_put w id v inp.time] at hsession
      exact (sameSessions_iff (.put id v hclock)).mpr (congrArg (Option.map Session.bare) hsession)

/-- The loop of `ProcessInFlight` changes nothing only if it decides nothing. -/
theorem processInFlight_bare_iff {policy : Command → DeliveryPolicy} {now : Time}
    {order : List UInt8} {s : Session} (hcovers : Covers order s) :
    (s.processInFlight policy now order).1.bare = s.bare ↔
      ∀ seq entry, s.inFlight seq = some entry → Undecided (policy entry.command) now entry := by
  have hloop := s.processInFlight_spec policy now order
  constructor
  · intro hsame seq entry hentry
    rw [← inFlightOutcome_eq_none _ _ seq]
    by_contra hout
    -- an entry that is decided about is taken out
    have hjudge : (s.judge policy now seq).isSome := by
      simpa [Session.judge, hentry] using Option.isSome_iff_ne_none.mpr hout
    have htable := hloop.table seq
    rw [if_pos ⟨hcovers seq entry hentry, hjudge⟩] at htable
    have hbare := congrFun (congrArg Session.inFlight hsame) seq
    simp [Session.bare, htable, hentry] at hbare
  · intro hall
    have hjudge : ∀ seq, s.judge policy now seq = none := by
      intro seq
      cases hentry : s.inFlight seq with
      | none => simp [Session.judge, hentry]
      | some entry =>
          simpa [Session.judge, hentry] using
            (inFlightOutcome_eq_none _ _ seq _).mpr (hall seq entry hentry)
    have houts : (s.processInFlight policy now order).2 = [] := by
      simpa [hjudge] using hloop.outcomes
    have htable : (s.processInFlight policy now order).1.inFlight = s.inFlight := by
      funext seq
      simpa [hjudge] using hloop.table seq
    have hqueue : (s.processInFlight policy now order).1.queue = s.queue := by
      simpa [houts, retried] using hloop.queue
    rw [hloop.rest, htable, hqueue]

theorem processInFlight_rollsBack {now : Time}
    (h : Call R tid w ((Operation.processInFlight now).prog cfg id) w' report)
    (hfailed : report.SaveFailed) :
    SameSessions w w' ↔ ∀ s, (w.deliveries id).session = some s →
      ∀ seq entry, s.inFlight seq = some entry →
        Undecided (Policy.deliveryPolicyForCommand cfg.delivery entry.command) now entry := by
  obtain ⟨w₁, res, hcall, hret⟩ := Call.of_bind h
  cases res with
  | ok outs =>
      obtain ⟨-, rfl⟩ := Call.of_ret hret
      exact hfailed.elim
  | error err =>
      obtain ⟨rfl, rfl⟩ := Call.of_ret hret
      obtain ⟨hdelivery, hapart⟩ :=
        call_of_deliver (D := Rules.any _) hcall fun _ _ _ _ _ => trivial
      obtain ⟨s, order, hs, hcovers, hs'⟩ :=
        Delivery.managerProcessInFlight_unsaved hfailed hdelivery
      rw [World.view_session] at hs hs'
      rw [sameSessions_iff hapart, hs, hs']
      simpa using processInFlight_bare_iff hcovers

theorem enqueue_rollsBack {store : ℕ → Option Error} {cmd : Command} {fuel : ℕ}
    (hfuel : (w.view id).queue.len < fuel)
    (h : Call (storeRules cfg remoteHost id store) tid w ((Operation.enqueue cmd fuel).prog cfg id)
      w' report)
    (hfailed : report.SaveFailed) :
    SameSessions w w' ↔
      Restores cfg (store (w.deliveries id).slot.saves) cmd (w.deliveries id).session := by
  obtain ⟨w₁, res, hcall, hret⟩ := Call.of_bind h
  obtain ⟨rfl, rfl⟩ := Call.of_ret hret
  obtain ⟨err, rfl, herr⟩ := of_saveFailed hfailed
  have hapart := (call_of_deliver (D := Rules.any _) hcall fun _ _ _ _ _ => trivial).2
  rw [sameSessions_iff hapart]
  exact (enqueue_unsaved hfuel herr hcall).same_iff

end methods

/-! ## All methods -/

/-- The loop that makes room may go round once for every command in the queue. -/
def Operation.Fuelled (q : ControllerQueue) : Operation → Prop
  | enqueue _ fuel => q.len < fuel
  | _ => True

/-- A method whose save fails leaves the sessions in memory as they were exactly if it takes back
what it has changed, or has changed nothing. -/
theorem failed_save_keeps_sessions_iff {cfg : Config} {remoteHost : ConnID → String}
    {store : ℕ → Option Error} {tid : ℕ} {id : String} {op : Operation} {w w' : World}
    {report : Report} (hfuel : op.Fuelled (w.deliveries id).queue)
    (h : Call (storeRules cfg remoteHost id store) tid w (op.prog cfg id) w' report)
    (hfailed : report.SaveFailed) :
    SameSessions w w' ↔ RollsBack cfg store id w op := by
  cases op with
  | create conn => exact create_rollsBack h hfailed
  | enqueue cmd fuel => exact enqueue_rollsBack hfuel h hfailed
  | setFWMode enabled => exact setFWMode_rollsBack h hfailed
  | setSyncMode enabled => exact setSyncMode_rollsBack h hfailed
  | registerInFlight seq cmd sentAt => exact registerInFlight_rollsBack h hfailed
  | ackInFlight seq => exact iff_of_true (ackInFlight_rollsBack h hfailed) trivial
  | processInFlight now => exact processInFlight_rollsBack h hfailed

def diskFull : Error := .text "disk full"

theorem saveError_diskFull : SaveError diskFull :=
  ⟨"disk full", rfl, by decide⟩

/-- Nothing can be saved. -/
abbrev fullDisk : Rules (machine Env.unset.config fun _ => "") :=
  storeRules Env.unset.config (fun _ => "") "c" fun _ => some diskFull

/-- A controller that cannot be saved is not created. -/
theorem failed_create_keeps_sessions :
    ∃ w', Call fullDisk 0 {} ((Operation.create 7).prog Env.unset.config "c") w'
        (.failed diskFull) ∧
      SameSessions {} w' := by
  have hrun : ∃ w', Call fullDisk 0 {} ((Operation.create 7).prog Env.unset.config "c") w'
      (.failed diskFull) :=
    ⟨_, Prog.call_of_eval (M := machine Env.unset.config fun _ => "")
      { saveErr := some diskFull } (fun _ _ => rfl) rfl⟩
  obtain ⟨w', hcall⟩ := hrun
  have hfuel : (Operation.create 7).Fuelled (World.deliveries {} "c").queue := trivial
  refine ⟨w', hcall, ?_⟩
  rw [failed_save_keeps_sessions_iff hfuel hcall saveError_diskFull]
  intro s hs
  cases hs

/-- A controller that is offline, with nothing to do. -/
def idle : World :=
  { deliveries := fun id => { slot := { session := some (.new id none 0) } } }

/-- Firmware mode stays on in memory although it could not be saved. -/
theorem failed_setFWMode_changes_session :
    ∃ w', Call fullDisk 0 idle ((Operation.setFWMode true).prog Env.unset.config "c") w'
        (.failed diskFull) ∧
      (Report.failed diskFull).SaveFailed ∧ ¬ SameSessions idle w' := by
  have hrun : ∃ w', Call fullDisk 0 idle ((Operation.setFWMode true).prog Env.unset.config "c") w'
      (.failed diskFull) :=
    ⟨_, Prog.call_of_eval (M := machine Env.unset.config fun _ => "")
      { saveErr := some diskFull } (fun _ _ => rfl) rfl⟩
  obtain ⟨w', hcall⟩ := hrun
  refine ⟨w', hcall, saveError_diskFull, ?_⟩
  rw [setFWMode_rollsBack hcall saveError_diskFull]
  intro hsame
  cases hsame _ rfl

end TcpAdapter.Server
