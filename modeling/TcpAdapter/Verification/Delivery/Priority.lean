import TcpAdapter.Verification.Delivery.Survey

/-! # Which command a flush sends next

A round of a flush that nobody disturbs sends the first command that pops can reach and that may
go out. If its frame does not fit into the bytes that remain, the flush sends nothing more. -/

namespace TcpAdapter.Delivery

open List TcpAdapter.Concurrent TcpAdapter.Queue TcpAdapter.Protocol TcpAdapter.Manager
open TcpAdapter.Policy

/-! ## The first command that may go out -/

def firstToGo (now : Time) (s : Session) : Option Command :=
  (s.queue.visible s.fwMode s.syncMode).find? (mayGoOut s.deliveryContext now)

theorem drainExpired_visible (q : ControllerQueue) (now : Time) (fwMode syncMode : Bool) :
    (q.drainExpired now).2.visible fwMode syncMode =
      (q.visible fwMode syncMode).filter fun c => !c.expired now := by
  cases fwMode <;> cases syncMode <;>
    simp [ControllerQueue.visible, ControllerQueue.drainExpired, ControllerQueue.drain]

/-- A command that has been drained would not have been sent. -/
theorem firstToGo_drained (now : Time) (s : Session) :
    firstToGo now { s with queue := (s.queue.drainExpired now).2 } = firstToGo now s := by
  have hexpired : ∀ cmd, mayGoOut s.deliveryContext now cmd = true → !cmd.expired now := by
    intro cmd h
    simp only [mayGoOut, Bool.and_eq_true] at h
    exact h.1.1.1
  change find? (mayGoOut s.deliveryContext now) _ = find? (mayGoOut s.deliveryContext now) _
  rw [drainExpired_visible, find?_filter]
  congr 1
  funext cmd
  cases h : mayGoOut s.deliveryContext now cmd with
  | false => simp
  | true => simpa using hexpired cmd h

section pass

variable {cfg : Config} {id : String} {R : Rules (machine cfg id)} {tid : ℕ} {w w' : World}
  {steps : List (Step (machine cfg id))} {dctx : DeliveryContext} {now : Time}

/-- A survey at one moment finds the first command that may go out. -/
theorem Surveyed.find {s : Session} {sv : Survey} {cmds : List Command} {times : List Time}
    {q : ControllerQueue} (h : Surveyed dctx s sv steps w q) (hsv : sv = survey dctx cmds times)
    (htimes : ∀ t ∈ times, t = now)
    (hnone : sv.found = none → q.visible dctx.fwMode dctx.syncMode = []) :
    (s.queue.visible dctx.fwMode dctx.syncMode).find? (mayGoOut dctx now) = sv.found := by
  have hpassed : sv.passed.find? (mayGoOut dctx now) = none := by
    refine find?_eq_none.mpr fun cmd hcmd hgo => ?_
    obtain ⟨t, ht, hv⟩ := survey_passed (hsv ▸ hcmd)
    cases htimes t ht
    exact hv (verdict_eq_ready_iff.mpr hgo)
  rw [h.visible, append_assoc, find?_append, hpassed, Option.none_or]
  cases hfound : sv.found with
  | none =>
      rw [hnone hfound]
      rfl
  | some cmd =>
      obtain ⟨t, ht, hv⟩ := survey_found (hsv ▸ hfound)
      cases htimes t ht
      simp [verdict_eq_ready_iff.mp hv]

end pass

/-! ## The context of a flush -/

/-- What `GetDeliveryContext` would answer. -/
def World.context (w : World) : Option DeliveryContext :=
  w.session.map Session.deliveryContext

def Act.setsMode : Act → Bool
  | .setFWMode _ | .setSyncMode _ => true
  | _ => false

section exec

variable {cfg : Config} {id : String} {tid : ℕ} {w w' : World} {inp : Input}
  {dctx : DeliveryContext}

theorem setQueue_context (w : World) (q : ControllerQueue) : (w.setQueue q).context = w.context := by
  cases hs : w.slot.session <;>
    simp [World.context, World.setQueue, Slot.setQueue, Session.deliveryContext, hs]

theorem exec_context {a : Act} {r : a.Res} (h : exec cfg id tid w a inp = some (w', r))
    (ha : a.InRound) (hmode : a.setsMode = false) : w'.context = w.context := by
  cases a with
  | now | publishAck | unlockFlush | queueLen | hasFW | hasSync =>
      cases h
      rfl
  | lockFlush =>
      simp only [exec] at h
      split at h <;> cases h
      rfl
  | inFlightCount =>
      cases guarded_eq_some h
      rfl
  | publishAckWithCommand event cmd =>
      rw [World.context, publish_session h]
      rfl
  | transmit =>
      simp only [exec, execTransmit] at h
      split at h <;> cases h <;> rfl
  | popNext =>
      simp only [exec, execPop] at h
      split at h <;> cases h
      · rfl
      · exact setQueue_context w _
  | push cmd =>
      cases h
      exact setQueue_context w _
  | ackSent =>
      cases guarded_eq_some h
      cases hs : w.slot.session <;> simp [World.context, Slot.ackSent, hs]
  | nextCommandSeq =>
      cases guarded_eq_some h
      cases hs : w.slot.session <;>
        simp [World.context, Slot.nextCommandSeq, Session.deliveryContext, hs]
  | registerInFlight seq cmd sentAt =>
      have heq := guarded_eq_some h
      cases hs : w.slot.session <;> simp only [execRegister, World.session, hs] at heq <;> cases heq
      · rfl
      · simp [World.context, World.release, Slot.registerInFlight, Session.deliveryContext, hs]
  | setFWMode | setSyncMode => cases hmode
  | _ => exact ha.elim

theorem setFWMode_context {enabled : Bool} (hctx : w.context = some dctx)
    (h : exec cfg id tid w (.setFWMode enabled) inp = some (w', none)) :
    w'.context = some { dctx with fwMode := enabled } := by
  obtain ⟨s, hs, rfl⟩ := Option.map_eq_some_iff.mp hctx
  have hslot : w.slot.session = some s := hs
  have heq := guarded_eq_some h
  simp only [method, Slot.setFWMode, hslot] at heq
  cases (Prod.mk.inj heq).1
  simp [World.context, Session.deliveryContext]

theorem setSyncMode_context {enabled : Bool} (hctx : w.context = some dctx)
    (h : exec cfg id tid w (.setSyncMode enabled) inp = some (w', none)) :
    w'.context = some { dctx with syncMode := enabled } := by
  obtain ⟨s, hs, rfl⟩ := Option.map_eq_some_iff.mp hctx
  have hslot : w.slot.session = some s := hs
  have heq := guarded_eq_some h
  simp only [method, Slot.setSyncMode, hslot] at heq
  cases (Prod.mk.inj heq).1
  simp [World.context, Session.deliveryContext]

end exec

section walk

variable {cfg : Config} {id : String} {R : Rules (machine cfg id)} {tid : ℕ} {w w' : World}
  {steps : List (Step (machine cfg id))} {dctx dctx' : DeliveryContext} {cmd : Command}

theorem ok_of_walk {dctx' : DeliveryContext}
    (h : Walk R tid w (pure (.ok dctx) : Deliver (Except Error DeliveryContext)) steps w'
      (.ok dctx')) : w' = w ∧ dctx' = dctx := by
  obtain ⟨-, rfl, heq⟩ := h.of_ret
  cases heq
  exact ⟨rfl, rfl⟩

/-- A mode has been switched. -/
theorem switched_of_walk {err : Option Error}
    (h : Walk R tid w (match err with
      | some err => pure (.error err)
      | none => pure (.ok dctx) : Deliver (Except Error DeliveryContext)) steps w' (.ok dctx')) :
    err = none ∧ w' = w ∧ dctx' = dctx := by
  cases err with
  | some err => cases h.of_ret.2.2
  | none => exact ⟨rfl, ok_of_walk h⟩

theorem enterSync_context (h : Walk R tid w (enterSync cmd dctx) steps w' (.ok dctx'))
    (hctx : w.context = some dctx) : w'.context = some dctx' := by
  unfold enterSync at h
  split at h
  · obtain ⟨_, w₁, err, _, rfl, -, hset, h⟩ := Walk.of_perform h
    obtain ⟨rfl, rfl, rfl⟩ := switched_of_walk h
    exact setSyncMode_context hctx hset
  · obtain ⟨rfl, rfl⟩ := ok_of_walk h
    exact hctx

theorem enterFW_context (h : Walk R tid w (enterFW cmd dctx) steps w' (.ok dctx'))
    (hctx : w.context = some dctx) : w'.context = some dctx' := by
  unfold enterFW at h
  split at h
  · obtain ⟨_, w₁, err, _, rfl, -, hset, h⟩ := Walk.of_perform h
    obtain ⟨rfl, rfl, rfl⟩ := switched_of_walk h
    exact setFWMode_context hctx hset
  · obtain ⟨rfl, rfl⟩ := ok_of_walk h
    exact hctx

theorem leaveSync_context (h : Walk R tid w (leaveSync dctx) steps w' (.ok dctx'))
    (hctx : w.context = some dctx) : w'.context = some dctx' := by
  unfold leaveSync at h
  split at h
  · obtain ⟨_, w₁, more, _, rfl, -, hask, h⟩ := Walk.of_perform h
    cases hask
    split at h
    · obtain ⟨rfl, rfl⟩ := ok_of_walk h
      exact hctx
    · obtain ⟨_, w₂, err, _, rfl, -, hset, h⟩ := Walk.of_perform h
      obtain ⟨rfl, rfl, rfl⟩ := switched_of_walk h
      exact setSyncMode_context hctx hset
  · obtain ⟨rfl, rfl⟩ := ok_of_walk h
    exact hctx

theorem leaveFW_context (h : Walk R tid w (leaveFW dctx) steps w' (.ok dctx'))
    (hctx : w.context = some dctx) : w'.context = some dctx' := by
  unfold leaveFW at h
  split at h
  · obtain ⟨_, w₁, more, _, rfl, -, hask, h⟩ := Walk.of_perform h
    cases hask
    split at h
    · obtain ⟨rfl, rfl⟩ := ok_of_walk h
      exact hctx
    · obtain ⟨_, w₂, err, _, rfl, -, hset, h⟩ := Walk.of_perform h
      obtain ⟨rfl, rfl, rfl⟩ := switched_of_walk h
      exact setFWMode_context hctx hset
  · obtain ⟨rfl, rfl⟩ := ok_of_walk h
    exact hctx

/-! ## One round -/

theorem frames_of_tending (h : ∀ step ∈ steps, step.act.Tending) : frames steps = [] := by
  refine filterMap_eq_nil_iff.mpr fun step hstep => ?_
  have htending := h step hstep
  obtain ⟨w, a, r⟩ := step
  cases a with
  | transmit => cases htending
  | _ => rfl

def Pass.isSent : Pass → Bool
  | .sent _ _ _ => true
  | _ => false

/-- A command has gone out: so many bytes are left, and the flush knows the context. -/
def Follows (w : World) (left : Int) : Pass → Prop
  | .sent dctx remaining _ => w.context = some dctx ∧ remaining = left
  | _ => True

variable {conn : ConnID} {seq : UInt8} {bytes : List UInt8} {remaining : Int}
  {skipped : List Command} {pass : Pass}

theorem finishSend_follows {n : Int}
    (h : Walk R tid w (finishSend id cmd seq n dctx remaining skipped) steps w' pass)
    (hctx : w.context = some dctx) : Follows w' (remaining - n) pass := by
  have hfailed : ∀ {w : World} {err : Error} {event : AckEvent}
      {steps : List (Step (machine cfg id))},
      Walk R tid w (perform (.publishAckWithCommand event cmd) >>= fun _ =>
        (pure (.exit (some err)) : Deliver Pass)) steps w' pass →
      Follows w' (remaining - n) pass := by
    intro w err event steps h
    obtain ⟨_, _, _, _, -, -, -, h⟩ := Walk.of_perform h
    obtain ⟨-, -, rfl⟩ := h.of_ret
    trivial
  obtain ⟨w₁, r, _, _, rfl, hsync, h⟩ := h.of_bind
  cases r with
  | error err => exact hfailed h
  | ok dctx₁ =>
      obtain ⟨w₂, r, _, _, rfl, hfw, h⟩ := h.of_bind
      cases r with
      | error err => exact hfailed h
      | ok dctx₂ =>
          obtain ⟨_, w₃, _, _, rfl, -, hpublish, h⟩ := Walk.of_perform h
          obtain ⟨_, w₄, err, _, rfl, -, hsent, h⟩ := Walk.of_perform h
          cases err with
          | some err => exact hfailed h
          | none =>
              obtain ⟨-, rfl, rfl⟩ := h.of_ret
              refine ⟨?_, rfl⟩
              rw [exec_context hsent trivial rfl, exec_context hpublish rfl rfl]
              exact enterFW_context hfw (enterSync_context hsync hctx)

theorem sendFrame_walk
    (h : Walk R tid w (sendFrame id conn cmd seq bytes dctx remaining skipped) steps w' pass)
    (hctx : w.context = some dctx) :
    frames steps = [(bytes, cmd)] ∧ Follows w' (remaining - bytes.length) pass := by
  have hfailed : ∀ {w : World} {err : Error} {steps : List (Step (machine cfg id))},
      Walk R tid w (publishFailed id cmd err.message >>= fun _ => pushAll skipped >>= fun _ =>
        (pure (.exit (some err)) : Deliver Pass)) steps w' pass →
      frames steps = [] ∧ Follows w' (remaining - bytes.length) pass := by
    intro w err steps h
    obtain ⟨_, _, _, _, rfl, -, -, h⟩ := Walk.of_perform h
    obtain ⟨_, _, _, _, rfl, hpush, h⟩ := h.of_bind
    obtain ⟨rfl, -, rfl⟩ := h.of_ret
    have hframes := frames_of_tending (hpush.acts_of_only (pushAll_only skipped))
    exact ⟨by rwa [append_nil], trivial⟩
  obtain ⟨_, w₁, err, _, rfl, -, htransmit, h⟩ := Walk.of_perform h
  have hctx₁ := (exec_context htransmit trivial rfl).trans hctx
  cases err with
  | some err =>
      obtain ⟨hframes, hfollows⟩ := hfailed h
      exact ⟨congrArg ((bytes, cmd) :: ·) hframes, hfollows⟩
  | none =>
      obtain ⟨_, w₂, sentAt, _, rfl, -, hnow, h⟩ := Walk.of_perform h
      obtain ⟨_, w₃, err, _, rfl, -, hregister, h⟩ := Walk.of_perform h
      have hctx₃ := (exec_context hregister trivial rfl).trans
        ((exec_context hnow trivial rfl).trans hctx₁)
      cases err with
      | some err =>
          obtain ⟨hframes, hfollows⟩ := hfailed h
          exact ⟨congrArg ((bytes, cmd) :: ·) hframes, hfollows⟩
      | none =>
          have hframes := frames_of_tending (h.acts_of_only (finishSend_only ..))
          exact ⟨congrArg ((bytes, cmd) :: ·) hframes, finishSend_follows h hctx₃⟩

/-- The frame that a round of a flush writes, if any, and what follows. -/
inductive Sends (dctx : DeliveryContext) (remaining : Int) (first : Option Command) :
    List (List UInt8 × Command) → World → Pass → Prop where
  | nothing {w : World} {pass : Pass} (h : pass.isSent = false) :
      Sends dctx remaining first [] w pass
  | frame {w : World} {pass : Pass} {cmd : Command} {bytes : List UInt8}
      (hfirst : first = some cmd) (hlen : bytes.length = cmd.frameLength dctx.frameMode)
      (hfits : bytes.length ≤ remaining) (h : Follows w (remaining - bytes.length) pass) :
      Sends dctx remaining first [(bytes, cmd.unnumbered)] w pass

theorem scanQueue_sends {n : ℕ} {now : Time} {s : Session}
    (h : Walk R tid w (scanQueue id conn s.deliveryContext remaining n skipped) steps w' pass)
    (hs : w.session = some s) (hn : s.queue.len ≤ n) (htimes : ∀ t ∈ readings steps, t = now) :
    Sends s.deliveryContext remaining (firstToGo now s) (frames steps) w' pass := by
  have hvisible := (s.queue.length_visible_le s.fwMode s.syncMode).trans hn
  obtain ⟨sv, w₁, q₁, first, last, rfl, hsv, hsurveyed, hlast⟩ := scanQueue_walk h hs hvisible
  rw [frames_append, hsurveyed.frames, nil_append]
  have hctx₁ : w₁.context = some s.deliveryContext := by
    rw [World.context, hsurveyed.session]
    rfl
  cases hfound : sv.found with
  | none =>
      rw [hfound] at hlast
      obtain ⟨rfl, -, rfl, -⟩ := hlast
      exact .nothing rfl
  | some cmd =>
      have hfirst : firstToGo now s = some cmd := by
        rw [← hfound]
        exact hsurveyed.find hsv htimes (by simp [hfound])
      rw [hfound] at hlast
      obtain ⟨seq, bytes, hencode, hoffer⟩ := hlast
      by_cases hfits : bytes.length ≤ remaining
      · have hnot : ¬remaining < bytes.length := by omega
        rw [offer, if_neg hnot] at hoffer
        obtain ⟨hframes, hfollows⟩ := sendFrame_walk hoffer hctx₁
        rw [hframes]
        exact .frame hfirst (Command.frameLength_eq hencode) hfits hfollows
      · obtain ⟨rfl, -, -, hframes⟩ := offer_large_walk (by omega) hoffer hsurveyed.session
        rw [hframes]
        exact .nothing rfl

/-- The bytes that were handed to the connection. -/
def spent (steps : List (Step (machine cfg id))) : ℕ :=
  ((frames steps).map fun frame => frame.1.length).sum

/-- What a round writes, after it has drained the queue, and with what the flush goes on. -/
structure Round (R : Rules (machine cfg id)) (tid : ℕ) (conn : ConnID) (fuel : ℕ) (now : Time)
    (s : Session) (remaining : Int) (body next : List (Step (machine cfg id))) (w' : World)
    (x : Option Error) : Prop where
  acts : ∀ step ∈ body, step.act.InRound
  wrote : ∀ frame ∈ frames body, ∃ cmd, firstToGo now s = some cmd ∧ frame.2 = cmd.unnumbered ∧
    cmd.frameLength s.frameMode ≤ remaining
  goesOn : next = [] ∨ frames body ≠ [] ∧ ∃ w₁ s₁, w₁.session = some s₁ ∧
    Walk R tid w₁ (flushLoop id conn fuel s₁.deliveryContext (remaining - spent body)) next w' x

theorem afterSend_walk {fuel : ℕ} {x : Option Error}
    (h : Walk R tid w (afterSend id conn fuel dctx remaining skipped) steps w' x)
    (hctx : w.context = some dctx) :
    ∃ first next, steps = first ++ next ∧ (∀ step ∈ first, step.act.Tending) ∧
      (next = [] ∨ ∃ w₁ s₁, w₁.session = some s₁ ∧
        Walk R tid w₁ (flushLoop id conn fuel s₁.deliveryContext remaining) next w' x) := by
  obtain ⟨w₁, _, pushes, _, rfl, hpush, h⟩ := h.of_bind
  obtain ⟨w₂, r, syncs, rest, rfl, hsync, h⟩ := h.of_bind
  have hpushes := hpush.acts_of_only (pushAll_only skipped)
  have hsyncs := hsync.acts_of_only (leaveSync_only dctx)
  have hboth := forall_mem_append.mpr ⟨hpushes, hsyncs⟩
  cases r with
  | error err =>
      obtain ⟨rfl, -, -⟩ := h.of_ret
      exact ⟨pushes ++ syncs, [], by simp, hboth, .inl rfl⟩
  | ok dctx₂ =>
      obtain ⟨w₃, r, fws, rest, rfl, hfw, h⟩ := h.of_bind
      have hfws := hfw.acts_of_only (leaveFW_only dctx₂)
      have hall := forall_mem_append.mpr ⟨hboth, hfws⟩
      cases r with
      | error err =>
          obtain ⟨rfl, -, -⟩ := h.of_ret
          exact ⟨pushes ++ syncs ++ fws, [], by simp, hall, .inl rfl⟩
      | ok dctx₃ =>
          obtain ⟨s, hs, rfl⟩ := Option.map_eq_some_iff.mp hctx
          have hctx₁ : w₁.context = some s.deliveryContext := by
            rw [World.context, (pushAll_walk hpush hs).1]
            rfl
          have hctx₃ := leaveFW_context hfw (leaveSync_context hsync hctx₁)
          obtain ⟨s₃, hs₃, rfl⟩ := Option.map_eq_some_iff.mp hctx₃
          exact ⟨pushes ++ syncs ++ fws, rest, by simp, hall, .inr ⟨w₃, s₃, hs₃, h⟩⟩

theorem inRound_append {first rest : List (Step (machine cfg id))}
    (hfirst : ∀ step ∈ first, step.act.InRound) (hrest : ∀ step ∈ rest, step.act.Tending) :
    ∀ step ∈ first ++ rest, step.act.InRound :=
  forall_mem_append.mpr ⟨hfirst, fun step hstep => (hrest step hstep).inRound⟩

/-- After the pass. -/
theorem Round.of_pass {fuel : ℕ} {now : Time} {s : Session} {x : Option Error}
    {first rest : List (Step (machine cfg id))} (hacts : ∀ step ∈ first, step.act.InRound)
    (hsends : Sends s.deliveryContext remaining (firstToGo now s) (frames first) w pass)
    (h : Walk R tid w (afterPass id conn fuel pass) rest w' x) :
    ∃ body next, first ++ rest = body ++ next ∧
      Round R tid conn fuel now s remaining body next w' x := by
  have hwrote : ∀ frame ∈ frames first, ∃ cmd, firstToGo now s = some cmd ∧
      frame.2 = cmd.unnumbered ∧ cmd.frameLength s.frameMode ≤ remaining := by
    intro frame hframe
    generalize frames first = sent at hsends hframe
    cases hsends with
    | nothing => cases hframe
    | frame hfirst hlen hfits =>
        cases mem_singleton.mp hframe
        exact ⟨_, hfirst, rfl, hlen ▸ hfits⟩
  have hends : (∀ step ∈ rest, step.act.Tending) → ∃ body next, first ++ rest = body ++ next ∧
      Round R tid conn fuel now s remaining body next w' x := by
    intro hrest
    refine ⟨first ++ rest, [], by simp, inRound_append hacts hrest, ?_, .inl rfl⟩
    rwa [frames_append, frames_of_tending hrest, append_nil]
  cases pass with
  | exit err =>
      obtain ⟨rfl, -, -⟩ := h.of_ret
      exact hends (by simp)
  | unsent skipped =>
      obtain ⟨_, _, pushes, _, rfl, hpush, h⟩ := h.of_bind
      obtain ⟨rfl, -, -⟩ := h.of_ret
      exact hends (by simpa using hpush.acts_of_only (pushAll_only skipped))
  | sent dctx left skipped =>
      generalize hsent : frames first = sent at hsends
      cases hsends with
      | nothing hno => cases hno
      | frame hfirst hlen hfits hfollows =>
          obtain ⟨hctx, rfl⟩ := hfollows
          obtain ⟨tail, next, rfl, htail, hnext⟩ := afterSend_walk h hctx
          have hframes : frames (first ++ tail) = frames first := by
            rw [frames_append, frames_of_tending htail, append_nil]
          refine ⟨first ++ tail, next, by simp, inRound_append hacts htail, by rwa [hframes], ?_⟩
          refine hnext.imp_right fun ⟨w₁, s₁, hs₁, hloop⟩ =>
            ⟨by simp [hframes, hsent], w₁, s₁, hs₁, ?_⟩
          simpa [spent, hframes, hsent] using hloop

/-- One round of the outer loop. -/
theorem flushLoop_round {fuel : ℕ} {now : Time} {s : Session} {x : Option Error}
    (h : Walk R tid w (flushLoop id conn (fuel + 1) s.deliveryContext remaining) steps w' x)
    (hs : w.session = some s) (hpos : 0 < remaining) (htimes : ∀ t ∈ readings steps, t = now) :
    ∃ expired body next,
      steps = ⟨w, .now, now⟩ :: ⟨w, .drainExpired now, expired⟩ :: (body ++ next) ∧
      Round R tid conn fuel now s remaining body next w' x := by
  obtain ⟨t, w₁, opening, rest, rfl, hopening, -, -, hs₁, h⟩ := flushLoop_walk h hs hpos
  obtain ⟨w₂, pass, scan, rest, rfl, hscan, hafter⟩ := h.of_bind
  have hreadings : readings (⟨w, .now, t⟩ :: ⟨w, .drainExpired t, (s.queue.drainExpired t).1⟩ ::
      (opening ++ (scan ++ rest))) =
        t :: (readings opening ++ (readings scan ++ readings rest)) := by
    rw [← readings_append, ← readings_append]
    rfl
  rw [hreadings] at htimes
  cases htimes t (by simp)
  have hsends := scanQueue_sends (s := { s with queue := (s.queue.drainExpired now).2 }) hscan hs₁
    le_rfl fun t ht => htimes t (by simp [ht])
  have hframes : frames (opening ++ scan) = frames scan := by
    rw [frames_append, frames_of_tending hopening, nil_append]
  rw [firstToGo_drained, ← hframes] at hsends
  have hacts : ∀ step ∈ opening ++ scan, step.act.InRound :=
    forall_mem_append.mpr ⟨fun step hstep => (hopening step hstep).inRound,
      hscan.acts_of_only (scanQueue_only ..)⟩
  obtain ⟨body, next, heq, hround⟩ := Round.of_pass (s := s) hacts hsends hafter
  exact ⟨_, body, next, by rw [← append_assoc, heq], hround⟩

/-! ## All rounds -/

def Act.drains : Act → Bool
  | .drainExpired _ => true
  | _ => false

/-- The steps up to the next round. -/
def thisRound (steps : List (Step (machine cfg id))) : List (Step (machine cfg id)) :=
  steps.takeWhile fun step => !step.act.drains

/-- A round that starts with the session `s` and so many bytes left, and what is done from then
on: each frame of the round is that of the first command that may go out, and if that frame does
not fit, no frame is written any more. -/
structure InOrder (now : Time) (s : Session) (remaining : Int)
    (after : List (Step (machine cfg id))) : Prop where
  sent : ∀ frame ∈ frames (thisRound after), ∃ cmd, firstToGo now s = some cmd ∧
    frame.2 = cmd.unnumbered
  stops : ∀ cmd, firstToGo now s = some cmd → cmd.frameLength s.frameMode > remaining →
    frames after = []

/-- The rounds of a flush are in order. -/
def AllInOrder (now : Time) (budget : Int) (steps : List (Step (machine cfg id))) : Prop :=
  ∀ before w t expired after, steps = before ++ ⟨w, .drainExpired t, expired⟩ :: after →
    ∃ s, World.session w = some s ∧ InOrder now s (budget - spent before) after

theorem Act.InRound.drains {a : Act} (h : a.InRound) : a.drains = false := by
  cases a with
  | drainExpired => cases h
  | _ => rfl

theorem thisRound_append {body next : List (Step (machine cfg id))}
    (h : ∀ step ∈ body, step.act.InRound) : thisRound (body ++ next) = body ++ thisRound next :=
  takeWhile_append_of_pos fun step hstep => by simp [(h step hstep).drains]

/-- No step of this round starts another one. -/
theorem split_of_round {body next before after : List (Step (machine cfg id))} {w : World}
    {t : Time} {expired : List Command} (hbody : ∀ step ∈ body, step.act.InRound)
    (h : body ++ next = before ++ ⟨w, .drainExpired t, expired⟩ :: after) :
    ∃ before', before = body ++ before' ∧
      next = before' ++ ⟨w, .drainExpired t, expired⟩ :: after := by
  induction body generalizing before with
  | nil => exact ⟨before, rfl, h⟩
  | cons step body ih =>
      cases before with
      | nil =>
          cases h
          cases hbody _ mem_cons_self
      | cons step' before =>
          obtain ⟨rfl, htail⟩ := cons.inj h
          obtain ⟨before', rfl, hnext⟩ := ih (forall_mem_of_forall_mem_cons hbody) htail
          exact ⟨before', rfl, hnext⟩

theorem spent_append (steps steps' : List (Step (machine cfg id))) :
    spent (steps ++ steps') = spent steps + spent steps' := by
  simp [spent]

theorem allInOrder_of_no_round {now : Time} {budget : Int}
    (h : ∀ step ∈ steps, step.act.drains = false) : AllInOrder now budget steps := by
  rintro before w t expired after rfl
  cases h ⟨w, .drainExpired t, expired⟩ (by simp)

theorem AllInOrder.cons {now : Time} {budget : Int} {step : Step (machine cfg id)}
    (hdrains : step.act.drains = false) (hframes : frames [step] = [])
    (h : AllInOrder now budget steps) : AllInOrder now budget (step :: steps) := by
  intro before w t expired after heq
  cases before with
  | nil =>
      cases heq
      cases hdrains
  | cons step' before =>
      obtain ⟨rfl, htail⟩ := cons.inj heq
      have hspent : spent (step :: before) = spent before := by
        rw [← singleton_append, spent_append, spent, hframes, map_nil, sum_nil, Nat.zero_add]
      rw [hspent]
      exact h before w t expired after htail

theorem Round.inOrder {fuel : ℕ} {now : Time} {s : Session} {x : Option Error}
    {body next : List (Step (machine cfg id))}
    (h : Round R tid conn fuel now s remaining body next w' x)
    (hnext : frames (thisRound next) = []) : InOrder now s remaining (body ++ next) where
  sent frame hframe := by
    rw [thisRound_append h.acts, frames_append, hnext, append_nil] at hframe
    obtain ⟨cmd, hfirst, hcmd, -⟩ := h.wrote frame hframe
    exact ⟨cmd, hfirst, hcmd⟩
  stops cmd hfirst hlarge := by
    have hbody : frames body = [] := by
      refine eq_nil_iff_forall_not_mem.mpr fun frame hframe => ?_
      obtain ⟨cmd', hfirst', -, hfits⟩ := h.wrote frame hframe
      cases hfirst.symm.trans hfirst'
      omega
    rcases h.goesOn with rfl | ⟨hne, -⟩
    · rwa [append_nil]
    · exact absurd hbody hne

theorem flushLoop_inOrder {fuel : ℕ} {now : Time} {s : Session} {x : Option Error}
    (h : Walk R tid w (flushLoop id conn fuel s.deliveryContext remaining) steps w' x)
    (hs : w.session = some s) (htimes : ∀ t ∈ readings steps, t = now) :
    frames (thisRound steps) = [] ∧ AllInOrder now remaining steps := by
  induction fuel generalizing w s steps remaining with
  | zero =>
      obtain ⟨rfl, -, -⟩ := h.of_ret
      exact ⟨rfl, allInOrder_of_no_round (by simp)⟩
  | succ fuel ih =>
      by_cases hpos : 0 < remaining
      · obtain ⟨expired, body, next, rfl, hround⟩ := flushLoop_round h hs hpos htimes
        have hlater : frames (thisRound next) = [] ∧
            AllInOrder now (remaining - spent body) next := by
          rcases hround.goesOn with rfl | ⟨-, w₁, s₁, hs₁, hloop⟩
          · exact ⟨rfl, allInOrder_of_no_round (by simp)⟩
          · exact ih hloop hs₁ fun t ht =>
              htimes t (((sublist_append_right (_ :: _ :: body) next).filterMap _).subset ht)
        refine ⟨rfl, .cons rfl rfl fun before w₀ t expired' after heq => ?_⟩
        cases before with
        | nil =>
            cases heq
            exact ⟨s, hs, by simpa [spent, frames] using hround.inOrder hlater.1⟩
        | cons step before =>
            obtain ⟨rfl, htail⟩ := cons.inj heq
            obtain ⟨before', rfl, hnext⟩ := split_of_round hround.acts htail
            obtain ⟨s₀, hs₀, horder⟩ := hlater.2 _ _ _ _ _ hnext
            refine ⟨s₀, hs₀, ?_⟩
            change InOrder now s₀ (remaining - (spent (body ++ before') : ℕ)) after
            rwa [spent_append, Nat.cast_add, ← sub_sub]
      · unfold flushLoop at h
        rw [if_pos (by omega)] at h
        obtain ⟨rfl, -, -⟩ := h.of_ret
        exact ⟨rfl, allInOrder_of_no_round (by simp)⟩

/-- The clock stands still. -/
def clockAt (now : Time) : Rules (machine cfg id) where
  act _ _ _ inp := inp.time = now

theorem readings_clockAt {α : Type} {now : Time} {p : Deliver α} {x : α}
    (h : Walk (clockAt now) tid w p steps w' x) : ∀ t ∈ readings steps, t = now := by
  have hstep : ∀ step ∈ steps, ∀ w t, step = ⟨w, .now, t⟩ → t = now := by
    refine h.forall_steps fun w a inp w' r hrule hexec _ t heq => ?_
    cases heq
    cases hexec
    exact hrule
  intro t ht
  obtain ⟨⟨w, a, r⟩, hmem, heq⟩ := mem_filterMap.mp ht
  cases a with
  | now =>
      cases heq
      exact hstep _ hmem _ _ rfl
  | _ => cases heq

end walk

/-- Nothing is written before the first round. In each round, the command that is sent is the first
one that pops can reach and that may go out; if its frame is larger than what is left of the budget,
nothing more is sent. -/
theorem flush_in_order {cfg : Config} {id : String} {tid : ℕ} {now : Time} {w w' : World}
    {s : Session} {steps : List (Step (machine cfg id))} {x : Option Error}
    (hs : w.session = some s) (h : Walk (clockAt now) tid w (flushQueue id) steps w' x) :
    frames (thisRound steps) = [] ∧ AllInOrder now (maxBudget s.deliveryContext) steps := by
  have htimes := readings_clockAt h
  rcases flushQueue_walk h hs with ⟨-, rfl, -⟩ | ⟨-, rfl, -⟩ | ⟨conn, rest, -, -, rfl, hloop⟩
  · exact ⟨rfl, allInOrder_of_no_round (by simp [Act.drains])⟩
  · exact ⟨rfl, allInOrder_of_no_round (by simp [Act.drains])⟩
  · obtain ⟨hfirst, horder⟩ := flushLoop_inOrder hloop hs htimes
    exact ⟨hfirst, .cons rfl rfl (.cons rfl rfl horder)⟩

/-- An expired command of high priority, and two queries of which one fits into the budget. -/
def threeQueued : Session where
  controllerID := "c"
  conn := some 7
  lastSeen := 0
  lastTouchedPersistedAt := 0
  bufferFree := 20
  queue :=
    { high := [{ messageID := "late", commandID := 9, ttl := 1 }]
      query := [{ messageID := "first", commandID := 9 }, { messageID := "second", commandID := 9 }] }

theorem first_query_sent_in_order :
    ∃ (steps : List (Step (machine {} "c"))) (w' : World) (x : Option Error),
      Walk (clockAt 5) 0 { slot := { session := some threeQueued } } (flushQueue "c") steps w' x ∧
      (frames steps).map (fun frame => frame.2.messageID) = ["first"] ∧
      frames (thisRound steps) = [] ∧ AllInOrder 5 20 steps := by
  have hrun : ((flushQueue "c").walk (machine {} "c") 0 { time := 5 }
      { slot := { session := some threeQueued } }).map
        (fun run => (frames run.1).map fun frame => frame.2.messageID) = some ["first"] := by
    decide +kernel
  obtain ⟨⟨steps, w', x⟩, hwalk, hframes⟩ := Option.map_eq_some_iff.mp hrun
  have h := Prog.walk_of_eq (R := clockAt 5) { time := 5 } (fun _ _ => rfl) hwalk
  obtain ⟨hfirst, horder⟩ := flush_in_order rfl h
  exact ⟨steps, w', x, h, hframes, hfirst, horder⟩

end TcpAdapter.Delivery
