import TcpAdapter.Model.Server.Debug
import TcpAdapter.Verification.Delivery.Unsaved
import TcpAdapter.Verification.Protocol.Fields
import TcpAdapter.Verification.Server.Calls

/-! # Times to live from the debug endpoint

A request gives the time to live in seconds. The command that it queues has it in nanoseconds, in
64 bits. -/

namespace TcpAdapter.Delivery

open TcpAdapter.Concurrent TcpAdapter.Queue TcpAdapter.Manager TcpAdapter.Policy

variable {cfg : Config} {id : String} {R : Rules (machine cfg id)} {tid : ℕ} {w w' : World}
  {cmd : Command} {fuel : ℕ} {events : List OverflowEvent}

theorem creationTime_keeps {createdAt : Time} (h : Call R tid w (creationTime cmd) w' createdAt) :
    w' = w := by
  unfold creationTime at h
  split at h
  · obtain ⟨_, w₁, _, -, hnow, hret⟩ := of_perform (k := .ret) h
    cases hnow
    exact (Call.of_ret hret).1
  · exact (Call.of_ret h).1

/-- A command that is not refused stands at the end of its class. -/
theorem enqueueWithEvents_queue (hfuel : w.queue.len < fuel)
    (h : Call R tid w (enqueueWithEvents cfg id cmd fuel) w' (events, none)) :
    ∃ k ticket, w'.queue = (drops k w.queue).push { cmd with ticket := ticket } := by
  have hmu : w.mu = none := by
    obtain ⟨_, _, _, -, hlock, -⟩ := of_perform h
    simp only [exec] at hlock
    split at hlock
    · assumption
    · cases hlock
  have hcall : Call (callRules cfg id (fun _ => True) fun _ => True) tid w
      (enqueueWithEvents cfg id cmd fuel) w' (events, none) :=
    h.mono fun _ _ _ _ => ⟨trivial, fun _ _ => trivial⟩
  cases (enqueueWithEvents_ends hmu hfuel).call hcall with
  | pushed hpushed => exact ⟨_, _, hpushed.queue⟩

/-- Of what the command says, only its time of creation and its priority may have been set. -/
theorem enqueueCommand_queue (hfuel : w.queue.len < fuel)
    (h : Call R tid w (enqueueCommand cfg id cmd fuel) w' (events, none)) :
    ∃ k createdAt priority ticket, w'.queue = (drops k w.queue).push
      { cmd with createdAt := createdAt, priority := priority, ticket := ticket } := by
  obtain ⟨w₁, createdAt, htime, hrest⟩ := Call.of_bind h
  obtain rfl := creationTime_keeps htime
  unfold normalizeCommandPriority at hrest
  cases hpriority : canonicalPriorityForCommand cmd.commandID with
  | none =>
      rw [hpriority] at hrest
      cases (Call.of_ret hrest).2
  | some priority =>
      rw [hpriority] at hrest
      obtain ⟨k, ticket, hqueue⟩ := enqueueWithEvents_queue hfuel hrest
      exact ⟨k, createdAt, priority, ticket, hqueue⟩

end TcpAdapter.Delivery

namespace TcpAdapter.Server

open TcpAdapter.Concurrent TcpAdapter.Queue TcpAdapter.Protocol TcpAdapter.Manager

variable {cfg : Config} {remoteHost : ConnID → String} {R : Rules (machine cfg remoteHost)}
  {tid : ℕ} {w w' : World} {r : HTTPRequest} {req : DebugEnqueueRequest} {payload : List UInt8}
  {fuel : ℕ} {controllerID messageID traceID : String} {commandID : UInt8}

/-! ## Accepted requests -/

theorem exec_now_keeps {inp : Input} {t : Time}
    (h : exec cfg remoteHost tid w .now inp = some (w', t)) : w'.deliveries = w.deliveries := by
  rw [exec] at h
  split at h
  · cases h
    rfl
  · cases h

theorem givenOr_keeps {given kind out : String} (h : Call R tid w (givenOr given kind) w' out) :
    w'.deliveries = w.deliveries := by
  unfold givenOr at h
  split at h
  · rw [(Call.of_ret h).1]
  · obtain ⟨_, w₁, _, -, hnow, hret⟩ := Call.of_act h
    rw [(Call.of_ret hret).1]
    exact exec_now_keeps hnow

/-- The command of a request that has been accepted. -/
structure Admitted (req : DebugEnqueueRequest) (payload : List UInt8) (messageID traceID : String)
    (cmd : Command) : Prop where
  messageID : cmd.messageID = messageID
  traceID : cmd.traceID = traceID
  dedupKey : cmd.dedupKey = trimSpace req.dedupKey
  commandID : cmd.commandID = req.commandID
  ttl : cmd.ttl = req.ttl
  payload : cmd.payload = payload

theorem enqueueRequest_accepted
    (hfuel : (w.deliveries (trimSpace req.controllerID)).queue.len < fuel)
    (h : Call R tid w (enqueueRequest cfg r req payload fuel) w'
      (.accepted controllerID commandID messageID traceID)) :
    ∃ k cmd, Admitted req payload messageID traceID cmd ∧
      (w'.deliveries controllerID).queue =
        (Delivery.drops k (w.deliveries controllerID).queue).push cmd := by
  obtain ⟨w₁, message, hmessage, h₁⟩ := Call.of_bind h
  obtain ⟨w₂, trace, htrace, h₂⟩ := Call.of_bind h₁
  obtain ⟨_, w₃, now, -, hnow, h₃⟩ := Call.of_call h₂
  obtain ⟨w₄, ⟨events, res⟩, hcall, hret⟩ := Call.of_bind h₃
  cases res with
  | some err => cases (Call.of_ret hret).2
  | none =>
      obtain ⟨rfl, hanswer⟩ := Call.of_ret hret
      cases hanswer
      have hkeeps : World.deliveries w₃ = w.deliveries :=
        (exec_now_keeps hnow).trans ((givenOr_keeps htrace).trans (givenOr_keeps hmessage))
      have hdelivery := (call_of_deliver (D := Rules.any _) hcall fun _ _ _ _ _ => trivial).1
      have hqueue : (World.view w₃ (trimSpace req.controllerID)).queue =
          (w.deliveries (trimSpace req.controllerID)).queue := by
        rw [← hkeeps]
        rfl
      obtain ⟨k, createdAt, priority, ticket, hpushed⟩ :=
        Delivery.enqueueCommand_queue (by rwa [hqueue]) hdelivery
      rw [hqueue] at hpushed
      exact ⟨k, _, ⟨rfl, rfl, rfl, rfl, rfl, rfl⟩, hpushed⟩

theorem checkedPayload_ttl (h : req.checkedPayload = .ok payload) : 0 ≤ req.ttlSeconds.toInt := by
  obtain ⟨-, h⟩ := need_bind_eq_ok.mp h
  obtain ⟨-, h⟩ := need_bind_eq_ok.mp h
  obtain ⟨payload', -, h⟩ := bind_eq_ok.mp h
  split at h
  · cases h
  · obtain ⟨httl, -⟩ := need_bind_eq_ok.mp h
    exact Int.not_lt.mp fun hneg => httl (Int64.lt_iff_toInt_lt.mpr hneg)

/-- What an accepted request has passed, and what it leaves in the queue. -/
theorem debugEnqueueHandler_accepted (hbody : r.body = some req)
    (hfuel : (w.deliveries (trimSpace req.controllerID)).queue.len < fuel)
    (h : Call R tid w (debugEnqueueHandler cfg r fuel) w'
      (.accepted controllerID commandID messageID traceID)) :
    ∃ payload k cmd, req.checkedPayload = .ok payload ∧
      Admitted req payload messageID traceID cmd ∧
      (w'.deliveries controllerID).queue =
        (Delivery.drops k (w.deliveries controllerID).queue).push cmd := by
  unfold debugEnqueueHandler at h
  split at h
  · cases (Call.of_ret h).2
  · split at h
    · cases (Call.of_ret h).2
    · simp only [hbody] at h
      cases hcheck : req.checkedPayload with
      | error text =>
          simp only [hcheck] at h
          cases (Call.of_ret h).2
      | ok payload =>
          simp only [hcheck] at h
          obtain ⟨k, cmd, hcmd, hqueue⟩ := enqueueRequest_accepted hfuel h
          exact ⟨payload, k, cmd, rfl, hcmd, hqueue⟩

/-! ## Expiry -/

/-- The command expires `n` seconds after its creation, and never if `n` is zero. -/
def ExactTTL (n : Int) (cmd : Command) : Prop :=
  ∀ t, cmd.expired t ↔ 0 < n ∧ cmd.createdAt + n * second < t

theorem expired_iff (cmd : Command) (t : Time) :
    cmd.expired t ↔ 0 < cmd.ttl ∧ cmd.createdAt + cmd.ttl < t := by
  unfold Command.expired
  split
  · rename_i hnever
    simp [Int.not_lt.mpr hnever]
  · rename_i hpos
    simp [Int.not_le.mp hpos]

/-- Two deadlines after the same moment, where a length that is not positive means none at all,
are the same at all times only if the lengths are. -/
theorem lengths_eq_of_deadlines {start length length' : Int}
    (h : ∀ t, (0 < length ∧ start + length < t) ↔ start + length' < t) : length = length' := by
  have hlate := (h (start + length' + 1)).mpr (by omega)
  have hpast := (h (start + length + 1)).mp ⟨hlate.1, by omega⟩
  omega

theorem exactTTL_iff {n : Int} {cmd : Command} (hn : 0 ≤ n) (httl : cmd.ttl = int64 (n * second)) :
    ExactTTL n cmd ↔ n * second < 2 ^ 63 := by
  have hsecond : (second : Int) = 1000000000 := rfl
  simp only [ExactTTL, expired_iff]
  constructor
  · intro hexact
    rcases Int.le_iff_lt_or_eq.mp hn with hpos | rfl
    · have hlength := lengths_eq_of_deadlines fun t => (hexact t).trans (and_iff_right hpos)
      rw [← hlength, httl]
      exact int64_lt _
    · decide
  · intro hfits t
    have hlow : -2 ^ 63 ≤ n * second := Int.le_trans (by decide) (Int.mul_nonneg hn (by decide))
    have hpos : 0 < n * second ↔ 0 < n := by
      rw [hsecond]
      omega
    rw [httl, int64_eq hlow hfits, hpos]

/-- The command that an accepted request queues expires when it should, exactly if its time to
live in nanoseconds can be represented. -/
theorem accepted_ttl_exact_iff (hbody : r.body = some req)
    (hfuel : (w.deliveries (trimSpace req.controllerID)).queue.len < fuel)
    (h : Call R tid w (debugEnqueueHandler cfg r fuel) w'
      (.accepted controllerID commandID messageID traceID)) :
    ∃ k cmd, cmd.messageID = messageID ∧
      (w'.deliveries controllerID).queue =
        (Delivery.drops k (w.deliveries controllerID).queue).push cmd ∧
      (ExactTTL req.ttlSeconds.toInt cmd ↔ req.ttlSeconds.toInt * second < 2 ^ 63) := by
  obtain ⟨payload, k, cmd, hcheck, hcmd, hqueue⟩ := debugEnqueueHandler_accepted hbody hfuel h
  exact ⟨k, cmd, hcmd.messageID, hqueue, exactTTL_iff (checkedPayload_ttl hcheck) hcmd.ttl⟩

/-- The settings with the debug endpoints. -/
def debugConfig : Config := { Env.unset.config with debugLogs := true }

/-- A request to ask the controller `c` for something within `n` seconds. -/
def queryWithin (n : Int64) : HTTPRequest where
  method := "POST"
  body := some
    { controllerID := "c", commandID := 9, ttlSeconds := n, messageID := "m", traceID := "t" }

/-- Ten seconds are ten seconds. -/
theorem ten_seconds_exact :
    ∃ w' k cmd, Call (Rules.any (machine debugConfig fun _ => "")) 0 {}
        (debugEnqueueHandler debugConfig (queryWithin 10) 1) w' (.accepted "c" 9 "m" "t") ∧
      (World.deliveries w' "c").queue = (Delivery.drops k {}).push cmd ∧ ExactTTL 10 cmd := by
  have hrun : ∃ w', Call (Rules.any (machine debugConfig fun _ => "")) 0 {}
      (debugEnqueueHandler debugConfig (queryWithin 10) 1) w' (.accepted "c" 9 "m" "t") :=
    ⟨_, Prog.call_of_eval (M := machine debugConfig fun _ => "") {} (fun _ _ => trivial) rfl⟩
  obtain ⟨w', hcall⟩ := hrun
  obtain ⟨k, cmd, -, hqueue, hexact⟩ := accepted_ttl_exact_iff rfl (by decide) hcall
  exact ⟨w', k, cmd, hcall, hqueue, hexact.mpr (by decide)⟩

/-- A time to live of 292 years and some has no end. -/
theorem centuries_never_expire :
    ∃ w' k cmd, Call (Rules.any (machine debugConfig fun _ => "")) 0 {}
        (debugEnqueueHandler debugConfig (queryWithin 9223372037) 1) w'
          (.accepted "c" 9 "m" "t") ∧
      (World.deliveries w' "c").queue = (Delivery.drops k {}).push cmd ∧
      ¬ ExactTTL 9223372037 cmd := by
  have hrun : ∃ w', Call (Rules.any (machine debugConfig fun _ => "")) 0 {}
      (debugEnqueueHandler debugConfig (queryWithin 9223372037) 1) w' (.accepted "c" 9 "m" "t") :=
    ⟨_, Prog.call_of_eval (M := machine debugConfig fun _ => "") {} (fun _ _ => trivial) rfl⟩
  obtain ⟨w', hcall⟩ := hrun
  obtain ⟨payload, k, cmd, -, hcmd, hqueue⟩ := debugEnqueueHandler_accepted rfl (by decide) hcall
  refine ⟨w', k, cmd, hcall, hqueue, ?_⟩
  have httl : cmd.ttl = int64 (9223372037 * second) := hcmd.ttl
  rw [exactTTL_iff (by decide) httl]
  decide

end TcpAdapter.Server
