import TcpAdapter.Model.Server.CommandBuilder
import TcpAdapter.Verification.Protocol.Commands

/-! # From the command builder to the queue

What the endpoint that builds a command returns can be handed to the endpoint that enqueues it. -/

namespace TcpAdapter.Server

open TcpAdapter.Protocol

/-! ## Hex -/

/-- A digit of `upperHex`. -/
def upperDigit (n : ℕ) : Char :=
  ("0123456789abcdef".toList.getD n '0').toUpper

theorem upperHex_toList (bytes : List UInt8) :
    (upperHex bytes).toList =
      bytes.flatMap fun b => [upperDigit (b.toNat / 16), upperDigit (b.toNat % 16)] := by
  simp only [upperHex, encodeToString, String.toList_ofList, List.map_flatMap, List.map_cons,
    List.map_nil, upperDigit]

theorem hexDigit_upperDigit : ∀ n < 16, hexDigit (upperDigit n) = some (.ofNat n) := by decide

theorem isSpace_upperDigit : ∀ n < 16, Codec.isSpace (upperDigit n).toNat = false := by decide

theorem decodeHex_upperHex (bytes : List UInt8) :
    decodeHex (upperHex bytes).toList = some bytes := by
  rw [upperHex_toList]
  induction bytes with
  | nil => rfl
  | cons b bytes ih =>
      have hb := b.toNat_lt
      have hhi := hexDigit_upperDigit (b.toNat / 16) (by omega)
      have hlo := hexDigit_upperDigit (b.toNat % 16) (by omega)
      have hbyte : UInt8.ofNat (b.toNat / 16) * 16 + UInt8.ofNat (b.toNat % 16) = b := by
        apply UInt8.toNat_inj.mp
        simp
        omega
      simp only [List.flatMap_cons, List.cons_append, List.nil_append, decodeHex, hhi, hlo, ih,
        hbyte, Option.bind_eq_bind, Option.bind_some, Option.pure_def]

theorem trimSpace_upperHex (bytes : List UInt8) : trimSpace (upperHex bytes) = upperHex bytes := by
  have hspace : ∀ c ∈ (upperHex bytes).toList, Codec.isSpace c.toNat = false := by
    intro c hc
    rw [upperHex_toList] at hc
    obtain ⟨b, -, hc⟩ := List.mem_flatMap.mp hc
    have hb := b.toNat_lt
    simp only [List.mem_cons, List.not_mem_nil, or_false] at hc
    obtain rfl | rfl := hc
    · exact isSpace_upperDigit _ (by omega)
    · exact isSpace_upperDigit _ (by omega)
  rw [trimSpace, Codec.trimEnds_eq_self hspace, String.ofList_toList]

/-- The enqueue endpoint decodes what the builder endpoint shows. -/
theorem decodedPayload_upperHex {req : DebugEnqueueRequest} {payload : List UInt8}
    (h : req.payloadHex = upperHex payload) : req.decodedPayload = .ok payload := by
  rw [DebugEnqueueRequest.decodedPayload, h, trimSpace_upperHex, decodeHex_upperHex]
  split
  · -- the handler does not decode an empty text
    rename_i hempty
    have hdecode := decodeHex_upperHex payload
    rw [hempty] at hdecode
    rw [← Option.some.inj hdecode]
  · rfl

/-! ## Payloads -/

section payloads

variable {json : Json} {fmt : Fmt} {commandID : UInt8} {raw : String} {payload : List UInt8}

/-- Whatever the parameters are, the builder returns no payload that the validator refuses. -/
theorem buildCommandPayload_valid (h : buildCommandPayload json fmt commandID raw = .ok payload) :
    validateServerCommandPayload commandID payload = .ok () := by
  unfold buildCommandPayload at h
  split at h
  · obtain ⟨_, -, h⟩ := bind_eq_ok.mp h
    exact (FixedPayload.valid (p := .reboot _) h).2
  · obtain ⟨_, -, h⟩ := bind_eq_ok.mp h
    exact (FixedPayload.valid (p := .factoryReset _) h).2
  · obtain ⟨_, -, h⟩ := bind_eq_ok.mp h
    exact valid_of_validated h
  · obtain ⟨p, -, h⟩ := bind_eq_ok.mp h
    exact (FixedPayload.valid (p := .captureID p) h).2
  · obtain ⟨_, -, h⟩ := bind_eq_ok.mp h
    exact (FixedPayload.valid (p := .photoRequest _) h).2
  · obtain ⟨p, -, h⟩ := bind_eq_ok.mp h
    exact (FixedPayload.valid (p := .outputControl p) h).2
  · exact (FixedPayload.valid (p := .empty 9) h).2
  · exact (FixedPayload.valid (p := .empty 10) h).2
  · exact (FixedPayload.valid (p := .empty 17) h).2
  · exact (FixedPayload.valid (p := .empty 21) h).2
  · exact (FixedPayload.valid (p := .empty 22) h).2
  · obtain ⟨p, -, h⟩ := bind_eq_ok.mp h
    exact Buildable.valid ⟨.sendSMS p, rfl, h⟩
  · obtain ⟨⟨timestamp, text⟩, -, h⟩ := bind_eq_ok.mp h
    obtain ⟨_, -, h⟩ := bind_eq_ok.mp h
    exact Buildable.valid ⟨.settings _, rfl, h⟩
  · obtain ⟨⟨timestamp, text⟩, -, h⟩ := bind_eq_ok.mp h
    obtain ⟨_, -, h⟩ := bind_eq_ok.mp h
    exact Buildable.valid ⟨.syncID _, rfl, h⟩
  · obtain ⟨⟨timestamp, text⟩, -, h⟩ := bind_eq_ok.mp h
    obtain ⟨_, -, h⟩ := bind_eq_ok.mp h
    exact Buildable.valid ⟨.syncSchedule _, rfl, h⟩
  · obtain ⟨⟨timestamp, text⟩, -, h⟩ := bind_eq_ok.mp h
    obtain ⟨_, -, h⟩ := bind_eq_ok.mp h
    exact Buildable.valid ⟨.syncGroup _, rfl, h⟩
  · obtain ⟨⟨timestamp, daysCSV⟩, -, h⟩ := bind_eq_ok.mp h
    obtain ⟨_, -, h⟩ := bind_eq_ok.mp h
    exact Buildable.valid ⟨.syncHoliday _, rfl, h⟩
  · obtain ⟨_, -, h⟩ := bind_eq_ok.mp h
    exact (FixedPayload.valid (p := .crcBlock _) h).2
  · obtain ⟨p, -, h⟩ := bind_eq_ok.mp h
    exact Buildable.valid ⟨.startFW p, rfl, h⟩
  · obtain ⟨⟨blockNumber, dataHex⟩, -, h⟩ := bind_eq_ok.mp h
    obtain ⟨_, -, h⟩ := bind_eq_ok.mp h
    exact (FixedPayload.valid (p := .fwBlock _) h).2
  · obtain ⟨_, -, h⟩ := bind_eq_ok.mp h
    exact (FixedPayload.valid (p := .setTime _) h).2
  · obtain ⟨⟨p, numberHex⟩, -, h⟩ := bind_eq_ok.mp h
    obtain ⟨_, -, h⟩ := bind_eq_ok.mp h
    exact Buildable.valid ⟨.bindingResponse _, rfl, h⟩
  · obtain ⟨⟨customCommand, argumentHex⟩, -, h⟩ := bind_eq_ok.mp h
    obtain ⟨_, -, h⟩ := bind_eq_ok.mp h
    exact Buildable.valid ⟨.custom _, rfl, h⟩
  · cases h

end payloads

/-! ## The two endpoints -/

section endpoints

variable {json : Json} {fmt : Fmt} {cfg : Config} {method : String}
  {body : Option DebugBuildCommandRequest} {response : CommandBuildResponse}

/-- The payload that a response of the builder endpoint shows. -/
structure Shows (response : CommandBuildResponse) (payload : List UInt8) : Prop where
  nonzero : response.commandID ≠ 0
  valid : validateServerCommandPayload response.commandID payload = .ok ()
  payloadHex : response.payloadHex = upperHex payload
  payloadLen : response.payloadLen = payload.length

theorem exists_shows (h : debugBuildCommandHandler json fmt cfg method body = .built response) :
    cfg.debugLogs = true ∧ ∃ payload, Shows response payload := by
  unfold debugBuildCommandHandler at h
  split at h
  · cases h
  rename_i hlogs
  refine ⟨not_not.mp hlogs, ?_⟩
  split at h
  · cases h
  split at h
  · cases h
  rename_i req
  split at h
  · cases h
  rename_i hnonzero
  split at h
  · cases h
  rename_i payload hbuild
  unfold buildResponse at h
  cases hframe : encodeFrame ⟨255, 1, req.commandID :: payload, .auto⟩ with
  | error err =>
      simp only [hframe] at h
      cases h
  | ok frame =>
      simp only [hframe] at h
      cases h
      exact ⟨payload, hnonzero, buildCommandPayload_valid hbuild, rfl, rfl⟩

theorem Shows.checkedPayload {req : DebugEnqueueRequest} {payload : List UInt8}
    (h : Shows response payload) (hid : trimSpace req.controllerID ≠ "")
    (hcmd : req.commandID = response.commandID) (hhex : req.payloadHex = response.payloadHex)
    (httl : ¬ req.ttlSeconds < 0) : req.checkedPayload = .ok payload := by
  have hdecode : req.decodedPayload = .ok payload :=
    decodedPayload_upperHex (hhex.trans h.payloadHex)
  have hvalid := h.valid
  have hnonzero := h.nonzero
  rw [← hcmd] at hvalid hnonzero
  unfold DebugEnqueueRequest.checkedPayload
  refine need_bind_eq_ok.mpr ⟨hid, need_bind_eq_ok.mpr ⟨hnonzero, ?_⟩⟩
  refine bind_eq_ok.mpr ⟨payload, hdecode, ?_⟩
  rw [hvalid]
  exact need_bind_eq_ok.mpr ⟨httl, rfl⟩

/-- A command that the builder endpoint has built is valid, it is not turned down by the checks of
the enqueue endpoint, and what is enqueued is the payload that was shown. -/
theorem built_command_enqueues
    (h : debugBuildCommandHandler json fmt cfg method body = .built response) {r : HTTPRequest}
    {req : DebugEnqueueRequest} (hpost : r.method = "POST") (hbody : r.body = some req)
    (hid : trimSpace req.controllerID ≠ "") (hcmd : req.commandID = response.commandID)
    (hhex : req.payloadHex = response.payloadHex) (httl : ¬ req.ttlSeconds < 0) (fuel : ℕ) :
    ∃ payload, validateServerCommandPayload response.commandID payload = .ok () ∧
      debugEnqueueHandler cfg r fuel = enqueueRequest cfg r req payload fuel ∧
      upperHex payload = response.payloadHex ∧ payload.length = response.payloadLen := by
  obtain ⟨hlogs, payload, hshows⟩ := exists_shows h
  have hchecked := hshows.checkedPayload hid hcmd hhex httl
  refine ⟨payload, hshows.valid, ?_, hshows.payloadHex.symm, hshows.payloadLen.symm⟩
  unfold debugEnqueueHandler
  rw [if_neg (not_not.mpr hlogs), if_neg (not_not.mpr hpost), hbody]
  simp only [hchecked]

end endpoints

/-- The parameters of a reboot. -/
def rebootParameters : String :=
  "\x7b\"timeout_sec\":5\x7d"

/-- They hold one number; what is missing is zero. -/
def rebootObject : JsonObject where
  uint8 key := .ok (if key = "timeout_sec" then 5 else 0)
  uint16 key := .ok (if key = "timeout_sec" then 5 else 0)
  uint32 key := .ok (if key = "timeout_sec" then 5 else 0)
  uint64 key := .ok (if key = "timeout_sec" then 5 else 0)
  bool key := if key = "timeout_sec" then .error "cannot unmarshal number" else .ok false
  text key := if key = "timeout_sec" then .error "cannot unmarshal number" else .ok ""
  raw key := .ok (if key = "timeout_sec" then "5" else "")

/-- A decoder for this text. -/
def rebootJson : Json where
  object text :=
    if text = rebootParameters then .ok rebootObject else .error "unexpected end of JSON input"
  settings _ := .error "unexpected end of JSON input"
  ids _ := .error "unexpected end of JSON input"
  schedules _ := .error "unexpected end of JSON input"
  groups _ := .error "unexpected end of JSON input"
  hexError _ := "encoding/hex: invalid byte"

/-- A configuration with the debug endpoints. -/
def debugging : Config :=
  { Env.unset.config with debugLogs := true }

/-- A request that the payload be enqueued as a reboot. -/
def rebootRequest (payloadHex : String) : DebugEnqueueRequest :=
  { controllerID := "7", commandID := 2, payloadHex := payloadHex }

/-- A reboot in five seconds. -/
theorem built_reboot_enqueues :
    ∃ response, debugBuildCommandHandler rebootJson ⟨false, fun _ => ""⟩ debugging "POST"
        (some ⟨2, rebootParameters⟩) = .built response ∧
      ∃ payload, validateServerCommandPayload response.commandID payload = .ok () ∧
        debugEnqueueHandler debugging ⟨"POST", some (rebootRequest response.payloadHex), ""⟩ 1 =
          enqueueRequest debugging ⟨"POST", some (rebootRequest response.payloadHex), ""⟩
            (rebootRequest response.payloadHex) payload 1 ∧
        upperHex payload = response.payloadHex ∧ payload.length = response.payloadLen := by
  have hbuilt : ∃ response, debugBuildCommandHandler rebootJson ⟨false, fun _ => ""⟩ debugging "POST"
      (some ⟨2, rebootParameters⟩) = .built response ∧ response.commandID = 2 := ⟨_, rfl, rfl⟩
  obtain ⟨response, hresponse, hcmd⟩ := hbuilt
  have hid : trimSpace (rebootRequest response.payloadHex).controllerID ≠ "" := by
    change trimSpace "7" ≠ ""
    decide
  have httl : ¬ (rebootRequest response.payloadHex).ttlSeconds < 0 := by
    change ¬ (0 : Int64) < 0
    decide
  refine ⟨response, hresponse, ?_⟩
  exact built_command_enqueues hresponse rfl rfl hid hcmd.symm rfl httl 1

end TcpAdapter.Server
