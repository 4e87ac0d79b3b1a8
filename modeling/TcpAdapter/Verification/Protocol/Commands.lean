import TcpAdapter.Model.Protocol.Commands
import TcpAdapter.Verification.Protocol.Records

/-! # What the typed builders of the fixed-size commands can build

As with the record commands, the validator accepts exactly what they return. Every field has its
own bytes in the payload, so that it can be read back. -/

namespace TcpAdapter.Protocol

open TcpAdapter.Codec

inductive FixedPayload where
  | registrationAck (p : Cmd1RegistrationAckPayload)
  | reboot (p : Cmd2RebootPayload)
  | factoryReset (p : Cmd3FactoryResetPayload)
  | trigger (p : Cmd5TriggerPayload)
  | captureID (p : Cmd6CaptureIDPayload)
  | photoRequest (p : Cmd7PhotoRequestPayload)
  | outputControl (p : Cmd8OutputControlPayload)
  | crcBlock (p : Cmd18CRCBlockPayload)
  | fwBlock (p : Cmd20FWBlockPayload)
  | setTime (p : Cmd23SetTimePayload)
  | ack (p : Cmd24AckPayload)
  | empty (commandID : UInt8)

namespace FixedPayload

def commandID : FixedPayload → UInt8
  | registrationAck _ => 1
  | reboot _ => 2
  | factoryReset _ => 3
  | trigger _ => 5
  | captureID _ => 6
  | photoRequest _ => 7
  | outputControl _ => 8
  | crcBlock _ => 18
  | fwBlock _ => 20
  | setTime _ => 23
  | ack _ => 24
  | empty commandID => commandID

def build : FixedPayload → Except String (List UInt8)
  | registrationAck p => p.build
  | reboot p => p.build
  | factoryReset p => p.build
  | trigger p => p.build
  | captureID p => p.build
  | photoRequest p => p.build
  | outputControl p => p.build
  | crcBlock p => p.build
  | fwBlock p => p.build
  | setTime p => p.build
  | ack p => p.build
  | empty commandID => buildEmptyPayload commandID

/-- The fields of a payload. -/
def read (commandID : UInt8) (payload : List UInt8) : FixedPayload :=
  match commandID with
  | 1 => .registrationAck ⟨payload.getD 0 0, .ofNat (uint32At payload 1)⟩
  | 2 => .reboot ⟨payload.getD 0 0⟩
  | 3 => .factoryReset ⟨payload.getD 0 0⟩
  | 5 => if h : payload.length = 16 then .trigger ⟨payload, h⟩ else .empty 5
  | 6 => .captureID ⟨payload.getD 0 0, payload.getD 1 0, payload.getD 2 0⟩
  | 7 => .photoRequest ⟨payload.getD 0 0⟩
  | 8 => .outputControl ⟨payload.getD 0 0, payload.getD 1 0, payload.getD 2 0⟩
  | 18 => .crcBlock ⟨payload.getD 0 0⟩
  | 20 => .fwBlock ⟨.ofNat (uint16At payload 0), payload.drop 2⟩
  | 23 => .setTime ⟨.ofNat (uint32At payload 0)⟩
  | 24 => .ack ⟨payload.getD 0 0, payload.getD 1 0⟩
  | commandID => .empty commandID

end FixedPayload

section exact

variable {payload bytes : List UInt8} {commandID : UInt8}

/-- The commands of one size whose builders copy every byte of the payload from the input. The
others of one size are 11, 12 and 25, which pad texts, and 19, which computes a block count. -/
def fixedCommands : List UInt8 :=
  [1, 2, 3, 5, 6, 7, 8, 9, 10, 17, 18, 20, 21, 22, 23, 24]

theorem validated_self (h : validateServerCommandPayload commandID payload = .ok ()) :
    validated commandID payload = .ok payload :=
  validated_eq_ok.mpr ⟨h, rfl⟩

theorem valid_of_validated {out : List UInt8} (h : validated commandID out = .ok payload) :
    validateServerCommandPayload commandID payload = .ok () := by
  obtain ⟨hvalid, rfl⟩ := validated_eq_ok.mp h
  exact hvalid

theorem exists_putUint16 (h : bytes.length = 2) : ∃ n : UInt16, putUint16 n.toNat = bytes := by
  refine ⟨.ofNat (uint16At bytes 0), ?_⟩
  rw [toNat_ofNat_uint16At, putUint16_uint16At (by omega), slice, List.drop_zero, ← h,
    List.take_length]

theorem exists_putUint32 (h : bytes.length = 4) : ∃ n : UInt32, putUint32 n.toNat = bytes := by
  refine ⟨.ofNat (uint32At bytes 0), ?_⟩
  rw [toNat_ofNat_uint32At, putUint32_uint32At (by omega), slice, List.drop_zero, ← h,
    List.take_length]

theorem FixedPayload.valid {p : FixedPayload} (h : p.build = .ok payload) :
    p.commandID ∈ fixedCommands ∧ validateServerCommandPayload p.commandID payload = .ok () := by
  cases p with
  | fwBlock p =>
      exact ⟨by simp [FixedPayload.commandID, fixedCommands],
        valid_of_validated (need_bind_eq_ok.mp h).2⟩
  | empty commandID =>
      simp only [build, buildEmptyPayload] at h
      split at h
      · rename_i hmem
        refine ⟨?_, valid_of_validated h⟩
        revert hmem
        simp only [FixedPayload.commandID, fixedCommands, List.mem_cons]
        tauto
      · cases h
  | _ => exact ⟨by simp [FixedPayload.commandID, fixedCommands], valid_of_validated h⟩

/-- A payload that the validator accepts has the length that it asks for first. -/
theorem exists_fixedPayload (hcmd : commandID ∈ fixedCommands)
    (h : validateServerCommandPayload commandID payload = .ok ()) :
    ∃ p : FixedPayload, p.commandID = commandID ∧ p.build = .ok payload := by
  -- a builder that writes the same bytes passes the same check
  have hself := validated_self h
  simp only [fixedCommands, List.mem_cons, List.not_mem_nil, or_false] at hcmd
  rcases hcmd with rfl | rfl | rfl | rfl | rfl | rfl | rfl | rfl | rfl | rfl | rfl | rfl | rfl |
    rfl | rfl | rfl
  · have hlen : payload.length = 5 := (need_bind_eq_ok.mp h).1
    obtain ⟨code, rest, rfl⟩ := List.exists_cons_of_length_eq_add_one hlen
    obtain ⟨time, rfl⟩ := exists_putUint32 (Nat.succ.inj hlen)
    exact ⟨.registrationAck ⟨code, time⟩, rfl, hself⟩
  · obtain ⟨b, rfl⟩ := List.length_eq_one_iff.mp (need_eq_ok.mp h)
    exact ⟨.reboot ⟨b⟩, rfl, hself⟩
  · obtain ⟨b, rfl⟩ := List.length_eq_one_iff.mp (need_eq_ok.mp h)
    exact ⟨.factoryReset ⟨b⟩, rfl, hself⟩
  · exact ⟨.trigger ⟨payload, (need_bind_eq_ok.mp h).1⟩, rfl, hself⟩
  · obtain ⟨a, b, c, rfl⟩ := List.length_eq_three.mp (need_bind_eq_ok.mp h).1
    exact ⟨.captureID ⟨a, b, c⟩, rfl, hself⟩
  · obtain ⟨b, rfl⟩ := List.length_eq_one_iff.mp (need_bind_eq_ok.mp h).1
    exact ⟨.photoRequest ⟨b⟩, rfl, hself⟩
  · obtain ⟨a, b, c, rfl⟩ := List.length_eq_three.mp (need_bind_eq_ok.mp h).1
    exact ⟨.outputControl ⟨a, b, c⟩, rfl, hself⟩
  · obtain rfl := List.length_eq_zero_iff.mp (need_eq_ok.mp h)
    exact ⟨.empty 9, rfl, rfl⟩
  · obtain rfl := List.length_eq_zero_iff.mp (need_eq_ok.mp h)
    exact ⟨.empty 10, rfl, rfl⟩
  · obtain rfl := List.length_eq_zero_iff.mp (need_eq_ok.mp h)
    exact ⟨.empty 17, rfl, rfl⟩
  · obtain ⟨b, rfl⟩ := List.length_eq_one_iff.mp (need_bind_eq_ok.mp h).1
    exact ⟨.crcBlock ⟨b⟩, rfl, hself⟩
  · have hlen : payload.length = 1026 := need_eq_ok.mp h
    have htake : (payload.take 2).length = 2 := by simp [hlen]
    obtain ⟨block, hblock⟩ := exists_putUint16 htake
    refine ⟨.fwBlock ⟨block, payload.drop 2⟩, rfl, need_bind_eq_ok.mpr ⟨by simp [hlen], ?_⟩⟩
    rw [hblock, List.take_append_drop]
    exact hself
  · obtain rfl := List.length_eq_zero_iff.mp (need_eq_ok.mp h)
    exact ⟨.empty 21, rfl, rfl⟩
  · obtain rfl := List.length_eq_zero_iff.mp (need_eq_ok.mp h)
    exact ⟨.empty 22, rfl, rfl⟩
  · obtain ⟨time, rfl⟩ := exists_putUint32 (need_eq_ok.mp h)
    exact ⟨.setTime ⟨time⟩, rfl, hself⟩
  · obtain ⟨a, b, rfl⟩ := List.length_eq_two.mp (need_bind_eq_ok.mp h).1
    exact ⟨.ack ⟨a, b⟩, rfl, hself⟩

/-! ## One input for each payload -/

theorem uint32At_append_putUint32 (bytes : List UInt8) (n : UInt32) :
    UInt32.ofNat (uint32At (bytes ++ putUint32 n.toNat) bytes.length) = n := by
  have hslice : slice (bytes ++ putUint32 n.toNat) bytes.length 4 = putUint32 n.toNat := by
    rw [slice, List.drop_left, ← putUint32_length n.toNat, List.take_length]
  rw [uint32At_of_slice n.toNat_lt (by simp) hslice, UInt32.ofNat_toNat]

theorem FixedPayload.read_build {p : FixedPayload} (h : p.build = .ok payload) :
    read p.commandID payload = p := by
  cases p with
  | registrationAck p =>
      obtain ⟨-, rfl⟩ := validated_eq_ok.mp h
      exact congrArg (fun time => FixedPayload.registrationAck ⟨p.executionCode, time⟩)
        (uint32At_append_putUint32 [p.executionCode] p.serverTime)
  | setTime p =>
      obtain ⟨-, rfl⟩ := validated_eq_ok.mp h
      exact congrArg (fun time => FixedPayload.setTime ⟨time⟩)
        (uint32At_append_putUint32 [] p.serverTime)
  | fwBlock p =>
      obtain ⟨-, rfl⟩ := validated_eq_ok.mp (need_bind_eq_ok.mp h).2
      have hblock : UInt16.ofNat (uint16At (putUint16 p.blockNumber.toNat ++ p.data) 0) =
          p.blockNumber := by
        have hread : uint16At (putUint16 p.blockNumber.toNat ++ p.data) 0 = p.blockNumber.toNat :=
          (uint16At_append [] _ _ p.data).trans (toNat_putUint16 p.blockNumber.toNat_lt)
        rw [hread, UInt16.ofNat_toNat]
      exact congrArg (fun block => FixedPayload.fwBlock ⟨block, p.data⟩) hblock
  | trigger p =>
      obtain ⟨-, rfl⟩ := validated_eq_ok.mp h
      exact dif_pos p.flags.2
  | empty commandID =>
      have hmem : commandID ∈ [9, 10, 17, 21, 22] := by
        by_contra hnot
        simp [build, buildEmptyPayload, hnot] at h
      simp only [List.mem_cons, List.not_mem_nil, or_false] at hmem
      rcases hmem with rfl | rfl | rfl | rfl | rfl <;> rfl
  | _ =>
      obtain ⟨-, rfl⟩ := validated_eq_ok.mp h
      rfl

@[simp] theorem boolToByte_beq_one (b : Bool) : (boolToByte b == 1) = b := by
  cases b <;> rfl

theorem boolToByte_of_isBoolByte {b : UInt8} (h : isBoolByte b = true) : boolToByte (b == 1) = b := by
  obtain rfl | rfl : b = 0 ∨ b = 1 := by simpa [isBoolByte] using h
  · rfl
  · rfl

/-- The eight flags of a trigger payload. -/
def Cmd5TriggerFlags.read (payload : List UInt8) : Cmd5TriggerFlags where
  manualUnlock := payload.getD 0 0 == 1
  scenarioUnlock := payload.getD 1 0 == 1
  autoRegistration := payload.getD 2 0 == 1
  openForAll := payload.getD 3 0 == 1
  forwardSMS := payload.getD 4 0 == 1
  notifyUnknownIDSMS := payload.getD 5 0 == 1
  notifyLowBalanceSMS := payload.getD 6 0 == 1
  scheduleForAllCalls := payload.getD 7 0 == 1

theorem Cmd5TriggerStructuredPayload.read_build {p : Cmd5TriggerStructuredPayload}
    (h : p.build = .ok payload) : Cmd5TriggerFlags.read payload = p.flags ∧
      payload.drop 8 = p.reserve.1 := by
  obtain ⟨-, rfl⟩ := validated_eq_ok.mp h
  exact ⟨by simp [Cmd5TriggerFlags.read], rfl⟩

theorem exists_structuredTrigger (h : validateServerCommandPayload 5 payload = .ok ()) :
    ∃ p : Cmd5TriggerStructuredPayload, p.build = .ok payload := by
  have hself := validated_self h
  obtain ⟨hlen, hrest⟩ := need_bind_eq_ok.mp h
  obtain ⟨_, hflags, -⟩ := bind_eq_ok.mp hrest
  have hbyte : ∀ i < 8, boolToByte (payload.getD i 0 == 1) = payload.getD i 0 := fun i hi =>
    boolToByte_of_isBoolByte (need_eq_ok.mp (needAll_eq_ok.mp hflags i hi))
  have htake : (List.range 8).map (payload.getD · 0) = payload.take 8 := by
    refine List.ext_getElem (by simp [hlen]) fun i hi _ => ?_
    have hi : i < payload.length := by simp at hi; omega
    simp [hi]
  have hall := (congrArg (· ++ payload.drop 8) htake).trans (List.take_append_drop 8 payload)
  refine ⟨⟨.read payload, ⟨payload.drop 8, by simp [hlen]⟩⟩, ?_⟩
  rw [Cmd5TriggerStructuredPayload.build]
  simp (disch := omega) only [Cmd5TriggerFlags.read, hbyte]
  exact (congrArg (validated 5) hall).trans hself

/-- For these commands the validator accepts exactly the payloads that the typed builders return,
and each of them for one input. Of command 5 this holds of both builders. -/
theorem fixed_builders_exact (commandID : UInt8) (payload : List UInt8) :
    ((∃! p : FixedPayload, p.commandID = commandID ∧ p.build = .ok payload) ↔
      commandID ∈ fixedCommands ∧ validateServerCommandPayload commandID payload = .ok ()) ∧
    ((∃! p : Cmd5TriggerStructuredPayload, p.build = .ok payload) ↔
      validateServerCommandPayload 5 payload = .ok ()) := by
  constructor
  · constructor
    · rintro ⟨p, ⟨rfl, hbuild⟩, -⟩
      exact FixedPayload.valid hbuild
    · rintro ⟨hcmd, hvalid⟩
      obtain ⟨p, rfl, hbuild⟩ := exists_fixedPayload hcmd hvalid
      refine ⟨p, ⟨rfl, hbuild⟩, ?_⟩
      rintro q ⟨hcmd', hbuild'⟩
      rw [← FixedPayload.read_build hbuild', hcmd', FixedPayload.read_build hbuild]
  · constructor
    · rintro ⟨p, hbuild, -⟩
      exact valid_of_validated hbuild
    · intro hvalid
      obtain ⟨p, hbuild⟩ := exists_structuredTrigger hvalid
      refine ⟨p, hbuild, fun q hbuild' => ?_⟩
      obtain ⟨hflags, hreserve⟩ := p.read_build hbuild
      obtain ⟨hflags', hreserve'⟩ := q.read_build hbuild'
      cases p
      cases q
      congr
      · exact hflags'.symm.trans hflags
      · exact Subtype.ext (hreserve'.symm.trans hreserve)

end exact

end TcpAdapter.Protocol
