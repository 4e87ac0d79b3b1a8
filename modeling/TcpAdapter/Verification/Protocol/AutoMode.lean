import TcpAdapter.Model.CommandPolicy
import TcpAdapter.Verification.Protocol.Registration

/-! # Guessing the layout of a command

A reader in auto mode has to guess whether the second byte of a frame is its number or its command
id. It takes a frame for a registration if it can, and else looks whether that byte is the id of
some command. So it misreads the commands whose number is such an id, and a compact command whose
payload looks like a registration. -/

namespace TcpAdapter.Protocol

open TcpAdapter.Codec TcpAdapter.Policy

variable {commandID : UInt8} {payload : List UInt8}

/-! ## Commands are not registrations -/

/-- The ids of the commands that the server sends. -/
theorem sent_commandID (h : (canonicalPriorityForCommand commandID).isSome) :
    isKnownCommandID commandID = true ∧ commandID < 0x30 := by
  unfold canonicalPriorityForCommand at h
  split at h
  all_goals first | decide | cases h

/-- With a byte in front of it, the command id would be the first digit. -/
theorem not_registration_behind (h : commandID < 0x30) (b : UInt8) :
    (parseRegistrationPayload (b :: commandID :: payload)).isOk = false := by
  cases hparse : parseRegistrationPayload (b :: commandID :: payload) with
  | error err => rfl
  | ok reg =>
      obtain ⟨-, -, hfield, -⟩ := parseRegistrationPayload_eq_ok.mp hparse
      have heq := hfield.eq
      have hpos := hfield.pos
      have hdigits := hfield.decimal
      cases himei : reg.imei with
      | nil => simp [himei] at hpos
      | cons d digits =>
          rw [himei] at heq hdigits
          have hd : commandID = d := (List.cons.inj heq).1
          exact absurd h (UInt8.not_lt.mpr (hd ▸ (hdigits d List.mem_cons_self).1))

/-- A registration acknowledgement is shorter than a registration. -/
theorem not_registration_valid (h : validateServerCommandPayload commandID payload = .ok ()) :
    (parseRegistrationPayload (commandID :: payload)).isOk = false := by
  cases hparse : parseRegistrationPayload (commandID :: payload) with
  | error err => rfl
  | ok reg =>
      obtain ⟨hlen, hone, -⟩ := parseRegistrationPayload_eq_ok.mp hparse
      obtain rfl : commandID = 1 := hone
      have hfive : payload.length = 5 := (need_bind_eq_ok.mp h).1
      rw [List.length_cons] at hlen
      omega

/-! ## What the reader makes of a command -/

theorem readAuto_command_sequenced (hcmd : (canonicalPriorityForCommand commandID).isSome)
    (h : validateServerCommandPayload commandID payload = .ok ()) (ttl seq : UInt8) :
    readAutoFrame (ttl :: seq :: commandID :: payload) =
      .ok (if isKnownCommandID seq then ⟨ttl, 0, seq :: commandID :: payload, .compact⟩
        else ⟨ttl, seq, commandID :: payload, .sequenced⟩) := by
  obtain ⟨hknown, hlow⟩ := sent_commandID hcmd
  have hcompact : (parseRegistrationPayload
      (compactFrame (ttl :: seq :: commandID :: payload)).payload).isOk = false :=
    not_registration_behind hlow seq
  have hsequenced : (parseRegistrationPayload
      (sequencedFrame (ttl :: seq :: commandID :: payload)).payload).isOk = false :=
    not_registration_valid h
  have h2 : ¬(ttl :: seq :: commandID :: payload).length < 2 := by simp
  have h3 : ¬(ttl :: seq :: commandID :: payload).length < 3 := by simp
  rw [readAutoFrame, if_neg h2]
  have hcompactID : (compactFrame (ttl :: seq :: commandID :: payload)).commandID = some seq := rfl
  have hsequencedID :
      (sequencedFrame (ttl :: seq :: commandID :: payload)).commandID = some commandID := rfl
  simp only [hcompact, hsequenced, if_neg h3, Bool.false_eq_true, if_false, hcompactID,
    hsequencedID, Option.isSome_some, Option.getD_some, hknown]
  cases isKnownCommandID seq <;> rfl

theorem readAuto_command_compact (hcmd : (canonicalPriorityForCommand commandID).isSome)
    (h : validateServerCommandPayload commandID payload = .ok ()) (ttl : UInt8) :
    readAutoFrame (ttl :: commandID :: payload) =
      .ok (if (parseRegistrationPayload payload).isOk then ⟨ttl, commandID, payload, .sequenced⟩
        else ⟨ttl, 0, commandID :: payload, .compact⟩) := by
  obtain ⟨hknown, -⟩ := sent_commandID hcmd
  have hcompact : (parseRegistrationPayload
      (compactFrame (ttl :: commandID :: payload)).payload).isOk = false :=
    not_registration_valid h
  have h2 : ¬(ttl :: commandID :: payload).length < 2 := by simp
  rw [readAutoFrame, if_neg h2]
  simp only [hcompact, Bool.false_eq_true, if_false]
  cases payload with
  | nil => rfl
  | cons b rest =>
      have h3 : ¬(ttl :: commandID :: b :: rest).length < 3 := by simp
      have hcompactID : (compactFrame (ttl :: commandID :: b :: rest)).commandID = some commandID :=
        rfl
      have hsequencedID : (sequencedFrame (ttl :: commandID :: b :: rest)).commandID = some b := rfl
      have hpayload : (sequencedFrame (ttl :: commandID :: b :: rest)).payload = b :: rest := rfl
      simp only [if_neg h3, hpayload, hcompactID, hsequencedID, Option.isSome_some,
        Option.getD_some, hknown]
      cases (parseRegistrationPayload (b :: rest)).isOk <;> cases isKnownCommandID b <;> rfl

/-! ## Commands that are read as they were sent -/

/-- The number is not the id of a command, or the payload of the compact command is no
registration. -/
def Unmistakable (mode : FrameMode) (seq : UInt8) (payload : List UInt8) : Prop :=
  match mode with
  | .sequenced => isKnownCommandID seq = false
  | .compact | .auto => (parseRegistrationPayload payload).isOk = false

/-- A reader in auto mode finds the layout, the payload and the number of a command exactly if
they cannot be mistaken for others. -/
theorem auto_recovers_iff (ended : ReadError) {mode : FrameMode} (hauto : mode ≠ .auto)
    (hcmd : (canonicalPriorityForCommand commandID).isSome)
    (hvalid : validateServerCommandPayload commandID payload = .ok ()) (ttl seq : UInt8)
    {bytes : List UInt8} (h : encodeFrame ⟨ttl, seq, commandID :: payload, mode⟩ = .ok bytes)
    (rest : List UInt8) :
    (∃ f, readFrameWithMode ended .auto (bytes ++ rest) = (.ok f, rest) ∧ f.mode = mode ∧
      f.payload = commandID :: payload ∧ (mode = .sequenced → f.seq = seq)) ↔
        Unmistakable mode seq payload := by
  obtain ⟨-, hlen, rfl⟩ := encodeFrame_eq_ok_iff.mp h
  cases mode with
  | auto => exact absurd rfl hauto
  | sequenced =>
      have hdecode : decodeData .auto (ttl :: seq :: commandID :: payload) = _ :=
        readAuto_command_sequenced hcmd hvalid ttl seq
      have hread : Reads (readFrameWithMode ended .auto) _ _ := reads_wire hlen hdecode
      rw [hread rest, Unmistakable]
      cases isKnownCommandID seq with
      | false => exact ⟨fun _ => rfl, fun _ => ⟨_, rfl, rfl, rfl, fun _ => rfl⟩⟩
      | true => simp
  | compact =>
      have hdecode : decodeData .auto (ttl :: commandID :: payload) = _ :=
        readAuto_command_compact hcmd hvalid ttl
      have hread : Reads (readFrameWithMode ended .auto) _ _ := reads_wire hlen hdecode
      rw [hread rest, Unmistakable]
      cases (parseRegistrationPayload payload).isOk with
      | false => exact ⟨fun _ => rfl, fun _ => ⟨_, rfl, rfl, rfl, by simp⟩⟩
      | true => simp

/-- The number 255 is the id of no command. -/
theorem openDoor_recovered :
    ∃ f, readFrameWithMode .eof .auto (wire [255, 255, 9] ++ []) = (.ok f, []) ∧
      f.mode = .sequenced ∧ f.payload = [9] ∧ (FrameMode.sequenced = .sequenced → f.seq = 255) :=
  (auto_recovers_iff .eof (by decide) (by decide) rfl 255 255 rfl []).mpr rfl

/-- A command sent as number 5 is read as a compact command 5. -/
theorem numbered_command_misread :
    (canonicalPriorityForCommand 9).isSome ∧ validateServerCommandPayload 9 [] = .ok () ∧
      encodeFrame ⟨255, 5, [9], .sequenced⟩ = .ok (wire [255, 5, 9]) ∧
        readFrameWithMode .eof .auto (wire [255, 5, 9]) = (.ok ⟨255, 0, [5, 9], .compact⟩, []) := by
  have hdecode : decodeData .auto [255, 5, 9] = .ok ⟨255, 0, [5, 9], .compact⟩ := rfl
  exact ⟨by decide, rfl, rfl, reads_wire (by decide) hdecode []⟩

end TcpAdapter.Protocol
