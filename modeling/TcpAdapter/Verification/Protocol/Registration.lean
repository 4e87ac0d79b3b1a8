import TcpAdapter.Codec.Utf8
import TcpAdapter.Verification.Protocol.Fields

/-! # The grammar of a registration

Which payloads register a controller, and under which id. The parser cuts the zeros off the end
of the id field and looks at the runes of what is left; the payloads that it accepts are those
with one to fifteen digits and zeros behind them. -/

namespace TcpAdapter.Protocol

open TcpAdapter.Codec

/-- The digits test of the source goes through the runes of the text. -/
theorem isDigitsOnly_eq_true_iff (value : List UInt8) :
    isDigitsOnly value = true ↔ indexFunc (fun r => r < 0x30 || r > 0x39) value = -1 := by
  have hascii : ∀ r, ¬ (r < 0x30 ∨ r > 0x39) → r < 0x80 := by omega
  rw [indexFunc_eq_neg_one]
  simp only [Bool.or_eq_false_iff, decide_eq_false_iff_not, ← not_or]
  rw [forall_runes hascii]
  simp only [isDigitsOnly, List.all_eq_true, Bool.and_eq_true, decide_eq_true_eq,
    UInt8.le_iff_toNat_le]
  exact forall_congr' fun b => forall_congr' fun _ => by
    change 0x30 ≤ b.toNat ∧ b.toNat ≤ 0x39 ↔ _
    omega

/-! ## The id field -/

/-- The loop over the end of the field cuts off its zeros. -/
theorem take_trimmedEnd (raw : List UInt8) {n : ℕ} (hn : n ≤ raw.length) :
    raw.take (trimmedEnd raw n) = stripZeros (raw.take n) := by
  induction n with
  | zero => rfl
  | succ n ih =>
      have hlast : raw.take (n + 1) = raw.take n ++ [raw.getD n 0] := by
        rw [List.take_add_one, List.getD_eq_getElem?_getD, List.getElem?_eq_getElem hn]
        rfl
      rw [trimmedEnd, stripZeros, hlast, List.rdropWhile_concat]
      split
      · rename_i hzero
        rw [if_pos (by simpa using hzero), ih (by omega)]
        rfl
      · rename_i hzero
        rw [if_neg (by simpa using hzero), hlast]

/-- The field holds these digits and zeros behind them. -/
structure HoldsDigits (field digits : List UInt8) : Prop where
  pos : 1 ≤ digits.length
  le : digits.length ≤ 15
  decimal : ∀ b ∈ digits, 0x30 ≤ b ∧ b ≤ 0x39
  eq : field = digits ++ List.replicate (15 - digits.length) 0

theorem stripZeros_of_digits {digits : List UInt8} (h : ∀ b ∈ digits, 0x30 ≤ b ∧ b ≤ 0x39) :
    stripZeros digits = digits := by
  refine List.rdropWhile_eq_self_iff.mpr fun hne hzero => ?_
  have hdigit := (h _ (List.getLast_mem hne)).1
  rw [of_decide_eq_true hzero] at hdigit
  revert hdigit
  decide

theorem holdsDigits_iff {field digits : List UInt8} (hlen : field.length = 15) :
    HoldsDigits field digits ↔
      stripZeros field = digits ∧ digits ≠ [] ∧ isDigitsOnly digits = true := by
  have hdigits : isDigitsOnly digits = true ↔ ∀ b ∈ digits, 0x30 ≤ b ∧ b ≤ 0x39 := by
    simp only [isDigitsOnly, List.all_eq_true, Bool.and_eq_true, decide_eq_true_eq]
  rw [hdigits]
  constructor
  · intro h
    refine ⟨?_, List.ne_nil_of_length_pos h.pos, h.decimal⟩
    rw [h.eq, stripZeros_padded, stripZeros_of_digits h.decimal]
  · rintro ⟨rfl, hne, hdigits⟩
    have hsplit : stripZeros field ++ field.rtakeWhile (· = 0) = field :=
      List.rdropWhile_append_rtakeWhile
    have hsum := congrArg List.length hsplit
    rw [List.length_append, hlen] at hsum
    refine ⟨List.length_pos_iff.mpr hne, by omega, hdigits, ?_⟩
    have hzeros : field.rtakeWhile (· = 0) = List.replicate (15 - (stripZeros field).length) 0 :=
      List.eq_replicate_iff.mpr ⟨by omega, fun b hb => by simpa using List.mem_rtakeWhile_imp hb⟩
    rw [← hzeros, hsplit]

/-! ## The payload -/

theorem parseRegistrationPayload_eq_ok {payload : List UInt8} {reg : Registration} :
    parseRegistrationPayload payload = .ok reg ↔
      18 ≤ payload.length ∧ payload.getD 0 0 = 1 ∧ HoldsDigits (slice payload 1 15) reg.imei ∧
        reg.protocolVersion = payload.getD 16 0 ∧ reg.hwVersion = payload.getD 17 0 := by
  rw [parseRegistrationPayload]
  by_cases hlen : payload.length < 18
  · rw [if_pos hlen]
    exact iff_of_false (by simp) fun h => absurd h.1 (by omega)
  by_cases hcmd : payload.getD 0 0 = 1
  swap
  · rw [if_neg hlen, if_pos hcmd]
    exact iff_of_false (by simp) fun h => hcmd h.2.1
  have hfield : (slice payload 1 15).length = 15 := length_slice (by omega)
  have htrim : ((payload.drop 1).take 15).take
      (trimmedEnd ((payload.drop 1).take 15) ((payload.drop 1).take 15).length) =
        stripZeros (slice payload 1 15) := by
    rw [take_trimmedEnd _ (Nat.le_refl _), List.take_length]
    rfl
  rw [if_neg hlen, if_neg (not_not.mpr hcmd), holdsDigits_iff hfield]
  dsimp only
  rw [htrim]
  by_cases hempty : stripZeros (slice payload 1 15) = []
  · rw [if_pos hempty]
    exact iff_of_false (by simp) fun h => h.2.2.1.2.1 (h.2.2.1.1 ▸ hempty)
  by_cases hdigits : isDigitsOnly (stripZeros (slice payload 1 15)) = true
  · rw [if_neg hempty, if_neg (by simp [hdigits])]
    constructor
    · intro h
      obtain rfl := Except.ok.inj h
      exact ⟨by omega, hcmd, ⟨rfl, hempty, hdigits⟩, rfl, rfl⟩
    · rintro ⟨-, -, ⟨himei, -, -⟩, hprotocol, hhw⟩
      rw [himei, ← hprotocol, ← hhw]
  · rw [if_neg hempty, if_pos (by simp [hdigits])]
    exact iff_of_false (by simp) fun h => hdigits (h.2.2.1.1 ▸ h.2.2.1.2.2)

/-- The field is determined by the digits in it. -/
theorem HoldsDigits.same_iff {field field' digits digits' : List UInt8}
    (h : HoldsDigits field digits) (h' : HoldsDigits field' digits') :
    digits = digits' ↔ field = field' := by
  constructor
  · rintro rfl
    rw [h.eq, h'.eq]
  · rintro rfl
    rw [← stripZeros_of_digits h.decimal, ← stripZeros_of_digits h'.decimal,
      ← stripZeros_padded digits (15 - digits.length), ← h.eq,
      ← stripZeros_padded digits' (15 - digits'.length), ← h'.eq]

theorem parse_buildRegistrationPayload {imei : List UInt8} (hpos : 1 ≤ imei.length)
    (hle : imei.length ≤ 15) (hdigits : ∀ b ∈ imei, 0x30 ≤ b ∧ b ≤ 0x39) :
    parseRegistrationPayload (buildRegistrationPayload imei) = .ok ⟨imei, 1, 1⟩ := by
  obtain ⟨field, hfield⟩ : ∃ field, field = imei ++ List.replicate (15 - imei.length) 0 := ⟨_, rfl⟩
  have hlen : field.length = 15 := by
    rw [hfield, List.length_append, List.length_replicate]
    omega
  have hbuild : buildRegistrationPayload imei = [1] ++ field ++ [1] ++ [1] := by
    rw [buildRegistrationPayload, if_neg (by omega), hfield, ← writeAt_makeBytes]
    rfl
  rw [parseRegistrationPayload_eq_ok, hbuild]
  refine ⟨by simp [hlen], rfl, ⟨hpos, hle, hdigits, ?_⟩, ?_, ?_⟩
  · rw [← hfield, ← hlen]
    simp [slice]
  · simp [List.getD_eq_getElem?_getD, hlen]
  · simp [List.getD_eq_getElem?_getD, hlen]

/-- The parser accepts exactly the payloads of the grammar and returns what is in them; its test
of the digits goes through runes. Two payloads register the same controller if their id fields are
equal, and the digits that `controller-sim` sends come back. -/
theorem registration_grammar :
    (∀ value, isDigitsOnly value = true ↔
      indexFunc (fun r => r < 0x30 || r > 0x39) value = -1) ∧
    (∀ payload reg, parseRegistrationPayload payload = .ok reg ↔
      18 ≤ payload.length ∧ payload.getD 0 0 = 1 ∧ HoldsDigits (slice payload 1 15) reg.imei ∧
        reg.protocolVersion = payload.getD 16 0 ∧ reg.hwVersion = payload.getD 17 0) ∧
    (∀ payload payload' reg reg', parseRegistrationPayload payload = .ok reg →
      parseRegistrationPayload payload' = .ok reg' →
        (reg.imei = reg'.imei ↔ slice payload 1 15 = slice payload' 1 15)) ∧
    ∀ imei : List UInt8, 1 ≤ imei.length → imei.length ≤ 15 →
      (∀ b ∈ imei, 0x30 ≤ b ∧ b ≤ 0x39) →
        ∃ reg, parseRegistrationPayload (buildRegistrationPayload imei) = .ok reg ∧
          reg.imei = imei := by
  refine ⟨isDigitsOnly_eq_true_iff, fun _ _ => parseRegistrationPayload_eq_ok, ?_, ?_⟩
  · intro payload payload' reg reg' h h'
    obtain ⟨-, -, hfield, -⟩ := parseRegistrationPayload_eq_ok.mp h
    obtain ⟨-, -, hfield', -⟩ := parseRegistrationPayload_eq_ok.mp h'
    exact hfield.same_iff hfield'
  · intro imei hpos hle hdigits
    exact ⟨_, parse_buildRegistrationPayload hpos hle hdigits, rfl⟩

end TcpAdapter.Protocol
