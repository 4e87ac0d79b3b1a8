import Mathlib.Data.List.DropRight
import TcpAdapter.Model.Protocol.Builders
import TcpAdapter.Verification.Protocol.Reader

/-! # Checks and fields of a payload

What a successful check says, and how the fields of a payload are read back: writing the value
of a field puts the bytes there that it was read from. -/

namespace TcpAdapter.Protocol

open TcpAdapter.Codec

/-! ## Checks -/

section Checks

variable {α β : Type} {x : Except String α} {f : α → Except String β} {b : β}

theorem bind_eq_ok : (x >>= f) = .ok b ↔ ∃ a, x = .ok a ∧ f a = .ok b := by
  cases x <;> simp [bind, Except.bind]

theorem check_bind_eq_ok {x : Except String Unit} {f : Unit → Except String β} :
    (x >>= f) = .ok b ↔ x = .ok () ∧ f () = .ok b := by
  cases x <;> simp [bind, Except.bind]

variable {p : Prop} [Decidable p] {msg : String}

theorem need_eq_ok : need p msg = .ok () ↔ p := by
  by_cases h : p <;> simp [need, h]

theorem need_bind_eq_ok {f : Unit → Except String β} :
    (need p msg >>= f) = .ok b ↔ p ∧ f () = .ok b := by
  rw [check_bind_eq_ok, need_eq_ok]

theorem wrapError_eq_ok {context : String} {a : α} :
    wrapError context x = .ok a ↔ x = .ok a := by
  cases x <;> simp [wrapError]

theorem forM_eq_ok {γ : Type} {check : γ → Except String Unit} (xs : List γ) :
    forM xs check = .ok () ↔ ∀ c ∈ xs, check c = .ok () := by
  induction xs with
  | nil => simp [pure, Except.pure]
  | cons c rest ih =>
      rw [List.forM_cons, check_bind_eq_ok, ih]
      simp

theorem needAll_eq_ok {n : ℕ} {check : ℕ → Except String Unit} :
    needAll n check = .ok () ↔ ∀ i < n, check i = .ok () :=
  (forM_eq_ok (List.range n)).trans (by simp)

theorem validateCounted_eq_ok {name : String} {maxCount size n : ℕ} {range : ℕ → String}
    {payload : List UInt8} :
    validateCounted name maxCount size range payload = .ok n ↔
      5 ≤ payload.length ∧ (1 ≤ (payload.getD 4 0).toNat ∧ (payload.getD 4 0).toNat ≤ maxCount) ∧
        payload.length = 5 + (payload.getD 4 0).toNat * size ∧ (payload.getD 4 0).toNat = n := by
  simp only [validateCounted, need_bind_eq_ok, pure, Except.pure, Except.ok.injEq, Nat.not_lt]

/-- The end of every builder. -/
theorem validated_eq_ok {commandID : UInt8} {out payload : List UInt8} :
    (validateServerCommandPayload commandID out >>= fun _ => pure out) = .ok payload ↔
      validateServerCommandPayload commandID out = .ok () ∧ out = payload := by
  simp [check_bind_eq_ok, pure, Except.pure]

end Checks

/-! ## Fields -/

section Fields

variable {bytes : List UInt8} {off n : ℕ}

theorem getD_slice {i : ℕ} (hi : i < n) :
    (slice bytes off n).getD i 0 = bytes.getD (off + i) 0 := by
  simp [slice, List.getD_eq_getElem?_getD, hi]

theorem forall_mem_slice {P : UInt8 → Prop} (h : ∀ i < n, P (bytes.getD (off + i) 0)) :
    ∀ b ∈ slice bytes off n, P b := by
  intro b hb
  obtain ⟨i, hi, rfl⟩ := List.mem_iff_getElem.mp hb
  have hn : i < n := Nat.lt_of_lt_of_le hi (List.length_take_le n _)
  have hget : (slice bytes off n).getD i 0 = (slice bytes off n)[i] := by simp [hi]
  rw [← hget, getD_slice hn]
  exact h i hn

theorem slice_one (h : off + 1 ≤ bytes.length) : [bytes.getD off 0] = slice bytes off 1 := by
  rw [slice, List.drop_eq_getElem_cons h, List.getD_eq_getElem?_getD, List.getElem?_eq_getElem h]
  rfl

theorem slice_two (h : off + 2 ≤ bytes.length) :
    [bytes.getD off 0, bytes.getD (off + 1) 0] = slice bytes off 2 := by
  rw [slice_add bytes off 1 1, ← slice_one (by omega), ← slice_one (by omega)]
  rfl

theorem putUint16_uint16At (h : off + 2 ≤ bytes.length) :
    putUint16 (uint16At bytes off) = slice bytes off 2 := by
  rw [uint16At, putUint16_toNat, slice_two h]

theorem uint16At_lt (bytes : List UInt8) (off : ℕ) : uint16At bytes off < 2 ^ 16 := by
  have h₁ := (bytes.getD off 0).toNat_lt
  have h₂ := (bytes.getD (off + 1) 0).toNat_lt
  rw [uint16At]
  omega

@[simp] theorem putUint32_length (n : ℕ) : (putUint32 n).length = 4 := rfl

theorem putUint32_uint32At (h : off + 4 ≤ bytes.length) :
    putUint32 (uint32At bytes off) = slice bytes off 4 := by
  have hlow := uint16At_lt bytes off
  have hhigh := uint16At_lt bytes (off + 2)
  have h₁ : uint32At bytes off % 65536 = uint16At bytes off := by rw [uint32At]; omega
  have h₂ : uint32At bytes off / 65536 % 65536 = uint16At bytes (off + 2) := by
    rw [uint32At]; omega
  rw [putUint32, h₁, h₂, putUint16_uint16At (by omega), putUint16_uint16At (by omega),
    ← slice_add]

theorem uint32At_lt (bytes : List UInt8) (off : ℕ) : uint32At bytes off < 2 ^ 32 := by
  have h₁ := uint16At_lt bytes off
  have h₂ := uint16At_lt bytes (off + 2)
  rw [uint32At]
  omega

theorem uint32At_putUint32 {n : ℕ} (hn : n < 2 ^ 32) : uint32At (putUint32 n) 0 = n := by
  simp only [uint32At, uint16At, putUint32, putUint16, List.cons_append, List.nil_append,
    List.getD_cons_zero, List.getD_cons_succ, UInt8.toNat_ofNat']
  omega

/-- Reading a number back where it was written. -/
theorem uint32At_of_slice (hn : n < 2 ^ 32)
    (hlen : off + 4 ≤ bytes.length) (h : slice bytes off 4 = putUint32 n) :
    uint32At bytes off = n := by
  rw [← uint32At_putUint32 (uint32At_lt bytes off), putUint32_uint32At hlen, h,
    uint32At_putUint32 hn]

end Fields

/-! ## Padding -/

theorem writeAt_makeBytes (text : List UInt8) (size : ℕ) :
    writeAt (makeBytes size) 0 text = text ++ List.replicate (size - text.length) 0 := by
  simp [writeAt, makeBytes]

/-- A text without the zeros at its end. -/
def stripZeros (text : List UInt8) : List UInt8 :=
  text.rdropWhile (· = 0)

theorem stripZeros_padded (text : List UInt8) (n : ℕ) :
    stripZeros (text ++ List.replicate n 0) = stripZeros text := by
  induction n with
  | zero => rw [List.replicate_zero, List.append_nil]
  | succ n ih =>
      rw [List.replicate_succ', ← List.append_assoc, stripZeros,
        List.rdropWhile_concat_pos _ _ _ (by simp)]
      exact ih

end TcpAdapter.Protocol
