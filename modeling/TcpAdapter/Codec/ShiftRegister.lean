import Mathlib.Data.BitVec
import Mathlib.Logic.Function.Basic

/-! # Checksums of a shift register with feedback

A register of `w` bits reads a message of `m`-bit symbols. A symbol is added to the low end
of the register, which then shifts down `m` times; a shift that drops a set bit adds the
polynomial `p`. Addition is exclusive or. -/

namespace TcpAdapter.Codec

variable {w m : ℕ}

/-- Move the register down by one bit. -/
def shift (p s : BitVec w) : BitVec w :=
  if s.getLsbD 0 then s >>> 1 ^^^ p else s >>> 1

def shifts (p : BitVec w) : ℕ → BitVec w → BitVec w
  | 0, s => s
  | n + 1, s => shifts p n (shift p s)

/-- Read one symbol. -/
def absorb (p s : BitVec w) (a : BitVec m) : BitVec w :=
  shifts p m (s ^^^ a.setWidth w)

/-- Read a message. -/
def checksum (p s : BitVec w) (message : List (BitVec m)) : BitVec w :=
  message.foldl (absorb p) s

/-! ## Shifting is linear -/

theorem shift_xor (p a b : BitVec w) : shift p (a ^^^ b) = shift p a ^^^ shift p b := by
  simp only [shift, BitVec.getLsbD_xor, BitVec.ushiftRight_xor_distrib]
  cases a.getLsbD 0 <;> cases b.getLsbD 0
  · rfl
  · simp only [Bool.false_xor, if_true, Bool.false_eq_true, if_false, BitVec.xor_assoc]
  · simp only [Bool.xor_false, if_true, Bool.false_eq_true, if_false]
    rw [BitVec.xor_assoc, BitVec.xor_assoc, BitVec.xor_comm p]
  · simp only [Bool.xor_self, if_true, Bool.false_eq_true, if_false]
    rw [BitVec.xor_comm (b >>> 1), BitVec.xor_assoc, ← BitVec.xor_assoc p, BitVec.xor_self,
      BitVec.zero_xor]

theorem shifts_xor (p : BitVec w) (n : ℕ) (a b : BitVec w) :
    shifts p n (a ^^^ b) = shifts p n a ^^^ shifts p n b := by
  induction n generalizing a b with
  | zero => rfl
  | succ n ih => rw [shifts, shift_xor, ih, shifts, shifts]

@[simp] theorem shifts_zero (p : BitVec w) (n : ℕ) : shifts p n 0#w = 0#w := by
  have h := shifts_xor p n 0#w 0#w
  rwa [BitVec.xor_self, BitVec.xor_self] at h

/-! ## Shifting loses nothing

The top bit of the register after a shift tells whether the polynomial was added, if the
polynomial's own top bit is set. -/

theorem eq_zero_of_shift {p s : BitVec w} (hp : p.msb = true) (h : shift p s = 0#w) :
    s = 0#w := by
  rw [shift] at h
  split at h
  · have htop : (s >>> 1).msb = true := by rw [BitVec.xor_eq_zero_iff.mp h, hp]
    simp at htop
  · rename_i hlow
    apply BitVec.eq_of_getLsbD_eq
    intro i _
    cases i with
    | zero => simpa using hlow
    | succ i =>
        have hbit : (s >>> 1).getLsbD i = false := by rw [h]; simp
        rw [BitVec.getLsbD_ushiftRight, Nat.add_comm] at hbit
        simpa using hbit

theorem eq_zero_of_shifts {p : BitVec w} (hp : p.msb = true) {n : ℕ} {s : BitVec w}
    (h : shifts p n s = 0#w) : s = 0#w := by
  induction n generalizing s with
  | zero => exact h
  | succ n ih => exact eq_zero_of_shift hp (ih h)

theorem shifts_injective {p : BitVec w} (hp : p.msb = true) (n : ℕ) :
    Function.Injective (shifts p n) := by
  intro a b h
  apply BitVec.xor_eq_zero_iff.mp
  apply eq_zero_of_shifts hp
  rw [shifts_xor, BitVec.xor_eq_zero_iff]
  exact h

/-- As long as only zeros are dropped, shifting undoes a shift to the left. -/
theorem shifts_shiftLeft (p : BitVec w) (n : ℕ) {x : BitVec w} (hx : x.toNat * 2 ^ n < 2 ^ w) :
    shifts p n (x <<< n) = x := by
  induction n with
  | zero => simp [shifts]
  | succ n ih =>
      have hdouble : x.toNat * 2 ^ (n + 1) = x.toNat * 2 ^ n * 2 := by
        rw [Nat.pow_succ, Nat.mul_assoc]
      have hstep : shift p (x <<< (n + 1)) = x <<< n := by
        have hlow : (x <<< (n + 1)).getLsbD 0 = false := by simp
        rw [shift, hlow]
        apply BitVec.eq_of_toNat_eq
        simp only [Bool.false_eq_true, if_false, BitVec.toNat_ushiftRight, BitVec.toNat_shiftLeft,
          Nat.shiftLeft_eq, Nat.shiftRight_one]
        rw [Nat.mod_eq_of_lt hx, Nat.mod_eq_of_lt (by omega), hdouble]
        omega
      rw [shifts, hstep]
      exact ih (by omega)

/-! ## Messages -/

section messages

variable {p : BitVec w}

theorem absorb_left_inj (hp : p.msb = true) (a : BitVec m) {s t : BitVec w} :
    absorb p s a = absorb p t a ↔ s = t := by
  rw [absorb, absorb, (shifts_injective hp m).eq_iff, BitVec.xor_left_inj]

theorem checksum_left_inj (hp : p.msb = true) (message : List (BitVec m)) {s t : BitVec w} :
    checksum p s message = checksum p t message ↔ s = t := by
  induction message generalizing s t with
  | nil => exact Iff.rfl
  | cons a message ih => exact ih.trans (absorb_left_inj hp a)

/-- Two symbols fit the register side by side. -/
theorem setWidth_mul_lt (hw : m + m ≤ w) (b : BitVec m) :
    (b.setWidth w).toNat * 2 ^ m < 2 ^ w := by
  have hb : (b.setWidth w).toNat < 2 ^ m := by
    rw [BitVec.toNat_setWidth]
    exact Nat.lt_of_le_of_lt (Nat.mod_le _ _) b.isLt
  calc (b.setWidth w).toNat * 2 ^ m < 2 ^ m * 2 ^ m :=
        Nat.mul_lt_mul_of_pos_right hb (Nat.two_pow_pos m)
    _ = 2 ^ (m + m) := (Nat.pow_add 2 m m).symm
    _ ≤ 2 ^ w := Nat.pow_le_pow_right (by omega) hw

/-- Which register a symbol takes to a register that holds no more than one symbol. -/
theorem absorb_eq_setWidth_iff (hp : p.msb = true) (hw : m + m ≤ w) {s : BitVec w}
    {a b : BitVec m} :
    absorb p s a = b.setWidth w ↔ s = a.setWidth w ^^^ b.setWidth w <<< m := by
  have hb := shifts_shiftLeft p m (setWidth_mul_lt hw b)
  rw [absorb, ← hb, (shifts_injective hp m).eq_iff, hb, BitVec.xor_comm]
  constructor
  · intro h
    rw [← h, ← BitVec.xor_assoc, BitVec.xor_self, BitVec.zero_xor]
  · intro h
    rw [h, ← BitVec.xor_assoc, BitVec.xor_self, BitVec.zero_xor]

/-- Two symbols bring the register to zero if they spell it out, low symbol first. -/
theorem absorb_pair_eq_zero_iff (hp : p.msb = true) (hw : m + m ≤ w) {s : BitVec w}
    {a b : BitVec m} :
    absorb p (absorb p s a) b = 0#w ↔ s = a.setWidth w ^^^ b.setWidth w <<< m := by
  rw [← absorb_eq_setWidth_iff hp hw]
  constructor
  · intro h
    exact BitVec.xor_eq_zero_iff.mp (eq_zero_of_shifts hp h)
  · intro h
    rw [h, absorb, BitVec.xor_self, shifts_zero]

theorem absorb_xor (p s t : BitVec w) (a b : BitVec m) :
    absorb p s a ^^^ absorb p t b = absorb p (s ^^^ t) (a ^^^ b) := by
  rw [absorb, absorb, absorb, ← shifts_xor, BitVec.setWidth_xor]
  congr 1
  ac_rfl

theorem eq_zero_of_setWidth_eq {a b : BitVec m} (hw : m + m ≤ w)
    (h : a.setWidth w = b.setWidth w <<< m) : a = 0#m ∧ b = 0#m := by
  have hnat := congrArg BitVec.toNat h
  have hm : 2 ^ m ≤ 2 ^ w := Nat.pow_le_pow_right (by omega) (by omega)
  rw [BitVec.toNat_shiftLeft, Nat.shiftLeft_eq, Nat.mod_eq_of_lt (setWidth_mul_lt hw b),
    BitVec.toNat_setWidth, BitVec.toNat_setWidth, Nat.mod_eq_of_lt (Nat.lt_of_lt_of_le a.isLt hm),
    Nat.mod_eq_of_lt (Nat.lt_of_lt_of_le b.isLt hm)] at hnat
  -- the left side is less than `2 ^ m`, the right side a multiple of it
  have hb : b.toNat = 0 := by
    by_contra hne
    have hle := Nat.le_mul_of_pos_left (2 ^ m) (Nat.pos_of_ne_zero hne)
    have ha := a.isLt
    omega
  rw [hb, Nat.zero_mul] at hnat
  exact ⟨BitVec.eq_of_toNat_eq hnat, BitVec.eq_of_toNat_eq hb⟩

/-- Two symbols in a row leave their trace in the register. -/
theorem absorb_pair_inj (hp : p.msb = true) (hw : m + m ≤ w) {s : BitVec w}
    {a b a' b' : BitVec m} (h : absorb p (absorb p s a) b = absorb p (absorb p s a') b') :
    a = a' ∧ b = b' := by
  rw [← BitVec.xor_eq_zero_iff, absorb_xor, absorb_xor, BitVec.xor_self,
    absorb_pair_eq_zero_iff hp hw] at h
  have hdiff := eq_zero_of_setWidth_eq hw (BitVec.xor_eq_zero_iff.mp h.symm)
  exact ⟨BitVec.xor_eq_zero_iff.mp hdiff.1, BitVec.xor_eq_zero_iff.mp hdiff.2⟩

/-- A change within two adjacent symbols changes the checksum. -/
theorem eq_of_checksum_eq (hp : p.msb = true) (hw : m + m ≤ w) {s : BitVec w}
    {pre post : List (BitVec m)} {a b a' b' : BitVec m}
    (h : checksum p s (pre ++ a :: b :: post) = checksum p s (pre ++ a' :: b' :: post)) :
    a = a' ∧ b = b' := by
  simp only [checksum, List.foldl_append, List.foldl_cons] at h
  exact absorb_pair_inj hp hw ((checksum_left_inj hp post).mp h)

end messages

end TcpAdapter.Codec
