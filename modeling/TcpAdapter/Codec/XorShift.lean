import Mathlib.Data.BitVec
import Mathlib.Data.Fintype.EquivFin

/-! # Adding a shifted copy of a word to itself

Addition is exclusive or. A shift moves every bit out sooner or later, so no word but zero is
its own shifted copy, and adding the copy loses nothing: every word is the sum of a word and
its shifted copy. -/

namespace TcpAdapter.Codec

variable {w : ℕ} {f : BitVec w → BitVec w}

/-- A linear map that comes down to zero when it is iterated. -/
structure Vanishing (f : BitVec w → BitVec w) : Prop where
  xor : ∀ x y, f (x ^^^ y) = f x ^^^ f y
  iterate : ∃ n, ∀ x, f^[n] x = 0#w

theorem Vanishing.eq_zero (hf : Vanishing f) {x : BitVec w} (h : f x = x) : x = 0#w := by
  obtain ⟨n, hn⟩ := hf.iterate
  rw [← hn x, Function.iterate_fixed h]

theorem Vanishing.injective (hf : Vanishing f) : Function.Injective fun x => x ^^^ f x := by
  intro x y hxy
  have hdiff : f (x ^^^ y) = x ^^^ y := by
    have hzero : x ^^^ f x ^^^ (y ^^^ f y) = 0#w := BitVec.xor_eq_zero_iff.mpr hxy
    rw [hf.xor]
    refine (BitVec.xor_eq_zero_iff.mp ?_).symm
    rw [← hzero]
    ac_rfl
  exact BitVec.xor_eq_zero_iff.mp (hf.eq_zero hdiff)

theorem Vanishing.surjective (hf : Vanishing f) : Function.Surjective fun x => x ^^^ f x := by
  have : Finite (BitVec w) := Finite.of_injective _ (BitVec.equivFin (m := w)).injective
  exact Finite.surjective_of_injective hf.injective

/-! ## Shifts -/

theorem vanishing_shiftLeft {k : ℕ} (hk : 0 < k) : Vanishing fun x : BitVec w => x <<< k where
  xor x y := BitVec.shiftLeft_xor_distrib x y k
  iterate := by
    refine ⟨w, fun x => ?_⟩
    have hshift : ∀ n, (fun x : BitVec w => x <<< k)^[n] x = x <<< (n * k) := by
      intro n
      induction n with
      | zero => simp
      | succ n ih => rw [Function.iterate_succ_apply', ih, Nat.succ_mul, BitVec.shiftLeft_add]
    rw [hshift, BitVec.shiftLeft_eq_zero (Nat.le_mul_of_pos_right w hk)]

theorem vanishing_shiftRight {k : ℕ} (hk : 0 < k) : Vanishing fun x : BitVec w => x >>> k where
  xor x y := BitVec.ushiftRight_xor_distrib x y k
  iterate := by
    refine ⟨w, fun x => ?_⟩
    have hshift : ∀ n, (fun x : BitVec w => x >>> k)^[n] x = x >>> (n * k) := by
      intro n
      induction n with
      | zero => simp
      | succ n ih => rw [Function.iterate_succ_apply', ih, Nat.succ_mul, BitVec.shiftRight_add]
    rw [hshift, BitVec.ushiftRight_eq_zero (Nat.le_mul_of_pos_right w hk)]

end TcpAdapter.Codec
