import TcpAdapter.Codec.XorShift
import TcpAdapter.Verification.Session

/-! # The delay before a retry

The base is doubled with every attempt, and a jitter of 20 percent is added or taken away. The
product, the jitter and the sum are 64-bit numbers that may overflow; a product that comes out
negative is noticed, any other is taken as it is. -/

namespace TcpAdapter.Manager

open TcpAdapter.Queue TcpAdapter.Codec

/-! ## What the delay should be -/

/-- One for each attempt after the second, six at most. -/
def doublings (attempts : Int) : ℕ :=
  (min (attempts - 2) 6).toNat

def backoff (attempts base : Int) : Int :=
  base * 2 ^ doublings attempts

/-- 20 percent, rounded down. -/
def fifth (x : Int) : Int :=
  x * 20 / 100

/-- The delay is within 20 percent of the backoff if all of it can be represented, and otherwise
not less than one base interval. -/
structure BacksOff (attempts base delay : Int) : Prop where
  off : attempts ≤ 1 ∨ base ≤ 0 → delay = 0
  near : 1 < attempts → 0 < base → backoff attempts base + fifth (backoff attempts base) < 2 ^ 63 →
    backoff attempts base - fifth (backoff attempts base) ≤ delay ∧
      delay ≤ backoff attempts base + fifth (backoff attempts base)
  floor : 1 < attempts → 0 < base → 2 ^ 63 ≤ backoff attempts base + fifth (backoff attempts base) →
    base - fifth base ≤ delay

theorem le_backoff (attempts : Int) {base : Int} (hbase : 0 < base) :
    base ≤ backoff attempts base := by
  have hpow : (1 : Int) ≤ 2 ^ doublings attempts := Int.pow_pos (by decide)
  calc base = base * 1 := (Int.mul_one base).symm
    _ ≤ backoff attempts base := Int.mul_le_mul_of_nonneg_left hpow (Int.le_of_lt hbase)

theorem sub_fifth_mono {x y : Int} (h : x ≤ y) : x - fifth x ≤ y - fifth y := by
  simp only [fifth]
  omega

variable {attempts base delay : Int}

/-- In either case the delay is at least the base, less 20 percent. -/
theorem BacksOff.base_le (h : BacksOff attempts base delay)
    (hattempts : 1 < attempts) (hbase : 0 < base) : base - fifth base ≤ delay := by
  by_cases hfits : backoff attempts base + fifth (backoff attempts base) < 2 ^ 63
  · exact Int.le_trans (sub_fifth_mono (le_backoff attempts hbase)) (h.near hattempts hbase hfits).1
  · exact h.floor hattempts hbase (Int.not_lt.mp hfits)

/-! ## What the delay is -/

/-- The backoff as a 64-bit number. -/
def wrappedBackoff (attempts base : Int) : Int :=
  int64 (backoff attempts base)

/-- The jitter of a delay, computed with 64-bit numbers; none if it overflows to a negative one. -/
def jitter (delay : Int) : Int :=
  max ((int64 (delay * 20)).tdiv 100) 0

theorem jitter_eq (delay : Int) : jitter delay = max (int64 (delay * 20)) 0 / 100 := by
  rw [jitter]
  by_cases h : 0 ≤ int64 (delay * 20)
  · rw [Int.tdiv_eq_ediv_of_nonneg h]
    omega
  · have hneg : 0 ≤ (-int64 (delay * 20)).tdiv 100 := Int.tdiv_nonneg (by omega) (by decide)
    rw [Int.neg_tdiv] at hneg
    omega

theorem jitter_le_fifth (h : 0 ≤ delay) : jitter delay ≤ fifth delay := by
  have hle : int64 (delay * 20) ≤ delay * 20 := int64_le (by omega)
  rw [jitter_eq, fifth]
  omega

theorem jitter_lt (delay : Int) : jitter delay < 2 ^ 62 := by
  have hlt := int64_lt (delay * 20)
  rw [jitter_eq]
  omega

/-- Close below `2 ^ 63` the jitter overflows to a negative number. -/
theorem add_jitter_lt (h : 0 ≤ delay) (hlt : delay < 2 ^ 63) : delay + jitter delay < 2 ^ 63 := by
  rw [jitter_eq]
  by_cases hclose : delay * 20 < 19 * 2 ^ 63
  · have hjitter := int64_lt (delay * 20)
    omega
  · have hquot : delay * 20 / 2 ^ 64 = 9 := by omega
    have hneg : int64 (delay * 20) < 0 := by
      simp only [int64, Int.bmod_def]
      omega
    omega

/-- Where in the span of the jitter a seed leads. -/
def offset (seed : UInt64) (range : Int) : Int :=
  Int.ofNat ((xorshift64 seed).toNat % (range * 2 + 1).toNat) - range

theorem offset_bounds (seed : UInt64) {range : Int} (h : 0 ≤ range) :
    -range ≤ offset seed range ∧ offset seed range ≤ range := by
  have hlt := Nat.mod_lt (xorshift64 seed).toNat (show 0 < (range * 2 + 1).toNat by omega)
  simp only [offset, Int.ofNat_eq_natCast]
  omega

/-- Every number but zero is what some seed is scrambled to. -/
theorem exists_xorshift64 {y : UInt64} (hy : y ≠ 0) : ∃ seed, xorshift64 seed = y := by
  obtain ⟨c, hc⟩ := (vanishing_shiftLeft (k := 17) (by decide)).surjective y.toBitVec
  obtain ⟨b, hb⟩ := (vanishing_shiftRight (k := 7) (by decide)).surjective c
  obtain ⟨a, ha⟩ := (vanishing_shiftLeft (k := 13) (by decide)).surjective b
  have ha0 : a ≠ 0#64 := by
    rintro rfl
    simp only [BitVec.zero_shiftLeft, BitVec.xor_zero] at ha
    subst ha
    simp only [BitVec.zero_ushiftRight, BitVec.xor_zero] at hb
    subst hb
    exact hy (UInt64.toBitVec_inj.mp (by simpa using hc.symm))
  refine ⟨UInt64.ofBitVec a, UInt64.toBitVec_inj.mp ?_⟩
  have hseed : UInt64.ofBitVec a ≠ 0 := fun h => ha0 (congrArg UInt64.toBitVec h)
  simp only [xorshift64, if_neg hseed]
  rw [← hc, ← hb, ← ha]
  rfl

/-- Every place in the span of the jitter is reached. -/
theorem exists_offset {range x : Int} (hrange : range < 2 ^ 62) (hlow : -range ≤ x)
    (hhigh : x ≤ range) : ∃ seed, offset seed range = x := by
  have hspan : ∃ span : ℕ, (range * 2 + 1).toNat = span ∧ (span : Int) = range * 2 + 1 :=
    ⟨_, rfl, by omega⟩
  obtain ⟨span, hspan, hcast⟩ := hspan
  obtain ⟨r, hr⟩ : ∃ r : ℕ, (r : Int) = x + range := ⟨(x + range).toNat, by omega⟩
  -- zero is not reached, but a whole span leads to the same place
  obtain ⟨y, hy0, hylt, hymod⟩ : ∃ y, y ≠ 0 ∧ y < 2 ^ 64 ∧ y % span = r := by
    by_cases hzero : r = 0
    · exact ⟨span, by omega, by omega, by rw [Nat.mod_self, hzero]⟩
    · exact ⟨r, hzero, by omega, Nat.mod_eq_of_lt (by omega)⟩
  have hy : (UInt64.ofNat y).toNat = y := UInt64.toNat_ofNat_of_lt' hylt
  obtain ⟨seed, hseed⟩ := exists_xorshift64 (y := UInt64.ofNat y) fun h =>
    hy0 (by rw [← hy, h]; rfl)
  refine ⟨seed, ?_⟩
  rw [offset, hseed, hy, hspan, hymod, Int.ofNat_eq_natCast]
  omega

section delay

variable (hattempts : 1 < attempts) (hbase : 0 < base) (seed : UInt64)

include hattempts hbase

theorem retryDelay_product :
    retryDelay attempts base seed =
      if wrappedBackoff attempts base < 0 then base
      else
        let d := wrappedBackoff attempts base
        let range := (int64 (d * 20)).tdiv 100
        if range ≤ 0 then d
        else if int64 (range * 2 + 1) ≤ 0 then d
        else
          let v := Int.ofNat ((xorshift64 seed).toNat % (int64 (range * 2 + 1)).toNat) - range
          if int64 (d + v) < 0 then 0 else int64 (d + v) := by
  have hoff : ¬ (attempts ≤ 1 ∨ base ≤ 0) := by omega
  have hshift : (if (if attempts - 2 < 0 then 0 else attempts - 2) > maxRetryBackoffShift then
      maxRetryBackoffShift else if attempts - 2 < 0 then 0 else attempts - 2) =
        min (attempts - 2) 6 := by
    rw [maxRetryBackoffShift]
    omega
  simp only [retryDelay, if_neg hoff, hshift]
  rfl

/-- A product that has overflowed to a negative number is noticed. -/
theorem retryDelay_of_neg (hneg : wrappedBackoff attempts base < 0) :
    retryDelay attempts base seed = base := by
  rw [retryDelay_product hattempts hbase, if_pos hneg]

/-- Any other product is taken with its jitter. -/
theorem retryDelay_of_nonneg (hnonneg : 0 ≤ wrappedBackoff attempts base) :
    retryDelay attempts base seed =
      wrappedBackoff attempts base + offset seed (jitter (wrappedBackoff attempts base)) := by
  rw [retryDelay_product hattempts hbase, if_neg (Int.not_lt.mpr hnonneg)]
  have hlt : wrappedBackoff attempts base < 2 ^ 63 := int64_lt _
  generalize wrappedBackoff attempts base = d at hnonneg hlt
  have hrange := jitter_lt d
  have hfifth := jitter_le_fifth hnonneg
  have hmost := add_jitter_lt hnonneg hlt
  by_cases hzero : (int64 (d * 20)).tdiv 100 ≤ 0
  · have hjitter : jitter d = 0 := by rw [jitter]; omega
    have hv : offset seed 0 = 0 := by simp [offset, Nat.mod_one]
    rw [hjitter, hv, Int.add_zero]
    exact if_pos hzero
  · have hjitter : (int64 (d * 20)).tdiv 100 = jitter d := by rw [jitter]; omega
    dsimp only
    rw [if_neg hzero, hjitter, int64_eq (x := jitter d * 2 + 1) (by omega) (by omega),
      if_neg (by omega)]
    change (if int64 (d + offset seed (jitter d)) < 0 then 0
      else int64 (d + offset seed (jitter d))) = _
    obtain ⟨hlow, hhigh⟩ := offset_bounds seed (show 0 ≤ jitter d by omega)
    rw [fifth] at hfifth
    rw [int64_eq (by omega) (by omega), if_neg (by omega)]

end delay

theorem retryDelay_nonneg (attempts base : Int) (seed : UInt64) :
    (0 : Int) ≤ retryDelay attempts base seed := by
  by_cases hoff : attempts ≤ 1 ∨ base ≤ 0
  · rw [retryDelay, if_pos hoff]
  · have hattempts : 1 < attempts := by omega
    have hbase : 0 < base := by omega
    by_cases hneg : wrappedBackoff attempts base < 0
    · rw [retryDelay_of_neg hattempts hbase seed hneg]
      exact Int.le_of_lt hbase
    · have hnonneg := Int.not_lt.mp hneg
      have hfifth := jitter_le_fifth hnonneg
      have hrange : 0 ≤ jitter (wrappedBackoff attempts base) := by rw [jitter]; omega
      have hoffset := offset_bounds seed hrange
      rw [retryDelay_of_nonneg hattempts hbase seed hnonneg]
      rw [fifth] at hfifth
      omega

/-! ## When the delay is what it should be -/

theorem wrappedBackoff_eq (hbase : 0 < base)
    (hfits : backoff attempts base + fifth (backoff attempts base) < 2 ^ 63) :
    wrappedBackoff attempts base = backoff attempts base := by
  have hle := le_backoff attempts hbase
  rw [fifth] at hfits
  exact int64_eq (by omega) (by omega)

section floor

variable (hattempts : 1 < attempts) (hbase : 0 < base)

include hattempts hbase

/-- All that is left to check is the least delay. -/
theorem backsOff_of_floor {seed : UInt64}
    (hfloor : base - fifth base ≤ retryDelay attempts base seed) :
    BacksOff attempts base (retryDelay attempts base seed) := by
  refine ⟨fun hoff => by omega, fun _ _ hfits => ?_, fun _ _ _ => hfloor⟩
  have heq := wrappedBackoff_eq hbase hfits
  have hpos : 0 ≤ backoff attempts base :=
    Int.le_trans (Int.le_of_lt hbase) (le_backoff attempts hbase)
  have hfifth := jitter_le_fifth hpos
  have hnonneg : 0 ≤ jitter (backoff attempts base) := by rw [jitter]; omega
  obtain ⟨hlow, hhigh⟩ := offset_bounds seed hnonneg
  rw [retryDelay_of_nonneg hattempts hbase seed (heq ▸ hpos), heq]
  omega

theorem backsOff_of_neg (hneg : wrappedBackoff attempts base < 0) (seed : UInt64) :
    BacksOff attempts base (retryDelay attempts base seed) := by
  refine backsOff_of_floor hattempts hbase ?_
  rw [retryDelay_of_neg hattempts hbase seed hneg, fifth]
  omega

/-- The jitter can take away all of its range, so the least delay is what remains then. -/
theorem backsOff_iff_of_nonneg (hnonneg : 0 ≤ wrappedBackoff attempts base) :
    (∀ seed, BacksOff attempts base (retryDelay attempts base seed)) ↔
      base - fifth base ≤
        wrappedBackoff attempts base - jitter (wrappedBackoff attempts base) := by
  have hjitter : 0 ≤ jitter (wrappedBackoff attempts base) := by rw [jitter]; omega
  constructor
  · intro h
    obtain ⟨seed, hseed⟩ := exists_offset (jitter_lt (wrappedBackoff attempts base))
      (Int.le_refl _) (by omega)
    have hleast := (h seed).base_le hattempts hbase
    rwa [retryDelay_of_nonneg hattempts hbase seed hnonneg, hseed] at hleast
  · intro hle seed
    obtain ⟨hlow, -⟩ := offset_bounds seed hjitter
    refine backsOff_of_floor hattempts hbase ?_
    rw [retryDelay_of_nonneg hattempts hbase seed hnonneg]
    omega

end floor

/-- What 64 bits keep of the backoff: all bits of the base but those that are shifted out. -/
def keptBackoff (attempts base : Int) : Int :=
  2 ^ doublings attempts * (base % 2 ^ (64 - doublings attempts))

/-- The bases whose overflows do no harm. -/
def Harmless (attempts base : Int) : Prop :=
  -- there is nothing to wait for
  attempts ≤ 1 ∨ base ≤ 0 ∨
  -- nothing overflows
  base < 2 ^ (63 - doublings attempts) ∨
  -- the sign bit is set, which is noticed
  2 ^ (63 - doublings attempts) ≤ base % 2 ^ (64 - doublings attempts) ∨
  -- bits are lost, and what is left is still not less than the base
  base ≤ keptBackoff attempts base ∨
  -- it is less by up to 20 percent, but 20 percent of it have the sign bit set: no jitter
  4 * base ≤ 5 * keptBackoff attempts base ∧ 2 ^ 63 ≤ 20 * keptBackoff attempts base % 2 ^ 64 ∨
  -- it is less, and 20 percent of it have lost bits as well, which makes the jitter small enough
  4 * base + 5 * (20 * keptBackoff attempts base % 2 ^ 64 / 100) ≤ 5 * keptBackoff attempts base

theorem doublings_le (attempts : Int) : doublings attempts ≤ 6 := by
  rw [doublings]
  omega

theorem pow_eq_doublings_mul {n : ℕ} (hn : 6 ≤ n) (attempts : Int) :
    (2 : Int) ^ n = 2 ^ doublings attempts * 2 ^ (n - doublings attempts) := by
  rw [← Int.pow_add, Nat.add_sub_cancel' ((doublings_le attempts).trans hn)]

theorem keptBackoff_eq (attempts base : Int) :
    keptBackoff attempts base = backoff attempts base % 2 ^ 64 := by
  have hpos : (0 : Int) < 2 ^ doublings attempts := Int.pow_pos (by decide)
  have hsplit := pow_eq_doublings_mul (n := 64) (by decide) attempts
  rw [keptBackoff, backoff, Int.mul_comm base, hsplit, Int.mul_emod_mul_of_pos _ _ hpos]

theorem le_keptBackoff (hbase : 0 < base) (h : base < 2 ^ (63 - doublings attempts)) :
    base ≤ keptBackoff attempts base := by
  have hpow : (2 : Int) ^ (64 - doublings attempts) = 2 ^ (63 - doublings attempts) * 2 := by
    rw [← Int.pow_succ, Nat.succ_sub (by have := doublings_le attempts; omega)]
  rw [keptBackoff, Int.emod_eq_of_lt (Int.le_of_lt hbase) (by omega), Int.mul_comm]
  exact le_backoff attempts hbase

theorem sign_iff (attempts base : Int) :
    2 ^ (63 - doublings attempts) ≤ base % 2 ^ (64 - doublings attempts) ↔
      2 ^ 63 ≤ keptBackoff attempts base := by
  have hpos : (0 : Int) < 2 ^ doublings attempts := Int.pow_pos (by decide)
  have hsplit := pow_eq_doublings_mul (n := 63) (by decide) attempts
  rw [keptBackoff, hsplit]
  exact (Int.mul_le_mul_left hpos).symm

/-- One doubling overflows into the sign bit at most. -/
theorem harmless_of_attempts_le (hattempts : attempts ≤ 3) (hbase : base < 2 ^ 63) :
    Harmless attempts base := by
  by_cases hoff : attempts ≤ 1 ∨ base ≤ 0
  · exact hoff.imp_right .inl
  obtain rfl | rfl : attempts = 2 ∨ attempts = 3 := by omega
  · exact .inr (.inr (.inl hbase))
  · by_cases hsmall : base < 2 ^ 62
    · exact .inr (.inr (.inl hsmall))
    · have hsign : 2 ^ 62 ≤ base % 2 ^ 63 := by omega
      exact .inr (.inr (.inr (.inl hsign)))

/-- The jitter of a backoff whose sign bit is not set, in terms of its 20 percent. -/
theorem least_delay_iff {kept : Int} (hnonneg : 0 ≤ kept) :
    base - fifth base ≤ kept - jitter kept ↔
      base ≤ kept ∨ 4 * base ≤ 5 * kept ∧ 2 ^ 63 ≤ 20 * kept % 2 ^ 64 ∨
        4 * base + 5 * (20 * kept % 2 ^ 64 / 100) ≤ 5 * kept := by
  have hmod : int64 (kept * 20) =
      if 20 * kept % 2 ^ 64 < 2 ^ 63 then 20 * kept % 2 ^ 64 else 20 * kept % 2 ^ 64 - 2 ^ 64 := by
    simp only [int64, Int.bmod_def, Int.mul_comm kept]
    rfl
  have hle : 20 * kept % 2 ^ 64 ≤ 20 * kept := by omega
  have hlt : 20 * kept % 2 ^ 64 < 2 ^ 64 := by omega
  have hpos : 0 ≤ 20 * kept % 2 ^ 64 := by omega
  rw [jitter_eq, hmod, fifth]
  generalize 20 * kept % 2 ^ 64 = share at hle hlt hpos
  split <;> omega

/-- The delay is right for every seed exactly if the overflows of the base do no harm. -/
theorem retryDelay_backsOff_iff (attempts base : Int) :
    (∀ seed, BacksOff attempts base (retryDelay attempts base seed)) ↔ Harmless attempts base := by
  by_cases hoff : attempts ≤ 1 ∨ base ≤ 0
  · refine iff_of_true (fun seed => ?_) (hoff.imp_right .inl)
    exact ⟨fun _ => by rw [retryDelay, if_pos hoff], by omega, by omega⟩
  obtain ⟨hattempts, hbase⟩ : 1 < attempts ∧ 0 < base := by omega
  have hkept := keptBackoff_eq attempts base
  have hsign := sign_iff attempts base
  by_cases hneg : wrappedBackoff attempts base < 0
  · refine iff_of_true (backsOff_of_neg hattempts hbase hneg) ?_
    rw [wrappedBackoff, int64, Int.bmod_def] at hneg
    exact .inr (.inr (.inr (.inl (hsign.mpr (by omega)))))
  · have hwrapped : wrappedBackoff attempts base = keptBackoff attempts base := by
      rw [wrappedBackoff, int64, Int.bmod_def] at hneg ⊢
      omega
    have hlt : wrappedBackoff attempts base < 2 ^ 63 := int64_lt _
    have hexact : base < 2 ^ (63 - doublings attempts) → base ≤ keptBackoff attempts base :=
      le_keptBackoff hbase
    rw [backsOff_iff_of_nonneg hattempts hbase (Int.not_lt.mp hneg), hwrapped,
      least_delay_iff (hwrapped ▸ Int.not_lt.mp hneg), Harmless, hsign]
    constructor
    · exact fun h => .inr (.inr (.inr (.inr h)))
    · rintro (h | h | h | h | h)
      · omega
      · omega
      · exact .inl (hexact h)
      · omega
      · exact h

/-- A base of about nine years, shifted by six bits, overflows to zero. -/
theorem overflowed_delay_is_zero :
    ¬ ∀ seed, BacksOff 8 (2 ^ 58) (retryDelay 8 (2 ^ 58) seed) := by
  intro h
  have hzero : retryDelay 8 (2 ^ 58) 0 = 0 := by decide
  have hdelay := (h 0).floor (by decide) (by decide) (by decide)
  rw [hzero] at hdelay
  revert hdelay
  decide

end TcpAdapter.Manager
