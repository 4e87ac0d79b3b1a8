import Mathlib.Algebra.Group.Nat.Defs
import Mathlib.Data.List.DropRight
import Mathlib.Tactic.SplitIfs

/-! # Bytes read as runes

A string is a list of bytes. It is read as UTF-8, rune after rune: a byte that no encoding
accounts for counts as one replacement character. The encodings of the runes put in a row are
the string, whatever its bytes are. -/

namespace TcpAdapter.Codec

/-- The replacement character. -/
def runeError : ℕ := 0xFFFD

/-- The number of bytes that follow the first byte of a longer encoding, and the range of the
second one. -/
def following (b : UInt8) : Option (ℕ × UInt8 × UInt8) :=
  if 0xC2 ≤ b ∧ b ≤ 0xDF then some (1, 0x80, 0xBF)
  else if b = 0xE0 then some (2, 0xA0, 0xBF)
  else if b = 0xED then some (2, 0x80, 0x9F)
  else if 0xE1 ≤ b ∧ b ≤ 0xEF then some (2, 0x80, 0xBF)
  else if b = 0xF0 then some (3, 0x90, 0xBF)
  else if b = 0xF4 then some (3, 0x80, 0x8F)
  else if 0xF1 ≤ b ∧ b ≤ 0xF3 then some (3, 0x80, 0xBF)
  else none

def isContinuation (b : UInt8) : Bool :=
  0x80 ≤ b && b ≤ 0xBF

/-- The bytes complete an encoding that wants `n` of them, the first one in the range. -/
def Completes (n : ℕ) (lo hi : UInt8) (tail : List UInt8) : Prop :=
  tail.length = n ∧ lo ≤ tail.headD 0 ∧ tail.headD 0 ≤ hi ∧ tail.all isContinuation

instance (n : ℕ) (lo hi : UInt8) (tail : List UInt8) : Decidable (Completes n lo hi tail) :=
  inferInstanceAs (Decidable (_ ∧ _ ∧ _ ∧ _))

/-- The rune at the front of a string, and how many bytes after the first one belong to it. -/
def decodeRune (b : UInt8) (rest : List UInt8) : ℕ × ℕ :=
  if b < 0x80 then (b.toNat, 0)
  else
    match following b with
    | none => (runeError, 0)
    | some (n, lo, hi) =>
        if Completes n lo hi (rest.take n) then
          ((rest.take n).foldl (fun r c => r * 64 + c.toNat % 64) (b.toNat % 2 ^ (6 - n)), n)
        else (runeError, 0)

/-- The runes of a string from a place on that is the given number of bytes away, each with its
bytes. -/
def runesFrom : ℕ → List UInt8 → List (ℕ × List UInt8)
  | _, [] => []
  | skip + 1, _ :: rest => runesFrom skip rest
  | 0, b :: rest =>
      let decoded := decodeRune b rest
      (decoded.1, b :: rest.take decoded.2) :: runesFrom decoded.2 rest

def runes (s : List UInt8) : List (ℕ × List UInt8) :=
  runesFrom 0 s

/-- The bytes of runes in a row. -/
def unrunes (rs : List (ℕ × List UInt8)) : List UInt8 :=
  rs.flatMap Prod.snd

/-- The encoding of a rune; surrogates and numbers out of range become the replacement
character. -/
def encodeRune (r : ℕ) : List UInt8 :=
  let r := if (0xD800 ≤ r ∧ r ≤ 0xDFFF) ∨ 0x10FFFF < r then runeError else r
  let tail := fun k => UInt8.ofNat (0x80 + r / 64 ^ k % 64)
  if r < 0x80 then [UInt8.ofNat r]
  else if r < 0x800 then [UInt8.ofNat (0xC0 + r / 64), tail 0]
  else if r < 0x10000 then [UInt8.ofNat (0xE0 + r / 64 ^ 2), tail 1, tail 0]
  else [UInt8.ofNat (0xF0 + r / 64 ^ 3), tail 2, tail 1, tail 0]

/-! ## The runes of a string -/

variable {b c : UInt8} {rest xs ys : List UInt8}

theorem runesFrom_eq (skip : ℕ) (s : List UInt8) : runesFrom skip s = runes (s.drop skip) := by
  induction s generalizing skip with
  | nil => rw [List.drop_nil]; cases skip <;> rfl
  | cons b rest ih =>
      cases skip with
      | zero => rfl
      | succ skip => exact ih skip

@[simp] theorem runes_nil : runes [] = [] := rfl

theorem runes_cons (b : UInt8) (rest : List UInt8) :
    runes (b :: rest) = ((decodeRune b rest).1, b :: rest.take (decodeRune b rest).2) ::
      runes (rest.drop (decodeRune b rest).2) :=
  congrArg (_ :: ·) (runesFrom_eq _ rest)

@[simp] theorem unrunes_cons (r : ℕ × List UInt8) (rs : List (ℕ × List UInt8)) :
    unrunes (r :: rs) = r.2 ++ unrunes rs := rfl

theorem unrunes_append (rs rs' : List (ℕ × List UInt8)) :
    unrunes (rs ++ rs') = unrunes rs ++ unrunes rs' :=
  List.flatMap_append

/-- No byte is lost. -/
@[simp] theorem unrunes_runes (s : List UInt8) : unrunes (runes s) = s := by
  induction hn : s.length using Nat.strong_induction_on generalizing s with
  | _ n ih =>
      cases s with
      | nil => rfl
      | cons b rest =>
          have hlen : (rest.drop (decodeRune b rest).2).length < n := by
            rw [← hn, List.length_drop, List.length_cons]
            omega
          rw [runes_cons, unrunes_cons, ih _ hlen _ rfl, List.cons_append, List.take_append_drop]

/-! ## Where a rune ends -/

theorem decodeRune_ascii (hb : b < 0x80) (rest : List UInt8) : decodeRune b rest = (b.toNat, 0) :=
  if_pos hb

/-- What follows the bytes of a rune plays no part in it. -/
theorem decodeRune_append (h : (decodeRune b (xs ++ ys)).2 ≤ xs.length) :
    decodeRune b (xs ++ ys) = decodeRune b xs := by
  simp only [decodeRune] at h ⊢
  by_cases hb : b < 0x80
  · simp only [hb, if_true]
  · simp only [hb, if_false] at h ⊢
    cases hfollowing : following b with
    | none => rfl
    | some f =>
        obtain ⟨n, lo, hi⟩ := f
        simp only [hfollowing] at h ⊢
        have htake : n ≤ xs.length → (xs ++ ys).take n = xs.take n := List.take_append_of_le_length
        by_cases hfull : Completes n lo hi ((xs ++ ys).take n)
        · simp only [hfull, if_true] at h ⊢
          rw [htake h] at hfull ⊢
          simp only [hfull, if_true]
        · have hpart : ¬ Completes n lo hi (xs.take n) := by
            intro hpart
            have hn : n ≤ xs.length := by
              rw [← hpart.1]
              exact List.length_take_le' n xs
            exact hfull (htake hn ▸ hpart)
          simp only [hfull, hpart, if_false]

theorem decodeRune_le (b : UInt8) (rest : List UInt8) : (decodeRune b rest).2 ≤ rest.length := by
  rw [decodeRune]
  split
  · exact Nat.zero_le _
  · split
    · exact Nat.zero_le _
    · split
      · rename_i hfull
        rw [← hfull.1]
        exact List.length_take_le' _ rest
      · exact Nat.zero_le _

/-- An ASCII byte is no part of a longer encoding. -/
theorem decodeRune_append_ascii (hc : c < 0x80) (b : UInt8) (xs ys : List UInt8) :
    decodeRune b (xs ++ c :: ys) = decodeRune b xs := by
  refine decodeRune_append ?_
  rw [decodeRune]
  split
  · exact Nat.zero_le _
  · split
    · exact Nat.zero_le _
    · rename_i n lo hi _
      split
      · rename_i hfull
        by_contra hlt
        have hmem : c ∈ (xs ++ c :: ys).take n := by
          rw [List.take_append, List.mem_append]
          refine Or.inr ?_
          obtain ⟨k, hk⟩ : ∃ k, n - xs.length = k + 1 := ⟨n - xs.length - 1, by omega⟩
          rw [hk]
          exact List.mem_cons_self
        have hcontinuation := List.all_eq_true.mp hfull.2.2.2 c hmem
        simp only [isContinuation, Bool.and_eq_true, decide_eq_true_eq] at hcontinuation
        exact absurd hc (UInt8.not_lt.mpr hcontinuation.1)
      · exact Nat.zero_le _

theorem runes_append_ascii (hc : c < 0x80) (xs ys : List UInt8) :
    runes (xs ++ c :: ys) = runes xs ++ (c.toNat, [c]) :: runes ys := by
  induction hn : xs.length using Nat.strong_induction_on generalizing xs with
  | _ n ih =>
      cases xs with
      | nil =>
          rw [List.nil_append, runes_cons, decodeRune_ascii hc]
          rfl
      | cons b xs =>
          have hle := decodeRune_le b xs
          have hlen : (xs.drop (decodeRune b xs).2).length < n := by
            rw [← hn, List.length_drop, List.length_cons]
            omega
          rw [List.cons_append, runes_cons, runes_cons, decodeRune_append_ascii hc,
            List.take_append_of_le_length hle, List.drop_append_of_le_length hle, ih _ hlen _ rfl]
          rfl

/-- The runes from some place on are those of the bytes from there on. -/
theorem runes_unrunes_right {s : List UInt8} {rs rs' : List (ℕ × List UInt8)}
    (h : runes s = rs ++ rs') : runes (unrunes rs') = rs' := by
  induction rs generalizing s with
  | nil =>
      have hs := congrArg unrunes h
      rw [unrunes_runes, List.nil_append] at hs
      rw [← hs, h]
      rfl
  | cons r rs ih =>
      cases s with
      | nil => cases h
      | cons b rest =>
          rw [runes_cons] at h
          exact ih (List.cons.inj h).2

/-- The runes up to some place are those of the bytes up to there. -/
theorem runes_unrunes_left {s : List UInt8} {rs rs' : List (ℕ × List UInt8)}
    (h : runes s = rs ++ rs') : runes (unrunes rs) = rs := by
  induction rs generalizing s with
  | nil => rfl
  | cons r rs ih =>
      cases s with
      | nil => cases h
      | cons b rest =>
          rw [runes_cons, List.cons_append] at h
          obtain ⟨hr, hrest⟩ := List.cons.inj h
          set n := (decodeRune b rest).2 with hn
          have hbytes : rest = (rest.take n ++ unrunes rs) ++ unrunes rs' := by
            have hdrop := congrArg unrunes hrest
            rw [unrunes_runes, unrunes_append] at hdrop
            rw [List.append_assoc, ← hdrop, List.take_append_drop]
          have htake : (rest.take n).length = n :=
            List.length_take_of_le (decodeRune_le b rest)
          have hsame : decodeRune b (rest.take n ++ unrunes rs) = decodeRune b rest := by
            conv_rhs => rw [hbytes]
            refine (decodeRune_append ?_).symm
            rw [← hbytes, ← hn, List.length_append, htake]
            exact Nat.le_add_right _ _
          rw [unrunes_cons, ← hr, List.cons_append, runes_cons, hsame, ← hn,
            List.take_left' htake, List.drop_left' htake, ih hrest]

/-! ## Runes that are ASCII -/

/-- The bits of the first byte or of the second one make the rune large. -/
theorem following_bits {n : ℕ} {lo hi : UInt8} (h : following b = some (n, lo, hi)) :
    n = 1 ∧ 2 ≤ b.toNat % 32 ∨ n = 2 ∧ (1 ≤ b.toNat % 16 ∨ 0xA0 ≤ lo.toNat ∧ hi.toNat ≤ 0xBF) ∨
      n = 3 ∧ (1 ≤ b.toNat % 8 ∨ 0x90 ≤ lo.toNat ∧ hi.toNat ≤ 0xBF) := by
  have hlt := b.toNat_lt
  simp only [following, UInt8.le_iff_toNat_le, ← UInt8.toNat_inj, UInt8.reduceToNat] at h
  split_ifs at h <;> obtain ⟨rfl, rfl, rfl⟩ := h <;>
    simp only [UInt8.reduceToNat, true_and] <;> omega

/-- There is one way to encode a rune, so a longer encoding is not that of an ASCII rune. -/
theorem le_decodeRune (hb : 0x80 ≤ b) (rest : List UInt8) : 0x80 ≤ (decodeRune b rest).1 := by
  simp only [decodeRune, UInt8.not_lt.mpr hb, if_false]
  cases hfollowing : following b with
  | none => exact Nat.le_of_ble_eq_true rfl
  | some f =>
      obtain ⟨n, lo, hi⟩ := f
      simp only
      split
      · rename_i hfull
        obtain ⟨hlen, hlo, hhi, -⟩ := hfull
        rw [UInt8.le_iff_toNat_le] at hlo hhi
        obtain ⟨rfl, hbits⟩ | ⟨rfl, hbits⟩ | ⟨rfl, hbits⟩ := following_bits hfollowing
        · obtain ⟨c, hc⟩ := List.length_eq_one_iff.mp hlen
          simp only [hc, List.foldl_cons, List.foldl_nil]
          omega
        · obtain ⟨c, d, hc⟩ := List.length_eq_two.mp hlen
          simp only [hc, List.headD_cons, List.foldl_cons, List.foldl_nil] at hlo hhi ⊢
          omega
        · obtain ⟨c, d, e, hc⟩ := List.length_eq_three.mp hlen
          simp only [hc, List.headD_cons, List.foldl_cons, List.foldl_nil] at hlo hhi ⊢
          omega
      · decide

/-- A test that only ASCII runes pass looks at the bytes. -/
theorem forall_runes {p : ℕ → Prop} (hp : ∀ r, p r → r < 0x80) (s : List UInt8) :
    (∀ r ∈ runes s, p r.1) ↔ ∀ b ∈ s, p b.toNat := by
  induction hn : s.length using Nat.strong_induction_on generalizing s with
  | _ n ih =>
      cases s with
      | nil => simp
      | cons b rest =>
          rw [runes_cons, List.forall_mem_cons, List.forall_mem_cons]
          by_cases hb : b < 0x80
          · have hlen : rest.length < n := by rw [← hn]; exact Nat.lt_succ_self _
            rw [decodeRune_ascii hb, List.drop_zero, ih _ hlen rest rfl]
          · have hb : 0x80 ≤ b := UInt8.not_lt.mp hb
            refine iff_of_false (fun h => ?_) (fun h => ?_)
            · exact absurd (hp _ h.1) (Nat.not_lt.mpr (le_decodeRune hb rest))
            · exact absurd (hp _ h.1) (Nat.not_lt.mpr (UInt8.le_iff_toNat_le.mp hb))

/-- The place of the first rune that passes a test, or -1. -/
def indexFunc (p : ℕ → Bool) (s : List UInt8) : Int :=
  let before := (runes s).takeWhile fun r => !p r.1
  if before.length = (runes s).length then -1 else (unrunes before).length

theorem indexFunc_eq_neg_one {p : ℕ → Bool} {s : List UInt8} :
    indexFunc p s = -1 ↔ ∀ r ∈ runes s, p r.1 = false := by
  have hall : ((runes s).takeWhile fun r => !p r.1).length = (runes s).length ↔
      ∀ r ∈ runes s, p r.1 = false := by
    have hself := List.takeWhile_eq_self_iff (p := fun r : ℕ × List UInt8 => !p r.1) (l := runes s)
    simp only [Bool.not_eq_true'] at hself
    rw [← hself]
    exact ⟨(List.takeWhile_prefix _).eq_of_length, congrArg List.length⟩
  simp only [indexFunc]
  split
  · rename_i h
    exact iff_of_true rfl (hall.mp h)
  · rename_i h
    exact iff_of_false (by omega) (mt hall.mpr h)

end TcpAdapter.Codec
