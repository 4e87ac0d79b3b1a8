import TcpAdapter.Codec.Utf8

/-! # Trimming and splitting

The functions of a string library that the bytes of a string determine through its runes. The
parts between separators are trimmed one by one; trimming the whole string before makes no
difference to them. -/

namespace TcpAdapter.Codec

/-- The runes with the Unicode property `White_Space`. -/
def isSpace (r : ℕ) : Bool :=
  (0x09 ≤ r && r ≤ 0x0D) || r == 0x20 || r == 0x85 || r == 0xA0 || r == 0x1680 ||
    (0x2000 ≤ r && r ≤ 0x200A) || r == 0x2028 || r == 0x2029 || r == 0x202F || r == 0x205F ||
      r == 0x3000

def trimLeftFunc (p : ℕ → Bool) (s : List UInt8) : List UInt8 :=
  unrunes ((runes s).dropWhile fun r => p r.1)

def trimRightFunc (p : ℕ → Bool) (s : List UInt8) : List UInt8 :=
  unrunes ((runes s).rdropWhile fun r => p r.1)

def trimFunc (p : ℕ → Bool) (s : List UInt8) : List UInt8 :=
  trimRightFunc p (trimLeftFunc p s)

def trimSpace (s : List UInt8) : List UInt8 :=
  trimFunc isSpace s

/-- The runes are mapped one by one. One that stays is copied, but a byte that counts as a
replacement character becomes one. -/
def mapFunc (f : ℕ → ℕ) (s : List UInt8) : List UInt8 :=
  (runes s).flatMap fun r =>
    if f r.1 = r.1 ∧ (r.1 ≠ runeError ∨ r.2.length ≠ 1) then r.2 else encodeRune (f r.1)

/-- Lower case, if `lower` is that of the runes. A string of ASCII characters needs no runes. -/
def toLower (lower : ℕ → ℕ) (s : List UInt8) : List UInt8 :=
  if s.all (· < 0x80) then s.map fun b => if 0x41 ≤ b ∧ b ≤ 0x5A then b + 32 else b
  else mapFunc lower s

/-- The bytes of an ASCII text. -/
def ascii (text : String) : List UInt8 :=
  text.toList.map fun c => UInt8.ofNat c.toNat

/-! ## Both ends -/

section ends

variable {α : Type} {q : α → Bool}

theorem rdropWhile_cons (x : α) (xs : List α) :
    (x :: xs).rdropWhile q =
      if xs.rdropWhile q = [] then [x].rdropWhile q else x :: xs.rdropWhile q := by
  simp only [List.rdropWhile, List.reverse_cons, List.dropWhile_append, List.isEmpty_iff,
    List.reverse_eq_nil_iff]
  split
  · rfl
  · rw [List.reverse_append]
    rfl

/-- A list without the elements at its ends that pass the test. -/
def trimEnds (q : α → Bool) (xs : List α) : List α :=
  (xs.dropWhile q).rdropWhile q

theorem trimEnds_eq_self {xs : List α} (h : ∀ x ∈ xs, q x = false) : trimEnds q xs = xs := by
  rw [trimEnds, List.dropWhile_eq_self_iff.mpr fun hlen => by simp [h]]
  exact List.rdropWhile_eq_self_iff.mpr fun hne => by simp [h]

/-- It makes no difference which end is trimmed first. -/
theorem dropWhile_rdropWhile (xs : List α) :
    (xs.rdropWhile q).dropWhile q = (xs.dropWhile q).rdropWhile q := by
  induction xs with
  | nil => rfl
  | cons x xs ih =>
      by_cases hx : q x
      · rw [List.dropWhile_cons_of_pos hx, ← ih, rdropWhile_cons]
        split
        · rename_i hnil
          rw [hnil, List.rdropWhile_singleton, if_pos hx]
        · rw [List.dropWhile_cons_of_pos hx]
      · have hkeep : (x :: xs).rdropWhile q = x :: xs.rdropWhile q := by
          rw [rdropWhile_cons, List.rdropWhile_singleton, if_neg hx]
          split
          · rename_i hnil
            rw [hnil]
          · rfl
        rw [List.dropWhile_cons_of_neg hx, hkeep, List.dropWhile_cons_of_neg hx]

end ends

variable {p : ℕ → Bool} {c : UInt8}

theorem runes_trimLeftFunc (s : List UInt8) :
    runes (trimLeftFunc p s) = (runes s).dropWhile fun r => p r.1 :=
  runes_unrunes_right List.takeWhile_append_dropWhile.symm

theorem runes_trimRightFunc (s : List UInt8) :
    runes (trimRightFunc p s) = (runes s).rdropWhile fun r => p r.1 :=
  runes_unrunes_left List.rdropWhile_append_rtakeWhile.symm

theorem trimFunc_eq (s : List UInt8) :
    trimFunc p s = unrunes (trimEnds (fun r => p r.1) (runes s)) := by
  rw [trimFunc, trimRightFunc, runes_trimLeftFunc, trimEnds]

theorem trimFunc_trimLeftFunc (s : List UInt8) : trimFunc p (trimLeftFunc p s) = trimFunc p s := by
  rw [trimFunc_eq, trimFunc_eq, runes_trimLeftFunc, trimEnds, List.dropWhile_idempotent, trimEnds]

theorem trimFunc_trimRightFunc (s : List UInt8) :
    trimFunc p (trimRightFunc p s) = trimFunc p s := by
  rw [trimFunc_eq, trimFunc_eq, runes_trimRightFunc, trimEnds, dropWhile_rdropWhile,
    List.rdropWhile_idempotent, trimEnds]

/-! ## A separator that is not trimmed -/

theorem trimLeftFunc_append (hc : c < 0x80) (hp : p c.toNat = false) (xs ys : List UInt8) :
    trimLeftFunc p (xs ++ c :: ys) = trimLeftFunc p xs ++ c :: ys := by
  have hstop : ((c.toNat, [c]) :: runes ys).dropWhile (fun r => p r.1) =
      (c.toNat, [c]) :: runes ys :=
    List.dropWhile_cons_of_neg (by simp [hp])
  rw [trimLeftFunc, runes_append_ascii hc, List.dropWhile_append]
  split
  · rename_i hnil
    rw [hstop, trimLeftFunc, List.isEmpty_iff.mp hnil, unrunes_cons, unrunes_runes]
    rfl
  · rw [unrunes_append, unrunes_cons, unrunes_runes]
    rfl

theorem trimRightFunc_append (hc : c < 0x80) (hp : p c.toNat = false) (xs ys : List UInt8) :
    trimRightFunc p (xs ++ c :: ys) = xs ++ c :: trimRightFunc p ys := by
  have hstop : ([(c.toNat, [c])] ++ (runes xs).reverse).dropWhile (fun r => p r.1) =
      [(c.toNat, [c])] ++ (runes xs).reverse :=
    List.dropWhile_cons_of_neg (by simp [hp])
  rw [trimRightFunc, runes_append_ascii hc, List.rdropWhile, List.reverse_append,
    List.reverse_cons, List.append_assoc, List.dropWhile_append]
  split
  · rename_i hnil
    rw [hstop, trimRightFunc, List.rdropWhile, List.isEmpty_iff.mp hnil, List.reverse_append,
      List.reverse_reverse, unrunes_append, unrunes_runes]
    rfl
  · rw [List.reverse_append, List.reverse_append, List.reverse_reverse, unrunes_append,
      unrunes_append, unrunes_runes, List.append_assoc]
    rfl

theorem mem_of_mem_trimLeftFunc {b : UInt8} {s : List UInt8} (h : b ∈ trimLeftFunc p s) :
    b ∈ s := by
  have hs := congrArg unrunes (List.takeWhile_append_dropWhile (p := fun r => p r.1) (l := runes s))
  rw [unrunes_append, unrunes_runes] at hs
  rw [← hs]
  exact List.mem_append_right _ h

theorem mem_of_mem_trimRightFunc {b : UInt8} {s : List UInt8} (h : b ∈ trimRightFunc p s) :
    b ∈ s := by
  have hs := congrArg unrunes
    (List.rdropWhile_append_rtakeWhile (p := fun r => p r.1) (l := runes s))
  rw [unrunes_append, unrunes_runes] at hs
  rw [← hs]
  exact List.mem_append_left _ h

theorem splitOn_append_cons (c : UInt8) (xs ys : List UInt8) :
    (xs ++ c :: ys).splitOn c = xs.splitOn c ++ ys.splitOn c :=
  List.splitOnP_append_cons xs ys (beq_self_eq_true c)

theorem not_mem_of_mem_splitOn {part s : List UInt8} (h : part ∈ s.splitOn c) : c ∉ part := by
  induction hn : s.length using Nat.strong_induction_on generalizing s with
  | _ n ih =>
      by_cases hmem : c ∈ s
      · obtain ⟨xs, ys, rfl⟩ := List.append_of_mem hmem
        rw [List.length_append, List.length_cons] at hn
        rw [splitOn_append_cons] at h
        obtain h | h := List.mem_append.mp h
        · exact ih _ (by omega) h rfl
        · exact ih _ (by omega) h rfl
      · rw [List.splitOn_eq_singleton hmem, List.mem_singleton] at h
        rwa [h]

/-- Only the first part of a string has its front trimmed. -/
theorem map_trimFunc_splitOn_left (hc : c < 0x80) (hp : p c.toNat = false) (s : List UInt8) :
    ((trimLeftFunc p s).splitOn c).map (trimFunc p) = (s.splitOn c).map (trimFunc p) := by
  induction hn : s.length using Nat.strong_induction_on generalizing s with
  | _ n ih =>
      by_cases hmem : c ∈ s
      · obtain ⟨xs, ys, rfl⟩ := List.append_of_mem hmem
        have hlen : xs.length < n := by
          rw [← hn, List.length_append, List.length_cons]
          omega
        rw [trimLeftFunc_append hc hp, splitOn_append_cons, splitOn_append_cons, List.map_append,
          List.map_append, ih _ hlen xs rfl]
      · have hmem' := mt (mem_of_mem_trimLeftFunc (p := p)) hmem
        rw [List.splitOn_eq_singleton hmem, List.splitOn_eq_singleton hmem', List.map_singleton,
          List.map_singleton, trimFunc_trimLeftFunc]

theorem map_trimFunc_splitOn_right (hc : c < 0x80) (hp : p c.toNat = false) (s : List UInt8) :
    ((trimRightFunc p s).splitOn c).map (trimFunc p) = (s.splitOn c).map (trimFunc p) := by
  induction hn : s.length using Nat.strong_induction_on generalizing s with
  | _ n ih =>
      by_cases hmem : c ∈ s
      · obtain ⟨xs, ys, rfl⟩ := List.append_of_mem hmem
        have hlen : ys.length < n := by
          rw [← hn, List.length_append, List.length_cons]
          omega
        rw [trimRightFunc_append hc hp, splitOn_append_cons, splitOn_append_cons, List.map_append,
          List.map_append, ih _ hlen ys rfl]
      · rw [List.splitOn_eq_singleton hmem,
          List.splitOn_eq_singleton (mt mem_of_mem_trimRightFunc hmem), List.map_singleton,
          List.map_singleton, trimFunc_trimRightFunc]

/-- Trimming the whole string changes nothing for its parts. -/
theorem map_trimFunc_splitOn (hc : c < 0x80) (hp : p c.toNat = false) (s : List UInt8) :
    ((trimFunc p s).splitOn c).map (trimFunc p) = (s.splitOn c).map (trimFunc p) := by
  rw [trimFunc, map_trimFunc_splitOn_right hc hp, map_trimFunc_splitOn_left hc hp]

end TcpAdapter.Codec
