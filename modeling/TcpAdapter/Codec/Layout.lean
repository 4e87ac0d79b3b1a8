import Mathlib.Algebra.GroupWithZero.Nat

/-! # Fixed layouts

A record is built by writing its fields into a buffer of blanks, in the order of their
offsets: it becomes the fields in a row. If each field is what stands at its place in a given
list, the buffer becomes this list. -/

namespace TcpAdapter.Codec

variable {α : Type}

/-- The `n` elements from `off` on. -/
def slice (xs : List α) (off n : ℕ) : List α :=
  (xs.drop off).take n

/-- Overwrite what stands from `off` on. -/
def writeAt (out : List α) (off : ℕ) (xs : List α) : List α :=
  out.take off ++ xs ++ out.drop (off + xs.length)

/-- The parts of these lengths, from `off` on. -/
def cut : List ℕ → ℕ → List α → List (List α)
  | [], _, _ => []
  | k :: ks, off, xs => slice xs off k :: cut ks (off + k) xs

/-- The buffer begins with the fields, which are `n` elements long; the others are blank. -/
structure Laid (blank : α) (size : ℕ) (out : List α) (fields : List (List α)) (n : ℕ) :
    Prop where
  le : n ≤ size
  length : fields.flatten.length = n
  eq : out = fields.flatten ++ List.replicate (size - n) blank

/-- The first `n` elements of `out` are those of `goal`, the others are blank. -/
structure Filled (blank : α) (goal out : List α) (n : ℕ) : Prop where
  le : n ≤ goal.length
  eq : out = goal.take n ++ List.replicate (goal.length - n) blank

variable {blank : α} {goal out xs : List α} {fields : List (List α)} {size n k : ℕ}

/-! ## Parts of a list -/

theorem length_slice (h : n + k ≤ goal.length) : (slice goal n k).length = k := by
  rw [slice, List.length_take, List.length_drop]
  omega

theorem slice_add (xs : List α) (off m n : ℕ) :
    slice xs off (m + n) = slice xs off m ++ slice xs (off + m) n := by
  rw [slice, List.take_add, List.drop_drop]
  rfl

theorem slice_slice {m : ℕ} (xs : List α) (off : ℕ) (h : n + k ≤ m) :
    slice (slice xs off m) n k = slice xs (off + n) k := by
  rw [slice, slice, slice, List.drop_take, List.drop_drop, List.take_take]
  congr 1
  omega

theorem take_append_slice (goal : List α) (n k : ℕ) :
    goal.take n ++ slice goal n k = goal.take (n + k) :=
  List.take_add.symm

theorem cut_append (ks ls : List ℕ) (off : ℕ) (xs : List α) :
    cut (ks ++ ls) off xs = cut ks off xs ++ cut ls (off + ks.sum) xs := by
  induction ks generalizing off with
  | nil => rfl
  | cons k ks ih => rw [List.cons_append, cut, ih, List.sum_cons, ← Nat.add_assoc]; rfl

theorem flatten_cut (ks : List ℕ) (off : ℕ) (h : off + ks.sum = xs.length) :
    (cut ks off xs).flatten = xs.drop off := by
  induction ks generalizing off with
  | nil =>
      rw [List.sum_nil, Nat.add_zero] at h
      rw [h, List.drop_length]
      rfl
  | cons k ks ih =>
      rw [List.sum_cons, ← Nat.add_assoc] at h
      rw [cut, List.flatten_cons, ih (off + k) h, slice, ← List.drop_drop, List.take_append_drop]

/-- Fields in a row are found again by their lengths. -/
theorem cut_flatten (fields : List (List α)) (before : List α) :
    cut (fields.map List.length) before.length (before ++ fields.flatten) = fields := by
  induction fields generalizing before with
  | nil => rfl
  | cons f rest ih =>
      have hrest := ih (before ++ f)
      rw [List.length_append, List.append_assoc] at hrest
      rw [List.map_cons, cut, List.flatten_cons, hrest, slice, List.drop_left, List.take_left]

/-- A whole list is the fields in a row exactly if cutting it gives the fields. -/
theorem eq_flatten_iff (ks : List ℕ) (hks : fields.map List.length = ks)
    (hlen : xs.length = ks.sum) : xs = fields.flatten ↔ cut ks 0 xs = fields := by
  constructor
  · rintro rfl
    rw [← hks]
    exact cut_flatten fields []
  · rintro rfl
    rw [flatten_cut ks 0 (by omega), List.drop_zero]

/-! ## Writing -/

theorem length_writeAt {off : ℕ} (h : off + xs.length ≤ out.length) :
    (writeAt out off xs).length = out.length := by
  simp only [writeAt, List.length_append, List.length_take, List.length_drop]
  omega

/-- Two pieces one after the other. -/
theorem writeAt_writeAt {off : ℕ} (ys : List α) (h : off + xs.length ≤ out.length) :
    writeAt (writeAt out off xs) (off + xs.length) ys = writeAt out off (xs ++ ys) := by
  have hfront : (out.take off ++ xs).length = off + xs.length := by
    rw [List.length_append, List.length_take]
    omega
  have hback : (writeAt out off xs).drop (off + xs.length + ys.length) =
      out.drop (off + xs.length + ys.length) := by
    rw [writeAt, ← hfront, ← List.drop_drop, List.drop_left, hfront, List.drop_drop]
  rw [writeAt, hback, writeAt, List.take_left' hfront, writeAt, List.length_append,
    ← Nat.add_assoc, List.append_assoc (out.take off) xs ys]

/-! ## Fields in a row -/

theorem Laid.start (blank : α) (size : ℕ) :
    Laid blank size (List.replicate size blank) [] 0 :=
  ⟨Nat.zero_le _, rfl, rfl⟩

theorem Laid.write (h : Laid blank size out fields n) (hxs : xs.length = k)
    (hk : n + k ≤ size) : Laid blank size (writeAt out n xs) (fields ++ [xs]) (n + k) := by
  have hflat : (fields ++ [xs]).flatten = fields.flatten ++ xs := by simp
  refine ⟨hk, by rw [hflat, List.length_append, h.length, hxs], ?_⟩
  have htake : out.take n = fields.flatten := by
    rw [h.eq, ← h.length, List.take_left]
  have hdrop : out.drop (n + xs.length) = List.replicate (size - (n + k)) blank := by
    rw [h.eq, ← List.drop_drop, ← h.length, List.drop_left, List.drop_replicate, hxs, h.length]
    congr 1
    omega
  rw [writeAt, htake, hdrop, hflat]

/-- A place that nobody writes to. -/
theorem Laid.skip (h : Laid blank size out fields n) (hk : n + k ≤ size) :
    Laid blank size out (fields ++ [List.replicate k blank]) (n + k) := by
  have hflat : (fields ++ [List.replicate k blank]).flatten =
      fields.flatten ++ List.replicate k blank := by simp
  refine ⟨hk, by rw [hflat, List.length_append, h.length, List.length_replicate], ?_⟩
  rw [h.eq, hflat, List.append_assoc, List.replicate_append_replicate]
  congr 2
  omega

theorem Laid.regroup {fields' : List (List α)} (h : Laid blank size out fields n)
    (hflat : fields.flatten = fields'.flatten) : Laid blank size out fields' n :=
  ⟨h.le, hflat ▸ h.length, hflat ▸ h.eq⟩

theorem Laid.done (h : Laid blank size out fields n) (hn : n = size) : out = fields.flatten := by
  rw [h.eq, hn]
  simp

/-! ## A buffer on its way to a goal -/

theorem Filled.laid (h : Filled blank goal out n) :
    Laid blank goal.length out [goal.take n] n :=
  ⟨h.le, by simp [Nat.min_eq_left h.le], by simpa using h.eq⟩

theorem Filled.start (blank : α) (goal : List α) :
    Filled blank goal (List.replicate goal.length blank) 0 :=
  ⟨Nat.zero_le _, by simp⟩

/-- A field that stands at its place in the goal. -/
theorem Filled.write (h : Filled blank goal out n) (hk : n + k ≤ goal.length)
    (hxs : xs = slice goal n k) : Filled blank goal (writeAt out n xs) (n + k) := by
  subst hxs
  refine ⟨hk, (h.laid.write (length_slice hk) hk).eq.trans ?_⟩
  rw [← take_append_slice]
  simp

/-- A place that nobody writes to and that is blank in the goal. -/
theorem Filled.skip (h : Filled blank goal out n) (hk : n + k ≤ goal.length)
    (hblank : slice goal n k = List.replicate k blank) : Filled blank goal out (n + k) := by
  refine ⟨hk, (h.laid.skip hk).eq.trans ?_⟩
  rw [← take_append_slice, hblank]
  simp

theorem Filled.done (h : Filled blank goal out n) (hn : n = goal.length) : out = goal := by
  subst hn
  rw [h.eq]
  simp

end TcpAdapter.Codec
