import Mathlib.Data.List.Nodup
import Mathlib.Data.List.Sort
import Mathlib.Data.Prod.Lex
import TcpAdapter.Verification.Queue

/-! # Eviction is oldest first

`dropOldest` scans the buffers for the command with the earliest creation time, the first
one of equals. Evicting again and again removes the queued commands in one order: by
creation time, then by buffer, then by position. -/

namespace TcpAdapter.Queue.ControllerQueue

open List

/-- The candidate stands where it says. -/
def Candidate.InQueue (q : ControllerQueue) (p : Candidate) : Prop :=
  (q.buffer p.buf)[p.idx]? = some p.cmd

/-! ## The order of eviction -/

def Buffer.rank : Buffer → ℕ
  | .high => 0
  | .fw => 1
  | .sync => 2
  | .query => 3

theorem Buffer.rank_inj {b b' : Buffer} (h : b.rank = b'.rank) : b = b' := by
  cases b <;> cases b' <;> first | rfl | cases h

namespace Candidate

/-- Where the scan comes by. -/
def place (p : Candidate) : ℕ ×ₗ ℕ :=
  toLex (p.buf.rank, p.idx)

/-- The creation time, then the buffer, then the position. -/
def age (p : Candidate) : Time ×ₗ ℕ ×ₗ ℕ :=
  toLex (p.cmd.createdAt, p.place)

theorem place_le {p p' : Candidate} :
    p.place ≤ p'.place ↔ p.buf.rank < p'.buf.rank ∨ p.buf.rank = p'.buf.rank ∧ p.idx ≤ p'.idx :=
  Prod.Lex.toLex_le_toLex

theorem age_le {p p' : Candidate} :
    p.age ≤ p'.age ↔
      p.cmd.createdAt < p'.cmd.createdAt ∨
        p.cmd.createdAt = p'.cmd.createdAt ∧ p.place ≤ p'.place :=
  Prod.Lex.toLex_le_toLex

end Candidate

/-! ## The oldest candidate -/

/-- The pick is the oldest of the candidates that were considered. -/
structure Oldest (seen : Candidate → Prop) (pick : Option Candidate) : Prop where
  found : pick = none → ∀ p, ¬ seen p
  mem : ∀ p ∈ pick, seen p
  older : ∀ p ∈ pick, ∀ p', seen p' → p.age ≤ p'.age

/-- A candidate that comes after those seen replaces the pick if it is strictly older. -/
theorem Oldest.next {seen : Candidate → Prop} {pick : Option Candidate} {new : Candidate}
    (h : Oldest seen pick) (hafter : ∀ p, seen p → p.place ≤ new.place) :
    Oldest (fun p => seen p ∨ p = new)
      (match pick with
        | none => some new
        | some p => if new.cmd.createdAt < p.cmd.createdAt then some new else some p) := by
  cases pick with
  | none =>
      refine ⟨by simp, by simp, ?_⟩
      rintro p ⟨⟩ p' (hp' | rfl)
      · exact absurd hp' (h.found rfl p')
      · exact le_rfl
  | some p =>
      dsimp only
      split
      · rename_i hlt
        have hnew : new.age ≤ p.age := Candidate.age_le.mpr (.inl hlt)
        refine ⟨by simp, by simp, ?_⟩
        rintro _ ⟨⟩ p' (hp' | rfl)
        · exact hnew.trans (h.older p rfl p' hp')
        · exact le_rfl
      · rename_i hge
        have hseen := h.mem p rfl
        refine ⟨by simp, by rintro _ ⟨⟩; exact .inl hseen, ?_⟩
        rintro _ ⟨⟩ p' (hp' | rfl)
        · exact h.older p rfl p' hp'
        · refine Candidate.age_le.mpr ((lt_or_eq_of_le (not_lt.mp hge)).imp_right fun heq => ?_)
          exact ⟨heq, hafter p hseen⟩

/-- The candidates of a buffer from position `i` on. -/
def Candidate.From (buf : Buffer) (i : ℕ) (cmds : List Command) (p : Candidate) : Prop :=
  p.buf = buf ∧ ∃ j, p.idx = i + j ∧ cmds[j]? = some p.cmd

theorem Candidate.from_cons {buf : Buffer} {i : ℕ} {c : Command} {cmds : List Command}
    {p : Candidate} :
    p.From buf i (c :: cmds) ↔ p = ⟨buf, i, c⟩ ∨ p.From buf (i + 1) cmds := by
  constructor
  · rintro ⟨hbuf, j, hidx, hget⟩
    cases j with
    | zero =>
        obtain ⟨b, k, c'⟩ := p
        cases hbuf
        cases hidx
        cases hget
        exact .inl rfl
    | succ j => exact .inr ⟨hbuf, j, by omega, hget⟩
  · rintro (rfl | ⟨hbuf, j, hidx, hget⟩)
    · exact ⟨rfl, 0, rfl, rfl⟩
    · exact ⟨hbuf, j + 1, by omega, hget⟩

/-- A buffer is considered from position `i` on, after everything that stands before it. -/
theorem Oldest.consider {seen : Candidate → Prop} {pick : Option Candidate} {buf : Buffer} {i : ℕ}
    {cmds : List Command} (h : Oldest seen pick)
    (hafter : ∀ p c, seen p → p.place ≤ (Candidate.mk buf i c).place) :
    Oldest (fun p => seen p ∨ p.From buf i cmds) (consider buf cmds i pick) := by
  induction cmds generalizing i pick seen with
  | nil =>
      have hsame : (fun p => seen p ∨ p.From buf i []) = seen := by
        funext p
        simp [Candidate.From]
      rw [hsame]
      exact h
  | cons c rest ih =>
      have hnext := h.next fun p hp => hafter p c hp
      have hafter' : ∀ p c', seen p ∨ p = ⟨buf, i, c⟩ →
          p.place ≤ (Candidate.mk buf (i + 1) c').place := by
        rintro p c' (hp | rfl)
        · exact (hafter p c' hp).trans (Candidate.place_le.mpr (.inr ⟨rfl, Nat.le_succ i⟩))
        · exact Candidate.place_le.mpr (.inr ⟨rfl, Nat.le_succ i⟩)
      have hseen : (fun p => seen p ∨ p.From buf i (c :: rest)) =
          fun p => (seen p ∨ p = ⟨buf, i, c⟩) ∨ p.From buf (i + 1) rest := by
        funext p
        rw [Candidate.from_cons, or_assoc]
      rw [hseen]
      have hrest := ih hnext hafter'
      cases pick with
      | none => exact hrest
      | some p =>
          simp only [ControllerQueue.consider]
          split
          · rename_i hlt
            simpa only [hlt, if_true] using hrest
          · rename_i hge
            simpa only [hge, if_false] using hrest

theorem Candidate.inQueue_iff {q : ControllerQueue} {p : Candidate} :
    p.InQueue q ↔ ∃ b, p.From b 0 (q.buffer b) := by
  constructor
  · intro h
    exact ⟨p.buf, rfl, p.idx, (Nat.zero_add _).symm, h⟩
  · rintro ⟨b, rfl, j, hidx, hget⟩
    rw [Nat.zero_add] at hidx
    rw [InQueue, hidx]
    exact hget

/-- The scan goes on to the next buffer. -/
theorem Oldest.scan {q : ControllerQueue} {done : List Buffer} {b : Buffer}
    {pick : Option Candidate} (h : Oldest (fun p => ∃ b' ∈ done, p.From b' 0 (q.buffer b')) pick)
    (hrank : ∀ b' ∈ done, b'.rank < b.rank) :
    Oldest (fun p => ∃ b' ∈ done ++ [b], p.From b' 0 (q.buffer b'))
      (ControllerQueue.consider b (q.buffer b) 0 pick) := by
  have hseen : (fun p : Candidate => ∃ b' ∈ done ++ [b], p.From b' 0 (q.buffer b')) =
      fun p => (∃ b' ∈ done, p.From b' 0 (q.buffer b')) ∨ p.From b 0 (q.buffer b) := by
    funext p
    simp [or_and_right, exists_or]
  rw [hseen]
  refine h.consider ?_
  rintro p c ⟨b', hb', rfl, -⟩
  exact Candidate.place_le.mpr (.inl (hrank _ hb'))

theorem oldest_of_queue (q : ControllerQueue) :
    Oldest (fun p => p.InQueue q)
      (consider .query q.query 0 (consider .sync q.sync 0 (consider .fw q.fw 0
        (consider .high q.high 0 none)))) := by
  have hnone : Oldest (fun p => ∃ b' ∈ ([] : List Buffer), p.From b' 0 (q.buffer b')) none :=
    ⟨by simp, by simp, by simp⟩
  have hhigh := hnone.scan (b := .high) (by simp)
  have hfw := hhigh.scan (b := .fw) (by decide)
  have hsync := hfw.scan (b := .sync) (by decide)
  have hquery := hsync.scan (b := .query) (by decide)
  have hseen : (fun p : Candidate => p.InQueue q) = fun p =>
      ∃ b ∈ [] ++ [Buffer.high] ++ [.fw] ++ [.sync] ++ [.query], p.From b 0 (q.buffer b) := by
    funext p
    rw [Candidate.inQueue_iff]
    refine propext (exists_congr fun b => (and_iff_right ?_).symm)
    cases b <;> decide
  rw [hseen]
  exact hquery

/-- `dropOldest` finds the queue empty, or it takes out the oldest candidate. -/
theorem dropOldest_cases (q : ControllerQueue) :
    (q.dropOldest = (none, q) ∧ ∀ p : Candidate, ¬ p.InQueue q) ∨
      ∃ p : Candidate, p.InQueue q ∧ (∀ p' : Candidate, p'.InQueue q → p.age ≤ p'.age) ∧
        q.dropOldest = (some p.cmd, q.setBuffer p.buf ((q.buffer p.buf).eraseIdx p.idx)) := by
  have hold := oldest_of_queue q
  simp only [dropOldest]
  split
  · rename_i hpick
    exact .inl ⟨rfl, hold.found hpick⟩
  · rename_i p hpick
    refine .inr ⟨p, hold.mem p hpick, hold.older p hpick, ?_⟩
    split
    all_goals
      rename_i hbuf
      rw [hbuf]
      rfl

/-- An evicted command stood at some position of a buffer, and nothing else changed. -/
theorem dropOldest_some {q q' : ControllerQueue} {cmd : Command}
    (h : q.dropOldest = (some cmd, q')) :
    ∃ b i, (q.buffer b)[i]? = some cmd ∧ q' = q.setBuffer b ((q.buffer b).eraseIdx i) := by
  rcases dropOldest_cases q with ⟨hnone, -⟩ | ⟨p, hin, -, hsome⟩
  · cases hnone.symm.trans h
  · cases hsome.symm.trans h
    exact ⟨p.buf, p.idx, hin, rfl⟩

theorem dropOldest_none {q q' : ControllerQueue} (h : q.dropOldest = (none, q')) : q' = q := by
  rcases dropOldest_cases q with ⟨hnone, -⟩ | ⟨p, -, -, hsome⟩
  · cases hnone.symm.trans h
    rfl
  · cases hsome.symm.trans h

theorem dropOldest_snapshot_perm {q q' : ControllerQueue} {cmd : Command}
    (h : q.dropOldest = (some cmd, q')) : q.snapshot ~ cmd :: q'.snapshot := by
  obtain ⟨b, i, hi, rfl⟩ := dropOldest_some h
  obtain ⟨others, hothers⟩ := setBuffer_snapshot_perm q b
  obtain ⟨hlt, hget⟩ := List.getElem?_eq_some_iff.mp hi
  have hb : q.buffer b ~ cmd :: (q.buffer b).eraseIdx i := by
    rw [← hget]
    exact (getElem_cons_eraseIdx_perm hlt).symm
  calc q.snapshot ~ q.buffer b ++ others := by simpa using hothers (q.buffer b)
    _ ~ cmd :: ((q.buffer b).eraseIdx i ++ others) := hb.append_right others
    _ ~ _ := (hothers _).symm.cons cmd

/-! ## What is left after some evictions -/

/-- The commands of a buffer with their positions. -/
def places (q : ControllerQueue) (b : Buffer) : List Candidate :=
  (q.buffer b).mapIdx fun i c => ⟨b, i, c⟩

/-- The candidates of a buffer that are not gone. -/
def left (q : ControllerQueue) (gone : List Candidate) (b : Buffer) : List Candidate :=
  (q.places b).filter fun p => p ∉ gone

/-- The queue without some of its commands; the others keep their buffers and their order. -/
def without (q : ControllerQueue) (gone : List Candidate) : ControllerQueue where
  high := (q.left gone .high).map Candidate.cmd
  fw := (q.left gone .fw).map Candidate.cmd
  sync := (q.left gone .sync).map Candidate.cmd
  query := (q.left gone .query).map Candidate.cmd

/-- All queued commands in the order of their eviction. -/
def oldestFirst (q : ControllerQueue) : List Candidate :=
  ([Buffer.high, .fw, .sync, .query].flatMap q.places).insertionSort fun p p' => p.age ≤ p'.age

section without

variable {q : ControllerQueue} {gone : List Candidate} {b : Buffer} {p : Candidate}

theorem mem_places : p ∈ q.places b ↔ p.buf = b ∧ p.InQueue q := by
  rw [places, mem_mapIdx]
  constructor
  · rintro ⟨i, hi, rfl⟩
    exact ⟨rfl, List.getElem?_eq_getElem hi⟩
  · rintro ⟨rfl, h⟩
    obtain ⟨hlt, hget⟩ := List.getElem?_eq_some_iff.mp h
    exact ⟨p.idx, hlt, by rw [hget]⟩

theorem buffer_without : (q.without gone).buffer b = (q.left gone b).map Candidate.cmd := by
  cases b <;> rfl

theorem mem_left : p ∈ q.left gone b ↔ (p.buf = b ∧ p.InQueue q) ∧ p ∉ gone := by
  rw [left, mem_filter, mem_places, decide_eq_true_iff]

/-- Positions increase along a buffer, whatever is gone. -/
theorem left_increasing : (q.left gone b).Pairwise fun p p' => p.idx < p'.idx := by
  refine Pairwise.filter _ (pairwise_iff_getElem.mpr fun i j hi hj hlt => ?_)
  simpa [places] using hlt

theorem left_nodup : (q.left gone b).Nodup :=
  left_increasing.imp fun hlt heq => absurd (congrArg Candidate.idx heq) (Nat.ne_of_lt hlt)

theorem idx_le_of_left {p' : Candidate} {i j : ℕ} (hi : (q.left gone b)[i]? = some p)
    (hj : (q.left gone b)[j]? = some p') (hle : i ≤ j) : p.idx ≤ p'.idx := by
  obtain ⟨hlt, rfl⟩ := List.getElem?_eq_some_iff.mp hi
  obtain ⟨hlt', rfl⟩ := List.getElem?_eq_some_iff.mp hj
  rcases Nat.lt_or_eq_of_le hle with hij | rfl
  · exact (pairwise_iff_getElem.mp left_increasing i j hlt hlt' hij).le
  · exact le_rfl

/-- One more candidate is gone. -/
theorem left_cons {i : ℕ} (hi : (q.left gone b)[i]? = some p) :
    q.left (p :: gone) b = (q.left gone b).eraseIdx i := by
  obtain ⟨hlt, hget⟩ := List.getElem?_eq_some_iff.mp hi
  rw [← left_nodup.erase_getElem i hlt, hget, left_nodup.erase_eq_filter, left, left, filter_filter]
  refine filter_congr fun p' _ => ?_
  rw [Bool.eq_iff_iff]
  simp

theorem left_cons_of_ne (hb : p.buf ≠ b) : q.left (p :: gone) b = q.left gone b := by
  refine filter_congr fun p' hp' => ?_
  have hne : p' ≠ p := by
    rintro rfl
    exact hb (mem_places.mp hp').1
  simp [hne]

/-- A candidate of what is left stands for one of the whole queue. -/
theorem Candidate.InQueue.original (h : p.InQueue (q.without gone)) :
    ∃ t, (q.left gone p.buf)[p.idx]? = some t ∧ t.cmd = p.cmd ∧ t.buf = p.buf ∧ t.InQueue q ∧
      t ∉ gone := by
  rw [InQueue, buffer_without, getElem?_map] at h
  obtain ⟨t, ht, hcmd⟩ := Option.map_eq_some_iff.mp h
  obtain ⟨⟨hbuf, hin⟩, hgone⟩ := mem_left.mp (mem_of_getElem? ht)
  exact ⟨t, ht, hcmd, hbuf, hin, hgone⟩

theorem Candidate.InQueue.eq_of_age {p' : Candidate} (h : p.InQueue q) (h' : p'.InQueue q)
    (hle : p.age ≤ p'.age) (hge : p'.age ≤ p.age) : p = p' := by
  have hage : p.age = p'.age := le_antisymm hle hge
  obtain ⟨-, hplace⟩ := Prod.mk.inj hage
  obtain ⟨hrank, hidx⟩ := Prod.mk.inj hplace
  obtain ⟨b, i, c⟩ := p
  obtain ⟨b', i', c'⟩ := p'
  cases Buffer.rank_inj hrank
  cases hidx
  cases h.symm.trans h'
  rfl

/-- The oldest candidate that is not gone goes next. -/
theorem dropOldest_without (hp : p.InQueue q) (hgone : p ∉ gone)
    (hold : ∀ p', p'.InQueue q → p' ∉ gone → p.age ≤ p'.age) :
    (q.without gone).dropOldest = (some p.cmd, q.without (p :: gone)) := by
  obtain ⟨j, hj⟩ := getElem?_of_mem (mem_left.mpr ⟨⟨rfl, hp⟩, hgone⟩)
  have hpresent : (Candidate.mk p.buf j p.cmd).InQueue (q.without gone) := by
    rw [Candidate.InQueue, buffer_without, getElem?_map, hj]
    rfl
  rcases dropOldest_cases (q.without gone) with ⟨-, hempty⟩ | ⟨p₁, hin, hmin, hdrop⟩
  · exact absurd hpresent (hempty _)
  · obtain ⟨t, ht, hcmd, hbuf, htq, htgone⟩ := hin.original
    have hle : t.age ≤ p.age := by
      refine Candidate.age_le.mpr ?_
      rw [hcmd]
      refine (Candidate.age_le.mp (hmin _ hpresent)).imp_right fun h => ⟨h.1, ?_⟩
      refine Candidate.place_le.mpr ?_
      rw [hbuf]
      refine (Candidate.place_le.mp h.2).imp_right fun h => ⟨h.1, ?_⟩
      have hsame : p₁.buf = p.buf := Buffer.rank_inj h.1
      rw [hsame] at ht
      exact idx_le_of_left ht hj h.2
    obtain rfl : p = t := hp.eq_of_age htq (hold t htq htgone) hle
    rw [hdrop, hcmd, ← hbuf]
    rw [← hbuf] at ht
    refine Prod.ext rfl (ext_buffer fun b => ?_)
    by_cases hb : b = p.buf
    · subst hb
      rw [buffer_setBuffer, buffer_without, buffer_without, left_cons ht, eraseIdx_map]
    · rw [buffer_setBuffer_of_ne _ hb, buffer_without, buffer_without, left_cons_of_ne (Ne.symm hb)]

theorem without_congr {gone' : List Candidate} (h : ∀ p, p ∈ gone ↔ p ∈ gone') :
    q.without gone = q.without gone' := by
  simp only [without, left, h]

@[simp] theorem without_nil (q : ControllerQueue) : q.without [] = q := by
  refine ext_buffer fun b => ?_
  rw [buffer_without, left, filter_eq_self.mpr (by simp), places]
  refine ext_getElem? fun i => ?_
  rw [getElem?_map, getElem?_mapIdx, Option.map_map]
  exact Option.map_id'

end without

/-! ## Repeated eviction -/

section drops

variable (q : ControllerQueue)

theorem mem_oldestFirst {p : Candidate} : p ∈ q.oldestFirst ↔ p.InQueue q := by
  rw [oldestFirst, mem_insertionSort, mem_flatMap]
  constructor
  · rintro ⟨b, -, hp⟩
    exact (mem_places.mp hp).2
  · intro hp
    refine ⟨p.buf, ?_, mem_places.mpr ⟨rfl, hp⟩⟩
    cases p.buf <;> decide

theorem oldestFirst_sorted : q.oldestFirst.Pairwise fun p p' => p.age ≤ p'.age := by
  have htotal : Std.Total fun p p' : Candidate => p.age ≤ p'.age := ⟨fun p p' => le_total _ _⟩
  have htrans : IsTrans Candidate fun p p' => p.age ≤ p'.age := ⟨fun _ _ _ => le_trans⟩
  exact pairwise_insertionSort _ _

theorem oldestFirst_nodup : q.oldestFirst.Nodup := by
  refine (perm_insertionSort _ _).nodup_iff.mpr (nodup_flatMap.mpr ⟨fun b _ => ?_, ?_⟩)
  · have hall : q.left [] b = q.places b := filter_eq_self.mpr (by simp)
    rw [← hall]
    exact left_nodup
  · have hdisjoint : ∀ b b' : Buffer, b ≠ b' → Disjoint (q.places b) (q.places b') := by
      intro b b' hne p hp hp'
      exact hne ((mem_places.mp hp).1.symm.trans (mem_places.mp hp').1)
    have hbuffers : [Buffer.high, .fw, .sync, .query].Pairwise (· ≠ ·) := by decide
    exact hbuffers.imp (hdisjoint _ _)

/-- Evicting `k` times removes the first `k` commands of the order. -/
theorem iterate_dropOldest (k : ℕ) :
    (fun q : ControllerQueue => q.dropOldest.2)^[k] q = q.without (q.oldestFirst.take k) := by
  induction k with
  | zero => simp
  | succ k ih =>
      rw [Function.iterate_succ_apply', ih]
      rcases Nat.lt_or_ge k q.oldestFirst.length with hlt | hge
      · have hsplit : q.oldestFirst.take (k + 1) = q.oldestFirst.take k ++ [q.oldestFirst[k]] :=
          take_succ_eq_append_getElem hlt
        have hnodup := q.oldestFirst_nodup
        have hsorted := q.oldestFirst_sorted
        rw [← take_append_drop k q.oldestFirst, drop_eq_getElem_cons hlt] at hnodup hsorted
        have hfresh : q.oldestFirst[k] ∉ q.oldestFirst.take k := fun hmem =>
          (nodup_append.mp hnodup).2.2 _ hmem _ mem_cons_self rfl
        have hoverdue : ∀ p', p'.InQueue q → p' ∉ q.oldestFirst.take k →
            q.oldestFirst[k].age ≤ p'.age := by
          intro p' hp' hleft
          have hmem := (mem_oldestFirst q).mpr hp'
          rw [← take_append_drop k q.oldestFirst, mem_append, drop_eq_getElem_cons hlt] at hmem
          rcases mem_cons.mp (hmem.resolve_left hleft) with rfl | hlater
          · exact le_rfl
          · exact (pairwise_cons.mp (pairwise_append.mp hsorted).2.1).1 p' hlater
        rw [dropOldest_without ((mem_oldestFirst q).mp (getElem_mem hlt)) hfresh hoverdue, hsplit]
        exact without_congr fun p => by rw [mem_cons, mem_append, mem_singleton, or_comm]
      · rw [take_of_length_le hge, take_of_length_le (hge.trans (Nat.le_succ k))]
        rcases dropOldest_cases (q.without q.oldestFirst) with ⟨hnone, -⟩ | ⟨p, hin, -⟩
        · rw [hnone]
        · obtain ⟨t, -, -, -, htq, hgone⟩ := hin.original
          exact absurd ((mem_oldestFirst q).mpr htq) hgone

end drops

end TcpAdapter.Queue.ControllerQueue
