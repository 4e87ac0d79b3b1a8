import Mathlib.Data.Set.Insert
import Mathlib.Logic.Relation
import TcpAdapter.Concurrent.Machine

/-! # Mutexes in order

The mutexes of a machine have ranks. A thread waits only for a mutex above all those that it
holds, and it returns without any. Then no thread waits, through whatever chain of holders, for
itself, and at the end of every chain there is a thread that can go on. -/

namespace TcpAdapter.Concurrent

/-- What an action does with the mutexes. -/
inductive LockUse (L : Type) where
  | none
  | acquire (l : L)
  | release (l : L)
  /-- It acquires the mutex and gives it back before it answers. -/
  | pass (l : L)

namespace LockUse

variable {L : Type}

/-- The mutex that the action has to wait for. -/
def needs : LockUse L → Option L
  | acquire l | pass l => some l
  | none | release _ => Option.none

/-- The mutexes that the thread holds afterwards. -/
def after (held : Set L) : LockUse L → Set L
  | acquire l => insert l held
  | release l => held \ {l}
  | none | pass _ => held

/-- Who holds the mutexes afterwards. -/
def apply [DecidableEq L] (tid : ℕ) (holder : L → Option ℕ) : LockUse L → L → Option ℕ
  | acquire l => Function.update holder l (some tid)
  | release l => Function.update holder l Option.none
  | none | pass _ => holder

end LockUse

/-- How the actions of a signature use mutexes, and the order of the mutexes. Some actions wait
for something other than a mutex; some stand for a loop that is still running. -/
structure Locking (S : Signature) (L : Type) where
  use : S.Act → LockUse L
  rank : L → ℕ
  waits : S.Act → Prop := fun _ => False
  loops : S.Act → Prop := fun _ => False

namespace Locking

variable {S : Signature} {L : Type} (K : Locking S L)

/-- What a thread that holds some mutexes may do. -/
structure May (held : Set L) (a : S.Act) : Prop where
  order : ∀ l, (K.use a).needs = some l → ∀ l' ∈ held, K.rank l' < K.rank l
  release : ∀ l, K.use a = .release l → l ∈ held
  waits : K.waits a → held = ∅

/-- A thread knows which mutexes it holds. A loop that is still running never answers. -/
def protocol : Protocol S (Set L) where
  may := K.May
  next held a _ held' := ¬K.loops a ∧ held' = (K.use a).after held

variable {K}

/-- A thread without a mutex may wait for any. -/
theorem may_empty {a : S.Act} (h : ∀ l, K.use a ≠ .release l) : K.May ∅ a :=
  ⟨fun _ _ _ hl' => hl'.elim, fun l hl => absurd hl (h l), fun _ => rfl⟩

/-- An action that has nothing to do with mutexes. -/
theorem may_none {held : Set L} {a : S.Act} (h : K.use a = .none) (hwaits : ¬K.waits a) :
    K.May held a := by
  refine ⟨fun l hl => ?_, fun l hl => ?_, fun hw => absurd hw hwaits⟩
  · rw [h] at hl
    cases hl
  · rw [h] at hl
    cases hl

/-! ## The discipline -/

variable [DecidableEq L] {M : Machine S}

/-- The machine treats its mutexes as the description says. -/
structure Sound (K : Locking S L) (R : Rules M) (holder : M.World → L → Option ℕ) : Prop where
  apply : ∀ {tid w a inp w' r}, M.exec tid w a inp = some (w', r) →
    holder w' = (K.use a).apply tid (holder w)
  acquire : ∀ {tid w a inp w' r l}, M.exec tid w a inp = some (w', r) →
    K.use a = .acquire l → holder w l = none
  loops : ∀ {tid w a inp}, K.loops a → M.exec tid w a inp = none
  crash : ∀ w l, holder (M.crash w) l = none
  enabled : ∀ tid w a, ¬K.waits a → ¬K.loops a →
    (∀ l, (K.use a).needs = some l → holder w l = none) →
    ∃ inp, R.act w tid a inp ∧ (M.exec tid w a inp).isSome

variable {R : Rules M} {holder : M.World → L → Option ℕ} {w₀ : M.World}

/-- `held` are the mutexes of the thread. -/
def Holds (holder : M.World → L → Option ℕ) (tid : ℕ) (w : M.World) (held : Set L) : Prop :=
  ∀ l, l ∈ held ↔ holder w l = some tid

section step

variable {tid : ℕ} {w w' : M.World} {a : S.Act} {inp : M.Input} {r : S.Res a} {held : Set L}
  (hsound : K.Sound R holder)

include hsound

theorem Holds.own (hv : Holds holder tid w held) (h : M.exec tid w a inp = some (w', r)) :
    Holds holder tid w' ((K.use a).after held) := by
  intro l
  rw [hsound.apply h]
  cases K.use a with
  | none | pass => exact hv l
  | acquire l₀ =>
      by_cases hl : l = l₀
      · simp [LockUse.after, LockUse.apply, hl]
      · simpa [LockUse.after, LockUse.apply, hl] using hv l
  | release l₀ =>
      by_cases hl : l = l₀
      · simp [LockUse.after, LockUse.apply, hl]
      · simpa [LockUse.after, LockUse.apply, hl] using hv l

theorem Holds.other {other : ℕ} {held' : Set L} (hv : Holds holder tid w held)
    (hmay : K.May held a) (hne : other ≠ tid) (hu : Holds holder other w held')
    (h : M.exec tid w a inp = some (w', r)) : Holds holder other w' held' := by
  intro l
  rw [hsound.apply h]
  cases huse : K.use a with
  | none | pass => exact hu l
  | acquire l₀ =>
      by_cases hl : l = l₀
      · subst hl
        have hfree := hsound.acquire h huse
        simp [LockUse.apply, hu l, hfree, hne.symm]
      · simpa [LockUse.apply, hl] using hu l
  | release l₀ =>
      by_cases hl : l = l₀
      · subst hl
        have hown := (hv l).mp (hmay.release l huse)
        simp [LockUse.apply, hu l, hown, hne.symm]
      · simpa [LockUse.apply, hl] using hu l

end step

/-- The discipline of the mutexes. -/
def discipline (hsound : K.Sound R holder) (hinit : ∀ l, holder w₀ l = none)
    (hstart : ∀ task, (M.prog task).Respects K.protocol (fun _ held => held = ∅) ∅) :
    Discipline M R w₀ (Set L) where
  protocol := K.protocol
  knows := Holds holder
  idle held := held = ∅
  inv _ := True
  init := ⟨trivial, fun tid => ⟨∅, fun l => by simp [hinit l], rfl⟩⟩
  start _ _ hidle _ := hidle ▸ hstart _
  act _ hv _ hmay h := by
    refine ⟨trivial, ⟨_, ⟨fun hloops => ?_, rfl⟩, hv.own hsound h⟩,
      fun _ hne _ hu => hv.other hsound hmay hne hu h⟩
    rw [hsound.loops hloops] at h
    cases h
  crash _ _ := ⟨trivial, fun tid => ⟨∅, fun l => by simp [hsound.crash _ l], rfl⟩⟩

/-! ## Chains of waiting threads -/

/-- The thread is about to perform an action that needs a mutex of the other. -/
def WaitsFor (K : Locking S L) (holder : M.World → L → Option ℕ) (c : Config M) (tid tid' : ℕ) :
    Prop :=
  ∃ a k l, c.threads tid = .act a k ∧ (K.use a).needs = some l ∧ holder c.world l = some tid'

/-- The thread can perform its next action, or it is busy in a loop. -/
def GoesOn (K : Locking S L) (R : Rules M) (c : Config M) (tid : ℕ) : Prop :=
  ∃ a k, c.threads tid = .act a k ∧
    (K.loops a ∨ ∃ inp, R.Allows c (.run tid inp) ∧ (c.next (.run tid inp)).isSome)

section deadlock

variable (hsound : K.Sound R holder) (hinit : ∀ l, holder w₀ l = none)
  (hstart : ∀ task, (M.prog task).Respects K.protocol (fun _ held => held = ∅) ∅)
  {c : Config M} (hc : Reachable R w₀ c)

include hsound

/-- A thread goes on unless somebody holds the mutex that it needs. -/
theorem goesOn_or_held {tid : ℕ} {a : S.Act} {k : S.Res a → Prog S Unit}
    (ht : c.threads tid = .act a k) (hwaits : ¬K.waits a) :
    K.GoesOn R c tid ∨ ∃ l tid', (K.use a).needs = some l ∧ holder c.world l = some tid' := by
  refine or_iff_not_imp_right.mpr fun hfree => ⟨a, k, ht, or_iff_not_imp_left.mpr fun hloops => ?_⟩
  obtain ⟨inp, hrule, hexec⟩ := hsound.enabled tid c.world a hwaits hloops fun l hneeds =>
    Option.eq_none_iff_forall_ne_some.mpr fun tid' hl => hfree ⟨l, tid', hneeds, hl⟩
  refine ⟨inp, fun a' k' ht' => ?_, ?_⟩
  · rw [ht] at ht'
    cases ht'
    exact hrule
  · obtain ⟨⟨w, r⟩, hexec⟩ := Option.isSome_iff_exists.mp hexec
    simp [Config.next, ht, hexec]

include hinit hstart hc

/-- A thread that holds a mutex is still running, and it waits only for a mutex of a higher
rank. -/
theorem holder_running {tid : ℕ} {l : L} (hl : holder c.world l = some tid) :
    ∃ a k, c.threads tid = .act a k ∧ ¬K.waits a ∧
      ∀ l', (K.use a).needs = some l' → K.rank l < K.rank l' := by
  obtain ⟨held, hheld, hr⟩ := ((discipline hsound hinit hstart).sound hc).2 tid
  have hmem : l ∈ held := (hheld l).mpr hl
  cases ht : c.threads tid with
  | ret x =>
      rw [ht] at hr
      have hempty : held = ∅ := hr
      simp [hempty] at hmem
  | act a k =>
      rw [ht] at hr
      have hmay : K.May held a := hr.1
      refine ⟨a, k, rfl, fun hwaits => ?_, fun l' hneeds => hmay.order l' hneeds l hmem⟩
      simp [hmay.waits hwaits] at hmem

/-- Along a chain of waiting threads the ranks rise. -/
theorem rank_le_of_chain {tid tid' : ℕ} {a : S.Act} {k : S.Res a → Prog S Unit} {l : L}
    (ht : c.threads tid = .act a k) (hneeds : (K.use a).needs = some l)
    (hchain : Relation.TransGen (K.WaitsFor holder c) tid tid') :
    ∃ l', holder c.world l' = some tid' ∧ K.rank l ≤ K.rank l' := by
  induction hchain with
  | single h =>
      obtain ⟨a', k', l', ht', hneeds', hl'⟩ := h
      rw [ht] at ht'
      cases ht'
      rw [hneeds] at hneeds'
      cases hneeds'
      exact ⟨l, hl', le_rfl⟩
  | tail _ h ih =>
      obtain ⟨l₁, hl₁, hle⟩ := ih
      obtain ⟨a', k', l', ht', hneeds', hl'⟩ := h
      obtain ⟨a₁, k₁, ht₁, -, hrank⟩ := holder_running hsound hinit hstart hc hl₁
      rw [ht'] at ht₁
      cases ht₁
      exact ⟨l', hl', hle.trans (hrank l' hneeds').le⟩

/-- No thread waits for itself. -/
theorem not_waits_for_self (tid : ℕ) : ¬Relation.TransGen (K.WaitsFor holder c) tid tid := by
  intro hcycle
  obtain ⟨_, ⟨a, k, l, ht, hneeds, -⟩, -⟩ := Relation.TransGen.head'_iff.mp hcycle
  obtain ⟨l', hl', hle⟩ := rank_le_of_chain hsound hinit hstart hc ht hneeds hcycle
  obtain ⟨a', k', ht', -, hrank⟩ := holder_running hsound hinit hstart hc hl'
  rw [ht] at ht'
  cases ht'
  exact absurd (hrank l hneeds) (not_lt.mpr hle)

/-- Every chain of waiting threads ends with one that goes on. The induction is on how far the
rank of the mutex that the thread needs is from the highest. -/
theorem exists_goesOn {bound : ℕ} (hbound : ∀ l, K.rank l ≤ bound) {tid : ℕ} {a : S.Act}
    {k : S.Res a → Prog S Unit} (ht : c.threads tid = .act a k) (hwaits : ¬K.waits a) :
    ∃ tid', Relation.ReflTransGen (K.WaitsFor holder c) tid tid' ∧ K.GoesOn R c tid' := by
  have hchain : ∀ n tid a k, c.threads tid = .act a k → ¬K.waits a →
      (∀ l, (K.use a).needs = some l → bound < K.rank l + n) →
      ∃ tid', Relation.ReflTransGen (K.WaitsFor holder c) tid tid' ∧ K.GoesOn R c tid' := by
    intro n
    induction n with
    | zero =>
        intro tid a k ht hwaits hrank
        rcases goesOn_or_held hsound ht hwaits with hgo | ⟨l, _, hneeds, -⟩
        · exact ⟨tid, .refl, hgo⟩
        · exact absurd (hrank l hneeds) (not_lt.mpr (hbound l))
    | succ n ih =>
        intro tid a k ht hwaits hrank
        rcases goesOn_or_held hsound ht hwaits with hgo | ⟨l, tid₁, hneeds, hl⟩
        · exact ⟨tid, .refl, hgo⟩
        · obtain ⟨a₁, k₁, ht₁, hwaits₁, hrise⟩ := holder_running hsound hinit hstart hc hl
          obtain ⟨tid', hpath, hgo⟩ := ih tid₁ a₁ k₁ ht₁ hwaits₁ fun l' hneeds' => by
            have hl' := hrise l' hneeds'
            have hbelow := hrank l hneeds
            omega
          exact ⟨tid', .head ⟨a, k, l, ht, hneeds, hl⟩ hpath, hgo⟩
  exact hchain (bound + 1) tid a k ht hwaits fun l _ => by omega

end deadlock

end Locking

end TcpAdapter.Concurrent
