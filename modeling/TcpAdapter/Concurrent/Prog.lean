import Mathlib.Data.Nat.Notation
import Mathlib.Logic.Function.Basic

/-! # Programs over atomic actions

A program is a tree of atomic actions. The answer to an action selects the rest of
the program, so loops are unfolded when the program is built and every program is
finite. Programs carry no state of their own: what an action does to shared memory is
said elsewhere. -/

namespace TcpAdapter.Concurrent

/-- The atomic actions a program may perform, and the type of the answer to each. -/
structure Signature where
  Act : Type
  Res : Act → Type

inductive Prog (S : Signature) (α : Type) : Type where
  | ret (x : α) : Prog S α
  | act (a : S.Act) (k : S.Res a → Prog S α) : Prog S α

namespace Prog

variable {S : Signature} {α β γ : Type}

/-- Perform one action and return its answer. -/
def call (a : S.Act) : Prog S (S.Res a) :=
  .act a .ret

def bind : Prog S α → (α → Prog S β) → Prog S β
  | .ret x, f => f x
  | .act a k, f => .act a fun r => (k r).bind f

instance : Monad (Prog S) where
  pure := .ret
  bind := bind

@[simp] theorem pure_eq (x : α) : (pure x : Prog S α) = .ret x := rfl

@[simp] theorem ret_bind (x : α) (f : α → Prog S β) : (Prog.ret x >>= f) = f x := rfl

@[simp] theorem act_bind (a : S.Act) (k : S.Res a → Prog S α) (f : α → Prog S β) :
    (Prog.act a k >>= f) = .act a fun r => k r >>= f := rfl

theorem bind_bind (p : Prog S α) (f : α → Prog S β) (g : β → Prog S γ) :
    (p >>= f >>= g) = (p >>= fun x => f x >>= g) := by
  induction p with
  | ret x => rfl
  | act a k ih =>
      simp only [act_bind]
      exact congrArg (Prog.act a) (funext ih)

def isDone : Prog S α → Bool
  | .ret _ => true
  | .act _ _ => false

theorem eq_ret_of_isDone {p : Prog S α} (h : p.isDone = true) : ∃ x, p = .ret x := by
  cases p with
  | ret x => exact ⟨x, rfl⟩
  | act a k => cases h

end Prog

/-! ## Restricted programs -/

namespace Prog

variable {S : Signature} {α β : Type}

/-- The program performs none but the actions `p`, whatever the answers are. -/
def Only (p : S.Act → Prop) : Prog S α → Prop
  | .ret _ => True
  | .act a k => p a ∧ ∀ r, (k r).Only p

theorem Only.mono {p p' : S.Act → Prop} {q : Prog S α} (h : q.Only p)
    (hp : ∀ a, p a → p' a) : q.Only p' := by
  induction q with
  | ret x => trivial
  | act a k ih => exact ⟨hp a h.1, fun r => ih r (h.2 r)⟩

theorem Only.bind {p : S.Act → Prop} {q : Prog S α} {f : α → Prog S β} (h : q.Only p)
    (hf : ∀ x, (f x).Only p) : (q >>= f).Only p := by
  induction q with
  | ret x => exact hf x
  | act a k ih => exact ⟨h.1, fun r => ih r (h.2 r)⟩

end Prog

/-! ## Local protocols -/

/-- A protocol describes one thread from inside. `may v a` says that a thread knowing
`v` is entitled to perform `a`; `next v a r v'` says that it may know `v'` once `a` has
answered `r`. -/
structure Protocol (S : Signature) (V : Type) where
  may : V → S.Act → Prop
  next : V → (a : S.Act) → S.Res a → V → Prop

namespace Prog

variable {S : Signature} {V α β : Type} {P : Protocol S V}

/-- A program respects a protocol when each of its actions is permitted by what the
thread knows at that point, whatever the answers were, and it returns with `post`. -/
def Respects (P : Protocol S V) (post : α → V → Prop) : Prog S α → V → Prop
  | .ret x, v => post x v
  | .act a k, v => P.may v a ∧ ∀ r v', P.next v a r v' → (k r).Respects P post v'

@[simp] theorem respects_ret (post : α → V → Prop) (x : α) (v : V) :
    (Prog.ret x : Prog S α).Respects P post v ↔ post x v := Iff.rfl

theorem Respects.mono {post post' : α → V → Prop} {p : Prog S α} {v : V}
    (h : p.Respects P post v) (hpost : ∀ x v, post x v → post' x v) :
    p.Respects P post' v := by
  induction p generalizing v with
  | ret x => exact hpost x v h
  | act a k ih =>
      refine ⟨h.1, ?_⟩
      intro r v' hn
      exact ih r (h.2 r v' hn)

/-- Sequencing: the first program's postcondition is the second one's precondition. -/
theorem Respects.bind {mid : α → V → Prop} {post : β → V → Prop} {p : Prog S α}
    {f : α → Prog S β} {v : V} (h : p.Respects P mid v)
    (hf : ∀ x v', mid x v' → (f x).Respects P post v') :
    (p >>= f).Respects P post v := by
  induction p generalizing v with
  | ret x => exact hf x v h
  | act a k ih =>
      refine ⟨h.1, ?_⟩
      intro r v' hn
      exact ih r (h.2 r v' hn)

/-- A program of harmless actions: if what the thread knows entitles it to each of them and
they keep it, the program respects the protocol. -/
theorem Only.respects {p : S.Act → Prop} {I : V → Prop}
    (hp : ∀ a v, p a → I v → P.may v a ∧ ∀ r v', P.next v a r v' → I v')
    {q : Prog S α} (h : q.Only p) {v : V} (hv : I v) : q.Respects P (fun _ v => I v) v := by
  induction q generalizing v with
  | ret x => exact hv
  | act a k ih =>
      obtain ⟨hmay, hnext⟩ := hp a v h.1 hv
      exact ⟨hmay, fun r v' hn => ih r (h.2 r) (hnext r v' hn)⟩

end Prog

section after

variable {S : Signature} {V α : Type} {may : V → S.Act → Prop}
  {answers : V → (a : S.Act) → S.Res a → Prop} {after : V → (a : S.Act) → S.Res a → V}
  {post : α → V → Prop} {a : S.Act} {k : S.Res a → Prog S α} {v : V}

/-- The answer to an action says what the thread knows next. -/
def Protocol.ofAfter (may : V → S.Act → Prop) (after : V → (a : S.Act) → S.Res a → V) :
    Protocol S V where
  may := may
  next v a r v' := v' = after v a r

/-- The answer says what the thread knows next, and not every answer can be given. -/
def Protocol.ofAnswers (may : V → S.Act → Prop) (answers : V → (a : S.Act) → S.Res a → Prop)
    (after : V → (a : S.Act) → S.Res a → V) : Protocol S V where
  may := may
  next v a r v' := answers v a r ∧ v' = after v a r

/-- One action, and then the rest of the program. -/
theorem act_respects (hmay : may v a)
    (hk : ∀ r, (k r).Respects (.ofAfter may after) post (after v a r)) :
    (Prog.call a >>= k).Respects (.ofAfter may after) post v := by
  refine ⟨hmay, ?_⟩
  rintro r v' rfl
  exact hk r

theorem answer_respects (hmay : may v a)
    (hk : ∀ r, answers v a r → (k r).Respects (.ofAnswers may answers after) post (after v a r)) :
    (Prog.call a >>= k).Respects (.ofAnswers may answers after) post v := by
  refine ⟨hmay, ?_⟩
  rintro r v' ⟨hr, rfl⟩
  exact hk r hr

end after

namespace Prog

variable {S : Signature} {V α : Type} {P : Protocol S V}

/-- From one protocol to another. What the thread knows in the first tells what it knows in the
second: enough to be entitled to the same actions, and still so once they have answered. -/
theorem Respects.transfer {V' : Type} {P' : Protocol S V'} {p : S.Act → Prop} {rel : V → V' → Prop}
    (hstep : ∀ {a v v'}, p a → rel v v' → P.may v a → P'.may v' a ∧
      ∀ r u', P'.next v' a r u' → ∃ u, P.next v a r u ∧ rel u u')
    {post : α → V → Prop} {q : Prog S α} {v : V} {v' : V'} (h : q.Respects P post v)
    (hq : q.Only p) (hrel : rel v v') :
    q.Respects P' (fun x u' => ∃ u, post x u ∧ rel u u') v' := by
  induction q generalizing v v' with
  | ret x => exact ⟨v, h, hrel⟩
  | act a k ih =>
      obtain ⟨hmay, hnext⟩ := hstep hq.1 hrel h.1
      refine ⟨hmay, ?_⟩
      intro r u' hu'
      obtain ⟨u, hu, hrel'⟩ := hnext r u' hu'
      exact ih r (h.2 r u hu) (hq.2 r) hrel'

end Prog

/-- Two protocols at once. -/
def Protocol.prod {S : Signature} {V V' : Type} (P : Protocol S V) (P' : Protocol S V') :
    Protocol S (V × V') where
  may v a := P.may v.1 a ∧ P'.may v.2 a
  next v a r v' := P.next v.1 a r v'.1 ∧ P'.next v.2 a r v'.2

theorem Prog.Respects.prod {S : Signature} {V V' α : Type} {P : Protocol S V}
    {P' : Protocol S V'} {post : α → V → Prop} {post' : α → V' → Prop} {p : Prog S α} {v : V}
    {v' : V'} (h : p.Respects P post v) (h' : p.Respects P' post' v') :
    p.Respects (P.prod P') (fun x v => post x v.1 ∧ post' x v.2) (v, v') := by
  induction p generalizing v v' with
  | ret x => exact ⟨h, h'⟩
  | act a k ih =>
      refine ⟨⟨h.1, h'.1⟩, ?_⟩
      intro r u hn
      exact ih r (h.2 r u.1 hn.1) (h'.2 r u.2 hn.2)

end TcpAdapter.Concurrent
