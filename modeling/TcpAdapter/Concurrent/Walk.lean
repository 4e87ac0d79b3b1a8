import TcpAdapter.Concurrent.Call

/-! # Calls step by step

A call with the list of its steps: the world that each action was performed in, and its answer. -/

namespace TcpAdapter.Concurrent

variable {S : Signature} {M : Machine S} {α β : Type}

structure Step (M : Machine S) where
  world : M.World
  act : S.Act
  res : S.Res act

/-- The program runs from the world `w` to the world `w'` in these steps and returns `x`. -/
inductive Walk (R : Rules M) (tid : ℕ) :
    M.World → Prog S α → List (Step M) → M.World → α → Prop where
  | ret (w : M.World) (x : α) : Walk R tid w (.ret x) [] w x
  | act {w w' w'' : M.World} {a : S.Act} {k : S.Res a → Prog S α} {r : S.Res a}
      {steps : List (Step M)} {x : α} (inp : M.Input) (hrule : R.act w tid a inp)
      (hexec : M.exec tid w a inp = some (w', r)) (h : Walk R tid w' (k r) steps w'' x) :
      Walk R tid w (.act a k) (⟨w, a, r⟩ :: steps) w'' x

namespace Walk

variable {R : Rules M} {tid : ℕ} {w w' w'' : M.World} {x : α} {steps : List (Step M)}

theorem of_ret {y : α} (h : Walk R tid w (.ret y) steps w' x) : steps = [] ∧ w' = w ∧ x = y := by
  cases h
  exact ⟨rfl, rfl, rfl⟩

theorem of_act {a : S.Act} {k : S.Res a → Prog S α} (h : Walk R tid w (.act a k) steps w'' x) :
    ∃ inp w' r rest, steps = ⟨w, a, r⟩ :: rest ∧ R.act w tid a inp ∧
      M.exec tid w a inp = some (w', r) ∧ Walk R tid w' (k r) rest w'' x := by
  cases h with
  | act inp hrule hexec h => exact ⟨inp, _, _, _, rfl, hrule, hexec, h⟩

theorem of_bind {p : Prog S β} {f : β → Prog S α} (h : Walk R tid w (p >>= f) steps w'' x) :
    ∃ w' y first rest, steps = first ++ rest ∧ Walk R tid w p first w' y ∧
      Walk R tid w' (f y) rest w'' x := by
  induction p generalizing w steps with
  | ret y => exact ⟨w, y, [], steps, rfl, .ret w y, h⟩
  | act a k ih =>
      obtain ⟨inp, w₁, r, rest, rfl, hrule, hexec, h⟩ := h.of_act
      obtain ⟨w', y, first, rest, rfl, hp, hf⟩ := ih r h
      exact ⟨w', y, _, rest, rfl, .act inp hrule hexec hp, hf⟩

/-- The steps forgotten. -/
theorem call {p : Prog S α} (h : Walk R tid w p steps w' x) : Call R tid w p w' x := by
  induction h with
  | ret w x => exact .ret w x
  | act inp hrule hexec _ ih => exact .act inp hrule hexec ih

/-- The program performs none but these actions. -/
theorem acts_of_only {p : S.Act → Prop} {q : Prog S α} (hq : q.Only p)
    (h : Walk R tid w q steps w' x) : ∀ step ∈ steps, p step.act := by
  induction h with
  | ret => simp
  | act inp hrule hexec _ ih => simpa using ⟨hq.1, ih (hq.2 _)⟩

/-- What holds of every step that the rules allow. -/
theorem forall_steps {q : Prog S α} {P : Step M → Prop}
    (hstep : ∀ w a inp w' r, R.act w tid a inp → M.exec tid w a inp = some (w', r) → P ⟨w, a, r⟩)
    (h : Walk R tid w q steps w' x) : ∀ step ∈ steps, P step := by
  induction h with
  | ret => simp
  | act inp hrule hexec _ ih => simpa using ⟨hstep _ _ inp _ _ hrule hexec, ih⟩

end Walk

namespace Prog

/-- The steps of the call with one input for all actions. -/
def walk (M : Machine S) (tid : ℕ) (inp : M.Input) :
    Prog S α → M.World → Option (List (Step M) × M.World × α)
  | .ret x, w => some ([], w, x)
  | .act a k, w =>
      match M.exec tid w a inp with
      | none => none
      | some (w', r) =>
          ((k r).walk M tid inp w').map fun res => (⟨w, a, r⟩ :: res.1, res.2)

theorem walk_of_eq {R : Rules M} {tid : ℕ} {w w' : M.World} {p : Prog S α} {x : α}
    {steps : List (Step M)} (inp : M.Input) (hrule : ∀ w a, R.act w tid a inp)
    (h : p.walk M tid inp w = some (steps, w', x)) : Walk R tid w p steps w' x := by
  induction p generalizing w steps with
  | ret y =>
      cases h
      exact .ret _ _
  | act a k ih =>
      simp only [walk] at h
      split at h
      · cases h
      · rename_i w₁ r hexec
        obtain ⟨⟨rest, w₂, y⟩, hrest, heq⟩ := Option.map_eq_some_iff.mp h
        cases heq
        exact .act inp (hrule w a) hexec (ih r hrest)

end Prog

end TcpAdapter.Concurrent
