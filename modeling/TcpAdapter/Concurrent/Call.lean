import TcpAdapter.Concurrent.Machine

/-! # Calls

A thread runs a program from its start to its end while nobody else acts. The rules say which
inputs the environment may choose. -/

namespace TcpAdapter.Concurrent

variable {S : Signature} {M : Machine S} {α β : Type}

/-- Whatever the inputs are, no action has to wait, and the program returns with `post`. -/
def Prog.Ends (R : Rules M) (tid : ℕ) (post : α → M.World → Prop) : Prog S α → M.World → Prop
  | .ret x, w => post x w
  | .act a k, w => ∀ inp, R.act w tid a inp →
      ∃ w' r, M.exec tid w a inp = some (w', r) ∧ (k r).Ends R tid post w'

/-- The program runs from the world `w` to the world `w'` and returns `x`. -/
inductive Call (R : Rules M) (tid : ℕ) : M.World → Prog S α → M.World → α → Prop where
  | ret (w : M.World) (x : α) : Call R tid w (.ret x) w x
  | act {w w' w'' : M.World} {a : S.Act} {k : S.Res a → Prog S α} {r : S.Res a} {x : α}
      (inp : M.Input) (hrule : R.act w tid a inp) (hexec : M.exec tid w a inp = some (w', r))
      (h : Call R tid w' (k r) w'' x) : Call R tid w (.act a k) w'' x

namespace Prog

variable {R : Rules M} {tid : ℕ} {w w' : M.World}

theorem Ends.mono {post post' : α → M.World → Prop} {p : Prog S α} (h : p.Ends R tid post w)
    (hpost : ∀ x w, post x w → post' x w) : p.Ends R tid post' w := by
  induction p generalizing w with
  | ret x => exact hpost x w h
  | act a k ih =>
      intro inp hrule
      obtain ⟨w', r, hexec, hk⟩ := h inp hrule
      exact ⟨w', r, hexec, ih r hk⟩

/-- Sequencing: the second program starts where the first one has ended. -/
theorem Ends.bind {mid : α → M.World → Prop} {post : β → M.World → Prop} {p : Prog S α}
    {f : α → Prog S β} (h : p.Ends R tid mid w)
    (hf : ∀ x w', mid x w' → (f x).Ends R tid post w') : (p >>= f).Ends R tid post w := by
  induction p generalizing w with
  | ret x => exact hf x w h
  | act a k ih =>
      intro inp hrule
      obtain ⟨w', r, hexec, hk⟩ := h inp hrule
      exact ⟨w', r, hexec, ih r hk⟩

/-- A program of actions that never wait ends, and it keeps what each of them keeps. -/
theorem Only.ends {I : M.World → Prop} {p : S.Act → Prop} {q : Prog S α}
    (hp : ∀ w a inp, p a → I w → ∃ w' r, M.exec tid w a inp = some (w', r) ∧ I w')
    (h : q.Only p) (hw : I w) : q.Ends R tid (fun _ w' => I w') w := by
  induction q generalizing w with
  | ret x => exact hw
  | act a k ih =>
      intro inp _
      obtain ⟨w', r, hexec, hw'⟩ := hp w a inp h.1 hw
      exact ⟨w', r, hexec, ih r (h.2 r) hw'⟩

/-- A call of a program that ends, ends with the postcondition. -/
theorem Ends.call {post : α → M.World → Prop} {p : Prog S α} {x : α} (h : p.Ends R tid post w)
    (hc : Call R tid w p w' x) : post x w' := by
  induction hc with
  | ret w x => exact h
  | act inp hrule hexec _ ih =>
      obtain ⟨w₁, r₁, hexec₁, hk⟩ := h inp hrule
      rw [hexec] at hexec₁
      cases hexec₁
      exact ih hk

/-- The call with one input for all actions. -/
def eval (M : Machine S) (tid : ℕ) (inp : M.Input) : Prog S α → M.World → Option (M.World × α)
  | .ret x, w => some (w, x)
  | .act a k, w =>
      match M.exec tid w a inp with
      | none => none
      | some (w', r) => (k r).eval M tid inp w'

theorem call_of_eval {p : Prog S α} {x : α} (inp : M.Input) (hrule : ∀ w a, R.act w tid a inp)
    (h : p.eval M tid inp w = some (w', x)) : Call R tid w p w' x := by
  induction p generalizing w with
  | ret y =>
      cases h
      exact .ret _ _
  | act a k ih =>
      simp only [eval] at h
      split at h
      · cases h
      · rename_i w₁ r hexec
        exact .act inp (hrule w a) hexec (ih r h)

end Prog

/-! ## Parts of a call -/

namespace Call

variable {R : Rules M} {tid : ℕ} {w w' w'' : M.World} {x : α}

theorem of_ret {y : α} (h : Call R tid w (.ret y) w' x) : w' = w ∧ x = y := by
  cases h
  exact ⟨rfl, rfl⟩

theorem of_act {a : S.Act} {k : S.Res a → Prog S α} (h : Call R tid w (.act a k) w'' x) :
    ∃ inp w' r, R.act w tid a inp ∧ M.exec tid w a inp = some (w', r) ∧
      Call R tid w' (k r) w'' x := by
  cases h with
  | act inp hrule hexec h => exact ⟨inp, _, _, hrule, hexec, h⟩

/-- The first action of a call. -/
theorem of_call {a : S.Act} {k : S.Res a → Prog S α} (h : Call R tid w (Prog.call a >>= k) w'' x) :
    ∃ inp w' r, R.act w tid a inp ∧ M.exec tid w a inp = some (w', r) ∧
      Call R tid w' (k r) w'' x :=
  of_act h

theorem of_bind {p : Prog S β} {f : β → Prog S α} (h : Call R tid w (p >>= f) w'' x) :
    ∃ w' y, Call R tid w p w' y ∧ Call R tid w' (f y) w'' x := by
  induction p generalizing w with
  | ret y => exact ⟨w, y, .ret w y, h⟩
  | act a k ih =>
      obtain ⟨inp, w₁, r, hrule, hexec, h⟩ := h.of_act
      obtain ⟨w', y, hp, hf⟩ := ih r h
      exact ⟨w', y, .act inp hrule hexec hp, hf⟩

theorem mono {R' : Rules M} {p : Prog S α} (hR : ∀ w a inp, R.act w tid a inp → R'.act w tid a inp)
    (h : Call R tid w p w' x) : Call R' tid w p w' x := by
  induction h with
  | ret w x => exact .ret w x
  | act inp hrule hexec _ ih => exact .act inp (hR _ _ _ hrule) hexec ih

/-- What every action preserves, the call preserves. -/
theorem preserves {I : M.World → Prop} {p : Prog S α}
    (hstep : ∀ w a inp w' r, I w → M.exec tid w a inp = some (w', r) → I w')
    (h : Call R tid w p w' x) (hw : I w) : I w' := by
  induction h with
  | ret => exact hw
  | act inp hrule hexec _ ih => exact ih (hstep _ _ _ _ _ hw hexec)

theorem preserves_of_only {I : M.World → Prop} {p : S.Act → Prop} {q : Prog S α}
    (hstep : ∀ w a inp w' r, p a → I w → M.exec tid w a inp = some (w', r) → I w')
    (hq : q.Only p) (h : Call R tid w q w' x) (hw : I w) : I w' := by
  induction h with
  | ret => exact hw
  | act inp hrule hexec _ ih => exact ih (hq.2 _) (hstep _ _ _ _ _ hq.1 hw hexec)

/-- What each of the actions keeps, the call keeps. -/
theorem keeps_of_only {γ : Type} (f : M.World → γ) {p : S.Act → Prop} {q : Prog S α}
    (hkeeps : ∀ w a inp w' r, p a → M.exec tid w a inp = some (w', r) → f w' = f w)
    (hq : q.Only p) (h : Call R tid w q w' x) : f w' = f w :=
  preserves_of_only (I := fun u => f u = f w)
    (fun u a inp u' r ha hu hexec => (hkeeps u a inp u' r ha hexec).trans hu) hq h rfl

end Call

end TcpAdapter.Concurrent
