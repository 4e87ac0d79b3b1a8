import TcpAdapter.Concurrent.Machine

/-! # Machines that remember

The traced machine does what the machine does and writes down every action with its answer.
Rules for the traced machine may look at the trace, and so may what a thread knows. -/

namespace TcpAdapter.Concurrent

variable {S : Signature}

inductive Entry (S : Signature) where
  | did (tid : ℕ) (a : S.Act) (r : S.Res a)
  | crashed

/-- The newest entry of the trace comes first. -/
abbrev Machine.traced (M : Machine S) : Machine S where
  World := M.World × List (Entry S)
  Input := M.Input
  Task := M.Task
  exec tid w a inp :=
    (M.exec tid w.1 a inp).map fun res => ((res.1, .did tid a res.2 :: w.2), res.2)
  prog := M.prog
  crash w := (M.crash w.1, .crashed :: w.2)

variable {M : Machine S}

/-- The same step of the scheduler. -/
def Label.traced : Label M → Label M.traced
  | .start tid task => .start tid task
  | .run tid inp => .run tid inp
  | .crash => .crash

theorem exec_of_traced {tid : ℕ} {w w' : M.World × List (Entry S)} {a : S.Act} {inp : M.Input}
    {r : S.Res a} (h : M.traced.exec tid w a inp = some (w', r)) :
    M.exec tid w.1 a inp = some (w'.1, r) ∧ w'.2 = .did tid a r :: w.2 := by
  cases hres : M.exec tid w.1 a inp with
  | none =>
      simp only [hres, Option.map_none] at h
      cases h
  | some res =>
      simp only [hres, Option.map_some, Option.some.injEq, Prod.mk.injEq] at h
      obtain ⟨rfl, rfl⟩ := h
      exact ⟨rfl, rfl⟩

/-- What `f` makes of the last action of the thread that it makes something of. -/
def lastOf {β : Type} (f : (a : S.Act) → S.Res a → Option β) (tid : ℕ) :
    List (Entry S) → Option β
  | [] => none
  | .did other a r :: older =>
      if other = tid then (f a r).or (lastOf f tid older) else lastOf f tid older
  | .crashed :: older => lastOf f tid older

section lastOf

variable {β : Type} (f : (a : S.Act) → S.Res a → Option β) {tid other : ℕ} {a : S.Act} (r : S.Res a)
  (trace : List (Entry S))

theorem lastOf_other (hne : other ≠ tid) :
    lastOf f tid (.did other a r :: trace) = lastOf f tid trace :=
  if_neg hne

theorem lastOf_own : lastOf f tid (.did tid a r :: trace) = (f a r).or (lastOf f tid trace) :=
  if_pos rfl

end lastOf

/-- The state that a thread has got to by its own actions since the last crash, where every action
decides the next state. -/
def stateOf {V : Type} (after : V → (a : S.Act) → S.Res a → V) (v₀ : V) (tid : ℕ) :
    List (Entry S) → V
  | [] | .crashed :: _ => v₀
  | .did other a r :: older =>
      if other = tid then after (stateOf after v₀ tid older) a r else stateOf after v₀ tid older

section stateOf

variable {V : Type} {after : V → (a : S.Act) → S.Res a → V} {v₀ : V} {tid other : ℕ} {a : S.Act}
  {r : S.Res a} {trace : List (Entry S)}

theorem stateOf_other (hne : other ≠ tid) :
    stateOf after v₀ tid (.did other a r :: trace) = stateOf after v₀ tid trace :=
  if_neg hne

theorem stateOf_own :
    stateOf after v₀ tid (.did tid a r :: trace) = after (stateOf after v₀ tid trace) a r :=
  if_pos rfl

end stateOf

/-- `P` holds of every entry and what is older than it. -/
def Each (P : Entry S → List (Entry S) → Prop) : List (Entry S) → Prop
  | [] => True
  | e :: older => P e older ∧ Each P older

theorem Each.at_entry {P : Entry S → List (Entry S) → Prop} {newer older : List (Entry S)}
    {e : Entry S} (h : Each P (newer ++ e :: older)) : P e older := by
  induction newer with
  | nil => exact h.1
  | cons e' newer ih => exact ih h.2

/-- Rules that do not look at the trace. -/
abbrev Rules.traced (R : Rules M) : Rules M.traced where
  start w := R.start w.1
  act w := R.act w.1
  crash w := R.crash w.1

/-- A discipline of the machine is one of the traced machine. -/
def Discipline.traced {R : Rules M} {w₀ : M.World} {V : Type} (D : Discipline M R w₀ V)
    (R' : Rules M.traced) (hstart : ∀ w tid task, R'.start w tid task → R.start w.1 tid task)
    (hact : ∀ w tid a inp, R'.act w tid a inp → R.act w.1 tid a inp)
    (hcrash : ∀ w, R'.crash w → R.crash w.1) :
    Discipline M.traced R' (w₀, []) V where
  protocol := D.protocol
  knows tid w v := D.knows tid w.1 v
  idle := D.idle
  inv w := D.inv w.1
  init := D.init
  start hinv hv hi hs := D.start hinv hv hi (hstart _ _ _ hs)
  act hinv hv hrule hmay he := D.act hinv hv (hact _ _ _ _ hrule) hmay (exec_of_traced he).1
  crash hinv hc := D.crash hinv (hcrash _ hc)

/-- The threads keep a protocol in which every action decides the next state. -/
def Discipline.ofTrace {R : Rules M.traced} {w₀ : M.World} {V : Type} (P : Protocol S V)
    (after : V → (a : S.Act) → S.Res a → V) (v₀ : V) (idle : V → Prop) (hinit : idle v₀)
    (hnext : ∀ v a r, P.next v a r (after v a r))
    (hstart : ∀ w tid task v, R.start w tid task → idle v →
      (M.prog task).Respects P (fun _ v => idle v) v) :
    Discipline M.traced R (w₀, []) V where
  protocol := P
  knows tid w v := v = stateOf after v₀ tid w.2
  idle := idle
  inv _ := True
  init := ⟨trivial, fun _ => ⟨v₀, rfl, hinit⟩⟩
  start _ _ hidle hs := hstart _ _ _ _ hs hidle
  act := by
    rintro w tid a inp w' r v - rfl - - h
    rw [(exec_of_traced h).2]
    refine ⟨trivial, ⟨_, hnext _ a r, stateOf_own.symm⟩, fun other hne u hu => ?_⟩
    exact hu.trans (stateOf_other hne.symm).symm
  crash _ _ := ⟨trivial, fun _ => ⟨v₀, rfl, hinit⟩⟩

end TcpAdapter.Concurrent
