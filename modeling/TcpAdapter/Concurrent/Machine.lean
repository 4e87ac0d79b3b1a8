import TcpAdapter.Concurrent.Prog

/-! # Shared-memory machines

Threads run programs over one shared world. A scheduler starts tasks on idle threads,
lets a thread perform its next action with an input chosen by the environment, or
crashes the machine, which discards every thread. `Reachable` collects what any such
schedule can produce; the rules restrict the schedules a result speaks about. -/

namespace TcpAdapter.Concurrent

/-- `exec tid w a inp` performs action `a` of thread `tid` in world `w`. It is `none`
when the action has to wait. -/
structure Machine (S : Signature) where
  World : Type
  Input : Type
  Task : Type
  exec : ℕ → World → (a : S.Act) → Input → Option (World × S.Res a)
  prog : Task → Prog S Unit
  crash : World → World

variable {S : Signature} {M : Machine S}

structure Config (M : Machine S) where
  world : M.World
  threads : ℕ → Prog S Unit

inductive Label (M : Machine S) where
  | start (tid : ℕ) (task : M.Task)
  | run (tid : ℕ) (inp : M.Input)
  | crash

namespace Config

def initial (w : M.World) : Config M :=
  ⟨w, fun _ => .ret ()⟩

/-- One step of the scheduler, when it is possible. -/
def next (c : Config M) : Label M → Option (Config M)
  | .start tid task =>
      match c.threads tid with
      | .ret _ => some ⟨c.world, Function.update c.threads tid (M.prog task)⟩
      | .act _ _ => none
  | .run tid inp =>
      match c.threads tid with
      | .ret _ => none
      | .act a k =>
          match M.exec tid c.world a inp with
          | none => none
          | some (w, r) => some ⟨w, Function.update c.threads tid (k r)⟩
  | .crash => some (initial (M.crash c.world))

/-- What a step did: a thread started a task, a thread performed an action, or the
machine crashed. -/
theorem next_cases {c c' : Config M} {l : Label M} (h : c.next l = some c') :
    (∃ tid task x, l = .start tid task ∧ c.threads tid = .ret x ∧
      c' = ⟨c.world, Function.update c.threads tid (M.prog task)⟩) ∨
    (∃ tid inp a k w r, l = .run tid inp ∧ c.threads tid = .act a k ∧
      M.exec tid c.world a inp = some (w, r) ∧
      c' = ⟨w, Function.update c.threads tid (k r)⟩) ∨
    (l = .crash ∧ c' = initial (M.crash c.world)) := by
  cases l with
  | start tid task =>
      simp only [next] at h
      split at h
      · rename_i x hx
        exact .inl ⟨tid, task, x, rfl, hx, (Option.some.inj h).symm⟩
      · cases h
  | run tid inp =>
      simp only [next] at h
      split at h
      · cases h
      · rename_i a k hx
        split at h
        · cases h
        · rename_i w r he
          exact .inr (.inl ⟨tid, inp, a, k, w, r, rfl, hx, he, (Option.some.inj h).symm⟩)
  | crash => exact .inr (.inr ⟨rfl, (Option.some.inj h).symm⟩)

/-- A thread that was about to act has acted. -/
theorem next_run {c c' : Config M} {tid : ℕ} {inp : M.Input} {a : S.Act}
    {k : S.Res a → Prog S Unit} (ht : c.threads tid = .act a k)
    (h : c.next (.run tid inp) = some c') :
    ∃ w r, M.exec tid c.world a inp = some (w, r) ∧
      c' = ⟨w, Function.update c.threads tid (k r)⟩ := by
  rcases next_cases h with
    ⟨_, _, _, hl, _⟩ | ⟨_, _, _, _, w, r, hl, hx, he, hc'⟩ | ⟨hl, _⟩
  · cases hl
  · cases hl
    rw [ht] at hx
    cases hx
    exact ⟨w, r, he, hc'⟩
  · cases hl

end Config

/-- Conditions on the steps of a run: on the tasks it starts, on the actions its threads
perform, and on the worlds it crashes in. -/
structure Rules (M : Machine S) where
  start : M.World → ℕ → M.Task → Prop := fun _ _ _ => True
  act : M.World → ℕ → (a : S.Act) → M.Input → Prop := fun _ _ _ _ => True
  crash : M.World → Prop := fun _ => True

/-- No conditions. Rules are abbreviations, so that their conditions can be decided as such. -/
abbrev Rules.any (M : Machine S) : Rules M := {}

def Rules.Allows (R : Rules M) (c : Config M) : Label M → Prop
  | .start tid task => R.start c.world tid task
  | .run tid inp => ∀ a k, c.threads tid = .act a k → R.act c.world tid a inp
  | .crash => R.crash c.world

/-- The configurations that runs from `w₀` under the rules `R` pass through. -/
inductive Reachable (R : Rules M) (w₀ : M.World) : Config M → Prop where
  | initial : Reachable R w₀ (.initial w₀)
  | step {c c' : Config M} (l : Label M) (h : Reachable R w₀ c) (hl : R.Allows c l)
      (hn : c.next l = some c') : Reachable R w₀ c'

theorem Reachable.mono {R R' : Rules M} {w₀ : M.World} {c : Config M}
    (hR : ∀ c l, R.Allows c l → R'.Allows c l) (h : Reachable R w₀ c) :
    Reachable R' w₀ c := by
  induction h with
  | initial => exact .initial
  | step l _ hl hn ih => exact .step l ih (hR _ _ hl) hn

theorem Reachable.getD {R : Rules M} {w₀ : M.World} {c : Config M} {l : Label M}
    (h : Reachable R w₀ c) (hl : R.Allows c l) : Reachable R w₀ ((c.next l).getD c) := by
  cases hn : c.next l with
  | none => exact h
  | some c' => exact .step l h hl hn

/-! ## Schedules -/

section schedule

variable (R : Rules M) [∀ w tid task, Decidable (R.start w tid task)]
  [∀ w tid a inp, Decidable (R.act w tid a inp)] [∀ w, Decidable (R.crash w)]

/-- The step of the scheduler, if it is possible and the rules allow it. -/
def Config.try (c : Config M) : Label M → Config M
  | .start tid task =>
      if R.start c.world tid task then (c.next (.start tid task)).getD c else c
  | .run tid inp =>
      match c.threads tid with
      | .ret _ => c
      | .act a _ => if R.act c.world tid a inp then (c.next (.run tid inp)).getD c else c
  | .crash => if R.crash c.world then (c.next .crash).getD c else c

def Config.run (c : Config M) (labels : List (Label M)) : Config M :=
  labels.foldl (Config.try R) c

variable {R} {w₀ : M.World}

theorem Reachable.try {c : Config M} (h : Reachable R w₀ c) (l : Label M) :
    Reachable R w₀ (c.try R l) := by
  cases l with
  | start tid task =>
      simp only [Config.try]
      split
      · rename_i hl
        exact h.getD hl
      · exact h
  | run tid inp =>
      simp only [Config.try]
      split
      · exact h
      · rename_i a k hk
        split
        · rename_i hl
          refine h.getD fun a' k' hk' => ?_
          rw [hk] at hk'
          cases hk'
          exact hl
        · exact h
  | crash =>
      simp only [Config.try]
      split
      · rename_i hl
        exact h.getD hl
      · exact h

/-- What a schedule leads to is reachable. -/
theorem Reachable.run {c : Config M} (h : Reachable R w₀ c) (labels : List (Label M)) :
    Reachable R w₀ (c.run R labels) := by
  induction labels generalizing c with
  | nil => exact h
  | cons l labels ih => exact ih (h.try l)

end schedule

/-! ## A thread on its own -/

section alone

variable (R : Rules M) (tid : ℕ) {α β : Type}

/-- The thread can get from the program `p` in the world `w` to where `Q` holds, with inputs
that suit it and nobody else acting. -/
inductive Reaches (Q : M.World → Prog S α → Prop) : M.World → Prog S α → Prop where
  | here {w : M.World} {p : Prog S α} (h : Q w p) : Reaches Q w p
  | act {w w' : M.World} {a : S.Act} {k : S.Res a → Prog S α} {r : S.Res a} (inp : M.Input)
      (hrule : R.act w tid a inp) (hexec : M.exec tid w a inp = some (w', r))
      (h : Reaches Q w' (k r)) : Reaches Q w (.act a k)

variable {R tid}

theorem Reaches.mono {Q Q' : M.World → Prog S α → Prop} {w : M.World} {p : Prog S α}
    (h : Reaches R tid Q w p) (hQ : ∀ w p, Q w p → Q' w p) : Reaches R tid Q' w p := by
  induction h with
  | here h => exact .here (hQ _ _ h)
  | act inp hrule hexec _ ih => exact .act inp hrule hexec ih

theorem Reaches.bind {Q : M.World → Prog S β → Prop} {w : M.World} {p : Prog S α}
    {f : α → Prog S β}
    (h : Reaches R tid (fun w p => Reaches R tid Q w (p >>= f)) w p) :
    Reaches R tid Q w (p >>= f) := by
  induction h with
  | here h => exact h
  | act inp hrule hexec _ ih => exact .act inp hrule hexec ih

theorem Reachable.reaches {w₀ : M.World} {c : Config M} {Q : M.World → Prog S Unit → Prop}
    (h : Reachable R w₀ c) {w : M.World} {p : Prog S Unit} (hw : c.world = w)
    (hp : c.threads tid = p) (hr : Reaches R tid Q w p) :
    ∃ c', Reachable R w₀ c' ∧ Q c'.world (c'.threads tid) := by
  induction hr generalizing c with
  | here hQ =>
      subst hw hp
      exact ⟨c, h, hQ⟩
  | @act w w' a k r inp hrule hexec _ ih =>
      subst hw
      have hl : R.Allows c (.run tid inp) := by
        intro a' k' hk'
        rw [hp] at hk'
        cases hk'
        exact hrule
      have hn : c.next (.run tid inp) = some ⟨w', Function.update c.threads tid (k r)⟩ := by
        simp only [Config.next, hp, hexec]
      exact ih (.step _ h hl hn) rfl (Function.update_self ..)

/-- The thread starts a task. -/
theorem Reachable.task {w₀ : M.World} {c : Config M} {Q : M.World → Prog S Unit → Prop}
    {task : M.Task} (h : Reachable R w₀ c) (hidle : c.threads tid = .ret ())
    (hstart : R.start c.world tid task) (hr : Reaches R tid Q c.world (M.prog task)) :
    ∃ c', Reachable R w₀ c' ∧ Q c'.world (c'.threads tid) := by
  have hn : c.next (.start tid task) =
      some ⟨c.world, Function.update c.threads tid (M.prog task)⟩ := by
    simp only [Config.next, hidle]
  exact (Reachable.step (.start tid task) h hstart hn).reaches rfl (Function.update_self ..) hr

end alone

/-! ## Disciplines

A discipline ties a protocol to the machine. `knows tid w v` says that what thread `tid`
knows, `v`, is true of the world `w`. An action that the protocol permits moves the
thread's own knowledge as the protocol says, leaves what every other thread knows true,
and keeps `inv`. -/

structure Discipline (M : Machine S) (R : Rules M) (w₀ : M.World) (V : Type) where
  protocol : Protocol S V
  knows : ℕ → M.World → V → Prop
  idle : V → Prop
  inv : M.World → Prop
  init : inv w₀ ∧ ∀ tid, ∃ v, knows tid w₀ v ∧ idle v
  start : ∀ {w tid task v}, inv w → knows tid w v → idle v → R.start w tid task →
    (M.prog task).Respects protocol (fun _ v => idle v) v
  act : ∀ {w tid a inp w' r v}, inv w → knows tid w v → R.act w tid a inp →
    protocol.may v a → M.exec tid w a inp = some (w', r) →
    inv w' ∧ (∃ v', protocol.next v a r v' ∧ knows tid w' v') ∧
      ∀ other, other ≠ tid → ∀ u, knows other w u → knows other w' u
  crash : ∀ {w}, inv w → R.crash w →
    inv (M.crash w) ∧ ∀ tid, ∃ v, knows tid (M.crash w) v ∧ idle v

namespace Discipline

variable {R : Rules M} {w₀ : M.World} {V : Type} (D : Discipline M R w₀ V)

/-- Every thread of a reachable configuration still respects the protocol from something
it knows there, and the world keeps its invariant. -/
theorem sound {c : Config M} (h : Reachable R w₀ c) :
    D.inv c.world ∧ ∀ tid, ∃ v, D.knows tid c.world v ∧
      (c.threads tid).Respects D.protocol (fun _ v => D.idle v) v := by
  induction h with
  | initial => exact ⟨D.init.1, fun tid => D.init.2 tid⟩
  | @step c c' l _ hl hn ih =>
      obtain ⟨hinv, hthreads⟩ := ih
      rcases Config.next_cases hn with
        ⟨tid, task, x, rfl, hx, rfl⟩ | ⟨tid, inp, a, k, w, r, rfl, hx, he, rfl⟩ | ⟨rfl, rfl⟩
      · refine ⟨hinv, ?_⟩
        intro other
        by_cases ho : other = tid
        · subst ho
          obtain ⟨v, hv, hidle⟩ := hthreads other
          rw [hx] at hidle
          exact ⟨v, hv, by simpa using D.start hinv hv hidle hl⟩
        · simpa [Function.update_of_ne ho] using hthreads other
      · obtain ⟨v, hv, hr⟩ := hthreads tid
        rw [hx] at hr
        obtain ⟨hinv', ⟨v', hnext, hv'⟩, hframe⟩ := D.act hinv hv (hl a k hx) hr.1 he
        refine ⟨hinv', ?_⟩
        intro other
        by_cases ho : other = tid
        · subst ho
          exact ⟨v', hv', by simpa using hr.2 r v' hnext⟩
        · obtain ⟨u, hu, hru⟩ := hthreads other
          exact ⟨u, hframe other ho u hu, by simpa [Function.update_of_ne ho] using hru⟩
      · exact D.crash hinv hl

/-- A thread that is about to act is entitled to it by something it knows. -/
theorem may {c : Config M} (h : Reachable R w₀ c) {tid : ℕ} {a : S.Act}
    {k : S.Res a → Prog S Unit} (ht : c.threads tid = .act a k) :
    ∃ v, D.knows tid c.world v ∧ D.protocol.may v a := by
  obtain ⟨v, hv, hr⟩ := (D.sound h).2 tid
  rw [ht] at hr
  exact ⟨v, hv, hr.1⟩

/-- One action in a world that keeps its invariant, by a thread that is entitled to it. -/
structure Move (w w' : M.World) (tid : ℕ) (a : S.Act) (inp : M.Input) (r : S.Res a) (v : V) :
    Prop where
  inv : D.inv w
  rule : R.act w tid a inp
  knows : D.knows tid w v
  may : D.protocol.may v a
  exec : M.exec tid w a inp = some (w', r)

/-- One action of a run. -/
structure Step (c c' : Config M) (tid : ℕ) (a : S.Act) (inp : M.Input) (r : S.Res a) (v : V) :
    Prop extends D.Move c.world c'.world tid a inp r v where
  before : Reachable R w₀ c
  after : Reachable R w₀ c'

/-- The invariant rule: a property of the world that the actions of a run and the permitted
crashes preserve holds throughout every run. -/
theorem invariant {J : M.World → Prop} (h₀ : J w₀)
    (hact : ∀ {c c' tid a inp r v}, D.Step c c' tid a inp r v → J c.world → J c'.world)
    (hcrash : ∀ {c}, Reachable R w₀ c → R.crash c.world → J c.world → J (M.crash c.world))
    {c : Config M} (h : Reachable R w₀ c) : J c.world := by
  induction h with
  | initial => exact h₀
  | @step c c' l hc hl hn ih =>
      have hc' : Reachable R w₀ c' := .step l hc hl hn
      rcases Config.next_cases hn with
        ⟨tid, task, x, rfl, hx, rfl⟩ | ⟨tid, inp, a, k, w, r, rfl, hx, he, rfl⟩ | ⟨rfl, rfl⟩
      · exact ih
      · obtain ⟨v, hv, hmay⟩ := D.may hc hx
        exact hact ⟨⟨(D.sound hc).1, hl a k hx, hv, hmay, he⟩, hc, hc'⟩ ih
      · exact hcrash hc hl ih

/-- Add to what the world keeps and to what a thread knows. A thread's own move keeps `J` and
`K`, where `K` may rest on what the thread knew and on what the protocol lets it know now;
the move of another thread keeps `K`. -/
def strengthen (J : M.World → Prop) (K : ℕ → M.World → V → Prop) (hinit : J w₀)
    (hidle : ∀ tid w v, D.idle v → K tid w v)
    (hown : ∀ {w w' tid a inp r v v'}, D.Move w w' tid a inp r v → J w → K tid w v →
      D.protocol.next v a r v' → D.knows tid w' v' → J w' ∧ K tid w' v')
    (hother : ∀ {w w' tid a inp r v other u}, D.Move w w' tid a inp r v → J w → other ≠ tid →
      D.knows other w u → K other w u → K other w' u)
    (hcrash : ∀ {w}, J w → R.crash w → J (M.crash w)) : Discipline M R w₀ V where
  protocol := D.protocol
  knows tid w v := D.knows tid w v ∧ K tid w v
  idle := D.idle
  inv w := D.inv w ∧ J w
  init := by
    refine ⟨⟨D.init.1, hinit⟩, fun tid => ?_⟩
    obtain ⟨v, hv, hi⟩ := D.init.2 tid
    exact ⟨v, ⟨hv, hidle tid w₀ v hi⟩, hi⟩
  start hinv hv := D.start hinv.1 hv.1
  act := by
    intro w tid a inp w' r v hinv hv hrule hmay he
    have hmove : D.Move w w' tid a inp r v := ⟨hinv.1, hrule, hv.1, hmay, he⟩
    obtain ⟨hinv', ⟨v', hnext, hv'⟩, hframe⟩ := D.act hinv.1 hv.1 hrule hmay he
    obtain ⟨hJ, hK⟩ := hown hmove hinv.2 hv.2 hnext hv'
    refine ⟨⟨hinv', hJ⟩, ⟨v', hnext, hv', hK⟩, ?_⟩
    intro other hne u hu
    exact ⟨hframe other hne u hu.1, hother hmove hinv.2 hne hu.1 hu.2⟩
  crash := by
    intro w hinv hc
    refine ⟨⟨(D.crash hinv.1 hc).1, hcrash hinv.2 hc⟩, fun tid => ?_⟩
    obtain ⟨v, hv, hi⟩ := (D.crash hinv.1 hc).2 tid
    exact ⟨v, ⟨hv, hidle tid _ v hi⟩, hi⟩

/-- The same discipline under stricter rules. -/
def restrict (R' : Rules M) (hstart : ∀ w tid task, R'.start w tid task → R.start w tid task)
    (hact : ∀ w tid a inp, R'.act w tid a inp → R.act w tid a inp)
    (hcrash : ∀ w, R'.crash w → R.crash w) : Discipline M R' w₀ V where
  protocol := D.protocol
  knows := D.knows
  idle := D.idle
  inv := D.inv
  init := D.init
  start hinv hv hi hs := D.start hinv hv hi (hstart _ _ _ hs)
  act hinv hv hrule hmay he := D.act hinv hv (hact _ _ _ _ hrule) hmay he
  crash hinv hc := D.crash hinv (hcrash _ hc)

/-- Two disciplines at once. -/
def prod {V' : Type} (D' : Discipline M R w₀ V') : Discipline M R w₀ (V × V') where
  protocol := D.protocol.prod D'.protocol
  knows tid w v := D.knows tid w v.1 ∧ D'.knows tid w v.2
  idle v := D.idle v.1 ∧ D'.idle v.2
  inv w := D.inv w ∧ D'.inv w
  init := by
    refine ⟨⟨D.init.1, D'.init.1⟩, fun tid => ?_⟩
    obtain ⟨v, hv, hi⟩ := D.init.2 tid
    obtain ⟨v', hv', hi'⟩ := D'.init.2 tid
    exact ⟨(v, v'), ⟨hv, hv'⟩, hi, hi'⟩
  start hinv hv hi hs := (D.start hinv.1 hv.1 hi.1 hs).prod (D'.start hinv.2 hv.2 hi.2 hs)
  act := by
    intro w tid a inp w' r v hinv hv hrule hmay he
    obtain ⟨hinv₁, ⟨v₁, hnext₁, hv₁⟩, hframe₁⟩ := D.act hinv.1 hv.1 hrule hmay.1 he
    obtain ⟨hinv₂, ⟨v₂, hnext₂, hv₂⟩, hframe₂⟩ := D'.act hinv.2 hv.2 hrule hmay.2 he
    refine ⟨⟨hinv₁, hinv₂⟩, ⟨(v₁, v₂), ⟨hnext₁, hnext₂⟩, hv₁, hv₂⟩, ?_⟩
    intro other hne u hu
    exact ⟨hframe₁ other hne u.1 hu.1, hframe₂ other hne u.2 hu.2⟩
  crash := by
    intro w hinv hc
    obtain ⟨hinv₁, hthreads₁⟩ := D.crash hinv.1 hc
    obtain ⟨hinv₂, hthreads₂⟩ := D'.crash hinv.2 hc
    refine ⟨⟨hinv₁, hinv₂⟩, fun tid => ?_⟩
    obtain ⟨v, hv, hi⟩ := hthreads₁ tid
    obtain ⟨v', hv', hi'⟩ := hthreads₂ tid
    exact ⟨(v, v'), ⟨hv, hv'⟩, hi, hi'⟩

end Discipline

end TcpAdapter.Concurrent
