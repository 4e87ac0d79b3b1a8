import TcpAdapter.Concurrent.Machine

/-! # Simulation of one machine by another

A machine shows another when each of its actions either shows as an action of the other or not
at all. Threads are compared by their programs: what a thread of the first machine still has to
do shows as what the thread of the same number in the second machine still has to do, where the
second may start a task as soon as the first gets to it. -/

namespace TcpAdapter.Concurrent

variable {S T : Signature}

/-- How the actions of `S` show in `T`. -/
structure Showing (S T : Signature) where
  image : (a : S.Act) → Option ((b : T.Act) × (S.Res a → T.Res b))
  /-- A thread may do this without showing it in the middle of a task of the other machine. -/
  aside : S.Act → Prop
  /-- The other machine may do this at any time and get any answer. -/
  free : T.Act → Prop

/-- What a thread still has to do shows as `q`. -/
inductive Follows (F : Showing S T) (task : Prog T Unit → Prop) :
    Prog S Unit → Prog T Unit → Prop where
  | done : Follows F task (.ret ()) (.ret ())
  | silent {a : S.Act} {k : S.Res a → Prog S Unit} {q : Prog T Unit} (ha : F.image a = none)
      (haside : F.aside a ∨ q = .ret ()) (h : ∀ r, Follows F task (k r) q) :
      Follows F task (.act a k) q
  | seen {a : S.Act} {k : S.Res a → Prog S Unit} {b : T.Act} {f : S.Res a → T.Res b}
      {k' : T.Res b → Prog T Unit} (ha : F.image a = some ⟨b, f⟩)
      (h : ∀ r, Follows F task (k r) (k' (f r))) : Follows F task (.act a k) (.act b k')
  | catchUp {p : Prog S Unit} {b : T.Act} {k' : T.Res b → Prog T Unit} (hb : F.free b)
      (r : T.Res b) (h : Follows F task p (k' r)) : Follows F task p (.act b k')
  | start {p : Prog S Unit} {q : Prog T Unit} (hq : task q) (h : Follows F task p q) :
      Follows F task p (.ret ())

section programs

variable {F : Showing S T} {task : Prog T Unit → Prop} {α β : Type} {post : α → Prop}

/-- The program does nothing that shows, and it returns with `post`. -/
def Showing.Hidden (F : Showing S T) (post : α → Prop) : Prog S α → Prop
  | .ret x => post x
  | .act a k => F.image a = none ∧ ∀ r, F.Hidden post (k r)

theorem Showing.Hidden.bind {post' : β → Prop} {p : Prog S α} {k : α → Prog S β}
    (hp : F.Hidden post p) (hk : ∀ x, post x → F.Hidden post' (k x)) :
    F.Hidden post' (p >>= k) := by
  induction p with
  | ret x => exact hk x hp
  | act a k' ih => exact ⟨hp.1, fun r => ih r (hp.2 r)⟩

theorem Prog.Only.hidden {p : Prog S α} (h : p.Only fun a => F.image a = none) :
    F.Hidden (fun _ => True) p := by
  induction p with
  | ret x => trivial
  | act a k ih => exact ⟨h.1, fun r => ih r (h.2 r)⟩

/-- A thread that has not started a task of the other machine may do what does not show. -/
theorem Follows.hidden {p : Prog S α} {k : α → Prog S Unit} (hp : F.Hidden post p)
    (hk : ∀ x, post x → Follows F task (k x) (.ret ())) : Follows F task (p >>= k) (.ret ()) := by
  induction p with
  | ret x => exact hk x hp
  | act a k' ih => exact .silent hp.1 (.inr rfl) fun r => ih r (hp.2 r)

theorem Follows.of_hidden {post : Unit → Prop} {p : Prog S Unit} (hp : F.Hidden post p) :
    Follows F task p (.ret ()) := by
  induction p with
  | ret x => exact .done
  | act a k ih => exact .silent hp.1 (.inr rfl) fun r => ih r (hp.2 r)

end programs

/-! ## The simulation -/

variable {M : Machine S} {N : Machine T} {R : Rules M} {w₀ : M.World} {V : Type}

/-- The programs of the tasks of a machine. -/
def Machine.IsTask (N : Machine T) (q : Prog T Unit) : Prop :=
  ∃ task, q = N.prog task

/-- The second machine can do what the first one shows. `view w u` says that `u` is what the
second sees in place of `w`. -/
structure Simulation (D : Discipline M R w₀ V) (F : Showing S T) (N : Machine T) (u₀ : N.World)
    where
  view : M.World → N.World → Prop
  init : view w₀ u₀
  start : ∀ task, Follows F N.IsTask (M.prog task) (.ret ())
  seen : ∀ {w w' tid a inp r v u b f}, D.Move w w' tid a inp r v → view w u →
    F.image a = some ⟨b, f⟩ → ∃ inp' u', N.exec tid u b inp' = some (u', f r) ∧ view w' u'
  silent : ∀ {w w' tid a inp r v} {e : Config N}, D.Move w w' tid a inp r v → view w e.world →
    F.image a = none → Reachable (Rules.any N) u₀ e → (F.aside a ∨ e.threads tid = .ret ()) →
    view w' e.world
  free : ∀ {b}, F.free b → ∀ tid u r, ∃ inp, N.exec tid u b inp = some (u, r)
  crash : ∀ {w u}, R.crash w → view w u → view (M.crash w) (N.crash u)

/-- One action of a thread, with the other threads where they were. -/
theorem Reachable.perform {u₀ : N.World} {e : Config N} (he : Reachable (Rules.any N) u₀ e)
    {tid : ℕ} {b : T.Act} {k : T.Res b → Prog T Unit} {inp : N.Input} {u : N.World}
    {r : T.Res b} (ht : e.threads tid = .act b k) (hexec : N.exec tid e.world b inp = some (u, r)) :
    Reachable (Rules.any N) u₀ ⟨u, Function.update e.threads tid (k r)⟩ := by
  refine .step (.run tid inp) he (fun _ _ _ => trivial) ?_
  simp only [Config.next, ht, hexec]

namespace Simulation

variable {D : Discipline M R w₀ V} {F : Showing S T} {u₀ : N.World} (sim : Simulation D F N u₀)

include sim

/-- Getting a thread of the second machine to where the first shows an action, or to its end,
costs free actions and starts of tasks only. -/
theorem catchUp {p : Prog S Unit} {q : Prog T Unit} (h : Follows F N.IsTask p q) {tid : ℕ}
    {e : Config N} (he : Reachable (Rules.any N) u₀ e) (ht : e.threads tid = q) :
    ∃ q', Reachable (Rules.any N) u₀ ⟨e.world, Function.update e.threads tid q'⟩ ∧
      ((p = .ret () ∧ q' = .ret ()) ∨
        (∃ a k, p = .act a k ∧ F.image a = none ∧ (F.aside a ∨ q' = .ret ()) ∧
          ∀ r, Follows F N.IsTask (k r) q') ∨
        ∃ a k b f k', p = .act a k ∧ q' = .act b k' ∧ F.image a = some ⟨b, f⟩ ∧
          ∀ r, Follows F N.IsTask (k r) (k' (f r))) := by
  have hstay : Reachable (Rules.any N) u₀ ⟨e.world, Function.update e.threads tid q⟩ := by
    rw [← ht, Function.update_eq_self]
    exact he
  induction h generalizing e with
  | done => exact ⟨.ret (), hstay, .inl ⟨rfl, rfl⟩⟩
  | silent ha haside h => exact ⟨_, hstay, .inr (.inl ⟨_, _, rfl, ha, haside, h⟩)⟩
  | seen ha h => exact ⟨_, hstay, .inr (.inr ⟨_, _, _, _, _, rfl, rfl, ha, h⟩)⟩
  | catchUp hb r _ ih =>
      obtain ⟨inp, hexec⟩ := sim.free hb tid e.world r
      have hnext := he.perform ht hexec
      obtain ⟨q', hq', hcases⟩ := ih hnext (Function.update_self ..)
        (by rwa [Function.update_idem])
      exact ⟨q', by rwa [Function.update_idem] at hq', hcases⟩
  | start hq _ ih =>
      obtain ⟨task, rfl⟩ := hq
      have hnext : Reachable (Rules.any N) u₀
          ⟨e.world, Function.update e.threads tid (N.prog task)⟩ :=
        .step (.start tid task) he trivial (by simp only [Config.next, ht])
      obtain ⟨q', hq', hcases⟩ := ih hnext (Function.update_self ..)
        (by rwa [Function.update_idem])
      exact ⟨q', by rwa [Function.update_idem] at hq', hcases⟩

/-- The states of the first machine show as states that the second machine reaches. -/
theorem sound {c : Config M} (hc : Reachable R w₀ c) :
    ∃ e, Reachable (Rules.any N) u₀ e ∧ sim.view c.world e.world ∧
      ∀ tid, Follows F N.IsTask (c.threads tid) (e.threads tid) := by
  induction hc with
  | initial => exact ⟨.initial u₀, .initial, sim.init, fun _ => .done⟩
  | @step c c' l hc hl hn ih =>
      obtain ⟨e, he, hview, hthreads⟩ := ih
      rcases Config.next_cases hn with
        ⟨tid, task, x, rfl, hx, rfl⟩ | ⟨tid, inp, a, k, w, r, rfl, hx, hexec, rfl⟩ | ⟨rfl, rfl⟩
      · obtain ⟨q', he', hcases⟩ := sim.catchUp (hthreads tid) he rfl
        rw [hx] at hcases
        have hq' : q' = .ret () := by
          rcases hcases with ⟨-, hq'⟩ | ⟨_, _, ⟨⟩, _⟩ | ⟨_, _, _, _, _, ⟨⟩, _⟩
          exact hq'
        refine ⟨_, he', hview, fun other => ?_⟩
        by_cases ho : other = tid
        · subst ho
          simpa [hq'] using sim.start task
        · simpa [Function.update_of_ne ho] using hthreads other
      · obtain ⟨v, hv, hmay⟩ := D.may hc hx
        have hmove : D.Move c.world w tid a inp r v := ⟨(D.sound hc).1, hl a k hx, hv, hmay, hexec⟩
        obtain ⟨q', he', hcases⟩ := sim.catchUp (hthreads tid) he rfl
        rw [hx] at hcases
        rcases hcases with ⟨⟨⟩, -⟩ | ⟨_, _, ⟨⟩, ha, haside, hk⟩ | ⟨_, _, b, f, k', ⟨⟩, rfl, ha, hk⟩
        · refine ⟨_, he', ?_, fun other => ?_⟩
          · exact sim.silent hmove hview ha he' (by simpa using haside)
          · by_cases ho : other = tid
            · subst ho
              simpa using hk r
            · simpa [Function.update_of_ne ho] using hthreads other
        · obtain ⟨inp', u', hexec', hview'⟩ := sim.seen hmove hview ha
          refine ⟨_, he'.perform (Function.update_self ..) hexec', hview', fun other => ?_⟩
          by_cases ho : other = tid
          · subst ho
            simpa using hk r
          · simpa [Function.update_of_ne ho] using hthreads other
      · exact ⟨.initial (N.crash e.world), .step .crash he trivial rfl, sim.crash hl hview,
          fun _ => .done⟩

end Simulation

end TcpAdapter.Concurrent
