import TcpAdapter.Concurrent.Call
import TcpAdapter.Model.Server.Programs

/-! # Calls for one controller

What a goroutine does for one controller while nobody disturbs it is a call of the delivery
engine. It leaves the other controllers alone, and the clock does not run backwards. -/

namespace TcpAdapter.Server

open TcpAdapter.Concurrent TcpAdapter.Queue TcpAdapter.Manager
open TcpAdapter.Delivery (Deliver)

namespace World

/-- What the delivery engine of a controller sees. -/
def view (w : World) (id : String) : Delivery.World :=
  { w.deliveries id with mu := w.mu }

/-- The delivery engine of a controller has acted, at a time. -/
def put (w : World) (id : String) (v : Delivery.World) (t : Time) : World :=
  { w with
    clock := t
    mu := v.mu
    controllers := w.controllers.insert id
    deliveries := Function.update w.deliveries id v }

@[simp] theorem view_put (w : World) (id : String) (v : Delivery.World) (t : Time) :
    (w.put id v t).view id = v := by
  simp [view, put]

@[simp] theorem view_session (w : World) (id : String) :
    (w.view id).session = (w.deliveries id).session := rfl

end World

/-- The two worlds differ only in what belongs to one controller. -/
structure Apart (id : String) (w w' : World) : Prop where
  others : ∀ other, other ≠ id → w'.deliveries other = w.deliveries other
  clock : w.clock ≤ w'.clock

theorem Apart.refl (id : String) (w : World) : Apart id w w :=
  ⟨fun _ _ => rfl, Int.le_refl _⟩

theorem Apart.trans {id : String} {w w' w'' : World} (h : Apart id w w') (h' : Apart id w' w'') :
    Apart id w w'' :=
  ⟨fun other hne => (h'.others other hne).trans (h.others other hne),
    Int.le_trans h.clock h'.clock⟩

theorem Apart.put {w : World} {t : Time} (id : String) (v : Delivery.World) (h : w.clock ≤ t) :
    Apart id w (w.put id v t) :=
  ⟨fun _ hne => Function.update_of_ne hne _ _, h⟩

section calls

variable {cfg : Config} {remoteHost : ConnID → String} {R : Rules (machine cfg remoteHost)}
  {tid : ℕ} {id : String} {w w' : World} {α β : Type} {x : α}

/-- The input that an action of the delivery engine gets. -/
def deliveryInput (w : World) (inp : Input) : Delivery.Input :=
  { inp.toInput with online := w.onlineConnectionsLocked }

theorem exec_deliver {a : Delivery.Act} {inp : Input} {r : a.Res}
    (h : exec cfg remoteHost tid w (.deliver id a) inp = some (w', r)) :
    w.clock ≤ inp.time ∧ ∃ v, w' = w.put id v inp.time ∧
      Delivery.exec cfg.delivery id tid (w.view id) a (deliveryInput w inp) = some (v, r) := by
  rw [exec] at h
  split at h
  · rename_i hclock
    obtain ⟨⟨v, r'⟩, hexec, heq⟩ := Option.map_eq_some_iff.mp h
    obtain ⟨rfl, rfl⟩ := Prod.mk.inj heq
    exact ⟨hclock, v, rfl, hexec⟩
  · cases h

/-! ### Actions of the engines -/

/-- The controller whose delivery engine the action belongs to, the action of that engine, and
what the answer is to it. -/
def Act.engine : (a : Act) → Option (String × (b : Delivery.Act) × (a.Res → b.Res))
  | .create id conn => some (id, ⟨.create conn, fun r => r⟩)
  | .markOffline id _ => some (id, ⟨.markOffline, fun r => r⟩)
  | .deliver id a => some (id, ⟨a, fun r => r⟩)
  | _ => none

/-- The action of the engine has taken place, and nothing else has happened to the engines. -/
theorem exec_engine {a : Act} {b : Delivery.Act} {f : a.Res → b.Res} {inp : Input} {r : a.Res}
    (ha : a.engine = some (id, ⟨b, f⟩)) (h : exec cfg remoteHost tid w a inp = some (w', r)) :
    ∃ v, Delivery.exec cfg.delivery id tid (w.view id) b (deliveryInput w inp) = some (v, f r) ∧
      w'.deliveries = Function.update w.deliveries id v ∧ w'.mu = v.mu := by
  rw [exec] at h
  split at h
  · cases a with
    | create _ conn =>
        cases ha
        obtain ⟨⟨w₁, r₁⟩, hdeliver, heq⟩ := Option.map_eq_some_iff.mp h
        obtain ⟨⟨v, r₂⟩, hexec, hput⟩ := Option.map_eq_some_iff.mp hdeliver
        obtain ⟨rfl, rfl⟩ := Prod.mk.inj hput
        dsimp only at heq
        split at heq
        · obtain ⟨rfl, rfl⟩ := Prod.mk.inj heq
          exact ⟨v, hexec, rfl, rfl⟩
        · obtain ⟨rfl, rfl⟩ := Prod.mk.inj heq
          exact ⟨v, hexec, rfl, rfl⟩
    | markOffline _ conn =>
        cases ha
        obtain ⟨⟨w₁, r₁⟩, hdeliver, heq⟩ := Option.map_eq_some_iff.mp h
        obtain ⟨⟨v, r₂⟩, hexec, hput⟩ := Option.map_eq_some_iff.mp hdeliver
        obtain ⟨rfl, rfl⟩ := Prod.mk.inj hput
        obtain ⟨rfl, rfl⟩ := Prod.mk.inj heq
        exact ⟨v, hexec, rfl, rfl⟩
    | deliver _ a =>
        cases ha
        obtain ⟨⟨v, r₁⟩, hexec, hput⟩ := Option.map_eq_some_iff.mp h
        obtain ⟨rfl, rfl⟩ := Prod.mk.inj hput
        exact ⟨v, hexec, rfl, rfl⟩
    | _ => cases ha
  · cases h

/-- The other actions leave the engines alone. -/
theorem exec_off_engine {a : Act} {inp : Input} {r : a.Res} (ha : a.engine = none)
    (h : exec cfg remoteHost tid w a inp = some (w', r)) :
    w'.deliveries = w.deliveries ∧ w'.mu = w.mu := by
  rw [exec] at h
  split at h
  · cases a with
    | create | markOffline | deliver => cases ha
    | spin => cases h
    | isIPBlocked host now =>
        obtain rfl := congrArg Prod.fst (Option.some.inj h)
        unfold isIPBlocked
        split
        · exact ⟨rfl, rfl⟩
        · split
          · exact ⟨rfl, rfl⟩
          · split
            · exact ⟨rfl, rfl⟩
            · split <;> exact ⟨rfl, rfl⟩
    | registerIPViolation host now =>
        cases h
        unfold registerIPViolation
        split <;> exact ⟨rfl, rfl⟩
    | tryTrackConn conn =>
        simp only [execNow, tryTrackConn] at h
        split at h
        · rename_i htrack
          split at htrack <;> cases htrack
          cases h
          exact ⟨rfl, rfl⟩
        · rename_i htrack
          split at htrack <;> cases htrack
          cases h
          exact ⟨rfl, rfl⟩
    | begin conn =>
        simp only [execNow] at h
        split at h <;> cases h
        exact ⟨rfl, rfl⟩
    | close conn =>
        cases h
        dsimp only
        split <;> exact ⟨rfl, rfl⟩
    | readFrame conn mode =>
        simp only [execNow, execRead] at h
        split at h
        · cases h
        · split at h <;> cases h <;> exact ⟨rfl, rfl⟩
    | _ =>
        cases h
        exact ⟨rfl, rfl⟩
  · cases h

theorem deliver_bind (id : String) (p : Deliver α) (f : α → Deliver β) :
    deliver id (p >>= f) = deliver id p >>= fun x => deliver id (f x) := by
  induction p with
  | ret x => rfl
  | act a k ih => exact congrArg (Prog.act (S := sig) (.deliver id a)) (funext ih)

/-- The first action of a call. -/
theorem of_deliver {a : Delivery.Act} {k : a.Res → Deliver α}
    (h : Call R tid w (deliver id (Delivery.perform a >>= k)) w' x) :
    ∃ inp v r, R.act w tid (.deliver id a) inp ∧ w.clock ≤ inp.time ∧
      Delivery.exec cfg.delivery id tid (w.view id) a (deliveryInput w inp) = some (v, r) ∧
        Call R tid (w.put id v inp.time) (deliver id (k r)) w' x := by
  obtain ⟨inp, w₁, r, hrule, hstep, h⟩ := Call.of_act h
  obtain ⟨hclock, v, rfl, hexec⟩ := exec_deliver hstep
  exact ⟨inp, v, r, hrule, hclock, hexec, h⟩

/-- The call as a call of the delivery engine. Its rules have to allow what the environment does
from the start of the call on. -/
theorem call_of_deliver {D : Rules (Delivery.machine cfg.delivery id)} {p : Deliver α}
    (h : Call R tid w (deliver id p) w' x)
    (hrules : ∀ u a inp, w.clock ≤ inp.time → R.act u tid (.deliver id a) inp →
      D.act (u.view id) tid a (deliveryInput u inp)) :
    Call D tid (w.view id) p (w'.view id) x ∧ Apart id w w' := by
  induction p generalizing w with
  | ret y =>
      obtain ⟨rfl, rfl⟩ := Call.of_ret h
      exact ⟨.ret _ _, .refl id w'⟩
  | act a k ih =>
      obtain ⟨inp, w₁, r, hrule, hstep, h⟩ := Call.of_act h
      obtain ⟨hclock, v, rfl, hexec⟩ := exec_deliver hstep
      obtain ⟨hcall, hapart⟩ := ih r h
        fun u a inp' hle hrule => hrules u a inp' (Int.le_trans hclock hle) hrule
      rw [World.view_put] at hcall
      exact ⟨.act _ (hrules w a inp hclock hrule) hexec hcall, (Apart.put id v hclock).trans hapart⟩

end calls

end TcpAdapter.Server
