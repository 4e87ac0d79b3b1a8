import Mathlib.Data.Set.Card
import TcpAdapter.Model.Restore
import TcpAdapter.Verification.Server.Books
import TcpAdapter.Verification.Server.Calls
import TcpAdapter.Verification.Server.Duties

/-! # The connection limit of the manager

`Create` holds a new session against the limit, but not a session that it attaches to a new
connection. So the manager alone keeps the limit exactly if nobody comes back while it is full.
(In the server the accept loop counts the connections before they get to the manager.) -/

namespace TcpAdapter.Server

open TcpAdapter.Concurrent TcpAdapter.Queue TcpAdapter.Manager

/-! ## The methods of the manager -/

/-- `Manager.Restore`, when `ListSessions` answers `listed`. -/
def World.restore (w : World) (listed : Except Error (List SessionSnapshot)) : World :=
  let sessions : Sessions := fun id => (w.deliveries id).session
  let rows := listed.toOption.getD []
  { w with
    controllers := rows.map SessionSnapshot.controllerID ∪ w.controllers
    deliveries := fun id =>
      let slot := { (w.deliveries id).slot with session := (sessions.restore listed).1 id }
      { w.deliveries id with slot := slot } }

/-- The loop that makes room in `Enqueue` may go round as often as `fuel` says. -/
inductive ManagerCall where
  | create (id : String) (conn : ConnID)
  | markOffline (id : String) (conn : ConnID)
  | enqueue (id : String) (cmd : Command) (fuel : ℕ)
  | restore (listed : Except Error (List SessionSnapshot))

/-- A call of the manager, by some goroutine, from one world to another. -/
inductive Performs (cfg : Config) (remoteHost : ConnID → String) :
    World → ManagerCall → World → Prop where
  | create {w w' : World} {id : String} {conn : ConnID} {tid : ℕ} {r : Option Error}
      (h : Call (Rules.any (machine cfg remoteHost)) tid w (perform (.create id conn)) w' r) :
      Performs cfg remoteHost w (.create id conn) w'
  | markOffline {w w' : World} {id : String} {conn : ConnID} {tid : ℕ} {r : Option Error}
      (h : Call (Rules.any (machine cfg remoteHost)) tid w (perform (.markOffline id conn)) w' r) :
      Performs cfg remoteHost w (.markOffline id conn) w'
  | enqueue {w w' : World} {id : String} {cmd : Command} {fuel tid : ℕ} {r : Option Error}
      (h : Call (Rules.any (machine cfg remoteHost)) tid w
        (deliver id (Delivery.enqueue cfg.delivery id cmd fuel)) w' r) :
      Performs cfg remoteHost w (.enqueue id cmd fuel) w'
  | restore (w : World) (listed : Except Error (List SessionSnapshot)) :
      Performs cfg remoteHost w (.restore listed) (w.restore listed)

structure Transition where
  before : World
  call : ManagerCall
  after : World

/-- Calls, one after the other. -/
inductive Run (cfg : Config) (remoteHost : ConnID → String) : World → List Transition → Prop where
  | nil (w : World) : Run cfg remoteHost w []
  | cons {w w' : World} {call : ManagerCall} {steps : List Transition}
      (hstep : Performs cfg remoteHost w call w') (hrest : Run cfg remoteHost w' steps) :
      Run cfg remoteHost w (⟨w, call, w'⟩ :: steps)

/-! ## Sessions with a connection -/

def World.online (w : World) : Set String :=
  {id | (w.connOf id).isSome}

/-- The manager's list has every session with a connection once. -/
structure Listed (w : World) : Prop where
  nodup : w.controllers.Nodup
  mem : ∀ id ∈ w.online, id ∈ w.controllers

theorem Listed.online_eq {w : World} (h : Listed w) :
    w.online = (w.controllers.filter fun id => (w.connOf id).isSome).toFinset := by
  ext id
  simp only [List.coe_toFinset, List.mem_filter, Set.mem_ofPred_eq]
  exact ⟨fun hid => ⟨h.mem id hid, hid⟩, fun hid => hid.2⟩

theorem Listed.finite {w : World} (h : Listed w) : w.online.Finite := by
  rw [h.online_eq]
  exact Finset.finite_toSet _

theorem Listed.ncard_online {w : World} (h : Listed w) :
    (w.online.ncard : Int) = w.onlineConnectionsLocked := by
  rw [h.online_eq, Set.ncard_coe_finset, List.toFinset_card_of_nodup (h.nodup.filter _)]
  rfl

/-! ## What a call does to the connections -/

section calls

variable {cfg : Config} {remoteHost : ConnID → String} {tid : ℕ} {w w' : World} {id : String}
  {conn : ConnID} {inp : Input}

theorem deliver_only {α : Type} {p : Delivery.Act → Prop} {q : Delivery.Deliver α} (id : String)
    (h : q.Only p) : (deliver id q).Only fun a : Act => ∃ a', a = .deliver id a' ∧ p a' := by
  induction q with
  | ret x => trivial
  | act a k ih => exact ⟨⟨a, rfl, h.1⟩, fun r => ih r (h.2 r)⟩

theorem execDeliver_controllers {a : Delivery.Act} {r : a.Res}
    (h : execDeliver cfg tid w id a inp = some (w', r)) :
    w'.controllers = w.controllers.insert id := by
  obtain ⟨d, inp', -, rfl⟩ := execDeliver_eq h
  rfl

/-- `Create` holds a session that it makes against the limit. -/
theorem create_room (h : execDeliver cfg tid w id (.create conn) inp = some (w', none))
    (hnew : (w.deliveries id).session = none) :
    w.onlineConnectionsLocked < cfg.maxConnections := by
  obtain ⟨⟨d, r⟩, hexec, heq⟩ := Option.map_eq_some_iff.mp h
  obtain ⟨-, hr⟩ := Prod.mk.inj heq
  obtain ⟨-, hcreate⟩ := Prod.mk.inj (Delivery.guarded_eq_some hexec)
  have hslot : (w.deliveries id).slot.session = none := hnew
  by_contra hfull
  have hfull : w.onlineConnectionsLocked ≥ cfg.delivery.maxConnections := Int.not_lt.mp hfull
  simp only [Slot.create, hslot, if_pos hfull] at hcreate
  cases hcreate.trans hr

/-- The actions of the server keep a stage for every connection besides. -/
theorem execDeliver_of_create {r : Option Error}
    (h : exec cfg remoteHost tid w (.create id conn) inp = some (w', r)) :
    ∃ w₁ stage, execDeliver cfg tid { w with clock := inp.time } id (.create conn) inp =
      some (w₁, r) ∧ w' = { w₁ with stage := stage } := by
  rw [exec] at h
  split at h
  · obtain ⟨⟨w₁, r'⟩, hexec, heq⟩ := Option.map_eq_some_iff.mp h
    dsimp only at heq
    split at heq
    · obtain ⟨rfl, rfl⟩ := Prod.mk.inj heq
      exact ⟨w₁, _, hexec, rfl⟩
    · obtain ⟨rfl, rfl⟩ := Prod.mk.inj heq
      exact ⟨w₁, _, hexec, rfl⟩
  · cases h

theorem execDeliver_of_markOffline {r : Option Error}
    (h : exec cfg remoteHost tid w (.markOffline id conn) inp = some (w', r)) :
    ∃ w₁ stage, execDeliver cfg tid { w with clock := inp.time } id .markOffline inp =
      some (w₁, r) ∧ w' = { w₁ with stage := stage } := by
  rw [exec] at h
  split at h
  · obtain ⟨⟨w₁, r'⟩, hexec, heq⟩ := Option.map_eq_some_iff.mp h
    obtain ⟨rfl, rfl⟩ := Prod.mk.inj heq
    exact ⟨w₁, _, hexec, rfl⟩
  · cases h

/-- Nobody gets a connection, and the list stays complete. -/
structure Fades (w w' : World) : Prop where
  connOf : ∀ id, w'.connOf id = w.connOf id ∨ w'.connOf id = none
  nodup : w.controllers.Nodup → w'.controllers.Nodup
  mem : ∀ id ∈ w.controllers, id ∈ w'.controllers

/-- A session without a connection gets one. If it is a new session, there was room for it. -/
structure Attaches (cfg : Config) (w : World) (id : String) (conn : ConnID) (w' : World) :
    Prop where
  offline : w.connOf id = none
  connOf : ∀ other, w'.connOf other = if other = id then some conn else w.connOf other
  controllers : w'.controllers = w.controllers.insert id
  room : (w.deliveries id).session = none → w.onlineConnectionsLocked < cfg.maxConnections

theorem Fades.of_insert (hconn : ∀ id, w'.connOf id = w.connOf id ∨ w'.connOf id = none)
    (h : w'.controllers = w.controllers.insert id) : Fades w w' where
  connOf := hconn
  nodup hnodup := h ▸ hnodup.insert
  mem _ hmem := h ▸ List.mem_insert_of_mem hmem

theorem exec_create_connections {r : Option Error}
    (h : exec cfg remoteHost tid w (.create id conn) inp = some (w', r)) :
    Attaches cfg w id conn w' ∨ Fades w w' := by
  obtain ⟨w₁, stage, hexec, rfl⟩ := execDeliver_of_create h
  have hinsert := execDeliver_controllers hexec
  obtain ⟨rfl, hnone, hconn⟩ | ⟨-, hsame⟩ := create_connOf hexec
  · have hroom := create_room hexec
    exact .inl ⟨hnone, hconn, hinsert, hroom⟩
  · exact .inr (.of_insert (fun other => .inl (hsame.connOf other)) hinsert)

theorem exec_markOffline_connections {r : Option Error}
    (h : exec cfg remoteHost tid w (.markOffline id conn) inp = some (w', r)) : Fades w w' := by
  obtain ⟨w₁, stage, hexec, rfl⟩ := execDeliver_of_markOffline h
  have hinsert := execDeliver_controllers hexec
  refine .of_insert (fun other => ?_) hinsert
  have hconn := markOffline_connOf hexec other
  split at hconn
  · exact .inr hconn
  · exact .inl hconn

theorem Fades.refl (w : World) : Fades w w :=
  ⟨fun _ => .inl rfl, id, fun _ => id⟩

theorem Fades.trans {w'' : World} (h : Fades w w') (h' : Fades w' w'') : Fades w w'' where
  connOf id := by
    obtain hconn | hconn := h'.connOf id
    · rw [hconn]
      exact h.connOf id
    · exact .inr hconn
  nodup hnodup := h'.nodup (h.nodup hnodup)
  mem id hmem := h'.mem id (h.mem id hmem)

theorem exec_deliver_fades {a : Delivery.Act} {r : a.Res} (ha : a.attaches = false)
    (h : exec cfg remoteHost tid w (.deliver id a) inp = some (w', r)) : Fades w w' := by
  rw [exec] at h
  split at h
  · have hinsert := execDeliver_controllers h
    have hsame := deliver_same ha h
    exact .of_insert (fun other => .inl (hsame.connOf other)) hinsert
  · cases h

theorem enqueue_fades {R : Rules (machine cfg remoteHost)} {cmd : Command} {fuel : ℕ}
    {r : Option Error}
    (h : Call R tid w (deliver id (Delivery.enqueue cfg.delivery id cmd fuel)) w' r) :
    Fades w w' := by
  have honly : (Delivery.enqueue cfg.delivery id cmd fuel).Only
      fun a : Delivery.Act => a.attaches = false := by
    refine ⟨rfl, fun _ => ?_⟩
    have hlocked := (Delivery.enqueueLocked_only cfg.delivery id cmd fuel).mono
      fun _ ha => Duty.not_attaches_of_aside ha.aside
    exact hlocked.bind fun _ => ⟨rfl, fun _ => trivial⟩
  refine Call.preserves_of_only (I := Fades w) ?_ (deliver_only id honly) h (.refl w)
  rintro u _ inp u' r ⟨a, rfl, ha⟩ hu hexec
  exact hu.trans (exec_deliver_fades ha hexec)

theorem load_offline (rows : List SessionSnapshot) (m : Sessions × ℕ) (id : String) :
    (rows.foldl Sessions.load m).1 id = m.1 id ∨
      ((rows.foldl Sessions.load m).1 id).bind Session.conn = none := by
  induction rows generalizing m with
  | nil => exact .inl rfl
  | cons snap rows ih =>
      obtain heq | hnone := ih (Sessions.load m snap)
      · rw [List.foldl_cons, heq, Sessions.load]
        split
        · exact .inl rfl
        · by_cases hid : id = snap.controllerID
          · subst hid
            simp [SessionSnapshot.restore]
          · exact .inl (Function.update_of_ne hid _ _)
      · exact .inr hnone

theorem restore_fades (w : World) (listed : Except Error (List SessionSnapshot)) :
    Fades w (w.restore listed) := by
  refine ⟨fun id => ?_, fun hnodup => ?_, fun id hmem => ?_⟩
  · cases listed with
    | error err => exact .inl rfl
    | ok rows =>
        obtain heq | hnone := load_offline rows (fun id => (w.deliveries id).session, 0) id
        · exact .inl (congrArg (Option.bind · Session.conn) heq)
        · exact .inr hnone
  · exact hnodup.union _
  · exact List.mem_union_iff.mpr (.inr hmem)

/-- Only `Create` attaches a connection. -/
theorem Performs.cases {call : ManagerCall} (h : Performs cfg remoteHost w call w') :
    Fades w w' ∨ ∃ id conn, call = .create id conn ∧ Attaches cfg w id conn w' := by
  cases h with
  | create h =>
      obtain ⟨inp, w₁, r, -, hexec, h⟩ := h.of_act
      obtain ⟨rfl, -⟩ := h.of_ret
      obtain hattach | hfades := exec_create_connections hexec
      · exact .inr ⟨_, _, rfl, hattach⟩
      · exact .inl hfades
  | markOffline h =>
      obtain ⟨inp, w₁, r, -, hexec, h⟩ := h.of_act
      obtain ⟨rfl, -⟩ := h.of_ret
      exact .inl (exec_markOffline_connections hexec)
  | enqueue h => exact .inl (enqueue_fades h)
  | restore listed => exact .inl (restore_fades w listed)

end calls

/-! ## How many sessions have a connection -/

section counts

variable {cfg : Config} {remoteHost : ConnID → String} {w w' : World} {id : String} {conn : ConnID}

theorem Fades.online_subset (h : Fades w w') : w'.online ⊆ w.online := by
  intro id hid
  obtain hconn | hnone := h.connOf id
  · exact (congrArg Option.isSome hconn).symm.trans hid
  · exact absurd ((congrArg Option.isSome hnone).symm.trans hid) (by decide)

theorem Fades.listed (h : Fades w w') (hw : Listed w) : Listed w' where
  nodup := h.nodup hw.nodup
  mem id hid := h.mem id (hw.mem id (h.online_subset hid))

theorem Attaches.online_eq (h : Attaches cfg w id conn w') : w'.online = insert id w.online := by
  ext other
  rw [Set.mem_insert_iff, World.online, World.online, Set.mem_ofPred_eq, Set.mem_ofPred_eq,
    h.connOf]
  by_cases heq : other = id <;> simp [heq]

theorem Attaches.listed (h : Attaches cfg w id conn w') (hw : Listed w) : Listed w' where
  nodup := h.controllers ▸ hw.nodup.insert
  mem other hid := by
    rw [h.online_eq] at hid
    rw [h.controllers]
    obtain rfl | hid := hid
    · exact List.mem_insert_self
    · exact List.mem_insert_of_mem (hw.mem other hid)

theorem Attaches.ncard (h : Attaches cfg w id conn w') (hw : Listed w) :
    w'.online.ncard = w.online.ncard + 1 := by
  have hnotMem : id ∉ w.online := by simp [World.online, h.offline]
  rw [h.online_eq, Set.ncard_insert_of_notMem hnotMem hw.finite]

/-- The call attaches a connection to a session that was there. -/
def Transition.Reattaches (t : Transition) : Prop :=
  ∃ id conn, t.call = .create id conn ∧ (t.before.deliveries id).session.isSome ∧
    t.before.connOf id = none ∧ t.after.connOf id = some conn

theorem Performs.listed {call : ManagerCall} (h : Performs cfg remoteHost w call w')
    (hw : Listed w) : Listed w' := by
  obtain hfades | ⟨id, conn, -, hattach⟩ := h.cases
  · exact hfades.listed hw
  · exact hattach.listed hw

theorem Performs.within_iff {call : ManagerCall} (h : Performs cfg remoteHost w call w')
    (hw : Listed w) (hle : (w.online.ncard : Int) ≤ cfg.maxConnections) :
    (w'.online.ncard : Int) ≤ cfg.maxConnections ↔
      (Transition.Reattaches ⟨w, call, w'⟩ → (w.online.ncard : Int) < cfg.maxConnections) := by
  obtain hfades | ⟨id, conn, rfl, hattach⟩ := h.cases
  · refine iff_of_true ?_ ?_
    · have := Set.ncard_le_ncard hfades.online_subset hw.finite
      omega
    · rintro ⟨id, conn, -, -, hnone, hsome⟩
      have hsome : w'.connOf id = some conn := hsome
      have hnone : w.connOf id = none := hnone
      obtain hconn | hconn := hfades.connOf id
      · rw [hconn, hnone] at hsome
        cases hsome
      · rw [hconn] at hsome
        cases hsome
  · rw [hattach.ncard hw]
    cases hnew : (w.deliveries id).session with
    | none =>
        have hroom := hattach.room hnew
        rw [← hw.ncard_online] at hroom
        exact iff_of_true (by omega) fun _ => hroom
    | some s =>
        have hre : Transition.Reattaches ⟨w, .create id conn, w'⟩ := by
          refine ⟨id, conn, rfl, Option.isSome_of_eq_some hnew, hattach.offline, ?_⟩
          rw [hattach.connOf, if_pos rfl]
        constructor
        · intro hle _
          omega
        · intro hlt
          have := hlt hre
          omega

theorem Run.within_iff {steps : List Transition} (h : Run cfg remoteHost w steps) (hw : Listed w)
    (hle : (w.online.ncard : Int) ≤ cfg.maxConnections) :
    (∀ t ∈ steps, (t.after.online.ncard : Int) ≤ cfg.maxConnections) ↔
      ∀ t ∈ steps, t.Reattaches → (t.before.online.ncard : Int) < cfg.maxConnections := by
  induction h with
  | nil w => exact iff_of_true (fun t ht => by cases ht) fun t ht => by cases ht
  | cons hstep _ ih =>
      have hiff := hstep.within_iff hw hle
      rw [List.forall_mem_cons, List.forall_mem_cons]
      constructor
      · rintro ⟨hafter, hrest⟩
        exact ⟨hiff.mp hafter, (ih (hstep.listed hw) hafter).mp hrest⟩
      · rintro ⟨hfirst, hrest⟩
        have hafter := hiff.mpr hfirst
        exact ⟨hafter, (ih (hstep.listed hw) hafter).mpr hrest⟩

theorem listed_initial : Listed {} :=
  ⟨List.nodup_nil, fun id hid => by cases hid⟩

theorem online_initial : ({} : World).online = ∅ := by
  ext id
  exact iff_of_false (fun hid => by cases hid) (Set.notMem_empty id)

/-- The manager keeps its limit, at the start and after every call, exactly if no session gets a
new connection while as many as the limit have one. -/
theorem limit_iff_reattached {steps : List Transition} (h : Run cfg remoteHost {} steps) :
    (∀ w, w = {} ∨ (∃ t ∈ steps, w = t.after) → (w.online.ncard : Int) ≤ cfg.maxConnections) ↔
      0 ≤ cfg.maxConnections ∧
        ∀ t ∈ steps, t.Reattaches → (t.before.online.ncard : Int) < cfg.maxConnections := by
  have hstart : (({} : World).online.ncard : Int) = 0 := by
    rw [online_initial, Set.ncard_empty]
    rfl
  constructor
  · intro hall
    have hle := hall {} (.inl rfl)
    rw [← hstart]
    refine ⟨hle, (h.within_iff listed_initial hle).mp fun t ht => ?_⟩
    exact hall t.after (.inr ⟨t, ht, rfl⟩)
  · rintro ⟨hpos, hre⟩
    have hle : (({} : World).online.ncard : Int) ≤ cfg.maxConnections := hstart ▸ hpos
    rintro w (rfl | ⟨t, ht, rfl⟩)
    · exact hle
    · exact (h.within_iff listed_initial hle).mpr hre t ht

end counts

/-! ## A manager with room for one connection -/

def oneConnection : Config := { Env.unset.config with maxConnections := 1 }

/-- The world after an action that the environment does not disturb. -/
def afterAct (w : World) (a : Act) : World :=
  ((perform a).eval (machine oneConnection fun _ => "") 0 {} w).elim w Prod.fst

def firstOnline : World := afterAct {} (.create "1" 0)

def firstOffline : World := afterAct firstOnline (.markOffline "1" 0)

def secondOnline : World := afterAct firstOffline (.create "2" 1)

def bothOnline : World := afterAct secondOnline (.create "1" 2)

theorem create_of_eval {w w' : World} {id : String} {conn : ConnID} {r : Option Error}
    (h : (perform (.create id conn)).eval (machine oneConnection fun _ => "") 0 {} w =
      some (w', r)) : Performs oneConnection (fun _ => "") w (.create id conn) w' :=
  .create (Prog.call_of_eval {} (fun _ _ => trivial) h)

theorem markOffline_of_eval {w w' : World} {id : String} {conn : ConnID} {r : Option Error}
    (h : (perform (.markOffline id conn)).eval (machine oneConnection fun _ => "") 0 {} w =
      some (w', r)) : Performs oneConnection (fun _ => "") w (.markOffline id conn) w' :=
  .markOffline (Prog.call_of_eval {} (fun _ _ => trivial) h)

theorem firstOnline_performed :
    Performs oneConnection (fun _ => "") {} (.create "1" 0) firstOnline :=
  create_of_eval (r := none) rfl

theorem first_within_limit :
    (firstOnline.online.ncard : Int) ≤ oneConnection.maxConnections := by
  refine (limit_iff_reattached (.cons firstOnline_performed (.nil _))).mpr ⟨by decide, ?_⟩
    firstOnline (.inr ⟨_, List.mem_singleton.mpr rfl, rfl⟩)
  intro t ht ⟨id, conn, _, hsome, _⟩
  obtain rfl := List.mem_singleton.mp ht
  cases hsome

/-- A controller comes back when another one has taken its place. -/
theorem returning_exceeds_limit :
    ∃ steps, Run oneConnection (fun _ => "") {} steps ∧
      ∃ t ∈ steps, oneConnection.maxConnections < (t.after.online.ncard : Int) := by
  have hoffline :
      Performs oneConnection (fun _ => "") firstOnline (.markOffline "1" 0) firstOffline :=
    markOffline_of_eval (r := none) rfl
  have hsecond : Performs oneConnection (fun _ => "") firstOffline (.create "2" 1) secondOnline :=
    create_of_eval (r := none) rfl
  have hboth : Performs oneConnection (fun _ => "") secondOnline (.create "1" 2) bothOnline :=
    create_of_eval (r := none) rfl
  have hlisted := hboth.listed (hsecond.listed (hoffline.listed
    (firstOnline_performed.listed listed_initial)))
  refine ⟨_, .cons firstOnline_performed (.cons hoffline (.cons hsecond (.cons hboth (.nil _)))),
    ⟨secondOnline, .create "1" 2, bothOnline⟩, by simp, ?_⟩
  rw [hlisted.ncard_online]
  decide

end TcpAdapter.Server
