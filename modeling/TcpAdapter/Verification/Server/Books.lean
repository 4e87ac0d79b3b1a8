import Mathlib.Data.List.Perm.Basic
import TcpAdapter.Verification.Server.Duties

/-! # Connections, counters and sessions

The stage of a connection says whether it is in `conns`, whether it counts in `active`, and which
session it is attached to. `ipConnCount` counts `conns` by host. -/

namespace TcpAdapter.Server

open TcpAdapter.Concurrent TcpAdapter.Queue TcpAdapter.Protocol TcpAdapter.Manager

namespace Stage

/-- The connection is in `conns`. -/
def tracked : Stage → Bool
  | .unborn | .gone | .held _ .accepted => false
  | _ => true

/-- The connection counts in `active`. -/
def counted : Stage → Bool
  | .spawned | .held _ .counted | .held _ (.handled _) => true
  | _ => false

/-- The controller whose session the handler of the connection has attached itself to. -/
def owner : Stage → Option String
  | .held _ (.handled owned) => owned
  | _ => none

theorem owner_eq_some {s : Stage} {id : String} :
    s.owner = some id ↔ ∃ tid, s = .held tid (.handled (some id)) := by
  constructor
  · intro h
    unfold owner at h
    split at h
    · subst h
      exact ⟨_, rfl⟩
    · cases h
  · rintro ⟨tid, rfl⟩
    rfl

end Stage

/-- What a map of counters holds: there is no entry for 0. -/
def counter (n : ℕ) : Option Int :=
  if n = 0 then none else some n

theorem counter_getD (n : ℕ) : (counter n).getD 0 = n := by
  unfold counter
  split
  · rename_i h
    rw [h]
    rfl
  · rfl

theorem counter_succ (n : ℕ) : counter (n + 1) = some ((n : Int) + 1) := by
  rw [counter, if_neg (Nat.succ_ne_zero n)]
  rfl

/-- A counter is deleted when it would get to 0. -/
theorem counter_pred (n : ℕ) :
    (if (n : Int) + 1 ≤ 1 then none else some ((n : Int) + 1 - 1)) = counter n := by
  cases n with
  | zero => rfl
  | succ n => rw [counter_succ, if_neg (by omega), Int.add_sub_cancel, Nat.cast_succ]

/-- Counting with and without one element. -/
theorem countP_of_mem {α : Type} [DecidableEq α] {xs : List α} {x : α} (p : α → Bool)
    (hx : x ∈ xs) : xs.countP p = (xs.erase x).countP p + (p x).toNat := by
  rw [(List.perm_cons_erase hx).countP_eq, List.countP_cons, Bool.toNat, Bool.cond_eq_ite]

section counting

variable {α β : Type} [DecidableEq α] {xs : List α} {x : α} (f : α → β) (y : β) (p : β → Bool)

theorem countP_update_of_notMem (hx : x ∉ xs) :
    xs.countP (fun a => p (Function.update f x y a)) = xs.countP fun a => p (f a) := by
  refine List.countP_congr fun a ha => ?_
  rw [Function.update_of_ne (ne_of_mem_of_not_mem ha hx)]

theorem countP_update (hnodup : xs.Nodup) (hx : x ∈ xs) :
    xs.countP (fun a => p (Function.update f x y a)) + (p (f x)).toNat =
      xs.countP (fun a => p (f a)) + (p y).toNat := by
  rw [countP_of_mem (fun a => p (Function.update f x y a)) hx,
    countP_of_mem (fun a => p (f a)) hx,
    countP_update_of_notMem f y p fun h => (hnodup.mem_erase_iff.mp h).1 rfl,
    Function.update_self]
  omega

end counting

/-! ## The books -/

section books

variable (cfg : Config) (remoteHost : ConnID → String)

/-- The connections in `conns` whose remote host is `host`. -/
def World.fromHost (w : World) (host : String) : ℕ :=
  w.conns.countP fun conn => remoteHost conn = host

structure Books (w : World) : Prop where
  nodup : w.conns.Nodup
  tracked : ∀ conn, conn ∈ w.conns ↔ (w.stage conn).tracked = true
  active : w.active = (w.conns.countP fun conn => (w.stage conn).counted : ℕ)
  room : w.active ≤ max cfg.maxConnections 0
  perHost : ∀ host, w.ipConnCount host = counter (w.fromHost remoteHost host)
  limit : 0 < cfg.maxConnectionsPerIP →
    ∀ host, (w.fromHost remoteHost host : Int) ≤ cfg.maxConnectionsPerIP
  born : ∀ conn, w.accepted ≤ conn → w.stage conn = .unborn
  owned : ∀ id conn, w.connOf id = some conn ↔ (w.stage conn).owner = some id

theorem Books.initial (w : World) (hconns : w.conns = [])
    (hactive : w.active = 0) (hcount : w.ipConnCount = fun _ => none)
    (hstage : ∀ conn, w.stage conn = if conn < w.accepted then .gone else .unborn)
    (hconn : ∀ id, w.connOf id = none) : Books cfg remoteHost w := by
  have hidle : ∀ conn, (w.stage conn).tracked = false ∧ (w.stage conn).owner = none := by
    intro conn
    rw [hstage]
    split <;> exact ⟨rfl, rfl⟩
  exact
    { nodup := by rw [hconns]; exact List.nodup_nil
      tracked := fun conn => by simp [hconns, (hidle conn).1]
      active := by rw [hconns, hactive]; rfl
      room := hactive ▸ Int.le_max_right _ _
      perHost := fun host => by rw [hcount, World.fromHost, hconns]; rfl
      limit := fun hlimit host => by rw [World.fromHost, hconns]; exact hlimit.le
      born := fun conn hle => by rw [hstage, if_neg (Nat.not_lt.mpr hle)]
      owned := fun id conn => by simp [hconn, (hidle conn).2] }

/-- What a goroutine knows about its connection is so. -/
structure Knows (tid : ℕ) (w : World) (v : Duty) : Prop where
  charge : ∀ conn role, v.charge = some (conn, role) ↔ w.stage conn = .held tid role
  acceptor : v.acceptor = true ↔ tid = 0
  room : v.room = true → tid = 0 ∧ w.active < cfg.maxConnections

variable {cfg remoteHost} {tid : ℕ} {w w' : World} {v : Duty} {conn : ConnID} {s : Stage}

/-! ### Steps that leave the books alone -/

structure Same (w w' : World) : Prop where
  conns : w'.conns = w.conns
  active : w'.active = w.active
  ipConnCount : w'.ipConnCount = w.ipConnCount
  accepted : w'.accepted = w.accepted
  stage : w'.stage = w.stage
  connOf : ∀ id, w'.connOf id = w.connOf id

theorem Same.refl (w : World) : Same w w :=
  ⟨rfl, rfl, rfl, rfl, rfl, fun _ => rfl⟩

theorem Books.same (h : Books cfg remoteHost w) (hs : Same w w') : Books cfg remoteHost w' where
  nodup := hs.conns ▸ h.nodup
  tracked := by rw [hs.conns, hs.stage]; exact h.tracked
  active := by rw [hs.active, hs.conns, hs.stage]; exact h.active
  room := by rw [hs.active]; exact h.room
  perHost := by simp only [World.fromHost, hs.conns, hs.ipConnCount]; exact h.perHost
  limit := by simp only [World.fromHost, hs.conns]; exact h.limit
  born := by rw [hs.accepted, hs.stage]; exact h.born
  owned := by simp only [hs.connOf, hs.stage]; exact h.owned

theorem Knows.same (h : Knows cfg tid w v) (hs : Same w w') : Knows cfg tid w' v where
  charge := by rw [hs.stage]; exact h.charge
  acceptor := h.acceptor
  room hroom := by rw [hs.active]; exact h.room hroom

theorem Knows.congr {v' : Duty} (h : Knows cfg tid w v) (hcharge : v'.charge = v.charge)
    (hacceptor : v'.acceptor = v.acceptor) (hroom : v'.room = v.room) : Knows cfg tid w v' where
  charge := by rw [hcharge]; exact h.charge
  acceptor := by rw [hacceptor]; exact h.acceptor
  room := by rw [hroom]; exact h.room

/-- The actions that have nothing to do with the books. -/
def Act.offBooks : Act → Bool
  | .now | .isIPBlocked _ _ | .registerIPViolation _ _ | .setReadDeadline _ _ | .readFrame _ _ => true
  | _ => false

theorem isIPBlocked_fst (cfg : Config) (w : World) (host : String) (now : Time) :
    ∃ sec, (isIPBlocked cfg w host now).1 = { w with ipSec := sec } := by
  unfold isIPBlocked
  split
  · exact ⟨w.ipSec, rfl⟩
  · split
    · exact ⟨w.ipSec, rfl⟩
    · split
      · exact ⟨w.ipSec, rfl⟩
      · split <;> exact ⟨_, rfl⟩

theorem registerIPViolation_eq (cfg : Config) (w : World) (host : String) (now : Time) :
    ∃ sec, registerIPViolation cfg w host now = { w with ipSec := sec } := by
  unfold registerIPViolation
  split
  · exact ⟨w.ipSec, rfl⟩
  · exact ⟨_, rfl⟩

theorem same_of_offBooks {a : Act} {inp : Input} {r : a.Res} (ha : a.offBooks = true)
    (h : execNow cfg remoteHost tid w a inp = some (w', r)) : Same w w' := by
  cases a with
  | now | setReadDeadline =>
      cases h
      exact ⟨rfl, rfl, rfl, rfl, rfl, fun _ => rfl⟩
  | isIPBlocked host now =>
      obtain ⟨sec, hsec⟩ := isIPBlocked_fst cfg w host now
      obtain rfl := congrArg Prod.fst (Option.some.inj h)
      rw [hsec]
      exact ⟨rfl, rfl, rfl, rfl, rfl, fun _ => rfl⟩
  | registerIPViolation host now =>
      obtain ⟨sec, hsec⟩ := registerIPViolation_eq cfg w host now
      cases h
      rw [hsec]
      exact ⟨rfl, rfl, rfl, rfl, rfl, fun _ => rfl⟩
  | readFrame conn mode =>
      simp only [execNow, execRead] at h
      split at h
      · cases h
      · split at h <;> cases h <;> exact ⟨rfl, rfl, rfl, rfl, rfl, fun _ => rfl⟩
  | _ => cases ha

/-! ### Steps of one connection -/

theorem update_flag {α : Type} {f : Stage → α} (hstage : w'.stage = Function.update w.stage conn s)
    (hf : f s = f (w.stage conn)) (c : ConnID) : f (w'.stage c) = f (w.stage c) := by
  rw [hstage]
  by_cases hc : c = conn
  · subst hc
    rw [Function.update_self, hf]
  · rw [Function.update_of_ne hc]

/-- The connection has got on; it stays in `conns` or out of it. -/
structure Staged (w w' : World) (conn : ConnID) (s : Stage) : Prop where
  stage : w'.stage = Function.update w.stage conn s
  conns : w'.conns = w.conns
  ipConnCount : w'.ipConnCount = w.ipConnCount
  tracked : s.tracked = (w.stage conn).tracked
  born : ∀ c, w'.accepted ≤ c → w.accepted ≤ c ∧ c ≠ conn

theorem Books.ne_of_born {c : ConnID} (h : Books cfg remoteHost w) (hborn : w.stage conn ≠ .unborn)
    (hle : w.accepted ≤ c) : c ≠ conn := by
  rintro rfl
  exact hborn (h.born c hle)

theorem Books.staged (h : Books cfg remoteHost w) (hm : Staged w w' conn s)
    (hactive : w'.active = (w'.conns.countP fun c => (w'.stage c).counted : ℕ))
    (hroom : w'.active ≤ max cfg.maxConnections 0)
    (howned : ∀ id c, w'.connOf id = some c ↔ (w'.stage c).owner = some id) :
    Books cfg remoteHost w' where
  nodup := hm.conns ▸ h.nodup
  tracked c := by rw [hm.conns, update_flag hm.stage hm.tracked]; exact h.tracked c
  active := hactive
  room := hroom
  perHost := by simp only [World.fromHost, hm.conns, hm.ipConnCount]; exact h.perHost
  limit := by simp only [World.fromHost, hm.conns]; exact h.limit
  born c hle := by
    obtain ⟨hold, hne⟩ := hm.born c hle
    rw [hm.stage, Function.update_of_ne hne]
    exact h.born c hold
  owned := howned

theorem Books.owned_of_update (h : Books cfg remoteHost w)
    (hstage : w'.stage = Function.update w.stage conn s)
    (howner : s.owner = (w.stage conn).owner) (hconn : ∀ id, w'.connOf id = w.connOf id) :
    ∀ id c, w'.connOf id = some c ↔ (w'.stage c).owner = some id := by
  intro id c
  rw [hconn, update_flag hstage howner]
  exact h.owned id c

/-- The connection is attached to a session without one. -/
theorem Books.owned_attach {id : String} (h : Books cfg remoteHost w)
    (hstage : w'.stage = Function.update w.stage conn s) (howner : s.owner = some id)
    (hfree : (w.stage conn).owner = none) (hnone : w.connOf id = none)
    (hconn : ∀ other, w'.connOf other = if other = id then some conn else w.connOf other) :
    ∀ other c, w'.connOf other = some c ↔ (w'.stage c).owner = some other := by
  intro other c
  rw [hconn, hstage]
  by_cases hc : c = conn
  · subst hc
    rw [Function.update_self, howner]
    split
    · rename_i heq
      exact iff_of_true rfl (congrArg some heq.symm)
    · rename_i hne
      refine iff_of_false (fun hsome => ?_) fun heq => hne (Option.some.inj heq).symm
      rw [(h.owned other c).mp hsome] at hfree
      cases hfree
  · rw [Function.update_of_ne hc]
    split
    · rename_i heq
      subst heq
      refine iff_of_false (fun heq => hc (Option.some.inj heq).symm) fun hsome => ?_
      rw [(h.owned other c).mpr hsome] at hnone
      cases hnone
    · exact h.owned other c

/-- The connection is detached from its session. -/
theorem Books.owned_detach {id : String} (h : Books cfg remoteHost w)
    (hstage : w'.stage = Function.update w.stage conn s) (howner : s.owner = none)
    (howned : (w.stage conn).owner = some id)
    (hconn : ∀ other, w'.connOf other = if other = id then none else w.connOf other) :
    ∀ other c, w'.connOf other = some c ↔ (w'.stage c).owner = some other := by
  intro other c
  have hmine := (h.owned id conn).mpr howned
  rw [hconn, hstage]
  by_cases hc : c = conn
  · subst hc
    rw [Function.update_self, howner]
    refine iff_of_false ?_ nofun
    split
    · nofun
    · rename_i hne
      intro hsome
      rw [(h.owned other c).mp hsome] at howned
      exact hne (Option.some.inj howned)
  · rw [Function.update_of_ne hc]
    split
    · rename_i heq
      subst heq
      refine iff_of_false nofun fun hsome => ?_
      rw [(h.owned other c).mpr hsome] at hmine
      exact hc (Option.some.inj hmine)
    · exact h.owned other c

/-- The connection counts as it did. -/
theorem Books.silent (h : Books cfg remoteHost w) (hm : Staged w w' conn s)
    (hcounted : s.counted = (w.stage conn).counted) (hactive : w'.active = w.active)
    (howned : ∀ id c, w'.connOf id = some c ↔ (w'.stage c).owner = some id) :
    Books cfg remoteHost w' := by
  refine h.staged hm ?_ (hactive ▸ h.room) howned
  rw [hactive, hm.conns, h.active]
  exact congrArg _ (List.countP_congr fun c _ => by rw [update_flag hm.stage hcounted])

/-- How `active` follows the connection. -/
theorem Books.recount {n : Int} (h : Books cfg remoteHost w) (hmem : conn ∈ w.conns)
    (hn : (s.counted.toNat : Int) = (w.stage conn).counted.toNat + n) :
    w.active + n = (w.conns.countP fun c => (Function.update w.stage conn s c).counted : ℕ) := by
  have hcount := countP_update w.stage s Stage.counted h.nodup hmem
  rw [h.active]
  omega

/-! ### What the goroutines know after a step -/

/-- What a goroutine is in charge of that has got the connection so far. -/
def Stage.charge (conn : ConnID) : Stage → Option (ConnID × Role)
  | .held _ role => some (conn, role)
  | _ => none

/-- The goroutine has brought the connection to a new stage, and nobody else was in charge of
it. -/
structure Moved (tid : ℕ) (w w' : World) (v v' : Duty) (conn : ConnID) (s : Stage) : Prop where
  stage : w'.stage = Function.update w.stage conn s
  free : ∀ other role, w.stage conn = .held other role → other = tid
  mine : ∀ other role, s = .held other role → other = tid
  before : ∀ c role, v.charge = some (c, role) → c = conn
  charge : v'.charge = s.charge conn
  acceptor : v'.acceptor = v.acceptor

theorem Knows.own {v' : Duty} (h : Knows cfg tid w v) (hm : Moved tid w w' v v' conn s)
    (hroom : v'.room = true → v.room = true ∧ w'.active = w.active) : Knows cfg tid w' v' where
  charge c role := by
    rw [hm.stage, hm.charge]
    by_cases hc : c = conn
    · subst hc
      rw [Function.update_self]
      cases s with
      | held other role' =>
          obtain rfl := hm.mine other role' rfl
          simp [Stage.charge]
      | _ => simp [Stage.charge]
    · rw [Function.update_of_ne hc]
      refine iff_of_false (fun hcharge => hc ?_) fun hheld => hc ?_
      · cases s <;> simp_all [Stage.charge]
      · exact hm.before c role ((h.charge c role).mpr hheld)
  acceptor := by rw [hm.acceptor]; exact h.acceptor
  room hr := by
    obtain ⟨hr, hactive⟩ := hroom hr
    rw [hactive]
    exact h.room hr

theorem Moved.stage_other {v' : Duty} (hm : Moved tid w w' v v' conn s) (other : ℕ)
    (hne : other ≠ tid) (c : ConnID) (role : Role) :
    w'.stage c = .held other role ↔ w.stage c = .held other role := by
  rw [hm.stage]
  by_cases hc : c = conn
  · subst hc
    rw [Function.update_self]
    exact iff_of_false (fun h => hne (hm.mine other role h)) fun h => hne (hm.free other role h)
  · rw [Function.update_of_ne hc]

theorem Stage.held_mine {role : Role} (other : ℕ) (role' : Role)
    (h : Stage.held tid role = .held other role') : other = tid :=
  (Stage.held.inj h).1.symm

/-- A goroutine takes the connection that it is in charge of further. -/
theorem Knows.moved {v' : Duty} {role : Role} (h : Knows cfg tid w v)
    (hcharge : v.charge = some (conn, role))
    (hstage : w'.stage = Function.update w.stage conn s)
    (hmine : ∀ other role, s = .held other role → other = tid)
    (hcharge' : v'.charge = s.charge conn) (hacceptor : v'.acceptor = v.acceptor) :
    Moved tid w w' v v' conn s where
  stage := hstage
  free other role' hheld := by
    rw [(h.charge conn role).mp hcharge] at hheld
    exact Stage.held_mine other role' hheld
  mine := hmine
  before c role' hc := by
    rw [hcharge] at hc
    exact (Prod.mk.inj (Option.some.inj hc)).1.symm
  charge := hcharge'
  acceptor := hacceptor

/-! ### Steps that keep the books -/

variable (cfg remoteHost) in
/-- The books are right after the step, and the goroutine knows what it has done. No other
goroutine loses the connection that it is in charge of, or the room that it has found. -/
structure Kept (tid : ℕ) (w w' : World) (v' : Duty) : Prop where
  books : Books cfg remoteHost w'
  own : Knows cfg tid w' v'
  stage : ∀ other, other ≠ tid → ∀ conn role,
    w'.stage conn = .held other role ↔ w.stage conn = .held other role
  room : tid ≠ 0 → w.active < cfg.maxConnections → w'.active < cfg.maxConnections

theorem Kept.other {v' u : Duty} {other : ℕ} (h : Kept cfg remoteHost tid w w' v')
    (hne : other ≠ tid) (hu : Knows cfg other w u) : Knows cfg other w' u where
  charge conn role := (hu.charge conn role).trans (h.stage other hne conn role).symm
  acceptor := hu.acceptor
  room hroom := by
    obtain ⟨hzero, hlt⟩ := hu.room hroom
    exact ⟨hzero, h.room (fun h => hne (hzero.trans h.symm)) hlt⟩

theorem Kept.same {v' : Duty} (hb : Books cfg remoteHost w) (hk : Knows cfg tid w v')
    (hs : Same w w') : Kept cfg remoteHost tid w w' v' where
  books := hb.same hs
  own := hk.same hs
  stage := by simp only [hs.stage, implies_true]
  room _ hlt := hs.active ▸ hlt

theorem Kept.of_moved {v' : Duty} (hb : Books cfg remoteHost w') (hk : Knows cfg tid w v)
    (hm : Moved tid w w' v v' conn s)
    (hroom : v'.room = true → v.room = true ∧ w'.active = w.active)
    (hother : tid ≠ 0 → w.active < cfg.maxConnections → w'.active < cfg.maxConnections) :
    Kept cfg remoteHost tid w w' v' where
  books := hb
  own := hk.own hm hroom
  stage := hm.stage_other
  room := hother

/-- The number of active connections stays. -/
theorem Kept.of_still {v' : Duty} (hb : Books cfg remoteHost w') (hk : Knows cfg tid w v)
    (hm : Moved tid w w' v v' conn s) (hactive : w'.active = w.active)
    (hroom : v'.room = true → v.room = true) : Kept cfg remoteHost tid w w' v' :=
  .of_moved hb hk hm (fun h => ⟨hroom h, hactive⟩) fun _ hlt => hactive ▸ hlt

/-- The connection that a goroutine is in charge of gets to another stage. -/
theorem Knows.staged {role : Role} (hb : Books cfg remoteHost w) (hk : Knows cfg tid w v)
    (hcharge : v.charge = some (conn, role))
    (hstage : w'.stage = Function.update w.stage conn s) (hconns : w'.conns = w.conns)
    (hcount : w'.ipConnCount = w.ipConnCount) (haccepted : w'.accepted = w.accepted)
    (htracked : s.tracked = (Stage.held tid role).tracked) : Staged w w' conn s where
  stage := hstage
  conns := hconns
  ipConnCount := hcount
  tracked := by rw [(hk.charge conn role).mp hcharge, htracked]
  born c hle := by
    rw [haccepted] at hle
    refine ⟨hle, hb.ne_of_born ?_ hle⟩
    rw [(hk.charge conn role).mp hcharge]
    nofun

/-! ## Sessions -/

section sessions

variable {id : String} {inp : Input}

theorem connOf_update (other : String) (d : Delivery.World) (mu : Option ℕ)
    (controllers : List String) :
    ({ w with
        mu := mu
        controllers := controllers
        deliveries := Function.update w.deliveries id d } : World).connOf other =
      if other = id then d.connection else w.connOf other := by
  by_cases h : other = id
  · subst h
    simp only [World.connOf, Function.update_self, if_pos]
    rfl
  · simp only [World.connOf, Function.update_of_ne h, if_neg h]

/-- What an action for one controller changes. -/
theorem execDeliver_eq {a : Delivery.Act} {r : a.Res}
    (h : execDeliver cfg tid w id a inp = some (w', r)) :
    ∃ d inp', Delivery.exec cfg.delivery id tid { w.deliveries id with mu := w.mu } a inp' =
        some (d, r) ∧
      w' = { w with
        mu := d.mu
        controllers := w.controllers.insert id
        deliveries := Function.update w.deliveries id d } := by
  obtain ⟨⟨d, r'⟩, hexec, heq⟩ := Option.map_eq_some_iff.mp h
  cases heq
  exact ⟨d, _, hexec, rfl⟩

theorem deliver_same {a : Delivery.Act} {r : a.Res} (ha : a.attaches = false)
    (h : execDeliver cfg tid w id a inp = some (w', r)) : Same w w' := by
  obtain ⟨d, inp', hexec, rfl⟩ := execDeliver_eq h
  have hconn := Delivery.exec_connection ha hexec
  refine ⟨rfl, rfl, rfl, rfl, rfl, fun other => ?_⟩
  rw [connOf_update]
  split
  · rename_i heq
    subst heq
    exact hconn
  · rfl

/-- `Create` finds the session without a connection, or it fails and changes nothing. -/
theorem create_connOf {r : Option Error}
    (h : execDeliver cfg tid w id (.create conn) inp = some (w', r)) :
    (r = none ∧ w.connOf id = none ∧
      ∀ other, w'.connOf other = if other = id then some conn else w.connOf other) ∨
    (r ≠ none ∧ Same w w') := by
  obtain ⟨d, inp', hexec, rfl⟩ := execDeliver_eq h
  rcases Delivery.exec_create_connection hexec with ⟨hr, hnone, hsome⟩ | ⟨hr, hsame⟩
  · refine .inl ⟨hr, hnone, fun other => ?_⟩
    rw [connOf_update, hsome]
  · refine .inr ⟨hr, rfl, rfl, rfl, rfl, rfl, fun other => ?_⟩
    rw [connOf_update]
    split
    · rename_i heq
      subst heq
      exact hsame
    · rfl

theorem markOffline_connOf {r : Option Error}
    (h : execDeliver cfg tid w id .markOffline inp = some (w', r)) (other : String) :
    w'.connOf other = if other = id then none else w.connOf other := by
  obtain ⟨d, inp', hexec, rfl⟩ := execDeliver_eq h
  rw [connOf_update, Delivery.World.connection_eq, (Delivery.exec_markOffline hexec).2]
  rfl

end sessions

/-! ## The connections of a host -/

theorem tryTrackConn_true (h : tryTrackConn cfg remoteHost w conn = (w', true)) :
    (0 < cfg.maxConnectionsPerIP →
      (w.ipConnCount (remoteHost conn)).getD 0 < cfg.maxConnectionsPerIP) ∧
    w' = { w with
      conns := w.conns.insert conn
      ipConnCount := Function.update w.ipConnCount (remoteHost conn)
        (some ((w.ipConnCount (remoteHost conn)).getD 0 + 1)) } := by
  unfold tryTrackConn at h
  dsimp only at h
  split at h
  · cases h
  · rename_i hroom
    refine ⟨fun hpos => ?_, (Prod.mk.inj h).1.symm⟩
    exact Int.not_le.mp fun hfull => hroom ⟨hpos, hfull⟩

theorem tryTrackConn_false (h : tryTrackConn cfg remoteHost w conn = (w', false)) : w' = w := by
  unfold tryTrackConn at h
  dsimp only at h
  split at h
  · exact (Prod.mk.inj h).1.symm
  · cases h

theorem countP_insert_host (hnew : conn ∉ w.conns) (host : String) :
    (w.conns.insert conn).countP (fun c => remoteHost c = host) =
      w.fromHost remoteHost host + if remoteHost conn = host then 1 else 0 := by
  rw [List.insert_of_not_mem hnew, List.countP_cons]
  simp only [World.fromHost, decide_eq_true_eq]

theorem Books.perHost_insert (h : Books cfg remoteHost w) (hnew : conn ∉ w.conns) (host : String) :
    Function.update w.ipConnCount (remoteHost conn)
        (some ((w.ipConnCount (remoteHost conn)).getD 0 + 1)) host =
      counter ((w.conns.insert conn).countP fun c => remoteHost c = host) := by
  rw [countP_insert_host hnew, h.perHost, counter_getD]
  by_cases heq : remoteHost conn = host
  · subst heq
    rw [Function.update_self, if_pos rfl, counter_succ]
  · rw [Function.update_of_ne (Ne.symm heq), if_neg heq, h.perHost]
    rfl

theorem Books.limit_insert (h : Books cfg remoteHost w) (hnew : conn ∉ w.conns)
    (hroom : 0 < cfg.maxConnectionsPerIP →
      (w.ipConnCount (remoteHost conn)).getD 0 < cfg.maxConnectionsPerIP)
    (hpos : 0 < cfg.maxConnectionsPerIP) (host : String) :
    ((w.conns.insert conn).countP (fun c => remoteHost c = host) : Int) ≤
      cfg.maxConnectionsPerIP := by
  have hold := h.limit hpos host
  have hlt := hroom hpos
  rw [h.perHost, counter_getD] at hlt
  rw [countP_insert_host hnew]
  split
  · rename_i heq
    subst heq
    push_cast
    omega
  · exact hold

/-- `untrackConn` takes back what `tryTrackConn` counted. -/
theorem Books.perHost_erase (h : Books cfg remoteHost w) (hmem : conn ∈ w.conns) (host : String) :
    (untrackConn remoteHost w conn).ipConnCount host =
      counter ((w.conns.erase conn).countP fun c => remoteHost c = host) := by
  have hsplit : ∀ host, w.fromHost remoteHost host =
      (w.conns.erase conn).countP (fun c => remoteHost c = host) +
        (decide (remoteHost conn = host)).toNat := fun host => countP_of_mem _ hmem
  have hhost := h.perHost (remoteHost conn)
  rw [hsplit, decide_eq_true rfl, Bool.toNat_true, counter_succ] at hhost
  simp only [untrackConn, hhost]
  by_cases heq : remoteHost conn = host
  · subst heq
    rw [Function.update_self]
    exact counter_pred _
  · rw [Function.update_of_ne (Ne.symm heq), h.perHost, hsplit, decide_eq_false heq]
    rfl

end books

end TcpAdapter.Server
