import Mathlib.Data.Finset.Card
import TcpAdapter.Verification.Server.Books

/-! # Accounting for connections

Every action that the protocol of the goroutines permits keeps the books, and so does every run. -/

namespace TcpAdapter.Server

open TcpAdapter.Concurrent TcpAdapter.Queue TcpAdapter.Protocol TcpAdapter.Manager

variable {cfg : Config} {remoteHost : ConnID → String} {tid : ℕ} {w w' : World} {v : Duty}
  {conn : ConnID} {s : Stage}

/-! ## Each action keeps the books -/

section steps

variable (hb : Books cfg remoteHost w) (hk : Knows cfg tid w v)

include hb hk

/-- A goroutine that is in charge of nothing takes a connection that nobody is in charge of. -/
theorem take_kept {role : Role} {v' : Duty} (hidle : v.charge = none)
    (hs : Staged w w' conn (.held tid role)) (hfree : ∀ other role, w.stage conn ≠ .held other role)
    (hcounted : (Stage.held tid role).counted = (w.stage conn).counted)
    (howner : (Stage.held tid role).owner = (w.stage conn).owner)
    (hactive : w'.active = w.active) (hconn : ∀ id, w'.connOf id = w.connOf id)
    (hcharge : v'.charge = some (conn, role)) (hacceptor : v'.acceptor = v.acceptor)
    (hroom : v'.room = true → v.room = true) : Kept cfg remoteHost tid w w' v' := by
  have howned := hb.owned_of_update hs.stage howner hconn
  have hm : Moved tid w w' v v' conn (.held tid role) :=
    { stage := hs.stage
      free := fun other role h => absurd h (hfree other role)
      mine := Stage.held_mine
      before := fun c role h => by rw [hidle] at h; cases h
      charge := hcharge
      acceptor := hacceptor }
  exact .of_still (hb.silent hs hcounted hactive howned) hk hm hactive hroom

theorem accept_kept (hidle : v.charge = none) :
    Kept cfg remoteHost tid w
      { w.setStage w.accepted (.held tid .accepted) with
        accepted := w.accepted + 1
        acceptedAt := Function.update w.acceptedAt w.accepted w.clock }
      { v with charge := some (w.accepted, .accepted), room := false } := by
  have hunborn : w.stage w.accepted = .unborn := hb.born w.accepted (Nat.le_refl _)
  have hborn : ∀ c, w.accepted + 1 ≤ c → w.accepted ≤ c ∧ c ≠ w.accepted :=
    fun c hle => ⟨Nat.le_of_succ_le hle, Nat.ne_of_gt hle⟩
  refine take_kept hb hk hidle ⟨rfl, rfl, rfl, ?_, hborn⟩ ?_ ?_ ?_ rfl (fun _ => rfl) rfl rfl nofun
  all_goals rw [hunborn]
  · rfl
  · exact fun _ _ => nofun
  · rfl
  · rfl

theorem begin_kept (hidle : v.charge = none) (hspawned : w.stage conn = .spawned) :
    Kept cfg remoteHost tid w
      { w.setStage conn (.held tid (.handled none)) with
        unread := Function.update w.unread conn []
        lastRead := Function.update w.lastRead conn none }
      { v with
        charge := some (conn, .handled none)
        seen := none
        fresh := true
        armed := false
        frame := none } := by
  have hborn : ∀ c, w.accepted ≤ c → w.accepted ≤ c ∧ c ≠ conn := by
    refine fun c hle => ⟨hle, hb.ne_of_born ?_ hle⟩
    rw [hspawned]
    nofun
  refine take_kept hb hk hidle ⟨rfl, rfl, rfl, ?_, hborn⟩ ?_ ?_ ?_ rfl (fun _ => rfl) rfl rfl id
  all_goals rw [hspawned]
  · rfl
  · exact fun _ _ => nofun
  · rfl
  · rfl

/-- The connection goes on without a change of the sessions and the counters. -/
theorem setStage_kept {role : Role} {v' : Duty} (hcharge : v.charge = some (conn, role))
    (hmine : ∀ other role, s = .held other role → other = tid)
    (htracked : s.tracked = (Stage.held tid role).tracked)
    (hcounted : s.counted = (Stage.held tid role).counted)
    (howner : s.owner = (Stage.held tid role).owner)
    (hcharge' : v'.charge = s.charge conn) (hacceptor : v'.acceptor = v.acceptor)
    (hroom : v'.room = true → v.room = true) :
    Kept cfg remoteHost tid w (w.setStage conn s) v' := by
  have hold := (hk.charge conn role).mp hcharge
  refine .of_still (hb.silent (hk.staged hb hcharge rfl rfl rfl rfl htracked) (hold ▸ hcounted) rfl
    ?_) hk (hk.moved hcharge rfl hmine hcharge' hacceptor) rfl hroom
  exact hb.owned_of_update rfl (hold ▸ howner) fun _ => rfl

/-- `Create` has succeeded. -/
theorem create_kept {id : String} {inp : Input} (hcharge : v.charge = some (conn, .handled none))
    (h : execDeliver cfg tid w id (.create conn) inp = some (w', none)) :
    Kept cfg remoteHost tid w (w'.setStage conn (.held tid (.handled (some id))))
      { v with charge := some (conn, .handled (some id)) } := by
  obtain ⟨-, hnone, hconn⟩ | ⟨hne, -⟩ := create_connOf h
  · have hold := (hk.charge conn _).mp hcharge
    obtain ⟨d, inp', -, rfl⟩ := execDeliver_eq h
    refine .of_still (hb.silent (hk.staged hb hcharge rfl rfl rfl rfl rfl) (hold ▸ rfl) rfl ?_) hk
      (hk.moved hcharge rfl Stage.held_mine rfl rfl) rfl fun h => h
    exact hb.owned_attach rfl rfl (hold ▸ rfl) hnone hconn
  · exact absurd rfl hne

theorem markOffline_kept {id : String} {inp : Input} {r : Option Error}
    (hcharge : v.charge = some (conn, .handled (some id)))
    (h : execDeliver cfg tid w id .markOffline inp = some (w', r)) :
    Kept cfg remoteHost tid w (w'.setStage conn (.held tid (.handled none)))
      { v with charge := some (conn, .handled none), frame := none } := by
  have hold := (hk.charge conn _).mp hcharge
  have hconn := markOffline_connOf h
  obtain ⟨d, inp', -, rfl⟩ := execDeliver_eq h
  refine .of_still (hb.silent (hk.staged hb hcharge rfl rfl rfl rfl rfl) (hold ▸ rfl) rfl ?_) hk
    (hk.moved hcharge rfl Stage.held_mine rfl rfl) rfl fun h => h
  exact hb.owned_detach rfl rfl (hold ▸ rfl) hconn

/-- The connection counts from now on. -/
theorem activeAdd_kept (hcharge : v.charge = some (conn, .tracked)) (hroom : v.room = true) :
    Kept cfg remoteHost tid w
      (({ w with active := w.active + 1 } : World).setStage conn (.held tid .counted))
      { v with charge := some (conn, .counted), room := false } := by
  have hold := (hk.charge conn _).mp hcharge
  have hmem : conn ∈ w.conns := (hb.tracked conn).mpr (by rw [hold]; rfl)
  obtain ⟨hzero, hlt⟩ := hk.room hroom
  have hle : w.active + 1 ≤ max cfg.maxConnections 0 := Int.le_trans hlt (Int.le_max_left _ _)
  -- Only the accept loop has seen that there is room, and it is the one that acts.
  refine .of_moved (hb.staged (hk.staged hb hcharge rfl rfl rfl rfl rfl) ?_ hle ?_) hk
    (hk.moved hcharge rfl Stage.held_mine rfl rfl) nofun
    fun hne => absurd hzero hne
  · exact hb.recount hmem (by rw [hold]; rfl)
  · exact hb.owned_of_update rfl (hold ▸ rfl) fun _ => rfl

theorem activeSub_kept (hcharge : v.charge = some (conn, .handled none)) :
    Kept cfg remoteHost tid w
      (({ w with active := w.active + -1 } : World).setStage conn (.held tid .uncounted))
      { v with charge := some (conn, .uncounted), room := false } := by
  have hold := (hk.charge conn _).mp hcharge
  have hmem : conn ∈ w.conns := (hb.tracked conn).mpr (by rw [hold]; rfl)
  have hless : w.active + -1 < w.active := by omega
  refine .of_moved (hb.staged (hk.staged hb hcharge rfl rfl rfl rfl rfl) ?_
    (hless.le.trans hb.room) ?_) hk
    (hk.moved hcharge rfl Stage.held_mine rfl rfl) nofun
    fun _ hlt => hless.trans hlt
  · exact hb.recount hmem (by rw [hold]; rfl)
  · exact hb.owned_of_update rfl (hold ▸ rfl) fun _ => rfl

theorem track_kept (hcharge : v.charge = some (conn, .accepted))
    (h : tryTrackConn cfg remoteHost w conn = (w', true)) :
    Kept cfg remoteHost tid w (w'.setStage conn (.held tid .tracked))
      { v with charge := some (conn, .tracked) } := by
  have hold := (hk.charge conn _).mp hcharge
  have hnew : conn ∉ w.conns := by
    rw [hb.tracked, hold]
    nofun
  obtain ⟨hlimit, rfl⟩ := tryTrackConn_true h
  refine .of_still ?_ hk
    (hk.moved hcharge rfl Stage.held_mine rfl rfl) rfl fun h => h
  exact
    { nodup := hb.nodup.insert
      tracked := fun c => by
        change c ∈ w.conns.insert conn ↔ (Function.update w.stage conn _ c).tracked = true
        by_cases hc : c = conn
        · subst hc
          rw [Function.update_self]
          exact iff_of_true (List.mem_insert_self ..) rfl
        · rw [Function.update_of_ne hc, List.mem_insert_iff, ← hb.tracked]
          exact or_iff_right hc
      active := by
        change w.active = ((w.conns.insert conn).countP fun c =>
          (Function.update w.stage conn _ c).counted : ℕ)
        rw [List.insert_of_not_mem hnew, List.countP_cons, countP_update_of_notMem _ _ _ hnew,
          Function.update_self]
        exact hb.active
      room := hb.room
      perHost := hb.perHost_insert hnew
      limit := hb.limit_insert hnew hlimit
      born := fun c hle => by
        have hne : c ≠ conn := hb.ne_of_born (by rw [hold]; nofun) hle
        exact (Function.update_of_ne hne _ _).trans (hb.born c hle)
      owned := hb.owned_of_update rfl (hold ▸ rfl) fun _ => rfl }

theorem untrack_kept (hcharge : v.charge = some (conn, .uncounted)) :
    Kept cfg remoteHost tid w ((untrackConn remoteHost w conn).setStage conn .gone)
      { v with charge := none } := by
  have hold := (hk.charge conn _).mp hcharge
  have hmem : conn ∈ w.conns := (hb.tracked conn).mpr (by rw [hold]; rfl)
  have hout : conn ∉ w.conns.erase conn := fun h => (hb.nodup.mem_erase_iff.mp h).1 rfl
  refine .of_still ?_ hk (hk.moved hcharge rfl nofun rfl rfl) rfl fun h => h
  exact
    { nodup := hb.nodup.erase conn
      tracked := fun c => by
        change c ∈ w.conns.erase conn ↔ (Function.update w.stage conn _ c).tracked = true
        by_cases hc : c = conn
        · subst hc
          rw [Function.update_self]
          exact iff_of_false hout nofun
        · rw [Function.update_of_ne hc, hb.nodup.mem_erase_iff, ← hb.tracked]
          exact and_iff_right hc
      active := by
        change w.active = ((w.conns.erase conn).countP fun c =>
          (Function.update w.stage conn _ c).counted : ℕ)
        rw [countP_update_of_notMem _ _ _ hout, hb.active, countP_of_mem _ hmem, hold]
        rfl
      room := hb.room
      perHost := hb.perHost_erase hmem
      limit := fun hpos host => by
        have hless : (w.conns.erase conn).countP (fun c => remoteHost c = host) ≤
            w.fromHost remoteHost host := List.erase_sublist.countP_le
        exact (Int.ofNat_le.mpr hless).trans (hb.limit hpos host)
      born := fun c hle => by
        have hne : c ≠ conn := hb.ne_of_born (by rw [hold]; nofun) hle
        exact (Function.update_of_ne hne _ _).trans (hb.born c hle)
      owned := hb.owned_of_update rfl (hold ▸ rfl) fun _ => rfl }

/-- An action that the protocol permits. -/
theorem execNow_kept {a : Act} {inp : Input} {r : a.Res} (hmay : v.May cfg a)
    (h : execNow cfg remoteHost tid w a inp = some (w', r)) :
    Kept cfg remoteHost tid w w' (v.after cfg a r) := by
  cases a with
  | isIPBlocked | registerIPViolation => exact .same hb hk (same_of_offBooks rfl h)
  | now | setReadDeadline => exact .same hb (hk.congr rfl rfl rfl) (same_of_offBooks rfl h)
  | readFrame conn mode =>
      cases r with
      | error err => exact .same hb (hk.congr rfl rfl rfl) (same_of_offBooks rfl h)
      | ok frame => exact .same hb (hk.congr rfl rfl rfl) (same_of_offBooks rfl h)
  | accept =>
      cases h
      exact accept_kept hb hk hmay
  | activeLoad =>
      cases h
      refine ⟨hb, ⟨hk.charge, hk.acceptor, fun hroom => ?_⟩, fun _ _ _ _ => Iff.rfl, fun _ h => h⟩
      exact ⟨hk.acceptor.mp hmay, of_decide_eq_true hroom⟩
  | activeAdd conn delta =>
      cases h
      rcases hmay with ⟨rfl, hcharge, hroom⟩ | ⟨rfl, hcharge⟩
      · exact activeAdd_kept hb hk hcharge hroom
      · exact activeSub_kept hb hk hcharge
  | tryTrackConn conn =>
      simp only [execNow] at h
      split at h
      · rename_i w₁ htrack
        cases h
        exact track_kept hb hk hmay htrack
      · rename_i w₁ htrack
        cases h
        obtain rfl := tryTrackConn_false htrack
        exact .same hb hk (.refl _)
  | untrackConn conn =>
      cases h
      exact untrack_kept hb hk hmay
  | spawn conn =>
      cases h
      exact setStage_kept hb hk hmay (by simp) rfl rfl rfl rfl rfl fun h => h
  | begin conn =>
      simp only [execNow] at h
      split at h
      · rename_i hspawned
        cases h
        exact begin_kept hb hk hmay hspawned
      · cases h
  | close conn =>
      have heq := (Prod.mk.inj (Option.some.inj h)).1
      simp only [Duty.after, hk.charge]
      split at heq
      · rename_i hheld
        subst heq
        rw [if_pos hheld]
        exact setStage_kept hb hk ((hk.charge conn _).mpr hheld) (by simp) rfl rfl rfl rfl rfl
          fun h => h
      · rename_i hheld
        subst heq
        rw [if_neg hheld]
        exact .same hb hk (.refl w)
  | create id conn =>
      obtain ⟨⟨w₁, r₁⟩, hexec, heq⟩ := Option.map_eq_some_iff.mp h
      cases r₁ with
      | none =>
          cases heq
          exact create_kept hb hk hmay.1 hexec
      | some err =>
          cases heq
          obtain ⟨hnone, -⟩ | ⟨-, hsame⟩ := create_connOf hexec
          · cases hnone
          · exact .same hb hk hsame
  | markOffline id conn =>
      obtain ⟨⟨w₁, r₁⟩, hexec, heq⟩ := Option.map_eq_some_iff.mp h
      cases heq
      exact markOffline_kept hb hk hmay hexec
  | deliver id a => exact .same hb hk (deliver_same hmay h)
  | spin => cases h

end steps

/-! ## Whole runs -/

theorem exec_kept {a : Act} {inp : Input} {r : a.Res} (hb : Books cfg remoteHost w)
    (hk : Knows cfg tid w v) (hmay : v.May cfg a)
    (h : exec cfg remoteHost tid w a inp = some (w', r)) :
    Kept cfg remoteHost tid w w' (v.after cfg a r) := by
  unfold exec at h
  split at h
  · have hclock : Same w { w with clock := inp.time } :=
      ⟨rfl, rfl, rfl, rfl, rfl, fun _ => rfl⟩
    have hkept := execNow_kept (hb.same hclock) (hk.same hclock) hmay h
    exact ⟨hkept.books, hkept.own, hkept.stage, hkept.room⟩
  · cases h

/-- Before anything has happened, or after a restart. -/
theorem books_of_idle (hconns : w.conns = []) (hactive : w.active = 0)
    (hcount : w.ipConnCount = fun _ => none)
    (hstage : ∀ conn, w.stage conn = if conn < w.accepted then .gone else .unborn)
    (hconn : ∀ id, w.connOf id = none) :
    Books cfg remoteHost w ∧ ∀ tid, ∃ v : Duty, Knows cfg tid w v ∧ v.charge = none := by
  refine ⟨.initial cfg remoteHost w hconns hactive hcount hstage hconn, fun tid => ?_⟩
  refine ⟨{ acceptor := tid = 0 }, ⟨fun conn role => ?_, decide_eq_true_iff, nofun⟩, rfl⟩
  rw [hstage]
  split <;> exact iff_of_false nofun nofun

variable (cfg remoteHost) in
def bookkeeping : Discipline (machine cfg remoteHost) (serverRules cfg remoteHost) {} Duty where
  protocol := Duty.protocol cfg
  knows := Knows cfg
  idle v := v.charge = none
  inv := Books cfg remoteHost
  init := books_of_idle rfl rfl rfl (fun _ => rfl) fun _ => rfl
  start _ hv hidle hstart :=
    Duty.prog_respects remoteHost _ (fun h => hv.acceptor.mpr (hstart h)) hidle
  act := by
    intro w tid a inp w' r v hinv hv _ hmay h
    have hkept := exec_kept hinv hv hmay h
    exact ⟨hkept.books, ⟨_, rfl, hkept.own⟩, fun _ hne _ hu => hkept.other hne hu⟩
  crash := by
    intro w _ _
    refine books_of_idle rfl rfl rfl (fun _ => rfl) fun id => ?_
    exact (Delivery.World.connection_eq _).trans
      (congrArg _ (Delivery.crash_link cfg.delivery id (w.deliveries id)).1)

/-- Every online session has a connection of its own, and that connection counts. -/
theorem Books.online_le (h : Books cfg remoteHost w) (ids : Finset String)
    (honline : ∀ id ∈ ids, (w.connOf id).isSome) : (ids.card : Int) ≤ w.active := by
  have hconn : ∀ id ∈ ids, w.connOf id = some ((w.connOf id).getD 0) := by
    intro id hid
    obtain ⟨conn, hconn⟩ := Option.isSome_iff_exists.mp (honline id hid)
    rw [hconn]
    rfl
  have hcard : ids.card ≤ (w.conns.filter fun conn => (w.stage conn).counted).toFinset.card := by
    refine Finset.card_le_card_of_injOn (fun id => (w.connOf id).getD 0) (fun id hid => ?_) ?_
    · obtain ⟨tid, hstage⟩ := Stage.owner_eq_some.mp ((h.owned id _).mp (hconn id hid))
      refine List.mem_toFinset.mpr (List.mem_filter.mpr ⟨(h.tracked _).mpr ?_, ?_⟩)
      · rw [hstage]
        rfl
      · rw [hstage]
        rfl
    · intro id hid id' hid' heq
      have howner := (h.owned id _).mp (hconn id hid)
      dsimp only at heq
      rw [heq, (h.owned id' _).mp (hconn id' hid')] at howner
      exact (Option.some.inj howner).symm
  rw [List.toFinset_card_of_nodup (h.nodup.filter _), ← List.countP_eq_length_filter] at hcard
  rw [h.active]
  exact Int.ofNat_le.mpr hcard

/-- The counters of the server, whatever the order in which connections come and go. -/
theorem connections_accounted (hmax : 0 ≤ cfg.maxConnections)
    {c : Concurrent.Config (machine cfg remoteHost)}
    (h : Reachable (serverRules cfg remoteHost) {} c) :
    (0 ≤ c.world.active ∧ c.world.active ≤ cfg.maxConnections) ∧
    c.world.conns.Nodup ∧
    (∀ host, c.world.ipConnCount host =
      let n := c.world.conns.countP fun conn => remoteHost conn = host
      if n = 0 then none else some (n : Int)) ∧
    (0 < cfg.maxConnectionsPerIP → ∀ host n, c.world.ipConnCount host = some n →
      n ≤ cfg.maxConnectionsPerIP) ∧
    ∀ ids : Finset String, (∀ id ∈ ids, (c.world.connOf id).isSome) →
      (ids.card : Int) ≤ c.world.active := by
  have hb : Books cfg remoteHost c.world := ((bookkeeping cfg remoteHost).sound h).1
  refine ⟨⟨?_, ?_⟩, hb.nodup, hb.perHost, fun hpos host n hn => ?_, hb.online_le⟩
  · rw [hb.active]
    exact Int.natCast_nonneg _
  · rw [← Int.max_eq_left hmax]
    exact hb.room
  · have hcount := hb.perHost host
    rw [hn] at hcount
    have heq : n = c.world.fromHost remoteHost host := by
      rw [← counter_getD, ← hcount]
      rfl
    exact heq ▸ hb.limit hpos host

/-- A controller registers with a server that runs with the defaults. -/
theorem one_connection_accounted :
    ∃ c, Reachable (serverRules Env.unset.config fun _ => "10.0.0.1") {} c ∧
      c.world.active = 1 ∧ c.world.conns = [0] ∧ c.world.ipConnCount "10.0.0.1" = some 1 ∧
      (c.world.connOf "123456789012345").isSome ∧
      (({"123456789012345"} : Finset String).card : Int) ≤ c.world.active ∧
      c.world.active ≤ Env.unset.config.maxConnections := by
  have hrun : ∃ c, Reachable (serverRules Env.unset.config fun _ => "10.0.0.1") {} c ∧
      c.world.active = 1 ∧ c.world.conns = [0] ∧ c.world.ipConnCount "10.0.0.1" = some 1 ∧
      (c.world.connOf "123456789012345").isSome :=
    ⟨_, Reachable.initial.run (arrive 1 0 40), by decide +kernel⟩
  obtain ⟨c, hc, hactive, hconns, hcount, honline⟩ := hrun
  have haccounted := connections_accounted (by decide) hc
  refine ⟨c, hc, hactive, hconns, hcount, honline, haccounted.2.2.2.2 _ fun id hid => ?_,
    haccounted.1.2⟩
  rw [Finset.mem_singleton.mp hid]
  exact honline

end TcpAdapter.Server
