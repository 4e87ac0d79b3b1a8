import TcpAdapter.Verification.Server.Blocking
import TcpAdapter.Verification.Server.Conduct

/-! # What becomes of a connection

A connection registers at most once, its host is blamed at most once for it, and not if it has
registered. So a host is blocked only after as many of its connections have failed. -/

namespace TcpAdapter.Server

open TcpAdapter.Concurrent TcpAdapter.Queue TcpAdapter.Protocol TcpAdapter.Manager

/-! ## Registrations in the trace -/

/-- A successful `Create`. -/
def registration : Entry sig → Option (String × ConnID)
  | .did _ (.create id conn) none => some (id, conn)
  | _ => none

/-- The controller has registered on the connection. -/
def Registered (id : String) (conn : ConnID) (trace : List (Entry sig)) : Prop :=
  (id, conn) ∈ trace.filterMap registration

theorem registered_cons {id : String} {conn : ConnID} {e : Entry sig} {trace : List (Entry sig)} :
    Registered id conn (e :: trace) ↔
      registration e = some (id, conn) ∨ Registered id conn trace := by
  unfold Registered
  cases he : registration e with
  | none => simp [he]
  | some reg => simp [he, eq_comm]

theorem Registered.cons {id : String} {conn : ConnID} {trace : List (Entry sig)}
    (h : Registered id conn trace) (e : Entry sig) : Registered id conn (e :: trace) :=
  registered_cons.mpr (.inr h)

/-! ## Violations in the trace -/

/-- The conduct of a goroutine so far. -/
abbrev conductOf (tid : ℕ) (trace : List (Entry sig)) : Conduct :=
  stateOf Conduct.after {} tid trace

/-- The connections for which a violation has been registered, the last one first. -/
def blamed : List (Entry sig) → List ConnID
  | .did tid (.registerIPViolation _ _) _ :: older =>
      (conductOf tid older).conn.toList ++ blamed older
  | _ :: older => blamed older
  | [] => []

/-- The host of a violation. -/
def blamedHost : Entry sig → Option String
  | .did _ (.registerIPViolation host _) _ => some host
  | _ => none

/-- The connections that have registered a controller or a violation. -/
def spendings (trace : List (Entry sig)) : List ConnID :=
  blamed trace ++ (trace.filterMap registration).map Prod.snd

namespace Conduct

/-- The connection that an action registers something for. -/
def spends (v : Conduct) : (a : Act) → a.Res → Option ConnID
  | .registerIPViolation _ _, _ => v.conn
  | .create _ conn, none => some conn
  | _, _ => none

variable {remoteHost : ConnID → String} {v : Conduct} {a : Act} {r : a.Res} {conn : ConnID}

theorem open_of_spends (hmay : v.May remoteHost a) (h : v.spends a r = some conn) :
    v.Open conn ∧ (v.after a r).spent = true := by
  cases a with
  | registerIPViolation host now =>
      obtain ⟨conn', hopen, -⟩ := hmay
      obtain rfl : conn' = conn := Option.some.inj (hopen.conn.symm.trans h)
      exact ⟨hopen, rfl⟩
  | create id conn' =>
      cases r with
      | none =>
          obtain rfl : conn' = conn := Option.some.inj h
          exact ⟨hmay, rfl⟩
      | some err => cases h
  | _ => cases h

/-- A handler comes by its connection when it begins. -/
theorem conn_of_after (h : (v.after a r).conn = some conn) :
    a = .begin conn ∨
      v.conn = some conn ∧ (∀ c, a ≠ .begin c) ∧ (∀ c delta, a ≠ .activeAdd c delta) := by
  cases a with
  | begin c =>
      obtain rfl : c = conn := Option.some.inj h
      exact .inl rfl
  | activeAdd c delta => cases h
  | create id c =>
      cases r with
      | none => exact .inr ⟨h, nofun, nofun⟩
      | some err => exact .inr ⟨h, nofun, nofun⟩
  | _ => exact .inr ⟨h, nofun, nofun⟩

theorem open_of_after (h : (v.after a r).Open conn) (hbegin : ∀ c, a ≠ .begin c) :
    v.Open conn ∧ v.spends a r = none := by
  cases a with
  | begin c => exact absurd rfl (hbegin c)
  | activeAdd c delta => cases h.conn
  | registerIPViolation host now => cases h.spent
  | create id c =>
      cases r with
      | none => cases h.spent
      | some err => exact ⟨h, rfl⟩
  | _ => exact ⟨h, rfl⟩

end Conduct

theorem spendings_cons {tid : ℕ} {a : Act} (r : a.Res) (trace : List (Entry sig)) :
    List.Perm (spendings (.did tid a r :: trace))
      (((conductOf tid trace).spends a r).toList ++ spendings trace) := by
  cases a with
  | registerIPViolation host now =>
      rw [spendings, blamed, List.append_assoc]
      rfl
  | create id conn =>
      cases r with
      | none => exact List.perm_middle
      | some err => exact List.Perm.refl _
  | _ => exact List.Perm.refl _

theorem mem_spendings_cons {tid : ℕ} {a : Act} {r : a.Res} {trace : List (Entry sig)}
    {conn : ConnID} (h : conn ∈ spendings (.did tid a r :: trace)) :
    (conductOf tid trace).spends a r = some conn ∨ conn ∈ spendings trace := by
  rcases List.mem_append.mp ((spendings_cons r trace).mem_iff.mp h) with hnew | hold
  · exact .inl (Option.mem_toList.mp hnew)
  · exact .inr hold

theorem registered_unique {trace : List (Entry sig)} {id id' : String} {conn : ConnID}
    (hnodup : (spendings trace).Nodup) (h : Registered id conn trace)
    (h' : Registered id' conn trace) : id = id' := by
  have hregs : ((trace.filterMap registration).map Prod.snd).Nodup :=
    (List.nodup_append.mp hnodup).2.1
  exact congrArg Prod.fst (List.inj_on_of_nodup_map hregs h h' rfl)

/-! ## A connection is spent once -/

/-- The connection has no handler yet. -/
def Stage.early : Stage → Bool
  | .unborn | .spawned => true
  | .held _ role => role = .accepted ∨ role = .tracked ∨ role = .counted
  | .gone => false

section step

variable {cfg : Config} {remoteHost : ConnID → String} {tid : ℕ} {w w' : World} {v : Duty}
  {inp : Input} {trace : List (Entry sig)}

/-- Nobody goes back to a stage without a handler, and the connections are numbered upwards. -/
theorem exec_early {a : Act} {r : a.Res} (hb : Books cfg remoteHost w) (hk : Knows cfg tid w v)
    (hmay : v.May cfg a) (h : exec cfg remoteHost tid w a inp = some (w', r)) :
    w.accepted ≤ w'.accepted ∧
      ∀ conn, (w'.stage conn).early = true → (w.stage conn).early = true := by
  have hupdate : ∀ (conn : ConnID) (s : Stage), (s.early = true → (w.stage conn).early = true) →
      ∀ other, (Function.update w.stage conn s other).early = true →
        (w.stage other).early = true := by
    intro conn s hs other hother
    by_cases heq : other = conn
    · subst heq
      exact hs (by simpa using hother)
    · simpa [Function.update_of_ne heq] using hother
  have hcharge : ∀ conn role, v.charge = some (conn, role) →
      role = .accepted ∨ role = .tracked ∨ role = .counted → (w.stage conn).early = true := by
    intro conn role hcharge hrole
    rw [(hk.charge conn role).mp hcharge]
    simpa [Stage.early] using hrole
  rw [exec] at h
  split at h
  · cases a with
    | accept =>
        cases h
        refine ⟨Nat.le_succ _, hupdate _ _ fun _ => ?_⟩
        rw [hb.born _ (Nat.le_refl _)]
        rfl
    | activeAdd conn delta =>
        cases h
        refine ⟨Nat.le_refl _, hupdate _ _ fun hearly => ?_⟩
        rcases hmay with ⟨-, hc, -⟩ | ⟨hdelta, -⟩
        · exact hcharge conn _ hc (.inr (.inl rfl))
        · subst hdelta
          cases hearly
    | tryTrackConn conn =>
        have htracked := hcharge conn _ hmay (.inl rfl)
        simp only [execNow, tryTrackConn] at h
        split at h
        · rename_i htrack
          split at htrack <;> cases htrack
          cases h
          exact ⟨Nat.le_refl _, hupdate _ _ fun _ => htracked⟩
        · rename_i htrack
          split at htrack <;> cases htrack
          cases h
          exact ⟨Nat.le_refl _, fun _ hearly => hearly⟩
    | spawn conn =>
        cases h
        exact ⟨Nat.le_refl _, hupdate _ _ fun _ => hcharge conn _ hmay (.inr (.inr rfl))⟩
    | untrackConn conn =>
        cases h
        exact ⟨Nat.le_refl _, hupdate _ _ fun hearly => by cases hearly⟩
    | begin conn =>
        simp only [execNow] at h
        split at h
        · cases h
          exact ⟨Nat.le_refl _, hupdate _ _ fun hearly => by cases hearly⟩
        · cases h
    | close conn =>
        cases h
        split
        · exact ⟨Nat.le_refl _, hupdate _ _ fun hearly => by cases hearly⟩
        · exact ⟨Nat.le_refl _, fun _ hearly => hearly⟩
    | create id conn =>
        obtain ⟨⟨w₁, r₁⟩, hdeliver, heq⟩ := Option.map_eq_some_iff.mp h
        obtain ⟨⟨u, r₂⟩, -, hput⟩ := Option.map_eq_some_iff.mp hdeliver
        obtain ⟨rfl, rfl⟩ := Prod.mk.inj hput
        dsimp only at heq
        split at heq
        · obtain ⟨rfl, -⟩ := Prod.mk.inj heq
          exact ⟨Nat.le_refl _, hupdate _ _ fun hearly => by cases hearly⟩
        · obtain ⟨rfl, -⟩ := Prod.mk.inj heq
          exact ⟨Nat.le_refl _, fun _ hearly => hearly⟩
    | markOffline id conn =>
        obtain ⟨⟨w₁, r₁⟩, hdeliver, heq⟩ := Option.map_eq_some_iff.mp h
        obtain ⟨⟨u, r₂⟩, -, hput⟩ := Option.map_eq_some_iff.mp hdeliver
        obtain ⟨rfl, rfl⟩ := Prod.mk.inj hput
        obtain ⟨rfl, -⟩ := Prod.mk.inj heq
        exact ⟨Nat.le_refl _, hupdate _ _ fun hearly => by cases hearly⟩
    | deliver id b =>
        obtain ⟨⟨u, r₁⟩, -, hput⟩ := Option.map_eq_some_iff.mp h
        obtain ⟨rfl, -⟩ := Prod.mk.inj hput
        exact ⟨Nat.le_refl _, fun _ hearly => hearly⟩
    | activeLoad =>
        cases h
        exact ⟨Nat.le_refl _, fun _ hearly => hearly⟩
    | spin => cases h
    | now | isIPBlocked | registerIPViolation | setReadDeadline | readFrame =>
        have hsame := same_of_offBooks rfl h
        rw [hsame.stage, hsame.accepted]
        exact ⟨Nat.le_refl _, fun _ hearly => hearly⟩
  · cases h

/-- A handler stays in charge of its connection until it gives up its place. -/
theorem handled_after {a : Act} {r : a.Res} {conn : ConnID} {owned : Option String}
    (hcharge : v.charge = some (conn, .handled owned)) (hmay : v.May cfg a)
    (hactive : ∀ c delta, a ≠ .activeAdd c delta) :
    ∃ owned', (v.after cfg a r).charge = some (conn, .handled owned') := by
  cases a with
  | accept | begin | tryTrackConn | untrackConn | spawn =>
      have hother := hcharge.symm.trans hmay
      cases hother
  | activeAdd c delta => exact absurd rfl (hactive c delta)
  | close c =>
      refine ⟨owned, ?_⟩
      rw [Duty.after, if_neg]
      · exact hcharge
      · rw [hcharge]
        simp
  | readFrame c mode =>
      cases r with
      | ok frame => exact ⟨owned, hcharge⟩
      | error err => exact ⟨owned, hcharge⟩
  | create id c =>
      cases r with
      | none =>
          obtain ⟨rfl, -⟩ := Prod.mk.inj (Option.some.inj (hcharge.symm.trans hmay.1))
          exact ⟨some id, rfl⟩
      | some err => exact ⟨owned, hcharge⟩
  | markOffline id c =>
      obtain ⟨rfl, -⟩ := Prod.mk.inj (Option.some.inj (hcharge.symm.trans hmay))
      exact ⟨none, rfl⟩
  | _ => exact ⟨owned, hcharge⟩

theorem spawned_of_begin {conn : ConnID} {r : Unit}
    (h : exec cfg remoteHost tid w (.begin conn) inp = some (w', r)) : w.stage conn = .spawned := by
  rw [exec] at h
  split at h
  · simp only [execNow] at h
    split at h
    · assumption
    · cases h
  · cases h

/-- No connection has registered twice. A connection without a handler has not registered, and
neither has one whose handler still may. -/
structure Spent (w : World × List (Entry sig)) : Prop where
  nodup : (spendings w.2).Nodup
  early : ∀ conn, (w.1.stage conn).early = true → conn ∉ spendings w.2
  unborn : ∀ conn, w.1.accepted ≤ conn → conn ∉ spendings w.2
  handled : ∀ tid conn, (conductOf tid w.2).conn = some conn →
    ∃ owned, w.1.stage conn = .held tid (.handled owned)
  free : ∀ tid conn, (conductOf tid w.2).Open conn → conn ∉ spendings w.2

theorem Spent.crash (h : Spent (w, trace)) : Spent (w.restart cfg, .crashed :: trace) := by
  refine ⟨h.nodup, fun conn hearly => ?_, h.unborn, nofun, fun tid conn hopen => ?_⟩
  · -- After a restart only the connections to come have no handler.
    refine h.unborn conn (Nat.le_of_not_lt fun hlt => ?_)
    have hgone : (w.restart cfg).stage conn = .gone := if_pos hlt
    rw [hgone] at hearly
    cases hearly
  · cases hopen.conn

/-- What is spent now has a handler, which had spent nothing before. -/
theorem Spent.fresh {a : Act} {r : a.Res} (h : Spent (w, trace))
    (hopen : (conductOf tid trace).May remoteHost a) {conn : ConnID}
    (hspends : (conductOf tid trace).spends a r = some conn) :
    (∃ owned, w.stage conn = .held tid (.handled owned)) ∧ conn ∉ spendings trace := by
  obtain ⟨hbefore, -⟩ := Conduct.open_of_spends hopen hspends
  exact ⟨h.handled tid conn hbefore.conn, h.free tid conn hbefore⟩

theorem Spent.step {a : Act} {r : a.Res} (h : Spent (w, trace)) (hb : Books cfg remoteHost w)
    (hk : Knows cfg tid w v) (hmay : v.May cfg a) (hopen : (conductOf tid trace).May remoteHost a)
    (hexec : exec cfg remoteHost tid w a inp = some (w', r)) :
    Spent (w', .did tid a r :: trace) := by
  obtain ⟨haccepted, hearly⟩ := exec_early hb hk hmay hexec
  have hkept := exec_kept hb hk hmay hexec
  have hown : conductOf tid (.did tid a r :: trace) = (conductOf tid trace).after a r := stateOf_own
  refine ⟨?_, fun conn hstage hmem => ?_, fun conn hle hmem => ?_, fun tid' conn hconn => ?_,
    fun tid' conn hfree hmem => ?_⟩
  · rw [(spendings_cons r trace).nodup_iff]
    cases hspends : (conductOf tid trace).spends a r with
    | none => exact h.nodup
    | some conn => exact List.nodup_cons.mpr ⟨(h.fresh hopen hspends).2, h.nodup⟩
  · rcases mem_spendings_cons hmem with hspends | hold
    · obtain ⟨⟨owned, hheld⟩, -⟩ := h.fresh hopen hspends
      have hbefore := hearly conn hstage
      rw [hheld] at hbefore
      cases hbefore
    · exact h.early conn (hearly conn hstage) hold
  · rcases mem_spendings_cons hmem with hspends | hold
    · obtain ⟨⟨owned, hheld⟩, -⟩ := h.fresh hopen hspends
      have hunborn := hb.born conn (haccepted.trans hle)
      rw [hheld] at hunborn
      cases hunborn
    · exact h.unborn conn (haccepted.trans hle) hold
  · by_cases htid : tid = tid'
    · subst htid
      have hafter : ((conductOf tid trace).after a r).conn = some conn := hown ▸ hconn
      rcases Conduct.conn_of_after hafter with rfl | ⟨hbefore, -, hactive⟩
      · exact ⟨none, (hkept.own.charge conn _).mp rfl⟩
      · obtain ⟨owned, hheld⟩ := h.handled tid conn hbefore
        obtain ⟨owned', hcharge⟩ := handled_after (r := r) ((hk.charge conn _).mpr hheld) hmay hactive
        exact ⟨owned', (hkept.own.charge conn _).mp hcharge⟩
    · obtain ⟨owned, hheld⟩ := h.handled tid' conn (by rwa [conductOf, stateOf_other htid] at hconn)
      exact ⟨owned, (hkept.stage tid' (Ne.symm htid) conn _).mpr hheld⟩
  · by_cases htid : tid = tid'
    · subst htid
      have hafter : ((conductOf tid trace).after a r).Open conn := hown ▸ hfree
      rcases Conduct.conn_of_after hafter.conn with rfl | ⟨-, hbegin, -⟩
      · rcases mem_spendings_cons hmem with hspends | hold
        · cases hspends
        · exact h.early conn (by rw [spawned_of_begin hexec]; rfl) hold
      · obtain ⟨hbefore, hnone⟩ := Conduct.open_of_after hafter hbegin
        rcases mem_spendings_cons hmem with hspends | hold
        · rw [hnone] at hspends
          cases hspends
        · exact h.free tid conn hbefore hold
    · -- Another handler has another connection.
      rw [conductOf, stateOf_other htid] at hfree
      rcases mem_spendings_cons hmem with hspends | hold
      · obtain ⟨⟨owned, hheld⟩, -⟩ := h.fresh hopen hspends
        obtain ⟨owned', hheld'⟩ := h.handled tid' conn hfree.conn
        exact htid (Stage.held.inj (hheld.symm.trans hheld')).1
      · exact h.free tid' conn hfree hold

end step

/-! ## Whole runs -/

section runs

variable (cfg : Config) (remoteHost : ConnID → String)

/-- The goroutines keep their books, and they behave. -/
def conducts : Discipline (machine cfg remoteHost).traced (serverRules cfg remoteHost).traced
    ({}, []) (Duty × Conduct) :=
  (tracedBookkeeping cfg remoteHost).prod
    (.ofTrace (Conduct.protocol remoteHost) Conduct.after {} (fun v => v.conn = none) rfl
      (fun _ _ _ => rfl) fun _ _ task _ _ hidle => Conduct.prog_respects cfg task hidle)

variable {cfg remoteHost} {c : Concurrent.Config (machine cfg remoteHost).traced}

theorem spent_of_reachable (h : Reachable (serverRules cfg remoteHost).traced ({}, []) c) :
    Spent c.world := by
  refine (conducts cfg remoteHost).invariant (J := Spent) ?_ ?_ ?_ h
  · exact ⟨List.nodup_nil, fun _ _ => nofun, fun _ _ => nofun, nofun, fun _ _ _ => nofun⟩
  · intro c c' tid a inp r v m hold
    obtain ⟨hexec, htrace⟩ := exec_of_traced m.exec
    have hopen := m.may.2
    rw [m.knows.2] at hopen
    have hstep := hold.step m.inv.1 m.knows.1 m.may.1 hopen hexec
    rwa [← htrace] at hstep
  · exact fun _ _ hold => hold.crash

theorem blamedHost_of_blamed (h : Reachable (serverRules cfg remoteHost).traced ({}, []) c) :
    c.world.2.filterMap blamedHost = (blamed c.world.2).map remoteHost := by
  refine (conducts cfg remoteHost).invariant
    (J := fun w => w.2.filterMap blamedHost = (blamed w.2).map remoteHost) rfl ?_ ?_ h
  · intro c c' tid a inp r v m hold
    rw [(exec_of_traced m.exec).2]
    have hmay := m.may.2
    rw [m.knows.2] at hmay
    cases a with
    | registerIPViolation host now =>
        obtain ⟨conn, hopen, rfl⟩ := hmay
        have hconn : (conductOf tid c.world.2).conn = some conn := hopen.conn
        simp [blamed, hconn, blamedHost, hold]
    | _ => exact hold
  · exact fun _ _ hold => hold

/-- Every connection registers a controller at most once or is held against its own host at most
once, and never both. -/
theorem connection_spent_once (h : Reachable (serverRules cfg remoteHost).traced ({}, []) c) :
    (blamed c.world.2 ++ (c.world.2.filterMap registration).map Prod.snd).Nodup ∧
    (∀ conn ∈ blamed c.world.2 ++ (c.world.2.filterMap registration).map Prod.snd,
      conn < c.world.1.accepted) ∧
    c.world.2.filterMap blamedHost = (blamed c.world.2).map remoteHost := by
  have hspent := spent_of_reachable h
  refine ⟨hspent.nodup, fun conn hmem => ?_, blamedHost_of_blamed h⟩
  exact Nat.lt_of_not_le fun hle => hspent.unborn conn hle hmem

end runs

/-- One connection registers a controller, and another one ends before it has. -/
theorem second_connection_blamed :
    ∃ c, Reachable (serverRules Env.unset.config fun _ => "10.0.0.1").traced ({}, []) c ∧
      c.world.2.filterMap registration = [("123456789012345", 0)] ∧ blamed c.world.2 = [1] ∧
      c.world.2.filterMap blamedHost = ["10.0.0.1"] := by
  have hrun : ∃ c, Reachable (serverRules Env.unset.config fun _ => "10.0.0.1").traced ({}, []) c ∧
      c.world.2.filterMap registration = [("123456789012345", 0)] ∧ blamed c.world.2 = [1] :=
    ⟨_, Reachable.initial.run ((arrive 1 0 40 ++ arrive 2 1 40 { ended := .eof }).map Label.traced),
      by decide +kernel⟩
  obtain ⟨c, hc, hregistered, hblamed⟩ := hrun
  refine ⟨c, hc, hregistered, hblamed, ?_⟩
  rw [(connection_spent_once hc).2.2, hblamed]
  rfl

/-! ## Blocked hosts -/

/-- The call about a host that an action is. -/
def Act.hostCall : Act → Option HostCall
  | .isIPBlocked host t => some (.isIPBlocked host t)
  | .registerIPViolation host t => some (.registerIPViolation host t)
  | _ => none

section blocks

variable {cfg : Config} {remoteHost : ConnID → String} {tid : ℕ} {w w' : World} {inp : Input}

/-- Only the calls about hosts change what is known about them. -/
theorem exec_security {a : Act} {r : a.Res}
    (h : exec cfg remoteHost tid w a inp = some (w', r)) (host : String) :
    w'.security host = match a.hostCall with
      | some call => (call.run cfg { w with clock := inp.time }).security host
      | none => w.security host := by
  rw [exec] at h
  split at h
  · cases a with
    | isIPBlocked | registerIPViolation =>
        obtain rfl := congrArg Prod.fst (Option.some.inj h)
        rfl
    | tryTrackConn conn =>
        simp only [execNow, tryTrackConn] at h
        split at h
        · rename_i htrack
          split at htrack <;> cases htrack
          cases h
          rfl
        · rename_i htrack
          split at htrack <;> cases htrack
          cases h
          rfl
    | begin conn =>
        simp only [execNow] at h
        split at h
        · cases h
          rfl
        · cases h
    | close conn =>
        cases h
        dsimp only
        split <;> rfl
    | readFrame conn mode =>
        simp only [execNow, execRead] at h
        split at h
        · cases h
        · split at h
          · cases h
            rfl
          · cases h
            rfl
    | create id conn =>
        obtain ⟨⟨w₁, r₁⟩, hdeliver, heq⟩ := Option.map_eq_some_iff.mp h
        obtain ⟨d, inp', -, rfl⟩ := execDeliver_eq hdeliver
        dsimp only at heq
        split at heq
        · cases heq
          rfl
        · cases heq
          rfl
    | markOffline id conn =>
        obtain ⟨⟨w₁, r₁⟩, hdeliver, heq⟩ := Option.map_eq_some_iff.mp h
        obtain ⟨d, inp', -, rfl⟩ := execDeliver_eq hdeliver
        cases heq
        rfl
    | deliver id b =>
        obtain ⟨d, inp', -, rfl⟩ := execDeliver_eq h
        rfl
    | spin => cases h
    | _ =>
        cases h
        rfl
  · cases h

/-- The host whose connection is turned away because it is blocked. -/
def turnedAway : Entry sig → Option String
  | .did _ (.isIPBlocked host _) true => some host
  | _ => none

theorem blockedTil_of_turnedAway {a : Act} {r : a.Res} {host : String}
    (h : exec cfg remoteHost tid w a inp = some (w', r))
    (haway : turnedAway (.did tid a r) = some host) : (w.security host).blockedTil.isSome := by
  cases a with
  | isIPBlocked host' now =>
      cases r with
      | false => cases haway
      | true =>
          obtain rfl : host' = host := Option.some.inj haway
          rw [exec] at h
          split at h
          · have hblocked : (isIPBlocked cfg { w with clock := inp.time } host' now).2 = true :=
              congrArg Prod.snd (Option.some.inj h)
            by_cases hlimit : 0 < cfg.ipViolationLimit
            · rw [isIPBlocked_snd hlimit] at hblocked
              exact Option.isSome_of_any hblocked
            · rw [isIPBlocked, if_pos (Int.not_lt.mp hlimit)] at hblocked
              cases hblocked
          · cases h
  | _ => cases haway

/-- How many of the connections are from the host. -/
def failures (remoteHost : ConnID → String) (host : String) (conns : List ConnID) : ℕ :=
  conns.countP fun conn => remoteHost conn = host

/-- What a host is charged with is backed by connections. -/
structure Backed (cfg : Config) (n : ℕ) (st : IPSecurityState) : Prop where
  violations : st.violations.length ≤ n
  blocked : st.blockedTil.isSome → cfg.ipViolationLimit ≤ n

theorem Backed.mono {n n' : ℕ} {st : IPSecurityState} (h : Backed cfg n st) (hle : n ≤ n') :
    Backed cfg n' st :=
  ⟨h.violations.trans hle, fun hblocked => (h.blocked hblocked).trans (Int.ofNat_le.mpr hle)⟩

theorem Backed.registerIPViolation {n : ℕ} {host : String} {now : Time}
    (h : Backed cfg n (w.security host)) :
    Backed cfg (n + 1) ((registerIPViolation cfg w host now).security host) := by
  by_cases hoff : cfg.ipViolationLimit ≤ 0 ∨ host = ""
  · rw [Server.registerIPViolation, if_pos hoff]
    exact h.mono (Nat.le_succ n)
  · rw [not_or, Int.not_le] at hoff
    rw [security_registerIPViolation hoff.1 hoff.2]
    have hkept : ((w.security host).kept cfg now).length ≤ n + 1 := by
      rw [IPSecurityState.kept, List.length_append]
      exact Nat.add_le_add_right ((List.length_filter_le ..).trans h.violations) 1
    split
    next hreached =>
      exact ⟨Nat.zero_le _, fun _ => hreached.trans (Int.ofNat_le.mpr hkept)⟩
    next => exact ⟨hkept, (h.mono (Nat.le_succ n)).blocked⟩

theorem Backed.isIPBlocked {n : ℕ} {host : String} {now : Time}
    (h : Backed cfg n (w.security host)) :
    Backed cfg n ((isIPBlocked cfg w host now).1.security host) := by
  by_cases hlimit : 0 < cfg.ipViolationLimit
  · rw [security_isIPBlocked hlimit]
    split
    · exact ⟨Nat.zero_le _, nofun⟩
    · exact h
  · rw [Server.isIPBlocked, if_pos (Int.not_lt.mp hlimit)]
    exact h

theorem backed_of_reachable {c : Concurrent.Config (machine cfg remoteHost).traced}
    (h : Reachable (serverRules cfg remoteHost).traced ({}, []) c) (host : String) :
    Backed cfg (failures remoteHost host (blamed c.world.2)) (c.world.1.security host) := by
  refine (conducts cfg remoteHost).invariant
    (J := fun w => Backed cfg (failures remoteHost host (blamed w.2)) (w.1.security host))
    ⟨Nat.zero_le _, nofun⟩ ?_ ?_ h
  · intro c c' tid a inp r v m hold
    obtain ⟨hexec, htrace⟩ := exec_of_traced m.exec
    rw [htrace, exec_security hexec]
    have hmay := m.may.2
    rw [m.knows.2] at hmay
    cases a with
    | isIPBlocked host' now =>
        by_cases heq : host = host'
        · subst heq
          exact Backed.isIPBlocked hold
        · change Backed cfg _ ((HostCall.isIPBlocked host' now).run cfg _ |>.security host)
          rw [run_of_ne heq]
          exact hold
    | registerIPViolation host' now =>
        obtain ⟨conn, hopen, rfl⟩ := hmay
        have hconn : (conductOf tid c.world.2).conn = some conn := hopen.conn
        have hblamed : blamed (.did tid (.registerIPViolation (remoteHost conn) now) r ::
            c.world.2) = conn :: blamed c.world.2 := by
          rw [blamed, hconn]
          rfl
        rw [hblamed, failures, List.countP_cons]
        by_cases heq : host = remoteHost conn
        · rw [if_pos (by simp [heq])]
          subst heq
          exact Backed.registerIPViolation hold
        · change Backed cfg _
            ((HostCall.registerIPViolation (remoteHost conn) now).run cfg _ |>.security host)
          rw [run_of_ne heq]
          exact Backed.mono hold (Nat.le_add_right _ _)
    | _ => exact hold
  · exact fun _ _ _ => ⟨Nat.zero_le _, nofun⟩

theorem blamed_suffix (newer older : List (Entry sig)) : blamed older <:+ blamed (newer ++ older) := by
  induction newer with
  | nil => exact List.suffix_refl _
  | cons e newer ih =>
      cases e with
      | crashed => exact ih
      | did tid a r =>
          cases a with
          | registerIPViolation host now => exact ih.trans (List.suffix_append _ _)
          | _ => exact ih

/-- A host is turned away only if as many of its connections as the limit have failed before, all
of them different, and on none of them has a controller ever registered. -/
theorem blocked_host_failed {c : Concurrent.Config (machine cfg remoteHost).traced}
    (h : Reachable (serverRules cfg remoteHost).traced ({}, []) c) {e : Entry sig} {host : String}
    {newer older : List (Entry sig)} (htrace : c.world.2 = newer ++ e :: older)
    (he : turnedAway e = some host) :
    ∃ conns : List ConnID, conns.Nodup ∧ cfg.ipViolationLimit ≤ conns.length ∧
      ∀ conn ∈ conns, remoteHost conn = host ∧ conn ∈ blamed older ∧
        ∀ id, ¬Registered id conn c.world.2 := by
  have heach : Each (fun e older => ∀ host, turnedAway e = some host →
      cfg.ipViolationLimit ≤ failures remoteHost host (blamed older)) c.world.2 := by
    refine (conducts cfg remoteHost).invariant
      (J := fun w => Each (fun e older => ∀ host, turnedAway e = some host →
        cfg.ipViolationLimit ≤ failures remoteHost host (blamed older)) w.2) trivial ?_ ?_ h
    · intro c c' tid a inp r v m hold
      obtain ⟨hexec, htrace⟩ := exec_of_traced m.exec
      rw [htrace]
      refine ⟨fun host haway => ?_, hold⟩
      exact (backed_of_reachable m.before host).blocked (blockedTil_of_turnedAway hexec haway)
    · exact fun _ _ hold => ⟨nofun, hold⟩
  rw [htrace] at heach
  have hspent := spent_of_reachable h
  have hsuffix : blamed older <:+ blamed c.world.2 := by
    rw [htrace, ← List.singleton_append, ← List.append_assoc]
    exact blamed_suffix _ older
  have hdisjoint := List.nodup_append.mp hspent.nodup
  refine ⟨(blamed older).filter fun conn => remoteHost conn = host,
    (hdisjoint.1.sublist hsuffix.sublist).filter _, ?_, fun conn hconn => ?_⟩
  · rw [← List.countP_eq_length_filter]
    exact heach.at_entry host he
  · obtain ⟨hmem, hhost⟩ := List.mem_filter.mp hconn
    refine ⟨of_decide_eq_true hhost, hmem, fun id hreg => ?_⟩
    exact hdisjoint.2.2 conn (hsuffix.subset hmem) conn (List.mem_map_of_mem hreg) rfl

end blocks

/-- Two connections end before they have registered, and the third one is turned away. -/
theorem third_connection_turned_away :
    ∃ c, Reachable (serverRules twoStrikes fun _ => "10.0.0.1").traced ({}, []) c ∧
      c.world.2.filterMap turnedAway = ["10.0.0.1"] ∧
      ∃ conns : List ConnID, conns.Nodup ∧ 2 ≤ conns.length ∧
        ∀ conn ∈ conns, ∀ id, ¬Registered id conn c.world.2 := by
  have hrun : ∃ c, Reachable (serverRules twoStrikes fun _ => "10.0.0.1").traced ({}, []) c ∧
      c.world.2.filterMap turnedAway = ["10.0.0.1"] :=
    ⟨_, Reachable.initial.run ((arrive 1 0 40 { ended := .eof } ++
      arrive 2 1 40 { ended := .eof } ++ call 0 .accept 8).map Label.traced), by decide +kernel⟩
  obtain ⟨c, hc, haway⟩ := hrun
  have hmem : "10.0.0.1" ∈ c.world.2.filterMap turnedAway := by
    rw [haway]
    exact List.mem_singleton_self _
  obtain ⟨e, he, hhost⟩ := List.mem_filterMap.mp hmem
  obtain ⟨newer, older, htrace⟩ := List.append_of_mem he
  obtain ⟨conns, hnodup, hlimit, hconns⟩ := blocked_host_failed hc htrace hhost
  exact ⟨c, hc, haway, conns, hnodup, Int.ofNat_le.mp hlimit,
    fun conn hconn => (hconns conn hconn).2.2⟩

end TcpAdapter.Server
