import TcpAdapter.Concurrent.Trace
import TcpAdapter.Verification.Server.Accounting

/-! # Who owns a session

A handler owns the session of a controller from a successful `Create` to its `MarkOffline`. The
trace says who that is. -/

namespace TcpAdapter.Server

open TcpAdapter.Concurrent TcpAdapter.Queue TcpAdapter.Protocol TcpAdapter.Manager

/-- The goroutine has passed `Create` for the controller with the connection, and it has not
executed `MarkOffline` since. -/
def owns (tid : ℕ) (id : String) (conn : ConnID) : List (Entry sig) → Bool
  | .did other (.create id' conn') none :: older =>
      (other == tid && id' == id && conn' == conn) || owns tid id conn older
  | .did other (.markOffline id' _) _ :: older =>
      !(other == tid && id' == id) && owns tid id conn older
  | .did _ _ _ :: older => owns tid id conn older
  | .crashed :: _ | [] => false

section owns

variable {cfg : Config} {tid other : ℕ} {a : Act} {r : a.Res} {trace : List (Entry sig)}

/-- What another goroutine does. -/
theorem owns_other (hne : other ≠ tid) (id : String) (conn : ConnID) :
    owns tid id conn (.did other a r :: trace) = owns tid id conn trace := by
  have hother : (other == tid) = false := beq_false_of_ne hne
  cases a with
  | create id' conn' =>
      cases r with
      | none => simp [owns, hother]
      | some err => rfl
  | markOffline id' conn' => simp [owns, hother]
  | _ => rfl

/-- The session that the goroutine owns is the one that its duty names. -/
def Owned (tid : ℕ) (trace : List (Entry sig)) (v : Duty) : Prop :=
  ∀ id conn, owns tid id conn trace = true ↔ v.charge = some (conn, .handled (some id))

theorem Owned.eq_false {v : Duty} {charge : Option (ConnID × Role)} (h : Owned tid trace v)
    (hcharge : v.charge = charge) (id : String) (conn : ConnID)
    (hne : charge ≠ some (conn, .handled (some id))) : owns tid id conn trace = false :=
  Bool.eq_false_iff.mpr fun howns => hne (hcharge.symm.trans ((h id conn).mp howns))

/-- No session before the action and none after it. -/
theorem Owned.none_owned {v v' : Duty} {charge : Option (ConnID × Role)} {id : String}
    {conn : ConnID} (h : Owned tid trace v) (hcharge : v.charge = charge)
    (hne : charge ≠ some (conn, .handled (some id)))
    (hne' : v'.charge ≠ some (conn, .handled (some id))) :
    owns tid id conn trace = true ↔ v'.charge = some (conn, .handled (some id)) := by
  refine iff_of_false ?_ hne'
  rw [h.eq_false hcharge id conn hne]
  exact Bool.false_ne_true

theorem Owned.own {v : Duty} (h : Owned tid trace v) (hmay : v.May cfg a) :
    Owned tid (.did tid a r :: trace) (v.after cfg a r) := by
  intro id conn
  cases a with
  | create id' conn' =>
      cases r with
      | none =>
          have hnone := h.eq_false hmay.1 id conn (by simp)
          simp [owns, Duty.after, hnone, and_comm]
      | some err => exact h id conn
  | markOffline id' conn' =>
      refine iff_of_false ?_ (by simp [Duty.after])
      by_cases hid : id' = id
      · simp [owns, hid]
      · have hnone := h.eq_false hmay id conn (by simp [hid])
        simp [owns, hnone]
  | tryTrackConn conn' =>
      cases r with
      | true => exact h.none_owned hmay (by simp) (by simp [Duty.after])
      | false => exact h id conn
  | activeAdd conn' delta =>
      have hafter : (v.after cfg (.activeAdd conn' delta) r).charge ≠
          some (conn, .handled (some id)) := by
        simp only [Duty.after]
        split <;> simp
      rcases hmay with ⟨-, hcharge, -⟩ | ⟨-, hcharge⟩
      · exact h.none_owned hcharge (by simp) hafter
      · exact h.none_owned hcharge (by simp) hafter
  | accept | begin | untrackConn | spawn =>
      exact h.none_owned hmay (by simp) (by simp [Duty.after])
  | close conn' =>
      simp only [Duty.after]
      split
      · rename_i hcharge
        exact h.none_owned hcharge (by simp) (by simp)
      · exact h id conn
  | readFrame conn' mode =>
      cases r with
      | error err => exact h id conn
      | ok frame => exact h id conn
  | _ => exact h id conn

end owns

/-! ## Whole runs -/

section runs

variable (cfg : Config) (remoteHost : ConnID → String)

def tracedBookkeeping : Discipline (machine cfg remoteHost).traced
    (serverRules cfg remoteHost).traced ({}, []) Duty :=
  (bookkeeping cfg remoteHost).traced _ (fun _ _ _ h => h) (fun _ _ _ _ h => h) fun _ h => h

variable {cfg remoteHost} {c : Concurrent.Config (machine cfg remoteHost).traced}

/-- The stage of a connection tells who owns a session with it. -/
theorem owns_iff_stage (h : Reachable (serverRules cfg remoteHost).traced ({}, []) c) :
    ∀ tid id conn, owns tid id conn c.world.2 = true ↔
      c.world.1.stage conn = .held tid (.handled (some id)) := by
  refine (tracedBookkeeping cfg remoteHost).invariant
    (J := fun w => ∀ tid id conn, owns tid id conn w.2 = true ↔
      w.1.stage conn = .held tid (.handled (some id))) ?_ ?_ ?_ h
  · exact fun _ _ _ => iff_of_false nofun nofun
  · intro c c' actor a inp r v m hold tid id conn
    obtain ⟨hexec, htrace⟩ := exec_of_traced m.exec
    have hkept := exec_kept m.inv m.knows m.may hexec
    rw [htrace]
    by_cases hactor : tid = actor
    · subst hactor
      have howned : Owned tid c.world.2 v := fun id conn =>
        (hold tid id conn).trans (m.knows.charge conn _).symm
      exact (howned.own m.may id conn).trans (hkept.own.charge conn _)
    · rw [owns_other (Ne.symm hactor), hold, hkept.stage tid hactor]
  · intro c _ _ _ tid id conn
    refine iff_of_false nofun ?_
    simp only [World.restart]
    split <;> nofun

/-- A controller has at most one handler that owns its session. That handler is live, the
connection of the session is the handler's, and nobody else takes it offline. -/
theorem session_owned_exclusively
    (h : Reachable (serverRules cfg remoteHost).traced ({}, []) c) (id : String) :
    (∀ tid conn tid' conn', owns tid id conn c.world.2 = true →
      owns tid' id conn' c.world.2 = true → tid = tid' ∧ conn = conn') ∧
    (∀ tid conn, owns tid id conn c.world.2 = true → ∃ a k, c.threads tid = .act a k) ∧
    (∀ conn, c.world.1.connOf id = some conn ↔ ∃ tid, owns tid id conn c.world.2 = true) ∧
    ∀ tid conn k, c.threads tid = .act (.markOffline id conn) k →
      owns tid id conn c.world.2 = true ∧ c.world.1.connOf id = some conn := by
  have hb : Books cfg remoteHost c.world.1 := ((tracedBookkeeping cfg remoteHost).sound h).1
  have hconn : ∀ conn, c.world.1.connOf id = some conn ↔
      ∃ tid, owns tid id conn c.world.2 = true := by
    intro conn
    rw [hb.owned, Stage.owner_eq_some]
    exact exists_congr fun tid => (owns_iff_stage h tid id conn).symm
  refine ⟨fun tid conn tid' conn' howns howns' => ?_, fun tid conn howns => ?_, hconn,
    fun tid conn k hact => ?_⟩
  · have heq := ((hconn conn).mpr ⟨tid, howns⟩).symm.trans ((hconn conn').mpr ⟨tid', howns'⟩)
    obtain rfl := Option.some.inj heq
    have hheld := (owns_iff_stage h tid id conn).mp howns
    rw [(owns_iff_stage h tid' id conn).mp howns'] at hheld
    exact ⟨(Stage.held.inj hheld).1.symm, rfl⟩
  · obtain ⟨v, hv, hrespects⟩ := ((tracedBookkeeping cfg remoteHost).sound h).2 tid
    have hcharge := (hv.charge conn _).mpr ((owns_iff_stage h tid id conn).mp howns)
    cases hthread : c.threads tid with
    | ret x =>
        -- A goroutine that has ended is in charge of nothing.
        rw [hthread] at hrespects
        cases hcharge.symm.trans hrespects
    | act a k => exact ⟨a, k, rfl⟩
  · obtain ⟨v, hv, hmay⟩ := (tracedBookkeeping cfg remoteHost).may h hact
    have howns := (owns_iff_stage h tid id conn).mpr ((hv.charge conn _).mp hmay)
    exact ⟨howns, (hconn conn).mpr ⟨tid, howns⟩⟩

end runs

/-- Two connections register the same controller. The second is accepted and let go again. -/
theorem second_registration_turned_away :
    ∃ c, Reachable (serverRules Env.unset.config fun _ => "10.0.0.1").traced ({}, []) c ∧
      c.world.1.accepted = 2 ∧ c.world.1.conns = [0] ∧
      owns 1 "123456789012345" 0 c.world.2 = true ∧
      c.world.1.connOf "123456789012345" = some 0 ∧
      ∀ tid conn, owns tid "123456789012345" conn c.world.2 = true → 1 = tid ∧ 0 = conn := by
  have hrun : ∃ c, Reachable (serverRules Env.unset.config fun _ => "10.0.0.1").traced ({}, []) c ∧
      c.world.1.accepted = 2 ∧ c.world.1.conns = [0] ∧
      owns 1 "123456789012345" 0 c.world.2 = true :=
    ⟨_, Reachable.initial.run ((arrive 1 0 40 ++ arrive 2 1 40).map Label.traced),
      by decide +kernel⟩
  obtain ⟨c, hc, haccepted, hconns, howns⟩ := hrun
  have hexclusive := session_owned_exclusively hc "123456789012345"
  exact ⟨c, hc, haccepted, hconns, howns, (hexclusive.2.2.1 0).mpr ⟨1, howns⟩,
    fun tid conn => hexclusive.1 1 0 tid conn howns⟩

end TcpAdapter.Server
