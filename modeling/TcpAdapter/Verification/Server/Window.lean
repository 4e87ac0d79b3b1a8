import TcpAdapter.Verification.Server.Accounting

/-! # The registration window

The deadline of the registration is tested before a read, and the read itself may take as long as
`ReadTimeout` allows. A controller registers in time if the window still has room for that when
the handler sets the deadline of its first read. -/

namespace TcpAdapter.Server

open TcpAdapter.Concurrent TcpAdapter.Queue TcpAdapter.Protocol TcpAdapter.Manager

/-- The end of the registration window of the connection. -/
def World.windowEnd (w : World) (cfg : Config) (conn : ConnID) : Time :=
  w.acceptedAt conn + cfg.registrationWindow

/-! ## What an action does to a connection -/

/-- The connection whose reader or deadline the action is about. -/
def Act.reader : Act → Option ConnID
  | .begin conn | .setReadDeadline conn _ | .readFrame conn _ => some conn
  | _ => none

/-- The action does not change what can be read from the connection. -/
structure Untouched (w w' : World) (conn : ConnID) : Prop where
  clock : w.clock ≤ w'.clock
  lastRead : w'.lastRead conn = w.lastRead conn
  unread : w'.unread conn = w.unread conn
  deadline : w'.deadline conn = w.deadline conn
  acceptedAt : w'.acceptedAt conn = w.acceptedAt conn

section exec

variable {cfg : Config} {remoteHost : ConnID → String} {tid : ℕ} {w w' : World} {inp : Input}
  {conn : ConnID}

theorem Untouched.refl (w : World) (conn : ConnID) : Untouched w w conn :=
  ⟨Int.le_refl _, rfl, rfl, rfl, rfl⟩

theorem execDeliver_untouched {id : String} {a : Delivery.Act} {r : a.Res}
    (h : execDeliver cfg tid w id a inp = some (w', r)) : Untouched w w' conn := by
  obtain ⟨d, inp', -, rfl⟩ := execDeliver_eq h
  exact ⟨Int.le_refl _, rfl, rfl, rfl, rfl⟩

theorem execNow_untouched {a : Act} {r : a.Res}
    (hreader : a.reader ≠ some conn) (haccept : a = .accept → conn ≠ w.accepted)
    (h : execNow cfg remoteHost tid w a inp = some (w', r)) : Untouched w w' conn := by
  cases a with
  | now | activeLoad =>
      cases h
      exact .refl w conn
  | activeAdd | spawn | untrackConn =>
      cases h
      exact ⟨Int.le_refl _, rfl, rfl, rfl, rfl⟩
  | accept =>
      cases h
      exact ⟨Int.le_refl _, rfl, rfl, rfl, Function.update_of_ne (haccept rfl) _ _⟩
  | isIPBlocked host now =>
      obtain ⟨sec, hsec⟩ := isIPBlocked_fst cfg w host now
      obtain rfl := congrArg Prod.fst (Option.some.inj h)
      rw [hsec]
      exact ⟨Int.le_refl _, rfl, rfl, rfl, rfl⟩
  | registerIPViolation host now =>
      obtain ⟨sec, hsec⟩ := registerIPViolation_eq cfg w host now
      cases h
      rw [hsec]
      exact ⟨Int.le_refl _, rfl, rfl, rfl, rfl⟩
  | tryTrackConn conn' =>
      simp only [execNow] at h
      split at h
      · rename_i w₁ htrack
        obtain ⟨-, rfl⟩ := tryTrackConn_true htrack
        cases h
        exact ⟨Int.le_refl _, rfl, rfl, rfl, rfl⟩
      · rename_i w₁ htrack
        obtain rfl := tryTrackConn_false htrack
        cases h
        exact .refl _ conn
  | close conn' =>
      cases h
      split
      · exact ⟨Int.le_refl _, rfl, rfl, rfl, rfl⟩
      · exact .refl w conn
  | begin conn' =>
      simp only [execNow] at h
      split at h
      · cases h
        have hne : conn ≠ conn' := fun heq => hreader (congrArg some heq.symm)
        exact ⟨Int.le_refl _, Function.update_of_ne hne _ _, Function.update_of_ne hne _ _, rfl, rfl⟩
      · cases h
  | setReadDeadline conn' t =>
      cases h
      have hne : conn ≠ conn' := fun heq => hreader (congrArg some heq.symm)
      exact ⟨Int.le_refl _, rfl, rfl, Function.update_of_ne hne _ _, rfl⟩
  | readFrame conn' mode =>
      have hne : conn ≠ conn' := fun heq => hreader (congrArg some heq.symm)
      simp only [execNow, execRead] at h
      split at h
      · cases h
      · split at h
        · cases h
          exact ⟨Int.le_refl _, rfl, Function.update_of_ne hne _ _, rfl, rfl⟩
        · cases h
          exact ⟨Int.le_refl _, Function.update_of_ne hne _ _, Function.update_of_ne hne _ _, rfl, rfl⟩
  | create id conn' =>
      obtain ⟨⟨w₁, r₁⟩, hexec, heq⟩ := Option.map_eq_some_iff.mp h
      have hsame : Untouched w w₁ conn := execDeliver_untouched hexec
      dsimp only at heq
      split at heq
      · cases heq
        exact ⟨hsame.clock, hsame.lastRead, hsame.unread, hsame.deadline, hsame.acceptedAt⟩
      · cases heq
        exact hsame
  | markOffline id conn' =>
      obtain ⟨⟨w₁, r₁⟩, hexec, heq⟩ := Option.map_eq_some_iff.mp h
      cases heq
      have hsame : Untouched w w₁ conn := execDeliver_untouched hexec
      exact ⟨hsame.clock, hsame.lastRead, hsame.unread, hsame.deadline, hsame.acceptedAt⟩
  | deliver id a => exact execDeliver_untouched h
  | spin => cases h

theorem exec_untouched {a : Act} {r : a.Res}
    (hreader : a.reader ≠ some conn) (haccept : a = .accept → conn ≠ w.accepted)
    (h : exec cfg remoteHost tid w a inp = some (w', r)) : Untouched w w' conn := by
  unfold exec at h
  split at h
  · rename_i hclock
    have hsame : Untouched { w with clock := inp.time } w' conn :=
      execNow_untouched hreader haccept h
    exact ⟨Int.le_trans hclock hsame.clock, hsame.lastRead, hsame.unread, hsame.deadline,
      hsame.acceptedAt⟩
  · cases h

theorem exec_now {t : Time} (h : exec cfg remoteHost tid w .now inp = some (w', t)) :
    t = w'.clock := by
  unfold exec at h
  split at h
  · cases h
    rfl
  · cases h

theorem exec_begin {r : Unit} (h : exec cfg remoteHost tid w (.begin conn) inp = some (w', r)) :
    w.stage conn = .spawned ∧ w'.lastRead conn = none ∧ w'.unread conn = [] := by
  unfold exec at h
  split at h
  · simp only [execNow] at h
    split at h
    · rename_i hspawned
      cases h
      exact ⟨hspawned, Function.update_self .., Function.update_self ..⟩
    · cases h
  · cases h

theorem exec_setReadDeadline {t : Time} {r : Unit}
    (h : exec cfg remoteHost tid w (.setReadDeadline conn t) inp = some (w', r)) :
    w.clock ≤ w'.clock ∧ w' = { w with
      clock := w'.clock
      deadline := Function.update w.deadline conn t } := by
  unfold exec at h
  split at h
  · cases h
    exact ⟨‹_›, rfl⟩
  · cases h

/-- A frame that comes from an empty buffer has arrived before the deadline. -/
theorem exec_readFrame {mode : FrameMode} {res : Except ReadError Frame}
    (h : exec cfg remoteHost tid w (.readFrame conn mode) inp = some (w', res)) :
    w.clock ≤ w'.clock ∧ w'.acceptedAt = w.acceptedAt ∧
      match res with
      | .error _ => w'.lastRead = w.lastRead
      | .ok frame => w'.lastRead conn = some (w'.clock, frame) ∧
          (w.unread conn = [] → w'.clock ≤ w.deadline conn) := by
  unfold exec at h
  split at h
  · rename_i hclock
    simp only [execNow, execRead] at h
    split at h
    · cases h
    · rename_i hintime
      split at h
      · cases h
        exact ⟨hclock, rfl, rfl⟩
      · rename_i frame rest hread
        cases h
        refine ⟨hclock, rfl, Function.update_self .., fun hempty => ?_⟩
        refine Int.not_lt.mp fun hlate => hintime ⟨fun hnone => ?_, hlate⟩
        rw [hempty, hnone] at hread
        simp [readFrameWithMode, readFull] at hread
  · cases h

end exec

/-! ## What a handler knows about its reads -/

section timely

variable (cfg : Config)

/-- The first read of a handler ends with the window, and so did the read of the frame that it
has not registered with yet. -/
structure Timely (w : World) (v : Duty) (conn : ConnID) (owned : Option String) : Prop where
  seen : ∀ t, v.seen = some t → t ≤ w.clock
  fresh : v.fresh = true → w.lastRead conn = none ∧ w.unread conn = []
  armed : v.fresh = true → v.armed = true → w.deadline conn ≤ w.windowEnd cfg conn
  frame : owned = none → ∀ frame, v.frame = some frame →
    ∃ t, w.lastRead conn = some (t, frame) ∧ t ≤ w.windowEnd cfg conn

variable {cfg} {w w' : World} {v v' : Duty} {conn : ConnID} {owned owned' : Option String}

/-- Nothing has happened to the connection. The handler may have attached itself to a session, or
have detached itself and dropped its frame. -/
theorem Timely.keep (h : Timely cfg w v conn owned) (hu : Untouched w w' conn)
    (hseen : v'.seen = v.seen) (hfresh : v'.fresh = v.fresh) (harmed : v'.armed = v.armed)
    (hframe : owned' = none → ∀ frame, v'.frame = some frame →
      owned = none ∧ v.frame = some frame) :
    Timely cfg w' v' conn owned' where
  seen t ht := Int.le_trans (h.seen t (hseen ▸ ht)) hu.clock
  fresh hf := by
    rw [hu.lastRead, hu.unread]
    exact h.fresh (hfresh ▸ hf)
  armed hf ha := by
    rw [hu.deadline, World.windowEnd, hu.acceptedAt]
    exact h.armed (hfresh ▸ hf) (harmed ▸ ha)
  frame ho frame hf := by
    obtain ⟨ho, hf⟩ := hframe ho frame hf
    rw [hu.lastRead, World.windowEnd, hu.acceptedAt]
    exact h.frame ho frame hf

variable (cfg) in
/-- A handler that has not registered its controller is in time. -/
def InWindow (w : World) (v : Duty) : Prop :=
  ∀ conn owned, v.charge = some (conn, .handled owned) → Timely cfg w v conn owned

theorem InWindow.of_charge (hcharge : v.charge = some (conn, .handled owned))
    (h : Timely cfg w v conn owned) : InWindow cfg w v := by
  intro c owned' hcharge'
  have heq := hcharge.symm.trans hcharge'
  simp only [Option.some.injEq, Prod.mk.injEq, Role.handled.injEq] at heq
  obtain ⟨rfl, rfl⟩ := heq
  exact h

variable (cfg) (w) in
/-- When a handler sets the deadline of its first read, the rest of the registration window is no
shorter than the longest read. -/
def ReadsInWindow : Act → Prop
  | .setReadDeadline conn _ =>
      w.lastRead conn = none → w.clock + cfg.longestRead ≤ w.windowEnd cfg conn
  | _ => True

instance (a : Act) : Decidable (ReadsInWindow cfg w a) :=
  match a with
  | .setReadDeadline conn _ => inferInstanceAs (Decidable (w.lastRead conn = none →
      w.clock + cfg.longestRead ≤ w.windowEnd cfg conn))
  | .now | .accept | .activeLoad | .activeAdd .. | .isIPBlocked .. | .registerIPViolation ..
  | .tryTrackConn _ | .untrackConn _ | .spawn _ | .begin _ | .close _ | .readFrame ..
  | .create .. | .markOffline .. | .deliver .. | .spin => isTrue trivial

variable (cfg) (remoteHost : ConnID → String) in
abbrev windowRules : Rules (machine cfg remoteHost) where
  start := (serverRules cfg remoteHost).start
  act w _ a _ := ReadsInWindow cfg w a

variable {remoteHost : ConnID → String} {tid : ℕ} {inp : Input}

theorem InWindow.setReadDeadline {t : Time} {r : Unit} (hold : InWindow cfg w v)
    (hrule : w.lastRead conn = none → w.clock + cfg.longestRead ≤ w.windowEnd cfg conn)
    (hmay : v.May cfg (.setReadDeadline conn t))
    (h : exec cfg remoteHost tid w (.setReadDeadline conn t) inp = some (w', r)) :
    InWindow cfg w' { v with armed := true } := by
  obtain ⟨⟨owned, hcharge⟩, now, hseen, ht⟩ := hmay
  have htimely := hold conn owned hcharge
  obtain ⟨hclock, heq⟩ := exec_setReadDeadline h
  refine .of_charge hcharge ?_
  rw [heq]
  refine ⟨fun t ht => Int.le_trans (htimely.seen t ht) hclock, htimely.fresh, fun hfresh _ => ?_,
    htimely.frame⟩
  have hroom := hrule (htimely.fresh hfresh).1
  have hnow := htimely.seen now hseen
  change Function.update w.deadline conn t conn ≤ w.windowEnd cfg conn
  rw [Function.update_self]
  calc t ≤ now + cfg.longestRead := ht
    _ ≤ w.clock + cfg.longestRead := Int.add_le_add_right hnow _
    _ ≤ w.windowEnd cfg conn := hroom

theorem InWindow.readFrame {mode : FrameMode} {res : Except ReadError Frame}
    (hold : InWindow cfg w v) (hmay : v.May cfg (.readFrame conn mode))
    (h : exec cfg remoteHost tid w (.readFrame conn mode) inp = some (w', res)) :
    InWindow cfg w' (v.after cfg (.readFrame conn mode) res) := by
  obtain ⟨harmed, owned, hcharge, hfirst⟩ := hmay
  have htimely := hold conn owned hcharge
  obtain ⟨hclock, haccepted, hres⟩ := exec_readFrame h
  cases res with
  | error err =>
      refine .of_charge hcharge ⟨fun t ht => Int.le_trans (htimely.seen t ht) hclock, nofun, nofun, ?_⟩
      rw [World.windowEnd, haccepted, hres]
      exact htimely.frame
  | ok frame =>
      refine .of_charge hcharge ⟨fun t ht => Int.le_trans (htimely.seen t ht) hclock, nofun, nofun, ?_⟩
      rintro ho frame ⟨⟩
      have hfresh := hfirst ho
      refine ⟨_, hres.1, Int.le_trans (hres.2 (htimely.fresh hfresh).2) ?_⟩
      rw [World.windowEnd, haccepted]
      exact htimely.armed hfresh harmed

/-- The handler's own actions. -/
theorem InWindow.own {a : Act} {r : a.Res} (hold : InWindow cfg w v)
    (hrule : (windowRules cfg remoteHost).act w tid a inp) (hmay : v.May cfg a)
    (h : exec cfg remoteHost tid w a inp = some (w', r)) :
    InWindow cfg w' (v.after cfg a r) := by
  have hu : a.reader = none → a ≠ .accept → ∀ conn, Untouched w w' conn :=
    fun hreader haccept conn =>
      exec_untouched (by simp [hreader]) (fun heq => absurd heq haccept) h
  have hkeep : a.reader = none → a ≠ .accept → InWindow cfg w' v :=
    fun hreader haccept conn owned hcharge =>
      (hold conn owned hcharge).keep (hu hreader haccept conn) rfl rfl rfl
        fun ho _ hf => ⟨ho, hf⟩
  cases a with
  | now =>
      intro conn owned hcharge
      have htimely := hkeep rfl (by simp) conn owned hcharge
      refine ⟨?_, htimely.fresh, htimely.armed, htimely.frame⟩
      rintro t ⟨⟩
      exact Int.le_of_eq (exec_now h)
  | setReadDeadline conn t => exact hold.setReadDeadline hrule hmay h
  | readFrame conn mode => exact hold.readFrame hmay h
  | begin conn =>
      obtain ⟨-, hlast, hunread⟩ := exec_begin h
      refine .of_charge rfl ⟨?_, fun _ => ⟨hlast, hunread⟩, ?_, ?_⟩
      · rintro t ⟨⟩
      · rintro - ⟨⟩
      · rintro - frame ⟨⟩
  | create id conn =>
      cases r with
      | none =>
          refine .of_charge rfl ?_
          refine (hold conn none hmay.1).keep (hu rfl (by simp) conn) rfl rfl rfl ?_
          rintro ⟨⟩
      | some err => exact hkeep rfl (by simp)
  | markOffline id conn =>
      refine .of_charge rfl ?_
      refine (hold conn (some id) hmay).keep (hu rfl (by simp) conn) rfl rfl rfl ?_
      rintro - frame ⟨⟩
  | activeLoad =>
      intro conn owned hcharge
      have htimely := hkeep rfl (by simp) conn owned hcharge
      exact ⟨htimely.seen, htimely.fresh, htimely.armed, htimely.frame⟩
  | accept | spawn | untrackConn => rintro conn owned ⟨⟩
  | activeAdd conn delta =>
      intro c owned hcharge
      simp only [Duty.after] at hcharge
      split at hcharge <;> cases hcharge
  | tryTrackConn conn =>
      cases r with
      | true => rintro conn owned ⟨⟩
      | false => exact hkeep rfl (by simp)
  | close conn =>
      simp only [Duty.after]
      split
      · rintro conn owned ⟨⟩
      · exact hkeep rfl (by simp)
  | _ => exact hkeep rfl (by simp)

/-- The actions of the others. -/
theorem InWindow.other {other : ℕ} {u : Duty} {a : Act} {r : a.Res} (hold : InWindow cfg w u)
    (hb : Books cfg remoteHost w) (hk : Knows cfg tid w v) (hu : Knows cfg other w u)
    (hne : other ≠ tid) (hmay : v.May cfg a)
    (h : exec cfg remoteHost tid w a inp = some (w', r)) : InWindow cfg w' u := by
  intro conn owned hcharge
  have hstage := (hu.charge conn _).mp hcharge
  -- Whoever reads from a connection is in charge of it.
  have hmine : ∀ role, v.charge ≠ some (conn, role) := by
    intro role hrole
    rw [(hk.charge conn role).mp hrole] at hstage
    exact hne (Stage.held.inj hstage).1.symm
  have hreader : a.reader ≠ some conn := by
    intro heq
    cases a with
    | begin conn' =>
        obtain rfl := Option.some.inj heq
        rw [(exec_begin h).1] at hstage
        cases hstage
    | setReadDeadline conn' t =>
        obtain rfl := Option.some.inj heq
        obtain ⟨⟨owned', hown⟩, -⟩ := hmay
        exact hmine _ hown
    | readFrame conn' mode =>
        obtain rfl := Option.some.inj heq
        obtain ⟨-, owned', hown, -⟩ := hmay
        exact hmine _ hown
    | _ => cases heq
  have haccept : a = .accept → conn ≠ w.accepted := by
    rintro - rfl
    rw [hb.born _ (Nat.le_refl _)] at hstage
    cases hstage
  exact (hold conn owned hcharge).keep (exec_untouched hreader haccept h) rfl rfl rfl
    fun ho _ hf => ⟨ho, hf⟩

end timely

/-! ## Whole runs -/

section runs

variable (cfg : Config) (remoteHost : ConnID → String)

def timekeeping : Discipline (machine cfg remoteHost) (windowRules cfg remoteHost) {} Duty :=
  ((bookkeeping cfg remoteHost).restrict (windowRules cfg remoteHost) (fun _ _ _ h => h)
    (fun _ _ _ _ _ => trivial) fun _ _ => trivial).strengthen
    (fun _ => True) (fun _ w v => InWindow cfg w v) trivial
    (fun _ _ v hidle conn owned hcharge => by
      rw [show v.charge = none from hidle] at hcharge
      cases hcharge)
    (fun m _ hold hnext _ => by
      subst hnext
      exact ⟨trivial, hold.own m.rule m.may m.exec⟩)
    (fun m _ hne hu hold => hold.other m.inv m.knows hu hne m.may m.exec)
    fun _ _ => trivial

variable {cfg remoteHost}

/-- A handler calls `Create` only with a registration that has been read within the window. -/
theorem registered_within_window {c : Concurrent.Config (machine cfg remoteHost)}
    (h : Reachable (windowRules cfg remoteHost) {} c) {tid : ℕ} {id : String} {conn : ConnID}
    {k : Option Error → Serve Unit} (hcreate : c.threads tid = .act (.create id conn) k) :
    ∃ t frame, c.world.lastRead conn = some (t, frame) ∧ Registers frame id ∧
      t ≤ c.world.acceptedAt conn + cfg.registrationWindow := by
  obtain ⟨v, ⟨-, hwindow⟩, hmay⟩ := (timekeeping cfg remoteHost).may h hcreate
  obtain ⟨hcharge, frame, hframe, hregisters⟩ := hmay
  obtain ⟨t, hlast, hle⟩ := (hwindow conn none hcharge).frame rfl frame hframe
  exact ⟨t, frame, hlast, hregisters, hle⟩

end runs

/-- The call of `Create` that a goroutine is about to make. -/
def creating : Serve Unit → Option (String × ConnID)
  | .act (.create id conn) _ => some (id, conn)
  | _ => none

theorem act_of_creating {p : Serve Unit} {id : String} {conn : ConnID}
    (h : creating p = some (id, conn)) : ∃ k, p = .act (.create id conn) k := by
  unfold creating at h
  split at h
  · cases h
    exact ⟨_, rfl⟩
  · cases h

/-- The handler of the first connection waits in its first read until the registration frame is
there at the time `t`. -/
def registerAt {cfg : Config} {remoteHost : ConnID → String} (t : Time) :
    List (Label (machine cfg remoteHost)) :=
  call 0 .accept 8 ++ call 1 (.handle 0 1) 6 ++ go 1 1 { time := t, bytes := registrationBytes }

/-- With the defaults, a registration frame that comes 20 s after the connection registers its
controller. -/
theorem registered_after_window :
    ∃ c, load .unset = .ok Env.unset.config ∧
      Reachable (serverRules Env.unset.config fun _ => "10.0.0.1") {} c ∧
      (∃ k, c.threads 1 = .act (.create "123456789012345" 0) k) ∧
      c.world.acceptedAt 0 = 0 ∧ (c.world.lastRead 0).map Prod.fst = some (20 * second) ∧
      Env.unset.config.registrationWindow = 5 * second := by
  have hrun : ∃ c, Reachable (serverRules Env.unset.config fun _ => "10.0.0.1") {} c ∧
      creating (c.threads 1) = some ("123456789012345", 0) ∧
      c.world.acceptedAt 0 = 0 ∧ (c.world.lastRead 0).map Prod.fst = some (20 * second) :=
    ⟨_, Reachable.initial.run (registerAt (20 * second)), by decide +kernel⟩
  obtain ⟨c, hc, hcreate, haccepted, hread⟩ := hrun
  exact ⟨c, load_unset, hc, act_of_creating hcreate, haccepted, hread, rfl⟩

/-- `TCPADAPTER_READ_TIMEOUT` is set to 2 s. -/
def shortReads : Env where
  getenv key := if key = "TCPADAPTER_READ_TIMEOUT" then "2s" else ""
  atoi _ := none
  parseDuration s := if s = "2s" then some (2 * second) else none
  parseBool _ := none

theorem registered_in_short_read :
    ∃ c k t frame, load shortReads = .ok shortReads.config ∧
      Reachable (windowRules shortReads.config fun _ => "10.0.0.1") {} c ∧
      c.threads 1 = .act (.create "123456789012345" 0) k ∧
      c.world.lastRead 0 = some (t, frame) ∧ Registers frame "123456789012345" ∧
      t ≤ c.world.acceptedAt 0 + shortReads.config.registrationWindow := by
  have hrun : ∃ c, Reachable (windowRules shortReads.config fun _ => "10.0.0.1") {} c ∧
      creating (c.threads 1) = some ("123456789012345", 0) :=
    ⟨_, Reachable.initial.run (registerAt (1 * second)), by decide +kernel⟩
  obtain ⟨c, hc, hcreate⟩ := hrun
  obtain ⟨k, hk⟩ := act_of_creating hcreate
  obtain ⟨t, frame, hread, hregisters, hle⟩ := registered_within_window hc hk
  exact ⟨c, k, t, frame, rfl, hc, hk, hread, hregisters, hle⟩

end TcpAdapter.Server
