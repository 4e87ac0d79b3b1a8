import TcpAdapter.Model.Server.Actions

/-! # Blocked hosts

The server counts the protocol violations of a host and blocks it when too many of them fall into
one window. It prunes and clears the list of their times as it goes. The specification counts in
the whole history of calls instead. -/

namespace TcpAdapter.Server

open TcpAdapter.Queue

/-- A call about a host. -/
inductive HostCall where
  | registerIPViolation (host : String) (now : Time)
  | isIPBlocked (host : String) (now : Time)
  deriving DecidableEq

def HostCall.host : HostCall → String
  | registerIPViolation host _ | isIPBlocked host _ => host

def HostCall.now : HostCall → Time
  | registerIPViolation _ now | isIPBlocked _ now => now

def HostCall.run (cfg : Config) (w : World) : HostCall → World
  | registerIPViolation host now => Server.registerIPViolation cfg w host now
  | isIPBlocked host now => (Server.isIPBlocked cfg w host now).1

/-- The world after a history; as in all histories here, the newest call is the first. -/
def worldAfter (cfg : Config) : List HostCall → World
  | [] => {}
  | call :: past => call.run cfg (worldAfter cfg past)

/-! ## The specification -/

section specification

variable (cfg : Config) (host : String)

/-- The call is a violation by the host in the window that ends at `now`. -/
def violationIn (now : Time) : HostCall → Bool
  | .registerIPViolation h t => h = host ∧ now - cfg.ipViolationWindow < t ∧ t ≤ now
  | .isIPBlocked _ _ => false

/-- The last call of a history that cleared the violations of the host, and the calls since. -/
structure Since where
  cleared : Option HostCall := none
  calls : List HostCall := []

/-- The violation at `now` is the one that reaches the limit. -/
def Since.reaches (since : Since) (now : Time) : Prop :=
  cfg.ipViolationLimit ≤
    ((.registerIPViolation host now :: since.calls).countP (violationIn cfg host now) : ℕ)

instance (since : Since) (now : Time) : Decidable (since.reaches cfg host now) :=
  inferInstanceAs (Decidable (_ ≤ _))

/-- The end of the block that was applied last, unless a call has seen that it is over. -/
def Since.blockEnd (since : Since) : Option Time :=
  match since.cleared with
  | some (.registerIPViolation _ t0) => some (t0 + cfg.ipBlockDuration)
  | _ => none

/-- The call clears the violations of the host: it applies a block, or sees that one is over. -/
def Since.clears (since : Since) : HostCall → Bool
  | .registerIPViolation h now => h = host ∧ since.reaches cfg host now
  | .isIPBlocked h now => h = host ∧ (since.blockEnd cfg).any (· ≤ now)

def sinceCleared : List HostCall → Since
  | [] => {}
  | call :: past =>
      let since := sinceCleared past
      if since.clears cfg host call then ⟨some call, []⟩ else ⟨since.cleared, call :: since.calls⟩

/-- The history has a violation at `t0` that applied a block. -/
def BlockApplied (past : List HostCall) (t0 : Time) : Prop :=
  ∃ later earlier, past = later ++ .registerIPViolation host t0 :: earlier ∧
    (sinceCleared cfg host earlier).reaches cfg host t0

end specification

section

variable {cfg : Config} {host : String} {past : List HostCall} {call : HostCall} {now t0 : Time}

theorem blockApplied_cons :
    BlockApplied cfg host (call :: past) t0 ↔
      (call = .registerIPViolation host t0 ∧ (sinceCleared cfg host past).reaches cfg host t0) ∨
        BlockApplied cfg host past t0 := by
  constructor
  · rintro ⟨later, earlier, heq, h⟩
    cases later with
    | nil =>
        obtain ⟨rfl, rfl⟩ := List.cons.inj heq
        exact .inl ⟨rfl, h⟩
    | cons c later =>
        obtain ⟨rfl, rfl⟩ := List.cons.inj heq
        exact .inr ⟨later, earlier, rfl, h⟩
  · rintro (⟨rfl, h⟩ | ⟨later, earlier, rfl, h⟩)
    · exact ⟨[], past, rfl, h⟩
    · exact ⟨call :: later, earlier, rfl, h⟩

theorem sinceCleared_cons :
    sinceCleared cfg host (call :: past) =
      if (sinceCleared cfg host past).clears cfg host call then ⟨some call, []⟩
      else ⟨(sinceCleared cfg host past).cleared, call :: (sinceCleared cfg host past).calls⟩ :=
  rfl

/-- The block that the specification knows of was applied. -/
theorem applied_of_cleared {h : String}
    (hcleared : (sinceCleared cfg host past).cleared = some (.registerIPViolation h t0)) :
    BlockApplied cfg host past t0 := by
  induction past with
  | nil => cases hcleared
  | cons call past ih =>
      rw [sinceCleared_cons] at hcleared
      split at hcleared
      next hclears =>
          obtain rfl := Option.some.inj hcleared
          obtain ⟨rfl, hreaches⟩ := of_decide_eq_true hclears
          exact blockApplied_cons.mpr (.inl ⟨rfl, hreaches⟩)
      next => exact blockApplied_cons.mpr (.inr (ih hcleared))

/-- Every block that was applied is over or no later than the one that the specification knows
of. -/
theorem covered_of_applied (htimes : past.Pairwise fun c c' => c'.now ≤ c.now)
    (happlied : BlockApplied cfg host past t0) :
    (∃ t1, (sinceCleared cfg host past).cleared = some (.registerIPViolation host t1) ∧ t0 ≤ t1) ∨
      ∃ c ∈ past, t0 + cfg.ipBlockDuration ≤ c.now := by
  induction past generalizing t0 with
  | nil =>
      obtain ⟨later, earlier, heq, -⟩ := happlied
      exact absurd heq (by simp)
  | cons call past ih =>
      obtain ⟨hle, htimes⟩ := List.pairwise_cons.mp htimes
      rw [sinceCleared_cons]
      obtain ⟨rfl, hreaches⟩ | hpast := blockApplied_cons.mp happlied
      · have hclears : (sinceCleared cfg host past).clears cfg host
            (.registerIPViolation host t0) = true :=
          decide_eq_true ⟨rfl, hreaches⟩
        rw [if_pos hclears]
        exact .inl ⟨t0, rfl, Int.le_refl _⟩
      · obtain ⟨t1, hcleared, ht1⟩ | ⟨c, hc, hover⟩ := ih htimes hpast
        · split
          next hclears =>
              cases call with
              | registerIPViolation h now =>
                  obtain ⟨rfl, -⟩ := of_decide_eq_true hclears
                  obtain ⟨later, earlier, rfl, -⟩ := hpast
                  exact .inl ⟨now, rfl, hle (.registerIPViolation h t0) (by simp)⟩
              | isIPBlocked h now =>
                  obtain ⟨rfl, hover⟩ := of_decide_eq_true hclears
                  have hover : t1 + cfg.ipBlockDuration ≤ now := by
                    simpa [Since.blockEnd, hcleared] using hover
                  have hle := Int.add_le_add_right ht1 cfg.ipBlockDuration
                  exact .inr ⟨_, List.mem_cons_self, Int.le_trans hle hover⟩
          next => exact .inl ⟨t1, hcleared, ht1⟩
        · exact .inr ⟨c, List.mem_cons_of_mem _ hc, hover⟩

theorem blockEnd_iff_applied (htimes : past.Pairwise fun c c' => c'.now ≤ c.now)
    (hnow : ∀ c ∈ past, c.now ≤ now) :
    ((sinceCleared cfg host past).blockEnd cfg).any (now < ·) = true ↔
      ∃ t0, BlockApplied cfg host past t0 ∧ now < t0 + cfg.ipBlockDuration := by
  constructor
  · intro hlt
    unfold Since.blockEnd at hlt
    split at hlt
    next h t0 hcleared => exact ⟨t0, applied_of_cleared hcleared, of_decide_eq_true hlt⟩
    next => cases hlt
  · rintro ⟨t0, happlied, hlt⟩
    obtain ⟨t1, hcleared, hle⟩ | ⟨c, hc, hover⟩ := covered_of_applied htimes happlied
    · have hlt : now < t1 + cfg.ipBlockDuration :=
        Int.lt_of_lt_of_le hlt (Int.add_le_add_right hle _)
      simpa [Since.blockEnd, hcleared] using hlt
    · exact absurd (Int.le_trans hover (hnow c hc)) (Int.not_le.mpr hlt)

/-! ## The state of a host -/

def World.security (w : World) (host : String) : IPSecurityState :=
  (w.ipSec host).getD {}

/-- The violations that are kept when one more is registered. -/
def IPSecurityState.kept (cfg : Config) (st : IPSecurityState) (now : Time) : List Time :=
  st.violations.filter (fun ts => now - cfg.ipViolationWindow < ts) ++ [now]

variable {w w' : World}

theorem security_update_self {st : IPSecurityState} :
    { w with ipSec := Function.update w.ipSec host (some st) : World }.security host = st := by
  simp [World.security]

theorem security_update_of_ne {h : String} {st : IPSecurityState} (hne : host ≠ h) :
    { w with ipSec := Function.update w.ipSec h (some st) : World }.security host =
      w.security host := by
  simp [World.security, hne]

theorem security_registerIPViolation (hlimit : 0 < cfg.ipViolationLimit) (hhost : host ≠ "") :
    (registerIPViolation cfg w host now).security host =
      if cfg.ipViolationLimit ≤ ((w.security host).kept cfg now).length then
        ⟨[], some (now + cfg.ipBlockDuration)⟩
      else { w.security host with violations := (w.security host).kept cfg now } := by
  have hoff : ¬(cfg.ipViolationLimit ≤ 0 ∨ host = "") := by
    rintro (hle | heq)
    · omega
    · exact hhost heq
  rw [registerIPViolation, if_neg hoff]
  exact security_update_self

theorem security_registerIPViolation_of_ne {h : String} (hne : host ≠ h) :
    (registerIPViolation cfg w h now).security host = w.security host := by
  unfold registerIPViolation
  split
  · rfl
  · exact security_update_of_ne hne

theorem isIPBlocked_snd (hlimit : 0 < cfg.ipViolationLimit) :
    (isIPBlocked cfg w host now).2 = (w.security host).blockedTil.any (now < ·) := by
  rw [isIPBlocked, if_neg (by omega), World.security]
  cases w.ipSec host with
  | none => rfl
  | some st =>
      obtain ⟨violations, _ | til⟩ := st
      · rfl
      · by_cases hlt : now < til <;> simp [hlt]

theorem security_isIPBlocked (hlimit : 0 < cfg.ipViolationLimit) :
    (isIPBlocked cfg w host now).1.security host =
      if (w.security host).blockedTil.any (· ≤ now) then {} else w.security host := by
  rw [isIPBlocked, if_neg (by omega)]
  cases hsec : w.ipSec host with
  | none => simp [World.security, hsec]
  | some st =>
      obtain ⟨violations, _ | til⟩ := st
      · simp [World.security, hsec]
      · by_cases hlt : now < til
        · have hle : ¬til ≤ now := Int.not_le.mpr hlt
          simp [World.security, hsec, hlt, hle]
        · have hle : til ≤ now := Int.not_lt.mp hlt
          simp [World.security, hsec, hlt, hle]

theorem security_isIPBlocked_of_ne {h : String} (hne : host ≠ h) :
    (isIPBlocked cfg w h now).1.security host = w.security host := by
  unfold isIPBlocked
  split
  · rfl
  · split
    · rfl
    · split
      · rfl
      · split
        · rfl
        · exact security_update_of_ne hne

theorem run_of_ne (hne : host ≠ call.host) :
    (call.run cfg w).security host = w.security host := by
  cases call with
  | registerIPViolation h now => exact security_registerIPViolation_of_ne hne
  | isIPBlocked h now => exact security_isIPBlocked_of_ne hne

/-- A call sees nothing of the world but the state of its host. -/
theorem run_congr (hlimit : 0 < cfg.ipViolationLimit) (hhost : host ≠ "")
    (h : w.security host = w'.security host) :
    (call.run cfg w).security host = (call.run cfg w').security host := by
  by_cases heq : host = call.host
  · cases call with
    | registerIPViolation h' now =>
        obtain rfl : host = h' := heq
        rw [HostCall.run, HostCall.run, security_registerIPViolation hlimit hhost,
          security_registerIPViolation hlimit hhost, h]
    | isIPBlocked h' now =>
        obtain rfl : host = h' := heq
        rw [HostCall.run, HostCall.run, security_isIPBlocked hlimit, security_isIPBlocked hlimit, h]
  · rw [run_of_ne heq, run_of_ne heq, h]

theorem security_filter (hlimit : 0 < cfg.ipViolationLimit) (hhost : host ≠ "")
    (past : List HostCall) :
    (worldAfter cfg (past.filter (·.host = host))).security host =
      (worldAfter cfg past).security host := by
  induction past with
  | nil => rfl
  | cons call past ih =>
      by_cases heq : call.host = host
      · rw [List.filter_cons_of_pos (by simpa using heq)]
        exact run_congr hlimit hhost ih
      · rw [List.filter_cons_of_neg (by simpa using heq), ih]
        exact (run_of_ne (Ne.symm heq)).symm

/-- A list that reaches the limit is cleared. -/
theorem violations_length_lt (hlimit : 0 < cfg.ipViolationLimit) (past : List HostCall)
    (host : String) :
    (((worldAfter cfg past).security host).violations.length : Int) < cfg.ipViolationLimit := by
  induction past with
  | nil => exact hlimit
  | cons call past ih =>
      by_cases heq : host = call.host
      · cases call with
        | registerIPViolation h now =>
            obtain rfl : host = h := heq
            by_cases hhost : host = ""
            · have hoff : worldAfter cfg (.registerIPViolation host now :: past) =
                  worldAfter cfg past := if_pos (.inr hhost)
              rw [hoff]
              exact ih
            · rw [worldAfter, HostCall.run, security_registerIPViolation hlimit hhost]
              split
              next => exact hlimit
              next hlt => exact Int.not_le.mp hlt
        | isIPBlocked h now =>
            obtain rfl : host = h := heq
            rw [worldAfter, HostCall.run, security_isIPBlocked hlimit]
            split
            · exact hlimit
            · exact ih
      · rw [worldAfter, run_of_ne heq]
        exact ih

/-! ## The state follows the specification -/

/-- The list has pruned only what no later window counts. -/
structure Tracks (cfg : Config) (host : String) (past : List HostCall) (st : IPSecurityState) :
    Prop where
  count : ∀ now, (∀ c ∈ past, c.now ≤ now) →
    st.violations.countP (fun ts => now - cfg.ipViolationWindow < ts) =
      (sinceCleared cfg host past).calls.countP (violationIn cfg host now)
  til : st.blockedTil = (sinceCleared cfg host past).blockEnd cfg

variable {st : IPSecurityState}

theorem Tracks.skip (h : Tracks cfg host past st)
    (hclears : (sinceCleared cfg host past).clears cfg host call = false)
    (hviolation : ∀ now, violationIn cfg host now call = false) :
    Tracks cfg host (call :: past) st where
  count now hnow := by
    rw [sinceCleared_cons, hclears, h.count now fun c hc => hnow c (List.mem_cons_of_mem _ hc)]
    exact (List.countP_cons_of_neg (by simp [hviolation])).symm
  til := by
    rw [sinceCleared_cons, hclears]
    exact h.til

theorem Tracks.cleared (hclears : (sinceCleared cfg host past).clears cfg host call = true)
    (htil : st.blockedTil = (⟨some call, []⟩ : Since).blockEnd cfg) (hnil : st.violations = []) :
    Tracks cfg host (call :: past) st where
  count now _ := by
    rw [sinceCleared_cons, hclears, hnil]
    rfl
  til := by
    rw [sinceCleared_cons, hclears]
    exact htil

theorem Tracks.reaches_iff (h : Tracks cfg host past st) (hwindow : 0 < cfg.ipViolationWindow)
    (hnow : ∀ c ∈ past, c.now ≤ now) :
    (sinceCleared cfg host past).reaches cfg host now ↔
      cfg.ipViolationLimit ≤ (st.kept cfg now).length := by
  have hlt : now - cfg.ipViolationWindow < now := Int.sub_lt_self now hwindow
  have hself : violationIn cfg host now (.registerIPViolation host now) = true :=
    decide_eq_true ⟨rfl, hlt, Int.le_refl _⟩
  rw [Since.reaches, List.countP_cons_of_pos hself, ← h.count now hnow, IPSecurityState.kept,
    List.length_append, List.countP_eq_length_filter]
  rfl

theorem Tracks.keep (h : Tracks cfg host past st)
    (hreaches : ¬(sinceCleared cfg host past).reaches cfg host now) :
    Tracks cfg host (.registerIPViolation host now :: past)
      { st with violations := st.kept cfg now } := by
  have hclears : (sinceCleared cfg host past).clears cfg host (.registerIPViolation host now) =
      false := decide_eq_false fun hclears => hreaches hclears.2
  constructor
  · intro now' hnow'
    have hnow : now ≤ now' := hnow' _ List.mem_cons_self
    have hold : ∀ c ∈ past, c.now ≤ now' := fun c hc => hnow' c (List.mem_cons_of_mem _ hc)
    -- What is in the window at `now'` was in the window at `now`.
    have hkeep : (st.violations.filter fun ts => now - cfg.ipViolationWindow < ts).countP
        (fun ts => now' - cfg.ipViolationWindow < ts) =
          st.violations.countP fun ts => now' - cfg.ipViolationWindow < ts := by
      rw [List.countP_filter]
      refine List.countP_congr fun ts _ => ?_
      have hle : now - cfg.ipViolationWindow ≤ now' - cfg.ipViolationWindow :=
        Int.sub_le_sub_right hnow _
      simpa using Int.lt_of_le_of_lt hle
    rw [sinceCleared_cons, hclears, IPSecurityState.kept, List.countP_append, hkeep,
      h.count now' hold]
    simp [List.countP_cons, violationIn, hnow]
  · rw [sinceCleared_cons, hclears]
    exact h.til

theorem tracks_worldAfter (hlimit : 0 < cfg.ipViolationLimit) (hwindow : 0 < cfg.ipViolationWindow)
    (hhost : host ≠ "") (htimes : past.Pairwise fun c c' => c'.now ≤ c.now) :
    Tracks cfg host past ((worldAfter cfg past).security host) := by
  induction past with
  | nil => exact ⟨fun _ _ => rfl, rfl⟩
  | cons call past ih =>
      obtain ⟨hle, htimes⟩ := List.pairwise_cons.mp htimes
      have ih := ih htimes
      rw [worldAfter]
      by_cases heq : host = call.host
      · cases call with
        | registerIPViolation h now =>
            obtain rfl : host = h := heq
            rw [HostCall.run, security_registerIPViolation hlimit hhost]
            split
            next hlen =>
                have hreaches := (ih.reaches_iff hwindow hle).mpr hlen
                exact .cleared (decide_eq_true ⟨rfl, hreaches⟩) rfl rfl
            next hlen =>
                exact ih.keep fun hreaches => hlen ((ih.reaches_iff hwindow hle).mp hreaches)
        | isIPBlocked h now =>
            obtain rfl : host = h := heq
            rw [HostCall.run, security_isIPBlocked hlimit, ih.til]
            split
            next hover => exact .cleared (decide_eq_true ⟨rfl, hover⟩) rfl rfl
            next hover => exact ih.skip (decide_eq_false fun h => hover h.2) fun _ => rfl
      · rw [run_of_ne heq]
        refine ih.skip ?_ fun now => ?_
        · cases call <;> exact decide_eq_false fun h => heq h.1.symm
        · cases call with
          | registerIPViolation h now => exact decide_eq_false fun h => heq h.1.symm
          | isIPBlocked h now => rfl

/-- The server blocks a host exactly for as long as the specification says, keeps fewer violations
than the limit for every host, and does not mix up the hosts. -/
theorem isIPBlocked_iff_window (hlimit : 0 < cfg.ipViolationLimit)
    (hwindow : 0 < cfg.ipViolationWindow) (hhost : host ≠ "")
    (htimes : (.isIPBlocked host now :: past).Pairwise fun c c' => c'.now ≤ c.now) :
    ((isIPBlocked cfg (worldAfter cfg past) host now).2 = true ↔
      ∃ later t0 earlier, past = later ++ .registerIPViolation host t0 :: earlier ∧
        (sinceCleared cfg host earlier).reaches cfg host t0 ∧ now < t0 + cfg.ipBlockDuration) ∧
    (∀ h, (((worldAfter cfg past).security h).violations.length : Int) < cfg.ipViolationLimit) ∧
    (isIPBlocked cfg (worldAfter cfg (past.filter (·.host = host))) host now).2 =
      (isIPBlocked cfg (worldAfter cfg past) host now).2 := by
  obtain ⟨hnow, htimes⟩ := List.pairwise_cons.mp htimes
  refine ⟨?_, violations_length_lt hlimit past, ?_⟩
  · rw [isIPBlocked_snd hlimit, (tracks_worldAfter hlimit hwindow hhost htimes).til]
    refine (blockEnd_iff_applied htimes hnow).trans ?_
    constructor
    · rintro ⟨t0, ⟨later, earlier, heq, hreaches⟩, hlt⟩
      exact ⟨later, t0, earlier, heq, hreaches, hlt⟩
    · rintro ⟨later, t0, earlier, heq, hreaches, hlt⟩
      exact ⟨t0, ⟨later, earlier, heq, hreaches⟩, hlt⟩
  · rw [isIPBlocked_snd hlimit, isIPBlocked_snd hlimit, security_filter hlimit hhost]

end

/-- Two violations block a host for a minute. -/
def twoStrikes : Config :=
  { Env.unset.config with
    ipViolationLimit := 2, ipViolationWindow := 10 * second, ipBlockDuration := minute }

theorem second_strike_blocks :
    (isIPBlocked twoStrikes (worldAfter twoStrikes
      [.registerIPViolation "10.0.0.1" 4, .registerIPViolation "10.0.0.1" 1]) "10.0.0.1" 5).2 =
        true := by
  have hreaches : (sinceCleared twoStrikes "10.0.0.1" [.registerIPViolation "10.0.0.1" 1]).reaches
      twoStrikes "10.0.0.1" 4 := by decide
  exact (isIPBlocked_iff_window (by decide) (by decide) (by decide) (by decide)).1.mpr
    ⟨[], 4, _, rfl, hreaches, by decide⟩

end TcpAdapter.Server
