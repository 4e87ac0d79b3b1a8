import TcpAdapter.Concurrent.Trace
import TcpAdapter.Verification.Delivery.Clerk
import TcpAdapter.Verification.Delivery.Links

/-! # The deduplication window

Accepted commands with one key are ten minutes apart as long as the session remembers the
key. A restart forgets every key. -/

namespace TcpAdapter.Delivery

open TcpAdapter.Concurrent TcpAdapter.Queue TcpAdapter.Protocol TcpAdapter.Manager
open TcpAdapter.Policy

/-! ## Accepted commands in a trace -/

def readingOf : (a : Act) → a.Res → Option Time
  | .now, t => some t
  | _, _ => none

def pushOf : (a : Act) → a.Res → Option Command
  | .pushNew cmd, _ => some cmd
  | _, _ => none

/-- The last time that the thread read from the clock. -/
def lastRead (tid : ℕ) (trace : List (Entry sig)) : Option Time :=
  lastOf (S := sig) readingOf tid trace

/-- The last command that the thread added to the queue. -/
def lastPushed (tid : ℕ) (trace : List (Entry sig)) : Option Command :=
  lastOf (S := sig) pushOf tid trace

/-- The last time that any thread read from the clock. -/
def clock : List (Entry sig) → Option Time
  | [] => none
  | .did _ .now t :: _ => some t
  | _ :: older => clock older

/-- The key of a command that was accepted just now, and the time that its `Enqueue` read
last. -/
def acceptance (older : List (Entry sig)) : Entry sig → Option (String × Time)
  | .did tid (.persistEnqueued _) none =>
      (lastPushed tid older).map fun cmd => (cmd.dedupKey, (lastRead tid older).getD 0)
  | _ => none

/-- All accepted commands by key and time, the last one first. -/
def acceptances : List (Entry sig) → List (String × Time)
  | [] => []
  | e :: older => (acceptance older e).toList ++ acceptances older

/-- The second command has no key, another key, or comes ten minutes later. -/
def Apart (later earlier : String × Time) : Prop :=
  later.1 = earlier.1 → later.1 ≠ "" → earlier.2 + 10 * minute ≤ later.2

section trace

variable {tid other : ℕ} {a : Act} (r : a.Res) (trace : List (Entry sig))

theorem lastRead_own (ha : a ≠ .now) :
    lastRead tid (.did tid a r :: trace) = lastRead tid trace := by
  have hnone : readingOf a r = none := by
    cases a with
    | now => exact absurd rfl ha
    | _ => rfl
  rw [lastRead, lastOf_own, hnone]
  rfl

theorem lastPushed_own (ha : ∀ cmd, a ≠ .pushNew cmd) :
    lastPushed tid (.did tid a r :: trace) = lastPushed tid trace := by
  have hnone : pushOf a r = none := by
    cases a with
    | pushNew cmd => exact absurd rfl (ha cmd)
    | _ => rfl
  rw [lastPushed, lastOf_own, hnone]
  rfl

theorem clock_cons (ha : a ≠ .now) : clock (.did tid a r :: trace) = clock trace := by
  cases a with
  | now => exact absurd rfl ha
  | _ => rfl

theorem acceptances_cons (ha : ∀ ticket, a ≠ .persistEnqueued ticket) :
    acceptances (.did tid a r :: trace) = acceptances trace := by
  cases a with
  | persistEnqueued ticket => exact absurd rfl (ha ticket)
  | _ => rfl

end trace

/-! ## What the session and a clerk know about keys -/

/-- The session has a time for the key that is as late as the acceptance. -/
def World.Remembers (w : World) (p : String × Time) : Prop :=
  ∃ t, w.dedup p.1 = some t ∧ p.2 ≤ t

/-- The accepted commands are apart, and each one is remembered or ten minutes old. -/
structure Spaced (w : World) (trace : List (Entry sig)) : Prop where
  apart : (acceptances trace).Pairwise Apart
  kept : ∀ p ∈ acceptances trace, p.1 ≠ "" →
    w.Remembers p ∨ ∃ now, clock trace = some now ∧ p.2 + 10 * minute ≤ now

structure KnowsKeys (tid : ℕ) (w : World) (trace : List (Entry sig)) (v : Clerk) : Prop where
  session : v.entered = true → w.session.isSome
  ordered : v.readings.Pairwise fun later earlier => earlier ≤ later
  past : ∀ t ∈ v.readings, ∃ now, clock trace = some now ∧ t ≤ now
  last : ∀ t, v.readings.head? = some t → lastRead tid trace = some t
  seen : ∀ key last, v.seen = some (key, last) → w.dedup key = last
  /-- What the session has forgotten was ten minutes old at each of the readings. -/
  cleared : ∀ p ∈ acceptances trace, p.1 ≠ "" →
    w.Remembers p ∨ ∀ t ∈ v.readings, p.2 + 10 * minute ≤ t
  stamped : ∀ key t, v.stamped = some (key, t) → w.dedup key = some t ∧
    lastRead tid trace = some t ∧ ∀ p ∈ acceptances trace, p.1 = key → key ≠ "" →
      p.2 + 10 * minute ≤ t
  pushed : ∀ cmd, v.pushed = some cmd → lastPushed tid trace = some cmd

theorem KnowsKeys.nothing (tid : ℕ) (w : World) (trace : List (Entry sig)) (on : Bool) :
    KnowsKeys tid w trace { locked := on } where
  session := by simp
  ordered := .nil
  past := by simp
  last := by simp
  seen := by simp
  cleared _ _ _ := .inr (by simp)
  stamped := by simp
  pushed := by simp

/-- What an action that stamps no key and accepts no command leaves as it is. -/
structure KeepsKeys (w w' : World) (trace trace' : List (Entry sig)) : Prop where
  session : w.session.isSome → w'.session.isSome
  dedup : w'.dedup = w.dedup
  acceptances : acceptances trace' = acceptances trace
  clock : ∀ t now, clock trace = some now → t ≤ now → ∃ now', clock trace' = some now' ∧ t ≤ now'

/-- The clock does not go back. -/
def clockForward (trace : List (Entry sig)) (inp : Input) : Act → Bool
  | .now => (clock trace).all fun now => now ≤ inp.time
  | _ => true

section exec

variable {cfg : Config} {id : String} {tid : ℕ} {w w' : World} {inp : Input} {a : Act}
  {r : a.Res} {v v' : Clerk} {trace trace' : List (Entry sig)}

theorem clock_mono (hrule : clockForward trace inp a = true)
    (h : exec cfg id tid w a inp = some (w', r)) {t now : Time} (hclock : clock trace = some now)
    (ht : t ≤ now) : ∃ now', clock (.did tid a r :: trace) = some now' ∧ t ≤ now' := by
  by_cases ha : a = .now
  · subst ha
    cases h
    simp only [clockForward, hclock, Option.all_some, decide_eq_true_eq] at hrule
    exact ⟨inp.time, rfl, ht.trans hrule⟩
  · exact ⟨now, (clock_cons r trace ha).trans hclock, ht⟩

theorem KeepsKeys.of_exec (hrule : clockForward trace inp a = true)
    (hset : ∀ key t, a ≠ .setDedup key t) (haccept : ∀ ticket, a ≠ .persistEnqueued ticket)
    (h : exec cfg id tid w a inp = some (w', r)) :
    KeepsKeys w w' trace (.did tid a r :: trace) where
  session := exec_session h
  dedup := exec_dedup hset h
  acceptances := acceptances_cons r trace haccept
  clock _ _ hclock ht := clock_mono hrule h hclock ht

theorem KeepsKeys.remembers (hk : KeepsKeys w w' trace trace') {p : String × Time}
    (h : w.Remembers p) : w'.Remembers p := by
  rw [World.Remembers, hk.dedup]
  exact h

theorem Spaced.keep (hs : Spaced w trace) (hk : KeepsKeys w w' trace trace') :
    Spaced w' trace' where
  apart := by
    rw [hk.acceptances]
    exact hs.apart
  kept p hp hkey := by
    rw [hk.acceptances] at hp
    rcases hs.kept p hp hkey with hrem | ⟨now, hclock, hold⟩
    · exact .inl (hk.remembers hrem)
    · exact .inr (hk.clock _ _ hclock hold)

/-- The clerk, and what it has found, are the same. -/
theorem KnowsKeys.keep (hv : KnowsKeys tid w trace v) (hk : KeepsKeys w w' trace trace')
    (hread : lastRead tid trace' = lastRead tid trace)
    (hpush : v.pushed ≠ none → lastPushed tid trace' = lastPushed tid trace) :
    KnowsKeys tid w' trace' v where
  session hon := hk.session (hv.session hon)
  ordered := hv.ordered
  past t ht := by
    obtain ⟨now, hclock, hle⟩ := hv.past t ht
    exact hk.clock t now hclock hle
  last t ht := hread.trans (hv.last t ht)
  seen key last hseen := by
    rw [hk.dedup]
    exact hv.seen key last hseen
  cleared p hp hkey := by
    rw [hk.acceptances] at hp
    exact (hv.cleared p hp hkey).imp_left hk.remembers
  stamped key t hst := by
    rw [hk.dedup, hread, hk.acceptances]
    exact hv.stamped key t hst
  pushed cmd hcmd := (hpush (by simp [hcmd])).trans (hv.pushed cmd hcmd)

/-! ### The clerk's own steps -/

theorem le_head_of_ordered {ts : List Time} {t : Time}
    (h : ts.Pairwise fun later earlier => earlier ≤ later) (hhead : ts.head? = some t) :
    ∀ t' ∈ ts, t' ≤ t := by
  cases ts with
  | nil => cases hhead
  | cons t₀ rest =>
      cases hhead
      intro t' ht'
      rcases List.mem_cons.mp ht' with rfl | hmem
      · exact le_rfl
      · exact (List.pairwise_cons.mp h).1 t' hmem

/-- The clerk reads the clock. -/
theorem KnowsKeys.read (hv : KnowsKeys tid w trace v) (hs : Spaced w trace) {t : Time}
    (hrule : ∀ now, clock trace = some now → now ≤ t) :
    KnowsKeys tid w (.did tid .now t :: trace)
      { v with readings := t :: v.readings, stamped := none } where
  session := hv.session
  ordered := by
    refine List.pairwise_cons.mpr ⟨fun t' ht' => ?_, hv.ordered⟩
    obtain ⟨now, hclock, hle⟩ := hv.past t' ht'
    exact hle.trans (hrule now hclock)
  past t' ht' := by
    refine ⟨t, rfl, ?_⟩
    rcases List.mem_cons.mp ht' with rfl | hmem
    · exact le_rfl
    · obtain ⟨now, hclock, hle⟩ := hv.past t' hmem
      exact hle.trans (hrule now hclock)
  last t' ht' := by
    cases ht'
    rw [lastRead, lastOf_own]
    rfl
  seen := hv.seen
  cleared p hp hkey := by
    rcases hv.cleared p hp hkey with hrem | hold
    · exact .inl hrem
    · rcases hs.kept p hp hkey with hrem | ⟨now, hclock, hle⟩
      · exact .inl hrem
      · refine .inr fun t' ht' => ?_
        rcases List.mem_cons.mp ht' with rfl | hmem
        · exact hle.trans (hrule now hclock)
        · exact hold t' hmem
  stamped := by simp
  pushed cmd hcmd := hv.pushed cmd hcmd ▸ lastPushed_own (a := .now) t trace (by simp)

/-- When a clerk stamps a key, the accepted commands with the key are ten minutes old. -/
theorem KnowsKeys.old_of_may {key : String} {t : Time} (hv : KnowsKeys tid w trace v)
    (hmay : v.May cfg (.setDedup key t)) {p : String × Time} (hp : p ∈ acceptances trace)
    (hkey : p.1 = key) (hne : key ≠ "") : p.2 + 10 * minute ≤ t := by
  obtain ⟨-, -, last, hseen, hhead, hold⟩ := hmay
  rcases hv.cleared p hp (hkey ▸ hne) with ⟨t₀, hdedup, hle⟩ | hclear
  · rw [hkey, hv.seen key last hseen] at hdedup
    obtain ⟨t₁, hmem, hpast⟩ := hold t₀ hdedup
    calc p.2 + 10 * minute ≤ t₀ + 10 * minute := Int.add_le_add_right hle _
      _ ≤ t₁ := Int.add_le_of_le_sub_left hpast
      _ ≤ t := le_head_of_ordered hv.ordered hhead t₁ hmem
  · exact hclear t (List.mem_of_mem_head? hhead)

/-- A stamp on a key that is as late as an acceptance under it takes nothing from memory. -/
theorem remembers_stamp {key : String} {t : Time} {p : String × Time} {Q : Prop}
    (h : w.Remembers p ∨ Q) (hdedup : w'.dedup = Function.update w.dedup key (some t))
    (hlate : p.1 = key → p.2 ≤ t) : w'.Remembers p ∨ Q := by
  rw [World.Remembers, hdedup]
  by_cases hkey : p.1 = key
  · exact .inl ⟨t, by rw [hkey, Function.update_self], hlate hkey⟩
  · rw [Function.update_of_ne hkey]
    exact h

/-- The clerk stamps a key. -/
theorem KnowsKeys.stamp {key : String} {t : Time} {r : Unit} (hv : KnowsKeys tid w trace v)
    (hs : Spaced w trace) (hmay : v.May cfg (.setDedup key t))
    (h : exec cfg id tid w (.setDedup key t) inp = some (w', r)) :
    Spaced w' (.did tid (.setDedup key t) r :: trace) ∧
      KnowsKeys tid w' (.did tid (.setDedup key t) r :: trace)
        (v.after (.setDedup key t) r) := by
  have hsession := hv.session hmay.2.1
  have hdedup := (exec_setDedup h).2 hsession
  have hold : ∀ p ∈ acceptances trace, p.1 = key → key ≠ "" → p.2 + 10 * minute ≤ t :=
    fun p hp => hv.old_of_may hmay hp
  have hlate : ∀ p ∈ acceptances trace, p.1 ≠ "" → p.1 = key → p.2 ≤ t := by
    intro p hp hne hkey
    refine le_trans ?_ (hold p hp hkey (hkey ▸ hne))
    exact Int.le_add_of_nonneg_right (by decide)
  obtain ⟨-, -, last, -, hhead, -⟩ := hmay
  have hread : lastRead tid (.did tid (.setDedup key t) r :: trace) = lastRead tid trace :=
    lastRead_own (a := .setDedup key t) r trace (by simp)
  have hpush : lastPushed tid (.did tid (.setDedup key t) r :: trace) = lastPushed tid trace :=
    lastPushed_own (a := .setDedup key t) r trace (by simp)
  refine ⟨⟨hs.apart, fun p hp hne => remembers_stamp (hs.kept p hp hne) hdedup (hlate p hp hne)⟩,
    ?_⟩
  exact
    { session := fun _ => exec_session h hsession
      ordered := hv.ordered
      past := hv.past
      last := fun t' ht' => hread.trans (hv.last t' ht')
      seen := by simp [Clerk.after]
      cleared := fun p hp hne => remembers_stamp (hv.cleared p hp hne) hdedup (hlate p hp hne)
      stamped := by
        rintro key' t' ⟨⟩
        exact ⟨by rw [hdedup, Function.update_self], hread.trans (hv.last t hhead), hold⟩
      pushed := fun cmd hcmd => hpush.trans (hv.pushed cmd hcmd) }

/-- The save that ends `Enqueue` accepts the command, or it fails. -/
theorem KnowsKeys.accept {ticket : ℕ} {r : Option Error} (hv : KnowsKeys tid w trace v)
    (hs : Spaced w trace) (hmay : v.May cfg (.persistEnqueued ticket))
    (h : exec cfg id tid w (.persistEnqueued ticket) inp = some (w', r)) :
    Spaced w' (.did tid (.persistEnqueued ticket) r :: trace) ∧
      KnowsKeys tid w' (.did tid (.persistEnqueued ticket) r :: trace)
        (v.after (.persistEnqueued ticket) r) := by
  have hdedup : w'.dedup = w.dedup := exec_dedup (by simp) h
  have hread : lastRead tid (.did tid (.persistEnqueued ticket) r :: trace) = lastRead tid trace :=
    lastRead_own (a := .persistEnqueued ticket) r trace (by simp)
  have hremembers : ∀ p, w'.Remembers p ↔ w.Remembers p := by
    intro p
    rw [World.Remembers, hdedup, World.Remembers]
  -- a new acceptance is of the key that the clerk has stamped, at the time of the stamp
  have hnew : ∀ p, acceptance trace (.did tid (.persistEnqueued ticket) r) = some p → p.1 ≠ "" →
      w'.Remembers p ∧ ∀ q ∈ acceptances trace, p.1 = q.1 → q.2 + 10 * minute ≤ p.2 := by
    intro p hp hne
    cases r with
    | some err => cases hp
    | none =>
        obtain ⟨-, cmd, hcmd, hstamped⟩ := hmay
        simp only [acceptance, hv.pushed cmd hcmd, Option.map_some, Option.some.injEq] at hp
        subst hp
        obtain ⟨t, ht⟩ := hstamped hne
        obtain ⟨htime, hlast, hold⟩ := hv.stamped _ t ht
        rw [hlast]
        refine ⟨⟨t, by rw [hdedup]; exact htime, le_rfl⟩, ?_⟩
        exact fun q hq hkey => hold q hq hkey.symm hne
  have hmem : ∀ p ∈ acceptances (.did tid (.persistEnqueued ticket) r :: trace),
      acceptance trace (.did tid (.persistEnqueued ticket) r) = some p ∨ p ∈ acceptances trace := by
    intro p hp
    simpa [acceptances] using hp
  refine ⟨⟨?_, fun p hp hne => ?_⟩, ?_⟩
  · rw [acceptances, List.pairwise_append]
    refine ⟨?_, hs.apart, fun p hp q hq hkey hne => ?_⟩
    · cases acceptance trace (.did tid (.persistEnqueued ticket) r) with
      | none => exact .nil
      | some p => exact List.pairwise_singleton _ _
    · exact (hnew p (Option.mem_toList.mp hp) hne).2 q hq hkey
  · rcases hmem p hp with hp | hp
    · exact .inl (hnew p hp hne).1
    · rw [hremembers]
      exact hs.kept p hp hne
  · exact
      { session := fun hon => exec_session h (hv.session hon)
        ordered := hv.ordered
        past := hv.past
        last := fun t ht => hread.trans (hv.last t ht)
        seen := fun key last hseen => by
          rw [hdedup]
          exact hv.seen key last hseen
        cleared := fun p hp hne => by
          rcases hmem p hp with hp | hp
          · exact .inl (hnew p hp hne).1
          · rw [hremembers]
            exact hv.cleared p hp hne
        stamped := by simp [Clerk.after]
        pushed := by simp [Clerk.after] }

/-- An action that moves nothing but the lock and the readings of the queue. -/
theorem KnowsKeys.congr (hv : KnowsKeys tid w trace v) (hentered : v'.entered = v.entered)
    (hseen : v'.seen = v.seen) (hreadings : v'.readings = v.readings)
    (hstamped : v'.stamped = v.stamped) (hpushed : v'.pushed = v.pushed) :
    KnowsKeys tid w trace v' where
  session hon := hv.session (hentered ▸ hon)
  ordered := hreadings ▸ hv.ordered
  past := hreadings ▸ hv.past
  last := hreadings ▸ hv.last
  seen key last h := hv.seen key last (hseen ▸ h)
  cleared p hp hne := by
    rw [hreadings]
    exact hv.cleared p hp hne
  stamped key t h := hv.stamped key t (hstamped ▸ h)
  pushed cmd h := hv.pushed cmd (hpushed ▸ h)

/-- The clerk adds its command to the queue. -/
theorem KnowsKeys.push {cmd : Command} {r : ℕ} (hv : KnowsKeys tid w trace v)
    (hk : KeepsKeys w w' trace (.did tid (.pushNew cmd) r :: trace)) :
    KnowsKeys tid w' (.did tid (.pushNew cmd) r :: trace) (v.after (.pushNew cmd) r) := by
  have hread : lastRead tid (.did tid (.pushNew cmd) r :: trace) = lastRead tid trace :=
    lastRead_own (a := .pushNew cmd) r trace (by simp)
  have hnone : KnowsKeys tid w trace { v with pushed := none } :=
    ⟨hv.session, hv.ordered, hv.past, hv.last, hv.seen, hv.cleared, hv.stamped, by simp⟩
  have hv' := hnone.keep hk hread (by simp)
  refine ⟨hv'.session, hv'.ordered, hv'.past, hv'.last, hv'.seen, hv'.cleared, hv'.stamped, ?_⟩
  rintro cmd' ⟨⟩
  rw [lastPushed, lastOf_own]
  rfl

theorem KnowsKeys.own (hv : KnowsKeys tid w trace v) (hs : Spaced w trace)
    (hheld : v.Holds tid w) (hmay : v.May cfg a) (hrule : clockForward trace inp a = true)
    (h : exec cfg id tid w a inp = some (w', r)) :
    Spaced w' (.did tid a r :: trace) ∧ KnowsKeys tid w' (.did tid a r :: trace) (v.after a r) := by
  by_cases hset : ∃ key t, a = .setDedup key t
  · obtain ⟨key, t, rfl⟩ := hset
    exact hv.stamp hs hmay h
  by_cases haccept : ∃ ticket, a = .persistEnqueued ticket
  · obtain ⟨ticket, rfl⟩ := haccept
    exact hv.accept hs hmay h
  have hkeeps : KeepsKeys w w' trace (.did tid a r :: trace) :=
    .of_exec hrule (fun key t heq => hset ⟨key, t, heq⟩)
      (fun ticket heq => haccept ⟨ticket, heq⟩) h
  refine ⟨hs.keep hkeeps, ?_⟩
  have hsame : a ≠ .now → (∀ cmd, a ≠ .pushNew cmd) →
      KnowsKeys tid w' (.did tid a r :: trace) v := fun hnow hpush =>
    hv.keep hkeeps (lastRead_own r trace hnow) fun _ => lastPushed_own r trace hpush
  cases a with
  | setDedup key t => exact absurd ⟨key, t, rfl⟩ hset
  | persistEnqueued ticket => exact absurd ⟨ticket, rfl⟩ haccept
  | lockManager | unlockManager => exact .nothing ..
  | now =>
      cases h
      cases hlocked : v.locked with
      | false =>
          rw [hheld.off hlocked]
          exact .nothing ..
      | true =>
          have hafter : v.after .now inp.time =
              { v with readings := inp.time :: v.readings, stamped := none } := if_pos hlocked
          rw [hafter]
          refine hv.read hs fun now hclock => ?_
          simpa only [clockForward, hclock, Option.all_some, decide_eq_true_eq] using hrule
  | pushNew cmd => exact hv.push hkeeps
  | ensureSession =>
      have hv' := hsame (by simp) (by simp)
      cases r with
      | some err => exact hv'
      | none =>
          have hsession : w'.session.isSome := by
            obtain ⟨rfl, hnone⟩ := Prod.mk.inj (Option.some.inj h)
            exact ensureSession_none (Prod.ext rfl hnone)
          exact ⟨fun _ => hsession, hv'.ordered, hv'.past, hv'.last, hv'.seen, hv'.cleared,
            hv'.stamped, hv'.pushed⟩
  | dedupTime key =>
      have hv' := hsame (by simp) (by simp)
      refine ⟨hv'.session, .nil, by simp [Clerk.after], by simp [Clerk.after], ?_,
        fun p hp hne => .inr (by simp [Clerk.after]), hv'.stamped, hv'.pushed⟩
      cases h
      rintro key' last ⟨⟩
      rfl
  | queueLen | queueBytes =>
      have hv' := hsame (by simp) (by simp)
      simp only [Clerk.after]
      split
      · exact hv'.congr rfl rfl rfl rfl rfl
      · exact hv'
  | _ => exact (hsame (by simp) (by simp)).congr rfl rfl rfl rfl rfl

/-- While the clerk holds the manager, no other thread touches the keys. -/
theorem KnowsKeys.other {other : ℕ} {u : Clerk} (hu : KnowsKeys other w trace u)
    (hheld : v.Holds tid w) (hmay : v.May cfg a) (hne : other ≠ tid) (hholds : u.Holds other w)
    (hrule : clockForward trace inp a = true) (h : exec cfg id tid w a inp = some (w', r)) :
    KnowsKeys other w' (.did tid a r :: trace) u := by
  cases hlocked : u.locked with
  | false =>
      rw [hholds.off hlocked]
      exact .nothing ..
  | true =>
      have hidle : v = {} := by
        refine hheld.off_of_mutex ?_
        rw [hholds.locked.mp hlocked]
        exact fun heq => hne (Option.some.inj heq)
      subst hidle
      have hkeeps : KeepsKeys w w' trace (.did tid a r :: trace) := by
        refine .of_exec hrule ?_ ?_ h
        · rintro key t rfl
          cases hmay.1
        · rintro ticket rfl
          cases hmay.1
      have hread : lastRead other (.did tid a r :: trace) = lastRead other trace :=
        lastOf_other (S := sig) readingOf r trace hne.symm
      have hpush : lastPushed other (.did tid a r :: trace) = lastPushed other trace :=
        lastOf_other (S := sig) pushOf r trace hne.symm
      exact hu.keep hkeeps hread fun _ => hpush

end exec

/-! ## Runs -/

section rules

variable (cfg : Config) (id : String)

/-- The clock does not go back. -/
abbrev clockRules : Rules (machine cfg id).traced where
  act w _ a inp := clockForward w.2 inp a = true

/-- The clock does not go back, and the process restarts only when every accepted command
with a key is ten minutes old. -/
abbrev dedupRules : Rules (machine cfg id).traced where
  act w _ a inp := clockForward w.2 inp a = true
  crash w := (acceptances w.2).all fun p =>
    p.1 = "" || (clock w.2).any fun now => p.2 + 10 * minute ≤ now

theorem Spaced.initial : Spaced {} [] :=
  ⟨.nil, by simp [acceptances]⟩

theorem Spaced.restart {w : World} {trace : List (Entry sig)} (hs : Spaced w trace)
    (hcrash : (dedupRules cfg id).crash (w, trace)) :
    Spaced ((machine cfg id).crash w) (.crashed :: trace) := by
  refine ⟨hs.apart, fun p hp hne => .inr ?_⟩
  have hold := List.all_eq_true.mp hcrash p hp
  simp only [hne, decide_false, Bool.false_or, Option.any_eq_true, decide_eq_true_eq] at hold
  exact hold

def keyClerks : Discipline (machine cfg id).traced (dedupRules cfg id) ({}, []) Clerk :=
  ((clerks cfg id (.any _)).traced (dedupRules cfg id) (fun _ _ _ _ => trivial)
    (fun _ _ _ _ _ => trivial) fun _ _ => trivial).strengthen
    (fun w => Spaced w.1 w.2) (fun tid w v => KnowsKeys tid w.1 w.2 v) .initial
    (fun _ _ _ hidle => by
      subst hidle
      exact .nothing ..)
    (fun m hs hv hnext _ => by
      obtain ⟨-, rfl⟩ := hnext
      obtain ⟨hexec, htrace⟩ := exec_of_traced m.exec
      rw [htrace]
      exact hv.own hs m.knows m.may m.rule hexec)
    (fun m _ hne hholds hu => by
      obtain ⟨hexec, htrace⟩ := exec_of_traced m.exec
      rw [htrace]
      exact hu.other m.knows m.may hne hholds m.rule hexec)
    fun hs hcrash => hs.restart cfg id hcrash

end rules

/-- Two accepted commands with one key are ten minutes apart. -/
theorem accepted_commands_apart {cfg : Config} {id : String}
    {c : Concurrent.Config (machine cfg id).traced}
    (h : Reachable (dedupRules cfg id) ({}, []) c) :
    (acceptances c.world.2).Pairwise Apart :=
  ((keyClerks cfg id).sound h).1.2.apart

/-- One command with a key, with all clock readings at `time`. -/
def keyedLabels (time : Time) : List (Label (machine {} "c")) :=
  call 0 (.enqueue { commandID := 9, dedupKey := "k" } 0) 20 { time := time }

/-- Two commands with one key, and a restart between them. -/
def twiceKeyedLabels (between : List (Label (machine {} "c"))) (time : Time) :
    List (Label (machine {} "c")) :=
  keyedLabels 0 ++ between ++ .crash :: keyedLabels time

/-- The process restarts ten minutes after the command, and the command comes again. -/
theorem restarted_commands_apart :
    ∃ c, Reachable (dedupRules {} "c") ({}, []) c ∧
      acceptances c.world.2 = [("k", 10 * minute), ("k", 0)] ∧
      (acceptances c.world.2).Pairwise Apart := by
  have hrun : ∃ c, Reachable (dedupRules {} "c") ({}, []) c ∧
      acceptances c.world.2 = [("k", 10 * minute), ("k", 0)] :=
    ⟨_, Reachable.initial.run ((twiceKeyedLabels (call 0 .process 20 { time := 10 * minute })
      (10 * minute)).map Label.traced), by decide +kernel⟩
  obtain ⟨c, hc, haccepted⟩ := hrun
  exact ⟨c, hc, haccepted, accepted_commands_apart hc⟩

/-- The process restarts between two commands with one key that come within a second. -/
theorem restart_forgets_key :
    ∃ c, Reachable (clockRules {} "c") ({}, []) c ∧
      acceptances c.world.2 = [("k", second), ("k", 0)] ∧
      ¬ (acceptances c.world.2).Pairwise Apart := by
  have hrun : ∃ c, Reachable (clockRules {} "c") ({}, []) c ∧
      acceptances c.world.2 = [("k", second), ("k", 0)] :=
    ⟨_, Reachable.initial.run ((twiceKeyedLabels [] second).map Label.traced), by decide +kernel⟩
  obtain ⟨c, hc, haccepted⟩ := hrun
  refine ⟨c, hc, haccepted, ?_⟩
  rw [haccepted]
  intro hapart
  have hlate := (List.pairwise_cons.mp hapart).1 _ (List.mem_singleton_self _) rfl (by decide)
  exact absurd hlate (by decide)

end TcpAdapter.Delivery
