import TcpAdapter.Verification.Backoff

/-! # Timeouts of the in-flight table

`ProcessInFlight` goes over a map that it takes entries out of and puts entries back into, in
whatever order the iteration has. What it does to an entry depends on that entry alone, so the
order shows in nothing but the order of the outcomes and of the retried commands. -/

namespace TcpAdapter.Manager

open List TcpAdapter.Queue

/-! ## What should become of an entry -/

section verdict

variable (policy : DeliveryPolicy) (now : Time) (seq : UInt8) (entry : InFlightEntry)

/-- `AckTimeout`, or the default for it. -/
def ackTimeout : Int :=
  if policy.ackTimeout ≤ 0 then 10 * second else policy.ackTimeout

/-- How long an entry has to wait, as a number without bounds. -/
def fullWait : Int :=
  ackTimeout policy + retryDelay entry.attempts policy.retryBackoff (jitterSeedForEntry entry)

/-- The command has been sent as often as it may be sent. -/
def Exhausted : Prop :=
  entry.attempts ≥ retryLimit policy + 1

/-- The acknowledgement may still come. -/
def Stays : Prop :=
  now < entry.sentAt + fullWait policy entry ∨
    (¬ entry.command.expired now ∧ Exhausted policy entry ∧
      now < entry.sentAt + fullWait policy entry + lateAckGrace)

instance : Decidable (Exhausted policy entry) :=
  inferInstanceAs (Decidable (entry.attempts ≥ _))

instance : Decidable (Stays policy now entry) :=
  inferInstanceAs (Decidable (_ ∨ _))

/-- What becomes of an entry whose time is up. -/
def verdict : InFlightOutcome :=
  if entry.command.expired now then
    ⟨.expired, seq, entry.command, entry.attempts, "ttl expired while waiting ack"⟩
  else if Exhausted policy entry then
    ⟨.failed, seq, entry.command, entry.attempts, "ack timeout retries exceeded"⟩
  else
    let cmd := { entry.command with attempts := entry.attempts, retrySeq := seq }
    ⟨.retrying, seq, cmd, entry.attempts, "ack timeout"⟩

/-- The outcome for an entry, if it does not stay. -/
def dueOutcome : Option InFlightOutcome :=
  if Stays policy now entry then none else some (verdict policy now seq entry)

/-- The numbers are 64-bit numbers, and so is the longest wait. -/
structure InRange : Prop where
  attempts : -2 ^ 63 ≤ entry.attempts
  maxRetries : policy.maxRetries < 2 ^ 63
  wait : fullWait policy entry + lateAckGrace < 2 ^ 63

/-- The limit on the attempts of an entry that is to be retried can be represented. -/
def LimitFits : Prop :=
  entry.sentAt + fullWait policy entry ≤ now → ¬ entry.command.expired now →
    ¬ Exhausted policy entry → retryLimit policy + 1 < 2 ^ 63

end verdict

variable {policy : DeliveryPolicy} {now : Time} {seq : UInt8} {entry : InFlightEntry}

theorem ackTimeout_pos (policy : DeliveryPolicy) : 0 < ackTimeout policy := by
  rw [ackTimeout]
  split
  · decide
  · rename_i hpos
    exact Int.not_le.mp hpos

theorem ackTimeout_le_fullWait (policy : DeliveryPolicy) (entry : InFlightEntry) :
    ackTimeout policy ≤ fullWait policy entry :=
  Int.le_add_of_nonneg_right (retryDelay_nonneg _ _ _)

theorem InRange.fullWait_bounds (h : InRange policy entry) :
    0 < fullWait policy entry ∧ fullWait policy entry + 2000000000 < 2 ^ 63 :=
  ⟨Int.lt_of_lt_of_le (ackTimeout_pos policy) (ackTimeout_le_fullWait policy entry), h.wait⟩

theorem InRange.ackWait_eq (h : InRange policy entry) :
    ackWait policy entry = fullWait policy entry := by
  obtain ⟨hpos, hlt⟩ := h.fullWait_bounds
  change (if int64 (fullWait policy entry) < 0 then ackTimeout policy
    else int64 (fullWait policy entry)) = _
  rw [int64_eq (by omega) (by omega), if_neg (by omega)]

theorem InRange.grace_eq (h : InRange policy entry) :
    int64 (fullWait policy entry + lateAckGrace) = fullWait policy entry + lateAckGrace := by
  obtain ⟨hpos, hlt⟩ := h.fullWait_bounds
  exact int64_eq (Int.le_trans (by decide) (Int.add_nonneg (Int.le_of_lt hpos) (by decide))) h.wait

/-- What the loop does to an entry, without the overflows that cannot happen. -/
theorem InRange.inFlightOutcome_eq (h : InRange policy entry) :
    inFlightOutcome policy now seq entry =
      if now < entry.sentAt + fullWait policy entry then none
      else if entry.command.expired now then some (verdict policy now seq entry)
      else if entry.attempts ≥ int64 (retryLimit policy + 1) then
        if now < entry.sentAt + (fullWait policy entry + lateAckGrace) then none
        else
          some ⟨.failed, seq, entry.command, entry.attempts, "ack timeout retries exceeded"⟩
      else
        let cmd := { entry.command with attempts := entry.attempts, retrySeq := seq }
        some ⟨.retrying, seq, cmd, entry.attempts, "ack timeout"⟩ := by
  simp only [inFlightOutcome, h.ackWait_eq, h.grace_eq]
  split
  · rfl
  · split
    · rename_i hexpired
      rw [verdict, if_pos hexpired]
    · rfl

/-- The loop does to an entry what it should, unless the limit on its attempts overflows. -/
theorem inFlightOutcome_eq_iff (h : InRange policy entry) :
    inFlightOutcome policy now seq entry = dueOutcome policy now seq entry ↔
      LimitFits policy now entry := by
  have hlimit : 0 ≤ retryLimit policy ∧ retryLimit policy < 2 ^ 63 := by
    have hmax := h.maxRetries
    rw [retryLimit]
    split <;> omega
  have hattempts := h.attempts
  rw [h.inFlightOutcome_eq, dueOutcome]
  by_cases hwait : now < entry.sentAt + fullWait policy entry
  · have hstays : Stays policy now entry := .inl hwait
    rw [if_pos hwait, if_pos hstays]
    exact iff_of_true rfl fun hdue => absurd hwait (Int.not_lt.mpr hdue)
  rw [if_neg hwait]
  by_cases hexpired : entry.command.expired now
  · have hstays : ¬ Stays policy now entry := fun h => h.elim hwait fun h => h.1 hexpired
    rw [if_pos hexpired, if_neg hstays]
    exact iff_of_true rfl fun _ h => absurd hexpired h
  rw [if_neg hexpired]
  have hstays : Stays policy now entry ↔ Exhausted policy entry ∧
      now < entry.sentAt + (fullWait policy entry + lateAckGrace) := by
    rw [Stays, or_iff_right hwait, and_iff_right hexpired, Int.add_assoc]
  by_cases hexhausted : Exhausted policy entry
  · have hover : entry.attempts ≥ int64 (retryLimit policy + 1) :=
      Int.le_trans (int64_le (by omega)) hexhausted
    rw [if_pos hover]
    refine iff_of_true ?_ fun _ _ hleft => absurd hexhausted hleft
    rw [verdict, if_neg hexpired, if_pos hexhausted]
    by_cases hgrace : now < entry.sentAt + (fullWait policy entry + lateAckGrace)
    · rw [if_pos hgrace, if_pos (hstays.mpr ⟨hexhausted, hgrace⟩)]
    · rw [if_neg hgrace, if_neg fun h => hgrace (hstays.mp h).2]
  · rw [if_neg fun h => hexhausted (hstays.mp h).1, verdict, if_neg hexpired, if_neg hexhausted]
    by_cases hfits : retryLimit policy + 1 < 2 ^ 63
    · have hint : int64 (retryLimit policy + 1) = retryLimit policy + 1 :=
        int64_eq (by omega) hfits
      rw [hint, if_neg (show ¬ entry.attempts ≥ retryLimit policy + 1 from hexhausted)]
      exact iff_of_true rfl fun _ _ _ => hfits
    · -- the sum has become the least number of all
      have hint : int64 (retryLimit policy + 1) = -2 ^ 63 := by
        have hsum : retryLimit policy + 1 = 2 ^ 63 := by omega
        rw [hsum]
        rfl
      rw [hint, if_pos hattempts]
      refine iff_of_false ?_ fun h => hfits (h (Int.not_lt.mp hwait) hexpired hexhausted)
      split <;> simp

/-! ## The loop -/

/-- The commands that go back to the queue. -/
def retried (outs : List InFlightOutcome) : List Command :=
  (outs.filter fun out => out.type = .retrying).map InFlightOutcome.command

/-- Each entry stays or is taken out with its one outcome, a retried command is appended to its
class, and nothing else changes. -/
structure Partitions (judge : UInt8 → InFlightEntry → Option InFlightOutcome) (s s' : Session)
    (outs : List InFlightOutcome) : Prop where
  table : ∀ seq, s'.inFlight seq = (s.inFlight seq).filter fun e => (judge seq e).isNone
  outcomes : outs ~ allSeqs.filterMap fun seq => (s.inFlight seq).bind (judge seq)
  queue : ∀ b, s'.queue.buffer b =
    s.queue.buffer b ++ (retried outs).filter fun c => c.priority.buffer = b
  rest : s' = { s with inFlight := s'.inFlight, queue := s'.queue }

/-- The iteration comes to every entry that is there at its start. -/
def Covers (order : List UInt8) (s : Session) : Prop :=
  ∀ seq entry, s.inFlight seq = some entry → seq ∈ order

section loop

variable {policy : Command → DeliveryPolicy} {now : Time} {s s' : Session}

/-- The loop's decision about the entry under a key. -/
def Session.judge (policy : Command → DeliveryPolicy) (now : Time) (s : Session) (seq : UInt8) :
    Option InFlightOutcome :=
  (s.inFlight seq).bind fun e => inFlightOutcome (policy e.command) now seq e

/-- One round of the loop. -/
theorem Session.visitInFlight_cases (policy : Command → DeliveryPolicy) (now : Time)
    (seq : UInt8) (s : Session) :
    (s.judge policy now seq = none ∧ s.visitInFlight policy now seq = (s, none)) ∨
      ∃ out, s.judge policy now seq = some out ∧
        s.visitInFlight policy now seq =
          ({ s with
            inFlight := Function.update s.inFlight seq none
            queue := (retried [out]).foldl ControllerQueue.push s.queue }, some out) := by
  unfold Session.judge Session.visitInFlight
  cases hentry : s.inFlight seq with
  | none => exact .inl ⟨rfl, rfl⟩
  | some entry =>
      cases hout : inFlightOutcome (policy entry.command) now seq entry with
      | none => exact .inl ⟨hout, by simp only [hout]⟩
      | some out =>
          refine .inr ⟨out, hout, ?_⟩
          simp only [hout]
          cases htype : out.type <;> simp [retried, htype]

theorem retried_append (outs outs' : List InFlightOutcome) :
    retried (outs ++ outs') = retried outs ++ retried outs' := by
  simp [retried]

/-- What the loop does with any list of keys, also with one that has repetitions. -/
structure Processed (policy : Command → DeliveryPolicy) (now : Time) (order : List UInt8)
    (s s' : Session) (outs : List InFlightOutcome) : Prop where
  table : ∀ seq, s'.inFlight seq =
    if seq ∈ order ∧ (s.judge policy now seq).isSome then none else s.inFlight seq
  outcomes : outs ~
    allSeqs.filterMap fun seq => if seq ∈ order then s.judge policy now seq else none
  queue : s'.queue = (retried outs).foldl ControllerQueue.push s.queue
  rest : s' = { s with inFlight := s'.inFlight, queue := s'.queue }

theorem Processed.nil (s : Session) : Processed policy now [] s s [] :=
  ⟨by simp, by simp, rfl, rfl⟩

/-- A key without an outcome changes nothing. -/
theorem Processed.skip {seq : UInt8} {order : List UInt8} {outs : List InFlightOutcome}
    (hnone : s.judge policy now seq = none) (h : Processed policy now order s s' outs) :
    Processed policy now (seq :: order) s s' outs := by
  have hmem : ∀ k, (if k ∈ seq :: order then s.judge policy now k else none) =
      if k ∈ order then s.judge policy now k else none := by
    intro k
    by_cases hk : k = seq
    · simp [hk, hnone]
    · simp [hk]
  refine ⟨fun k => ?_, by simpa only [hmem] using h.outcomes, h.queue, h.rest⟩
  rw [h.table]
  by_cases hk : k = seq
  · simp [hk, hnone]
  · simp [hk]

/-- An entry is taken out; its key is free from then on. -/
theorem Processed.cons {seq : UInt8} {order : List UInt8} {out : InFlightOutcome}
    {outs : List InFlightOutcome} {s₁ : Session} (hsome : s.judge policy now seq = some out)
    (hs₁ : s₁ = { s with
      inFlight := Function.update s.inFlight seq none
      queue := (retried [out]).foldl ControllerQueue.push s.queue })
    (h : Processed policy now order s₁ s' outs) :
    Processed policy now (seq :: order) s s' (out :: outs) := by
  have hfree : s₁.judge policy now seq = none := by simp [hs₁, Session.judge]
  have hother : ∀ k, k ≠ seq → s₁.judge policy now k = s.judge policy now k := by
    intro k hk
    simp [hs₁, Session.judge, hk]
  refine ⟨fun k => ?_, ?_, ?_, ?_⟩
  · have htable : s₁.inFlight = Function.update s.inFlight seq none := by rw [hs₁]
    rw [h.table, htable]
    by_cases hk : k = seq
    · simp [hk, hsome]
    · simp [hk, hother k hk]
  · -- the outcome stands where its key is in the table
    let after k := if k ∈ order then s₁.judge policy now k else none
    have hafter : Function.update after seq none = after :=
      Function.update_eq_self_iff.mpr (by simp [after, hfree])
    have hbefore : (fun k => if k ∈ seq :: order then s.judge policy now k else none) =
        Function.update after seq (some out) := by
      funext k
      by_cases hk : k = seq
      · simp [hk, hsome]
      · simp [after, hk, hother k hk]
    have hperm := filterMap_update_perm after seq (some out)
    rw [hafter] at hperm
    rw [hbefore]
    exact ((h.outcomes.cons out).trans hperm.symm)
  · rw [h.queue, hs₁, ← foldl_append, ← retried_append]
    rfl
  · rw [h.rest, hs₁]

/-- The whole loop. -/
theorem Session.processInFlight_spec (policy : Command → DeliveryPolicy) (now : Time)
    (order : List UInt8) (s : Session) :
    Processed policy now order s (s.processInFlight policy now order).1
      (s.processInFlight policy now order).2 := by
  induction order generalizing s with
  | nil => exact .nil s
  | cons seq order ih =>
      rw [Session.processInFlight]
      rcases s.visitInFlight_cases policy now seq with ⟨hnone, hvisit⟩ | ⟨out, hsome, hvisit⟩
      · rw [hvisit]
        exact .skip hnone (ih s)
      · rw [hvisit]
        exact .cons hsome rfl (ih _)

/-- If the iteration comes to every entry, its order does not matter. -/
theorem Processed.partitions {order : List UInt8} {outs : List InFlightOutcome}
    (h : Processed policy now order s s' outs) (hcovers : Covers order s) :
    Partitions (fun seq e => inFlightOutcome (policy e.command) now seq e) s s' outs := by
  have hmem : ∀ seq, (if seq ∈ order then s.judge policy now seq else none) =
      s.judge policy now seq := by
    intro seq
    split
    · rfl
    · rename_i hseq
      cases hentry : s.inFlight seq with
      | none => simp [Session.judge, hentry]
      | some entry => exact absurd (hcovers seq entry hentry) hseq
  refine ⟨fun seq => ?_, ?_, fun b => ?_, h.rest⟩
  · rw [h.table]
    cases hentry : s.inFlight seq with
    | none => simp
    | some entry =>
        have hseq := hcovers seq entry hentry
        cases hout : inFlightOutcome (policy entry.command) now seq entry with
        | none => simp [Session.judge, hentry, hout, Option.filter]
        | some out => simp [Session.judge, hentry, hout, hseq, Option.filter]
  · have houtcomes := h.outcomes
    simp only [hmem] at houtcomes
    exact houtcomes
  · rw [h.queue, ControllerQueue.foldl_push_buffer]

/-- Two ways to judge the entries that agree with one run of the loop agree on every entry. -/
theorem Partitions.judge_eq {judge judge' : UInt8 → InFlightEntry → Option InFlightOutcome}
    {outs : List InFlightOutcome} (h : Partitions judge s s' outs)
    (h' : Partitions judge' s s' outs)
    (hkey : ∀ seq e out, judge seq e = some out → out.seq = seq)
    (hkey' : ∀ seq e out, judge' seq e = some out → out.seq = seq) {seq : UInt8}
    {entry : InFlightEntry} (hentry : s.inFlight seq = some entry) :
    judge seq entry = judge' seq entry := by
  have htable := (h.table seq).symm.trans (h'.table seq)
  cases hj : judge seq entry with
  | none =>
      cases hj' : judge' seq entry with
      | none => rfl
      | some out => simp [hentry, hj, hj', Option.filter] at htable
  | some out =>
      have hmem : out ∈ outs := h.outcomes.mem_iff.mpr
        (mem_filterMap.mpr ⟨seq, mem_allSeqs seq, by rw [hentry]; exact hj⟩)
      obtain ⟨seq', -, hout⟩ := mem_filterMap.mp (h'.outcomes.mem_iff.mp hmem)
      obtain ⟨entry', hentry', hout⟩ := Option.bind_eq_some_iff.mp hout
      obtain rfl : seq' = seq := (hkey' _ _ _ hout).symm.trans (hkey _ _ _ hj)
      obtain rfl : entry = entry' := Option.some.inj (hentry.symm.trans hentry')
      exact hout.symm

theorem Partitions.congr {judge judge' : UInt8 → InFlightEntry → Option InFlightOutcome}
    {outs : List InFlightOutcome} (h : Partitions judge s s' outs)
    (heq : ∀ seq e, s.inFlight seq = some e → judge seq e = judge' seq e) :
    Partitions judge' s s' outs := by
  refine ⟨fun seq => ?_, ?_, h.queue, h.rest⟩
  · rw [h.table]
    cases hentry : s.inFlight seq with
    | none => rfl
    | some e => simp only [Option.filter, heq seq e hentry]
  · refine h.outcomes.trans (Perm.of_eq (filterMap_congr fun seq _ => ?_))
    cases hentry : s.inFlight seq with
    | none => rfl
    | some e => exact heq seq e hentry

theorem dueOutcome_seq {policy : DeliveryPolicy} {seq : UInt8} {entry : InFlightEntry}
    {out : InFlightOutcome} (h : dueOutcome policy now seq entry = some out) : out.seq = seq := by
  rw [dueOutcome] at h
  split at h
  · cases h
  · obtain rfl := Option.some.inj h
    rw [verdict]
    split
    · rfl
    · split <;> rfl

theorem allSeqs_covers (s : Session) : Covers allSeqs s :=
  fun seq _ _ => mem_allSeqs seq

/-- What the loop should do, in whatever order the iteration comes to the entries. -/
structure OrderFree (policy : Command → DeliveryPolicy) (now : Time) (s : Session) : Prop where
  partitions : ∀ order, Covers order s →
    Partitions (fun seq e => dueOutcome (policy e.command) now seq e) s
      (s.processInFlight policy now order).1 (s.processInFlight policy now order).2
  late : ∀ order, ∀ out ∈ (s.processInFlight policy now order).2, ∃ entry,
    s.inFlight out.seq = some entry ∧ entry.sentAt + ackTimeout (policy entry.command) ≤ now
  table : ∀ order order', Covers order s → Covers order' s →
    (s.processInFlight policy now order).1.inFlight =
      (s.processInFlight policy now order').1.inFlight
  outcomes : ∀ order order', Covers order s → Covers order' s →
    (s.processInFlight policy now order).2 ~ (s.processInFlight policy now order').2
  retried : ∀ order order', Covers order s → Covers order' s →
    retried (s.processInFlight policy now order).2 ~
      retried (s.processInFlight policy now order').2

/-- No outcome comes before the acknowledgement timeout. -/
theorem late_of_outcome (hrange : ∀ seq e, s.inFlight seq = some e → InRange (policy e.command) e)
    (order : List UInt8) : ∀ out ∈ (s.processInFlight policy now order).2, ∃ entry,
      s.inFlight out.seq = some entry ∧ entry.sentAt + ackTimeout (policy entry.command) ≤ now := by
  intro out hmem
  have hout := (s.processInFlight_spec policy now order).outcomes.mem_iff.mp hmem
  obtain ⟨seq, -, hout⟩ := mem_filterMap.mp hout
  split at hout
  · obtain ⟨entry, hentry, hout⟩ := Option.bind_eq_some_iff.mp hout
    obtain rfl := inFlightOutcome_seq hout
    refine ⟨entry, hentry, ?_⟩
    have hle := ackTimeout_le_fullWait (policy entry.command) entry
    rw [(hrange _ _ hentry).inFlightOutcome_eq] at hout
    split at hout
    · cases hout
    · rename_i hdue
      exact Int.le_trans (Int.add_le_add_left hle _) (Int.not_lt.mp hdue)
  · cases hout

/-- `ProcessInFlight` does to every entry what it should, in whatever order it comes to them,
unless the limit on the attempts of an entry that is to be retried overflows. -/
theorem processInFlight_orderFree_iff (resolver : Option (Command → DeliveryPolicy)) (now : Time)
    (s : Session)
    (hrange : ∀ seq e, s.inFlight seq = some e → InRange (resolvePolicy resolver e.command) e) :
    OrderFree (resolvePolicy resolver) now s ↔
      ∀ seq e, s.inFlight seq = some e → LimitFits (resolvePolicy resolver e.command) now e := by
  have hdone := fun order (hcovers : Covers order s) =>
    (s.processInFlight_spec (resolvePolicy resolver) now order).partitions hcovers
  have hsame : ∀ order order', Covers order s → Covers order' s →
      (s.processInFlight (resolvePolicy resolver) now order).2 ~
        (s.processInFlight (resolvePolicy resolver) now order').2 :=
    fun order order' h h' => (hdone order h).outcomes.trans (hdone order' h').outcomes.symm
  constructor
  · intro h seq e he
    have heq := (hdone allSeqs (allSeqs_covers s)).judge_eq (h.partitions _ (allSeqs_covers s))
      (fun _ _ _ => inFlightOutcome_seq) (fun _ _ _ => dueOutcome_seq) he
    exact (inFlightOutcome_eq_iff (hrange seq e he)).mp heq
  · intro h
    have heq : ∀ seq e, s.inFlight seq = some e →
        inFlightOutcome (resolvePolicy resolver e.command) now seq e =
          dueOutcome (resolvePolicy resolver e.command) now seq e :=
      fun seq e he => (inFlightOutcome_eq_iff (hrange seq e he)).mpr (h seq e he)
    refine ⟨fun order hcovers => (hdone order hcovers).congr heq, late_of_outcome hrange,
      fun order order' ho ho' => funext fun seq => ?_, hsame,
      fun order order' ho ho' => ((hsame order order' ho ho').filter _).map _⟩
    rw [(hdone order ho).table, (hdone order' ho').table]

end loop

/-- A session with one command in flight, which was sent once, at time zero. -/
def sentOnce : Session :=
  { Session.new "c" none 0 with
    inFlight := Function.update (fun _ => none) 1 (some ⟨1, { commandID := 9 }, 0, 1⟩) }

theorem sentOnce_entry {P : UInt8 → InFlightEntry → Prop} (h : P 1 ⟨1, { commandID := 9 }, 0, 1⟩) :
    ∀ seq e, sentOnce.inFlight seq = some e → P seq e := by
  intro seq e he
  by_cases hseq : seq = 1
  · subst hseq
    cases he
    exact h
  · simp [sentOnce, Session.new, hseq] at he

theorem default_policy_orderFree :
    (∀ seq e, sentOnce.inFlight seq = some e → InRange (resolvePolicy none e.command) e) ∧
      OrderFree (resolvePolicy none) (10 * second) sentOnce := by
  have hrange : ∀ seq e, sentOnce.inFlight seq = some e →
      InRange (resolvePolicy none e.command) e :=
    sentOnce_entry ⟨by decide, by decide, by decide⟩
  exact ⟨hrange, (processInFlight_orderFree_iff none (10 * second) sentOnce hrange).mpr
    (sentOnce_entry fun _ _ _ => by decide)⟩

def endlessRetries : Option (Command → DeliveryPolicy) :=
  some fun _ => ⟨second, 0, 2 ^ 63 - 1⟩

/-- The policy allows as many retries as can be counted, and the command fails after it was sent
once. -/
theorem endless_retries_fail :
    (sentOnce.processInFlight (resolvePolicy endlessRetries) (10 * second) [1]).2.map
        InFlightOutcome.type = [.failed] ∧
      ¬ OrderFree (resolvePolicy endlessRetries) (10 * second) sentOnce := by
  refine ⟨by decide +kernel, fun h => ?_⟩
  have hcovers : Covers [1] sentOnce := sentOnce_entry List.mem_cons_self
  have htypes := (h.partitions [1] hcovers).outcomes.map InFlightOutcome.type
  revert htypes
  decide +kernel

end TcpAdapter.Manager
