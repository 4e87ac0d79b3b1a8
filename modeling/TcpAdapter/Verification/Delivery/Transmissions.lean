import TcpAdapter.Verification.Delivery.Stock

/-! # How often a command is sent

The attempts of a command travel with it: from the queue into the hands of the flush, from
there into the in-flight table, and back to the queue when the command times out. At every
place they say how often the command was written, so that a command is not put back once it
has used up the retries of its policy. -/

namespace TcpAdapter.Delivery

open TcpAdapter.Concurrent TcpAdapter.Queue TcpAdapter.Protocol TcpAdapter.Manager
open TcpAdapter.Policy

/-! ## The policy of a command -/

theorem mergeDeliveryPolicy_maxRetries {base specific : DeliveryPolicy} (h : 0 ≤ base.maxRetries) :
    0 ≤ (mergeDeliveryPolicy base specific).maxRetries := by
  unfold mergeDeliveryPolicy
  split
  · exact h
  · dsimp only
    split
    · assumption
    · exact h

theorem deliveryPolicy_maxRetries (cfg : Config) (cmd : Command) :
    0 ≤ (deliveryPolicyForCommand cfg cmd).maxRetries := by
  have hbase : (0 : Int) ≤ if cfg.maxRetries < 0 then 0 else cfg.maxRetries := by
    split <;> omega
  unfold deliveryPolicyForCommand
  dsimp only
  split
  · exact mergeDeliveryPolicy_maxRetries hbase
  · split
    · exact mergeDeliveryPolicy_maxRetries hbase
    · split
      · exact mergeDeliveryPolicy_maxRetries hbase
      · exact hbase

theorem retryLimit_eq (cfg : Config) (cmd : Command) :
    retryLimit (deliveryPolicyForCommand cfg cmd) =
      (deliveryPolicyForCommand cfg cmd).maxRetries :=
  if_neg (deliveryPolicy_maxRetries cfg cmd).not_gt

/-- What delivery changes about a command does not change its policy. -/
theorem deliveryPolicy_core (cfg : Config) (cmd : Command) :
    deliveryPolicyForCommand cfg cmd.core = deliveryPolicyForCommand cfg cmd := rfl

/-! ## Counting transmissions -/

/-- The entry writes a frame of the command with the ticket. -/
def sends (t : ℕ) : Entry sig → Bool
  | .did _ (.transmit _ _ cmd _) none => cmd.ticket = t
  | _ => false

/-- How often the command with the ticket was written to the controller. -/
def timesSent (trace : List (Entry sig)) (t : ℕ) : ℕ :=
  trace.countP (sends t)

/-- The entry enqueues the command under the ticket. -/
def enters (t : ℕ) (cmd : Command) : Entry sig → Bool
  | .did _ (.pushNew new) ticket => ticket = t ∧ new = cmd
  | _ => false

def EnqueuedAs (trace : List (Entry sig)) (t : ℕ) (cmd : Command) : Prop :=
  ∃ e ∈ trace, enters t cmd e

instance (trace : List (Entry sig)) (t : ℕ) (cmd : Command) : Decidable (EnqueuedAs trace t cmd) :=
  inferInstanceAs (Decidable (∃ e ∈ trace, enters t cmd e))

theorem enqueued_cons {e : Entry sig} {trace : List (Entry sig)} {t : ℕ} {cmd : Command} :
    EnqueuedAs (e :: trace) t cmd ↔ enters t cmd e ∨ EnqueuedAs trace t cmd :=
  List.exists_mem_cons_iff _ _ _

theorem not_enqueued_nil (t : ℕ) (cmd : Command) : ¬ EnqueuedAs [] t cmd :=
  fun ⟨_, hmem, _⟩ => List.not_mem_nil hmem

theorem timesSent_cons (e : Entry sig) (trace : List (Entry sig)) (t : ℕ) :
    timesSent (e :: trace) t = timesSent trace t + if sends t e then 1 else 0 :=
  List.countP_cons

theorem timesSent_cons_of_not {e : Entry sig} {t : ℕ} (h : sends t e = false)
    (trace : List (Entry sig)) : timesSent (e :: trace) t = timesSent trace t := by
  simp [timesSent_cons, h]

section exec

variable {cfg : Config} {id : String} {tid : ℕ} {w w' : World} {inp : Input} {a : Act}
  {r : a.Res}

theorem sends_of_ne (ha : ∀ conn bytes cmd seq, a ≠ .transmit conn bytes cmd seq) (t : ℕ) :
    sends t (.did tid a r) = false := by
  unfold sends
  split
  · rename_i heq
    cases heq
    exact absurd rfl (ha _ _ _ _)
  · rfl

/-- A command is enqueued under the next ticket. -/
theorem enters_ticket {t : ℕ} {cmd : Command} (h : exec cfg id tid w a inp = some (w', r))
    (he : enters t cmd (.did tid a r)) : a = .pushNew cmd ∧ t = w.tickets := by
  cases a with
  | pushNew new =>
      obtain ⟨rfl, rfl⟩ := of_decide_eq_true he
      cases h
      exact ⟨rfl, rfl⟩
  | _ => cases he

/-- `ProcessInFlight` puts back none but a command with retries left. -/
theorem exec_visit_retrying {seq : UInt8} {now : Time} {out : InFlightOutcome}
    (h : exec cfg id tid w (.visitInFlight seq now) inp = some (w', some out))
    (htype : out.type = .retrying) :
    ∃ entry, w.inFlight seq = some entry ∧ out.seq = seq ∧
      out.command = { entry.command with attempts := entry.attempts, retrySeq := seq } ∧
      entry.attempts ≤ (deliveryPolicyForCommand cfg entry.command).maxRetries := by
  have heq := Option.some.inj h
  simp only [execVisit] at heq
  split at heq
  · cases heq
  · rename_i s hs
    have hslot : w.slot.session = some s := hs
    split at heq
    · cases heq
    · rename_i s' out' hvisit
      obtain ⟨entry, hentry, hout, -⟩ := Session.visitInFlight_some hvisit
      obtain rfl : out' = out := by
        split at heq <;> cases heq <;> rfl
      rcases inFlightOutcome_some hout with ⟨-, hseq, hcmd, hleft⟩ | ⟨hother, -⟩
      · rw [retryLimit_eq] at hleft
        exact ⟨entry, by simp [Slot.inFlight, hslot, hentry], hseq, hcmd, hleft⟩
      · exact absurd htype hother

/-- Tickets that were given out before are not given out again. -/
theorem enqueued_before {t : ℕ} {cmd : Command} {trace : List (Entry sig)}
    (h : exec cfg id tid w a inp = some (w', r)) (hgiven : t < w.tickets)
    (he : EnqueuedAs (.did tid a r :: trace) t cmd) : EnqueuedAs trace t cmd := by
  rcases enqueued_cons.mp he with hnew | hold
  · exact absurd (enters_ticket h hnew).2 hgiven.ne
  · exact hold

end exec

/-! ## What the attempts say -/

/-- If the command was enqueued without attempts, it was sent `n` times, and that is at most `k`
more than its retries. -/
structure Tally (cfg : Config) (w : World) (trace : List (Entry sig)) (cmd : Command)
    (n k : Int) : Prop where
  given : cmd.ticket < w.tickets
  policy : ∀ o, EnqueuedAs trace cmd.ticket o →
    deliveryPolicyForCommand cfg cmd = deliveryPolicyForCommand cfg o
  count : ∀ o, EnqueuedAs trace cmd.ticket o → o.attempts = 0 →
    (timesSent trace cmd.ticket : Int) = n ∧
      n ≤ (deliveryPolicyForCommand cfg o).maxRetries + k

/-- A command that waits to be sent. -/
def Pending (cfg : Config) (w : World) (trace : List (Entry sig)) (cmd : Command) : Prop :=
  Tally cfg w trace cmd cmd.attempts 0

/-- A command that the flush has written. -/
def Written (cfg : Config) (w : World) (trace : List (Entry sig)) (v : Courier) : Prop :=
  ∀ cmd, v.current = some cmd → Tally cfg w trace cmd (cmd.attempts + 1) 1

/-- The attempts of what is queued or in flight, and how often commands were sent. -/
structure Tallied (cfg : Config) (w : World) (trace : List (Entry sig)) : Prop where
  entered : ∀ t o, EnqueuedAs trace t o → t < w.tickets
  sent : ∀ t, 0 < timesSent trace t → t < w.tickets
  queued : ∀ cmd ∈ w.queued, Pending cfg w trace cmd
  flying : ∀ seq entry, w.inFlight seq = some entry →
    Tally cfg w trace entry.command entry.attempts 1
  bounded : ∀ t o, EnqueuedAs trace t o → o.attempts = 0 →
    (timesSent trace t : Int) ≤ (deliveryPolicyForCommand cfg o).maxRetries + 1

/-- What the running flush has in its hands. -/
structure Carried (cfg : Config) (trace : List (Entry sig)) (w : World) (v : Courier) : Prop
    extends Ticketed w v where
  has : v.Has (Pending cfg w trace) (Written cfg w trace)

theorem Tallied.initial (cfg : Config) : Tallied cfg {} [] where
  entered t o h := absurd h (not_enqueued_nil t o)
  sent t h := absurd h (Nat.lt_irrefl 0)
  queued cmd h := absurd h (Multiset.notMem_zero cmd)
  flying seq entry h := by cases h
  bounded t o h := absurd h (not_enqueued_nil t o)

theorem Carried.initial (cfg : Config) : Carried cfg [] {} {} :=
  ⟨.initial, .nothing _ _ false⟩

section exec

variable {cfg : Config} {id : String} {tid : ℕ} {w w' : World} {inp : Input} {a : Act}
  {r : a.Res} {v v' : Courier} {trace : List (Entry sig)} {cmd : Command} {n k : Int}

theorem Tally.congr {cmd' : Command} (ht : Tally cfg w trace cmd n k)
    (hcore : cmd'.core = cmd.core) : Tally cfg w trace cmd' n k := by
  have hticket : cmd'.ticket = cmd.ticket := by
    rw [← Command.core_ticket, hcore, Command.core_ticket]
  have hpolicy : deliveryPolicyForCommand cfg cmd' = deliveryPolicyForCommand cfg cmd := by
    rw [← deliveryPolicy_core, hcore, deliveryPolicy_core]
  refine ⟨hticket ▸ ht.given, ?_, ?_⟩
  · rw [hticket, hpolicy]
    exact ht.policy
  · rw [hticket]
    exact ht.count

/-- An action that does not send the command. -/
theorem Tally.step (ht : Tally cfg w trace cmd n k)
    (hsends : sends cmd.ticket (.did tid a r) = false)
    (h : exec cfg id tid w a inp = some (w', r)) :
    Tally cfg w' (.did tid a r :: trace) cmd n k where
  given := ht.given.trans_le (tickets_le h)
  policy o ho := ht.policy o (enqueued_before h ht.given ho)
  count o ho hzero := by
    rw [timesSent_cons_of_not hsends]
    exact ht.count o (enqueued_before h ht.given ho) hzero

/-- The next ticket has not been sent. -/
theorem Tallied.unsent (hs : Tallied cfg w trace) : timesSent trace w.tickets = 0 := by
  by_contra hpos
  exact absurd (hs.sent _ (Nat.pos_of_ne_zero hpos)) (Nat.lt_irrefl _)

/-- A command that was just enqueued waits to be sent. -/
theorem Tallied.admitted {r : ℕ} (hs : Tallied cfg w trace)
    (h : exec cfg id tid w (.pushNew cmd) inp = some (w', r)) :
    Pending cfg w' (.did tid (.pushNew cmd) r :: trace) { cmd with ticket := w.tickets } := by
  have horigin : ∀ o, EnqueuedAs (.did tid (.pushNew cmd) r :: trace) w.tickets o → o = cmd := by
    intro o ho
    rcases enqueued_cons.mp ho with hnew | hold
    · exact (of_decide_eq_true hnew).2.symm
    · exact absurd (hs.entered _ _ hold) (Nat.lt_irrefl _)
  have hnone := hs.unsent
  cases h
  refine ⟨Nat.lt_succ_self _, fun o ho => ?_, fun o ho hzero => ?_⟩
  · rw [horigin o ho]
    rfl
  · obtain rfl := horigin o ho
    have hretries := deliveryPolicy_maxRetries cfg o
    rw [timesSent_cons_of_not rfl, hnone]
    dsimp only
    rw [hzero]
    exact ⟨rfl, by simpa using hretries⟩

/-- What goes back to the queue after a timeout may be sent again. -/
theorem Tally.retried {entry : InFlightEntry}
    (ht : Tally cfg w trace entry.command entry.attempts 1) (seq : UInt8)
    (hleft : entry.attempts ≤ (deliveryPolicyForCommand cfg entry.command).maxRetries) :
    Pending cfg w trace { entry.command with attempts := entry.attempts, retrySeq := seq } := by
  refine ⟨ht.given, ht.policy, fun o ho hzero => ⟨(ht.count o ho hzero).1, ?_⟩⟩
  rw [← ht.policy o ho, Int.add_zero]
  exact hleft

theorem Tallied.queued_step (hs : Tallied cfg w trace)
    (hsends : ∀ t, sends t (.did tid a r) = false)
    (hpush : ∀ cmd, a = .push cmd → Pending cfg w trace cmd)
    (h : exec cfg id tid w a inp = some (w', r)) :
    ∀ cmd ∈ w'.queued, Pending cfg w' (.did tid a r :: trace) cmd := by
  intro cmd hmem
  have hkeep : Pending cfg w trace cmd → Pending cfg w' (.did tid a r :: trace) cmd :=
    fun hcmd => Tally.step hcmd (hsends _) h
  rcases (exec_queueMove h).mem_snapshot hmem with
    hold | hback | ⟨new, rfl, rfl⟩ | ⟨seq, now, entry, rfl, hentry, rfl⟩
  · exact hkeep (hs.queued cmd hold)
  · exact hkeep (hpush cmd hback)
  · exact hs.admitted h
  · cases r with
    | none =>
        rcases exec_visitInFlight h with ⟨-, rfl⟩ | ⟨entry', out, hout, -⟩
        · exact hkeep (hs.queued _ hmem)
        · cases hout
    | some out =>
        by_cases htype : out.type = .retrying
        · obtain ⟨entry', hentry', -, -, hleft⟩ := exec_visit_retrying h htype
          obtain rfl : entry' = entry := Option.some.inj (hentry'.symm.trans hentry)
          exact hkeep ((hs.flying seq entry' hentry).retried seq hleft)
        · rcases exec_visitInFlight h with
            ⟨hout, -⟩ | ⟨entry', out', hout, ⟨hretry, -⟩ | ⟨-, -, htaken⟩⟩
          · cases hout
          · cases hout
            exact absurd hretry htype
          · rw [World.queued, htaken.queue] at hmem
            exact hkeep (hs.queued _ hmem)

/-- An action that sends nothing. -/
theorem Tallied.step (hs : Tallied cfg w trace)
    (hsends : ∀ t, sends t (.did tid a r) = false)
    (hpush : ∀ cmd, a = .push cmd → Pending cfg w trace cmd)
    (hregister : ∀ seq cmd sentAt, a = .registerInFlight seq cmd sentAt →
      Tally cfg w trace cmd (cmd.attempts + 1) 1)
    (h : exec cfg id tid w a inp = some (w', r)) : Tallied cfg w' (.did tid a r :: trace) where
  entered t o ho := by
    rcases enqueued_cons.mp ho with hnew | hold
    · obtain ⟨rfl, rfl⟩ := enters_ticket h hnew
      cases h
      exact Nat.lt_succ_self _
    · exact (hs.entered t o hold).trans_le (tickets_le h)
  sent t ht := by
    rw [timesSent_cons_of_not (hsends t)] at ht
    exact (hs.sent t ht).trans_le (tickets_le h)
  queued := hs.queued_step hsends hpush h
  flying seq entry hentry := by
    rcases exec_inFlight_some h hentry with hold | ⟨cmd, sentAt, rfl, rfl⟩
    · exact (hs.flying seq entry hold).step (hsends _) h
    · exact (hregister seq cmd sentAt rfl).step (hsends _) h
  bounded t o ho hzero := by
    rw [timesSent_cons_of_not (hsends t)]
    rcases enqueued_cons.mp ho with hnew | hold
    · obtain ⟨-, rfl⟩ := enters_ticket h hnew
      have hnone := hs.unsent
      have hretries := deliveryPolicy_maxRetries cfg o
      omega
    · exact hs.bounded t o hold hzero

/-- The hands of a flush after an action that sends nothing. -/
theorem Carried.step (hticketed : Ticketed w' v')
    (hv' : v'.Has (Pending cfg w trace) (Written cfg w trace))
    (hsends : ∀ t, sends t (.did tid a r) = false)
    (h : exec cfg id tid w a inp = some (w', r)) : Carried cfg (.did tid a r :: trace) w' v' := by
  refine ⟨hticketed, hv'.mono ?_ ?_⟩
  · intro cmd hcmd
    exact Tally.step hcmd (hsends _) h
  · intro hwritten cmd hcmd
    exact (hwritten cmd hcmd).step (hsends _) h

/-! ### A write -/

section transmit

variable {conn : ConnID} {bytes : List UInt8} {seq : UInt8} {orig : Command}

theorem sends_transmit {t : ℕ} (ht : t ≠ orig.ticket) :
    sends t (.did tid (.transmit conn bytes orig.unnumbered seq) none) = false :=
  decide_eq_false ht.symm

/-- The command at hand has been sent once more. -/
theorem Tally.sent (hw : Pending cfg w trace orig)
    (h : exec cfg id tid w (.transmit conn bytes orig.unnumbered seq) inp = some (w', none)) :
    Tally cfg w' (.did tid (.transmit conn bytes orig.unnumbered seq) none :: trace) orig
      (orig.attempts + 1) 1 where
  given := hw.given.trans_le (tickets_le h)
  policy o ho := hw.policy o (enqueued_before h hw.given ho)
  count o ho hzero := by
    obtain ⟨hcount, hle⟩ := hw.count o (enqueued_before h hw.given ho) hzero
    have hsends : sends orig.ticket (.did tid (.transmit conn bytes orig.unnumbered seq) none) =
        true := decide_eq_true rfl
    rw [timesSent_cons, if_pos hsends]
    omega

theorem Tallied.transmit (hs : Tallied cfg w trace) (hc : Carried cfg trace w v)
    (horig : v.current = some orig) (hwrote : v.wrote = none)
    (h : exec cfg id tid w (.transmit conn bytes orig.unnumbered seq) inp = some (w', none)) :
    Tallied cfg w' (.did tid (.transmit conn bytes orig.unnumbered seq) none :: trace) := by
  have hwaits : Pending cfg w trace orig := hc.has.current orig horig hwrote
  have hsent := Tally.sent hwaits h
  have hold : ∀ {t o},
      EnqueuedAs (.did tid (.transmit conn bytes orig.unnumbered seq) none :: trace) t o →
        EnqueuedAs trace t o :=
    fun ho => (enqueued_cons.mp ho).resolve_left Bool.false_ne_true
  refine
    { entered := fun t o ho => (hs.entered t o (hold ho)).trans_le (tickets_le h)
      sent := fun t ht => ?_
      queued := fun cmd hmem => ?_
      flying := fun seq entry hentry => ?_
      bounded := fun t o ho hzero => ?_ }
  · by_cases heq : t = orig.ticket
    · exact heq ▸ hsent.given
    · rw [timesSent_cons_of_not (sends_transmit heq)] at ht
      exact (hs.sent t ht).trans_le (tickets_le h)
  · rw [World.queued, (exec_commands rfl h).1] at hmem
    have hshelf : cmd ∈ w.shelf := Multiset.mem_add.mpr (.inl hmem)
    have helse := hc.elsewhere horig (Multiset.mem_add.mpr (.inl hshelf))
    exact Tally.step (hs.queued cmd hmem) (sends_transmit helse) h
  · rw [exec_inFlight rfl h] at hentry
    have hshelf : entry.command ∈ w.shelf := Multiset.mem_add.mpr (.inr (mem_flying hentry))
    have helse := hc.elsewhere horig (Multiset.mem_add.mpr (.inl hshelf))
    exact (hs.flying seq entry hentry).step (sends_transmit helse) h
  · by_cases heq : t = orig.ticket
    · subst heq
      obtain ⟨hcount, hle⟩ := hsent.count o ho hzero
      exact hcount.trans_le hle
    · rw [timesSent_cons_of_not (sends_transmit heq)]
      exact hs.bounded t o (hold ho) hzero

theorem Carried.transmit (hc : Carried cfg trace w v) (horig : v.current = some orig)
    (hwrote : v.wrote = none)
    (h : exec cfg id tid w (.transmit conn bytes orig.unnumbered seq) inp = some (w', none)) :
    Carried cfg (.did tid (.transmit conn bytes orig.unnumbered seq) none :: trace) w'
      (v.after (.transmit conn bytes orig.unnumbered seq) none) where
  toTicketed := hc.toTicketed.step ((congrArg _ (stock_transmit v h)).le.trans
    (Multiset.map_le_map (Multiset.le_add_right _ _))) h
  has := by
    refine ⟨fun cmd hmem => ?_, nofun, fun _ cmd hcmd => ?_⟩
    · have helse := hc.elsewhere horig (Multiset.mem_add.mpr (.inr hmem))
      exact Tally.step (hc.has.skipped cmd hmem) (sends_transmit helse) h
    · obtain rfl : orig = cmd := Option.some.inj (horig.symm.trans hcmd)
      exact Tally.sent (hc.has.current orig horig hwrote) h

end transmit

/-! ### Own moves and moves of the others -/

/-- Whoever moves commands or writes them flushes. -/
theorem Courier.flushing_of_may (hoff : v.flushing = false → v = {}) (hmay : v.May a)
    (ha : a.carries = true ∨ ∃ conn bytes cmd seq, a = .transmit conn bytes cmd seq) :
    v.flushing = true := by
  by_contra hon
  rw [hoff (Bool.eq_false_iff.mpr hon)] at hmay
  obtain ⟨hcarries, hwrites⟩ := Courier.may_idle hmay
  rcases ha with htrue | ⟨conn, bytes, cmd, seq, heq⟩
  · rw [hcarries] at htrue
    cases htrue
  · exact hwrites conn bytes cmd seq heq

/-- What the flush puts back waits to be sent. -/
theorem Carried.putBack (hc : Carried cfg trace w v) (hmay : v.May (.push cmd)) :
    Pending cfg w trace cmd := by
  obtain ⟨hwrote, hmem | ⟨-, orig, conn, mode, horig, rfl, -, -⟩⟩ := hmay
  · exact hc.has.hands hwrote cmd hmem
  · exact Tally.congr (hc.has.current orig horig hwrote) rfl

theorem Carried.registered {seq : UInt8} {sentAt : Time} (hc : Carried cfg trace w v)
    (hmay : v.May (.registerInFlight seq cmd sentAt)) :
    Tally cfg w trace cmd (cmd.attempts + 1) 1 := by
  obtain ⟨⟨⟨orig, horig, rfl⟩, -⟩, hwrote⟩ := hmay
  exact (hc.has.wrote (Option.isSome_iff_ne_none.mp hwrote) orig horig).congr rfl

theorem Tallied.own (hs : Tallied cfg w trace) (hoff : v.flushing = false → v = {})
    (hk : v.flushing = true → Carried cfg trace w v) (hmay : v.May a)
    (h : exec cfg id tid w a inp = some (w', r)) : Tallied cfg w' (.did tid a r :: trace) := by
  have hstep : (∀ t, sends t (.did tid a r) = false) → Tallied cfg w' (.did tid a r :: trace) := by
    intro hsends
    refine hs.step hsends ?_ ?_ h
    · rintro cmd rfl
      exact (hk (Courier.flushing_of_may hoff hmay (.inl rfl))).putBack hmay
    · rintro seq cmd sentAt rfl
      exact (hk (Courier.flushing_of_may hoff hmay (.inl rfl))).registered hmay
  by_cases ha : ∃ conn bytes cmd seq, a = .transmit conn bytes cmd seq
  · have hc := hk (Courier.flushing_of_may hoff hmay (.inr ha))
    obtain ⟨conn, bytes, cmd, seq, rfl⟩ := ha
    cases r with
    | none =>
        obtain ⟨⟨⟨orig, horig, rfl⟩, -⟩, hwrote, -⟩ := hmay
        exact hs.transmit hc horig hwrote h
    | some err => exact hstep fun _ => rfl
  · exact hstep (sends_of_ne fun conn bytes cmd seq heq => ha ⟨conn, bytes, cmd, seq, heq⟩)

theorem Carried.own (hc : Carried cfg trace w v) (hs : Tallied cfg w trace) (hmay : v.May a)
    (h : exec cfg id tid w a inp = some (w', r)) :
    Carried cfg (.did tid a r :: trace) w' (v.after a r) := by
  have hticketed : Ticketed w' (v.after a r) := hc.toTicketed.step (exec_stock hmay h) h
  by_cases ha : ∃ conn bytes cmd seq, a = .transmit conn bytes cmd seq
  · obtain ⟨conn, bytes, cmd, seq, rfl⟩ := ha
    cases r with
    | none =>
        obtain ⟨⟨⟨orig, horig, rfl⟩, -⟩, hwrote, -⟩ := hmay
        exact hc.transmit horig hwrote h
    | some err => exact .step hticketed hc.has (fun _ => rfl) h
  · have ha : ∀ conn bytes cmd seq, a ≠ .transmit conn bytes cmd seq :=
      fun conn bytes cmd seq heq => ha ⟨conn, bytes, cmd, seq, heq⟩
    exact .step hticketed (hc.has.after hmay hs.queued ha h) (sends_of_ne ha) h

theorem Carried.beside (hc : Carried cfg trace w v) (hmay : ({} : Courier).May a)
    (h : exec cfg id tid w a inp = some (w', r)) : Carried cfg (.did tid a r :: trace) w' v := by
  obtain ⟨hcarries, ha⟩ := Courier.may_idle hmay
  exact .step (hc.toTicketed.step (exec_stock_beside v hcarries h) h) hc.has (sends_of_ne ha) h

/-! ### Timeouts -/

/-- If the entry puts a command back after a timeout, the command had retries left. -/
def retriesLeft (cfg : Config) : Entry sig → List (Entry sig) → Prop
  | .did _ (.visitInFlight _ _) (some out), older =>
      out.type = .retrying → ∀ o, EnqueuedAs older out.command.ticket o → o.attempts = 0 →
        (timesSent older out.command.ticket : Int) ≤
          (deliveryPolicyForCommand cfg o).maxRetries
  | _, _ => True

theorem Tallied.retriesLeft (hs : Tallied cfg w trace)
    (h : exec cfg id tid w a inp = some (w', r)) : retriesLeft cfg (.did tid a r) trace := by
  cases a with
  | visitInFlight seq now =>
      cases r with
      | none => trivial
      | some out =>
          intro htype o ho hzero
          obtain ⟨entry, hentry, -, hcmd, hleft⟩ := exec_visit_retrying h htype
          rw [hcmd] at ho ⊢
          have hwaits := (hs.flying seq entry hentry).retried seq hleft
          obtain ⟨hcount, hle⟩ := hwaits.count o ho hzero
          rw [Int.add_zero] at hle
          exact hcount.trans_le hle
  | _ => trivial

end exec

/-! ## Runs -/

section rules

variable (cfg : Config) (id : String)

/-- There is no restart. -/
abbrev unbrokenRules : Rules (machine cfg id).traced where
  crash _ := False

def tallies : Discipline (machine cfg id).traced (unbrokenRules cfg id) ({}, []) Courier :=
  ((couriers cfg id (.any _)).traced (unbrokenRules cfg id) (fun _ _ _ _ => trivial)
    (fun _ _ _ _ _ => trivial) fun _ _ => trivial).strengthen
    (fun w => (Tallied cfg w.1 w.2 ∧ Each (retriesLeft cfg) w.2) ∧
      (w.1.flushMu = none → Carried cfg w.2 w.1 {}))
    (fun _ w v => v.flushing = true → Carried cfg w.2 w.1 v)
    ⟨⟨.initial cfg, trivial⟩, fun _ => .initial cfg⟩
    (fun _ _ _ hidle hon => by
      subst hidle
      cases hon)
    (fun m hj hk hnext hv' => by
      subst hnext
      obtain ⟨⟨hs, htimeouts⟩, hfree⟩ := hj
      obtain ⟨hexec, htrace⟩ := exec_of_traced m.exec
      rw [htrace]
      have hcarried := m.knows.carried_own (P := Carried cfg _) (Q := Carried cfg _) hv' m.may
        hexec (fun hc => hc.own hs m.may hexec) hfree hk
      exact ⟨⟨⟨hs.own m.knows.off hk m.may hexec, hs.retriesLeft hexec, htimeouts⟩, hcarried.1⟩,
        hcarried.2⟩)
    (fun m _ hne hu hk => by
      obtain ⟨hexec, htrace⟩ := exec_of_traced m.exec
      rw [htrace]
      refine m.knows.carried_other (P := Carried cfg _) (Q := Carried cfg _) hne hu
        (fun hidle hc => ?_) hk
      exact hc.beside (hidle ▸ m.may) hexec)
    fun _ hcrash => hcrash.elim

end rules

/-! ## Reports of a retry -/

/-- The event that an action publishes. -/
def Act.published : Act → Option AckEvent
  | .publishAck event | .publishAckWithCommand event _ => some event
  | _ => none

/-- The event reports that the command of the outcome is sent again. -/
def Reports (id : String) (event : AckEvent) (out : InFlightOutcome) : Prop :=
  out.type = .retrying ∧ event = ackEvent id out.command out.seq .retrying out.reason

/-- The timeouts that a thread has found. -/
def found (v : List InFlightOutcome) : (a : Act) → a.Res → List InFlightOutcome
  | .visitInFlight _ _, some out => out :: v
  | _, _ => v

/-- A thread reports none but the retries that it has found. -/
def reporting (id : String) : Protocol sig (List InFlightOutcome) :=
  .ofAfter (fun v a => ∀ event, a.published = some event → event.status = .retrying →
    ∃ out ∈ v, Reports id event out) found

section reporting

variable {id : String} {v : List InFlightOutcome}

theorem may_of_silent {a : Act} (h : a.published = none) : (reporting id).may v a := by
  intro event hevent
  rw [h] at hevent
  cases hevent

theorem may_of_status {a : Act} {event : AckEvent} (h : a.published = some event)
    (hstatus : event.status ≠ .retrying) : (reporting id).may v a := by
  intro event' hevent
  cases h.symm.trans hevent
  exact fun hretry => absurd hretry hstatus

theorem not_retrying_of_terminal {status : AckStatus} (h : isTerminalAckStatus status = true) :
    status ≠ .retrying := by
  rintro rfl
  cases h

theorem benign_may (a : Act) (v : List InFlightOutcome) (ha : a.Benign) :
    (reporting id).may v a := by
  cases a with
  | publishAck event =>
      refine may_of_status rfl ?_
      rw [show event.status = .inProgress from ha]
      nofun
  | publishAckWithCommand => exact ha.elim
  | _ => exact may_of_silent rfl

theorem admitting_may (a : Act) (v : List InFlightOutcome) (ha : a.Admitting) :
    (reporting id).may v a := by
  cases a with
  | publishAck | publishAckWithCommand => exact ha.elim
  | _ => exact may_of_silent rfl

theorem flush_may (a : Act) (v : List InFlightOutcome) (ha : a.InFlush) :
    (reporting id).may v a := by
  cases a with
  | publishAck event =>
      refine may_of_status rfl ?_
      rw [show event.status = .accepted from ha]
      nofun
  | publishAckWithCommand event cmd => exact may_of_status rfl (not_retrying_of_terminal ha)
  | _ => exact may_of_silent rfl

theorem visitAll_finds (now : Time) (seqs : List UInt8) (v : List InFlightOutcome) :
    (visitAll now seqs).Respects (reporting id)
      (fun outs v' => outs ⊆ v' ∧ v ⊆ v') v := by
  induction seqs generalizing v with
  | nil => exact ⟨List.nil_subset _, List.Subset.refl _⟩
  | cons seq rest ih =>
      refine act_respects (may_of_silent rfl) fun out => ?_
      refine (ih (found v (.visitInFlight seq now) out)).bind fun outs v' houts => ?_
      obtain ⟨houts, hkept⟩ := houts
      cases out with
      | none => exact ⟨houts, hkept⟩
      | some out =>
          refine ⟨List.cons_subset.mpr ⟨hkept List.mem_cons_self, houts⟩, ?_⟩
          exact List.Subset.trans (List.subset_cons_self _ _) hkept

theorem publishOutcomes_reports {outs : List InFlightOutcome} (h : outs ⊆ v) :
    (publishOutcomes id outs).Respects (reporting id) (fun _ _ => True) v := by
  induction outs with
  | nil => trivial
  | cons out rest ih =>
      obtain ⟨hout, hrest⟩ := List.cons_subset.mp h
      have hone : (publishOutcome id out).Respects (reporting id) (fun _ v' => v' = v) v := by
        unfold publishOutcome
        split
        · rename_i htype
          refine ⟨fun event hevent _ => ⟨out, hout, htype, ?_⟩, fun _ _ hv => hv⟩
          exact (Option.some.inj hevent).symm
        · exact ⟨may_of_status rfl nofun, fun _ _ hv => hv⟩
        · exact ⟨may_of_status rfl nofun, fun _ _ hv => hv⟩
      refine hone.bind fun _ v' hv => ?_
      subst hv
      exact ih hrest

theorem processInFlight_reports (v : List InFlightOutcome) :
    (processInFlight id).Respects (reporting id) (fun _ _ => True) v := by
  have hmanager : ∀ now v, (managerProcessInFlight now).Respects (reporting id)
      (fun res v' => ∀ outs, res = .ok outs → outs ⊆ v') v := by
    intro now v
    refine act_respects (may_of_silent rfl) fun _ => ?_
    refine act_respects (may_of_silent rfl) fun session => ?_
    cases session with
    | false => exact act_respects (may_of_silent rfl) fun _ => nofun
    | true =>
        refine act_respects (may_of_silent rfl) fun order => ?_
        refine (visitAll_finds now order _).bind fun outs v' houts => ?_
        refine act_respects (may_of_silent rfl) fun err => ?_
        refine act_respects (may_of_silent rfl) fun _ => ?_
        cases err with
        | some err => nofun
        | none =>
            rintro _ ⟨⟩
            exact houts.1
  refine act_respects (may_of_silent rfl) fun now => ?_
  refine (hmanager now _).bind fun res v' hres => ?_
  cases res with
  | error err => trivial
  | ok outs => exact publishOutcomes_reports (hres outs rfl)

theorem handleTerminalAck_reports (ack : Ack11)
    (hterminal : (interpretAck11ExecutionCode ack.executionCode).terminal = true)
    (v : List InFlightOutcome) :
    (handleTerminalAck id ack).Respects (reporting id) (fun _ _ => True) v := by
  have hstatus := (interpret_terminal ack.executionCode).trans hterminal
  unfold handleTerminalAck
  refine act_respects (may_of_silent rfl) fun answer => ?_
  cases answer with
  | none => trivial
  | some answer =>
      exact ⟨may_of_status rfl (not_retrying_of_terminal hstatus), fun _ _ _ => trivial⟩

theorem reporting_tasks (cfg : Config) (id : String) :
    TaskSpec cfg id (reporting id) fun _ => True where
  benign a v ha _ := ⟨benign_may a v ha, fun _ _ _ => trivial⟩
  enqueue cmd fuel _ :=
    (enqueueCommand_only cfg id cmd fuel).respects fun a v ha _ =>
      ⟨admitting_may a v ha, fun _ _ _ => trivial⟩
  flush _ := (flush_only id).respects fun a v ha _ => ⟨flush_may a v ha, fun _ _ _ => trivial⟩
  process v _ := processInFlight_reports v
  ack ack v hterminal _ := handleTerminalAck_reports ack hterminal v

end reporting

/-- The thread found the outcome. -/
def Visited (tid : ℕ) (trace : List (Entry sig)) (out : InFlightOutcome) : Prop :=
  ∃ seq now, (.did tid (.visitInFlight seq now) (some out) : Entry sig) ∈ trace

/-- If the entry reports a retry, the thread found the timeout before. -/
def reported (id : String) : Entry sig → List (Entry sig) → Prop
  | .did tid a _, older => ∀ event, a.published = some event → event.status = .retrying →
      ∃ out, Visited tid older out ∧ Reports id event out
  | .crashed, _ => True

theorem Visited.cons {tid : ℕ} {trace : List (Entry sig)} {out : InFlightOutcome}
    (h : Visited tid trace out) (e : Entry sig) : Visited tid (e :: trace) out := by
  obtain ⟨seq, now, hmem⟩ := h
  exact ⟨seq, now, List.mem_cons_of_mem _ hmem⟩

theorem visited_found {tid : ℕ} {trace : List (Entry sig)} {v : List InFlightOutcome} {a : Act}
    {r : a.Res} (hv : ∀ out ∈ v, Visited tid trace out) :
    ∀ out ∈ found v a r, Visited tid (.did tid a r :: trace) out := by
  intro out hmem
  unfold found at hmem
  split at hmem
  · rename_i seq now new
    rcases List.mem_cons.mp hmem with rfl | hold
    · exact ⟨seq, now, List.mem_cons_self⟩
    · exact (hv out hold).cons _
  · exact (hv out hmem).cons _

section runs

variable (cfg : Config) (id : String)

def reporters : Discipline (machine cfg id).traced (unbrokenRules cfg id) ({}, [])
    (List InFlightOutcome) where
  protocol := reporting id
  knows tid w v := ∀ out ∈ v, Visited tid w.2 out
  idle _ := True
  inv w := Each (reported id) w.2
  init := ⟨trivial, fun _ => ⟨[], by simp, trivial⟩⟩
  start _ _ hidle _ := (reporting_tasks cfg id).prog _ hidle
  act := by
    intro w tid a inp w' r v hinv hv _ hmay h
    rw [(exec_of_traced h).2]
    refine ⟨⟨fun event hevent hretry => ?_, hinv⟩, ⟨_, rfl, visited_found hv⟩, ?_⟩
    · obtain ⟨out, hmem, hreports⟩ := hmay event hevent hretry
      exact ⟨out, hv out hmem, hreports⟩
    · exact fun other _ u hu out hmem => (hu out hmem).cons _
  crash _ hcrash := hcrash.elim

variable {cfg id}

/-- A command that was enqueued without attempts is written once and then at most as often as
its policy retries, and a thread reports a retry only of a timeout that it found while the
command still had one left. -/
theorem transmissions_bounded {c : Concurrent.Config (machine cfg id).traced}
    (h : Reachable (unbrokenRules cfg id) ({}, []) c) :
    (∀ t cmd, EnqueuedAs c.world.2 t cmd → cmd.attempts = 0 →
      (timesSent c.world.2 t : Int) ≤ (deliveryPolicyForCommand cfg cmd).maxRetries + 1) ∧
    ∀ newer tid a r older event, c.world.2 = newer ++ .did tid a r :: older →
      a.published = some event → event.status = .retrying →
      ∃ later seq now out earlier,
        older = later ++ .did tid (.visitInFlight seq now) (some out) :: earlier ∧
        out.type = .retrying ∧ event = ackEvent id out.command out.seq .retrying out.reason ∧
        ∀ cmd, EnqueuedAs earlier out.command.ticket cmd → cmd.attempts = 0 →
          (timesSent earlier out.command.ticket : Int) ≤
            (deliveryPolicyForCommand cfg cmd).maxRetries := by
  obtain ⟨⟨-, ⟨hs, htimeouts⟩, -⟩, -⟩ := (tallies cfg id).sound h
  refine ⟨hs.bounded, fun newer tid a r older event htrace hevent hretry => ?_⟩
  have hreports : Each (reported id) c.world.2 := ((reporters cfg id).sound h).1
  rw [htrace] at hreports htimeouts
  obtain ⟨out, ⟨seq, now, hmem⟩, htype, heq⟩ := hreports.at_entry event hevent hretry
  obtain ⟨later, earlier, rfl⟩ := List.append_of_mem hmem
  refine ⟨later, seq, now, out, earlier, rfl, htype, heq, ?_⟩
  rw [← List.cons_append, ← List.append_assoc] at htimeouts
  exact htimeouts.at_entry htype

end runs

/-- Two goroutines work for the controller. One finds that the command has timed out and puts it
back; before it reports that, the other sends the command for the last time. -/
def lateReportLabels : List (Label (machine { maxRetriesQuery := 1 } "c")) :=
  connect ++ call 0 (.enqueue { commandID := 9 } 0) 20 ++ call 0 .flush 40 ++
    call 1 .process 7 { time := 10 * second, order := [1] } ++
    call 0 .flush 40 { time := 10 * second } ++ go 1 1

/-- The command that is enqueued there. -/
def lateCommand : Command := { commandID := 9, priority := .query }

theorem retry_reported_after_last_transmission :
    ∃ c, Reachable (unbrokenRules { maxRetriesQuery := 1 } "c") ({}, []) c ∧
      EnqueuedAs c.world.2 0 lateCommand ∧ lateCommand.attempts = 0 ∧ c.world.1.tickets = 1 ∧
      (deliveryPolicyForCommand { maxRetriesQuery := 1 } lateCommand).maxRetries = 1 ∧
      timesSent c.world.2.tail 0 = 2 ∧
      c.world.1.log.head? =
        some (.published (ackEvent "c" lateCommand 1 .retrying "ack timeout") none) :=
  ⟨_, Reachable.initial.run (lateReportLabels.map Label.traced), by decide +kernel⟩

theorem late_report_backed :
    ∃ c, Reachable (unbrokenRules { maxRetriesQuery := 1 } "c") ({}, []) c ∧
      EnqueuedAs c.world.2 0 lateCommand ∧ timesSent c.world.2 0 = 2 ∧
      (timesSent c.world.2 0 : Int) ≤
        (deliveryPolicyForCommand { maxRetriesQuery := 1 } lateCommand).maxRetries + 1 := by
  have hrun : ∃ c, Reachable (unbrokenRules { maxRetriesQuery := 1 } "c") ({}, []) c ∧
      EnqueuedAs c.world.2 0 lateCommand ∧ timesSent c.world.2 0 = 2 :=
    ⟨_, Reachable.initial.run (lateReportLabels.map Label.traced), by decide +kernel⟩
  obtain ⟨c, hc, henqueued, hsent⟩ := hrun
  exact ⟨c, hc, henqueued, hsent, (transmissions_bounded hc).1 0 lateCommand henqueued rfl⟩

end TcpAdapter.Delivery
