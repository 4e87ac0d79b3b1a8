import TcpAdapter.Verification.Delivery.History
import TcpAdapter.Verification.Delivery.Stock

/-! # Retransmissions and their numbers

A command that was sent goes back to the queue with its number. It loses the number when it is
popped and does not fit into the bytes that remain, and number 0 counts as none. In runs in
which neither happens every transmission of a command carries the number of the first. -/

namespace TcpAdapter.Delivery

open TcpAdapter.Concurrent TcpAdapter.Queue TcpAdapter.Protocol TcpAdapter.Manager
open TcpAdapter.Policy

/-! ## Numbers in the history -/

/-- The number under which the command with the ticket went out. -/
def Event.sentAs (t : ℕ) : Event → Option UInt8
  | .transmitted ticket _ seq _ _ _ => if ticket = t then some seq else none
  | _ => none

/-- The numbers under which the command was transmitted, the last one first. -/
def World.numbers (w : World) (t : ℕ) : List UInt8 :=
  w.log.filterMap (Event.sentAs t)

def World.SentUnder (w : World) (t : ℕ) (seq : UInt8) : Prop :=
  seq ∈ w.numbers t

theorem Event.sentAs_eq_some {t : ℕ} {seq : UInt8} {e : Event} (h : e.sentAs t = some seq) :
    ∃ commandID bytes fwMode syncMode, e = .transmitted t commandID seq bytes fwMode syncMode := by
  unfold Event.sentAs at h
  split at h
  · rename_i ticket commandID seq' bytes fwMode syncMode
    split at h
    · rename_i ht
      cases h
      exact ⟨commandID, bytes, fwMode, syncMode, by rw [ht]⟩
    · cases h
  · cases h

/-- If the command was sent, it has the number it was sent under. -/
def World.Keeps (w : World) (cmd : Command) : Prop :=
  ∀ seq, w.SentUnder cmd.ticket seq → cmd.retrySeq = seq ∧ seq ≠ 0

section exec

variable {cfg : Config} {id : String} {tid : ℕ} {w w' : World} {inp : Input} {a : Act}
  {r : a.Res}

/-- A transmission was there before or is the one of this action. -/
theorem sentUnder_cases {t : ℕ} {seq : UInt8} (h : exec cfg id tid w a inp = some (w', r))
    (hsent : w'.SentUnder t seq) :
    w.SentUnder t seq ∨ ∃ conn bytes cmd, a = .transmit conn bytes cmd seq ∧ cmd.ticket = t := by
  obtain ⟨e, hmem, he⟩ := List.mem_filterMap.mp hsent
  obtain ⟨commandID, bytes, fwMode, syncMode, rfl⟩ := Event.sentAs_eq_some he
  rcases mem_log_cases rfl h hmem with hemit | hold
  · cases emits_of_emitted hemit
    exact .inr ⟨_, _, _, rfl, rfl⟩
  · exact .inl (List.mem_filterMap.mpr ⟨_, hold, he⟩)

/-- Nothing else transmits. -/
theorem sentUnder_of_not_transmit (ha : ∀ conn bytes cmd seq, a ≠ .transmit conn bytes cmd seq)
    {t : ℕ} {seq : UInt8} (h : exec cfg id tid w a inp = some (w', r))
    (hsent : w'.SentUnder t seq) : w.SentUnder t seq := by
  rcases sentUnder_cases h hsent with hold | ⟨conn, bytes, cmd, rfl, -⟩
  · exact hold
  · exact absurd rfl (ha conn bytes cmd seq)

end exec

/-! ## One copy of each command, with its number -/

/-- What the flush has in its hands has the number it was sent under. -/
structure InHand (w : World) (v : Courier) : Prop where
  skipped : ∀ cmd ∈ v.skipped, w.Keeps cmd
  current : ∀ cmd, v.current = some cmd → v.wrote = none → w.Keeps cmd
  wrote : v.wrote ≠ none → ∀ cmd seq, v.current = some cmd → w.SentUnder cmd.ticket seq →
    v.number = some seq

/-- Every command of the stock has a ticket of its own, and where a command was sent, each copy
has the number. -/
structure Numbered (w : World) (v : Courier) : Prop extends InHand w v, Ticketed w v where
  unique : ∀ t seq seq', w.SentUnder t seq → w.SentUnder t seq' → seq = seq'
  old : ∀ t seq, w.SentUnder t seq → t < w.tickets
  queued : ∀ cmd ∈ w.queued, w.Keeps cmd
  flying : ∀ seq entry, w.inFlight seq = some entry →
    ∀ seq', w.SentUnder entry.command.ticket seq' → seq' = seq

theorem not_sentUnder_initial (t : ℕ) (seq : UInt8) : ¬ ({} : World).SentUnder t seq :=
  List.not_mem_nil

theorem InHand.nothing (w : World) (on : Bool) : InHand w { flushing := on } :=
  ⟨by simp, by simp, by simp⟩

theorem Numbered.initial : Numbered {} {} where
  toInHand := .nothing {} false
  toTicketed := .initial
  unique t seq _ h := absurd h (not_sentUnder_initial t seq)
  old t seq h := absurd h (not_sentUnder_initial t seq)
  queued _ _ seq h := absurd h (not_sentUnder_initial _ seq)
  flying _ _ _ seq h := absurd h (not_sentUnder_initial _ seq)

theorem InHand.iff_has {w : World} {v : Courier} :
    InHand w v ↔ v.Has w.Keeps fun v => ∀ cmd seq, v.current = some cmd →
      w.SentUnder cmd.ticket seq → v.number = some seq :=
  ⟨fun hv => ⟨hv.skipped, hv.current, hv.wrote⟩, fun hv => ⟨hv.skipped, hv.current, hv.wrote⟩⟩

/-- Nothing more was sent. -/
theorem InHand.mono {w w' : World} {v : Courier} (hv : InHand w v)
    (hsent : ∀ {t seq}, w'.SentUnder t seq → w.SentUnder t seq) : InHand w' v where
  skipped cmd hmem seq h := hv.skipped cmd hmem seq (hsent h)
  current cmd hcurrent hwrote seq h := hv.current cmd hcurrent hwrote seq (hsent h)
  wrote hwrote cmd seq hcurrent h := hv.wrote hwrote cmd seq hcurrent (hsent h)

/-! ## Steps -/

/-- The bytes that the thread may still send, with the layout it sends in: what it read from
the session less what it has written since. -/
def allow (tid : ℕ) : Entry sig → Option (FrameMode × Int) → Option (FrameMode × Int)
  | .did other .deliveryContext (some dctx), before =>
      if other = tid then some (dctx.frameMode, maxBudget dctx) else before
  | .did other (.transmit _ bytes _ _) none, before =>
      if other = tid then before.map fun b => (b.1, b.2 - bytes.length) else before
  | _, before => before

def allowance (tid : ℕ) (trace : List (Entry sig)) : Option (FrameMode × Int) :=
  trace.foldr (allow tid) none

/-- No command waits out its time under number 0, and a command that has a number is popped
only if its frame fits into the bytes that remain. -/
def numberKept (cfg : Config) (w : World) (trace : List (Entry sig)) (tid : ℕ) : Act → Bool
  | .visitInFlight seq now =>
      seq ≠ 0 || (w.inFlight 0).all fun entry =>
        now < entry.sentAt + ackWait (deliveryPolicyForCommand cfg entry.command) entry
  | .popNext _ fwMode syncMode =>
      (w.queue.popNext fwMode syncMode).1.all fun cmd =>
        cmd.retrySeq = 0 || (allowance tid trace).all fun b =>
          (cmd.frameLength b.1 : Int) ≤ b.2
  | _ => true

section exec

variable {cfg : Config} {id : String} {tid : ℕ} {w w' : World} {inp : Input} {a : Act}
  {r : a.Res} {v v' : Courier} {trace : List (Entry sig)}

/-- An entry that may still wait is left alone. -/
theorem exec_visit_waiting {seq : UInt8} {now : Time} {r : Option InFlightOutcome}
    (hwait : ∀ entry, w.inFlight seq = some entry →
      now < entry.sentAt + ackWait (deliveryPolicyForCommand cfg entry.command) entry)
    (h : exec cfg id tid w (.visitInFlight seq now) inp = some (w', r)) : w' = w := by
  have heq := Option.some.inj h
  simp only [execVisit] at heq
  split at heq
  · cases heq
    rfl
  · rename_i s hs
    have hvisit : (s.visitInFlight (deliveryPolicyForCommand cfg) now seq).2 = none := by
      unfold Session.visitInFlight
      cases hentry : s.inFlight seq with
      | none => rfl
      | some entry =>
          have hslot : w.slot.session = some s := hs
          have hnow := hwait entry (by simp [Slot.inFlight, hslot, hentry])
          simp [inFlightOutcome, hnow]
    split at heq
    · cases heq
      rfl
    · rename_i hsome
      rw [hsome] at hvisit
      cases hvisit

/-- What is queued keeps its number. -/
theorem Numbered.queued_step (hn : Numbered w v) (hrule : numberKept cfg w trace tid a = true)
    (hpush : ∀ cmd, a = .push cmd → w.Keeps cmd)
    (h : exec cfg id tid w a inp = some (w', r)) : ∀ cmd ∈ w'.queued, w.Keeps cmd := by
  intro cmd hmem
  rcases (exec_queueMove h).mem_snapshot hmem with
    hold | hback | ⟨new, -, rfl⟩ | ⟨seq, now, entry, rfl, hentry, rfl⟩
  · exact hn.queued cmd hold
  · exact hpush cmd hback
  · intro seq hsent
    exact absurd (hn.old _ _ hsent) (Nat.lt_irrefl _)
  · by_cases hz : seq = 0
    · subst hz
      have hwait : ∀ entry, w.inFlight 0 = some entry →
          now < entry.sentAt + ackWait (deliveryPolicyForCommand cfg entry.command) entry := by
        intro entry hentry
        simpa only [numberKept, ne_eq, not_true_eq_false, decide_false, Bool.false_or, hentry,
          Option.all_some, decide_eq_true_eq] using hrule
      rw [exec_visit_waiting hwait h] at hmem
      exact hn.queued _ hmem
    · intro seq' hsent
      obtain rfl := hn.flying seq entry hentry seq' hsent
      exact ⟨rfl, hz⟩

/-- What is in flight is there under its number. -/
theorem Numbered.flying_step (hn : Numbered w v)
    (hregister : ∀ seq cmd sentAt, a = .registerInFlight seq cmd sentAt →
      ∀ seq', w.SentUnder cmd.ticket seq' → seq' = seq)
    (h : exec cfg id tid w a inp = some (w', r)) :
    ∀ seq entry, w'.inFlight seq = some entry →
      ∀ seq', w.SentUnder entry.command.ticket seq' → seq' = seq := by
  intro seq entry hentry seq' hsent
  rcases exec_inFlight_some h hentry with hold | ⟨cmd, sentAt, rfl, rfl⟩
  · exact hn.flying seq entry hold seq' hsent
  · exact hregister seq cmd sentAt rfl seq' hsent

/-- An action that sends nothing. -/
theorem Numbered.step (hn : Numbered w v) (hv' : InHand w v')
    (ha : ∀ conn bytes cmd seq, a ≠ .transmit conn bytes cmd seq)
    (hle : (stock w' v').map Command.core ≤ (stock w v + added w a).map Command.core)
    (hrule : numberKept cfg w trace tid a = true) (hpush : ∀ cmd, a = .push cmd → w.Keeps cmd)
    (hregister : ∀ seq cmd sentAt, a = .registerInFlight seq cmd sentAt →
      ∀ seq', w.SentUnder cmd.ticket seq' → seq' = seq)
    (h : exec cfg id tid w a inp = some (w', r)) : Numbered w' v' := by
  have hsent : ∀ {t seq}, w'.SentUnder t seq → w.SentUnder t seq :=
    fun hs => sentUnder_of_not_transmit ha h hs
  exact
    { toInHand := hv'.mono hsent
      toTicketed := hn.toTicketed.step hle h
      unique := fun t seq seq' hs hs' => hn.unique t seq seq' (hsent hs) (hsent hs')
      old := fun t seq hs => (hn.old t seq (hsent hs)).trans_le (tickets_le h)
      queued := fun cmd hmem seq hs => hn.queued_step hrule hpush h cmd hmem seq (hsent hs)
      flying := fun seq entry hentry seq' hs =>
        hn.flying_step hregister h seq entry hentry seq' (hsent hs) }

/-- The number under which the command at hand was sent before is the one it has. -/
theorem InHand.number_eq {orig : Command} {seq seq' : UInt8} (hv : InHand w v)
    (horig : v.current = some orig) (hwrote : v.wrote = none) (hnumber : v.number = some seq)
    (hsent : w.SentUnder orig.ticket seq') : seq' = seq := by
  obtain ⟨rfl, hz⟩ := hv.current orig horig hwrote seq' hsent
  simpa [Courier.number, horig, hz] using hnumber

theorem sentUnder_transmit {conn : ConnID} {bytes : List UInt8} {cmd : Command} {seq seq' : UInt8}
    {t : ℕ} {r : Option Error}
    (h : exec cfg id tid w (.transmit conn bytes cmd seq) inp = some (w', r))
    (hsent : w'.SentUnder t seq') : w.SentUnder t seq' ∨ t = cmd.ticket ∧ seq' = seq := by
  rcases sentUnder_cases h hsent with hold | ⟨_, _, _, heq, hticket⟩
  · exact .inl hold
  · cases heq
    exact .inr ⟨hticket.symm, rfl⟩

/-- The command at hand goes out under the number it has, or under one of its own. -/
theorem Numbered.transmit {conn : ConnID} {bytes : List UInt8} {cmd : Command} {seq : UInt8}
    (hn : Numbered w v) (hmay : v.May (.transmit conn bytes cmd seq))
    (h : exec cfg id tid w (.transmit conn bytes cmd seq) inp = some (w', none)) :
    Numbered w' (v.after (.transmit conn bytes cmd seq) none) := by
  have hstock := stock_transmit v h
  have htickets := exec_tickets (by simp) h
  obtain ⟨⟨⟨orig, horig, rfl⟩, hnumber⟩, hwrote, -⟩ := hmay
  have hcases : ∀ {t seq'}, w'.SentUnder t seq' →
      w.SentUnder t seq' ∨ t = orig.ticket ∧ seq' = seq := by
    intro t seq' hs
    have hcases := sentUnder_transmit h hs
    exact hcases
  have hbefore : ∀ {seq'}, w.SentUnder orig.ticket seq' → seq' = seq :=
    fun hs => hn.number_eq horig hwrote hnumber hs
  -- the other commands of the stock have other tickets
  have helse : ∀ {c seq'}, c ∈ w.shelf + v.skipped → w'.SentUnder c.ticket seq' →
      w.SentUnder c.ticket seq' := by
    intro c seq' hmem hs
    rcases hcases hs with hold | ⟨hticket, -⟩
    · exact hold
    · exact absurd hticket (hn.elsewhere horig hmem)
  refine
    { skipped := fun c hmem s hs => ?_
      current := fun c _ hnone => by cases hnone
      wrote := fun _ c s hc hs => ?_
      nodup := hstock ▸ hn.nodup
      given := by rw [hstock, htickets]; exact hn.given
      unique := fun t s s' hs hs' => ?_
      old := fun t s hs => ?_
      queued := fun c hmem s hs => ?_
      flying := fun s entry hentry s' hs => ?_ }
  · exact hn.skipped c hmem s (helse (Multiset.mem_add.mpr (.inr hmem)) hs)
  · cases horig.symm.trans hc
    rcases hcases hs with hold | ⟨-, rfl⟩
    · rw [hbefore hold]
      exact hnumber
    · exact hnumber
  · rcases hcases hs with hold | ⟨rfl, rfl⟩ <;> rcases hcases hs' with hold' | ⟨ht, rfl⟩
    · exact hn.unique t s s' hold hold'
    · exact hbefore (ht ▸ hold)
    · exact (hbefore hold').symm
    · rfl
  · rw [htickets]
    rcases hcases hs with hold | ⟨rfl, -⟩
    · exact hn.old t s hold
    · apply hn.given orig
      rw [stock, Courier.hands_of_current horig]
      simp
  · rw [World.queued, (exec_commands rfl h).1] at hmem
    have hshelf : c ∈ w.shelf := Multiset.mem_add.mpr (.inl hmem)
    exact hn.queued c hmem s (helse (Multiset.mem_add.mpr (.inl hshelf)) hs)
  · rw [exec_inFlight rfl h] at hentry
    have hshelf : entry.command ∈ w.shelf := Multiset.mem_add.mpr (.inr (mem_flying hentry))
    exact hn.flying s entry hentry s' (helse (Multiset.mem_add.mpr (.inl hshelf)) hs)

/-! ### Own moves and moves of the others -/

/-- The flush has what it may send in its trace, and a command with a number fits. -/
structure Budgeted (tid : ℕ) (trace : List (Entry sig)) (v : Courier) : Prop where
  line : ∀ conn mode, v.line = some (conn, mode) → allowance tid trace = some (mode, v.remaining)
  fits : ∀ cmd conn mode, v.current = some cmd → v.wrote = none → cmd.retrySeq ≠ 0 →
    v.line = some (conn, mode) → cmd.frameLength mode ≤ v.remaining

theorem Budgeted.nothing (on : Bool) : Budgeted tid trace { flushing := on } :=
  ⟨by simp, by simp⟩

/-- What the flush puts back has its number. -/
theorem Numbered.keeps_putBack {cmd : Command} (hn : Numbered w v) (hb : Budgeted tid trace v)
    (hmay : v.May (.push cmd)) : w.Keeps cmd := by
  obtain ⟨hwrote, hmem | ⟨-, orig, conn, mode, horig, rfl, hline, hlong⟩⟩ := hmay
  · exact (InHand.iff_has.mp hn.toInHand).hands hwrote cmd hmem
  · have hz : orig.retrySeq = 0 := by
      by_contra hz
      exact absurd (hb.fits orig conn mode horig hwrote hz hline) (not_le.mpr hlong)
    intro seq hsent
    obtain ⟨hseq, hne⟩ := hn.current orig horig hwrote seq hsent
    exact absurd (hseq.symm.trans hz) hne

theorem Numbered.own (hn : Numbered w v) (hb : Budgeted tid trace v) (hmay : v.May a)
    (hrule : numberKept cfg w trace tid a = true) (h : exec cfg id tid w a inp = some (w', r)) :
    Numbered w' (v.after a r) := by
  by_cases ha : ∃ conn bytes cmd seq, a = .transmit conn bytes cmd seq
  · obtain ⟨conn, bytes, cmd, seq, rfl⟩ := ha
    cases r with
    | none => exact hn.transmit hmay h
    | some err =>
        rw [exec_transmit_failed h]
        exact hn
  · have ha : ∀ conn bytes cmd seq, a ≠ .transmit conn bytes cmd seq :=
      fun conn bytes cmd seq heq => ha ⟨conn, bytes, cmd, seq, heq⟩
    have hafter := InHand.iff_has.mpr ((InHand.iff_has.mp hn.toInHand).after hmay hn.queued ha h)
    refine hn.step hafter ha (exec_stock hmay h) hrule ?_ ?_ h
    · rintro cmd rfl
      exact hn.keeps_putBack hb hmay
    · rintro seq cmd sentAt rfl seq' hsent
      obtain ⟨⟨⟨orig, horig, rfl⟩, hnumber⟩, hwrote⟩ := hmay
      have hnumber' := hn.wrote (Option.isSome_iff_ne_none.mp hwrote) orig seq' horig hsent
      exact Option.some.inj (hnumber'.symm.trans hnumber)

theorem Numbered.beside (hn : Numbered w v) (hmay : ({} : Courier).May a)
    (hrule : numberKept cfg w trace tid a = true) (h : exec cfg id tid w a inp = some (w', r)) :
    Numbered w' v := by
  obtain ⟨hcarries, ha⟩ := Courier.may_idle hmay
  refine hn.step hn.toInHand ha (exec_stock_beside v hcarries h) hrule ?_ ?_ h
  · rintro cmd rfl
    cases hcarries
  · rintro seq cmd sentAt rfl
    cases hcarries

theorem allow_other {other : ℕ} (hne : tid ≠ other) (before : Option (FrameMode × Int)) :
    allow other (.did tid a r) before = before := by
  unfold allow
  split
  · rename_i heq
    cases heq
    exact if_neg hne
  · rename_i heq
    cases heq
    exact if_neg hne
  · rfl

theorem Budgeted.other {other : ℕ} (hb : Budgeted other trace v) (hne : other ≠ tid) :
    Budgeted other (.did tid a r :: trace) v :=
  ⟨by rw [allowance, List.foldr_cons, allow_other hne.symm]; exact hb.line, hb.fits⟩

theorem Budgeted.own (hb : Budgeted tid trace v) (hmay : v.May a)
    (hrule : numberKept cfg w trace tid a = true) (h : exec cfg id tid w a inp = some (w', r)) :
    Budgeted tid (.did tid a r :: trace) (v.after a r) := by
  cases a with
  | lockFlush | unlockFlush => exact .nothing _
  | deliveryContext =>
      cases r with
      | none => exact ⟨hb.line, hb.fits⟩
      | some dctx =>
          refine ⟨fun conn mode hline => ?_, by simp [Courier.after]⟩
          obtain ⟨conn', -, heq⟩ := Option.map_eq_some_iff.mp hline
          cases heq
          simp [allowance, allow, Courier.after]
  | popNext now fwMode syncMode =>
      rcases exec_popped h with ⟨rfl, rfl⟩ | ⟨cmd, rfl, -, hpop, -⟩
      · exact ⟨hb.line, hb.fits⟩
      · refine ⟨hb.line, fun c conn mode hc _ hz hline => ?_⟩
        cases hc
        change (cmd.frameLength mode : Int) ≤ v.remaining
        simpa only [numberKept, hpop, Option.all_some, hz, decide_false, Bool.false_or,
          hb.line conn mode hline, decide_eq_true_eq] using hrule
  | transmit conn bytes cmd seq =>
      cases r with
      | some err => exact ⟨hb.line, hb.fits⟩
      | none =>
          refine ⟨fun conn mode hline => ?_, fun _ _ _ _ hwrote => by cases hwrote⟩
          have hline := hb.line conn mode hline
          simp only [allowance] at hline
          simp [allowance, allow, hline, Courier.after]
  | nextCommandSeq =>
      cases r with
      | error err => exact ⟨hb.line, hb.fits⟩
      | ok seq => exact ⟨hb.line, fun cmd conn mode hcmd _ => hb.fits cmd conn mode hcmd hmay.1⟩
  | registerInFlight | publishAckWithCommand | push => exact ⟨hb.line, by simp [Courier.after]⟩
  | _ => exact ⟨hb.line, hb.fits⟩

end exec

/-! ## Runs -/

section rules

variable (cfg : Config) (id : String)

/-- There is no restart, and every step keeps the numbers. -/
abbrev retryRules : Rules (machine cfg id).traced where
  act w tid a _ := numberKept cfg w.1 w.2 tid a = true
  crash _ := False

/-- Couriers that know what they may send. -/
def budgetedCouriers : Discipline (machine cfg id).traced (retryRules cfg id) ({}, []) Courier :=
  ((couriers cfg id (.any _)).traced (retryRules cfg id) (fun _ _ _ _ => trivial)
    (fun _ _ _ _ _ => trivial) fun _ _ => trivial).strengthen
    (fun _ => True) (fun tid w v => Budgeted tid w.2 v) trivial
    (fun _ _ _ hidle => by
      subst hidle
      exact .nothing false)
    (fun m _ hb hnext _ => by
      subst hnext
      obtain ⟨hexec, htrace⟩ := exec_of_traced m.exec
      rw [htrace]
      exact ⟨trivial, hb.own m.may m.rule hexec⟩)
    (fun m _ hne _ hb => by
      rw [(exec_of_traced m.exec).2]
      exact hb.other hne)
    fun _ _ => trivial

def retries : Discipline (machine cfg id).traced (retryRules cfg id) ({}, []) Courier :=
  (budgetedCouriers cfg id).strengthen
    (fun w => w.1.flushMu = none → Numbered w.1 {})
    (fun _ w v => v.flushing = true → Numbered w.1 v)
    (fun _ => .initial)
    (fun _ _ _ hidle hon => by
      subst hidle
      cases hon)
    (fun m hj hk hnext hv' => by
      subst hnext
      have hexec := (exec_of_traced m.exec).1
      exact m.knows.1.carried_own (P := Numbered) (Q := Numbered) hv'.1 m.may hexec
        (fun hn => hn.own m.knows.2 m.may m.rule hexec) hj hk)
    (fun m _ hne hu hk => by
      refine m.knows.1.carried_other (P := Numbered) (Q := Numbered) hne hu.1 (fun hidle hn => ?_) hk
      exact hn.beside (hidle ▸ m.may) m.rule (exec_of_traced m.exec).1)
    fun _ hcrash => hcrash.elim

end rules

section runs

variable {cfg : Config} {id : String}

/-- The flush, or nobody, carries something that fits the history. -/
theorem exists_numbered {c : Concurrent.Config (machine cfg id).traced}
    (h : Reachable (retryRules cfg id) ({}, []) c) : ∃ v, Numbered c.world.1 v := by
  have hsound := (retries cfg id).sound h
  cases hmu : c.world.1.flushMu with
  | none => exact ⟨{}, hsound.1.2 hmu⟩
  | some tid =>
      obtain ⟨v, ⟨⟨hv, -⟩, hk⟩, -⟩ := hsound.2 tid
      exact ⟨v, hk (hv.flushing.mpr hmu)⟩

/-- Every transmission of a command carries the number of the first, and the frame that a
thread is about to write is that of the command under the number. -/
theorem retransmitted_under_first_number {c : Concurrent.Config (machine cfg id).traced}
    (h : Reachable (retryRules cfg id) ({}, []) c) :
    (∀ ticket seq seq', c.world.1.SentUnder ticket seq → c.world.1.SentUnder ticket seq' →
      seq' = seq) ∧
    ∀ tid conn bytes cmd seq k, c.threads tid = .act (.transmit conn bytes cmd seq) k →
      (∃ mode, encodeFrame (commandFrame cmd seq mode) = .ok bytes) ∧
      ∀ seq', c.world.1.SentUnder cmd.ticket seq' → seq = seq' := by
  obtain ⟨v, hn⟩ := exists_numbered h
  refine ⟨fun ticket seq seq' hsent hagain => hn.unique ticket seq' seq hagain hsent, ?_⟩
  intro tid conn bytes cmd seq k ht
  obtain ⟨v, ⟨⟨hv, -⟩, hk⟩, ⟨⟨orig, horig, rfl⟩, hnumber⟩, hwrote, mode, -, hbytes⟩ :=
    (retries cfg id).may h ht
  refine ⟨⟨mode, hbytes⟩, fun seq' hsent => ?_⟩
  have hon : v.flushing = true := by
    by_contra hoff
    rw [hv.off (Bool.eq_false_iff.mpr hoff)] at horig
    cases horig
  exact ((hk hon).number_eq horig hwrote hnumber hsent).symm

end runs

/-- A command is sent, waits out its time and goes back to the queue. -/
def timedOutLabels : List (Label (machine {} "c")) :=
  connect ++ call 0 (.enqueue { commandID := 9 } 0) 20 ++ call 0 .flush 40 ++
    call 0 .process 20 { time := 10 * second, order := [1] }

theorem resent_under_first_number :
    ∃ c, Reachable (retryRules {} "c") ({}, []) c ∧ c.world.1.numbers 0 = [1, 1] ∧
      ∀ seq, c.world.1.SentUnder 0 seq → seq = 1 := by
  have hresent : ∃ c, Reachable (retryRules {} "c") ({}, []) c ∧ c.world.1.numbers 0 = [1, 1] :=
    ⟨_, Reachable.initial.run ((timedOutLabels ++ call 0 .flush 40).map Label.traced),
      by decide +kernel⟩
  obtain ⟨c, hc, hnumbers⟩ := hresent
  have hsent : c.world.1.SentUnder 0 1 := by
    rw [World.SentUnder, hnumbers]
    exact List.mem_cons_self
  exact ⟨c, hc, hnumbers, fun seq hagain =>
    (retransmitted_under_first_number hc).1 0 1 seq hsent hagain⟩

/-- The controller has five bytes free when the command comes up again, so it goes back to the
queue and loses its number. With more bytes free it then goes out under the next one. -/
def unnumberedLabels : List (Label (machine {} "c")) :=
  timedOutLabels ++ call 0 (.status1 7 ⟨255, 1, [2, 0, 0, 0, 0, 0, 0, 5, 0], .sequenced⟩) 5 ++
    call 0 .flush 40 ++
    call 0 (.status1 7 ⟨255, 2, [2, 0, 0, 0, 0, 0, 0, 100, 0], .sequenced⟩) 5 ++
    call 0 .flush 40

theorem resent_under_new_number :
    ∃ c, Reachable (.any (machine {} "c").traced) ({}, []) c ∧
      (∀ e ∈ c.world.1.log, e ≠ .restarted) ∧ .timedOut 0 1 ∈ c.world.1.log ∧
      c.world.1.numbers 0 = [2, 1] :=
  ⟨_, Reachable.initial.run (unnumberedLabels.map Label.traced), by decide +kernel⟩

end TcpAdapter.Delivery
