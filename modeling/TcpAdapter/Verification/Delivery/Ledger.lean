import TcpAdapter.Verification.Delivery.Custody

/-! # Custody in the running system

What a thread knows about the commands it has is what the ghost state of the world says,
and no other thread can change it. -/

namespace TcpAdapter.Delivery

open TcpAdapter.Concurrent TcpAdapter.Queue TcpAdapter.Protocol TcpAdapter.Manager
open TcpAdapter.Policy

/-- The world agrees with what the thread knows. -/
structure Knows (tid : ℕ) (w : World) (v : Custody) : Prop where
  flushing : v.flushing = true ↔ w.flushMu = some tid
  hands : v.flushing = true → w.hands = v.hands
  current : v.flushing = true → w.current = v.current
  written : v.flushing = true → w.written = v.written
  owed : ∀ h, w.owed.count (tid, h) = v.owed.count h
  session : v.session = true → w.session.isSome
  admitted : ∀ t ∈ v.admitted, t < w.tickets

/-- Without a flush nothing is in a flush's hands. -/
structure HandsFree (w : World) : Prop where
  hands : w.flushMu = none → w.hands = 0
  current : w.flushMu = none → w.current = none
  written : w.flushMu = none → w.written = none

/-- The step leaves the custody of every thread but `tid` alone. -/
structure Frame (tid : ℕ) (w w' : World) : Prop where
  flushMu : ∀ other, other ≠ tid → (w'.flushMu = some other ↔ w.flushMu = some other)
  hands : w.flushMu ≠ some tid → w.flushMu ≠ none → w'.hands = w.hands
  current : w.flushMu ≠ some tid → w.flushMu ≠ none → w'.current = w.current
  written : w.flushMu ≠ some tid → w.flushMu ≠ none → w'.written = w.written
  owed : ∀ other h, other ≠ tid → w'.owed.count (other, h) = w.owed.count (other, h)
  session : w.session.isSome → w'.session.isSome
  tickets : w.tickets ≤ w'.tickets

theorem Knows.frame {tid other : ℕ} {w w' : World} {u : Custody} (h : Knows other w u)
    (hframe : Frame tid w w') (hne : other ≠ tid) : Knows other w' u := by
  have hother : u.flushing = true → w.flushMu ≠ some tid ∧ w.flushMu ≠ none := by
    intro hu
    rw [h.flushing.mp hu]
    exact ⟨fun heq => hne (Option.some.inj heq), by simp⟩
  refine ⟨h.flushing.trans (hframe.flushMu other hne).symm, ?_, ?_, ?_, ?_,
    hframe.session ∘ h.session, fun t ht => (h.admitted t ht).trans_le hframe.tickets⟩
  · intro hu
    rw [hframe.hands (hother hu).1 (hother hu).2, h.hands hu]
  · intro hu
    rw [hframe.current (hother hu).1 (hother hu).2, h.current hu]
  · intro hu
    rw [hframe.written (hother hu).1 (hother hu).2, h.written hu]
  · intro hd
    rw [hframe.owed other hd hne, h.owed hd]

/-- A step of the thread that holds the flush lock and keeps it. -/
theorem Frame.of_holder {tid : ℕ} {w w' : World} (hmu : w.flushMu = some tid)
    (hmu' : w'.flushMu = w.flushMu)
    (howed : ∀ other h, other ≠ tid → w'.owed.count (other, h) = w.owed.count (other, h))
    (hsession : w.session.isSome → w'.session.isSome) (htickets : w.tickets ≤ w'.tickets) :
    Frame tid w w' where
  flushMu _ _ := by rw [hmu']
  hands hne := absurd hmu hne
  current hne := absurd hmu hne
  written hne := absurd hmu hne
  owed := howed
  session := hsession
  tickets := htickets

theorem HandsFree.of_holder {tid : ℕ} {w : World} (hmu : w.flushMu = some tid) :
    HandsFree w := by
  constructor <;> simp [hmu]

theorem HandsFree.of_eq {w w' : World} (h : HandsFree w) (hmu : w'.flushMu = w.flushMu)
    (hhands : w'.hands = w.hands) (hcurrent : w'.current = w.current)
    (hwritten : w'.written = w.written) : HandsFree w' := by
  refine ⟨fun hfree => ?_, fun hfree => ?_, fun hfree => ?_⟩ <;> rw [hmu] at hfree
  · rw [hhands, h.hands hfree]
  · rw [hcurrent, h.current hfree]
  · rw [hwritten, h.written hfree]

/-! ## Calm steps -/

theorem World.Calm.frame {w w' : World} (h : w.Calm w') (tid : ℕ) : Frame tid w w' where
  flushMu _ _ := by rw [h.flushMu]
  hands _ _ := h.hands
  current _ _ := h.current
  written _ _ := h.written
  owed _ _ _ := by rw [h.owed]
  session := h.session
  tickets := h.tickets.ge

theorem World.Calm.handsFree {w w' : World} (h : w.Calm w') (hfree : HandsFree w) :
    HandsFree w' :=
  hfree.of_eq h.flushMu h.hands h.current h.written

theorem Knows.calm {tid : ℕ} {w w' : World} {v : Custody} (h : Knows tid w v)
    (hc : w.Calm w') : Knows tid w' v where
  flushing := by rw [hc.flushMu, h.flushing]
  hands hv := by rw [hc.hands, h.hands hv]
  current hv := by rw [hc.current, h.current hv]
  written hv := by rw [hc.written, h.written hv]
  owed hd := by rw [hc.owed, h.owed hd]
  session := hc.session ∘ h.session
  admitted t ht := by rw [hc.tickets]; exact h.admitted t ht

/-! ## Saves that keep the account -/

/-- The saves that must not fail: those between the moment a flush has registered a command
and the moment it has reported it, and the one that ends a `ProcessInFlight` with
something to report. -/
def mustSave (w : World) (tid : ℕ) : Act → Bool
  | .registerInFlight _ _ _ | .ackSent | .setSyncMode true => true
  | .setFWMode true => w.flushMu = some tid
  | .persist => tid ∈ w.owed.map Prod.fst
  | _ => false

def GoodSave (w : World) (tid : ℕ) (a : Act) (inp : Input) : Prop :=
  mustSave w tid a = true → inp.saveErr = none

instance (w : World) (tid : ℕ) (a : Act) (inp : Input) : Decidable (GoodSave w tid a inp) :=
  inferInstanceAs (Decidable (_ → _))

/-! ## One action -/

/-- What an action that the protocol permits does to custody. -/
structure Kept (strict : Prop) (tid : ℕ) (w w' : World) (v : Custody) (a : Act) (r : a.Res) :
    Prop where
  free : HandsFree w'
  answers : v.Answers strict a r
  knows : Knows tid w' (v.after a r)
  frame : Frame tid w w'

section exec

variable {cfg : Config} {id : String} {strict : Prop} {tid : ℕ} {w w' : World} {v : Custody}
  {inp : Input}

theorem Kept.of_calm {a : Act} {r : a.Res} (hc : w.Calm w') (hfree : HandsFree w)
    (hknows : Knows tid w v) (hafter : v.after a r = v) (hanswers : v.Answers strict a r) :
    Kept strict tid w w' v a r where
  free := hc.handsFree hfree
  answers := hanswers
  knows := by rw [hafter]; exact hknows.calm hc
  frame := hc.frame tid

theorem kept_transmit {conn : ConnID} {bytes : List UInt8} {cmd : Command} {seq : UInt8}
    {r : Option Error} (hfree : HandsFree w) (hknows : Knows tid w v)
    (hmay : v.May strict (.transmit conn bytes cmd seq))
    (h : exec cfg id tid w (.transmit conn bytes cmd seq) inp = some (w', r)) :
    Kept strict tid w w' v (.transmit conn bytes cmd seq) r := by
  have hmu : w.flushMu = some tid := hknows.flushing.mp hmay.1
  simp only [exec, execTransmit] at h
  split at h
  · cases h
    exact .of_calm (World.Quiet.refl w).toCalm hfree hknows rfl trivial
  · cases h
    exact
      { free := .of_holder hmu
        answers := trivial
        knows := ⟨hknows.flushing, hknows.hands, hknows.current, fun _ => rfl, hknows.owed,
          hknows.session, hknows.admitted⟩
        frame := .of_holder hmu rfl (fun _ _ _ => rfl) (fun h => h) le_rfl }

theorem mem_owed_iff (hknows : Knows tid w v) (h : Hand) : (tid, h) ∈ w.owed ↔ h ∈ v.owed := by
  rw [← Multiset.count_pos, ← Multiset.count_pos, hknows.owed h]

/-- The ghost state settles a report as the thread's own account does. -/
theorem Knows.settle (hknows : Knows tid w v) (h : Hand) :
    Knows tid (w.settle tid h) (v.settle h) ∧ Frame tid w (w.settle tid h) := by
  unfold World.settle Custody.settle
  by_cases howed : h ∈ v.owed
  · have hw := (mem_owed_iff hknows h).mpr howed
    rw [if_pos howed, if_pos hw]
    refine ⟨⟨hknows.flushing, hknows.hands, hknows.current, hknows.written, ?_,
      hknows.session, hknows.admitted⟩, ?_⟩
    · intro h'
      by_cases hh : h' = h
      · subst hh
        simp [Multiset.count_erase_self, hknows.owed]
      · have hne : (tid, h') ≠ (tid, h) := fun heq => hh (Prod.mk.inj heq).2
        simp [Multiset.count_erase_of_ne hne, Multiset.count_erase_of_ne hh, hknows.owed]
    · refine ⟨fun _ _ => Iff.rfl, fun _ _ => rfl, fun _ _ => rfl, fun _ _ => rfl, ?_,
        fun h => h, le_rfl⟩
      intro other h' hne
      have hpair : (other, h') ≠ (tid, h) := fun heq => hne (Prod.mk.inj heq).1
      simp [Multiset.count_erase_of_ne hpair]
  · have hw : ¬(tid, h) ∈ w.owed := fun hw => howed ((mem_owed_iff hknows h).mp hw)
    rw [if_neg howed, if_neg hw]
    by_cases hcur : v.flushing = true ∧ v.current = some h
    · have hmu := hknows.flushing.mp hcur.1
      have hwcur : w.flushMu = some tid ∧ w.current = some h :=
        ⟨hmu, (hknows.current hcur.1).trans hcur.2⟩
      rw [if_pos hcur, if_pos hwcur]
      refine ⟨⟨hknows.flushing, ?_, ?_, hknows.written, hknows.owed, hknows.session,
        hknows.admitted⟩, ?_⟩
      · intro hv
        simp [Custody.release, hknows.hands hv]
      · intro hv
        simp [Custody.release, hknows.current hv]
      · exact .of_holder hmu rfl (fun _ _ _ => rfl) (fun h => h) le_rfl
    · have hwcur : ¬(w.flushMu = some tid ∧ w.current = some h) := by
        rintro ⟨hmu, hc⟩
        have hv := hknows.flushing.mpr hmu
        exact hcur ⟨hv, (hknows.current hv).symm.trans hc⟩
      rw [if_neg hcur, if_neg hwcur]
      exact ⟨hknows, (World.Quiet.refl w).toCalm.frame tid⟩

theorem HandsFree.settle (hfree : HandsFree w) (h : Hand) : HandsFree (w.settle tid h) := by
  unfold World.settle
  split
  · exact ⟨hfree.hands, hfree.current, hfree.written⟩
  · split
    · rename_i hcur
      exact .of_holder (w := w.release h) hcur.1
    · exact hfree

theorem kept_publish {event : AckEvent} {cmd : Command} {r : Unit} (hfree : HandsFree w)
    (hknows : Knows tid w v)
    (h : exec cfg id tid w (.publishAckWithCommand event cmd) inp = some (w', r)) :
    Kept strict tid w w' v (.publishAckWithCommand event cmd) r := by
  have hnote : Knows tid (w.note (.published event (some cmd.ticket))) v :=
    ⟨hknows.flushing, hknows.hands, hknows.current, hknows.written, hknows.owed,
      hknows.session, hknows.admitted⟩
  have hfree' : HandsFree (w.note (.published event (some cmd.ticket))) :=
    ⟨hfree.hands, hfree.current, hfree.written⟩
  cases h
  unfold execPublish
  cases hterminal : isTerminalAckStatus event.status with
  | true =>
      obtain ⟨hk, hf⟩ := hnote.settle cmd.hand
      exact
        { free := by simpa [hterminal] using hfree'.settle cmd.hand
          answers := trivial
          knows := by simpa [hterminal, Custody.after] using hk
          frame := by
            simp only [if_true]
            exact ⟨hf.flushMu, hf.hands, hf.current, hf.written, hf.owed, hf.session,
              hf.tickets⟩ }
  | false =>
      exact
        { free := hfree'
          answers := trivial
          knows := by simpa [hterminal, Custody.after] using hnote
          frame := ⟨fun _ _ => Iff.rfl, fun _ _ => rfl, fun _ _ => rfl, fun _ _ => rfl,
            fun _ _ _ => rfl, fun h => h, le_rfl⟩ }

theorem kept_lockFlush {r : Unit} (hfree : HandsFree w) (hknows : Knows tid w v)
    (h : exec cfg id tid w .lockFlush inp = some (w', r)) :
    Kept strict tid w w' v .lockFlush r := by
  simp only [exec] at h
  split at h
  · rename_i hmu
    cases h
    exact
      { free := HandsFree.of_holder (show _ = some tid from rfl)
        answers := trivial
        knows := ⟨by simp [Custody.after], fun _ => hfree.hands hmu, fun _ => hfree.current hmu,
          fun _ => hfree.written hmu, hknows.owed, hknows.session, hknows.admitted⟩
        frame :=
          { flushMu := by
              intro other hne
              simp [hmu, Ne.symm hne]
            hands := fun _ hne => absurd hmu hne
            current := fun _ hne => absurd hmu hne
            written := fun _ hne => absurd hmu hne
            owed := fun _ _ _ => rfl
            session := fun h => h
            tickets := le_rfl } }
  · cases h

theorem kept_unlockFlush {r : Unit} (hknows : Knows tid w v)
    (hmay : v.May strict .unlockFlush)
    (h : exec cfg id tid w .unlockFlush inp = some (w', r)) :
    Kept strict tid w w' v .unlockFlush r := by
  have hmu : w.flushMu = some tid := hknows.flushing.mp hmay.1
  cases h
  exact
    { free := ⟨fun _ => rfl, fun _ => rfl, fun _ => rfl⟩
      answers := trivial
      knows := ⟨by simp [Custody.after], by simp [Custody.after], by simp [Custody.after],
        by simp [Custody.after], hknows.owed, hknows.session, hknows.admitted⟩
      frame :=
        { flushMu := by
            intro other hne
            simp [hmu, Ne.symm hne]
          hands := fun hne => absurd hmu hne
          current := fun hne => absurd hmu hne
          written := fun hne => absurd hmu hne
          owed := fun _ _ _ => rfl
          session := fun h => h
          tickets := le_rfl } }

theorem kept_popNext {now : Time} {fwMode syncMode : Bool} {r : Option Command}
    (hfree : HandsFree w) (hknows : Knows tid w v)
    (hmay : v.May strict (.popNext now fwMode syncMode))
    (h : exec cfg id tid w (.popNext now fwMode syncMode) inp = some (w', r)) :
    Kept strict tid w w' v (.popNext now fwMode syncMode) r := by
  have hmu : w.flushMu = some tid := hknows.flushing.mp hmay.1
  simp only [exec, execPop] at h
  split at h
  · cases h
    exact .of_calm (World.Quiet.refl w).toCalm hfree hknows rfl trivial
  · cases h
    exact
      { free := .of_holder hmu
        answers := trivial
        knows := ⟨hknows.flushing, fun hv => by simp [Custody.after, hknows.hands hv],
          fun _ => rfl, hknows.written, hknows.owed,
          fun hv => by simpa using hknows.session hv, hknows.admitted⟩
        frame := .of_holder hmu rfl (fun _ _ _ => rfl) (fun h => by simpa using h) le_rfl }

theorem count_owned (cmds : List Command) (hd : Hand) :
    Multiset.count (tid, hd) (cmds.map fun c => (tid, c.hand) : List (ℕ × Hand)) =
      Multiset.count hd (cmds.map Command.hand : List Hand) := by
  induction cmds with
  | nil => rfl
  | cons c cmds ih =>
      simp only [List.map_cons, ← Multiset.cons_coe, Multiset.count_cons, ih, Prod.mk.injEq,
        true_and]

theorem count_owned_of_ne {other : ℕ} (hne : other ≠ tid) (cmds : List Command) (hd : Hand) :
    Multiset.count (other, hd) (cmds.map fun c => (tid, c.hand) : List (ℕ × Hand)) = 0 := by
  rw [Multiset.count_eq_zero]
  simp [Ne.symm hne]

theorem kept_drainExpired {now : Time} {r : List Command} (hknows : Knows tid w v)
    (hmay : v.May strict (.drainExpired now))
    (h : exec cfg id tid w (.drainExpired now) inp = some (w', r)) :
    Kept strict tid w w' v (.drainExpired now) r := by
  have hmu : w.flushMu = some tid := hknows.flushing.mp hmay.1
  obtain ⟨rfl, rfl⟩ := Prod.mk.inj (Option.some.inj h)
  exact
    { free := .of_holder hmu
      answers := trivial
      knows := ⟨hknows.flushing, hknows.hands, hknows.current, hknows.written,
        fun hd => by simp only [Multiset.count_add, count_owned, hknows.owed, Custody.after],
        fun hv => by simpa using hknows.session hv, hknows.admitted⟩
      frame := .of_holder hmu rfl
        (fun other hd hne => by simp only [Multiset.count_add, count_owned_of_ne hne, Nat.zero_add])
        (fun h => by simpa using h) le_rfl }

theorem kept_push {cmd : Command} {r : Unit} (hknows : Knows tid w v)
    (hmay : v.May strict (.push cmd))
    (h : exec cfg id tid w (.push cmd) inp = some (w', r)) :
    Kept strict tid w w' v (.push cmd) r := by
  have hmu : w.flushMu = some tid := hknows.flushing.mp hmay.1
  cases h
  exact
    { free := .of_holder hmu
      answers := trivial
      knows := ⟨hknows.flushing,
        fun hv => by simp [execPush, Custody.after, Custody.release, hknows.hands hv],
        fun hv => by simp [execPush, Custody.after, Custody.release, hknows.current hv],
        hknows.written, hknows.owed, fun hv => by simpa [execPush] using hknows.session hv,
        hknows.admitted⟩
      frame := .of_holder hmu rfl (fun _ _ _ => rfl) (fun h => by simpa [execPush] using h) le_rfl }

/-- An action that changes the session, the log or the number of tickets only. -/
theorem Kept.of_eq {a : Act} {r : a.Res} (hfree : HandsFree w) (hknows : Knows tid w v)
    (hafter : v.after a r = v) (hanswers : v.Answers strict a r)
    (hmu : w'.flushMu = w.flushMu) (hhands : w'.hands = w.hands)
    (hcurrent : w'.current = w.current) (hwritten : w'.written = w.written)
    (howed : w'.owed = w.owed) (hsession : w.session.isSome → w'.session.isSome)
    (htickets : w.tickets ≤ w'.tickets) : Kept strict tid w w' v a r where
  free := hfree.of_eq hmu hhands hcurrent hwritten
  answers := hanswers
  knows := by
    rw [hafter]
    exact ⟨by rw [hmu]; exact hknows.flushing, hhands ▸ hknows.hands, hcurrent ▸ hknows.current,
      hwritten ▸ hknows.written, howed ▸ hknows.owed, hsession ∘ hknows.session,
      fun t ht => (hknows.admitted t ht).trans_le htickets⟩
  frame := ⟨fun _ _ => by rw [hmu], fun _ _ => hhands, fun _ _ => hcurrent, fun _ _ => hwritten,
    fun _ _ _ => by rw [howed], hsession, htickets⟩

theorem kept_dropOldest {r : Option Command} (hfree : HandsFree w) (hknows : Knows tid w v)
    (h : exec cfg id tid w .dropOldest inp = some (w', r)) :
    Kept strict tid w w' v .dropOldest r := by
  simp only [exec, execDropOldest] at h
  split at h
  · cases h
    exact .of_calm (World.Quiet.refl w).toCalm hfree hknows rfl trivial
  · cases h
    exact .of_eq hfree hknows rfl trivial rfl rfl rfl rfl rfl (fun h => by simpa using h) le_rfl

theorem kept_pushNew {cmd : Command} {r : ℕ} (hfree : HandsFree w) (hknows : Knows tid w v)
    (h : exec cfg id tid w (.pushNew cmd) inp = some (w', r)) :
    Kept strict tid w w' v (.pushNew cmd) r := by
  cases h
  have hkept : Kept strict tid w (execPushNew w cmd).1 v .now 0 :=
    .of_eq hfree hknows rfl trivial rfl rfl rfl rfl rfl
      (fun h => by simpa [execPushNew] using h) (Nat.le_succ _)
  exact
    { free := hkept.free
      answers := trivial
      knows := ⟨hknows.flushing, hknows.hands, hknows.current, hknows.written, hknows.owed,
        hkept.knows.session, fun t ht => by cases ht; exact Nat.lt_succ_self _⟩
      frame := hkept.frame }

theorem kept_registerInFlight {seq : UInt8} {cmd : Command} {sentAt : Time} {r : Option Error}
    (hknows : Knows tid w v) (hmay : v.May strict (.registerInFlight seq cmd sentAt))
    (hgood : strict → inp.saveErr = none)
    (h : exec cfg id tid w (.registerInFlight seq cmd sentAt) inp = some (w', r)) :
    Kept strict tid w w' v (.registerInFlight seq cmd sentAt) r := by
  have hmu : w.flushMu = some tid := hknows.flushing.mp hmay.1
  obtain ⟨-, -, hmu', htickets, hhands, hcurrent, hwritten, howed, hsession, -, -, hr⟩ :=
    exec_registerInFlight (hknows.session hmay.2.1) h
  exact
    { free := .of_holder (hmu'.trans hmu)
      answers := by
        cases r with
        | none => trivial
        | some err =>
            intro hstrict
            rw [hgood hstrict] at hr
            cases hr
      knows := ⟨by rw [hmu']; exact hknows.flushing,
        fun hv => by rw [hhands, hknows.hands hv]; rfl,
        fun hv => by rw [hcurrent, hknows.current hv]; rfl, fun _ => hwritten,
        fun hd => by rw [howed]; exact hknows.owed hd, fun _ => hsession,
        fun t ht => by rw [htickets]; exact hknows.admitted t ht⟩
      frame := .of_holder hmu hmu' (fun _ _ _ => by rw [howed]) (fun _ => hsession) htickets.ge }

/-- An action by which the thread comes to owe a report. -/
theorem Kept.owe {a : Act} {r : a.Res} {hd : Hand} (hfree : HandsFree w) (hknows : Knows tid w v)
    (hafter : v.after a r = { v with owed := hd ::ₘ v.owed }) (hanswers : v.Answers strict a r)
    (hmu : w'.flushMu = w.flushMu) (hhands : w'.hands = w.hands)
    (hcurrent : w'.current = w.current) (hwritten : w'.written = w.written)
    (howed : w'.owed = (tid, hd) ::ₘ w.owed) (hsession : w.session.isSome → w'.session.isSome)
    (htickets : w'.tickets = w.tickets) : Kept strict tid w w' v a r where
  free := hfree.of_eq hmu hhands hcurrent hwritten
  answers := hanswers
  knows := by
    rw [hafter]
    refine ⟨by rw [hmu]; exact hknows.flushing, hhands ▸ hknows.hands, hcurrent ▸ hknows.current,
      hwritten ▸ hknows.written, ?_, hsession ∘ hknows.session, htickets ▸ hknows.admitted⟩
    intro h
    rw [howed, Multiset.count_cons, Multiset.count_cons, hknows.owed]
    simp
  frame := by
    refine ⟨fun _ _ => by rw [hmu], fun _ _ => hhands, fun _ _ => hcurrent, fun _ _ => hwritten,
      ?_, hsession, htickets.ge⟩
    intro other h hne
    rw [howed, Multiset.count_cons_of_ne]
    exact fun heq => hne (Prod.mk.inj heq).1

theorem kept_ackInFlight {seq : UInt8} {r : Option (Command × Int)} (hfree : HandsFree w)
    (hknows : Knows tid w v) (h : exec cfg id tid w (.ackInFlight seq) inp = some (w', r)) :
    Kept strict tid w w' v (.ackInFlight seq) r := by
  rcases exec_ackInFlight h with ⟨rfl, hquiet, -⟩ | ⟨entry, rfl, ht⟩
  · exact .of_calm hquiet.toCalm hfree hknows rfl trivial
  · exact .owe hfree hknows rfl trivial ht.flushMu ht.hands ht.current ht.written ht.owed
      ht.session ht.tickets

theorem kept_visitInFlight {seq : UInt8} {now : Time} {r : Option InFlightOutcome}
    (hfree : HandsFree w) (hknows : Knows tid w v)
    (h : exec cfg id tid w (.visitInFlight seq now) inp = some (w', r)) :
    Kept strict tid w w' v (.visitInFlight seq now) r := by
  rcases exec_visitInFlight h with
    ⟨rfl, rfl⟩ | ⟨entry, out, rfl, ⟨htype, hq⟩ | ⟨htype, hcmd, ht⟩⟩
  · exact .of_calm (World.Quiet.refl _).toCalm hfree hknows rfl trivial
  · refine .of_eq hfree hknows ?_ trivial hq.flushMu hq.hands hq.current hq.written hq.owed
      hq.session hq.tickets.ge
    simp [Custody.after, htype]
  · refine .owe hfree hknows ?_ trivial ht.flushMu ht.hands ht.current ht.written ht.owed
      ht.session ht.tickets
    cases htype' : out.type with
    | retrying => exact absurd htype' htype
    | expired => simp [Custody.after, htype', hcmd]
    | failed => simp [Custody.after, htype', hcmd]

theorem kept_persist {r : Option Error} (hfree : HandsFree w) (hknows : Knows tid w v)
    (hgood : strict → (∃ o ∈ w.owed, o.1 = tid) → inp.saveErr = none)
    (h : exec cfg id tid w .persist inp = some (w', r)) :
    Kept strict tid w w' v .persist r := by
  obtain ⟨hok, ⟨rfl, hquiet⟩ | ⟨hr, w₁, hquiet, rfl⟩⟩ := exec_persist h
  · exact .of_calm hquiet.toCalm hfree hknows rfl trivial
  · obtain ⟨err, rfl⟩ := Option.ne_none_iff_exists'.mp hr
    have hknows₁ := hknows.calm hquiet.toCalm
    have hfree₁ := hquiet.toCalm.handsFree hfree
    have hframe := hquiet.toCalm.frame tid
    exact
      { free := ⟨hfree₁.hands, hfree₁.current, hfree₁.written⟩
        answers := by
          intro howed hstrict
          obtain ⟨hd, hmem⟩ := Multiset.exists_mem_of_ne_zero howed
          have hsave := hgood hstrict ⟨_, (mem_owed_iff hknows hd).mpr hmem, rfl⟩
          cases hok hsave
        knows := ⟨hknows₁.flushing, hknows₁.hands, hknows₁.current, hknows₁.written,
          fun hd => by simp [Custody.after], hknows₁.session, hknows₁.admitted⟩
        frame := ⟨hframe.flushMu, hframe.hands, hframe.current, hframe.written,
          fun other hd hne => by
            rw [← hframe.owed other hd hne]
            exact Multiset.count_filter_of_pos hne,
          hframe.session, hframe.tickets⟩ }

theorem kept_persistEnqueued {ticket : ℕ} {r : Option Error} (hfree : HandsFree w)
    (hknows : Knows tid w v)
    (h : exec cfg id tid w (.persistEnqueued ticket) inp = some (w', r)) :
    Kept strict tid w w' v (.persistEnqueued ticket) r := by
  obtain ⟨w₁, hquiet, ⟨rfl, rfl⟩ | ⟨hr, rfl⟩⟩ := exec_persistEnqueued h
  · have hkept : Kept strict tid w w₁ v (.persistEnqueued ticket) none :=
      .of_calm hquiet.toCalm hfree hknows rfl trivial
    exact
      { free := ⟨hkept.free.hands, hkept.free.current, hkept.free.written⟩
        answers := trivial
        knows := ⟨hkept.knows.flushing, hkept.knows.hands, hkept.knows.current,
          hkept.knows.written, hkept.knows.owed, hkept.knows.session, hkept.knows.admitted⟩
        frame := ⟨hkept.frame.flushMu, hkept.frame.hands, hkept.frame.current,
          hkept.frame.written, hkept.frame.owed, hkept.frame.session, hkept.frame.tickets⟩ }
  · exact .of_calm hquiet.toCalm hfree hknows rfl trivial

/-! ## The discipline -/

/-- Every action that the protocol of custody permits keeps custody. -/
theorem exec_kept {a : Act} {r : a.Res} (hfree : HandsFree w) (hknows : Knows tid w v)
    (hmay : v.May strict a) (hgood : strict → GoodSave w tid a inp)
    (h : exec cfg id tid w a inp = some (w', r)) : Kept strict tid w w' v a r := by
  cases a with
  | now | write | publishAck | lockManager | unlockManager | queueLen | queueBytes | hasFW
  | hasSync | create | markOffline | touch | updateBufferFree | setFrameMode | inFlightCount
  | peekInFlight | findSession | dedupTime | setDedup | inFlightOrder | spin =>
      exact .of_calm (exec_quiet rfl h).toCalm hfree hknows rfl trivial
  | deliveryContext =>
      have heq := guarded_eq_some h
      obtain ⟨rfl, rfl⟩ := Prod.mk.inj heq
      have hkept : Kept strict tid w w v .now 0 :=
        .of_calm (World.Quiet.refl w).toCalm hfree hknows rfl trivial
      cases hs : w.session with
      | none => exact .of_calm (World.Quiet.refl w).toCalm hfree hknows rfl trivial
      | some s =>
          exact
            { free := hfree
              answers := trivial
              knows := ⟨hknows.flushing, hknows.hands, hknows.current, hknows.written,
                hknows.owed, fun _ => by rw [hs]; rfl, hknows.admitted⟩
              frame := hkept.frame }
  | ensureSession =>
      have hc := (exec_quiet rfl h).toCalm
      cases r with
      | some err => exact .of_calm hc hfree hknows rfl trivial
      | none =>
          have heq := Prod.mk.inj (Option.some.inj h)
          have hsession : w'.session.isSome := by
            have hres : w.slot.ensureSession id inp.time inp.saveErr =
              ((w.slot.ensureSession id inp.time inp.saveErr).1, none) := Prod.ext rfl heq.2
            rw [← heq.1]
            exact ensureSession_none hres
          have hk := hknows.calm hc
          exact
            { free := hc.handsFree hfree
              answers := trivial
              knows := ⟨hk.flushing, hk.hands, hk.current, hk.written, hk.owed,
                fun _ => hsession, hk.admitted⟩
              frame := hc.frame tid }
  | ackSent =>
      refine .of_calm (exec_quiet rfl h).toCalm hfree hknows rfl ?_
      cases r with
      | none => trivial
      | some err =>
          intro hstrict
          have heq := Prod.mk.inj (guarded_eq_some h)
          rw [ackSent_error w.slot (hgood hstrict rfl)] at heq
          cases heq.2
  | setFWMode enabled =>
      obtain ⟨hc, -, -, -, hok⟩ := exec_setFWMode h
      refine .of_calm hc hfree hknows rfl ?_
      cases r with
      | none => cases enabled <;> trivial
      | some err =>
          cases enabled with
          | false => trivial
          | true =>
              intro hv hstrict
              cases hok (hgood hstrict (decide_eq_true (hknows.flushing.mp hv)))
  | setSyncMode enabled =>
      obtain ⟨hc, -, -, -, hok⟩ := exec_setSyncMode h
      refine .of_calm hc hfree hknows rfl ?_
      cases r with
      | none => cases enabled <;> trivial
      | some err =>
          cases enabled with
          | false => trivial
          | true =>
              intro hstrict
              cases hok (hgood hstrict rfl)
  | nextCommandSeq =>
      obtain ⟨hc, -, -, hr⟩ := exec_nextCommandSeq h
      refine .of_calm hc hfree hknows rfl ?_
      cases r with
      | ok seq => trivial
      | error err =>
          cases hv : v.session with
          | false => exact hv
          | true => cases (hr (hknows.session hv)).2
  | transmit => exact kept_transmit hfree hknows hmay h
  | publishAckWithCommand => exact kept_publish hfree hknows h
  | lockFlush => exact kept_lockFlush hfree hknows h
  | unlockFlush => exact kept_unlockFlush hknows hmay h
  | popNext => exact kept_popNext hfree hknows hmay h
  | drainExpired => exact kept_drainExpired hknows hmay h
  | push => exact kept_push hknows hmay h
  | dropOldest => exact kept_dropOldest hfree hknows h
  | pushNew => exact kept_pushNew hfree hknows h
  | registerInFlight => exact kept_registerInFlight hknows hmay (fun hs => hgood hs rfl) h
  | ackInFlight => exact kept_ackInFlight hfree hknows h
  | visitInFlight => exact kept_visitInFlight hfree hknows h
  | persist =>
      refine kept_persist hfree hknows (fun hs howed => hgood hs ?_) h
      exact decide_eq_true (Multiset.mem_map.mpr howed)
  | persistEnqueued => exact kept_persistEnqueued hfree hknows h

end exec

/-- The discipline of custody, on runs under rules `R` in which, if `strict`, the saves that
must not fail do not. -/
def ledger (cfg : Config) (id : String) (strict : Prop) (R : Rules (machine cfg id))
    (hgood : strict → ∀ w tid a inp, R.act w tid a inp → GoodSave w tid a inp) :
    Discipline (machine cfg id) R {} Custody where
  protocol := Custody.protocol strict
  knows := Knows
  idle := Custody.Idle
  inv := HandsFree
  init := by
    refine ⟨⟨fun _ => rfl, fun _ => rfl, fun _ => rfl⟩, fun tid => ⟨{}, ?_, rfl, rfl⟩⟩
    exact ⟨by simp, by simp, by simp, by simp, by simp, by simp, by simp⟩
  start _ _ hidle _ := (Custody.taskSpec cfg id).prog _ hidle
  act hfree hknows hr hmay h := by
    have hkept := exec_kept hfree hknows hmay (fun hs => hgood hs _ _ _ _ hr) h
    refine ⟨hkept.free, ⟨_, ⟨hkept.answers, rfl⟩, hkept.knows⟩, ?_⟩
    intro other hne u hu
    exact hu.frame hkept.frame hne
  crash _ _ := by
    refine ⟨⟨fun _ => rfl, fun _ => rfl, fun _ => rfl⟩, fun tid => ⟨{}, ?_, rfl, rfl⟩⟩
    exact ⟨by simp, by simp, by simp, by simp, by simp, by simp, by simp⟩

end TcpAdapter.Delivery
