import TcpAdapter.Concurrent.Trace
import TcpAdapter.Verification.Delivery.Links

/-! # The free buffer of the controller

The free buffer that the controller has last advertised is what the session holds, until the
process restarts: an advertised buffer is not saved. A flush takes it for its budget, once, and
writes no more bytes than that, whatever the others do meanwhile. A buffer of no bytes counts as
one of 1500. -/

namespace TcpAdapter.Delivery

open TcpAdapter.Concurrent TcpAdapter.Queue TcpAdapter.Protocol TcpAdapter.Manager
open TcpAdapter.Policy

/-! ## What a flush has written -/

/-- The context that a flush has got, and the bytes that it has handed to the connection since. A
write that fails counts too: some of its bytes may have gone out. -/
abbrev Usage := Option (DeliveryContext × ℕ)

def Usage.after (u : Usage) : (a : Act) → a.Res → Usage
  | .deliveryContext, dctx => dctx.map fun dctx => (dctx, 0)
  | .transmit _ bytes _ _, _ => u.map fun u => (u.1, u.2 + bytes.length)
  | _, _ => u

/-- The last flush of a thread. -/
def flushUsage (tid : ℕ) : List (Entry sig) → Usage
  | [] => none
  | .did other a r :: older =>
      if other = tid then (flushUsage tid older).after a r else flushUsage tid older
  | .crashed :: _ => none

/-- The bytes that the last flush of a thread has handed to the connection. -/
def flushBytes (tid : ℕ) (trace : List (Entry sig)) : Option ℕ :=
  (flushUsage tid trace).map Prod.snd

/-- The bytes stay within the budget. -/
def Usage.Within (u : Usage) : Prop :=
  ∀ dctx n, u = some (dctx, n) → (n : Int) ≤ maxBudget dctx

theorem Usage.within_none : Usage.Within none := by
  intro dctx n h
  cases h

theorem Usage.after_tending {a : Act} (ha : a.Tending) (u : Usage) (r : a.Res) :
    u.after a r = u := by
  cases a with
  | deliveryContext | transmit => cases ha
  | _ => rfl

theorem Usage.after_offFlush {a : Act} (ha : a.OffFlush) (u : Usage) (r : a.Res) :
    u.after a r = u := by
  cases a with
  | deliveryContext | transmit => cases ha
  | _ => rfl

theorem maxBudget_pos (dctx : DeliveryContext) : 0 < maxBudget dctx := by
  rw [maxBudget]
  split <;> omega

/-! ## A flush keeps to its budget -/

/-- Every step stays within the budget. -/
def usageProtocol : Protocol sig Usage :=
  .ofAfter (fun u a => u.Within → ∀ r, (u.after a r).Within) Usage.after

/-- The flush may write so many more bytes. -/
def Usage.Leaves (u : Usage) (remaining : Int) : Prop :=
  ∃ dctx n, u = some (dctx, n) ∧ (n : Int) + remaining = maxBudget dctx

section flush

variable {u : Usage} {remaining : Int} (id : String) (conn : ConnID)

theorem tend_respects {α : Type} {post : α → Usage → Prop} {a : Act} {k : a.Res → Deliver α}
    (ha : a.Tending) (hk : ∀ r, (k r).Respects usageProtocol post u) :
    (perform a >>= k).Respects usageProtocol post u := by
  refine act_respects (fun hu r => ?_) fun r => ?_
  · rwa [Usage.after_tending ha]
  · rw [Usage.after_tending ha]
    exact hk r

theorem tending_respects {α β : Type} {post : β → Usage → Prop} {p : Deliver α}
    {f : α → Deliver β} (hp : p.Only Act.Tending)
    (hf : ∀ x, (f x).Respects usageProtocol post u) :
    (p >>= f).Respects usageProtocol post u := by
  have hkeeps : p.Respects usageProtocol (fun _ u' => u' = u) u := by
    refine hp.respects (I := fun u' => u' = u) ?_ rfl
    rintro a _ ha rfl
    refine ⟨fun hu r => by rwa [Usage.after_tending ha], ?_⟩
    rintro r _ rfl
    exact Usage.after_tending ha _ r
  exact hkeeps.bind fun x u' hu' => hu' ▸ hf x

/-- What is left of the budget when a pass over the queue ends. -/
def PassLeaves (remaining : Int) : Pass → Usage → Prop
  | .sent _ remaining _, u => u.Leaves remaining
  | .unsent _, u => u.Leaves remaining
  | .exit _, _ => True

theorem finishSend_leaves {cmd : Command} {seq : UInt8} {frameLen n : Int} {dctx : DeliveryContext}
    {skipped : List Command} (h : u.Leaves (remaining - frameLen)) :
    (finishSend id cmd seq frameLen dctx remaining skipped).Respects usageProtocol
      (PassLeaves n) u := by
  refine tending_respects (enterSync_only cmd dctx) fun r => ?_
  cases r with
  | error err => exact tend_respects rfl fun _ => trivial
  | ok dctx =>
      refine tending_respects (enterFW_only cmd dctx) fun r => ?_
      cases r with
      | error err => exact tend_respects rfl fun _ => trivial
      | ok dctx =>
          refine tend_respects rfl fun _ => tend_respects trivial fun err => ?_
          cases err with
          | some err => exact tend_respects rfl fun _ => trivial
          | none => exact h

/-- A frame that fits is written. -/
theorem sendFrame_leaves {cmd : Command} {seq : UInt8} {frameBytes : List UInt8} {n : Int}
    {dctx : DeliveryContext} {skipped : List Command} (h : u.Leaves remaining)
    (hfits : frameBytes.length ≤ remaining) :
    (sendFrame id conn cmd seq frameBytes dctx remaining skipped).Respects usageProtocol
      (PassLeaves n) u := by
  obtain ⟨ctx, used, rfl, hsum⟩ := h
  have hfailed : ∀ (err : Error) (u : Usage), (publishFailed id cmd err.message >>= fun _ =>
      pushAll skipped >>= fun _ => (pure (.exit (some err)) : Deliver Pass)).Respects
        usageProtocol (PassLeaves n) u :=
    fun err u => tend_respects rfl fun _ => tending_respects (pushAll_only skipped) fun _ => trivial
  refine act_respects (fun _ err dctx' used' heq => ?_) fun err => ?_
  · cases heq
    push_cast
    omega
  · cases err with
    | some err => exact hfailed err _
    | none =>
        refine tend_respects trivial fun sentAt => tend_respects trivial fun err => ?_
        cases err with
        | some err => exact hfailed err _
        | none =>
            refine finishSend_leaves id ⟨ctx, used + frameBytes.length, rfl, ?_⟩
            push_cast
            omega

theorem scanQueue_leaves (dctx : DeliveryContext) (n : ℕ) (skipped : List Command)
    (h : u.Leaves remaining) :
    (scanQueue id conn dctx remaining n skipped).Respects usageProtocol
      (PassLeaves remaining) u := by
  induction n generalizing skipped with
  | zero => exact h
  | succ n ih =>
      refine tend_respects trivial fun now => tend_respects trivial fun popped => ?_
      cases popped with
      | none => exact h
      | some cmd =>
          refine tend_respects trivial fun now => ?_
          change Prog.Respects _ _ (ite _ _ _) _
          split
          · exact tend_respects rfl fun _ => ih skipped
          · split
            · exact ih (skipped ++ [cmd])
            · split
              · exact tend_respects rfl fun _ => ih skipped
              · refine tending_respects (commandSeq_only cmd) fun r => ?_
                cases r with
                | error err => exact tending_respects (pushAll_only skipped) fun _ => trivial
                | ok seq =>
                    dsimp only
                    split
                    · exact tend_respects rfl fun _ => ih skipped
                    · split
                      · exact tend_respects trivial fun _ =>
                          tending_respects (pushAll_only skipped) fun _ => trivial
                      · exact sendFrame_leaves id conn h (by omega)

theorem flushLoop_leaves (fuel : ℕ) (dctx : DeliveryContext) (h : u.Leaves remaining) :
    (flushLoop id conn fuel dctx remaining).Respects usageProtocol (fun _ _ => True) u := by
  induction fuel generalizing u dctx remaining with
  | zero => trivial
  | succ fuel ih =>
      unfold flushLoop
      split
      · trivial
      · refine tend_respects trivial fun now => act_respects (fun hu _ => hu) fun expired => ?_
        refine tending_respects (publishAllExpired_only id expired) fun _ => ?_
        refine tend_respects trivial fun scan => ?_
        change Prog.Respects _ _ (ite _ _ _) _
        split
        · trivial
        · refine (scanQueue_leaves id conn dctx scan [] h).bind fun pass u hpass => ?_
          cases pass with
          | exit err => trivial
          | unsent skipped => exact tending_respects (pushAll_only skipped) fun _ => trivial
          | sent dctx remaining skipped =>
              refine tending_respects (pushAll_only skipped) fun _ => ?_
              refine tending_respects (leaveSync_only dctx) fun r => ?_
              cases r with
              | error err => trivial
              | ok dctx =>
                  refine tending_respects (leaveFW_only dctx) fun r => ?_
                  cases r with
                  | error err => trivial
                  | ok dctx => exact ih dctx hpass

theorem flushQueue_leaves : (flushQueue id).Respects usageProtocol (fun _ _ => True) u := by
  refine act_respects (fun _ r dctx n heq => ?_) fun dctx => ?_
  · obtain ⟨dctx', -, heq⟩ := Option.map_eq_some_iff.mp heq
    cases heq
    exact Int.le_of_lt (maxBudget_pos dctx)
  · cases dctx with
    | none => trivial
    | some dctx =>
        dsimp only
        split
        · trivial
        · refine tend_respects trivial fun count => ?_
          change Prog.Respects _ _ (ite _ _ _) _
          split
          · trivial
          · exact flushLoop_leaves id _ _ dctx ⟨dctx, 0, rfl, by simp⟩

/-- Outside a flush nothing counts. -/
theorem usageSpec (cfg : Config) : TaskSpec cfg id usageProtocol fun _ => True := by
  refine .of_offFlush (fun a u ha _ => ⟨fun hu r => ?_, fun _ _ _ => trivial⟩) fun u _ => ?_
  · rwa [Usage.after_offFlush ha]
  · refine tend_respects trivial fun _ => (flushQueue_leaves id).bind fun _ _ _ => ?_
    exact tend_respects trivial fun _ => trivial

end flush

/-! ## Every interleaving -/

section traced

variable {cfg : Config} {id : String} (R : Rules (machine cfg id).traced)
  (w₀ : (machine cfg id).World)

/-- What each thread knows of its usage is what the trace says. -/
def usages : Discipline (machine cfg id).traced R (w₀, []) Usage where
  protocol := usageProtocol
  knows tid w u := u = flushUsage tid w.2
  idle _ := True
  inv w := ∀ tid, (flushUsage tid w.2).Within
  init := ⟨fun _ => Usage.within_none, fun _ => ⟨none, rfl, trivial⟩⟩
  start _ _ _ _ := (usageSpec id cfg).prog _ trivial
  act := by
    rintro ⟨w, trace⟩ tid a inp ⟨w', trace'⟩ r _ hinv rfl - hmay hexec
    obtain ⟨-, rfl⟩ := exec_of_traced hexec
    have hown : flushUsage tid (.did tid a r :: trace) = (flushUsage tid trace).after a r :=
      if_pos rfl
    have hother : ∀ other, other ≠ tid →
        flushUsage other (.did tid a r :: trace) = flushUsage other trace :=
      fun other hne => if_neg (Ne.symm hne)
    refine ⟨fun other => ?_, ⟨_, rfl, hown.symm⟩, fun other hne u hu => ?_⟩
    · by_cases heq : other = tid
      · subst heq
        rw [hown]
        exact hmay (hinv other) r
      · rw [hother other heq]
        exact hinv other
    · exact hu.trans (hother other hne).symm
  crash _ _ := ⟨fun _ => Usage.within_none, fun _ => ⟨none, rfl, trivial⟩⟩

end traced

/-! ## What the controller has advertised -/

/-- Both handlers of a status report pass on what it says. -/
def Act.advertises : Act → Option Int
  | .updateBufferFree free => some free
  | _ => none

def Act.readsContext : Act → Bool
  | .deliveryContext => true
  | _ => false

/-- The free buffer that the controller has last advertised to the running process. -/
def advertised : List (Entry sig) → Option Int
  | [] | .crashed :: _ => none
  | .did _ a _ :: older => a.advertises.or (advertised older)

/-- What it had advertised when the last flush of a thread read its context. -/
def flushAdvertised (tid : ℕ) : List (Entry sig) → Option Int
  | [] | .crashed :: _ => none
  | .did other a _ :: older =>
      if other = tid ∧ a.readsContext = true then advertised older else flushAdvertised tid older

/-- The session holds the advertised value, or 1500 in place of none at all. -/
def Reflects (advertised free : Int) : Prop :=
  free = advertised ∨ advertised ≤ 0 ∧ free = 1500

theorem Reflects.lift {b free free' : Int} (h : Reflects b free)
    (hlift : free' = free ∨ free ≤ 0 ∧ free' = 1500) : Reflects b free' := by
  unfold Reflects at h ⊢
  omega

/-- What the session and the flushes know of the free buffer is what the controller has said. -/
structure Informed (w : World) (trace : List (Entry sig)) : Prop where
  current : ∀ b, advertised trace = some b → ∃ free, w.bufferFree = some free ∧ Reflects b free
  read : ∀ tid b dctx n, flushAdvertised tid trace = some b →
    flushUsage tid trace = some (dctx, n) → Reflects b dctx.bufferFree

/-- A connection is registered before its frames are served: the session is there. -/
abbrev heardRules (cfg : Config) (id : String) : Rules (machine cfg id).traced where
  act w _ a _ := a.advertises.isSome → w.1.session.isSome

section informed

variable {cfg : Config} {id : String} {tid : ℕ} {w w' : World} {trace : List (Entry sig)} {a : Act}
  {r : a.Res} {inp : Input}

theorem Informed.initial (w : World) : Informed w [] where
  current _ h := by cases h
  read _ _ _ _ h := by cases h

theorem Informed.crashed (w : World) : Informed w (.crashed :: trace) where
  current _ h := by cases h
  read _ _ _ _ h := by cases h

/-- An advertised value reaches the session, and stays there. -/
theorem Informed.step_current (h : Informed w trace)
    (hheard : a.advertises.isSome → w.session.isSome)
    (hexec : exec cfg id tid w a inp = some (w', r)) (b : Int)
    (hb : advertised (.did tid a r :: trace) = some b) :
    ∃ free, w'.bufferFree = some free ∧ Reflects b free := by
  cases hadv : a.advertises with
  | some free =>
      rw [advertised, hadv] at hb
      cases hb
      cases a with
      | updateBufferFree =>
          cases hadv
          exact ⟨_, (exec_updateBufferFree hexec).2.2 (hheard rfl), .inl rfl⟩
      | _ => cases hadv
  | none =>
      rw [advertised, hadv] at hb
      obtain ⟨free, hfree, hreflects⟩ := h.current b hb
      have hother : ∀ free, a ≠ .updateBufferFree free := by
        rintro free rfl
        cases hadv
      rcases exec_bufferFree hother hexec hfree with hsame | ⟨hzero, hlift⟩
      · exact ⟨free, hsame, hreflects⟩
      · exact ⟨1500, hlift, hreflects.lift (.inr ⟨hzero, rfl⟩)⟩

/-- A flush goes on with the context that it has read. -/
theorem Usage.context_after {u : Usage} {dctx : DeliveryContext} {n : ℕ}
    (ha : a.readsContext = false) (h : u.after a r = some (dctx, n)) : ∃ n', u = some (dctx, n') := by
  cases a with
  | deliveryContext => cases ha
  | transmit conn bytes cmd seq =>
      obtain ⟨⟨dctx', n'⟩, hu, heq⟩ := Option.map_eq_some_iff.mp h
      cases heq
      exact ⟨n', hu⟩
  | _ => exact ⟨n, h⟩

theorem Informed.step_read (h : Informed w trace) (hexec : exec cfg id tid w a inp = some (w', r))
    (other : ℕ) (b : Int) (dctx : DeliveryContext) (n : ℕ)
    (hb : flushAdvertised other (.did tid a r :: trace) = some b)
    (hu : flushUsage other (.did tid a r :: trace) = some (dctx, n)) :
    Reflects b dctx.bufferFree := by
  by_cases hown : tid = other
  · subst hown
    rw [flushUsage, if_pos rfl] at hu
    cases hread : a.readsContext with
    | false =>
        rw [flushAdvertised, if_neg (by simp [hread])] at hb
        obtain ⟨n', hu'⟩ := Usage.context_after hread hu
        exact h.read tid b dctx n' hb hu'
    | true =>
        rw [flushAdvertised, if_pos ⟨rfl, hread⟩] at hb
        cases a with
        | deliveryContext =>
            obtain ⟨free, hfree, hreflects⟩ := h.current b hb
            obtain ⟨s, hs, rfl⟩ := Option.map_eq_some_iff.mp hfree
            obtain ⟨-, rfl⟩ := Prod.mk.inj (guarded_eq_some hexec)
            rw [hs] at hu
            cases hu
            exact hreflects
        | _ => cases hread
  · rw [flushAdvertised, if_neg fun h => hown h.1] at hb
    rw [flushUsage, if_neg hown] at hu
    exact h.read other b dctx n hb hu

theorem informed {w₀ : World} {c : Concurrent.Config (machine cfg id).traced}
    (h : Reachable (heardRules cfg id) (w₀, []) c) : Informed c.world.1 c.world.2 := by
  refine (usages (heardRules cfg id) w₀).invariant (J := fun w => Informed w.1 w.2)
    (.initial w₀) (fun hstep hinf => ?_) (fun _ _ _ => .crashed _) h
  obtain ⟨hexec, htrace⟩ := exec_of_traced hstep.exec
  rw [htrace]
  exact ⟨hinf.step_current hstep.rule hexec, hinf.step_read hexec⟩

end informed

/-- One flush writes at most the free buffer that the controller had last advertised, if that is
positive, and at most 1500 bytes otherwise. -/
theorem flush_within_advertised {cfg : Config} {id : String} {w₀ : World}
    {c : Concurrent.Config (machine cfg id).traced} (h : Reachable (heardRules cfg id) (w₀, []) c)
    {tid n : ℕ} {b : Int} (hadvertised : flushAdvertised tid c.world.2 = some b)
    (hbytes : flushBytes tid c.world.2 = some n) :
    (0 < b → (n : Int) ≤ b) ∧ (b ≤ 0 → n ≤ 1500) := by
  obtain ⟨⟨dctx, n'⟩, hflush, rfl⟩ := Option.map_eq_some_iff.mp hbytes
  have hwithin := ((usages (heardRules cfg id) w₀).sound h).1 tid dctx n' hflush
  have hreflects := (informed h).read tid b dctx n' hadvertised hflush
  rw [maxBudget] at hwithin
  rw [Reflects] at hreflects
  dsimp only
  split at hwithin <;> omega

/-- The controller advertises so many free bytes, one command is queued, and a flush begins. -/
def advertisedLabels (free : UInt8) : List (Label (machine {} "c")) :=
  connect ++ call 0 (.status1 7 ⟨255, 1, [2, 0, 0, 0, 0, 0, 0, free, 0], .sequenced⟩) 5 ++
    call 0 (.enqueue { commandID := 9 } 0) 20 ++ call 0 .flush 12

theorem fifty_bytes_respected :
    ∃ c n, Reachable (heardRules {} "c") ({}, []) c ∧ flushAdvertised 0 c.world.2 = some 50 ∧
      flushBytes 0 c.world.2 = some n ∧ 0 < n ∧ n ≤ 50 := by
  have hrun : ∃ c, Reachable (heardRules {} "c") ({}, []) c ∧
      flushAdvertised 0 c.world.2 = some 50 ∧ flushBytes 0 c.world.2 = some 11 :=
    ⟨_, Reachable.initial.run ((advertisedLabels 50).map Label.traced), by decide +kernel,
      by decide +kernel⟩
  obtain ⟨c, hc, hadvertised, hbytes⟩ := hrun
  have hbound := (flush_within_advertised hc hadvertised hbytes).1 (by decide)
  exact ⟨c, 11, hc, hadvertised, hbytes, by decide, by omega⟩

/-- The controller has no free byte left and is sent eleven. -/
theorem full_buffer_written_to :
    ∃ c, Reachable (heardRules {} "c") ({}, []) c ∧ flushAdvertised 0 c.world.2 = some 0 ∧
      flushBytes 0 c.world.2 = some 11 :=
  ⟨_, Reachable.initial.run ((advertisedLabels 0).map Label.traced), by decide +kernel,
    by decide +kernel⟩

end TcpAdapter.Delivery
