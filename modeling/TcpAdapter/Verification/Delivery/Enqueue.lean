import Mathlib.Algebra.Order.BigOperators.Group.List
import Mathlib.Order.Bounds.Basic
import TcpAdapter.Concurrent.Call
import TcpAdapter.Verification.Delivery.Links

/-! # What one Enqueue does

`Enqueue` and `EnqueueWithEvents` as calls that nobody disturbs. The result names one of four
outcomes: the session could not be saved, the command is a duplicate, it is refused, or it is
pushed after as many evictions as it takes to fit. -/

namespace TcpAdapter.Delivery

open TcpAdapter.Concurrent TcpAdapter.Queue TcpAdapter.Protocol TcpAdapter.Manager
open TcpAdapter.Policy

/-! ## Limits -/

/-- The queue with the command stays within the limits; a limit of zero or less is off. -/
structure Fits (cfg : Config) (q : ControllerQueue) (cmd : Command) : Prop where
  depth : 0 < cfg.maxQueueDepth → q.len + 1 ≤ cfg.maxQueueDepth
  bytes : 0 < cfg.maxQueueBytes →
    q.totalEstimatedBytes + estimatedCommandBytes cmd ≤ cfg.maxQueueBytes

/-- The queue after evicting `k` times. -/
def drops (k : ℕ) (q : ControllerQueue) : ControllerQueue :=
  (fun q : ControllerQueue => q.dropOldest.2)^[k] q

/-- `k` evictions let the command fit, and no fewer. -/
structure JustFits (cfg : Config) (q : ControllerQueue) (cmd : Command) (k : ℕ) : Prop where
  fits : Fits cfg (drops k q) cmd
  least : ∀ j < k, ¬ Fits cfg (drops j q) cmd

theorem len_eq_length (q : ControllerQueue) : q.len = q.snapshot.length := by
  simp [ControllerQueue.len, ControllerQueue.snapshot, Nat.add_assoc]

theorem dropOldest_len {q q' : ControllerQueue} {cmd : Command}
    (h : q.dropOldest = (some cmd, q')) : q.len = q'.len + 1 := by
  rw [len_eq_length, len_eq_length, (ControllerQueue.dropOldest_snapshot_perm h).length_eq,
    List.length_cons]

theorem eq_empty_of_dropOldest {q q' : ControllerQueue} (h : q.dropOldest = (none, q')) :
    q = {} := by
  rcases q.dropOldest_cases with ⟨-, hempty⟩ | ⟨p, -, -, hsome⟩
  · refine ControllerQueue.ext_buffer fun b => ?_
    have hnil : q.buffer b = [] := by
      refine List.eq_nil_iff_forall_not_mem.mpr fun cmd hcmd => ?_
      obtain ⟨i, hi⟩ := List.getElem?_of_mem hcmd
      exact hempty ⟨b, i, cmd⟩ hi
    rw [hnil]
    cases b <;> rfl
  · rw [h] at hsome
    cases hsome

theorem fits_empty {cfg : Config} {cmd : Command}
    (h : cfg.maxQueueBytes ≤ 0 ∨ estimatedCommandBytes cmd ≤ cfg.maxQueueBytes) :
    Fits cfg {} cmd := by
  refine ⟨fun hpos => Int.add_one_le_of_lt hpos, fun hpos => ?_⟩
  have hsize := h.resolve_left (not_le.mpr hpos)
  simpa [ControllerQueue.totalEstimatedBytes] using hsize

theorem totalEstimatedBytes_eq (q : ControllerQueue) :
    q.totalEstimatedBytes = (q.snapshot.map estimatedCommandBytes).sum := by
  simp [ControllerQueue.totalEstimatedBytes, ControllerQueue.snapshot, add_assoc]

/-- What fits into a queue fits into an empty one. -/
theorem Fits.empty {cfg : Config} {q : ControllerQueue} {cmd : Command} (h : Fits cfg q cmd) :
    Fits cfg {} cmd := by
  refine fits_empty ((le_or_gt cfg.maxQueueBytes 0).imp_right fun hpos => ?_)
  have hsum : 0 ≤ q.totalEstimatedBytes := by
    rw [totalEstimatedBytes_eq]
    refine List.sum_nonneg fun n hn => ?_
    obtain ⟨c, -, rfl⟩ := List.mem_map.mp hn
    exact Int.add_nonneg (by decide) (Int.natCast_nonneg _)
  exact (Int.le_add_of_nonneg_left hsum).trans (h.bytes hpos)

/-- An empty queue takes every command that is not larger than the queue may be. -/
theorem fits_empty_iff {cfg : Config} {cmd : Command} :
    Fits cfg {} cmd ↔
      cfg.maxQueueBytes ≤ 0 ∨ estimatedCommandBytes cmd ≤ cfg.maxQueueBytes := by
  refine ⟨fun h => (le_or_gt cfg.maxQueueBytes 0).imp_right fun hpos => ?_, fits_empty⟩
  simpa [ControllerQueue.totalEstimatedBytes] using h.bytes hpos

/-! ## Calls -/

/-- Clock readings and save errors are of these kinds. -/
def callRules (cfg : Config) (id : String) (clock : Time → Prop) (broken : Error → Prop) :
    Rules (machine cfg id) where
  act _ _ _ inp := clock inp.time ∧ ∀ err, inp.saveErr = some err → broken err

section ends

variable {cfg : Config} {id : String} {clock : Time → Prop} {broken : Error → Prop} {tid : ℕ}
  {w : World} {cmd : Command}

/-- An action that does not have to wait. -/
theorem act_ends {α : Type} {a : Act} {k : a.Res → Deliver α} {post : α → World → Prop}
    (hanswers : ∀ inp, ∃ res, exec cfg id tid w a inp = some res)
    (hk : ∀ inp w' r, clock inp.time → (∀ err, inp.saveErr = some err → broken err) →
      exec cfg id tid w a inp = some (w', r) →
      (k r).Ends (callRules cfg id clock broken) tid post w') :
    (perform a >>= k).Ends (callRules cfg id clock broken) tid post w := by
  intro inp hrule
  obtain ⟨⟨w', r⟩, hexec⟩ := hanswers inp
  exact ⟨w', r, hexec, hk inp w' r hrule.1 hrule.2 hexec⟩

/-- An action that only looks. -/
theorem look_ends {α : Type} {a : Act} {k : a.Res → Deliver α} {post : α → World → Prop} {r : a.Res}
    (hexec : ∀ inp, exec cfg id tid w a inp = some (w, r))
    (hk : (k r).Ends (callRules cfg id clock broken) tid post w) :
    (perform a >>= k).Ends (callRules cfg id clock broken) tid post w :=
  fun inp _ => ⟨w, r, hexec inp, hk⟩

theorem depthExceeded_ends :
    (depthExceeded cfg).Ends (callRules cfg id clock broken) tid
      (fun full w' => w' = w ∧
        (full = false ↔ (0 < cfg.maxQueueDepth → w.queue.len + 1 ≤ cfg.maxQueueDepth))) w := by
  unfold depthExceeded
  split
  · rename_i hpos
    refine look_ends (fun _ => rfl) ⟨rfl, ?_⟩
    simp [hpos]
  · rename_i hoff
    exact ⟨rfl, by simp [hoff]⟩

theorem bytesExceeded_ends :
    (bytesExceeded cfg cmd).Ends (callRules cfg id clock broken) tid
      (fun full w' => w' = w ∧ (full = false ↔ (0 < cfg.maxQueueBytes →
        w.queue.totalEstimatedBytes + estimatedCommandBytes cmd ≤ cfg.maxQueueBytes))) w := by
  unfold bytesExceeded
  split
  · rename_i hpos
    refine look_ends (fun _ => rfl) ⟨rfl, ?_⟩
    simp [hpos]
  · rename_i hoff
    exact ⟨rfl, by simp [hoff]⟩

theorem fits_ends :
    (fits cfg cmd).Ends (callRules cfg id clock broken) tid
      (fun fit w' => w' = w ∧ (fit = true ↔ Fits cfg w.queue cmd)) w := by
  refine depthExceeded_ends.bind fun full w' h => ?_
  obtain ⟨rfl, hdepth⟩ := h
  split
  · rename_i hfull
    refine ⟨rfl, iff_of_false (by simp) fun hfits => ?_⟩
    rw [hdepth.mpr hfits.depth] at hfull
    cases hfull
  · rename_i hroom
    refine bytesExceeded_ends.bind fun full' w'' h => ?_
    obtain ⟨rfl, hbytes⟩ := h
    refine ⟨rfl, ?_⟩
    rw [Bool.not_eq_true', hbytes]
    exact ⟨fun h => ⟨hdepth.mp (Bool.eq_false_iff.mpr hroom), h⟩, fun h => h.bytes⟩

/-! ### Evictions -/

/-- Nothing but `k` evictions lies between the two worlds. -/
structure Evicts (k : ℕ) (w w' : World) : Prop where
  queue : w'.queue = drops k w.queue
  tickets : w'.tickets = w.tickets
  dedup : w'.dedup = w.dedup
  session : w.session.isSome → w'.session.isSome

theorem Evicts.refl (w : World) : Evicts 0 w w :=
  ⟨rfl, rfl, rfl, fun h => h⟩

/-- An eviction takes one command out, or it finds the queue empty. -/
theorem dropOldest_ends {α : Type} {k : Option Command → Deliver α} {post : α → World → Prop}
    (hnone : w.queue = {} → (k none).Ends (callRules cfg id clock broken) tid post w)
    (hsome : ∀ c w', w'.queue.len < w.queue.len →
      (∀ {n w''}, Evicts n w' w'' → Evicts (n + 1) w w'') →
      w'.queue = w.queue.dropOldest.2 →
      (k (some c)).Ends (callRules cfg id clock broken) tid post w') :
    (perform .dropOldest >>= k).Ends (callRules cfg id clock broken) tid post w := by
  have hexec : ∀ inp, exec cfg id tid w .dropOldest inp = some (execDropOldest w) := fun _ => rfl
  cases hdrop : w.queue.dropOldest with
  | mk dropped q =>
      cases dropped with
      | none =>
          have hres : execDropOldest w = (w, none) := by simp only [execDropOldest, hdrop]
          rw [hres] at hexec
          exact look_ends hexec (hnone (eq_empty_of_dropOldest hdrop))
      | some c =>
          have hres : execDropOldest w = ((w.setQueue q).note (.evicted c.ticket), some c) := by
            simp only [execDropOldest, hdrop]
          rw [hres] at hexec
          have hsession : w.slot.session.isSome := by
            -- without a session there is nothing to evict
            refine Option.isSome_iff_ne_none.mpr fun hs => ?_
            have hempty : w.queue = {} := by simp [Slot.queue, hs]
            rw [hempty] at hdrop
            cases hdrop
          have hqueue : ((w.setQueue q).note (.evicted c.ticket)).queue = q :=
            Slot.setQueue_queue q hsession
          intro inp _
          refine ⟨_, _, hexec inp, hsome c _ ?_ (fun hw => ⟨?_, ?_, ?_, ?_⟩) (by rw [hqueue, hdrop])⟩
          · rw [hqueue, dropOldest_len hdrop]
            exact Nat.lt_succ_self _
          · rw [hw.queue, hqueue, drops, drops, Function.iterate_succ_apply, hdrop]
          · exact hw.tickets.trans (exec_tickets (by simp) (hexec inp))
          · exact hw.dedup.trans (exec_dedup (by simp) (hexec inp))
          · exact fun hs => hw.session (exec_session (hexec inp) hs)

/-- The command fits after `k` evictions, and each of them is on record. -/
structure Cleared (cfg : Config) (cmd : Command) (w : World) (events : List OverflowEvent) (k : ℕ)
    (w' : World) : Prop where
  evicts : Evicts k w w'
  just : JustFits cfg w.queue cmd k
  length : events.length = k
  dropped : ∀ e ∈ events, e.action = .dropped

theorem Cleared.zero (h : Fits cfg w.queue cmd) : Cleared cfg cmd w [] 0 w :=
  ⟨.refl w, ⟨h, by simp⟩, rfl, by simp⟩

theorem Cleared.cons {k : ℕ} {events : List OverflowEvent} {e : OverflowEvent} {w₁ w' : World}
    (hfull : ¬ Fits cfg w.queue cmd) (hqueue : w₁.queue = w.queue.dropOldest.2)
    (hevicts : ∀ {n w''}, Evicts n w₁ w'' → Evicts (n + 1) w w'') (he : e.action = .dropped)
    (h : Cleared cfg cmd w₁ events k w') : Cleared cfg cmd w (e :: events) (k + 1) w' where
  evicts := hevicts h.evicts
  just := by
    have hjust := h.just
    rw [hqueue] at hjust
    refine ⟨hjust.fits, fun j hj => ?_⟩
    cases j with
    | zero => exact hfull
    | succ j => exact hjust.least j (Nat.lt_of_succ_lt_succ hj)
  length := by rw [List.length_cons, h.length]
  dropped := List.forall_mem_cons.mpr ⟨he, h.dropped⟩

/-- The whole queue was evicted in vain. -/
structure Emptied (cfg : Config) (cmd : Command) (w : World) (err : Error) (w' : World) : Prop where
  policy : cfg.queueOverflow = .dropOldest
  evicts : ∃ k, Evicts k w w'
  empty : w'.queue = {}
  err : err = .queueFull ∨ err = .queueBytesFull
  large : ¬ Fits cfg {} cmd

theorem dropUntilFits_ends (hpolicy : cfg.queueOverflow = .dropOldest) (fuel : ℕ)
    (events : List OverflowEvent) {w : World} (hfuel : w.queue.len < fuel) :
    (dropUntilFits cfg id cmd fuel events).Ends (callRules cfg id clock broken) tid
      (fun r w' => (∃ k dropped, r = (events ++ dropped, none) ∧ Cleared cfg cmd w dropped k w') ∨
        ∃ err, r.2 = some err ∧ Emptied cfg cmd w err w') w := by
  induction fuel generalizing events w with
  | zero => exact absurd hfuel (Nat.not_lt_zero _)
  | succ fuel ih =>
      refine fits_ends.bind fun fit w' h => ?_
      obtain ⟨rfl, hfit⟩ := h
      split
      · rename_i hyes
        exact .inl ⟨0, [], by simp, .zero (hfit.mp hyes)⟩
      · rename_i hno
        have hfull : ¬ Fits cfg w'.queue cmd := fun h => hno (hfit.mpr h)
        refine bytesExceeded_ends.bind fun bytes w'' h => ?_
        obtain ⟨rfl, -⟩ := h
        refine dropOldest_ends (fun hempty => ?_) fun c w₁ hlen hevicts hqueue => ?_
        · have hlarge : ¬ Fits cfg {} cmd := hempty ▸ hfull
          dsimp only
          split
          · exact .inr ⟨_, rfl, hpolicy, ⟨0, .refl _⟩, hempty, .inr rfl, hlarge⟩
          · exact .inr ⟨_, rfl, hpolicy, ⟨0, .refl _⟩, hempty, .inl rfl, hlarge⟩
        · refine (ih _ (by omega)).mono fun r w₂ h => ?_
          rcases h with ⟨k, dropped, rfl, hcleared⟩ | ⟨err, herr, hemptied⟩
          · let e : OverflowEvent := ⟨id, if bytes then .bytes else .depth, .dropOldest, .dropped⟩
            refine .inl ⟨k + 1, e :: dropped, ?_, hcleared.cons hfull hqueue hevicts rfl⟩
            rw [List.append_assoc, List.singleton_append]
          · obtain ⟨k, hk⟩ := hemptied.evicts
            exact .inr ⟨err, herr, { hemptied with evicts := ⟨k + 1, hevicts hk⟩ }⟩

/-- The ways in which `makeRoom` ends. -/
inductive RoomMade (cfg : Config) (cmd : Command) (w : World) :
    List OverflowEvent × Option Error → World → Prop where
  | cleared {k : ℕ} {events : List OverflowEvent} {w' : World}
      (h : Cleared cfg cmd w events k w') : RoomMade cfg cmd w (events, none) w'
  | refused {events : List OverflowEvent} {err : Error}
      (hpolicy : cfg.queueOverflow ≠ .dropOldest) (herr : err = .queueFull ∨ err = .queueBytesFull)
      (hfull : ¬ Fits cfg w.queue cmd) : RoomMade cfg cmd w (events, some err) w
  | emptied {events : List OverflowEvent} {err : Error} {w' : World}
      (h : Emptied cfg cmd w err w') : RoomMade cfg cmd w (events, some err) w'

theorem makeRoom_ends {fuel : ℕ} (hfuel : w.queue.len < fuel) :
    (makeRoom cfg id cmd fuel).Ends (callRules cfg id clock broken) tid
      (RoomMade cfg cmd w) w := by
  refine fits_ends.bind fun fit w' h => ?_
  obtain ⟨rfl, hfit⟩ := h
  split
  · rename_i hyes
    exact .cleared (.zero (hfit.mp hyes))
  · rename_i hno
    have hfull : ¬ Fits cfg w'.queue cmd := fun h => hno (hfit.mpr h)
    refine bytesExceeded_ends.bind fun bytes w'' h => ?_
    obtain ⟨rfl, -⟩ := h
    refine depthExceeded_ends.bind fun depth w'' h => ?_
    obtain ⟨rfl, -⟩ := h
    split
    · rename_i hpolicy
      split
      · exact .refused (by simp [hpolicy]) (.inr rfl) hfull
      · exact .refused (by simp [hpolicy]) (.inl rfl) hfull
    · rename_i hpolicy
      refine (dropUntilFits_ends hpolicy fuel [] hfuel).mono fun r w₂ h => ?_
      rcases h with ⟨k, dropped, rfl, hcleared⟩ | ⟨err, herr, hemptied⟩
      · exact .cleared hcleared
      · obtain ⟨events, _⟩ := r
        cases herr
        exact .emptied hemptied
    · rename_i hpolicy
      exact .refused (by simp [hpolicy]) (.inl rfl) hfull

/-! ### Keys -/

/-- The key was seen less than ten minutes before a reading of the clock. -/
def Seen (clock : Time → Prop) (w : World) (key : String) : Prop :=
  key ≠ "" ∧ ∃ t now, w.dedup key = some t ∧ clock now ∧ now - t < 10 * minute

/-- At this time the key makes a command a duplicate. -/
def Recent (w : World) (key : String) (now : Time) : Prop :=
  key ≠ "" ∧ ∃ t, w.dedup key = some t ∧ now - t < 10 * minute

theorem Seen.exists_recent {key : String} (h : Seen clock w key) :
    ∃ now, clock now ∧ Recent w key now := by
  obtain ⟨hkey, t, now, ht, hclock, hlt⟩ := h
  exact ⟨now, hclock, hkey, t, ht, hlt⟩

/-- The key is not on record, or its ten minutes are over at a reading of the clock. -/
def Fresh (clock : Time → Prop) (w : World) (key : String) : Prop :=
  (∀ now, ¬ Recent w key now) ∨ ∃ now, clock now ∧ ¬ Recent w key now

/-- The dedup table once the command has passed: its key, if it has one, gets a new time. -/
def Stamps (clock : Time → Prop) (key : String) (w w' : World) : Prop :=
  (key = "" ∧ w'.dedup = w.dedup) ∨
    (key ≠ "" ∧ ∃ t, clock t ∧ w'.dedup = Function.update w.dedup key (some t))

/-- A key is stamped and nothing else happens. -/
structure Passes (clock : Time → Prop) (key : String) (w w' : World) : Prop where
  fresh : Fresh clock w key
  stamps : Stamps clock key w w'
  queue : w'.queue = w.queue
  tickets : w'.tickets = w.tickets
  session : w'.session.isSome

theorem stamp_ends {key : String} (hkey : key ≠ "") (hfresh : Fresh clock w key)
    (hs : w.session.isSome) :
    (perform .now >>= fun t => perform (.setDedup key t) >>= fun _ =>
      (pure false : Deliver Bool)).Ends (callRules cfg id clock broken) tid
      (fun dup w' => dup = false ∧ Passes clock key w w') w := by
  refine act_ends (fun _ => ⟨_, rfl⟩) fun inp w₁ t hclock _ hnow => ?_
  cases hnow
  obtain ⟨s, hs'⟩ := Option.isSome_iff_exists.mp hs
  refine act_ends (fun _ => by simp only [exec, hs']; exact ⟨_, rfl⟩) fun _ w' _ _ _ hset => ?_
  exact ⟨rfl,
    { fresh := hfresh
      stamps := .inr ⟨hkey, inp.time, hclock, (exec_setDedup hset).2 hs⟩
      queue := (exec_commands rfl hset).1
      tickets := exec_tickets (by simp) hset
      session := exec_session hset hs }⟩

theorem checkDedup_ends (key : String) (hs : w.session.isSome) :
    (checkDedup key).Ends (callRules cfg id clock broken) tid
      (fun dup w' => (dup = true ∧ w' = w ∧ Seen clock w key) ∨
        (dup = false ∧ Passes clock key w w')) w := by
  unfold checkDedup
  split
  · rename_i hnone
    exact .inr ⟨rfl, .inl fun _ hrecent => hrecent.1 hnone, .inl ⟨hnone, rfl⟩, rfl, rfl, hs⟩
  · rename_i hkey
    refine look_ends (fun _ => rfl) ?_
    cases hlast : w.dedup key with
    | none =>
        rw [show (w.session.bind fun s => s.dedup key) = none from hlast]
        have hfresh : Fresh clock w key := by
          refine .inl fun now hrecent => ?_
          obtain ⟨-, t, ht, -⟩ := hrecent
          rw [hlast] at ht
          cases ht
        exact (stamp_ends hkey hfresh hs).mono fun _ _ h => .inr h
    | some t =>
        rw [show (w.session.bind fun s => s.dedup key) = some t from hlast]
        refine act_ends (fun _ => ⟨_, rfl⟩) fun inp w₁ now hclock _ hnow => ?_
        cases hnow
        change Prog.Ends _ _ _ (ite _ _ _) _
        split
        · rename_i hlt
          exact .inl ⟨rfl, rfl, hkey, t, inp.time, hlast, hclock, hlt⟩
        · rename_i hge
          have hfresh : Fresh clock w key := by
            refine .inr ⟨inp.time, hclock, fun hrecent => ?_⟩
            obtain ⟨-, t', ht', hlt⟩ := hrecent
            rw [hlast] at ht'
            cases ht'
            exact hge hlt
          exact (stamp_ends hkey hfresh hs).mono fun _ _ h => .inr h

/-! ### The whole call -/

/-- What the call does when it gets to push the command. -/
structure Pushed (clock : Time → Prop) (cfg : Config) (cmd : Command) (w : World)
    (events : List OverflowEvent) (k : ℕ) (w' : World) : Prop where
  just : JustFits cfg w.queue cmd k
  length : events.length = k
  dropped : ∀ e ∈ events, e.action = .dropped
  queue : w'.queue = (drops k w.queue).push { cmd with ticket := w.tickets }
  stamps : Stamps clock cmd.dedupKey w w'

/-- The outcomes of a call. -/
inductive Enqueued (clock : Time → Prop) (broken : Error → Prop) (cfg : Config) (cmd : Command)
    (w : World) : List OverflowEvent × Option Error → World → Prop where
  /-- The session of a new controller could not be saved. -/
  | unsaved {err : Error} {w' : World} (hsession : w.session = none) (herr : broken err)
      (hqueue : w'.queue = w.queue) (hdedup : w'.dedup = w.dedup) :
      Enqueued clock broken cfg cmd w ([], some err) w'
  | duplicate {w' : World} (hseen : Seen clock w cmd.dedupKey) (hqueue : w'.queue = w.queue)
      (hdedup : w'.dedup = w.dedup) :
      Enqueued clock broken cfg cmd w ([], some .duplicate) w'
  | refused {events : List OverflowEvent} {err : Error} {w' : World}
      (hpolicy : cfg.queueOverflow ≠ .dropOldest)
      (herr : err = .queueFull ∨ err = .queueBytesFull) (hfull : ¬ Fits cfg w.queue cmd)
      (hqueue : w'.queue = w.queue) (hstamps : Stamps clock cmd.dedupKey w w') :
      Enqueued clock broken cfg cmd w (events, some err) w'
  | emptied {events : List OverflowEvent} {err : Error} {w' : World}
      (hpolicy : cfg.queueOverflow = .dropOldest) (herr : err = .queueFull ∨ err = .queueBytesFull)
      (hlarge : ¬ Fits cfg {} cmd) (hfresh : Fresh clock w cmd.dedupKey) (hqueue : w'.queue = {})
      (hstamps : Stamps clock cmd.dedupKey w w') :
      Enqueued clock broken cfg cmd w (events, some err) w'
  | pushed {events : List OverflowEvent} {k : ℕ} {w' : World}
      (h : Pushed clock cfg cmd w events k w') : Enqueued clock broken cfg cmd w (events, none) w'
  /-- The command is in the queue and the save fails. -/
  | unsavedPush {events : List OverflowEvent} {k : ℕ} {err : Error} {w' : World}
      (h : Pushed clock cfg cmd w events k w') (herr : broken err) :
      Enqueued clock broken cfg cmd w (events, some err) w'

/-- The session is there now, or it could not be saved. -/
theorem ensureSession_cases {inp : Input} {w' : World} {r : Option Error}
    (h : exec cfg id tid w .ensureSession inp = some (w', r)) :
    (r = none ∧ w'.session.isSome) ∨ ∃ err, r = some err ∧ w.session = none ∧
      inp.saveErr = some err := by
  obtain ⟨rfl, rfl⟩ := Prod.mk.inj (Option.some.inj h)
  cases hs : w.slot.session with
  | some s => exact .inl (by simp [Slot.ensureSession, hs])
  | none =>
      cases hsave : inp.saveErr with
      | none =>
          exact .inl (by simp [Slot.ensureSession, hs, Slot.createDetachedLocked, Slot.insertNew,
            Slot.persistLocked])
      | some err =>
          exact .inr ⟨err, by simp [Slot.ensureSession, hs, Slot.createDetachedLocked,
            Slot.insertNew, Slot.persistLocked], hs, rfl⟩

theorem exec_persistEnqueued_answer {inp : Input} {ticket : ℕ} {w' : World} {r : Option Error}
    (hs : w.session.isSome) (h : exec cfg id tid w (.persistEnqueued ticket) inp = some (w', r)) :
    r = inp.saveErr := by
  obtain ⟨s, hs'⟩ := Option.isSome_iff_exists.mp hs
  have hslot : w.slot.session = some s := hs'
  simp only [exec, execEnqueued, method, Slot.ackSent, hslot, Slot.persistLocked] at h
  cases hsave : inp.saveErr with
  | none =>
      rw [hsave] at h
      cases h
      rfl
  | some err =>
      rw [hsave] at h
      cases h
      rfl

/-- The command is pushed and saved. -/
theorem push_ends {w₁ w₂ : World} {events : List OverflowEvent} {k : ℕ}
    (hpasses : Passes clock cmd.dedupKey w w₁) (hcleared : Cleared cfg cmd w₁ events k w₂) :
    (perform (.pushNew cmd) >>= fun ticket => perform (.persistEnqueued ticket) >>= fun r =>
      match r with
      | some err => (pure (events, some err) : Deliver (List OverflowEvent × Option Error))
      | none => pure (events, none)).Ends (callRules cfg id clock broken) tid
      (Enqueued clock broken cfg cmd w) w₂ := by
  have hs₂ : w₂.session.isSome := hcleared.evicts.session hpasses.session
  refine act_ends (fun _ => ⟨_, rfl⟩) fun _ w₃ ticket _ _ hpush => ?_
  refine act_ends (fun _ => ⟨_, rfl⟩) fun inp w₄ r _ hbroken hsave => ?_
  have hanswer := exec_persistEnqueued_answer (exec_session hpush hs₂) hsave
  have hqueue : w₃.queue = w₂.queue.push { cmd with ticket := w₂.tickets } := by
    cases hpush
    exact Slot.setQueue_queue _ hs₂
  have hdedup : w₄.dedup = w₁.dedup := (exec_dedup (by simp) hsave).trans
    ((exec_dedup (by simp) hpush).trans hcleared.evicts.dedup)
  have hdone : Pushed clock cfg cmd w events k w₄ := by
    refine ⟨hpasses.queue ▸ hcleared.just, hcleared.length, hcleared.dropped, ?_, ?_⟩
    · rw [(exec_commands rfl hsave).1, hqueue, hcleared.evicts.queue, hcleared.evicts.tickets,
        hpasses.queue, hpasses.tickets]
    · rw [Stamps, hdedup]
      exact hpasses.stamps
  cases r with
  | none => exact .pushed hdone
  | some err => exact .unsavedPush hdone (hbroken err hanswer.symm)

theorem enqueueLocked_ends {fuel : ℕ} (hfuel : w.queue.len < fuel) :
    (enqueueLocked cfg id cmd fuel).Ends (callRules cfg id clock broken) tid
      (Enqueued clock broken cfg cmd w) w := by
  refine act_ends (fun _ => ⟨_, rfl⟩) fun inp w₀ err _ hbroken hensure => ?_
  have hqueue := (exec_quiet rfl hensure).queue
  have htickets := (exec_quiet rfl hensure).tickets
  have hdedup := (exec_ensureSession hensure).1
  rcases ensureSession_cases hensure with ⟨rfl, hs⟩ | ⟨err, rfl, hs, hsave⟩
  · refine (checkDedup_ends cmd.dedupKey hs).bind fun dup w₁ h => ?_
    rcases h with ⟨rfl, rfl, hseen⟩ | ⟨rfl, hpasses⟩
    · rw [Seen, hdedup] at hseen
      exact .duplicate hseen hqueue hdedup
    · have hpasses' : Passes clock cmd.dedupKey w w₁ := by
        refine ⟨?_, ?_, hpasses.queue.trans hqueue, hpasses.tickets.trans htickets,
          hpasses.session⟩
        · have hfresh := hpasses.fresh
          simp only [Fresh, Recent, hdedup] at hfresh
          exact hfresh
        · rw [Stamps, ← hdedup]
          exact hpasses.stamps
      have hlen : w₁.queue.len < fuel := by rwa [hpasses'.queue]
      refine (makeRoom_ends hlen).bind fun r w₂ h => ?_
      cases h with
      | cleared hcleared => exact push_ends hpasses' hcleared
      | refused hpolicy herr hfull =>
          exact .refused hpolicy herr (hpasses'.queue ▸ hfull) hpasses'.queue hpasses'.stamps
      | emptied hemptied =>
          obtain ⟨k, hevicts⟩ := hemptied.evicts
          refine .emptied hemptied.policy hemptied.err hemptied.large hpasses'.fresh
            hemptied.empty ?_
          rw [Stamps, hevicts.dedup]
          exact hpasses'.stamps
  · exact .unsaved hs (hbroken err hsave) hqueue hdedup

/-- The call holds the lock while it works. -/
theorem locked_ends {α β : Type} {p : Deliver α} {f : α → β} {post : β → World → Prop}
    (hmu : w.mu = none)
    (hp : p.Ends (callRules cfg id clock broken) tid
      (fun x w' => post (f x) { w' with mu := none }) { w with mu := some tid }) :
    (perform .lockManager >>= fun _ => p >>= fun x => perform .unlockManager >>= fun _ =>
      (pure (f x) : Deliver β)).Ends (callRules cfg id clock broken) tid post w := by
  intro inp _
  refine ⟨{ w with mu := some tid }, (), by simp [exec, hmu], ?_⟩
  exact hp.bind fun x w' h inp' _ => ⟨{ w' with mu := none }, (), rfl, h⟩

/-- The lock is neither in the queue nor in the dedup table. -/
theorem Enqueued.unlock {mu mu' : Option ℕ} {r : List OverflowEvent × Option Error} {w' : World}
    (h : Enqueued clock broken cfg cmd { w with mu := mu } r w') :
    Enqueued clock broken cfg cmd w r { w' with mu := mu' } := by
  cases h with
  | unsaved hsession herr hqueue hdedup => exact .unsaved hsession herr hqueue hdedup
  | duplicate hseen hqueue hdedup => exact .duplicate hseen hqueue hdedup
  | refused hpolicy herr hfull hqueue hstamps => exact .refused hpolicy herr hfull hqueue hstamps
  | emptied hpolicy herr hlarge hfresh hqueue hstamps =>
      exact .emptied hpolicy herr hlarge hfresh hqueue hstamps
  | pushed h => exact .pushed ⟨h.just, h.length, h.dropped, h.queue, h.stamps⟩
  | unsavedPush h herr => exact .unsavedPush ⟨h.just, h.length, h.dropped, h.queue, h.stamps⟩ herr

theorem enqueueWithEvents_ends {fuel : ℕ} (hmu : w.mu = none) (hfuel : w.queue.len < fuel) :
    (enqueueWithEvents cfg id cmd fuel).Ends (callRules cfg id clock broken) tid
      (fun r w' => Enqueued clock broken cfg cmd w r w') w := by
  have hlocked : ({ w with mu := some tid } : World).queue.len < fuel := hfuel
  exact locked_ends hmu ((enqueueLocked_ends hlocked).mono fun _ _ h => h.unlock)

theorem enqueue_ends {fuel : ℕ} (hmu : w.mu = none) (hfuel : w.queue.len < fuel) :
    (enqueue cfg id cmd fuel).Ends (callRules cfg id clock broken) tid
      (fun err w' => w'.mu = none ∧ ∃ events, Enqueued clock broken cfg cmd w (events, err) w') w := by
  have hlocked : ({ w with mu := some tid } : World).queue.len < fuel := hfuel
  exact locked_ends hmu ((enqueueLocked_ends hlocked).mono fun r _ h => ⟨rfl, r.1, h.unlock⟩)

end ends

/-! ## Eviction under drop_oldest -/

/-- No save fails, and every clock reading is ten minutes past the last time the key of the
command was seen. -/
def freshRules (cfg : Config) (id : String) (w : World) (cmd : Command) : Rules (machine cfg id) :=
  callRules cfg id
    (fun now => cmd.dedupKey ≠ "" → ∀ t, w.dedup cmd.dedupKey = some t → 10 * minute ≤ now - t)
    fun _ => False

/-- The result of an `EnqueueWithEvents` that made room by evicting the first `k` commands. -/
structure EvictsOldest (cfg : Config) (cmd : Command) (w : World)
    (r : List OverflowEvent × Option Error) (k : ℕ) (w' : World) : Prop where
  accepted : r.2 = none
  least : IsLeast {n | Fits cfg (w.queue.without (w.queue.oldestFirst.take n)) cmd} k
  queue : w'.queue =
    (w.queue.without (w.queue.oldestFirst.take k)).push { cmd with ticket := w.tickets }
  depth : w'.queue.len ≤ cfg.maxQueueDepth
  bytes : w'.queue.totalEstimatedBytes ≤ cfg.maxQueueBytes
  events : r.1.length = k ∧ ∀ e ∈ r.1, e.action = .dropped

theorem JustFits.isLeast {cfg : Config} {q : ControllerQueue} {cmd : Command} {k : ℕ}
    (h : JustFits cfg q cmd k) :
    IsLeast {n | Fits cfg (q.without (q.oldestFirst.take n)) cmd} k := by
  have hdrops : ∀ n, q.without (q.oldestFirst.take n) = drops n q :=
    fun n => (q.iterate_dropOldest n).symm
  refine ⟨?_, fun n hn => ?_⟩
  · rw [Set.mem_ofPred_eq, hdrops]
    exact h.fits
  · rw [Set.mem_ofPred_eq, hdrops] at hn
    exact Nat.le_of_not_lt fun hlt => h.least n hlt hn

theorem push_bytes (q : ControllerQueue) (cmd : Command) :
    (q.push cmd).totalEstimatedBytes = q.totalEstimatedBytes + estimatedCommandBytes cmd := by
  rw [totalEstimatedBytes_eq, totalEstimatedBytes_eq,
    ((ControllerQueue.push_snapshot_perm q cmd).map _).sum_eq, List.map_cons, List.sum_cons, add_comm]

theorem push_len (q : ControllerQueue) (cmd : Command) : (q.push cmd).len = q.len + 1 := by
  rw [len_eq_length, len_eq_length, (ControllerQueue.push_snapshot_perm q cmd).length_eq,
    List.length_cons]

/-- Under drop_oldest a command that is no duplicate and fits into an empty queue is accepted,
and the oldest commands make way for it, as few of them as possible. -/
theorem enqueue_evicts_oldest {cfg : Config} {id : String} {tid fuel : ℕ} {w : World}
    {cmd : Command} (hpolicy : cfg.queueOverflow = .dropOldest) (hdepth : 1 ≤ cfg.maxQueueDepth)
    (hbytes : 0 < cfg.maxQueueBytes) (hsize : estimatedCommandBytes cmd ≤ cfg.maxQueueBytes)
    (hmu : w.mu = none) (hfuel : w.queue.len < fuel) :
    (enqueueWithEvents cfg id cmd fuel).Ends (freshRules cfg id w cmd) tid
      (fun r w' => ∃ k, EvictsOldest cfg cmd w r k w') w := by
  have hfits : Fits cfg {} cmd := fits_empty (.inr hsize)
  refine (enqueueWithEvents_ends hmu hfuel).mono fun r w' h => ?_
  cases h with
  | unsaved _ herr => exact herr.elim
  | duplicate hseen =>
      obtain ⟨hkey, t, now, ht, hclock, hlt⟩ := hseen
      exact absurd (hclock hkey t ht) (not_le.mpr hlt)
  | refused hreject => exact absurd hpolicy hreject
  | emptied _ _ hlarge => exact absurd hfits hlarge
  | unsavedPush _ herr => exact herr.elim
  | @pushed events k _ h =>
      have hqueue : w'.queue = (drops k w.queue).push { cmd with ticket := w.tickets } := h.queue
      refine ⟨k, rfl, h.just.isLeast, ?_, ?_, ?_, h.length, h.dropped⟩
      · rw [← w.queue.iterate_dropOldest k]
        exact hqueue
      · rw [hqueue, push_len]
        exact h.just.fits.depth hdepth
      · rw [hqueue, push_bytes]
        exact h.just.fits.bytes hbytes

/-- A queue of two commands is full. -/
def twoDeep : Config := { maxQueueDepth := 2 }

/-- The session of a controller that is offline, with this queue. -/
def offline (q : ControllerQueue) : World :=
  { slot := { session := some { Session.new "c" none 0 with queue := q } } }

/-- Two commands, the older one in the buffer that is served last. -/
def twoQueued : World :=
  offline
    { high := [{ commandID := 9, createdAt := 5 }]
      query := [{ commandID := 7, createdAt := 3 }] }

/-- The older one of two queued commands makes way for a third. -/
theorem third_command_evicts_one :
    ∃ r w', Call (freshRules twoDeep "c" twoQueued { commandID := 8 }) 0 twoQueued
        (enqueueWithEvents twoDeep "c" { commandID := 8 } 3) w' r ∧
      w'.queue.snapshot.map Command.commandID = [9, 8] ∧
      ∃ k, EvictsOldest twoDeep { commandID := 8 } twoQueued r k w' := by
  have hcall : ∃ r w', Call (freshRules twoDeep "c" twoQueued { commandID := 8 }) 0 twoQueued
        (enqueueWithEvents twoDeep "c" { commandID := 8 } 3) w' r ∧
      w'.queue.snapshot.map Command.commandID = [9, 8] :=
    ⟨_, _, Prog.call_of_eval (M := machine twoDeep "c") {}
      (fun _ _ => ⟨fun hkey => absurd rfl hkey, by simp⟩) rfl, by decide +kernel⟩
  obtain ⟨r, w', hcall, hqueue⟩ := hcall
  exact ⟨r, w', hcall, hqueue,
    (enqueue_evicts_oldest rfl (by decide) (by decide) (by decide) rfl (by decide)).call hcall⟩

end TcpAdapter.Delivery
