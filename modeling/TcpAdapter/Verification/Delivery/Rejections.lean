import TcpAdapter.Verification.Delivery.Enqueue

/-! # Rejected commands

A rejected command should leave no trace. It does leave one in two ways: under drop_oldest a
command that is larger than the queue may be empties the queue before it is rejected, and
its key is on record as seen although the command was never queued. -/

namespace TcpAdapter.Delivery

open TcpAdapter.Concurrent TcpAdapter.Queue TcpAdapter.Protocol TcpAdapter.Manager
open TcpAdapter.Policy

/-! ## The queue of a rejected command -/

/-- Errors of the store are none of the manager's own. -/
def StoreError (err : Error) : Prop :=
  ∃ msg, err = .text msg

def Rejects (err : Option Error) : Prop :=
  err = some .duplicate ∨ err = some .queueFull ∨ err = some .queueBytesFull

theorem StoreError.not_rejects {err : Error} (h : StoreError err) : ¬ Rejects (some err) := by
  obtain ⟨msg, rfl⟩ := h
  simp [Rejects]

/-- Any clock, and a store that may fail. -/
abbrev anyRules (cfg : Config) (id : String) : Rules (machine cfg id) :=
  callRules cfg id (fun _ => True) StoreError

/-- The store may fail, and the ten minutes of the key are not over in the middle of the call. -/
def steadyRules (cfg : Config) (id : String) (w : World) (key : String) (now : Time) :
    Rules (machine cfg id) :=
  callRules cfg id (fun t => Recent w key t ↔ Recent w key now) StoreError

theorem Fresh.not_recent {w : World} {key : String} {now : Time}
    (h : Fresh (fun t => Recent w key t ↔ Recent w key now) w key) : ¬ Recent w key now := by
  rcases h with hnever | ⟨t, hsame, ht⟩
  · exact hnever now
  · exact fun hrecent => ht (hsame.mpr hrecent)

/-- A session that is not there has no queue. -/
theorem queue_of_no_session {w : World} (h : w.session = none) : w.queue = {} := by
  have hslot : w.slot.session = none := h
  simp [Slot.queue, hslot]

/-- What does not even fit into an empty queue is not pushed. -/
theorem Pushed.fits_empty {clock : Time → Prop} {cfg : Config} {cmd : Command} {w w' : World}
    {events : List OverflowEvent} {k : ℕ} (h : Pushed clock cfg cmd w events k w') :
    Fits cfg {} cmd :=
  h.just.fits.empty

/-- A command that is larger than the queue may be, and no duplicate, costs a queue that is not
empty everything in it. In all other cases a rejected command evicts nothing. -/
theorem rejected_enqueue_keeps_queue_iff {cfg : Config} {id : String} {tid fuel : ℕ} {w : World}
    {cmd : Command} (now : Time) (hmu : w.mu = none) (hfuel : w.queue.len < fuel) :
    (enqueue cfg id cmd fuel).Ends (steadyRules cfg id w cmd.dedupKey now) tid
      (fun err w' => (Rejects err → w'.queue = w.queue) ↔
        (cfg.queueOverflow = .dropOldest →
          cfg.maxQueueBytes ≤ 0 ∨ estimatedCommandBytes cmd ≤ cfg.maxQueueBytes ∨
            w.queue = {} ∨ Recent w cmd.dedupKey now)) w := by
  refine (enqueue_ends hmu hfuel).mono ?_
  rintro err w' ⟨-, events, h⟩
  cases h with
  | unsaved hsession herr =>
      exact iff_of_true (fun hrejects => absurd hrejects herr.not_rejects)
        fun _ => .inr (.inr (.inl (queue_of_no_session hsession)))
  | duplicate hseen hqueue =>
      obtain ⟨t, hclock, hrecent⟩ := hseen.exists_recent
      exact iff_of_true (fun _ => hqueue) fun _ => .inr (.inr (.inr (hclock.mp hrecent)))
  | refused hpolicy _ _ hqueue =>
      exact iff_of_true (fun _ => hqueue) fun hdrop => absurd hdrop hpolicy
  | emptied hpolicy herr hlarge hfresh hempty =>
      have hrejects : Rejects (some _) := .inr (herr.imp (congrArg some) (congrArg some))
      rw [fits_empty_iff, not_or] at hlarge
      constructor
      · intro hkeeps _
        exact .inr (.inr (.inl ((hkeeps hrejects).symm.trans hempty)))
      · intro hcond _
        rcases hcond hpolicy with hoff | hsmall | hqueue | hrecent
        · exact absurd hoff hlarge.1
        · exact absurd hsmall hlarge.2
        · exact hempty.trans hqueue.symm
        · exact absurd hrecent hfresh.not_recent
  | pushed h =>
      refine iff_of_true (fun hrejects => by simp [Rejects] at hrejects) fun _ => ?_
      exact (fits_empty_iff.mp h.fits_empty).imp_right .inl
  | unsavedPush h herr =>
      refine iff_of_true (fun hrejects => absurd hrejects herr.not_rejects) fun _ => ?_
      exact (fits_empty_iff.mp h.fits_empty).imp_right .inl

def twentyBytes : Config := { maxQueueBytes := 20 }

/-- One command of eleven bytes is queued. -/
def oneQueued : World :=
  offline { query := [{ commandID := 7 }] }

theorem small_command_evicts_or_fits :
    (enqueue twentyBytes "c" { commandID := 8 } 2).Ends
      (steadyRules twentyBytes "c" oneQueued "" 0) 0
      (fun err w' => Rejects err → w'.queue = oneQueued.queue) oneQueued := by
  have hends := @rejected_enqueue_keeps_queue_iff twentyBytes "c" 0 2 oneQueued { commandID := 8 } 0
    rfl (by decide)
  exact hends.mono fun _ _ h => h.mpr fun _ => .inr (.inl (by decide))

/-- A command of 21 bytes is rejected, and the queue is gone. -/
theorem oversized_command_empties_queue :
    ∃ w', Call (anyRules twentyBytes "c") 0 oneQueued
        (enqueue twentyBytes "c" { commandID := 8, payload := List.replicate 10 0 } 2) w'
        (some .queueBytesFull) ∧
      w'.queue = {} ∧ oneQueued.queue ≠ {} :=
  ⟨_, Prog.call_of_eval (M := machine twentyBytes "c") {} (fun _ _ => ⟨trivial, by simp⟩) rfl,
    by decide +kernel, by decide +kernel⟩

/-! ## Histories of calls -/

/-- An `Enqueue` that has returned. -/
structure Answered where
  key : String
  start : Time
  finish : Time
  result : Option Error

/-- The calls of `Enqueue` for a controller, the last one first. Between them other operations
do what they like; none of them makes up a key. -/
inductive Calls (cfg : Config) (id : String) (broken : Error → Prop)
    (allowed : World → Command → Prop) : World → List Answered → Prop where
  | none : Calls cfg id broken allowed {} []
  | call {w w' : World} {past : List Answered} {tid fuel : ℕ} {cmd : Command}
      {start finish : Time} {result : Option Error} (h : Calls cfg id broken allowed w past)
      (hallowed : allowed w cmd) (hfuel : w.queue.len < fuel)
      (hcall : Call (callRules cfg id (fun t => start ≤ t ∧ t ≤ finish) broken) tid w
        (enqueue cfg id cmd fuel) w' result) :
      Calls cfg id broken allowed w' (⟨cmd.dedupKey, start, finish, result⟩ :: past)
  | other {w w' : World} {past : List Answered} (h : Calls cfg id broken allowed w past)
      (hmu : w'.mu = .none) (hdedup : ∀ key t, w'.dedup key = some t → w.dedup key = some t) :
      Calls cfg id broken allowed w' past

/-- Some earlier call with the key has returned nil less than ten minutes before. -/
def Justified (call : Answered) (past : List Answered) : Prop :=
  ∃ earlier ∈ past, earlier.key = call.key ∧ earlier.result = none ∧
    call.start - earlier.finish < 10 * minute

/-- Each duplicate was one. -/
def NoFalseDuplicate : List Answered → Prop
  | [] => True
  | call :: past => (call.result = some .duplicate → Justified call past) ∧ NoFalseDuplicate past

/-- The command finds room, or it can make room. -/
def HasRoom (cfg : Config) (w : World) (cmd : Command) : Prop :=
  cmd.dedupKey ≠ "" → Fits cfg w.queue cmd ∨ cfg.queueOverflow = .dropOldest ∧ Fits cfg {} cmd

section histories

variable {cfg : Config} {id : String} {broken : Error → Prop} {allowed : World → Command → Prop}
  {w : World} {past : List Answered}

theorem Calls.mu (h : Calls cfg id broken allowed w past) : w.mu = .none := by
  induction h with
  | none => rfl
  | call _ _ hfuel hcall ih => exact ((enqueue_ends ih hfuel).call hcall).1
  | other _ hmu => exact hmu

/-- Every key on record belongs to a call that returned nil no earlier. -/
def Recorded (w : World) (past : List Answered) : Prop :=
  ∀ key t, w.dedup key = some t →
    ∃ call ∈ past, call.key = key ∧ call.result = none ∧ t ≤ call.finish

theorem Recorded.cons {w' : World} (h : Recorded w past) (call : Answered)
    (hdedup : w'.dedup = w.dedup) : Recorded w' (call :: past) := by
  intro key t ht
  rw [hdedup] at ht
  obtain ⟨earlier, hmem, hearlier⟩ := h key t ht
  exact ⟨earlier, List.mem_cons_of_mem _ hmem, hearlier⟩

/-- A call that returns nil may record its key. -/
theorem Recorded.stamp {w' : World} {key : String} {start finish : Time} (h : Recorded w past)
    (hstamps : Stamps (fun t => start ≤ t ∧ t ≤ finish) key w w') :
    Recorded w' (⟨key, start, finish, none⟩ :: past) := by
  rcases hstamps with ⟨-, hdedup⟩ | ⟨-, t₀, ht₀, hdedup⟩
  · exact h.cons _ hdedup
  · intro key' t ht
    by_cases hkey : key' = key
    · subst hkey
      rw [hdedup, Function.update_self] at ht
      cases ht
      exact ⟨_, List.mem_cons_self, rfl, rfl, ht₀.2⟩
    · rw [hdedup, Function.update_of_ne hkey] at ht
      obtain ⟨earlier, hmem, hearlier⟩ := h key' t ht
      exact ⟨earlier, List.mem_cons_of_mem _ hmem, hearlier⟩

/-- A key that was seen less than ten minutes ago justifies a duplicate. -/
theorem Recorded.justified {key : String} {start finish : Time} {result : Option Error}
    (h : Recorded w past) (hseen : Seen (fun t => start ≤ t ∧ t ≤ finish) w key) :
    Justified ⟨key, start, finish, result⟩ past := by
  obtain ⟨-, t, now, ht, ⟨hstart, -⟩, hlt⟩ := hseen
  obtain ⟨earlier, hmem, hkey, hresult, hfinish⟩ := h key t ht
  refine ⟨earlier, hmem, hkey, hresult, ?_⟩
  exact lt_of_le_of_lt (Int.sub_le_sub hstart hfinish) hlt

end histories

section runs

variable {cfg : Config} {id : String} {w : World} {past : List Answered}

/-- A command with a key is accepted or a duplicate; nothing else gets as far as its key. -/
theorem Recorded.enqueue {w' : World} {cmd : Command} {start finish : Time}
    {r : List OverflowEvent × Option Error} (hrecorded : Recorded w past)
    (hroom : HasRoom cfg w cmd)
    (h : Enqueued (fun t => start ≤ t ∧ t ≤ finish) (fun _ => False) cfg cmd w r w') :
    Recorded w' (⟨cmd.dedupKey, start, finish, r.2⟩ :: past) ∧
      (r.2 = some .duplicate → Justified ⟨cmd.dedupKey, start, finish, r.2⟩ past) := by
  have hkeyless : cmd.dedupKey = "" → Stamps (fun t => start ≤ t ∧ t ≤ finish) cmd.dedupKey w w' →
      w'.dedup = w.dedup := by
    rintro hnone (⟨-, hdedup⟩ | ⟨hkey, -⟩)
    · exact hdedup
    · exact absurd hnone hkey
  cases h with
  | unsaved _ herr => exact herr.elim
  | duplicate hseen _ hdedup => exact ⟨hrecorded.cons _ hdedup, fun _ => hrecorded.justified hseen⟩
  | refused hpolicy herr hfull _ hstamps =>
      have hnone : cmd.dedupKey = "" := by
        by_contra hkey
        rcases hroom hkey with hfits | ⟨hdrop, -⟩
        · exact hfull hfits
        · exact hpolicy hdrop
      refine ⟨hrecorded.cons _ (hkeyless hnone hstamps), ?_⟩
      rcases herr with rfl | rfl <;> rintro ⟨⟩
  | emptied _ herr hlarge _ _ hstamps =>
      have hnone : cmd.dedupKey = "" := by
        by_contra hkey
        rcases hroom hkey with hfits | ⟨-, hfits⟩
        · exact hlarge hfits.empty
        · exact hlarge hfits
      refine ⟨hrecorded.cons _ (hkeyless hnone hstamps), ?_⟩
      rcases herr with rfl | rfl <;> rintro ⟨⟩
  | pushed h => exact ⟨hrecorded.stamp h.stamps, by rintro ⟨⟩⟩
  | unsavedPush _ herr => exact herr.elim

/-- As long as no save fails and commands with keys find room, a duplicate follows a command
that was accepted less than ten minutes before. -/
theorem no_false_duplicates (h : Calls cfg id (fun _ => False) (HasRoom cfg) w past) :
    NoFalseDuplicate past := by
  have hboth : Recorded w past ∧ NoFalseDuplicate past := by
    induction h with
    | none => exact ⟨by rintro key t ⟨⟩, trivial⟩
    | call h hroom hfuel hcall ih =>
        obtain ⟨-, events, henqueued⟩ := (enqueue_ends h.mu hfuel).call hcall
        obtain ⟨hrecorded, hjustified⟩ := ih.1.enqueue hroom henqueued
        exact ⟨hrecorded, hjustified, ih.2⟩
    | other _ _ hdedup ih =>
        exact ⟨fun key t ht => ih.1 key t (hdedup key t ht), ih.2⟩
  exact hboth.2

/-- A call at time 0 with a store that works. -/
theorem Calls.atZero {broken : Error → Prop} {allowed : World → Command → Prop} {w' : World}
    {result : Option Error} (h : Calls cfg id broken allowed w past) (cmd : Command) (fuel : ℕ)
    (hallowed : allowed w cmd) (hfuel : w.queue.len < fuel)
    (heval : (enqueue cfg id cmd fuel).eval (machine cfg id) 0 {} w = some (w', result)) :
    Calls cfg id broken allowed w' (⟨cmd.dedupKey, 0, 0, result⟩ :: past) :=
  .call h hallowed hfuel
    (Prog.call_of_eval (M := machine cfg id) {} (fun _ _ => ⟨⟨le_rfl, le_rfl⟩, by simp⟩) heval)

end runs

def keyed : Command := { commandID := 8, dedupKey := "k" }

/-- A command with a key comes twice. -/
theorem accepted_then_duplicate :
    ∃ w past, Calls {} "c" (fun _ => False) (HasRoom {}) w past ∧
      past.map (fun call => (call.key, call.result)) = [("k", some .duplicate), ("k", none)] ∧
      NoFalseDuplicate past := by
  have hroom : ∀ w, HasRoom {} w keyed := fun _ _ => .inr ⟨rfl, fits_empty (.inr (by decide))⟩
  have hnone : Calls {} "c" (fun _ => False) (HasRoom {}) {} [] := .none
  have hfirst := hnone.atZero keyed 2 (hroom _) (by decide) rfl
  have hsecond := hfirst.atZero keyed 2 (hroom _) (by decide +kernel) rfl
  exact ⟨_, _, hsecond, rfl, no_false_duplicates hsecond⟩

/-- A full queue rejects, and nothing is evicted. -/
def oneDeep : Config := { maxQueueDepth := 1, queueOverflow := .reject }

/-- A command with a key is rejected by a full queue. It comes again and is a duplicate,
although no command with the key was ever accepted. -/
theorem rejected_command_is_duplicate :
    ∃ w past, Calls oneDeep "c" StoreError (fun _ _ => True) w past ∧
      past.map (fun call => (call.key, call.result)) =
        [("k", some .duplicate), ("k", some .queueFull), ("", none)] ∧
      ¬ NoFalseDuplicate past := by
  have hnone : Calls oneDeep "c" StoreError (fun _ _ => True) {} [] := .none
  have hfirst := hnone.atZero { commandID := 7 } 2 trivial (by decide) rfl
  have hsecond := hfirst.atZero keyed 2 trivial (by decide +kernel) rfl
  have hthird := hsecond.atZero keyed 2 trivial (by decide +kernel) rfl
  refine ⟨_, _, hthird, rfl, ?_⟩
  rintro ⟨hdup, -⟩
  obtain ⟨earlier, hmem, hkey, hresult, -⟩ := hdup rfl
  rcases List.mem_cons.mp hmem with rfl | hmem
  · cases hresult
  · cases List.mem_singleton.mp hmem
    exact absurd hkey (by decide)

end TcpAdapter.Delivery
