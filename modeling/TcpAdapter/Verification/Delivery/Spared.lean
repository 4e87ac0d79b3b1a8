import TcpAdapter.Verification.Delivery.Survey
import TcpAdapter.Verification.Eviction

/-! # The queue after a pass that sends nothing

A pass takes the commands out class by class, up to the first one that may go out. What it puts
back it appends. The queue is then what it was without its dead commands only if the pass has come
to all of these, and if no live command has changed its place. -/

namespace TcpAdapter.Delivery

open List TcpAdapter.Concurrent TcpAdapter.Queue TcpAdapter.Protocol TcpAdapter.Manager
open TcpAdapter.Policy

/-! ## Classes -/

theorem ofClass_snapshot {q : ControllerQueue} (h : Sorted q) (b : ControllerQueue.Buffer) :
    ofClass b q.snapshot = q.buffer b := by
  rw [ofClass, ← ControllerQueue.restore_buffer, ControllerQueue.restore_snapshot h]

theorem ofClass_map_unnumbered (b : ControllerQueue.Buffer) (cmds : List Command) :
    ofClass b (cmds.map Command.unnumbered) = (ofClass b cmds).map Command.unnumbered := by
  rw [ofClass, filter_map]
  rfl

theorem visible_eq (q : ControllerQueue) (fwMode syncMode : Bool) :
    q.visible fwMode syncMode = (ControllerQueue.eligible fwMode syncMode).flatMap q.buffer := by
  cases fwMode <;> cases syncMode <;>
    simp [ControllerQueue.visible, ControllerQueue.eligible, ControllerQueue.buffer]

theorem visible_sublist (q : ControllerQueue) (fwMode syncMode : Bool) :
    q.visible fwMode syncMode <+ q.snapshot := by
  cases fwMode <;> cases syncMode <;>
    simp [ControllerQueue.visible, ControllerQueue.snapshot, append_assoc]

/-- Pops go through the classes one by one. -/
theorem visible_pairwise {q : ControllerQueue} (h : Sorted q) (fwMode syncMode : Bool) :
    (q.visible fwMode syncMode).Pairwise fun c d =>
      c.priority.buffer.rank ≤ d.priority.buffer.rank := by
  have horder : (ControllerQueue.eligible fwMode syncMode).Pairwise fun b b' => b.rank ≤ b'.rank := by
    cases fwMode <;> cases syncMode <;> decide
  rw [visible_eq, pairwise_flatMap]
  refine ⟨fun b _ => pairwise_of_forall_mem_list fun c hc d hd => ?_,
    horder.imp fun hle c hc d hd => ?_⟩
  · rw [h b c hc, h b d hd]
  · rwa [h _ c hc, h _ d hd]

/-- When pops have gone past the commands `before` and stand before the command `cmd`, they are
done with every other class, or have not come to it. -/
theorem class_before_or_behind {q q' : ControllerQueue} {fwMode syncMode : Bool}
    {before : List Command} {found : Option Command} (h : Sorted q) (h' : Sorted q')
    (hvisible : q.visible fwMode syncMode = before ++ found.toList ++ q'.visible fwMode syncMode)
    (hnone : found = none → q'.visible fwMode syncMode = []) {b : ControllerQueue.Buffer}
    (hb : ∀ cmd ∈ found, cmd.priority.buffer ≠ b) : ofClass b before = [] ∨ q'.buffer b = [] := by
  by_contra hboth
  obtain ⟨hbefore, hbehind⟩ := not_or.mp hboth
  obtain ⟨c, hc⟩ := exists_mem_of_ne_nil _ hbefore
  obtain ⟨d, hd⟩ := exists_mem_of_ne_nil _ hbehind
  obtain ⟨hc, hclass⟩ := mem_filter.mp hc
  have hclass : c.priority.buffer = b := by simpa using hclass
  have hcmem : c ∈ q.visible fwMode syncMode := by simp [hvisible, hc]
  have heligible : b ∈ ControllerQueue.eligible fwMode syncMode := by
    rw [visible_eq] at hcmem
    obtain ⟨b', hb', hmem⟩ := mem_flatMap.mp hcmem
    rwa [← hclass, h b' c hmem]
  have hdmem : d ∈ q'.visible fwMode syncMode := by
    rw [visible_eq]
    exact mem_flatMap.mpr ⟨b, heligible, hd⟩
  cases found with
  | none => simp [hnone rfl] at hdmem
  | some cmd =>
      have hpairs := visible_pairwise h fwMode syncMode
      rw [hvisible, append_assoc, pairwise_append] at hpairs
      have hle : b.rank ≤ cmd.priority.buffer.rank := hclass ▸ hpairs.2.2 c hc cmd (by simp)
      have hge : cmd.priority.buffer.rank ≤ b.rank := by
        have hrest := (pairwise_append.mp hpairs.2.1).2.2 cmd (by simp) d hdmem
        rwa [h' b d hd] at hrest
      exact hb cmd rfl (ControllerQueue.Buffer.rank_inj (le_antisymm hge hle))

/-! ## Dead commands -/

/-- The command is expired, or its payload is invalid, or it cannot be encoded. -/
def dead (mode : FrameMode) (now : Time) (cmd : Command) : Bool :=
  cmd.expired now || !(validateServerCommandPayload cmd.commandID cmd.payload).isOk ||
    !(encodeFrame (commandFrame cmd 0 mode)).isOk

/-- The command is valid but cannot be encoded, and it uses up a number before this is noticed. -/
def wastesNumber (mode : FrameMode) (now : Time) (cmd : Command) : Bool :=
  !cmd.expired now && (validateServerCommandPayload cmd.commandID cmd.payload).isOk &&
    !(encodeFrame (commandFrame cmd 0 mode)).isOk && decide (cmd.retrySeq = 0)

@[simp] theorem dead_unnumbered (mode : FrameMode) (now : Time) (cmd : Command) :
    dead mode now cmd.unnumbered = dead mode now cmd := rfl

/-- The modes let the command through. -/
def allowed (s : Session) (cmd : Command) : Bool :=
  commandAllowedInModes cmd.commandID s.fwMode s.syncMode

theorem mayGoOut_iff {s : Session} {now : Time} {cmd : Command} :
    mayGoOut s.deliveryContext now cmd = true ↔
      dead s.frameMode now cmd = false ∧ allowed s cmd = true := by
  simp only [mayGoOut, dead, allowed, Session.deliveryContext, Bool.and_eq_true, Bool.not_eq_true',
    Bool.or_eq_false_iff, Bool.not_eq_false']
  tauto

theorem unexpired_of_mayGoOut {dctx : DeliveryContext} {now : Time} {cmd : Command}
    (h : mayGoOut dctx now cmd = true) : cmd.expired now = false := by
  simp only [mayGoOut, Bool.and_eq_true, Bool.not_eq_true'] at h
  exact h.1.1.1

theorem mayGoOut_of_expired_eq {dctx : DeliveryContext} {t now : Time} {cmd : Command}
    (h : cmd.expired t = cmd.expired now) : mayGoOut dctx t cmd = mayGoOut dctx now cmd := by
  rw [mayGoOut, h, mayGoOut]

theorem dead_of_wastesNumber {mode : FrameMode} {now : Time} {cmd : Command}
    (h : wastesNumber mode now cmd = true) :
    dead mode now cmd = true ∧ cmd.expired now = false := by
  simp only [wastesNumber, Bool.and_eq_true, Bool.not_eq_true'] at h
  obtain ⟨⟨⟨hexpired, -⟩, hencode⟩, -⟩ := h
  exact ⟨by simp [dead, hencode], hexpired⟩

/-! ## The commands that a pass comes to -/

/-- The queue that the pass goes over. -/
def drained (s : Session) (t : Time) : Session :=
  { s with queue := (s.queue.drainExpired t).2 }

theorem drained_buffer (s : Session) (t : Time) (b : ControllerQueue.Buffer) :
    (drained s t).queue.buffer b = (s.queue.buffer b).filter fun c => !c.expired t :=
  ControllerQueue.drainExpired_buffer ..

theorem drained_visible (s : Session) (t : Time) (fwMode syncMode : Bool) :
    (drained s t).queue.visible fwMode syncMode =
      (s.queue.visible fwMode syncMode).filter fun c => !c.expired t := by
  rw [visible_eq, visible_eq, filter_flatMap]
  exact flatMap_congr fun b _ => drained_buffer s t b

theorem drained_congr {s : Session} {t now : Time}
    (h : ∀ cmd ∈ s.queue.snapshot, cmd.expired t = cmd.expired now) : drained s t = drained s now := by
  have hqueue : (drained s t).queue = (drained s now).queue := by
    refine ControllerQueue.ext_buffer fun b => ?_
    rw [drained_buffer, drained_buffer]
    exact filter_congr fun c hc => by rw [h c (ControllerQueue.mem_snapshot.mpr ⟨b, hc⟩)]
  have hqueue : (s.queue.drainExpired t).2 = (s.queue.drainExpired now).2 := hqueue
  rw [drained, hqueue, drained]

/-- The commands that pops reach before the first one that may go out. -/
def ahead (s : Session) (now : Time) : List Command :=
  (s.queue.visible s.fwMode s.syncMode).takeWhile fun cmd => !mayGoOut s.deliveryContext now cmd

/-- The first command in the order of pops that may go out. -/
def firstOut (s : Session) (now : Time) : Option Command :=
  (s.queue.visible s.fwMode s.syncMode).find? (mayGoOut s.deliveryContext now)

/-! ## Places -/

/-- Two runs of a list change places around one element, and what is not live is left out on one
side: nothing changes if and only if all of it is live and the change of places changes nothing. -/
theorem swapped_eq_filter_iff {α : Type} {live : α → Bool} {behind kept passed found found' : List α}
    (hlength : found'.length = found.length) (hfound : ∀ c ∈ found, live c = true)
    (hkept : passed.filter live = kept.filter live) :
    behind ++ (found' ++ kept) = (passed ++ found ++ behind).filter live ↔
      (∀ c ∈ kept, live c = true) ∧ (∀ c ∈ behind, live c = true) ∧
        behind ++ (found' ++ kept) = kept ++ (found ++ behind) := by
  rw [filter_append, filter_append, hkept, filter_eq_self.mpr hfound]
  constructor
  · intro heq
    have hlen := congrArg length heq
    simp only [length_append, hlength] at hlen
    have hle₁ := length_filter_le live kept
    have hle₂ := length_filter_le live behind
    have hall₁ := length_filter_eq_length_iff.mp (show (kept.filter live).length = _ by omega)
    have hall₂ := length_filter_eq_length_iff.mp (show (behind.filter live).length = _ by omega)
    refine ⟨hall₁, hall₂, ?_⟩
    rw [heq, filter_eq_self.mpr hall₁, filter_eq_self.mpr hall₂, append_assoc]
  · rintro ⟨hall₁, hall₂, heq⟩
    rw [heq, filter_eq_self.mpr hall₁, filter_eq_self.mpr hall₂, append_assoc]

/-- Among elements with different keys a change of places is noticed. -/
theorem swapped_eq_iff {α β : Type} {key : α → β} {behind kept : List α} {x x' : α}
    (hkey : key x' = key x) (hnodup : ((kept ++ x :: behind).map key).Nodup) :
    behind ++ x' :: kept = kept ++ x :: behind ↔ kept = [] ∧ behind = [] ∧ x' = x := by
  constructor
  · intro heq
    rw [map_append, map_cons, nodup_middle, nodup_cons] at hnodup
    obtain ⟨hnot, hnodup⟩ := hnodup
    rw [mem_append, not_or] at hnot
    have hkeys := congrArg (map key) heq
    rw [map_append, map_append, map_cons, map_cons, hkey,
      append_cons_inj_of_notMem hnot.2 hnot.1] at hkeys
    have hdisjoint := disjoint_of_nodup_append hnodup
    rw [hkeys.1] at hdisjoint
    have hnil : kept = [] :=
      map_eq_nil_iff.mp (eq_nil_iff_forall_not_mem.mpr fun _ hk => hdisjoint hk hk)
    subst hnil
    have hnil : behind = [] := map_eq_nil_iff.mp hkeys.1
    subst hnil
    exact ⟨rfl, rfl, by simpa using heq⟩
  · rintro ⟨rfl, rfl, rfl⟩
    rfl

/-! ## The pass -/

/-- A pass over a queue without its expired commands has gone past the commands `passed`, has come
to `found`, if there was one to come to, and has left the queue `q`. -/
structure Scanned (s : Session) (now : Time) (passed : List Command) (found : Option Command)
    (q : ControllerQueue) : Prop where
  sorted : Sorted s.queue
  distinct : (s.queue.snapshot.map Command.ticket).Nodup
  visible : (drained s now).queue.visible s.fwMode s.syncMode =
    passed ++ found.toList ++ q.visible s.fwMode s.syncMode
  buffer : ∀ b, (drained s now).queue.buffer b = ofClass b (passed ++ found.toList) ++ q.buffer b
  stuck : ∀ c ∈ passed, mayGoOut s.deliveryContext now c = false
  ready : ∀ c ∈ found, mayGoOut s.deliveryContext now c = true
  done : found = none → q.visible s.fwMode s.syncMode = []

namespace Scanned

variable {s : Session} {now : Time} {passed : List Command} {found : Option Command}
  {q : ControllerQueue}

theorem firstOut_eq (h : Scanned s now passed found q) : firstOut s now = found := by
  have hfind : firstOut s now =
      ((drained s now).queue.visible s.fwMode s.syncMode).find? (mayGoOut s.deliveryContext now) := by
    rw [drained_visible, find?_filter, firstOut]
    congr 1
    funext c
    rw [Bool.eq_iff_iff, decide_eq_true_iff]
    exact ⟨fun hgo => ⟨by simp [unexpired_of_mayGoOut hgo], hgo⟩, And.right⟩
  have hpassed : passed.find? (mayGoOut s.deliveryContext now) = none :=
    find?_eq_none.mpr fun c hc => by simp [h.stuck c hc]
  rw [hfind, h.visible, find?_append, find?_append, hpassed, Option.none_or]
  cases hfound : found with
  | none => rw [h.done hfound]; rfl
  | some cmd => simp [h.ready cmd hfound]

theorem mem_ahead_iff (h : Scanned s now passed found q) {c : Command}
    (hc : c.expired now = false) : c ∈ ahead s now ↔ c ∈ passed := by
  have hahead : passed = (ahead s now).filter fun c => !c.expired now := by
    have hwhile : (fun c : Command => !!c.expired now || !mayGoOut s.deliveryContext now c) =
        fun c => !mayGoOut s.deliveryContext now c := by
      funext c
      cases hgo : mayGoOut s.deliveryContext now c with
      | false => simp
      | true => simp [unexpired_of_mayGoOut hgo]
    rw [ahead, ← hwhile, ← takeWhile_filter, ← drained_visible, h.visible, append_assoc,
      takeWhile_append_of_pos fun c hc => by simp [h.stuck c hc]]
    cases hfound : found with
    | none => simp [h.done hfound]
    | some cmd => simp [h.ready cmd hfound]
  rw [hahead, mem_filter]
  simp [hc]

/-- The commands that the pass has skipped, as the modes do not let them through. -/
def waiting (s : Session) (passed : List Command) : List Command :=
  passed.filter fun c => !allowed s c

theorem mem_buffer (h : Scanned s now passed found q) {b : ControllerQueue.Buffer} {c : Command} :
    c ∈ s.queue.buffer b ∧ c.expired now = false ↔
      (c ∈ passed ∨ c ∈ found) ∧ c.priority.buffer = b ∨ c ∈ q.buffer b := by
  have hmem : c ∈ (drained s now).queue.buffer b ↔ c ∈ s.queue.buffer b ∧ c.expired now = false := by
    rw [drained_buffer, mem_filter, Bool.not_eq_true']
  rw [← hmem, h.buffer, mem_append, ofClass, mem_filter, mem_append, Option.mem_toList,
    decide_eq_true_iff]
  exact Iff.rfl

theorem mem_passed (h : Scanned s now passed found q) {c : Command} (hc : c ∈ passed) :
    c ∈ s.queue.snapshot ∧ c.expired now = false := by
  obtain ⟨hmem, hexpired⟩ := h.mem_buffer.mpr (.inl ⟨.inl hc, rfl⟩)
  exact ⟨ControllerQueue.mem_snapshot.mpr ⟨_, hmem⟩, hexpired⟩

theorem live_of_found (h : Scanned s now passed found q) {c : Command} (hc : c ∈ found) :
    dead s.frameMode now c = false :=
  (mayGoOut_iff.mp (h.ready c hc)).1

/-- What is live and was passed has to wait. -/
theorem not_allowed_of_passed (h : Scanned s now passed found q) {c : Command} (hc : c ∈ passed)
    (hlive : dead s.frameMode now c = false) : allowed s c = false := by
  refine Bool.eq_false_iff.mpr fun hallowed => ?_
  cases (h.stuck c hc).symm.trans (mayGoOut_iff.mpr ⟨hlive, hallowed⟩)

/-- The parts of a class are different commands. -/
theorem nodup_class (h : Scanned s now passed found q) (b : ControllerQueue.Buffer) :
    ((ofClass b passed ++ ofClass b found.toList ++ q.buffer b).map Command.ticket).Nodup := by
  rw [← ofClass_append, ← h.buffer b, drained_buffer, ← ofClass_snapshot h.sorted b]
  exact h.distinct.sublist ((filter_sublist.trans filter_sublist).map _)

theorem not_mem_behind (h : Scanned s now passed found q) {c : Command}
    (hc : c ∈ passed ∨ c ∈ found) : c ∉ q.buffer c.priority.buffer := by
  intro hbehind
  have hnodup := (h.nodup_class c.priority.buffer).of_map
  refine disjoint_of_nodup_append hnodup (a := c) ?_ hbehind
  rw [← ofClass_append, ofClass, mem_filter]
  exact ⟨by simpa using hc, by simp⟩

/-- Dead commands are reached exactly if no command that has to wait is dead, and none that is
left behind. -/
theorem reached_iff (h : Scanned s now passed found q) :
    (∀ cmd ∈ s.queue.snapshot, dead s.frameMode now cmd = true →
      cmd.expired now = true ∨ allowed s cmd = true ∧ cmd ∈ ahead s now) ↔
      (∀ c ∈ waiting s passed, dead s.frameMode now c = false) ∧
        ∀ b, ∀ c ∈ q.buffer b, dead s.frameMode now c = false := by
  constructor
  · intro hreached
    refine ⟨fun c hc => ?_, fun b c hc => ?_⟩
    · obtain ⟨hpassed, hwaits⟩ := mem_filter.mp hc
      obtain ⟨hmem, hexpired⟩ := h.mem_passed hpassed
      refine Bool.eq_false_iff.mpr fun hdead => ?_
      rcases hreached c hmem hdead with hexp | ⟨hallowed, -⟩
      · cases hexp.symm.trans hexpired
      · simp [hallowed] at hwaits
    · obtain ⟨hmem, hexpired⟩ := h.mem_buffer.mpr (.inr hc)
      have hclass : c.priority.buffer = b := h.sorted b c hmem
      refine Bool.eq_false_iff.mpr fun hdead => ?_
      rcases hreached c (ControllerQueue.mem_snapshot.mpr ⟨b, hmem⟩) hdead with hexp | ⟨-, hahead⟩
      · cases hexp.symm.trans hexpired
      · exact h.not_mem_behind (.inl ((h.mem_ahead_iff hexpired).mp hahead)) (hclass ▸ hc)
  · rintro ⟨hwaiting, hbehind⟩ c hc hdead
    cases hexpired : c.expired now with
    | true => exact .inl rfl
    | false =>
        obtain ⟨b, hmem⟩ := ControllerQueue.mem_snapshot.mp hc
        rcases h.mem_buffer.mp ⟨hmem, hexpired⟩ with ⟨hpassed | hfound, -⟩ | hleft
        · refine .inr ⟨?_, (h.mem_ahead_iff hexpired).mpr hpassed⟩
          by_contra hbarred
          have hwaits : c ∈ waiting s passed := mem_filter.mpr ⟨hpassed, by simp [hbarred]⟩
          cases hdead.symm.trans (hwaiting c hwaits)
        · cases hdead.symm.trans (h.live_of_found hfound)
        · cases hdead.symm.trans (hbehind b c hleft)

/-- The command that may go out is alone in its class exactly if none of the class has to wait and
none is left behind. -/
theorem alone_iff (h : Scanned s now passed found q) {f : Command} (hf : f ∈ found)
    (hwaiting : ∀ c ∈ waiting s passed, dead s.frameMode now c = false)
    (hbehind : ∀ c ∈ q.buffer f.priority.buffer, dead s.frameMode now c = false) :
    (∀ c ∈ s.queue.buffer f.priority.buffer, dead s.frameMode now c = false → c = f) ↔
      ofClass f.priority.buffer (waiting s passed) = [] ∧ q.buffer f.priority.buffer = [] := by
  constructor
  · intro halone
    constructor
    · refine filter_eq_nil_iff.mpr fun c hc hclass => ?_
      obtain ⟨hpassed, -⟩ := mem_filter.mp hc
      have hmem := (h.mem_buffer.mpr (.inl ⟨.inl hpassed, of_decide_eq_true hclass⟩)).1
      cases halone c hmem (hwaiting c hc)
      cases (h.stuck f hpassed).symm.trans (h.ready f hf)
    · refine eq_nil_iff_forall_not_mem.mpr fun c hc => ?_
      cases halone c (h.mem_buffer.mpr (.inr hc)).1 (hbehind c hc)
      exact h.not_mem_behind (.inr hf) hc
  · rintro ⟨hnone, hnil⟩ c hc hlive
    have hexpired : c.expired now = false := by
      simp only [dead, Bool.or_eq_false_iff] at hlive
      exact hlive.1.1
    rcases h.mem_buffer.mp ⟨hc, hexpired⟩ with ⟨hpassed | hfound, hclass⟩ | hleft
    · have hbarred := h.not_allowed_of_passed hpassed hlive
      have hwaits : c ∈ waiting s passed := mem_filter.mpr ⟨hpassed, by simp [hbarred]⟩
      exact absurd (decide_eq_true hclass) (filter_eq_nil_iff.mp hnone c hwaits)
    · exact Option.some.inj (hfound.symm.trans hf)
    · rw [hnil] at hleft
      cases hleft

/-- Where all dead commands are reached, all that waste a number are passed. -/
theorem countP_wastes (h : Scanned s now passed found q)
    (hreached : ∀ cmd ∈ s.queue.snapshot, dead s.frameMode now cmd = true →
      cmd.expired now = true ∨ allowed s cmd = true ∧ cmd ∈ ahead s now) :
    s.queue.snapshot.countP (wastesNumber s.frameMode now) =
      passed.countP fun c => allowed s c && wastesNumber s.frameMode now c := by
  have hsub : passed <+ s.queue.snapshot := by
    have hvisible : passed <+ (drained s now).queue.visible s.fwMode s.syncMode := by
      rw [h.visible, append_assoc]
      exact sublist_append_left _ _
    rw [drained_visible] at hvisible
    exact (hvisible.trans filter_sublist).trans (visible_sublist ..)
  have hnodup := h.distinct.of_map
  rw [countP_eq_length_filter, countP_eq_length_filter]
  refine Perm.length_eq ((perm_ext_iff_of_nodup (hnodup.filter _) ((hnodup.sublist hsub).filter _)).mpr
    fun c => ?_)
  rw [mem_filter, mem_filter, Bool.and_eq_true]
  constructor
  · rintro ⟨hmem, hwastes⟩
    obtain ⟨hdead, hexpired⟩ := dead_of_wastesNumber hwastes
    rcases hreached c hmem hdead with hexp | ⟨hallowed, hahead⟩
    · cases hexp.symm.trans hexpired
    · exact ⟨(h.mem_ahead_iff hexpired).mp hahead, hallowed, hwastes⟩
  · rintro ⟨hpassed, -, hwastes⟩
    exact ⟨(h.mem_passed hpassed).1, hwastes⟩

theorem filter_drained_live (s : Session) (now : Time) (b : ControllerQueue.Buffer) :
    (s.queue.buffer b).filter (fun c => !dead s.frameMode now c) =
      ((drained s now).queue.buffer b).filter fun c => !dead s.frameMode now c := by
  rw [drained_buffer, filter_filter]
  refine filter_congr fun c _ => ?_
  cases hexpired : c.expired now with
  | false => simp
  | true => simp [dead, hexpired]

theorem filter_passed_live (h : Scanned s now passed found q) (b : ControllerQueue.Buffer) :
    (ofClass b passed).filter (fun c => !dead s.frameMode now c) =
      (ofClass b (waiting s passed)).filter fun c => !dead s.frameMode now c := by
  have hcomm : ofClass b (waiting s passed) = (ofClass b passed).filter fun c => !allowed s c :=
    filter_comm _ _ _
  rw [hcomm, filter_filter]
  refine filter_congr fun c hc => ?_
  cases hlive : dead s.frameMode now c with
  | true => simp
  | false => simp [h.not_allowed_of_passed (mem_filter.mp hc).1 hlive]

/-- Putting back changes nothing in a class that the command that did not fit does not belong to. -/
theorem putBack_of_ne (h : Scanned s now passed found q) {b : ControllerQueue.Buffer}
    (hb : ∀ f ∈ found, f.priority.buffer ≠ b) :
    q.buffer b ++ ofClass b (waiting s passed) = ofClass b (waiting s passed) ++ q.buffer b := by
  have hsorted : Sorted (drained s now).queue := h.sorted.drained now
  have hbehind : Sorted q := hsorted.of_subset fun b c hc => by
    rw [h.buffer b]
    exact mem_append_right _ hc
  rcases class_before_or_behind hsorted hbehind h.visible h.done hb with hnil | hnil
  · have hnone : ofClass b (waiting s passed) = [] := by
      rw [ofClass, waiting, filter_comm, ← ofClass, hnil]
      rfl
    rw [hnone, append_nil, nil_append]
  · rw [hnil, append_nil, nil_append]

/-- What the pass leaves in a class, against what should be left. -/
theorem buffer_iff (h : Scanned s now passed found q) (b : ControllerQueue.Buffer) :
    q.buffer b ++ ofClass b ((found.map Command.unnumbered).toList ++ waiting s passed) =
        (s.queue.buffer b).filter (fun c => !dead s.frameMode now c) ↔
      (∀ c ∈ ofClass b (waiting s passed), dead s.frameMode now c = false) ∧
        (∀ c ∈ q.buffer b, dead s.frameMode now c = false) ∧
        ∀ f ∈ found, f.priority.buffer = b →
          ofClass b (waiting s passed) = [] ∧ q.buffer b = [] ∧ f.retrySeq = 0 := by
  have hlive : ∀ c ∈ ofClass b found.toList, (!dead s.frameMode now c) = true := fun c hc => by
    simp [h.live_of_found (Option.mem_toList.mp (mem_filter.mp hc).1)]
  have hlength : (ofClass b (found.map Command.unnumbered).toList).length =
      (ofClass b found.toList).length := by
    have hmap : (found.map Command.unnumbered).toList = found.toList.map Command.unnumbered := by
      cases found <;> rfl
    rw [hmap, ofClass_map_unnumbered, length_map]
  rw [filter_drained_live, h.buffer b, ofClass_append, ofClass_append,
    swapped_eq_filter_iff hlength hlive (h.filter_passed_live b)]
  simp only [Bool.not_eq_true']
  refine and_congr_right fun _ => and_congr_right fun _ => ?_
  by_cases hb : ∀ f ∈ found, f.priority.buffer ≠ b
  · have hnil : ofClass b found.toList = [] :=
      filter_eq_nil_iff.mpr fun f hf hclass =>
        hb f (Option.mem_toList.mp hf) (of_decide_eq_true hclass)
    have hnil' : ofClass b (found.map Command.unnumbered).toList = [] :=
      length_eq_zero_iff.mp (by rw [hlength, hnil]; rfl)
    rw [hnil, hnil', nil_append, nil_append]
    exact iff_of_true (h.putBack_of_ne hb) fun f hf hclass => absurd hclass (hb f hf)
  · push Not at hb
    obtain ⟨f, hf, rfl⟩ := hb
    have hfound : found = some f := hf
    subst hfound
    have hone : ofClass f.priority.buffer (some f).toList = [f] := by simp [ofClass]
    have hone' : ofClass f.priority.buffer ((some f).map Command.unnumbered).toList =
        [f.unnumbered] := by simp [ofClass, Command.unnumbered]
    have hnodup := h.nodup_class f.priority.buffer
    rw [hone, append_assoc, singleton_append] at hnodup
    have hsub : ofClass f.priority.buffer (waiting s passed) <+ ofClass f.priority.buffer passed :=
      filter_sublist.filter _
    have hnodup := hnodup.sublist ((hsub.append (Sublist.refl _)).map Command.ticket)
    have hticket : f.unnumbered.ticket = f.ticket := rfl
    rw [hone, hone', singleton_append, singleton_append, swapped_eq_iff hticket hnodup]
    have hseq : f.unnumbered = f ↔ f.retrySeq = 0 := by
      rw [Command.unnumbered]
      exact ⟨fun heq => congrArg Command.retrySeq heq.symm, fun hzero => by rw [← hzero]⟩
    rw [hseq]
    simp

/-- The pass leaves all buffers as they should be. -/
theorem buffers_iff (h : Scanned s now passed found q) :
    (∀ b, q.buffer b ++ ofClass b ((found.map Command.unnumbered).toList ++ waiting s passed) =
        (s.queue.buffer b).filter fun c => !dead s.frameMode now c) ↔
      (∀ cmd ∈ s.queue.snapshot, dead s.frameMode now cmd = true →
        cmd.expired now = true ∨ allowed s cmd = true ∧ cmd ∈ ahead s now) ∧
      ∀ f ∈ found, f.retrySeq = 0 ∧
        ∀ c ∈ s.queue.buffer f.priority.buffer, dead s.frameMode now c = false → c = f := by
  rw [h.reached_iff]
  constructor
  · intro hall
    have hparts := fun b => (h.buffer_iff b).mp (hall b)
    have hwaiting : ∀ c ∈ waiting s passed, dead s.frameMode now c = false := fun c hc =>
      (hparts c.priority.buffer).1 c (mem_filter.mpr ⟨hc, by simp⟩)
    refine ⟨⟨hwaiting, fun b => (hparts b).2.1⟩, fun f hf => ?_⟩
    obtain ⟨-, hbehind, hfound⟩ := hparts f.priority.buffer
    obtain ⟨hnone, hnil, hseq⟩ := hfound f hf rfl
    exact ⟨hseq, (h.alone_iff hf hwaiting hbehind).mpr ⟨hnone, hnil⟩⟩
  · rintro ⟨⟨hwaiting, hbehind⟩, hfound⟩ b
    refine (h.buffer_iff b).mpr ⟨fun c hc => hwaiting c (mem_filter.mp hc).1, hbehind b, ?_⟩
    rintro f hf rfl
    obtain ⟨hseq, halone⟩ := hfound f hf
    obtain ⟨hnone, hnil⟩ := (h.alone_iff hf hwaiting (hbehind _)).mp halone
    exact ⟨hnone, hnil, hseq⟩

end Scanned

end TcpAdapter.Delivery
