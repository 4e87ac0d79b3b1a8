import TcpAdapter.Model.Server.Metrics

/-! # Labels of acknowledgement counters

A key is built without escaping and taken apart at its commas. So the reason comes back exactly if
it has none. -/

namespace TcpAdapter.Server

open TcpAdapter.Codec TcpAdapter.Protocol

/-! ## Reading a key -/

section keys

variable {name value part : List UInt8} {out : Labels}

theorem idxOf?_equals (h : 0x3D ∉ name) :
    (name ++ 0x3D :: value).idxOf? 0x3D = some name.length := by
  induction name with
  | nil => rfl
  | cons b name ih =>
      have hb : (b == 0x3D) = false := beq_false_of_ne fun hb => h (hb ▸ List.mem_cons_self)
      rw [List.cons_append, List.idxOf?_cons, hb, ih (List.not_mem_of_not_mem_cons h)]
      rfl

theorem read_equals (h : 0x3D ∉ name) :
    out.read (name ++ 0x3D :: value) = Function.update out name (some value) := by
  rw [Labels.read, idxOf?_equals h]
  simp

theorem not_mem_assigned (hname : 0x2C ∉ name) (hvalue : 0x2C ∉ value) :
    0x2C ∉ name ++ 0x3D :: value := by
  simp [hname, hvalue]

/-- No value has a comma. -/
def Labels.CommaFree (out : Labels) : Prop :=
  ∀ k v, out k = some v → 0x2C ∉ v

theorem Labels.CommaFree.update (h : out.CommaFree) (hvalue : 0x2C ∉ value) :
    Labels.CommaFree (Function.update out name (some value)) := by
  intro k v hv
  by_cases hk : k = name
  · subst hk
    rw [Function.update_self] at hv
    rwa [← Option.some.inj hv]
  · rw [Function.update_of_ne hk] at hv
    exact h k v hv

theorem Labels.CommaFree.read (h : out.CommaFree) (hpart : 0x2C ∉ part) :
    (out.read part).CommaFree := by
  unfold Labels.read
  cases part.idxOf? 0x3D with
  | none => exact h
  | some i => exact h.update fun hmem => hpart (List.mem_of_mem_drop hmem)

theorem parse_commaFree (key : List UInt8) : (parseAckTerminalReasonKey key).CommaFree := by
  have hparts : ∀ part ∈ key.splitOn 0x2C, 0x2C ∉ part := fun _ => not_mem_of_mem_splitOn
  have hinitial : (Labels.pair [] []).CommaFree := by
    refine Labels.CommaFree.update (Labels.CommaFree.update ?_ List.not_mem_nil) List.not_mem_nil
    intro k v hv
    cases hv
  rw [parseAckTerminalReasonKey]
  generalize key.splitOn 0x2C = parts at hparts
  generalize Labels.pair [] [] = out at hinitial
  induction parts generalizing out with
  | nil => exact hinitial
  | cons part parts ih =>
      exact ih (fun p hp => hparts p (List.mem_cons_of_mem part hp)) _
        (hinitial.read (hparts part List.mem_cons_self))

end keys

/-! ## The key of an outcome -/

section outcomes

variable {lower : ℕ → ℕ} {status : AckStatus} {reason : List UInt8}

theorem statusText_commaFree (status : AckStatus) : 0x2C ∉ statusText status := by
  cases status <;> decide

theorem ackTerminalReasonKey_eq :
    ackTerminalReasonKey lower status reason =
      (ascii "status" ++ 0x3D :: statusText status) ++
        0x2C :: (ascii "reason" ++ 0x3D :: normalizeReasonLabel lower reason) := by
  have hstatus : ascii "status=" = ascii "status" ++ [0x3D] := by decide
  have hreason : ascii ",reason=" = 0x2C :: (ascii "reason" ++ [0x3D]) := by decide
  rw [ackTerminalReasonKey, hstatus, hreason]
  simp

theorem pair_update (status reason status' reason' : List UInt8) :
    Function.update (Function.update (Labels.pair status' reason') (ascii "status") (some status))
      (ascii "reason") (some reason) = Labels.pair status reason := by
  have hne : ascii "status" ≠ ascii "reason" := by decide
  rw [Labels.pair, Function.update_comm hne, Function.update_idem, Function.update_comm hne.symm,
    Function.update_idem]
  rfl

theorem parse_key_iff :
    parseAckTerminalReasonKey (ackTerminalReasonKey lower status reason) =
        .pair (statusText status) (normalizeReasonLabel lower reason) ↔
      0x2C ∉ normalizeReasonLabel lower reason := by
  constructor
  · intro h
    refine parse_commaFree (ackTerminalReasonKey lower status reason) (ascii "reason") _ ?_
    rw [h, Labels.pair, Function.update_self]
  · intro h
    have hstatus : 0x2C ∉ ascii "status" ++ 0x3D :: statusText status :=
      not_mem_assigned (by decide) (statusText_commaFree status)
    have hreason : 0x2C ∉ ascii "reason" ++ 0x3D :: normalizeReasonLabel lower reason :=
      not_mem_assigned (by decide) h
    rw [parseAckTerminalReasonKey, ackTerminalReasonKey_eq, splitOn_append_cons,
      List.splitOn_eq_singleton hstatus, List.splitOn_eq_singleton hreason]
    have hnames : 0x3D ∉ ascii "status" ∧ 0x3D ∉ ascii "reason" := by decide
    rw [List.singleton_append, List.foldl_cons, List.foldl_cons, List.foldl_nil,
      read_equals hnames.1, read_equals hnames.2, pair_update]

end outcomes

/-! ## What is exported -/

/-- The counters after events with a status and a reason. -/
def countAcks (lower : ℕ → ℕ) (events : List (AckStatus × List UInt8)) : AckCounters :=
  events.foldl (fun m e => m.publishAck lower e.1 e.2) {}

/-- The label sets of the exported lines. -/
def AckCounters.labelSets (m : AckCounters) : List (List UInt8 × List UInt8) :=
  m.terminalSeries.map fun s => (s.status, s.reason)

section exported

variable {lower : ℕ → ℕ} {m : AckCounters} {events : List (AckStatus × List UInt8)}

theorem mem_publishAck {status : AckStatus} {reason key : List UInt8} :
    key ∈ (m.publishAck lower status reason).ackTerminalReasonStats ↔
      key ∈ m.ackTerminalReasonStats ∨
        (isTerminalAckStatus status = true ∧ key = ackTerminalReasonKey lower status reason) := by
  rw [AckCounters.publishAck]
  by_cases hterminal : isTerminalAckStatus status = true
  · simp [hterminal, or_comm]
  · simp [hterminal]

theorem mem_countAcks {key : List UInt8} :
    key ∈ (countAcks lower events).ackTerminalReasonStats ↔
      ∃ e ∈ events, isTerminalAckStatus e.1 = true ∧ key = ackTerminalReasonKey lower e.1 e.2 := by
  have hfold : ∀ m : AckCounters,
      key ∈ (events.foldl (fun m e => m.publishAck lower e.1 e.2) m).ackTerminalReasonStats ↔
        key ∈ m.ackTerminalReasonStats ∨
          ∃ e ∈ events, isTerminalAckStatus e.1 = true ∧
            key = ackTerminalReasonKey lower e.1 e.2 := by
    induction events with
    | nil => simp
    | cons e events ih =>
        intro m
        rw [List.foldl_cons, ih, mem_publishAck, or_assoc]
        simp only [List.mem_cons, or_and_right, exists_or, exists_eq_left]
  rw [countAcks, hfold]
  simp

/-- The labels of a key as they are exported. -/
def labelsOf (key : List UInt8) : List UInt8 × List UInt8 :=
  let labels := parseAckTerminalReasonKey key
  ((labels (ascii "status")).getD [], (labels (ascii "reason")).getD [])

theorem labelSets_perm : m.labelSets.Perm (m.ackTerminalReasonStats.keys.map labelsOf) := by
  rw [AckCounters.labelSets, AckCounters.terminalSeries, List.map_map]
  exact (List.mergeSort_perm _ _).map labelsOf

theorem mem_labelSets {pair : List UInt8 × List UInt8} :
    pair ∈ (countAcks lower events).labelSets ↔
      ∃ e ∈ events, isTerminalAckStatus e.1 = true ∧
        pair = labelsOf (ackTerminalReasonKey lower e.1 e.2) := by
  rw [labelSets_perm.mem_iff, List.mem_map]
  constructor
  · rintro ⟨key, hkey, rfl⟩
    obtain ⟨e, he, hterminal, rfl⟩ := mem_countAcks.mp (AList.mem_keys.mpr hkey)
    exact ⟨e, he, hterminal, rfl⟩
  · rintro ⟨e, he, hterminal, rfl⟩
    exact ⟨_, AList.mem_keys.mp (mem_countAcks.mpr ⟨e, he, hterminal, rfl⟩), rfl⟩

theorem labelsOf_key {status : AckStatus} {reason : List UInt8}
    (h : 0x2C ∉ normalizeReasonLabel lower reason) :
    labelsOf (ackTerminalReasonKey lower status reason) =
      (statusText status, normalizeReasonLabel lower reason) := by
  have hne : ascii "status" ≠ ascii "reason" := by decide
  rw [labelsOf, parse_key_iff.mpr h]
  simp [Labels.pair, hne]

theorem labelsOf_commaFree (key : List UInt8) : 0x2C ∉ (labelsOf key).2 := by
  rw [labelsOf]
  cases h : parseAckTerminalReasonKey key (ascii "reason") with
  | none => exact List.not_mem_nil
  | some v => exact parse_commaFree key _ v h

/-- The reason of a terminal status comes back from its key exactly if its normal form has no
comma. The exported label sets are those of the outcomes, each of them once, exactly if this is so
for all outcomes. -/
theorem terminal_labels_iff (lower : ℕ → ℕ) :
    (∀ status reason, isTerminalAckStatus status = true →
      (parseAckTerminalReasonKey (ackTerminalReasonKey lower status reason) =
          .pair (statusText status) (normalizeReasonLabel lower reason) ↔
        0x2C ∉ normalizeReasonLabel lower reason)) ∧
    ∀ events : List (AckStatus × List UInt8),
      ((countAcks lower events).labelSets.Nodup ∧
        ∀ pair, pair ∈ (countAcks lower events).labelSets ↔
          ∃ e ∈ events, isTerminalAckStatus e.1 = true ∧
            pair = (statusText e.1, normalizeReasonLabel lower e.2)) ↔
      ∀ e ∈ events, isTerminalAckStatus e.1 = true → 0x2C ∉ normalizeReasonLabel lower e.2 := by
  refine ⟨fun _ _ _ => parse_key_iff, fun events => ⟨?_, fun hfree => ⟨?_, fun pair => ?_⟩⟩⟩
  · rintro ⟨-, hmem⟩ e he hterminal
    obtain ⟨e', -, -, heq⟩ := mem_labelSets.mp ((hmem _).mpr ⟨e, he, hterminal, rfl⟩)
    have hreason := congrArg Prod.snd heq
    dsimp only at hreason
    rw [hreason]
    exact labelsOf_commaFree _
  · rw [labelSets_perm.nodup_iff]
    refine (AList.keys_nodup _).map_on fun key hkey key' hkey' heq => ?_
    obtain ⟨e, he, hterminal, rfl⟩ := mem_countAcks.mp (AList.mem_keys.mpr hkey)
    obtain ⟨e', he', hterminal', rfl⟩ := mem_countAcks.mp (AList.mem_keys.mpr hkey')
    rw [labelsOf_key (hfree e he hterminal), labelsOf_key (hfree e' he' hterminal')] at heq
    obtain ⟨hstatus, hreason⟩ := Prod.mk.inj heq
    rw [ackTerminalReasonKey, ackTerminalReasonKey, hstatus, hreason]
  · rw [mem_labelSets]
    constructor
    · rintro ⟨e, he, hterminal, rfl⟩
      exact ⟨e, he, hterminal, labelsOf_key (hfree e he hterminal)⟩
    · rintro ⟨e, he, hterminal, rfl⟩
      exact ⟨e, he, hterminal, (labelsOf_key (hfree e he hterminal)).symm⟩

end exported

/-- Two reasons that differ behind a comma are exported under one label set. -/
theorem comma_reasons_collide :
    normalizeReasonLabel id (ascii "a,b") ≠ normalizeReasonLabel id (ascii "a,c") ∧
      (countAcks id [(.failed, ascii "a,b"), (.failed, ascii "a,c")]).labelSets =
        [(ascii "failed", ascii "a"), (ascii "failed", ascii "a")] := by
  refine ⟨by decide, ?_⟩
  have hkeys : (countAcks id [(.failed, ascii "a,b"), (.failed, ascii "a,c")]
      ).ackTerminalReasonStats.keys.map labelsOf =
        List.replicate 2 (ascii "failed", ascii "a") := by decide
  exact List.perm_replicate.mp (hkeys ▸ labelSets_perm)

end TcpAdapter.Server
