import Mathlib.Data.List.Forall2
import TcpAdapter.Model.Server.Builder

/-! # Lists of holidays

The parser should accept a list exactly if every part of it is a number. But the scanner reads the
digits in front of a part and forgets the rest. -/

namespace TcpAdapter.Server

open TcpAdapter.Codec TcpAdapter.Protocol

/-- The parts that stand for days. -/
def dayParts (s : List UInt8) : List (List UInt8) :=
  ((s.splitOn 0x2C).map Codec.trimSpace).filter (· ≠ [])

/-- The part is a decimal number of 32 bits, with or without a plus sign, and nothing else. -/
def IsNumeral (part : List UInt8) (v : UInt32) : Prop :=
  ∃ digits, (part = digits ∨ part = 0x2B :: digits) ∧ digits ≠ [] ∧
    (∀ b ∈ digits, isDecimal b = true) ∧ decimalValue digits = v.toNat

/-- What the scanner does not read. -/
def Fmt.unread (fmt : Fmt) (part : List UInt8) : List UInt8 :=
  (fmt.skipPlus part).dropWhile isDecimal

section

variable {fmt : Fmt} {part : List UInt8} {v : UInt32}

/-! ## One part -/

theorem scanUint32_eq_some :
    fmt.scanUint32 part = some v ↔
      (fmt.skipPlus part).takeWhile isDecimal ≠ [] ∧
        decimalValue ((fmt.skipPlus part).takeWhile isDecimal) = v.toNat := by
  rw [Fmt.scanUint32]
  generalize (fmt.skipPlus part).takeWhile isDecimal = digits
  by_cases hnil : digits = []
  · simp [hnil]
  · by_cases hlt : decimalValue digits < 2 ^ 32
    · rw [if_neg hnil, if_pos hlt, Option.some.injEq, ← UInt32.toNat_inj,
        UInt32.toNat_ofNat_of_lt' hlt]
      exact ⟨fun h => ⟨hnil, h⟩, fun h => h.2⟩
    · rw [if_neg hnil, if_neg hlt]
      refine iff_of_false (by simp) fun h => hlt ?_
      rw [h.2]
      exact v.toNat_lt

theorem skipPlus_of_head (h : fmt.acceptsPlus = false ∨ part.head? ≠ some 0x2B) :
    fmt.skipPlus part = part := by
  rw [Fmt.skipPlus, if_neg]
  rintro ⟨hplus, hhead⟩
  obtain hno | hne := h
  · rw [hno] at hplus
    cases hplus
  · exact hne hhead

/-- A part that is read to its end is a numeral. -/
theorem isNumeral_of_scan (h : fmt.scanUint32 part = some v) (hunread : fmt.unread part = []) :
    IsNumeral part v := by
  obtain ⟨hne, hvalue⟩ := scanUint32_eq_some.mp h
  have hall : (fmt.skipPlus part).takeWhile isDecimal = fmt.skipPlus part := by
    have happend : (fmt.skipPlus part).takeWhile isDecimal ++ fmt.unread part = fmt.skipPlus part :=
      List.takeWhile_append_dropWhile
    rwa [hunread, List.append_nil] at happend
  rw [hall] at hne hvalue
  refine ⟨fmt.skipPlus part, ?_, hne, List.takeWhile_eq_self_iff.mp hall, hvalue⟩
  rw [Fmt.skipPlus]
  split
  next hplus =>
      refine .inr ?_
      cases part with
      | nil => cases hplus.2
      | cons b rest => rw [Option.some.inj hplus.2, List.tail_cons]
  next => exact .inl rfl

/-- The scanner reads a numeral to its end, unless it stops at the plus sign. -/
theorem scan_of_isNumeral (h : IsNumeral part v)
    (hplus : fmt.acceptsPlus = true ∨ part.head? ≠ some 0x2B) :
    fmt.scanUint32 part = some v ∧ fmt.unread part = [] := by
  obtain ⟨digits, hpart, hne, hall, hvalue⟩ := h
  have hskip : fmt.skipPlus part = digits := by
    obtain rfl | rfl := hpart
    · refine skipPlus_of_head (.inr fun hhead => ?_)
      exact absurd (hall 0x2B (List.mem_of_head? hhead)) (by decide)
    · obtain hplus | hne := hplus
      · exact if_pos ⟨hplus, rfl⟩
      · exact absurd rfl hne
  have htake : digits.takeWhile isDecimal = digits := List.takeWhile_eq_self_iff.mpr hall
  rw [scanUint32_eq_some, Fmt.unread, hskip, htake]
  exact ⟨⟨hne, hvalue⟩, List.dropWhile_eq_nil_iff.mpr hall⟩

theorem scan_plus (hno : fmt.acceptsPlus = false) (hhead : part.head? = some 0x2B) :
    fmt.scanUint32 part = none := by
  cases part with
  | nil => cases hhead
  | cons b rest =>
      obtain rfl : b = 0x2B := Option.some.inj hhead
      rw [Fmt.scanUint32, skipPlus_of_head (.inl hno)]
      rfl

/-- A numeral that the scanner accepts is read to its end. -/
theorem unread_of_isNumeral {v' : UInt32} (h : IsNumeral part v)
    (hscan : fmt.scanUint32 part = some v') : fmt.unread part = [] := by
  cases hplus : fmt.acceptsPlus with
  | true => exact (scan_of_isNumeral h (.inl hplus)).2
  | false =>
      refine (scan_of_isNumeral h (.inr fun hhead => ?_)).2
      rw [scan_plus hplus hhead] at hscan
      cases hscan

/-! ## All parts -/

theorem parseParts_eq_ok {parts : List (List UInt8)} {done out : List UInt32} :
    parseParts fmt parts done = .ok out ↔
      ∃ days, out = done ++ days ∧ List.Forall₂ (fun part v => fmt.scanUint32 part = some v)
        ((parts.map Codec.trimSpace).filter (· ≠ [])) days := by
  induction parts generalizing done with
  | nil =>
      constructor
      · intro h
        exact ⟨[], by simpa using (Except.ok.inj h).symm, .nil⟩
      · rintro ⟨days, rfl, hdays⟩
        cases hdays
        rw [List.append_nil, parseParts]
  | cons part parts ih =>
      rw [parseParts, List.map_cons]
      by_cases hnil : Codec.trimSpace part = []
      · rw [List.filter_cons_of_neg (by simp [hnil])]
        simp only [hnil, if_true]
        exact ih
      · rw [List.filter_cons_of_pos (by simp [hnil])]
        simp only [hnil, if_false]
        cases hscan : fmt.scanUint32 (Codec.trimSpace part) with
        | none =>
            refine iff_of_false (by simp) ?_
            rintro ⟨days, -, hdays⟩
            cases hdays with
            | cons hv _ =>
                rw [hscan] at hv
                cases hv
        | some value =>
            rw [ih]
            constructor
            · rintro ⟨days, rfl, hdays⟩
              exact ⟨value :: days, by simp, .cons hscan hdays⟩
            · rintro ⟨days, rfl, hdays⟩
              cases hdays with
              | cons hv hdays =>
                  obtain rfl : value = _ := Option.some.inj (hscan.symm.trans hv)
                  exact ⟨_, by simp, hdays⟩

theorem parseUint32CSV_eq_ok {s : List UInt8} {out : List UInt32} :
    parseUint32CSV fmt s = .ok out ↔
      dayParts s ≠ [] ∧
        List.Forall₂ (fun part v => fmt.scanUint32 part = some v) (dayParts s) out := by
  have hparts : ((Codec.trimSpace s).splitOn 0x2C).map Codec.trimSpace =
      (s.splitOn 0x2C).map Codec.trimSpace :=
    map_trimFunc_splitOn (by decide) (by decide) s
  have hok : ∀ days, parseParts fmt ((Codec.trimSpace s).splitOn 0x2C) [] = .ok days ↔
      List.Forall₂ (fun part v => fmt.scanUint32 part = some v) (dayParts s) days := by
    intro days
    rw [parseParts_eq_ok, hparts, dayParts]
    simp
  have hempty : ∀ days,
      List.Forall₂ (fun part v => fmt.scanUint32 part = some v) (dayParts s) days →
        (days.length = 0 ↔ dayParts s = []) := by
    intro days hdays
    rw [← hdays.length_eq, List.length_eq_zero_iff]
  rw [parseUint32CSV]
  cases hparse : parseParts fmt ((Codec.trimSpace s).splitOn 0x2C) [] with
  | error err =>
      refine iff_of_false (by simp) fun h => ?_
      rw [(hok out).mpr h.2] at hparse
      cases hparse
  | ok days =>
      have hdays := (hok days).mp hparse
      dsimp only
      by_cases hnil : days.length = 0
      · rw [if_pos hnil]
        exact iff_of_false (by simp) fun h => h.1 ((hempty days hdays).mp hnil)
      · rw [if_neg hnil]
        have hne := mt (hempty days hdays).mpr hnil
        constructor
        · intro h
          obtain rfl := Except.ok.inj h
          exact ⟨hne, hdays⟩
        · rintro ⟨-, hout⟩
          rw [← hparse, (hok out).mpr hout]

section lists

variable {α β : Type} {R : α → β → Prop} {xs : List α} {ys : List β}

theorem exists_forall₂ (h : ∀ x ∈ xs, ∃ y, R x y) : ∃ ys, List.Forall₂ R xs ys := by
  induction xs with
  | nil => exact ⟨[], .nil⟩
  | cons x xs ih =>
      obtain ⟨y, hy⟩ := h x List.mem_cons_self
      obtain ⟨ys, hys⟩ := ih fun x' hx' => h x' (List.mem_cons_of_mem x hx')
      exact ⟨y :: ys, .cons hy hys⟩

theorem exists_of_forall₂ (h : List.Forall₂ R xs ys) : ∀ x ∈ xs, ∃ y, R x y :=
  ((List.forall₂_and_left xs ys).mp (h.imp fun _ y hxy => ⟨⟨y, hxy⟩, hxy⟩)).1

end lists

/-- The parser follows the grammar on a text exactly if the scanner leaves nothing of its parts
unread, and meets no plus sign that it does not accept. -/
theorem parseUint32CSV_exact_iff (fmt : Fmt) (s : List UInt8) :
    (∀ out, parseUint32CSV fmt s = .ok out ↔
      dayParts s ≠ [] ∧ List.Forall₂ IsNumeral (dayParts s) out) ↔
    ((∀ part ∈ dayParts s, (fmt.scanUint32 part).isSome) →
      ∀ part ∈ dayParts s, fmt.unread part = []) ∧
    (fmt.acceptsPlus = true ∨ ((∀ part ∈ dayParts s, ∃ v, IsNumeral part v) →
      ∀ part ∈ dayParts s, part.head? ≠ some 0x2B)) := by
  constructor
  · intro hexact
    constructor
    · intro hscans part hpart
      obtain ⟨out, hout⟩ := exists_forall₂ fun part hpart =>
        Option.isSome_iff_exists.mp (hscans part hpart)
      have hne := List.ne_nil_of_mem hpart
      have hnumerals := ((hexact out).mp (parseUint32CSV_eq_ok.mpr ⟨hne, hout⟩)).2
      obtain ⟨v, hscan⟩ := Option.isSome_iff_exists.mp (hscans part hpart)
      obtain ⟨v', hnumeral⟩ := exists_of_forall₂ hnumerals part hpart
      exact unread_of_isNumeral hnumeral hscan
    · cases hplus : fmt.acceptsPlus with
      | true => exact .inl rfl
      | false =>
          refine .inr fun hnumerals part hpart hhead => ?_
          obtain ⟨out, hout⟩ := exists_forall₂ hnumerals
          have hne := List.ne_nil_of_mem hpart
          have hscans := (parseUint32CSV_eq_ok.mp ((hexact out).mpr ⟨hne, hout⟩)).2
          obtain ⟨v, hscan⟩ := exists_of_forall₂ hscans part hpart
          rw [scan_plus hplus hhead] at hscan
          cases hscan
  · rintro ⟨hread, hplus⟩ out
    rw [parseUint32CSV_eq_ok]
    refine and_congr_right fun _ => ⟨fun hscans => ?_, fun hnumerals => ?_⟩
    · have hsome : ∀ part ∈ dayParts s, (fmt.scanUint32 part).isSome := fun part hpart =>
        Option.isSome_iff_exists.mpr (exists_of_forall₂ hscans part hpart)
      have hboth := (List.forall₂_and_left _ _).mpr ⟨hread hsome, hscans⟩
      exact hboth.imp fun part v h => isNumeral_of_scan h.2 h.1
    · have hheads : ∀ part ∈ dayParts s,
          fmt.acceptsPlus = true ∨ part.head? ≠ some 0x2B := by
        intro part hpart
        refine hplus.imp id fun hheads => ?_
        exact hheads (exists_of_forall₂ hnumerals) part hpart
      have hboth := (List.forall₂_and_left _ _).mpr ⟨hheads, hnumerals⟩
      exact hboth.imp fun part v h => (scan_of_isNumeral h.2 h.1).1

end

/-- From the text "5x" the controller gets the day 5, whether or not the scanner accepts signs. -/
theorem trailing_text_dropped :
    parseUint32CSV ⟨true, fun _ => ""⟩ [0x35, 0x78] = .ok [5] ∧
      parseUint32CSV ⟨false, fun _ => ""⟩ [0x35, 0x78] = .ok [5] ∧
        dayParts [0x35, 0x78] = [[0x35, 0x78]] ∧ ¬∃ v, IsNumeral [0x35, 0x78] v := by
  refine ⟨rfl, rfl, by decide, ?_⟩
  rintro ⟨v, digits, hpart, -, hall, -⟩
  obtain rfl | hpart := hpart
  · exact absurd (hall 0x78 (by decide)) (by decide)
  · cases hpart

end TcpAdapter.Server
