import DexConnectors.LibBinary64
import DexConnectors.LibNumberText
import DexConnectors.DurationText
/-!
# DurationGo — `time.ParseDuration`

The durations of a manifest are Go's.  `ParseDuration` reads bytes and counts in 64 bits: a number beyond them is refused, digits of
a fraction beyond them are dropped, and a fraction is multiplied in binary64 and cut to whole nanoseconds.
-/
namespace Dex
namespace Durations
namespace Go

open Lib Lib.Utf8

def leadingInt : Nat → Bytes → Option (Nat × Bytes)
  | x, [] => some (x, [])
  | x, c :: rest =>
    if isDigit c then
      if 2 ^ 63 / 10 < x then none
      else if 2 ^ 63 < x * 10 + (c.toNat - 0x30) then none
      else leadingInt (x * 10 + (c.toNat - 0x30)) rest
    else some (x, c :: rest)

/-- The digits of a fraction: what they are worth, and the power of ten that it is divided by, a `float64`. -/
structure Fraction where
  value    : Nat := 0
  scale    : Rat := 1
  overflow : Bool := false

def Fraction.add (f : Fraction) (c : UInt8) : Fraction :=
  if f.overflow then f
  else if (2 ^ 63 - 1) / 10 < f.value then { f with overflow := true }
  else if 2 ^ 63 < f.value * 10 + (c.toNat - 0x30) then { f with overflow := true }
  else { f with value := f.value * 10 + (c.toNat - 0x30), scale := Binary64.mul f.scale 10 }

def leadingFraction : Fraction → Bytes → Fraction × Bytes
  | f, [] => (f, [])
  | f, c :: rest => if isDigit c then leadingFraction (f.add c) rest else (f, c :: rest)

def unitMap : List (Bytes × Nat) :=
  [(ascii "ns", 1), (ascii "us", 1000), ([0xC2, 0xB5, 0x73], 1000), ([0xCE, 0xBC, 0x73], 1000), (ascii "ms", 1000000),
    (ascii "s", 1000000000), (ascii "m", 60000000000), (ascii "h", 3600000000000)]

def inUnit (c : UInt8) : Bool := !(c == 0x2E || isDigit c)

/-- `v`, after `v *= unit` and the nanoseconds of the fraction. -/
def addFraction (v unit : Nat) (f : Fraction) : Nat :=
  if 0 < f.value then (v + Binary64.trunc (Binary64.mul (Binary64.ofNat f.value) (Binary64.div unit f.scale))) % 2 ^ 64 else v

/-- `d`, after a number, its fraction and its unit; a sum of 2⁶⁴ wraps. -/
def addPart (d v unit : Nat) (f : Fraction) : Option Nat :=
  if 2 ^ 63 / unit < v then none
  else if 2 ^ 63 < addFraction (v * unit) unit f then none
  else if 2 ^ 63 < (d + addFraction (v * unit) unit f) % 2 ^ 64 then none
  else some ((d + addFraction (v * unit) unit f) % 2 ^ 64)

/-- `(\.[0-9]*)?`, and whether it has digits. -/
def optionalFraction : Bytes → Fraction × Bytes × Bool
  | [] => ({}, [], false)
  | c :: rest =>
    if c = 0x2E then
      ((leadingFraction {} rest).1, (leadingFraction {} rest).2, decide ((leadingFraction {} rest).2.length ≠ rest.length))
    else ({}, c :: rest, false)

/-- The loop of `ParseDuration`. -/
def parseParts : Nat → Nat → Bytes → Option Nat
  | 0, _, _ => none
  | _ + 1, d, [] => some d
  | fuel + 1, d, c :: text =>
    if c = 0x2E ∨ isDigit c = true then
      match leadingInt 0 (c :: text) with
      | none => none
      | some (v, afterInt) =>
        let hasInt := decide (afterInt.length ≠ (c :: text).length)
        let (f, afterFraction, hasFraction) := optionalFraction afterInt
        if hasInt = false ∧ hasFraction = false then none
        else if afterFraction.takeWhile inUnit = [] then none
        else
          match unitMap.lookup (afterFraction.takeWhile inUnit) with
          | none => none
          | some unit =>
            match addPart d v unit f with
            | none => none
            | some d => parseParts fuel d (afterFraction.dropWhile inUnit)
    else none

def magnitude (text : Bytes) : Bytes :=
  if text.head? = some 0x2D ∨ text.head? = some 0x2B then text.tail else text

def parseDuration (text : Bytes) : Option Int :=
  if magnitude text = [0x30] then some 0
  else if magnitude text = [] then none
  else
    match parseParts ((magnitude text).length + 1) 0 (magnitude text) with
    | none => none
    | some d =>
      if text.head? = some 0x2D then some (-(d : Int))
      else if 2 ^ 63 - 1 < d then none
      else some d

/-! ## Numbers -/

/-- The number before a point, or before a unit. -/
def wholeValue (digits : Bytes) : Option Nat := (leadingInt 0 digits).map Prod.fst

def fractionValue (digits : Bytes) : Fraction := digits.foldl Fraction.add {}

theorem leadingInt_digits : ∀ {digits rest : Bytes} {x : Nat}, (∀ c ∈ digits, isDigit c = true) →
    (∀ c ∈ rest.head?, isDigit c = false) → leadingInt x (digits ++ rest) = (leadingInt x digits).map (fun r => (r.1, rest))
  | [], [], _, _, _ => rfl
  | [], c :: rest, x, _, hrest => by
    simp only [List.nil_append, leadingInt, hrest c rfl]
    rfl
  | c :: digits, rest, x, hdigits, hrest => by
    have hc := hdigits c List.mem_cons_self
    rw [List.cons_append, leadingInt, leadingInt, if_pos hc, if_pos hc]
    by_cases hlarge : 2 ^ 63 / 10 < x
    · rw [if_pos hlarge, if_pos hlarge]
      rfl
    · rw [if_neg hlarge, if_neg hlarge]
      by_cases hover : 2 ^ 63 < x * 10 + (c.toNat - 0x30)
      · rw [if_pos hover, if_pos hover]
        rfl
      · rw [if_neg hover, if_neg hover]
        exact leadingInt_digits (fun d hd => hdigits d (List.mem_cons_of_mem c hd)) hrest

theorem leadingFraction_digits : ∀ {digits rest : Bytes} {f : Fraction}, (∀ c ∈ digits, isDigit c = true) →
    (∀ c ∈ rest.head?, isDigit c = false) → leadingFraction f (digits ++ rest) = (digits.foldl Fraction.add f, rest)
  | [], [], _, _, _ => rfl
  | [], c :: rest, f, _, hrest => by
    simp only [List.nil_append, leadingFraction, hrest c rfl]
    rfl
  | c :: digits, rest, f, hdigits, hrest => by
    rw [List.cons_append, leadingFraction, if_pos (hdigits c List.mem_cons_self), List.foldl_cons]
    exact leadingFraction_digits (fun d hd => hdigits d (List.mem_cons_of_mem c hd)) hrest

theorem leadingInt_rest : ∀ {text rest : Bytes} {x v : Nat}, leadingInt x text = some (v, rest) → rest = text.dropWhile isDigit
  | [], _, _, _, h => by
    cases h
    rfl
  | c :: text, rest, x, v, h => by
    rw [leadingInt] at h
    split at h
    next hc =>
      rw [List.dropWhile_cons, if_pos hc]
      split at h
      · cases h
      · split at h
        · cases h
        · exact leadingInt_rest h
    next hc =>
      cases h
      rw [List.dropWhile_cons, if_neg hc]

theorem leadingFraction_rest : ∀ (text : Bytes) (f : Fraction), (leadingFraction f text).2 = text.dropWhile isDigit
  | [], _ => rfl
  | c :: text, f => by
    rw [leadingFraction, List.dropWhile_cons]
    split
    · exact leadingFraction_rest text _
    · rfl

/-! ## Parts as bytes -/

def bytesOf (codes : Codes) : Bytes := codes.flatMap Json.encodeRune

theorem bytesOf_append (a b : Codes) : bytesOf (a ++ b) = bytesOf a ++ bytesOf b := List.flatMap_append

theorem bytesOf_codePoints (text : List Char) : bytesOf (Unicode.codePoints text) = Unicode.utf8 text := by
  unfold bytesOf Unicode.codePoints Unicode.utf8
  rw [List.flatMap_map]

theorem bytesOf_ascii : ∀ {codes : Codes}, (∀ c ∈ codes, c < 128) → bytesOf codes = codes.map Nat.toUInt8
  | [], _ => rfl
  | c :: codes, h => by
    have hc : Json.encodeRune c = [c.toUInt8] := by
      unfold Json.encodeRune
      exact if_pos (h c List.mem_cons_self)
    have ih := bytesOf_ascii (fun d hd => h d (List.mem_cons_of_mem c hd))
    unfold bytesOf at ih ⊢
    rw [List.flatMap_cons, hc, ih, List.map_cons]
    rfl

theorem asciiDigits_isDigit (c : Nat) : asciiDigits.isDigit c = (decide (0x30 ≤ c) && decide (c ≤ 0x39)) := by
  by_cases h : c < 128
  · exact asciiDigits.isDigit_ascii h
  · unfold DigitTable.isDigit asciiDigits
    dsimp only
    rw [if_neg (by omega), decide_eq_false (show ¬ c ≤ 0x39 by omega), Bool.and_false]
    rfl

theorem isDigit_byte (b : UInt8) : isDigit b = asciiDigits.isDigit b.toNat := by
  rw [asciiDigits_isDigit]
  rfl

theorem digit_code {c : Nat} (h : asciiDigits.isDigit c = true) : c < 128 ∧ isDigit c.toUInt8 = true := by
  rw [asciiDigits_isDigit, Bool.and_eq_true, decide_eq_true_iff, decide_eq_true_iff] at h
  refine ⟨by omega, ?_⟩
  rw [isDigit_byte, Unicode.toNat_toUInt8 (by omega), asciiDigits_isDigit, decide_eq_true h.1, decide_eq_true h.2]
  rfl

/-- A number of a literal, as bytes. -/
theorem digits_bytes {digits : Codes} (h : ∀ c ∈ digits, asciiDigits.isDigit c = true) :
    bytesOf digits = digits.map Nat.toUInt8 ∧ ∀ b ∈ bytesOf digits, isDigit b = true := by
  have hbytes := bytesOf_ascii (fun c hc => (digit_code (h c hc)).1)
  refine ⟨hbytes, fun b hb => ?_⟩
  rw [hbytes] at hb
  obtain ⟨c, hc, rfl⟩ := List.mem_map.1 hb
  exact (digit_code (h c hc)).2

theorem bytes_digits : ∀ {bs : Bytes}, (∀ b ∈ bs, isDigit b = true) →
    (∀ c ∈ bs.map UInt8.toNat, asciiDigits.isDigit c = true) ∧ bytesOf (bs.map UInt8.toNat) = bs := by
  intro bs h
  have hcodes : ∀ c ∈ bs.map UInt8.toNat, asciiDigits.isDigit c = true := by
    intro c hc
    obtain ⟨b, hb, rfl⟩ := List.mem_map.1 hc
    rw [← isDigit_byte]
    exact h b hb
  refine ⟨hcodes, ?_⟩
  rw [(digits_bytes hcodes).1, List.map_map]
  exact (List.map_congr_left fun b _ => UInt8.ofNat_toNat).trans (List.map_id bs)

theorem unitMap_spelling (u : TimeUnit) : unitMap.lookup (bytesOf u.spelling) = some u.nanoseconds := by
  cases u <;> rfl

theorem unit_of_lookup {name : Bytes} {unit : Nat} (h : unitMap.lookup name = some unit) :
    ∃ u : TimeUnit, name = bytesOf u.spelling ∧ unit = u.nanoseconds := by
  obtain ⟨pre, post, hmap, -⟩ := List.lookup_eq_some_iff.1 h
  have hmem : (name, unit) ∈ TimeUnit.alternatives.map (fun u => (bytesOf u.spelling, u.nanoseconds)) := by
    rw [show TimeUnit.alternatives.map (fun u => (bytesOf u.spelling, u.nanoseconds)) = unitMap from rfl, hmap]
    simp
  obtain ⟨u, -, heq⟩ := List.mem_map.1 hmem
  cases heq
  exact ⟨u, rfl, rfl⟩

theorem inUnit_spelling (u : TimeUnit) : ∀ b ∈ bytesOf u.spelling, inUnit b = true := by
  cases u <;> exact List.all_eq_true.1 (by decide)

/-- What a part adds to the nanoseconds before it. -/
def countPart (d : Nat) (p : Part) : Option Nat :=
  match wholeValue (bytesOf p.whole) with
  | none => none
  | some v => addPart d v p.unit.nanoseconds (fractionValue (bytesOf p.decimals))

def countParts : Nat → List Part → Option Nat
  | d, [] => some d
  | d, p :: parts =>
    match countPart d p with
    | none => none
    | some d => countParts d parts

theorem inUnit_false {b : UInt8} : inUnit b = false ↔ b = 0x2E ∨ isDigit b = true := by
  unfold inUnit
  rw [Bool.not_eq_false', Bool.or_eq_true, beq_iff_eq]

/-- The text of parts goes on with a number. -/
theorem head_parts {parts : List Part} (h : ∀ p ∈ parts, IsPart asciiDigits p) :
    ∀ b ∈ (bytesOf (partsText parts)).head?, inUnit b = false := by
  cases hcodes : partsText parts with
  | nil => exact fun b hb => (by cases hb)
  | cons c codes =>
    intro b hb
    have hstops := stops_parts h c (by rw [hcodes]; rfl)
    rcases hstops with hc | rfl
    · obtain ⟨hsmall, hdigit⟩ := digit_code hc
      have hbytes : bytesOf (c :: codes) = c.toUInt8 :: bytesOf codes := by
        rw [show c :: codes = [c] ++ codes from rfl, bytesOf_append, bytesOf_ascii (fun d hd => by
          rw [List.mem_singleton.1 hd]; exact hsmall)]
        rfl
      rw [hbytes] at hb
      cases hb
      exact inUnit_false.2 (.inr hdigit)
    · cases hb
      rfl

/-! ## The loop -/

/-- What the loop does with a number whose digits have been told apart. -/
theorem parseParts_step {fuel d unit v : Nat} {c : UInt8} {text afterInt afterFraction : Bytes} {f : Fraction} {hasFraction : Bool}
    (hc : c = 0x2E ∨ isDigit c = true) (hint : leadingInt 0 (c :: text) = some (v, afterInt))
    (hfraction : optionalFraction afterInt = (f, afterFraction, hasFraction))
    (hdigits : ¬ (afterInt.length = (c :: text).length ∧ hasFraction = false)) (hunit : afterFraction.takeWhile inUnit ≠ [])
    (hlookup : unitMap.lookup (afterFraction.takeWhile inUnit) = some unit) :
    parseParts (fuel + 1) d (c :: text) =
      match addPart d v unit f with
      | none => none
      | some d => parseParts fuel d (afterFraction.dropWhile inUnit) := by
  have hnot : ¬ (decide (afterInt.length ≠ (c :: text).length) = false ∧ hasFraction = false) := by
    rw [decide_eq_false_iff_not, ne_eq, not_not]
    exact hdigits
  rw [parseParts, if_pos hc, hint]
  dsimp only
  rw [hfraction]
  dsimp only
  rw [if_neg hnot, if_neg hunit, hlookup]

theorem parseParts_part {p : Part} (h : IsPart asciiDigits p) {rest : Bytes} (hrest : ∀ b ∈ rest.head?, inUnit b = false)
    (fuel d : Nat) : parseParts (fuel + 1) d (bytesOf p.text ++ rest) =
      match countPart d p with
      | none => none
      | some d => parseParts fuel d rest := by
  obtain ⟨whole, fraction, unit⟩ := p
  obtain ⟨htake, hdrop⟩ := takeWhile_append_stop (inUnit_spelling unit) hrest
  have hwhole := (digits_bytes h.whole).2
  have hspelling : ∃ u more, bytesOf unit.spelling = u :: more := by cases unit <;> exact ⟨_, _, rfl⟩
  obtain ⟨u, more, hspelling⟩ := hspelling
  have hu : u ≠ 0x2E ∧ isDigit u = false := by
    have hin := inUnit_spelling unit u (by rw [hspelling]; exact List.mem_cons_self)
    unfold inUnit at hin
    simpa using hin
  have hunit : bytesOf unit.spelling ≠ [] := by
    rw [hspelling]
    exact List.cons_ne_nil _ _
  have hhead : ∀ b ∈ (bytesOf unit.spelling ++ rest).head?, isDigit b = false := by
    rw [hspelling]
    rintro b ⟨⟩
    exact hu.2
  unfold countPart wholeValue
  cases fraction with
  | none =>
    have htext : bytesOf (Part.text ⟨whole, none, unit⟩) ++ rest = bytesOf whole ++ (bytesOf unit.spelling ++ rest) := by
      rw [Part.text, Part.amount, bytesOf_append, List.append_nil, List.append_assoc]
    have hne : whole ≠ [] := h.digits.resolve_right fun hnot => hnot rfl
    have hint := @leadingInt_digits _ (bytesOf unit.spelling ++ rest) 0 hwhole hhead
    rw [htext]
    cases hbytes : bytesOf whole with
    | nil =>
      rw [(digits_bytes h.whole).1] at hbytes
      exact absurd (List.map_eq_nil_iff.1 hbytes) hne
    | cons c digits =>
      rw [hbytes] at hint hwhole
      have hc : isDigit c = true := hwhole c List.mem_cons_self
      cases hv : leadingInt 0 (c :: digits) with
      | none =>
        rw [hv] at hint
        rw [List.cons_append, parseParts, if_pos (.inr hc), ← List.cons_append, hint]
        rfl
      | some r =>
        obtain ⟨v, left⟩ := r
        rw [hv] at hint
        rw [List.cons_append] at hint ⊢
        have hfraction : optionalFraction (bytesOf unit.spelling ++ rest) = ({}, bytesOf unit.spelling ++ rest, false) := by
          rw [hspelling]
          exact if_neg hu.1
        refine (parseParts_step (.inr hc) hint hfraction ?_ (by rw [htake]; exact hunit)
          (by rw [htake]; exact unitMap_spelling unit)).trans (by rw [hdrop]; rfl)
        rintro ⟨hlength, -⟩
        simp only [List.length_cons, List.length_append] at hlength
        omega
  | some decimals =>
    have hdecimals : ∀ b ∈ bytesOf decimals, isDigit b = true := (digits_bytes h.decimals).2
    have htext : bytesOf (Part.text ⟨whole, some decimals, unit⟩) ++ rest =
        bytesOf whole ++ 0x2E :: (bytesOf decimals ++ (bytesOf unit.spelling ++ rest)) := by
      have hpoint : bytesOf (0x2E :: decimals) = 0x2E :: bytesOf decimals := rfl
      rw [Part.text, Part.amount, bytesOf_append, bytesOf_append]
      dsimp only
      rw [hpoint]
      simp only [List.append_assoc, List.cons_append]
    have hdot : ∀ b ∈ (0x2E :: (bytesOf decimals ++ (bytesOf unit.spelling ++ rest))).head?, isDigit b = false := by
      rintro b ⟨⟩
      rfl
    have hint := @leadingInt_digits _ (0x2E :: (bytesOf decimals ++ (bytesOf unit.spelling ++ rest))) 0 hwhole hdot
    have hfraction := @leadingFraction_digits _ (bytesOf unit.spelling ++ rest) {} hdecimals hhead
    rw [htext]
    have hbytes : ∃ c text, bytesOf whole ++ 0x2E :: (bytesOf decimals ++ (bytesOf unit.spelling ++ rest)) = c :: text ∧
        (c = 0x2E ∨ isDigit c = true) := by
      cases hwholeBytes : bytesOf whole with
      | nil => exact ⟨_, _, rfl, .inl rfl⟩
      | cons c digits => exact ⟨_, _, rfl, .inr (hwhole c (by rw [hwholeBytes]; exact List.mem_cons_self))⟩
    obtain ⟨c, text, hbytes, hc⟩ := hbytes
    rw [hbytes] at hint ⊢
    cases hv : leadingInt 0 (bytesOf whole) with
    | none =>
      rw [hv] at hint
      rw [parseParts, if_pos hc, hint]
      rfl
    | some r =>
      obtain ⟨v, left⟩ := r
      rw [hv] at hint
      have hoptional : optionalFraction (0x2E :: (bytesOf decimals ++ (bytesOf unit.spelling ++ rest))) =
          (fractionValue (bytesOf decimals), bytesOf unit.spelling ++ rest, decide ((bytesOf unit.spelling ++ rest).length ≠
            (bytesOf decimals ++ (bytesOf unit.spelling ++ rest)).length)) := by
        rw [optionalFraction, if_pos rfl, hfraction]
        rfl
      refine (parseParts_step hc hint hoptional ?_ (by rw [htake]; exact hunit)
        (by rw [htake]; exact unitMap_spelling unit)).trans (by rw [hdrop]; rfl)
      rintro ⟨hlength, hnone⟩
      rw [← hbytes] at hlength
      rw [decide_eq_false_iff_not, ne_eq, not_not] at hnone
      simp only [List.length_append, List.length_cons] at hlength hnone
      have hwholeNil : whole = [] := by
        have hzero : (bytesOf whole).length = 0 := by omega
        rw [(digits_bytes h.whole).1, List.length_map] at hzero
        exact List.length_eq_zero_iff.1 hzero
      have hdecimalsNil : decimals = [] := by
        have hzero : (bytesOf decimals).length = 0 := by omega
        rw [(digits_bytes (show ∀ c ∈ decimals, asciiDigits.isDigit c = true from h.decimals)).1, List.length_map] at hzero
        exact List.length_eq_zero_iff.1 hzero
      exact h.digits.elim (fun hne => hne hwholeNil) (fun hne => hne hdecimalsNil)

theorem parseParts_parts : ∀ {parts : List Part} {fuel d : Nat}, (∀ p ∈ parts, IsPart asciiDigits p) →
    parts.length < fuel → parseParts fuel d (bytesOf (partsText parts)) = countParts d parts
  | _, 0, _, _, hfuel => absurd hfuel (Nat.not_lt_zero _)
  | [], fuel + 1, d, _, _ => rfl
  | p :: parts, fuel + 1, d, h, hfuel => by
    have hparts : ∀ q ∈ parts, IsPart asciiDigits q := fun q hq => h q (List.mem_cons_of_mem p hq)
    rw [partsText, List.flatMap_cons, ← partsText, bytesOf_append,
      parseParts_part (h p List.mem_cons_self) (head_parts hparts) fuel d, countParts]
    cases countPart d p with
    | none => rfl
    | some d => exact parseParts_parts hparts (Nat.lt_of_succ_lt_succ hfuel)

/-- What is told apart as a number, its point and its fraction. -/
theorem optionalFraction_split {text afterFraction : Bytes} {f : Fraction} {hasFraction : Bool}
    (h : optionalFraction text = (f, afterFraction, hasFraction)) :
    ∃ fraction : Option Bytes, (∀ b ∈ fraction.getD [], isDigit b = true) ∧
      text = (match fraction with
        | none => []
        | some digits => 0x2E :: digits) ++ afterFraction ∧ (hasFraction = true → fraction.getD [] ≠ []) := by
  cases text with
  | nil =>
    cases h
    exact ⟨none, fun b hb => (by cases hb), rfl, fun hb => (by cases hb)⟩
  | cons c rest =>
    rw [optionalFraction] at h
    split at h
    next hdot =>
      rw [leadingFraction_rest] at h
      cases h
      refine ⟨some (rest.takeWhile isDigit), fun b hb => List.mem_takeWhile_imp hb, ?_, fun hne hnil => ?_⟩
      · rw [hdot]
        exact congrArg (0x2E :: ·) (List.takeWhile_append_dropWhile).symm
      · have hsplit := congrArg List.length (List.takeWhile_append_dropWhile (p := isDigit) (l := rest))
        rw [show rest.takeWhile isDigit = [] from hnil, List.nil_append] at hsplit
        exact of_decide_eq_true hne hsplit
    · cases h
      exact ⟨none, fun b hb => (by cases hb), rfl, fun hb => (by cases hb)⟩

/-- **What the loop accepts** is parts to the end. -/
theorem parts_of_parseParts : ∀ {fuel d n : Nat} {text : Bytes}, parseParts fuel d text = some n →
    ∃ parts, (∀ p ∈ parts, IsPart asciiDigits p) ∧ text = bytesOf (partsText parts)
  | 0, _, _, _, h => by cases h
  | fuel + 1, _, _, [], _ => ⟨[], fun p hp => (by cases hp), rfl⟩
  | fuel + 1, d, n, c :: text, h => by
    rw [parseParts] at h
    split at h
    · split at h
      · cases h
      next v afterInt hint =>
        dsimp only at h
        have hrest := leadingInt_rest hint
        have hwhole : ∀ b ∈ (c :: text).takeWhile isDigit, isDigit b = true := fun b hb => List.mem_takeWhile_imp hb
        have htext := (List.takeWhile_append_dropWhile (p := isDigit) (l := c :: text)).symm
        rw [← hrest] at htext
        cases hoptional : optionalFraction afterInt with
        | mk f r =>
          obtain ⟨afterFraction, hasFraction⟩ := r
          obtain ⟨fraction, hdecimals, hafter, hhas⟩ := optionalFraction_split hoptional
          rw [hoptional] at h
          dsimp only at h
          split at h
          · cases h
          next hdigits =>
            split at h
            · cases h
            · split at h
              · cases h
              next unit hlookup =>
                split at h
                · cases h
                · obtain ⟨parts, hparts, hmore⟩ := parts_of_parseParts h
                  obtain ⟨u, hname, -⟩ := unit_of_lookup hlookup
                  have hsplit := (List.takeWhile_append_dropWhile (p := inUnit) (l := afterFraction)).symm
                  rw [hname, hmore] at hsplit
                  obtain ⟨hwholeCodes, hwholeBytes⟩ := bytes_digits hwhole
                  obtain ⟨hdecimalCodes, hdecimalBytes⟩ := bytes_digits hdecimals
                  refine ⟨⟨((c :: text).takeWhile isDigit).map UInt8.toNat, fraction.map (·.map UInt8.toNat), u⟩ :: parts,
                    List.forall_mem_cons.2 ⟨⟨hwholeCodes, ?_, ?_⟩, hparts⟩, ?_⟩
                  · intro code hcode
                    cases fraction with
                    | none => cases hcode
                    | some digits => exact hdecimalCodes code hcode
                  · by_contra hnone
                    obtain ⟨hnoWhole, hnoDecimals⟩ := not_or.1 hnone
                    refine hdigits ⟨?_, Bool.eq_false_iff.2 fun hyes => ?_⟩
                    · have hnil := List.map_eq_nil_iff.1 (not_not.1 hnoWhole)
                      rw [hnil, List.nil_append] at htext
                      rw [htext]
                      simp
                    · cases fraction with
                      | none => exact hhas hyes rfl
                      | some digits => exact hnoDecimals fun hnil => hhas hyes (List.map_eq_nil_iff.1 hnil)
                  · rw [partsText, List.flatMap_cons, ← partsText, bytesOf_append, Part.text, Part.amount, bytesOf_append, bytesOf_append,
                      hwholeBytes]
                    conv => lhs; rw [htext, hafter, hsplit]
                    cases fraction with
                    | none => simp [bytesOf]
                    | some digits =>
                      have hpoint : bytesOf (0x2E :: digits.map UInt8.toNat) = 0x2E :: bytesOf (digits.map UInt8.toNat) := rfl
                      dsimp only [Option.map_some]
                      rw [hpoint, show bytesOf (digits.map UInt8.toNat) = digits from hdecimalBytes]
                      simp only [List.append_assoc, List.cons_append]
    · cases h

end Go
end Durations
end Dex
