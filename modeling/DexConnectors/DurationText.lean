import Mathlib.Data.List.TakeWhile
import DexConnectors.LibUnicode
/-!
# DurationText — durations as the SDKs for Python and TypeScript read them (`oauthtoken/manifest_refresh`)

`_parse_duration` and `parseDurationMs` step through a text with one regular expression: a number, with a fraction or without, and
a unit.  They differ in what a digit is (in Python, every decimal digit of Unicode), in how many digits a number may have, and in
what they make of the sum.  A text is a list of code points or of UTF-16 units.

No unit begins with a digit or a point, and no digit stands in a unit: there is one way to match, and nothing to go back to.
-/
namespace Dex
namespace Durations

open Lib Lib.Utf8

abbrev Codes := List Nat

/-! ## Numbers and units -/

/-- The decimal digits of a regular expression, `\d`, with the values that `int` gives them. -/
structure DigitTable where
  value : Nat → Option Nat
  ascii : ∀ c, c < 128 → value c = if 0x30 ≤ c ∧ c ≤ 0x39 then some (c - 0x30) else none
  micro : value 0xB5 = none
  mu    : value 0x3BC = none

def asciiDigits : DigitTable where
  value c := if 0x30 ≤ c ∧ c ≤ 0x39 then some (c - 0x30) else none
  ascii _ _ := rfl
  micro := rfl
  mu := rfl

namespace DigitTable

variable (t : DigitTable)

def isDigit (c : Nat) : Bool := (t.value c).isSome

def number (digits : Codes) : Nat := digits.foldl (fun n c => n * 10 + (t.value c).getD 0) 0

end DigitTable

inductive TimeUnit where
  | ns | us | micro | mu | ms | s | m | h
  deriving DecidableEq, Repr

namespace TimeUnit

def spelling : TimeUnit → Codes
  | .ns => [0x6E, 0x73]
  | .us => [0x75, 0x73]
  | .micro => [0xB5, 0x73]
  | .mu => [0x3BC, 0x73]
  | .ms => [0x6D, 0x73]
  | .s => [0x73]
  | .m => [0x6D]
  | .h => [0x68]

def nanoseconds : TimeUnit → Nat
  | .ns => 1
  | .us | .micro | .mu => 1000
  | .ms => 1000000
  | .s => 1000000000
  | .m => 60000000000
  | .h => 3600000000000

/-- In the order of the regular expression. -/
def alternatives : List TimeUnit := [.ns, .us, .micro, .mu, .ms, .s, .m, .h]

end TimeUnit

/-- A match of the regular expression. -/
structure Part where
  whole    : Codes
  fraction : Option Codes
  unit     : TimeUnit

namespace Part

def decimals (p : Part) : Codes := p.fraction.getD []

def amount (p : Part) : Codes :=
  p.whole ++ match p.fraction with
    | none => []
    | some digits => 0x2E :: digits

def text (p : Part) : Codes := p.amount ++ p.unit.spelling

/-- What a part counts, given how digits are read. -/
def count (int : Codes → Option Nat) (p : Part) : Option Nat :=
  match int (if p.whole = [] then [0x30] else p.whole) with
  | none => none
  | some whole =>
    if p.decimals = [] then some (whole * p.unit.nanoseconds)
    else
      match int p.decimals with
      | none => none
      | some fraction => some (whole * p.unit.nanoseconds + fraction * p.unit.nanoseconds / 10 ^ p.decimals.length)

end Part

/-! ## The regular expression -/

def unitAt (text : Codes) : Option (TimeUnit × Codes) :=
  (TimeUnit.alternatives.find? (fun u => u.spelling.isPrefixOf text)).map (fun u => (u, text.drop u.spelling.length))

section

variable (t : DigitTable)

/-- `((?:\d+(?:\.\d*)?|\.\d+))(ns|us|µs|μs|ms|s|m|h)` at the head of a text. -/
def partAt (text : Codes) : Option (Part × Codes) :=
  let whole := text.takeWhile t.isDigit
  match text.dropWhile t.isDigit with
  | [] => none
  | c :: rest =>
    if c = 0x2E then
      let fraction := rest.takeWhile t.isDigit
      if whole = [] ∧ fraction = [] then none
      else (unitAt (rest.dropWhile t.isDigit)).map (fun r => (⟨whole, some fraction, r.1⟩, r.2))
    else if whole = [] then none
    else (unitAt (c :: rest)).map (fun r => (⟨whole, none, r.1⟩, r.2))

/-- The next match of `finditer` and `matchAll`, after the code points that are passed over. -/
def search : Codes → Option (Nat × Part × Codes)
  | [] => none
  | c :: text =>
    match partAt t (c :: text) with
    | some (part, rest) => some (0, part, rest)
    | none => (search text).map (fun r => (r.1 + 1, r.2))

/-- The loop over the matches, from where the last one ended, and the check that they reach the end. -/
def sumParts (int : Codes → Option Nat) : Nat → Nat → Codes → Option Nat
  | 0, _, _ => none
  | fuel + 1, total, text =>
    match search t text with
    | none => if text = [] then some total else none
    | some (skipped, part, rest) =>
      if skipped ≠ 0 then none
      else
        match part.count int with
        | none => none
        | some n => sumParts int fuel (total + n) rest

end

/-! ## `_parse_duration`, `parseDurationMs` -/

def zeros : List Codes := [[0x30], [0x2B, 0x30], [0x2D, 0x30]]

def isNegative (value : Codes) : Bool := value.head? == some 0x2D

def magnitudeOf (value : Codes) : Codes :=
  if value.head? = some 0x2D ∨ value.head? = some 0x2B then value.tail else value

/-- The largest magnitude of 64 bits. -/
def maximum (negative : Bool) : Nat := if negative then 2 ^ 63 else 2 ^ 63 - 1

def signed (negative : Bool) (n : Nat) : Int := if negative then -(n : Int) else n

namespace Python

variable (t : DigitTable) (limit : Nat)

/-- `int` of a text of digits; `limit` is `sys.get_int_max_str_digits()`, where zero is no limit. -/
def int (digits : Codes) : Option Nat := if limit ≠ 0 ∧ limit < digits.length then none else some (t.number digits)

/-- `_parse_duration`, in microseconds. -/
def parseDuration (value : Codes) : Option Int :=
  if value = [] then some 0
  else if value ∈ zeros then some 0
  else
    match sumParts t (int t limit) ((magnitudeOf value).length + 1) 0 (magnitudeOf value) with
    | none => none
    | some total => if maximum (isNegative value) < total then none else some (signed (isNegative value) (total / 1000))

end Python

namespace TypeScript

def bigInt (digits : Codes) : Option Nat := some (asciiDigits.number digits)

/-- `parseDurationMs` before its conversion to milliseconds. -/
def parseDurationNanoseconds (value : Codes) : Option Int :=
  if value = [] then some 0
  else if value ∈ zeros then some 0
  else
    match sumParts asciiDigits bigInt ((magnitudeOf value).length + 1) 0 (magnitudeOf value) with
    | none => none
    | some duration =>
      if duration = 0 ∨ maximum (isNegative value) < duration then none else some (signed (isNegative value) duration)

end TypeScript

/-! ## Literals -/

namespace Part

/-- The nanoseconds that a part stands for, its fraction cut to whole ones. -/
def nanoseconds (t : DigitTable) (p : Part) : Nat :=
  t.number p.whole * p.unit.nanoseconds + t.number p.decimals * p.unit.nanoseconds / 10 ^ p.decimals.length

def IsAscii (p : Part) : Prop := (∀ c ∈ p.whole, c < 128) ∧ ∀ c ∈ p.decimals, c < 128

/-- No number too long for `int`. -/
def Readable (limit : Nat) (p : Part) : Prop := limit ≠ 0 → p.whole.length ≤ limit ∧ p.decimals.length ≤ limit

end Part

/-- **A number with a unit**: digits on one side of the point at least. -/
structure IsPart (t : DigitTable) (p : Part) : Prop where
  whole    : ∀ c ∈ p.whole, t.isDigit c = true
  decimals : ∀ c ∈ p.decimals, t.isDigit c = true
  digits   : p.whole ≠ [] ∨ p.decimals ≠ []

/-- A text ends here, or goes on with a number. -/
def Stops (t : DigitTable) (rest : Codes) : Prop := ∀ c ∈ rest.head?, t.isDigit c = true ∨ c = 0x2E

namespace DigitTable

variable (t : DigitTable)

theorem isDigit_ascii {c : Nat} (h : c < 128) : t.isDigit c = (decide (0x30 ≤ c) && decide (c ≤ 0x39)) := by
  unfold isDigit
  rw [t.ascii c h]
  by_cases hdigit : 0x30 ≤ c ∧ c ≤ 0x39
  · rw [if_pos hdigit, decide_eq_true hdigit.1, decide_eq_true hdigit.2]
    rfl
  · rw [if_neg hdigit]
    symm
    simpa [Bool.and_eq_false_iff, not_and_or] using hdigit

theorem isDigit_dot : t.isDigit 0x2E = false := t.isDigit_ascii (by decide)

/-- **No unit has a digit or a point in it.** -/
theorem isDigit_spelling (u : TimeUnit) : ∀ c ∈ u.spelling, t.isDigit c = false ∧ c ≠ 0x2E := by
  have hmicro : t.isDigit 0xB5 = false := by rw [isDigit, t.micro]; rfl
  have hmu : t.isDigit 0x3BC = false := by rw [isDigit, t.mu]; rfl
  have hletter : ∀ c, 0x3A ≤ c → c < 128 → t.isDigit c = false ∧ c ≠ 0x2E := by
    intro c hlow hhigh
    rw [t.isDigit_ascii hhigh, decide_eq_false (show ¬ c ≤ 0x39 by omega), Bool.and_false]
    exact ⟨rfl, by omega⟩
  intro c hc
  cases u <;> simp only [TimeUnit.spelling, List.mem_cons, List.not_mem_nil, or_false] at hc
  case micro =>
    rcases hc with rfl | rfl
    · exact ⟨hmicro, by decide⟩
    · exact hletter _ (by decide) (by decide)
  case mu =>
    rcases hc with rfl | rfl
    · exact ⟨hmu, by decide⟩
    · exact hletter _ (by decide) (by decide)
  all_goals exact hletter c (by omega) (by omega)

end DigitTable

namespace TimeUnit

theorem spelling_ne_nil (u : TimeUnit) : u.spelling ≠ [] := by
  cases u <;> exact List.cons_ne_nil _ _

/-- A unit that another begins with comes after it. -/
theorem find_spelling (u : TimeUnit) : alternatives.find? (fun v => v.spelling.isPrefixOf u.spelling) = some u := by
  cases u <;> rfl

end TimeUnit

section

variable {t : DigitTable}

theorem prefix_spelling {u v : TimeUnit} {rest : Codes} (h : Stops t rest) :
    v.spelling.isPrefixOf (u.spelling ++ rest) = v.spelling.isPrefixOf u.spelling := by
  rw [Bool.eq_iff_iff, List.isPrefixOf_iff_prefix, List.isPrefixOf_iff_prefix]
  constructor
  · intro hprefix
    rcases List.prefix_or_prefix_of_prefix hprefix (List.prefix_append u.spelling rest) with hv | hu
    · exact hv
    · obtain ⟨more, hmore⟩ := hu
      rw [← hmore, List.prefix_append_right_inj] at hprefix
      cases more with
      | nil => exact ⟨[], by rw [List.append_nil, ← hmore, List.append_nil]⟩
      | cons c more =>
        obtain ⟨tail, htail⟩ := hprefix
        obtain ⟨hdigit, hdot⟩ := t.isDigit_spelling v c (by rw [← hmore]; simp)
        rcases h c (by rw [← htail]; rfl) with hc | hc
        · rw [hdigit] at hc
          cases hc
        · exact absurd hc hdot
  · exact fun hprefix => hprefix.trans (List.prefix_append _ _)

theorem unitAt_spelling (u : TimeUnit) {rest : Codes} (h : Stops t rest) : unitAt (u.spelling ++ rest) = some (u, rest) := by
  unfold unitAt
  simp only [prefix_spelling h]
  rw [TimeUnit.find_spelling, Option.map_some, List.drop_left]

theorem spelling_of_unitAt {text rest : Codes} {u : TimeUnit} (h : unitAt text = some (u, rest)) : text = u.spelling ++ rest := by
  obtain ⟨v, hfind, heq⟩ := Option.map_eq_some_iff.1 h
  cases heq
  have hprefix : u.spelling.isPrefixOf text = true := by simpa using List.find?_some hfind
  obtain ⟨rest, rfl⟩ := List.isPrefixOf_iff_prefix.1 hprefix
  rw [List.drop_left]

theorem stops_spelling (u : TimeUnit) (rest : Codes) : ∀ c ∈ (u.spelling ++ rest).head?, t.isDigit c = false := by
  intro c hc
  cases hspelling : u.spelling with
  | nil => exact absurd hspelling u.spelling_ne_nil
  | cons d more =>
    rw [hspelling] at hc
    cases hc
    exact (t.isDigit_spelling u c (by rw [hspelling]; exact List.mem_cons_self)).1

theorem mem_takeWhile {text : Codes} : ∀ c ∈ text.takeWhile t.isDigit, t.isDigit c = true :=
  fun _ hc => List.mem_takeWhile_imp hc

/-- **What matches at the head is a part.** -/
theorem isPart_of_partAt {text rest : Codes} {p : Part} (h : partAt t text = some (p, rest)) :
    IsPart t p ∧ text = p.text ++ rest := by
  have htext := (List.takeWhile_append_dropWhile (p := t.isDigit) (l := text)).symm
  unfold partAt at h
  dsimp only at h
  split at h
  · cases h
  next c more hmore =>
    rw [hmore] at htext
    split at h
    next hdot =>
      split at h
      · cases h
      next hdigits =>
        obtain ⟨⟨u, tail⟩, hunit, heq⟩ := Option.map_eq_some_iff.1 h
        cases heq
        refine ⟨⟨mem_takeWhile, mem_takeWhile, ?_⟩, ?_⟩
        · exact not_and_or.1 hdigits
        · have hmore := (List.takeWhile_append_dropWhile (p := t.isDigit) (l := more)).symm
          rw [spelling_of_unitAt hunit] at hmore
          conv => lhs; rw [htext, hdot, hmore]
          simp [Part.text, Part.amount]
    · split at h
      · cases h
      next hwhole =>
        obtain ⟨⟨u, tail⟩, hunit, heq⟩ := Option.map_eq_some_iff.1 h
        cases heq
        refine ⟨⟨mem_takeWhile, fun c hc => (by cases hc), .inl hwhole⟩, ?_⟩
        conv => lhs; rw [htext, spelling_of_unitAt hunit]
        simp [Part.text, Part.amount]

theorem partAt_text {p : Part} (h : IsPart t p) {rest : Codes} (hrest : Stops t rest) : partAt t (p.text ++ rest) = some (p, rest) := by
  obtain ⟨whole, fraction, unit⟩ := p
  unfold partAt
  cases fraction with
  | none =>
    have htext : Part.text ⟨whole, none, unit⟩ ++ rest = whole ++ (unit.spelling ++ rest) := by simp [Part.text, Part.amount]
    obtain ⟨htake, hdrop⟩ := takeWhile_append_stop h.whole (@stops_spelling t unit rest)
    have hwhole : whole ≠ [] := h.digits.resolve_right fun hnot => hnot rfl
    dsimp only
    rw [htext, htake, hdrop]
    cases hspelling : unit.spelling ++ rest with
    | nil => exact absurd (List.append_eq_nil_iff.1 hspelling).1 unit.spelling_ne_nil
    | cons c more =>
      have hc : c ≠ 0x2E := by
        cases hunit : unit.spelling with
        | nil => exact absurd hunit unit.spelling_ne_nil
        | cons d tail =>
          rw [hunit] at hspelling
          cases hspelling
          exact (t.isDigit_spelling unit c (by rw [hunit]; exact List.mem_cons_self)).2
      dsimp only
      rw [if_neg hc, if_neg hwhole, ← hspelling, unitAt_spelling unit hrest]
      rfl
  | some digits =>
    have htext : Part.text ⟨whole, some digits, unit⟩ ++ rest = whole ++ 0x2E :: (digits ++ (unit.spelling ++ rest)) := by
      simp [Part.text, Part.amount]
    have hdot : ∀ c ∈ (0x2E :: (digits ++ (unit.spelling ++ rest))).head?, t.isDigit c = false := by
      rintro c ⟨⟩
      exact t.isDigit_dot
    obtain ⟨htake, hdrop⟩ := takeWhile_append_stop h.whole hdot
    obtain ⟨htake', hdrop'⟩ := takeWhile_append_stop h.decimals (@stops_spelling t unit rest)
    have hdigits : ¬ (whole = [] ∧ digits = []) := not_and_or.2 h.digits
    dsimp only
    rw [htext, htake, hdrop]
    dsimp only
    rw [if_pos rfl]
    rw [show Part.decimals ⟨whole, some digits, unit⟩ = digits from rfl] at htake' hdrop'
    rw [htake', hdrop', if_neg hdigits, unitAt_spelling unit hrest]
    rfl

theorem IsPart.text_ne_nil {p : Part} : p.text ≠ [] := by
  unfold Part.text
  exact fun h => absurd (List.append_eq_nil_iff.1 h).2 p.unit.spelling_ne_nil

/-- The parts of a literal, one after the other. -/
def partsText (parts : List Part) : Codes := parts.flatMap Part.text

theorem IsPart.stops {p : Part} (h : IsPart t p) (rest : Codes) : Stops t (p.text ++ rest) := by
  obtain ⟨whole, fraction, unit⟩ := p
  intro c hc
  cases whole with
  | cons d whole =>
    cases hc
    exact .inl (h.whole c List.mem_cons_self)
  | nil =>
    cases fraction with
    | none => exact absurd (h.digits.resolve_left fun hnot => hnot rfl) fun hnot => hnot rfl
    | some digits =>
      cases hc
      exact .inr rfl

theorem stops_parts {parts : List Part} (h : ∀ p ∈ parts, IsPart t p) : Stops t (partsText parts) := by
  cases parts with
  | nil => exact fun c hc => (by cases hc)
  | cons p parts => exact (h p List.mem_cons_self).stops _

/-- The sum over the parts of a literal. -/
def sumCounts (int : Codes → Option Nat) : List Part → Option Nat
  | [] => some 0
  | p :: parts =>
    match p.count int with
    | none => none
    | some n => (sumCounts int parts).map (n + ·)

theorem sumParts_parts {int : Codes → Option Nat} : ∀ {parts : List Part} {fuel total : Nat}, (∀ p ∈ parts, IsPart t p) →
    (partsText parts).length < fuel → sumParts t int fuel total (partsText parts) = (sumCounts int parts).map (total + ·)
  | _, 0, _, _, hfuel => absurd hfuel (Nat.not_lt_zero _)
  | [], fuel + 1, total, _, _ => rfl
  | p :: parts, fuel + 1, total, h, hfuel => by
    have hp := h p List.mem_cons_self
    have hparts : ∀ q ∈ parts, IsPart t q := fun q hq => h q (List.mem_cons_of_mem p hq)
    have hat := partAt_text hp (stops_parts hparts)
    have hlength : (partsText parts).length < fuel := by
      have hpos := List.length_pos_iff.2 (IsPart.text_ne_nil (p := p))
      rw [partsText, List.flatMap_cons, List.length_append] at hfuel
      unfold partsText
      omega
    have hsearch : search t (p.text ++ partsText parts) = some (0, p, partsText parts) := by
      cases htext : p.text ++ partsText parts with
      | nil => exact absurd (List.append_eq_nil_iff.1 htext).1 IsPart.text_ne_nil
      | cons c text => rw [search, ← htext, hat]
    rw [sumParts, partsText, List.flatMap_cons, ← partsText, hsearch]
    dsimp only
    rw [if_neg (fun hne => hne rfl), sumCounts]
    cases p.count int with
    | none => rfl
    | some n =>
      dsimp only
      rw [sumParts_parts hparts hlength, Option.map_map]
      congr 1
      funext m
      exact Nat.add_assoc total n m

/-- **What the loop accepts** is parts to the end. -/
theorem parts_of_sumParts {int : Codes → Option Nat} : ∀ {fuel total n : Nat} {text : Codes},
    sumParts t int fuel total text = some n → ∃ parts, (∀ p ∈ parts, IsPart t p) ∧ text = partsText parts
  | 0, _, _, _, h => by cases h
  | fuel + 1, total, n, text, h => by
    rw [sumParts] at h
    split at h
    · split at h
      next hnil => exact ⟨[], fun p hp => (by cases hp), hnil⟩
      · cases h
    next skipped p rest hsearch =>
      split at h
      · cases h
      next hskipped =>
        have hat : partAt t text = some (p, rest) := by
          cases text with
          | nil => cases hsearch
          | cons c text =>
            rw [search] at hsearch
            split at hsearch
            next hat =>
              cases hsearch
              exact hat
            · obtain ⟨⟨k, q, more⟩, -, heq⟩ := Option.map_eq_some_iff.1 hsearch
              cases heq
              exact absurd (Nat.succ_ne_zero k) hskipped
        obtain ⟨hp, htext⟩ := isPart_of_partAt hat
        split at h
        · cases h
        · obtain ⟨parts, hparts, hrest⟩ := parts_of_sumParts h
          exact ⟨p :: parts, List.forall_mem_cons.2 ⟨hp, hparts⟩, by rw [htext, hrest, partsText, partsText, List.flatMap_cons]⟩

end

end Durations
end Dex
