import DexConnectors.DurationGo
/-!
# DurationAgree — one duration in three languages

What the SDKs make of a text, and what Go makes of it: `Agrees`.  A text that all of them can take apart is a `Literal`, which has one
reading; from it each of them counts in its own arithmetic, and `agrees_iff` says when they count alike.
-/
namespace Dex
namespace Durations

open Lib Lib.Utf8

/-! ## Literals -/

/-- A sign and parts; `some true` is a minus. -/
structure Literal where
  sign  : Option Bool
  parts : List Part

def signText : Option Bool → Codes
  | none => []
  | some false => [0x2B]
  | some true => [0x2D]

namespace Literal

def text (l : Literal) : Codes := signText l.sign ++ partsText l.parts

def isNegative (l : Literal) : Bool := l.sign == some true

/-- The nanoseconds that a literal stands for. -/
def nanoseconds (t : DigitTable) (l : Literal) : Nat := (l.parts.map (Part.nanoseconds t)).sum

def InRange (t : DigitTable) (l : Literal) : Prop := l.nanoseconds t ≤ maximum l.isNegative

def IsAscii (l : Literal) : Prop := ∀ p ∈ l.parts, p.IsAscii

def Readable (limit : Nat) (l : Literal) : Prop := ∀ p ∈ l.parts, p.Readable limit

/-- What the arithmetic of Go makes of the parts. -/
def goCount (l : Literal) : Option Nat := Go.countParts 0 l.parts

end Literal

def IsLiteral (t : DigitTable) (l : Literal) : Prop := ∀ p ∈ l.parts, IsPart t p

/-- An empty text, or a zero without a unit. -/
def Special (value : Codes) : Prop := value = [] ∨ value ∈ zeros

section

variable {t : DigitTable}

theorem partsText_injective : ∀ {a b : List Part}, (∀ p ∈ a, IsPart t p) → (∀ p ∈ b, IsPart t p) → partsText a = partsText b → a = b
  | [], [], _, _, _ => rfl
  | [], p :: b, _, _, h => by
    rw [partsText, partsText, List.flatMap_cons] at h
    exact absurd (List.append_eq_nil_iff.1 h.symm).1 IsPart.text_ne_nil
  | p :: a, [], _, _, h => by
    rw [partsText, partsText, List.flatMap_cons] at h
    exact absurd (List.append_eq_nil_iff.1 h).1 IsPart.text_ne_nil
  | p :: a, q :: b, ha, hb, h => by
    have haRest : ∀ r ∈ a, IsPart t r := fun r hr => ha r (List.mem_cons_of_mem p hr)
    have hbRest : ∀ r ∈ b, IsPart t r := fun r hr => hb r (List.mem_cons_of_mem q hr)
    have hp := partAt_text (ha p List.mem_cons_self) (stops_parts haRest)
    have hq := partAt_text (hb q List.mem_cons_self) (stops_parts hbRest)
    have htext : p.text ++ partsText a = q.text ++ partsText b := by
      simpa only [partsText, List.flatMap_cons] using h
    rw [htext, hq] at hp
    obtain ⟨hpart, hrest⟩ := Prod.mk.inj (Option.some.inj hp)
    rw [hpart, partsText_injective haRest hbRest hrest.symm]

theorem literal_text {l : Literal} (h : IsLiteral t l) :
    Durations.isNegative l.text = l.isNegative ∧ magnitudeOf l.text = partsText l.parts := by
  obtain ⟨sign, parts⟩ := l
  cases sign with
  | some negative => cases negative <;> exact ⟨rfl, rfl⟩
  | none =>
    show Durations.isNegative (partsText parts) = false ∧ magnitudeOf (partsText parts) = partsText parts
    have hstops := stops_parts h
    unfold Durations.isNegative magnitudeOf
    cases hcodes : partsText parts with
    | nil => exact ⟨rfl, rfl⟩
    | cons c codes =>
      have hc : c ≠ 0x2D ∧ c ≠ 0x2B := by
        have hsign : t.isDigit 0x2D = false ∧ t.isDigit 0x2B = false := ⟨t.isDigit_ascii (by decide), t.isDigit_ascii (by decide)⟩
        rcases hstops c (by rw [hcodes]; rfl) with hdigit | rfl
        · constructor
          · rintro rfl
            rw [hsign.1] at hdigit
            cases hdigit
          · rintro rfl
            rw [hsign.2] at hdigit
            cases hdigit
        · decide
      simp [hc]

theorem exists_sign (value : Codes) : ∃ sign, value = signText sign ++ magnitudeOf value := by
  unfold magnitudeOf
  cases value with
  | nil => exact ⟨none, rfl⟩
  | cons c rest =>
    by_cases hminus : c = 0x2D
    · exact ⟨some true, by simp [hminus, signText]⟩
    · by_cases hplus : c = 0x2B
      · exact ⟨some false, by simp [hplus, signText]⟩
      · exact ⟨none, by simp [hplus, hminus, signText]⟩

/-! ## What Python and TypeScript count -/

theorem number_zero (t : DigitTable) : t.number [0x30] = 0 := by
  unfold DigitTable.number
  rw [List.foldl_cons, List.foldl_nil, t.ascii 0x30 (by decide)]
  rfl

theorem int_eq_some {limit n : Nat} {digits : Codes} :
    Python.int t limit digits = some n ↔ (limit ≠ 0 → digits.length ≤ limit) ∧ n = t.number digits := by
  unfold Python.int
  by_cases h : limit ≠ 0 ∧ limit < digits.length
  · rw [if_pos h]
    exact ⟨fun hnone => (by cases hnone), fun hsome => absurd h.2 (Nat.not_lt.2 (hsome.1 h.1))⟩
  · rw [if_neg h, Option.some.injEq]
    exact ⟨fun hn => ⟨fun hne => Nat.not_lt.1 fun hlt => h ⟨hne, hlt⟩, hn.symm⟩, fun hsome => hsome.2.symm⟩

theorem int_whole {limit n : Nat} {whole : Codes} :
    Python.int t limit (if whole = [] then [0x30] else whole) = some n ↔
      (limit ≠ 0 → whole.length ≤ limit) ∧ n = t.number whole := by
  rw [int_eq_some]
  by_cases h : whole = []
  · rw [if_pos h, h, number_zero]
    exact and_congr_left fun _ => ⟨fun _ _ => Nat.zero_le _, fun _ hne => Nat.pos_of_ne_zero hne⟩
  · rw [if_neg h]

theorem count_eq_some {limit n : Nat} {p : Part} :
    p.count (Python.int t limit) = some n ↔ p.Readable limit ∧ n = p.nanoseconds t := by
  have hnone : p.decimals = [] → p.nanoseconds t = t.number p.whole * p.unit.nanoseconds := by
    intro h
    unfold Part.nanoseconds
    rw [h]
    simp [DigitTable.number]
  unfold Part.count
  constructor
  · intro h
    split at h
    · cases h
    next whole hwhole =>
      obtain ⟨hlimit, rfl⟩ := int_whole.1 hwhole
      split at h
      next hempty =>
        cases h
        exact ⟨fun hne => ⟨hlimit hne, by rw [hempty]; exact Nat.zero_le _⟩, (hnone hempty).symm⟩
      · split at h
        · cases h
        next fraction hfraction =>
          obtain ⟨hlimit', rfl⟩ := int_eq_some.1 hfraction
          cases h
          exact ⟨fun hne => ⟨hlimit hne, hlimit' hne⟩, rfl⟩
  · rintro ⟨hreadable, rfl⟩
    rw [int_whole.2 ⟨fun hne => (hreadable hne).1, rfl⟩]
    dsimp only
    by_cases hempty : p.decimals = []
    · rw [if_pos hempty, hnone hempty]
    · rw [if_neg hempty, int_eq_some.2 ⟨fun hne => (hreadable hne).2, rfl⟩]
      rfl

theorem sumCounts_eq_some {limit : Nat} : ∀ {parts : List Part} {n : Nat}, sumCounts (Python.int t limit) parts = some n ↔
    (∀ p ∈ parts, p.Readable limit) ∧ n = (parts.map (Part.nanoseconds t)).sum
  | [], n => by
    rw [sumCounts, Option.some.injEq]
    exact ⟨fun h => ⟨fun p hp => (by cases hp), h.symm⟩, fun h => h.2.symm⟩
  | p :: parts, n => by
    rw [sumCounts, List.map_cons, List.sum_cons, List.forall_mem_cons]
    constructor
    · intro h
      split at h
      · cases h
      next k hk =>
        obtain ⟨hp, rfl⟩ := count_eq_some.1 hk
        obtain ⟨m, hm, rfl⟩ := Option.map_eq_some_iff.1 h
        obtain ⟨hparts, rfl⟩ := sumCounts_eq_some.1 hm
        exact ⟨⟨hp, hparts⟩, rfl⟩
    · rintro ⟨⟨hp, hparts⟩, rfl⟩
      rw [count_eq_some.2 ⟨hp, rfl⟩]
      dsimp only
      rw [sumCounts_eq_some.2 ⟨hparts, rfl⟩]
      rfl

theorem sumParts_eq_some {limit n : Nat} {l : Literal} (h : IsLiteral t l) :
    sumParts t (Python.int t limit) ((partsText l.parts).length + 1) 0 (partsText l.parts) = some n ↔
      l.Readable limit ∧ n = l.nanoseconds t := by
  rw [sumParts_parts h (Nat.lt_succ_self _), show (0 + ·) = (id : Nat → Nat) from funext Nat.zero_add, Option.map_id, id,
    sumCounts_eq_some]
  rfl

/-- **What Python makes of a literal.** -/
theorem python_eq_some {limit : Nat} {m : Int} {l : Literal} (h : IsLiteral t l) (hspecial : ¬ Special l.text) :
    Python.parseDuration t limit l.text = some m ↔
      l.Readable limit ∧ l.InRange t ∧ m = signed l.isNegative (l.nanoseconds t / 1000) := by
  obtain ⟨hnil, hzeros⟩ := not_or.1 hspecial
  obtain ⟨hnegative, hmagnitude⟩ := literal_text h
  unfold Python.parseDuration Literal.InRange
  rw [if_neg hnil, if_neg hzeros, hmagnitude, hnegative]
  constructor
  · intro hsome
    split at hsome
    · cases hsome
    next total htotal =>
      obtain ⟨hreadable, rfl⟩ := (sumParts_eq_some h).1 htotal
      split at hsome
      · cases hsome
      next hrange =>
        cases hsome
        exact ⟨hreadable, Nat.not_lt.1 hrange, rfl⟩
  · rintro ⟨hreadable, hrange, rfl⟩
    rw [(sumParts_eq_some h).2 ⟨hreadable, rfl⟩]
    exact if_neg (Nat.not_lt.2 hrange)

theorem bigInt_eq : TypeScript.bigInt = Python.int asciiDigits 0 := by
  funext digits
  exact (if_neg (fun h => h.1 rfl)).symm

theorem readable_zero (l : Literal) : l.Readable 0 := fun _ _ hne => absurd rfl hne

/-- **What TypeScript makes of a literal.** -/
theorem typeScript_eq_some {m : Int} {l : Literal} (h : IsLiteral asciiDigits l) (hspecial : ¬ Special l.text) :
    TypeScript.parseDurationNanoseconds l.text = some m ↔
      l.nanoseconds asciiDigits ≠ 0 ∧ l.InRange asciiDigits ∧ m = signed l.isNegative (l.nanoseconds asciiDigits) := by
  obtain ⟨hnil, hzeros⟩ := not_or.1 hspecial
  obtain ⟨hnegative, hmagnitude⟩ := literal_text h
  unfold TypeScript.parseDurationNanoseconds Literal.InRange
  rw [if_neg hnil, if_neg hzeros, hmagnitude, hnegative, bigInt_eq, (sumParts_eq_some h).2 ⟨readable_zero l, rfl⟩]
  dsimp only
  by_cases hbad : l.nanoseconds asciiDigits = 0 ∨ maximum l.isNegative < l.nanoseconds asciiDigits
  · rw [if_pos hbad]
    exact ⟨fun hnone => (by cases hnone), fun hgood => hbad.elim (fun hzero => absurd hzero hgood.1)
      (fun hlarge => absurd hgood.2.1 (Nat.not_le.2 hlarge))⟩
  · obtain ⟨hzero, hrange⟩ := not_or.1 hbad
    rw [if_neg hbad, Option.some.injEq]
    exact ⟨fun heq => ⟨hzero, Nat.not_lt.1 hrange, heq.symm⟩, fun hgood => hgood.2.2.symm⟩

/-- What is not special and has no parts is refused. -/
theorem exists_literal {int : Codes → Option Nat} {fuel n : Nat} {value : Codes}
    (h : sumParts t int fuel 0 (magnitudeOf value) = some n) : ∃ l, IsLiteral t l ∧ value = l.text := by
  obtain ⟨parts, hparts, hmagnitude⟩ := parts_of_sumParts h
  obtain ⟨sign, hsign⟩ := exists_sign value
  exact ⟨⟨sign, parts⟩, hparts, by rw [hsign, hmagnitude]; rfl⟩

theorem python_literal {limit : Nat} {value : Codes} {m : Int} (hspecial : ¬ Special value)
    (h : Python.parseDuration t limit value = some m) : ∃ l, IsLiteral t l ∧ value = l.text := by
  obtain ⟨hnil, hzeros⟩ := not_or.1 hspecial
  unfold Python.parseDuration at h
  rw [if_neg hnil, if_neg hzeros] at h
  split at h
  · cases h
  next htotal => exact exists_literal htotal

theorem typeScript_literal {value : Codes} {m : Int} (hspecial : ¬ Special value)
    (h : TypeScript.parseDurationNanoseconds value = some m) : ∃ l, IsLiteral asciiDigits l ∧ value = l.text := by
  obtain ⟨hnil, hzeros⟩ := not_or.1 hspecial
  unfold TypeScript.parseDurationNanoseconds at h
  rw [if_neg hnil, if_neg hzeros] at h
  split at h
  · cases h
  next htotal => exact exists_literal htotal

end

/-! ## Units and bytes of a text -/

theorem small_text {l : Literal} (h : IsLiteral asciiDigits l) : ∀ c ∈ l.text, c < 0xD800 := by
  have hdigit : ∀ c, asciiDigits.isDigit c = true → c < 0xD800 := fun c hc => Nat.lt_trans (Go.digit_code hc).1 (by decide)
  intro c hc
  rcases List.mem_append.1 hc with hsign | hparts
  · obtain ⟨sign, parts⟩ := l
    cases sign with
    | none => cases hsign
    | some negative => cases negative <;> rw [List.mem_singleton.1 hsign] <;> decide
  · obtain ⟨⟨whole, fraction, unit⟩, hp, hc⟩ := List.mem_flatMap.1 hparts
    have hpart := h _ hp
    rcases List.mem_append.1 hc with hamount | hunit
    · rcases List.mem_append.1 hamount with hwhole | hfraction
      · exact hdigit c (hpart.whole c hwhole)
      · cases fraction with
        | none => cases hfraction
        | some digits =>
          rcases List.mem_cons.1 hfraction with rfl | hdecimal
          · decide
          · exact hdigit c (hpart.decimals c hdecimal)
    · cases unit <;> simp [TimeUnit.spelling] at hunit <;> omega

def unitsOf (text : List Char) : Codes := (Unicode.utf16 text).map UInt16.toNat

theorem unitsOf_cons_small {c : Char} (h : c.toNat < 0x10000) (text : List Char) : unitsOf (c :: text) = c.toNat :: unitsOf text := by
  have hc : Unicode.unitsOf c = [c.toNat.toUInt16] := if_pos h
  unfold unitsOf Unicode.utf16
  rw [List.flatMap_cons, hc, List.singleton_append, List.map_cons, Unicode.toNat_toUInt16 h]

theorem unitsOf_cons_large {c : Char} (h : ¬ c.toNat < 0x10000) (text : List Char) :
    ∃ high rest, unitsOf (c :: text) = high :: rest ∧ 0xD800 ≤ high := by
  have hc : Unicode.unitsOf c = [(0xD800 + (c.toNat - 0x10000) / 0x400).toUInt16, (0xDC00 + (c.toNat - 0x10000) % 0x400).toUInt16] :=
    if_neg h
  have hscalar := Unicode.toNat_scalar c
  unfold unitsOf Unicode.utf16
  rw [List.flatMap_cons, hc]
  refine ⟨_, _, rfl, ?_⟩
  rw [Unicode.toNat_toUInt16 (by omega)]
  omega

/-- Below the surrogates, the units of a text are its code points. -/
theorem unitsOf_eq : ∀ {text : List Char} {codes : Codes}, (∀ c ∈ codes, c < 0xD800) →
    (unitsOf text = codes ↔ Unicode.codePoints text = codes)
  | [], _, _ => Iff.rfl
  | c :: text, codes, h => by
    have hcodePoints : Unicode.codePoints (c :: text) = c.toNat :: Unicode.codePoints text := rfl
    rw [hcodePoints]
    by_cases hc : c.toNat < 0x10000
    · rw [unitsOf_cons_small hc]
      cases codes with
      | nil => exact ⟨fun hnil => (by cases hnil), fun hnil => (by cases hnil)⟩
      | cons d codes =>
        rw [List.cons.injEq, List.cons.injEq, unitsOf_eq fun e he => h e (List.mem_cons_of_mem d he)]
    · obtain ⟨high, rest, hunits, hhigh⟩ := unitsOf_cons_large hc text
      rw [hunits]
      constructor
      · rintro rfl
        exact absurd (h high List.mem_cons_self) (Nat.not_lt.2 hhigh)
      · rintro rfl
        exact absurd (h c.toNat List.mem_cons_self) (by omega)

theorem codePoints_ofNat {codes : Codes} (h : ∀ c ∈ codes, c < 0xD800) : Unicode.codePoints (codes.map Char.ofNat) = codes := by
  unfold Unicode.codePoints
  rw [List.map_map]
  refine (List.map_congr_left fun c hc => ?_).trans (List.map_id codes)
  have hvalid : c.isValidChar := .inl (h c hc)
  show (Char.ofNat c).toNat = c
  rw [Char.ofNat, dif_pos hvalid]
  rfl

theorem utf8_eq {text : List Char} {codes : Codes} (h : ∀ c ∈ codes, c < 0xD800) :
    Unicode.utf8 text = Go.bytesOf codes ↔ Unicode.codePoints text = codes := by
  constructor
  · intro hbytes
    rw [← codePoints_ofNat h, Go.bytesOf_codePoints] at hbytes
    rw [Unicode.utf8_injective hbytes, codePoints_ofNat h]
  · rintro rfl
    exact (Go.bytesOf_codePoints text).symm

/-! ## What Go counts -/

theorem addPart_le {d v unit n : Nat} {f : Go.Fraction} (h : Go.addPart d v unit f = some n) : n ≤ 2 ^ 63 := by
  unfold Go.addPart at h
  split at h
  · cases h
  · split at h
    · cases h
    · split at h
      · cases h
      next hle =>
        cases h
        exact Nat.not_lt.1 hle

theorem countParts_le : ∀ {parts : List Part} {d n : Nat}, d ≤ 2 ^ 63 → Go.countParts d parts = some n → n ≤ 2 ^ 63
  | [], d, n, hd, h => by
    cases h
    exact hd
  | p :: parts, d, n, hd, h => by
    rw [Go.countParts] at h
    split at h
    · cases h
    next m hm =>
      unfold Go.countPart at hm
      split at hm
      · cases hm
      · exact countParts_le (addPart_le hm) h

theorem magnitude_literal {l : Literal} (h : IsLiteral asciiDigits l) :
    (Go.bytesOf l.text).head? = some 0x2D ∧ l.isNegative = true ∧ Go.magnitude (Go.bytesOf l.text) = Go.bytesOf (partsText l.parts) ∨
      (Go.bytesOf l.text).head? ≠ some 0x2D ∧ l.isNegative = false ∧
        Go.magnitude (Go.bytesOf l.text) = Go.bytesOf (partsText l.parts) := by
  obtain ⟨sign, parts⟩ := l
  cases sign with
  | some negative =>
    cases negative
    · exact .inr ⟨(by intro hhead; cases hhead), rfl, rfl⟩
    · exact .inl ⟨rfl, rfl, rfl⟩
  | none =>
    have htext : Literal.text ⟨none, parts⟩ = partsText parts := rfl
    have hhead : ∀ b ∈ (Go.bytesOf (partsText parts)).head?, b ≠ 0x2D ∧ b ≠ 0x2B := by
      intro b hb
      have hin := Go.head_parts h b hb
      constructor
      · rintro rfl
        cases hin
      · rintro rfl
        cases hin
    rw [htext]
    refine .inr ⟨fun hminus => (hhead _ hminus).1 rfl, rfl, ?_⟩
    unfold Go.magnitude
    refine if_neg ?_
    rintro (hminus | hplus)
    · exact (hhead _ hminus).1 rfl
    · exact (hhead _ hplus).2 rfl

theorem bytesOf_inj {a b : Codes} (ha : ∀ c ∈ a, c < 0xD800) (hb : ∀ c ∈ b, c < 0xD800) (h : Go.bytesOf a = Go.bytesOf b) : a = b := by
  rw [← codePoints_ofNat ha, Go.bytesOf_codePoints, utf8_eq hb, codePoints_ofNat ha] at h
  exact h

theorem length_bytesOf : ∀ codes : Codes, codes.length ≤ (Go.bytesOf codes).length
  | [] => Nat.le_refl _
  | c :: codes => by
    have hc : 1 ≤ (Json.encodeRune c).length := by
      unfold Json.encodeRune
      split_ifs <;> exact Nat.succ_pos _
    have ih := length_bytesOf codes
    have hcons : Go.bytesOf (c :: codes) = Json.encodeRune c ++ Go.bytesOf codes := rfl
    rw [hcons, List.length_append, List.length_cons]
    omega

theorem length_partsText : ∀ parts : List Part, parts.length ≤ (partsText parts).length
  | [] => Nat.le_refl _
  | p :: parts => by
    have hp := List.length_pos_iff.2 (IsPart.text_ne_nil (p := p))
    have ih := length_partsText parts
    have hcons : partsText (p :: parts) = p.text ++ partsText parts := rfl
    rw [hcons, List.length_append, List.length_cons]
    omega

theorem small_parts {parts : List Part} (h : ∀ p ∈ parts, IsPart asciiDigits p) : ∀ c ∈ partsText parts, c < 0xD800 :=
  small_text (l := ⟨none, parts⟩) h

theorem partsText_ne_zero {parts : List Part} : partsText parts ≠ [0x30] := by
  intro h
  cases parts with
  | nil => cases h
  | cons p parts =>
    cases hunit : p.unit.spelling with
    | nil => exact p.unit.spelling_ne_nil hunit
    | cons c more =>
      have hspelling : c ∈ p.unit.spelling := by
        rw [hunit]
        exact List.mem_cons_self
      have hmem : c ∈ partsText (p :: parts) := List.mem_append_left _ (List.mem_append_right _ hspelling)
      rw [h, List.mem_singleton] at hmem
      have hnot := (asciiDigits.isDigit_spelling p.unit c hspelling).1
      rw [hmem] at hnot
      cases hnot

/-- **What Go makes of a literal.** -/
theorem go_literal {l : Literal} (h : IsLiteral asciiDigits l) (hne : l.parts ≠ []) :
    Go.parseDuration (Go.bytesOf l.text) =
      l.goCount.bind (fun d => if maximum l.isNegative < d then none else some (signed l.isNegative d)) := by
  have hcount : Go.parseParts ((Go.bytesOf (partsText l.parts)).length + 1) 0 (Go.bytesOf (partsText l.parts)) = l.goCount :=
    Go.parseParts_parts h (Nat.lt_succ_of_le (Nat.le_trans (length_partsText _) (length_bytesOf _)))
  have hzero : Go.bytesOf (partsText l.parts) ≠ [0x30] := fun heq =>
    partsText_ne_zero (bytesOf_inj (b := [0x30]) (small_parts h) (by decide) heq)
  have hnil : Go.bytesOf (partsText l.parts) ≠ [] := fun heq => by
    have hlength := length_partsText l.parts
    rw [bytesOf_inj (b := []) (small_parts h) (by decide) heq] at hlength
    exact hne (List.length_eq_zero_iff.1 (Nat.le_zero.1 hlength))
  unfold Go.parseDuration
  rcases magnitude_literal h with ⟨hhead, hnegative, hmagnitude⟩ | ⟨hhead, hnegative, hmagnitude⟩
  · rw [hmagnitude, if_neg hzero, if_neg hnil, hcount, hnegative]
    cases hgo : l.goCount with
    | none => rfl
    | some d =>
      have hle : d ≤ 2 ^ 63 := countParts_le (Nat.zero_le _) hgo
      dsimp only [Option.bind_some]
      rw [if_pos hhead, if_neg (show ¬ maximum true < d from Nat.not_lt.2 hle)]
      rfl
  · rw [hmagnitude, if_neg hzero, if_neg hnil, hcount, hnegative]
    cases l.goCount with
    | none => rfl
    | some d =>
      dsimp only [Option.bind_some]
      rw [if_neg hhead]
      rfl

/-- **What Go accepts** is a literal with parts, or a bare zero. -/
theorem go_some {text : List Char} {m : Int} (h : Go.parseDuration (Unicode.utf8 text) = some m) :
    Special (Unicode.codePoints text) ∨
      ∃ l, IsLiteral asciiDigits l ∧ l.parts ≠ [] ∧ Unicode.codePoints text = l.text := by
  have hsign : ∃ sign, Unicode.utf8 text = Go.bytesOf (signText sign) ++ Go.magnitude (Unicode.utf8 text) := by
    unfold Go.magnitude
    cases Unicode.utf8 text with
    | nil => exact ⟨none, rfl⟩
    | cons c rest =>
      by_cases hminus : c = 0x2D
      · exact ⟨some true, by rw [hminus]; rfl⟩
      · by_cases hplus : c = 0x2B
        · exact ⟨some false, by rw [hplus]; rfl⟩
        · exact ⟨none, by simp [hplus, hminus, signText, Go.bytesOf]⟩
  obtain ⟨sign, hsign⟩ := hsign
  have hsmall : ∀ c ∈ signText sign, c < 0xD800 := by
    cases sign with
    | none => exact fun c hc => (by cases hc)
    | some negative => cases negative <;> exact fun c hc => by rw [List.mem_singleton.1 hc]; decide
  unfold Go.parseDuration at h
  split at h
  next hzero =>
    rw [hzero, show ([0x30] : Bytes) = Go.bytesOf [0x30] from rfl, ← Go.bytesOf_append, utf8_eq (fun c hc =>
      (List.mem_append.1 hc).elim (hsmall c) fun hc => by rw [List.mem_singleton.1 hc]; decide)] at hsign
    refine .inl (.inr ?_)
    rw [hsign]
    cases sign with
    | none => decide
    | some negative => cases negative <;> decide
  next =>
    split at h
    · cases h
    next hnil =>
      split at h
      · cases h
      next d hparse =>
        obtain ⟨parts, hparts, hmagnitude⟩ := Go.parts_of_parseParts hparse
        have hl : IsLiteral asciiDigits ⟨sign, parts⟩ := hparts
        rw [hmagnitude, ← Go.bytesOf_append] at hsign
        refine .inr ⟨⟨sign, parts⟩, hl, ?_, (utf8_eq (small_text hl)).1 hsign⟩
        rintro rfl
        exact hnil hmagnitude

/-! ## Agreement -/

/-- A text as Go takes it, where an empty one stands for no duration. -/
def expected (text : List Char) : Option Int := if text = [] then some 0 else Go.parseDuration (Unicode.utf8 text)

/-- **Python and TypeScript accept what Go accepts, and count the same nanoseconds**; Python cuts them to microseconds. -/
structure Agrees (t : DigitTable) (limit : Nat) (text : List Char) : Prop where
  python     : Python.parseDuration t limit (Unicode.codePoints text) = (expected text).map (·.tdiv 1000)
  typeScript : TypeScript.parseDurationNanoseconds (unitsOf text) = expected text

/-- **When a literal is counted alike**: it has parts and ASCII digits only, unless Python refuses it for its length or its amount;
what the arithmetic of Go takes is the exact amount, not zero, and not too long for Python; what it does not take is too large. -/
structure Alike (t : DigitTable) (limit : Nat) (l : Literal) : Prop where
  accepted : l.InRange t → l.Readable limit → l.parts ≠ [] ∧ l.IsAscii
  counted  : l.parts ≠ [] → l.IsAscii → ∀ d, l.goCount = some d → d ≤ maximum l.isNegative →
    d = l.nanoseconds t ∧ d ≠ 0 ∧ l.Readable limit
  refused  : l.parts ≠ [] → l.IsAscii → (∀ d, l.goCount = some d → maximum l.isNegative < d) → l.InRange t →
    l.nanoseconds t = 0 ∧ ¬ l.Readable limit

/-- Whatever a text reads as is counted alike. -/
def Portable (t : DigitTable) (limit : Nat) (text : List Char) : Prop :=
  ¬ Special (Unicode.codePoints text) → ∀ l, IsLiteral t l → Unicode.codePoints text = l.text → Alike t limit l

section

variable {t : DigitTable} {limit : Nat} {text : List Char}

theorem number_ascii {digits : Codes} (h : ∀ c ∈ digits, c < 128) : t.number digits = asciiDigits.number digits := by
  unfold DigitTable.number
  refine List.foldl_ext _ _ _ fun n c hc => ?_
  rw [t.ascii c (h c hc), asciiDigits.ascii c (h c hc)]

theorem nanoseconds_ascii {l : Literal} (h : l.IsAscii) : l.nanoseconds asciiDigits = l.nanoseconds t := by
  refine congrArg List.sum (List.map_congr_left fun p hp => ?_)
  unfold Part.nanoseconds
  rw [number_ascii (t := t) (h p hp).1, number_ascii (t := t) (h p hp).2]

theorem isDigit_table {c : Nat} (h : c < 128) : t.isDigit c = asciiDigits.isDigit c := by
  rw [t.isDigit_ascii h, asciiDigits.isDigit_ascii h]

theorem isLiteral_ascii {l : Literal} (h : IsLiteral t l) (hascii : l.IsAscii) : IsLiteral asciiDigits l := by
  intro p hp
  have hpart := h p hp
  obtain ⟨hwhole, hdecimals⟩ := hascii p hp
  exact ⟨fun c hc => by rw [← isDigit_table (hwhole c hc)]; exact hpart.whole c hc,
    fun c hc => by rw [← isDigit_table (hdecimals c hc)]; exact hpart.decimals c hc, hpart.digits⟩

theorem ascii_isLiteral {l : Literal} (h : IsLiteral asciiDigits l) : IsLiteral t l ∧ l.IsAscii := by
  have hascii : l.IsAscii := fun p hp =>
    ⟨fun c hc => (Go.digit_code ((h p hp).whole c hc)).1, fun c hc => (Go.digit_code ((h p hp).decimals c hc)).1⟩
  refine ⟨fun p hp => ?_, hascii⟩
  obtain ⟨hwhole, hdecimals⟩ := hascii p hp
  exact ⟨fun c hc => by rw [isDigit_table (hwhole c hc)]; exact (h p hp).whole c hc,
    fun c hc => by rw [isDigit_table (hdecimals c hc)]; exact (h p hp).decimals c hc, (h p hp).digits⟩

theorem signed_inj {negative : Bool} {m n : Nat} : signed negative m = signed negative n ↔ m = n := by
  cases negative <;> simp [signed]

theorem signed_tdiv (negative : Bool) (n : Nat) : (signed negative n).tdiv 1000 = signed negative (n / 1000) := by
  cases negative with
  | false => rfl
  | true => exact Int.neg_tdiv n 1000

theorem expected_eq (hspecial : ¬ Special (Unicode.codePoints text)) : expected text = Go.parseDuration (Unicode.utf8 text) :=
  if_neg fun hnil => hspecial (.inl (by rw [hnil]; rfl))

theorem special_units (h : Special (unitsOf text)) : Special (Unicode.codePoints text) := by
  have hzeros : ∀ z ∈ zeros, ∀ c ∈ z, c < 0xD800 := by decide
  rcases h with hnil | hzero
  · exact .inl ((unitsOf_eq (by decide)).1 hnil)
  · exact .inr (((unitsOf_eq (hzeros _ hzero)).1 rfl).symm ▸ hzero)

theorem agrees_special (h : Special (Unicode.codePoints text)) : Agrees t limit text := by
  rcases h with hnil | hzero
  · have htext : text = [] := List.map_eq_nil_iff.1 hnil
    subst htext
    exact ⟨rfl, rfl⟩
  · have hcodes : ∀ c ∈ Unicode.codePoints text, c < 0xD800 := by
      have hzeros : ∀ z ∈ zeros, ∀ c ∈ z, c < 0xD800 := by decide
      exact hzeros _ hzero
    have hnil : Unicode.codePoints text ≠ [] := by
      intro hnil
      rw [hnil] at hzero
      exact absurd hzero (by decide)
    have hunits := (unitsOf_eq hcodes).2 rfl
    have hbytes := (utf8_eq hcodes).2 rfl
    have hexpected : expected text = some 0 := by
      unfold expected
      rw [hbytes]
      rcases List.mem_cons.1 hzero with hz | hzero
      · rw [hz, if_neg (by rintro rfl; cases hz)]
        rfl
      · rcases List.mem_cons.1 hzero with hz | hzero
        · rw [hz, if_neg (by rintro rfl; cases hz)]
          rfl
        · rw [List.mem_singleton.1 hzero, if_neg (by rintro rfl; cases List.mem_singleton.1 hzero)]
          rfl
    constructor
    · rw [hexpected]
      unfold Python.parseDuration
      rw [if_neg hnil, if_pos hzero]
      rfl
    · rw [hexpected, hunits]
      unfold TypeScript.parseDurationNanoseconds
      rw [if_neg hnil, if_pos hzero]

/-- **A text reads in one way.** -/
theorem literal_injective {l l' : Literal} (hl : IsLiteral t l) (hl' : IsLiteral t l') (h : l.text = l'.text) : l = l' := by
  have htext := (literal_text hl).2
  rw [h, (literal_text hl').2] at htext
  have hparts := partsText_injective hl' hl htext
  obtain ⟨sign, parts⟩ := l
  obtain ⟨sign', parts'⟩ := l'
  cases hparts
  have hsign : signText sign = signText sign' := List.append_cancel_right h
  rcases sign with _ | _ | _ <;> rcases sign' with _ | _ | _ <;> first | rfl | cases hsign

/-- A literal without parts, or with other digits: only Python may accept it. -/
theorem agrees_other {l : Literal} (hl : IsLiteral t l) (htext : Unicode.codePoints text = l.text)
    (hspecial : ¬ Special (Unicode.codePoints text)) (hother : ¬ (l.parts ≠ [] ∧ l.IsAscii)) :
    Agrees t limit text ↔ ¬ (l.InRange t ∧ l.Readable limit) := by
  have hsame : ∀ l', IsLiteral asciiDigits l' → l'.parts ≠ [] → Unicode.codePoints text ≠ l'.text := by
    intro l' hl' hne htext'
    obtain ⟨hliteral, hascii⟩ := ascii_isLiteral (t := t) hl'
    rw [literal_injective hl hliteral (htext.symm.trans htext')] at hother
    exact hother ⟨hne, hascii⟩
  have hexpected : expected text = none := by
    rw [expected_eq hspecial, Option.eq_none_iff_forall_ne_some]
    intro m hm
    obtain ⟨l', hl', hne, htext'⟩ := (go_some hm).resolve_left hspecial
    exact hsame l' hl' hne htext'
  have htypeScript : TypeScript.parseDurationNanoseconds (unitsOf text) = none := by
    rw [Option.eq_none_iff_forall_ne_some]
    intro m hm
    have hunits : ¬ Special (unitsOf text) := fun h => hspecial (special_units h)
    obtain ⟨l', hl', htext'⟩ := typeScript_literal hunits hm
    rw [htext'] at hm hunits
    have hne := ((typeScript_eq_some hl' hunits).1 hm).1
    refine hsame l' hl' ?_ ((unitsOf_eq (small_text hl')).1 htext')
    intro hnil
    refine hne ?_
    unfold Literal.nanoseconds
    rw [hnil]
    rfl
  have hspecial' : ¬ Special l.text := by
    rw [← htext]
    exact hspecial
  have hpython : ∀ m, Python.parseDuration t limit l.text = some m ↔
      l.Readable limit ∧ l.InRange t ∧ m = signed l.isNegative (l.nanoseconds t / 1000) := fun m => python_eq_some hl hspecial'
  constructor
  · rintro ⟨hnone, -⟩ ⟨hrange, hreadable⟩
    rw [hexpected, htext, (hpython _).2 ⟨hreadable, hrange, rfl⟩] at hnone
    cases hnone
  · intro hnot
    refine ⟨?_, by rw [htypeScript, hexpected]⟩
    rw [hexpected, htext, Option.map_none, Option.eq_none_iff_forall_ne_some]
    intro m hm
    obtain ⟨hreadable, hrange, -⟩ := (hpython m).1 hm
    exact hnot ⟨hrange, hreadable⟩

/-- A literal of Go's grammar. -/
theorem agrees_literal {l : Literal} (hl : IsLiteral t l) (htext : Unicode.codePoints text = l.text)
    (hspecial : ¬ Special (Unicode.codePoints text)) (hne : l.parts ≠ []) (hascii : l.IsAscii) :
    Agrees t limit text ↔ Alike t limit l := by
  have hl' := isLiteral_ascii hl hascii
  have hsmall := small_text hl'
  have hspecial' : ¬ Special l.text := by
    rw [← htext]
    exact hspecial
  have hpython : ∀ m, Python.parseDuration t limit l.text = some m ↔
      l.Readable limit ∧ l.InRange t ∧ m = signed l.isNegative (l.nanoseconds t / 1000) := fun m => python_eq_some hl hspecial'
  have htypeScript := fun m => typeScript_eq_some (m := m) hl' hspecial'
  have hunits : unitsOf text = l.text := (unitsOf_eq hsmall).2 htext
  have hexpected : expected text =
      l.goCount.bind (fun d => if maximum l.isNegative < d then none else some (signed l.isNegative d)) := by
    rw [expected_eq hspecial, (utf8_eq hsmall).2 htext, go_literal hl' hne]
  unfold Literal.InRange at hpython htypeScript
  rw [nanoseconds_ascii (t := t) hascii] at htypeScript
  by_cases hgo : ∃ d, l.goCount = some d ∧ d ≤ maximum l.isNegative
  · obtain ⟨d, hd, hrange⟩ := hgo
    have hsome : expected text = some (signed l.isNegative d) := by
      rw [hexpected, hd, Option.bind_some, if_neg (Nat.not_lt.2 hrange)]
    constructor
    · rintro ⟨hpy, hts⟩
      rw [hsome, hunits, htypeScript, signed_inj] at hts
      rw [hsome, htext, Option.map_some, hpython] at hpy
      refine ⟨fun _ _ => ⟨hne, hascii⟩, fun _ _ d' hd' _ => ?_, fun _ _ hall _ => absurd (hall d hd) (Nat.not_lt.2 hrange)⟩
      rw [hd] at hd'
      cases hd'
      exact ⟨hts.2.2, by rw [hts.2.2]; exact hts.1, hpy.1⟩
    · intro halike
      obtain ⟨heq, hzero, hreadable⟩ := halike.counted hne hascii d hd hrange
      rw [heq] at hrange hzero
      constructor
      · rw [hsome, htext, Option.map_some, hpython, signed_tdiv, heq]
        exact ⟨hreadable, hrange, rfl⟩
      · rw [hsome, hunits, htypeScript, heq]
        exact ⟨hzero, hrange, rfl⟩
  · have hall : ∀ d, l.goCount = some d → maximum l.isNegative < d := fun d hd => Nat.not_le.1 fun hle => hgo ⟨d, hd, hle⟩
    have hnone : expected text = none := by
      rw [hexpected]
      cases hd : l.goCount with
      | none => rfl
      | some d => exact if_pos (hall d hd)
    constructor
    · rintro ⟨hpy, hts⟩
      rw [hnone, hunits] at hts
      rw [hnone, htext, Option.map_none] at hpy
      refine ⟨fun _ _ => ⟨hne, hascii⟩, fun _ _ d hd hle => absurd hle (Nat.not_le.2 (hall d hd)), fun _ _ _ hrange => ⟨?_, ?_⟩⟩
      · by_contra hzero
        rw [(htypeScript _).2 ⟨hzero, hrange, rfl⟩] at hts
        cases hts
      · intro hreadable
        rw [(hpython _).2 ⟨hreadable, hrange, rfl⟩] at hpy
        cases hpy
    · intro halike
      have hrefused := halike.refused hne hascii hall
      constructor
      · rw [hnone, htext, Option.map_none, Option.eq_none_iff_forall_ne_some]
        intro m hm
        obtain ⟨hreadable, hrange, -⟩ := (hpython m).1 hm
        exact (hrefused hrange).2 hreadable
      · rw [hnone, hunits, Option.eq_none_iff_forall_ne_some]
        intro m hm
        obtain ⟨hzero, hrange, -⟩ := (htypeScript m).1 hm
        exact hzero (hrefused hrange).1

/-- What is not a literal is refused by all three. -/
theorem agrees_refused (hspecial : ¬ Special (Unicode.codePoints text))
    (h : ¬ ∃ l, IsLiteral t l ∧ Unicode.codePoints text = l.text) : Agrees t limit text := by
  have hascii : ∀ l, IsLiteral asciiDigits l → Unicode.codePoints text ≠ l.text := fun l hl htext => h ⟨l, (ascii_isLiteral hl).1, htext⟩
  have hexpected : expected text = none := by
    rw [expected_eq hspecial, Option.eq_none_iff_forall_ne_some]
    intro m hm
    obtain ⟨l, hl, -, htext⟩ := (go_some hm).resolve_left hspecial
    exact hascii l hl htext
  rw [← Option.map_eq_none_iff (f := fun m : Int => m.tdiv 1000)] at hexpected
  constructor
  · rw [hexpected, Option.eq_none_iff_forall_ne_some]
    intro m hm
    exact h (python_literal hspecial hm)
  · rw [Option.map_eq_none_iff.1 hexpected, Option.eq_none_iff_forall_ne_some]
    intro m hm
    obtain ⟨l, hl, htext⟩ := typeScript_literal (fun hunits => hspecial (special_units hunits)) hm
    exact hascii l hl ((unitsOf_eq (small_text hl)).1 htext)

end

/-- **The SDKs agree with Go on a text exactly when what it reads as is counted alike.** -/
theorem agrees_iff (t : DigitTable) (limit : Nat) (text : List Char) : Agrees t limit text ↔ Portable t limit text := by
  by_cases hspecial : Special (Unicode.codePoints text)
  · exact ⟨fun _ hnot => absurd hspecial hnot, fun _ => agrees_special hspecial⟩
  · by_cases hliteral : ∃ l, IsLiteral t l ∧ Unicode.codePoints text = l.text
    · obtain ⟨l, hl, htext⟩ := hliteral
      have hone : Agrees t limit text ↔ Alike t limit l := by
        by_cases hgo : l.parts ≠ [] ∧ l.IsAscii
        · exact agrees_literal hl htext hspecial hgo.1 hgo.2
        · rw [agrees_other hl htext hspecial hgo]
          constructor
          · exact fun hnot => ⟨fun hrange hreadable => absurd ⟨hrange, hreadable⟩ hnot,
              fun hne hascii => absurd ⟨hne, hascii⟩ hgo, fun hne hascii => absurd ⟨hne, hascii⟩ hgo⟩
          · exact fun halike hboth => hgo (halike.accepted hboth.1 hboth.2)
      rw [hone]
      constructor
      · intro halike _ l' hl' htext'
        rw [← literal_injective hl hl' (htext.symm.trans htext')]
        exact halike
      · exact fun hportable => hportable hspecial l hl htext
    · exact ⟨fun _ _ l hl htext => absurd ⟨l, hl, htext⟩ hliteral, fun _ => agrees_refused hspecial hliteral⟩

/-- A sign alone, which Python takes for zero, and a zero with a unit, which TypeScript refuses. -/
theorem edges_disagree : ¬ Agrees asciiDigits 4300 ['+'] ∧ ¬ Agrees asciiDigits 4300 ['0', 's'] := by
  constructor
  · intro h
    have hpython : Python.parseDuration asciiDigits 4300 (Unicode.codePoints ['+']) = some 0 := rfl
    have hgo : expected ['+'] = none := rfl
    have heq := h.python
    rw [hpython, hgo] at heq
    cases heq
  · intro h
    have hliteral : IsLiteral asciiDigits ⟨none, [⟨[0x30], none, .s⟩]⟩ := by
      intro p hp
      rw [List.mem_singleton.1 hp]
      exact ⟨fun c hc => (by rw [List.mem_singleton.1 hc]; rfl), fun c hc => (by cases hc), .inl (List.cons_ne_nil _ _)⟩
    have hspecial : ¬ Special [0x30, 0x73] := by
      rintro (hnil | hzero)
      · cases hnil
      · exact absurd hzero (by decide)
    have htypeScript : TypeScript.parseDurationNanoseconds (unitsOf ['0', 's']) = none := by
      rw [Option.eq_none_iff_forall_ne_some]
      exact fun m hm => ((typeScript_eq_some hliteral hspecial).1 hm).1 rfl
    have hcount : Go.countParts 0 [⟨[0x30], none, .s⟩] = some 0 := by
      have hadd : Go.addPart 0 0 1000000000 {} = some 0 := by
        unfold Go.addPart Go.addFraction
        simp
      unfold Go.countParts
      rw [show Go.countPart 0 ⟨[0x30], none, .s⟩ = Go.addPart 0 0 1000000000 {} from rfl, hadd]
      rfl
    have hgo : expected ['0', 's'] = some 0 := by
      have hgo := go_literal hliteral (List.cons_ne_nil _ _)
      unfold Literal.goCount at hgo
      rw [hcount, Option.bind_some, if_neg (Nat.not_lt_zero _)] at hgo
      exact (@expected_eq ['0', 's'] hspecial).trans hgo
    have heq := h.typeScript
    rw [htypeScript, hgo] at heq
    cases heq

end Durations
end Dex
