import DexConnectors.DurationAgree
/-!
# DurationExact — durations that Go counts without rounding

A fraction with no more digits than its unit has zeros is a whole number of nanoseconds, and 53 bits hold everything that Go computes
of it.  Literals of such parts mean the same in the three languages.
-/
namespace Dex
namespace Durations

open Lib Lib.Utf8

/-- How many digits of a fraction come out whole. -/
def TimeUnit.places : TimeUnit → Nat
  | .ns => 0
  | .us | .micro | .mu => 3
  | .ms => 6
  | .s => 9
  | .m => 10
  | .h => 11

/-- Every fraction is a whole number of nanoseconds. -/
def Literal.Short (l : Literal) : Prop := ∀ p ∈ l.parts, p.decimals.length ≤ p.unit.places

theorem places_le (u : TimeUnit) : u.places ≤ 11 := by
  cases u <;> decide

theorem pow_dvd_unit {u : TimeUnit} {n : Nat} (h : n ≤ u.places) : 10 ^ n ∣ u.nanoseconds := by
  refine Nat.dvd_trans (Nat.pow_dvd_pow 10 h) ?_
  cases u <;> decide

theorem unit_pos (u : TimeUnit) : 0 < u.nanoseconds := by
  cases u <;> decide

theorem unit_small (u : TimeUnit) : u.nanoseconds < 2 ^ 53 := by
  cases u <;> decide

/-! ## Digits -/

/-- The value of a digit. -/
theorem digit_value {c : Nat} (h : asciiDigits.isDigit c = true) :
    (asciiDigits.value c).getD 0 = c.toUInt8.toNat - 0x30 ∧ c.toUInt8.toNat - 0x30 < 10 := by
  have hsmall := (Go.digit_code h).1
  rw [Go.asciiDigits_isDigit, Bool.and_eq_true, decide_eq_true_iff, decide_eq_true_iff] at h
  rw [Unicode.toNat_toUInt8 (by omega), asciiDigits.ascii c hsmall, if_pos h]
  exact ⟨rfl, by omega⟩

theorem le_number : ∀ (digits : Codes) (x : Nat), x ≤ digits.foldl (fun n c => n * 10 + (asciiDigits.value c).getD 0) x
  | [], x => Nat.le_refl x
  | c :: digits, x => by
    have ih := le_number digits (x * 10 + (asciiDigits.value c).getD 0)
    rw [List.foldl_cons]
    omega

/-- **A number that 64 bits hold** is read as it is. -/
theorem leadingInt_number : ∀ {digits : Codes} {x : Nat}, (∀ c ∈ digits, asciiDigits.isDigit c = true) →
    digits.foldl (fun n c => n * 10 + (asciiDigits.value c).getD 0) x ≤ 2 ^ 63 →
    Go.leadingInt x (digits.map Nat.toUInt8) = some (digits.foldl (fun n c => n * 10 + (asciiDigits.value c).getD 0) x, [])
  | [], _, _, _ => rfl
  | c :: digits, x, h, hmax => by
    have hc := h c List.mem_cons_self
    obtain ⟨hvalue, -⟩ := digit_value hc
    have hle := le_number digits (x * 10 + (asciiDigits.value c).getD 0)
    rw [List.foldl_cons] at hmax
    rw [List.map_cons, Go.leadingInt, if_pos (Go.digit_code hc).2, ← hvalue, if_neg (by omega), if_neg (by omega), List.foldl_cons]
    exact leadingInt_number (fun d hd => h d (List.mem_cons_of_mem c hd)) hmax

theorem wholeValue_number {digits : Codes} (h : ∀ c ∈ digits, asciiDigits.isDigit c = true) (hmax : asciiDigits.number digits ≤ 2 ^ 63) :
    Go.wholeValue (Go.bytesOf digits) = some (asciiDigits.number digits) := by
  unfold Go.wholeValue
  rw [(Go.digits_bytes h).1, leadingInt_number h hmax]
  rfl

/-- The digits of a short fraction, with room for the rest. -/
theorem addDigits : ∀ {digits : Codes} {x k : Nat}, (∀ c ∈ digits, asciiDigits.isDigit c = true) → x < 10 ^ k →
    k + digits.length ≤ 11 → (digits.map Nat.toUInt8).foldl Go.Fraction.add ⟨x, (10 ^ k : Nat), false⟩ =
      ⟨digits.foldl (fun n c => n * 10 + (asciiDigits.value c).getD 0) x, (10 ^ (k + digits.length) : Nat), false⟩ ∧
      digits.foldl (fun n c => n * 10 + (asciiDigits.value c).getD 0) x < 10 ^ (k + digits.length)
  | [], _, _, _, hx, _ => ⟨rfl, hx⟩
  | c :: digits, x, k, h, hx, hk => by
    rw [List.length_cons] at hk
    obtain ⟨hvalue, hten⟩ := digit_value (h c List.mem_cons_self)
    have hpow : 10 ^ (k + 1) ≤ 10 ^ 11 := Nat.pow_le_pow_right (by decide) (by omega)
    have hnext : x * 10 + (asciiDigits.value c).getD 0 < 10 ^ (k + 1) := by
      rw [hvalue, Nat.pow_succ]
      omega
    have hscale : Binary64.mul ((10 ^ k : Nat) : Rat) 10 = ((10 ^ (k + 1) : Nat) : Rat) := by
      have hexact := Binary64.mul_exact (a := 10 ^ k) (b := 10) (by rw [← Nat.pow_succ]; omega)
      rw [Nat.pow_succ]
      exact_mod_cast hexact
    have hadd : Go.Fraction.add ⟨x, (10 ^ k : Nat), false⟩ c.toUInt8 =
        ⟨x * 10 + (asciiDigits.value c).getD 0, (10 ^ (k + 1) : Nat), false⟩ := by
      unfold Go.Fraction.add
      rw [← hvalue, if_neg Bool.false_ne_true, if_neg (by dsimp only; omega), if_neg (by dsimp only; omega)]
      dsimp only
      rw [hscale]
    have ih := addDigits (fun d hd => h d (List.mem_cons_of_mem c hd)) hnext (by omega)
    rw [List.map_cons, List.foldl_cons, List.foldl_cons, hadd, List.length_cons, show k + (digits.length + 1) = k + 1 + digits.length from by omega]
    exact ih

theorem fractionValue_number {digits : Codes} (h : ∀ c ∈ digits, asciiDigits.isDigit c = true) (hlength : digits.length ≤ 11) :
    Go.fractionValue (Go.bytesOf digits) = ⟨asciiDigits.number digits, (10 ^ digits.length : Nat), false⟩ ∧
      asciiDigits.number digits < 10 ^ digits.length := by
  have hdigits := addDigits (x := 0) (k := 0) h (by decide) (by omega)
  have hstart : ({} : Go.Fraction) = ⟨0, ((10 ^ 0 : Nat) : Rat), false⟩ := by simp
  rw [Nat.zero_add] at hdigits
  unfold Go.fractionValue
  rw [(Go.digits_bytes h).1, hstart]
  exact hdigits

/-! ## Parts -/

/-- **A short fraction is multiplied without rounding.** -/
theorem trunc_fraction {f k unit : Nat} (hf : f < 10 ^ k) (hdvd : 10 ^ k ∣ unit) (hne : 0 < unit) (hunit : unit < 2 ^ 53) :
    Binary64.trunc (Binary64.mul (Binary64.ofNat f) (Binary64.div unit ((10 ^ k : Nat) : Rat))) = f * unit / 10 ^ k := by
  obtain ⟨c, rfl⟩ := hdvd
  have hpos : 0 < 10 ^ k := Nat.pow_pos (by decide)
  have hproduct : f * c ≤ 10 ^ k * c := Nat.mul_le_mul_right c (Nat.le_of_lt hf)
  have hdiv : Binary64.div ((10 ^ k * c : Nat) : Rat) ((10 ^ k : Nat) : Rat) = (c : Rat) := by
    rw [Binary64.div_exact (Nat.pos_iff_ne_zero.1 hpos) (Nat.dvd_mul_right _ _) hunit, Nat.mul_div_cancel_left c hpos]
  have hc : 0 < c := Nat.pos_of_mul_pos_left hne
  have hofNat : Binary64.ofNat f = (f : Rat) :=
    Binary64.ofNat_exact (Nat.lt_of_lt_of_le hf (Nat.le_trans (Nat.le_mul_of_pos_right _ hc) (Nat.le_of_lt hunit)))
  rw [hdiv, hofNat, Binary64.mul_exact (by omega), Binary64.trunc_natCast, Nat.mul_left_comm,
    Nat.mul_div_cancel_left _ hpos]

theorem countPart_exact {d : Nat} {p : Part} (hp : IsPart asciiDigits p) (hshort : p.decimals.length ≤ p.unit.places)
    (hmax : d + p.nanoseconds asciiDigits ≤ 2 ^ 63) : Go.countPart d p = some (d + p.nanoseconds asciiDigits) := by
  have hunit := unit_pos p.unit
  obtain ⟨hfraction, hbelow⟩ := fractionValue_number hp.decimals (Nat.le_trans hshort (places_le p.unit))
  have htrunc := trunc_fraction hbelow (pow_dvd_unit hshort) hunit (unit_small p.unit)
  have hwhole : asciiDigits.number p.whole * p.unit.nanoseconds ≤ p.nanoseconds asciiDigits := Nat.le_add_right _ _
  have hnumber : asciiDigits.number p.whole ≤ asciiDigits.number p.whole * p.unit.nanoseconds := Nat.le_mul_of_pos_right _ hunit
  have hadd : Go.addFraction (asciiDigits.number p.whole * p.unit.nanoseconds) p.unit.nanoseconds
      ⟨asciiDigits.number p.decimals, ((10 ^ p.decimals.length : Nat) : Rat), false⟩ = p.nanoseconds asciiDigits := by
    unfold Go.addFraction Part.nanoseconds at *
    dsimp only
    by_cases hzero : 0 < asciiDigits.number p.decimals
    · rw [if_pos hzero, htrunc, Nat.mod_eq_of_lt (by omega)]
    · rw [if_neg hzero, Nat.eq_zero_of_not_pos hzero, Nat.zero_mul, Nat.zero_div, Nat.add_zero]
  unfold Go.countPart
  rw [wholeValue_number hp.whole (by omega), hfraction]
  dsimp only
  unfold Go.addPart
  rw [hadd, if_neg (Nat.not_lt.2 ((Nat.le_div_iff_mul_le hunit).2 (by omega))), if_neg (by omega), Nat.mod_eq_of_lt (by omega),
    if_neg (by omega)]

theorem countParts_exact : ∀ {parts : List Part} {d : Nat}, (∀ p ∈ parts, IsPart asciiDigits p) →
    (∀ p ∈ parts, p.decimals.length ≤ p.unit.places) → d + (parts.map (Part.nanoseconds asciiDigits)).sum ≤ 2 ^ 63 →
    Go.countParts d parts = some (d + (parts.map (Part.nanoseconds asciiDigits)).sum)
  | [], _, _, _, _ => rfl
  | p :: parts, d, hparts, hshort, hmax => by
    rw [List.map_cons, List.sum_cons] at hmax ⊢
    rw [Go.countParts, countPart_exact (hparts p List.mem_cons_self) (hshort p List.mem_cons_self) (by omega)]
    dsimp only
    rw [countParts_exact (fun q hq => hparts q (List.mem_cons_of_mem p hq)) (fun q hq => hshort q (List.mem_cons_of_mem p hq))
      (by omega), Nat.add_assoc]

/-- A part is neither empty nor a bare zero. -/
theorem not_special {l : Literal} (hl : IsLiteral asciiDigits l) (hne : l.parts ≠ []) : ¬ Special l.text := by
  have hmagnitude := (literal_text hl).2
  rintro (hnil | hzero)
  · rw [hnil] at hmagnitude
    have hlength := length_partsText l.parts
    rw [← hmagnitude] at hlength
    exact hne (List.length_eq_zero_iff.1 (Nat.le_zero.1 hlength))
  · have hzeros : ∀ z ∈ zeros, magnitudeOf z = [0x30] := by decide
    rw [hzeros _ hzero] at hmagnitude
    exact partsText_ne_zero hmagnitude.symm

/-- **Durations with short fractions mean the same in every SDK**: the exact amount, when it is not zero, fits 64 bits and is not too
long for Python. -/
theorem short_durations_agree (t : DigitTable) (limit : Nat) (text : List Char) (l : Literal) (hl : IsLiteral asciiDigits l)
    (htext : Unicode.codePoints text = l.text) (hshort : l.Short) (hreadable : l.Readable limit)
    (hzero : l.nanoseconds asciiDigits ≠ 0) (hrange : l.InRange asciiDigits) :
    Python.parseDuration t limit (Unicode.codePoints text) = some (signed l.isNegative (l.nanoseconds asciiDigits / 1000)) ∧
      TypeScript.parseDurationNanoseconds (unitsOf text) = some (signed l.isNegative (l.nanoseconds asciiDigits)) ∧
      Go.parseDuration (Unicode.utf8 text) = some (signed l.isNegative (l.nanoseconds asciiDigits)) := by
  obtain ⟨htable, hascii⟩ := ascii_isLiteral (t := t) hl
  have hsmall := small_text hl
  have hne : l.parts ≠ [] := by
    intro hnil
    refine hzero ?_
    unfold Literal.nanoseconds
    rw [hnil]
    rfl
  have hmax : l.nanoseconds asciiDigits ≤ 2 ^ 63 := by
    unfold Literal.InRange maximum at hrange
    split at hrange <;> omega
  have hspecial : ¬ Special l.text := not_special hl hne
  have hcount : l.goCount = some (l.nanoseconds asciiDigits) := by
    have hexact := countParts_exact (d := 0) hl hshort (by rw [Nat.zero_add]; exact hmax)
    rwa [Nat.zero_add] at hexact
  refine ⟨?_, ?_, ?_⟩
  · rw [htext, python_eq_some htable hspecial]
    unfold Literal.InRange at *
    rw [← nanoseconds_ascii hascii]
    exact ⟨hreadable, hrange, rfl⟩
  · rw [(unitsOf_eq hsmall).2 htext, typeScript_eq_some hl hspecial]
    exact ⟨hzero, hrange, rfl⟩
  · rw [(utf8_eq hsmall).2 htext, go_literal hl hne, hcount, Option.bind_some, if_neg (Nat.not_lt.2 hrange)]

theorem short_durations_agree_sample :
    Python.parseDuration asciiDigits 4300 (Unicode.codePoints ['1', '.', '5', 'h']) = some 5400000000 ∧
      TypeScript.parseDurationNanoseconds (unitsOf ['1', '.', '5', 'h']) = some 5400000000000 ∧
      Go.parseDuration (Unicode.utf8 ['1', '.', '5', 'h']) = some 5400000000000 := by
  have hone : ∀ {P : Part → Prop}, P ⟨[0x31], some [0x35], .h⟩ → ∀ p ∈ [(⟨[0x31], some [0x35], .h⟩ : Part)], P p := by
    intro P h p hp
    rwa [List.mem_singleton.1 hp]
  have hamount : Literal.nanoseconds asciiDigits ⟨none, [⟨[0x31], some [0x35], .h⟩]⟩ = 5400000000000 := rfl
  have hagree := short_durations_agree asciiDigits 4300 ['1', '.', '5', 'h'] ⟨none, [⟨[0x31], some [0x35], .h⟩]⟩
    (hone ⟨by decide, by decide, .inl (List.cons_ne_nil _ _)⟩) rfl (hone (by decide)) (hone fun _ => by decide)
    (by rw [hamount]; decide) (by unfold Literal.InRange; rw [hamount]; decide)
  rw [hamount] at hagree
  exact hagree

end Durations
end Dex
