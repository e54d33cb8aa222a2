import Mathlib.Data.Rat.Floor
import DexConnectors.LibJsonNumber
/-!
# LibDecimal — Python's `decimal`

A finite `Decimal` keeps the digits of its coefficient and an exponent.  `str` writes a small exponent out and moves the
point of any other number behind the first digit; what it writes is a number of LibJsonNumber with the same value.
-/
namespace Lib

open Utf8 Json Json.Literal

/-- A finite `Decimal`. -/
structure Decimal where
  negative  : Bool
  digits    : Bytes
  exponent  : Int
  isInteger : isInteger digits = true

namespace Decimal

/-- The coefficient of digits, without leading zeros. -/
def coefficient (digits : Bytes) : Bytes :=
  if digits.dropWhile (· == 0x30) = [] then [0x30] else digits.dropWhile (· == 0x30)

theorem isInteger_coefficient {digits : Bytes} (h : digits.all Json.isDigit = true) :
    Json.isInteger (coefficient digits) = true := by
  unfold coefficient
  split
  · rfl
  next hne =>
    cases hd : digits.dropWhile (· == 0x30) with
    | nil => exact absurd hd hne
    | cons b rest =>
      have hall : (b :: rest).all Json.isDigit = true := List.all_eq_true.2 (fun c hc =>
        List.all_eq_true.1 h c ((List.dropWhile_suffix _).subset (hd ▸ hc)))
      have hhead : (b == 0x30) = false := by
        have := List.head?_dropWhile_not (· == (0x30 : UInt8)) digits
        rw [hd] at this
        exact this
      rw [List.all_cons, Bool.and_eq_true] at hall
      rw [Json.isInteger, hall.1, hall.2, bne, hhead]
      rfl

def maxPrec : Nat := 999999999999999999

def maxEmax : Int := 999999999999999999

def minEtiny : Int := -1999999999999999997

theorem all_digits (l : Literal) : l.digits.all Json.isDigit = true := by
  rw [Literal.digits, List.all_append, l.isFraction, Bool.and_true]
  exact List.all_eq_true.2 (Literal.isDigit_of_isInteger l.isInteger)

def exactly (l : Literal) : Decimal :=
  ⟨l.negative, coefficient l.digits, l.exponentValue - l.fraction.length, isInteger_coefficient (all_digits l)⟩

/-- The digits before the point, when the exponent is written out. -/
def leftDigits (d : Decimal) : Int := d.exponent + d.digits.length

/-- `InvalidOperation` when the limits of the module do not hold it exactly. -/
def ofLiteral (l : Literal) : Option Decimal :=
  if maxPrec < l.fraction.length ∨ maxPrec < (exactly l).digits.length ∨ maxEmax < (exactly l).leftDigits - 1 ∨
      (exactly l).exponent < minEtiny then none
  else some (exactly l)

/-- `Decimal(text)`. -/
def ofText (text : Bytes) : Option Decimal := (Literal.parse text).bind ofLiteral

def value (d : Decimal) : Rat := scaled d.negative d.digits d.exponent

/-- `%+d`. -/
def signedExponent (n : Int) : Bytes := if n < 0 then 0x2D :: formatNat n.natAbs else 0x2B :: formatNat n.natAbs

def dotPlace (d : Decimal) : Int := if d.exponent ≤ 0 ∧ -6 < d.leftDigits then d.leftDigits else 1

def minus (negative : Bool) : Bytes := if negative then [0x2D] else []

/-- `str(d)`. -/
def str (d : Decimal) : Bytes :=
  minus d.negative ++
    (if d.dotPlace ≤ 0 then 0x30 :: 0x2E :: (List.replicate (-d.dotPlace).toNat 0x30 ++ d.digits)
      else if (d.digits.length : Int) ≤ d.dotPlace then d.digits ++ List.replicate (d.dotPlace - d.digits.length).toNat 0x30
      else d.digits.take d.dotPlace.toNat ++ 0x2E :: d.digits.drop d.dotPlace.toNat) ++
    (if d.leftDigits = d.dotPlace then [] else 0x45 :: signedExponent (d.leftDigits - d.dotPlace))

/-- `number.to_integral_value()`, which rounds half to even. -/
def toIntegralValue (number : Rat) : Int :=
  if number - ⌊number⌋ < 1 / 2 then ⌊number⌋
  else if number - ⌊number⌋ = 1 / 2 ∧ ⌊number⌋ % 2 = 0 then ⌊number⌋
  else ⌊number⌋ + 1

/-! ## What `str` writes -/

theorem digits_pos (d : Decimal) : 0 < d.digits.length := List.length_pos_iff.2 (Literal.isInteger_ne_nil d.isInteger)

theorem all_isDigit (d : Decimal) : d.digits.all Json.isDigit = true :=
  List.all_eq_true.2 (Literal.isDigit_of_isInteger d.isInteger)

theorem isInteger_take {bs : Bytes} (h : Json.isInteger bs = true) {n : Nat} (hn : 0 < n) :
    Json.isInteger (bs.take n) = true := by
  cases bs with
  | nil => cases h
  | cons b rest =>
    cases n with
    | zero => cases hn
    | succ n =>
      rw [Json.isInteger, Bool.and_eq_true, Bool.and_eq_true, Bool.or_eq_true, beq_iff_eq] at h
      rw [List.take_succ_cons, Json.isInteger, Bool.and_eq_true, Bool.and_eq_true, Bool.or_eq_true, beq_iff_eq]
      exact ⟨⟨h.1.1, List.all_eq_true.2 (fun c hc => List.all_eq_true.1 h.1.2 c (List.take_subset _ _ hc))⟩,
        h.2.imp id (fun hnil => by rw [hnil, List.take_nil])⟩

theorem all_replicate_append (d : Decimal) (n : Nat) : (List.replicate n 0x30 ++ d.digits).all Json.isDigit = true := by
  rw [List.all_append, d.all_isDigit, Bool.and_true, List.all_eq_true]
  intro b hb
  rw [(List.mem_replicate.1 hb).2]
  rfl

/-- The exponent that is written behind a mantissa. -/
def writtenExponent (n : Int) : Exponent :=
  ⟨0x45, if n < 0 then [0x2D] else [0x2B], formatNat n.natAbs, rfl, by split <;> decide,
    formatNat_ne_nil _, isDigit_formatNat _⟩

theorem writtenExponent_text (n : Int) : (writtenExponent n).text = 0x45 :: signedExponent n := by
  unfold writtenExponent Exponent.text signedExponent
  split <;> rfl

theorem writtenExponent_value (n : Int) : (writtenExponent n).value = n := by
  unfold writtenExponent Exponent.value
  by_cases hn : n < 0
  · simp only [if_pos hn, if_true, Utf8.digitsValue_formatNat]
    omega
  · simp only [if_neg hn, Utf8.digitsValue_formatNat]
    rw [if_neg (by decide)]
    omega

/-- The parts of what `str` writes. -/
def parts (d : Decimal) : Literal :=
  if d.exponent ≤ 0 ∧ -6 < d.leftDigits then
    if h : d.leftDigits ≤ 0 then
      ⟨d.negative, [0x30], List.replicate (-d.leftDigits).toNat 0x30 ++ d.digits, none, (by decide), d.all_replicate_append _⟩
    else
      ⟨d.negative, d.digits.take d.leftDigits.toNat, d.digits.drop d.leftDigits.toNat, none,
        isInteger_take d.isInteger (by omega), List.all_eq_true.2 (fun b hb =>
          List.all_eq_true.1 d.all_isDigit b (List.drop_subset _ _ hb))⟩
  else
    ⟨d.negative, d.digits.take 1, d.digits.drop 1, some (writtenExponent (d.leftDigits - 1)),
      isInteger_take d.isInteger Nat.one_pos, List.all_eq_true.2 (fun b hb =>
        List.all_eq_true.1 d.all_isDigit b (List.drop_subset _ _ hb))⟩

theorem text_eq (negative : Bool) (integer fraction : Bytes) (exponent : Option Exponent) (h h') :
    (Literal.mk negative integer fraction exponent h h').text =
      minus negative ++ (integer ++ fractionText fraction) ++ exponentText exponent := by
  cases negative <;> rfl

theorem parts_text (d : Decimal) : d.parts.text = d.str := by
  have hpos := d.digits_pos
  unfold parts str dotPlace
  by_cases hplain : d.exponent ≤ 0 ∧ -6 < d.leftDigits
  · rw [if_pos hplain, if_pos hplain, if_pos rfl]
    by_cases hleft : d.leftDigits ≤ 0
    · rw [dif_pos hleft, if_pos hleft, text_eq, fractionText,
        if_neg (fun h => Literal.isInteger_ne_nil d.isInteger (List.append_eq_nil_iff.1 h).2)]
      rfl
    · rw [dif_neg hleft, if_neg hleft, text_eq, fractionText]
      by_cases hall : (d.digits.length : Int) ≤ d.leftDigits
      · have hzero : d.exponent = 0 := by
          unfold leftDigits at hall
          omega
        have hleftDigits : d.leftDigits = d.digits.length := by
          unfold leftDigits
          omega
        rw [if_pos hall, hleftDigits, Int.toNat_natCast, List.take_length, List.drop_length, if_pos rfl, sub_self]
        rfl
      · have hdrop : d.digits.drop d.leftDigits.toNat ≠ [] := by
          rw [ne_eq, List.drop_eq_nil_iff]
          omega
        rw [if_neg hall, if_neg hdrop]
        rfl
  · have hne : d.leftDigits ≠ 1 := by
      unfold leftDigits at hplain ⊢
      omega
    rw [if_neg hplain, if_neg hplain, if_neg (show ¬ (1 : Int) ≤ 0 by decide), if_neg hne, text_eq, fractionText]
    have htext := writtenExponent_text (d.leftDigits - 1)
    by_cases hall : (d.digits.length : Int) ≤ 1
    · have hone : d.digits.length = 1 := by omega
      have hdrop : d.digits.drop 1 = [] := List.drop_eq_nil_iff.2 (by omega)
      rw [if_pos hall, hone, if_pos hdrop, List.take_of_length_le (by omega), List.append_nil]
      show _ ++ (writtenExponent _).text = _
      rw [htext]
      simp
    · have hdrop : d.digits.drop 1 ≠ [] := by
        rw [ne_eq, List.drop_eq_nil_iff]
        omega
      rw [if_neg hall, if_neg hdrop]
      show _ ++ (writtenExponent _).text = _
      rw [htext]
      rfl

theorem parse_str (d : Decimal) : Literal.parse d.str = some d.parts := d.parts_text ▸ d.parts.parse_text

/-! ## Values -/

theorem digitsValue_zeros (n : Nat) (digits : Bytes) :
    digitsValue (List.replicate n 0x30 ++ digits) = digitsValue digits := by
  induction n with
  | zero => rfl
  | succ n ih => exact ih

theorem digitsValue_dropZeros : ∀ digits : Bytes, digitsValue (digits.dropWhile (· == 0x30)) = digitsValue digits
  | [] => rfl
  | b :: rest => by
    rw [List.dropWhile_cons]
    split
    next hb =>
      rw [digitsValue_dropZeros rest, eq_of_beq hb]
      rfl
    · rfl

theorem digitsValue_coefficient (digits : Bytes) : digitsValue (coefficient digits) = digitsValue digits := by
  have hdrop := digitsValue_dropZeros digits
  unfold coefficient
  split
  next h =>
    rw [h] at hdrop
    exact hdrop
  · exact hdrop

/-- A text is held with its value. -/
theorem exactly_value (l : Literal) : (exactly l).value = l.value := by
  unfold value Literal.value scaled exactly
  rw [digitsValue_coefficient]

/-- **What `str` writes has the value.** -/
theorem parts_value (d : Decimal) : d.parts.value = d.value := by
  have hpos := d.digits_pos
  unfold parts value Literal.value Literal.digits Literal.exponentValue
  by_cases hplain : d.exponent ≤ 0 ∧ -6 < d.leftDigits
  · rw [if_pos hplain]
    by_cases hleft : d.leftDigits ≤ 0
    · rw [dif_pos hleft]
      have hpower : (0 : Int) - ((List.replicate (-d.leftDigits).toNat 0x30 ++ d.digits).length : Int) = d.exponent := by
        rw [List.length_append, List.length_replicate]
        unfold leftDigits at hleft ⊢
        omega
      have hdigits : digitsValue ([0x30] ++ (List.replicate (-d.leftDigits).toNat 0x30 ++ d.digits)) = digitsValue d.digits :=
        digitsValue_zeros ((-d.leftDigits).toNat + 1) d.digits
      show scaled _ _ (0 - _) = _
      rw [hpower, scaled, hdigits, scaled]
    · rw [dif_neg hleft]
      have hpower : (0 : Int) - ((d.digits.drop d.leftDigits.toNat).length : Int) = d.exponent := by
        rw [List.length_drop]
        unfold leftDigits at hplain hleft ⊢
        omega
      show scaled _ (d.digits.take _ ++ d.digits.drop _) (0 - _) = _
      rw [hpower, List.take_append_drop]
  · rw [if_neg hplain]
    have hpower : (writtenExponent (d.leftDigits - 1)).value - ((d.digits.drop 1).length : Int) = d.exponent := by
      rw [writtenExponent_value, List.length_drop]
      unfold leftDigits
      omega
    show scaled _ (d.digits.take 1 ++ d.digits.drop 1) (Exponent.value _ - _) = _
    rw [hpower, List.take_append_drop]

/-- A number of few digits and a small exponent is held. -/
theorem ofLiteral_of_small {l : Literal} (hlength : l.text.length ≤ 1000) (hexponent : l.exponentValue.natAbs ≤ 1000) :
    ofLiteral l = some (exactly l) := by
  have htext : l.text.length = (if l.negative then 1 else 0) + l.integer.length + (fractionText l.fraction).length +
      (exponentText l.exponent).length := by
    unfold text mantissa unsigned
    split <;> simp only [List.length_append, List.length_cons] <;> omega
  have hfraction : l.fraction.length ≤ (fractionText l.fraction).length := by
    unfold fractionText
    split
    next h => rw [h]
    · exact Nat.le_succ _
  have hdigits : (exactly l).digits.length ≤ l.integer.length + l.fraction.length := by
    have hinteger := List.length_pos_iff.2 (Literal.isInteger_ne_nil l.isInteger)
    show (coefficient l.digits).length ≤ _
    unfold coefficient
    split
    · exact Nat.le_trans hinteger (Nat.le_add_right _ _)
    · rw [← List.length_append]
      exact (List.dropWhile_suffix _).length_le
  have hexactly : (exactly l).exponent = l.exponentValue - l.fraction.length := rfl
  unfold ofLiteral
  rw [if_neg]
  unfold leftDigits maxPrec maxEmax minEtiny
  omega

theorem isIntegral_iff (number : Rat) : number = toIntegralValue number ↔ number.den = 1 := by
  constructor
  · intro h
    rw [h]
    rfl
  · intro h
    have hfloor : (⌊number⌋ : Rat) = number := by
      rw [← Rat.coe_int_num_of_den_eq_one h, Int.floor_intCast]
    unfold toIntegralValue
    rw [if_pos (by rw [hfloor, sub_self]; norm_num)]
    exact hfloor.symm

end Decimal
end Lib
