import Mathlib.Algebra.Order.Field.Rat
import Mathlib.Tactic.FieldSimp
import Mathlib.Tactic.Ring
import DexConnectors.LibJson
import DexConnectors.LibNumberText
/-!
# LibJsonNumber — the parts of a number

A number is a sign, an integer part, a fraction and an exponent; `parse_of_isNumber` says that the grammar of LibJson
takes no others.
-/
namespace Lib
namespace Json

open Lib.Utf8 (digitsValue)

/-- `0`, or digits that do not start with it. -/
def isInteger : Bytes → Bool
  | [] => false
  | b :: rest => isDigit b && rest.all isDigit && (b != 0x30 || rest == [])

def isExponentMark (b : UInt8) : Bool := b == 0x65 || b == 0x45

def isSign (b : UInt8) : Bool := b == 0x2B || b == 0x2D

structure Exponent where
  mark   : UInt8
  sign   : Bytes
  digits : Bytes
  marked : isExponentMark mark = true
  signed : sign = [] ∨ sign = [0x2B] ∨ sign = [0x2D]
  valued : digits ≠ [] ∧ digits.all isDigit = true

def Exponent.text (e : Exponent) : Bytes := e.mark :: (e.sign ++ e.digits)

def Exponent.value (e : Exponent) : Int := if e.sign = [0x2D] then -(digitsValue e.digits : Int) else digitsValue e.digits

/-- A number; one without a fraction has none of its digits. -/
structure Literal where
  negative   : Bool
  integer    : Bytes
  fraction   : Bytes
  exponent   : Option Exponent
  isInteger  : isInteger integer = true
  isFraction : fraction.all isDigit = true

namespace Literal

def fractionText (fraction : Bytes) : Bytes := if fraction = [] then [] else 0x2E :: fraction

def exponentText (exponent : Option Exponent) : Bytes := exponent.elim [] Exponent.text

def unsigned (l : Literal) : Bytes := l.integer ++ fractionText l.fraction

def mantissa (l : Literal) : Bytes := if l.negative then 0x2D :: l.unsigned else l.unsigned

def text (l : Literal) : Bytes := l.mantissa ++ exponentText l.exponent

def exponentValue (l : Literal) : Int := l.exponent.elim 0 Exponent.value

def digits (l : Literal) : Bytes := l.integer ++ l.fraction

/-- A number of digits that are scaled by a power of ten. -/
def scaled (negative : Bool) (digits : Bytes) (power : Int) : Rat :=
  (if negative then -1 else 1) * (digitsValue digits : Rat) * 10 ^ power

def value (l : Literal) : Rat := scaled l.negative l.digits (l.exponentValue - l.fraction.length)

/-! ## Reading -/

def parseExponent (mark : UInt8) (rest : Bytes) : Option Exponent :=
  if h : isExponentMark mark = true ∧
      (rest.takeWhile isSign = [] ∨ rest.takeWhile isSign = [0x2B] ∨ rest.takeWhile isSign = [0x2D]) ∧
      rest.dropWhile isSign ≠ [] ∧ (rest.dropWhile isSign).all isDigit = true then
    some ⟨mark, rest.takeWhile isSign, rest.dropWhile isSign, h.1, h.2.1, h.2.2⟩
  else none

/-- The exponent, if what follows the mantissa is one or nothing. -/
def parseTail : Bytes → Option (Option Exponent)
  | [] => some none
  | mark :: rest => (parseExponent mark rest).map some

def parseUnsigned (negative : Bool) (unsigned tail : Bytes) : Option Literal :=
  match parseTail tail with
  | none => none
  | some exponent =>
    if h : Json.isInteger (unsigned.takeWhile (· != 0x2E)) = true ∧
        ((unsigned.dropWhile (· != 0x2E)).drop 1).all isDigit = true ∧ unsigned.dropWhile (· != 0x2E) ≠ [0x2E] then
      some ⟨negative, unsigned.takeWhile (· != 0x2E), (unsigned.dropWhile (· != 0x2E)).drop 1, exponent, h.1, h.2.1⟩
    else none

/-- `^(-?)(0|[1-9]\d*)(?:\.(\d+))?(?:[eE]([+-]?\d+))?$`. -/
def parse (text : Bytes) : Option Literal :=
  if text.head? = some 0x2D then
    parseUnsigned true ((text.drop 1).takeWhile (!isExponentMark ·)) ((text.drop 1).dropWhile (!isExponentMark ·))
  else parseUnsigned false (text.takeWhile (!isExponentMark ·)) (text.dropWhile (!isExponentMark ·))

theorem of_isDigit {b : UInt8} (h : isDigit b = true) :
    isExponentMark b = false ∧ isSign b = false ∧ b ≠ 0x2E ∧ b ≠ 0x2D := by
  revert h
  exact Utf8.forall_byte (P := fun b => isDigit b = true → isExponentMark b = false ∧ isSign b = false ∧ b ≠ 0x2E ∧ b ≠ 0x2D)
    (by decide) b

theorem of_isExponentMark {b : UInt8} (h : isExponentMark b = true) : b = 0x65 ∨ b = 0x45 := by
  rw [isExponentMark, Bool.or_eq_true, beq_iff_eq, beq_iff_eq] at h
  exact h

theorem isDigit_of_isInteger : ∀ {bs : Bytes}, Json.isInteger bs = true → ∀ b ∈ bs, isDigit b = true
  | [], h, _, _ => by cases h
  | c :: rest, h, b, hb => by
    rw [Json.isInteger, Bool.and_eq_true, Bool.and_eq_true] at h
    exact (List.mem_cons.1 hb).elim (fun heq => heq ▸ h.1.1) (fun hm => List.all_eq_true.1 h.1.2 b hm)

theorem isInteger_ne_nil {bs : Bytes} (h : Json.isInteger bs = true) : bs ≠ [] := by
  rintro rfl
  cases h

theorem parseExponent_text (e : Exponent) : parseExponent e.mark (e.sign ++ e.digits) = some e := by
  have hsigns : ∀ b ∈ e.sign, isSign b = true := by
    intro b hb
    rcases e.signed with h | h | h <;> rw [h] at hb
    · cases hb
    all_goals
      rw [List.mem_singleton] at hb
      rw [hb]
      decide
  obtain ⟨htake, hdrop⟩ := Utf8.takeWhile_append_stop (b := e.digits) hsigns
    (fun b hb => (of_isDigit (List.all_eq_true.1 e.valued.2 b (List.mem_of_mem_head? hb))).2.1)
  unfold parseExponent
  simp only [htake, hdrop]
  rw [dif_pos ⟨e.marked, e.signed, e.valued⟩]

theorem parseTail_text (exponent : Option Exponent) : parseTail (exponentText exponent) = some exponent := by
  cases exponent with
  | none => rfl
  | some e =>
    show (parseExponent e.mark (e.sign ++ e.digits)).map some = _
    rw [parseExponent_text]
    rfl

theorem parseUnsigned_text (l : Literal) : parseUnsigned l.negative l.unsigned (exponentText l.exponent) = some l := by
  have hint : ∀ b ∈ l.integer, (b != 0x2E) = true := fun b hb =>
    bne_iff_ne.2 (of_isDigit (isDigit_of_isInteger l.isInteger b hb)).2.2.1
  have hstop : ∀ b ∈ (fractionText l.fraction).head?, (b != 0x2E) = false := by
    intro b hb
    unfold fractionText at hb
    split at hb
    · cases hb
    · cases hb
      rfl
  obtain ⟨htake, hdrop⟩ := Utf8.takeWhile_append_stop hint hstop
  have hfraction : (fractionText l.fraction).drop 1 = l.fraction ∧ fractionText l.fraction ≠ [0x2E] := by
    unfold fractionText
    split
    next h => exact ⟨h.symm, by simp⟩
    next h => exact ⟨rfl, fun heq => h (List.cons.inj heq).2⟩
  unfold parseUnsigned unsigned
  simp only [parseTail_text, htake, hdrop, hfraction.1]
  rw [dif_pos ⟨l.isInteger, l.isFraction, hfraction.2⟩]

theorem not_mark_of_mem_unsigned (l : Literal) : ∀ b ∈ l.unsigned, (!isExponentMark b) = true := by
  intro b hb
  rw [Bool.not_eq_true']
  rcases List.mem_append.1 hb with h | h
  · exact (of_isDigit (isDigit_of_isInteger l.isInteger b h)).1
  · unfold fractionText at h
    split at h
    · cases h
    · rcases List.mem_cons.1 h with rfl | h
      · rfl
      · exact (of_isDigit (List.all_eq_true.1 l.isFraction b h)).1

theorem mark_of_mem_head (exponent : Option Exponent) :
    ∀ b ∈ (exponentText exponent).head?, (!isExponentMark b) = false := by
  intro b hb
  cases exponent with
  | none => cases hb
  | some e =>
    cases hb
    rw [e.marked]
    rfl

theorem head_unsigned (l : Literal) : (l.unsigned ++ exponentText l.exponent).head? ≠ some 0x2D := by
  have hne := isInteger_ne_nil l.isInteger
  cases hint : l.integer with
  | nil => exact absurd hint hne
  | cons b rest =>
    rw [unsigned, hint]
    intro h
    have hb := isDigit_of_isInteger l.isInteger b (hint ▸ List.mem_cons_self)
    exact (of_isDigit hb).2.2.2 (Option.some.inj h)

/-- A number is read back from its text. -/
theorem parse_text (l : Literal) : parse l.text = some l := by
  obtain ⟨htake, hdrop⟩ := Utf8.takeWhile_append_stop l.not_mark_of_mem_unsigned (mark_of_mem_head l.exponent)
  cases hn : l.negative with
  | true =>
    have htext : l.text = 0x2D :: (l.unsigned ++ exponentText l.exponent) := by
      rw [text, mantissa, hn]
      rfl
    unfold parse
    rw [htext, if_pos (by rfl)]
    show parseUnsigned true ((l.unsigned ++ exponentText l.exponent).takeWhile _) ((l.unsigned ++ _).dropWhile _) = _
    rw [htake, hdrop, ← hn, parseUnsigned_text]
  | false =>
    have htext : l.text = l.unsigned ++ exponentText l.exponent := by
      rw [text, mantissa, hn]
      rfl
    unfold parse
    rw [htext, if_neg l.head_unsigned, htake, hdrop, ← hn, parseUnsigned_text]

theorem not_mark_of_mem_mantissa (l : Literal) : ∀ b ∈ l.mantissa, (!isExponentMark b) = true := by
  intro b hb
  unfold mantissa at hb
  split at hb
  · rcases List.mem_cons.1 hb with rfl | h
    · rfl
    · exact l.not_mark_of_mem_unsigned b h
  · exact l.not_mark_of_mem_unsigned b hb

theorem split_text (l : Literal) :
    l.text.takeWhile (!isExponentMark ·) = l.mantissa ∧ l.text.dropWhile (!isExponentMark ·) = exponentText l.exponent :=
  Utf8.takeWhile_append_stop l.not_mark_of_mem_mantissa (mark_of_mem_head l.exponent)

theorem text_ne_nil (l : Literal) : l.text ≠ [] := by
  intro h
  have hparse := l.parse_text
  rw [h] at hparse
  cases hparse

/-! ## Exponents -/

theorem parseInt_signed (e : Exponent) :
    Utf8.parseInt (e.sign ++ e.digits) = Utf8.parseDigits (decide (e.sign = [0x2D])) e.digits := by
  rcases e.signed with h | h | h <;> rw [h]
  · cases hd : e.digits with
    | nil => exact absurd hd e.valued.1
    | cons b rest =>
      have hb := List.all_eq_true.1 e.valued.2 b (hd ▸ List.mem_cons_self)
      obtain ⟨hplus, hminus, -⟩ := Utf8.not_sign_of_isDigit (show Utf8.isDigit b = true from hb)
      show Utf8.parseInt (b :: rest) = _
      rw [Utf8.parseInt, if_neg hplus, if_neg hminus]
      rfl
  all_goals rfl

theorem parseDigits_exponent (e : Exponent) (negative : Bool) :
    Utf8.parseDigits negative e.digits =
      if negative then (if digitsValue e.digits ≤ 2 ^ 63 then some (-(digitsValue e.digits : Int)) else none)
      else if digitsValue e.digits < 2 ^ 63 then some (digitsValue e.digits : Int) else none := by
  have hd : (decide (e.digits = []) || !e.digits.all Utf8.isDigit) = false := by
    rw [decide_eq_false e.valued.1, show e.digits.all Utf8.isDigit = true from e.valued.2]
    rfl
  rw [Utf8.parseDigits, hd]
  rfl

theorem value_of_parseInt {e : Exponent} {n : Int} (h : Utf8.parseInt (e.sign ++ e.digits) = some n) : n = e.value := by
  rw [parseInt_signed, parseDigits_exponent] at h
  unfold Exponent.value
  by_cases hs : e.sign = [0x2D]
  · rw [if_pos hs]
    rw [decide_eq_true hs, if_pos rfl] at h
    split at h
    · exact (Option.some.inj h).symm
    · cases h
  · rw [if_neg hs]
    rw [decide_eq_false hs, if_neg (by decide)] at h
    split at h
    · exact (Option.some.inj h).symm
    · cases h

theorem parseInt_of_small {e : Exponent} (h : e.value.natAbs < 2 ^ 63) : Utf8.parseInt (e.sign ++ e.digits) = some e.value := by
  rw [parseInt_signed, parseDigits_exponent]
  unfold Exponent.value at h ⊢
  by_cases hs : e.sign = [0x2D]
  · rw [if_pos hs] at h ⊢
    rw [decide_eq_true hs, if_pos rfl, if_pos (by omega)]
  · rw [if_neg hs] at h ⊢
    rw [decide_eq_false hs, if_neg (by decide), if_pos (by omega)]

/-! ## Integers -/

theorem head_toDigits {n : Nat} (h : 0 < n) : (Nat.toDigits 10 n).head? ≠ some '0' := by
  induction n using Nat.strongRecOn with
  | ind n ih =>
    by_cases hn : n < 10
    · rw [Nat.toDigits_of_lt_base hn]
      have hall : ∀ m < 10, 0 < m → [Nat.digitChar m].head? ≠ some '0' := by decide
      exact hall n hn h
    · rw [Nat.toDigits_of_base_le (by decide) (by omega), List.head?_append_of_ne_nil _ Nat.toDigits_ne_nil]
      exact ih (n / 10) (by omega) (by omega)

theorem isInteger_formatNat (n : Nat) : Json.isInteger (Utf8.formatNat n) = true := by
  by_cases hn : n = 0
  · subst hn
    decide
  · have hall : (Utf8.formatNat n).all isDigit = true := Utf8.isDigit_formatNat n
    have hhead := head_toDigits (Nat.pos_of_ne_zero hn)
    rw [Utf8.formatNat_eq] at hall ⊢
    cases hd : Nat.toDigits 10 n with
    | nil => exact absurd hd Nat.toDigits_ne_nil
    | cons c rest =>
      have hc : c.isDigit = true := Nat.isDigit_of_mem_toDigits (by decide) (by decide) (hd ▸ List.mem_cons_self)
      have hne : c.toNat.toUInt8 ≠ 0x30 := by
        intro heq
        rw [hd] at hhead
        have hbyte := (Utf8.digit_byte hc).2
        rw [heq] at hbyte
        simp only [Char.isDigit, Bool.and_eq_true, decide_eq_true_eq, UInt32.le_iff_toNat_le] at hc
        have hlo : 48 ≤ c.toNat := hc.1
        have hval : c.toNat = 48 := by
          have : (0x30 : UInt8).toNat = 48 := rfl
          omega
        exact hhead (congrArg some (Char.toNat_inj.1 hval))
      rw [hd, List.map_cons, List.all_cons, Bool.and_eq_true] at hall
      rw [List.map_cons, Json.isInteger, hall.1, hall.2, bne_iff_ne.2 hne]
      rfl

def ofInt (n : Int) : Literal := ⟨decide (n < 0), Utf8.formatNat n.natAbs, [], none, isInteger_formatNat n.natAbs, rfl⟩

theorem ofInt_text (n : Int) : (ofInt n).text = Utf8.formatInt n := by
  unfold Utf8.formatInt text mantissa unsigned ofInt
  by_cases hn : n < 0
  · rw [if_pos hn, if_pos (decide_eq_true hn)]
    simp [fractionText, exponentText]
  · rw [if_neg hn, if_neg (by simpa using hn)]
    simp [fractionText, exponentText]

theorem ofInt_value (n : Int) : (ofInt n).value = n := by
  have hdigits : digitsValue (Utf8.formatNat n.natAbs ++ []) = n.natAbs := by
    rw [List.append_nil, Utf8.digitsValue_formatNat]
  show (if decide (n < 0) = true then -1 else 1) * (digitsValue (Utf8.formatNat n.natAbs ++ []) : Rat) * 10 ^ (0 - 0 : Int) = n
  rw [hdigits, sub_zero, zpow_zero, mul_one]
  simp only [decide_eq_true_eq]
  have habs : (n.natAbs : Rat) = ((n.natAbs : Int) : Rat) := rfl
  rw [habs]
  split
  next hn =>
    rw [show (n.natAbs : Int) = -n by omega]
    push_cast
    ring
  next hn =>
    rw [show (n.natAbs : Int) = n by omega]
    ring

theorem length_formatNat : ∀ {n k : Nat}, 0 < k → n < 10 ^ k → (Utf8.formatNat n).length ≤ k := by
  intro n
  induction n using Nat.strongRecOn with
  | ind n ih =>
    intro k hk hn
    rw [Utf8.formatNat_eq, List.length_map]
    by_cases hten : n < 10
    · rw [Nat.toDigits_of_lt_base hten]
      exact hk
    · rw [Nat.toDigits_of_base_le (by decide) (by omega), List.length_append]
      cases k with
      | zero => omega
      | succ k =>
        have hk' : 0 < k := by
          rcases Nat.eq_zero_or_pos k with rfl | h
          · omega
          · exact h
        have hlen := ih (n / 10) (by omega) hk' (by rw [Nat.pow_succ] at hn; omega)
        rw [Utf8.formatNat_eq, List.length_map] at hlen
        exact Nat.succ_le_succ hlen

/-! ## The grammar -/

def accepting : NumberState → Bool
  | .zero | .integer | .fraction | .exponent => true
  | _ => false

theorem isNumber_eq (text : Bytes) : isNumber text = accepting (text.foldl NumberState.step .start) := by
  unfold isNumber accepting
  cases text.foldl NumberState.step .start <;> rfl

theorem foldl_bad (text : Bytes) : text.foldl NumberState.step .bad = .bad := by
  induction text with
  | nil => rfl
  | cons b rest ih => exact ih

theorem of_exponent : ∀ {text : Bytes}, accepting (text.foldl NumberState.step .exponent) = true → text.all isDigit = true
  | [], _ => rfl
  | b :: rest, h => by
    rw [List.foldl_cons, NumberState.step] at h
    split at h
    next hb => rw [List.all_cons, hb, of_exponent h, Bool.and_self]
    · rw [foldl_bad] at h
      cases h

theorem of_markSign {text : Bytes} (h : accepting (text.foldl NumberState.step .markSign) = true) :
    text ≠ [] ∧ text.all isDigit = true := by
  cases text with
  | nil => cases h
  | cons b rest =>
    rw [List.foldl_cons, NumberState.step] at h
    split at h
    next hb => exact ⟨List.cons_ne_nil _ _, by rw [List.all_cons, hb, of_exponent h, Bool.and_self]⟩
    · rw [foldl_bad] at h
      cases h

theorem of_mark {mark : UInt8} (hmark : isExponentMark mark = true) {text : Bytes}
    (h : accepting (text.foldl NumberState.step .mark) = true) : ∃ e : Exponent, mark :: text = e.text := by
  cases text with
  | nil => cases h
  | cons b rest =>
    rw [List.foldl_cons, NumberState.step] at h
    split at h
    next hb =>
      obtain ⟨hne, hall⟩ := of_markSign h
      exact ⟨⟨mark, [b], rest, hmark, by rcases hb with rfl | rfl <;> decide, hne, hall⟩, rfl⟩
    · split at h
      next hb =>
        exact ⟨⟨mark, [], b :: rest, hmark, .inl rfl, List.cons_ne_nil _ _, by
          rw [List.all_cons, hb, of_exponent h, Bool.and_self]⟩, rfl⟩
      · rw [foldl_bad] at h
        cases h

theorem of_mark_or {b : UInt8} {rest : Bytes} (hb : b = 0x65 ∨ b = 0x45)
    (h : accepting (rest.foldl NumberState.step .mark) = true) : ∃ e, b :: rest = exponentText e := by
  obtain ⟨e, he⟩ := @of_mark b (by rcases hb with rfl | rfl <;> decide) rest h
  exact ⟨some e, he⟩

theorem of_fraction : ∀ {text : Bytes}, accepting (text.foldl NumberState.step .fraction) = true →
    ∃ digits e, text = digits ++ exponentText e ∧ digits.all isDigit = true
  | [], _ => ⟨[], none, rfl, rfl⟩
  | b :: rest, h => by
    rw [List.foldl_cons, NumberState.step] at h
    split at h
    next hb =>
      obtain ⟨digits, e, rfl, hall⟩ := of_fraction h
      exact ⟨b :: digits, e, rfl, by rw [List.all_cons, hb, hall, Bool.and_self]⟩
    · split at h
      next hb =>
        obtain ⟨e, he⟩ := of_mark_or hb h
        exact ⟨[], e, he, rfl⟩
      · rw [foldl_bad] at h
        cases h

theorem of_point {text : Bytes} (h : accepting (text.foldl NumberState.step .point) = true) :
    ∃ fraction e, 0x2E :: text = fractionText fraction ++ exponentText e ∧ fraction.all isDigit = true := by
  cases text with
  | nil => cases h
  | cons b rest =>
    rw [List.foldl_cons, NumberState.step] at h
    split at h
    next hb =>
      obtain ⟨digits, e, rfl, hall⟩ := of_fraction h
      refine ⟨b :: digits, e, ?_, by rw [List.all_cons, hb, hall, Bool.and_self]⟩
      rw [fractionText, if_neg (List.cons_ne_nil _ _)]
      rfl
    · rw [foldl_bad] at h
      cases h

theorem of_zero {text : Bytes} (h : accepting (text.foldl NumberState.step .zero) = true) :
    ∃ fraction e, text = fractionText fraction ++ exponentText e ∧ fraction.all isDigit = true := by
  cases text with
  | nil => exact ⟨[], none, rfl, rfl⟩
  | cons b rest =>
    rw [List.foldl_cons, NumberState.step] at h
    split at h
    next hb => exact hb ▸ of_point h
    · split at h
      next hb =>
        obtain ⟨e, he⟩ := of_mark_or hb h
        exact ⟨[], e, he, rfl⟩
      · rw [foldl_bad] at h
        cases h

theorem of_integer : ∀ {text : Bytes}, accepting (text.foldl NumberState.step .integer) = true →
    ∃ digits fraction e, text = digits ++ (fractionText fraction ++ exponentText e) ∧ digits.all isDigit = true ∧
      fraction.all isDigit = true
  | [], _ => ⟨[], [], none, rfl, rfl, rfl⟩
  | b :: rest, h => by
    rw [List.foldl_cons, NumberState.step] at h
    split at h
    next hb =>
      obtain ⟨digits, fraction, e, rfl, hall, hfraction⟩ := of_integer h
      exact ⟨b :: digits, fraction, e, rfl, by rw [List.all_cons, hb, hall, Bool.and_self], hfraction⟩
    · split at h
      next hb =>
        obtain ⟨fraction, e, htext, hall⟩ := of_point h
        exact ⟨[], fraction, e, hb ▸ htext, rfl, hall⟩
      · split at h
        next hb =>
          obtain ⟨e, he⟩ := of_mark_or hb h
          exact ⟨[], [], e, he, rfl, rfl⟩
        · rw [foldl_bad] at h
          cases h

/-- What the states before the first digit have in common. -/
theorem of_digit (negative : Bool) {b : UInt8} {rest : Bytes}
    (h : (b = 0x30 ∧ accepting (rest.foldl NumberState.step .zero) = true) ∨
      (b ≠ 0x30 ∧ isDigit b = true ∧ accepting (rest.foldl NumberState.step .integer) = true)) :
    ∃ l : Literal, (if negative then 0x2D :: b :: rest else b :: rest) = l.text := by
  rcases h with ⟨rfl, h⟩ | ⟨hne, hb, h⟩
  · obtain ⟨fraction, e, rfl, hall⟩ := of_zero h
    exact ⟨⟨negative, [0x30], fraction, e, by decide, hall⟩, by cases negative <;> rfl⟩
  · obtain ⟨digits, fraction, e, rfl, hdigits, hall⟩ := of_integer h
    refine ⟨⟨negative, b :: digits, fraction, e, ?_, hall⟩, ?_⟩
    · rw [Json.isInteger, hb, hdigits, bne_iff_ne.2 hne]
      rfl
    · cases negative <;>
      · rw [text, mantissa, unsigned]
        simp

theorem exists_text {text : Bytes} (h : isNumber text = true) : ∃ l : Literal, text = l.text := by
  rw [isNumber_eq] at h
  cases text with
  | nil => cases h
  | cons b rest =>
    rw [List.foldl_cons, NumberState.step] at h
    split at h
    next hb =>
      cases rest with
      | nil => cases h
      | cons c rest =>
        rw [List.foldl_cons, NumberState.step] at h
        split at h
        next hc =>
          obtain ⟨l, hl⟩ := of_digit true (.inl ⟨hc, h⟩)
          exact ⟨l, hb ▸ hl⟩
        next hc =>
          split at h
          next hd =>
            obtain ⟨l, hl⟩ := of_digit true (.inr ⟨hc, hd, h⟩)
            exact ⟨l, hb ▸ hl⟩
          · rw [foldl_bad] at h
            cases h
    · split at h
      next hc =>
        obtain ⟨l, hl⟩ := of_digit false (.inl ⟨hc, h⟩)
        exact ⟨l, hl⟩
      next hc =>
        split at h
        next hd =>
          obtain ⟨l, hl⟩ := of_digit false (.inr ⟨hc, hd, h⟩)
          exact ⟨l, hl⟩
        · rw [foldl_bad] at h
          cases h

/-- **A number of the grammar has its parts.** -/
theorem parse_of_isNumber {text : Bytes} (h : isNumber text = true) : ∃ l, parse text = some l ∧ l.text = text := by
  obtain ⟨l, rfl⟩ := exists_text h
  exact ⟨l, l.parse_text, rfl⟩

end Literal
end Json
end Lib
