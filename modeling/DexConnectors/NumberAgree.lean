import DexConnectors.NumberModel
import DexConnectors.TextgenAccept
/-!
# NumberAgree — when the SDKs agree on a number

All three compare exact values (`go_ok_iff`, `python_ok_iff`, `typeScript_ok_iff`); what differs is the text they bound.  Go and
TypeScript bound the literal, Python the text that it writes of the value, which has no leading zeros and its own exponent.
`numbers_agree_iff`: so they agree on a number exactly when both texts are within the bounds or neither is, or when the node
refuses the value anyway.
-/
namespace Dex
namespace Textgen

open Lib Lib.Utf8 Lib.Json

/-- A number whose text is within the bounds. -/
def isBounded (text : Bytes) : Prop :=
  text.length ≤ 256 ∧ ∃ l, Literal.parse text = some l ∧ l.exponentValue.natAbs ≤ 400

theorem isBounded_iff (text : Bytes) :
    (text.length ≤ 256 ∧ (Literal.parse text).any (fun l => decide (l.exponentValue.natAbs ≤ 400)) = true) ↔ isBounded text := by
  refine and_congr_right fun _ => ?_
  rw [Option.any_eq_true]
  exact exists_congr fun l => and_congr_right fun _ => decide_eq_true_iff

instance (text : Bytes) : Decidable (isBounded text) := decidable_of_iff _ (isBounded_iff text)

def numberOf (text : Bytes) : Rat := ((Literal.parse text).map Literal.value).getD 0

/-- What the keywords of a node say of a value. -/
structure NumberNode.Admits (node : NumberNode) (number : Rat) : Prop where
  integer : node.isInteger = true → number.den = 1
  enum    : ∀ values, node.enum = some values → ∃ n ∈ values, (n : Rat) = number
  const   : ∀ n, node.const = some n → (n : Rat) = number
  minimum : ∀ n, node.minimum = some n → (n : Rat) ≤ number
  maximum : ∀ n, node.maximum = some n → number ≤ (n : Rat)

theorem isBounded_text (l : Literal) : isBounded l.text ↔ l.text.length ≤ 256 ∧ l.exponentValue.natAbs ≤ 400 := by
  unfold isBounded
  rw [l.parse_text]
  exact and_congr_right fun _ => ⟨fun ⟨_, h, hs⟩ => by cases h; exact hs, fun h => ⟨l, rfl, h⟩⟩

theorem numberOf_text (l : Literal) : numberOf l.text = l.value := by
  unfold numberOf
  rw [l.parse_text]
  rfl

theorem isBounded_formatInt {n : Int} (h : n.natAbs < 2 ^ 53) : isBounded (formatInt n) := by
  rw [← Literal.ofInt_text, isBounded_text]
  refine ⟨?_, Nat.zero_le _⟩
  have hlength := Literal.length_formatNat (n := n.natAbs) (k := 16) (by decide) (by omega)
  rw [Literal.ofInt_text]
  unfold formatInt
  split
  · rw [List.length_cons]
    omega
  · omega

section Safe

variable {node : NumberNode}

theorem NumberNode.minimum_safe {n : Int} (h : node.minimum = some n) : isBounded (formatInt n) :=
  isBounded_formatInt (node.safe n (by rw [h]; simp))

theorem NumberNode.maximum_safe {n : Int} (h : node.maximum = some n) : isBounded (formatInt n) :=
  isBounded_formatInt (node.safe n (by rw [h]; simp))

theorem NumberNode.const_safe {n : Int} (h : node.const = some n) : isBounded (formatInt n) :=
  isBounded_formatInt (node.safe n (by rw [h]; simp))

theorem NumberNode.enum_safe {values : List Int} (h : node.enum = some values) {n : Int} (hn : n ∈ values) :
    isBounded (formatInt n) :=
  isBounded_formatInt (node.safe n (by rw [h]; simp [hn]))

end Safe

/-! ## Go -/

theorem readsInt_cases {keyword : Option Tree} {bound : Option Int} (h : readsInt keyword bound) :
    (keyword = none ∧ bound = none) ∨
      ∃ literal n, keyword = some (.number literal) ∧ bound = some n ∧ parseBoundedJSONNumber literal = some (n : Rat) := by
  rcases keyword with _ | value <;> rcases bound with _ | n
  · exact .inl ⟨rfl, rfl⟩
  · exact absurd h id
  · cases value <;> exact absurd h id
  · cases value with
    | number literal => exact .inr ⟨literal, n, rfl, rfl, h⟩
    | null | bool | string | array | object => exact absurd h id

theorem readsInts_cases {keyword : Option Tree} {ns : Option (List Int)} (h : readsInts keyword ns) :
    (keyword = none ∧ ns = none) ∨
      ∃ values ns', keyword = some (.array values) ∧ ns = some ns' ∧
        List.Forall₂ (fun value n => readsInt (some value) (some n)) values ns' := by
  rcases keyword with _ | value <;> rcases ns with _ | ns
  · exact .inl ⟨rfl, rfl⟩
  · exact absurd h id
  · cases value <;> exact absurd h id
  · cases value with
    | array values => exact .inr ⟨values, ns, rfl, rfl, h⟩
    | null | bool | number | string | object => exact absurd h id

theorem isEqualJSONScalar_of_readsInt {value : Tree} {n : Int} (h : readsInt (some value) (some n)) {actual : Tree} {number : Rat} :
    isEqualJSONScalar value actual (some number) = true ↔ (n : Rat) = number := by
  rcases readsInt_cases h with ⟨hnone, -⟩ | ⟨literal, n', hvalue, hn, hparse⟩
  · cases hnone
  · cases hvalue
    cases hn
    have hequal : isEqualJSONScalar (.number literal) actual (some number) = ((n : Rat) == number) := by
      unfold isEqualJSONScalar
      dsimp only
      rw [hparse]
    rw [hequal, beq_iff_eq]

theorem containsJSONScalar_of_readsInts {actual : Tree} {number : Rat} {values : List Tree} {ns : List Int}
    (h : List.Forall₂ (fun value n => readsInt (some value) (some n)) values ns) :
    containsJSONScalar values actual (some number) = true ↔ ∃ n ∈ ns, (n : Rat) = number := by
  induction h with
  | nil => exact ⟨fun h => (by cases h), fun ⟨_, h, _⟩ => (by cases h)⟩
  | cons hvalue hrest ih =>
    unfold containsJSONScalar at ih ⊢
    rw [List.any_cons, Bool.or_eq_true, ih, isEqualJSONScalar_of_readsInt hvalue]
    simp only [List.mem_cons, exists_eq_or_imp]

theorem boundOf_of_readsInt {keyword : Option Tree} {bound : Option Int} (h : readsInt keyword bound) :
    boundOf keyword = bound.map (fun n : Int => (n : Rat)) := by
  rcases readsInt_cases h with ⟨rfl, rfl⟩ | ⟨literal, n, rfl, rfl, hparse⟩
  · rfl
  · exact hparse

theorem enumAndConst_ok_iff {node : NumberNode} {schema : Members} (hschema : node.Reads schema) {actual : Tree} {number : Rat}
    {pointer : Bytes} :
    validateEnumAndConst actual (some number) schema pointer = .ok () ↔
      (∀ values, node.enum = some values → ∃ n ∈ values, (n : Rat) = number) ∧
        ∀ n, node.const = some n → (n : Rat) = number := by
  rw [validateEnumAndConst_ok_iff]
  refine and_congr ?_ ?_
  · rcases readsInts_cases hschema.enum with ⟨hkeyword, hnode⟩ | ⟨values, ns, hkeyword, hnode, hreads⟩
    · rw [hkeyword, hnode]
      exact ⟨fun _ _ h => (by cases h), fun _ _ h => (by cases h)⟩
    · rw [hkeyword, hnode]
      have hcontains := @containsJSONScalar_of_readsInts actual number _ _ hreads
      constructor
      · intro h _ heq
        cases heq
        exact hcontains.1 (h values rfl)
      · intro h _ heq
        cases heq
        exact hcontains.2 (h ns rfl)
  · rcases readsInt_cases hschema.const with ⟨hkeyword, hnode⟩ | ⟨literal, n, hkeyword, hnode, hparse⟩
    · rw [hkeyword, hnode]
      exact ⟨fun _ _ h => (by cases h), fun _ _ h => (by cases h)⟩
    · rw [hkeyword, hnode]
      have hequal := @isEqualJSONScalar_of_readsInt (.number literal) n hparse actual number
      constructor
      · intro h _ heq
        cases heq
        exact hequal.1 (h _ rfl)
      · intro h _ heq
        cases heq
        exact hequal.2 (h n rfl)

theorem isType_number_iff {node : NumberNode} {literal : Bytes} {number : Rat} :
    isType (.number literal) (some number) (if node.isInteger then .integer else .number) = true ↔
      (node.isInteger = true → number.den = 1) := by
  cases node.isInteger with
  | true =>
    show (some number.den == some 1) = true ↔ _
    rw [beq_iff_eq]
    exact ⟨fun h _ => Option.some.inj h, fun h => congrArg some (h rfl)⟩
  | false => exact ⟨fun _ h => (by cases h), fun _ => rfl⟩

/-- **Go takes a number** whose literal is within the bounds and whose value the node admits. -/
theorem go_ok_iff {node : NumberNode} {schema : Members} (hschema : node.Reads schema) (l : Literal) {pointer : Bytes} :
    validateInstance (.number l.text) schema pointer = .ok () ↔ isBounded l.text ∧ node.Admits l.value := by
  rw [validateInstance_scalar_ok_iff rfl (fun h => by cases h), hschema.type, isBounded_text]
  constructor
  · rintro ⟨t, ht, h⟩
    cases ht
    rw [validateNode_number_ok_iff, parseBoundedJSONNumber_text] at h
    obtain ⟨number, hnumber, htype, hvalues, hbounds⟩ := h
    split at hnumber
    next hb =>
      cases hnumber
      rw [enumAndConst_ok_iff hschema] at hvalues
      rw [validateNumberBounds_ok_iff, boundOf_of_readsInt hschema.minimum, boundOf_of_readsInt hschema.maximum] at hbounds
      exact ⟨hb, isType_number_iff.1 htype, hvalues.1, hvalues.2, fun n hn => hbounds.1 n (by rw [hn]; rfl),
        fun n hn => hbounds.2 n (by rw [hn]; rfl)⟩
    · cases hnumber
  · rintro ⟨hb, hadmits⟩
    refine ⟨_, rfl, ?_⟩
    rw [validateNode_number_ok_iff, parseBoundedJSONNumber_text, if_pos hb]
    refine ⟨l.value, rfl, isType_number_iff.2 hadmits.integer, (enumAndConst_ok_iff hschema).2 ⟨hadmits.enum, hadmits.const⟩, ?_⟩
    rw [validateNumberBounds_ok_iff, boundOf_of_readsInt hschema.minimum, boundOf_of_readsInt hschema.maximum]
    refine ⟨fun bound hbound => ?_, fun bound hbound => ?_⟩
    · obtain ⟨n, hn, rfl⟩ := Option.map_eq_some_iff.1 hbound
      exact hadmits.minimum n hn
    · obtain ⟨n, hn, rfl⟩ := Option.map_eq_some_iff.1 hbound
      exact hadmits.maximum n hn

/-! ## Python -/

namespace Python

theorem boundedNumber_text (l : Literal) :
    boundedNumber l.text = if l.text.length ≤ 256 ∧ l.exponentValue.natAbs ≤ 400 then some (Decimal.exactly l) else none := by
  unfold boundedNumber
  by_cases hlength : l.text.length ≤ 256
  · rw [if_neg (Nat.not_lt.2 hlength)]
    have hdrop : l.text.dropWhile (fun b => !isMark b) = Literal.exponentText l.exponent := l.split_text.2
    have hread : l.exponentValue.natAbs ≤ 400 → Decimal.ofText l.text = some (Decimal.exactly l) := by
      intro hsmall
      unfold Decimal.ofText
      rw [l.parse_text]
      exact Decimal.ofLiteral_of_small (by omega) (by omega)
    rw [hdrop]
    unfold Literal.exponentText
    cases he : l.exponent with
    | none =>
      have hexponent : l.exponentValue = 0 := by rw [Literal.exponentValue, he]; rfl
      rw [if_pos ⟨hlength, by rw [hexponent]; decide⟩]
      exact hread (by rw [hexponent]; decide)
    | some e =>
      have hexponent : l.exponentValue = e.value := by rw [Literal.exponentValue, he]; rfl
      rw [hexponent] at hread ⊢
      simp only [Option.elim_some, Exponent.text]
      cases hparse : parseInt (e.sign ++ e.digits) with
      | none =>
        rw [if_neg]
        rintro ⟨-, hsmall⟩
        have := Literal.parseInt_of_small (e := e) (by omega)
        rw [hparse] at this
        cases this
      | some n =>
        rw [Literal.value_of_parseInt hparse]
        dsimp only
        by_cases hsmall : e.value.natAbs ≤ 400
        · rw [if_neg (by omega), if_pos ⟨hlength, hsmall⟩, hread hsmall]
        · rw [if_pos (by omega), if_neg (fun h => hsmall h.2)]
  · rw [if_pos (Nat.not_le.1 hlength), if_neg (fun h => hlength h.1)]

theorem boundedNumber_of_isBounded {l : Literal} (h : isBounded l.text) : boundedNumber l.text = some (Decimal.exactly l) := by
  rw [boundedNumber_text, if_pos ((isBounded_text l).1 h)]

theorem boundedNumber_formatInt {n : Int} (h : isBounded (formatInt n)) :
    ∃ d, boundedNumber (formatInt n) = some d ∧ d.value = n := by
  rw [← Literal.ofInt_text] at h ⊢
  exact ⟨_, boundedNumber_of_isBounded h, by rw [Decimal.exactly_value, Literal.ofInt_value]⟩

theorem boundedNumber_str {d : Decimal} (h : isBounded d.str) : ∃ number, boundedNumber d.str = some number ∧ number.value = d.value := by
  rw [← d.parts_text] at h ⊢
  exact ⟨_, boundedNumber_of_isBounded h, by rw [Decimal.exactly_value, d.parts_value]⟩

theorem boundedNumber_unbounded {d : Decimal} (h : ¬ isBounded d.str) : boundedNumber d.str = none := by
  rw [← d.parts_text] at h ⊢
  rw [boundedNumber_text, if_neg (fun hb => h ((isBounded_text _).2 hb))]

theorem sameScalar_iff {n : Int} (hn : isBounded (formatInt n)) {d : Decimal} (hd : isBounded d.str) :
    sameScalar n d = true ↔ (n : Rat) = d.value := by
  obtain ⟨a, ha, haValue⟩ := boundedNumber_formatInt hn
  obtain ⟨b, hb, hbValue⟩ := boundedNumber_str hd
  unfold sameScalar
  rw [ha, hb, ← haValue, ← hbValue]
  exact beq_iff_eq

theorem validateBound_ok_iff {keyword : Option Int} {breaks : Rat → Bool} {pointer : Bytes} {reason : String}
    (hsafe : ∀ n, keyword = some n → isBounded (formatInt n)) :
    validateBound keyword breaks pointer reason = .ok () ↔ ∀ n, keyword = some n → breaks (n : Rat) = false := by
  unfold validateBound
  cases keyword with
  | none => exact ⟨fun _ _ h => (by cases h), fun _ => rfl⟩
  | some n =>
    obtain ⟨d, hd, hvalue⟩ := boundedNumber_formatInt (hsafe n rfl)
    rw [Option.bind_some, hd]
    dsimp only
    rw [failIf_ok_iff, hvalue]
    exact ⟨fun h _ heq => by cases heq; exact h, fun h => h n rfl⟩

end Python

theorem any_eq_false_iff {A : Type} {o : Option A} {p : A → Bool} : o.any (fun a => !p a) = false ↔ ∀ a, o = some a → p a = true := by
  cases o with
  | none => exact ⟨fun _ _ h => (by cases h), fun _ => rfl⟩
  | some a =>
    show (!p a) = false ↔ _
    rw [Bool.not_eq_false']
    exact ⟨fun h _ heq => by cases heq; exact h, fun h => h a rfl⟩

/-- **Python takes a number** that its decoder reads, that it writes within the bounds, and whose value the node admits. -/
theorem python_ok_iff (node : NumberNode) (l : Literal) {pointer : Bytes} :
    Python.extractNumber l.text node pointer = .ok () ↔
      (∃ d, Decimal.ofText l.text = some d ∧ isBounded d.str) ∧ node.Admits l.value := by
  have hvalue : ∀ {d}, Decimal.ofText l.text = some d → d.value = l.value := by
    intro d hd
    unfold Decimal.ofText Decimal.ofLiteral at hd
    rw [l.parse_text] at hd
    dsimp only [Option.bind] at hd
    split at hd
    · cases hd
    · cases hd
      exact Decimal.exactly_value l
  unfold Python.extractNumber
  cases hd : Decimal.ofText l.text with
  | none => exact ⟨fun h => absurd h fail_ok, fun ⟨⟨_, h, _⟩, _⟩ => (by cases h)⟩
  | some d =>
    dsimp only
    unfold Python.validateInstance
    by_cases hbounded : isBounded d.str
    · obtain ⟨number, hnumber, hnumberValue⟩ := Python.boundedNumber_str hbounded
      rw [hnumber]
      dsimp only
      rw [hnumberValue, hvalue hd]
      simp only [seq_ok, failIf_ok_iff, any_eq_false_iff]
      rw [Python.validateBound_ok_iff (fun _ => NumberNode.minimum_safe), Python.validateBound_ok_iff (fun _ => NumberNode.maximum_safe)]
      constructor
      · rintro ⟨hinteger, henum, hconst, hminimum, hmaximum⟩
        refine ⟨⟨d, rfl, hbounded⟩, fun hnode => ?_, fun values hvalues => ?_, fun n hn => ?_, fun n hn => ?_, fun n hn => ?_⟩
        · rw [hnode, Bool.true_and, bne_eq_false_iff_eq] at hinteger
          exact (Decimal.isIntegral_iff _).1 hinteger
        · obtain ⟨n, hn, hsame⟩ := List.any_eq_true.1 (henum values hvalues)
          exact ⟨n, hn, hvalue hd ▸ (Python.sameScalar_iff (NumberNode.enum_safe hvalues hn) hbounded).1 hsame⟩
        · exact hvalue hd ▸ (Python.sameScalar_iff (NumberNode.const_safe hn) hbounded).1 (hconst n hn)
        · exact not_lt.1 (of_decide_eq_false (hminimum n hn))
        · exact not_lt.1 (of_decide_eq_false (hmaximum n hn))
      · rintro ⟨-, hadmits⟩
        refine ⟨?_, fun values hvalues => ?_, fun n hn => ?_, fun n hn => ?_, fun n hn => ?_⟩
        · cases hnode : node.isInteger with
          | false => rfl
          | true =>
            rw [Bool.true_and, bne_eq_false_iff_eq]
            exact (Decimal.isIntegral_iff _).2 (hadmits.integer hnode)
        · obtain ⟨n, hn, heq⟩ := hadmits.enum values hvalues
          exact List.any_eq_true.2 ⟨n, hn,
            (Python.sameScalar_iff (NumberNode.enum_safe hvalues hn) hbounded).2 (hvalue hd ▸ heq)⟩
        · exact (Python.sameScalar_iff (NumberNode.const_safe hn) hbounded).2 (hvalue hd ▸ hadmits.const n hn)
        · exact decide_eq_false (not_lt.2 (hadmits.minimum n hn))
        · exact decide_eq_false (not_lt.2 (hadmits.maximum n hn))
    · rw [Python.boundedNumber_unbounded hbounded]
      exact ⟨fun h => absurd h fail_ok, fun ⟨⟨_, h, hb⟩, _⟩ => by cases h; exact absurd hb hbounded⟩

/-! ## TypeScript -/

namespace TypeScript

def Rational.value (r : Rational) : Rat := (r.numerator : Rat) / r.denominator

theorem parseRational_text (l : Literal) (h : isBounded l.text) :
    ∃ r, parseRational l.text = some r ∧ 0 < r.denominator ∧ r.value = l.value := by
  rw [isBounded_text] at h
  have hvalue : l.value = ((digitsValue l.digits : Int) * (if l.negative then -1 else 1) : Int) *
      (10 : Rat) ^ (l.exponentValue - l.fraction.length) := by
    unfold Literal.value Literal.scaled
    push_cast
    split <;> ring
  unfold parseRational
  rw [if_neg (fun hor => hor.elim l.text_ne_nil (fun hlt => absurd h.1 (Nat.not_le.2 hlt))), l.parse_text]
  dsimp only
  rw [if_neg (Nat.not_lt.2 h.2)]
  by_cases hpower : 0 ≤ l.exponentValue - l.fraction.length
  · rw [if_pos hpower]
    refine ⟨_, rfl, Int.one_pos, ?_⟩
    obtain ⟨k, hk⟩ := Int.eq_ofNat_of_zero_le hpower
    rw [hvalue, hk, zpow_natCast, Int.toNat_natCast, Rational.value]
    push_cast
    rw [div_one]
  · rw [if_neg hpower]
    refine ⟨_, rfl, Int.pow_pos (by decide), ?_⟩
    obtain ⟨k, hk⟩ := Int.eq_ofNat_of_zero_le (show 0 ≤ -(l.exponentValue - l.fraction.length) by omega)
    rw [hvalue, show l.exponentValue - (l.fraction.length : Int) = -(k : Int) by omega, zpow_neg, zpow_natCast, Rational.value,
      neg_neg, Int.toNat_natCast, div_eq_mul_inv]
    push_cast
    rfl

theorem parseRational_unbounded (l : Literal) (h : ¬ isBounded l.text) : parseRational l.text = none := by
  rw [isBounded_text, not_and] at h
  unfold parseRational
  by_cases hlength : l.text.length ≤ 256
  · rw [if_neg (fun hor => hor.elim l.text_ne_nil (fun hlt => absurd hlength (Nat.not_le.2 hlt))), l.parse_text]
    dsimp only
    rw [if_pos (Nat.not_le.1 (h hlength))]
  · rw [if_pos (.inr (Nat.not_le.1 hlength))]

theorem parseRational_formatInt {n : Int} (h : isBounded (formatInt n)) :
    ∃ r, parseRational (formatInt n) = some r ∧ 0 < r.denominator ∧ r.value = n := by
  rw [← Literal.ofInt_text] at h ⊢
  obtain ⟨r, hr, hpos, hvalue⟩ := parseRational_text _ h
  exact ⟨r, hr, hpos, by rw [hvalue, Literal.ofInt_value]⟩

section Compare

variable {a b : Rational}

theorem value_sub (ha : 0 < a.denominator) (hb : 0 < b.denominator) :
    (a.numerator * b.denominator - b.numerator * a.denominator : Int) =
      (a.value - b.value) * (a.denominator * b.denominator : Int) := by
  have ha' : (a.denominator : Rat) ≠ 0 := Int.cast_ne_zero.2 ha.ne'
  have hb' : (b.denominator : Rat) ≠ 0 := Int.cast_ne_zero.2 hb.ne'
  unfold Rational.value
  push_cast
  field_simp

theorem compareRational_neg_iff (ha : 0 < a.denominator) (hb : 0 < b.denominator) :
    compareRational a b < 0 ↔ a.value < b.value := by
  have hpos : (0 : Rat) < (a.denominator * b.denominator : Int) := Int.cast_pos.2 (Int.mul_pos ha hb)
  unfold compareRational
  rw [Int.sign_neg_iff, ← Int.cast_lt (R := Rat), value_sub ha hb, Int.cast_zero, ← zero_mul ((a.denominator * b.denominator : Int) : Rat),
    mul_lt_mul_iff_left₀ hpos, sub_neg]

theorem compareRational_pos_iff (ha : 0 < a.denominator) (hb : 0 < b.denominator) :
    0 < compareRational a b ↔ b.value < a.value := by
  have hpos : (0 : Rat) < (a.denominator * b.denominator : Int) := Int.cast_pos.2 (Int.mul_pos ha hb)
  unfold compareRational
  rw [Int.sign_pos_iff, ← Int.cast_lt (R := Rat), value_sub ha hb, Int.cast_zero, mul_pos_iff_of_pos_right hpos, sub_pos]

theorem compareRational_zero_iff (ha : 0 < a.denominator) (hb : 0 < b.denominator) :
    compareRational a b = 0 ↔ a.value = b.value := by
  have hneg := compareRational_neg_iff ha hb
  have hpos := compareRational_pos_iff ha hb
  constructor
  · intro h
    exact le_antisymm (not_lt.1 (fun hlt => absurd (hpos.2 hlt) (by omega))) (not_lt.1 (fun hlt => absurd (hneg.2 hlt) (by omega)))
  · intro h
    have hnotNeg : ¬ compareRational a b < 0 := fun hlt => absurd (hneg.1 hlt) (by rw [h]; exact lt_irrefl _)
    have hnotPos : ¬ 0 < compareRational a b := fun hlt => absurd (hpos.1 hlt) (by rw [h]; exact lt_irrefl _)
    omega

theorem tmod_eq_zero_iff (ha : 0 < a.denominator) : a.numerator.tmod a.denominator = 0 ↔ a.value.den = 1 := by
  unfold Rational.value
  rw [Rat.den_div_intCast_eq_one_iff _ _ ha.ne', Int.dvd_iff_tmod_eq_zero]

end Compare

theorem equal_iff {number : Rational} (hpos : 0 < number.denominator) {n : Int} (hn : isBounded (formatInt n)) :
    equal number n = true ↔ (n : Rat) = number.value := by
  obtain ⟨wanted, hwanted, hwantedPos, hvalue⟩ := parseRational_formatInt hn
  unfold equal
  rw [hwanted]
  dsimp only
  rw [beq_iff_eq, compareRational_zero_iff hwantedPos hpos, hvalue]

theorem validateBound_ok_iff {keyword : Option Int} {breaks : Rational → Bool} {holds : Rat → Prop} {pointer : Bytes} {reason : String}
    (hsafe : ∀ n, keyword = some n → isBounded (formatInt n))
    (hbreaks : ∀ r : Rational, 0 < r.denominator → (breaks r = false ↔ holds r.value)) :
    validateBound keyword breaks pointer reason = .ok () ↔ ∀ n : Int, keyword = some n → holds n := by
  unfold validateBound
  cases keyword with
  | none => exact ⟨fun _ _ h => (by cases h), fun _ => rfl⟩
  | some n =>
    obtain ⟨r, hr, hpos, hvalue⟩ := parseRational_formatInt (hsafe n rfl)
    dsimp only
    rw [hr]
    dsimp only
    rw [failIf_ok_iff, hbreaks r hpos, hvalue]
    exact ⟨fun h _ heq => by cases heq; exact h, fun h => h n rfl⟩

end TypeScript

/-- **TypeScript takes a number** whose literal it finds, within the bounds, and whose value the node admits. -/
theorem typeScript_ok_iff (node : NumberNode) (l : Literal) {pointer : Bytes} {numbers : List (Bytes × Bytes)}
    (hsource : TypeScript.sourceAt numbers pointer = l.text) :
    TypeScript.validateInstance node pointer numbers = .ok () ↔ isBounded l.text ∧ node.Admits l.value := by
  unfold TypeScript.validateInstance
  rw [hsource]
  by_cases hbounded : isBounded l.text
  · obtain ⟨number, hnumber, hpos, hvalue⟩ := TypeScript.parseRational_text l hbounded
    rw [hnumber, ← hvalue]
    dsimp only
    have hminimum := @TypeScript.validateBound_ok_iff node.minimum
      (fun bound => TypeScript.compareRational number bound < 0) (fun bound => bound ≤ number.value) pointer
      "the value is below minimum" (fun _ => NumberNode.minimum_safe)
      (fun r hr => by rw [decide_eq_false_iff_not, TypeScript.compareRational_neg_iff hpos hr, not_lt])
    have hmaximum := @TypeScript.validateBound_ok_iff node.maximum
      (fun bound => 0 < TypeScript.compareRational number bound) (fun bound => number.value ≤ bound) pointer
      "the value is above maximum" (fun _ => NumberNode.maximum_safe)
      (fun r hr => by rw [decide_eq_false_iff_not, TypeScript.compareRational_pos_iff hpos hr, not_lt])
    simp only [seq_ok, failIf_ok_iff, any_eq_false_iff]
    rw [hminimum, hmaximum]
    constructor
    · rintro ⟨hinteger, henum, hconst, hmin, hmax⟩
      refine ⟨hbounded, fun hnode => ?_, fun values hvalues => ?_, fun n hn => ?_, hmin, hmax⟩
      · rw [hnode, Bool.true_and, bne_eq_false_iff_eq] at hinteger
        exact (TypeScript.tmod_eq_zero_iff hpos).1 hinteger
      · obtain ⟨n, hn, hequal⟩ := List.any_eq_true.1 (henum values hvalues)
        exact ⟨n, hn, (TypeScript.equal_iff hpos (NumberNode.enum_safe hvalues hn)).1 hequal⟩
      · exact (TypeScript.equal_iff hpos (NumberNode.const_safe hn)).1 (hconst n hn)
    · rintro ⟨-, hadmits⟩
      refine ⟨?_, fun values hvalues => ?_, fun n hn => ?_, hadmits.minimum, hadmits.maximum⟩
      · cases hnode : node.isInteger with
        | false => rfl
        | true =>
          rw [Bool.true_and, bne_eq_false_iff_eq]
          exact (TypeScript.tmod_eq_zero_iff hpos).2 (hadmits.integer hnode)
      · obtain ⟨n, hn, heq⟩ := hadmits.enum values hvalues
        exact List.any_eq_true.2 ⟨n, hn, (TypeScript.equal_iff hpos (NumberNode.enum_safe hvalues hn)).2 heq⟩
      · exact (TypeScript.equal_iff hpos (NumberNode.const_safe hn)).2 (hadmits.const n hn)
  · rw [TypeScript.parseRational_unbounded l hbounded]
    exact ⟨fun h => absurd h fail_ok, fun h => absurd h.1 hbounded⟩

/-! ## Locations -/

theorem slash_not_mem_escape (segment : Bytes) : 0x2F ∉ escapeJSONPointerSegment segment := by
  intro h
  obtain ⟨b, -, hb⟩ := List.mem_flatMap.1 h
  split at hb
  · exact absurd hb (by decide)
  · split at hb
    · exact absurd hb (by decide)
    next hslash => exact hslash (List.mem_singleton.1 hb).symm

theorem escape_injective : ∀ {a b : Bytes}, escapeJSONPointerSegment a = escapeJSONPointerSegment b → a = b := by
  have hcons : ∀ (x : UInt8) (rest : Bytes), escapeJSONPointerSegment (x :: rest) =
      (if x = 0x7E then [0x7E, 0x30] else if x = 0x2F then [0x7E, 0x31] else [x]) ++ escapeJSONPointerSegment rest :=
    fun x rest => List.flatMap_cons
  have hne : ∀ (x : UInt8) (rest : Bytes), escapeJSONPointerSegment (x :: rest) ≠ [] := by
    intro x rest h
    rw [hcons] at h
    have hhead := (List.append_eq_nil_iff.1 h).1
    split at hhead
    · cases hhead
    · split at hhead <;> cases hhead
  intro a
  induction a with
  | nil =>
    intro b h
    cases b with
    | nil => rfl
    | cons y bs => exact absurd h.symm (hne y bs)
  | cons x as ih =>
    intro b h
    cases b with
    | nil => exact absurd h (hne x as)
    | cons y bs =>
      rw [hcons, hcons] at h
      have hsplit : x = y ∧ escapeJSONPointerSegment as = escapeJSONPointerSegment bs := by
        by_cases hx : x = 0x7E <;> by_cases hy : y = 0x7E <;> by_cases hx' : x = 0x2F <;> by_cases hy' : y = 0x2F <;>
          simp_all
      rw [hsplit.1, ih hsplit.2]

theorem pointerOf_cons (step : Step) (rest : List Step) :
    pointerOf (step :: rest) = 0x2F :: (escapeJSONPointerSegment step.segment ++ pointerOf rest) := List.flatMap_cons

theorem segments_of_pointerOf {step step' : Step} {rest rest' : List Step} (h : pointerOf (step :: rest) = pointerOf (step' :: rest')) :
    step.segment = step'.segment ∧ pointerOf rest = pointerOf rest' := by
  have hstop : ∀ (place : List Step), ∀ b ∈ (pointerOf place).head?, (b != 0x2F) = false := by
    intro place b hb
    cases place with
    | nil => cases hb
    | cons step rest =>
      rw [pointerOf_cons] at hb
      cases hb
      rfl
  have hsplit : ∀ (step : Step) (rest : List Step), _ := fun step rest =>
    @Utf8.takeWhile_append_stop UInt8 (· != 0x2F) (escapeJSONPointerSegment step.segment) (pointerOf rest)
      (fun b hb => bne_iff_ne.2 (fun heq => slash_not_mem_escape _ (heq ▸ hb))) (hstop rest)
  rw [pointerOf_cons, pointerOf_cons] at h
  have htail := (List.cons.inj h).2
  refine ⟨escape_injective ?_, ?_⟩
  · rw [← (hsplit step rest).1, ← (hsplit step' rest').1, htail]
  · rw [← (hsplit step rest).2, ← (hsplit step' rest').2, htail]

theorem formatNat_injective {m n : Nat} (h : formatNat m = formatNat n) : m = n := by
  rw [← digitsValue_formatNat m, ← digitsValue_formatNat n, h]

/-- Two children of one value with the same segment are the same. -/
theorem step_of_segment {value : Tree} {step step' : Step} {a b : Tree} (ha : childAt value step = some a)
    (hb : childAt value step' = some b) (h : step.segment = step'.segment) : step = step' := by
  cases value with
  | array items =>
    cases step with
    | member name => cases ha
    | item i =>
      cases step' with
      | member name => cases hb
      | item j => exact congrArg Step.item (formatNat_injective h)
  | object members =>
    cases step with
    | item i => cases ha
    | member name =>
      cases step' with
      | item j => cases hb
      | member name' => exact congrArg Step.member h
  | null | bool | number | string => cases step <;> cases ha

/-- **A location names one place of an answer.** -/
theorem place_of_pointerOf : ∀ {value a b : Tree} {place place' : List Step}, valueAt value place = some a →
    valueAt value place' = some b → pointerOf place = pointerOf place' → place = place'
  | _, _, _, [], [], _, _, _ => rfl
  | _, _, _, [], step :: rest, _, _, h => by rw [pointerOf_cons] at h; cases h
  | _, _, _, step :: rest, [], _, _, h => by rw [pointerOf_cons] at h; cases h
  | value, a, b, step :: rest, step' :: rest', ha, hb, h => by
    obtain ⟨child, hchild, hrest⟩ := Option.bind_eq_some_iff.1 ha
    obtain ⟨child', hchild', hrest'⟩ := Option.bind_eq_some_iff.1 hb
    obtain ⟨hsegment, hpointer⟩ := segments_of_pointerOf h
    have hstep := step_of_segment hchild hchild' hsegment
    subst hstep
    rw [hchild] at hchild'
    cases hchild'
    rw [place_of_pointerOf hrest hrest' hpointer]

/-! ## Literals by location -/

namespace TypeScript

theorem get_cons {name other : Bytes} {child : Tree} {rest : Members} :
    get ((name, child) :: rest) other = (get rest other).or (if other = name then some child else none) := by
  unfold Json.get
  rw [List.reverse_cons, List.lookup_append, List.lookup_cons, List.lookup_nil]
  cases h : other == name with
  | true => rw [if_pos (beq_iff_eq.1 h)]
  | false => rw [if_neg (fun heq => by rw [heq, beq_self_eq_true] at h; cases h)]

theorem mem_assignItems {pointer : Bytes} {entry : Bytes × Bytes} : ∀ {items : List Tree} {index : Nat},
    entry ∈ assignItems items pointer index ↔ ∃ i child, items[i]? = some child ∧
      entry ∈ assignEntry child (below pointer (escapeJSONPointerSegment (formatNat (index + i))))
  | [], index => by
    rw [assignItems]
    constructor
    · intro h
      cases h
    · rintro ⟨_, _, h, _⟩
      cases h
  | child :: rest, index => by
    rw [assignItems, List.mem_append, mem_assignItems]
    constructor
    · rintro (h | ⟨i, child', hi, h⟩)
      · exact ⟨0, child, rfl, h⟩
      · exact ⟨i + 1, child', hi, by rwa [Nat.add_assoc, Nat.add_comm 1 i] at h⟩
    · rintro ⟨i, child', hi, h⟩
      cases i with
      | zero =>
        cases hi
        exact .inl h
      | succ i => exact .inr ⟨i, child', hi, by rwa [Nat.add_assoc, Nat.add_comm 1 i]⟩

theorem mem_assignMembers {pointer : Bytes} {entry : Bytes × Bytes} : ∀ {members : Members},
    entry ∈ assignMembers members pointer ↔ ∃ name child, get members name = some child ∧
      entry ∈ assignEntry child (below pointer (escapeJSONPointerSegment name))
  | [] => by
    rw [assignMembers]
    constructor
    · intro h
      cases h
    · rintro ⟨_, _, h, _⟩
      cases h
  | (name, child) :: rest => by
    rw [assignMembers]
    simp only [get_cons]
    cases hlater : get rest name with
    | some later =>
      rw [if_pos (by rfl), mem_assignMembers]
      refine exists_congr fun other => exists_congr fun child' => and_congr_left fun _ => ?_
      by_cases hother : other = name
      · rw [hother, hlater]
        exact Iff.rfl
      · rw [if_neg hother, Option.or_none]
    | none =>
      rw [if_neg (by decide), List.mem_append, mem_assignMembers]
      constructor
      · rintro (h | ⟨other, child', hget, h⟩)
        · exact ⟨name, child, by rw [hlater, if_pos rfl]; rfl, h⟩
        · exact ⟨other, child', by rw [hget]; rfl, h⟩
      · rintro ⟨other, child', hget, h⟩
        by_cases hother : other = name
        · rw [hother, hlater, if_pos rfl] at hget
          cases hget
          exact .inl (hother ▸ h)
        · rw [if_neg hother, Option.or_none] at hget
          exact .inr ⟨other, child', hget, h⟩

theorem mem_assign {value : Tree} {pointer : Bytes} {entry : Bytes × Bytes} :
    entry ∈ assign value pointer ↔ ∃ step child, childAt value step = some child ∧
      entry ∈ assignEntry child (below pointer (escapeJSONPointerSegment step.segment)) := by
  cases value with
  | array items =>
    rw [assign, mem_assignItems]
    constructor
    · rintro ⟨i, child, hi, h⟩
      exact ⟨.item i, child, hi, by rwa [Nat.zero_add] at h⟩
    · rintro ⟨step, child, hchild, h⟩
      cases step with
      | member name => cases hchild
      | item i => exact ⟨i, child, hchild, by rwa [Nat.zero_add]⟩
  | object members =>
    rw [assign, mem_assignMembers]
    constructor
    · rintro ⟨name, child, hget, h⟩
      exact ⟨.member name, child, hget, h⟩
    · rintro ⟨step, child, hchild, h⟩
      cases step with
      | item i => cases hchild
      | member name => exact ⟨name, child, hchild, h⟩
  | null | bool | number | string =>
    unfold assign
    constructor
    · intro h
      cases h
    · rintro ⟨step, _, h, _⟩
      cases step <;> cases h

theorem sizeOf_childAt {value child : Tree} {step : Step} (h : childAt value step = some child) : sizeOf child < sizeOf value := by
  cases value with
  | array items =>
    cases step with
    | member name => cases h
    | item i =>
      have hmem := List.sizeOf_lt_of_mem (List.mem_of_getElem? h)
      have hsize := Tree.array.sizeOf_spec items
      omega
  | object members =>
    cases step with
    | item i => cases h
    | member name =>
      have hmem : sizeOf child < sizeOf members := sizeOf_mem (mem_of_get h)
      have hsize := Tree.object.sizeOf_spec members
      omega
  | null | bool | number | string => cases step <;> cases h

theorem below_pointerOf (pointer : Bytes) (step : Step) (rest : List Step) :
    below pointer (escapeJSONPointerSegment step.segment) ++ pointerOf rest = pointer ++ pointerOf (step :: rest) := by
  rw [pointerOf_cons, below]
  simp

/-- **What `assign` files** is the literal of each number below the value, by its location. -/
theorem mem_assign_iff (value : Tree) (pointer location source : Bytes) :
    (location, source) ∈ assign value pointer ↔
      ∃ step rest, location = pointer ++ pointerOf (step :: rest) ∧ valueAt value (step :: rest) = some (.number source) := by
  rw [mem_assign]
  constructor
  · rintro ⟨step, child, hchild, h⟩
    have hdown : ∀ {place}, valueAt child place = some (.number source) → valueAt value (step :: place) = some (.number source) :=
      fun hplace => Option.bind_eq_some_iff.2 ⟨child, hchild, hplace⟩
    by_cases hnumber : ∃ literal, child = .number literal
    · obtain ⟨literal, rfl⟩ := hnumber
      rw [assignEntry, List.mem_singleton] at h
      cases h
      refine ⟨step, [], ?_, hdown rfl⟩
      rw [← below_pointerOf]
      exact (List.append_nil _).symm
    · have hassign : assignEntry child (below pointer (escapeJSONPointerSegment step.segment)) =
          assign child (below pointer (escapeJSONPointerSegment step.segment)) := by
        cases child with
        | number literal => exact absurd ⟨literal, rfl⟩ hnumber
        | null | bool | string | array | object => rw [assignEntry]; intro _ h; cases h
      rw [hassign] at h
      obtain ⟨step', rest, hlocation, hvalue⟩ := (mem_assign_iff child _ location source).1 h
      exact ⟨step, step' :: rest, by rw [hlocation, below_pointerOf], hdown hvalue⟩
  · rintro ⟨step, rest, hlocation, hvalue⟩
    obtain ⟨child, hchild, hrest⟩ := Option.bind_eq_some_iff.1 hvalue
    refine ⟨step, child, hchild, ?_⟩
    cases rest with
    | nil =>
      cases hrest
      rw [assignEntry, List.mem_singleton, hlocation, ← below_pointerOf]
      exact congrArg (·, source) (List.append_nil _)
    | cons step' rest =>
      have hbelow : (location, source) ∈ assign child (below pointer (escapeJSONPointerSegment step.segment)) :=
        (mem_assign_iff child _ location source).2 ⟨step', rest, by rw [hlocation, below_pointerOf], hrest⟩
      cases child with
      | number literal => cases step' <;> cases hrest
      | null | bool | string | array | object =>
        rw [assignEntry]
        · exact hbelow
        · intro _ h
          cases h
termination_by sizeOf value
decreasing_by all_goals exact sizeOf_childAt ‹_›

/-- The literal of a number is found by its location. -/
theorem sourceAt_assign {answer : Tree} {place : List Step} {source : Bytes} (hplace : place ≠ [])
    (hat : valueAt answer place = some (.number source)) : sourceAt (assign answer []) (pointerOf place) = source := by
  obtain ⟨step, rest, rfl⟩ := List.exists_cons_of_ne_nil hplace
  have hmem : (pointerOf (step :: rest), source) ∈ (assign answer []).reverse :=
    List.mem_reverse.2 ((mem_assign_iff answer [] _ source).2 ⟨step, rest, rfl, hat⟩)
  unfold sourceAt
  cases hlookup : (assign answer []).reverse.lookup (pointerOf (step :: rest)) with
  | none => exact absurd rfl (bne_iff_ne.1 (List.lookup_eq_none_iff.1 hlookup _ hmem))
  | some found =>
    obtain ⟨before, after, hsplit, -⟩ := List.lookup_eq_some_iff.1 hlookup
    have hfound : (pointerOf (step :: rest), found) ∈ assign answer [] :=
      List.mem_reverse.1 (hsplit ▸ List.mem_append_right _ List.mem_cons_self)
    obtain ⟨step', rest', hlocation, hvalue⟩ := (mem_assign_iff answer [] _ found).1 hfound
    rw [← place_of_pointerOf hat hvalue hlocation, hat] at hvalue
    cases hvalue
    rfl

end TypeScript

/-! ## Agreement -/

/-- **The SDKs agree on a number of an answer** exactly when Go's and Python's texts of it are both within the bounds or both
not, or the node refuses its value. -/
theorem numbers_agree_iff (node : NumberNode) (schema : Members) (hschema : node.Reads schema) (answer : Tree)
    (place : List Step) (hplace : place ≠ []) (text : Bytes) (hnumber : isNumber text = true)
    (hat : valueAt answer place = some (.number text)) :
    ((validateInstance (.number text) schema (pointerOf place) = .ok () ↔
          Python.extractNumber text node (pointerOf place) = .ok ()) ∧
        (validateInstance (.number text) schema (pointerOf place) = .ok () ↔
          TypeScript.validateInstance node (pointerOf place) (TypeScript.assign answer []) = .ok ())) ↔
      (isBounded text ↔ ∃ d, Decimal.ofText text = some d ∧ isBounded d.str) ∨ ¬ node.Admits (numberOf text) := by
  obtain ⟨l, -, rfl⟩ := Literal.parse_of_isNumber hnumber
  rw [go_ok_iff hschema l, python_ok_iff node l, typeScript_ok_iff node l (TypeScript.sourceAt_assign hplace hat), numberOf_text]
  grind

/-- A number without bounds. -/
def anyNumber : NumberNode := ⟨false, false, none, none, none, none, by decide⟩

def anyNumberSchema : Members := [(ascii "type", .string (ascii "number"))]

theorem anyNumber_reads : anyNumber.Reads anyNumberSchema := ⟨by decide, trivial, trivial, trivial, trivial⟩

theorem anyNumber_admits (number : Rat) : anyNumber.Admits number :=
  ⟨fun h => (by cases h), fun _ h => (by cases h), fun _ h => (by cases h), fun _ h => (by cases h), fun _ h => (by cases h)⟩

theorem numbers_agree_half :
    (validateInstance (.number (ascii "0.50")) anyNumberSchema (pointerOf [.member (ascii "n")]) = .ok () ↔
        Python.extractNumber (ascii "0.50") anyNumber (pointerOf [.member (ascii "n")]) = .ok ()) ∧
      (validateInstance (.number (ascii "0.50")) anyNumberSchema (pointerOf [.member (ascii "n")]) = .ok () ↔
        TypeScript.validateInstance anyNumber (pointerOf [.member (ascii "n")])
          (TypeScript.assign (.object [(ascii "n", .number (ascii "0.50"))]) []) = .ok ()) := by
  refine (numbers_agree_iff anyNumber anyNumberSchema anyNumber_reads (.object [(ascii "n", .number (ascii "0.50"))])
    [.member (ascii "n")] (by decide) (ascii "0.50") (by decide) (by rfl)).2 (.inl ⟨fun _ => ?_, fun _ => ?_⟩)
  · exact ⟨_, rfl, by decide⟩
  · decide

/-- Python writes `10.0e400` as `1.00E+401`. -/
theorem long_exponent_refused :
    anyNumber.Reads anyNumberSchema ∧ isNumber (ascii "10.0e400") = true ∧
      validateInstance (.number (ascii "10.0e400")) anyNumberSchema (pointerOf [.member (ascii "n")]) = .ok () ∧
      TypeScript.validateInstance anyNumber (pointerOf [.member (ascii "n")])
        (TypeScript.assign (.object [(ascii "n", .number (ascii "10.0e400"))]) []) = .ok () ∧
      Python.extractNumber (ascii "10.0e400") anyNumber (pointerOf [.member (ascii "n")]) =
        .error ⟨ascii "/n", ascii "the number is out of range"⟩ := by
  have hbounded : isBounded (ascii "10.0e400") := by decide
  obtain ⟨l, -, hl⟩ := @Literal.parse_of_isNumber (ascii "10.0e400") (by decide)
  rw [← hl] at hbounded
  refine ⟨anyNumber_reads, by decide, ?_, ?_, by rfl⟩
  · rw [← hl]
    exact (go_ok_iff anyNumber_reads l).2 ⟨hbounded, anyNumber_admits _⟩
  · rw [← hl]
    exact (typeScript_ok_iff anyNumber l (TypeScript.sourceAt_assign (by decide) (by rfl))).2 ⟨hbounded, anyNumber_admits _⟩

end Textgen
end Dex
