import DexConnectors.LibJsonGrammar
import DexConnectors.LibMethod
import DexConnectors.TextgenSchema
/-!
# TextgenAccept — what an accepted instance has passed

One equivalence for each check of `validateInstance`: it gives no error exactly when what it tests is so.
-/
namespace Dex
namespace Textgen

open Lib Lib.Utf8 Lib.Json

/-- What `canonicalizeSchema` returns: an object that a text was decoded to. -/
def Canonical (schema : Members) : Prop := ∃ text rest, decode maxNestingDepth text = some (.object schema, rest)

theorem Canonical.numeric {schema : Members} (h : Canonical schema) : Numeric (.object schema) := by
  obtain ⟨text, rest, hdecode⟩ := h
  exact numeric_of_decode hdecode

theorem Canonical.of_reads {ts : List Token} {schema : Members} (h : Reads maxNestingDepth ts (.object schema) [])
    (hplain : ts.all Token.isPlain = true) : Canonical schema := by
  have hproper : ∀ t ∈ ts, t.Proper := fun t ht => Token.proper_of_isPlain (List.all_eq_true.1 hplain t ht)
  obtain ⟨rest, hdecode, -⟩ := decode_of_denotes (Nat.le_refl _) ⟨ts, spells_render hproper, h⟩
  exact ⟨_, rest, hdecode⟩

theorem seq_ok {x y : Check} : (x >>= fun _ => y) = .ok () ↔ x = .ok () ∧ y = .ok () := by
  cases x with
  | ok u => exact ⟨fun h => ⟨rfl, h⟩, fun h => h.2⟩
  | error err => exact ⟨fun h => (by cases h), fun h => (by cases h.1)⟩

theorem fail_ok {pointer : Bytes} {reason : String} : ¬ fail pointer reason = .ok () := fun h => by cases h

theorem failIf_ok_iff {b : Bool} {pointer : Bytes} {reason : String} : failIf b pointer reason = .ok () ↔ b = false := by
  cases b with
  | true => exact ⟨fun h => (by cases h), fun h => (by cases h)⟩
  | false => exact ⟨fun _ => rfl, fun _ => rfl⟩

theorem checkEach_ok_iff {A : Type} {check : A → Check} : ∀ {l : List A}, checkEach check l = .ok () ↔ ∀ a ∈ l, check a = .ok ()
  | [] => ⟨fun _ _ h => (by cases h), fun _ => rfl⟩
  | a :: rest => by
    rw [List.forall_mem_cons, ← checkEach_ok_iff (l := rest)]
    exact seq_ok

/-! ## Numbers -/

theorem mkRat_scaled (n : Int) (power : Int) : mkRat (n * 10 ^ power.toNat) (10 ^ (-power).toNat) = (n : Rat) * 10 ^ power := by
  rw [Rat.mkRat_eq_div]
  push_cast
  rcases Int.le_total 0 power with h | h
  · obtain ⟨k, rfl⟩ := Int.eq_ofNat_of_zero_le h
    rw [show (-(k : Int)).toNat = 0 by omega, Int.toNat_natCast, zpow_natCast, pow_zero, div_one]
  · obtain ⟨k, hk⟩ := Int.eq_ofNat_of_zero_le (show 0 ≤ -power by omega)
    rw [hk, show power = -(k : Int) by omega, zpow_neg, zpow_natCast, Int.toNat_natCast,
      show (-(k : Int)).toNat = 0 by omega, pow_zero, mul_one, div_eq_mul_inv]

theorem filter_digits (l : Literal) : l.mantissa.filter Utf8.isDigit = l.digits := by
  have hdigits : ∀ {bs : Bytes}, (∀ b ∈ bs, Json.isDigit b = true) → bs.filter Utf8.isDigit = bs :=
    fun h => List.filter_eq_self.2 h
  have hunsigned : l.unsigned.filter Utf8.isDigit = l.digits := by
    unfold Literal.unsigned Literal.digits Literal.fractionText
    rw [List.filter_append, hdigits (Literal.isDigit_of_isInteger l.isInteger)]
    split
    next h => rw [h]; rfl
    · rw [List.filter_cons_of_neg (by decide), hdigits (List.all_eq_true.1 l.isFraction)]
  unfold Literal.mantissa
  split
  · rw [List.filter_cons_of_neg (by decide), hunsigned]
  · exact hunsigned

theorem drop_fraction (l : Literal) : (l.mantissa.dropWhile (· != 0x2E)).drop 1 = l.fraction := by
  have hunsigned : (l.unsigned.dropWhile (· != 0x2E)).drop 1 = l.fraction := by
    unfold Literal.unsigned Literal.fractionText
    rw [List.dropWhile_append_of_pos (fun b hb => bne_iff_ne.2
      (Literal.of_isDigit (Literal.isDigit_of_isInteger l.isInteger b hb)).2.2.1)]
    split
    next h => rw [h]; rfl
    · rfl
  unfold Literal.mantissa
  split
  · exact hunsigned
  · exact hunsigned

theorem head_mantissa (l : Literal) : l.mantissa.head? = some 0x2D ↔ l.negative = true := by
  unfold Literal.mantissa
  cases hn : l.negative with
  | true => exact ⟨fun _ => rfl, fun _ => rfl⟩
  | false =>
    have hhead : l.unsigned.head? ≠ some 0x2D := by
      intro h
      have hne := Literal.isInteger_ne_nil l.isInteger
      cases hint : l.integer with
      | nil => exact hne hint
      | cons b rest =>
        rw [Literal.unsigned, hint] at h
        have hb := Literal.of_isDigit (Literal.isDigit_of_isInteger l.isInteger b (hint ▸ List.mem_cons_self))
        exact hb.2.2.2 (Option.some.inj h)
    exact ⟨fun h => absurd h hhead, fun h => (by cases h)⟩

theorem ratOf_mantissa (l : Literal) (exponent : Int) :
    ratOf l.mantissa exponent = Literal.scaled l.negative l.digits (exponent - l.fraction.length) := by
  unfold ratOf Literal.scaled
  dsimp only
  rw [filter_digits, drop_fraction, mkRat_scaled]
  by_cases hn : l.negative = true
  · rw [if_pos ((head_mantissa l).2 hn), if_pos hn]
    push_cast
    ring
  · rw [if_neg (fun h => hn ((head_mantissa l).1 h)), if_neg hn]
    push_cast
    ring

/-- **A number is read when its literal is within the bounds**, and then with its value. -/
theorem parseBoundedJSONNumber_text (l : Literal) :
    parseBoundedJSONNumber l.text = if l.text.length ≤ 256 ∧ l.exponentValue.natAbs ≤ 400 then some l.value else none := by
  unfold parseBoundedJSONNumber
  by_cases hlength : l.text.length ≤ 256
  · rw [if_neg (fun h => h.elim l.text_ne_nil (fun h => absurd hlength (Nat.not_le.2 h)))]
    obtain ⟨htake, hdrop⟩ := l.split_text
    have hdrop' : l.text.dropWhile (fun b => !isMark b) = Literal.exponentText l.exponent := hdrop
    have htake' : l.text.takeWhile (fun b => !isMark b) = l.mantissa := htake
    rw [hdrop', htake']
    unfold Literal.value Literal.exponentText
    cases he : l.exponent with
    | none =>
      have hexponent : l.exponentValue = 0 := by rw [Literal.exponentValue, he]; rfl
      have htext : l.text = l.mantissa := by rw [Literal.text, he]; exact List.append_nil _
      rw [hexponent, if_pos ⟨hlength, by decide⟩, htext]
      exact congrArg some (ratOf_mantissa l 0)
    | some e =>
      have hexponent : l.exponentValue = e.value := by rw [Literal.exponentValue, he]; rfl
      rw [hexponent]
      simp only [Option.elim_some, Exponent.text]
      cases hparse : parseInt (e.sign ++ e.digits) with
      | none =>
        rw [if_neg]
        rintro ⟨-, hsmall⟩
        have := Literal.parseInt_of_small (e := e) (by omega)
        rw [hparse] at this
        cases this
      | some n =>
        rw [Literal.value_of_parseInt hparse]
        dsimp only
        unfold maxJSONNumberExponent
        by_cases hsmall : e.value.natAbs ≤ 400
        · rw [if_neg (by omega), if_pos ⟨hlength, hsmall⟩, ratOf_mantissa]
        · rw [if_pos (by omega), if_neg (fun h => hsmall h.2)]
  · rw [if_pos (.inr (Nat.not_le.1 hlength)), if_neg (fun h => hlength h.1)]

section

variable {schema : Members} {pointer : Bytes}

theorem readSchemaType_ok_iff {t : SchemaType × Bool} :
    readSchemaType schema pointer = .ok t ↔ schemaType (member schema "type") = some t := by
  unfold readSchemaType member
  cases schemaType (get schema (ascii "type")) with
  | none => exact ⟨fun h => (by cases h), fun h => (by cases h)⟩
  | some t' => exact ⟨fun h => congrArg some (Except.ok.inj h), fun h => congrArg Except.ok (Option.some.inj h)⟩

theorem validateEnumAndConst_ok_iff {actual : Tree} {number : Option Rat} :
    validateEnumAndConst actual number schema pointer = .ok () ↔
      (∀ values, member schema "enum" = some (.array values) → containsJSONScalar values actual number = true) ∧
        ∀ value, member schema "const" = some value → isEqualJSONScalar value actual number = true := by
  unfold validateEnumAndConst
  rw [seq_ok]
  refine and_congr ?_ ?_
  · cases henum : member schema "enum" with
    | none => exact ⟨fun _ _ h => (by cases h), fun _ => rfl⟩
    | some value =>
      cases value with
      | array values =>
        dsimp only
        rw [failIf_ok_iff, Bool.not_eq_false']
        exact ⟨fun h _ heq => by cases heq; exact h, fun h => h values rfl⟩
      | null | bool | number | string | object => exact ⟨fun _ _ h => (by cases h), fun _ => rfl⟩
  · cases hconst : member schema "const" with
    | none => exact ⟨fun _ _ h => (by cases h), fun _ => rfl⟩
    | some value =>
      dsimp only
      rw [failIf_ok_iff, Bool.not_eq_false']
      exact ⟨fun h _ heq => by cases heq; exact h, fun h => h value rfl⟩

theorem validateCount_ok_iff {count : Int} {minimumKeyword maximumKeyword unit : String} :
    validateCount count schema pointer minimumKeyword maximumKeyword unit = .ok () ↔
      (∀ bound, (member schema minimumKeyword).bind countOf = some bound → bound ≤ count) ∧
        ∀ bound, (member schema maximumKeyword).bind countOf = some bound → count ≤ bound := by
  unfold validateCount
  rw [seq_ok]
  refine and_congr ?_ ?_
  · cases (member schema minimumKeyword).bind countOf with
    | none => exact ⟨fun _ _ h => (by cases h), fun _ => rfl⟩
    | some bound =>
      dsimp only
      rw [failIf_ok_iff, decide_eq_false_iff_not, not_lt]
      exact ⟨fun h _ heq => by cases heq; exact h, fun h => h bound rfl⟩
  · cases (member schema maximumKeyword).bind countOf with
    | none => exact ⟨fun _ _ h => (by cases h), fun _ => rfl⟩
    | some bound =>
      dsimp only
      rw [failIf_ok_iff, decide_eq_false_iff_not, not_lt]
      exact ⟨fun h _ heq => by cases heq; exact h, fun h => h bound rfl⟩

theorem validateNumberBounds_ok_iff {number : Rat} :
    validateNumberBounds (some number) schema pointer = .ok () ↔
      (∀ bound, boundOf (member schema "minimum") = some bound → bound ≤ number) ∧
        ∀ bound, boundOf (member schema "maximum") = some bound → number ≤ bound := by
  unfold validateNumberBounds
  rw [seq_ok]
  refine and_congr ?_ ?_
  · cases boundOf (member schema "minimum") with
    | none => exact ⟨fun _ _ h => (by cases h), fun _ => rfl⟩
    | some bound =>
      dsimp only
      rw [failIf_ok_iff, decide_eq_false_iff_not, not_lt]
      exact ⟨fun h _ heq => by cases heq; exact h, fun h => h bound rfl⟩
  · cases boundOf (member schema "maximum") with
    | none => exact ⟨fun _ _ h => (by cases h), fun _ => rfl⟩
    | some bound =>
      dsimp only
      rw [failIf_ok_iff, decide_eq_false_iff_not, not_lt]
      exact ⟨fun h _ heq => by cases heq; exact h, fun h => h bound rfl⟩

theorem validateString_ok_iff {text : Bytes} :
    validateString text schema pointer = .ok () ↔
      ((∀ bound, (member schema "minLength").bind countOf = some bound → bound ≤ runeCount text) ∧
        ∀ bound, (member schema "maxLength").bind countOf = some bound → (runeCount text : Int) ≤ bound) ∧
      ∀ format, member schema "format" = some (.string format) → matchesStringFormat text format = true := by
  unfold validateString
  rw [seq_ok, validateCount_ok_iff]
  refine and_congr_right fun _ => ?_
  cases member schema "format" with
  | none => exact ⟨fun _ _ h => (by cases h), fun _ => rfl⟩
  | some value =>
    cases value with
    | string format =>
      dsimp only
      by_cases hm : matchesStringFormat text format = true
      · rw [if_pos hm]
        exact ⟨fun _ _ heq => by cases heq; exact hm, fun _ => rfl⟩
      · rw [if_neg hm]
        exact ⟨fun h => (by cases h), fun h => absurd (h format rfl) hm⟩
    | null | bool | number | array | object => exact ⟨fun _ _ h => (by cases h), fun _ => rfl⟩

/-! ## A node -/

theorem validateNode_number_ok_iff {literal : Bytes} {t : SchemaType} :
    validateNode (.number literal) schema pointer t = .ok () ↔
      ∃ number, parseBoundedJSONNumber literal = some number ∧ isType (.number literal) (some number) t = true ∧
        validateEnumAndConst (.number literal) (some number) schema pointer = .ok () ∧
        validateNumberBounds (some number) schema pointer = .ok () := by
  unfold validateNode readNumber
  dsimp only
  cases parseBoundedJSONNumber literal with
  | none => exact ⟨fun h => (by cases h), fun ⟨_, h, _⟩ => (by cases h)⟩
  | some number =>
    show (failIf _ _ _ >>= fun _ => _) = _ ↔ _
    rw [seq_ok, seq_ok, failIf_ok_iff, Bool.not_eq_false']
    exact ⟨fun h => ⟨number, rfl, h⟩, fun ⟨_, heq, h⟩ => by cases heq; exact h⟩

/-- What is checked of an instance that is not a number, with what is checked of its kind. -/
theorem validateNode_ok_iff {actual : Tree} {t : SchemaType} (h : ∀ literal, actual ≠ .number literal) :
    validateNode actual schema pointer t = .ok () ↔
      isType actual none t = true ∧ validateEnumAndConst actual none schema pointer = .ok () ∧
        (match actual with
          | .string text => validateString text schema pointer
          | .array values => validateCount values.length schema pointer "minItems" "maxItems" "items"
          | .object object =>
            failIf (!(sortedKeys object).all (fun name => (get (objectOf (member schema "properties")) name).isSome)) pointer
              "the object has a property the schema does not declare"
          | _ => .ok ()) = .ok () := by
  have hread : readNumber actual pointer = .ok none := by
    cases actual with
    | number literal => exact absurd rfl (h literal)
    | null | bool | string | array | object => rfl
  unfold validateNode
  rw [hread]
  show (failIf _ _ _ >>= fun _ => _) = _ ↔ _
  rw [seq_ok, seq_ok, failIf_ok_iff, Bool.not_eq_false']
  cases actual with
  | number literal => exact absurd rfl (h literal)
  | null | bool | string | array | object => exact Iff.rfl

/-! ## An instance -/

theorem validateInstance_null_ok_iff :
    validateInstance .null schema pointer = .ok () ↔
      ∃ t, schemaType (member schema "type") = some t ∧ (t.2 = true ∨ t.1 = .null) ∧
        validateEnumAndConst .null none schema pointer = .ok () := by
  rw [validateInstance.eq_def, bind_eq_ok]
  refine exists_congr fun t => ?_
  rw [readSchemaType_ok_iff, seq_ok, failIf_ok_iff, Bool.and_eq_false_iff, Bool.not_eq_false', bne_eq_false_iff_eq]

theorem validateInstance_array_ok_iff {values : List Tree} :
    validateInstance (.array values) schema pointer = .ok () ↔
      ∃ t, schemaType (member schema "type") = some t ∧ validateNode (.array values) schema pointer t.1 = .ok () ∧
        validateItems values (objectOf (member schema "items")) pointer 0 = .ok () := by
  rw [validateInstance.eq_def, bind_eq_ok]
  refine exists_congr fun t => ?_
  rw [readSchemaType_ok_iff, seq_ok]

theorem validateInstance_object_ok_iff {object : Members} :
    validateInstance (.object object) schema pointer = .ok () ↔
      ∃ t, schemaType (member schema "type") = some t ∧ validateNode (.object object) schema pointer t.1 = .ok () ∧
        validateProperties object (objectOf (member schema "properties")) pointer
          (sortedKeys (objectOf (member schema "properties"))) = .ok () := by
  rw [validateInstance.eq_def, bind_eq_ok]
  refine exists_congr fun t => ?_
  rw [readSchemaType_ok_iff, seq_ok]

theorem validateInstance_scalar_ok_iff {actual : Tree} (h : isJSONScalar actual = true) (hnull : actual ≠ .null) :
    validateInstance actual schema pointer = .ok () ↔
      ∃ t, schemaType (member schema "type") = some t ∧ validateNode actual schema pointer t.1 = .ok () := by
  rw [validateInstance.eq_def, bind_eq_ok]
  refine exists_congr fun t => ?_
  rw [readSchemaType_ok_iff]
  cases actual with
  | null => exact absurd rfl hnull
  | array | object => cases h
  | bool | number | string => exact Iff.rfl

theorem validateItems_ok_iff {items : Members} : ∀ {values : List Tree} {index : Nat},
    validateItems values items pointer index = .ok () ↔
      ∀ (i : Nat) (value : Tree), values[i]? = some value →
        validateInstance value items (below pointer (formatNat (index + i))) = .ok ()
  | [], index => by
    rw [validateItems.eq_def]
    exact ⟨fun _ i value h => (by cases h), fun _ => rfl⟩
  | value :: rest, index => by
    rw [validateItems.eq_def]
    dsimp only
    rw [seq_ok, validateItems_ok_iff]
    constructor
    · rintro ⟨hhead, htail⟩ i value' hi
      cases i with
      | zero =>
        cases hi
        exact hhead
      | succ i =>
        have := htail i value' hi
        rwa [Nat.add_assoc, Nat.add_comm 1 i] at this
    · intro h
      refine ⟨h 0 value rfl, fun i value' hi => ?_⟩
      rw [Nat.add_assoc, Nat.add_comm 1 i]
      exact h (i + 1) value' hi

theorem validateProperties_ok_iff {object properties : Members} : ∀ {names : List Bytes},
    validateProperties object properties pointer names = .ok () ↔
      ∀ name ∈ names, ∃ value, get object name = some value ∧
        validateInstance value (objectOf (get properties name)) (below pointer (escapeJSONPointerSegment name)) = .ok ()
  | [] => by
    rw [validateProperties.eq_def]
    exact ⟨fun _ _ h => (by cases h), fun _ => rfl⟩
  | name :: rest => by
    rw [validateProperties.eq_def, List.forall_mem_cons]
    dsimp only
    split
    next hget =>
      rw [hget]
      constructor
      · exact fun h => absurd h fail_ok
      · rintro ⟨⟨_, h, _⟩, _⟩
        cases h
    next value hget =>
      rw [seq_ok, validateProperties_ok_iff, hget]
      refine and_congr_left fun _ => ⟨fun h => ⟨value, rfl, h⟩, ?_⟩
      rintro ⟨_, heq, h⟩
      cases heq
      exact h

end

end Textgen
end Dex
