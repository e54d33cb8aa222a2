import DexConnectors.LibDecimal
import DexConnectors.TextgenSchema
/-!
# NumberModel — numbers of an answer in the other SDKs (`structured_output.py`, `structured_output.ts`)

Go reads the literal of a number wherever it stands (`parseBoundedJSONNumber`).  Python's decoder has made it a `Decimal`, and
it bounds what `str` writes of that.  TypeScript's decoder has made it a float; a reviver keeps the literals, `assign` files
them by location, and `validateInstance` looks its location up.
-/
namespace Dex
namespace Textgen

open Lib Lib.Utf8 Lib.Json

/-- A node of type number or integer, whose keywords hold integers that a float holds as well. -/
structure NumberNode where
  isInteger  : Bool
  isNullable : Bool
  minimum    : Option Int
  maximum    : Option Int
  enum       : Option (List Int)
  const      : Option Int
  safe       : ∀ n ∈ minimum.toList ++ maximum.toList ++ enum.getD [] ++ const.toList, n.natAbs < 2 ^ 53

def NumberNode.typeName (node : NumberNode) : String := if node.isInteger then "integer" else "number"

/-! ## In Go -/

/-- A keyword of a canonical schema that holds the integer, in any spelling. -/
def readsInt : Option Tree → Option Int → Prop
  | none, none => True
  | some (.number literal), some n => parseBoundedJSONNumber literal = some (n : Rat)
  | _, _ => False

def readsInts : Option Tree → Option (List Int) → Prop
  | none, none => True
  | some (.array values), some ns => List.Forall₂ (fun value n => readsInt (some value) (some n)) values ns
  | _, _ => False

/-- The node as `validateInstance` finds it. -/
structure NumberNode.Reads (node : NumberNode) (schema : Members) : Prop where
  type    : schemaType (member schema "type") = some (if node.isInteger then .integer else .number, node.isNullable)
  minimum : readsInt (member schema "minimum") node.minimum
  maximum : readsInt (member schema "maximum") node.maximum
  enum    : readsInts (member schema "enum") node.enum
  const   : readsInt (member schema "const") node.const

/-! ## In Python -/

namespace Python

/-- `_bounded_number(value)`, given `str(value)`. -/
def boundedNumber (literal : Bytes) : Option Decimal :=
  if 256 < literal.length then none
  else
    match literal.dropWhile (fun b => !isMark b) with
    | [] => Decimal.ofText literal
    | _ :: text =>
      match parseInt text with
      | none => none
      | some exponent => if 400 < exponent.natAbs then none else Decimal.ofText literal

def sameScalar (expected : Int) (actual : Decimal) : Bool :=
  match boundedNumber (formatInt expected), boundedNumber actual.str with
  | some a, some b => a.value == b.value
  | none, none => true
  | _, _ => false

/-- A turn of the loop over `minimum` and `maximum`. -/
def validateBound (keyword : Option Int) (breaks : Rat → Bool) (pointer : Bytes) (reason : String) : Check :=
  match keyword.bind (fun n => boundedNumber (formatInt n)) with
  | some bound => failIf (breaks bound.value) pointer reason
  | none => .ok ()

/-- `_validate_instance` of a number. -/
def validateInstance (value : Decimal) (node : NumberNode) (pointer : Bytes) : Check :=
  match boundedNumber value.str with
  | none => fail pointer "the number is out of range"
  | some number =>
    failIf (node.isInteger && number.value != (Decimal.toIntegralValue number.value : Rat)) pointer
        s!"expected type {node.typeName}" >>= fun _ =>
      failIf (node.enum.any (fun values => !values.any (sameScalar · value))) pointer
          "the value is not one of the enum values" >>= fun _ =>
        failIf (node.const.any (fun expected => !sameScalar expected value)) pointer "the value does not equal const" >>= fun _ =>
          validateBound node.minimum (fun bound => number.value < bound) pointer "the value is below minimum" >>= fun _ =>
            validateBound node.maximum (fun bound => bound < number.value) pointer "the value is above maximum"

/-- The decoder makes the literal a `Decimal`; `InvalidOperation` is caught. -/
def extractNumber (literal : Bytes) (node : NumberNode) (pointer : Bytes) : Check :=
  match Decimal.ofText literal with
  | none => fail [] "the text is not one JSON value"
  | some value => validateInstance value node pointer

end Python

/-! ## Places in an answer -/

/-- From a value to one that it holds. -/
inductive Step where
  | item (index : Nat)
  | member (name : Bytes)
  deriving DecidableEq

def Step.segment : Step → Bytes
  | .item index => formatNat index
  | .member name => name

def childAt : Tree → Step → Option Tree
  | .array items, .item index => items[index]?
  | .object members, .member name => get members name
  | _, _ => none

def valueAt : Tree → List Step → Option Tree
  | value, [] => some value
  | value, step :: rest => (childAt value step).bind (fun child => valueAt child rest)

/-- The location, as all SDKs write it. -/
def pointerOf (place : List Step) : Bytes := place.flatMap (fun step => 0x2F :: escapeJSONPointerSegment step.segment)

/-! ## In TypeScript -/

namespace TypeScript

structure Rational where
  numerator   : Int
  denominator : Int
  deriving DecidableEq

/-- `Number(match[4])` of an exponent that a float does not hold is beyond the bound as well. -/
def parseRational (literal : Bytes) : Option Rational :=
  if literal = [] ∨ 256 < literal.length then none
  else
    match Literal.parse literal with
    | none => none
    | some l =>
      if 400 < l.exponentValue.natAbs then none
      else
        let power := l.exponentValue - l.fraction.length
        let signed := (digitsValue l.digits : Int) * (if l.negative then -1 else 1)
        if 0 ≤ power then some ⟨signed * 10 ^ power.toNat, 1⟩ else some ⟨signed, 10 ^ (-power).toNat⟩

def compareRational (left right : Rational) : Int :=
  Int.sign (left.numerator * right.denominator - right.numerator * left.denominator)

mutual

/-- `assign`: what `numbers.set` is called with, in order.  A name that comes again later is one entry, with the later value. -/
def assign (current : Tree) (pointer : Bytes) : List (Bytes × Bytes) :=
  match current with
  | .array items => assignItems items pointer 0
  | .object members => assignMembers members pointer
  | _ => []
termination_by (sizeOf current, 1)

def assignEntry (child : Tree) (pointer : Bytes) : List (Bytes × Bytes) :=
  match child with
  | .number source => [(pointer, source)]
  | child => assign child pointer
termination_by (sizeOf child, 2)

def assignItems (items : List Tree) (pointer : Bytes) (index : Nat) : List (Bytes × Bytes) :=
  match items with
  | [] => []
  | child :: rest =>
    assignEntry child (below pointer (escapeJSONPointerSegment (formatNat index))) ++ assignItems rest pointer (index + 1)
termination_by (sizeOf items, 0)

def assignMembers (members : Members) (pointer : Bytes) : List (Bytes × Bytes) :=
  match members with
  | [] => []
  | (name, child) :: rest =>
    if (get rest name).isSome then assignMembers rest pointer
    else assignEntry child (below pointer (escapeJSONPointerSegment name)) ++ assignMembers rest pointer
termination_by (sizeOf members, 0)

end

/-- `numbers.get(pointer) ?? ''`. -/
def sourceAt (numbers : List (Bytes × Bytes)) (pointer : Bytes) : Bytes := (numbers.reverse.lookup pointer).getD []

def equal (number : Rational) (expected : Int) : Bool :=
  match parseRational (formatInt expected) with
  | some wanted => compareRational wanted number == 0
  | none => false

/-- The bound's text is not read: a `TypeError`. -/
def validateBound (keyword : Option Int) (breaks : Rational → Bool) (pointer : Bytes) (reason : String) : Check :=
  match keyword with
  | none => .ok ()
  | some n =>
    match parseRational (formatInt n) with
    | some bound => failIf (breaks bound) pointer reason
    | none => fail [] "Cannot read properties of undefined (reading 'denominator')"

/-- `validateInstance` of a number. -/
def validateInstance (node : NumberNode) (pointer : Bytes) (numbers : List (Bytes × Bytes)) : Check :=
  match parseRational (sourceAt numbers pointer) with
  | none => fail pointer "the number is out of range"
  | some number =>
    failIf (node.isInteger && number.numerator.tmod number.denominator != 0) pointer s!"expected type {node.typeName}" >>= fun _ =>
      failIf (node.enum.any (fun values => !values.any (equal number))) pointer
          "the value is not one of the enum values" >>= fun _ =>
        failIf (node.const.any (fun expected => !equal number expected)) pointer "the value does not equal const" >>= fun _ =>
          validateBound node.minimum (fun bound => compareRational number bound < 0) pointer "the value is below minimum" >>= fun _ =>
            validateBound node.maximum (fun bound => 0 < compareRational number bound) pointer "the value is above maximum"

end TypeScript
end Textgen
end Dex
