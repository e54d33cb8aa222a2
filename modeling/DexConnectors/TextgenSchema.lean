import DexConnectors.LibJsonTree
import DexConnectors.LibNumberText
import DexConnectors.LibTimeText
import DexConnectors.OperationModel
/-!
# TextgenSchema — structured output (`sdkgo/textgen/structured_output.go`)

`checkPortableSchema` is what a request's schema has to pass; `extractStructuredAnswer` checks generated text against it.
Their errors name a location and a reason.
-/
namespace Dex
namespace Textgen

open Lib Lib.Utf8 Lib.Json

/-- `schemaLocationError`. -/
structure SchemaLocationError where
  pointer : Bytes
  reason  : Bytes
  deriving DecidableEq

def SchemaLocationError.error (err : SchemaLocationError) : Bytes :=
  ascii "at " ++ (if err.pointer = [] then ascii "the root" else err.pointer) ++ ascii ": " ++ err.reason

abbrev Check := Except SchemaLocationError Unit

def fail (pointer : Bytes) (reason : String) : Check := .error ⟨pointer, ascii reason⟩

def failIf (b : Bool) (pointer : Bytes) (reason : String) : Check := if b then fail pointer reason else .ok ()

def checkEach {A : Type} (check : A → Check) : List A → Check
  | [] => .ok ()
  | a :: rest => check a >>= fun _ => checkEach check rest

def escapeJSONPointerSegment (segment : Bytes) : Bytes :=
  segment.flatMap (fun b => if b = 0x7E then ascii "~0" else if b = 0x2F then ascii "~1" else [b])

/-- A location below a pointer. -/
def below (pointer segment : Bytes) : Bytes := pointer ++ 0x2F :: segment

/-! ## Values -/

/-- The value of a number without its exponent, times a power of ten. -/
def ratOf (mantissa : Bytes) (exponent : Int) : Rat :=
  let value : Int := digitsValue (mantissa.filter Utf8.isDigit)
  let scale : Int := exponent - ((mantissa.dropWhile (· != 0x2E)).drop 1).length
  mkRat ((if mantissa.head? = some 0x2D then -value else value) * 10 ^ scale.toNat) (10 ^ (-scale).toNat)

def maxJSONNumberLength : Nat := 256

def maxJSONNumberExponent : Int := 400

def isMark (b : UInt8) : Bool := b == 0x65 || b == 0x45

def parseBoundedJSONNumber (literal : Bytes) : Option Rat :=
  if literal = [] ∨ maxJSONNumberLength < literal.length then none
  else
    match literal.dropWhile (fun b => !isMark b) with
    | [] => some (ratOf literal 0)
    | _ :: text =>
      match parseInt text with
      | none => none
      | some exponent =>
        if maxJSONNumberExponent < exponent ∨ exponent < -maxJSONNumberExponent then none
        else some (ratOf (literal.takeWhile (fun b => !isMark b)) exponent)

def isJSONScalar : Tree → Bool
  | .array _ | .object _ => false
  | _ => true

def isBoundedJSONScalar : Tree → Bool
  | .number literal => (parseBoundedJSONNumber literal).isSome
  | _ => true

def isEqualJSONScalar (expected actual : Tree) (actualNumber : Option Rat) : Bool :=
  match expected, actual with
  | .null, .null => true
  | .string text, .string text' => text' == text
  | .bool b, .bool b' => b' == b
  | .number literal, _ =>
    match actualNumber, parseBoundedJSONNumber literal with
    | some number, some value => value == number
    | _, _ => false
  | _, _ => false

def containsJSONScalar (values : List Tree) (actual : Tree) (actualNumber : Option Rat) : Bool :=
  values.any (fun candidate => isEqualJSONScalar candidate actual actualNumber)

/-! ## Types -/

inductive SchemaType where
  | object | array | string | number | integer | boolean | null
  deriving DecidableEq

def SchemaType.all : List SchemaType := [.object, .array, .string, .number, .integer, .boolean, .null]

def SchemaType.name : SchemaType → String
  | .object => "object"
  | .array => "array"
  | .string => "string"
  | .number => "number"
  | .integer => "integer"
  | .boolean => "boolean"
  | .null => "null"

/-- `isKnownType`, with the type it knows. -/
def knownType (name : Bytes) : Option SchemaType := SchemaType.all.find? (fun t => ascii t.name == name)

def typeError : String := "\"type\" must be one JSON type or a pair of one type and \"null\""

/-- The type of a node, and whether null is allowed as well. -/
def schemaType : Option Tree → Option (SchemaType × Bool)
  | some (.string name) => (knownType name).map (·, false)
  | some (.array [.string first, .string second]) =>
    if second = ascii "null" ∧ first ≠ ascii "null" then (knownType first).map (·, true)
    else if first = ascii "null" ∧ second ≠ ascii "null" then (knownType second).map (·, true)
    else none
  | _ => none

def readSchemaType (node : Members) (pointer : Bytes) : Except SchemaLocationError (SchemaType × Bool) :=
  match schemaType (get node (ascii "type")) with
  | some t => .ok t
  | none => .error ⟨pointer, ascii typeError⟩

def member (node : Members) (keyword : String) : Option Tree := get node (ascii keyword)

/-- `value.(map[string]any)`, the nil map when it is none. -/
def objectOf : Option Tree → Members
  | some (.object members) => members
  | _ => []

/-! ## Portable schemas -/

def maxSchemaDepth : Nat := 10

def portableSchemaKeywords : List String :=
  ["type", "properties", "required", "additionalProperties", "items", "enum", "const", "description", "title", "minimum",
    "maximum", "minLength", "maxLength", "minItems", "maxItems", "format"]

def portableSchemaFormats : List String := ["date-time", "date", "time", "uuid"]

def truncateForMessage (value : Bytes) : Bytes := if value.length ≤ 64 then value else value.take 64 ++ ascii "..."

/-- The one type that a keyword applies to. -/
def allowedFor : List (String × SchemaType) :=
  [("properties", .object), ("required", .object), ("additionalProperties", .object), ("items", .array),
    ("minItems", .array), ("maxItems", .array), ("minLength", .string), ("maxLength", .string), ("format", .string)]

def checkKeywordApplicability (node : Members) (pointer : Bytes) (primaryType : SchemaType) : Check :=
  checkEach (fun keyword =>
    match allowedFor.find? (fun p => ascii p.1 == keyword) with
    | some (name, requiredType) =>
      failIf (requiredType != primaryType) pointer s!"keyword \"{name}\" applies only to type \"{requiredType.name}\""
    | none =>
      match ["minimum", "maximum"].find? (fun name => ascii name == keyword) with
      | some name =>
        failIf (primaryType != .number && primaryType != .integer) pointer
          s!"keyword \"{name}\" applies only to number and integer types"
      | none => .ok ()) (sortedKeys node)

def checkAnnotationText (node : Members) (pointer : Bytes) (keyword : String) : Check :=
  match member node keyword with
  | none | some (.string _) => .ok ()
  | some _ => fail pointer s!"\"{keyword}\" must be a string"

def checkEnumValue (pointer : Bytes) (candidate : Tree) : Check :=
  failIf (!isJSONScalar candidate) pointer "\"enum\" values must be strings, numbers, booleans, or null" >>= fun _ =>
    failIf (!isBoundedJSONScalar candidate) pointer "\"enum\" has a number that is out of range"

def checkEnum (node : Members) (pointer : Bytes) : Check :=
  match member node "enum" with
  | none => .ok ()
  | some (.array (value :: values)) => checkEach (checkEnumValue pointer) (value :: values)
  | some _ => fail pointer "\"enum\" must be a non-empty array"

def checkConst (node : Members) (pointer : Bytes) : Check :=
  match member node "const" with
  | none => .ok ()
  | some value =>
    failIf (!isJSONScalar value) pointer "\"const\" must be a string, number, boolean, or null" >>= fun _ =>
      failIf (!isBoundedJSONScalar value) pointer "\"const\" is a number that is out of range"

def checkAnnotationsAndValues (node : Members) (pointer : Bytes) : Check :=
  checkEach (checkAnnotationText node pointer) ["description", "title"] >>= fun _ =>
    checkEnum node pointer >>= fun _ => checkConst node pointer

/-- `strconv.ParseInt` of a number. -/
def countOf : Tree → Option Int
  | .number literal => parseInt literal
  | _ => none

def readCountKeyword (node : Members) (pointer : Bytes) (keyword : String) :
    Except SchemaLocationError (Option Int) :=
  match member node keyword with
  | none => .ok none
  | some value =>
    match countOf value with
    | some count => if count < 0 then .error ⟨pointer, ascii s!"\"{keyword}\" must be a non-negative integer"⟩ else .ok (some count)
    | none => .error ⟨pointer, ascii s!"\"{keyword}\" must be a non-negative integer"⟩

def checkCountBounds (node : Members) (pointer : Bytes) (minimumKeyword maximumKeyword : String) : Check :=
  readCountKeyword node pointer minimumKeyword >>= fun minimum => readCountKeyword node pointer maximumKeyword >>= fun maximum =>
    match minimum, maximum with
    | some lower, some upper => failIf (upper < lower) pointer s!"\"{minimumKeyword}\" exceeds \"{maximumKeyword}\""
    | _, _ => .ok ()

def readNumberBound (node : Members) (pointer : Bytes) (keyword : String) : Except SchemaLocationError (Option Rat) :=
  match member node keyword with
  | none => .ok none
  | some (.number literal) =>
    match parseBoundedJSONNumber literal with
    | some bound => .ok (some bound)
    | none => .error ⟨pointer, ascii s!"\"{keyword}\" is a number that is out of range"⟩
  | some _ => .error ⟨pointer, ascii s!"\"{keyword}\" must be a number"⟩

def checkNumberBounds (node : Members) (pointer : Bytes) : Check :=
  readNumberBound node pointer "minimum" >>= fun minimum => readNumberBound node pointer "maximum" >>= fun maximum =>
    match minimum, maximum with
    | some lower, some upper => failIf (upper < lower) pointer "\"minimum\" exceeds \"maximum\""
    | _, _ => .ok ()

/-- The loop over `required`, with the names it has gone past. -/
def checkRequired (properties : Members) (pointer : Bytes) : List Bytes → List Tree → Except SchemaLocationError (List Bytes)
  | listed, [] => .ok listed
  | listed, .string name :: rest =>
    if listed.contains name then .error ⟨pointer, ascii "\"required\" must list property names once each"⟩
    else if (get properties name).isNone then
      .error ⟨pointer, ascii "\"required\" lists a property that \"properties\" does not declare"⟩
    else checkRequired properties pointer (name :: listed) rest
  | _, _ :: _ => .error ⟨pointer, ascii "\"required\" must list property names once each"⟩

def checkFormat (node : Members) (pointer : Bytes) : Check :=
  match member node "format" with
  | none => .ok ()
  | some (.string format) =>
    failIf (!(portableSchemaFormats.map ascii).contains format) pointer "\"format\" must be date-time, date, time, or uuid"
  | some _ => fail pointer "\"format\" must be date-time, date, time, or uuid"

section Nodes

variable (isPrint : Nat → Bool)

def checkKeyword (pointer keyword : Bytes) : Check :=
  if (portableSchemaKeywords.map ascii).contains keyword then .ok ()
  else .error ⟨pointer, ascii "keyword " ++ Operation.quote isPrint (truncateForMessage keyword) ++
    ascii " is outside the portable subset"⟩

/-- `checkObjectSchema`, with what checks a property's schema. -/
def checkObjectSchema (checkNode : Members → Bytes → Check) (node : Members) (pointer : Bytes) : Check :=
  match member node "properties" with
  | some (.object properties) =>
    match member node "additionalProperties" with
    | some (.bool false) =>
      match member node "required" with
      | some (.array required) =>
        checkRequired properties pointer [] required >>= fun listed =>
          failIf (listed.length != (sortedKeys properties).length) pointer
            "an object must list every property in \"required\"; use type [T, \"null\"] for an optional value" >>= fun _ =>
          checkEach (fun name =>
            match get properties name with
            | some (.object property) =>
              checkNode property (below (pointer ++ ascii "/properties") (escapeJSONPointerSegment name))
            | _ => fail (below (pointer ++ ascii "/properties") (escapeJSONPointerSegment name))
              "a property schema must be an object") (sortedKeys properties)
      | _ => fail pointer "an object must list every property in \"required\""
    | _ => fail pointer "an object must set \"additionalProperties\" to false"
  | _ => fail pointer "an object requires a \"properties\" object"

def checkArraySchema (checkNode : Members → Bytes → Check) (node : Members) (pointer : Bytes) : Check :=
  checkCountBounds node pointer "minItems" "maxItems" >>= fun _ =>
    match member node "items" with
    | some (.object items) => checkNode items (pointer ++ ascii "/items")
    | _ => fail pointer "an array requires an \"items\" schema object"

/-- `checkSchemaNode`, with the levels that are left. -/
def checkSchemaNode : Nat → Members → Bytes → Check
  | 0, _, pointer => fail pointer s!"the schema is nested deeper than {maxSchemaDepth} levels"
  | levels + 1, node, pointer =>
    checkEach (checkKeyword isPrint pointer) (sortedKeys node) >>= fun _ =>
      readSchemaType node pointer >>= fun primaryType =>
        checkKeywordApplicability node pointer primaryType.1 >>= fun _ =>
          checkAnnotationsAndValues node pointer >>= fun _ =>
            match primaryType.1 with
            | .object => checkObjectSchema (checkSchemaNode levels) node pointer
            | .array => checkArraySchema (checkSchemaNode levels) node pointer
            | .string => checkFormat node pointer >>= fun _ => checkCountBounds node pointer "minLength" "maxLength"
            | .number | .integer => checkNumberBounds node pointer
            | .boolean | .null => .ok ()

def checkPortableSchema (schema : Members) : Check :=
  readSchemaType schema [] >>= fun primaryType =>
    failIf (primaryType != (.object, false)) [] "the root must have type \"object\"" >>= fun _ =>
      checkSchemaNode isPrint maxSchemaDepth schema []

/-- A canonical schema that passed its check. -/
structure PortableSchema where
  members  : Members
  portable : checkPortableSchema isPrint members = .ok ()

end Nodes

/-! ## Answers -/

/-- `utf8.RuneCountInString`; the first number is the bytes of the current rune still to pass. -/
def runeCountFrom : Nat → Bytes → Nat
  | _, [] => 0
  | n + 1, _ :: rest => runeCountFrom n rest
  | 0, b :: rest => 1 + runeCountFrom (seqLen (b :: rest) - 1) rest

def runeCount (text : Bytes) : Nat := runeCountFrom 0 text

/-- What `time.Parse` lets an offset be. -/
def isOffset : TimeText.Zone → Bool
  | .utc => true
  | .east hours minutes | .west hours minutes => hours.val ≤ 24 && minutes.val ≤ 60

def isDateTime (text : Bytes) : Bool :=
  match TimeText.parse text with
  | some f => isDate f.year.val f.month.val f.day.val && isClock f.hour.val f.minute.val f.second.val && isOffset f.zone
  | none => false

def isDateOnly (text : Bytes) : Bool :=
  match TimeText.takeDate text with
  | some ((year, month, day), rest) => rest == [] && isDate year.val month.val day.val
  | none => false

/-- `15:04:05Z07:00`. -/
def isTimeOnly (text : Bytes) : Bool :=
  match TimeText.takeClock text with
  | some ((hour, minute, second), rest) =>
    match (TimeText.takeFraction rest).bind (fun fraction => TimeText.takeZone fraction.2) with
    | some zone => isClock hour.val minute.val second.val && isOffset zone
    | none => false
  | none => false

/-- Groups of hexadecimal digits with hyphens between them. -/
def isHexGroups : List Nat → Bytes → Bool
  | [], text => text == []
  | [n], text => text.length == n && text.all isHex
  | n :: m :: groups, text =>
    (text.take n).length == n && (text.take n).all isHex && (text.drop n).head? == some 0x2D &&
      isHexGroups (m :: groups) (text.drop (n + 1))

def uuidPattern (text : Bytes) : Bool := isHexGroups [8, 4, 4, 4, 12] text

def matchesStringFormat (text format : Bytes) : Bool :=
  if format = ascii "date-time" then isDateTime text
  else if format = ascii "date" then isDateOnly text
  else if format = ascii "time" then isTimeOnly text
  else if format = ascii "uuid" then uuidPattern text
  else false

def isType (actual : Tree) (number : Option Rat) (primaryType : SchemaType) : Bool :=
  match actual with
  | .object _ => primaryType == .object
  | .array _ => primaryType == .array
  | .string _ => primaryType == .string
  | .bool _ => primaryType == .boolean
  | .number _ => primaryType == .number || (primaryType == .integer && number.map Rat.den == some 1)
  | .null => false

def validateInstanceType (actual : Tree) (number : Option Rat) (primaryType : SchemaType) (pointer : Bytes) : Check :=
  failIf (!isType actual number primaryType) pointer s!"expected type {primaryType.name}"

def validateEnumAndConst (actual : Tree) (number : Option Rat) (schema : Members) (pointer : Bytes) : Check :=
  (match member schema "enum" with
    | some (.array values) =>
      failIf (!containsJSONScalar values actual number) pointer "the value is not one of the enum values"
    | _ => .ok ()) >>= fun _ =>
  (match member schema "const" with
    | some value => failIf (!isEqualJSONScalar value actual number) pointer "the value does not equal const"
    | none => .ok ())

def validateCount (count : Int) (schema : Members) (pointer : Bytes) (minimumKeyword maximumKeyword unit : String) : Check :=
  (match (member schema minimumKeyword).bind countOf with
    | some bound => failIf (count < bound) pointer s!"the value has fewer {unit} than {minimumKeyword}"
    | none => .ok ()) >>= fun _ =>
  (match (member schema maximumKeyword).bind countOf with
    | some bound => failIf (bound < count) pointer s!"the value has more {unit} than {maximumKeyword}"
    | none => .ok ())

/-- The bound of a keyword. -/
def boundOf : Option Tree → Option Rat
  | some (.number literal) => parseBoundedJSONNumber literal
  | _ => none

def validateNumberBounds (value : Option Rat) (schema : Members) (pointer : Bytes) : Check :=
  (match value, boundOf (member schema "minimum") with
    | some number, some bound => failIf (number < bound) pointer "the value is below minimum"
    | _, _ => .ok ()) >>= fun _ =>
  (match value, boundOf (member schema "maximum") with
    | some number, some bound => failIf (bound < number) pointer "the value is above maximum"
    | _, _ => .ok ())

def validateString (text : Bytes) (schema : Members) (pointer : Bytes) : Check :=
  validateCount (runeCount text) schema pointer "minLength" "maxLength" "characters" >>= fun _ =>
    match member schema "format" with
    | some (.string format) =>
      if matchesStringFormat text format then .ok ()
      else .error ⟨pointer, ascii "the string does not match format " ++ format⟩
    | _ => .ok ()

/-- The number that an instance is, once its size is bounded. -/
def readNumber (actual : Tree) (pointer : Bytes) : Except SchemaLocationError (Option Rat) :=
  match actual with
  | .number literal =>
    match parseBoundedJSONNumber literal with
    | some number => .ok (some number)
    | none => .error ⟨pointer, ascii "the number is out of range"⟩
  | _ => .ok none

/-- What is checked of an instance itself. -/
def validateNode (actual : Tree) (schema : Members) (pointer : Bytes) (primaryType : SchemaType) : Check :=
  readNumber actual pointer >>= fun number =>
    validateInstanceType actual number primaryType pointer >>= fun _ =>
      validateEnumAndConst actual number schema pointer >>= fun _ =>
        match actual with
        | .string text => validateString text schema pointer
        | .number _ => validateNumberBounds number schema pointer
        | .array values => validateCount values.length schema pointer "minItems" "maxItems" "items"
        | .object object =>
          failIf (!(sortedKeys object).all (fun name => (get (objectOf (member schema "properties")) name).isSome)) pointer
            "the object has a property the schema does not declare"
        | _ => .ok ()

mutual

/-- `validateInstance`. -/
def validateInstance (actual : Tree) (schema : Members) (pointer : Bytes) : Check :=
  readSchemaType schema pointer >>= fun t =>
    match actual with
    | .null =>
      failIf (!t.2 && t.1 != .null) pointer s!"expected type {t.1.name}, found null" >>= fun _ =>
        validateEnumAndConst .null none schema pointer
    | .array values =>
      validateNode (.array values) schema pointer t.1 >>= fun _ =>
        validateItems values (objectOf (member schema "items")) pointer 0
    | .object object =>
      validateNode (.object object) schema pointer t.1 >>= fun _ =>
        validateProperties object (objectOf (member schema "properties")) pointer
          (sortedKeys (objectOf (member schema "properties")))
    | actual => validateNode actual schema pointer t.1
termination_by (sizeOf actual, 0)

def validateItems (values : List Tree) (items : Members) (pointer : Bytes) (index : Nat) : Check :=
  match values with
  | [] => .ok ()
  | value :: rest =>
    validateInstance value items (below pointer (formatNat index)) >>= fun _ => validateItems rest items pointer (index + 1)
termination_by (sizeOf values, 0)

def validateProperties (object : Members) (properties : Members) (pointer : Bytes) (names : List Bytes) : Check :=
  match names with
  | [] => .ok ()
  | name :: rest =>
    match _h : get object name with
    | none => fail (below pointer (escapeJSONPointerSegment name)) "a required property is missing"
    | some value =>
      validateInstance value (objectOf (get properties name)) (below pointer (escapeJSONPointerSegment name)) >>= fun _ =>
        validateProperties object properties pointer rest
termination_by (sizeOf object, names.length)
decreasing_by
  · exact Prod.Lex.left _ _ (sizeOf_mem (mem_of_get _h))
  · exact Prod.Lex.right _ (Nat.lt_succ_self _)

end

def maxNestingDepth : Nat := 10000

def validateStructuredOutputText (text : Bytes) (schema : Members) : Check :=
  match decode maxNestingDepth text with
  | none => fail [] "the text is not one JSON value"
  | some (actual, rest) =>
    if rest.all isSpace then validateInstance actual schema [] else fail [] "the text has data after the JSON value"

def toLower (b : UInt8) : UInt8 := if 0x41 ≤ b ∧ b ≤ 0x5A then b + 0x20 else b

/-- `strings.EqualFold(info, "json")`; U+017F folds to `s`. -/
def isJSONInfo : Bytes → Bool
  | a :: 0xC5 :: 0xBF :: rest => toLower a == 0x6A && rest.map toLower == ascii "on"
  | info => info.map toLower == ascii "json"

def fence : Bytes := ascii "```"

def stripJSONFence (text : Bytes) : Bytes :=
  let trimmed := trimSpace text
  if trimmed.length < 6 || !fence.isPrefixOf trimmed || !fence.isSuffixOf trimmed then trimmed
  else
    let inner := (trimmed.drop 3).take (trimmed.length - 6)
    if !inner.contains 0x0A then trimmed
    else if trimSpace (inner.takeWhile (· != 0x0A)) != [] && !isJSONInfo (trimSpace (inner.takeWhile (· != 0x0A))) then trimmed
    else trimSpace ((inner.dropWhile (· != 0x0A)).drop 1)

def extractStructuredAnswer (canonical : Members) (generatedText : Bytes) : Except SchemaLocationError Bytes :=
  validateStructuredOutputText (stripJSONFence generatedText) canonical >>= fun _ => .ok (stripJSONFence generatedText)

end Textgen
end Dex
