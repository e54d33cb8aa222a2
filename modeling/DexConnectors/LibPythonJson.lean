import DexConnectors.LibUnicode
/-!
# LibPythonJson — `json.loads` of Python

The module's own reader: bytes are decoded in the encoding that their first bytes suggest, with lone surrogates passed through, and
the text is read by recursive descent over its code points.  Beyond the grammar of JSON it knows `NaN` and the infinities.  An
integer of too many digits is refused, and so is a text that nests deeper than the interpreter recurses.

The members of an object are kept as they are read; the dictionary that Python builds keeps the last of a name.
-/
namespace Lib
namespace PythonJson

open Utf8

abbrev Codes := List Nat

/-! ## `json.detect_encoding` -/

inductive Encoding where
  | utf8
  | utf8Sig
  | utf16 (bigEndian bom : Bool)
  | utf32 (bigEndian bom : Bool)
  deriving DecidableEq, Repr

def detectEncoding (b : Bytes) : Encoding :=
  if [0x00, 0x00, 0xFE, 0xFF].isPrefixOf b then .utf32 true true
  else if [0xFF, 0xFE, 0x00, 0x00].isPrefixOf b then .utf32 false true
  else if [0xFE, 0xFF].isPrefixOf b then .utf16 true true
  else if [0xFF, 0xFE].isPrefixOf b then .utf16 false true
  else if [0xEF, 0xBB, 0xBF].isPrefixOf b then .utf8Sig
  else
    match b with
    | b0 :: b1 :: b2 :: b3 :: _ =>
      if b0 = 0 then (if b1 ≠ 0 then .utf16 true false else .utf32 true false)
      else if b1 = 0 then (if b2 ≠ 0 ∨ b3 ≠ 0 then .utf16 false false else .utf32 false false)
      else .utf8
    | [b0, b1] => if b0 = 0 then .utf16 true false else if b1 = 0 then .utf16 false false else .utf8
    | _ => .utf8

def Encoding.isUtf8 : Encoding → Bool
  | .utf8 | .utf8Sig => true
  | _ => false

/-! ## `bytes.decode(encoding, "surrogatepass")` -/

/-- How many bytes at the head encode a surrogate as UTF-8 would. -/
def surrogateLen : Bytes → Nat
  | a :: b :: c :: _ => if a = 0xED ∧ 0xA0 ≤ b ∧ b ≤ 0xBF ∧ isTail c = true then 3 else 0
  | _ => 0

def codeLen (bs : Bytes) : Nat := if seqLen bs = 0 then surrogateLen bs else seqLen bs

/-- `skipped` bytes of the last code point come first. -/
def decodeUtf8From : Nat → Bytes → Option Codes
  | _, [] => some []
  | skipped + 1, _ :: rest => decodeUtf8From skipped rest
  | 0, b :: rest =>
    match codeLen (b :: rest) with
    | 0 => none
    | n + 1 => (decodeUtf8From n rest).map (Unicode.runeOf ((b :: rest).take (n + 1)) :: ·)

def decodeUtf8 (bs : Bytes) : Option Codes := decodeUtf8From 0 bs

def units16 (bigEndian : Bool) : Bytes → Option Codes
  | [] => some []
  | [_] => none
  | a :: b :: rest =>
    (units16 bigEndian rest).map ((if bigEndian then a.toNat * 256 + b.toNat else b.toNat * 256 + a.toNat) :: ·)

def isHigh (code : Nat) : Bool := 0xD800 ≤ code && code ≤ 0xDBFF

def isLow (code : Nat) : Bool := 0xDC00 ≤ code && code ≤ 0xDFFF

def joined (high low : Nat) : Nat := 0x10000 + (high - 0xD800) * 0x400 + (low - 0xDC00)

/-- Pairs of surrogates as one code point. -/
def joinUnits : Codes → Codes
  | [] => []
  | [unit] => [unit]
  | high :: low :: rest =>
    if isHigh high && isLow low then joined high low :: joinUnits rest else high :: joinUnits (low :: rest)

def decodeUtf32 (bigEndian : Bool) : Bytes → Option Codes
  | [] => some []
  | a :: b :: c :: d :: rest =>
    let code := if bigEndian then ((a.toNat * 256 + b.toNat) * 256 + c.toNat) * 256 + d.toNat
      else ((d.toNat * 256 + c.toNat) * 256 + b.toNat) * 256 + a.toNat
    if code < 0x110000 then (decodeUtf32 bigEndian rest).map (code :: ·) else none
  | _ => none

def Encoding.decode : Encoding → Bytes → Option Codes
  | .utf8, bs => decodeUtf8 bs
  | .utf8Sig, bs => decodeUtf8 (bs.drop 3)
  | .utf16 bigEndian bom, bs => (units16 bigEndian (if bom then bs.drop 2 else bs)).map joinUnits
  | .utf32 bigEndian bom, bs => decodeUtf32 bigEndian (if bom then bs.drop 4 else bs)

/-! ## `json.scanner`, `json.decoder` -/

/-- What is read: a number is kept as its text. -/
inductive Doc where
  | null
  | bool (b : Bool)
  | constant (name : Codes)
  | number (text : Codes)
  | string (text : Codes)
  | array (items : List Doc)
  | object (members : List (Codes × Doc))

mutual

/-- How deep objects and arrays are nested. -/
def Doc.nesting : Doc → Nat
  | .array items => 1 + nestingItems items
  | .object members => 1 + nestingMembers members
  | _ => 0

def nestingItems : List Doc → Nat
  | [] => 0
  | item :: items => max item.nesting (nestingItems items)

def nestingMembers : List (Codes × Doc) → Nat
  | [] => 0
  | (_, value) :: members => max value.nesting (nestingMembers members)

end

/-- What the interpreter allows. -/
structure Limits where
  digits : Nat := 4300
  levels : Nat

def isSpace (code : Nat) : Bool := code == 0x20 || code == 0x09 || code == 0x0A || code == 0x0D

def skip (text : Codes) : Codes := text.dropWhile isSpace

def hexDigit (code : Nat) : Option Nat :=
  if 0x30 ≤ code ∧ code ≤ 0x39 then some (code - 0x30)
  else if 0x41 ≤ code ∧ code ≤ 0x46 then some (code - 0x37)
  else if 0x61 ≤ code ∧ code ≤ 0x66 then some (code - 0x57)
  else none

def hex4 (x y z w : Nat) : Option Nat := do
  let x ← hexDigit x
  let y ← hexDigit y
  let z ← hexDigit z
  let w ← hexDigit w
  return ((x * 16 + y) * 16 + z) * 16 + w

def unescape (code : Nat) : Option Nat :=
  if code = 0x22 ∨ code = 0x5C ∨ code = 0x2F then some code
  else if code = 0x62 then some 0x08
  else if code = 0x66 then some 0x0C
  else if code = 0x6E then some 0x0A
  else if code = 0x72 then some 0x0D
  else if code = 0x74 then some 0x09
  else none

/-- `scanstring` after the quote: the code points, with those that were written as `\u`, and what follows the closing quote. -/
def scanItemsOfString : Codes → Option (List (Nat × Bool) × Codes)
  | [] => none
  | c :: rest =>
    if c = 0x22 then some ([], rest)
    else if c = 0x5C then
      match rest with
      | [] => none
      | e :: rest =>
        if e = 0x75 then
          match rest with
          | x :: y :: z :: w :: rest =>
            match hex4 x y z w with
            | none => none
            | some code => (scanItemsOfString rest).map (fun r => ((code, true) :: r.1, r.2))
          | _ => none
        else
          match unescape e with
          | none => none
          | some code => (scanItemsOfString rest).map (fun r => ((code, false) :: r.1, r.2))
    else if c < 0x20 then none
    else (scanItemsOfString rest).map (fun r => ((c, false) :: r.1, r.2))

/-- Escaped surrogates that follow each other are one code point. -/
def joinEscapes : List (Nat × Bool) → Codes
  | [] => []
  | [item] => [item.1]
  | high :: low :: rest =>
    if high.2 && low.2 && isHigh high.1 && isLow low.1 then joined high.1 low.1 :: joinEscapes rest
    else high.1 :: joinEscapes (low :: rest)

def scanString (text : Codes) : Option (Codes × Codes) := (scanItemsOfString text).map (fun r => (joinEscapes r.1, r.2))

def isDigit (code : Nat) : Bool := 0x30 ≤ code && code ≤ 0x39

/-- The fraction at the head, empty when there is none. -/
def fractionOf : Codes → Codes
  | 0x2E :: rest => if (rest.takeWhile isDigit).isEmpty then [] else 0x2E :: rest.takeWhile isDigit
  | _ => []

/-- The sign of an exponent. -/
def signOf : Codes → Codes
  | c :: _ => if c = 0x2B ∨ c = 0x2D then [c] else []
  | [] => []

def exponentOf : Codes → Codes
  | c :: rest =>
    if c = 0x65 ∨ c = 0x45 then
      let digits := (rest.drop (signOf rest).length).takeWhile isDigit
      if digits.isEmpty then [] else c :: signOf rest ++ digits
    else []
  | [] => []

/-- The digits of an integer at the head. -/
def integerOf : Codes → Codes
  | c :: rest => if c = 0x30 then [c] else if isDigit c then c :: rest.takeWhile isDigit else []
  | [] => []

def minusOf : Codes → Codes
  | 0x2D :: _ => [0x2D]
  | _ => []

/-- `match_number`: the text of a number, and what follows it. -/
def scanNumber (digits : Nat) (text : Codes) : Option (Codes × Codes) :=
  let minus := minusOf text
  let integer := integerOf (text.drop minus.length)
  let fraction := fractionOf (text.drop (minus.length + integer.length))
  let exponent := exponentOf (text.drop (minus.length + integer.length + fraction.length))
  let number := minus ++ integer ++ fraction ++ exponent
  if integer.isEmpty then none
  else if fraction.isEmpty && exponent.isEmpty && digits < integer.length then none
  else some (number, text.drop number.length)

/-- A word at the head. -/
def after (word : String) (text : Codes) : Option Codes :=
  if (Unicode.codePoints word.toList).isPrefixOf text then some (text.drop word.toList.length) else none

def scanConstant (digits : Nat) (text : Codes) : Option (Doc × Codes) :=
  match after "null" text with
  | some rest => some (.null, rest)
  | none =>
  match after "true" text with
  | some rest => some (.bool true, rest)
  | none =>
  match after "false" text with
  | some rest => some (.bool false, rest)
  | none =>
  match after "NaN" text with
  | some rest => some (.constant (Unicode.codePoints "NaN".toList), rest)
  | none =>
  match after "Infinity" text with
  | some rest => some (.constant (Unicode.codePoints "Infinity".toList), rest)
  | none =>
  match after "-Infinity" text with
  | some rest => some (.constant (Unicode.codePoints "-Infinity".toList), rest)
  | none => (scanNumber digits text).map (fun r => (.number r.1, r.2))

section

variable (digits : Nat)

mutual

/-- `scan_once`. -/
def scanOnce : Nat → Codes → Option (Doc × Codes)
  | 0, _ => none
  | _ + 1, [] => none
  | fuel + 1, c :: rest =>
    if c = 0x22 then (scanString rest).map (fun r => (.string r.1, r.2))
    else if c = 0x7B then
      match skip rest with
      | 0x7D :: rest => some (.object [], rest)
      | rest => (scanMembers fuel rest).map (fun r => (.object r.1, r.2))
    else if c = 0x5B then
      match skip rest with
      | 0x5D :: rest => some (.array [], rest)
      | rest => (scanItems fuel rest).map (fun r => (.array r.1, r.2))
    else scanConstant digits (c :: rest)

/-- The items up to the closing bracket. -/
def scanItems : Nat → Codes → Option (List Doc × Codes)
  | 0, _ => none
  | fuel + 1, text =>
    match scanOnce fuel text with
    | none => none
    | some (item, rest) =>
      match skip rest with
      | 0x5D :: rest => some ([item], rest)
      | 0x2C :: rest => (scanItems fuel (skip rest)).map (fun r => (item :: r.1, r.2))
      | _ => none

def scanMembers : Nat → Codes → Option (List (Codes × Doc) × Codes)
  | 0, _ => none
  | fuel + 1, text =>
    match text with
    | 0x22 :: rest =>
      match scanString rest with
      | none => none
      | some (name, rest) =>
        match skip rest with
        | 0x3A :: rest =>
          match scanOnce fuel (skip rest) with
          | none => none
          | some (value, rest) =>
            match skip rest with
            | 0x7D :: rest => some ([(name, value)], rest)
            | 0x2C :: rest => (scanMembers fuel (skip rest)).map (fun r => ((name, value) :: r.1, r.2))
            | _ => none
        | _ => none
    | _ => none

end

/-- `JSONDecoder.decode`: a level of brackets takes two calls at most. -/
def read (text : Codes) : Option Doc :=
  match scanOnce digits (2 * text.length + 2) (skip text) with
  | none => none
  | some (doc, rest) => if (skip rest).isEmpty then some doc else none

end

/-- `json.loads` of bytes. -/
def loads (limits : Limits) (payload : Bytes) : Option Doc :=
  match (detectEncoding payload).decode payload with
  | none => none
  | some text =>
    match read limits.digits text with
    | none => none
    | some doc => if doc.nesting ≤ limits.levels then some doc else none

end PythonJson
end Lib
