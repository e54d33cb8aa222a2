import DexConnectors.LibUnicode
import DexConnectors.LibURL
/-!
# EndpointTemplate — endpoints with tenants in them (`manifest_refresh.py`, `manifest_refresh.ts`, `token_grants.go`)

A manifest may give a token endpoint as a template whose placeholders are segments of its path.  Python replaces the
placeholders one after the other in a text that it rewrites, TypeScript all in one pass; both escape the values.
-/
namespace Dex
namespace EndpointTemplate

open Lib Lib.Unicode

abbrev Text := List Char

/-! ## Placeholders -/

inductive Token where
  | char (c : Char)
  | placeholder (name : Text)
  deriving DecidableEq

def isBrace (c : Char) : Bool := c == '{' || c == '}'

/-- The name that a `{` before this text opens: characters up to a `}`, which are no braces. -/
def nameAt (rest : Text) : Option Text :=
  match rest.dropWhile (fun c => !isBrace c) with
  | '}' :: _ => if rest.takeWhile (fun c => !isBrace c) = [] then none else some (rest.takeWhile (fun c => !isBrace c))
  | _ => none

/-- The matches of `\\{([^{}]+)\\}` and the characters between them, `skip` characters on. -/
def scanFrom : Nat → Text → List Token
  | _, [] => []
  | skip + 1, _ :: rest => scanFrom skip rest
  | 0, c :: rest =>
    match if c = '{' then nameAt rest else none with
    | some name => .placeholder name :: scanFrom (name.length + 1) rest
    | none => .char c :: scanFrom 0 rest

def scan (template : Text) : List Token := scanFrom 0 template

def Token.name? : Token → Option Text
  | .char _ => none
  | .placeholder name => some name

def placeholders (template : Text) : List Text := (scan template).filterMap Token.name?

/-- A placeholder as it stands in the template. -/
def braced (name : Text) : Text := '{' :: name ++ ['}']

/-! ## The manifest validator -/

/-- `hasFixedHTTPSOrigin`; `isHTTPSURL` is what `url.Parse` says of the text before the first placeholder. -/
def hasFixedHTTPSOrigin (isHTTPSURL : Text → Bool) (template : Text) : Bool :=
  let before := template.takeWhile (· ≠ '{')
  let rest := if "https://".toList.isPrefixOf before then before.drop 8 else before
  "https://".toList.isPrefixOf before && rest.contains '/' && rest.head? != some '/' && isHTTPSURL before

/-- What `validateValueSource` and `validateEndpointSource` ask of a template. -/
def isValidTemplate (isHTTPSURL : Text → Bool) (template : Text) : Bool :=
  !(placeholders template).isEmpty && template.count '{' == (placeholders template).length &&
    template.count '}' == (placeholders template).length && hasFixedHTTPSOrigin isHTTPSURL template

/-! ## Sources -/

structure TemplateValueRule (T : Type) where
  trimSpace : Bool
  maxBytes  : Option Nat
  reject    : List T
  patterns  : List T
  lowercase : Bool

structure TemplateSource (T : Type) where
  template           : Text
  templateValueRules : Text → TemplateValueRule T

/-- The credential fields, and the settings with their default. -/
structure Values (T : Type) where
  credentialValue : Text → Option T
  setting         : Text → T

def Values.raw {T : Type} (values : Values T) (name : Text) : T := (values.credentialValue name).getD (values.setting name)

/-- The regular expressions and the case tables of a language. -/
structure Engine (T : Type) where
  isValidPattern : T → Bool
  fullmatch      : T → T → Bool
  lower          : T → T

/-- The code points that `strings.TrimSpace` of Go removes. -/
def isGoSpace (code : Nat) : Bool :=
  code == 0x20 || (0x09 ≤ code && code ≤ 0x0D) || code == 0x85 || code == 0xA0 || code == 0x1680 ||
    (0x2000 ≤ code && code ≤ 0x200A) || code == 0x2028 || code == 0x2029 || code == 0x202F || code == 0x205F || code == 0x3000

def trimWith {α : Type} (isSpace : α → Bool) (value : List α) : List α :=
  ((value.dropWhile isSpace).reverse.dropWhile isSpace).reverse

/-- The bytes that the two SDKs leave as they are: unreserved ones and `:@&=+$`. -/
def isSafe (b : UInt8) : Bool :=
  URL.isUnreserved b || b == 0x3A || b == 0x40 || b == 0x26 || b == 0x3D || b == 0x2B || b == 0x24

/-! ## Python -/

namespace Python

/-- `_apply_template_value_rule`, `none` when it raises. -/
def applyTemplateValueRule (engine : Engine (List Nat)) (rule : TemplateValueRule (List Nat)) (raw : List Nat) :
    Option (List Nat) := do
  guard (rule.patterns.all engine.isValidPattern)
  let value := if rule.trimSpace then trimWith isGoSpace raw else raw
  if rule.maxBytes.isSome then
    let bytes ← encodeCodePoints value
    guard (bytes.length ≤ rule.maxBytes.getD 0)
  guard (!(rule.reject.map engine.lower).contains (engine.lower value))
  guard (rule.patterns.isEmpty || rule.patterns.any (engine.fullmatch · value))
  return if rule.lowercase then engine.lower value else value

/-- `quote(value, safe=":@&=+$")`. -/
def quote (value : List Nat) : Option Text := (encodeCodePoints value).map (URL.escape isSafe)

/-- `text.replace(old, new)`, `skip` characters on. -/
def replaceFrom (old new : Text) : Nat → Text → Text
  | _, [] => []
  | skip + 1, _ :: rest => replaceFrom old new skip rest
  | 0, c :: rest =>
    if old.isPrefixOf (c :: rest) then new ++ replaceFrom old new (old.length - 1) rest else c :: replaceFrom old new 0 rest

def replace (old new text : Text) : Text := replaceFrom old new 0 text

variable (engine : Engine (List Nat)) (source : TemplateSource (List Nat)) (values : Values (List Nat))

/-- The value that is inserted for a name. -/
def inserted (name : Text) : Option (List Nat) :=
  applyTemplateValueRule engine (source.templateValueRules name) (values.raw name)

/-- **`_resolve_source`** of a template. -/
def resolveSource : Option Text :=
  (placeholders source.template).foldlM (fun template name => do
    let value ← inserted engine source values name
    let quoted ← quote value
    return replace (braced name) quoted template) source.template

end Python

/-! ## TypeScript -/

namespace TypeScript

/-- `applyTemplateValueRule`. -/
def applyTemplateValueRule (engine : Engine (List UInt16)) (rule : TemplateValueRule (List UInt16)) (raw : List UInt16) :
    Option (List UInt16) := do
  guard (rule.patterns.all engine.isValidPattern)
  let value := if rule.trimSpace then trimWith (fun u => isGoSpace u.toNat) raw else raw
  guard (rule.maxBytes.all (fun maxBytes => (encodeUnits value).length ≤ maxBytes))
  guard (!rule.reject.any (fun rejected => engine.lower rejected == engine.lower value))
  guard (rule.patterns.isEmpty || rule.patterns.any (engine.fullmatch · value))
  return if rule.lowercase then engine.lower value else value

/-- The UTF-8 that `encodeURIComponent` escapes; it throws for a lone surrogate. -/
def strictUtf8 : List UInt16 → Option Bytes
  | [] => some []
  | [u] => if isSurrogate u.toNat then none else some (Json.encodeRune u.toNat)
  | high :: low :: rest =>
    match pairOf high low with
    | some r => (strictUtf8 rest).map (Json.encodeRune r ++ ·)
    | none => if isSurrogate high.toNat then none else (strictUtf8 (low :: rest)).map (Json.encodeRune high.toNat ++ ·)

def isMark (c : Char) : Bool := c == '!' || c == Char.ofNat 0x27 || c == '(' || c == ')' || c == '*'

/-- The bytes that `encodeURIComponent` leaves. -/
def isComponentSafe (b : UInt8) : Bool := URL.isUnreserved b || isMark (URL.charOf b)

def encodeURIComponent (value : List UInt16) : Option Text := (strictUtf8 value).map (URL.escape isComponentSafe)

/-- `.replace(/[!'()*]/g, …)`. -/
def escapeMarks (text : Text) : Text := text.flatMap (fun c => if isMark c then URL.percentByte c.toNat.toUInt8 else [c])

/-- The character that an escape is replaced by. -/
def restored (hi lo : Char) : Option Char :=
  match hi, lo with
  | '2', 'B' => some '+'
  | '2', '6' => some '&'
  | '3', 'D' => some '='
  | '3', 'A' => some ':'
  | '4', '0' => some '@'
  | '2', '4' => some '$'
  | _, _ => none

/-- `.replace(/%(?:2B|26|3D|3A|40|24)/g, …)`. -/
def restore : Text → Text
  | '%' :: hi :: lo :: rest =>
    match restored hi lo with
    | some c => c :: restore rest
    | none => '%' :: restore (hi :: lo :: rest)
  | c :: rest => c :: restore rest
  | [] => []

def pathEscape (value : List UInt16) : Option Text := (encodeURIComponent value).map (fun text => restore (escapeMarks text))

variable (engine : Engine (List UInt16)) (source : TemplateSource (List UInt16)) (values : Values (List UInt16))

def inserted (name : Text) : Option (List UInt16) :=
  applyTemplateValueRule engine (source.templateValueRules name) (values.raw name)

/-- **`#resolveSource`** of a template. -/
def resolveSource : Option Text :=
  ((scan source.template).mapM (fun (token : Token) =>
    match token with
    | .char c => some [c]
    | .placeholder name => do
      let value ← inserted engine source values name
      pathEscape value)).map List.flatten

end TypeScript

end EndpointTemplate
end Dex
