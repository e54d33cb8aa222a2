import Mathlib.Data.List.Basic
import DexConnectors.ManifestModel
/-!
# ManifestPython — `ManifestCredentialRefreshDriver.refresh` (`sdkpython/.../oauthtoken/manifest_refresh.py`, `__init__.py`)

The driver goes through the grants of a method, one exchange after the other, and ends with one credential and the earliest
expiry, or raises.  A `Turn` is what the environment does for one grant: the answer of the token endpoint, or the exception
that stood in its way, and the readings of the clock.  Credentials are the attributes of the dataclass, all of them strings.
Times are microseconds.

`lower` is `str.lower`; `_validate_response_url` and `_read_jwt_expiry_seconds` are parameters.
-/
namespace Dex
namespace ManifestPython

open Lib Manifest

abbrev Credentials := String → String

structure Driver where
  fields                  : String → Option String        -- `credential_fields`, wire name to attribute
  settings                : String → String               -- a setting as text, empty when absent
  lower                   : String → String
  validateResponseURL     : ResponseURLValidation → String → Option String
  readJWTExpirySeconds    : String → Option Int

/-- How `refresh` fails. -/
inductive Failure where
  | reauthorizationRequired
  | addressRefusal
  | retry                           -- `RetryError`
  | other
  deriving DecidableEq, Repr

/-- What an exchange raises instead of a response. -/
inductive Raised where
  | reauthorizationRequired
  | addressRefusal
  | invalidURL                      -- `httpx.InvalidURL`
  | unavailable                     -- `OSError`, `ValueError`
  | other                           -- the call was cancelled, or any other exception
  deriving DecidableEq, Repr

/-- The first microsecond of `datetime`, and its last. -/
def minMicros : Int := -62135596800000000

def maxMicros : Int := 253402300799999999

structure Turn where
  answer  : Except Raised Response
  jwtNow  : Int
  now     : Int
  inRange : minMicros ≤ now

/-! ## `TokenEndpoint` -/

structure Token where
  members     : List (String × Json)
  accessToken : String
  expiresIn   : Int                 -- seconds
  scope       : String

/-- `decoded.get(name, default)` that has to be a string. -/
def textMember (members : List (String × Json)) (name : String) : Option String :=
  match JsonValue.get members name with
  | none => some ""
  | some (.scalar (.string text)) => some text
  | some _ => none

/-- `decoded.get(name, 0)` that has to be an `int`; a `bool` is one. -/
def integerMember (members : List (String × Json)) (name : String) : Option Int :=
  match JsonValue.get members name with
  | none => some 0
  | some (.scalar (.number n)) => n.integer
  | some (.scalar (.bool b)) => some (if b then 1 else 0)
  | some _ => none

def isBool (members : List (String × Json)) (name : String) : Bool :=
  match JsonValue.get members name with
  | some (.scalar (.bool _)) => true
  | _ => false

/-- The largest whole seconds of a `timedelta`. -/
def maxSeconds : Int := 86399999999999

def errorCode (members : List (String × Json)) : String := (textMember members "error").getD ""

def isAcceptedExpiry (grant : Grant) (expiresIn : Int) : Bool :=
  decide (0 < expiresIn) || (expiresIn == 0 && grant.acceptsMissingExpiresIn)

def isAcceptedType (d : Driver) (grant : Grant) (tokenType : String) : Bool :=
  if tokenType = "" then grant.acceptsMissingTokenType
  else (grant.acceptedTokenTypes.map d.lower).contains (d.lower tokenType)

/-- The members of a successful response: what `_exchange` checks of it. -/
def tokenOf (d : Driver) (grant : Grant) (members : List (String × Json)) : Except Failure Token :=
  match textMember members "access_token", integerMember members "expires_in", textMember members "token_type",
      textMember members "refresh_token", integerMember members "refresh_token_expires_in", textMember members "scope" with
  | some accessToken, some expiresIn, some tokenType, some _, some refreshExpiry, some scope =>
    if accessToken = "" ∨ isBool members "expires_in" = true ∨ isAcceptedExpiry grant expiresIn = false ∨
        isAcceptedType d grant tokenType = false then .error .retry
    else if maxSeconds < expiresIn ∨ maxSeconds < refreshExpiry then .error .other
    else .ok ⟨members, accessToken, expiresIn, scope⟩
  | _, _, _, _, _, _ => .error .retry

/-- `TokenEndpoint._exchange` on the response. -/
def readResponse (d : Driver) (grant : Grant) (response : Response) : Except Failure Token :=
  match response.contents with
  | some (.object members) =>
    if ¬ (200 ≤ response.status ∧ response.status < 300) ∨ errorCode members ≠ "" then
      .error (if response.status < 500 ∧ errorCode members ∈ grant.terminalCodes then .reauthorizationRequired else .retry)
    else tokenOf d grant members
  | _ => .error .retry

mutual

/-- `_redact_response_strings`: the strings of a response with their dotted paths.  Its stack visits the last member first
and overwrites what it finds again, so that of two strings with one path the first in the response stays. -/
def responseStrings (path : String) : Json → List (String × String)
  | .scalar (.string text) => [(path, text)]
  | .object members => memberStrings path members
  | _ => []

def memberStrings (path : String) : List (String × Json) → List (String × String)
  | [] => []
  | (member, value) :: rest =>
    responseStrings (if path = "" then member else path ++ "." ++ member) value ++ memberStrings path rest

end

def Token.mappedResponseString (token : Token) (path : String) : Option String :=
  (memberStrings "" token.members).lookup path

/-! ## `refresh` -/

def attributeOf (d : Driver) (name : String) : Except Failure String :=
  match d.fields name with
  | some a => .ok a
  | none => .error .other

def credentialValue (d : Driver) (credentials : Credentials) (name : String) : Except Failure String :=
  (attributeOf d name).map credentials

/-- A connection whose refresh token is blank skips the grant. -/
def isSkipped (d : Driver) (credentials : Credentials) (grant : Grant) : Except Failure Bool :=
  if grant.refreshField = "" then .ok false
  else (credentialValue d credentials grant.refreshField).map (fun value => value == "")

def raise (grant : Grant) : Raised → Failure
  | .reauthorizationRequired => .reauthorizationRequired
  | .addressRefusal => .addressRefusal
  | .invalidURL => if grant.isPrivateNetwork then .addressRefusal else .retry
  | .unavailable => .retry
  | .other => .other

/-- `_exchange`, with the exceptions that `refresh` makes of what it raises. -/
def exchange (d : Driver) (grant : Grant) (turn : Turn) : Except Failure Token :=
  if grant.retained.any (fun name => standardResponseFields.contains name) then .error .retry
  else match turn.answer with
    | .error raised => .error (raise grant raised)
    | .ok response => readResponse d grant response

/-- `\s` and `str.isspace`. -/
def isSpace (c : Char) : Bool :=
  let n := c.toNat
  (0x09 ≤ n && n ≤ 0x0D) || (0x1C ≤ n && n ≤ 0x20) || n == 0x85 || n == 0xA0 || n == 0x1680 || (0x2000 ≤ n && n ≤ 0x200A) ||
    n == 0x2028 || n == 0x2029 || n == 0x202F || n == 0x205F || n == 0x3000

def isSeparator : ScopeSeparators → Char → Bool
  | .whitespace, c => isSpace c
  | .whitespaceAndComma, c => c == ' ' || c == ','

/-- `re.split`; the empty names between two separators are dropped later on. -/
def splitScopes (isSeparator : Char → Bool) (text : String) : List String :=
  (text.toList.splitOnP isSeparator).map String.ofList

/-- `_scopes`. -/
def scopesOf (d : Driver) : ScopeSource → List String
  | .list scopes => scopes
  | .fromSetting name => (splitScopes isSpace (d.settings name)).filter (· != "")

def hasResourcePrefix (d : Driver) (grant : Grant) (scope : String) : Bool :=
  grant.scopeResourcePrefix != "" &&
    if grant.scopeResourcePrefixCaseInsensitive then
      (d.lower grant.scopeResourcePrefix).toList.isPrefixOf (d.lower scope).toList
    else grant.scopeResourcePrefix.toList.isPrefixOf scope.toList

def canonical (d : Driver) (grant : Grant) (scope : String) : String :=
  let stripped := if hasResourcePrefix d grant scope then String.ofList (scope.toList.drop grant.scopeResourcePrefix.length)
    else scope
  if grant.caseInsensitiveScopes then d.lower stripped else stripped

/-- A refresh grant's scopes without `offline_access`. -/
def Grant.compared (grant : Grant) (scopes : List String) : List String :=
  if grant.kind = .refresh then scopes.filter (· != "offline_access") else scopes

def acceptedScopeSets (d : Driver) (grant : Grant) : List (List String) :=
  (if grant.acceptedScopeSets = [] then [Grant.compared grant (scopesOf d grant.scopes)] else grant.acceptedScopeSets).map
    (Grant.compared grant)

/-- The strings of an array, all of whose items have to be strings. -/
def textItems : List Json → Option (List String)
  | [] => some []
  | .scalar (.string text) :: rest => (textItems rest).map (text :: ·)
  | _ :: _ => none

/-- What a response reports of its scopes: names, and whether these are there to be compared. -/
structure Reported where
  names      : List String
  isReported : Bool
  isCompared : Bool                 -- `has_scope_array`

def reportedScopes (grant : Grant) (token : Token) : Except Failure Reported :=
  let split := splitScopes (isSeparator grant.scopeSeparators) token.scope
  match grant.responseScopeField with
  | .scope => .ok ⟨split, token.scope.toList.any (fun c => !isSpace c), true⟩
  | .scopesArray =>
    match JsonValue.get token.members "scopes" with
    | none | some (.scalar .null) => .ok ⟨split, false, false⟩
    | some (.array items) =>
      match textItems items with
      | some names => .ok ⟨names, true, true⟩
      | none => .error .reauthorizationRequired
    | some _ => .error .reauthorizationRequired

def grantedScopes (d : Driver) (grant : Grant) (reported : Reported) : List String :=
  (reported.names.map (canonical d grant)).filter (· != "")

def acceptsScopes (d : Driver) (grant : Grant) (granted scopes : List String) : Bool :=
  (scopes.map (canonical d grant)).all granted.contains &&
    (!grant.exactScopes || granted.all (scopes.map (canonical d grant)).contains)

def hasWrongScopes (d : Driver) (grant : Grant) (reported : Reported) : Bool :=
  (reported.isReported || grant.exactScopes) &&
    !(acceptedScopeSets d grant).any (acceptsScopes d grant (grantedScopes d grant reported))

def checkScopes (d : Driver) (grant : Grant) (token : Token) : Except Failure Unit :=
  match reportedScopes grant token with
  | .error failure => .error failure
  | .ok reported =>
    if grant.responseScopes ≠ .ignore ∧ reported.isCompared = true ∧ hasWrongScopes d grant reported = true then
      .error .reauthorizationRequired
    else .ok ()

/-- The value that a mapping takes from the response, if any. -/
def mappedValue (grant : Grant) (token : Token) (mapping : CredentialMapping) : Option String :=
  (token.mappedResponseString mapping.source).filter (fun value => value != "" || mapping.credential != grant.refreshField)

def mappingUpdates (d : Driver) (grant : Grant) (token : Token) : List CredentialMapping → Except Failure (List (String × String))
  | [] => .ok []
  | mapping :: rest =>
    match mappedValue grant token mapping with
    | none => mappingUpdates d grant token rest
    | some value => do
      let a ← attributeOf d mapping.credential
      let updates ← mappingUpdates d grant token rest
      return (a, value) :: updates

/-- The URL that a response URL rule checks; `none` is no string. -/
def responseURL (rule : ResponseURLValidation) (token : Token) (source prior : String) : Option String :=
  match JsonValue.get token.members source with
  | some (.scalar (.string text)) => some text
  | some (.scalar .null) => some ""
  | some _ => none
  | none => if rule.requireResponse then none else some (if prior = "" then rule.defaultURL else prior)

def urlUpdates (d : Driver) (credentials : Credentials) (grant : Grant) (token : Token) : Except Failure (List (String × String)) :=
  match grant.responseURLValidation with
  | none => .ok []
  | some rule =>
    match grant.mappings.find? (fun mapping => mapping.credential == rule.credential) with
    | none => .error .other
    | some mapping => do
      let prior ← credentialValue d credentials rule.credential
      match (responseURL rule token mapping.source prior).bind (d.validateResponseURL rule) with
      | none => .error .retry
      | some url => do
        let a ← attributeOf d rule.credential
        return [(a, url)]

def copyUpdates (d : Driver) (credentials : Credentials) : List CredentialCopy → Except Failure (List (String × String))
  | [] => .ok []
  | copy :: rest => do
    let value ← credentialValue d credentials copy.fromCredential
    let a ← attributeOf d copy.credential
    let updates ← copyUpdates d credentials rest
    return (a, value) :: updates

/-- What one response changes, in the order in which it is written. -/
def updatesOf (d : Driver) (credentials : Credentials) (grant : Grant) (token : Token) :
    Except Failure (List (String × String)) := do
  let mapped ← mappingUpdates d grant token grant.mappings
  let url ← urlUpdates d credentials grant token
  let copied ← copyUpdates d credentials grant.copies
  return mapped ++ url ++ copied

/-- `dataclasses.replace`. -/
def replaced (credentials : Credentials) (updates : List (String × String)) : Credentials :=
  updates.foldl (fun c u a => if a = u.1 then u.2 else c a) credentials

/-- `_parse_duration` of a duration. -/
def micros (nanoseconds : Nat) : Int := nanoseconds / 1000

/-- The lifetime before the fallback to the token's own expiry. -/
def reportedLifetime (grant : Grant) (token : Token) : Int :=
  let lifetime := if token.expiresIn ≤ 0 then micros grant.missingExpiry else token.expiresIn * 1000000
  match grant.expiryCap with
  | some cap => if 0 < lifetime then min lifetime (micros cap) else lifetime
  | none => lifetime

def lifetimeOf (d : Driver) (grant : Grant) (token : Token) (turn : Turn) : Int :=
  match grant.accessTokenJWTExpiryFallback with
  | none => reportedLifetime grant token
  | some fallback =>
    if token.expiresIn ≤ 0 then
      match d.readJWTExpirySeconds token.accessToken with
      | some seconds => if turn.jwtNow < seconds * 1000000 then seconds * 1000000 - turn.jwtNow else micros fallback
      | none => micros fallback
    else reportedLifetime grant token

/-- The expiry of a grant: a token without a lifetime expires at `datetime.min`. -/
def expiryOf (d : Driver) (grant : Grant) (token : Token) (turn : Turn) : Except Failure Int :=
  let lifetime := lifetimeOf d grant token turn
  if lifetime = 0 then .ok minMicros
  else if maxMicros < turn.now + lifetime then .error .other
  else .ok (turn.now + lifetime)

/-- The loop of `refresh`; the number counts the grants before. -/
def refreshGrants (d : Driver) (turns : Nat → Turn) : List Grant → Nat → Credentials → Except Failure (Credentials × List Int)
  | [], _, credentials => .ok (credentials, [])
  | grant :: rest, k, credentials => do
    match ← isSkipped d credentials grant with
    | true => refreshGrants d turns rest (k + 1) credentials
    | false =>
      let token ← exchange d grant (turns k)
      checkScopes d grant token
      let updates ← updatesOf d credentials grant token
      let expiry ← expiryOf d grant token (turns k)
      let (result, expiries) ← refreshGrants d turns rest (k + 1) (replaced credentials updates)
      return (result, expiry :: expiries)

/-- `_validate_grant`. -/
def isValidGrant (d : Driver) (grant : Grant) : Bool :=
  grant.mappings.all (fun mapping => mapping.source != "" && (d.fields mapping.credential).isSome) &&
    grant.copies.all (fun copy => (d.fields copy.credential).isSome && (d.fields copy.fromCredential).isSome) &&
    match grant.missingExpiryPolicy with
    | some (.lifetime nanoseconds) => decide (0 < micros nanoseconds)
    | _ => true

/-- **`ManifestCredentialRefreshDriver.refresh`**: the credentials and their expiry. -/
def refresh (d : Driver) (method : AuthMethod) (turns : Nat → Turn) (stored : Credentials) : Except Failure (Credentials × Int) :=
  if method.grants = [] then .error .reauthorizationRequired
  else if method.grants.all (isValidGrant d) = false then .error .other
  else match refreshGrants d turns method.grants 0 stored with
    | .error failure => .error failure
    | .ok (_, []) => .error .reauthorizationRequired
    | .ok (credentials, expiry :: expiries) => .ok (credentials, expiries.foldl min expiry)

end ManifestPython
end Dex
