import DexConnectors.LibJsonValue
/-!
# ManifestModel — token grants of a manifest (`spec.auth`, `_grants` and `#grants` of the refresh drivers)

One auth method as its JSON declares it: an optional member that is absent is `none` or the empty list, which is not encoded
either; a duration is the nanoseconds its text denotes.  `AuthMethod.grants` is what both drivers read from it.  What only
the request is made of (endpoint, client, encoding, additional parameters, the claims of an assertion) is left out: requests
are the environment's.
-/
namespace Dex
namespace Manifest

open Lib

structure CredentialMapping where
  source     : String
  credential : String
  deriving DecidableEq, Repr

structure CredentialCopy where
  credential     : String
  fromCredential : String
  deriving DecidableEq, Repr

inductive ScopeSource where
  | list (scopes : List String)
  | fromSetting (name : String)
  deriving DecidableEq, Repr

inductive MissingExpiry where
  | reject
  | keep
  | lifetime (nanoseconds : Nat)
  deriving DecidableEq, Repr

inductive ResponseScopes where
  | check
  | ignore
  deriving DecidableEq, Repr

inductive ResponseScopeField where
  | scope
  | scopesArray
  deriving DecidableEq, Repr

inductive ScopeSeparators where
  | whitespace
  | whitespaceAndComma
  deriving DecidableEq, Repr

structure ResponseURLValidation where
  credential         : String
  allowedHosts       : List String
  allowedHostSuffix  : String
  allowAnyHTTPS      : Bool
  allowLoopback      : Bool
  forbidPort         : Bool
  requireResponse    : Bool
  defaultURL         : String
  deriving DecidableEq, Repr

structure RefreshGrant where
  refreshTokenCredential  : String
  credentialMappings      : List CredentialMapping
  usesUserScopes          : Bool                    -- `grantedScopes` is `userScopes`
  acceptedTokenTypes      : List String
  exactScopes             : Option Bool
  acceptsMissingTokenType : Option Bool
  deriving DecidableEq, Repr

structure Refresh where
  grants                             : List RefreshGrant
  requiredScopes                     : List String
  acceptedScopeSets                  : List (List String)
  responseURLValidation              : Option ResponseURLValidation
  responseScopes                     : ResponseScopes
  responseScopeField                 : ResponseScopeField
  scopeResourcePrefix                : String
  caseInsensitiveScopes              : Bool
  scopeResourcePrefixCaseInsensitive : Bool
  expiryCap                          : Option Nat
  accessTokenJWTExpiryFallback       : Option Nat
  terminalErrorCodes                 : List String
  acceptedTokenTypes                 : List String
  exactScopes                        : Bool
  scopeSeparators                    : ScopeSeparators
  acceptsMissingTokenType            : Bool
  missingExpiry                      : Option MissingExpiry
  deriving DecidableEq, Repr

/-- An absent `refresh` member. -/
def Refresh.absent : Refresh :=
  ⟨[], [], [], none, .check, .scope, "", false, false, none, none, [], [], false, .whitespace, false, none⟩

structure OAuth2 where
  isPrivateNetwork   : Bool                         -- `tokenEndpointNetworkPolicy` is `privateNetworkHTTP`
  scopes             : ScopeSource
  userScopes         : List String
  credentialMappings : List CredentialMapping
  refresh            : Refresh
  deriving DecidableEq, Repr

/-- The members that `clientCredentials` and `jwtBearer` share. -/
structure Minting where
  credentialMappings      : List CredentialMapping
  scopes                  : ScopeSource
  responseScopes          : ResponseScopes
  terminalErrorCodes      : List String
  acceptedTokenTypes      : List String
  scopeSeparators         : ScopeSeparators
  acceptsMissingTokenType : Bool
  missingExpiry           : Option MissingExpiry
  deriving DecidableEq, Repr

structure JWTBearer where
  minting               : Minting
  credentialCopies      : List CredentialCopy
  acceptedScopeSets     : List (List String)
  responseURLValidation : Option ResponseURLValidation
  deriving DecidableEq, Repr

inductive AuthMethod where
  | oauth2 (oauth : OAuth2)
  | clientCredentials (client : Minting)
  | jwtBearer (bearer : JWTBearer)
  | none
  deriving DecidableEq, Repr

inductive GrantKind where
  | refresh
  | clientCredentials
  | jwtBearer
  deriving DecidableEq, Repr

/-- **A grant as the drivers read it.** -/
structure Grant where
  kind                               : GrantKind
  isPrivateNetwork                   : Bool
  refreshField                       : String       -- empty in a grant without a refresh token
  mappings                           : List CredentialMapping
  copies                             : List CredentialCopy
  scopes                             : ScopeSource
  acceptedScopeSets                  : List (List String)
  responseURLValidation              : Option ResponseURLValidation
  responseScopes                     : ResponseScopes
  responseScopeField                 : ResponseScopeField
  scopeResourcePrefix                : String
  caseInsensitiveScopes              : Bool
  scopeResourcePrefixCaseInsensitive : Bool
  expiryCap                          : Option Nat
  accessTokenJWTExpiryFallback       : Option Nat
  terminalCodes                      : List String
  acceptedTokenTypes                 : List String
  exactScopes                        : Bool
  scopeSeparators                    : ScopeSeparators
  acceptsMissingTokenType            : Bool
  missingExpiryPolicy                : Option MissingExpiry
  deriving DecidableEq, Repr

/-- A list, or what stands for an absent one. -/
def orElse (declared fallback : List String) : List String := if declared = [] then fallback else declared

/-- The declared refresh grants, or the one of the mapped refresh token. -/
def OAuth2.declared (oauth : OAuth2) : List RefreshGrant :=
  if oauth.refresh.grants ≠ [] then oauth.refresh.grants
  else match oauth.credentialMappings.find? (fun mapping => mapping.source == "refresh_token") with
    | .none => []
    | some mapping => [⟨mapping.credential, oauth.credentialMappings, false, [], none, none⟩]

def OAuth2.grant (oauth : OAuth2) (declared : RefreshGrant) : Grant where
  kind := .refresh
  isPrivateNetwork := oauth.isPrivateNetwork
  refreshField := declared.refreshTokenCredential
  mappings := declared.credentialMappings
  copies := []
  scopes := if declared.usesUserScopes then .list oauth.userScopes
    else if oauth.refresh.requiredScopes ≠ [] then .list oauth.refresh.requiredScopes else oauth.scopes
  acceptedScopeSets := oauth.refresh.acceptedScopeSets
  responseURLValidation := oauth.refresh.responseURLValidation
  responseScopes := oauth.refresh.responseScopes
  responseScopeField := oauth.refresh.responseScopeField
  scopeResourcePrefix := oauth.refresh.scopeResourcePrefix
  caseInsensitiveScopes := oauth.refresh.caseInsensitiveScopes
  scopeResourcePrefixCaseInsensitive := oauth.refresh.scopeResourcePrefixCaseInsensitive
  expiryCap := oauth.refresh.expiryCap
  accessTokenJWTExpiryFallback := oauth.refresh.accessTokenJWTExpiryFallback
  terminalCodes := orElse oauth.refresh.terminalErrorCodes ["invalid_grant"]
  acceptedTokenTypes := orElse declared.acceptedTokenTypes (orElse oauth.refresh.acceptedTokenTypes ["Bearer"])
  exactScopes := declared.exactScopes.getD oauth.refresh.exactScopes
  scopeSeparators := oauth.refresh.scopeSeparators
  acceptsMissingTokenType := declared.acceptsMissingTokenType.getD oauth.refresh.acceptsMissingTokenType
  missingExpiryPolicy := oauth.refresh.missingExpiry

def Minting.grant (minting : Minting) (kind : GrantKind) (terminal : String) : Grant where
  kind := kind
  isPrivateNetwork := false
  refreshField := ""
  mappings := minting.credentialMappings
  copies := []
  scopes := minting.scopes
  acceptedScopeSets := []
  responseURLValidation := none
  responseScopes := minting.responseScopes
  responseScopeField := .scope
  scopeResourcePrefix := ""
  caseInsensitiveScopes := false
  scopeResourcePrefixCaseInsensitive := false
  expiryCap := none
  accessTokenJWTExpiryFallback := none
  terminalCodes := orElse minting.terminalErrorCodes [terminal]
  acceptedTokenTypes := orElse minting.acceptedTokenTypes ["Bearer"]
  exactScopes := false
  scopeSeparators := minting.scopeSeparators
  acceptsMissingTokenType := minting.acceptsMissingTokenType
  missingExpiryPolicy := minting.missingExpiry

/-- `_grants`, `#grants`. -/
def AuthMethod.grants : AuthMethod → List Grant
  | .oauth2 oauth => oauth.declared.map oauth.grant
  | .clientCredentials client => [client.grant .clientCredentials "invalid_client"]
  | .jwtBearer bearer => [{ bearer.minting.grant .jwtBearer "invalid_grant" with
      copies := bearer.credentialCopies, acceptedScopeSets := bearer.acceptedScopeSets,
      responseURLValidation := bearer.responseURLValidation }]
  | .none => []

def Grant.acceptsMissingExpiresIn (grant : Grant) : Bool :=
  match grant.missingExpiryPolicy with
  | .none | some .reject => false
  | some .keep | some (.lifetime _) => true

/-- The nanoseconds of a declared lifetime, zero without one. -/
def Grant.missingExpiry (grant : Grant) : Nat :=
  match grant.missingExpiryPolicy with
  | some (.lifetime nanoseconds) => nanoseconds
  | _ => 0

/-- The members of a token response that a grant retains. -/
def Grant.retained (grant : Grant) : List String :=
  (if grant.responseScopeField = .scopesArray then ["scopes"] else []) ++
    match grant.responseURLValidation with
    | .none => []
    | some rule => (grant.mappings.filter (fun mapping => mapping.credential == rule.credential)).map CredentialMapping.source

/-! ## Token responses -/

/-- A JSON number: the integer that its literal is, if it has no fraction and no exponent, and the integer that the nearest
double is, if that is safe. -/
structure Number where
  integer : Option Int
  safe    : Option Int
  agree   : ∀ n, integer = some n → safe = if -9007199254740991 ≤ n ∧ n ≤ 9007199254740991 then some n else none

abbrev Json := JsonValue Number

/-- What a token endpoint answers; `contents` is no value where the body is empty or no JSON text. -/
structure Response where
  status   : Nat
  contents : Option Json

def standardResponseFields : List String :=
  ["access_token", "refresh_token", "expires_in", "refresh_token_expires_in", "scope", "token_type", "error",
    "error_description", "error_uri", "id_token"]

end Manifest
end Dex
