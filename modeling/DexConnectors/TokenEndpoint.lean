import DexConnectors.LibJsonTree
import DexConnectors.LibNumberText
/-!
# TokenEndpoint — one token exchange (`sdkgo/oauthtoken/token_endpoint.go`)

`TokenEndpoint.exchange` posts a grant and reads the provider's answer.  A lifetime is an `int64` of seconds in the answer and
an `int64` of nanoseconds in the result.  The product is exact up to 9223372036 seconds only (`lifetimes_exact_iff`), and the
sign is tested before it is made (`lifetime_overflows`).
-/
namespace Dex
namespace OAuthToken

open Lib Lib.Utf8 Lib.Json

/-! ## The response body -/

structure TokenEndpointResponse where
  accessToken           : Bytes
  expiresIn             : Int64
  refreshToken          : Bytes
  refreshTokenExpiresIn : Int64
  scope                 : Bytes
  tokenType             : Bytes
  errorCode             : Bytes
  deriving DecidableEq

def TokenEndpointResponse.zero : TokenEndpointResponse := ⟨[], 0, [], 0, [], [], []⟩

inductive Field where
  | accessToken | expiresIn | refreshToken | refreshTokenExpiresIn | scope | tokenType | errorCode
  deriving DecidableEq

def Field.all : List Field := [.accessToken, .expiresIn, .refreshToken, .refreshTokenExpiresIn, .scope, .tokenType, .errorCode]

/-- The name in the `json` tag. -/
def Field.name : Field → String
  | .accessToken => "access_token"
  | .expiresIn => "expires_in"
  | .refreshToken => "refresh_token"
  | .refreshTokenExpiresIn => "refresh_token_expires_in"
  | .scope => "scope"
  | .tokenType => "token_type"
  | .errorCode => "error"

/-- A name as `encoding/json` compares it with those of the fields: U+017F folds to `s` and U+212A to `k`. -/
def foldName : Bytes → Bytes
  | 0xC5 :: 0xBF :: rest => 0x73 :: foldName rest
  | 0xE2 :: 0x84 :: 0xAA :: rest => 0x6B :: foldName rest
  | b :: rest => (if 0x41 ≤ b ∧ b ≤ 0x5A then b + 0x20 else b) :: foldName rest
  | [] => []

def fieldOf (name : Bytes) : Option Field := Field.all.find? (fun field => ascii field.name == foldName name)

/-- A string decoded into a field; `null` leaves it. -/
def decodeText (old : Bytes) : Tree → Option Bytes
  | .null => some old
  | .string text => some text
  | _ => none

/-- A number decoded into an `int64` field. -/
def decodeInt64 (old : Int64) : Tree → Option Int64
  | .null => some old
  | .number literal => (parseInt literal).map Int64.ofInt
  | _ => none

def decodeField (r : TokenEndpointResponse) (value : Tree) : Field → Option TokenEndpointResponse
  | .accessToken => (decodeText r.accessToken value).map (fun text => { r with accessToken := text })
  | .expiresIn => (decodeInt64 r.expiresIn value).map (fun seconds => { r with expiresIn := seconds })
  | .refreshToken => (decodeText r.refreshToken value).map (fun text => { r with refreshToken := text })
  | .refreshTokenExpiresIn =>
    (decodeInt64 r.refreshTokenExpiresIn value).map (fun seconds => { r with refreshTokenExpiresIn := seconds })
  | .scope => (decodeText r.scope value).map (fun text => { r with scope := text })
  | .tokenType => (decodeText r.tokenType value).map (fun text => { r with tokenType := text })
  | .errorCode => (decodeText r.errorCode value).map (fun text => { r with errorCode := text })

def decodeMember (r : TokenEndpointResponse) (m : Bytes × Tree) : Option TokenEndpointResponse :=
  match fieldOf m.1 with
  | some field => decodeField r m.2 field
  | none => some r

def maxNestingDepth : Nat := 10000

def treeOf (contents : Bytes) : Option Tree := ((parse maxNestingDepth contents).bind ofTokens).map Prod.fst

/-- **`json.Unmarshal` into a `tokenEndpointResponse`.** -/
def unmarshalResponse (contents : Bytes) : Option TokenEndpointResponse :=
  match treeOf contents with
  | some .null => some .zero
  | some (.object members) => members.foldlM decodeMember .zero
  | _ => none

/-! ## The endpoint -/

structure SecretString where
  reveal : Bytes
  deriving DecidableEq

inductive ClientAuthenticationMethod where
  | clientSecretPost | clientSecretBasic | publicClient
  | other (text : Bytes)
  deriving DecidableEq

structure ClientCredentials where
  id                   : Bytes
  secret               : SecretString
  authenticationMethod : ClientAuthenticationMethod

structure TokenEndpoint where
  providerName                : Bytes
  url                         : Bytes
  hasHTTPClient               : Bool
  terminalErrorCodes          : List Bytes
  acceptedTokenTypes          : List Bytes
  acceptsMissingTokenType     : Bool
  acceptsMissingExpiresIn     : Bool
  retainedResponseFields      : List Bytes
  usesJSONRequestBody         : Bool
  allowsPlainHTTP             : Bool
  additionalRequestParameters : List (Bytes × Bytes)   -- in the order of the loop over the map

structure TokenResponse where
  accessToken           : SecretString
  refreshToken          : SecretString
  expiresIn             : Int64                        -- nanoseconds
  refreshTokenExpiresIn : Int64
  scope                 : Bytes
  tokenType             : Bytes
  retainedFields        : List (Bytes × Tree)

/-- `NextRefreshToken`. -/
def TokenResponse.nextRefreshToken (response : TokenResponse) (prior : SecretString) : SecretString :=
  if response.refreshToken.reveal = [] then prior else response.refreshToken

inductive ExchangeError where
  | failed (message : Bytes)
  | reauthorizationRequired (message : Bytes)
  deriving DecidableEq

/-- What `url.Parse` finds. -/
structure ParsedURL where
  scheme   : Bytes
  hostname : Bytes
  hasUser  : Bool

/-- A request, with its body before it is encoded. -/
structure Request where
  url                       : Bytes
  form                      : List (Bytes × Bytes)
  usesJSONRequestBody       : Bool
  basicAuthenticationClient : Option ClientCredentials

inductive Answer where
  | notBuilt
  | unavailable (message : Bytes)
  | unreadable
  | response (statusCode : Nat) (body : Bytes)

/-- Network, URL parser and Unicode case folding. -/
structure Environment where
  send      : Request → Answer
  parseURL  : Bytes → Option ParsedURL
  equalFold : Bytes → Bytes → Bool

def maxTokenResponseBytes : Nat := 2 ^ 20

def isStandardTokenResponseField (fieldName : Bytes) : Bool :=
  (["access_token", "refresh_token", "expires_in", "refresh_token_expires_in", "scope", "token_type", "error",
    "error_description", "error_uri", "id_token"].map ascii).contains fieldName

def isGrantRequestParameter (parameterName : Bytes) : Bool :=
  (["grant_type", "refresh_token", "client_id", "client_secret", "assertion", "client_assertion",
    "client_assertion_type"].map ascii).contains parameterName

/-- `url.Values.Set`. -/
def setValue (form : List (Bytes × Bytes)) (name value : Bytes) : List (Bytes × Bytes) :=
  (name, value) :: form.filter (fun p => p.1 != name)

variable (env : Environment)

/-- `validateTokenEndpointURL`. -/
def validateTokenEndpointURL (value : Bytes) (allowsPlainHTTP : Bool) : Except Bytes Unit :=
  match env.parseURL value with
  | none => .error (ascii "URL cannot be parsed")
  | some parsed =>
    if !(parsed.scheme == ascii "https" || (allowsPlainHTTP && parsed.scheme == ascii "http")) || parsed.hostname == [] then
      .error (if allowsPlainHTTP then ascii "URL must be absolute HTTP or HTTPS with a host"
        else ascii "URL must be absolute HTTPS with a host")
    else if parsed.hasUser then .error (ascii "URL cannot contain user information") else .ok ()

namespace TokenEndpoint

variable (endpoint : TokenEndpoint)

/-- `fmt.Errorf` of a text after the provider's name. -/
def failure (text : String) : ExchangeError := .failed (endpoint.providerName ++ ascii text)

def isAcceptedTokenType (tokenType : Bytes) : Bool :=
  if tokenType = [] then endpoint.acceptsMissingTokenType
  else (if endpoint.acceptedTokenTypes = [] then [ascii "Bearer"] else endpoint.acceptedTokenTypes).any (env.equalFold tokenType)

def retainResponseFields (contents : Bytes) : Except ExchangeError (List (Bytes × Tree)) :=
  if endpoint.retainedResponseFields = [] then .ok []
  else
    match treeOf contents with
    | some .null => .ok []
    | some (.object members) =>
      .ok (endpoint.retainedResponseFields.filterMap (fun name => (get members name).map (name, ·)))
    | _ => .error (endpoint.failure " token response is invalid")

/-- The loop over `AdditionalRequestParameters`. -/
def addParameters : List (Bytes × Bytes) → List (Bytes × Bytes) → Except ExchangeError (List (Bytes × Bytes))
  | form, [] => .ok form
  | form, (name, value) :: rest =>
    if isGrantRequestParameter name then
      .error (.failed (endpoint.providerName ++ ascii " token endpoint cannot replace the " ++ name ++ ascii " request parameter"))
    else addParameters (setValue form name value) rest

/-- `time.Duration(seconds) * time.Second`. -/
def seconds (n : Int64) : Int64 := n * 1000000000

def hasAcceptedExpiresIn (decoded : TokenEndpointResponse) : Bool :=
  decide (0 < decoded.expiresIn) || (decoded.expiresIn == 0 && endpoint.acceptsMissingExpiresIn)

def refreshLifetime (decoded : TokenEndpointResponse) : Int64 :=
  if 0 < decoded.refreshTokenExpiresIn then seconds decoded.refreshTokenExpiresIn else 0

/-- What `exchange` makes of a response. -/
def readResponse (statusCode : Nat) (contents : Bytes) : Except ExchangeError TokenResponse :=
  match unmarshalResponse contents with
  | none => .error (endpoint.failure " token response is invalid")
  | some decoded =>
    if statusCode < 200 ∨ 300 ≤ statusCode ∨ decoded.errorCode ≠ [] then
      if statusCode < 500 ∧ decoded.errorCode ∈ endpoint.terminalErrorCodes then
        .error (.reauthorizationRequired
          (endpoint.providerName ++ ascii " rejected credential refresh with " ++ decoded.errorCode))
      else .error (.failed (endpoint.providerName ++ ascii " token endpoint returned HTTP " ++ formatNat statusCode))
    else if decoded.accessToken = [] ∨ endpoint.hasAcceptedExpiresIn decoded = false ∨
        endpoint.isAcceptedTokenType env decoded.tokenType = false then
      .error (endpoint.failure " token response omitted required fields")
    else
      (endpoint.retainResponseFields contents).map (fun retainedFields =>
        ⟨⟨decoded.accessToken⟩, ⟨decoded.refreshToken⟩, seconds decoded.expiresIn, refreshLifetime decoded, decoded.scope,
          decoded.tokenType, retainedFields⟩)

/-- `providerhttp.ReadBoundedBody`, and what is made of the answer. -/
def readAnswer : Answer → Except ExchangeError TokenResponse
  | .notBuilt => .error (endpoint.failure " token request could not be built")
  | .unavailable message => .error (.failed (endpoint.providerName ++ ascii " token endpoint is unavailable: " ++ message))
  | .unreadable => .error (endpoint.failure " token response could not be read")
  | .response statusCode body =>
    if maxTokenResponseBytes < body.length then .error (endpoint.failure " token response could not be read")
    else endpoint.readResponse env statusCode body

/-- **`exchange`.** -/
def exchange (form : List (Bytes × Bytes)) (basicAuthenticationClient : Option ClientCredentials) :
    Except ExchangeError TokenResponse :=
  if !endpoint.hasHTTPClient then .error (endpoint.failure " token endpoint has no HTTP client")
  else
    match validateTokenEndpointURL env endpoint.url endpoint.allowsPlainHTTP with
    | .error err => .error (.failed (endpoint.providerName ++ ascii " token endpoint is invalid: " ++ err))
    | .ok () =>
      match endpoint.retainedResponseFields.find? isStandardTokenResponseField with
      | some name =>
        .error (.failed (endpoint.providerName ++ ascii " token endpoint cannot retain the standard " ++ name ++ ascii " field"))
      | none =>
        match endpoint.addParameters form endpoint.additionalRequestParameters with
        | .error err => .error err
        | .ok form =>
          endpoint.readAnswer env
            (env.send ⟨endpoint.url, form, endpoint.usesJSONRequestBody, basicAuthenticationClient⟩)

/-- The refusal of incomplete material. -/
def incomplete (text : String) : ExchangeError := .reauthorizationRequired (endpoint.providerName ++ ascii text)

def exchangeRefreshToken (client : ClientCredentials) (refreshToken : SecretString) : Except ExchangeError TokenResponse :=
  let form := [(ascii "grant_type", ascii "refresh_token"), (ascii "refresh_token", refreshToken.reveal)]
  if client.id = [] ∨ refreshToken.reveal = [] then .error (endpoint.incomplete " OAuth refresh material is incomplete")
  else
    match client.authenticationMethod with
    | .clientSecretPost =>
      if client.secret.reveal = [] then .error (endpoint.incomplete " OAuth refresh material is incomplete")
      else
        endpoint.exchange env
          (setValue (setValue form (ascii "client_id") client.id) (ascii "client_secret") client.secret.reveal) none
    | .clientSecretBasic =>
      if client.secret.reveal = [] then .error (endpoint.incomplete " OAuth refresh material is incomplete")
      else endpoint.exchange env form (some client)
    | .publicClient => endpoint.exchange env (setValue form (ascii "client_id") client.id) none
    | .other _ => .error (endpoint.failure " OAuth client authentication method is not supported")

/-- `strings.Join(scopes, " ")`. -/
def joinScopes (scopes : List Bytes) : Bytes := [0x20].intercalate scopes

def exchangeClientCredentials (client : ClientCredentials) (scopes : List Bytes) : Except ExchangeError TokenResponse :=
  let grant := [(ascii "grant_type", ascii "client_credentials")]
  let form := if scopes = [] then grant else setValue grant (ascii "scope") (joinScopes scopes)
  if client.id = [] ∨ client.secret.reveal = [] then .error (endpoint.incomplete " OAuth client credentials are incomplete")
  else
    match client.authenticationMethod with
    | .clientSecretPost =>
      endpoint.exchange env
        (setValue (setValue form (ascii "client_id") client.id) (ascii "client_secret") client.secret.reveal) none
    | .clientSecretBasic => endpoint.exchange env form (some client)
    | _ => .error (endpoint.failure " client credentials grant needs ClientSecretPost or ClientSecretBasic")

def exchangeJWTBearerAssertion (assertion : SecretString) : Except ExchangeError TokenResponse :=
  if assertion.reveal = [] then .error (endpoint.incomplete " JWT-bearer assertion is empty")
  else
    endpoint.exchange env [(ascii "grant_type", ascii "urn:ietf:params:oauth:grant-type:jwt-bearer"),
      (ascii "assertion", assertion.reveal)] none

/-! ## What an accepted response is -/

/-- The request an exchange of this form sends. -/
def Sends (form : List (Bytes × Bytes)) (basicAuthenticationClient : Option ClientCredentials) (request : Request) : Prop :=
  ∃ sent, endpoint.addParameters form endpoint.additionalRequestParameters = .ok sent ∧
    request = ⟨endpoint.url, sent, endpoint.usesJSONRequestBody, basicAuthenticationClient⟩

/-- **What `exchange` accepts**: the response it was given, and what it returns of it. -/
structure Accepts (statusCode : Nat) (body : Bytes) (decoded : TokenEndpointResponse) (response : TokenResponse) : Prop where
  unmarshals  : unmarshalResponse body = some decoded
  success     : 200 ≤ statusCode ∧ statusCode < 300 ∧ decoded.errorCode = []
  accessToken : decoded.accessToken ≠ [] ∧ response.accessToken = ⟨decoded.accessToken⟩
  tokenType   : endpoint.isAcceptedTokenType env decoded.tokenType = true ∧ response.tokenType = decoded.tokenType
  lifetime    : endpoint.hasAcceptedExpiresIn decoded = true ∧ response.expiresIn = seconds decoded.expiresIn
  refresh     : response.refreshToken = ⟨decoded.refreshToken⟩ ∧ response.refreshTokenExpiresIn = refreshLifetime decoded
  scope       : response.scope = decoded.scope

variable {env endpoint}

theorem accepts_of_readResponse {statusCode : Nat} {body : Bytes} {response : TokenResponse}
    (h : endpoint.readResponse env statusCode body = .ok response) :
    ∃ decoded, endpoint.Accepts env statusCode body decoded response := by
  unfold readResponse at h
  split at h
  · cases h
  · rename_i decoded hdecoded
    split at h
    · split at h <;> cases h
    · rename_i hstatus
      split at h
      · cases h
      · rename_i hfields
        simp only [not_or, Bool.not_eq_false, ne_eq, not_not, not_lt, not_le] at hstatus hfields
        obtain ⟨hlow, hhigh, herror⟩ := hstatus
        obtain ⟨haccess, hlifetime, htype⟩ := hfields
        cases hretained : endpoint.retainResponseFields body with
        | error err =>
          rw [hretained] at h
          cases h
        | ok retainedFields =>
          rw [hretained] at h
          cases h
          exact ⟨decoded, hdecoded, ⟨hlow, hhigh, herror⟩, ⟨haccess, rfl⟩, ⟨htype, rfl⟩, ⟨hlifetime, rfl⟩, ⟨rfl, rfl⟩, rfl⟩

theorem accepts_of_exchange {form : List (Bytes × Bytes)} {client : Option ClientCredentials} {response : TokenResponse}
    (h : endpoint.exchange env form client = .ok response) :
    ∃ request statusCode body decoded, endpoint.Sends form client request ∧ env.send request = .response statusCode body ∧
      endpoint.Accepts env statusCode body decoded response := by
  unfold exchange at h
  split at h
  · cases h
  split at h
  · cases h
  split at h
  · cases h
  split at h
  · cases h
  rename_i sent hsent
  have hsends : endpoint.Sends form client ⟨endpoint.url, sent, endpoint.usesJSONRequestBody, client⟩ := ⟨sent, hsent, rfl⟩
  cases hanswer : env.send ⟨endpoint.url, sent, endpoint.usesJSONRequestBody, client⟩ with
  | response statusCode body =>
    rw [hanswer] at h
    unfold readAnswer at h
    dsimp only at h
    split at h
    · cases h
    · obtain ⟨decoded, haccepts⟩ := accepts_of_readResponse h
      exact ⟨_, statusCode, body, decoded, hsends, hanswer, haccepts⟩
  | _ =>
    rw [hanswer] at h
    cases h

/-! ## Lifetimes -/

/-- The whole seconds that a `time.Duration` can hold. -/
def maxSeconds : Int := 9223372036

theorem seconds_exact_iff {n : Int64} (h : 0 ≤ n.toInt) : (seconds n).toInt = n.toInt * 10 ^ 9 ↔ n.toInt ≤ maxSeconds := by
  have hlt := Int64.toInt_lt (seconds n)
  unfold maxSeconds
  refine ⟨fun hexact => by omega, fun hle => ?_⟩
  have hvalue : (seconds n).toInt = (n.toInt * 1000000000).bmod (2 ^ 64) := Int64.toInt_mul n 1000000000
  rw [hvalue, Int.bmod_eq_of_le_mul_two (by omega) (by omega)]
  rfl

theorem expiresIn_nonneg {decoded : TokenEndpointResponse} (h : endpoint.hasAcceptedExpiresIn decoded = true) :
    0 ≤ decoded.expiresIn.toInt := by
  simp only [hasAcceptedExpiresIn, Bool.or_eq_true, decide_eq_true_eq, Bool.and_eq_true, beq_iff_eq] at h
  rcases h with h | ⟨h, -⟩
  · exact Int.le_of_lt (Int64.lt_iff_toInt_lt.1 h)
  · rw [h]
    exact Int.le_refl _

theorem refreshLifetime_exact_iff (decoded : TokenEndpointResponse) :
    (refreshLifetime decoded).toInt = decoded.refreshTokenExpiresIn.toInt * 10 ^ 9 ↔
      0 ≤ decoded.refreshTokenExpiresIn.toInt ∧ decoded.refreshTokenExpiresIn.toInt ≤ maxSeconds := by
  unfold refreshLifetime
  split
  · rename_i hpositive
    have h : 0 ≤ decoded.refreshTokenExpiresIn.toInt := Int.le_of_lt (Int64.lt_iff_toInt_lt.1 hpositive)
    exact (seconds_exact_iff h).trans ⟨fun hle => ⟨h, hle⟩, And.right⟩
  · rename_i hnot
    have hle : decoded.refreshTokenExpiresIn.toInt ≤ 0 := Int.not_lt.1 (fun h => hnot (Int64.lt_iff_toInt_lt.2 h))
    have hzero : (0 : Int64).toInt = 0 := rfl
    unfold maxSeconds
    rw [hzero]
    omega

/-- The lifetimes of a result are those of the response, in nanoseconds. -/
structure ExactLifetimes (decoded : TokenEndpointResponse) (response : TokenResponse) : Prop where
  expiresIn             : response.expiresIn.toInt = decoded.expiresIn.toInt * 10 ^ 9
  refreshTokenExpiresIn : response.refreshTokenExpiresIn.toInt = decoded.refreshTokenExpiresIn.toInt * 10 ^ 9
  positive              : 0 < decoded.expiresIn.toInt → 0 < response.expiresIn.toInt

/-- **Lifetimes are exact within the seconds of a `time.Duration`**, and no others are. -/
theorem lifetimes_exact_iff {form : List (Bytes × Bytes)} {client : Option ClientCredentials} {response : TokenResponse}
    (h : endpoint.exchange env form client = .ok response) :
    ∃ request statusCode body decoded, endpoint.Sends form client request ∧ env.send request = .response statusCode body ∧
      unmarshalResponse body = some decoded ∧
      (ExactLifetimes decoded response ↔ decoded.expiresIn.toInt ≤ maxSeconds ∧
        0 ≤ decoded.refreshTokenExpiresIn.toInt ∧ decoded.refreshTokenExpiresIn.toInt ≤ maxSeconds) := by
  obtain ⟨request, statusCode, body, decoded, hsends, hanswer, haccepts⟩ := accepts_of_exchange h
  refine ⟨request, statusCode, body, decoded, hsends, hanswer, haccepts.unmarshals, ?_⟩
  have hnonneg := expiresIn_nonneg haccepts.lifetime.1
  constructor
  · intro hexact
    have hexpires := hexact.expiresIn
    have hrefresh := hexact.refreshTokenExpiresIn
    rw [haccepts.lifetime.2] at hexpires
    rw [haccepts.refresh.2] at hrefresh
    exact ⟨(seconds_exact_iff hnonneg).1 hexpires, (refreshLifetime_exact_iff decoded).1 hrefresh⟩
  · rintro ⟨hle, hrefresh⟩
    have hexpires := (seconds_exact_iff hnonneg).2 hle
    rw [← haccepts.lifetime.2] at hexpires
    refine ⟨hexpires, ?_, fun hpositive => by omega⟩
    rw [haccepts.refresh.2]
    exact (refreshLifetime_exact_iff decoded).2 hrefresh

end TokenEndpoint

/-! ### Two responses -/

/-- An endpoint that is given one body. -/
def sampleEnvironment (body : Bytes) : Environment where
  send := fun _ => .response 200 body
  parseURL := fun _ => some ⟨ascii "https", ascii "provider.example", false⟩
  equalFold := fun a b => a == b

def sampleEndpoint : TokenEndpoint where
  providerName := ascii "Example"
  url := ascii "https://provider.example/token"
  hasHTTPClient := true
  terminalErrorCodes := [ascii "invalid_grant"]
  acceptedTokenTypes := []
  acceptsMissingTokenType := false
  acceptsMissingExpiresIn := false
  retainedResponseFields := []
  usesJSONRequestBody := false
  allowsPlainHTTP := false
  additionalRequestParameters := []

/-- The members of a response of the given lifetime. -/
def sampleDecoded (expiresIn : Int64) : TokenEndpointResponse := ⟨ascii "a", expiresIn, [], 0, [], ascii "Bearer", []⟩

def sampleResponse (expiresIn : Int64) : TokenResponse := ⟨⟨ascii "a"⟩, ⟨[]⟩, expiresIn, 0, [], ascii "Bearer", []⟩

theorem exchange_sample {body : Bytes} {n : Int64} (hlength : body.length ≤ maxTokenResponseBytes) (hn : 0 < n)
    (h : unmarshalResponse body = some (sampleDecoded n)) :
    sampleEndpoint.exchange (sampleEnvironment body) [] none = .ok (sampleResponse (TokenEndpoint.seconds n)) := by
  have hread : sampleEndpoint.readResponse (sampleEnvironment body) 200 body = .ok (sampleResponse (TokenEndpoint.seconds n)) := by
    unfold TokenEndpoint.readResponse
    rw [h]
    dsimp only
    rw [if_neg (by simp [sampleDecoded]), if_neg]
    · rfl
    · have haccepted : sampleEndpoint.hasAcceptedExpiresIn (sampleDecoded n) = true := by
        simp [TokenEndpoint.hasAcceptedExpiresIn, sampleDecoded, hn]
      have htype : sampleEndpoint.isAcceptedTokenType (sampleEnvironment body) (sampleDecoded n).tokenType = true := by rfl
      rw [haccepted, htype]
      simp [sampleDecoded, ascii]
  have hanswer : sampleEndpoint.exchange (sampleEnvironment body) [] none =
      sampleEndpoint.readAnswer (sampleEnvironment body) (.response 200 body) := by rfl
  rw [hanswer]
  exact (if_neg (Nat.not_lt.2 hlength)).trans hread

def hourBody : Bytes := ascii "\x7b\"access_token\":\"a\",\"token_type\":\"Bearer\",\"expires_in\":3600\x7d"

theorem unmarshal_hourBody : unmarshalResponse hourBody = some (sampleDecoded 3600) := by decide +kernel

theorem lifetimes_exact_iff_hour :
    sampleEndpoint.exchange (sampleEnvironment hourBody) [] none = .ok (sampleResponse 3600000000000) ∧
      ∃ request statusCode body decoded, sampleEndpoint.Sends [] none request ∧
        (sampleEnvironment hourBody).send request = .response statusCode body ∧ unmarshalResponse body = some decoded ∧
        (TokenEndpoint.ExactLifetimes decoded (sampleResponse 3600000000000) ↔
          decoded.expiresIn.toInt ≤ TokenEndpoint.maxSeconds ∧ 0 ≤ decoded.refreshTokenExpiresIn.toInt ∧
            decoded.refreshTokenExpiresIn.toInt ≤ TokenEndpoint.maxSeconds) := by
  have hok : sampleEndpoint.exchange (sampleEnvironment hourBody) [] none = .ok (sampleResponse 3600000000000) :=
    exchange_sample (by decide) (by decide) unmarshal_hourBody
  exact ⟨hok, TokenEndpoint.lifetimes_exact_iff hok⟩

def overflowBody : Bytes := ascii "\x7b\"access_token\":\"a\",\"token_type\":\"Bearer\",\"expires_in\":9223372037\x7d"

theorem unmarshal_overflowBody : unmarshalResponse overflowBody = some (sampleDecoded 9223372037) := by decide +kernel

/-- **A lifetime that overflows**: accepted as positive, returned as negative. -/
theorem lifetime_overflows :
    ∃ response decoded, sampleEndpoint.exchange (sampleEnvironment overflowBody) [] none = .ok response ∧
      unmarshalResponse overflowBody = some decoded ∧ 0 < decoded.expiresIn.toInt ∧ response.expiresIn.toInt < 0 ∧
      ¬TokenEndpoint.ExactLifetimes decoded response := by
  refine ⟨_, _, exchange_sample (by decide) (by decide) unmarshal_overflowBody, unmarshal_overflowBody, by decide, by decide, ?_⟩
  intro hexact
  exact absurd (hexact.positive (by decide)) (by decide)

end OAuthToken
end Dex
