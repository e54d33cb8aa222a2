import Mathlib.Data.List.Infix
import DexConnectors.TextgenSchema
/-!
# TextgenModel — one text generation attempt after its request is sent (`sdkgo/textgen/attempt.go`, `error_rules.go`)

`run` is an attempt whose request was prepared and whose credential was resolved, from the exchange with the provider on.
What the provider sends is the `Exchange`; the functions of the wire format are any functions.  `DecodeStream` stands for what
it returns over the reader of a body and with the attempt's writer of text.
-/
namespace Dex
namespace Textgen

open Lib Lib.Utf8 Lib.Json
open Operation (Failure Receipt Time)

/-! ## Data -/

structure Usage where
  inputTokens       : Int
  cachedInputTokens : Int
  outputTokens      : Int
  reasoningTokens   : Int
  totalTokens       : Int
  deriving DecidableEq

def Usage.zero : Usage := ⟨0, 0, 0, 0, 0⟩

inductive FinishReason where
  | stop | length | contentPolicy | refusal
  deriving DecidableEq

structure TextGenerationResponse where
  text                 : Bytes
  requestedModel       : Bytes
  servedModel          : Bytes
  responseID           : Bytes
  finishReason         : Option FinishReason
  providerFinishReason : Bytes
  usage                : Usage
  deriving DecidableEq

def TextGenerationResponse.empty : TextGenerationResponse := ⟨[], [], [], [], none, [], .zero⟩

structure ResponsePart where
  text        : Bytes
  isReasoning : Bool
  deriving DecidableEq

structure DecodedResponse where
  parts                : List ResponsePart
  servedModel          : Bytes
  responseID           : Bytes
  providerFinishReason : Bytes
  isRefusal            : Bool
  usage                : Usage
  deriving DecidableEq

/-- What `errors.As` and `errors.Is` find in the error of a decoder, and whether the body failed under it. -/
structure DecodeError where
  reported            : Option (List Bytes)      -- the tokens of a `ProviderReportedError`
  isTextStreamWrite   : Bool
  isTooLarge          : Bool
  isUnexpectedEOF     : Bool
  hasReadError        : Bool

inductive ErrorDisposition where
  | retry | providerRejected | invalidResponse | blocked
  deriving DecidableEq

structure ErrorOutcome where
  disposition : ErrorDisposition
  kind        : Bytes
  deriving DecidableEq

structure ErrorRule where
  statusCode : Int
  errorToken : Bytes
  outcome    : ErrorOutcome
  deriving DecidableEq

/-- A response body: what can be read of it, and whether reading then fails. -/
structure Body where
  contents : Bytes
  isBroken : Bool

abbrev DecodeResponse := Bytes → Except DecodeError DecodedResponse

abbrev DecodeStream := Body → Except DecodeError DecodedResponse

structure WireFormat where
  providerName        : Bytes
  decodeResponse      : Option DecodeResponse
  decodeStream        : Option DecodeStream
  finishReasons       : List (Bytes × FinishReason)
  errorRules          : List ErrorRule
  errorTokenPointers  : List Bytes
  readErrorRetryDelay : Option (Bytes → Int)
  requestIDHeaders    : List Bytes
  rateLimitHeaders    : List Bytes

structure Query where
  wireFormat       : WireFormat
  operationID      : Bytes
  maxResponseBytes : Nat

/-- A `http.Response`; `header` is `Header.Get`. -/
structure Response where
  statusCode : Int
  header     : Bytes → Bytes
  body       : Body

/-- What the client returns; `isStalled` is whether the stall timeout cancelled the attempt. -/
inductive Exchange where
  | failed (isStalled : Bool)
  | responded (response : Response) (isStalled : Bool)

structure Host where
  now            : Time
  parseMediaType : Bytes → Option Bytes      -- `mime.ParseMediaType`, none for an error
  parseTime      : Bytes → Option Int        -- `http.ParseTime`

/-- `textGenerationAttempt`. -/
structure TextGenerationAttempt where
  query         : Query
  callID        : Bytes
  hasTextStream : Bool
  writeText     : Bytes → Bool
  response      : TextGenerationResponse
  credential    : Bytes

abbrev QueryAttempt := Operation.Attempt TextGenerationResponse

def newQueryBranch (branch : Bytes) (value : TextGenerationResponse) (failure : Option Failure) (receipt : Receipt) : QueryAttempt :=
  ⟨Operation.queryAttemptBranch, branch, value, receipt, failure.getD ⟨[], [], [], []⟩, failure.isSome, 0⟩

def newQueryRetry (failure : Failure) (retryAfter : Int) : QueryAttempt :=
  ⟨Operation.queryAttemptRetry, [], .empty, .empty, failure, false, retryAfter⟩

def generatedBranchID : Bytes := ascii "generated"
def truncatedBranchID : Bytes := ascii "truncated"
def blockedBranchID : Bytes := ascii "blocked"
def providerRejectedBranchID : Bytes := ascii "providerRejected"
def invalidResponseBranchID : Bytes := ascii "invalidResponse"

def failureAuthentication : Bytes := ascii "AUTHENTICATION"
def failureAuthorization : Bytes := ascii "AUTHORIZATION"
def failureNotFound : Bytes := ascii "NOT_FOUND"
def failureConflict : Bytes := ascii "CONFLICT"
def failureRateLimit : Bytes := ascii "RATE_LIMIT"
def failureQuotaExhausted : Bytes := ascii "QUOTA_EXHAUSTED"
def failureAvailability : Bytes := ascii "AVAILABILITY"
def failureProviderRejection : Bytes := ascii "PROVIDER_REJECTION"
def failureTransport : Bytes := ascii "TRANSPORT"
def failureResponseTooLarge : Bytes := ascii "RESPONSE_TOO_LARGE"
def failureProtocol : Bytes := ascii "PROTOCOL"
def failureLocalDefect : Bytes := ascii "LOCAL_DEFECT"

/-! ## Texts -/

def isTokenByte (b : UInt8) : Bool :=
  Operation.isLetterOrDigit b || b == 0x5F || b == 0x2E || b == 0x3A || b == 0x2D

/-- `^[A-Za-z0-9_.:-]{1,64}$`. -/
def providerTokenPattern (text : Bytes) : Bool := 1 ≤ text.length && text.length ≤ 64 && text.all isTokenByte

def isHeaderSafeCredential (value : Bytes) : Bool := value != [] && value.all (fun b => 0x21 ≤ b && b ≤ 0x7E)

def isBoundedIdentifier (value : Bytes) : Bool := value == [] || (value.length ≤ 256 && isHeaderSafeCredential value)

def isPrintableASCII (value : Bytes) : Bool := value.all (fun b => 0x20 ≤ b && b ≤ 0x7E)

/-- `strings.ToLower` of a header name, which is ASCII. -/
def lowerName (name : Bytes) : Bytes := name.map toLower

/-! ## Reading bodies (`sdkgo/providerhttp/body.go`) -/

def maxErrorBodyBytes : Nat := 65536

/-- `io.ReadAll` of the first bytes; none when reading fails before. -/
def Body.readUpTo (body : Body) (limit : Nat) : Option Bytes :=
  if body.isBroken && body.contents.length < limit then none else some (body.contents.take limit)

def readBoundedBody (body : Body) (maxBytes : Nat) : Except DecodeError Bytes :=
  match body.readUpTo (maxBytes + 1) with
  | none => .error ⟨none, false, false, false, true⟩
  | some contents => if maxBytes < contents.length then .error ⟨none, false, true, false, false⟩ else .ok contents

/-- `~1` and `~0` of a pointer segment. -/
def unescapeSegment : Bytes → Bytes
  | 0x7E :: 0x31 :: rest => 0x2F :: unescapeSegment rest
  | 0x7E :: 0x30 :: rest => 0x7E :: unescapeSegment rest
  | b :: rest => b :: unescapeSegment rest
  | [] => []

def step (segment : Bytes) : Tree → Option Tree
  | .object members => get members segment
  | .array items =>
    match parseInt segment with
    | some index => if 0 ≤ index ∧ formatInt index = segment then items[index.toNat]? else none
    | none => none
  | _ => none

def resolveJSONPointer (document : Tree) : Bytes → Option Tree
  | [] => some document
  | b :: rest =>
    if b = 0x2F then
      (rest.splitOn 0x2F).foldl (fun current segment => current.bind (step (unescapeSegment segment))) (some document)
    else none

def tokenText : Tree → Option Bytes
  | .string text | .number text => some text
  | _ => none

def readErrorTokens (body : Bytes) (pointers : List Bytes) : List Bytes :=
  match decode maxNestingDepth body with
  | none => []
  | some (document, _) =>
    (pointers.filterMap (fun pointer => (resolveJSONPointer document pointer).bind tokenText)).filter providerTokenPattern

/-! ## Classification (`error_rules.go`) -/

def ErrorRule.isMet (rule : ErrorRule) (tokens : List Bytes) : Bool := rule.errorToken == [] || tokens.contains rule.errorToken

def defaultErrorOutcome (status : Int) : ErrorOutcome :=
  if status = 429 then ⟨.retry, failureRateLimit⟩
  else if status = 408 ∨ (500 ≤ status ∧ status ≠ 501) then ⟨.retry, failureAvailability⟩
  else if status = 401 then ⟨.providerRejected, failureAuthentication⟩
  else if status = 403 then ⟨.providerRejected, failureAuthorization⟩
  else if status = 404 then ⟨.providerRejected, failureNotFound⟩
  else if status = 409 then ⟨.providerRejected, failureConflict⟩
  else if status = 402 then ⟨.providerRejected, failureQuotaExhausted⟩
  else if 300 ≤ status ∧ status < 400 then ⟨.invalidResponse, failureProtocol⟩
  else ⟨.providerRejected, failureProviderRejection⟩

def classifyErrorResponse (rules : List ErrorRule) (status : Int) (tokens : List Bytes) : ErrorOutcome :=
  match rules.find? (fun rule => (rule.statusCode == 0 || rule.statusCode == status) && rule.isMet tokens) with
  | some rule => rule.outcome
  | none => defaultErrorOutcome status

def classifyReported (rules : List ErrorRule) (tokens : List Bytes) : ErrorOutcome :=
  match rules.find? (fun rule => rule.statusCode == 0 && rule.isMet tokens) with
  | some rule => rule.outcome
  | none => ⟨.invalidResponse, failureProtocol⟩

def maxRetryAfterDelay : Int := 3600 * 1000000000

def parseRetryAfter (host : Host) (header : Bytes) : Int :=
  let value := trimSpace header
  if value = [] then 0
  else if value.all Utf8.isDigit then
    match parseInt value with
    | some seconds => if 3600 ≤ seconds then maxRetryAfterDelay else seconds * 1000000000
    | none => maxRetryAfterDelay
  else
    match host.parseTime value with
    | some retryAt => if retryAt ≤ host.now.instant then 0 else min (retryAt - host.now.instant) maxRetryAfterDelay
    | none => 0

def appendErrorTokens (message : Bytes) (tokens : List Bytes) : Bytes :=
  if tokens = [] then message else message ++ 0x20 :: List.intercalate [0x20] tokens

def completeUsage (usage : Usage) : Except Bytes Usage :=
  if usage.inputTokens < 0 ∨ usage.cachedInputTokens < 0 ∨ usage.outputTokens < 0 ∨ usage.reasoningTokens < 0 ∨
      usage.totalTokens < 0 then .error (ascii "provider reported negative token usage")
  else if usage.totalTokens = 0 then
    .ok { usage with totalTokens := (usage.inputTokens + usage.outputTokens).bmod (2 ^ 64) }
  else .ok usage

/-! ## The attempt -/

/-- `metadata[key] = value`. -/
def setMetadata (receipt : Receipt) (key value : Bytes) : Receipt :=
  { receipt with
    metadata := (key, value) :: receipt.metadata.filter (fun m => m.1 != key)
    distinct := by
      rw [List.map_cons, List.nodup_cons]
      refine ⟨fun h => ?_, receipt.distinct.sublist (List.Sublist.map _ List.filter_sublist)⟩
      obtain ⟨m, hm, hkey⟩ := List.mem_map.1 h
      exact absurd hkey (by simpa using (List.mem_filter.1 hm).2) }

namespace TextGenerationAttempt

def revealsCredential (a : TextGenerationAttempt) (value : Bytes) : Bool :=
  a.credential != [] && decide (a.credential <:+: value)

/-- `safeErrorTokens`. -/
def safeErrorTokens (a : TextGenerationAttempt) (tokens : List Bytes) : List Bytes :=
  tokens.filter (fun token => providerTokenPattern token && !a.revealsCredential token)

def failure (a : TextGenerationAttempt) (kind message : Bytes) : Failure :=
  ⟨kind, a.query.wireFormat.providerName, a.query.operationID, message⟩

def branch (a : TextGenerationAttempt) (branch kind message : Bytes) (receipt : Receipt) : QueryAttempt :=
  newQueryBranch branch a.response (some (a.failure kind message)) receipt

def retry (a : TextGenerationAttempt) (kind message : Bytes) (delay : Int) : QueryAttempt :=
  newQueryRetry (a.failure kind message) delay

def isRequestID (a : TextGenerationAttempt) (value : Bytes) : Bool :=
  value != [] && isBoundedIdentifier value && !a.revealsCredential value

def isRateLimit (a : TextGenerationAttempt) (value : Bytes) : Bool :=
  value != [] && value.length ≤ 256 && isPrintableASCII value && !a.revealsCredential value

def copyRateLimit (a : TextGenerationAttempt) (header : Bytes → Bytes) (receipt : Receipt) (name : Bytes) : Receipt :=
  if a.isRateLimit (trimSpace (header name)) then setMetadata receipt (lowerName name) (trimSpace (header name)) else receipt

def receipt (a : TextGenerationAttempt) (host : Host) (header : Bytes → Bytes) : Receipt :=
  let values := a.query.wireFormat.requestIDHeaders.map (fun name => trimSpace (header name))
  a.query.wireFormat.rateLimitHeaders.foldl (a.copyRateLimit header)
    ⟨a.callID, [], a.query.wireFormat.providerName, [], (values.find? a.isRequestID).getD [], host.now, [], List.nodup_nil⟩

def errorOutcome (a : TextGenerationAttempt) (outcome : ErrorOutcome) (message : Bytes) (delay : Int) (receipt : Receipt) :
    QueryAttempt :=
  match outcome.disposition with
  | .retry => a.retry outcome.kind message delay
  | .invalidResponse => a.branch invalidResponseBranchID outcome.kind message receipt
  | .blocked =>
    { a with response := { a.response with finishReason := some .contentPolicy } }.branch blockedBranchID outcome.kind message
      receipt
  | .providerRejected => a.branch providerRejectedBranchID outcome.kind message receipt

def retryDelay (a : TextGenerationAttempt) (host : Host) (response : Response) (errorBody : Bytes) : Int :=
  let delay := match a.query.wireFormat.readErrorRetryDelay with
    | some read => min (max (read errorBody) 0) maxRetryAfterDelay
    | none => 0
  if delay = 0 then parseRetryAfter host (response.header (ascii "Retry-After")) else delay

def classifyErrorStatus (a : TextGenerationAttempt) (host : Host) (response : Response) (receipt : Receipt) : QueryAttempt :=
  let errorBody := (response.body.readUpTo maxErrorBodyBytes).getD []
  let tokens := a.safeErrorTokens (readErrorTokens errorBody a.query.wireFormat.errorTokenPointers)
  let outcome := classifyErrorResponse a.query.wireFormat.errorRules response.statusCode tokens
  a.errorOutcome outcome (appendErrorTokens (ascii "provider returned HTTP " ++ formatInt response.statusCode) tokens)
    (if outcome.disposition = .retry then a.retryDelay host response errorBody else 0) receipt

def classifyReportedError (a : TextGenerationAttempt) (errorTokens : List Bytes) (receipt : Receipt) : QueryAttempt :=
  let tokens := a.safeErrorTokens errorTokens
  a.errorOutcome (classifyReported a.query.wireFormat.errorRules tokens)
    (appendErrorTokens (ascii "provider reported an error inside a 2xx response") tokens) 0 receipt

def stalled (a : TextGenerationAttempt) : QueryAttempt :=
  a.retry failureAvailability (ascii "provider sent no bytes within the stall timeout") 0

def classifyDecodeFailure (a : TextGenerationAttempt) (err : DecodeError) (isEventStream isStalled : Bool) (receipt : Receipt) :
    QueryAttempt :=
  match err.reported with
  | some tokens => a.classifyReportedError tokens receipt
  | none =>
    if isStalled then a.stalled
    else if err.isTextStreamWrite then a.retry failureAvailability (ascii "the text stream could not be written") 0
    else if err.isTooLarge then
      a.branch invalidResponseBranchID failureResponseTooLarge (ascii "provider response exceeds the configured size limit") receipt
    else if err.hasReadError || (isEventStream && err.isUnexpectedEOF) then
      a.retry failureTransport (ascii "provider response ended before it was complete") 0
    else
      a.branch invalidResponseBranchID failureProtocol (ascii "provider response does not match its documented format") receipt

/-- Whether `writeTextDelta` returns no error. -/
def writeTextDelta (a : TextGenerationAttempt) (delta : Bytes) : Bool := delta == [] || !a.hasTextStream || a.writeText delta

def textBranch (a : TextGenerationAttempt) (branch text : Bytes) (isStreaming : Bool) (failure : Option Failure) (receipt : Receipt) :
    QueryAttempt :=
  if !isStreaming && text != [] && !a.writeTextDelta text then
    a.retry failureAvailability (ascii "the text stream could not be written") 0
  else newQueryBranch branch { a.response with text := text } failure receipt

/-- The text of the parts that are not reasoning. -/
def textOf (parts : List ResponsePart) : Bytes := (parts.filter (fun part => !part.isReasoning)).flatMap ResponsePart.text

/-- The end of `completeResponse`, by the finish reason. -/
def finish (a : TextGenerationAttempt) (reason : FinishReason) (text : Bytes) (canonicalSchema : Option Members) (isStreaming : Bool)
    (receipt : Receipt) : QueryAttempt :=
  match reason with
  | .stop =>
    if text = [] then a.branch invalidResponseBranchID failureProtocol (ascii "provider finished without text") receipt
    else
      match canonicalSchema with
      | none => a.textBranch generatedBranchID text isStreaming none receipt
      | some schema =>
        match extractStructuredAnswer schema text with
        | .error err =>
          a.branch invalidResponseBranchID failureProtocol
            (ascii "structured output does not match its schema " ++ err.error) receipt
        | .ok answer => a.textBranch generatedBranchID answer isStreaming none receipt
  | .length =>
    a.textBranch truncatedBranchID text isStreaming
      (some (a.failure failureResponseTooLarge (ascii "provider stopped at the output token limit"))) receipt
  | .refusal => a.branch blockedBranchID failureProviderRejection (ascii "the model refused the request") receipt
  | .contentPolicy =>
    a.branch blockedBranchID failureProviderRejection (ascii "provider stopped the response for a content policy") receipt

/-- The finish token that the response keeps. -/
def finishToken (decoded : DecodedResponse) : Bytes :=
  if providerTokenPattern decoded.providerFinishReason then decoded.providerFinishReason else []

/-- `completeResponse` from the finish reason on. -/
def completeFinish (a : TextGenerationAttempt) (decoded : DecodedResponse) (canonicalSchema : Option Members) (isStreaming : Bool)
    (receipt : Receipt) : QueryAttempt :=
  if a.revealsCredential decoded.providerFinishReason then
    a.branch invalidResponseBranchID failureProtocol (ascii "provider returned an invalid finish reason") receipt
  else
    let b := { a with response := { a.response with providerFinishReason := finishToken decoded } }
    if decoded.isRefusal then
      { b with response := { b.response with finishReason := some .refusal } }.finish .refusal (textOf decoded.parts)
        canonicalSchema isStreaming receipt
    else if finishToken decoded = [] then
      b.branch invalidResponseBranchID failureProtocol (ascii "provider returned no recognizable finish reason") receipt
    else
      match a.query.wireFormat.finishReasons.lookup (finishToken decoded) with
      | none =>
        b.branch invalidResponseBranchID failureProtocol
          (ascii "provider stopped for an unsupported reason: " ++ finishToken decoded) receipt
      | some reason =>
        { b with response := { b.response with finishReason := some reason } }.finish reason (textOf decoded.parts)
          canonicalSchema isStreaming receipt

def isIdentity (a : TextGenerationAttempt) (value : Bytes) : Bool := isBoundedIdentifier value && !a.revealsCredential value

def completeResponse (a : TextGenerationAttempt) (decoded : DecodedResponse) (canonicalSchema : Option Members) (isStreaming : Bool)
    (receipt : Receipt) : QueryAttempt :=
  if !(a.isIdentity decoded.servedModel && a.isIdentity decoded.responseID) then
    a.branch invalidResponseBranchID failureProtocol (ascii "provider returned an invalid model or response identifier") receipt
  else
    let b := { a with
      response := { a.response with servedModel := decoded.servedModel, responseID := decoded.responseID } }
    let receipt := { receipt with providerObjectID := decoded.responseID }
    match completeUsage decoded.usage with
    | .error message => b.branch invalidResponseBranchID failureProtocol message receipt
    | .ok usage =>
      { b with response := { b.response with usage := usage } }.completeFinish decoded canonicalSchema isStreaming receipt

/-- A decoder's result. -/
def complete (a : TextGenerationAttempt) (decoded : Except DecodeError DecodedResponse) (canonicalSchema : Option Members)
    (isEventStream isStalled : Bool) (receipt : Receipt) : QueryAttempt :=
  match decoded with
  | .error err => a.classifyDecodeFailure err isEventStream isStalled receipt
  | .ok decoded => a.completeResponse decoded canonicalSchema isEventStream receipt

/-- `DecodeResponse` of the whole body, which then did not fail. -/
def decodeBody (a : TextGenerationAttempt) (decodeResponse : DecodeResponse) (body : Body) : Except DecodeError DecodedResponse :=
  match readBoundedBody body a.query.maxResponseBytes with
  | .error err => .error err
  | .ok contents =>
    match decodeResponse contents with
    | .error err => .error { err with hasReadError := false }
    | .ok decoded => .ok decoded

def isEventStreamMediaType (host : Host) (contentType : Bytes) : Bool :=
  host.parseMediaType contentType == some (ascii "text/event-stream")

/-- A 2xx response. -/
def decode (a : TextGenerationAttempt) (host : Host) (response : Response) (isStalled isStreaming : Bool)
    (canonicalSchema : Option Members) (receipt : Receipt) : QueryAttempt :=
  match a.query.wireFormat.decodeStream, a.query.wireFormat.decodeResponse,
    isStreaming && isEventStreamMediaType host (response.header (ascii "Content-Type")) with
  | some decodeStream, _, true =>
    a.complete (decodeStream response.body) canonicalSchema true isStalled receipt
  | _, some decodeResponse, _ =>
    a.complete (a.decodeBody decodeResponse response.body) canonicalSchema false isStalled receipt
  | _, none, _ =>
    a.branch invalidResponseBranchID failureProtocol (ascii "provider did not return the event stream it was asked for") receipt

/-- `exchange`, from what the client returns on. -/
def exchange (a : TextGenerationAttempt) (host : Host) (exchange : Exchange) (isStreaming : Bool) (canonicalSchema : Option Members) :
    QueryAttempt :=
  match exchange with
  | .failed isStalled =>
    if isStalled then a.stalled
    else a.retry failureTransport (ascii "provider request failed before a response was received") 0
  | .responded response isStalled =>
    if response.statusCode < 200 ∨ 299 < response.statusCode then
      a.classifyErrorStatus host response (a.receipt host response.header)
    else a.decode host response isStalled isStreaming canonicalSchema (a.receipt host response.header)

/-- `run`, of an encoded request: the wire format must decode the form it asks for. -/
def run (a : TextGenerationAttempt) (host : Host) (ex : Exchange) (isStreaming : Bool) (canonicalSchema : Option Members) :
    QueryAttempt :=
  if (isStreaming && a.query.wireFormat.decodeStream.isNone) || (!isStreaming && a.query.wireFormat.decodeResponse.isNone) then
    newQueryBranch Operation.defectBranchID a.response
      (some (a.failure failureLocalDefect (ascii "the wire format cannot decode the response form it requested")))
      { Receipt.empty with provider := a.query.wireFormat.providerName }
  else a.exchange host ex isStreaming canonicalSchema

end TextGenerationAttempt
end Textgen
end Dex
