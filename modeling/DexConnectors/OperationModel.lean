import DexConnectors.LibCivil
import DexConnectors.LibJsonString
/-!
# OperationModel — one provider call of the Go SDK (`sdkgo/types.go`, `errors.go`, `definition.go`)

`runQuery` and `runMutation` invoke an operation and turn its attempt into a terminal result or a retry.  Go strings are
their bytes, durations nanoseconds.  `Query` and `Mutation` share the shapes of their definitions, attempts and results; the
functions on them stay apart where the source has two.

The Dex context, `uuid.NewSHA1`, the clock, `unicode.IsPrint` and the constructor of a buffered text stream are the
parameters of a `Runtime`.
-/
namespace Dex
namespace Operation

open Lib Lib.Utf8

/-! ## Data -/

structure OperationRef where
  connectorID : Bytes
  operationID : Bytes
  deriving DecidableEq

structure ConnectionRef where
  provider : Bytes
  name     : Bytes
  deriving DecidableEq

structure BranchDefinition where
  id          : Bytes
  description : Bytes
  optional    : Bool
  deriving DecidableEq

def defectBranchID : Bytes := ascii "defect"

def uncertainBranchID : Bytes := ascii "uncertain"

inductive StepDurability where
  | default
  | sync
  | async
  | other (n : Int)
  deriving DecidableEq

structure RetryPolicy where
  initialInterval    : Int
  maximumInterval    : Int
  totalDuration      : Int
  maximumAttempts    : Int
  isBackoffNegative  : Bool         -- `BackoffCoefficient < 0`
  deriving DecidableEq

structure StepDefaults where
  executeMethodTimeout : Int
  heartbeatTimeout     : Int
  executeRetry         : Option RetryPolicy
  executeDurability    : StepDurability
  deriving DecidableEq

/-- A `QueryDefinition` or a `MutationDefinition`. -/
structure Definition where
  operation    : OperationRef
  branches     : List BranchDefinition
  stepDefaults : StepDefaults
  deriving DecidableEq

/-- A `time.Time`: what its clock shows, and the seconds its location is east of UTC. -/
structure Time where
  civil  : Civil
  nano   : Nat
  offset : Int
  inSecond : nano < 1000000000
  deriving DecidableEq

/-- The moment, in nanoseconds from the start of year one. -/
def Time.instant (t : Time) : Int := (t.civil.seconds - t.offset) * 1000000000 + t.nano

def Time.isZero (t : Time) : Bool := t.instant == 0

def Time.zero : Time := ⟨yearOneStart, 0, 0, by decide⟩

theorem Time.zero_offset : Time.zero.offset = 0 := rfl

theorem isDate_sample : isDate 2026 1 2 = true := by decide

theorem isClock_sample : isClock 3 4 5 = true := by decide

structure Receipt where
  callID            : Bytes
  idempotencyKey    : Bytes
  provider          : Bytes
  providerObjectID  : Bytes
  providerRequestID : Bytes
  observedAt        : Time
  metadata          : List (Bytes × Bytes)
  distinct          : (metadata.map Prod.fst).Nodup
  deriving DecidableEq

/-- `Receipt{}`. -/
def Receipt.empty : Receipt := ⟨[], [], [], [], [], .zero, [], List.nodup_nil⟩

structure Failure where
  kind      : Bytes
  provider  : Bytes
  operation : Bytes
  message   : Bytes
  deriving DecidableEq

/-- A `QueryResult` or a `MutationResult`. -/
structure Result (V : Type) where
  branch  : Bytes
  value   : V
  receipt : Receipt
  failure : Option Failure

/-- A `QueryAttempt` or a `MutationAttempt`; what `kind` says differs between the two. -/
structure Attempt (V : Type) where
  kind       : UInt8
  branch     : Bytes
  value      : V
  receipt    : Receipt
  failure    : Failure
  hasFailure : Bool
  retryAfter : Int

def queryAttemptBranch : UInt8 := 1
def queryAttemptRetry : UInt8 := 2
def mutationAttemptBranch : UInt8 := 1
def mutationAttemptUncertain : UInt8 := 2
def mutationAttemptRetry : UInt8 := 3

/-! ## Texts -/

/-- The code point of a well-formed sequence. -/
def decodeRune : Bytes → Nat
  | [a] => a.toNat
  | [a, b] => (a.toNat % 32) * 64 + b.toNat % 64
  | [a, b, c] => ((a.toNat % 16) * 64 + b.toNat % 64) * 64 + c.toNat % 64
  | [a, b, c, d] => (((a.toNat % 8) * 64 + b.toNat % 64) * 64 + c.toNat % 64) * 64 + d.toNat % 64
  | _ => 0xFFFD

/-- The last `n` hexadecimal digits of a number. -/
def hexDigits : Nat → Nat → Bytes
  | 0, _ => []
  | n + 1, r => hexDigits n (r / 16) ++ [Json.hexDigit (r % 16).toUInt8]

def escapeRune (isPrint : Nat → Bool) (seq : Bytes) : Bytes :=
  if seq = [0x22] ∨ seq = [0x5C] then 0x5C :: seq
  else if isPrint (decodeRune seq) then seq
  else if seq = [0x07] then ascii "\\a"
  else if seq = [0x08] then ascii "\\b"
  else if seq = [0x0C] then ascii "\\f"
  else if seq = [0x0A] then ascii "\\n"
  else if seq = [0x0D] then ascii "\\r"
  else if seq = [0x09] then ascii "\\t"
  else if seq = [0x0B] then ascii "\\v"
  else if decodeRune seq < 0x20 ∨ decodeRune seq = 0x7F then ascii "\\x" ++ hexDigits 2 (decodeRune seq)
  else if decodeRune seq < 0x10000 then ascii "\\u" ++ hexDigits 4 (decodeRune seq)
  else ascii "\\U" ++ hexDigits 8 (decodeRune seq)

/-- `strconv.Quote` between its quotation marks; the first number is the bytes to skip. -/
def quoteFrom (isPrint : Nat → Bool) : Nat → Bytes → Bytes
  | _, [] => []
  | n + 1, _ :: rest => quoteFrom isPrint n rest
  | 0, b :: rest =>
    match seqLen (b :: rest) with
    | 0 => ascii "\\x" ++ hexDigits 2 b.toNat ++ quoteFrom isPrint 0 rest
    | n + 1 => escapeRune isPrint ((b :: rest).take (n + 1)) ++ quoteFrom isPrint n rest

/-- `%q`. -/
def quote (isPrint : Nat → Bool) (text : Bytes) : Bytes := 0x22 :: quoteFrom isPrint 0 text ++ [0x22]

def isLower (b : UInt8) : Bool := 0x61 ≤ b && b ≤ 0x7A

def isDigit (b : UInt8) : Bool := 0x30 ≤ b && b ≤ 0x39

def isLetterOrDigit (b : UInt8) : Bool := isLower b || isDigit b || (0x41 ≤ b && b ≤ 0x5A)

/-- `^[a-z][a-z0-9-]{1,62}$`. -/
def connectorIDPattern : Bytes → Bool
  | [] => false
  | b :: rest => isLower b && 1 ≤ rest.length && rest.length ≤ 62 && rest.all (fun c => isLower c || isDigit c || c == 0x2D)

/-- `^[a-z][A-Za-z0-9]+$`, of operations and of branches. -/
def operationIDPattern : Bytes → Bool
  | [] => false
  | b :: rest => isLower b && 1 ≤ rest.length && rest.all isLetterOrDigit

/-! ## Validation -/

def OperationRef.validate (ref : OperationRef) : Except Bytes Unit :=
  if !connectorIDPattern ref.connectorID then .error (ascii "connector ID must be DNS-like and 2-63 characters")
  else if !operationIDPattern ref.operationID then .error (ascii "operation ID must be lower camel case")
  else .ok ()

def ConnectionRef.validate (ref : ConnectionRef) : Except Bytes Unit :=
  if trimSpace ref.provider = [] ∨ trimSpace ref.name = [] then
    .error (ascii "connection provider and name are required")
  else .ok ()

def hasBranch (branches : List BranchDefinition) (branch : Bytes) : Bool := branches.any (fun b => b.id == branch)

/-- The loop of `validateBranches`, with the ids it has gone past. -/
def validateEach (isPrint : Nat → Bool) : List Bytes → List BranchDefinition → Except Bytes (List Bytes)
  | seen, [] => .ok seen
  | seen, d :: rest =>
    if !operationIDPattern d.id then
      .error (ascii "branch ID " ++ quote isPrint d.id ++ ascii " must be lower camel case")
    else if d.id ∈ seen then .error (ascii "branch ID " ++ quote isPrint d.id ++ ascii " is duplicated")
    else if trimSpace d.description = [] then
      .error (ascii "branch " ++ quote isPrint d.id ++ ascii " description is required")
    else validateEach isPrint (d.id :: seen) rest

def validateBranches (isPrint : Nat → Bool) (definitions : List BranchDefinition) : Except Bytes (List Bytes) :=
  if definitions = [] then .error (ascii "at least one branch is required") else validateEach isPrint [] definitions

def validateDefinitionOptions (defaults : StepDefaults) : Except Bytes Unit :=
  if defaults.executeMethodTimeout < 0 ∨ defaults.heartbeatTimeout < 0 then
    .error (ascii "Step timeouts cannot be negative")
  else if defaults.executeDurability ≠ .default ∧ defaults.executeDurability ≠ .sync ∧
      defaults.executeDurability ≠ .async then
    .error (ascii "Step Execute durability is invalid")
  else
    match defaults.executeRetry with
    | none => .ok ()
    | some retry =>
      if retry.initialInterval < 0 ∨ retry.maximumInterval < 0 ∨ retry.totalDuration < 0 ∨ retry.maximumAttempts < 0 ∨
          retry.isBackoffNegative then
        .error (ascii "Step retry fields cannot be negative")
      else .ok ()

/-- `QueryDefinition.Validate`. -/
def validateQuery (isPrint : Nat → Bool) (definition : Definition) : Except Bytes Unit :=
  match definition.operation.validate with
  | .error err => .error err
  | .ok _ =>
    match validateBranches isPrint definition.branches with
    | .error err => .error err
    | .ok branches =>
      if defectBranchID ∉ branches then .error (ascii "defect branch is not declared")
      else if uncertainBranchID ∈ branches then .error (ascii "query cannot declare the uncertain branch")
      else validateDefinitionOptions definition.stepDefaults

/-- `MutationDefinition.Validate`. -/
def validateMutation (isPrint : Nat → Bool) (definition : Definition) : Except Bytes Unit :=
  match definition.operation.validate with
  | .error err => .error err
  | .ok _ =>
    match validateBranches isPrint definition.branches with
    | .error err => .error err
    | .ok branches =>
      if defectBranchID ∉ branches then .error (ascii "defect branch is not declared")
      else validateDefinitionOptions definition.stepDefaults

def allFailureKinds : List Bytes :=
  ["VALIDATION", "AUTHENTICATION", "AUTHORIZATION", "NOT_FOUND", "CONFLICT", "RATE_LIMIT", "QUOTA_EXHAUSTED", "AVAILABILITY",
    "PROVIDER_REJECTION", "TRANSPORT", "RESPONSE_TOO_LARGE", "PROTOCOL", "LOCAL_DEFECT"].map ascii

def Failure.validate (failure : Failure) : Except Bytes Unit :=
  if failure.kind ∉ allFailureKinds then .error (ascii "failure kind is invalid")
  else if failure.provider = [] then .error (ascii "failure provider is required")
  else if failure.operation = [] then .error (ascii "failure operation is required")
  else if failure.message = [] then .error (ascii "failure message is required")
  else .ok ()

/-! ## Calls -/

/-- A `dex.Context`. -/
structure Context where
  flowID          : Bytes
  stepExecutionID : Bytes

inductive RunOption where
  | nil
  | progressStream (name : Bytes)
  | textStream (name : Bytes)

structure RunConfig where
  progressStream : Option Bytes
  textStream     : Option Bytes

structure Call where
  context        : Context
  id             : Bytes
  idempotencyKey : Bytes
  connection     : ConnectionRef
  operation      : OperationRef
  progress       : Option Bytes
  text           : Option Bytes

structure Runtime where
  newSHA1               : Bytes → Bytes             -- the sixteen bytes of the UUID
  length_newSHA1        : ∀ payload, (newSHA1 payload).length = 16
  now                   : Time                      -- `time.Now().UTC()`
  now_utc               : now.offset = 0
  isPrint               : Nat → Bool
  newBufferedTextStream : Context → Bytes → Option Bytes

/-- What stops a run: an error it returns, or a panic. -/
inductive Stop where
  | retry (failure : Failure)
  | retryAfter (delay : Int) (failure : Failure)
  | text (message : Bytes)
  | panicked (message : Bytes)

/-- The lowercase hexadecimal of sixteen bytes, in groups of 8, 4, 4, 4 and 12 digits. -/
def uuidString (bytes : Bytes) : Bytes :=
  let hex := bytes.flatMap (fun b => hexDigits 2 b.toNat)
  hex.take 8 ++ [0x2D] ++ (hex.drop 8).take 4 ++ [0x2D] ++ (hex.drop 12).take 4 ++ [0x2D] ++ (hex.drop 16).take 4 ++
    [0x2D] ++ hex.drop 20

/-- `binary.BigEndian.PutUint32` of `uint32(len(field))`, and the field. -/
def lengthPrefixed (field : Bytes) : Bytes :=
  [(field.length / 2 ^ 24).toUInt8, (field.length / 2 ^ 16).toUInt8, (field.length / 2 ^ 8).toUInt8, field.length.toUInt8] ++
    field

def deriveCallID (rt : Runtime) (flowID stepExecutionID : Bytes) (operation : OperationRef) : Bytes :=
  uuidString (rt.newSHA1
    ([flowID, stepExecutionID, operation.connectorID, operation.operationID].flatMap lengthPrefixed))

def newCall (rt : Runtime) (ctx : Option Context) (operation : OperationRef) (connection : ConnectionRef) :
    Except Bytes Call :=
  match ctx with
  | none => .error (ascii "Dex context is required")
  | some ctx =>
    if ctx.flowID = [] then .error (ascii "Dex Flow ID is required")
    else if ctx.stepExecutionID = [] then
      .error (ascii "connector operations require a Dex Step execution; RPC invocation is not allowed")
    else
      match operation.validate with
      | .error err => .error (ascii "invalid connector operation: " ++ err)
      | .ok _ =>
        match connection.validate with
        | .error err => .error (ascii "invalid connector connection: " ++ err)
        | .ok _ =>
          .ok ⟨ctx, deriveCallID rt ctx.flowID ctx.stepExecutionID operation, [], connection, operation, none, none⟩

def RunOption.apply (config : RunConfig) : RunOption → Except Bytes RunConfig
  | .nil => .error (ascii "connector RunOption is nil")
  | .progressStream name =>
    if name = [] then .error (ascii "progress Stream is not defined") else .ok { config with progressStream := some name }
  | .textStream name =>
    if name = [] then .error (ascii "text Stream is not defined") else .ok { config with textStream := some name }

def configureCall (rt : Runtime) (call : Call) (options : List RunOption) : Except Bytes Call :=
  match options.foldlM RunOption.apply ⟨none, none⟩ with
  | .error err => .error err
  | .ok config =>
    match config.textStream with
    | none => .ok { call with progress := config.progressStream }
    | some name =>
      match rt.newBufferedTextStream call.context name with
      | some err => .error (ascii "configure text progress: " ++ err)
      | none => .ok { call with progress := config.progressStream, text := some name }

/-! ## Receipts and defects -/

def completeReceipt (rt : Runtime) (receipt : Receipt) (call : Call) : Except Bytes Receipt :=
  if receipt.callID ≠ [] ∧ receipt.callID ≠ call.id then .error (ascii "operation returned a receipt for another call")
  else if receipt.idempotencyKey ≠ [] ∧ receipt.idempotencyKey ≠ call.idempotencyKey then
    .error (ascii "operation returned a receipt with another idempotency key")
  else
    .ok { receipt with
      callID := if receipt.callID = [] then call.id else receipt.callID
      idempotencyKey := if call.idempotencyKey ≠ [] then call.idempotencyKey else receipt.idempotencyKey
      provider := if receipt.provider = [] then call.operation.connectorID else receipt.provider
      observedAt := if receipt.observedAt.isZero then rt.now else receipt.observedAt }

def mustCompleteEmptyReceipt (rt : Runtime) (call : Call) : Except Stop Receipt :=
  match completeReceipt rt .empty call with
  | .error err => .error (.panicked (ascii "complete empty connector receipt: " ++ err))
  | .ok receipt => .ok receipt

def localFailure (operation : OperationRef) (message : Bytes) : Failure :=
  ⟨ascii "LOCAL_DEFECT", if operation.connectorID = [] then ascii "connector" else operation.connectorID,
    if operation.operationID = [] then ascii "invoke" else operation.operationID, message⟩

/-- `QueryDefinition{}`, `MutationDefinition{}`. -/
def Definition.empty : Definition := ⟨⟨[], []⟩, [], ⟨0, 0, none, .default⟩⟩

section Run

variable {In V : Type} [Inhabited V]

/-- `failedQuery`, `failedMutation`: the value is the zero value of its type. -/
def failed (definition : Definition) (message : Bytes) : Result V :=
  ⟨defectBranchID, default, .empty, some (localFailure definition.operation message)⟩

/-- `failedQueryForCall`, `failedMutationForCall`. -/
def failedForCall (rt : Runtime) (definition : Definition) (call : Call) (message : Bytes) : Except Stop (Result V) :=
  match mustCompleteEmptyReceipt rt call with
  | .error stop => .error stop
  | .ok receipt => .ok { failed definition message with receipt }

def retryError (failure : Failure) (delay : Int) : Stop := if delay > 0 then .retryAfter delay failure else .retry failure

def queryResult (rt : Runtime) (call : Call) (definition : Definition) (attempt : Attempt V) : Except Stop (Result V) :=
  if attempt.kind = queryAttemptBranch then
    if !hasBranch definition.branches attempt.branch then
      failedForCall rt definition call (ascii "query returned an unknown branch")
    else
      match if attempt.hasFailure then attempt.failure.validate else .ok () with
      | .error err => failedForCall rt definition call (ascii "query returned an invalid failure: " ++ err)
      | .ok _ =>
        match completeReceipt rt attempt.receipt call with
        | .error err => failedForCall rt definition call err
        | .ok receipt =>
          .ok ⟨attempt.branch, attempt.value, receipt, if attempt.hasFailure then some attempt.failure else none⟩
  else if attempt.kind = queryAttemptRetry then
    match attempt.failure.validate with
    | .error _ => failedForCall rt definition call (ascii "query returned an invalid retry attempt")
    | .ok _ =>
      if attempt.retryAfter < 0 then failedForCall rt definition call (ascii "query returned an invalid retry attempt")
      else .error (retryError attempt.failure attempt.retryAfter)
  else failedForCall rt definition call (ascii "query returned an invalid attempt")

def mutationResult (rt : Runtime) (call : Call) (definition : Definition) (attempt : Attempt V) :
    Except Stop (Result V) :=
  if attempt.kind = mutationAttemptBranch then
    if !hasBranch definition.branches attempt.branch then
      failedForCall rt definition call (ascii "mutation returned an unknown branch")
    else
      match if attempt.hasFailure then attempt.failure.validate else .ok () with
      | .error err => failedForCall rt definition call (ascii "mutation returned an invalid failure: " ++ err)
      | .ok _ =>
        match completeReceipt rt attempt.receipt call with
        | .error err => failedForCall rt definition call err
        | .ok receipt =>
          .ok ⟨attempt.branch, attempt.value, receipt, if attempt.hasFailure then some attempt.failure else none⟩
  else if attempt.kind = mutationAttemptUncertain then
    if !hasBranch definition.branches uncertainBranchID then
      failedForCall rt definition call (ascii "mutation returned uncertainty without declaring the uncertain branch")
    else
      match attempt.failure.validate with
      | .error err => failedForCall rt definition call (ascii "mutation returned an invalid uncertainty failure: " ++ err)
      | .ok _ =>
        match completeReceipt rt attempt.receipt call with
        | .error err => failedForCall rt definition call err
        | .ok receipt => .ok ⟨uncertainBranchID, attempt.value, receipt, some attempt.failure⟩
  else if attempt.kind = mutationAttemptRetry then
    match attempt.failure.validate with
    | .error _ => failedForCall rt definition call (ascii "mutation returned an invalid retry attempt")
    | .ok _ =>
      if attempt.retryAfter < 0 then failedForCall rt definition call (ascii "mutation returned an invalid retry attempt")
      else .error (retryError attempt.failure attempt.retryAfter)
  else failedForCall rt definition call (ascii "mutation returned an invalid attempt")

/-! ## Runs -/

/-- A `Query` whose `Definition` always returns the same value. -/
structure Query (In V : Type) where
  definition : Definition
  invoke     : Call → In → Attempt V

structure Mutation (In V : Type) where
  definition     : Definition
  idempotencyKey : Bytes → In → Bytes
  invoke         : Call → In → Attempt V

/-- `RunQuery`; a nil operation is none. -/
def runQuery (rt : Runtime) (ctx : Option Context) (operation : Option (Query In V)) (connection : ConnectionRef)
    (input : In) (options : List RunOption) : Except Stop (Result V) :=
  match operation with
  | none => .ok (failed .empty (ascii "connector query is required"))
  | some operation =>
    match validateQuery rt.isPrint operation.definition with
    | .error err => .ok (failed operation.definition (ascii "invalid query definition: " ++ err))
    | .ok _ =>
      match newCall rt ctx operation.definition.operation connection with
      | .error err => .ok (failed operation.definition err)
      | .ok call =>
        match configureCall rt call options with
        | .error err => failedForCall rt operation.definition call err
        | .ok call => queryResult rt call operation.definition (operation.invoke call input)

/-- The call of a mutation, with its idempotency key. -/
def withKey (operation : Mutation In V) (input : In) (call : Call) : Call :=
  { call with
    idempotencyKey :=
      if operation.idempotencyKey call.id input = [] then call.id else operation.idempotencyKey call.id input }

/-- `RunMutation`. -/
def runMutation (rt : Runtime) (ctx : Option Context) (operation : Option (Mutation In V)) (connection : ConnectionRef)
    (input : In) (options : List RunOption) : Except Stop (Result V) :=
  match operation with
  | none => .ok (failed .empty (ascii "connector mutation is required"))
  | some operation =>
    match validateMutation rt.isPrint operation.definition with
    | .error err => .ok (failed operation.definition (ascii "invalid mutation definition: " ++ err))
    | .ok _ =>
      match newCall rt ctx operation.definition.operation connection with
      | .error err => .ok (failed operation.definition err)
      | .ok call =>
        if trimSpace (withKey operation input call).idempotencyKey = [] then
          failedForCall rt operation.definition { call with idempotencyKey := [] }
            (ascii "mutation returned an invalid idempotency key")
        else
          match configureCall rt (withKey operation input call) options with
          | .error err => failedForCall rt operation.definition (withKey operation input call) err
          | .ok call => mutationResult rt call operation.definition (operation.invoke call input)

end Run

end Operation
end Dex
