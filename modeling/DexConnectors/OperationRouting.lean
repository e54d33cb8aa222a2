import DexConnectors.OperationModel
/-!
# OperationRouting — Connector Steps (`sdkgo/step.go`)

`newQueryStep` and `newMutationStep` check the targets of a Step against the branches of its operation; `execute` runs the
operation, stores its result and chooses the next Step.  A Step of Dex is a value of `S`, with its final step type; setting
an attribute returns an error or none.

`step_routing_total`: a Step that was built always has somewhere to go, whatever its operation answers.
-/
namespace Dex
namespace Operation

open Lib Lib.Utf8

variable {StepIn In V S UI Override Op : Type} [Inhabited V]

/-! ## Targets -/

/-- A `dex.Step[T]`: a nil interface, an interface that holds a nil pointer, or a Step. -/
inductive Target (S : Type) where
  | nil
  | nilPointer
  | step (s : S)

structure BranchTarget (S : Type) where
  branch : Bytes
  target : Target S

def Target.isNil : Target S → Bool
  | .nil => true
  | _ => false

/-- Values of Dex that the factories take apart. -/
structure Factory (S UI Override : Type) where
  finalStepType      : S → Bytes
  validateUI         : UI → Except Bytes Unit
  hasWaitForOptions  : Override → Bool

variable (f : Factory S UI Override)

def targetHasStep : Target S → Bool
  | .step s => trimSpace (f.finalStepType s) != []
  | _ => false

/-- `resolved[branch]`. -/
def targetOf (resolved : List (Bytes × Target S)) (branch : Bytes) : Target S := (resolved.lookup branch).getD .nil

def isOptional (definitions : List BranchDefinition) (branch : Bytes) : Bool :=
  definitions.any (fun d => d.id == branch && d.optional)

/-- The first loop of `validateBranchTargets` over the targets. -/
def resolveTargets (rt : Runtime) (definitions : List BranchDefinition) :
    List (Bytes × Target S) → List (BranchTarget S) → Except Bytes (List (Bytes × Target S))
  | resolved, [] => .ok resolved
  | resolved, t :: rest =>
    if !hasBranch definitions t.branch then
      .error (ascii "branch target " ++ quote rt.isPrint t.branch ++ ascii " is not declared by the operation")
    else if !targetHasStep f t.target then
      if isOptional definitions t.branch then resolveTargets rt definitions resolved rest
      else .error (ascii "branch target " ++ quote rt.isPrint t.branch ++ ascii " must name a Step")
    else if !(targetOf resolved t.branch).isNil then
      .error (ascii "branch target " ++ quote rt.isPrint t.branch ++ ascii " is duplicated")
    else resolveTargets rt definitions ((t.branch, t.target) :: resolved) rest

/-- Of several missing targets the source names one that the iteration over its map meets first; here the first declared. -/
def validateBranchTargets (rt : Runtime) (definitions : List BranchDefinition) (targets : List (BranchTarget S)) :
    Except Bytes (List (Bytes × Target S)) :=
  match resolveTargets f rt definitions [] targets with
  | .error err => .error err
  | .ok resolved =>
    match definitions.find? (fun d => (targetOf resolved d.id).isNil && !isOptional definitions d.id) with
    | some d => .error (ascii "branch target " ++ quote rt.isPrint d.id ++ ascii " is required")
    | none => .ok resolved

/-! ## Decisions -/

structure StepIdentity where
  operation  : OperationRef
  connection : ConnectionRef

inductive Decision (S V : Type) where
  | goTo (target : Target S) (result : Result V)
  | forceFail (reason : Bytes)

/-- The loop of `boundedFailureMessage`, one rune at a time; a byte that starts none counts as the replacement. -/
def boundMessage : Nat → Bytes → Bytes → Bytes × Bool
  | 0, bounded, _ => (bounded, false)
  | _ + 1, bounded, [] => (bounded, false)
  | n + 1, bounded, b :: rest =>
    let rune := if seqLen (b :: rest) = 0 then replacement else (b :: rest).take (seqLen (b :: rest))
    if bounded.length + rune.length > 1024 then (bounded, true)
    else boundMessage n (bounded ++ rune) ((b :: rest).drop (max 1 (seqLen (b :: rest))))

def boundedFailureMessage (message : Bytes) : Bytes × Bool :=
  if message.length ≤ 1024 ∧ isValid message then (message, false) else boundMessage message.length [] message

def unwiredBranchFailureReason (identity : StepIdentity) (branch : Bytes) (failure : Option Failure) : Bytes :=
  let reason := identity.operation.connectorID ++ ascii " " ++ identity.operation.operationID ++ ascii " (connection " ++
    identity.connection.name ++ ascii ") selected branch " ++ branch ++ ascii " with no target"
  match failure with
  | none => reason
  | some failure =>
    let message := boundedFailureMessage failure.message
    reason ++ ascii ": " ++ failure.kind ++ ascii ": " ++ message.1 ++ if message.2 then ascii " (truncated)" else []

def routeBranch (rt : Runtime) (branches : List (Bytes × Target S)) (optional : Bytes → Bool) (branch : Bytes)
    (result : Result V) (failure : Option Failure) (identity : StepIdentity) (operationKind : Bytes) :
    Except Stop (Decision S V) :=
  if !(targetOf branches branch).isNil then .ok (.goTo (targetOf branches branch) result)
  else if optional branch then .ok (.forceFail (unwiredBranchFailureReason identity branch failure))
  else .error (.text (operationKind ++ ascii " result selected unconfigured branch " ++ quote rt.isPrint branch))

/-! ## Factories -/

structure StepAnnotations where
  groupID     : Bytes
  groupLabel  : Bytes
  explanation : Bytes

/-- A `QueryStepConfig` or a `MutationStepConfig`; a nil operation or mapper is none. -/
structure StepConfig (Op StepIn In V S UI Override : Type) where
  stepType            : Bytes
  annotations         : StepAnnotations
  configurationUI     : UI
  operation           : Option Op
  connection          : ConnectionRef
  mapToOperationInput : Option (StepIn → In)
  branches            : List (BranchTarget S)
  resultAttribute     : Option (Result V → Option Bytes)
  progressStream      : Option Bytes
  textStream          : Option Bytes
  stepOptionsOverride : Option Override

/-- A `QueryStep` or a `MutationStep`. -/
structure Step (Op StepIn In V S : Type) where
  operation           : Op
  identity            : StepIdentity
  mapToOperationInput : StepIn → In
  branches            : List (Bytes × Target S)
  optionalBranches    : Bytes → Bool
  resultAttribute     : Option (Result V → Option Bytes)
  progressStream      : Option Bytes
  textStream          : Option Bytes

/-- `^[a-z][a-z0-9-]*$`. -/
def groupIDPattern : Bytes → Bool
  | [] => false
  | b :: rest => isLower b && rest.all (fun c => isLower c || isDigit c || c == 0x2D)

def validateFactoryConfig (stepType : Bytes) (annotations : StepAnnotations) (connection : ConnectionRef)
    (hasOperationInputMapper : Bool) : Except Bytes Unit :=
  if trimSpace stepType = [] then .error (ascii "stable Step type is required")
  else if !groupIDPattern annotations.groupID ∨ trimSpace annotations.groupLabel = [] ∨
      trimSpace annotations.explanation = [] then
    .error (ascii "Step group, group label, and explanation are required")
  else
    match connection.validate with
    | .error err => .error (ascii "Step connection: " ++ err)
    | .ok _ => if hasOperationInputMapper then .ok () else .error (ascii "MapToOperationInput is required")

/-- `stepOptions`, of which `Execute` uses nothing. -/
def stepOptions (override : Option Override) : Except Bytes Unit :=
  match override with
  | none => .ok ()
  | some options =>
    if f.hasWaitForOptions options then .error (ascii "execute-only connector Step rejects WaitFor options") else .ok ()

/-- What `NewQueryStep` and `NewMutationStep` have in common: the word for the operation and its check differ. -/
def newStep (rt : Runtime) (word : Bytes) (definitionOf : Op → Definition)
    (validate : Definition → Except Bytes Unit) (config : StepConfig Op StepIn In V S UI Override) :
    Except Bytes (Step Op StepIn In V S) :=
  match config.operation with
  | none => .error (word ++ ascii " operation is required")
  | some operation =>
    match validate (definitionOf operation) with
    | .error err => .error (word ++ ascii " definition: " ++ err)
    | .ok _ =>
      match validateFactoryConfig config.stepType config.annotations config.connection
          config.mapToOperationInput.isSome, config.mapToOperationInput with
      | .error err, _ => .error err
      | .ok _, none => .error (ascii "MapToOperationInput is required")
      | .ok _, some mapper =>
        match f.validateUI config.configurationUI with
        | .error err => .error (ascii "Connector configuration UI: " ++ err)
        | .ok _ =>
          match validateBranchTargets f rt (definitionOf operation).branches config.branches with
          | .error err => .error err
          | .ok branches =>
            match stepOptions f config.stepOptionsOverride with
            | .error err => .error err
            | .ok _ =>
              .ok ⟨operation, ⟨(definitionOf operation).operation, config.connection⟩, mapper, branches,
                isOptional (definitionOf operation).branches, config.resultAttribute, config.progressStream,
                config.textStream⟩

def newQueryStep (rt : Runtime) (config : StepConfig (Query In V) StepIn In V S UI Override) :
    Except Bytes (Step (Query In V) StepIn In V S) :=
  newStep f rt (ascii "query") (·.definition) (validateQuery rt.isPrint) config

def newMutationStep (rt : Runtime) (config : StepConfig (Mutation In V) StepIn In V S UI Override) :
    Except Bytes (Step (Mutation In V) StepIn In V S) :=
  newStep f rt (ascii "mutation") (·.definition) (validateMutation rt.isPrint) config

/-! ## `Execute` -/

/-- What `Execute` returns, and the result it stored. -/
structure Executed (S V : Type) where
  outcome : Except Stop (Decision S V)
  stored  : Option (Result V)

/-- `factoryRunOptions`. -/
def Step.runOptions (step : Step Op StepIn In V S) : List RunOption :=
  (step.progressStream.map RunOption.progressStream).toList ++ (step.textStream.map RunOption.textStream).toList

/-- What the two `Execute` have in common, after the operation was run. -/
def Step.finish (rt : Runtime) (step : Step Op StepIn In V S) (word : Bytes) (ran : Except Stop (Result V)) :
    Executed S V :=
  match ran with
  | .error stop => ⟨.error stop, none⟩
  | .ok result =>
    let route := routeBranch rt step.branches step.optionalBranches result.branch result result.failure step.identity word
    match step.resultAttribute with
    | none => ⟨route, none⟩
    | some set =>
      match set result with
      | some err => ⟨.error (.text err), none⟩
      | none => ⟨route, some result⟩

def executeQuery (rt : Runtime) (ctx : Option Context) (step : Step (Query In V) StepIn In V S) (input : StepIn) :
    Executed S V :=
  step.finish rt (ascii "query")
    (runQuery rt ctx (some step.operation) step.identity.connection (step.mapToOperationInput input) step.runOptions)

def executeMutation (rt : Runtime) (ctx : Option Context) (step : Step (Mutation In V) StepIn In V S) (input : StepIn) :
    Executed S V :=
  step.finish rt (ascii "mutation")
    (runMutation rt ctx (some step.operation) step.identity.connection (step.mapToOperationInput input) step.runOptions)

/-! ## What the parts check -/

omit [Inhabited V] in
theorem receipt_of_completeReceipt {rt : Runtime} {receipt r : Receipt} {call : Call}
    (h : completeReceipt rt receipt call = .ok r) : r.callID = call.id ∧ r.idempotencyKey = call.idempotencyKey := by
  unfold completeReceipt at h
  split at h
  · cases h
  next hid =>
    split at h
    · cases h
    next hkey =>
      cases h
      refine ⟨?_, ?_⟩
      · show (if receipt.callID = [] then call.id else receipt.callID) = call.id
        by_cases he : receipt.callID = []
        · rw [if_pos he]
        · rw [if_neg he]
          by_contra hne
          exact hid ⟨he, hne⟩
      · show (if call.idempotencyKey ≠ [] then call.idempotencyKey else receipt.idempotencyKey) = call.idempotencyKey
        by_cases he : call.idempotencyKey = []
        · rw [if_neg (fun hne => hne he), he]
          by_contra hne
          exact hkey ⟨hne, fun heq => hne (heq.trans he)⟩
        · rw [if_pos he]

/-- **An empty receipt can be completed for every call**: `mustCompleteEmptyReceipt` does not panic. -/
theorem exists_mustCompleteEmptyReceipt (rt : Runtime) (call : Call) :
    ∃ r, mustCompleteEmptyReceipt rt call = .ok r ∧ completeReceipt rt .empty call = .ok r := by
  unfold mustCompleteEmptyReceipt completeReceipt
  rw [if_neg (fun h => h.1 rfl), if_neg (fun h => h.1 rfl)]
  exact ⟨_, rfl, rfl⟩

/-- The result of a call that a definition knows the branch of. -/
structure IsFor (definition : Definition) (call : Call) (result : Result V) : Prop where
  declared : hasBranch definition.branches result.branch = true
  id       : result.receipt.callID = call.id
  key      : result.receipt.idempotencyKey = call.idempotencyKey

theorem exists_failedForCall (rt : Runtime) {definition : Definition} (call : Call) (message : Bytes)
    (hd : hasBranch definition.branches defectBranchID = true) :
    ∃ result : Result V, failedForCall rt definition call message = .ok result ∧ IsFor definition call result := by
  obtain ⟨r, hr, hc⟩ := exists_mustCompleteEmptyReceipt rt call
  obtain ⟨hid, hkey⟩ := receipt_of_completeReceipt hc
  refine ⟨{ failed definition message with receipt := r }, ?_, hd, hid, hkey⟩
  unfold failedForCall
  rw [hr]

theorem mem_validateEach {isPrint : Nat → Bool} : ∀ {ds : List BranchDefinition} {seen out : List Bytes},
    validateEach isPrint seen ds = .ok out → ∀ b, b ∈ out ↔ b ∈ seen ∨ hasBranch ds b = true
  | [], seen, out, h, b => by
    cases h
    simp [hasBranch]
  | d :: ds, seen, out, h, b => by
    unfold validateEach at h
    split at h
    · cases h
    · split at h
      · cases h
      · split at h
        · cases h
        · rw [mem_validateEach h b]
          simp only [List.mem_cons, hasBranch, List.any_cons, Bool.or_eq_true, beq_iff_eq]
          constructor
          · rintro ((rfl | hb) | hb)
            exacts [.inr (.inl rfl), .inl hb, .inr (.inr hb)]
          · rintro (hb | rfl | hb)
            exacts [.inl (.inr hb), .inl (.inl rfl), .inr hb]

theorem mem_validateBranches {isPrint : Nat → Bool} {ds : List BranchDefinition} {out : List Bytes}
    (h : validateBranches isPrint ds = .ok out) (b : Bytes) : b ∈ out ↔ hasBranch ds b = true := by
  unfold validateBranches at h
  split at h
  · cases h
  · rw [mem_validateEach h b]
    simp

/-- **What a valid query definition has**: an operation, the defect branch, no uncertain branch. -/
theorem validateQuery_ok {isPrint : Nat → Bool} {d : Definition} (h : validateQuery isPrint d = .ok ()) :
    d.operation.validate = .ok () ∧ hasBranch d.branches defectBranchID = true ∧
      hasBranch d.branches uncertainBranchID = false := by
  unfold validateQuery at h
  cases ho : d.operation.validate with
  | error err => rw [ho] at h; cases h
  | ok u =>
    rw [ho] at h
    cases hb : validateBranches isPrint d.branches with
    | error err => rw [hb] at h; cases h
    | ok out =>
      rw [hb] at h
      dsimp only at h
      split at h
      · cases h
      next hd =>
        split at h
        · cases h
        next hu =>
          refine ⟨rfl, (mem_validateBranches hb _).1 (by simpa using hd), ?_⟩
          rw [mem_validateBranches hb] at hu
          exact Bool.eq_false_iff.2 hu

theorem validateMutation_ok {isPrint : Nat → Bool} {d : Definition} (h : validateMutation isPrint d = .ok ()) :
    d.operation.validate = .ok () ∧ hasBranch d.branches defectBranchID = true := by
  unfold validateMutation at h
  cases ho : d.operation.validate with
  | error err => rw [ho] at h; cases h
  | ok u =>
    rw [ho] at h
    cases hb : validateBranches isPrint d.branches with
    | error err => rw [hb] at h; cases h
    | ok out =>
      rw [hb] at h
      dsimp only at h
      split at h
      · cases h
      next hd => exact ⟨rfl, (mem_validateBranches hb _).1 (by simpa using hd)⟩

/-! ## Results -/

/-- A retry with a failure that validates and a delay that is not negative. -/
def Attempt.Retries (kind : UInt8) (attempt : Attempt V) : Prop :=
  attempt.kind = kind ∧ attempt.failure.validate = .ok () ∧ 0 ≤ attempt.retryAfter

/-- **What becomes of an attempt**: a retry error, or a result for its call. -/
def Concluded (definition : Definition) (call : Call) (kind : UInt8) (attempt : Attempt V)
    (ran : Except Stop (Result V)) : Prop :=
  (attempt.Retries kind ∧ ran = .error (retryError attempt.failure attempt.retryAfter)) ∨
    ¬ attempt.Retries kind ∧ ∃ result, ran = .ok result ∧ IsFor definition call result

theorem concluded_of_retry {rt : Runtime} {definition : Definition} {call : Call} {kind : UInt8} {attempt : Attempt V}
    (hd : hasBranch definition.branches defectBranchID = true) (message : Bytes) (hk : attempt.kind = kind) :
    Concluded definition call kind attempt
      (match attempt.failure.validate with
      | .error _ => failedForCall rt definition call message
      | .ok _ =>
        if attempt.retryAfter < 0 then failedForCall rt definition call message
        else .error (retryError attempt.failure attempt.retryAfter)) := by
  cases hf : attempt.failure.validate with
  | error err => exact .inr ⟨fun h => (by cases hf.symm.trans h.2.1), exists_failedForCall rt call message hd⟩
  | ok u =>
    dsimp only
    by_cases hn : attempt.retryAfter < 0
    · rw [if_pos hn]
      exact .inr ⟨fun h => absurd h.2.2 (Int.not_le.2 hn), exists_failedForCall rt call message hd⟩
    · rw [if_neg hn]
      exact .inl ⟨⟨hk, hf, Int.not_lt.1 hn⟩, rfl⟩

/-- A branch that is declared, a failure that may be refused, and a receipt to complete. -/
theorem concluded_of_branch {rt : Runtime} {definition : Definition} {call : Call} {kind : UInt8} {attempt : Attempt V}
    (hd : hasBranch definition.branches defectBranchID = true) (unknown : Bytes) (refused : Bytes → Bytes)
    {branch : Bytes} {check : Except Bytes Unit} {failure : Option Failure} (hk : ¬ attempt.Retries kind) :
    Concluded definition call kind attempt
      (if !hasBranch definition.branches branch then failedForCall rt definition call unknown
      else
        match check with
        | .error err => failedForCall rt definition call (refused err)
        | .ok _ =>
          match completeReceipt rt attempt.receipt call with
          | .error err => failedForCall rt definition call err
          | .ok receipt => .ok ⟨branch, attempt.value, receipt, failure⟩) := by
  refine .inr ⟨hk, ?_⟩
  by_cases hb : hasBranch definition.branches branch = true
  · rw [hb]
    cases check with
    | error err => exact exists_failedForCall rt call (refused err) hd
    | ok u =>
      cases hc : completeReceipt rt attempt.receipt call with
      | error err => exact exists_failedForCall rt call err hd
      | ok receipt =>
        obtain ⟨hid, hkey⟩ := receipt_of_completeReceipt hc
        exact ⟨_, rfl, hb, hid, hkey⟩
  · rw [Bool.eq_false_iff.2 hb]
    exact exists_failedForCall rt call unknown hd

theorem concluded_queryResult (rt : Runtime) {definition : Definition} (call : Call) (attempt : Attempt V)
    (hd : hasBranch definition.branches defectBranchID = true) :
    Concluded definition call queryAttemptRetry attempt (queryResult rt call definition attempt) := by
  unfold queryResult
  by_cases hb : attempt.kind = queryAttemptBranch
  · rw [if_pos hb]
    exact concluded_of_branch hd _ _ (fun h => absurd (hb.symm.trans h.1) (by decide))
  · rw [if_neg hb]
    by_cases hr : attempt.kind = queryAttemptRetry
    · rw [if_pos hr]
      exact concluded_of_retry hd _ hr
    · rw [if_neg hr]
      exact .inr ⟨fun h => hr h.1, exists_failedForCall rt call _ hd⟩

theorem concluded_mutationResult (rt : Runtime) {definition : Definition} (call : Call) (attempt : Attempt V)
    (hd : hasBranch definition.branches defectBranchID = true) :
    Concluded definition call mutationAttemptRetry attempt (mutationResult rt call definition attempt) := by
  unfold mutationResult
  by_cases hb : attempt.kind = mutationAttemptBranch
  · rw [if_pos hb]
    exact concluded_of_branch hd _ _ (fun h => absurd (hb.symm.trans h.1) (by decide))
  · rw [if_neg hb]
    by_cases hu : attempt.kind = mutationAttemptUncertain
    · rw [if_pos hu]
      exact concluded_of_branch hd _ _ (fun h => absurd (hu.symm.trans h.1) (by decide))
    · rw [if_neg hu]
      by_cases hr : attempt.kind = mutationAttemptRetry
      · rw [if_pos hr]
        exact concluded_of_retry hd _ hr
      · rw [if_neg hr]
        exact .inr ⟨fun h => hr h.1, exists_failedForCall rt call _ hd⟩

theorem newCall_ok (rt : Runtime) {ctx : Context} {operation : OperationRef} {connection : ConnectionRef}
    (hflow : ctx.flowID ≠ []) (hstep : ctx.stepExecutionID ≠ []) (ho : operation.validate = .ok ())
    (hc : connection.validate = .ok ()) :
    newCall rt (some ctx) operation connection =
      .ok ⟨ctx, deriveCallID rt ctx.flowID ctx.stepExecutionID operation, [], connection, operation, none, none⟩ := by
  unfold newCall
  dsimp only
  rw [if_neg hflow, if_neg hstep, ho, hc]

/-! ## Invocations -/

/-- The call that an operation was invoked with, and the attempt it returned; a mutation with a blank key is not invoked. -/
structure Invocation (V : Type) where
  call    : Call
  attempt : Option (Attempt V)

/-- The invocation of `runQuery`, none where it ends before the operation or its options refuse. -/
def queryInvocation (rt : Runtime) (ctx : Option Context) (operation : Query In V) (connection : ConnectionRef) (input : In)
    (options : List RunOption) : Option (Invocation V) :=
  match newCall rt ctx operation.definition.operation connection with
  | .error _ => none
  | .ok call =>
    match configureCall rt call options with
    | .error _ => none
    | .ok call => some ⟨call, some (operation.invoke call input)⟩

/-- The invocation of `runMutation`. -/
def mutationInvocation (rt : Runtime) (ctx : Option Context) (operation : Mutation In V) (connection : ConnectionRef)
    (input : In) (options : List RunOption) : Option (Invocation V) :=
  match newCall rt ctx operation.definition.operation connection with
  | .error _ => none
  | .ok call =>
    if trimSpace (withKey operation input call).idempotencyKey = [] then some ⟨{ call with idempotencyKey := [] }, none⟩
    else
      match configureCall rt (withKey operation input call) options with
      | .error _ => none
      | .ok call => some ⟨call, some (operation.invoke call input)⟩

/-- What becomes of an invocation. -/
def Settled (definition : Definition) (kind : UInt8) (invocation : Invocation V) (ran : Except Stop (Result V)) : Prop :=
  (∃ attempt, invocation.attempt = some attempt ∧ attempt.Retries kind ∧
      ran = .error (retryError attempt.failure attempt.retryAfter)) ∨
    (∀ attempt, invocation.attempt = some attempt → ¬ attempt.Retries kind) ∧
      ∃ result, ran = .ok result ∧ IsFor definition invocation.call result

omit [Inhabited V] in
theorem settled_of_concluded {definition : Definition} {call : Call} {kind : UInt8} {attempt : Attempt V}
    {ran : Except Stop (Result V)} (h : Concluded definition call kind attempt ran) :
    Settled definition kind ⟨call, some attempt⟩ ran := by
  rcases h with ⟨hr, hran⟩ | ⟨hr, result, hran, hfor⟩
  · exact .inl ⟨attempt, rfl, hr, hran⟩
  · refine .inr ⟨?_, result, hran, hfor⟩
    intro a ha
    cases ha
    exact hr

section Invoked

variable (rt : Runtime) {ctx : Context} {connection : ConnectionRef} {options : List RunOption} (input : In)
  (hflow : ctx.flowID ≠ []) (hstep : ctx.stepExecutionID ≠ []) (hc : connection.validate = .ok ())
  (ho : ∀ call err, call.context = ctx → configureCall rt call options ≠ .error err)

include hflow hstep hc ho

theorem settled_runQuery {operation : Query In V} (hv : validateQuery rt.isPrint operation.definition = .ok ()) :
    ∃ invocation, queryInvocation rt (some ctx) operation connection input options = some invocation ∧
      Settled operation.definition queryAttemptRetry invocation
        (runQuery rt (some ctx) (some operation) connection input options) := by
  obtain ⟨hop, hd, -⟩ := validateQuery_ok hv
  unfold queryInvocation runQuery
  dsimp only
  rw [hv, newCall_ok rt hflow hstep hop hc]
  dsimp only
  cases hcall : configureCall rt _ options with
  | error err => exact absurd hcall (ho _ err rfl)
  | ok call => exact ⟨_, rfl, settled_of_concluded (concluded_queryResult rt call _ hd)⟩

theorem settled_runMutation {operation : Mutation In V}
    (hv : validateMutation rt.isPrint operation.definition = .ok ()) :
    ∃ invocation, mutationInvocation rt (some ctx) operation connection input options = some invocation ∧
      Settled operation.definition mutationAttemptRetry invocation
        (runMutation rt (some ctx) (some operation) connection input options) := by
  obtain ⟨hop, hd⟩ := validateMutation_ok hv
  unfold mutationInvocation runMutation
  dsimp only
  rw [hv, newCall_ok rt hflow hstep hop hc]
  dsimp only
  split
  · exact ⟨_, rfl, .inr ⟨fun _ h => (by cases h), exists_failedForCall rt _ _ hd⟩⟩
  · cases hcall : configureCall rt (withKey operation input _) options with
    | error err => exact absurd hcall (ho _ err rfl)
    | ok call => exact ⟨_, rfl, settled_of_concluded (concluded_mutationResult rt call _ hd)⟩

end Invoked

/-! ## Targets of a Step that was built -/

/-- The targets of a branch that name a Step. -/
def wired (targets : List (BranchTarget S)) (branch : Bytes) : List (Target S) :=
  (targets.filter (fun t => t.branch == branch && targetHasStep f t.target)).map (·.target)

/-- The target a branch was resolved to, if any. -/
def resolvedTo (resolved : List (Bytes × Target S)) (branch : Bytes) : List (Target S) :=
  if (targetOf resolved branch).isNil then [] else [targetOf resolved branch]

theorem isNil_of_targetHasStep {target : Target S} (h : targetHasStep f target = true) : target.isNil = false := by
  cases target with
  | nil => cases h
  | nilPointer => rfl
  | step s => rfl

/-- **Resolving keeps one target for each branch**, and refuses a second. -/
theorem resolvedTo_resolveTargets {rt : Runtime} {ds : List BranchDefinition} :
    ∀ {ts : List (BranchTarget S)} {resolved out : List (Bytes × Target S)},
      resolveTargets f rt ds resolved ts = .ok out → ∀ b, resolvedTo out b = resolvedTo resolved b ++ wired f ts b
  | [], resolved, out, h, b => by
    cases h
    simp [wired]
  | t :: ts, resolved, out, h, b => by
    unfold resolveTargets at h
    split at h
    · cases h
    · split at h
      next hs =>
        have hskip : wired f (t :: ts) b = wired f ts b := by
          have : targetHasStep f t.target = false := by simpa using hs
          simp [wired, this]
        split at h
        · rw [resolvedTo_resolveTargets h b, hskip]
        · cases h
      next hs =>
        have hstep : targetHasStep f t.target = true := by simpa using hs
        split at h
        · cases h
        next hn =>
          have hnil : (targetOf resolved t.branch).isNil = true := by simpa using hn
          rw [resolvedTo_resolveTargets h b]
          by_cases hb : t.branch = b
          · subst hb
            have hnew : resolvedTo ((t.branch, t.target) :: resolved) t.branch = [t.target] := by
              simp [resolvedTo, targetOf, isNil_of_targetHasStep f hstep]
            have hold : resolvedTo resolved t.branch = [] := by rw [resolvedTo, if_pos hnil]
            have hw : wired f (t :: ts) t.branch = t.target :: wired f ts t.branch := by simp [wired, hstep]
            rw [hnew, hold, hw]
            rfl
          · have hnew : resolvedTo ((t.branch, t.target) :: resolved) b = resolvedTo resolved b := by
              have hlookup : targetOf ((t.branch, t.target) :: resolved) b = targetOf resolved b := by
                unfold targetOf
                rw [List.lookup_cons, beq_eq_false_iff_ne.2 (Ne.symm hb)]
              rw [resolvedTo, hlookup, resolvedTo]
            have hw : wired f (t :: ts) b = wired f ts b := by simp [wired, hb]
            rw [hnew, hw]

/-- **What a Step knows of its targets**: each declared branch that is not optional has one. -/
theorem validateBranchTargets_ok {rt : Runtime} {ds : List BranchDefinition} {ts : List (BranchTarget S)}
    {out : List (Bytes × Target S)} (h : validateBranchTargets f rt ds ts = .ok out) :
    (∀ b, wired f ts b = resolvedTo out b) ∧
      ∀ b, hasBranch ds b = true → (targetOf out b).isNil = true → isOptional ds b = true := by
  unfold validateBranchTargets at h
  cases hr : resolveTargets f rt ds [] ts with
  | error err => rw [hr] at h; cases h
  | ok resolved =>
    rw [hr] at h
    dsimp only at h
    split at h
    · cases h
    next hnone =>
      cases h
      refine ⟨fun b => ?_, fun b hb hnil => ?_⟩
      · rw [resolvedTo_resolveTargets f hr b]
        rfl
      · obtain ⟨d, hd, hid⟩ := List.any_eq_true.1 hb
        have hfound := List.find?_eq_none.1 hnone d hd
        rw [beq_iff_eq.1 hid, hnil] at hfound
        simpa using hfound

/-! ## Totality -/

/-- **A decision that goes where the branch of the result goes.** -/
def Routes (definition : Definition) (targets : List (BranchTarget S)) (result : Result V) : Decision S V → Prop
  | .goTo target carried => wired f targets result.branch = [target] ∧ carried = result
  | .forceFail _ => wired f targets result.branch = [] ∧ ∃ d ∈ definition.branches, d.id = result.branch ∧ d.optional = true

/-- What `Execute` did of an invocation: the error of a retry, or the decision for a result of its call. -/
structure Total (definition : Definition) (targets : List (BranchTarget S)) (kind : UInt8) (stores : Bool)
    (invocation : Invocation V) (executed : Executed S V) : Prop where
  error_iff : (∃ stop, executed.outcome = .error stop) ↔
    ∃ attempt, invocation.attempt = some attempt ∧ attempt.Retries kind
  errors    : ∀ stop, executed.outcome = .error stop →
    ∃ attempt, invocation.attempt = some attempt ∧ stop = retryError attempt.failure attempt.retryAfter
  decides   : ∀ decision, executed.outcome = .ok decision →
    ∃ result, IsFor definition invocation.call result ∧ Routes f definition targets result decision ∧
      executed.stored = if stores then some result else none

omit [Inhabited V] in
/-- **Inversion of `newStep`.** -/
theorem newStep_ok {rt : Runtime} {word : Bytes} {definitionOf : Op → Definition}
    {validate : Definition → Except Bytes Unit} {config : StepConfig Op StepIn In V S UI Override}
    {step : Step Op StepIn In V S} (h : newStep f rt word definitionOf validate config = .ok step) :
    validate (definitionOf step.operation) = .ok () ∧ config.connection.validate = .ok () ∧
      step.identity.connection = config.connection ∧ step.resultAttribute = config.resultAttribute ∧
      step.optionalBranches = isOptional (definitionOf step.operation).branches ∧
      validateBranchTargets f rt (definitionOf step.operation).branches config.branches = .ok step.branches := by
  unfold newStep at h
  cases ho : config.operation with
  | none => rw [ho] at h; cases h
  | some operation =>
    rw [ho] at h
    dsimp only at h
    split at h
    · cases h
    next hv =>
      split at h
      · cases h
      · cases h
      next mapper hfactory hm =>
        split at h
        · cases h
        · split at h
          · cases h
          next branches hb =>
            split at h
            · cases h
            · cases h
              refine ⟨hv, ?_, rfl, rfl, rfl, hb⟩
              unfold validateFactoryConfig at hfactory
              split at hfactory
              · cases hfactory
              · split at hfactory
                · cases hfactory
                · split at hfactory
                  · cases hfactory
                  next hc => exact hc

theorem mem_of_isOptional {ds : List BranchDefinition} {b : Bytes} (h : isOptional ds b = true) :
    ∃ d ∈ ds, d.id = b ∧ d.optional = true := by
  obtain ⟨d, hd, hb⟩ := List.any_eq_true.1 h
  rw [Bool.and_eq_true, beq_iff_eq] at hb
  exact ⟨d, hd, hb⟩

omit [Inhabited V] in
/-- A result on a declared branch is routed. -/
theorem routes_routeBranch {rt : Runtime} {definition : Definition} {targets : List (BranchTarget S)}
    {branches : List (Bytes × Target S)} (hb : validateBranchTargets f rt definition.branches targets = .ok branches)
    {result : Result V} (hr : hasBranch definition.branches result.branch = true) (failure : Option Failure)
    (identity : StepIdentity) (word : Bytes) :
    ∃ decision, routeBranch rt branches (isOptional definition.branches) result.branch result failure identity word =
      .ok decision ∧ Routes f definition targets result decision := by
  obtain ⟨hwired, hoptional⟩ := validateBranchTargets_ok f hb
  unfold routeBranch
  cases hn : (targetOf branches result.branch).isNil with
  | false => exact ⟨_, rfl, by rw [hwired, resolvedTo, hn]; rfl, rfl⟩
  | true =>
    have ho := hoptional result.branch hr hn
    rw [ho]
    exact ⟨_, rfl, by rw [hwired, resolvedTo, if_pos hn], mem_of_isOptional ho⟩

omit [Inhabited V] in
theorem total_finish {rt : Runtime} {word : Bytes} {definitionOf : Op → Definition}
    {validate : Definition → Except Bytes Unit} {config : StepConfig Op StepIn In V S UI Override}
    {step : Step Op StepIn In V S} (h : newStep f rt word definitionOf validate config = .ok step)
    (hset : ∀ set ∈ config.resultAttribute, ∀ result, set result = none) {kind : UInt8} {invocation : Invocation V}
    {ran : Except Stop (Result V)} (hs : Settled (definitionOf step.operation) kind invocation ran) :
    Total f (definitionOf step.operation) config.branches kind config.resultAttribute.isSome invocation
      (step.finish rt word ran) := by
  obtain ⟨-, -, -, hattribute, hoptional, hbranches⟩ := newStep_ok f h
  rcases hs with ⟨attempt, ha, hr, rfl⟩ | ⟨hr, result, rfl, hfor⟩
  · refine ⟨⟨fun _ => ⟨attempt, ha, hr⟩, fun _ => ⟨_, rfl⟩⟩, fun stop hstop => ?_, fun _ hd => (by cases hd)⟩
    cases hstop
    exact ⟨attempt, ha, rfl⟩
  · obtain ⟨decision, hroute, hroutes⟩ :=
      routes_routeBranch f hbranches hfor.declared result.failure step.identity word
    have hfinish : step.finish rt word (.ok result) =
        ⟨.ok decision, if config.resultAttribute.isSome then some result else none⟩ := by
      unfold Step.finish
      dsimp only
      rw [hattribute, hoptional, hroute]
      cases hc : config.resultAttribute with
      | none => rfl
      | some set =>
        dsimp only
        rw [hset set hc result]
        rfl
    rw [hfinish]
    refine ⟨⟨fun ⟨stop, hstop⟩ => (by cases hstop), fun ⟨a, ha, hra⟩ => absurd hra (hr a ha)⟩,
      fun _ hstop => (by cases hstop), fun d hd => ?_⟩
    cases hd
    exact ⟨result, hfor, hroutes, rfl⟩

/-- **Step routing is total.**  Where the run options configure and the attribute can be set, `Execute` of a Step that was
built returns an error exactly for a retry with a valid failure and delay, and that error; every other attempt ends in a
result for the call, on a declared branch, and in the decision for this branch. -/
theorem step_routing_total (rt : Runtime) (ctx : Context) (hflow : ctx.flowID ≠ []) (hstep : ctx.stepExecutionID ≠ [])
    (input : StepIn) :
    (∀ (config : StepConfig (Query In V) StepIn In V S UI Override) (step : Step (Query In V) StepIn In V S),
      newQueryStep f rt config = .ok step →
      (∀ call err, call.context = ctx → configureCall rt call step.runOptions ≠ .error err) →
      (∀ set ∈ config.resultAttribute, ∀ result, set result = none) →
      ∃ invocation,
        queryInvocation rt (some ctx) step.operation config.connection (step.mapToOperationInput input) step.runOptions =
          some invocation ∧
        Total f step.operation.definition config.branches queryAttemptRetry config.resultAttribute.isSome invocation
          (executeQuery rt (some ctx) step input)) ∧
    (∀ (config : StepConfig (Mutation In V) StepIn In V S UI Override) (step : Step (Mutation In V) StepIn In V S),
      newMutationStep f rt config = .ok step →
      (∀ call err, call.context = ctx → configureCall rt call step.runOptions ≠ .error err) →
      (∀ set ∈ config.resultAttribute, ∀ result, set result = none) →
      ∃ invocation,
        mutationInvocation rt (some ctx) step.operation config.connection (step.mapToOperationInput input)
          step.runOptions = some invocation ∧
        Total f step.operation.definition config.branches mutationAttemptRetry config.resultAttribute.isSome invocation
          (executeMutation rt (some ctx) step input)) := by
  refine ⟨fun config step hnew ho hset => ?_, fun config step hnew ho hset => ?_⟩
  · obtain ⟨hv, hc, hconnection, -, -, -⟩ := newStep_ok f hnew
    obtain ⟨invocation, hi, hs⟩ :=
      settled_runQuery rt (step.mapToOperationInput input) hflow hstep hc ho hv
    refine ⟨invocation, hi, ?_⟩
    unfold executeQuery
    rw [hconnection]
    exact total_finish f hnew hset hs
  · obtain ⟨hv, hc, hconnection, -, -, -⟩ := newStep_ok f hnew
    obtain ⟨invocation, hi, hs⟩ :=
      settled_runMutation rt (step.mapToOperationInput input) hflow hstep hc ho hv
    refine ⟨invocation, hi, ?_⟩
    unfold executeMutation
    rw [hconnection]
    exact total_finish f hnew hset hs

/-! ### A Step of each kind -/

def sampleRuntime : Runtime :=
  ⟨fun _ => List.replicate 16 0, fun _ => List.length_replicate,
    ⟨⟨2026, 1, 2, 3, 4, 5, isDate_sample, isClock_sample⟩, 0, 0, Time.zero.inSecond⟩, Time.zero_offset, fun _ => true, fun _ _ => none⟩

def sampleDefinition : Definition :=
  ⟨⟨ascii "gmail", ascii "send"⟩, [⟨ascii "sent", ascii "The message was sent.", false⟩,
    ⟨defectBranchID, ascii "The connector failed.", true⟩], ⟨0, 0, none, .default⟩⟩

def sampleAttempt (branch : Bytes) : Attempt Nat := ⟨1, branch, 7, .empty, ⟨[], [], [], []⟩, false, 0⟩

def sampleFactory : Factory Bytes Unit Unit := ⟨id, fun _ => .ok (), fun _ => false⟩

def sampleConfig {Op : Type} (operation : Op) : StepConfig Op Unit Unit Nat Bytes Unit Unit :=
  ⟨ascii "send", ⟨ascii "mail", ascii "Mail", ascii "Sends a message."⟩, (), some operation, ⟨ascii "gmail", ascii "work"⟩,
    some id, [⟨ascii "sent", .step (ascii "next")⟩, ⟨defectBranchID, .nil⟩], none, none, none, none⟩

def sampleStep {Op : Type} (operation : Op) : Step Op Unit Unit Nat Bytes :=
  ⟨operation, ⟨⟨ascii "gmail", ascii "send"⟩, ⟨ascii "gmail", ascii "work"⟩⟩, id, [(ascii "sent", .step (ascii "next"))],
    isOptional sampleDefinition.branches, none, none, none⟩

def sampleQuery : Query Unit Nat := ⟨sampleDefinition, fun _ _ => sampleAttempt (ascii "sent")⟩

def sampleMutation : Mutation Unit Nat := ⟨sampleDefinition, fun _ _ => [], fun _ _ => sampleAttempt (ascii "lost")⟩

theorem sample_routing :
    (∃ invocation,
      queryInvocation sampleRuntime (some ⟨[1], [2]⟩) sampleQuery ⟨ascii "gmail", ascii "work"⟩ () [] = some invocation ∧
      Total sampleFactory sampleDefinition (sampleConfig sampleQuery).branches queryAttemptRetry false invocation
        (executeQuery sampleRuntime (some ⟨[1], [2]⟩) (sampleStep sampleQuery) ())) ∧
    (∃ invocation,
      mutationInvocation sampleRuntime (some ⟨[1], [2]⟩) sampleMutation ⟨ascii "gmail", ascii "work"⟩ () [] =
        some invocation ∧
      Total sampleFactory sampleDefinition (sampleConfig sampleMutation).branches mutationAttemptRetry false invocation
        (executeMutation sampleRuntime (some ⟨[1], [2]⟩) (sampleStep sampleMutation) ())) :=
  have total := step_routing_total (V := Nat) sampleFactory sampleRuntime ⟨[1], [2]⟩ (by decide) (by decide) ()
  ⟨total.1 (sampleConfig sampleQuery) (sampleStep sampleQuery) rfl (fun _ _ _ h => (by cases h)) (fun _ h => (by cases h)),
    total.2 (sampleConfig sampleMutation) (sampleStep sampleMutation) rfl (fun _ _ _ h => (by cases h))
      (fun _ h => (by cases h))⟩

end Operation
end Dex
