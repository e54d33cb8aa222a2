import DexConnectors.OperationRouting
import DexConnectors.LibNumberText
import Mathlib.Data.List.Sort
/-!
# MockModel — a scripted operation of the Go mocks (`sdkgo/connectormock/scripted_operation.go`, `query.go`, `mutation.go`)

A mock answers the calls that `RunQuery` or `RunMutation` gives it from its scripts.  A function that may fail the test returns
the messages it reports beside its value.  The map of the flow scripts is its keys with the script of each; `none` is the mock's
own script.  The predicates and checks of a test, the names of types and what `appendToReport` returned are parameters.
-/
namespace Dex
namespace Mock

open Lib Lib.Utf8 Operation

/-! ## Scripts -/

/-- A `Case`: the zero one, and what each constructor builds. -/
inductive Case (In V Ty : Type) where
  | invalid
  | branch (branch : Bytes) (value : V) (failure : Option Failure)
  | retry (failure : Failure) (retryAfter : Int)
  | uncertain (value : V) (failure : Failure)
  | paged (branch : Bytes) (inputType : Ty) (pageNumber : In → Int) (pages : List V)

structure Rule (In V Ty : Type) where
  matchesInput : In → Bool
  response     : Case In V Ty

structure Script (In V Ty : Type) where
  rules        : List (Rule In V Ty)
  queue        : List (Case In V Ty)
  defaults     : List (Case In V Ty)
  defaultCount : Nat

/-- The kind of a resolved case, with the fields that are read for it. -/
inductive Outcome (V : Type) where
  | branch (branch : Bytes) (value : V) (failure : Option Failure)
  | retry (failure : Failure) (retryAfter : Int)
  | uncertain (value : V) (failure : Failure)

def Outcome.isRetry {V : Type} : Outcome V → Bool
  | .retry _ _ => true
  | _ => false

structure ResolvedCase (V : Type) where
  outcome         : Outcome V
  isUnscripted    : Bool
  isReplay        : Bool
  isDefault       : Bool
  effectiveBranch : Bytes

/-- One call a mock answered, as `Calls` returns it. -/
structure Call (In : Type) where
  flowID         : Bytes
  callID         : Bytes
  idempotencyKey : Bytes
  connection     : ConnectionRef
  input          : In
  branch         : Bytes
  isRetry        : Bool
  isReplay       : Bool
  isUnscripted   : Bool

structure RecordedCall where
  connectorID    : Bytes
  operationID    : Bytes
  connectionName : Bytes
  flowID         : Bytes
  callID         : Bytes
  branch         : Bytes
  isRetry        : Bool
  isReplay       : Bool
  isUnscripted   : Bool

/-- What a `scriptedOperation` is built with; the answer check comes with its branch. -/
structure ScriptedOperation (In V Ty : Type) where
  definition   : Definition
  isMutation   : Bool
  inputType    : Ty
  typeName     : Ty → Bytes
  requestCheck : Option (In → Option Failure)
  answerCheck  : Option (Bytes × (In → V → Option Bytes))

/-- What a `scriptedOperation` goes on to change, with the calls it adds to the record of the process and the errors of its test. -/
structure State (In V Ty : Type) where
  prefixes       : List Bytes
  script         : Option Bytes → Script In V Ty
  isStrict       : Bool
  isTestFinished : Bool
  calls          : List (Call In)
  terminalByKey  : Bytes → Option (ResolvedCase V)
  processCalls   : List RecordedCall
  errors         : List Bytes
  distinct       : prefixes.Nodup

section

variable {In V Ty : Type} [DecidableEq Ty] (rt : Runtime) (op : ScriptedOperation In V Ty)

/-- `newScriptedOperation`. -/
def State.new : State In V Ty := ⟨[], fun _ => ⟨[], [], [], 0⟩, false, false, [], fun _ => none, [], [], List.nodup_nil⟩

/-! ## Cases -/

def ScriptedOperation.declaredBranches (branch : Bytes) : Bool := hasBranch op.definition.branches branch

def ScriptedOperation.describe : Bytes := op.definition.operation.connectorID ++ ascii "." ++ op.definition.operation.operationID

def ScriptedOperation.completeFailure (failure : Failure) : Failure :=
  { failure with
    provider := if failure.provider = [] then op.definition.operation.connectorID else failure.provider
    operation := if failure.operation = [] then op.definition.operation.operationID else failure.operation }

def ScriptedOperation.failureProblem (failure : Failure) : Option Bytes :=
  match (op.completeFailure failure).validate with
  | .error err => some (ascii "the case failure is invalid: " ++ err)
  | .ok _ => none

/-- None is the empty text. -/
def ScriptedOperation.caseProblem : Case In V Ty → Option Bytes
  | .invalid => some (ascii "the case was not built with Branch, Retry, Uncertain, or Paged")
  | .branch branch _ failure =>
    if !op.declaredBranches branch then
      some (ascii "branch " ++ quote rt.isPrint branch ++ ascii " is not declared by the operation")
    else failure.bind op.failureProblem
  | .retry failure retryAfter =>
    if retryAfter < 0 then some (ascii "the retry delay is negative") else op.failureProblem failure
  | .uncertain _ failure =>
    if !op.isMutation then some (ascii "an uncertain case is valid only for a mutation")
    else if !op.declaredBranches uncertainBranchID then
      some (ascii "the mutation does not declare the uncertain branch")
    else op.failureProblem failure
  | .paged branch inputType _ pages =>
    if !op.declaredBranches branch then
      some (ascii "branch " ++ quote rt.isPrint branch ++ ascii " is not declared by the operation")
    else if inputType ≠ op.inputType then
      some (ascii "the paged case reads " ++ op.typeName inputType ++ ascii " input, but the operation takes " ++
        op.typeName op.inputType)
    else if pages = [] then some (ascii "the paged case has no pages")
    else none

variable [Inhabited V]

def ScriptedOperation.defectCase (message : Bytes) : ResolvedCase V :=
  ⟨.branch defectBranchID default
      (some ⟨ascii "LOCAL_DEFECT", op.definition.operation.connectorID, op.definition.operation.operationID, message⟩),
    false, false, false, defectBranchID⟩

/-- `resolvePage`, of a case without a problem. -/
def ScriptedOperation.resolvePage (branch : Bytes) (pageNumber : In → Int) (pages : List V) (input : In) : ResolvedCase V × List Bytes :=
  let number := pageNumber input
  if number < 1 ∨ number > pages.length then
    (op.defectCase (ascii "requested page is outside the scripted listing"),
      [ascii "the input requests page " ++ formatInt number ++ ascii ", but the paged case has " ++ formatNat pages.length ++
        ascii " pages"])
  else (⟨.branch branch (pages.getD (number - 1).toNat default) none, false, false, false, branch⟩, [])

def ScriptedOperation.resolveCase (response : Case In V Ty) (input : In) : ResolvedCase V × List Bytes :=
  let problem := op.caseProblem rt response
  match response with
  | .paged branch _ pageNumber pages =>
    match problem with
    | some message => (op.defectCase message, [])
    | none => op.resolvePage branch pageNumber pages input
  | .invalid => (op.defectCase (problem.getD []), [])
  | .branch branch value failure =>
    (⟨.branch branch value (failure.map op.completeFailure), false, false, false,
      if problem.isSome then defectBranchID else branch⟩, [])
  | .retry failure retryAfter =>
    (⟨.retry (op.completeFailure failure) retryAfter, false, false, false, if problem.isSome then defectBranchID else []⟩, [])
  | .uncertain value failure =>
    (⟨.uncertain value (op.completeFailure failure), false, false, false,
      if problem.isSome then defectBranchID else uncertainBranchID⟩, [])

omit [DecidableEq Ty] [Inhabited V] in
def Script.scriptedCase (current : Script In V Ty) (input : In) : Option (Case In V Ty × Script In V Ty) :=
  match current.rules.find? (fun candidate => candidate.matchesInput input), current.queue with
  | some candidate, _ => some (candidate.response, current)
  | none, [] => none
  | none, next :: rest => some (next, { current with queue := rest })

omit [DecidableEq Ty] [Inhabited V] in
def Script.defaultCase (current : Script In V Ty) : Option (Case In V Ty × Script In V Ty) :=
  match current.defaults[min current.defaultCount (current.defaults.length - 1)]? with
  | none => none
  | some response => some (response, { current with defaultCount := current.defaultCount + 1 })

/-- The first script that answers, the case it gives and what is left of it. -/
def firstAnswer (answers : Script In V Ty → Option (Case In V Ty × Script In V Ty)) (script : Option Bytes → Script In V Ty) :
    List (Option Bytes) → Option (Case In V Ty × (Option Bytes → Script In V Ty))
  | [] => none
  | target :: rest =>
    match answers (script target) with
    | some (response, left) => some (response, Function.update script target left)
    | none => firstAnswer answers script rest

def State.scriptsFor (s : State In V Ty) (flowID : Bytes) : List (Option Bytes) :=
  let matching := s.prefixes.filter (fun p => p != [] && p.isPrefixOf flowID)
  (matching.insertionSort (fun left right => right.length ≤ left.length)).map some ++ [none]

def State.scriptedCase (s : State In V Ty) (flowID : Bytes) (input : In) :
    Option (Case In V Ty × (Option Bytes → Script In V Ty)) :=
  firstAnswer (·.scriptedCase input) s.script (s.scriptsFor flowID)

def State.defaultCase (s : State In V Ty) (flowID : Bytes) : Option (Case In V Ty × (Option Bytes → Script In V Ty)) :=
  if s.isStrict then none else firstAnswer (·.defaultCase) s.script (s.scriptsFor flowID)

def State.reportFailure (s : State In V Ty) (message : Bytes) : State In V Ty :=
  if s.isTestFinished then s
  else { s with errors := s.errors ++ [ascii "connector mock " ++ op.describe ++ ascii ": " ++ message] }

def ScriptedOperation.resolveScriptedCase (s : State In V Ty) (flowID : Bytes) (input : In) : ResolvedCase V × State In V Ty :=
  match s.scriptedCase flowID input with
  | some (response, script) =>
    let resolved := op.resolveCase rt response input
    (resolved.1, resolved.2.foldl (State.reportFailure op) { s with script })
  | none =>
    match s.defaultCase flowID with
    | some (response, script) =>
      let resolved := op.resolveCase rt response input
      ({ resolved.1 with isDefault := true }, resolved.2.foldl (State.reportFailure op) { s with script })
    | none =>
      ({ op.defectCase (ascii "unscripted connector mock call") with isUnscripted := true },
        s.reportFailure op (ascii "unscripted call for Flow " ++ quote rt.isPrint flowID ++
          if s.isStrict then ascii "; the mock is strict, so script it with Respond or When"
          else ascii "; script it with Respond, When, or Default"))

/-- The answer check, and the message it reports. -/
def ScriptedOperation.checkAnswer (resolved : ResolvedCase V) (input : In) : ResolvedCase V × List Bytes :=
  match op.answerCheck, resolved.outcome with
  | some (answerBranch, check), .branch _ value _ =>
    if resolved.effectiveBranch = answerBranch then
      match check input value with
      | none => (resolved, [])
      | some err =>
        (op.defectCase (ascii "connector mock answer does not match request: " ++ err),
          [(if resolved.isDefault then ascii "default" else ascii "scripted") ++ ascii " answer for branch " ++
            quote rt.isPrint answerBranch ++ ascii " does not match request: " ++ err])
    else (resolved, [])
  | _, _ => (resolved, [])

def ScriptedOperation.requestCheckDefect (failure : Failure) : ResolvedCase V × List Bytes :=
  match (op.completeFailure failure).validate with
  | .error err =>
    (op.defectCase (ascii "connector mock request check returned an invalid failure: " ++ err),
      [ascii "the request check returned an invalid failure: " ++ err])
  | .ok _ => (⟨.branch defectBranchID default (some (op.completeFailure failure)), false, false, false, defectBranchID⟩, [])

/-! ## Answers -/

omit [DecidableEq Ty] [Inhabited V] in
/-- `reportError` is what `appendToReport` returned. -/
def ScriptedOperation.recordAnswer (s : State In V Ty) (call : Operation.Call) (input : In) (flowID : Bytes) (resolved : ResolvedCase V)
    (reportError : Option Bytes) : State In V Ty :=
  reportError.toList.foldl (State.reportFailure op)
    { s with
      calls := s.calls ++ [⟨flowID, call.id, call.idempotencyKey, call.connection, input, resolved.effectiveBranch,
        resolved.outcome.isRetry, resolved.isReplay, resolved.isUnscripted⟩]
      processCalls := s.processCalls ++ [⟨op.definition.operation.connectorID, op.definition.operation.operationID,
        call.connection.name, flowID, call.id, resolved.effectiveBranch, resolved.outcome.isRetry, resolved.isReplay,
        resolved.isUnscripted⟩] }

/-- What `answer` does for an input that passed the request check. -/
def ScriptedOperation.answerChecked (s : State In V Ty) (flowID : Bytes) (input : In) (idempotencyKey : Bytes) :
    ResolvedCase V × State In V Ty :=
  match if idempotencyKey = [] then none else s.terminalByKey idempotencyKey with
  | some remembered => ({ remembered with isReplay := true }, s)
  | none =>
    let scripted := op.resolveScriptedCase rt s flowID input
    let checked := op.checkAnswer rt scripted.1 input
    let s := checked.2.foldl (State.reportFailure op) scripted.2
    (checked.1,
      if idempotencyKey ≠ [] ∧ !checked.1.outcome.isRetry then
        { s with terminalByKey := Function.update s.terminalByKey idempotencyKey (some checked.1) }
      else s)

/-- **The answer of a mock to one call.** -/
def ScriptedOperation.answer (s : State In V Ty) (call : Operation.Call) (input : In) (idempotencyKey : Bytes) (reportError : Option Bytes) :
    ResolvedCase V × State In V Ty :=
  match op.requestCheck.bind (fun check => check input) with
  | some failure =>
    let defect := op.requestCheckDefect failure
    (defect.1, op.recordAnswer (defect.2.foldl (State.reportFailure op) s) call input call.context.flowID defect.1 reportError)
  | none =>
    let answered := op.answerChecked rt s call.context.flowID input idempotencyKey
    (answered.1, op.recordAnswer answered.2 call input call.context.flowID answered.1 reportError)

/-! ## Scripting -/

omit [DecidableEq Ty] [Inhabited V] in
/-- A test holds a script of its mock, so it is there. -/
def State.modify (s : State In V Ty) (target : Option Bytes) (f : Script In V Ty → Script In V Ty) : State In V Ty :=
  { s with script := Function.update s.script target (f (s.script target)) }

omit [DecidableEq Ty] [Inhabited V] in
def State.errorf (s : State In V Ty) (message : Bytes) : State In V Ty :=
  { s with errors := s.errors ++ [ascii "connector mock " ++ op.describe ++ ascii ": " ++ message] }

omit [Inhabited V] in
def ScriptedOperation.reportInvalidCases (s : State In V Ty) (cases : List (Case In V Ty)) : State In V Ty :=
  (cases.filterMap (op.caseProblem rt)).foldl (State.errorf op) s

inductive Act (In V Ty : Type) where
  | respond (target : Option Bytes) (cases : List (Case In V Ty))
  | when (target : Option Bytes) (matchesInput : Option (In → Bool)) (response : Case In V Ty)
  | setDefault (target : Option Bytes) (cases : List (Case In V Ty))
  | makeStrict
  | flowScript (flowIDOrPrefix : Bytes)
  | finishTest

omit [Inhabited V] in
/-- What a test, or its cleanup, does to a mock. -/
def ScriptedOperation.act (s : State In V Ty) : Act In V Ty → State In V Ty
  | .respond target cases =>
    (op.reportInvalidCases rt s cases).modify target (fun script => { script with queue := script.queue ++ cases })
  | .when _ none _ => s.errorf op (ascii "When requires an input predicate")
  | .when target (some matchesInput) response =>
    (op.reportInvalidCases rt s [response]).modify target
      (fun script => { script with rules := script.rules ++ [⟨matchesInput, response⟩] })
  | .setDefault target cases =>
    (op.reportInvalidCases rt s cases).modify target (fun script => { script with defaults := cases, defaultCount := 0 })
  | .makeStrict => { s with isStrict := true }
  | .flowScript flowIDOrPrefix =>
    let s := if trimSpace flowIDOrPrefix = [] then s.errorf op (ascii "ForFlow requires a Flow ID or prefix") else s
    if h : flowIDOrPrefix ∈ s.prefixes then s
    else { s with prefixes := flowIDOrPrefix :: s.prefixes, distinct := List.nodup_cons.2 ⟨h, s.distinct⟩ }
  | .finishTest => { s with isTestFinished := true }

/-! ## Invocations -/

omit [Inhabited V] in
def newBranch (branch : Bytes) (value : V) (failure : Option Failure) (receipt : Receipt) : Attempt V :=
  ⟨queryAttemptBranch, branch, value, receipt, failure.getD ⟨[], [], [], []⟩, failure.isSome, 0⟩

/-- What `Query.Invoke` makes of a resolved case. -/
def Outcome.queryAttempt : Outcome V → Attempt V
  | .retry failure retryAfter => ⟨queryAttemptRetry, [], default, .empty, failure, false, retryAfter⟩
  | .branch id value failure => newBranch id value failure .empty
  | .uncertain value failure => newBranch uncertainBranchID value (some failure) .empty

/-- What `Mutation.Invoke` makes of it. -/
def Outcome.mutationAttempt : Outcome V → Attempt V
  | .retry failure retryAfter => ⟨mutationAttemptRetry, [], default, .empty, failure, false, retryAfter⟩
  | .branch id value failure => newBranch id value failure .empty
  | .uncertain value failure => ⟨mutationAttemptUncertain, [], value, .empty, failure, true, 0⟩

/-- The mock in a state, as the SDK sees it. -/
def State.query (s : State In V Ty) : Query In V :=
  ⟨op.definition, fun call input => (op.answer rt s call input [] none).1.outcome.queryAttempt⟩

def State.mutation (s : State In V Ty) : Mutation In V :=
  ⟨op.definition, fun callID _ => callID,
    fun call input => (op.answer rt s call input call.idempotencyKey none).1.outcome.mutationAttempt⟩

end

end Mock
end Dex
