import DexConnectors.WebhookSafety
/-!
# TriggerTargets — the Dex targets of triggers (`sdkgo/trigger.go`, `trigger_delivery.go`)

A target filters an event, finds its Flow, asks Dex to start it or to invoke an RPC of it, and makes of Dex's answer whether
the event is consumed.  An error is a tree: its own type and text, and the errors that it wraps, which `errors.As` goes
through in order.  `reported` is what a Worker tells of the error that an RPC handler returned.

Log records are left out.
-/
namespace Dex
namespace Trigger

open Lib Lib.Utf8

open Webhook (Setting Outcome)

/-! ## Errors -/

structure WorkerError where
  code   : Nat
  detail : Bytes
  deriving DecidableEq, Repr

/-- The types of errors that the targets tell apart, with the fields they read. -/
inductive ErrorType where
  | flowAlreadyStarted
  | flowNotActiveOrNotFound
  | flowNotFound
  | workerInvocation (worker : Option WorkerError)
  | valueMapping (operation : Bytes)
  | other
  deriving DecidableEq, Repr

/-- An `UndeliverableTriggerError` that is a nil pointer, that has no `Err`, or that has one; or an error of another type, with
the code of its gRPC status, if it has one. -/
inductive GoError where
  | nilMarker
  | marker
  | marking (err : GoError)
  | error (type : ErrorType) (code : Option Nat) (text : Bytes) (wrapped : List GoError)

namespace GoError

mutual

/-- An error and what it wraps, in the order of `errors.As`. -/
def tree : GoError → List GoError
  | .nilMarker => [.nilMarker]
  | .marker => [.marker]
  | .marking err => .marking err :: err.tree
  | .error type code text wrapped => .error type code text wrapped :: trees wrapped

def trees : List GoError → List GoError
  | [] => []
  | err :: rest => err.tree ++ trees rest

end

/-- `errors.As`. -/
def errorsAs {α : Type} (err : GoError) (target : GoError → Option α) : Option α := err.tree.findSome? target

def isMarker : GoError → Bool
  | .nilMarker | .marker | .marking _ => true
  | .error _ _ _ _ => false

def type? : GoError → Option ErrorType
  | .error type _ _ _ => some type
  | _ => none

/-- Whether an error or one that it wraps is of a type. -/
def has (err : GoError) (type : ErrorType) : Bool := err.tree.any (fun e => e.type? == some type)

/-- The first `WorkerInvocationError`: its `Worker`. -/
def workerFailure (err : GoError) : Option (Option WorkerError) :=
  err.errorsAs fun e => match e.type? with
    | some (.workerInvocation worker) => some worker
    | _ => none

/-- The first `ValueMappingError`: its `Operation`. -/
def mappingFailure (err : GoError) : Option Bytes :=
  err.errorsAs fun e => match e.type? with
    | some (.valueMapping operation) => some operation
    | _ => none

end GoError

def undeliverableTriggerMessage : Bytes := ascii "Trigger event is undeliverable"

/-- `Error`. -/
def GoError.message : GoError → Bytes
  | .nilMarker => ascii "<nil>"
  | .marker => undeliverableTriggerMessage
  | .marking err => undeliverableTriggerMessage ++ ascii ": " ++ err.message
  | .error _ _ text _ => text

def codeUnknown : Nat := 2

def codeFailedPrecondition : Nat := 9

/-- The code of `GRPCStatus`, where an error has one. -/
def GoError.grpcCode : GoError → Option Nat
  | .error _ code _ _ => code
  | _ => some codeFailedPrecondition

/-- `status.Code`. -/
def GoError.statusCode (err : GoError) : Nat := (err.errorsAs GoError.grpcCode).getD codeUnknown

/-- What a Worker reports of the error of an RPC handler. -/
def reported (handlerError : GoError) : WorkerError := ⟨handlerError.statusCode, handlerError.message⟩

/-! ## Classification -/

def isTriggerUndeliverable (err : GoError) : Bool := err.tree.any GoError.isMarker

def markTriggerUndeliverable (err : GoError) : GoError := if err.isMarker then err else .marking err

def isHandlerUndeliverableMarker : Option WorkerError → Bool
  | none => false
  | some worker => worker.code == codeFailedPrecondition && undeliverableTriggerMessage.isPrefixOf worker.detail

def classifyDexTriggerError (err : GoError) : GoError :=
  if isTriggerUndeliverable err then err
  else if err.has .flowNotActiveOrNotFound || err.has .flowNotFound then markTriggerUndeliverable err
  else match err.workerFailure with
    | some worker => if isHandlerUndeliverableMarker worker then markTriggerUndeliverable err else err
    | none =>
      match err.mappingFailure with
      | some operation => if operation = ascii "encode" then markTriggerUndeliverable err else err
      | none => err

/-- **What no retry of an event can change.** -/
inductive Final (err : GoError) : Prop where
  | marked (h : isTriggerUndeliverable err = true)
  | inactive (h : err.has .flowNotActiveOrNotFound = true)
  | notFound (h : err.has .flowNotFound = true)
  | rejected (worker : WorkerError) (h : err.workerFailure = some (some worker)) (hcode : worker.code = codeFailedPrecondition)
      (hdetail : undeliverableTriggerMessage <+: worker.detail)
  | unencodable (hworker : err.workerFailure = none) (h : err.mappingFailure = some (ascii "encode"))

theorem mem_tree_self (err : GoError) : err ∈ err.tree := by
  cases err <;> simp [GoError.tree]

theorem isTriggerUndeliverable_mark (err : GoError) : isTriggerUndeliverable (markTriggerUndeliverable err) = true := by
  unfold markTriggerUndeliverable
  split
  · exact List.any_eq_true.2 ⟨err, mem_tree_self err, ‹_›⟩
  · exact List.any_eq_true.2 ⟨_, mem_tree_self _, rfl⟩

theorem isHandlerUndeliverableMarker_iff {worker : WorkerError} : isHandlerUndeliverableMarker (some worker) = true ↔
    worker.code = codeFailedPrecondition ∧ undeliverableTriggerMessage <+: worker.detail := by
  simp [isHandlerUndeliverableMarker]

/-- An error that is classified as undeliverable, and only such a one, is final. -/
theorem classifyDexTriggerError_iff (err : GoError) :
    isTriggerUndeliverable (classifyDexTriggerError err) = true ↔ Final err := by
  unfold classifyDexTriggerError
  constructor
  · intro h
    split at h
    · exact .marked ‹_›
    split at h
    · rename_i hflow
      rw [Bool.or_eq_true] at hflow
      exact hflow.elim .inactive .notFound
    rename_i hmarker _
    split at h
    · rename_i worker hworker
      split at h
      · rename_i hmark
        cases worker with
        | none => cases hmark
        | some worker =>
          obtain ⟨hcode, hdetail⟩ := isHandlerUndeliverableMarker_iff.1 hmark
          exact .rejected worker hworker hcode hdetail
      · exact absurd h hmarker
    · rename_i hworker
      split at h
      · rename_i operation hmapping
        split at h
        · rename_i hencode
          exact .unencodable hworker (hencode ▸ hmapping)
        · exact absurd h hmarker
      · exact absurd h hmarker
  · intro h
    by_cases hmarker : isTriggerUndeliverable err = true
    · rw [if_pos hmarker]
      exact hmarker
    rw [if_neg hmarker]
    by_cases hflow : (err.has .flowNotActiveOrNotFound || err.has .flowNotFound) = true
    · rw [if_pos hflow]
      exact isTriggerUndeliverable_mark err
    rw [if_neg hflow]
    rw [Bool.or_eq_true, not_or] at hflow
    cases h with
    | marked h => exact absurd h hmarker
    | inactive h => exact absurd h hflow.1
    | notFound h => exact absurd h hflow.2
    | rejected worker hworker hcode hdetail =>
      rw [hworker]
      dsimp only
      rw [if_pos (isHandlerUndeliverableMarker_iff.2 ⟨hcode, hdetail⟩)]
      exact isTriggerUndeliverable_mark err
    | unencodable hworker hmapping =>
      rw [hworker, hmapping]
      dsimp only
      rw [if_pos rfl]
      exact isTriggerUndeliverable_mark err

/-! ## Rejections by a handler -/

theorem isMarker_message {err : GoError} (h : err.isMarker = true) (hne : err ≠ .nilMarker) :
    undeliverableTriggerMessage <+: err.message := by
  cases err with
  | nilMarker => exact absurd rfl hne
  | marker => exact List.prefix_refl _
  | marking err =>
    unfold GoError.message
    rw [List.append_assoc]
    exact List.prefix_append _ _
  | error type code text wrapped => cases h

theorem isMarker_statusCode {err : GoError} (h : err.isMarker = true) : err.statusCode = codeFailedPrecondition := by
  cases err with
  | error type code text wrapped => cases h
  | _ => rfl

/-- A handler that returns what `MarkTriggerUndeliverable` made of an error has rejected the event. -/
theorem reported_mark (err : GoError) (hne : err ≠ .nilMarker) :
    isHandlerUndeliverableMarker (some (reported (markTriggerUndeliverable err))) = true := by
  have hmarker : (markTriggerUndeliverable err).isMarker = true := by
    unfold markTriggerUndeliverable
    split
    · exact ‹_›
    · rfl
  have hne' : markTriggerUndeliverable err ≠ .nilMarker := by
    unfold markTriggerUndeliverable
    split
    · exact hne
    · exact GoError.noConfusion
  exact isHandlerUndeliverableMarker_iff.2 ⟨isMarker_statusCode hmarker, isMarker_message hmarker hne'⟩

/-! ## Targets -/

inductive Route (Flow RPC : Type) where
  | flowStart (flow : Flow)
  | rpc (rpc : RPC)

/-- The targets that an application gives to its bindings. -/
structure Application (S : Setting) where
  Flow : Type
  RPC : Type
  Input : Type
  route : S.Target → Route Flow RPC
  filterEvent : S.Target → S.Event → Bool
  resolveFlowID : S.Target → S.Event → Bytes
  mapToInput : S.Target → S.Event → Input

variable {S : Setting} (A : Application S)

/-- `StartFlow`, its reuse of a Flow ID disallowed. -/
structure FlowStart where
  flow      : A.Flow
  flowID    : Bytes
  input     : A.Input
  requestID : Bytes

structure RPCInvocation where
  flowID : Bytes
  rpc    : A.RPC
  input  : A.Input

/-- What a target asks of Dex; the answer is an error or none. -/
inductive DexOp where
  | startFlow (start : FlowStart A)
  | invokeRPC (invocation : RPCInvocation A)

@[reducible] def DexAns : DexOp A → Type := fun _ => Option GoError

abbrev HandleTrigger := Prog (DexOp A) (DexAns A) (Option GoError)

variable {A}

def errorf (text : Bytes) : GoError := .error .other none text []

/-- What both targets do before they ask Dex. -/
def filteredTarget (target : S.Target) (event : S.Event) (requirement : Bytes) (ask : Bytes → HandleTrigger A) : HandleTrigger A :=
  if !A.filterEvent target event then return none
  else
    let flowID := A.resolveFlowID target event
    if trimSpace flowID = [] ∨ trimSpace event.id = [] then return some (markTriggerUndeliverable (errorf requirement))
    else ask flowID

/-- The end of `NewDexFlowTriggerTarget`'s target. -/
def flowStarted (err : Option GoError) : Option GoError :=
  err.bind fun err => if err.has .flowAlreadyStarted then none else some (classifyDexTriggerError err)

def newDexFlowTriggerTarget (target : S.Target) (flow : A.Flow) (event : S.Event) : HandleTrigger A :=
  filteredTarget target event (ascii "Flow trigger requires Flow ID and event ID") fun flowID => do
    let err : Option GoError ← Prog.perform (.startFlow ⟨flow, flowID, A.mapToInput target event, event.id⟩)
    return flowStarted err

/-- The end of `NewDexRPCTriggerTarget`'s target. -/
def rpcInvoked (err : Option GoError) : Option GoError :=
  err.bind fun err =>
    if err.mappingFailure = some (ascii "decode") then none else some (classifyDexTriggerError err)

def newDexRPCTriggerTarget (target : S.Target) (rpc : A.RPC) (event : S.Event) : HandleTrigger A :=
  filteredTarget target event (ascii "RPC trigger requires Flow ID and event ID") fun flowID => do
    let err : Option GoError ← Prog.perform (.invokeRPC ⟨flowID, rpc, A.mapToInput target event⟩)
    return rpcInvoked err

variable (A) in
def Application.handleTrigger (target : S.Target) (event : S.Event) : HandleTrigger A :=
  match A.route target with
  | .flowStart flow => newDexFlowTriggerTarget target flow event
  | .rpc rpc => newDexRPCTriggerTarget target rpc event

/-- What the durable target makes of the error that its target returns. -/
def outcomeOf : Option GoError → Outcome
  | none => .handled
  | some err => if isTriggerUndeliverable err then .undeliverable else .failed

/-! ## Retry delays -/

def triggerRetryInitialDelay : Nat := 250 * 10 ^ 6

def triggerRetryMaxDelay : Nat := 30 * 10 ^ 9

/-- The loop of `triggerRetryDelay`, of `left` rounds. -/
def doubled (delay : Nat) : Nat → Nat
  | 0 => delay
  | left + 1 => if delay < triggerRetryMaxDelay then doubled (delay * 2) left else delay

def triggerRetryDelay (attempt : Nat) : Nat := min (doubled triggerRetryInitialDelay (attempt - 1)) triggerRetryMaxDelay

theorem doubled_min (left delay : Nat) :
    min (doubled delay left) triggerRetryMaxDelay = min (delay * 2 ^ left) triggerRetryMaxDelay := by
  induction left generalizing delay with
  | zero => simp [doubled]
  | succ left ih =>
    unfold doubled
    split
    · rw [ih, Nat.pow_succ, Nat.mul_assoc, Nat.mul_comm 2]
    · rename_i h
      have hle : delay ≤ delay * 2 ^ (left + 1) := Nat.le_mul_of_pos_right _ (Nat.two_pow_pos _)
      rw [Nat.min_eq_right (by omega), Nat.min_eq_right (by omega)]

/-- The wait after a failed attempt doubles from a quarter of a second up to thirty seconds. -/
theorem triggerRetryDelay_eq (attempt : Nat) :
    triggerRetryDelay attempt = min (triggerRetryInitialDelay * 2 ^ (attempt - 1)) triggerRetryMaxDelay :=
  doubled_min (attempt - 1) triggerRetryInitialDelay

end Trigger
end Dex
