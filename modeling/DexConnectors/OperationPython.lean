import Mathlib.Data.Rat.Defs
import DexConnectors.LibTimeText
import DexConnectors.LibTimestamp
import DexConnectors.OperationModel
/-!
# OperationPython — one provider call of the Python SDK (`sdkpython/.../operations.py`, `timestamps.py`, `types.py`, `errors.py`)

A `str` is the bytes of its UTF-8 encoding.  `Exception` keeps the exceptions that `run_query` and `run_mutation` tell apart.
An attempt carries what its constructor checked.

`definite_outcome_iff`: which attempts come back as they are.  The others have an observation time that Python cannot hold as
a `datetime`; completing their receipt raises a `ValueError`, and a defect takes the place of the outcome.
-/
namespace Dex
namespace OperationPython

open Lib Lib.Utf8 TimeText
open Operation (OperationRef ConnectionRef BranchDefinition RetryPolicy connectorIDPattern operationIDPattern)

variable {In V : Type}

/-! ## `timestamps.py` -/

/-- `date(year, month, day)` is raised for nothing. -/
def isPythonDate (f : Fields) : Bool := 1 ≤ f.year.val && isDate f.year.val f.month.val f.day.val

/-- The date of `_go_time_parts`, with its own check of year zero. -/
def hasValidDate (f : Fields) : Bool :=
  isPythonDate f ||
    (f.year == 0 && 1 ≤ f.month.val && f.month.val ≤ 12 && 1 ≤ f.day.val && f.day.val ≤ 31 &&
      f.day.val ≤ if f.month.val = 2 then 29
        else if f.month.val = 4 ∨ f.month.val = 6 ∨ f.month.val = 9 ∨ f.month.val = 11 then 30
        else 31)

def hasValidClock (f : Fields) : Bool := isClock f.hour.val f.minute.val f.second.val

def hasValidZone : Zone → Bool
  | .utc => true
  | .east hours minutes | .west hours minutes => hours.val ≤ 24 && minutes.val ≤ 60

def canonicalZone : Zone → Zone
  | .utc => .utc
  | .east hours minutes => if hours = 0 ∧ minutes = 0 then .utc else .east hours minutes
  | .west hours minutes => if hours = 0 ∧ minutes = 0 then .utc else .west hours minutes

/-- The fields of the canonical text. -/
def canonicalOf (f : Fields) : Fields :=
  { f with fraction := f.fraction.rdropWhile (· == 0), zone := canonicalZone f.zone }

/-- `_go_time_parts`: the match and the canonical text. -/
def goTimeParts (value : Bytes) : Except Bytes (Fields × Bytes) :=
  match parse value with
  | none => .error (ascii "timestamp must be a Go RFC 3339 time")
  | some f =>
    if !hasValidDate f then .error (ascii "timestamp has an invalid date")
    else if !hasValidClock f then .error (ascii "timestamp has an invalid clock time")
    else if !hasValidZone f.zone then .error (ascii "timestamp has an invalid timezone offset")
    else .ok (f, (canonicalOf f).text)

/-- An aware `datetime`; its offset is in microseconds. -/
structure DateTime where
  civil   : Civil
  micro   : Nat
  offset  : Int
  inRange : 1 ≤ civil.year ∧ civil.year ≤ 9999

/-- The microseconds from the start of year one, by which aware datetimes are compared. -/
def DateTime.instant (d : DateTime) : Int := d.civil.seconds * 1000000 + d.micro - d.offset

/-- The digits of a fraction as microseconds. -/
def microOf (fraction : List (Fin 10)) : Nat := Rfc3339.value (Rfc3339.padded 6 (fraction.map (·.val)))

def isShortZone : Zone → Bool
  | .utc => true
  | .east hours minutes | .west hours minutes => hours.val ≤ 23 && minutes.val ≤ 59

/-- `datetime.fromisoformat` of a text of this shape, `Z` read as `+00:00`. -/
def fromisoformat (text : Bytes) : Option DateTime :=
  match parse text with
  | none => none
  | some f =>
    if h : (1 ≤ f.year.val ∧ isDate f.year.val f.month.val f.day.val = true) ∧
        isClock f.hour.val f.minute.val f.second.val = true ∧ isShortZone f.zone = true then
      some ⟨⟨f.year.val, f.month.val, f.day.val, f.hour.val, f.minute.val, f.second.val, h.1.2, h.2.1⟩, microOf f.fraction,
        f.zone.minutes * 60000000, by have := f.year.isLt; simp only; omega⟩
    else none

/-- `parse_go_datetime_input`. -/
def parseGoDatetimeInput (value fieldName : Bytes) : Except Bytes DateTime :=
  let unrepresentable := ascii "cannot be represented exactly as a Python datetime"
  match goTimeParts value with
  | .error err => .error (fieldName ++ ascii ": " ++ err)
  | .ok (f, canonical) =>
    if f.year = 0 ∨ (f.fraction.drop 6).any (· != 0) then .error (fieldName ++ ascii ": " ++ unrepresentable)
    else if !isShortZone f.zone then .error (fieldName ++ ascii ": " ++ unrepresentable)
    else
      match fromisoformat canonical with
      | none => .error (fieldName ++ ascii ": Invalid isoformat string")
      | some d => .ok d

/-- `RFC3339NanoTimestamp.from_wire`, as the text it keeps. -/
def RFC3339NanoTimestamp.fromWire (value : Bytes) : Except Bytes Bytes :=
  match goTimeParts value with
  | .error err => .error err
  | .ok (_, canonical) => .ok canonical

/-- `RFC3339NanoTimestamp.parsed`. -/
def RFC3339NanoTimestamp.parsed (wire : Bytes) : Except Bytes DateTime := parseGoDatetimeInput wire (ascii "timestamp")

/-! ## `types.py`, `errors.py` -/

/-- `RFC3339NanoTimestamp | datetime`. -/
inductive Observed where
  | nano (wire : Bytes)
  | datetime (d : DateTime)

structure StepDefaults where
  executeMethodTimeout : Int
  heartbeatTimeout     : Int
  executeDurability    : Int
  executeRetry         : Option RetryPolicy

/-- A `QueryDefinition` or a `MutationDefinition`. -/
structure Definition where
  operation    : OperationRef
  branches     : Option (List BranchDefinition)
  stepDefaults : StepDefaults

inductive FailureKind where
  | validation | authentication | authorization | notFound | conflict | rateLimit | quotaExhausted | availability
  | providerRejection | transport | responseTooLarge | protocol | localDefect
  deriving DecidableEq

structure Failure where
  kind      : FailureKind
  provider  : Bytes
  operation : Bytes
  message   : Bytes
  deriving DecidableEq

structure Receipt where
  callID            : Bytes
  provider          : Bytes
  observedAt        : Observed
  idempotencyKey    : Bytes
  providerObjectID  : Bytes
  providerRequestID : Bytes
  metadata          : List (Bytes × Bytes)

structure Call where
  id             : Bytes
  connection     : ConnectionRef
  operation      : OperationRef
  idempotencyKey : Bytes

/-- A `QueryResult` or a `MutationResult`. -/
structure Result (V : Type) where
  branch  : Bytes
  value   : Option V
  receipt : Receipt
  failure : Option Failure

inductive Kind where
  | branch
  | retry
  | uncertain
  deriving DecidableEq

/-- The fields of an attempt; a delay that is not finite is none. -/
structure Attempt (V : Type) where
  kind              : Kind
  branch            : Bytes
  value             : Option V
  receipt           : Option Receipt
  failure           : Option Failure
  retryAfterSeconds : Option Rat

def uncertainBranchID : Bytes := ascii "uncertain"

def defectBranchID : Bytes := ascii "defect"

def Failure.isValid (f : Failure) : Bool := f.provider != [] && f.operation != [] && f.message != []

/-- `validate` of a failure, where there is one. -/
def isValidFailure (failure : Option Failure) : Bool := failure.all Failure.isValid

def hasRetryShape (a : Attempt V) : Bool :=
  a.failure.isSome && a.retryAfterSeconds.any (fun s => 0 ≤ s) && a.branch == [] && a.receipt.isNone && a.value.isNone

/-- `QueryAttempt.__post_init__`. -/
def isQueryAttempt (a : Attempt V) : Bool :=
  (match a.kind with
    | .retry => hasRetryShape a
    | .branch =>
      a.branch != [] && a.branch != uncertainBranchID && a.receipt.isSome && a.retryAfterSeconds == some 0
    | .uncertain => false) &&
  isValidFailure a.failure

/-- `MutationAttempt.__post_init__`. -/
def isMutationAttempt (a : Attempt V) : Bool :=
  (match a.kind with
    | .retry => hasRetryShape a
    | .branch =>
      a.branch != [] && a.receipt.isSome && a.retryAfterSeconds == some 0 && a.branch != uncertainBranchID
    | .uncertain =>
      a.branch != [] && a.receipt.isSome && a.retryAfterSeconds == some 0 && a.branch == uncertainBranchID &&
        a.failure.isSome) &&
  isValidFailure a.failure

structure QueryAttempt (V : Type) extends Attempt V where
  checked : isQueryAttempt toAttempt = true

structure MutationAttempt (V : Type) extends Attempt V where
  checked : isMutationAttempt toAttempt = true

/-- `QueryResult.__post_init__`. -/
def isQueryResult (r : Result V) : Bool := r.branch != [] && r.branch != uncertainBranchID && isValidFailure r.failure

/-- `MutationResult.__post_init__`. -/
def isMutationResult (r : Result V) : Bool :=
  r.branch != [] && !(r.branch == uncertainBranchID && r.failure.isNone) && isValidFailure r.failure

/-! ## Validation -/

/-- What `str.strip` removes at the ends. -/
def pythonSpace : List Bytes := whiteSpace ++ [[0x1C], [0x1D], [0x1E], [0x1F]]

/-- `not text.strip()`; the number bounds the characters gone past. -/
def isBlankFrom : Nat → Bytes → Bool
  | 0, bs => bs == []
  | n + 1, bs =>
    bs == [] ||
      match pythonSpace.find? (fun space => space.isPrefixOf bs) with
      | some space => isBlankFrom n (bs.drop space.length)
      | none => false

def isBlank (text : Bytes) : Bool := isBlankFrom text.length text

def validateConnection (ref : ConnectionRef) : Except Bytes Unit :=
  if isBlank ref.provider || isBlank ref.name then .error (ascii "connection provider and name are required") else .ok ()

def validateOperation (ref : OperationRef) : Except Bytes Unit :=
  if !connectorIDPattern ref.connectorID then .error (ascii "connector ID must be DNS-like and 2-63 characters")
  else if !operationIDPattern ref.operationID then .error (ascii "operation ID must be lower camel case")
  else .ok ()

def validateStepDefaults (defaults : StepDefaults) : Except Bytes Unit :=
  if defaults.executeMethodTimeout < 0 ∨ defaults.heartbeatTimeout < 0 then
    .error (ascii "Step timeouts cannot be negative")
  else if defaults.executeDurability ∉ [0, 1, 2] then .error (ascii "Step Execute durability is invalid")
  else
    match defaults.executeRetry with
    | none => .ok ()
    | some retry =>
      if retry.initialInterval < 0 ∨ retry.maximumInterval < 0 ∨ retry.totalDuration < 0 ∨ retry.isBackoffNegative ∨
          retry.maximumAttempts < 0 then
        .error (ascii "invalid connector retry policy")
      else .ok ()

/-- The routes of a definition; where there are none, nothing of them is checked. -/
def validateBranches (refused : List Bytes → Bool) (message : Bytes) (branches : List BranchDefinition) :
    Except Bytes Unit :=
  if branches = [] then .ok ()
  else if !(branches.map (·.id)).Nodup ∨ defectBranchID ∉ branches.map (·.id) ∨ refused (branches.map (·.id)) then
    .error message
  else if branches.any (fun b => !operationIDPattern b.id || isBlank b.description) then
    .error (ascii "invalid branch identity or description")
  else .ok ()

def Definition.validate (refused : List Bytes → Bool) (message : Bytes) (definition : Definition) : Except Bytes Unit :=
  match validateOperation definition.operation with
  | .error err => .error err
  | .ok _ =>
    match validateBranches refused message (definition.branches.getD []) with
    | .error err => .error err
    | .ok _ => validateStepDefaults definition.stepDefaults

/-- `QueryDefinition.validate`. -/
def validateQuery : Definition → Except Bytes Unit :=
  Definition.validate (fun ids => ids.contains uncertainBranchID) (ascii "invalid Query branches")

/-- `MutationDefinition.validate`. -/
def validateMutation : Definition → Except Bytes Unit :=
  Definition.validate (fun _ => false) (ascii "invalid Mutation branches")

/-- `attempt.branch in {branch.id for branch in definition.branches or ()}`. -/
def Definition.hasBranch (definition : Definition) (branch : Bytes) : Bool :=
  ((definition.branches.getD []).map (·.id)).contains branch

/-! ## `operations.py` -/

/-- `UUID(text)` and `datetime.now(UTC)`. -/
structure Runtime where
  isUUID : Bytes → Bool
  now    : DateTime

inductive Exception where
  | retry (failure : Failure) (seconds : Rat)
  | valueError
  | other

/-- What awaiting `invoke` gives: an attempt, another object, or an exception. -/
inductive Invoked (A : Type) where
  | attempt (a : A)
  | foreign
  | valueError
  | raised

structure Query (In V : Type) where
  definition : Definition
  invoke     : Call → In → Invoked (QueryAttempt V)

structure Mutation (In V : Type) where
  definition     : Definition
  idempotencyKey : Bytes → In → Bytes
  invoke         : Call → In → Invoked (MutationAttempt V)

def validateCall (rt : Runtime) (call : Call) (operation : OperationRef) : Except Bytes Unit :=
  if !rt.isUUID call.id then .error (ascii "call ID must be a UUID")
  else
    match validateConnection call.connection with
    | .error err => .error err
    | .ok _ =>
      if call.operation ≠ operation then .error (ascii "call operation does not match the definition") else .ok ()

/-- The test of `_complete_receipt` for Go's zero time. -/
def isZeroTime : Observed → Except Bytes Bool
  | .datetime d => .ok (d.instant == 0)
  | .nano wire =>
    match RFC3339NanoTimestamp.parsed wire with
    | .error err => .error err
    | .ok d => .ok (d.instant == 0)

def completeReceipt (rt : Runtime) (receipt : Option Receipt) (call : Call) : Except Bytes Receipt :=
  match receipt with
  | none => .error (ascii "operation returned no receipt")
  | some receipt =>
    if receipt.callID ≠ [] ∧ receipt.callID ≠ call.id then .error (ascii "operation returned a receipt for another call")
    else if receipt.idempotencyKey ≠ [] ∧ receipt.idempotencyKey ≠ call.idempotencyKey then
      .error (ascii "operation returned a receipt with another idempotency key")
    else
      match isZeroTime receipt.observedAt with
      | .error err => .error err
      | .ok isZero =>
        .ok { receipt with
          callID := call.id
          provider := if receipt.provider = [] then call.operation.connectorID else receipt.provider
          idempotencyKey := call.idempotencyKey
          observedAt := if isZero then .datetime rt.now else receipt.observedAt }

def raiseRetry (failure : Option Failure) (seconds : Option Rat) : Exception :=
  match failure, seconds with
  | some failure, some seconds => if failure.isValid && 0 ≤ seconds then .retry failure seconds else .valueError
  | _, _ => .valueError

/-- `_query_defect`, `_mutation_defect`. -/
def defect (rt : Runtime) (call : Call) (message : Bytes) : Result V :=
  ⟨defectBranchID, none, ⟨call.id, call.operation.connectorID, .datetime rt.now, call.idempotencyKey, [], [], []⟩,
    some ⟨.localDefect, call.operation.connectorID, call.operation.operationID, message⟩⟩

/-- A result, or the exception of its constructor. -/
def constructed (isValid : Result V → Bool) (result : Result V) : Except Exception (Result V) :=
  if isValid result then .ok result else .error .valueError

/-- `run_query`. -/
def runQuery (rt : Runtime) (operation : Query In V) (call : Call) (input : In) : Except Exception (Result V) :=
  match validateQuery operation.definition with
  | .error err => constructed isQueryResult (defect rt call err)
  | .ok _ =>
    match validateCall rt call operation.definition.operation with
    | .error err => constructed isQueryResult (defect rt call err)
    | .ok _ =>
      match operation.invoke call input with
      | .raised => .error .other
      | .valueError | .foreign => constructed isQueryResult (defect rt call (ascii "query returned an invalid attempt"))
      | .attempt attempt =>
        if attempt.kind = .retry then .error (raiseRetry attempt.failure attempt.retryAfterSeconds)
        else if !operation.definition.hasBranch attempt.branch then
          constructed isQueryResult (defect rt call (ascii "query returned an unknown branch"))
        else
          match completeReceipt rt attempt.receipt call with
          | .error err => constructed isQueryResult (defect rt call err)
          | .ok receipt => constructed isQueryResult ⟨attempt.branch, attempt.value, receipt, attempt.failure⟩

/-- The call of a mutation, with its idempotency key. -/
def withKey (operation : Mutation In V) (call : Call) (input : In) : Call :=
  { call with
    idempotencyKey :=
      if operation.idempotencyKey call.id input = [] then call.id else operation.idempotencyKey call.id input }

/-- `run_mutation`. -/
def runMutation (rt : Runtime) (operation : Mutation In V) (call : Call) (input : In) : Except Exception (Result V) :=
  match validateMutation operation.definition with
  | .error err => constructed isMutationResult (defect rt call err)
  | .ok _ =>
    match validateCall rt call operation.definition.operation with
    | .error err => constructed isMutationResult (defect rt call err)
    | .ok _ =>
      if isBlank (withKey operation call input).idempotencyKey then
        constructed isMutationResult (defect rt call (ascii "mutation returned an invalid idempotency key"))
      else
        let call := withKey operation call input
        match operation.invoke call input with
        | .raised => .error .other
        | .valueError | .foreign =>
          constructed isMutationResult (defect rt call (ascii "mutation returned an invalid attempt"))
        | .attempt attempt =>
          if attempt.kind = .retry then .error (raiseRetry attempt.failure attempt.retryAfterSeconds)
          else if !operation.definition.hasBranch attempt.branch then
            constructed isMutationResult (defect rt call (ascii "mutation returned an unknown branch"))
          else if attempt.kind = .uncertain ∧ attempt.branch ≠ uncertainBranchID then
            constructed isMutationResult (defect rt call (ascii "mutation returned invalid uncertainty"))
          else
            match completeReceipt rt attempt.receipt call with
            | .error err => constructed isMutationResult (defect rt call err)
            | .ok receipt => constructed isMutationResult ⟨attempt.branch, attempt.value, receipt, attempt.failure⟩

/-! ## Observation times -/

/-- The seconds from the start of year one that the written date and time are, as a clock in UTC would show them. -/
def fieldSeconds (f : Fields) : Int :=
  86400 * dayNumber f.year.val f.month.val f.day.val + 3600 * f.hour.val + 60 * f.minute.val + f.second.val

/-- **Go's zero time**: the moment is the start of year one. -/
def Observed.IsGoZero : Observed → Prop
  | .datetime d => d.instant = 0
  | .nano wire => ∃ f, parse wire = some f ∧ fieldSeconds f = 60 * f.zone.minutes ∧ ∀ d ∈ f.fraction, d = 0

/-- A `datetime`, or what `RFC3339NanoTimestamp.from_wire` returned. -/
def Observed.Obtained : Observed → Prop
  | .datetime _ => True
  | .nano wire => ∃ value, RFC3339NanoTimestamp.fromWire value = .ok wire

/-- **The observation times that a `datetime` can hold**: a year from one on, six digits of a fraction, less than a day of
offset with less than an hour of minutes. -/
def Observed.Representable : Observed → Prop
  | .datetime _ => True
  | .nano wire => ∀ f, parse wire = some f → f.year ≠ 0 ∧ (∀ d ∈ f.fraction.drop 6, d = 0) ∧ isShortZone f.zone = true

theorem canonicalZone_canonicalZone (z : Zone) : canonicalZone (canonicalZone z) = canonicalZone z := by
  cases z with
  | utc => rfl
  | east hours minutes =>
    by_cases h : hours = 0 ∧ minutes = 0
    · simp only [canonicalZone, if_pos h]
    · simp only [canonicalZone, if_neg h]
  | west hours minutes =>
    by_cases h : hours = 0 ∧ minutes = 0
    · simp only [canonicalZone, if_pos h]
    · simp only [canonicalZone, if_neg h]

theorem hasValidZone_canonicalZone {z : Zone} (h : hasValidZone z = true) : hasValidZone (canonicalZone z) = true := by
  cases z with
  | utc => rfl
  | east hours minutes =>
    by_cases hz : hours = 0 ∧ minutes = 0
    · simp only [canonicalZone, if_pos hz, hasValidZone]
    · simpa only [canonicalZone, if_neg hz] using h
  | west hours minutes =>
    by_cases hz : hours = 0 ∧ minutes = 0
    · simp only [canonicalZone, if_pos hz, hasValidZone]
    · simpa only [canonicalZone, if_neg hz] using h

theorem canonicalOf_canonicalOf (f : Fields) : canonicalOf (canonicalOf f) = canonicalOf f := by
  simp only [canonicalOf, canonicalZone_canonicalZone, List.rdropWhile_idempotent (fun d : Fin 10 => d == 0) f.fraction]

/-- **What `from_wire` returned reads back as it was written**, with a date, a clock time and an offset that were checked. -/
theorem goTimeParts_fromWire {value wire : Bytes} (h : RFC3339NanoTimestamp.fromWire value = .ok wire) :
    ∃ f, parse wire = some f ∧ hasValidDate f = true ∧ hasValidClock f = true ∧ goTimeParts wire = .ok (f, wire) := by
  unfold RFC3339NanoTimestamp.fromWire goTimeParts at h
  cases hp : parse value with
  | none => rw [hp] at h; cases h
  | some f =>
    rw [hp] at h
    dsimp only at h
    by_cases hd : hasValidDate f = true
    · rw [hd] at h
      by_cases hc : hasValidClock f = true
      · rw [hc] at h
        by_cases hz : hasValidZone f.zone = true
        · rw [hz] at h
          cases h
          have hwire : parse (canonicalOf f).text = some (canonicalOf f) := parse_text _
          refine ⟨canonicalOf f, hwire, hd, hc, ?_⟩
          have hd' : hasValidDate (canonicalOf f) = true := hd
          have hc' : hasValidClock (canonicalOf f) = true := hc
          have hz' : hasValidZone (canonicalOf f).zone = true := hasValidZone_canonicalZone hz
          unfold goTimeParts
          rw [hwire]
          dsimp only
          rw [hd', hc', hz', canonicalOf_canonicalOf]
          rfl
        · rw [Bool.eq_false_iff.2 hz] at h
          cases h
      · rw [Bool.eq_false_iff.2 hc] at h
        cases h
    · rw [Bool.eq_false_iff.2 hd] at h
      cases h

theorem microOf_lt (fraction : List (Fin 10)) : microOf fraction < 1000000 := by
  have hdigits : ∀ d ∈ Rfc3339.padded 6 (fraction.map (·.val)), d < 10 := by
    intro d hd
    rcases List.mem_append.1 (List.mem_of_mem_take hd) with hd | hd
    · obtain ⟨x, -, rfl⟩ := List.mem_map.1 hd
      exact x.isLt
    · rw [(List.mem_replicate.1 hd).2]
      decide
  have h := Rfc3339.value_lt hdigits
  rw [Rfc3339.length_padded] at h
  exact h

theorem microOf_eq_zero {fraction : List (Fin 10)} (h : ∀ d ∈ fraction.drop 6, d = 0) :
    microOf fraction = 0 ↔ ∀ d ∈ fraction, d = 0 := by
  have hpad := @Rfc3339.mem_drop_padded 0 6 (fraction.map (·.val))
  simp only [List.drop_zero] at hpad
  rw [microOf, Rfc3339.value_eq_zero, hpad]
  constructor
  · intro hall d hd
    rw [← List.take_append_drop 6 fraction] at hd
    rcases List.mem_append.1 hd with hd | hd
    · refine Fin.ext (hall d.val ?_)
      rw [← List.map_take]
      exact List.mem_map_of_mem hd
    · exact h d hd
  · intro hall d hd
    obtain ⟨x, hx, rfl⟩ := List.mem_map.1 (List.mem_of_mem_take hd)
    rw [hall x hx]
    rfl

/-- Only the dates of year zero are valid and not dates of Python. -/
theorem isPythonDate_of_valid {f : Fields} (h : hasValidDate f = true) (hy : f.year ≠ 0) : isPythonDate f = true := by
  rw [hasValidDate, Bool.or_eq_true] at h
  rcases h with h | h
  · exact h
  · simp only [Bool.and_eq_true, beq_iff_eq] at h
    exact absurd h.1.1.1.1.1 hy

/-- **`parsed` of a timestamp from the wire**: a `datetime` of the same moment, or a `ValueError`. -/
theorem isZeroTime_nano {value wire : Bytes} (h : RFC3339NanoTimestamp.fromWire value = .ok wire) :
    ((Observed.nano wire).Representable ∧ ∃ isZero, isZeroTime (.nano wire) = .ok isZero ∧
      (isZero = true ↔ (Observed.nano wire).IsGoZero)) ∨
    ¬ (Observed.nano wire).Representable ∧ ∃ err, isZeroTime (.nano wire) = .error err := by
  obtain ⟨f, hf, hd, hc, hparts⟩ := goTimeParts_fromWire h
  have hrep : (Observed.nano wire).Representable ↔
      f.year ≠ 0 ∧ (∀ d ∈ f.fraction.drop 6, d = 0) ∧ isShortZone f.zone = true := by
    refine ⟨fun hr => hr f hf, fun hr g hg => ?_⟩
    rw [hf] at hg
    cases hg
    exact hr
  rw [hrep]
  dsimp only [isZeroTime, RFC3339NanoTimestamp.parsed, parseGoDatetimeInput]
  rw [hparts]
  dsimp only
  by_cases hfirst : f.year = 0 ∨ (f.fraction.drop 6).any (· != 0) = true
  · rw [if_pos hfirst]
    refine .inr ⟨fun hr => ?_, _, rfl⟩
    rcases hfirst with hy | hany
    · exact hr.1 hy
    · obtain ⟨d, hmem, hne⟩ := List.any_eq_true.1 hany
      exact absurd (hr.2.1 d hmem) (bne_iff_ne.1 hne)
  · rw [if_neg hfirst]
    by_cases hz : isShortZone f.zone = true
    · have hy : f.year ≠ 0 := fun hy => hfirst (.inl hy)
      have hsix : ∀ d ∈ f.fraction.drop 6, d = 0 := by
        intro d hmem
        by_contra hne
        exact hfirst (.inr (List.any_eq_true.2 ⟨d, hmem, bne_iff_ne.2 hne⟩))
      have hpython := isPythonDate_of_valid hd hy
      rw [isPythonDate, Bool.and_eq_true, decide_eq_true_eq] at hpython
      rw [hz]
      unfold fromisoformat
      rw [hf]
      dsimp only
      rw [dif_pos ⟨hpython, hc, hz⟩]
      refine .inl ⟨⟨hy, hsix, rfl⟩, _, rfl, ?_⟩
      have hmicro := microOf_lt f.fraction
      rw [beq_iff_eq]
      show fieldSeconds f * 1000000 + (microOf f.fraction : Int) - f.zone.minutes * 60000000 = 0 ↔ _
      constructor
      · intro hzero
        exact ⟨f, hf, by omega, (microOf_eq_zero hsix).1 (by omega)⟩
      · rintro ⟨g, hg, hseconds, hall⟩
        rw [hf] at hg
        cases hg
        rw [(microOf_eq_zero hsix).2 hall]
        omega
    · rw [Bool.eq_false_iff.2 hz]
      exact .inr ⟨fun hr => (by cases hr.2.2), _, rfl⟩

theorem isZeroTime_spec {o : Observed} (h : o.Obtained) :
    (o.Representable ∧ ∃ isZero, isZeroTime o = .ok isZero ∧ (isZero = true ↔ o.IsGoZero)) ∨
    ¬ o.Representable ∧ ∃ err, isZeroTime o = .error err := by
  cases o with
  | datetime d => exact .inl ⟨trivial, _, rfl, beq_iff_eq⟩
  | nano wire =>
    obtain ⟨value, hvalue⟩ := h
    exact isZeroTime_nano hvalue

/-! ## Definite outcomes -/

/-- A receipt that belongs to a call: its id and its key are absent or those of the call. -/
structure Receipt.Fits (receipt : Receipt) (call : Call) : Prop where
  id       : receipt.callID = [] ∨ receipt.callID = call.id
  key      : receipt.idempotencyKey = [] ∨ receipt.idempotencyKey = call.idempotencyKey
  obtained : receipt.observedAt.Obtained

/-- **The outcome of the attempt came back**: its branch, value and failure, for the call, with the moment it was observed, or
the current time in place of Go's zero time. -/
def Meets (rt : Runtime) (call : Call) (attempt : Attempt V) (receipt : Receipt) (ran : Except Exception (Result V)) : Prop :=
  ∃ result, ran = .ok result ∧ result.branch = attempt.branch ∧ result.value = attempt.value ∧
    result.failure = attempt.failure ∧ result.receipt.callID = call.id ∧
    result.receipt.idempotencyKey = call.idempotencyKey ∧
    (receipt.observedAt.IsGoZero → result.receipt.observedAt = .datetime rt.now) ∧
    (¬ receipt.observedAt.IsGoZero → result.receipt.observedAt = receipt.observedAt)

theorem not_meets_defect {rt : Runtime} {call : Call} {attempt : Attempt V} {receipt : Receipt} {message : Bytes}
    {isValid : Result V → Bool} {before : Call} (hb : attempt.branch ≠ defectBranchID) :
    ¬ Meets rt call attempt receipt (constructed isValid (defect rt before message)) := by
  rintro ⟨result, hran, hbranch, -⟩
  unfold constructed at hran
  split at hran
  · cases hran
    exact hb hbranch.symm
  · cases hran

/-- **What the end of a run makes of an attempt whose receipt fits.** -/
theorem meets_complete {rt : Runtime} {call : Call} {attempt : Attempt V} {receipt : Receipt} {isValid : Result V → Bool}
    (hreceipt : attempt.receipt = some receipt) (hfits : receipt.Fits call)
    (hvalid : ∀ r : Receipt, isValid ⟨attempt.branch, attempt.value, r, attempt.failure⟩ = true) :
    (receipt.observedAt.Representable → Meets rt call attempt receipt
      (match completeReceipt rt attempt.receipt call with
      | .error err => constructed isValid (defect rt call err)
      | .ok receipt => constructed isValid ⟨attempt.branch, attempt.value, receipt, attempt.failure⟩)) ∧
    (attempt.branch ≠ defectBranchID → Meets rt call attempt receipt
      (match completeReceipt rt attempt.receipt call with
      | .error err => constructed isValid (defect rt call err)
      | .ok receipt => constructed isValid ⟨attempt.branch, attempt.value, receipt, attempt.failure⟩) →
        receipt.observedAt.Representable) := by
  have hid : ¬ (receipt.callID ≠ [] ∧ receipt.callID ≠ call.id) := fun h => hfits.id.elim h.1 h.2
  have hkey : ¬ (receipt.idempotencyKey ≠ [] ∧ receipt.idempotencyKey ≠ call.idempotencyKey) :=
    fun h => hfits.key.elim h.1 h.2
  unfold completeReceipt
  rw [hreceipt]
  dsimp only
  rw [if_neg hid, if_neg hkey]
  rcases isZeroTime_spec hfits.obtained with ⟨hrep, isZero, hzero, hiff⟩ | ⟨hrep, err, herr⟩
  · refine ⟨fun _ => ?_, fun _ _ => hrep⟩
    rw [hzero]
    dsimp only
    unfold constructed
    rw [if_pos (hvalid _)]
    refine ⟨_, rfl, rfl, rfl, rfl, rfl, rfl, fun hg => ?_, fun hg => ?_⟩
    · exact if_pos (hiff.2 hg)
    · exact if_neg (fun ht => hg (hiff.1 ht))
  · refine ⟨fun h => absurd h hrep, fun hb hm => ?_⟩
    rw [herr] at hm
    exact absurd hm (not_meets_defect hb)

/-- A declared branch has a name. -/
theorem ne_nil_of_hasBranch {refused : List Bytes → Bool} {message : Bytes} {d : Definition} {branch : Bytes}
    (hv : Definition.validate refused message d = .ok ()) (hb : d.hasBranch branch = true) : branch ≠ [] := by
  rintro rfl
  unfold Definition.hasBranch at hb
  obtain ⟨b, hmem, hid⟩ := List.mem_map.1 (List.contains_iff_mem.1 hb)
  unfold Definition.validate validateBranches at hv
  split at hv
  · cases hv
  · by_cases hne : d.branches.getD [] = []
    · rw [hne] at hmem
      cases hmem
    · rw [if_neg hne] at hv
      split at hv
      · cases hv
      next hok =>
        split at hok
        · cases hok
        · split at hok
          · cases hok
          next hall =>
            refine hall (List.any_eq_true.2 ⟨b, hmem, ?_⟩)
            rw [hid]
            rfl

theorem isQueryResult_of_attempt {a : QueryAttempt V} (hb : a.branch ≠ []) (r : Receipt) :
    a.kind ≠ .retry ∧ isQueryResult ⟨a.branch, a.value, r, a.failure⟩ = true := by
  have hc := a.checked
  unfold isQueryAttempt at hc
  rw [Bool.and_eq_true] at hc
  obtain ⟨hshape, hfailure⟩ := hc
  cases hk : a.kind with
  | retry =>
    rw [hk] at hshape
    simp only [hasRetryShape, Bool.and_eq_true, beq_iff_eq] at hshape
    exact absurd hshape.1.1.2 hb
  | branch =>
    rw [hk] at hshape
    simp only [Bool.and_eq_true, bne_iff_ne] at hshape
    refine ⟨by decide, ?_⟩
    simp only [isQueryResult, Bool.and_eq_true, bne_iff_ne]
    exact ⟨⟨hb, hshape.1.1.2⟩, hfailure⟩
  | uncertain =>
    rw [hk] at hshape
    cases hshape

theorem isMutationResult_of_attempt {a : MutationAttempt V} (hb : a.branch ≠ []) (r : Receipt) :
    a.kind ≠ .retry ∧ ¬ (a.kind = .uncertain ∧ a.branch ≠ uncertainBranchID) ∧
      isMutationResult ⟨a.branch, a.value, r, a.failure⟩ = true := by
  have hc := a.checked
  unfold isMutationAttempt at hc
  rw [Bool.and_eq_true] at hc
  obtain ⟨hshape, hfailure⟩ := hc
  cases hk : a.kind with
  | retry =>
    rw [hk] at hshape
    simp only [hasRetryShape, Bool.and_eq_true, beq_iff_eq] at hshape
    exact absurd hshape.1.1.2 hb
  | branch =>
    rw [hk] at hshape
    simp only [Bool.and_eq_true, bne_iff_ne] at hshape
    refine ⟨by decide, fun h => (by cases h.1), ?_⟩
    simp only [isMutationResult, Bool.and_eq_true, bne_iff_ne]
    refine ⟨⟨hb, ?_⟩, hfailure⟩
    rw [beq_eq_false_iff_ne.2 hshape.2]
    rfl
  | uncertain =>
    rw [hk] at hshape
    simp only [Bool.and_eq_true, beq_iff_eq] at hshape
    refine ⟨by decide, fun h => h.2 hshape.1.2, ?_⟩
    simp only [isMutationResult, Bool.and_eq_true, bne_iff_ne]
    refine ⟨⟨hb, ?_⟩, hfailure⟩
    obtain ⟨failure, hf⟩ := Option.isSome_iff_exists.1 hshape.2
    rw [hf]
    simp

/-- **When a definite outcome comes back.**  For a valid definition, a valid call and an attempt on a declared branch whose
receipt fits the call: the outcome comes back where a `datetime` can hold the time it was observed, and otherwise a defect
takes its place. -/
theorem definite_outcome_iff (rt : Runtime) (call : Call) (input : In) :
    (∀ (operation : Query In V) (attempt : QueryAttempt V) (receipt : Receipt),
      validateQuery operation.definition = .ok () → validateCall rt call operation.definition.operation = .ok () →
      operation.invoke call input = .attempt attempt → operation.definition.hasBranch attempt.branch = true →
      attempt.receipt = some receipt → receipt.Fits call →
      (receipt.observedAt.Representable → Meets rt call attempt.toAttempt receipt (runQuery rt operation call input)) ∧
      (attempt.branch ≠ defectBranchID → Meets rt call attempt.toAttempt receipt (runQuery rt operation call input) →
        receipt.observedAt.Representable)) ∧
    (∀ (operation : Mutation In V) (attempt : MutationAttempt V) (receipt : Receipt),
      validateMutation operation.definition = .ok () → validateCall rt call operation.definition.operation = .ok () →
      isBlank (withKey operation call input).idempotencyKey = false →
      operation.invoke (withKey operation call input) input = .attempt attempt →
      operation.definition.hasBranch attempt.branch = true →
      attempt.receipt = some receipt → receipt.Fits (withKey operation call input) →
      (receipt.observedAt.Representable →
        Meets rt (withKey operation call input) attempt.toAttempt receipt (runMutation rt operation call input)) ∧
      (attempt.branch ≠ defectBranchID →
        Meets rt (withKey operation call input) attempt.toAttempt receipt (runMutation rt operation call input) →
        receipt.observedAt.Representable)) := by
  refine ⟨fun operation attempt receipt hv hc hi hb hr hf => ?_, fun operation attempt receipt hv hc hk hi hb hr hf => ?_⟩
  · have hne := ne_nil_of_hasBranch hv hb
    have hresult := fun r => isQueryResult_of_attempt (a := attempt) hne r
    unfold runQuery
    rw [hv, hc, hi]
    dsimp only
    rw [if_neg (hresult receipt).1, hb]
    exact meets_complete hr hf (fun r => (hresult r).2)
  · have hne := ne_nil_of_hasBranch hv hb
    have hresult := fun r => isMutationResult_of_attempt (a := attempt) hne r
    unfold runMutation
    rw [hv, hc, hk]
    dsimp only
    rw [hi]
    dsimp only
    rw [if_neg Bool.false_ne_true, if_neg (hresult receipt).1, hb, Bool.not_true, if_neg Bool.false_ne_true,
      if_neg (hresult receipt).2.1]
    exact meets_complete hr hf (fun r => (hresult r).2.2)

/-! ### A receipt observed at a nanosecond -/

theorem isClock_sampleNow : isClock 3 4 6 = true := by decide

theorem inRange_sampleNow : 1 ≤ (2026 : Int) ∧ (2026 : Int) ≤ 9999 := by decide

def sampleRuntime : Runtime :=
  ⟨fun id => id.length == 36, ⟨⟨2026, 1, 2, 3, 4, 6, Operation.isDate_sample, isClock_sampleNow⟩, 0, 0, inRange_sampleNow⟩⟩

def sampleCall : Call := ⟨ascii "6ba7b810-9dad-11d1-80b4-00c04fd430c8", ⟨ascii "gmail", ascii "work"⟩, ⟨ascii "gmail", ascii "send"⟩, []⟩

def sampleDefinition : Definition :=
  ⟨⟨ascii "gmail", ascii "send"⟩, some [⟨ascii "sent", ascii "The message was sent.", false⟩,
    ⟨defectBranchID, ascii "The connector failed.", true⟩], ⟨0, 0, 0, none⟩⟩

def sampleReceipt (observedAt : Bytes) : Receipt := ⟨[], [], .nano observedAt, [], ascii "message-1", [], []⟩

def sampleAttempt (observedAt : Bytes) : MutationAttempt Nat :=
  ⟨⟨.branch, ascii "sent", some 7, some (sampleReceipt observedAt), none, some 0⟩, rfl⟩

def sampleMutation (observedAt : Bytes) : Mutation Unit Nat :=
  ⟨sampleDefinition, fun id _ => id, fun _ _ => .attempt (sampleAttempt observedAt)⟩

/-- A message that was sent, with an observation time of Go's precision: the run reports a defect. -/
theorem nanosecond_outcome_lost :
    validateMutation sampleDefinition = .ok () ∧ validateCall sampleRuntime sampleCall sampleDefinition.operation = .ok () ∧
      sampleDefinition.hasBranch (ascii "sent") = true ∧
      (sampleReceipt (ascii "2026-01-02T03:04:05.123456789Z")).Fits
        (withKey (sampleMutation (ascii "2026-01-02T03:04:05.123456789Z")) sampleCall ()) ∧
      ¬ Meets sampleRuntime (withKey (sampleMutation (ascii "2026-01-02T03:04:05.123456789Z")) sampleCall ())
        (sampleAttempt (ascii "2026-01-02T03:04:05.123456789Z")).toAttempt
        (sampleReceipt (ascii "2026-01-02T03:04:05.123456789Z"))
        (runMutation sampleRuntime (sampleMutation (ascii "2026-01-02T03:04:05.123456789Z")) sampleCall ()) := by
  refine ⟨rfl, rfl, rfl, ⟨.inl rfl, .inl rfl, ascii "2026-01-02T03:04:05.123456789Z", rfl⟩, ?_⟩
  rintro ⟨result, hran, hbranch, -⟩
  have hdefect : runMutation sampleRuntime (sampleMutation (ascii "2026-01-02T03:04:05.123456789Z")) sampleCall () =
      .ok (defect sampleRuntime (withKey (sampleMutation (ascii "2026-01-02T03:04:05.123456789Z")) sampleCall ())
        (ascii "timestamp: cannot be represented exactly as a Python datetime")) := rfl
  rw [hdefect] at hran
  cases hran
  exact absurd hbranch (by decide)

theorem microsecond_outcome_kept :
    Meets sampleRuntime (withKey (sampleMutation (ascii "2026-01-02T03:04:05.123456Z")) sampleCall ())
      (sampleAttempt (ascii "2026-01-02T03:04:05.123456Z")).toAttempt (sampleReceipt (ascii "2026-01-02T03:04:05.123456Z"))
      (runMutation sampleRuntime (sampleMutation (ascii "2026-01-02T03:04:05.123456Z")) sampleCall ()) := by
  refine ((definite_outcome_iff sampleRuntime sampleCall ()).2 (sampleMutation (ascii "2026-01-02T03:04:05.123456Z"))
    (sampleAttempt (ascii "2026-01-02T03:04:05.123456Z")) (sampleReceipt (ascii "2026-01-02T03:04:05.123456Z")) rfl rfl rfl rfl
    rfl rfl ⟨.inl rfl, .inl rfl, ascii "2026-01-02T03:04:05.123456Z", rfl⟩).1 ?_
  intro f hf
  cases hf
  decide

end OperationPython
end Dex
