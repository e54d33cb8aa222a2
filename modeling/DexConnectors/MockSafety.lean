import DexConnectors.MockReplay
/-!
# MockSafety — what a mock records is what the SDK makes of its answer

`effectiveBranch` predicts the branch of the result; a retry that the SDK refuses is the one outcome that the record and the memory
of a mock take for something else.
-/
namespace Dex
namespace Mock

open Lib Lib.Utf8 Operation

variable {In V Ty : Type} [Inhabited V] (rt : Runtime) (op : ScriptedOperation In V Ty)

/-! ## What the SDK concludes -/

def receiptOf (rt : Runtime) (call : Operation.Call) : Receipt :=
  { Receipt.empty with
    callID := call.id
    idempotencyKey := call.idempotencyKey
    provider := call.operation.connectorID
    observedAt := rt.now }

theorem completeReceipt_empty (rt : Runtime) (call : Operation.Call) :
    completeReceipt rt .empty call = .ok (receiptOf rt call) := by
  unfold completeReceipt
  rw [if_neg (fun h => h.1 rfl), if_neg (fun h => h.1 rfl)]
  by_cases hkey : call.idempotencyKey = []
  · rw [if_neg (not_not_intro hkey)]
    unfold receiptOf
    rw [hkey]
    rfl
  · rw [if_pos hkey]
    rfl

theorem failedForCall_eq (rt : Runtime) (definition : Definition) (call : Operation.Call) (message : Bytes) :
    (failedForCall rt definition call message : Except Stop (Result V)) =
      .ok { failed definition message with receipt := receiptOf rt call } := by
  unfold failedForCall mustCompleteEmptyReceipt
  rw [completeReceipt_empty]

def validFailure (failure : Failure) : Bool :=
  match failure.validate with
  | .ok _ => true
  | .error _ => false

theorem validFailure_iff {failure : Failure} : validFailure failure = true ↔ failure.validate = .ok () := by
  unfold validFailure
  cases failure.validate with
  | ok _ => exact ⟨fun _ => rfl, fun _ => rfl⟩
  | error _ => exact ⟨fun h => by (cases h), fun h => by (cases h)⟩

omit [Inhabited V] in
/-- The branch of the result, empty for a retry. -/
def ScriptedOperation.predicted : Outcome V → Bytes
  | .branch branch _ failure =>
    if op.declaredBranches branch && failure.all validFailure then branch else defectBranchID
  | .retry failure retryAfter => if validFailure failure && decide (0 ≤ retryAfter) then [] else defectBranchID
  | .uncertain _ failure =>
    if op.isMutation && op.declaredBranches uncertainBranchID && validFailure failure then uncertainBranchID else defectBranchID

def ScriptedOperation.word : Bytes := if op.isMutation then ascii "mutation" else ascii "query"

/-- The result of an outcome before the call and the clock are known. -/
def ScriptedOperation.concluded : Outcome V → Except Stop (Result V)
  | .branch branch value failure =>
    if !op.declaredBranches branch then .ok (failed op.definition (op.word ++ ascii " returned an unknown branch"))
    else
      match failure.map Failure.validate with
      | some (.error err) => .ok (failed op.definition (op.word ++ ascii " returned an invalid failure: " ++ err))
      | _ => .ok ⟨branch, value, .empty, failure⟩
  | .retry failure retryAfter =>
    if validFailure failure && decide (0 ≤ retryAfter) then .error (retryError failure retryAfter)
    else .ok (failed op.definition (op.word ++ ascii " returned an invalid retry attempt"))
  | .uncertain value failure =>
    if !op.isMutation then .ok (failed op.definition (ascii "query returned an unknown branch"))
    else if !op.declaredBranches uncertainBranchID then
      .ok (failed op.definition (ascii "mutation returned uncertainty without declaring the uncertain branch"))
    else
      match failure.validate with
      | .error err => .ok (failed op.definition (ascii "mutation returned an invalid uncertainty failure: " ++ err))
      | .ok _ => .ok ⟨uncertainBranchID, value, .empty, some failure⟩

/-- `RunQuery` and `RunMutation` go on only with a definition that is valid. -/
def ScriptedOperation.Valid : Prop :=
  (if op.isMutation then validateMutation rt.isPrint op.definition else validateQuery rt.isPrint op.definition) = .ok ()

section Valid

variable {rt op}

omit [Inhabited V] in
theorem ScriptedOperation.Valid.parts (h : op.Valid rt) :
    op.definition.operation.validate = .ok () ∧ op.declaredBranches defectBranchID = true ∧
      (op.isMutation = false → op.declaredBranches uncertainBranchID = false) := by
  unfold ScriptedOperation.Valid at h
  cases hkind : op.isMutation with
  | true =>
    rw [hkind] at h
    obtain ⟨hoperation, hdefect⟩ := validateMutation_ok h
    exact ⟨hoperation, hdefect, fun h => by cases h⟩
  | false =>
    rw [hkind] at h
    obtain ⟨hoperation, hdefect, huncertain⟩ := validateQuery_ok h
    exact ⟨hoperation, hdefect, fun _ => huncertain⟩

/-- The branch of an attempt, as the two functions of the SDK conclude it. -/
theorem conclude_branch {word : Bytes} (hword : word = op.word) (rt' : Runtime)
    (call : Operation.Call) (branch : Bytes) (value : V) (failure : Option Failure) :
    (if !hasBranch op.definition.branches branch then
        failedForCall rt' op.definition call (word ++ ascii " returned an unknown branch")
      else
        match if failure.isSome then (failure.getD ⟨[], [], [], []⟩).validate else .ok () with
        | .error err => failedForCall rt' op.definition call (word ++ ascii " returned an invalid failure: " ++ err)
        | .ok _ =>
          match completeReceipt rt' .empty call with
          | .error err => failedForCall rt' op.definition call err
          | .ok receipt =>
            .ok ⟨branch, value, receipt, if failure.isSome then some (failure.getD ⟨[], [], [], []⟩) else none⟩) =
      (op.concluded (.branch branch value failure)).map (fun result => { result with receipt := receiptOf rt' call }) := by
  have hdeclared : hasBranch op.definition.branches branch = op.declaredBranches branch := rfl
  unfold ScriptedOperation.concluded
  dsimp only
  rw [← hword, completeReceipt_empty, hdeclared]
  cases op.declaredBranches branch with
  | false => exact failedForCall_eq rt' _ call _
  | true =>
    cases failure with
    | none => rfl
    | some failure =>
      dsimp only [Option.isSome, Option.map, Option.getD]
      cases failure.validate with
      | error err => exact failedForCall_eq rt' _ call _
      | ok _ => rfl

theorem conclude_retry {word : Bytes} (hword : word = op.word) (rt' : Runtime)
    (call : Operation.Call) (failure : Failure) (retryAfter : Int) :
    (match failure.validate with
      | .error _ => failedForCall rt' op.definition call (word ++ ascii " returned an invalid retry attempt")
      | .ok _ =>
        if retryAfter < 0 then failedForCall rt' op.definition call (word ++ ascii " returned an invalid retry attempt")
        else .error (retryError failure retryAfter)) =
      (op.concluded (.retry failure retryAfter : Outcome V)).map (fun result => { result with receipt := receiptOf rt' call }) := by
  unfold ScriptedOperation.concluded validFailure
  dsimp only
  rw [← hword]
  cases failure.validate with
  | error _ => exact failedForCall_eq rt' _ call _
  | ok _ =>
    dsimp only
    by_cases hdelay : retryAfter < 0
    · rw [if_pos hdelay, decide_eq_false (by omega)]
      exact failedForCall_eq rt' _ call _
    · rw [if_neg hdelay, decide_eq_true (by omega)]
      rfl

theorem queryResult_eq (huncertain : op.declaredBranches uncertainBranchID = false) (hkind : op.isMutation = false) (rt' : Runtime)
    (call : Operation.Call) (outcome : Outcome V) :
    queryResult rt' call op.definition outcome.queryAttempt =
      (op.concluded outcome).map (fun result => { result with receipt := receiptOf rt' call }) := by
  have hword : ascii "query" = op.word := by unfold ScriptedOperation.word; rw [hkind]; rfl
  unfold queryResult
  cases outcome with
  | branch branch value failure => exact conclude_branch hword rt' call branch value failure
  | retry failure retryAfter => exact conclude_retry hword rt' call failure retryAfter
  | uncertain value failure =>
    refine (conclude_branch hword rt' call uncertainBranchID value (some failure)).trans ?_
    unfold ScriptedOperation.concluded
    dsimp only
    rw [huncertain, hkind, ← hword]
    rfl

theorem mutationResult_eq (hkind : op.isMutation = true) (rt' : Runtime) (call : Operation.Call) (outcome : Outcome V) :
    mutationResult rt' call op.definition outcome.mutationAttempt =
      (op.concluded outcome).map (fun result => { result with receipt := receiptOf rt' call }) := by
  have hword : ascii "mutation" = op.word := by unfold ScriptedOperation.word; rw [hkind]; rfl
  unfold mutationResult
  cases outcome with
  | branch branch value failure => exact conclude_branch hword rt' call branch value failure
  | retry failure retryAfter => exact conclude_retry hword rt' call failure retryAfter
  | uncertain value failure =>
    have hdeclared : hasBranch op.definition.branches uncertainBranchID = op.declaredBranches uncertainBranchID := rfl
    unfold ScriptedOperation.concluded
    dsimp only [Outcome.mutationAttempt]
    rw [hkind, hdeclared, completeReceipt_empty]
    cases op.declaredBranches uncertainBranchID with
    | false => exact failedForCall_eq rt' _ call _
    | true =>
      cases failure.validate with
      | error err => exact failedForCall_eq rt' _ call _
      | ok _ => rfl

/-- **The call and the clock show in the receipt alone.** -/
theorem sdkResult_eq (hvalid : op.Valid rt) (rt' : Runtime) (call : Operation.Call) (outcome : Outcome V) :
    op.sdkResult rt' call outcome = (op.concluded outcome).map (fun result => { result with receipt := receiptOf rt' call }) := by
  unfold ScriptedOperation.sdkResult
  cases hkind : op.isMutation with
  | true => exact mutationResult_eq hkind rt' call outcome
  | false => exact queryResult_eq (hvalid.parts.2.2 hkind) hkind rt' call outcome

/-- A second result of one outcome, for a call with the same identity. -/
theorem sameResult_sdkResult (hvalid : op.Valid rt) {rt₁ : Runtime} (rt₂ : Runtime) {first again : Operation.Call} (hid : first.id = again.id)
    (hkey : first.idempotencyKey = again.idempotencyKey) (hoperation : first.operation = again.operation) {outcome : Outcome V}
    {result : Result V} (h : op.sdkResult rt₁ first outcome = .ok result) :
    ∃ result', op.sdkResult rt₂ again outcome = .ok result' ∧ SameResult result result' := by
  rw [sdkResult_eq hvalid] at h
  rw [sdkResult_eq hvalid]
  cases hconcluded : op.concluded outcome with
  | error stop =>
    rw [hconcluded] at h
    cases h
  | ok concluded =>
    rw [hconcluded] at h
    obtain rfl := Except.ok.inj h
    refine ⟨_, rfl, ?_⟩
    unfold SameResult receiptOf
    rw [hid, hkey, hoperation]

/-! ## What the mock predicts -/

variable (op) in
theorem branchOf_concluded (outcome : Outcome V) : branchOf (op.concluded outcome) = op.predicted outcome := by
  unfold ScriptedOperation.concluded ScriptedOperation.predicted
  cases outcome with
  | branch branch value failure =>
    dsimp only
    cases op.declaredBranches branch with
    | false => rfl
    | true =>
      cases failure with
      | none => rfl
      | some failure =>
        unfold validFailure
        cases h : failure.validate <;> simp only [Option.all_some, Option.map_some, h] <;> rfl
  | retry failure retryAfter =>
    dsimp only
    cases validFailure failure && decide (0 ≤ retryAfter) <;> rfl
  | uncertain value failure =>
    dsimp only
    cases op.isMutation with
    | false => rfl
    | true =>
      cases op.declaredBranches uncertainBranchID with
      | false => rfl
      | true =>
        unfold validFailure
        cases failure.validate <;> rfl

omit [Inhabited V] in
theorem isRetryError_retryError (failure : Failure) (delay : Int) :
    IsRetryError (.error (retryError failure delay) : Except Stop (Result V)) := by
  unfold retryError
  split
  · exact ⟨failure, .inr ⟨delay, rfl⟩⟩
  · exact ⟨failure, .inl rfl⟩

omit [Inhabited V] in
theorem not_isRetryError_ok (result : Result V) : ¬ IsRetryError (.ok result) := by
  rintro ⟨failure, h | ⟨delay, h⟩⟩ <;> cases h

/-- A retry that the SDK returns as one. -/
def Outcome.Retries : Outcome V → Prop
  | .retry failure retryAfter => failure.validate = .ok () ∧ 0 ≤ retryAfter
  | _ => False

variable (op) in
theorem concluded_cases (outcome : Outcome V) :
    (outcome.Retries ∧ IsRetryError (op.concluded outcome)) ∨
      ¬ outcome.Retries ∧ ∃ result, op.concluded outcome = .ok result := by
  unfold ScriptedOperation.concluded
  cases outcome with
  | branch branch value failure =>
    refine .inr ⟨id, ?_⟩
    dsimp only
    split
    · exact ⟨_, rfl⟩
    · split <;> exact ⟨_, rfl⟩
  | retry failure retryAfter =>
    dsimp only
    by_cases h : failure.validate = .ok () ∧ 0 ≤ retryAfter
    · rw [validFailure_iff.2 h.1, decide_eq_true h.2]
      exact .inl ⟨h, isRetryError_retryError failure retryAfter⟩
    · refine .inr ⟨h, ?_⟩
      rw [if_neg fun hb => h ((Bool.and_eq_true_iff.1 hb).imp validFailure_iff.1 of_decide_eq_true)]
      exact ⟨_, rfl⟩
  | uncertain value failure =>
    refine .inr ⟨id, ?_⟩
    dsimp only
    split
    · exact ⟨_, rfl⟩
    · split
      · exact ⟨_, rfl⟩
      · split <;> exact ⟨_, rfl⟩

/-- **What the SDK returns for an outcome**, in three facts. -/
structure Returned (op : ScriptedOperation In V Ty) (outcome : Outcome V) (ran : Except Stop (Result V)) : Prop where
  branch   : branchOf ran = op.predicted outcome
  retry    : IsRetryError ran ↔ outcome.Retries
  terminal : (∃ result, ran = .ok result) ↔ ¬ outcome.Retries

theorem returned_sdkResult (hvalid : op.Valid rt) (rt' : Runtime) (call : Operation.Call) (outcome : Outcome V) :
    Returned op outcome (op.sdkResult rt' call outcome) := by
  rw [sdkResult_eq hvalid]
  have hbranch := branchOf_concluded op outcome
  rcases concluded_cases op outcome with ⟨hretries, herror⟩ | ⟨hretries, result, hresult⟩
  · obtain ⟨failure, hfailure⟩ := herror
    have hstop : ∃ stop, op.concluded outcome = .error stop := hfailure.elim (fun h => ⟨_, h⟩) (fun ⟨_, h⟩ => ⟨_, h⟩)
    obtain ⟨stop, hstop⟩ := hstop
    rw [hstop] at hbranch hfailure ⊢
    refine ⟨hbranch, ⟨fun _ => hretries, fun _ => ⟨failure, ?_⟩⟩, ⟨fun ⟨_, h⟩ => by (cases h), fun h => absurd hretries h⟩⟩
    exact hfailure.imp (fun h => by rw [Except.error.inj h]; rfl) (fun ⟨delay, h⟩ => ⟨delay, by rw [Except.error.inj h]; rfl⟩)
  · rw [hresult] at hbranch ⊢
    exact ⟨hbranch, ⟨fun h => absurd h (not_isRetryError_ok _), fun h => absurd h hretries⟩, ⟨fun _ => hretries, fun _ => ⟨_, rfl⟩⟩⟩

end Valid

/-! ## What the mock predicts -/

/-- The branch a resolved case is recorded with is the one the SDK selects. -/
def Predicts (resolved : ResolvedCase V) : Prop := resolved.effectiveBranch = op.predicted resolved.outcome

theorem predicts_defectCase (message : Bytes) : Predicts op (op.defectCase message : ResolvedCase V) := by
  unfold Predicts ScriptedOperation.predicted ScriptedOperation.defectCase
  exact (ite_self _).symm

omit [Inhabited V] in
theorem failureProblem_isSome (failure : Failure) :
    (op.failureProblem failure).isSome = !validFailure (op.completeFailure failure) := by
  unfold ScriptedOperation.failureProblem validFailure
  cases (op.completeFailure failure).validate <;> rfl

variable [DecidableEq Ty]

theorem predicts_resolveCase (response : Case In V Ty) (input : In) : Predicts op (op.resolveCase rt response input).1 := by
  have hproblem := failureProblem_isSome op
  unfold ScriptedOperation.resolveCase
  cases response with
  | invalid => exact predicts_defectCase op _
  | branch branch value failure =>
    unfold Predicts ScriptedOperation.predicted ScriptedOperation.caseProblem
    dsimp only
    cases op.declaredBranches branch with
    | false => rfl
    | true =>
      cases failure with
      | none => rfl
      | some failure =>
        show (if (op.failureProblem failure).isSome then defectBranchID else branch) = _
        rw [hproblem]
        show _ = if (true && validFailure (op.completeFailure failure)) then branch else defectBranchID
        cases validFailure (op.completeFailure failure) <;> rfl
  | retry failure retryAfter =>
    unfold Predicts ScriptedOperation.predicted ScriptedOperation.caseProblem
    dsimp only
    by_cases hdelay : retryAfter < 0
    · rw [if_pos hdelay, decide_eq_false (by omega), Bool.and_false]
      rfl
    · rw [if_neg hdelay, decide_eq_true (by omega), Bool.and_true, hproblem]
      cases validFailure (op.completeFailure failure) <;> rfl
  | uncertain value failure =>
    unfold Predicts ScriptedOperation.predicted ScriptedOperation.caseProblem
    dsimp only
    cases op.isMutation with
    | false => rfl
    | true =>
      cases op.declaredBranches uncertainBranchID with
      | false => rfl
      | true =>
        show (if (op.failureProblem failure).isSome then defectBranchID else uncertainBranchID) = _
        rw [hproblem]
        cases validFailure (op.completeFailure failure) <;> rfl
  | paged branch inputType pageNumber pages =>
    cases hcase : op.caseProblem rt (.paged branch inputType pageNumber pages) with
    | some problem => exact predicts_defectCase op _
    | none =>
      dsimp only
      unfold ScriptedOperation.resolvePage
      dsimp only
      split
      · exact predicts_defectCase op _
      · unfold ScriptedOperation.caseProblem at hcase
        dsimp only at hcase
        have hdeclared : op.declaredBranches branch = true := by
          cases h : op.declaredBranches branch with
          | true => rfl
          | false =>
            rw [h] at hcase
            cases hcase
        unfold Predicts ScriptedOperation.predicted
        dsimp only
        rw [hdeclared]
        rfl

omit [DecidableEq Ty] in
theorem predicts_checkAnswer {resolved : ResolvedCase V} (h : Predicts op resolved) (input : In) :
    Predicts op (op.checkAnswer rt resolved input).1 := by
  unfold ScriptedOperation.checkAnswer
  split
  · split
    · split
      · exact h
      · exact predicts_defectCase op _
    · exact h
  · exact h

omit [DecidableEq Ty] in
/-- The check of an answer reads no flag of it. -/
theorem outcome_checkAnswer (resolved other : ResolvedCase V) (houtcome : resolved.outcome = other.outcome)
    (hbranch : resolved.effectiveBranch = other.effectiveBranch) (input : In) :
    (op.checkAnswer rt resolved input).1.outcome = (op.checkAnswer rt other input).1.outcome := by
  unfold ScriptedOperation.checkAnswer
  rw [houtcome, hbranch]
  split
  · split
    · split
      · exact houtcome
      · rfl
    · exact houtcome
  · exact houtcome

omit [DecidableEq Ty] [Inhabited V] in
/-- A report changes the errors of the test alone. -/
theorem reportFailure_eq (s : State In V Ty) (message : Bytes) : ∃ errors, s.reportFailure op message = { s with errors } := by
  unfold State.reportFailure
  split
  · exact ⟨s.errors, rfl⟩
  · exact ⟨_, rfl⟩

omit [DecidableEq Ty] [Inhabited V] in
theorem foldl_reportFailure (messages : List Bytes) (s : State In V Ty) :
    ∃ errors, messages.foldl (State.reportFailure op) s = { s with errors } := by
  induction messages generalizing s with
  | nil => exact ⟨s.errors, rfl⟩
  | cons message rest ih =>
    rw [List.foldl_cons]
    obtain ⟨errors, h⟩ := ih (s.reportFailure op message)
    obtain ⟨first, hfirst⟩ := reportFailure_eq op s message
    rw [h, hfirst]
    exact ⟨errors, rfl⟩

/-- What `resolveScriptedCase` makes of the case it takes. -/
theorem resolveScriptedCase_spec (s : State In V Ty) (flowID : Bytes) (input : In) :
    ∃ resolved errors, op.resolveScriptedCase rt s flowID input =
        (resolved, { s with script := (s.take flowID input).2, errors }) ∧ Predicts op resolved ∧
      (op.checkAnswer rt resolved input).1.outcome = op.outcomeOf rt (s.take flowID input).1 input := by
  unfold ScriptedOperation.resolveScriptedCase State.take
  cases s.scriptedCase flowID input with
  | some answer =>
    obtain ⟨response, script⟩ := answer
    dsimp only [Option.or]
    obtain ⟨errors, herrors⟩ := foldl_reportFailure op (op.resolveCase rt response input).2 { s with script }
    rw [herrors]
    exact ⟨_, errors, rfl, predicts_resolveCase rt op response input, rfl⟩
  | none =>
    cases s.defaultCase flowID with
    | some answer =>
      obtain ⟨response, script⟩ := answer
      dsimp only [Option.or]
      obtain ⟨errors, herrors⟩ := foldl_reportFailure op (op.resolveCase rt response input).2 { s with script }
      rw [herrors]
      exact ⟨_, errors, rfl, predicts_resolveCase rt op response input,
        outcome_checkAnswer rt op { (op.resolveCase rt response input).1 with isDefault := true }
          (op.resolveCase rt response input).1 rfl rfl input⟩
    | none =>
      dsimp only [Option.or]
      obtain ⟨errors, herrors⟩ := reportFailure_eq op s (ascii "unscripted call for Flow " ++ quote rt.isPrint flowID ++
        if s.isStrict then ascii "; the mock is strict, so script it with Respond or When"
        else ascii "; script it with Respond, When, or Default")
      rw [herrors]
      exact ⟨_, errors, rfl, predicts_defectCase op _,
        outcome_checkAnswer rt op { op.defectCase (ascii "unscripted connector mock call") with isUnscripted := true }
          (op.defectCase (ascii "unscripted connector mock call")) rfl rfl input⟩

/-- **What an answer that is not remembered is made of.** -/
theorem answerChecked_fresh {s : State In V Ty} (flowID : Bytes) (input : In) {key : Bytes}
    (hfresh : (if key = [] then none else s.terminalByKey key) = none) :
    ∃ resolved errors, op.answerChecked rt s flowID input key = (resolved,
        { s with
          script := (s.take flowID input).2
          errors
          terminalByKey :=
            if key ≠ [] ∧ !resolved.outcome.isRetry then Function.update s.terminalByKey key (some resolved)
            else s.terminalByKey }) ∧
      Predicts op resolved ∧ resolved.outcome = op.outcomeOf rt (s.take flowID input).1 input := by
  obtain ⟨scripted, errors, hscripted, hpredicts, houtcome⟩ := resolveScriptedCase_spec rt op s flowID input
  obtain ⟨errors', herrors'⟩ := foldl_reportFailure op (op.checkAnswer rt scripted input).2
    { s with script := (s.take flowID input).2, errors }
  unfold ScriptedOperation.answerChecked
  rw [hfresh, hscripted]
  dsimp only
  rw [herrors']
  refine ⟨_, errors', Prod.ext rfl ?_, predicts_checkAnswer rt op hpredicts input, houtcome⟩
  dsimp only
  split <;> rfl

/-! ## Calls that reach the mock -/

theorem newCall_operation {rt : Runtime} {ctx : Option Context} {operation : OperationRef} {connection : ConnectionRef}
    {call : Operation.Call} (h : newCall rt ctx operation connection = .ok call) : call.operation = operation := by
  unfold newCall at h
  split at h
  · cases h
  · split at h
    · cases h
    · split at h
      · cases h
      · split at h
        · cases h
        · split at h
          · cases h
          · obtain rfl := Except.ok.inj h
            rfl

theorem configureCall_keeps {rt : Runtime} {call configured : Operation.Call} {options : List RunOption}
    (h : configureCall rt call options = .ok configured) :
    configured.id = call.id ∧ configured.idempotencyKey = call.idempotencyKey ∧ configured.operation = call.operation := by
  unfold configureCall at h
  split at h
  · cases h
  · split at h
    · obtain rfl := Except.ok.inj h
      exact ⟨rfl, rfl, rfl⟩
    · split at h
      · cases h
      · obtain rfl := Except.ok.inj h
        exact ⟨rfl, rfl, rfl⟩

/-- What the mock of a state makes of a call that reaches it. -/
def State.attempt (s : State In V Ty) (call : Operation.Call) (input : In) : Outcome V :=
  (op.answer rt s call input (op.keyOf call) none).1.outcome

theorem answered_eq_some {s : State In V Ty} {request : Request In} {a : Answered In V Ty} (h : s.answered rt op request = some a) :
    ∃ call attempt, s.invocation rt op request = some ⟨call, some attempt⟩ ∧
      a = ⟨s, (op.answer rt s call request.input (op.keyOf call) request.reportError).2, request, call, s.run rt op request⟩ := by
  unfold State.answered at h
  split at h
  · exact ⟨_, _, ‹_›, (Option.some.inj h).symm⟩
  · cases h

/-- **The SDK goes on with the answer of the mock**, for a call whose key is its identity. -/
theorem run_of_answered (hvalid : op.Valid rt) {s : State In V Ty} {request : Request In} {a : Answered In V Ty}
    (h : s.answered rt op request = some a) :
    a.call.operation = op.definition.operation ∧
      (op.isMutation = true → a.call.idempotencyKey = a.call.id ∧ a.call.idempotencyKey ≠ []) ∧
      a.result = op.sdkResult (request.runtime rt) a.call (s.attempt rt op a.call request.input) := by
  obtain ⟨call, attempt, hinvocation, rfl⟩ := answered_eq_some rt op h
  unfold State.invocation at hinvocation
  unfold ScriptedOperation.Valid at hvalid
  unfold State.run State.attempt ScriptedOperation.sdkResult ScriptedOperation.keyOf
  dsimp only
  cases hkind : op.isMutation with
  | true =>
    rw [hkind, if_pos rfl] at hinvocation hvalid
    replace hvalid : validateMutation (request.runtime rt).isPrint (s.mutation rt op).definition = .ok () := hvalid
    rw [if_pos rfl, if_pos rfl, if_pos rfl]
    unfold mutationInvocation at hinvocation
    unfold runMutation
    dsimp only
    rw [hvalid]
    cases hnew : newCall (request.runtime rt) request.ctx (s.mutation rt op).definition.operation request.connection with
    | error err =>
      rw [hnew] at hinvocation
      cases hinvocation
    | ok made =>
      rw [hnew] at hinvocation
      have hmade := newCall_operation hnew
      have hkey : (withKey (s.mutation rt op) request.input made).idempotencyKey = made.id := ite_self _
      dsimp only at hinvocation ⊢
      by_cases hblank : trimSpace (withKey (s.mutation rt op) request.input made).idempotencyKey = []
      · rw [if_pos hblank] at hinvocation
        cases hinvocation
      · rw [if_neg hblank] at hinvocation ⊢
        cases hconfigured : configureCall (request.runtime rt) (withKey (s.mutation rt op) request.input made) request.options with
        | error err =>
          rw [hconfigured] at hinvocation
          cases hinvocation
        | ok configured =>
          rw [hconfigured] at hinvocation
          obtain ⟨rfl, -⟩ := Invocation.mk.inj (Option.some.inj hinvocation)
          obtain ⟨hid, hk, hoperation⟩ := configureCall_keeps hconfigured
          refine ⟨hoperation.trans hmade, fun _ => ⟨hk.trans (hkey.trans hid.symm), fun hnil => hblank ?_⟩, rfl⟩
          rw [← hk, hnil]
          rfl
  | false =>
    rw [hkind, if_neg Bool.false_ne_true] at hinvocation hvalid
    replace hvalid : validateQuery (request.runtime rt).isPrint (s.query rt op).definition = .ok () := hvalid
    rw [if_neg Bool.false_ne_true, if_neg Bool.false_ne_true, if_neg Bool.false_ne_true]
    unfold queryInvocation at hinvocation
    unfold runQuery
    dsimp only
    rw [hvalid]
    cases hnew : newCall (request.runtime rt) request.ctx (s.query rt op).definition.operation request.connection with
    | error err =>
      rw [hnew] at hinvocation
      cases hinvocation
    | ok made =>
      rw [hnew] at hinvocation
      dsimp only at hinvocation ⊢
      cases hconfigured : configureCall (request.runtime rt) made request.options with
      | error err =>
        rw [hconfigured] at hinvocation
        cases hinvocation
      | ok configured =>
        rw [hconfigured] at hinvocation
        obtain ⟨rfl, -⟩ := Invocation.mk.inj (Option.some.inj hinvocation)
        obtain ⟨-, -, hoperation⟩ := configureCall_keeps hconfigured
        exact ⟨hoperation.trans (newCall_operation hnew), fun h => by (cases h), rfl⟩

end Mock
end Dex
