import DexConnectors.MockSafety
/-!
# MockRuns — every run of a mock keeps what it promises, unless a retry is refused

`Memory` ties what the mock remembers to the results that were returned; one step of a run keeps it, and with it the answer keeps
what `Keeps` says.
-/
namespace Dex
namespace Mock

open Lib Lib.Utf8 Operation

variable {In V Ty : Type} [Inhabited V] [DecidableEq Ty] (rt : Runtime) (op : ScriptedOperation In V Ty)

omit [Inhabited V] [DecidableEq Ty] in
def ScriptedOperation.Passes (input : In) : Prop := ∀ check, op.requestCheck = some check → check input = none

/-! ## One answer -/

omit [Inhabited V] [DecidableEq Ty] in
theorem recordAnswer_eq (s : State In V Ty) (call : Operation.Call) (input : In) (flowID : Bytes) (resolved : ResolvedCase V)
    (reportError : Option Bytes) : ∃ recorded processCalls errors,
      op.recordAnswer s call input flowID resolved reportError =
        { s with calls := s.calls ++ [recorded], processCalls, errors } ∧
      recorded.branch = resolved.effectiveBranch ∧ recorded.isRetry = resolved.outcome.isRetry := by
  unfold ScriptedOperation.recordAnswer
  obtain ⟨errors, herrors⟩ := foldl_reportFailure op reportError.toList
    { s with
      calls := s.calls ++ [⟨flowID, call.id, call.idempotencyKey, call.connection, input, resolved.effectiveBranch,
        resolved.outcome.isRetry, resolved.isReplay, resolved.isUnscripted⟩]
      processCalls := s.processCalls ++ [⟨op.definition.operation.connectorID, op.definition.operation.operationID,
        call.connection.name, flowID, call.id, resolved.effectiveBranch, resolved.outcome.isRetry, resolved.isReplay,
        resolved.isUnscripted⟩] }
  rw [herrors]
  exact ⟨_, _, errors, rfl, rfl, rfl⟩

/-- An answer for an input that passes, in the terms of its resolved case. -/
structure Answers (s : State In V Ty) (a : Answered In V Ty) (resolved : ResolvedCase V) : Prop where
  before   : a.before = s
  recorded : ∃ call, a.after.calls = a.before.calls ++ [call] ∧ call.branch = resolved.effectiveBranch ∧
    call.isRetry = resolved.outcome.isRetry
  left     : ∃ left, op.answerChecked rt s a.call.context.flowID a.request.input (op.keyOf a.call) = (resolved, left) ∧
    a.after.script = left.script ∧ a.after.terminalByKey = left.terminalByKey
  result   : a.result = op.sdkResult (a.request.runtime rt) a.call resolved.outcome
  call     : a.call.operation = op.definition.operation
  key      : op.isMutation = true → a.call.idempotencyKey = a.call.id ∧ a.call.idempotencyKey ≠ []

variable {rt op}

theorem answerChecked_remembered {s : State In V Ty} {flowID : Bytes} {input : In} {key : Bytes} {resolved : ResolvedCase V}
    (h : (if key = [] then none else s.terminalByKey key) = some resolved) :
    op.answerChecked rt s flowID input key = ({ resolved with isReplay := true }, s) := by
  unfold ScriptedOperation.answerChecked
  rw [h]

theorem answerChecked_calls (s : State In V Ty) (flowID : Bytes) (input : In) (key : Bytes) :
    (op.answerChecked rt s flowID input key).2.calls = s.calls := by
  cases h : (if key = [] then none else s.terminalByKey key) with
  | some resolved => rw [answerChecked_remembered h]
  | none =>
    obtain ⟨resolved, errors, hanswer, -⟩ := answerChecked_fresh rt op flowID input h
    rw [hanswer]

theorem answers_of_answered (hvalid : op.Valid rt) {s : State In V Ty} {request : Request In} {a : Answered In V Ty}
    (hpass : op.Passes request.input) (h : s.answered rt op request = some a) : ∃ resolved, Answers rt op s a resolved := by
  obtain ⟨hcall, hkey, hresult⟩ := run_of_answered rt op hvalid h
  obtain ⟨call, attempt, -, rfl⟩ := answered_eq_some rt op h
  have hcheck : (op.requestCheck.bind fun check => check request.input) = none := by
    cases hrequest : op.requestCheck with
    | none => rfl
    | some check => exact hpass check hrequest
  have hanswer : ∀ reportError, op.answer rt s call request.input (op.keyOf call) reportError =
      ((op.answerChecked rt s call.context.flowID request.input (op.keyOf call)).1,
        op.recordAnswer (op.answerChecked rt s call.context.flowID request.input (op.keyOf call)).2 call request.input
          call.context.flowID (op.answerChecked rt s call.context.flowID request.input (op.keyOf call)).1 reportError) := by
    intro reportError
    unfold ScriptedOperation.answer
    rw [hcheck]
  obtain ⟨recorded, processCalls, errors, hrecord, hbranch, hretry⟩ := recordAnswer_eq op
    (op.answerChecked rt s call.context.flowID request.input (op.keyOf call)).2 call request.input call.context.flowID
    (op.answerChecked rt s call.context.flowID request.input (op.keyOf call)).1 request.reportError
  have hattempt : s.attempt rt op call request.input =
      (op.answerChecked rt s call.context.flowID request.input (op.keyOf call)).1.outcome := by
    unfold State.attempt
    rw [hanswer]
  refine ⟨(op.answerChecked rt s call.context.flowID request.input (op.keyOf call)).1, ⟨rfl, ⟨recorded, ?_, hbranch, hretry⟩,
    ⟨_, rfl, ?_⟩, hattempt ▸ hresult, hcall, hkey⟩⟩
  · dsimp only
    rw [hanswer, hrecord]
    dsimp only
    rw [answerChecked_calls]
  · dsimp only
    rw [hanswer, hrecord]
    exact ⟨rfl, rfl⟩

/-- The check of an answer leaves a retry as it is. -/
theorem outcomeOf_retry (failure : Failure) (retryAfter : Int) (input : In) :
    op.outcomeOf rt (some (.retry failure retryAfter)) input = .retry (op.completeFailure failure) retryAfter := by
  unfold ScriptedOperation.outcomeOf ScriptedOperation.checkAnswer ScriptedOperation.resolveCase
  dsimp only
  cases op.answerCheck <;> rfl

omit [DecidableEq Ty] in
theorem isRetry_checkAnswer {resolved : ResolvedCase V} {input : In}
    (h : (op.checkAnswer rt resolved input).1.outcome.isRetry = true) : resolved.outcome.isRetry = true := by
  unfold ScriptedOperation.checkAnswer at h
  split at h
  · split at h
    · split at h
      · exact h
      · cases h
    · exact h
  · exact h

theorem retry_of_isRetry {taken : Option (Case In V Ty)} {input : In} (h : (op.outcomeOf rt taken input).isRetry = true) :
    ∃ failure retryAfter, taken = some (.retry failure retryAfter) := by
  replace h := isRetry_checkAnswer h
  cases taken with
  | none => cases h
  | some response =>
    cases response with
    | retry failure retryAfter => exact ⟨failure, retryAfter, rfl⟩
    | invalid => cases h
    | branch branch value failure => cases h
    | uncertain value failure => cases h
    | paged branch inputType pageNumber pages =>
      unfold ScriptedOperation.resolveCase at h
      dsimp only at h
      split at h
      · cases h
      · unfold ScriptedOperation.resolvePage at h
        dsimp only at h
        split at h <;> cases h

/-- A retry that was taken is returned as one unless the SDK refuses it. -/
theorem retries_outcomeOf_iff {taken : Option (Case In V Ty)} {input : In} (hretry : (op.outcomeOf rt taken input).isRetry = true) :
    (op.outcomeOf rt taken input).Retries ↔ ∀ response, taken = some response → ¬ op.InvalidRetry response := by
  obtain ⟨failure, retryAfter, rfl⟩ := retry_of_isRetry hretry
  rw [outcomeOf_retry]
  constructor
  · rintro ⟨hfailure, hdelay⟩ response h
    obtain rfl := Option.some.inj h
    rintro (hnegative | hinvalid)
    · exact absurd hdelay (Int.not_le.2 hnegative)
    · exact hinvalid hfailure
  · intro h
    have hvalid := not_or.1 (h _ rfl)
    exact ⟨Decidable.not_not.1 hvalid.2, Int.not_lt.1 hvalid.1⟩

/-! ## The memory -/

variable (rt op) in
/-- **What the mock remembers, and what was returned**: a remembered case is that of an earlier terminal result, and every
terminal result of a mutation is remembered. -/
structure Memory (earlier : List (Answered In V Ty)) (s : State In V Ty) : Prop where
  remembered : ∀ key resolved, s.terminalByKey key = some resolved → resolved.outcome.isRetry = false ∧ Predicts op resolved ∧
    op.isMutation = true ∧ ∃ e ∈ earlier, e.call.idempotencyKey = key ∧
      ∃ rt', e.result = op.sdkResult rt' e.call resolved.outcome
  kept : op.isMutation = true → ∀ e ∈ earlier, ∀ result, e.result = .ok result → ∃ resolved rt',
    s.terminalByKey e.call.idempotencyKey = some resolved ∧ e.result = op.sdkResult rt' e.call resolved.outcome
  calls : ∀ e ∈ earlier, e.call.operation = op.definition.operation ∧
    (op.isMutation = true → e.call.idempotencyKey = e.call.id ∧ e.call.idempotencyKey ≠ [])

omit [DecidableEq Ty] in
theorem memory_new : Memory op [] (.new : State In V Ty) :=
  ⟨fun _ _ h => (by cases h), fun _ _ h => (by cases h), fun _ h => (by cases h)⟩

omit [DecidableEq Ty] in
theorem Memory.congr {earlier : List (Answered In V Ty)} {s t : State In V Ty} (h : Memory op earlier s)
    (hsame : t.terminalByKey = s.terminalByKey) : Memory op earlier t :=
  ⟨hsame ▸ h.remembered, hsame ▸ h.kept, h.calls⟩

omit [Inhabited V] in
theorem not_retries_of_isRetry {outcome : Outcome V} (h : outcome.isRetry = false) : ¬ outcome.Retries := by
  cases outcome with
  | retry failure retryAfter => cases h
  | branch branch value failure => exact id
  | uncertain value failure => exact id

omit [DecidableEq Ty] in
/-- One more answer: what is remembered is what was, or this answer. -/
theorem Memory.snoc {earlier : List (Answered In V Ty)} {s t : State In V Ty} {a : Answered In V Ty} (h : Memory op earlier s)
    (hcall : a.call.operation = op.definition.operation ∧
      (op.isMutation = true → a.call.idempotencyKey = a.call.id ∧ a.call.idempotencyKey ≠ []))
    (hnew : ∀ key resolved, t.terminalByKey key = some resolved → s.terminalByKey key = some resolved ∨
      resolved.outcome.isRetry = false ∧ Predicts op resolved ∧ op.isMutation = true ∧ a.call.idempotencyKey = key ∧
        ∃ rt', a.result = op.sdkResult rt' a.call resolved.outcome)
    (hold : ∀ key resolved, s.terminalByKey key = some resolved → t.terminalByKey key = some resolved)
    (hkept : op.isMutation = true → ∀ result, a.result = .ok result → ∃ resolved rt',
      t.terminalByKey a.call.idempotencyKey = some resolved ∧ a.result = op.sdkResult rt' a.call resolved.outcome) :
    Memory op (earlier ++ [a]) t where
  remembered key resolved hkey := by
    rcases hnew key resolved hkey with hwas | ⟨hretry, hpredicts, hmutation, hthis⟩
    · obtain ⟨hretry, hpredicts, hmutation, e, he, hrest⟩ := h.remembered key resolved hwas
      exact ⟨hretry, hpredicts, hmutation, e, List.mem_append_left _ he, hrest⟩
    · exact ⟨hretry, hpredicts, hmutation, a, List.mem_append_right _ (List.mem_singleton.2 rfl), hthis⟩
  kept hmutation e he result hok := by
    rcases List.mem_append.1 he with he | he
    · obtain ⟨resolved, rt', hwas, hresult⟩ := h.kept hmutation e he result hok
      exact ⟨resolved, rt', hold _ _ hwas, hresult⟩
    · obtain rfl := List.mem_singleton.1 he
      exact hkept hmutation result hok
  calls e he := by
    rcases List.mem_append.1 he with he | he
    · exact h.calls e he
    · obtain rfl := List.mem_singleton.1 he
      exact hcall

section Step

variable {earlier : List (Answered In V Ty)} {s : State In V Ty} {a : Answered In V Ty} {resolved : ResolvedCase V}
  (hvalid : op.Valid rt) (hmemory : Memory op earlier s) (h : Answers rt op s a resolved)

include hvalid hmemory h

/-- An answer from memory: the result that the key got before, and nothing is taken. -/
theorem keeps_of_remembered {remembered : ResolvedCase V} (hremembered : op.remembered s a.call = some remembered) :
    Keeps rt op earlier a ∧ Memory op (earlier ++ [a]) a.after := by
  obtain ⟨left, hleft, hscript, hterminal⟩ := h.left
  rw [answerChecked_remembered hremembered] at hleft
  obtain ⟨rfl, rfl⟩ := Prod.mk.inj hleft
  have hkey : op.keyOf a.call ≠ [] ∧ s.terminalByKey (op.keyOf a.call) = some remembered := by
    unfold ScriptedOperation.remembered at hremembered
    split at hremembered
    · cases hremembered
    · exact ⟨‹_›, hremembered⟩
  obtain ⟨hretry, hpredicts, hmutation, e, he, hekey, rt', heresult⟩ := hmemory.remembered _ _ hkey.2
  have hkeyOf : op.keyOf a.call = a.call.idempotencyKey := if_pos hmutation
  rw [hkeyOf] at hkey hekey
  have hresult : a.result = op.sdkResult (a.request.runtime rt) a.call remembered.outcome := h.result
  have hreturned := returned_sdkResult hvalid (a.request.runtime rt) a.call remembered.outcome
  rw [← hresult] at hreturned
  obtain ⟨call, hcalls, hbranch, hcallRetry⟩ := h.recorded
  refine ⟨⟨⟨call, hcalls, hbranch.trans (hpredicts.trans hreturned.branch.symm), ?_⟩, ?_, ?_⟩,
    hmemory.snoc ⟨h.call, h.key⟩ (fun key resolved hk => .inl (hterminal ▸ hk)) (fun key resolved hk => hterminal ▸ hk)
      (fun _ _ _ => ⟨remembered, _, hterminal ▸ hkey.2, hresult⟩)⟩
  · rw [hcallRetry, hreturned.retry]
    exact ⟨fun htrue => absurd (hretry.symm.trans htrue) Bool.noConfusion,
      fun hretries => absurd hretries (not_retries_of_isRetry hretry)⟩
  · rintro result ⟨-, e', he', he'key, he'result⟩
    obtain ⟨again, rt'', hagain, he'sdk⟩ := hmemory.kept hmutation e' he' result he'result
    rw [he'key, hkey.2] at hagain
    obtain rfl := Option.some.inj hagain
    have hid : e'.call.id = a.call.id := by
      rw [← ((hmemory.calls e' he').2 hmutation).1, he'key, (h.key hmutation).1]
    have hsame := sameResult_sdkResult hvalid (a.request.runtime rt) hid he'key ((hmemory.calls e' he').1.trans h.call.symm)
      (he'sdk.symm.trans he'result)
    rw [← hresult] at hsame
    exact ⟨hsame, by rw [hscript, h.before]⟩
  · intro hno
    obtain ⟨result, hok⟩ := (returned_sdkResult hvalid rt' e.call remembered.outcome).terminal.2 (not_retries_of_isRetry hretry)
    exact absurd ⟨hmutation, e, he, hekey, heresult.trans hok⟩ (hno result)

/-- A new answer: the case the call is to get is taken, and a terminal result is remembered. -/
theorem keeps_of_fresh (hfresh : op.remembered s a.call = none) (hok : ¬ op.TakesInvalidRetry a) :
    Keeps rt op earlier a ∧ Memory op (earlier ++ [a]) a.after := by
  obtain ⟨left, hleft, hscript, hterminal⟩ := h.left
  obtain ⟨given, errors, hanswer, hpredicts, houtcome⟩ := answerChecked_fresh rt op a.call.context.flowID a.request.input
    hfresh
  rw [hanswer] at hleft
  obtain ⟨rfl, rfl⟩ := Prod.mk.inj hleft
  dsimp only at hscript hterminal
  have htakes : Takes s a.call.context.flowID a.request.input (s.take a.call.context.flowID a.request.input).1 a.after.script :=
    takes_iff.2 (by rw [hscript])
  have hretries : given.outcome.isRetry = true → given.outcome.Retries := by
    intro hretry
    rw [houtcome] at hretry ⊢
    refine (retries_outcomeOf_iff hretry).2 fun response hresponse hinvalid => hok ?_
    rw [hresponse] at htakes
    refine ⟨h.before ▸ hfresh, response, a.after.script, ?_, hinvalid⟩
    rw [h.before]
    exact htakes
  have hreturned := returned_sdkResult hvalid (a.request.runtime rt) a.call given.outcome
  rw [← h.result] at hreturned
  obtain ⟨call, hcalls, hbranch, hcallRetry⟩ := h.recorded
  have hkeyOf : op.isMutation = true → op.keyOf a.call = a.call.idempotencyKey := fun hmutation => if_pos hmutation
  have hnone : op.isMutation = true → s.terminalByKey a.call.idempotencyKey = none := by
    intro hmutation
    unfold ScriptedOperation.remembered at hfresh
    rw [hkeyOf hmutation, if_neg (h.key hmutation).2] at hfresh
    exact hfresh
  refine ⟨⟨⟨call, hcalls, hbranch.trans (hpredicts.trans hreturned.branch.symm), ?_⟩, ?_, ?_⟩, ?_⟩
  · rw [hcallRetry, hreturned.retry]
    refine ⟨hretries, fun hretries => ?_⟩
    cases hretry : given.outcome.isRetry with
    | true => rfl
    | false => exact absurd hretries (not_retries_of_isRetry hretry)
  · rintro result ⟨hmutation, e, he, hekey, heresult⟩
    obtain ⟨resolved, -, hsome, -⟩ := hmemory.kept hmutation e he result heresult
    rw [hekey, hnone hmutation] at hsome
    cases hsome
  · intro _
    rw [h.before]
    exact ⟨_, htakes, houtcome ▸ h.result⟩
  · refine hmemory.snoc ⟨h.call, h.key⟩ ?_ ?_ ?_
    · intro key resolved hk
      rw [hterminal] at hk
      split at hk
      · rename_i hremembers
        by_cases hkey : key = op.keyOf a.call
        · rw [hkey, Function.update_self] at hk
          obtain rfl := Option.some.inj hk
          have hmutation : op.isMutation = true := by
            cases hkind : op.isMutation with
            | true => rfl
            | false => exact absurd (if_neg (hkind ▸ Bool.false_ne_true)) hremembers.1
          exact .inr ⟨Bool.not_inj hremembers.2, hpredicts, hmutation, (hkeyOf hmutation).symm.trans hkey.symm, _, h.result⟩
        · rw [Function.update_of_ne hkey] at hk
          exact .inl hk
      · exact .inl hk
    · intro key resolved hwas
      rw [hterminal]
      split
      · rename_i hremembers
        rw [Function.update_of_ne, hwas]
        rintro rfl
        unfold ScriptedOperation.remembered at hfresh
        rw [if_neg hremembers.1, hwas] at hfresh
        cases hfresh
      · exact hwas
    · intro hmutation result hresult
      have hretry : given.outcome.isRetry = false := by
        cases hretry : given.outcome.isRetry with
        | false => rfl
        | true => exact absurd (hretries hretry) (hreturned.terminal.1 ⟨result, hresult⟩)
      refine ⟨given, _, ?_, h.result⟩
      rw [hterminal, hretry, hkeyOf hmutation, if_pos ⟨(h.key hmutation).2, rfl⟩, Function.update_self]

end Step

theorem keeps_step {earlier : List (Answered In V Ty)} {s : State In V Ty} {request : Request In} {a : Answered In V Ty}
    (hvalid : op.Valid rt) (hpass : op.Passes request.input) (hmemory : Memory op earlier s)
    (h : s.answered rt op request = some a) (hok : ¬ op.TakesInvalidRetry a) :
    Keeps rt op earlier a ∧ Memory op (earlier ++ [a]) a.after := by
  obtain ⟨resolved, hanswers⟩ := answers_of_answered hvalid hpass h
  cases hremembered : op.remembered s a.call with
  | some remembered => exact keeps_of_remembered hvalid hmemory hanswers hremembered
  | none => exact keeps_of_fresh hvalid hmemory hanswers hremembered hok

/-- An answer that keeps what was recorded has not taken a retry that the SDK refuses. -/
theorem not_takesInvalidRetry {earlier : List (Answered In V Ty)} {s : State In V Ty} {request : Request In}
    {a : Answered In V Ty} (hvalid : op.Valid rt) (hpass : op.Passes request.input) (h : s.answered rt op request = some a)
    (hkeeps : Keeps rt op earlier a) : ¬ op.TakesInvalidRetry a := by
  rintro ⟨hfresh, response, script, htakes, hinvalid⟩
  obtain ⟨resolved, hanswers⟩ := answers_of_answered hvalid hpass h
  obtain ⟨left, hleft, -, -⟩ := hanswers.left
  rw [hanswers.before] at hfresh htakes
  obtain ⟨given, errors, hanswer, hpredicts, houtcome⟩ := answerChecked_fresh rt op a.call.context.flowID a.request.input hfresh
  rw [hanswer] at hleft
  obtain ⟨rfl, -⟩ := Prod.mk.inj hleft
  rw [takes_iff.1 htakes] at houtcome
  cases response with
  | retry failure retryAfter =>
    have hretry : (op.outcomeOf rt (some (.retry failure retryAfter)) a.request.input).isRetry = true := by
      rw [outcomeOf_retry]
      rfl
    obtain ⟨recorded, hcalls, -, hrecorded⟩ := hkeeps.recorded
    obtain ⟨recorded', hcalls', -, hrecorded'⟩ := hanswers.recorded
    obtain rfl := List.singleton_inj.1 (List.append_cancel_left (hcalls.symm.trans hcalls'))
    rw [houtcome, hretry] at hrecorded'
    have hreturned := returned_sdkResult hvalid (a.request.runtime rt) a.call given.outcome
    rw [← hanswers.result, houtcome] at hreturned
    exact (retries_outcomeOf_iff hretry).1 (hreturned.retry.1 (hrecorded.1 hrecorded')) _ rfl hinvalid
  | invalid => exact hinvalid
  | branch branch value failure => exact hinvalid
  | uncertain value failure => exact hinvalid
  | paged branch inputType pageNumber pages => exact hinvalid

/-! ## Runs -/

variable (rt op) in
omit [Inhabited V] in
theorem reportInvalidCases_eq (s : State In V Ty) (cases : List (Case In V Ty)) :
    ∃ errors, op.reportInvalidCases rt s cases = { s with errors } := by
  unfold ScriptedOperation.reportInvalidCases
  induction cases.filterMap (op.caseProblem rt) generalizing s with
  | nil => exact ⟨s.errors, rfl⟩
  | cons problem rest ih =>
    rw [List.foldl_cons]
    obtain ⟨errors, h⟩ := ih (s.errorf op problem)
    exact ⟨errors, h⟩

omit [Inhabited V] [DecidableEq Ty] in
theorem queue_modify (s : State In V Ty) (t : Option Bytes) (f : Script In V Ty → Script In V Ty)
    (hf : ∀ script, (f script).queue = script.queue) (target : Option Bytes) :
    ((s.modify t f).script target).queue = (s.script target).queue := by
  unfold State.modify
  by_cases ht : target = t
  · rw [ht]
    dsimp only
    rw [Function.update_self, hf]
  · dsimp only
    rw [Function.update_of_ne ht]

omit [Inhabited V] in
/-- A test changes the memory in no way, and a queue only by what it responds. -/
theorem act_keeps (s : State In V Ty) (act : Act In V Ty) (target : Option Bytes) :
    (op.act rt s act).terminalByKey = s.terminalByKey ∧
      ((op.act rt s act).script target).queue = (s.script target).queue ++ responded target [.test act] := by
  cases act with
  | respond t cases =>
    obtain ⟨errors, h⟩ := reportInvalidCases_eq rt op s cases
    unfold ScriptedOperation.act
    dsimp only
    rw [h]
    refine ⟨rfl, ?_⟩
    unfold State.modify responded
    rw [List.flatMap_singleton]
    dsimp only
    by_cases ht : t = target
    · rw [if_pos ht, ht, Function.update_self]
    · rw [if_neg ht, Function.update_of_ne (Ne.symm ht), List.append_nil]
  | «when» t matchesInput response =>
    cases matchesInput with
    | none => exact ⟨rfl, (List.append_nil _).symm⟩
    | some matchesInput =>
      obtain ⟨errors, h⟩ := reportInvalidCases_eq rt op s [response]
      unfold ScriptedOperation.act
      dsimp only
      rw [h]
      refine ⟨rfl, (queue_modify _ t _ ?_ target).trans (List.append_nil _).symm⟩
      intro script
      rfl
  | setDefault t cases =>
    obtain ⟨errors, h⟩ := reportInvalidCases_eq rt op s cases
    unfold ScriptedOperation.act
    dsimp only
    rw [h]
    refine ⟨rfl, (queue_modify _ t _ ?_ target).trans (List.append_nil _).symm⟩
    intro script
    rfl
  | makeStrict => exact ⟨rfl, (List.append_nil _).symm⟩
  | flowScript flowIDOrPrefix =>
    unfold ScriptedOperation.act
    dsimp only
    split <;> split <;> exact ⟨rfl, (List.append_nil _).symm⟩
  | finishTest => exact ⟨rfl, (List.append_nil _).symm⟩

theorem mem_trace {a : Answered In V Ty} : ∀ {events : List (Event In V Ty)} {s : State In V Ty}, a ∈ s.trace rt op events →
    ∃ t request, .call request ∈ events ∧ State.answered rt op t request = some a
  | .test act :: rest, s, h => by
    obtain ⟨t, request, hrequest, hanswered⟩ := mem_trace (s := State.next rt op s (.test act)) h
    exact ⟨t, request, List.mem_cons_of_mem _ hrequest, hanswered⟩
  | .call request :: rest, s, h => by
    rcases List.mem_append.1 h with h | h
    · exact ⟨s, request, List.mem_cons_self, Option.mem_toList.1 h⟩
    · obtain ⟨t, request', hrequest, hanswered⟩ := mem_trace (s := State.next rt op s (.call request)) h
      exact ⟨t, request', List.mem_cons_of_mem _ hrequest, hanswered⟩

/-- The run lemma: the memory goes from one answer to the next. -/
theorem keeps_of_trace (hvalid : op.Valid rt) : ∀ (events : List (Event In V Ty)) (earlier : List (Answered In V Ty))
    (s : State In V Ty), Memory op earlier s → (∀ request, .call request ∈ events → op.Passes request.input) →
    (∀ a ∈ s.trace rt op events, ¬ op.TakesInvalidRetry a) →
    ∀ before a after, s.trace rt op events = before ++ a :: after → Keeps rt op (earlier ++ before) a
  | [], earlier, s, _, _, _, before, a, after, h => by cases before <;> cases h
  | .test act :: rest, earlier, s, hmemory, hpass, hok, before, a, after, h =>
    keeps_of_trace hvalid rest earlier _ (hmemory.congr (act_keeps s act none).1)
      (fun request hrequest => hpass request (List.mem_cons_of_mem _ hrequest)) hok before a after h
  | .call request :: rest, earlier, s, hmemory, hpass, hok, before, a, after, h => by
    have hrest : ∀ request', .call request' ∈ rest → op.Passes request'.input :=
      fun request' hrequest => hpass request' (List.mem_cons_of_mem _ hrequest)
    have htrace : s.trace rt op (.call request :: rest) =
      (s.answered rt op request).toList ++ (s.next rt op (.call request)).trace rt op rest := rfl
    have hnext : s.next rt op (.call request) = ((s.answered rt op request).map (·.after)).getD s := rfl
    rw [htrace, hnext] at h hok
    cases hanswered : s.answered rt op request with
    | none =>
      rw [hanswered] at h hok
      exact keeps_of_trace hvalid rest earlier s hmemory hrest hok before a after h
    | some first =>
      rw [hanswered] at h hok
      obtain ⟨hkeeps, hmemory'⟩ := keeps_step hvalid (hpass request List.mem_cons_self) hmemory hanswered
        (hok first List.mem_cons_self)
      cases before with
      | nil =>
        obtain ⟨rfl, -⟩ := List.cons.inj h
        rw [List.append_nil]
        exact hkeeps
      | cons b before =>
        obtain ⟨rfl, h'⟩ := List.cons.inj h
        rw [List.append_cons]
        exact keeps_of_trace hvalid rest _ _ hmemory' hrest (fun e he => hok e (List.mem_cons_of_mem _ he)) before a after h'

/-! ## The queues -/

omit [Inhabited V] [DecidableEq Ty] in
theorem Takes.front {s : State In V Ty} {flowID : Bytes} {input : In} {taken : Option (Case In V Ty)}
    {script : Option Bytes → Script In V Ty} (h : Takes s flowID input taken script) (target : Option Bytes) :
    ∃ front, (s.script target).queue = front ++ (script target).queue := by
  cases h with
  | rule => exact ⟨[], rfl⟩
  | queue t response rest happlies hlonger hrules hqueue =>
    by_cases hto : target = t
    · rw [hto, Function.update_self]
      exact ⟨[response], hqueue⟩
    · rw [Function.update_of_ne hto]
      exact ⟨[], rfl⟩
  | fallback t =>
    by_cases hto : target = t
    · rw [hto, Function.update_self]
      exact ⟨[], rfl⟩
    · rw [Function.update_of_ne hto]
      exact ⟨[], rfl⟩
  | unscripted => exact ⟨[], rfl⟩

theorem queue_answered (hvalid : op.Valid rt) {s : State In V Ty} {request : Request In} {a : Answered In V Ty}
    (hpass : op.Passes request.input) (h : s.answered rt op request = some a) (target : Option Bytes) :
    (s.script target).queue = a.consumed target ++ (a.after.script target).queue := by
  obtain ⟨resolved, hanswers⟩ := answers_of_answered hvalid hpass h
  obtain ⟨left, hleft, hscript, -⟩ := hanswers.left
  have hfront : ∃ front, (s.script target).queue = front ++ (a.after.script target).queue := by
    rw [hscript]
    cases hremembered : op.remembered s a.call with
    | some remembered =>
      rw [answerChecked_remembered hremembered] at hleft
      obtain ⟨-, rfl⟩ := Prod.mk.inj hleft
      exact ⟨[], rfl⟩
    | none =>
      obtain ⟨given, errors, hanswer, -⟩ := answerChecked_fresh rt op a.call.context.flowID a.request.input hremembered
      rw [hanswer] at hleft
      obtain ⟨-, rfl⟩ := Prod.mk.inj hleft
      exact (takes_iff.2 rfl : Takes s a.call.context.flowID a.request.input _ _).front target
  obtain ⟨front, hfront⟩ := hfront
  unfold Answered.consumed
  rw [hanswers.before, hfront, List.length_append, Nat.add_sub_cancel, List.take_left]

/-- Every queue is its cases in order, those taken first. -/
theorem queues_of_trace (hvalid : op.Valid rt) (target : Option Bytes) : ∀ (events : List (Event In V Ty)) (s : State In V Ty),
    (∀ request, .call request ∈ events → op.Passes request.input) →
    (s.script target).queue ++ responded target events =
      (s.trace rt op events).flatMap (·.consumed target) ++ ((s.after rt op events).script target).queue
  | [], s, _ => List.append_nil _
  | .test act :: rest, s, hpass => by
    have ih := queues_of_trace hvalid target rest (op.act rt s act) (fun request hrequest => hpass request (List.mem_cons_of_mem _ hrequest))
    have hresponded : responded target (.test act :: rest) = responded target [.test act] ++ responded target rest :=
      (List.flatMap_append : ([Event.test act] ++ rest).flatMap _ = _)
    rw [(act_keeps s act target).2, List.append_assoc] at ih
    rw [hresponded]
    exact ih
  | .call request :: rest, s, hpass => by
    have ih := queues_of_trace hvalid target rest (s.next rt op (.call request))
      (fun request' hrequest => hpass request' (List.mem_cons_of_mem _ hrequest))
    have htrace : s.trace rt op (.call request :: rest) =
      (s.answered rt op request).toList ++ (s.next rt op (.call request)).trace rt op rest := rfl
    have hafter : s.after rt op (.call request :: rest) = (s.next rt op (.call request)).after rt op rest := rfl
    have hresponded : responded target (.call request :: rest) = responded target rest := rfl
    have hnext : s.next rt op (.call request) = ((s.answered rt op request).map (·.after)).getD s := rfl
    rw [htrace, hafter, hresponded, List.flatMap_append, List.append_assoc, ← ih, hnext]
    cases hanswered : s.answered rt op request with
    | none => rfl
    | some a =>
      rw [queue_answered hvalid (hpass request List.mem_cons_self) hanswered target, List.append_assoc]
      show _ = [a].flatMap (·.consumed target) ++ _
      rw [List.flatMap_singleton]
      rfl

variable (rt op) in
/-- **The mock replays what the SDK does exactly in the runs that take no retry the SDK refuses.** -/
theorem mock_keeps_iff (hvalid : op.Valid rt) (events : List (Event In V Ty))
    (hpass : ∀ request, .call request ∈ events → op.Passes request.input) :
    RunKeeps rt op events ↔ ∀ a ∈ State.trace rt op .new events, ¬ op.TakesInvalidRetry a := by
  constructor
  · rintro hkeeps a ha
    obtain ⟨before, after, hsplit⟩ := List.append_of_mem ha
    obtain ⟨t, request, hrequest, hanswered⟩ := mem_trace ha
    exact not_takesInvalidRetry hvalid (hpass request hrequest) hanswered (hkeeps.each before a after hsplit)
  · intro hok
    exact ⟨keeps_of_trace hvalid events [] .new memory_new hpass hok, fun target => queues_of_trace hvalid target events .new hpass⟩

/-! ## Samples -/

def scriptedSample : ScriptedOperation Unit Nat Unit := ⟨sampleDefinition, true, (), fun _ => ascii "Input", none, none⟩

def requestSample : Request Unit :=
  ⟨some ⟨ascii "order-1", ascii "step-1"⟩, ⟨ascii "gmail", ascii "work"⟩, (), [],
    ⟨⟨2026, 1, 2, 3, 4, 5, isDate_sample, isClock_sample⟩, 0, 0, Time.zero.inSecond⟩, Time.zero_offset, none⟩

def failureSample : Failure := ⟨ascii "RATE_LIMIT", [], [], ascii "slow down"⟩

/-- A call that is answered from the queue, and again from memory. -/
def answeredSample : List (Event Unit Nat Unit) :=
  [.test (.respond none [.branch (ascii "sent") 7 none]), .call requestSample, .call requestSample]

theorem sample_replayed : RunKeeps sampleRuntime scriptedSample answeredSample ↔
    ∀ a ∈ State.trace sampleRuntime scriptedSample .new answeredSample, ¬ scriptedSample.TakesInvalidRetry a :=
  mock_keeps_iff sampleRuntime scriptedSample rfl answeredSample (fun _ _ _ h => by cases h)

def refusedSample : List (Event Unit Nat Unit) :=
  [.test (.respond none [.retry failureSample (-1), .branch (ascii "sent") 7 none]), .call requestSample]

theorem refused_retry_recorded : ¬ RunKeeps sampleRuntime scriptedSample refusedSample := by
  intro h
  obtain ⟨recorded, hcalls, -, hretry⟩ := (h.each [] _ [] rfl).recorded
  have hflags : [true] = [recorded.isRetry] := congrArg (List.map Call.isRetry) hcalls
  obtain ⟨failure, hran | ⟨delay, hran⟩⟩ := hretry.1 (List.singleton_inj.1 hflags).symm
  · cases hran
  · cases hran

end Mock
end Dex
