import DexConnectors.MockModel
/-!
# MockReplay — what a mock answers, records and replays over every run

A run is what a test does to a mock and the calls that it makes through `RunQuery` or `RunMutation`, in any order.  `Takes` says
which case a call is to get, in terms of the prefixes alone; the theorem compares every answer with it, with what the SDK
returned, and with what was answered before for the same key.
-/
namespace Dex
namespace Mock

open Lib Lib.Utf8 Operation

variable {In V Ty : Type} [DecidableEq Ty] [Inhabited V] (rt : Runtime) (op : ScriptedOperation In V Ty)

/-! ## Runs -/

/-- One `RunQuery` or `RunMutation`: when it is made, and what `appendToReport` returns if the mock is reached. -/
structure Request (In : Type) where
  ctx         : Option Context
  connection  : ConnectionRef
  input       : In
  options     : List RunOption
  now         : Time
  now_utc     : now.offset = 0
  reportError : Option Bytes

def Request.runtime (request : Request In) : Runtime := { rt with now := request.now, now_utc := request.now_utc }

/-- What the SDK returns for a request to a mock. -/
def State.run (s : State In V Ty) (request : Request In) : Except Stop (Result V) :=
  if op.isMutation then
    runMutation (request.runtime rt) request.ctx (some (s.mutation rt op)) request.connection request.input request.options
  else runQuery (request.runtime rt) request.ctx (some (s.query rt op)) request.connection request.input request.options

/-- The invocation of the mock, none where the SDK refuses the request before it. -/
def State.invocation (s : State In V Ty) (request : Request In) : Option (Invocation V) :=
  if op.isMutation then
    mutationInvocation (request.runtime rt) request.ctx (s.mutation rt op) request.connection request.input request.options
  else queryInvocation (request.runtime rt) request.ctx (s.query rt op) request.connection request.input request.options

omit [DecidableEq Ty] [Inhabited V] in
/-- The key that the mock is given: a query has none. -/
def ScriptedOperation.keyOf (call : Operation.Call) : Bytes := if op.isMutation then call.idempotencyKey else []

structure Answered (In V Ty : Type) where
  before  : State In V Ty
  after   : State In V Ty
  request : Request In
  call    : Operation.Call
  result  : Except Stop (Result V)

def State.answered (s : State In V Ty) (request : Request In) : Option (Answered In V Ty) :=
  match s.invocation rt op request with
  | some ⟨call, some _⟩ =>
    some ⟨s, (op.answer rt s call request.input (op.keyOf call) request.reportError).2, request, call, s.run rt op request⟩
  | _ => none

inductive Event (In V Ty : Type) where
  | test (act : Act In V Ty)
  | call (request : Request In)

def State.next (s : State In V Ty) : Event In V Ty → State In V Ty
  | .test act => op.act rt s act
  | .call request => ((s.answered rt op request).map (·.after)).getD s

def State.after (s : State In V Ty) (events : List (Event In V Ty)) : State In V Ty := events.foldl (State.next rt op) s

/-- The calls that a run answers, in order. -/
def State.trace (s : State In V Ty) : List (Event In V Ty) → List (Answered In V Ty)
  | [] => []
  | .test act :: rest => State.trace (s.next rt op (.test act)) rest
  | .call request :: rest => (s.answered rt op request).toList ++ State.trace (s.next rt op (.call request)) rest

/-! ## Which case a call gets -/

omit [DecidableEq Ty] [Inhabited V] in
def State.Applies (s : State In V Ty) (flowID : Bytes) : Option Bytes → Prop
  | none => True
  | some p => p ∈ s.prefixes ∧ p ≠ [] ∧ p <+: flowID

/-- Every prefix goes before the mock's own script. -/
def Longer : Option Bytes → Option Bytes → Prop
  | some p, some q => q.length < p.length
  | some _, none => True
  | none, _ => False

omit [DecidableEq Ty] [Inhabited V] in
def Script.HasCase (script : Script In V Ty) (input : In) : Prop :=
  (∃ rule ∈ script.rules, rule.matchesInput input = true) ∨ script.queue ≠ []

omit [DecidableEq Ty] [Inhabited V] in
/-- **The case a call takes**, none where it is unscripted, and the scripts that are left. -/
inductive Takes (s : State In V Ty) (flowID : Bytes) (input : In) :
    Option (Case In V Ty) → (Option Bytes → Script In V Ty) → Prop
  | rule (target : Option Bytes) (earlier later : List (Rule In V Ty)) (rule : Rule In V Ty) (happlies : s.Applies flowID target)
      (hlonger : ∀ t, s.Applies flowID t → Longer t target → ¬ (s.script t).HasCase input)
      (hrules : (s.script target).rules = earlier ++ rule :: later) (hearlier : ∀ r ∈ earlier, r.matchesInput input = false)
      (hmatches : rule.matchesInput input = true) : Takes s flowID input (some rule.response) s.script
  | queue (target : Option Bytes) (response : Case In V Ty) (rest : List (Case In V Ty)) (happlies : s.Applies flowID target)
      (hlonger : ∀ t, s.Applies flowID t → Longer t target → ¬ (s.script t).HasCase input)
      (hrules : ∀ r ∈ (s.script target).rules, r.matchesInput input = false)
      (hqueue : (s.script target).queue = response :: rest) :
      Takes s flowID input (some response) (Function.update s.script target { s.script target with queue := rest })
  | fallback (target : Option Bytes) (response : Case In V Ty) (happlies : s.Applies flowID target)
      (hnone : ∀ t, s.Applies flowID t → ¬ (s.script t).HasCase input) (hstrict : s.isStrict = false)
      (hlonger : ∀ t, s.Applies flowID t → Longer t target → (s.script t).defaults = [])
      (hdefault : (s.script target).defaults[min (s.script target).defaultCount ((s.script target).defaults.length - 1)]? =
        some response) :
      Takes s flowID input (some response)
        (Function.update s.script target { s.script target with defaultCount := (s.script target).defaultCount + 1 })
  | unscripted (hnone : ∀ t, s.Applies flowID t → ¬ (s.script t).HasCase input)
      (hdefaults : s.isStrict = true ∨ ∀ t, s.Applies flowID t → (s.script t).defaults = []) :
      Takes s flowID input none s.script

/-! ## The choice of the code -/

omit [DecidableEq Ty] [Inhabited V] in
theorem mem_scriptsFor (s : State In V Ty) (flowID : Bytes) (target : Option Bytes) :
    target ∈ s.scriptsFor flowID ↔ s.Applies flowID target := by
  unfold State.scriptsFor
  rw [List.mem_append, List.mem_singleton]
  cases target with
  | none => exact ⟨fun _ => trivial, fun _ => .inr rfl⟩
  | some p =>
    rw [List.mem_map_of_injective (Option.some_injective _), List.mem_insertionSort, List.mem_filter, Bool.and_eq_true, bne_iff_ne,
      List.isPrefixOf_iff_prefix]
    exact ⟨fun h => h.resolve_right (fun h => by cases h), .inl⟩

omit [DecidableEq Ty] [Inhabited V] in
/-- Two prefixes of one Flow ID that have one length are one prefix. -/
theorem pairwise_scriptsFor (s : State In V Ty) (flowID : Bytes) : (s.scriptsFor flowID).Pairwise Longer := by
  have hmem : ∀ target, target ∈ s.scriptsFor flowID → s.Applies flowID target := fun t => (mem_scriptsFor s flowID t).1
  unfold State.scriptsFor at hmem ⊢
  rw [List.pairwise_append]
  refine ⟨?_, List.pairwise_singleton _ _, ?_⟩
  · rw [List.pairwise_map]
    have hsorted := List.pairwise_insertionSort (r := fun left right : Bytes => right.length ≤ left.length)
      (s.prefixes.filter (fun p => p != [] && p.isPrefixOf flowID))
    have hdistinct := ((List.perm_insertionSort (r := fun left right : Bytes => right.length ≤ left.length)
      (s.prefixes.filter (fun p => p != [] && p.isPrefixOf flowID))).nodup_iff).2 (s.distinct.filter _)
    refine (hsorted.and hdistinct).imp_of_mem fun {left right} hl hr h => ?_
    have hleft := (hmem (some left) (List.mem_append_left _ (List.mem_map_of_mem hl))).2.2
    have hright := (hmem (some right) (List.mem_append_left _ (List.mem_map_of_mem hr))).2.2
    refine Nat.lt_of_le_of_ne h.1 fun heq => h.2 ?_
    exact (List.prefix_of_prefix_length_le hleft hright (Nat.le_of_eq heq.symm)).eq_of_length heq.symm
  · intro left hl right hr
    obtain ⟨p, -, rfl⟩ := List.mem_map.1 hl
    rw [List.mem_singleton.1 hr]
    trivial

theorem longer_asymm {left right : Option Bytes} (h : Longer left right) : ¬ Longer right left := by
  cases left with
  | none => exact h.elim
  | some p =>
    cases right with
    | none => exact id
    | some q => exact Nat.lt_asymm h

omit [DecidableEq Ty] [Inhabited V] in
theorem firstAnswer_eq_none {answers : Script In V Ty → Option (Case In V Ty × Script In V Ty)}
    {script : Option Bytes → Script In V Ty} : ∀ {targets : List (Option Bytes)},
    firstAnswer answers script targets = none ↔ ∀ t ∈ targets, answers (script t) = none
  | [] => ⟨fun _ t ht => by (cases ht), fun _ => rfl⟩
  | target :: rest => by
    unfold firstAnswer
    rw [List.forall_mem_cons, ← firstAnswer_eq_none]
    cases answers (script target) with
    | none => exact ⟨fun h => ⟨rfl, h⟩, And.right⟩
    | some answer => exact ⟨fun h => by (cases h), fun h => by (cases h.1)⟩

omit [DecidableEq Ty] [Inhabited V] in
/-- Of targets that go from longer to shorter, the one that answers is before every other that would. -/
theorem firstAnswer_eq_some {answers : Script In V Ty → Option (Case In V Ty × Script In V Ty)}
    {script left : Option Bytes → Script In V Ty} {response : Case In V Ty} : ∀ {targets : List (Option Bytes)},
    targets.Pairwise Longer → (firstAnswer answers script targets = some (response, left) ↔
      ∃ target ∈ targets, (∀ t ∈ targets, Longer t target → answers (script t) = none) ∧
        ∃ rest, answers (script target) = some (response, rest) ∧ left = Function.update script target rest)
  | [], _ => ⟨fun h => by (cases h), fun ⟨_, h, _⟩ => by cases h⟩
  | head :: targets, hpair => by
    obtain ⟨hhead, hrest⟩ := List.pairwise_cons.1 hpair
    unfold firstAnswer
    cases hanswer : answers (script head) with
    | some answer =>
      obtain ⟨given, rest⟩ := answer
      dsimp only
      constructor
      · intro h
        obtain ⟨rfl, rfl⟩ := Prod.mk.inj (Option.some.inj h)
        refine ⟨head, List.mem_cons_self, fun t ht hlonger => ?_, rest, hanswer, rfl⟩
        rcases List.mem_cons.1 ht with rfl | ht
        · exact absurd hlonger (longer_asymm hlonger)
        · exact absurd hlonger (longer_asymm (hhead t ht))
      · rintro ⟨target, ht, hbefore, rest', hgiven, rfl⟩
        rcases List.mem_cons.1 ht with rfl | ht
        · rw [hanswer] at hgiven
          obtain ⟨rfl, rfl⟩ := Prod.mk.inj (Option.some.inj hgiven)
          rfl
        · have hno := hbefore head List.mem_cons_self (hhead target ht)
          rw [hanswer] at hno
          cases hno
    | none =>
      dsimp only
      rw [firstAnswer_eq_some hrest]
      constructor
      · rintro ⟨target, ht, hbefore, hgives⟩
        refine ⟨target, List.mem_cons_of_mem _ ht, fun t htm hlonger => ?_, hgives⟩
        rcases List.mem_cons.1 htm with rfl | htm
        · exact hanswer
        · exact hbefore t htm hlonger
      · rintro ⟨target, ht, hbefore, rest, hgiven, hleft⟩
        rcases List.mem_cons.1 ht with rfl | ht
        · rw [hanswer] at hgiven
          cases hgiven
        · exact ⟨target, ht, fun t htm => hbefore t (List.mem_cons_of_mem _ htm), rest, hgiven, hleft⟩

omit [DecidableEq Ty] [Inhabited V] in
theorem scriptedCase_eq_none {script : Script In V Ty} {input : In} : script.scriptedCase input = none ↔ ¬ script.HasCase input := by
  unfold Script.scriptedCase Script.HasCase
  rw [← List.find?_isSome, not_or, Decidable.not_not]
  cases script.rules.find? (fun r => r.matchesInput input) with
  | some rule => exact ⟨fun h => by (cases h), fun h => absurd rfl h.1⟩
  | none =>
    cases script.queue with
    | nil => exact ⟨fun _ => ⟨Bool.false_ne_true, rfl⟩, fun _ => rfl⟩
    | cons next rest => exact ⟨fun h => by (cases h), fun h => by (cases h.2)⟩

omit [DecidableEq Ty] [Inhabited V] in
theorem defaultCase_eq_none {script : Script In V Ty} : script.defaultCase = none ↔ script.defaults = [] := by
  unfold Script.defaultCase
  cases h : script.defaults[min script.defaultCount (script.defaults.length - 1)]? with
  | some response =>
    refine ⟨fun hno => by (cases hno), fun hnil => ?_⟩
    rw [hnil] at h
    cases h
  | none =>
    have hlength := List.getElem?_eq_none_iff.1 h
    exact ⟨fun _ => List.length_eq_zero_iff.1 (by omega), fun _ => rfl⟩

omit [DecidableEq Ty] [Inhabited V] in
/-- The case that `resolveScriptedCase` resolves, and the scripts it leaves. -/
def State.take (s : State In V Ty) (flowID : Bytes) (input : In) : Option (Case In V Ty) × (Option Bytes → Script In V Ty) :=
  match (s.scriptedCase flowID input).or (s.defaultCase flowID) with
  | some (response, script) => (some response, script)
  | none => (none, s.script)

omit [DecidableEq Ty] [Inhabited V] in
theorem scriptedCase_none_iff {s : State In V Ty} {flowID : Bytes} {input : In} :
    s.scriptedCase flowID input = none ↔ ∀ t, s.Applies flowID t → ¬ (s.script t).HasCase input := by
  unfold State.scriptedCase
  rw [firstAnswer_eq_none]
  exact forall_congr' fun t => by rw [mem_scriptsFor, scriptedCase_eq_none]

omit [DecidableEq Ty] [Inhabited V] in
theorem defaultCase_none_iff {s : State In V Ty} {flowID : Bytes} :
    s.defaultCase flowID = none ↔ s.isStrict = true ∨ ∀ t, s.Applies flowID t → (s.script t).defaults = [] := by
  unfold State.defaultCase
  by_cases hstrict : s.isStrict = true
  · rw [if_pos hstrict]
    exact ⟨fun _ => .inl hstrict, fun _ => rfl⟩
  · rw [if_neg hstrict, firstAnswer_eq_none]
    have hdefaults : (∀ t ∈ s.scriptsFor flowID, (s.script t).defaultCase = none) ↔
        ∀ t, s.Applies flowID t → (s.script t).defaults = [] :=
      forall_congr' fun t => by rw [mem_scriptsFor, defaultCase_eq_none]
    exact ⟨fun h => .inr (hdefaults.1 h), fun h => hdefaults.2 (h.resolve_left hstrict)⟩

omit [DecidableEq Ty] [Inhabited V] in
theorem scriptedCase_some_iff {s : State In V Ty} {flowID : Bytes} {input : In} {response : Case In V Ty}
    {left : Option Bytes → Script In V Ty} : s.scriptedCase flowID input = some (response, left) ↔
      ∃ target, s.Applies flowID target ∧ (∀ t, s.Applies flowID t → Longer t target → ¬ (s.script t).HasCase input) ∧
        ∃ rest, (s.script target).scriptedCase input = some (response, rest) ∧ left = Function.update s.script target rest := by
  unfold State.scriptedCase
  rw [firstAnswer_eq_some (pairwise_scriptsFor s flowID)]
  simp only [mem_scriptsFor, scriptedCase_eq_none]

omit [DecidableEq Ty] [Inhabited V] in
theorem defaultCase_some_iff {s : State In V Ty} {flowID : Bytes} {response : Case In V Ty}
    {left : Option Bytes → Script In V Ty} : s.defaultCase flowID = some (response, left) ↔ s.isStrict = false ∧
      ∃ target, s.Applies flowID target ∧ (∀ t, s.Applies flowID t → Longer t target → (s.script t).defaults = []) ∧
        ∃ rest, (s.script target).defaultCase = some (response, rest) ∧ left = Function.update s.script target rest := by
  unfold State.defaultCase
  by_cases hstrict : s.isStrict = true
  · rw [if_pos hstrict]
    exact ⟨fun h => by (cases h), fun h => absurd (hstrict.symm.trans h.1) Bool.noConfusion⟩
  · rw [if_neg hstrict, firstAnswer_eq_some (pairwise_scriptsFor s flowID)]
    simp only [mem_scriptsFor, defaultCase_eq_none]
    exact (and_iff_right (Bool.not_eq_true _ ▸ hstrict)).symm

omit [DecidableEq Ty] [Inhabited V] in
/-- **The loops of the code choose the case that a call is to get**, and no other. -/
theorem takes_iff {s : State In V Ty} {flowID : Bytes} {input : In} {taken : Option (Case In V Ty)}
    {script : Option Bytes → Script In V Ty} : Takes s flowID input taken script ↔ s.take flowID input = (taken, script) := by
  unfold State.take
  constructor
  · rintro (⟨target, earlier, later, rule, happlies, hlonger, hrules, hearlier, hmatches⟩ |
      ⟨target, response, rest, happlies, hlonger, hrules, hqueue⟩ |
      ⟨target, response, happlies, hnone, hstrict, hlonger, hdefault⟩ | ⟨hnone, hdefaults⟩)
    · have hgives : (s.script target).scriptedCase input = some (rule.response, s.script target) := by
        have hfind : (s.script target).rules.find? (fun r => r.matchesInput input) = some rule :=
          List.find?_eq_some_iff_append.2 ⟨hmatches, earlier, later, hrules, fun r hr => by rw [hearlier r hr]; rfl⟩
        unfold Script.scriptedCase
        rw [hfind]
      rw [scriptedCase_some_iff.2 ⟨target, happlies, hlonger, _, hgives, (Function.update_eq_self _ _).symm⟩]
      rfl
    · have hgives : (s.script target).scriptedCase input = some (response, { s.script target with queue := rest }) := by
        have hfind : (s.script target).rules.find? (fun r => r.matchesInput input) = none :=
          List.find?_eq_none.2 fun r hr h => Bool.false_ne_true ((hrules r hr).symm.trans h)
        unfold Script.scriptedCase
        rw [hfind, hqueue]
      rw [scriptedCase_some_iff.2 ⟨target, happlies, hlonger, _, hgives, rfl⟩]
      rfl
    · have hgives : (s.script target).defaultCase =
          some (response, { s.script target with defaultCount := (s.script target).defaultCount + 1 }) := by
        unfold Script.defaultCase
        rw [hdefault]
      rw [scriptedCase_none_iff.2 hnone, defaultCase_some_iff.2 ⟨hstrict, target, happlies, hlonger, _, hgives, rfl⟩]
      rfl
    · rw [scriptedCase_none_iff.2 hnone, defaultCase_none_iff.2 hdefaults]
      rfl
  · intro h
    cases hscripted : s.scriptedCase flowID input with
    | some answer =>
      obtain ⟨response, left⟩ := answer
      rw [hscripted] at h
      obtain ⟨rfl, rfl⟩ := Prod.mk.inj h
      obtain ⟨target, happlies, hlonger, rest, hgives, rfl⟩ := scriptedCase_some_iff.1 hscripted
      unfold Script.scriptedCase at hgives
      cases hfind : (s.script target).rules.find? (fun r => r.matchesInput input) with
      | some rule =>
        rw [hfind] at hgives
        obtain ⟨rfl, rfl⟩ := Prod.mk.inj (Option.some.inj hgives)
        obtain ⟨hmatches, earlier, later, hrules, hearlier⟩ := List.find?_eq_some_iff_append.1 hfind
        rw [Function.update_eq_self]
        exact .rule target earlier later rule happlies hlonger hrules (fun r hr => Bool.not_inj (hearlier r hr)) hmatches
      | none =>
        rw [hfind] at hgives
        have hrules : ∀ r ∈ (s.script target).rules, r.matchesInput input = false :=
          fun r hr => Bool.not_eq_true _ ▸ List.find?_eq_none.1 hfind r hr
        cases hqueue : (s.script target).queue with
        | nil =>
          rw [hqueue] at hgives
          cases hgives
        | cons next queue =>
          rw [hqueue] at hgives
          obtain ⟨rfl, rfl⟩ := Prod.mk.inj (Option.some.inj hgives)
          exact .queue target _ queue happlies hlonger hrules hqueue
    | none =>
      rw [hscripted] at h
      have hnone := scriptedCase_none_iff.1 hscripted
      cases hdefault : s.defaultCase flowID with
      | some answer =>
        obtain ⟨response, left⟩ := answer
        rw [hdefault] at h
        obtain ⟨rfl, rfl⟩ := Prod.mk.inj h
        obtain ⟨hstrict, target, happlies, hlonger, rest, hgives, rfl⟩ := defaultCase_some_iff.1 hdefault
        unfold Script.defaultCase at hgives
        cases hfound : (s.script target).defaults[min (s.script target).defaultCount ((s.script target).defaults.length - 1)]? with
        | none =>
          rw [hfound] at hgives
          cases hgives
        | some given =>
          rw [hfound] at hgives
          obtain ⟨rfl, rfl⟩ := Prod.mk.inj (Option.some.inj hgives)
          exact .fallback target _ happlies hnone hstrict hlonger hfound
      | none =>
        rw [hdefault] at h
        obtain ⟨rfl, rfl⟩ := Prod.mk.inj h
        exact .unscripted hnone (defaultCase_none_iff.1 hdefault)

/-! ## What a run is to keep -/

def branchOf : Except Stop (Result V) → Bytes
  | .ok result => result.branch
  | .error _ => []

def IsRetryError (ran : Except Stop (Result V)) : Prop :=
  ∃ failure, ran = .error (.retry failure) ∨ ∃ delay, ran = .error (.retryAfter delay failure)

/-- The same result, but for the moment at which the SDK says it was observed. -/
def SameResult (first again : Result V) : Prop :=
  { again with receipt := { again.receipt with observedAt := first.receipt.observedAt } } = first

/-- What the SDK returns for an outcome of the mock. -/
def ScriptedOperation.sdkResult (rt : Runtime) (call : Operation.Call) (outcome : Outcome V) : Except Stop (Result V) :=
  if op.isMutation then mutationResult rt call op.definition outcome.mutationAttempt
  else queryResult rt call op.definition outcome.queryAttempt

/-- The outcome of a case, with the answer check. -/
def ScriptedOperation.outcomeOf (taken : Option (Case In V Ty)) (input : In) : Outcome V :=
  (op.checkAnswer rt
    (match taken with
      | some response => (op.resolveCase rt response input).1
      | none => op.defectCase (ascii "unscripted connector mock call")) input).1.outcome

/-- An earlier call with the key of a mutation got a terminal result. -/
def ScriptedOperation.Settled (earlier : List (Answered In V Ty)) (a : Answered In V Ty) (result : Result V) : Prop :=
  op.isMutation = true ∧ ∃ e ∈ earlier, e.call.idempotencyKey = a.call.idempotencyKey ∧ e.result = .ok result

/-- **What an answer is to keep**, after those that were given before it. -/
structure Keeps (earlier : List (Answered In V Ty)) (a : Answered In V Ty) : Prop where
  recorded : ∃ call, a.after.calls = a.before.calls ++ [call] ∧ call.branch = branchOf a.result ∧
    (call.isRetry = true ↔ IsRetryError a.result)
  replays : ∀ result, op.Settled earlier a result →
    (∃ again, a.result = .ok again ∧ SameResult result again) ∧ a.after.script = a.before.script
  takes : (∀ result, ¬ op.Settled earlier a result) → ∃ taken,
    Takes a.before a.call.context.flowID a.request.input taken a.after.script ∧
    a.result = op.sdkResult (a.request.runtime rt) a.call (op.outcomeOf rt taken a.request.input)

omit [DecidableEq Ty] [Inhabited V] in
/-- The cases that were queued in a script. -/
def responded (target : Option Bytes) (events : List (Event In V Ty)) : List (Case In V Ty) :=
  events.flatMap fun
    | .test (.respond t cases) => if t = target then cases else []
    | _ => []

omit [DecidableEq Ty] [Inhabited V] in
/-- The cases that an answer takes from the front of a queue. -/
def Answered.consumed (target : Option Bytes) (a : Answered In V Ty) : List (Case In V Ty) :=
  (a.before.script target).queue.take ((a.before.script target).queue.length - (a.after.script target).queue.length)

structure RunKeeps (events : List (Event In V Ty)) : Prop where
  each : ∀ earlier a later, State.trace rt op .new events = earlier ++ a :: later → Keeps rt op earlier a
  queues : ∀ target, responded target events =
    (State.trace rt op .new events).flatMap (·.consumed target) ++ ((State.after rt op .new events).script target).queue

/-! ## When it does -/

/-- A retry that the SDK refuses: its delay is negative, or its failure is invalid though it was completed. -/
def ScriptedOperation.InvalidRetry : Case In V Ty → Prop
  | .retry failure retryAfter => retryAfter < 0 ∨ (op.completeFailure failure).validate ≠ .ok ()
  | _ => False

omit [DecidableEq Ty] [Inhabited V] in
/-- What the mock remembers for a call. -/
def ScriptedOperation.remembered (s : State In V Ty) (call : Operation.Call) : Option (ResolvedCase V) :=
  if op.keyOf call = [] then none else s.terminalByKey (op.keyOf call)

def ScriptedOperation.TakesInvalidRetry (a : Answered In V Ty) : Prop :=
  op.remembered a.before a.call = none ∧ ∃ response script,
    Takes a.before a.call.context.flowID a.request.input (some response) script ∧ op.InvalidRetry response

end Mock
end Dex
