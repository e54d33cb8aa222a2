import DexConnectors.LibCharacters
import DexConnectors.OperationRouting
import DexConnectors.OperationPython
import DexConnectors.CallIdentity
/-!
# BranchReason — why a Step without a target fails (`sdkgo/step.go`, `sdkpython/.../sdk/steps.py`, `sdkts/src/step.ts`)

A result that selects an optional branch without a target fails its Flow, with a reason that quotes the failure message cut to
1024 bytes.  `OperationRouting` has the Go of it, over bytes; here are the Python over code points and the TypeScript over UTF-16
units, and one reason from the three.
-/
namespace Dex
namespace BranchReason

open Lib Lib.Utf8 Lib.Unicode Operation
open OperationPython (FailureKind)

def maxFailureMessageBytes : Nat := 1024

/-- What routing decides. -/
inductive Decision (S R Str : Type) where
  | goTo (target : S) (result : R)
  | forceFail (reason : Str)

variable {S R : Type}

/-! ## Python -/

namespace Python

abbrev Str := List Nat

def lit (text : String) : Str := codePoints text.toList

def kindValue : FailureKind → String
  | .validation => "VALIDATION"
  | .authentication => "AUTHENTICATION"
  | .authorization => "AUTHORIZATION"
  | .notFound => "NOT_FOUND"
  | .conflict => "CONFLICT"
  | .rateLimit => "RATE_LIMIT"
  | .quotaExhausted => "QUOTA_EXHAUSTED"
  | .availability => "AVAILABILITY"
  | .providerRejection => "PROVIDER_REJECTION"
  | .transport => "TRANSPORT"
  | .responseTooLarge => "RESPONSE_TOO_LARGE"
  | .protocol => "PROTOCOL"
  | .localDefect => "LOCAL_DEFECT"

structure Failure where
  kind    : FailureKind
  message : Str

structure Call where
  operation      : CallIdentity.Python.OperationRef
  connectionName : Str

inductive Raised where
  | unicodeEncodeError
  | valueError (text : Str)

/-- `bytes.decode("utf-8", errors="ignore")`. -/
def decodeIgnoring (bs : Bytes) : Str := codePoints (textOf (ignoreBroken bs))

/-- `_route_branch`; `repr` is that of strings. -/
def routeBranch (repr : Str → Str) (branches : List (Str × S)) (optional : Str → Bool) (branch : Str) (result : R)
    (failure : Option Failure) (call : Call) (kind : Str) : Except Raised (Decision S R Str) :=
  match branches.lookup branch with
  | some target => .ok (.goTo target result)
  | none =>
    if optional branch then
      let reason := call.operation.connectorID ++ lit " " ++ call.operation.operationID ++ lit " (connection " ++
        call.connectionName ++ lit ") selected branch " ++ branch ++ lit " with no target"
      match failure with
      | none => .ok (.forceFail reason)
      | some failure =>
        match encodeCodePoints failure.message with
        | none => .error .unicodeEncodeError
        | some encoded =>
          .ok (.forceFail (reason ++ lit ": " ++ lit (kindValue failure.kind) ++ lit ": " ++
            decodeIgnoring (encoded.take maxFailureMessageBytes) ++
            if maxFailureMessageBytes < encoded.length then lit " (truncated)" else []))
    else .error (.valueError (kind ++ lit " result selected unconfigured branch " ++ repr branch))

end Python

/-! ## TypeScript -/

namespace TypeScript

abbrev Str := List UInt16

def lit (text : String) : Str := utf16 text.toList

structure Failure where
  kind    : Str
  message : Str

structure StepIdentity where
  operation      : CallIdentity.TypeScript.OperationRef
  connectionName : Str

/-- `bytes.toString('utf8')`. -/
def toText (bs : Bytes) : Str := utf16 (textOf (decode bs))

/-- The loop of `boundedFailureMessage`. -/
def lastStart (bytes : Bytes) : Nat → Nat
  | 0 => 0
  | last + 1 => if bytes.getD (last + 1) 0 &&& 0xC0 = 0x80 then lastStart bytes last else last + 1

def boundedFailureMessage (message : Str) : Str :=
  let bytes := encodeUnits message
  if bytes.length ≤ maxFailureMessageBytes then message
  else toText (bytes.take (lastStart bytes maxFailureMessageBytes)) ++ lit " (truncated)"

/-- `routeBranch`; the error is a `TypeError`. -/
def routeBranch (targets : List (Str × S)) (optional : Str → Bool) (branch : Str) (result : R) (failure : Option Failure)
    (identity : StepIdentity) (operationKind : Str) : Except Str (Decision S R Str) :=
  match targets.lookup branch with
  | some target => .ok (.goTo target result)
  | none =>
    if optional branch then
      let reason := identity.operation.connectorID ++ lit " " ++ identity.operation.operationID ++ lit " (connection " ++
        identity.connectionName ++ lit ") selected branch " ++ branch ++ lit " with no target"
      match failure with
      | none => .ok (.forceFail reason)
      | some failure =>
        .ok (.forceFail (reason ++ lit ": " ++ failure.kind ++ lit ": " ++ boundedFailureMessage failure.message))
    else .error (operationKind ++ lit " result selected unconfigured branch " ++ branch)

end TypeScript

/-! ## The Go loop -/

theorem boundMessage_eq : ∀ (message : Bytes) (n : Nat) (bounded : Bytes), message.length ≤ n →
    bounded.length ≤ maxFailureMessageBytes →
    boundMessage n bounded message =
      (bounded ++ (fitting (maxFailureMessageBytes - bounded.length) (characters message)).flatten,
        decide (fitting (maxFailureMessageBytes - bounded.length) (characters message) ≠ characters message)) := by
  intro message
  have hmax : maxFailureMessageBytes = 1024 := rfl
  induction message using seqInduction with
  | nil =>
    intro n bounded _ _
    cases n <;> simp [boundMessage, fitting]
  | bad b rest hbad ih =>
    intro n bounded hn hbounded
    cases n with
    | zero => cases hn
    | succ n =>
      have hn : rest.length ≤ n := Nat.le_of_succ_le_succ hn
      rw [characters_bad hbad]
      unfold boundMessage fitting
      simp only [hbad, if_true, Nat.max_zero, List.drop_succ_cons, List.drop_zero]
      by_cases hfits : bounded.length + replacement.length > 1024
      · rw [if_pos hfits, if_neg (by omega)]
        simp
      · rw [if_neg hfits, if_pos (by omega),
          ih n (bounded ++ replacement) hn (by rw [List.length_append]; omega)]
        rw [List.length_append, Nat.sub_add_eq, List.flatten_cons, List.append_assoc]
        simp
  | good seq rest hseq ih =>
    intro n bounded hn hbounded
    have hlength := hseq.length_pos
    have hlen := seqLen_append hseq rest
    have htake : (seq ++ rest).take seq.length = seq := List.take_left
    have hdrop : (seq ++ rest).drop seq.length = rest := List.drop_left
    rw [List.length_append] at hn
    rw [characters_seq hseq]
    cases seq with
    | nil => cases hseq
    | cons b tail =>
      cases n with
      | zero => rw [List.length_cons] at hn; omega
      | succ n =>
        rw [List.length_cons] at hn
        rw [List.cons_append] at hlen htake hdrop ⊢
        unfold boundMessage fitting
        simp only [hlen, Nat.max_eq_right hlength, htake, hdrop]
        rw [if_neg (show ¬ (b :: tail).length = 0 by simp)]
        by_cases hfits : bounded.length + (b :: tail).length > 1024
        · rw [if_pos hfits, if_neg (by omega)]
          simp
        · rw [if_neg hfits, if_pos (by omega),
            ih n (bounded ++ b :: tail) (by omega) (by rw [List.length_append]; omega)]
          rw [List.length_append, Nat.sub_add_eq, List.flatten_cons, List.append_assoc]
          simp

/-- **What `boundedFailureMessage` keeps.** -/
theorem boundedFailureMessage_eq (message : Bytes) : boundedFailureMessage message =
    ((fitting maxFailureMessageBytes (characters message)).flatten,
      decide (fitting maxFailureMessageBytes (characters message) ≠ characters message)) := by
  unfold boundedFailureMessage
  split
  next hwhole =>
    have hflatten := (characters_spec message).2
    rw [(repair_eq_iff message).2 hwhole.2] at hflatten
    have hall := @fitting_all maxFailureMessageBytes (characters message) (by rw [hflatten]; exact hwhole.1)
    rw [hall, hflatten]
    simp
  · rw [boundMessage_eq message message.length [] (Nat.le_refl _) (Nat.zero_le _)]
    rfl

/-- **A failure message is bounded**: what is kept is valid, it is the longest prefix in whole characters that fits, each invalid
byte replaced, and it is marked exactly when something was cut. -/
structure Bounded (message : Bytes) : Prop where
  valid     : isValid (boundedFailureMessage message).1 = true
  fits      : (boundedFailureMessage message).1.length ≤ 1024
  longest   : ∃ kept, LongestFit 1024 (characters message) kept ∧ (boundedFailureMessage message).1 = kept.flatten
  truncated : (boundedFailureMessage message).2 = true ↔ (boundedFailureMessage message).1 ≠ repair message

theorem bounded_message (message : Bytes) : Bounded message := by
  obtain ⟨hseq, hflatten⟩ := characters_spec message
  have hkept := prefix_fitting maxFailureMessageBytes (characters message)
  refine ⟨?_, ?_, ⟨fitting maxFailureMessageBytes (characters message), fitting_longest _ _, ?_⟩, ?_⟩
  · rw [boundedFailureMessage_eq]
    exact isValid_flatten fun c hc => hseq c (hkept.mem hc)
  · rw [boundedFailureMessage_eq]
    exact length_fitting maxFailureMessageBytes (characters message)
  · rw [boundedFailureMessage_eq]
  · rw [boundedFailureMessage_eq, decide_eq_true_eq, ← hflatten, not_iff_not]
    refine ⟨fun h => congrArg List.flatten h, fun h => ?_⟩
    exact (fitting_all (Nat.le_trans (Nat.le_of_eq (congrArg List.length h.symm)) (length_fitting _ _)))

/-! ## One text -/

/-- The part of a message that is quoted. -/
def quoted (message : List Char) : List Char :=
  message.take (fitting maxFailureMessageBytes (message.map (fun c => Json.encodeRune c.toNat))).length

theorem utf8_eq_flatten (message : List Char) : utf8 message = (message.map (fun c => Json.encodeRune c.toNat)).flatten := rfl

theorem encodeRune_seq (message : List Char) : ∀ c ∈ message.map (fun c => Json.encodeRune c.toNat), Seq c := by
  intro c hc
  obtain ⟨d, -, rfl⟩ := List.mem_map.1 hc
  exact seq_encodeRune (toNat_scalar d)

theorem fitting_quoted (message : List Char) :
    (fitting maxFailureMessageBytes (message.map (fun c => Json.encodeRune c.toNat))).flatten = utf8 (quoted message) := by
  have hprefix := prefix_fitting maxFailureMessageBytes (message.map (fun c => Json.encodeRune c.toNat))
  rw [utf8_eq_flatten, quoted, List.map_take]
  exact congrArg List.flatten (List.prefix_iff_eq_take.1 hprefix)

theorem go_bounded (message : List Char) :
    boundedFailureMessage (utf8 message) = (utf8 (quoted message), decide (maxFailureMessageBytes < (utf8 message).length)) := by
  rw [boundedFailureMessage_eq, characters_utf8, fitting_quoted, Prod.mk.injEq]
  refine ⟨rfl, decide_eq_decide.2 ⟨fun hcut => ?_, fun hlong hall => ?_⟩⟩
  · by_contra hlong
    have hshort := Nat.not_lt.1 hlong
    rw [utf8_eq_flatten] at hshort
    exact hcut (fitting_all hshort)
  · have hfits := length_fitting maxFailureMessageBytes (message.map (fun c => Json.encodeRune c.toNat))
    rw [hall, ← utf8_eq_flatten] at hfits
    exact absurd hlong (Nat.not_lt.2 hfits)

theorem python_bounded (message : List Char) :
    Python.decodeIgnoring ((utf8 message).take maxFailureMessageBytes) = codePoints (quoted message) := by
  unfold Python.decodeIgnoring
  rw [utf8_eq_flatten, ignoreBroken_cut (encodeRune_seq message), fitting_quoted, textOf_utf8]

theorem lastStart_eq (bytes : Bytes) : ∀ last, TypeScript.lastStart bytes last = walkBack bytes last
  | 0 => rfl
  | last + 1 => by
    have hmask : ∀ b : UInt8, b &&& 0xC0 = 0x80 ↔ isTail b = true := forall_byte (by decide)
    unfold TypeScript.lastStart walkBack
    rw [lastStart_eq bytes last]
    exact if_congr (hmask _) rfl rfl

theorem typeScript_bounded (message : List Char) : TypeScript.boundedFailureMessage (utf16 message) =
    utf16 (quoted message) ++ if maxFailureMessageBytes < (utf8 message).length then TypeScript.lit " (truncated)" else [] := by
  unfold TypeScript.boundedFailureMessage
  rw [encodeUnits_utf16]
  by_cases hlong : maxFailureMessageBytes < (utf8 message).length
  · have hback := walkBack_flatten (encodeRune_seq message) hlong
    have hcut : (utf8 message).take (utf8 (quoted message)).length = utf8 (quoted message) := by
      have hprefix : utf8 (quoted message) <+: utf8 message := by
        obtain ⟨rest, hrest⟩ := List.take_prefix
          (fitting maxFailureMessageBytes (message.map (fun c => Json.encodeRune c.toNat))).length message
        refine ⟨utf8 rest, ?_⟩
        conv => rhs; rw [← hrest]
        exact List.flatMap_append.symm
      exact (List.prefix_iff_eq_take.1 hprefix).symm
    dsimp only
    rw [if_neg (Nat.not_le.2 hlong), if_pos hlong, lastStart_eq, utf8_eq_flatten message, hback, fitting_quoted, ← utf8_eq_flatten, hcut]
    unfold TypeScript.toText
    rw [decode_of_isValid _ (isValid_utf8 _), textOf_utf8]
  · have hshort := Nat.not_lt.1 hlong
    rw [utf8_eq_flatten] at hshort
    have hall := fitting_all hshort
    dsimp only
    rw [if_pos (Nat.not_lt.1 hlong), if_neg hlong, List.append_nil, quoted, hall, List.length_map, List.take_length]

/-- What is told of a Step, as a text. -/
structure Told where
  connectorID    : List Char
  operationID    : List Char
  connectionName : List Char
  branch         : List Char
  failure        : Option (FailureKind × List Char)

def kindText (kind : FailureKind) : List Char := (Python.kindValue kind).toList

/-- The reason, whichever SDK gives it. -/
def Told.reason (t : Told) : List Char :=
  t.connectorID ++ " ".toList ++ t.operationID ++ " (connection ".toList ++ t.connectionName ++ ") selected branch ".toList ++
    t.branch ++ " with no target".toList ++
    match t.failure with
    | none => []
    | some (kind, message) => ": ".toList ++ kindText kind ++ ": ".toList ++ quoted message ++
      if maxFailureMessageBytes < (utf8 message).length then " (truncated)".toList else []

def Told.goIdentity (t : Told) (provider : Bytes) : StepIdentity :=
  ⟨⟨utf8 t.connectorID, utf8 t.operationID⟩, ⟨provider, utf8 t.connectionName⟩⟩

def Told.goFailure (t : Told) (provider operation : Bytes) : Option Operation.Failure :=
  t.failure.map (fun f => ⟨utf8 (kindText f.1), provider, operation, utf8 f.2⟩)

def Told.pythonCall (t : Told) : Python.Call :=
  ⟨⟨codePoints t.connectorID, codePoints t.operationID⟩, codePoints t.connectionName⟩

def Told.pythonFailure (t : Told) : Option Python.Failure := t.failure.map (fun f => ⟨f.1, codePoints f.2⟩)

def Told.typeScriptIdentity (t : Told) : TypeScript.StepIdentity :=
  ⟨⟨utf16 t.connectorID, utf16 t.operationID⟩, utf16 t.connectionName⟩

def Told.typeScriptFailure (t : Told) : Option TypeScript.Failure := t.failure.map (fun f => ⟨utf16 (kindText f.1), utf16 f.2⟩)

theorem utf8_append (a b : List Char) : utf8 (a ++ b) = utf8 a ++ utf8 b := List.flatMap_append

theorem utf16_append (a b : List Char) : utf16 (a ++ b) = utf16 a ++ utf16 b := List.flatMap_append

theorem codePoints_append (a b : List Char) : codePoints (a ++ b) = codePoints a ++ codePoints b := List.map_append

theorem go_reason (t : Told) (provider failureProvider operation : Bytes) :
    unwiredBranchFailureReason (t.goIdentity provider) (utf8 t.branch) (t.goFailure failureProvider operation) = utf8 t.reason := by
  have h1 : ascii " " = utf8 " ".toList := by decide
  have h2 : ascii " (connection " = utf8 " (connection ".toList := by decide
  have h3 : ascii ") selected branch " = utf8 ") selected branch ".toList := by decide
  have h4 : ascii " with no target" = utf8 " with no target".toList := by decide
  have h5 : ascii ": " = utf8 ": ".toList := by decide
  have h6 : ascii " (truncated)" = utf8 " (truncated)".toList := by decide
  unfold unwiredBranchFailureReason Told.reason Told.goFailure Told.goIdentity
  cases t.failure with
  | none => simp only [Option.map_none, h1, h2, h3, h4, utf8_append, List.append_nil]
  | some f =>
    simp only [Option.map_some, h1, h2, h3, h4, h5, h6, utf8_append, go_bounded, decide_eq_true_eq, List.append_assoc]
    split
    · rfl
    · rfl

theorem python_reason (t : Told) (repr : Python.Str → Python.Str) (branches : List (Python.Str × S))
    (optional : Python.Str → Bool) (result : R) (kind : Python.Str) (hnone : branches.lookup (codePoints t.branch) = none)
    (hoptional : optional (codePoints t.branch) = true) :
    Python.routeBranch repr branches optional (codePoints t.branch) result t.pythonFailure t.pythonCall kind =
      .ok (.forceFail (codePoints t.reason)) := by
  unfold Python.routeBranch Told.reason Told.pythonFailure Told.pythonCall
  rw [hnone]
  simp only [hoptional, if_true]
  cases t.failure with
  | none => simp only [Option.map_none, Python.lit, codePoints_append, List.append_nil]
  | some f =>
    simp only [Option.map_some, encodeCodePoints_codePoints, python_bounded, Python.lit, codePoints_append, kindText,
      List.append_assoc]
    split
    · rfl
    · rfl

theorem typeScript_reason (t : Told) (targets : List (TypeScript.Str × S)) (optional : TypeScript.Str → Bool) (result : R)
    (operationKind : TypeScript.Str) (hnone : targets.lookup (utf16 t.branch) = none) (hoptional : optional (utf16 t.branch) = true) :
    TypeScript.routeBranch targets optional (utf16 t.branch) result t.typeScriptFailure t.typeScriptIdentity operationKind =
      .ok (.forceFail (utf16 t.reason)) := by
  unfold TypeScript.routeBranch Told.reason Told.typeScriptFailure Told.typeScriptIdentity
  rw [hnone]
  simp only [hoptional, if_true]
  cases t.failure with
  | none => simp only [Option.map_none, TypeScript.lit, utf16_append, List.append_nil]
  | some f =>
    simp only [Option.map_some, typeScript_bounded, TypeScript.lit, utf16_append, List.append_assoc]
    split
    · rfl
    · rfl

/-- **The reason of an unwired branch is bounded, and the same in every SDK**, for a branch that is optional and has no target. -/
theorem unwired_reasons_agree (message : Bytes) (t : Told) {V : Type} (rt : Runtime)
    (goBranches : List (Bytes × Target S)) (pythonBranches : List (Python.Str × S)) (targets : List (TypeScript.Str × S))
    (goOptional : Bytes → Bool) (pythonOptional : Python.Str → Bool) (typeScriptOptional : TypeScript.Str → Bool)
    (goResult : Result V) (result : R) (provider failureProvider operation goKind : Bytes) (repr : Python.Str → Python.Str)
    (pythonKind : Python.Str) (typeScriptKind : TypeScript.Str)
    (hgo : (targetOf goBranches (utf8 t.branch)).isNil = true ∧ goOptional (utf8 t.branch) = true)
    (hpython : pythonBranches.lookup (codePoints t.branch) = none ∧ pythonOptional (codePoints t.branch) = true)
    (htypeScript : targets.lookup (utf16 t.branch) = none ∧ typeScriptOptional (utf16 t.branch) = true) :
    Bounded message ∧ ∃ reason : List Char,
      routeBranch rt goBranches goOptional (utf8 t.branch) goResult (t.goFailure failureProvider operation) (t.goIdentity provider)
        goKind = .ok (.forceFail (utf8 reason)) ∧
      Python.routeBranch repr pythonBranches pythonOptional (codePoints t.branch) result t.pythonFailure t.pythonCall pythonKind =
        .ok (.forceFail (codePoints reason)) ∧
      TypeScript.routeBranch targets typeScriptOptional (utf16 t.branch) result t.typeScriptFailure t.typeScriptIdentity
        typeScriptKind = .ok (.forceFail (utf16 reason)) := by
  refine ⟨bounded_message message, t.reason, ?_, python_reason t repr _ _ _ _ hpython.1 hpython.2,
    typeScript_reason t _ _ _ _ htypeScript.1 htypeScript.2⟩
  unfold routeBranch
  rw [hgo.1, hgo.2, go_reason]
  rfl

def sampleTold : Told :=
  ⟨"stripe".toList, "chargeCard".toList, "main".toList, "declined".toList, some (.providerRejection, "card declined é".toList)⟩

theorem unwired_reasons_agree_sample : Bounded [0x61, 0xFF] ∧ ∃ reason : List Char,
    routeBranch Operation.sampleRuntime ([] : List (Bytes × Target Unit)) (fun _ => true) (utf8 sampleTold.branch)
      (⟨[], (), .empty, none⟩ : Result Unit) (sampleTold.goFailure [] []) (sampleTold.goIdentity []) [] =
        .ok (.forceFail (utf8 reason)) ∧
    Python.routeBranch id ([] : List (Python.Str × Unit)) (fun _ => true) (codePoints sampleTold.branch) () sampleTold.pythonFailure
      sampleTold.pythonCall [] = .ok (.forceFail (codePoints reason)) ∧
    TypeScript.routeBranch ([] : List (TypeScript.Str × Unit)) (fun _ => true) (utf16 sampleTold.branch) ()
      sampleTold.typeScriptFailure sampleTold.typeScriptIdentity [] = .ok (.forceFail (utf16 reason)) :=
  unwired_reasons_agree [0x61, 0xFF] sampleTold Operation.sampleRuntime [] [] [] (fun _ => true) (fun _ => true) (fun _ => true)
    ⟨[], (), .empty, none⟩ () [] [] [] [] id [] [] ⟨rfl, rfl⟩ ⟨rfl, rfl⟩ ⟨rfl, rfl⟩

end BranchReason
end Dex
