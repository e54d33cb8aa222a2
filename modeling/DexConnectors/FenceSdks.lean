import Mathlib.Algebra.Group.Int.Defs
import Mathlib.Algebra.GroupWithZero.Nat
import DexConnectors.FenceModel
/-!
# FenceSdks — the dispatch decision of the three SDKs

`Fence.Decide` of `sdkgo/singledispatch/fence.go`, `decide_dispatch` of `sdkpython/.../singledispatch/markers.py` and
`decideDispatch` of `sdkts/src/singledispatch/index.ts` on one heartbeat value.  A heartbeat is absent or a JSON object
with the members of a marker; an absent `providerId` is `none`.

`isUUID` is what `uuid.UUID(text)` accepts and `isZodUUID` what `z.uuid()` accepts; nothing is assumed of them.  An
`attempt` outside the 32-bit range is an error of `encoding/json` into a Go `Marker`, one outside the safe integers is
refused by `z.number().int()`.
-/
namespace Dex
namespace SingleDispatch

/-- A heartbeat value of the marker's wire type. -/
structure WireMarker where
  callID     : String
  attempt    : Int
  state      : String
  providerID : Option String
  deriving DecidableEq, Repr

def stateOf (text : String) : DispatchState :=
  if text = "notSent" then .notSent else if text = "claimed" then .claimed
  else if text = "canResend" then .canResend else .other text

/-- One of the three declared states. -/
def DispatchState.isDeclared : DispatchState → Bool
  | .other _ => false
  | _ => true

/-- The marker that the members spell. -/
def WireMarker.marker (wire : WireMarker) : Marker :=
  ⟨wire.callID, wire.attempt, stateOf wire.state, wire.providerID.getD ""⟩

/-- A decision and the marker it exposes. -/
abbrev Exposed := DecisionKind × Option Marker

/-! ## Go -/

def isInt32 (n : Int) : Bool := -2 ^ 31 ≤ n && n < 2 ^ 31

/-- `GetLastHeartbeatValue(&previous)` of a JSON value. -/
def getLastHeartbeatValue : Option WireMarker → LastHeartbeat
  | none => .nothing
  | some wire =>
    if isInt32 wire.attempt then .value wire.marker
    else .error "json: cannot unmarshal number into Go struct field Marker.attempt of type int32"

/-- The exposed marker of a Go decision; the zero marker stands for none. -/
def Decision.exposed (decision : Decision) : Exposed :=
  (decision.kind, if decision.marker = Marker.zero then none else some decision.marker)

/-- `Decide` of a new fence. -/
def goDecide (callID : String) (attempt : Int) (heartbeat : Option WireMarker) : Exposed :=
  ((Fence.mk callID attempt 0 0 Decision.zero false false false false Marker.zero).decide
    (getLastHeartbeatValue heartbeat)).1.exposed

/-! ## Python -/

section

variable (isUUID isZodUUID : String → Bool)

/-- `Marker.from_wire`. -/
def fromWire (wire : WireMarker) : Option Marker :=
  if (stateOf wire.state).isDeclared && isUUID wire.callID && 1 ≤ wire.attempt then some wire.marker else none

/-- `decide_dispatch`; `none` is a `ValueError` about the call itself. -/
def decideDispatchPython (callID : String) (attempt : Int) (heartbeat : Option WireMarker) : Option Exposed :=
  if !isUUID callID then none
  else if attempt < 1 then none
  else match heartbeat with
    | none => some (if attempt = 1 then .sendAllowed else .readBackRequired, none)
    | some wire =>
      match fromWire isUUID wire with
      | none => some (.failClosed, none)
      | some marker =>
        if marker.callID ≠ callID then some (.failClosed, some marker)
        else if marker.attempt = attempt - 1 ∧ (marker.state = .notSent ∨ marker.state = .canResend) ∧
            marker.providerID = "" then some (.sendAllowed, some marker)
        else some (.readBackRequired, some marker)

/-! ## TypeScript -/

def maxSafeInteger : Int := 2 ^ 53 - 1

/-- `MarkerSchema.safeParse`. -/
def markerSchema (wire : WireMarker) : Option Marker :=
  if isZodUUID wire.callID && (1 ≤ wire.attempt && wire.attempt ≤ maxSafeInteger) && (stateOf wire.state).isDeclared &&
      wire.providerID != some "" then some wire.marker else none

/-- `decideDispatch` without a read error. -/
def decideDispatchTypeScript (callID : String) (attempt : Int) (heartbeat : Option WireMarker) : Exposed :=
  if !isZodUUID callID || attempt < 1 || maxSafeInteger < attempt then (.failClosed, none)
  else match heartbeat with
    | none => (if attempt = 1 then .sendAllowed else .readBackRequired, none)
    | some wire =>
      match markerSchema isZodUUID wire with
      | none => (.failClosed, none)
      | some marker =>
        if marker.callID ≠ callID then (.failClosed, none)
        else if marker.attempt = attempt - 1 ∧ (marker.state = .notSent ∨ marker.state = .canResend) ∧
            marker.providerID = "" then (.sendAllowed, some marker)
        else (.readBackRequired, some marker)

/-! ## Agreement -/

/-- **The three SDKs take the same decision**, and one about a marker of another call fails closed and exposes none. -/
def SameDecision (callID : String) (attempt : Int) (heartbeat : Option WireMarker) : Prop :=
  (decideDispatchPython isUUID callID attempt heartbeat = some (goDecide callID attempt heartbeat) ∧
    decideDispatchTypeScript isZodUUID callID attempt heartbeat = goDecide callID attempt heartbeat) ∧
  ∀ wire, heartbeat = some wire → wire.callID ≠ callID → goDecide callID attempt heartbeat = (.failClosed, none)

/-- A marker that Python decodes. -/
def WireMarker.isWellFormed (wire : WireMarker) : Bool :=
  (stateOf wire.state).isDeclared && isUUID wire.callID && 1 ≤ wire.attempt

/-- A marker that all three refuse without exposing it. -/
def WireMarker.IsRefused (callID : String) (wire : WireMarker) : Prop :=
  wire.isWellFormed isUUID = false ∧ (wire.callID ≠ callID ∨ isInt32 wire.attempt = false)

/-- A marker of the call that all three accept. -/
def WireMarker.IsAccepted (callID : String) (wire : WireMarker) : Prop :=
  wire.isWellFormed isUUID = true ∧ wire.callID = callID ∧ isInt32 wire.attempt = true ∧ wire.providerID ≠ some ""

end

section

variable {isUUID isZodUUID : String → Bool} {callID : String} {attempt : Int}

theorem goDecide_none : goDecide callID attempt none = (if attempt = 1 then .sendAllowed else .readBackRequired, none) := by
  by_cases h : attempt = 1
  · simp [goDecide, getLastHeartbeatValue, Fence.decide, Fence.decisionFor, Decision.exposed, h]
  · simp [goDecide, getLastHeartbeatValue, Fence.decide, Fence.decisionFor, Decision.exposed, h]

theorem goDecide_unreadable {wire : WireMarker} (h : isInt32 wire.attempt = false) :
    goDecide callID attempt (some wire) = (.failClosed, none) := by
  simp [goDecide, getLastHeartbeatValue, Fence.decide, Fence.decisionFor, Decision.exposed, h]

theorem goDecide_foreign {wire : WireMarker} (h : wire.callID ≠ callID) :
    goDecide callID attempt (some wire) = (.failClosed, none) := by
  by_cases h32 : isInt32 wire.attempt = true
  · simp [goDecide, getLastHeartbeatValue, Fence.decide, Fence.decisionFor, Decision.exposed, WireMarker.marker, h, h32]
  · exact goDecide_unreadable (by simpa using h32)

@[simp] theorem marker_callID (wire : WireMarker) : wire.marker.callID = wire.callID := rfl
@[simp] theorem marker_attempt (wire : WireMarker) : wire.marker.attempt = wire.attempt := rfl
@[simp] theorem marker_state (wire : WireMarker) : wire.marker.state = stateOf wire.state := rfl
@[simp] theorem marker_providerID (wire : WireMarker) : wire.marker.providerID = wire.providerID.getD "" := rfl

/-- What a sound marker of the call permits. -/
def WireMarker.permits (attempt : Int) (wire : WireMarker) : DecisionKind :=
  if wire.attempt = attempt - 1 ∧ (stateOf wire.state = .notSent ∨ stateOf wire.state = .canResend) ∧
    wire.providerID.getD "" = "" then .sendAllowed else .readBackRequired

/-- The marker of a call with a name is not the zero marker. -/
theorem marker_ne_zero {wire : WireMarker} (h : wire.callID ≠ "") : wire.marker ≠ Marker.zero := by
  intro heq
  exact h (congrArg Marker.callID heq)

theorem declared_iff (s : DispatchState) :
    s.isDeclared = true ↔ ¬ (s ≠ .notSent ∧ s ≠ .claimed ∧ s ≠ .canResend) := by
  cases s <;> simp [DispatchState.isDeclared]

/-- A readable marker of the call is exposed, whatever it says. -/
theorem goDecide_own {wire : WireMarker} (hcall : wire.callID = callID) (hne : callID ≠ "") (h32 : isInt32 wire.attempt = true) :
    goDecide callID attempt (some wire) =
      (if (stateOf wire.state).isDeclared = false ∨ wire.attempt < 1 then .failClosed else wire.permits attempt,
        some wire.marker) := by
  subst hcall
  have hzero := marker_ne_zero hne
  have hdeclared := declared_iff (stateOf wire.state)
  simp only [goDecide, getLastHeartbeatValue, h32, if_true, Fence.decide, Fence.decisionFor, marker_callID, marker_attempt,
    marker_state, marker_providerID, WireMarker.permits, ne_eq, not_true_eq_false, if_false, Bool.false_eq_true]
  by_cases hbad : (stateOf wire.state).isDeclared = false ∨ wire.attempt < 1
  · rw [if_pos hbad, if_pos]
    · simp [Decision.exposed, hzero]
    · rcases hbad with hbad | hbad
      · refine .inr (.inr ?_)
        by_contra hnot
        rw [hdeclared.2 hnot] at hbad
        cases hbad
      · exact .inr (.inl hbad)
  · rw [if_neg hbad, if_neg]
    · by_cases hsend : wire.attempt = attempt - 1 ∧ (stateOf wire.state = .notSent ∨ stateOf wire.state = .canResend) ∧
          wire.providerID.getD "" = ""
      · rw [if_pos hsend, if_pos ⟨trivial, hsend⟩]
        simp [Decision.exposed, hzero]
      · rw [if_neg hsend, if_neg (fun h => hsend h.2)]
        simp [Decision.exposed, hzero]
    · rw [not_or] at hbad
      rintro (h | h | h)
      · exact hne h
      · exact hbad.2 h
      · exact hdeclared.1 (by simpa using hbad.1) h

theorem python_some (hcall : isUUID callID = true) (hattempt : 1 ≤ attempt) (wire : WireMarker) :
    decideDispatchPython isUUID callID attempt (some wire) = some
      (if wire.isWellFormed isUUID = false then (.failClosed, none)
        else if wire.callID ≠ callID then (.failClosed, some wire.marker)
        else (wire.permits attempt, some wire.marker)) := by
  have hlt : ¬ attempt < 1 := by omega
  by_cases hwf : wire.isWellFormed isUUID = true
  · have hfrom : fromWire isUUID wire = some wire.marker := if_pos hwf
    simp only [decideDispatchPython, hcall, hlt, hfrom, hwf, Bool.not_true, Bool.false_eq_true, if_false, Bool.true_eq_false]
    by_cases hforeign : wire.marker.callID ≠ callID
    · rw [if_pos hforeign, if_pos (show wire.callID ≠ callID from hforeign)]
    · rw [if_neg hforeign, if_neg (show ¬ wire.callID ≠ callID from hforeign)]
      unfold WireMarker.permits
      split
      · rw [if_pos (by assumption)]
      · rw [if_neg (by assumption)]
  · have hfrom : fromWire isUUID wire = none := if_neg hwf
    simp only [decideDispatchPython, hcall, hlt, hfrom, hwf, Bool.not_true, Bool.false_eq_true, if_false, if_true]

theorem maxSafeInteger_eq : maxSafeInteger = 9007199254740991 := rfl

theorem typeScript_refused (h : isZodUUID callID = false) (heartbeat : Option WireMarker) :
    decideDispatchTypeScript isZodUUID callID attempt heartbeat = (.failClosed, none) := by
  simp [decideDispatchTypeScript, h]

/-- A marker that is malformed, of another call, or with an empty provider id is refused without being exposed. -/
theorem typeScript_unexposed (wire : WireMarker)
    (h : wire.callID ≠ callID ∨ (stateOf wire.state).isDeclared = false ∨ wire.attempt < 1 ∨ wire.providerID = some "") :
    decideDispatchTypeScript isZodUUID callID attempt (some wire) = (.failClosed, none) := by
  unfold decideDispatchTypeScript
  by_cases hself : (!isZodUUID callID || attempt < 1 || maxSafeInteger < attempt) = true
  · rw [if_pos hself]
  · rw [if_neg hself]
    cases hparse : markerSchema isZodUUID wire with
    | none => simp only [hparse]
    | some marker =>
      simp only [hparse]
      unfold markerSchema at hparse
      split at hparse
      · rename_i hgood
        cases hparse
        simp only [Bool.and_eq_true, decide_eq_true_eq, bne_iff_ne, ne_eq] at hgood
        rcases h with h | h | h | h
        · exact if_pos h
        · rw [hgood.1.2] at h
          cases h
        · omega
        · exact absurd h hgood.2
      · cases hparse

theorem typeScript_own {wire : WireMarker} (hcall : isZodUUID callID = true) (hattempt : 1 ≤ attempt) (hint : attempt < 2 ^ 31)
    (hown : wire.callID = callID) (hstate : (stateOf wire.state).isDeclared = true) (hpos : 1 ≤ wire.attempt)
    (h32 : isInt32 wire.attempt = true) (hprovider : wire.providerID ≠ some "") :
    decideDispatchTypeScript isZodUUID callID attempt (some wire) =
      (wire.permits attempt, some wire.marker) := by
  have hsafe : ¬ (!isZodUUID callID || attempt < 1 || maxSafeInteger < attempt) = true := by
    simp only [hcall, Bool.not_true, Bool.false_or, Bool.or_eq_true, decide_eq_true_eq]
    rw [maxSafeInteger_eq]
    omega
  have hparse : markerSchema isZodUUID wire = some wire.marker := by
    refine if_pos ?_
    simp only [isInt32, Bool.and_eq_true, decide_eq_true_eq] at h32
    simp only [hown, hcall, hstate, Bool.and_eq_true, decide_eq_true_eq, bne_iff_ne, ne_eq]
    exact ⟨⟨⟨trivial, hpos, by rw [maxSafeInteger_eq]; omega⟩, trivial⟩, hprovider⟩
  unfold decideDispatchTypeScript
  rw [if_neg hsafe]
  simp only [hparse]
  rw [if_neg (show ¬ wire.marker.callID ≠ callID from not_not.2 hown)]
  unfold WireMarker.permits
  split
  · rw [if_pos (by assumption)]
  · rw [if_neg (by assumption)]

theorem wellFormed_iff (wire : WireMarker) : wire.isWellFormed isUUID = true ↔
    (stateOf wire.state).isDeclared = true ∧ isUUID wire.callID = true ∧ 1 ≤ wire.attempt := by
  simp [WireMarker.isWellFormed, and_assoc]

/-- A heartbeat on which nothing is exposed. -/
theorem same_of_refused {wire : WireMarker} (hcall : isUUID callID = true) (hattempt : 1 ≤ attempt)
    (h : wire.IsRefused isUUID callID) : SameDecision isUUID isZodUUID callID attempt (some wire) := by
  obtain ⟨hwf, hcase⟩ := h
  have hgo : goDecide callID attempt (some wire) = (.failClosed, none) := by
    rcases hcase with hforeign | h32
    · exact goDecide_foreign hforeign
    · exact goDecide_unreadable h32
  refine ⟨⟨?_, ?_⟩, fun _ _ _ => hgo⟩
  · rw [hgo, python_some hcall hattempt, if_pos hwf]
  · rw [hgo]
    refine typeScript_unexposed wire ?_
    by_cases hforeign : wire.callID ≠ callID
    · exact .inl hforeign
    · have hnot := fun hgood => Bool.false_ne_true (hwf.symm.trans ((wellFormed_iff wire).2 hgood))
      by_cases hstate : (stateOf wire.state).isDeclared = true
      · refine .inr (.inr (.inl ?_))
        by_contra hpos
        exact hnot ⟨hstate, by rw [not_not.1 hforeign]; exact hcall, by omega⟩
      · exact .inr (.inl (by simpa using hstate))

/-- A heartbeat whose marker is exposed. -/
theorem same_of_accepted {wire : WireMarker} (hne : callID ≠ "") (hcall : isUUID callID = true)
    (hzod : isZodUUID callID = true) (hattempt : 1 ≤ attempt) (hint : attempt < 2 ^ 31)
    (h : wire.IsAccepted isUUID callID) : SameDecision isUUID isZodUUID callID attempt (some wire) := by
  obtain ⟨hwf, hown, h32, hprovider⟩ := h
  obtain ⟨hstate, -, hpos⟩ := (wellFormed_iff wire).1 hwf
  have hgo : goDecide callID attempt (some wire) = _ := goDecide_own hown hne h32
  have hgood : ¬ ((stateOf wire.state).isDeclared = false ∨ wire.attempt < 1) := by
    rw [hstate]
    rintro (h | h)
    · cases h
    · omega
  rw [if_neg hgood] at hgo
  refine ⟨⟨?_, ?_⟩, ?_⟩
  · rw [hgo, python_some hcall hattempt, if_neg (by rw [hwf]; decide), if_neg (not_not.2 hown)]
  · rw [hgo, typeScript_own hzod hattempt hint hown hstate hpos h32 hprovider]
  · rintro _ hw hforeign
    cases hw
    exact absurd hown hforeign

/-- A marker that is exposed by one SDK is exposed by all only if all accept it. -/
theorem accepted_of_same {wire : WireMarker} (hne : callID ≠ "") (hcall : isUUID callID = true) (hattempt : 1 ≤ attempt)
    (hrefused : ¬ wire.IsRefused isUUID callID) (h : SameDecision isUUID isZodUUID callID attempt (some wire)) :
    isZodUUID callID = true ∧ wire.IsAccepted isUUID callID := by
  obtain ⟨⟨hpython, htypeScript⟩, -⟩ := h
  rw [python_some hcall hattempt, Option.some.injEq] at hpython
  by_cases hwf : wire.isWellFormed isUUID = true
  · rw [if_neg (by rw [hwf]; decide)] at hpython
    -- Python exposes the marker, so Go has to
    have hown : wire.callID = callID := by
      by_contra hforeign
      rw [if_pos hforeign, goDecide_foreign hforeign] at hpython
      cases hpython
    rw [if_neg (not_not.2 hown)] at hpython
    have h32 : isInt32 wire.attempt = true := by
      by_contra h32
      rw [goDecide_unreadable (by simpa using h32)] at hpython
      exact absurd (congrArg Prod.snd hpython) (by simp)
    rw [← hpython] at htypeScript
    have hzod : isZodUUID callID = true := by
      by_contra hzod
      rw [typeScript_refused (by simpa using hzod)] at htypeScript
      exact absurd (congrArg Prod.snd htypeScript) (by simp)
    refine ⟨hzod, hwf, hown, h32, fun hprovider => ?_⟩
    rw [typeScript_unexposed wire (.inr (.inr (.inr hprovider)))] at htypeScript
    exact absurd (congrArg Prod.snd htypeScript) (by simp)
  · have hwf : wire.isWellFormed isUUID = false := by simpa using hwf
    rw [if_pos hwf] at hpython
    have hcase : wire.callID = callID ∧ isInt32 wire.attempt = true := by
      by_contra hcase
      refine hrefused ⟨hwf, ?_⟩
      by_cases hown : wire.callID = callID
      · exact .inr (by simpa [hown] using hcase)
      · exact .inl hown
    rw [goDecide_own hcase.1 hne hcase.2] at hpython
    exact absurd (congrArg Prod.snd hpython) (by simp)

/-- **Exactly when the three SDKs decide alike.** -/
theorem same_decision_iff (hne : callID ≠ "") (hattempt : 1 ≤ attempt) (hint : attempt < 2 ^ 31)
    (heartbeat : Option WireMarker) :
    SameDecision isUUID isZodUUID callID attempt heartbeat ↔
      isUUID callID = true ∧ ((∃ wire, heartbeat = some wire ∧ wire.IsRefused isUUID callID) ∨
        isZodUUID callID = true ∧ (heartbeat = none ∨ ∃ wire, heartbeat = some wire ∧ wire.IsAccepted isUUID callID)) := by
  by_cases hcall : isUUID callID = true
  · cases heartbeat with
    | none =>
      have hgo : goDecide callID attempt none = _ := goDecide_none
      have hpython : decideDispatchPython isUUID callID attempt none = some (goDecide callID attempt none) := by
        rw [hgo]
        simp [decideDispatchPython, hcall, show ¬ attempt < 1 by omega]
      by_cases hzod : isZodUUID callID = true
      · have htypeScript : decideDispatchTypeScript isZodUUID callID attempt none = goDecide callID attempt none := by
          rw [hgo]
          have hsafe : ¬ maxSafeInteger < attempt := by rw [maxSafeInteger_eq]; omega
          simp [decideDispatchTypeScript, hzod, hsafe, show ¬ attempt < 1 by omega]
        simp [SameDecision, hcall, hzod, hpython, htypeScript]
      · have hkind : goDecide callID attempt none ≠ (.failClosed, none) := by
          rw [hgo]
          split <;> simp
        simp [SameDecision, hcall, hzod, typeScript_refused (by simpa using hzod), Ne.symm hkind]
    | some wire =>
      by_cases hrefused : wire.IsRefused isUUID callID
      · exact ⟨fun _ => ⟨hcall, .inl ⟨wire, rfl, hrefused⟩⟩, fun _ => same_of_refused hcall hattempt hrefused⟩
      · constructor
        · intro h
          obtain ⟨hzod, haccepted⟩ := accepted_of_same hne hcall hattempt hrefused h
          exact ⟨hcall, .inr ⟨hzod, .inr ⟨wire, rfl, haccepted⟩⟩⟩
        · rintro ⟨-, ⟨_, hw, hr⟩ | ⟨hzod, hnone | ⟨_, hw, haccepted⟩⟩⟩
          · cases hw
            exact absurd hr hrefused
          · cases hnone
          · cases hw
            exact same_of_accepted hne hcall hzod hattempt hint haccepted
  · have hraises : decideDispatchPython isUUID callID attempt heartbeat = none := by simp [decideDispatchPython, hcall]
    constructor
    · rintro ⟨⟨hpython, -⟩, -⟩
      rw [hraises] at hpython
      cases hpython
    · exact fun h => absurd h.1 hcall

end

/-- A lower-case UUID of version five, as `derive_call_id` makes them. -/
def sampleCallID : String := "9f0d7c52-2b53-5b0e-8d54-0b6f6f2d7a11"

def otherCallID : String := "11111111-2222-5333-8444-555555555555"

def isSampleUUID (text : String) : Bool := text == sampleCallID || text == otherCallID

/-- The next attempt after a proven `notSent`. -/
theorem same_decision_iff_not_sent :
    SameDecision isSampleUUID isSampleUUID sampleCallID 2 (some ⟨sampleCallID, 1, "notSent", none⟩) :=
  (same_decision_iff (by decide) (by decide) (by decide) _).2
    ⟨by decide, .inr ⟨by decide, .inr ⟨_, rfl, by unfold WireMarker.IsAccepted; decide⟩⟩⟩

/-- Python exposes the claimed marker of another call, with its provider id. -/
theorem foreign_marker_exposed :
    ¬ SameDecision isSampleUUID isSampleUUID sampleCallID 2 (some ⟨otherCallID, 1, "claimed", some "msg_1"⟩) ∧
    decideDispatchPython isSampleUUID sampleCallID 2 (some ⟨otherCallID, 1, "claimed", some "msg_1"⟩) =
      some (.failClosed, some ⟨otherCallID, 1, .claimed, "msg_1"⟩) := by
  have hpython : decideDispatchPython isSampleUUID sampleCallID 2 (some ⟨otherCallID, 1, "claimed", some "msg_1"⟩) =
      some (.failClosed, some ⟨otherCallID, 1, .claimed, "msg_1"⟩) := by decide
  refine ⟨?_, hpython⟩
  rintro ⟨⟨h, -⟩, -⟩
  rw [hpython, goDecide_foreign (by decide)] at h
  cases h

end SingleDispatch
end Dex
