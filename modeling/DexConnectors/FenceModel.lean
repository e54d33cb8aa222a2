import Mathlib.Data.List.Basic
/-!
# FenceModel — the Go single-dispatch fence (`sdkgo/singledispatch/fence.go`)

One `Fence` per Step call and attempt.  Its locked sections are functions here: each takes the fence before the section
and what the outside answered inside it (the last heartbeat, the clock, whether a heartbeat write failed and whether it
was stored) and returns the fence after it.  `fence.mu` makes a locked section one step; `send` runs outside the lock,
so a `Dispatch` call is two sections with the provider request between them.

A marker's state text other than the three of `fence.go` decodes to `DispatchState.other`, and an absent `providerId` to
the empty string.  `Decide` reads the heartbeat once and keeps its decision; `record` keeps a marker only when its
heartbeat reported no error.

`Step` runs any number of attempts of one Call ID against one heartbeat history.  Attempts may overlap: a later attempt
starts whether or not the earlier ones have stopped.
-/
namespace Dex
namespace SingleDispatch

inductive DispatchState where
  | notSent
  | claimed
  | canResend
  | other (text : String)
  deriving DecidableEq, Repr

structure Marker where
  callID     : String
  attempt    : Int
  state      : DispatchState
  providerID : String
  deriving DecidableEq, Repr

def Marker.zero : Marker := ⟨"", 0, .other "", ""⟩

inductive DecisionKind where
  | unset
  | sendAllowed
  | readBackRequired
  | failClosed
  deriving DecidableEq, Repr

structure Decision where
  kind   : DecisionKind
  marker : Marker
  err    : Option String
  deriving DecidableEq, Repr

def Decision.zero : Decision := ⟨.unset, Marker.zero, none⟩

/-- The errors of `fence.go`; `joined` is `errors.Join` of one of them with a heartbeat error. -/
inductive FenceError where
  | dispatchNotAllowed
  | insufficientTime
  | checkpoint
  | heartbeat
  | joined (first second : FenceError)
  deriving DecidableEq, Repr

/-- The fields `NewFence` fixes and the fields the mutex guards.  `call` contributes its ID and its attempt. -/
structure Fence where
  callID             : String
  attempt            : Int
  writeDeadline      : Int
  minimumRequestTime : Int
  decision           : Decision := Decision.zero
  hasDecision        : Bool := false
  hasDispatched      : Bool := false
  hasSendFinished    : Bool := false
  hasPreSendRetry    : Bool := false
  marker             : Marker := Marker.zero
  deriving DecidableEq, Repr

/-- What one `RecordHeartbeat` did: an error says nothing about whether the value was stored. -/
inductive Recorded where
  | ok
  | failedStored
  | failedLost
  deriving DecidableEq, Repr

inductive LastHeartbeat where
  | error (text : String)
  | nothing
  | value (marker : Marker)
  deriving DecidableEq, Repr

def Fence.own (fence : Fence) (state : DispatchState) (providerID : String) : Marker :=
  ⟨fence.callID, fence.attempt, state, providerID⟩

def Fence.decisionFor (fence : Fence) : LastHeartbeat → Decision
  | .error text => ⟨.failClosed, Marker.zero, some text⟩
  | .nothing =>
    if fence.attempt = 1 then ⟨.sendAllowed, Marker.zero, none⟩ else ⟨.readBackRequired, Marker.zero, none⟩
  | .value previous =>
    if previous.callID ≠ fence.callID then ⟨.failClosed, Marker.zero, some "foreign single-dispatch checkpoint"⟩
    else if previous.callID = "" ∨ previous.attempt < 1 ∨
        (previous.state ≠ .notSent ∧ previous.state ≠ .claimed ∧ previous.state ≠ .canResend) then
      ⟨.failClosed, previous, some "invalid single-dispatch checkpoint"⟩
    else if previous.callID = fence.callID ∧ previous.attempt = fence.attempt - 1 ∧
        (previous.state = .notSent ∨ previous.state = .canResend) ∧ previous.providerID = "" then
      ⟨.sendAllowed, previous, none⟩
    else ⟨.readBackRequired, previous, none⟩

def Fence.decide (fence : Fence) (last : LastHeartbeat) : Decision × Fence :=
  if fence.hasDecision then (fence.decision, fence)
  else
    let decision := fence.decisionFor last
    (decision, { fence with hasDecision := true, decision := decision })

def Fence.record (fence : Fence) (marker : Marker) : Recorded → Option FenceError × Fence
  | .ok => (none, { fence with marker := marker })
  | .failedStored | .failedLost => (some .heartbeat, fence)

inductive DispatchEntry where
  | notAllowed
  | insufficientTime   -- the call goes on to `RecordNotSent`
  | checkpointFailed
  | claimed            -- the call goes on to `send`
  deriving DecidableEq, Repr

/-- The error `Dispatch` returns from its entry, given what `RecordNotSent` returned on a short budget; after the claim
it returns the error of `send`. -/
def DispatchEntry.error (recordedNotSent : Option FenceError) : DispatchEntry → Option FenceError
  | .notAllowed       => some .dispatchNotAllowed
  | .insufficientTime => match recordedNotSent with
    | none     => some .insufficientTime
    | some err => some (.joined .insufficientTime err)
  | .checkpointFailed => some (.joined .checkpoint .heartbeat)
  | .claimed          => none

/-- The first locked section of `Dispatch`, with the clock reading and the outcomes of the claim heartbeat and of the
best-effort `notSent` heartbeat after a failed claim (`send` is not nil). -/
def Fence.enterDispatch (fence : Fence) (now : Int) (claim notSent : Recorded) : DispatchEntry × Fence :=
  if !fence.hasDecision || fence.decision.kind ≠ .sendAllowed || fence.hasDispatched || fence.hasPreSendRetry then
    (.notAllowed, fence)
  else if fence.minimumRequestTime ≤ 0 ∨ fence.writeDeadline - now < fence.minimumRequestTime then
    (.insufficientTime, fence)
  else
    let dispatched := { fence with hasDispatched := true }
    match dispatched.record (fence.own .claimed "") claim with
    | (none, recorded) => (.claimed, recorded)
    | (some _, failed) =>
      (.checkpointFailed, ({ failed with hasPreSendRetry := true }.record (fence.own .notSent "") notSent).2)

def Fence.finishSend (fence : Fence) : Fence := { fence with hasSendFinished := true }

def Fence.recordNotSent (fence : Fence) (written : Recorded) : Option FenceError × Fence :=
  if !fence.hasDecision || fence.decision.kind ≠ .sendAllowed || fence.hasDispatched || fence.hasPreSendRetry then
    (some .dispatchNotAllowed, fence)
  else { fence with hasPreSendRetry := true }.record (fence.own .notSent "") written

def Fence.canRecordCanResend (fence : Fence) : Bool :=
  fence.hasSendFinished && fence.marker.state == .claimed && fence.marker.providerID == ""

def Fence.recordCanResend (fence : Fence) (written : Recorded) : Option FenceError × Fence :=
  if fence.canRecordCanResend then fence.record (fence.own .canResend "") written
  else (some .dispatchNotAllowed, fence)

def Fence.canRecordProviderID (fence : Fence) (providerID : String) : Bool :=
  fence.hasSendFinished && fence.marker.state == .claimed && providerID != ""

def Fence.recordProviderID (fence : Fence) (providerID : String) (written : Recorded) : Option FenceError × Fence :=
  if fence.canRecordProviderID providerID then fence.record (fence.own .claimed providerID) written
  else (some .dispatchNotAllowed, fence)

/-! ## Attempts of one call -/

/-- One attempt: its fence and the `Dispatch` calls and claim repeaters in flight on it. -/
structure Attempt where
  fence     : Fence
  waiting   : Nat := 0      -- `Dispatch` calls that recorded the claim and have not invoked `send`
  sending   : Nat := 0      -- `Dispatch` calls inside `send`
  repeaters : Nat := 0      -- running `repeatClaim` goroutines
  crashed   : Bool := false

inductive Event where
  | stored (marker : Marker)     -- a marker reached the heartbeat history
  | recorded (marker : Marker)   -- `RecordHeartbeat` of the marker returned no error
  | sent (attempt : Int)         -- the attempt invoked `send`
  deriving DecidableEq, Repr

structure World where
  attempts : Int → Option Attempt
  log      : List Event

def World.init : World := ⟨fun _ => none, []⟩

def World.put (w : World) (k : Int) (attempt : Attempt) (events : List Event) : World :=
  ⟨fun j => if j = k then some attempt else w.attempts j, w.log ++ events⟩

def heartbeatEvents (marker : Marker) : Recorded → List Event
  | .ok           => [.stored marker, .recorded marker]
  | .failedStored => [.stored marker]
  | .failedLost   => []

def enterEvents (fence : Fence) (claim notSent : Recorded) : DispatchEntry → List Event
  | .notAllowed | .insufficientTime => []
  | .claimed => heartbeatEvents (fence.own .claimed "") claim
  | .checkpointFailed =>
    heartbeatEvents (fence.own .claimed "") claim ++ heartbeatEvents (fence.own .notSent "") notSent

/-- Attempt `k` may read an error, nothing, or any single marker an earlier attempt stored. -/
def World.mayRead (w : World) (k : Int) : LastHeartbeat → Prop
  | .error _ | .nothing => True
  | .value marker => Event.stored marker ∈ w.log ∧ marker.attempt < k

/-- **One step of the attempts of `callID`.**  Every constructor but `start` is a step of a live attempt. -/
inductive Step (callID : String) : World → World → Prop
  -- `NewFence` for a new attempt, numbered above every attempt so far
  | start (w : World) (k writeDeadline minimumRequestTime : Int) (hk : 1 ≤ k)
      (hnew : ∀ j, (w.attempts j).isSome → j < k) :
      Step callID w (w.put k { fence := { callID, attempt := k, writeDeadline, minimumRequestTime } } [])
  | decide (w : World) (k : Int) (a : Attempt) (last : LastHeartbeat) (ha : w.attempts k = some a)
      (hlive : a.crashed = false) (hlast : w.mayRead k last) :
      Step callID w (w.put k { a with fence := (a.fence.decide last).2 } [])
  | dispatch (w : World) (k : Int) (a : Attempt) (now : Int) (claim notSent : Recorded) (ha : w.attempts k = some a)
      (hlive : a.crashed = false) :
      Step callID w (w.put k
        { a with
          fence := (a.fence.enterDispatch now claim notSent).2
          waiting := if (a.fence.enterDispatch now claim notSent).1 = .claimed then a.waiting + 1 else a.waiting
          repeaters := if (a.fence.enterDispatch now claim notSent).1 = .claimed then a.repeaters + 1 else a.repeaters }
        (enterEvents a.fence claim notSent (a.fence.enterDispatch now claim notSent).1))
  -- the attempt dies inside the locked section, between the failed claim and the `notSent` heartbeat
  | crashInDispatch (w : World) (k : Int) (a : Attempt) (now : Int) (claim : Recorded) (ha : w.attempts k = some a)
      (hlive : a.crashed = false) (hfail : (a.fence.enterDispatch now claim .failedLost).1 = .checkpointFailed) :
      Step callID w (w.put k
        { a with fence := (a.fence.enterDispatch now claim .failedLost).2, crashed := true }
        (enterEvents a.fence claim .failedLost .checkpointFailed))
  | send (w : World) (k : Int) (a : Attempt) (ha : w.attempts k = some a) (hlive : a.crashed = false)
      (hwait : 0 < a.waiting) :
      Step callID w (w.put k { a with waiting := a.waiting - 1, sending := a.sending + 1 } [.sent k])
  | sendReturned (w : World) (k : Int) (a : Attempt) (ha : w.attempts k = some a) (hlive : a.crashed = false)
      (hsend : 0 < a.sending) :
      Step callID w (w.put k { a with fence := a.fence.finishSend, sending := a.sending - 1 } [])
  -- one tick of `repeatClaim`: the claim again, while it is the last marker recorded
  | tick (w : World) (k : Int) (a : Attempt) (written : Recorded) (ha : w.attempts k = some a)
      (hlive : a.crashed = false) (hrep : 0 < a.repeaters) :
      Step callID w (w.put k a
        (if a.fence.marker = a.fence.own .claimed "" then heartbeatEvents (a.fence.own .claimed "") written else []))
  | repeaterStopped (w : World) (k : Int) (a : Attempt) (ha : w.attempts k = some a) (hlive : a.crashed = false)
      (hrep : 0 < a.repeaters) : Step callID w (w.put k { a with repeaters := a.repeaters - 1 } [])
  | recordNotSent (w : World) (k : Int) (a : Attempt) (written : Recorded) (ha : w.attempts k = some a)
      (hlive : a.crashed = false) :
      Step callID w (w.put k { a with fence := (a.fence.recordNotSent written).2 }
        (if (a.fence.recordNotSent written).1 = some .dispatchNotAllowed then []
         else heartbeatEvents (a.fence.own .notSent "") written))
  | recordCanResend (w : World) (k : Int) (a : Attempt) (written : Recorded) (ha : w.attempts k = some a)
      (hlive : a.crashed = false) :
      Step callID w (w.put k { a with fence := (a.fence.recordCanResend written).2 }
        (if a.fence.canRecordCanResend then heartbeatEvents (a.fence.own .canResend "") written else []))
  | recordProviderID (w : World) (k : Int) (a : Attempt) (providerID : String) (written : Recorded)
      (ha : w.attempts k = some a) (hlive : a.crashed = false) :
      Step callID w (w.put k { a with fence := (a.fence.recordProviderID providerID written).2 }
        (if a.fence.canRecordProviderID providerID then heartbeatEvents (a.fence.own .claimed providerID) written
         else []))
  | crash (w : World) (k : Int) (a : Attempt) (ha : w.attempts k = some a) :
      Step callID w (w.put k { a with crashed := true } [])

inductive Run (callID : String) : World → Prop
  | init : Run callID World.init
  | step {w w' : World} (h : Run callID w) (hs : Step callID w w') : Run callID w'

end SingleDispatch
end Dex
