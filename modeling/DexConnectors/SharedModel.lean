import DexConnectors.LibProgram
/-!
# SharedModel — the Go shared-connection cache (`sdkgo/projectconfig/shared_connection.go`, `shared_connection_calls.go`)

A `sharedConnection` caches what the credential broker serves for one entry.  Its methods run concurrently; what they do
to the shared fields happens under `mutex`, so each locked section, each clock reading, each operation on `readSlot` and
each end of a broker request is one operation of the programs below.

Times are nanoseconds.  `issuedByCall` and `issuedOrder` are one list, oldest call first.  A broker response is modelled
after `json.Unmarshal`, with `isJSONObject` of its credential beside it.  The fields under "ghost" of `World` record what
happened and are read by no program: the clock readings and requests of each thread, the revision `issuedTo` returned to
it, how many answers arrived, and which of them made `forget` run.  `receipt` on a credential is the number of the answer
it arrived with.
-/
namespace Dex
namespace Shared

open Lib

def second : Int := 1000000000
def minute : Int := 60 * second

def staticCredentialRereadInterval : Int := 15 * minute
def staleRereadSuppression : Int := second
def brokerRetryInterval : Int := 10 * second
def recentFailureReuse : Int := 2 * second
def maximumIssuedCalls : Nat := 4096
def issuedCallRetention : Int := 10 * minute
def maximumBrokerCredentialBytes : Nat := 64 * 1024
def maximumSkew : Int := 5 * minute
def lifetimeFraction : Int := 4

/-- `time.Time{}`, the first of January of year one. -/
def zeroTime : Int := -62135596800 * second

inductive Err where
  | reauthorizationRequired
  | connectionNotSelected
  | credentialBrokerUnavailable (text : String)
  | credentialBrokerRejected (text : String)
  | rejectedCredentialNotRefreshed
  | context
  | other (text : String)
  deriving DecidableEq, Repr

structure BrokerCredential where
  credential : List UInt8
  revision   : Nat
  issuedAt   : Option Int
  expiresAt  : Option Int
  readAt     : Int
  receipt    : Nat
  deriving DecidableEq, Repr

/-! ## `refreshtiming` -/

def lifetime (issuedAt expiresAt : Option Int) : Int :=
  match issuedAt, expiresAt with
  | some issued, some expires => if issued < expires then expires - issued else 0
  | _, _ => 0

def shareOfLifetime (maximum lifetime : Int) : Int :=
  if lifetime = 0 then maximum else min maximum (lifetime / lifetimeFraction)

def skew (issuedAt expiresAt : Option Int) : Int := shareOfLifetime maximumSkew (lifetime issuedAt expiresAt)

def isExpiryWithinSkew (issuedAt : Option Int) (expiresAt now : Int) : Bool :=
  expiresAt ≤ now + skew issuedAt (some expiresAt)

def isStale (credential : BrokerCredential) (now : Int) : Bool :=
  match credential.expiresAt with
  | none => staticCredentialRereadInterval ≤ now - credential.readAt
  | some expiresAt => isExpiryWithinSkew credential.issuedAt expiresAt now

def isExpired (credential : BrokerCredential) (now : Int) : Bool :=
  match credential.expiresAt with
  | none => false
  | some expiresAt => expiresAt ≤ now

/-! ## The broker's answers -/

inductive BrokerStatus where
  | ready
  | reauthorizationRequired
  | connectionNotSelected
  | unknown (text : String)
  deriving DecidableEq, Repr

structure BrokerResponse where
  status       : BrokerStatus
  credential   : List UInt8
  isJSONObject : Bool
  revision     : Nat
  issuedAt     : Option Int
  expiresAt    : Option Int
  deriving DecidableEq, Repr

inductive BrokerAnswer where
  | ready (credential : BrokerCredential)
  | reauthorizationRequired
  | connectionNotSelected
  deriving DecidableEq, Repr

def decodeCredentialBrokerAnswer (response : BrokerResponse) (receipt : Nat) : Except Err BrokerAnswer :=
  match response.status with
  | .reauthorizationRequired => .ok .reauthorizationRequired
  | .connectionNotSelected => .ok .connectionNotSelected
  | .unknown _ => .error (.credentialBrokerRejected "response status is unknown")
  | .ready =>
    if response.credential.length = 0 ∨ maximumBrokerCredentialBytes < response.credential.length ∨
        response.isJSONObject = false then
      .error (.credentialBrokerRejected "response credential is not a JSON object")
    else if response.revision = 0 then .error (.credentialBrokerRejected "response revision is missing")
    else .ok (.ready ⟨response.credential, response.revision, response.issuedAt, response.expiresAt, zeroTime, receipt⟩)

/-- How a broker request ends: a response, or an error of the exchange. -/
inductive BrokerOutcome where
  | response (response : BrokerResponse)
  | unavailable (text : String)
  | failed (text : String)
  | canceled

def BrokerOutcome.answer (receipt : Nat) : BrokerOutcome → Except Err BrokerAnswer
  | .response decoded => decodeCredentialBrokerAnswer decoded receipt
  | .unavailable text => .error (.credentialBrokerUnavailable text)
  | .failed text => .error (.other text)
  | .canceled => .error .context

/-! ## The cache and its locked sections -/

structure IssuedCredential where
  callID   : String
  revision : Nat
  issuedAt : Int
  deriving DecidableEq, Repr

def IssuedCredential.zero : IssuedCredential := ⟨"", 0, zeroTime⟩

structure SharedConnection where
  cached            : Option BrokerCredential
  nextReadNotBefore : Int
  recentFailure     : Option Err
  recentFailureAt   : Int
  issued            : List IssuedCredential

namespace SharedConnection

variable (connection : SharedConnection)

def usableCredential (now : Int) : Option BrokerCredential :=
  match connection.cached with
  | none => none
  | some cached =>
    if isExpired cached now then none
    else if isStale cached now && !(now < connection.nextReadNotBefore) then none
    else some cached

def unexpiredCredential (now : Int) : Option BrokerCredential :=
  match connection.cached with
  | none => none
  | some cached => if isExpired cached now then none else some cached

def sharedRecentFailure (now : Int) : Option Err :=
  match connection.recentFailure with
  | none => none
  | some err => if now - connection.recentFailureAt < recentFailureReuse then some err else none

def remember (credential : BrokerCredential) (now : Int) : SharedConnection :=
  { connection with
    cached := some { credential with readAt := now }
    recentFailure := none
    nextReadNotBefore :=
      if isStale { credential with readAt := now } now then now + staleRereadSuppression else zeroTime }

def forget : SharedConnection := { connection with cached := none }

def deferNextRead (interval now : Int) : SharedConnection := { connection with nextReadNotBefore := now + interval }

def rememberFailure (err : Err) (now : Int) : SharedConnection :=
  { connection with recentFailure := some err, recentFailureAt := now }

/-- The loop of `recordIssued`: forget the oldest or expired calls. -/
def evictIssued (now : Int) : List IssuedCredential → List IssuedCredential
  | [] => []
  | oldest :: rest =>
    if (oldest :: rest).length ≤ maximumIssuedCalls ∧ now - oldest.issuedAt < issuedCallRetention then oldest :: rest
    else evictIssued now rest

def recordIssued (callID : String) (revision : Nat) (now : Int) : SharedConnection :=
  { connection with
    issued := evictIssued now (connection.issued.filter (fun issued => issued.callID != callID) ++
      [⟨callID, revision, now⟩]) }

def remembered (callID : String) : Option IssuedCredential :=
  connection.issued.find? (fun issued => issued.callID == callID)

def assumed : IssuedCredential :=
  match connection.cached with
  | none => .zero
  | some cached => { IssuedCredential.zero with revision := cached.revision }

def issuedTo (callID : String) (now : Int) : IssuedCredential :=
  match connection.remembered callID with
  | some issued => if now - issued.issuedAt < issuedCallRetention then issued else connection.assumed
  | none => connection.assumed

def supersedingCredential (issued : IssuedCredential) (now : Int) : Option BrokerCredential :=
  match connection.cached with
  | none => none
  | some cached =>
    if isExpired cached now then none
    else if issued.revision = 0 then none
    else if issued.revision ≠ cached.revision then some cached
    else none

end SharedConnection

/-! ## Operations -/

inductive Op where
  | now
  | ctxErr
  | usableCredential
  | unexpiredCredential
  | sharedRecentFailure
  | acquireReadSlot
  | tryAcquireReadSlot
  | releaseReadSlot
  | send (rejectedRevision : Nat)
  | receive
  | remember (credential : BrokerCredential) (now : Int)
  | forget (receipt : Nat)
  | deferNextRead (interval : Int)
  | rememberFailure (err : Err)
  | recordIssued (callID : String) (revision : Nat) (now : Int)
  | issuedTo (callID : String)
  | supersedingCredential (issued : IssuedCredential)

def Ans : Op → Type
  | .now => Int
  | .ctxErr => Bool
  | .usableCredential | .unexpiredCredential | .supersedingCredential _ => Option BrokerCredential
  | .sharedRecentFailure | .acquireReadSlot => Option Err
  | .tryAcquireReadSlot => Bool
  | .receive => BrokerOutcome × Nat
  | .issuedTo _ => IssuedCredential
  | .remember _ _ => BrokerCredential
  | .releaseReadSlot | .send _ | .forget _ | .deferNextRead _ | .rememberFailure _ | .recordIssued _ _ _ => Unit

abbrev P := Prog Op Ans

abbrev act (o : Op) : P (Ans o) := Prog.perform o

/-! ## Programs -/

/-- A body whose `defer` gives the read slot back. -/
def releasing {α : Type} (body : P α) : P α := do
  let result ← body
  let _ ← act .releaseReadSlot
  return result

def read (rejectedRevision : Nat) : P (Except Err BrokerCredential) := do
  let _ ← act (.send rejectedRevision)
  let received : BrokerOutcome × Nat ← act .receive
  match received.1.answer received.2 with
  | .error err => return .error err
  | .ok (.ready credential) =>
    let now : Int ← act .now
    if isExpired credential now then
      return .error (.credentialBrokerUnavailable "the credential has already expired")
    else
      let readAt : Int ← act .now
      let remembered : BrokerCredential ← act (.remember credential readAt)
      return .ok remembered
  | .ok .reauthorizationRequired =>
    let _ ← act (.forget received.2)
    return .error .reauthorizationRequired
  | .ok .connectionNotSelected =>
    let _ ← act (.forget received.2)
    return .error .connectionNotSelected

def recordIssued (callID : String) (revision : Nat) : P Unit :=
  if callID = "" then return ()
  else do
    let now : Int ← act .now
    let _ ← act (.recordIssued callID revision now)
    return ()

def rememberFailure (err : Err) : P Unit := do
  let isDone : Bool ← act .ctxErr
  if isDone then return ()
  else
    let _ ← act (.rememberFailure err)
    return ()

def Err.isUnavailable : Err → Bool
  | .credentialBrokerUnavailable _ => true
  | _ => false

/-- `currentCredential` after a read that returned an error. -/
def afterFailedRead (err : Err) : P (Except Err BrokerCredential) := do
  let _ ← rememberFailure err
  return .error err

/-- `currentCredential` from the read slot on. -/
def currentInSlot : P (Except Err BrokerCredential) := do
  let usable : Option BrokerCredential ← act .usableCredential
  match usable with
  | some credential => return .ok credential
  | none =>
    let failure : Option Err ← act .sharedRecentFailure
    match failure with
    | some err => return .error err
    | none =>
      let result ← read 0
      match result with
      | .ok credential => return .ok credential
      | .error err =>
        if err.isUnavailable then
          let cached : Option BrokerCredential ← act .unexpiredCredential
          match cached with
          | some credential =>
            let _ ← act (.deferNextRead brokerRetryInterval)
            return .ok credential
          | none => afterFailedRead err
        else afterFailedRead err

def currentCredential : P (Except Err BrokerCredential) := do
  let usable : Option BrokerCredential ← act .usableCredential
  match usable with
  | some credential => return .ok credential
  | none =>
    let unexpired : Option BrokerCredential ← act .unexpiredCredential
    match unexpired with
    | some stale =>
      let isAcquired : Bool ← act .tryAcquireReadSlot
      if isAcquired then releasing currentInSlot else return .ok stale
    | none =>
      let failed : Option Err ← act .acquireReadSlot
      match failed with
      | some err => return .error err
      | none => releasing currentInSlot

def credential (callID : String) : P (Except Err BrokerCredential) := do
  let result ← currentCredential
  match result with
  | .ok credential =>
    let _ ← recordIssued callID credential.revision
    return .ok credential
  | .error err => return .error err

/-- `credentialAfterRejection` from the read slot on. -/
def rejectedInSlot (callID : String) (issued : IssuedCredential) : P (Except Err BrokerCredential) := do
  let superseding : Option BrokerCredential ← act (.supersedingCredential issued)
  match superseding with
  | some credential =>
    let _ ← recordIssued callID credential.revision
    return .ok credential
  | none =>
    let result ← read issued.revision
    match result with
    | .error err => return .error err
    | .ok credential =>
      if issued.revision ≠ 0 ∧ credential.revision = issued.revision then return .error .rejectedCredentialNotRefreshed
      else
        let _ ← recordIssued callID credential.revision
        return .ok credential

/-- `credentialAfterRejection` once it knows what the call was issued. -/
def afterIssuedTo (callID : String) (issued : IssuedCredential) : P (Except Err BrokerCredential) := do
  let superseding : Option BrokerCredential ← act (.supersedingCredential issued)
  match superseding with
  | some credential =>
    let _ ← recordIssued callID credential.revision
    return .ok credential
  | none =>
    let failed : Option Err ← act .acquireReadSlot
    match failed with
    | some err => return .error err
    | none => releasing (rejectedInSlot callID issued)

def credentialAfterRejection (callID : String) : P (Except Err BrokerCredential) := do
  let issued : IssuedCredential ← act (.issuedTo callID)
  afterIssuedTo callID issued

inductive Call where
  | credential (callID : String)
  | credentialAfterRejection (callID : String)

def Call.program : Call → P (Except Err BrokerCredential)
  | .credential callID => Shared.credential callID
  | .credentialAfterRejection callID => Shared.credentialAfterRejection callID

/-! ## The world the calls share -/

inductive Event where
  | reading (time : Int)                 -- a clock reading
  | asked (rejectedRevision : Nat)       -- a broker read was sent
  deriving DecidableEq, Repr

structure World (ι : Type) where
  connection : SharedConnection
  slot       : Option ι
  clock      : Int
  -- ghost
  inFlight   : List ι
  received   : Nat
  processed  : List Nat
  log        : ι → List Event
  issuedTo   : ι → Option Nat

variable {ι : Type} [DecidableEq ι]

def World.init (clock : Int) : World ι where
  connection := ⟨none, zeroTime, none, zeroTime, []⟩
  slot := none
  clock := clock
  inFlight := []
  received := 0
  processed := []
  log := fun _ => []
  issuedTo := fun _ => none

namespace World

variable (w : World ι)

def note (i : ι) (event : Event) : World ι :=
  { w with log := fun j => if j = i then event :: w.log j else w.log j }

def tick (i : ι) (now : Int) : World ι := { w.note i (.reading now) with clock := now }

def noteIssued (i : ι) (revision : Nat) : World ι :=
  { w with issuedTo := fun j => if j = i then some revision else w.issuedTo j }

def withConnection (connection : SharedConnection) : World ι := { w with connection := connection }

end World

/-- **What thread `i`'s operation may answer and leave behind.** -/
def step (i : ι) : (o : Op) → World ι → Ans o → World ι → Prop
  | .now, w, now, w' => w.clock ≤ now ∧ w' = w.tick i now
  | .ctxErr, w, _, w' => w' = w
  | .usableCredential, w, a, w' => ∃ now, w.clock ≤ now ∧ a = w.connection.usableCredential now ∧ w' = w.tick i now
  | .unexpiredCredential, w, a, w' =>
    (w.connection.cached = none ∧ a = none ∧ w' = w) ∨
    (w.connection.cached ≠ none ∧ ∃ now, w.clock ≤ now ∧ a = w.connection.unexpiredCredential now ∧ w' = w.tick i now)
  | .sharedRecentFailure, w, a, w' =>
    (w.connection.recentFailure = none ∧ a = none ∧ w' = w) ∨
    (w.connection.recentFailure ≠ none ∧
      ∃ now, w.clock ≤ now ∧ a = w.connection.sharedRecentFailure now ∧ w' = w.tick i now)
  | .acquireReadSlot, w, a, w' =>
    (w.slot = none ∧ a = none ∧ w' = { w with slot := some i }) ∨ (a = some .context ∧ w' = w)
  | .tryAcquireReadSlot, w, a, w' =>
    (w.slot = none ∧ a = true ∧ w' = { w with slot := some i }) ∨ (w.slot ≠ none ∧ a = false ∧ w' = w)
  | .releaseReadSlot, w, _, w' => w.slot ≠ none ∧ w' = { w with slot := none }
  | .send rejectedRevision, w, _, w' =>
    w' = { w.note i (.asked rejectedRevision) with inFlight := i :: w.inFlight }
  | .receive, w, a, w' =>
    a.2 = w.received + 1 ∧ w' = { w with inFlight := w.inFlight.erase i, received := w.received + 1 }
  | .remember credential now, w, a, w' =>
    a = { credential with readAt := now } ∧ w' = w.withConnection (w.connection.remember credential now)
  | .forget receipt, w, _, w' =>
    w' = { w.withConnection w.connection.forget with processed := receipt :: w.processed }
  | .deferNextRead interval, w, _, w' =>
    ∃ now, w.clock ≤ now ∧ w' = (w.withConnection (w.connection.deferNextRead interval now)).tick i now
  | .rememberFailure err, w, _, w' =>
    ∃ now, w.clock ≤ now ∧ w' = (w.withConnection (w.connection.rememberFailure err now)).tick i now
  | .recordIssued callID revision now, w, _, w' =>
    w' = w.withConnection (w.connection.recordIssued callID revision now)
  | .issuedTo callID, w, a, w' =>
    (w.connection.remembered callID = none ∧ a = w.connection.assumed ∧ w' = w.noteIssued i a.revision) ∨
    (w.connection.remembered callID ≠ none ∧ ∃ now, w.clock ≤ now ∧ a = w.connection.issuedTo callID now ∧
      w' = (w.tick i now).noteIssued i a.revision)
  | .supersedingCredential issued, w, a, w' =>
    (w.connection.cached = none ∧ a = none ∧ w' = w) ∨
    (w.connection.cached ≠ none ∧
      ∃ now, w.clock ≤ now ∧ a = w.connection.supersedingCredential issued now ∧ w' = w.tick i now)

end Shared
end Dex
