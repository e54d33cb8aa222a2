import DexConnectors.LibProgram
/-!
# SharedTypeScriptModel — the TypeScript shared-connection cache (`sdkts/src/projectconfig/shared_connections.ts`)

One entry of `SharedConnections`.  A call runs without interruption between two awaits, so what it does there is one
operation.  Times are the milliseconds of `Date.now` and `Date.parse`; an absent `expiresAt` and `null` are `none`.  A
broker read has a number, its ticket: `entry.pending` is the ticket of the promise, `settled` what the promise became.
`CredentialBrokerClient.read` ends with a credential that has a positive revision and is not expired at its own reading of
the clock, or with an exception.

`log`, `awaited`, `checks`, `sent`, `handed` and `rejection` of `World` are ghost: the clock readings at which each call
took a credential from the cache, the reads it waited for, the readings of the broker client, who sent a read with which
`rejectedRevision`, the revision last handed to each call id, and what a `readAfterRejection` found when it began.
`receipt` is the ticket of the read that brought a credential.
-/
namespace Dex
namespace SharedTypeScript

open Lib

structure BrokerCredential where
  credential : String
  revision   : Nat
  issuedAt   : Option Int
  expiresAt  : Option Int
  receipt    : Nat
  deriving DecidableEq, Repr

inductive Exc where
  | credentialBrokerUnavailable
  | credentialBrokerRejected
  | reauthorizationRequired
  | connectionNotSelected
  | rejectedCredentialNotRefreshed
  | other
  deriving DecidableEq, Repr

def Exc.isTerminal : Exc → Bool
  | .reauthorizationRequired | .connectionNotSelected => true
  | _ => false

abbrev Result := Except Exc BrokerCredential

structure SharedEntry where
  cached       : Option BrokerCredential
  readAt       : Int
  notBefore    : Int
  issuedByCall : List (String × Nat)
  pending      : Option Nat

def isUnexpired (credential : BrokerCredential) (now : Int) : Bool :=
  match credential.expiresAt with
  | none => true
  | some expiresAt => decide (now < expiresAt)

/-- `lifetime / 4` is not rounded, so both sides are taken four times. -/
def isFresh (entry : SharedEntry) (now : Int) : Bool :=
  match entry.cached with
  | none => false
  | some credential =>
    if isUnexpired credential now = false then false
    else if now < entry.notBefore then true
    else match credential.expiresAt with
      | none => decide (now - entry.readAt < 15 * 60000)
      | some expiresAt =>
        let lifetime := match credential.issuedAt with
          | none => 0
          | some issuedAt => expiresAt - issuedAt
        let skew := if 0 < lifetime then min (4 * (5 * 60000)) lifetime else 4 * (5 * 60000)
        decide (4 * now + skew < 4 * expiresAt)

/-- `Map.set` keeps the place of a key. -/
def setIssued (callID : String) (revision : Nat) : List (String × Nat) → List (String × Nat)
  | [] => [(callID, revision)]
  | issued :: rest => if issued.1 = callID then (callID, revision) :: rest else issued :: setIssued callID revision rest

def rememberIssued (callID : String) (revision : Nat) (issuedByCall : List (String × Nat)) : List (String × Nat) :=
  let added := setIssued callID revision issuedByCall
  if 4096 < added.length then added.tail else added

namespace SharedEntry

variable (entry : SharedEntry)

def remembered (callID : String) : Option Nat := (entry.issuedByCall.find? (fun issued => issued.1 == callID)).map Prod.snd

/-- What `read` serves without the broker. -/
def servesRead (now : Int) : Option BrokerCredential :=
  match entry.cached with
  | none => none
  | some cached => if isFresh entry now || (entry.pending.isSome && isUnexpired cached now) then some cached else none

/-- What `readAfterRejection` serves without the broker. -/
def servesRejection (issued : Nat) (now : Int) : Option BrokerCredential :=
  match entry.cached with
  | none => none
  | some cached => if decide (issued < cached.revision) && isUnexpired cached now then some cached else none

/-- What `read` serves after the broker was unavailable. -/
def servesFallback (now : Int) : Option BrokerCredential :=
  match entry.cached with
  | none => none
  | some cached => if isUnexpired cached now then some cached else none

/-- The handlers of a broker read, at the reading `now`. -/
def settle (outcome : Result) (now : Int) : SharedEntry :=
  match outcome with
  | .ok credential => { entry with cached := some credential, readAt := now, notBefore := now + 1000 }
  | .error exc => if exc.isTerminal then { entry with cached := none } else entry

end SharedEntry

/-! ## Operations -/

/-- How `#readBroker` begins: it waits for the pending read, or it sent one. -/
inductive BrokerRead where
  | joined (ticket : Nat)
  | sent (ticket : Nat)

inductive Entered where
  | served (credential : BrokerCredential)
  | reading (broker : BrokerRead)

inductive EnteredRejection where
  | awaiting (ticket : Nat)
  | entered (entered : Entered)

inductive Op where
  | read (callID : String)                              -- `read` up to an await
  | readAfterRejection (callID : String)                -- `readAfterRejection` up to an await
  | checkRejection (callID : String) (issued : Nat)     -- and after `await entry.pending`
  | receive (ticket : Nat)                              -- the end of `broker.read`
  | settle (ticket : Nat) (outcome : Result)            -- its handlers
  | clear (ticket : Nat)                                -- the `finally` of `#readBroker`
  | await (ticket : Nat)
  | fallback (callID : String)                          -- the `catch` of `read`
  | rememberIssued (callID : String) (revision : Nat)

def Ans : Op → Type
  | .read _ | .checkRejection _ _ => Entered
  | .readAfterRejection _ => Nat × EnteredRejection
  | .receive _ | .await _ => Result
  | .fallback _ => Option BrokerCredential
  | .settle _ _ | .clear _ | .rememberIssued _ _ => Unit

abbrev P := Prog Op Ans

abbrev act (o : Op) : P (Ans o) := Prog.perform o

/-! ## Programs -/

def readBroker : BrokerRead → P Result
  | .joined ticket => act (.await ticket)
  | .sent ticket => do
    let outcome : Result ← act (.receive ticket)
    let _ ← act (.settle ticket outcome)
    let _ ← act (.clear ticket)
    return outcome

/-- `rememberIssued` and the return of the credential. -/
def handOut (callID : String) (credential : BrokerCredential) : P Result := do
  let _ ← act (.rememberIssued callID credential.revision)
  return .ok credential

def afterRead (callID : String) : Result → P Result
  | .ok credential => handOut callID credential
  | .error .credentialBrokerUnavailable => do
    let cached : Option BrokerCredential ← act (.fallback callID)
    match cached with
    | some credential => return .ok credential
    | none => return .error .credentialBrokerUnavailable
  | .error exc => return .error exc

def read (callID : String) : P Result := do
  let entered : Entered ← act (.read callID)
  match entered with
  | .served credential => return .ok credential
  | .reading broker =>
    let result ← readBroker broker
    afterRead callID result

/-- A read after a rejection that brought the rejected revision again. -/
def afterRejectedRead (callID : String) (issued : Nat) : Result → P Result
  | .ok credential =>
    if 0 < issued ∧ credential.revision = issued then return .error .rejectedCredentialNotRefreshed
    else handOut callID credential
  | .error exc => return .error exc

def rejectedEntered (callID : String) (issued : Nat) : Entered → P Result
  | .served credential => return .ok credential
  | .reading broker => do
    let result ← readBroker broker
    afterRejectedRead callID issued result

def rejectedAwaited (callID : String) (issued : Nat) : Result → P Result
  | .ok _ => do
    let entered : Entered ← act (.checkRejection callID issued)
    rejectedEntered callID issued entered
  | .error exc => return .error exc

def readAfterRejection (callID : String) : P Result := do
  let begun : Nat × EnteredRejection ← act (.readAfterRejection callID)
  match begun.2 with
  | .entered entered => rejectedEntered callID begun.1 entered
  | .awaiting ticket =>
    let result : Result ← act (.await ticket)
    rejectedAwaited callID begun.1 result

inductive Call where
  | read (callID : String)
  | readAfterRejection (callID : String)

def Call.program : Call → P Result
  | .read callID => SharedTypeScript.read callID
  | .readAfterRejection callID => SharedTypeScript.readAfterRejection callID

/-! ## The world the calls share -/

/-- What a `readAfterRejection` finds: the revision last handed to its call id, the one remembered, the one cached. -/
structure Rejection where
  handed     : Option Nat
  remembered : Option Nat
  cached     : Option Nat

structure World (ι : Type) where
  entry     : SharedEntry
  nextRead  : Nat
  settled   : Nat → Option Result
  log       : ι → List Int
  awaited   : ι → List Nat
  checks    : Nat → List Int
  sent      : Nat → Option (ι × Nat)
  handed    : String → Option Nat
  rejection : ι → Option Rejection

variable {ι : Type} [DecidableEq ι]

def World.init : World ι :=
  ⟨⟨none, 0, 0, [], none⟩, 0, fun _ => none, fun _ => [], fun _ => [], fun _ => [], fun _ => none, fun _ => none, fun _ => none⟩

def World.wait (w : World ι) (i : ι) (ticket : Nat) : World ι :=
  { w with awaited := fun j => if j = i then ticket :: w.awaited j else w.awaited j }

def World.rememberIssued (w : World ι) (callID : String) (revision : Nat) : World ι :=
  { w with
    entry := { w.entry with issuedByCall := SharedTypeScript.rememberIssued callID revision w.entry.issuedByCall }
    handed := fun id => if id = callID then some revision else w.handed id }

/-- `broker.read` called by `i`. -/
def World.send (w : World ι) (i : ι) (rejectedRevision : Nat) : World ι :=
  { w with
    entry := { w.entry with pending := some w.nextRead }
    nextRead := w.nextRead + 1
    sent := fun ticket => if ticket = w.nextRead then some (i, rejectedRevision) else w.sent ticket }

/-- The cached credential handed out by `i` at the reading `now`. -/
def World.serve (w : World ι) (i : ι) (callID : String) (credential : BrokerCredential) (now : Int) : World ι :=
  { w.rememberIssued callID credential.revision with log := fun j => if j = i then now :: w.log j else w.log j }

/-- The cached credential, or the beginning of `#readBroker`. -/
def World.enter (w : World ι) (i : ι) (callID : String) (rejectedRevision : Nat) (cached : Option BrokerCredential)
    (now : Int) : Entered × World ι :=
  match cached, w.entry.pending with
  | some credential, _ => (.served credential, w.serve i callID credential now)
  | none, some ticket => (.reading (.joined ticket), w)
  | none, none => (.reading (.sent w.nextRead), w.send i rejectedRevision)

def World.found (w : World ι) (callID : String) : Rejection :=
  ⟨w.handed callID, w.entry.remembered callID, w.entry.cached.map BrokerCredential.revision⟩

def World.reject (w : World ι) (i : ι) (callID : String) : World ι :=
  { w with rejection := fun j => if j = i then some (w.found callID) else w.rejection j }

def World.issued (w : World ι) (callID : String) : Nat := (w.entry.remembered callID).getD 0

/-- **What an operation of call `i` may answer and leave behind.** -/
def step (i : ι) : (o : Op) → World ι → Ans o → World ι → Prop
  | .read callID, w, a, w' => ∃ now, (a, w') = w.enter i callID 0 (w.entry.servesRead now) now
  | .readAfterRejection callID, w, a, w' => a.1 = w.issued callID ∧
    match w.entry.pending with
    | some ticket => a.2 = .awaiting ticket ∧ w' = w.reject i callID
    | none => ∃ now entered, a.2 = .entered entered ∧ (entered, w') = (w.reject i callID).enter i callID (w.issued callID)
        (w.entry.servesRejection (w.issued callID) now) now
  | .checkRejection callID issued, w, a, w' =>
    ∃ now, (a, w') = w.enter i callID issued (w.entry.servesRejection issued now) now
  | .receive ticket, w, .ok credential, w' => 0 < credential.revision ∧ credential.receipt = ticket ∧
    ∃ now, isUnexpired credential now = true ∧
      w' = { w.wait i ticket with checks := fun n => if n = ticket then now :: w.checks n else w.checks n }
  | .receive ticket, w, .error exc, w' => exc ≠ .rejectedCredentialNotRefreshed ∧ w' = w.wait i ticket
  | .settle ticket outcome, w, _, w' => ∃ now, w' =
    { w with
      entry := w.entry.settle outcome now
      settled := fun n => if n = ticket then some outcome else w.settled n }
  | .clear ticket, w, _, w' =>
    w' = { w with entry := { w.entry with pending := if w.entry.pending = some ticket then none else w.entry.pending } }
  | .await ticket, w, a, w' => w.settled ticket = some a ∧ w' = w.wait i ticket
  | .fallback callID, w, a, w' => ∃ now now', a = w.entry.servesFallback now ∧ w' =
    match w.entry.servesFallback now with
    | none => w
    | some credential =>
      ({ w with entry := { w.entry with notBefore := now' + 10000 } } : World ι).serve i callID credential now
  | .rememberIssued callID revision, w, _, w' => w' = w.rememberIssued callID revision

/-- All the calls of one entry, none of them begun. -/
def start (calls : ι → Call) : Config Op Ans Result (World ι) ι := ⟨World.init, fun i => (calls i).program⟩

end SharedTypeScript
end Dex
