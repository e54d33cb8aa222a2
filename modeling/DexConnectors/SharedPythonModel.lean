import DexConnectors.LibProgram
/-!
# SharedPythonModel — the Python shared-connection cache (`sdkpython/.../projectconfig/broker.py`, `SharedConnection`)

The tasks of one event loop switch only where a method awaits: at `_lock` and at the broker read.  What a method does
between two awaits is one operation here.  Times are microseconds.  The broker client raises for every answer that is not
READY, so an outcome of `_broker.read` is a credential or an exception; `canceled` stands for the exceptions of a task
that is cancelled while it waits.

`received`, `terminal` and `log` of `World` are ghost: how many answers arrived, the numbers of the terminal ones, and
the clock readings of each task.  `receipt` on a credential is the number of the answer it arrived with.
-/
namespace Dex
namespace SharedPython

open Lib

def minute : Int := 60 * 1000000

structure BrokerCredential where
  credential : String
  revision   : Nat
  issuedAt   : Option Int
  expiresAt  : Option Int
  readAt     : Int
  receipt    : Nat
  deriving DecidableEq, Repr

/-- The exceptions the methods raise. -/
inductive Exc where
  | credentialBrokerUnavailable
  | credentialBrokerRejected
  | reauthorizationRequired
  | connectionNotSelected
  | rejectedCredentialNotRefreshed
  | canceled
  deriving DecidableEq, Repr

def Exc.isTerminal : Exc → Bool
  | .reauthorizationRequired | .connectionNotSelected => true
  | _ => false

def isExpired (credential : BrokerCredential) (now : Int) : Bool :=
  match credential.expiresAt with
  | none => false
  | some expiresAt => expiresAt ≤ now

/-- `lifetime / 4` of `timedelta`s, in microseconds: to the nearest, halves to even. -/
def quarter (lifetime : Int) : Int :=
  if lifetime % 4 < 2 ∨ (lifetime % 4 = 2 ∧ lifetime / 4 % 2 = 0) then lifetime / 4 else lifetime / 4 + 1

def isStale (credential : BrokerCredential) (now : Int) : Bool :=
  match credential.expiresAt with
  | none => 15 * minute ≤ now - credential.readAt
  | some expiresAt =>
    let lifetime := expiresAt - credential.issuedAt.getD credential.readAt
    let skew := if 0 < lifetime then min (5 * minute) (quarter lifetime) else 0
    expiresAt - skew ≤ now

/-- `_issued_by_call`, in insertion order. -/
abbrev Issued := List (String × Nat × Int)

def setIssued (callID : String) (revision : Nat) (now : Int) : Issued → Issued
  | [] => [(callID, revision, now)]
  | entry :: rest =>
    if entry.1 = callID then (callID, revision, now) :: rest else entry :: setIssued callID revision now rest

def recordIssued (callID : String) (revision : Nat) (now : Int) (issued : Issued) : Issued :=
  if callID = "" then issued
  else
    let added := setIssued callID revision now issued
    if 4096 < added.length then
      let kept := added.filter (fun entry => decide (now - 10 * minute < entry.2.2))
      if 4096 < kept.length then kept.tail else kept
    else added

structure Cache where
  credential    : Option BrokerCredential
  issued        : Issued
  nextReadAfter : Option Int      -- none is `datetime.min`

def Cache.mayRead (cache : Cache) (now : Int) : Bool :=
  match cache.nextReadAfter with
  | none => true
  | some time => time ≤ now

/-- `resolve` before the lock: the cached credential, when it may be served without a read. -/
def Cache.fast (cache : Cache) (now : Int) : Option BrokerCredential :=
  match cache.credential with
  | none => none
  | some current =>
    if !isExpired current now && !cache.mayRead now then some current
    else if !isStale current now then some current
    else none

/-- Whether `resolve`, holding the lock, reads the broker. -/
def Cache.mustRead (cache : Cache) (now : Int) : Bool :=
  match cache.credential with
  | none => true
  | some current => isStale current now && cache.mayRead now

def Cache.rejectedRevision (cache : Cache) (callID : String) : Nat :=
  match cache.issued.find? (fun entry => entry.1 == callID) with
  | some entry => entry.2.1
  | none =>
    match cache.credential with
    | some current => current.revision
    | none => 0

/-! ## Operations -/

inductive Outcome where
  | ready (credential : BrokerCredential)
  | raised (exc : Exc)

inductive Op where
  | fast (callID : String)                                        -- `resolve` up to `async with self._lock`
  | acquire
  | release
  | enter                                                         -- `resolve` from the lock to the broker read
  | enterRejection (callID : String)
  | send (rejectedRevision : Nat)
  | receive (forcedAt : Option Int)                               -- the clock reading of a forced read
  | store (credential : BrokerCredential)
  | deferRead (now : Int)
  | recordIssued (callID : String) (revision : Nat) (now : Int)

def Ans : Op → Type
  | .fast _ => Option BrokerCredential
  | .acquire => Option Exc
  | .enter => Option BrokerCredential × Int × Bool
  | .enterRejection _ => Option BrokerCredential × Int × Nat
  | .receive _ => Outcome
  | .release | .send _ | .store _ | .deferRead _ | .recordIssued _ _ _ => Unit

abbrev P := Prog Op Ans

abbrev act (o : Op) : P (Ans o) := Prog.perform o

/-- The end of a method that leaves `async with self._lock`. -/
def leave (result : Except Exc BrokerCredential) : P (Except Exc BrokerCredential) := do
  let _ ← act .release
  return result

/-- `resolve` after the broker read: serve `current`, unless it is absent or expired. -/
def serve (callID : String) (current : Option BrokerCredential) (now : Int) : P (Except Exc BrokerCredential) :=
  match current with
  | none => leave (.error .credentialBrokerUnavailable)
  | some credential =>
    if isExpired credential now then leave (.error .credentialBrokerUnavailable)
    else do
      let _ ← act (.recordIssued callID credential.revision now)
      leave (.ok credential)

/-- `resolve` inside the lock. -/
def resolveLocked (callID : String) : P (Except Exc BrokerCredential) := do
  let entered : Option BrokerCredential × Int × Bool ← act .enter
  if entered.2.2 then
    let _ ← act (.send 0)
    let outcome : Outcome ← act (.receive none)
    match outcome with
    | .ready credential =>
      let _ ← act (.store credential)
      serve callID (some credential) entered.2.1
    | .raised .credentialBrokerUnavailable =>
      let _ ← act (.deferRead entered.2.1)
      serve callID entered.1 entered.2.1
    | .raised exc => leave (.error exc)
  else serve callID entered.1 entered.2.1

def resolve (callID : String) : P (Except Exc BrokerCredential) := do
  let cached : Option BrokerCredential ← act (.fast callID)
  match cached with
  | some credential => return .ok credential
  | none =>
    let failed : Option Exc ← act .acquire
    match failed with
    | some exc => return .error exc
    | none => resolveLocked callID

/-- `resolve_after_rejection` once it has its credential. -/
def serveRejected (callID : String) (current : BrokerCredential) (rejectedRevision : Nat) (now : Int) :
    P (Except Exc BrokerCredential) :=
  if current.revision = rejectedRevision then leave (.error .rejectedCredentialNotRefreshed)
  else do
    let _ ← act (.recordIssued callID current.revision now)
    leave (.ok current)

def rejectionLocked (callID : String) : P (Except Exc BrokerCredential) := do
  let entered : Option BrokerCredential × Int × Nat ← act (.enterRejection callID)
  match entered.1 with
  | some other => serveRejected callID other entered.2.2 entered.2.1
  | none =>
    let _ ← act (.send entered.2.2)
    let outcome : Outcome ← act (.receive (some entered.2.1))
    match outcome with
    | .ready credential =>
      let _ ← act (.store credential)
      serveRejected callID credential entered.2.2 entered.2.1
    | .raised exc => leave (.error exc)

def resolveAfterRejection (callID : String) : P (Except Exc BrokerCredential) := do
  let failed : Option Exc ← act .acquire
  match failed with
  | some exc => return .error exc
  | none => rejectionLocked callID

inductive Call where
  | resolve (callID : String)
  | resolveAfterRejection (callID : String)

def Call.program : Call → P (Except Exc BrokerCredential)
  | .resolve callID => SharedPython.resolve callID
  | .resolveAfterRejection callID => SharedPython.resolveAfterRejection callID

/-! ## The world the tasks share -/

structure World (ι : Type) where
  cache    : Cache
  lock     : Option ι
  clock    : Int
  received : Nat
  terminal : List Nat
  log      : ι → List Int

variable {ι : Type} [DecidableEq ι]

def World.init (clock : Int) : World ι := ⟨⟨none, [], none⟩, none, clock, 0, [], fun _ => []⟩

def World.tick (w : World ι) (i : ι) (now : Int) : World ι :=
  { w with clock := now, log := fun j => if j = i then now :: w.log j else w.log j }

def World.withCache (w : World ι) (cache : Cache) : World ι := { w with cache := cache }

/-- The credential that `resolve_after_rejection` takes from the cache without a read. -/
def otherRevision (cache : Cache) (rejectedRevision : Nat) : Option BrokerCredential :=
  match cache.credential with
  | none => none
  | some current => if current.revision ≠ rejectedRevision then some current else none

def fastCache (cache : Cache) (callID : String) (now : Int) : Cache :=
  match cache.fast now with
  | none => cache
  | some current => { cache with issued := recordIssued callID current.revision now cache.issued }

/-- **What task `i`'s operation may answer and leave behind.** -/
def step (i : ι) : (o : Op) → World ι → Ans o → World ι → Prop
  | .fast callID, w, a, w' => ∃ now, w.clock ≤ now ∧ a = w.cache.fast now ∧
    w' = (w.withCache (fastCache w.cache callID now)).tick i now
  | .acquire, w, a, w' =>
    (w.lock = none ∧ a = none ∧ w' = { w with lock := some i }) ∨ (a = some .canceled ∧ w' = w)
  | .release, w, _, w' => w' = { w with lock := none }
  | .enter, w, a, w' => ∃ now, w.clock ≤ now ∧ a = (w.cache.credential, now, w.cache.mustRead now) ∧ w' = w.tick i now
  | .enterRejection callID, w, a, w' => ∃ now, w.clock ≤ now ∧
    a = (otherRevision w.cache (w.cache.rejectedRevision callID), now, w.cache.rejectedRevision callID) ∧
    w' = w.tick i now
  | .send _, w, _, w' => w' = w
  | .receive _, w, .ready credential, w' =>
    0 < credential.revision ∧ credential.receipt = w.received + 1 ∧ w' = { w with received := w.received + 1 }
  | .receive _, w, .raised exc, w' =>
    exc ≠ .rejectedCredentialNotRefreshed ∧ w' = { w with received := w.received + 1, terminal :=
      if exc.isTerminal then (w.received + 1) :: w.terminal else w.terminal }
  | .store credential, w, _, w' => w' = w.withCache { w.cache with credential := some credential }
  | .deferRead now, w, _, w' => w' = w.withCache { w.cache with nextReadAfter := some (now + 10 * 1000000) }
  | .recordIssued callID revision now, w, _, w' =>
    w' = w.withCache { w.cache with issued := recordIssued callID revision now w.cache.issued }

/-- All the calls of one cache, none of them started. -/
def start (calls : ι → Call) (clock : Int) : Config Op Ans (Except Exc BrokerCredential) (World ι) ι :=
  ⟨World.init clock, fun i => (calls i).program⟩

end SharedPython
end Dex
