import DexConnectors.LibProgram
import DexConnectors.ConnectionWire
/-!
# ProviderPythonModel — the Python refreshing provider (`sdkpython/.../projectconfig/provider.py`, `connections.py`)

The methods of `RefreshingCredentialProvider` and `replace_credential` for one connection whose key the constructor has
validated: `path` is `key.path(scope)`.  A method is a program over the object store, the clock, `secrets.token_hex` and
the refresh driver; an exception ends it.  A task that is cancelled, or whose process dies, takes no further step.

`decode` and `encode` are the connector's functions, `digest` is `hashlib.sha256(...).hexdigest()`.  The loop of
`resolve_with_refresh` takes the number of rounds it may make.  Conditional writes carry a `HeadOp`, which the store
keeps as a ghost with the version.  The checks of `_read_record` on the types of the members are part of what makes a
text a `Value.head`.
-/
namespace Dex
namespace Provider

open Lib Lib.Rfc3339 Lib.Store Wire

inductive Exc where
  | objectNotFound
  | objectConflict (text : String)
  | outcomeUnknown
  | storage
  | value (text : String)
  | reauthorizationRequired
  | exchangePending
  | refreshFailed (text : String)
  | addressRefusal
  | unfinished                      -- the rounds of the loop are used up
  deriving DecidableEq, Repr

/-- Why a head was written: ghost. -/
inductive HeadOp where
  | admission
  | publish (attemptID : String) (fence : Nat)
  | finish (attemptID : String) (fence : Nat)
  | replace
  | object                          -- not a head
  deriving DecidableEq, Repr

/-- Who wrote a version: something before the run, or a task. -/
inductive Writer (ι : Type) where
  | base
  | task (i : ι) (op : HeadOp)

inductive Expiry where
  | nano (stamp : Stamp)            -- `RFC3339NanoTimestamp`
  | moment (time : DateTime)
  deriving DecidableEq, Repr

def formatRFC3339Nano : Expiry → Stamp
  | .nano stamp => stamp
  | .moment time => time.format

structure Material where
  credentials : String
  expiresAt   : Option Expiry
  authMethod  : String
  deriving DecidableEq, Repr

structure Admission where
  kind      : Status
  attemptID : String
  fence     : Nat
  deadline  : Int
  resultKey : String
  deriving DecidableEq, Repr

/-! ## Wire values -/

/-- A microsecond count as an aware UTC `datetime`. -/
def utc (micros : Int) : DateTime :=
  let n := (micros % 1000000).toNat
  ⟨micros / 1000000, [n / 100000, n / 10000 % 10, n / 1000 % 10, n / 100 % 10, n / 10 % 10, n % 10], 0⟩

/-- `_parse_expiry` of a wire member. -/
def parseExpiry : Option Stamp → Except Exc (Option DateTime)
  | none => .ok none
  | some stamp =>
    match fromisoformat stamp with
    | some time => .ok (some time)
    | none => .error (.value "Invalid isoformat string")

def connectionRecordWire (scope : Scope) (key : ConnectionKey) (revision fence : Nat) (status : Status)
    (expiresAt : Option Expiry) (authMethod : String) (credential : Option Reference) (mutation : Option Mutation) : Record :=
  ⟨connectionSchemaVersion, key, scope, revision, fence, status, expiresAt.map formatRFC3339Nano, authMethod, credential,
    mutation⟩

def credentialEnvelopeWire (scope : Scope) (key : ConnectionKey) (fence : Nat) (material : Material)
    (attemptID : String) : Envelope :=
  ⟨connectionSchemaVersion, scope, key, fence, if attemptID = "" then none else some attemptID, material.credentials,
    material.expiresAt.map formatRFC3339Nano, material.authMethod⟩

structure Config where
  scope  : Scope
  key    : ConnectionKey
  path   : String
  digest : Text → String

section

variable {T : Type} (config : Config)

/-- The checks of `_read_record` on a reference. -/
def referenceIsValid (reference : Reference) : Bool :=
  isBelow config.path reference.key && reference.version != "" && isDigest reference.digest

/-- The checks of `_read_record` on the mutation of a pending head. -/
def mutationIsValid (record : Record) (mutation : Mutation) : Bool :=
  isAttemptID mutation.id && mutation.kind == record.status.text && mutation.invocationID != "" &&
    mutation.fence == record.fence && mutation.baseRevision + 1 == record.revision &&
    mutation.resultKey == resultPath config.path mutation.id && (fromisoformat mutation.deadline).isSome

/-- `_read_record` after the read. -/
def checkRecord (item : Version Text T) : Except Exc Record :=
  match item.contents.value with
  | .head record =>
    if item.id = "" ∨ item.etag = "" ∨ record.schemaVersion ≠ connectionSchemaVersion ∨ record.scope ≠ config.scope ∨
        record.connection ≠ config.key ∨ record.revision = 0 ∨ record.fence = 0 then
      .error (.value "project connection identity is invalid")
    else if (record.status = .ready ∨ record.status = .refreshing) ∧ record.credential = none then
      .error (.value "project credential reference is absent")
    else if record.status = .revoked ∧ (record.credential ≠ none ∨ record.mutation ≠ none) then
      .error (.value "revoked connection retains active material")
    else if record.credential.any (fun reference => !referenceIsValid config reference) then
      .error (.value "project credential reference is invalid")
    else if record.status = .refreshing ∨ record.status = .authorizing then
      match record.mutation with
      | none => .error (.value "credential exchange admission is absent")
      | some mutation =>
        if mutationIsValid config record mutation then .ok record
        else .error (.value "credential exchange admission is invalid")
    else if record.mutation ≠ none then .error (.value "inactive credential exchange admission is invalid")
    else .ok record
  | _ => .error (.value "project connection identity is invalid")

/-- `_read_material` after the read. -/
def checkMaterial (record : Record) (reference : Reference) (item : Version Text T) : Except Exc Material :=
  if config.digest item.contents ≠ reference.digest then .error (.value "project credential integrity differs")
  else match item.contents.value with
    | .envelope envelope =>
      if envelope.schemaVersion ≠ connectionSchemaVersion ∨ envelope.scope ≠ config.scope ∨
          envelope.connection ≠ config.key ∨ envelope.authMethod ≠ record.authMethod ∨
          envelope.expiresAt ≠ record.expiresAt then
        .error (.value "project credential identity differs")
      else
        match parseExpiry envelope.expiresAt with
        | .error exc => .error exc
        | .ok expiresAt => .ok ⟨envelope.credentials, expiresAt.map .moment, envelope.authMethod⟩
    | _ => .error (.value "project credential identity differs")

end

/-! ## Records that pass the check -/

section

variable {T : Type} {config : Config}

theorem checkRecord_value {item : Version Text T} {r : Record} (h : checkRecord config item = .ok r) :
    item.contents.value = .head r := by
  unfold checkRecord at h
  split at h
  · rename_i record hv
    rw [hv]
    split at h
    · cases h
    split at h
    · cases h
    split at h
    · cases h
    split at h
    · cases h
    split at h
    · split at h
      · cases h
      · split at h
        · cases h; rfl
        · cases h
    split at h
    · cases h
    · cases h; rfl
  · cases h

/-- The check depends on the contents only, for versions with an identifier and a tag. -/
theorem checkRecord_congr {u v : Version Text T} (hu : u.id ≠ "" ∧ u.etag ≠ "") (hv : v.id ≠ "" ∧ v.etag ≠ "")
    (hc : u.contents = v.contents) : checkRecord config u = checkRecord config v := by
  unfold checkRecord
  rw [hc]
  simp only [hu.1, hu.2, hv.1, hv.2, false_or]

end

/-- `_require_admission`. -/
def isAdmitted (record : Record) (admission : Admission) : Bool :=
  record.status == admission.kind && record.fence == admission.fence &&
    record.mutation.any (fun m => m.id == admission.attemptID && m.kind == admission.kind.text)

/-! ## Operations -/

/-- What a call of `driver.refresh` does within its time. -/
inductive Refreshed (C : Type) where
  | result (credentials : C) (expiresAt : DateTime)
  | reauthorizationRequired
  | failed (isAddressRefusal : Bool)

inductive Op (C : Type) where
  | read (key version : String)
  | create (key : String) (contents : Text) (op : HeadOp)
  | swap (key etag : String) (contents : Text) (op : HeadOp)
  | now
  | token
  | sleep
  | refreshRequired
  | refresh (fence : Nat)

variable {C T : Type}

@[reducible] def Ans (C T : Type) : Op C → Type
  | .read _ _ => ReadAnswer Text T
  | .create _ _ _ | .swap _ _ _ _ => WriteAnswer Text T
  | .now => Int
  | .token => String
  | .sleep => Unit
  | .refreshRequired => Bool
  | .refresh _ => Refreshed C

abbrev P (C T : Type) := Prog (Op C) (Ans C T)

/-- A method: it returns or raises. -/
abbrev M (C T : Type) := ExceptT Exc (P C T)

def act (o : Op C) : M C T (Ans C T o) := ExceptT.lift (Prog.perform o)

def orRaise {α : Type} (r : Except Exc α) : M C T α := ExceptT.mk (.ret r)

/-! ## The object store -/

def readObject (key version : String) : M C T (Version Text T) := do
  let answer : ReadAnswer Text T ← act (.read key version)
  match answer with
  | .found item => return item
  | .absent => throw .objectNotFound
  | .failed => throw .storage

variable (config : Config)

def readRecord : M C T (Record × Version Text T) := do
  let item ← readObject (headPath config.path) ""
  let record ← orRaise (checkRecord config item)
  return (record, item)

/-- The end of a conditional head write: an unknown outcome is settled by reading the head again. -/
def settle (contents : Text) (answer : WriteAnswer Text T) : M C T Unit :=
  match answer with
  | .applied _ => return ()
  | .conflict => throw (.objectConflict "project object changed")
  | .failed => throw .storage
  | .unknown => do
    let observed ← readObject (headPath config.path) ""
    if observed.contents ≠ contents then throw .outcomeUnknown else return ()

def writeHead (op : HeadOp) (prior updated : Record) : M C T Unit := do
  let (record, head) ← readRecord config
  if record ≠ prior then throw (.objectConflict "connection revision conflict")
  else
    let answer : WriteAnswer Text T ← act (.swap (headPath config.path) head.etag (dumps (.head updated)) op)
    settle config (dumps (.head updated)) answer

/-- An immutable object: a conflict or an unknown outcome is settled by comparing the contents. -/
def createImmutable (key : String) (contents : Text) (differs : String) : M C T (Version Text T) := do
  let answer : WriteAnswer Text T ← act (.create key contents .object)
  match answer with
  | .applied item => return item
  | .failed => throw .storage
  | .conflict | .unknown =>
    let item ← readObject key ""
    if item.contents ≠ contents then throw (.value differs) else return item

/-! ## The refresh exchange -/

def readMaterial (record : Record) : M C T Material :=
  match record.credential with
  | none => throw (.value "credential reference must be a JSON object")
  | some reference => do
    let item ← readObject reference.key reference.version
    orRaise (checkMaterial config record reference item)

/-- The head that `_admit_refresh` writes. -/
def admittedRecord (record : Record) (now : Int) (attemptID invocationID : String) (expiresAt : Option DateTime) : Record :=
  connectionRecordWire config.scope config.key (record.revision + 1) (record.fence + 1) .refreshing
    (expiresAt.map .moment) record.authMethod record.credential
    (some ⟨Status.refreshing.text, invocationID, attemptID, record.fence + 1, record.revision, (utc (now + 40000000)).format,
      resultPath config.path attemptID⟩)

def admitRefresh (record : Record) (now : Int) : M C T Admission := do
  let attemptID : String ← act .token
  let invocationID : String ← act .token
  let expiresAt ← orRaise (parseExpiry record.expiresAt)
  writeHead config .admission record (admittedRecord config record now attemptID invocationID expiresAt)
  return ⟨.refreshing, attemptID, record.fence + 1, now + 40000000, resultPath config.path attemptID⟩

/-- The head that `_finish_exchange` writes. -/
def finishedRecord (record : Record) (status : Status) (expiresAt : Option DateTime) : Record :=
  connectionRecordWire config.scope config.key (record.revision + 1) (record.fence + 1) status (expiresAt.map .moment)
    record.authMethod record.credential none

def finishExchange (admission : Admission) (status : Status) : M C T Unit := do
  let (record, _) ← readRecord config
  if isAdmitted record admission then
    let expiresAt ← orRaise (parseExpiry record.expiresAt)
    writeHead config (.finish admission.attemptID admission.fence) record (finishedRecord config record status expiresAt)
  else throw (.objectConflict "credential exchange admission was superseded")

/-- `_publish_result` on the envelope of the result. -/
def checkResult (admission : Admission) (result : Version Text T) : Except Exc Envelope :=
  match result.contents.value with
  | .envelope envelope =>
    if envelope.schemaVersion ≠ connectionSchemaVersion ∨ envelope.scope ≠ config.scope ∨ envelope.connection ≠ config.key ∨
        envelope.fence ≠ admission.fence ∨ envelope.attemptID ≠ some admission.attemptID then
      .error (.value "credential exchange result identity is invalid")
    else .ok envelope
  | _ => .error (.value "credential exchange result identity is invalid")

/-- The head that `_publish_result` writes. -/
def publishedRecord (record : Record) (envelope : Envelope) (key : String) (result : Version Text T)
    (expiresAt : Option DateTime) : Record :=
  connectionRecordWire config.scope config.key (record.revision + 1) record.fence .ready (expiresAt.map .moment)
    envelope.authMethod (some ⟨key, result.id, config.digest result.contents⟩) none

/-- The head already references the result. -/
def references (record : Record) (key : String) : Bool :=
  record.status == .ready && record.credential.any (fun reference => reference.key == key)

/-- `_publish_result` after its head write: a conflict is no failure when the head references the result. -/
def settlePublished (key : String) (written : Except Exc Unit) : M C T Unit :=
  match written with
  | .ok () => return ()
  | .error (.objectConflict text) => do
    let (observed, _) ← readRecord config
    if references observed key then return () else throw (.objectConflict text)
  | .error exc => throw exc

/-- `_publish_result`; `key` is the key of the result object. -/
def publishResult (admission : Admission) (key : String) (result : Version Text T) : M C T Unit := do
  let (record, _) ← readRecord config
  if references record key then return ()
  else if isAdmitted record admission then
    let envelope ← orRaise (checkResult config admission result)
    let expiresAt ← orRaise (parseExpiry envelope.expiresAt)
    let written ← ExceptT.lift (writeHead config (.publish admission.attemptID admission.fence) record
      (publishedRecord config record envelope key result expiresAt)).run
    settlePublished config key written
  else throw (.objectConflict "credential exchange admission was superseded")

def commitRefresh (admission : Admission) (material : Material) : M C T Unit := do
  let envelope := credentialEnvelopeWire config.scope config.key admission.fence material admission.attemptID
  let result ← createImmutable admission.resultKey (dumps (.envelope envelope)) "immutable credential result differs"
  publishResult config admission admission.resultKey result

variable (decode : String → Option C) (encode : C → Option String)

/-- `_refresh_admitted` after `driver.refresh`. -/
def refreshedWith (admission : Admission) (prior : Material) (outcome : Refreshed C) : M C T C :=
  match outcome with
  | .reauthorizationRequired => do
    finishExchange config admission .reauthorizationRequired
    throw .reauthorizationRequired
  | .failed isAddressRefusal => do
    finishExchange config admission .ready
    throw (if isAddressRefusal then .addressRefusal
      else .refreshFailed "project credential refresh failed; current authorization is kept")
  | .result credentials expiresAt => do
    let now : Int ← act .now
    if expiresAt.instant ≤ now then
      finishExchange config admission .ready
      throw (.refreshFailed "refreshed credential has no future expiry")
    else match encode credentials with
      | none => do
        finishExchange config admission .ready
        throw (.refreshFailed "refreshed credential encoding failed")
      | some encoded => do
        commitRefresh config admission ⟨encoded, some (.moment expiresAt), prior.authMethod⟩
        return credentials

def refreshAdmitted (admission : Admission) (prior : Material) : M C T C := do
  let outcome : Refreshed C ← act (.refresh admission.fence)
  refreshedWith config encode admission prior outcome

/-- The admission that `_recover_or_wait` finds in a pending head. -/
def observed (record : Record) (mutation : Mutation) : Except Exc Admission :=
  match fromisoformat mutation.deadline with
  | none => .error (.value "Invalid isoformat string")
  | some deadline => .ok ⟨record.status, mutation.id, record.fence, deadline.instant, mutation.resultKey⟩

/-- What an abandoned exchange leaves. -/
def abandonedStatus (kind : Status) : Status := if kind = .authorizing then .reauthorizationRequired else .ready

def recoverOrWait (record : Record) : M C T Unit :=
  match record.mutation with
  | none => throw (.value "credential mutation must be a JSON object")
  | some mutation => do
    let admission ← orRaise (observed record mutation)
    let answer : ReadAnswer Text T ← act (.read admission.resultKey "")
    match answer with
    | .failed => throw .storage
    | .found result => publishResult config admission admission.resultKey result
    | .absent =>
      let now : Int ← act .now
      if now < admission.deadline then
        let _ ← act .sleep
        return ()
      else finishExchange config admission (abandonedStatus admission.kind)

/-- What one round of `resolve_with_refresh` ends with: another round, or the credential. -/
inductive Round (C : Type) where
  | again
  | done (credentials : C)

def Exc.isConflict : Exc → Bool
  | .objectConflict _ => true
  | _ => false

/-- `except ObjectConflictError: continue`. -/
def unlessConflict {α : Type} (body : M C T α) (next : α → M C T (Round C)) : M C T (Round C) := do
  let result ← ExceptT.lift body.run
  match result with
  | .ok a => next a
  | .error exc => if exc.isConflict then return .again else throw exc

/-- `_as_datetime(material.expires_at)`, in microseconds; `_read_material` always gives a `datetime`. -/
def Material.expiry (material : Material) : Option Int :=
  match material.expiresAt with
  | some (.moment time) => some time.instant
  | _ => none

/-- `expires_at` has passed, or the driver asks for a refresh. -/
def isRefreshRequired (isExpired : Bool) : M C T Bool :=
  match isExpired with
  | true => return true
  | false => act .refreshRequired

def round : M C T (Round C) := do
  let (record, _) ← readRecord config
  match record.status with
  | .revoked | .reauthorizationRequired => throw .reauthorizationRequired
  | .authorizing =>
    let now : Int ← act .now
    if record.mutation.any (fun m => (fromisoformat m.deadline).any (fun d => decide (now < d.instant))) then
      throw .exchangePending
    else unlessConflict (recoverOrWait config record) (fun _ => return .again)
  | .refreshing => unlessConflict (recoverOrWait config record) (fun _ => return .again)
  | .ready =>
    let material ← readMaterial config record
    match decode material.credentials with
    | none => throw (.value "project credential decoding failed")
    | some credentials =>
      let now : Int ← act .now
      let isRequired ← isRefreshRequired (material.expiry.any (fun e => decide (e ≤ now)))
      if isRequired then
        unlessConflict (admitRefresh config record now) (fun admission => do
          let refreshed ← refreshAdmitted config encode admission material
          return .done refreshed)
      else return .done credentials

/-- `resolve_with_refresh`, for at most `rounds` rounds. -/
def resolveWithRefresh : Nat → M C T C
  | 0 => throw .unfinished
  | rounds + 1 => do
    let result ← round config decode encode
    match result with
    | .done credentials => return credentials
    | .again => resolveWithRefresh rounds

/-- `ConnectionStore.read_connection`: the head with its expiry. -/
def readConnection : M C T (Record × Option DateTime) := do
  let (record, _) ← readRecord config
  let expiresAt ← orRaise (parseExpiry record.expiresAt)
  return (record, expiresAt)

/-- `resolve_after_rejection`; the exception of a credential that has not expired is a class of its own. -/
def resolveAfterRejection (rounds : Nat) : M C T C := do
  let (_, expiresAt) ← readConnection config
  match expiresAt with
  | none => throw (.value "authentication rejection does not prove credential expiry")
  | some expiresAt =>
    let now : Int ← act .now
    if now < expiresAt.instant then throw (.value "authentication rejection does not prove credential expiry")
    else resolveWithRefresh config decode encode rounds

/-- `CredentialProvider.resolve`. -/
def resolve : M C T C := do
  let (record, expiresAt) ← readConnection config
  if record.status ≠ .ready then throw (.value "project credential is unavailable")
  else
    let material ← readMaterial config record
    let now : Int ← act .now
    if expiresAt.any (fun e => decide (e.instant ≤ now)) then throw (.value "expired project credential requires refresh")
    else match decode material.credentials with
      | none => throw (.value "project credential decoding failed")
      | some credentials => return credentials

/-! ## `replace_credential` -/

/-- The head `replace_credential` starts from. -/
def readPrior (expectedRevision : Nat) : M C T (Option (Record × Version Text T)) := do
  let answer ← ExceptT.lift (readRecord config).run
  match answer with
  | .ok found => return some found
  | .error .objectNotFound => if expectedRevision ≠ 0 then throw .objectNotFound else return none
  | .error exc => throw exc

def replacedRecord (expectedRevision fence : Nat) (material : Material) (reference : Reference) : Record :=
  connectionRecordWire config.scope config.key (expectedRevision + 1) fence .ready material.expiresAt material.authMethod
    (some reference) none

/-- The head write of `replace_credential`. -/
def writeReplaced (prior : Option (Record × Version Text T)) (contents : Text) : M C T (WriteAnswer Text T) :=
  match prior with
  | none => act (.create (headPath config.path) contents .replace)
  | some found => act (.swap (headPath config.path) found.2.etag contents .replace)

def replaceCredential (expectedRevision : Nat) (material : Material) : M C T Record := do
  if material.authMethod = "" then throw (.value "invalid credential material")
  else
    let prior ← readPrior config expectedRevision
    if (prior.map (fun p => p.1.revision)).getD 0 ≠ expectedRevision then
      throw (.objectConflict "connection revision conflict")
    else
      let fence := (prior.map (fun p => p.1.fence)).getD 0 + 1
      let contents := dumps (.envelope (credentialEnvelopeWire config.scope config.key fence material ""))
      let key := credentialPath config.path (config.digest contents)
      let candidate ← createImmutable key contents "immutable credential content differs"
      let updated := replacedRecord config expectedRevision fence material ⟨key, candidate.id, config.digest contents⟩
      let answer ← writeReplaced config prior (dumps (.head updated))
      settle config (dumps (.head updated)) answer
      return updated

/-! ## Tasks -/

inductive Call (C : Type) where
  | resolveWithRefresh (decode : String → Option C) (encode : C → Option String) (rounds : Nat)
  | replaceCredential (expectedRevision : Nat) (material : Material)

/-- What a call returns, as far as it matters: a credential or a head. -/
inductive Result (C : Type) where
  | credentials (value : C)
  | connection (record : Record)

def Call.program : Call C → P C T (Except Exc (Result C))
  | .resolveWithRefresh decode encode rounds =>
    (Result.credentials <$> Provider.resolveWithRefresh config decode encode rounds : M C T (Result C)).run
  | .replaceCredential expectedRevision material =>
    (Result.connection <$> Provider.replaceCredential config expectedRevision material : M C T (Result C)).run

structure World (ι : Type) where
  objects   : Objects Text (Writer ι)
  -- ghost
  issued    : List (String × ι)         -- tokens, with the task that drew them
  refreshed : List (ι × Nat)            -- calls of `driver.refresh`, with the fence they were admitted under

variable {ι : Type}

/-- A token that no task has drawn and no head carries. -/
def FreshToken (w : World ι) (token : String) : Prop :=
  (∀ j, (token, j) ∉ w.issued) ∧ ∀ key, ∀ v ∈ w.objects key, ∀ record mutation, v.contents.value = .head record →
    record.mutation = some mutation → mutation.invocationID ≠ token

/-- **What task `i`'s operation may answer and leave behind.** -/
def step (i : ι) : (o : Op C) → World ι → Ans C (Writer ι) o → World ι → Prop
  | .read key version, w, a, w' => Reads w.objects key version a ∧ w' = w
  | .create key contents op, w, a, w' =>
    ∃ s, Creates w.objects key contents (.task i op) a s ∧ w' = { w with objects := s }
  | .swap key etag contents op, w, a, w' =>
    ∃ s, Swaps w.objects key etag contents (.task i op) a s ∧ w' = { w with objects := s }
  | .token, w, token, w' => FreshToken w token ∧ w' = { w with issued := (token, i) :: w.issued }
  | .refresh fence, w, _, w' => w' = { w with refreshed := (i, fence) :: w.refreshed }
  | .now, w, _, w' => w' = w
  | .sleep, w, _, w' => w' = w
  | .refreshRequired, w, _, w' => w' = w

end Provider
end Dex
