import DexConnectors.LibMethod
import DexConnectors.LibObjectStore
import DexConnectors.ConnectionGoWire
/-!
# ConnectionGoModel — the Go connection store and resolver (`sdkgo/projectconfig/connections.go`, `exchange.go`, `provider.go`)

The methods of `ConnectionStore` and `CredentialResolver` for one connection whose key `connectionPath` accepts; for any
other key each of them returns its error and does nothing.  A method is a program over the object store, the clock,
`newAttemptID`, the context and the refresh driver; an error ends it.  A caller that is cancelled, or whose process dies,
takes no further step.

`decode` and `encode` are the connector's functions, `digest` is `digestBytes`.  The loop of `ResolveWithRefresh` takes the
number of rounds it may make.  `HeadOp` says why a head was written and `grant` that an invocation returns
`ProviderDispatchAllowed`: both are ghosts.
-/
namespace Dex
namespace Connections

open Lib Lib.Store
open Lib.Method (attempt orRaise)
open Wire (Scope)
open Operation (Time)

inductive Err where
  | objectNotFound
  | conflict
  | outcomeUnknown
  | exchangePending
  | reauthorizationRequired
  | refreshFailed
  | other (text : String)
  | unfinished                      -- the rounds of the loop are used up
  | join (left right : Err)         -- `errors.Join`, or `%w: %w`
  deriving DecidableEq, Repr

/-- `errors.Is`. -/
def Err.is : Err → Err → Bool
  | .join left right, target => left.is target || right.is target
  | err, target => err == target

/-- Why a head was written. -/
inductive HeadOp where
  | admission
  | publish (attemptID : String) (fence : UInt64)
  | restore (attemptID : String) (fence : UInt64)
  | fail (attemptID : String) (fence : UInt64)
  | replace
  | revoke
  | object                          -- not a head
  deriving DecidableEq, Repr

/-- Who wrote a version: something before the run, or a caller. -/
inductive Writer (ι : Type) where
  | base
  | caller (i : ι) (op : HeadOp)

structure Config where
  scope     : Scope
  scopePath : String
  isScope   : ConfigStore.scopePrefix scope = .ok scopePath
  key       : ConnectionKey
  isKey     : isConnectionKey key = true
  digest    : Contents → String
  digestLen : ∀ contents, ConfigStore.byteLength (digest contents) = 64

/-- `connectionPath` of the key. -/
def Config.path (config : Config) : String := pathOf config.scopePath config.key

structure Connection where
  key        : ConnectionKey
  scope      : Scope
  revision   : UInt64
  fence      : UInt64
  status     : CredentialStatus
  expiresAt  : Option Time
  authMethod : Bytes
  deriving DecidableEq

def ConnectionRecord.connection (record : ConnectionRecord Time) : Connection :=
  ⟨record.key, record.scope, record.revision, record.fence, record.status, record.expiresAt, record.authMethod⟩

structure ExchangeAdmission where
  attemptID               : String
  fence                   : UInt64
  deadline                : Time
  providerDispatchAllowed : Bool
  deriving DecidableEq

/-! ## Checks -/

section

variable {T : Type} (config : Config)

def referenceIsValid (reference : ObjectReference) : Bool :=
  Wire.isBelow config.path reference.key && reference.version != "" && ConfigStore.byteLength reference.digest == 64

/-- The checks of `readRecord` on the mutation of a pending head. -/
def mutationIsValid (record : ConnectionRecord Time) (mutation : CredentialMutation Time) : Bool :=
  ConfigStore.scopeIdentity mutation.id && mutation.invocationID != "" && mutation.kind == record.status.text &&
    mutation.fence == record.fence && mutation.baseRevision + 1 == record.revision && !mutation.deadline.isZero &&
    mutation.resultKey == exchangeResultPath config.path mutation.id

/-- The checks of `readRecord` on the credential, by the status. -/
def checkCredential (record : ConnectionRecord Time) : Except Err Unit :=
  match record.status with
  | .ready | .refreshing =>
    if record.credential.any (referenceIsValid config) then .ok () else .error (.other "project credential reference is invalid")
  | .authorizing | .reauthorizationRequired =>
    if record.credential.all (referenceIsValid config) then .ok () else .error (.other "project credential reference is invalid")
  | .revoked =>
    if record.credential ≠ none ∨ record.mutation ≠ none then .error (.other "revoked connection retains active material")
    else .ok ()
  | .other _ => .error (.other "project credential status is invalid")

/-- The checks of `readRecord` on the mutation, by the status. -/
def checkMutation (record : ConnectionRecord Time) : Except Err Unit :=
  if record.status = .refreshing ∨ record.status = .authorizing then
    if record.mutation.any (mutationIsValid config record) then .ok () else .error (.other "credential refresh admission is invalid")
  else if record.mutation ≠ none then .error (.other "inactive credential refresh admission")
  else .ok ()

/-- `readRecord` after the read. -/
def checkRecord (item : Version Contents T) : Except Err (ConnectionRecord Time) :=
  match unmarshalRecord item.contents with
  | none => .error (.other "project connection identity is invalid")
  | some record =>
    if record.schemaVersion ≠ Wire.connectionSchemaVersion ∨ record.scope ≠ config.scope ∨ record.key ≠ config.key ∨
        record.revision = 0 ∨ record.fence = 0 ∨ item.id = "" ∨ item.etag = "" then
      .error (.other "project connection identity is invalid")
    else match checkCredential config record with
      | .error err => .error err
      | .ok () =>
        match checkMutation config record with
        | .error err => .error err
        | .ok () => .ok record

def sameExpiry : Option Time → Option Time → Bool
  | none, none => true
  | some left, some right => left.instant == right.instant
  | _, _ => false

/-- `readMaterial` after the read. -/
def checkMaterial (record : ConnectionRecord Time) (reference : ObjectReference) (item : Version Contents T) :
    Except Err CredentialMaterial :=
  if config.digest item.contents ≠ reference.digest then .error (.other "project credential identity or integrity differs")
  else match unmarshalEnvelope item.contents with
    | none => .error (.other "project credential identity or integrity differs")
    | some envelope =>
      if envelope.schemaVersion ≠ Wire.connectionSchemaVersion ∨ envelope.scope ≠ config.scope ∨ envelope.key ≠ record.key ∨
          envelope.authMethod ≠ record.authMethod ∨ sameExpiry envelope.expiresAt record.expiresAt = false then
        .error (.other "project credential identity or integrity differs")
      else if validateMaterial ⟨envelope.credentials, envelope.expiresAt, envelope.authMethod⟩ then
        .ok ⟨envelope.credentials, envelope.expiresAt, envelope.authMethod⟩
      else .error (.other "invalid private credential material")

/-- The envelope is that of an exchange of this connection. -/
def isEnvelopeOf (envelope : CredentialEnvelope Time) (attemptID : String) (fence : UInt64) : Bool :=
  envelope.schemaVersion == Wire.connectionSchemaVersion && envelope.scope == config.scope && envelope.key == config.key &&
    envelope.fence == fence && envelope.attemptID == attemptID

/-- `RecoverCredentialExchange` on the result it has read. -/
def checkResult (admission : ExchangeAdmission) (result : Version Contents T) (fence : UInt64) :
    Except Err (CredentialEnvelope Time) :=
  match unmarshalEnvelope result.contents with
  | none => .error (.other "credential exchange result identity is invalid")
  | some envelope =>
    if result.id = "" ∨ result.id = "null" ∨ isEnvelopeOf config envelope admission.attemptID fence = false then
      .error (.other "credential exchange result identity is invalid")
    else if validateMaterial ⟨envelope.credentials, envelope.expiresAt, envelope.authMethod⟩ then .ok envelope
    else .error (.other "invalid private credential material")

/-- `isCompletedExchange` on the object it has read. -/
def isResultOf (reference : ObjectReference) (attemptID : String) (fence : UInt64) (object : Version Contents T) : Bool :=
  config.digest object.contents == reference.digest &&
    (unmarshalEnvelope object.contents).any (fun envelope => isEnvelopeOf config envelope attemptID fence)

end

/-- The checks of `readAdmitted`. -/
def isAdmitted (record : ConnectionRecord Time) (admission : ExchangeAdmission) : Bool :=
  record.mutation.any (fun m => m.id == admission.attemptID && m.deadline.instant == admission.deadline.instant) &&
    record.fence == admission.fence

def exchangeAdmission (record : ConnectionRecord Time) (mutation : CredentialMutation Time) (canDispatch : Bool) :
    ExchangeAdmission :=
  ⟨mutation.id, record.fence, mutation.deadline, canDispatch⟩

/-! ## Operations -/

/-- What a call of `driver.Refresh` returns. -/
inductive Refreshed (C : Type) where
  | result (credentials : C) (expiresAt : Time)
  | failed (err : Err)

inductive Op (C : Type) where
  | read (key version : String)
  | create (key : String) (contents : Contents) (op : HeadOp)
  | swap (key etag : String) (contents : Contents) (op : HeadOp)
  | now
  | nowAnd (later : Int)            -- `now` and `now.Add(later)`
  | newAttemptID
  | grant (invocationID : String) (fence : UInt64)
  | contextErr
  | wait
  | refreshRequired
  | refresh (fence : UInt64)

variable {C T : Type}

@[reducible] def Ans (C T : Type) : Op C → Type
  | .read _ _ => ReadAnswer Contents T
  | .create _ _ _ | .swap _ _ _ _ => WriteAnswer Contents T
  | .now => Time
  | .nowAnd _ => Time × Time
  | .newAttemptID => Option String
  | .grant _ _ => Unit
  | .contextErr | .wait => Option Err
  | .refreshRequired => Bool
  | .refresh _ => Refreshed C

abbrev M (C T : Type) := Method (Op C) (Ans C T) Err

abbrev act (o : Op C) : M C T (Ans C T o) := Method.act o

/-! ## The object store -/

def readObject (key version : String) : M C T (Version Contents T) := do
  let answer : ReadAnswer Contents T ← act (.read key version)
  match answer with
  | .found item => return item
  | .absent => throw .objectNotFound
  | .failed => throw (.other "storage")

variable (config : Config)

def readRecord : M C T (ConnectionRecord Time × Version Contents T) := do
  let item ← readObject (connectionHeadPath config.path) ""
  let record ← orRaise (checkRecord config item)
  return (record, item)

/-- After a write whose outcome is in doubt: the object has the contents, or the write has failed. -/
def observeObject (key : String) (contents : Contents) (failure : Err) : M C T (Version Contents T) := do
  let observed : ReadAnswer Contents T ← act (.read key "")
  match observed with
  | .found item => if item.contents = contents then return item else throw failure
  | _ => throw failure

/-- The end of `writeRecord`: an unknown outcome is settled by reading the head again. -/
def settle (contents : Contents) (answer : WriteAnswer Contents T) : M C T (Version Contents T) :=
  match answer with
  | .applied item => return item
  | .conflict => throw .conflict
  | .failed => throw (.other "storage")
  | .unknown => observeObject (connectionHeadPath config.path) contents .outcomeUnknown

/-- The conditional write of `writeRecord`; the empty tag means that there is no head. -/
def writeContents (op : HeadOp) (contents : Contents) (etag : String) : M C T (WriteAnswer Contents T) :=
  if etag = "" then act (.create (connectionHeadPath config.path) contents op)
  else act (.swap (connectionHeadPath config.path) etag contents op)

def writeRecord (op : HeadOp) (record : ConnectionRecord Time) (etag : String) : M C T (Version Contents T) :=
  match marshalRecord record with
  | none => throw (.other "project connection encoding failed")
  | some contents => do
    let answer ← writeContents config op contents etag
    settle config contents answer

/-- The write of `createImmutable`: a conflict or an unknown outcome is settled by comparing the contents. -/
def createObject (key : String) (contents : Contents) : M C T (Version Contents T) := do
  let answer : WriteAnswer Contents T ← act (.create key contents .object)
  match answer with
  | .applied item => return item
  | .failed => throw (.other "storage")
  | .conflict => observeObject key contents .conflict
  | .unknown => observeObject key contents .outcomeUnknown

def createImmutable (key : String) (contents : Contents) : M C T ObjectReference := do
  let item ← createObject key contents
  if item.id = "" ∨ item.id = "null" then throw .outcomeUnknown
  else return ⟨key, item.id, config.digest contents⟩

def readMaterial (record : ConnectionRecord Time) : M C T CredentialMaterial :=
  match record.credential with
  | none => throw (.other "project credential is absent")
  | some reference => do
    let item ← readObject reference.key reference.version
    orRaise (checkMaterial config record reference item)

/-! ## `connections.go` -/

def readConnection : M C T Connection := do
  let (record, _) ← readRecord config
  return record.connection

def readCredentialMaterial : M C T (CredentialMaterial × Connection) := do
  let (record, _) ← readRecord config
  if record.status ≠ .ready then throw (.other "project credential is unavailable")
  else
    let material ← readMaterial config record
    return (material, record.connection)

/-- The record of a connection without a head. -/
def newRecord : ConnectionRecord Time :=
  ⟨Wire.connectionSchemaVersion, config.key, config.scope, 0, 0, .other "", none, [], none, none⟩

/-- The record to change and its tag; without a head a new record and the empty tag, if the caller may create one. -/
def readPrior (canCreate : Bool) : M C T (ConnectionRecord Time × String) := do
  let answer ← attempt (readRecord config)
  match answer with
  | .ok (record, item) => return (record, item.etag)
  | .error err => if err = .objectNotFound ∧ canCreate = true then return (newRecord config, "") else throw err

/-- The head that `ReplaceCredential` writes. -/
def replacedRecord (record : ConnectionRecord Time) (material : CredentialMaterial) (reference : ObjectReference) :
    ConnectionRecord Time :=
  { record with
    credential := some reference, mutation := none, revision := record.revision + 1, fence := record.fence + 1
    status := .ready, expiresAt := material.expiresAt, authMethod := material.authMethod }

/-- The envelope of a replacement, or of the result of an exchange. -/
def envelopeOf (fence : UInt64) (attemptID : String) (material : CredentialMaterial) : CredentialEnvelope Time :=
  ⟨Wire.connectionSchemaVersion, config.scope, config.key, fence, attemptID, material.credentials, material.expiresAt,
    material.authMethod⟩

def replaceCredential (expectedRevision : UInt64) (material : CredentialMaterial) : M C T Connection :=
  if !validateMaterial material then throw (.other "invalid private credential material")
  else do
    let (record, etag) ← readPrior config (expectedRevision == 0)
    if record.revision ≠ expectedRevision then throw .conflict
    else match marshalEnvelope (envelopeOf config (record.fence + 1) "" material) with
      | none => throw (.other "credential encoding failed")
      | some contents => do
        let reference ← createImmutable config (credentialObjectPath config.path (config.digest contents)) contents
        let _ ← writeRecord config .replace (replacedRecord record material reference) etag
        return (replacedRecord record material reference).connection

/-- The head that `RevokeConnection` writes. -/
def revokedRecord (record : ConnectionRecord Time) : ConnectionRecord Time :=
  { record with
    revision := record.revision + 1, fence := record.fence + 1, status := .revoked, credential := none, mutation := none
    expiresAt := none }

def revokeConnection (expectedRevision : UInt64) : M C T Connection := do
  let (record, item) ← readRecord config
  if record.revision ≠ expectedRevision then throw .conflict
  else
    let _ ← writeRecord config .revoke (revokedRecord record) item.etag
    return (revokedRecord record).connection

/-! ## `exchange.go` -/

/-- The head is `READY` with the result of this exchange. -/
def isCompletedExchange (record : ConnectionRecord Time) (attemptID : String) (fence : UInt64) : M C T Bool :=
  match record.credential with
  | none => return false
  | some reference =>
    if record.status ≠ .ready ∨ record.fence ≠ fence then return false
    else if reference.key ≠ exchangeResultPath config.path attemptID then return false
    else do
      let object ← readObject reference.key reference.version
      if isResultOf config reference attemptID fence object then return true
      else throw (.other "completed credential exchange identity differs")

/-- The head that `beginExchange` writes. -/
def admittedRecord (record : ConnectionRecord Time) (attemptID invocationID : String) (deadline : Time)
    (status : CredentialStatus) : ConnectionRecord Time :=
  { record with
    mutation := some ⟨status.text, invocationID, attemptID, record.fence + 1, record.revision, deadline,
      exchangeResultPath config.path attemptID⟩
    revision := record.revision + 1, fence := record.fence + 1, status := status }

/-- The head, observed after a conflict, has this attempt admitted. -/
def isObserved (mutation : CredentialMutation Time) (expectedRevision : UInt64) (attemptID : String) (deadline : Time)
    (status : CredentialStatus) : Bool :=
  mutation.id == attemptID && mutation.kind == status.text &&
    mutation.baseRevision == expectedRevision && mutation.deadline.instant == deadline.instant

/-- The end of `beginExchange`, after its head write. -/
def settleAdmission (expectedRevision : UInt64) (attemptID invocationID : String) (deadline : Time) (status : CredentialStatus)
    (fence : UInt64) (written : Except Err (Version Contents T)) : M C T ExchangeAdmission :=
  match written with
  | .ok _ => do
    let _ ← act (.grant invocationID fence)
    return ⟨attemptID, fence, deadline, true⟩
  | .error err =>
    if err.is .conflict then do
      let answer ← attempt (readRecord config)
      match answer with
      | .error readErr => throw (.join err readErr)
      | .ok (observed, _) =>
        match observed.mutation with
        | none => throw err
        | some mutation =>
          if isObserved mutation expectedRevision attemptID deadline status then
            return exchangeAdmission observed mutation false
          else throw err
    else throw err

/-- `beginExchange` on a head that does not have the attempt yet. -/
def admitExchange (record : ConnectionRecord Time) (etag : String) (expectedRevision : UInt64) (attemptID : String)
    (deadline : Time) (status : CredentialStatus) : M C T ExchangeAdmission := do
  let now : Time ← act .now
  if deadline.instant ≤ now.instant then throw (.other "invalid credential exchange deadline")
  else
    let again : Time ← act .now
    if again.instant + 900000000000 < deadline.instant then throw (.other "invalid credential exchange deadline")
    else if record.revision ≠ expectedRevision then throw .conflict
    else if status = .refreshing ∧ record.status ≠ .ready then throw .conflict
    else
      let drawn : Option String ← act .newAttemptID
      match drawn with
      | none => throw (.other "credential admission identity unavailable")
      | some invocationID =>
        let written ← attempt (writeRecord config .admission (admittedRecord config record attemptID invocationID deadline status)
          etag)
        settleAdmission config expectedRevision attemptID invocationID deadline status (record.fence + 1) written

def beginExchange (expectedRevision : UInt64) (attemptID : String) (deadline : Time) (status : CredentialStatus) :
    M C T ExchangeAdmission :=
  if !ConfigStore.scopeIdentity attemptID then throw (.other "invalid credential exchange identity or deadline")
  else do
    let (record, etag) ← readPrior config (expectedRevision == 0 && status == .authorizing)
    let isComplete ← isCompletedExchange config record attemptID record.fence
    if isComplete then return ⟨attemptID, record.fence, deadline, false⟩
    else match record.mutation with
      | none => admitExchange config record etag expectedRevision attemptID deadline status
      | some mutation =>
        if mutation.id = attemptID ∧ mutation.kind = status.text then return exchangeAdmission record mutation false
        else admitExchange config record etag expectedRevision attemptID deadline status

def beginCredentialExchange (expectedRevision : UInt64) (attemptID : String) (deadline : Time) : M C T ExchangeAdmission :=
  beginExchange config expectedRevision attemptID deadline .authorizing

/-- The head that `publishExchange` writes. -/
def publishedRecord (record : ConnectionRecord Time) (reference : ObjectReference) (expiresAt : Option Time)
    (authMethod : Bytes) : ConnectionRecord Time :=
  { record with
    revision := record.revision + 1, status := .ready, credential := some reference, mutation := none
    expiresAt := expiresAt, authMethod := authMethod }

def publishExchange (admission : ExchangeAdmission) (record : ConnectionRecord Time) (etag : String)
    (reference : ObjectReference) (expiresAt : Option Time) (authMethod : Bytes) : M C T Connection := do
  let _ ← writeRecord config (.publish admission.attemptID admission.fence)
    (publishedRecord record reference expiresAt authMethod) etag
  return (publishedRecord record reference expiresAt authMethod).connection

/-- The head that `restoreRefresh` or `failExchange` writes. -/
def endedRecord (record : ConnectionRecord Time) (status : CredentialStatus) : ConnectionRecord Time :=
  { record with revision := record.revision + 1, fence := record.fence + 1, status := status, mutation := none }

def restoreRefresh (admission : ExchangeAdmission) (record : ConnectionRecord Time) (etag : String) : M C T Connection := do
  let _ ← writeRecord config (.restore admission.attemptID admission.fence) (endedRecord record .ready) etag
  return (endedRecord record .ready).connection

def failExchange (admission : ExchangeAdmission) (record : ConnectionRecord Time) (etag : String) : M C T Connection := do
  let _ ← writeRecord config (.fail admission.attemptID admission.fence) (endedRecord record .reauthorizationRequired) etag
  return (endedRecord record .reauthorizationRequired).connection

/-- What `readAdmitted` and the test for a completed exchange come to. -/
inductive Admitted (T : Type) where
  | completed (connection : Connection)
  | pending (record : ConnectionRecord Time) (mutation : CredentialMutation Time) (item : Version Contents T)

/-- `readAdmitted`: the record comes back with `ErrConflict` as well. -/
def readAdmitted (admission : ExchangeAdmission) : M C T (ConnectionRecord Time × Version Contents T × Except Err Unit) := do
  let (record, item) ← readRecord config
  return (record, item, if isAdmitted record admission then .ok () else .error .conflict)

/-- How commits and recoveries start. -/
def readUncompleted (admission : ExchangeAdmission) : M C T (Admitted T) := do
  let (record, item, admitted) ← readAdmitted config admission
  match admitted, record.mutation with
  | .ok (), some mutation => return .pending record mutation item
  | _, _ =>
    let isComplete ← isCompletedExchange config record admission.attemptID admission.fence
    if isComplete then return .completed record.connection else throw .conflict

def commitCredentialExchange (admission : ExchangeAdmission) (material : CredentialMaterial) : M C T Connection := do
  let admitted ← readUncompleted config admission
  match admitted with
  | .completed connection => return connection
  | .pending record mutation item =>
    if !validateMaterial material then throw (.other "invalid private credential material")
    else match marshalEnvelope (envelopeOf config record.fence admission.attemptID material) with
      | none => throw (.other "credential result encoding failed")
      | some contents =>
        let reference ← createImmutable config mutation.resultKey contents
        publishExchange config admission record item.etag reference material.expiresAt material.authMethod

/-- `RecoverCredentialExchange` when there is no result. -/
def recoverAbsent (admission : ExchangeAdmission) (record : ConnectionRecord Time) (mutation : CredentialMutation Time)
    (etag : String) : M C T Connection := do
  let now : Time ← act .now
  if now.instant < mutation.deadline.instant then throw .exchangePending
  else if mutation.kind = CredentialStatus.refreshing.text ∧ record.credential ≠ none then
    restoreRefresh config admission record etag
  else
    let _ ← failExchange config admission record etag
    throw .reauthorizationRequired

def recoverCredentialExchange (admission : ExchangeAdmission) : M C T Connection := do
  let admitted ← readUncompleted config admission
  match admitted with
  | .completed connection => return connection
  | .pending record mutation item =>
    let answer : ReadAnswer Contents T ← act (.read mutation.resultKey "")
    match answer with
    | .failed => throw (.other "storage")
    | .absent => recoverAbsent config admission record mutation item.etag
    | .found result =>
      let envelope ← orRaise (checkResult config admission result record.fence)
      publishExchange config admission record item.etag ⟨mutation.resultKey, result.id, config.digest result.contents⟩
        envelope.expiresAt envelope.authMethod

def failCredentialExchange (admission : ExchangeAdmission) : M C T Unit := do
  let (record, item, admitted) ← readAdmitted config admission
  match admitted with
  | .error err => throw err
  | .ok () =>
    let _ ← failExchange config admission record item.etag
    return ()

def abortRefresh (admission : ExchangeAdmission) : M C T Unit := do
  let (record, item, admitted) ← readAdmitted config admission
  match admitted with
  | .error err => throw err
  | .ok () =>
    if record.mutation.any (fun m => m.kind == CredentialStatus.refreshing.text) = false ∨ record.credential = none then
      throw .conflict
    else
      let _ ← restoreRefresh config admission record item.etag
      return ()

/-! ## `provider.go` -/

variable (decode : Bytes → Option C) (encode : Option (C → Option Bytes))

/-- `abortRefresh` of the resolver. -/
def abortWith {α : Type} (admission : ExchangeAdmission) (cause : Err) : M C T α := do
  let aborted ← attempt (abortRefresh config admission)
  match aborted with
  | .error err => throw (.join (.join .refreshFailed cause) err)
  | .ok () => throw (.join .refreshFailed cause)

/-- `refreshAdmitted` after `driver.Refresh`. -/
def refreshedWith (encode : C → Option Bytes) (admission : ExchangeAdmission) (prior : CredentialMaterial)
    (outcome : Refreshed C) : M C T C :=
  match outcome with
  | .failed err =>
    if err.is .reauthorizationRequired then do
      failCredentialExchange config admission
      throw .reauthorizationRequired
    else abortWith config admission err
  | .result credentials expiresAt => do
    let now : Time ← act .now
    if expiresAt.instant ≤ now.instant then abortWith config admission (.other "refreshed credential has no future expiry")
    else match encode credentials with
      | none => abortWith config admission (.other "refreshed credential encoding failed")
      | some encoded =>
        if !validateMaterial ⟨encoded, some expiresAt, prior.authMethod⟩ then
          abortWith config admission (.other "invalid private credential material")
        else
          let _ ← commitCredentialExchange config admission ⟨encoded, some expiresAt, prior.authMethod⟩
          return credentials

def refreshAdmitted (encode : C → Option Bytes) (admission : ExchangeAdmission) (prior : CredentialMaterial) : M C T C := do
  let outcome : Refreshed C ← act (.refresh admission.fence)
  refreshedWith config encode admission prior outcome

/-- What one round of `ResolveWithRefresh` ends with: another round, or the credential. -/
inductive Round (C : Type) where
  | again
  | done (credentials : C)

/-- What a round makes of a recovery of its own. -/
def recoverRound (recovered : Except Err Connection) (otherwise : Err → M C T (Round C)) : M C T (Round C) :=
  match recovered with
  | .ok _ => return .again
  | .error err => if err.is .conflict then return .again else otherwise err

/-- A round on a pending refresh that could not be recovered. -/
def waitForExchange (err : Err) : M C T (Round C) :=
  if err.is .reauthorizationRequired then throw .reauthorizationRequired
  else if !err.is .exchangePending then throw err
  else do
    let waited : Option Err ← act .wait
    match waited with
    | some stopped => throw stopped
    | none => return .again

/-- `expires_at` has passed, or the driver asks for a refresh. -/
def isRefreshRequired (isExpired : Bool) : M C T Bool :=
  match isExpired with
  | true => return true
  | false => act .refreshRequired

/-- A round that refreshes. -/
def refreshRound (encode : C → Option Bytes) (record : ConnectionRecord Time) (material : CredentialMaterial)
    (deadline : Time) : M C T (Round C) := do
  let drawn : Option String ← act .newAttemptID
  match drawn with
  | none => throw (.other "credential admission identity unavailable")
  | some attemptID =>
    let began ← attempt (beginExchange config record.revision attemptID deadline .refreshing)
    match began with
    | .error err => if err.is .conflict then return .again else throw err
    | .ok admission =>
      if admission.providerDispatchAllowed then
        let credentials ← refreshAdmitted config encode admission material
        return .done credentials
      else return .again

/-- `refreshTimeout` and ten seconds. -/
def refreshDeadline : Int := 40000000000

def readyRound (encode : C → Option Bytes) (record : ConnectionRecord Time) : M C T (Round C) := do
  let material ← readMaterial config record
  match decode material.credentials with
  | none => throw (.other "project credential decoding failed")
  | some credentials =>
    let (now, deadline) ← act (.nowAnd refreshDeadline)
    let isRequired ← isRefreshRequired (material.expiresAt.any (fun t => decide (t.instant ≤ now.instant)))
    if isRequired then refreshRound config encode record material deadline else return .done credentials

def round (encode : C → Option Bytes) : M C T (Round C) := do
  let stopped : Option Err ← act .contextErr
  match stopped with
  | some err => throw err
  | none =>
    let (record, _) ← readRecord config
    match record.status, record.mutation with
    | .revoked, _ | .reauthorizationRequired, _ => throw .reauthorizationRequired
    | .authorizing, some mutation =>
      let now : Time ← act .now
      if now.instant < mutation.deadline.instant then throw .exchangePending
      else
        let recovered ← attempt (recoverCredentialExchange config (exchangeAdmission record mutation false))
        recoverRound recovered throw
    | .refreshing, some mutation =>
      let recovered ← attempt (recoverCredentialExchange config (exchangeAdmission record mutation false))
      recoverRound recovered waitForExchange
    | .ready, _ => readyRound config decode encode record
    | _, _ => throw (.other "project credential status is invalid")

/-- The loop of `ResolveWithRefresh`, for at most `rounds` rounds. -/
def resolveRounds (encode : C → Option Bytes) : Nat → M C T C
  | 0 => throw .unfinished
  | rounds + 1 => do
    let result ← round config decode encode
    match result with
    | .done credentials => return credentials
    | .again => resolveRounds encode rounds

def resolveWithRefresh (rounds : Nat) : M C T C :=
  match encode with
  | none => throw (.other "project credential refresh requires an encoder")
  | some encode => resolveRounds config decode encode rounds

/-! ## Callers -/

inductive Call (C : Type) where
  | beginCredentialExchange (expectedRevision : UInt64) (attemptID : String) (deadline : Time)
  | beginRefresh (expectedRevision : UInt64) (attemptID : String) (deadline : Time)
  | commitCredentialExchange (admission : ExchangeAdmission) (material : CredentialMaterial)
  | recoverCredentialExchange (admission : ExchangeAdmission)
  | failCredentialExchange (admission : ExchangeAdmission)
  | abortRefresh (admission : ExchangeAdmission)
  | replaceCredential (expectedRevision : UInt64) (material : CredentialMaterial)
  | revokeConnection (expectedRevision : UInt64)
  | resolveWithRefresh (decode : Bytes → Option C) (encode : Option (C → Option Bytes)) (rounds : Nat)

inductive Result (C : Type) where
  | admission (admission : ExchangeAdmission)
  | connection (connection : Connection)
  | credentials (credentials : C)
  | done

def Call.method : Call C → M C T (Result C)
  | .beginCredentialExchange expectedRevision attemptID deadline =>
    Result.admission <$> Connections.beginCredentialExchange config expectedRevision attemptID deadline
  | .beginRefresh expectedRevision attemptID deadline =>
    Result.admission <$> beginExchange config expectedRevision attemptID deadline .refreshing
  | .commitCredentialExchange admission material =>
    Result.connection <$> Connections.commitCredentialExchange config admission material
  | .recoverCredentialExchange admission => Result.connection <$> Connections.recoverCredentialExchange config admission
  | .failCredentialExchange admission => (fun _ => .done) <$> Connections.failCredentialExchange config admission
  | .abortRefresh admission => (fun _ => .done) <$> Connections.abortRefresh config admission
  | .replaceCredential expectedRevision material =>
    Result.connection <$> Connections.replaceCredential config expectedRevision material
  | .revokeConnection expectedRevision => Result.connection <$> Connections.revokeConnection config expectedRevision
  | .resolveWithRefresh decode encode rounds => Result.credentials <$> Connections.resolveWithRefresh config decode encode rounds

structure World (ι : Type) where
  objects   : Objects Contents (Writer ι)
  -- ghost
  issued    : List (String × ι)              -- what `newAttemptID` returned, with its caller
  granted   : List (ι × String × UInt64)     -- invocations that return `ProviderDispatchAllowed`, with the head's fence
  refreshed : List (ι × UInt64)              -- calls of `driver.Refresh`, with the fence they were admitted under

variable {ι : Type}

/-- An identity that no caller has drawn and no head carries. -/
def FreshID (w : World ι) (id : String) : Prop :=
  (∀ j, (id, j) ∉ w.issued) ∧ ∀ key, ∀ v ∈ w.objects key, ∀ record mutation, unmarshalRecord v.contents = some record →
    record.mutation = some mutation → mutation.invocationID ≠ id

/-- **What the operation of caller `i` may answer and leave behind.** -/
def step (i : ι) : (o : Op C) → World ι → Ans C (Writer ι) o → World ι → Prop
  | .read key version, w, a, w' => Reads w.objects key version a ∧ w' = w
  | .create key contents op, w, a, w' =>
    ∃ s, Creates w.objects key contents (.caller i op) a s ∧ w' = { w with objects := s }
  | .swap key etag contents op, w, a, w' =>
    ∃ s, Swaps w.objects key etag contents (.caller i op) a s ∧ w' = { w with objects := s }
  | .newAttemptID, w, a, w' =>
    match a with
    | none => w' = w
    | some id => FreshID w id ∧ w' = { w with issued := (id, i) :: w.issued }
  | .grant invocationID fence, w, _, w' => w' = { w with granted := (i, invocationID, fence) :: w.granted }
  | .refresh fence, w, _, w' => w' = { w with refreshed := (i, fence) :: w.refreshed }
  | .nowAnd later, w, a, w' => a.2.instant = a.1.instant + later ∧ w' = w
  | .now, w, _, w' => w' = w
  | .contextErr, w, _, w' => w' = w
  | .wait, w, _, w' => w' = w
  | .refreshRequired, w, _, w' => w' = w

end Connections
end Dex
