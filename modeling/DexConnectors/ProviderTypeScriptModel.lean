import DexConnectors.ProviderPythonModel
/-!
# ProviderTypeScriptModel — the exchange of the TypeScript provider (`sdkts/src/projectconfig/provider.ts`, `connections.ts`)

The methods of `ConnectionStore` and `RefreshingCredentialProvider` that admit, finish, recover and publish a credential
refresh, over the operations of the Python model.  The schemas of `connection_schema.ts` are part of the checks: a text
that has the members of a head or an envelope with their types is `Value.head` or `Value.envelope`, and the conditions on
their values are `matchesSchema`.

A head write expects the tag of the head the method has read, without a second read.  Expiry texts go through a
JavaScript `Date`; two of them are compared as moments, in nanoseconds.
-/
namespace Dex
namespace ProviderTS

open Lib Lib.Rfc3339 Lib.Store Wire Provider

/-- A JavaScript `Date` in milliseconds; `none` is an invalid one. -/
abbrev Date := Option Int

structure Material where
  credentials : String
  expiresAt   : Option Date
  authMethod  : String
  deriving DecidableEq, Repr

/-! ## Schemas and wire values -/

/-- `RFC3339NanoSchema`. -/
def isNano (stamp : Stamp) : Bool := stamp.fraction.length ≤ 9 && stamp.offset.isShort

def parseExpiry (value : Option Stamp) : Option Date := value.map Stamp.date

/-- `rfc3339Nanoseconds(left) === rfc3339Nanoseconds(right)`, both present or both absent. -/
def sameExpiry (left right : Option Stamp) : Bool := left.map Stamp.instant == right.map Stamp.instant

/-- `ConnectionRecordSchema`. -/
def recordMatchesSchema (record : Record) : Bool :=
  record.schemaVersion == connectionSchemaVersion && record.revision != 0 && record.fence != 0 &&
    record.expiresAt.all isNano && record.mutation.all (fun mutation => isNano mutation.deadline)

/-- `CredentialEnvelopeSchema`. -/
def envelopeMatchesSchema (envelope : Envelope) : Bool :=
  envelope.schemaVersion == connectionSchemaVersion && envelope.fence != 0 && envelope.expiresAt.all isNano

/-- `expiresAt.toISOString()`: an invalid date has none, and a year outside four digits is not one of the schema. -/
def isoText : Option Date → Except Exc (Option Stamp)
  | none => .ok none
  | some none => .error (.value "Invalid time value")
  | some (some ms) => if isFourDigitYear ms then .ok (some (toISOString ms)) else .error (.value "Invalid ISO datetime")

/-- `connectionRecord`, with the schema it parses the head by. -/
def connectionRecord (scope : Scope) (key : ConnectionKey) (revision fence : Nat) (status : Status)
    (expiresAt : Option Date) (authMethod : String) (credential : Option Reference) (mutation : Option Mutation) :
    Except Exc Record :=
  match isoText expiresAt with
  | .error exc => .error exc
  | .ok text =>
    let record : Record := ⟨connectionSchemaVersion, key, scope, revision, fence, status, text, authMethod, credential, mutation⟩
    if recordMatchesSchema record then .ok record else .error (.value "invalid connection record")

def credentialEnvelope (scope : Scope) (key : ConnectionKey) (fence : Nat) (credentials : String) (expiresAt : Option Stamp)
    (authMethod attemptID : String) : Envelope :=
  ⟨connectionSchemaVersion, scope, key, fence, if attemptID = "" then none else some attemptID, credentials, expiresAt,
    authMethod⟩

section

variable {T : Type} (config : Config)

def mutationIsValid (record : Record) (mutation : Mutation) : Bool :=
  mutation.kind == record.status.text && mutation.fence == record.fence && mutation.baseRevision + 1 == record.revision &&
    isAttemptID mutation.id && mutation.invocationID != "" && mutation.resultKey == resultPath config.path mutation.id

/-- `readRecord` after the read. -/
def checkRecord (item : Version Text T) : Except Exc Record :=
  if item.id = "" ∨ item.etag = "" then .error (.value "project connection head lacks version identity")
  else match item.contents.value with
    | .head record =>
      if recordMatchesSchema record = false ∨ record.scope ≠ config.scope ∨ record.connection ≠ config.key then
        .error (.value "project connection identity is invalid")
      else if record.status = .revoked ∧ (record.credential ≠ none ∨ record.mutation ≠ none) then
        .error (.value "revoked connection retains active material")
      else if (record.status = .ready ∨ record.status = .refreshing) ∧ record.credential = none then
        .error (.value "project credential reference is absent")
      else if record.credential.any (fun reference => !referenceIsValid config reference) then
        .error (.value "project credential reference is invalid")
      else if record.status = .refreshing ∨ record.status = .authorizing then
        if record.mutation.any (mutationIsValid config record) then .ok record
        else .error (.value "credential exchange admission is invalid")
      else if record.mutation ≠ none then .error (.value "inactive credential exchange admission is invalid")
      else .ok record
    | _ => .error (.value "project connection identity is invalid")

/-- `readMaterial` after the read. -/
def checkMaterial (record : Record) (reference : Reference) (object : Version Text T) : Except Exc Material :=
  if config.digest object.contents ≠ reference.digest then .error (.value "project credential integrity differs")
  else match object.contents.value with
    | .envelope envelope =>
      if envelopeMatchesSchema envelope = false then .error (.value "project credential envelope violates its schema")
      else if envelope.scope ≠ config.scope ∨ envelope.connection ≠ config.key ∨ envelope.authMethod ≠ record.authMethod ∨
          sameExpiry envelope.expiresAt record.expiresAt = false then
        .error (.value "project credential identity differs")
      else .ok ⟨envelope.credentials, parseExpiry envelope.expiresAt, envelope.authMethod⟩
    | _ => .error (.value "project credential envelope violates its schema")

end

/-! ## The store -/

variable {C T : Type} (config : Config)

def readRecord : M C T (Record × Version Text T) := do
  let object ← readObject (headPath config.path) ""
  let record ← orRaise (checkRecord config object)
  return (record, object)

def readMaterial (record : Record) : M C T Material :=
  match record.credential with
  | none => throw (.value "project credential reference is absent")
  | some reference => do
    let object ← readObject reference.key reference.version
    orRaise (checkMaterial config record reference object)

/-- `writeHead` onto a head that was read. -/
def writeHead (op : HeadOp) (previous : Version Text T) (record : Record) : M C T Unit := do
  let answer : WriteAnswer Text T ← act (.swap (headPath config.path) previous.etag (dumps (.head record)) op)
  settle config (dumps (.head record)) answer

/-! ## The refresh exchange -/

/-- `#admitRefresh`; `now` is in milliseconds. -/
def admitRefresh (record : Record) (object : Version Text T) (now : Int) : M C T Admission := do
  let attemptID : String ← act .token
  let invocationID : String ← act .token
  let deadline ← orRaise (isoText (some (some (now + 40000))))
  let updated ← orRaise (connectionRecord config.scope config.key (record.revision + 1) (record.fence + 1) .refreshing
    (parseExpiry record.expiresAt) record.authMethod record.credential
    (deadline.map fun text => ⟨Status.refreshing.text, invocationID, attemptID, record.fence + 1, record.revision, text,
      resultPath config.path attemptID⟩))
  writeHead config .admission object updated
  return ⟨.refreshing, attemptID, updated.fence, now + 40000, resultPath config.path attemptID⟩

def finishExchange (admission : Admission) (status : Status) : M C T Unit := do
  let (record, object) ← readRecord config
  if isAdmitted record admission then
    let updated ← orRaise (connectionRecord config.scope config.key (record.revision + 1) (record.fence + 1) status
      (parseExpiry record.expiresAt) record.authMethod record.credential none)
    writeHead config (.finish admission.attemptID admission.fence) object updated
  else throw (.objectConflict "project configuration revision changed")

/-- `#publishResult` on the envelope of the result. -/
def checkResult (admission : Admission) (result : Version Text T) : Except Exc Envelope :=
  match result.contents.value with
  | .envelope envelope =>
    if envelopeMatchesSchema envelope = false then .error (.value "credential exchange result is invalid")
    else if envelope.scope ≠ config.scope ∨ envelope.connection ≠ config.key ∨ envelope.fence ≠ admission.fence ∨
        envelope.attemptID ≠ some admission.attemptID then
      .error (.value "credential exchange result identity is invalid")
    else .ok envelope
  | _ => .error (.value "credential exchange result is invalid")

/-- `#publishResult` after its head write: a conflict is no failure when the head references the result. -/
def settlePublished (key : String) (written : Except Exc Unit) : M C T Unit :=
  match written with
  | .ok () => return ()
  | .error (.objectConflict text) => do
    let (observed, _) ← readRecord config
    if references observed key then return () else throw (.objectConflict text)
  | .error exc => throw exc

/-- `#publishResult`; `key` is the key of the result object. -/
def publishResult (admission : Admission) (key : String) (result : Version Text T) : M C T Unit := do
  let (record, object) ← readRecord config
  if references record key then return ()
  else if isAdmitted record admission then
    let envelope ← orRaise (checkResult config admission result)
    let updated ← orRaise (connectionRecord config.scope config.key (record.revision + 1) record.fence .ready
      (parseExpiry envelope.expiresAt) envelope.authMethod (some ⟨key, result.id, config.digest result.contents⟩) none)
    let written ← ExceptT.lift (writeHead config (.publish admission.attemptID admission.fence) object updated).run
    settlePublished config key written
  else throw (.objectConflict "project configuration revision changed")

def commitRefresh (admission : Admission) (credentials : String) (expiresAt : Option Date) (authMethod : String) :
    M C T Unit := do
  let text ← orRaise (isoText expiresAt)
  let envelope := credentialEnvelope config.scope config.key admission.fence credentials text authMethod admission.attemptID
  let result ← createImmutable admission.resultKey (dumps (.envelope envelope)) "immutable credential result differs"
  publishResult config admission admission.resultKey result

/-- The admission that `#recoverOrWait` finds in a pending head. -/
def observed (record : Record) (mutation : Mutation) : Except Exc Admission :=
  match mutation.deadline.date with
  | none => .error (.value "Invalid time value")
  | some deadline => .ok ⟨if record.status = .authorizing then .authorizing else .refreshing, mutation.id, record.fence,
      deadline, mutation.resultKey⟩

def recoverOrWait (record : Record) : M C T Unit :=
  match record.mutation with
  | none => throw (.value "credential exchange admission is absent")
  | some mutation => do
    let admission ← orRaise (observed record mutation)
    let answer : ReadAnswer Text T ← act (.read admission.resultKey "")
    match answer with
    | .failed => throw .storage
    | .found result => publishResult config admission admission.resultKey result
    | .absent =>
      let now : Int ← act .now
      if now < admission.deadline then
        let _ ← act .sleep
        return ()
      else finishExchange config admission (abandonedStatus admission.kind)

end ProviderTS
end Dex
