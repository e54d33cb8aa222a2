import DexConnectors.ProviderTypeScriptModel
/-!
# ProviderTypeScriptRounds — the rounds and the calls of the TypeScript provider (`sdkts/src/projectconfig/provider.ts`, `connections.ts`)

The methods of `RefreshingCredentialProvider` and `ConnectionStore.replaceCredential` over the checks and reads of the
exchange.  Here a head or an envelope has its times as `encodeGoCompatibleJSON` stores them: `canonicalRFC3339Nano` strips
the zeros that `toISOString` writes at the end of a fraction.  A TypeScript reader does not see the difference, but a Python
reader compares the texts.
-/
namespace Dex
namespace ProviderTS
namespace Canonical

open Lib Lib.Rfc3339 Lib.Store Wire Provider
open ProviderTS (Date Material parseExpiry credentialEnvelope recordMatchesSchema checkResult settlePublished observed readRecord
  readMaterial writeHead)

/-! ## Wire values -/

def canonicalRFC3339Nano (stamp : Stamp) : Stamp :=
  ⟨stamp.second, stripZeros stamp.fraction, if stamp.offset = .east 0 0 ∨ stamp.offset = .west 0 0 then .utc else stamp.offset⟩

/-- The stored text of a `Date`. -/
def isoText (expiresAt : Option Date) : Except Exc (Option Stamp) :=
  (ProviderTS.isoText expiresAt).map (Option.map canonicalRFC3339Nano)

/-- `connectionRecord`, as it is stored. -/
def connectionRecord (scope : Scope) (key : ConnectionKey) (revision fence : Nat) (status : Status)
    (expiresAt : Option Date) (authMethod : String) (credential : Option Reference) (mutation : Option Mutation) :
    Except Exc Record :=
  match isoText expiresAt with
  | .error exc => .error exc
  | .ok text =>
    let record : Record := ⟨connectionSchemaVersion, key, scope, revision, fence, status, text, authMethod, credential, mutation⟩
    if recordMatchesSchema record then .ok record else .error (.value "invalid connection record")

theorem connectionRecord_fields {scope : Scope} {key : ConnectionKey} {revision fence : Nat} {status : Status}
    {expiresAt : Option Date} {authMethod : String} {credential : Option Reference} {mutation : Option Mutation}
    {record : Record}
    (h : connectionRecord scope key revision fence status expiresAt authMethod credential mutation = .ok record) :
    record.revision = revision ∧ record.fence = fence ∧ record.status = status ∧ record.credential = credential ∧
      record.mutation = mutation := by
  unfold connectionRecord at h
  split at h
  · cases h
  · dsimp only at h
    split at h
    · cases h
      exact ⟨rfl, rfl, rfl, rfl, rfl⟩
    · cases h

/-- A deadline is written, when it is. -/
theorem isoText_some {ms : Int} {text : Option Stamp} (h : isoText (some (some ms)) = .ok text) :
    text = some (canonicalRFC3339Nano (toISOString ms)) := by
  simp only [isoText, ProviderTS.isoText] at h
  split at h
  · cases h
    rfl
  · cases h

/-! ## The refresh exchange -/

variable {C T : Type} (config : Config)

/-- `#admitRefresh`; `now` is in milliseconds. -/
def admitRefresh (record : Record) (object : Version Text T) (now : Int) : M C T Admission := do
  let attemptID : String ← act .token
  let invocationID : String ← act .token
  let deadline ← orRaise (isoText (some (some (now + 40000))))
  let updated ← orRaise (connectionRecord config.scope config.key (record.revision + 1) (record.fence + 1) .refreshing
    (parseExpiry record.expiresAt) record.authMethod record.credential
    (deadline.map fun text => ⟨Status.refreshing.text, invocationID, attemptID, record.fence + 1, record.revision, text,
      resultPath config.path attemptID⟩))
  writeHead config .admission object updated
  return ⟨.refreshing, attemptID, updated.fence, now + 40000, resultPath config.path attemptID⟩

def finishExchange (admission : Admission) (status : Status) : M C T Unit := do
  let (record, object) ← readRecord config
  if isAdmitted record admission then
    let updated ← orRaise (connectionRecord config.scope config.key (record.revision + 1) (record.fence + 1) status
      (parseExpiry record.expiresAt) record.authMethod record.credential none)
    writeHead config (.finish admission.attemptID admission.fence) object updated
  else throw (.objectConflict "project configuration revision changed")

/-- `#publishResult`; `key` is the key of the result object. -/
def publishResult (admission : Admission) (key : String) (result : Version Text T) : M C T Unit := do
  let (record, object) ← readRecord config
  if references record key then return ()
  else if isAdmitted record admission then
    let envelope ← orRaise (checkResult config admission result)
    let updated ← orRaise (connectionRecord config.scope config.key (record.revision + 1) record.fence .ready
      (parseExpiry envelope.expiresAt) envelope.authMethod (some ⟨key, result.id, config.digest result.contents⟩) none)
    let written ← ExceptT.lift (writeHead config (.publish admission.attemptID admission.fence) object updated).run
    settlePublished config key written
  else throw (.objectConflict "project configuration revision changed")

def commitRefresh (admission : Admission) (credentials : String) (expiresAt : Option Date) (authMethod : String) :
    M C T Unit := do
  let text ← orRaise (isoText expiresAt)
  let envelope := credentialEnvelope config.scope config.key admission.fence credentials text authMethod admission.attemptID
  let result ← createImmutable admission.resultKey (dumps (.envelope envelope)) "immutable credential result differs"
  publishResult config admission admission.resultKey result

def recoverOrWait (record : Record) : M C T Unit :=
  match record.mutation with
  | none => throw (.value "credential exchange admission is absent")
  | some mutation => do
    let admission ← orRaise (observed record mutation)
    let answer : ReadAnswer Text T ← act (.read admission.resultKey "")
    match answer with
    | .failed => throw .storage
    | .found result => publishResult config admission admission.resultKey result
    | .absent =>
      let now : Int ← act .now
      if now < admission.deadline then
        let _ ← act .sleep
        return ()
      else finishExchange config admission (abandonedStatus admission.kind)

variable (decode : String → Option C) (encode : C → Option String)

/-- `#refreshAdmitted` after `refreshWithinTimeout`.  An expiry counts in milliseconds; one that is no valid date is refused
like one that has passed. -/
def refreshedWith (admission : Admission) (prior : Material) (outcome : Refreshed C) : M C T C :=
  match outcome with
  | .reauthorizationRequired => do
    finishExchange config admission .reauthorizationRequired
    throw .reauthorizationRequired
  | .failed isAddressRefusal => do
    finishExchange config admission .ready
    throw (if isAddressRefusal then .addressRefusal
      else .refreshFailed "project credential refresh failed; current authorization is kept")
  | .result credentials expiresAt => do
    let now : Int ← act .now
    if expiresAt.instant / 1000 ≤ now then
      finishExchange config admission .ready
      throw (.refreshFailed "refreshed credential has no future expiry")
    else match encode credentials with
      | none => do
        finishExchange config admission .ready
        throw (.refreshFailed "refreshed credential encoding failed")
      | some encoded => do
        commitRefresh config admission encoded (some (some (expiresAt.instant / 1000))) prior.authMethod
        return credentials

def refreshAdmitted (admission : Admission) (prior : Material) : M C T C := do
  let outcome : Refreshed C ← act (.refresh admission.fence)
  refreshedWith config encode admission prior outcome

/-- The date is not after now: it has passed, or it is invalid. -/
def isOver (now : Int) (date : Date) : Bool := !date.any (fun ms => decide (now < ms))

/-- One round of `resolveWithRefresh`. -/
def round : M C T (Round C) := do
  let (record, object) ← readRecord config
  match record.status with
  | .revoked | .reauthorizationRequired => throw .reauthorizationRequired
  | .authorizing =>
    let now : Int ← act .now
    if record.mutation.any (fun m => !isOver now m.deadline.date) then throw .exchangePending
    else unlessConflict (recoverOrWait config record) (fun _ => return .again)
  | .refreshing => unlessConflict (recoverOrWait config record) (fun _ => return .again)
  | .ready =>
    let material ← readMaterial config record
    match decode material.credentials with
    | none => throw (.value "project credential decoding failed")
    | some credentials =>
      let now : Int ← act .now
      let isRequired ← isRefreshRequired (material.expiresAt.any (isOver now))
      if isRequired then
        unlessConflict (admitRefresh config record object now) (fun admission => do
          let refreshed ← refreshAdmitted config encode admission material
          return .done refreshed)
      else return .done credentials

/-- `resolveWithRefresh`, for at most `rounds` rounds. -/
def resolveWithRefresh : Nat → M C T C
  | 0 => throw .unfinished
  | rounds + 1 => do
    let result ← round config decode encode
    match result with
    | .done credentials => return credentials
    | .again => resolveWithRefresh rounds

/-- `resolveAfterRejection`; the exception of a credential that has not expired is a class of its own. -/
def resolveAfterRejection (rounds : Nat) : M C T C := do
  let (record, _) ← readRecord config
  match parseExpiry record.expiresAt with
  | none => throw (.value "the rejected credential was not refreshed")
  | some date =>
    let now : Int ← act .now
    if isOver now date then resolveWithRefresh config decode encode rounds
    else throw (.value "the rejected credential was not refreshed")

/-- `CredentialProvider.resolve`. -/
def resolve : M C T C := do
  let (record, _) ← readRecord config
  if record.status ≠ .ready then throw (.value "project credential is unavailable")
  else
    let material ← readMaterial config record
    let now : Int ← act .now
    if (parseExpiry record.expiresAt).any (fun date => date.any (fun ms => decide (ms ≤ now))) then
      throw (.value "expired project credential requires refresh")
    else match decode material.credentials with
      | none => throw (.value "project credential decoding failed")
      | some credentials => return credentials

/-! ## `replaceCredential` -/

/-- The head `replaceCredential` starts from. -/
def readPrior (expectedRevision : Nat) : M C T (Option (Record × Version Text T)) := do
  let answer ← ExceptT.lift (readRecord config).run
  match answer with
  | .ok found => return some found
  | .error .objectNotFound => if expectedRevision ≠ 0 then throw .objectNotFound else return none
  | .error exc => throw exc

def replaceCredential (expectedRevision : Nat) (material : Material) : M C T Record := do
  if material.authMethod = "" then throw (.value "invalid credential material")
  else
    let prior ← readPrior config expectedRevision
    if (prior.map (fun p => p.1.revision)).getD 0 ≠ expectedRevision then
      throw (.objectConflict "project configuration revision changed")
    else
      let fence := (prior.map (fun p => p.1.fence)).getD 0 + 1
      let text ← orRaise (isoText material.expiresAt)
      let contents := dumps (.envelope (credentialEnvelope config.scope config.key fence material.credentials text
        material.authMethod ""))
      let key := credentialPath config.path (config.digest contents)
      let created ← createImmutable key contents "immutable credential content differs"
      let updated ← orRaise (connectionRecord config.scope config.key (expectedRevision + 1) fence .ready material.expiresAt
        material.authMethod (some ⟨key, created.id, config.digest contents⟩) none)
      let answer ← writeReplaced config prior (dumps (.head updated))
      settle config (dumps (.head updated)) answer
      return updated

end Canonical
end ProviderTS
end Dex
