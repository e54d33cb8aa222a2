import DexConnectors.ConfigHistory
import DexConnectors.ConfigWire
/-!
# ConfigTypeScript — the TypeScript configuration store (`sdkts/src/projectconfig/storage.ts`, `model.ts`, `netpolicy.ts`)

`writeConfiguration` spreads the passed document over the members it assigns, so a passed `schemaVersion`, `scope` or
`revision` takes their place.  The type of the parameter leaves them out, and a document returned by `readConfiguration`
has all three.

`J` are records of settings: `canonical` is what `JSON.parse` makes of `encodeGoCompatibleJSON` of one, and is undefined
where that throws.  `new URL` and the address tests of `node:net` are parameters.
-/
namespace Dex
namespace ConfigStore
namespace TypeScript

open Lib Lib.Store
open Wire (Scope)

/-- A member of a passed document that its type does not mention. -/
inductive Member (α : Type) where
  | absent
  | undefined
  | value (a : α)
  | refused       -- a value that the schema refuses whatever it is compared with
  deriving DecidableEq, Repr

/-- The member of `{ name: assigned, ...document }`, when the schema can accept it. -/
def Member.over {α : Type} (assigned : α) : Member α → Option α
  | .absent => some assigned
  | .value a => some a
  | .undefined | .refused => none

structure ConnectionConfiguration (J : Type) where
  connectorId        : String
  connectionName     : String
  modulePath         : String
  provider           : String
  authMethodId       : Option String
  sharedConnectionId : Option String
  configuration      : J
  deriving DecidableEq

structure TriggerConfiguration (J : Type) where
  connectorId    : String
  connectionName : String
  triggerName    : String
  bindingName    : String
  configuration  : J
  deriving DecidableEq

structure OperationConfiguration (J : Type) where
  connectorId    : String
  connectionName : String
  operationId    : String
  flowType       : String
  stepType       : String
  configuration  : J
  deriving DecidableEq

/-- The members of a document that a caller passes. -/
structure Body (J : Type) where
  connections             : List (ConnectionConfiguration J)
  triggerBindings         : List (TriggerConfiguration J)
  operationConfigurations : List (OperationConfiguration J)
  environment             : Option Environment
  credentialBroker        : Option CredentialBrokerConfiguration
  deriving DecidableEq

structure Configuration (J : Type) where
  schemaVersion : String
  scope         : Scope
  revision      : Nat
  body          : Body J
  deriving DecidableEq

/-- A document as it is passed. -/
structure Passed (J : Type) where
  schemaVersion : Member String
  scope         : Member Scope
  revision      : Member Nat
  body          : Body J

structure URL where
  protocol : String
  hostname : String
  username : String
  password : String
  search   : String
  hash     : String

structure Address where
  isPrivate   : Bool
  isLinkLocal : Bool

structure Runtime (J : Type) where
  canonical : J → Option J
  parseURL  : String → Option URL
  isIP      : String → Option Address     -- of the hostname without its brackets

variable {J : Type} (js : Runtime J)

/-! ## The schema -/

def isPrivateBrokerHost (hostname : String) : Bool :=
  match js.isIP hostname with
  | some address => address.isPrivate || address.isLinkLocal
  | none => hostname == "localhost" || hostname == "host.docker.internal" || !hostname.toList.contains '.' ||
      endsWith ".svc" hostname || endsWith ".svc.cluster.local" hostname

def maxSafeInteger : Nat := 2 ^ 53 - 1

def isConnection (entry : ConnectionConfiguration J) : Bool :=
  isConnectorID entry.connectorId && entry.connectionName != "" && entry.modulePath != "" && entry.provider != "" &&
    (entry.sharedConnectionId.map sharedConnectionIdentity).getD true

def isTrigger (entry : TriggerConfiguration J) : Bool :=
  entry.connectorId != "" && entry.connectionName != "" && entry.triggerName != "" && entry.bindingName != ""

def isOperation (entry : OperationConfiguration J) : Bool :=
  entry.connectorId != "" && entry.connectionName != "" && entry.operationId != "" && entry.flowType != "" && entry.stepType != ""

def isSecretRef (reference : ApplicationSecretRef) : Bool :=
  reference.key != "" && reference.version != "" && applicationSecretDigest reference.digest

def isEnvironmentValue (value : EnvironmentValue) : Bool :=
  (value.secretRef.map isSecretRef).getD true && (value.value.isNone != value.secretRef.isNone)

def hasShared (body : Body J) : Bool := body.connections.any (fun connection => connection.sharedConnectionId.isSome)

/-- The part of `superRefine` about the broker. -/
def isBroker (scope : Scope) (broker : CredentialBrokerConfiguration) : Bool :=
  match scopePrefix scope, js.parseURL broker.endpoint with
  | .ok scopePath, some endpoint =>
    isSecretRef broker.tokenSecretRef && isSecretKey scopePath credentialBrokerTokenName broker.tokenSecretRef.key &&
      (endpoint.protocol == "http:" || endpoint.protocol == "https:") && endpoint.username == "" && endpoint.password == "" &&
      endpoint.search == "" && endpoint.hash == "" &&
      !(endpoint.protocol == "http:" && !isPrivateBrokerHost js endpoint.hostname)
  | _, _ => false

def ConnectionConfiguration.key (entry : ConnectionConfiguration J) : String :=
  entry.connectorId ++ "\x00" ++ entry.connectionName

def TriggerConfiguration.key (entry : TriggerConfiguration J) : String :=
  entry.connectorId ++ "\x00" ++ entry.connectionName ++ "\x00" ++ entry.triggerName ++ "\x00" ++ entry.bindingName

def OperationConfiguration.key (entry : OperationConfiguration J) : String :=
  entry.connectorId ++ "\x00" ++ entry.connectionName ++ "\x00" ++ entry.operationId ++ "\x00" ++ entry.flowType ++ "\x00" ++
    entry.stepType

def isBody (schemaVersion : String) (scope : Scope) (body : Body J) : Bool :=
  body.connections.all isConnection && body.triggerBindings.all isTrigger && body.operationConfigurations.all isOperation &&
    (body.environment.map (fun environment => environment.entries.all (fun entry => isEnvironmentValue entry.2))).getD true &&
    !(hasShared body && body.credentialBroker.isNone) &&
    !(endsWith "v1alpha2" schemaVersion && (hasShared body || body.credentialBroker.isSome)) &&
    (body.credentialBroker.map (isBroker js scope)).getD true &&
    decide ((body.connections.map ConnectionConfiguration.key).Nodup) &&
    decide ((body.triggerBindings.map TriggerConfiguration.key).Nodup) &&
    decide ((body.operationConfigurations.map OperationConfiguration.key).Nodup)

/-- `ConfigurationSchema.parse`. -/
def configurationSchema (configuration : Configuration J) : Except Err (Configuration J) :=
  if (configuration.schemaVersion == previousConfigurationSchemaVersion || configuration.schemaVersion == configurationSchemaVersion) &&
      scopeIdentity configuration.scope.projectID && (configuration.scope.kind == "live" || configuration.scope.kind == "preview") &&
      decide (0 < configuration.revision ∧ configuration.revision ≤ maxSafeInteger) &&
      isBody js configuration.schemaVersion configuration.scope configuration.body then .ok configuration
  else .error (.invalid "configuration does not match its schema")

/-! ## Encoding -/

/-- Entries with their settings as they are read back. -/
def encodeEach {α : Type} (settings : α → J) (embed : α → J → α) : List α → Option (List α)
  | [] => some []
  | entry :: rest =>
    match js.canonical (settings entry), encodeEach settings embed rest with
    | some canonical, some others => some (embed entry canonical :: others)
    | _, _ => none

/-- A connection: an empty `authMethodId` is left out. -/
def embedConnection (entry : ConnectionConfiguration J) (settings : J) : ConnectionConfiguration J :=
  { entry with
    authMethodId := if entry.authMethodId = some "" then none else entry.authMethodId, configuration := settings }

/-- An empty environment is left out. -/
def encodeEnvironment : Option Environment → Option Environment
  | some environment => if environment.entries = [] then none else some environment
  | none => none

def encodeBody (body : Body J) : Option (Body J) :=
  match encodeEach js ConnectionConfiguration.configuration embedConnection body.connections,
      encodeEach js TriggerConfiguration.configuration (fun entry settings => { entry with configuration := settings })
        body.triggerBindings,
      encodeEach js OperationConfiguration.configuration (fun entry settings => { entry with configuration := settings })
        body.operationConfigurations with
  | some connections, some triggers, some operations =>
    some ⟨connections, triggers, operations, encodeEnvironment body.environment, body.credentialBroker⟩
  | _, _, _ => none

/-- `encodeGoCompatibleJSON`. -/
def encode (configuration : Configuration J) : Except Err (Configuration J) :=
  match encodeBody js configuration.body with
  | some body => .ok ⟨configuration.schemaVersion, configuration.scope, configuration.revision, body⟩
  | none => .error (.invalid "project document contains a non-JSON value")

/-! ## The store -/

structure ConfigurationStore where
  scope     : Scope
  scopePath : String
  valid     : scopePrefix scope = .ok scopePath

variable (store : ConfigurationStore)

/-- The schema version a write assigns: an empty `sharedConnectionId` is none. -/
def schemaVersionFor (body : Body J) : String :=
  if body.credentialBroker.isSome || body.connections.any (fun connection => connection.sharedConnectionId.getD "" != "") then
    configurationSchemaVersion
  else previousConfigurationSchemaVersion

/-- `{ schemaVersion, scope: this.scope, revision: expectedRevision + 1, ...document }`. -/
def merged (expectedRevision : Nat) (document : Passed J) : Except Err (Configuration J) :=
  match document.schemaVersion.over (schemaVersionFor document.body), document.scope.over store.scope,
      document.revision.over (expectedRevision + 1) with
  | some schemaVersion, some scope, some revision => .ok ⟨schemaVersion, scope, revision, document.body⟩
  | _, _, _ => .error (.invalid "configuration does not match its schema")

def assign (expectedRevision : Nat) (document : Passed J) : Except Err (Configuration J × Configuration J) := do
  let candidate ← merged store expectedRevision document
  let configuration ← configurationSchema js candidate
  let contents ← encode js configuration
  return (configuration, contents)

/-- The contents part of `decodeConfiguration`. -/
def decode (contents : Configuration J) : Except Err (Configuration J) := do
  let configuration ← configurationSchema js contents
  if configuration.scope.projectID != store.scope.projectID || configuration.scope.kind != store.scope.kind then
    .error (.invalid "configuration scope differs")
  else .ok configuration

variable (sha256 : Configuration J → String)

/-- **The TypeScript configuration store.** -/
def dialect : Dialect (Passed J) (Configuration J) (Configuration J) where
  key := configurationKey store.scopePath
  refusesNull := false
  decode := decode js store
  revision := Configuration.revision
  assign := assign js store
  creates := fun _ found => !found
  digest := fun contents => "sha256:" ++ sha256 contents
  acceptsReference := fun reference =>
    reference.key == configurationKey store.scopePath && reference.version != "" && reference.version != "null" &&
      reference.mediaType == "application/json"
  afterUnknown := fun _ => .outcomeUnknown

/-! ## What is written is read back -/

variable {js} {store} {sha256}

theorem encodeEach_forall₂ {α : Type} {settings : α → J} {embed : α → J → α} : ∀ {xs ys : List α},
    encodeEach js settings embed xs = some ys → List.Forall₂ (fun x y => ∃ canonical, y = embed x canonical) xs ys
  | [], ys, h => by
    cases h
    exact .nil
  | x :: xs, ys, h => by
    unfold encodeEach at h
    split at h
    · rename_i canonical others _ hrest
      cases h
      exact .cons ⟨canonical, rfl⟩ (encodeEach_forall₂ hrest)
    · cases h

theorem all_eq_of_forall₂ {α : Type} {R : α → α → Prop} (p : α → Bool) {xs ys : List α} (h : List.Forall₂ R xs ys)
    (hp : ∀ x y, R x y → p x = p y) : xs.all p = ys.all p := by
  have := congrArg (fun bs : List Bool => bs.all id) (map_eq_of_forall₂ p h hp)
  simpa only [List.all_map, Function.id_comp] using this

theorem any_eq_of_forall₂ {α : Type} {R : α → α → Prop} (p : α → Bool) {xs ys : List α} (h : List.Forall₂ R xs ys)
    (hp : ∀ x y, R x y → p x = p y) : xs.any p = ys.any p := by
  have := congrArg (fun bs : List Bool => bs.any id) (map_eq_of_forall₂ p h hp)
  simpa only [List.any_map, Function.id_comp] using this

theorem encodeEnvironment_checks (environment : Option Environment) (p : String × EnvironmentValue → Bool) :
    ((encodeEnvironment environment).map (fun e => e.entries.all p)).getD true =
      (environment.map (fun e => e.entries.all p)).getD true := by
  cases environment with
  | none => rfl
  | some environment =>
    show ((if environment.entries = [] then none else some environment).map _).getD true = _
    split
    · rename_i h
      simp [h]
    · rfl

/-- The schema accepts an encoded body exactly when it accepts the body. -/
theorem isBody_encodeBody {schemaVersion : String} {scope : Scope} {body body' : Body J} (h : encodeBody js body = some body') :
    isBody js schemaVersion scope body' = isBody js schemaVersion scope body := by
  unfold encodeBody at h
  split at h
  · rename_i connections triggers operations hc ht ho
    cases h
    have hc := encodeEach_forall₂ hc
    have ht := encodeEach_forall₂ ht
    have ho := encodeEach_forall₂ ho
    have hconnections := all_eq_of_forall₂ isConnection hc (by rintro x y ⟨canonical, rfl⟩; rfl)
    have hshared := any_eq_of_forall₂ (fun connection : ConnectionConfiguration J => connection.sharedConnectionId.isSome) hc
      (by rintro x y ⟨canonical, rfl⟩; rfl)
    have hkeys := map_eq_of_forall₂ ConnectionConfiguration.key hc (by rintro x y ⟨canonical, rfl⟩; rfl)
    have htriggers := all_eq_of_forall₂ isTrigger ht (by rintro x y ⟨canonical, rfl⟩; rfl)
    have htriggerKeys := map_eq_of_forall₂ TriggerConfiguration.key ht (by rintro x y ⟨canonical, rfl⟩; rfl)
    have hoperations := all_eq_of_forall₂ isOperation ho (by rintro x y ⟨canonical, rfl⟩; rfl)
    have hoperationKeys := map_eq_of_forall₂ OperationConfiguration.key ho (by rintro x y ⟨canonical, rfl⟩; rfl)
    unfold isBody hasShared
    rw [hconnections, htriggers, hoperations, hkeys, htriggerKeys, hoperationKeys, hshared, encodeEnvironment_checks]
  · cases h

theorem configurationSchema_ok {configuration parsed : Configuration J} (h : configurationSchema js configuration = .ok parsed) :
    parsed = configuration := by
  unfold configurationSchema at h
  split at h
  · cases h
    rfl
  · cases h

/-- **What a write makes of a passed document.** -/
theorem assign_ok {r : Nat} {document : Passed J} {doc contents : Configuration J}
    (h : assign js store r document = .ok (doc, contents)) :
    merged store r document = .ok doc ∧ configurationSchema js doc = .ok doc ∧ encode js doc = .ok contents := by
  obtain ⟨candidate, hmerged, h⟩ := bind_eq_ok.1 h
  obtain ⟨configuration, hschema, h⟩ := bind_eq_ok.1 h
  obtain ⟨encoded, hencode, h⟩ := bind_eq_ok.1 h
  cases h
  have := configurationSchema_ok hschema
  subst this
  exact ⟨hmerged, hschema, hencode⟩

/-- The document that is read back has the identity of the one that was written. -/
def Same (a b : Configuration J) : Prop := b.schemaVersion = a.schemaVersion ∧ b.scope = a.scope ∧ b.revision = a.revision

theorem encode_ok {doc contents : Configuration J} (h : encode js doc = .ok contents)
    (hschema : configurationSchema js doc = .ok doc) : configurationSchema js contents = .ok contents ∧ Same doc contents := by
  unfold encode at h
  split at h
  · rename_i body hbody
    cases h
    refine ⟨?_, rfl, rfl, rfl⟩
    unfold configurationSchema at hschema ⊢
    rw [isBody_encodeBody hbody]
    split at hschema
    · rename_i hvalid
      rw [if_pos hvalid]
    · cases hschema
  · cases h

/-! ## Documents that carry an identity -/

/-- **What a passed document may say of its own identity**: nothing, or what the store assigns. -/
def Meets (store : ConfigurationStore) (r : Nat) (document : Passed J) : Prop :=
  (∀ v, document.schemaVersion = .value v → v = schemaVersionFor document.body) ∧
  (∀ s, document.scope = .value s → s = store.scope) ∧
  ∀ n, document.revision = .value n → n = r + 1

/-- The identity that the store assigns. -/
def Assigned (store : ConfigurationStore) (r : Nat) (document : Passed J) (configuration : Configuration J) : Prop :=
  configuration.schemaVersion = schemaVersionFor document.body ∧ configuration.scope = store.scope ∧
    configuration.revision = r + 1

theorem over_eq {α : Type} {assigned a : α} {member : Member α} (h : member.over assigned = some a)
    (hmember : ∀ v, member = .value v → v = assigned) : a = assigned := by
  cases member with
  | absent => exact (Option.some.inj h).symm
  | value v =>
    cases h
    exact hmember a rfl
  | undefined => cases h
  | refused => cases h

theorem merged_assigned {r : Nat} {document : Passed J} {doc : Configuration J} (h : merged store r document = .ok doc)
    (hmeets : Meets store r document) : Assigned store r document doc := by
  unfold merged at h
  split at h
  · rename_i schemaVersion scope revision hs hc hr
    cases h
    exact ⟨over_eq hs hmeets.1, over_eq hc hmeets.2.1, over_eq hr hmeets.2.2⟩
  · cases h

theorem sound : (dialect js store sha256).Sound (Meets store) Same where
  stores := by
    intro r document doc contents hmeets h
    obtain ⟨hmerged, hschema, hencode⟩ := assign_ok h
    obtain ⟨-, hscope, hrevision⟩ := merged_assigned hmerged hmeets
    obtain ⟨hread, hsame⟩ := encode_ok hencode hschema
    refine ⟨contents, ?_, hsame, hsame.2.2.trans hrevision⟩
    show decode js store contents = _
    unfold decode
    rw [hread]
    show (if contents.scope.projectID != store.scope.projectID || contents.scope.kind != store.scope.kind then _ else _) = _
    rw [hsame.2.1, hscope]
    simp
  creates := fun r found h => .inl (by simpa [dialect] using h)
  replaces := fun r found h => .inl (by simpa [dialect] using h)
  unknown := fun _ _ => rfl
  accepts := by
    intro contents id hid hnull
    simp [dialect, hid, hnull]

/-! ## Every run -/

variable [DecidableEq J] {ι : Type} {calls : ι → Call (Passed J)}
  {c₀ c' : Config (Op (Configuration J)) (Ans (Configuration J) ι) (Except Err (Result (Configuration J) (Configuration J) ι))
    (Objects (Configuration J) ι) ι}

/-- **The store assigns the identity of what it stores**, in every run whose writes pass documents that say nothing of their
identity, or what the store assigns: the version after `r` others was written for expected revision `r` and carries the
store's scope, the schema version of its own contents and revision `r + 1`; so no two versions have one revision, and a write
that succeeds returns that document. -/
theorem identity_assigned (hstart : Start (dialect js store sha256) (Meets store) calls c₀) (hrun : Config.Run step c₀ c') :
    (∀ v rest, v :: rest <:+ c'.state (configurationKey store.scopePath) → ∃ document,
      calls v.writer = .write rest.length document ∧ Assigned store rest.length document v.contents) ∧
    (∀ u rest v rest', u :: rest <:+ c'.state (configurationKey store.scopePath) →
      v :: rest' <:+ c'.state (configurationKey store.scopePath) → u.contents.revision = v.contents.revision → u = v) ∧
    (∀ i r document configuration v, calls i = .write r document →
      c'.threads i = .ret (.ok (.current configuration v)) →
      Assigned store r document configuration ∧
        ∃ rest, v :: rest <:+ c'.state (configurationKey store.scopePath) ∧ rest.length = r) := by
  have hguarantees : Guarantees (dialect js store sha256) Same calls c' c' := guarantees_of_sound sound hstart hrun .refl
  have hstored : ∀ v rest, v :: rest <:+ c'.state (configurationKey store.scopePath) → ∃ document,
      calls v.writer = .write rest.length document ∧ Assigned store rest.length document v.contents := by
    intro v rest hs
    obtain ⟨⟨document, doc, hcall, hassign⟩, -⟩ := hguarantees.revisions v rest hs
    obtain ⟨hmerged, hschema, hencode⟩ := assign_ok hassign
    obtain ⟨h1, h2, h3⟩ := merged_assigned hmerged (hstart.meets v.writer rest.length document hcall)
    obtain ⟨-, hsame⟩ := encode_ok hencode hschema
    exact ⟨document, hcall, hsame.1.trans h1, hsame.2.1.trans h2, hsame.2.2.trans h3⟩
  refine ⟨hstored, ?_, ?_⟩
  · intro u rest v rest' hu hv hrevision
    obtain ⟨-, -, -, -, hu'⟩ := hstored u rest hu
    obtain ⟨-, -, -, -, hv'⟩ := hstored v rest' hv
    refine suffix_unique hu hv ?_
    rw [hu', hv'] at hrevision
    exact Nat.succ.inj hrevision
  · intro i r document configuration v hcall hret
    obtain ⟨rest, stored, hs, hlength, hassign, -⟩ := hguarantees.written i r document configuration v hcall hret
    obtain ⟨hmerged, -⟩ := assign_ok hassign
    exact ⟨merged_assigned hmerged (hstart.meets i r document hcall), rest, hs, hlength⟩

/-! ## A document that was read, edited and written -/

def sampleStore : ConfigurationStore := ⟨⟨"project", "live"⟩, "projects/project/live", by decide⟩

def sampleRuntime : Runtime Nat := ⟨some, fun _ => none, fun _ => none⟩

def sampleBody (settings : Nat) : Body Nat :=
  ⟨[⟨"slack", "main", "connectors/slack", "slack", none, none, settings⟩], [], [], none, none⟩

def sampleDialect : Dialect (Passed Nat) (Configuration Nat) (Configuration Nat) :=
  dialect sampleRuntime sampleStore (fun _ => "")

/-- A document without an identity. -/
def plain (settings : Nat) : Passed Nat := ⟨.absent, .absent, .absent, sampleBody settings⟩

/-- The document of a configuration, with its settings edited. -/
def edited (configuration : Configuration Nat) (settings : Nat) : Passed Nat :=
  ⟨.value configuration.schemaVersion, .value configuration.scope, .value configuration.revision, sampleBody settings⟩

def stored (revision settings : Nat) : Configuration Nat :=
  ⟨previousConfigurationSchemaVersion, ⟨"project", "live"⟩, revision, sampleBody settings⟩

def version (id : String) (contents : Configuration Nat) (writer : Bool) : Version (Configuration Nat) Bool :=
  ⟨id, id, contents, writer⟩

/-- A write of `plain 0`, then a write for revision 1 of `second`. -/
def twoWrites (second : Passed Nat) : Bool → Call (Passed Nat)
  | false => .write 0 (plain 0)
  | true => .write 1 second

def beforeWrites (second : Passed Nat) : Config (Op (Configuration Nat)) (Ans (Configuration Nat) Bool)
    (Except Err (Result (Configuration Nat) (Configuration Nat) Bool)) (Objects (Configuration Nat) Bool) Bool :=
  ⟨fun _ => [], fun i => ((twoWrites second i).method sampleDialect).run⟩

/-- Both writes, one after the other. -/
theorem run_twoWrites {second : Passed Nat} {doc : Configuration Nat}
    (hassign : sampleDialect.assign 1 second = .ok (doc, doc)) :
    ∃ c', Config.Run step (beforeWrites second) c' ∧
      c'.state (configurationKey sampleStore.scopePath) = [version "v2" doc true, version "v1" (stored 1 0) false] ∧
      c'.threads true = .ret (.ok (.current doc (version "v2" doc true))) := by
  let key := sampleDialect.key
  let one : Objects (Configuration Nat) Bool := put (fun _ => []) key (version "v1" (stored 1 0) false)
  have hfirst : Addable sampleDialect false (stored 1 0) (fun _ => []) (version "v1" (stored 1 0) false) :=
    ⟨⟨by decide, by decide, fun _ h => (by cases h), fun _ h => (by cases h)⟩, by decide, rfl, rfl⟩
  have hone : one key = [version "v1" (stored 1 0) false] := put_same _ _ _
  have hsecond : Addable sampleDialect true doc one (version "v2" doc true) := by
    have hmem : ∀ u ∈ one key, u = version "v1" (stored 1 0) false := by
      intro u hu
      rw [hone] at hu
      exact List.mem_singleton.1 hu
    refine ⟨⟨by simp [version], by simp [version], fun u hu => ?_, fun u hu h => ?_⟩, by simp [version], rfl, rfl⟩
    · rw [hmem u hu]
      simp [version]
    · rw [hmem u hu] at h
      simp [version] at h
  have hwrite₁ := exec_write (returns_write_first (d := sampleDialect) (s := fun _ => []) rfl rfl
    (show sampleDialect.assign 0 (plain 0) = .ok (stored 1 0, stored 1 0) by decide) hfirst)
  have hwrite₂ := exec_write (returns_write_next (r := 1) (d := sampleDialect) (s := one) hone
    (show decodeConfiguration sampleDialect (version "v1" (stored 1 0) false) = .ok (stored 1 0) by decide) rfl rfl hassign hsecond)
  have hrun₁ := Config.run_alone step false (c := beforeWrites second) hwrite₁
  have hrun₂ := Config.run_alone step true (c := ⟨one, fun j => if j = false then
    .ret (.ok (.current (stored 1 0) (version "v1" (stored 1 0) false))) else (beforeWrites second).threads j⟩) hwrite₂
  refine ⟨_, hrun₁.trans hrun₂, ?_, rfl⟩
  show put one key (version "v2" doc true) key = _
  rw [put_same, hone]

/-- **A document that was read, edited and passed back is stored under the revision it was read with.** -/
theorem revision_repeated : ∃ c', Config.Run step (beforeWrites (edited (stored 1 0) 1)) c' ∧
    ∃ u v, c'.state (configurationKey sampleStore.scopePath) = [v, u] ∧ u.contents.revision = 1 ∧ v.contents.revision = 1 ∧
      u.contents ≠ v.contents := by
  have hassign : sampleDialect.assign 1 (edited (stored 1 0) 1) = .ok (stored 1 1, stored 1 1) := by decide
  obtain ⟨c', hrun, hhead, -⟩ := run_twoWrites hassign
  exact ⟨c', hrun, _, _, hhead, rfl, rfl, by decide⟩

/-- Two writes of documents without an identity. -/
theorem identity_assigned_twice : ∃ c', Config.Run step (beforeWrites (plain 1)) c' ∧
    c'.state (configurationKey sampleStore.scopePath) = [version "v2" (stored 2 1) true, version "v1" (stored 1 0) false] ∧
    Assigned sampleStore 1 (plain 1) (stored 2 1) := by
  have hassign : sampleDialect.assign 1 (plain 1) = .ok (stored 2 1, stored 2 1) := by decide
  obtain ⟨c', hrun, hhead, hret⟩ := run_twoWrites hassign
  have hstart : Start sampleDialect (Meets sampleStore) (twoWrites (plain 1)) (beforeWrites (plain 1)) := by
    refine ⟨wf_empty, rfl, fun i => rfl, fun i r document hcall => ?_⟩
    cases i <;> cases hcall <;> exact ⟨fun _ h => (by cases h), fun _ h => (by cases h), fun _ h => (by cases h)⟩
  have h := (identity_assigned hstart hrun).2.2 true 1 (plain 1) (stored 2 1) _ rfl hret
  exact ⟨c', hrun, hhead, h.1⟩

end TypeScript
end ConfigStore
end Dex
