import DexConnectors.ConfigHistory
import DexConnectors.ConfigWire
import DexConnectors.LibJson
/-!
# ConfigGo — the Go configuration document (`sdkgo/projectconfig/configuration.go`, `application_environment.go`,
`credential_broker_configuration.go`)

Settings are raw JSON texts.  `json.Marshal` embeds them compacted and escaped, with a scanner of its own for each; reading
the document back scans it as a whole, where settings stand three levels down.  Both scanners refuse to nest deeper than
ten thousand levels.

The contents of an object are the document with its settings as they are spelled in the text: everything else of the text is
determined by the document.  A nil slice is written as `null` and read back as nil; an empty map and a nil one are the same.
`url.Parse` and `net.ParseIP` are parameters.
-/
namespace Dex
namespace ConfigStore
namespace Go

open Lib Lib.Store
open Wire (Scope)

def maxNestingDepth : Nat := 10000

structure ConnectionConfiguration where
  connectorID        : String
  connectionName     : String
  modulePath         : String
  provider           : String
  authMethodID       : String
  sharedConnectionID : String
  configuration      : Bytes
  deriving DecidableEq, Repr

structure TriggerConfiguration where
  connectorID    : String
  connectionName : String
  triggerName    : String
  bindingName    : String
  configuration  : Bytes
  deriving DecidableEq, Repr

structure OperationConfiguration where
  connectorID    : String
  connectionName : String
  operationID    : String
  flowType       : String
  stepType       : String
  configuration  : Bytes
  deriving DecidableEq, Repr

structure Configuration where
  schemaVersion           : String
  scope                   : Scope
  revision                : Nat
  connections             : Option (List ConnectionConfiguration)
  triggerBindings         : Option (List TriggerConfiguration)
  operationConfigurations : Option (List OperationConfiguration)
  environment             : Environment
  credentialBroker        : Option CredentialBrokerConfiguration
  deriving DecidableEq

structure URL where
  scheme   : String
  host     : String
  hostname : String
  hasUser  : Bool
  rawQuery : String
  fragment : String

structure Address where
  isLoopback         : Bool
  isPrivate          : Bool
  isLinkLocalUnicast : Bool

structure Net where
  parseURL : String → Option URL
  parseIP  : String → Option Address

/-! ## Validation -/

def isJSONObject (contents : Bytes) : Bool :=
  match Json.parse maxNestingDepth contents with
  | some tokens => Json.isObject tokens
  | none => false

/-- What `strings.Trim` cuts from both ends of a connector id. -/
def isConnectorCharacter (c : Char) : Bool := isLowerLetter c || isDecimal c || c == '-'

def regexpConnectorID (value : String) : Bool :=
  match value.toList with
  | [] => false
  | c :: _ =>
    if byteLength value < 2 || byteLength value > 63 || c < 'a' || c > 'z' then false
    else ((value.toList.dropWhile isConnectorCharacter).reverse.dropWhile isConnectorCharacter).isEmpty

/-- `strings.ContainsAny` of NUL, CR and LF. -/
def containsControl (text : String) : Bool := text.toList.any (fun c => c == '\x00' || c == '\r' || c == '\n')

def isPinned (scopePath name : String) (reference : ApplicationSecretRef) : Bool :=
  isSecretKey scopePath name reference.key && reference.version != "" && reference.version != "null" &&
    !containsControl reference.version && applicationSecretDigest reference.digest

/-- The check of one entry of the environment. -/
def validateEntry (scopePath : String) (entry : String × EnvironmentValue) : Except Err Unit :=
  if !isApplicationEnvironmentName entry.1 || (entry.2.value.isNone == entry.2.secretRef.isNone) then
    .error (.invalid "application environment entry is invalid")
  else match entry.2.value, entry.2.secretRef with
    | some value, _ =>
      if validEnvironmentValue value then .ok () else .error (.invalid "application environment value is invalid")
    | none, some reference =>
      if isPinned scopePath entry.1 reference then .ok ()
      else .error (.invalid "application secret reference differs from scope")
    | none, none => .ok ()

def validateEnvironmentReferences (configuration : Configuration) : Except Err Unit :=
  if configuration.environment.entries.length > 128 then .error (.invalid "application environment exceeds field limit")
  else do
    let scopePath ← scopePrefix configuration.scope
    configuration.environment.entries.forM (validateEntry scopePath)

variable (net : Net)

def isPrivateBrokerHost (hostname : String) : Bool :=
  match net.parseIP hostname with
  | some address => address.isLoopback || address.isPrivate || address.isLinkLocalUnicast
  | none => hostname == "localhost" || hostname == "host.docker.internal" || !hostname.toList.contains '.' ||
      endsWith ".svc" hostname || endsWith ".svc.cluster.local" hostname

def validateCredentialBrokerEndpoint (value : String) : Except Err Unit :=
  match net.parseURL value with
  | none => .error (.invalid "credential broker endpoint must be an absolute http or https URL")
  | some parsed =>
    if byteLength value > 2048 || parsed.host == "" || parsed.hasUser || parsed.rawQuery != "" || parsed.fragment != "" ||
        (parsed.scheme != "https" && parsed.scheme != "http") then
      .error (.invalid "credential broker endpoint must be an absolute http or https URL")
    else if parsed.scheme == "http" && !isPrivateBrokerHost net parsed.hostname then
      .error (.invalid
        "credential broker endpoint may use http only for a loopback, private, single-label or cluster-local host")
    else .ok ()

def validateCredentialBroker (scope : Scope) (broker : CredentialBrokerConfiguration) : Except Err Unit := do
  validateCredentialBrokerEndpoint net broker.endpoint
  let scopePath ← scopePrefix scope
  if isPinned scopePath credentialBrokerTokenName broker.tokenSecretRef then .ok ()
  else .error (.invalid "credential broker token reference differs from scope")

def hasSharedConnection (configuration : Configuration) : Bool :=
  (configuration.connections.getD []).any (fun connection => connection.sharedConnectionID != "")

def validateSharedConnections (configuration : Configuration) : Except Err Unit :=
  if (configuration.connections.getD []).any (fun connection =>
      connection.sharedConnectionID != "" && !sharedConnectionIdentity connection.sharedConnectionID) then
    .error (.invalid "configuration shared connection ID is invalid")
  else if configuration.schemaVersion == previousConfigurationSchemaVersion &&
      (configuration.credentialBroker.isSome || hasSharedConnection configuration) then
    .error (.invalid "configuration uses shared connections but declares an earlier schema version")
  else match configuration.credentialBroker with
    | none =>
      if hasSharedConnection configuration then
        .error (.invalid "configuration shared connections require a credential broker")
      else .ok ()
    | some broker => validateCredentialBroker net configuration.scope broker

def ConnectionConfiguration.key (connection : ConnectionConfiguration) : String × String :=
  (connection.connectorID, connection.connectionName)

def ConnectionConfiguration.isInvalid (connection : ConnectionConfiguration) : Bool :=
  !regexpConnectorID connection.connectorID || connection.connectionName == "" || connection.modulePath == "" ||
    connection.provider == "" || !isJSONObject connection.configuration

def TriggerConfiguration.key (binding : TriggerConfiguration) : String × String × String × String :=
  (binding.connectorID, binding.connectionName, binding.triggerName, binding.bindingName)

def TriggerConfiguration.isInvalid (connections : List (String × String)) (binding : TriggerConfiguration) : Bool :=
  !connections.contains (binding.connectorID, binding.connectionName) || binding.triggerName == "" ||
    binding.bindingName == "" || !isJSONObject binding.configuration

def OperationConfiguration.key (operation : OperationConfiguration) : String × String × String × String × String :=
  (operation.connectorID, operation.connectionName, operation.operationID, operation.flowType, operation.stepType)

def OperationConfiguration.isInvalid (connections : List (String × String)) (operation : OperationConfiguration) : Bool :=
  !connections.contains (operation.connectorID, operation.connectionName) || operation.operationID == "" ||
    operation.flowType == "" || operation.stepType == "" || !isJSONObject operation.configuration

/-- The loops of `validateConfiguration`. -/
def validateEntries (connections : List ConnectionConfiguration) (triggers : List TriggerConfiguration)
    (operations : List OperationConfiguration) : Except Err Unit :=
  if connections.length > 1000 || triggers.length > 10000 || operations.length > 10000 then
    .error (.invalid "configuration document exceeds binding limits")
  else do
    validateEach ConnectionConfiguration.isInvalid ConnectionConfiguration.key
      "configuration connection is invalid or duplicated" [] connections
    validateEach (TriggerConfiguration.isInvalid (connections.map ConnectionConfiguration.key)) TriggerConfiguration.key
      "configuration trigger is invalid or duplicated" [] triggers
    validateEach (OperationConfiguration.isInvalid (connections.map ConnectionConfiguration.key)) OperationConfiguration.key
      "configuration operation is invalid or duplicated" [] operations

def validateConfiguration (configuration : Configuration) : Except Err Unit := do
  validateEnvironmentReferences configuration
  validateSharedConnections net configuration
  validateEntries (configuration.connections.getD []) (configuration.triggerBindings.getD [])
    (configuration.operationConfigurations.getD [])

/-! ## Encoding -/

/-- The entries of a slice, each with its settings compacted. -/
def marshalEach {α : Type} (settings : α → Bytes) (embed : α → Bytes → α) : List α → Option (List α)
  | [] => some []
  | entry :: rest =>
    match Json.compact maxNestingDepth (settings entry), marshalEach settings embed rest with
    | some compacted, some others => some (embed entry compacted :: others)
    | _, _ => none

def marshalSlice {α : Type} (settings : α → Bytes) (embed : α → Bytes → α) : Option (List α) → Option (Option (List α))
  | none => some none
  | some entries => (marshalEach settings embed entries).map some

/-- `json.Marshal` of a document. -/
def marshal (configuration : Configuration) : Option Configuration := do
  let connections ← marshalSlice ConnectionConfiguration.configuration
    (fun entry compacted => { entry with configuration := compacted }) configuration.connections
  let triggers ← marshalSlice TriggerConfiguration.configuration
    (fun entry compacted => { entry with configuration := compacted }) configuration.triggerBindings
  let operations ← marshalSlice OperationConfiguration.configuration
    (fun entry compacted => { entry with configuration := compacted }) configuration.operationConfigurations
  return { configuration with
    connections := connections, triggerBindings := triggers, operationConfigurations := operations }

def Configuration.settings (configuration : Configuration) : List Bytes :=
  (configuration.connections.getD []).map ConnectionConfiguration.configuration ++
    (configuration.triggerBindings.getD []).map TriggerConfiguration.configuration ++
    (configuration.operationConfigurations.getD []).map OperationConfiguration.configuration

/-- `strictJSON` of the contents of the head: settings are inside an entry, in a list, in the document. -/
def strictJSON (contents : Configuration) : Option Configuration :=
  if contents.settings.all (fun settings => (Json.parse (maxNestingDepth - 3) settings).isSome) then some contents else none

/-! ## The store -/

/-- A store, with the scope it was made for. -/
structure ConfigurationStore where
  scope     : Scope
  scopePath : String
  valid     : scopePrefix scope = .ok scopePath

def schemaVersionFor (configuration : Configuration) : String :=
  if configuration.credentialBroker.isSome then configurationSchemaVersion
  else if hasSharedConnection configuration then configurationSchemaVersion
  else previousConfigurationSchemaVersion

def isSupportedSchemaVersion (version : String) : Bool :=
  version == configurationSchemaVersion || version == previousConfigurationSchemaVersion

variable (store : ConfigurationStore)

/-- The contents part of `decodeConfiguration`. -/
def decodeContents (contents : Configuration) : Except Err Configuration :=
  match strictJSON contents with
  | none => .error (.invalid "configuration document identity is invalid")
  | some configuration =>
    if !isSupportedSchemaVersion configuration.schemaVersion || configuration.scope != store.scope ||
        configuration.revision == 0 then
      .error (.invalid "configuration document identity is invalid")
    else do
      validateConfiguration net configuration
      return configuration

/-- The document a write assigns: `expectedRevision+1` is of type `uint64`. -/
def assigned (expectedRevision : Nat) (configuration : Configuration) : Configuration :=
  { configuration with
    schemaVersion := schemaVersionFor configuration, scope := store.scope, revision := (expectedRevision + 1) % 2 ^ 64 }

/-- A document, validated, and its encoding. -/
def encode (updated : Configuration) : Except Err (Configuration × Configuration) := do
  validateConfiguration net updated
  match marshal updated with
  | some contents => return (updated, contents)
  | none => throw (.invalid "configuration encoding failed")

def assign (expectedRevision : Nat) (configuration : Configuration) : Except Err (Configuration × Configuration) :=
  encode net (assigned store expectedRevision configuration)

variable (sha256 : Configuration → String)

/-- **The Go configuration store.** -/
def dialect : Dialect Configuration Configuration Configuration where
  key := configurationKey store.scopePath
  refusesNull := true
  decode := decodeContents net store
  revision := Configuration.revision
  assign := assign net store
  creates := fun expectedRevision _ => expectedRevision == 0
  digest := fun contents => "sha256:" ++ sha256 contents
  acceptsReference := fun reference =>
    reference.key == configurationKey store.scopePath && reference.version != "" && reference.version != "null" &&
      reference.mediaType == "application/json" && byteLength reference.digest == 71 && startsWith "sha256:" reference.digest
  afterUnknown := fun _ => .outcomeUnknown

/-! ## What is written is read back -/

/-- Two spellings of one JSON value. -/
def SameSettings (a b : Bytes) : Prop :=
  (Json.parse maxNestingDepth a).map Json.values = (Json.parse maxNestingDepth b).map Json.values

/-- Two entries that differ in how their settings are spelled. -/
def SameEntry {α : Type} (settings : α → Bytes) (embed : α → Bytes → α) (x y : α) : Prop :=
  y = embed x (settings y) ∧ SameSettings (settings x) (settings y)

/-- **The same document**, up to how its settings are spelled. -/
structure Same (a b : Configuration) : Prop where
  identity    : b.schemaVersion = a.schemaVersion ∧ b.scope = a.scope ∧ b.revision = a.revision
  environment : b.environment = a.environment
  broker      : b.credentialBroker = a.credentialBroker
  connections : Option.Rel (List.Forall₂ (SameEntry ConnectionConfiguration.configuration
    (fun entry settings => { entry with configuration := settings }))) a.connections b.connections
  triggers    : Option.Rel (List.Forall₂ (SameEntry TriggerConfiguration.configuration
    (fun entry settings => { entry with configuration := settings }))) a.triggerBindings b.triggerBindings
  operations  : Option.Rel (List.Forall₂ (SameEntry OperationConfiguration.configuration
    (fun entry settings => { entry with configuration := settings }))) a.operationConfigurations b.operationConfigurations

section

variable {α : Type} {settings : α → Bytes} {embed : α → Bytes → α}

/-- An entry and the entry that is written for it. -/
def Embedded (settings : α → Bytes) (embed : α → Bytes → α) (x y : α) : Prop :=
  y = embed x (settings y) ∧ Json.compact maxNestingDepth (settings x) = some (settings y)

theorem marshalEach_embedded (hembed : ∀ x text, settings (embed x text) = text) : ∀ {xs ys : List α},
    marshalEach settings embed xs = some ys → List.Forall₂ (Embedded settings embed) xs ys
  | [], ys, h => by
    cases h
    exact .nil
  | x :: xs, ys, h => by
    unfold marshalEach at h
    split at h
    · rename_i compacted others hc hrest
      cases h
      exact .cons ⟨by rw [hembed], by rw [hembed]; exact hc⟩ (marshalEach_embedded hembed hrest)
    · cases h

theorem marshalSlice_embedded (hembed : ∀ x text, settings (embed x text) = text) {xs ys : Option (List α)}
    (h : marshalSlice settings embed xs = some ys) : Option.Rel (List.Forall₂ (Embedded settings embed)) xs ys := by
  cases xs with
  | none =>
    cases h
    exact .none
  | some xs =>
    obtain ⟨ys, hys, rfl⟩ := Option.map_eq_some_iff.1 h
    exact .some (marshalEach_embedded hembed hys)

theorem sameSettings_compact {a b : Bytes} (h : Json.compact maxNestingDepth a = some b) : SameSettings a b := by
  obtain ⟨ts, hts, rfl⟩ := Option.map_eq_some_iff.1 h
  unfold SameSettings
  rw [Json.parse_compact hts, if_pos (Json.parse_some.1 hts).2, hts, Option.map_some, Option.map_some, Json.values_escape hts]

theorem isJSONObject_compact {a b : Bytes} (h : Json.compact maxNestingDepth a = some b) : isJSONObject b = isJSONObject a := by
  obtain ⟨ts, hts, rfl⟩ := Option.map_eq_some_iff.1 h
  unfold isJSONObject
  rw [Json.parse_compact hts, if_pos (Json.parse_some.1 hts).2, hts]
  exact Json.isObject_escape ts

theorem getD_forall₂ {R : α → α → Prop} {xs ys : Option (List α)} (h : Option.Rel (List.Forall₂ R) xs ys) :
    List.Forall₂ R (xs.getD []) (ys.getD []) := by
  cases h with
  | none => exact .nil
  | some h => exact h

theorem sameEntry_of_embedded {x y : α} (h : Embedded settings embed x y) : SameEntry settings embed x y :=
  ⟨h.1, sameSettings_compact h.2⟩

theorem rel_same {xs ys : Option (List α)} (h : Option.Rel (List.Forall₂ (Embedded settings embed)) xs ys) :
    Option.Rel (List.Forall₂ (SameEntry settings embed)) xs ys := by
  cases h with
  | none => exact .none
  | some h => exact .some (h.imp (fun _ _ => sameEntry_of_embedded))

end

/-- **The document that is written for a document.** -/
structure Marshaled (a b : Configuration) : Prop where
  identity    : b.schemaVersion = a.schemaVersion ∧ b.scope = a.scope ∧ b.revision = a.revision
  environment : b.environment = a.environment
  broker      : b.credentialBroker = a.credentialBroker
  connections : Option.Rel (List.Forall₂ (Embedded ConnectionConfiguration.configuration
    (fun entry settings => { entry with configuration := settings }))) a.connections b.connections
  triggers    : Option.Rel (List.Forall₂ (Embedded TriggerConfiguration.configuration
    (fun entry settings => { entry with configuration := settings }))) a.triggerBindings b.triggerBindings
  operations  : Option.Rel (List.Forall₂ (Embedded OperationConfiguration.configuration
    (fun entry settings => { entry with configuration := settings }))) a.operationConfigurations b.operationConfigurations

theorem marshaled_of_marshal {a b : Configuration} (h : marshal a = some b) : Marshaled a b := by
  unfold marshal at h
  simp only [Option.bind_eq_bind, Option.bind_eq_some_iff] at h
  obtain ⟨connections, hc, triggers, ht, operations, ho, h⟩ := h
  cases h
  exact ⟨⟨rfl, rfl, rfl⟩, rfl, rfl, marshalSlice_embedded (fun _ _ => rfl) hc, marshalSlice_embedded (fun _ _ => rfl) ht,
    marshalSlice_embedded (fun _ _ => rfl) ho⟩

theorem Marshaled.same {a b : Configuration} (h : Marshaled a b) : Same a b :=
  ⟨h.identity, h.environment, h.broker, rel_same h.connections, rel_same h.triggers, rel_same h.operations⟩

theorem ConnectionConfiguration.embedded_key {x y : ConnectionConfiguration}
    (h : Embedded ConnectionConfiguration.configuration (fun entry settings => { entry with configuration := settings }) x y) :
    x.isInvalid = y.isInvalid ∧ x.key = y.key ∧ x.sharedConnectionID = y.sharedConnectionID := by
  have hobject := isJSONObject_compact h.2
  obtain ⟨hy, -⟩ := h
  rw [hy]
  exact ⟨by unfold isInvalid; rw [hobject], rfl, rfl⟩

theorem TriggerConfiguration.embedded_key {declared : List (String × String)} {x y : TriggerConfiguration}
    (h : Embedded TriggerConfiguration.configuration (fun entry settings => { entry with configuration := settings }) x y) :
    x.isInvalid declared = y.isInvalid declared ∧ x.key = y.key := by
  have hobject := isJSONObject_compact h.2
  obtain ⟨hy, -⟩ := h
  rw [hy]
  exact ⟨by unfold isInvalid; rw [hobject], rfl⟩

theorem OperationConfiguration.embedded_key {declared : List (String × String)} {x y : OperationConfiguration}
    (h : Embedded OperationConfiguration.configuration (fun entry settings => { entry with configuration := settings }) x y) :
    x.isInvalid declared = y.isInvalid declared ∧ x.key = y.key := by
  have hobject := isJSONObject_compact h.2
  obtain ⟨hy, -⟩ := h
  rw [hy]
  exact ⟨by unfold isInvalid; rw [hobject], rfl⟩

theorem Marshaled.shared {a b : Configuration} (h : Marshaled a b) :
    (a.connections.getD []).map ConnectionConfiguration.sharedConnectionID =
      (b.connections.getD []).map ConnectionConfiguration.sharedConnectionID :=
  map_eq_of_forall₂ _ (getD_forall₂ h.connections) (fun _ _ hxy => (ConnectionConfiguration.embedded_key hxy).2.2)

theorem Marshaled.any_shared {a b : Configuration} (h : Marshaled a b) (p : String → Bool) :
    (b.connections.getD []).any (fun connection => p connection.sharedConnectionID) =
      (a.connections.getD []).any (fun connection => p connection.sharedConnectionID) := by
  have := congrArg (fun ids => ids.any p) h.shared
  simpa only [List.any_map, Function.comp_def] using this.symm

theorem Marshaled.validateShared {a b : Configuration} (h : Marshaled a b) :
    validateSharedConnections net b = validateSharedConnections net a := by
  have hids := h.any_shared (fun id => id != "" && !sharedConnectionIdentity id)
  have hany : hasSharedConnection b = hasSharedConnection a := h.any_shared (fun id => id != "")
  unfold validateSharedConnections
  rw [hids, hany, h.identity.1, h.identity.2.1, h.broker]

theorem Marshaled.validateEntries {a b : Configuration} (h : Marshaled a b) :
    Go.validateEntries (b.connections.getD []) (b.triggerBindings.getD []) (b.operationConfigurations.getD []) =
      Go.validateEntries (a.connections.getD []) (a.triggerBindings.getD []) (a.operationConfigurations.getD []) := by
  have hc := getD_forall₂ h.connections
  have ht := getD_forall₂ h.triggers
  have ho := getD_forall₂ h.operations
  have hkeys := map_eq_of_forall₂ ConnectionConfiguration.key hc
    (fun _ _ hxy => (ConnectionConfiguration.embedded_key hxy).2.1)
  have hconnections := hc.imp (fun _ _ hxy => (⟨(ConnectionConfiguration.embedded_key hxy).1,
    (ConnectionConfiguration.embedded_key hxy).2.1⟩ : _ ∧ _))
  unfold Go.validateEntries
  rw [hc.length_eq, ht.length_eq, ho.length_eq, hkeys, validateEach_congr hconnections,
    validateEach_congr (ht.imp (fun _ _ hxy => TriggerConfiguration.embedded_key hxy)),
    validateEach_congr (ho.imp (fun _ _ hxy => OperationConfiguration.embedded_key hxy))]

/-- **The reader's validation of what is written is the writer's.** -/
theorem Marshaled.validate {a b : Configuration} (h : Marshaled a b) :
    validateConfiguration net b = validateConfiguration net a := by
  have henvironment : validateEnvironmentReferences b = validateEnvironmentReferences a := by
    unfold validateEnvironmentReferences
    rw [h.environment, h.identity.2.1]
  unfold validateConfiguration
  rw [henvironment, h.validateShared, h.validateEntries]

/-- Settings are accepted at a depth where the ones they are written for are. -/
theorem Marshaled.settings {a b : Configuration} (h : Marshaled a b) (limit : Nat) :
    a.settings.map (fun settings => (Json.parse limit settings).isSome) =
      b.settings.map (fun settings => (Json.parse limit settings).isSome) := by
  have hc := map_eq_of_forall₂ (fun entry => (Json.parse limit entry.configuration).isSome) (getD_forall₂ h.connections)
    (fun _ _ hxy => (Json.isSome_parse_compact hxy.2 limit).symm)
  have ht := map_eq_of_forall₂ (fun entry => (Json.parse limit entry.configuration).isSome) (getD_forall₂ h.triggers)
    (fun _ _ hxy => (Json.isSome_parse_compact hxy.2 limit).symm)
  have ho := map_eq_of_forall₂ (fun entry => (Json.parse limit entry.configuration).isSome) (getD_forall₂ h.operations)
    (fun _ _ hxy => (Json.isSome_parse_compact hxy.2 limit).symm)
  unfold Configuration.settings
  simp only [List.map_append, List.map_map, Function.comp_def]
  rw [hc, ht, ho]

theorem validateEntries_ok {connections : List ConnectionConfiguration} {triggers : List TriggerConfiguration}
    {operations : List OperationConfiguration} (h : validateEntries connections triggers operations = .ok ()) :
    (∀ entry ∈ connections, isJSONObject entry.configuration = true) ∧
    (∀ entry ∈ triggers, isJSONObject entry.configuration = true) ∧
    ∀ entry ∈ operations, isJSONObject entry.configuration = true := by
  unfold validateEntries at h
  split at h
  · cases h
  · cases hc : validateEach ConnectionConfiguration.isInvalid ConnectionConfiguration.key
      "configuration connection is invalid or duplicated" [] connections with
    | error err => rw [hc] at h; cases h
    | ok u =>
      cases ht : validateEach (TriggerConfiguration.isInvalid (connections.map ConnectionConfiguration.key))
        TriggerConfiguration.key "configuration trigger is invalid or duplicated" [] triggers with
      | error err => rw [hc, ht] at h; cases h
      | ok v =>
        rw [hc, ht] at h
        refine ⟨fun entry hentry => ?_, fun entry hentry => ?_, fun entry hentry => ?_⟩
        · have := validateEach_ok hc entry hentry
          simp only [ConnectionConfiguration.isInvalid, Bool.or_eq_false_iff, Bool.not_eq_false'] at this
          exact this.2
        · have := validateEach_ok ht entry hentry
          simp only [TriggerConfiguration.isInvalid, Bool.or_eq_false_iff, Bool.not_eq_false'] at this
          exact this.2
        · have := validateEach_ok h entry hentry
          simp only [OperationConfiguration.isInvalid, Bool.or_eq_false_iff, Bool.not_eq_false'] at this
          exact this.2

/-- A valid document has settings that are objects. -/
theorem isJSONObject_of_validate {configuration : Configuration} (h : validateConfiguration net configuration = .ok ()) :
    ∀ settings ∈ configuration.settings, isJSONObject settings = true := by
  have hentries : validateEntries (configuration.connections.getD []) (configuration.triggerBindings.getD [])
      (configuration.operationConfigurations.getD []) = .ok () := by
    unfold validateConfiguration at h
    cases he : validateEnvironmentReferences configuration with
    | error err => rw [he] at h; cases h
    | ok u =>
      cases hs : validateSharedConnections net configuration with
      | error err => rw [he, hs] at h; cases h
      | ok v => rw [he, hs] at h; exact h
  obtain ⟨hc, ht, ho⟩ := validateEntries_ok hentries
  intro settings hmem
  unfold Configuration.settings at hmem
  rw [List.mem_append, List.mem_append, List.mem_map, List.mem_map, List.mem_map] at hmem
  rcases hmem with (⟨entry, hentry, rfl⟩ | ⟨entry, hentry, rfl⟩) | ⟨entry, hentry, rfl⟩
  · exact hc entry hentry
  · exact ht entry hentry
  · exact ho entry hentry

/-- **The writes the reader is fit for**: the next revision is no overflow, and settings that are objects still are three
levels down. -/
def Meets (expectedRevision : Nat) (configuration : Configuration) : Prop :=
  expectedRevision + 1 < 2 ^ 64 ∧
  ∀ settings ∈ configuration.settings, isJSONObject settings = true → (Json.parse (maxNestingDepth - 3) settings).isSome = true

theorem assign_ok {r : Nat} {input doc contents : Configuration} (h : assign net store r input = .ok (doc, contents)) :
    doc = assigned store r input ∧ validateConfiguration net doc = .ok () ∧ marshal doc = some contents := by
  unfold assign encode at h
  cases hv : validateConfiguration net (assigned store r input) with
  | error err => rw [hv] at h; cases h
  | ok u =>
    rw [hv] at h
    cases hm : marshal (assigned store r input) with
    | none =>
      simp only [hm] at h
      cases h
    | some written =>
      simp only [hm] at h
      cases h
      exact ⟨rfl, hv, hm⟩

theorem isSupported_schemaVersionFor (configuration : Configuration) :
    isSupportedSchemaVersion (schemaVersionFor configuration) = true := by
  unfold schemaVersionFor
  split
  · decide
  · split <;> decide

/-- **What a write stores is accepted**, as the document it returns. -/
theorem decode_assigned {r : Nat} {input doc contents : Configuration} (hmeets : Meets r input)
    (h : assign net store r input = .ok (doc, contents)) :
    decodeContents net store contents = .ok contents ∧ Same doc contents ∧ contents.revision = r + 1 := by
  obtain ⟨rfl, hvalid, hmarshal⟩ := assign_ok net store h
  have hm := marshaled_of_marshal hmarshal
  have hall : contents.settings.all (fun settings => (Json.parse (maxNestingDepth - 3) settings).isSome) = true := by
    have hsome : ∀ b ∈ (assigned store r input).settings.map (fun settings => (Json.parse (maxNestingDepth - 3) settings).isSome),
        b = true := by
      intro b hb
      obtain ⟨settings, hmem, rfl⟩ := List.mem_map.1 hb
      exact hmeets.2 settings hmem (isJSONObject_of_validate net hvalid settings hmem)
    rw [hm.settings] at hsome
    exact List.all_eq_true.2 (fun settings hmem => hsome _ (List.mem_map.2 ⟨settings, hmem, rfl⟩))
  have hrevision : contents.revision = r + 1 := by
    rw [hm.identity.2.2]
    exact Nat.mod_eq_of_lt hmeets.1
  refine ⟨?_, hm.same, hrevision⟩
  have hidentity : (!isSupportedSchemaVersion contents.schemaVersion || contents.scope != store.scope ||
      contents.revision == 0) = false := by
    rw [hm.identity.1, hm.identity.2.1, hrevision]
    simp [assigned, isSupported_schemaVersionFor]
  unfold decodeContents strictJSON
  rw [if_pos hall]
  simp only [hidentity]
  rw [hm.validate, hvalid]
  rfl

theorem sound (hdigests : ∀ contents, Wire.isDigest (sha256 contents) = true) :
    (dialect net store sha256).Sound Meets Same where
  stores := fun r input doc contents hmeets h =>
    ⟨contents, (decode_assigned net store hmeets h).1, (decode_assigned net store hmeets h).2⟩
  creates := fun r found h => .inr (by simpa [dialect] using h)
  replaces := fun r found h => .inr (by simpa [dialect] using h)
  unknown := fun _ _ => rfl
  accepts := by
    intro contents id hid hnull
    obtain ⟨hlength, hstart, -⟩ := digest_checks (hdigests contents)
    simp [dialect, hid, hnull, hlength, hstart]

end Go
end ConfigStore
end Dex
