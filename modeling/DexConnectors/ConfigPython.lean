import DexConnectors.ConfigHistory
import DexConnectors.ConfigWire
import DexConnectors.LibJsonValue
/-!
# ConfigPython — the Python configuration document (`sdkpython/.../projectconfig/models.py`, `storage.py`)

Settings are JSON values and trigger bindings and operation configurations are dictionaries of them.  `json.loads` of what
`go_canonical_json_bytes` writes is the value that was written, and the bytes determine it, so the contents of an object are
the members of the document: the ones that `to_wire` leaves out when they are empty are optional.

`str` of a value that is no string, `urlsplit` and `ip_address` are parameters.
-/
namespace Dex
namespace ConfigStore
namespace Python

open Lib Lib.Store
open Wire (Scope)

/-- An `int`, or a `float` as it is written. -/
inductive Number where
  | int (n : Int)
  | float (text : String)
  deriving DecidableEq, Repr

abbrev Json := JsonValue Number

structure ConnectionConfiguration where
  connectorID        : String
  connectionName     : String
  modulePath         : String
  provider           : String
  configuration      : Json
  authMethodID       : String
  sharedConnectionID : String
  deriving DecidableEq

structure Configuration where
  scope                   : Scope
  revision                : Nat
  connections             : List ConnectionConfiguration
  triggerBindings         : List (List (String × Json))
  operationConfigurations : List (List (String × Json))
  environment             : Environment
  credentialBroker        : Option CredentialBrokerConfiguration
  schemaVersion           : String
  deriving DecidableEq

/-- `urlsplit`: absent parts are empty. -/
structure SplitResult where
  scheme   : String
  hostname : String
  username : String
  password : String
  query    : String
  fragment : String

structure Address where
  isPrivate   : Bool
  isLoopback  : Bool
  isLinkLocal : Bool

structure Builtins where
  strOther  : Json → String                   -- `str` of a value that is no string
  urlsplit  : String → Option SplitResult     -- none when it raises
  ipAddress : String → Option Address         -- none when it raises

variable (py : Builtins)

def str : Json → String
  | .scalar (.string text) => text
  | value => py.strOther value

/-- `str(members.get(name, ""))`. -/
def strOf (members : List (String × Json)) (name : String) : String :=
  match JsonValue.get members name with
  | some value => str py value
  | none => ""

/-- `isinstance(members.get("configuration"), dict)`. -/
def hasConfiguration (members : List (String × Json)) : Bool := ((JsonValue.get members "configuration").map JsonValue.isObject).getD false

/-! ## Validation -/

def validateSecretReference (scopePath name : String) (reference : ApplicationSecretRef) : Except Err Unit :=
  if !isSecretKey scopePath name reference.key || reference.version == "" || reference.version == "null" ||
      !applicationSecretDigest reference.digest then
    .error (.invalid "application secret reference differs from scope")
  else .ok ()

def isPrivateHost (host : String) : Bool :=
  host == "localhost" || host == "host.docker.internal" || !host.toList.contains '.' || endsWith ".svc" host ||
    endsWith ".svc.cluster.local" host ||
    match py.ipAddress host with
    | some address => address.isPrivate || address.isLoopback || address.isLinkLocal
    | none => false

def validateBrokerEndpoint (value : String) : Except Err Unit :=
  match py.urlsplit value with
  | none => .error (.invalid "invalid URL")
  | some parsed =>
    if value.toList.length > 2048 || (parsed.scheme != "http" && parsed.scheme != "https") || parsed.hostname == "" ||
        parsed.username != "" || parsed.password != "" || parsed.query != "" || parsed.fragment != "" then
      .error (.invalid "credential broker endpoint must be an absolute HTTP or HTTPS URL")
    else if parsed.scheme == "https" then .ok ()
    else if isPrivateHost py parsed.hostname then .ok ()
    else .error (.invalid "credential broker HTTP endpoint must use a private host")

def ConnectionConfiguration.identity (entry : ConnectionConfiguration) : String × String :=
  (entry.connectorID, entry.connectionName)

def ConnectionConfiguration.isInvalid (entry : ConnectionConfiguration) : Bool :=
  !isConnectorID entry.connectorID || entry.connectionName == "" || entry.modulePath == "" || entry.provider == "" ||
    !entry.configuration.isObject

def triggerIdentity (binding : List (String × Json)) : String × String × String × String :=
  (strOf py binding "connectorId", strOf py binding "connectionName", strOf py binding "triggerName", strOf py binding "bindingName")

def isInvalidTrigger (identities : List (String × String)) (binding : List (String × Json)) : Bool :=
  !identities.contains (strOf py binding "connectorId", strOf py binding "connectionName") ||
    strOf py binding "triggerName" == "" || strOf py binding "bindingName" == "" || !hasConfiguration binding

def operationIdentity (operation : List (String × Json)) : String × String × String × String × String :=
  (strOf py operation "connectorId", strOf py operation "connectionName", strOf py operation "operationId",
    strOf py operation "flowType", strOf py operation "stepType")

def isInvalidOperation (identities : List (String × String)) (operation : List (String × Json)) : Bool :=
  !identities.contains (strOf py operation "connectorId", strOf py operation "connectionName") ||
    strOf py operation "operationId" == "" || strOf py operation "flowType" == "" || strOf py operation "stepType" == "" ||
    !hasConfiguration operation

/-- The check of one entry of the environment, with the one `entry.to_wire()` makes. -/
def validateEntry (scopePath : String) (entry : String × EnvironmentValue) : Except Err Unit :=
  if !isApplicationEnvironmentName entry.1 then .error (.invalid "invalid application environment name")
  else if entry.2.value.isNone == entry.2.secretRef.isNone then
    .error (.invalid "environment value requires exactly one value or secret reference")
  else match entry.2.value, entry.2.secretRef with
    | some value, _ =>
      if validEnvironmentValue value then .ok () else .error (.invalid "invalid application environment value")
    | none, some reference => validateSecretReference scopePath entry.1 reference
    | none, none => .ok ()

def hasShared (configuration : Configuration) : Bool :=
  configuration.connections.any (fun entry => entry.sharedConnectionID != "")

/-- The checks of the entries, in order. -/
def validateEntries (connections : List ConnectionConfiguration) (triggers operations : List (List (String × Json))) :
    Except Err Unit :=
  if connections.length > 1000 || triggers.length > 10000 || operations.length > 10000 then
    .error (.invalid "configuration document exceeds binding limits")
  else if !(connections.map ConnectionConfiguration.identity).Nodup then .error (.invalid "duplicate project connection")
  else if connections.any ConnectionConfiguration.isInvalid then .error (.invalid "invalid project connection")
  else do
    validateEach (isInvalidTrigger py (connections.map ConnectionConfiguration.identity)) (triggerIdentity py)
      "configuration trigger is invalid or duplicated" [] triggers
    validateEach (isInvalidOperation py (connections.map ConnectionConfiguration.identity)) (operationIdentity py)
      "configuration operation is invalid or duplicated" [] operations

/-- The checks of shared connections. -/
def validateShared (configuration : Configuration) : Except Err Unit :=
  if hasShared configuration && configuration.credentialBroker.isNone then
    .error (.invalid "shared connection requires a credential broker")
  else if configuration.schemaVersion == previousConfigurationSchemaVersion && configuration.credentialBroker.isSome then
    .error (.invalid "previous configuration schema cannot declare a broker")
  else if configuration.connections.any (fun entry =>
      entry.sharedConnectionID != "" && !sharedConnectionIdentity entry.sharedConnectionID) then
    .error (.invalid "configuration shared connection ID is invalid")
  else .ok ()

def validateEnvironment (scopePath : String) (environment : Environment) : Except Err Unit :=
  if environment.entries.length > 128 then .error (.invalid "application environment exceeds field limit")
  else environment.entries.forM (validateEntry scopePath)

def validateBroker (scopePath : String) : Option CredentialBrokerConfiguration → Except Err Unit
  | none => .ok ()
  | some broker => do
    validateBrokerEndpoint py broker.endpoint
    validateSecretReference scopePath credentialBrokerTokenName broker.tokenSecretRef

/-- The checks of scope, schema and revision. -/
def validateIdentity (configuration : Configuration) : Except Err String :=
  match scopePrefix configuration.scope with
  | .error err => .error err
  | .ok scopePath =>
    if configuration.schemaVersion != configurationSchemaVersion &&
        configuration.schemaVersion != previousConfigurationSchemaVersion then
      .error (.invalid "unsupported configuration schema")
    else if configuration.revision < 1 then .error (.invalid "configuration revision is required")
    else .ok scopePath

def validate (configuration : Configuration) : Except Err Unit := do
  let scopePath ← validateIdentity configuration
  validateEntries py configuration.connections configuration.triggerBindings configuration.operationConfigurations
  validateShared configuration
  validateEnvironment scopePath configuration.environment
  validateBroker py scopePath configuration.credentialBroker

/-! ## The wire -/

/-- A connection as `to_wire` writes it. -/
structure ConnectionWire where
  connectorID        : String
  connectionName     : String
  modulePath         : String
  provider           : String
  authMethodID       : Option String
  sharedConnectionID : Option String
  configuration      : Json
  deriving DecidableEq

/-- A document as `to_wire` writes it. -/
structure ConfigurationWire where
  schemaVersion           : String
  scope                   : Scope
  revision                : Nat
  connections             : List ConnectionWire
  triggerBindings         : List (List (String × Json))
  operationConfigurations : List (List (String × Json))
  environment             : Option Environment
  credentialBroker        : Option CredentialBrokerConfiguration
  deriving DecidableEq

/-- A member that is left out when it is empty. -/
def omitEmpty (text : String) : Option String := if text = "" then none else some text

def ConnectionConfiguration.toWire (entry : ConnectionConfiguration) : ConnectionWire :=
  ⟨entry.connectorID, entry.connectionName, entry.modulePath, entry.provider, omitEmpty entry.authMethodID,
    omitEmpty entry.sharedConnectionID, entry.configuration⟩

def ConnectionWire.fromWire (wire : ConnectionWire) : Except Err ConnectionConfiguration :=
  if wire.configuration.isObject then
    .ok ⟨wire.connectorID, wire.connectionName, wire.modulePath, wire.provider, wire.configuration,
      wire.authMethodID.getD "", wire.sharedConnectionID.getD ""⟩
  else .error (.invalid "connection configuration must be a JSON object")

def toWire (configuration : Configuration) : Except Err ConfigurationWire := do
  validate py configuration
  return ⟨configuration.schemaVersion, configuration.scope, configuration.revision,
    configuration.connections.map ConnectionConfiguration.toWire, configuration.triggerBindings,
    configuration.operationConfigurations,
    if configuration.environment.entries = [] then none else some configuration.environment, configuration.credentialBroker⟩

/-- What `from_wire` asks of a reference, before the document is validated. -/
def referenceFromWire (reference : ApplicationSecretRef) : Except Err ApplicationSecretRef :=
  if reference.version == "" || !applicationSecretDigest reference.digest then
    .error (.invalid "invalid application secret reference")
  else .ok reference

def valueFromWire (value : EnvironmentValue) : Except Err EnvironmentValue :=
  match value.value, value.secretRef with
  | some _, none => .ok value
  | none, some reference => (referenceFromWire reference).map (fun _ => value)
  | _, _ => .error (.invalid "invalid environment selection")

def brokerFromWire : Option CredentialBrokerConfiguration → Except Err (Option CredentialBrokerConfiguration)
  | none => .ok none
  | some broker => (referenceFromWire broker.tokenSecretRef).map (fun _ => some broker)

def emptyEnvironment : Environment := ⟨[], Environment.sorted_nil⟩

def environmentFromWire (environment : Environment) : Except Err Environment :=
  (environment.entries.mapM (fun entry => valueFromWire entry.2)).map (fun _ => environment)

def checked (configuration : Configuration) : Except Err Configuration := (validate py configuration).map (fun _ => configuration)

def fromWire (wire : ConfigurationWire) : Except Err Configuration := do
  let _ ← scopePrefix wire.scope
  let connections ← wire.connections.mapM ConnectionWire.fromWire
  let environment ← environmentFromWire (wire.environment.getD emptyEnvironment)
  let credentialBroker ← brokerFromWire wire.credentialBroker
  checked py ⟨wire.scope, wire.revision, connections, wire.triggerBindings, wire.operationConfigurations, environment,
    credentialBroker, wire.schemaVersion⟩

/-! ## The store -/

structure ConfigurationStore where
  scope     : Scope
  scopePath : String
  valid     : scopePrefix scope = .ok scopePath

variable (store : ConfigurationStore)

/-- The contents part of `_decode`. -/
def decode (contents : ConfigurationWire) : Except Err Configuration :=
  match fromWire py contents with
  | .error err => .error err
  | .ok configuration =>
    if configuration.scope != store.scope then .error (.invalid "configuration document scope differs") else .ok configuration

def schemaVersionFor (configuration : Configuration) : String :=
  if configuration.credentialBroker.isNone && !hasShared configuration then previousConfigurationSchemaVersion
  else configurationSchemaVersion

def assigned (expectedRevision : Nat) (configuration : Configuration) : Configuration :=
  { configuration with
    scope := store.scope, revision := expectedRevision + 1, schemaVersion := schemaVersionFor configuration }

def assign (expectedRevision : Nat) (configuration : Configuration) : Except Err (Configuration × ConfigurationWire) :=
  (toWire py (assigned store expectedRevision configuration)).map (fun wire => (assigned store expectedRevision configuration, wire))

variable (sha256 : ConfigurationWire → String)

/-- **The Python configuration store.** -/
def dialect : Dialect Configuration Configuration ConfigurationWire where
  key := configurationKey store.scopePath
  refusesNull := false
  decode := decode py store
  revision := Configuration.revision
  assign := assign py store
  creates := fun _ found => !found
  digest := fun contents => "sha256:" ++ sha256 contents
  acceptsReference := fun reference =>
    reference.key == configurationKey store.scopePath && reference.version != "" && reference.version != "null" &&
      applicationSecretDigest reference.digest && reference.mediaType == "application/json"
  afterUnknown := fun err => err

/-! ## What is written is read back -/

theorem isObject_of_validateEntries {connections : List ConnectionConfiguration} {triggers operations : List (List (String × Json))}
    (h : validateEntries py connections triggers operations = .ok ()) :
    ∀ entry ∈ connections, entry.configuration.isObject = true := by
  unfold validateEntries at h
  split at h
  · cases h
  · split at h
    · cases h
    · split at h
      · cases h
      · rename_i hany
        intro entry hentry
        have hvalid : entry.isInvalid = false := by
          cases hi : entry.isInvalid with
          | false => rfl
          | true => exact absurd (List.any_eq_true.2 ⟨entry, hentry, hi⟩) hany
        simp only [ConnectionConfiguration.isInvalid, Bool.or_eq_false_iff, Bool.not_eq_false'] at hvalid
        exact hvalid.2

/-- What the reader relies on of a valid document. -/
theorem validate_ok {configuration : Configuration} (h : validate py configuration = .ok ()) :
    ∃ scopePath, scopePrefix configuration.scope = .ok scopePath ∧
      (∀ entry ∈ configuration.connections, entry.configuration.isObject = true) ∧
      (∀ entry ∈ configuration.environment.entries, validateEntry scopePath entry = .ok ()) ∧
      validateBroker py scopePath configuration.credentialBroker = .ok () := by
  obtain ⟨scopePath, hidentity, h⟩ := bind_eq_ok.1 h
  obtain ⟨_, hentries, h⟩ := bind_eq_ok.1 h
  obtain ⟨_, -, h⟩ := bind_eq_ok.1 h
  obtain ⟨_, henvironment, hbroker⟩ := bind_eq_ok.1 h
  refine ⟨scopePath, ?_, isObject_of_validateEntries py hentries, ?_, hbroker⟩
  · unfold validateIdentity at hidentity
    cases hscope : scopePrefix configuration.scope with
    | error err => rw [hscope] at hidentity; cases hidentity
    | ok path =>
      rw [hscope] at hidentity
      simp only at hidentity
      split at hidentity
      · cases hidentity
      · split at hidentity
        · cases hidentity
        · exact hidentity
  · unfold validateEnvironment at henvironment
    split at henvironment
    · cases henvironment
    · exact forM_eq_ok henvironment

theorem referenceFromWire_of_validate {scopePath name : String} {reference : ApplicationSecretRef}
    (h : validateSecretReference scopePath name reference = .ok ()) : referenceFromWire reference = .ok reference := by
  unfold validateSecretReference at h
  split at h
  · cases h
  · rename_i hbad
    simp only [Bool.or_eq_true, not_or, Bool.not_eq_true] at hbad
    unfold referenceFromWire
    rw [if_neg (by simp [hbad])]

theorem valueFromWire_of_validate {scopePath : String} {entry : String × EnvironmentValue}
    (h : validateEntry scopePath entry = .ok ()) : valueFromWire entry.2 = .ok entry.2 := by
  obtain ⟨name, value, secretRef⟩ := entry
  unfold validateEntry at h
  split at h
  · cases h
  · split at h
    · cases h
    · rename_i hone
      cases value with
      | some value =>
        cases secretRef with
        | some reference => exact absurd rfl hone
        | none => rfl
      | none =>
        cases secretRef with
        | none => exact absurd rfl hone
        | some reference =>
          show (referenceFromWire reference).map _ = _
          rw [referenceFromWire_of_validate h]
          rfl

theorem getD_omitEmpty (text : String) : (omitEmpty text).getD "" = text := by
  unfold omitEmpty
  split
  · rename_i h
    exact h.symm
  · rfl

/-- **A document that is written is read back.** -/
theorem fromWire_toWire {configuration : Configuration} {wire : ConfigurationWire} (h : toWire py configuration = .ok wire) :
    fromWire py wire = .ok configuration := by
  obtain ⟨_, hvalid, hwire⟩ := bind_eq_ok.1 h
  cases hwire
  obtain ⟨scopePath, hscope, hobjects, hentries, hbroker⟩ := validate_ok py hvalid
  have hconnections : (configuration.connections.map ConnectionConfiguration.toWire).mapM ConnectionWire.fromWire =
      .ok configuration.connections := by
    rw [List.mapM_map]
    have hone : ∀ entry ∈ configuration.connections, entry.toWire.fromWire = .ok (id entry) := by
      intro entry hentry
      unfold ConnectionConfiguration.toWire ConnectionWire.fromWire
      rw [if_pos (hobjects entry hentry), getD_omitEmpty, getD_omitEmpty]
      rfl
    have := mapM_eq_ok hone
    rwa [List.map_id] at this
  have henvironment : (if configuration.environment.entries = [] then none else some configuration.environment).getD
      emptyEnvironment = configuration.environment := by
    split
    · rename_i hempty
      generalize configuration.environment = environment at hempty
      obtain ⟨entries, sorted⟩ := environment
      cases hempty
      rfl
    · rfl
  have hread : environmentFromWire configuration.environment = .ok configuration.environment := by
    unfold environmentFromWire
    rw [mapM_eq_ok (fun entry hentry => valueFromWire_of_validate (hentries entry hentry))]
    rfl
  have hreadBroker : brokerFromWire configuration.credentialBroker = .ok configuration.credentialBroker := by
    cases hb : configuration.credentialBroker with
    | none => rfl
    | some broker =>
      rw [hb] at hbroker
      obtain ⟨_, -, href⟩ := bind_eq_ok.1 hbroker
      show (referenceFromWire broker.tokenSecretRef).map _ = _
      rw [referenceFromWire_of_validate href]
      rfl
  unfold fromWire
  simp only [hscope, hconnections, henvironment, hread, hreadBroker]
  show checked py configuration = .ok configuration
  unfold checked
  rw [hvalid]
  rfl

theorem sound (hdigests : ∀ contents, Wire.isDigest (sha256 contents) = true) :
    (dialect py store sha256).Sound (fun _ _ => True) Eq where
  stores := by
    intro r input doc contents _ h
    have hassign : ∃ wire, toWire py (assigned store r input) = .ok wire ∧ (assigned store r input, wire) = (doc, contents) := by
      cases hw : toWire py (assigned store r input) with
      | error err =>
        have : (dialect py store sha256).assign r input = .error err := by
          show (toWire py (assigned store r input)).map _ = _
          rw [hw]
          rfl
        rw [this] at h
        cases h
      | ok wire =>
        have : (dialect py store sha256).assign r input = .ok (assigned store r input, wire) := by
          show (toWire py (assigned store r input)).map _ = _
          rw [hw]
          rfl
        rw [this] at h
        exact ⟨wire, rfl, Except.ok.inj h⟩
    obtain ⟨wire, hwire, heq⟩ := hassign
    cases heq
    refine ⟨assigned store r input, ?_, rfl, rfl⟩
    show decode py store contents = _
    unfold decode
    rw [fromWire_toWire py hwire]
    simp [assigned]
  creates := fun r found h => .inl (by simpa [dialect] using h)
  replaces := fun r found h => .inl (by simpa [dialect] using h)
  unknown := fun _ h => h
  accepts := by
    intro contents id hid hnull
    obtain ⟨-, -, hdigest⟩ := digest_checks (hdigests contents)
    simp [dialect, hid, hnull, hdigest]

end Python
end ConfigStore
end Dex
