import Mathlib.Data.List.Nodup
import Mathlib.Data.String.Basic
/-!
# SchemaCompatibility — the connection contract of two releases (`schema/connection_compatibility.go`)

`ValidateConnectionCompatibility` lists the breaks between the manifest of a release and the one of a candidate.  A manifest
here has the members that the comparison reads; `Manifest.validates` is what `Manifest.Validate` (`schema/manifest.go`)
requires of them.

No breaks are found exactly when the contract is kept (`accepts_iff`): a relation on fields, methods and scopes.
-/
namespace Dex
namespace Schema

structure Field where
  name     : String
  type     : String
  required : Bool
  enum     : List String
  deriving DecidableEq, Repr

/-- A literal list, or the setting it is taken from. -/
structure ValueSource where
  list        : List String
  fromSetting : String
  deriving DecidableEq, Repr

structure OAuth2 where
  scopes     : ValueSource
  userScopes : List String
  deriving DecidableEq, Repr

structure ClientCredentialsGrant where
  scopes : List String
  deriving DecidableEq, Repr

structure JWTBearerGrant where
  scopes : List String
  deriving DecidableEq, Repr

structure ServiceAccount where
  jwtBearer : Option JWTBearerGrant
  deriving DecidableEq, Repr

structure AuthMethod where
  id                : String
  type              : String
  fields            : List Field
  configuration     : Option (List Field)
  oauth2            : Option OAuth2
  clientCredentials : Option ClientCredentialsGrant
  serviceAccount    : Option ServiceAccount
  deriving DecidableEq, Repr

structure Auth where
  type              : String
  fields            : List Field
  oauth2            : Option OAuth2
  clientCredentials : Option ClientCredentialsGrant
  serviceAccount    : Option ServiceAccount
  defaultMethod     : String
  methods           : List AuthMethod
  deriving DecidableEq, Repr

structure Manifest where
  configuration : List Field
  auth          : Auth
  deriving DecidableEq, Repr

/-! ## The comparison -/

/-- A `spec.auth` without methods as its one method, whose id is empty. -/
def Auth.singleMethod (auth : Auth) : AuthMethod :=
  ⟨"", auth.type, auth.fields, none, auth.oauth2, auth.clientCredentials, auth.serviceAccount⟩

/-- A map by name: the last of a name stands. -/
def fieldsByName (fields : List Field) (name : String) : Option Field := fields.reverse.find? (fun field => field.name == name)

/-- The sorted values of `expected` that `actual` lacks. -/
def missingStrings (expected actual : List String) : List String :=
  (expected.foldl (fun missing value =>
    if !actual.contains value && !missing.contains value then missing ++ [value] else missing) []).mergeSort (fun a b => decide (a ≤ b))

def hasSameStrings (left right : List String) : Bool :=
  (missingStrings left right).length == 0 && (missingStrings right left).length == 0

def text (b : Bool) : String := if b then "true" else "false"

def findFieldTypeBreaks (label : String) (released candidate : Field) : List String :=
  if released.type = candidate.type then []
  else [label ++ " " ++ released.name ++ " changes type from " ++ released.type ++ " to " ++ candidate.type]

/-- The breaks of one released credential field, against the candidate's field of its name. -/
def credentialFieldBreaks (label : String) (releasedField : Field) : Option Field → List String
  | none => [label ++ " credential field " ++ releasedField.name ++ " is removed"]
  | some candidateField =>
    findFieldTypeBreaks (label ++ " credential field") releasedField candidateField ++
    (if releasedField.required ≠ candidateField.required then
      [label ++ " credential field " ++ releasedField.name ++ " changes required from " ++ text releasedField.required ++
        " to " ++ text candidateField.required] else []) ++
    (if !hasSameStrings releasedField.enum candidateField.enum then
      [label ++ " credential field " ++ releasedField.name ++ " changes its enum values"] else [])

def findCredentialFieldBreaks (label : String) (released candidate : List Field) : List String :=
  released.flatMap (fun releasedField =>
    credentialFieldBreaks label releasedField (fieldsByName candidate releasedField.name)) ++
  candidate.flatMap (fun candidateField =>
    if (fieldsByName released candidateField.name).isNone then
      [label ++ " adds credential field " ++ candidateField.name] else [])

/-- The breaks of one released setting, against the candidate's setting of its name. -/
def settingBreaks (label : String) (releasedField : Field) : Option Field → List String
  | none => [label ++ " field " ++ releasedField.name ++ " is removed"]
  | some candidateField =>
    findFieldTypeBreaks (label ++ " field") releasedField candidateField ++
    (if !releasedField.required && candidateField.required then
      [label ++ " field " ++ releasedField.name ++ " becomes required"] else []) ++
    (let removed := missingStrings releasedField.enum candidateField.enum
     if removed.length > 0 then
      [label ++ " field " ++ releasedField.name ++ " removes enum values " ++ String.intercalate ", " removed] else [])

def findSettingBreaks (label : String) (released candidate : List Field) : List String :=
  released.flatMap (fun releasedField => settingBreaks label releasedField (fieldsByName candidate releasedField.name)) ++
  candidate.flatMap (fun candidateField =>
    if (fieldsByName released candidateField.name).isNone && candidateField.required then
      [label ++ " adds required field " ++ candidateField.name] else [])

def findScopeBreaks (label : String) (released candidate : List String) : List String :=
  (let added := missingStrings candidate released
   if added.length > 0 then [label ++ " add " ++ String.intercalate ", " added] else []) ++
  (let removed := missingStrings released candidate
   if removed.length > 0 then [label ++ " remove " ++ String.intercalate ", " removed] else [])

def findOAuthScopeBreaks (label : String) (released candidate : ValueSource) : List String :=
  if released.fromSetting ≠ "" ∧ candidate.fromSetting ≠ "" ∧ released.fromSetting ≠ candidate.fromSetting then
    [label ++ " change from setting " ++ released.fromSetting ++ " to setting " ++ candidate.fromSetting]
  else if released.fromSetting ≠ "" ∧ candidate.fromSetting = "" then
    [label ++ " change from setting " ++ released.fromSetting ++ " to a fixed list"]
  else if released.fromSetting = "" ∧ candidate.fromSetting ≠ "" then
    [label ++ " change from a fixed list to setting " ++ candidate.fromSetting]
  else findScopeBreaks label released.list candidate.list

def oauthScopes (oauth : Option OAuth2) : ValueSource := (oauth.map OAuth2.scopes).getD ⟨[], ""⟩

def oauthUserScopes (oauth : Option OAuth2) : List String := (oauth.map OAuth2.userScopes).getD []

def methodConfigurationFields (method : AuthMethod) : List Field := method.configuration.getD []

def jwtBearerGrant (method : AuthMethod) : Option JWTBearerGrant := method.serviceAccount.bind ServiceAccount.jwtBearer

structure ConnectionMethod where
  label  : String
  method : AuthMethod

def AuthMethod.clientCredentialsScopes (method : AuthMethod) : Option (List String) :=
  method.clientCredentials.map ClientCredentialsGrant.scopes

def AuthMethod.jwtBearerScopes (method : AuthMethod) : Option (List String) := (jwtBearerGrant method).map JWTBearerGrant.scopes

/-- The scopes of a grant are compared only where both releases declare the grant. -/
def findGrantScopeBreaks (label : String) : Option (List String) → Option (List String) → List String
  | some released, some candidate => findScopeBreaks label released candidate
  | _, _ => []

def findMethodBreaks (released candidate : ConnectionMethod) : List String :=
  (if released.method.type ≠ candidate.method.type then
    [released.label ++ " changes type from " ++ released.method.type ++ " to " ++ candidate.method.type] else []) ++
  findCredentialFieldBreaks released.label released.method.fields candidate.method.fields ++
  findOAuthScopeBreaks (released.label ++ " OAuth scopes") (oauthScopes released.method.oauth2)
    (oauthScopes candidate.method.oauth2) ++
  findScopeBreaks (released.label ++ " OAuth user scopes") (oauthUserScopes released.method.oauth2)
    (oauthUserScopes candidate.method.oauth2) ++
  findGrantScopeBreaks (released.label ++ " client credentials scopes") released.method.clientCredentialsScopes
    candidate.method.clientCredentialsScopes ++
  findGrantScopeBreaks (released.label ++ " JWT bearer scopes") released.method.jwtBearerScopes
    candidate.method.jwtBearerScopes ++
  findSettingBreaks (released.label ++ " configuration") (methodConfigurationFields released.method)
    (methodConfigurationFields candidate.method)

/-- The declared methods, or the single `spec.auth` method. -/
def connectionMethodsInOrder (auth : Auth) : List ConnectionMethod :=
  if auth.methods.length = 0 then [⟨"spec.auth", auth.singleMethod⟩]
  else auth.methods.map (fun method => ⟨"auth method " ++ method.id, method⟩)

def connectionMethodsByID (auth : Auth) (id : String) : Option ConnectionMethod :=
  (connectionMethodsInOrder auth).reverse.find? (fun method => method.method.id == id)

/-- A released method, and the candidate method that serves its connections unless it is removed. -/
structure ConnectionMethodPair where
  released  : ConnectionMethod
  candidate : Option ConnectionMethod

/-- A single released method is paired with the default method of a candidate with methods. -/
def pairConnectionMethod (released candidate : Auth) (releasedMethod : ConnectionMethod) : ConnectionMethodPair :=
  if released.methods.length = 0 ∧ candidate.methods.length > 0 then
    ⟨⟨"spec.auth, now auth method " ++ candidate.defaultMethod ++ ",", releasedMethod.method⟩,
      connectionMethodsByID candidate candidate.defaultMethod⟩
  else ⟨releasedMethod, connectionMethodsByID candidate releasedMethod.method.id⟩

def pairConnectionMethods (released candidate : Auth) : List ConnectionMethodPair :=
  (connectionMethodsInOrder released).map (pairConnectionMethod released candidate)

def findPairBreaks (pair : ConnectionMethodPair) : List String :=
  match pair.candidate with
  | none => [pair.released.label ++ " is removed"]
  | some candidateMethod => findMethodBreaks pair.released candidateMethod

def findAuthMethodBreaks (released candidate : Auth) : List String :=
  (if released.methods.length > 0 ∧ candidate.methods.length > 0 ∧ released.defaultMethod ≠ candidate.defaultMethod then
    ["spec.auth.defaultMethod changes from " ++ released.defaultMethod ++ " to " ++ candidate.defaultMethod ++
      ", which changes the method of credentials saved without one"] else []) ++
  (pairConnectionMethods released candidate).flatMap findPairBreaks

def validateConnectionCompatibility (released candidate : Manifest) : Except String Unit :=
  let breaks := findAuthMethodBreaks released.auth candidate.auth ++
    findSettingBreaks "spec.configuration" released.configuration candidate.configuration
  if breaks.length = 0 then .ok ()
  else .error ("connection contract changes: " ++ String.intercalate "; " breaks)

/-! ## Valid manifests -/

/-- The part of `validateFields` about names and enum values. -/
def validateFields (fields : List Field) : Bool :=
  decide (fields.map Field.name).Nodup && fields.all (fun field => !(field.type == "enum" && field.enum.isEmpty))

/-- The part of `validateAuthMethod` about fields. -/
def validateAuthMethod (method : AuthMethod) : Bool := validateFields method.fields && validateFields (methodConfigurationFields method)

/-- The part of `validateConfigurationFieldNames` about one method and `spec.configuration`. -/
def validateConfigurationFieldNames (configuration : List Field) (method : AuthMethod) : Bool :=
  (methodConfigurationFields method).all (fun field => !(configuration.map Field.name).contains field.name)

/-- **What `Validate` requires of the members that are compared**: an id that matches its pattern is not empty. -/
def Manifest.validates (manifest : Manifest) : Bool :=
  validateFields manifest.configuration &&
    if manifest.auth.methods.isEmpty then validateAuthMethod manifest.auth.singleMethod
    else manifest.auth.methods.all (fun method =>
        method.id != "" && validateAuthMethod method && validateConfigurationFieldNames manifest.configuration method) &&
      decide (manifest.auth.methods.map AuthMethod.id).Nodup &&
      (manifest.auth.methods.map AuthMethod.id).contains manifest.auth.defaultMethod


/-! ## The contract -/

def SameStrings (left right : List String) : Prop := ∀ value, value ∈ left ↔ value ∈ right

/-- **Exactly the same credential fields.** -/
structure CredentialFieldsKept (released candidate : List Field) : Prop where
  kept : ∀ field ∈ released, ∃ field', fieldsByName candidate field.name = some field' ∧ field.type = field'.type ∧
    field.required = field'.required ∧ SameStrings field.enum field'.enum
  declared : ∀ field' ∈ candidate, (fieldsByName released field'.name).isSome

/-- **Settings only gain optional fields and enum values.** -/
structure SettingsGrow (released candidate : List Field) : Prop where
  kept : ∀ field ∈ released, ∃ field', fieldsByName candidate field.name = some field' ∧ field.type = field'.type ∧
    (field'.required = true → field.required = true) ∧ ∀ value ∈ field.enum, value ∈ field'.enum
  declared : ∀ field' ∈ candidate, field'.required = true → (fieldsByName released field'.name).isSome

def ValueSourceKept (released candidate : ValueSource) : Prop :=
  released.fromSetting = candidate.fromSetting ∧ SameStrings released.list candidate.list

/-- The scopes of a grant, compared only where both sides declare the grant. -/
def GrantScopesKept (released candidate : Option (List String)) : Prop :=
  ∀ scopes ∈ released, ∀ scopes' ∈ candidate, SameStrings scopes scopes'

structure MethodKept (released candidate : AuthMethod) : Prop where
  type : released.type = candidate.type
  fields : CredentialFieldsKept released.fields candidate.fields
  scopes : ValueSourceKept (oauthScopes released.oauth2) (oauthScopes candidate.oauth2)
  userScopes : SameStrings (oauthUserScopes released.oauth2) (oauthUserScopes candidate.oauth2)
  clientCredentials : GrantScopesKept released.clientCredentialsScopes candidate.clientCredentialsScopes
  jwtBearer : GrantScopesKept released.jwtBearerScopes candidate.jwtBearerScopes
  configuration : SettingsGrow (methodConfigurationFields released) (methodConfigurationFields candidate)

/-- The methods of a `spec.auth`. -/
def Auth.connectionMethods (auth : Auth) : List AuthMethod := if auth.methods.length = 0 then [auth.singleMethod] else auth.methods

/-- The id under which a candidate serves the connections of a released method. -/
def servingID (released candidate : Auth) (method : AuthMethod) : String :=
  if released.methods.length = 0 ∧ candidate.methods.length > 0 then candidate.defaultMethod else method.id

/-- **The candidate method that serves the connections of a released method.** -/
def Serves (released candidate : Auth) (method method' : AuthMethod) : Prop :=
  method ∈ released.connectionMethods ∧
    candidate.connectionMethods.reverse.find? (fun m => m.id == servingID released candidate method) = some method'

structure ContractKept (released candidate : Manifest) : Prop where
  defaultMethod : released.auth.methods ≠ [] → candidate.auth.methods ≠ [] →
    released.auth.defaultMethod = candidate.auth.defaultMethod
  methods : ∀ method ∈ released.auth.connectionMethods, ∃ method', Serves released.auth candidate.auth method method' ∧
    MethodKept method method'
  configuration : SettingsGrow released.configuration candidate.configuration

/-! ## No breaks are found exactly when the contract is kept -/

/-- The last of a key stands: with distinct keys, the only one. -/
theorem find_reverse_eq_some {α : Type} {l : List α} {key : α → String} {k : String} {x : α}
    (h : l.reverse.find? (fun y => key y == k) = some x) : x ∈ l ∧ key x = k := by
  have hk := List.find?_some h
  exact ⟨List.mem_reverse.1 (List.mem_of_find?_eq_some h), eq_of_beq hk⟩

theorem find_reverse_of_mem {α : Type} {l : List α} {key : α → String} (hn : (l.map key).Nodup) {x : α} (hx : x ∈ l) :
    l.reverse.find? (fun y => key y == key x) = some x := by
  cases hf : l.reverse.find? (fun y => key y == key x) with
  | none =>
    have h := List.find?_eq_none.1 hf x (List.mem_reverse.2 hx)
    simp at h
  | some y =>
    obtain ⟨hy, hk⟩ := find_reverse_eq_some hf
    rw [List.inj_on_of_nodup_map hn hy hx hk]

theorem find_reverse_isSome {α : Type} {l : List α} {key : α → String} {k : String} :
    (l.reverse.find? (fun y => key y == k)).isSome ↔ ∃ x ∈ l, key x = k := by
  rw [List.find?_isSome]
  simp

theorem missing_foldl_eq_nil (actual : List String) : ∀ (expected missing : List String),
    expected.foldl (fun missing value =>
      if !actual.contains value && !missing.contains value then missing ++ [value] else missing) missing = [] ↔
      missing = [] ∧ ∀ value ∈ expected, value ∈ actual
  | [], missing => by simp
  | value :: expected, missing => by
    rw [List.foldl_cons, missing_foldl_eq_nil actual expected]
    by_cases ha : value ∈ actual
    · simp [ha]
    · by_cases hm : value ∈ missing
      · have hne : missing ≠ [] := List.ne_nil_of_mem hm
        simp [ha, hm, hne]
      · simp [ha, hm]

theorem missingStrings_length {expected actual : List String} :
    (missingStrings expected actual).length = 0 ↔ ∀ value ∈ expected, value ∈ actual := by
  unfold missingStrings
  rw [List.length_mergeSort, List.length_eq_zero_iff, missing_foldl_eq_nil]
  simp

theorem sameStrings_iff {left right : List String} :
    SameStrings left right ↔ (∀ value ∈ left, value ∈ right) ∧ ∀ value ∈ right, value ∈ left := by
  constructor
  · intro h
    exact ⟨fun value => (h value).1, fun value => (h value).2⟩
  · rintro ⟨hl, hr⟩ value
    exact ⟨hl value, hr value⟩

theorem hasSameStrings_iff {left right : List String} : hasSameStrings left right = true ↔ SameStrings left right := by
  unfold hasSameStrings
  rw [Bool.and_eq_true, beq_iff_eq, beq_iff_eq, missingStrings_length, missingStrings_length, sameStrings_iff]

theorem findScopeBreaks_nil {label : String} {released candidate : List String} :
    findScopeBreaks label released candidate = [] ↔ SameStrings released candidate := by
  unfold findScopeBreaks
  rw [sameStrings_iff, ← missingStrings_length, ← missingStrings_length]
  by_cases ha : (missingStrings candidate released).length = 0 <;> by_cases hr : (missingStrings released candidate).length = 0 <;>
    simp [ha, hr, Nat.pos_iff_ne_zero]

theorem findOAuthScopeBreaks_nil {label : String} {released candidate : ValueSource} :
    findOAuthScopeBreaks label released candidate = [] ↔ ValueSourceKept released candidate := by
  unfold findOAuthScopeBreaks ValueSourceKept
  by_cases hr : released.fromSetting = "" <;> by_cases hc : candidate.fromSetting = ""
  · simp [hr, hc, findScopeBreaks_nil]
  · simp [hr, hc, Ne.symm hc]
  · simp [hr, hc]
  · by_cases hs : released.fromSetting = candidate.fromSetting
    · simp [hc, hs, findScopeBreaks_nil]
    · simp [hr, hc, hs]

theorem findFieldTypeBreaks_nil {label : String} {released candidate : Field} :
    findFieldTypeBreaks label released candidate = [] ↔ released.type = candidate.type := by
  unfold findFieldTypeBreaks
  by_cases h : released.type = candidate.type <;> simp [h]

theorem credentialFieldBreaks_nil {label : String} {field : Field} {found : Option Field} :
    credentialFieldBreaks label field found = [] ↔ ∃ field', found = some field' ∧ field.type = field'.type ∧
      field.required = field'.required ∧ SameStrings field.enum field'.enum := by
  cases found with
  | none => simp [credentialFieldBreaks]
  | some field' => simp [credentialFieldBreaks, findFieldTypeBreaks_nil, ← hasSameStrings_iff]

theorem findCredentialFieldBreaks_nil {label : String} {released candidate : List Field} :
    findCredentialFieldBreaks label released candidate = [] ↔ CredentialFieldsKept released candidate := by
  unfold findCredentialFieldBreaks
  rw [List.append_eq_nil_iff, List.flatMap_eq_nil_iff, List.flatMap_eq_nil_iff]
  constructor
  · rintro ⟨hr, hc⟩
    refine ⟨fun field hf => credentialFieldBreaks_nil.1 (hr field hf), fun field hf => ?_⟩
    have h := hc field hf
    cases hn : fieldsByName released field.name with
    | none => simp [hn] at h
    | some field' => simp
  · rintro ⟨hr, hc⟩
    refine ⟨fun field hf => credentialFieldBreaks_nil.2 (hr field hf), fun field hf => ?_⟩
    obtain ⟨field', hn⟩ := Option.isSome_iff_exists.1 (hc field hf)
    simp [hn]

theorem settingBreaks_nil {label : String} {field : Field} {found : Option Field} :
    settingBreaks label field found = [] ↔ ∃ field', found = some field' ∧ field.type = field'.type ∧
      (field'.required = true → field.required = true) ∧ ∀ value ∈ field.enum, value ∈ field'.enum := by
  cases found with
  | none => simp [settingBreaks]
  | some field' =>
    have hreq : (field.required = false → field'.required = false) ↔ (field'.required = true → field.required = true) := by
      cases field.required <;> cases field'.required <;> simp
    simp [settingBreaks, findFieldTypeBreaks_nil, ← missingStrings_length, ← hreq]

theorem findSettingBreaks_nil {label : String} {released candidate : List Field} :
    findSettingBreaks label released candidate = [] ↔ SettingsGrow released candidate := by
  unfold findSettingBreaks
  rw [List.append_eq_nil_iff, List.flatMap_eq_nil_iff, List.flatMap_eq_nil_iff]
  constructor
  · rintro ⟨hr, hc⟩
    refine ⟨fun field hf => settingBreaks_nil.1 (hr field hf), fun field hf hreq => ?_⟩
    have h := hc field hf
    cases hn : fieldsByName released field.name with
    | none => simp [hn, hreq] at h
    | some field' => simp
  · rintro ⟨hr, hc⟩
    refine ⟨fun field hf => settingBreaks_nil.2 (hr field hf), fun field hf => ?_⟩
    by_cases hreq : field.required = true
    · obtain ⟨field', hn⟩ := Option.isSome_iff_exists.1 (hc field hf hreq)
      simp [hn]
    · simp [hreq]

theorem findGrantScopeBreaks_nil {label : String} {released candidate : Option (List String)} :
    findGrantScopeBreaks label released candidate = [] ↔ GrantScopesKept released candidate := by
  cases released <;> cases candidate <;> simp [findGrantScopeBreaks, GrantScopesKept, findScopeBreaks_nil]

theorem findMethodBreaks_nil {released candidate : ConnectionMethod} :
    findMethodBreaks released candidate = [] ↔ MethodKept released.method candidate.method := by
  have htype : ∀ {breaks : List String}, breaks ≠ [] →
      ((if released.method.type ≠ candidate.method.type then breaks else []) = [] ↔
        released.method.type = candidate.method.type) := by
    intro breaks hb
    by_cases h : released.method.type = candidate.method.type <;> simp [h, hb]
  unfold findMethodBreaks
  rw [List.append_eq_nil_iff, List.append_eq_nil_iff, List.append_eq_nil_iff, List.append_eq_nil_iff, List.append_eq_nil_iff,
    List.append_eq_nil_iff, findCredentialFieldBreaks_nil, findOAuthScopeBreaks_nil, findScopeBreaks_nil,
    findGrantScopeBreaks_nil, findGrantScopeBreaks_nil, findSettingBreaks_nil, htype (by simp)]
  constructor
  · rintro ⟨⟨⟨⟨⟨⟨ht, hf⟩, hs⟩, hu⟩, hc⟩, hj⟩, hg⟩
    exact ⟨ht, hf, hs, hu, hc, hj, hg⟩
  · rintro ⟨ht, hf, hs, hu, hc, hj, hg⟩
    exact ⟨⟨⟨⟨⟨⟨ht, hf⟩, hs⟩, hu⟩, hc⟩, hj⟩, hg⟩

theorem connectionMethodsInOrder_methods (auth : Auth) :
    (connectionMethodsInOrder auth).map ConnectionMethod.method = auth.connectionMethods := by
  unfold connectionMethodsInOrder Auth.connectionMethods
  by_cases h : auth.methods.length = 0
  · rw [if_pos h, if_pos h]
    simp
  · rw [if_neg h, if_neg h, List.map_map]
    simp [Function.comp_def]

theorem connectionMethodsByID_method (auth : Auth) (id : String) :
    (connectionMethodsByID auth id).map ConnectionMethod.method = auth.connectionMethods.reverse.find? (fun m => m.id == id) := by
  unfold connectionMethodsByID
  rw [← connectionMethodsInOrder_methods, ← List.map_reverse, List.find?_map]
  rfl

theorem findPairBreaks_nil {pair : ConnectionMethodPair} : findPairBreaks pair = [] ↔
    ∃ method', pair.candidate.map ConnectionMethod.method = some method' ∧ MethodKept pair.released.method method' := by
  obtain ⟨released, candidate⟩ := pair
  cases candidate with
  | none => simp [findPairBreaks]
  | some candidate => simp [findPairBreaks, findMethodBreaks_nil]

theorem pairConnectionMethod_released (released candidate : Auth) (cm : ConnectionMethod) :
    (pairConnectionMethod released candidate cm).released.method = cm.method := by
  unfold pairConnectionMethod
  split <;> rfl

theorem pairConnectionMethod_candidate (released candidate : Auth) (cm : ConnectionMethod) :
    (pairConnectionMethod released candidate cm).candidate.map ConnectionMethod.method =
      candidate.connectionMethods.reverse.find? (fun m => m.id == servingID released candidate cm.method) := by
  unfold pairConnectionMethod servingID
  by_cases h : released.methods.length = 0 ∧ candidate.methods.length > 0
  · rw [if_pos h, if_pos h]
    exact connectionMethodsByID_method candidate candidate.defaultMethod
  · rw [if_neg h, if_neg h]
    exact connectionMethodsByID_method candidate cm.method.id

theorem findAuthMethodBreaks_nil {released candidate : Auth} :
    findAuthMethodBreaks released candidate = [] ↔
      (released.methods ≠ [] → candidate.methods ≠ [] → released.defaultMethod = candidate.defaultMethod) ∧
      ∀ method ∈ released.connectionMethods, ∃ method', Serves released candidate method method' ∧ MethodKept method method' := by
  unfold findAuthMethodBreaks pairConnectionMethods
  rw [List.append_eq_nil_iff, List.flatMap_eq_nil_iff, List.forall_mem_map, ← connectionMethodsInOrder_methods,
    List.forall_mem_map]
  apply and_congr
  · by_cases hr : released.methods = []
    · simp [hr]
    · by_cases hc : candidate.methods = []
      · simp [hc]
      · by_cases hd : released.defaultMethod = candidate.defaultMethod <;>
          simp [hr, hc, hd, List.length_pos_iff]
  · apply forall₂_congr
    intro cm hcm
    rw [findPairBreaks_nil, pairConnectionMethod_released, pairConnectionMethod_candidate]
    have hmem : cm.method ∈ released.connectionMethods := by
      rw [← connectionMethodsInOrder_methods]
      exact List.mem_map_of_mem hcm
    simp [Serves, hmem]

/-- **A candidate is accepted exactly when it keeps the contract.** -/
theorem accepts_iff {released candidate : Manifest} :
    validateConnectionCompatibility released candidate = .ok () ↔ ContractKept released candidate := by
  have hok : validateConnectionCompatibility released candidate = .ok () ↔
      findAuthMethodBreaks released.auth candidate.auth ++
        findSettingBreaks "spec.configuration" released.configuration candidate.configuration = [] := by
    unfold validateConnectionCompatibility
    rw [← List.length_eq_zero_iff]
    dsimp only
    split <;> simp_all
  rw [hok, List.append_eq_nil_iff, findAuthMethodBreaks_nil, findSettingBreaks_nil]
  constructor
  · rintro ⟨⟨hd, hm⟩, hc⟩
    exact ⟨hd, hm, hc⟩
  · rintro ⟨hd, hm, hc⟩
    exact ⟨⟨hd, hm⟩, hc⟩

/-! ## Valid manifests -/

theorem validateFields_nodup {fields : List Field} (h : validateFields fields = true) : (fields.map Field.name).Nodup := by
  unfold validateFields at h
  rw [Bool.and_eq_true] at h
  exact of_decide_eq_true h.1

/-- What the comparison relies on: distinct names, distinct ids, a declared default method. -/
structure WellFormed (manifest : Manifest) : Prop where
  configuration : (manifest.configuration.map Field.name).Nodup
  fields : ∀ method ∈ manifest.auth.connectionMethods, (method.fields.map Field.name).Nodup
  settings : ∀ method ∈ manifest.auth.connectionMethods,
    ((manifest.configuration ++ methodConfigurationFields method).map Field.name).Nodup
  ids : (manifest.auth.connectionMethods.map AuthMethod.id).Nodup
  id_ne : manifest.auth.methods ≠ [] → ∀ method ∈ manifest.auth.methods, method.id ≠ ""
  declared : manifest.auth.methods ≠ [] → ∃ method ∈ manifest.auth.methods, method.id = manifest.auth.defaultMethod

theorem wellFormed_of_validates {manifest : Manifest} (h : manifest.validates = true) : WellFormed manifest := by
  unfold Manifest.validates at h
  rw [Bool.and_eq_true] at h
  obtain ⟨hc, h⟩ := h
  have hconf := validateFields_nodup hc
  by_cases hm : manifest.auth.methods = []
  · have hcm : manifest.auth.connectionMethods = [manifest.auth.singleMethod] := by
      simp [Auth.connectionMethods, hm]
    simp only [hm, List.isEmpty_nil, if_true, validateAuthMethod, Bool.and_eq_true] at h
    have hsingle := validateFields_nodup h.1
    constructor
    · exact hconf
    · simpa [hcm] using hsingle
    · simpa [hcm, methodConfigurationFields, Auth.singleMethod] using hconf
    · simp [hcm]
    · exact fun hne => absurd hm hne
    · exact fun hne => absurd hm hne
  · have hcm : manifest.auth.connectionMethods = manifest.auth.methods := by
      simp [Auth.connectionMethods, hm]
    simp only [List.isEmpty_iff, hm, if_false, Bool.and_eq_true, List.all_eq_true, validateAuthMethod,
      validateConfigurationFieldNames, decide_eq_true_eq, List.mem_map, bne_iff_ne,
      Bool.not_eq_true', List.contains_eq_mem, decide_eq_false_iff_not] at h
    obtain ⟨⟨hall, hids⟩, hdef⟩ := h
    constructor
    · exact hconf
    · intro method hmem
      rw [hcm] at hmem
      exact validateFields_nodup (hall method hmem).1.2.1
    · intro method hmem
      rw [hcm] at hmem
      rw [List.map_append]
      refine List.Nodup.append hconf (validateFields_nodup (hall method hmem).1.2.2) ?_
      intro name hn hn'
      obtain ⟨field, hf, rfl⟩ := List.mem_map.1 hn'
      exact (hall method hmem).2 field hf (List.mem_map.1 hn)
    · rw [hcm]
      exact hids
    · exact fun _ method hmem => (hall method hmem).1.1
    · exact fun _ => hdef

end Schema
end Dex
