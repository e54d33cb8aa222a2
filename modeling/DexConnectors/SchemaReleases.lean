import DexConnectors.SchemaCompatibility
/-!
# SchemaReleases — connections along releases (`schema/connection_compatibility.go`)

What acceptance of a candidate means for the connections made with a release.  Two accepted steps make one, apart from the
scopes of a grant that the release between does not declare: the comparison skips a grant that one side lacks
(`contract_composes`).  What a connection stores, its credential object and its settings object, stays valid
(`connections_kept`).
-/
namespace Dex
namespace Schema

/-! ## One step after another -/

theorem SameStrings.refl (l : List String) : SameStrings l l := fun _ => Iff.rfl

theorem SameStrings.trans {a b c : List String} (h : SameStrings a b) (h' : SameStrings b c) : SameStrings a c :=
  fun value => (h value).trans (h' value)

theorem fieldsByName_mem {fields : List Field} {name : String} {field : Field} (h : fieldsByName fields name = some field) :
    field ∈ fields ∧ field.name = name := find_reverse_eq_some h

theorem fieldsByName_of_mem {fields : List Field} (hn : (fields.map Field.name).Nodup) {field : Field}
    (h : field ∈ fields) : fieldsByName fields field.name = some field := find_reverse_of_mem hn h

theorem CredentialFieldsKept.refl {fields : List Field} (hn : (fields.map Field.name).Nodup) :
    CredentialFieldsKept fields fields := by
  constructor
  · intro field hf
    exact ⟨field, fieldsByName_of_mem hn hf, rfl, rfl, SameStrings.refl _⟩
  · intro field hf
    rw [fieldsByName_of_mem hn hf]
    rfl

theorem CredentialFieldsKept.trans {a b c : List Field} (h : CredentialFieldsKept a b) (h' : CredentialFieldsKept b c) :
    CredentialFieldsKept a c := by
  constructor
  · intro field hf
    obtain ⟨field', hb, ht, hr, he⟩ := h.kept field hf
    obtain ⟨hmem, hname⟩ := fieldsByName_mem hb
    obtain ⟨field'', hc, ht', hr', he'⟩ := h'.kept field' hmem
    rw [hname] at hc
    exact ⟨field'', hc, ht.trans ht', hr.trans hr', he.trans he'⟩
  · intro field'' hf
    obtain ⟨field', hb⟩ := Option.isSome_iff_exists.1 (h'.declared field'' hf)
    obtain ⟨hmem, hname⟩ := fieldsByName_mem hb
    rw [← hname]
    exact h.declared field' hmem

theorem SettingsGrow.refl {fields : List Field} (hn : (fields.map Field.name).Nodup) : SettingsGrow fields fields := by
  constructor
  · intro field hf
    exact ⟨field, fieldsByName_of_mem hn hf, rfl, id, fun _ => id⟩
  · intro field hf _
    rw [fieldsByName_of_mem hn hf]
    rfl

theorem SettingsGrow.trans {a b c : List Field} (hn : (c.map Field.name).Nodup) (h : SettingsGrow a b)
    (h' : SettingsGrow b c) : SettingsGrow a c := by
  constructor
  · intro field hf
    obtain ⟨field', hb, ht, hr, he⟩ := h.kept field hf
    obtain ⟨hmem, hname⟩ := fieldsByName_mem hb
    obtain ⟨field'', hc, ht', hr', he'⟩ := h'.kept field' hmem
    rw [hname] at hc
    exact ⟨field'', hc, ht.trans ht', hr ∘ hr', fun value hv => he' value (he value hv)⟩
  · intro field'' hf hreq
    obtain ⟨field', hb⟩ := Option.isSome_iff_exists.1 (h'.declared field'' hf hreq)
    obtain ⟨hmem, hname⟩ := fieldsByName_mem hb
    -- a required field of the last release was required before
    obtain ⟨g, hg, -, hr, -⟩ := h'.kept field' hmem
    rw [hname, fieldsByName_of_mem hn hf, Option.some_inj] at hg
    subst hg
    rw [← hname]
    exact h.declared field' hmem (hr hreq)

theorem ValueSourceKept.trans {a b c : ValueSource} (h : ValueSourceKept a b) (h' : ValueSourceKept b c) :
    ValueSourceKept a c := ⟨h.1.trans h'.1, h.2.trans h'.2⟩

theorem GrantScopesKept.refl (scopes : Option (List String)) : GrantScopesKept scopes scopes := by
  intro a ha b hb
  rw [Option.mem_def] at ha hb
  rw [ha, Option.some_inj] at hb
  rw [hb]
  exact SameStrings.refl b

/-- A grant is compared across a release between that declares it. -/
theorem GrantScopesKept.trans {a b c : Option (List String)} (hskip : b = none → GrantScopesKept a c)
    (h : GrantScopesKept a b) (h' : GrantScopesKept b c) : GrantScopesKept a c := by
  cases b with
  | none => exact hskip rfl
  | some scopes => exact fun x hx y hy => (h x hx scopes rfl).trans (h' scopes rfl y hy)

theorem connectionMethods_single {auth : Auth} (h : auth.methods = []) : auth.connectionMethods = [auth.singleMethod] := by
  simp [Auth.connectionMethods, h]

theorem connectionMethods_multi {auth : Auth} (h : auth.methods ≠ []) : auth.connectionMethods = auth.methods := by
  simp [Auth.connectionMethods, h]

theorem servingID_single {released candidate : Auth} {method : AuthMethod} (hr : released.methods = [])
    (hc : candidate.methods ≠ []) : servingID released candidate method = candidate.defaultMethod := by
  simp [servingID, hr, List.length_pos_iff.2 hc]

theorem servingID_multi {released candidate : Auth} {method : AuthMethod} (hr : released.methods ≠ []) :
    servingID released candidate method = method.id := by
  simp [servingID, hr]

theorem servingID_kept {released candidate : Auth} {method : AuthMethod} (hc : candidate.methods = []) :
    servingID released candidate method = method.id := by
  simp [servingID, hc]

theorem Serves.mem {released candidate : Auth} {method method' : AuthMethod} (h : Serves released candidate method method') :
    method' ∈ candidate.connectionMethods ∧ method'.id = servingID released candidate method := find_reverse_eq_some h.2

theorem Serves.unique {released candidate : Auth} {method m m' : AuthMethod} (h : Serves released candidate method m)
    (h' : Serves released candidate method m') : m = m' := by
  have he := h.2.symm.trans h'.2
  exact Option.some_inj.1 he

theorem Serves.refl {manifest : Manifest} (hw : WellFormed manifest) {method : AuthMethod}
    (hm : method ∈ manifest.auth.connectionMethods) : Serves manifest.auth manifest.auth method method := by
  have hid : servingID manifest.auth manifest.auth method = method.id := by
    by_cases h : manifest.auth.methods = []
    · exact servingID_kept h
    · exact servingID_multi h
  refine ⟨hm, ?_⟩
  rw [hid]
  exact find_reverse_of_mem hw.ids hm

/-- The methods of a candidate of a release with methods are declared by id. -/
theorem Serves.multi {released candidate : Manifest} (hw : WellFormed released) {method method' : AuthMethod}
    (h : Serves released.auth candidate.auth method method') (hr : released.auth.methods ≠ []) : candidate.auth.methods ≠ [] := by
  intro hc
  obtain ⟨hmem, hid⟩ := h.mem
  rw [connectionMethods_single hc, List.mem_singleton] at hmem
  rw [servingID_multi hr, hmem] at hid
  have hm := h.1
  rw [connectionMethods_multi hr] at hm
  exact hw.id_ne hr method hm hid.symm

theorem Serves.trans {r s t : Manifest} (hr : WellFormed r) (hs : WellFormed s) (hst : ContractKept s t)
    {m m' m'' : AuthMethod} (h : Serves r.auth s.auth m m') (h' : Serves s.auth t.auth m' m'') : Serves r.auth t.auth m m'' := by
  refine ⟨h.1, ?_⟩
  have hid : servingID r.auth t.auth m = servingID s.auth t.auth m' := by
    have hm' := h.mem.2
    by_cases hrm : r.auth.methods = []
    · by_cases hsm : s.auth.methods = []
      · rw [servingID_kept hsm] at hm'
        by_cases htm : t.auth.methods = []
        · rw [servingID_kept htm, servingID_kept htm, hm']
        · rw [servingID_single hrm htm, servingID_single hsm htm]
      · have htm := h'.multi hs hsm
        rw [servingID_single hrm hsm] at hm'
        rw [servingID_single hrm htm, servingID_multi hsm, hm', hst.defaultMethod hsm htm]
    · have hsm := h.multi hr hrm
      rw [servingID_multi hrm] at hm'
      rw [servingID_multi hrm, servingID_multi hsm, hm']
  rw [hid]
  exact h'.2

theorem WellFormed.configurationNames {manifest : Manifest} (hw : WellFormed manifest) {method : AuthMethod}
    (hm : method ∈ manifest.auth.connectionMethods) : ((methodConfigurationFields method).map Field.name).Nodup := by
  have h := hw.settings method hm
  rw [List.map_append] at h
  exact h.of_append_right

theorem ContractKept.refl {manifest : Manifest} (hw : WellFormed manifest) : ContractKept manifest manifest := by
  constructor
  · exact fun _ _ => rfl
  · intro method hm
    refine ⟨method, Serves.refl hw hm, ?_⟩
    constructor
    · rfl
    · exact CredentialFieldsKept.refl (hw.fields method hm)
    · exact ⟨rfl, SameStrings.refl _⟩
    · exact SameStrings.refl _
    · exact GrantScopesKept.refl _
    · exact GrantScopesKept.refl _
    · exact SettingsGrow.refl (hw.configurationNames hm)
  · exact SettingsGrow.refl hw.configuration

/-- The scopes of the grants that a release between does not declare. -/
def SkippedGrantsKept (released between candidate : AuthMethod) : Prop :=
  (between.clientCredentialsScopes = none →
    GrantScopesKept released.clientCredentialsScopes candidate.clientCredentialsScopes) ∧
  (between.jwtBearerScopes = none → GrantScopesKept released.jwtBearerScopes candidate.jwtBearerScopes)

theorem MethodKept.trans {t : Manifest} (ht : WellFormed t) {m m' m'' : AuthMethod} (hm'' : m'' ∈ t.auth.connectionMethods)
    (hskip : SkippedGrantsKept m m' m'') (h : MethodKept m m') (h' : MethodKept m' m'') : MethodKept m m'' where
  type := h.type.trans h'.type
  fields := h.fields.trans h'.fields
  scopes := h.scopes.trans h'.scopes
  userScopes := h.userScopes.trans h'.userScopes
  clientCredentials := GrantScopesKept.trans hskip.1 h.clientCredentials h'.clientCredentials
  jwtBearer := GrantScopesKept.trans hskip.2 h.jwtBearer h'.jwtBearer
  configuration := SettingsGrow.trans (ht.configurationNames hm'') h.configuration h'.configuration

theorem ContractKept.trans {r s t : Manifest} (hr : WellFormed r) (hs : WellFormed s) (ht : WellFormed t)
    (h : ContractKept r s) (h' : ContractKept s t)
    (hskip : ∀ m m' m'', Serves r.auth s.auth m m' → Serves s.auth t.auth m' m'' → SkippedGrantsKept m m' m'') :
    ContractKept r t := by
  constructor
  · intro hrm htm
    obtain ⟨method, hmem⟩ := List.exists_mem_of_ne_nil _ hrm
    rw [← connectionMethods_multi hrm] at hmem
    obtain ⟨method', hserves, -⟩ := h.methods method hmem
    have hsm := hserves.multi hr hrm
    exact (h.defaultMethod hrm hsm).trans (h'.defaultMethod hsm htm)
  · intro m hm
    obtain ⟨m', hserves, hkept⟩ := h.methods m hm
    obtain ⟨m'', hserves', hkept'⟩ := h'.methods m' hserves.mem.1
    exact ⟨m'', hserves.trans hr hs h' hserves',
      hkept.trans ht hserves'.mem.1 (hskip m m' m'' hserves hserves') hkept'⟩
  · exact h.configuration.trans ht.configuration h'.configuration

/-- **Releases compose, apart from skipped grants**: a candidate that keeps the contract of a release that kept the
contract of an earlier one keeps that one's too, exactly when it keeps the scopes of every client credentials or JWT
bearer grant that the release between does not declare. -/
theorem contract_composes (r s t : Manifest) (hr : r.validates = true) (hs : s.validates = true) (ht : t.validates = true) :
    validateConnectionCompatibility r r = .ok () ∧
    (validateConnectionCompatibility r s = .ok () → validateConnectionCompatibility s t = .ok () →
      (validateConnectionCompatibility r t = .ok () ↔
        ∀ m m' m'', Serves r.auth s.auth m m' → Serves s.auth t.auth m' m'' → SkippedGrantsKept m m' m'')) := by
  have hwr := wellFormed_of_validates hr
  have hws := wellFormed_of_validates hs
  have hwt := wellFormed_of_validates ht
  rw [accepts_iff, accepts_iff, accepts_iff, accepts_iff]
  refine ⟨ContractKept.refl hwr, fun h h' => ⟨fun hrt => ?_, fun hskip => h.trans hwr hws hwt h' hskip⟩⟩
  intro m m' m'' hserves hserves'
  obtain ⟨n, hn, hkept⟩ := hrt.methods m hserves.1
  rw [hn.unique (hserves.trans hwr hws h' hserves')] at hkept
  exact ⟨fun _ => hkept.clientCredentials, fun _ => hkept.jwtBearer⟩

/-- An API key connection with a client credentials grant for these scopes, or none. -/
def mintingManifest (scopes : Option (List String)) : Manifest where
  configuration := []
  auth :=
    { type := "apiKey"
      fields := [⟨"access_token", "secretString", true, []⟩, ⟨"client_id", "string", true, []⟩,
        ⟨"client_secret", "secretString", true, []⟩]
      oauth2 := none
      clientCredentials := scopes.map (fun list => ⟨list⟩)
      serviceAccount := none
      defaultMethod := ""
      methods := [] }

theorem contract_composes_minting :
    validateConnectionCompatibility (mintingManifest (some ["read"])) (mintingManifest (some ["read"])) = .ok () ∧
    ∀ m m' m'', Serves (mintingManifest (some ["read"])).auth (mintingManifest none).auth m m' →
      Serves (mintingManifest none).auth (mintingManifest (some ["read"])).auth m' m'' → SkippedGrantsKept m m' m'' := by
  have h := contract_composes (mintingManifest (some ["read"])) (mintingManifest none) (mintingManifest (some ["read"]))
    (by decide +kernel) (by decide +kernel) (by decide +kernel)
  exact ⟨h.1, (h.2 (by decide +kernel) (by decide +kernel)).1 (by decide +kernel)⟩

/-- A grant that a release does not declare comes back with other scopes. -/
theorem scopes_change_after_gap : ¬ ∀ r s t : Manifest, r.validates = true → s.validates = true → t.validates = true →
    validateConnectionCompatibility r r = .ok () ∧ (validateConnectionCompatibility r s = .ok () →
      validateConnectionCompatibility s t = .ok () → validateConnectionCompatibility r t = .ok ()) := by
  intro h
  have hrt : validateConnectionCompatibility (mintingManifest (some ["read"])) (mintingManifest (some ["write"])) =
      .error ("connection contract changes: spec.auth client credentials scopes add write; " ++
        "spec.auth client credentials scopes remove read") := by decide +kernel
  have hok := (h (mintingManifest (some ["read"])) (mintingManifest none) (mintingManifest (some ["write"]))
    (by decide +kernel) (by decide +kernel) (by decide +kernel)).2 (by decide +kernel) (by decide +kernel)
  rw [hrt] at hok
  cases hok

/-! ## What a connection stores -/

section Objects

variable {V : Type} (hasType : String → V → Prop) (textOf : V → Option String)

/-- **An object of declared fields only**, each of its type, the required ones present, an enum's text among its values. -/
structure Conforms (fields : List Field) (object : String → Option V) : Prop where
  declared : ∀ name, (object name).isSome → ∃ field ∈ fields, field.name = name
  typed : ∀ field ∈ fields, ∀ value ∈ object field.name, hasType field.type value
  required : ∀ field ∈ fields, field.required = true → (object field.name).isSome
  enum : ∀ field ∈ fields, field.type = "enum" → ∀ value ∈ object field.name, ∃ text ∈ field.enum, textOf value = some text

variable {hasType textOf}

/-- With distinct names, the candidate's field of a released name is the one it declares. -/
theorem CredentialFieldsKept.back {released candidate : List Field} (hn : (candidate.map Field.name).Nodup)
    (h : CredentialFieldsKept released candidate) {field' : Field} (hf : field' ∈ candidate) :
    ∃ field ∈ released, field.name = field'.name ∧ field.type = field'.type ∧ field.required = field'.required ∧
      SameStrings field.enum field'.enum := by
  obtain ⟨field, hr⟩ := Option.isSome_iff_exists.1 (h.declared field' hf)
  obtain ⟨hmem, hname⟩ := fieldsByName_mem hr
  obtain ⟨g, hg, ht, hreq, he⟩ := h.kept field hmem
  rw [hname, fieldsByName_of_mem hn hf, Option.some_inj] at hg
  subst hg
  exact ⟨field, hmem, hname, ht, hreq, he⟩

theorem CredentialFieldsKept.conforms {released candidate : List Field} (hn : (candidate.map Field.name).Nodup)
    (h : CredentialFieldsKept released candidate) {object : String → Option V}
    (hobject : Conforms hasType textOf released object) : Conforms hasType textOf candidate object := by
  constructor
  · intro name hsome
    obtain ⟨field, hf, rfl⟩ := hobject.declared name hsome
    obtain ⟨field', hc, -⟩ := h.kept field hf
    exact ⟨field', fieldsByName_mem hc⟩
  · intro field' hf value hv
    obtain ⟨field, hmem, hname, ht, -⟩ := h.back hn hf
    rw [← ht]
    exact hobject.typed field hmem value (hname ▸ hv)
  · intro field' hf hreq
    obtain ⟨field, hmem, hname, -, hr, -⟩ := h.back hn hf
    rw [← hname]
    exact hobject.required field hmem (hr.trans hreq)
  · intro field' hf he value hv
    obtain ⟨field, hmem, hname, ht, -, hs⟩ := h.back hn hf
    obtain ⟨text, htext, hvalue⟩ := hobject.enum field hmem (ht.trans he) value (hname ▸ hv)
    exact ⟨text, (hs text).1 htext, hvalue⟩

theorem SettingsGrow.append {a b a' b' : List Field} (hn : ((a' ++ b').map Field.name).Nodup)
    (h : SettingsGrow a a') (h' : SettingsGrow b b') : SettingsGrow (a ++ b) (a' ++ b') := by
  have hfind : ∀ {field : Field}, field ∈ a' ++ b' → fieldsByName (a' ++ b') field.name = some field :=
    fun hf => fieldsByName_of_mem hn hf
  have hleft : ∀ {c d : List Field} {name : String}, (fieldsByName c name).isSome ∨ (fieldsByName d name).isSome →
      (fieldsByName (c ++ d) name).isSome := by
    intro c d name hs
    unfold fieldsByName at hs ⊢
    rw [find_reverse_isSome, find_reverse_isSome] at hs
    rw [find_reverse_isSome]
    obtain ⟨field, hf, hname⟩ | ⟨field, hf, hname⟩ := hs
    · exact ⟨field, List.mem_append_left d hf, hname⟩
    · exact ⟨field, List.mem_append_right c hf, hname⟩
  constructor
  · intro field hf
    obtain hf | hf := List.mem_append.1 hf
    · obtain ⟨field', hc, hrest⟩ := h.kept field hf
      obtain ⟨hmem, hname⟩ := fieldsByName_mem hc
      exact ⟨field', hname ▸ hfind (List.mem_append_left b' hmem), hrest⟩
    · obtain ⟨field', hc, hrest⟩ := h'.kept field hf
      obtain ⟨hmem, hname⟩ := fieldsByName_mem hc
      exact ⟨field', hname ▸ hfind (List.mem_append_right a' hmem), hrest⟩
  · intro field' hf hreq
    obtain hf | hf := List.mem_append.1 hf
    · exact hleft (.inl (h.declared field' hf hreq))
    · exact hleft (.inr (h'.declared field' hf hreq))

/-- A setting of the candidate is a released one with at least its enum values, or an optional one the release lacks. -/
theorem SettingsGrow.back {released candidate : List Field} (hn : (candidate.map Field.name).Nodup)
    (h : SettingsGrow released candidate) {field' : Field} (hf : field' ∈ candidate) :
    (∃ field ∈ released, field.name = field'.name ∧ field.type = field'.type ∧
      (field'.required = true → field.required = true) ∧ ∀ value ∈ field.enum, value ∈ field'.enum) ∨
    (field'.required = false ∧ ∀ field ∈ released, field.name ≠ field'.name) := by
  by_cases hr : ∃ field ∈ released, field.name = field'.name
  · obtain ⟨field, hmem, hname⟩ := hr
    obtain ⟨g, hg, hrest⟩ := h.kept field hmem
    rw [hname, fieldsByName_of_mem hn hf, Option.some_inj] at hg
    subst hg
    exact .inl ⟨field, hmem, hname, hrest⟩
  · refine .inr ⟨?_, fun field hmem hname => hr ⟨field, hmem, hname⟩⟩
    by_contra hreq
    rw [Bool.not_eq_false] at hreq
    have hs := h.declared field' hf hreq
    unfold fieldsByName at hs
    exact hr (find_reverse_isSome.1 hs)

theorem SettingsGrow.conforms {released candidate : List Field} (hn : (candidate.map Field.name).Nodup)
    (h : SettingsGrow released candidate) {object : String → Option V}
    (hobject : Conforms hasType textOf released object) : Conforms hasType textOf candidate object := by
  -- a setting that the release does not declare is absent
  have habsent : ∀ {field' : Field} {value : V}, (∀ field ∈ released, field.name ≠ field'.name) →
      value ∉ object field'.name := by
    intro field' value hno hv
    obtain ⟨field, hmem, hname⟩ := hobject.declared field'.name (Option.isSome_iff_exists.2 ⟨value, hv⟩)
    exact hno field hmem hname
  constructor
  · intro name hsome
    obtain ⟨field, hf, rfl⟩ := hobject.declared name hsome
    obtain ⟨field', hc, -⟩ := h.kept field hf
    exact ⟨field', fieldsByName_mem hc⟩
  · intro field' hf value hv
    obtain ⟨field, hmem, hname, ht, -⟩ | ⟨-, hno⟩ := h.back hn hf
    · rw [← ht]
      exact hobject.typed field hmem value (hname ▸ hv)
    · exact absurd hv (habsent hno)
  · intro field' hf hreq
    obtain ⟨field, hmem, hname, -, hr, -⟩ | ⟨hopt, -⟩ := h.back hn hf
    · rw [← hname]
      exact hobject.required field hmem (hr hreq)
    · rw [hopt] at hreq
      cases hreq
  · intro field' hf he value hv
    obtain ⟨field, hmem, hname, ht, -, hs⟩ | ⟨-, hno⟩ := h.back hn hf
    · obtain ⟨text, htext, hvalue⟩ := hobject.enum field hmem (ht.trans he) value (hname ▸ hv)
      exact ⟨text, hs text htext, hvalue⟩
    · exact absurd hv (habsent hno)

end Objects

/-- **Connections are kept**: each released method has a candidate method that accepts its credential objects and its
settings objects and names the same scopes, and the default of several methods stands. -/
theorem connections_kept {V : Type} (hasType : String → V → Prop) (textOf : V → Option String) (released candidate : Manifest)
    (hreleased : released.validates = true) (hcandidate : candidate.validates = true)
    (haccept : validateConnectionCompatibility released candidate = .ok ()) :
    (∀ method ∈ released.auth.connectionMethods, ∃ method' ∈ candidate.auth.connectionMethods,
      (method'.id = method.id ∨ released.auth.methods = [] ∧ method'.id = candidate.auth.defaultMethod) ∧
      (∀ credential : String → Option V, Conforms hasType textOf method.fields credential →
        Conforms hasType textOf method'.fields credential) ∧
      (∀ settings : String → Option V,
        Conforms hasType textOf (released.configuration ++ methodConfigurationFields method) settings →
        Conforms hasType textOf (candidate.configuration ++ methodConfigurationFields method') settings) ∧
      (oauthScopes method.oauth2).fromSetting = (oauthScopes method'.oauth2).fromSetting ∧
      SameStrings (oauthScopes method.oauth2).list (oauthScopes method'.oauth2).list ∧
      SameStrings (oauthUserScopes method.oauth2) (oauthUserScopes method'.oauth2)) ∧
    (released.auth.methods ≠ [] → candidate.auth.methods ≠ [] ∧
      candidate.auth.defaultMethod = released.auth.defaultMethod) := by
  have hwr := wellFormed_of_validates hreleased
  have hwc := wellFormed_of_validates hcandidate
  have hkept := accepts_iff.1 haccept
  refine ⟨fun method hm => ?_, fun hrm => ?_⟩
  · obtain ⟨method', hserves, hmk⟩ := hkept.methods method hm
    obtain ⟨hmem, hid⟩ := hserves.mem
    refine ⟨method', hmem, ?_, fun credential => hmk.fields.conforms (hwc.fields method' hmem), fun settings => ?_,
      hmk.scopes.1, hmk.scopes.2, hmk.userScopes⟩
    · by_cases hrm : released.auth.methods = []
      · by_cases hcm : candidate.auth.methods = []
        · exact .inl (hid.trans (servingID_kept hcm))
        · exact .inr ⟨hrm, hid.trans (servingID_single hrm hcm)⟩
      · exact .inl (hid.trans (servingID_multi hrm))
    · have hnames := hwc.settings method' hmem
      exact (hkept.configuration.append hnames hmk.configuration).conforms hnames
  · obtain ⟨method, hmem⟩ := List.exists_mem_of_ne_nil _ hrm
    rw [← connectionMethods_multi hrm] at hmem
    obtain ⟨method', hserves, -⟩ := hkept.methods method hmem
    have hcm := hserves.multi hwr hrm
    exact ⟨hcm, (hkept.defaultMethod hrm hcm).symm⟩

theorem connections_kept_minting :
    ∃ method' ∈ (mintingManifest none).auth.connectionMethods,
      ∀ credential : String → Option String,
        Conforms (fun _ _ => True) some (mintingManifest (some ["read"])).auth.singleMethod.fields credential →
        Conforms (fun _ _ => True) some method'.fields credential := by
  obtain ⟨method', hmem, -, hfields, -⟩ := (connections_kept (fun _ _ => True) some (mintingManifest (some ["read"]))
    (mintingManifest none) (by decide +kernel) (by decide +kernel) (by decide +kernel)).1
    (mintingManifest (some ["read"])).auth.singleMethod (by decide +kernel)
  exact ⟨method', hmem, hfields⟩

end Schema
end Dex
