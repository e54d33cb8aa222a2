import DexConnectors.ProviderRuns
/-!
# ProviderPythonExpiry — what a refresh leaves of the expiry in the Python provider

The head and the envelope it references both carry the expiry, and `_read_material` compares the two texts.  Every
exchange parses the head's text and formats it again through a `datetime`; the envelope keeps its own.  So the material
stays readable exactly when the text is the one the formatter writes (`Stamp.isCanonical`).
-/
namespace Dex
namespace Provider

open Lib Lib.Rfc3339 Lib.Store Wire

variable {ι : Type} {i : ι} {w w' : World ι} {config : Config}

/-- The object a head references is this envelope. -/
def References (w : World ι) (record : Record) (envelope : Envelope) : Prop :=
  ∃ reference object, record.credential = some reference ∧
    lookup w.objects reference.key reference.version = some object ∧ object.contents.value = .envelope envelope

/-- **The provider reads the credential**: the head is `READY` and `_read_material` accepts what it references. -/
def Reads (C : Type) (config : Config) (i : ι) (w : World ι) (record : Record) (material : Material) : Prop :=
  (∃ item, Returns (C := C) i (readRecord config) w (record, item) w) ∧ record.status = .ready ∧
    Returns (C := C) i (readMaterial config record) w material w

/-- **The head still serves these credentials**, with the expiry instant and the auth method of its envelope. -/
def Serves (C : Type) (config : Config) (i : ι) (w : World ι) (credentials : String) : Prop :=
  ∃ record envelope material, Reads C config i w record material ∧ References w record envelope ∧
    record.expiresAt.map Stamp.instant = envelope.expiresAt.map Stamp.instant ∧
    record.authMethod = envelope.authMethod ∧ material.credentials = credentials

/-- A head text that survives parsing and formatting. -/
def isCanonicalExpiry (expiresAt : Option Stamp) : Bool := expiresAt.all Stamp.isCanonical

/-! ## Expiry texts -/

/-- The text of a parsed expiry. -/
abbrev reformatted (expiresAt : Option DateTime) : Option Stamp := (expiresAt.map Expiry.moment).map formatRFC3339Nano

theorem reformatted_eq_iff {expiresAt : Option Stamp} {parsed : Option DateTime} (h : parseExpiry expiresAt = .ok parsed) :
    reformatted parsed = expiresAt ↔ isCanonicalExpiry expiresAt = true := by
  cases expiresAt with
  | none =>
    cases h
    simp [isCanonicalExpiry]
  | some stamp =>
    simp only [parseExpiry] at h
    split at h
    · rename_i time htime
      cases h
      simpa [isCanonicalExpiry, formatRFC3339Nano] using format_parse_eq_iff htime
    · cases h

theorem isCanonical_reformatted {expiresAt : Option Stamp} {parsed : Option DateTime}
    (h : parseExpiry expiresAt = .ok parsed) : isCanonicalExpiry (reformatted parsed) = true := by
  cases expiresAt with
  | none =>
    cases h
    rfl
  | some stamp =>
    simp only [parseExpiry] at h
    split at h
    · rename_i time htime
      cases h
      simpa [isCanonicalExpiry, formatRFC3339Nano] using isCanonical_format htime
    · cases h

/-- Formatting a parsed text once more changes nothing. -/
theorem reformatted_twice {expiresAt : Option Stamp} {parsed parsed' : Option DateTime}
    (h : parseExpiry expiresAt = .ok parsed) (h' : parseExpiry (reformatted parsed) = .ok parsed') :
    reformatted parsed' = reformatted parsed :=
  (reformatted_eq_iff h').2 (isCanonical_reformatted h)

/-! ## Heads that an exchange leaves -/

theorem referenceIsValid_of_check {item : Version Text (Writer ι)} {record : Record} {reference : Reference}
    (h : checkRecord config item = .ok record) (hc : record.credential = some reference) :
    referenceIsValid config reference = true := by
  unfold checkRecord at h
  split at h
  · rename_i r hv
    split at h
    · cases h
    split at h
    · cases h
    split at h
    · cases h
    split at h
    · cases h
    rename_i hvalid
    have hr : r = record := by
      split at h
      · split at h
        · cases h
        · split at h
          · cases h; rfl
          · cases h
      · split at h
        · cases h
        · cases h; rfl
    rw [hr, hc] at hvalid
    simpa using hvalid
  · cases h

/-- A `READY` head with a valid reference is accepted. -/
theorem checkRecord_ready {v : Version Text (Writer ι)} {revision fence : Nat} {expiresAt : Option Expiry}
    {authMethod : String} {reference : Reference} (hid : v.id ≠ "") (hetag : v.etag ≠ "") (hrev : revision ≠ 0)
    (hfence : fence ≠ 0) (hvalid : referenceIsValid config reference = true)
    (hc : v.contents = dumps (.head (connectionRecordWire config.scope config.key revision fence .ready expiresAt authMethod
      (some reference) none))) :
    checkRecord config v = .ok (connectionRecordWire config.scope config.key revision fence .ready expiresAt authMethod
      (some reference) none) := by
  simp [checkRecord, hc, dumps, connectionRecordWire, hid, hetag, hrev, hfence, hvalid]

/-- **What decides whether a new head serves**: it keeps the envelope's text of the expiry or it does not. -/
theorem serves_iff {C : Type} {v object : Version Text (Writer ι)} {revision fence : Nat} {expiresAt : Option Expiry}
    {reference : Reference} {envelope : Envelope} {parsed : Option DateTime}
    (hhead : (w.objects (headPath config.path)).head? = some v) (hid : v.id ≠ "") (hetag : v.etag ≠ "") (hrev : revision ≠ 0)
    (hfence : fence ≠ 0) (hvalid : referenceIsValid config reference = true)
    (hc : v.contents = dumps (.head (connectionRecordWire config.scope config.key revision fence .ready expiresAt
      envelope.authMethod (some reference) none)))
    (hfound : lookup w.objects reference.key reference.version = some object)
    (hdigest : config.digest object.contents = reference.digest) (hobject : object.contents.value = .envelope envelope)
    (hschema : envelope.schemaVersion = connectionSchemaVersion) (hscope : envelope.scope = config.scope)
    (hkey : envelope.connection = config.key) (hparse : parseExpiry envelope.expiresAt = .ok parsed) :
    Serves C config i w envelope.credentials ↔ expiresAt.map formatRFC3339Nano = envelope.expiresAt := by
  have hcheck := checkRecord_ready hid hetag hrev hfence hvalid hc
  constructor
  · rintro ⟨record, envelope', material, ⟨⟨item, hread⟩, -, hmaterial⟩, -⟩
    obtain ⟨hitem, hrecord, -⟩ := returns_readRecord.1 hread
    rw [hhead] at hitem
    cases hitem
    rw [hcheck] at hrecord
    cases hrecord
    obtain ⟨object', hfound', hok, -⟩ := (returns_readMaterial reference rfl).1 hmaterial
    rw [hfound] at hfound'
    cases hfound'
    obtain ⟨-, e, p, he, -, -, -, -, hexp, -⟩ := checkMaterial_cases.1 hok
    rw [hobject] at he
    cases he
    exact hexp.symm
  · intro hexp
    refine ⟨_, envelope, ⟨envelope.credentials, parsed.map .moment, envelope.authMethod⟩,
      ⟨⟨v, returns_readRecord.2 ⟨hhead, hcheck, rfl⟩⟩, rfl, ?_⟩, ⟨reference, object, rfl, hfound, hobject⟩, ?_, rfl, rfl⟩
    · refine (returns_readMaterial reference rfl).2 ⟨object, hfound, ?_, rfl⟩
      exact checkMaterial_cases.2 ⟨hdigest, envelope, parsed, hobject, hschema, hscope, hkey, rfl, hexp.symm, hparse, rfl⟩
    · exact congrArg (Option.map Stamp.instant) hexp

/-! ## What is left of the expiry -/

section

variable {C : Type} {record : Record} {material : Material} {now : Int} {admission admission' : Admission}
  {w₁ w₁' w₂ : World ι} {u : Unit}

/-- A readable head with what it references. -/
theorem Reads.elim (h : Reads C config i w record material) :
    ∃ reference object envelope parsed, record.credential = some reference ∧ referenceIsValid config reference = true ∧
      lookup w.objects reference.key reference.version = some object ∧
      config.digest object.contents = reference.digest ∧ object.contents.value = .envelope envelope ∧
      envelope.schemaVersion = connectionSchemaVersion ∧ envelope.scope = config.scope ∧
      envelope.connection = config.key ∧ envelope.authMethod = record.authMethod ∧
      envelope.expiresAt = record.expiresAt ∧ parseExpiry envelope.expiresAt = .ok parsed ∧
      envelope.credentials = material.credentials := by
  obtain ⟨⟨item, hread⟩, -, hmaterial⟩ := h
  obtain ⟨-, hcheck, -⟩ := returns_readRecord.1 hread
  cases hc : record.credential with
  | none =>
    unfold readMaterial at hmaterial
    rw [hc] at hmaterial
    exact absurd hmaterial returns_throw
  | some reference =>
    obtain ⟨object, hfound, hok, -⟩ := (returns_readMaterial reference hc).1 hmaterial
    obtain ⟨hdigest, envelope, parsed, hv, h1, h2, h3, h4, h5, hp, rfl⟩ := checkMaterial_cases.1 hok
    exact ⟨reference, object, envelope, parsed, rfl, referenceIsValid_of_check hcheck hc, hfound, hdigest, hv, h1, h2, h3, h4,
      h5, hp, rfl⟩

theorem version_ne_of_valid {reference : Reference} (h : referenceIsValid config reference = true) : reference.version ≠ "" := by
  simp only [referenceIsValid, Bool.and_eq_true, bne_iff_ne] at h
  exact h.1.2

/-- **An exchange that ends without a result** leaves the credential readable exactly when its expiry is canonical. -/
theorem serves_after_finish (hreads : Reads C config i w record material)
    (hadmitted : Returns (C := C) i (admitRefresh config record now) w admission w₁) (hsame : w₁'.objects = w₁.objects)
    (hfinish : Returns (C := C) i (finishExchange config admission' .ready) w₁' u w₂) :
    Serves C config i w₂ material.credentials ↔ isCanonicalExpiry record.expiresAt = true := by
  obtain ⟨reference, object, envelope, parsed, hcred, hvalid, hfound, hdigest, hobj, h1, h2, h3, hauth, hexp, hparse, hmat⟩ :=
    hreads.elim
  obtain ⟨attemptID, invocationID, expiresAt, head, v, w₀, -, -, rfl, hp, -, -, -, hv, hvc, -, rfl⟩ := returns_admitRefresh.1 hadmitted
  obtain ⟨head', record', expiresAt', v', hhead', hcheck', -, hp', hv', hvc', -, rfl⟩ := returns_finishExchange.1 hfinish
  simp only [hsame] at hv' hhead' ⊢
  simp only [put_same, List.head?_cons, Option.some.injEq] at hhead'
  subst hhead'
  have hrec : record' = admittedRecord config record now attemptID invocationID expiresAt := by
    have := checkRecord_value hcheck'
    rw [hvc] at this
    cases this
    rfl
  subst hrec
  rw [← hmat]
  have hcontents : v'.contents = dumps (.head (connectionRecordWire config.scope config.key (record.revision + 1 + 1)
      (record.fence + 1 + 1) .ready (expiresAt'.map .moment) envelope.authMethod (some reference) none)) := by
    rw [hvc', hauth, ← hcred]
    rfl
  have hfound' : lookup (put (put w.objects (headPath config.path) v) (headPath config.path) v') reference.key
      reference.version = some object :=
    lookup_put (lookup_put hfound (version_ne_of_valid hvalid) hv) (version_ne_of_valid hvalid) hv'
  rw [serves_iff (w := ⟨put (put w.objects (headPath config.path) v) (headPath config.path) v', _, _⟩)
    (by simp) hv'.id_ne hv'.etag_ne (by omega) (by omega) hvalid hcontents hfound' hdigest hobj h1 h2 h3 hparse, hexp]
  show reformatted expiresAt' = record.expiresAt ↔ _
  rw [reformatted_twice hp hp']
  exact reformatted_eq_iff hp

/-- **An exchange abandoned past its deadline**, restored by an observer. -/
theorem serves_after_recovery (hreads : Reads C config i w record material)
    (hadmitted : Returns (C := C) i (admitRefresh config record now) w admission w₁) (hsame : w₁'.objects = w₁.objects)
    (habsent : lookup w₁'.objects admission.resultKey "" = none) {pending : Record} {item : Version Text (Writer ι)}
    (hpending : Returns (C := C) i (readRecord config) w₁' (pending, item) w₁')
    (hrecover : Returns (C := C) i (recoverOrWait config pending) w₁' u w₂) {restored : Record}
    {head : Version Text (Writer ι)} (hhead : Returns (C := C) i (readRecord config) w₂ (restored, head) w₂)
    (hready : restored.status = .ready) :
    Serves C config i w₂ material.credentials ↔ isCanonicalExpiry record.expiresAt = true := by
  have hpend : pending.status = .refreshing ∧
      ∃ mutation, pending.mutation = some mutation ∧ mutation.resultKey = admission.resultKey := by
    obtain ⟨attemptID, invocationID, expiresAt, head₀, v, w₀, -, -, rfl, -, rfl, -, -, -, hvc, -, rfl⟩ :=
      returns_admitRefresh.1 hadmitted
    obtain ⟨hitem, hcheck, -⟩ := returns_readRecord.1 hpending
    simp only [hsame, put_same, List.head?_cons, Option.some.injEq] at hitem
    subst hitem
    have := checkRecord_value hcheck
    rw [hvc] at this
    cases this
    exact ⟨rfl, _, rfl, rfl⟩
  obtain ⟨hrefreshing, mutation, hm, hkey⟩ := hpend
  rcases returns_recoverOrWait hm (hkey ▸ habsent) hrecover with rfl | ⟨admission', hfinish⟩
  · -- the head is still pending
    obtain ⟨hi1, hc1, -⟩ := returns_readRecord.1 hhead
    obtain ⟨hi2, hc2, -⟩ := returns_readRecord.1 hpending
    rw [hi1] at hi2
    cases hi2
    rw [hc1] at hc2
    cases hc2
    rw [hready] at hrefreshing
    cases hrefreshing
  · rw [hrefreshing] at hfinish
    exact serves_after_finish hreads hadmitted hsame hfinish

theorem checkResult_cases {result : Version Text (Writer ι)} {envelope : Envelope}
    (h : checkResult config admission result = .ok envelope) : result.contents.value = .envelope envelope ∧
      envelope.schemaVersion = connectionSchemaVersion ∧ envelope.scope = config.scope ∧ envelope.connection = config.key := by
  unfold checkResult at h
  split at h
  · rename_i e hv
    split at h
    · cases h
    · rename_i hgood
      cases h
      simp only [not_or, not_not] at hgood
      exact ⟨hv, hgood.1, hgood.2.1, hgood.2.2.1⟩
  · cases h

theorem isBelow_resultPath (path attemptID : String) : isBelow path (resultPath path attemptID) = true := by
  unfold isBelow resultPath
  rw [List.isPrefixOf_iff_prefix]
  refine ⟨"exchange-results/".toList ++ attemptID.toList, ?_⟩
  simp only [String.toList_append]
  simp

/-- **A published result** is readable exactly when its expiry is canonical. -/
theorem serves_after_publish (hdigests : ∀ contents, isDigest (config.digest contents) = true) (hwf : Wf w.objects)
    (hadmitted : Returns (C := C) i (admitRefresh config record now) w admission w₁) {result : Version Text (Writer ι)}
    {envelope : Envelope} (hresult : Fresh w₁.objects admission.resultKey result)
    (hsame : w₁'.objects = put w₁.objects admission.resultKey result)
    (henvelope : result.contents.value = .envelope envelope)
    (hpublish : Returns (C := C) i (publishResult config admission' admission.resultKey result) w₁' u w₂) :
    Serves C config i w₂ envelope.credentials ↔ isCanonicalExpiry envelope.expiresAt = true := by
  obtain ⟨attemptID, invocationID, expiresAt, head, v, w₀, -, -, rfl, hp, rfl, -, -, hv, hvc, -, rfl⟩ :=
    returns_admitRefresh.1 hadmitted
  have hother := headPath_ne_resultPath config.path attemptID
  obtain ⟨head', record', hhead', hcheck', h⟩ := returns_publishResult.1 hpublish
  simp only [hsame] at hhead' h
  simp only [put_of_ne _ _ hother, put_same, List.head?_cons, Option.some.injEq] at hhead'
  subst hhead'
  have hrec : record' = admittedRecord config record now attemptID invocationID expiresAt := by
    have := checkRecord_value hcheck'
    rw [hvc] at this
    cases this
    rfl
  subst hrec
  rcases h with ⟨href, -⟩ | ⟨-, -, e, expiresAt', v', hcr, hp', hv', hvc', -, rfl⟩
  · cases href
  · obtain ⟨hval, h1, h2, h3⟩ := checkResult_cases hcr
    rw [henvelope] at hval
    cases hval
    have hwf₁ : Wf (put (put w.objects (headPath config.path) v) (resultPath config.path attemptID) result) :=
      (hwf.put hv).put hresult
    have hid := hwf₁.lookup_id (resultPath config.path attemptID) (v := result) (by simp)
    have hfound := lookup_put hid hresult.id_ne hv'
    have hvalid : referenceIsValid config ⟨resultPath config.path attemptID, result.id, config.digest result.contents⟩ = true := by
      simp [referenceIsValid, isBelow_resultPath, hresult.id_ne, hdigests]
    have hcontents : v'.contents = dumps (.head (connectionRecordWire config.scope config.key (record.revision + 1 + 1)
        (record.fence + 1) .ready (expiresAt'.map .moment) envelope.authMethod
        (some ⟨resultPath config.path attemptID, result.id, config.digest result.contents⟩) none)) := hvc'
    rw [serves_iff (w := ⟨put _ (headPath config.path) v', _, _⟩) (by simp) hv'.id_ne hv'.etag_ne
      (by omega) (by omega) hvalid hcontents hfound rfl henvelope h1 h2 h3 hp']
    exact reformatted_eq_iff hp'

end

end Provider
end Dex
