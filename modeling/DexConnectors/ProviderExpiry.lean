import DexConnectors.ProviderPythonExpiry
import DexConnectors.ProviderTypeScriptModel
/-!
# ProviderExpiry — what a refresh leaves of the expiry, in the TypeScript and the Python provider

The TypeScript provider compares the moments of the two expiry texts, but writes the head's one from a `Date`: the
material stays readable exactly when the expiry is a whole number of milliseconds (`Stamp.isMillisecond`).  The Python
provider compares texts (`ProviderPythonExpiry`).  `expiry_kept_iff` puts the two together.
-/
namespace Dex
namespace ProviderTS

open Lib Lib.Rfc3339 Lib.Store Wire Provider

variable {ι : Type} {i : ι} {w w' : World ι} {config : Config}

/-- **The provider reads the credential**: the head is `READY` and `readMaterial` accepts what it references. -/
def Reads (C : Type) (config : Config) (i : ι) (w : World ι) (record : Record) (material : Material) : Prop :=
  (∃ item, Returns (C := C) i (readRecord config) w (record, item) w) ∧ record.status = .ready ∧
    Returns (C := C) i (readMaterial config record) w material w

/-- **The head still serves these credentials**, with the expiry instant and the auth method of its envelope. -/
def Serves (C : Type) (config : Config) (i : ι) (w : World ι) (credentials : String) : Prop :=
  ∃ record envelope material, Reads C config i w record material ∧ References w record envelope ∧
    record.expiresAt.map Stamp.instant = envelope.expiresAt.map Stamp.instant ∧
    record.authMethod = envelope.authMethod ∧ material.credentials = credentials

def isMillisecondExpiry (expiresAt : Option Stamp) : Bool := expiresAt.all Stamp.isMillisecond

/-! ## Expiry texts -/

theorem isoText_cases {expiresAt text : Option Stamp} (h : isoText (parseExpiry expiresAt) = .ok text) :
    (expiresAt = none ∧ text = none) ∨
      ∃ stamp ms, expiresAt = some stamp ∧ stamp.date = some ms ∧ text = some (toISOString ms) := by
  cases expiresAt with
  | none =>
    cases h
    exact .inl ⟨rfl, rfl⟩
  | some stamp =>
    simp only [parseExpiry, Option.map_some] at h
    cases hd : stamp.date with
    | none =>
      rw [hd] at h
      cases h
    | some ms =>
      rw [hd] at h
      simp only [isoText] at h
      split at h
      · cases h
        exact .inr ⟨stamp, ms, rfl, hd, rfl⟩
      · cases h

/-- The written text denotes the same moment exactly when that is a whole number of milliseconds. -/
theorem isoText_instant_iff {expiresAt text : Option Stamp} (h : isoText (parseExpiry expiresAt) = .ok text) :
    text.map Stamp.instant = expiresAt.map Stamp.instant ↔ isMillisecondExpiry expiresAt = true := by
  rcases isoText_cases h with ⟨rfl, rfl⟩ | ⟨stamp, ms, rfl, hd, rfl⟩
  · simp [isMillisecondExpiry]
  · simp only [Option.map_some, Option.some.injEq, instant_toISOString, date_eq_instant_iff hd, isMillisecondExpiry,
      Option.all_some]

/-- Writing a written text once more changes nothing. -/
theorem isoText_twice {expiresAt text text' : Option Stamp} (h : isoText (parseExpiry expiresAt) = .ok text)
    (h' : isoText (parseExpiry text) = .ok text') : text' = text := by
  rcases isoText_cases h with ⟨rfl, rfl⟩ | ⟨stamp, ms, rfl, -, rfl⟩
  · cases h'
    rfl
  · rcases isoText_cases h' with ⟨hn, -⟩ | ⟨stamp', ms', hs, hd, rfl⟩
    · cases hn
    · cases hs
      rw [date_toISOString] at hd
      cases hd
      rfl

/-! ## Checks -/

theorem connectionRecord_ok {scope : Scope} {key : ConnectionKey} {revision fence : Nat} {status : Status}
    {expiresAt : Option Date} {authMethod : String} {credential : Option Reference} {mutation : Option Mutation}
    {record : Record} :
    connectionRecord scope key revision fence status expiresAt authMethod credential mutation = .ok record ↔
      ∃ text, isoText expiresAt = .ok text ∧ recordMatchesSchema record = true ∧
        record = ⟨connectionSchemaVersion, key, scope, revision, fence, status, text, authMethod, credential, mutation⟩ := by
  unfold connectionRecord
  split
  · rename_i exc he
    simp [he]
  · rename_i text ht
    simp only [ht, Except.ok.injEq, exists_eq_left']
    split
    · rename_i hs
      constructor
      · intro h
        cases h
        exact ⟨hs, rfl⟩
      · rintro ⟨-, rfl⟩
        rfl
    · rename_i hs
      constructor
      · intro h
        cases h
      · rintro ⟨hs', rfl⟩
        exact absurd hs' hs

theorem checkRecord_value {T : Type} {item : Version Text T} {record : Record} (h : checkRecord config item = .ok record) :
    item.contents.value = .head record := by
  unfold checkRecord at h
  split at h
  · cases h
  split at h
  · rename_i r hv
    rw [hv]
    split at h
    · cases h
    split at h
    · cases h
    split at h
    · cases h
    split at h
    · cases h
    split at h
    · split at h
      · cases h; rfl
      · cases h
    split at h
    · cases h
    · cases h; rfl
  · cases h

theorem referenceIsValid_of_check {T : Type} {item : Version Text T} {record : Record} {reference : Reference}
    (h : checkRecord config item = .ok record) (hc : record.credential = some reference) :
    referenceIsValid config reference = true := by
  have hvalue := checkRecord_value h
  unfold checkRecord at h
  split at h
  · cases h
  rw [hvalue] at h
  simp only at h
  split at h
  · cases h
  split at h
  · cases h
  split at h
  · cases h
  split at h
  · cases h
  rename_i hvalid
  rw [hc] at hvalid
  simpa using hvalid

/-- A `READY` head with a valid reference is accepted. -/
theorem checkRecord_ready {T : Type} {v : Version Text T} {record : Record} {reference : Reference} (hid : v.id ≠ "")
    (hetag : v.etag ≠ "") (hschema : recordMatchesSchema record = true) (hscope : record.scope = config.scope)
    (hkey : record.connection = config.key) (hready : record.status = .ready) (hc : record.credential = some reference)
    (hvalid : referenceIsValid config reference = true) (hm : record.mutation = none)
    (hv : v.contents = dumps (.head record)) : checkRecord config v = .ok record := by
  simp [checkRecord, hv, dumps, hid, hetag, hschema, hscope, hkey, hready, hc, hvalid, hm]

theorem checkMaterial_cases {T : Type} {record : Record} {reference : Reference} {object : Version Text T}
    {material : Material} :
    checkMaterial config record reference object = .ok material ↔
      config.digest object.contents = reference.digest ∧
      ∃ envelope, object.contents.value = .envelope envelope ∧ envelopeMatchesSchema envelope = true ∧
        envelope.scope = config.scope ∧ envelope.connection = config.key ∧ envelope.authMethod = record.authMethod ∧
        envelope.expiresAt.map Stamp.instant = record.expiresAt.map Stamp.instant ∧
        material = ⟨envelope.credentials, parseExpiry envelope.expiresAt, envelope.authMethod⟩ := by
  unfold checkMaterial
  split
  · rename_i hd
    simp [hd]
  · rename_i hd
    rw [not_not] at hd
    split
    · rename_i envelope hv
      simp only [hd, hv, Value.envelope.injEq, exists_eq_left', true_and]
      split
      · rename_i hs
        simp [hs]
      · rename_i hs
        rw [Bool.not_eq_false] at hs
        split
        · rename_i hbad
          constructor
          · intro h
            cases h
          · rintro ⟨-, h1, h2, h3, h4, -⟩
            simp [h1, h2, h3, sameExpiry, h4] at hbad
        · rename_i hgood
          simp only [not_or, not_not, Bool.not_eq_false, sameExpiry, beq_iff_eq] at hgood
          obtain ⟨h1, h2, h3, h4⟩ := hgood
          constructor
          · intro h
            cases h
            exact ⟨hs, h1, h2, h3, h4, rfl⟩
          · rintro ⟨-, -, -, -, -, rfl⟩
            rfl
    · rename_i hother
      constructor
      · intro h
        cases h
      · rintro ⟨-, e, he, -⟩
        exact absurd he (hother e)

theorem checkResult_cases {T : Type} {admission : Admission} {result : Version Text T} {envelope : Envelope}
    (h : checkResult config admission result = .ok envelope) : result.contents.value = .envelope envelope ∧
      envelopeMatchesSchema envelope = true ∧ envelope.scope = config.scope ∧ envelope.connection = config.key := by
  unfold checkResult at h
  split at h
  · rename_i e hv
    split at h
    · cases h
    · rename_i hs
      split at h
      · cases h
      · rename_i hgood
        cases h
        simp only [not_or, not_not] at hgood
        exact ⟨hv, by simpa using hs, hgood.1, hgood.2.1⟩
  · cases h

/-! ## The runs of an exchange -/

theorem returns_readRecord {C : Type} {record : Record} {item : Version Text (Writer ι)} :
    Returns (C := C) i (readRecord config) w (record, item) w' ↔
      (w.objects (headPath config.path)).head? = some item ∧ checkRecord config item = .ok record ∧ w' = w := by
  unfold readRecord
  simp only [returns_bind, returns_readObject, returns_orRaise, returns_pure, Prod.mk.injEq]
  constructor
  · rintro ⟨v, w₁, ⟨hread, rfl⟩, r, w₂, ⟨hcheck, rfl⟩, ⟨rfl, rfl⟩, rfl⟩
    exact ⟨hread, hcheck, rfl⟩
  · rintro ⟨hread, hcheck, rfl⟩
    exact ⟨item, w', ⟨hread, rfl⟩, record, w', ⟨hcheck, rfl⟩, ⟨rfl, rfl⟩, rfl⟩

theorem returns_readMaterial {C : Type} {record : Record} {material : Material} (reference : Reference)
    (hc : record.credential = some reference) :
    Returns (C := C) i (readMaterial config record) w material w' ↔
      ∃ object, lookup w.objects reference.key reference.version = some object ∧
        checkMaterial config record reference object = .ok material ∧ w' = w := by
  unfold readMaterial
  rw [hc]
  simp only [returns_bind, returns_readObject, returns_orRaise]
  constructor
  · rintro ⟨object, w₁, ⟨hfound, rfl⟩, hcheck, rfl⟩
    exact ⟨object, hfound, hcheck, rfl⟩
  · rintro ⟨object, hfound, hcheck, rfl⟩
    exact ⟨object, w', ⟨hfound, rfl⟩, hcheck, rfl⟩

/-- A head write onto the head that is there. -/
theorem returns_writeHead {C : Type} {op : HeadOp} {head : Version Text (Writer ι)} {updated : Record} {u : Unit}
    (hhead : (w.objects (headPath config.path)).head? = some head) (hne : head.contents ≠ dumps (.head updated)) :
    Returns (C := C) i (writeHead config op head updated) w u w' ↔
      ∃ v, Fresh w.objects (headPath config.path) v ∧ v.contents = dumps (.head updated) ∧ v.writer = .task i op ∧
        w' = { w with objects := put w.objects (headPath config.path) v } := by
  unfold writeHead
  rw [← returns_swap_settle (C := C) (u := u) hhead hne, returns_bind]
  constructor
  · rintro ⟨answer, w₁, hswap, hsettle⟩
    exact ⟨answer, w₁, returns_act.1 hswap, hsettle⟩
  · rintro ⟨answer, w₁, hswap, hsettle⟩
    exact ⟨answer, w₁, returns_act.2 hswap, hsettle⟩

/-- The head that `#admitRefresh` writes. -/
def admittedRecord (config : Config) (record : Record) (now : Int) (attemptID invocationID : String)
    (expiresAt : Option Stamp) : Record :=
  ⟨connectionSchemaVersion, config.key, config.scope, record.revision + 1, record.fence + 1, .refreshing, expiresAt,
    record.authMethod, record.credential, some ⟨Status.refreshing.text, invocationID, attemptID, record.fence + 1,
      record.revision, toISOString (now + 40000), resultPath config.path attemptID⟩⟩

theorem contents_ne {T : Type} {item : Version Text T} {record updated : Record} (h : checkRecord config item = .ok record)
    (hrev : updated.revision = record.revision + 1) : item.contents ≠ dumps (.head updated) := by
  intro hc
  have hv := checkRecord_value h
  rw [hc] at hv
  cases hv
  omega

/-- An admission that returns has put the `REFRESHING` head on the record. -/
theorem returns_admitRefresh {C : Type} {record : Record} {object : Version Text (Writer ι)} {now : Int}
    {admission : Admission} (hhead : (w.objects (headPath config.path)).head? = some object)
    (hcheck : checkRecord config object = .ok record) :
    Returns (C := C) i (admitRefresh config record object now) w admission w' ↔
      ∃ attemptID invocationID expiresAt v, FreshToken w attemptID ∧
        FreshToken { w with issued := (attemptID, i) :: w.issued } invocationID ∧
        isFourDigitYear (now + 40000) = true ∧ isoText (parseExpiry record.expiresAt) = .ok expiresAt ∧
        recordMatchesSchema (admittedRecord config record now attemptID invocationID expiresAt) = true ∧
        admission = ⟨.refreshing, attemptID, record.fence + 1, now + 40000, resultPath config.path attemptID⟩ ∧
        Fresh w.objects (headPath config.path) v ∧
        v.contents = dumps (.head (admittedRecord config record now attemptID invocationID expiresAt)) ∧
        v.writer = .task i .admission ∧
        w' = { w with objects := put w.objects (headPath config.path) v,
                      issued := (invocationID, i) :: (attemptID, i) :: w.issued } := by
  unfold admitRefresh
  simp only [returns_bind, returns_token, returns_orRaise, returns_pure, connectionRecord_ok]
  constructor
  · rintro ⟨attemptID, w₁, ⟨hfresh, rfl⟩, invocationID, w₂, ⟨hfresh', rfl⟩, deadline, w₃, ⟨hdeadline, rfl⟩, updated, w₄,
      ⟨⟨expiresAt, hiso, hschema, rfl⟩, rfl⟩, ⟨⟩, w₅, hwrite, rfl, rfl⟩
    simp only [isoText] at hdeadline
    split at hdeadline
    · rename_i hyear
      cases hdeadline
      have hupdated := (returns_writeHead (w := { w with issued := (invocationID, i) :: (attemptID, i) :: w.issued }) hhead
        (contents_ne hcheck rfl)).1 hwrite
      obtain ⟨v, hv, hc, hw, rfl⟩ := hupdated
      exact ⟨attemptID, invocationID, expiresAt, v, hfresh, hfresh', hyear, hiso, hschema, rfl, hv, hc, hw, rfl⟩
    · cases hdeadline
  · rintro ⟨attemptID, invocationID, expiresAt, v, hfresh, hfresh', hyear, hiso, hschema, rfl, hv, hc, hw, rfl⟩
    have hdeadline : isoText (some (some (now + 40000))) = .ok (some (toISOString (now + 40000))) := by
      simp [isoText, hyear]
    refine ⟨attemptID, _, ⟨hfresh, rfl⟩, invocationID, _, ⟨hfresh', rfl⟩, _, _, ⟨hdeadline, rfl⟩, _, _,
      ⟨⟨expiresAt, hiso, hschema, rfl⟩, rfl⟩, (), _, ?_, rfl, rfl⟩
    exact (returns_writeHead (w := { w with issued := (invocationID, i) :: (attemptID, i) :: w.issued }) hhead
      (contents_ne hcheck rfl)).2 ⟨v, hv, hc, hw, rfl⟩

/-- The head that `#finishExchange` writes. -/
def finishedRecord (config : Config) (record : Record) (status : Status) (expiresAt : Option Stamp) : Record :=
  ⟨connectionSchemaVersion, config.key, config.scope, record.revision + 1, record.fence + 1, status, expiresAt,
    record.authMethod, record.credential, none⟩

/-- An exchange that was finished has put its head on the pending one. -/
theorem returns_finishExchange {C : Type} {admission : Admission} {status : Status} {u : Unit} :
    Returns (C := C) i (finishExchange config admission status) w u w' ↔
      ∃ head record expiresAt v, (w.objects (headPath config.path)).head? = some head ∧
        checkRecord config head = .ok record ∧ isAdmitted record admission = true ∧
        isoText (parseExpiry record.expiresAt) = .ok expiresAt ∧
        recordMatchesSchema (finishedRecord config record status expiresAt) = true ∧
        Fresh w.objects (headPath config.path) v ∧
        v.contents = dumps (.head (finishedRecord config record status expiresAt)) ∧
        v.writer = .task i (.finish admission.attemptID admission.fence) ∧
        w' = { w with objects := put w.objects (headPath config.path) v } := by
  unfold finishExchange
  rw [returns_bind]
  constructor
  · rintro ⟨⟨record, head⟩, w₁, hread, h⟩
    obtain ⟨hhead, hcheck, rfl⟩ := returns_readRecord.1 hread
    simp only [returns_ite, returns_throw, and_false, or_false, returns_bind, returns_orRaise, connectionRecord_ok] at h
    obtain ⟨hadm, updated, w₂, ⟨⟨expiresAt, hiso, hschema, rfl⟩, rfl⟩, hwrite⟩ := h
    obtain ⟨v, hv, hc, hw, rfl⟩ := (returns_writeHead hhead (contents_ne hcheck rfl)).1 hwrite
    exact ⟨head, record, expiresAt, v, hhead, hcheck, hadm, hiso, hschema, hv, hc, hw, rfl⟩
  · rintro ⟨head, record, expiresAt, v, hhead, hcheck, hadm, hiso, hschema, hv, hc, hw, rfl⟩
    refine ⟨(record, head), w, returns_readRecord.2 ⟨hhead, hcheck, rfl⟩, ?_⟩
    simp only [returns_ite, returns_throw, and_false, or_false, returns_bind, returns_orRaise, connectionRecord_ok]
    exact ⟨hadm, _, w, ⟨⟨expiresAt, hiso, hschema, rfl⟩, rfl⟩,
      (returns_writeHead hhead (contents_ne hcheck rfl)).2 ⟨v, hv, hc, hw, rfl⟩⟩

/-- The head that `#publishResult` writes. -/
def publishedRecord (config : Config) (record : Record) (envelope : Envelope) (reference : Reference)
    (expiresAt : Option Stamp) : Record :=
  ⟨connectionSchemaVersion, config.key, config.scope, record.revision + 1, record.fence, .ready, expiresAt,
    envelope.authMethod, some reference, none⟩

/-- A head write that reports a conflict has changed nothing. -/
theorem raises_writeHead {C : Type} {op : HeadOp} {head : Version Text (Writer ι)} {updated : Record} {text : String}
    (h : Raises (C := C) i (writeHead config op head updated) w (.objectConflict text) w') : w' = w := by
  unfold writeHead at h
  rcases raises_bind.1 h with ⟨answer, w₂, -, hret, -⟩ | ⟨answer, w₂, hswap, hsettle⟩
  · cases hret
  · obtain ⟨rfl, hw'⟩ := raises_settle hsettle
    obtain ⟨s, hswap, hs⟩ := returns_act.1 hswap
    rcases hswap with ⟨-, v, -, -, -, -, ha | ha⟩ | ⟨hunchanged, -⟩
    · cases ha
    · cases ha
    · rw [hw', hs, hunchanged]

/-- A result published onto a head that does not reference it has put its head there. -/
theorem returns_publishResult {C : Type} {admission : Admission} {key : String} {result : Version Text (Writer ι)} {u : Unit}
    {head : Version Text (Writer ι)} {record : Record} (hhead : (w.objects (headPath config.path)).head? = some head)
    (hcheck : checkRecord config head = .ok record) (href : references record key = false)
    (h : Returns (C := C) i (publishResult config admission key result) w u w') :
    ∃ envelope expiresAt v, checkResult config admission result = .ok envelope ∧
      isoText (parseExpiry envelope.expiresAt) = .ok expiresAt ∧
      recordMatchesSchema (publishedRecord config record envelope ⟨key, result.id, config.digest result.contents⟩
        expiresAt) = true ∧ Fresh w.objects (headPath config.path) v ∧
      v.contents = dumps (.head (publishedRecord config record envelope ⟨key, result.id, config.digest result.contents⟩
        expiresAt)) ∧
      w' = { w with objects := put w.objects (headPath config.path) v } := by
  unfold publishResult at h
  rw [returns_bind] at h
  obtain ⟨⟨record', head'⟩, w₁, hread, h⟩ := h
  obtain ⟨hhead', hcheck', rfl⟩ := returns_readRecord.1 hread
  rw [hhead] at hhead'
  cases hhead'
  rw [hcheck] at hcheck'
  cases hcheck'
  simp only [href, Bool.false_eq_true, if_false, returns_ite, returns_throw, and_false, or_false, returns_bind,
    returns_orRaise, connectionRecord_ok, returns_lift] at h
  obtain ⟨hadm, envelope, w₂, ⟨hresult, rfl⟩, updated, w₃, ⟨⟨expiresAt, hiso, hschema, rfl⟩, rfl⟩, written, w₄, hwrite, h⟩ := h
  cases written with
  | ok =>
    obtain ⟨-, rfl⟩ := returns_pure.1 h
    obtain ⟨v, hv, hc, -, rfl⟩ := (returns_writeHead hhead (contents_ne hcheck rfl)).1 hwrite
    exact ⟨envelope, expiresAt, v, hresult, hiso, hschema, hv, hc, rfl⟩
  | error exc =>
    cases exc with
    | objectConflict text =>
      rw [raises_writeHead hwrite] at h
      simp only [settlePublished, returns_bind, returns_ite, returns_throw, and_false, or_false] at h
      obtain ⟨⟨observed, head'⟩, w₅, hread', href', -⟩ := h
      obtain ⟨hhead', hcheck', -⟩ := returns_readRecord.1 hread'
      rw [hhead] at hhead'
      cases hhead'
      rw [hcheck] at hcheck'
      cases hcheck'
      rw [href] at href'
      cases href'
    | _ => exact absurd h returns_throw

theorem pending_of_publish {C : Type} {admission : Admission} {key : String} {result : Version Text (Writer ι)} {u : Unit}
    (h : Returns (C := C) i (publishResult config admission key result) w u w') :
    ∃ head record, (w.objects (headPath config.path)).head? = some head ∧ checkRecord config head = .ok record := by
  unfold publishResult at h
  rw [returns_bind] at h
  obtain ⟨⟨record, head⟩, w₁, hread, -⟩ := h
  obtain ⟨hhead, hcheck, -⟩ := returns_readRecord.1 hread
  exact ⟨head, record, hhead, hcheck⟩

/-- Recovering a refresh without a result waits for its deadline or restores the head. -/
theorem returns_recoverOrWait {C : Type} {record : Record} {mutation : Mutation} {u : Unit}
    (hstatus : record.status = .refreshing) (hm : record.mutation = some mutation)
    (habsent : lookup w.objects mutation.resultKey "" = none)
    (h : Returns (C := C) i (recoverOrWait config record) w u w') :
    w' = w ∨ ∃ admission, Returns (C := C) i (finishExchange config admission .ready) w u w' := by
  unfold recoverOrWait at h
  rw [hm] at h
  simp only [returns_bind, returns_orRaise] at h
  obtain ⟨admission, w₁, ⟨hobs, rfl⟩, answer, w₂, hread, h⟩ := h
  have hadm : admission.resultKey = mutation.resultKey ∧ admission.kind = .refreshing := by
    unfold observed at hobs
    split at hobs
    · cases hobs
    · cases hobs
      exact ⟨rfl, by simp [hstatus]⟩
  obtain ⟨hread, rfl⟩ := returns_act.1 hread
  cases answer with
  | failed => exact absurd h returns_throw
  | found v =>
    rw [hadm.1] at hread
    rw [show lookup _ _ _ = some v from hread] at habsent
    cases habsent
  | absent =>
    simp only [returns_bind, returns_now, returns_ite, returns_pure] at h
    obtain ⟨now, w₃, rfl, ⟨-, ⟨⟩, w₄, hsleep, -, rfl⟩ | ⟨-, h⟩⟩ := h
    · exact .inl (returns_act.1 hsleep)
    · rw [hadm.2] at h
      exact .inr ⟨admission, h⟩

/-! ## What is left of the expiry -/

section

variable {C : Type} {record : Record} {material : Material} {now : Int} {admission admission' : Admission}
  {w₁ w₁' w₂ : World ι} {u : Unit} {object : Version Text (Writer ι)}

/-- **What decides whether a new head serves**: it denotes the envelope's expiry or it does not. -/
theorem serves_iff {v object : Version Text (Writer ι)} {record : Record} {reference : Reference} {envelope : Envelope}
    (hhead : (w.objects (headPath config.path)).head? = some v) (hcheck : checkRecord config v = .ok record)
    (hready : record.status = .ready) (hcred : record.credential = some reference)
    (hauth : record.authMethod = envelope.authMethod)
    (hfound : lookup w.objects reference.key reference.version = some object)
    (hdigest : config.digest object.contents = reference.digest) (hobject : object.contents.value = .envelope envelope)
    (hschema : envelopeMatchesSchema envelope = true) (hscope : envelope.scope = config.scope)
    (hkey : envelope.connection = config.key) :
    Serves C config i w envelope.credentials ↔
      record.expiresAt.map Stamp.instant = envelope.expiresAt.map Stamp.instant := by
  constructor
  · rintro ⟨record', envelope', material, ⟨⟨item, hread⟩, -, hmaterial⟩, -⟩
    obtain ⟨hitem, hrecord, -⟩ := returns_readRecord.1 hread
    rw [hhead] at hitem
    cases hitem
    rw [hcheck] at hrecord
    cases hrecord
    obtain ⟨object', hfound', hok, -⟩ := (returns_readMaterial reference hcred).1 hmaterial
    rw [hfound] at hfound'
    cases hfound'
    obtain ⟨-, e, he, -, -, -, -, hexp, -⟩ := checkMaterial_cases.1 hok
    rw [hobject] at he
    cases he
    exact hexp.symm
  · intro hexp
    refine ⟨record, envelope, ⟨envelope.credentials, parseExpiry envelope.expiresAt, envelope.authMethod⟩,
      ⟨⟨v, returns_readRecord.2 ⟨hhead, hcheck, rfl⟩⟩, hready, ?_⟩, ⟨reference, object, hcred, hfound, hobject⟩, hexp, hauth, rfl⟩
    refine (returns_readMaterial reference hcred).2 ⟨object, hfound, ?_, rfl⟩
    exact checkMaterial_cases.2 ⟨hdigest, envelope, hobject, hschema, hscope, hkey, hauth.symm, hexp.symm, rfl⟩

/-- A readable head with what it references. -/
theorem Reads.elim (h : Reads C config i w record material) :
    ∃ reference object envelope, record.credential = some reference ∧ referenceIsValid config reference = true ∧
      lookup w.objects reference.key reference.version = some object ∧
      config.digest object.contents = reference.digest ∧ object.contents.value = .envelope envelope ∧
      envelopeMatchesSchema envelope = true ∧ envelope.scope = config.scope ∧ envelope.connection = config.key ∧
      envelope.authMethod = record.authMethod ∧
      envelope.expiresAt.map Stamp.instant = record.expiresAt.map Stamp.instant ∧
      envelope.credentials = material.credentials := by
  obtain ⟨⟨item, hread⟩, -, hmaterial⟩ := h
  obtain ⟨-, hcheck, -⟩ := returns_readRecord.1 hread
  cases hc : record.credential with
  | none =>
    unfold readMaterial at hmaterial
    rw [hc] at hmaterial
    exact absurd hmaterial returns_throw
  | some reference =>
    obtain ⟨object, hfound, hok, -⟩ := (returns_readMaterial reference hc).1 hmaterial
    obtain ⟨hdigest, envelope, hv, h1, h2, h3, h4, h5, rfl⟩ := checkMaterial_cases.1 hok
    exact ⟨reference, object, envelope, rfl, referenceIsValid_of_check hcheck hc, hfound, hdigest, hv, h1, h2, h3, h4, h5, rfl⟩

/-- **An exchange that ends without a result** leaves the credential readable exactly when its expiry is a whole number of
milliseconds. -/
theorem serves_after_finish (hreads : Reads C config i w record material)
    (hread : Returns (C := C) i (readRecord config) w (record, object) w)
    (hadmitted : Returns (C := C) i (admitRefresh config record object now) w admission w₁)
    (hsame : w₁'.objects = w₁.objects)
    (hfinish : Returns (C := C) i (finishExchange config admission' .ready) w₁' u w₂) :
    Serves C config i w₂ material.credentials ↔ isMillisecondExpiry record.expiresAt = true := by
  obtain ⟨reference, target, envelope, hcred, hvalid, hfound, hdigest, hobj, h1, h2, h3, hauth, hexp, hmat⟩ := hreads.elim
  obtain ⟨hhead, hcheck, -⟩ := returns_readRecord.1 hread
  obtain ⟨attemptID, invocationID, expiresAt, v, -, -, -, hp, -, -, hv, hvc, -, rfl⟩ :=
    (returns_admitRefresh hhead hcheck).1 hadmitted
  obtain ⟨head', record', expiresAt', v', hhead', hcheck', -, hp', hschema, hv', hvc', -, rfl⟩ :=
    returns_finishExchange.1 hfinish
  simp only [hsame] at hv' hhead' ⊢
  simp only [put_same, List.head?_cons, Option.some.injEq] at hhead'
  subst hhead'
  have hrec : record' = admittedRecord config record now attemptID invocationID expiresAt := by
    have := checkRecord_value hcheck'
    rw [hvc] at this
    cases this
    rfl
  subst hrec
  have hready : checkRecord config v' = .ok _ :=
    checkRecord_ready hv'.id_ne hv'.etag_ne hschema rfl rfl rfl hcred hvalid rfl hvc'
  have hfound' : lookup (put (put w.objects (headPath config.path) v) (headPath config.path) v') reference.key
      reference.version = some target :=
    lookup_put (lookup_put hfound (version_ne_of_valid hvalid) hv) (version_ne_of_valid hvalid) hv'
  rw [← hmat, serves_iff (w := ⟨put (put w.objects (headPath config.path) v) (headPath config.path) v', _, _⟩) (by simp) hready
    rfl hcred hauth.symm hfound' hdigest hobj h1 h2 h3, hexp]
  show expiresAt'.map _ = _ ↔ _
  rw [isoText_twice hp hp']
  exact isoText_instant_iff hp

/-- **An exchange abandoned past its deadline**, restored by an observer. -/
theorem serves_after_recovery (hreads : Reads C config i w record material)
    (hread : Returns (C := C) i (readRecord config) w (record, object) w)
    (hadmitted : Returns (C := C) i (admitRefresh config record object now) w admission w₁)
    (hsame : w₁'.objects = w₁.objects) (habsent : lookup w₁'.objects admission.resultKey "" = none) {pending : Record}
    {item : Version Text (Writer ι)} (hpending : Returns (C := C) i (readRecord config) w₁' (pending, item) w₁')
    (hrecover : Returns (C := C) i (recoverOrWait config pending) w₁' u w₂) {restored : Record}
    {head : Version Text (Writer ι)} (hhead : Returns (C := C) i (readRecord config) w₂ (restored, head) w₂)
    (hready : restored.status = .ready) :
    Serves C config i w₂ material.credentials ↔ isMillisecondExpiry record.expiresAt = true := by
  have hpend : pending.status = .refreshing ∧
      ∃ mutation, pending.mutation = some mutation ∧ mutation.resultKey = admission.resultKey := by
    obtain ⟨hobject, hcheck₀, -⟩ := returns_readRecord.1 hread
    obtain ⟨attemptID, invocationID, expiresAt, v, -, -, -, -, -, rfl, -, hvc, -, rfl⟩ :=
      (returns_admitRefresh hobject hcheck₀).1 hadmitted
    obtain ⟨hitem, hcheck, -⟩ := returns_readRecord.1 hpending
    simp only [hsame, put_same, List.head?_cons, Option.some.injEq] at hitem
    subst hitem
    have := checkRecord_value hcheck
    rw [hvc] at this
    cases this
    exact ⟨rfl, _, rfl, rfl⟩
  obtain ⟨hrefreshing, mutation, hm, hkey⟩ := hpend
  rcases returns_recoverOrWait hrefreshing hm (hkey ▸ habsent) hrecover with rfl | ⟨admission', hfinish⟩
  · -- the head is still pending
    obtain ⟨hi1, hc1, -⟩ := returns_readRecord.1 hhead
    obtain ⟨hi2, hc2, -⟩ := returns_readRecord.1 hpending
    rw [hi1] at hi2
    cases hi2
    rw [hc1] at hc2
    cases hc2
    rw [hready] at hrefreshing
    cases hrefreshing
  · exact serves_after_finish hreads hread hadmitted hsame hfinish

/-- **A published result** is readable exactly when its expiry is a whole number of milliseconds. -/
theorem serves_after_publish (hdigests : ∀ contents, isDigest (config.digest contents) = true) (hwf : Wf w.objects)
    (hread : Returns (C := C) i (readRecord config) w (record, object) w)
    (hadmitted : Returns (C := C) i (admitRefresh config record object now) w admission w₁) {result : Version Text (Writer ι)}
    {envelope : Envelope} (hresult : Fresh w₁.objects admission.resultKey result)
    (hsame : w₁'.objects = put w₁.objects admission.resultKey result)
    (henvelope : result.contents.value = .envelope envelope)
    (hpublish : Returns (C := C) i (publishResult config admission' admission.resultKey result) w₁' u w₂) :
    Serves C config i w₂ envelope.credentials ↔ isMillisecondExpiry envelope.expiresAt = true := by
  obtain ⟨hhead, hcheck, -⟩ := returns_readRecord.1 hread
  obtain ⟨attemptID, invocationID, expiresAt, v, -, -, -, hp, -, rfl, hv, hvc, -, rfl⟩ :=
    (returns_admitRefresh hhead hcheck).1 hadmitted
  have hother := headPath_ne_resultPath config.path attemptID
  obtain ⟨item, pending, hitem, hcheck'⟩ := pending_of_publish hpublish
  have hrec : pending = admittedRecord config record now attemptID invocationID expiresAt := by
    have hv' := hitem
    simp only [hsame, put_of_ne _ _ hother, put_same, List.head?_cons, Option.some.injEq] at hv'
    subst hv'
    have := checkRecord_value hcheck'
    rw [hvc] at this
    cases this
    rfl
  subst hrec
  obtain ⟨e, expiresAt', v', hcr, hp', hschema, hv', hvc', rfl⟩ := returns_publishResult hitem hcheck' rfl hpublish
  simp only [hsame] at hv' ⊢
  obtain ⟨hval, h1, h2, h3⟩ := checkResult_cases hcr
  rw [henvelope] at hval
  cases hval
  have hwf₁ : Wf (put (put w.objects (headPath config.path) v) (resultPath config.path attemptID) result) :=
    (hwf.put hv).put hresult
  have hid := hwf₁.lookup_id (resultPath config.path attemptID) (v := result) (by simp)
  have hfound := lookup_put hid hresult.id_ne hv'
  have hvalid : referenceIsValid config ⟨resultPath config.path attemptID, result.id, config.digest result.contents⟩ = true := by
    simp [referenceIsValid, isBelow_resultPath, hresult.id_ne, hdigests]
  have hready : checkRecord config v' = .ok _ :=
    checkRecord_ready hv'.id_ne hv'.etag_ne hschema rfl rfl rfl rfl hvalid rfl hvc'
  rw [serves_iff (w := ⟨put _ (headPath config.path) v', _, _⟩) (by simp) hready rfl rfl rfl hfound rfl henvelope h1 h2 h3]
  exact isoText_instant_iff hp'

end

/-- **A refresh that ends without a result**: the driver fails and the head is restored, or the exchange is abandoned and
an observer restores it.  Between the admission and its end the objects of the connection stay as they are. -/
def Restores (C : Type) (config : Config) (i : ι) (record : Record) (w w₂ : World ι) : Prop :=
  ∃ object now admission w₁ w₁', Returns (C := C) i (readRecord config) w (record, object) w ∧
    Returns (C := C) i (admitRefresh config record object now) w admission w₁ ∧ w₁'.objects = w₁.objects ∧
    (Returns (C := C) i (finishExchange config admission .ready) w₁' () w₂ ∨
    (lookup w₁'.objects admission.resultKey "" = none ∧
      ∃ pending item restored head, Returns (C := C) i (readRecord config) w₁' (pending, item) w₁' ∧
        Returns (C := C) i (recoverOrWait config pending) w₁' () w₂ ∧
        Returns (C := C) i (readRecord config) w₂ (restored, head) w₂ ∧ restored.status = .ready))

/-- **A refresh whose result is published**: an object with this envelope is written under the result key, by anyone. -/
def Publishes (C : Type) (config : Config) (i : ι) (record : Record) (envelope : Envelope) (w w₂ : World ι) : Prop :=
  ∃ object now admission admission' w₁ w₁' result, Returns (C := C) i (readRecord config) w (record, object) w ∧
    Returns (C := C) i (admitRefresh config record object now) w admission w₁ ∧
    Fresh w₁.objects admission.resultKey result ∧ w₁'.objects = put w₁.objects admission.resultKey result ∧
    result.contents.value = .envelope envelope ∧
    Returns (C := C) i (publishResult config admission' admission.resultKey result) w₁' () w₂

end ProviderTS

namespace Provider

open Lib Lib.Rfc3339 Lib.Store Wire

variable {ι : Type}

/-- **A refresh that ends without a result**: the driver fails and the head is restored, or the exchange is abandoned and
an observer restores it.  Between the admission and its end the objects of the connection stay as they are. -/
def Restores (C : Type) (config : Config) (i : ι) (record : Record) (w w₂ : World ι) : Prop :=
  ∃ now admission w₁ w₁', Returns (C := C) i (admitRefresh config record now) w admission w₁ ∧ w₁'.objects = w₁.objects ∧
    (Returns (C := C) i (finishExchange config admission .ready) w₁' () w₂ ∨
    (lookup w₁'.objects admission.resultKey "" = none ∧
      ∃ pending item restored head, Returns (C := C) i (readRecord config) w₁' (pending, item) w₁' ∧
        Returns (C := C) i (recoverOrWait config pending) w₁' () w₂ ∧
        Returns (C := C) i (readRecord config) w₂ (restored, head) w₂ ∧ restored.status = .ready))

/-- **A refresh whose result is published**: an object with this envelope is written under the result key, by anyone. -/
def Publishes (C : Type) (config : Config) (i : ι) (record : Record) (envelope : Envelope) (w w₂ : World ι) : Prop :=
  ∃ now admission admission' w₁ w₁' result, Returns (C := C) i (admitRefresh config record now) w admission w₁ ∧
    Fresh w₁.objects admission.resultKey result ∧ w₁'.objects = put w₁.objects admission.resultKey result ∧
    result.contents.value = .envelope envelope ∧
    Returns (C := C) i (publishResult config admission' admission.resultKey result) w₁' () w₂

variable {C : Type} {config : Config} {i : ι} {w : World ι}

/-- **The stored expiry decides whether a refresh keeps the credential readable.**  From every head the provider reads,
after every refresh that ends without a result the head serves the same credentials as before, and after every refresh
whose result is published it serves the result's, exactly when the expiry text is the one Python's formatter writes, and
in the TypeScript provider exactly when the expiry is a whole number of milliseconds. -/
theorem expiry_kept_iff (hdigests : ∀ contents, isDigest (config.digest contents) = true) (hwf : Wf w.objects) :
    (∀ record material w₂, Reads C config i w record material → Restores C config i record w w₂ →
      (Serves C config i w₂ material.credentials ↔ isCanonicalExpiry record.expiresAt = true)) ∧
    (∀ record material envelope w₂, Reads C config i w record material → Publishes C config i record envelope w w₂ →
      (Serves C config i w₂ envelope.credentials ↔ isCanonicalExpiry envelope.expiresAt = true)) ∧
    (∀ record material w₂, ProviderTS.Reads C config i w record material → ProviderTS.Restores C config i record w w₂ →
      (ProviderTS.Serves C config i w₂ material.credentials ↔ ProviderTS.isMillisecondExpiry record.expiresAt = true)) ∧
    (∀ record material envelope w₂, ProviderTS.Reads C config i w record material →
      ProviderTS.Publishes C config i record envelope w w₂ →
      (ProviderTS.Serves C config i w₂ envelope.credentials ↔
        ProviderTS.isMillisecondExpiry envelope.expiresAt = true)) := by
  refine ⟨?_, ?_, ?_, ?_⟩
  · rintro record material w₂ hreads ⟨now, admission, w₁, w₁', hadmitted, hsame, hfinish | ⟨habsent, hrecover⟩⟩
    · exact serves_after_finish hreads hadmitted hsame hfinish
    · obtain ⟨pending, item, restored, head, hpending, hrec, hhead, hready⟩ := hrecover
      exact serves_after_recovery hreads hadmitted hsame habsent hpending hrec hhead hready
  · rintro record material envelope w₂ - ⟨now, admission, admission', w₁, w₁', result, hadmitted, hfresh, hsame, hval, hpublish⟩
    exact serves_after_publish hdigests hwf hadmitted hfresh hsame hval hpublish
  · rintro record material w₂ hreads ⟨object, now, admission, w₁, w₁', hread, hadmitted, hsame, hfinish | ⟨habsent, hrecover⟩⟩
    · exact ProviderTS.serves_after_finish hreads hread hadmitted hsame hfinish
    · obtain ⟨pending, item, restored, head, hpending, hrec, hhead, hready⟩ := hrecover
      exact ProviderTS.serves_after_recovery hreads hread hadmitted hsame habsent hpending hrec hhead hready
  · rintro record material envelope w₂ - ⟨object, now, admission, admission', w₁, w₁', result, hread, hadmitted, hfresh, hsame,
      hval, hpublish⟩
    exact ProviderTS.serves_after_publish hdigests hwf hread hadmitted hfresh hsame hval hpublish

/-! ## A connection with a given expiry -/

/-- **The Python provider reads the connection and restores it after a failed refresh.** -/
theorem sample_restores (stamp : Stamp) {time time' : DateTime} (h : fromisoformat stamp = some time)
    (h' : fromisoformat time.format = some time') :
    Reads Unit sampleConfig () (sampleWorld stamp) (sampleHead stamp) ⟨"token", some (.moment time), "oauth2"⟩ ∧
      ∃ w₂, Restores Unit sampleConfig () (sampleHead stamp) (sampleWorld stamp) w₂ := by
  obtain ⟨w₂, hfinish, -⟩ := sample_finishes (C := Unit) stamp time h' []
  exact ⟨⟨⟨_, returns_readRecord.2 ⟨sample_head stamp, sample_check stamp, rfl⟩⟩, rfl, sample_readMaterial h⟩,
    w₂, 0, sampleAdmission, _, _, sample_admits h, rfl, .inl hfinish⟩

/-- The version the TypeScript provider writes to admit a refresh. -/
def sampleAdmittedTS (stamp : Stamp) (ms : Int) : Version Text (Writer Unit) :=
  sampleVersion "2" (ProviderTS.admittedRecord sampleConfig (sampleHead stamp) 0 "attempt" "invocation" (some (toISOString ms)))
    .admission

theorem isNano_toISOString (ms : Int) : ProviderTS.isNano (toISOString ms) = true := rfl

/-- **The TypeScript provider reads the connection and restores it after a failed refresh.** -/
theorem sample_restoresTS (stamp : Stamp) {ms : Int} (hnano : ProviderTS.isNano stamp = true) (h : stamp.date = some ms)
    (hyear : isFourDigitYear ms = true) :
    ProviderTS.Reads Unit sampleConfig () (sampleWorld stamp) (sampleHead stamp) ⟨"token", some (some ms), "oauth2"⟩ ∧
      ∃ w₂, ProviderTS.Restores Unit sampleConfig () (sampleHead stamp) (sampleWorld stamp) w₂ := by
  have hreference : referenceIsValid sampleConfig sampleReference = true := by decide
  have hhead : ((sampleWorld stamp).objects (headPath sampleConfig.path)).head? = _ := sample_head stamp
  have hcheck : ProviderTS.checkRecord sampleConfig
      (⟨"1", "a", dumps (.head (sampleHead stamp)), .base⟩ : Version Text (Writer Unit)) = .ok (sampleHead stamp) := by
    simp [ProviderTS.checkRecord, dumps, sampleHead, ProviderTS.recordMatchesSchema, hnano, hreference]
  have hread := ProviderTS.returns_readRecord (C := Unit) (i := ()) (w := sampleWorld stamp) |>.2 ⟨hhead, hcheck, rfl⟩
  have hiso : ProviderTS.isoText (ProviderTS.parseExpiry (sampleHead stamp).expiresAt) = .ok (some (toISOString ms)) := by
    simp [sampleHead, ProviderTS.parseExpiry, ProviderTS.isoText, h, hyear]
  have hiso' : ProviderTS.isoText (ProviderTS.parseExpiry (some (toISOString ms))) = .ok (some (toISOString ms)) := by
    simp [ProviderTS.parseExpiry, ProviderTS.isoText, date_toISOString, hyear]
  have hcheckAdmitted : ProviderTS.checkRecord sampleConfig (sampleAdmittedTS stamp ms) =
      .ok (ProviderTS.admittedRecord sampleConfig (sampleHead stamp) 0 "attempt" "invocation" (some (toISOString ms))) := by
    have hattempt : isAttemptID "attempt" = true := by decide
    simp [ProviderTS.checkRecord, sampleAdmittedTS, sampleVersion, dumps, ProviderTS.admittedRecord, sampleHead, hreference,
      ProviderTS.mutationIsValid, hattempt, ProviderTS.recordMatchesSchema, isNano_toISOString]
  refine ⟨⟨⟨_, hread⟩, rfl, ?_⟩, ?_⟩
  · refine (ProviderTS.returns_readMaterial sampleReference rfl).2
      ⟨⟨"1", "a", dumps (.envelope (sampleEnvelope stamp)), .base⟩, ?_, ?_, rfl⟩
    · show lookup (sampleObjects stamp) _ _ = _
      unfold lookup
      rw [if_neg (by decide), sampleObjects_reference]
      rfl
    · refine ProviderTS.checkMaterial_cases.2 ⟨rfl, sampleEnvelope stamp, rfl, ?_, rfl, rfl, rfl, rfl, ?_⟩
      · simp [ProviderTS.envelopeMatchesSchema, sampleEnvelope, hnano]
      · simp [sampleEnvelope, ProviderTS.parseExpiry, h]
  · have hadmitted : Returns (C := Unit) () (ProviderTS.admitRefresh sampleConfig (sampleHead stamp) _ 0) (sampleWorld stamp) _ _ :=
      (ProviderTS.returns_admitRefresh hhead hcheck).2
        ⟨"attempt", "invocation", _, sampleAdmittedTS stamp ms, sample_freshToken stamp [] "attempt" (by simp),
          sample_freshToken stamp _ "invocation" (by simp [sampleWorld]), by decide, hiso, rfl, rfl,
          sample_fresh stamp (by decide) _ _, rfl, rfl, rfl⟩
    have hfinish : Returns (C := Unit) () (ProviderTS.finishExchange sampleConfig
        ⟨.refreshing, "attempt", 2, 40000, resultPath sampleConfig.path "attempt"⟩ .ready)
        ⟨put (sampleObjects stamp) (headPath sampleConfig.path) (sampleAdmittedTS stamp ms),
          [("invocation", ()), ("attempt", ())], []⟩ () _ :=
      ProviderTS.returns_finishExchange.2 ⟨sampleAdmittedTS stamp ms, _, some (toISOString ms), sampleVersion "3" _ _,
        congrArg List.head? (put_same (sampleObjects stamp) (headPath sampleConfig.path) (sampleAdmittedTS stamp ms)),
        hcheckAdmitted, rfl, hiso', rfl,
        sample_fresh_again (sample_fresh stamp (by decide) _ _) (show "3" ≠ "2" by decide) (show "3" ≠ "2" by decide),
        rfl, rfl, rfl⟩
    exact ⟨_, _, 0, _, _, _, hread, hadmitted, rfl, .inl hfinish⟩

theorem sample_digests (contents : Text) : isDigest (sampleConfig.digest contents) = true := by
  have : isDigest (sampleConfig.digest (dumps .other)) = true := by decide
  exact this

/-- 2023-11-14T22:13:20.5Z, kept by both providers. -/
theorem expiry_kept_iff_tenth :
    (∃ w₂, Restores Unit sampleConfig () (sampleHead ⟨1700000000, [5], .utc⟩) (sampleWorld ⟨1700000000, [5], .utc⟩) w₂ ∧
      Serves Unit sampleConfig () w₂ "token") ∧
    ∃ w₂, ProviderTS.Restores Unit sampleConfig () (sampleHead ⟨1700000000, [5], .utc⟩)
      (sampleWorld ⟨1700000000, [5], .utc⟩) w₂ ∧ ProviderTS.Serves Unit sampleConfig () w₂ "token" := by
  have hkept := expiry_kept_iff (C := Unit) (i := ()) (w := sampleWorld ⟨1700000000, [5], .utc⟩)
    sample_digests (sampleObjects_wf _)
  obtain ⟨hreads, w₂, hrestores⟩ := sample_restores ⟨1700000000, [5], .utc⟩ rfl rfl
  obtain ⟨hreads', w₂', hrestores'⟩ := sample_restoresTS ⟨1700000000, [5], .utc⟩ (by decide) rfl (by decide)
  exact ⟨⟨w₂, hrestores, (hkept.1 _ _ _ hreads hrestores).2 (by decide)⟩,
    w₂', hrestores', (hkept.2.2.1 _ _ _ hreads' hrestores').2 (by decide)⟩

/-- 2023-11-14T22:13:20.1234567Z: the seventh digit of a readable expiry is lost, and the credential with it. -/
theorem expiry_lost_seventh_digit :
    (∃ w₂, Reads Unit sampleConfig () (sampleWorld ⟨1700000000, [1, 2, 3, 4, 5, 6, 7], .utc⟩)
        (sampleHead ⟨1700000000, [1, 2, 3, 4, 5, 6, 7], .utc⟩)
        ⟨"token", some (.moment ⟨1700000000, [1, 2, 3, 4, 5, 6], 0⟩), "oauth2"⟩ ∧
      Restores Unit sampleConfig () (sampleHead ⟨1700000000, [1, 2, 3, 4, 5, 6, 7], .utc⟩)
        (sampleWorld ⟨1700000000, [1, 2, 3, 4, 5, 6, 7], .utc⟩) w₂ ∧ ¬Serves Unit sampleConfig () w₂ "token") ∧
    ∃ w₂, ProviderTS.Reads Unit sampleConfig () (sampleWorld ⟨1700000000, [1, 2, 3, 4, 5, 6, 7], .utc⟩)
        (sampleHead ⟨1700000000, [1, 2, 3, 4, 5, 6, 7], .utc⟩) ⟨"token", some (some 1700000000123), "oauth2"⟩ ∧
      ProviderTS.Restores Unit sampleConfig () (sampleHead ⟨1700000000, [1, 2, 3, 4, 5, 6, 7], .utc⟩)
        (sampleWorld ⟨1700000000, [1, 2, 3, 4, 5, 6, 7], .utc⟩) w₂ ∧
      ¬ProviderTS.Serves Unit sampleConfig () w₂ "token" := by
  obtain ⟨hreads, w₂, now, admission, w₁, w₁', hadmitted, hsame, hend⟩ :=
    sample_restores ⟨1700000000, [1, 2, 3, 4, 5, 6, 7], .utc⟩ rfl rfl
  obtain ⟨hreads', w₂', object, now', admission', w₃, w₃', hread', hadmitted', hsame', hend'⟩ :=
    sample_restoresTS ⟨1700000000, [1, 2, 3, 4, 5, 6, 7], .utc⟩ (by decide) rfl (by decide)
  refine ⟨⟨w₂, hreads, ⟨now, admission, w₁, w₁', hadmitted, hsame, hend⟩, ?_⟩, w₂', hreads',
    ⟨object, now', admission', w₃, w₃', hread', hadmitted', hsame', hend'⟩, ?_⟩
  · rcases hend with hfinish | ⟨habsent, pending, item, restored, head, hpending, hrecover, hhead, hready⟩
    · rw [serves_after_finish hreads hadmitted hsame hfinish]
      decide
    · rw [serves_after_recovery hreads hadmitted hsame habsent hpending hrecover hhead hready]
      decide
  · rcases hend' with hfinish | ⟨habsent, pending, item, restored, head, hpending, hrecover, hhead, hready⟩
    · rw [ProviderTS.serves_after_finish hreads' hread' hadmitted' hsame' hfinish]
      decide
    · rw [ProviderTS.serves_after_recovery hreads' hread' hadmitted' hsame' habsent hpending hrecover hhead hready]
      decide

end Provider
end Dex
