import DexConnectors.ConnectionGoHead
/-!
# ConnectionGoOnce — one dispatch for a fence, and no stale publication, in the Go connection store

Each method keeps the invariant of the head, and says of the head what it has learned: which version was the newest at some
time while it ran (`Newest`).  An invocation of `beginExchange` that may dispatch has its own version of the head; a commit
or a recovery that succeeds has seen the result of its own exchange published, or has ended the exchange itself.
-/
namespace Dex
namespace Connections

open Lib Lib.Store Lib.Method
open Operation (Time)

variable {C ι α β : Type} {config : Config} {i : ι} {w : World ι}

/-- The version was the newest head at some time between two states. -/
def Newest (config : Config) (w w' : World ι) (v : Version Contents (Writer ι)) : Prop :=
  ∃ rest, v :: rest <:+ w'.objects (connectionHeadPath config.path) ∧ w.objects (connectionHeadPath config.path) <:+ v :: rest

theorem Newest.mem {w' : World ι} {v : Version Contents (Writer ι)} (h : Newest config w w' v) :
    v ∈ w'.objects (connectionHeadPath config.path) := by
  obtain ⟨rest, hv, -⟩ := h
  exact hv.subset List.mem_cons_self

theorem Newest.grows {w₀ w' w'' : World ι} {v : Version Contents (Writer ι)} (h : Newest config w w' v)
    (h₀ : Grows w₀.objects w.objects) (h' : Grows w'.objects w''.objects) : Newest config w₀ w'' v := by
  obtain ⟨rest, hv, hw⟩ := h
  exact ⟨rest, hv.trans (h' _), (h₀ _).trans hw⟩

/-- The record to change and its tag are those of a version of the head, or of none. -/
def Updatable (config : Config) (record : ConnectionRecord Time) (etag : String) (w : World ι) : Prop :=
  (etag = "" ∧ record = newRecord config) ∨
    ∃ item ∈ w.objects (connectionHeadPath config.path), item.etag = etag ∧ checkRecord config item = .ok record

theorem Updatable.rely {record : ConnectionRecord Time} {etag : String} {w' : World ι} (h : Updatable config record etag w)
    (hr : Rely i w w') : Updatable config record etag w' := by
  rcases h with h | ⟨item, hitem, h⟩
  · exact .inl h
  · exact .inr ⟨item, hr.objects.mem hitem, h⟩

/-! ## Operations -/

/-- What caller `i` leaves to itself by an operation other than a grant or a refresh. -/
theorem step_rely {o : Op C} {w w' : World ι} {a : Ans C (Writer ι) o} (hs : step i o w a w')
    (hgrant : ∀ x f, o ≠ .grant x f) (hrefresh : ∀ f, o ≠ .refresh f) : Rely i w w' := by
  cases o with
  | read key version =>
    obtain ⟨-, rfl⟩ := hs
    exact Rely.refl i _
  | nowAnd later =>
    obtain ⟨-, rfl⟩ := hs
    exact Rely.refl i _
  | now | contextErr | wait | refreshRequired =>
    rw [show w' = w from hs]
    exact Rely.refl i _
  | swap key etag contents op =>
    obtain ⟨s, ⟨-, v, -, -, -, rfl, -⟩ | ⟨rfl, -⟩, rfl⟩ := hs
    · exact rely_put w _ v
    · exact Rely.refl i _
  | create key contents op =>
    obtain ⟨s, ⟨-, v, -, -, -, rfl, -⟩ | ⟨rfl, -⟩, rfl⟩ := hs
    · exact rely_put w _ v
    · exact Rely.refl i _
  | newAttemptID =>
    cases a with
    | none =>
      rw [show w' = w from hs]
      exact Rely.refl i _
    | some id =>
      obtain ⟨-, rfl⟩ := hs
      exact ⟨Grows.refl _, fun x hx => List.mem_cons_of_mem _ hx, fun _ _ => Iff.rfl, fun _ => Iff.rfl⟩
  | grant x f => exact absurd rfl (hgrant x f)
  | refresh f => exact absurd rfl (hrefresh f)

/-- A method that caller `i` may run from `w`: what it returns satisfies `Q`. -/
abbrev Keeps (config : Config) (i : ι) (Q : α → World ι → Prop) (m : M C (Writer ι) α) (w : World ι) : Prop :=
  Ensures (protocol config) i Q m w

theorem keeps_act {o : Op C} {Q : Ans C (Writer ι) o → World ι → Prop} (hgrant : ∀ x f, o ≠ .grant x f)
    (hrefresh : ∀ f, o ≠ .refresh f) (hpre : ∀ w', Rely i w w' → Inv config w' → Pre config i o w')
    (hpost : ∀ w₁ a w₂ w₃, Rely i w w₁ → Inv config w₁ → step i o w₁ a w₂ → Rely i w₂ w₃ → Q a w₃) :
    Keeps config i Q (act o) w := by
  refine ensures_act (fun w₁ a w₂ hr hi hs => ?_) (fun w₁ a w₂ w₃ hr hi hs hr₃ _ => hpost w₁ a w₂ w₃ hr hi hs hr₃)
  obtain ⟨hinv, hguar⟩ := step_safe hs hi (hpre w₁ hr hi)
  exact ⟨hinv, hguar, step_rely hs hgrant hrefresh⟩

/-- An operation that needs nothing and whose answer says nothing. -/
theorem keeps_any {o : Op C} (hgrant : ∀ x f, o ≠ .grant x f) (hrefresh : ∀ f, o ≠ .refresh f)
    (hpre : ∀ w', Pre config i o w') : Keeps config i (fun _ _ => True) (act o) w :=
  keeps_act hgrant hrefresh (fun w' _ _ => hpre w') (fun _ _ _ _ _ _ _ _ => trivial)

theorem keeps_now : Keeps (C := C) config i (fun _ _ => True) (act .now) w :=
  keeps_any (fun _ _ h => by cases h) (fun _ h => by cases h) (fun _ => trivial)

theorem keeps_orRaise {r : Except Err α} : Keeps (C := C) config i (fun a _ => r = .ok a) (orRaise r) w :=
  ensures_orRaise (fun _ _ h _ _ => h)

/-- **An identity is drawn once**, and nothing was granted for it. -/
theorem keeps_newAttemptID :
    Keeps (C := C) config i (fun (drawn : Option String) w' => ∀ id, drawn = some id → (id, i) ∈ w'.issued ∧
      ∀ f, (i, id, f) ∉ w'.granted) (act .newAttemptID) w := by
  refine keeps_act (fun _ _ h => by cases h) (fun _ h => by cases h) (fun _ _ _ => trivial) ?_
  rintro w₁ drawn w₂ w₃ - hi hs hr₃ id rfl
  obtain ⟨⟨-, hcar⟩, rfl⟩ := hs
  refine ⟨hr₃.issued _ List.mem_cons_self, fun f hf => ?_⟩
  obtain ⟨v, hv, -, record, m, hrec, -, hm, hid⟩ := hi.granted i id f ((hr₃.granted id f).1 hf)
  exact hcar _ v hv record m hrec hm hid

/-- What a read of an object says. -/
theorem keeps_read (key version : String) :
    Keeps (C := C) config i (fun (answer : ReadAnswer Contents (Writer ι)) w' => ∀ item, answer = .found item →
      item ∈ w'.objects key ∧ (version ≠ "" → item.id = version) ∧
      (key = connectionHeadPath config.path → version = "" → Newest config w w' item)) (act (.read key version)) w := by
  refine keeps_act (fun _ _ h => by cases h) (fun _ h => by cases h) (fun _ _ _ => trivial) ?_
  rintro w₁ answer w₂ w₃ hr₁ - ⟨hread, rfl⟩ hr₃ item rfl
  refine ⟨hr₃.objects.mem (mem_of_lookup hread), fun hversion => ?_, ?_⟩
  · have hfind : lookup w₂.objects key version = some item := hread
    unfold lookup at hfind
    rw [if_neg hversion] at hfind
    simpa using List.find?_some hfind
  · rintro rfl rfl
    have hhead : (w₂.objects (connectionHeadPath config.path)).head? = some item := hread
    cases hobjects : w₂.objects (connectionHeadPath config.path) with
    | nil =>
      rw [hobjects] at hhead
      cases hhead
    | cons v rest =>
      rw [hobjects] at hhead
      cases hhead
      refine ⟨rest, ?_, ?_⟩
      · rw [← hobjects]
        exact hr₃.objects _
      · rw [← hobjects]
        exact hr₁.objects _

theorem keeps_readObject (key version : String) (hinv : Inv config w) :
    Keeps (C := C) config i (fun item w' => item ∈ w'.objects key ∧ (version ≠ "" → item.id = version) ∧
      (key = connectionHeadPath config.path → version = "" → Newest config w w' item)) (readObject key version) w := by
  refine (keeps_read key version).seq (fun answer w' hr hi hans => ?_) hinv
  cases answer with
  | found item =>
    obtain ⟨hitem, hversion, hnewest⟩ := hans item rfl
    exact ensures_pure (fun w'' hr' _ => ⟨hr'.objects.mem hitem, hversion,
      fun hkey hv => (hnewest hkey hv).grows (Grows.refl _) hr'.objects⟩)
  | absent => exact ensures_throw
  | failed => exact ensures_throw

/-- The head was read and passed the check. -/
theorem keeps_readRecord (hinv : Inv config w) :
    Keeps (C := C) config i (fun found w' => Newest config w w' found.2 ∧ checkRecord config found.2 = .ok found.1)
      (readRecord config) w := by
  refine (keeps_readObject _ _ hinv).seq (fun item w' hr hi hitem => ?_) hinv
  refine keeps_orRaise.seq (fun record w'' hr' _ hrec => ensures_pure (fun w₃ hr₃ _ => ?_)) hi
  exact ⟨(hitem.2.2 rfl rfl).grows (Grows.refl _) (hr'.trans i hr₃).objects, hrec⟩

/-- After a write in doubt the object has the contents. -/
theorem keeps_observeObject {key : String} {contents : Contents} {failure : Err} (hinv : Inv config w) :
    Keeps (C := C) config i (fun item w' => item ∈ w'.objects key ∧ item.contents = contents ∧
      (key = connectionHeadPath config.path → Newest config w w' item)) (observeObject key contents failure) w := by
  refine (keeps_read key "").seq (fun answer w' hr hi hans => ?_) hinv
  cases answer with
  | found item =>
    obtain ⟨hitem, -, hnewest⟩ := hans item rfl
    show Ensures _ _ _ (if item.contents = contents then _ else _) w'
    split
    · rename_i hc
      exact ensures_pure (fun w'' hr' _ => ⟨hr'.objects.mem hitem, hc,
        fun hkey => (hnewest hkey rfl).grows (Grows.refl _) hr'.objects⟩)
    · exact ensures_throw
  | absent => exact ensures_throw
  | failed => exact ensures_throw

/-! ## Head writes -/

theorem keeps_settle {w₀ : World ι} {contents : Contents} {answer : WriteAnswer Contents (Writer ι)} (hinv : Inv config w)
    (hg : Grows w₀.objects w.objects) (h : ∀ v, answer = .applied v → Newest config w₀ w v ∧ v.contents = contents) :
    Keeps (C := C) config i (fun v w' => Newest config w₀ w' v ∧ v.contents = contents) (settle config contents answer) w := by
  cases answer with
  | applied v =>
    exact ensures_pure (fun w' hr _ => ⟨(h v rfl).1.grows (Grows.refl _) hr.objects, (h v rfl).2⟩)
  | conflict => exact ensures_throw
  | failed => exact ensures_throw
  | unknown =>
    refine (keeps_observeObject hinv).mono ?_
    rintro v w' ⟨-, hc, hnewest⟩
    exact ⟨(hnewest rfl).grows hg (Grows.refl _), hc⟩

/-- A version put on top of the head is the newest. -/
theorem newest_put {w₁ w₃ : World ι} {v : Version Contents (Writer ι)} (hr₁ : Rely i w w₁)
    (hr₃ : Rely i { w₁ with objects := put w₁.objects (connectionHeadPath config.path) v } w₃) : Newest config w w₃ v := by
  have hgrows := hr₃.objects (connectionHeadPath config.path)
  simp only [put_same] at hgrows
  exact ⟨_, hgrows, (hr₁.objects _).trans (List.suffix_cons v _)⟩

/-- A conditional write that reports success has added its version. -/
theorem keeps_writeContents {op : HeadOp} {old new : ConnectionRecord Time} {contents : Contents} {etag : String}
    (hupdatable : Updatable config old etag w) (hc : marshalRecord new = some contents) (hmay : MayWrite config i op old new w) :
    Keeps (C := C) config i (fun answer w' => ∀ v, answer = .applied v → Newest config w w' v ∧ v.contents = contents)
      (writeContents config op contents etag) w := by
  have hanswer : ∀ {s s' : World ι} {a : WriteAnswer Contents (Writer ι)} {v : Version Contents (Writer ι)},
      Refuses s.objects a s'.objects → a ≠ .applied v := by
    rintro s s' a v ⟨-, ha⟩ rfl
    rcases ha with ha | ha | ha <;> cases ha
  unfold writeContents
  split
  · rename_i hetag
    have hold : old = newRecord config := by
      rcases hupdatable with ⟨-, h⟩ | ⟨item, -, he, hcheck⟩
      · exact h
      · exact absurd (he.trans hetag) (checkRecord_ok hcheck).2.2.2.2.2.2.2.1
    subst hold
    refine keeps_act (fun _ _ h => by cases h) (fun _ h => by cases h)
      (fun w' hr _ => .inr ⟨new, hc, hmay.rely hr⟩) ?_
    rintro w₁ answer w₂ w₃ hr₁ - ⟨s, hcreate, rfl⟩ hr₃ v rfl
    rcases hcreate with ⟨-, u, -, huc, -, rfl, ha⟩ | hrefuses
    · rcases ha with ha | ha
      · cases ha
        exact ⟨newest_put hr₁ hr₃, huc⟩
      · cases ha
    · exact absurd rfl (@hanswer w₁ { w₁ with objects := s } _ _ hrefuses)
  · rename_i hetag
    obtain ⟨item, hitem, he, hcheck⟩ := hupdatable.resolve_left (fun h => hetag h.1)
    refine keeps_act (fun _ _ h => by cases h) (fun _ h => by cases h)
      (fun w' hr _ => ⟨rfl, item, hr.objects.mem hitem, he, old, new, hcheck, hc, hmay.rely hr⟩) ?_
    rintro w₁ answer w₂ w₃ hr₁ - ⟨s, hswap, rfl⟩ hr₃ v rfl
    rcases hswap with ⟨-, u, -, huc, -, rfl, ha⟩ | hrefuses
    · rcases ha with ha | ha
      · cases ha
        exact ⟨newest_put hr₁ hr₃, huc⟩
      · cases ha
    · exact absurd rfl (@hanswer w₁ { w₁ with objects := s } _ _ hrefuses)

/-- **`writeRecord` that succeeds has the record written.** -/
theorem keeps_writeRecord {op : HeadOp} {old new : ConnectionRecord Time} {etag : String} (hinv : Inv config w)
    (hupdatable : Updatable config old etag w) (hmay : MayWrite config i op old new w) :
    Keeps (C := C) config i (fun v w' => Newest config w w' v ∧ marshalRecord new = some v.contents)
      (writeRecord config op new etag) w := by
  unfold writeRecord
  split
  · exact ensures_throw
  · rename_i contents hc
    refine (keeps_writeContents hupdatable hc hmay).seq (fun answer w' hr hi hans => ?_) hinv
    refine (keeps_settle hi hr.objects hans).mono ?_
    rintro v w'' ⟨hv, rfl⟩
    exact ⟨hv, hc⟩

/-! ## Immutable objects -/

theorem keeps_createObject {key : String} (hkey : key ≠ connectionHeadPath config.path) (contents : Contents)
    (hinv : Inv config w) :
    Keeps (C := C) config i (fun item w' => item ∈ w'.objects key ∧ item.contents = contents) (createObject key contents) w := by
  have hcreate : Keeps (C := C) config i (fun (answer : WriteAnswer Contents (Writer ι)) w' => ∀ v, answer = .applied v →
      v ∈ w'.objects key ∧ v.contents = contents) (act (.create key contents .object)) w := by
    refine keeps_act (fun _ _ h => by cases h) (fun _ h => by cases h) (fun _ _ _ => .inl hkey) ?_
    rintro w₁ answer w₂ w₃ - - ⟨s, hcreate, rfl⟩ hr₃ v rfl
    rcases hcreate with ⟨-, u, -, hc, -, rfl, ha⟩ | ⟨-, ha⟩
    · rcases ha with ha | ha
      · cases ha
        exact ⟨hr₃.objects.mem (by simp), hc⟩
      · cases ha
    · rcases ha with ha | ha | ha <;> cases ha
  refine hcreate.seq (fun answer w' hr hi hans => ?_) hinv
  have hobserve : ∀ failure, Keeps (C := C) config i (fun item w'' => item ∈ w''.objects key ∧ item.contents = contents)
      (observeObject key contents failure) w' :=
    fun failure => (keeps_observeObject hi).mono (fun _ _ h => ⟨h.1, h.2.1⟩)
  cases answer with
  | applied v => exact ensures_pure (fun w'' hr' _ => ⟨hr'.objects.mem (hans v rfl).1, (hans v rfl).2⟩)
  | failed => exact ensures_throw
  | conflict => exact hobserve _
  | unknown => exact hobserve _

/-- The reference is to an object with the contents. -/
theorem keeps_createImmutable {key : String} (hkey : key ≠ connectionHeadPath config.path) (contents : Contents)
    (hinv : Inv config w) :
    Keeps (C := C) config i (fun reference w' => reference.key = key ∧ reference.digest = config.digest contents ∧
      ∃ item ∈ w'.objects key, item.id = reference.version ∧ item.contents = contents) (createImmutable config key contents) w := by
  refine (keeps_createObject hkey contents hinv).seq (fun item w' hr hi hitem => ?_) hinv
  split
  · exact ensures_throw
  · exact ensures_pure (fun w'' hr' _ => ⟨rfl, rfl, item, hr'.objects.mem hitem.1, rfl, hitem.2⟩)

theorem keeps_readMaterial {record : ConnectionRecord Time} (hinv : Inv config w) :
    Keeps (C := C) config i (fun _ _ => True) (readMaterial config record) w := by
  unfold readMaterial
  split
  · exact ensures_throw
  · exact (keeps_readObject _ _ hinv).seq (fun _ _ _ _ _ => keeps_orRaise.mono (fun _ _ _ => trivial)) hinv

/-! ## `connections.go` -/

theorem keeps_readPrior {canCreate : Bool} (hinv : Inv config w) :
    Keeps (C := C) config i (fun prior w' => Updatable config prior.1 prior.2 w') (readPrior config canCreate) w := by
  refine (keeps_readRecord hinv).attempt.seq (fun answer w' _ _ hans => ?_) hinv
  cases answer with
  | ok found =>
    obtain ⟨hnewest, hcheck⟩ := hans found rfl
    exact ensures_pure (fun w'' hr' _ => .inr ⟨found.2, hr'.objects.mem hnewest.mem, rfl, hcheck⟩)
  | error err =>
    show Ensures _ _ _ (if err = .objectNotFound ∧ canCreate = true then _ else _) w'
    split
    · exact ensures_pure (fun _ _ _ => .inl ⟨rfl, rfl⟩)
    · exact ensures_throw

theorem keeps_replaceCredential {expectedRevision : UInt64} {material : CredentialMaterial} (hinv : Inv config w) :
    Keeps (C := C) config i (fun _ _ => True) (replaceCredential config expectedRevision material) w := by
  unfold replaceCredential
  split
  · exact ensures_throw
  refine (keeps_readPrior hinv).seq (fun prior w₁ _ hi₁ hprior => ?_) hinv
  obtain ⟨record, etag⟩ := prior
  show Ensures _ _ _ (if record.revision ≠ expectedRevision then _ else _) w₁
  split
  · exact ensures_throw
  split
  · exact ensures_throw
  · rename_i contents _
    refine (keeps_createImmutable (Wire.headPath_ne_credentialPath _ _).symm contents hi₁).seq (fun reference w₂ hr₂ hi₂ _ => ?_) hi₁
    have hmay : MayWrite config i .replace record (replacedRecord record material reference) w₂ :=
      ⟨⟨rfl, rfl, rfl⟩, fun _ hm => (by cases hm), fun _ _ h => (by cases h)⟩
    exact (keeps_writeRecord hi₂ (hprior.rely hr₂) hmay).seq (fun _ _ _ _ _ => ensures_pure (fun _ _ _ => trivial)) hi₂

theorem keeps_revokeConnection {expectedRevision : UInt64} (hinv : Inv config w) :
    Keeps (C := C) config i (fun _ _ => True) (revokeConnection config expectedRevision) w := by
  refine (keeps_readRecord hinv).seq (fun found w₁ _ hi₁ hfound => ?_) hinv
  obtain ⟨record, item⟩ := found
  show Ensures _ _ _ (if record.revision ≠ expectedRevision then _ else _) w₁
  split
  · exact ensures_throw
  · have hmay : MayWrite config i .revoke record (revokedRecord record) w₁ :=
      ⟨⟨rfl, rfl, rfl⟩, fun _ hm => (by cases hm), fun _ _ h => (by cases h)⟩
    refine (keeps_writeRecord hi₁ (.inr ⟨item, hfound.1.mem, rfl, hfound.2⟩) hmay).seq
      (fun _ _ _ _ _ => ensures_pure (fun _ _ _ => trivial)) hi₁

/-! ## `exchange.go` -/

theorem wire_of_unmarshalEnvelope {contents : Contents} {envelope : CredentialEnvelope Time}
    (h : unmarshalEnvelope contents = some envelope) :
    ∃ wire, contents.value = .envelope wire ∧ wire.fence = envelope.fence ∧ wire.attemptID = envelope.attemptID := by
  unfold unmarshalEnvelope at h
  split at h
  · rename_i wire hvalue
    split at h
    · obtain ⟨expiresAt, -, rfl⟩ := Option.map_eq_some_iff.1 h
      exact ⟨wire, hvalue, rfl, rfl⟩
    · cases h
  · cases h

theorem isEnvelopeOf_ids {envelope : CredentialEnvelope Time} {attemptID : String} {fence : UInt64}
    (h : isEnvelopeOf config envelope attemptID fence = true) : envelope.fence = fence ∧ envelope.attemptID = attemptID := by
  simp only [isEnvelopeOf, Bool.and_eq_true, beq_iff_eq] at h
  exact ⟨h.1.2, h.2⟩

/-- The reference of a record that may be changed names a version. -/
theorem Updatable.version_ne {record : ConnectionRecord Time} {etag : String} (h : Updatable config record etag w)
    {reference : ObjectReference} (hready : record.status = .ready) (hreference : record.credential = some reference) :
    reference.version ≠ "" := by
  rcases h with ⟨-, rfl⟩ | ⟨item, -, -, hcheck⟩
  · cases hreference
  · have hcredential := (checkRecord_ok hcheck).2.2.2.2.2.2.2.2.1
    unfold checkCredential at hcredential
    rw [hready] at hcredential
    dsimp only at hcredential
    rw [hreference] at hcredential
    split at hcredential
    · rename_i hvalid
      simp only [Option.any_some, referenceIsValid, Bool.and_eq_true, bne_iff_ne] at hvalid
      exact hvalid.1.2
    · cases hcredential

/-- **An exchange that is completed has its result published.** -/
theorem keeps_isCompletedExchange {record : ConnectionRecord Time} {etag attemptID : String} {fence : UInt64}
    (hinv : Inv config w) (hupdatable : Updatable config record etag w) :
    Keeps (C := C) config i (fun isComplete w' => isComplete = true → record.status = .ready ∧ record.fence = fence ∧
      ResultAt config w' attemptID fence record) (isCompletedExchange config record attemptID fence) w := by
  have hfalse : ∀ {u : World ι} {P : World ι → Prop}, Keeps (C := C) config i (fun isComplete w' => isComplete = true → P w')
      (pure false) u := fun {u P} => ensures_pure (fun _ _ _ h => by cases h)
  unfold isCompletedExchange
  split
  · exact hfalse
  · rename_i reference hreference
    split
    · exact hfalse
    · rename_i hstatus
      simp only [not_or, not_not] at hstatus
      split
      · exact hfalse
      · rename_i hkey
        refine (keeps_readObject _ _ hinv).seq (fun object w₁ _ hi₁ hobject => ?_) hinv
        split
        · rename_i hresult
          refine ensures_pure (fun w₂ hr₂ _ _ => ⟨hstatus.1, hstatus.2, ?_⟩)
          simp only [isResultOf, Bool.and_eq_true, beq_iff_eq, Option.any_eq_true] at hresult
          obtain ⟨hdigest, envelope, henvelope, hids⟩ := hresult
          obtain ⟨wire, hvalue, hfence, hattempt⟩ := wire_of_unmarshalEnvelope henvelope
          obtain ⟨hf, ha⟩ := isEnvelopeOf_ids hids
          exact ⟨reference, object, wire, hreference, not_not.1 hkey, hr₂.objects.mem hobject.1,
            hobject.2.1 (hupdatable.version_ne hstatus.1 hreference), hdigest, hvalue, hfence.trans hf, hattempt.trans ha⟩
        · exact ensures_throw

/-! ### Admissions -/

/-- What an invocation that may dispatch knows of its fence. -/
def Granted (i : ι) (fence : UInt64) (w : World ι) : Prop := (∃ x, (i, x, fence) ∈ w.granted) ∧ (i, fence) ∉ w.refreshed

theorem Granted.rely {fence : UInt64} {w' : World ι} (h : Granted i fence w) (hr : Rely i w w') : Granted i fence w' := by
  obtain ⟨⟨x, hx⟩, hf⟩ := h
  exact ⟨⟨x, (hr.granted x fence).2 hx⟩, fun h => hf ((hr.refreshed fence).1 h)⟩

/-- An admission that was applied is the caller's own. -/
theorem applied_of_contents {x : String} {new : ConnectionRecord Time} {m : CredentialMutation Time}
    {v : Version Contents (Writer ι)} (hinv : Inv config w) (hissued : (x, i) ∈ w.issued)
    (hv : v ∈ w.objects (connectionHeadPath config.path)) (hc : marshalRecord new = some v.contents)
    (hm : new.mutation = some m) (hid : m.invocationID = x) : Applied config w i x new.fence := by
  have hrec := unmarshalRecord_marshalRecord hc
  have hm' : new.stored.mutation = some m.stored := by
    show new.mutation.map _ = _
    rw [hm]
    rfl
  exact ⟨v, hv, hinv.owned x i hissued v hv ⟨_, _, hrec, hm', hid⟩, _, _, hrec, rfl, hm', hid⟩

/-- A method of caller `i` that may be followed by a grant or a refresh. -/
abbrev Ends (config : Config) (i : ι) (Q : α → World ι → Prop) (m : M C (Writer ι) α) (w : World ι) : Prop :=
  Yields (protocol config) i Q (fun _ _ => True) m w

theorem Keeps.ends {m : M C (Writer ι) α} {Q : α → World ι → Prop} (h : Keeps config i Q m w) : Ends config i Q m w := by
  refine h.safe (fun r w' _ hq => ?_)
  cases r with
  | ok a => exact hq a rfl
  | error e => trivial

/-- A method that goes on with one that may grant or refresh. -/
theorem Keeps.next {m : M C (Writer ι) α} {f : α → M C (Writer ι) β} {Q : α → World ι → Prop} {Q' : β → World ι → Prop}
    (h : Keeps config i Q m w) (hf : ∀ a w', Rely i w w' → Inv config w' → Q a w' → Ends config i Q' (f a) w')
    (hinv : Inv config w) : Ends config i Q' (m >>= f) w :=
  Ensures.next h (fun _ _ _ => trivial) hf hinv

/-- What `beginExchange` promises. -/
def Dispatches (i : ι) (admission : ExchangeAdmission) (w : World ι) : Prop :=
  admission.providerDispatchAllowed = true → Granted i admission.fence w

/-- An invocation that may only observe. -/
theorem ends_observer {admission : ExchangeAdmission} (h : admission.providerDispatchAllowed = false) :
    Ends (C := C) config i (Dispatches i) (pure admission) w :=
  yields_pure (fun _ _ _ h' => by rw [h] at h'; cases h')

theorem ends_throw {err : Err} {Q : α → World ι → Prop} : Ends (C := C) config i Q (throw err) w :=
  yields_throw (fun _ _ _ => trivial)

/-- **An invocation that may dispatch won its own conditional write.** -/
theorem ends_settleAdmission {expectedRevision : UInt64} {attemptID invocationID : String} {deadline : Time}
    {status : CredentialStatus} {fence : UInt64} {written : Except Err (Version Contents (Writer ι))} (hinv : Inv config w)
    (hunused : ∀ f, (i, invocationID, f) ∉ w.granted)
    (happlied : ∀ v, written = .ok v → Applied config w i invocationID fence) :
    Ends (C := C) config i (Dispatches i)
      (settleAdmission config expectedRevision attemptID invocationID deadline status fence written) w := by
  cases written with
  | ok v =>
    have hgrant : Ends (C := C) config i (fun _ w' => Granted i fence w') (act (.grant invocationID fence)) w := by
      refine yields_act (fun w₁ _ w₂ hr₁ hi₁ hs => ?_)
      have happlied₁ := (happlied v rfl).grows hr₁.objects
      have hpre : Pre config i (.grant invocationID fence : Op C) w₁ :=
        ⟨happlied₁, fun f h => hunused f ((hr₁.granted invocationID f).1 h)⟩
      have hs : step i (.grant invocationID fence : Op C) w₁ () w₂ := hs
      obtain ⟨hinv₂, hguar⟩ := step_safe hs hi₁ hpre
      refine ⟨hinv₂, hguar, fun w₃ hr₃ _ => ?_⟩
      have hunrefreshed : (i, fence) ∉ w₁.refreshed := by
        intro h
        obtain ⟨y, hy⟩ := hi₁.refreshed i fence h
        obtain ⟨-, rfl⟩ := hi₁.applied_unique happlied₁ (hi₁.granted i y fence hy)
        exact hunused fence ((hr₁.granted _ _).1 hy)
      have hgranted : Granted i fence w₂ := by
        rw [show w₂ = _ from hs]
        exact ⟨⟨invocationID, List.mem_cons_self⟩, hunrefreshed⟩
      exact hgranted.rely hr₃
    refine hgrant.seq (fun _ w' _ hg => yields_pure (fun w'' hr _ _ => hg.rely hr)) (fun _ _ _ _ _ _ => trivial) hinv
  | error err =>
    show Ends config i _ (if err.is .conflict then _ else _) w
    split
    · refine Keeps.next (keeps_readRecord hinv).attempt (fun answer w' _ _ _ => ?_) hinv
      cases answer with
      | error readErr => exact ends_throw
      | ok found =>
        obtain ⟨observed, item⟩ := found
        dsimp only
        split
        · exact ends_throw
        · split
          · exact ends_observer rfl
          · exact ends_throw
    · exact ends_throw

theorem ends_admitExchange {record : ConnectionRecord Time} {etag : String} {expectedRevision : UInt64} {attemptID : String}
    {deadline : Time} {status : CredentialStatus} (hinv : Inv config w) (hupdatable : Updatable config record etag w) :
    Ends (C := C) config i (Dispatches i) (admitExchange config record etag expectedRevision attemptID deadline status) w := by
  refine keeps_now.next (fun now w₁ hr₁ hi₁ _ => ?_) hinv
  split
  · exact ends_throw
  refine keeps_now.next (fun again w₂ hr₂ hi₂ _ => ?_) hi₁
  split
  · exact ends_throw
  split
  · exact ends_throw
  split
  · exact ends_throw
  refine keeps_newAttemptID.next (fun drawn w₃ hr₃ hi₃ hdrawn => ?_) hi₂
  cases drawn with
  | none => exact ends_throw
  | some invocationID =>
    obtain ⟨hissued, hunused⟩ := hdrawn invocationID rfl
    have hupdatable₃ := ((hupdatable.rely hr₁).rely hr₂).rely hr₃
    have hmay : MayWrite config i .admission record
        (admittedRecord config record attemptID invocationID deadline status) w₃ :=
      ⟨⟨rfl, rfl, by simp [admittedRecord]⟩, fun m hm => (by cases hm; exact hissued), fun _ _ h => (by cases h)⟩
    refine Keeps.next (keeps_writeRecord hi₃ hupdatable₃ hmay).attempt (fun written w₄ hr₄ hi₄ hwritten => ?_) hi₃
    refine ends_settleAdmission hi₄ (fun f h => hunused f ((hr₄.granted _ f).1 h)) (fun v hv => ?_)
    obtain ⟨hnewest, hc⟩ := hwritten v hv
    exact applied_of_contents hi₄ (hr₄.issued _ hissued) hnewest.mem hc rfl rfl

theorem ends_beginExchange {expectedRevision : UInt64} {attemptID : String} {deadline : Time} {status : CredentialStatus}
    (hinv : Inv config w) :
    Ends (C := C) config i (Dispatches i) (beginExchange config expectedRevision attemptID deadline status) w := by
  unfold beginExchange
  split
  · exact ends_throw
  refine (keeps_readPrior hinv).next (fun prior w₁ _ hi₁ hprior => ?_) hinv
  obtain ⟨record, etag⟩ := prior
  refine (keeps_isCompletedExchange hi₁ hprior).next (fun isComplete w₂ hr₂ hi₂ _ => ?_) hi₁
  have hadmit : Ends (C := C) config i (Dispatches i)
      (admitExchange config record etag expectedRevision attemptID deadline status) w₂ :=
    ends_admitExchange hi₂ (hprior.rely hr₂)
  split
  · exact ends_observer rfl
  · split
    · exact hadmit
    · split
      · exact ends_observer rfl
      · exact hadmit

/-! ### Results -/

/-- A pending record that `readAdmitted` accepts. -/
structure PendingHead (config : Config) (w : World ι) (admission : ExchangeAdmission) (record : ConnectionRecord Time)
    (item : Version Contents (Writer ι)) (w' : World ι) : Prop where
  newest  : Newest config w w' item
  check   : checkRecord config item = .ok record
  pending : Pending admission.attemptID admission.fence record

theorem PendingHead.rely {admission : ExchangeAdmission} {record : ConnectionRecord Time} {item : Version Contents (Writer ι)}
    {w' w'' : World ι} (h : PendingHead config w admission record item w') (hr : Rely i w' w'') :
    PendingHead config w admission record item w'' :=
  ⟨h.newest.grows (Grows.refl _) hr.objects, h.check, h.pending⟩

theorem PendingHead.updatable {admission : ExchangeAdmission} {record : ConnectionRecord Time}
    {item : Version Contents (Writer ι)} {w' : World ι} (h : PendingHead config w admission record item w') :
    Updatable config record item.etag w' := .inr ⟨item, h.newest.mem, rfl, h.check⟩

theorem pending_of_isAdmitted {record : ConnectionRecord Time} {admission : ExchangeAdmission}
    (h : isAdmitted record admission = true) : Pending admission.attemptID admission.fence record := by
  simp only [isAdmitted, Bool.and_eq_true, beq_iff_eq, Option.any_eq_true] at h
  obtain ⟨⟨m, hm, hid, -⟩, hfence⟩ := h
  exact ⟨hfence, m, hm, hid⟩

/-- The mutation of a record that passes the check names the result of its own attempt. -/
theorem resultKey_of_check {T : Type} {item : Version Contents T} {record : ConnectionRecord Time}
    {mutation : CredentialMutation Time} (h : checkRecord config item = .ok record) (hm : record.mutation = some mutation) :
    mutation.resultKey = exchangeResultPath config.path mutation.id := by
  have hmutation := (checkRecord_ok h).2.2.2.2.2.2.2.2.2
  unfold checkMutation at hmutation
  split at hmutation
  · split at hmutation
    · rename_i hvalid
      rw [hm] at hvalid
      simp only [Option.any_some, mutationIsValid, Bool.and_eq_true, beq_iff_eq] at hvalid
      exact hvalid.2
    · cases hmutation
  · split at hmutation
    · cases hmutation
    · rename_i hne
      rw [hm] at hne
      simp at hne

/-- **The head was `READY` with the result of this exchange** at some time between two states. -/
def Completed (config : Config) (admission : ExchangeAdmission) (w w' : World ι) : Prop :=
  ∃ v record, Newest config w w' v ∧ unmarshalRecord v.contents = some record ∧ record.status = .ready ∧
    record.fence = admission.fence ∧ ResultAt config w' admission.attemptID admission.fence record

/-- The head was still pending with this exchange at some time between two states. -/
def StillPending (config : Config) (admission : ExchangeAdmission) (w w' : World ι) : Prop :=
  ∃ item record, PendingHead config w admission record item w'

theorem Completed.grows {admission : ExchangeAdmission} {w₀ w' w'' : World ι} (h : Completed config admission w w')
    (h₀ : Grows w₀.objects w.objects) (h' : Grows w'.objects w''.objects) : Completed config admission w₀ w'' := by
  obtain ⟨v, record, hnewest, hrec, hready, hfence, hresult⟩ := h
  exact ⟨v, record, hnewest.grows h₀ h', hrec, hready, hfence, hresult.grows h'⟩

theorem keeps_readAdmitted {admission : ExchangeAdmission} (hinv : Inv config w) :
    Keeps (C := C) config i (fun found w' => Newest config w w' found.2.1 ∧ checkRecord config found.2.1 = .ok found.1 ∧
      (found.2.2 = .ok () → Pending admission.attemptID admission.fence found.1)) (readAdmitted config admission) w := by
  refine (keeps_readRecord hinv).seq (fun found w' _ _ hfound => ?_) hinv
  obtain ⟨record, item⟩ := found
  refine ensures_pure (fun w'' hr _ => ⟨hfound.1.grows (Grows.refl _) hr.objects, hfound.2, fun h => ?_⟩)
  dsimp only at h
  split at h
  · rename_i hadmitted
    exact pending_of_isAdmitted hadmitted
  · cases h

theorem keeps_readUncompleted {admission : ExchangeAdmission} (hinv : Inv config w) :
    Keeps (C := C) config i (fun admitted w' => match admitted with
        | .completed _ => Completed config admission w w'
        | .pending record mutation item => PendingHead config w admission record item w' ∧ record.mutation = some mutation)
      (readUncompleted config admission) w := by
  refine (keeps_readAdmitted hinv).seq (fun found w₁ hr₁ hi₁ hfound => ?_) hinv
  obtain ⟨record, item, admitted⟩ := found
  obtain ⟨hnewest, hcheck, hpending⟩ := hfound
  dsimp only at hnewest hcheck hpending ⊢
  split
  · rename_i mutation hm
    exact ensures_pure (fun w₂ hr₂ _ => ⟨⟨hnewest.grows (Grows.refl _) hr₂.objects, hcheck, hpending rfl⟩, hm⟩)
  · have hupdatable : Updatable config record item.etag w₁ := .inr ⟨item, hnewest.mem, rfl, hcheck⟩
    refine (keeps_isCompletedExchange hi₁ hupdatable).seq (fun isComplete w₂ hr₂ hi₂ hcomplete => ?_) hi₁
    split
    · rename_i htrue
      refine ensures_pure (fun w₃ hr₃ _ => ?_)
      obtain ⟨hready, hfence, hresult⟩ := hcomplete htrue
      exact ⟨item, record, hnewest.grows (Grows.refl _) (hr₂.trans i hr₃).objects, checkRecord_unmarshal hcheck, hready, hfence,
        hresult.grows hr₃.objects⟩
    · exact ensures_throw

/-- A publication that succeeds has the result published. -/
theorem keeps_publishExchange {w₀ : World ι} {admission : ExchangeAdmission} {record : ConnectionRecord Time}
    {item : Version Contents (Writer ι)} {reference : ObjectReference} {expiresAt : Option Time} {authMethod : Bytes}
    (hinv : Inv config w) (hg : Grows w₀.objects w.objects) (hpending : PendingHead config w₀ admission record item w)
    (hresult : ResultAt config w admission.attemptID admission.fence (publishedRecord record reference expiresAt authMethod)) :
    Keeps (C := C) config i (fun _ w' => Completed config admission w₀ w')
      (publishExchange config admission record item.etag reference expiresAt authMethod) w := by
  have hmay : MayWrite config i (.publish admission.attemptID admission.fence) record
      (publishedRecord record reference expiresAt authMethod) w :=
    ⟨⟨rfl, hpending.pending, rfl, rfl, rfl⟩, fun _ hm => (by cases hm), fun a f h => by cases h; exact hresult⟩
  refine (keeps_writeRecord hinv hpending.updatable hmay).seq (fun v w₁ hr₁ _ hv => ensures_pure (fun w₂ hr₂ _ => ?_)) hinv
  refine ⟨v, _, hv.1.grows hg hr₂.objects, unmarshalRecord_marshalRecord hv.2, rfl, hpending.pending.1, ?_⟩
  exact hresult.grows (hr₁.trans i hr₂).objects

/-- The end of an exchange, under the next fence. -/
theorem keeps_endExchange {op : HeadOp} {admission : ExchangeAdmission} {w₀ : World ι} {record : ConnectionRecord Time}
    {item : Version Contents (Writer ι)} {status : CredentialStatus} (hinv : Inv config w)
    (hpending : PendingHead config w₀ admission record item w)
    (hop : op = .restore admission.attemptID admission.fence ∨ op = .fail admission.attemptID admission.fence) :
    Keeps (C := C) config i (fun _ _ => True) (writeRecord config op (endedRecord record status) item.etag) w := by
  have hwrite : HeadWrite op record (endedRecord record status) := by
    rcases hop with rfl | rfl <;> exact ⟨rfl, hpending.pending, rfl, rfl, rfl⟩
  have hpublish : ∀ a f, op ≠ .publish a f := by
    rcases hop with rfl | rfl <;> exact fun _ _ h => by cases h
  exact (keeps_writeRecord hinv hpending.updatable
    ⟨hwrite, fun _ hm => (by cases hm), fun a f h => absurd h (hpublish a f)⟩).mono (fun _ _ _ => trivial)

theorem keeps_restoreRefresh {admission : ExchangeAdmission} {w₀ : World ι} {record : ConnectionRecord Time}
    {item : Version Contents (Writer ι)} (hinv : Inv config w) (hpending : PendingHead config w₀ admission record item w) :
    Keeps (C := C) config i (fun _ w' => StillPending config admission w₀ w') (restoreRefresh config admission record item.etag) w :=
  (keeps_endExchange hinv hpending (.inl rfl)).seq (fun _ _ hr _ _ => ensures_pure (fun _ hr' _ =>
    ⟨item, record, (hpending.rely hr).rely hr'⟩)) hinv

theorem keeps_failExchange {admission : ExchangeAdmission} {w₀ : World ι} {record : ConnectionRecord Time}
    {item : Version Contents (Writer ι)} (hinv : Inv config w) (hpending : PendingHead config w₀ admission record item w) :
    Keeps (C := C) config i (fun _ _ => True) (failExchange config admission record item.etag) w :=
  (keeps_endExchange hinv hpending (.inr rfl)).seq (fun _ _ _ _ _ => ensures_pure (fun _ _ _ => trivial)) hinv

/-- **A commit that succeeds has seen its own result published.** -/
theorem keeps_commitCredentialExchange {admission : ExchangeAdmission} {material : CredentialMaterial} (hinv : Inv config w) :
    Keeps (C := C) config i (fun _ w' => Completed config admission w w')
      (commitCredentialExchange config admission material) w := by
  refine (keeps_readUncompleted hinv).seq (fun admitted w₁ hr₁ hi₁ hadmitted => ?_) hinv
  cases admitted with
  | completed connection => exact ensures_pure (fun w₂ hr₂ _ => hadmitted.grows (Grows.refl _) hr₂.objects)
  | pending record mutation item =>
    obtain ⟨hpending, hm⟩ := hadmitted
    dsimp only
    split
    · exact ensures_throw
    split
    · exact ensures_throw
    · rename_i contents hcontents
      have hkey := resultKey_of_check hpending.check hm
      obtain ⟨hfence, m, hm', hid⟩ := hpending.pending
      rw [hm] at hm'
      cases hm'
      have hne : mutation.resultKey ≠ connectionHeadPath config.path := by
        rw [hkey]
        exact (Wire.headPath_ne_resultPath _ _).symm
      refine (keeps_createImmutable hne contents hi₁).seq (fun reference w₂ hr₂ hi₂ href => ?_) hi₁
      obtain ⟨hrefkey, hdigest, object, hobject, hversion, hcontents'⟩ := href
      refine keeps_publishExchange hi₂ (hr₁.trans i hr₂).objects (hpending.rely hr₂) ?_
      have hwire : ∃ wire, contents.value = .envelope wire ∧ wire.fence = record.fence ∧ wire.attemptID = admission.attemptID := by
        obtain ⟨credentials, -, hrest⟩ := Option.bind_eq_some_iff.1 hcontents
        obtain ⟨expiresAt, -, hrest⟩ := Option.bind_eq_some_iff.1 hrest
        cases hrest
        exact ⟨_, rfl, rfl, rfl⟩
      obtain ⟨wire, hvalue, hwfence, hwattempt⟩ := hwire
      refine ⟨reference, object, wire, rfl, ?_, ?_, hversion, ?_, ?_, hwfence.trans hfence, hwattempt⟩
      · rw [hrefkey, hkey, hid]
      · rw [hrefkey]
        exact hobject
      · rw [hcontents', hdigest]
      · rw [hcontents', hvalue]

/-- **A recovery that succeeds** has seen the result of its exchange published, or has met the exchange pending. -/
theorem keeps_recoverCredentialExchange {admission : ExchangeAdmission} (hinv : Inv config w) :
    Keeps (C := C) config i (fun _ w' => Completed config admission w w' ∨ StillPending config admission w w')
      (recoverCredentialExchange config admission) w := by
  refine (keeps_readUncompleted hinv).seq (fun admitted w₁ hr₁ hi₁ hadmitted => ?_) hinv
  cases admitted with
  | completed connection => exact ensures_pure (fun w₂ hr₂ _ => .inl (hadmitted.grows (Grows.refl _) hr₂.objects))
  | pending record mutation item =>
    obtain ⟨hpending, hm⟩ := hadmitted
    have hkey := resultKey_of_check hpending.check hm
    refine (keeps_read mutation.resultKey "").seq (fun answer w₂ hr₂ hi₂ hans => ?_) hi₁
    have hpending₂ := hpending.rely hr₂
    cases answer with
    | failed => exact ensures_throw
    | absent =>
      refine keeps_now.seq (fun now w₃ hr₃ hi₃ _ => ?_) hi₂
      have hpending₃ := hpending₂.rely hr₃
      split
      · exact ensures_throw
      split
      · exact (keeps_restoreRefresh hi₃ hpending₃).mono (fun _ _ h => .inr h)
      · exact (keeps_failExchange hi₃ hpending₃).seq (fun _ _ _ _ _ => ensures_throw) hi₃
    | found result =>
      refine keeps_orRaise.seq (fun envelope w₃ hr₃ hi₃ hcheck => ?_) hi₂
      refine (keeps_publishExchange hi₃ ((hr₁.trans i hr₂).trans i hr₃).objects (hpending₂.rely hr₃) ?_).mono (fun _ _ h => .inl h)
      obtain ⟨hresult, -⟩ := hans result rfl
      unfold checkResult at hcheck
      split at hcheck
      · cases hcheck
      · rename_i e he
        split at hcheck
        · cases hcheck
        · rename_i hids
          simp only [not_or, Bool.not_eq_false] at hids
          split at hcheck
          · cases hcheck
            obtain ⟨wire, hvalue, hwfence, hwattempt⟩ := wire_of_unmarshalEnvelope he
            obtain ⟨hf, ha⟩ := isEnvelopeOf_ids hids.2.2
            obtain ⟨hfence, m, hm', hid⟩ := hpending.pending
            rw [hm] at hm'
            cases hm'
            refine ⟨_, result, wire, rfl, ?_, hr₃.objects.mem hresult, rfl, rfl, hvalue, ?_, hwattempt.trans ha⟩
            · show mutation.resultKey = _
              rw [hkey, hid]
            · rw [hwfence, hf, hfence]
          · cases hcheck

theorem keeps_failCredentialExchange {admission : ExchangeAdmission} (hinv : Inv config w) :
    Keeps (C := C) config i (fun _ _ => True) (failCredentialExchange config admission) w := by
  have hadmitted := @keeps_readAdmitted C ι config i w admission hinv
  refine hadmitted.seq (fun found w₁ _ hi₁ hfound => ?_) hinv
  obtain ⟨record, item, admitted⟩ := found
  obtain ⟨hnewest, hcheck, hpending⟩ := hfound
  cases admitted with
  | error err => exact ensures_throw
  | ok u =>
    have hhead : PendingHead config w admission record item w₁ := ⟨hnewest, hcheck, hpending rfl⟩
    exact (keeps_failExchange hi₁ hhead).seq (fun _ _ _ _ _ => ensures_pure (fun _ _ _ => trivial)) hi₁

theorem keeps_abortRefresh {admission : ExchangeAdmission} (hinv : Inv config w) :
    Keeps (C := C) config i (fun _ _ => True) (abortRefresh config admission) w := by
  have hadmitted := @keeps_readAdmitted C ι config i w admission hinv
  refine hadmitted.seq (fun found w₁ _ hi₁ hfound => ?_) hinv
  obtain ⟨record, item, admitted⟩ := found
  obtain ⟨hnewest, hcheck, hpending⟩ := hfound
  cases admitted with
  | error err => exact ensures_throw
  | ok u =>
    have hhead : PendingHead config w admission record item w₁ := ⟨hnewest, hcheck, hpending rfl⟩
    dsimp only
    split
    · exact ensures_throw
    · exact (keeps_restoreRefresh hi₁ hhead).seq (fun _ _ _ _ _ => ensures_pure (fun _ _ _ => trivial)) hi₁

end Connections
end Dex
