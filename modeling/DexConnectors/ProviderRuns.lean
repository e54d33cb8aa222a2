import DexConnectors.ProviderPythonModel
/-!
# ProviderRuns — methods that run alone and return

`Returns` is one method of task `i` from a state to its value and the state it leaves, with every answer the store may
give and nobody else at work.  There is one rule for each way a method is put together and one for each method that
reads or writes the head, so that a run of several methods is read off from left to right.
-/
namespace Dex
namespace Provider

open Lib Lib.Rfc3339 Lib.Store Wire

variable {C ι α β : Type} {i : ι} {w w' : World ι}

/-- **A method that runs alone and returns.** -/
def Returns (i : ι) (m : M C (Writer ι) α) (w : World ι) (a : α) (w' : World ι) : Prop :=
  Prog.Exec (step i) m.run w (.ok a) w'

@[simp] theorem returns_pure {a b : α} : Returns (C := C) i (pure a) w b w' ↔ b = a ∧ w' = w := by
  show Except.ok b = Except.ok a ∧ w' = w ↔ _
  simp

@[simp] theorem returns_throw {exc : Exc} {b : α} : ¬Returns (C := C) i (throw exc) w b w' := by
  rintro ⟨h, -⟩
  cases h

@[simp] theorem returns_orRaise {r : Except Exc α} {b : α} : Returns (C := C) i (orRaise r) w b w' ↔ r = .ok b ∧ w' = w := by
  show Except.ok b = r ∧ w' = w ↔ _
  rw [eq_comm]

@[simp] theorem returns_act {o : Op C} {a : Ans C (Writer ι) o} : Returns i (act o) w a w' ↔ step i o w a w' := by
  constructor
  · rintro ⟨b, w₁, hs, h, rfl⟩
    cases h
    exact hs
  · exact fun hs => ⟨a, w', hs, rfl, rfl⟩

theorem returns_token {token : String} : Returns (C := C) (α := String) i (act .token) w token w' ↔
    FreshToken w token ∧ w' = { w with issued := (token, i) :: w.issued } :=
  returns_act (o := .token)

theorem returns_now {now : Int} : Returns (C := C) (α := Int) i (act .now) w now w' ↔ w' = w := returns_act (o := .now)

@[simp] theorem returns_bind {m : M C (Writer ι) α} {f : α → M C (Writer ι) β} {b : β} :
    Returns i (m >>= f) w b w' ↔ ∃ a w₁, Returns i m w a w₁ ∧ Returns i (f a) w₁ b w' := by
  refine (Prog.exec_bind (step i) _ m.run w (Except.ok b) w').trans ⟨?_, ?_⟩
  · rintro ⟨r, w₁, h1, h2⟩
    cases r with
    | ok a => exact ⟨a, w₁, h1, h2⟩
    | error exc => cases h2.1
  · rintro ⟨a, w₁, h1, h2⟩
    exact ⟨.ok a, w₁, h1, h2⟩

@[simp] theorem returns_ite {p : Prop} [Decidable p] {m m' : M C (Writer ι) α} {a : α} :
    Returns i (if p then m else m') w a w' ↔ (p ∧ Returns i m w a w') ∨ (¬p ∧ Returns i m' w a w') := by
  split <;> simp [*]

/-- **A method that runs alone and raises.** -/
def Raises (i : ι) (m : M C (Writer ι) α) (w : World ι) (exc : Exc) (w' : World ι) : Prop :=
  Prog.Exec (step i) m.run w (.error exc) w'

theorem raises_bind {m : M C (Writer ι) α} {f : α → M C (Writer ι) β} {exc : Exc} :
    Raises i (m >>= f) w exc w' ↔ Raises i m w exc w' ∨ ∃ a w₁, Returns i m w a w₁ ∧ Raises i (f a) w₁ exc w' := by
  refine (Prog.exec_bind (step i) _ m.run w (Except.error exc) w').trans ⟨?_, ?_⟩
  · rintro ⟨r, w₁, h1, h2⟩
    cases r with
    | ok a => exact .inr ⟨a, w₁, h1, h2⟩
    | error exc' =>
      obtain ⟨h, rfl⟩ := h2
      cases h
      exact .inl h1
  · rintro (h | ⟨a, w₁, h1, h2⟩)
    · exact ⟨.error exc, w', h, rfl, rfl⟩
    · exact ⟨.ok a, w₁, h1, h2⟩

/-- A method with its exception caught. -/
theorem returns_lift {m : M C (Writer ι) α} {r : Except Exc α} :
    Returns (C := C) i (ExceptT.lift m.run) w r w' ↔ Prog.Exec (step i) m.run w r w' := by
  refine (Prog.exec_bind (step i) _ m.run w (Except.ok r) w').trans ⟨?_, fun h => ⟨r, w', h, rfl, rfl⟩⟩
  rintro ⟨r', w₁, h1, h2, rfl⟩
  cases h2
  exact h1

theorem returns_readObject {key version : String} {item : Version Text (Writer ι)} :
    Returns (C := C) i (readObject key version) w item w' ↔ lookup w.objects key version = some item ∧ w' = w := by
  unfold readObject
  rw [returns_bind]
  constructor
  · rintro ⟨answer, w₁, hread, h⟩
    obtain ⟨hread, rfl⟩ := returns_act.1 hread
    cases answer with
    | found v =>
      obtain ⟨rfl, rfl⟩ := returns_pure.1 h
      exact ⟨hread, rfl⟩
    | absent => exact absurd h returns_throw
    | failed => exact absurd h returns_throw
  · rintro ⟨hread, rfl⟩
    exact ⟨ReadAnswer.found item, w', returns_act.2 ⟨hread, rfl⟩, returns_pure.2 ⟨rfl, rfl⟩⟩

variable {config : Config}

theorem returns_readRecord {record : Record} {item : Version Text (Writer ι)} :
    Returns (C := C) i (readRecord config) w (record, item) w' ↔
      (w.objects (headPath config.path)).head? = some item ∧ checkRecord config item = .ok record ∧ w' = w := by
  unfold readRecord
  simp only [returns_bind, returns_readObject, returns_orRaise, returns_pure, Prod.mk.injEq]
  constructor
  · rintro ⟨v, w₁, ⟨hread, rfl⟩, r, w₂, ⟨hcheck, rfl⟩, ⟨rfl, rfl⟩, rfl⟩
    exact ⟨hread, hcheck, rfl⟩
  · rintro ⟨hread, hcheck, rfl⟩
    exact ⟨item, w', ⟨hread, rfl⟩, record, w', ⟨hcheck, rfl⟩, ⟨rfl, rfl⟩, rfl⟩

/-- **A conditional write that its caller takes for applied has been applied**, when the head did not have the new
contents already. -/
theorem returns_swap_settle {head : Version Text (Writer ι)} {contents : Text} {op : HeadOp} {u : Unit}
    (hhead : (w.objects (headPath config.path)).head? = some head) (hne : head.contents ≠ contents) :
    (∃ answer w₁, step (C := C) i (.swap (headPath config.path) head.etag contents op) w answer w₁ ∧
      Returns (C := C) i (settle config contents answer) w₁ u w') ↔
    ∃ v, Fresh w.objects (headPath config.path) v ∧ v.contents = contents ∧ v.writer = .task i op ∧
      w' = { w with objects := put w.objects (headPath config.path) v } := by
  constructor
  · rintro ⟨answer, w₁, ⟨s, hswap, rfl⟩, h⟩
    rcases hswap with ⟨-, v, hfresh, hc, hw, rfl, ha⟩ | ⟨rfl, ha⟩
    · refine ⟨v, hfresh, hc, hw, ?_⟩
      rcases ha with rfl | rfl
      · exact (returns_pure.1 h).2
      · simp only [settle, returns_bind, returns_readObject, returns_ite, returns_throw, returns_pure, and_false,
          false_or] at h
        obtain ⟨observed, w₁, ⟨-, rfl⟩, -, -, rfl⟩ := h
        rfl
    · rcases ha with rfl | rfl | rfl
      · exact absurd h returns_throw
      · simp only [settle, returns_bind, returns_readObject, returns_ite, returns_throw, returns_pure, and_false,
          false_or, not_not] at h
        obtain ⟨observed, w₁, ⟨hread, rfl⟩, hc, -⟩ := h
        have : some head = some observed := hhead.symm.trans hread
        cases this
        exact absurd hc hne
      · exact absurd h returns_throw
  · rintro ⟨v, hfresh, hc, hw, rfl⟩
    exact ⟨.applied v, _, ⟨_, .inl ⟨⟨head, hhead, rfl⟩, v, hfresh, hc, hw, rfl, .inl rfl⟩, rfl⟩, returns_pure.2 ⟨rfl, rfl⟩⟩

/-- **A head write that returns has put its version on the record it was computed from.** -/
theorem returns_writeHead {op : HeadOp} {prior updated : Record} {u : Unit} (hne : prior ≠ updated) :
    Returns (C := C) i (writeHead config op prior updated) w u w' ↔
      ∃ head, (w.objects (headPath config.path)).head? = some head ∧ checkRecord config head = .ok prior ∧
      ∃ v, Fresh w.objects (headPath config.path) v ∧ v.contents = dumps (.head updated) ∧ v.writer = .task i op ∧
        w' = { w with objects := put w.objects (headPath config.path) v } := by
  have hdiff : ∀ head : Version Text (Writer ι), checkRecord config head = .ok prior →
      head.contents ≠ dumps (.head updated) := by
    intro head hcheck hc
    have := checkRecord_value hcheck
    rw [hc] at this
    cases this
    exact hne rfl
  unfold writeHead
  rw [returns_bind]
  constructor
  · rintro ⟨⟨record, head⟩, w₁, hread, h⟩
    obtain ⟨hhead, hcheck, rfl⟩ := returns_readRecord.1 hread
    simp only [returns_ite, returns_throw, and_false, false_or, not_not, returns_bind] at h
    obtain ⟨rfl, answer, w₂, hswap, hsettle⟩ := h
    exact ⟨head, hhead, hcheck, (returns_swap_settle (C := C) hhead (hdiff head hcheck)).1
      ⟨answer, w₂, returns_act.1 hswap, hsettle⟩⟩
  · rintro ⟨head, hhead, hcheck, hv⟩
    refine ⟨(prior, head), w, returns_readRecord.2 ⟨hhead, hcheck, rfl⟩, ?_⟩
    simp only [returns_ite, returns_throw, and_false, false_or, not_not, returns_bind]
    obtain ⟨answer, w₂, hswap, hsettle⟩ := (returns_swap_settle (C := C) hhead (hdiff head hcheck)).2 hv
    exact ⟨trivial, answer, w₂, returns_act.2 hswap, hsettle⟩

theorem raises_readObject {key version : String} {exc : Exc} (h : Raises (C := C) i (readObject key version) w exc w') :
    w' = w ∧ ∀ text, exc ≠ .objectConflict text := by
  obtain ⟨answer, w₁, ⟨-, rfl⟩, h⟩ := h
  cases answer with
  | found v => cases h.1
  | absent =>
    obtain ⟨h, rfl⟩ := h
    cases h
    exact ⟨rfl, fun _ h => by cases h⟩
  | failed =>
    obtain ⟨h, rfl⟩ := h
    cases h
    exact ⟨rfl, fun _ h => by cases h⟩

theorem raises_orRaise {r : Except Exc α} {exc : Exc} (h : Raises (C := C) i (orRaise r) w exc w') :
    r = .error exc ∧ w' = w :=
  ⟨h.1.symm, h.2⟩

theorem raises_readRecord {exc : Exc} (h : Raises (C := C) i (readRecord config) w exc w') : w' = w := by
  unfold readRecord at h
  rcases raises_bind.1 h with hobject | ⟨item, w₁, hread, hrest⟩
  · exact (raises_readObject hobject).1
  · have hsame := (returns_readObject.1 hread).2
    rcases raises_bind.1 hrest with hcheck | ⟨record, w₂, -, hpure⟩
    · exact (raises_orRaise hcheck).2.trans hsame
    · cases hpure.1

/-- A settled write reports no conflict but its own. -/
theorem raises_settle {contents : Text} {answer : WriteAnswer Text (Writer ι)} {text : String}
    (h : Raises (C := C) i (settle config contents answer) w (.objectConflict text) w') : answer = .conflict ∧ w' = w := by
  cases answer with
  | applied v => cases h.1
  | conflict => exact ⟨rfl, h.2⟩
  | failed => cases h.1
  | unknown =>
    rcases raises_bind.1 h with hobject | ⟨observed, w₃, -, hrest⟩
    · exact absurd rfl ((raises_readObject hobject).2 text)
    · split at hrest
      · cases hrest.1
      · cases hrest.1

/-- A head write that reports a conflict has changed nothing. -/
theorem raises_writeHead {op : HeadOp} {prior updated : Record} {text : String}
    (h : Raises (C := C) i (writeHead config op prior updated) w (.objectConflict text) w') : w' = w := by
  unfold writeHead at h
  rcases raises_bind.1 h with hrecord | ⟨⟨record, head⟩, w₁, hread, hrest⟩
  · exact raises_readRecord hrecord
  · have hsame := (returns_readRecord.1 hread).2.2
    dsimp only at hrest
    split at hrest
    · exact hrest.2.trans hsame
    · rcases raises_bind.1 hrest with ⟨answer, w₂, -, hret, -⟩ | ⟨answer, w₂, hswap, hsettle⟩
      · cases hret
      · obtain ⟨rfl, hw'⟩ := raises_settle hsettle
        obtain ⟨s, hswap, hs⟩ := returns_act.1 hswap
        rcases hswap with ⟨-, v, -, -, -, -, ha | ha⟩ | ⟨hunchanged, -⟩
        · cases ha
        · cases ha
        · rw [hw', hs, hunchanged, hsame]

theorem checkMaterial_cases {record : Record} {reference : Reference} {object : Version Text (Writer ι)} {material : Material} :
    checkMaterial config record reference object = .ok material ↔
      config.digest object.contents = reference.digest ∧
      ∃ envelope parsed, object.contents.value = .envelope envelope ∧ envelope.schemaVersion = connectionSchemaVersion ∧
        envelope.scope = config.scope ∧ envelope.connection = config.key ∧ envelope.authMethod = record.authMethod ∧
        envelope.expiresAt = record.expiresAt ∧ parseExpiry envelope.expiresAt = .ok parsed ∧
        material = ⟨envelope.credentials, parsed.map .moment, envelope.authMethod⟩ := by
  unfold checkMaterial
  split
  · rename_i hd
    simp [hd]
  · rename_i hd
    rw [not_not] at hd
    split
    · rename_i envelope hv
      split
      · rename_i hbad
        constructor
        · intro h
          cases h
        · rintro ⟨-, e, parsed, he, h1, h2, h3, h4, h5, -⟩
          rw [hv] at he
          cases he
          simp [h1, h2, h3, h4, h5] at hbad
      · rename_i hgood
        simp only [not_or, not_not] at hgood
        obtain ⟨h1, h2, h3, h4, h5⟩ := hgood
        split
        · rename_i exc hp
          constructor
          · intro h
            cases h
          · rintro ⟨-, e, parsed, he, -, -, -, -, -, hp', -⟩
            rw [hv] at he
            cases he
            rw [hp] at hp'
            cases hp'
        · rename_i parsed hp
          constructor
          · intro h
            cases h
            exact ⟨hd, envelope, parsed, hv, h1, h2, h3, h4, h5, hp, rfl⟩
          · rintro ⟨-, e, parsed', he, -, -, -, -, -, hp', hm⟩
            rw [hv] at he
            cases he
            rw [hp] at hp'
            cases hp'
            rw [hm]
    · rename_i hother
      constructor
      · intro h
        cases h
      · rintro ⟨-, e, -, he, -⟩
        exact absurd he (hother e)

theorem returns_readMaterial {record : Record} {material : Material} (reference : Reference)
    (hc : record.credential = some reference) :
    Returns (C := C) i (readMaterial config record) w material w' ↔
      ∃ object, lookup w.objects reference.key reference.version = some object ∧
        checkMaterial config record reference object = .ok material ∧ w' = w := by
  unfold readMaterial
  rw [hc]
  simp only [returns_bind, returns_readObject, returns_orRaise]
  constructor
  · rintro ⟨object, w₁, ⟨hfound, rfl⟩, hcheck, rfl⟩
    exact ⟨object, hfound, hcheck, rfl⟩
  · rintro ⟨object, hfound, hcheck, rfl⟩
    exact ⟨object, w', ⟨hfound, rfl⟩, hcheck, rfl⟩

/-! ## The runs of an exchange -/

/-- An admission that returns has put the `REFRESHING` head on the record. -/
theorem returns_admitRefresh {record : Record} {now : Int} {admission : Admission} :
    Returns (C := C) i (admitRefresh config record now) w admission w' ↔
      ∃ attemptID invocationID expiresAt head v w₁, FreshToken w attemptID ∧
        FreshToken { w with issued := (attemptID, i) :: w.issued } invocationID ∧
        w₁ = { w with issued := (invocationID, i) :: (attemptID, i) :: w.issued } ∧
        parseExpiry record.expiresAt = .ok expiresAt ∧
        admission = ⟨.refreshing, attemptID, record.fence + 1, now + 40000000, resultPath config.path attemptID⟩ ∧
        (w.objects (headPath config.path)).head? = some head ∧ checkRecord config head = .ok record ∧
        Fresh w.objects (headPath config.path) v ∧
        v.contents = dumps (.head (admittedRecord config record now attemptID invocationID expiresAt)) ∧
        v.writer = .task i .admission ∧ w' = { w₁ with objects := put w.objects (headPath config.path) v } := by
  have hne : ∀ attemptID invocationID expiresAt, record ≠ admittedRecord config record now attemptID invocationID expiresAt := by
    intro attemptID invocationID expiresAt h
    have := congrArg Record.revision h
    simp [admittedRecord, connectionRecordWire] at this
  unfold admitRefresh
  simp only [returns_bind, returns_token, returns_orRaise, returns_pure, returns_writeHead (hne _ _ _)]
  constructor
  · rintro ⟨attemptID, w₁, ⟨hfresh, rfl⟩, invocationID, w₂, ⟨hfresh', rfl⟩, expiresAt, w₃, ⟨hparse, rfl⟩, -, w₄,
      ⟨head, hhead, hcheck, v, hv, hc, hvw, rfl⟩, rfl, rfl⟩
    exact ⟨attemptID, invocationID, expiresAt, head, v, _, hfresh, hfresh', rfl, hparse, rfl, hhead, hcheck, hv, hc, hvw, rfl⟩
  · rintro ⟨attemptID, invocationID, expiresAt, head, v, w₁, hfresh, hfresh', rfl, hparse, rfl, hhead, hcheck, hv, hc, hvw, rfl⟩
    exact ⟨attemptID, _, ⟨hfresh, rfl⟩, invocationID, _, ⟨hfresh', rfl⟩, expiresAt, _, ⟨hparse, rfl⟩, (), _,
      ⟨head, hhead, hcheck, v, hv, hc, hvw, rfl⟩, rfl, rfl⟩

/-- An exchange that was finished has put its head on the pending one. -/
theorem returns_finishExchange {admission : Admission} {status : Status} {u : Unit} :
    Returns (C := C) i (finishExchange config admission status) w u w' ↔
      ∃ head record expiresAt v, (w.objects (headPath config.path)).head? = some head ∧
        checkRecord config head = .ok record ∧ isAdmitted record admission = true ∧
        parseExpiry record.expiresAt = .ok expiresAt ∧ Fresh w.objects (headPath config.path) v ∧
        v.contents = dumps (.head (finishedRecord config record status expiresAt)) ∧
        v.writer = .task i (.finish admission.attemptID admission.fence) ∧
        w' = { w with objects := put w.objects (headPath config.path) v } := by
  have hne : ∀ record expiresAt, record ≠ finishedRecord config record status expiresAt := by
    intro record expiresAt h
    have := congrArg Record.revision h
    simp [finishedRecord, connectionRecordWire] at this
  unfold finishExchange
  rw [returns_bind]
  constructor
  · rintro ⟨⟨record, head⟩, w₁, hread, h⟩
    obtain ⟨hhead, hcheck, rfl⟩ := returns_readRecord.1 hread
    simp only [returns_ite, returns_throw, and_false, or_false, returns_bind, returns_orRaise,
      returns_writeHead (hne _ _)] at h
    obtain ⟨hadm, expiresAt, w₂, ⟨hparse, rfl⟩, head', hhead', hcheck', v, hv, hc, hw, rfl⟩ := h
    exact ⟨head, record, expiresAt, v, hhead, hcheck, hadm, hparse, hv, hc, hw, rfl⟩
  · rintro ⟨head, record, expiresAt, v, hhead, hcheck, hadm, hparse, hv, hc, hw, rfl⟩
    refine ⟨(record, head), w, returns_readRecord.2 ⟨hhead, hcheck, rfl⟩, ?_⟩
    simp only [returns_ite, returns_throw, and_false, or_false, returns_bind, returns_orRaise,
      returns_writeHead (hne _ _)]
    exact ⟨hadm, expiresAt, w, ⟨hparse, rfl⟩, head, hhead, hcheck, v, hv, hc, hw, rfl⟩

/-- A result that was published has put its head on the pending one, or the head had it. -/
theorem returns_publishResult {admission : Admission} {key : String} {result : Version Text (Writer ι)} {u : Unit} :
    Returns (C := C) i (publishResult config admission key result) w u w' ↔
      ∃ head record, (w.objects (headPath config.path)).head? = some head ∧ checkRecord config head = .ok record ∧
        ((references record key = true ∧ w' = w) ∨
        (references record key = false ∧ isAdmitted record admission = true ∧
          ∃ envelope expiresAt v, checkResult config admission result = .ok envelope ∧
            parseExpiry envelope.expiresAt = .ok expiresAt ∧ Fresh w.objects (headPath config.path) v ∧
            v.contents = dumps (.head (publishedRecord config record envelope key result expiresAt)) ∧
            v.writer = .task i (.publish admission.attemptID admission.fence) ∧
            w' = { w with objects := put w.objects (headPath config.path) v })) := by
  have hne : ∀ record envelope expiresAt, record ≠ publishedRecord config record envelope key result expiresAt := by
    intro record envelope expiresAt h
    have := congrArg Record.revision h
    simp [publishedRecord, connectionRecordWire] at this
  unfold publishResult
  rw [returns_bind]
  constructor
  · rintro ⟨⟨record, head⟩, w₁, hread, h⟩
    obtain ⟨hhead, hcheck, rfl⟩ := returns_readRecord.1 hread
    refine ⟨head, record, hhead, hcheck, ?_⟩
    simp only [returns_ite, returns_throw, and_false, or_false, returns_bind, returns_orRaise, returns_pure,
      returns_lift] at h
    rcases h with ⟨href, -, rfl⟩ | ⟨href, hadm, envelope, w₂, ⟨hresult, rfl⟩, expiresAt, w₃, ⟨hparse, rfl⟩, written, w₄, hwrite, h⟩
    · exact .inl ⟨href, rfl⟩
    · refine .inr ⟨by simpa using href, hadm, envelope, expiresAt, ?_⟩
      cases written with
      | ok =>
        obtain ⟨-, rfl⟩ := returns_pure.1 h
        obtain ⟨_, -, -, v, hv, hc, hw, rfl⟩ := (returns_writeHead (hne _ _ _)).1 hwrite
        exact ⟨v, hresult, hparse, hv, hc, hw, rfl⟩
      | error exc =>
        -- alone, a conflict is a spurious one: the head read again is the pending one
        cases exc with
        | objectConflict text =>
          have hsame := raises_writeHead hwrite
          rw [hsame] at h
          simp only [settlePublished, returns_bind, returns_ite, returns_throw, and_false, or_false] at h
          obtain ⟨⟨observed, head'⟩, w₅, hread', href', -⟩ := h
          obtain ⟨hhead', hcheck', -⟩ := returns_readRecord.1 hread'
          rw [hhead] at hhead'
          cases hhead'
          rw [hcheck] at hcheck'
          cases hcheck'
          exact absurd href' href
        | _ => exact absurd h returns_throw
  · rintro ⟨head, record, hhead, hcheck, h⟩
    refine ⟨(record, head), w, returns_readRecord.2 ⟨hhead, hcheck, rfl⟩, ?_⟩
    simp only [returns_ite, returns_throw, and_false, or_false, returns_bind, returns_orRaise, returns_pure, returns_lift]
    rcases h with ⟨href, rfl⟩ | ⟨href, hadm, envelope, expiresAt, v, hresult, hparse, hv, hc, hw, rfl⟩
    · exact .inl ⟨href, trivial, rfl⟩
    · have hwrite : Returns (C := C) i (writeHead config (.publish admission.attemptID admission.fence) record
          (publishedRecord config record envelope key result expiresAt)) w ()
          { w with objects := put w.objects (headPath config.path) v } :=
        (returns_writeHead (hne _ _ _)).2 ⟨head, hhead, hcheck, v, hv, hc, hw, rfl⟩
      exact .inr ⟨by simpa using href, hadm, envelope, w, ⟨hresult, rfl⟩, expiresAt, w, ⟨hparse, rfl⟩, .ok (), _, hwrite,
        returns_pure.2 ⟨rfl, rfl⟩⟩

/-- Recovering an exchange without a result waits for its deadline or restores the head. -/
theorem returns_recoverOrWait {record : Record} {mutation : Mutation} {u : Unit}
    (hm : record.mutation = some mutation) (habsent : lookup w.objects mutation.resultKey "" = none)
    (h : Returns (C := C) i (recoverOrWait config record) w u w') :
    w' = w ∨ ∃ admission, Returns (C := C) i (finishExchange config admission (abandonedStatus record.status)) w u w' := by
  unfold recoverOrWait at h
  rw [hm] at h
  simp only [returns_bind, returns_orRaise] at h
  obtain ⟨admission, w₁, ⟨hobs, rfl⟩, answer, w₂, hread, h⟩ := h
  have hadm : admission.resultKey = mutation.resultKey ∧ admission.kind = record.status := by
    unfold observed at hobs
    split at hobs
    · cases hobs
    · cases hobs
      exact ⟨rfl, rfl⟩
  obtain ⟨hread, rfl⟩ := returns_act.1 hread
  cases answer with
  | failed => exact absurd h returns_throw
  | found v =>
    rw [hadm.1] at hread
    rw [show lookup _ _ _ = some v from hread] at habsent
    cases habsent
  | absent =>
    simp only [returns_bind, returns_now, returns_ite, returns_pure] at h
    obtain ⟨now, w₃, rfl, ⟨-, ⟨⟩, w₄, hsleep, -, rfl⟩ | ⟨-, h⟩⟩ := h
    · exact .inl (returns_act.1 hsleep)
    · rw [hadm.2] at h
      exact .inr ⟨admission, h⟩

/-! ## Runs that may raise -/

variable {r : Except Exc α}

theorem exec_seq {m : M C (Writer ι) α} {f : α → M C (Writer ι) β} {r : Except Exc β}
    (h : Prog.Exec (step i) (m >>= f).run w r w') :
    (∃ exc, Raises i m w exc w') ∨ ∃ a w₁, Returns i m w a w₁ ∧ Prog.Exec (step i) (f a).run w₁ r w' := by
  obtain ⟨x, w₁, h1, h2⟩ := (Prog.exec_bind (step i) _ m.run w r w').1 h
  cases x with
  | ok a => exact .inr ⟨a, w₁, h1, h2⟩
  | error exc =>
    obtain ⟨-, rfl⟩ := h2
    exact .inl ⟨exc, h1⟩

theorem not_raises_lift {m : M C (Writer ι) α} {exc : Exc} : ¬Raises (C := C) i (ExceptT.lift m.run) w exc w' := by
  intro h
  obtain ⟨x, w₁, -, hret, -⟩ := (Prog.exec_bind (step i) _ m.run w (Except.error exc) w').1 h
  cases hret

theorem exec_settle {contents : Text} {answer : WriteAnswer Text (Writer ι)} {r : Except Exc Unit}
    (h : Prog.Exec (step (C := C) i) (settle config contents answer).run w r w') : w' = w := by
  cases answer with
  | applied v => exact h.2
  | conflict => exact h.2
  | failed => exact h.2
  | unknown =>
    obtain ⟨exc, hread⟩ | ⟨observed, w₁, hread, hrest⟩ := exec_seq h
    · exact (raises_readObject hread).1
    · have hsame := (returns_readObject.1 hread).2
      split at hrest
      · exact hrest.2.trans hsame
      · exact hrest.2.trans hsame

/-- A head write puts its version on the head, or changes nothing. -/
theorem exec_writeHead {op : HeadOp} {prior updated : Record} {r : Except Exc Unit}
    (h : Prog.Exec (step (C := C) i) (writeHead config op prior updated).run w r w') :
    w' = w ∨ ∃ v, Fresh w.objects (headPath config.path) v ∧ v.contents = dumps (.head updated) ∧
      w' = { w with objects := put w.objects (headPath config.path) v } := by
  obtain ⟨exc, hread⟩ | ⟨⟨record, head⟩, w₁, hread, hrest⟩ := exec_seq h
  · exact .inl (raises_readRecord hread)
  · have hsame := (returns_readRecord.1 hread).2.2
    subst hsame
    dsimp only at hrest
    split at hrest
    · exact .inl hrest.2
    · obtain ⟨exc, answer, w₂, -, hret, -⟩ | ⟨answer, w₂, hact, hsettle⟩ := exec_seq hrest
      · cases hret
      · rw [exec_settle hsettle]
        obtain ⟨s, hswap, rfl⟩ := returns_act.1 hact
        obtain ⟨-, v, hfresh, hc, -, rfl, -⟩ | ⟨rfl, -⟩ := hswap
        · exact .inr ⟨v, hfresh, hc, rfl⟩
        · exact .inl rfl

/-- The end of an exchange puts its head on the pending one, or changes nothing. -/
theorem exec_finishExchange {admission : Admission} {status : Status} {r : Except Exc Unit}
    (h : Prog.Exec (step (C := C) i) (finishExchange config admission status).run w r w') :
    w' = w ∨ ∃ record expiresAt v, Fresh w.objects (headPath config.path) v ∧
      v.contents = dumps (.head (finishedRecord config record status expiresAt)) ∧
      w' = { w with objects := put w.objects (headPath config.path) v } := by
  obtain ⟨exc, hread⟩ | ⟨⟨record, head⟩, w₁, hread, hrest⟩ := exec_seq h
  · exact .inl (raises_readRecord hread)
  · have hsame := (returns_readRecord.1 hread).2.2
    subst hsame
    dsimp only at hrest
    split at hrest
    · obtain ⟨exc, hparse⟩ | ⟨expiresAt, w₂, hparse, hwrite⟩ := exec_seq hrest
      · exact .inl (raises_orRaise hparse).2
      · have hsame := (returns_orRaise.1 hparse).2
        subst hsame
        obtain rfl | ⟨v, hfresh, hc, rfl⟩ := exec_writeHead hwrite
        · exact .inl rfl
        · exact .inr ⟨record, expiresAt, v, hfresh, hc, rfl⟩
    · exact .inl hrest.2

theorem exec_settlePublished {key : String} {written r : Except Exc Unit}
    (h : Prog.Exec (step (C := C) i) (settlePublished config key written).run w r w') : w' = w := by
  unfold settlePublished at h
  split at h
  · exact h.2
  · obtain ⟨exc, hread⟩ | ⟨⟨observed, head⟩, w₁, hread, hrest⟩ := exec_seq h
    · exact raises_readRecord hread
    · have hsame := (returns_readRecord.1 hread).2.2
      dsimp only at hrest
      split at hrest
      · exact hrest.2.trans hsame
      · exact hrest.2.trans hsame
  · exact h.2

/-- A publication puts its head on the pending one, or changes nothing. -/
theorem exec_publishResult {admission : Admission} {key : String} {result : Version Text (Writer ι)} {r : Except Exc Unit}
    (h : Prog.Exec (step (C := C) i) (publishResult config admission key result).run w r w') :
    w' = w ∨ ∃ record envelope expiresAt v, checkResult config admission result = .ok envelope ∧
      Fresh w.objects (headPath config.path) v ∧
      v.contents = dumps (.head (publishedRecord config record envelope key result expiresAt)) ∧
      w' = { w with objects := put w.objects (headPath config.path) v } := by
  obtain ⟨exc, hread⟩ | ⟨⟨record, head⟩, w₁, hread, hrest⟩ := exec_seq h
  · exact .inl (raises_readRecord hread)
  · have hsame := (returns_readRecord.1 hread).2.2
    subst hsame
    dsimp only at hrest
    split at hrest
    · exact .inl hrest.2
    · split at hrest
      · obtain ⟨exc, hresult⟩ | ⟨envelope, w₂, hresult, hparsed⟩ := exec_seq hrest
        · exact .inl (raises_orRaise hresult).2
        · obtain ⟨hchecked, hsame⟩ := returns_orRaise.1 hresult
          subst hsame
          obtain ⟨exc, hparse⟩ | ⟨expiresAt, w₃, hparse, hlifted⟩ := exec_seq hparsed
          · exact .inl (raises_orRaise hparse).2
          · have hsame := (returns_orRaise.1 hparse).2
            subst hsame
            obtain ⟨exc, hlift⟩ | ⟨written, w₄, hwrite, hsettle⟩ := exec_seq hlifted
            · exact absurd hlift not_raises_lift
            · rw [exec_settlePublished hsettle]
              obtain rfl | ⟨v, hfresh, hc, rfl⟩ := exec_writeHead (returns_lift.1 hwrite)
              · exact .inl rfl
              · exact .inr ⟨record, envelope, expiresAt, v, hchecked, hfresh, hc, rfl⟩
      · exact .inl hrest.2

/-- An immutable object is created, or nothing is changed; what it returns is stored with its contents. -/
theorem exec_createImmutable {key : String} {contents : Text} {differs : String} {r : Except Exc (Version Text (Writer ι))}
    (h : Prog.Exec (step (C := C) i) (createImmutable key contents differs).run w r w') :
    (w' = w ∨ ∃ v, Fresh w.objects key v ∧ w' = { w with objects := put w.objects key v }) ∧
      ∀ item, r = .ok item → item ∈ w'.objects key ∧ item.contents = contents := by
  obtain ⟨exc, answer, w₁, -, hret, -⟩ | ⟨answer, w₁, hact, hrest⟩ := exec_seq h
  · cases hret
  · obtain ⟨s, hcreate, rfl⟩ := returns_act.1 hact
    have hsame : { w with objects := s } = w ∨ ∃ v, Fresh w.objects key v ∧ { w with objects := s } =
        { w with objects := put w.objects key v } := by
      obtain ⟨-, v, hfresh, -, -, rfl, -⟩ | ⟨rfl, -⟩ := hcreate
      · exact .inr ⟨v, hfresh, rfl⟩
      · exact .inl rfl
    -- a conflict or an unknown outcome is settled by a read
    have hread : ∀ {w₂ : World ι}, Prog.Exec (step (C := C) i) (do
        let item ← readObject key ""
        if item.contents ≠ contents then throw (.value differs) else return item : M C (Writer ι) _).run w₂ r w' →
        w' = w₂ ∧ ∀ item, r = .ok item → item ∈ w'.objects key ∧ item.contents = contents := by
      intro w₂ hexec
      obtain ⟨exc, hraise⟩ | ⟨item, w₃, hfound, hcompare⟩ := exec_seq hexec
      · refine ⟨(raises_readObject hraise).1, fun item hitem => ?_⟩
        rw [hitem] at hexec
        obtain ⟨found, w₃, hfound, hcompare⟩ := returns_bind.1 hexec
        obtain ⟨hlookup, rfl⟩ := returns_readObject.1 hfound
        obtain ⟨-, hthrow⟩ | ⟨heq, hpure⟩ := returns_ite.1 hcompare
        · exact absurd hthrow returns_throw
        · obtain ⟨rfl, rfl⟩ := returns_pure.1 hpure
          exact ⟨mem_of_lookup hlookup, not_not.1 heq⟩
      · obtain ⟨hlookup, rfl⟩ := returns_readObject.1 hfound
        split at hcompare
        · refine ⟨hcompare.2, fun item hitem => ?_⟩
          rw [hitem] at hcompare
          cases hcompare.1
        · rename_i heq
          refine ⟨hcompare.2, fun item' hitem => ?_⟩
          rw [hitem] at hcompare
          obtain ⟨hret, rfl⟩ := hcompare
          cases hret
          exact ⟨mem_of_lookup hlookup, not_not.1 heq⟩
    cases answer with
    | failed =>
      obtain ⟨hret, rfl⟩ := hrest
      refine ⟨hsame, fun item hitem => ?_⟩
      rw [hitem] at hret
      cases hret
    | conflict =>
      obtain ⟨rfl, hitem⟩ := hread hrest
      exact ⟨hsame, hitem⟩
    | unknown =>
      obtain ⟨rfl, hitem⟩ := hread hrest
      exact ⟨hsame, hitem⟩
    | applied v =>
      obtain ⟨hret, rfl⟩ := hrest
      refine ⟨hsame, fun item hitem => ?_⟩
      rw [hitem] at hret
      cases hret
      obtain ⟨-, u, -, hc, -, rfl, ha⟩ | ⟨-, ha⟩ := hcreate
      · obtain ha | ha := ha
        · cases ha
          refine ⟨?_, hc⟩
          show v ∈ put w.objects key v key
          rw [put_same]
          exact List.mem_cons_self
        · cases ha
      · obtain ha | ha | ha := ha <;> cases ha

/-! ## A connection with a given expiry -/

def sampleConfig : Config :=
  ⟨⟨"shop", "live"⟩, ⟨"mail", "main"⟩, "shop/main", fun _ => "0123456789abcdef0123456789abcdef0123456789abcdef0123456789abcdef"⟩

def sampleReference : Reference := ⟨"shop/main/credentials/first", "1", sampleConfig.digest (dumps .other)⟩

def sampleHead (stamp : Stamp) : Record :=
  ⟨connectionSchemaVersion, sampleConfig.key, sampleConfig.scope, 1, 1, .ready, some stamp, "oauth2", some sampleReference, none⟩

def sampleEnvelope (stamp : Stamp) : Envelope :=
  ⟨connectionSchemaVersion, sampleConfig.scope, sampleConfig.key, 1, none, "token", some stamp, "oauth2"⟩

/-- A head and the envelope it references, with one expiry text. -/
def sampleObjects (stamp : Stamp) : Objects Text (Writer Unit) := fun key =>
  if key = headPath sampleConfig.path then [⟨"1", "a", dumps (.head (sampleHead stamp)), .base⟩]
  else if key = sampleReference.key then [⟨"1", "a", dumps (.envelope (sampleEnvelope stamp)), .base⟩]
  else []

def sampleWorld (stamp : Stamp) : World Unit := ⟨sampleObjects stamp, [], []⟩

theorem sampleObjects_head (stamp : Stamp) : sampleObjects stamp (headPath sampleConfig.path) =
    [⟨"1", "a", dumps (.head (sampleHead stamp)), .base⟩] := if_pos rfl

theorem sampleObjects_reference (stamp : Stamp) : sampleObjects stamp sampleReference.key =
    [⟨"1", "a", dumps (.envelope (sampleEnvelope stamp)), .base⟩] := by
  unfold sampleObjects
  rw [if_neg (by decide), if_pos rfl]

theorem sampleObjects_cases (stamp : Stamp) (key : String) : sampleObjects stamp key = [] ∨
    ∃ value, sampleObjects stamp key = [⟨"1", "a", dumps value, .base⟩] ∧
      (value = .head (sampleHead stamp) ∨ value = .envelope (sampleEnvelope stamp)) := by
  unfold sampleObjects
  split
  · exact .inr ⟨_, rfl, .inl rfl⟩
  split
  · exact .inr ⟨_, rfl, .inr rfl⟩
  · exact .inl rfl

theorem sampleObjects_wf (stamp : Stamp) : Wf (sampleObjects stamp) := by
  refine ⟨fun key v hv => ?_, fun key => ?_, fun key u hu v hv _ => ?_⟩
  · rcases sampleObjects_cases stamp key with h | ⟨value, h, -⟩
    · rw [h] at hv
      cases hv
    · rw [h, List.mem_singleton] at hv
      rw [hv]
      exact ⟨show "1" ≠ "" by decide, show "a" ≠ "" by decide⟩
  · rcases sampleObjects_cases stamp key with h | ⟨value, h, -⟩
    · rw [h]
      exact .nil
    · rw [h]
      exact List.pairwise_singleton _ _
  · rcases sampleObjects_cases stamp key with h | ⟨value, h, -⟩
    · rw [h] at hu
      cases hu
    · rw [h, List.mem_singleton] at hu hv
      rw [hu, hv]

theorem sample_freshToken (stamp : Stamp) (issued : List (String × Unit)) (token : String) (h : ∀ j, (token, j) ∉ issued) :
    FreshToken ⟨sampleObjects stamp, issued, []⟩ token := by
  refine ⟨h, fun key v hv record mutation hrec hm => ?_⟩
  simp only at hv
  rcases sampleObjects_cases stamp key with he | ⟨value, he, hvalue⟩
  · rw [he] at hv
    cases hv
  · rw [he, List.mem_singleton] at hv
    rw [hv] at hrec
    rcases hvalue with rfl | rfl
    · cases hrec
      cases hm
    · cases hrec

/-- A version written later. -/
def sampleVersion (n : String) (record : Record) (op : HeadOp) : Version Text (Writer Unit) :=
  ⟨n, n, dumps (.head record), .task () op⟩

def sampleAdmitted (stamp : Stamp) (time : DateTime) : Version Text (Writer Unit) :=
  sampleVersion "2" (admittedRecord sampleConfig (sampleHead stamp) 0 "attempt" "invocation" (some time)) .admission

theorem sample_fresh (stamp : Stamp) {n : String} (h : n ≠ "" ∧ n ≠ "1" ∧ n ≠ "a") (record : Record) (op : HeadOp) :
    Fresh (sampleObjects stamp) (headPath sampleConfig.path) (sampleVersion n record op) := by
  refine ⟨h.1, h.1, fun u hu => ?_, fun u hu he => ?_⟩
  · rw [sampleObjects_head, List.mem_singleton] at hu
    rw [hu]
    exact Ne.symm h.2.1
  · rw [sampleObjects_head, List.mem_singleton] at hu
    rw [hu] at he
    exact absurd he.symm h.2.2

theorem sample_fresh_again {stamp : Stamp} {u v : Version Text (Writer Unit)}
    (h : Fresh (sampleObjects stamp) (headPath sampleConfig.path) v) (hid : v.id ≠ u.id) (hetag : v.etag ≠ u.etag) :
    Fresh (put (sampleObjects stamp) (headPath sampleConfig.path) u) (headPath sampleConfig.path) v := by
  refine ⟨h.id_ne, h.etag_ne, fun x hx => ?_, fun x hx he => ?_⟩
  · rcases List.mem_cons.1 (put_same (sampleObjects stamp) _ u ▸ hx) with rfl | hx
    · exact Ne.symm hid
    · exact h.new x hx
  · rcases List.mem_cons.1 (put_same (sampleObjects stamp) _ u ▸ hx) with rfl | hx
    · exact absurd he.symm hetag
    · exact h.etag x hx he

theorem sample_checkAdmitted (stamp : Stamp) (time : DateTime) : checkRecord sampleConfig (sampleAdmitted stamp time) =
    .ok (admittedRecord sampleConfig (sampleHead stamp) 0 "attempt" "invocation" (some time)) := by
  have hreference : referenceIsValid sampleConfig sampleReference = true := by decide
  have hattempt : isAttemptID "attempt" = true := by decide
  have hdeadline : fromisoformat (utc 40000000).format ≠ none := by decide
  simp [checkRecord, sampleAdmitted, sampleVersion, dumps, admittedRecord, connectionRecordWire, sampleHead, hreference,
    mutationIsValid, hattempt, hdeadline]

theorem sample_head (stamp : Stamp) : ((sampleObjects stamp) (headPath sampleConfig.path)).head? =
    some ⟨"1", "a", dumps (.head (sampleHead stamp)), .base⟩ :=
  congrArg List.head? (sampleObjects_head stamp)

theorem sample_check (stamp : Stamp) :
    checkRecord sampleConfig (⟨"1", "a", dumps (.head (sampleHead stamp)), .base⟩ : Version Text (Writer Unit)) =
      .ok (sampleHead stamp) := rfl

theorem sample_readMaterial {stamp : Stamp} {time : DateTime} (h : fromisoformat stamp = some time) :
    Returns (C := C) () (readMaterial sampleConfig (sampleHead stamp)) (sampleWorld stamp)
      ⟨"token", some (.moment time), "oauth2"⟩ (sampleWorld stamp) := by
  refine (returns_readMaterial sampleReference rfl).2
    ⟨⟨"1", "a", dumps (.envelope (sampleEnvelope stamp)), .base⟩, ?_, ?_, rfl⟩
  · show lookup (sampleObjects stamp) _ _ = _
    unfold lookup
    rw [if_neg (by decide), sampleObjects_reference]
    rfl
  · have hparse : parseExpiry (sampleEnvelope stamp).expiresAt = .ok (some time) := by simp [sampleEnvelope, parseExpiry, h]
    exact checkMaterial_cases.2 ⟨rfl, sampleEnvelope stamp, some time, rfl, rfl, rfl, rfl, rfl, rfl, hparse, rfl⟩

def sampleAdmission : Admission := ⟨.refreshing, "attempt", 2, 40000000, resultPath sampleConfig.path "attempt"⟩

/-- The connection after its admission, and after calls of the driver. -/
def samplePending (stamp : Stamp) (time : DateTime) (refreshed : List (Unit × Nat)) : World Unit :=
  ⟨put (sampleObjects stamp) (headPath sampleConfig.path) (sampleAdmitted stamp time),
    [("invocation", ()), ("attempt", ())], refreshed⟩

theorem sample_admits {stamp : Stamp} {time : DateTime} (h : fromisoformat stamp = some time) :
    Returns (C := C) () (admitRefresh sampleConfig (sampleHead stamp) 0) (sampleWorld stamp) sampleAdmission
      (samplePending stamp time []) := by
  have hparse : parseExpiry (sampleHead stamp).expiresAt = .ok (some time) := by simp [sampleHead, parseExpiry, h]
  exact returns_admitRefresh.2 ⟨"attempt", "invocation", some time, _, sampleAdmitted stamp time, _,
    sample_freshToken stamp [] "attempt" (by simp), sample_freshToken stamp _ "invocation" (by simp [sampleWorld]), rfl, hparse,
    rfl, sample_head stamp, sample_check stamp, sample_fresh stamp (by decide) _ _, rfl, rfl, rfl⟩

theorem sample_finishes (stamp : Stamp) (time : DateTime) {time' : DateTime} (h : fromisoformat time.format = some time')
    (refreshed : List (Unit × Nat)) :
    ∃ w₂ : World Unit, Returns (C := C) () (finishExchange sampleConfig sampleAdmission .ready) (samplePending stamp time refreshed)
      () w₂ ∧ w₂.refreshed = refreshed := by
  have hparse : parseExpiry (admittedRecord sampleConfig (sampleHead stamp) 0 "attempt" "invocation" (some time)).expiresAt =
      .ok (some time') := by
    simp [admittedRecord, connectionRecordWire, formatRFC3339Nano, parseExpiry, h]
  have hfresh := sample_fresh_again (u := sampleAdmitted stamp time) (sample_fresh stamp (n := "3") (by decide)
    (finishedRecord sampleConfig (admittedRecord sampleConfig (sampleHead stamp) 0 "attempt" "invocation" (some time)) .ready
      (some time')) (.finish "attempt" 2)) (show "3" ≠ "2" by decide) (show "3" ≠ "2" by decide)
  refine ⟨{ samplePending stamp time refreshed with objects := put _ (headPath sampleConfig.path) _ },
    returns_finishExchange.2 ⟨sampleAdmitted stamp time, _, some time', _, ?_, sample_checkAdmitted stamp time, rfl, hparse, hfresh,
      rfl, rfl, rfl⟩, rfl⟩
  exact congrArg List.head? (put_same (sampleObjects stamp) (headPath sampleConfig.path) (sampleAdmitted stamp time))

end Provider
end Dex
