import DexConnectors.ProviderReplicasOnce
/-!
# ProviderReplicasRuns — every run of Python and TypeScript replicas of one connection

Each replica makes one call, with the SDK it runs; the store may answer an operation in any way, and a replica that is
cancelled or dies takes no further step.  `replicas_dispatch_once` holds in every state that any interleaving reaches.
-/
namespace Dex
namespace Replicas

open Lib Lib.Store Wire
open Provider (Exc HeadOp Writer World Op Ans M P Config Result Admitted HeadWrite Pending Unused entry entry_head entry_kind
  step linked_of_base)

variable {C T ι α β : Type}

/-! ## Calls -/

/-- What a replacement stores, in the types of the SDK. -/
def Sdk.Material : Sdk → Type
  | .python => Provider.Material
  | .typeScript => ProviderTS.Material

/-- What an application asks of a replica. -/
inductive Call (C : Type) (sdk : Sdk) where
  | resolve (decode : String → Option C)
  | resolveWithRefresh (decode : String → Option C) (encode : C → Option String) (rounds : Nat)
  | resolveAfterRejection (decode : String → Option C) (encode : C → Option String) (rounds : Nat)
  | replaceCredential (expectedRevision : Nat) (material : sdk.Material)

def Call.method (config : Config) : (sdk : Sdk) → Call C sdk → M C T (Result C)
  | .python, .resolve decode => Result.credentials <$> Provider.resolve config decode
  | .python, .resolveWithRefresh decode encode rounds =>
    Result.credentials <$> Provider.resolveWithRefresh config decode encode rounds
  | .python, .resolveAfterRejection decode encode rounds =>
    Result.credentials <$> Provider.resolveAfterRejection config decode encode rounds
  | .python, .replaceCredential expectedRevision material =>
    Result.connection <$> Provider.replaceCredential config expectedRevision material
  | .typeScript, .resolve decode => Result.credentials <$> ProviderTS.Canonical.resolve config decode
  | .typeScript, .resolveWithRefresh decode encode rounds =>
    Result.credentials <$> ProviderTS.Canonical.resolveWithRefresh config decode encode rounds
  | .typeScript, .resolveAfterRejection decode encode rounds =>
    Result.credentials <$> ProviderTS.Canonical.resolveAfterRejection config decode encode rounds
  | .typeScript, .replaceCredential expectedRevision material =>
    Result.connection <$> ProviderTS.Canonical.replaceCredential config expectedRevision material

variable {config : Config} {i : ι} {w : World ι}

section

variable {reader : ι → HeadReader (Writer ι)}

theorem safe_done_map {m : M C (Writer ι) α} {f : α → β} (h : (protocol config reader).Safe i (fun _ _ => True) m.run w) :
    (protocol config reader).Safe i (fun _ _ => True) (f <$> m : M C (Writer ι) β).run w :=
  Method.safe_map h

theorem Keeps.safe {m : M C (Writer ι) α} (h : Keeps config reader i (fun _ _ => True) m w) :
    (protocol config reader).Safe i (fun _ _ => True) m.run w :=
  Method.Ensures.safe h (fun _ _ _ _ => trivial)

/-- **Every call is safe** for a replica that has not refreshed, whatever SDK it runs. -/
theorem safe_call {sdk : Sdk} (call : Call C sdk) (hreader : reader i = sdk.reader config) (hinv : Inv config reader w)
    (hunused : Unused i w) : (protocol config reader).Safe i (fun _ _ => True) (call.method config sdk).run w := by
  cases sdk with
  | python =>
    have hpython : (reader i).check = Provider.checkRecord config := by rw [hreader]; rfl
    cases call with
    | resolve decode => exact safe_done_map (Python.keeps_resolve hpython hinv).safe
    | resolveWithRefresh decode encode rounds =>
      exact safe_done_map (Python.safe_resolveWithRefresh hpython rounds hinv hunused)
    | resolveAfterRejection decode encode rounds =>
      exact safe_done_map (Python.safe_resolveAfterRejection hpython rounds hinv hunused)
    | replaceCredential expectedRevision material => exact safe_done_map (Python.keeps_replaceCredential hpython hinv).safe
  | typeScript =>
    have htypeScript : (reader i).check = ProviderTS.checkRecord config := by rw [hreader]; rfl
    cases call with
    | resolve decode => exact safe_done_map (TypeScript.keeps_resolve htypeScript hinv).safe
    | resolveWithRefresh decode encode rounds =>
      exact safe_done_map (TypeScript.safe_resolveWithRefresh htypeScript rounds hinv hunused)
    | resolveAfterRejection decode encode rounds =>
      exact safe_done_map (TypeScript.safe_resolveAfterRejection htypeScript rounds hinv hunused)
    | replaceCredential expectedRevision material =>
      exact safe_done_map (TypeScript.keeps_replaceCredential htypeScript hinv).safe

/-! ## What the invariant says of the head -/

/-- A publication is onto the head that has the exchange pending. -/
theorem Inv.published (h : Inv config reader w) {v : Version Text (Writer ι)} {rest : List (Version Text (Writer ι))}
    {attemptID : String} {fence : Nat} (hs : v :: rest <:+ w.objects (headPath config.path))
    (hv : v.writer = .task i (.publish attemptID fence)) :
    ∃ p older old new, rest = p :: older ∧ (reader i).check p = .ok old ∧ Pending attemptID fence old ∧
      v.contents = dumps (.head new) ∧ new.status = .ready ∧ new.fence = fence := by
  obtain ⟨old, new, hc, hwrite, hsome, hprev⟩ := h.written v rest hs i _ hv
  cases old with
  | none => exact hwrite.elim
  | some old =>
    obtain ⟨hpending, hready, -, hfence, -⟩ := hwrite
    cases rest with
    | nil => cases hsome
    | cons p older => exact ⟨p, older, old, new, rfl, hprev p old rfl rfl, hpending, hc, hready, hfence.trans hpending.1⟩

/-- A version that a replica wrote is none that was there before. -/
theorem Inv.kind_ne_base (h : Inv config reader w) {v : Version Text (Writer ι)} {rest : List (Version Text (Writer ι))}
    {op : HeadOp} (hs : v :: rest <:+ w.objects (headPath config.path)) (hv : v.writer = .task i op) :
    (entry v).kind ≠ .base := by
  obtain ⟨old, new, -, hwrite, -⟩ := h.written v rest hs i op hv
  rw [entry_kind, hv]
  cases op with
  | object => cases old <;> exact hwrite.elim
  | _ => exact fun hk => by cases hk

/-- A version of the run is not followed by one from before it. -/
theorem Inv.not_base (h : Inv config reader w) {newer older : List (Version Text (Writer ι))} {x : Version Text (Writer ι)}
    (hw : w.objects (headPath config.path) = newer ++ x :: older) (hx : (entry x).kind ≠ .base) :
    ∀ u ∈ newer, (entry u).kind ≠ .base := by
  intro u hu hbase
  obtain ⟨front, back, rfl⟩ := List.append_of_mem hu
  have hlink : Head.Linked entry (u :: (back ++ x :: older)) := h.linked.suffix ⟨front, by rw [hw]; simp⟩
  exact hx (Head.base_of_base hlink hbase x (by simp))

/-- Once the head has left a pending exchange, the exchange is never published. -/
theorem Inv.left (h : Inv config reader w) {newer older : List (Version Text (Writer ι))} {x p : Version Text (Writer ι)}
    {old : Record} {attemptID : String} {fence : Nat} (hw : w.objects (headPath config.path) = newer ++ x :: p :: older)
    {k : ι} {op : HeadOp} (hx : x.writer = .task k op) (hp : p.contents.value = .head old)
    (hpending : Pending attemptID fence old) {v : Version Text (Writer ι)} (hv : v ∈ newer) (j : ι) :
    v.writer ≠ .task j (.publish attemptID fence) := by
  intro hvw
  have hxbase := h.kind_ne_base ⟨newer, hw.symm⟩ hx
  obtain ⟨front, back, rfl⟩ := List.append_of_mem hv
  have hsuffix : v :: (back ++ x :: p :: older) <:+ w.objects (headPath config.path) := ⟨front, by rw [hw]; simp⟩
  obtain ⟨q, before, oldq, new, hrest, hcheck, hpendingq, -⟩ := h.published hsuffix hvw
  have hlater : ∀ u ∈ front ++ v :: back ++ [x], (entry u).kind ≠ .base := by
    intro u hu
    rcases List.mem_append.1 hu with hu | hu
    · exact h.not_base hw hxbase u hu
    · rw [List.mem_singleton.1 hu]
      exact hxbase
  have hq : q ∈ front ++ v :: back ++ [x] := by
    cases back with
    | nil => cases hrest; simp
    | cons b back => cases hrest; simp
  have hall : w.objects (headPath config.path) = (front ++ v :: back ++ [x]) ++ p :: older := by rw [hw]; simp
  have hlinked := h.linked
  rw [hall] at hlinked hsuffix
  rw [hrest] at hsuffix
  have hne := Head.publish_after hlinked hlater hsuffix hq (by rw [entry_kind, hvw]; rfl)
  rw [entry_head ((reader j).value hcheck), entry_head hp] at hne
  exact hne (hpendingq.1.trans hpending.1.symm)

/-- A refresh was admitted by a `REFRESHING` head of the replica's own. -/
theorem Inv.admission (h : Inv config reader w) {fence : Nat} (hf : (i, fence) ∈ w.refreshed) :
    ∃ v ∈ w.objects (headPath config.path), v.writer = .task i .admission ∧
      ∃ record, v.contents = dumps (.head record) ∧ record.status = .refreshing ∧ record.fence = fence := by
  obtain ⟨v, hv, hvw, hvf⟩ := h.refreshed i fence hf
  obtain ⟨front, back, hw⟩ := List.append_of_mem hv
  obtain ⟨old, new, hc, hwrite, -⟩ := h.written v back ⟨front, hw.symm⟩ i .admission hvw
  refine ⟨v, hv, hvw, new, hc, ?_, ?_⟩
  · cases old with
    | none => exact hwrite.elim
    | some old => exact hwrite.2.1
  · rw [entry_head (congrArg Text.value hc)] at hvf
    exact hvf

/-- **No update of the head is lost**: a version that a replica wrote follows the one that the replica accepted. -/
theorem Inv.follows (h : Inv config reader w) {v p : Version Text (Writer ι)} {older : List (Version Text (Writer ι))}
    {op : HeadOp} (hs : v :: p :: older <:+ w.objects (headPath config.path)) (hv : v.writer = .task i op) :
    ∃ old new, (reader i).check p = .ok old ∧ v.contents = dumps (.head new) ∧ new.revision = old.revision + 1 ∧
      ((∃ attemptID, op = .publish attemptID new.fence ∧ new.fence = old.fence) ∨ new.fence = old.fence + 1) ∧
      ((∀ attemptID fence, op ≠ .publish attemptID fence) → op ≠ .replace → new.credential = old.credential) := by
  obtain ⟨old, new, hc, hwrite, hsome, hprev⟩ := h.written v (p :: older) hs i op hv
  obtain ⟨old, rfl⟩ := Option.isSome_iff_exists.1 hsome
  refine ⟨old, new, hprev p old rfl rfl, hc, ?_⟩
  cases op with
  | admission =>
    obtain ⟨-, -, hrevision, hfence, hcredential, -⟩ := hwrite
    exact ⟨hrevision, .inr hfence, fun _ _ => hcredential⟩
  | publish attemptID fence =>
    obtain ⟨hpending, -, hrevision, hfence, -⟩ := hwrite
    exact ⟨hrevision, .inl ⟨attemptID, by rw [hfence, hpending.1], hfence⟩, fun hne => absurd rfl (hne _ _)⟩
  | finish attemptID fence =>
    obtain ⟨-, hrevision, hfence, hcredential, -⟩ := hwrite
    exact ⟨hrevision, .inr hfence, fun _ _ => hcredential⟩
  | replace =>
    obtain ⟨-, hrevision, hfence, -⟩ := hwrite
    exact ⟨hrevision, .inr hfence, fun _ hne => absurd rfl hne⟩
  | object => exact hwrite.elim

end

/-! ## Every run -/

/-- **Where a run starts**: any store, written before, and every replica about to make its call. -/
structure Start (config : Config) (sdk : ι → Sdk)
    (c : Lib.Config (Op C) (Ans C (Writer ι)) (Except Exc (Result C)) (World ι) ι) : Prop where
  wf        : Wf c.state.objects
  base      : ∀ key, ∀ v ∈ c.state.objects key, v.writer = .base
  issued    : c.state.issued = []
  refreshed : c.state.refreshed = []
  calls     : ∀ i, ∃ call : Call C (sdk i), c.threads i = (call.method config (sdk i)).run

variable {sdk : ι → Sdk} {c c' : Lib.Config (Op C) (Ans C (Writer ι)) (Except Exc (Result C)) (World ι) ι}

theorem Start.inv (h : Start config sdk c) : Inv config (fun i => (sdk i).reader config) c.state where
  wf := h.wf
  linked := linked_of_base (h.base _)
  written := by
    intro v rest hs i op hv
    rw [h.base _ v (hs.subset List.mem_cons_self)] at hv
    cases hv
  unique := by
    intro x j j' hj
    rw [h.issued] at hj
    cases hj
  owned := by
    intro x j hj
    rw [h.issued] at hj
    cases hj
  refreshed := by
    intro i f hf
    rw [h.refreshed] at hf
    cases hf
  once := by
    rw [h.refreshed]
    exact List.nodup_nil

theorem inv_of_run (hstart : Start config sdk c) (hrun : Lib.Config.Run step c c') :
    Inv config (fun i => (sdk i).reader config) c'.state := by
  refine (Protocol.safe_run (P := protocol config (fun i => (sdk i).reader config)) (Q := fun _ _ _ => True) hrun
    hstart.inv (fun i => ?_)).1
  obtain ⟨call, hcall⟩ := hstart.calls i
  rw [hcall]
  refine safe_call call rfl hstart.inv (fun f hf => ?_)
  rw [hstart.refreshed] at hf
  cases hf

/-- **One provider dispatch per generation, among replicas of both SDKs.**  In every state that any interleaving of their
calls reaches: no two calls of the driver were admitted under one fence; each was made by the replica whose own `REFRESHING`
head was applied under that fence; a result was published only onto a head that the publishing replica accepts, pending with
its attempt and fence, and never after the head had left that exchange; and every head that a replica wrote follows the one
it accepted, one revision later, under the same fence only for a publication, and with the credential changed only by a
publication or a replacement. -/
theorem replicas_dispatch_once (hstart : Start config sdk c) (hrun : Lib.Config.Run step c c') :
    (c'.state.refreshed.map Prod.snd).Nodup ∧
    (∀ i fence, (i, fence) ∈ c'.state.refreshed → ∃ v ∈ c'.state.objects (headPath config.path),
      v.writer = .task i .admission ∧ ∃ record, v.contents = dumps (.head record) ∧ record.status = .refreshing ∧
      record.fence = fence) ∧
    (∀ v rest i attemptID fence, v :: rest <:+ c'.state.objects (headPath config.path) →
      v.writer = .task i (.publish attemptID fence) → ∃ p older old new, rest = p :: older ∧
      ((sdk i).reader config).check p = .ok old ∧ Pending attemptID fence old ∧ v.contents = dumps (.head new) ∧
      new.status = .ready ∧ new.fence = fence) ∧
    (∀ newer x p older k op old attemptID fence,
      c'.state.objects (headPath config.path) = newer ++ x :: p :: older → x.writer = .task k op →
      p.contents.value = .head old → Pending attemptID fence old →
      ∀ v ∈ newer, ∀ i, v.writer ≠ .task i (.publish attemptID fence)) ∧
    (∀ v p older i op, v :: p :: older <:+ c'.state.objects (headPath config.path) → v.writer = .task i op →
      ∃ old new, ((sdk i).reader config).check p = .ok old ∧ v.contents = dumps (.head new) ∧
      new.revision = old.revision + 1 ∧
      ((∃ attemptID, op = .publish attemptID new.fence ∧ new.fence = old.fence) ∨ new.fence = old.fence + 1) ∧
      ((∀ attemptID fence, op ≠ .publish attemptID fence) → op ≠ .replace → new.credential = old.credential)) := by
  have hinv := inv_of_run hstart hrun
  refine ⟨hinv.once, fun i fence hf => hinv.admission hf, fun v rest i attemptID fence hs hv => hinv.published hs hv, ?_, ?_⟩
  · intro newer x p older k op old attemptID fence hw hx hp hpending v hv i
    exact hinv.left hw hx hp hpending hv i
  · intro v p older i op hs hv
    exact hinv.follows hs hv

/-! ## A TypeScript replica connects, a Python replica refreshes -/

section

open Rfc3339
open Provider (Returns Raises returns_pure returns_act returns_bind returns_orRaise returns_lift returns_now raises_bind
  returns_readRecord returns_readMaterial returns_admitRefresh returns_finishExchange checkMaterial_cases sampleConfig
  admittedRecord finishedRecord)

/-- An expired credential. -/
def sampleMaterial : ProviderTS.Material := ⟨"token", some (some (-60000)), "oauth2"⟩

def sampleCall : (sdk : Sdk) → Call String sdk
  | .python => .resolveWithRefresh some some 1
  | .typeScript => .replaceCredential 0 sampleMaterial

/-- An empty store, and a replica of each SDK that is about to make its call. -/
def sampleStart : Lib.Config (Op String) (Ans String (Writer Sdk)) (Except Exc (Result String)) (World Sdk) Sdk :=
  ⟨⟨fun _ => [], [], []⟩, fun sdk => ((sampleCall sdk).method sampleConfig sdk).run⟩

theorem sampleStart_start : Start sampleConfig id sampleStart :=
  ⟨wf_empty, fun _ _ h => (by cases h), rfl, rfl, fun sdk => ⟨sampleCall sdk, rfl⟩⟩

def sampleEnvelope : Text :=
  dumps (.envelope ⟨connectionSchemaVersion, sampleConfig.scope, sampleConfig.key, 1, none, "token", some ⟨-60, [], .utc⟩, "oauth2"⟩)

def sampleReference : Reference :=
  ⟨credentialPath sampleConfig.path (sampleConfig.digest sampleEnvelope), "1", sampleConfig.digest sampleEnvelope⟩

def sampleHead : Record :=
  ⟨connectionSchemaVersion, sampleConfig.key, sampleConfig.scope, 1, 1, .ready, some ⟨-60, [], .utc⟩, "oauth2",
    some sampleReference, none⟩

def sampleCredential : Version Text (Writer Sdk) := ⟨"1", "a", sampleEnvelope, .task .typeScript .object⟩

def sampleConnected : Version Text (Writer Sdk) := ⟨"1", "a", dumps (.head sampleHead), .task .typeScript .replace⟩

def connectedObjects : Objects Text (Writer Sdk) :=
  put (put (fun _ => []) sampleReference.key sampleCredential) (headPath sampleConfig.path) sampleConnected

theorem reference_ne_head : headPath sampleConfig.path ≠ sampleReference.key := headPath_ne_credentialPath _ _

theorem connectedObjects_head : connectedObjects (headPath sampleConfig.path) = [sampleConnected] := by
  unfold connectedObjects
  rw [put_same, put_of_ne _ _ reference_ne_head]

theorem connectedObjects_reference : connectedObjects sampleReference.key = [sampleCredential] := by
  unfold connectedObjects
  rw [put_of_ne _ _ reference_ne_head.symm, put_same]

/-- The TypeScript replica connects. -/
theorem sample_connects : Returns Sdk.typeScript (ProviderTS.Canonical.replaceCredential sampleConfig 0 sampleMaterial : M String _ _)
    ⟨fun _ => [], [], []⟩ sampleHead ⟨connectedObjects, [], []⟩ := by
  have habsent : Raises (C := String) Sdk.typeScript (ProviderTS.readRecord sampleConfig) ⟨fun _ => [], [], []⟩ .objectNotFound
      ⟨fun _ => [], [], []⟩ :=
    raises_bind.2 (.inl (raises_bind.2 (.inr ⟨.absent, _, returns_act.2 ⟨rfl, rfl⟩, rfl, rfl⟩)))
  have hcredential : Fresh (fun _ => [] : Objects Text (Writer Sdk)) sampleReference.key sampleCredential :=
    ⟨by decide, by decide, fun _ h => (by cases h), fun _ h => (by cases h)⟩
  have hempty : (put (fun _ => []) sampleReference.key sampleCredential : Objects Text (Writer Sdk))
      (headPath sampleConfig.path) = [] := put_of_ne _ _ reference_ne_head
  have hhead : Fresh (put (fun _ => []) sampleReference.key sampleCredential) (headPath sampleConfig.path) sampleConnected := by
    refine ⟨by decide, by decide, fun u hu => ?_, fun u hu => ?_⟩ <;> rw [hempty] at hu <;> cases hu
  unfold ProviderTS.Canonical.replaceCredential
  rw [if_neg (by decide)]
  refine returns_bind.2 ⟨none, _, returns_bind.2 ⟨.error .objectNotFound, _, returns_lift.2 habsent, returns_pure.2 ⟨rfl, rfl⟩⟩, ?_⟩
  rw [if_neg (by decide)]
  refine returns_bind.2 ⟨some ⟨-60, [], .utc⟩, _, returns_orRaise.2 ⟨by rfl, rfl⟩, ?_⟩
  refine returns_bind.2 ⟨sampleCredential, _, returns_bind.2 ⟨.applied sampleCredential, _, returns_act.2 ⟨_, .inl ⟨rfl,
    sampleCredential, hcredential, rfl, rfl, rfl, .inl rfl⟩, rfl⟩, returns_pure.2 ⟨rfl, rfl⟩⟩, ?_⟩
  refine returns_bind.2 ⟨sampleHead, _, returns_orRaise.2 ⟨by rfl, rfl⟩, ?_⟩
  refine returns_bind.2 ⟨.applied sampleConnected, ⟨connectedObjects, [], []⟩, returns_act.2 ⟨_, .inl ⟨hempty, sampleConnected,
    hhead, rfl, rfl, rfl, .inl rfl⟩, rfl⟩, ?_⟩
  exact returns_bind.2 ⟨(), _, returns_pure.2 ⟨rfl, rfl⟩, returns_pure.2 ⟨rfl, rfl⟩⟩

theorem sample_freshToken (issued : List (String × Sdk)) (token : String) (h : ∀ j, (token, j) ∉ issued) :
    Provider.FreshToken ⟨connectedObjects, issued, []⟩ token := by
  refine ⟨h, fun key v hv record mutation hrec hm => ?_⟩
  dsimp only at hv
  by_cases hhead : key = headPath sampleConfig.path
  · rw [hhead, connectedObjects_head, List.mem_singleton] at hv
    rw [hv] at hrec
    cases hrec
    cases hm
  by_cases hcredential : key = sampleReference.key
  · rw [hcredential, connectedObjects_reference, List.mem_singleton] at hv
    rw [hv] at hrec
    cases hrec
  · unfold connectedObjects at hv
    rw [put_of_ne _ _ hhead, put_of_ne _ _ hcredential] at hv
    cases hv

def sampleAdmitted : Record :=
  admittedRecord sampleConfig sampleHead 0 "attempt" "invocation" (some ⟨-60, [0, 0, 0, 0, 0, 0], 0⟩)

def sampleAdmission : Version Text (Writer Sdk) := ⟨"2", "b", dumps (.head sampleAdmitted), .task .python .admission⟩

def sampleFinished : Record := finishedRecord sampleConfig sampleAdmitted .ready (some ⟨-60, [0, 0, 0, 0, 0, 0], 0⟩)

def sampleFinish : Version Text (Writer Sdk) := ⟨"3", "c", dumps (.head sampleFinished), .task .python (.finish "attempt" 2)⟩

/-- The connection with a refresh that was admitted, and calls of the driver. -/
def sampleRefreshing (refreshed : List (Sdk × Nat)) : World Sdk :=
  ⟨put connectedObjects (headPath sampleConfig.path) sampleAdmission, [("invocation", .python), ("attempt", .python)], refreshed⟩

theorem sampleRefreshing_head (refreshed : List (Sdk × Nat)) :
    (sampleRefreshing refreshed).objects (headPath sampleConfig.path) = [sampleAdmission, sampleConnected] := by
  simp only [sampleRefreshing, put_same, connectedObjects_head]

theorem sample_checkAdmitted : Provider.checkRecord sampleConfig sampleAdmission = .ok sampleAdmitted := by
  have hreference : Provider.referenceIsValid sampleConfig sampleReference = true := by decide
  have hattempt : isAttemptID "attempt" = true := by decide
  have hdeadline : fromisoformat (Provider.utc 40000000).format ≠ none := by decide
  simp [Provider.checkRecord, sampleAdmission, dumps, sampleAdmitted, admittedRecord, Provider.connectionRecordWire, sampleHead,
    hreference, Provider.mutationIsValid, hattempt, hdeadline]

theorem sample_fresh {v : Version Text (Writer Sdk)} (h : v.id ≠ "" ∧ v.id ≠ "1") (he : v.etag ≠ "" ∧ v.etag ≠ "a") :
    Fresh connectedObjects (headPath sampleConfig.path) v := by
  refine ⟨h.1, he.1, fun u hu => ?_, fun u hu hetag => ?_⟩ <;> rw [connectedObjects_head, List.mem_singleton] at hu
  · rw [hu]
    exact Ne.symm h.2
  · rw [hu] at hetag
    exact absurd hetag.symm he.2

/-- The Python replica refreshes the credential, its driver fails, and it restores the head. -/
theorem sample_refreshes : ∃ w' : World Sdk, Raises Sdk.python
    (Provider.resolveWithRefresh sampleConfig some some 1 : M String _ _) ⟨connectedObjects, [], []⟩
    (.refreshFailed "project credential refresh failed; current authorization is kept") w' ∧ w'.refreshed = [(.python, 2)] := by
  have hcurrent : (connectedObjects (headPath sampleConfig.path)).head? = some sampleConnected :=
    congrArg List.head? connectedObjects_head
  have hcheck : Provider.checkRecord sampleConfig sampleConnected = .ok sampleHead := rfl
  have hobject : lookup connectedObjects sampleReference.key sampleReference.version = some sampleCredential := by
    unfold lookup
    rw [if_neg (by decide), connectedObjects_reference]
    rfl
  have hcredential : sampleHead.credential = some sampleReference := rfl
  have hmaterial := (returns_readMaterial (C := String) (i := Sdk.python) (w := ⟨connectedObjects, [], []⟩) sampleReference
    hcredential).2 ⟨sampleCredential, hobject,
      checkMaterial_cases.2 ⟨rfl, _, some ⟨-60, [0, 0, 0, 0, 0, 0], 0⟩, rfl, rfl, rfl, rfl, rfl, rfl, rfl, rfl⟩, rfl⟩
  have hadmits : Returns (C := String) Sdk.python (Provider.admitRefresh sampleConfig sampleHead 0) ⟨connectedObjects, [], []⟩ _
      (sampleRefreshing []) :=
    returns_admitRefresh.2 ⟨"attempt", "invocation", some ⟨-60, [0, 0, 0, 0, 0, 0], 0⟩, _, sampleAdmission, _,
      sample_freshToken [] "attempt" (by simp), sample_freshToken _ "invocation" (by simp), rfl, rfl, rfl, hcurrent, hcheck,
      sample_fresh (by decide) (by decide), rfl, rfl, rfl⟩
  have hfresh : Fresh (sampleRefreshing [(.python, 2)]).objects (headPath sampleConfig.path) sampleFinish := by
    refine ⟨by decide, by decide, fun u hu => ?_, fun u hu => ?_⟩ <;>
      rw [sampleRefreshing_head, List.mem_cons, List.mem_singleton] at hu
    · rcases hu with rfl | rfl <;> decide
    · rcases hu with rfl | rfl <;> exact fun h => absurd h (by decide)
  have hfinish : Returns (C := String) Sdk.python (Provider.finishExchange sampleConfig
      ⟨.refreshing, "attempt", 2, 40000000, resultPath sampleConfig.path "attempt"⟩ .ready)
      (sampleRefreshing [(.python, 2)]) () _ := returns_finishExchange.2
    ⟨sampleAdmission, sampleAdmitted, some ⟨-60, [0, 0, 0, 0, 0, 0], 0⟩, sampleFinish,
      congrArg List.head? (sampleRefreshing_head _), sample_checkAdmitted, rfl, rfl, hfresh, rfl, rfl, rfl⟩
  refine ⟨⟨put (sampleRefreshing []).objects (headPath sampleConfig.path) sampleFinish,
    [("invocation", .python), ("attempt", .python)], [(.python, 2)]⟩, raises_bind.2 (.inl ?_), rfl⟩
  refine raises_bind.2 (.inr ⟨_, _, returns_readRecord.2 ⟨hcurrent, hcheck, rfl⟩, ?_⟩)
  refine raises_bind.2 (.inr ⟨_, _, hmaterial, ?_⟩)
  refine raises_bind.2 (.inr ⟨(0 : Int), _, returns_now.2 rfl, ?_⟩)
  refine raises_bind.2 (.inr ⟨true, _, returns_pure.2 ⟨rfl, rfl⟩, ?_⟩)
  refine raises_bind.2 (.inr ⟨.ok _, _, returns_lift.2 hadmits, ?_⟩)
  refine raises_bind.2 (.inl (raises_bind.2 (.inr ⟨.failed false, sampleRefreshing [(.python, 2)], returns_act.2 rfl, ?_⟩)))
  exact raises_bind.2 (.inr ⟨(), _, hfinish, rfl, rfl⟩)

/-- The TypeScript replica connects, then the Python replica refreshes what it finds. -/
theorem replicas_dispatch_once_refreshed : ∃ c', Lib.Config.Run step sampleStart c' ∧
    c'.state.refreshed = [(.python, 2)] ∧ (c'.state.refreshed.map Prod.snd).Nodup := by
  obtain ⟨w', hrefreshes, hrefreshed⟩ := sample_refreshes
  have hconnects : Prog.Exec (step .typeScript) (sampleStart.threads .typeScript) sampleStart.state
      (.ok (Result.connection sampleHead)) ⟨connectedObjects, [], []⟩ :=
    returns_bind.2 ⟨sampleHead, _, sample_connects, returns_pure.2 ⟨rfl, rfl⟩⟩
  obtain ⟨c₁, hrun₁, hstate₁, -, hthreads₁⟩ := Lib.Config.exists_alone rfl rfl hconnects
  have hfails : Prog.Exec (step Sdk.python) (c₁.threads .python) c₁.state
      (.error (.refreshFailed "project credential refresh failed; current authorization is kept")) w' := by
    rw [hthreads₁ _ (by decide), hstate₁]
    exact raises_bind.2 (.inl hrefreshes)
  obtain ⟨c₂, hrun₂, rfl, -⟩ := Lib.Config.exists_alone rfl rfl hfails
  have hrun := hrun₁.trans hrun₂
  exact ⟨c₂, hrun, hrefreshed, (replicas_dispatch_once sampleStart_start hrun).1⟩

end

end Replicas
end Dex
