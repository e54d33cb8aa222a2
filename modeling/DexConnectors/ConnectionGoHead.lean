import DexConnectors.HeadHistory
import DexConnectors.ConnectionGoModel
/-!
# ConnectionGoHead — the invariant of the Go connection store

Every head that a caller writes follows the head it read (`HeadWrite`): the write carries the tag of that read.  So the
history of the head is a history of the abstract head (`Inv.linked`), and two admissions never share a fence.  A fence of
the code is a `uint64`; one that wraps makes a head that no read accepts, and stands for 2^64.

A caller learns that its admission was applied from the store or, after an unknown outcome, from the head's contents; both
mean that the version is its own, because the contents carry an invocation id that only it has drawn (`Inv.owned`).
-/
namespace Dex
namespace Connections

open Lib Lib.Store
open Operation (Time)

variable {C ι : Type} (config : Config)

/-! ## Counters -/

/-- What a counter stands for. -/
def natOf (n : UInt64) : Nat := if n = 0 then 2 ^ 64 else n.toNat

theorem toNat_ne_zero {n : UInt64} (h : n ≠ 0) : n.toNat ≠ 0 := fun h0 => h (UInt64.toNat_inj.1 h0)

theorem natOf_injective {m n : UInt64} (h : natOf m = natOf n) : m = n := by
  have hm := m.toNat_lt
  have hn := n.toNat_lt
  unfold natOf at h
  split at h
  · split at h
    · simp [*]
    · omega
  · split at h
    · omega
    · exact UInt64.toNat_inj.1 h

theorem natOf_one : natOf (0 + 1) = 1 := by decide

/-- The next counter. -/
theorem natOf_succ {n : UInt64} (h : n ≠ 0) : natOf (n + 1) = natOf n + 1 := by
  have hn := n.toNat_lt
  have h0 := toNat_ne_zero h
  have hsum : (n + 1).toNat = (n.toNat + 1) % 2 ^ 64 := by simp [UInt64.toNat_add]
  unfold natOf
  rw [if_neg h]
  split
  · rename_i hz
    have : (n + 1).toNat = 0 := by rw [hz]; rfl
    omega
  · rename_i hz
    have := toNat_ne_zero hz
    omega

/-! ## Head writes -/

/-- The head is pending with this exchange. -/
def Pending (attemptID : String) (fence : UInt64) (record : ConnectionRecord Time) : Prop :=
  record.fence = fence ∧ ∃ m, record.mutation = some m ∧ m.id = attemptID

/-- **What a head write does to the record it was computed from.** -/
def HeadWrite (op : HeadOp) (old new : ConnectionRecord Time) : Prop :=
  new.revision = old.revision + 1 ∧
  match op with
  | .admission => new.fence = old.fence + 1 ∧ new.mutation ≠ none
  | .publish attemptID fence => Pending attemptID fence old ∧ new.status = .ready ∧ new.fence = old.fence ∧ new.mutation = none
  | .restore attemptID fence | .fail attemptID fence => Pending attemptID fence old ∧ new.fence = old.fence + 1 ∧
    new.mutation = none ∧ new.credential = old.credential
  | .replace | .revoke => new.fence = old.fence + 1 ∧ new.mutation = none
  | .object => False

/-- The record that a head write is computed from, given the newest head. -/
def Prior : Option (Version Contents (Writer ι)) → ConnectionRecord Time → Prop
  | none, record => record = newRecord config
  | some item, record => checkRecord config item = .ok record

def Writer.kind : Writer ι → Head.Kind
  | .base => .base
  | .caller _ .admission => .admission
  | .caller _ (.publish _ _) => .publish
  | .caller _ .object => .base
  | .caller _ _ => .settle

/-- The abstract head of a version. -/
def entry (v : Version Contents (Writer ι)) : Head.Entry :=
  match unmarshalRecord v.contents with
  | some record => ⟨v.writer.kind, natOf record.revision, natOf record.fence, record.mutation.map CredentialMutation.id⟩
  | none => ⟨v.writer.kind, 0, 0, none⟩

theorem entry_of_unmarshal {v : Version Contents (Writer ι)} {record : ConnectionRecord Time}
    (h : unmarshalRecord v.contents = some record) :
    entry v = ⟨v.writer.kind, natOf record.revision, natOf record.fence, record.mutation.map CredentialMutation.id⟩ := by
  unfold entry
  rw [h]

theorem entry_kind (v : Version Contents (Writer ι)) : (entry v).kind = v.writer.kind := by
  unfold entry
  split <;> rfl

variable {config}

/-- What a record that passes the check has passed. -/
theorem checkRecord_ok {T : Type} {item : Version Contents T} {record : ConnectionRecord Time}
    (h : checkRecord config item = .ok record) :
    unmarshalRecord item.contents = some record ∧ record.schemaVersion = Wire.connectionSchemaVersion ∧
      record.scope = config.scope ∧ record.key = config.key ∧ record.revision ≠ 0 ∧ record.fence ≠ 0 ∧ item.id ≠ "" ∧
      item.etag ≠ "" ∧ checkCredential config record = .ok () ∧ checkMutation config record = .ok () := by
  unfold checkRecord at h
  split at h
  · cases h
  · rename_i r hr
    split at h
    · cases h
    · rename_i hid
      simp only [not_or, not_not] at hid
      split at h
      · cases h
      · rename_i hcredential
        split at h
        · cases h
        · rename_i hmutation
          cases h
          exact ⟨hr, hid.1, hid.2.1, hid.2.2.1, hid.2.2.2.1, hid.2.2.2.2.1, hid.2.2.2.2.2.1, hid.2.2.2.2.2.2, hcredential,
            hmutation⟩

/-- The check depends on the contents only, for versions with an identifier and a tag. -/
theorem checkRecord_congr {T : Type} {u v : Version Contents T} (hu : u.id ≠ "" ∧ u.etag ≠ "") (hv : v.id ≠ "" ∧ v.etag ≠ "")
    (hc : u.contents = v.contents) : checkRecord config u = checkRecord config v := by
  unfold checkRecord
  rw [hc]
  simp only [hu.1, hu.2, hv.1, hv.2, or_false]

theorem checkRecord_unmarshal {T : Type} {item : Version Contents T} {record : ConnectionRecord Time}
    (h : checkRecord config item = .ok record) : unmarshalRecord item.contents = some record := (checkRecord_ok h).1

/-- The counters of the head before a write. -/
theorem prior_counters {previous : Option (Version Contents (Writer ι))} {old : ConnectionRecord Time}
    (h : Prior config previous old) :
    natOf (old.revision + 1) = ((previous.map entry).map Head.Entry.revision).getD 0 + 1 ∧
      natOf (old.fence + 1) = ((previous.map entry).map Head.Entry.fence).getD 0 + 1 := by
  cases previous with
  | none =>
    rw [show old = newRecord config from h]
    exact ⟨natOf_one, natOf_one⟩
  | some p =>
    obtain ⟨hp, -, -, -, hrevision, hfence, -⟩ := checkRecord_ok h
    simp only [Option.map_some, Option.getD_some, entry_of_unmarshal hp]
    exact ⟨natOf_succ hrevision, natOf_succ hfence⟩

/-- A head write is a change of the abstract head. -/
theorem follows_of_headWrite {i : ι} {op : HeadOp} {previous : Option (Version Contents (Writer ι))}
    {old new : ConnectionRecord Time} {v : Version Contents (Writer ι)} (h : HeadWrite op old new) (hw : v.writer = .caller i op)
    (hc : marshalRecord new = some v.contents) (hprior : Prior config previous old) :
    Head.Follows (previous.map entry) (entry v) := by
  rw [entry_of_unmarshal (unmarshalRecord_marshalRecord hc), hw]
  obtain ⟨hrevision, hfence⟩ := prior_counters hprior
  obtain ⟨hrev, h⟩ := h
  have hrev' : natOf new.stored.revision = ((previous.map entry).map Head.Entry.revision).getD 0 + 1 := by
    show natOf new.revision = _
    rw [hrev, hrevision]
  have hnext : new.fence = old.fence + 1 →
      natOf new.stored.fence = ((previous.map entry).map Head.Entry.fence).getD 0 + 1 := by
    intro hf
    show natOf new.fence = _
    rw [hf, hfence]
  have hmut : new.mutation = none → new.stored.mutation.map CredentialMutation.id = none := by
    intro hm
    show (new.mutation.map _).map _ = none
    rw [hm]
    rfl
  cases op with
  | admission =>
    refine ⟨hrev', hnext h.1, ?_⟩
    obtain ⟨m, hm⟩ := Option.ne_none_iff_exists'.1 h.2
    show (new.mutation.map _).map _ ≠ none
    rw [hm]
    simp
  | publish attemptID fence =>
    obtain ⟨⟨-, m, hm, -⟩, -, hf, hnone⟩ := h
    cases previous with
    | none =>
      rw [show old = newRecord config from hprior] at hm
      cases hm
    | some p =>
      have hp := entry_of_unmarshal (checkRecord_unmarshal hprior)
      refine ⟨entry p, rfl, ?_, ?_, ?_, hmut hnone⟩
      · rw [hp, hm]
        simp
      · simpa using hrev'
      · rw [hp]
        exact congrArg natOf hf
  | restore attemptID fence => exact ⟨hrev', hnext h.2.1, hmut h.2.2.1⟩
  | fail attemptID fence => exact ⟨hrev', hnext h.2.1, hmut h.2.2.1⟩
  | replace => exact ⟨hrev', hnext h.1, hmut h.2⟩
  | revoke => exact ⟨hrev', hnext h.1, hmut h.2⟩
  | object => exact h.elim

/-! ## The invariant -/

/-- The version carries the invocation id. -/
def Carries (v : Version Contents (Writer ι)) (invocationID : String) : Prop :=
  ∃ record m, unmarshalRecord v.contents = some record ∧ record.mutation = some m ∧ m.invocationID = invocationID

variable (config)

/-- The record references a result object of this exchange. -/
def ResultAt (w : World ι) (attemptID : String) (fence : UInt64) (record : ConnectionRecord Time) : Prop :=
  ∃ reference u wire, record.credential = some reference ∧ reference.key = exchangeResultPath config.path attemptID ∧
    u ∈ w.objects reference.key ∧ u.id = reference.version ∧ config.digest u.contents = reference.digest ∧
    u.contents.value = .envelope wire ∧ wire.fence = fence ∧ wire.attemptID = attemptID

/-- Caller `i`'s own admission under the fence. -/
def Applied (w : World ι) (i : ι) (invocationID : String) (fence : UInt64) : Prop :=
  ∃ v ∈ w.objects (connectionHeadPath config.path), v.writer = .caller i .admission ∧
    ∃ record m, unmarshalRecord v.contents = some record ∧ record.fence = fence ∧ record.mutation = some m ∧
      m.invocationID = invocationID

/-- **What holds of every state of a run.** -/
structure Inv (w : World ι) : Prop where
  wf        : Wf w.objects
  linked    : Head.Linked entry (w.objects (connectionHeadPath config.path))
  written   : ∀ v rest, v :: rest <:+ w.objects (connectionHeadPath config.path) → ∀ i op, v.writer = .caller i op →
    ∃ old new, marshalRecord new = some v.contents ∧ HeadWrite op old new ∧ Prior config rest.head? old
  published : ∀ v ∈ w.objects (connectionHeadPath config.path), ∀ i a f, v.writer = .caller i (.publish a f) →
    ∃ new, marshalRecord new = some v.contents ∧ ResultAt config w a f new
  unique    : ∀ x j j', (x, j) ∈ w.issued → (x, j') ∈ w.issued → j = j'
  owned     : ∀ x j, (x, j) ∈ w.issued → ∀ v ∈ w.objects (connectionHeadPath config.path), Carries v x →
    v.writer = .caller j .admission
  granted   : ∀ i x f, (i, x, f) ∈ w.granted → Applied config w i x f
  once      : (w.granted.map (fun g => g.2.2)).Nodup
  refreshed : ∀ i f, (i, f) ∈ w.refreshed → ∃ x, (i, x, f) ∈ w.granted
  single    : (w.refreshed.map Prod.snd).Nodup

structure Rely (i : ι) (w w' : World ι) : Prop where
  objects   : Grows w.objects w'.objects
  issued    : ∀ x, (x, i) ∈ w.issued → (x, i) ∈ w'.issued
  granted   : ∀ x f, (i, x, f) ∈ w'.granted ↔ (i, x, f) ∈ w.granted
  refreshed : ∀ f, (i, f) ∈ w'.refreshed ↔ (i, f) ∈ w.refreshed

theorem Rely.refl (i : ι) (w : World ι) : Rely i w w := ⟨Grows.refl _, fun _ h => h, fun _ _ => Iff.rfl, fun _ => Iff.rfl⟩

theorem Rely.trans (i : ι) {w w' w'' : World ι} (h : Rely i w w') (h' : Rely i w' w'') : Rely i w w'' :=
  ⟨h.objects.trans h'.objects, fun x hx => h'.issued x (h.issued x hx), fun x f => (h'.granted x f).trans (h.granted x f),
    fun f => (h'.refreshed f).trans (h.refreshed f)⟩

def protocol : Protocol (Op C) (Ans C (Writer ι)) (World ι) ι where
  step := step
  inv := Inv config
  guar := fun i w w' => ∀ j, j ≠ i → Rely j w w'
  rely := Rely
  rely_refl := Rely.refl
  rely_trans := fun i => Rely.trans i
  guar_rely := fun _ j _ _ hne h => h j (Ne.symm hne)

variable {config}

theorem ResultAt.grows {w w' : World ι} {a : String} {f : UInt64} {record : ConnectionRecord Time}
    (h : ResultAt config w a f record) (hg : Grows w.objects w'.objects) : ResultAt config w' a f record := by
  obtain ⟨reference, u, wire, hcredential, hkey, hu, hrest⟩ := h
  exact ⟨reference, u, wire, hcredential, hkey, hg.mem hu, hrest⟩

theorem Applied.grows {w w' : World ι} {i : ι} {x : String} {f : UInt64} (h : Applied config w i x f)
    (hg : Grows w.objects w'.objects) : Applied config w' i x f := by
  obtain ⟨v, hv, hrest⟩ := h
  exact ⟨v, hg.mem hv, hrest⟩

/-! ## One operation -/

/-- A head write that caller `i` may attempt. -/
structure MayWrite (config : Config) (i : ι) (op : HeadOp) (old new : ConnectionRecord Time) (w : World ι) : Prop where
  write  : HeadWrite op old new
  owned  : ∀ m, new.mutation = some m → (m.invocationID, i) ∈ w.issued
  result : ∀ a f, op = .publish a f → ResultAt config w a f new

theorem MayWrite.rely {i : ι} {op : HeadOp} {old new : ConnectionRecord Time} {w w' : World ι}
    (h : MayWrite config i op old new w) (hr : Rely i w w') : MayWrite config i op old new w' :=
  ⟨h.write, fun m hm => hr.issued _ (h.owned m hm), fun a f hop => (h.result a f hop).grows hr.objects⟩

/-- What a caller must know before an operation. -/
def Pre (config : Config) (i : ι) : Op C → World ι → Prop
  | .swap key etag contents op, w => key = connectionHeadPath config.path ∧ ∃ u ∈ w.objects key, u.etag = etag ∧
    ∃ old new, checkRecord config u = .ok old ∧ marshalRecord new = some contents ∧ MayWrite config i op old new w
  | .create key contents op, w => key ≠ connectionHeadPath config.path ∨
    ∃ new, marshalRecord new = some contents ∧ MayWrite config i op (newRecord config) new w
  | .grant invocationID fence, w => Applied config w i invocationID fence ∧ ∀ f, (i, invocationID, f) ∉ w.granted
  | .refresh fence, w => (∃ x, (i, x, fence) ∈ w.granted) ∧ (i, fence) ∉ w.refreshed
  | _, _ => True

/-- An invocation id in a head comes with its admission. -/
theorem op_of_carries {op : HeadOp} {old new : ConnectionRecord Time} {m : CredentialMutation Time} (h : HeadWrite op old new)
    (hm : new.mutation = some m) : op = .admission := by
  obtain ⟨-, h⟩ := h
  have hne : new.mutation ≠ none := by rw [hm]; simp
  cases op with
  | admission => rfl
  | publish => exact absurd h.2.2.2 hne
  | restore => exact absurd h.2.2.1 hne
  | fail => exact absurd h.2.2.1 hne
  | replace => exact absurd h.2 hne
  | revoke => exact absurd h.2 hne
  | object => exact h.elim

/-- **A head version added by caller `i`** keeps the invariant. -/
theorem inv_put_head {i : ι} {op : HeadOp} {old new : ConnectionRecord Time} {w : World ι} {v : Version Contents (Writer ι)}
    (hinv : Inv config w) (hfresh : Fresh w.objects (connectionHeadPath config.path) v) (hw : v.writer = .caller i op)
    (hc : marshalRecord new = some v.contents) (hmay : MayWrite config i op old new w)
    (hprior : Prior config (w.objects (connectionHeadPath config.path)).head? old) :
    Inv config { w with objects := put w.objects (connectionHeadPath config.path) v } := by
  have hgrows := grows_put w.objects (connectionHeadPath config.path) v
  refine ⟨hinv.wf.put hfresh, ?_, ?_, ?_, hinv.unique, ?_, fun j x f h => (hinv.granted j x f h).grows hgrows, hinv.once,
    hinv.refreshed, hinv.single⟩
  · simp only [put_same]
    exact ⟨follows_of_headWrite hmay.write hw hc hprior, hinv.linked⟩
  · intro u rest hs j op' hu
    simp only [put_same] at hs
    rcases List.suffix_cons_iff.1 hs with heq | hs
    · obtain ⟨rfl, rfl⟩ := List.cons.inj heq
      rw [hw] at hu
      cases hu
      exact ⟨old, new, hc, hmay.write, hprior⟩
    · exact hinv.written u rest hs j op' hu
  · intro u hu j a f hop
    simp only [put_same] at hu
    rcases List.mem_cons.1 hu with rfl | hu
    · rw [hw] at hop
      cases hop
      exact ⟨new, hc, (hmay.result a f rfl).grows hgrows⟩
    · obtain ⟨new', hc', hresult⟩ := hinv.published u hu j a f hop
      exact ⟨new', hc', hresult.grows hgrows⟩
  · intro x j hx u hu hcar
    simp only [put_same] at hu
    rcases List.mem_cons.1 hu with rfl | hu
    · obtain ⟨record, m, hrec, hm, rfl⟩ := hcar
      rw [unmarshalRecord_marshalRecord hc] at hrec
      cases hrec
      obtain ⟨m', hm', rfl⟩ := Option.map_eq_some_iff.1 hm
      have hj := hinv.unique _ _ _ hx (hmay.owned m' hm')
      rw [hw, op_of_carries hmay.write hm', hj]
    · exact hinv.owned x j hx u hu hcar

theorem inv_put_other {w : World ι} {key : String} {v : Version Contents (Writer ι)} (hinv : Inv config w)
    (hkey : key ≠ connectionHeadPath config.path) (hfresh : Fresh w.objects key v) :
    Inv config { w with objects := put w.objects key v } := by
  have hgrows := grows_put w.objects key v
  have hsame : put w.objects key v (connectionHeadPath config.path) = w.objects (connectionHeadPath config.path) :=
    put_of_ne w.objects v (Ne.symm hkey)
  refine ⟨hinv.wf.put hfresh, ?_, ?_, ?_, hinv.unique, ?_, fun j x f h => (hinv.granted j x f h).grows hgrows, hinv.once,
    hinv.refreshed, hinv.single⟩
  · simp only [hsame]
    exact hinv.linked
  · simp only [hsame]
    exact hinv.written
  · simp only [hsame]
    intro u hu i a f hop
    obtain ⟨new, hc, hresult⟩ := hinv.published u hu i a f hop
    exact ⟨new, hc, hresult.grows hgrows⟩
  · simp only [hsame]
    exact hinv.owned

theorem rely_put {j : ι} (w : World ι) (key : String) (v : Version Contents (Writer ι)) :
    Rely j w { w with objects := put w.objects key v } :=
  ⟨grows_put w.objects key v, fun _ h => h, fun _ _ => Iff.rfl, fun _ => Iff.rfl⟩

/-- **Two admissions under one fence are one version.** -/
theorem Inv.applied_unique {w : World ι} (hinv : Inv config w) {i j : ι} {x y : String} {f : UInt64}
    (h : Applied config w i x f) (h' : Applied config w j y f) : i = j ∧ x = y := by
  obtain ⟨v, hv, hvw, record, m, hrec, hf, hm, rfl⟩ := h
  obtain ⟨u, hu, huw, record', m', hrec', hf', hm', rfl⟩ := h'
  have hkind : ∀ (z : Version Contents (Writer ι)) k, z.writer = .caller k .admission → (entry z).kind = .admission := by
    intro z k hz
    rw [entry_kind, hz]
    rfl
  have hsame : u = v := by
    refine Head.admission_unique hinv.linked hu hv (hkind u j huw) (hkind v i hvw) ?_
    rw [entry_of_unmarshal hrec, entry_of_unmarshal hrec']
    exact congrArg natOf (hf'.trans hf.symm)
  rw [hsame] at huw hrec'
  rw [hvw] at huw
  cases huw
  rw [hrec] at hrec'
  cases hrec'
  rw [hm] at hm'
  cases hm'
  exact ⟨rfl, rfl⟩

/-- **What every operation keeps.** -/
theorem step_safe {i : ι} {o : Op C} {w w' : World ι} {a : Ans C (Writer ι) o} (hs : step i o w a w')
    (hinv : Inv config w) (hpre : Pre config i o w) : Inv config w' ∧ ∀ j, j ≠ i → Rely j w w' := by
  cases o with
  | read key version =>
    obtain ⟨-, rfl⟩ := hs
    exact ⟨hinv, fun j _ => Rely.refl j _⟩
  | nowAnd later =>
    obtain ⟨-, rfl⟩ := hs
    exact ⟨hinv, fun j _ => Rely.refl j _⟩
  | now | contextErr | wait | refreshRequired =>
    rw [show w' = w from hs]
    exact ⟨hinv, fun j _ => Rely.refl j _⟩
  | swap key etag contents op =>
    obtain ⟨s, hswap, rfl⟩ := hs
    obtain ⟨rfl, u, hu, rfl, old, new, hcheck, hc, hmay⟩ := hpre
    rcases swaps_cases hswap hinv.wf hu with ⟨rfl, -⟩ | ⟨v, rest, current, hcur, hcc, hfresh, hvc, hvw, rfl, -⟩
    · exact ⟨hinv, fun j _ => Rely.refl j _⟩
    · have hmem : current ∈ w.objects (connectionHeadPath config.path) := by rw [hcur]; exact List.mem_cons_self
      refine ⟨inv_put_head hinv hfresh hvw (hc.trans (congrArg some hvc.symm)) hmay ?_, fun j _ => rely_put w _ v⟩
      rw [hcur]
      show checkRecord config current = .ok old
      rw [checkRecord_congr (hinv.wf.named _ current hmem) (hinv.wf.named _ u hu) hcc, hcheck]
  | create key contents op =>
    obtain ⟨s, hcreate, rfl⟩ := hs
    rcases creates_cases hcreate with ⟨rfl, -⟩ | ⟨v, hempty, hfresh, hvc, hvw, rfl, -⟩
    · exact ⟨hinv, fun j _ => Rely.refl j _⟩
    by_cases hkey : key = connectionHeadPath config.path
    · subst hkey
      rcases hpre with hne | ⟨new, hc, hmay⟩
      · exact absurd rfl hne
      · refine ⟨inv_put_head hinv hfresh hvw (hc.trans (congrArg some hvc.symm)) hmay ?_, fun j _ => rely_put w _ v⟩
        rw [hempty]
        rfl
    · exact ⟨inv_put_other hinv hkey hfresh, fun j _ => rely_put w _ v⟩
  | newAttemptID =>
    cases a with
    | none =>
      rw [show w' = w from hs]
      exact ⟨hinv, fun j _ => Rely.refl j _⟩
    | some id =>
      obtain ⟨⟨hnew, hcar⟩, rfl⟩ := hs
      refine ⟨{ hinv with unique := ?_, owned := ?_ }, fun j hj => ?_⟩
      · intro x j j' hj hj'
        rcases List.mem_cons.1 hj with heq | hj
        · rcases List.mem_cons.1 hj' with heq' | hj'
          · cases heq; cases heq'; rfl
          · cases heq; exact absurd hj' (hnew j')
        · rcases List.mem_cons.1 hj' with heq' | hj'
          · cases heq'; exact absurd hj (hnew j)
          · exact hinv.unique x j j' hj hj'
      · intro x j hj v hv hcarries
        rcases List.mem_cons.1 hj with heq | hj
        · cases heq
          obtain ⟨record, m, hrec, hm, rfl⟩ := hcarries
          exact absurd rfl (hcar _ v hv record m hrec hm)
        · exact hinv.owned x j hj v hv hcarries
      · exact ⟨Grows.refl _, fun x hx => List.mem_cons_of_mem _ hx, fun _ _ => Iff.rfl, fun _ => Iff.rfl⟩
  | grant invocationID fence =>
    rw [show w' = _ from hs]
    obtain ⟨happlied, hunused⟩ := hpre
    refine ⟨{ hinv with granted := ?_, once := ?_, refreshed := ?_ }, fun j hj => ?_⟩
    · intro j x f h
      rcases List.mem_cons.1 h with heq | h
      · cases heq; exact happlied
      · exact hinv.granted j x f h
    · simp only [List.map_cons, List.nodup_cons]
      refine ⟨fun hmem => ?_, hinv.once⟩
      obtain ⟨⟨j, y, f⟩, hjf, rfl⟩ := List.mem_map.1 hmem
      obtain ⟨rfl, rfl⟩ := hinv.applied_unique happlied (hinv.granted j y f hjf)
      exact hunused f hjf
    · intro j f h
      obtain ⟨x, hx⟩ := hinv.refreshed j f h
      exact ⟨x, List.mem_cons_of_mem _ hx⟩
    · refine ⟨Grows.refl _, fun _ h => h, fun x f => ⟨fun h => ?_, fun h => List.mem_cons_of_mem _ h⟩, fun _ => Iff.rfl⟩
      rcases List.mem_cons.1 h with heq | h
      · cases heq; exact absurd rfl hj
      · exact h
  | refresh fence =>
    rw [show w' = _ from hs]
    obtain ⟨⟨x, hx⟩, hunused⟩ := hpre
    refine ⟨{ hinv with refreshed := ?_, single := ?_ }, fun j hj => ?_⟩
    · intro j f h
      rcases List.mem_cons.1 h with heq | h
      · cases heq; exact ⟨x, hx⟩
      · exact hinv.refreshed j f h
    · simp only [List.map_cons, List.nodup_cons]
      refine ⟨fun hmem => ?_, hinv.single⟩
      obtain ⟨⟨j, f⟩, hjf, rfl⟩ := List.mem_map.1 hmem
      obtain ⟨y, hy⟩ := hinv.refreshed j f hjf
      obtain ⟨rfl, rfl⟩ := hinv.applied_unique (hinv.granted i x f hx) (hinv.granted j y f hy)
      exact hunused hjf
    · refine ⟨Grows.refl _, fun _ h => h, fun _ _ => Iff.rfl, fun f => ⟨fun h => ?_, fun h => List.mem_cons_of_mem _ h⟩⟩
      rcases List.mem_cons.1 h with heq | h
      · cases heq; exact absurd rfl hj
      · exact h

end Connections
end Dex
