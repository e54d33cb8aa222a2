import DexConnectors.LibMethod
import DexConnectors.ProviderPythonOnce
import DexConnectors.ProviderExpiry
import DexConnectors.ProviderTypeScriptRounds
/-!
# ProviderReplicas — replicas of both SDKs on one connection

Python and TypeScript processes share one object store, and each of them may write the head that the other one reads.  What
a replica takes for a head depends on its SDK (`HeadReader`), and so does how it writes one; the history of the head does
not.  A replica writes onto a version that it has read and accepted (`Pre`), and then every version a replica wrote follows
the version before it as `HeadWrite` says, whoever wrote that one (`Inv.written`).
-/
namespace Dex
namespace Replicas

open Lib Lib.Store Lib.Method Wire
open Provider (Exc HeadOp Writer World Op Ans M P Config Carries Admitted Rely MayWrite HeadWrite Pending entry entry_head
  entry_kind rely_put step step_rely step_safe)

/-! ## How a replica reads a head -/

/-- **What a replica takes for a head** is the head of the text, and depends on nothing but the text of a stored version. -/
structure HeadReader (T : Type) where
  check : Version Text T → Except Exc Record
  value : ∀ {item record}, check item = .ok record → item.contents.value = .head record
  congr : ∀ {u v : Version Text T}, u.id ≠ "" ∧ u.etag ≠ "" → v.id ≠ "" ∧ v.etag ≠ "" → u.contents = v.contents →
    check u = check v

inductive Sdk where
  | python
  | typeScript
  deriving DecidableEq, Repr

variable {C ι α β : Type}

theorem checkRecord_congrTS {config : Config} {u v : Version Text (Writer ι)} (hu : u.id ≠ "" ∧ u.etag ≠ "")
    (hv : v.id ≠ "" ∧ v.etag ≠ "") (hc : u.contents = v.contents) :
    ProviderTS.checkRecord config u = ProviderTS.checkRecord config v := by
  unfold ProviderTS.checkRecord
  rw [hc]
  simp only [hu.1, hu.2, hv.1, hv.2, or_self, if_false]

def Sdk.reader (config : Config) : Sdk → HeadReader (Writer ι)
  | .python => ⟨Provider.checkRecord config, Provider.checkRecord_value, Provider.checkRecord_congr⟩
  | .typeScript => ⟨ProviderTS.checkRecord config, ProviderTS.checkRecord_value, checkRecord_congrTS⟩

/-! ## The invariant -/

/-- **What holds of every state of a run.** -/
structure Inv (config : Config) (reader : ι → HeadReader (Writer ι)) (w : World ι) : Prop where
  wf        : Wf w.objects
  linked    : Head.Linked entry (w.objects (headPath config.path))
  written   : ∀ v rest, v :: rest <:+ w.objects (headPath config.path) → ∀ i op, v.writer = .task i op →
    ∃ old new, v.contents = dumps (.head new) ∧ HeadWrite op old new ∧ old.isSome = rest.head?.isSome ∧
      ∀ p r, rest.head? = some p → old = some r → (reader i).check p = .ok r
  unique    : ∀ x j j', (x, j) ∈ w.issued → (x, j') ∈ w.issued → j = j'
  owned     : ∀ x j, (x, j) ∈ w.issued → ∀ v ∈ w.objects (headPath config.path), Carries v x → v.writer = .task j .admission
  refreshed : ∀ i f, (i, f) ∈ w.refreshed → Admitted config w i f
  once      : (w.refreshed.map Prod.snd).Nodup

theorem rely_of_guar {i j : ι} {w w' : World ι} (hne : i ≠ j) (h : ∀ j, j ≠ i → Rely j w w') : Rely j w w' := h j (Ne.symm hne)

def protocol (config : Config) (reader : ι → HeadReader (Writer ι)) : Protocol (Op C) (Ans C (Writer ι)) (World ι) ι where
  step := step
  inv := Inv config reader
  guar := fun i w w' => ∀ j, j ≠ i → Rely j w w'
  rely := Rely
  rely_refl := Rely.refl
  rely_trans := fun i => Rely.trans i
  guar_rely := fun _ _ _ _ => rely_of_guar

/-- What a replica must know before an operation. -/
def Pre (config : Config) (reader : ι → HeadReader (Writer ι)) (i : ι) : Op C → World ι → Prop
  | .swap key etag contents op, w => key = headPath config.path ∧ ∃ u ∈ w.objects key, u.etag = etag ∧
    ∃ old new, (reader i).check u = .ok old ∧ contents = dumps (.head new) ∧ MayWrite config i op (some old) new w
  | .create key contents op, w => key ≠ headPath config.path ∨
    ∃ new, contents = dumps (.head new) ∧ MayWrite config i op none new w
  | .refresh fence, w => Admitted config w i fence ∧ ∀ f, (i, f) ∉ w.refreshed
  | _, _ => True

variable {config : Config} {reader : ι → HeadReader (Writer ι)} {i : ι} {w : World ι}

/-! ## One operation -/

/-- **A head version added by a replica** keeps the invariant. -/
theorem inv_put_head {op : HeadOp} {old : Option Record} {new : Record} {v : Version Text (Writer ι)}
    (hinv : Inv config reader w) (hfresh : Fresh w.objects (headPath config.path) v) (hw : v.writer = .task i op)
    (hc : v.contents = dumps (.head new)) (hmay : MayWrite config i op old new w)
    (hold : old.isSome = (w.objects (headPath config.path)).head?.isSome)
    (hprev : ∀ p r, (w.objects (headPath config.path)).head? = some p → old = some r → (reader i).check p = .ok r) :
    Inv config reader { w with objects := put w.objects (headPath config.path) v } := by
  have hval : v.contents.value = .head new := by rw [hc]; rfl
  have hgrows := grows_put w.objects (headPath config.path) v
  refine ⟨hinv.wf.put hfresh, ?_, ?_, hinv.unique, ?_, fun j f h => (hinv.refreshed j f h).grows hgrows, hinv.once⟩
  · simp only [put_same]
    exact ⟨Provider.follows_of_headWrite hmay.write hw hval hold (fun p r hp hr => (reader i).value (hprev p r hp hr)),
      hinv.linked⟩
  · intro u rest hs j op' hu
    simp only [put_same] at hs
    rcases List.suffix_cons_iff.1 hs with heq | hs
    · obtain ⟨rfl, rfl⟩ := List.cons.inj heq
      rw [hw] at hu
      cases hu
      exact ⟨old, new, hc, hmay.write, hold, hprev⟩
    · exact hinv.written u rest hs j op' hu
  · intro x j hx u hu hcar
    simp only [put_same] at hu
    rcases List.mem_cons.1 hu with rfl | hu
    · obtain ⟨record, m, hrec, hm, rfl⟩ := hcar
      rw [hval] at hrec
      cases hrec
      rw [hw, Provider.op_of_carries hmay hm, hinv.unique _ _ _ hx (hmay.owned m hm)]
    · exact hinv.owned x j hx u hu hcar

theorem inv_put_other {key : String} {v : Version Text (Writer ι)} (hinv : Inv config reader w)
    (hkey : key ≠ headPath config.path) (hfresh : Fresh w.objects key v) :
    Inv config reader { w with objects := put w.objects key v } := by
  have hsame : put w.objects key v (headPath config.path) = w.objects (headPath config.path) :=
    put_of_ne w.objects v (Ne.symm hkey)
  have hgrows := grows_put w.objects key v
  refine ⟨hinv.wf.put hfresh, ?_, ?_, hinv.unique, ?_, fun j f h => (hinv.refreshed j f h).grows hgrows, hinv.once⟩ <;>
    simp only [hsame]
  · exact hinv.linked
  · exact hinv.written
  · exact hinv.owned

/-- A token that nobody has drawn and no head carries. -/
theorem inv_token {token : String} (hinv : Inv config reader w) (hfresh : Provider.FreshToken w token) :
    Inv config reader { w with issued := (token, i) :: w.issued } := by
  obtain ⟨hnew, hcar⟩ := hfresh
  refine ⟨hinv.wf, hinv.linked, hinv.written, ?_, ?_, hinv.refreshed, hinv.once⟩
  · intro x j j' hj hj'
    rcases List.mem_cons.1 hj with heq | hj <;> rcases List.mem_cons.1 hj' with heq' | hj'
    · cases heq; cases heq'; rfl
    · cases heq; exact absurd hj' (hnew j')
    · cases heq'; exact absurd hj (hnew j)
    · exact hinv.unique x j j' hj hj'
  · intro x j hj v hv hcarries
    rcases List.mem_cons.1 hj with heq | hj
    · cases heq
      obtain ⟨record, m, hrec, hm, rfl⟩ := hcarries
      exact absurd rfl (hcar _ v hv record m hrec hm)
    · exact hinv.owned x j hj v hv hcarries

/-- Two admissions under one fence are one version of the head, and of one replica. -/
theorem Inv.admitted_unique {j : ι} {fence : Nat} (h : Inv config reader w) (hi : Admitted config w i fence)
    (hj : Admitted config w j fence) : j = i := by
  obtain ⟨v, hv, hvw, hvf⟩ := hi
  obtain ⟨u, hu, huw, huf⟩ := hj
  have hv' : (entry v).kind = .admission := by rw [entry_kind, hvw]; rfl
  have hu' : (entry u).kind = .admission := by rw [entry_kind, huw]; rfl
  have hsame := Head.admission_unique h.linked hv hu hv' hu' (hvf.trans huf.symm)
  rw [hsame, huw] at hvw
  cases hvw
  rfl

/-- A first call of the driver, by a replica that was admitted. -/
theorem inv_refresh {fence : Nat} (hinv : Inv config reader w) (hadm : Admitted config w i fence)
    (hunused : ∀ f, (i, f) ∉ w.refreshed) : Inv config reader { w with refreshed := (i, fence) :: w.refreshed } := by
  refine ⟨hinv.wf, hinv.linked, hinv.written, hinv.unique, hinv.owned, ?_, ?_⟩
  · intro j f h
    rcases List.mem_cons.1 h with heq | h
    · cases heq; exact hadm
    · exact hinv.refreshed j f h
  · simp only [List.map_cons, List.nodup_cons]
    refine ⟨fun hmem => ?_, hinv.once⟩
    obtain ⟨⟨j, f⟩, hjf, rfl⟩ := List.mem_map.1 hmem
    have hsame := hinv.admitted_unique hadm (hinv.refreshed j f hjf)
    rw [hsame] at hjf
    exact hunused f hjf

/-- **What every operation keeps.** -/
theorem inv_step {o : Op C} {w' : World ι} {a : Ans C (Writer ι) o} (hs : step i o w a w') (hinv : Inv config reader w)
    (hpre : Pre config reader i o w) : Inv config reader w' := by
  cases o with
  | read key version =>
    obtain ⟨-, rfl⟩ := hs
    exact hinv
  | now | sleep | refreshRequired =>
    rw [show w' = w from hs]
    exact hinv
  | swap key etag contents op =>
    obtain ⟨s, hswap, rfl⟩ := hs
    obtain ⟨rfl, u, hu, rfl, old, new, hcheck, hc, hmay⟩ := hpre
    rcases swaps_cases hswap hinv.wf hu with ⟨rfl, -⟩ | ⟨v, rest, current, hcur, hcc, hfresh, hvc, hvw, rfl, -⟩
    · exact hinv
    -- a swap that is applied has met the text of the version that was read
    · have hmem : current ∈ w.objects (headPath config.path) := by rw [hcur]; exact List.mem_cons_self
      refine inv_put_head hinv hfresh hvw (hvc.trans hc) hmay (by rw [hcur]; rfl) ?_
      intro p r hp hr
      rw [hcur] at hp
      cases hp
      cases hr
      exact ((reader i).congr (hinv.wf.named _ current hmem) (hinv.wf.named _ u hu) hcc).trans hcheck
  | create key contents op =>
    obtain ⟨s, hcreate, rfl⟩ := hs
    rcases creates_cases hcreate with ⟨rfl, -⟩ | ⟨v, hempty, hfresh, hvc, hvw, rfl, -⟩
    · exact hinv
    rcases hpre with hne | ⟨new, hc, hmay⟩
    · exact inv_put_other hinv hne hfresh
    by_cases hkey : key = headPath config.path
    · subst hkey
      refine inv_put_head hinv hfresh hvw (hvc.trans hc) hmay (by rw [hempty]; rfl) ?_
      intro p r hp _
      rw [hempty] at hp
      cases hp
    · exact inv_put_other hinv hkey hfresh
  | token =>
    obtain ⟨hfresh, rfl⟩ := hs
    exact inv_token hinv hfresh
  | refresh fence =>
    rw [show w' = _ from hs]
    exact inv_refresh hinv hpre.1 hpre.2

/-- What an operation leaves to the others. -/
theorem guar_step {o : Op C} {w' : World ι} {a : Ans C (Writer ι) o} (hs : step i o w a w') : ∀ j, j ≠ i → Rely j w w' := by
  intro j hj
  cases o with
  | refresh fence =>
    rw [show w' = _ from hs]
    refine ⟨Grows.refl _, fun _ h => h, fun f => ⟨fun h => ?_, fun h => List.mem_cons_of_mem _ h⟩⟩
    rcases List.mem_cons.1 h with heq | h
    · cases heq; exact absurd rfl hj
    · exact h
  | read key version =>
    obtain ⟨-, rfl⟩ := hs
    exact Rely.refl j _
  | now | sleep | refreshRequired =>
    rw [show w' = w from hs]
    exact Rely.refl j _
  | swap key etag contents op =>
    obtain ⟨s, ⟨-, v, -, -, -, rfl, -⟩ | ⟨rfl, -⟩, rfl⟩ := hs
    · exact rely_put w _ v
    · exact Rely.refl j _
  | create key contents op =>
    obtain ⟨s, ⟨-, v, -, -, -, rfl, -⟩ | ⟨rfl, -⟩, rfl⟩ := hs
    · exact rely_put w _ v
    · exact Rely.refl j _
  | token =>
    obtain ⟨-, rfl⟩ := hs
    exact ⟨Grows.refl _, fun x hx => List.mem_cons_of_mem _ hx, fun _ => Iff.rfl⟩

/-! ## Methods -/

/-- A method that replica `i` may run from `w`: it calls no driver, and what it returns satisfies `Q`. -/
abbrev Keeps (config : Config) (reader : ι → HeadReader (Writer ι)) (i : ι) (Q : α → World ι → Prop)
    (m : M C (Writer ι) α) (w : World ι) : Prop :=
  Ensures (protocol config reader) i Q m w

theorem keeps_act {o : Op C} {Q : Ans C (Writer ι) o → World ι → Prop} (ho : ∀ fence, o ≠ .refresh fence)
    (hpre : ∀ w', Rely i w w' → Pre config reader i o w')
    (hpost : ∀ w₁ a w₂ w₃, Rely i w w₁ → step i o w₁ a w₂ → Rely i w₂ w₃ → Q a w₃) :
    Keeps config reader i Q (Provider.act o) w :=
  ensures_act (fun w₁ _ _ hr hi hs => ⟨inv_step hs hi (hpre w₁ hr), guar_step hs, step_rely hs ho⟩)
    (fun w₁ a w₂ w₃ hr _ hs hr₃ _ => hpost w₁ a w₂ w₃ hr hs hr₃)

/-- An operation that needs nothing and whose answer says nothing. -/
theorem keeps_any {o : Op C} (ho : ∀ fence, o ≠ .refresh fence) (hpre : ∀ w', Pre config reader i o w') :
    Keeps config reader i (fun _ _ => True) (Provider.act o) w :=
  keeps_act ho (fun w' _ => hpre w') (fun _ _ _ _ _ _ _ => trivial)

theorem keeps_now : Keeps (C := C) config reader i (fun _ _ => True) (Provider.act .now) w :=
  keeps_any (fun _ h => by cases h) (fun _ => trivial)

theorem keeps_orRaise {r : Except Exc α} : Keeps (C := C) config reader i (fun a _ => r = .ok a) (Provider.orRaise r) w :=
  ensures_orRaise (fun _ _ h _ _ => h)

theorem keeps_token : Keeps (C := C) config reader i (fun (token : String) w' => (token, i) ∈ w'.issued)
    (Provider.act .token) w := by
  refine keeps_act (fun _ h => by cases h) (fun _ _ => trivial) ?_
  rintro w₁ token w₂ w₃ - ⟨-, rfl⟩ hr₃
  exact hr₃.issued _ List.mem_cons_self

theorem keeps_readObject (key version : String) (hinv : Inv config reader w) :
    Keeps (C := C) config reader i (fun item w' => item ∈ w'.objects key) (Provider.readObject key version) w := by
  have hread : Keeps (C := C) config reader i (fun (answer : ReadAnswer Text (Writer ι)) w' => ∀ item, answer = .found item →
      item ∈ w'.objects key) (Provider.act (.read key version)) w := by
    refine keeps_act (fun _ h => by cases h) (fun _ _ => trivial) ?_
    rintro w₁ answer w₂ w₃ - ⟨hread, rfl⟩ hr₃ item rfl
    exact hr₃.objects.mem (mem_of_lookup hread)
  refine hread.seq (fun answer w' _ _ hans => ?_) hinv
  cases answer with
  | found item => exact ensures_pure (fun w'' hr _ => hr.objects.mem (hans item rfl))
  | absent => exact ensures_throw
  | failed => exact ensures_throw

/-- The record is what the replica takes a version of the head for. -/
def Observed (config : Config) (reader : ι → HeadReader (Writer ι)) (i : ι) (found : Record × Version Text (Writer ι))
    (w : World ι) : Prop :=
  found.2 ∈ w.objects (headPath config.path) ∧ (reader i).check found.2 = .ok found.1

theorem Observed.rely {found : Record × Version Text (Writer ι)} {w' : World ι} (h : Observed config reader i found w)
    (hr : Rely i w w') : Observed config reader i found w' :=
  ⟨hr.objects.mem h.1, h.2⟩

/-- A read of the head, with the check of an SDK. -/
def readHead (config : Config) (check : Version Text (Writer ι) → Except Exc Record) :
    M C (Writer ι) (Record × Version Text (Writer ι)) := do
  let item ← Provider.readObject (headPath config.path) ""
  let record ← Provider.orRaise (check item)
  return (record, item)

theorem keeps_readHead {check : Version Text (Writer ι) → Except Exc Record} (hcheck : (reader i).check = check)
    (hinv : Inv config reader w) : Keeps (C := C) config reader i (Observed config reader i) (readHead config check) w := by
  subst hcheck
  refine (keeps_readObject _ _ hinv).seq (fun item w' _ hi hitem => ?_) hinv
  exact keeps_orRaise.seq (fun record w'' hr _ hrec => ensures_pure (fun w₃ hr₃ _ =>
    ⟨hr₃.objects.mem (hr.objects.mem hitem), hrec⟩)) hi

/-- A settled write left a version with its contents. -/
theorem keeps_settle {contents : Text} {answer : WriteAnswer Text (Writer ι)} (hinv : Inv config reader w)
    (h : ∀ v, answer = .applied v → v ∈ w.objects (headPath config.path) ∧ v.contents = contents) :
    Keeps (C := C) config reader i (fun _ w' => ∃ v ∈ w'.objects (headPath config.path), v.contents = contents)
      (Provider.settle config contents answer) w := by
  cases answer with
  | applied v => exact ensures_pure (fun w' hr _ => ⟨v, hr.objects.mem (h v rfl).1, (h v rfl).2⟩)
  | conflict => exact ensures_throw
  | failed => exact ensures_throw
  | unknown =>
    refine (keeps_readObject _ _ hinv).seq (fun observed w' _ _ hmem => ?_) hinv
    split
    · exact ensures_throw
    · rename_i heq
      exact ensures_pure (fun w'' hr _ => ⟨observed, hr.objects.mem hmem, not_not.1 heq⟩)

/-- A conditional write onto a version that was read. -/
theorem keeps_swap {op : HeadOp} {old new : Record} {u : Version Text (Writer ι)} (hobs : Observed config reader i (old, u) w)
    (hmay : MayWrite config i op (some old) new w) :
    Keeps (C := C) config reader i (fun (answer : WriteAnswer Text (Writer ι)) w' => ∀ v, answer = .applied v →
      v ∈ w'.objects (headPath config.path) ∧ v.contents = dumps (.head new))
      (Provider.act (.swap (headPath config.path) u.etag (dumps (.head new)) op)) w := by
  refine keeps_act (fun _ h => by cases h) (fun w₁ hr₁ => ?_) ?_
  · exact ⟨rfl, u, hr₁.objects.mem hobs.1, rfl, old, new, hobs.2, rfl, hmay.write,
      fun m hm => hr₁.issued _ (hmay.owned m hm)⟩
  · rintro w₁ answer w₂ w₃ - ⟨s, ⟨-, v, -, hc, -, rfl, ha | ha⟩ | ⟨-, ha | ha | ha⟩, rfl⟩ hr₃ v' rfl <;> cases ha
    exact ⟨hr₃.objects.mem (by simp), hc⟩

/-- **A head write onto a version that was read** leaves a version with its contents. -/
theorem keeps_swapHead {op : HeadOp} {old new : Record} {u : Version Text (Writer ι)} (hinv : Inv config reader w)
    (hobs : Observed config reader i (old, u) w) (hmay : MayWrite config i op (some old) new w) :
    Keeps (C := C) config reader i (fun _ w' => ∃ v ∈ w'.objects (headPath config.path), v.contents = dumps (.head new))
      (ProviderTS.writeHead config op u new) w :=
  (keeps_swap hobs hmay).seq (fun _ _ _ hi hans => keeps_settle hi hans) hinv

/-- A first head. -/
theorem keeps_createHead {op : HeadOp} {new : Record} (hmay : ∀ w', Rely i w w' → MayWrite config i op none new w') :
    Keeps (C := C) config reader i (fun (answer : WriteAnswer Text (Writer ι)) w' => ∀ v, answer = .applied v →
      v ∈ w'.objects (headPath config.path) ∧ v.contents = dumps (.head new))
      (Provider.act (.create (headPath config.path) (dumps (.head new)) op)) w := by
  refine keeps_act (fun _ h => by cases h) (fun w₁ hr₁ => .inr ⟨new, rfl, hmay w₁ hr₁⟩) ?_
  rintro w₁ answer w₂ w₃ - ⟨s, ⟨-, v, -, hc, -, rfl, ha | ha⟩ | ⟨-, ha | ha | ha⟩, rfl⟩ hr₃ v' rfl <;> cases ha
  exact ⟨hr₃.objects.mem (by simp), hc⟩

theorem keeps_createImmutable {key : String} (hkey : key ≠ headPath config.path) (contents : Text) (differs : String)
    (hinv : Inv config reader w) :
    Keeps (C := C) config reader i (fun _ _ => True) (Provider.createImmutable key contents differs) w := by
  have hcreate : Keeps (C := C) config reader i (fun _ _ => True) (Provider.act (.create key contents .object)) w :=
    keeps_any (fun _ h => by cases h) (fun _ => .inl hkey)
  refine hcreate.seq (fun answer w' _ hi _ => ?_) hinv
  have hread : Keeps (C := C) config reader i (fun _ _ => True)
      (Provider.readObject key "" >>= fun item => if item.contents ≠ contents then throw (.value differs) else pure item) w' := by
    refine (keeps_readObject _ _ hi).seq (fun item w'' _ _ _ => ?_) hi
    split
    · exact ensures_throw
    · exact ensures_pure (fun _ _ _ => trivial)
  cases answer with
  | applied item => exact ensures_pure (fun _ _ _ => trivial)
  | failed => exact ensures_throw
  | conflict => exact hread
  | unknown => exact hread

/-- **An admission whose contents are on the head is the replica's own**: only it has drawn the invocation id. -/
theorem admitted_of_contents {new : Record} {m : Mutation} (hinv : Inv config reader w) (hm : new.mutation = some m)
    (hissued : (m.invocationID, i) ∈ w.issued)
    (hwritten : ∃ v ∈ w.objects (headPath config.path), v.contents = dumps (.head new)) : Admitted config w i new.fence := by
  obtain ⟨v, hv, hc⟩ := hwritten
  have hval : v.contents.value = .head new := congrArg Text.value hc
  exact ⟨v, hv, hinv.owned _ i hissued v hv ⟨_, _, hval, hm, rfl⟩, by rw [entry_head hval]⟩

end Replicas
end Dex
