import DexConnectors.HeadHistory
import DexConnectors.ProviderRuns
/-!
# ProviderPythonOnce — one provider dispatch per generation in the Python provider

Every head that a task writes follows the head it read (`HeadWrite`): the re-read of `_write_head` compares the parsed
head with the one the update was computed from, and the swap expects the tag of that re-read.  So the history of the
head is a history of the abstract head (`Inv.linked`), and two admissions never share a fence.

A task learns that its admission was applied from the store or, after an unknown outcome, from the head's contents; both
mean that the version is its own, because the contents carry an invocation id that only it has drawn (`Inv.owned`).  It
calls the driver once, under the fence of that version (`Inv.refreshed`, `Inv.once`).
-/
namespace Dex
namespace Provider

open Lib Lib.Rfc3339 Lib.Store Wire

variable {C ι : Type} (config : Config)

/-- The head is pending with this exchange. -/
def Pending (attemptID : String) (fence : Nat) (record : Record) : Prop :=
  record.fence = fence ∧ ∃ m, record.mutation = some m ∧ m.id = attemptID

/-- **What a head write does to the record it was computed from.** -/
def HeadWrite : HeadOp → Option Record → Record → Prop
  | .admission, some old, new => old.status = .ready ∧ new.status = .refreshing ∧ new.revision = old.revision + 1 ∧
    new.fence = old.fence + 1 ∧ new.credential = old.credential ∧ new.mutation ≠ none
  | .publish attemptID fence, some old, new => Pending attemptID fence old ∧ new.status = .ready ∧
    new.revision = old.revision + 1 ∧ new.fence = old.fence ∧ new.mutation = none
  | .finish attemptID fence, some old, new => Pending attemptID fence old ∧ new.revision = old.revision + 1 ∧
    new.fence = old.fence + 1 ∧ new.credential = old.credential ∧ new.mutation = none
  | .replace, old, new => new.status = .ready ∧ new.revision = (old.map Record.revision).getD 0 + 1 ∧
    new.fence = (old.map Record.fence).getD 0 + 1 ∧ new.mutation = none
  | _, _, _ => False

def Writer.kind : Writer ι → Head.Kind
  | .base => .base
  | .task _ .admission => .admission
  | .task _ (.publish _ _) => .publish
  | .task _ (.finish _ _) => .settle
  | .task _ .replace => .settle
  | .task _ .object => .base

/-- The abstract head of a version. -/
def entry (v : Version Text (Writer ι)) : Head.Entry :=
  match v.contents.value with
  | .head record => ⟨v.writer.kind, record.revision, record.fence, record.mutation.map Mutation.id⟩
  | _ => ⟨v.writer.kind, 0, 0, none⟩

theorem entry_head {v : Version Text (Writer ι)} {record : Record} (h : v.contents.value = .head record) :
    entry v = ⟨v.writer.kind, record.revision, record.fence, record.mutation.map Mutation.id⟩ := by
  unfold entry
  rw [h]

/-- A head write is a change of the abstract head. -/
theorem follows_of_headWrite {i : ι} {op : HeadOp} {previous : Option (Version Text (Writer ι))} {old : Option Record}
    {new : Record} {v : Version Text (Writer ι)} (h : HeadWrite op old new) (hw : v.writer = .task i op)
    (hc : v.contents.value = .head new) (hold : old.isSome = previous.isSome)
    (hprev : ∀ p r, previous = some p → old = some r → p.contents.value = .head r) :
    Head.Follows (previous.map entry) (entry v) := by
  rw [entry_head hc, hw]
  have hrev : ∀ r, old = some r → ∃ p, previous = some p ∧
      entry p = ⟨p.writer.kind, r.revision, r.fence, r.mutation.map Mutation.id⟩ := by
    intro r hr
    rw [hr] at hold
    obtain ⟨p, hp⟩ := Option.isSome_iff_exists.1 hold.symm
    exact ⟨p, hp, entry_head (hprev p r hp hr)⟩
  cases op with
  | admission =>
    match old, h with
    | some r, ⟨_, _, h3, h4, _, h6⟩ =>
      obtain ⟨p, hp, he⟩ := hrev r rfl
      rw [hp]
      refine ⟨?_, ?_, ?_⟩
      · simp [he, h3]
      · simp [he, h4]
      · obtain ⟨m, hm⟩ := Option.ne_none_iff_exists'.1 h6
        simp [hm]
  | publish attemptID fence =>
    match old, h with
    | some r, ⟨⟨_, m, hm, _⟩, _, h3, h4, h5⟩ =>
      obtain ⟨p, hp, he⟩ := hrev r rfl
      refine ⟨entry p, by rw [hp]; rfl, ?_, ?_, ?_, ?_⟩
      · simp [he, hm]
      · simp [he, h3]
      · simp [he, h4]
      · simp [h5]
  | finish attemptID fence =>
    match old, h with
    | some r, ⟨_, h3, h4, _, h6⟩ =>
      obtain ⟨p, hp, he⟩ := hrev r rfl
      rw [hp]
      refine ⟨?_, ?_, ?_⟩
      · simp [he, h3]
      · simp [he, h4]
      · simp [h6]
  | replace =>
    obtain ⟨_, h3, h4, h5⟩ := h
    cases hr : old with
    | none =>
      rw [hr] at hold h3 h4
      have : previous = none := by simpa using hold.symm
      rw [this]
      exact ⟨by simpa using h3, by simpa using h4, by simp [h5]⟩
    | some r =>
      obtain ⟨p, hp, he⟩ := hrev r hr
      rw [hr] at h3 h4
      rw [hp]
      exact ⟨by simpa [he] using h3, by simpa [he] using h4, by simp [h5]⟩
  | object => cases old <;> exact h.elim

/-! ## The invariant -/

/-- A version carries the invocation id. -/
def Carries (v : Version Text (Writer ι)) (invocationID : String) : Prop :=
  ∃ record m, v.contents.value = .head record ∧ record.mutation = some m ∧ m.invocationID = invocationID

/-- Task `i`'s own admission under the fence. -/
def Admitted (w : World ι) (i : ι) (fence : Nat) : Prop :=
  ∃ v ∈ w.objects (headPath config.path), v.writer = .task i .admission ∧ (entry v).fence = fence

/-- **What holds of every state of a run.** -/
structure Inv (w : World ι) : Prop where
  wf        : Wf w.objects
  linked    : Head.Linked entry (w.objects (headPath config.path))
  written   : ∀ v rest, v :: rest <:+ w.objects (headPath config.path) → ∀ i op, v.writer = .task i op →
    ∃ old new, v.contents = dumps (.head new) ∧ HeadWrite op old new ∧ old.isSome = rest.head?.isSome ∧
      ∀ p r, rest.head? = some p → old = some r → checkRecord config p = .ok r
  unique    : ∀ x j j', (x, j) ∈ w.issued → (x, j') ∈ w.issued → j = j'
  owned     : ∀ x j, (x, j) ∈ w.issued → ∀ v ∈ w.objects (headPath config.path), Carries v x → v.writer = .task j .admission
  refreshed : ∀ i f, (i, f) ∈ w.refreshed → Admitted config w i f
  once      : (w.refreshed.map Prod.snd).Nodup

structure Rely (i : ι) (w w' : World ι) : Prop where
  objects   : Grows w.objects w'.objects
  issued    : ∀ x, (x, i) ∈ w.issued → (x, i) ∈ w'.issued
  refreshed : ∀ f, (i, f) ∈ w'.refreshed ↔ (i, f) ∈ w.refreshed

theorem Rely.refl (i : ι) (w : World ι) : Rely i w w := ⟨Grows.refl _, fun _ h => h, fun _ => Iff.rfl⟩

theorem Rely.trans (i : ι) {w w' w'' : World ι} (h : Rely i w w') (h' : Rely i w' w'') : Rely i w w'' :=
  ⟨h.objects.trans h'.objects, fun x hx => h'.issued x (h.issued x hx),
    fun f => (h'.refreshed f).trans (h.refreshed f)⟩

def protocol : Protocol (Op C) (Ans C (Writer ι)) (World ι) ι where
  step := step
  inv := Inv config
  guar := fun i w w' => ∀ j, j ≠ i → Rely j w w'
  rely := Rely
  rely_refl := Rely.refl
  rely_trans := fun i => Rely.trans i
  guar_rely := fun _ j _ _ hne h => h j (Ne.symm hne)

variable {config}

/-! ## One operation -/

/-- A head write that task `i` may attempt. -/
structure MayWrite (config : Config) (i : ι) (op : HeadOp) (old : Option Record) (new : Record) (w : World ι) : Prop where
  write : HeadWrite op old new
  owned : ∀ m, new.mutation = some m → (m.invocationID, i) ∈ w.issued

/-- What a task must know before an operation. -/
def Pre (config : Config) (i : ι) : Op C → World ι → Prop
  | .swap key etag contents op, w => key = headPath config.path ∧ ∃ u ∈ w.objects key, u.etag = etag ∧
    ∃ old new, checkRecord config u = .ok old ∧ contents = dumps (.head new) ∧ MayWrite config i op (some old) new w
  | .create key contents op, w => key ≠ headPath config.path ∨
    ∃ new, contents = dumps (.head new) ∧ MayWrite config i op none new w
  | .refresh fence, w => Admitted config w i fence ∧ ∀ f, (i, f) ∉ w.refreshed
  | _, _ => True

theorem Admitted.grows {w w' : World ι} {i : ι} {fence : Nat} (h : Admitted config w i fence)
    (hg : Grows w.objects w'.objects) : Admitted config w' i fence := by
  obtain ⟨v, hv, hw, hf⟩ := h
  exact ⟨v, hg.mem hv, hw, hf⟩

/-- An invocation id in a head comes with its admission. -/
theorem op_of_carries {i : ι} {op : HeadOp} {old : Option Record} {new : Record} {w : World ι} {m : Mutation}
    (h : MayWrite config i op old new w) (hm : new.mutation = some m) : op = .admission := by
  have hne : new.mutation ≠ none := by rw [hm]; simp
  have hw := h.write
  cases op with
  | admission => rfl
  | publish => cases old with
    | none => exact hw.elim
    | some => exact absurd hw.2.2.2.2 hne
  | finish => cases old with
    | none => exact hw.elim
    | some => exact absurd hw.2.2.2.2 hne
  | replace => exact absurd hw.2.2.2 hne
  | object => cases old <;> exact hw.elim

/-- **A head version added by task `i`** keeps the invariant. -/
theorem inv_put_head {i : ι} {op : HeadOp} {old : Option Record} {new : Record} {w : World ι}
    {v : Version Text (Writer ι)} (hinv : Inv config w) (hfresh : Fresh w.objects (headPath config.path) v)
    (hw : v.writer = .task i op) (hc : v.contents = dumps (.head new)) (hmay : MayWrite config i op old new w)
    (hold : old.isSome = (w.objects (headPath config.path)).head?.isSome)
    (hprev : ∀ p r, (w.objects (headPath config.path)).head? = some p → old = some r → checkRecord config p = .ok r) :
    Inv config { w with objects := put w.objects (headPath config.path) v } := by
  have hgrows := grows_put w.objects (headPath config.path) v
  have hval : v.contents.value = .head new := by rw [hc]; rfl
  refine ⟨hinv.wf.put hfresh, ?_, ?_, hinv.unique, ?_, fun j f h => (hinv.refreshed j f h).grows hgrows, hinv.once⟩
  · simp only [put_same]
    exact ⟨follows_of_headWrite hmay.write hw hval hold (fun p r hp hr => checkRecord_value (hprev p r hp hr)), hinv.linked⟩
  · intro u rest hs j op' hu
    simp only [put_same] at hs
    rcases List.suffix_cons_iff.1 hs with heq | hs
    · obtain ⟨rfl, rfl⟩ := List.cons.inj heq
      rw [hw] at hu
      cases hu
      exact ⟨old, new, hc, hmay.write, hold, hprev⟩
    · exact hinv.written u rest hs j op' hu
  · intro x j hx u hu hcar
    simp only [put_same] at hu
    rcases List.mem_cons.1 hu with rfl | hu
    · obtain ⟨record, m, hrec, hm, rfl⟩ := hcar
      rw [hval] at hrec
      cases hrec
      have hj := hinv.unique _ _ _ hx (hmay.owned m hm)
      rw [hw, op_of_carries hmay hm, hj]
    · exact hinv.owned x j hx u hu hcar

theorem inv_put_other {w : World ι} {key : String} {v : Version Text (Writer ι)} (hinv : Inv config w)
    (hkey : key ≠ headPath config.path) (hfresh : Fresh w.objects key v) :
    Inv config { w with objects := put w.objects key v } := by
  have hsame : put w.objects key v (headPath config.path) = w.objects (headPath config.path) :=
    put_of_ne w.objects v (Ne.symm hkey)
  refine ⟨hinv.wf.put hfresh, ?_, ?_, hinv.unique, ?_,
    fun j f h => (hinv.refreshed j f h).grows (grows_put w.objects key v), hinv.once⟩
  · simp only [hsame]
    exact hinv.linked
  · simp only [hsame]
    exact hinv.written
  · simp only [hsame]
    exact hinv.owned

theorem rely_put {j : ι} (w : World ι) (key : String) (v : Version Text (Writer ι)) :
    Rely j w { w with objects := put w.objects key v } :=
  ⟨grows_put w.objects key v, fun _ h => h, fun _ => Iff.rfl⟩

/-- **What every operation keeps.** -/
theorem step_safe {i : ι} {o : Op C} {w w' : World ι} {a : Ans C (Writer ι) o} (hs : step i o w a w')
    (hinv : Inv config w) (hpre : Pre config i o w) : Inv config w' ∧ ∀ j, j ≠ i → Rely j w w' := by
  cases o with
  | read key version =>
    obtain ⟨-, rfl⟩ := hs
    exact ⟨hinv, fun j _ => Rely.refl j _⟩
  | now | sleep | refreshRequired =>
    rw [show w' = w from hs]
    exact ⟨hinv, fun j _ => Rely.refl j _⟩
  | swap key etag contents op =>
    obtain ⟨s, hswap, rfl⟩ := hs
    obtain ⟨rfl, u, hu, rfl, old, new, hcheck, hc, hmay⟩ := hpre
    rcases swaps_cases hswap hinv.wf hu with ⟨rfl, -⟩ | ⟨v, rest, current, hcur, hcc, hfresh, hvc, hvw, rfl, -⟩
    · exact ⟨hinv, fun j _ => Rely.refl j _⟩
    · have hmem : current ∈ w.objects (headPath config.path) := by rw [hcur]; exact List.mem_cons_self
      have hcheck' : checkRecord config current = .ok old := by
        rw [checkRecord_congr (hinv.wf.named _ current hmem) (hinv.wf.named _ u hu) hcc, hcheck]
      refine ⟨inv_put_head hinv hfresh hvw (hvc.trans hc) hmay (by rw [hcur]; rfl) ?_, fun j _ => rely_put w _ v⟩
      intro p r hp hr
      rw [hcur] at hp
      cases hp
      cases hr
      exact hcheck'
  | create key contents op =>
    obtain ⟨s, hcreate, rfl⟩ := hs
    rcases creates_cases hcreate with ⟨rfl, -⟩ | ⟨v, hempty, hfresh, hvc, hvw, rfl, -⟩
    · exact ⟨hinv, fun j _ => Rely.refl j _⟩
    by_cases hkey : key = headPath config.path
    · subst hkey
      rcases hpre with hne | ⟨new, hc, hmay⟩
      · exact absurd rfl hne
      · refine ⟨inv_put_head hinv hfresh hvw (hvc.trans hc) hmay (by rw [hempty]; rfl) ?_, fun j _ => rely_put w _ v⟩
        intro p r hp _
        rw [hempty] at hp
        cases hp
    · exact ⟨inv_put_other hinv hkey hfresh, fun j _ => rely_put w _ v⟩
  | token =>
    obtain ⟨⟨hnew, hcar⟩, rfl⟩ := hs
    refine ⟨⟨hinv.wf, hinv.linked, hinv.written, ?_, ?_, hinv.refreshed, hinv.once⟩, fun j hj => ?_⟩
    · intro x j j' hj hj'
      rcases List.mem_cons.1 hj with heq | hj
      · rcases List.mem_cons.1 hj' with heq' | hj'
        · cases heq; cases heq'; rfl
        · cases heq; exact absurd hj' (hnew j')
      · rcases List.mem_cons.1 hj' with heq' | hj'
        · cases heq'; exact absurd hj (hnew j)
        · exact hinv.unique x j j' hj hj'
    · intro x j hj v hv hcarries
      rcases List.mem_cons.1 hj with heq | hj
      · cases heq
        obtain ⟨record, m, hrec, hm, rfl⟩ := hcarries
        exact absurd rfl (hcar _ v hv record m hrec hm)
      · exact hinv.owned x j hj v hv hcarries
    · exact ⟨Grows.refl _, fun x hx => List.mem_cons_of_mem _ hx, fun _ => Iff.rfl⟩
  | refresh fence =>
    rw [show w' = _ from hs]
    obtain ⟨hadm, hunused⟩ := hpre
    refine ⟨⟨hinv.wf, hinv.linked, hinv.written, hinv.unique, hinv.owned, ?_, ?_⟩, fun j hj => ?_⟩
    · intro j f h
      rcases List.mem_cons.1 h with heq | h
      · cases heq; exact hadm
      · exact hinv.refreshed j f h
    · simp only [List.map_cons, List.nodup_cons]
      refine ⟨fun hmem => ?_, hinv.once⟩
      obtain ⟨⟨j, f⟩, hjf, rfl⟩ := List.mem_map.1 hmem
      obtain ⟨v, hv, hvw, hvf⟩ := hadm
      obtain ⟨u, hu, huw, huf⟩ := hinv.refreshed j f hjf
      have hkind : ∀ (x : Version Text (Writer ι)) k, x.writer = .task k .admission → (entry x).kind = .admission := by
        intro x k hx
        unfold entry
        split <;> rw [hx] <;> rfl
      have := Head.admission_unique hinv.linked hv hu (hkind v i hvw) (hkind u j huw) (hvf.trans huf.symm)
      rw [this, huw] at hvw
      cases hvw
      exact hunused f hjf
    · refine ⟨Grows.refl _, fun _ h => h, fun f => ⟨fun h => ?_, fun h => List.mem_cons_of_mem _ h⟩⟩
      rcases List.mem_cons.1 h with heq | h
      · cases heq; exact absurd rfl hj
      · exact h

/-! ## Methods -/

/-- What task `i` leaves to itself by an operation other than a refresh. -/
theorem step_rely {i : ι} {o : Op C} {w w' : World ι} {a : Ans C (Writer ι) o} (hs : step i o w a w')
    (ho : ∀ fence, o ≠ .refresh fence) : Rely i w w' := by
  cases o with
  | read key version =>
    obtain ⟨-, rfl⟩ := hs
    exact Rely.refl i _
  | now | sleep | refreshRequired =>
    rw [show w' = w from hs]
    exact Rely.refl i _
  | swap key etag contents op =>
    obtain ⟨s, ⟨-, v, -, -, -, rfl, -⟩ | ⟨rfl, -⟩, rfl⟩ := hs
    · exact rely_put w _ v
    · exact Rely.refl i _
  | create key contents op =>
    obtain ⟨s, ⟨-, v, -, -, -, rfl, -⟩ | ⟨rfl, -⟩, rfl⟩ := hs
    · exact rely_put w _ v
    · exact Rely.refl i _
  | token =>
    obtain ⟨-, rfl⟩ := hs
    exact ⟨Grows.refl _, fun x hx => List.mem_cons_of_mem _ hx, fun _ => Iff.rfl⟩
  | refresh fence => exact absurd rfl (ho fence)

section

variable {α β : Type} {i : ι} {Q : α → World ι → Prop} {Q' : β → World ι → Prop} {w : World ι}

/-- **A method that task `i` may run from `w`**: it refreshes nothing, and what it returns satisfies `Q`. -/
def Ensures (config : Config) (i : ι) (Q : α → World ι → Prop) (m : M C (Writer ι) α) (w : World ι) : Prop :=
  (protocol config).Safe i (fun r w' => Rely i w w' ∧ ∀ a, r = .ok a → Q a w') m.run w

theorem ensures_orRaise {r : Except Exc α} (h : ∀ a w', r = .ok a → Rely i w w' → Inv config w' → Q a w') :
    Ensures (C := C) config i Q (orRaise r) w :=
  fun w' hr hi => ⟨hr, fun a ha => h a w' ha hr hi⟩

theorem ensures_pure {a : α} (h : ∀ w', Rely i w w' → Inv config w' → Q a w') :
    Ensures (C := C) config i Q (pure a) w :=
  ensures_orRaise (r := .ok a) (fun b w' hb hr hi => by cases hb; exact h w' hr hi)

theorem ensures_throw {exc : Exc} : Ensures (C := C) config i Q (throw exc) w :=
  ensures_orRaise (r := .error exc) (fun _ _ h => by cases h)

theorem ensures_act {o : Op C} {Q : Ans C (Writer ι) o → World ι → Prop} (ho : ∀ fence, o ≠ .refresh fence)
    (hpre : ∀ w', Rely i w w' → Inv config w' → Pre config i o w')
    (hpost : ∀ w₁ a w₂ w₃, Rely i w w₁ → Inv config w₁ → step i o w₁ a w₂ → Rely i w₂ w₃ → Q a w₃) :
    Ensures config i Q (act o) w := by
  intro w₁ hr₁ hi₁ a w₂ hs
  obtain ⟨hinv, hguar⟩ := step_safe hs hi₁ (hpre w₁ hr₁ hi₁)
  refine ⟨hinv, hguar, fun w₃ hr₃ _ => ⟨(hr₁.trans i (step_rely hs ho)).trans i hr₃, ?_⟩⟩
  intro b hb
  cases hb
  exact hpost w₁ a w₂ w₃ hr₁ hi₁ hs hr₃

/-- An operation that needs nothing and whose answer says nothing. -/
theorem ensures_any {o : Op C} (ho : ∀ fence, o ≠ .refresh fence) (hpre : ∀ w', Pre config i o w') :
    Ensures config i (fun _ _ => True) (act o) w :=
  ensures_act ho (fun w' _ _ => hpre w') (fun _ _ _ _ _ _ _ _ => trivial)

/-- A method with its exception caught. -/
theorem Ensures.lift {m : M C (Writer ι) α} (h : Ensures config i Q m w) :
    Ensures config i (fun r w' => ∀ a, r = .ok a → Q a w') (ExceptT.lift m.run : M C (Writer ι) (Except Exc α)) w := by
  have hsafe : ∀ (p : P C (Writer ι) (Except Exc α)) (u : World ι),
      (protocol config).Safe i (fun r w' => Rely i w w' ∧ ∀ a, r = .ok a → Q a w') p u →
      (protocol config).Safe i (fun r w' => Rely i w w' ∧ ∀ r', r = .ok r' → ∀ a, r' = .ok a → Q a w')
        (p >>= fun r => Prog.ret (Except.ok r) : P C (Writer ι) (Except Exc (Except Exc α))) u := by
    intro p
    induction p with
    | ret r =>
      intro u hp w' hr hi
      obtain ⟨h1, h2⟩ := hp w' hr hi
      refine ⟨h1, fun r' hr' a ha => ?_⟩
      cases hr'
      exact h2 a ha
    | call o k ih =>
      intro u hp w' hr hi a w'' hs
      obtain ⟨h1, h2, h3⟩ := hp w' hr hi a w'' hs
      exact ⟨h1, h2, ih a w'' h3⟩
  exact hsafe m.run w h

theorem Ensures.seq {m : M C (Writer ι) α} {f : α → M C (Writer ι) β} (h : Ensures config i Q m w)
    (hf : ∀ a w', Rely i w w' → Inv config w' → Q a w' → Ensures config i Q' (f a) w') (hinv : Inv config w) :
    Ensures config i Q' (m >>= f) w := by
  refine Protocol.Safe.bind h (fun r w' hi hq => ?_) hinv
  cases r with
  | ok a =>
    refine Protocol.Safe.mono ?_ (hf a w' hq.1 hi (hq.2 a rfl))
    exact fun r w'' hr => ⟨hq.1.trans i hr.1, hr.2⟩
  | error exc => exact fun w'' hr _ => ⟨hq.1.trans i hr, fun _ hb => by cases hb⟩

/-- A method that goes on with one that may refresh. -/
theorem Ensures.next {m : M C (Writer ι) α} {f : α → M C (Writer ι) β} {R : Except Exc β → World ι → Prop}
    (h : Ensures config i Q m w) (herr : ∀ exc w', R (.error exc) w')
    (hf : ∀ a w', Rely i w w' → Inv config w' → Q a w' → (protocol config).Safe i R (f a).run w') (hinv : Inv config w) :
    (protocol config).Safe i R (m >>= f).run w := by
  refine Protocol.Safe.bind h (fun r w' hi hq => ?_) hinv
  cases r with
  | ok a => exact hf a w' hq.1 hi (hq.2 a rfl)
  | error exc => exact fun w'' _ _ => herr exc w''

/-! ## The methods of the provider -/

theorem ensures_readObject (key version : String) :
    Ensures (C := C) config i (fun item w' => item ∈ w'.objects key) (readObject key version) w := by
  intro w₁ hr₁ hi₁ answer w₂ hs
  obtain ⟨hread, rfl⟩ := hs
  refine ⟨hi₁, fun j _ => Rely.refl j _, ?_⟩
  cases answer with
  | found item =>
    refine fun w₃ hr₃ _ => ⟨hr₁.trans i hr₃, fun a ha => ?_⟩
    cases ha
    exact hr₃.objects.mem (mem_of_lookup hread)
  | absent => exact fun w₃ hr₃ _ => ⟨hr₁.trans i hr₃, fun _ ha => by cases ha⟩
  | failed => exact fun w₃ hr₃ _ => ⟨hr₁.trans i hr₃, fun _ ha => by cases ha⟩

/-- The record is that of a version of the head. -/
def Observed (config : Config) (found : Record × Version Text (Writer ι)) (w : World ι) : Prop :=
  found.2 ∈ w.objects (headPath config.path) ∧ checkRecord config found.2 = .ok found.1

theorem ensures_readRecord (hinv : Inv config w) :
    Ensures (C := C) config i (Observed config) (readRecord config) w := by
  refine (ensures_readObject _ _).seq (fun item w' _ hi hitem => ?_) hinv
  have hcheck : Ensures (C := C) config i (fun record _ => checkRecord config item = .ok record)
      (orRaise (checkRecord config item)) w' := ensures_orRaise (fun _ _ h _ _ => h)
  exact hcheck.seq (fun record w'' hr _ hrec => ensures_pure (fun w₃ hr₃ _ =>
    ⟨(hr.trans i hr₃).objects.mem hitem, hrec⟩)) hi

theorem ensures_settle {contents : Text} {answer : WriteAnswer Text (Writer ι)} (hinv : Inv config w)
    (h : ∀ v, answer = .applied v → v ∈ w.objects (headPath config.path) ∧ v.contents = contents) :
    Ensures (C := C) config i (fun _ w' => ∃ v ∈ w'.objects (headPath config.path), v.contents = contents)
      (settle config contents answer) w := by
  cases answer with
  | applied v => exact ensures_pure (fun w' hr _ => ⟨v, hr.objects.mem (h v rfl).1, (h v rfl).2⟩)
  | conflict => exact ensures_throw
  | failed => exact ensures_throw
  | unknown =>
    refine (ensures_readObject _ _).seq (fun observed w' _ _ hmem => ?_) hinv
    split
    · exact ensures_throw
    · rename_i heq
      exact ensures_pure (fun w'' hr _ => ⟨observed, hr.objects.mem hmem, not_not.1 heq⟩)

/-- A conditional write that reports success has added its version. -/
theorem ensures_swap {etag : String} {contents : Text} {op : HeadOp}
    (hpre : ∀ w', Rely i w w' → Inv config w' → Pre (C := C) config i (.swap (headPath config.path) etag contents op) w') :
    Ensures (C := C) config i (fun (answer : WriteAnswer Text (Writer ι)) w' => ∀ v, answer = .applied v →
      v ∈ w'.objects (headPath config.path) ∧ v.contents = contents)
      (act (.swap (headPath config.path) etag contents op)) w := by
  refine ensures_act (fun _ h => by cases h) hpre ?_
  rintro w₁ answer w₂ w₃ - - ⟨s, hswap, rfl⟩ hr₃ v rfl
  rcases hswap with ⟨-, u, -, hc, -, rfl, ha⟩ | ⟨-, ha⟩
  · rcases ha with ha | ha
    · cases ha
      exact ⟨hr₃.objects.mem (by simp), hc⟩
    · cases ha
  · rcases ha with ha | ha | ha <;> cases ha

theorem ensures_create {contents : Text} {op : HeadOp}
    (hpre : ∀ w', Rely i w w' → Inv config w' → Pre (C := C) config i (.create (headPath config.path) contents op) w') :
    Ensures (C := C) config i (fun (answer : WriteAnswer Text (Writer ι)) w' => ∀ v, answer = .applied v →
      v ∈ w'.objects (headPath config.path) ∧ v.contents = contents)
      (act (.create (headPath config.path) contents op)) w := by
  refine ensures_act (fun _ h => by cases h) hpre ?_
  rintro w₁ answer w₂ w₃ - - ⟨s, hcreate, rfl⟩ hr₃ v rfl
  rcases hcreate with ⟨-, u, -, hc, -, rfl, ha⟩ | ⟨-, ha⟩
  · rcases ha with ha | ha
    · cases ha
      exact ⟨hr₃.objects.mem (by simp), hc⟩
    · cases ha
  · rcases ha with ha | ha | ha <;> cases ha

/-- `_write_head` writes onto the record it was computed from. -/
theorem ensures_writeHead {op : HeadOp} {prior updated : Record} (hinv : Inv config w)
    (hmay : MayWrite config i op (some prior) updated w) :
    Ensures (C := C) config i (fun _ w' => ∃ v ∈ w'.objects (headPath config.path), v.contents = dumps (.head updated))
      (writeHead config op prior updated) w := by
  refine (ensures_readRecord hinv).seq (fun found w' hr hi hobs => ?_) hinv
  obtain ⟨record, head⟩ := found
  show Ensures config i _ (if record ≠ prior then _ else _) w'
  split
  · exact ensures_throw
  · rename_i heq
    have heq : record = prior := not_not.1 heq
    refine (ensures_swap (fun w₁ hr₁ _ => ?_)).seq (fun answer w'' _ hi'' hans => ensures_settle hi'' hans) hi
    exact ⟨rfl, head, hr₁.objects.mem hobs.1, rfl, prior, updated, heq ▸ hobs.2, rfl, hmay.write,
      fun m hm => hr₁.issued _ (hr.issued _ (hmay.owned m hm))⟩

theorem ensures_createImmutable {key : String} (hkey : key ≠ headPath config.path) (contents : Text) (differs : String)
    (hinv : Inv config w) :
    Ensures (C := C) config i (fun _ _ => True) (createImmutable key contents differs) w := by
  have hcreate : Ensures (C := C) config i (fun _ _ => True) (act (.create key contents .object)) w :=
    ensures_any (fun _ h => by cases h) (fun _ => Or.inl hkey)
  refine hcreate.seq (fun answer w' _ hi _ => ?_) hinv
  have hread : Ensures (C := C) (ι := ι) config i (fun _ _ => True)
      (readObject key "" >>= fun item => if item.contents ≠ contents then throw (.value differs) else pure item) w' := by
    refine (ensures_readObject _ _).seq (fun item w'' _ _ _ => ?_) hi
    split
    · exact ensures_throw
    · exact ensures_pure (fun _ _ _ => trivial)
  cases answer with
  | applied item => exact ensures_pure (fun _ _ _ => trivial)
  | failed => exact ensures_throw
  | conflict => exact hread
  | unknown => exact hread

/-- **A refresh that was admitted has its own version of the head.** -/
theorem ensures_admitRefresh {record : Record} {now : Int} (hinv : Inv config w) (hready : record.status = .ready) :
    Ensures (C := C) config i
      (fun admission w' => Admitted config w' i admission.fence ∧ admission.resultKey ≠ headPath config.path)
      (admitRefresh config record now) w := by
  have htoken : ∀ u : World ι, Ensures (C := C) config i (fun (token : String) w' => (token, i) ∈ w'.issued)
      (act .token) u := by
    intro u
    refine ensures_act (fun _ h => by cases h) (fun _ _ _ => trivial) ?_
    rintro w₁ token w₂ w₃ - - ⟨-, rfl⟩ hr₃
    exact hr₃.issued _ List.mem_cons_self
  refine (htoken w).seq (fun attemptID w₁ _ hi₁ _ => ?_) hinv
  refine (htoken w₁).seq (fun invocationID w₂ _ hi₂ hissued => ?_) hi₁
  refine (ensures_orRaise (Q := fun _ _ => True) (fun _ _ _ _ _ => trivial)).seq (fun expiresAt w₃ hr₃ hi₃ _ => ?_) hi₂
  have hissued₃ := hr₃.issued _ hissued
  refine (ensures_writeHead hi₃ ⟨?_, ?_⟩).seq (fun _ w₄ hr₄ hi₄ hw => ensures_pure (fun w₅ hr₅ _ => ?_)) hi₃
  · exact ⟨hready, rfl, rfl, rfl, rfl, by simp [admittedRecord, connectionRecordWire]⟩
  · rintro m hm
    cases hm
    exact hissued₃
  · obtain ⟨v, hv, hc⟩ := hw
    have hval := congrArg Text.value hc
    refine ⟨Admitted.grows ⟨v, hv, hi₄.owned invocationID i (hr₄.issued _ hissued₃) v hv ⟨_, _, hval, rfl, rfl⟩, ?_⟩
      hr₅.objects, (headPath_ne_resultPath _ _).symm⟩
    rw [entry_head hval]
    rfl

theorem pending_of_isAdmitted {record : Record} {admission : Admission} (h : isAdmitted record admission = true) :
    Pending admission.attemptID admission.fence record := by
  simp only [isAdmitted, Bool.and_eq_true, beq_iff_eq, Option.any_eq_true] at h
  obtain ⟨⟨-, hfence⟩, m, hm, hid, -⟩ := h
  exact ⟨hfence, m, hm, hid⟩

theorem ensures_finishExchange {admission : Admission} {status : Status} (hinv : Inv config w) :
    Ensures (C := C) config i (fun _ _ => True) (finishExchange config admission status) w := by
  refine (ensures_readRecord hinv).seq (fun found w' _ hi _ => ?_) hinv
  obtain ⟨record, head⟩ := found
  show Ensures config i _ (if isAdmitted record admission then _ else _) w'
  split
  · rename_i hadm
    refine (ensures_orRaise (Q := fun _ _ => True) (fun _ _ _ _ _ => trivial)).seq (fun expiresAt w'' _ hi'' _ => ?_) hi
    have hmay : MayWrite config i (.finish admission.attemptID admission.fence) (some record)
        (finishedRecord config record status expiresAt) w'' :=
      ⟨⟨pending_of_isAdmitted hadm, rfl, rfl, rfl, rfl⟩, fun m hm => by cases hm⟩
    exact Protocol.Safe.mono (fun _ _ h => ⟨h.1, fun _ _ => trivial⟩) (ensures_writeHead hi'' hmay)
  · exact ensures_throw

theorem ensures_settlePublished {key : String} {written : Except Exc Unit} (hinv : Inv config w) :
    Ensures (C := C) config i (fun _ _ => True) (settlePublished config key written) w := by
  cases written with
  | ok => exact ensures_pure (fun _ _ _ => trivial)
  | error exc =>
    cases exc with
    | objectConflict text =>
      refine (ensures_readRecord hinv).seq (fun found w' _ _ _ => ?_) hinv
      obtain ⟨observed, head⟩ := found
      show Ensures config i _ (if references observed key then _ else _) w'
      split
      · exact ensures_pure (fun _ _ _ => trivial)
      · exact ensures_throw
    | _ => exact ensures_throw

theorem ensures_publishResult {admission : Admission} {key : String} {result : Version Text (Writer ι)}
    (hinv : Inv config w) :
    Ensures (C := C) config i (fun _ _ => True) (publishResult config admission key result) w := by
  refine (ensures_readRecord hinv).seq (fun found w' _ hi _ => ?_) hinv
  obtain ⟨record, head⟩ := found
  show Ensures config i _ (if references record key then _ else if isAdmitted record admission then _ else _) w'
  split
  · exact ensures_pure (fun _ _ _ => trivial)
  split
  · rename_i hadm
    refine (ensures_orRaise (Q := fun _ _ => True) (fun _ _ _ _ _ => trivial)).seq (fun envelope w₁ _ hi₁ _ => ?_) hi
    refine (ensures_orRaise (Q := fun _ _ => True) (fun _ _ _ _ _ => trivial)).seq (fun expiresAt w₂ _ hi₂ _ => ?_) hi₁
    have hmay : MayWrite config i (.publish admission.attemptID admission.fence) (some record)
        (publishedRecord config record envelope key result expiresAt) w₂ :=
      ⟨⟨pending_of_isAdmitted hadm, rfl, rfl, rfl, rfl⟩, fun m hm => by cases hm⟩
    exact (ensures_writeHead hi₂ hmay).lift.seq (fun written w₃ _ hi₃ _ => ensures_settlePublished hi₃) hi₂
  · exact ensures_throw

theorem ensures_commitRefresh {admission : Admission} {material : Material} (hinv : Inv config w)
    (hkey : admission.resultKey ≠ headPath config.path) :
    Ensures (C := C) config i (fun _ _ => True) (commitRefresh config admission material) w :=
  (ensures_createImmutable hkey _ _ hinv).seq (fun _ _ _ hi _ => ensures_publishResult hi) hinv

theorem ensures_recoverOrWait {record : Record} (hinv : Inv config w) :
    Ensures (C := C) config i (fun _ _ => True) (recoverOrWait config record) w := by
  unfold recoverOrWait
  split
  · exact ensures_throw
  · rename_i mutation hm
    refine (ensures_orRaise (Q := fun _ _ => True) (fun _ _ _ _ _ => trivial)).seq (fun admission w₁ _ hi₁ _ => ?_) hinv
    have hread : Ensures (C := C) config i (fun _ _ => True) (act (.read admission.resultKey "")) w₁ :=
      ensures_any (fun _ h => by cases h) (fun _ => trivial)
    refine hread.seq (fun answer w₂ _ hi₂ _ => ?_) hi₁
    cases answer with
    | failed => exact ensures_throw
    | found result => exact ensures_publishResult hi₂
    | absent =>
      have hnow : Ensures (C := C) config i (fun _ _ => True) (act .now) w₂ :=
        ensures_any (fun _ h => by cases h) (fun _ => trivial)
      refine hnow.seq (fun (now : Int) w₃ _ hi₃ _ => ?_) hi₂
      show Ensures config i _ (if now < admission.deadline then _ else _) w₃
      split
      · have hsleep : Ensures (C := C) config i (fun _ _ => True) (act .sleep) w₃ :=
          ensures_any (fun _ h => by cases h) (fun _ => trivial)
        exact hsleep.seq (fun _ _ _ _ _ => ensures_pure (fun _ _ _ => trivial)) hi₃
      · exact ensures_finishExchange hi₃

theorem ensures_readMaterial {record : Record} (hinv : Inv config w) :
    Ensures (C := C) config i (fun _ _ => True) (readMaterial config record) w := by
  unfold readMaterial
  split
  · exact ensures_throw
  · exact (ensures_readObject _ _).seq (fun _ _ _ _ _ => ensures_orRaise (fun _ _ _ _ _ => trivial)) hinv

/-- Task `i` has not refreshed. -/
def Unused (i : ι) (w : World ι) : Prop := ∀ f, (i, f) ∉ w.refreshed

theorem Unused.rely {w' : World ι} (h : Unused i w) (hr : Rely i w w') : Unused i w' :=
  fun f hf => h f ((hr.refreshed f).1 hf)

theorem Ensures.safe {m : M C (Writer ι) α} (h : Ensures config i Q m w) {R : Except Exc α → World ι → Prop}
    (hR : ∀ r w', Rely i w w' → R r w') : (protocol config).Safe i R m.run w :=
  Protocol.Safe.mono (fun r w' hr => hR r w' hr.1) h

theorem ensures_refreshedWith {encode : C → Option String} {admission : Admission} {prior : Material} {outcome : Refreshed C}
    (hinv : Inv config w) (hkey : admission.resultKey ≠ headPath config.path) :
    Ensures config i (fun _ _ => True) (refreshedWith config encode admission prior outcome) w := by
  have hfinish : ∀ (u : World ι) (status : Status) (exc : Exc), Inv config u → Ensures (C := C) (α := C) config i (fun _ _ => True)
      (finishExchange config admission status >>= fun _ => throw exc) u :=
    fun u _ _ hu => (ensures_finishExchange hu).seq (fun _ _ _ _ _ => ensures_throw) hu
  cases outcome with
  | reauthorizationRequired => exact hfinish w _ _ hinv
  | failed isAddressRefusal => exact hfinish w _ _ hinv
  | result credentials expiresAt =>
    have hnow : Ensures (C := C) config i (fun _ _ => True) (act .now) w :=
      ensures_any (fun _ h => by cases h) (fun _ => trivial)
    refine hnow.seq (fun (now : Int) w₁ _ hi₁ _ => ?_) hinv
    show Ensures config i _ (if expiresAt.instant ≤ now then _ else _) w₁
    split
    · exact hfinish w₁ _ _ hi₁
    · cases encode credentials with
      | none => exact hfinish w₁ _ _ hi₁
      | some encoded =>
        exact (ensures_commitRefresh hi₁ hkey).seq (fun _ _ _ _ _ => ensures_pure (fun _ _ _ => trivial)) hi₁

/-- **The driver is called by a task that was admitted and has not called it before.** -/
theorem safe_refreshAdmitted {encode : C → Option String} {admission : Admission} {prior : Material}
    (hunused : Unused i w) (hadm : Admitted config w i admission.fence)
    (hkey : admission.resultKey ≠ headPath config.path) :
    (protocol config).Safe i (fun _ _ => True) (refreshAdmitted config encode admission prior : M C (Writer ι) C).run w := by
  intro w₁ hr₁ hi₁ outcome w₂ hs
  have hpre : Pre config i (.refresh admission.fence : Op C) w₁ := ⟨hadm.grows hr₁.objects, hunused.rely hr₁⟩
  obtain ⟨hinv, hguar⟩ := step_safe (a := outcome) hs hi₁ hpre
  exact ⟨hinv, hguar, (ensures_refreshedWith hinv hkey).safe (fun _ _ _ => trivial)⟩

/-- A round that goes on has not refreshed. -/
def Retries (i : ι) (r : Except Exc (Round C)) (w : World ι) : Prop := r = .ok .again → Unused i w

theorem safe_unlessConflict {body : M C (Writer ι) α} {next : α → M C (Writer ι) (Round C)} (hinv : Inv config w)
    (hunused : Unused i w) (hbody : Ensures config i Q body w)
    (hnext : ∀ a w', Rely i w w' → Inv config w' → Q a w' → (protocol config).Safe i (Retries i) (next a).run w') :
    (protocol config).Safe i (Retries i) (unlessConflict body next).run w := by
  refine hbody.lift.next (fun _ _ h => by cases h) (fun r w' hr hi hq => ?_) hinv
  cases r with
  | ok a => exact hnext a w' hr hi (hq a rfl)
  | error exc =>
    show (protocol config).Safe i (Retries i)
      (if exc.isConflict then pure Round.again else throw exc : M C (Writer ι) (Round C)).run w'
    split
    · exact fun w'' hr' _ _ => (hunused.rely hr).rely hr'
    · exact fun _ _ _ h => by cases h

theorem safe_again (hunused : Unused i w) :
    (protocol config).Safe i (Retries i) (pure Round.again : M C (Writer ι) (Round C)).run w :=
  fun _ hr _ _ => hunused.rely hr

theorem safe_round {decode : String → Option C} {encode : C → Option String} (hinv : Inv config w) (hunused : Unused i w) :
    (protocol config).Safe i (Retries i) (round config decode encode : M C (Writer ι) (Round C)).run w := by
  have hthrow : ∀ (u : World ι) (exc : Exc),
      (protocol config).Safe i (Retries i) (throw exc : M C (Writer ι) (Round C)).run u :=
    fun _ _ _ _ _ h => by cases h
  have hnow : ∀ u : World ι, Ensures (C := C) config i (fun _ _ => True) (act .now) u :=
    fun _ => ensures_any (fun _ h => by cases h) (fun _ => trivial)
  have herr : ∀ (exc : Exc) (w' : World ι), Retries (C := C) i (.error exc) w' := fun _ _ h => by cases h
  have hrecover : ∀ (u : World ι) (record : Record), Inv config u → Unused i u → (protocol config).Safe i (Retries i)
      (unlessConflict (recoverOrWait config record) (fun _ => return .again) : M C (Writer ι) (Round C)).run u :=
    fun u record hu huu => safe_unlessConflict hu huu (ensures_recoverOrWait hu) (fun _ _ hr _ _ => safe_again (huu.rely hr))
  refine (ensures_readRecord hinv).next herr (fun found w₁ hr₁ hi₁ hobs => ?_) hinv
  obtain ⟨record, head⟩ := found
  have hunused₁ := hunused.rely hr₁
  dsimp only
  split
  · exact hthrow _ _
  · exact hthrow _ _
  · refine (hnow w₁).next herr (fun now w₂ hr₂ hi₂ _ => ?_) hi₁
    split
    · exact hthrow _ _
    · exact hrecover w₂ record hi₂ (hunused₁.rely hr₂)
  · exact hrecover w₁ record hi₁ hunused₁
  · rename_i hready
    refine (ensures_readMaterial hi₁).next herr (fun material w₂ hr₂ hi₂ _ => ?_) hi₁
    split
    · exact hthrow _ _
    · rename_i credentials hdecode
      refine (hnow w₂).next herr (fun (now : Int) w₃ hr₃ hi₃ _ => ?_) hi₂
      have hrequired : Ensures (C := C) config i (fun _ _ => True)
          (isRefreshRequired (material.expiry.any (fun e => decide (e ≤ now)))) w₃ := by
        unfold isRefreshRequired
        split
        · exact ensures_pure (fun _ _ _ => trivial)
        · exact ensures_any (fun _ h => by cases h) (fun _ => trivial)
      refine hrequired.next herr (fun isRequired w₄ hr₄ hi₄ _ => ?_) hi₃
      have hunused₄ := ((hunused₁.rely hr₂).rely hr₃).rely hr₄
      split
      · refine safe_unlessConflict hi₄ hunused₄ (ensures_admitRefresh hi₄ hready) (fun admission w₅ hr₅ hi₅ hadm => ?_)
        refine Protocol.Safe.bind (safe_refreshAdmitted (hunused₄.rely hr₅) hadm.1 hadm.2) (fun r w₆ _ _ => ?_) hi₅
        cases r with
        | ok => exact fun _ _ _ h => by cases h
        | error => exact fun _ _ _ h => by cases h
      · exact fun _ _ _ h => by cases h

theorem safe_resolveWithRefresh {decode : String → Option C} {encode : C → Option String} :
    ∀ (rounds : Nat) {w : World ι}, Inv config w → Unused i w → (protocol config).Safe i (fun _ _ => True)
      (resolveWithRefresh config decode encode rounds : M C (Writer ι) C).run w
  | 0, _, _, _ => fun _ _ _ => trivial
  | rounds + 1, _, hinv, hunused => by
    refine Protocol.Safe.bind (safe_round hinv hunused) (fun r w' hi hr => ?_) hinv
    cases r with
    | error => exact fun _ _ _ => trivial
    | ok result =>
      cases result with
      | done => exact fun _ _ _ => trivial
      | again => exact safe_resolveWithRefresh rounds hi (hr rfl)

theorem ensures_readPrior {expectedRevision : Nat} (hinv : Inv config w) :
    Ensures (C := C) config i (fun prior w' => ∀ found, prior = some found → Observed config found w')
      (readPrior config expectedRevision) w := by
  refine (ensures_readRecord hinv).lift.seq (fun answer w' _ _ hobs => ?_) hinv
  cases answer with
  | ok found =>
    refine ensures_pure (fun w'' hr _ found' heq => ?_)
    cases heq
    exact ⟨hr.objects.mem (hobs found rfl).1, (hobs found rfl).2⟩
  | error exc =>
    cases exc with
    | objectNotFound =>
      show Ensures config i _ (if expectedRevision ≠ 0 then _ else _) w'
      split
      · exact ensures_throw
      · exact ensures_pure (fun _ _ _ _ h => by cases h)
    | _ => exact ensures_throw

theorem ensures_writeReplaced {prior : Option (Record × Version Text (Writer ι))} {new : Record}
    (hobs : ∀ found, prior = some found → Observed config found w)
    (hwrite : HeadWrite .replace (prior.map Prod.fst) new) (hnone : new.mutation = none) :
    Ensures (C := C) config i (fun (answer : WriteAnswer Text (Writer ι)) w' => ∀ v, answer = .applied v →
      v ∈ w'.objects (headPath config.path) ∧ v.contents = dumps (.head new))
      (writeReplaced config prior (dumps (.head new))) w := by
  have howned : ∀ (u : World ι) m, new.mutation = some m → (m.invocationID, i) ∈ u.issued := by
    intro u m hm
    rw [hnone] at hm
    cases hm
  cases prior with
  | none => exact ensures_create (fun w' _ _ => .inr ⟨new, rfl, hwrite, howned w'⟩)
  | some found =>
    obtain ⟨hmem, hcheck⟩ := hobs found rfl
    exact ensures_swap (fun w' hr _ => ⟨rfl, found.2, hr.objects.mem hmem, rfl, found.1, new, hcheck, rfl, hwrite, howned w'⟩)

theorem ensures_replaceCredential {expectedRevision : Nat} {material : Material} (hinv : Inv config w) :
    Ensures (C := C) config i (fun _ _ => True) (replaceCredential config expectedRevision material) w := by
  unfold replaceCredential
  split
  · exact ensures_throw
  refine (ensures_readPrior hinv).seq (fun prior w₁ _ hi₁ hobs => ?_) hinv
  split
  · exact ensures_throw
  · rename_i hrev
    refine (ensures_createImmutable (headPath_ne_credentialPath _ _).symm _ _ hi₁).seq (fun candidate w₂ hr₂ hi₂ _ => ?_) hi₁
    have hobs₂ : ∀ found, prior = some found → Observed config found w₂ :=
      fun found h => ⟨hr₂.objects.mem (hobs found h).1, (hobs found h).2⟩
    refine (ensures_writeReplaced hobs₂ ⟨rfl, ?_, ?_, rfl⟩ rfl).seq (fun answer w₃ _ hi₃ hans => ?_) hi₂
    · rw [Option.map_map]
      exact congrArg (· + 1) (not_not.1 hrev).symm
    · rw [Option.map_map]
      rfl
    · exact (ensures_settle hi₃ hans).seq (fun _ _ _ _ _ => ensures_pure (fun _ _ _ => trivial)) hi₃

theorem safe_map {m : M C (Writer ι) α} {f : α → β} (hinv : Inv config w)
    (h : (protocol config).Safe i (fun _ _ => True) m.run w) :
    (protocol config).Safe i (fun _ _ => True) (f <$> m : M C (Writer ι) β).run w := by
  show (protocol config).Safe i _ (m.run >>= _) w
  refine Protocol.Safe.bind h (fun r _ _ _ => ?_) hinv
  cases r <;> exact fun _ _ _ => trivial

/-- **Every call is safe** for a task that has not refreshed. -/
theorem safe_call (call : Call C) (hinv : Inv config w) (hunused : Unused i w) :
    (protocol config).Safe i (fun _ _ => True) (call.program config) w := by
  cases call with
  | resolveWithRefresh decode encode rounds => exact safe_map hinv (safe_resolveWithRefresh rounds hinv hunused)
  | replaceCredential expectedRevision material =>
    exact safe_map hinv ((ensures_replaceCredential hinv).safe (fun _ _ _ => trivial))

end

/-! ## Every run -/

/-- **Where a run starts**: any store, written before, and every task about to make its call. -/
structure Start (config : Config) (c : Lib.Config (Op C) (Ans C (Writer ι)) (Except Exc (Result C)) (World ι) ι) : Prop where
  wf        : Wf c.state.objects
  base      : ∀ key, ∀ v ∈ c.state.objects key, v.writer = .base
  issued    : c.state.issued = []
  refreshed : c.state.refreshed = []
  calls     : ∀ i, ∃ call : Call C, c.threads i = call.program config

variable {c c' : Lib.Config (Op C) (Ans C (Writer ι)) (Except Exc (Result C)) (World ι) ι}

theorem linked_of_base : ∀ {l : List (Version Text (Writer ι))}, (∀ v ∈ l, v.writer = .base) → Head.Linked entry l
  | [], _ => trivial
  | v :: rest, h => by
    have hkind : ∀ u ∈ v :: rest, (entry u).kind = .base := by
      intro u hu
      unfold entry
      split <;> rw [h u hu] <;> rfl
    refine ⟨?_, linked_of_base (fun u hu => h u (List.mem_cons_of_mem _ hu))⟩
    unfold Head.Follows
    rw [hkind v List.mem_cons_self]
    intro p hp
    obtain ⟨u, hu, rfl⟩ := Option.map_eq_some_iff.1 hp
    exact hkind u (List.mem_cons_of_mem _ (List.mem_of_mem_head? hu))

theorem Start.inv (h : Start config c) : Inv config c.state where
  wf := h.wf
  linked := linked_of_base (h.base _)
  written := by
    intro v rest hs i op hv
    rw [h.base _ v (hs.subset List.mem_cons_self)] at hv
    cases hv
  unique := by
    intro x j j' hj
    rw [h.issued] at hj
    cases hj
  owned := by
    intro x j hj
    rw [h.issued] at hj
    cases hj
  refreshed := by
    intro i f hf
    rw [h.refreshed] at hf
    cases hf
  once := by
    rw [h.refreshed]
    exact List.nodup_nil

theorem inv_of_run (hstart : Start config c) (hrun : Lib.Config.Run step c c') : Inv config c'.state := by
  refine (Protocol.safe_run (P := protocol config) (Q := fun _ _ _ => True) hrun hstart.inv (fun i => ?_)).1
  obtain ⟨call, hcall⟩ := hstart.calls i
  rw [hcall]
  refine safe_call call hstart.inv (fun f hf => ?_)
  rw [hstart.refreshed] at hf
  cases hf

theorem entry_kind (v : Version Text (Writer ι)) : (entry v).kind = v.writer.kind := by
  unfold entry
  split <;> rfl

/-- A publication is onto the head that has the exchange pending. -/
theorem Inv.published {w : World ι} (h : Inv config w) {v : Version Text (Writer ι)} {rest : List (Version Text (Writer ι))}
    {i : ι} {attemptID : String} {fence : Nat} (hs : v :: rest <:+ w.objects (headPath config.path))
    (hv : v.writer = .task i (.publish attemptID fence)) :
    ∃ p older old new, rest = p :: older ∧ checkRecord config p = .ok old ∧ Pending attemptID fence old ∧
      v.contents = dumps (.head new) ∧ new.status = .ready ∧ new.fence = fence := by
  obtain ⟨old, new, hc, hwrite, hsome, hprev⟩ := h.written v rest hs i _ hv
  match old, hwrite with
  | some old, ⟨hpend, hready, _, hfence, _⟩ =>
    cases rest with
    | nil => cases hsome
    | cons p older => exact ⟨p, older, old, new, rfl, hprev p old rfl rfl, hpend, hc, hready, hfence.trans hpend.1⟩

/-- A version of the run is not followed by one from before it. -/
theorem Inv.not_base {w : World ι} (h : Inv config w) {newer older : List (Version Text (Writer ι))}
    {x : Version Text (Writer ι)} (hw : w.objects (headPath config.path) = newer ++ x :: older)
    (hx : (entry x).kind ≠ .base) : ∀ u ∈ newer, (entry u).kind ≠ .base := by
  intro u hu hbase
  obtain ⟨front, back, rfl⟩ := List.append_of_mem hu
  have hlink : Head.Linked entry (u :: (back ++ x :: older)) := h.linked.suffix ⟨front, by rw [hw]; simp⟩
  exact hx (Head.base_of_base hlink hbase x (by simp))

/-- Once the head has left a pending exchange, the exchange is never published. -/
theorem Inv.left {w : World ι} (h : Inv config w) {newer older : List (Version Text (Writer ι))}
    {x p : Version Text (Writer ι)} {old : Record} {attemptID : String} {fence : Nat}
    (hw : w.objects (headPath config.path) = newer ++ x :: p :: older) {k : ι} {op : HeadOp} (hx : x.writer = .task k op)
    (hp : checkRecord config p = .ok old) (hpend : Pending attemptID fence old) {v : Version Text (Writer ι)}
    (hv : v ∈ newer) (i : ι) : v.writer ≠ .task i (.publish attemptID fence) := by
  intro hvw
  have hxsuffix : x :: p :: older <:+ w.objects (headPath config.path) := ⟨newer, hw.symm⟩
  have hxk : (entry x).kind ≠ .base := by
    obtain ⟨_, _, -, hwrite, -⟩ := h.written x (p :: older) hxsuffix k op hx
    rw [entry_kind, hx]
    cases op with
    | object => exact (by revert hwrite; unfold HeadWrite; split <;> simp_all)
    | _ => simp [Writer.kind]
  obtain ⟨front, back, rfl⟩ := List.append_of_mem hv
  have hsuffix : v :: (back ++ x :: p :: older) <:+ w.objects (headPath config.path) := ⟨front, by rw [hw]; simp⟩
  obtain ⟨q, before, oldq, new, hrest, hcheck, hpendq, -⟩ := h.published hsuffix hvw
  have hlater : ∀ u ∈ front ++ v :: back ++ [x], (entry u).kind ≠ .base := by
    intro u hu
    rcases List.mem_append.1 hu with hu | hu
    · exact h.not_base hw hxk u hu
    · rw [List.mem_singleton.1 hu]
      exact hxk
  have hq : q ∈ front ++ v :: back ++ [x] := by
    cases back with
    | nil => cases hrest; simp
    | cons b back => cases hrest; simp
  have hall : w.objects (headPath config.path) = (front ++ v :: back ++ [x]) ++ p :: older := by rw [hw]; simp
  have hlinked := h.linked
  rw [hall] at hlinked hsuffix
  rw [hrest] at hsuffix
  have hne := Head.publish_after hlinked hlater hsuffix hq (by rw [entry_kind, hvw]; rfl)
  rw [entry_head (checkRecord_value hcheck), entry_head (checkRecord_value hp)] at hne
  exact hne (hpendq.1.trans hpend.1.symm)

/-- An admission or the end of an exchange keeps the credential. -/
theorem Inv.credential_kept {w : World ι} (h : Inv config w) {v p : Version Text (Writer ι)}
    {older : List (Version Text (Writer ι))} {i : ι} {op : HeadOp}
    (hs : v :: p :: older <:+ w.objects (headPath config.path)) (hv : v.writer = .task i op)
    (hpublish : ∀ a f, op ≠ .publish a f) (hreplace : op ≠ .replace) :
    ∃ old new, checkRecord config p = .ok old ∧ v.contents = dumps (.head new) ∧ new.credential = old.credential := by
  obtain ⟨old, new, hc, hwrite, hsome, hprev⟩ := h.written v (p :: older) hs i op hv
  obtain ⟨old, rfl⟩ := Option.isSome_iff_exists.1 hsome
  refine ⟨old, new, hprev p old rfl rfl, hc, ?_⟩
  cases op with
  | admission => exact hwrite.2.2.2.2.1
  | publish a f => exact absurd rfl (hpublish a f)
  | finish => exact hwrite.2.2.2.1
  | replace => exact absurd rfl hreplace
  | object => exact hwrite.elim

/-- A refresh was admitted by a `REFRESHING` head of the task's own. -/
theorem Inv.admission {w : World ι} (h : Inv config w) {i : ι} {fence : Nat} (hf : (i, fence) ∈ w.refreshed) :
    ∃ v ∈ w.objects (headPath config.path), v.writer = .task i .admission ∧
      ∃ record, v.contents = dumps (.head record) ∧ record.status = .refreshing ∧ record.fence = fence := by
  obtain ⟨v, hv, hvw, hvf⟩ := h.refreshed i fence hf
  obtain ⟨front, back, hw⟩ := List.append_of_mem hv
  obtain ⟨old, new, hc, hwrite, -⟩ := h.written v back ⟨front, hw.symm⟩ i .admission hvw
  refine ⟨v, hv, hvw, new, hc, ?_, ?_⟩
  · match old, hwrite with
    | some _, ⟨_, hstatus, _⟩ => exact hstatus
  · rw [entry_head (congrArg Text.value hc)] at hvf
    exact hvf

/-- **One provider dispatch per generation.**  In every state that any interleaving of calls reaches, with any answers
of the store and any tasks stopped: no two calls of the driver were admitted under one fence; each was made by the task
whose own `REFRESHING` head was applied under that fence; a result was published only onto an accepted head pending with
its attempt and fence, and never after the head had left that exchange; and no other write of an exchange changed the
credential. -/
theorem refresh_once_per_fence (hstart : Start config c) (hrun : Lib.Config.Run step c c') :
    (c'.state.refreshed.map Prod.snd).Nodup ∧
    (∀ i fence, (i, fence) ∈ c'.state.refreshed → ∃ v ∈ c'.state.objects (headPath config.path),
      v.writer = .task i .admission ∧ ∃ record, v.contents = dumps (.head record) ∧ record.status = .refreshing ∧
      record.fence = fence) ∧
    (∀ v rest i attemptID fence, v :: rest <:+ c'.state.objects (headPath config.path) →
      v.writer = .task i (.publish attemptID fence) → ∃ p older old new, rest = p :: older ∧
      checkRecord config p = .ok old ∧ Pending attemptID fence old ∧ v.contents = dumps (.head new) ∧
      new.status = .ready ∧ new.fence = fence) ∧
    (∀ newer x p older k op old attemptID fence,
      c'.state.objects (headPath config.path) = newer ++ x :: p :: older → x.writer = .task k op →
      checkRecord config p = .ok old → Pending attemptID fence old →
      ∀ v ∈ newer, ∀ i, v.writer ≠ .task i (.publish attemptID fence)) ∧
    (∀ v p older i op, v :: p :: older <:+ c'.state.objects (headPath config.path) → v.writer = .task i op →
      (∀ attemptID fence, op ≠ .publish attemptID fence) → op ≠ .replace →
      ∃ old new, checkRecord config p = .ok old ∧ v.contents = dumps (.head new) ∧ new.credential = old.credential) := by
  have hinv := inv_of_run hstart hrun
  refine ⟨hinv.once, fun i fence hf => hinv.admission hf, fun v rest i attemptID fence hs hv => hinv.published hs hv, ?_, ?_⟩
  · intro newer x p older k op old attemptID fence hw hx hp hpend v hv i
    exact hinv.left hw hx hp hpend hv i
  · intro v p older i op hs hv hpublish hreplace
    exact hinv.credential_kept hs hv hpublish hreplace

/-- An expired credential and one task that is about to resolve it. -/
def sampleStart : Lib.Config (Op String) (Ans String (Writer Unit)) (Except Exc (Result String)) (World Unit) Unit :=
  ⟨sampleWorld ⟨-60, [], .utc⟩, fun _ => (Call.resolveWithRefresh some some 1).program sampleConfig⟩

theorem sampleStart_start : Start sampleConfig sampleStart := by
  refine ⟨sampleObjects_wf _, fun key v hv => ?_, rfl, rfl, fun _ => ⟨.resolveWithRefresh some some 1, rfl⟩⟩
  have hv : v ∈ sampleObjects ⟨-60, [], .utc⟩ key := hv
  rcases sampleObjects_cases ⟨-60, [], .utc⟩ key with he | ⟨value, he, -⟩
  · rw [he] at hv
    cases hv
  · rw [he] at hv
    rw [List.mem_singleton.1 hv]

/-- One task refreshes, its driver fails, and it restores the head. -/
theorem refresh_once_per_fence_failed_driver : ∃ w₂ : World Unit,
    Lib.Config.Run step sampleStart
      ⟨w₂, fun _ => .ret (.error (.refreshFailed "project credential refresh failed; current authorization is kept"))⟩ ∧
    w₂.refreshed = [((), 2)] ∧ (w₂.refreshed.map Prod.snd).Nodup := by
  obtain ⟨w₂, hfinish, hrefreshed⟩ := sample_finishes (C := String) ⟨-60, [], .utc⟩ ⟨-60, [0, 0, 0, 0, 0, 0], 0⟩ rfl
    [((), 2)]
  have hdriver : ∀ prior : Material, Raises () (refreshAdmitted sampleConfig some sampleAdmission prior)
      (samplePending ⟨-60, [], .utc⟩ ⟨-60, [0, 0, 0, 0, 0, 0], 0⟩ [])
      (.refreshFailed "project credential refresh failed; current authorization is kept") w₂ :=
    fun _ => raises_bind.2 (.inr ⟨.failed false, _, returns_act.2 rfl, raises_bind.2 (.inr ⟨(), w₂, hfinish, rfl, rfl⟩)⟩)
  have hround : Raises () (round sampleConfig some some) (sampleWorld ⟨-60, [], .utc⟩)
      (.refreshFailed "project credential refresh failed; current authorization is kept") w₂ := by
    refine raises_bind.2 (.inr ⟨_, _, returns_readRecord.2 ⟨sample_head _, sample_check _, rfl⟩, ?_⟩)
    refine raises_bind.2 (.inr ⟨_, _, sample_readMaterial rfl, ?_⟩)
    refine raises_bind.2 (.inr ⟨(0 : Int), _, returns_now.2 rfl, ?_⟩)
    refine raises_bind.2 (.inr ⟨true, _, returns_pure.2 ⟨rfl, rfl⟩, ?_⟩)
    refine raises_bind.2 (.inr ⟨.ok sampleAdmission, _, returns_lift.2 (sample_admits rfl), ?_⟩)
    exact raises_bind.2 (.inl (hdriver _))
  have hcall : Prog.Exec (step ()) ((Call.resolveWithRefresh some some 1).program sampleConfig) (sampleWorld ⟨-60, [], .utc⟩)
      (.error (.refreshFailed "project credential refresh failed; current authorization is kept")) w₂ :=
    raises_bind.2 (.inl (raises_bind.2 (.inl hround)))
  have hrun : Lib.Config.Run step sampleStart
      ⟨w₂, fun _ => .ret (.error (.refreshFailed "project credential refresh failed; current authorization is kept"))⟩ :=
    Lib.Config.run_alone step () (c := sampleStart) hcall
  exact ⟨w₂, hrun, hrefreshed, (refresh_once_per_fence sampleStart_start hrun).1⟩

end Provider
end Dex
