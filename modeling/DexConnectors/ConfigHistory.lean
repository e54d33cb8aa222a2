import DexConnectors.ConfigModel
/-!
# ConfigHistory — every run of the configuration stores

For any dialect whose writer produces what its reader accepts: the history of the head is legal in every state a run
reaches (`Legal`), and every call that has ended has what it promises (`Guarantees`).  A write is admitted against the
representation it read; a representation names the revision of its document, so a replaced head has exactly that many
versions, whichever of them it was.
-/
namespace Dex
namespace ConfigStore

open Lib Lib.Store

variable {I D X ι : Type}

/-- A conflict, or a document, reference or argument that was refused. -/
def Err.refuses : Err → Bool
  | .conflict | .invalid _ => true
  | .objectNotFound | .outcomeUnknown | .storage => false

/-- **What a run needs of a dialect**, for the writes that satisfy `meets`: the document stored is accepted, it has the next
revision, and `same` relates it to the one the write returns. -/
structure Dialect.Sound (d : Dialect I D X) (meets : Nat → I → Prop) (same : D → D → Prop) : Prop where
  stores   : ∀ r input doc contents, meets r input → d.assign r input = .ok (doc, contents) →
    ∃ stored, d.decode contents = .ok stored ∧ same doc stored ∧ d.revision stored = r + 1
  creates  : ∀ r found, d.creates r found = true → found = false ∨ r = 0
  replaces : ∀ r found, d.creates r found = false → found = true ∨ r ≠ 0
  unknown  : ∀ err : Err, err.refuses = false → (d.afterUnknown err).refuses = false
  accepts  : ∀ contents id, id ≠ "" → id ≠ "null" →
    d.acceptsReference ⟨d.key, id, d.digest contents, "application/json"⟩ = true

/-! ## Histories -/

/-- A version that a call put on top of `older`: a write that expected exactly that many versions. -/
def WrittenBy (d : Dialect I D X) (calls : ι → Call I) (older : List (Version X ι)) (v : Version X ι) : Prop :=
  ∃ input doc, calls v.writer = .write older.length input ∧ d.assign older.length input = .ok (doc, v.contents)

/-- **A legal history**: the `n`-th version was written by a call that expected revision `n - 1`, and its document is
accepted and has revision `n`. -/
def Legal (d : Dialect I D X) (calls : ι → Call I) (l : List (Version X ι)) : Prop :=
  ∀ v rest, v :: rest <:+ l → v.id ≠ "null" ∧ WrittenBy d calls rest v ∧
    ∃ stored, d.decode v.contents = .ok stored ∧ d.revision stored = rest.length + 1

structure Inv (d : Dialect I D X) (calls : ι → Call I) (s : Objects X ι) : Prop where
  wf    : Wf s
  legal : Legal d calls (s d.key)

def Unwritten (d : Dialect I D X) (i : ι) (s : Objects X ι) : Prop := ∀ v ∈ s d.key, v.writer ≠ i

variable {d : Dialect I D X} {meets : Nat → I → Prop} {same : D → D → Prop} {calls : ι → Call I}

theorem legal_nil : Legal d calls ([] : List (Version X ι)) := fun v rest h => absurd (List.suffix_nil.1 h) (List.cons_ne_nil v rest)

theorem legal_cons {v : Version X ι} {l : List (Version X ι)} {stored : D} (h : Legal d calls l) (hid : v.id ≠ "null")
    (hwritten : WrittenBy d calls l v) (hdecode : d.decode v.contents = .ok stored)
    (hrevision : d.revision stored = l.length + 1) : Legal d calls (v :: l) := by
  intro u rest hs
  rcases List.suffix_cons_iff.1 hs with heq | hs
  · cases heq
    exact ⟨hid, hwritten, stored, hdecode, hrevision⟩
  · exact h u rest hs

/-- The revision of an accepted document is its place in the history. -/
theorem Legal.revision {l rest : List (Version X ι)} {v : Version X ι} {stored : D} (h : Legal d calls l) (hs : v :: rest <:+ l)
    (hdecode : d.decode v.contents = .ok stored) : d.revision stored = rest.length + 1 := by
  obtain ⟨-, -, doc, hdoc, hrevision⟩ := h v rest hs
  rw [hdoc] at hdecode
  cases hdecode
  exact hrevision

/-- A stored document passes the checks of a read. -/
theorem Inv.decodes {s : Objects X ι} (h : Inv d calls s) {v : Version X ι} {rest : List (Version X ι)} (hs : v :: rest <:+ s d.key) :
    ∃ stored, decodeConfiguration d v = .ok stored ∧ d.decode v.contents = .ok stored ∧
      d.revision stored = rest.length + 1 := by
  obtain ⟨hnull, -, stored, hdecode, hrevision⟩ := h.legal v rest hs
  obtain ⟨hid, hetag⟩ := h.wf.named d.key v (hs.subset List.mem_cons_self)
  refine ⟨stored, ?_, hdecode, hrevision⟩
  unfold decodeConfiguration
  rw [if_neg (by rintro (h | ⟨-, h⟩ | h) <;> contradiction), hdecode]

theorem suffix_of_mem {l : List (Version X ι)} {v : Version X ι} (h : v ∈ l) : ∃ rest, v :: rest <:+ l := by
  obtain ⟨newer, rest, rfl⟩ := List.append_of_mem h
  exact ⟨rest, List.suffix_append newer _⟩

/-- A version of a history is the only one with as many versions before it. -/
theorem suffix_unique {l rest rest' : List (Version X ι)} {v v' : Version X ι} (h : v :: rest <:+ l) (h' : v' :: rest' <:+ l)
    (hlength : rest.length = rest'.length) : v = v' := by
  have hcons : (v :: rest).length = (v' :: rest').length := by
    rw [List.length_cons, List.length_cons, hlength]
  have heq := (List.suffix_of_suffix_length_le h h' (Nat.le_of_eq hcons)).eq_of_length hcons
  exact (List.cons_eq_cons.1 heq).1

/-! ## The protocol -/

/-- **The calls among themselves**: histories only grow, and a call knows which versions are its own. -/
def protocol (d : Dialect I D X) (calls : ι → Call I) : Protocol (Op X) (Ans X ι) (Objects X ι) ι where
  step := step
  inv := Inv d calls
  guar := fun i s s' => Grows s s' ∧ ∀ v ∈ s' d.key, v ∈ s d.key ∨ v.writer = i
  rely := fun i s s' => Grows s s' ∧ ∀ v ∈ s' d.key, v.writer = i → v ∈ s d.key
  rely_refl := fun _ s => ⟨Grows.refl s, fun _ h _ => h⟩
  rely_trans := fun _ {_ _ _} h h' => ⟨h.1.trans h'.1, fun v hv hi => h.2 v (h'.2 v hv hi) hi⟩
  guar_rely := fun _ _ {_ _} hij h => ⟨h.1, fun v hv hj => (h.2 v hv).resolve_right (fun hi => hij (hi.symm.trans hj))⟩

variable {i : ι} {s : Objects X ι}

theorem Unwritten.rely {s' : Objects X ι} (h : Unwritten d i s) (hr : (protocol d calls).rely i s s') : Unwritten d i s' :=
  fun v hv hi => h v (hr.2 v hv hi) hi

theorem Inv.put {v : Version X ι} {stored : D} (h : Inv d calls s) (hfresh : Fresh s d.key v) (hid : v.id ≠ "null")
    (hwritten : WrittenBy d calls (s d.key) v) (hdecode : d.decode v.contents = .ok stored)
    (hrevision : d.revision stored = (s d.key).length + 1) :
    Inv d calls (put s d.key v) :=
  ⟨h.wf.put hfresh, by rw [put_same]; exact legal_cons h.legal hid hwritten hdecode hrevision⟩

theorem guar_put {v : Version X ι} (hw : v.writer = i) : (protocol d calls).guar i s (put s d.key v) := by
  refine ⟨grows_put s d.key v, fun u hu => ?_⟩
  rw [put_same] at hu
  rcases List.mem_cons.1 hu with rfl | hu
  · exact .inr hw
  · exact .inl hu

/-! ## Reading -/

/-- What a read of a key may return from a state. -/
def Answered (s : Objects X ι) (key version : String) : Except Err (Version X ι) → Prop
  | .ok v => lookup s key version = some v
  | .error err => err = .storage ∨ (err = .objectNotFound ∧ lookup s key version = none)

theorem safe_readObject {key version : String} {R : Except Err (Version X ι) → Objects X ι → Prop}
    (h : ∀ s₁ s₂ r, (protocol d calls).rely i s s₁ → Inv d calls s₁ → Answered s₁ key version r → (protocol d calls).rely i s₁ s₂ → Inv d calls s₂ →
      R r s₂) : (protocol d calls).Safe i R (readObject key version).run s := by
  rintro s₁ hr₁ hi₁ answer s₂ ⟨hread, rfl⟩
  refine ⟨hi₁, ⟨Grows.refl _, fun _ hv => .inl hv⟩, ?_⟩
  cases answer with
  | found v => exact fun s₃ hr₃ hi₃ => h s₂ s₃ (.ok v) hr₁ hi₁ hread hr₃ hi₃
  | absent => exact fun s₃ hr₃ hi₃ => h s₂ s₃ (.error .objectNotFound) hr₁ hi₁ (.inr ⟨rfl, hread⟩) hr₃ hi₃
  | failed => exact fun s₃ hr₃ hi₃ => h s₂ s₃ (.error .storage) hr₁ hi₁ (.inl rfl) hr₃ hi₃

theorem head_of_lookup {key : String} {v : Version X ι} (h : lookup s key "" = some v) : ∃ rest, s key = v :: rest :=
  List.head?_eq_some_iff.1 h

/-- **What a read of the head returns**: the document of the current version. -/
def Current (d : Dialect I D X) (s : Objects X ι) : Except Err (D × Version X ι) → Prop
  | .ok p => ∃ rest, s d.key = p.2 :: rest ∧ d.decode p.2.contents = .ok p.1
  | .error err => err = .storage ∨ (err = .objectNotFound ∧ s d.key = [])

theorem safe_readConfiguration {R : Except Err (D × Version X ι) → Objects X ι → Prop} (hinv : Inv d calls s)
    (h : ∀ s₁ s₂ r, (protocol d calls).rely i s s₁ → Inv d calls s₁ → Current d s₁ r → (protocol d calls).rely i s₁ s₂ → Inv d calls s₂ → R r s₂) :
    (protocol d calls).Safe i R (readConfiguration d).run s := by
  have hread : (protocol d calls).Safe i (fun r s₂ => ∃ s₁, (protocol d calls).rely i s s₁ ∧ Inv d calls s₁ ∧ Answered s₁ d.key "" r ∧
      (protocol d calls).rely i s₁ s₂) (readObject d.key "").run s :=
    safe_readObject (fun s₁ s₂ r hr₁ hi₁ ha hr₂ _ => ⟨s₁, hr₁, hi₁, ha, hr₂⟩)
  refine Protocol.Safe.bind hread (fun r s₂ hi₂ hq => ?_) hinv
  obtain ⟨s₁, hr₁, hi₁, ha, hr₂⟩ := hq
  cases r with
  | error err =>
    refine fun s₃ hr₃ hi₃ => h s₁ s₃ (.error err) hr₁ hi₁ ?_ ((protocol d calls).rely_trans i hr₂ hr₃) hi₃
    rcases ha with rfl | ⟨rfl, hnone⟩
    · exact .inl rfl
    · exact .inr ⟨rfl, List.head?_eq_none_iff.1 hnone⟩
  | ok v =>
    obtain ⟨rest, hrest⟩ := head_of_lookup ha
    obtain ⟨stored, hstored, hdecode, -⟩ := hi₁.decodes (show v :: rest <:+ s₁ d.key from ⟨[], hrest.symm⟩)
    have hrun : (Method.orRaise (decodeConfiguration d v) >>= fun c => pure (c, v) : M X ι (D × Version X ι)).run =
        .ret (.ok (stored, v)) := by
      rw [hstored]
      rfl
    show (protocol d calls).Safe i R (Method.orRaise (decodeConfiguration d v) >>= fun c => pure (c, v) : M X ι _).run s₂
    rw [hrun]
    exact fun s₃ hr₃ hi₃ =>
      h s₁ s₃ (.ok (stored, v)) hr₁ hi₁ ⟨rest, hrest, hdecode⟩ ((protocol d calls).rely_trans i hr₂ hr₃) hi₃

/-! ## Writing -/

/-- The document a write found, as it has to be for the write to go on. -/
def Based (d : Dialect I D X) (r : Nat) (previous : Option (D × Version X ι)) (s : Objects X ι) : Prop :=
  match previous with
  | none => r = 0
  | some p => d.decode p.2.contents = .ok p.1 ∧ d.revision p.1 = r ∧ ∃ rest, p.2 :: rest <:+ s d.key

theorem Based.rely {r : Nat} {previous : Option (D × Version X ι)} {s' : Objects X ι} (h : Based d r previous s)
    (hr : (protocol d calls).rely i s s') : Based d r previous s' := by
  cases previous with
  | none => exact h
  | some p =>
    obtain ⟨hdecode, hrevision, rest, hs⟩ := h
    exact ⟨hdecode, hrevision, rest, hs.trans (hr.1 d.key)⟩

/-- **What a write may do**: nothing, or add the next version to a head with as many versions as the revision it expects. -/
def Admits (d : Dialect I D X) (i : ι) (r : Nat) (contents : X) (s : Objects X ι) (answer : WriteAnswer X ι)
    (s' : Objects X ι) : Prop :=
  (s' = s ∧ ∀ v, answer ≠ .applied v) ∨
  ∃ v, (s d.key).length = r ∧ Fresh s d.key v ∧ v.id ≠ "null" ∧ v.contents = contents ∧ v.writer = i ∧
    s' = put s d.key v ∧ (answer = .applied v ∨ answer = .unknown)

theorem id_ne_null {v : Version X ι} (hfresh : Fresh s d.key v)
    (h : ∀ u ∈ put s d.key v d.key, u ∈ s d.key ∨ u.id ≠ "null") : v.id ≠ "null" := by
  rcases h v (by rw [put_same]; exact List.mem_cons_self) with hv | hv
  · exact absurd rfl (hfresh.new v hv)
  · exact hv

theorem admits_create {contents : X} {answer : WriteAnswer X ι} {s' : Objects X ι}
    (hstep : step i (.create d.key contents) s answer s') : Admits d i 0 contents s answer s' := by
  rcases creates_cases hstep.1 with h | ⟨v, hempty, hfresh, hvc, hvw, rfl, ha⟩
  · exact .inl h
  · exact .inr ⟨v, by rw [hempty]; rfl, hfresh, id_ne_null hfresh hstep.2, hvc, hvw, rfl, ha⟩

/-- The head that a swap replaces need not be the version that was read, but it has the same document. -/
theorem admits_swap {r : Nat} {p : D × Version X ι} {contents : X} {answer : WriteAnswer X ι} {s' : Objects X ι}
    (hinv : Inv d calls s) (hbased : Based d r (some p) s) (hstep : step i (.swap d.key p.2.etag contents) s answer s') :
    Admits d i r contents s answer s' := by
  obtain ⟨hdecode, hrevision, rest, hs⟩ := hbased
  rcases swaps_cases hstep.1 hinv.wf (hs.subset List.mem_cons_self) with
    h | ⟨v, older, current, hcur, hcc, hfresh, hvc, hvw, rfl, ha⟩
  · exact .inl h
  · refine .inr ⟨v, ?_, hfresh, id_ne_null hfresh hstep.2, hvc, hvw, rfl, ha⟩
    rw [← hcc] at hdecode
    have hplace := hinv.legal.revision ⟨[], hcur.symm⟩ hdecode
    rw [hcur, List.length_cons, ← hplace, hrevision]

/-- The version a successful write returns. -/
def Stored (d : Dialect I D X) (r : Nat) (contents : X) (v : Version X ι) (s : Objects X ι) : Prop :=
  v.contents = contents ∧ ∃ rest, v :: rest <:+ s d.key ∧ rest.length = r

theorem Stored.rely {r : Nat} {contents : X} {v : Version X ι} {s' : Objects X ι} (h : Stored d r contents v s)
    (hr : (protocol d calls).rely i s s') : Stored d r contents v s' := by
  obtain ⟨hcontents, rest, hs, hlength⟩ := h
  exact ⟨hcontents, rest, hs.trans (hr.1 d.key), hlength⟩

/-- What is left after the answer of a write. -/
def Answer (d : Dialect I D X) (i : ι) (r : Nat) (contents : X) (answer : WriteAnswer X ι) (s : Objects X ι) : Prop :=
  (∀ v, answer = .applied v → Stored d r contents v s) ∧ (answer = .conflict → Unwritten d i s)

theorem Admits.safe {r : Nat} {input : I} {doc : D} {contents : X} {stored : D} {answer : WriteAnswer X ι} {s' : Objects X ι}
    (h : Admits d i r contents s answer s') (hinv : Inv d calls s) (hunwritten : Unwritten d i s)
    (hcall : calls i = .write r input) (hassign : d.assign r input = .ok (doc, contents))
    (hdecode : d.decode contents = .ok stored) (hrevision : d.revision stored = r + 1) :
    Inv d calls s' ∧ (protocol d calls).guar i s s' ∧ Answer d i r contents answer s' := by
  rcases h with ⟨rfl, hnot⟩ | ⟨v, hlength, hfresh, hid, hvc, hvw, rfl, ha⟩
  · exact ⟨hinv, ⟨Grows.refl _, fun _ hv => .inl hv⟩, fun v hv => absurd hv (hnot v), fun _ => hunwritten⟩
  · have hwritten : WrittenBy d calls (s d.key) v := by
      refine ⟨input, doc, ?_, ?_⟩
      · rw [hvw, hlength, hcall]
      · rw [hlength, hvc, hassign]
    refine ⟨hinv.put hfresh hid hwritten (by rw [hvc]; exact hdecode) (by rw [hlength]; exact hrevision), guar_put hvw, ?_, ?_⟩
    · intro u hu
      rw [hu] at ha
      rcases ha with heq | heq
      · cases heq
        exact ⟨hvc, s d.key, ⟨[], (put_same s d.key v).symm⟩, hlength⟩
      · cases heq
    · intro hconflict
      rw [hconflict] at ha
      rcases ha with heq | heq <;> cases heq

theorem Answer.rely {r : Nat} {contents : X} {answer : WriteAnswer X ι} {s' : Objects X ι}
    (h : Answer d i r contents answer s) (hr : (protocol d calls).rely i s s') : Answer d i r contents answer s' :=
  ⟨fun v hv => (h.1 v hv).rely hr, fun hc => (h.2 hc).rely hr⟩

theorem safe_writeObject {r : Nat} {input : I} {doc : D} {previous : Option (D × Version X ι)} {contents : X} {stored : D}
    (hsound : d.Sound meets same) (hcall : calls i = .write r input) (hassign : d.assign r input = .ok (doc, contents))
    (hbased : Based d r previous s) (hunwritten : Unwritten d i s)
    (hdecode : d.decode contents = .ok stored) (hrevision : d.revision stored = r + 1) :
    (protocol d calls).Safe i (fun res s' => ∃ answer, res = .ok answer ∧ Answer d i r contents answer s')
      (writeObject d r previous contents).run s := by
  have hsafe : ∀ s₁ answer s₂, (protocol d calls).rely i s s₁ → Inv d calls s₁ → Admits d i r contents s₁ answer s₂ →
      Inv d calls s₂ ∧ (protocol d calls).guar i s₁ s₂ ∧ (protocol d calls).Safe i
        (fun res s' => ∃ answer, res = Except.ok (ε := Err) answer ∧ Answer d i r contents answer s')
        (.ret (.ok answer)) s₂ := by
    intro s₁ answer s₂ hr₁ hi₁ ha
    obtain ⟨h1, h2, h3⟩ := ha.safe hi₁ (hunwritten.rely hr₁) hcall hassign hdecode hrevision
    exact ⟨h1, h2, fun s₃ hr₃ _ => ⟨answer, rfl, h3.rely hr₃⟩⟩
  unfold writeObject
  by_cases hc : d.creates r previous.isSome = true
  · rw [if_pos hc]
    have hzero : r = 0 := by
      rcases hsound.creates r _ hc with hnone | hzero
      · rw [Option.isSome_eq_false_iff, Option.isNone_iff_eq_none] at hnone
        rw [hnone] at hbased
        exact hbased
      · exact hzero
    subst hzero
    exact fun s₁ hr₁ hi₁ answer s₂ hstep => hsafe s₁ answer s₂ hr₁ hi₁ (admits_create hstep)
  · rw [if_neg hc]
    cases previous with
    | none =>
      rcases hsound.replaces r false (by simpa using hc) with h | h
      · cases h
      · exact absurd hbased h
    | some p =>
      exact fun s₁ hr₁ hi₁ answer s₂ hstep =>
        hsafe s₁ answer s₂ hr₁ hi₁ (admits_swap hi₁ (hbased.rely hr₁) hstep)

/-- What a write leaves when it ends. -/
def Written (d : Dialect I D X) (i : ι) (r : Nat) (updated : D) (contents : X) (res : Except Err (D × Version X ι))
    (s : Objects X ι) : Prop :=
  (∀ p, res = .ok p → p.1 = updated ∧ Stored d r contents p.2 s) ∧
  ∀ err, res = .error err → err.refuses = true → Unwritten d i s

/-- What a write has seen when it decides. -/
def Seen (d : Dialect I D X) (found : Except Err (D × Version X ι)) (s : Objects X ι) : Prop :=
  (∀ p, found = .ok p → d.decode p.2.contents = .ok p.1 ∧ ∃ rest, p.2 :: rest <:+ s d.key) ∧
  ∀ err, found = .error err → err.refuses = false

theorem Seen.based {found : Except Err (D × Version X ι)} {r : Nat} {previous : Option (D × Version X ι)}
    (h : Seen d found s) (hprevious : previousFor r found = .ok previous)
    (hrevision : (previous.map (fun p => d.revision p.1)).getD 0 = r) : Based d r previous s := by
  cases previous with
  | none => exact hrevision.symm
  | some p =>
    have hfound : found = .ok p := by
      unfold previousFor at hprevious
      split at hprevious
      · cases hprevious
        rfl
      · split at hprevious <;> cases hprevious
      · cases hprevious
    exact ⟨(h.1 p hfound).1, hrevision, (h.1 p hfound).2⟩

/-- **A write that ends**: when it succeeds it returns the next version, when it is refused it has written nothing. -/
def Ended (d : Dialect I D X) (i : ι) (r : Nat) (input : I) (res : Except Err (D × Version X ι)) (s : Objects X ι) : Prop :=
  (∀ p, res = .ok p → d.assign r input = .ok (p.1, p.2.contents) ∧ Stored d r p.2.contents p.2 s) ∧
  ∀ err, res = .error err → err.refuses = true → Unwritten d i s

variable [DecidableEq X]

/-- **An unknown outcome is settled by the contents of the head**: they name their revision, so the head that has them is
the next version. -/
theorem safe_settle {r : Nat} {updated stored : D} {contents : X} {answer : WriteAnswer X ι} (hsound : d.Sound meets same)
    (hinv : Inv d calls s) (hdecode : d.decode contents = .ok stored) (hrevision : d.revision stored = r + 1)
    (ha : Answer d i r contents answer s) :
    (protocol d calls).Safe i (Written d i r updated contents) (settle d updated contents answer).run s := by
  have hfail : ∀ (err : Err) (s₁ : Objects X ι), err.refuses = false →
      (protocol d calls).Safe i (Written d i r updated contents) (.ret (.error err)) s₁ := by
    intro err s₁ hr s₂ _ _
    refine ⟨fun p hp => (by cases hp), fun err' herr hrefuses => ?_⟩
    cases herr
    rw [hr] at hrefuses
    cases hrefuses
  cases answer with
  | applied v =>
    refine fun s₁ hr₁ _ => ⟨fun p hp => ?_, fun err herr => (by cases herr)⟩
    cases hp
    exact ⟨rfl, (ha.1 v rfl).rely hr₁⟩
  | conflict =>
    refine fun s₁ hr₁ _ => ⟨fun p hp => (by cases hp), fun _ _ _ => (ha.2 rfl).rely hr₁⟩
  | failed => exact hfail .storage s rfl
  | unknown =>
    have hread : (protocol d calls).Safe i (fun r' s₂ => (∀ v, r' = .ok v → v.contents = contents → Stored d r contents v s₂) ∧
        ∀ err, r' = .error err → err.refuses = false) (readObject d.key "").run s := by
      refine safe_readObject (fun s₁ s₂ r' hr₁ hi₁ hread hr₂ _ => ⟨?_, ?_⟩)
      · rintro v rfl hcontents
        obtain ⟨rest, hrest⟩ := head_of_lookup hread
        have hs : v :: rest <:+ s₁ d.key := ⟨[], hrest.symm⟩
        have hplace := hi₁.legal.revision hs (by rw [hcontents]; exact hdecode)
        refine Stored.rely ⟨hcontents, rest, hs, ?_⟩ hr₂
        omega
      · rintro err rfl
        rcases hread with rfl | ⟨rfl, -⟩ <;> rfl
    refine Method.safe_attempt hread (fun r' s₂ hi₂ hr' => ?_) hinv
    obtain ⟨hok, herr⟩ := hr'
    cases r' with
    | error err => exact hfail (d.afterUnknown err) s₂ (hsound.unknown err (herr err rfl))
    | ok v =>
      show (protocol d calls).Safe i _ (if v.contents = contents then pure (updated, v) else throw .outcomeUnknown : M X ι _).run s₂
      split
      · rename_i hc
        refine fun s₃ hr₃ _ => ⟨fun p hp => ?_, fun err herr => (by cases herr)⟩
        cases hp
        exact ⟨rfl, (hok v rfl hc).rely hr₃⟩
      · exact hfail .outcomeUnknown s₂ rfl

theorem safe_replaceFrom {r : Nat} {input : I} {previous : Option (D × Version X ι)} (hsound : d.Sound meets same)
    (hcall : calls i = .write r input) (hmeets : meets r input) (hinv : Inv d calls s) (hunwritten : Unwritten d i s)
    (hbased : (previous.map (fun p => d.revision p.1)).getD 0 = r → Based d r previous s) :
    (protocol d calls).Safe i (Ended d i r input) (replaceFrom d r input previous).run s := by
  have hraise : ∀ err : Err, (protocol d calls).Safe i (Ended d i r input) (.ret (.error err)) s :=
    fun err s₁ hr₁ _ => ⟨fun p hp => (by cases hp), fun _ _ _ => hunwritten.rely hr₁⟩
  unfold replaceFrom
  by_cases hrevision : (previous.map (fun p => d.revision p.1)).getD 0 = r
  · rw [if_neg (by simpa using hrevision)]
    cases hassign : d.assign r input with
    | error err => exact hraise err
    | ok p =>
      obtain ⟨updated, contents⟩ := p
      obtain ⟨stored, hdecode, -, hnext⟩ := hsound.stores r input updated contents hmeets hassign
      refine Protocol.Safe.bind (safe_writeObject hsound hcall hassign (hbased hrevision) hunwritten hdecode hnext) (fun x s₁ hi₁ hx => ?_) hinv
      obtain ⟨answer, rfl, ha⟩ := hx
      have hsettle : (protocol d calls).Safe i (Written d i r updated contents) (settle d updated contents answer).run s₁ :=
        safe_settle hsound hi₁ hdecode hnext ha
      refine hsettle.mono (fun res s₂ hw => ⟨fun p hp => ?_, hw.2⟩)
      obtain ⟨rfl, hstored⟩ := hw.1 p hp
      rw [hstored.1]
      exact ⟨hassign, hstored⟩
  · rw [if_pos hrevision]
    exact hraise .conflict

theorem safe_writeConfiguration {r : Nat} {input : I} (hsound : d.Sound meets same) (hcall : calls i = .write r input)
    (hmeets : meets r input) (hinv : Inv d calls s)
    (hunwritten : Unwritten d i s) :
    (protocol d calls).Safe i (Ended d i r input) (writeConfiguration d r input).run s := by
  have hread : (protocol d calls).Safe i (fun found s₂ => Seen d found s₂ ∧ Unwritten d i s₂) (readConfiguration d).run s := by
    refine safe_readConfiguration hinv (fun s₁ s₂ found hr₁ _ hcurrent hr₂ _ => ⟨⟨?_, ?_⟩, ?_⟩)
    · rintro p rfl
      obtain ⟨rest, hrest, hdecode⟩ := hcurrent
      have hs : p.2 :: rest <:+ s₁ d.key := ⟨[], hrest.symm⟩
      exact ⟨hdecode, rest, hs.trans (hr₂.1 d.key)⟩
    · rintro err rfl
      rcases hcurrent with rfl | ⟨rfl, -⟩ <;> rfl
    · exact hunwritten.rely ((protocol d calls).rely_trans i hr₁ hr₂)
  refine Method.safe_attempt hread (fun found s₂ hi₂ hseen => ?_) hinv
  cases hprevious : previousFor r found with
  | error err =>
    rw [Method.orRaise_error]
    exact fun s₃ hr₃ _ => ⟨fun p hp => (by cases hp), fun _ _ _ => hseen.2.rely hr₃⟩
  | ok previous =>
    rw [Method.orRaise_ok]
    exact safe_replaceFrom hsound hcall hmeets hi₂ hseen.2 (hseen.1.based hprevious)

/-! ## Pinning -/

omit [DecidableEq X] in
theorem safe_freezeConfiguration {r : Nat} (hinv : Inv d calls s) :
    (protocol d calls).Safe i (fun res s' => ∀ reference, res = .ok reference →
      ∃ v rest, v :: rest <:+ s' d.key ∧ rest.length + 1 = r ∧ reference = pin d v) (freezeConfiguration d r).run s := by
  have hread : (protocol d calls).Safe i (fun found s₂ => ∀ p, found = .ok p → ∃ rest, p.2 :: rest <:+ s₂ d.key ∧
      d.revision p.1 = rest.length + 1) (readConfiguration d).run s := by
    refine safe_readConfiguration hinv (fun s₁ s₂ found _ hi₁ hcurrent hr₂ _ => ?_)
    rintro p rfl
    obtain ⟨rest, hrest, hdecode⟩ := hcurrent
    have hs : p.2 :: rest <:+ s₁ d.key := ⟨[], hrest.symm⟩
    exact ⟨rest, hs.trans (hr₂.1 d.key), hi₁.legal.revision hs hdecode⟩
  refine Protocol.Safe.bind hread (fun found s₂ _ hfound => ?_) hinv
  cases found with
  | error err => exact fun s₃ _ _ reference h => (by cases h)
  | ok p =>
    obtain ⟨rest, hs, hplace⟩ := hfound p rfl
    show (protocol d calls).Safe i _ (if d.revision p.1 ≠ r then throw .conflict else pure (pin d p.2) : M X ι _).run s₂
    split
    · exact fun s₃ _ _ reference h => (by cases h)
    · rename_i hrevision
      rintro s₃ hr₃ _ reference ⟨rfl⟩
      exact ⟨p.2, rest, hs.trans (hr₃.1 d.key), by rw [← hplace]; exact not_not.1 hrevision, rfl⟩

omit [DecidableEq X] in
/-- **A pinned version is read back for good.** -/
theorem safe_readSnapshot {v : Version X ι} {rest : List (Version X ι)} {stored : D} (hsound : d.Sound meets same)
    (hinv : Inv d calls s) (hs : v :: rest <:+ s d.key) (hdecode : d.decode v.contents = .ok stored) :
    (protocol d calls).Safe i (fun res _ => res = .ok stored ∨ res = .error .storage) (readSnapshot d (pin d v)).run s := by
  have hmem : v ∈ s d.key := hs.subset List.mem_cons_self
  obtain ⟨doc, hchecked, hdoc, -⟩ := hinv.decodes hs
  rw [hdoc] at hdecode
  cases hdecode
  have haccepts := hsound.accepts v.contents v.id (hinv.wf.named d.key v hmem).1 (hinv.legal v rest hs).1
  have hread : (protocol d calls).Safe i (fun found _ => found = .ok v ∨ found = .error .storage) (readObject d.key v.id).run s := by
    refine safe_readObject (fun s₁ s₂ found hr₁ hi₁ hread _ _ => ?_)
    have hlookup := hi₁.wf.lookup_id d.key (hr₁.1.mem hmem)
    cases found with
    | ok u =>
      have hu : lookup s₁ d.key v.id = some u := hread
      rw [hlookup] at hu
      cases hu
      exact .inl rfl
    | error err =>
      rcases hread with rfl | ⟨-, hnone⟩
      · exact .inr rfl
      · rw [hlookup] at hnone
        cases hnone
  unfold readSnapshot
  rw [if_neg (by rw [pin, haccepts]; decide)]
  refine Protocol.Safe.bind hread (fun found s₂ hi₂ hfound => ?_) hinv
  rcases hfound with rfl | rfl
  · show (protocol d calls).Safe i _ (if d.digest v.contents ≠ d.digest v.contents then _ else _ : M X ι D).run s₂
    rw [if_neg (by simp), hchecked]
    exact fun _ _ _ => .inl rfl
  · exact fun _ _ _ => .inr rfl

/-! ## Every run -/

variable {c c₀ c' : Config (Op X) (Ans X ι) (Except Err (Result D X ι)) (Objects X ι) ι}

/-- **Where a run starts**: no document, and every call about to be made; the writes satisfy `meets`. -/
structure Start (d : Dialect I D X) (meets : Nat → I → Prop) (calls : ι → Call I)
    (c : Config (Op X) (Ans X ι) (Except Err (Result D X ι)) (Objects X ι) ι) : Prop where
  wf     : Wf c.state
  head   : c.state d.key = []
  called : ∀ i, c.threads i = ((calls i).method d).run
  meets  : ∀ i r input, calls i = .write r input → meets r input

/-- **What a run from no document through `c` to `c'` guarantees.** -/
structure Guarantees (d : Dialect I D X) (same : D → D → Prop) (calls : ι → Call I)
    (c c' : Config (Op X) (Ans X ι) (Except Err (Result D X ι)) (Objects X ι) ι) : Prop where
  /-- Stored revisions are 1, 2, 3, …, each written for the one before it, and every stored document is accepted. -/
  revisions : ∀ v rest, v :: rest <:+ c'.state d.key → WrittenBy d calls rest v ∧
    ∃ stored, decodeConfiguration d v = .ok stored ∧ d.revision stored = rest.length + 1
  /-- A write that expects `r` and succeeds returns the document stored as revision `r + 1`. -/
  written   : ∀ i r input doc v, calls i = .write r input → c'.threads i = .ret (.ok (.current doc v)) →
    ∃ rest stored, v :: rest <:+ c'.state d.key ∧ rest.length = r ∧ d.assign r input = .ok (doc, v.contents) ∧
      decodeConfiguration d v = .ok stored ∧ same doc stored
  /-- Two successes for one revision wrote the same contents. -/
  agreed    : ∀ i j r input input' doc doc' v v', calls i = .write r input → calls j = .write r input' →
    c'.threads i = .ret (.ok (.current doc v)) → c'.threads j = .ret (.ok (.current doc' v')) → v.contents = v'.contents
  /-- A write that is refused has changed nothing. -/
  refused   : ∀ i r input err, calls i = .write r input → c'.threads i = .ret (.error err) → err.refuses = true →
    ∀ v ∈ c'.state d.key, v.writer ≠ i
  /-- A read returns a stored document; it never refuses one. -/
  read      : ∀ i res, calls i = .read → c'.threads i = .ret res →
    (∃ doc v rest, res = .ok (.current doc v) ∧ v :: rest <:+ c'.state d.key ∧ decodeConfiguration d v = .ok doc) ∨
    res = .error .objectNotFound ∨ res = .error .storage
  /-- A snapshot of the reference pinned for `r` is the document of revision `r`, whatever was written since. -/
  pinned    : ∀ i j r reference res, calls i = .freeze r → c.threads i = .ret (.ok (.pinned reference)) →
    c.threads j = ((Call.snapshot reference).method d).run → c'.threads j = .ret res →
    ∃ v rest stored, v :: rest <:+ c.state d.key ∧ rest.length + 1 = r ∧ decodeConfiguration d v = .ok stored ∧
      (res = .ok (.configuration stored) ∨ res = .error .storage)

theorem Start.inv (h : Start d meets calls c) : Inv d calls c.state := ⟨h.wf, by rw [h.head]; exact legal_nil⟩

/-- What a call leaves when it ends. -/
def Call.Post (d : Dialect I D X) (i : ι) : Call I → Except Err (Result D X ι) → Objects X ι → Prop
  | .read, res, s => (∃ doc v rest, res = .ok (.current doc v) ∧ v :: rest <:+ s d.key ∧ d.decode v.contents = .ok doc) ∨
      res = .error .objectNotFound ∨ res = .error .storage
  | .write r input, res, s =>
      (∀ doc v, res = .ok (.current doc v) → d.assign r input = .ok (doc, v.contents) ∧ Stored d r v.contents v s) ∧
      ∀ err, res = .error err → err.refuses = true → Unwritten d i s
  | .freeze r, res, s => ∀ reference, res = .ok (.pinned reference) →
      ∃ v rest, v :: rest <:+ s d.key ∧ rest.length + 1 = r ∧ reference = pin d v
  | .snapshot _, _, _ => True

omit [DecidableEq X] in
theorem safe_anySnapshot (reference : SnapshotRef) (hinv : Inv d calls s) :
    (protocol d calls).Safe i (fun _ _ => True) (readSnapshot d reference).run s := by
  unfold readSnapshot
  split
  · exact fun _ _ _ => trivial
  · refine Protocol.Safe.bind (safe_readObject (R := fun _ _ => True) (fun _ _ _ _ _ _ _ _ => trivial)) (fun found s₂ _ _ => ?_) hinv
    cases found with
    | error err => exact fun _ _ _ => trivial
    | ok object =>
      show (protocol d calls).Safe i _ (if d.digest object.contents ≠ reference.digest then _ else _ : M X ι D).run s₂
      split
      · exact fun _ _ _ => trivial
      · exact fun _ _ _ => trivial

/-- **Every call is safe.** -/
theorem safe_call (hsound : d.Sound meets same) {call : Call I} (hcall : calls i = call)
    (hmeets : ∀ r input, call = .write r input → meets r input) (hinv : Inv d calls s) (hunwritten : Unwritten d i s) : (protocol d calls).Safe i (call.Post d i) (call.method d).run s := by
  cases call with
  | read =>
    refine Method.safe_map (safe_readConfiguration hinv (fun s₁ s₂ found _ hi₁ hcurrent hr₂ _ => ?_))
    cases found with
    | ok p =>
      obtain ⟨rest, hrest, hdecode⟩ := hcurrent
      have hs : p.2 :: rest <:+ s₁ d.key := ⟨[], hrest.symm⟩
      exact .inl ⟨p.1, p.2, rest, rfl, hs.trans (hr₂.1 d.key), hdecode⟩
    | error err =>
      rcases hcurrent with rfl | ⟨rfl, -⟩
      · exact .inr (.inr rfl)
      · exact .inr (.inl rfl)
  | write r input =>
    refine Method.safe_map ((safe_writeConfiguration hsound hcall (hmeets r input rfl) hinv hunwritten).mono (fun res s' h => ⟨?_, ?_⟩))
    · intro doc v hres
      cases res with
      | ok p =>
        cases hres
        exact h.1 p rfl
      | error err => cases hres
    · intro err hres hrefuses
      cases res with
      | ok p => cases hres
      | error err' =>
        cases hres
        exact h.2 err rfl hrefuses
  | freeze r =>
    refine Method.safe_map ((safe_freezeConfiguration hinv).mono (fun res s' h reference hres => ?_))
    cases res with
    | ok reference' =>
      cases hres
      exact h reference rfl
    | error err => cases hres
  | snapshot reference => exact Method.safe_map ((safe_anySnapshot reference hinv).mono (fun _ _ _ => trivial))

/-- **Every run of a sound dialect**, whatever the interleaving, the answers of the store and the calls that stop. -/
theorem guarantees_of_sound (hsound : d.Sound meets same) (hstart : Start d meets calls c₀)
    (hrun₀ : Config.Run step c₀ c) (hrun : Config.Run step c c') : Guarantees d same calls c c' := by
  have hsafe : ∀ i, (protocol d calls).Safe i ((calls i).Post d i) (c₀.threads i) c₀.state := by
    intro i
    rw [hstart.called i]
    exact safe_call hsound rfl (hstart.meets i) hstart.inv (fun v hv => by rw [hstart.head] at hv; cases hv)
  have hmid := Protocol.safe_run (P := protocol d calls) hrun₀ hstart.inv hsafe
  have hend := Protocol.safe_run (P := protocol d calls) hrun hmid.1 hmid.2
  have hpost : ∀ i res, c'.threads i = .ret res → (calls i).Post d i res c'.state :=
    fun i res hret => Protocol.post_of_run (P := protocol d calls) hrun hmid.1 hmid.2 hret
  have hinv : Inv d calls c'.state := hend.1
  have hwritten : ∀ i r input doc v, calls i = .write r input → c'.threads i = .ret (.ok (.current doc v)) →
      d.assign r input = .ok (doc, v.contents) ∧ Stored d r v.contents v c'.state := by
    intro i r input doc v hcall hret
    have h := hpost i _ hret
    rw [hcall] at h
    exact h.1 doc v rfl
  refine ⟨?_, ?_, ?_, ?_, ?_, ?_⟩
  · intro v rest hs
    obtain ⟨stored, hchecked, -, hrevision⟩ := hinv.decodes hs
    exact ⟨(hinv.legal v rest hs).2.1, stored, hchecked, hrevision⟩
  · intro i r input doc v hcall hret
    obtain ⟨hassign, -, rest, hs, hlength⟩ := hwritten i r input doc v hcall hret
    obtain ⟨stored, hdecode, hsame, -⟩ := hsound.stores r input doc v.contents (hstart.meets i r input hcall) hassign
    obtain ⟨doc', hchecked, hdoc', -⟩ := hinv.decodes hs
    rw [hdoc'] at hdecode
    cases hdecode
    exact ⟨rest, stored, hs, hlength, hassign, hchecked, hsame⟩
  · intro i j r input input' doc doc' v v' hcall hcall' hret hret'
    obtain ⟨-, -, rest, hs, hlength⟩ := hwritten i r input doc v hcall hret
    obtain ⟨-, -, rest', hs', hlength'⟩ := hwritten j r input' doc' v' hcall' hret'
    rw [suffix_unique hs hs' (hlength.trans hlength'.symm)]
  · intro i r input err hcall hret hrefuses
    have h := hpost i _ hret
    rw [hcall] at h
    exact h.2 err rfl hrefuses
  · intro i res hcall hret
    have h := hpost i _ hret
    rw [hcall] at h
    rcases h with ⟨doc, v, rest, rfl, hs, hdecode⟩ | h
    · obtain ⟨stored, hchecked, hstored, -⟩ := hinv.decodes hs
      rw [hstored] at hdecode
      cases hdecode
      exact .inl ⟨doc, v, rest, rfl, hs, hchecked⟩
    · exact .inr h
  · intro i j r reference res hcall hret hbegun hdone
    have h := Protocol.post_of_run (P := protocol d calls) hrun₀ hstart.inv hsafe hret
    rw [hcall] at h
    obtain ⟨v, rest, hs, hlength, rfl⟩ := h reference rfl
    have hinv₁ : Inv d calls c.state := hmid.1
    obtain ⟨stored, hchecked, hdecode, -⟩ := hinv₁.decodes hs
    have hread : (protocol d calls).Safe j (fun res _ => res = .ok (.configuration stored) ∨ res = .error .storage)
        (c.threads j) c.state := by
      rw [hbegun]
      refine Method.safe_map ((safe_readSnapshot hsound hmid.1 hs hdecode).mono (fun res _ h => ?_))
      rcases h with rfl | rfl
      · exact .inl rfl
      · exact .inr rfl
    have hres := Protocol.post_from hrun hmid.1 (fun k => (hmid.2 k).mono (fun _ _ _ => trivial)) hread hdone
    exact ⟨v, rest, stored, hs, hlength, hchecked, hres⟩

/-! ## A write alone -/

/-- A version that call `i` may add to a store. -/
structure Addable (d : Dialect I D X) (i : ι) (contents : X) (s : Objects X ι) (v : Version X ι) : Prop where
  fresh    : Fresh s d.key v
  id       : v.id ≠ "null"
  contents : v.contents = contents
  writer   : v.writer = i

omit [DecidableEq X] in
theorem Addable.ids {contents : X} {v : Version X ι} (h : Addable d i contents s v) :
    ∀ u ∈ put s d.key v d.key, u ∈ s d.key ∨ u.id ≠ "null" := by
  intro u hu
  rw [put_same] at hu
  rcases List.mem_cons.1 hu with rfl | hu
  · exact .inr h.id
  · exact .inl hu

/-- The first document of a store. -/
theorem returns_write_first {input : I} {doc : D} {contents : X} {v : Version X ι} (hempty : s d.key = [])
    (hcreates : d.creates 0 false = true) (hassign : d.assign 0 input = .ok (doc, contents))
    (hv : Addable d i contents s v) : Method.Returns (step i) (writeConfiguration d 0 input) s (doc, v) (put s d.key v) := by
  have hread : Prog.Exec (step i) (readConfiguration d).run s (.error .objectNotFound) s := by
    refine Method.raises_bind.2 (.inl (Method.raises_bind.2 (.inr ⟨.absent, s, Method.returns_act.2 ⟨?_, rfl⟩, rfl, rfl⟩)))
    show lookup s d.key "" = none
    unfold lookup
    rw [if_pos rfl, hempty]
    rfl
  refine Method.returns_bind.2 ⟨_, s, Method.returns_attempt.2 hread, Method.returns_bind.2 ⟨none, s, ?_, ?_⟩⟩
  · exact Method.returns_orRaise.2 ⟨rfl, rfl⟩
  · unfold replaceFrom
    rw [if_neg (by simp), hassign]
    refine Method.returns_bind.2 ⟨.applied v, put s d.key v, ?_, Method.returns_pure.2 ⟨rfl, rfl⟩⟩
    unfold writeObject
    rw [if_pos (by exact hcreates)]
    exact Method.returns_act.2 ⟨.inl ⟨hempty, v, hv.fresh, hv.contents, hv.writer, rfl, .inl rfl⟩, hv.ids⟩

/-- A document that replaces another. -/
theorem returns_write_next {r : Nat} {input : I} {found doc : D} {contents : X} {u v : Version X ι} {rest : List (Version X ι)}
    (hhead : s d.key = u :: rest) (hfound : decodeConfiguration d u = .ok found) (hrevision : d.revision found = r)
    (hcreates : d.creates r true = false) (hassign : d.assign r input = .ok (doc, contents)) (hv : Addable d i contents s v) :
    Method.Returns (step i) (writeConfiguration d r input) s (doc, v) (put s d.key v) := by
  have hread : Prog.Exec (step i) (readConfiguration d).run s (.ok (found, u)) s := by
    refine Method.returns_bind.2 ⟨u, s, Method.returns_bind.2 ⟨.found u, s, Method.returns_act.2 ⟨?_, rfl⟩, ?_⟩, ?_⟩
    · show lookup s d.key "" = some u
      unfold lookup
      rw [if_pos rfl, hhead]
      rfl
    · exact Method.returns_pure.2 ⟨rfl, rfl⟩
    · exact Method.returns_bind.2 ⟨found, s, Method.returns_orRaise.2 ⟨hfound, rfl⟩, Method.returns_pure.2 ⟨rfl, rfl⟩⟩
  refine Method.returns_bind.2 ⟨_, s, Method.returns_attempt.2 hread, Method.returns_bind.2 ⟨some (found, u), s, ?_, ?_⟩⟩
  · exact Method.returns_orRaise.2 ⟨rfl, rfl⟩
  · unfold replaceFrom
    rw [if_neg (by simpa using hrevision), hassign]
    refine Method.returns_bind.2 ⟨.applied v, put s d.key v, ?_, Method.returns_pure.2 ⟨rfl, rfl⟩⟩
    unfold writeObject
    rw [if_neg (by rw [Option.isSome_some, hcreates]; decide)]
    exact Method.returns_act.2 ⟨.inl ⟨⟨u, by rw [hhead]; rfl, rfl⟩, v, hv.fresh, hv.contents, hv.writer, rfl, .inl rfl⟩, hv.ids⟩

/-- A call alone ends as its method does. -/
theorem exec_write {r : Nat} {input : I} {p : D × Version X ι} {s' : Objects X ι}
    (h : Method.Returns (step i) (writeConfiguration d r input) s p s') :
    Prog.Exec (step i) ((Call.write r input).method d).run s (.ok (.current p.1 p.2)) s' :=
  (Prog.exec_bind (step i) _ _ _ _ _).2 ⟨.ok p, s', h, rfl, rfl⟩

end ConfigStore
end Dex
