import DexConnectors.LibRefine
import DexConnectors.S3Model
/-!
# S3Refines — the adapter over a bucket is an object store

A bucket seen through an adapter is a store of versioned objects, and an adapter whose client sends a write only once
performs every operation of that store in one request (`refinement`): a read that is sent again decides nothing until its last
request is answered.  A client that sends a write again breaks this (`writeObject_atomic_iff`): a write that was applied
is then answered as a conflict.
-/
namespace Dex
namespace S3

open Lib Lib.Store ConfigStore

variable {X T ι : Type}

/-- **What an answer and an error may mean.** -/
structure Adapter.Sound (store : Adapter X) : Prop where
  accepts : ∀ {T : Type} (version : String) (o : GetObjectOutput X T) (v : Version X T), store.accept version o = .ok v →
    o.versionID = some v.id ∧ o.etag = some v.etag ∧ o.body = some v.contents ∧ v.writer = o.writer ∧
      (version ≠ "" → v.id = version)
  present : ∀ {T : Type} (version : String) (o : GetObjectOutput X T), store.accept version o ≠ .error .objectNotFound
  missing : ∀ e, store.classifyStorageError e false = .objectNotFound → ∃ e', e = some e' ∧ e'.missing = true
  doubt   : ∀ e, (∀ e', e = some e' → e'.refuses = false) → store.classifyStorageError e true = .outcomeUnknown

/-! ## The three SDKs -/

theorem checkIdentity_ok {version kmsKey : String} {o : GetObjectOutput X T} (h : checkIdentity version kmsKey o = .ok ()) :
    hasIdentity version o = true ∧ isEncrypted kmsKey o = true := by
  unfold checkIdentity at h
  split at h
  · cases h
  · rename_i hidentity
    split at h
    · cases h
    · rename_i hencrypted
      exact ⟨by simpa using hidentity, by simpa using hencrypted⟩

theorem getD_eq_some {o : Option String} (h : o.getD "" ≠ "") : o = some (o.getD "") := by
  cases o with
  | none => exact absurd rfl h
  | some _ => rfl

theorem checkBody_ok {size : X → Nat} {version kmsKey : String} {o : GetObjectOutput X T} {body : X} {v : Version X T}
    (hidentity : checkIdentity version kmsKey o = .ok ()) (hbody : o.body = some body) (h : checkBody size o body = .ok v) :
    o.versionID = some v.id ∧ o.etag = some v.etag ∧ o.body = some v.contents ∧ v.writer = o.writer ∧
      (version ≠ "" → v.id = version) := by
  have hid := (checkIdentity_ok hidentity).1
  simp only [hasIdentity, Bool.and_eq_true, bne_iff_ne, Bool.or_eq_true, beq_iff_eq] at hid
  obtain ⟨⟨⟨hversion, -⟩, hetag⟩, hasked⟩ := hid
  unfold checkBody at h
  split at h
  · cases h
  · cases h
    refine ⟨getD_eq_some hversion, getD_eq_some hetag, hbody, rfl, fun hne => ?_⟩
    rcases hasked with rfl | hasked
    · exact absurd rfl hne
    · show o.versionID.getD "" = version
      rw [hasked]
      rfl

/-- What the three SDKs accept has the identity that was asked for. -/
theorem accept_ok {broken : Err} {size : X → Nat} {kmsKey version : String} {o : GetObjectOutput X T} {v : Version X T}
    (h : accept broken size kmsKey version o = .ok v) :
    o.versionID = some v.id ∧ o.etag = some v.etag ∧ o.body = some v.contents ∧ v.writer = o.writer ∧
      (version ≠ "" → v.id = version) := by
  unfold accept at h
  split at h
  · cases h
  · cases h
  · rename_i body hidentity hbody
    exact checkBody_ok hidentity hbody h

/-- An answer is never taken for a missing object. -/
theorem accept_present {broken : Err} (hbroken : broken ≠ .objectNotFound) {size : X → Nat} {kmsKey version : String}
    {o : GetObjectOutput X T} : accept broken size kmsKey version o ≠ .error .objectNotFound := by
  unfold accept
  split
  · rename_i e hidentity
    unfold checkIdentity at hidentity
    split at hidentity
    · cases hidentity
      simp
    · split at hidentity
      · cases hidentity
        simp
      · cases hidentity
  · simpa using hbroken
  · unfold checkBody unavailable
    split <;> simp

theorem Go.sound (size : X → Nat) (keyPrefix kmsKey : String) : (Go.adapter size keyPrefix kmsKey).Sound where
  accepts := fun _ _ _ h => accept_ok h
  present := fun _ _ => accept_present (by decide)
  missing := by
    rintro (_ | e) h
    · cases h
    · refine ⟨e, rfl, ?_⟩
      have h : Go.classifyStorageError (some e) false = .objectNotFound := h
      unfold Go.classifyStorageError at h
      dsimp only at h
      split at h
      · rename_i hcode
        simp [APIError.missing, hcode]
      · split at h <;> cases h
  doubt := by
    rintro (_ | e) h
    · rfl
    · have hno := h e rfl
      simp only [APIError.refuses, APIError.missing, Bool.or_eq_false_iff] at hno
      obtain ⟨⟨⟨⟨hmissing, -⟩, hconflict⟩, -⟩, -⟩ := hno
      show Go.classifyStorageError (some e) true = _
      simp [Go.classifyStorageError, hmissing, hconflict]

theorem Python.sound (size : X → Nat) (keyPrefix kmsKey : String) : (Python.adapter size keyPrefix kmsKey).Sound where
  accepts := fun _ _ _ h => accept_ok h
  present := fun _ _ => accept_present (by decide)
  missing := by
    rintro (_ | e) h
    · cases h
    · refine ⟨e, rfl, ?_⟩
      have h : Python.classifyStorageError (some e) false = .objectNotFound := h
      unfold Python.classifyStorageError at h
      dsimp only at h
      split at h
      · rename_i hstatus
        have : e.status = 404 := by simpa using hstatus.1
        simp [APIError.missing, this]
      · split at h <;> cases h
  doubt := by
    rintro (_ | e) h
    · rfl
    · have hno := h e rfl
      simp only [APIError.refuses, APIError.missing, Bool.or_eq_false_iff, beq_eq_false_iff_ne] at hno
      obtain ⟨⟨-, h409⟩, h412⟩ := hno
      show Python.classifyStorageError (some e) true = _
      simp [Python.classifyStorageError, h409, h412]

theorem TypeScript.sound (size : X → Nat) (keyPrefix kmsKey : String) : (TypeScript.adapter size keyPrefix kmsKey).Sound where
  accepts := fun _ _ _ h => accept_ok h
  present := fun _ _ => accept_present (by decide)
  missing := by
    rintro (_ | e) h
    · cases h
    · refine ⟨e, rfl, ?_⟩
      have h : TypeScript.classifyStorageError (some e) false = .objectNotFound := h
      unfold TypeScript.classifyStorageError at h
      dsimp only at h
      split at h
      · rename_i hcode
        simp only [APIError.missing, Bool.or_eq_true]
        exact .inl hcode
      · split at h
        · cases h
        · cases h
  doubt := by
    rintro (_ | e) h
    · rfl
    · have hno := h e rfl
      simp only [APIError.refuses, APIError.missing, Bool.or_eq_false_iff] at hno
      obtain ⟨⟨⟨⟨hmissing, -⟩, hconflict⟩, -⟩, -⟩ := hno
      show TypeScript.classifyStorageError (some e) true = _
      simp [TypeScript.classifyStorageError, hmissing, hconflict]

theorem sound (size : X → Nat) (keyPrefix kmsKey : String) : ∀ sdk : SDK, (adapter sdk size keyPrefix kmsKey).Sound
  | .go => Go.sound size keyPrefix kmsKey
  | .python => Python.sound size keyPrefix kmsKey
  | .typeScript => TypeScript.sound size keyPrefix kmsKey

/-! ## The view -/

variable (store : Adapter X)

/-- **The bucket as the adapter shows it.** -/
def Adapter.view (b : Bucket X T) : Objects X T := fun key => (b (store.keyPrefix ++ key)).map Stored.version

theorem view_addVersion (b : Bucket X T) (key : String) (v : Stored X T) :
    store.view (addVersion b (store.keyPrefix ++ key) v) = put (store.view b) key v.version := by
  funext k
  unfold Adapter.view addVersion
  by_cases hk : k = key
  · subst hk
    rw [if_pos rfl, put_same]
    rfl
  · rw [if_neg (fun h => hk ((String.append_right_inj _).1 h)), put_of_ne _ _ hk]

theorem find_version {l : List (Stored X T)} {id : String} :
    (l.map Stored.version).find? (fun v => v.id == id) = (l.find? (fun v => v.versionID == id)).map Stored.version := by
  rw [List.find?_map]
  rfl

/-- A read names what the store looks up. -/
theorem lookup_view (b : Bucket X T) (key version : String) :
    lookup (store.view b) key version = (find b (store.readInput key version)).map Stored.version := by
  unfold lookup find Adapter.view Adapter.readInput
  by_cases hversion : version = ""
  · rw [if_pos hversion, if_pos hversion, List.head?_map]
  · rw [if_neg hversion, if_neg hversion]
    exact find_version

/-! ## One request -/

/-- The answer of a read, as its callers tell answers apart. -/
def readAnswer : Except Err (Version X T) → ReadAnswer X T
  | .ok v => .found v
  | .error .objectNotFound => .absent
  | .error _ => .failed

/-- The answer of a write, as its callers tell answers apart. -/
def writeAnswer : Except Err (Version X T) → WriteAnswer X T
  | .ok v => .applied v
  | .error .conflict => .conflict
  | .error .outcomeUnknown => .unknown
  | .error _ => .failed

variable {store}

theorem reads_of_gets (hsound : store.Sound) {b : Bucket X T} {key version : String} {response : Response (GetObjectOutput X T)}
    (h : Gets b (store.readInput key version) response) :
    Reads (store.view b) key version (readAnswer (store.received version response)) := by
  cases response with
  | output o =>
    obtain ⟨v, hfind, ⟨hid, hetag⟩, hbody, -, hwriter⟩ := h
    show Reads _ key version (readAnswer (store.accept version o))
    cases haccept : store.accept version o with
    | error e =>
      cases e with
      | objectNotFound => exact absurd haccept (hsound.present version o)
      | _ => trivial
    | ok u =>
      obtain ⟨huid, huetag, hubody, huwriter, -⟩ := hsound.accepts version o u haccept
      show lookup (store.view b) key version = some u
      rw [lookup_view, hfind]
      have : v.version = u := by
        unfold Stored.version
        rw [← hid _ huid, ← hetag _ huetag, ← hbody _ hubody, ← hwriter, ← huwriter]
      rw [← this]
      rfl
  | error e =>
    show Reads _ key version (readAnswer (.error (store.classifyStorageError e false)))
    cases hclass : store.classifyStorageError e false with
    | objectNotFound =>
      obtain ⟨e', rfl, hmissing⟩ := hsound.missing e hclass
      have hfind : find b (store.readInput key version) = none := h hmissing
      show lookup (store.view b) key version = none
      rw [lookup_view, hfind]
      rfl
    | _ => trivial

/-- What a write of an object asks of the store. -/
def Writes (s : Objects X T) (key etag : String) (contents : X) (writer : T) (answer : WriteAnswer X T) (s' : Objects X T) : Prop :=
  (if etag = "" then Creates s key contents writer answer s' else Swaps s key etag contents writer answer s') ∧
    ∀ v ∈ s' key, v ∈ s key ∨ v.id ≠ "null"

theorem writes_of_refuses {s s' : Objects X T} {key etag : String} {contents : X} {writer : T} {answer : WriteAnswer X T}
    (h : Refuses s answer s') : Writes s key etag contents writer answer s' := by
  refine ⟨?_, fun v hv => .inl (h.1 ▸ hv)⟩
  split
  · exact .inr h
  · exact .inr h

theorem writeAnswer_error (e : Err) : (writeAnswer (.error e) : WriteAnswer X T) = .conflict ∨
    (writeAnswer (.error e) : WriteAnswer X T) = .unknown ∨ (writeAnswer (.error e) : WriteAnswer X T) = .failed := by
  cases e <;> simp [writeAnswer]

/-- A write that was applied is answered as such, or in doubt. -/
theorem written_acknowledged (hsound : store.Sound) {b : Bucket X T} {input : PutObjectInput X} {writer : T} {v : Stored X T}
    (hwritten : Written b input writer v) {response : Response (PutObjectOutput T)} (h : Acknowledges v response) :
    writeAnswer (store.written input.body response) = .applied v.version ∨
      writeAnswer (store.written input.body response) = (.unknown : WriteAnswer X T) := by
  cases response with
  | output o =>
    obtain ⟨⟨hid, hetag⟩, hwriter⟩ := h
    unfold Adapter.written
    dsimp only
    split
    · exact .inr rfl
    · rename_i hidentity
      rw [not_or, not_or] at hidentity
      refine .inl (congrArg WriteAnswer.applied ?_)
      unfold Stored.version
      rw [← hid _ (getD_eq_some hidentity.1), ← hetag _ (getD_eq_some hidentity.2.2), hwritten.body, ← hwriter]
  | error e =>
    refine .inr ?_
    have hdoubt : store.classifyStorageError e true = .outcomeUnknown := by
      refine hsound.doubt e (fun e' he => ?_)
      rw [he] at h
      exact h
    show writeAnswer (.error (store.classifyStorageError e true)) = _
    rw [hdoubt]
    rfl

theorem writes_of_puts (hsound : store.Sound) {b b' : Bucket X T} {key etag : String} {contents : X} {writer : T}
    {response : Response (PutObjectOutput T)} (h : Puts b (store.writeInput key etag contents) writer response b') :
    Writes (store.view b) key etag contents writer (writeAnswer (store.written contents response)) (store.view b') := by
  rcases h with ⟨⟨habsent, hmatch⟩, v, hwritten, rfl, hack⟩ | ⟨rfl, e, rfl⟩
  · have hfresh : Fresh (store.view b) key v.version :=
      ⟨hwritten.fresh.id_ne, hwritten.fresh.etag_ne, hwritten.fresh.new, hwritten.fresh.etag⟩
    have happlies : Applies (store.view b) key contents writer (writeAnswer (store.written contents response))
        (put (store.view b) key v.version) :=
      ⟨v.version, hfresh, hwritten.body, hwritten.writer, rfl, written_acknowledged hsound hwritten hack⟩
    show Writes _ _ _ _ _ _ (store.view (addVersion b (store.keyPrefix ++ key) v))
    rw [view_addVersion]
    refine ⟨?_, fun u hu => ?_⟩
    · split
      · rename_i hetag
        have hempty : b (store.keyPrefix ++ key) = [] := habsent (if_pos hetag)
        refine .inl ⟨?_, happlies⟩
        show (b (store.keyPrefix ++ key)).map Stored.version = []
        rw [hempty]
        rfl
      · rename_i hetag
        obtain ⟨current, hhead, rfl⟩ := hmatch etag (if_neg hetag)
        refine .inl ⟨⟨current.version, ?_, rfl⟩, happlies⟩
        show ((b (store.keyPrefix ++ key)).map Stored.version).head? = _
        rw [List.head?_map]
        have hhead : (b (store.keyPrefix ++ key)).head? = some current := hhead
        rw [hhead]
        rfl
    · rw [put_same] at hu
      rcases List.mem_cons.1 hu with rfl | hu
      · exact .inr hwritten.named
      · exact .inl hu
  · exact writes_of_refuses ⟨rfl, writeAnswer_error _⟩

/-! ## Every operation -/

variable (store)

/-- **The operations of the store, by requests.**  Reads are sent again at most `retries` times, writes never. -/
def Adapter.perform (retries : Nat) : (o : Op X) → Prog (Request X) (Reply X T) (Ans X T o)
  | .read key version => store.readObject retries key version >>= fun r => .ret (readAnswer r)
  | .create key contents => store.createObject 0 key contents >>= fun r => .ret (writeAnswer r)
  | .swap key etag contents => store.compareAndSwapObject 0 key etag contents >>= fun r => .ret (writeAnswer r)

/-- A write that is pending: it was refused before any request, or its one request is to be sent. -/
def Adapter.Writing (key etag : String) (contents : X) (m : Prog (Request X) (Reply X T) (WriteAnswer X T)) : Prop :=
  m = .ret .failed ∨ m = .call (.putObject (store.writeInput key etag contents)) (fun attempt =>
    .ret (writeAnswer (store.written contents attempt.response)))

def Adapter.Pending : (o : Op X) → Prog (Request X) (Reply X T) (Ans X T o) → Prop
  | .read key version, m => m = .ret .failed ∨
      ∃ n, m = getObject n (store.readInput key version) >>= fun response => .ret (readAnswer (store.received version response))
  | .create key contents, m => store.Writing key "" contents m
  | .swap key etag contents, m => (etag = "" ∧ m = .ret .failed) ∨ (etag ≠ "" ∧ store.Writing key etag contents m)

theorem Adapter.writing_writeObject (key etag : String) (contents : X) :
    store.Writing (T := T) key etag contents (store.writeObject 0 key etag contents >>= fun r => .ret (writeAnswer r)) := by
  unfold Adapter.writeObject
  split
  · exact .inl rfl
  · split
    · exact .inl rfl
    · exact .inr rfl

theorem Adapter.pending_perform (retries : Nat) : ∀ o : Op X, store.Pending (T := T) o (store.perform retries o)
  | .read key version => by
    unfold Adapter.perform Adapter.readObject
    dsimp only
    split
    · exact .inl rfl
    · exact .inr ⟨retries, Prog.bind_bind _ _ _⟩
  | .create key contents => store.writing_writeObject key "" contents
  | .swap key etag contents => by
    unfold Adapter.perform Adapter.compareAndSwapObject
    dsimp only
    split
    · rename_i hetag
      exact .inl ⟨hetag, rfl⟩
    · rename_i hetag
      exact .inr ⟨hetag, store.writing_writeObject key etag contents⟩

variable {store}

theorem advance_writing (hsound : store.Sound) {i : ι} {key etag : String} {contents : X} {q : Request X}
    {k : Reply X ι q → Prog (Request X) (Reply X ι) (WriteAnswer X ι)} {b b' : Bucket X ι} {r : Reply X ι q}
    (hm : store.Writing key etag contents (.call q k)) (hr : request i q b r b') :
    ∃ a, k r = .ret a ∧ Writes (store.view b) key etag contents i a (store.view b') := by
  rcases hm with hm | hm
  · cases hm
  · cases hm
    exact ⟨_, rfl, writes_of_puts hsound hr⟩

theorem advance_reading (hsound : store.Sound) {i : ι} {key version : String} {q : Request X}
    {k : Reply X ι q → Prog (Request X) (Reply X ι) (ReadAnswer X ι)} {b b' : Bucket X ι} {r : Reply X ι q}
    (hm : store.Pending (.read key version) (.call q k)) (hr : request i q b r b') :
    b' = b ∧ (store.Pending (.read key version) (k r) ∨
      ∃ a, k r = .ret a ∧ Reads (store.view b) key version a) := by
  rcases hm with hm | ⟨n, hm⟩
  · cases hm
  · cases n with
    | zero =>
      cases hm
      exact ⟨hr.2, .inr ⟨_, rfl, reads_of_gets hsound hr.1⟩⟩
    | succ n =>
      cases hm
      refine ⟨hr.2, ?_⟩
      have hgets := hr.1
      obtain ⟨response, again⟩ := r
      cases response with
      | output o => exact .inr ⟨_, rfl, reads_of_gets hsound hgets⟩
      | error e =>
        cases again with
        | true => exact .inl (.inr ⟨n, rfl⟩)
        | false => exact .inr ⟨_, rfl, reads_of_gets hsound hgets⟩

theorem settled_writing {i : ι} {key etag : String} {contents : X} {a : WriteAnswer X ι} {b : Bucket X ι}
    (hm : store.Writing key etag contents (.ret a)) : Writes (store.view b) key etag contents i a (store.view b) := by
  rcases hm with hm | hm
  · cases hm
    exact writes_of_refuses ⟨rfl, .inr (.inr rfl)⟩
  · cases hm

theorem step_create {i : ι} {key : String} {contents : X} {s s' : Objects X ι} {a : WriteAnswer X ι}
    (h : Writes s key "" contents i a s') : step i (.create key contents) s a s' := by
  refine ⟨?_, h.2⟩
  have := h.1
  rwa [if_pos rfl] at this

theorem step_swap {i : ι} {key etag : String} (hetag : etag ≠ "") {contents : X} {s s' : Objects X ι} {a : WriteAnswer X ι}
    (h : Writes s key etag contents i a s') : step i (.swap key etag contents) s a s' := by
  refine ⟨?_, h.2⟩
  have := h.1
  rwa [if_neg hetag] at this

/-- **An adapter refines the object store**, whatever its client does about reads that fail. -/
def refinement (hsound : store.Sound) (retries : Nat) : Refinement (@ConfigStore.step X ι) (@request X ι) where
  impl := store.perform retries
  view := store.view
  pending := store.Pending
  begun := store.pending_perform retries
  advance := by
    intro i o q k b r b' hm hr
    cases o with
    | read key version =>
      obtain ⟨rfl, hpending | ⟨a, ha, hreads⟩⟩ := advance_reading hsound hm hr
      · exact .inl ⟨rfl, hpending⟩
      · exact .inr ⟨a, ha, hreads, rfl⟩
    | create key contents =>
      obtain ⟨a, ha, hwrites⟩ := advance_writing hsound hm hr
      exact .inr ⟨a, ha, step_create hwrites⟩
    | swap key etag contents =>
      rcases hm with ⟨-, hm⟩ | ⟨hetag, hm⟩
      · cases hm
      · obtain ⟨a, ha, hwrites⟩ := advance_writing hsound hm hr
        exact .inr ⟨a, ha, step_swap hetag hwrites⟩
  settled := by
    intro i o a b hm
    cases o with
    | read key version =>
      rcases hm with hm | ⟨n, hm⟩
      · cases hm
        exact ⟨trivial, rfl⟩
      · cases n <;> cases hm
    | create key contents => exact step_create (settled_writing hm)
    | swap key etag contents =>
      rcases hm with ⟨-, hm⟩ | ⟨hetag, hm⟩
      · cases hm
        exact ⟨.inr ⟨rfl, .inr (.inr rfl)⟩, fun v hv => .inl hv⟩
      · exact step_swap hetag (settled_writing hm)

/-! ## Writes that are sent again -/

theorem exec_writeObject (hsound : store.Sound) {writer : T} {key etag : String} {contents : X} {b b' : Bucket X T}
    {a : Except Err (Version X T)} (h : Prog.Exec (request writer) (store.writeObject 0 key etag contents) b a b') :
    Writes (store.view b) key etag contents writer (writeAnswer a) (store.view b') := by
  unfold Adapter.writeObject at h
  split at h
  · obtain ⟨rfl, rfl⟩ := h
    exact writes_of_refuses ⟨rfl, .inr (.inr rfl)⟩
  · split at h
    · obtain ⟨rfl, rfl⟩ := h
      exact writes_of_refuses ⟨rfl, .inr (.inr rfl)⟩
    · obtain ⟨attempt, b₁, hputs, rfl, rfl⟩ := h
      exact writes_of_puts hsound hputs

/-- A request that is not sent again. -/
theorem putObject_once (n : Nat) (input : PutObjectInput X) : ∃ k : Attempt (PutObjectOutput T) → _,
    putObject (T := T) n input = .call (.putObject input) k ∧ ∀ e, k ⟨.error e, false⟩ = .ret (.error e) := by
  cases n with
  | zero => exact ⟨_, rfl, fun _ => rfl⟩
  | succ n => exact ⟨_, rfl, fun _ => rfl⟩

def preconditionFailed : APIError := ⟨"PreconditionFailed", 412⟩

theorem classify_preconditionFailed (size : X → Nat) (keyPrefix kmsKey : String) :
    ∀ sdk, (adapter sdk size keyPrefix kmsKey).classifyStorageError (some preconditionFailed) true = .conflict
  | .go | .python | .typeScript => rfl

/-- A bucket on which a write is admitted. -/
def headed (key etag : String) (contents : X) (writer : T) : Bucket X T :=
  fun k => if k = key ∧ etag ≠ "" then [⟨"v0", etag, contents, none, writer⟩] else []

theorem admits_headed (writer : T) (key etag : String) (contents : X) :
    Admits (headed (store.keyPrefix ++ key) etag contents writer) (store.writeInput key etag contents) := by
  unfold Adapter.writeInput headed
  by_cases hetag : etag = ""
  · subst hetag
    exact ⟨fun _ => by simp, fun tag h => by simp at h⟩
  · refine ⟨fun h => by simp [hetag] at h, fun tag h => ?_⟩
    simp only [if_neg hetag, Option.some.injEq] at h
    subst h
    exact ⟨⟨"v0", etag, contents, none, writer⟩, by simp [hetag], rfl⟩

theorem written_headed (writer : T) (key etag : String) (contents : X) :
    Written (headed (store.keyPrefix ++ key) etag contents writer) (store.writeInput key etag contents) writer
      ⟨"v1", "e1", contents, (store.writeInput key etag contents).sseKMSKeyID, writer⟩ := by
  have honly : ∀ u ∈ (headed (store.keyPrefix ++ key) etag contents writer (store.keyPrefix ++ key)).map Stored.version,
      u = ⟨"v0", etag, contents, writer⟩ := by
    intro u hu
    unfold headed at hu
    split at hu
    · simpa [Stored.version] using hu
    · cases hu
  refine ⟨⟨by simp [Stored.version], by simp [Stored.version], fun u hu => ?_, fun u hu _ => ?_⟩, by simp, rfl, rfl, rfl⟩
  · rw [honly u hu]
    simp [Stored.version]
  · rw [honly u hu]
    rfl

/-- A write that is applied, not answered, sent again and refused. -/
theorem exec_sentAgain (writer : T) (retries : Nat) {key : String} (etag : String) {contents : X}
    (hkey : store.validateObjectKey key = true) (hcontents : store.validateContents contents = true)
    (hconflict : store.classifyStorageError (some preconditionFailed) true = .conflict) :
    ∃ b b', store.view b' ≠ store.view b ∧
      Prog.Exec (request writer) (store.writeObject (retries + 1) key etag contents) b (.error .conflict) b' := by
  let input := store.writeInput key etag contents
  let b := headed (store.keyPrefix ++ key) etag contents writer
  let v : Stored X T := ⟨"v1", "e1", contents, input.sseKMSKeyID, writer⟩
  refine ⟨b, addVersion b input.key v, ?_, ?_⟩
  · show store.view (addVersion b (store.keyPrefix ++ key) v) ≠ store.view b
    rw [view_addVersion]
    intro h
    have := congrArg List.length (congrFun h key)
    rw [put_same, List.length_cons] at this
    omega
  · unfold Adapter.writeObject
    rw [if_neg (by simp [hkey]), if_neg (by simp [hcontents])]
    obtain ⟨k, hk, honce⟩ := putObject_once (T := T) retries input
    have hputs : Puts b input writer (.error none) (addVersion b input.key v) :=
      .inl ⟨admits_headed writer key etag contents, v, written_headed writer key etag contents, rfl, trivial⟩
    refine ⟨⟨.error none, true⟩, _, hputs, ?_⟩
    show Prog.Exec (request writer) (putObject retries input >>= _) _ _ _
    rw [hk]
    refine ⟨⟨.error (some preconditionFailed), false⟩, _, .inr ⟨rfl, _, rfl⟩, ?_⟩
    show Prog.Exec (request writer) (k ⟨.error (some preconditionFailed), false⟩ >>= _) _ _ _
    rw [honce]
    refine ⟨?_, rfl⟩
    show Except.error Err.conflict = .error (store.classifyStorageError (some preconditionFailed) true)
    rw [hconflict]

theorem validateContents_adapter {size : X → Nat} (keyPrefix kmsKey : String) (sdk : SDK) {contents : X}
    (h : size contents ≠ 0 ∧ size contents ≤ maximumObjectBytes) :
    (adapter sdk size keyPrefix kmsKey).validateContents contents = true := by
  have hsize : (adapter sdk size keyPrefix kmsKey).size = size := by cases sdk <;> rfl
  unfold Adapter.validateContents
  rw [hsize]
  simpa using h

/-- **A write is one operation of the store exactly when its client sends it once.** -/
theorem writeObject_atomic_iff (sdk : SDK) (size : X → Nat) (keyPrefix kmsKey : String) (writer : T) (retries : Nat) {key : String}
    (etag : String) {contents : X} (hkey : (adapter sdk size keyPrefix kmsKey).validateObjectKey key = true)
    (hcontents : size contents ≠ 0 ∧ size contents ≤ maximumObjectBytes) :
    (∀ b a b', Prog.Exec (request writer) ((adapter sdk size keyPrefix kmsKey).writeObject retries key etag contents) b a b' →
      Writes ((adapter sdk size keyPrefix kmsKey).view b) key etag contents writer (writeAnswer a)
        ((adapter sdk size keyPrefix kmsKey).view b')) ↔ retries = 0 := by
  constructor
  · intro h
    cases retries with
    | zero => rfl
    | succ n =>
      obtain ⟨b, b', hne, hexec⟩ := exec_sentAgain writer n etag hkey (validateContents_adapter keyPrefix kmsKey sdk hcontents)
        (classify_preconditionFailed size keyPrefix kmsKey sdk)
      have hwrites := (h _ _ _ hexec).1
      have happlies : ∀ s', ¬Applies ((adapter sdk size keyPrefix kmsKey).view b) key contents writer .conflict s' := by
        rintro s' ⟨v, -, -, -, -, ha | ha⟩
        · cases ha
        · cases ha
      split at hwrites
      · rcases hwrites with ⟨-, ha⟩ | ⟨hsame, -⟩
        · exact absurd ha (happlies _)
        · exact absurd hsame hne
      · rcases hwrites with ⟨-, ha⟩ | ⟨hsame, -⟩
        · exact absurd ha (happlies _)
        · exact absurd hsame hne
  · rintro rfl b a b' hexec
    exact exec_writeObject (sound size keyPrefix kmsKey sdk) hexec

theorem writeObject_atomic_iff_head :
    (∀ b a b', Prog.Exec (request ()) ((adapter .go String.length "" "").writeObject 3 "head" "e0" "document") b a b' →
      Writes ((adapter .go String.length "" "").view b) "head" "e0" "document" () (writeAnswer a)
        ((adapter .go String.length "" "").view b')) ↔ 3 = 0 :=
  writeObject_atomic_iff .go String.length "" "" () 3 "e0" (by decide) (by decide)

end S3
end Dex
