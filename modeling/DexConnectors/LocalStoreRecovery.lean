import Mathlib.Data.List.Nodup
import Mathlib.Data.List.Pairwise
import DexConnectors.LibNumberText
import DexConnectors.LocalStoreModel
/-!
# LocalStoreRecovery — what `versionedStore` keeps over crashes

`Inv` ties the directory and the memory to the log of persisted versions; `inv_step` is its step lemma.  `store_recovers` is
about every run whose keys are well-formed texts: the current object of a key is the last version persisted for it, version
numbers grow and no ETag returns, an answered version of a configuration stays readable.  JSON changes any other key, and a
load then finds the file under another name; `key_lost` is such a run.
-/
namespace Dex
namespace LocalStore

open Lib Lib.Utf8

/-! ## Version numbers and names -/

theorem versionNumber_repr (n : Nat) : versionNumber n.repr = n := by
  unfold versionNumber
  rw [Nat.toList_repr, if_pos, Nat.ofDigitChars_ten_toDigits]
  rw [List.all_eq_true]
  intro c hc
  exact Nat.isDigit_of_mem_toDigits (by decide) (by decide) hc

theorem repr_inj {m n : Nat} (h : m.repr = n.repr) : m = n := by
  rw [← versionNumber_repr m, h, versionNumber_repr]

theorem fileOf_eq (digest : Bytes → String) (o : Object) :
    fileOf digest o = digest o.key ++ "-" ++ (o.version ++ ".json") := by
  rw [fileOf, String.append_assoc]

section Hashes

variable {digest : Bytes → String} (hhex : ∀ text, '-' ∉ (digest text).toList)

include hhex

/-- What is written after a digest and a dash can be read off. -/
theorem digest_dash {x y : Bytes} {u v : String} (h : digest x ++ "-" ++ u = digest y ++ "-" ++ v) :
    digest x = digest y ∧ u = v := by
  have hl := congrArg String.toList h
  simp only [String.toList_append, List.append_assoc] at hl
  obtain ⟨h1, h2⟩ := split_at (hhex x) (hhex y) hl
  exact ⟨String.toList_inj.1 h1, String.toList_inj.1 h2⟩

theorem fileOf_inj {o o' : Object} (h : fileOf digest o = fileOf digest o') :
    digest o.key = digest o'.key ∧ o.version = o'.version := by
  rw [fileOf_eq, fileOf_eq] at h
  obtain ⟨h1, h2⟩ := digest_dash hhex h
  refine ⟨h1, ?_⟩
  have hl := congrArg String.toList h2
  rw [String.toList_append, String.toList_append] at hl
  exact String.toList_inj.1 (List.append_cancel_right hl)

end Hashes

/-! ## The log -/

/-- The persisted versions of a key, newest first. -/
def logOf (log : List Entry) (key : Bytes) : List Entry := log.filter (fun e => e.object.key == key)

theorem mem_logOf {log : List Entry} {key : Bytes} {e : Entry} : e ∈ logOf log key ↔ e ∈ log ∧ e.object.key = key := by
  rw [logOf, List.mem_filter, beq_iff_eq]

theorem logOf_cons (e : Entry) (log : List Entry) (key : Bytes) :
    logOf (e :: log) key = if e.object.key = key then e :: logOf log key else logOf log key := by
  simp only [logOf, List.filter_cons, beq_iff_eq]

/-- **Every persisted version has the next number of its key**, and the tag of its contents and number. -/
def Numbered (digest : Bytes → String) : List Entry → Prop
  | [] => True
  | e :: log =>
    e.object.version = ((logOf log e.object.key).length + 1).repr ∧
      e.object.etag = digest e.object.contents ++ "-" ++ e.object.version ∧ Numbered digest log

theorem Numbered.mem {digest : Bytes → String} : ∀ {log : List Entry}, Numbered digest log → ∀ e ∈ log,
    e.object.etag = digest e.object.contents ++ "-" ++ e.object.version ∧
      ∃ n, e.object.version = n.repr ∧ 0 < n ∧ n ≤ (logOf log e.object.key).length
  | e :: log, ⟨hv, ht, hrest⟩, e', he => by
    rcases List.mem_cons.1 he with rfl | he
    · have hlen : (logOf (e' :: log) e'.object.key).length = (logOf log e'.object.key).length + 1 := by
        rw [logOf_cons, if_pos rfl, List.length_cons]
      exact ⟨ht, _, hv, Nat.succ_pos _, Nat.le_of_eq hlen.symm⟩
    · obtain ⟨ht', n, hn, hpos, hle⟩ := hrest.mem e' he
      refine ⟨ht', n, hn, hpos, ?_⟩
      rw [logOf_cons]
      split
      · exact Nat.le_succ_of_le hle
      · exact hle

/-- **Version numbers of a key grow.** -/
theorem Numbered.increasing {digest : Bytes → String} : ∀ {log : List Entry}, Numbered digest log → ∀ key,
    (logOf log key).Pairwise (fun newer older => versionNumber older.object.version < versionNumber newer.object.version)
  | [], _, _ => List.Pairwise.nil
  | e :: log, ⟨hv, _, hrest⟩, key => by
    rw [logOf_cons]
    split
    next hkey =>
      refine List.Pairwise.cons (fun e' he' => ?_) (hrest.increasing key)
      obtain ⟨hmem, hkey'⟩ := mem_logOf.1 he'
      obtain ⟨-, n, hn, -, hle⟩ := hrest.mem e' hmem
      rw [hv, hn, versionNumber_repr, versionNumber_repr]
      rw [hkey'] at hle
      rw [hkey]
      exact Nat.lt_succ_of_le hle
    · exact hrest.increasing key

/-- A version that was persisted before another of its key has another number. -/
theorem Numbered.ne_of_mem {digest : Bytes → String} {e e' : Entry} {log : List Entry} (h : Numbered digest (e :: log))
    (he' : e' ∈ log) (hkey : e'.object.key = e.object.key) : e'.object.version ≠ e.object.version := by
  obtain ⟨hv, -, hrest⟩ := h
  obtain ⟨-, n, hn, -, hle⟩ := hrest.mem e' he'
  intro heq
  rw [hn, hv] at heq
  have := repr_inj heq
  rw [hkey] at hle
  omega

/-- Two persisted versions of a key with one version are one. -/
theorem Numbered.unique {digest : Bytes → String} : ∀ {log : List Entry}, Numbered digest log → ∀ {e e' : Entry}, e ∈ log →
    e' ∈ log → e.object.key = e'.object.key → e.object.version = e'.object.version → e = e'
  | first :: log, h, e, e', he, he', hkey, hv => by
    rcases List.mem_cons.1 he with rfl | hm
    · rcases List.mem_cons.1 he' with rfl | hm'
      · rfl
      · exact absurd hv.symm (h.ne_of_mem hm' hkey.symm)
    · rcases List.mem_cons.1 he' with rfl | hm'
      · exact absurd hv (h.ne_of_mem hm hkey)
      · exact h.2.2.unique hm hm' hkey hv

/-! ## What the store has of a key -/

/-- The versions in memory of a key, against its persisted versions: the last is the newest, nothing else is kept but
persisted versions, and of a key with history all of them. -/
structure Holds (key : Bytes) (versions : List Object) (entries : List Entry) : Prop where
  last    : versions.getLast? = entries.head?.map (·.object)
  known   : ∀ o ∈ versions, ∃ e ∈ entries, e.object = o
  history : keepsHistory key = true → ∀ e ∈ entries, e.object ∈ versions

theorem Holds.eq_nil_iff {key : Bytes} {versions : List Object} {entries : List Entry} (h : Holds key versions entries) :
    versions = [] ↔ entries = [] := by
  constructor
  · intro hv
    have := h.last
    rw [hv] at this
    cases entries with
    | nil => rfl
    | cons e rest => cases this
  · intro he
    have := h.last
    rw [he] at this
    exact List.getLast?_eq_none_iff.1 this

/-- **The directory and the memory against the log.** -/
structure Inv (digest : Bytes → String) (P : Bytes → Prop) (st : State) : Prop where
  keys     : ∀ e ∈ st.log, P e.object.key
  numbered : Numbered digest st.log
  names    : (st.disk.map Prod.fst).Nodup
  files    : ∀ f ∈ st.disk, ∃ e ∈ st.log, f = (fileOf digest e.object, e.object)
  newest   : ∀ key e, (logOf st.log key).head? = some e → (fileOf digest e.object, e.object) ∈ st.disk
  history  : ∀ e ∈ st.log, keepsHistory e.object.key = true → (fileOf digest e.object, e.object) ∈ st.disk
  memory   : ∀ m ∈ st.memory, ∀ key, Holds key (m key) (logOf st.log key)

theorem mem_of_head? {log : List Entry} {key : Bytes} {e : Entry} (h : (logOf log key).head? = some e) :
    e ∈ log ∧ e.object.key = key := mem_logOf.1 (List.mem_of_mem_head? h)

theorem inv_initial (digest : Bytes → String) (P : Bytes → Prop) : Inv digest P initial :=
  ⟨fun _ h => (by cases h), trivial, List.nodup_nil, fun _ h => (by cases h), fun _ _ h => (by cases h),
    fun _ h => (by cases h), fun m hm key => by
      cases hm
      exact ⟨rfl, fun _ h => (by cases h), fun _ _ h => (by cases h)⟩⟩

/-! ## Removals -/

theorem mem_removeEach {digest : Bytes → String} {kept : String → Bool} {disk : Disk} {objects : List Object}
    {f : String × Object} (h : f ∈ removeEach digest kept disk objects) : f ∈ disk := List.mem_of_mem_filter h

theorem removeEach_keeps {digest : Bytes → String} {kept : String → Bool} {disk : Disk} {objects : List Object}
    {f : String × Object} (h : f ∈ disk) (hne : ∀ o ∈ objects, fileOf digest o ≠ f.1) :
    f ∈ removeEach digest kept disk objects := by
  refine List.mem_filter.2 ⟨h, ?_⟩
  rw [Bool.or_eq_true, Bool.not_eq_true']
  right
  rw [← Bool.not_eq_true, List.contains_iff_mem, List.mem_map]
  rintro ⟨o, ho, heq⟩
  exact hne o ho heq

theorem nodup_removeEach {digest : Bytes → String} {kept : String → Bool} {disk : Disk} {objects : List Object}
    (h : (disk.map Prod.fst).Nodup) : ((removeEach digest kept disk objects).map Prod.fst).Nodup :=
  h.sublist (List.Sublist.map _ List.filter_sublist)

/-! ## Loads -/

section Loads

variable {digest : Bytes → String} {P : Bytes → Prop} {st : State} (h : Inv digest P st)

include h

theorem mem_versionsOf {key : Bytes} {o : Object} :
    o ∈ versionsOf st.disk key ↔ ∃ e ∈ logOf st.log key, e.object = o ∧ (fileOf digest o, o) ∈ st.disk := by
  simp only [versionsOf, List.mem_filter, List.mem_map, beq_iff_eq]
  constructor
  · rintro ⟨⟨f, hf, rfl⟩, hkey⟩
    obtain ⟨e, he, rfl⟩ := h.files f hf
    exact ⟨e, mem_logOf.2 ⟨he, hkey⟩, rfl, hf⟩
  · rintro ⟨e, he, rfl, hf⟩
    exact ⟨⟨_, hf, rfl⟩, (mem_logOf.1 he).2⟩

/-- The names of the files are functions of what they hold. -/
theorem nodup_versionsOf (key : Bytes) : (versionsOf st.disk key).Nodup := by
  have hnames : st.disk.map Prod.fst = (st.disk.map (·.2)).map (fileOf digest) := by
    rw [List.map_map]
    refine List.map_congr_left (fun f hf => ?_)
    obtain ⟨e, -, rfl⟩ := h.files f hf
    rfl
  have hnodup := h.names
  rw [hnames] at hnodup
  exact (hnodup.of_map (fileOf digest)).filter _

theorem nodup_sorted (key : Bytes) : (sorted (versionsOf st.disk key)).Nodup :=
  (List.mergeSort_perm _ _).nodup_iff.2 (nodup_versionsOf h key)

omit h in
theorem pairwise_sorted (versions : List Object) :
    (sorted versions).Pairwise (fun a b => versionNumber a.version ≤ versionNumber b.version) := by
  refine (List.pairwise_mergeSort ?_ ?_ versions).imp of_decide_eq_true
  · intro a b c hab hbc
    exact decide_eq_true (Nat.le_trans (of_decide_eq_true hab) (of_decide_eq_true hbc))
  · intro a b
    rw [Bool.or_eq_true, decide_eq_true_eq, decide_eq_true_eq]
    exact Nat.le_total _ _

/-- **The last of the sorted versions is the newest one persisted.** -/
theorem last_sorted (key : Bytes) :
    (sorted (versionsOf st.disk key)).getLast? = (logOf st.log key).head?.map (·.object) := by
  cases hlog : logOf st.log key with
  | nil =>
    have hnone : sorted (versionsOf st.disk key) = [] := by
      refine List.eq_nil_iff_forall_not_mem.2 (fun o ho => ?_)
      obtain ⟨e, he, -⟩ := (mem_versionsOf h).1 (List.mem_mergeSort.1 ho)
      rw [hlog] at he
      cases he
    rw [hnone]
    rfl
  | cons e rest =>
    have hhead : (logOf st.log key).head? = some e := by rw [hlog]; rfl
    have hfirst : e.object ∈ sorted (versionsOf st.disk key) :=
      List.mem_mergeSort.2 ((mem_versionsOf h).2 ⟨e, by rw [hlog]; exact List.mem_cons_self, rfl, h.newest key e hhead⟩)
    have hne : sorted (versionsOf st.disk key) ≠ [] := List.ne_nil_of_mem hfirst
    obtain ⟨e', he', heq, -⟩ := (mem_versionsOf h).1 (List.mem_mergeSort.1 (List.getLast_mem hne))
    have hle := (pairwise_sorted (versionsOf st.disk key)).rel_getLast_of_rel_getLast_getLast hfirst (Nat.le_refl _)
    rw [List.getLast?_eq_some_getLast hne, ← heq]
    rw [← heq] at hle
    rw [hlog] at he'
    rcases List.mem_cons.1 he' with rfl | he'
    · rfl
    · have hgrow := h.numbered.increasing key
      rw [hlog] at hgrow
      have := List.rel_of_pairwise_cons hgrow he'
      omega

theorem holds_loaded (key : Bytes) : Holds key (loaded st.disk key) (logOf st.log key) := by
  have hlast := last_sorted h key
  have hknown : ∀ o ∈ sorted (versionsOf st.disk key), ∃ e ∈ logOf st.log key, e.object = o := by
    intro o ho
    obtain ⟨e, he, heq, -⟩ := (mem_versionsOf h).1 (List.mem_mergeSort.1 ho)
    exact ⟨e, he, heq⟩
  unfold loaded
  by_cases hh : keepsHistory key = true
  · rw [if_pos hh]
    refine ⟨hlast, hknown, fun _ e he => List.mem_mergeSort.2 ((mem_versionsOf h).2 ⟨e, he, rfl, ?_⟩)⟩
    obtain ⟨hmem, hkey⟩ := mem_logOf.1 he
    exact h.history e hmem (by rw [hkey]; exact hh)
  · rw [if_neg hh]
    refine ⟨?_, fun o ho => ?_, fun h => absurd h hh⟩
    · rw [← hlast]
      cases (sorted (versionsOf st.disk key)).getLast? <;> rfl
    · exact hknown o (List.mem_of_getLast? (Option.mem_toList.1 ho))

/-- What a load removes is superseded. -/
theorem stale_superseded : ∀ o ∈ stale st.disk, ∃ e ∈ st.log, e.object = o ∧ keepsHistory o.key = false ∧
    (logOf st.log o.key).head? ≠ some e := by
  intro o ho
  obtain ⟨f, -, ho⟩ := List.mem_flatMap.1 ho
  split at ho
  · cases ho
  next hh =>
    obtain ⟨e, he, rfl, -⟩ := (mem_versionsOf h).1 (List.mem_mergeSort.1 (List.dropLast_subset _ ho))
    obtain ⟨hmem, hkey⟩ := mem_logOf.1 he
    refine ⟨e, hmem, rfl, by rw [hkey]; exact Bool.eq_false_iff.2 hh, fun hhead => ?_⟩
    rw [hkey] at hhead
    have hlast := last_sorted h f.2.key
    rw [hhead] at hlast
    have hnodup := nodup_sorted h f.2.key
    rw [← List.dropLast_append_getLast? e.object hlast] at hnodup
    exact (List.nodup_append.1 hnodup).2.2 _ ho _ (List.mem_singleton.2 rfl) rfl

end Loads

section Keys

variable {digest : Bytes → String} {P : Bytes → Prop} (hhex : ∀ text, '-' ∉ (digest text).toList)
  (hdistinct : ∀ k k', P k → P k' → digest k = digest k' → k = k') (hvalid : ∀ k, P k → isValid k = true)

include hhex hdistinct

/-- Files of one name hold one version. -/
theorem entry_of_file {log : List Entry} (hn : Numbered digest log) (hk : ∀ e ∈ log, P e.object.key) {e e' : Entry}
    (he : e ∈ log) (he' : e' ∈ log) (h : fileOf digest e.object = fileOf digest e'.object) : e = e' := by
  obtain ⟨hd, hv⟩ := fileOf_inj hhex h
  exact hn.unique he he' (hdistinct _ _ (hk e he) (hk e' he') hd) hv

/-- **Removing superseded versions keeps what the invariant needs**: they are versions of keys without history that are
not the newest. -/
theorem inv_removeEach {st : State} (h : Inv digest P st) (kept : String → Bool) {objects : List Object}
    (hold : ∀ o ∈ objects, ∃ e ∈ st.log, e.object = o ∧ keepsHistory o.key = false ∧
      (logOf st.log o.key).head? ≠ some e) :
    Inv digest P { st with disk := removeEach digest kept st.disk objects } := by
  refine ⟨h.keys, h.numbered, nodup_removeEach h.names, fun f hf => h.files f (mem_removeEach hf), fun key e he => ?_,
    fun e he hh => ?_, h.memory⟩
  · refine removeEach_keeps (h.newest key e he) (fun o ho heq => ?_)
    obtain ⟨e', he', rfl, -, hne⟩ := hold o ho
    obtain ⟨hmem, hkey⟩ := mem_of_head? he
    have := entry_of_file hhex hdistinct h.numbered h.keys he' hmem heq
    subst this
    rw [hkey] at hne
    exact hne he
  · refine removeEach_keeps (h.history e he hh) (fun o ho heq => ?_)
    obtain ⟨e', he', rfl, hno, -⟩ := hold o ho
    have := entry_of_file hhex hdistinct h.numbered h.keys he' he heq
    subst this
    rw [hh] at hno
    cases hno

theorem inv_reopen {st : State} (h : Inv digest P st) (kept : String → Bool) (survives : Bool) :
    Inv digest P (step digest st (.reopen kept survives)).1 := by
  have hi := inv_removeEach hhex hdistinct h kept (stale_superseded h)
  refine ⟨hi.keys, hi.numbered, hi.names, hi.files, hi.newest, hi.history, fun m hm key => ?_⟩
  cases survives with
  | false => cases hm
  | true =>
    cases hm
    exact holds_loaded h key

/-! ## Writes -/

omit hhex hdistinct in
theorem Numbered.head {log : List Entry} {key : Bytes} {e : Entry} {rest : List Entry} (h : Numbered digest log)
    (he : logOf log key = e :: rest) : e.object.version = (rest.length + 1).repr := by
  induction log with
  | nil => cases he
  | cons first log ih =>
    rw [logOf_cons] at he
    split at he
    next hkey =>
      obtain ⟨rfl, rfl⟩ := List.cons.inj he
      rw [h.1, hkey]
    · exact ih h.2.2 he

omit hhex hdistinct in
/-- The number after the last version in memory is the number after the last version persisted. -/
theorem nextVersion_eq {log : List Entry} {key : Bytes} {versions : List Object} (hn : Numbered digest log)
    (hh : Holds key versions (logOf log key)) : nextVersion versions = ((logOf log key).length + 1).repr := by
  unfold nextVersion
  rw [hh.last]
  cases he : logOf log key with
  | nil => rfl
  | cons e rest =>
    have hv := hn.head he
    show (versionNumber e.object.version + 1).repr = _
    rw [hv, versionNumber_repr, List.length_cons]

omit hhex hdistinct in
theorem numbered_append {st : State} (h : Inv digest P st) {m : Memory} (hm : m ∈ st.memory) (key contents : Bytes)
    (b : Bool) : Numbered digest (⟨nextObject digest (m key) key contents, b⟩ :: st.log) :=
  ⟨nextVersion_eq h.numbered (h.memory m hm key), rfl, h.numbered⟩

include hvalid

/-- **The rename adds the version to the directory and to the log.** -/
theorem inv_persist {st : State} (h : Inv digest P st) {m : Memory} (hm : m ∈ st.memory) {key : Bytes} (hkey : P key)
    (contents : Bytes) (b : Bool) :
    Inv digest P ⟨persist digest st.disk (nextObject digest (m key) key contents), none,
      ⟨nextObject digest (m key) key contents, b⟩ :: st.log⟩ := by
  have hn := numbered_append h hm key contents b
  have hstored : stored (nextObject digest (m key) key contents) = nextObject digest (m key) key contents := by
    unfold stored
    rw [show (nextObject digest (m key) key contents).key = key from rfl, (repair_eq_iff key).2 (hvalid key hkey)]
    rfl
  generalize ho : nextObject digest (m key) key contents = o at hn hstored
  have hokey : o.key = key := by rw [← ho]; rfl
  have hnew : ∀ e ∈ st.log, fileOf digest e.object ≠ fileOf digest o := by
    intro e he heq
    obtain ⟨hd, hv⟩ := fileOf_inj hhex heq
    have hk := hdistinct _ _ (h.keys e he) (hokey ▸ hkey) hd
    exact hn.ne_of_mem he hk hv
  have hfresh : ∀ f ∈ st.disk, f.1 ≠ fileOf digest o := by
    intro f hf heq
    obtain ⟨e, he, rfl⟩ := h.files f hf
    exact hnew e he heq
  have hold : ∀ f ∈ st.disk, f ∈ persist digest st.disk o :=
    fun f hf => List.mem_append_left _ (List.mem_filter.2 ⟨hf, bne_iff_ne.2 (hfresh f hf)⟩)
  have hadded : (fileOf digest o, o) ∈ persist digest st.disk o := by
    unfold persist
    rw [hstored]
    exact List.mem_append_right _ (List.mem_singleton.2 rfl)
  refine ⟨fun e he => ?_, hn, ?_, fun f hf => ?_, fun k e he => ?_, fun e he hh => ?_, fun _ h => (by cases h)⟩
  · rcases List.mem_cons.1 he with rfl | he
    · exact hokey ▸ hkey
    · exact h.keys e he
  · unfold persist
    rw [List.map_append, List.nodup_append]
    refine ⟨h.names.sublist (List.Sublist.map _ List.filter_sublist), List.nodup_singleton _, fun a ha b hb => ?_⟩
    obtain ⟨f, hf, rfl⟩ := List.mem_map.1 ha
    rw [List.mem_singleton.1 hb]
    exact hfresh f (List.mem_of_mem_filter hf)
  · unfold persist at hf
    rw [hstored] at hf
    rcases List.mem_append.1 hf with hf | hf
    · obtain ⟨e, he, hfe⟩ := h.files f (List.mem_of_mem_filter hf)
      exact ⟨e, List.mem_cons_of_mem _ he, hfe⟩
    · exact ⟨⟨o, b⟩, List.mem_cons_self, List.mem_singleton.1 hf⟩
  · rw [logOf_cons] at he
    split at he
    · cases he
      exact hadded
    · exact hold _ (h.newest k e he)
  · rcases List.mem_cons.1 he with rfl | he
    · exact hadded
    · exact hold _ (h.history e he hh)

/-- The directory and the log after a write: the version is persisted, superseded versions may be gone. -/
theorem inv_written {st : State} (h : Inv digest P st) {m : Memory} (hm : m ∈ st.memory) {key : Bytes} (hkey : P key)
    (contents : Bytes) (b : Bool) (kept : String → Bool) :
    Inv digest P ⟨removeEach digest kept (persist digest st.disk (nextObject digest (m key) key contents))
      (if keepsHistory key then [] else m key), none, ⟨nextObject digest (m key) key contents, b⟩ :: st.log⟩ := by
  have hi := inv_persist hhex hdistinct hvalid h hm hkey contents b
  refine inv_removeEach hhex hdistinct hi kept (fun o ho => ?_)
  split at ho
  · cases ho
  next hh =>
    obtain ⟨e, he, rfl⟩ := (h.memory m hm key).known o ho
    obtain ⟨hmem, hk⟩ := mem_logOf.1 he
    refine ⟨e, List.mem_cons_of_mem _ hmem, rfl, by rw [hk]; exact Bool.eq_false_iff.2 hh, fun hhead => ?_⟩
    have hkey' : (⟨nextObject digest (m key) key contents, b⟩ : Entry).object.key = key := rfl
    rw [hk, logOf_cons, if_pos hkey', List.head?_cons] at hhead
    have heq := Option.some.inj hhead
    exact hi.numbered.ne_of_mem hmem hk (by rw [← heq])

theorem inv_appendVersion {st : State} (h : Inv digest P st) {m : Memory} (hm : m ∈ st.memory) {key : Bytes} (hkey : P key)
    (contents : Bytes) (fate : Fate) : Inv digest P (appendVersion digest st m key contents fate).1 := by
  cases fate with
  | refused => exact h
  | crashedBefore =>
    exact ⟨h.keys, h.numbered, h.names, h.files, h.newest, h.history, fun _ hm => (by cases hm)⟩
  | crashedAfter kept => exact inv_written hhex hdistinct hvalid h hm hkey contents false kept
  | done kept =>
    have hi := inv_written hhex hdistinct hvalid h hm hkey contents true kept
    refine ⟨hi.keys, hi.numbered, hi.names, hi.files, hi.newest, hi.history, fun m' hm' k => ?_⟩
    have hmem := h.memory m hm
    cases hm'
    have hkey' : (⟨nextObject digest (m key) key contents, true⟩ : Entry).object.key = key := rfl
    show Holds k (if k = key then _ else m k) (logOf (_ :: st.log) k)
    rw [logOf_cons, hkey']
    by_cases hk : k = key
    · subst hk
      rw [if_pos rfl, if_pos rfl]
      by_cases hh : keepsHistory k = true
      · rw [if_pos hh]
        refine ⟨by rw [List.getLast?_concat]; rfl, fun o ho => ?_, fun _ e he => ?_⟩
        · rcases List.mem_append.1 ho with ho | ho
          · obtain ⟨e, he, heq⟩ := (hmem k).known o ho
            exact ⟨e, List.mem_cons_of_mem _ he, heq⟩
          · exact ⟨_, List.mem_cons_self, (List.mem_singleton.1 ho).symm⟩
        · rcases List.mem_cons.1 he with rfl | he
          · exact List.mem_append_right _ (List.mem_singleton.2 rfl)
          · exact List.mem_append_left _ ((hmem k).history hh e he)
      · rw [if_neg hh]
        exact ⟨rfl, fun o ho => ⟨_, List.mem_cons_self, (List.mem_singleton.1 ho).symm⟩, fun h => absurd h hh⟩
    · rw [if_neg hk, if_neg (fun h => hk h.symm)]
      exact hmem k

/-! ## Runs -/

theorem inv_runCall {st : State} (h : Inv digest P st) {m : Memory} (hm : m ∈ st.memory) (fate : Fate) {c : Call}
    (hkey : isObjectKey c.key = true → P c.key) : Inv digest P (runCall digest st m fate c).1 := by
  cases c with
  | create key contents =>
    rw [runCall]
    split
    · exact h
    next hvalidKey =>
      rw [Bool.not_eq_true', Bool.not_eq_false] at hvalidKey
      split
      · exact h
      · exact inv_appendVersion hhex hdistinct hvalid h hm (hkey hvalidKey) contents fate
  | swap key expectedETag contents =>
    rw [runCall]
    split
    · exact h
    next hvalidKey =>
      rw [Bool.not_eq_true', Bool.not_eq_false] at hvalidKey
      split
      · exact h
      split
      · exact h
      · exact inv_appendVersion hhex hdistinct hvalid h hm (hkey hvalidKey) contents fate

/-- The step lemma. -/
theorem inv_step {st : State} (h : Inv digest P st) (e : Event) (hkey : ∀ c fate, e = .call c fate → isObjectKey c.key = true → P c.key) :
    Inv digest P (step digest st e).1 := by
  cases e with
  | call c fate =>
    unfold step
    cases hm : st.memory with
    | none => exact h
    | some m => exact inv_runCall hhex hdistinct hvalid h hm fate (hkey c fate rfl)
  | crash => exact ⟨h.keys, h.numbered, h.names, h.files, h.newest, h.history, fun _ hm => (by cases hm)⟩
  | reopen kept survives => exact inv_reopen hhex hdistinct h kept survives

theorem inv_run {events : List Event} (hkeys : ∀ c fate, Event.call c fate ∈ events → isObjectKey c.key = true → P c.key) :
    Inv digest P (run digest events) := by
  suffices hrun : ∀ (events : List Event) {st : State},
      (∀ c fate, Event.call c fate ∈ events → isObjectKey c.key = true → P c.key) → Inv digest P st →
      Inv digest P (events.foldl (fun st e => (step digest st e).1) st) from
    hrun events hkeys (inv_initial digest P)
  intro events
  induction events with
  | nil => exact fun _ h => h
  | cons e rest ih =>
    intro st hkeys h
    refine ih (fun c fate hc => hkeys c fate (List.mem_cons_of_mem e hc)) ?_
    exact inv_step hhex hdistinct hvalid h e (fun c fate hc => hkeys c fate (hc ▸ List.mem_cons_self))

end Keys

/-! ## Answers and refusals -/

theorem step_refused (digest : Bytes → String) (st : State) (c : Call) : (step digest st (.call c .refused)).1 = st := by
  unfold step
  cases hm : st.memory with
  | none => rfl
  | some m =>
    cases c with
    | create key contents =>
      show (runCall digest st m .refused (.create key contents)).1 = st
      rw [runCall]
      split
      · rfl
      split <;> rfl
    | swap key expectedETag contents =>
      show (runCall digest st m .refused (.swap key expectedETag contents)).1 = st
      rw [runCall]
      split
      · rfl
      split
      · rfl
      split <;> rfl

/-- The versions whose writer was answered, newest first. -/
def answered (log : List Entry) : List Object := (log.filter (·.answered)).map (·.object)

/-- A step adds to the answered versions what it answers. -/
theorem answered_appendVersion (digest : Bytes → String) (st : State) (m : Memory) (key contents : Bytes) (fate : Fate) :
    answered (appendVersion digest st m key contents fate).1.log =
      match (appendVersion digest st m key contents fate).2 with
      | some (.ok o) => o :: answered st.log
      | _ => answered st.log := by
  cases fate <;> rfl

theorem answered_step (digest : Bytes → String) (st : State) (e : Event) :
    answered (step digest st e).1.log =
      match (step digest st e).2 with
      | some (.ok o) => o :: answered st.log
      | _ => answered st.log := by
  cases e with
  | crash => rfl
  | reopen kept survives => rfl
  | call c fate =>
    unfold step
    cases hm : st.memory with
    | none => rfl
    | some m =>
      cases c with
      | create key contents =>
        dsimp only
        rw [runCall]
        split
        · rfl
        split
        · rfl
        · exact answered_appendVersion digest st m key contents fate
      | swap key expectedETag contents =>
        dsimp only
        rw [runCall]
        split
        · rfl
        cases (m key).getLast? with
        | none => rfl
        | some last =>
          dsimp only
          split
          · rfl
          · exact answered_appendVersion digest st m key contents fate

theorem answered_run (digest : Bytes → String) (events : List Event) : ∀ st : State,
    answered (events.foldl (fun st e => (step digest st e).1) st).log = (answers digest st events).reverse ++ answered st.log := by
  induction events with
  | nil => exact fun _ => rfl
  | cons e rest ih =>
    intro st
    rw [List.foldl_cons, ih, answered_step, answers]
    cases (step digest st e).2 with
    | none => rfl
    | some result =>
      cases result with
      | error err => rfl
      | ok o =>
        dsimp only
        rw [List.reverse_cons, List.append_assoc, List.singleton_append]

/-! ## Recovery -/

/-- **What a run of the store leaves**, over its log of persisted versions: the versions that were answered are among them,
the current object of a key is its last one, numbers grow and tags do not return, versions of a configuration stay, and a
refused persist changes nothing. -/
structure Recovers (digest : Bytes → String) (events : List Event) : Prop where
  answered : answered (run digest events).log = (answers digest initial events).reverse
  current  : ∀ m ∈ (run digest events).memory, ∀ key, isObjectKey key = true →
    readObject m key "" =
      match (logOf (run digest events).log key).head? with
      | some e => .ok e.object
      | none => .error .notFound
  numbers  : ∀ key, (logOf (run digest events).log key).Pairwise
    (fun newer older => versionNumber older.object.version < versionNumber newer.object.version)
  etags    : ∀ key, (logOf (run digest events).log key).Pairwise (fun newer older => older.object.etag ≠ newer.object.etag)
  history  : ∀ m ∈ (run digest events).memory, ∀ e ∈ (run digest events).log, keepsHistory e.object.key = true →
    readObject m e.object.key e.object.version = .ok e.object
  refused  : ∀ c, (step digest (run digest events) (.call c .refused)).1 = run digest events

theorem read_current {m : Memory} {key : Bytes} {entries : List Entry} (hkey : isObjectKey key = true)
    (h : Holds key (m key) entries) :
    readObject m key "" =
      match entries.head? with
      | some e => .ok e.object
      | none => .error .notFound := by
  have hlast := h.last
  have hvalid : (!isObjectKey key) = false := by rw [hkey]; rfl
  rw [readObject, hvalid]
  cases hm : m key with
  | nil =>
    rw [h.eq_nil_iff.1 hm]
    rfl
  | cons o rest =>
    rw [hm, List.getLast?_eq_some_getLast (List.cons_ne_nil o rest)] at hlast
    cases he : entries.head? with
    | none =>
      rw [he] at hlast
      cases hlast
    | some e =>
      rw [he] at hlast
      show Except.ok ((o :: rest).getLast _) = Except.ok e.object
      rw [Option.some.inj hlast]

/-- An exact version is read when no other version in memory has its number. -/
theorem read_exact {m : Memory} {o : Object} (hkey : isObjectKey o.key = true) (hv : o.version ≠ "") (hmem : o ∈ m o.key)
    (hunique : ∀ o' ∈ m o.key, o'.version = o.version → o' = o) : readObject m o.key o.version = .ok o := by
  have hvalid : (!isObjectKey o.key) = false := by rw [hkey]; rfl
  rw [readObject, hvalid]
  cases hm : m o.key with
  | nil =>
    rw [hm] at hmem
    cases hmem
  | cons first rest =>
    rw [hm] at hmem hunique
    show (if o.version = "" then _ else _) = _
    rw [if_neg hv]
    cases hfind : (first :: rest).find? (fun o' => o'.version == o.version) with
    | none => exact absurd (beq_self_eq_true o.version) (List.find?_eq_none.1 hfind o hmem)
    | some found =>
      have hfound := List.find?_some hfind
      show Except.ok found = Except.ok o
      rw [hunique found (List.mem_of_find?_eq_some hfind) (beq_iff_eq.1 hfound)]

theorem repr_ne_empty (n : Nat) : n.repr ≠ "" := by
  intro h
  have hl := congrArg String.toList h
  rw [Nat.toList_repr] at hl
  exact Nat.toDigits_ne_nil hl

/-- The tags of a key end in their version numbers. -/
theorem etags_distinct {digest : Bytes → String} (hhex : ∀ text, '-' ∉ (digest text).toList) {log : List Entry}
    (h : Numbered digest log) (key : Bytes) :
    (logOf log key).Pairwise (fun newer older => older.object.etag ≠ newer.object.etag) := by
  refine (h.increasing key).imp_of_mem (fun {newer older} hnew hold hlt heq => ?_)
  obtain ⟨ht, -⟩ := h.mem newer (mem_logOf.1 hnew).1
  obtain ⟨ht', -⟩ := h.mem older (mem_logOf.1 hold).1
  rw [ht, ht'] at heq
  rw [(digest_dash hhex heq).2] at hlt
  exact Nat.lt_irrefl _ hlt

def keysOf (events : List Event) : List Bytes :=
  events.filterMap (fun e => match e with
    | .call c _ => if isObjectKey c.key then some c.key else none
    | _ => none)

theorem mem_keysOf {events : List Event} {c : Call} {fate : Fate} (h : Event.call c fate ∈ events)
    (hkey : isObjectKey c.key = true) : c.key ∈ keysOf events :=
  List.mem_filterMap.2 ⟨_, h, if_pos hkey⟩

theorem isObjectKey_of_mem_keysOf {events : List Event} {key : Bytes} (h : key ∈ keysOf events) : isObjectKey key = true := by
  obtain ⟨e, -, he⟩ := List.mem_filterMap.1 h
  cases e with
  | call c fate =>
    dsimp only at he
    split at he
    next hk =>
      cases he
      exact hk
    · cases he
  | crash => cases he
  | reopen kept survives => cases he

/-- **The store recovers in every run whose object keys are well-formed texts.**  Digests are hexadecimal, and those of the
keys are distinct. -/
theorem store_recovers (digest : Bytes → String) (events : List Event) (hhex : ∀ text, '-' ∉ (digest text).toList)
    (hdistinct : ∀ k ∈ keysOf events, ∀ k' ∈ keysOf events, digest k = digest k' → k = k')
    (hvalid : ∀ k ∈ keysOf events, isValid k = true) : Recovers digest events := by
  have h : Inv digest (· ∈ keysOf events) (run digest events) :=
    inv_run hhex (fun k k' hk hk' => hdistinct k hk k' hk') hvalid (fun c fate hc hk => mem_keysOf hc hk)
  refine ⟨?_, fun m hm key hkey => read_current hkey (h.memory m hm key), h.numbered.increasing,
    etags_distinct hhex h.numbered, fun m hm e he hh => ?_, step_refused digest _⟩
  · have := answered_run digest events initial
    rwa [show answered initial.log = [] from rfl, List.append_nil] at this
  · have hholds := h.memory m hm e.object.key
    obtain ⟨-, n, hn, -⟩ := h.numbered.mem e he
    refine read_exact (isObjectKey_of_mem_keysOf (h.keys e he)) (by rw [hn]; exact repr_ne_empty n)
      (hholds.history hh e (mem_logOf.2 ⟨he, rfl⟩)) (fun o' ho' hv => ?_)
    obtain ⟨e', he', rfl⟩ := hholds.known o' ho'
    obtain ⟨hmem, hkey⟩ := mem_logOf.1 he'
    rw [h.numbered.unique hmem he hkey hv]

/-- A digest that names its text. -/
def hexText (text : Bytes) : String :=
  String.ofList (text.flatMap (fun b => [Nat.digitChar (b.toNat / 16), Nat.digitChar (b.toNat % 16)]))

theorem digitChar_ne_dash : ∀ n : Fin 16, Nat.digitChar n ≠ '-' := by decide

theorem hexText_dash (text : Bytes) : '-' ∉ (hexText text).toList := by
  rw [hexText, String.toList_ofList, List.mem_flatMap]
  rintro ⟨b, -, hb⟩
  have hlt := b.toNat_lt
  rcases List.mem_cons.1 hb with h | h
  · exact digitChar_ne_dash ⟨b.toNat / 16, by omega⟩ h.symm
  · exact digitChar_ne_dash ⟨b.toNat % 16, by omega⟩ (List.mem_singleton.1 h).symm

/-- A write of a head that dies before its answer, a load, and a write after it. -/
def sampleRun : List Event :=
  [.call (.create (ascii "a/head") [1]) (.done (fun _ => false)),
    .call (.swap (ascii "a/head") "01-1" [2]) (.crashedAfter (fun _ => true)), .reopen (fun _ => true) true,
    .call (.swap (ascii "a/head") "02-2" [3]) (.done (fun _ => false))]

theorem store_recovers_sample : Recovers hexText sampleRun :=
  store_recovers hexText sampleRun hexText_dash (by decide) (by decide)

/-- **A key that is not well-formed UTF-8 is lost by a crash**: its file is loaded under another key. -/
theorem key_lost : ¬ Recovers hexText
    [.call (.create [0x61, 0xFF] [1]) (.done (fun _ => false)), .crash, .reopen (fun _ => false) true] := by
  intro h
  have hread := h.current _ rfl [0x61, 0xFF] (by decide)
  revert hread
  decide +kernel

end LocalStore
end Dex
