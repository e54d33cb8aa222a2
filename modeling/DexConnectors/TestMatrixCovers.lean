import DexConnectors.TestMatrix
/-!
# TestMatrixCovers — every affected connector is tested, once (`cmd/connectorctl/test_matrix.go`)

The selection is the whole catalog, or the owners of the changed paths and the new connectors; the dependents close it under
requirements; the shards partition it.
-/
namespace Dex
namespace TestMatrix

open Lib Lib.Utf8

/-! ## Owners -/

/-- The longest of the directories that own the path. -/
structure IsOwner (directories : List Bytes) (changedPath directory : Bytes) : Prop where
  mem     : directory ∈ directories
  owns    : owns changedPath directory = true
  longest : ∀ other ∈ directories, TestMatrix.owns changedPath other = true → other.length ≤ directory.length

theorem prefix_of_owns {changedPath directory : Bytes} (h : owns changedPath directory = true) : directory <+: changedPath := by
  rcases Bool.or_eq_true_iff.1 h with h | h
  · exact eq_of_beq h ▸ List.prefix_refl changedPath
  · exact (List.prefix_append directory [0x2F]).trans (List.isPrefixOf_iff_prefix.1 h)

theorem IsOwner.unique {directories : List Bytes} {changedPath a b : Bytes} (ha : IsOwner directories changedPath a)
    (hb : IsOwner directories changedPath b) : a = b := by
  have hlength : a.length = b.length := Nat.le_antisymm (hb.longest a ha.mem ha.owns) (ha.longest b hb.mem hb.owns)
  exact (List.prefix_of_prefix_length_le (prefix_of_owns ha.owns) (prefix_of_owns hb.owns) (Nat.le_of_eq hlength)).eq_of_length hlength

theorem foldl_longest (changedPath : Bytes) : ∀ (directories : List Bytes) (matched : Bytes),
    let last := directories.foldl (fun matched directory =>
      if owns changedPath directory ∧ matched.length < directory.length then directory else matched) matched
    (last = matched ∨ last ∈ directories ∧ owns changedPath last = true) ∧ matched.length ≤ last.length ∧
      ∀ other ∈ directories, owns changedPath other = true → other.length ≤ last.length
  | [], matched => ⟨.inl rfl, Nat.le_refl _, fun other h => by cases h⟩
  | directory :: directories, matched => by
    rw [List.foldl_cons]
    by_cases h : owns changedPath directory ∧ matched.length < directory.length
    · rw [if_pos h]
      obtain ⟨hlast, hle, hall⟩ := foldl_longest changedPath directories directory
      refine ⟨.inr ?_, Nat.le_trans (Nat.le_of_lt h.2) hle, List.forall_mem_cons.2 ⟨fun _ => hle, hall⟩⟩
      rcases hlast with hlast | ⟨hmem, howns⟩
      · rw [hlast]
        exact ⟨List.mem_cons_self, h.1⟩
      · exact ⟨List.mem_cons_of_mem directory hmem, howns⟩
    · rw [if_neg h]
      obtain ⟨hlast, hle, hall⟩ := foldl_longest changedPath directories matched
      refine ⟨hlast.imp id (fun hmem => ⟨List.mem_cons_of_mem directory hmem.1, hmem.2⟩), hle,
        List.forall_mem_cons.2 ⟨fun howns => ?_, hall⟩⟩
      exact Nat.le_trans (Nat.le_of_not_lt fun hlt => h ⟨howns, hlt⟩) hle

/-- The search finds the owner, and nothing only where there is none. -/
theorem longestConnectorDirectoryPrefix_iff {directories : List Bytes} (hne : ∀ d ∈ directories, d ≠ []) (changedPath d : Bytes) :
    longestConnectorDirectoryPrefix directories changedPath ≠ [] ∧ d = longestConnectorDirectoryPrefix directories changedPath ↔
      IsOwner directories changedPath d := by
  obtain ⟨hlast, -, hall⟩ := foldl_longest changedPath directories []
  constructor
  · rintro ⟨hfound, rfl⟩
    obtain ⟨hmem, howns⟩ := hlast.resolve_left hfound
    exact ⟨hmem, howns, hall⟩
  · intro h
    have hfound : longestConnectorDirectoryPrefix directories changedPath ≠ [] := by
      intro hnil
      have hle := hall d h.mem h.owns
      unfold longestConnectorDirectoryPrefix at hnil
      rw [hnil] at hle
      exact hne d h.mem (List.length_eq_zero_iff.1 (Nat.le_zero.1 hle))
    obtain ⟨hmem, howns⟩ := hlast.resolve_left hfound
    exact ⟨hfound, h.unique ⟨hmem, howns, hall⟩⟩

theorem longest_eq_nil_iff {directories : List Bytes} (hne : ∀ d ∈ directories, d ≠ []) (changedPath : Bytes) :
    longestConnectorDirectoryPrefix directories changedPath = [] ↔ ∀ d ∈ directories, owns changedPath d = false := by
  obtain ⟨hlast, -, hall⟩ := foldl_longest changedPath directories []
  constructor
  · intro hnil d hd
    refine Bool.eq_false_iff.2 fun howns => hne d hd ?_
    have hle := hall d hd howns
    unfold longestConnectorDirectoryPrefix at hnil
    rw [hnil] at hle
    exact List.length_eq_zero_iff.1 (Nat.le_zero.1 hle)
  · intro hnone
    refine hlast.resolve_right fun h => ?_
    rw [hnone _ h.1] at h
    cases h.2

/-! ## What a valid catalog excludes -/

theorem ne_nil_of_valid {directory : Bytes} (h : validateConnectorDirectory directory = true) : directory ≠ [] := by
  unfold validateConnectorDirectory at h
  simp only [Bool.and_eq_true, bne_iff_ne] at h
  exact h.1.1.1.1.1

theorem slash_of_valid {directory : Bytes} (h : validateConnectorDirectory directory = true) : 0x2F ∈ directory := by
  unfold validateConnectorDirectory at h
  simp only [Bool.and_eq_true] at h
  exact (List.isPrefixOf_iff_prefix.1 h.1.1.2).subset (by decide)

variable (catalog : Catalog) (previous : List Bytes) (catalogPath : FileName)

theorem Catalog.ne_nil : ∀ d ∈ catalog.directories, d ≠ [] := fun d hd => ne_nil_of_valid (catalog.valid d hd)

theorem not_owns_fileName {directory : Bytes} (hd : directory ∈ catalog.directories) : owns catalogPath.path directory = false :=
  Bool.eq_false_iff.2 fun h => catalogPath.plain ((prefix_of_owns h).subset (slash_of_valid (catalog.valid directory hd)))

theorem not_conformance_fileName : isConformancePath catalogPath.path = false :=
  Bool.eq_false_iff.2 fun h => catalogPath.plain ((List.isPrefixOf_iff_prefix.1 h).subset (by decide))

/-! ## The selection -/

/-- The path whose owner a changed path selects: a conformance path stands for its connector. -/
def ownedPath (changedPath : Bytes) : Bytes := if isConformancePath changedPath then connectorPath changedPath else changedPath

/-- The changed path may affect every connector. -/
structure AffectsAll (changedPath : Bytes) : Prop where
  other       : changedPath ≠ catalogPath.path
  conformance : isConformancePath changedPath = false
  owned       : ∀ d ∈ catalog.directories, owns changedPath d = false
  connectors  : startsWith (ascii "connectors/") changedPath = false
  neutral     : isConnectorTestNeutralPath changedPath = false

/-- The changed path selects the connector. -/
def Selects (changedPath d : Bytes) : Prop :=
  IsOwner catalog.directories (ownedPath changedPath) d ∨
    changedPath = catalogPath.path ∧ d ∈ catalog.directories ∧ d ∉ previous

theorem foldl_add {d : Bytes} : ∀ (directories : List Bytes) (s : Selection),
    let last := directories.foldl (fun s directory => if previous.contains directory then s else s.add directory) s
    (d ∈ last.selected ↔ d ∈ s.selected ∨ d ∈ directories ∧ d ∉ previous) ∧ last.shouldSelectAll = s.shouldSelectAll
  | [], s => ⟨by simp, rfl⟩
  | directory :: directories, s => by
    rw [List.foldl_cons]
    by_cases h : previous.contains directory = true
    · rw [if_pos h]
      obtain ⟨hmem, hall⟩ := foldl_add directories s
      refine ⟨hmem.trans ⟨Or.imp_right fun h => ⟨List.mem_cons_of_mem directory h.1, h.2⟩, Or.imp_right fun h' => ?_⟩, hall⟩
      refine ⟨(List.mem_cons.1 h'.1).resolve_left ?_, h'.2⟩
      rintro rfl
      exact h'.2 (List.contains_iff_mem.1 h)
    · rw [if_neg h]
      obtain ⟨hmem, hall⟩ := foldl_add directories (s.add directory)
      refine ⟨hmem.trans ?_, hall⟩
      have hnew : directory ∉ previous := fun h' => h (List.contains_iff_mem.2 h')
      unfold Selection.add
      rw [List.mem_cons, List.mem_cons]
      constructor
      · rintro ((rfl | h) | h)
        · exact .inr ⟨.inl rfl, hnew⟩
        · exact .inl h
        · exact .inr ⟨.inr h.1, h.2⟩
      · rintro (h | ⟨rfl | h, h'⟩)
        · exact .inl (.inr h)
        · exact .inl (.inl rfl)
        · exact .inr ⟨h, h'⟩

theorem mem_add_iff (s : Selection) (d directory : Bytes) : d ∈ (s.add directory).selected ↔ d ∈ s.selected ∨ d = directory := by
  unfold Selection.add
  rw [List.mem_cons, or_comm]

/-- **What one changed path does.** -/
theorem takePath_spec (s : Selection) (changedPath d : Bytes) :
    let next := takePath catalog.directories previous catalogPath.path s changedPath
    (d ∈ next.selected ↔ d ∈ s.selected ∨ Selects catalog previous catalogPath changedPath d) ∧
      (next.shouldSelectAll = true ↔ s.shouldSelectAll = true ∨ AffectsAll catalog catalogPath changedPath) := by
  have hnil := longest_eq_nil_iff catalog.ne_nil
  have hiff := longestConnectorDirectoryPrefix_iff catalog.ne_nil
  dsimp only
  unfold takePath
  by_cases hconformance : isConformancePath changedPath = true
  · have hnot : ¬ AffectsAll catalog catalogPath changedPath := fun h => by
      rw [h.conformance] at hconformance
      cases hconformance
    have hother : changedPath ≠ catalogPath.path := by
      rintro rfl
      rw [not_conformance_fileName catalogPath] at hconformance
      cases hconformance
    unfold Selects ownedPath
    rw [if_pos hconformance, if_pos hconformance, ← hiff]
    by_cases hfound : longestConnectorDirectoryPrefix catalog.directories (connectorPath changedPath) ≠ []
    · rw [if_pos hfound, mem_add_iff]
      exact ⟨by simp [hfound, hother], by simp [hnot, Selection.add]⟩
    · rw [if_neg hfound]
      exact ⟨by simp [hfound, hother], by simp [hnot]⟩
  · rw [if_neg hconformance]
    have hplain : ownedPath changedPath = changedPath := if_neg hconformance
    unfold Selects
    rw [hplain]
    by_cases hcatalog : changedPath = catalogPath.path
    · have hnot : ¬ AffectsAll catalog catalogPath changedPath := fun h => h.other hcatalog
      have howner : ¬ IsOwner catalog.directories changedPath d := fun h => by
        have howns := h.owns
        rw [hcatalog, not_owns_fileName catalog catalogPath h.mem] at howns
        cases howns
      rw [if_pos hcatalog]
      obtain ⟨hmem, hall⟩ := foldl_add previous (d := d) catalog.directories s
      exact ⟨hmem.trans (by rw [or_iff_right howner, and_iff_right hcatalog]), by rw [hall, or_iff_left hnot]⟩
    · rw [if_neg hcatalog, ← hiff]
      by_cases hfound : longestConnectorDirectoryPrefix catalog.directories changedPath ≠ []
      · have hnot : ¬ AffectsAll catalog catalogPath changedPath := fun h => hfound ((hnil changedPath).2 h.owned)
        rw [if_pos hfound, mem_add_iff]
        exact ⟨by simp [hfound, hcatalog], by simp [hnot, Selection.add]⟩
      · rw [if_neg hfound]
        by_cases hneutral : (isConnectorTestNeutralPath changedPath || startsWith (ascii "connectors/") changedPath) = true
        · have hnot : ¬ AffectsAll catalog catalogPath changedPath := fun h => by
            rw [h.neutral, h.connectors] at hneutral
            cases hneutral
          rw [if_pos hneutral]
          exact ⟨by simp [hfound, hcatalog], by simp [hnot]⟩
        · have hall : AffectsAll catalog catalogPath changedPath := by
            simp only [Bool.or_eq_true, not_or, Bool.not_eq_true] at hneutral
            exact ⟨hcatalog, Bool.eq_false_iff.2 hconformance, (hnil changedPath).1 (not_not.1 hfound), hneutral.2, hneutral.1⟩
          rw [if_neg hneutral]
          exact ⟨by simp [hfound, hcatalog], by simp [hall]⟩

theorem foldl_takePath (d : Bytes) : ∀ (changedPaths : List Bytes) (s : Selection),
    let last := changedPaths.foldl (takePath catalog.directories previous catalogPath.path) s
    (d ∈ last.selected ↔ d ∈ s.selected ∨ ∃ path ∈ changedPaths, Selects catalog previous catalogPath path d) ∧
      (last.shouldSelectAll = true ↔ s.shouldSelectAll = true ∨ ∃ path ∈ changedPaths, AffectsAll catalog catalogPath path)
  | [], s => ⟨by simp, by simp⟩
  | path :: changedPaths, s => by
    obtain ⟨hmem, hall⟩ := takePath_spec catalog previous catalogPath s path d
    obtain ⟨hmems, halls⟩ := foldl_takePath d changedPaths (takePath catalog.directories previous catalogPath.path s path)
    rw [List.foldl_cons]
    exact ⟨by simp only [hmems, hmem, List.mem_cons, exists_eq_or_imp, or_assoc],
      by simp only [halls, hall, List.mem_cons, exists_eq_or_imp, or_assoc]⟩

/-- Some changed path may affect every connector. -/
def SelectsAll (changedPaths : List Bytes) : Prop := ∃ path ∈ changedPaths, AffectsAll catalog catalogPath path

theorem select_all {changedPaths : List Bytes} (h : SelectsAll catalog catalogPath changedPaths) :
    selectConnectorDirectoriesForPaths catalog.directories previous changedPaths catalogPath.path = catalog.directories :=
  if_pos ((foldl_takePath catalog previous catalogPath [] changedPaths ⟨[], false⟩).2.2 (.inr h))

theorem select_owners {changedPaths : List Bytes} (h : ¬ SelectsAll catalog catalogPath changedPaths) :
    (selectConnectorDirectoriesForPaths catalog.directories previous changedPaths catalogPath.path).Sublist catalog.directories ∧
      ∀ d, d ∈ selectConnectorDirectoriesForPaths catalog.directories previous changedPaths catalogPath.path ↔
        (∃ path ∈ changedPaths, IsOwner catalog.directories (ownedPath path) d) ∨
          catalogPath.path ∈ changedPaths ∧ d ∈ catalog.directories ∧ d ∉ previous := by
  have hall := (foldl_takePath catalog previous catalogPath [] changedPaths ⟨[], false⟩).2
  have hselect : selectConnectorDirectoriesForPaths catalog.directories previous changedPaths catalogPath.path = _ :=
    if_neg fun h' => h ((hall.1 h').resolve_left Bool.false_ne_true)
  rw [hselect]
  refine ⟨List.filter_sublist, fun d => ?_⟩
  rw [List.mem_filter, List.contains_iff_mem, (foldl_takePath catalog previous catalogPath d changedPaths ⟨[], false⟩).1]
  constructor
  · rintro ⟨-, hnil | ⟨path, hpath, howner | ⟨rfl, hnew⟩⟩⟩
    · cases hnil
    · exact .inl ⟨path, hpath, howner⟩
    · exact .inr ⟨hpath, hnew⟩
  · rintro (⟨path, hpath, howner⟩ | ⟨hpath, hmem, hnew⟩)
    · exact ⟨howner.mem, .inr ⟨path, hpath, .inl howner⟩⟩
    · exact ⟨hmem, .inr ⟨catalogPath.path, hpath, .inr ⟨rfl, hmem, hnew⟩⟩⟩

/-! ## Dependents -/

variable (requirements : Bytes → List Bytes)

/-- The connector's module requires the module of the other one. -/
def Requires (d dependency : Bytes) : Prop := modulePath dependency ∈ requirements d

/-- A set that holds every catalogued connector which requires one in it. -/
def Closed (P : Bytes → Prop) : Prop := ∀ d ∈ catalog.directories, ∀ dependency, P dependency → Requires requirements d dependency → P d

theorem requiresSelected_iff (s : List Bytes) (d : Bytes) :
    requiresSelected (ε := Empty) (fun d => .ok (requirements d)) s d = .ok true ↔
      ∃ dependency ∈ s, Requires requirements d dependency := by
  unfold requiresSelected Requires
  simp only [Except.map, Except.ok.injEq, List.any_eq_true, beq_iff_eq]
  constructor
  · rintro ⟨_, hmem, dependency, hdependency, rfl⟩
    exact ⟨dependency, hdependency, hmem⟩
  · rintro ⟨dependency, hdependency, hmem⟩
    exact ⟨_, hmem, dependency, hdependency, rfl⟩

/-- **The dependents are the least closed set** over the selected connectors. -/
theorem includeConnectorDependents_spec {selected : List Bytes} (hselected : selected.Sublist catalog.directories) :
    ∃ included, includeConnectorDependents (ε := Empty) (fun d => .ok (requirements d)) catalog.directories selected = .ok included ∧
      included.Sublist catalog.directories ∧ selected ⊆ included ∧ Closed catalog requirements (· ∈ included) ∧
      ∀ P : Bytes → Prop, Closed catalog requirements P → (∀ d ∈ selected, P d) → ∀ d ∈ included, P d := by
  unfold includeConnectorDependents
  by_cases hwhole : selected.length = 0 ∨ selected.length = catalog.directories.length
  · rw [if_pos hwhole]
    refine ⟨selected, rfl, hselected, List.Subset.refl selected, fun d hd dependency hdependency _ => ?_, fun P _ h => h⟩
    rcases hwhole with hnone | hall
    · rw [List.length_eq_zero_iff.1 hnone] at hdependency
      cases hdependency
    · rwa [hselected.eq_of_length hall]
  · rw [if_neg hwhole]
    obtain ⟨selectedSet, hset⟩ := @Saturate.saturate_ok _ Empty _ (requiresSelected (fun d => .ok (requirements d)))
      (fun _ _ => ⟨_, rfl⟩) catalog.directories selected
    obtain ⟨hsub, hclosed, hleast⟩ := Saturate.saturate_spec hset
    rw [hset]
    have hmem : ∀ d, d ∈ catalog.directories.filter (fun d => selectedSet.contains d) ↔ d ∈ catalog.directories ∧ d ∈ selectedSet := by
      intro d
      rw [List.mem_filter, List.contains_iff_mem]
    refine ⟨_, rfl, List.filter_sublist, fun d hd => (hmem d).2 ⟨hselected.subset hd, hsub hd⟩,
      fun d hd dependency hdependency hrequires => (hmem d).2 ⟨hd, ?_⟩, fun P hP hs d hd => ?_⟩
    · refine (hclosed d hd).resolve_right fun hnot => ?_
      have hpulled := (requiresSelected_iff requirements selectedSet d).2 ⟨dependency, ((hmem dependency).1 hdependency).2, hrequires⟩
      rw [hnot] at hpulled
      cases hpulled
    · refine hleast P (fun s hs d hd hpulled => ?_) hs d ((hmem d).1 hd).2
      obtain ⟨dependency, hdependency, hrequires⟩ := (requiresSelected_iff requirements s d).1 hpulled
      exact hP d hd dependency (hs dependency hdependency) hrequires

/-! ## Shards -/

variable (sum256 : Bytes → Bytes)

theorem mem_activeShards {directories : List Bytes} {shardCount index : Nat} :
    index ∈ activeShards sum256 directories shardCount ↔
      ∃ d ∈ directories, connectorTestShardIndex sum256 d shardCount = index := by
  unfold activeShards
  rw [List.mem_mergeSort, List.mem_dedup, List.mem_map]

theorem mem_directoriesInConnectorTestShard {directories : List Bytes} {d : Bytes} {shardIndex shardCount : Nat} :
    d ∈ directoriesInConnectorTestShard sum256 directories shardIndex shardCount ↔
      d ∈ directories ∧ connectorTestShardIndex sum256 d shardCount = shardIndex := by
  unfold directoriesInConnectorTestShard
  rw [List.mem_filter, beq_iff_eq]

theorem buildConnectorTestMatrix_nodup (directories : List Bytes) (maximumShards : Nat) :
    (buildConnectorTestMatrix sum256 directories maximumShards).Nodup := by
  unfold buildConnectorTestMatrix
  by_cases h : directories.length = 0
  · rw [if_pos h]
    exact List.nodup_nil
  · rw [if_neg h]
    refine List.Nodup.map (fun i j hij => congrArg ConnectorTestShard.index hij) ?_
    exact (List.mergeSort_perm _ _).nodup_iff.2 (List.nodup_dedup _)

/-- The emitted shards are the ones some directory is assigned to. -/
theorem mem_buildConnectorTestMatrix {directories : List Bytes} {maximumShards : Nat} {shard : ConnectorTestShard} :
    shard ∈ buildConnectorTestMatrix sum256 directories maximumShards ↔
      shard.count = min directories.length maximumShards ∧
        ∃ d, d ∈ directoriesInConnectorTestShard sum256 directories shard.index shard.count := by
  unfold buildConnectorTestMatrix
  by_cases h : directories.length = 0
  · rw [if_pos h, List.length_eq_zero_iff.1 h]
    simp [directoriesInConnectorTestShard]
  · rw [if_neg h]
    simp only [List.mem_map, mem_activeShards, mem_directoriesInConnectorTestShard]
    constructor
    · rintro ⟨index, ⟨d, hd, hindex⟩, rfl⟩
      exact ⟨rfl, d, hd, hindex⟩
    · rintro ⟨hcount, d, hd, hindex⟩
      exact ⟨shard.index, ⟨d, hd, hcount ▸ hindex⟩, by rw [← hcount]⟩

/-- **Every directory is in one emitted shard**, and no emitted shard is empty. -/
theorem shards_partition (directories : List Bytes) (maximumShards : Nat) :
    (∀ d ∈ directories, ∃! shard, shard ∈ buildConnectorTestMatrix sum256 directories maximumShards ∧
      d ∈ directoriesInConnectorTestShard sum256 directories shard.index shard.count) ∧
    (buildConnectorTestMatrix sum256 directories maximumShards).Nodup ∧
    ∀ shard ∈ buildConnectorTestMatrix sum256 directories maximumShards,
      directoriesInConnectorTestShard sum256 directories shard.index shard.count ≠ [] := by
  refine ⟨fun d hd => ?_, buildConnectorTestMatrix_nodup sum256 directories maximumShards, fun shard hshard => ?_⟩
  · let count := min directories.length maximumShards
    have hin : d ∈ directoriesInConnectorTestShard sum256 directories (connectorTestShardIndex sum256 d count) count :=
      (mem_directoriesInConnectorTestShard sum256).2 ⟨hd, rfl⟩
    refine ⟨⟨connectorTestShardIndex sum256 d count, count⟩, ⟨(mem_buildConnectorTestMatrix sum256).2 ⟨rfl, d, hin⟩, hin⟩, ?_⟩
    rintro shard ⟨hshard, hmem⟩
    have hcount := ((mem_buildConnectorTestMatrix sum256).1 hshard).1
    have hindex := ((mem_directoriesInConnectorTestShard sum256).1 hmem).2
    cases shard with
    | mk index shardCount =>
      dsimp only at hcount hindex
      rw [← hindex, hcount]
  · obtain ⟨-, d, hd⟩ := (mem_buildConnectorTestMatrix sum256).1 hshard
    exact List.ne_nil_of_mem hd

theorem index_lt_count {directories : List Bytes} {maximumShards : Nat} (hmax : 1 ≤ maximumShards) {shard : ConnectorTestShard}
    (h : shard ∈ buildConnectorTestMatrix sum256 directories maximumShards) : shard.index < shard.count := by
  obtain ⟨hcount, d, hd⟩ := (mem_buildConnectorTestMatrix sum256).1 h
  obtain ⟨hmem, hindex⟩ := (mem_directoriesInConnectorTestShard sum256).1 hd
  have hpos : 0 < shard.count := by
    rw [hcount]
    exact Nat.lt_min.2 ⟨List.length_pos_of_mem hmem, hmax⟩
  rw [← hindex]
  exact Nat.mod_lt _ hpos

/-! ## Every affected connector -/

/-- **Test selection covers every affected connector.** -/
theorem affected_connectors_tested (catalog : Catalog) (previous : List Bytes) (catalogPath : FileName) (changedPaths : List Bytes)
    (requirements : Bytes → List Bytes) (sum256 : Bytes → Bytes) (maximumShards : Nat) (hmax : 1 ≤ maximumShards) :
    let selected := selectConnectorDirectoriesForPaths catalog.directories previous changedPaths catalogPath.path
    (SelectsAll catalog catalogPath changedPaths → selected = catalog.directories) ∧
    (¬ SelectsAll catalog catalogPath changedPaths → selected.Sublist catalog.directories ∧
      ∀ d, d ∈ selected ↔ (∃ path ∈ changedPaths, IsOwner catalog.directories (ownedPath path) d) ∨
        catalogPath.path ∈ changedPaths ∧ d ∈ catalog.directories ∧ d ∉ previous) ∧
    ∃ included, includeConnectorDependents (ε := Empty) (fun d => .ok (requirements d)) catalog.directories selected = .ok included ∧
      included.Sublist catalog.directories ∧ selected ⊆ included ∧ Closed catalog requirements (· ∈ included) ∧
      (∀ P : Bytes → Prop, Closed catalog requirements P → (∀ d ∈ selected, P d) → ∀ d ∈ included, P d) ∧
      (∀ d ∈ included, ∃! shard, shard ∈ buildConnectorTestMatrix sum256 included maximumShards ∧
        d ∈ directoriesInConnectorTestShard sum256 included shard.index shard.count) ∧
      (buildConnectorTestMatrix sum256 included maximumShards).Nodup ∧
      ∀ shard ∈ buildConnectorTestMatrix sum256 included maximumShards, shard.index < shard.count ∧
        directoriesInConnectorTestShard sum256 included shard.index shard.count ≠ [] := by
  intro selected
  have hselected : selected.Sublist catalog.directories := by
    by_cases h : SelectsAll catalog catalogPath changedPaths
    · rw [show selected = catalog.directories from select_all catalog previous catalogPath h]
    · exact (select_owners catalog previous catalogPath h).1
  obtain ⟨included, hincluded, hsublist, hsub, hclosed, hleast⟩ := includeConnectorDependents_spec catalog requirements hselected
  obtain ⟨hone, hnodup, hnonempty⟩ := shards_partition sum256 included maximumShards
  exact ⟨select_all catalog previous catalogPath, select_owners catalog previous catalogPath, included, hincluded, hsublist, hsub,
    hclosed, hleast, hone, hnodup, fun shard hshard => ⟨index_lt_count sum256 hmax hshard, hnonempty shard hshard⟩⟩

/-- Two nested connectors, of which the inner one is required by the outer one. -/
def sampleCatalog : Catalog where
  directories := [ascii "connectors/acme", ascii "connectors/acme/chat"]
  valid := by decide
  nodup := by decide

theorem affected_connectors_tested_nested :
    ∃ included, includeConnectorDependents (ε := Empty) (fun d => .ok (if d = ascii "connectors/acme" then
        [modulePath (ascii "connectors/acme/chat")] else [])) sampleCatalog.directories
        (selectConnectorDirectoriesForPaths sampleCatalog.directories [] [ascii "connectors/acme/chat/client.go"] (ascii "catalog.yaml")) =
          .ok included ∧ included.Sublist sampleCatalog.directories ∧ ascii "connectors/acme/chat" ∈ included := by
  have h := affected_connectors_tested sampleCatalog [] ⟨ascii "catalog.yaml", by decide⟩ [ascii "connectors/acme/chat/client.go"]
    (fun d => if d = ascii "connectors/acme" then [modulePath (ascii "connectors/acme/chat")] else []) (fun _ => []) 256 (by decide)
  obtain ⟨-, -, included, hincluded, hsublist, hsub, -⟩ := h
  exact ⟨included, hincluded, hsublist, hsub (by decide)⟩

end TestMatrix
end Dex
