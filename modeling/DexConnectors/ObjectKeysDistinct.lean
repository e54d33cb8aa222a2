import DexConnectors.ObjectKeys
/-!
# ObjectKeysDistinct — object keys are valid and unambiguous (`sdkgo/projectconfig`)

The segments of a key are letters, digits, `-` and `_`, and there are few and short enough for the bound of the store.  They
determine what the key identifies.
-/
namespace Dex
namespace ObjectKeys

open Lib Lib.Utf8 ConfigStore

/-! ## The segments of a valid key -/

theorem isSegment_of_decide {text : List Char} (h : (text != [] && text.all isKeyCharacter) = true) : IsSegment text := by
  simp only [Bool.and_eq_true, bne_iff_ne, List.all_eq_true] at h
  exact ⟨h.1, h.2⟩

theorem connection_segments {key : ConnectionKey} (h : Connections.isConnectionKey key = true) :
    (IsSegment key.connectorID.toList ∧ key.connectorID.toList.length ≤ 63) ∧
      IsSegment (Connections.base64URL key.connectionName) ∧ (Connections.base64URL key.connectionName).length ≤ 342 := by
  unfold Connections.isConnectionKey at h
  simp only [Bool.and_eq_true, bne_iff_ne, decide_eq_true_eq] at h
  exact ⟨isSegment_connectorID h.1.1.1.1, isSegment_base64URL (fun hnil => h.1.1.2 (by rw [hnil]; rfl)) h.1.2⟩

theorem name_segment {name : Bytes} (h : isTriggerInboxName name = true) :
    IsSegment (Connections.base64URL name) ∧ (Connections.base64URL name).length ≤ 342 := by
  unfold isTriggerInboxName at h
  simp only [Bool.and_eq_true, bne_iff_ne, decide_eq_true_eq] at h
  exact isSegment_base64URL h.1.1.2 h.1.2

theorem triggerInbox_segments {key : TriggerInboxKey} (h : isTriggerInboxKey key = true) :
    (IsSegment key.connectorID.toList ∧ key.connectorID.toList.length ≤ 63) ∧
      (IsSegment (Connections.base64URL key.connectionName) ∧ (Connections.base64URL key.connectionName).length ≤ 342) ∧
      (IsSegment key.triggerName.toList ∧ key.triggerName.toList.length ≤ 63) ∧
      IsSegment (Connections.base64URL key.bindingName) ∧ (Connections.base64URL key.bindingName).length ≤ 342 := by
  unfold isTriggerInboxKey at h
  simp only [Bool.and_eq_true, List.all_cons, List.all_nil, Bool.and_true] at h
  exact ⟨isSegment_connectorID h.1.1, name_segment h.2.1, isSegment_triggerName h.1.2, name_segment h.2.2⟩

/-- The segments of what is identified, and the room they take with their slashes. -/
theorem ObjectKey.segments_spec {key : ObjectKey} (h : key.isValid = true) :
    (∀ segment ∈ key.segments, IsSegment segment) ∧ (key.segments.map (fun segment => segment.length + 1)).sum ≤ 850 := by
  cases key with
  | connectionHead key =>
    obtain ⟨⟨hid, hidLength⟩, hname, hnameLength⟩ := connection_segments h
    simp only [ObjectKey.segments, List.forall_mem_cons, List.map_cons, List.sum_cons, List.map_nil, List.sum_nil]
    refine ⟨⟨isSegment_of_decide (by decide), hid, hname, isSegment_of_decide (by decide), fun _ h => by cases h⟩, ?_⟩
    simp only [show "connections".toList.length = 11 from by decide, show "head".toList.length = 4 from by decide]
    omega
  | credential key digest =>
    obtain ⟨hkey, hdigest⟩ := Bool.and_eq_true_iff.1 h
    obtain ⟨⟨hid, hidLength⟩, hname, hnameLength⟩ := connection_segments hkey
    obtain ⟨hlength, hhex⟩ := Bool.and_eq_true_iff.1 hdigest
    have hlength := eq_of_beq hlength
    simp only [ObjectKey.segments, List.forall_mem_cons, List.map_cons, List.sum_cons, List.map_nil, List.sum_nil]
    refine ⟨⟨isSegment_of_decide (by decide), hid, hname, isSegment_of_decide (by decide), isSegment_hex hlength hhex,
      fun _ h => by cases h⟩, ?_⟩
    simp only [show "connections".toList.length = 11 from by decide, show "credentials".toList.length = 11 from by decide]
    omega
  | exchangeResult key attemptID =>
    obtain ⟨hkey, hattempt⟩ := Bool.and_eq_true_iff.1 h
    obtain ⟨⟨hid, hidLength⟩, hname, hnameLength⟩ := connection_segments hkey
    obtain ⟨hsegment, hlength⟩ := isSegment_projectID hattempt
    simp only [ObjectKey.segments, List.forall_mem_cons, List.map_cons, List.sum_cons, List.map_nil, List.sum_nil]
    refine ⟨⟨isSegment_of_decide (by decide), hid, hname, isSegment_of_decide (by decide), hsegment, fun _ h => by cases h⟩, ?_⟩
    simp only [show "connections".toList.length = 11 from by decide, show "exchange-results".toList.length = 16 from by decide]
    omega
  | triggerInbox key =>
    obtain ⟨⟨hid, hidLength⟩, ⟨hname, hnameLength⟩, ⟨htrigger, htriggerLength⟩, hbinding, hbindingLength⟩ := triggerInbox_segments h
    simp only [ObjectKey.segments, List.forall_mem_cons, List.map_cons, List.sum_cons, List.map_nil, List.sum_nil]
    refine ⟨⟨isSegment_of_decide (by decide), hid, hname, htrigger, hbinding, isSegment_of_decide (by decide),
      fun _ h => by cases h⟩, ?_⟩
    simp only [show "trigger-inboxes".toList.length = 15 from by decide, show "head".toList.length = 4 from by decide]
    omega
  | applicationSecret name identifier =>
    obtain ⟨hname, hidentifier⟩ := Bool.and_eq_true_iff.1 h
    obtain ⟨hsegment, hlength⟩ := isSegment_environmentName hname
    obtain ⟨hcount, hhex⟩ := Bool.and_eq_true_iff.1 hidentifier
    have hcount := eq_of_beq hcount
    simp only [ObjectKey.segments, List.forall_mem_cons, List.map_cons, List.sum_cons, List.map_nil, List.sum_nil]
    refine ⟨⟨isSegment_of_decide (by decide), hsegment, isSegment_hex hcount hhex, fun _ h => by cases h⟩, ?_⟩
    simp only [show "app-secrets".toList.length = 11 from by decide]
    omega
  | configuration =>
    simp only [ObjectKey.segments, List.forall_mem_cons]
    exact ⟨⟨isSegment_of_decide (by decide), isSegment_of_decide (by decide), fun _ h => by cases h⟩, by decide⟩

theorem ScopedKey.segments_spec (k : ScopedKey) :
    (∀ segment ∈ k.segments, IsSegment segment) ∧ (k.segments.map (fun segment => segment.length + 1)).sum ≤ 1024 := by
  obtain ⟨hproject, hkind, -⟩ := scopePrefix_ok k.isScope
  obtain ⟨hprojectID, hprojectLength⟩ := isSegment_projectID hproject
  obtain ⟨hkind, hkindLength⟩ := isSegment_kind hkind
  obtain ⟨hsegments, hlength⟩ := ObjectKey.segments_spec k.isValid
  simp only [ScopedKey.segments, List.forall_mem_cons, List.map_cons, List.sum_cons]
  refine ⟨⟨isSegment_of_decide (by decide), hprojectID, hkind, hsegments⟩, ?_⟩
  simp only [show "projects".toList.length = 8 from by decide]
  omega

theorem ScopedKey.segments_ne_nil (k : ScopedKey) : k.segments ≠ [] := List.cons_ne_nil _ _

theorem not_slash_of_isKeyCharacter {c : Char} (h : isKeyCharacter c = true) : c ≠ '/' := by
  rintro rfl
  revert h
  decide

theorem ScopedKey.plain (k : ScopedKey) : Segments.Plain '/' k.segments := fun segment hsegment hslash =>
  not_slash_of_isKeyCharacter ((k.segments_spec.1 segment hsegment).characters '/' hslash) rfl

/-! ## `validateObjectKey` -/

def byteOf (c : Char) : UInt8 := c.toNat.toUInt8

theorem toNat_byteOf {c : Char} (h : isKeyCharacter c = true) : (byteOf c).toNat = c.toNat ∧
    0x2D ≤ c.toNat ∧ c.toNat ≠ 0x2E ∧ c.toNat ≠ 0x2F ∧ c.toNat ≠ 0x5C := by
  have hrange : 0x2D ≤ c.toNat ∧ c.toNat < 0x7B ∧ c.toNat ≠ 0x2E ∧ c.toNat ≠ 0x2F ∧ c.toNat ≠ 0x5C := by
    unfold isKeyCharacter isAlphanumeric isLowerLetter isUpperLetter isDecimal at h
    simp only [Bool.or_eq_true, Bool.and_eq_true, decide_eq_true_eq, beq_iff_eq, Char.le_def, UInt32.le_iff_toNat_le] at h
    unfold Char.toNat
    rcases h with (((h | h) | h) | rfl) | rfl
    · have h1 : 97 ≤ c.val.toNat := h.1
      have h2 : c.val.toNat ≤ 122 := h.2
      omega
    · have h1 : 65 ≤ c.val.toNat := h.1
      have h2 : c.val.toNat ≤ 90 := h.2
      omega
    · have h1 : 48 ≤ c.val.toNat := h.1
      have h2 : c.val.toNat ≤ 57 := h.2
      omega
    · decide
    · decide
  refine ⟨?_, hrange.1, hrange.2.2.1, hrange.2.2.2.1, hrange.2.2.2.2⟩
  show c.toNat % 2 ^ 8 = c.toNat
  exact Nat.mod_eq_of_lt (Nat.lt_trans hrange.2.1 (by decide))

theorem byteOf_ne {c : Char} (h : isKeyCharacter c = true) (n : Nat) (hn : n < 256) (hne : c.toNat ≠ n) : byteOf c ≠ n.toUInt8 := by
  intro heq
  have := congrArg UInt8.toNat heq
  rw [(toNat_byteOf h).1] at this
  exact hne (this.trans (Nat.mod_eq_of_lt hn))

theorem map_join (f : Char → UInt8) : ∀ segments : List (List Char),
    (['/'].intercalate segments).map f = [f '/'].intercalate (segments.map (List.map f))
  | [] => rfl
  | [segment] => by rw [List.intercalate_singleton, List.map_singleton, List.intercalate_singleton]
  | segment :: next :: segments => by
    rw [List.intercalate_cons_cons, List.map_append, List.map_append, map_join f (next :: segments)]
    exact List.intercalate_cons_cons.symm

theorem splitAtSlash_eq : ∀ key : Bytes, LocalStore.splitAtSlash key = key.splitOn 0x2F
  | [] => rfl
  | b :: key => by
    rw [List.splitOn_cons_eq_if_modifyHead, LocalStore.splitAtSlash, splitAtSlash_eq key]
    by_cases hb : b = 0x2F
    · rw [if_pos hb, if_pos (by rw [hb]; rfl)]
    · rw [if_neg hb, if_neg (by simpa using hb)]
      cases hsplit : key.splitOn 0x2F with
      | nil => exact absurd hsplit (List.splitOn_ne_nil 0x2F key)
      | cons segment more => rfl

theorem length_join : ∀ segments : List (List Char), segments ≠ [] →
    (['/'].intercalate segments).length + 1 = (segments.map (fun segment => segment.length + 1)).sum
  | [], h => absurd rfl h
  | [segment], _ => by simp
  | segment :: next :: segments, _ => by
    have ih := length_join (next :: segments) (List.cons_ne_nil next segments)
    rw [List.intercalate_cons_cons, List.map_cons, List.sum_cons, ← ih]
    simp
    omega

/-- The bytes of a segment. -/
theorem segment_bytes {segment : List Char} (h : IsSegment segment) : segment.map byteOf ≠ [] ∧
    (∀ b ∈ segment.map byteOf, b ≠ 0x2F ∧ b ≠ 0x2E ∧ b ≠ 0x5C ∧ b ≠ 0 ∧ b ≠ 0x0D ∧ b ≠ 0x0A) := by
  refine ⟨fun hnil => h.ne_nil (List.map_eq_nil_iff.1 hnil), fun b hb => ?_⟩
  obtain ⟨c, hc, rfl⟩ := List.mem_map.1 hb
  have hkey := h.characters c hc
  obtain ⟨-, hlow, hdot, hslash, hback⟩ := toNat_byteOf hkey
  exact ⟨byteOf_ne hkey 0x2F (by decide) hslash, byteOf_ne hkey 0x2E (by decide) hdot, byteOf_ne hkey 0x5C (by decide) hback,
    byteOf_ne hkey 0 (by decide) (by omega), byteOf_ne hkey 0x0D (by decide) (by omega), byteOf_ne hkey 0x0A (by decide) (by omega)⟩

theorem mem_join {b : UInt8} : ∀ {segments : List Bytes}, b ∈ [0x2F].intercalate segments → b = 0x2F ∨ ∃ segment ∈ segments, b ∈ segment
  | [], h => by cases h
  | [segment], h => by
    rw [List.intercalate_singleton] at h
    exact .inr ⟨segment, List.mem_cons_self, h⟩
  | segment :: next :: segments, h => by
    rw [List.intercalate_cons_cons, List.mem_append, List.mem_append, List.mem_singleton] at h
    rcases h with (h | h) | h
    · exact .inr ⟨segment, List.mem_cons_self, h⟩
    · exact .inl h
    · rcases mem_join h with h | ⟨other, hother, h⟩
      · exact .inl h
      · exact .inr ⟨other, List.mem_cons_of_mem segment hother, h⟩

/-- **A key is accepted** by `validateObjectKey`. -/
theorem isObjectKey_path (k : ScopedKey) : LocalStore.isObjectKey (ascii k.path) = true := by
  obtain ⟨hsegments, hlength⟩ := k.segments_spec
  have hascii : ascii k.path = [0x2F].intercalate (k.segments.map (List.map byteOf)) := by
    show k.path.toList.map byteOf = _
    rw [toList_path, map_join]
    rfl
  have hbytes : ∀ segment ∈ k.segments.map (List.map byteOf), segment ≠ [] ∧
      (∀ b ∈ segment, b ≠ 0x2F ∧ b ≠ 0x2E ∧ b ≠ 0x5C ∧ b ≠ 0 ∧ b ≠ 0x0D ∧ b ≠ 0x0A) := by
    intro segment hsegment
    obtain ⟨text, htext, rfl⟩ := List.mem_map.1 hsegment
    exact segment_bytes (hsegments text htext)
  have hne : k.segments.map (List.map byteOf) ≠ [] := fun h => k.segments_ne_nil (List.map_eq_nil_iff.1 h)
  have hsplit : LocalStore.splitAtSlash (ascii k.path) = k.segments.map (List.map byteOf) := by
    rw [splitAtSlash_eq, hascii]
    exact List.splitOn_intercalate 0x2F (fun segment hsegment hmem => ((hbytes segment hsegment).2 0x2F hmem).1 rfl) hne
  have hstart : ∃ rest, ascii k.path = 0x70 :: rest := by
    rw [hascii]
    exact ⟨_, rfl⟩
  have hcount : (ascii k.path).length ≤ 1024 := by
    have hjoin := length_join k.segments k.segments_ne_nil
    rw [← toList_path] at hjoin
    show (k.path.toList.map byteOf).length ≤ 1024
    rw [List.length_map]
    omega
  unfold LocalStore.isObjectKey
  rw [hsplit]
  simp only [Bool.and_eq_true, decide_eq_true_eq, List.all_eq_true, bne_iff_ne, ne_eq]
  obtain ⟨rest, hrest⟩ := hstart
  refine ⟨⟨⟨⟨by rw [hrest]; exact List.cons_ne_nil _ _, hcount⟩, by rw [hrest]; exact fun h => absurd (Option.some.inj h) (by decide)⟩, fun b hb => ?_⟩, fun segment hsegment => ?_⟩
  · rw [hascii] at hb
    rcases mem_join hb with rfl | ⟨segment, hsegment, hmem⟩
    · decide
    · obtain ⟨-, -, h1, h2, h3, h4⟩ := (hbytes segment hsegment).2 b hmem
      exact ⟨⟨⟨h1, h2⟩, h3⟩, h4⟩
  · obtain ⟨hnil, hall⟩ := hbytes segment hsegment
    refine ⟨⟨hnil, ?_⟩, ?_⟩
    · rintro rfl
      exact (hall 0x2E List.mem_cons_self).2.1 rfl
    · rintro rfl
      exact (hall 0x2E List.mem_cons_self).2.1 rfl

/-! ## What a key says -/

theorem ObjectKey.segments_injective {a b : ObjectKey} (h : a.segments = b.segments) : a = b := by
  have hname : ∀ {x y : ConnectionKey}, x.connectorID.toList = y.connectorID.toList →
      Connections.base64URL x.connectionName = Connections.base64URL y.connectionName → x = y := by
    intro x y hid hname
    cases x
    cases y
    rw [Connections.ConnectionKey.mk.injEq]
    exact ⟨String.toList_injective hid, base64URL_injective hname⟩
  cases a with
  | connectionHead x =>
    cases b <;> simp only [ObjectKey.segments, List.cons.injEq] at h
    case connectionHead y => rw [hname h.2.1 h.2.2.1]
    case configuration => exact absurd h.1 (by decide)
    all_goals first | exact absurd h.1 (by decide) | exact absurd h.2.2.2.2 (by simp)
  | credential x digest =>
    cases b <;> simp only [ObjectKey.segments, List.cons.injEq] at h
    case credential y digest' => rw [hname h.2.1 h.2.2.1, String.toList_injective h.2.2.2.2.1]
    case exchangeResult => exact absurd h.2.2.2.1 (by decide)
    all_goals first | exact absurd h.1 (by decide) | exact absurd h.2.2.2.2 (by simp)
  | exchangeResult x attemptID =>
    cases b <;> simp only [ObjectKey.segments, List.cons.injEq] at h
    case exchangeResult y attemptID' => rw [hname h.2.1 h.2.2.1, String.toList_injective h.2.2.2.2.1]
    case credential => exact absurd h.2.2.2.1 (by decide)
    all_goals first | exact absurd h.1 (by decide) | exact absurd h.2.2.2.2 (by simp)
  | triggerInbox x =>
    cases b <;> simp only [ObjectKey.segments, List.cons.injEq] at h
    case triggerInbox y =>
      cases x
      cases y
      rw [ObjectKey.triggerInbox.injEq, TriggerInboxKey.mk.injEq]
      exact ⟨String.toList_injective h.2.1, base64URL_injective h.2.2.1, String.toList_injective h.2.2.2.1, base64URL_injective h.2.2.2.2.1⟩
    all_goals exact absurd h.1 (by decide)
  | applicationSecret name identifier =>
    cases b <;> simp only [ObjectKey.segments, List.cons.injEq] at h
    case applicationSecret => rw [String.toList_injective h.2.1, String.toList_injective h.2.2.1]
    all_goals exact absurd h.1 (by decide)
  | configuration =>
    cases b <;> simp only [ObjectKey.segments, List.cons.injEq] at h
    case configuration => rfl
    all_goals exact absurd h.1 (by decide)

theorem ScopedKey.path_injective {a b : ScopedKey} (h : a.path = b.path) : a = b := by
  have hsegments : a.segments = b.segments :=
    Segments.join_injective a.plain b.plain a.segments_ne_nil b.segments_ne_nil (by rw [← toList_path, ← toList_path, h])
  unfold ScopedKey.segments at hsegments
  simp only [List.cons.injEq, true_and] at hsegments
  obtain ⟨hproject, hkind, hkey⟩ := hsegments
  obtain ⟨-, -, hpath⟩ := scopePrefix_ok a.isScope
  obtain ⟨-, -, hpath'⟩ := scopePrefix_ok b.isScope
  have hscope : a.scope = b.scope := by
    cases ha : a.scope
    cases hb : b.scope
    rw [ha, hb] at hproject hkind
    rw [Wire.Scope.mk.injEq]
    exact ⟨String.toList_injective hproject, String.toList_injective hkind⟩
  have hscopePath : a.scopePath = b.scopePath := by rw [hpath, hpath', hscope]
  have hkeys := ObjectKey.segments_injective hkey
  cases a
  cases b
  rw [ScopedKey.mk.injEq]
  exact ⟨hscope, hscopePath, hkeys⟩

/-- **Object keys are valid**, and two of them are equal only when they identify the same object of the same scope. -/
theorem object_keys_unambiguous (a b : ScopedKey) :
    LocalStore.isObjectKey (ascii a.path) = true ∧ LocalStore.isObjectKey (ascii b.path) = true ∧ (a.path = b.path ↔ a = b) :=
  ⟨isObjectKey_path a, isObjectKey_path b, ScopedKey.path_injective, congrArg ScopedKey.path⟩

end ObjectKeys
end Dex
