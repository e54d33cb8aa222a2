import DexConnectors.SchemaTransform
/-!
# SchemaInPlace — the transform of a schema in the heap

`copyJSONValue` makes a copy that owns its cells (`copyJSONValue_owned`), and `doTransformSchemaNode` edits a node within the cells
that it owns (`doTransformSchemaNode_edits`).  So the result holds what `providerSchema` says, and every cell that was there
before is as it was (`transformSchemaForProvider_spec`).
-/
namespace Dex
namespace Textgen

open Lib Lib.Utf8 Lib.Json Lib.Heap

/-! ## A node -/

section Edit

variable {R : Nat → Nat → Value → Tree → Prop} {encode : Value → Option Bytes} {lo hi : Nat}

theorem moveKeywords_chain (hmono : ∀ l l' r value tree, l' ≤ l → R l r value tree → R l' r value tree)
    (hencode : ∀ l r value tree, R l r value tree → encode value = marshal tree) :
    ∀ (moved : List Bytes) {entries : List (Bytes × Value)} {members : Members}, Chain R lo hi entries members →
      (moveKeywords encode moved entries).1 = (moveKeywords marshal moved members).1 ∧
        Chain R lo hi (moveKeywords encode moved entries).2 (moveKeywords marshal moved members).2
  | [], _, _, h => ⟨rfl, h⟩
  | keyword :: moved, entries, members, h => by
    have hsame : (lookup entries keyword).bind encode = (lookup members keyword).bind marshal := by
      rcases h.lookup_cases keyword with ⟨he, hm⟩ | ⟨value, tree, l, r, he, hm, hR⟩
      · rw [he, hm]
        rfl
      · rw [he, hm]
        exact hencode l r value tree hR
    rw [moveKeywords, moveKeywords, hsame]
    cases (lookup members keyword).bind marshal with
    | none => exact moveKeywords_chain hmono hencode moved h
    | some encoded =>
      obtain ⟨hfirst, hchain⟩ := moveKeywords_chain hmono hencode moved (h.deleted hmono keyword)
      exact ⟨congrArg _ hfirst, hchain⟩

theorem foldl_delete_chain (hmono : ∀ l l' r value tree, l' ≤ l → R l r value tree → R l' r value tree) :
    ∀ (removed : List Bytes) {entries : List (Bytes × Value)} {members : Members}, Chain R lo hi entries members →
      Chain R lo hi (removed.foldl delete entries) (removed.foldl delete members)
  | [], _, _, h => h
  | keyword :: removed, _, _, h => foldl_delete_chain hmono removed (h.deleted hmono keyword)

theorem editNode_chain (hmono : ∀ l l' r value tree, l' ≤ l → R l r value tree → R l' r value tree)
    (hencode : ∀ l r value tree, R l r value tree → encode value = marshal tree)
    (htext : ∀ l r value tree, R l r value tree → textAt value = textOf tree)
    (hstring : ∀ l text, l ≤ hi → R l hi (.string text) (.string text)) (moved removed : List Bytes)
    {entries : List (Bytes × Value)} {members : Members} (h : Chain R lo hi entries members) :
    Chain R lo hi (editNode encode textAt .string moved removed entries) (editNode marshal textOf .string moved removed members) := by
  obtain ⟨hfirst, hchain⟩ := moveKeywords_chain hmono hencode moved h
  have hdescribe : ∀ constraints, describe textAt (moveKeywords encode moved entries).2 constraints =
      describe textOf (moveKeywords marshal moved members).2 constraints := by
    intro constraints
    unfold describe
    rcases hchain.lookup_cases (ascii "description") with ⟨he, hm⟩ | ⟨value, tree, l, r, he, hm, hR⟩
    · rw [he, hm]
      rfl
    · rw [he, hm, Option.bind_some, Option.bind_some, htext l r value tree hR]
  unfold editNode
  refine foldl_delete_chain hmono removed ?_
  rw [hfirst, hdescribe]
  split
  · exact hchain
  · exact hchain.set hmono (fun l hl => hstring l _ hl)

variable {V : Type} {encodeV : V → Option Bytes} {textV : V → Option Bytes} {ofText : Bytes → V}

theorem nodup_moveKeywords : ∀ (moved : List Bytes) {entries : List (Bytes × V)}, (entries.map Prod.fst).Nodup →
    ((moveKeywords encodeV moved entries).2.map Prod.fst).Nodup
  | [], _, h => h
  | keyword :: moved, entries, h => by
    rw [moveKeywords]
    split
    · exact nodup_moveKeywords moved h
    · exact nodup_moveKeywords moved (nodup_delete h keyword)

theorem nodup_foldl_delete : ∀ (removed : List Bytes) {entries : List (Bytes × V)}, (entries.map Prod.fst).Nodup →
    ((removed.foldl delete entries).map Prod.fst).Nodup
  | [], _, h => h
  | keyword :: removed, _, h => nodup_foldl_delete removed (nodup_delete h keyword)

theorem nodup_editNode (moved removed : List Bytes) {entries : List (Bytes × V)} (h : (entries.map Prod.fst).Nodup) :
    ((editNode encodeV textV ofText moved removed entries).map Prod.fst).Nodup := by
  unfold editNode
  refine nodup_foldl_delete removed ?_
  split
  · exact nodup_moveKeywords moved h
  · exact nodup_set (nodup_moveKeywords moved h) _ _

end Edit

/-! ## In place -/

/-- Nothing changes outside a range of addresses. -/
def SameOutside (cells cells' : Cells) (lo hi : Nat) : Prop := ∀ x, (x < lo ∨ hi ≤ x) → cells'[x]? = cells[x]?

/-- A function that edits a node in place as `f` does. -/
def Edits (k : Nat) (transform : Cells → Nat → Option Cells) (f : Members → Members) : Prop :=
  ∀ {cells lo hi address node}, Owned cells k lo hi (.map address) (.object node) →
    ∃ cells', transform cells address = some cells' ∧ SameOutside cells cells' lo hi ∧
      Owned cells' k lo hi (.map address) (.object (f node))

theorem Edits.each {k : Nat} {transform : Cells → Nat → Option Cells} {f : Members → Members} (h : Edits k transform f) :
    ∀ {entries : List (Bytes × Value)} {members : Members} {cells : Cells} {lo hi : Nat},
      Chain (Owned cells k) lo hi entries members →
      ∃ cells', transformEach transform cells entries = some cells' ∧ SameOutside cells cells' lo hi ∧
        Chain (Owned cells' k) lo hi entries (members.map (fun p => (p.1, weakenTree f p.2)))
  | [], _, cells, lo, hi, hchain => by
    cases hchain with
    | nil hle => exact ⟨cells, rfl, fun _ _ => rfl, .nil hle⟩
  | (name, value) :: entries, _, cells, lo, hi, .cons hhead hle hrest => by
    rename_i mid tree members
    have hcontinue : ∀ cells₁ tree', SameOutside cells cells₁ lo mid → Owned cells₁ k lo mid value tree' →
        ∃ cells', transformEach transform cells₁ entries = some cells' ∧ SameOutside cells cells' lo hi ∧
          Chain (Owned cells' k) lo hi ((name, value) :: entries)
            ((name, tree') :: members.map (fun p => (p.1, weakenTree f p.2))) := by
      intro cells₁ tree' hsame howned
      have hrest' : Chain (Owned cells₁ k) mid hi entries members :=
        hrest.imp fun l r v t hl _ ht => ht.frame fun x hx _ => hsame x (.inr (Nat.le_trans hl hx))
      obtain ⟨cells', hrun, hsame', hchain⟩ := h.each hrest'
      refine ⟨cells', hrun, fun x hx => ?_, .cons ?_ hle hchain⟩
      · rw [hsame' x (hx.imp (fun h => Nat.lt_of_lt_of_le h hle) id), hsame x (hx.imp id (Nat.le_trans hrest.le))]
      · exact howned.frame fun x _ hx => hsame' x (.inl hx)
    cases value with
    | map address =>
      have htree : ∃ node, tree = .object node := by
        cases k with
        | zero => cases hhead.2
        | succ k =>
          rcases hhead with h | ⟨_, _, members, _, rfl, _⟩ | ⟨_, _, _, h, _⟩
          · cases h.2
          · exact ⟨members, rfl⟩
          · cases h
      obtain ⟨node, rfl⟩ := htree
      obtain ⟨cells₁, hrun, hsame, howned⟩ := h hhead
      obtain ⟨cells', hrest', hsame', hchain⟩ := hcontinue cells₁ _ hsame howned
      exact ⟨cells', by rw [transformEach, hrun]; exact hrest', hsame', hchain⟩
    | null | bool | number | string | slice =>
      have htree : weakenTree f tree = tree := by
        cases k with
        | zero =>
          have hs := hhead.2
          cases hs
          all_goals rfl
        | succ k =>
          rcases hhead with h | ⟨_, _, _, h, _⟩ | ⟨_, _, trees, _, rfl, _⟩
          · have hs := h.2
            cases hs
            all_goals rfl
          · cases h
          · rfl
      obtain ⟨cells', hrest', hsame', hchain⟩ := hcontinue cells _ (fun _ _ => rfl) hhead
      refine ⟨cells', ?_, hsame', ?_⟩
      · exact hrest'
      · rw [List.map_cons, htree]
        exact hchain

/-- The parts of a node that stand below one of its keywords are edited, and the others stay. -/
theorem Edits.part {k : Nat} {f : Tree → Tree} {transform : Cells → Option Value → Option Cells} {cells : Cells} {lo hi : Nat}
    {entries : List (Bytes × Value)} {members : Members} (hnodup : (entries.map Prod.fst).Nodup) (keyword : Bytes)
    (hnone : ∀ cells, transform cells none = some cells)
    (hsome : ∀ {l r value tree}, Owned cells k l r value tree → ∃ cells', transform cells (some value) = some cells' ∧
      SameOutside cells cells' l r ∧ Owned cells' k l r value (f tree))
    (h : Chain (Owned cells k) lo hi entries members) :
    ∃ cells', transform cells (lookup entries keyword) = some cells' ∧ SameOutside cells cells' lo hi ∧
      Chain (Owned cells' k) lo hi entries (update members keyword f) := by
  cases hvalue : lookup entries keyword with
  | none =>
    refine ⟨cells, hnone cells, fun _ _ => rfl, ?_⟩
    rw [update_of_lookup_none (h.lookup_none hvalue)]
    exact h
  | some value =>
    obtain ⟨l, r, tree, hl, hr, -, howned, hchange⟩ := h.focus hnodup hvalue
    obtain ⟨cells', hrun, hsame, hnew⟩ := hsome howned
    refine ⟨cells', hrun, fun x hx => hsame x (hx.imp (fun h => Nat.lt_of_lt_of_le h hl) (Nat.le_trans hr)), hchange hnew ?_⟩
    intro a b v t hout ht
    exact ht.frame fun x hax hxb => hsame x (hout.imp (Nat.lt_of_lt_of_le hxb) (fun h => Nat.le_trans h hax))

theorem Edits.properties {k : Nat} {transform : Cells → Nat → Option Cells} {f : Members → Members}
    (h : ∀ j ≤ k, Edits j transform f) {cells : Cells} {l r : Nat} {value : Value} {tree : Tree}
    (howned : Owned cells k l r value tree) :
    ∃ cells', transformProperties transform cells (some value) = some cells' ∧ SameOutside cells cells' l r ∧
      Owned cells' k l r value (weakenProperties f tree) := by
  have hscalar : ∀ {n}, l ≤ r → scalar value = some tree → Owned cells n l r value (weakenProperties f tree) ∧
      transformProperties transform cells (some value) = some cells := by
    intro n hle hs
    cases value with
    | map | slice => cases hs
    | null | bool | number | string =>
      cases hs
      exact ⟨.of_scalar rfl hle, rfl⟩
  cases k with
  | zero =>
    obtain ⟨hnew, hrun⟩ := @hscalar 0 howned.1 howned.2
    exact ⟨cells, hrun, fun _ _ => rfl, hnew⟩
  | succ k =>
    rcases howned with hs | ⟨address, entries, members, rfl, rfl, hcell, hnodup, hlt, hchain⟩ | ⟨address, items, trees, rfl, rfl, hcell, hlt, hchain⟩
    · obtain ⟨hnew, hrun⟩ := @hscalar (k + 1) hs.1 hs.2
      exact ⟨cells, hrun, fun _ _ => rfl, hnew⟩
    · obtain ⟨cells', hrun, hsame, hnew⟩ := Edits.each (h k (Nat.le_succ k)) hchain
      refine ⟨cells', ?_, fun x hx => hsame x (hx.imp id (Nat.le_trans hlt.le)), ?_⟩
      · unfold transformProperties
        dsimp only
        rw [hcell]
        exact hrun
      · exact .inr (.inl ⟨address, entries, _, rfl, rfl, (hsame address (.inr (Nat.le_refl _))).trans hcell, hnodup, hlt, hnew⟩)
    · exact ⟨cells, rfl, fun _ _ => rfl, .inr (.inr ⟨address, items, trees, rfl, rfl, hcell, hlt, hchain⟩)⟩

theorem Edits.items {k : Nat} {transform : Cells → Nat → Option Cells} {f : Members → Members} (h : Edits k transform f)
    {cells : Cells} {l r : Nat} {value : Value} {tree : Tree} (howned : Owned cells k l r value tree) :
    ∃ cells', transformItems transform cells (some value) = some cells' ∧ SameOutside cells cells' l r ∧
      Owned cells' k l r value (weakenTree f tree) := by
  have hscalar : ∀ {n}, l ≤ r → scalar value = some tree → Owned cells n l r value (weakenTree f tree) ∧
      transformItems transform cells (some value) = some cells := by
    intro n hle hs
    cases value with
    | map | slice => cases hs
    | null | bool | number | string =>
      cases hs
      exact ⟨.of_scalar rfl hle, rfl⟩
  cases k with
  | zero =>
    obtain ⟨hnew, hrun⟩ := @hscalar 0 howned.1 howned.2
    exact ⟨cells, hrun, fun _ _ => rfl, hnew⟩
  | succ k =>
    rcases howned with hs | ⟨address, entries, members, rfl, rfl, hrest⟩ | ⟨address, items, trees, rfl, rfl, hrest⟩
    · obtain ⟨hnew, hrun⟩ := @hscalar (k + 1) hs.1 hs.2
      exact ⟨cells, hrun, fun _ _ => rfl, hnew⟩
    · exact h (.inr (.inl ⟨address, entries, members, rfl, rfl, hrest⟩))
    · exact ⟨cells, rfl, fun _ _ => rfl, .inr (.inr ⟨address, items, trees, rfl, rfl, hrest⟩)⟩

theorem textAt_of_owned {cells : Cells} {n l r : Nat} {value : Value} {tree : Tree} (h : Owned cells n l r value tree) :
    textAt value = textOf tree := by
  have hscalar : scalar value = some tree → textAt value = textOf tree := by
    intro hs
    cases value with
    | map | slice => cases hs
    | null | bool | number | string =>
      cases hs
      rfl
  cases n with
  | zero => exact hscalar h.2
  | succ n =>
    rcases h with h | ⟨_, _, _, rfl, rfl, _⟩ | ⟨_, _, _, rfl, rfl, _⟩
    · exact hscalar h.2
    · rfl
    · rfl

/-- **`doTransformSchemaNode` edits the node in place** as `weaken` says. -/
theorem doTransformSchemaNode_edits (moved removed : List Bytes) : ∀ {n k : Nat}, k ≤ n →
    Edits k (doTransformSchemaNode moved removed n) (weaken moved removed n) := by
  intro n
  induction n with
  | zero =>
    intro k hk cells lo hi address node howned
    cases Nat.le_zero.1 hk
    cases howned.2
  | succ n ih =>
    intro k hk cells lo hi address node howned
    cases k with
    | zero => cases howned.2
    | succ k =>
      have hkn : k ≤ n := Nat.le_of_succ_le_succ hk
      rcases howned with h | ⟨_, entries, members, heq, hnode, hcell, hnodup, hlt, hchain⟩ | ⟨_, _, _, h, _⟩
      · cases h.2
      · cases heq
        cases hnode
        let edited := editNode (marshalAt n cells) textAt .string moved removed entries
        have hedit : Chain (Owned cells k) lo address edited (editNode marshal textOf .string moved removed node) :=
          editNode_chain Owned.mono_left (fun l r value tree h => by rw [marshalAt, (h.up hkn).treeAt]; rfl)
            (fun l r value tree h => textAt_of_owned h) (fun l text hle => .of_scalar rfl hle) moved removed hchain
        have hnodupEdit : (edited.map Prod.fst).Nodup := nodup_editNode moved removed hnodup
        have haddress := (List.getElem?_eq_some_iff.1 hcell).1
        have hset : SameOutside cells (cells.set address (.map edited)) address (address + 1) :=
          fun x hx => List.getElem?_set_ne (by omega)
        have hedit' : Chain (Owned (cells.set address (.map edited)) k) lo address edited
            (editNode marshal textOf .string moved removed node) :=
          hedit.imp fun l r value tree _ hr h => h.frame fun x _ hx => hset x (.inl (by omega))
        obtain ⟨cells₁, hrun₁, hsame₁, hchain₁⟩ := @Edits.part k (weakenProperties (weaken moved removed n))
          (transformProperties (doTransformSchemaNode moved removed n)) _ _ _ _ _ hnodupEdit (ascii "properties")
          (fun _ => rfl) (Edits.properties (fun j hj => ih (Nat.le_trans hj hkn))) hedit'
        obtain ⟨cells₂, hrun₂, hsame₂, hchain₂⟩ := @Edits.part k (weakenTree (weaken moved removed n))
          (transformItems (doTransformSchemaNode moved removed n)) _ _ _ _ _ hnodupEdit (ascii "items")
          (fun _ => rfl) (Edits.items (ih hkn)) hchain₁
        refine ⟨cells₂, ?_, fun x hx => ?_, .inr (.inl ⟨address, _, _, rfl, rfl, ?_, hnodupEdit, hlt, hchain₂⟩)⟩
        · rw [doTransformSchemaNode, hcell]
          dsimp only
          rw [hrun₁]
          exact hrun₂
        · have hle := hchain.le
          rw [hsame₂ x (by omega), hsame₁ x (by omega), hset x (by omega)]
        · rw [hsame₂ address (.inr (Nat.le_refl _)), hsame₁ address (.inr (Nat.le_refl _)), List.getElem?_set_self haddress]
      · cases h

/-! ## The copy -/

/-- A map holds a key once. -/
def UniqueKeys (cells : Cells) : Prop :=
  ∀ (address : Nat) (entries : List (Bytes × Value)), cells[address]? = some (.map entries) → (entries.map Prod.fst).Nodup

theorem UniqueKeys.push {cells : Cells} {cell : Cell} (h : UniqueKeys cells)
    (hcell : ∀ entries, cell = Cell.map entries → (entries.map Prod.fst).Nodup) : UniqueKeys (cells ++ [cell]) := by
  intro address entries hget
  rcases Nat.lt_or_ge address cells.length with hlt | hge
  · rw [List.getElem?_append_left hlt] at hget
    exact h address entries hget
  · rw [List.getElem?_append_right hge, List.getElem?_singleton] at hget
    split at hget
    · exact hcell entries (Option.some.inj hget)
    · cases hget

theorem UniqueKeys.set {cells : Cells} {address : Nat} {entries : List (Bytes × Value)} (h : UniqueKeys cells)
    (hentries : (entries.map Prod.fst).Nodup) : UniqueKeys (cells.set address (.map entries)) := by
  intro x others hget
  rw [List.getElem?_set] at hget
  split at hget
  · split at hget
    · cases hget
      exact hentries
    · cases hget
  · exact h x others hget

theorem UniqueKeys.transformEach {transform : Cells → Nat → Option Cells}
    (htransform : ∀ {cells address cells'}, transform cells address = some cells' → UniqueKeys cells → UniqueKeys cells')
    {entries : List (Bytes × Value)} {cells cells' : Cells} (h : transformEach transform cells entries = some cells')
    (hunique : UniqueKeys cells) : UniqueKeys cells' := by
  induction entries generalizing cells with
  | nil =>
    cases h
    exact hunique
  | cons entry rest ih =>
    obtain ⟨name, value⟩ := entry
    cases value with
    | map address =>
      rw [Textgen.transformEach] at h
      split at h
      · cases h
      next hrun => exact ih h (htransform hrun hunique)
    | null | bool | number | string | slice => exact ih h hunique

/-- The edits in place keep keys unique. -/
theorem UniqueKeys.transformed (moved removed : List Bytes) : ∀ {n : Nat} {cells cells' : Cells} {address : Nat},
    doTransformSchemaNode moved removed n cells address = some cells' → UniqueKeys cells → UniqueKeys cells'
  | 0, _, _, _, h, _ => by cases h
  | n + 1, cells, cells', address, h, hunique => by
    rw [doTransformSchemaNode] at h
    split at h
    next entries hentries =>
      have hset : UniqueKeys (cells.set address (.map (editNode (marshalAt n cells) textAt .string moved removed entries))) :=
        hunique.set (nodup_editNode moved removed (hunique address entries hentries))
      dsimp only at h
      split at h
      · cases h
      next cells₁ hproperties =>
        have hunique₁ : UniqueKeys cells₁ := by
          unfold transformProperties at hproperties
          split at hproperties
          · split at hproperties
            · exact UniqueKeys.transformEach (UniqueKeys.transformed moved removed) hproperties hset
            · cases hproperties
          · cases hproperties
            exact hset
        unfold transformItems at h
        split at h
        · exact UniqueKeys.transformed moved removed h hunique₁
        · cases h
          exact hunique₁
    · cases h

theorem copyEach_owned {n : Nat} (hcopy : ∀ {cells value tree}, treeAt n cells value = some tree → UniqueKeys cells →
      ∃ more copied, copyJSONValue n cells value = some (cells ++ more, copied) ∧ UniqueKeys (cells ++ more) ∧
        Owned (cells ++ more) n cells.length (cells ++ more).length copied tree) :
    ∀ {entries : List (Bytes × Value)} {members : Members} {cells : Cells}, readEach (treeAt n cells) entries = some members →
      UniqueKeys cells →
      ∃ more copied, copyEach (copyJSONValue n) cells entries = some (cells ++ more, copied) ∧
        copied.map Prod.fst = entries.map Prod.fst ∧ UniqueKeys (cells ++ more) ∧
        Chain (Owned (cells ++ more) n) cells.length (cells ++ more).length copied members
  | [], _, cells, h, hunique => by
    cases h
    exact ⟨[], [], by rw [List.append_nil]; rfl, rfl, by rwa [List.append_nil], .nil (by rw [List.append_nil])⟩
  | (name, value) :: rest, _, cells, h, hunique => by
    rw [readEach] at h
    split at h
    next tree members htree hmembers =>
      cases h
      obtain ⟨more, copied, hrun, hunique', howned⟩ := hcopy htree hunique
      obtain ⟨more', others, hrest, hnames, hunique'', hchain⟩ :=
        copyEach_owned hcopy (readEach_imp treeAt_append hmembers) hunique'
      rw [List.append_assoc] at hrest hunique'' hchain
      refine ⟨more ++ more', (name, copied) :: others, ?_, ?_, hunique'', ?_⟩
      · rw [copyEach, hrun]
        dsimp only
        rw [hrest]
        rfl
      · rw [List.map_cons, List.map_cons, hnames]
      · refine .cons (howned.frame fun x _ hx => ?_) howned.le hchain
        rw [← List.append_assoc, List.getElem?_append_left hx]
    · cases h

/-- **The copy holds the same, in cells of its own.** -/
theorem copyJSONValue_owned {n : Nat} : ∀ {cells : Cells} {value : Value} {tree : Tree}, treeAt n cells value = some tree →
    UniqueKeys cells →
    ∃ more copied, copyJSONValue n cells value = some (cells ++ more, copied) ∧ UniqueKeys (cells ++ more) ∧
      Owned (cells ++ more) n cells.length (cells ++ more).length copied tree := by
  induction n with
  | zero =>
    intro cells value tree h hunique
    refine ⟨[], value, ?_, by rwa [List.append_nil], by rw [List.append_nil], h⟩
    rw [copyJSONValue, show scalar value = some tree from h, List.append_nil]
    rfl
  | succ n ih =>
    intro cells value tree h hunique
    have hself : scalar value = some tree → copyJSONValue (n + 1) cells value = some (cells, value) →
        ∃ more copied, copyJSONValue (n + 1) cells value = some (cells ++ more, copied) ∧ UniqueKeys (cells ++ more) ∧
          Owned (cells ++ more) (n + 1) cells.length (cells ++ more).length copied tree := fun hs hrun =>
      ⟨[], value, by rw [List.append_nil]; exact hrun, by rwa [List.append_nil], .of_scalar hs (by rw [List.append_nil])⟩
    cases value with
    | null | bool | number | string => exact hself h rfl
    | map address =>
      rw [treeAt] at h
      split at h
      next entries hentries =>
        obtain ⟨members, hmembers, rfl⟩ := Option.map_eq_some_iff.1 h
        obtain ⟨more, copied, hrun, hnames, hunique', hchain⟩ := copyEach_owned ih hmembers hunique
        have hnodup : (copied.map Prod.fst).Nodup := hnames ▸ hunique address entries hentries
        refine ⟨more ++ [.map copied], .map (cells ++ more).length, ?_, ?_, ?_⟩
        · rw [copyJSONValue, hentries]
          dsimp only
          rw [hrun, ← List.append_assoc]
          rfl
        · rw [← List.append_assoc]
          exact hunique'.push fun entries heq => by cases heq; exact hnodup
        · rw [← List.append_assoc]
          refine .inr (.inl ⟨_, copied, members, rfl, rfl, List.getElem?_concat_length, hnodup, ?_, ?_⟩)
          · simp only [List.length_append, List.length_singleton, Nat.lt_succ_self]
          · exact hchain.imp fun l r v t _ hr h => h.frame fun x _ hx =>
              List.getElem?_append_left (Nat.lt_of_lt_of_le hx hr)
      · cases h
    | slice address =>
      rw [treeAt] at h
      split at h
      next items hitems =>
        obtain ⟨members, hmembers, rfl⟩ := Option.map_eq_some_iff.1 h
        obtain ⟨more, copied, hrun, hnames, hunique', hchain⟩ := copyEach_owned ih hmembers hunique
        have hunnamed : ∀ name ∈ (unnamed items).map Prod.fst, name = [] := names_unnamed items
        have hmembersNames : ∀ name ∈ members.map Prod.fst, name = [] := by
          rw [names_of_readEach hmembers]
          exact hunnamed
        refine ⟨more ++ [.slice (copied.map Prod.snd)], .slice (cells ++ more).length, ?_, ?_, ?_⟩
        · rw [copyJSONValue, hitems]
          dsimp only
          rw [hrun, ← List.append_assoc]
          rfl
        · rw [← List.append_assoc]
          exact hunique'.push fun entries heq => (by cases heq)
        · rw [← List.append_assoc]
          refine .inr (.inr ⟨_, copied.map Prod.snd, members.map Prod.snd, rfl, rfl, List.getElem?_concat_length, ?_, ?_⟩)
          · simp only [List.length_append, List.length_singleton, Nat.lt_succ_self]
          · rw [unnamed_of_names (hnames ▸ hunnamed), unnamed_of_names hmembersNames]
            exact hchain.imp fun l r v t _ hr h => h.frame fun x _ hx =>
              List.getElem?_append_left (Nat.lt_of_lt_of_le hx hr)
      · cases h

/-- The schema that a provider is sent. -/
def providerSchema (n : Nat) (rules : StructuredOutputRules) (schema : Members) : Members :=
  if rules.keywordsMovedToDescription = [] ∧ rules.keywordsRemoved = [] then schema
  else weaken (sortedUnique rules.keywordsMovedToDescription) (sortedUnique rules.keywordsRemoved) n schema

/-- **The transform returns a map that holds the weakened schema**, and no cell that there was has changed. -/
theorem transformSchemaForProvider_spec {n : Nat} (rules : StructuredOutputRules) {cells : Cells} {canonical : Nat}
    {schema : Members} (hholds : treeAt n cells (.map canonical) = some (.object schema)) (hunique : UniqueKeys cells) :
    ∃ cells' result, transformSchemaForProvider n rules cells canonical = some (cells', result) ∧
      (∀ x < cells.length, cells'[x]? = cells[x]?) ∧ UniqueKeys cells' ∧
      treeAt n cells' (.map result) = some (.object (providerSchema n rules schema)) := by
  unfold transformSchemaForProvider providerSchema
  split
  · exact ⟨cells, canonical, rfl, fun _ _ => rfl, hunique, hholds⟩
  · obtain ⟨more, copied, hcopy, hunique', howned⟩ := copyJSONValue_owned hholds hunique
    have hmap : ∃ address, copied = .map address := by
      cases n with
      | zero =>
        have hs := howned.2
        cases copied <;> cases hs
      | succ n =>
        rcases howned with h | ⟨address, _, _, rfl, _⟩ | ⟨_, _, _, _, h, _⟩
        · have hs := h.2
          cases copied <;> cases hs
        · exact ⟨address, rfl⟩
        · cases h
    obtain ⟨address, rfl⟩ := hmap
    obtain ⟨cells', hrun, hsame, howned'⟩ := doTransformSchemaNode_edits (sortedUnique rules.keywordsMovedToDescription)
      (sortedUnique rules.keywordsRemoved) (Nat.le_refl n) howned
    refine ⟨cells', address, ?_, fun x hx => ?_, hunique'.transformed _ _ hrun, howned'.treeAt⟩
    · rw [hcopy]
      dsimp only
      rw [hrun]
      rfl
    · rw [hsame x (.inl hx), List.getElem?_append_left hx]

end Textgen
end Dex
