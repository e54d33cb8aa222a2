import DexConnectors.SchemaInPlace
import DexConnectors.TextgenAccept
/-!
# SchemaWeakens — what a provider's schema lacks

`Weakened` says what may differ between a schema and the one that a provider is sent.  An instance that `validateInstance` accepts
for the schema it accepts for the other (`validateInstance_weaken`).  `transformSchemaForProvider_weakens` puts this together
with what happens in the heap.
-/
namespace Dex
namespace Textgen

open Lib Lib.Utf8 Lib.Json Lib.Heap

mutual

/-- **What may differ between a node and the one a provider is sent**: the keywords that move and those that are removed are
gone, the constraints that moved are in the description, and the schemas of properties and items are weakened alike. -/
inductive Weakened (moved removed : List Bytes) : Members → Members → Prop
  | node {node result : Members}
      (same : ∀ keyword, keyword ∉ moved → keyword ∉ removed →
        keyword ∉ [ascii "description", ascii "properties", ascii "items"] → get result keyword = get node keyword)
      (gone : ∀ keyword, keyword ∈ moved ∨ keyword ∈ removed → get result keyword = none)
      (plain : (∀ keyword ∈ moved, get node keyword = none) →
        get result (ascii "description") = get node (ascii "description"))
      (described : ∀ keyword ∈ moved, ∀ value, get node keyword = some value → ∃ encoded description,
        marshal value = some encoded ∧ get result (ascii "description") = some (.string description) ∧
          (keyword ++ ascii ": " ++ encoded) <:+: description)
      (hasProperties : ∀ schemas, get node (ascii "properties") = some (.object schemas) →
        ∃ schemas', get result (ascii "properties") = some (.object schemas'))
      (properties : ∀ schemas schemas', get node (ascii "properties") = some (.object schemas) →
        get result (ascii "properties") = some (.object schemas') → WeakenedSchemas moved removed schemas schemas')
      (noProperties : (∀ schemas, get node (ascii "properties") ≠ some (.object schemas)) →
        get result (ascii "properties") = get node (ascii "properties"))
      (hasItems : (get result (ascii "items")).isSome = (get node (ascii "items")).isSome)
      (items : ∀ schema schema', get node (ascii "items") = some schema → get result (ascii "items") = some schema' →
        WeakenedSchema moved removed schema schema') :
      Weakened moved removed node result

inductive WeakenedSchema (moved removed : List Bytes) : Tree → Tree → Prop
  | node {node result : Members} (h : Weakened moved removed node result) :
      WeakenedSchema moved removed (.object node) (.object result)
  | other {tree : Tree} (h : ∀ node, tree ≠ .object node) : WeakenedSchema moved removed tree tree

/-- The schemas of properties, under the same names. -/
inductive WeakenedSchemas (moved removed : List Bytes) : Members → Members → Prop
  | nil : WeakenedSchemas moved removed [] []
  | cons {name : Bytes} {schema schema' : Tree} {rest rest' : Members} (h : WeakenedSchema moved removed schema schema')
      (hrest : WeakenedSchemas moved removed rest rest') :
      WeakenedSchemas moved removed ((name, schema) :: rest) ((name, schema') :: rest')

end

/-! ## A node -/

theorem get_eq_lookup (members : Members) (name : Bytes) : get members name = lookup members name := rfl

theorem mem_sortedUnique {values : List Bytes} {value : Bytes} : value ∈ sortedUnique values ↔ value ∈ values := by
  unfold sortedUnique
  rw [List.mem_mergeSort, List.mem_dedup]

section Move

theorem lookup_moveKeywords : ∀ (moved : List Bytes) (node : Members) (key : Bytes),
    lookup (moveKeywords marshal moved node).2 key =
      if key ∈ moved ∧ ((lookup node key).bind marshal).isSome = true then none else lookup node key
  | [], node, key => by rw [if_neg (fun h => by cases h.1)]; rfl
  | keyword :: moved, node, key => by
    rw [moveKeywords]
    cases hbind : (lookup node keyword).bind marshal with
    | none =>
      dsimp only
      rw [lookup_moveKeywords moved node key]
      by_cases hkey : key = keyword
      · subst hkey
        rw [hbind, if_neg (fun h => by cases h.2), if_neg (fun h => by cases h.2)]
      · simp only [List.mem_cons, hkey, false_or]
    | some encoded =>
      dsimp only
      rw [lookup_moveKeywords moved (delete node keyword) key, lookup_delete]
      by_cases hkey : key = keyword
      · subst hkey
        rw [if_pos rfl, hbind, if_neg (fun h => by cases h.2), if_pos ⟨List.mem_cons_self, rfl⟩]
      · simp only [List.mem_cons, hkey, false_or, if_false]

theorem lookup_foldl_delete : ∀ (removed : List Bytes) (node : Members) (key : Bytes),
    lookup (removed.foldl delete node) key = if key ∈ removed then none else lookup node key
  | [], node, key => rfl
  | keyword :: removed, node, key => by
    rw [List.foldl_cons, lookup_foldl_delete removed (delete node keyword) key, lookup_delete]
    by_cases hkey : key = keyword
    · subst hkey
      rw [if_pos rfl, if_pos List.mem_cons_self]
      split <;> rfl
    · simp only [List.mem_cons, hkey, false_or, if_false]

theorem mem_constraints : ∀ (moved : List Bytes) (node : Members), moved.Nodup → ∀ {constraint : Bytes},
    constraint ∈ (moveKeywords marshal moved node).1 ↔
      ∃ keyword ∈ moved, ∃ encoded, (lookup node keyword).bind marshal = some encoded ∧
        constraint = keyword ++ ascii ": " ++ encoded
  | [], node, _, constraint => ⟨fun h => (by cases h), fun ⟨_, h, _⟩ => (by cases h)⟩
  | keyword :: moved, node, hnodup, constraint => by
    rw [List.nodup_cons] at hnodup
    rw [moveKeywords]
    cases hbind : (lookup node keyword).bind marshal with
    | none =>
      dsimp only
      rw [mem_constraints moved node hnodup.2]
      constructor
      · rintro ⟨k, hk, h⟩
        exact ⟨k, List.mem_cons_of_mem _ hk, h⟩
      · rintro ⟨k, hk, encoded, hencoded, h⟩
        rcases List.mem_cons.1 hk with rfl | hk
        · rw [hbind] at hencoded
          cases hencoded
        · exact ⟨k, hk, encoded, hencoded, h⟩
    | some first =>
      dsimp only
      rw [List.mem_cons, mem_constraints moved (delete node keyword) hnodup.2]
      have hother : ∀ k ∈ moved, lookup (delete node keyword) k = lookup node k := fun k hk => by
        rw [lookup_delete, if_neg (fun heq => hnodup.1 (by rw [← heq]; exact hk))]
      constructor
      · rintro (rfl | ⟨k, hk, encoded, hencoded, h⟩)
        · exact ⟨keyword, List.mem_cons_self, first, hbind, rfl⟩
        · exact ⟨k, List.mem_cons_of_mem _ hk, encoded, by rw [← hother k hk]; exact hencoded, h⟩
      · rintro ⟨k, hk, encoded, hencoded, h⟩
        rcases List.mem_cons.1 hk with rfl | hk
        · rw [hbind] at hencoded
          cases hencoded
          exact .inl h
        · exact .inr ⟨k, hk, encoded, by rw [hother k hk]; exact hencoded, h⟩

theorem infix_intercalate {sep part : Bytes} : ∀ {parts : List Bytes}, part ∈ parts → part <:+: sep.intercalate parts
  | [], h => by cases h
  | [first], h => by
    cases List.mem_singleton.1 h
    have hone : sep.intercalate [part] = part := List.intercalate_singleton
    exact hone.symm ▸ List.infix_refl part
  | first :: second :: rest, h => by
    rw [List.intercalate_cons_cons]
    rcases List.mem_cons.1 h with rfl | h
    · exact ⟨[], sep ++ sep.intercalate (second :: rest), by simp⟩
    · exact (infix_intercalate h).trans (List.suffix_append _ _).isInfix

/-- A constraint stands in the description that is written. -/
theorem infix_describe (node : Members) {constraints : List Bytes} {constraint : Bytes} (h : constraint ∈ constraints) :
    constraint <:+: describe textOf node constraints := by
  have hinner : constraint <:+: ascii "(" ++ (ascii ", ").intercalate constraints ++ ascii ")" := by
    exact (@infix_intercalate (ascii ", ") _ _ h).trans ⟨ascii "(", ascii ")", rfl⟩
  unfold describe
  dsimp only
  split
  · exact hinner.trans (List.suffix_append _ _).isInfix
  · exact hinner

end Move

mutual

/-- Encoding a value that was decoded cannot fail. -/
theorem marshal_of_numeric (tree : Tree) (h : Numeric tree) : ∃ text, marshal tree = some text := by
  cases h with
  | null => exact ⟨_, by rw [marshal]⟩
  | bool b => exact ⟨_, by rw [marshal]⟩
  | number hnumber =>
    rw [marshal, if_pos hnumber]
    split
    · exact ⟨_, rfl⟩
    · exact ⟨_, rfl⟩
  | string text => exact ⟨_, by rw [marshal]⟩
  | array hitems =>
    obtain ⟨texts, htexts⟩ := marshalItems_of_numeric _ hitems
    exact ⟨_, by rw [marshal, htexts]; rfl⟩
  | object hmembers =>
    obtain ⟨texts, htexts⟩ := marshalMembers_of_numeric _ hmembers (sortedKeys _) (fun name hname => by
      obtain ⟨value, hvalue⟩ := mem_sortedKeys.1 hname
      cases hget : get _ name with
      | none => exact absurd rfl (bne_iff_ne.1 (List.lookup_eq_none_iff.1 hget _ (List.mem_reverse.2 hvalue)))
      | some found => exact ⟨found, rfl⟩)
    exact ⟨_, by rw [marshal, htexts]; rfl⟩
termination_by (sizeOf tree, 0)
decreasing_by all_goals decreasing_tactic

theorem marshalItems_of_numeric (items : List Tree) (h : ∀ item ∈ items, Numeric item) : ∃ texts, marshalItems items = some texts := by
  cases items with
  | nil => exact ⟨_, by rw [marshalItems]⟩
  | cons item rest =>
    rw [List.forall_mem_cons] at h
    obtain ⟨text, htext⟩ := marshal_of_numeric item h.1
    obtain ⟨texts, htexts⟩ := marshalItems_of_numeric rest h.2
    exact ⟨_, by rw [marshalItems, htext, htexts]⟩
termination_by (sizeOf items, 0)

theorem marshalMembers_of_numeric (members : Members) (h : ∀ m ∈ members, Numeric m.2) (names : List Bytes)
    (hnames : ∀ name ∈ names, ∃ value, get members name = some value) : ∃ texts, marshalMembers members names = some texts := by
  match names, hnames with
  | [], _ => exact ⟨_, by rw [marshalMembers]⟩
  | name :: rest, hnames =>
    rw [List.forall_mem_cons] at hnames
    obtain ⟨⟨value, hvalue⟩, hrest⟩ := hnames
    obtain ⟨text, htext⟩ := marshal_of_numeric value (h _ (mem_of_get hvalue))
    obtain ⟨texts, htexts⟩ := marshalMembers_of_numeric members h rest hrest
    rw [marshalMembers]
    split
    next hnone => rw [hvalue] at hnone; cases hnone
    next value' hvalue' =>
      rw [hvalue] at hvalue'
      cases hvalue'
      rw [htext, htexts]
      exact ⟨_, rfl⟩
termination_by (sizeOf members, names.length)
decreasing_by
  · exact Prod.Lex.left _ _ (sizeOf_mem (mem_of_get hvalue))
  · exact Prod.Lex.right _ (Nat.lt_succ_self _)

end

theorem encodes_iff {node : Members} (h : Numeric (.object node)) (key : Bytes) :
    ((lookup node key).bind marshal).isSome = true ↔ (lookup node key).isSome = true := by
  cases h with
  | object hmembers =>
    cases hvalue : lookup node key with
    | none => exact Iff.rfl
    | some value =>
      obtain ⟨text, htext⟩ := marshal_of_numeric value (hmembers _ (mem_of_get hvalue))
      rw [Option.bind_some, htext]
      exact ⟨fun _ => rfl, fun _ => rfl⟩

/-- Keyword lists that `StructuredOutputRules.Validate` accepts, without repetitions. -/
structure Allowed (moved removed : List Bytes) : Prop where
  nodup     : moved.Nodup
  movable   : ∀ keyword ∈ moved, keyword ∈ movableSchemaKeywords
  removable : ∀ keyword ∈ removed, keyword ∈ removableSchemaKeywords

/-- The keywords that stay. -/
def keptKeywords : List Bytes :=
  ["description", "properties", "items", "type", "enum", "const", "required"].map ascii

section Weaken

variable {moved removed : List Bytes}

theorem Allowed.kept (h : Allowed moved removed) {keyword : Bytes} (hkept : keyword ∈ keptKeywords) :
    keyword ∉ moved ∧ keyword ∉ removed := by
  have hdisjoint : ∀ keyword ∈ keptKeywords, keyword ∉ movableSchemaKeywords ∧ keyword ∉ removableSchemaKeywords := by
    decide
  exact ⟨fun hm => (hdisjoint keyword hkept).1 (h.movable keyword hm), fun hr => (hdisjoint keyword hkept).2 (h.removable keyword hr)⟩

/-- The node once its keywords have moved and gone, a keyword other than the description. -/
theorem lookup_editNode (node : Members) {key : Bytes} (hkey : key ≠ ascii "description") :
    lookup (editNode marshal textOf .string moved removed node) key =
      if key ∈ removed ∨ (key ∈ moved ∧ ((lookup node key).bind marshal).isSome = true) then none else lookup node key := by
  unfold editNode
  rw [lookup_foldl_delete]
  have hset : lookup (if (moveKeywords marshal moved node).1 = [] then (moveKeywords marshal moved node).2
      else set (moveKeywords marshal moved node).2 (ascii "description")
        (.string (describe textOf (moveKeywords marshal moved node).2 (moveKeywords marshal moved node).1))) key =
      lookup (moveKeywords marshal moved node).2 key := by
    split
    · rfl
    · rw [lookup_set, if_neg hkey]
  rw [hset, lookup_moveKeywords]
  by_cases hr : key ∈ removed
  · rw [if_pos hr, if_pos (.inl hr)]
  · rw [if_neg hr]
    simp only [hr, false_or]

theorem lookup_description (hallowed : Allowed moved removed) (node : Members) :
    lookup (editNode marshal textOf .string moved removed node) (ascii "description") =
      if (moveKeywords marshal moved node).1 = [] then lookup node (ascii "description")
      else some (.string (describe textOf (moveKeywords marshal moved node).2 (moveKeywords marshal moved node).1)) := by
  have hkept : ascii "description" ∉ moved ∧ ascii "description" ∉ removed := hallowed.kept (by decide)
  unfold editNode
  rw [lookup_foldl_delete, if_neg hkept.2]
  split
  · rw [lookup_moveKeywords, if_neg (fun h => hkept.1 h.1)]
  · rw [lookup_set, if_pos rfl]

theorem get_weaken_properties (hallowed : Allowed moved removed) (n : Nat) (node : Members) :
    get (weaken moved removed (n + 1) node) (ascii "properties") =
      (get node (ascii "properties")).map (weakenProperties (weaken moved removed n)) := by
  have hkept : ascii "properties" ∉ moved ∧ ascii "properties" ∉ removed := hallowed.kept (by decide)
  rw [weaken, get_eq_lookup, lookup_update, if_neg (by decide), lookup_update, if_pos rfl, lookup_editNode node (by decide),
    if_neg (fun h => h.elim hkept.2 (fun h => hkept.1 h.1))]
  rfl

theorem get_weaken_items (hallowed : Allowed moved removed) (n : Nat) (node : Members) :
    get (weaken moved removed (n + 1) node) (ascii "items") =
      (get node (ascii "items")).map (weakenTree (weaken moved removed n)) := by
  have hkept : ascii "items" ∉ moved ∧ ascii "items" ∉ removed := hallowed.kept (by decide)
  rw [weaken, get_eq_lookup, lookup_update, if_pos rfl, lookup_update, if_neg (by decide), lookup_editNode node (by decide),
    if_neg (fun h => h.elim hkept.2 (fun h => hkept.1 h.1))]
  rfl

theorem get_weaken_other (n : Nat) (node : Members) {key : Bytes}
    (hkey : key ∉ [ascii "description", ascii "properties", ascii "items"]) :
    get (weaken moved removed (n + 1) node) key =
      if key ∈ removed ∨ (key ∈ moved ∧ ((get node key).bind marshal).isSome = true) then none else get node key := by
  simp only [List.mem_cons, List.not_mem_nil, or_false, not_or] at hkey
  rw [weaken, get_eq_lookup, lookup_update, if_neg hkey.2.2, lookup_update, if_neg hkey.2.1, lookup_editNode node hkey.1]
  rfl

theorem get_weaken_description (hallowed : Allowed moved removed) (n : Nat) (node : Members) :
    get (weaken moved removed (n + 1) node) (ascii "description") =
      if (moveKeywords marshal moved node).1 = [] then get node (ascii "description")
      else some (.string (describe textOf (moveKeywords marshal moved node).2 (moveKeywords marshal moved node).1)) := by
  rw [weaken, get_eq_lookup, lookup_update, if_neg (by decide), lookup_update, if_neg (by decide),
    lookup_description hallowed node]
  rfl

theorem get_weaken_kept (hallowed : Allowed moved removed) (n : Nat) (node : Members) {key : Bytes} (hkept : key ∈ keptKeywords)
    (hkey : key ∉ [ascii "description", ascii "properties", ascii "items"]) :
    get (weaken moved removed (n + 1) node) key = get node key := by
  rw [get_weaken_other n node hkey, if_neg (fun h => h.elim (hallowed.kept hkept).2 (fun h => (hallowed.kept hkept).1 h.1))]

/-! ## What differs -/

theorem numeric_of_get {node : Members} (h : Numeric (.object node)) {key : Bytes} {tree : Tree} (hget : get node key = some tree) :
    Numeric tree := by
  cases h with
  | object hmembers => exact hmembers _ (mem_of_get hget)

theorem weakenTree_weakened {f : Members → Members} {schema : Tree}
    (hf : ∀ node, schema = .object node → Weakened moved removed node (f node)) :
    WeakenedSchema moved removed schema (weakenTree f schema) := by
  cases schema with
  | object node => exact .node (hf node rfl)
  | null | bool | number | string | array => exact .other fun node h => (by cases h)

theorem weakenedSchemas_map {f : Members → Members} : ∀ {schemas : Members},
    (∀ m ∈ schemas, ∀ node, m.2 = .object node → Weakened moved removed node (f node)) →
      WeakenedSchemas moved removed schemas (schemas.map (fun p => (p.1, weakenTree f p.2)))
  | [], _ => .nil
  | (name, schema) :: rest, h => by
    rw [List.forall_mem_cons] at h
    exact .cons (weakenTree_weakened h.1) (weakenedSchemas_map h.2)

/-- **A schema differs from its weakening as `Weakened` says.** -/
theorem weaken_weakened (hallowed : Allowed moved removed) : ∀ {n : Nat} {node : Members}, Within n (.object node) →
    Numeric (.object node) → Weakened moved removed node (weaken moved removed n node) := by
  intro n
  induction n with
  | zero => exact fun h _ => h.elim
  | succ n ih =>
    intro node hwithin hnumeric
    have hbelow : ∀ {key tree}, get node key = some tree → Within n tree ∧ Numeric tree := fun hget =>
      ⟨hwithin _ (mem_of_get hget), numeric_of_get hnumeric hget⟩
    have hnone : ∀ {keyword}, get node keyword = none → (lookup node keyword).bind marshal = none := by
      intro keyword h
      rw [← get_eq_lookup, h]
      rfl
    refine .node ?_ ?_ ?_ ?_ ?_ ?_ ?_ ?_ ?_
    · intro keyword hmoved hremoved hkey
      rw [get_weaken_other n node hkey, if_neg (fun h => h.elim hremoved (fun h => hmoved h.1))]
    · intro keyword hkeyword
      have hkey : keyword ∉ [ascii "description", ascii "properties", ascii "items"] := by
        intro hmem
        have hsome : keyword ∈ keptKeywords := by
          have hsubset : ∀ key ∈ [ascii "description", ascii "properties", ascii "items"], key ∈ keptKeywords := by decide
          exact hsubset keyword hmem
        exact hkeyword.elim (hallowed.kept hsome).1 (hallowed.kept hsome).2
      rw [get_weaken_other n node hkey]
      split
      · rfl
      next hnot =>
        rw [not_or] at hnot
        have hmoved := hkeyword.resolve_right hnot.1
        cases hget : get node keyword with
        | none => rfl
        | some value => exact absurd ⟨hmoved, (encodes_iff hnumeric keyword).2 (by rw [← get_eq_lookup, hget]; rfl)⟩ hnot.2
    · intro hplain
      rw [get_weaken_description hallowed, if_pos]
      rw [List.eq_nil_iff_forall_not_mem]
      intro constraint hconstraint
      obtain ⟨keyword, hkeyword, encoded, hencoded, -⟩ := (mem_constraints moved node hallowed.nodup).1 hconstraint
      rw [hnone (hplain keyword hkeyword)] at hencoded
      cases hencoded
    · intro keyword hkeyword value hvalue
      obtain ⟨encoded, hencoded⟩ := marshal_of_numeric value (numeric_of_get hnumeric hvalue)
      have hconstraint : keyword ++ ascii ": " ++ encoded ∈ (moveKeywords marshal moved node).1 :=
        (mem_constraints moved node hallowed.nodup).2 ⟨keyword, hkeyword, encoded, by
          rw [← get_eq_lookup, hvalue]
          exact hencoded, rfl⟩
      refine ⟨encoded, _, hencoded, ?_, infix_describe (moveKeywords marshal moved node).2 hconstraint⟩
      rw [get_weaken_description hallowed, if_neg (List.ne_nil_of_mem hconstraint)]
    · intro schemas hschemas
      rw [get_weaken_properties hallowed, hschemas]
      exact ⟨_, rfl⟩
    · intro schemas schemas' hschemas hschemas'
      rw [get_weaken_properties hallowed, hschemas] at hschemas'
      cases hschemas'
      obtain ⟨hin, hnum⟩ := hbelow hschemas
      refine weakenedSchemas_map fun m hm schema hschema => ?_
      cases n with
      | zero => exact hin.elim
      | succ n =>
        refine ih ((hschema ▸ hin m hm : Within n (.object schema)).up (Nat.le_succ n)) ?_
        cases hnum with
        | object hmembers => exact hschema ▸ hmembers m hm
    · intro hnot
      rw [get_weaken_properties hallowed]
      cases hget : get node (ascii "properties") with
      | none => rfl
      | some tree =>
        cases tree with
        | object schemas => exact absurd hget (hnot schemas)
        | null | bool | number | string | array => rfl
    · rw [get_weaken_items hallowed, Option.isSome_map]
    · intro schema schema' hschema hschema'
      rw [get_weaken_items hallowed, hschema] at hschema'
      cases hschema'
      obtain ⟨hin, hnum⟩ := hbelow hschema
      exact weakenTree_weakened fun node' heq => ih (heq ▸ hin) (heq ▸ hnum)

/-! ## Once is enough -/

theorem delete_of_lookup_none {node : Members} {key : Bytes} (h : lookup node key = none) : delete node key = node := by
  unfold delete
  rw [List.filter_eq_self]
  intro e he
  rw [bne_iff_ne]
  intro hkey
  have hfound := List.lookup_eq_none_iff.1 h e (List.mem_reverse.2 he)
  rw [hkey] at hfound
  exact absurd rfl (bne_iff_ne.1 hfound)

theorem moveKeywords_nothing : ∀ {moved : List Bytes} {node : Members},
    (∀ keyword ∈ moved, (lookup node keyword).bind marshal = none) → moveKeywords marshal moved node = ([], node)
  | [], _, _ => rfl
  | keyword :: moved, node, h => by
    rw [List.forall_mem_cons] at h
    rw [moveKeywords, h.1]
    exact moveKeywords_nothing h.2

theorem foldl_delete_nothing : ∀ {removed : List Bytes} {node : Members},
    (∀ keyword ∈ removed, lookup node keyword = none) → removed.foldl delete node = node
  | [], _, _ => rfl
  | keyword :: removed, node, h => by
    rw [List.forall_mem_cons] at h
    rw [List.foldl_cons, delete_of_lookup_none h.1]
    exact foldl_delete_nothing h.2

theorem update_update (node : Members) (key : Bytes) (f g : Tree → Tree) :
    update (update node key f) key g = update node key (fun tree => g (f tree)) := by
  unfold update
  rw [List.map_map]
  refine List.map_congr_left fun e _ => ?_
  by_cases hkey : e.1 = key
  · simp only [Function.comp, if_pos hkey]
  · simp only [Function.comp, if_neg hkey]

theorem update_comm (node : Members) {key key' : Bytes} (hne : key ≠ key') (f g : Tree → Tree) :
    update (update node key f) key' g = update (update node key' g) key f := by
  unfold update
  rw [List.map_map, List.map_map]
  refine List.map_congr_left fun e _ => ?_
  by_cases hkey : e.1 = key
  · have hkey' : e.1 ≠ key' := fun h => hne (hkey.symm.trans h)
    simp only [Function.comp, if_pos hkey, if_neg hkey']
  · by_cases hkey' : e.1 = key'
    · simp only [Function.comp, if_pos hkey', if_neg hkey]
    · simp only [Function.comp, if_neg hkey', if_neg hkey]

theorem update_congr {node : Members} {key : Bytes} {f g : Tree → Tree} (h : ∀ tree, f tree = g tree) :
    update node key f = update node key g := by rw [funext h]

/-- **Weakening a schema again changes nothing.** -/
theorem weaken_weaken (hallowed : Allowed moved removed) : ∀ (n : Nat) (node : Members),
    weaken moved removed n (weaken moved removed n node) = weaken moved removed n node := by
  intro n
  induction n with
  | zero => exact fun _ => rfl
  | succ n ih =>
    intro node
    have hkey : ∀ {keyword}, keyword ∈ moved ∨ keyword ∈ removed →
        keyword ∉ [ascii "description", ascii "properties", ascii "items"] := by
      intro keyword hkeyword hmem
      have hsubset : ∀ key ∈ [ascii "description", ascii "properties", ascii "items"], key ∈ keptKeywords := by decide
      have hkept := hallowed.kept (hsubset keyword hmem)
      exact hkeyword.elim hkept.1 hkept.2
    have hedit : editNode marshal textOf .string moved removed (weaken moved removed (n + 1) node) =
        weaken moved removed (n + 1) node := by
      unfold editNode
      rw [moveKeywords_nothing (fun keyword hkeyword => ?_), if_pos rfl]
      · refine foldl_delete_nothing fun keyword hkeyword => ?_
        rw [← get_eq_lookup, get_weaken_other n node (hkey (.inr hkeyword)), if_pos (.inl hkeyword)]
      · rw [← get_eq_lookup, get_weaken_other n node (hkey (.inl hkeyword))]
        split
        · rfl
        next hnot =>
          rw [not_or, not_and, Bool.not_eq_true, Option.isSome_eq_false_iff, Option.isNone_iff_eq_none] at hnot
          exact hnot.2 hkeyword
    have htree : ∀ tree, weakenTree (weaken moved removed n) (weakenTree (weaken moved removed n) tree) =
        weakenTree (weaken moved removed n) tree := by
      intro tree
      cases tree with
      | object members => exact congrArg Tree.object (ih members)
      | null | bool | number | string | array => rfl
    have hproperties : ∀ tree, weakenProperties (weaken moved removed n) (weakenProperties (weaken moved removed n) tree) =
        weakenProperties (weaken moved removed n) tree := by
      intro tree
      cases tree with
      | object members =>
        refine congrArg Tree.object ?_
        rw [List.map_map]
        exact List.map_congr_left fun p _ => congrArg (p.1, ·) (htree p.2)
      | null | bool | number | string | array => rfl
    show update (update (editNode _ _ _ moved removed (weaken moved removed (n + 1) node)) _ _) _ _ = _
    rw [hedit]
    show update (update (update (update _ _ _) _ _) _ _) _ _ = update (update _ _ _) _ _
    rw [update_comm (update _ (ascii "properties") _) (show ascii "items" ≠ ascii "properties" by decide), update_update,
      update_update, update_congr hproperties, update_congr htree]

/-! ## What is accepted -/

/-- A keyword that can move is as it was or is gone. -/
theorem get_weaken_or_none (n : Nat) (node : Members) {key : Bytes}
    (hkey : key ∉ [ascii "description", ascii "properties", ascii "items"]) :
    get (weaken moved removed n node) key = get node key ∨ get (weaken moved removed n node) key = none := by
  cases n with
  | zero => exact .inl rfl
  | succ n =>
    rw [get_weaken_other n node hkey]
    split
    · exact .inr rfl
    · exact .inl rfl

theorem bound_of_weaken {A : Type} {n : Nat} {node : Members} {keyword : String} {read : Option Tree → Option A}
    (hread : read none = none) (hkey : ascii keyword ∉ [ascii "description", ascii "properties", ascii "items"]) {P : A → Prop}
    (h : ∀ bound, read (member node keyword) = some bound → P bound) :
    ∀ bound, read (member (weaken moved removed n node) keyword) = some bound → P bound := by
  intro bound hbound
  unfold member at hbound h
  rcases @get_weaken_or_none moved removed n node _ hkey with hsame | hgone
  · rw [hsame] at hbound
    exact h bound hbound
  · rw [hgone, hread] at hbound
    cases hbound

theorem count_of_weaken {n : Nat} {node : Members} {keyword : String}
    (hkey : ascii keyword ∉ [ascii "description", ascii "properties", ascii "items"]) {P : Int → Prop}
    (h : ∀ bound, (member node keyword).bind countOf = some bound → P bound) :
    ∀ bound, (member (weaken moved removed n node) keyword).bind countOf = some bound → P bound :=
  @bound_of_weaken moved removed Int n node keyword (·.bind countOf) rfl hkey P h

theorem validateEnumAndConst_weaken (hallowed : Allowed moved removed) {n : Nat} {node : Members} {actual : Tree}
    {number : Option Rat} {pointer : Bytes} (h : validateEnumAndConst actual number node pointer = .ok ()) :
    validateEnumAndConst actual number (weaken moved removed (n + 1) node) pointer = .ok () := by
  rw [validateEnumAndConst_ok_iff] at h ⊢
  unfold member at h ⊢
  rw [get_weaken_kept hallowed n node (by decide) (by decide), get_weaken_kept hallowed n node (by decide) (by decide)]
  exact h

theorem schemaType_weaken (hallowed : Allowed moved removed) (n : Nat) (node : Members) :
    schemaType (member (weaken moved removed (n + 1) node) "type") = schemaType (member node "type") := by
  unfold member
  rw [get_weaken_kept hallowed n node (by decide) (by decide)]

theorem validateCount_weaken {n : Nat} {node : Members} {count : Int} {minimumKeyword maximumKeyword unit : String} {pointer : Bytes}
    (hmin : ascii minimumKeyword ∉ [ascii "description", ascii "properties", ascii "items"])
    (hmax : ascii maximumKeyword ∉ [ascii "description", ascii "properties", ascii "items"])
    (h : validateCount count node pointer minimumKeyword maximumKeyword unit = .ok ()) :
    validateCount count (weaken moved removed n node) pointer minimumKeyword maximumKeyword unit = .ok () := by
  rw [validateCount_ok_iff] at h ⊢
  exact ⟨count_of_weaken hmin h.1, count_of_weaken hmax h.2⟩

theorem properties_weaken (hallowed : Allowed moved removed) (n : Nat) (node : Members) :
    objectOf (member (weaken moved removed (n + 1) node) "properties") =
      (objectOf (member node "properties")).map (fun p => (p.1, weakenTree (weaken moved removed n) p.2)) := by
  unfold member
  rw [get_weaken_properties hallowed]
  cases get node (ascii "properties") with
  | none => rfl
  | some tree => cases tree <;> rfl

theorem objectOf_weakenTree (n : Nat) (tree : Option Tree) :
    objectOf (tree.map (weakenTree (weaken moved removed n))) = objectOf tree ∨
      objectOf (tree.map (weakenTree (weaken moved removed n))) = weaken moved removed n (objectOf tree) := by
  cases tree with
  | none => exact .inl rfl
  | some tree =>
    cases tree with
    | object members => exact .inr rfl
    | null | bool | number | string | array => exact .inl rfl

theorem validateNode_weaken (hallowed : Allowed moved removed) {n : Nat} {node : Members} {actual : Tree} {pointer : Bytes}
    {t : SchemaType} (h : validateNode actual node pointer t = .ok ()) :
    validateNode actual (weaken moved removed (n + 1) node) pointer t = .ok () := by
  by_cases hnumber : ∃ literal, actual = .number literal
  · obtain ⟨literal, rfl⟩ := hnumber
    rw [validateNode_number_ok_iff] at h ⊢
    obtain ⟨number, hnumber, htype, hvalues, hbounds⟩ := h
    refine ⟨number, hnumber, htype, validateEnumAndConst_weaken hallowed hvalues, ?_⟩
    rw [validateNumberBounds_ok_iff] at hbounds ⊢
    exact ⟨bound_of_weaken rfl (by decide) hbounds.1, bound_of_weaken rfl (by decide) hbounds.2⟩
  · have hnot : ∀ literal, actual ≠ .number literal := fun literal heq => hnumber ⟨literal, heq⟩
    rw [validateNode_ok_iff hnot] at h ⊢
    obtain ⟨htype, hvalues, hkind⟩ := h
    refine ⟨htype, validateEnumAndConst_weaken hallowed hvalues, ?_⟩
    cases actual with
    | null | bool => rfl
    | number literal => exact absurd rfl (hnot literal)
    | string text =>
      dsimp only at hkind ⊢
      rw [validateString_ok_iff] at hkind ⊢
      obtain ⟨⟨hmin, hmax⟩, hformat⟩ := hkind
      refine ⟨⟨count_of_weaken (by decide) hmin, count_of_weaken (by decide) hmax⟩, fun format heq => ?_⟩
      have hkeyword : ascii "format" ∉ [ascii "description", ascii "properties", ascii "items"] := by decide
      unfold member at heq
      rcases @get_weaken_or_none moved removed (n + 1) node _ hkeyword with hsame | hgone
      · exact hformat format (hsame.symm.trans heq)
      · rw [hgone] at heq
        cases heq
    | array values => exact validateCount_weaken (by decide) (by decide) hkind
    | object object =>
      dsimp only at hkind ⊢
      rw [failIf_ok_iff, Bool.not_eq_false'] at hkind ⊢
      rw [List.all_eq_true] at hkind ⊢
      intro name hname
      rw [properties_weaken hallowed, get_eq_lookup, lookup_map, Option.isSome_map]
      exact hkind name hname

/-- **What a schema accepts, its weakening accepts.** -/
theorem validateInstance_weaken (hallowed : Allowed moved removed) : ∀ {n : Nat} {node : Members} {actual : Tree} {pointer : Bytes},
    validateInstance actual node pointer = .ok () → validateInstance actual (weaken moved removed n node) pointer = .ok () := by
  intro n
  induction n with
  | zero => exact fun h => h
  | succ n ih =>
    intro node actual pointer h
    have hpart : ∀ {value tree pointer}, validateInstance value (objectOf tree) pointer = .ok () →
        validateInstance value (objectOf (tree.map (weakenTree (weaken moved removed n)))) pointer = .ok () := by
      intro value tree pointer h
      rcases @objectOf_weakenTree moved removed n tree with heq | heq
      · rw [heq]
        exact h
      · rw [heq]
        exact ih h
    cases actual with
    | null =>
      rw [validateInstance_null_ok_iff] at h ⊢
      rw [schemaType_weaken hallowed]
      obtain ⟨t, ht, hnull, hvalues⟩ := h
      exact ⟨t, ht, hnull, validateEnumAndConst_weaken hallowed hvalues⟩
    | bool | number | string =>
      rw [validateInstance_scalar_ok_iff rfl (fun h => by cases h)] at h ⊢
      rw [schemaType_weaken hallowed]
      obtain ⟨t, ht, hnode⟩ := h
      exact ⟨t, ht, validateNode_weaken hallowed hnode⟩
    | array values =>
      rw [validateInstance_array_ok_iff] at h ⊢
      rw [schemaType_weaken hallowed]
      obtain ⟨t, ht, hnode, hitems⟩ := h
      refine ⟨t, ht, validateNode_weaken hallowed hnode, ?_⟩
      rw [validateItems_ok_iff] at hitems ⊢
      intro i value hi
      unfold member
      rw [get_weaken_items hallowed]
      exact hpart (hitems i value hi)
    | object object =>
      rw [validateInstance_object_ok_iff] at h ⊢
      rw [schemaType_weaken hallowed]
      obtain ⟨t, ht, hnode, hproperties⟩ := h
      refine ⟨t, ht, validateNode_weaken hallowed hnode, ?_⟩
      rw [validateProperties_ok_iff] at hproperties ⊢
      rw [properties_weaken hallowed]
      intro name hname
      have hnames : name ∈ sortedKeys (objectOf (member node "properties")) := by
        unfold sortedKeys at hname ⊢
        rw [List.map_map] at hname
        exact hname
      obtain ⟨value, hvalue, hinstance⟩ := hproperties name hnames
      refine ⟨value, hvalue, ?_⟩
      rw [get_eq_lookup, lookup_map]
      exact hpart hinstance

end Weaken

/-! ## The schema a provider is sent -/

theorem rules_allowed {rules : StructuredOutputRules}
    (hmoved : ∀ keyword ∈ rules.keywordsMovedToDescription, keyword ∈ movableSchemaKeywords)
    (hremoved : ∀ keyword ∈ rules.keywordsRemoved, keyword ∈ removableSchemaKeywords) :
    Allowed (sortedUnique rules.keywordsMovedToDescription) (sortedUnique rules.keywordsRemoved) := by
  refine ⟨?_, fun keyword h => hmoved keyword (mem_sortedUnique.1 h), fun keyword h => hremoved keyword (mem_sortedUnique.1 h)⟩
  unfold sortedUnique
  exact (List.mergeSort_perm _ _).nodup_iff.2 (List.nodup_dedup _)

theorem weaken_nothing : ∀ (n : Nat) (node : Members), weaken [] [] n node = node
  | 0, _ => rfl
  | n + 1, node => by
    have htree : ∀ tree, weakenTree (weaken [] [] n) tree = tree := by
      intro tree
      cases tree with
      | object members => exact congrArg Tree.object (weaken_nothing n members)
      | null | bool | number | string | array => rfl
    have hproperties : ∀ tree, weakenProperties (weaken [] [] n) tree = tree := by
      intro tree
      cases tree with
      | object properties =>
        refine congrArg Tree.object ?_
        exact (List.map_congr_left fun p _ => congrArg (p.1, ·) (htree p.2)).trans (List.map_id _)
      | null | bool | number | string | array => rfl
    have hupdate : ∀ (key : Bytes) {f : Tree → Tree}, (∀ tree, f tree = tree) → update node key f = node := by
      intro key f hf
      unfold update
      refine (List.map_congr_left fun e _ => ?_).trans (List.map_id _)
      split
      · rw [hf]
        rfl
      · rfl
    show update (update node _ _) _ _ = node
    rw [hupdate _ hproperties, hupdate _ htree]

theorem providerSchema_eq (n : Nat) (rules : StructuredOutputRules) (schema : Members) :
    providerSchema n rules schema =
      weaken (sortedUnique rules.keywordsMovedToDescription) (sortedUnique rules.keywordsRemoved) n schema := by
  unfold providerSchema
  split
  next h =>
    have hnone : sortedUnique [] = [] := by
      unfold sortedUnique
      rw [List.dedup_nil, List.mergeSort_nil]
    rw [h.1, h.2, hnone]
    exact (weaken_nothing n schema).symm
  · rfl

theorem append_of_same {cells cells' : Cells} (h : ∀ x < cells.length, cells'[x]? = cells[x]?) :
    cells' = cells ++ cells'.drop cells.length := by
  have htake : cells'.take cells.length = cells := by
    refine List.ext_getElem? fun x => ?_
    rw [List.getElem?_take]
    split
    next hx => exact h x hx
    next hx => exact (List.getElem?_eq_none (Nat.le_of_not_lt hx)).symm
  conv_lhs => rw [← List.take_append_drop cells.length cells', htake]

/-- **A provider is sent a weaker schema**: the canonical one is as it was, the one that is returned lacks only what the rules
take from it, transforming it again changes nothing, and it accepts every instance that the canonical one accepts. -/
theorem transformSchemaForProvider_weakens (n : Nat) (rules : StructuredOutputRules) (cells : Cells) (canonical : Nat)
    (schema : Members) (hholds : treeAt n cells (.map canonical) = some (.object schema)) (hunique : UniqueKeys cells)
    (hcanonical : Canonical schema)
    (hmoved : ∀ keyword ∈ rules.keywordsMovedToDescription, keyword ∈ movableSchemaKeywords)
    (hremoved : ∀ keyword ∈ rules.keywordsRemoved, keyword ∈ removableSchemaKeywords) :
    ∃ cells' result provider, transformSchemaForProvider n rules cells canonical = some (cells', result) ∧
      ((∀ x < cells.length, cells'[x]? = cells[x]?) ∧ treeAt n cells' (.map canonical) = some (.object schema)) ∧
      treeAt n cells' (.map result) = some (.object provider) ∧
      Weakened (sortedUnique rules.keywordsMovedToDescription) (sortedUnique rules.keywordsRemoved) schema provider ∧
      (∃ cells'' again, transformSchemaForProvider n rules cells' result = some (cells'', again) ∧
        treeAt n cells'' (.map again) = some (.object provider)) ∧
      ∀ actual pointer, validateInstance actual schema pointer = .ok () → validateInstance actual provider pointer = .ok () := by
  have hallowed := rules_allowed hmoved hremoved
  obtain ⟨cells', result, hrun, hsame, hunique', hresult⟩ := transformSchemaForProvider_spec rules hholds hunique
  obtain ⟨cells'', again, hrun', -, -, hresult'⟩ := transformSchemaForProvider_spec rules hresult hunique'
  rw [providerSchema_eq] at hresult
  rw [providerSchema_eq, providerSchema_eq, weaken_weaken hallowed] at hresult'
  refine ⟨cells', result, _, hrun, ⟨hsame, ?_⟩, hresult, ?_, ⟨cells'', again, hrun', hresult'⟩, ?_⟩
  · rw [append_of_same hsame]
    exact treeAt_append hholds
  · exact weaken_weakened hallowed (within_of_treeAt hholds) hcanonical.numeric
  · exact fun actual pointer h => validateInstance_weaken hallowed h

def boundedInteger : Members := [(ascii "type", .string (ascii "integer")), (ascii "minimum", .number (ascii "0"))]

def boundedCells : Cells := [.map [(ascii "type", .string (ascii "integer")), (ascii "minimum", .number (ascii "0"))]]

def minimumMoved : StructuredOutputRules := ⟨[ascii "minimum"], []⟩

theorem transformSchemaForProvider_weakens_minimum :
    ∃ cells' result provider, transformSchemaForProvider 2 minimumMoved boundedCells 0 = some (cells', result) ∧
      ((∀ x < boundedCells.length, cells'[x]? = boundedCells[x]?) ∧ treeAt 2 cells' (.map 0) = some (.object boundedInteger)) ∧
      treeAt 2 cells' (.map result) = some (.object provider) ∧
      Weakened (sortedUnique [ascii "minimum"]) (sortedUnique []) boundedInteger provider ∧
      (∃ cells'' again, transformSchemaForProvider 2 minimumMoved cells' result = some (cells'', again) ∧
        treeAt 2 cells'' (.map again) = some (.object provider)) ∧
      ∀ actual pointer, validateInstance actual boundedInteger pointer = .ok () → validateInstance actual provider pointer = .ok () := by
  refine transformSchemaForProvider_weakens 2 minimumMoved boundedCells 0 boundedInteger rfl ?_ ?_ (by decide)
    (fun keyword h => by cases h)
  rotate_left
  · have hreads : Reads maxNestingDepth
        [.punct 0x7B, .string (ascii "type"), .punct 0x3A, .string (ascii "integer"), .punct 0x2C, .string (ascii "minimum"),
          .punct 0x3A, .literal (ascii "0"), .punct 0x7D]
        (.object [(unquote (ascii "type"), .string (unquote (ascii "integer"))), (unquote (ascii "minimum"), ofLiteral (ascii "0"))])
        [] :=
      @Reads.object 9999 _ _ _ (.more .string (.last (.literal (by decide))))
    have hschema : Tree.object boundedInteger =
        .object [(unquote (ascii "type"), .string (unquote (ascii "integer"))), (unquote (ascii "minimum"), ofLiteral (ascii "0"))] := by
      rw [show unquote (ascii "type") = ascii "type" by decide, show unquote (ascii "integer") = ascii "integer" by decide,
        show unquote (ascii "minimum") = ascii "minimum" by decide]
      rfl
    rw [← hschema] at hreads
    exact .of_reads hreads (by decide)
  intro address entries hget
  cases address with
  | zero =>
    cases hget
    decide
  | succ address => cases hget

end Textgen
end Dex
