import DexConnectors.LibHeap
import DexConnectors.TextgenSchema
/-!
# SchemaTransform — the schema a provider is sent (`sdkgo/textgen/structured_output.go`)

`transformSchemaForProvider` copies a canonical schema and edits the copy in place, so it is modelled over a heap.  `weaken` is
the schema that the copy holds in the end (`transformSchemaForProvider_spec`).
-/
namespace Dex
namespace Textgen

open Lib Lib.Utf8 Lib.Json Lib.Heap

/-- The keyword lists of `StructuredOutputRules`. -/
structure StructuredOutputRules where
  keywordsMovedToDescription : List Bytes
  keywordsRemoved            : List Bytes

/-- `movableSchemaKeywords`. -/
def movableSchemaKeywords : List Bytes :=
  ["minimum", "maximum", "minLength", "maxLength", "minItems", "maxItems", "format"].map ascii

/-- `removableSchemaKeywords`. -/
def removableSchemaKeywords : List Bytes := movableSchemaKeywords ++ ["title", "additionalProperties"].map ascii

def sortedUnique (values : List Bytes) : List Bytes := values.dedup.mergeSort (fun a b => decide (a ≤ b))

/-! ## `json.Marshal` -/

mutual

/-- `json.Marshal` of a decoded value; a `json.Number` has to be a number. -/
def marshal (tree : Tree) : Option Bytes :=
  match tree with
  | .null => some (ascii "null")
  | .bool b => some (if b then ascii "true" else ascii "false")
  | .number text => if text = [] then some (ascii "0") else if isNumber text then some text else none
  | .string text => some (0x22 :: quote text ++ [0x22])
  | .array items => (marshalItems items).map (fun texts => 0x5B :: (ascii ",").intercalate texts ++ [0x5D])
  | .object members =>
    (marshalMembers members (sortedKeys members)).map (fun texts => 0x7B :: (ascii ",").intercalate texts ++ [0x7D])
termination_by (sizeOf tree, 0)

def marshalItems (items : List Tree) : Option (List Bytes) :=
  match items with
  | [] => some []
  | item :: rest =>
    match marshal item, marshalItems rest with
    | some text, some texts => some (text :: texts)
    | _, _ => none
termination_by (sizeOf items, 0)

def marshalMembers (members : Members) (names : List Bytes) : Option (List Bytes) :=
  match names with
  | [] => some []
  | name :: rest =>
    match _h : get members name with
    | none => none
    | some value =>
      match marshal value, marshalMembers members rest with
      | some text, some texts => some ((0x22 :: quote name ++ [0x22, 0x3A] ++ text) :: texts)
      | _, _ => none
termination_by (sizeOf members, names.length)
decreasing_by
  · exact Prod.Lex.left _ _ (sizeOf_mem (mem_of_get _h))
  · exact Prod.Lex.right _ (Nat.lt_succ_self _)

end

/-! ## The edit of a node -/

section Edit

variable {V : Type} (encode : V → Option Bytes) (textOf : V → Option Bytes) (ofText : Bytes → V)

/-- The loop over the keywords that move: their constraints, and what is left of the node. -/
def moveKeywords : List Bytes → List (Bytes × V) → List Bytes × List (Bytes × V)
  | [], node => ([], node)
  | keyword :: moved, node =>
    match (lookup node keyword).bind encode with
    | none => moveKeywords moved node
    | some encoded =>
      ((keyword ++ ascii ": " ++ encoded) :: (moveKeywords moved (delete node keyword)).1,
        (moveKeywords moved (delete node keyword)).2)

def describe (node : List (Bytes × V)) (constraints : List Bytes) : Bytes :=
  let described := ascii "(" ++ (ascii ", ").intercalate constraints ++ ascii ")"
  match (lookup node (ascii "description")).bind textOf with
  | some (b :: description) => b :: description ++ ascii " " ++ described
  | _ => described

/-- What `doTransformSchemaNode` does to the node itself. -/
def editNode (moved removed : List Bytes) (node : List (Bytes × V)) : List (Bytes × V) :=
  removed.foldl delete
    (if (moveKeywords encode moved node).1 = [] then (moveKeywords encode moved node).2
      else set (moveKeywords encode moved node).2 (ascii "description")
        (ofText (describe textOf (moveKeywords encode moved node).2 (moveKeywords encode moved node).1)))

end Edit

/-! ## In the heap -/

def copyEach (copy : Cells → Value → Option (Cells × Value)) :
    Cells → List (Bytes × Value) → Option (Cells × List (Bytes × Value))
  | cells, [] => some (cells, [])
  | cells, (name, value) :: rest =>
    match copy cells value with
    | none => none
    | some (cells, copied) => (copyEach copy cells rest).map (fun p => (p.1, (name, copied) :: p.2))

/-- `copyJSONValue`; the cell of a map or slice is taken once its parts are copied.  The number bounds the depth. -/
def copyJSONValue : Nat → Cells → Value → Option (Cells × Value)
  | 0, cells, value => (scalar value).map (fun _ => (cells, value))
  | n + 1, cells, value =>
    match value with
    | .map address =>
      match cells[address]? with
      | some (.map entries) =>
        (copyEach (copyJSONValue n) cells entries).map (fun p => (p.1 ++ [.map p.2], .map p.1.length))
      | _ => none
    | .slice address =>
      match cells[address]? with
      | some (.slice items) =>
        (copyEach (copyJSONValue n) cells (unnamed items)).map (fun p => (p.1 ++ [.slice (p.2.map Prod.snd)], .slice p.1.length))
      | _ => none
    | value => some (cells, value)

def marshalAt (n : Nat) (cells : Cells) (value : Value) : Option Bytes := (treeAt n cells value).bind marshal

def textAt : Value → Option Bytes
  | .string text => some text
  | _ => none

def transformEach (transform : Cells → Nat → Option Cells) : Cells → List (Bytes × Value) → Option Cells
  | cells, [] => some cells
  | cells, (_, .map address) :: rest =>
    match transform cells address with
    | none => none
    | some cells => transformEach transform cells rest
  | cells, _ :: rest => transformEach transform cells rest

def transformProperties (transform : Cells → Nat → Option Cells) (cells : Cells) : Option Value → Option Cells
  | some (.map address) =>
    match cells[address]? with
    | some (.map properties) => transformEach transform cells properties
    | _ => none
  | _ => some cells

def transformItems (transform : Cells → Nat → Option Cells) (cells : Cells) : Option Value → Option Cells
  | some (.map address) => transform cells address
  | _ => some cells

/-- `doTransformSchemaNode`, in place; the number bounds the depth. -/
def doTransformSchemaNode (moved removed : List Bytes) : Nat → Cells → Nat → Option Cells
  | 0, _, _ => none
  | n + 1, cells, address =>
    match cells[address]? with
    | some (.map entries) =>
      let node := editNode (marshalAt n cells) textAt .string moved removed entries
      match transformProperties (doTransformSchemaNode moved removed n) (cells.set address (.map node))
          (lookup node (ascii "properties")) with
      | none => none
      | some cells => transformItems (doTransformSchemaNode moved removed n) cells (lookup node (ascii "items"))
    | _ => none

/-- `transformSchemaForProvider`, given the map of the canonical schema. -/
def transformSchemaForProvider (n : Nat) (rules : StructuredOutputRules) (cells : Cells) (canonical : Nat) :
    Option (Cells × Nat) :=
  if rules.keywordsMovedToDescription = [] ∧ rules.keywordsRemoved = [] then some (cells, canonical)
  else
    match copyJSONValue n cells (.map canonical) with
    | some (cells, .map providerSchema) =>
      (doTransformSchemaNode (sortedUnique rules.keywordsMovedToDescription) (sortedUnique rules.keywordsRemoved) n cells
        providerSchema).map (fun cells => (cells, providerSchema))
    | _ => none

/-! ## The schema that results -/

def textOf : Tree → Option Bytes
  | .string text => some text
  | _ => none

def weakenTree (weaken : Members → Members) : Tree → Tree
  | .object members => .object (weaken members)
  | tree => tree

def weakenProperties (weaken : Members → Members) : Tree → Tree
  | .object properties => .object (properties.map (fun p => (p.1, weakenTree weaken p.2)))
  | tree => tree

/-- What becomes of a schema, down to a number of levels. -/
def weaken (moved removed : List Bytes) : Nat → Members → Members
  | 0, node => node
  | n + 1, node =>
    update (update (editNode marshal textOf .string moved removed node) (ascii "properties")
      (weakenProperties (weaken moved removed n))) (ascii "items") (weakenTree (weaken moved removed n))

end Textgen
end Dex
