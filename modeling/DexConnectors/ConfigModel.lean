import DexConnectors.LibMethod
import DexConnectors.LibObjectStore
/-!
# ConfigModel — the configuration stores (`sdkgo/projectconfig/configuration.go`, `sdkpython/.../projectconfig/storage.py`,
`sdkts/src/projectconfig/storage.ts`)

`ConfigurationStore` of the three SDKs reads, replaces and pins one revisioned document by the same programs.  What they
do differently is a `Dialect`: how contents are decoded and checked, what a write makes of the document it is given, when
it creates and when it replaces, which references a snapshot read accepts, and what an unknown outcome raises when the
head cannot be read again.  `I` is what a caller passes, `D` a decoded document and `X` the contents of an object.

The ghost `writer` of a version is the call that wrote it.  The object store is a versioned one: no version is named `null`.
-/
namespace Dex
namespace ConfigStore

open Lib Lib.Store

inductive Err where
  | objectNotFound
  | conflict
  | outcomeUnknown
  | storage
  | invalid (text : String)       -- a document, a reference or an argument that was refused
  deriving DecidableEq, Repr

structure SnapshotRef where
  key       : String
  version   : String
  digest    : String
  mediaType : String
  deriving DecidableEq, Repr

/-- **What one SDK does its own way.** -/
structure Dialect (I D X : Type) where
  key              : String
  refusesNull      : Bool                            -- a version named `null` is no document
  decode           : X → Except Err D                -- the contents, decoded and validated
  revision         : D → Nat
  assign           : Nat → I → Except Err (D × X)    -- the document of the next revision, validated, and its contents
  creates          : Nat → Bool → Bool               -- given the expected revision and whether a document was found
  digest           : X → String
  acceptsReference : SnapshotRef → Bool
  afterUnknown     : Err → Err                       -- what a failed read after an unknown outcome raises

inductive Op (X : Type) where
  | read (key version : String)
  | create (key : String) (contents : X)
  | swap (key etag : String) (contents : X)

variable {I D X T : Type}

@[reducible] def Ans (X T : Type) : Op X → Type
  | .read _ _ => ReadAnswer X T
  | .create _ _ | .swap _ _ _ => WriteAnswer X T

abbrev M (X T : Type) := Method (Op X) (Ans X T) Err

def act (o : Op X) : M X T (Ans X T o) := Method.act o

def readObject (key version : String) : M X T (Version X T) := do
  let answer : ReadAnswer X T ← act (.read key version)
  match answer with
  | .found object => return object
  | .absent => throw .objectNotFound
  | .failed => throw .storage

section

variable (dialect : Dialect I D X)

/-- `decodeConfiguration` of an object. -/
def decodeConfiguration (object : Version X T) : Except Err D :=
  if object.id = "" ∨ (dialect.refusesNull = true ∧ object.id = "null") ∨ object.etag = "" then
    .error (.invalid "configuration document identity is invalid")
  else dialect.decode object.contents

def readConfiguration : M X T (D × Version X T) := do
  let object ← readObject dialect.key ""
  let configuration ← Method.orRaise (decodeConfiguration dialect object)
  return (configuration, object)

/-- The document a write starts from: none, when there is no object and none is expected. -/
def previousFor (expectedRevision : Nat) (found : Except Err (D × Version X T)) : Except Err (Option (D × Version X T)) :=
  match found with
  | .ok previous => .ok (some previous)
  | .error .objectNotFound => if expectedRevision = 0 then .ok none else .error .objectNotFound
  | .error err => .error err

def writeObject (expectedRevision : Nat) (previous : Option (D × Version X T)) (contents : X) : M X T (WriteAnswer X T) :=
  if dialect.creates expectedRevision previous.isSome then act (.create dialect.key contents)
  else act (.swap dialect.key ((previous.map (fun p => p.2.etag)).getD "") contents)

variable [DecidableEq X]

/-- The end of a write: an unknown outcome is settled by the contents of the head. -/
def settle (configuration : D) (contents : X) (answer : WriteAnswer X T) : M X T (D × Version X T) :=
  match answer with
  | .applied object => return (configuration, object)
  | .conflict => throw .conflict
  | .failed => throw .storage
  | .unknown => do
    let observed ← Method.attempt (readObject dialect.key "")
    match observed with
    | .ok object => if object.contents = contents then return (configuration, object) else throw .outcomeUnknown
    | .error err => throw (dialect.afterUnknown err)

/-- A write that has read the document it starts from. -/
def replaceFrom (expectedRevision : Nat) (configuration : I) (previous : Option (D × Version X T)) :
    M X T (D × Version X T) :=
  if (previous.map (fun p => dialect.revision p.1)).getD 0 ≠ expectedRevision then throw .conflict
  else match dialect.assign expectedRevision configuration with
    | .error err => throw err
    | .ok (updated, contents) => do
      let answer ← writeObject dialect expectedRevision previous contents
      settle dialect updated contents answer

def writeConfiguration (expectedRevision : Nat) (configuration : I) : M X T (D × Version X T) := do
  let found ← Method.attempt (readConfiguration dialect)
  let previous ← Method.orRaise (previousFor expectedRevision found)
  replaceFrom dialect expectedRevision configuration previous

/-- The reference that pins a version. -/
def pin (object : Version X T) : SnapshotRef := ⟨dialect.key, object.id, dialect.digest object.contents, "application/json"⟩

def freezeConfiguration (expectedRevision : Nat) : M X T SnapshotRef := do
  let (configuration, object) ← readConfiguration dialect
  if dialect.revision configuration ≠ expectedRevision then throw .conflict else return pin dialect object

def readSnapshot (reference : SnapshotRef) : M X T D := do
  if !dialect.acceptsReference reference then throw (.invalid "invalid configuration snapshot reference")
  else
    let object ← readObject reference.key reference.version
    if dialect.digest object.contents ≠ reference.digest then throw (.invalid "configuration snapshot digest differs")
    else Method.orRaise (decodeConfiguration dialect object)

/-! ## Calls -/

inductive Call (I : Type) where
  | read
  | write (expectedRevision : Nat) (configuration : I)
  | freeze (expectedRevision : Nat)
  | snapshot (reference : SnapshotRef)

inductive Result (D X T : Type) where
  | current (configuration : D) (object : Version X T)
  | pinned (reference : SnapshotRef)
  | configuration (configuration : D)

def Call.method : Call I → M X T (Result D X T)
  | .read => (fun p => .current p.1 p.2) <$> readConfiguration dialect
  | .write expectedRevision configuration =>
    (fun p => .current p.1 p.2) <$> writeConfiguration dialect expectedRevision configuration
  | .freeze expectedRevision => .pinned <$> freezeConfiguration dialect expectedRevision
  | .snapshot reference => .configuration <$> readSnapshot dialect reference

end

variable {ι : Type}

/-- **What an operation of call `i` may answer and leave behind.** -/
def step (i : ι) : (o : Op X) → Objects X ι → Ans X ι o → Objects X ι → Prop
  | .read key version, s, a, s' => Reads s key version a ∧ s' = s
  | .create key contents, s, a, s' => Creates s key contents i a s' ∧ ∀ v ∈ s' key, v ∈ s key ∨ v.id ≠ "null"
  | .swap key etag contents, s, a, s' => Swaps s key etag contents i a s' ∧ ∀ v ∈ s' key, v ∈ s key ∨ v.id ≠ "null"

end ConfigStore
end Dex
