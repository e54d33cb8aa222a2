import Mathlib.Data.List.Dedup
import DexConnectors.LibSaturate
import DexConnectors.LibUtf8
/-!
# TestMatrix — the connectors whose tests a change runs (`cmd/connectorctl/test_matrix.go`)

`selectConnectorDirectoriesForPaths` names the connectors that own the changed paths, `includeConnectorDependents` adds those
whose Go module requires one of them, and `buildConnectorTestMatrix` spreads them over shards.  A Go map with true values is
the list of its keys.  `readModule` is the requirements of a connector's `go.mod`, and `sum256` the SHA-256.
-/
namespace Dex
namespace TestMatrix

open Lib Lib.Utf8

/-! ## The catalog -/

def startsWith (start text : Bytes) : Bool := start.isPrefixOf text

/-- `validateConnectorDirectory`.  What `path.Clean` would change has an empty, a `.` or a `..` segment. -/
def validateConnectorDirectory (directory : Bytes) : Bool :=
  directory != [] && directory.head? != some 0x2F && !directory.contains 0x5C && startsWith (ascii "connectors/") directory &&
    directory.drop (ascii "connectors/").length != [] &&
    (directory.splitOn 0x2F).all (fun segment => segment != [] && segment != ascii "." && segment != ascii "..")

/-- The directories of a catalog that `decodeConnectorCatalogSource` accepts. -/
structure Catalog where
  directories : List Bytes
  valid       : ∀ directory ∈ directories, validateConnectorDirectory directory = true
  nodup       : directories.Nodup

/-- The path of a file relative to its own directory. -/
structure FileName where
  path  : Bytes
  plain : 0x2F ∉ path

/-! ## Changed paths -/

/-- The connector directory is the path, or an ancestor of it. -/
def owns (changedPath directory : Bytes) : Bool := changedPath == directory || startsWith (directory ++ [0x2F]) changedPath

def longestConnectorDirectoryPrefix (directories : List Bytes) (changedPath : Bytes) : Bytes :=
  directories.foldl (fun matched directory =>
    if owns changedPath directory ∧ matched.length < directory.length then directory else matched) []

def neutralDirectories : List Bytes := ["docs/", "site/", ".cursor/", ".codex/", "examples/"].map ascii

def neutralFiles : List Bytes :=
  ["README.md", "AGENTS.md", "CLAUDE.md", ".gitignore", "CODE_OF_CONDUCT.md", "CONTRIBUTING.md"].map ascii

def isConnectorTestNeutralPath (changedPath : Bytes) : Bool :=
  neutralDirectories.any (fun directory => startsWith directory changedPath) || neutralFiles.contains changedPath

def isConformancePath (changedPath : Bytes) : Bool := startsWith (ascii "conformance/connectors/") changedPath

/-- The connector path of a conformance path. -/
def connectorPath (changedPath : Bytes) : Bytes :=
  ascii "connectors/" ++ changedPath.drop (ascii "conformance/connectors/").length

structure Selection where
  selected        : List Bytes
  shouldSelectAll : Bool

def Selection.add (s : Selection) (directory : Bytes) : Selection := { s with selected := directory :: s.selected }

/-- The loop body over the changed paths. -/
def takePath (directories previous : List Bytes) (catalogPath : Bytes) (s : Selection) (changedPath : Bytes) : Selection :=
  if isConformancePath changedPath then
    if longestConnectorDirectoryPrefix directories (connectorPath changedPath) ≠ [] then
      s.add (longestConnectorDirectoryPrefix directories (connectorPath changedPath))
    else s
  else if changedPath = catalogPath then
    directories.foldl (fun s directory => if previous.contains directory then s else s.add directory) s
  else if longestConnectorDirectoryPrefix directories changedPath ≠ [] then
    s.add (longestConnectorDirectoryPrefix directories changedPath)
  else if isConnectorTestNeutralPath changedPath || startsWith (ascii "connectors/") changedPath then s
  else { s with shouldSelectAll := true }

def selectConnectorDirectoriesForPaths (directories previousDirectories changedPaths : List Bytes) (catalogPath : Bytes) :
    List Bytes :=
  let s := changedPaths.foldl (takePath directories previousDirectories catalogPath) ⟨[], false⟩
  if s.shouldSelectAll then directories else directories.filter (fun directory => s.selected.contains directory)

/-! ## Dependents -/

def modulePath (directory : Bytes) : Bytes :=
  ascii "github.com/superdurable/dex-connectors-library/" ++ directory ++ ascii "/go"

section

variable {ε : Type} (readModule : Bytes → Except ε (List Bytes))

/-- A requirement of the directory's module is the module of a selected directory. -/
def requiresSelected (selectedSet : List Bytes) (directory : Bytes) : Except ε Bool :=
  (readModule directory).map (fun requirements =>
    requirements.any (fun requirement => selectedSet.any (fun dependency => requirement == modulePath dependency)))

def includeConnectorDependents (catalogDirectories selected : List Bytes) : Except ε (List Bytes) :=
  if selected.length = 0 ∨ selected.length = catalogDirectories.length then .ok selected
  else (Saturate.saturate (requiresSelected readModule) catalogDirectories selected).map
    (fun selectedSet => catalogDirectories.filter (fun directory => selectedSet.contains directory))

end

/-! ## Shards -/

structure ConnectorTestShard where
  index : Nat
  count : Nat
  deriving DecidableEq, Repr

section

variable (sum256 : Bytes → Bytes)

/-- `binary.BigEndian.Uint64`. -/
def bigEndian (bytes : Bytes) : Nat := bytes.foldl (fun n b => n * 256 + b.toNat) 0

def connectorTestShardIndex (directory : Bytes) (shardCount : Nat) : Nat := bigEndian ((sum256 directory).take 8) % shardCount

/-- The keys of `activeShards`, sorted. -/
def activeShards (directories : List Bytes) (shardCount : Nat) : List Nat :=
  (directories.map (fun directory => connectorTestShardIndex sum256 directory shardCount)).dedup.mergeSort (fun i j => i ≤ j)

def buildConnectorTestMatrix (directories : List Bytes) (maximumShards : Nat) : List ConnectorTestShard :=
  if directories.length = 0 then []
  else
    let shardCount := min directories.length maximumShards
    (activeShards sum256 directories shardCount).map (fun index => ⟨index, shardCount⟩)

def directoriesInConnectorTestShard (directories : List Bytes) (shardIndex shardCount : Nat) : List Bytes :=
  directories.filter (fun directory => connectorTestShardIndex sum256 directory shardCount == shardIndex)

end

end TestMatrix
end Dex
