import Mathlib.Data.List.Basic
import DexConnectors.LibUtf8
/-!
# LocalStoreModel — `versionedStore`, the local object store in files (`sdkgo/projectconfig/dexweb_store.go`)

A store keeps the versions of its keys in memory and one file for each version that is not superseded.  `Disk` is the
directory, `Memory` the map of a running process.  A `Fate` says what the environment does to a write: its persist fails, the
process dies before or after the rename, or the write is answered; in each case some removals may fail.  `log` is ghost: the
versions that were persisted, newest first, and whether their writer was answered.

`digest` is the hexadecimal SHA-256.
-/
namespace Dex
namespace LocalStore

open Lib Lib.Utf8

structure Object where
  key      : Bytes
  version  : String
  etag     : String
  contents : Bytes
  deriving DecidableEq, Repr

inductive Err where
  | invalidKey
  | notFound
  | conflict
  | failed
  deriving DecidableEq, Repr

/-- The versions of each key, oldest first. -/
abbrev Memory := Bytes → List Object

/-- The files of the directory by name, each as it decodes. -/
abbrev Disk := List (String × Object)

/-! ## Keys and versions -/

def splitAtSlash : Bytes → List Bytes
  | [] => [[]]
  | b :: rest =>
    if b = 0x2F then [] :: splitAtSlash rest
    else
      match splitAtSlash rest with
      | [] => [[b]]
      | segment :: more => (b :: segment) :: more

/-- `validateObjectKey`. -/
def isObjectKey (key : Bytes) : Bool :=
  key != [] && key.length ≤ 1024 && key.head? != some 0x2F && key.all (fun b => b != 0x5C && b != 0 && b != 0x0D && b != 0x0A) &&
    (splitAtSlash key).all (fun segment => segment != [] && segment != ascii "." && segment != ascii "..")

def keepsHistory (key : Bytes) : Bool := (ascii "/configuration/head").isSuffixOf key

/-- `strconv.Atoi`, zero for what is no number. -/
def versionNumber (version : String) : Nat :=
  if version.toList.all Char.isDigit then Nat.ofDigitChars 10 version.toList 0 else 0

/-- The number after the last version. -/
def nextVersion (previous : List Object) : String :=
  match previous.getLast? with
  | none => "1"
  | some last => (versionNumber last.version + 1).repr

section Store

variable (digest : Bytes → String)

def nextObject (previous : List Object) (key contents : Bytes) : Object :=
  ⟨key, nextVersion previous, digest contents ++ "-" ++ nextVersion previous, contents⟩

/-! ## Files -/

/-- `store.file`, in the directory. -/
def fileOf (o : Object) : String := digest o.key ++ "-" ++ o.version ++ ".json"

/-- What a file decodes to: JSON replaces the ill-formed bytes of a string, and the contents are base64. -/
def stored (o : Object) : Object := { o with key := repair o.key }

/-- The rename at the end of `persist`. -/
def persist (disk : Disk) (o : Object) : Disk := disk.filter (fun f => f.1 != fileOf digest o) ++ [(fileOf digest o, stored o)]

/-- `remove` of each object, apart from the files that could not be removed. -/
def removeEach (kept : String → Bool) (disk : Disk) (objects : List Object) : Disk :=
  disk.filter (fun f => kept f.1 || !(objects.map (fileOf digest)).contains f.1)

/-! ## `newVersionedStore` -/

/-- The versions that the files of a key hold. -/
def versionsOf (disk : Disk) (key : Bytes) : List Object := (disk.map (·.2)).filter (fun o => o.key == key)

def sorted (versions : List Object) : List Object :=
  versions.mergeSort (fun a b => versionNumber a.version ≤ versionNumber b.version)

/-- The versions a load keeps of a key, and the ones it removes. -/
def loaded (disk : Disk) : Memory := fun key =>
  if keepsHistory key then sorted (versionsOf disk key) else (sorted (versionsOf disk key)).getLast?.toList

def stale (disk : Disk) : List Object :=
  disk.flatMap (fun f => if keepsHistory f.2.key then [] else (sorted (versionsOf disk f.2.key)).dropLast)

/-! ## Operations -/

def readObject (m : Memory) (key : Bytes) (version : String) : Except Err Object :=
  if !isObjectKey key then .error .invalidKey
  else
    match m key with
    | [] => .error .notFound
    | o :: rest =>
      if version = "" then .ok ((o :: rest).getLast (List.cons_ne_nil o rest))
      else
        match (o :: rest).find? (fun o => o.version == version) with
        | some found => .ok found
        | none => .error .notFound

/-- What the environment does to a write. -/
inductive Fate where
  | refused                                -- `persist` fails before its rename
  | crashedBefore
  | crashedAfter (kept : String → Bool)
  | done (kept : String → Bool)

structure Entry where
  object   : Object
  answered : Bool

structure State where
  disk   : Disk
  memory : Option Memory                   -- none between a crash and the next load
  log    : List Entry

/-- `appendVersion`; a process that dies returns nothing. -/
def appendVersion (st : State) (m : Memory) (key contents : Bytes) (fate : Fate) : State × Option (Except Err Object) :=
  let object := nextObject digest (m key) key contents
  let superseded := if keepsHistory key then [] else m key
  match fate with
  | .refused => (st, some (.error .failed))
  | .crashedBefore => ({ st with memory := none }, none)
  | .crashedAfter kept =>
    (⟨removeEach digest kept (persist digest st.disk object) superseded, none, ⟨object, false⟩ :: st.log⟩, none)
  | .done kept =>
    (⟨removeEach digest kept (persist digest st.disk object) superseded,
      some (fun k => if k = key then (if keepsHistory key then m key ++ [object] else [object]) else m k),
      ⟨object, true⟩ :: st.log⟩, some (.ok object))

inductive Call where
  | create (key contents : Bytes)
  | swap (key : Bytes) (expectedETag : String) (contents : Bytes)

def Call.key : Call → Bytes
  | .create key _ => key
  | .swap key _ _ => key

/-- `CreateObject` and `CompareAndSwapObject`. -/
def runCall (st : State) (m : Memory) (fate : Fate) : Call → State × Option (Except Err Object)
  | .create key contents =>
    if !isObjectKey key then (st, some (.error .invalidKey))
    else if m key ≠ [] then (st, some (.error .conflict))
    else appendVersion digest st m key contents fate
  | .swap key expectedETag contents =>
    if !isObjectKey key then (st, some (.error .invalidKey))
    else
      match (m key).getLast? with
      | none => (st, some (.error .notFound))
      | some last =>
        if last.etag ≠ expectedETag then (st, some (.error .conflict)) else appendVersion digest st m key contents fate

/-! ## Runs -/

inductive Event where
  | call (c : Call) (fate : Fate)
  | crash
  | reopen (kept : String → Bool) (survives : Bool)     -- a load may also die among its removals

/-- One event, and what a call returned; there is nothing to call between a crash and a load. -/
def step (st : State) : Event → State × Option (Except Err Object)
  | .call c fate =>
    match st.memory with
    | none => (st, none)
    | some m => runCall digest st m fate c
  | .crash => ({ st with memory := none }, none)
  | .reopen kept survives =>
    (⟨removeEach digest kept st.disk (stale st.disk), if survives then some (loaded st.disk) else none, st.log⟩, none)

/-- An empty directory, and the store that was opened on it. -/
def initial : State := ⟨[], some (fun _ => []), []⟩

def run (events : List Event) : State := events.foldl (fun st e => (step digest st e).1) initial

/-- The objects that the writes of a run were answered with, oldest first. -/
def answers (st : State) : List Event → List Object
  | [] => []
  | e :: rest =>
    match (step digest st e).2 with
    | some (.ok o) => o :: answers (step digest st e).1 rest
    | _ => answers (step digest st e).1 rest

end Store

end LocalStore
end Dex
