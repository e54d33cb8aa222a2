import Mathlib.Data.List.Infix
import DexConnectors.InboxModel
import DexConnectors.ConfigWire
import DexConnectors.LocalStoreModel
/-!
# DexWebStore — the project's objects under `dexcli dev` (`sdkgo/projectconfig/dexweb.go`, `dexweb_store.go`)

`dexWebStore` has two partitions, one in memory and one of files, and synchronizes the connections of the first with
`connections.json`.  Its methods are programs over the operations of the partitions, so that what a method does for a key can be
read from the operations that it performs.  What `sync` and `writeBack` do to the file, to the memory partition and to what was
imported are parameters: nothing is assumed of them.

The contents of an object are the texts of a trigger inbox; `LocalStoreModel` has the files of a partition, and here a write of
the files partition succeeds while they are writable.
-/
namespace Dex
namespace DexWeb

open Lib Lib.Store Lib.Utf8 ConfigStore

abbrev Text := Inbox.Text

inductive Err where
  | objectNotFound
  | conflict
  | outcomeUnknown
  | other
  deriving DecidableEq, Repr

abbrev StoredObject := Version Text Unit

inductive Partition where
  | memory
  | inbox
  deriving DecidableEq, Repr

/-! ## Methods -/

inductive Op where
  | sync
  | read (partition : Partition) (key version : String)
  | create (partition : Partition) (key : String) (contents : Text)
  | swap (partition : Partition) (key expectedETag : String) (contents : Text)
  | writeBack (head : StoredObject)

@[reducible] def Ans : Op → Type
  | .sync => Except Err Unit
  | .read _ _ _ | .create _ _ _ | .swap _ _ _ _ => Except Err StoredObject
  | .writeBack _ => Unit

abbrev M := Method Op Ans Err

def act (o : Op) : M (Ans o) := Method.act o

def sync : M Unit := act .sync >>= Method.orRaise

/-- `strings.Contains`. -/
def contains (part text : String) : Bool := decide (part.toList <:+: text.toList)

def partition (key : String) : Partition := if contains "/trigger-inboxes/" key then .inbox else .memory

def isConnectionHead (key : String) : Bool := contains "/connections/" key && endsWith "/head" key

def readObject (key version : String) : M StoredObject := do
  if isConnectionHead key then sync
  let answer ← act (.read (partition key) key version)
  Method.orRaise answer

def createObject (key : String) (contents : Text) : M StoredObject := act (.create (partition key) key contents) >>= Method.orRaise

/-- `CompareAndSwapObject` of a connection head, after its write. -/
def swapped (answer : Except Err StoredObject) : M StoredObject :=
  match answer with
  | .ok object => do
    act (.writeBack object)
    return object
  | .error err => throw err

def compareAndSwapObject (key expectedETag : String) (contents : Text) : M StoredObject :=
  if !isConnectionHead key then act (.swap (partition key) key expectedETag contents) >>= Method.orRaise
  else do
    sync
    let answer ← act (.swap .memory key expectedETag contents)
    swapped answer

/-! ## Partitions -/

/-- The versions of each key, newest first. -/
abbrev VersionedStore := Objects Text Unit

def versionedRead (store : VersionedStore) (key version : String) : Except Err StoredObject :=
  if !LocalStore.isObjectKey (ascii key) then .error .other
  else
    match lookup store key version with
    | some object => .ok object
    | none => .error .objectNotFound

def nextVersion (previous : List StoredObject) : String :=
  match previous with
  | [] => "1"
  | last :: _ => (LocalStore.versionNumber last.id + 1).repr

section

variable (digestBytes : Text → String)

def nextObject (previous : List StoredObject) (contents : Text) : StoredObject :=
  ⟨nextVersion previous, digestBytes contents ++ "-" ++ nextVersion previous, contents, ()⟩

def appendVersion (writable : Bool) (store : VersionedStore) (key : String) (contents : Text) :
    Except Err StoredObject × VersionedStore :=
  let object := nextObject digestBytes (store key) contents
  if !writable then (.error .other, store)
  else (.ok object, fun k => if k = key then object :: (if LocalStore.keepsHistory (ascii key) then store key else []) else store k)

def versionedCreate (writable : Bool) (store : VersionedStore) (key : String) (contents : Text) :
    Except Err StoredObject × VersionedStore :=
  if !LocalStore.isObjectKey (ascii key) then (.error .other, store)
  else if store key ≠ [] then (.error .conflict, store)
  else appendVersion digestBytes writable store key contents

def versionedSwap (writable : Bool) (store : VersionedStore) (key expectedETag : String) (contents : Text) :
    Except Err StoredObject × VersionedStore :=
  if !LocalStore.isObjectKey (ascii key) then (.error .other, store)
  else
    match store key with
    | [] => (.error .objectNotFound, store)
    | last :: _ =>
      if last.etag ≠ expectedETag then (.error .conflict, store) else appendVersion digestBytes writable store key contents

/-! ## The store -/

/-- `project` is `connections.json` and what was imported of it. -/
structure World (L κ : Type) where
  memory     : VersionedStore
  inbox      : VersionedStore
  project    : L
  writable   : Bool
  headExists : κ → Bool

def World.store {L κ : Type} (w : World L κ) : Partition → VersionedStore
  | .memory => w.memory
  | .inbox => w.inbox

def World.setStore {L κ : Type} (w : World L κ) (partition : Partition) (store : VersionedStore) : World L κ :=
  match partition with
  | .memory => { w with memory := store }
  | .inbox => { w with inbox := store }

/-- Only the inbox partition has files. -/
def World.persists {L κ : Type} (w : World L κ) : Partition → Bool
  | .memory => true
  | .inbox => w.writable

/-- What `sync` and `writeBack` do. -/
structure Project (L : Type) where
  sync      : L → VersionedStore → Except Err Unit × L × VersionedStore
  writeBack : StoredObject → L → VersionedStore → L

variable {L κ : Type} (project : Project L)

def answer : (o : Op) → World L κ → Ans o × World L κ
  | .sync, w =>
    let result := project.sync w.project w.memory
    (result.1, { w with project := result.2.1, memory := result.2.2 })
  | .read partition key version, w => (versionedRead (w.store partition) key version, w)
  | .create partition key contents, w =>
    let result := versionedCreate digestBytes (w.persists partition) (w.store partition) key contents
    (result.1, w.setStore partition result.2)
  | .swap partition key expectedETag contents, w =>
    let result := versionedSwap digestBytes (w.persists partition) (w.store partition) key expectedETag contents
    (result.1, w.setStore partition result.2)
  | .writeBack head, w => ((), { w with project := project.writeBack head w.project w.memory })

/-! ## A trigger inbox over the store -/

def readAnswer : Except Err StoredObject → ReadAnswer Text Unit
  | .ok object => .found object
  | .error .objectNotFound => .absent
  | .error _ => .failed

def writeAnswer : Except Err StoredObject → WriteAnswer Text Unit
  | .ok object => .applied object
  | .error .conflict => .conflict
  | .error .outcomeUnknown => .unknown
  | .error _ => .failed

variable [DecidableEq κ]

/-- **What the store answers to inbox `i`.** -/
def inboxAnswer (i : κ) : (o : Inbox.Op) → World L κ → Inbox.Ans Unit o × World L κ
  | .read key version, w =>
    let result := (readObject key version).run.runWith (answer digestBytes project) w
    (readAnswer result.1, result.2)
  | .create key contents _, w =>
    let result := (createObject key contents).run.runWith (answer digestBytes project) w
    (writeAnswer result.1, result.2)
  | .swap key etag contents _, w =>
    let result := (compareAndSwapObject key etag contents).run.runWith (answer digestBytes project) w
    (writeAnswer result.1, result.2)
  | .loadHeadExists, w => (w.headExists i, w)
  | .storeHeadExists, w => ((), { w with headExists := fun j => if j = i then true else w.headExists j })

/-- The events that an inbox has pending when its head has these versions. -/
def pendingAt : List StoredObject → List Inbox.PendingTriggerEvent
  | [] => []
  | head :: _ =>
    match head.contents.value with
    | .document document => document.events
    | .other => []

/-- A call made on an inbox, while the files are writable or not. -/
structure Turn (κ : Type) where
  inbox    : κ
  call     : Inbox.Call
  writable : Bool

/-- **Calls on inboxes of one key.** -/
def turns (key : String) : List (Turn κ) → World L κ → World L κ
  | [], w => w
  | turn :: rest, w =>
    turns key rest ((turn.call.program key).runWith (inboxAnswer digestBytes project turn.inbox) { w with writable := turn.writable }).2

end

end DexWeb
end Dex
