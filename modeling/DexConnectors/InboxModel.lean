import DexConnectors.LibMethod
import DexConnectors.LibObjectStore
import DexConnectors.LibJson
/-!
# InboxModel — the Go trigger inbox (`sdkgo/projectconfig/trigger_inbox.go`)

The methods of `TriggerInbox` for one binding, whose head object is `key`.  Any number of inboxes may be bound to it, and
any number of calls made on each; `headExists` is the flag of an inbox.  A call is a program over the object store and
that flag, and a call whose context ends, or whose process dies, takes no further step.

The contents of the head are a JSON text, given as the document it denotes and a way of spelling it, zero for what
`json.Marshal` writes; equal bytes are equal texts.  An event keeps the bytes of its JSON text, and `json.Marshal` compacts
and HTML-escapes them and repairs the id.  Conditional writes carry a `Change`, which the store keeps as a ghost.
-/
namespace Dex
namespace Inbox

open Lib Lib.Store Lib.Utf8

def triggerInboxSchema : String := "connectors.dex.dev/project-trigger-inbox/v1alpha1"
def maxPendingTriggerEvents : Nat := 1000
def maxTriggerInboxBytes : Nat := 8 * 2 ^ 20
def maxTriggerInboxAttempts : Nat := 8

/-- The nesting that `encoding/json` accepts. -/
def maxNestingDepth : Nat := 10000

structure PendingTriggerEvent where
  id    : Bytes
  event : Bytes
  deriving DecidableEq, Repr

structure Document where
  schemaVersion : String
  events        : List PendingTriggerEvent
  deriving DecidableEq, Repr

inductive Value where
  | document (document : Document)
  | other
  deriving DecidableEq, Repr

structure Text where
  value    : Value
  spelling : Nat
  deriving DecidableEq, Repr

inductive Err where
  | conflict
  | storage
  | triggerInboxFull
  | other (text : String)
  deriving DecidableEq, Repr

/-! ## JSON -/

/-- An event as `json.Marshal` writes it; an absent `json.RawMessage` is `null`. -/
def PendingTriggerEvent.marshal (event : PendingTriggerEvent) : Option PendingTriggerEvent :=
  if event.event = [] then some ⟨repair event.id, ascii "null"⟩
  else (Json.compact maxNestingDepth event.event).map (fun compacted => ⟨repair event.id, compacted⟩)

def marshalEvents : List PendingTriggerEvent → Option (List PendingTriggerEvent)
  | [] => some []
  | event :: rest =>
    match event.marshal, marshalEvents rest with
    | some written, some more => some (written :: more)
    | _, _ => none

/-- `json.Marshal(triggerInboxDocument{...})`. -/
def marshal (events : List PendingTriggerEvent) : Option Text :=
  (marshalEvents events).map (fun written => ⟨.document ⟨triggerInboxSchema, written⟩, 0⟩)

def PendingTriggerEvent.size (event : PendingTriggerEvent) : Nat :=
  (ascii "\x7b\"id\":\"").length + (Json.quote event.id).length + (ascii "\",\"event\":").length +
    (event.marshal.map (fun written => written.event.length)).getD 0 + 1

/-- The number of bytes `json.Marshal` writes: the events stand between brackets, with commas. -/
def marshaledSize (events : List PendingTriggerEvent) : Nat :=
  (ascii "\x7b\"schemaVersion\":\"").length + triggerInboxSchema.length + (ascii "\",\"events\":[").length +
    (events.map PendingTriggerEvent.size).sum + (events.length - 1) + 2

/-- `strictJSON`: the events stand three levels deep in the document. -/
def strictJSON (text : Text) : Option Document :=
  match text.value with
  | .document document =>
    if document.events.all (fun e => e.event == [] || (Json.parse (maxNestingDepth - 3) e.event).isSome) then some document
    else none
  | .other => none

/-! ## Operations -/

/-- Why a head was written: ghost. -/
inductive Change where
  | createHead
  | add (event : PendingTriggerEvent)
  | remove (eventID : Bytes)
  deriving DecidableEq, Repr

inductive Op where
  | read (key version : String)
  | create (key : String) (contents : Text) (change : Change)
  | swap (key etag : String) (contents : Text) (change : Change)
  | loadHeadExists
  | storeHeadExists

variable {T : Type}

@[reducible] def Ans (T : Type) : Op → Type
  | .read _ _ => ReadAnswer Text T
  | .create _ _ _ | .swap _ _ _ _ => WriteAnswer Text T
  | .loadHeadExists => Bool
  | .storeHeadExists => Unit

abbrev M (T : Type) := Method Op (Ans T) Err

def act (o : Op) : M T (Ans T o) := Method.act o

variable (key : String)

/-- `createHead` after its write. -/
def headCreated (answer : WriteAnswer Text T) : M T Unit :=
  match answer with
  | .applied _ | .conflict => act .storeHeadExists
  | .unknown => return ()
  | .failed => throw .storage

def createHead : M T Unit := do
  let headExists : Bool ← act .loadHeadExists
  if headExists then return ()
  else match marshal [] with
    | none => throw (.other "trigger inbox encoding failed")
    | some contents =>
      let answer : WriteAnswer Text T ← act (.create key contents .createHead)
      headCreated answer

/-- `read` after its read. -/
def checkDocument (answer : ReadAnswer Text T) : Except Err (Document × String) :=
  match answer with
  | .found object =>
    match strictJSON object.contents with
    | some document =>
      if document.schemaVersion ≠ triggerInboxSchema ∨ object.etag = "" then .error (.other "trigger inbox document is invalid")
      else .ok (document, object.etag)
    | none => .error (.other "trigger inbox document is invalid")
  | .absent => .ok (⟨triggerInboxSchema, []⟩, "")
  | .failed => .error .storage

/-- `read`: the document and the tag of its object, empty when there is none. -/
def read : M T (Document × String) := do
  createHead key
  let answer : ReadAnswer Text T ← act (.read key "")
  Method.orRaise (checkDocument answer)

def equalPendingEvents (left right : List PendingTriggerEvent) : Bool :=
  left.map PendingTriggerEvent.id == right.map PendingTriggerEvent.id

/-- The conditional write of `update`. -/
def write (etag : String) (contents : Text) (change : Change) : M T (WriteAnswer Text T) :=
  if etag = "" then act (.create key contents change) else act (.swap key etag contents change)

/-- `update` after its write; `retry` is the rest of the loop. -/
def settle (contents : Text) (retry : M T Unit) (answer : WriteAnswer Text T) : M T Unit :=
  match answer with
  | .applied _ => return ()
  | .conflict => retry
  | .failed => throw .storage
  | .unknown => do
    let observed : ReadAnswer Text T ← act (.read key "")
    match observed with
    | .found object => if object.contents = contents then return () else retry
    | _ => retry

/-- One attempt of `update` after its read. -/
def attemptWith (apply : List PendingTriggerEvent → Except Err (List PendingTriggerEvent)) (change : Change)
    (retry : M T Unit) (found : Document × String) : M T Unit :=
  match apply found.1.events with
  | .error err => throw err
  | .ok events =>
    if equalPendingEvents events found.1.events then return ()
    else match marshal events with
      | none => throw (.other "trigger inbox encoding failed")
      | some contents =>
        if maxTriggerInboxBytes < marshaledSize events then throw .triggerInboxFull
        else do
          let answer ← write key found.2 contents change
          settle key contents retry answer

/-- `update`, with the attempts it has left. -/
def update (apply : List PendingTriggerEvent → Except Err (List PendingTriggerEvent)) (change : Change) : Nat → M T Unit
  | 0 => throw .conflict
  | attempts + 1 => do
    let found ← read key
    attemptWith key apply change (update apply change attempts) found

/-- The change that `Add` makes. -/
def added (event : PendingTriggerEvent) (events : List PendingTriggerEvent) : Except Err (List PendingTriggerEvent) :=
  if events.any (fun pending => pending.id == event.id) then .ok events
  else if maxPendingTriggerEvents ≤ events.length then .error .triggerInboxFull
  else .ok (events ++ [event])

/-- The change that `Remove` makes: the first event with the id goes. -/
def removed (eventID : Bytes) (events : List PendingTriggerEvent) : Except Err (List PendingTriggerEvent) :=
  .ok (events.eraseP (fun pending => pending.id == eventID))

def add (event : PendingTriggerEvent) : M T Unit :=
  if trimSpace event.id = [] ∨ Json.parse maxNestingDepth event.event = none then
    throw (.other "trigger inbox event identity or contents are invalid")
  else update key (added event) (.add event) maxTriggerInboxAttempts

def remove (eventID : Bytes) : M T Unit := update key (removed eventID) (.remove eventID) maxTriggerInboxAttempts

def pending : M T (List PendingTriggerEvent) := do
  let found ← read key
  return found.1.events

/-! ## Calls -/

inductive Call where
  | add (event : PendingTriggerEvent)
  | remove (eventID : Bytes)
  | pending

/-- A call returns `nil`, or the pending events. -/
def Call.program : Call → Prog Op (Ans T) (Except Err (List PendingTriggerEvent))
  | .add event => ((fun _ => []) <$> Inbox.add key event : M T (List PendingTriggerEvent)).run
  | .remove eventID => ((fun _ => []) <$> Inbox.remove key eventID : M T (List PendingTriggerEvent)).run
  | .pending => (Inbox.pending key : M T (List PendingTriggerEvent)).run

/-- Who wrote a version of the head. -/
structure Writer (ι : Type) where
  call   : ι
  change : Change

structure World (ι κ : Type) where
  objects    : Objects Text (Writer ι)
  headExists : κ → Bool

variable {ι κ : Type} [DecidableEq κ] (inbox : ι → κ)

/-- **What an operation of call `i`, made on `inbox i`, may answer and leave behind.** -/
def step (i : ι) : (o : Op) → World ι κ → Ans (Writer ι) o → World ι κ → Prop
  | .read key version, w, a, w' => Reads w.objects key version a ∧ w' = w
  | .create key contents change, w, a, w' =>
    ∃ s, Creates w.objects key contents ⟨i, change⟩ a s ∧ w' = { w with objects := s }
  | .swap key etag contents change, w, a, w' =>
    ∃ s, Swaps w.objects key etag contents ⟨i, change⟩ a s ∧ w' = { w with objects := s }
  | .loadHeadExists, w, a, w' => a = w.headExists (inbox i) ∧ w' = w
  | .storeHeadExists, w, _, w' =>
    w' = { w with headExists := fun j => if j = inbox i then true else w.headExists j }

end Inbox
end Dex
