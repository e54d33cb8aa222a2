import DexConnectors.LibUnicode
import DexConnectors.ConfigWire
/-!
# S3Model — `S3ObjectStore` over a versioned bucket (`sdkgo/projectconfig/s3.go`,
`sdkpython/.../projectconfig/storage.py`, `sdkts/src/projectconfig/storage.ts`)

The three SDKs keep the project's objects in a bucket by the same requests: a read names a key and at most a version, a write
is conditional and names the encryption key.  `Adapter` holds what they do differently: how long a key may be, how an
answer is checked, and what an error means.

S3 and its client are not part of the repository.  `request` says what is relied on: a read answers with a version of the key,
a condition is decided and the write applied in one step, and an error that names the condition or a missing object is
answered without writing.  Any other error, and no answer at all, leaves open whether a write was applied.  The headers of
an answer may be missing.  The client may send a request again after an error: `again` is what its retryer, its quota and
its context decide.  The body of an object is any type with a length.
-/
namespace Dex
namespace S3

open Lib Lib.Store ConfigStore

def maximumObjectBytes : Nat := 4 * 1024 * 1024

variable {X T : Type}

/-! ## Requests -/

structure GetObjectInput where
  key       : String
  versionID : Option String
  deriving DecidableEq, Repr

/-- `writer` is ghost. -/
structure GetObjectOutput (X T : Type) where
  versionID            : Option String
  etag                 : Option String
  serverSideEncryption : String
  sseKMSKeyID          : Option String
  body                 : Option X           -- none: it could not be read to its end
  writer               : T

structure PutObjectInput (X : Type) where
  key                  : String
  body                 : X
  contentType          : String
  ifNoneMatch          : Option String
  ifMatch              : Option String
  serverSideEncryption : String
  sseKMSKeyID          : Option String

structure PutObjectOutput (T : Type) where
  versionID : Option String
  etag      : Option String
  writer    : T

/-- An error that the service answered. -/
structure APIError where
  code   : String
  status : Nat
  deriving DecidableEq, Repr

inductive Response (O : Type) where
  | output (output : O)
  | error (error : Option APIError)         -- none: no answer of the service

/-- An answer, and whether the client sends the request again if it may. -/
structure Attempt (O : Type) where
  response : Response O
  again    : Bool

inductive Request (X : Type) where
  | getObject (input : GetObjectInput)
  | putObject (input : PutObjectInput X)

@[reducible] def Reply (X T : Type) : Request X → Type
  | .getObject _ => Attempt (GetObjectOutput X T)
  | .putObject _ => Attempt (PutObjectOutput T)

/-- A request sent at most `retries` times again. -/
def getObject : Nat → GetObjectInput → Prog (Request X) (Reply X T) (Response (GetObjectOutput X T))
  | 0, input => .call (.getObject input) (fun attempt => .ret attempt.response)
  | retries + 1, input => .call (.getObject input) (fun attempt =>
      match attempt.response, attempt.again with
      | .error _, true => getObject retries input
      | response, _ => .ret response)

def putObject : Nat → PutObjectInput X → Prog (Request X) (Reply X T) (Response (PutObjectOutput T))
  | 0, input => .call (.putObject input) (fun attempt => .ret attempt.response)
  | retries + 1, input => .call (.putObject input) (fun attempt =>
      match attempt.response, attempt.again with
      | .error _, true => putObject retries input
      | response, _ => .ret response)

/-! ## The service -/

structure Stored (X T : Type) where
  versionID   : String
  etag        : String
  body        : X
  sseKMSKeyID : Option String
  writer      : T

/-- The versions of every key of a bucket, newest first. -/
abbrev Bucket (X T : Type) := String → List (Stored X T)

def Stored.version (v : Stored X T) : Version X T := ⟨v.versionID, v.etag, v.body, v.writer⟩

def find (b : Bucket X T) (input : GetObjectInput) : Option (Stored X T) :=
  match input.versionID with
  | none => (b input.key).head?
  | some id => (b input.key).find? (fun v => v.versionID == id)

def addVersion (b : Bucket X T) (key : String) (v : Stored X T) : Bucket X T := fun k => if k = key then v :: b k else b k

def isMissingCode (code : String) : Bool := ["NoSuchKey", "NoSuchVersion", "NotFound"].contains code

def isConflictCode (code : String) : Bool := ["PreconditionFailed", "ConditionalRequestConflict", "OperationAborted"].contains code

/-- The object, or the version of it, does not exist. -/
def APIError.missing (e : APIError) : Bool := isMissingCode e.code || e.status == 404

/-- The write was not applied. -/
def APIError.refuses (e : APIError) : Bool := e.missing || isConflictCode e.code || e.status == 409 || e.status == 412

/-- The headers of an answer are those of the version, where they are there. -/
def Identifies (versionID etag : Option String) (v : Stored X T) : Prop :=
  (∀ id, versionID = some id → id = v.versionID) ∧ ∀ tag, etag = some tag → tag = v.etag

def Gets (b : Bucket X T) (input : GetObjectInput) : Response (GetObjectOutput X T) → Prop
  | .output o => ∃ v, find b input = some v ∧ Identifies o.versionID o.etag v ∧ (∀ body, o.body = some body → body = v.body) ∧
      o.sseKMSKeyID = v.sseKMSKeyID ∧ o.writer = v.writer
  | .error (some e) => e.missing = true → find b input = none
  | .error none => True

/-- The conditions of a write. -/
def Admits (b : Bucket X T) (input : PutObjectInput X) : Prop :=
  (input.ifNoneMatch = some "*" → b input.key = []) ∧
  ∀ etag, input.ifMatch = some etag → ∃ v, (b input.key).head? = some v ∧ v.etag = etag

/-- What may be answered of a version that was written. -/
def Acknowledges (v : Stored X T) : Response (PutObjectOutput T) → Prop
  | .output o => Identifies o.versionID o.etag v ∧ o.writer = v.writer
  | .error (some e) => e.refuses = false
  | .error none => True

/-- A version that a bucket with versioning enabled may give a body. -/
structure Written (b : Bucket X T) (input : PutObjectInput X) (writer : T) (v : Stored X T) : Prop where
  fresh       : Fresh (fun key => (b key).map Stored.version) input.key v.version
  named       : v.versionID ≠ "null"
  body        : v.body = input.body
  sseKMSKeyID : v.sseKMSKeyID = input.sseKMSKeyID
  writer      : v.writer = writer

def Puts (b : Bucket X T) (input : PutObjectInput X) (writer : T) (response : Response (PutObjectOutput T))
    (b' : Bucket X T) : Prop :=
  (Admits b input ∧ ∃ v, Written b input writer v ∧ b' = addVersion b input.key v ∧ Acknowledges v response) ∨
  (b' = b ∧ ∃ e, response = .error e)

/-- **What a request may be answered and leave behind.** -/
def request {ι : Type} (i : ι) : (q : Request X) → Bucket X ι → Reply X ι q → Bucket X ι → Prop
  | .getObject input, b, attempt, b' => Gets b input attempt.response ∧ b' = b
  | .putObject input, b, attempt, b' => Puts b input i attempt.response b'

/-! ## The adapter -/

/-- `validateObjectKey`, given how long a text is. -/
def validateObjectKey (length : String → Nat) (key : String) : Bool :=
  key != "" && length key ≤ 1024 && key.toList.head? != some '/' &&
    key.toList.all (fun c => c != '\\' && c != '\x00' && c != '\r' && c != '\n') &&
    (key.toList.splitOn '/').all (fun segment => segment != [] && segment != ['.'] && segment != ['.', '.'])

/-- **What one SDK does its own way.**  `accept` checks the answer to a read of a version. -/
structure Adapter (X : Type) where
  keyPrefix            : String
  kmsKey               : String
  size                 : X → Nat
  validateObjectKey    : String → Bool
  accept               : {T : Type} → String → GetObjectOutput X T → Except Err (Version X T)
  classifyStorageError : Option APIError → Bool → Err

variable (store : Adapter X)

def Adapter.validateContents (contents : X) : Bool := store.size contents != 0 && store.size contents ≤ maximumObjectBytes

def Adapter.readInput (key version : String) : GetObjectInput :=
  ⟨store.keyPrefix ++ key, if version = "" then none else some version⟩

/-- The end of a read. -/
def Adapter.received (version : String) : Response (GetObjectOutput X T) → Except Err (Version X T)
  | .output o => store.accept version o
  | .error e => .error (store.classifyStorageError e false)

/-- `ReadObject`, by a client that sends a read again at most `retries` times. -/
def Adapter.readObject (retries : Nat) (key version : String) : Prog (Request X) (Reply X T) (Except Err (Version X T)) :=
  if !store.validateObjectKey key then .ret (.error (.invalid "invalid project object key"))
  else getObject retries (store.readInput key version) >>= fun response => .ret (store.received version response)

def Adapter.writeInput (key etag : String) (contents : X) : PutObjectInput X where
  key := store.keyPrefix ++ key
  body := contents
  contentType := "application/json"
  ifNoneMatch := if etag = "" then some "*" else none
  ifMatch := if etag = "" then none else some etag
  serverSideEncryption := if store.kmsKey = "" then "" else "aws:kms"
  sseKMSKeyID := if store.kmsKey = "" then none else some store.kmsKey

/-- The end of a write. -/
def Adapter.written (contents : X) : Response (PutObjectOutput T) → Except Err (Version X T)
  | .error e => .error (store.classifyStorageError e true)
  | .output o =>
    if o.versionID.getD "" = "" ∨ o.versionID = some "null" ∨ o.etag.getD "" = "" then .error .outcomeUnknown
    else .ok ⟨o.versionID.getD "", o.etag.getD "", contents, o.writer⟩

/-- `writeObject`, by a client that sends a write again at most `retries` times. -/
def Adapter.writeObject (retries : Nat) (key etag : String) (contents : X) :
    Prog (Request X) (Reply X T) (Except Err (Version X T)) :=
  if !store.validateObjectKey key then .ret (.error (.invalid "invalid project object key"))
  else if !store.validateContents contents then .ret (.error (.invalid "project object body is empty or oversized"))
  else putObject retries (store.writeInput key etag contents) >>= fun response => .ret (store.written contents response)

def Adapter.createObject (retries : Nat) (key : String) (contents : X) :
    Prog (Request X) (Reply X T) (Except Err (Version X T)) := store.writeObject retries key "" contents

def Adapter.compareAndSwapObject (retries : Nat) (key expectedETag : String) (contents : X) :
    Prog (Request X) (Reply X T) (Except Err (Version X T)) :=
  if expectedETag = "" then .ret (.error (.invalid "object compare-and-swap requires an ETag"))
  else store.writeObject retries key expectedETag contents

/-! ## The three SDKs -/

/-- The identity that an answer must have. -/
def hasIdentity (version : String) (o : GetObjectOutput X T) : Bool :=
  o.versionID.getD "" != "" && o.versionID != some "null" && o.etag.getD "" != "" &&
    (version == "" || o.versionID == some version)

/-- The encryption that an answer must have. -/
def isEncrypted (kmsKey : String) (o : GetObjectOutput X T) : Bool :=
  kmsKey == "" || (o.serverSideEncryption == "aws:kms" && o.sseKMSKeyID.getD "" == kmsKey)

def unavailable : Err := .invalid "project object body is unavailable or oversized"

def checkIdentity (version kmsKey : String) (o : GetObjectOutput X T) : Except Err Unit :=
  if !hasIdentity version o then .error (.invalid "project object lacks exact version identity")
  else if !isEncrypted kmsKey o then .error (.invalid "project object encryption boundary differs")
  else .ok ()

def checkBody (size : X → Nat) (o : GetObjectOutput X T) (body : X) : Except Err (Version X T) :=
  if size body = 0 ∨ size body > maximumObjectBytes then .error unavailable
  else .ok ⟨o.versionID.getD "", o.etag.getD "", body, o.writer⟩

/-- The checks of an answer; `broken` is raised for a body that cannot be read to its end. -/
def accept (broken : Err) (size : X → Nat) (kmsKey version : String) (o : GetObjectOutput X T) : Except Err (Version X T) :=
  match checkIdentity version kmsKey o, o.body with
  | .error e, _ => .error e
  | .ok (), none => .error broken
  | .ok (), some body => checkBody size o body

namespace Go

def classifyStorageError (e : Option APIError) (isWrite : Bool) : Err :=
  match e with
  | some e =>
    if isMissingCode e.code then .objectNotFound
    else if isConflictCode e.code then .conflict
    else if isWrite then .outcomeUnknown else .storage
  | none => if isWrite then .outcomeUnknown else .storage

def adapter (size : X → Nat) (keyPrefix kmsKey : String) : Adapter X :=
  ⟨keyPrefix, kmsKey, size, S3.validateObjectKey byteLength, accept unavailable size kmsKey, classifyStorageError⟩

end Go

namespace Python

/-- `_classify_storage_error`. -/
def classifyStorageError (e : Option APIError) (isWrite : Bool) : Err :=
  let status := e.map (·.status)
  if status = some 404 ∧ isWrite = false then .objectNotFound
  else if status = some 409 ∨ status = some 412 then .conflict
  else if isWrite then .outcomeUnknown else .storage

def adapter (size : X → Nat) (keyPrefix kmsKey : String) : Adapter X :=
  ⟨keyPrefix, kmsKey, size, S3.validateObjectKey String.length, accept .storage size kmsKey, classifyStorageError⟩

end Python

namespace TypeScript

/-- The name of an error is its code. -/
def classifyStorageError (e : Option APIError) (isWrite : Bool) : Err :=
  let code := (e.map (·.code)).getD ""
  if isMissingCode code then .objectNotFound
  else if isConflictCode code then .conflict
  else if isWrite then .outcomeUnknown else .storage

def adapter (size : X → Nat) (keyPrefix kmsKey : String) : Adapter X :=
  ⟨keyPrefix, kmsKey, size, S3.validateObjectKey (fun key => (Unicode.utf16 key.toList).length), accept .storage size kmsKey,
    classifyStorageError⟩

end TypeScript

inductive SDK where
  | go
  | python
  | typeScript
  deriving DecidableEq, Repr

def adapter : SDK → (X → Nat) → String → String → Adapter X
  | .go => Go.adapter
  | .python => Python.adapter
  | .typeScript => TypeScript.adapter

end S3
end Dex
