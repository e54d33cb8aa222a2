import DexConnectors.LibObjectStore
import DexConnectors.LibTimestamp
/-!
# ConnectionWire — connection heads and credential envelopes as JSON values

What the Python and TypeScript stores read from and write to an object.  A JSON text is the value it denotes and a way of
spelling it: `spelling` zero is the canonical one that `go_canonical_json_bytes` and `encodeGoCompatibleJSON` write, so
equal bytes are equal texts, and texts of one value compare equal only after parsing.  A text whose value is neither a
head nor an envelope, with their members and types, denotes `other`.

An absent `expiresAt`, `attemptId`, `credential` or `mutation` is `none`; credentials are an opaque JSON object.
-/
namespace Dex
namespace Wire

open Lib Lib.Rfc3339

structure ConnectionKey where
  connectorID    : String
  connectionName : String
  deriving DecidableEq, Repr

structure Scope where
  projectID : String
  kind      : String
  deriving DecidableEq, Repr

inductive Status where
  | ready
  | authorizing
  | refreshing
  | reauthorizationRequired
  | revoked
  deriving DecidableEq, Repr

def Status.text : Status → String
  | .ready => "READY"
  | .authorizing => "AUTHORIZING"
  | .refreshing => "REFRESHING"
  | .reauthorizationRequired => "REAUTHORIZATION_REQUIRED"
  | .revoked => "REVOKED"

structure Reference where
  key     : String
  version : String
  digest  : String
  deriving DecidableEq, Repr

structure Mutation where
  kind         : String
  invocationID : String
  id           : String
  fence        : Nat
  baseRevision : Nat
  deadline     : Stamp
  resultKey    : String
  deriving DecidableEq, Repr

structure Record where
  schemaVersion : String
  connection    : ConnectionKey
  scope         : Scope
  revision      : Nat
  fence         : Nat
  status        : Status
  expiresAt     : Option Stamp
  authMethod    : String
  credential    : Option Reference
  mutation      : Option Mutation
  deriving DecidableEq, Repr

structure Envelope where
  schemaVersion : String
  scope         : Scope
  connection    : ConnectionKey
  fence         : Nat
  attemptID     : Option String
  credentials   : String
  expiresAt     : Option Stamp
  authMethod    : String
  deriving DecidableEq, Repr

inductive Value where
  | head (record : Record)
  | envelope (envelope : Envelope)
  | other
  deriving DecidableEq, Repr

structure Text where
  value    : Value
  spelling : Nat
  deriving DecidableEq, Repr

/-- The canonical text of a value. -/
def dumps (value : Value) : Text := ⟨value, 0⟩

def connectionSchemaVersion : String := "connectors.dex.dev/project-connection/v1alpha2"

def headPath (path : String) : String := path ++ "/head"

def credentialPath (path digest : String) : String := path ++ "/credentials/" ++ digest

def resultPath (path attemptID : String) : String := path ++ "/exchange-results/" ++ attemptID

/-- `key.startswith(path + "/")`. -/
def isBelow (path key : String) : Bool := (path ++ "/").toList.isPrefixOf key.toList

def isHexDigit (c : Char) : Bool := ('0' ≤ c && c ≤ '9') || ('a' ≤ c && c ≤ 'f')

/-- `[0-9a-f]{64}`. -/
def isDigest (text : String) : Bool := text.toList.length == 64 && text.toList.all isHexDigit

/-- `[A-Za-z0-9_-]{1,128}`. -/
def isAttemptID (text : String) : Bool :=
  1 ≤ text.toList.length && text.toList.length ≤ 128 &&
    text.toList.all (fun c => ('a' ≤ c && c ≤ 'z') || ('A' ≤ c && c ≤ 'Z') || ('0' ≤ c && c ≤ '9') || c == '_' || c == '-')

/-! ## Object keys -/

theorem append_left_cancel {a b c : String} (h : a ++ b = a ++ c) : b = c := by
  have := congrArg String.toList h
  rw [String.toList_append, String.toList_append] at this
  exact String.toList_injective (List.append_cancel_left this)

theorem headPath_ne_credentialPath (path digest : String) : headPath path ≠ credentialPath path digest := by
  unfold headPath credentialPath
  rw [String.append_assoc]
  intro h
  have := congrArg String.toList (append_left_cancel h)
  rw [String.toList_append] at this
  simp at this

theorem headPath_ne_resultPath (path attemptID : String) : headPath path ≠ resultPath path attemptID := by
  unfold headPath resultPath
  rw [String.append_assoc]
  intro h
  have := congrArg String.toList (append_left_cancel h)
  rw [String.toList_append] at this
  simp at this

theorem resultPath_injective {path a b : String} (h : resultPath path a = resultPath path b) : a = b :=
  append_left_cancel h

end Wire
end Dex
