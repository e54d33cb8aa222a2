import DexConnectors.LibJsonGrammar
import Mathlib.Logic.Relation
/-!
# CallReport — the call report of the mocks (`sdkgo/connectormock/report.go`, `sdkpython/.../connectormock/__init__.py`)

Any number of processes append to one report, each call under a lock file.  One file operation is one step, and so is one look
at the clock; `PC` says which comes next.  Time passes in steps of its own.  The file system answers every operation, so an
append fails only where the code says so.  `maker` is ghost: no operation reads it.

Both languages write a call with the same bytes; a `str` is the bytes of its UTF-8 encoding.
-/
namespace Dex
namespace CallReport

open Lib Lib.Utf8 Lib.Json

/-! ## A call as JSON -/

structure ReportedCall where
  connection   : Bytes
  operation    : Bytes
  branch       : Bytes
  connectorID  : Bytes
  flowID       : Bytes
  callID       : Bytes
  isRetry      : Bool
  isReplay     : Bool
  isUnscripted : Bool

def text (name : String) (value : Bytes) : Bytes × Token := (ascii name, .string (quote value))

/-- `omitempty`. -/
def textOmitempty (name : String) (value : Bytes) : List (Bytes × Token) := if value = [] then [] else [text name value]

def flagOmitempty (name : String) (value : Bool) : List (Bytes × Token) :=
  if value then [(ascii name, .literal (ascii "true"))] else []

/-- The members in the order in which they are written. -/
def ReportedCall.fields (call : ReportedCall) : List (Bytes × Token) :=
  text "connection" call.connection :: text "operation" call.operation ::
    (textOmitempty "branch" call.branch ++ text "connectorId" call.connectorID ::
      (textOmitempty "flowId" call.flowID ++ (textOmitempty "callId" call.callID ++
        (flagOmitempty "retry" call.isRetry ++ (flagOmitempty "replay" call.isReplay ++ flagOmitempty "unscripted" call.isUnscripted)))))

def membersTokens : List (Bytes × Token) → List Token
  | [] => [.punct 0x7D]
  | [(name, value)] => [.string name, .punct 0x3A, value, .punct 0x7D]
  | (name, value) :: rest => .string name :: .punct 0x3A :: value :: .punct 0x2C :: membersTokens rest

def ReportedCall.tokens (call : ReportedCall) : List Token := .punct 0x7B :: membersTokens call.fields

/-- `json.Marshal(reportedCall{...})` and `go_canonical_json_bytes(call.to_report_wire())`. -/
def ReportedCall.marshal (call : ReportedCall) : Bytes := render call.tokens

/-! ## The file operations -/

inductive Lang where
  | go
  | python

/-- In nanoseconds. -/
def reportLockTimeout : Nat := 30 * 1000000000

def reportLockStale : Nat := 10 * 1000000000

def reportOpen : Bytes := ascii "\x7b\"calls\":["

def reportClose : Bytes := ascii "]\x7d"

/-- What an append does next. -/
inductive PC where
  | start
  | create (deadline : Nat)
  | examine (deadline : Nat)
  | removeStale (deadline : Nat)
  | wait (deadline : Nat)
  | openReport
  | measure
  | readTail (size : Nat)
  | write (offset : Nat) (entry : Bytes)
  | truncate (size : Nat)
  | release (ok : Bool)
  | returned (ok : Bool)
  | killed
  deriving DecidableEq

/-- The append has the lock, as far as it knows. -/
def PC.holds : PC → Bool
  | .openReport | .measure | .readTail _ | .write _ _ | .truncate _ | .release _ => true
  | _ => false

structure LockFile (ι : Type) where
  maker   : ι
  modTime : Nat

structure World (ι : Type) where
  now    : Nat
  lock   : Option (LockFile ι)
  report : Option Bytes
  pc     : ι → PC

/-- `pwrite`: a gap is filled with zeros. -/
def writeAt (contents : Bytes) (offset : Nat) (entry : Bytes) : Bytes :=
  contents.take offset ++ List.replicate (offset - contents.length) 0 ++ entry ++ contents.drop (offset + entry.length)

def truncateTo (contents : Bytes) (size : Nat) : Bytes := contents.take size ++ List.replicate (size - contents.length) 0

section

variable {ι : Type} [DecidableEq ι]

def World.goto (w : World ι) (i : ι) (pc : PC) : World ι := { w with pc := fun j => if j = i then pc else w.pc j }

variable (lang : ι → Lang) (call : ι → ReportedCall)

/-- **The next operation of an append.** -/
def advance (w : World ι) (i : ι) : World ι :=
  match w.pc i with
  | .start => w.goto i (.create (w.now + reportLockTimeout))
  | .create deadline =>
    match w.lock with
    | none => { w.goto i .openReport with lock := some ⟨i, w.now⟩ }
    | some _ => w.goto i (.examine deadline)
  | .examine deadline =>
    match w.lock, lang i with
    | some file, _ => if reportLockStale < w.now - file.modTime then w.goto i (.removeStale deadline) else w.goto i (.wait deadline)
    | none, .go => w.goto i (.wait deadline)
    | none, .python => w.goto i (.create deadline)
  | .removeStale deadline => { w.goto i (.create deadline) with lock := none }
  | .wait deadline =>
    match lang i with
    | .go => if deadline < w.now then w.goto i (.returned false) else w.goto i (.create deadline)
    | .python => if deadline ≤ w.now then w.goto i (.returned false) else w.goto i (.create deadline)
  | .openReport => { w.goto i .measure with report := some (w.report.getD []) }
  | .measure =>
    let size := (w.report.getD []).length
    if size = 0 then w.goto i (.write 0 (reportOpen ++ (call i).marshal)) else w.goto i (.readTail size)
  | .readTail size =>
    if 2 ≤ size ∧ ((w.report.getD []).drop (size - 2)).take 2 = reportClose then
      w.goto i (.write (size - 2) (0x2C :: (call i).marshal))
    else w.goto i (.release false)
  | .write offset entry =>
    let written := entry ++ reportClose
    match lang i with
    | .go => { w.goto i (.release true) with report := some (writeAt (w.report.getD []) offset written) }
    | .python =>
      { w.goto i (.truncate (offset + written.length)) with report := some (writeAt (w.report.getD []) offset written) }
  | .truncate size => { w.goto i (.release true) with report := some (truncateTo (w.report.getD []) size) }
  | .release ok => { w.goto i (.returned ok) with lock := none }
  | .returned _ => w
  | .killed => w

inductive Action (ι : Type) where
  | advance (i : ι)
  | kill (i : ι)
  | tick (nanoseconds : Nat)

def kill (w : World ι) (i : ι) : World ι :=
  match w.pc i with
  | .returned _ => w
  | _ => w.goto i .killed

def act (w : World ι) : Action ι → World ι
  | .advance i => advance lang call w i
  | .kill i => kill w i
  | .tick nanoseconds => { w with now := w.now + nanoseconds }

/-- **One step**: any process goes on or is killed, or time passes. -/
def Step (ok : World ι → Action ι → Prop) (w w' : World ι) : Prop := ∃ a, ok w a ∧ w' = act lang call w a

/-- Steps that satisfy a condition, in any order. -/
def Run (ok : World ι → Action ι → Prop) : World ι → World ι → Prop := Relation.ReflTransGen (Step lang call ok)

end

/-! ## What the report should be -/

section

variable {ι : Type} (call : ι → ReportedCall)

def fieldTree (value : Token) : Tree :=
  match value with
  | .string body => .string (unquote body)
  | .literal word => ofLiteral word
  | .punct _ => .null

def ReportedCall.tree (call : ReportedCall) : Tree := .object (call.fields.map (fun f => (unquote f.1, fieldTree f.2)))

def reportTree (calls : List ReportedCall) : Tree := .object [(ascii "calls", .array (calls.map ReportedCall.tree))]

/-- **The report loses nothing**: where no process holds the lock, it is a JSON document of calls, each append at most once, and
each append that succeeded among them.  There is no report before the first call. -/
def KeepsCalls (w : World ι) : Prop :=
  (∀ i, (w.pc i).holds = false) → ∃ written : List ι, written.Nodup ∧ (∀ i, w.pc i = .returned true → i ∈ written) ∧
    match w.report with
    | none => written = []
    | some contents => Denotes 3 contents (reportTree (written.map call))

/-- **The condition on a step**: a lock file is removed as stale only when its maker is dead, and no process dies while it holds
the lock and the report is empty. -/
def Orderly (w : World ι) : Action ι → Prop
  | .advance i => ∀ deadline, w.pc i = .removeStale deadline → ∀ file, w.lock = some file → w.pc file.maker = .killed
  | .kill i => (w.pc i).holds = true → w.report ≠ some []
  | .tick _ => True

/-- No lock, no report, and every append about to begin. -/
structure Start (w : World ι) : Prop where
  lock   : w.lock = none
  report : w.report = none
  pc     : ∀ i, w.pc i = .start

end

end CallReport
end Dex
