import DexConnectors.LibNumberText
/-!
# RelayModel — `VerifyRelayedRequest` and the scope token it reads (`sdkgo/projectconfig/relayed_trigger.go`, `credential_broker.go`)

A `Broker` is the client's cached token, guarded by its mutex.  What a call does between two locks is one step: it takes the
token, then may start a renewal, then renews.  The other requests of the client take and renew the same token.  A
`Verification` is one call; it carries what it read from its header, checked.  `starts` is ghost: the clock readings at which
mismatches started renewals, newest first.

`hmac` is HMAC-SHA256 by key and message.  A `Time` is counted in nanoseconds from the start of year one, the zero time, in
64 bits of seconds.  `Reads` is what the project's storage answers in one step.
-/
namespace Dex
namespace Relay

open Lib Lib.Utf8

/-! ## Times -/

abbrev Time := Int

def second : Int := 1000000000

/-- Seconds are kept in 64 bits. -/
def wrap (seconds : Int) : Int := seconds.bmod (2 ^ 64)

/-- The Unix epoch, in seconds. -/
def unixToInternal : Int := 62135596800

/-- `time.Unix(seconds, 0)`. -/
def unix (seconds : Int) : Time := wrap (seconds + unixToInternal) * second

/-- `Unix`. -/
def unixSeconds (t : Time) : Int := wrap (t / second - unixToInternal)

/-- `Sub` saturates. -/
def sub (t u : Int) : Int := max (-2 ^ 63) (min (2 ^ 63 - 1) (t - u))

def relayTimestampTolerance : Int := 300 * second

def relayTokenRenewalInterval : Int := 30 * second

/-! ## Signatures -/

def relayTimestampHeader : Bytes := ascii "Dex-Relay-Timestamp"

def relaySignatureHeader : Bytes := ascii "Dex-Relay-Signature"

def relaySignatureVersion : Bytes := ascii "v1"

/-- `sha256.Size`. -/
def sha256Size : Nat := 32

abbrev Header := List (Bytes × List Bytes)

/-- `http.Header.Get` of a canonical name. -/
def Header.get (h : Header) (name : Bytes) : Bytes := ((h.lookup name).bind List.head?).getD []

/-- `strings.CutPrefix` of the version and its equals sign. -/
def cutVersion (value : Bytes) : Option Bytes :=
  if (relaySignatureVersion ++ [0x3D]).isPrefixOf value then some (value.drop (relaySignatureVersion.length + 1)) else none

/-- What the signature is of. -/
def relayMessage (timestamp body : Bytes) : Bytes := relaySignatureVersion ++ [0x3A] ++ timestamp ++ [0x3A] ++ body

section Signing

variable (hmac : Bytes → Bytes → Bytes)

def relaySignature (token timestamp body : Bytes) : Bytes := hmac token (relayMessage timestamp body)

def signRelayedRequest (token : Bytes) (timestamp : Time) (body : Bytes) : Bytes :=
  relaySignatureVersion ++ [0x3D] ++ hexEncode (relaySignature hmac token (formatInt (unixSeconds timestamp)) body)

end Signing

/-! ## The token -/

structure Broker (Ref : Type) where
  token               : Bytes              -- empty when none is cached
  tokenReference      : Ref
  lastMismatchRenewal : Time               -- the zero time before the first

/-- What the storage answers: the token reference of the current head, if the head is read and has one, and the token of a
reference. -/
structure Reads (Ref : Type) where
  head  : Option (Option Ref)
  token : Ref → Option Bytes

variable {Ref : Type}

def bearerToken (b : Broker Ref) (r : Reads Ref) : Broker Ref × Option Bytes :=
  if b.token ≠ [] then (b, some b.token)
  else
    match r.token b.tokenReference with
    | none => (b, none)
    | some token => ({ b with token := token }, some token)

def renewBearerToken (b : Broker Ref) (refused : Bytes) (r : Reads Ref) : Broker Ref × Option Bytes :=
  if b.token ≠ [] ∧ b.token ≠ refused then (b, some b.token)
  else
    -- a head that cannot be read leaves the current reference
    let reference := (r.head.bind id).getD b.tokenReference
    match r.token reference with
    | none => ({ b with token := [], tokenReference := reference }, none)
    | some token => ({ b with token := token, tokenReference := reference }, some token)

inductive Mismatch where
  | current (token : Bytes)      -- another call renewed it
  | limited
  | started
  deriving DecidableEq

/-- The locked part of `renewBearerTokenAfterMismatch`. -/
def startMismatchRenewal (b : Broker Ref) (mismatched : Bytes) (now : Time) : Broker Ref × Mismatch :=
  if b.token ≠ [] ∧ b.token ≠ mismatched then (b, .current b.token)
  else if b.lastMismatchRenewal ≠ 0 ∧ sub now b.lastMismatchRenewal < relayTokenRenewalInterval then (b, .limited)
  else ({ b with lastMismatchRenewal := now }, .started)

/-! ## A verification -/

structure Request where
  header     : Header
  body       : Bytes
  receivedAt : Time
  deriving DecidableEq

def Request.timestamp (q : Request) : Bytes := q.header.get relayTimestampHeader

def isFresh (receivedAt : Time) (seconds : Int) : Bool :=
  !(decide (sub receivedAt (unix seconds) > relayTimestampTolerance) ||
    decide (sub receivedAt (unix seconds) < -relayTimestampTolerance))

/-- **What a request's header says**, once it passed the checks. -/
structure Signed (q : Request) where
  seconds  : Int
  received : Bytes
  parsed   : parseInt q.timestamp = some seconds
  decoded  : (cutVersion (q.header.get relaySignatureHeader)).bind hexDecode = some received
  fresh    : isFresh q.receivedAt seconds = true
  size     : received.length = sha256Size

/-- The checks before the token is read. -/
def readSigned (q : Request) : Option (Signed q) :=
  match hparsed : parseInt q.timestamp with
  | none => none
  | some seconds =>
    if hfresh : isFresh q.receivedAt seconds = true then
      match hdecoded : (cutVersion (q.header.get relaySignatureHeader)).bind hexDecode with
      | none => none
      | some received =>
        if hsize : received.length = sha256Size then some ⟨seconds, received, hparsed, hdecoded, hfresh, hsize⟩ else none
    else none

inductive Result where
  | accepted (token : Bytes)               -- nil; the token is the one the signature matched
  | signatureInvalid
  | brokerUnavailable
  | noBroker
  deriving DecidableEq

inductive Verification where
  | arrived (q : Request)
  | mismatched (q : Request) (s : Signed q) (token : Bytes)
  | renewing (q : Request) (s : Signed q) (token : Bytes)
  | finished (q : Request) (result : Result)

def Verification.request : Verification → Request
  | .arrived q | .mismatched q _ _ | .renewing q _ _ | .finished q _ => q

def Verification.result : Verification → Option Result
  | .finished _ result => some result
  | _ => none

section Verifying

variable (hmac : Bytes → Bytes → Bytes)

/-- `hmac.Equal` with the signature under a token. -/
def matchesToken (q : Request) (s : Signed q) (token : Bytes) : Bool :=
  s.received == relaySignature hmac token q.timestamp q.body

/-- `VerifyRelayedRequest` up to its next lock, and the clock reading of a renewal that it starts. -/
def advance (b : Broker Ref) (now : Time) (r : Reads Ref) : Verification → Broker Ref × Verification × Option Time
  | .arrived q =>
    match readSigned q with
    | none => (b, .finished q .signatureInvalid, none)
    | some s =>
      match bearerToken b r with
      | (b', none) => (b', .finished q .brokerUnavailable, none)
      | (b', some token) =>
        (b', if matchesToken hmac q s token then .finished q (.accepted token) else .mismatched q s token, none)
  | .mismatched q s token =>
    match startMismatchRenewal b token now with
    | (b', .current renewed) =>
      (b', .finished q (if matchesToken hmac q s renewed then .accepted renewed else .signatureInvalid), none)
    | (b', .limited) => (b', .finished q .signatureInvalid, none)
    | (b', .started) => (b', .renewing q s token, some now)
  | .renewing q s token =>
    match renewBearerToken b token r with
    | (b', none) => (b', .finished q .brokerUnavailable, none)
    | (b', some renewed) =>
      (b', .finished q (if renewed ≠ token ∧ matchesToken hmac q s renewed = true then .accepted renewed else .signatureInvalid),
        none)
  | .finished q result => (b, .finished q result, none)

/-! ## Runs -/

/-- A loaded project: its client, none without a credential broker, and the calls. -/
structure System (Ref : Type) where
  broker : Option (Broker Ref)
  calls  : List Verification
  starts : List Time

inductive Event (Ref : Type) where
  | arrive (q : Request)
  | advance (i : Nat) (now : Time) (r : Reads Ref)
  | bearer (r : Reads Ref)                          -- `exchange` takes the token
  | refused (token : Bytes) (r : Reads Ref)         -- and renews it after HTTP 401

def step (st : System Ref) : Event Ref → System Ref
  | .arrive q => { st with calls := st.calls ++ [.arrived q] }
  | .advance i now r =>
    match st.calls[i]?, st.broker with
    | none, _ => st
    | some (.arrived q), none => { st with calls := st.calls.set i (.finished q .noBroker) }
    | some _, none => st
    | some v, some b =>
      match advance hmac b now r v with
      | (b', v', started) => ⟨some b', st.calls.set i v', started.toList ++ st.starts⟩
  | .bearer r => { st with broker := st.broker.map (fun b => (bearerToken b r).1) }
  | .refused token r => { st with broker := st.broker.map (fun b => (renewBearerToken b token r).1) }

/-- A project that was loaded with the pinned reference. -/
def initial (reference : Option Ref) : System Ref := ⟨reference.map (fun ref => ⟨[], ref, 0⟩), [], []⟩

def run (reference : Option Ref) (events : List (Event Ref)) : System Ref := events.foldl (step hmac) (initial reference)

end Verifying

end Relay
end Dex
