import DexConnectors.ConfigGo
import DexConnectors.OperationWire
/-!
# ConnectionGoWire — connection heads and credential envelopes of the Go store (`sdkgo/projectconfig/connections.go`)

What `json.Marshal` writes and `strictJSON` reads.  Connection names, authorization methods and credentials are the bytes
the caller gave; other strings are valid Unicode, the code having checked those it is given.  A record or an envelope of
times `τ` has `Time` in memory and the groups of its text in an object.

The contents of an object are what a reader makes of the text, and how the text is spelled: spelling zero is the encoder's
own.  Credentials stay a text.  A text that is neither a head nor an envelope is `other`.
-/
namespace Dex
namespace Connections

open Lib Lib.Utf8 Lib.TimeText
open Wire (Scope)
open Operation (Time)
open OperationWire (offsetMinutes fieldsOf)

/-! ## `time.Time` -/

/-- `MarshalJSON`. -/
def marshalTime (t : Time) : Option Fields :=
  if t.civil.year < 0 ∨ 9999 < t.civil.year ∨ 24 ≤ (offsetMinutes t.offset).natAbs / 60 then none else some (fieldsOf t)

/-- The nanoseconds of a fraction; digits after the ninth are cut. -/
def nanoOf (fraction : List (Fin 10)) : Nat := Rfc3339.value (Rfc3339.padded 9 (fraction.map (·.val)))

theorem nanoOf_lt (fraction : List (Fin 10)) : nanoOf fraction < 1000000000 := by
  have hdigits : ∀ d ∈ Rfc3339.padded 9 (fraction.map (·.val)), d < 10 := by
    intro d hd
    unfold Rfc3339.padded at hd
    rcases List.mem_append.1 (List.mem_of_mem_take hd) with hd | hd
    · obtain ⟨x, -, rfl⟩ := List.mem_map.1 hd
      exact x.isLt
    · rw [(List.mem_replicate.1 hd).2]
      decide
  have h := Rfc3339.value_lt hdigits
  rw [Rfc3339.length_padded] at h
  exact h

/-- `UnmarshalJSON`. -/
def unmarshalTime (f : Fields) : Option Time :=
  if h : isDate f.year.val f.month.val f.day.val = true ∧ isClock f.hour.val f.minute.val f.second.val = true ∧
      OperationPython.hasValidZone f.zone = true then
    some ⟨⟨f.year.val, f.month.val, f.day.val, f.hour.val, f.minute.val, f.second.val, h.1, h.2.1⟩, nanoOf f.fraction,
      60 * f.zone.minutes, nanoOf_lt f.fraction⟩
  else none

/-- What is read of a time that was written: its offset is cut to minutes. -/
def reread (t : Time) : Time := { t with offset := 60 * offsetMinutes t.offset }

theorem encodeTime_eq (t : Time) : OperationWire.encodeTime t = (marshalTime t).map Fields.text := by
  unfold OperationWire.encodeTime marshalTime
  split <;> rfl

/-- **A written time is read back**, apart from the seconds of its offset. -/
theorem unmarshalTime_marshalTime {t : Time} {f : Fields} (h : marshalTime t = some f) : unmarshalTime f = some (reread t) := by
  unfold marshalTime at h
  split at h
  · cases h
  next hr =>
    cases h
    have hyear : ((fieldsOf t).year.val : Int) = t.civil.year := by
      show ((t.civil.year.toNat % 10000 : Nat) : Int) = t.civil.year
      omega
    have hmonth : (fieldsOf t).month.val = t.civil.month := Nat.mod_eq_of_lt (by have := t.civil.month_le; omega)
    have hday : (fieldsOf t).day.val = t.civil.day := Nat.mod_eq_of_lt (by have := t.civil.day_le; omega)
    obtain ⟨hh, hm, hs⟩ := t.civil.clock_le
    have hhour : (fieldsOf t).hour.val = t.civil.hour := Nat.mod_eq_of_lt (by omega)
    have hminute : (fieldsOf t).minute.val = t.civil.minute := Nat.mod_eq_of_lt (by omega)
    have hsecond : (fieldsOf t).second.val = t.civil.second := Nat.mod_eq_of_lt (by omega)
    have hoffset : (offsetMinutes t.offset).natAbs / 60 < 24 := by omega
    have hvalid : isDate (fieldsOf t).year.val (fieldsOf t).month.val (fieldsOf t).day.val = true ∧
        isClock (fieldsOf t).hour.val (fieldsOf t).minute.val (fieldsOf t).second.val = true ∧
        OperationPython.hasValidZone (fieldsOf t).zone = true := by
      rw [hyear, hmonth, hday, hhour, hminute, hsecond]
      exact ⟨t.civil.date, t.civil.clock, OperationWire.hasValidZone_zoneOf hoffset⟩
    have hnano : nanoOf (fieldsOf t).fraction = t.nano := by
      have hpad := OperationWire.padded_rdropWhile (OperationWire.decimals 9 t.nano)
      rw [OperationWire.length_decimals] at hpad
      show Rfc3339.value (Rfc3339.padded 9 (((OperationWire.decimals 9 t.nano).rdropWhile (· == 0)).map (·.val))) = t.nano
      rw [hpad, OperationWire.value_decimals]
      exact Nat.mod_eq_of_lt t.inSecond
    unfold unmarshalTime
    rw [dif_pos hvalid]
    simp only [hyear, hmonth, hday, hhour, hminute, hsecond, hnano, reread, Option.some.injEq, Operation.Time.mk.injEq, true_and]
    exact congrArg (60 * ·) (OperationWire.minutes_zoneOf hoffset)

/-- The moment is kept exactly when the offset has no seconds. -/
theorem instant_reread (t : Time) : (reread t).instant = t.instant ↔ t.offset % 60 = 0 := by
  show (t.civil.seconds - 60 * t.offset.tdiv 60) * 1000000000 + (t.nano : Int) =
    (t.civil.seconds - t.offset) * 1000000000 + t.nano ↔ _
  constructor
  · intro h
    omega
  · intro h
    have hdiv : 60 * t.offset.tdiv 60 = t.offset := Int.mul_tdiv_cancel' (Int.dvd_of_emod_eq_zero h)
    rw [hdiv]

theorem reread_of_utc {t : Time} (h : t.offset = 0) : reread t = t := by
  cases t
  subst h
  rfl

/-! ## Records -/

inductive CredentialStatus where
  | ready
  | authorizing
  | refreshing
  | reauthorizationRequired
  | revoked
  | other (text : String)
  deriving DecidableEq, Repr

def CredentialStatus.text : CredentialStatus → String
  | .ready => "READY"
  | .authorizing => "AUTHORIZING"
  | .refreshing => "REFRESHING"
  | .reauthorizationRequired => "REAUTHORIZATION_REQUIRED"
  | .revoked => "REVOKED"
  | .other text => text

structure ConnectionKey where
  connectorID    : String
  connectionName : Bytes
  deriving DecidableEq

structure ObjectReference where
  key     : String
  version : String
  digest  : String
  deriving DecidableEq, Repr

structure CredentialMutation (τ : Type) where
  kind         : String
  invocationID : String
  id           : String
  fence        : UInt64
  baseRevision : UInt64
  deadline     : τ
  resultKey    : String
  deriving DecidableEq

structure ConnectionRecord (τ : Type) where
  schemaVersion : String
  key           : ConnectionKey
  scope         : Scope
  revision      : UInt64
  fence         : UInt64
  status        : CredentialStatus
  expiresAt     : Option τ
  authMethod    : Bytes
  credential    : Option ObjectReference
  mutation      : Option (CredentialMutation τ)
  deriving DecidableEq

structure CredentialEnvelope (τ : Type) where
  schemaVersion : String
  scope         : Scope
  key           : ConnectionKey
  fence         : UInt64
  attemptID     : String              -- empty when absent
  credentials   : Bytes
  expiresAt     : Option τ
  authMethod    : Bytes
  deriving DecidableEq

structure CredentialMaterial where
  credentials : Bytes
  expiresAt   : Option Time
  authMethod  : Bytes
  deriving DecidableEq

inductive Value where
  | head (record : ConnectionRecord Fields)
  | envelope (envelope : CredentialEnvelope Fields)
  | other (text : Bytes)
  deriving DecidableEq

structure Contents where
  value    : Value
  spelling : Nat
  deriving DecidableEq

/-! ## Encoding -/

/-- A member that may be absent. -/
def each {α β : Type} (f : α → Option β) : Option α → Option (Option β)
  | none => some none
  | some a => (f a).map some

def ConnectionKey.repair (key : ConnectionKey) : ConnectionKey := { key with connectionName := Utf8.repair key.connectionName }

def CredentialMutation.withTime {τ τ' : Type} (f : τ → Option τ') (m : CredentialMutation τ) : Option (CredentialMutation τ') :=
  (f m.deadline).map (fun deadline => ⟨m.kind, m.invocationID, m.id, m.fence, m.baseRevision, deadline, m.resultKey⟩)

def ConnectionRecord.withTimes {τ τ' : Type} (f : τ → Option τ') (r : ConnectionRecord τ) : Option (ConnectionRecord τ') := do
  let expiresAt ← each f r.expiresAt
  let mutation ← each (CredentialMutation.withTime f) r.mutation
  some ⟨r.schemaVersion, r.key, r.scope, r.revision, r.fence, r.status, expiresAt, r.authMethod, r.credential, mutation⟩

def ConnectionRecord.repair {τ : Type} (r : ConnectionRecord τ) : ConnectionRecord τ :=
  { r with key := r.key.repair, authMethod := Utf8.repair r.authMethod }

def marshalRecord (record : ConnectionRecord Time) : Option Contents :=
  (record.repair.withTimes marshalTime).map (fun wire => ⟨.head wire, 0⟩)

def marshalEnvelope (e : CredentialEnvelope Time) : Option Contents := do
  let credentials ← Json.compact ConfigStore.Go.maxNestingDepth e.credentials
  let expiresAt ← each marshalTime e.expiresAt
  some ⟨.envelope ⟨e.schemaVersion, e.scope, e.key.repair, e.fence, e.attemptID, credentials, expiresAt,
    Utf8.repair e.authMethod⟩, 0⟩

/-- `strictJSON` into a record. -/
def unmarshalRecord (contents : Contents) : Option (ConnectionRecord Time) :=
  match contents.value with
  | .head wire => wire.withTimes unmarshalTime
  | _ => none

/-- `strictJSON` into an envelope: its credentials stand one level down. -/
def unmarshalEnvelope (contents : Contents) : Option (CredentialEnvelope Time) :=
  match contents.value with
  | .envelope wire =>
    if (Json.parse (ConfigStore.Go.maxNestingDepth - 1) wire.credentials).isSome then
      (each unmarshalTime wire.expiresAt).map (fun expiresAt => ⟨wire.schemaVersion, wire.scope, wire.key, wire.fence,
        wire.attemptID, wire.credentials, expiresAt, wire.authMethod⟩)
    else none
  | _ => none

/-! ## Reading back -/

theorem each_map {α β γ : Type} {f : α → Option β} {g : β → Option γ} {h : α → γ}
    (hfg : ∀ a b, f a = some b → g b = some (h a)) {a : Option α} {b : Option β} (hb : each f a = some b) :
    each g b = some (a.map h) := by
  cases a with
  | none => cases hb; rfl
  | some a =>
    obtain ⟨b, hf, rfl⟩ := Option.map_eq_some_iff.1 hb
    show (g b).map some = _
    rw [hfg a b hf]
    rfl

theorem each_marshalTime {t : Option Time} {f : Option Fields} (h : each marshalTime t = some f) :
    each unmarshalTime f = some (t.map reread) :=
  each_map (fun _ _ => unmarshalTime_marshalTime) h

def CredentialMutation.stored (m : CredentialMutation Time) : CredentialMutation Time := { m with deadline := reread m.deadline }

theorem withTime_marshalTime {m : CredentialMutation Time} {n : CredentialMutation Fields}
    (h : m.withTime marshalTime = some n) : n.withTime unmarshalTime = some m.stored := by
  obtain ⟨deadline, hdeadline, rfl⟩ := Option.map_eq_some_iff.1 h
  show (unmarshalTime deadline).map _ = _
  rw [unmarshalTime_marshalTime hdeadline]
  rfl

/-- What is read of a record that was written. -/
def ConnectionRecord.stored (r : ConnectionRecord Time) : ConnectionRecord Time :=
  { r.repair with
    expiresAt := r.expiresAt.map reread
    mutation := r.mutation.map CredentialMutation.stored }

/-- **A written record is read back.** -/
theorem unmarshalRecord_marshalRecord {r : ConnectionRecord Time} {c : Contents} (h : marshalRecord r = some c) :
    unmarshalRecord c = some r.stored := by
  obtain ⟨wire, hwire, rfl⟩ := Option.map_eq_some_iff.1 h
  obtain ⟨expiresAt, hexpires, hwire⟩ := Option.bind_eq_some_iff.1 hwire
  obtain ⟨mutation, hmutation, hwire⟩ := Option.bind_eq_some_iff.1 hwire
  cases hwire
  have hmutation := each_map (fun _ _ => withTime_marshalTime) hmutation
  show (each unmarshalTime expiresAt).bind (fun _ => (each _ mutation).bind _) = _
  rw [each_marshalTime hexpires, hmutation]
  rfl

/-- What is read of an envelope that was written. -/
def CredentialEnvelope.stored (e : CredentialEnvelope Time) (credentials : Bytes) : CredentialEnvelope Time :=
  { e with
    key := e.key.repair
    credentials := credentials
    expiresAt := e.expiresAt.map reread
    authMethod := Utf8.repair e.authMethod }

/-- **A written envelope is read back** when its credentials nest less than as deep as the scanner goes. -/
theorem unmarshalEnvelope_marshalEnvelope {e : CredentialEnvelope Time} {c : Contents} (h : marshalEnvelope e = some c) :
    ∃ credentials, Json.compact ConfigStore.Go.maxNestingDepth e.credentials = some credentials ∧
      unmarshalEnvelope c =
        if (Json.parse (ConfigStore.Go.maxNestingDepth - 1) e.credentials).isSome then some (e.stored credentials) else none := by
  obtain ⟨credentials, hcompact, hwire⟩ := Option.bind_eq_some_iff.1 h
  obtain ⟨expiresAt, hexpires, hwire⟩ := Option.bind_eq_some_iff.1 hwire
  cases hwire
  refine ⟨credentials, hcompact, ?_⟩
  show (if (Json.parse _ credentials).isSome then (each unmarshalTime expiresAt).map _ else none) = _
  rw [Json.isSome_parse_compact hcompact, each_marshalTime hexpires]
  rfl

/-! ## Keys -/

def base64Digit (n : Nat) : Char :=
  if n < 26 then Char.ofNat (0x41 + n) else if n < 52 then Char.ofNat (0x61 + (n - 26))
  else if n < 62 then Char.ofNat (0x30 + (n - 52)) else if n = 62 then '-' else '_'

/-- `base64.RawURLEncoding`. -/
def base64URL : Bytes → List Char
  | a :: b :: c :: rest =>
    base64Digit (a.toNat / 4) :: base64Digit (a.toNat % 4 * 16 + b.toNat / 16) ::
      base64Digit (b.toNat % 16 * 4 + c.toNat / 64) :: base64Digit (c.toNat % 64) :: base64URL rest
  | [a, b] => [base64Digit (a.toNat / 4), base64Digit (a.toNat % 4 * 16 + b.toNat / 16), base64Digit (b.toNat % 16 * 4)]
  | [a] => [base64Digit (a.toNat / 4), base64Digit (a.toNat % 4 * 16)]
  | [] => []

/-- What `connectionPath` accepts. -/
def isConnectionKey (key : ConnectionKey) : Bool :=
  ConfigStore.Go.regexpConnectorID key.connectorID && trimSpace key.connectionName == key.connectionName &&
    key.connectionName.length != 0 && key.connectionName.length ≤ 256 &&
    !key.connectionName.any (fun b => b == 0x00 || b == 0x0D || b == 0x0A)

def pathOf (scopePath : String) (key : ConnectionKey) : String :=
  scopePath ++ "/connections/" ++ key.connectorID ++ "/" ++ String.ofList (base64URL key.connectionName)

def connectionHeadPath (path : String) : String := path ++ "/head"

def credentialObjectPath (path digest : String) : String := path ++ "/credentials/" ++ digest

def exchangeResultPath (path attemptID : String) : String := path ++ "/exchange-results/" ++ attemptID

/-! ## Material -/

def validateMaterial (material : CredentialMaterial) : Bool :=
  material.credentials.length != 0 && material.credentials.length ≤ 65536 &&
    ConfigStore.Go.isJSONObject material.credentials && material.authMethod != [] && material.authMethod.length ≤ 128

end Connections
end Dex
