import DexConnectors.LibSha1
import DexConnectors.LibUnicode
import DexConnectors.LibNumberText
import DexConnectors.OperationModel
/-!
# CallIdentity — call ids of the three SDKs (`deriveCallID`, `derive_call_id`)

The Go derivation is `Operation.deriveCallID`.  The Python one encodes code points and the TypeScript one UTF-16 units; both make
the same id of the same Unicode text (`call_ids_agree`), and the bytes that all three hash determine the four fields
(`payload_injective`).
-/
namespace Dex
namespace CallIdentity

open Lib Lib.Utf8 Lib.Sha1 Lib.Unicode

def namespaceName : Bytes := ascii "https://superdurable.dev/dex-connectors/call-id/v1"

/-- What stops a derivation. -/
inductive Fault where
  | fieldRequired
  | invalidConnectorID
  | invalidOperationID
  | surrogate
  | tooLong
  | invalidID
  deriving DecidableEq

def isLower (code : Nat) : Bool := 0x61 ≤ code && code ≤ 0x7A

def isDigit (code : Nat) : Bool := 0x30 ≤ code && code ≤ 0x39

def isLetterOrDigit (code : Nat) : Bool := isLower code || isDigit code || (0x41 ≤ code && code ≤ 0x5A)

/-- `^[a-z][a-z0-9-]{1,62}$`. -/
def isConnectorID : List Nat → Bool
  | [] => false
  | code :: rest => isLower code && 1 ≤ rest.length && rest.length ≤ 62 && rest.all (fun c => isLower c || isDigit c || c == 0x2D)

/-- `^[a-z][A-Za-z0-9]+$`. -/
def isOperationID : List Nat → Bool
  | [] => false
  | code :: rest => isLower code && 1 ≤ rest.length && rest.all isLetterOrDigit

/-! ## Python -/

namespace Python

/-- `OperationRef`, its strings as code points. -/
structure OperationRef where
  connectorID : List Nat
  operationID : List Nat

def OperationRef.validate (ref : OperationRef) : Except Fault Unit :=
  if !isConnectorID ref.connectorID then .error .invalidConnectorID
  else if !isOperationID ref.operationID then .error .invalidOperationID
  else .ok ()

/-- `uuid5(NAMESPACE_URL, ...)`. -/
def callIDNamespace : Bytes := uuid5 namespaceURL namespaceName

/-- `len(field.encode()).to_bytes(4, "big") + field.encode()`. -/
def encodeField (field : List Nat) : Except Fault Bytes :=
  match encodeCodePoints field with
  | none => .error .surrogate
  | some encoded => if 2 ^ 32 ≤ encoded.length then .error .tooLong else .ok (bigEndian 4 encoded.length ++ encoded)

/-- `b"".join`. -/
def joinFields : List (List Nat) → Except Fault Bytes
  | [] => .ok []
  | field :: rest => encodeField field >>= fun encoded => joinFields rest >>= fun payload => .ok (encoded ++ payload)

def deriveCallID (flowID stepExecutionID : List Nat) (operation : OperationRef) : Except Fault Bytes :=
  if flowID = [] ∨ stepExecutionID = [] then .error .fieldRequired
  else
    operation.validate >>= fun _ =>
      joinFields [flowID, stepExecutionID, operation.connectorID, operation.operationID] >>= fun payload =>
        .ok (Operation.uuidString (stamp 5 ((sha1 (callIDNamespace ++ payload)).take 16)))

end Python

/-! ## TypeScript -/

namespace TypeScript

/-- `OperationRef`, its strings as UTF-16 units. -/
structure OperationRef where
  connectorID : List UInt16
  operationID : List UInt16

/-- `OperationRefSchema.parse`. -/
def OperationRef.parse (ref : OperationRef) : Except Fault Unit :=
  if !isConnectorID (ref.connectorID.map UInt16.toNat) then .error .invalidConnectorID
  else if !isOperationID (ref.operationID.map UInt16.toNat) then .error .invalidOperationID
  else .ok ()

def callIDNamespace : Bytes := ascii "63281a42-70ad-5bc3-a289-728819af723f"

/-- `length.writeUInt32BE(encoded.length)` and the encoded field. -/
def encodeField (field : List UInt16) : Except Fault Bytes :=
  if 2 ^ 32 ≤ (encodeUnits field).length then .error .tooLong
  else .ok (bigEndian 4 (encodeUnits field).length ++ encodeUnits field)

/-- `Buffer.concat`. -/
def concatFields : List (List UInt16) → Except Fault Bytes
  | [] => .ok []
  | field :: rest => encodeField field >>= fun encoded => concatFields rest >>= fun payload => .ok (encoded ++ payload)

/-- `hex.slice(from, to)`. -/
def slice (hex : Bytes) (start stop : Nat) : Bytes := (hex.take stop).drop start

def uuidSHA1 (namespaceID name : Bytes) : Bytes :=
  let digest := sha1 ((hexDecode (namespaceID.filter (· != 0x2D))).getD [] ++ name)
  let digest := digest.set 6 (overwrite 0x0F 0x50 (digest.getD 6 0))
  let digest := digest.set 8 (overwrite 0x3F 0x80 (digest.getD 8 0))
  let hex := hexEncode (digest.take 16)
  slice hex 0 8 ++ 0x2D :: slice hex 8 12 ++ 0x2D :: slice hex 12 16 ++ 0x2D :: slice hex 16 20 ++ 0x2D :: hex.drop 20

/-- `isUUID` is what `z.uuid()` accepts. -/
def deriveCallID (isUUID : Bytes → Bool) (flowID stepExecutionID : List UInt16) (operation : OperationRef) :
    Except Fault Bytes :=
  operation.parse >>= fun _ =>
    concatFields [flowID, stepExecutionID, operation.connectorID, operation.operationID] >>= fun payload =>
      if isUUID (uuidSHA1 callIDNamespace payload) then .ok (uuidSHA1 callIDNamespace payload) else .error .invalidID

end TypeScript

/-! ## The payload -/

theorem bigEndian_four (n : Nat) :
    bigEndian 4 n = [(n / 2 ^ 24).toUInt8, (n / 2 ^ 16).toUInt8, (n / 2 ^ 8).toUInt8, n.toUInt8] := by
  have htwo : n / 256 / 256 = n / 2 ^ 16 := by omega
  have hthree : n / 256 / 256 / 256 = n / 2 ^ 24 := by omega
  have hone : n / 256 = n / 2 ^ 8 := by omega
  simp only [bigEndian, List.nil_append, List.cons_append]
  rw [hthree, htwo, hone]

theorem lengthPrefixed_eq (field : Bytes) : Operation.lengthPrefixed field = bigEndian 4 field.length ++ field := by
  rw [bigEndian_four]
  rfl

theorem lengthPrefixed_append_inj {a b x y : Bytes} (ha : a.length < 2 ^ 32) (hb : b.length < 2 ^ 32)
    (h : Operation.lengthPrefixed a ++ x = Operation.lengthPrefixed b ++ y) : a = b ∧ x = y := by
  rw [lengthPrefixed_eq, lengthPrefixed_eq, List.append_assoc, List.append_assoc] at h
  obtain ⟨hstart, hrest⟩ := List.append_inj h (by rw [length_bigEndian, length_bigEndian])
  have hlength : a.length = b.length := by
    simp only [bigEndian_four, List.cons.injEq, toUInt8_inj] at hstart
    omega
  exact List.append_inj hrest hlength

/-- **The fields can be read off the payload.** -/
theorem payload_injective : ∀ {fields fields' : List Bytes}, fields.length = fields'.length →
    (∀ f ∈ fields, f.length < 2 ^ 32) → (∀ f ∈ fields', f.length < 2 ^ 32) →
    fields.flatMap Operation.lengthPrefixed = fields'.flatMap Operation.lengthPrefixed → fields = fields'
  | [], [], _, _, _, _ => rfl
  | f :: fields, g :: fields', hlength, hf, hg, h => by
    obtain ⟨hhead, hrest⟩ := lengthPrefixed_append_inj (hf f List.mem_cons_self) (hg g List.mem_cons_self) h
    rw [hhead, payload_injective (Nat.succ.inj hlength) (fun x hx => hf x (List.mem_cons_of_mem f hx))
      (fun x hx => hg x (List.mem_cons_of_mem g hx)) hrest]

/-! ## The text of a UUID -/

theorem hexEncode_eq (bytes : Bytes) : hexEncode bytes = bytes.flatMap (fun b => Operation.hexDigits 2 b.toNat) := by
  have hbyte : ∀ b : UInt8, [Json.hexDigit (b >>> 4), Json.hexDigit (b &&& 0x0F)] = Operation.hexDigits 2 b.toNat :=
    forall_byte (by decide)
  unfold hexEncode
  congr 1
  funext b
  exact hbyte b

/-- The text with its hyphens taken out. -/
theorem filter_uuidString (bytes : Bytes) : (Operation.uuidString bytes).filter (· != 0x2D) = hexEncode bytes := by
  have hhex : ∀ b ∈ hexEncode bytes, (b != 0x2D) = true := by
    have hbyte : ∀ b : UInt8, (Json.hexDigit (b >>> 4) != 0x2D && Json.hexDigit (b &&& 0x0F) != 0x2D) = true :=
      forall_byte (by decide)
    intro c hc
    obtain ⟨b, -, hb⟩ := List.mem_flatMap.1 hc
    have h := Bool.and_eq_true_iff.1 (hbyte b)
    rcases List.mem_cons.1 hb with rfl | hb
    · exact h.1
    · rw [List.mem_singleton.1 hb]
      exact h.2
  have hself : ∀ part : Bytes, (∀ b ∈ part, b ∈ hexEncode bytes) → part.filter (· != 0x2D) = part :=
    fun part hpart => List.filter_eq_self.2 (fun b hb => hhex b (hpart b hb))
  have hdrop : ∀ (l : Bytes) (i j : Nat), (l.drop i).take j ++ l.drop (i + j) = l.drop i := fun l i j => by
    rw [← List.drop_drop, List.take_append_drop]
  unfold Operation.uuidString
  rw [← hexEncode_eq]
  simp only [List.filter_append]
  rw [hself _ (fun b hb => List.mem_of_mem_take hb), hself _ (fun b hb => List.mem_of_mem_drop (List.mem_of_mem_take hb)),
    hself _ (fun b hb => List.mem_of_mem_drop (List.mem_of_mem_take hb)),
    hself _ (fun b hb => List.mem_of_mem_drop (List.mem_of_mem_take hb)), hself _ (fun b hb => List.mem_of_mem_drop hb)]
  have hhyphen : ([0x2D] : Bytes).filter (· != 0x2D) = [] := by decide
  rw [hhyphen]
  simp only [List.append_nil, List.append_assoc]
  rw [hdrop _ 16 4, hdrop _ 12 4, hdrop _ 8 4, List.take_append_drop]

theorem uuidString_injective {a b : Bytes} (h : Operation.uuidString a = Operation.uuidString b) : a = b := by
  have hhex : hexEncode a = hexEncode b := by rw [← filter_uuidString, h, filter_uuidString]
  exact Option.some.inj (by rw [← hexDecode_hexEncode, hhex, hexDecode_hexEncode])

/-- The namespace of the TypeScript SDK is the one that the others compute. -/
theorem namespace_eq : hexDecode (TypeScript.callIDNamespace.filter (· != 0x2D)) = some (uuid5 namespaceURL namespaceName) := by
  decide +kernel

/-- The bits that the TypeScript derivation writes are those of a version-5 UUID. -/
theorem stamp_eq {digest : Bytes} (h : digest.length = 20) :
    ((digest.set 6 (overwrite 0x0F 0x50 (digest.getD 6 0))).set 8
      (overwrite 0x3F 0x80 ((digest.set 6 (overwrite 0x0F 0x50 (digest.getD 6 0))).getD 8 0))).take 16 =
      stamp 5 (digest.take 16) := by
  match digest, h with
  | [_, _, _, _, _, _, _, _, _, _, _, _, _, _, _, _, _, _, _, _], _ => rfl

theorem uuidSHA1_eq (payload : Bytes) :
    TypeScript.uuidSHA1 TypeScript.callIDNamespace payload =
      Operation.uuidString (uuid5 (uuid5 namespaceURL namespaceName) payload) := by
  unfold TypeScript.uuidSHA1 Operation.uuidString uuid5
  rw [namespace_eq]
  dsimp only [Option.getD_some]
  rw [stamp_eq (length_sha1 _), ← hexEncode_eq]
  simp only [TypeScript.slice, List.drop_take, List.drop_zero, List.append_assoc, List.cons_append,
    List.nil_append]
  rfl

/-! ## Identifiers -/

theorem connectorIDPattern_eq (bytes : Bytes) : Operation.connectorIDPattern bytes = isConnectorID (bytes.map UInt8.toNat) := by
  cases bytes with
  | nil => rfl
  | cons b rest =>
    have hhyphen : ∀ c : UInt8, (c == 0x2D) = (c.toNat == 0x2D) := forall_byte (by decide)
    simp only [Operation.connectorIDPattern, isConnectorID, List.map_cons, List.length_map, List.all_map, hhyphen]
    rfl

theorem operationIDPattern_eq (bytes : Bytes) : Operation.operationIDPattern bytes = isOperationID (bytes.map UInt8.toNat) := by
  cases bytes with
  | nil => rfl
  | cons b rest =>
    simp only [Operation.operationIDPattern, isOperationID, List.map_cons, List.length_map, List.all_map]
    rfl

theorem lt_of_isLower {code : Nat} (h : isLower code = true) : code < 0x80 := by
  simp only [isLower, Bool.and_eq_true, decide_eq_true_eq] at h
  omega

theorem lt_of_isLetterOrDigit {code : Nat} (h : isLetterOrDigit code = true) : code < 0x80 := by
  simp only [isLetterOrDigit, isLower, isDigit, Bool.or_eq_true, Bool.and_eq_true, decide_eq_true_eq] at h
  omega

theorem ascii_of_connectorID {codes : List Nat} (h : isConnectorID codes = true) : ∀ c ∈ codes, c < 0x80 := by
  cases codes with
  | nil => exact fun _ hc => (by cases hc)
  | cons code rest =>
    simp only [isConnectorID, Bool.and_eq_true, List.all_eq_true] at h
    intro c hc
    rcases List.mem_cons.1 hc with rfl | hc
    · exact lt_of_isLower h.1.1.1
    · have hcase := h.2 c hc
      simp only [isLower, isDigit, Bool.or_eq_true, Bool.and_eq_true, decide_eq_true_eq, beq_iff_eq] at hcase
      omega

theorem ascii_of_operationID {codes : List Nat} (h : isOperationID codes = true) : ∀ c ∈ codes, c < 0x80 := by
  cases codes with
  | nil => exact fun _ hc => (by cases hc)
  | cons code rest =>
    simp only [isOperationID, Bool.and_eq_true, List.all_eq_true] at h
    intro c hc
    rcases List.mem_cons.1 hc with rfl | hc
    · exact lt_of_isLower h.1.1
    · exact lt_of_isLetterOrDigit (h.2 c hc)

/-- **An ASCII text has the same codes in every language.** -/
theorem codes_of_ascii {text : List Char} (h : ∀ c ∈ (utf8 text).map UInt8.toNat, c < 0x80) :
    (utf8 text).map UInt8.toNat = codePoints text ∧ (utf16 text).map UInt16.toNat = codePoints text := by
  have hbytes : ∀ b ∈ utf8 text, b < 0x80 := fun b hb => UInt8.lt_iff_toNat_lt.2 (h _ (List.mem_map_of_mem hb))
  obtain ⟨hchars, hmap⟩ := ascii_of_utf8 hbytes
  refine ⟨?_, ?_⟩
  · rw [hmap, List.map_map]
    refine List.map_congr_left (fun c hc => ?_)
    have hlt := hchars c hc
    exact toNat_toUInt8 (by omega)
  · clear h hbytes hmap
    induction text with
    | nil => rfl
    | cons c text ih =>
      have hlt := hchars c List.mem_cons_self
      have hunits : unitsOf c = [c.toNat.toUInt16] := if_pos (by omega)
      have hcode : c.toNat.toUInt16.toNat = c.toNat := toNat_toUInt16 (by omega)
      have hrest := ih (fun d hd => hchars d (List.mem_cons_of_mem c hd))
      show (unitsOf c ++ utf16 text).map UInt16.toNat = c.toNat :: codePoints text
      rw [hunits, ← hrest, List.singleton_append, List.map_cons, hcode]

/-- An operation reference as each SDK holds it. -/
def goOperation (connectorID operationID : List Char) : Operation.OperationRef := ⟨utf8 connectorID, utf8 operationID⟩

def pythonOperation (connectorID operationID : List Char) : Python.OperationRef := ⟨codePoints connectorID, codePoints operationID⟩

def typeScriptOperation (connectorID operationID : List Char) : TypeScript.OperationRef := ⟨utf16 connectorID, utf16 operationID⟩

theorem isIDs_of_validate {connectorID operationID : List Char} (h : (goOperation connectorID operationID).validate = .ok ()) :
    isConnectorID ((utf8 connectorID).map UInt8.toNat) = true ∧ isOperationID ((utf8 operationID).map UInt8.toNat) = true := by
  unfold Operation.OperationRef.validate at h
  split at h
  · cases h
  · rename_i hconnector
    split at h
    · cases h
    · rename_i hoperation
      rw [← connectorIDPattern_eq, ← operationIDPattern_eq]
      exact ⟨by simpa [goOperation] using hconnector, by simpa [goOperation] using hoperation⟩

/-- A reference that Go finds valid is valid to the others. -/
theorem validates {connectorID operationID : List Char} (h : (goOperation connectorID operationID).validate = .ok ()) :
    (pythonOperation connectorID operationID).validate = .ok () ∧
      (typeScriptOperation connectorID operationID).parse = .ok () := by
  obtain ⟨hconnector, hoperation⟩ := isIDs_of_validate h
  obtain ⟨hcpython, hctypescript⟩ := codes_of_ascii (ascii_of_connectorID hconnector)
  obtain ⟨hopython, hotypescript⟩ := codes_of_ascii (ascii_of_operationID hoperation)
  rw [hcpython] at hconnector
  rw [hopython] at hoperation
  constructor
  · simp [Python.OperationRef.validate, pythonOperation, hconnector, hoperation]
  · simp [TypeScript.OperationRef.parse, typeScriptOperation, hctypescript, hotypescript, hconnector, hoperation]

theorem connectorID_lt {connectorID operationID : List Char} (h : (goOperation connectorID operationID).validate = .ok ()) :
    (utf8 connectorID).length < 2 ^ 32 := by
  have hconnector := (isIDs_of_validate h).1
  cases hbytes : utf8 connectorID with
  | nil => decide
  | cons b rest =>
    rw [hbytes] at hconnector
    simp only [List.map_cons, isConnectorID, List.length_map, Bool.and_eq_true, decide_eq_true_eq] at hconnector
    rw [List.length_cons]
    omega

/-! ## The derivations -/

/-- What the three derivations are given: non-empty ids of a length that four bytes can count, and a valid operation. -/
structure IsCall (flowID stepExecutionID connectorID operationID : List Char) : Prop where
  flow_ne      : flowID ≠ []
  step_ne      : stepExecutionID ≠ []
  flow_lt      : (utf8 flowID).length < 2 ^ 32
  step_lt      : (utf8 stepExecutionID).length < 2 ^ 32
  operation_lt : (utf8 operationID).length < 2 ^ 32
  valid        : (goOperation connectorID operationID).validate = .ok ()

/-- The bytes that are hashed. -/
def payload (flowID stepExecutionID connectorID operationID : List Char) : Bytes :=
  [utf8 flowID, utf8 stepExecutionID, utf8 connectorID, utf8 operationID].flatMap Operation.lengthPrefixed

variable {flowID stepExecutionID connectorID operationID : List Char}

theorem IsCall.fields_lt (h : IsCall flowID stepExecutionID connectorID operationID) :
    ∀ field ∈ [flowID, stepExecutionID, connectorID, operationID], (utf8 field).length < 2 ^ 32 := by
  simp only [List.forall_mem_cons, List.not_mem_nil, false_implies, implies_true, and_true]
  exact ⟨h.flow_lt, h.step_lt, connectorID_lt h.valid, h.operation_lt⟩

theorem joinFields_codePoints : ∀ {fields : List (List Char)}, (∀ field ∈ fields, (utf8 field).length < 2 ^ 32) →
    Python.joinFields (fields.map codePoints) = .ok ((fields.map utf8).flatMap Operation.lengthPrefixed)
  | [], _ => rfl
  | field :: fields, h => by
    have hfield : Python.encodeField (codePoints field) = .ok (Operation.lengthPrefixed (utf8 field)) := by
      unfold Python.encodeField
      rw [encodeCodePoints_codePoints, lengthPrefixed_eq]
      exact if_neg (Nat.not_le.2 (h field List.mem_cons_self))
    have hrest := joinFields_codePoints (fun f hf => h f (List.mem_cons_of_mem field hf))
    simp only [List.map_cons, Python.joinFields, hfield, hrest, List.flatMap_cons]
    rfl

theorem concatFields_utf16 : ∀ {fields : List (List Char)}, (∀ field ∈ fields, (utf8 field).length < 2 ^ 32) →
    TypeScript.concatFields (fields.map utf16) = .ok ((fields.map utf8).flatMap Operation.lengthPrefixed)
  | [], _ => rfl
  | field :: fields, h => by
    have hfield : TypeScript.encodeField (utf16 field) = .ok (Operation.lengthPrefixed (utf8 field)) := by
      unfold TypeScript.encodeField
      rw [encodeUnits_utf16, lengthPrefixed_eq]
      exact if_neg (Nat.not_le.2 (h field List.mem_cons_self))
    have hrest := concatFields_utf16 (fun f hf => h f (List.mem_cons_of_mem field hf))
    simp only [List.map_cons, TypeScript.concatFields, hfield, hrest, List.flatMap_cons]
    rfl

theorem python_derives (h : IsCall flowID stepExecutionID connectorID operationID) :
    Python.deriveCallID (codePoints flowID) (codePoints stepExecutionID) (pythonOperation connectorID operationID) =
      .ok (Operation.uuidString (uuid5 (uuid5 namespaceURL namespaceName)
        (payload flowID stepExecutionID connectorID operationID))) := by
  have hne : ¬(codePoints flowID = [] ∨ codePoints stepExecutionID = []) := by
    rintro (hnil | hnil)
    · exact h.flow_ne (List.map_eq_nil_iff.1 hnil)
    · exact h.step_ne (List.map_eq_nil_iff.1 hnil)
  have hjoin := joinFields_codePoints h.fields_lt
  simp only [List.map_cons, List.map_nil] at hjoin
  unfold Python.deriveCallID
  rw [if_neg hne, (validates h.valid).1]
  show (Python.joinFields [codePoints flowID, codePoints stepExecutionID, codePoints connectorID, codePoints operationID] >>=
    fun encoded => .ok (Operation.uuidString (stamp 5 ((sha1 (Python.callIDNamespace ++ encoded)).take 16)))) = _
  rw [hjoin]
  rfl

theorem typeScript_derives {isUUID : Bytes → Bool}
    (huuid : ∀ bytes : Bytes, bytes.length = 16 → isUUID (Operation.uuidString (stamp 5 bytes)) = true)
    (h : IsCall flowID stepExecutionID connectorID operationID) :
    TypeScript.deriveCallID isUUID (utf16 flowID) (utf16 stepExecutionID) (typeScriptOperation connectorID operationID) =
      .ok (Operation.uuidString (uuid5 (uuid5 namespaceURL namespaceName)
        (payload flowID stepExecutionID connectorID operationID))) := by
  have hconcat := concatFields_utf16 h.fields_lt
  simp only [List.map_cons, List.map_nil] at hconcat
  unfold TypeScript.deriveCallID
  rw [(validates h.valid).2]
  show (TypeScript.concatFields [utf16 flowID, utf16 stepExecutionID, utf16 connectorID, utf16 operationID] >>=
    fun encoded => if isUUID (TypeScript.uuidSHA1 TypeScript.callIDNamespace encoded) then
      .ok (TypeScript.uuidSHA1 TypeScript.callIDNamespace encoded) else .error .invalidID) = _
  rw [hconcat]
  have haccepted : isUUID (Operation.uuidString (uuid5 (uuid5 namespaceURL namespaceName)
      (payload flowID stepExecutionID connectorID operationID))) = true := huuid _ (by simp [length_sha1])
  show (if isUUID (TypeScript.uuidSHA1 TypeScript.callIDNamespace (payload flowID stepExecutionID connectorID operationID)) then
    Except.ok (TypeScript.uuidSHA1 TypeScript.callIDNamespace (payload flowID stepExecutionID connectorID operationID))
    else .error Fault.invalidID) = _
  rw [uuidSHA1_eq, if_pos haccepted]

/-- **The payload of a call determines the call.** -/
theorem call_of_payload {flowID' stepExecutionID' connectorID' operationID' : List Char}
    (h : IsCall flowID stepExecutionID connectorID operationID) (h' : IsCall flowID' stepExecutionID' connectorID' operationID')
    (hpayload : payload flowID stepExecutionID connectorID operationID =
      payload flowID' stepExecutionID' connectorID' operationID') :
    flowID = flowID' ∧ stepExecutionID = stepExecutionID' ∧ connectorID = connectorID' ∧ operationID = operationID' := by
  have hlt := h.fields_lt
  have hlt' := h'.fields_lt
  have hutf8 : ∀ {fields : List (List Char)}, (∀ field ∈ fields, (utf8 field).length < 2 ^ 32) →
      ∀ f ∈ fields.map utf8, f.length < 2 ^ 32 := by
    intro fields hfields f hf
    obtain ⟨field, hmem, rfl⟩ := List.mem_map.1 hf
    exact hfields field hmem
  have hfields : [flowID, stepExecutionID, connectorID, operationID].map utf8 =
      [flowID', stepExecutionID', connectorID', operationID'].map utf8 :=
    payload_injective rfl (hutf8 hlt) (hutf8 hlt') hpayload
  simp only [List.map_cons, List.map_nil, List.cons.injEq, and_true] at hfields
  exact ⟨utf8_injective hfields.1, utf8_injective hfields.2.1, utf8_injective hfields.2.2.1, utf8_injective hfields.2.2.2⟩

/-- **Call ids agree and do not collide**: the Python and the TypeScript derivation give Go's id, the payload determines the
four fields, and so does the id unless two payloads collide in the hash. -/
theorem call_ids_agree (rt : Operation.Runtime) (isUUID : Bytes → Bool)
    (hgo : ∀ name, rt.newSHA1 name = uuid5 (uuid5 namespaceURL namespaceName) name)
    (huuid : ∀ bytes : Bytes, bytes.length = 16 → isUUID (Operation.uuidString (stamp 5 bytes)) = true)
    (h : IsCall flowID stepExecutionID connectorID operationID) :
    Python.deriveCallID (codePoints flowID) (codePoints stepExecutionID) (pythonOperation connectorID operationID) =
      .ok (Operation.deriveCallID rt (utf8 flowID) (utf8 stepExecutionID) (goOperation connectorID operationID)) ∧
    TypeScript.deriveCallID isUUID (utf16 flowID) (utf16 stepExecutionID) (typeScriptOperation connectorID operationID) =
      .ok (Operation.deriveCallID rt (utf8 flowID) (utf8 stepExecutionID) (goOperation connectorID operationID)) ∧
    ∀ {flowID' stepExecutionID' connectorID' operationID' : List Char},
      IsCall flowID' stepExecutionID' connectorID' operationID' →
      (payload flowID stepExecutionID connectorID operationID = payload flowID' stepExecutionID' connectorID' operationID' →
        flowID = flowID' ∧ stepExecutionID = stepExecutionID' ∧ connectorID = connectorID' ∧ operationID = operationID') ∧
      (Operation.deriveCallID rt (utf8 flowID) (utf8 stepExecutionID) (goOperation connectorID operationID) =
          Operation.deriveCallID rt (utf8 flowID') (utf8 stepExecutionID') (goOperation connectorID' operationID') →
        (flowID = flowID' ∧ stepExecutionID = stepExecutionID' ∧ connectorID = connectorID' ∧ operationID = operationID') ∨
        (payload flowID stepExecutionID connectorID operationID ≠ payload flowID' stepExecutionID' connectorID' operationID' ∧
          rt.newSHA1 (payload flowID stepExecutionID connectorID operationID) =
            rt.newSHA1 (payload flowID' stepExecutionID' connectorID' operationID'))) := by
  have hid : Operation.deriveCallID rt (utf8 flowID) (utf8 stepExecutionID) (goOperation connectorID operationID) =
      Operation.uuidString (uuid5 (uuid5 namespaceURL namespaceName) (payload flowID stepExecutionID connectorID operationID)) :=
    congrArg Operation.uuidString (hgo _)
  refine ⟨(python_derives h).trans (congrArg _ hid.symm), (typeScript_derives huuid h).trans (congrArg _ hid.symm), ?_⟩
  intro flowID' stepExecutionID' connectorID' operationID' h'
  refine ⟨call_of_payload h h', fun heq => ?_⟩
  have hhash := uuidString_injective heq
  by_cases hpayload : payload flowID stepExecutionID connectorID operationID = payload flowID' stepExecutionID' connectorID' operationID'
  · exact .inl (call_of_payload h h' hpayload)
  · exact .inr ⟨hpayload, hhash⟩

/-! ### Two calls -/

def sampleRuntime : Operation.Runtime where
  newSHA1 := uuid5 (uuid5 namespaceURL namespaceName)
  length_newSHA1 := length_uuid5 _
  now := Operation.Time.zero
  now_utc := rfl
  isPrint := fun _ => true
  newBufferedTextStream := fun _ _ => none

/-- The lower-case texts of version-5 UUIDs. -/
def isUUID5 (text : Bytes) : Bool :=
  match hexDecode (text.filter (· != 0x2D)) with
  | some bytes => bytes.length == 16 && stamp 5 bytes == bytes && Operation.uuidString bytes == text
  | none => false

theorem stamp_stamp {bytes : Bytes} (h : bytes.length = 16) : stamp 5 (stamp 5 bytes) = stamp 5 bytes := by
  have hversion : ∀ b : UInt8, overwrite 0x0F ((5 : UInt8) <<< 4) (overwrite 0x0F ((5 : UInt8) <<< 4) b) =
      overwrite 0x0F ((5 : UInt8) <<< 4) b := forall_byte (by decide)
  have hvariant : ∀ b : UInt8, overwrite 0x3F 0x80 (overwrite 0x3F 0x80 b) = overwrite 0x3F 0x80 b :=
    forall_byte (by decide)
  match bytes, h with
  | [_, _, _, _, _, _, _, _, _, _, _, _, _, _, _, _], _ =>
    simp only [stamp, List.modify_succ_cons, List.modify_zero_cons, hversion, hvariant]

theorem isUUID5_stamp {bytes : Bytes} (h : bytes.length = 16) : isUUID5 (Operation.uuidString (stamp 5 bytes)) = true := by
  unfold isUUID5
  rw [filter_uuidString, hexDecode_hexEncode]
  dsimp only
  rw [stamp_stamp h, beq_self_eq_true, beq_self_eq_true, Bool.and_true, Bool.and_true, beq_iff_eq]
  simpa [stamp] using h

theorem sample_call : IsCall "flow é".toList "step-1".toList "gmail".toList "sendMessage".toList :=
  ⟨by decide, by decide, by decide, by decide, by decide, by decide⟩

theorem call_ids_agree_sample :
    Python.deriveCallID (codePoints "flow é".toList) (codePoints "step-1".toList)
        (pythonOperation "gmail".toList "sendMessage".toList) =
      .ok (Operation.deriveCallID sampleRuntime (utf8 "flow é".toList) (utf8 "step-1".toList)
        (goOperation "gmail".toList "sendMessage".toList)) :=
  (call_ids_agree sampleRuntime isUUID5 (fun _ => rfl) (fun _ h => isUUID5_stamp h) sample_call).1

theorem length_le_utf8 : ∀ text : List Char, text.length ≤ (utf8 text).length
  | [] => Nat.le_refl _
  | c :: text => by
    have hpos := (seq_encodeRune (toNat_scalar c)).length_pos
    have ih := length_le_utf8 text
    show text.length + 1 ≤ (Json.encodeRune c.toNat ++ utf8 text).length
    rw [List.length_append]
    omega

/-- An operation id of so many letters. -/
def letters (n : Nat) : List Char := List.replicate n 'a'

theorem codes_letters (n : Nat) : (utf8 (letters n)).map UInt8.toNat = List.replicate n 0x61 := by
  unfold utf8 letters
  induction n with
  | zero => rfl
  | succ n ih =>
    rw [List.replicate_succ, List.replicate_succ, List.flatMap_cons, List.map_append, ih]
    rfl

theorem validate_letters {n : Nat} (h : 2 ≤ n) : (goOperation "gmail".toList (letters n)).validate = .ok () := by
  have hpattern : Operation.operationIDPattern (utf8 (letters n)) = true := by
    obtain ⟨m, rfl⟩ : ∃ m, n = m + 1 := ⟨n - 1, by omega⟩
    rw [operationIDPattern_eq, codes_letters, List.replicate_succ]
    simp only [isOperationID, List.length_replicate, List.all_replicate, Bool.and_eq_true, decide_eq_true_eq]
    refine ⟨⟨by decide, by omega⟩, ?_⟩
    rw [if_neg (by omega)]
    decide
  have hconnector : Operation.connectorIDPattern (utf8 "gmail".toList) = true := by decide
  simp only [Operation.OperationRef.validate, goOperation, hconnector, hpattern]
  rfl

theorem refuses_letters {n : Nat} (h : 2 ^ 32 ≤ n) :
    Python.deriveCallID (codePoints "f".toList) (codePoints "s".toList) (pythonOperation "gmail".toList (letters n)) =
      .error .tooLong := by
  have hlong : Python.encodeField (codePoints (letters n)) = .error .tooLong := by
    have hlength : (letters n).length = n := List.length_replicate
    unfold Python.encodeField
    rw [encodeCodePoints_codePoints]
    exact if_pos (Nat.le_trans (Nat.le_trans h (Nat.le_of_eq hlength.symm)) (length_le_utf8 (letters n)))
  unfold Python.deriveCallID
  rw [if_neg (by decide), (validates (validate_letters (by omega))).1]
  show (Python.joinFields [codePoints "f".toList, codePoints "s".toList, codePoints "gmail".toList, codePoints (letters n)] >>=
    fun encoded => .ok (Operation.uuidString (stamp 5 ((sha1 (Python.callIDNamespace ++ encoded)).take 16)))) = _
  simp only [Python.joinFields, hlong]
  rfl

/-- **An operation id that four bytes cannot count**: Go finds it valid, and the Python derivation refuses it. -/
theorem long_operation_refused :
    (goOperation "gmail".toList (letters (2 ^ 32))).validate = .ok () ∧
      Python.deriveCallID (codePoints "f".toList) (codePoints "s".toList)
        (pythonOperation "gmail".toList (letters (2 ^ 32))) = .error .tooLong :=
  ⟨validate_letters (by decide), refuses_letters (Nat.le_refl _)⟩

end CallIdentity
end Dex
