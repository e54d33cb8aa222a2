import Mathlib.Data.List.Nodup
import DexConnectors.LibMethod
import DexConnectors.OperationPython
import DexConnectors.OperationRouting
/-!
# OperationWire — results of the Go SDK, read by the Python SDK (`sdkgo/types.go`, `sdkpython/.../types.py`)

`encodeResult` is what `encoding/json` writes for a `QueryResult` or a `MutationResult`: the members of each object in order,
a string with its ill-formed bytes replaced, a time as RFC 3339.  `resultFromWire` is `from_wire` on what `json.loads` makes of
it.  The value of an operation is any JSON value and passes through.

`go_results_readable_iff`: which results Python reads as Go wrote them.
-/
namespace Dex
namespace OperationWire

open Lib Lib.Utf8 TimeText
open Operation (Time Runtime)

variable {In V J : Type}

/-! ## `time.Time.MarshalJSON` -/

theorem last_lt (k : Nat) : k % 10 < 10 := Nat.mod_lt k (by decide)

/-- The last `n` decimal digits of a number. -/
def decimals : Nat → Nat → List (Fin 10)
  | 0, _ => []
  | n + 1, k => decimals n (k / 10) ++ [⟨k % 10, last_lt k⟩]

/-- The minutes of an offset, rounded towards zero. -/
def offsetMinutes (offset : Int) : Int := offset.tdiv 60

/-- The zone of `RFC3339Nano`: `Z` for no offset at all. -/
def zoneOf (offset : Int) : Zone :=
  if offset = 0 then .utc
  else if offsetMinutes offset < 0 then
    .west (Fin.ofNat 100 ((offsetMinutes offset).natAbs / 60)) (Fin.ofNat 100 ((offsetMinutes offset).natAbs % 60))
  else .east (Fin.ofNat 100 ((offsetMinutes offset).natAbs / 60)) (Fin.ofNat 100 ((offsetMinutes offset).natAbs % 60))

def fieldsOf (t : Time) : Fields :=
  ⟨Fin.ofNat 10000 t.civil.year.toNat, Fin.ofNat 100 t.civil.month, Fin.ofNat 100 t.civil.day, Fin.ofNat 100 t.civil.hour,
    Fin.ofNat 100 t.civil.minute, Fin.ofNat 100 t.civil.second, (decimals 9 t.nano).rdropWhile (· == 0), zoneOf t.offset⟩

/-- `MarshalJSON` refuses a year of more than four digits and an offset of a day. -/
def encodeTime (t : Time) : Option Bytes :=
  if t.civil.year < 0 ∨ 9999 < t.civil.year ∨ 24 ≤ (offsetMinutes t.offset).natAbs / 60 then none
  else some (fieldsOf t).text

/-! ## Documents -/

/-- A JSON value: texts and objects as they are read, anything else as it is. -/
inductive Json (J : Type) where
  | text (bytes : Bytes)
  | object (members : List (Bytes × Json J))
  | other (value : J)

def Json.text? : Json J → Option Bytes
  | .text bytes => some bytes
  | _ => none

/-- The member of a dict: of two with one name the later. -/
def get (members : List (Bytes × Json J)) (name : String) : Option (Json J) := members.reverse.lookup (ascii name)

def textMember (name : String) (text : Bytes) : Bytes × Json J := (ascii name, .text (repair text))

/-- `omitempty`. -/
def omitEmpty (name : String) (text : Bytes) : List (Bytes × Json J) := if text = [] then [] else [textMember name text]

/-! ### Go -/

def encodeMetadata (metadata : List (Bytes × Bytes)) : List (Bytes × Json J) :=
  metadata.map (fun entry => (repair entry.1, .text (repair entry.2)))

/-- The members of a `Receipt` with its encoded time; `metadata` lists the entries of the map in the order of their keys. -/
def receiptMembers (r : Operation.Receipt) (observedAt : Bytes) : List (Bytes × Json J) :=
  [textMember "callId" r.callID] ++ omitEmpty "idempotencyKey" r.idempotencyKey ++ [textMember "provider" r.provider] ++
    omitEmpty "providerObjectId" r.providerObjectID ++ omitEmpty "providerRequestId" r.providerRequestID ++
    [(ascii "observedAt", .text observedAt)] ++
    if r.metadata = [] then [] else [(ascii "metadata", .object (encodeMetadata r.metadata))]

def encodeFailure (f : Operation.Failure) : Json J :=
  .object [textMember "kind" f.kind, textMember "provider" f.provider, textMember "operation" f.operation,
    textMember "message" f.message]

def encodeResult (encodeValue : V → Json J) (r : Operation.Result V) : Option (Json J) :=
  match encodeTime r.receipt.observedAt with
  | none => none
  | some observedAt =>
    some (.object ([textMember "branch" r.branch, (ascii "value", encodeValue r.value),
      (ascii "receipt", .object (receiptMembers r.receipt observedAt))] ++
      match r.failure with
      | none => []
      | some failure => [(ascii "failure", encodeFailure failure)]))

/-! ### Python -/

open OperationPython (FailureKind RFC3339NanoTimestamp.fromWire isQueryResult isMutationResult)

def failureKinds : List (Bytes × FailureKind) :=
  [(ascii "VALIDATION", .validation), (ascii "AUTHENTICATION", .authentication), (ascii "AUTHORIZATION", .authorization),
    (ascii "NOT_FOUND", .notFound), (ascii "CONFLICT", .conflict), (ascii "RATE_LIMIT", .rateLimit),
    (ascii "QUOTA_EXHAUSTED", .quotaExhausted), (ascii "AVAILABILITY", .availability),
    (ascii "PROVIDER_REJECTION", .providerRejection), (ascii "TRANSPORT", .transport),
    (ascii "RESPONSE_TOO_LARGE", .responseTooLarge), (ascii "PROTOCOL", .protocol), (ascii "LOCAL_DEFECT", .localDefect)]

/-- `FailureKind(value)`. -/
def kindOf (value : Bytes) : Option FailureKind := failureKinds.lookup value

/-- `Failure.from_wire`. -/
def failureFromWire : Json J → Option OperationPython.Failure
  | .object members =>
    if members.all (fun m => ["kind", "provider", "operation", "message"].any (fun name => ascii name == m.1)) then
      match (get members "kind").bind Json.text?, (get members "provider").bind Json.text?,
        (get members "operation").bind Json.text?, (get members "message").bind Json.text? with
      | some kind, some provider, some operation, some message =>
        match kindOf kind with
        | none => none
        | some kind =>
          if OperationPython.Failure.isValid ⟨kind, provider, operation, message⟩ then
            some ⟨kind, provider, operation, message⟩
          else none
      | _, _, _, _ => none
    else none
  | _ => none

/-- A member that may be missing; Go writes no other value than a text. -/
def optionalText (members : List (Bytes × Json J)) (name : String) : Bytes := ((get members name).bind Json.text?).getD []

def metadataFromWire (members : List (Bytes × Json J)) : Option (List (Bytes × Bytes)) :=
  match get members "metadata" with
  | none => some []
  | some (.object entries) => entries.mapM (fun entry => entry.2.text?.map (fun text => (entry.1, text)))
  | some _ => none

/-- `Receipt.from_wire`. -/
def receiptFromWire (isUUID : Bytes → Bool) : Json J → Option OperationPython.Receipt
  | .object members =>
    match (get members "callId").bind Json.text?, (get members "provider").bind Json.text?,
      (get members "observedAt").bind Json.text?, metadataFromWire members with
    | some callID, some provider, some observedAt, some metadata =>
      if callID ≠ [] ∧ !isUUID callID then none
      else
        match RFC3339NanoTimestamp.fromWire observedAt with
        | .error _ => none
        | .ok wire =>
          some ⟨callID, provider, .nano wire, optionalText members "idempotencyKey", optionalText members "providerObjectId",
            optionalText members "providerRequestId", metadata⟩
    | _, _, _, _ => none
  | _ => none

/-- What `QueryResult.from_wire` and `MutationResult.from_wire` have in common; their `__post_init__` differ. -/
def resultFromWire (isUUID : Bytes → Bool) (isResult : OperationPython.Result (Json J) → Bool) :
    Json J → Option (OperationPython.Result (Json J))
  | .object members =>
    match (get members "branch").bind Json.text?, get members "value", (get members "receipt").bind (receiptFromWire isUUID),
      (match get members "failure" with
        | none => some none
        | some failure => (failureFromWire failure).map some) with
    | some branch, some value, some receipt, some failure =>
      if isResult ⟨branch, some value, receipt, failure⟩ then some ⟨branch, some value, receipt, failure⟩ else none
    | _, _, _, _ => none
  | _ => none

/-! ## Times -/

theorem value_decimals : ∀ n k, Rfc3339.value ((decimals n k).map (·.val)) = k % 10 ^ n
  | 0, k => by
    rw [Nat.pow_zero, Nat.mod_one]
    rfl
  | n + 1, k => by
    have hlast : Rfc3339.value [k % 10] = k % 10 := Nat.zero_add _
    rw [decimals, List.map_append, Rfc3339.value_append, value_decimals n (k / 10), List.map_singleton, hlast,
      List.length_singleton, Nat.pow_one, Nat.pow_succ, Nat.mul_comm (10 ^ n) 10, Nat.mod_mul]
    omega

theorem length_decimals : ∀ n k, (decimals n k).length = n
  | 0, _ => rfl
  | n + 1, k => by rw [decimals, List.length_append, length_decimals n]; rfl

/-- Zeros at the end of a fraction are not missed. -/
theorem padded_rdropWhile (ds : List (Fin 10)) :
    Rfc3339.padded ds.length ((ds.rdropWhile (· == 0)).map (·.val)) = ds.map (·.val) := by
  obtain ⟨n, hn⟩ : ∃ n, ds = ds.rdropWhile (· == 0) ++ List.replicate n 0 := by
    induction ds using List.reverseRecOn with
    | nil => exact ⟨0, rfl⟩
    | append_singleton ds d ih =>
      by_cases hd : d = 0
      · obtain ⟨n, hn⟩ := ih
        refine ⟨n + 1, ?_⟩
        rw [List.rdropWhile_concat, if_pos (by simp [hd]), List.replicate_succ', ← List.append_assoc, ← hn, hd]
      · refine ⟨0, ?_⟩
        rw [List.rdropWhile_concat, if_neg (by simp [hd]), List.replicate_zero, List.append_nil]
  have hlen : ds.length = (ds.rdropWhile (· == 0)).length + n := by
    conv_lhs => rw [hn]
    rw [List.length_append, List.length_replicate]
  have hmap : ds.map (·.val) = (ds.rdropWhile (· == 0)).map (·.val) ++ List.replicate n 0 := by
    conv_lhs => rw [hn]
    rw [List.map_append, List.map_replicate]
    rfl
  unfold Rfc3339.padded
  rw [hmap, List.take_append, List.length_map, List.take_replicate, List.take_of_length_le (by rw [List.length_map]; omega)]
  congr 2
  omega

theorem minutes_zoneOf {offset : Int} (h : (offsetMinutes offset).natAbs / 60 < 24) :
    (zoneOf offset).minutes = offsetMinutes offset := by
  unfold zoneOf
  split
  next h0 => rw [h0]; rfl
  · have h1 : (offsetMinutes offset).natAbs / 60 % 100 = (offsetMinutes offset).natAbs / 60 := by omega
    have h2 : (offsetMinutes offset).natAbs % 60 % 100 = (offsetMinutes offset).natAbs % 60 := by omega
    split
    · simp only [Zone.minutes, Fin.val_ofNat, h1, h2]
      omega
    · simp only [Zone.minutes, Fin.val_ofNat, h1, h2]
      omega

theorem hasValidZone_zoneOf {offset : Int} (h : (offsetMinutes offset).natAbs / 60 < 24) :
    OperationPython.hasValidZone (zoneOf offset) = true := by
  unfold zoneOf
  split
  · rfl
  · split
    · simp only [OperationPython.hasValidZone, Fin.val_ofNat, Bool.and_eq_true, decide_eq_true_eq]
      omega
    · simp only [OperationPython.hasValidZone, Fin.val_ofNat, Bool.and_eq_true, decide_eq_true_eq]
      omega

theorem minutes_canonicalZone (z : Zone) : (OperationPython.canonicalZone z).minutes = z.minutes := by
  cases z with
  | utc => rfl
  | east hours minutes =>
    by_cases h : hours = 0 ∧ minutes = 0
    · rw [h.1, h.2]; rfl
    · rw [OperationPython.canonicalZone, if_neg h]
  | west hours minutes =>
    by_cases h : hours = 0 ∧ minutes = 0
    · rw [h.1, h.2]; rfl
    · rw [OperationPython.canonicalZone, if_neg h]

/-- Python takes the dates of year zero as Go writes them. -/
theorem hasValidDate_of_isDate {f : Fields} (h : isDate f.year.val f.month.val f.day.val = true) :
    OperationPython.hasValidDate f = true := by
  unfold OperationPython.hasValidDate OperationPython.isPythonDate
  by_cases hy : f.year = 0
  · have hday : f.day.val ≤ daysIn 0 f.month.val := by
      simp only [isDate, Bool.and_eq_true, decide_eq_true_eq] at h
      rw [hy] at h
      exact h.2
    have hle := Nat.le_trans hday (daysIn_le 0 f.month.val)
    simp only [isDate, Bool.and_eq_true, decide_eq_true_eq] at h
    rw [Bool.or_eq_true]
    right
    simp only [Bool.and_eq_true, decide_eq_true_eq, beq_iff_eq, hy]
    refine ⟨⟨⟨⟨⟨trivial, h.1.1.1⟩, h.1.1.2⟩, h.1.2⟩, hle⟩, ?_⟩
    exact hday
  · have hpos : 1 ≤ f.year.val := Nat.one_le_iff_ne_zero.2 (fun h0 => hy (Fin.ext h0))
    rw [Bool.or_eq_true]
    left
    rw [Bool.and_eq_true, decide_eq_true_eq]
    exact ⟨hpos, h⟩

/-- The moment a text denotes, in nanoseconds from the start of year one. -/
def wireInstant (f : Fields) : Int :=
  (OperationPython.fieldSeconds f - 60 * f.zone.minutes) * 1000000000 +
    Rfc3339.value (Rfc3339.padded 9 (f.fraction.map (·.val)))

theorem fieldSeconds_canonicalOf (f : Fields) :
    OperationPython.fieldSeconds (OperationPython.canonicalOf f) = OperationPython.fieldSeconds f := rfl

/-- **A time that Go writes, Python takes**, and the moment differs by the seconds of its offset. -/
theorem fromWire_encodeTime {t : Time} {text : Bytes} (h : encodeTime t = some text) :
    ∃ wire f, RFC3339NanoTimestamp.fromWire text = .ok wire ∧ parse wire = some f ∧
      (wireInstant f = t.instant ↔ t.offset % 60 = 0) := by
  unfold encodeTime at h
  split at h
  · cases h
  next hr =>
    cases h
    have hyear : ((fieldsOf t).year.val : Int) = t.civil.year := by
      show ((t.civil.year.toNat % 10000 : Nat) : Int) = t.civil.year
      omega
    have hmonth : (fieldsOf t).month.val = t.civil.month := Nat.mod_eq_of_lt (by have := t.civil.month_le; omega)
    have hday : (fieldsOf t).day.val = t.civil.day := Nat.mod_eq_of_lt (by have := t.civil.day_le; omega)
    obtain ⟨hh, hm, hs⟩ := t.civil.clock_le
    have hhour : (fieldsOf t).hour.val = t.civil.hour := Nat.mod_eq_of_lt (by omega)
    have hminute : (fieldsOf t).minute.val = t.civil.minute := Nat.mod_eq_of_lt (by omega)
    have hsecond : (fieldsOf t).second.val = t.civil.second := Nat.mod_eq_of_lt (by omega)
    have hoffset : (offsetMinutes t.offset).natAbs / 60 < 24 := by omega
    have hdate : OperationPython.hasValidDate (fieldsOf t) = true := by
      apply hasValidDate_of_isDate
      rw [hyear, hmonth, hday]
      exact t.civil.date
    have hclock : OperationPython.hasValidClock (fieldsOf t) = true := by
      rw [OperationPython.hasValidClock, hhour, hminute, hsecond]
      exact t.civil.clock
    have hzone : OperationPython.hasValidZone (fieldsOf t).zone = true := hasValidZone_zoneOf hoffset
    have hparse := parse_text (OperationPython.canonicalOf (fieldsOf t))
    refine ⟨_, _, ?_, hparse, ?_⟩
    · unfold RFC3339NanoTimestamp.fromWire OperationPython.goTimeParts
      rw [parse_text]
      dsimp only
      rw [hdate, hclock, hzone]
      rfl
    · have hseconds : OperationPython.fieldSeconds (OperationPython.canonicalOf (fieldsOf t)) = t.civil.seconds := by
        rw [fieldSeconds_canonicalOf, OperationPython.fieldSeconds, hyear, hmonth, hday, hhour, hminute, hsecond, Civil.seconds]
      have hfraction : Rfc3339.value (Rfc3339.padded 9 ((OperationPython.canonicalOf (fieldsOf t)).fraction.map (·.val))) =
          t.nano := by
        have hidem : (OperationPython.canonicalOf (fieldsOf t)).fraction = (decimals 9 t.nano).rdropWhile (· == 0) := by
          unfold OperationPython.canonicalOf fieldsOf
          dsimp only
          rw [List.rdropWhile_idempotent]
        have hpad := padded_rdropWhile (decimals 9 t.nano)
        rw [length_decimals] at hpad
        rw [hidem, hpad, value_decimals]
        exact Nat.mod_eq_of_lt t.inSecond
      have hminutes : (OperationPython.canonicalOf (fieldsOf t)).zone.minutes = offsetMinutes t.offset :=
        (minutes_canonicalZone _).trans (minutes_zoneOf hoffset)
      rw [wireInstant, hseconds, hfraction, hminutes, Time.instant, offsetMinutes]
      constructor
      · intro h
        omega
      · intro h
        have hdiv : 60 * t.offset.tdiv 60 = t.offset := Int.mul_tdiv_cancel' (Int.dvd_of_emod_eq_zero h)
        omega

/-! ## What Python reads of a result -/

section Members

variable (r : Operation.Receipt) (observedAt : Bytes)

theorem get_callID : get (J := J) (receiptMembers r observedAt) "callId" = some (.text (repair r.callID)) := by
  unfold receiptMembers omitEmpty
  split_ifs <;> rfl

theorem get_provider : get (J := J) (receiptMembers r observedAt) "provider" = some (.text (repair r.provider)) := by
  unfold receiptMembers omitEmpty
  split_ifs <;> rfl

theorem get_observedAt : get (J := J) (receiptMembers r observedAt) "observedAt" = some (.text observedAt) := by
  unfold receiptMembers omitEmpty
  split_ifs <;> rfl

theorem optionalText_key :
    optionalText (J := J) (receiptMembers r observedAt) "idempotencyKey" = repair r.idempotencyKey := by
  unfold optionalText receiptMembers omitEmpty
  by_cases h : r.idempotencyKey = []
  · rw [if_pos h, h]
    split_ifs <;> rfl
  · rw [if_neg h]
    split_ifs <;> rfl

theorem optionalText_objectID :
    optionalText (J := J) (receiptMembers r observedAt) "providerObjectId" = repair r.providerObjectID := by
  unfold optionalText receiptMembers omitEmpty
  by_cases h : r.providerObjectID = []
  · rw [if_pos h, h]
    split_ifs <;> rfl
  · rw [if_neg h]
    split_ifs <;> rfl

theorem optionalText_requestID :
    optionalText (J := J) (receiptMembers r observedAt) "providerRequestId" = repair r.providerRequestID := by
  unfold optionalText receiptMembers omitEmpty
  by_cases h : r.providerRequestID = []
  · rw [if_pos h, h]
    split_ifs <;> rfl
  · rw [if_neg h]
    split_ifs <;> rfl

/-- The metadata as Python has it. -/
def readMetadata (metadata : List (Bytes × Bytes)) : List (Bytes × Bytes) :=
  metadata.map (fun entry => (repair entry.1, repair entry.2))

theorem mapM_encodeMetadata : ∀ metadata : List (Bytes × Bytes),
    (encodeMetadata (J := J) metadata).mapM (fun entry => entry.2.text?.map (fun text => (entry.1, text))) =
      some (readMetadata metadata)
  | [] => rfl
  | entry :: rest => by
    have ih := mapM_encodeMetadata rest
    unfold encodeMetadata at ih ⊢
    rw [List.map_cons, List.mapM_cons, ih]
    rfl

theorem metadataFromWire_receiptMembers :
    metadataFromWire (J := J) (receiptMembers r observedAt) = some (readMetadata r.metadata) := by
  unfold metadataFromWire
  by_cases h : r.metadata = []
  · have hget : get (J := J) (receiptMembers r observedAt) "metadata" = none := by
      unfold receiptMembers omitEmpty
      rw [if_pos h]
      split_ifs <;> rfl
    rw [hget, h]
    rfl
  · have hget : get (J := J) (receiptMembers r observedAt) "metadata" = some (.object (encodeMetadata r.metadata)) := by
      unfold receiptMembers omitEmpty
      rw [if_neg h]
      split_ifs <;> rfl
    rw [hget]
    exact mapM_encodeMetadata r.metadata

end Members

/-- The receipt as Python has it. -/
def readReceipt (r : Operation.Receipt) (wire : Bytes) : OperationPython.Receipt :=
  ⟨repair r.callID, repair r.provider, .nano wire, repair r.idempotencyKey, repair r.providerObjectID,
    repair r.providerRequestID, readMetadata r.metadata⟩

theorem receiptFromWire_receiptMembers {isUUID : Bytes → Bool} {r : Operation.Receipt} {observedAt wire : Bytes}
    (hid : r.callID = [] ∨ isUUID (repair r.callID) = true) (hw : RFC3339NanoTimestamp.fromWire observedAt = .ok wire) :
    receiptFromWire (J := J) isUUID (.object (receiptMembers r observedAt)) = some (readReceipt r wire) := by
  have hok : ¬ (repair r.callID ≠ [] ∧ (!isUUID (repair r.callID)) = true) := by
    rintro ⟨hne, hnot⟩
    rcases hid with hid | hid
    · rw [hid] at hne
      exact hne rfl
    · rw [hid] at hnot
      cases hnot
  unfold receiptFromWire
  dsimp only
  rw [get_callID, get_provider, get_observedAt, metadataFromWire_receiptMembers]
  dsimp only [Option.bind_some, Json.text?]
  rw [if_neg hok, hw]
  dsimp only
  rw [optionalText_key, optionalText_objectID, optionalText_requestID]
  rfl

theorem repair_eq_nil {text : Bytes} : repair text = [] ↔ text = [] := by
  constructor
  · intro h
    have := length_le_repair text
    rw [h] at this
    exact List.eq_nil_of_length_eq_zero (Nat.le_zero.1 this)
  · rintro rfl
    rfl

theorem kindOf_allFailureKinds : ∀ k ∈ Operation.allFailureKinds, repair k = k ∧ (kindOf k).isSome = true := by decide

/-- **What a failure that validates has.** -/
theorem failure_validate_ok {f : Operation.Failure} (h : f.validate = .ok ()) :
    f.kind ∈ Operation.allFailureKinds ∧ f.provider ≠ [] ∧ f.operation ≠ [] ∧ f.message ≠ [] := by
  unfold Operation.Failure.validate at h
  split at h
  · cases h
  next hk =>
    split at h
    · cases h
    next hp =>
      split at h
      · cases h
      next ho =>
        split at h
        · cases h
        next hm => exact ⟨by simpa using hk, hp, ho, hm⟩

/-- The failure as Python has it. -/
def readFailure (f : Operation.Failure) (kind : FailureKind) : OperationPython.Failure :=
  ⟨kind, repair f.provider, repair f.operation, repair f.message⟩

theorem failureFromWire_encodeFailure {f : Operation.Failure} (h : f.validate = .ok ()) :
    ∃ kind, kindOf f.kind = some kind ∧ failureFromWire (J := J) (encodeFailure f) = some (readFailure f kind) ∧
      (readFailure f kind).isValid = true := by
  obtain ⟨hk, hp, ho, hm⟩ := failure_validate_ok h
  obtain ⟨hrepair, hsome⟩ := kindOf_allFailureKinds _ hk
  obtain ⟨kind, hkind⟩ := Option.isSome_iff_exists.1 hsome
  have hvalid : (readFailure f kind).isValid = true := by
    simp only [OperationPython.Failure.isValid, readFailure, Bool.and_eq_true, bne_iff_ne, ne_eq, repair_eq_nil]
    exact ⟨⟨hp, ho⟩, hm⟩
  refine ⟨kind, hkind, ?_, hvalid⟩
  unfold failureFromWire encodeFailure
  have hnames : (List.all (α := Bytes × Json J) [textMember "kind" f.kind, textMember "provider" f.provider,
      textMember "operation" f.operation, textMember "message" f.message]
      (fun m => ["kind", "provider", "operation", "message"].any (fun name => ascii name == m.1))) = true := rfl
  dsimp only
  rw [if_pos hnames]
  have h1 : get (J := J) [textMember "kind" f.kind, textMember "provider" f.provider, textMember "operation" f.operation,
    textMember "message" f.message] "kind" = some (.text (repair f.kind)) := rfl
  have h2 : get (J := J) [textMember "kind" f.kind, textMember "provider" f.provider, textMember "operation" f.operation,
    textMember "message" f.message] "provider" = some (.text (repair f.provider)) := rfl
  have h3 : get (J := J) [textMember "kind" f.kind, textMember "provider" f.provider, textMember "operation" f.operation,
    textMember "message" f.message] "operation" = some (.text (repair f.operation)) := rfl
  have h4 : get (J := J) [textMember "kind" f.kind, textMember "provider" f.provider, textMember "operation" f.operation,
    textMember "message" f.message] "message" = some (.text (repair f.message)) := rfl
  rw [h1, h2, h3, h4]
  dsimp only [Option.bind_some, Json.text?]
  rw [hrepair, hkind]
  dsimp only
  exact if_pos hvalid

def readFailures (failure : Option Operation.Failure) : Option OperationPython.Failure :=
  failure.bind (fun f => (kindOf f.kind).map (readFailure f))

/-- The result as Python has it, with the text of its time. -/
def readResult (encodeValue : V → Json J) (r : Operation.Result V) (wire : Bytes) : OperationPython.Result (Json J) :=
  ⟨repair r.branch, some (encodeValue r.value), readReceipt r.receipt wire, readFailures r.failure⟩

/-- A result that `from_wire` takes apart without an error: a call id that is absent or a UUID, and a failure that
validates. -/
structure Readable (isUUID : Bytes → Bool) (r : Operation.Result V) : Prop where
  id      : r.receipt.callID = [] ∨ isUUID (repair r.receipt.callID) = true
  failure : ∀ f ∈ r.failure, f.validate = .ok ()

/-- **What `from_wire` makes of a document of Go.** -/
theorem resultFromWire_encodeResult {isUUID : Bytes → Bool} (isResult : OperationPython.Result (Json J) → Bool)
    {encodeValue : V → Json J} {r : Operation.Result V} {document : Json J} (hr : Readable isUUID r)
    (h : encodeResult encodeValue r = some document) :
    ∃ wire f, parse wire = some f ∧ (wireInstant f = r.receipt.observedAt.instant ↔ r.receipt.observedAt.offset % 60 = 0) ∧
      OperationPython.isValidFailure (readFailures r.failure) = true ∧
      (readFailures r.failure).isSome = r.failure.isSome ∧
      resultFromWire isUUID isResult document =
        if isResult (readResult encodeValue r wire) then some (readResult encodeValue r wire) else none := by
  unfold encodeResult at h
  cases ht : encodeTime r.receipt.observedAt with
  | none => rw [ht] at h; cases h
  | some observedAt =>
    rw [ht] at h
    obtain ⟨wire, f, hw, hf, hinstant⟩ := fromWire_encodeTime ht
    have hreceipt := receiptFromWire_receiptMembers (J := J) hr.id hw
    refine ⟨wire, f, hf, hinstant, ?_⟩
    cases hfailure : r.failure with
    | none =>
      rw [hfailure] at h
      cases h
      have hread : readFailures (none : Option Operation.Failure) = none := rfl
      refine ⟨rfl, rfl, ?_⟩
      show (match some (repair r.branch), some (encodeValue r.value),
          receiptFromWire isUUID (.object (receiptMembers r.receipt observedAt)), some none with
        | some branch, some value, some receipt, some failure =>
          if isResult ⟨branch, some value, receipt, failure⟩ then some (OperationPython.Result.mk branch (some value) receipt failure) else none
        | _, _, _, _ => none) = _
      rw [hreceipt, readResult, hfailure, hread]
    | some failure =>
      rw [hfailure] at h
      cases h
      obtain ⟨kind, hkind, hfrom, hvalid⟩ := failureFromWire_encodeFailure (J := J) (hr.failure failure hfailure)
      have hread : readFailures (some failure) = some (readFailure failure kind) := by
        rw [readFailures, Option.bind_some, hkind, Option.map_some]
      refine ⟨by rw [hread]; exact hvalid, by rw [hread]; rfl, ?_⟩
      show (match some (repair r.branch), some (encodeValue r.value),
          receiptFromWire isUUID (.object (receiptMembers r.receipt observedAt)),
          (failureFromWire (J := J) (encodeFailure failure)).map some with
        | some branch, some value, some receipt, some failure =>
          if isResult ⟨branch, some value, receipt, failure⟩ then some (OperationPython.Result.mk branch (some value) receipt failure) else none
        | _, _, _, _ => none) = _
      rw [hreceipt, readResult, hfailure, hread, hfrom]
      rfl

/-! ## The same result -/

/-- **Python has the result that Go had**: the moment of the observation, and the metadata as a map. -/
structure Same (encodeValue : V → Json J) (go : Operation.Result V) (py : OperationPython.Result (Json J)) : Prop where
  branch    : py.branch = go.branch
  value     : py.value = some (encodeValue go.value)
  callID    : py.receipt.callID = go.receipt.callID
  key       : py.receipt.idempotencyKey = go.receipt.idempotencyKey
  provider  : py.receipt.provider = go.receipt.provider
  objectID  : py.receipt.providerObjectID = go.receipt.providerObjectID
  requestID : py.receipt.providerRequestID = go.receipt.providerRequestID
  observed  : ∃ wire f, py.receipt.observedAt = .nano wire ∧ parse wire = some f ∧
    wireInstant f = go.receipt.observedAt.instant
  metadata  : ∀ key, py.receipt.metadata.reverse.lookup key = go.receipt.metadata.lookup key
  failure   : go.failure.map (fun f => (kindOf f.kind, f.provider, f.operation, f.message)) =
    py.failure.map (fun f => (some f.kind, f.provider, f.operation, f.message))

/-- The texts of a receipt are well formed, and its time has an offset of whole minutes. -/
structure CleanReceipt (r : Operation.Receipt) : Prop where
  callID    : isValid r.callID = true
  key       : isValid r.idempotencyKey = true
  provider  : isValid r.provider = true
  objectID  : isValid r.providerObjectID = true
  requestID : isValid r.providerRequestID = true
  observed  : r.observedAt.offset % 60 = 0
  metadata  : ∀ entry ∈ r.metadata, isValid entry.1 = true ∧ isValid entry.2 = true

/-- The texts of a failure are well formed; its kind is one of the known. -/
structure CleanFailure (f : Operation.Failure) : Prop where
  provider  : isValid f.provider = true
  operation : isValid f.operation = true
  message   : isValid f.message = true

structure Clean (r : Operation.Result V) : Prop where
  branch  : isValid r.branch = true
  receipt : CleanReceipt r.receipt
  failure : ∀ f ∈ r.failure, CleanFailure f

theorem mem_of_lookup {m : List (Bytes × Bytes)} {key text : Bytes} (h : m.lookup key = some text) : (key, text) ∈ m := by
  obtain ⟨before, after, rfl, -⟩ := List.lookup_eq_some_iff.1 h
  simp

theorem lookup_of_mem : ∀ {m : List (Bytes × Bytes)} {entry : Bytes × Bytes}, (m.map Prod.fst).Nodup → entry ∈ m →
    m.lookup entry.1 = some entry.2
  | [], _, _, h => by cases h
  | first :: rest, entry, hn, h => by
    rw [List.map_cons, List.nodup_cons] at hn
    rcases List.mem_cons.1 h with rfl | hrest
    · rw [List.lookup_cons, beq_self_eq_true]
    · have hne : (entry.1 == first.1) = false :=
        beq_eq_false_iff_ne.2 (fun heq => hn.1 (heq ▸ List.mem_map_of_mem hrest))
      rw [List.lookup_cons, hne]
      exact lookup_of_mem hn.2 hrest

theorem lookup_reverse {m : List (Bytes × Bytes)} (hn : (m.map Prod.fst).Nodup) (key : Bytes) :
    m.reverse.lookup key = m.lookup key := by
  have hr : (m.reverse.map Prod.fst).Nodup := by
    rw [List.map_reverse]
    exact List.nodup_reverse.2 hn
  cases h : m.lookup key with
  | some text => exact lookup_of_mem hr (List.mem_reverse.2 (mem_of_lookup h))
  | none =>
    cases h' : m.reverse.lookup key with
    | none => rfl
    | some text =>
      have := lookup_of_mem hn (List.mem_reverse.1 (mem_of_lookup h'))
      rw [h] at this
      cases this

theorem readMetadata_same_iff {m : List (Bytes × Bytes)} (hn : (m.map Prod.fst).Nodup) :
    (∀ key, (readMetadata m).reverse.lookup key = m.lookup key) ↔
      ∀ entry ∈ m, isValid entry.1 = true ∧ isValid entry.2 = true := by
  constructor
  · intro h entry hentry
    have hmem := mem_of_lookup ((h entry.1).trans (lookup_of_mem hn hentry))
    obtain ⟨source, -, hsource⟩ := List.mem_map.1 (List.mem_reverse.1 hmem)
    have h1 : entry.1 = repair source.1 := (congrArg Prod.fst hsource).symm
    have h2 : entry.2 = repair source.2 := (congrArg Prod.snd hsource).symm
    rw [h1, h2]
    exact ⟨isValid_repair _, isValid_repair _⟩
  · intro h key
    have hread : readMetadata m = m := by
      unfold readMetadata
      refine (List.map_congr_left (fun entry hentry => ?_)).trans (List.map_id m)
      rw [(repair_eq_iff _).2 (h entry hentry).1, (repair_eq_iff _).2 (h entry hentry).2]
      rfl
    rw [hread]
    exact lookup_reverse hn key

theorem readFailures_same_iff {isUUID : Bytes → Bool} {r : Operation.Result V} (hr : Readable isUUID r) :
    r.failure.map (fun f => (kindOf f.kind, f.provider, f.operation, f.message)) =
      (readFailures r.failure).map (fun f => (some f.kind, f.provider, f.operation, f.message)) ↔
    ∀ f ∈ r.failure, CleanFailure f := by
  cases hf : r.failure with
  | none => exact ⟨fun _ f h => (by cases h), fun _ => rfl⟩
  | some f =>
    obtain ⟨kind, hkind, -, -⟩ := failureFromWire_encodeFailure (J := Unit) (hr.failure f hf)
    have hread : readFailures (some f) = some (readFailure f kind) := by
      rw [readFailures, Option.bind_some, hkind, Option.map_some]
    rw [hread]
    simp only [Option.map_some, Option.some.injEq, Prod.mk.injEq, hkind, readFailure, true_and, Option.mem_some_iff]
    constructor
    · rintro ⟨hp, ho, hm⟩ g rfl
      exact ⟨(repair_eq_iff _).1 hp.symm, (repair_eq_iff _).1 ho.symm, (repair_eq_iff _).1 hm.symm⟩
    · intro h
      obtain ⟨hp, ho, hm⟩ := h f rfl
      exact ⟨((repair_eq_iff _).2 hp).symm, ((repair_eq_iff _).2 ho).symm, ((repair_eq_iff _).2 hm).symm⟩

/-- **Python has the same result exactly where its texts are well formed and its time has whole minutes of offset.** -/
theorem same_readResult_iff {isUUID : Bytes → Bool} {encodeValue : V → Json J} {r : Operation.Result V} {wire : Bytes}
    {f : Fields} (hr : Readable isUUID r) (hf : parse wire = some f)
    (hinstant : wireInstant f = r.receipt.observedAt.instant ↔ r.receipt.observedAt.offset % 60 = 0) :
    Same encodeValue r (readResult encodeValue r wire) ↔ Clean r := by
  constructor
  · intro h
    refine ⟨(repair_eq_iff _).1 h.branch, ⟨(repair_eq_iff _).1 h.callID, (repair_eq_iff _).1 h.key,
      (repair_eq_iff _).1 h.provider, (repair_eq_iff _).1 h.objectID, (repair_eq_iff _).1 h.requestID, ?_,
      (readMetadata_same_iff r.receipt.distinct).1 h.metadata⟩, (readFailures_same_iff hr).1 h.failure⟩
    obtain ⟨wire', g, hwire, hg, hsame⟩ := h.observed
    cases hwire
    rw [hf] at hg
    cases hg
    exact hinstant.1 hsame
  · intro h
    have hc := h.receipt
    exact ⟨(repair_eq_iff _).2 h.branch, rfl, (repair_eq_iff _).2 hc.callID, (repair_eq_iff _).2 hc.key,
      (repair_eq_iff _).2 hc.provider, (repair_eq_iff _).2 hc.objectID, (repair_eq_iff _).2 hc.requestID,
      ⟨wire, f, rfl, hf, hinstant.2 hc.observed⟩, (readMetadata_same_iff r.receipt.distinct).2 hc.metadata,
      (readFailures_same_iff hr).2 h.failure⟩

/-! ## Texts of the SDK -/

/-- A text of the SDK itself: not empty, and well formed. -/
def Proper (text : Bytes) : Prop := text ≠ [] ∧ isValid text = true

theorem Proper.append {a b : Bytes} (ha : Proper a) (hb : isValid b = true) : Proper (a ++ b) :=
  ⟨fun h => ha.1 (List.append_eq_nil_iff.1 h).1, (isValid_append ha.2 b).trans hb⟩

theorem lt_of_isLetterOrDigit : ∀ b : UInt8, Operation.isLetterOrDigit b = true → b < 0x80 := forall_byte (by decide)

theorem lt_of_isLower : ∀ b : UInt8, Operation.isLower b = true → b < 0x80 := forall_byte (by decide)

theorem lt_of_connectorByte : ∀ b : UInt8, (Operation.isLower b || Operation.isDigit b || b == 0x2D) = true → b < 0x80 :=
  forall_byte (by decide)

theorem proper_of_operationIDPattern {id : Bytes} (h : Operation.operationIDPattern id = true) : Proper id := by
  cases id with
  | nil => cases h
  | cons b rest =>
    simp only [Operation.operationIDPattern, Bool.and_eq_true, List.all_eq_true] at h
    refine ⟨List.cons_ne_nil b rest, isValid_of_ascii _ (fun c hc => ?_)⟩
    rcases List.mem_cons.1 hc with rfl | hc
    · exact lt_of_isLower c h.1.1
    · exact lt_of_isLetterOrDigit c (h.2 c hc)

theorem proper_of_connectorIDPattern {id : Bytes} (h : Operation.connectorIDPattern id = true) : Proper id := by
  cases id with
  | nil => cases h
  | cons b rest =>
    simp only [Operation.connectorIDPattern, Bool.and_eq_true, List.all_eq_true] at h
    refine ⟨List.cons_ne_nil b rest, isValid_of_ascii _ (fun c hc => ?_)⟩
    rcases List.mem_cons.1 hc with rfl | hc
    · exact lt_of_isLower c h.1.1.1
    · exact lt_of_connectorByte c (h.2 c hc)

theorem isHex_lt : ∀ n : Fin 16, Json.hexDigit n.val.toUInt8 < 0x80 := by decide

theorem hexDigits_lt : ∀ n r, ∀ b ∈ Operation.hexDigits n r, b < 0x80
  | 0, _, b, h => by cases h
  | n + 1, r, b, h => by
    rw [Operation.hexDigits, List.mem_append, List.mem_singleton] at h
    rcases h with h | rfl
    · exact hexDigits_lt n (r / 16) b h
    · exact isHex_lt ⟨r % 16, Nat.mod_lt _ (by decide)⟩

theorem isValid_hexDigits (n r : Nat) : isValid (Operation.hexDigits n r) = true := isValid_of_ascii _ (hexDigits_lt n r)

theorem isValid_of_seq {seq : Bytes} (h : Seq seq) : isValid seq = true := by
  have := isValid_seq h []
  rw [List.append_nil] at this
  exact this

theorem isValid_escapeRune (isPrint : Nat → Bool) {seq : Bytes} (h : Seq seq) :
    isValid (Operation.escapeRune isPrint seq) = true := by
  have hseq := isValid_of_seq h
  have hx : isValid (ascii "\\x") = true := by decide
  have hu : isValid (ascii "\\u") = true := by decide
  have hU : isValid (ascii "\\U") = true := by decide
  unfold Operation.escapeRune
  split
  · exact (isValid_append (a := [0x5C]) (by decide) seq).trans hseq
  split
  · exact hseq
  iterate 7
    split
    · decide
  split
  · exact (isValid_append hx _).trans (isValid_hexDigits _ _)
  split
  · exact (isValid_append hu _).trans (isValid_hexDigits _ _)
  · exact (isValid_append hU _).trans (isValid_hexDigits _ _)

theorem quoteFrom_skip (isPrint : Nat → Bool) : ∀ (seq rest : Bytes),
    Operation.quoteFrom isPrint seq.length (seq ++ rest) = Operation.quoteFrom isPrint 0 rest
  | [], rest => by cases rest <;> rfl
  | b :: seq, rest => quoteFrom_skip isPrint seq rest

/-- **What `%q` writes is well formed.** -/
theorem isValid_quoteFrom (isPrint : Nat → Bool) (text : Bytes) : isValid (Operation.quoteFrom isPrint 0 text) = true := by
  induction text using seqInduction with
  | nil => rfl
  | bad b rest hb ih =>
    rw [Operation.quoteFrom, hb]
    dsimp only
    rw [List.append_assoc, isValid_append (by decide), isValid_append (isValid_hexDigits _ _)]
    exact ih
  | good seq rest hseq ih =>
    cases seq with
    | nil => exact absurd hseq.length_pos (by decide)
    | cons b tail =>
      have hlen := seqLen_append hseq rest
      have hskip := quoteFrom_skip isPrint tail rest
      rw [List.cons_append] at hlen ⊢
      rw [Operation.quoteFrom, hlen, List.length_cons]
      dsimp only
      rw [← List.cons_append, ← List.length_cons (a := b), List.take_left, isValid_append (isValid_escapeRune isPrint hseq),
        hskip]
      exact ih

theorem proper_quote (isPrint : Nat → Bool) (text : Bytes) : Proper (Operation.quote isPrint text) := by
  refine ⟨List.cons_ne_nil _ _, ?_⟩
  rw [Operation.quote, isValid_append (a := 0x22 :: Operation.quoteFrom isPrint 0 text)]
  · decide
  · exact (isValid_append (a := [0x22]) (by decide) _).trans (isValid_quoteFrom isPrint text)

theorem proper_operation {ref : Operation.OperationRef} {err : Bytes} (h : ref.validate = .error err) : Proper err := by
  unfold Operation.OperationRef.validate at h
  split at h
  · cases h
    exact ⟨by decide, by decide⟩
  · split at h
    · cases h
      exact ⟨by decide, by decide⟩
    · cases h

theorem operation_validate_ok {ref : Operation.OperationRef} (h : ref.validate = .ok ()) :
    Proper ref.connectorID ∧ Proper ref.operationID := by
  unfold Operation.OperationRef.validate at h
  split at h
  · cases h
  next hc =>
    split at h
    · cases h
    next ho => exact ⟨proper_of_connectorIDPattern (by simpa using hc), proper_of_operationIDPattern (by simpa using ho)⟩

theorem proper_validateEach {isPrint : Nat → Bool} {err : Bytes} : ∀ {ds : List Operation.BranchDefinition} {seen : List Bytes},
    Operation.validateEach isPrint seen ds = .error err → Proper err
  | [], _, h => by cases h
  | d :: ds, seen, h => by
    have hb : Proper (ascii "branch ID " ++ Operation.quote isPrint d.id) :=
      Proper.append ⟨by decide, by decide⟩ (proper_quote isPrint d.id).2
    have hd : Proper (ascii "branch " ++ Operation.quote isPrint d.id) :=
      Proper.append ⟨by decide, by decide⟩ (proper_quote isPrint d.id).2
    unfold Operation.validateEach at h
    split at h
    · cases h
      exact hb.append (by decide)
    · split at h
      · cases h
        exact hb.append (by decide)
      · split at h
        · cases h
          exact hd.append (by decide)
        · exact proper_validateEach h

theorem proper_validateBranches {isPrint : Nat → Bool} {ds : List Operation.BranchDefinition} {err : Bytes}
    (h : Operation.validateBranches isPrint ds = .error err) : Proper err := by
  unfold Operation.validateBranches at h
  split at h
  · cases h
    exact ⟨by decide, by decide⟩
  · exact proper_validateEach h

theorem proper_validateDefinitionOptions {defaults : Operation.StepDefaults} {err : Bytes}
    (h : Operation.validateDefinitionOptions defaults = .error err) : Proper err := by
  unfold Operation.validateDefinitionOptions at h
  split at h
  · cases h
    exact ⟨by decide, by decide⟩
  · split at h
    · cases h
      exact ⟨by decide, by decide⟩
    · split at h
      · cases h
      · split at h
        · cases h
          exact ⟨by decide, by decide⟩
        · cases h

theorem proper_validateQuery {isPrint : Nat → Bool} {d : Operation.Definition} {err : Bytes}
    (h : Operation.validateQuery isPrint d = .error err) : Proper err := by
  unfold Operation.validateQuery at h
  split at h
  next ho =>
    cases h
    exact proper_operation ho
  · split at h
    next hb =>
      cases h
      exact proper_validateBranches hb
    · split at h
      · cases h
        exact ⟨by decide, by decide⟩
      · split at h
        · cases h
          exact ⟨by decide, by decide⟩
        · exact proper_validateDefinitionOptions h

theorem proper_validateMutation {isPrint : Nat → Bool} {d : Operation.Definition} {err : Bytes}
    (h : Operation.validateMutation isPrint d = .error err) : Proper err := by
  unfold Operation.validateMutation at h
  split at h
  next ho =>
    cases h
    exact proper_operation ho
  · split at h
    next hb =>
      cases h
      exact proper_validateBranches hb
    · split at h
      · cases h
        exact ⟨by decide, by decide⟩
      · exact proper_validateDefinitionOptions h

theorem proper_newCall {rt : Runtime} {ctx : Option Operation.Context} {operation : Operation.OperationRef}
    {connection : Operation.ConnectionRef} {err : Bytes} (h : Operation.newCall rt ctx operation connection = .error err) :
    Proper err := by
  unfold Operation.newCall at h
  split at h
  · cases h
    exact ⟨by decide, by decide⟩
  · split at h
    · cases h
      exact ⟨by decide, by decide⟩
    · split at h
      · cases h
        exact ⟨by decide, by decide⟩
      · split at h
        next ho =>
          cases h
          exact Proper.append ⟨by decide, by decide⟩ (proper_operation ho).2
        · split at h
          next hc =>
            cases h
            unfold Operation.ConnectionRef.validate at hc
            split at hc
            · cases hc
              exact Proper.append ⟨by decide, by decide⟩ (by decide)
            · cases hc
          · cases h

theorem configureCall_error {rt : Runtime} {call : Operation.Call} {options : List Operation.RunOption} {err : Bytes}
    (h : Operation.configureCall rt call options = .error err) : err ≠ [] := by
  have hfold : ∀ {options : List Operation.RunOption} {config : Operation.RunConfig} {err : Bytes},
      options.foldlM Operation.RunOption.apply config = .error err → err ≠ [] := by
    intro options
    induction options with
    | nil => intro _ _ h; cases h
    | cons option rest ih =>
      intro config err h
      rw [List.foldlM_cons] at h
      rcases bind_eq_error.1 h with h | ⟨config', -, h⟩
      · unfold Operation.RunOption.apply at h
        split at h
        · cases h
          decide
        · split at h
          · cases h
            decide
          · cases h
        · split at h
          · cases h
            decide
          · cases h
      · exact ih h
  unfold Operation.configureCall at h
  split at h
  next he =>
    cases h
    exact hfold he
  · split at h
    · cases h
    · split at h
      · cases h
        exact fun h => absurd (List.append_eq_nil_iff.1 h).1 (by decide)
      · cases h

/-! ## Results of a run -/

/-- Python reads the document of a result as the result that Go had. -/
def ReadsSame (isUUID : Bytes → Bool) (isResult : OperationPython.Result (Json J) → Bool) (encodeValue : V → Json J)
    (r : Operation.Result V) (document : Json J) : Prop :=
  ∃ py, resultFromWire isUUID isResult document = some py ∧ Same encodeValue r py

/-- A result of a run, and the condition under which it reaches Python. -/
structure Outcome (isUUID : Bytes → Bool) (r : Operation.Result V) (P : Prop) : Prop where
  readable : Readable isUUID r
  branch   : Proper r.branch
  fine     : (Clean r ∧ ¬ (r.branch = Operation.uncertainBranchID ∧ r.failure = none)) ↔ P

theorem Outcome.readsSame_iff {isUUID : Bytes → Bool} {isResult : OperationPython.Result (Json J) → Bool}
    {encodeValue : V → Json J} {r : Operation.Result V} {document : Json J} {P : Prop} (h : Outcome isUUID r P)
    (hd : encodeResult encodeValue r = some document)
    (hresult : ∀ wire, OperationPython.isValidFailure (readFailures r.failure) = true →
      (isResult (readResult encodeValue r wire) = true ↔
        ¬ (r.branch = Operation.uncertainBranchID ∧ (readFailures r.failure).isSome = false))) :
    ReadsSame isUUID isResult encodeValue r document ↔ P := by
  obtain ⟨wire, f, hf, hinstant, hvalid, hsome, hfrom⟩ :=
    resultFromWire_encodeResult isResult h.readable hd
  have hok := hresult wire hvalid
  have hnone : (readFailures r.failure).isSome = false ↔ r.failure = none := by rw [hsome]; simp
  rw [hnone] at hok
  rw [← h.fine, ReadsSame, hfrom]
  constructor
  · rintro ⟨py, hpy, hsame⟩
    split at hpy
    next hc =>
      cases hpy
      exact ⟨(same_readResult_iff h.readable hf hinstant).1 hsame, hok.1 hc⟩
    · cases hpy
  · rintro ⟨hclean, hnot⟩
    rw [if_pos (hok.2 hnot)]
    exact ⟨_, rfl, (same_readResult_iff h.readable hf hinstant).2 hclean⟩

theorem isMutationResult_readResult {encodeValue : V → Json J} {r : Operation.Result V} (hb : Proper r.branch) (wire : Bytes)
    (hvalid : OperationPython.isValidFailure (readFailures r.failure) = true) :
    isMutationResult (readResult encodeValue r wire) = true ↔
      ¬ (r.branch = Operation.uncertainBranchID ∧ (readFailures r.failure).isSome = false) := by
  have hbranch : repair r.branch = r.branch := (repair_eq_iff _).2 hb.2
  simp only [isMutationResult, readResult, hbranch, hvalid, Bool.and_true, Bool.and_eq_true, bne_iff_ne, ne_eq, hb.1,
    not_false_eq_true, true_and, Bool.not_eq_true', Bool.and_eq_false_iff, beq_eq_false_iff_ne, Option.isNone_eq_false_iff,
    not_and_or, Bool.not_eq_false]
  rfl

theorem isQueryResult_readResult {encodeValue : V → Json J} {r : Operation.Result V} (hb : Proper r.branch)
    (hu : r.branch ≠ Operation.uncertainBranchID) (wire : Bytes)
    (hvalid : OperationPython.isValidFailure (readFailures r.failure) = true) :
    isQueryResult (readResult encodeValue r wire) = true ↔
      ¬ (r.branch = Operation.uncertainBranchID ∧ (readFailures r.failure).isSome = false) := by
  have hbranch : repair r.branch = r.branch := (repair_eq_iff _).2 hb.2
  have hu' : r.branch ≠ OperationPython.uncertainBranchID := hu
  simp only [isQueryResult, readResult, hbranch, hvalid, Bool.and_true, Bool.and_eq_true, bne_iff_ne, ne_eq, hb.1, hu, hu',
    not_false_eq_true, and_self, false_and]

section Calls

variable [Inhabited V] {isUUID : Bytes → Bool} {rt : Runtime}

theorem isValid_default {text fallback : Bytes} (h : isValid fallback = true) :
    isValid (if text = [] then fallback else text) = true ↔ isValid text = true := by
  by_cases ht : text = []
  · rw [if_pos ht, ht]
    exact ⟨fun _ => rfl, fun _ => h⟩
  · rw [if_neg ht]

theorem default_ne_nil {text fallback : Bytes} (h : fallback ≠ []) : (if text = [] then fallback else text) ≠ [] := by
  by_cases ht : text = []
  · rw [if_pos ht]
    exact h
  · rw [if_neg ht]
    exact ht

theorem localFailure_validate (operation : Operation.OperationRef) {message : Bytes} (hm : message ≠ []) :
    (Operation.localFailure operation message).validate = .ok () := by
  have hp : (Operation.localFailure operation message).provider ≠ [] := default_ne_nil (by decide)
  have ho : (Operation.localFailure operation message).operation ≠ [] := default_ne_nil (by decide)
  have hk : ascii "LOCAL_DEFECT" ∈ Operation.allFailureKinds := by decide
  unfold Operation.Failure.validate
  rw [if_neg (fun h => h hk), if_neg hp, if_neg ho, if_neg (by exact hm)]

theorem cleanFailure_localFailure (operation : Operation.OperationRef) (message : Bytes) :
    CleanFailure (Operation.localFailure operation message) ↔
      isValid operation.connectorID = true ∧ isValid operation.operationID = true ∧ isValid message = true := by
  have hp : isValid (Operation.localFailure operation message).provider = true ↔ isValid operation.connectorID = true :=
    isValid_default (by decide)
  have ho : isValid (Operation.localFailure operation message).operation = true ↔ isValid operation.operationID = true :=
    isValid_default (by decide)
  exact ⟨fun h => ⟨hp.1 h.provider, ho.1 h.operation, h.message⟩, fun h => ⟨hp.2 h.1, ho.2 h.2.1, h.2.2⟩⟩

theorem proper_defect : Proper Operation.defectBranchID := ⟨by decide, by decide⟩

/-- A result that failed before there was a call. -/
theorem outcome_failed (isUUID : Bytes → Bool) (definition : Operation.Definition) {message : Bytes} (hm : message ≠ []) :
    Outcome isUUID (Operation.failed definition message : Operation.Result V)
      (isValid definition.operation.connectorID = true ∧ isValid definition.operation.operationID = true ∧
        isValid message = true) := by
  refine ⟨⟨.inl rfl, fun f hf => ?_⟩, proper_defect, ?_⟩
  · cases hf
    exact localFailure_validate _ hm
  · rw [← cleanFailure_localFailure]
    constructor
    · intro h
      exact h.1.failure _ rfl
    · intro h
      refine ⟨⟨proper_defect.2, ⟨rfl, rfl, rfl, rfl, rfl, rfl, fun _ h => (by cases h)⟩, fun f hf => ?_⟩,
        fun h => (by cases h.2)⟩
      cases hf
      exact h

/-- The call of a run: its id is a UUID, its operation the one of the definition, which was checked. -/
structure CallOf (isUUID : Bytes → Bool) (definition : Operation.Definition) (call : Operation.Call) : Prop where
  id        : isUUID call.id = true
  valid     : isValid call.id = true
  connector : Proper definition.operation.connectorID
  operation : Proper definition.operation.operationID
  same      : call.operation = definition.operation

/-- The texts that an operation put into a receipt are well formed, and its time is Go's zero or has whole minutes of
offset. -/
structure CleanGiven (r : Operation.Receipt) : Prop where
  provider  : isValid r.provider = true
  objectID  : isValid r.providerObjectID = true
  requestID : isValid r.providerRequestID = true
  observed  : r.observedAt.isZero = true ∨ r.observedAt.offset % 60 = 0
  metadata  : ∀ entry ∈ r.metadata, isValid entry.1 = true ∧ isValid entry.2 = true

theorem cleanReceipt_completeReceipt {definition : Operation.Definition} {call : Operation.Call}
    {receipt r : Operation.Receipt} (hc : CallOf isUUID definition call)
    (h : Operation.completeReceipt rt receipt call = .ok r) :
    (r.callID = [] ∨ isUUID (repair r.callID) = true) ∧
      (CleanReceipt r ↔ isValid call.idempotencyKey = true ∧ CleanGiven receipt) := by
  obtain ⟨hid, hkey⟩ := Operation.receipt_of_completeReceipt h
  have hrepair : repair call.id = call.id := (repair_eq_iff _).2 hc.valid
  have hconnector : isValid call.operation.connectorID = true := by rw [hc.same]; exact hc.connector.2
  unfold Operation.completeReceipt at h
  split at h
  · cases h
  · split at h
    · cases h
    · cases h
      have hprovider := @isValid_default receipt.provider call.operation.connectorID hconnector
      have hobserved : (if receipt.observedAt.isZero = true then rt.now else receipt.observedAt).offset % 60 = 0 ↔
          receipt.observedAt.isZero = true ∨ receipt.observedAt.offset % 60 = 0 := by
        by_cases hz : receipt.observedAt.isZero = true
        · rw [if_pos hz, rt.now_utc]
          exact ⟨fun _ => .inl hz, fun _ => rfl⟩
        · rw [if_neg hz]
          exact ⟨.inr, fun h => h.resolve_left hz⟩
      refine ⟨.inr (by rw [hid, hrepair]; exact hc.id), ?_, ?_⟩
      · intro hclean
        exact ⟨by rw [← hkey]; exact hclean.key, hprovider.1 hclean.provider, hclean.objectID, hclean.requestID,
          hobserved.1 hclean.observed, hclean.metadata⟩
      · rintro ⟨hk, hgiven⟩
        exact ⟨by rw [hid]; exact hc.valid, by rw [hkey]; exact hk, hprovider.2 hgiven.provider, hgiven.objectID,
          hgiven.requestID, hobserved.2 hgiven.observed, hgiven.metadata⟩

theorem cleanGiven_empty : CleanGiven .empty := ⟨rfl, rfl, rfl, .inl (by decide), fun _ h => (by cases h)⟩

/-- A defect of a call. -/
theorem outcome_failedForCall {definition : Operation.Definition} {call : Operation.Call} {message : Bytes}
    {r : Operation.Result V} (hc : CallOf isUUID definition call) (hm : message ≠ [])
    (h : Operation.failedForCall rt definition call message = .ok r) :
    Outcome isUUID r (isValid call.idempotencyKey = true ∧ isValid message = true) := by
  obtain ⟨receipt, hmust, hcomplete⟩ := Operation.exists_mustCompleteEmptyReceipt rt call
  obtain ⟨hid, hclean⟩ := cleanReceipt_completeReceipt hc hcomplete
  unfold Operation.failedForCall at h
  rw [hmust] at h
  cases h
  refine ⟨⟨hid, fun f hf => ?_⟩, proper_defect, ?_⟩
  · cases hf
    exact localFailure_validate _ hm
  · constructor
    · intro h
      exact ⟨(hclean.1 h.1.receipt).1, (h.1.failure _ rfl).message⟩
    · rintro ⟨hk, hv⟩
      refine ⟨⟨proper_defect.2, hclean.2 ⟨hk, cleanGiven_empty⟩, fun f hf => ?_⟩, fun h => (by cases h.2)⟩
      cases hf
      exact (cleanFailure_localFailure _ _).2 ⟨hc.connector.2, hc.operation.2, hv⟩

/-! ### Attempts -/

/-- **The outcome of an attempt is taken as it is**: its branch is declared, the failure it carries validates, and its
receipt fits the call. -/
structure Taken (definition : Operation.Definition) (call : Operation.Call) (attempt : Operation.Attempt V) (branch : Bytes)
    (carries : Bool) : Prop where
  declared : Operation.hasBranch definition.branches branch = true
  failure  : carries = true → attempt.failure.validate = .ok ()
  id       : attempt.receipt.callID = [] ∨ attempt.receipt.callID = call.id
  key      : attempt.receipt.idempotencyKey = [] ∨ attempt.receipt.idempotencyKey = call.idempotencyKey

/-- The texts of the outcome are well formed, and its time has whole minutes of offset. -/
structure CleanOutcome (attempt : Operation.Attempt V) (carries : Bool) : Prop where
  receipt : CleanGiven attempt.receipt
  failure : carries = true → CleanFailure attempt.failure

variable (rt) in
omit [Inhabited V] in
theorem completeReceipt_error_iff (attempt : Operation.Attempt V) (call : Operation.Call) :
    (∃ err, Operation.completeReceipt rt attempt.receipt call = .error err ∧ Proper err) ∨
      ((∃ r, Operation.completeReceipt rt attempt.receipt call = .ok r) ∧
        (attempt.receipt.callID = [] ∨ attempt.receipt.callID = call.id) ∧
        (attempt.receipt.idempotencyKey = [] ∨ attempt.receipt.idempotencyKey = call.idempotencyKey)) := by
  unfold Operation.completeReceipt
  split
  · exact .inl ⟨_, rfl, by decide, by decide⟩
  next hid =>
    split
    · exact .inl ⟨_, rfl, by decide, by decide⟩
    next hkey => exact .inr ⟨⟨_, rfl⟩, by tauto, by tauto⟩

/-- Every declared branch of a valid definition has a proper name. -/
def ProperBranches (definition : Operation.Definition) : Prop :=
  ∀ branch, Operation.hasBranch definition.branches branch = true → Proper branch

/-- **What becomes of an outcome that an attempt reports**, taken or replaced by a defect. -/
theorem outcome_branch {definition : Operation.Definition} {call : Operation.Call} {attempt : Operation.Attempt V}
    {branch unknown : Bytes} {refused : Bytes → Bytes} (carries : Bool) {r : Operation.Result V}
    (hc : CallOf isUUID definition call) (hbranches : ProperBranches definition) (hunknown : Proper unknown)
    (hrefused : ∀ f : Operation.Failure, ∀ err, f.validate = .error err → Proper (refused err))
    (h : (if !Operation.hasBranch definition.branches branch then Operation.failedForCall rt definition call unknown
      else
        match if carries then attempt.failure.validate else .ok () with
        | .error err => Operation.failedForCall rt definition call (refused err)
        | .ok _ =>
          match Operation.completeReceipt rt attempt.receipt call with
          | .error err => Operation.failedForCall rt definition call err
          | .ok receipt => .ok ⟨branch, attempt.value, receipt, if carries then some attempt.failure else none⟩) = .ok r) :
    Outcome isUUID r (isValid call.idempotencyKey = true ∧ (Taken definition call attempt branch carries →
      CleanOutcome attempt carries ∧ ¬ (branch = Operation.uncertainBranchID ∧ carries = false))) := by
  -- a defect is read as it is, and nothing is taken
  have hdefect : ∀ {message : Bytes}, Proper message → ¬ Taken definition call attempt branch carries →
      Operation.failedForCall rt definition call message = .ok r →
      Outcome isUUID r (isValid call.idempotencyKey = true ∧ (Taken definition call attempt branch carries →
        CleanOutcome attempt carries ∧ ¬ (branch = Operation.uncertainBranchID ∧ carries = false))) := by
    intro message hm hnot h
    obtain ⟨hread, hproper, hfine⟩ := outcome_failedForCall hc hm.1 h
    exact ⟨hread, hproper, hfine.trans ⟨fun h => ⟨h.1, fun ht => absurd ht hnot⟩, fun h => ⟨h.1, hm.2⟩⟩⟩
  by_cases hb : Operation.hasBranch definition.branches branch = true
  · rw [hb, Bool.not_true, if_neg Bool.false_ne_true] at h
    cases hcheck : (if carries then attempt.failure.validate else .ok () : Except Bytes Unit) with
    | error err =>
      rw [hcheck] at h
      have hcarries : carries = true := by
        by_contra hnot
        rw [if_neg hnot] at hcheck
        cases hcheck
      rw [if_pos hcarries] at hcheck
      refine hdefect (hrefused _ err hcheck) (fun ht => ?_) h
      cases hcheck.symm.trans (ht.failure hcarries)
    | ok u =>
      rw [hcheck] at h
      dsimp only at h
      have hfailure : carries = true → attempt.failure.validate = .ok () := by
        intro hcarries
        rw [if_pos hcarries] at hcheck
        exact hcheck
      rcases completeReceipt_error_iff rt attempt call with
        ⟨err, herr, hproper⟩ | ⟨⟨receipt, hreceipt⟩, hid, hkey⟩
      · rw [herr] at h
        refine hdefect hproper (fun ht => ?_) h
        unfold Operation.completeReceipt at herr
        rw [if_neg (fun hne => ht.id.elim hne.1 hne.2), if_neg (fun hne => ht.key.elim hne.1 hne.2)] at herr
        cases herr
      · rw [hreceipt] at h
        cases h
        obtain ⟨hreadable, hclean⟩ := cleanReceipt_completeReceipt hc hreceipt
        have htaken : Taken definition call attempt branch carries := ⟨hb, hfailure, hid, hkey⟩
        refine ⟨⟨hreadable, fun f hf => ?_⟩, hbranches branch hb, ?_⟩
        · cases carries with
          | false => cases hf
          | true =>
            cases hf
            exact hfailure rfl
        · constructor
          · rintro ⟨h, hnot⟩
            have hc := hclean.1 h.receipt
            refine ⟨hc.1, fun _ => ⟨⟨hc.2, fun hcarries => ?_⟩, fun hu => hnot ⟨hu.1, ?_⟩⟩⟩
            · subst hcarries
              exact h.failure _ rfl
            · rw [hu.2]
              rfl
          · rintro ⟨hk, himp⟩
            obtain ⟨hout, hnot⟩ := himp htaken
            refine ⟨⟨(hbranches branch hb).2, hclean.2 ⟨hk, hout.receipt⟩, fun f hf => ?_⟩, fun hu => hnot ⟨hu.1, ?_⟩⟩
            · cases carries with
              | false => cases hf
              | true =>
                cases hf
                exact hout.failure rfl
            · cases carries with
              | false => rfl
              | true => cases hu.2
  · rw [Bool.eq_false_iff.2 hb, Bool.not_false, if_pos rfl] at h
    exact hdefect hunknown (fun ht => hb ht.declared) h

theorem proper_failure {f : Operation.Failure} {err : Bytes} (h : f.validate = .error err) : isValid err = true := by
  unfold Operation.Failure.validate at h
  split at h
  · cases h
    decide
  · split at h
    · cases h
      decide
    · split at h
      · cases h
        decide
      · split at h
        · cases h
          decide
        · cases h

/-- A retry that returned no error, and an attempt of no kind, are defects. -/
theorem outcome_refused {definition : Operation.Definition} {call : Operation.Call} {message : Bytes} {r : Operation.Result V}
    {P : Prop} (hc : CallOf isUUID definition call) (hm : Proper message) (hP : P)
    (h : Operation.failedForCall rt definition call message = .ok r) :
    Outcome isUUID r (isValid call.idempotencyKey = true ∧ P) := by
  obtain ⟨hread, hproper, hfine⟩ := outcome_failedForCall hc hm.1 h
  exact ⟨hread, hproper, hfine.trans ⟨fun h => ⟨h.1, hP⟩, fun h => ⟨h.1, hm.2⟩⟩⟩

/-- A query attempt that is taken is clean. -/
def QueryAttemptPortable (definition : Operation.Definition) (call : Operation.Call) (attempt : Operation.Attempt V) : Prop :=
  attempt.kind = Operation.queryAttemptBranch → Taken definition call attempt attempt.branch attempt.hasFailure →
    CleanOutcome attempt attempt.hasFailure

/-- **A mutation attempt that is taken is clean, and not on the uncertain branch without a failure.** -/
def MutationAttemptPortable (definition : Operation.Definition) (call : Operation.Call) (attempt : Operation.Attempt V) :
    Prop :=
  (attempt.kind = Operation.mutationAttemptBranch → Taken definition call attempt attempt.branch attempt.hasFailure →
    CleanOutcome attempt attempt.hasFailure ∧
      ¬ (attempt.branch = Operation.uncertainBranchID ∧ attempt.hasFailure = false)) ∧
  (attempt.kind = Operation.mutationAttemptUncertain → Taken definition call attempt Operation.uncertainBranchID true →
    CleanOutcome attempt true)

theorem outcome_retry {definition : Operation.Definition} {call : Operation.Call} {attempt : Operation.Attempt V}
    {message : Bytes} {r : Operation.Result V} {P : Prop} (hc : CallOf isUUID definition call) (hm : Proper message) (hP : P)
    (h : (match attempt.failure.validate with
      | .error _ => Operation.failedForCall rt definition call message
      | .ok _ =>
        if attempt.retryAfter < 0 then Operation.failedForCall rt definition call message
        else .error (Operation.retryError attempt.failure attempt.retryAfter)) = .ok r) :
    Outcome isUUID r (isValid call.idempotencyKey = true ∧ P) := by
  split at h
  · exact outcome_refused hc hm hP h
  · split at h
    · exact outcome_refused hc hm hP h
    · cases h

theorem outcome_queryResult {definition : Operation.Definition} {call : Operation.Call} {attempt : Operation.Attempt V}
    {r : Operation.Result V} (hc : CallOf isUUID definition call) (hbranches : ProperBranches definition)
    (hu : Operation.hasBranch definition.branches Operation.uncertainBranchID = false)
    (h : Operation.queryResult rt call definition attempt = .ok r) :
    Outcome isUUID r (isValid call.idempotencyKey = true ∧ QueryAttemptPortable definition call attempt) := by
  unfold Operation.queryResult at h
  by_cases hb : attempt.kind = Operation.queryAttemptBranch
  · rw [if_pos hb] at h
    obtain ⟨hread, hproper, hfine⟩ := outcome_branch _ hc hbranches ⟨by decide, by decide⟩
      (fun f err herr => Proper.append ⟨by decide, by decide⟩ (proper_failure herr)) h
    refine ⟨hread, hproper, hfine.trans (and_congr_right fun _ => ?_)⟩
    constructor
    · exact fun h _ ht => (h ht).1
    · refine fun h ht => ⟨h hb ht, fun hunc => ?_⟩
      have := ht.declared
      rw [hunc.1, hu] at this
      cases this
  · rw [if_neg hb] at h
    have hP : QueryAttemptPortable definition call attempt := fun hk => absurd hk hb
    split at h
    · exact outcome_retry hc ⟨by decide, by decide⟩ hP h
    · exact outcome_refused hc ⟨by decide, by decide⟩ hP h

theorem outcome_mutationResult {definition : Operation.Definition} {call : Operation.Call} {attempt : Operation.Attempt V}
    {r : Operation.Result V} (hc : CallOf isUUID definition call) (hbranches : ProperBranches definition)
    (h : Operation.mutationResult rt call definition attempt = .ok r) :
    Outcome isUUID r (isValid call.idempotencyKey = true ∧ MutationAttemptPortable definition call attempt) := by
  unfold Operation.mutationResult at h
  by_cases hb : attempt.kind = Operation.mutationAttemptBranch
  · rw [if_pos hb] at h
    obtain ⟨hread, hproper, hfine⟩ := outcome_branch _ hc hbranches ⟨by decide, by decide⟩
      (fun f err herr => Proper.append ⟨by decide, by decide⟩ (proper_failure herr)) h
    refine ⟨hread, hproper, hfine.trans (and_congr_right fun _ => ?_)⟩
    constructor
    · exact fun h => ⟨fun _ => h, fun hk => absurd (hb.symm.trans hk) (by decide)⟩
    · exact fun h => h.1 hb
  · rw [if_neg hb] at h
    by_cases hu : attempt.kind = Operation.mutationAttemptUncertain
    · rw [if_pos hu] at h
      obtain ⟨hread, hproper, hfine⟩ := outcome_branch true hc hbranches ⟨by decide, by decide⟩
        (fun f err herr => Proper.append ⟨by decide, by decide⟩ (proper_failure herr)) h
      refine ⟨hread, hproper, hfine.trans (and_congr_right fun _ => ?_)⟩
      constructor
      · exact fun h => ⟨fun hk => absurd hk hb, fun _ ht => (h ht).1⟩
      · exact fun h ht => ⟨h.2 hu ht, fun hnone => (by cases hnone.2)⟩
    · rw [if_neg hu] at h
      have hP : MutationAttemptPortable definition call attempt := ⟨fun hk => absurd hk hb, fun hk => absurd hk hu⟩
      split at h
      · exact outcome_retry hc ⟨by decide, by decide⟩ hP h
      · exact outcome_refused hc ⟨by decide, by decide⟩ hP h

end Calls

/-! ## Runs -/

section Runs

variable [Inhabited V] {isUUID : Bytes → Bool} {rt : Runtime}

theorem isValid_uuidString (bytes : Bytes) : isValid (Operation.uuidString bytes) = true := by
  have hhex : ∀ b ∈ bytes.flatMap (fun b => Operation.hexDigits 2 b.toNat), b < 0x80 := by
    intro b hb
    obtain ⟨x, -, hx⟩ := List.mem_flatMap.1 hb
    exact hexDigits_lt 2 x.toNat b hx
  have htake : ∀ n m, ∀ b ∈ ((bytes.flatMap (fun b => Operation.hexDigits 2 b.toNat)).drop n).take m, b < 0x80 :=
    fun n m b hb => hhex b (List.mem_of_mem_drop (List.mem_of_mem_take hb))
  apply isValid_of_ascii
  intro b hb
  simp only [Operation.uuidString, List.mem_append, List.mem_singleton] at hb
  rcases hb with (((((((hb | rfl) | hb) | rfl) | hb) | rfl) | hb) | rfl) | hb
  · exact hhex b (List.mem_of_mem_take hb)
  · decide
  · exact htake 8 4 b hb
  · decide
  · exact htake 12 4 b hb
  · decide
  · exact htake 16 4 b hb
  · decide
  · exact hhex b (List.mem_of_mem_drop hb)

theorem properBranches_validateEach {isPrint : Nat → Bool} :
    ∀ {ds : List Operation.BranchDefinition} {seen out : List Bytes}, Operation.validateEach isPrint seen ds = .ok out →
      ∀ branch, Operation.hasBranch ds branch = true → Proper branch
  | [], _, _, _, branch, hb => by cases hb
  | d :: ds, seen, out, h, branch, hb => by
    unfold Operation.validateEach at h
    split at h
    · cases h
    next hid =>
      split at h
      · cases h
      · split at h
        · cases h
        · rw [Operation.hasBranch, List.any_cons, Bool.or_eq_true, beq_iff_eq] at hb
          rcases hb with rfl | hb
          · exact proper_of_operationIDPattern (by simpa using hid)
          · exact properBranches_validateEach h branch hb

theorem properBranches_validateBranches {isPrint : Nat → Bool} {d : Operation.Definition} {out : List Bytes}
    (h : Operation.validateBranches isPrint d.branches = .ok out) : ProperBranches d := by
  unfold Operation.validateBranches at h
  split at h
  · cases h
  · exact properBranches_validateEach h

theorem properBranches_validateQuery {isPrint : Nat → Bool} {d : Operation.Definition}
    (h : Operation.validateQuery isPrint d = .ok ()) : ProperBranches d := by
  unfold Operation.validateQuery at h
  split at h
  · cases h
  · split at h
    · cases h
    next hb => exact properBranches_validateBranches hb

theorem properBranches_validateMutation {isPrint : Nat → Bool} {d : Operation.Definition}
    (h : Operation.validateMutation isPrint d = .ok ()) : ProperBranches d := by
  unfold Operation.validateMutation at h
  split at h
  · cases h
  · split at h
    · cases h
    next hb => exact properBranches_validateBranches hb

theorem callOf_newCall (huuid : ∀ bytes : Bytes, bytes.length = 16 → isUUID (Operation.uuidString bytes) = true)
    {ctx : Option Operation.Context} {definition : Operation.Definition} {connection : Operation.ConnectionRef}
    {call : Operation.Call} (ho : definition.operation.validate = .ok ())
    (h : Operation.newCall rt ctx definition.operation connection = .ok call) :
    CallOf isUUID definition call ∧ call.idempotencyKey = [] := by
  obtain ⟨hconnector, hoperation⟩ := operation_validate_ok ho
  unfold Operation.newCall at h
  split at h
  · cases h
  · split at h
    · cases h
    · split at h
      · cases h
      · split at h
        · cases h
        · split at h
          · cases h
          · cases h
            exact ⟨⟨huuid _ (rt.length_newSHA1 _), isValid_uuidString _, hconnector, hoperation, rfl⟩, rfl⟩

theorem configureCall_ok {call call' : Operation.Call} {options : List Operation.RunOption}
    (h : Operation.configureCall rt call options = .ok call') :
    call'.id = call.id ∧ call'.idempotencyKey = call.idempotencyKey ∧ call'.operation = call.operation := by
  unfold Operation.configureCall at h
  split at h
  · cases h
  · split at h
    · cases h
      exact ⟨rfl, rfl, rfl⟩
    · split at h
      · cases h
      · cases h
        exact ⟨rfl, rfl, rfl⟩

theorem CallOf.configured {definition : Operation.Definition} {call call' : Operation.Call}
    {options : List Operation.RunOption} (hc : CallOf isUUID definition call)
    (h : Operation.configureCall rt call options = .ok call') : CallOf isUUID definition call' := by
  obtain ⟨hid, -, hop⟩ := configureCall_ok h
  exact ⟨hid ▸ hc.id, hid ▸ hc.valid, hc.connector, hc.operation, hop.trans hc.same⟩

/-- **When Python reads the result of a query as Go had it**: a definition that is refused names its operation in well-formed
texts, options that are refused have a well-formed message, and an outcome that is taken is clean. -/
def QueryPortable (rt : Runtime) (ctx : Option Operation.Context) (operation : Operation.Query In V)
    (connection : Operation.ConnectionRef) (input : In) (options : List Operation.RunOption) : Prop :=
  match Operation.validateQuery rt.isPrint operation.definition with
  | .error _ =>
    isValid operation.definition.operation.connectorID = true ∧ isValid operation.definition.operation.operationID = true
  | .ok _ =>
    ∀ call, Operation.newCall rt ctx operation.definition.operation connection = .ok call →
      match Operation.configureCall rt call options with
      | .error err => isValid err = true
      | .ok call => QueryAttemptPortable operation.definition call (operation.invoke call input)

/-- The same of a mutation, whose idempotency key is a text of the result. -/
def MutationPortable (rt : Runtime) (ctx : Option Operation.Context) (operation : Operation.Mutation In V)
    (connection : Operation.ConnectionRef) (input : In) (options : List Operation.RunOption) : Prop :=
  match Operation.validateMutation rt.isPrint operation.definition with
  | .error _ =>
    isValid operation.definition.operation.connectorID = true ∧ isValid operation.definition.operation.operationID = true
  | .ok _ =>
    ∀ call, Operation.newCall rt ctx operation.definition.operation connection = .ok call →
      trimSpace (Operation.withKey operation input call).idempotencyKey ≠ [] →
      isValid (Operation.withKey operation input call).idempotencyKey = true ∧
      match Operation.configureCall rt (Operation.withKey operation input call) options with
      | .error err => isValid err = true
      | .ok call => MutationAttemptPortable operation.definition call (operation.invoke call input)

theorem defect_ne_uncertain : Operation.defectBranchID ≠ Operation.uncertainBranchID := by decide

omit [Inhabited V] in
theorem ne_uncertain_of_isFor {definition : Operation.Definition} {call : Operation.Call} {r : Operation.Result V}
    (hu : Operation.hasBranch definition.branches Operation.uncertainBranchID = false)
    (h : Operation.IsFor definition call r) : r.branch ≠ Operation.uncertainBranchID := by
  intro hbranch
  have := h.declared
  rw [hbranch, hu] at this
  cases this

section Assembled

variable (huuid : ∀ bytes : Bytes, bytes.length = 16 → isUUID (Operation.uuidString bytes) = true)
  {ctx : Option Operation.Context} {connection : Operation.ConnectionRef} {input : In}
  {options : List Operation.RunOption} {r : Operation.Result V}

theorem outcome_invalid {definition : Operation.Definition} {start err : Bytes} (hs : Proper start) (he : isValid err = true) :
    Outcome isUUID (Operation.failed definition (start ++ err) : Operation.Result V)
      (isValid definition.operation.connectorID = true ∧ isValid definition.operation.operationID = true) := by
  have hm := hs.append he
  obtain ⟨hread, hproper, hfine⟩ := outcome_failed (V := V) isUUID definition hm.1
  exact ⟨hread, hproper, hfine.trans ⟨fun h => ⟨h.1, h.2.1⟩, fun h => ⟨h.1, h.2, hm.2⟩⟩⟩

/-- A valid definition without a call. -/
theorem outcome_noCall {definition : Operation.Definition} {err : Bytes} (ho : definition.operation.validate = .ok ())
    (he : Proper err) {P : Prop} (hP : P) :
    Outcome isUUID (Operation.failed definition err : Operation.Result V) P := by
  obtain ⟨hconnector, hoperation⟩ := operation_validate_ok ho
  obtain ⟨hread, hproper, hfine⟩ := outcome_failed (V := V) isUUID definition he.1
  exact ⟨hread, hproper, hfine.trans ⟨fun _ => hP, fun _ => ⟨hconnector.2, hoperation.2, he.2⟩⟩⟩

/-- A nil operation is answered with a defect that every reader takes. -/
theorem outcome_nil {message : Bytes} (hm : Proper message) :
    Outcome isUUID (Operation.failed .empty message : Operation.Result V) True := by
  obtain ⟨hread, hproper, hfine⟩ := outcome_failed (V := V) isUUID .empty hm.1
  exact ⟨hread, hproper, hfine.trans ⟨fun _ => trivial, fun _ => ⟨by decide, by decide, hm.2⟩⟩⟩

include huuid

theorem outcome_runQuery {operation : Operation.Query In V}
    (h : Operation.runQuery rt ctx (some operation) connection input options = .ok r) :
    Outcome isUUID r (QueryPortable rt ctx operation connection input options) ∧
      r.branch ≠ Operation.uncertainBranchID := by
  unfold Operation.runQuery at h
  unfold QueryPortable
  dsimp only at h
  cases hv : Operation.validateQuery rt.isPrint operation.definition with
  | error err =>
    rw [hv] at h
    cases h
    exact ⟨outcome_invalid ⟨by decide, by decide⟩ (proper_validateQuery hv).2, defect_ne_uncertain⟩
  | ok u =>
    rw [hv] at h
    obtain ⟨ho, hdefect, hu⟩ := Operation.validateQuery_ok hv
    have hbranches := properBranches_validateQuery hv
    dsimp only at h ⊢
    cases hcall : Operation.newCall rt ctx operation.definition.operation connection with
    | error err =>
      rw [hcall] at h
      cases h
      exact ⟨outcome_noCall ho (proper_newCall hcall) (fun call hc => (by cases hc)), defect_ne_uncertain⟩
    | ok call =>
      rw [hcall] at h
      obtain ⟨hc, hkey⟩ := callOf_newCall huuid ho hcall
      dsimp only at h
      cases hconf : Operation.configureCall rt call options with
      | error err =>
        rw [hconf] at h
        obtain ⟨hread, hproper, hfine⟩ := outcome_failedForCall hc (configureCall_error hconf) h
        rw [hkey] at hfine
        refine ⟨⟨hread, hproper, hfine.trans ⟨fun hv call' hc' => ?_, fun hv => ⟨rfl, ?_⟩⟩⟩, ?_⟩
        · cases hc'
          rw [hconf]
          exact hv.2
        · have := hv call rfl
          rw [hconf] at this
          exact this
        · obtain ⟨result, hresult, hfor⟩ := Operation.exists_failedForCall (V := V) rt call err hdefect
          cases hresult.symm.trans h
          exact ne_uncertain_of_isFor hu hfor
      | ok call' =>
        rw [hconf] at h
        have hout := outcome_queryResult (hc.configured hconf) hbranches hu h
        have hkey' : call'.idempotencyKey = [] := (configureCall_ok hconf).2.1.trans hkey
        rw [hkey'] at hout
        refine ⟨⟨hout.readable, hout.branch, hout.fine.trans ⟨fun hv call' hc' => ?_, fun hv => ⟨rfl, ?_⟩⟩⟩, ?_⟩
        · cases hc'
          rw [hconf]
          exact hv.2
        · have := hv call rfl
          rw [hconf] at this
          exact this
        · rcases Operation.concluded_queryResult rt call' (operation.invoke call' input) hdefect with
            ⟨-, hstop⟩ | ⟨-, result, hresult, hfor⟩
          · cases hstop.symm.trans h
          · cases hresult.symm.trans h
            exact ne_uncertain_of_isFor hu hfor

theorem outcome_runMutation {operation : Operation.Mutation In V}
    (h : Operation.runMutation rt ctx (some operation) connection input options = .ok r) :
    Outcome isUUID r (MutationPortable rt ctx operation connection input options) := by
  unfold Operation.runMutation at h
  unfold MutationPortable
  dsimp only at h
  cases hv : Operation.validateMutation rt.isPrint operation.definition with
  | error err =>
    rw [hv] at h
    cases h
    exact outcome_invalid ⟨by decide, by decide⟩ (proper_validateMutation hv).2
  | ok u =>
    rw [hv] at h
    obtain ⟨ho, -⟩ := Operation.validateMutation_ok hv
    have hbranches := properBranches_validateMutation hv
    dsimp only at h ⊢
    cases hcall : Operation.newCall rt ctx operation.definition.operation connection with
    | error err =>
      rw [hcall] at h
      cases h
      exact outcome_noCall ho (proper_newCall hcall) (fun call hc => (by cases hc))
    | ok call =>
      rw [hcall] at h
      obtain ⟨hc, -⟩ := callOf_newCall huuid ho hcall
      dsimp only at h
      by_cases hblank : trimSpace (Operation.withKey operation input call).idempotencyKey = []
      · rw [if_pos hblank] at h
        have hc' : CallOf isUUID operation.definition { call with idempotencyKey := [] } :=
          ⟨hc.id, hc.valid, hc.connector, hc.operation, hc.same⟩
        obtain ⟨hread, hproper, hfine⟩ := outcome_failedForCall hc' (by decide) h
        refine ⟨hread, hproper, hfine.trans ⟨fun _ call' hc' hne => ?_, fun _ => ⟨rfl, by decide⟩⟩⟩
        cases hc'
        exact absurd hblank hne
      · rw [if_neg hblank] at h
        have hck : CallOf isUUID operation.definition (Operation.withKey operation input call) :=
          ⟨hc.id, hc.valid, hc.connector, hc.operation, hc.same⟩
        cases hconf : Operation.configureCall rt (Operation.withKey operation input call) options with
        | error err =>
          rw [hconf] at h
          obtain ⟨hread, hproper, hfine⟩ := outcome_failedForCall hck (configureCall_error hconf) h
          refine ⟨hread, hproper, hfine.trans ⟨fun hv call' hc' _ => ?_, fun hv => ?_⟩⟩
          · cases hc'
            rw [hconf]
            exact hv
          · have := hv call rfl hblank
            rw [hconf] at this
            exact this
        | ok call' =>
          rw [hconf] at h
          have hout := outcome_mutationResult (hck.configured hconf) hbranches h
          have hkey := (configureCall_ok hconf).2.1
          rw [hkey] at hout
          refine ⟨hout.readable, hout.branch, hout.fine.trans ⟨fun hv call'' hc'' _ => ?_, fun hv => ?_⟩⟩
          · cases hc''
            rw [hconf]
            exact hv
          · have := hv call rfl hblank
            rw [hconf] at this
            exact this

end Assembled

/-- **When Go results are readable in Python.**  A result that a run returned without error, encoded as JSON, is accepted by
`from_wire` and is the same result, exactly when the operation is absent or portable.  A query result is never on the
uncertain branch. -/
theorem go_results_readable_iff (isUUID : Bytes → Bool)
    (huuid : ∀ bytes : Bytes, bytes.length = 16 → isUUID (Operation.uuidString bytes) = true) (rt : Runtime)
    (encodeValue : V → Json J) (ctx : Option Operation.Context) (connection : Operation.ConnectionRef) (input : In)
    (options : List Operation.RunOption) (r : Operation.Result V) (document : Json J)
    (hd : encodeResult encodeValue r = some document) :
    (∀ operation : Option (Operation.Query In V),
      Operation.runQuery rt ctx operation connection input options = .ok r →
      r.branch ≠ Operation.uncertainBranchID ∧ (ReadsSame isUUID isQueryResult encodeValue r document ↔
        ∀ query ∈ operation, QueryPortable rt ctx query connection input options)) ∧
    (∀ operation : Option (Operation.Mutation In V),
      Operation.runMutation rt ctx operation connection input options = .ok r →
      (ReadsSame isUUID isMutationResult encodeValue r document ↔
        ∀ mutation ∈ operation, MutationPortable rt ctx mutation connection input options)) := by
  refine ⟨fun operation h => ?_, fun operation h => ?_⟩
  · cases operation with
    | none =>
      have hout : Outcome isUUID r True := by
        cases h
        exact outcome_nil ⟨by decide, by decide⟩
      have hu : r.branch ≠ Operation.uncertainBranchID := by
        cases h
        exact defect_ne_uncertain
      refine ⟨hu, (hout.readsSame_iff hd (fun wire => isQueryResult_readResult hout.branch hu wire)).trans ?_⟩
      exact ⟨fun _ query hq => (by cases hq), fun _ => trivial⟩
    | some query =>
      obtain ⟨hout, hu⟩ := outcome_runQuery huuid h
      refine ⟨hu, (hout.readsSame_iff hd (fun wire => isQueryResult_readResult hout.branch hu wire)).trans ?_⟩
      exact ⟨fun hp q hq => (Option.mem_some_iff.1 hq) ▸ hp, fun hp => hp query rfl⟩
  · cases operation with
    | none =>
      have hout : Outcome isUUID r True := by
        cases h
        exact outcome_nil ⟨by decide, by decide⟩
      refine (hout.readsSame_iff hd (fun wire => isMutationResult_readResult hout.branch wire)).trans ?_
      exact ⟨fun _ mutation hm => (by cases hm), fun _ => trivial⟩
    | some mutation =>
      have hout := outcome_runMutation huuid h
      refine (hout.readsSame_iff hd (fun wire => isMutationResult_readResult hout.branch wire)).trans ?_
      exact ⟨fun hp m hm => (Option.mem_some_iff.1 hm) ▸ hp, fun hp => hp mutation rfl⟩

end Runs

/-! ### An uncertain branch without a failure -/

theorem length_hexDigits : ∀ n r, (Operation.hexDigits n r).length = n
  | 0, _ => rfl
  | n + 1, r => by rw [Operation.hexDigits, List.length_append, length_hexDigits n]; rfl

theorem length_flatMap_hexDigits : ∀ bytes : Bytes, (bytes.flatMap (fun b => Operation.hexDigits 2 b.toNat)).length = 2 * bytes.length
  | [] => rfl
  | b :: rest => by
    rw [List.flatMap_cons, List.length_append, length_hexDigits, length_flatMap_hexDigits rest, List.length_cons]
    omega

theorem length_uuidString {bytes : Bytes} (h : bytes.length = 16) : (Operation.uuidString bytes).length = 36 := by
  have hex : (bytes.flatMap (fun b => Operation.hexDigits 2 b.toNat)).length = 32 := by
    rw [length_flatMap_hexDigits, h]
  simp only [Operation.uuidString, List.length_append, List.length_take, List.length_drop, List.length_singleton, hex]
  decide

/-- `UUID(text)`, of the texts that Go writes. -/
def sampleUUID (text : Bytes) : Bool := text.length == 36

def sampleDefinition : Operation.Definition :=
  { Operation.sampleDefinition with
    branches := ⟨Operation.uncertainBranchID, ascii "The message may have been sent.", true⟩ ::
      Operation.sampleDefinition.branches }

/-- A mutation that reports `NewMutationBranch(UncertainBranchID, 7, nil, Receipt{})`. -/
def uncertainMutation : Operation.Mutation Unit Nat :=
  ⟨sampleDefinition, fun _ _ => [], fun _ _ => Operation.sampleAttempt Operation.uncertainBranchID⟩

theorem uncertain_without_failure :
    ∃ (r : Operation.Result Nat) (document : Json Nat),
      Operation.runMutation Operation.sampleRuntime (some ⟨[1], [2]⟩) (some uncertainMutation) ⟨ascii "gmail", ascii "work"⟩ ()
        [] = .ok r ∧
      r.branch = Operation.uncertainBranchID ∧ r.failure = none ∧ encodeResult .other r = some document ∧
      ¬ ReadsSame sampleUUID isMutationResult .other r document := by
  refine ⟨_, _, rfl, rfl, rfl, rfl, ?_⟩
  rintro ⟨py, hpy, -⟩
  cases hpy

theorem sent_query_read :
    ∃ (r : Operation.Result Nat) (document : Json Nat), encodeResult .other r = some document ∧
      Operation.runQuery Operation.sampleRuntime (some ⟨[1], [2]⟩) (some Operation.sampleQuery) ⟨ascii "gmail", ascii "work"⟩ ()
        [] = .ok r ∧
      ReadsSame sampleUUID isQueryResult .other r document := by
  refine ⟨_, _, rfl, rfl, ?_⟩
  refine (((go_results_readable_iff sampleUUID (fun bytes h => beq_iff_eq.2 (length_uuidString h)) Operation.sampleRuntime .other
    (some ⟨[1], [2]⟩) ⟨ascii "gmail", ascii "work"⟩ () [] _ _ rfl).1 (some Operation.sampleQuery) rfl).2).2 ?_
  intro query hquery
  cases hquery
  intro call hcall
  cases hcall
  exact fun _ _ => ⟨cleanGiven_empty, fun h => (by cases h)⟩

end OperationWire
end Dex
