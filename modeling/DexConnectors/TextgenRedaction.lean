import DexConnectors.LibMethod
import DexConnectors.OperationWire
import DexConnectors.TextgenModel
/-!
# TextgenRedaction — what an attempt discloses

A text is independent of the provider when it is made of the SDK's own messages, of configured names, of numbers and times, or
of the locations of a schema.  `credential_not_disclosed`: a credential that occurs in none of those occurs in nothing that an
attempt leaves behind, whatever the provider answers.

The credential holds no space, so it occurs in a message of several words only where it occurs in one of its words.
-/
namespace Dex
namespace Textgen

open Lib Lib.Utf8 Lib.Json
open Operation (Failure Receipt Time)

/-! ## Texts that the provider does not choose -/

def fixedMessages : List String :=
  ["the wire format cannot decode the response form it requested", "provider sent no bytes within the stall timeout",
    "provider request failed before a response was received", "provider returned HTTP ",
    "provider reported an error inside a 2xx response", "the text stream could not be written",
    "provider response exceeds the configured size limit", "provider response ended before it was complete",
    "provider response does not match its documented format", "provider did not return the event stream it was asked for",
    "provider returned an invalid model or response identifier", "provider reported negative token usage",
    "provider returned an invalid finish reason", "provider returned no recognizable finish reason",
    "provider stopped for an unsupported reason: ", "provider finished without text",
    "structured output does not match its schema at ", "provider stopped at the output token limit",
    "the model refused the request", "provider stopped the response for a content policy", "the root: "]

/-- The reasons of `schemaLocationError` that an answer can have. -/
def reasons : List String :=
  ["the text is not one JSON value", "the text has data after the JSON value", typeError, "the number is out of range",
    "the value is not one of the enum values", "the value does not equal const",
    "the value has fewer items than minItems", "the value has more items than maxItems",
    "the value has fewer characters than minLength", "the value has more characters than maxLength",
    "the value is below minimum", "the value is above maximum",
    "the object has a property the schema does not declare", "a required property is missing"] ++
  SchemaType.all.map (fun t => s!"expected type {t.name}") ++
  SchemaType.all.map (fun t => s!"expected type {t.name}, found null") ++
  portableSchemaFormats.map ("the string does not match format " ++ ·)

/-- A location in the instances of a schema. -/
inductive SchemaPointer : Members → Bytes → Prop
  | here {schema : Members} : SchemaPointer schema []
  | item {schema : Members} {rest : Bytes} (index : Nat) (h : SchemaPointer (objectOf (member schema "items")) rest) :
      SchemaPointer schema (0x2F :: formatNat index ++ rest)
  | property {schema : Members} {rest : Bytes} (name : Bytes) (hname : name ∈ sortedKeys (objectOf (member schema "properties")))
      (h : SchemaPointer (objectOf (get (objectOf (member schema "properties")) name)) rest) :
      SchemaPointer schema (0x2F :: escapeJSONPointerSegment name ++ rest)

/-- The RFC 3339 text of a time. -/
def timeText (t : Time) : Bytes := (OperationWire.fieldsOf t).text

/-- A text that the provider does not choose, of a call of a query at a time. -/
inductive IndependentText (query : Query) (callID : Bytes) (now : Time) (schema : Option Members) : Bytes → Prop
  | fixed {message : String} (h : message ∈ fixedMessages ++ reasons) : IndependentText query callID now schema (ascii message)
  | status (n : Int) : IndependentText query callID now schema (formatInt n)
  | callID : IndependentText query callID now schema callID
  | timestamp {t : Time} (h : t = now ∨ t = .zero) : IndependentText query callID now schema (timeText t)
  | header {name : Bytes} (h : name ∈ query.wireFormat.rateLimitHeaders) : IndependentText query callID now schema (lowerName name)
  | provider : IndependentText query callID now schema query.wireFormat.providerName
  -- a location as messages write it
  | pointer {s : Members} {p : Bytes} (hs : schema = some s) (h : SchemaPointer s p) :
      IndependentText query callID now schema (p ++ ascii ":")

theorem ascii_append (a b : String) : ascii (a ++ b) = ascii a ++ ascii b := by
  unfold ascii
  rw [String.toList_append, List.map_append]

/-! ## Disclosure -/

def receiptTexts (receipt : Receipt) : List Bytes :=
  [receipt.callID, receipt.idempotencyKey, receipt.provider, receipt.providerObjectID, receipt.providerRequestID,
    timeText receipt.observedAt] ++ receipt.metadata.flatMap (fun m => [m.1, m.2])

/-- The texts of an attempt's result, the generated text apart. -/
def disclosed (attempt : QueryAttempt) : List Bytes :=
  [attempt.failure.message, attempt.value.servedModel, attempt.value.responseID, attempt.value.providerFinishReason] ++
    receiptTexts attempt.receipt

/-- `textGenerationAttempt`, its request prepared and its credential resolved. -/
def TextGenerationAttempt.prepared (query : Query) (callID : Bytes) (hasTextStream : Bool) (writeText : Bytes → Bool)
    (requestedModel credential : Bytes) : TextGenerationAttempt :=
  ⟨query, callID, hasTextStream, writeText, { TextGenerationResponse.empty with requestedModel := requestedModel }, credential⟩

/-! ## Where an answer breaks its schema -/

/-- Errors stand below the pointer, at a location of the schema, and give one of the reasons. -/
def Located (schema : Members) (pointer : Bytes) (check : Check) : Prop :=
  ∀ err, check = .error err → (∃ p, err.pointer = pointer ++ p ∧ SchemaPointer schema p) ∧ ∃ reason ∈ reasons, err.reason = ascii reason

section Located

variable {schema : Members} {pointer : Bytes}

theorem located_ok : Located schema pointer (.ok ()) := fun _ h => by cases h

theorem located_error {reason : String} (h : reason ∈ reasons) : Located schema pointer (fail pointer reason) := by
  intro err herr
  cases herr
  exact ⟨⟨[], (List.append_nil _).symm, .here⟩, reason, h, rfl⟩

theorem located_failIf {b : Bool} {reason : String} (h : reason ∈ reasons) : Located schema pointer (failIf b pointer reason) := by
  unfold failIf
  split
  · exact located_error h
  · exact located_ok

theorem Located.bind {A : Type} {x : Except SchemaLocationError A} {f : A → Check}
    (hx : ∀ err, x = .error err → Located schema pointer (.error err)) (hf : ∀ a, x = .ok a → Located schema pointer (f a)) :
    Located schema pointer (x >>= f) := by
  intro err herr
  rcases bind_eq_error.1 herr with h | ⟨a, ha, h⟩
  · exact hx err h err rfl
  · exact hf a ha err h

theorem Located.seq {x y : Check} (hx : Located schema pointer x) (hy : x = .ok () → Located schema pointer y) :
    Located schema pointer (x >>= fun _ => y) :=
  .bind (fun err herr err' heq => by cases heq; exact hx err herr) (fun _ ha => hy ha)

theorem mem_reasons_type (t : SchemaType) : s!"expected type {t.name}" ∈ reasons ∧ s!"expected type {t.name}, found null" ∈ reasons := by
  have ht : t ∈ SchemaType.all := by cases t <;> decide
  refine ⟨?_, ?_⟩
  · exact List.mem_append_left _ (List.mem_append_left _ (List.mem_append_right _ (List.mem_map_of_mem ht)))
  · exact List.mem_append_left _ (List.mem_append_right _ (List.mem_map_of_mem ht))

/-! ### Portable nodes -/

theorem checkEach_ok {A : Type} {check : A → Check} : ∀ {l : List A}, checkEach check l = .ok () → ∀ a ∈ l, check a = .ok ()
  | a :: rest, h => by
    obtain ⟨_, ha, hrest⟩ := bind_eq_ok.1 h
    exact List.forall_mem_cons.2 ⟨ha, checkEach_ok hrest⟩
  | [], _ => fun a ha => by cases ha

theorem failIf_ok {b : Bool} {reason : String} (h : failIf b pointer reason = .ok ()) : b = false := by
  unfold failIf at h
  cases b with
  | true => cases h
  | false => rfl

/-- A node that was checked. -/
def Portable (isPrint : Nat → Bool) (node : Members) : Prop := ∃ levels pointer, checkSchemaNode isPrint levels node pointer = .ok ()

variable {isPrint : Nat → Bool} {t : SchemaType × Bool}

theorem schemaType_of_readSchemaType (h : readSchemaType schema pointer = .ok t) : schemaType (get schema (ascii "type")) = some t := by
  unfold readSchemaType at h
  split at h
  · next t' ht =>
    cases h
    exact ht
  · cases h

/-- What is left of a node's check once its type is known. -/
theorem Portable.node (h : Portable isPrint schema) (ht : readSchemaType schema pointer = .ok t) :
    ∃ levels p, (match t.1 with
      | .object => checkObjectSchema (checkSchemaNode isPrint levels) schema p
      | .array => checkArraySchema (checkSchemaNode isPrint levels) schema p
      | .string => checkFormat schema p >>= fun _ => checkCountBounds schema p "minLength" "maxLength"
      | .number | .integer => checkNumberBounds schema p
      | .boolean | .null => .ok ()) = .ok () := by
  obtain ⟨levels, p, hcheck⟩ := h
  cases levels with
  | zero => cases hcheck
  | succ levels =>
    obtain ⟨_, -, hcheck⟩ := bind_eq_ok.1 hcheck
    obtain ⟨t', ht', hcheck⟩ := bind_eq_ok.1 hcheck
    obtain ⟨_, -, hcheck⟩ := bind_eq_ok.1 hcheck
    obtain ⟨_, -, hcheck⟩ := bind_eq_ok.1 hcheck
    have hsame : t' = t := Option.some.inj ((schemaType_of_readSchemaType ht').symm.trans (schemaType_of_readSchemaType ht))
    subst hsame
    exact ⟨levels, p, hcheck⟩

theorem Portable.items (h : Portable isPrint schema) (ht : readSchemaType schema pointer = .ok t) (harray : t.1 = .array) :
    Portable isPrint (objectOf (member schema "items")) := by
  obtain ⟨levels, p, hcheck⟩ := h.node ht
  rw [harray] at hcheck
  dsimp only [checkArraySchema] at hcheck
  obtain ⟨_, -, hcheck⟩ := bind_eq_ok.1 hcheck
  split at hcheck
  · next items hitems =>
    rw [hitems]
    exact ⟨levels, _, hcheck⟩
  · cases hcheck

theorem Portable.property (h : Portable isPrint schema) (ht : readSchemaType schema pointer = .ok t) (hobject : t.1 = .object)
    {name : Bytes} (hname : name ∈ sortedKeys (objectOf (member schema "properties"))) :
    Portable isPrint (objectOf (get (objectOf (member schema "properties")) name)) := by
  obtain ⟨levels, p, hcheck⟩ := h.node ht
  rw [hobject] at hcheck
  dsimp only [checkObjectSchema] at hcheck
  split at hcheck
  · next properties hproperties =>
    rw [hproperties] at hname ⊢
    split at hcheck
    · split at hcheck
      · obtain ⟨_, -, hcheck⟩ := bind_eq_ok.1 hcheck
        obtain ⟨_, -, hcheck⟩ := bind_eq_ok.1 hcheck
        have hproperty := checkEach_ok hcheck name hname
        split at hproperty
        · next property hget =>
          dsimp only [objectOf]
          rw [hget]
          exact ⟨levels, _, hproperty⟩
        · cases hproperty
      · cases hcheck
    · cases hcheck
  · cases hcheck

theorem Portable.format (h : Portable isPrint schema) (ht : readSchemaType schema pointer = .ok t) (hstring : t.1 = .string)
    {format : Bytes} (hformat : member schema "format" = some (.string format)) :
    ∃ name ∈ portableSchemaFormats, format = ascii name := by
  obtain ⟨levels, p, hcheck⟩ := h.node ht
  rw [hstring] at hcheck
  obtain ⟨_, hcheck, -⟩ := bind_eq_ok.1 hcheck
  unfold checkFormat at hcheck
  rw [hformat] at hcheck
  have hknown := failIf_ok hcheck
  rw [Bool.not_eq_false', List.contains_iff_mem] at hknown
  obtain ⟨name, hname, rfl⟩ := List.mem_map.1 hknown
  exact ⟨name, hname, rfl⟩

/-! ### Instances -/

theorem validateEnumAndConst_located {actual : Tree} {number : Option Rat} :
    Located schema pointer (validateEnumAndConst actual number schema pointer) := by
  refine Located.seq ?_ (fun _ => ?_)
  · split
    · exact located_failIf (by decide)
    · exact located_ok
  · split
    · exact located_failIf (by decide)
    · exact located_ok

theorem validateCount_located {count : Int} {minimumKeyword maximumKeyword unit : String}
    (hmin : s!"the value has fewer {unit} than {minimumKeyword}" ∈ reasons)
    (hmax : s!"the value has more {unit} than {maximumKeyword}" ∈ reasons) :
    Located schema pointer (validateCount count schema pointer minimumKeyword maximumKeyword unit) := by
  refine Located.seq ?_ (fun _ => ?_)
  · split
    · exact located_failIf hmin
    · exact located_ok
  · split
    · exact located_failIf hmax
    · exact located_ok

theorem validateNumberBounds_located {value : Option Rat} : Located schema pointer (validateNumberBounds value schema pointer) := by
  refine Located.seq ?_ (fun _ => ?_)
  · split
    · exact located_failIf (by decide)
    · exact located_ok
  · split
    · exact located_failIf (by decide)
    · exact located_ok

theorem validateString_located (h : Portable isPrint schema) (ht : readSchemaType schema pointer = .ok t) (hstring : t.1 = .string)
    {text : Bytes} : Located schema pointer (validateString text schema pointer) := by
  refine Located.seq (validateCount_located (by decide) (by decide)) (fun _ => ?_)
  split
  · next format hformat =>
    obtain ⟨name, hname, rfl⟩ := h.format ht hstring hformat
    split
    · exact located_ok
    · intro err herr
      cases herr
      refine ⟨⟨[], (List.append_nil _).symm, .here⟩, "the string does not match format " ++ name, ?_, ?_⟩
      · exact List.mem_append_right _ (List.mem_map_of_mem hname)
      · exact (ascii_append _ _).symm
  · exact located_ok

theorem validateNode_located (h : Portable isPrint schema) (ht : readSchemaType schema pointer = .ok t) {actual : Tree} :
    Located schema pointer (validateNode actual schema pointer t.1) := by
  refine .bind (fun err herr => ?_) (fun number _ => ?_)
  · cases actual with
    | number literal =>
      dsimp only [readNumber] at herr
      split at herr
      · cases herr
      · cases herr
        exact located_error (by decide)
    | null | bool | string | array | object => cases herr
  · refine .seq (located_failIf (mem_reasons_type t.1).1) (fun htype => ?_)
    have hmatch : isType actual number t.1 = true := by simpa using failIf_ok htype
    refine .seq validateEnumAndConst_located (fun _ => ?_)
    cases actual with
    | string text => exact validateString_located h ht (by simpa [isType] using hmatch)
    | number literal => exact validateNumberBounds_located
    | array values => exact validateCount_located (by decide) (by decide)
    | object members => exact located_failIf (by decide)
    | null | bool => exact located_ok

/-- A node whose own check passed is of the type that the schema gives. -/
theorem isType_of_validateNode {actual : Tree} (h : validateNode actual schema pointer t.1 = .ok ()) :
    ∃ number, isType actual number t.1 = true := by
  obtain ⟨number, -, h⟩ := bind_eq_ok.1 h
  obtain ⟨_, htype, -⟩ := bind_eq_ok.1 h
  exact ⟨number, by simpa using failIf_ok htype⟩

end Located

/-- What is located in a part of a schema is located in the schema. -/
theorem Located.lift {schema part : Members} {pointer segment : Bytes} {check : Check} (h : Located part (below pointer segment) check)
    (hpart : ∀ rest, SchemaPointer part rest → SchemaPointer schema (0x2F :: segment ++ rest)) : Located schema pointer check := by
  intro err herr
  obtain ⟨⟨p, hp, hpointer⟩, hreason⟩ := h err herr
  refine ⟨⟨0x2F :: segment ++ p, ?_, hpart p hpointer⟩, hreason⟩
  rw [hp]
  simp [below]

mutual

/-- **Errors name a location of the schema.** -/
theorem validateInstance_located {isPrint : Nat → Bool} (actual : Tree) (schema : Members) (pointer : Bytes)
    (h : Portable isPrint schema) : Located schema pointer (validateInstance actual schema pointer) := by
  rw [validateInstance.eq_def]
  refine .bind (fun err herr => ?_) (fun t ht => ?_)
  · unfold readSchemaType at herr
    split at herr
    · cases herr
    · cases herr
      exact located_error (by decide)
  · cases actual with
    | null => exact .seq (located_failIf (mem_reasons_type t.1).2) (fun _ => validateEnumAndConst_located)
    | array values =>
      refine .seq (validateNode_located h ht) (fun hnode => ?_)
      obtain ⟨number, htype⟩ := isType_of_validateNode hnode
      exact validateItems_located values schema pointer 0 (h.items ht (by simpa [isType] using htype))
    | object members =>
      refine .seq (validateNode_located h ht) (fun hnode => ?_)
      obtain ⟨number, htype⟩ := isType_of_validateNode hnode
      have hobject : t.1 = .object := by simpa [isType] using htype
      exact validateProperties_located members schema pointer _ (fun name hname => ⟨hname, h.property ht hobject hname⟩)
    | bool | number | string => exact validateNode_located h ht
termination_by (sizeOf actual, 0)

theorem validateItems_located {isPrint : Nat → Bool} (values : List Tree) (schema : Members) (pointer : Bytes) (index : Nat)
    (h : Portable isPrint (objectOf (member schema "items"))) :
    Located schema pointer (validateItems values (objectOf (member schema "items")) pointer index) := by
  cases values with
  | nil =>
    rw [validateItems.eq_def]
    exact located_ok
  | cons value rest =>
    rw [validateItems.eq_def]
    refine .seq ?_ (fun _ => validateItems_located rest schema pointer (index + 1) h)
    exact (validateInstance_located value _ _ h).lift (fun _ hp => .item index hp)
termination_by (sizeOf values, 0)

theorem validateProperties_located {isPrint : Nat → Bool} (object schema : Members) (pointer : Bytes) (names : List Bytes)
    (h : ∀ name ∈ names, name ∈ sortedKeys (objectOf (member schema "properties")) ∧
      Portable isPrint (objectOf (get (objectOf (member schema "properties")) name))) :
    Located schema pointer (validateProperties object (objectOf (member schema "properties")) pointer names) := by
  match names, h with
  | [], _ =>
    rw [validateProperties.eq_def]
    exact located_ok
  | name :: rest, h =>
    obtain ⟨hname, hportable⟩ := h name List.mem_cons_self
    rw [validateProperties.eq_def]
    dsimp only
    split
    · exact Located.lift (located_error (by decide)) (fun _ hp => .property name hname hp)
    · next value hget =>
      refine .seq ?_ (fun _ => validateProperties_located object schema pointer rest
        (fun name' hname' => h name' (List.mem_cons_of_mem _ hname')))
      exact (validateInstance_located value _ _ hportable).lift (fun _ hp => .property name hname hp)
termination_by (sizeOf object, names.length)
decreasing_by
  · exact Prod.Lex.left _ _ (sizeOf_mem (mem_of_get ‹_›))
  · exact Prod.Lex.right _ (Nat.lt_succ_self _)

end

/-- **An answer breaks its schema at a location of the schema.** -/
theorem PortableSchema.located {isPrint : Nat → Bool} (schema : PortableSchema isPrint) {text : Bytes} :
    Located schema.members [] (validateStructuredOutputText text schema.members) := by
  unfold validateStructuredOutputText
  split
  · exact located_error (by decide)
  split
  · obtain ⟨_, -, hcheck⟩ := bind_eq_ok.1 schema.portable
    obtain ⟨_, -, hcheck⟩ := bind_eq_ok.1 hcheck
    have hportable : Portable isPrint schema.members := ⟨_, _, hcheck⟩
    exact validateInstance_located _ _ _ hportable
  · exact located_error (by decide)

/-! ## Where a credential does not occur -/

/-- The credential does not occur in a text. -/
def Hidden (credential text : Bytes) : Prop := ¬ credential <:+: text

section Hidden

variable {c : Bytes}

theorem Hidden.left {a b : Bytes} (h : Hidden c (a ++ b)) : Hidden c a := fun ha => h (List.infix_append_of_infix_left ha)

/-- **Between two texts that a space parts, nothing without a space occurs.** -/
theorem Hidden.join (hspace : 0x20 ∉ c) {a b : Bytes} (ha : Hidden c a) (hb : Hidden c b) : Hidden c (a ++ 0x20 :: b) := by
  intro h
  rcases List.infix_append_iff.1 h with h | h | ⟨l, r, hc, hl, hr⟩
  · exact ha h
  · rcases List.infix_cons_iff.1 h with h | h
    · cases hc : c with
      | nil => exact ha (hc ▸ List.nil_infix)
      | cons x rest =>
        rw [hc] at h hspace
        obtain ⟨rfl, -⟩ := List.cons_prefix_cons.1 h
        exact hspace List.mem_cons_self
    · exact hb h
  · cases r with
    | nil =>
      rw [List.append_nil] at hc
      exact ha (hc ▸ hl.isInfix)
    | cons x rest =>
      obtain ⟨rfl, -⟩ := List.cons_prefix_cons.1 hr
      exact hspace (hc ▸ List.mem_append_right _ List.mem_cons_self)

/-- A message that ends in a space, and what follows it. -/
theorem Hidden.after (hspace : 0x20 ∉ c) {a b : Bytes} (hlast : a.getLast? = some 0x20) (ha : Hidden c a) (hb : Hidden c b) :
    Hidden c (a ++ b) := by
  obtain ⟨front, rfl⟩ := List.getLast?_eq_some_iff.1 hlast
  rw [List.append_assoc]
  exact ha.left.join hspace hb

theorem Hidden.intercalate (hspace : 0x20 ∉ c) (hne : c ≠ []) : ∀ {tokens : List Bytes}, (∀ token ∈ tokens, Hidden c token) →
    Hidden c (List.intercalate [0x20] tokens)
  | [], _ => fun h => hne (List.infix_nil.1 h)
  | [token], h => by
    rw [show List.intercalate [0x20] [token] = token from by simp [List.intercalate]]
    exact h token List.mem_cons_self
  | token :: next :: rest, h => by
    have hrest : Hidden c (List.intercalate [0x20] (next :: rest)) :=
      Hidden.intercalate hspace hne (fun t ht => h t (List.mem_cons_of_mem _ ht))
    rw [show List.intercalate [0x20] (token :: next :: rest) = token ++ 0x20 :: List.intercalate [0x20] (next :: rest) from by
      simp [List.intercalate]]
    exact (h token List.mem_cons_self).join hspace hrest

theorem Hidden.appendErrorTokens (hspace : 0x20 ∉ c) (hne : c ≠ []) {message : Bytes} {tokens : List Bytes}
    (hm : Hidden c message) (ht : ∀ token ∈ tokens, Hidden c token) : Hidden c (Textgen.appendErrorTokens message tokens) := by
  unfold Textgen.appendErrorTokens
  split
  · exact hm
  · exact hm.join hspace (.intercalate hspace hne ht)

end Hidden

/-! ## The attempt -/

/-- A result that discloses nothing. -/
structure Clean (c : Bytes) (attempt : QueryAttempt) : Prop where
  message              : Hidden c attempt.failure.message
  servedModel          : Hidden c attempt.value.servedModel
  responseID           : Hidden c attempt.value.responseID
  providerFinishReason : Hidden c attempt.value.providerFinishReason
  receipt              : ∀ text ∈ receiptTexts attempt.receipt, Hidden c text

/-- An attempt with a credential, whose response so far discloses nothing. -/
structure Holds (c : Bytes) (now : Time) (schema : Option Members) (a : TextGenerationAttempt) : Prop where
  credential           : a.credential = c
  ne_nil               : c ≠ []
  spaceless            : 0x20 ∉ c
  fresh                : ∀ text, IndependentText a.query a.callID now schema text → Hidden c text
  servedModel          : Hidden c a.response.servedModel
  responseID           : Hidden c a.response.responseID
  providerFinishReason : Hidden c a.response.providerFinishReason

namespace Holds

variable {c : Bytes} {host : Host} {schema : Option Members} {a : TextGenerationAttempt} {receipt : Receipt}

section

variable (h : Holds c host.now schema a)

include h

theorem nil : Hidden c [] := fun hc => h.ne_nil (List.infix_nil.1 hc)

theorem fixed {message : String} (hm : message ∈ fixedMessages ++ reasons) : Hidden c (ascii message) := h.fresh _ (.fixed hm)

theorem hidden {value : Bytes} (hr : a.revealsCredential value = false) : Hidden c value := by
  unfold TextGenerationAttempt.revealsCredential at hr
  rw [h.credential] at hr
  have hnot : ¬ c <:+: value := by simpa [h.ne_nil] using hr
  exact hnot

theorem branch {branch kind message : Bytes} (hm : Hidden c message) (hr : ∀ text ∈ receiptTexts receipt, Hidden c text) :
    Clean c (a.branch branch kind message receipt) :=
  ⟨hm, h.servedModel, h.responseID, h.providerFinishReason, hr⟩

theorem retry {kind message : Bytes} {delay : Int} (hm : Hidden c message) : Clean c (a.retry kind message delay) := by
  refine ⟨hm, h.nil, h.nil, h.nil, fun text ht => ?_⟩
  have hempty : receiptTexts (a.retry kind message delay).receipt = [[], [], [], [], [], timeText .zero] := rfl
  rw [hempty] at ht
  by_cases htext : text = []
  · exact htext ▸ h.nil
  · have hzero : text = timeText .zero := by simpa [htext] using ht
    exact hzero ▸ h.fresh _ (.timestamp (.inr rfl))

theorem safeErrorTokens {tokens : List Bytes} : ∀ token ∈ a.safeErrorTokens tokens, Hidden c token := by
  intro token ht
  have hsafe := (List.mem_filter.1 ht).2
  rw [Bool.and_eq_true, Bool.not_eq_true'] at hsafe
  exact h.hidden hsafe.2

theorem copyRateLimit {header : Bytes → Bytes} {name : Bytes} (hname : name ∈ a.query.wireFormat.rateLimitHeaders)
    (hr : ∀ text ∈ receiptTexts receipt, Hidden c text) : ∀ text ∈ receiptTexts (a.copyRateLimit header receipt name), Hidden c text := by
  unfold TextGenerationAttempt.copyRateLimit
  split
  · next hlimit =>
    have hvalue : Hidden c (trimSpace (header name)) := by
      unfold TextGenerationAttempt.isRateLimit at hlimit
      rw [Bool.and_eq_true, Bool.not_eq_true'] at hlimit
      exact h.hidden hlimit.2
    intro text ht
    rcases List.mem_append.1 ht with ht | ht
    · exact hr text (List.mem_append_left _ ht)
    · obtain ⟨m, hm, htext⟩ := List.mem_flatMap.1 ht
      rcases List.mem_cons.1 hm with rfl | hm
      · rcases List.mem_pair.1 htext with rfl | rfl
        · exact h.fresh _ (.header hname)
        · exact hvalue
      · exact hr text (List.mem_append_right _ (List.mem_flatMap.2 ⟨m, List.mem_of_mem_filter hm, htext⟩))
  · exact hr

theorem receipt_texts {header : Bytes → Bytes} : ∀ text ∈ receiptTexts (a.receipt host header), Hidden c text := by
  have hrequestID : Hidden c (((a.query.wireFormat.requestIDHeaders.map (fun name => trimSpace (header name))).find?
      a.isRequestID).getD []) := by
    cases hfind : (a.query.wireFormat.requestIDHeaders.map (fun name => trimSpace (header name))).find? a.isRequestID with
    | none => exact h.nil
    | some value =>
      have hvalue := List.find?_some hfind
      unfold TextGenerationAttempt.isRequestID at hvalue
      rw [Bool.and_eq_true, Bool.not_eq_true'] at hvalue
      exact h.hidden hvalue.2
  have hloop : ∀ (names : List Bytes) (receipt : Receipt), (∀ name ∈ names, name ∈ a.query.wireFormat.rateLimitHeaders) →
      (∀ text ∈ receiptTexts receipt, Hidden c text) →
      ∀ text ∈ receiptTexts (names.foldl (a.copyRateLimit header) receipt), Hidden c text := by
    intro names
    induction names with
    | nil => exact fun receipt _ hr => hr
    | cons name rest ih =>
      intro receipt hnames hr
      exact ih _ (fun n hn => hnames n (List.mem_cons_of_mem _ hn)) (h.copyRateLimit (hnames name List.mem_cons_self) hr)
  refine hloop _ _ (fun _ hn => hn) (fun text ht => ?_)
  simp only [receiptTexts, List.flatMap_nil, List.append_nil, List.mem_cons, List.not_mem_nil, or_false] at ht
  rcases ht with rfl | rfl | rfl | rfl | rfl | rfl
  · exact h.fresh _ .callID
  · exact h.nil
  · exact h.fresh _ .provider
  · exact h.nil
  · exact hrequestID
  · exact h.fresh _ (.timestamp (.inl rfl))

/-! ### Failures -/

variable (hr : ∀ text ∈ receiptTexts receipt, Hidden c text)

include hr

theorem errorOutcome {outcome : ErrorOutcome} {message : Bytes} {delay : Int} (hm : Hidden c message) :
    Clean c (a.errorOutcome outcome message delay receipt) := by
  unfold TextGenerationAttempt.errorOutcome
  cases outcome.disposition with
  | retry => exact h.retry hm
  | invalidResponse | providerRejected => exact h.branch hm hr
  | blocked => exact ⟨hm, h.servedModel, h.responseID, h.providerFinishReason, hr⟩

theorem classifyErrorStatus {response : Response} : Clean c (a.classifyErrorStatus host response receipt) := by
  refine h.errorOutcome hr (.appendErrorTokens h.spaceless h.ne_nil ?_ h.safeErrorTokens)
  exact .after h.spaceless (by decide) (h.fixed (by decide)) (h.fresh _ (.status _))

theorem classifyReportedError {tokens : List Bytes} : Clean c (a.classifyReportedError tokens receipt) :=
  h.errorOutcome hr (.appendErrorTokens h.spaceless h.ne_nil (h.fixed (by decide)) h.safeErrorTokens)

theorem classifyDecodeFailure {err : DecodeError} {isEventStream isStalled : Bool} :
    Clean c (a.classifyDecodeFailure err isEventStream isStalled receipt) := by
  unfold TextGenerationAttempt.classifyDecodeFailure
  cases err.reported with
  | some tokens => exact h.classifyReportedError hr
  | none =>
    dsimp only
    split
    · exact h.retry (h.fixed (by decide))
    split
    · exact h.retry (h.fixed (by decide))
    split
    · exact h.branch (h.fixed (by decide)) hr
    split
    · exact h.retry (h.fixed (by decide))
    · exact h.branch (h.fixed (by decide)) hr

/-! ### Responses -/

theorem textBranch {branch text : Bytes} {isStreaming : Bool} {failure : Option Failure}
    (hm : Hidden c (failure.getD ⟨[], [], [], []⟩).message) : Clean c (a.textBranch branch text isStreaming failure receipt) := by
  unfold TextGenerationAttempt.textBranch
  split
  · exact h.retry (h.fixed (by decide))
  · exact ⟨hm, h.servedModel, h.responseID, h.providerFinishReason, hr⟩

omit hr in
/-- **The message of an answer that breaks its schema.** -/
theorem schemaError {s : Members} (hs : schema = some s) {err : SchemaLocationError}
    (hlocated : (∃ p, err.pointer = [] ++ p ∧ SchemaPointer s p) ∧ ∃ reason ∈ reasons, err.reason = ascii reason) :
    Hidden c (ascii "structured output does not match its schema " ++ err.error) := by
  obtain ⟨⟨p, hp, hpointer⟩, reason, hreason, hr⟩ := hlocated
  have hlocation : Hidden c ((if err.pointer = [] then ascii "the root" else err.pointer) ++ ascii ":") := by
    split
    · have hroot : Hidden c (ascii "the root: ") := h.fixed (by decide)
      exact (show Hidden c (ascii "the root:" ++ [0x20]) from hroot).left
    · rw [hp, List.nil_append]
      exact h.fresh _ (.pointer hs hpointer)
  have hrest : Hidden c (((if err.pointer = [] then ascii "the root" else err.pointer) ++ ascii ":") ++ 0x20 :: err.reason) :=
    hlocation.join h.spaceless (hr ▸ h.fixed (List.mem_append_right _ hreason))
  have hmessage := Hidden.after (a := ascii "structured output does not match its schema at ") h.spaceless (by decide)
    (h.fixed (by decide)) hrest
  have hsame : ascii "structured output does not match its schema " ++ err.error =
      ascii "structured output does not match its schema at " ++
        (((if err.pointer = [] then ascii "the root" else err.pointer) ++ ascii ":") ++ 0x20 :: err.reason) := by
    unfold SchemaLocationError.error
    rw [show ascii "structured output does not match its schema at " = ascii "structured output does not match its schema " ++
      ascii "at " from by decide, show ascii ": " = ascii ":" ++ [0x20] from by decide]
    simp only [List.append_assoc, List.cons_append, List.nil_append]
  rw [hsame]
  exact hmessage

theorem finish {isPrint : Nat → Bool} {portable : Option (PortableSchema isPrint)} (hs : schema = portable.map (·.members))
    {reason : FinishReason} {text : Bytes} {isStreaming : Bool} : Clean c (a.finish reason text schema isStreaming receipt) := by
  unfold TextGenerationAttempt.finish
  cases reason with
  | stop =>
    dsimp only
    split
    · exact h.branch (h.fixed (by decide)) hr
    cases portable with
    | none =>
      subst hs
      exact h.textBranch hr h.nil
    | some p =>
      subst hs
      dsimp only [Option.map_some]
      cases hanswer : extractStructuredAnswer p.members text with
      | ok answer => exact h.textBranch hr h.nil
      | error err =>
        refine h.branch (h.schemaError rfl ?_) hr
        rcases bind_eq_error.1 hanswer with hvalid | ⟨_, -, hok⟩
        · exact p.located err hvalid
        · cases hok
  | length => exact h.textBranch hr (h.fixed (by decide))
  | refusal => exact h.branch (h.fixed (by decide)) hr
  | contentPolicy => exact h.branch (h.fixed (by decide)) hr

theorem completeFinish {isPrint : Nat → Bool} {portable : Option (PortableSchema isPrint)} (hs : schema = portable.map (·.members))
    {decoded : DecodedResponse} {isStreaming : Bool} : Clean c (a.completeFinish decoded schema isStreaming receipt) := by
  unfold TextGenerationAttempt.completeFinish
  split
  · exact h.branch (h.fixed (by decide)) hr
  next hreveals =>
  have htoken : Hidden c (TextGenerationAttempt.finishToken decoded) := by
    unfold TextGenerationAttempt.finishToken
    split
    · exact h.hidden (by simpa using hreveals)
    · exact h.nil
  have hb : Holds c host.now schema { a with response := { a.response with providerFinishReason := TextGenerationAttempt.finishToken decoded } } :=
    { h with providerFinishReason := htoken }
  dsimp only
  split
  · exact Holds.finish (a := { a with response := { a.response with
      providerFinishReason := TextGenerationAttempt.finishToken decoded, finishReason := some .refusal } }) { hb with } hr hs
  split
  · exact hb.branch (h.fixed (by decide)) hr
  split
  · exact hb.branch (.after h.spaceless (by decide) (h.fixed (by decide)) htoken) hr
  · next reason _ =>
    exact Holds.finish (a := { a with response := { a.response with
      providerFinishReason := TextGenerationAttempt.finishToken decoded, finishReason := some reason } }) { hb with } hr hs

theorem completeResponse {isPrint : Nat → Bool} {portable : Option (PortableSchema isPrint)}
    (hs : schema = portable.map (·.members)) {decoded : DecodedResponse} {isStreaming : Bool} :
    Clean c (a.completeResponse decoded schema isStreaming receipt) := by
  unfold TextGenerationAttempt.completeResponse
  split
  · exact h.branch (h.fixed (by decide)) hr
  next hidentity =>
  simp only [TextGenerationAttempt.isIdentity, Bool.not_eq_true', Bool.not_eq_false, Bool.and_eq_true] at hidentity
  have hmodel := h.hidden hidentity.1.2
  have hid := h.hidden hidentity.2.2
  have hb : Holds c host.now schema { a with
      response := { a.response with servedModel := decoded.servedModel, responseID := decoded.responseID } } :=
    { h with servedModel := hmodel, responseID := hid }
  have hr' : ∀ text ∈ receiptTexts { receipt with providerObjectID := decoded.responseID }, Hidden c text := by
    intro text ht
    by_cases htext : text = decoded.responseID
    · exact htext ▸ hid
    · refine hr text ?_
      simp only [receiptTexts, List.mem_append, List.mem_cons, htext, false_or] at ht ⊢
      tauto
  dsimp only
  cases husage : completeUsage decoded.usage with
  | error message =>
    have hmessage : message = ascii "provider reported negative token usage" := by
      unfold completeUsage at husage
      split at husage
      · cases husage
        rfl
      · split at husage <;> cases husage
    exact hb.branch (hmessage ▸ h.fixed (by decide)) hr'
  | ok usage =>
    exact Holds.completeFinish (a := { a with response := { a.response with
      servedModel := decoded.servedModel, responseID := decoded.responseID, usage := usage } }) { hb with } hr' hs

theorem complete {isPrint : Nat → Bool} {portable : Option (PortableSchema isPrint)} (hs : schema = portable.map (·.members))
    {decoded : Except DecodeError DecodedResponse} {isEventStream isStalled : Bool} :
    Clean c (a.complete decoded schema isEventStream isStalled receipt) := by
  cases decoded with
  | error err => exact h.classifyDecodeFailure hr
  | ok decoded => exact h.completeResponse hr hs

omit hr in
/-- **The run of an attempt.** -/
theorem run {isPrint : Nat → Bool} {portable : Option (PortableSchema isPrint)} (hs : schema = portable.map (·.members))
    {ex : Exchange} {isStreaming : Bool} : Clean c (a.run host ex isStreaming schema) := by
  unfold TextGenerationAttempt.run
  split
  · refine ⟨h.fixed (by decide), h.servedModel, h.responseID, h.providerFinishReason, fun text ht => ?_⟩
    have htexts : receiptTexts { Receipt.empty with provider := a.query.wireFormat.providerName } =
      [[], [], a.query.wireFormat.providerName, [], [], timeText .zero] := rfl
    have ht' : text ∈ [[], [], a.query.wireFormat.providerName, [], [], timeText .zero] := htexts ▸ ht
    simp only [List.mem_cons, List.not_mem_nil, or_false] at ht'
    rcases ht' with rfl | rfl | rfl | rfl | rfl | rfl
    · exact h.nil
    · exact h.nil
    · exact h.fresh _ .provider
    · exact h.nil
    · exact h.nil
    · exact h.fresh _ (.timestamp (.inr rfl))
  cases ex with
  | failed isStalled =>
    dsimp only [TextGenerationAttempt.exchange]
    split
    · exact h.retry (h.fixed (by decide))
    · exact h.retry (h.fixed (by decide))
  | responded response isStalled =>
    dsimp only [TextGenerationAttempt.exchange]
    split
    · exact h.classifyErrorStatus h.receipt_texts
    · unfold TextGenerationAttempt.decode
      split
      · exact h.complete h.receipt_texts hs
      · exact h.complete h.receipt_texts hs
      · exact h.branch (h.fixed (by decide)) h.receipt_texts

end

end Holds

/-- **No answer of the provider makes an attempt disclose its credential.** -/
theorem credential_not_disclosed {isPrint : Nat → Bool} (query : Query) (callID requestedModel credential : Bytes)
    (hasTextStream : Bool) (writeText : Bytes → Bool) (host : Host) (ex : Exchange) (isStreaming : Bool)
    (schema : Option (PortableSchema isPrint)) (hsafe : isHeaderSafeCredential credential = true)
    (hfresh : ∀ text, IndependentText query callID host.now (schema.map (·.members)) text → ¬ credential <:+: text) :
    ∀ text ∈ disclosed ((TextGenerationAttempt.prepared query callID hasTextStream writeText requestedModel credential).run host ex
      isStreaming (schema.map (·.members))), ¬ credential <:+: text := by
  obtain ⟨hne, hbytes⟩ := Bool.and_eq_true_iff.1 hsafe
  have hne' : credential ≠ [] := by simpa using hne
  have hspace : 0x20 ∉ credential := fun hmem => absurd (List.all_eq_true.1 hbytes 0x20 hmem) (by decide)
  have hnil : Hidden credential [] := fun hc => hne' (List.infix_nil.1 hc)
  have h : Holds credential host.now (schema.map (·.members))
      (TextGenerationAttempt.prepared query callID hasTextStream writeText requestedModel credential) :=
    ⟨rfl, hne', hspace, hfresh, hnil, hnil, hnil⟩
  have hclean : Clean credential ((TextGenerationAttempt.prepared query callID hasTextStream writeText requestedModel
      credential).run host ex isStreaming (schema.map (·.members))) := h.run rfl
  intro text ht
  rcases List.mem_append.1 ht with ht | ht
  · simp only [List.mem_cons, List.not_mem_nil, or_false] at ht
    rcases ht with rfl | rfl | rfl | rfl
    · exact hclean.message
    · exact hclean.servedModel
    · exact hclean.responseID
    · exact hclean.providerFinishReason
  · exact hclean.receipt text ht

/-! ### An answer that echoes the credential -/

def sampleQuery : Query :=
  ⟨⟨ascii "deepseek", some (fun _ => .ok ⟨[], [], [], [], false, .zero⟩), none, [], [],
    [ascii "/error/type", ascii "/error/code"], none, [ascii "x-request-id"], [ascii "X-RateLimit"]⟩, ascii "generateText", 1024⟩

def sampleCredential : Bytes := ascii "sk-live"

def sampleHost : Host := ⟨.zero, fun _ => none, fun _ => none⟩

/-- The provider repeats the credential in its error body and in its request id. -/
def sampleExchange : Exchange :=
  .responded ⟨401, fun _ => sampleCredential,
    ⟨ascii "\x7b\"error\": \x7b\"type\": \"invalid_key\", \"code\": \"key:sk-live\"\x7d\x7d", false⟩⟩ false

theorem credential_not_disclosed_echoed :
    let attempt := (TextGenerationAttempt.prepared sampleQuery (ascii "call") false (fun _ => true) (ascii "m")
      sampleCredential).run sampleHost sampleExchange false none
    attempt.failure.message = ascii "provider returned HTTP 401 invalid_key" ∧
      ∀ text ∈ disclosed attempt, ¬ sampleCredential <:+: text := by
  refine ⟨by decide +kernel, ?_⟩
  refine credential_not_disclosed sampleQuery _ _ sampleCredential _ _ sampleHost sampleExchange false
    (none : Option (PortableSchema fun _ => true)) (by decide) (fun text ht => ?_)
  cases ht with
  | fixed h => exact (show ∀ message ∈ fixedMessages ++ reasons, ¬ sampleCredential <:+: ascii message from by decide +kernel) _ h
  | status n =>
    intro h
    have hs : (0x73 : UInt8) ∈ formatInt n := h.subset (by decide)
    unfold formatInt at hs
    have hdigits : (0x73 : UInt8) ∉ formatNat n.natAbs := fun hmem =>
      absurd (List.all_eq_true.1 (isDigit_formatNat n.natAbs) _ hmem) (by decide)
    split at hs
    · rcases List.mem_cons.1 hs with hs | hs
      · cases hs
      · exact hdigits hs
    · exact hdigits hs
  | callID => decide
  | timestamp h => rcases h with rfl | rfl <;> decide +kernel
  | header h => exact (show ∀ name ∈ sampleQuery.wireFormat.rateLimitHeaders, ¬ sampleCredential <:+: lowerName name from by decide) _ h
  | provider => decide
  | pointer hs h => cases hs

end Textgen
end Dex
