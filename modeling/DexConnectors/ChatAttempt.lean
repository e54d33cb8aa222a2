import DexConnectors.ChatStream
import DexConnectors.EventStreamFrames
/-!
# ChatAttempt — attempts on a streamed completion

An attempt that asked for a stream ends the same way whether the provider streams a completion or ignores that and sends it
whole (`streamed_attempt`), and the text of its branch is the text that its text stream took (`text_delivered`).
-/
namespace Dex
namespace Textgen
namespace TextGenerationAttempt

open Lib Lib.Utf8 Lib.Json
open Operation (Failure Receipt)

/-! ## A text stream that takes everything -/

variable {a : TextGenerationAttempt}

/-- Its text stream takes every delta. -/
def TakesText (a : TextGenerationAttempt) : Prop := ∀ text, a.writeTextDelta text = true

theorem TakesText.textBranch (h : a.TakesText) (branch text : Bytes) (isStreaming : Bool) (failure : Option Failure)
    (receipt : Receipt) :
    a.textBranch branch text isStreaming failure receipt = newQueryBranch branch { a.response with text := text } failure receipt := by
  unfold TextGenerationAttempt.textBranch
  rw [if_neg (by rw [h text, Bool.not_true, Bool.and_false]; exact Bool.false_ne_true)]

theorem TakesText.finish (h : a.TakesText) (reason : FinishReason) (text : Bytes) (schema : Option Members) (isStreaming : Bool)
    (receipt : Receipt) : a.finish reason text schema isStreaming receipt = a.finish reason text schema false receipt := by
  unfold TextGenerationAttempt.finish
  cases reason with
  | stop => cases schema <;> simp only [h.textBranch]
  | length => simp only [h.textBranch]
  | refusal => rfl
  | contentPolicy => rfl

theorem TakesText.completeFinish (h : a.TakesText) (decoded : DecodedResponse) (schema : Option Members) (isStreaming : Bool)
    (receipt : Receipt) : a.completeFinish decoded schema isStreaming receipt = a.completeFinish decoded schema false receipt := by
  have hsame : ∀ response : TextGenerationResponse, TakesText { a with response := response } := fun _ => h
  unfold TextGenerationAttempt.completeFinish
  dsimp only
  simp only [(hsame _).finish _ _ _ isStreaming]

/-- What a text stream that takes everything is given does not change how the attempt ends. -/
theorem TakesText.completeResponse (h : a.TakesText) (decoded : DecodedResponse) (schema : Option Members) (isStreaming : Bool)
    (receipt : Receipt) :
    a.completeResponse decoded schema isStreaming receipt = a.completeResponse decoded schema false receipt := by
  have hsame : ∀ response : TextGenerationResponse, TakesText { a with response := response } := fun _ => h
  unfold TextGenerationAttempt.completeResponse
  dsimp only
  simp only [(hsame _).completeFinish _ _ isStreaming]

/-! ## Branches with text -/

/-- The attempt ended in a branch that carries the model's text. -/
def HasText (attempt : QueryAttempt) : Prop := attempt.branch = generatedBranchID ∨ attempt.branch = truncatedBranchID

theorem not_hasText_retry (kind message : Bytes) (delay : Int) : ¬HasText (a.retry kind message delay) :=
  show ¬(([] : Bytes) = generatedBranchID ∨ ([] : Bytes) = truncatedBranchID) by decide

theorem not_hasText_invalidResponse (kind message : Bytes) (receipt : Receipt) :
    ¬HasText (a.branch invalidResponseBranchID kind message receipt) :=
  show ¬(invalidResponseBranchID = generatedBranchID ∨ invalidResponseBranchID = truncatedBranchID) by decide

theorem not_hasText_blocked (kind message : Bytes) (receipt : Receipt) : ¬HasText (a.branch blockedBranchID kind message receipt) :=
  show ¬(blockedBranchID = generatedBranchID ∨ blockedBranchID = truncatedBranchID) by decide

theorem not_hasText_providerRejected (kind message : Bytes) (receipt : Receipt) :
    ¬HasText (a.branch providerRejectedBranchID kind message receipt) :=
  show ¬(providerRejectedBranchID = generatedBranchID ∨ providerRejectedBranchID = truncatedBranchID) by decide

theorem not_hasText_errorOutcome (outcome : ErrorOutcome) (message : Bytes) (delay : Int) (receipt : Receipt) :
    ¬HasText (a.errorOutcome outcome message delay receipt) := by
  unfold TextGenerationAttempt.errorOutcome
  cases outcome.disposition with
  | retry => exact not_hasText_retry _ _ _
  | providerRejected => exact not_hasText_providerRejected _ _ _
  | invalidResponse => exact not_hasText_invalidResponse _ _ _
  | blocked => exact not_hasText_blocked _ _ _

theorem not_hasText_classifyDecodeFailure (err : DecodeError) (isEventStream isStalled : Bool) (receipt : Receipt) :
    ¬HasText (a.classifyDecodeFailure err isEventStream isStalled receipt) := by
  unfold TextGenerationAttempt.classifyDecodeFailure TextGenerationAttempt.classifyReportedError stalled
  split
  · exact not_hasText_errorOutcome _ _ _ _
  repeat' split
  all_goals first
    | exact not_hasText_retry _ _ _
    | exact not_hasText_invalidResponse _ _ _

/-- What is known of an attempt that ends with text: it is the given text, unless that is structured, and without streaming the
text stream has taken it. -/
def Delivers (a : TextGenerationAttempt) (text : Bytes) (isStructured isStreaming : Bool) (attempt : QueryAttempt) : Prop :=
  HasText attempt → (isStructured = false → attempt.value.text = text) ∧
    (isStreaming = false → a.writeTextDelta attempt.value.text = true)

theorem delivers_of_not {text : Bytes} {isStructured isStreaming : Bool} {attempt : QueryAttempt} (h : ¬HasText attempt) :
    a.Delivers text isStructured isStreaming attempt := fun hbranch => absurd hbranch h

theorem delivers_textBranch (branch answer text : Bytes) (isStructured isStreaming : Bool) (failure : Option Failure)
    (receipt : Receipt) (h : isStructured = false → answer = text) :
    a.Delivers text isStructured isStreaming (a.textBranch branch answer isStreaming failure receipt) := by
  unfold TextGenerationAttempt.textBranch
  split
  · exact delivers_of_not (not_hasText_retry _ _ _)
  · rename_i hwrite
    refine fun _ => ⟨h, fun hstreaming => ?_⟩
    show a.writeTextDelta answer = true
    unfold TextGenerationAttempt.writeTextDelta at hwrite ⊢
    subst hstreaming
    cases hempty : answer == [] with
    | true => rfl
    | false =>
      cases htake : !a.hasTextStream || a.writeText answer with
      | true => rwa [Bool.false_or]
      | false =>
        rw [bne, hempty, Bool.false_or, htake] at hwrite
        exact absurd rfl hwrite

theorem delivers_finish (reason : FinishReason) (text : Bytes) (schema : Option Members) (isStreaming : Bool) (receipt : Receipt) :
    a.Delivers text schema.isSome isStreaming (a.finish reason text schema isStreaming receipt) := by
  unfold TextGenerationAttempt.finish
  cases reason with
  | stop =>
    dsimp only
    split
    · exact delivers_of_not (not_hasText_invalidResponse _ _ _)
    cases schema with
    | none => exact delivers_textBranch _ _ _ _ _ _ _ (fun _ => rfl)
    | some schema =>
      dsimp only
      cases extractStructuredAnswer schema text with
      | error err => exact delivers_of_not (not_hasText_invalidResponse _ _ _)
      | ok answer => exact delivers_textBranch _ _ _ _ _ _ _ (fun h => by cases h)
  | length => exact delivers_textBranch _ _ _ _ _ _ _ (fun _ => rfl)
  | refusal => exact delivers_of_not (not_hasText_blocked _ _ _)
  | contentPolicy => exact delivers_of_not (not_hasText_blocked _ _ _)

theorem delivers_completeFinish (decoded : DecodedResponse) (schema : Option Members) (isStreaming : Bool) (receipt : Receipt) :
    a.Delivers (textOf decoded.parts) schema.isSome isStreaming (a.completeFinish decoded schema isStreaming receipt) := by
  unfold TextGenerationAttempt.completeFinish
  split
  · exact delivers_of_not (not_hasText_invalidResponse _ _ _)
  dsimp only
  split
  · exact delivers_finish (a := { a with response := _ }) _ _ _ _ _
  split
  · exact delivers_of_not (not_hasText_invalidResponse _ _ _)
  split
  · exact delivers_of_not (not_hasText_invalidResponse _ _ _)
  · exact delivers_finish (a := { a with response := _ }) _ _ _ _ _

theorem delivers_completeResponse (decoded : DecodedResponse) (schema : Option Members) (isStreaming : Bool) (receipt : Receipt) :
    a.Delivers (textOf decoded.parts) schema.isSome isStreaming (a.completeResponse decoded schema isStreaming receipt) := by
  unfold TextGenerationAttempt.completeResponse
  split
  · exact delivers_of_not (not_hasText_invalidResponse _ _ _)
  dsimp only
  split
  · exact delivers_of_not (not_hasText_invalidResponse _ _ _)
  · exact delivers_completeFinish (a := { a with response := _ }) _ _ _ _

theorem textOf_append (a b : List ResponsePart) : textOf (a ++ b) = textOf a ++ textOf b := by
  unfold textOf
  rw [List.filter_append, List.flatMap_append]

end TextGenerationAttempt
end Textgen

namespace Chat

open Lib Lib.Utf8 Lib.Json Textgen
open TextGenerationAttempt (HasText isEventStreamMediaType)
open Operation (Receipt)
open EventStream (Limits Sent frame Sendable)

variable {u : Unmarshal} {errorTokenPointers : List Bytes} {limits : Limits} {hasReadError : Bool}

/-! ## The text stream of a stream -/

section

variable {write : List Bytes → Bytes → Bool}

theorem textOf_appendPart (parts : List ResponsePart) (part : ResponsePart) :
    TextGenerationAttempt.textOf (appendPart parts part) =
      TextGenerationAttempt.textOf parts ++ TextGenerationAttempt.textOf [part] := by
  rcases List.eq_nil_or_concat' parts with rfl | ⟨init, last, rfl⟩
  · rfl
  rw [appendPart_concat]
  split
  · rename_i hkind
    rw [TextGenerationAttempt.textOf_append, TextGenerationAttempt.textOf_append, List.append_assoc]
    congr 1
    unfold TextGenerationAttempt.textOf
    rw [beq_iff_eq] at hkind
    cases hreasoning : part.isReasoning <;> simp [hkind, hreasoning]
  · rw [TextGenerationAttempt.textOf_append]

/-- What the text stream has taken is the text of the parts. -/
def Written (parts : List ResponsePart) (written : List Bytes) : Prop := written.flatten = TextGenerationAttempt.textOf parts

theorem written_appendTexts : ∀ {texts : List Bytes} {decoded decoded' : DecodedResponse} {written written' : List Bytes},
    Written decoded.parts written → appendTexts write texts decoded written = (.ok decoded', written') →
    Written decoded'.parts written'
  | [], _, _, _, _, hwritten, h => by
    cases h
    exact hwritten
  | text :: texts, decoded, decoded', written, written', hwritten, h => by
    rw [appendTexts] at h
    split at h
    · refine written_appendTexts ?_ h
      show (written ++ [text]).flatten = _
      rw [List.flatten_append, List.flatten_singleton, hwritten, textOf_appendPart]
      simp [TextGenerationAttempt.textOf]
    · cases h

theorem written_appendDeltaParts {delta : ChatDelta} {decoded decoded' : DecodedResponse} {written written' : List Bytes}
    (hwritten : Written decoded.parts written) (h : appendDeltaParts u write decoded delta written = (.ok decoded', written')) :
    Written decoded'.parts written' := by
  unfold appendDeltaParts at h
  split at h
  · cases h
  · refine written_appendTexts ?_ h
    have hrefusal : (appendRefusal (appendReasoning decoded delta) delta).parts = (appendReasoning decoded delta).parts := by
      unfold appendRefusal
      split <;> rfl
    rw [hrefusal]
    unfold appendReasoning
    split
    · show _ = TextGenerationAttempt.textOf (appendPart decoded.parts _)
      rw [textOf_appendPart, hwritten]
      simp [TextGenerationAttempt.textOf]
    · exact hwritten

theorem written_readChunk {s s' : StreamState} {chunk : ChatCompletion} {written written' : List Bytes}
    (hwritten : Written s.decoded.parts written) (h : readChunk u write s chunk written = (.ok s', written')) :
    Written s'.decoded.parts written' := by
  unfold readChunk at h
  split at h
  · cases h
    exact hwritten
  · split at h
    · cases h
    · rename_i hdelta
      cases h
      have hidentified : Written (s.identify chunk).decoded.parts written := hwritten
      have hafter := written_appendDeltaParts hidentified hdelta
      unfold StreamState.finish
      split <;> exact hafter

/-- **The text stream takes the text of a stream**, delta by delta. -/
theorem written_decodeStream {ending : Ending} : ∀ {datas : List Bytes} {s : StreamState} {decoded : DecodedResponse}
    {written written' : List Bytes}, Written s.decoded.parts written →
    decodeStream u errorTokenPointers write ending datas s written = (.ok decoded, written') → Written decoded.parts written'
  | [], s, decoded, written, written', hwritten, h => by
    unfold decodeStream at h
    cases ending with
    | eof =>
      cases hfinished : s.hasFinished <;> rw [hfinished] at h <;> cases h
      exact hwritten
    | failed => cases h
  | data :: datas, s, decoded, written, written', hwritten, h => by
    unfold decodeStream at h
    split at h
    · cases hfinished : s.hasFinished <;> rw [hfinished] at h <;> cases h
      exact hwritten
    split at h
    · cases h
    split at h
    · cases h
    split at h
    · cases h
    · rename_i hchunk
      exact written_decodeStream (written_readChunk hwritten hchunk) h

end

/-! ## The attempts -/

/-- The wire format of a query decodes chat completions. -/
structure Decodes (u : Unmarshal) (errorTokenPointers : List Bytes) (limits : Limits) (hasReadError : Bool)
    (a : TextGenerationAttempt) : Prop where
  document : a.query.wireFormat.decodeResponse = some (documentDecoder u errorTokenPointers)
  stream   : a.query.wireFormat.decodeStream =
    some (streamDecoder u errorTokenPointers limits (fun _ text => a.writeTextDelta text) hasReadError)

def isEventStream (host : Host) (response : Response) : Bool :=
  isEventStreamMediaType host (response.header (ascii "Content-Type"))

variable {a : TextGenerationAttempt} {host : Host}

/-- An event with data on one line. -/
def dataEvent (data : Bytes) : Sent := ⟨[], data, []⟩

/-- The body of a stream. -/
def streamBody (datas : List Bytes) : Bytes := (datas.map dataEvent).flatMap frame

theorem readEvents_streamBody {datas : List Bytes} (hsendable : ∀ data ∈ datas, Sendable limits (dataEvent data))
    (htotal : (streamBody datas).length ≤ limits.maxTotalBytes) :
    EventStream.Go.readEvents limits ⟨streamBody datas, 0⟩ = (datas.map (fun data => ⟨[], data⟩), .eof) := by
  have hevents : ∀ e ∈ datas.map dataEvent, Sendable limits e := by
    intro e he
    obtain ⟨data, hdata, rfl⟩ := List.mem_map.1 he
    exact hsendable data hdata
  have hframes := EventStream.Go.eventsFrom_frames [] hevents (n := 0) (by unfold streamBody at htotal; omega)
  rw [List.append_nil, EventStream.Go.eventsFrom_nil (by unfold streamBody at htotal; omega), List.append_nil, List.map_map] at hframes
  rw [EventStream.Go.readEvents_eq]
  refine hframes.trans (congrArg (Prod.mk · _) (List.map_congr_left (fun data _ => ?_)))
  show EventStream.Event.mk [] ([0x0A].intercalate [data]) = _
  rw [List.intercalate_singleton]

/-! ### A completion in two chunks -/

def sampleDocument : Bytes := ascii "\x7b\"choices\":[\x7b\"message\":\x7b\"content\":\"Hi\"\x7d,\"finish_reason\":\"stop\"\x7d]\x7d"
def sampleFirst : Bytes := ascii "\x7b\"choices\":[\x7b\"delta\":\x7b\"content\":\"H\"\x7d\x7d]\x7d"
def sampleLast : Bytes := ascii "\x7b\"choices\":[\x7b\"delta\":\x7b\"content\":\"i\"\x7d,\"finish_reason\":\"stop\"\x7d]\x7d"

def silent : ChatDelta := ⟨[], none, none⟩

def contentOf (text : String) : ChatDelta := ⟨ascii text, none, none⟩

def sampleCompletion (choice : ChatChoice) : ChatCompletion := ⟨[], [], [choice], none, []⟩

def sampleWhole : ChatCompletion := sampleCompletion ⟨0, contentOf "\"Hi\"", silent, some (ascii "stop")⟩

def sampleChunks : List ChatCompletion :=
  [sampleCompletion ⟨0, silent, contentOf "\"H\"", none⟩, sampleCompletion ⟨0, silent, contentOf "\"i\"", some (ascii "stop")⟩]

/-- `json.Unmarshal` of the texts of the sample. -/
def sampleUnmarshal : Unmarshal where
  completion := fun text => [sampleDocument, sampleFirst, sampleLast].zip (sampleWhole :: sampleChunks) |>.lookup text
  text := fun text => [(ascii "\"Hi\"", ascii "Hi"), (ascii "\"H\"", ascii "H"), (ascii "\"i\"", ascii "i")].lookup text
  parts := fun _ => none

def sampleWireFormat : WireFormat :=
  ⟨ascii "openai", some (documentDecoder sampleUnmarshal []),
    some (streamDecoder sampleUnmarshal [] ⟨4096, 1024⟩ (fun _ text => text == [] || !true || true) false),
    [(ascii "stop", .stop)], [], [], none, [], []⟩

def sampleAttempt : TextGenerationAttempt :=
  ⟨⟨sampleWireFormat, ascii "generateText", 4096⟩, [], true, fun _ => true, .empty, []⟩

def sampleHost : Host := ⟨.zero, some, fun _ => none⟩

def sampleResponse : Response := ⟨200, fun _ => ascii "application/json", ⟨sampleDocument, false⟩⟩

def sampleStreamed : Response :=
  ⟨200, fun _ => ascii "text/event-stream", ⟨streamBody ([sampleFirst, sampleLast] ++ [ascii "[DONE]"]), false⟩⟩

theorem sample_decodes : Decodes sampleUnmarshal [] ⟨4096, 1024⟩ false sampleAttempt := ⟨rfl, rfl⟩

set_option maxRecDepth 4000 in
theorem sample_sendable : ∀ data ∈ [sampleFirst, sampleLast] ++ [ascii "[DONE]"],
    Sendable ⟨4096, 1024⟩ (dataEvent data) := by
  intro data hdata
  rcases List.mem_cons.1 hdata with rfl | hdata
  · exact ⟨by decide, by decide, by decide⟩
  rcases List.mem_cons.1 hdata with rfl | hdata
  · exact ⟨by decide, by decide, by decide⟩
  · rw [List.mem_singleton.1 hdata]
    exact ⟨by decide, by decide, by decide⟩

/-! ### In general -/

theorem mapError_ok {E F A : Type} {x : Except E A} {f : E → F} {value : A} (h : x.mapError f = .ok value) : x = .ok value := by
  cases x with
  | error err => cases h
  | ok v =>
    cases h
    rfl

/-- **The text of a branch is the text that the text stream took**: the deltas of a stream, unless the answer is structured, and
else the whole text. -/
theorem text_delivered (hdecodes : Decodes u errorTokenPointers limits hasReadError a) (response : Response)
    (isStalled isStreaming : Bool) (schema : Option Members) (receipt : Receipt)
    (htext : HasText (a.decode host response isStalled isStreaming schema receipt)) :
    ((isStreaming && isEventStream host response) = true → schema = none →
        (a.decode host response isStalled isStreaming schema receipt).value.text =
          (decodeEvents u errorTokenPointers limits (fun _ text => a.writeTextDelta text) response.body).2.flatten) ∧
      ((isStreaming && isEventStream host response) = false →
        a.writeTextDelta (a.decode host response isStalled isStreaming schema receipt).value.text = true) := by
  revert htext
  unfold TextGenerationAttempt.decode
  rw [hdecodes.document, hdecodes.stream]
  unfold isEventStream
  cases hform : isStreaming && isEventStreamMediaType host (response.header (ascii "Content-Type")) with
  | true =>
    dsimp only
    intro htext
    refine ⟨fun _ hschema => ?_, fun h => (by cases h)⟩
    unfold TextGenerationAttempt.complete at htext ⊢
    cases hdecoded : streamDecoder u errorTokenPointers limits (fun _ text => a.writeTextDelta text) hasReadError response.body with
    | error err =>
      rw [hdecoded] at htext
      exact absurd htext (TextGenerationAttempt.not_hasText_classifyDecodeFailure _ _ _ _)
    | ok decoded =>
      rw [hdecoded] at htext
      have hwritten : Written decoded.parts
          (decodeEvents u errorTokenPointers limits (fun _ text => a.writeTextDelta text) response.body).2 := by
        have hstream := mapError_ok hdecoded
        unfold decodeEvents at hstream ⊢
        have hinitial : Written StreamState.initial.decoded.parts [] := rfl
        exact written_decodeStream hinitial (Prod.ext hstream rfl)
      rw [hwritten]
      exact (TextGenerationAttempt.delivers_completeResponse decoded schema true receipt htext).1 (by rw [hschema]; rfl)
  | false =>
    dsimp only
    intro htext
    refine ⟨fun h => (by cases h), fun _ => ?_⟩
    unfold TextGenerationAttempt.complete at htext ⊢
    cases hdecoded : a.decodeBody (documentDecoder u errorTokenPointers) response.body with
    | error err =>
      rw [hdecoded] at htext
      exact absurd htext (TextGenerationAttempt.not_hasText_classifyDecodeFailure _ _ _ _)
    | ok decoded =>
      rw [hdecoded] at htext
      exact (TextGenerationAttempt.delivers_completeResponse decoded schema false receipt htext).2 rfl

set_option maxRecDepth 4000 in
theorem sample_decoded :
    streamDecoder sampleUnmarshal [] ⟨4096, 1024⟩ (fun _ text => sampleAttempt.writeTextDelta text) false sampleStreamed.body =
      .ok ⟨[⟨ascii "Hi", false⟩], [], [], ascii "stop", false, .zero⟩ := by
  have hbody : sampleStreamed.body.contents = streamBody ([sampleFirst, sampleLast] ++ [ascii "[DONE]"]) := rfl
  unfold streamDecoder decodeEvents
  rw [hbody, readEvents_streamBody sample_sendable (by decide)]
  rfl

theorem text_delivered_sample :
    ((true && isEventStream sampleHost sampleStreamed) = true → (none : Option Members) = none →
        (sampleAttempt.decode sampleHost sampleStreamed false true none .empty).value.text =
          (decodeEvents sampleUnmarshal [] ⟨4096, 1024⟩ (fun _ text => sampleAttempt.writeTextDelta text)
            sampleStreamed.body).2.flatten) ∧
      ((true && isEventStream sampleHost sampleStreamed) = false →
        sampleAttempt.writeTextDelta (sampleAttempt.decode sampleHost sampleStreamed false true none .empty).value.text = true) := by
  refine text_delivered sample_decodes sampleStreamed false true none .empty ?_
  have hform : isEventStreamMediaType sampleHost (sampleStreamed.header (ascii "Content-Type")) = true := by decide
  unfold TextGenerationAttempt.decode
  rw [sample_decodes.stream, sample_decodes.document, hform, Bool.and_true]
  dsimp only
  rw [sample_decoded]
  exact .inl rfl

theorem receipt_congr {header header' : Bytes → Bytes}
    (h : ∀ name ∈ a.query.wireFormat.requestIDHeaders ++ a.query.wireFormat.rateLimitHeaders, header name = header' name) :
    a.receipt host header = a.receipt host header' := by
  have hids : a.query.wireFormat.requestIDHeaders.map (fun name => trimSpace (header name)) =
      a.query.wireFormat.requestIDHeaders.map (fun name => trimSpace (header' name)) :=
    List.map_congr_left (fun name hname => by rw [h name (List.mem_append_left _ hname)])
  unfold TextGenerationAttempt.receipt
  dsimp only
  rw [hids]
  refine List.foldl_ext _ _ _ (fun receipt name hname => ?_)
  unfold TextGenerationAttempt.copyRateLimit
  rw [h name (List.mem_append_right _ hname)]

/-- **An attempt that asked for a stream ends the same way** on a completion that is streamed, in whatever deltas, and on the
same completion sent whole. -/
theorem streamed_attempt (hdecodes : Decodes u errorTokenPointers limits hasReadError a) (htakes : a.TakesText)
    {chunks : List ChatCompletion} {whole : ChatCompletion} (hspells : Spells u chunks whole)
    {document : Bytes} (hwhole : u.completion document = some whole) {datas : List Bytes}
    (hdatas : datas.map u.completion = chunks.map some) (hdone : ∀ data ∈ datas, trimSpace data ≠ ascii "[DONE]")
    {done : List Bytes} (hend : done = [] ∨ done = [ascii "[DONE]"]) {response streamed : Response}
    (hbody : response.body = ⟨document, false⟩) (hsize : document.length ≤ a.query.maxResponseBytes)
    (hstreamed : streamed.body = ⟨streamBody (datas ++ done), false⟩)
    (hsendable : ∀ data ∈ datas ++ done, Sendable limits (dataEvent data))
    (htotal : (streamBody (datas ++ done)).length ≤ limits.maxTotalBytes)
    (hform : isEventStream host response = false) (hstreamForm : isEventStream host streamed = true)
    (hstatus : 200 ≤ response.statusCode ∧ response.statusCode ≤ 299)
    (hstreamStatus : 200 ≤ streamed.statusCode ∧ streamed.statusCode ≤ 299)
    (hheaders : ∀ name ∈ a.query.wireFormat.requestIDHeaders ++ a.query.wireFormat.rateLimitHeaders,
      streamed.header name = response.header name) (isStalled : Bool) (schema : Option Members) :
    a.run host (.responded streamed isStalled) true schema = a.run host (.responded response isStalled) true schema := by
  have hending : done = [] ∧ readEnding false .eof = .eof ∨ done = [ascii "[DONE]"] := hend.imp_left (fun h => ⟨h, rfl⟩)
  obtain ⟨decoded, hstream, hdocument⟩ := hspells.same errorTokenPointers (readEnding false .eof)
    (fun _ text => htakes text) hwhole hdatas hdone hending
  have hstreamDecoded : streamDecoder u errorTokenPointers limits (fun _ text => a.writeTextDelta text) hasReadError streamed.body =
      .ok decoded := by
    unfold streamDecoder decodeEvents
    rw [hstreamed, readEvents_streamBody hsendable htotal]
    dsimp only
    have hdata : (datas ++ done).map (EventStream.Event.data ∘ fun data => ⟨[], data⟩) = datas ++ done := List.map_id' _
    rw [List.map_map, hdata, hstream]
    rfl
  have hdocumentDecoded : a.decodeBody (documentDecoder u errorTokenPointers) response.body = .ok decoded := by
    have hread : readBoundedBody ⟨document, false⟩ a.query.maxResponseBytes = .ok document := by
      unfold readBoundedBody Body.readUpTo
      rw [Bool.false_and, if_neg Bool.false_ne_true, List.take_of_length_le (show document.length ≤ _ by omega)]
      exact if_neg (Nat.not_lt.2 hsize)
    unfold TextGenerationAttempt.decodeBody documentDecoder
    rw [hbody, hread]
    dsimp only
    rw [hdocument]
    rfl
  have hresponded : ∀ r : Response, 200 ≤ r.statusCode ∧ r.statusCode ≤ 299 →
      a.run host (.responded r isStalled) true schema =
        a.decode host r isStalled true schema (a.receipt host r.header) := by
    intro r hr
    unfold TextGenerationAttempt.run
    rw [hdecodes.stream, hdecodes.document]
    have hrange : ¬(r.statusCode < 200 ∨ 299 < r.statusCode) := by omega
    exact if_neg hrange
  have hreceipt : a.receipt host streamed.header = a.receipt host response.header := receipt_congr hheaders
  rw [hresponded streamed hstreamStatus, hresponded response hstatus, hreceipt]
  unfold isEventStream at hform hstreamForm
  unfold TextGenerationAttempt.decode
  rw [hdecodes.stream, hdecodes.document, hform, hstreamForm]
  rw [Bool.and_true, Bool.and_false]
  dsimp only
  rw [hstreamDecoded, hdocumentDecoded]
  exact htakes.completeResponse decoded schema true _

theorem sample_spells : Spells sampleUnmarshal sampleChunks sampleWhole where
  id := rfl
  model := rfl
  usage := rfl
  error := rfl
  message := ⟨_, _, _, rfl, rfl, .piece rfl rfl rfl (.piece rfl rfl rfl .nil), rfl, rfl, rfl, rfl⟩

set_option maxRecDepth 4000 in
theorem streamed_attempt_sample :
    sampleAttempt.run sampleHost (.responded sampleStreamed false) true none =
      sampleAttempt.run sampleHost (.responded sampleResponse false) true none :=
  streamed_attempt sample_decodes (fun _ => Bool.or_true _) sample_spells rfl rfl (by decide) (.inr rfl) rfl (by decide) rfl sample_sendable
    (by decide) (by decide) (by decide) (by decide) (by decide) (fun _ h => absurd h List.not_mem_nil) false none

end Chat
end Dex
