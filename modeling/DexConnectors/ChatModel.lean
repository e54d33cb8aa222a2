import DexConnectors.EventStreamModel
import DexConnectors.TextgenModel
/-!
# ChatModel — Chat Completions responses (`sdkgo/textgen/openaichat/wire_format.go`)

A completion comes as one JSON document or as a stream of events that each carry a piece of it.  `Unmarshal` is what
`json.Unmarshal` makes of a text: a completion, the text of a string, and the typed parts of a content; a `json.RawMessage`
keeps its bytes, none for an absent member.

The reader of a stream yields the data of its events, and then ends or fails.  `write` is whether the text stream takes a
delta after those it has taken; what it took is kept beside the result, also when that is an error.
-/
namespace Dex
namespace Chat

open Lib Lib.Utf8 Textgen

structure ContentPart where
  type : Bytes
  text : Bytes
  deriving DecidableEq

structure ChatDelta where
  content          : Bytes
  reasoningContent : Option Bytes
  refusal          : Option Bytes
  deriving DecidableEq

structure ChatUsage where
  promptTokens     : Int
  completionTokens : Int
  totalTokens      : Int
  cachedTokens     : Option Int       -- of `prompt_tokens_details`
  reasoningTokens  : Option Int       -- of `completion_tokens_details`
  deriving DecidableEq

structure ChatChoice where
  index        : Int
  message      : ChatDelta
  delta        : ChatDelta
  finishReason : Option Bytes
  deriving DecidableEq

structure ChatCompletion where
  id      : Bytes
  model   : Bytes
  choices : List ChatChoice
  usage   : Option ChatUsage
  error   : Bytes
  deriving DecidableEq

structure Unmarshal where
  completion : Bytes → Option ChatCompletion
  text       : Bytes → Option Bytes
  parts      : Bytes → Option (List ContentPart)

inductive Err where
  | json
  | reported (tokens : List Bytes)
  | noChoice
  | endedWithoutFinish
  | unexpectedEOF
  | readStream (isTooLarge : Bool)
  | writeText
  deriving DecidableEq

/-- How the events of a stream end. -/
inductive Ending where
  | eof
  | failed (isTooLarge : Bool)
  deriving DecidableEq

/-! ## A message -/

def ChatUsage.usage : Option ChatUsage → Usage
  | none => .zero
  | some u => ⟨u.promptTokens, u.cachedTokens.getD 0, u.completionTokens, u.reasoningTokens.getD 0, u.totalTokens⟩

def hasErrorObject (value : Bytes) : Bool := trimSpace value != [] && trimSpace value != ascii "null"

def firstChoice (choices : List ChatChoice) : Option ChatChoice := choices.find? (fun choice => choice.index == 0)

/-- `appendPart`, on the parts of a response. -/
def appendPart (parts : List ResponsePart) (part : ResponsePart) : List ResponsePart :=
  match parts.getLast? with
  | some last =>
    if last.isReasoning == part.isReasoning then parts.dropLast ++ [⟨last.text ++ part.text, last.isReasoning⟩]
    else parts ++ [part]
  | none => [part]

variable (u : Unmarshal)

def readContentTexts (content : Bytes) : Option (List Bytes) :=
  let trimmed := trimSpace content
  if trimmed = [] ∨ trimmed = ascii "null" then some []
  else if trimmed.head? = some 0x22 then (u.text trimmed).map (fun text => if text = [] then [] else [text])
  else (u.parts trimmed).map (fun parts =>
    (parts.filter (fun part => part.type == ascii "text" && part.text != [])).map ContentPart.text)

/-- A member that is there and not empty. -/
def present (member : Option Bytes) : Bool := member.getD [] != []

/-- The loop of `appendDeltaParts` over the texts. -/
def appendTexts (write : List Bytes → Bytes → Bool) : List Bytes → DecodedResponse → List Bytes →
    Except Err DecodedResponse × List Bytes
  | [], decoded, written => (.ok decoded, written)
  | text :: rest, decoded, written =>
    if write written text then
      appendTexts write rest { decoded with parts := appendPart decoded.parts ⟨text, false⟩ } (written ++ [text])
    else (.error .writeText, written)

def appendReasoning (decoded : DecodedResponse) (delta : ChatDelta) : DecodedResponse :=
  if present delta.reasoningContent then
    { decoded with parts := appendPart decoded.parts ⟨delta.reasoningContent.getD [], true⟩ }
  else decoded

def appendRefusal (decoded : DecodedResponse) (delta : ChatDelta) : DecodedResponse :=
  if present delta.refusal then { decoded with isRefusal := true } else decoded

def appendDeltaParts (write : List Bytes → Bytes → Bool) (decoded : DecodedResponse) (delta : ChatDelta) (written : List Bytes) :
    Except Err DecodedResponse × List Bytes :=
  match readContentTexts u delta.content with
  | none => (.error .json, written)
  | some texts => appendTexts write texts (appendRefusal (appendReasoning decoded delta) delta) written

variable (errorTokenPointers : List Bytes)

/-! ## A document -/

def decodeResponse (body : Bytes) : Except Err DecodedResponse :=
  match u.completion body with
  | none => .error .json
  | some completion =>
    if hasErrorObject completion.error then .error (.reported (readErrorTokens body errorTokenPointers))
    else match firstChoice completion.choices with
      | none => .error .noChoice
      | some choice =>
        match appendDeltaParts u (fun _ _ => true)
            ⟨[], completion.model, completion.id, [], false, ChatUsage.usage completion.usage⟩ choice.message [] with
        | (.error err, _) => .error err
        | (.ok decoded, _) => .ok { decoded with providerFinishReason := choice.finishReason.getD [] }

/-! ## A stream -/

/-- `cmp.Or`. -/
def orElse (value other : Bytes) : Bytes := if value != [] then value else other

structure StreamState where
  decoded     : DecodedResponse
  hasFinished : Bool

def StreamState.initial : StreamState := ⟨⟨[], [], [], [], false, .zero⟩, false⟩

/-- What a chunk says of the whole response. -/
def StreamState.identify (s : StreamState) (chunk : ChatCompletion) : StreamState :=
  { s with decoded := { s.decoded with
      responseID := orElse s.decoded.responseID chunk.id
      servedModel := orElse s.decoded.servedModel chunk.model
      usage := if chunk.usage.isSome then ChatUsage.usage chunk.usage else s.decoded.usage } }

def StreamState.finish (s : StreamState) (finishReason : Option Bytes) : StreamState :=
  if present finishReason then ⟨{ s.decoded with providerFinishReason := finishReason.getD [] }, true⟩ else s

/-- A chunk of the stream without an error. -/
def readChunk (write : List Bytes → Bytes → Bool) (s : StreamState) (chunk : ChatCompletion) (written : List Bytes) :
    Except Err StreamState × List Bytes :=
  match firstChoice chunk.choices with
  | none => (.ok (s.identify chunk), written)
  | some choice =>
    match appendDeltaParts u write (s.identify chunk).decoded choice.delta written with
    | (.error err, written) => (.error err, written)
    | (.ok decoded, written) => (.ok (StreamState.finish ⟨decoded, s.hasFinished⟩ choice.finishReason), written)

def decodeStream (write : List Bytes → Bytes → Bool) (ending : Ending) : List Bytes → StreamState → List Bytes →
    Except Err DecodedResponse × List Bytes
  | [], s, written =>
    match ending with
    | .eof => (if s.hasFinished then .ok s.decoded else .error .unexpectedEOF, written)
    | .failed isTooLarge => (.error (.readStream isTooLarge), written)
  | data :: rest, s, written =>
    if trimSpace data = ascii "[DONE]" then (if s.hasFinished then .ok s.decoded else .error .endedWithoutFinish, written)
    else match u.completion data with
      | none => (.error .json, written)
      | some chunk =>
        if hasErrorObject chunk.error then (.error (.reported (readErrorTokens data errorTokenPointers)), written)
        else match readChunk u write s chunk written with
          | (.error err, written) => (.error err, written)
          | (.ok s, written) => decodeStream write ending rest s written

/-! ## For an attempt -/

/-- What an attempt finds in an error of the wire format.  `hasReadError` is whether the body has failed by then. -/
def Err.decodeError (hasReadError : Bool) : Err → DecodeError
  | .reported tokens => ⟨some tokens, false, false, false, hasReadError⟩
  | .writeText => ⟨none, true, false, false, hasReadError⟩
  | .readStream isTooLarge => ⟨none, false, isTooLarge, false, hasReadError || !isTooLarge⟩
  | .unexpectedEOF => ⟨none, false, false, true, hasReadError⟩
  | .json | .noChoice | .endedWithoutFinish => ⟨none, false, false, false, hasReadError⟩

def readEnding (isBroken : Bool) : EventStream.Go.ReadError → Ending
  | .eof => if isBroken then .failed false else .eof
  | .streamTooLarge | .eventTooLarge => .failed true

/-- `format.decodeResponse` in the wire format. -/
def documentDecoder : DecodeResponse := fun body =>
  (decodeResponse u errorTokenPointers body).mapError (Err.decodeError false)

variable (limits : EventStream.Limits)

/-- `decodeStream` on the events of a body. -/
def decodeEvents (write : List Bytes → Bytes → Bool) (body : Body) : Except Err DecodedResponse × List Bytes :=
  let read := EventStream.Go.readEvents limits ⟨body.contents, 0⟩
  decodeStream u errorTokenPointers write (readEnding body.isBroken read.2) (read.1.map EventStream.Event.data) .initial []

/-- `format.decodeStream` in the wire format. -/
def streamDecoder (write : List Bytes → Bytes → Bool) (hasReadError : Bool) : DecodeStream := fun body =>
  (decodeEvents u errorTokenPointers limits write body).1.mapError (Err.decodeError hasReadError)

end Chat
end Dex
