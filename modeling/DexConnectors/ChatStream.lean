import Mathlib.Data.List.SplitBy
import DexConnectors.ChatModel
/-!
# ChatStream — a streamed completion is the completion

The parts of a response are the runs of its bytes, each marked as reasoning or as text: consecutive bytes of one kind are in
one part, however they were spread over deltas (`Canonical.splitBy`).  So a stream whose chunks together say what a document
says decodes to the same response (`Spells.same`).
-/
namespace Dex
namespace Chat

open Lib Lib.Utf8 Textgen

/-! ## Marked bytes -/

/-- The bytes of a part, each with its kind. -/
def marked (part : ResponsePart) : List (Bool × UInt8) := part.text.map (fun b => (part.isReasoning, b))

def sameKind (a b : Bool × UInt8) : Bool := a.1 == b.1

/-- **No empty part, and no two parts of a kind in a row.** -/
structure Canonical (parts : List ResponsePart) : Prop where
  nonempty : ∀ part ∈ parts, part.text ≠ []
  kinds    : parts.IsChain (fun a b => a.isReasoning ≠ b.isReasoning)

theorem Canonical.nil : Canonical [] := ⟨fun _ h => absurd h List.not_mem_nil, .nil⟩

theorem marked_ne_nil {part : ResponsePart} (h : part.text ≠ []) : marked part ≠ [] := fun hnil => h (List.map_eq_nil_iff.1 hnil)

theorem kind_of_mem {part : ResponsePart} {x : Bool × UInt8} (h : x ∈ marked part) : x.1 = part.isReasoning := by
  obtain ⟨b, -, rfl⟩ := List.mem_map.1 h
  rfl

theorem marked_isChain (part : ResponsePart) : (marked part).IsChain (fun a b => sameKind a b = true) :=
  List.Pairwise.isChain (List.pairwise_of_forall_mem_list (fun a ha b hb => by
    rw [sameKind, kind_of_mem ha, kind_of_mem hb, beq_self_eq_true]))

theorem marked_injective {a b : ResponsePart} (hne : a.text ≠ []) (h : marked a = marked b) : a = b := by
  have htext : a.text = b.text := by
    have := congrArg (List.map Prod.snd) h
    rwa [marked, marked, List.map_map, List.map_map, List.map_id'', List.map_id''] at this <;> exact fun _ => rfl
  obtain ⟨x, hx⟩ := List.exists_mem_of_ne_nil _ (marked_ne_nil hne)
  have hkind : a.isReasoning = b.isReasoning := (kind_of_mem hx).symm.trans (kind_of_mem (h ▸ hx))
  cases a
  cases b
  cases htext
  cases hkind
  rfl

/-- **The parts are the runs of the bytes.** -/
theorem Canonical.splitBy {parts : List ResponsePart} (h : Canonical parts) :
    (parts.flatMap marked).splitBy sameKind = parts.map marked := by
  rw [List.splitBy_eq_iff]
  refine ⟨List.flatMap_def, ?_, ?_, ?_⟩
  · intro hnil
    obtain ⟨part, hpart, hmarked⟩ := List.mem_map.1 hnil
    exact marked_ne_nil (h.nonempty part hpart) hmarked
  · intro m hm
    obtain ⟨part, -, rfl⟩ := List.mem_map.1 hm
    exact marked_isChain part
  · rw [List.isChain_map]
    refine h.kinds.imp_of_mem_imp (fun a b ha hb hkind => ?_)
    refine ⟨marked_ne_nil (h.nonempty a ha), marked_ne_nil (h.nonempty b hb), ?_⟩
    rw [sameKind, kind_of_mem (List.getLast_mem _), kind_of_mem (List.head_mem _), beq_eq_false_iff_ne]
    exact hkind

theorem map_marked_injective : ∀ {a b : List ResponsePart}, (∀ part ∈ a, part.text ≠ []) → a.map marked = b.map marked → a = b
  | [], [], _, _ => rfl
  | x :: a, y :: b, hne, h => by
    rw [List.map_cons, List.map_cons, List.cons.injEq] at h
    rw [marked_injective (hne x List.mem_cons_self) h.1,
      map_marked_injective (fun part hpart => hne part (List.mem_cons_of_mem x hpart)) h.2]

theorem Canonical.ext {a b : List ResponsePart} (ha : Canonical a) (hb : Canonical b) (h : a.flatMap marked = b.flatMap marked) :
    a = b :=
  map_marked_injective ha.nonempty (by rw [← ha.splitBy, ← hb.splitBy, h])

/-! ## Appending -/

theorem appendPart_concat (init : List ResponsePart) (last part : ResponsePart) :
    appendPart (init ++ [last]) part =
      if last.isReasoning == part.isReasoning then init ++ [⟨last.text ++ part.text, last.isReasoning⟩]
      else init ++ [last] ++ [part] := by
  unfold appendPart
  rw [List.getLast?_concat, List.dropLast_concat]

theorem marked_appendPart (parts : List ResponsePart) (part : ResponsePart) :
    (appendPart parts part).flatMap marked = parts.flatMap marked ++ marked part := by
  rcases List.eq_nil_or_concat' parts with rfl | ⟨init, last, rfl⟩
  · exact List.flatMap_singleton marked part
  rw [appendPart_concat]
  split
  · rename_i hkind
    rw [List.flatMap_append, List.flatMap_append, List.append_assoc]
    congr 1
    rw [List.flatMap_singleton, List.flatMap_singleton, marked, List.map_append, beq_iff_eq.1 hkind, marked, marked,
      beq_iff_eq.1 hkind]
  · rw [List.flatMap_append, List.flatMap_singleton]

theorem Canonical.appendPart {parts : List ResponsePart} {part : ResponsePart} (h : Canonical parts) (hpart : part.text ≠ []) :
    Canonical (appendPart parts part) := by
  rcases List.eq_nil_or_concat' parts with rfl | ⟨init, last, rfl⟩
  · exact ⟨fun p hp => by rw [List.mem_singleton.1 hp]; exact hpart, .singleton _⟩
  rw [appendPart_concat]
  obtain ⟨hinit, -, hlast⟩ := List.isChain_append.1 h.kinds
  split
  · refine ⟨fun p hp => ?_, List.isChain_append.2 ⟨hinit, .singleton _, fun x hx y hy => ?_⟩⟩
    · rcases List.mem_append.1 hp with hp | hp
      · exact h.nonempty p (List.mem_append_left _ hp)
      · rw [List.mem_singleton.1 hp]
        exact fun hnil => hpart (List.append_eq_nil_iff.1 hnil).2
    · cases hy
      exact hlast x hx last rfl
  · rename_i hkind
    refine ⟨fun p hp => ?_, List.isChain_append.2 ⟨h.kinds, .singleton _, fun x hx y hy => ?_⟩⟩
    · rcases List.mem_append.1 hp with hp | hp
      · exact h.nonempty p hp
      · rw [List.mem_singleton.1 hp]
        exact hpart
    · rw [List.getLast?_concat] at hx
      cases hx
      cases hy
      exact fun heq => hkind (beq_iff_eq.2 heq)

theorem foldl_appendPart : ∀ {ps parts : List ResponsePart}, Canonical parts → (∀ part ∈ ps, part.text ≠ []) →
    Canonical (ps.foldl appendPart parts) ∧
      (ps.foldl appendPart parts).flatMap marked = parts.flatMap marked ++ ps.flatMap marked
  | [], parts, h, _ => ⟨h, (List.append_nil _).symm⟩
  | part :: ps, parts, h, hps => by
    obtain ⟨hcanonical, hbytes⟩ := foldl_appendPart (h.appendPart (hps part List.mem_cons_self))
      (fun p hp => hps p (List.mem_cons_of_mem part hp))
    rw [marked_appendPart, List.append_assoc] at hbytes
    exact ⟨hcanonical, hbytes⟩

/-! ## Deltas -/

variable (u : Unmarshal)

/-- What a delta or a message says: the parts that it appends, whether it refuses, and the finish reason beside it. -/
structure Piece where
  parts        : List ResponsePart
  isRefusal    : Bool
  finishReason : Option Bytes

def spoken (texts : List Bytes) (delta : ChatDelta) : List ResponsePart :=
  (if present delta.reasoningContent then [⟨delta.reasoningContent.getD [], true⟩] else []) ++ texts.map (fun text => ⟨text, false⟩)

def pieceOf (delta : ChatDelta) (finishReason : Option Bytes) : Option Piece :=
  (readContentTexts u delta.content).map (fun texts =>
    ⟨spoken texts delta, present delta.refusal, if present finishReason then finishReason else none⟩)

variable {u}

theorem readContentTexts_ne_nil {content : Bytes} {texts : List Bytes} (h : readContentTexts u content = some texts) :
    ∀ text ∈ texts, text ≠ [] := by
  unfold readContentTexts at h
  dsimp only at h
  split at h
  · cases h
    exact fun text ht => absurd ht List.not_mem_nil
  split at h
  · obtain ⟨text, -, rfl⟩ := Option.map_eq_some_iff.1 h
    split
    · exact fun text ht => absurd ht List.not_mem_nil
    · rename_i hne
      intro text' ht
      rw [List.mem_singleton.1 ht]
      exact hne
  · obtain ⟨parts, -, rfl⟩ := Option.map_eq_some_iff.1 h
    intro text ht
    obtain ⟨part, hpart, rfl⟩ := List.mem_map.1 ht
    have hboth := (Bool.and_eq_true_iff.1 (List.mem_filter.1 hpart).2).2
    exact bne_iff_ne.1 hboth

theorem pieceOf_ne_nil {delta : ChatDelta} {finishReason : Option Bytes} {p : Piece} (h : pieceOf u delta finishReason = some p) :
    ∀ part ∈ p.parts, part.text ≠ [] := by
  obtain ⟨texts, htexts, rfl⟩ := Option.map_eq_some_iff.1 h
  intro part hpart
  rcases List.mem_append.1 hpart with hreasoning | htext
  · split at hreasoning
    · rename_i hpresent
      rw [List.mem_singleton.1 hreasoning]
      exact bne_iff_ne.1 hpresent
    · exact absurd hreasoning List.not_mem_nil
  · obtain ⟨text, hmem, rfl⟩ := List.mem_map.1 htext
    exact readContentTexts_ne_nil htexts text hmem

variable {write : List Bytes → Bytes → Bool}

theorem appendTexts_ok (hwrite : ∀ taken text, write taken text = true) : ∀ (texts : List Bytes) (decoded : DecodedResponse)
    (written : List Bytes), appendTexts write texts decoded written =
      (.ok { decoded with parts := (texts.map (fun text => (⟨text, false⟩ : ResponsePart))).foldl appendPart decoded.parts },
        written ++ texts)
  | [], decoded, written => by rw [appendTexts, List.append_nil]; rfl
  | text :: texts, decoded, written => by
    rw [appendTexts, if_pos (hwrite written text), appendTexts_ok hwrite texts, List.append_assoc]
    rfl

theorem appendDeltaParts_ok (hwrite : ∀ taken text, write taken text = true) {delta : ChatDelta} {finishReason : Option Bytes}
    {p : Piece} (h : pieceOf u delta finishReason = some p) (decoded : DecodedResponse) (written : List Bytes) :
    ∃ texts, appendDeltaParts u write decoded delta written =
      (.ok { decoded with parts := p.parts.foldl appendPart decoded.parts, isRefusal := decoded.isRefusal || p.isRefusal },
        written ++ texts) := by
  obtain ⟨texts, htexts, rfl⟩ := Option.map_eq_some_iff.1 h
  refine ⟨texts, ?_⟩
  unfold appendDeltaParts appendReasoning appendRefusal spoken
  rw [htexts]
  dsimp only
  rw [appendTexts_ok hwrite, List.foldl_append]
  by_cases hreasoning : present delta.reasoningContent = true <;> by_cases hrefusal : present delta.refusal = true <;>
    simp [hreasoning, hrefusal]

/-! ## Chunks -/

def firstNonempty (values : List Bytes) : Bytes := (values.find? (· != [])).getD []

theorem orElse_cons (a x : Bytes) (values : List Bytes) :
    orElse (orElse a x) (firstNonempty values) = orElse a (firstNonempty (x :: values)) := by
  unfold orElse firstNonempty
  rw [List.find?_cons]
  by_cases ha : (a != []) = true
  · rw [if_pos ha, if_pos ha, if_pos ha]
  · rw [if_neg ha, if_neg ha]
    cases hx : x != [] <;> rfl

def lastFinish (ps : List Piece) : Option Bytes := (ps.filterMap Piece.finishReason).getLast?

/-- **The chunks that can be read**, with the pieces of those that have a choice. -/
inductive Reads (u : Unmarshal) : List ChatCompletion → List Piece → Prop where
  | nil : Reads u [] []
  | pass {chunk : ChatCompletion} {chunks : List ChatCompletion} {ps : List Piece} (herror : hasErrorObject chunk.error = false)
      (hchoice : firstChoice chunk.choices = none) (h : Reads u chunks ps) : Reads u (chunk :: chunks) ps
  | piece {chunk : ChatCompletion} {chunks : List ChatCompletion} {choice : ChatChoice} {p : Piece} {ps : List Piece}
      (herror : hasErrorObject chunk.error = false) (hchoice : firstChoice chunk.choices = some choice)
      (hp : pieceOf u choice.delta choice.finishReason = some p) (h : Reads u chunks ps) : Reads u (chunk :: chunks) (p :: ps)

/-- The state after chunks. -/
def StreamState.after (s : StreamState) (chunks : List ChatCompletion) (ps : List Piece) : StreamState where
  decoded := {
    parts := (ps.flatMap Piece.parts).foldl appendPart s.decoded.parts
    servedModel := orElse s.decoded.servedModel (firstNonempty (chunks.map ChatCompletion.model))
    responseID := orElse s.decoded.responseID (firstNonempty (chunks.map ChatCompletion.id))
    providerFinishReason := (lastFinish ps).getD s.decoded.providerFinishReason
    isRefusal := s.decoded.isRefusal || ps.any Piece.isRefusal
    usage := ((chunks.filterMap ChatCompletion.usage).getLast?.map (fun usage => ChatUsage.usage (some usage))).getD s.decoded.usage }
  hasFinished := s.hasFinished || (lastFinish ps).isSome

theorem orElse_nil (a : Bytes) : orElse a (firstNonempty []) = a := by
  unfold orElse firstNonempty
  cases a <;> rfl

theorem StreamState.after_nil (s : StreamState) : s.after [] [] = s := by
  unfold after
  simp only [List.map_nil, orElse_nil]
  simp [lastFinish]

theorem StreamState.after_pass (s : StreamState) (chunk : ChatCompletion) (chunks : List ChatCompletion) (ps : List Piece) :
    (s.identify chunk).after chunks ps = s.after (chunk :: chunks) ps := by
  unfold after identify
  simp only [List.map_cons, orElse_cons, StreamState.mk.injEq, DecodedResponse.mk.injEq, true_and, and_true]
  cases husage : chunk.usage with
  | none => simp [husage]
  | some usage =>
    rw [List.filterMap_cons_some husage, List.getLast?_cons]
    cases (chunks.filterMap ChatCompletion.usage).getLast? <;> rfl

/-- The state after a piece. -/
def StreamState.hear (s : StreamState) (p : Piece) : StreamState where
  decoded := { s.decoded with
    parts := p.parts.foldl appendPart s.decoded.parts
    providerFinishReason := p.finishReason.getD s.decoded.providerFinishReason
    isRefusal := s.decoded.isRefusal || p.isRefusal }
  hasFinished := s.hasFinished || p.finishReason.isSome

theorem StreamState.after_hear (s : StreamState) (p : Piece) (chunks : List ChatCompletion) (ps : List Piece) :
    (s.hear p).after chunks ps = s.after chunks (p :: ps) := by
  unfold after hear lastFinish
  simp only [List.flatMap_cons, List.foldl_append, List.any_cons, Bool.or_assoc, StreamState.mk.injEq, DecodedResponse.mk.injEq,
    true_and, and_true]
  cases hfinish : p.finishReason with
  | none => simp [hfinish]
  | some reason =>
    rw [List.filterMap_cons_some hfinish, List.getLast?_cons]
    cases (ps.filterMap Piece.finishReason).getLast? <;> simp

theorem readChunk_piece (hwrite : ∀ taken text, write taken text = true) {s : StreamState} {chunk : ChatCompletion}
    {choice : ChatChoice} {p : Piece} (hchoice : firstChoice chunk.choices = some choice)
    (hp : pieceOf u choice.delta choice.finishReason = some p) (written : List Bytes) :
    ∃ texts, readChunk u write s chunk written = (.ok ((s.identify chunk).hear p), written ++ texts) := by
  obtain ⟨texts, htexts⟩ := appendDeltaParts_ok hwrite hp (s.identify chunk).decoded written
  refine ⟨texts, ?_⟩
  have hfinish : p.finishReason = if present choice.finishReason then choice.finishReason else none := by
    obtain ⟨_, _, rfl⟩ := Option.map_eq_some_iff.1 hp
    rfl
  unfold readChunk
  rw [hchoice]
  dsimp only
  rw [htexts]
  dsimp only
  unfold StreamState.finish StreamState.hear StreamState.identify
  rw [hfinish]
  by_cases hpresent : present choice.finishReason = true
  · rw [if_pos hpresent, if_pos hpresent]
    cases hreason : choice.finishReason with
    | none =>
      rw [hreason] at hpresent
      cases hpresent
    | some reason => simp
  · rw [if_neg hpresent, if_neg hpresent]
    simp

variable (errorTokenPointers : List Bytes) (ending : Ending)

/-- **A run of the stream over chunks that can be read.** -/
theorem decodeStream_chunks (hwrite : ∀ taken text, write taken text = true) (rest : List Bytes) {chunks : List ChatCompletion}
    {ps : List Piece} (h : Reads u chunks ps) : ∀ (datas : List Bytes) (s : StreamState) (written : List Bytes),
    datas.map u.completion = chunks.map some → (∀ data ∈ datas, trimSpace data ≠ ascii "[DONE]") →
    ∃ texts, decodeStream u errorTokenPointers write ending (datas ++ rest) s written =
      decodeStream u errorTokenPointers write ending rest (s.after chunks ps) (written ++ texts) := by
  induction h with
  | nil =>
    intro datas s written hdatas _
    rw [List.map_eq_nil_iff.1 hdatas, s.after_nil]
    exact ⟨[], by rw [List.append_nil]; rfl⟩
  | @pass chunk chunks ps herror hchoice _ ih =>
    intro datas s written hdatas hdone
    obtain ⟨data, datas, rfl, hdata, hdatas⟩ := List.map_eq_cons_iff.1 hdatas
    obtain ⟨texts, htexts⟩ := ih datas (s.identify chunk) written hdatas (fun d hd => hdone d (List.mem_cons_of_mem data hd))
    refine ⟨texts, ?_⟩
    rw [List.cons_append, decodeStream, if_neg (hdone data List.mem_cons_self), hdata]
    dsimp only
    rw [herror, if_neg Bool.false_ne_true]
    unfold readChunk
    rw [hchoice]
    dsimp only
    rw [htexts, s.after_pass]
  | @piece chunk chunks choice p ps herror hchoice hp _ ih =>
    intro datas s written hdatas hdone
    obtain ⟨data, datas, rfl, hdata, hdatas⟩ := List.map_eq_cons_iff.1 hdatas
    obtain ⟨first, hfirst⟩ := readChunk_piece (s := s) hwrite hchoice hp written
    obtain ⟨texts, htexts⟩ := ih datas ((s.identify chunk).hear p) (written ++ first) hdatas
      (fun d hd => hdone d (List.mem_cons_of_mem data hd))
    refine ⟨first ++ texts, ?_⟩
    rw [List.cons_append, decodeStream, if_neg (hdone data List.mem_cons_self), hdata]
    dsimp only
    rw [herror, if_neg Bool.false_ne_true, hfirst]
    dsimp only
    rw [htexts, StreamState.after_hear, s.after_pass, List.append_assoc]

/-! ## A completion and its chunks -/

/-- **The chunks of a stream say together what a document says**: the same bytes of text and of reasoning in the same order,
however they are cut, and the same of everything else. -/
structure Spells (u : Unmarshal) (chunks : List ChatCompletion) (whole : ChatCompletion) : Prop where
  id      : firstNonempty (chunks.map ChatCompletion.id) = whole.id
  model   : firstNonempty (chunks.map ChatCompletion.model) = whole.model
  usage   : (chunks.filterMap ChatCompletion.usage).getLast? = whole.usage
  error   : hasErrorObject whole.error = false
  message : ∃ choice p ps, firstChoice whole.choices = some choice ∧ pieceOf u choice.message choice.finishReason = some p ∧
    Reads u chunks ps ∧ (ps.flatMap Piece.parts).flatMap marked = p.parts.flatMap marked ∧
    ps.any Piece.isRefusal = p.isRefusal ∧ lastFinish ps = p.finishReason ∧ p.finishReason.isSome = true

theorem Reads.ne_nil {chunks : List ChatCompletion} {ps : List Piece} (h : Reads u chunks ps) :
    ∀ part ∈ ps.flatMap Piece.parts, part.text ≠ [] := by
  induction h with
  | nil => exact fun part hpart => absurd hpart List.not_mem_nil
  | pass _ _ _ ih => exact ih
  | piece _ _ hp _ ih =>
    intro part hpart
    rcases List.mem_append.1 (List.flatMap_cons ▸ hpart) with hhead | hrest
    · exact pieceOf_ne_nil hp part hhead
    · exact ih part hrest

/-- The response of a completion. -/
def responseOf (whole : ChatCompletion) (p : Piece) : DecodedResponse :=
  ⟨p.parts.foldl appendPart [], whole.model, whole.id, p.finishReason.getD [], p.isRefusal, ChatUsage.usage whole.usage⟩

variable {errorTokenPointers} in
theorem decodeResponse_ok {document : Bytes} {whole : ChatCompletion} {choice : ChatChoice} {p : Piece}
    (hwhole : u.completion document = some whole) (herror : hasErrorObject whole.error = false)
    (hchoice : firstChoice whole.choices = some choice) (hp : pieceOf u choice.message choice.finishReason = some p)
    (hfinish : p.finishReason.isSome = true) :
    decodeResponse u errorTokenPointers document = .ok (responseOf whole p) := by
  have hwrite : ∀ (taken : List Bytes) (text : Bytes), (fun _ _ => true : List Bytes → Bytes → Bool) taken text = true := fun _ _ => rfl
  obtain ⟨texts, htexts⟩ := appendDeltaParts_ok hwrite hp ⟨[], whole.model, whole.id, [], false, ChatUsage.usage whole.usage⟩ []
  have hreason : p.finishReason = choice.finishReason := by
    obtain ⟨_, _, rfl⟩ := Option.map_eq_some_iff.1 hp
    dsimp only at hfinish ⊢
    split at hfinish
    · rename_i hpresent
      rw [if_pos hpresent]
    · cases hfinish
  unfold decodeResponse
  rw [hwhole]
  dsimp only
  rw [herror, if_neg Bool.false_ne_true, hchoice]
  dsimp only
  rw [htexts]
  unfold responseOf
  rw [hreason, Bool.false_or]

theorem Spells.after_initial {chunks : List ChatCompletion} {whole : ChatCompletion} {p : Piece} {ps : List Piece}
    (h : Spells u chunks whole) (hreads : Reads u chunks ps) (hp : ∀ part ∈ p.parts, part.text ≠ [])
    (hbytes : (ps.flatMap Piece.parts).flatMap marked = p.parts.flatMap marked) (hrefusal : ps.any Piece.isRefusal = p.isRefusal)
    (hfinish : lastFinish ps = p.finishReason) (hsome : p.finishReason.isSome = true) :
    StreamState.initial.after chunks ps = ⟨responseOf whole p, true⟩ := by
  have hparts : (ps.flatMap Piece.parts).foldl appendPart [] = p.parts.foldl appendPart [] := by
    obtain ⟨hstream, hstreamBytes⟩ := foldl_appendPart Canonical.nil hreads.ne_nil
    obtain ⟨hwhole, hwholeBytes⟩ := foldl_appendPart Canonical.nil hp
    exact hstream.ext hwhole (by rw [hstreamBytes, hwholeBytes, hbytes])
  have husage : ((chunks.filterMap ChatCompletion.usage).getLast?.map (fun usage => ChatUsage.usage (some usage))).getD .zero =
      ChatUsage.usage whole.usage := by
    rw [h.usage]
    cases whole.usage <;> rfl
  unfold StreamState.after StreamState.initial responseOf
  dsimp only
  rw [hparts, husage, h.id, h.model, hrefusal, hfinish, hsome, Bool.false_or]
  rfl

/-- **A stream that spells a completion decodes to what the completion decodes to.** -/
theorem Spells.same {chunks : List ChatCompletion} {whole : ChatCompletion} (h : Spells u chunks whole)
    (hwrite : ∀ taken text, write taken text = true) {document : Bytes} (hwhole : u.completion document = some whole)
    {datas : List Bytes} (hdatas : datas.map u.completion = chunks.map some)
    (hdone : ∀ data ∈ datas, trimSpace data ≠ ascii "[DONE]") {rest : List Bytes}
    (hrest : rest = [] ∧ ending = .eof ∨ rest = [ascii "[DONE]"]) :
    ∃ decoded, (decodeStream u errorTokenPointers write ending (datas ++ rest) .initial []).1 = .ok decoded ∧
      decodeResponse u errorTokenPointers document = .ok decoded := by
  obtain ⟨choice, p, ps, hchoice, hp, hreads, hbytes, hrefusal, hfinish, hsome⟩ := h.message
  refine ⟨responseOf whole p, ?_, decodeResponse_ok hwhole h.error hchoice hp hsome⟩
  obtain ⟨texts, htexts⟩ := decodeStream_chunks errorTokenPointers ending hwrite rest hreads datas .initial [] hdatas hdone
  rw [htexts, h.after_initial hreads (pieceOf_ne_nil hp) hbytes hrefusal hfinish hsome]
  rcases hrest with ⟨rfl, rfl⟩ | rfl
  · rfl
  · rw [decodeStream, if_pos (by decide)]
    rfl

end Chat
end Dex
