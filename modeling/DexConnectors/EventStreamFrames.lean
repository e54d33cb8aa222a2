import DexConnectors.EventStreamChunks
/-!
# EventStreamFrames — events that are written are read back

`frame` is what a server sends for an event: its type, a line for each line of its data, and a blank line.  Both readers give
the events back, wherever the bytes are cut, as long as the limits allow them (`frames_read_back`).
-/
namespace Dex
namespace EventStream

open Lib Lib.Utf8

/-- An event to send; its data has a first line. -/
structure Sent where
  type  : Bytes
  first : Bytes
  more  : List Bytes
  deriving DecidableEq

def Sent.lines (e : Sent) : List Bytes := e.first :: e.more

def Sent.event (e : Sent) : Event := ⟨e.type, joinLines e.lines⟩

def dataLine (line : Bytes) : Bytes := ascii "data: " ++ line

/-- The lines with a field. -/
def Sent.fields (e : Sent) : List Bytes :=
  (if e.type = [] then [] else [ascii "event: " ++ e.type]) ++ e.lines.map dataLine

def terminated (line : Bytes) : Bytes := line ++ [0x0A]

def frame (e : Sent) : Bytes := e.fields.flatMap terminated ++ [0x0A]

/-- A text that stands on one line, and keeps its end there. -/
def IsLine (text : Bytes) : Prop := 0x0A ∉ text ∧ text.getLast? ≠ some 0x0D

instance (text : Bytes) : Decidable (IsLine text) := inferInstanceAs (Decidable (_ ∧ _))

variable (limits : Limits)

def eventBytes (e : Sent) : Nat := (e.fields.map List.length).sum

structure Sendable (e : Sent) : Prop where
  type  : IsLine e.type
  lines : ∀ line ∈ e.lines, IsLine line
  fits  : eventBytes e ≤ limits.maxEventBytes

/-! ## One line -/

theorem nextLine_terminated : ∀ {line : Bytes}, 0x0A ∉ line → ∀ rest, nextLine (terminated line ++ rest) = some (line, rest)
  | [], _, rest => rfl
  | b :: line, h, rest => by
    have hb : b ≠ 0x0A := fun heq => h (heq ▸ List.mem_cons_self)
    show nextLine (b :: (terminated line ++ rest)) = _
    rw [nextLine, if_neg hb, nextLine_terminated (fun hmem => h (List.mem_cons_of_mem b hmem)) rest]
    rfl

theorem length_terminated (line : Bytes) : (terminated line).length = line.length + 1 := List.length_append

namespace Go

theorem readLine_terminated {line : Bytes} (h : IsLine line) (hfits : line.length ≤ limits.maxEventBytes) {rest : Bytes} {n : Nat}
    (htotal : n + (line.length + 1) ≤ limits.maxTotalBytes) :
    readLine limits ⟨terminated line ++ rest, n⟩ [] = .ok (line, ⟨rest, n + (line.length + 1)⟩) := by
  have hnext := nextLine_terminated h.1 rest
  have hbytes : lineBytes (terminated line ++ rest) = line.length + 1 := by
    unfold lineBytes
    rw [hnext]
  rw [(readLine_spec limits ⟨terminated line ++ rest, n⟩ []).1 ⟨by rw [hbytes]; exact htotal, by
    rw [hbytes, List.length_nil]
    omega⟩]
  unfold lineResult
  dsimp only
  rw [hnext, hbytes]
  dsimp only
  rw [List.nil_append, trimCR, if_neg h.2]

/-! ## The lines of an event -/

/-- The state after lines with a field. -/
def EventState.readFields (s : EventState) (lines : List Bytes) : EventState :=
  lines.foldl (fun s line => { s with eventBytes := s.eventBytes + line.length }.readField line) s

theorem eventBytes_readField (s : EventState) (line : Bytes) : (s.readField line).eventBytes = s.eventBytes := by
  unfold EventState.readField
  split
  · rfl
  · split <;> rfl

theorem eventsFrom_fields (rest : Bytes) : ∀ {lines : List Bytes} {s : EventState} {n : Nat},
    (∀ line ∈ lines, IsLine line ∧ line ≠ [] ∧ line.head? ≠ some 0x3A) →
    s.eventBytes + (lines.map List.length).sum ≤ limits.maxEventBytes →
    n + (lines.flatMap terminated).length ≤ limits.maxTotalBytes →
    eventsFrom limits ⟨lines.flatMap terminated ++ rest, n⟩ s =
      eventsFrom limits ⟨rest, n + (lines.flatMap terminated).length⟩ (s.readFields lines)
  | [], s, n, _, _, _ => rfl
  | line :: lines, s, n, hlines, hfits, htotal => by
    obtain ⟨hline, hne, hhead⟩ := hlines line List.mem_cons_self
    rw [List.map_cons, List.sum_cons] at hfits
    rw [List.flatMap_cons, List.length_append, length_terminated] at htotal
    have hread : readLine limits ⟨terminated line ++ (lines.flatMap terminated ++ rest), n⟩ [] = _ :=
      readLine_terminated limits hline (by omega) (by omega)
    rw [List.flatMap_cons, List.append_assoc, eventsFrom_ok limits hread]
    unfold takeLine
    rw [if_neg hne, if_neg hhead, if_neg (by omega)]
    dsimp only
    rw [eventsFrom_fields rest (fun l hl => hlines l (List.mem_cons_of_mem line hl))
      (by rw [eventBytes_readField]; dsimp only; omega) (by omega), List.length_append, length_terminated, Nat.add_assoc]
    rfl

theorem readField_data (s : EventState) (line : Bytes) :
    s.readField (dataLine line) =
      { s with data := (if s.hasData then s.data ++ [0x0A] else s.data) ++ line, hasData := true } := by
  have hfield : fieldOf (dataLine line) = ascii "data" := rfl
  have hvalue : valueOf (dataLine line) = line := rfl
  rw [EventState.readField, if_pos hfield, hvalue]

theorem readField_event (s : EventState) (type : Bytes) :
    s.readField (ascii "event: " ++ type) = { s with eventType := type } := by
  have hfield : fieldOf (ascii "event: " ++ type) = ascii "event" := rfl
  have hvalue : valueOf (ascii "event: " ++ type) = type := rfl
  rw [EventState.readField, if_neg (by rw [hfield]; decide), if_pos hfield, hvalue]

theorem readFields_data : ∀ (more : List Bytes) (type data : Bytes) (k : Nat),
    EventState.readFields ⟨type, data, true, k⟩ (more.map dataLine) =
      ⟨type, data ++ more.flatMap (fun line => 0x0A :: line), true, k + ((more.map dataLine).map List.length).sum⟩
  | [], type, data, k => by
    rw [List.flatMap_nil, List.append_nil]
    rfl
  | line :: more, type, data, k => by
    have ih := readFields_data more type (data ++ [0x0A] ++ line) (k + (dataLine line).length)
    unfold EventState.readFields at ih ⊢
    rw [List.map_cons, List.foldl_cons, readField_data]
    dsimp only
    rw [if_pos rfl, ih, List.flatMap_cons, List.map_cons, List.sum_cons, List.append_assoc, List.append_assoc, Nat.add_assoc]
    rfl

theorem joinLines_cons (first : Bytes) : ∀ more : List Bytes,
    joinLines (first :: more) = first ++ more.flatMap (fun line => 0x0A :: line)
  | [] => by simp [joinLines, List.intercalate]
  | line :: more => by
    have ih := joinLines_cons line more
    unfold joinLines at ih ⊢
    rw [List.intercalate_cons_cons, ih, List.flatMap_cons]
    simp

theorem readFields_fields (e : Sent) :
    EventState.readFields .initial e.fields = ⟨e.event.type, e.event.data, true, eventBytes e⟩ := by
  have hdata : ∀ (type : Bytes) (k : Nat), EventState.readFields ⟨type, [], false, k⟩ (e.lines.map dataLine) =
      ⟨type, joinLines e.lines, true, k + ((e.lines.map dataLine).map List.length).sum⟩ := by
    intro type k
    have hmore := readFields_data e.more type e.first (k + (dataLine e.first).length)
    unfold EventState.readFields at hmore ⊢
    rw [Sent.lines, joinLines_cons, List.map_cons, List.foldl_cons, readField_data]
    dsimp only
    rw [if_neg Bool.false_ne_true, List.nil_append, hmore, List.map_cons, List.sum_cons, Nat.add_assoc]
  unfold eventBytes Sent.fields Sent.event EventState.initial
  by_cases htype : e.type = []
  · rw [if_pos htype, List.nil_append, hdata, htype, Nat.zero_add]
  · rw [if_neg htype, List.singleton_append, EventState.readFields, List.foldl_cons, readField_event, List.map_cons, List.sum_cons]
    dsimp only
    rw [Nat.zero_add]
    exact hdata _ _

theorem isLine_append {a b : Bytes} (ha : IsLine a) (hb : IsLine b) : IsLine (a ++ b) := by
  refine ⟨fun h => (List.mem_append.1 h).elim ha.1 hb.1, ?_⟩
  rw [List.getLast?_append]
  cases h : b.getLast? with
  | none => exact ha.2
  | some c =>
    intro heq
    exact hb.2 (h.trans heq)

variable {limits}

theorem fields_isLine {e : Sent} (h : Sendable limits e) :
    ∀ line ∈ e.fields, IsLine line ∧ line ≠ [] ∧ line.head? ≠ some 0x3A := by
  intro line hline
  rcases List.mem_append.1 hline with htype | hdata
  · split at htype
    · exact absurd htype List.not_mem_nil
    · rw [List.mem_singleton.1 htype]
      exact ⟨isLine_append ⟨by decide, by decide⟩ h.type, fun hnil => (by cases hnil),
        show some (0x65 : UInt8) ≠ some 0x3A by decide⟩
  · obtain ⟨text, htext, rfl⟩ := List.mem_map.1 hdata
    exact ⟨isLine_append ⟨by decide, by decide⟩ (h.lines text htext), fun hnil => (by cases hnil),
      show some (0x64 : UInt8) ≠ some 0x3A by decide⟩

/-- **A frame is read as its event.** -/
theorem eventsFrom_frame {e : Sent} (h : Sendable limits e) (rest : Bytes) {n : Nat}
    (htotal : n + (frame e).length ≤ limits.maxTotalBytes) :
    eventsFrom limits ⟨frame e ++ rest, n⟩ .initial =
      (e.event :: (eventsFrom limits ⟨rest, n + (frame e).length⟩ .initial).1,
        (eventsFrom limits ⟨rest, n + (frame e).length⟩ .initial).2) := by
  unfold frame at htotal ⊢
  rw [List.length_append, List.length_singleton] at htotal ⊢
  have hfields := eventsFrom_fields limits ([0x0A] ++ rest) (fields_isLine h) (s := .initial) (n := n)
    (by rw [show EventState.initial.eventBytes = 0 from rfl, Nat.zero_add]; exact h.fits) (by omega)
  have hblank : readLine limits ⟨[0x0A] ++ rest, n + (e.fields.flatMap terminated).length⟩ [] =
      .ok ([], ⟨rest, n + (e.fields.flatMap terminated).length + 1⟩) :=
    readLine_terminated limits ⟨List.not_mem_nil, by decide⟩ (Nat.zero_le _) (by rw [List.length_nil]; omega)
  rw [List.append_assoc, hfields, readFields_fields, eventsFrom_ok limits hblank, Nat.add_assoc]
  rfl

theorem eventsFrom_frames (rest : Bytes) : ∀ {events : List Sent} {n : Nat}, (∀ e ∈ events, Sendable limits e) →
    n + (events.flatMap frame).length ≤ limits.maxTotalBytes →
    eventsFrom limits ⟨events.flatMap frame ++ rest, n⟩ .initial =
      (events.map Sent.event ++ (eventsFrom limits ⟨rest, n + (events.flatMap frame).length⟩ .initial).1,
        (eventsFrom limits ⟨rest, n + (events.flatMap frame).length⟩ .initial).2)
  | [], n, _, _ => rfl
  | e :: events, n, hevents, htotal => by
    rw [List.flatMap_cons, List.length_append] at htotal
    rw [List.flatMap_cons, List.append_assoc, eventsFrom_frame (hevents e List.mem_cons_self) _ (by omega),
      eventsFrom_frames rest (fun e' he' => hevents e' (List.mem_cons_of_mem e he')) (by omega), List.length_append, Nat.add_assoc]
    rfl

theorem eventsFrom_nil {n : Nat} (h : n ≤ limits.maxTotalBytes) (s : EventState) :
    eventsFrom limits ⟨[], n⟩ s = ([], .eof) :=
  eventsFrom_error limits ((readLine_spec limits ⟨[], n⟩ []).1 ⟨h, Nat.zero_le _⟩) s

end Go

variable {limits}

/-- **Events that are written are read back**, by the Go reader and, however the bytes are cut into chunks, by the TypeScript
decoder. -/
theorem frames_read_back {events : List Sent} (hevents : ∀ e ∈ events, Sendable limits e)
    (htotal : (events.flatMap frame).length ≤ limits.maxTotalBytes) (hvalid : isValid (events.flatMap frame) = true)
    {chunks : List Bytes} (hchunks : chunks.flatten = events.flatMap frame) :
    Go.readEvents limits ⟨events.flatMap frame, 0⟩ = (events.map Sent.event, .eof) ∧
      (TypeScript.feedAll limits .initial chunks).1 = events.map Sent.event ∧
      (TypeScript.feedAll limits .initial chunks).2 ≠ .tooLarge := by
  have hread : Go.eventsFrom limits ⟨events.flatMap frame, 0⟩ .initial = (events.map Sent.event, .eof) := by
    have hframes := Go.eventsFrom_frames [] hevents (n := 0) (by omega)
    rw [List.append_nil, Go.eventsFrom_nil (by omega), List.append_nil] at hframes
    exact hframes
  have hagree := agree_rest limits (sameEvent_reset (TypeScript.Decoder.initial.push chunks.flatten))
    (by rw [hchunks]; exact hvalid)
  refine ⟨(Go.readEvents_eq limits _).trans hread, ?_⟩
  rw [TypeScript.feedAll_eq limits chunks (TypeScript.drain_initial limits)]
  have hgo : Go.eventsFrom limits ⟨(TypeScript.Decoder.initial.push chunks.flatten).resetEvent.pending,
      (TypeScript.Decoder.initial.push chunks.flatten).resetEvent.totalBytes⟩ .initial = (events.map Sent.event, .eof) := by
    rw [← hread, ← hchunks]
    rfl
  rw [hgo] at hagree
  exact ⟨hagree.1, fun htooLarge => hagree.2.1 htooLarge rfl⟩

/-- An event of two lines and one without data, cut inside a line. -/
theorem frames_read_back_cut :
    let events : List Sent := [⟨ascii "delta", ascii "one", [ascii "two"]⟩, ⟨[], [], []⟩]
    let chunks := [(events.flatMap frame).take 9, (events.flatMap frame).drop 9]
    Go.readEvents ⟨64, 40⟩ ⟨events.flatMap frame, 0⟩ = (events.map Sent.event, .eof) ∧
      (TypeScript.feedAll ⟨64, 40⟩ .initial chunks).1 = events.map Sent.event ∧
      (TypeScript.feedAll ⟨64, 40⟩ .initial chunks).2 ≠ .tooLarge := by
  refine frames_read_back (fun e he => ?_) (by decide) (by decide) ?_
  · rcases List.mem_cons.1 he with rfl | he
    · exact ⟨by decide, by decide, by decide⟩
    · rw [List.mem_singleton.1 he]
      exact ⟨by decide, by decide, by decide⟩
  · rw [List.flatten_cons, List.flatten_singleton, List.take_append_drop]

end EventStream
end Dex
