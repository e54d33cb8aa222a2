import DexConnectors.LibUtf8
/-!
# EventStreamModel — event streams of the two SDKs (`server_sent_events.go`, `server_sent_events.ts`)

Go pulls lines through a `bufio.Reader` of 4096 bytes until an event is complete; TypeScript is fed chunks, and keeps the bytes
after the last line it has seen.  Both count every byte, and bound the bytes of a line and of an event.
-/
namespace Dex
namespace EventStream

open Lib Lib.Utf8

/-- The first line without its LF, and what comes after it. -/
def nextLine : Bytes → Option (Bytes × Bytes)
  | [] => none
  | b :: rest => if b = 0x0A then some ([], rest) else (nextLine rest).map (fun p => (b :: p.1, p.2))

/-- An event; an empty type is an event that names none. -/
structure Event where
  type : Bytes
  data : Bytes
  deriving DecidableEq

structure Limits where
  maxTotalBytes : Nat
  maxEventBytes : Nat

/-- A line without one CR at its end. -/
def trimCR (line : Bytes) : Bytes := if line.getLast? = some 0x0D then line.dropLast else line

/-- The field of a line: what stands before the first colon. -/
def fieldOf (line : Bytes) : Bytes := line.takeWhile (· != 0x3A)

/-- Its value: what stands after the colon, without one space. -/
def valueOf (line : Bytes) : Bytes :=
  match (line.dropWhile (· != 0x3A)).drop 1 with
  | 0x20 :: value => value
  | value => value

/-- Lines joined by LF. -/
def joinLines (lines : List Bytes) : Bytes := [0x0A].intercalate lines

theorem length_of_nextLine : ∀ {bs line rest : Bytes}, nextLine bs = some (line, rest) →
    line.length + rest.length + 1 = bs.length
  | b :: bs, line, rest, h => by
    rw [nextLine] at h
    split at h
    · cases h
      simp
    · obtain ⟨⟨line', rest'⟩, hnext, heq⟩ := Option.map_eq_some_iff.1 h
      cases heq
      have ih := length_of_nextLine hnext
      simp only [List.length_cons]
      omega

/-! ## Go -/

namespace Go

inductive ReadError where
  | eof
  | streamTooLarge
  | eventTooLarge
  deriving DecidableEq

/-- How a fragment ends: at a line feed, with the buffer full, or with the body. -/
inductive Ending where
  | line | full | eof
  deriving DecidableEq

structure Slice where
  fragment : Bytes
  ending   : Ending
  rest     : Bytes

def bufferSize : Nat := 4096

/-- `bufio.Reader.ReadSlice('\n')` on what is left of the body. -/
def readSlice (body : Bytes) : Slice :=
  match nextLine (body.take bufferSize) with
  | some (line, _) => ⟨line ++ [0x0A], .line, body.drop (line.length + 1)⟩
  | none => if bufferSize ≤ body.length then ⟨body.take bufferSize, .full, body.drop bufferSize⟩ else ⟨body, .eof, []⟩

structure Reader where
  body       : Bytes
  totalBytes : Nat

/-- `bytes.TrimSuffix(line, "\n")`. -/
def trimLF (line : Bytes) : Bytes := if line.getLast? = some 0x0A then line.dropLast else line

theorem rest_lt {body : Bytes} (h : (readSlice body).ending ≠ .eof) : (readSlice body).rest.length < body.length := by
  unfold readSlice at h ⊢
  split
  · rename_i line _ hnext
    have := length_of_nextLine hnext
    rw [List.length_take] at this
    rw [List.length_drop]
    omega
  · rename_i hnext
    rw [hnext] at h
    dsimp only at h
    split
    · rename_i hle
      unfold bufferSize at hle ⊢
      rw [List.length_drop]
      omega
    · rename_i hlt
      rw [if_neg hlt] at h
      exact absurd rfl h

variable (limits : Limits)

/-- `readLine`, with what it has read of the line. -/
def readLine (reader : Reader) (line : Bytes) : Except ReadError (Bytes × Reader) :=
  let slice := readSlice reader.body
  let totalBytes := reader.totalBytes + slice.fragment.length
  if limits.maxTotalBytes < totalBytes then .error .streamTooLarge
  else if (limits.maxEventBytes : Int) < line.length + slice.fragment.length - 2 then .error .eventTooLarge
  else if _h : slice.ending = .full then readLine ⟨slice.rest, totalBytes⟩ (line ++ slice.fragment)
  else if slice.ending = .line then .ok (trimCR (trimLF (line ++ slice.fragment)), ⟨slice.rest, totalBytes⟩)
  else .error .eof
termination_by reader.body.length
decreasing_by exact rest_lt (by rw [_h]; decide)

/-- The variables of `ReadEvent`. -/
structure EventState where
  eventType  : Bytes
  data       : Bytes
  hasData    : Bool
  eventBytes : Nat

def EventState.initial : EventState := ⟨[], [], false, 0⟩

inductive LineResult where
  | tooLarge
  | next (s : EventState)
  | event (event : Event)

def EventState.readField (s : EventState) (line : Bytes) : EventState :=
  if fieldOf line = ascii "data" then
    { s with data := (if s.hasData then s.data ++ [0x0A] else s.data) ++ valueOf line, hasData := true }
  else if fieldOf line = ascii "event" then { s with eventType := valueOf line }
  else s

/-- The body of the loop in `ReadEvent`, after the line is read. -/
def takeLine (s : EventState) (line : Bytes) : LineResult :=
  if line = [] then
    if s.hasData then .event ⟨s.eventType, s.data⟩ else .next { s with eventType := [], eventBytes := 0 }
  else if line.head? = some 0x3A then .next s
  else if limits.maxEventBytes < s.eventBytes + line.length then .tooLarge
  else .next ({ s with eventBytes := s.eventBytes + line.length }.readField line)

theorem readLine_lt {reader reader' : Reader} {line text : Bytes} (h : readLine limits reader line = .ok (text, reader')) :
    reader'.body.length < reader.body.length := by
  fun_induction readLine limits reader line with
  | case1 => cases h
  | case2 => cases h
  | case3 reader line slice totalBytes _ _ hfull ih =>
    exact Nat.lt_trans (ih h) (rest_lt (by rw [hfull]; decide))
  | case4 reader line slice totalBytes _ _ _ hline =>
    cases h
    exact rest_lt (by rw [hline]; decide)
  | case5 => cases h

/-- **`ReadEvent`**, from the middle of an event. -/
def readEvent (reader : Reader) (s : EventState) : Except ReadError (Event × Reader) :=
  match _h : readLine limits reader [] with
  | .error err => .error err
  | .ok (line, reader') =>
    match takeLine limits s line with
    | .tooLarge => .error .eventTooLarge
    | .event event => .ok (event, reader')
    | .next s' => readEvent reader' s'
termination_by reader.body.length
decreasing_by exact readLine_lt limits _h

theorem readEvent_lt {reader reader' : Reader} {s : EventState} {event : Event}
    (h : readEvent limits reader s = .ok (event, reader')) : reader'.body.length < reader.body.length := by
  fun_induction readEvent limits reader s with
  | case1 => cases h
  | case2 => cases h
  | case3 reader s line reader₁ hline event₁ htake =>
    cases h
    exact readLine_lt limits hline
  | case4 reader s line reader₁ hline s' htake ih => exact Nat.lt_trans (ih h) (readLine_lt limits hline)

/-- **The events of a body**: `ReadEvent` until it returns an error. -/
def readEvents (reader : Reader) : List Event × ReadError :=
  match _h : readEvent limits reader .initial with
  | .error err => ([], err)
  | .ok (event, reader') => (event :: (readEvents reader').1, (readEvents reader').2)
termination_by reader.body.length
decreasing_by exact readEvent_lt limits _h

end Go

/-! ## TypeScript -/

namespace TypeScript

structure Decoder where
  totalBytes : Nat
  pending    : Bytes
  eventBytes : Nat
  dataLines  : List Bytes
  eventType  : Bytes

def Decoder.initial : Decoder := ⟨0, [], 0, [], []⟩

/-- `#resetEvent`. -/
def Decoder.resetEvent (d : Decoder) : Decoder := { d with eventBytes := 0, dataLines := [], eventType := [] }

inductive LineResult where
  | tooLarge
  | next (d : Decoder)
  | event (event : Event) (d : Decoder)

/-- What a call of `feed` comes to: it wants more, it was stopped by `onEvent`, or it threw `BodyTooLargeError`. -/
inductive Outcome where
  | more (d : Decoder)
  | stopped (d : Decoder)
  | tooLarge

/-- The texts are `Buffer.toString('utf8')`, written in UTF-8 again. -/
def Decoder.readField (d : Decoder) (line : Bytes) : Decoder :=
  if decode (fieldOf line) = ascii "data" then { d with dataLines := d.dataLines ++ [decode (valueOf line)] }
  else if decode (fieldOf line) = ascii "event" then { d with eventType := decode (valueOf line) }
  else d

variable (limits : Limits)

/-- The bytes that a line may have without its terminator. -/
def maxLineBytes (line : Bytes) : Nat := limits.maxEventBytes + (if line.getLast? = some 0x0D then 0 else 1)

/-- The body of the loop in `feed`, after the line and its size are read. -/
def readLine (d : Decoder) (line : Bytes) : LineResult :=
  if line = [] then
    if d.dataLines = [] then .next d.resetEvent else .event ⟨d.eventType, joinLines d.dataLines⟩ d.resetEvent
  else if line.head? = some 0x3A then .next d
  else if limits.maxEventBytes < d.eventBytes + line.length then .tooLarge
  else .next ({ d with eventBytes := d.eventBytes + line.length }.readField line)

/-- The body of the loop in `feed`, for a line without its LF and the bytes after it. -/
def takeLine (d : Decoder) (line rest : Bytes) : LineResult :=
  if limits.maxTotalBytes < d.totalBytes + line.length + 1 then .tooLarge
  else if maxLineBytes limits line < (trimCR line).length then .tooLarge
  else readLine limits { d with totalBytes := d.totalBytes + line.length + 1, pending := rest } (trimCR line)

theorem pending_readField (d : Decoder) (line : Bytes) : (d.readField line).pending = d.pending := by
  unfold Decoder.readField
  split
  · rfl
  · split <;> rfl

theorem pending_readLine (d : Decoder) (line : Bytes) :
    (∀ d', readLine limits d line = .next d' → d'.pending = d.pending) ∧
      ∀ event d', readLine limits d line = .event event d' → d'.pending = d.pending := by
  unfold readLine
  split
  · split
    · exact ⟨fun _ h => (by cases h; rfl), fun _ _ h => (by cases h)⟩
    · exact ⟨fun _ h => (by cases h), fun _ _ h => (by cases h; rfl)⟩
  split
  · exact ⟨fun _ h => (by cases h; rfl), fun _ _ h => (by cases h)⟩
  split
  · exact ⟨fun _ h => (by cases h), fun _ _ h => (by cases h)⟩
  · exact ⟨fun _ h => (by cases h; exact pending_readField _ _), fun _ _ h => (by cases h)⟩

theorem pending_takeLine {d : Decoder} {line rest : Bytes} :
    (∀ d', takeLine limits d line rest = .next d' → d'.pending = rest) ∧
      ∀ event d', takeLine limits d line rest = .event event d' → d'.pending = rest := by
  unfold takeLine
  split
  · exact ⟨fun _ h => (by cases h), fun _ _ h => (by cases h)⟩
  split
  · exact ⟨fun _ h => (by cases h), fun _ _ h => (by cases h)⟩
  · exact pending_readLine limits _ _

variable (onEvent : Event → Bool)

/-- The loop of `feed`: the events it hands to `onEvent`, and what it comes to. -/
def drain (d : Decoder) : List Event × Outcome :=
  match _h : nextLine d.pending with
  | none =>
    if limits.maxTotalBytes < d.totalBytes + d.pending.length then ([], .tooLarge)
    else if limits.maxEventBytes + 2 < d.pending.length then ([], .tooLarge)
    else ([], .more d)
  | some (line, rest) =>
    match _h' : takeLine limits d line rest with
    | .tooLarge => ([], .tooLarge)
    | .next d' => drain d'
    | .event event d' => if onEvent event then (event :: (drain d').1, (drain d').2) else ([event], .stopped d')
termination_by d.pending.length
decreasing_by
  · have := length_of_nextLine _h
    rw [(pending_takeLine limits).1 _ _h']
    omega
  · have := length_of_nextLine _h
    rw [(pending_takeLine limits).2 _ _ _h']
    omega

/-- The bytes of a chunk after those that are pending. -/
def Decoder.push (d : Decoder) (chunk : Bytes) : Decoder := { d with pending := d.pending ++ chunk }

/-- **`feed`.** -/
def feed (d : Decoder) (chunk : Bytes) : List Event × Outcome := drain limits onEvent (d.push chunk)

/-- **A stream fed in chunks**, up to the first call that is stopped or throws. -/
def feedChunks (d : Decoder) : List Bytes → List Event × Outcome
  | [] => ([], .more d)
  | chunk :: chunks =>
    match feed limits onEvent d chunk with
    | (events, .more d') => (events ++ (feedChunks d' chunks).1, (feedChunks d' chunks).2)
    | (events, outcome) => (events, outcome)

end TypeScript

end EventStream
end Dex
