import DexConnectors.EventStreamModel
/-!
# EventStreamChunks — chunks do not matter, and the two readers agree

`drain_push` is what a chunk after others does: the loop of `feed` on more bytes goes on where it was.  `readLine_spec` is
the Go line reader without its buffer.  Together: however a valid stream is cut, the decoder gives the events of the Go reader
and then a limit error exactly when that one does (`chunks_agree`).
-/
namespace Dex
namespace EventStream

open Lib Lib.Utf8

/-! ## Lines -/

theorem nextLine_some : ∀ {bs line rest : Bytes}, nextLine bs = some (line, rest) → bs = line ++ 0x0A :: rest
  | b :: bs, line, rest, h => by
    rw [nextLine] at h
    split at h
    · rename_i hb
      cases h
      rw [hb]
      rfl
    · obtain ⟨⟨line', rest'⟩, hnext, heq⟩ := Option.map_eq_some_iff.1 h
      cases heq
      rw [nextLine_some hnext]
      rfl

theorem nextLine_append : ∀ {a line rest : Bytes}, nextLine a = some (line, rest) → ∀ b,
    nextLine (a ++ b) = some (line, rest ++ b)
  | x :: a, line, rest, h, b => by
    rw [nextLine] at h
    rw [List.cons_append, nextLine]
    split at h
    · rename_i hx
      cases h
      rw [if_pos hx]
    · rename_i hx
      obtain ⟨⟨line', rest'⟩, hnext, heq⟩ := Option.map_eq_some_iff.1 h
      cases heq
      rw [if_neg hx, nextLine_append hnext b]
      rfl

theorem nextLine_append_of_none : ∀ {a : Bytes}, nextLine a = none → ∀ b,
    nextLine (a ++ b) = (nextLine b).map (fun p => (a ++ p.1, p.2))
  | [], _, b => by cases h : nextLine b <;> simp [h]
  | x :: a, h, b => by
    rw [nextLine] at h
    split at h
    · cases h
    · rename_i hx
      rw [List.cons_append, nextLine, if_neg hx, nextLine_append_of_none (Option.map_eq_none_iff.1 h) b, Option.map_map]
      rfl

theorem length_trimCR (line : Bytes) :
    (trimCR line).length = line.length - (if line.getLast? = some 0x0D then 1 else 0) := by
  unfold trimCR
  split
  · rw [List.length_dropLast]
  · rfl

/-! ## A chunk after others -/

namespace TypeScript

variable (limits : Limits)

/-- The loop of `feed` with an `onEvent` that never stops it. -/
abbrev drainAll (d : Decoder) : List Event × Outcome := drain limits (fun _ => true) d

theorem drain_of_none {d : Decoder} (h : nextLine d.pending = none) :
    drainAll limits d =
      if limits.maxTotalBytes < d.totalBytes + d.pending.length then ([], .tooLarge)
      else if limits.maxEventBytes + 2 < d.pending.length then ([], .tooLarge)
      else ([], .more d) := by
  unfold drainAll
  rw [drain]
  split
  · rfl
  · rename_i hsome
    rw [h] at hsome
    cases hsome

theorem drain_of_some {d : Decoder} {line rest : Bytes} (h : nextLine d.pending = some (line, rest)) :
    drainAll limits d =
      match takeLine limits d line rest with
      | .tooLarge => ([], .tooLarge)
      | .next d' => drainAll limits d'
      | .event event d' => (event :: (drainAll limits d').1, (drainAll limits d').2) := by
  unfold drainAll
  rw [drain]
  split
  · rename_i hnone
    rw [h] at hnone
    cases hnone
  · rename_i line' rest' hsome
    rw [h] at hsome
    cases hsome
    cases takeLine limits d line rest <;> rfl

/-- The decoder that a line leaves, given a chunk. -/
def LineResult.push (chunk : Bytes) : LineResult → LineResult
  | .tooLarge => .tooLarge
  | .next d => .next (d.push chunk)
  | .event e d => .event e (d.push chunk)

theorem readField_push (d : Decoder) (line chunk : Bytes) :
    (d.push chunk).readField line = (d.readField line).push chunk := by
  unfold Decoder.readField
  split
  · rfl
  · split <;> rfl

theorem readLine_push (d : Decoder) (line chunk : Bytes) :
    readLine limits (d.push chunk) line = (readLine limits d line).push chunk := by
  unfold readLine
  by_cases hnil : line = []
  · rw [if_pos hnil, if_pos hnil]
    by_cases hdata : d.dataLines = []
    · rw [if_pos hdata, if_pos (show (d.push chunk).dataLines = [] from hdata)]
      rfl
    · rw [if_neg hdata, if_neg (show ¬(d.push chunk).dataLines = [] from hdata)]
      rfl
  rw [if_neg hnil, if_neg hnil]
  by_cases hcomment : line.head? = some 0x3A
  · rw [if_pos hcomment, if_pos hcomment]
    rfl
  rw [if_neg hcomment, if_neg hcomment]
  by_cases hlarge : limits.maxEventBytes < d.eventBytes + line.length
  · rw [if_pos hlarge, if_pos (show limits.maxEventBytes < (d.push chunk).eventBytes + line.length from hlarge)]
    rfl
  rw [if_neg hlarge, if_neg (show ¬limits.maxEventBytes < (d.push chunk).eventBytes + line.length from hlarge)]
  exact congrArg LineResult.next (readField_push { d with eventBytes := d.eventBytes + line.length } line chunk)

theorem takeLine_push (d : Decoder) (line rest chunk : Bytes) :
    takeLine limits (d.push chunk) line (rest ++ chunk) = (takeLine limits d line rest).push chunk := by
  unfold takeLine
  by_cases htotal : limits.maxTotalBytes < d.totalBytes + line.length + 1
  · rw [if_pos htotal, if_pos (show limits.maxTotalBytes < (d.push chunk).totalBytes + line.length + 1 from htotal)]
    rfl
  rw [if_neg htotal, if_neg (show ¬limits.maxTotalBytes < (d.push chunk).totalBytes + line.length + 1 from htotal)]
  by_cases hline : maxLineBytes limits line < (trimCR line).length
  · rw [if_pos hline, if_pos hline]
    rfl
  rw [if_neg hline, if_neg hline]
  exact readLine_push limits { d with totalBytes := d.totalBytes + line.length + 1, pending := rest } (trimCR line) chunk

/-- A line that is too long stays too long however it ends. -/
theorem tooLong_of_part {part tail line : Bytes} (h : limits.maxEventBytes + 2 < part.length) (hline : line = part ++ tail) :
    maxLineBytes limits line < (trimCR line).length := by
  have hlength : part.length ≤ line.length := by
    rw [hline, List.length_append]
    omega
  rw [length_trimCR]
  unfold maxLineBytes
  split <;> omega

/-- **More bytes than the limits allow stay more.** -/
theorem drain_tooLarge {d : Decoder} (hnone : nextLine d.pending = none)
    (h : limits.maxTotalBytes < d.totalBytes + d.pending.length ∨ limits.maxEventBytes + 2 < d.pending.length) (chunk : Bytes) :
    drainAll limits (d.push chunk) = ([], .tooLarge) := by
  have happend := nextLine_append_of_none hnone chunk
  cases hnext : nextLine chunk with
  | none =>
    rw [hnext] at happend
    rw [drain_of_none limits (d := d.push chunk) happend]
    have hlength : (d.push chunk).pending.length = d.pending.length + chunk.length := List.length_append
    have htotal : (d.push chunk).totalBytes = d.totalBytes := rfl
    split
    · rfl
    · rw [if_pos (by omega)]
  | some p =>
    rw [hnext] at happend
    rw [drain_of_some limits (d := d.push chunk) happend]
    have htake : takeLine limits (d.push chunk) (d.pending ++ p.1) p.2 = .tooLarge := by
      unfold takeLine
      have htotal : (d.push chunk).totalBytes = d.totalBytes := rfl
      split
      · rfl
      · rename_i hle
        refine if_pos (@tooLong_of_part limits d.pending p.1 _ ?_ rfl)
        rw [htotal, List.length_append] at hle
        omega
    rw [htake]

/-- What the loop comes to on more bytes, from what it came to. -/
def andThen (r : List Event × Outcome) (chunk : Bytes) : List Event × Outcome :=
  match r.2 with
  | .more d => (r.1 ++ (drainAll limits (d.push chunk)).1, (drainAll limits (d.push chunk)).2)
  | .stopped d => (r.1, .stopped d)
  | .tooLarge => (r.1, .tooLarge)

theorem andThen_cons (event : Event) (r : List Event × Outcome) (chunk : Bytes) :
    andThen limits (event :: r.1, r.2) chunk =
      (event :: (andThen limits r chunk).1, (andThen limits r chunk).2) := by
  unfold andThen
  cases r.2 <;> rfl

/-- **Feeding goes on where it was.** -/
theorem drain_push (d : Decoder) (chunk : Bytes) :
    drainAll limits (d.push chunk) = andThen limits (drainAll limits d) chunk := by
  induction hn : d.pending.length using Nat.strongRecOn generalizing d with
  | _ n ih =>
    cases hnext : nextLine d.pending with
    | none =>
      rw [drain_of_none limits hnext]
      split
      · rename_i htotal
        exact drain_tooLarge limits hnext (.inl htotal) chunk
      split
      · rename_i hline
        exact drain_tooLarge limits hnext (.inr hline) chunk
      · rfl
    | some p =>
      obtain ⟨line, rest⟩ := p
      have hlength := length_of_nextLine hnext
      have hpush : nextLine (d.push chunk).pending = some (line, rest ++ chunk) := nextLine_append hnext chunk
      rw [drain_of_some limits hnext, drain_of_some limits hpush, takeLine_push]
      cases htake : takeLine limits d line rest with
      | tooLarge => rfl
      | next d' =>
        have hpending : d'.pending = rest := (pending_takeLine limits).1 d' htake
        exact ih d'.pending.length (by rw [hpending]; omega) d' rfl
      | event event d' =>
        have hpending : d'.pending = rest := (pending_takeLine limits).2 event d' htake
        have hd' := ih d'.pending.length (by rw [hpending]; omega) d' rfl
        dsimp only [LineResult.push]
        rw [hd', andThen_cons]

/-- The loop on what the loop left gives nothing more. -/
theorem drain_rest {d d' : Decoder} (h : (drainAll limits d).2 = .more d') : drainAll limits d' = ([], .more d') := by
  have hpush : ∀ d : Decoder, d.push [] = d := fun d => by
    unfold Decoder.push
    rw [List.append_nil]
  have hagain := drain_push limits d []
  unfold andThen at hagain
  rw [hpush, h] at hagain
  dsimp only at hagain
  rw [hpush] at hagain
  have hevents := congrArg Prod.fst hagain
  have houtcome := congrArg Prod.snd hagain
  rw [h] at houtcome
  exact Prod.ext (List.self_eq_append_right.1 hevents) houtcome.symm

/-- A stream fed in chunks, to an `onEvent` that never stops it. -/
abbrev feedAll (d : Decoder) (chunks : List Bytes) : List Event × Outcome := feedChunks limits (fun _ => true) d chunks

/-- **The chunks do not matter**, to a decoder with nothing left to do. -/
theorem feedAll_eq : ∀ (chunks : List Bytes) {d : Decoder}, drainAll limits d = ([], .more d) →
    feedAll limits d chunks = drainAll limits (d.push chunks.flatten)
  | [], d, hd => by
    rw [List.flatten_nil]
    unfold Decoder.push
    rw [List.append_nil, hd]
    rfl
  | chunk :: chunks, d, hd => by
    have hflatten : d.push (chunk :: chunks).flatten = (d.push chunk).push chunks.flatten := by
      unfold Decoder.push
      rw [List.flatten_cons, List.append_assoc]
    rw [hflatten, drain_push]
    unfold feedAll feedChunks feed
    rcases hchunk : drain limits (fun _ => true) (d.push chunk) with ⟨events, outcome⟩
    unfold andThen
    rw [show drainAll limits (d.push chunk) = (events, outcome) from hchunk]
    cases outcome with
    | more d' =>
      have hrest : drainAll limits d' = ([], .more d') := drain_rest limits (d := d.push chunk) (congrArg Prod.snd hchunk)
      have ih := feedAll_eq chunks hrest
      dsimp only
      rw [← ih]
    | stopped d' => rfl
    | tooLarge => rfl

theorem drain_initial : drainAll limits .initial = ([], .more .initial) := by
  rw [drain_of_none limits rfl]
  exact (if_neg (Nat.not_lt_zero _)).trans (if_neg (Nat.not_lt_zero _))

end TypeScript

/-! ## The Go reader without its buffer -/

namespace Go

/-- The bytes of the first line with its LF, or of all there is. -/
def lineBytes (body : Bytes) : Nat :=
  match nextLine body with
  | some (raw, _) => raw.length + 1
  | none => body.length

theorem readSlice_cases (body : Bytes) :
    (∃ raw rest, nextLine body = some (raw, rest) ∧ readSlice body = ⟨raw ++ [0x0A], .line, rest⟩) ∨
      (∃ part rest, nextLine part = none ∧ body = part ++ rest ∧ part ≠ [] ∧ readSlice body = ⟨part, .full, rest⟩) ∨
      (nextLine body = none ∧ readSlice body = ⟨body, .eof, []⟩) := by
  have hbody := List.take_append_drop bufferSize body
  unfold readSlice
  cases hnext : nextLine (body.take bufferSize) with
  | some p =>
    obtain ⟨raw, rest⟩ := p
    have hwhole := nextLine_append hnext (body.drop bufferSize)
    rw [hbody] at hwhole
    have hdrop : body.drop (raw.length + 1) = rest ++ body.drop bufferSize := by
      conv => lhs; rw [nextLine_some hwhole]
      rw [← List.singleton_append, ← List.append_assoc]
      exact List.drop_left' (by rw [List.length_append]; rfl)
    refine .inl ⟨raw, rest ++ body.drop bufferSize, hwhole, ?_⟩
    dsimp only
    rw [hdrop]
  | none =>
    refine .inr ?_
    dsimp only
    split
    · rename_i hle
      refine .inl ⟨_, _, hnext, hbody.symm, ?_, rfl⟩
      intro hnil
      have hlength := congrArg List.length hnil
      rw [List.length_take, List.length_nil] at hlength
      unfold bufferSize at hle hlength
      omega
    · rename_i hlt
      rw [List.take_of_length_le (Nat.le_of_not_le hlt)] at hnext
      exact .inr ⟨hnext, rfl⟩

theorem lineBytes_append {part : Bytes} (h : nextLine part = none) (rest : Bytes) :
    lineBytes (part ++ rest) = part.length + lineBytes rest := by
  unfold lineBytes
  rw [nextLine_append_of_none h]
  cases nextLine rest with
  | none => exact List.length_append
  | some p =>
    show (part ++ p.1).length + 1 = part.length + (p.1.length + 1)
    rw [List.length_append, Nat.add_assoc]

theorem trimLF_line (line : Bytes) : trimLF (line ++ [0x0A]) = line := by
  unfold trimLF
  rw [if_pos List.getLast?_concat, List.dropLast_concat]

variable (limits : Limits)

/-- The bytes of a stream and of a line that the limits allow. -/
def Fits (totalBytes lineBytes : Nat) : Prop := totalBytes ≤ limits.maxTotalBytes ∧ lineBytes ≤ limits.maxEventBytes + 2

/-- What `readLine` gives when the line fits. -/
def lineResult (reader : Reader) (line : Bytes) : Except ReadError (Bytes × Reader) :=
  match nextLine reader.body with
  | some (raw, rest) => .ok (trimCR (line ++ raw), ⟨rest, reader.totalBytes + lineBytes reader.body⟩)
  | none => .error .eof

theorem readLine_unfold (reader : Reader) (line : Bytes) :
    readLine limits reader line =
      if limits.maxTotalBytes < reader.totalBytes + (readSlice reader.body).fragment.length then .error .streamTooLarge
      else if limits.maxEventBytes + 2 < line.length + (readSlice reader.body).fragment.length then .error .eventTooLarge
      else match (readSlice reader.body).ending with
        | .full => readLine limits
            ⟨(readSlice reader.body).rest, reader.totalBytes + (readSlice reader.body).fragment.length⟩
            (line ++ (readSlice reader.body).fragment)
        | .line => .ok (trimCR (trimLF (line ++ (readSlice reader.body).fragment)),
            ⟨(readSlice reader.body).rest, reader.totalBytes + (readSlice reader.body).fragment.length⟩)
        | .eof => .error .eof := by
  rw [readLine]
  have hint : (limits.maxEventBytes : Int) < line.length + (readSlice reader.body).fragment.length - 2 ↔
      limits.maxEventBytes + 2 < line.length + (readSlice reader.body).fragment.length := by omega
  simp only [hint]
  cases (readSlice reader.body).ending <;> rfl

/-- **`readLine` gives the next line**, unless the bytes up to its end do not fit. -/
theorem readLine_spec (reader : Reader) (line : Bytes) :
    (Fits limits (reader.totalBytes + lineBytes reader.body) (line.length + lineBytes reader.body) →
        readLine limits reader line = lineResult reader line) ∧
      (¬Fits limits (reader.totalBytes + lineBytes reader.body) (line.length + lineBytes reader.body) →
        ∃ err, err ≠ .eof ∧ readLine limits reader line = .error err) := by
  induction hn : reader.body.length using Nat.strongRecOn generalizing reader line with
  | _ n ih =>
    rw [readLine_unfold]
    rcases readSlice_cases reader.body with ⟨raw, rest, hnext, hslice⟩ | ⟨part, rest, hpart, hbody, hne, hslice⟩ | ⟨hnext, hslice⟩
    · have hbytes : lineBytes reader.body = (raw ++ [0x0A]).length := by
        unfold lineBytes
        rw [hnext, List.length_append]
        rfl
      rw [hslice, hbytes]
      unfold Fits
      dsimp only
      split
      · exact ⟨fun h => absurd h.1 (by omega), fun _ => ⟨_, by decide, rfl⟩⟩
      split
      · exact ⟨fun h => absurd h.2 (by omega), fun _ => ⟨_, by decide, rfl⟩⟩
      · refine ⟨fun _ => ?_, fun h => absurd ⟨by omega, by omega⟩ h⟩
        unfold lineResult
        rw [hnext, hbytes, ← List.append_assoc, trimLF_line]
    · have hbytes : lineBytes reader.body = part.length + lineBytes rest := by
        rw [hbody, lineBytes_append hpart]
      have hshorter : rest.length < n := by
        rw [← hn, hbody, List.length_append]
        have := List.length_pos_iff.2 hne
        omega
      have hrest := ih rest.length hshorter ⟨rest, reader.totalBytes + part.length⟩ (line ++ part) rfl
      have hresult : lineResult ⟨rest, reader.totalBytes + part.length⟩ (line ++ part) = lineResult reader line := by
        unfold lineResult
        rw [hbytes, hbody, nextLine_append_of_none hpart]
        cases nextLine rest with
        | none => rfl
        | some p =>
          show Except.ok (trimCR (line ++ part ++ p.1), _) = Except.ok (trimCR (line ++ (part ++ p.1)), _)
          rw [List.append_assoc, Nat.add_assoc]
      rw [hresult, List.length_append, Nat.add_assoc, Nat.add_assoc, ← hbytes] at hrest
      rw [hslice]
      dsimp only
      split
      · exact ⟨fun h => absurd h.1 (by omega), fun _ => ⟨_, by decide, rfl⟩⟩
      split
      · exact ⟨fun h => absurd h.2 (by omega), fun _ => ⟨_, by decide, rfl⟩⟩
      · exact hrest
    · have hbytes : lineBytes reader.body = reader.body.length := by
        unfold lineBytes
        rw [hnext]
      rw [hslice, hbytes]
      unfold Fits
      dsimp only
      split
      · exact ⟨fun h => absurd h.1 (by omega), fun _ => ⟨_, by decide, rfl⟩⟩
      split
      · exact ⟨fun h => absurd h.2 (by omega), fun _ => ⟨_, by decide, rfl⟩⟩
      · refine ⟨fun _ => ?_, fun h => absurd ⟨by omega, by omega⟩ h⟩
        unfold lineResult
        rw [hnext]

/-- The events from the middle of an event on. -/
def eventsFrom (reader : Reader) (s : EventState) : List Event × ReadError :=
  match readEvent limits reader s with
  | .error err => ([], err)
  | .ok (event, reader') => (event :: (readEvents limits reader').1, (readEvents limits reader').2)

theorem readEvents_eq (reader : Reader) : readEvents limits reader = eventsFrom limits reader .initial := by
  rw [readEvents]
  unfold eventsFrom
  split <;> (rename_i hread; rw [hread])

theorem eventsFrom_error {reader : Reader} {err : ReadError} (h : readLine limits reader [] = .error err) (s : EventState) :
    eventsFrom limits reader s = ([], err) := by
  unfold eventsFrom
  rw [readEvent]
  split
  · rename_i err' herr
    rw [h] at herr
    cases herr
    rfl
  · rename_i hok
    rw [h] at hok
    cases hok

theorem eventsFrom_ok {reader reader' : Reader} {line : Bytes} (h : readLine limits reader [] = .ok (line, reader'))
    (s : EventState) :
    eventsFrom limits reader s =
      match takeLine limits s line with
      | .tooLarge => ([], .eventTooLarge)
      | .event event => (event :: (eventsFrom limits reader' .initial).1, (eventsFrom limits reader' .initial).2)
      | .next s' => eventsFrom limits reader' s' := by
  have hevent : readEvent limits reader s =
      match takeLine limits s line with
      | .tooLarge => .error .eventTooLarge
      | .event event => .ok (event, reader')
      | .next s' => readEvent limits reader' s' := by
    rw [readEvent]
    split
    · rename_i herr
      rw [h] at herr
      cases herr
    · rename_i hok
      rw [h] at hok
      cases hok
      rfl
  have hfrom : eventsFrom limits reader s =
      match readEvent limits reader s with
      | .error err => ([], err)
      | .ok (event, reader') => (event :: (readEvents limits reader').1, (readEvents limits reader').2) := rfl
  rw [hfrom, hevent]
  cases takeLine limits s line with
  | tooLarge => rfl
  | event event =>
    dsimp only
    rw [readEvents_eq]
  | next s' => rfl

end Go

/-! ## Lines and fields of a valid stream -/

theorem isValid_nextLine {bs line rest : Bytes} (h : nextLine bs = some (line, rest)) (hvalid : isValid bs = true) :
    isValid line = true ∧ isValid rest = true := by
  rw [nextLine_some h] at hvalid
  exact isValid_cut (by decide) hvalid

theorem isValid_trimCR {line : Bytes} (hvalid : isValid line = true) : isValid (trimCR line) = true := by
  unfold trimCR
  split
  · rename_i hlast
    rw [← List.dropLast_append_getLast? _ hlast] at hvalid
    exact (isValid_cut (by decide) hvalid).1
  · exact hvalid

theorem field_cases (line : Bytes) :
    (fieldOf line = line ∧ valueOf line = []) ∨
      ∃ tail, line = fieldOf line ++ 0x3A :: tail ∧ (valueOf line = tail ∨ tail = 0x20 :: valueOf line) := by
  have hsplit := List.takeWhile_append_dropWhile (p := fun (b : UInt8) => b != 0x3A) (l := line)
  unfold fieldOf valueOf
  cases hdrop : line.dropWhile (· != 0x3A) with
  | nil =>
    rw [hdrop, List.append_nil] at hsplit
    exact .inl ⟨hsplit, rfl⟩
  | cons b tail =>
    have hcolon : b = 0x3A := by
      have hhead := List.head?_dropWhile_not (fun (b : UInt8) => b != 0x3A) line
      rw [hdrop] at hhead
      simpa using hhead
    rw [hdrop, hcolon] at hsplit
    refine .inr ⟨tail, hsplit.symm, ?_⟩
    rw [List.drop_succ_cons, List.drop_zero]
    split
    · exact .inr rfl
    · exact .inl rfl

theorem isValid_field {line : Bytes} (hvalid : isValid line = true) :
    isValid (fieldOf line) = true ∧ isValid (valueOf line) = true := by
  rcases field_cases line with ⟨hfield, hvalue⟩ | ⟨tail, hline, hvalue⟩
  · rw [hfield, hvalue]
    exact ⟨hvalid, rfl⟩
  · rw [hline] at hvalid
    obtain ⟨hfield, htail⟩ := isValid_cut (by decide) hvalid
    refine ⟨hfield, ?_⟩
    rcases hvalue with hvalue | hvalue
    · rw [hvalue]
      exact htail
    · rw [hvalue] at htail
      exact (isValid_cut (a := []) (by decide) htail).2

theorem joinLines_concat : ∀ (lines : List Bytes) (value : Bytes),
    joinLines (lines ++ [value]) = (if lines = [] then [] else joinLines lines ++ [0x0A]) ++ value
  | [], _ => by simp [joinLines, List.intercalate]
  | [line], value => by simp [joinLines, List.intercalate]
  | line :: line' :: lines, value => by
    have ih := joinLines_concat (line' :: lines) value
    rw [if_neg (List.cons_ne_nil _ _)] at ih ⊢
    have hcons : ∀ lines : List Bytes, joinLines (line :: line' :: lines) = line ++ 0x0A :: joinLines (line' :: lines) :=
      fun lines => by simp [joinLines, List.intercalate]
    rw [List.cons_append, List.cons_append, hcons, ← List.cons_append, ih, hcons]
    simp

/-! ## The two together -/

/-- The state of an event in the two readers. -/
structure SameEvent (s : Go.EventState) (d : TypeScript.Decoder) : Prop where
  eventType  : s.eventType = d.eventType
  data       : s.data = joinLines d.dataLines
  hasData    : s.hasData = true ↔ d.dataLines ≠ []
  eventBytes : s.eventBytes = d.eventBytes

theorem sameEvent_reset (d : TypeScript.Decoder) : SameEvent .initial d.resetEvent :=
  ⟨rfl, rfl, ⟨fun h => (by cases h), fun h => absurd rfl h⟩, rfl⟩

theorem SameEvent.readField {s : Go.EventState} {d : TypeScript.Decoder} (h : SameEvent s d) {line : Bytes}
    (hvalid : isValid line = true) : SameEvent (s.readField line) (d.readField line) := by
  obtain ⟨hfield, hvalue⟩ := isValid_field hvalid
  unfold Go.EventState.readField TypeScript.Decoder.readField
  rw [decode_of_isValid _ hfield, decode_of_isValid _ hvalue]
  by_cases hdata : fieldOf line = ascii "data"
  · rw [if_pos hdata, if_pos hdata]
    refine ⟨h.eventType, ?_, ⟨fun _ => by simp, fun _ => rfl⟩, h.eventBytes⟩
    rw [joinLines_concat]
    by_cases hlines : d.dataLines = []
    · have hhas : s.hasData = false := Bool.eq_false_iff.2 (fun hhas => h.hasData.1 hhas hlines)
      have hnil : s.data = [] := by
        rw [h.data, hlines]
        rfl
      show (if s.hasData = true then s.data ++ [0x0A] else s.data) ++ valueOf line = _
      rw [if_pos hlines, hhas, if_neg (by decide), hnil]
    · show (if s.hasData = true then s.data ++ [0x0A] else s.data) ++ valueOf line = _
      rw [if_neg hlines, if_pos (h.hasData.2 hlines), h.data]
  · rw [if_neg hdata, if_neg hdata]
    by_cases hevent : fieldOf line = ascii "event"
    · rw [if_pos hevent, if_pos hevent]
      exact ⟨rfl, h.data, h.hasData, h.eventBytes⟩
    · rw [if_neg hevent, if_neg hevent]
      exact h

/-- What a line comes to in the two readers. -/
inductive SameResult (d : TypeScript.Decoder) : Go.LineResult → TypeScript.LineResult → Prop where
  | tooLarge : SameResult d .tooLarge .tooLarge
  | next {s d'} (h : SameEvent s d') (hpending : d'.pending = d.pending) (htotal : d'.totalBytes = d.totalBytes) :
      SameResult d (.next s) (.next d')
  | event {e d'} (h : SameEvent .initial d') (hpending : d'.pending = d.pending) (htotal : d'.totalBytes = d.totalBytes) :
      SameResult d (.event e) (.event e d')

theorem totalBytes_readField (d : TypeScript.Decoder) (line : Bytes) : (d.readField line).totalBytes = d.totalBytes := by
  unfold TypeScript.Decoder.readField
  split
  · rfl
  · split <;> rfl

variable (limits : Limits)

/-- **A line of valid text does the same in both.** -/
theorem SameEvent.takeLine {s : Go.EventState} {d : TypeScript.Decoder} (h : SameEvent s d) {line : Bytes}
    (hvalid : isValid line = true) : SameResult d (Go.takeLine limits s line) (TypeScript.readLine limits d line) := by
  unfold Go.takeLine TypeScript.readLine
  by_cases hnil : line = []
  · rw [if_pos hnil, if_pos hnil]
    by_cases hlines : d.dataLines = []
    · have hhas : s.hasData = false := Bool.eq_false_iff.2 (fun hhas => h.hasData.1 hhas hlines)
      rw [if_pos hlines, if_neg (by rw [hhas]; decide)]
      refine .next ⟨rfl, ?_, ⟨fun hh => absurd (hhas.symm.trans hh) (by decide), fun hh => absurd rfl hh⟩, rfl⟩ rfl rfl
      show s.data = _
      rw [h.data, hlines]
      rfl
    · rw [if_neg hlines, if_pos (h.hasData.2 hlines), h.eventType, h.data]
      exact .event (sameEvent_reset d) rfl rfl
  rw [if_neg hnil, if_neg hnil]
  by_cases hcomment : line.head? = some 0x3A
  · rw [if_pos hcomment, if_pos hcomment]
    exact .next h rfl rfl
  rw [if_neg hcomment, if_neg hcomment, h.eventBytes]
  by_cases hlarge : limits.maxEventBytes < d.eventBytes + line.length
  · rw [if_pos hlarge, if_pos hlarge]
    exact .tooLarge
  rw [if_neg hlarge, if_neg hlarge]
  have hcounted : SameEvent { s with eventBytes := d.eventBytes + line.length } { d with eventBytes := d.eventBytes + line.length } :=
    ⟨h.eventType, h.data, h.hasData, rfl⟩
  exact .next (hcounted.readField hvalid) (TypeScript.pending_readField _ _) (totalBytes_readField _ _)

/-- The same events, and an error of a limit in one just when in the other. -/
def Agree (decoded : List Event × TypeScript.Outcome) (read : List Event × Go.ReadError) : Prop :=
  decoded.1 = read.1 ∧ (decoded.2 = .tooLarge ↔ read.2 ≠ .eof)

theorem tooLong_iff (line : Bytes) :
    TypeScript.maxLineBytes limits line < (trimCR line).length ↔ limits.maxEventBytes + 2 < line.length + 1 := by
  rw [length_trimCR]
  unfold TypeScript.maxLineBytes
  split <;> omega

/-- The loop of `feed` and the Go reader, on what they have not read. -/
theorem agree_rest {s : Go.EventState} {d : TypeScript.Decoder} (h : SameEvent s d) (hvalid : isValid d.pending = true) :
    Agree (TypeScript.drainAll limits d) (Go.eventsFrom limits ⟨d.pending, d.totalBytes⟩ s) := by
  induction hn : d.pending.length using Nat.strongRecOn generalizing s d with
  | _ n ih =>
    obtain ⟨hfits, htooLarge⟩ := Go.readLine_spec limits ⟨d.pending, d.totalBytes⟩ []
    unfold Go.lineResult at hfits
    unfold Go.Fits Go.lineBytes at hfits htooLarge
    cases hnext : nextLine d.pending with
    | none =>
      rw [TypeScript.drain_of_none limits hnext]
      simp only [hnext, List.length_nil, Nat.zero_add] at hfits htooLarge
      by_cases hsize : d.totalBytes + d.pending.length ≤ limits.maxTotalBytes ∧ d.pending.length ≤ limits.maxEventBytes + 2
      · rw [if_neg (by omega), if_neg (by omega), Go.eventsFrom_error limits (hfits hsize)]
        exact ⟨rfl, ⟨fun hmore => (by cases hmore), fun heof => absurd rfl heof⟩⟩
      · obtain ⟨err, herr, hread⟩ := htooLarge hsize
        rw [Go.eventsFrom_error limits hread]
        refine ⟨?_, ⟨fun _ => herr, fun _ => ?_⟩⟩
        all_goals
          split
          · rfl
          · rw [if_pos (by omega)]
    | some p =>
      obtain ⟨raw, rest⟩ := p
      have hlength := length_of_nextLine hnext
      obtain ⟨hraw, hrest⟩ := isValid_nextLine hnext hvalid
      simp only [hnext, List.length_nil, Nat.zero_add, List.nil_append] at hfits htooLarge
      rw [TypeScript.drain_of_some limits hnext]
      unfold TypeScript.takeLine
      by_cases hsize : d.totalBytes + (raw.length + 1) ≤ limits.maxTotalBytes ∧ raw.length + 1 ≤ limits.maxEventBytes + 2
      · rw [if_neg (by omega), if_neg (by rw [tooLong_iff]; omega), Go.eventsFrom_ok limits (hfits hsize)]
        have hsame : SameEvent s { d with totalBytes := d.totalBytes + raw.length + 1, pending := rest } :=
          ⟨h.eventType, h.data, h.hasData, h.eventBytes⟩
        have hresult := hsame.takeLine limits (isValid_trimCR hraw)
        generalize Go.takeLine limits s (trimCR raw) = g at hresult ⊢
        generalize TypeScript.readLine limits _ (trimCR raw) = t at hresult ⊢
        cases hresult with
        | tooLarge => exact ⟨rfl, ⟨fun _ => show Go.ReadError.eventTooLarge ≠ .eof by decide, fun _ => rfl⟩⟩
        | next hevent hpending htotal =>
          have hagree := ih _ (by rw [hpending]; dsimp only; omega) hevent (by rw [hpending]; exact hrest) rfl
          rw [hpending, htotal] at hagree
          exact hagree
        | event hreset hpending htotal =>
          have hagree := ih _ (by rw [hpending]; dsimp only; omega) hreset (by rw [hpending]; exact hrest) rfl
          rw [hpending, htotal] at hagree
          exact ⟨congrArg (List.cons _) hagree.1, hagree.2⟩
      · obtain ⟨err, herr, hread⟩ := htooLarge hsize
        have htake : (if limits.maxTotalBytes < d.totalBytes + raw.length + 1 then TypeScript.LineResult.tooLarge
            else if TypeScript.maxLineBytes limits raw < (trimCR raw).length then .tooLarge
            else TypeScript.readLine limits { d with totalBytes := d.totalBytes + raw.length + 1, pending := rest } (trimCR raw)) =
              .tooLarge := by
          split
          · rfl
          · exact if_pos ((tooLong_iff limits raw).2 (by omega))
        rw [Go.eventsFrom_error limits hread, htake]
        exact ⟨rfl, ⟨fun _ => herr, fun _ => rfl⟩⟩

/-- **However a valid stream is cut into chunks, the decoder gives the events of the whole and of the Go reader**, and runs
into a limit just when they do. -/
theorem chunks_agree (chunks : List Bytes) (hvalid : isValid chunks.flatten = true) :
    TypeScript.feedAll limits .initial chunks = TypeScript.feedAll limits .initial [chunks.flatten] ∧
      (TypeScript.feedAll limits .initial chunks).1 = (Go.readEvents limits ⟨chunks.flatten, 0⟩).1 ∧
      ((TypeScript.feedAll limits .initial chunks).2 = .tooLarge ↔ (Go.readEvents limits ⟨chunks.flatten, 0⟩).2 ≠ .eof) := by
  have hwhole := TypeScript.feedAll_eq limits chunks (TypeScript.drain_initial limits)
  have hone := TypeScript.feedAll_eq limits [chunks.flatten] (TypeScript.drain_initial limits)
  rw [List.flatten_singleton] at hone
  refine ⟨hwhole.trans hone.symm, ?_⟩
  rw [hwhole, Go.readEvents_eq]
  exact agree_rest limits (d := TypeScript.Decoder.initial.push chunks.flatten) 
    (sameEvent_reset (TypeScript.Decoder.initial.push chunks.flatten)) hvalid

/-- An event whose data is one character of two bytes, cut inside the character and inside a line terminator. -/
theorem chunks_agree_sample :
    let chunks := [ascii "data: " ++ [0xC3], [], [0xA9, 0x0D], [0x0A, 0x0D], [0x0A]]
    TypeScript.feedAll ⟨12, 8⟩ .initial chunks = TypeScript.feedAll ⟨12, 8⟩ .initial [chunks.flatten] ∧
      (TypeScript.feedAll ⟨12, 8⟩ .initial chunks).1 = (Go.readEvents ⟨12, 8⟩ ⟨chunks.flatten, 0⟩).1 ∧
      ((TypeScript.feedAll ⟨12, 8⟩ .initial chunks).2 = .tooLarge ↔ (Go.readEvents ⟨12, 8⟩ ⟨chunks.flatten, 0⟩).2 ≠ .eof) :=
  chunks_agree ⟨12, 8⟩ [ascii "data: " ++ [0xC3], [], [0xA9, 0x0D], [0x0A, 0x0D], [0x0A]] (by decide)

end EventStream
end Dex
