import DexConnectors.LibUtf8
import Mathlib.Data.List.TakeWhile
/-!
# LibURL — percent encoding, the parts of a URL, and its dot segments

`escape` writes the bytes of a value in a path; `percentDecode` reads them (`percentDecode_escape`).  `parse` takes a URL with
an authority apart; `URL.text` puts it together again (`parse_text`, `text_of_parse`).  `removeDots` is the removal of dot
segments of an absolute path: the segments of a path without them are left alone (`removeDots_eq`), and the segments of any
other path are fewer, or end in an empty one (`removeDots_dot`).
-/
namespace Lib
namespace URL

/-! ## Percent encoding -/

def upperHex (n : Nat) : Char := Char.ofNat (if n < 10 then 0x30 + n else 0x41 + n - 10)

def charOf (b : UInt8) : Char := Char.ofNat b.toNat

def percentByte (b : UInt8) : List Char := ['%', upperHex (b.toNat / 16), upperHex (b.toNat % 16)]

def escape (safe : UInt8 → Bool) (bs : Bytes) : List Char :=
  bs.flatMap (fun b => if safe b then [charOf b] else percentByte b)

/-- The bytes that need no escape anywhere. -/
def isUnreserved (b : UInt8) : Bool :=
  (0x30 ≤ b && b ≤ 0x39) || (0x41 ≤ b && b ≤ 0x5A) || (0x61 ≤ b && b ≤ 0x7A) || b == 0x2D || b == 0x2E || b == 0x5F || b == 0x7E

def hexValue (c : Char) : Option Nat :=
  if '0' ≤ c ∧ c ≤ '9' then some (c.toNat - 0x30)
  else if 'A' ≤ c ∧ c ≤ 'F' then some (c.toNat - 0x41 + 10)
  else if 'a' ≤ c ∧ c ≤ 'f' then some (c.toNat - 0x61 + 10)
  else none

/-- The bytes that a part of a URL stands for; `encode` is that of a character which is no escape. -/
def percentDecode (encode : Char → Bytes) : List Char → Bytes
  | '%' :: hi :: lo :: rest =>
    match hexValue hi, hexValue lo with
    | some h, some l => (h * 16 + l).toUInt8 :: percentDecode encode rest
    | _, _ => encode '%' ++ percentDecode encode (hi :: lo :: rest)
  | c :: rest => encode c ++ percentDecode encode rest
  | [] => []

/-- What an encoding of characters must do: an ASCII character is its byte. -/
def EncodesAscii (encode : Char → Bytes) : Prop := ∀ b : UInt8, b < 0x80 → encode (charOf b) = [b]

theorem percentDecode_percentByte (encode : Char → Bytes) (b : UInt8) (rest : List Char) :
    percentDecode encode (percentByte b ++ rest) = b :: percentDecode encode rest := by
  have hdigits : ∀ b : UInt8, hexValue (upperHex (b.toNat / 16)) = some (b.toNat / 16) ∧
      hexValue (upperHex (b.toNat % 16)) = some (b.toNat % 16) ∧ (b.toNat / 16 * 16 + b.toNat % 16).toUInt8 = b :=
    Utf8.forall_byte (by decide)
  obtain ⟨hhi, hlo, hbyte⟩ := hdigits b
  unfold percentByte
  simp only [List.cons_append, List.nil_append, percentDecode, hhi, hlo, hbyte]

theorem percentDecode_char (encode : Char → Bytes) {c : Char} (h : c ≠ '%') (rest : List Char) :
    percentDecode encode (c :: rest) = encode c ++ percentDecode encode rest := by
  rw [percentDecode.eq_def]
  split
  · rename_i heq
    cases heq
    exact absurd rfl h
  · rename_i heq
    cases heq
    rfl
  · rename_i heq
    cases heq

/-- **Decoding gives the escaped bytes.** -/
theorem percentDecode_escape {encode : Char → Bytes} (hencode : EncodesAscii encode) {safe : UInt8 → Bool}
    (hsafe : ∀ b, safe b = true → b < 0x80 ∧ b ≠ 0x25) : ∀ bs, percentDecode encode (escape safe bs) = bs
  | [] => rfl
  | b :: bs => by
    have ih := percentDecode_escape hencode hsafe bs
    unfold escape at ih ⊢
    rw [List.flatMap_cons]
    split
    · rename_i hb
      have hpercent : ∀ b : UInt8, b < 0x80 → charOf b = '%' → b = 0x25 := Utf8.forall_byte (by decide)
      obtain ⟨hascii, hne⟩ := hsafe b hb
      rw [List.singleton_append, percentDecode_char encode (fun heq => hne (hpercent b hascii heq)), hencode b hascii, ih]
      rfl
    · rw [percentDecode_percentByte, ih]

/-- The characters of an escaped value: safe ones, `%` and digits. -/
theorem mem_escape {safe : UInt8 → Bool} {bs : Bytes} {c : Char} (h : c ∈ escape safe bs) :
    ∃ b, (safe b = true ∧ c = charOf b) ∨ c ∈ percentByte b := by
  obtain ⟨b, _, hc⟩ := List.mem_flatMap.1 h
  split at hc
  · rename_i hb
    exact ⟨b, .inl ⟨hb, List.mem_singleton.1 hc⟩⟩
  · exact ⟨b, .inr hc⟩

/-! ## The parts of a URL -/

/-- A URL with an authority: its query and fragment are one suffix. -/
structure Parts where
  scheme    : List Char
  authority : List Char
  segments  : List (List Char)
  suffix    : List Char
  deriving DecidableEq

def endsAuthority (c : Char) : Bool := c == '/' || c == '?' || c == '#'

def endsPath (c : Char) : Bool := c == '?' || c == '#'

def Parts.path (u : Parts) : List Char := u.segments.flatMap ('/' :: ·)

def Parts.text (u : Parts) : List Char := u.scheme ++ "://".toList ++ u.authority ++ u.path ++ u.suffix

/-- The segments of a path that is empty or begins with `/`. -/
def segmentsOf : List Char → List (List Char)
  | [] => []
  | _ :: path => path.splitOn '/'

def parse (text : List Char) : Option Parts :=
  let scheme := text.takeWhile (fun c => !(c == ':' || endsAuthority c))
  match text.dropWhile (fun c => !(c == ':' || endsAuthority c)) with
  | ':' :: '/' :: '/' :: rest =>
    let afterAuthority := rest.dropWhile (fun c => !endsAuthority c)
    some {
      scheme := scheme
      authority := rest.takeWhile (fun c => !endsAuthority c)
      segments := segmentsOf (afterAuthority.takeWhile (fun c => !endsPath c))
      suffix := afterAuthority.dropWhile (fun c => !endsPath c)
    }
  | _ => none

/-- No part has a character that ends it. -/
structure Parts.WellFormed (u : Parts) : Prop where
  scheme    : ∀ c ∈ u.scheme, (c == ':' || endsAuthority c) = false
  authority : ∀ c ∈ u.authority, endsAuthority c = false
  segments  : ∀ segment ∈ u.segments, ∀ c ∈ segment, endsAuthority c = false
  suffix    : ∀ c ∈ u.suffix.head?, endsPath c = true

theorem mem_of_mem_splitOn {sep c : Char} : ∀ {text segment : List Char}, segment ∈ text.splitOn sep → c ∈ segment →
    c ∈ text ∧ c ≠ sep
  | [], segment, hsegment, hc => by
    rw [List.splitOn_nil, List.mem_singleton] at hsegment
    rw [hsegment] at hc
    cases hc
  | x :: text, segment, hsegment, hc => by
    rw [List.splitOn_cons_eq_if_modifyHead] at hsegment
    split at hsegment
    · rcases List.mem_cons.1 hsegment with rfl | hsegment
      · cases hc
      · exact (mem_of_mem_splitOn hsegment hc).imp_left (List.mem_cons_of_mem x)
    · rename_i hx
      obtain ⟨first, rest, hsplit⟩ := List.exists_cons_of_ne_nil (List.splitOn_ne_nil sep text)
      have hin : ∀ {segment}, segment ∈ first :: rest → c ∈ segment → c ∈ text ∧ c ≠ sep := by
        rw [← hsplit]
        exact mem_of_mem_splitOn
      rw [hsplit, List.modifyHead_cons] at hsegment
      rcases List.mem_cons.1 hsegment with rfl | hsegment
      · rcases List.mem_cons.1 hc with rfl | hc
        · exact ⟨List.mem_cons_self, fun heq => hx (by rw [heq]; exact beq_self_eq_true sep)⟩
        · exact (hin List.mem_cons_self hc).imp_left (List.mem_cons_of_mem x)
      · exact (hin (List.mem_cons_of_mem _ hsegment) hc).imp_left (List.mem_cons_of_mem x)

theorem flatMap_slash : ∀ {segments : List (List Char)}, segments ≠ [] →
    segments.flatMap ('/' :: ·) = '/' :: ['/'].intercalate segments
  | [], h => absurd rfl h
  | [segment], _ => by simp [List.intercalate]
  | segment :: next :: segments, _ => by
    have ih := flatMap_slash (List.cons_ne_nil next segments)
    rw [List.flatMap_cons, ih]
    simp [List.intercalate]

theorem segmentsOf_path {segments : List (List Char)} (h : ∀ segment ∈ segments, '/' ∉ segment) :
    segmentsOf (segments.flatMap ('/' :: ·)) = segments := by
  by_cases hnil : segments = []
  · rw [hnil]
    rfl
  · rw [flatMap_slash hnil]
    exact List.splitOn_intercalate '/' h hnil

theorem path_segmentsOf {path : List Char} (h : ∀ c ∈ path.head?, c = '/') : (segmentsOf path).flatMap ('/' :: ·) = path := by
  cases path with
  | nil => rfl
  | cons c path =>
    cases h c rfl
    show (path.splitOn '/').flatMap ('/' :: ·) = '/' :: path
    rw [flatMap_slash (List.splitOn_ne_nil '/' path), List.intercalate_splitOn]

theorem endsAuthority_of_endsPath {c : Char} (h : endsPath c = true) : endsAuthority c = true := by
  unfold endsPath at h
  unfold endsAuthority
  rw [Bool.or_assoc, h, Bool.or_true]

theorem head_path (segments : List (List Char)) : ∀ c ∈ (segments.flatMap ('/' :: ·)).head?, c = '/' := by
  cases segments with
  | nil => exact fun c hc => by cases hc
  | cons segment segments =>
    intro c hc
    cases hc
    rfl

/-- **A URL is parsed into the parts that it was made of.** -/
theorem parse_text {u : Parts} (h : u.WellFormed) : parse u.text = some u := by
  have hpathChars : ∀ c ∈ u.path, endsPath c = false := by
    intro c hc
    obtain ⟨segment, hsegment, hc⟩ := List.mem_flatMap.1 hc
    rcases List.mem_cons.1 hc with rfl | hc
    · rfl
    · have hnot := h.segments segment hsegment c hc
      by_contra hends
      rw [endsAuthority_of_endsPath (Bool.not_eq_false _ ▸ hends)] at hnot
      cases hnot
  have hpath := Utf8.takeWhile_append_stop (p := fun c => !endsPath c) (a := u.path) (b := u.suffix)
    (fun c hc => by rw [hpathChars c hc]; rfl) (fun c hc => by rw [h.suffix c hc]; rfl)
  have hafter : ∀ c ∈ (u.path ++ u.suffix).head?, (!endsAuthority c) = false := by
    intro c hc
    rw [List.head?_append] at hc
    rcases hhead : u.path.head? with _ | d
    · rw [hhead, Option.none_or] at hc
      rw [endsAuthority_of_endsPath (h.suffix c hc)]
      rfl
    · rw [hhead] at hc
      cases hc
      rw [head_path u.segments c hhead]
      rfl
  have hauthority := Utf8.takeWhile_append_stop (p := fun c => !endsAuthority c) (a := u.authority) (b := u.path ++ u.suffix)
    (fun c hc => by rw [h.authority c hc]; rfl) hafter
  have hscheme := Utf8.takeWhile_append_stop (p := fun c => !(c == ':' || endsAuthority c)) (a := u.scheme)
    (b := "://".toList ++ (u.authority ++ (u.path ++ u.suffix))) (fun c hc => by rw [h.scheme c hc]; rfl)
    (fun c hc => by cases hc; rfl)
  have htext : u.text = u.scheme ++ ("://".toList ++ (u.authority ++ (u.path ++ u.suffix))) := by
    unfold Parts.text
    simp only [List.append_assoc]
  unfold parse
  rw [htext, hscheme.1, hscheme.2]
  have hcolon : "://".toList ++ (u.authority ++ (u.path ++ u.suffix)) = ':' :: '/' :: '/' :: (u.authority ++ (u.path ++ u.suffix)) := rfl
  rw [hcolon]
  show some (Parts.mk _ _ _ _) = some u
  rw [hauthority.1, hauthority.2, hpath.1, hpath.2]
  unfold Parts.path
  rw [segmentsOf_path (fun segment hsegment hslash => absurd (h.segments segment hsegment _ hslash) (by decide))]

theorem head_dropWhile {p : Char → Bool} {text : List Char} : ∀ c ∈ (text.dropWhile p).head?, p c = false := by
  intro c hc
  have hnot := List.head?_dropWhile_not p text
  rw [hc] at hnot
  simpa using hnot

/-- **The parts of a URL make it up.** -/
theorem text_of_parse {text : List Char} {u : Parts} (h : parse text = some u) : u.text = text ∧ u.WellFormed := by
  unfold parse at h
  have hscheme := List.takeWhile_append_dropWhile (p := fun c => !(c == ':' || endsAuthority c)) (l := text)
  dsimp only at h
  split at h
  · rename_i rest hrest
    cases h
    have hauthority := List.takeWhile_append_dropWhile (p := fun c => !endsAuthority c) (l := rest)
    generalize hafter : rest.dropWhile (fun c => !endsAuthority c) = afterAuthority at hauthority ⊢
    have hpath := List.takeWhile_append_dropWhile (p := fun c => !endsPath c) (l := afterAuthority)
    have hslash : ∀ c ∈ (afterAuthority.takeWhile (fun c => !endsPath c)).head?, c = '/' := by
      intro c hc
      have hends : endsAuthority c = true := by
        have := @head_dropWhile (fun c => !endsAuthority c) rest c
          (by rw [hafter, ← hpath, List.head?_append, hc]; rfl)
        simpa using this
      have hnot : endsPath c = false := by
        simpa using List.mem_takeWhile_imp (List.mem_of_mem_head? hc)
      unfold endsAuthority at hends
      unfold endsPath at hnot
      rw [Bool.or_assoc, hnot, Bool.or_false] at hends
      exact eq_of_beq hends
    constructor
    · unfold Parts.text Parts.path
      rw [path_segmentsOf hslash]
      conv => rhs; rw [← hscheme, hrest]
      rw [List.append_assoc, hpath, List.append_assoc, hauthority, List.append_assoc]
      rfl
    · refine ⟨fun c hc => ?_, fun c hc => ?_, fun segment hsegment c hc => ?_, fun c hc => ?_⟩
      · simpa using List.mem_takeWhile_imp hc
      · simpa using List.mem_takeWhile_imp hc
      · cases hpathText : afterAuthority.takeWhile (fun c => !endsPath c) with
        | nil =>
          rw [hpathText] at hsegment
          cases hsegment
        | cons slash path =>
          rw [hpathText] at hsegment
          obtain ⟨hmem, hne⟩ := @mem_of_mem_splitOn '/' c path segment hsegment hc
          have hnot : endsPath c = false := by
            simpa using List.mem_takeWhile_imp (p := fun c => !endsPath c) (l := afterAuthority)
              (by rw [hpathText]; exact List.mem_cons_of_mem _ hmem)
          unfold endsPath at hnot
          unfold endsAuthority
          rw [Bool.or_assoc, hnot, Bool.or_false]
          exact beq_eq_false_iff_ne.2 hne
      · simpa using head_dropWhile c hc
  · cases h

/-! ## Dot segments -/

/-- The removal of dot segments, with the segments kept so far in reverse. -/
def removeDotsFrom (kept : List (List Char)) : List (List Char) → List (List Char)
  | [] => kept.reverse
  | [last] =>
    if last = ['.'] then ([] :: kept).reverse
    else if last = ['.', '.'] then ([] :: kept.tail).reverse
    else (last :: kept).reverse
  | segment :: segments =>
    if segment = ['.'] then removeDotsFrom kept segments
    else if segment = ['.', '.'] then removeDotsFrom kept.tail segments
    else removeDotsFrom (segment :: kept) segments

/-- The segments of an absolute path without its dot segments. -/
def removeDots (segments : List (List Char)) : List (List Char) := removeDotsFrom [] segments

def IsDot (segment : List Char) : Prop := segment = ['.'] ∨ segment = ['.', '.']

theorem removeDotsFrom_eq : ∀ (segments kept : List (List Char)), (∀ segment ∈ segments, ¬IsDot segment) →
    removeDotsFrom kept segments = kept.reverse ++ segments
  | [], kept, _ => (List.append_nil _).symm
  | [last], kept, h => by
    have hlast := not_or.1 (h last List.mem_cons_self)
    rw [removeDotsFrom, if_neg hlast.1, if_neg hlast.2, List.reverse_cons]
  | segment :: next :: segments, kept, h => by
    have hsegment := not_or.1 (h segment List.mem_cons_self)
    rw [removeDotsFrom, if_neg hsegment.1, if_neg hsegment.2,
      removeDotsFrom_eq (next :: segments) _ (fun s hs => h s (List.mem_cons_of_mem _ hs)), List.reverse_cons,
      List.append_assoc]
    · rfl
    · exact fun h => by cases h

/-- **A path without dot segments is left alone.** -/
theorem removeDots_eq {segments : List (List Char)} (h : ∀ segment ∈ segments, ¬IsDot segment) : removeDots segments = segments :=
  removeDotsFrom_eq segments [] h

theorem length_removeDotsFrom : ∀ (segments kept : List (List Char)),
    (removeDotsFrom kept segments).length ≤ kept.length + segments.length
  | [], kept => by simp [removeDotsFrom]
  | [last], kept => by
    rw [removeDotsFrom]
    split
    · simp
    split
    · simp
    · simp
  | segment :: next :: segments, kept => by
    rw [removeDotsFrom]
    · split
      · have := length_removeDotsFrom (next :: segments) kept
        simp only [List.length_cons] at this ⊢
        omega
      split
      · have := length_removeDotsFrom (next :: segments) kept.tail
        simp only [List.length_cons, List.length_tail] at this ⊢
        omega
      · have := length_removeDotsFrom (next :: segments) (segment :: kept)
        simp only [List.length_cons] at this ⊢
        omega
    · exact fun h => by cases h

theorem removeDotsFrom_dot : ∀ (segments kept : List (List Char)), (∃ segment ∈ segments, IsDot segment) →
    (removeDotsFrom kept segments).length < kept.length + segments.length ∨
      ((removeDotsFrom kept segments).getLast? = some [] ∧ ∃ last, segments.getLast? = some last ∧ IsDot last)
  | [], kept, h => by
    obtain ⟨_, hs, _⟩ := h
    cases hs
  | [last], kept, h => by
    obtain ⟨segment, hs, hdot⟩ := h
    cases List.mem_singleton.1 hs
    right
    rw [removeDotsFrom]
    refine ⟨?_, _, rfl, hdot⟩
    split
    · simp
    split
    · simp
    · rename_i hone htwo
      exact absurd hdot (not_or.2 ⟨hone, htwo⟩)
  | segment :: next :: segments, kept, h => by
    rw [removeDotsFrom]
    · split
      · left
        have := length_removeDotsFrom (next :: segments) kept
        simp only [List.length_cons] at this ⊢
        omega
      split
      · left
        have := length_removeDotsFrom (next :: segments) kept.tail
        simp only [List.length_cons, List.length_tail] at this ⊢
        omega
      · rename_i hone htwo
        have hrest : ∃ s ∈ next :: segments, IsDot s := by
          obtain ⟨s, hs, hdot⟩ := h
          rcases List.mem_cons.1 hs with rfl | hs
          · exact absurd hdot (not_or.2 ⟨hone, htwo⟩)
          · exact ⟨s, hs, hdot⟩
        rcases removeDotsFrom_dot (next :: segments) (segment :: kept) hrest with hlt | ⟨hempty, last, hlast, hdot⟩
        · left
          simp only [List.length_cons] at hlt ⊢
          omega
        · exact .inr ⟨hempty, last, by rw [List.getLast?_cons_cons]; exact hlast, hdot⟩
    · exact fun h => by cases h

/-- **A path with a dot segment loses one, or ends in an empty segment in its place.** -/
theorem removeDots_dot {segments : List (List Char)} (h : ∃ segment ∈ segments, IsDot segment) :
    (removeDots segments).length < segments.length ∨
      ((removeDots segments).getLast? = some [] ∧ ∃ last, segments.getLast? = some last ∧ IsDot last) := by
  have := removeDotsFrom_dot segments [] h
  rwa [List.length_nil, Nat.zero_add] at this

end URL
end Lib
