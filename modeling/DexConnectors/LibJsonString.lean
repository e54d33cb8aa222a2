import DexConnectors.LibUtf8
/-!
# LibJsonString — JSON string literals over bytes

The body of a literal is what stands between its quotes.  `quote` writes a byte string as a body the way an
HTML-escaping encoder does: quotes, backslashes and control characters escaped, `<`, `>`, `&`, U+2028 and U+2029 as
`\u` escapes, every byte that starts no UTF-8 sequence as `\ufffd`.  `unquote` reads a body back.  `escapeHTML` escapes
a body that is already written, as a compacting encoder does with embedded text.  `scanString` splits a text at the end
of the literal it stands in.

`unquote_quote`: reading back gives the repaired bytes.  `unquote_escapeHTML`: escaping a written body keeps its
meaning.
-/
namespace Lib
namespace Json

open Utf8

def isHex (b : UInt8) : Bool :=
  (0x30 ≤ b && b ≤ 0x39) || (0x41 ≤ b && b ≤ 0x46) || (0x61 ≤ b && b ≤ 0x66)

def hexValue (b : UInt8) : Nat :=
  if b ≤ 0x39 then b.toNat - 0x30 else if b ≤ 0x46 then b.toNat - 0x37 else b.toNat - 0x57

/-- The lower-case hexadecimal digit of a number below sixteen. -/
def hexDigit (n : UInt8) : UInt8 := if n < 10 then 0x30 + n else 0x57 + n

/-- The characters that may follow a backslash, `u` apart. -/
def isEscape (b : UInt8) : Bool :=
  b == 0x22 || b == 0x5C || b == 0x2F || b == 0x62 || b == 0x66 || b == 0x6E || b == 0x72 || b == 0x74

def unescape (b : UInt8) : UInt8 :=
  if b == 0x62 then 0x08 else if b == 0x66 then 0x0C else if b == 0x6E then 0x0A
  else if b == 0x72 then 0x0D else if b == 0x74 then 0x09 else b

/-- The UTF-8 encoding of a code point; surrogates and numbers past U+10FFFF become U+FFFD. -/
def encodeRune (r : Nat) : Bytes :=
  if r < 0x80 then [r.toUInt8]
  else if r < 0x800 then [(0xC0 + r / 64).toUInt8, (0x80 + r % 64).toUInt8]
  else if (0xD800 ≤ r ∧ r ≤ 0xDFFF) ∨ 0x10FFFF < r then replacement
  else if r < 0x10000 then
    [(0xE0 + r / 4096).toUInt8, (0x80 + r / 64 % 64).toUInt8, (0x80 + r % 64).toUInt8]
  else [(0xF0 + r / 262144).toUInt8, (0x80 + r / 4096 % 64).toUInt8, (0x80 + r / 64 % 64).toUInt8,
    (0x80 + r % 64).toUInt8]

def hex4 (a b c d : UInt8) : Nat := ((hexValue a * 16 + hexValue b) * 16 + hexValue c) * 16 + hexValue d

/-- The low surrogate written at the head. -/
def lowSurrogate : Bytes → Option Nat
  | s :: u :: w :: x :: y :: z :: _ =>
    if s = 0x5C ∧ u = 0x75 ∧ 0xDC00 ≤ hex4 w x y z ∧ hex4 w x y z < 0xE000 then some (hex4 w x y z) else none
  | _ => none

/-- What the `\u` escape after `u` denotes, and how many bytes it takes from `u` on.  A high surrogate joins a low one
that follows it at once. -/
def unicodeAt : Bytes → Bytes × Nat
  | w :: x :: y :: z :: rest =>
    if 0xD800 ≤ hex4 w x y z ∧ hex4 w x y z < 0xDC00 then
      match lowSurrogate rest with
      | some low => (encodeRune (0x10000 + (hex4 w x y z - 0xD800) * 1024 + (low - 0xDC00)), 11)
      | none => (replacement, 5)
    else (encodeRune (hex4 w x y z), 5)
  | rest => ([], rest.length + 1)

/-- What the escape after a backslash denotes, and how many bytes it takes. -/
def escapeAt : Bytes → Bytes × Nat
  | [] => ([], 0)
  | e :: rest => if e = 0x75 then unicodeAt rest else ([unescape e], 1)

/-- `unquote` with the bytes of the current sequence still to copy, or still to drop. -/
@[grind =]
def unquoteFrom : Nat → Nat → Bytes → Bytes
  | _, _, [] => []
  | copy, drop + 1, _ :: rest => unquoteFrom copy drop rest
  | copy + 1, 0, b :: rest => b :: unquoteFrom copy 0 rest
  | 0, 0, b :: rest =>
    if b = 0x5C then (escapeAt rest).1 ++ unquoteFrom 0 (escapeAt rest).2 rest
    else
      match seqLen (b :: rest) with
      | 0 => replacement ++ unquoteFrom 0 0 rest
      | n + 1 => b :: unquoteFrom n 0 rest

/-- **The string a body denotes.** -/
def unquote (body : Bytes) : Bytes := unquoteFrom 0 0 body

/-- The `\u` escape of a byte below 0x80. -/
def unicodeEscape (b : UInt8) : Bytes := [0x5C, 0x75, 0x30, 0x30, hexDigit (b >>> 4), hexDigit (b &&& 0x0F)]

def isHTML (b : UInt8) : Bool := b == 0x3C || b == 0x3E || b == 0x26

/-- U+2028 or U+2029 at the head. -/
def isLineSeparator (bs : Bytes) : Bool := bs.take 3 == [0xE2, 0x80, 0xA8] || bs.take 3 == [0xE2, 0x80, 0xA9]

/-- The escape of the line separator at the head. -/
def separatorEscape (bs : Bytes) : Bytes :=
  if bs.take 3 == [0xE2, 0x80, 0xA8] then ascii "\\u2028" else ascii "\\u2029"

def quoteByte (b : UInt8) : Bytes :=
  if b == 0x22 || b == 0x5C then [0x5C, b]
  else if b == 0x08 then [0x5C, 0x62]
  else if b == 0x0C then [0x5C, 0x66]
  else if b == 0x0A then [0x5C, 0x6E]
  else if b == 0x0D then [0x5C, 0x72]
  else if b == 0x09 then [0x5C, 0x74]
  else if b < 0x20 || isHTML b then unicodeEscape b
  else [b]

/-- `quote` with the bytes of the current sequence still to copy, or still to drop. -/
@[grind =]
def quoteFrom : Nat → Nat → Bytes → Bytes
  | _, _, [] => []
  | copy, drop + 1, _ :: rest => quoteFrom copy drop rest
  | copy + 1, 0, b :: rest => b :: quoteFrom copy 0 rest
  | 0, 0, b :: rest =>
    match seqLen (b :: rest) with
    | 0 => ascii "\\ufffd" ++ quoteFrom 0 0 rest
    | 1 => quoteByte b ++ quoteFrom 0 0 rest
    | n + 2 =>
      if isLineSeparator (b :: rest) then separatorEscape (b :: rest) ++ quoteFrom 0 2 rest
      else b :: quoteFrom (n + 1) 0 rest

def quote (bs : Bytes) : Bytes := quoteFrom 0 0 bs

@[grind =]
def escapeFrom : Nat → Bytes → Bytes
  | _, [] => []
  | drop + 1, _ :: rest => escapeFrom drop rest
  | 0, b :: rest =>
    if isHTML b then unicodeEscape b ++ escapeFrom 0 rest
    else if isLineSeparator (b :: rest) then separatorEscape (b :: rest) ++ escapeFrom 2 rest
    else b :: escapeFrom 0 rest

def escapeHTML (body : Bytes) : Bytes := escapeFrom 0 body

/-- The length of the escape after a backslash. -/
def escapeLen : Bytes → Option Nat
  | [] => none
  | e :: rest =>
    if e = 0x75 then
      match rest with
      | w :: x :: y :: z :: _ => if isHex w && isHex x && isHex y && isHex z then some 5 else none
      | _ => none
    else if isEscape e then some 1 else none

/-- `scanString` with the bytes of the current escape still to copy. -/
@[grind =]
def scanFrom : Nat → Bytes → Option (Bytes × Bytes)
  | _, [] => none
  | n + 1, b :: rest => (scanFrom n rest).map (fun p => (b :: p.1, p.2))
  | 0, b :: rest =>
    if b = 0x22 then some ([], rest)
    else if b = 0x5C then
      match escapeLen rest with
      | some n => (scanFrom n rest).map (fun p => (b :: p.1, p.2))
      | none => none
    else if b < 0x20 then none
    else (scanFrom 0 rest).map (fun p => (b :: p.1, p.2))

/-- The body up to the closing quote, and the text after it. -/
def scanString (bs : Bytes) : Option (Bytes × Bytes) := scanFrom 0 bs

/-! ## Reading back -/

theorem unquoteFrom_length (seq rest : Bytes) :
    unquoteFrom seq.length 0 (seq ++ rest) = seq ++ unquoteFrom 0 0 rest := by
  induction seq with
  | nil => rfl
  | cons b seq ih => simp only [List.length_cons, List.cons_append, unquoteFrom, ih]

@[simp] theorem unquote_nil : unquote [] = [] := rfl

theorem Seq.head_ne {b : UInt8} {seq : Bytes} (h : Seq (b :: seq)) (hne : b :: seq ≠ [0x5C]) : b ≠ 0x5C := by
  rintro rfl
  cases h with
  | one _ => exact hne rfl
  | two ha _ => exact ha (by decide)
  | three ha _ _ => exact ha (by decide)
  | four ha _ _ _ => exact ha (by decide)

theorem unquote_seq {seq : Bytes} (h : Seq seq) (hne : seq ≠ [0x5C]) (rest : Bytes) :
    unquote (seq ++ rest) = seq ++ unquote rest := by
  have hlen := seqLen_append h rest
  cases seq with
  | nil => cases h
  | cons b seq =>
    have hb := Seq.head_ne h hne
    simp only [List.cons_append, List.length_cons] at hlen ⊢
    unfold unquote
    simp only [unquoteFrom, if_neg hb, hlen, unquoteFrom_length]

theorem unquote_bad {b : UInt8} {rest : Bytes} (h : seqLen (b :: rest) = 0) :
    unquote (b :: rest) = replacement ++ unquote rest := by
  have hb : b ≠ 0x5C := by
    rintro rfl
    simp [seqLen] at h
  unfold unquote
  simp only [unquoteFrom, if_neg hb, h]

theorem unquote_escape {e : UInt8} (he : e ≠ 0x75) (rest : Bytes) :
    unquote (0x5C :: e :: rest) = unescape e :: unquote rest := by
  unfold unquote
  simp only [unquoteFrom, if_true, escapeAt, if_neg he, List.singleton_append]

theorem unquote_unicode {w x y z : UInt8} (hn : ¬ (0xD800 ≤ hex4 w x y z ∧ hex4 w x y z < 0xDC00)) (rest : Bytes) :
    unquote (0x5C :: 0x75 :: w :: x :: y :: z :: rest) = encodeRune (hex4 w x y z) ++ unquote rest := by
  unfold unquote
  simp only [unquoteFrom, if_true, escapeAt, unicodeAt, if_neg hn]

theorem hex4_unicodeEscape : ∀ b : UInt8, b < 0x80 → hex4 0x30 0x30 (hexDigit (b >>> 4)) (hexDigit (b &&& 0x0F)) = b.toNat :=
  forall_byte (by decide)

theorem encodeRune_toNat : ∀ b : UInt8, b < 0x80 → encodeRune b.toNat = [b] := forall_byte (by decide)

theorem unquote_unicodeEscape {b : UInt8} (hb : b < 0x80) (rest : Bytes) :
    unquote (unicodeEscape b ++ rest) = b :: unquote rest := by
  have h4 := hex4_unicodeEscape b hb
  have hlt : ¬ (0xD800 ≤ hex4 0x30 0x30 (hexDigit (b >>> 4)) (hexDigit (b &&& 0x0F)) ∧
      hex4 0x30 0x30 (hexDigit (b >>> 4)) (hexDigit (b &&& 0x0F)) < 0xDC00) := by
    rw [h4]
    have := b.toNat_lt
    omega
  simp only [unicodeEscape, List.cons_append, List.nil_append]
  rw [unquote_unicode hlt, h4, encodeRune_toNat b hb, List.singleton_append]

theorem unquote_quoteByte {b : UInt8} (hb : b < 0x80) (rest : Bytes) :
    unquote (quoteByte b ++ rest) = b :: unquote rest := by
  unfold quoteByte
  split
  · rename_i h
    simp only [Bool.or_eq_true, beq_iff_eq] at h
    rcases h with rfl | rfl
    · exact unquote_escape (by decide) rest
    · exact unquote_escape (by decide) rest
  split
  · rename_i h; rw [beq_iff_eq] at h; subst h; exact unquote_escape (by decide) rest
  split
  · rename_i h; rw [beq_iff_eq] at h; subst h; exact unquote_escape (by decide) rest
  split
  · rename_i h; rw [beq_iff_eq] at h; subst h; exact unquote_escape (by decide) rest
  split
  · rename_i h; rw [beq_iff_eq] at h; subst h; exact unquote_escape (by decide) rest
  split
  · rename_i h; rw [beq_iff_eq] at h; subst h; exact unquote_escape (by decide) rest
  split
  · exact unquote_unicodeEscape hb rest
  · rename_i hq _ _ _ _ _ _
    refine unquote_seq (.one hb) ?_ rest
    simp only [Bool.or_eq_true, beq_iff_eq, not_or] at hq
    simpa using hq.2

/-- The only sequences that are line separators. -/
theorem isLineSeparator_seq {seq rest : Bytes} (h : Seq seq) (hl : isLineSeparator (seq ++ rest) = true) :
    seq = [0xE2, 0x80, 0xA8] ∨ seq = [0xE2, 0x80, 0xA9] := by
  unfold isLineSeparator at hl
  simp only [Bool.or_eq_true, beq_iff_eq] at hl
  have hhead : ∀ {a : UInt8} {tl : Bytes} {x : UInt8}, (a :: tl).take 3 = [0xE2, 0x80, x] → a = 0xE2 := by
    intro a tl x h
    simp only [List.take_succ_cons, List.cons.injEq] at h
    exact h.1
  cases h with
  | one ha =>
    have : _ = (0xE2 : UInt8) := hl.elim hhead hhead
    subst this
    exact absurd ha (by decide)
  | two ha h2 =>
    have : _ = (0xE2 : UInt8) := hl.elim hhead hhead
    subst this
    exact absurd h2 (by simp)
  | three ha h2 h3 => simpa using hl
  | four ha h2 h3 h4 =>
    have : _ = (0xE2 : UInt8) := hl.elim hhead hhead
    subst this
    exact absurd h4 (by simp [startsFour])

theorem quoteFrom_length (seq rest : Bytes) : quoteFrom seq.length 0 (seq ++ rest) = seq ++ quoteFrom 0 0 rest := by
  induction seq with
  | nil => rfl
  | cons b seq ih => simp only [List.length_cons, List.cons_append, quoteFrom, ih]

/-- What `quote` writes for one sequence. -/
def quoteSeq : Bytes → Bytes
  | [b] => quoteByte b
  | seq => if isLineSeparator seq then separatorEscape seq else seq

@[simp] theorem quote_nil : quote [] = [] := rfl

theorem quote_bad {b : UInt8} {rest : Bytes} (h : seqLen (b :: rest) = 0) :
    quote (b :: rest) = ascii "\\ufffd" ++ quote rest := by
  unfold quote
  simp only [quoteFrom, h]

theorem quote_seq {seq : Bytes} (h : Seq seq) (rest : Bytes) : quote (seq ++ rest) = quoteSeq seq ++ quote rest := by
  have hlen := seqLen_append h rest
  by_cases hl : isLineSeparator (seq ++ rest) = true
  · rcases isLineSeparator_seq h hl with rfl | rfl
    · rfl
    · rfl
  · have hl' : isLineSeparator seq = false := by
      cases hs : isLineSeparator seq with
      | false => rfl
      | true =>
        rw [← List.append_nil seq] at hs
        rcases isLineSeparator_seq h hs with rfl | rfl
        · exact absurd rfl hl
        · exact absurd rfl hl
    unfold quote
    cases h with
    | one ha =>
      simp only [List.singleton_append] at hlen ⊢
      simp only [quoteFrom, hlen, List.length_singleton, quoteSeq]
    | two ha h2 =>
      simp only [List.cons_append, List.nil_append] at hlen hl ⊢
      simp only [quoteFrom, hlen, List.length_cons, List.length_nil, hl, quoteSeq, hl', Bool.false_eq_true, if_false,
        List.cons_append, List.nil_append]
    | three ha h2 h3 =>
      simp only [List.cons_append, List.nil_append] at hlen hl ⊢
      simp only [quoteFrom, hlen, List.length_cons, List.length_nil, hl, quoteSeq, hl', Bool.false_eq_true, if_false,
        List.cons_append, List.nil_append]
    | four ha h2 h3 h4 =>
      simp only [List.cons_append, List.nil_append] at hlen hl ⊢
      simp only [quoteFrom, hlen, List.length_cons, List.length_nil, hl, quoteSeq, hl', Bool.false_eq_true, if_false,
        List.cons_append, List.nil_append]

theorem unquote_separatorEscape {seq : Bytes} (h : seq = [0xE2, 0x80, 0xA8] ∨ seq = [0xE2, 0x80, 0xA9]) (rest : Bytes) :
    unquote (separatorEscape seq ++ rest) = seq ++ unquote rest := by
  rcases h with rfl | rfl
  · exact unquote_unicode (w := 0x32) (x := 0x30) (y := 0x32) (z := 0x38) (by decide) rest
  · exact unquote_unicode (w := 0x32) (x := 0x30) (y := 0x32) (z := 0x39) (by decide) rest

theorem unquote_quoteSeq {seq : Bytes} (h : Seq seq) (rest : Bytes) :
    unquote (quoteSeq seq ++ rest) = seq ++ unquote rest := by
  by_cases hl : isLineSeparator seq = true
  · have hsep := isLineSeparator_seq h (show isLineSeparator (seq ++ []) = true by rwa [List.append_nil])
    have hq : quoteSeq seq = separatorEscape seq := by rcases hsep with rfl | rfl <;> rfl
    rw [hq, unquote_separatorEscape hsep]
  · cases h with
    | one ha => exact unquote_quoteByte ha rest
    | two ha h2 =>
      simp only [quoteSeq, hl, Bool.false_eq_true, if_false]
      exact unquote_seq (.two ha h2) (by simp) rest
    | three ha h2 h3 =>
      simp only [quoteSeq, hl, Bool.false_eq_true, if_false]
      exact unquote_seq (.three ha h2 h3) (by simp) rest
    | four ha h2 h3 h4 =>
      simp only [quoteSeq, hl, Bool.false_eq_true, if_false]
      exact unquote_seq (.four ha h2 h3 h4) (by simp) rest

/-- **A quoted byte string reads back repaired.** -/
theorem unquote_quote (bs : Bytes) : unquote (quote bs) = repair bs := by
  induction bs using seqInduction with
  | nil => rfl
  | bad b rest h ih =>
    rw [quote_bad h, repair_bad h, ← ih]
    exact unquote_unicode (w := 0x66) (x := 0x66) (y := 0x66) (z := 0x64) (by decide) _
  | good seq rest h ih => rw [quote_seq h, repair_seq h, unquote_quoteSeq h, ih]

/-! ## Bodies -/

/-- **What may stand between the quotes of a literal.** -/
inductive Body : Bytes → Prop
  | nil : Body []
  | plain {b : UInt8} {rest : Bytes} (hq : b ≠ 0x22) (hs : b ≠ 0x5C) (hc : ¬ b < 0x20) (h : Body rest) :
      Body (b :: rest)
  | escape {e : UInt8} {rest : Bytes} (hu : e ≠ 0x75) (he : isEscape e = true) (h : Body rest) :
      Body (0x5C :: e :: rest)
  | unicode {w x y z : UInt8} {rest : Bytes} (hx : (isHex w && isHex x && isHex y && isHex z) = true) (h : Body rest) :
      Body (0x5C :: 0x75 :: w :: x :: y :: z :: rest)

theorem Body.append {a b : Bytes} (ha : Body a) (hb : Body b) : Body (a ++ b) := by
  induction ha with
  | nil => exact hb
  | plain hq hs hc _ ih => exact .plain hq hs hc ih
  | escape hu he _ ih => exact .escape hu he ih
  | unicode hx _ ih => exact .unicode hx ih

theorem scanString_body {body : Bytes} (h : Body body) (rest : Bytes) :
    scanString (body ++ 0x22 :: rest) = some (body, rest) := by
  induction h with
  | nil => rfl
  | plain hq hs hc _ ih =>
    unfold scanString at ih ⊢
    simp only [List.cons_append, scanFrom, if_neg hq, if_neg hs, if_neg hc, ih, Option.map_some]
  | escape hu he _ ih =>
    unfold scanString at ih ⊢
    simp only [List.cons_append, scanFrom, if_true, escapeLen, if_neg hu, he, ih, Option.map_some]
    rfl
  | unicode hx _ ih =>
    unfold scanString at ih ⊢
    simp only [List.cons_append, scanFrom, if_true, escapeLen, hx, ih, Option.map_some]
    rfl

/-- What an escape of length `n` looks like. -/
theorem escapeLen_some {bs : Bytes} {n : Nat} (h : escapeLen bs = some n) :
    (∃ e rest, bs = e :: rest ∧ n = 1 ∧ e ≠ 0x75 ∧ isEscape e = true) ∨
    (∃ w x y z rest, bs = 0x75 :: w :: x :: y :: z :: rest ∧ n = 5 ∧
      (isHex w && isHex x && isHex y && isHex z) = true) := by
  match bs, h with
  | [], h => cases h
  | e :: rest, h =>
    by_cases hu : e = 0x75
    · subst hu
      match rest, h with
      | w :: x :: y :: z :: rest, h =>
        simp only [escapeLen, if_true] at h
        split at h
        · cases h; exact .inr ⟨w, x, y, z, rest, rfl, rfl, ‹_›⟩
        · cases h
      | [], h => simp [escapeLen] at h
      | [_], h => simp [escapeLen] at h
      | [_, _], h => simp [escapeLen] at h
      | [_, _, _], h => simp [escapeLen] at h
    · simp only [escapeLen, if_neg hu] at h
      split at h
      · cases h; exact .inl ⟨e, rest, rfl, rfl, hu, ‹_›⟩
      · cases h

theorem body_of_scanFrom : ∀ (bs : Bytes) (n : Nat) (body rest : Bytes), scanFrom n bs = some (body, rest) →
    bs = body ++ 0x22 :: rest ∧ n ≤ body.length ∧ Body (body.drop n)
  | [], _, _, _, h => by simp [scanFrom] at h
  | b :: bs, n + 1, body, rest, h => by
    simp only [scanFrom, Option.map_eq_some_iff] at h
    obtain ⟨⟨body', rest'⟩, h, heq⟩ := h
    cases heq
    obtain ⟨h1, h2, h3⟩ := body_of_scanFrom bs n _ _ h
    exact ⟨by rw [h1]; rfl, by simp only [List.length_cons]; omega, h3⟩
  | b :: bs, 0, body, rest, h => by
    simp only [scanFrom] at h
    split at h
    · rename_i hq
      cases h
      exact ⟨by rw [hq]; rfl, Nat.le_refl _, .nil⟩
    rename_i hq
    split at h
    · rename_i hs
      split at h
      · rename_i n hn
        simp only [Option.map_eq_some_iff] at h
        obtain ⟨⟨body', rest'⟩, h, heq⟩ := h
        cases heq
        obtain ⟨h1, h2, h3⟩ := body_of_scanFrom bs n _ _ h
        refine ⟨by rw [h1]; rfl, Nat.zero_le _, ?_⟩
        rw [List.drop_zero]
        subst hs
        rcases escapeLen_some hn with ⟨e, tl, hbs, rfl, hu, he⟩ | ⟨w, x, y, z, tl, hbs, rfl, hx⟩
        · match body', h2, h3, h1 with
          | a :: body'', _, h3, h1 =>
            rw [hbs] at h1
            simp only [List.cons_append, List.cons.injEq] at h1
            rw [← h1.1]
            exact .escape hu he h3
        · match body', h2, h3, h1 with
          | a :: b :: c :: d :: e :: body'', _, h3, h1 =>
            rw [hbs] at h1
            simp only [List.cons_append, List.cons.injEq] at h1
            obtain ⟨rfl, rfl, rfl, rfl, rfl, -⟩ := h1
            exact .unicode hx h3
      · cases h
    rename_i hs
    split at h
    · cases h
    · rename_i hc
      simp only [Option.map_eq_some_iff] at h
      obtain ⟨⟨body', rest'⟩, h, heq⟩ := h
      cases heq
      obtain ⟨h1, -, h3⟩ := body_of_scanFrom bs 0 _ _ h
      exact ⟨by rw [h1]; rfl, Nat.zero_le _, .plain hq hs hc h3⟩

theorem body_of_scanString {bs body rest : Bytes} (h : scanString bs = some (body, rest)) :
    bs = body ++ 0x22 :: rest ∧ Body body :=
  let ⟨h1, _, h3⟩ := body_of_scanFrom bs 0 body rest h
  ⟨h1, h3⟩

/-! ## Escaping a written body -/

theorem Body.tail {b : UInt8} {rest : Bytes} (h : Body (b :: rest)) (hb : b ≠ 0x5C) : Body rest := by
  cases h with
  | plain _ _ _ h => exact h
  | escape _ _ _ => exact absurd rfl hb
  | unicode _ _ => exact absurd rfl hb

/-- A byte that no escape concerns. -/
theorem escape_cons {b : UInt8} (hb : isHTML b = false) (he : b ≠ 0xE2) (rest : Bytes) :
    escapeHTML (b :: rest) = b :: escapeHTML rest := by
  have hl : isLineSeparator (b :: rest) = false := by
    unfold isLineSeparator
    simp [he]
  unfold escapeHTML
  simp only [escapeFrom, hb, hl, Bool.false_eq_true, if_false]

theorem escape_html {b : UInt8} (hb : isHTML b = true) (rest : Bytes) :
    escapeHTML (b :: rest) = unicodeEscape b ++ escapeHTML rest := by
  unfold escapeHTML
  simp only [escapeFrom, hb, if_true]

theorem escape_separator {seq : Bytes} (h : seq = [0xE2, 0x80, 0xA8] ∨ seq = [0xE2, 0x80, 0xA9]) (rest : Bytes) :
    escapeHTML (seq ++ rest) = separatorEscape seq ++ escapeHTML rest := by
  rcases h with rfl | rfl <;> rfl

theorem isHTML_of_tail {b : UInt8} (h : isTail b = true) : isHTML b = false ∧ b ≠ 0xE2 :=
  forall_byte (P := fun b => isTail b = true → isHTML b = false ∧ b ≠ 0xE2) (by decide) b h

theorem not_html_of_not_ascii {b : UInt8} (h : ¬ b < 0x80) : isHTML b = false :=
  forall_byte (P := fun b => ¬ b < 0x80 → isHTML b = false) (by decide) b h

theorem escape_of_not_separator {b : UInt8} {rest : Bytes} (hb : isHTML b = false)
    (hl : isLineSeparator (b :: rest) = false) : escapeHTML (b :: rest) = b :: escapeHTML rest := by
  unfold escapeHTML
  simp only [escapeFrom, hb, hl, Bool.false_eq_true, if_false]

/-- A sequence is escaped as a whole or copied. -/
theorem escape_seq {seq : Bytes} (h : Seq seq) (rest : Bytes) :
    escapeHTML (seq ++ rest) = escapeHTML seq ++ escapeHTML rest := by
  by_cases hl : isLineSeparator (seq ++ rest) = true
  · have hsep := isLineSeparator_seq h hl
    have hself : escapeHTML seq = separatorEscape seq := by rcases hsep with rfl | rfl <;> rfl
    rw [escape_separator hsep, hself]
  · rw [Bool.not_eq_true] at hl
    have hone : isLineSeparator seq = false := by
      rw [Bool.eq_false_iff]
      intro hs
      have hsep := isLineSeparator_seq h (show isLineSeparator (seq ++ []) = true by rwa [List.append_nil])
      rw [Bool.eq_false_iff] at hl
      apply hl
      rcases hsep with rfl | rfl <;> rfl
    cases h with
    | one ha =>
      rename_i a
      by_cases hh : isHTML a = true
      · rw [List.singleton_append, escape_html hh, escape_html hh, List.append_assoc]
        rfl
      · rw [Bool.not_eq_true] at hh
        rw [List.singleton_append] at hl ⊢
        rw [escape_of_not_separator hh hl, escape_of_not_separator hh hone]
        rfl
    | two ha h2 =>
      simp only [Bool.and_eq_true] at h2
      have hb := isHTML_of_tail h2.2
      simp only [List.cons_append, List.nil_append] at hl ⊢
      rw [escape_of_not_separator (not_html_of_not_ascii ha) hl, escape_cons hb.1 hb.2,
        escape_of_not_separator (not_html_of_not_ascii ha) hone, escape_cons hb.1 hb.2]
      rfl
    | three ha h2 h3 =>
      simp only [Bool.and_eq_true] at h3
      have hb := isHTML_of_tail (isTail_of_startsThree h3.1)
      have hc := isHTML_of_tail h3.2
      simp only [List.cons_append, List.nil_append] at hl ⊢
      rw [escape_of_not_separator (not_html_of_not_ascii ha) hl, escape_cons hb.1 hb.2, escape_cons hc.1 hc.2,
        escape_of_not_separator (not_html_of_not_ascii ha) hone, escape_cons hb.1 hb.2, escape_cons hc.1 hc.2]
      rfl
    | four ha h2 h3 h4 =>
      simp only [Bool.and_eq_true] at h4
      have hb := isHTML_of_tail (isTail_of_startsFour h4.1.1)
      have hc := isHTML_of_tail h4.1.2
      have hd := isHTML_of_tail h4.2
      simp only [List.cons_append, List.nil_append] at hl ⊢
      rw [escape_of_not_separator (not_html_of_not_ascii ha) hl, escape_cons hb.1 hb.2, escape_cons hc.1 hc.2,
        escape_cons hd.1 hd.2, escape_of_not_separator (not_html_of_not_ascii ha) hone, escape_cons hb.1 hb.2,
        escape_cons hc.1 hc.2, escape_cons hd.1 hd.2]
      rfl

/-- A byte that starts no sequence is copied. -/
theorem escape_bad {b : UInt8} {rest : Bytes} (h : seqLen (b :: rest) = 0) :
    escapeHTML (b :: rest) = b :: escapeHTML rest := by
  have hb : ¬ b < 0x80 := by
    intro hb
    rw [show b :: rest = [b] ++ rest from rfl, seqLen_append (.one hb) rest] at h
    cases h
  apply escape_of_not_separator (not_html_of_not_ascii hb)
  rw [Bool.eq_false_iff]
  intro hl
  obtain ⟨tl, heq⟩ : ∃ tl, b :: rest = [0xE2, 0x80, 0xA8] ++ tl ∨ b :: rest = [0xE2, 0x80, 0xA9] ++ tl := by
    unfold isLineSeparator at hl
    simp only [Bool.or_eq_true, beq_iff_eq] at hl
    refine ⟨(b :: rest).drop 3, hl.imp (fun h3 => ?_) (fun h3 => ?_)⟩
    · rw [← h3, List.take_append_drop]
    · rw [← h3, List.take_append_drop]
  rcases heq with heq | heq
  · rw [heq] at h
    exact absurd h (by simp [seqLen, startsThree, isTail])
  · rw [heq] at h
    exact absurd h (by simp [seqLen, startsThree, isTail])

/-- Escapes start with a backslash: any other first byte was copied. -/
theorem escape_eq_cons {bs more : Bytes} {t : UInt8} (h : escapeHTML bs = t :: more) (ht : t ≠ 0x5C) :
    ∃ rest, bs = t :: rest ∧ more = escapeHTML rest := by
  cases bs with
  | nil => cases h
  | cons b rest =>
    by_cases hh : isHTML b = true
    · rw [escape_html hh] at h
      cases h
      exact absurd rfl ht
    · rw [Bool.not_eq_true] at hh
      by_cases hl : isLineSeparator (b :: rest) = true
      · have hfrom : escapeHTML (b :: rest) = separatorEscape (b :: rest) ++ escapeFrom 2 rest := by
          unfold escapeHTML
          simp only [escapeFrom, hh, hl, Bool.false_eq_true, if_false, if_true]
        rw [hfrom] at h
        unfold separatorEscape at h
        split at h <;> exact absurd (List.cons.inj h).1.symm ht
      · rw [Bool.not_eq_true] at hl
        rw [escape_of_not_separator hh hl] at h
        cases h
        exact ⟨rest, rfl, rfl⟩

theorem ne_backslash_of_tail {b : UInt8} (h : isTail b = true) : b ≠ 0x5C :=
  forall_byte (P := fun b => isTail b = true → b ≠ 0x5C) (by decide) b h

/-- Escaping what follows completes no sequence. -/
theorem seqLen_escape {b : UInt8} {rest : Bytes} (h : seqLen (b :: rest) = 0) : seqLen (b :: escapeHTML rest) = 0 := by
  by_contra hne
  obtain ⟨seq, tl, heq, hseq⟩ := seq_of_seqLen hne
  have hgrow : ∀ seq' tl', Utf8.Seq seq' → b :: rest = seq' ++ tl' → False := by
    intro seq' tl' hs he
    rw [he, seqLen_append hs] at h
    have := hs.length_pos
    omega
  cases hseq with
  | one ha => cases heq; exact hgrow [b] rest (.one ha) rfl
  | two ha h2 =>
    obtain ⟨rfl, hrest⟩ := List.cons.inj heq
    have ht := ne_backslash_of_tail (by simp only [Bool.and_eq_true] at h2; exact h2.2)
    obtain ⟨rest₁, rfl, -⟩ := escape_eq_cons hrest ht
    exact hgrow _ rest₁ (.two ha h2) rfl
  | three ha h2 h3 =>
    obtain ⟨rfl, hrest⟩ := List.cons.inj heq
    have hb := h3
    simp only [Bool.and_eq_true] at hb
    obtain ⟨rest₁, rfl, heq₁⟩ := escape_eq_cons hrest (ne_backslash_of_tail (isTail_of_startsThree hb.1))
    obtain ⟨rest₂, rfl, -⟩ := escape_eq_cons heq₁.symm (ne_backslash_of_tail hb.2)
    exact hgrow _ rest₂ (.three ha h2 h3) rfl
  | four ha h2 h3 h4 =>
    obtain ⟨rfl, hrest⟩ := List.cons.inj heq
    have hb := h4
    simp only [Bool.and_eq_true] at hb
    obtain ⟨rest₁, rfl, heq₁⟩ := escape_eq_cons hrest (ne_backslash_of_tail (isTail_of_startsFour hb.1.1))
    obtain ⟨rest₂, rfl, heq₂⟩ := escape_eq_cons heq₁.symm (ne_backslash_of_tail hb.1.2)
    obtain ⟨rest₃, rfl, -⟩ := escape_eq_cons heq₂.symm (ne_backslash_of_tail hb.2)
    exact hgrow _ rest₃ (.four ha h2 h3 h4) rfl

theorem not_html_of_isEscape {e : UInt8} (h : isEscape e = true) : isHTML e = false ∧ e ≠ 0xE2 :=
  forall_byte (P := fun e => isEscape e = true → isHTML e = false ∧ e ≠ 0xE2) (by decide) e h

theorem not_html_of_isHex {e : UInt8} (h : isHex e = true) : isHTML e = false ∧ e ≠ 0xE2 :=
  forall_byte (P := fun e => isHex e = true → isHTML e = false ∧ e ≠ 0xE2) (by decide) e h

theorem escape_escape {e : UInt8} (he : isEscape e = true) (rest : Bytes) :
    escapeHTML (0x5C :: e :: rest) = 0x5C :: e :: escapeHTML rest := by
  have h := not_html_of_isEscape he
  rw [escape_cons (by decide) (by decide), escape_cons h.1 h.2]

theorem escape_unicode {w x y z : UInt8} (h : (isHex w && isHex x && isHex y && isHex z) = true) (rest : Bytes) :
    escapeHTML (0x5C :: 0x75 :: w :: x :: y :: z :: rest) = 0x5C :: 0x75 :: w :: x :: y :: z :: escapeHTML rest := by
  simp only [Bool.and_eq_true] at h
  have hw := not_html_of_isHex h.1.1.1
  have hx := not_html_of_isHex h.1.1.2
  have hy := not_html_of_isHex h.1.2
  have hz := not_html_of_isHex h.2
  rw [escape_cons (by decide) (by decide), escape_cons (by decide) (by decide), escape_cons hw.1 hw.2, escape_cons hx.1 hx.2,
    escape_cons hy.1 hy.2, escape_cons hz.1 hz.2]

/-- A sequence other than the backslash stands in a body on its own. -/
theorem body_of_seq {seq rest : Bytes} (h : Seq seq) (hne : seq ≠ [0x5C]) (hbody : Body (seq ++ rest)) :
    Body seq ∧ Body rest := by
  have hplain : ∀ {b : UInt8} {tl : Bytes}, Body (b :: tl) → b ≠ 0x5C → (∀ t : Bytes, Body t → Body (b :: t)) ∧ Body tl := by
    intro b tl hb hbs
    cases hb with
    | plain hq hs hc h => exact ⟨fun t ht => .plain hq hs hc ht, h⟩
    | escape _ _ _ => exact absurd rfl hbs
    | unicode _ _ => exact absurd rfl hbs
  cases h with
  | one ha =>
    obtain ⟨h1, hrest⟩ := hplain hbody (by simpa using hne)
    exact ⟨h1 [] .nil, hrest⟩
  | two ha h2 =>
    obtain ⟨h1, hrest⟩ := hplain hbody (by rintro rfl; exact ha (by decide))
    obtain ⟨h2', hrest⟩ := hplain hrest (ne_backslash_of_tail (by simp only [Bool.and_eq_true] at h2; exact h2.2))
    exact ⟨h1 _ (h2' [] .nil), hrest⟩
  | three ha h2 h3 =>
    simp only [Bool.and_eq_true] at h3
    obtain ⟨h1, hrest⟩ := hplain hbody (by rintro rfl; exact ha (by decide))
    obtain ⟨h2', hrest⟩ := hplain hrest (ne_backslash_of_tail (isTail_of_startsThree h3.1))
    obtain ⟨h3', hrest⟩ := hplain hrest (ne_backslash_of_tail h3.2)
    exact ⟨h1 _ (h2' _ (h3' [] .nil)), hrest⟩
  | four ha h2 h3 h4 =>
    simp only [Bool.and_eq_true] at h4
    obtain ⟨h1, hrest⟩ := hplain hbody (by rintro rfl; exact ha (by decide))
    obtain ⟨h2', hrest⟩ := hplain hrest (ne_backslash_of_tail (isTail_of_startsFour h4.1.1))
    obtain ⟨h3', hrest⟩ := hplain hrest (ne_backslash_of_tail h4.1.2)
    obtain ⟨h4', hrest⟩ := hplain hrest (ne_backslash_of_tail h4.2)
    exact ⟨h1 _ (h2' _ (h3' _ (h4' [] .nil))), hrest⟩

/-- **Induction along the units of a body**: bytes that start no sequence, sequences, and escapes. -/
theorem Body.rec_units {P : Bytes → Prop} (nil : P [])
    (bad : ∀ b rest, seqLen (b :: rest) = 0 → ¬ b < 0x20 → b ≠ 0x22 → Body rest → P rest → P (b :: rest))
    (seq : ∀ seq rest, Utf8.Seq seq → seq ≠ [0x5C] → Body seq → Body rest → P rest → P (seq ++ rest))
    (escape : ∀ e rest, e ≠ 0x75 → isEscape e = true → Body rest → P rest → P (0x5C :: e :: rest))
    (unicode : ∀ w x y z rest, (isHex w && isHex x && isHex y && isHex z) = true → Body rest → P rest →
      (∀ w' x' y' z' more, rest = 0x5C :: 0x75 :: w' :: x' :: y' :: z' :: more → P more) →
      P (0x5C :: 0x75 :: w :: x :: y :: z :: rest)) : ∀ {body : Bytes}, Body body → P body := by
  intro body
  generalize hn : body.length = n
  induction n using Nat.strongRecOn generalizing body with
  | _ n ih =>
    intro hbody
    have hlt : ∀ rest : Bytes, rest.length < n → Body rest → P rest := fun rest hr hb => ih rest.length hr rfl hb
    cases hbody with
    | nil => exact nil
    | escape hu he h => exact escape _ _ hu he h (hlt _ (by rw [← hn]; simp only [List.length_cons]; omega) h)
    | unicode hx h =>
      refine unicode _ _ _ _ _ hx h (hlt _ (by rw [← hn]; simp only [List.length_cons]; omega) h) (fun w' x' y' z' more heq => ?_)
      subst heq
      refine hlt more (by rw [← hn]; simp only [List.length_cons]; omega) ?_
      cases h with
      | plain _ hs _ _ => exact absurd rfl hs
      | escape hu _ _ => exact absurd rfl hu
      | unicode _ h => exact h
    | plain hq hs hc h =>
      rename_i b rest
      by_cases h0 : seqLen (b :: rest) = 0
      · exact bad b rest h0 hc hq h (hlt rest (by rw [← hn]; simp) h)
      · obtain ⟨sq, tl, heq, hseq⟩ := seq_of_seqLen h0
        have hbody : Body (sq ++ tl) := heq ▸ .plain hq hs hc h
        have hne : sq ≠ [0x5C] := by
          rintro rfl
          exact hs (List.cons.inj heq).1
        have hsplit : Body sq ∧ Body tl := body_of_seq hseq hne hbody
        have hlen : tl.length < n := by
          rw [← hn, heq, List.length_append]
          have := hseq.length_pos
          omega
        rw [heq]
        exact seq sq tl hseq hne hsplit.1 hsplit.2 (hlt tl hlen hsplit.2)

theorem lowSurrogate_of_ne {b : UInt8} (hb : b ≠ 0x5C) (rest : Bytes) : lowSurrogate (b :: rest) = none := by
  match rest with
  | u :: w :: x :: y :: z :: _ => simp [lowSurrogate, hb]
  | [] => rfl
  | [_] => rfl
  | [_, _] => rfl
  | [_, _, _] => rfl
  | [_, _, _, _] => rfl

theorem lowSurrogate_of_escape {e : UInt8} (he : e ≠ 0x75) (rest : Bytes) : lowSurrogate (0x5C :: e :: rest) = none := by
  match rest with
  | w :: x :: y :: z :: _ => simp [lowSurrogate, he]
  | [] => rfl
  | [_] => rfl
  | [_, _] => rfl
  | [_, _, _] => rfl

theorem lowSurrogate_unicodeEscape {b : UInt8} (hb : b < 0x80) (rest : Bytes) : lowSurrogate (unicodeEscape b ++ rest) = none := by
  have h4 := hex4_unicodeEscape b hb
  have := b.toNat_lt
  simp only [unicodeEscape, List.cons_append, List.nil_append, lowSurrogate, h4, true_and]
  rw [if_neg (by omega)]

/-- Escaping makes and breaks no surrogate pair. -/
theorem lowSurrogate_escapeHTML {body : Bytes} (h : Body body) : lowSurrogate (escapeHTML body) = lowSurrogate body := by
  cases h with
  | nil => rfl
  | escape hu he h => rw [escape_escape he, lowSurrogate_of_escape hu, lowSurrogate_of_escape hu]
  | unicode hx h =>
    rw [escape_unicode hx]
    rfl
  | plain hq hs hc h =>
    rename_i b rest
    rw [lowSurrogate_of_ne hs]
    by_cases hh : isHTML b = true
    · have hb : b < 0x80 := by
        simp only [isHTML, Bool.or_eq_true, beq_iff_eq] at hh
        rcases hh with (rfl | rfl) | rfl <;> decide
      rw [escape_html hh, lowSurrogate_unicodeEscape hb]
    · rw [Bool.not_eq_true] at hh
      by_cases hl : isLineSeparator (b :: rest) = true
      · have hfrom : escapeHTML (b :: rest) = separatorEscape (b :: rest) ++ escapeFrom 2 rest := by
          unfold escapeHTML
          simp only [escapeFrom, hh, hl, Bool.false_eq_true, if_false, if_true]
        rw [hfrom]
        unfold separatorEscape
        split <;> rfl
      · rw [Bool.not_eq_true] at hl
        rw [escape_of_not_separator hh hl, lowSurrogate_of_ne hs]

theorem lowSurrogate_some {rest : Bytes} {low : Nat} (h : lowSurrogate rest = some low) :
    ∃ s u w x y z more, rest = s :: u :: w :: x :: y :: z :: more := by
  unfold lowSurrogate at h
  split at h
  · exact ⟨_, _, _, _, _, _, _, rfl⟩
  · cases h

/-- What a `\u` escape in front of a body reads as. -/
theorem unquote_unicode_pair {w x y z : UInt8} (hn : 0xD800 ≤ hex4 w x y z ∧ hex4 w x y z < 0xDC00) (rest : Bytes) :
    unquote (0x5C :: 0x75 :: w :: x :: y :: z :: rest) =
      match lowSurrogate rest with
      | some low => encodeRune (0x10000 + (hex4 w x y z - 0xD800) * 1024 + (low - 0xDC00)) ++ unquote (rest.drop 6)
      | none => replacement ++ unquote rest := by
  unfold unquote
  simp only [unquoteFrom, if_true, escapeAt, unicodeAt, if_pos hn]
  cases hl : lowSurrogate rest with
  | none => rfl
  | some low =>
    obtain ⟨s, u, w', x', y', z', more, rfl⟩ := lowSurrogate_some hl
    simp only [unquoteFrom, List.drop_succ_cons, List.drop_zero]

theorem escape_seq_self {seq : Bytes} (h : Utf8.Seq seq) :
    (escapeHTML seq = seq) ∨ (∃ b, seq = [b] ∧ isHTML b = true) ∨ seq = [0xE2, 0x80, 0xA8] ∨ seq = [0xE2, 0x80, 0xA9] := by
  by_cases hl : isLineSeparator seq = true
  · exact .inr (.inr (isLineSeparator_seq h (show isLineSeparator (seq ++ []) = true by rwa [List.append_nil])))
  · rw [Bool.not_eq_true] at hl
    cases h with
    | one ha =>
      rename_i a
      by_cases hh : isHTML a = true
      · exact .inr (.inl ⟨a, rfl, hh⟩)
      · rw [Bool.not_eq_true] at hh
        exact .inl (escape_of_not_separator hh hl)
    | two ha h2 =>
      simp only [Bool.and_eq_true] at h2
      have hb := isHTML_of_tail h2.2
      exact .inl (by rw [escape_of_not_separator (not_html_of_not_ascii ha) hl, escape_cons hb.1 hb.2]; rfl)
    | three ha h2 h3 =>
      simp only [Bool.and_eq_true] at h3
      have hb := isHTML_of_tail (isTail_of_startsThree h3.1)
      have hc := isHTML_of_tail h3.2
      exact .inl (by rw [escape_of_not_separator (not_html_of_not_ascii ha) hl, escape_cons hb.1 hb.2, escape_cons hc.1 hc.2]; rfl)
    | four ha h2 h3 h4 =>
      simp only [Bool.and_eq_true] at h4
      have hb := isHTML_of_tail (isTail_of_startsFour h4.1.1)
      have hc := isHTML_of_tail h4.1.2
      have hd := isHTML_of_tail h4.2
      refine .inl ?_
      rw [escape_of_not_separator (not_html_of_not_ascii ha) hl, escape_cons hb.1 hb.2, escape_cons hc.1 hc.2,
        escape_cons hd.1 hd.2]
      rfl

theorem ascii_of_html {b : UInt8} (h : isHTML b = true) : b < 0x80 ∧ [b] ≠ [(0x5C : UInt8)] := by
  simp only [isHTML, Bool.or_eq_true, beq_iff_eq] at h
  rcases h with (rfl | rfl) | rfl <;> decide

/-- **Escaping a written body keeps the string it denotes.** -/
theorem unquote_escapeHTML {body : Bytes} (h : Body body) : unquote (escapeHTML body) = unquote body := by
  refine Body.rec_units (P := fun body => unquote (escapeHTML body) = unquote body) ?_ ?_ ?_ ?_ ?_ h
  · rfl
  · intro b rest h0 _ _ hrest ih
    rw [escape_bad h0, unquote_bad h0, unquote_bad (seqLen_escape h0), ih]
  · intro sq rest hseq hne _ _ ih
    rw [escape_seq hseq, unquote_seq hseq hne]
    rcases escape_seq_self hseq with heq | ⟨b, rfl, hh⟩ | hsep
    · rw [heq, unquote_seq hseq hne, ih]
    · rw [escape_html hh, List.append_assoc, unquote_unicodeEscape (ascii_of_html hh).1]
      exact congrArg (b :: ·) ih
    · have hself : escapeHTML sq = separatorEscape sq := by rcases hsep with rfl | rfl <;> rfl
      rw [hself, unquote_separatorEscape hsep, ih]
  · intro e rest hu he _ ih
    rw [escape_escape he, unquote_escape hu, unquote_escape hu, ih]
  · intro w x y z rest hx hrest ih hpair
    rw [escape_unicode hx]
    by_cases hn : 0xD800 ≤ hex4 w x y z ∧ hex4 w x y z < 0xDC00
    · rw [unquote_unicode_pair hn, unquote_unicode_pair hn, lowSurrogate_escapeHTML hrest, ih]
      cases hl : lowSurrogate rest with
      | none => rfl
      | some low =>
        -- the low surrogate is the next unit of the body
        cases hrest with
        | nil => cases hl
        | plain _ hs _ _ => rw [lowSurrogate_of_ne hs] at hl; cases hl
        | escape hu _ _ => rw [lowSurrogate_of_escape hu] at hl; cases hl
        | unicode hx' hmore =>
          rw [escape_unicode hx']
          simp only [List.drop_succ_cons, List.drop_zero]
          rw [hpair _ _ _ _ _ rfl]
    · rw [unquote_unicode hn, unquote_unicode hn, ih]

theorem isHex_hexDigit : ∀ b : UInt8, b < 0x80 → isHex (hexDigit (b >>> 4)) = true ∧ isHex (hexDigit (b &&& 0x0F)) = true :=
  forall_byte (by decide)

/-- An escaped body is a body. -/
theorem body_escapeHTML {body : Bytes} (h : Body body) : Body (escapeHTML body) := by
  refine Body.rec_units (P := fun body => Body (escapeHTML body)) ?_ ?_ ?_ ?_ ?_ h
  · exact .nil
  · intro b rest h0 hc hq _ ih
    rw [escape_bad h0]
    refine .plain hq ?_ hc ih
    rintro rfl
    simp [seqLen] at h0
  · intro sq rest hseq hne hbody _ ih
    rw [escape_seq hseq]
    refine Body.append ?_ ih
    rcases escape_seq_self hseq with heq | ⟨b, rfl, hh⟩ | hsep
    · rwa [heq]
    · rw [escape_html hh]
      have hd := isHex_hexDigit b (ascii_of_html hh).1
      exact .unicode (by rw [hd.1, hd.2]; rfl) .nil
    · rcases hsep with rfl | rfl
      · exact .unicode (w := 0x32) (x := 0x30) (y := 0x32) (z := 0x38) (by decide) .nil
      · exact .unicode (w := 0x32) (x := 0x30) (y := 0x32) (z := 0x39) (by decide) .nil
  · intro e rest hu he _ ih
    rw [escape_escape he]
    exact .escape hu he ih
  · intro w x y z rest hx _ ih _
    rw [escape_unicode hx]
    exact .unicode hx ih

/-- **Escaping an escaped body changes nothing.** -/
theorem escapeHTML_escapeHTML {body : Bytes} (h : Body body) : escapeHTML (escapeHTML body) = escapeHTML body := by
  refine Body.rec_units (P := fun body => escapeHTML (escapeHTML body) = escapeHTML body) ?_ ?_ ?_ ?_ ?_ h
  · rfl
  · intro b rest h0 _ _ _ ih
    rw [escape_bad h0, escape_bad (seqLen_escape h0), ih]
  · intro sq rest hseq hne _ _ ih
    rw [escape_seq hseq]
    rcases escape_seq_self hseq with heq | ⟨b, rfl, hh⟩ | hsep
    · rw [heq, escape_seq hseq, heq, ih]
    · have hd := isHex_hexDigit b (ascii_of_html hh).1
      have hx : (isHex 0x30 && isHex 0x30 && isHex (hexDigit (b >>> 4)) && isHex (hexDigit (b &&& 0x0F))) = true := by
        rw [hd.1, hd.2]
        rfl
      rw [escape_html hh, List.append_assoc]
      show escapeHTML (0x5C :: 0x75 :: 0x30 :: 0x30 :: _ :: _ :: escapeHTML rest) = _
      rw [escape_unicode hx, ih]
      rfl
    · rcases hsep with rfl | rfl
      · show escapeHTML (0x5C :: 0x75 :: 0x32 :: 0x30 :: 0x32 :: 0x38 :: escapeHTML rest) = _
        rw [escape_unicode (by decide), ih]
        rfl
      · show escapeHTML (0x5C :: 0x75 :: 0x32 :: 0x30 :: 0x32 :: 0x39 :: escapeHTML rest) = _
        rw [escape_unicode (by decide), ih]
        rfl
  · intro e rest hu he _ ih
    rw [escape_escape he, escape_escape he, ih]
  · intro w x y z rest hx _ ih _
    rw [escape_unicode hx, escape_unicode hx, ih]

end Json
end Lib
