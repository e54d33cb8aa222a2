import DexConnectors.LibJsonString
/-!
# LibUnicode — one text as bytes, as code points and as UTF-16 units

A Unicode text as three languages hold it, and what their encoders make of it: `str.encode` of code points and
`Buffer.from(text, 'utf8')` of UTF-16 units both give its UTF-8 (`encodeCodePoints_codePoints`, `encodeUnits_utf16`), from
which the text can be read off (`utf8_injective`).
-/
namespace Lib
namespace Unicode

open Utf8

def utf8 (text : List Char) : Bytes := text.flatMap (fun c => Json.encodeRune c.toNat)

def codePoints (text : List Char) : List Nat := text.map Char.toNat

def unitsOf (c : Char) : List UInt16 :=
  if c.toNat < 0x10000 then [c.toNat.toUInt16]
  else [(0xD800 + (c.toNat - 0x10000) / 0x400).toUInt16, (0xDC00 + (c.toNat - 0x10000) % 0x400).toUInt16]

def utf16 (text : List Char) : List UInt16 := text.flatMap unitsOf

def isSurrogate (r : Nat) : Bool := 0xD800 ≤ r && r ≤ 0xDFFF

/-- `str.encode()`, which refuses surrogates. -/
def encodeCodePoints : List Nat → Option Bytes
  | [] => some []
  | r :: rest => if isSurrogate r then none else (encodeCodePoints rest).map (Json.encodeRune r ++ ·)

/-- The code point of a pair of surrogates. -/
def pairOf (high low : UInt16) : Option Nat :=
  if 0xD800 ≤ high.toNat ∧ high.toNat ≤ 0xDBFF ∧ 0xDC00 ≤ low.toNat ∧ low.toNat ≤ 0xDFFF then
    some (0x10000 + (high.toNat - 0xD800) * 0x400 + (low.toNat - 0xDC00))
  else none

/-- `Buffer.from(text, 'utf8')`: a lone surrogate becomes U+FFFD. -/
def encodeUnits : List UInt16 → Bytes
  | [] => []
  | [u] => Json.encodeRune u.toNat
  | high :: low :: rest =>
    match pairOf high low with
    | some r => Json.encodeRune r ++ encodeUnits rest
    | none => Json.encodeRune high.toNat ++ encodeUnits (low :: rest)

/-! ## The encoders -/

theorem toNat_scalar (c : Char) : c.toNat < 0xD800 ∨ (0xDFFF < c.toNat ∧ c.toNat < 0x110000) := c.valid

theorem isSurrogate_char (c : Char) : isSurrogate c.toNat = false := by
  have h := toNat_scalar c
  simp only [isSurrogate, Bool.and_eq_false_iff, decide_eq_false_iff_not]
  omega

theorem encodeCodePoints_codePoints : ∀ text, encodeCodePoints (codePoints text) = some (utf8 text)
  | [] => rfl
  | c :: text => by
    have ih := encodeCodePoints_codePoints text
    simp only [codePoints, utf8] at ih
    simp [codePoints, utf8, encodeCodePoints, isSurrogate_char, ih]

theorem toNat_toUInt16 {n : Nat} (h : n < 0x10000) : n.toUInt16.toNat = n := by
  simpa using Nat.mod_eq_of_lt h

/-- A unit that is no high surrogate is encoded by itself. -/
theorem encodeUnits_cons {u : UInt16} (h : u.toNat < 0xD800 ∨ 0xDBFF < u.toNat) (rest : List UInt16) :
    encodeUnits (u :: rest) = Json.encodeRune u.toNat ++ encodeUnits rest := by
  cases rest with
  | nil => simp [encodeUnits]
  | cons v rest =>
    have hnone : pairOf u v = none := if_neg (by omega)
    simp [encodeUnits, hnone]

theorem encodeUnits_pair {high low : UInt16} {r : Nat} (h : pairOf high low = some r) (rest : List UInt16) :
    encodeUnits (high :: low :: rest) = Json.encodeRune r ++ encodeUnits rest := by
  simp only [encodeUnits, h]

theorem pairOf_unitsOf {n : Nat} (hlo : 0x10000 ≤ n) (hhi : n < 0x110000) :
    pairOf (0xD800 + (n - 0x10000) / 0x400).toUInt16 (0xDC00 + (n - 0x10000) % 0x400).toUInt16 = some n := by
  have hhigh := toNat_toUInt16 (show 0xD800 + (n - 0x10000) / 0x400 < 0x10000 by omega)
  have hlow := toNat_toUInt16 (show 0xDC00 + (n - 0x10000) % 0x400 < 0x10000 by omega)
  unfold pairOf
  rw [hhigh, hlow, if_pos (by omega)]
  exact congrArg some (by omega)

theorem encodeUnits_unitsOf (c : Char) (rest : List UInt16) :
    encodeUnits (unitsOf c ++ rest) = Json.encodeRune c.toNat ++ encodeUnits rest := by
  have hscalar := toNat_scalar c
  unfold unitsOf
  split
  · rename_i hsmall
    have hnat := toNat_toUInt16 hsmall
    rw [List.singleton_append, encodeUnits_cons (by rw [hnat]; omega), hnat]
  · exact encodeUnits_pair (pairOf_unitsOf (by omega) (by omega)) rest

theorem encodeUnits_utf16 : ∀ text, encodeUnits (utf16 text) = utf8 text
  | [] => rfl
  | c :: text => by
    have ih := encodeUnits_utf16 text
    simp only [utf16, utf8] at ih
    simp only [utf16, utf8, List.flatMap_cons]
    rw [encodeUnits_unitsOf, ih]

/-! ## Reading a text off its bytes -/

/-- The code point of a sequence. -/
def runeOf : Bytes → Nat
  | [a] => a.toNat
  | [a, b] => (a.toNat - 0xC0) * 64 + (b.toNat - 0x80)
  | [a, b, c] => ((a.toNat - 0xE0) * 64 + (b.toNat - 0x80)) * 64 + (c.toNat - 0x80)
  | [a, b, c, d] => (((a.toNat - 0xF0) * 64 + (b.toNat - 0x80)) * 64 + (c.toNat - 0x80)) * 64 + (d.toNat - 0x80)
  | _ => 0

theorem toUInt8_inj {m n : Nat} : m.toUInt8 = n.toUInt8 ↔ m % 256 = n % 256 := by
  rw [← UInt8.toNat_inj]
  simp

theorem toNat_toUInt8 {n : Nat} (h : n < 256) : n.toUInt8.toNat = n := by
  simpa using Nat.mod_eq_of_lt h

/-- **The four shapes of an encoded code point.** -/
theorem encodeRune_cases {n : Nat} (h : n < 0xD800 ∨ (0xDFFF < n ∧ n < 0x110000)) :
    (n < 0x80 ∧ Json.encodeRune n = [n.toUInt8]) ∨
    (0x80 ≤ n ∧ n < 0x800 ∧ Json.encodeRune n = [(0xC0 + n / 64).toUInt8, (0x80 + n % 64).toUInt8]) ∨
    (0x800 ≤ n ∧ n < 0x10000 ∧
      Json.encodeRune n = [(0xE0 + n / 4096).toUInt8, (0x80 + n / 64 % 64).toUInt8, (0x80 + n % 64).toUInt8]) ∨
    (0x10000 ≤ n ∧ Json.encodeRune n = [(0xF0 + n / 262144).toUInt8, (0x80 + n / 4096 % 64).toUInt8,
      (0x80 + n / 64 % 64).toUInt8, (0x80 + n % 64).toUInt8]) := by
  have hscalar : ¬((0xD800 ≤ n ∧ n ≤ 0xDFFF) ∨ 0x10FFFF < n) := by omega
  unfold Json.encodeRune
  by_cases h1 : n < 0x80
  · exact .inl ⟨h1, if_pos h1⟩
  by_cases h2 : n < 0x800
  · exact .inr (.inl ⟨by omega, h2, by rw [if_neg h1, if_pos h2]⟩)
  by_cases h3 : n < 0x10000
  · exact .inr (.inr (.inl ⟨by omega, h3, by rw [if_neg h1, if_neg h2, if_neg hscalar, if_pos h3]⟩))
  · exact .inr (.inr (.inr ⟨by omega, by rw [if_neg h1, if_neg h2, if_neg hscalar, if_neg h3]⟩))

theorem isTail_toUInt8 {n : Nat} (hlo : 0x80 ≤ n) (hhi : n ≤ 0xBF) : isTail n.toUInt8 = true := by
  simp only [isTail, Bool.and_eq_true, decide_eq_true_eq, UInt8.le_iff_toNat_le, toNat_toUInt8 (show n < 256 by omega)]
  exact ⟨hlo, hhi⟩

theorem not_ascii_toUInt8 {n : Nat} (hlo : 0x80 ≤ n) (hhi : n < 256) : ¬n.toUInt8 < 0x80 := by
  rw [UInt8.lt_iff_toNat_lt, toNat_toUInt8 hhi]
  exact Nat.not_lt.2 hlo

theorem seq_encodeRune {n : Nat} (h : n < 0xD800 ∨ (0xDFFF < n ∧ n < 0x110000)) : Seq (Json.encodeRune n) := by
  rcases encodeRune_cases h with ⟨h1, he⟩ | ⟨h1, h2, he⟩ | ⟨h1, h2, he⟩ | ⟨h1, he⟩
  · rw [he]
    refine .one ?_
    rw [UInt8.lt_iff_toNat_lt, toNat_toUInt8 (by omega)]
    exact h1
  · have ha := toNat_toUInt8 (show 0xC0 + n / 64 < 256 by omega)
    rw [he]
    refine .two (not_ascii_toUInt8 (by omega) (by omega)) ?_
    simp only [Bool.and_eq_true, decide_eq_true_eq, UInt8.le_iff_toNat_le, ha]
    exact ⟨⟨show 0xC2 ≤ _ by omega, show _ ≤ 0xDF by omega⟩, isTail_toUInt8 (by omega) (by omega)⟩
  · have ha := toNat_toUInt8 (show 0xE0 + n / 4096 < 256 by omega)
    have hb := toNat_toUInt8 (show 0x80 + n / 64 % 64 < 256 by omega)
    have htail := @isTail_toUInt8 (0x80 + n / 64 % 64) (by omega) (by omega)
    rw [he]
    refine .three (not_ascii_toUInt8 (by omega) (by omega)) ?_ ?_
    · simp only [Bool.and_eq_true, decide_eq_true_eq, UInt8.le_iff_toNat_le, ha]
      rintro ⟨⟨-, hle⟩, -⟩
      have hle : 0xE0 + n / 4096 ≤ 0xDF := hle
      omega
    · refine Bool.and_eq_true_iff.2 ⟨?_, isTail_toUInt8 (by omega) (by omega)⟩
      simp only [startsThree, Bool.or_eq_true, Bool.and_eq_true, decide_eq_true_eq, beq_iff_eq, UInt8.le_iff_toNat_le,
        ← UInt8.toNat_inj, ha, hb, htail, and_true]
      show ((0xE0 + n / 4096 = 0xE0 ∧ 0xA0 ≤ 0x80 + n / 64 % 64 ∧ 0x80 + n / 64 % 64 ≤ 0xBF ∨
        0xE1 ≤ 0xE0 + n / 4096 ∧ 0xE0 + n / 4096 ≤ 0xEC) ∨
        0xE0 + n / 4096 = 0xED ∧ 0x80 ≤ 0x80 + n / 64 % 64 ∧ 0x80 + n / 64 % 64 ≤ 0x9F) ∨
        0xEE ≤ 0xE0 + n / 4096 ∧ 0xE0 + n / 4096 ≤ 0xEF
      omega
  · have ha := toNat_toUInt8 (show 0xF0 + n / 262144 < 256 by omega)
    have hb := toNat_toUInt8 (show 0x80 + n / 4096 % 64 < 256 by omega)
    have htail := @isTail_toUInt8 (0x80 + n / 4096 % 64) (by omega) (by omega)
    rw [he]
    refine .four (not_ascii_toUInt8 (by omega) (by omega)) ?_ ?_ ?_
    · simp only [Bool.and_eq_true, decide_eq_true_eq, UInt8.le_iff_toNat_le, ha]
      rintro ⟨⟨-, hle⟩, -⟩
      have hle : 0xF0 + n / 262144 ≤ 0xDF := hle
      omega
    · simp only [startsThree, Bool.or_eq_true, Bool.and_eq_true, decide_eq_true_eq, beq_iff_eq, UInt8.le_iff_toNat_le,
        ← UInt8.toNat_inj, ha, hb, htail, and_true]
      intro hthree
      have hthree : (((0xF0 + n / 262144 = 0xE0 ∧ 0xA0 ≤ 0x80 + n / 4096 % 64 ∧ 0x80 + n / 4096 % 64 ≤ 0xBF ∨
        0xE1 ≤ 0xF0 + n / 262144 ∧ 0xF0 + n / 262144 ≤ 0xEC) ∨
        0xF0 + n / 262144 = 0xED ∧ 0x80 ≤ 0x80 + n / 4096 % 64 ∧ 0x80 + n / 4096 % 64 ≤ 0x9F) ∨
        0xEE ≤ 0xF0 + n / 262144 ∧ 0xF0 + n / 262144 ≤ 0xEF) ∧ _ := hthree
      omega
    · refine Bool.and_eq_true_iff.2 ⟨Bool.and_eq_true_iff.2 ⟨?_, isTail_toUInt8 (by omega) (by omega)⟩,
        isTail_toUInt8 (by omega) (by omega)⟩
      simp only [startsFour, Bool.or_eq_true, Bool.and_eq_true, decide_eq_true_eq, beq_iff_eq, UInt8.le_iff_toNat_le,
        ← UInt8.toNat_inj, ha, hb, htail, and_true]
      show (0xF0 + n / 262144 = 0xF0 ∧ 0x90 ≤ 0x80 + n / 4096 % 64 ∧ 0x80 + n / 4096 % 64 ≤ 0xBF ∨
        0xF1 ≤ 0xF0 + n / 262144 ∧ 0xF0 + n / 262144 ≤ 0xF3) ∨
        0xF0 + n / 262144 = 0xF4 ∧ 0x80 ≤ 0x80 + n / 4096 % 64 ∧ 0x80 + n / 4096 % 64 ≤ 0x8F
      omega

theorem runeOf_encodeRune {n : Nat} (h : n < 0xD800 ∨ (0xDFFF < n ∧ n < 0x110000)) : runeOf (Json.encodeRune n) = n := by
  obtain ⟨h1, he⟩ | ⟨h1, h2, he⟩ | ⟨h1, h2, he⟩ | ⟨h1, he⟩ := encodeRune_cases h
  · rw [he]
    exact toNat_toUInt8 (by omega)
  · rw [he]
    show (UInt8.toNat _ - 0xC0) * 64 + (UInt8.toNat _ - 0x80) = n
    rw [toNat_toUInt8 (by omega), toNat_toUInt8 (by omega)]
    omega
  · rw [he]
    show ((UInt8.toNat _ - 0xE0) * 64 + (UInt8.toNat _ - 0x80)) * 64 + (UInt8.toNat _ - 0x80) = n
    rw [toNat_toUInt8 (by omega), toNat_toUInt8 (by omega), toNat_toUInt8 (by omega)]
    omega
  · rw [he]
    show (((UInt8.toNat _ - 0xF0) * 64 + (UInt8.toNat _ - 0x80)) * 64 + (UInt8.toNat _ - 0x80)) * 64 + (UInt8.toNat _ - 0x80) = n
    rw [toNat_toUInt8 (by omega), toNat_toUInt8 (by omega), toNat_toUInt8 (by omega), toNat_toUInt8 (by omega)]
    omega

/-- **No encoding of a code point starts another.** -/
theorem encodeRune_append_inj {c d : Char} {x y : Bytes}
    (h : Json.encodeRune c.toNat ++ x = Json.encodeRune d.toNat ++ y) : c = d ∧ x = y := by
  have hlength : (Json.encodeRune c.toNat).length = (Json.encodeRune d.toNat).length := by
    rw [← seqLen_append (seq_encodeRune (toNat_scalar c)) x, h, seqLen_append (seq_encodeRune (toNat_scalar d)) y]
  obtain ⟨hrune, hrest⟩ := List.append_inj h hlength
  have hnat : c.toNat = d.toNat := by
    rw [← runeOf_encodeRune (toNat_scalar c), hrune, runeOf_encodeRune (toNat_scalar d)]
  exact ⟨Char.toNat_inj.1 hnat, hrest⟩

theorem utf8_cons_ne_nil (c : Char) (text : List Char) : utf8 (c :: text) ≠ [] := by
  intro h
  have hnil : Json.encodeRune c.toNat = [] := (List.append_eq_nil_iff.1 h).1
  have hlength := (seq_encodeRune (toNat_scalar c)).length_pos
  rw [hnil] at hlength
  exact absurd hlength (by decide)

theorem utf8_injective : ∀ {a b : List Char}, utf8 a = utf8 b → a = b
  | [], [], _ => rfl
  | [], d :: b, h => absurd h.symm (utf8_cons_ne_nil d b)
  | c :: a, [], h => absurd h (utf8_cons_ne_nil c a)
  | c :: a, d :: b, h => by
    obtain ⟨hhead, hrest⟩ := encodeRune_append_inj h
    rw [hhead, utf8_injective hrest]

/-- A text whose bytes are ASCII is one byte for each character. -/
theorem ascii_of_utf8 : ∀ {text : List Char}, (∀ b ∈ utf8 text, b < 0x80) →
    (∀ c ∈ text, c.toNat < 0x80) ∧ utf8 text = text.map (fun c => c.toNat.toUInt8)
  | [], _ => ⟨fun _ hc => (by cases hc), rfl⟩
  | c :: text, h => by
    obtain ⟨hascii, hbytes⟩ := @ascii_of_utf8 text (fun b hb => h b (List.mem_append_right _ hb))
    have hc : c.toNat < 0x80 ∧ Json.encodeRune c.toNat = [c.toNat.toUInt8] := by
      rcases encodeRune_cases (toNat_scalar c) with hcase | ⟨h1, h2, he⟩ | ⟨h1, h2, he⟩ | ⟨h1, he⟩
      · exact hcase
      all_goals
        refine absurd (h _ (List.mem_append_left _ (he ▸ List.mem_cons_self))) (not_ascii_toUInt8 ?_ ?_) <;>
          have hscalar := toNat_scalar c <;> omega
    refine ⟨fun d hd => ?_, ?_⟩
    · rcases List.mem_cons.1 hd with rfl | hd
      · exact hc.1
      · exact hascii d hd
    · exact (congrArg (Json.encodeRune c.toNat ++ ·) hbytes).trans (by rw [hc.2]; rfl)

theorem isValid_utf8 : ∀ text, isValid (utf8 text) = true
  | [] => rfl
  | c :: text => (isValid_seq (seq_encodeRune (toNat_scalar c)) (utf8 text)).trans (isValid_utf8 text)

end Unicode
end Lib
