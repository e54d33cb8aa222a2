import Mathlib.Algebra.Group.Int.Defs
import Mathlib.Algebra.GroupWithZero.Nat
import Mathlib.Data.List.Basic
/-!
# LibUtf8 — byte strings as UTF-8

`seqLen` is the length of the well-formed UTF-8 sequence at the head of a byte string, zero when there is none.  `repair`
copies well-formed sequences and replaces every other byte by U+FFFD, as encoders do that must write valid text.
`isValid` says that nothing was replaced.

The functions walk the bytes with a counter of the bytes of the current sequence still to copy.  Proofs use `Seq`, the
shapes of a well-formed sequence, and `seqInduction`: a byte string is empty, starts with a sequence, or with a byte
that starts none.
-/
namespace Lib

/-- A byte string. -/
abbrev Bytes := List UInt8

instance instLawfulBEqBytes : LawfulBEq Bytes := inferInstanceAs (LawfulBEq (List UInt8))

/-- The bytes of an ASCII literal. -/
def ascii (text : String) : Bytes := text.toList.map (fun c => c.toNat.toUInt8)

namespace Utf8

def isTail (b : UInt8) : Bool := 0x80 ≤ b && b ≤ 0xBF

/-- The first two bytes of a sequence of three. -/
def startsThree (a b : UInt8) : Bool :=
  (a == 0xE0 && (0xA0 ≤ b && b ≤ 0xBF)) || ((0xE1 ≤ a && a ≤ 0xEC) && isTail b) ||
  (a == 0xED && (0x80 ≤ b && b ≤ 0x9F)) || ((0xEE ≤ a && a ≤ 0xEF) && isTail b)

/-- The first two bytes of a sequence of four. -/
def startsFour (a b : UInt8) : Bool :=
  (a == 0xF0 && (0x90 ≤ b && b ≤ 0xBF)) || ((0xF1 ≤ a && a ≤ 0xF3) && isTail b) ||
  (a == 0xF4 && (0x80 ≤ b && b ≤ 0x8F))

@[grind =]
def seqLen : Bytes → Nat
  | [] => 0
  | a :: rest =>
    if a < 0x80 then 1
    else match rest with
      | [] => 0
      | b :: rest =>
        if 0xC2 ≤ a && a ≤ 0xDF && isTail b then 2
        else match rest with
          | [] => 0
          | c :: rest =>
            if startsThree a b && isTail c then 3
            else match rest with
              | [] => 0
              | d :: _ => if startsFour a b && isTail c && isTail d then 4 else 0

/-- U+FFFD. -/
def replacement : Bytes := [0xEF, 0xBF, 0xBD]

@[grind =]
def repairFrom : Nat → Bytes → Bytes
  | _, [] => []
  | n + 1, b :: rest => b :: repairFrom n rest
  | 0, b :: rest =>
    match seqLen (b :: rest) with
    | 0 => replacement ++ repairFrom 0 rest
    | n + 1 => b :: repairFrom n rest

def repair (bs : Bytes) : Bytes := repairFrom 0 bs

@[grind =]
def isValidFrom : Nat → Bytes → Bool
  | _, [] => true
  | n + 1, _ :: rest => isValidFrom n rest
  | 0, b :: rest =>
    match seqLen (b :: rest) with
    | 0 => false
    | n + 1 => isValidFrom n rest

def isValid (bs : Bytes) : Bool := isValidFrom 0 bs

/-- The code points of white space, encoded. -/
def whiteSpace : List Bytes :=
  [[0x09], [0x0A], [0x0B], [0x0C], [0x0D], [0x20], [0xC2, 0x85], [0xC2, 0xA0], [0xE1, 0x9A, 0x80], [0xE2, 0x80, 0x80],
    [0xE2, 0x80, 0x81], [0xE2, 0x80, 0x82], [0xE2, 0x80, 0x83], [0xE2, 0x80, 0x84], [0xE2, 0x80, 0x85], [0xE2, 0x80, 0x86],
    [0xE2, 0x80, 0x87], [0xE2, 0x80, 0x88], [0xE2, 0x80, 0x89], [0xE2, 0x80, 0x8A], [0xE2, 0x80, 0xA8], [0xE2, 0x80, 0xA9],
    [0xE2, 0x80, 0xAF], [0xE2, 0x81, 0x9F], [0xE3, 0x80, 0x80]]

def trimLeft : Nat → Bytes → Bytes
  | 0, bs => bs
  | n + 1, bs =>
    match whiteSpace.find? (fun space => space.isPrefixOf bs) with
    | some space => trimLeft n (bs.drop space.length)
    | none => bs

def trimRight : Nat → Bytes → Bytes
  | 0, bs => bs
  | n + 1, bs =>
    match whiteSpace.find? (fun space => space.isSuffixOf bs) with
    | some space => trimRight n (bs.take (bs.length - space.length))
    | none => bs

/-- The bytes without the white space at both ends. -/
def trimSpace (bs : Bytes) : Bytes := trimRight bs.length (trimLeft bs.length bs)

/-! ## Sequences -/

/-- **The shapes of a well-formed sequence.** -/
inductive Seq : Bytes → Prop
  | one {a : UInt8} (h : a < 0x80) : Seq [a]
  | two {a b : UInt8} (ha : ¬ a < 0x80) (h : (0xC2 ≤ a && a ≤ 0xDF && isTail b) = true) : Seq [a, b]
  | three {a b c : UInt8} (ha : ¬ a < 0x80) (h2 : ¬ (0xC2 ≤ a && a ≤ 0xDF && isTail b) = true)
      (h : (startsThree a b && isTail c) = true) : Seq [a, b, c]
  | four {a b c d : UInt8} (ha : ¬ a < 0x80) (h2 : ¬ (0xC2 ≤ a && a ≤ 0xDF && isTail b) = true)
      (h3 : ¬ (startsThree a b && isTail c) = true) (h : (startsFour a b && isTail c && isTail d) = true) :
      Seq [a, b, c, d]

theorem seqLen_append {seq : Bytes} (h : Seq seq) (rest : Bytes) : seqLen (seq ++ rest) = seq.length := by
  cases h with
  | one h => simp [seqLen, h]
  | two ha h => simp only [List.cons_append, List.nil_append, seqLen, if_neg ha, if_pos h]; rfl
  | three ha h2 h => simp only [List.cons_append, List.nil_append, seqLen, if_neg ha, if_neg h2, if_pos h]; rfl
  | four ha h2 h3 h =>
    simp only [List.cons_append, List.nil_append, seqLen, if_neg ha, if_neg h2, if_neg h3, if_pos h]; rfl

theorem seq_of_seqLen {bs : Bytes} (h : seqLen bs ≠ 0) : ∃ seq rest, bs = seq ++ rest ∧ Seq seq := by
  match bs, h with
  | [], h => exact absurd rfl h
  | a :: rest, h =>
    by_cases ha : a < 0x80
    · exact ⟨[a], rest, rfl, .one ha⟩
    match rest, h with
    | [], h => simp [seqLen, ha] at h
    | b :: rest, h =>
      by_cases h2 : (0xC2 ≤ a && a ≤ 0xDF && isTail b) = true
      · exact ⟨[a, b], rest, rfl, .two ha h2⟩
      match rest, h with
      | [], h => simp only [seqLen, if_neg ha, if_neg h2] at h; exact absurd rfl h
      | c :: rest, h =>
        by_cases h3 : (startsThree a b && isTail c) = true
        · exact ⟨[a, b, c], rest, rfl, .three ha h2 h3⟩
        match rest, h with
        | [], h => simp only [seqLen, if_neg ha, if_neg h2, if_neg h3] at h; exact absurd rfl h
        | d :: rest, h =>
          by_cases h4 : (startsFour a b && isTail c && isTail d) = true
          · exact ⟨[a, b, c, d], rest, rfl, .four ha h2 h3 h4⟩
          · simp only [seqLen, if_neg ha, if_neg h2, if_neg h3, if_neg h4] at h; exact absurd rfl h

/-- What comes before the first element that a test refuses. -/
theorem takeWhile_append_stop {α : Type} {p : α → Bool} {a b : List α} (ha : ∀ x ∈ a, p x = true)
    (hb : ∀ x ∈ b.head?, p x = false) : (a ++ b).takeWhile p = a ∧ (a ++ b).dropWhile p = b := by
  rw [List.takeWhile_append_of_pos ha, List.dropWhile_append_of_pos ha]
  cases b with
  | nil => exact ⟨List.append_nil a, rfl⟩
  | cons x b =>
    have hx := hb x rfl
    rw [List.takeWhile_cons_of_neg (by rw [hx]; decide), List.dropWhile_cons_of_neg (by rw [hx]; decide)]
    exact ⟨List.append_nil a, rfl⟩

theorem forall_byte {P : UInt8 → Prop} (h : ∀ high low : Fin 16, P (UInt8.ofNat (16 * high.val + low.val))) (b : UInt8) : P b := by
  have hdigits := h ⟨b.toNat / 16, by have := b.toNat_lt; omega⟩ ⟨b.toNat % 16, by omega⟩
  rwa [show 16 * (b.toNat / 16) + b.toNat % 16 = b.toNat from Nat.div_add_mod .., UInt8.ofNat_toNat] at hdigits

theorem isTail_of_range {b lo hi : UInt8} (hlo : 0x80 ≤ lo) (hhi : hi ≤ 0xBF) (h : lo ≤ b ∧ b ≤ hi) : isTail b = true := by
  simp only [isTail, Bool.and_eq_true, decide_eq_true_eq, UInt8.le_iff_toNat_le] at h hlo hhi ⊢
  exact ⟨Nat.le_trans hlo h.1, Nat.le_trans h.2 hhi⟩

theorem isTail_of_startsThree {a b : UInt8} (h : startsThree a b = true) : isTail b = true := by
  simp only [startsThree, Bool.or_eq_true, Bool.and_eq_true, decide_eq_true_eq] at h
  rcases h with ((⟨-, h⟩ | ⟨-, h⟩) | ⟨-, h⟩) | ⟨-, h⟩
  · exact isTail_of_range (by decide) (by decide) h
  · exact h
  · exact isTail_of_range (by decide) (by decide) h
  · exact h

theorem isTail_of_startsFour {a b : UInt8} (h : startsFour a b = true) : isTail b = true := by
  simp only [startsFour, Bool.or_eq_true, Bool.and_eq_true, decide_eq_true_eq] at h
  rcases h with (⟨-, h⟩ | ⟨-, h⟩) | ⟨-, h⟩
  · exact isTail_of_range (by decide) (by decide) h
  · exact h
  · exact isTail_of_range (by decide) (by decide) h

theorem Seq.length_pos {seq : Bytes} (h : Seq seq) : 0 < seq.length := by
  cases h <;> simp

/-- **Induction along the sequences of a byte string.** -/
theorem seqInduction {P : Bytes → Prop} (nil : P [])
    (bad : ∀ b rest, seqLen (b :: rest) = 0 → P rest → P (b :: rest))
    (good : ∀ seq rest, Seq seq → P rest → P (seq ++ rest)) : ∀ bs, P bs := by
  intro bs
  generalize hn : bs.length = n
  induction n using Nat.strongRecOn generalizing bs with
  | _ n ih =>
    cases bs with
    | nil => exact nil
    | cons b rest =>
      by_cases h0 : seqLen (b :: rest) = 0
      · exact bad b rest h0 (ih rest.length (by rw [← hn]; simp) rest rfl)
      · obtain ⟨seq, tail, heq, hseq⟩ := seq_of_seqLen h0
        rw [heq]
        have hlen : tail.length < n := by
          rw [← hn, heq, List.length_append]
          have := hseq.length_pos
          omega
        exact good seq tail hseq (ih tail.length hlen tail rfl)

/-! ## Repair -/

theorem repairFrom_length (seq rest : Bytes) : repairFrom seq.length (seq ++ rest) = seq ++ repairFrom 0 rest := by
  induction seq with
  | nil => rfl
  | cons b seq ih => simp only [List.length_cons, List.cons_append, repairFrom, ih]

@[simp] theorem repair_nil : repair [] = [] := rfl

theorem repair_seq {seq : Bytes} (h : Seq seq) (rest : Bytes) : repair (seq ++ rest) = seq ++ repair rest := by
  have hlen := seqLen_append h rest
  cases seq with
  | nil => cases h
  | cons b seq =>
    simp only [List.cons_append, List.length_cons] at hlen ⊢
    unfold repair
    simp only [repairFrom, hlen, repairFrom_length]

theorem repair_bad {b : UInt8} {rest : Bytes} (h : seqLen (b :: rest) = 0) :
    repair (b :: rest) = replacement ++ repair rest := by
  unfold repair
  simp only [repairFrom, h]

theorem isValidFrom_length (seq rest : Bytes) : isValidFrom seq.length (seq ++ rest) = isValidFrom 0 rest := by
  induction seq with
  | nil => rfl
  | cons b seq ih => simp only [List.length_cons, List.cons_append, isValidFrom, ih]

@[simp] theorem isValid_nil : isValid [] = true := rfl

theorem isValid_seq {seq : Bytes} (h : Seq seq) (rest : Bytes) : isValid (seq ++ rest) = isValid rest := by
  have hlen := seqLen_append h rest
  cases seq with
  | nil => cases h
  | cons b seq =>
    simp only [List.cons_append, List.length_cons] at hlen ⊢
    unfold isValid
    simp only [isValidFrom, hlen, isValidFrom_length]

theorem isValid_bad {b : UInt8} {rest : Bytes} (h : seqLen (b :: rest) = 0) : isValid (b :: rest) = false := by
  unfold isValid
  simp only [isValidFrom, h]

theorem seq_replacement : Seq replacement := .three (by decide) (by decide) (by decide)

theorem isValid_repair (bs : Bytes) : isValid (repair bs) = true := by
  induction bs using seqInduction with
  | nil => rfl
  | bad b rest h ih => rw [repair_bad h, isValid_seq seq_replacement, ih]
  | good seq rest h ih => rw [repair_seq h, isValid_seq h, ih]

theorem length_le_repair (bs : Bytes) : bs.length ≤ (repair bs).length := by
  induction bs using seqInduction with
  | nil => exact Nat.le_refl _
  | bad b rest h ih => rw [repair_bad h]; simp only [List.length_append, List.length_cons, replacement]; omega
  | good seq rest h ih => rw [repair_seq h]; simp only [List.length_append]; omega

/-- **Repair leaves exactly the valid byte strings alone.** -/
theorem repair_eq_iff (bs : Bytes) : repair bs = bs ↔ isValid bs = true := by
  constructor
  · intro h
    rw [← h]
    exact isValid_repair bs
  · intro h
    induction bs using seqInduction with
    | nil => rfl
    | bad b rest hb ih => rw [isValid_bad hb] at h; cases h
    | good seq rest hs ih => rw [repair_seq hs, ih (by rwa [isValid_seq hs] at h)]

@[simp] theorem repair_repair (bs : Bytes) : repair (repair bs) = repair bs :=
  (repair_eq_iff _).2 (isValid_repair bs)

theorem isValid_append {a : Bytes} : isValid a = true → ∀ b, isValid (a ++ b) = isValid b := by
  induction a using seqInduction with
  | nil => exact fun _ _ => rfl
  | good seq rest hseq ih =>
    intro h b
    rw [List.append_assoc, isValid_seq hseq]
    exact ih (by rwa [isValid_seq hseq] at h) b
  | bad b rest hb ih =>
    intro h
    rw [isValid_bad hb] at h
    cases h

theorem not_ascii_of_isTail : ∀ b : UInt8, isTail b = true → ¬b < 0x80 := forall_byte (by decide)

/-- Only the first byte of a sequence may be ASCII. -/
theorem Seq.tail_not_ascii {b : UInt8} {tail : Bytes} (h : Seq (b :: tail)) : ∀ x ∈ tail, ¬x < 0x80 := by
  intro x hx
  cases h with
  | one => cases hx
  | two _ h =>
    simp only [Bool.and_eq_true] at h
    rw [List.mem_singleton.1 hx]
    exact not_ascii_of_isTail _ h.2
  | three _ _ h =>
    obtain ⟨h, hc⟩ := Bool.and_eq_true_iff.1 h
    rcases List.mem_cons.1 hx with rfl | hx
    · exact not_ascii_of_isTail _ (isTail_of_startsThree h)
    · rw [List.mem_singleton.1 hx]
      exact not_ascii_of_isTail _ hc
  | four _ _ _ h =>
    obtain ⟨h, hd⟩ := Bool.and_eq_true_iff.1 h
    obtain ⟨h, hc⟩ := Bool.and_eq_true_iff.1 h
    rcases List.mem_cons.1 hx with rfl | hx
    · exact not_ascii_of_isTail _ (isTail_of_startsFour h)
    rcases List.mem_cons.1 hx with rfl | hx
    · exact not_ascii_of_isTail _ hc
    · rw [List.mem_singleton.1 hx]
      exact not_ascii_of_isTail _ hd

/-- **A valid byte string can be cut at an ASCII byte.** -/
theorem isValid_cut {x : UInt8} (hx : x < 0x80) {a b : Bytes} (h : isValid (a ++ x :: b) = true) :
    isValid a = true ∧ isValid b = true := by
  have hbefore : ∀ (bs a : Bytes), bs = a ++ x :: b → isValid bs = true → isValid a = true := by
    intro bs
    induction bs using seqInduction with
    | nil => exact fun a heq _ => absurd heq.symm (by simp)
    | bad c rest hbad _ =>
      intro a _ hvalid
      rw [isValid_bad hbad] at hvalid
      cases hvalid
    | good seq rest hseq ih =>
      intro a heq hvalid
      rcases List.append_eq_append_iff.1 heq with ⟨c, rfl, hrest⟩ | ⟨c, hseqeq, hrest⟩
      · rw [isValid_seq hseq] at hvalid ⊢
        exact ih c hrest hvalid
      · cases c with
        | nil =>
          rw [List.append_nil] at hseqeq
          rw [← hseqeq, ← List.append_nil seq, isValid_seq hseq, isValid_nil]
        | cons y c =>
          cases hrest
          cases a with
          | nil => rfl
          | cons z a =>
            rw [hseqeq] at hseq
            exact absurd hx (hseq.tail_not_ascii x (List.mem_append_right a List.mem_cons_self))
  have ha := hbefore _ a rfl h
  rw [isValid_append ha, ← List.singleton_append, isValid_seq (.one hx)] at h
  exact ⟨ha, h⟩

/-- An ASCII byte string is valid. -/
theorem isValid_of_ascii (bs : Bytes) (h : ∀ b ∈ bs, b < 0x80) : isValid bs = true := by
  induction bs with
  | nil => rfl
  | cons b rest ih =>
    have := isValid_seq (.one (h b (by simp))) rest
    rw [List.singleton_append] at this
    rw [this]
    exact ih (fun x hx => h x (by simp [hx]))

/-! ## Decoders that replace whole parts -/

/-- How many bytes at the head of a byte string start a sequence that the next byte breaks. -/
def brokenLen : Bytes → Nat
  | a :: b :: c :: _ => if startsFour a b && isTail c then 3 else if startsThree a b || startsFour a b then 2 else 1
  | [a, b] => if startsThree a b || startsFour a b then 2 else 1
  | _ => 1

/-- `copied` bytes of a sequence to copy, then `broken` bytes of a broken one to leave out. -/
def decodeFrom : Nat → Nat → Bytes → Bytes
  | _, _, [] => []
  | copied + 1, broken, b :: rest => b :: decodeFrom copied broken rest
  | 0, broken + 1, _ :: rest => decodeFrom 0 broken rest
  | 0, 0, b :: rest =>
    match seqLen (b :: rest) with
    | 0 => replacement ++ decodeFrom 0 (brokenLen (b :: rest) - 1) rest
    | n + 1 => b :: decodeFrom n 0 rest

/-- The text of a byte string, one U+FFFD for each broken sequence. -/
def decode (bs : Bytes) : Bytes := decodeFrom 0 0 bs

theorem decodeFrom_length (seq rest : Bytes) : decodeFrom seq.length 0 (seq ++ rest) = seq ++ decodeFrom 0 0 rest := by
  induction seq with
  | nil => rfl
  | cons b seq ih => simp only [List.length_cons, List.cons_append, decodeFrom, ih]

theorem decode_seq {seq : Bytes} (h : Seq seq) (rest : Bytes) : decode (seq ++ rest) = seq ++ decode rest := by
  have hlen := seqLen_append h rest
  cases seq with
  | nil => cases h
  | cons b seq =>
    simp only [List.cons_append, List.length_cons] at hlen ⊢
    unfold decode
    simp only [decodeFrom, hlen, decodeFrom_length]

/-- **Valid bytes are their own text.** -/
theorem decode_of_isValid (bs : Bytes) : isValid bs = true → decode bs = bs := by
  induction bs using seqInduction with
  | nil => exact fun _ => rfl
  | bad b rest hbad _ =>
    intro h
    rw [isValid_bad hbad] at h
    cases h
  | good seq rest hseq ih =>
    intro h
    rw [isValid_seq hseq] at h
    rw [decode_seq hseq, ih h]

end Utf8
end Lib
