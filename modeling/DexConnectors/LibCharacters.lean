import DexConnectors.LibUnicode
/-!
# LibCharacters — whole characters, and how many of them fit

The characters of a byte string are its UTF-8 sequences, with U+FFFD for a byte that starts none.  `fitting` keeps the characters
from the first on that fit in some room, which is the longest prefix that does (`fitting_longest`).  Bytes cut anywhere are whole
characters and the start of one more (`take_flatten`); a decoder that ignores what is broken drops that start, and a scan back over
the bytes that follow in a sequence finds where it begins (`walkBack_flatten`).
-/
namespace Lib
namespace Utf8

/-! ## Characters -/

/-- `skipped` bytes of the last character come first. -/
def charactersFrom : Nat → Bytes → List Bytes
  | _, [] => []
  | skipped + 1, _ :: rest => charactersFrom skipped rest
  | 0, b :: rest =>
    if seqLen (b :: rest) = 0 then replacement :: charactersFrom 0 rest
    else (b :: rest).take (seqLen (b :: rest)) :: charactersFrom (seqLen (b :: rest) - 1) rest

def characters (bs : Bytes) : List Bytes := charactersFrom 0 bs

theorem charactersFrom_length (seq rest : Bytes) : charactersFrom seq.length (seq ++ rest) = charactersFrom 0 rest := by
  induction seq with
  | nil => rfl
  | cons b seq ih => simp only [List.length_cons, List.cons_append, charactersFrom, ih]

@[simp] theorem characters_nil : characters [] = [] := rfl

theorem characters_seq {seq : Bytes} (h : Seq seq) (rest : Bytes) : characters (seq ++ rest) = seq :: characters rest := by
  have hlen := seqLen_append h rest
  have htake : (seq ++ rest).take seq.length = seq := List.take_left
  cases seq with
  | nil => cases h
  | cons b seq =>
    rw [List.cons_append] at hlen htake ⊢
    unfold characters
    rw [charactersFrom, hlen, if_neg (by simp), htake, List.length_cons, Nat.add_sub_cancel, charactersFrom_length]

theorem characters_bad {b : UInt8} {rest : Bytes} (h : seqLen (b :: rest) = 0) :
    characters (b :: rest) = replacement :: characters rest := by
  unfold characters
  rw [charactersFrom, if_pos h]

/-- **Every character is a sequence**, and together they are the repaired bytes. -/
theorem characters_spec (bs : Bytes) : (∀ c ∈ characters bs, Seq c) ∧ (characters bs).flatten = repair bs := by
  induction bs using seqInduction with
  | nil => exact ⟨fun c hc => absurd hc List.not_mem_nil, rfl⟩
  | bad b rest h ih =>
    rw [characters_bad h, repair_bad h, List.flatten_cons, ih.2]
    exact ⟨List.forall_mem_cons.2 ⟨seq_replacement, ih.1⟩, rfl⟩
  | good seq rest h ih =>
    rw [characters_seq h, repair_seq h, List.flatten_cons, ih.2]
    exact ⟨List.forall_mem_cons.2 ⟨h, ih.1⟩, rfl⟩

theorem isValid_flatten : ∀ {cs : List Bytes}, (∀ c ∈ cs, Seq c) → isValid cs.flatten = true
  | [], _ => rfl
  | c :: cs, h => by
    rw [List.flatten_cons, isValid_seq (h c List.mem_cons_self)]
    exact isValid_flatten fun d hd => h d (List.mem_cons_of_mem c hd)

/-! ## What fits -/

/-- The first items that fit in the room. -/
def fitting : Nat → List Bytes → List Bytes
  | _, [] => []
  | room, c :: cs => if c.length ≤ room then c :: fitting (room - c.length) cs else []

/-- **The longest prefix**, in whole items, that fits in the room. -/
def LongestFit (room : Nat) (cs kept : List Bytes) : Prop :=
  kept <+: cs ∧ kept.flatten.length ≤ room ∧ ∀ other, other <+: cs → other.flatten.length ≤ room → other.length ≤ kept.length

theorem prefix_fitting : ∀ (room : Nat) (cs : List Bytes), fitting room cs <+: cs
  | _, [] => List.nil_prefix
  | room, c :: cs => by
    unfold fitting
    split
    · exact (List.prefix_cons_inj c).2 (prefix_fitting (room - c.length) cs)
    · exact List.nil_prefix

theorem length_fitting : ∀ (room : Nat) (cs : List Bytes), (fitting room cs).flatten.length ≤ room
  | _, [] => Nat.zero_le _
  | room, c :: cs => by
    unfold fitting
    split
    next hfits =>
      have ih := length_fitting (room - c.length) cs
      rw [List.flatten_cons, List.length_append]
      omega
    · exact Nat.zero_le _

theorem fitting_longest : ∀ (room : Nat) (cs : List Bytes), LongestFit room cs (fitting room cs) := by
  intro room cs
  refine ⟨prefix_fitting room cs, length_fitting room cs, ?_⟩
  induction cs generalizing room with
  | nil =>
    intro other hother _
    rw [List.prefix_nil.1 hother]
    exact Nat.zero_le _
  | cons c cs ih =>
    intro other hother hlength
    cases other with
    | nil => exact Nat.zero_le _
    | cons d other =>
      obtain ⟨rfl, hrest⟩ := List.cons_prefix_cons.1 hother
      rw [List.flatten_cons, List.length_append] at hlength
      unfold fitting
      rw [if_pos (by omega), List.length_cons, List.length_cons]
      exact Nat.succ_le_succ (ih (room - d.length) other hrest (by omega))

theorem fitting_all {room : Nat} : ∀ {cs : List Bytes}, cs.flatten.length ≤ room → fitting room cs = cs
  | [], _ => rfl
  | c :: cs, h => by
    rw [List.flatten_cons, List.length_append] at h
    unfold fitting
    rw [if_pos (by omega), fitting_all (by omega)]

/-- **What fits, and the item that does not.** -/
theorem fitting_split : ∀ {room : Nat} {cs : List Bytes}, room < cs.flatten.length →
    ∃ c rest, cs = fitting room cs ++ c :: rest ∧ room < (fitting room cs).flatten.length + c.length
  | _, [], h => absurd h (Nat.not_lt_zero _)
  | room, c :: cs, h => by
    rw [List.flatten_cons, List.length_append] at h
    unfold fitting
    split
    next hfits =>
      obtain ⟨d, rest, hcs, hlength⟩ := @fitting_split (room - c.length) cs (by omega)
      refine ⟨d, rest, by rw [List.cons_append, ← hcs], ?_⟩
      rw [List.flatten_cons, List.length_append]
      omega
    next hlarge => exact ⟨c, cs, rfl, by simpa using hlarge⟩

/-- **Bytes cut anywhere**: whole items and the start of the next. -/
theorem take_flatten {room : Nat} {cs : List Bytes} (h : room < cs.flatten.length) :
    ∃ c ∈ cs, ∃ n < c.length, cs.flatten.take room = (fitting room cs).flatten ++ c.take n := by
  obtain ⟨c, rest, hcs, hlength⟩ := fitting_split h
  have hroom := length_fitting room cs
  refine ⟨c, by rw [hcs]; simp, room - (fitting room cs).flatten.length, by omega, ?_⟩
  conv => lhs; rw [hcs]
  rw [List.flatten_append, List.flatten_cons, List.take_append, List.take_append, List.take_of_length_le hroom,
    Nat.sub_eq_zero_of_le (show room - (fitting room cs).flatten.length ≤ c.length by omega), List.take_zero, List.append_nil]

/-! ## Broken ends -/

/-- `copied` bytes of a sequence to copy, then `broken` bytes of a broken one to leave out. -/
def ignoreFrom : Nat → Nat → Bytes → Bytes
  | _, _, [] => []
  | copied + 1, broken, b :: rest => b :: ignoreFrom copied broken rest
  | 0, broken + 1, _ :: rest => ignoreFrom 0 broken rest
  | 0, 0, b :: rest =>
    match seqLen (b :: rest) with
    | 0 => ignoreFrom 0 (brokenLen (b :: rest) - 1) rest
    | n + 1 => b :: ignoreFrom n 0 rest

/-- The text of a byte string without its broken sequences. -/
def ignoreBroken (bs : Bytes) : Bytes := ignoreFrom 0 0 bs

theorem ignoreFrom_length (seq rest : Bytes) : ignoreFrom seq.length 0 (seq ++ rest) = seq ++ ignoreFrom 0 0 rest := by
  induction seq with
  | nil => rfl
  | cons b seq ih => simp only [List.length_cons, List.cons_append, ignoreFrom, ih]

theorem ignoreBroken_seq {seq : Bytes} (h : Seq seq) (rest : Bytes) : ignoreBroken (seq ++ rest) = seq ++ ignoreBroken rest := by
  have hlen := seqLen_append h rest
  cases seq with
  | nil => cases h
  | cons b seq =>
    simp only [List.cons_append, List.length_cons] at hlen ⊢
    unfold ignoreBroken
    simp only [ignoreFrom, hlen, ignoreFrom_length]

theorem ignoreBroken_flatten : ∀ {cs : List Bytes}, (∀ c ∈ cs, Seq c) → ∀ rest,
    ignoreBroken (cs.flatten ++ rest) = cs.flatten ++ ignoreBroken rest
  | [], _, _ => rfl
  | c :: cs, h, rest => by
    rw [List.flatten_cons, List.append_assoc, ignoreBroken_seq (h c List.mem_cons_self),
      ignoreBroken_flatten (fun d hd => h d (List.mem_cons_of_mem c hd)), List.append_assoc]

/-- The start of a sequence that ends too soon is broken. -/
theorem ignoreBroken_take {seq : Bytes} (h : Seq seq) {n : Nat} (hn : n < seq.length) : ignoreBroken (seq.take n) = [] := by
  cases h with
  | one ha =>
    obtain rfl : n = 0 := Nat.lt_one_iff.1 hn
    rfl
  | @two a b ha hb =>
    have hn : n < 2 := hn
    obtain rfl | rfl : n = 0 ∨ n = 1 := by omega
    · rfl
    · simp [ignoreBroken, ignoreFrom, seqLen, ha]
  | @three a b c ha h2 hc =>
    have hstarts := (Bool.and_eq_true_iff.1 hc).1
    have hn : n < 3 := hn
    obtain rfl | rfl | rfl : n = 0 ∨ n = 1 ∨ n = 2 := by omega
    · rfl
    · simp [ignoreBroken, ignoreFrom, seqLen, ha]
    · have hlen : seqLen [a, b] = 0 := by
        simp only [seqLen]
        rw [if_neg ha, if_neg h2]
      have hbroken : brokenLen [a, b] = 2 := by
        simp only [brokenLen]
        rw [hstarts]
        rfl
      simp [ignoreBroken, ignoreFrom, hlen, hbroken]
  | @four a b c d ha h2 h3 hd =>
    obtain ⟨hstarts, hc⟩ := Bool.and_eq_true_iff.1 (Bool.and_eq_true_iff.1 hd).1
    have hn : n < 4 := hn
    obtain rfl | rfl | rfl | rfl : n = 0 ∨ n = 1 ∨ n = 2 ∨ n = 3 := by omega
    · rfl
    · simp [ignoreBroken, ignoreFrom, seqLen, ha]
    · have hlen : seqLen [a, b] = 0 := by
        simp only [seqLen]
        rw [if_neg ha, if_neg h2]
      have hbroken : brokenLen [a, b] = 2 := by
        simp only [brokenLen]
        rw [hstarts, Bool.or_true]
        rfl
      simp [ignoreBroken, ignoreFrom, hlen, hbroken]
    · have hlen : seqLen [a, b, c] = 0 := by
        simp only [seqLen]
        rw [if_neg ha, if_neg h2, if_neg h3]
      have hbroken : brokenLen [a, b, c] = 3 := by
        simp only [brokenLen]
        rw [hstarts, hc]
        rfl
      simp [ignoreBroken, ignoreFrom, hlen, hbroken]

/-- **Bytes of whole characters, cut anywhere**, are the characters that fit when what is broken is ignored. -/
theorem ignoreBroken_cut {cs : List Bytes} (h : ∀ c ∈ cs, Seq c) (room : Nat) :
    ignoreBroken (cs.flatten.take room) = (fitting room cs).flatten := by
  by_cases hlength : cs.flatten.length ≤ room
  · have hall := ignoreBroken_flatten h []
    rw [List.append_nil] at hall
    rw [List.take_of_length_le hlength, fitting_all hlength, hall]
    exact List.append_nil _
  · obtain ⟨c, hc, n, hn, hcut⟩ := take_flatten (Nat.not_le.1 hlength)
    rw [hcut, ignoreBroken_flatten (fun d hd => h d ((prefix_fitting room cs).mem hd)), ignoreBroken_take (h c hc) hn, List.append_nil]

/-! ## Back to the start of a sequence -/

/-- The first byte of a sequence does not follow in one, and the others do. -/
theorem Seq.isTail_iff {b : UInt8} {tail : Bytes} (h : Seq (b :: tail)) : isTail b = false ∧ ∀ x ∈ tail, isTail x = true := by
  have hlead : ∀ lead : UInt8, 0xC2 ≤ lead → isTail lead = false := forall_byte (by decide)
  have hascii : ∀ lead : UInt8, lead < 0x80 → isTail lead = false := forall_byte (by decide)
  cases h with
  | one ha => exact ⟨hascii b ha, fun x hx => absurd hx List.not_mem_nil⟩
  | two ha h =>
    simp only [Bool.and_eq_true, decide_eq_true_eq] at h
    exact ⟨hlead b h.1.1, fun x hx => by rw [List.mem_singleton.1 hx]; exact h.2⟩
  | @three _ c d ha h2 h =>
    obtain ⟨hstarts, hd⟩ := Bool.and_eq_true_iff.1 h
    refine ⟨hlead b ?_, fun x hx => ?_⟩
    · simp only [startsThree, Bool.or_eq_true, Bool.and_eq_true, decide_eq_true_eq, beq_iff_eq] at hstarts
      rcases hstarts with ((⟨h, -⟩ | ⟨⟨h, -⟩, -⟩) | ⟨h, -⟩) | ⟨⟨h, -⟩, -⟩
      · rw [h]; decide
      · exact UInt8.le_trans (by decide) h
      · rw [h]; decide
      · exact UInt8.le_trans (by decide) h
    · rcases List.mem_cons.1 hx with rfl | hx
      · exact isTail_of_startsThree hstarts
      · rw [List.mem_singleton.1 hx]
        exact hd
  | @four _ c d e ha h2 h3 h =>
    obtain ⟨h, he⟩ := Bool.and_eq_true_iff.1 h
    obtain ⟨hstarts, hd⟩ := Bool.and_eq_true_iff.1 h
    refine ⟨hlead b ?_, fun x hx => ?_⟩
    · simp only [startsFour, Bool.or_eq_true, Bool.and_eq_true, decide_eq_true_eq, beq_iff_eq] at hstarts
      rcases hstarts with (⟨h, -⟩ | ⟨⟨h, -⟩, -⟩) | ⟨h, -⟩
      · rw [h]; decide
      · exact UInt8.le_trans (by decide) h
      · rw [h]; decide
    · rcases List.mem_cons.1 hx with rfl | hx
      · exact isTail_of_startsFour hstarts
      rcases List.mem_cons.1 hx with rfl | hx
      · exact hd
      · rw [List.mem_singleton.1 hx]
        exact he

/-- The last place at or before `end` whose byte follows in no sequence; no byte stands past the end. -/
def walkBack (bs : Bytes) : Nat → Nat
  | 0 => 0
  | place + 1 => if isTail (bs.getD (place + 1) 0) then walkBack bs place else place + 1

theorem walkBack_seq {front seq back : Bytes} (h : Seq seq) : ∀ {n : Nat}, n < seq.length →
    walkBack (front ++ seq ++ back) (front.length + n) = front.length
  | 0, hn => by
    cases seq with
    | nil => cases h
    | cons b tail =>
      cases hfront : front.length with
      | zero => rfl
      | succ place =>
        have hbyte : (front ++ b :: tail ++ back).getD (place + 1) 0 = b := by
          rw [← hfront]
          simp [List.getD]
        rw [Nat.add_zero, walkBack, hbyte, h.isTail_iff.1]
        rfl
  | n + 1, hn => by
    cases seq with
    | nil => cases h
    | cons b tail =>
      rw [List.length_cons] at hn
      have hbyte : (front ++ b :: tail ++ back).getD (front.length + n + 1) 0 = tail.get ⟨n, by omega⟩ := by
        rw [List.getD_eq_getElem?_getD, List.append_assoc, List.getElem?_append_right (by omega),
          show front.length + n + 1 - front.length = n + 1 from by omega, List.cons_append, List.getElem?_cons_succ,
          List.getElem?_append_left (by omega), List.getElem?_eq_getElem (by omega)]
        rfl
      rw [← Nat.add_assoc, walkBack, hbyte, h.isTail_iff.2 _ (List.get_mem tail _), if_pos rfl]
      exact walkBack_seq h (by rw [List.length_cons]; omega)

/-- **The scan back from a cut** ends where the characters that fit do. -/
theorem walkBack_flatten {cs : List Bytes} (h : ∀ c ∈ cs, Seq c) {room : Nat} (hlength : room < cs.flatten.length) :
    walkBack cs.flatten room = (fitting room cs).flatten.length := by
  obtain ⟨c, rest, hcs, hlarge⟩ := fitting_split hlength
  have hroom := length_fitting room cs
  have hflatten : cs.flatten = (fitting room cs).flatten ++ c ++ rest.flatten := by
    conv => lhs; rw [hcs]
    rw [List.flatten_append, List.flatten_cons, List.append_assoc]
  have hc : Seq c := h c (by rw [hcs]; simp)
  have hback := @walkBack_seq (fitting room cs).flatten c rest.flatten hc _
    (show room - (fitting room cs).flatten.length < c.length by omega)
  rw [← hflatten, Nat.add_sub_cancel' hroom] at hback
  exact hback

end Utf8

/-! ## Texts -/

namespace Unicode

open Utf8

/-- The text that bytes hold, each byte that starts no sequence as U+FFFD. -/
def textOf (bs : Bytes) : List Char := (characters bs).map (fun c => Char.ofNat (runeOf c))

theorem characters_utf8 : ∀ text : List Char, characters (utf8 text) = text.map (fun c => Json.encodeRune c.toNat)
  | [] => rfl
  | c :: text => by
    show characters (Json.encodeRune c.toNat ++ utf8 text) = _
    rw [characters_seq (seq_encodeRune (toNat_scalar c)), characters_utf8 text, List.map_cons]

theorem textOf_utf8 (text : List Char) : textOf (utf8 text) = text := by
  unfold textOf
  rw [characters_utf8, List.map_map]
  refine (List.map_congr_left fun c _ => ?_).trans (List.map_id text)
  show Char.ofNat (runeOf (Json.encodeRune c.toNat)) = c
  rw [runeOf_encodeRune (toNat_scalar c), Char.ofNat_toNat]

end Unicode
end Lib
