import DexConnectors.LibJsonString
/-!
# LibNumberText — hexadecimal and decimal texts

`encoding/hex` and the decimal texts of 64-bit integers in Go's `strconv`.  A parsed number has a text of its own choice of
sign and leading zeros; `parseInt_formatInt` is the round trip of the text that is written.
-/
namespace Lib
namespace Utf8

/-- What stands before the first separator can be read off. -/
theorem split_at {α : Type} {sep : α} : ∀ {a a' b b' : List α}, sep ∉ a → sep ∉ a' → a ++ sep :: b = a' ++ sep :: b' →
    a = a' ∧ b = b'
  | [], [], _, _, _, _, h => ⟨rfl, (List.cons.inj h).2⟩
  | [], c :: _, _, _, _, h', h => absurd (List.mem_cons.2 (.inl (List.cons.inj h).1)) h'
  | c :: _, [], _, _, h', _, h => absurd (List.mem_cons.2 (.inl (List.cons.inj h).1.symm)) h'
  | c :: a, c' :: a', b, b', ha, ha', h => by
    obtain ⟨hc, hrest⟩ := List.cons.inj h
    obtain ⟨h1, h2⟩ := split_at (fun hm => ha (List.mem_cons_of_mem c hm)) (fun hm => ha' (List.mem_cons_of_mem c' hm)) hrest
    exact ⟨by rw [hc, h1], h2⟩

/-! ## Hexadecimal -/

def hexEncode (bytes : Bytes) : Bytes := bytes.flatMap (fun (b : UInt8) => [Json.hexDigit (b >>> 4), Json.hexDigit (b &&& 0x0F)])

def hexDecode : Bytes → Option Bytes
  | [] => some []
  | [_] => none
  | high :: low :: rest =>
    if Json.isHex high && Json.isHex low then
      (hexDecode rest).map ((Json.hexValue high * 16 + Json.hexValue low).toUInt8 :: ·)
    else none

theorem hex_digits : ∀ b : UInt8, (Json.isHex (Json.hexDigit (b >>> 4)) && Json.isHex (Json.hexDigit (b &&& 0x0F))) = true ∧
    (Json.hexValue (Json.hexDigit (b >>> 4)) * 16 + Json.hexValue (Json.hexDigit (b &&& 0x0F))).toUInt8 = b :=
  forall_byte (by decide)

theorem hexDecode_hexEncode : ∀ bytes, hexDecode (hexEncode bytes) = some bytes
  | [] => rfl
  | b :: rest => by
    obtain ⟨hdigits, hvalue⟩ := hex_digits b
    rw [hexEncode, List.flatMap_cons]
    show (if _ then _ else _) = _
    rw [if_pos hdigits, hvalue]
    have ih := hexDecode_hexEncode rest
    rw [hexEncode] at ih
    show (hexDecode (rest.flatMap _)).map _ = _
    rw [ih]
    rfl

/-! ## Decimal numbers -/

def isDigit (b : UInt8) : Bool := 0x30 ≤ b && b ≤ 0x39

def digitsValue (digits : Bytes) : Nat := digits.foldl (fun n b => n * 10 + (b.toNat - 0x30)) 0

/-- The digits after the sign, within 64 bits. -/
def parseDigits (negative : Bool) (digits : Bytes) : Option Int :=
  if digits = [] || !digits.all isDigit then none
  else if negative then (if digitsValue digits ≤ 2 ^ 63 then some (-(digitsValue digits : Int)) else none)
  else if digitsValue digits < 2 ^ 63 then some (digitsValue digits)
  else none

/-- `strconv.ParseInt(text, 10, 64)`. -/
def parseInt (text : Bytes) : Option Int :=
  match text with
  | [] => none
  | sign :: digits =>
    if sign = 0x2B then parseDigits false digits
    else if sign = 0x2D then parseDigits true digits
    else parseDigits false text

def formatNat (n : Nat) : Bytes := ascii n.repr

/-- `strconv.FormatInt(n, 10)`. -/
def formatInt (n : Int) : Bytes := if n < 0 then 0x2D :: formatNat n.natAbs else formatNat n.natAbs

theorem formatNat_eq (n : Nat) : formatNat n = (Nat.toDigits 10 n).map (fun c => c.toNat.toUInt8) := by
  rw [formatNat, ascii, Nat.toList_repr]

theorem digit_byte {c : Char} (h : c.isDigit = true) :
    isDigit c.toNat.toUInt8 = true ∧ c.toNat.toUInt8.toNat - 0x30 = c.toNat - 0x30 := by
  simp only [Char.isDigit, Bool.and_eq_true, decide_eq_true_eq, UInt32.le_iff_toNat_le] at h
  have hlo : 48 ≤ c.toNat := h.1
  have hhi : c.toNat ≤ 57 := h.2
  have hto : c.toNat.toUInt8.toNat = c.toNat := by
    rw [UInt8.toNat_ofNat']
    omega
  refine ⟨?_, by rw [hto]⟩
  rw [isDigit, Bool.and_eq_true, decide_eq_true_eq, decide_eq_true_eq, UInt8.le_iff_toNat_le, UInt8.le_iff_toNat_le, hto]
  exact ⟨hlo, hhi⟩

theorem isDigit_formatNat (n : Nat) : (formatNat n).all isDigit = true := by
  rw [formatNat_eq, List.all_eq_true]
  intro b hb
  obtain ⟨c, hc, rfl⟩ := List.mem_map.1 hb
  exact (digit_byte (Nat.isDigit_of_mem_toDigits (by decide) (by decide) hc)).1

theorem digitsValue_formatNat (n : Nat) : digitsValue (formatNat n) = n := by
  have hvalue : ∀ (cs : List Char) (start : Nat), (∀ c ∈ cs, c.isDigit = true) →
      (cs.map (fun c => c.toNat.toUInt8)).foldl (fun n b => n * 10 + (b.toNat - 0x30)) start = Nat.ofDigitChars 10 cs start := by
    intro cs
    induction cs with
    | nil => exact fun _ _ => rfl
    | cons c rest ih =>
      intro start hcs
      rw [List.map_cons, List.foldl_cons, Nat.ofDigitChars_cons, ih _ (fun c hc => hcs c (List.mem_cons_of_mem _ hc)),
        (digit_byte (hcs c List.mem_cons_self)).2, Nat.mul_comm]
      rfl
  rw [digitsValue, formatNat_eq, hvalue _ 0 (fun c hc => Nat.isDigit_of_mem_toDigits (by decide) (by decide) hc),
    Nat.ofDigitChars_ten_toDigits]

theorem formatNat_ne_nil (n : Nat) : formatNat n ≠ [] := by
  rw [formatNat_eq]
  exact fun h => Nat.toDigits_ne_nil (List.map_eq_nil_iff.1 h)

theorem parseDigits_formatNat (negative : Bool) (n : Nat) :
    parseDigits negative (formatNat n) =
      if negative then (if n ≤ 2 ^ 63 then some (-(n : Int)) else none) else if n < 2 ^ 63 then some (n : Int) else none := by
  have hd : (decide (formatNat n = []) || !(formatNat n).all isDigit) = false := by
    rw [isDigit_formatNat, decide_eq_false (formatNat_ne_nil n)]
    rfl
  rw [parseDigits, digitsValue_formatNat, hd]
  rfl

theorem not_sign_of_isDigit {b : UInt8} (h : isDigit b = true) : b ≠ 0x2B ∧ b ≠ 0x2D ∧ b ≠ 0x3A := by
  revert h
  exact forall_byte (P := fun b => isDigit b = true → b ≠ 0x2B ∧ b ≠ 0x2D ∧ b ≠ 0x3A) (by decide) b

theorem parseInt_formatInt {n : Int} (hlo : -2 ^ 63 ≤ n) (hhi : n < 2 ^ 63) : parseInt (formatInt n) = some n := by
  unfold formatInt
  by_cases hn : n < 0
  · rw [if_pos hn]
    show parseDigits true (formatNat n.natAbs) = some n
    rw [parseDigits_formatNat, if_pos rfl, if_pos (by omega)]
    congr 1
    omega
  · rw [if_neg hn]
    have hdigits := parseDigits_formatNat false n.natAbs
    rw [if_neg (by decide), if_pos (by omega)] at hdigits
    have hall := isDigit_formatNat n.natAbs
    cases htext : formatNat n.natAbs with
    | nil => exact absurd htext (formatNat_ne_nil _)
    | cons b rest =>
      rw [htext, List.all_cons, Bool.and_eq_true] at hall
      obtain ⟨hplus, hminus, -⟩ := not_sign_of_isDigit hall.1
      rw [htext] at hdigits
      rw [parseInt, if_neg hplus, if_neg hminus, hdigits]
      congr 1
      omega

/-- A number holds no colon. -/
theorem colon_not_mem_of_parseInt {text : Bytes} {n : Int} (h : parseInt text = some n) : 0x3A ∉ text := by
  have hdigits : ∀ {negative digits}, parseDigits negative digits = some n → 0x3A ∉ digits := by
    intro negative digits h hm
    unfold parseDigits at h
    split at h
    · cases h
    next hd =>
      rw [Bool.or_eq_true, not_or, Bool.not_eq_true', Bool.not_eq_false] at hd
      exact (not_sign_of_isDigit (List.all_eq_true.1 hd.2 _ hm)).2.2 rfl
  cases text with
  | nil => cases h
  | cons sign digits =>
    unfold parseInt at h
    dsimp only at h
    split at h
    next hs => exact fun hm => (List.mem_cons.1 hm).elim (fun heq => by rw [hs] at heq; cases heq) (hdigits h)
    · split at h
      next hs => exact fun hm => (List.mem_cons.1 hm).elim (fun heq => by rw [hs] at heq; cases heq) (hdigits h)
      · exact hdigits h

theorem head_formatInt (n : Int) : (formatInt n).head? ≠ some 0x2B := by
  unfold formatInt
  split
  · intro h
    cases h
  · intro h
    have hmem := List.mem_of_mem_head? h
    exact (not_sign_of_isDigit (List.all_eq_true.1 (isDigit_formatNat _) _ hmem)).1 rfl

end Utf8
end Lib
