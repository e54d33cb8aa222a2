import Mathlib.Data.List.DropRight
import Mathlib.Tactic.Ring
import Mathlib.Tactic.NormNum
/-!
# LibTimestamp — RFC 3339 timestamps as they are spelled

A timestamp is its wall-clock second, the digits of its fraction and its offset from UTC, so two texts of the shape
`2006-01-02T15:04:05.999Z` are equal exactly when their `Stamp`s are.  `instant` is the moment a stamp denotes, in
nanoseconds.

`DateTime` is Python's aware datetime: microseconds, and the offset as a number.  `format_parse_eq_iff` says which stamps
survive being parsed and formatted again.  A JavaScript `Date` is a number of milliseconds; `instant_toISOString` says
which moments survive.
-/
namespace Lib
namespace Rfc3339

/-- `Z`, `+hh:mm` or `-hh:mm`. -/
inductive Offset where
  | utc
  | east (hours minutes : Nat)
  | west (hours minutes : Nat)
  deriving DecidableEq, Repr

def Offset.minutes : Offset → Int
  | .utc => 0
  | .east hours minutes => 60 * hours + minutes
  | .west hours minutes => -(60 * hours + minutes)

/-- The offset as a formatter writes it: zero is `Z`. -/
def Offset.ofMinutes (n : Int) : Offset :=
  if n = 0 then .utc
  else if 0 < n then .east (n.toNat / 60) (n.toNat % 60)
  else .west ((-n).toNat / 60) ((-n).toNat % 60)

/-- At most a day, with less than an hour of minutes. -/
def Offset.isShort : Offset → Bool
  | .utc => true
  | .east hours minutes | .west hours minutes => hours ≤ 23 && minutes ≤ 59

/-- **A spelled timestamp.**  `second` counts the seconds of the written date and time from 1970. -/
structure Stamp where
  second   : Int
  fraction : List Nat
  offset   : Offset
  deriving DecidableEq, Repr

/-- The number that decimal digits spell. -/
def value (digits : List Nat) : Nat := digits.foldl (fun n d => 10 * n + d) 0

/-- The first `n` digits, zeros after the last. -/
def padded (n : Nat) (digits : List Nat) : List Nat := (digits ++ List.replicate n 0).take n

def stripZeros (digits : List Nat) : List Nat := digits.rdropWhile (· == 0)

/-- The moment, in nanoseconds from 1970. -/
def Stamp.instant (s : Stamp) : Int := (s.second - 60 * s.offset.minutes) * 1000000000 + value (padded 9 s.fraction)

/-! ## Digits -/

theorem foldl_value (digits : List Nat) : ∀ n, digits.foldl (fun n d => 10 * n + d) n = n * 10 ^ digits.length + value digits := by
  induction digits with
  | nil => intro n; simp [value]
  | cons d digits ih =>
    intro n
    simp only [List.foldl_cons, List.length_cons, value]
    rw [ih, ih (10 * 0 + d)]
    ring

theorem value_append (a b : List Nat) : value (a ++ b) = value a * 10 ^ b.length + value b := by
  unfold value
  rw [List.foldl_append, foldl_value]
  rfl

theorem value_eq_zero {digits : List Nat} : value digits = 0 ↔ ∀ d ∈ digits, d = 0 := by
  induction digits with
  | nil => simp [value]
  | cons d digits ih =>
    have h : value (d :: digits) = d * 10 ^ digits.length + value digits := by
      have := value_append [d] digits
      simpa [value] using this
    rw [h]
    constructor
    · intro h0
      have hpos : 0 < 10 ^ digits.length := Nat.pow_pos (by decide)
      have hd : d = 0 := by
        rcases Nat.eq_zero_or_pos d with h | h
        · exact h
        · have := Nat.mul_pos h hpos
          omega
      intro x hx
      rcases List.mem_cons.1 hx with rfl | hx
      · exact hd
      · exact ih.1 (by omega) x hx
    · intro hall
      rw [hall d (by simp), ih.2 (fun x hx => hall x (by simp [hx]))]
      simp

theorem value_lt : ∀ {digits : List Nat}, (∀ d ∈ digits, d < 10) → value digits < 10 ^ digits.length
  | [], _ => by decide
  | d :: digits, h => by
    have hd : d < 10 := h d (by simp)
    have hrest := value_lt (fun x hx => h x (by simp [hx]) : ∀ x ∈ digits, x < 10)
    have hcons : value (d :: digits) = d * 10 ^ digits.length + value digits := by
      have := value_append [d] digits
      simpa [value] using this
    rw [hcons, List.length_cons, Nat.pow_succ]
    have : d * 10 ^ digits.length ≤ 9 * 10 ^ digits.length := Nat.mul_le_mul_right _ (by omega)
    omega

@[simp] theorem length_padded (n : Nat) (digits : List Nat) : (padded n digits).length = n := by
  unfold padded
  rw [List.length_take, List.length_append, List.length_replicate]
  omega

theorem padded_take {m n : Nat} (h : m ≤ n) (digits : List Nat) : (padded n digits).take m = padded m digits := by
  unfold padded
  rw [List.take_take, Nat.min_eq_left h, List.take_append, List.take_append, List.take_replicate, List.take_replicate]
  congr 2
  omega

theorem padded_of_length {n : Nat} {digits : List Nat} (h : digits.length = n) : padded n digits = digits := by
  unfold padded
  rw [← h, List.take_left]

theorem mem_drop_padded {m n : Nat} {digits : List Nat} :
    (∀ d ∈ (padded n digits).drop m, d = 0) ↔ ∀ d ∈ (digits.take n).drop m, d = 0 := by
  unfold padded
  rw [List.take_append, List.take_replicate, List.drop_append, List.drop_replicate]
  constructor
  · exact fun h d hd => h d (List.mem_append_left _ hd)
  · intro h d hd
    rcases List.mem_append.1 hd with hd | hd
    · exact h d hd
    · exact (List.mem_replicate.1 hd).2

/-! ## Python datetimes -/

/-- The first moment of year one, the earliest a `datetime` can hold. -/
def yearOne : Int := -62135596800

/-- An aware `datetime`: its microsecond as six digits, its offset in minutes. -/
structure DateTime where
  second : Int
  micro  : List Nat
  offset : Int
  deriving DecidableEq, Repr

/-- `datetime.fromisoformat`, which drops the digits after the sixth. -/
def fromisoformat (s : Stamp) : Option DateTime :=
  if yearOne ≤ s.second ∧ s.offset.isShort then some ⟨s.second, padded 6 s.fraction, s.offset.minutes⟩ else none

/-- The canonical stamp of a `datetime`. -/
def DateTime.format (d : DateTime) : Stamp := ⟨d.second, stripZeros d.micro, Offset.ofMinutes d.offset⟩

/-- The microsecond a `datetime` denotes, for comparing two of them. -/
def DateTime.instant (d : DateTime) : Int := (d.second - 60 * d.offset) * 1000000 + value d.micro

/-- **The spellings a formatter writes.** -/
def Stamp.isCanonical (s : Stamp) : Bool :=
  s.fraction.length ≤ 6 && s.fraction.getLast? != some 0 && s.offset != .east 0 0 && s.offset != .west 0 0

@[simp] theorem ofMinutes_zero : Offset.ofMinutes 0 = .utc := rfl

theorem ofMinutes_pos {n : Nat} (h : 0 < n) : Offset.ofMinutes n = .east (n / 60) (n % 60) := by
  unfold Offset.ofMinutes
  rw [if_neg (by omega), if_pos (by omega), Int.toNat_natCast]

theorem ofMinutes_neg {n : Nat} (h : 0 < n) : Offset.ofMinutes (-(n : Int)) = .west (n / 60) (n % 60) := by
  unfold Offset.ofMinutes
  rw [if_neg (by omega), if_neg (by omega), Int.neg_neg, Int.toNat_natCast]

theorem ofMinutes_eq_iff {o : Offset} (h : o.isShort = true) :
    Offset.ofMinutes o.minutes = o ↔ o ≠ .east 0 0 ∧ o ≠ .west 0 0 := by
  cases o with
  | utc => simp [Offset.minutes]
  | east hours minutes =>
    simp only [Offset.isShort, Bool.and_eq_true, decide_eq_true_eq] at h
    have hm : (Offset.east hours minutes).minutes = ((60 * hours + minutes : Nat) : Int) := by simp [Offset.minutes]
    rw [hm]
    rcases Nat.eq_zero_or_pos (60 * hours + minutes) with h0 | hpos
    · have : hours = 0 ∧ minutes = 0 := by omega
      simp [this.1, this.2]
    · have h2 : (60 * hours + minutes) / 60 = hours := by omega
      have h3 : (60 * hours + minutes) % 60 = minutes := by omega
      rw [ofMinutes_pos hpos, h2, h3]
      simp only [ne_eq, Offset.east.injEq, reduceCtorEq, not_false_eq_true, and_true, true_iff]
      omega
  | west hours minutes =>
    simp only [Offset.isShort, Bool.and_eq_true, decide_eq_true_eq] at h
    have hm : (Offset.west hours minutes).minutes = -((60 * hours + minutes : Nat) : Int) := by simp [Offset.minutes]
    rw [hm]
    rcases Nat.eq_zero_or_pos (60 * hours + minutes) with h0 | hpos
    · have : hours = 0 ∧ minutes = 0 := by omega
      simp [this.1, this.2]
    · have h2 : (60 * hours + minutes) / 60 = hours := by omega
      have h3 : (60 * hours + minutes) % 60 = minutes := by omega
      rw [ofMinutes_neg hpos, h2, h3]
      simp only [ne_eq, Offset.west.injEq, reduceCtorEq, not_false_eq_true, true_and, true_iff]
      omega

theorem stripZeros_append_zeros (digits : List Nat) (n : Nat) :
    stripZeros (digits ++ List.replicate n 0) = stripZeros digits := by
  unfold stripZeros
  induction n with
  | zero => simp
  | succ n ih => rw [List.replicate_succ', ← List.append_assoc, List.rdropWhile_concat, if_pos (by simp), ih]

theorem stripZeros_eq_self {digits : List Nat} : stripZeros digits = digits ↔ digits.getLast? ≠ some 0 := by
  unfold stripZeros
  rw [List.rdropWhile_eq_self_iff]
  cases digits using List.reverseRecOn with
  | nil => simp
  | append_singleton digits d => simp

/-- Stripping the first six digits gives the digits back when there are at most six and no zero ends them. -/
theorem stripZeros_padded {digits : List Nat} :
    stripZeros (padded 6 digits) = digits ↔ digits.length ≤ 6 ∧ digits.getLast? ≠ some 0 := by
  constructor
  · intro h
    have hlen : digits.length ≤ 6 := by
      have := (List.rdropWhile_prefix (p := (· == 0)) (l := padded 6 digits)).length_le
      rw [length_padded] at this
      unfold stripZeros at h
      rw [h] at this
      exact this
    refine ⟨hlen, stripZeros_eq_self.1 ?_⟩
    have hp : padded 6 digits = digits ++ List.replicate (6 - digits.length) 0 := by
      unfold padded
      rw [List.take_append, List.take_of_length_le hlen, List.take_replicate]
      congr 2
      omega
    rw [hp, stripZeros_append_zeros] at h
    exact h
  · rintro ⟨hlen, hlast⟩
    have hp : padded 6 digits = digits ++ List.replicate (6 - digits.length) 0 := by
      unfold padded
      rw [List.take_append, List.take_of_length_le hlen, List.take_replicate]
      congr 2
      omega
    rw [hp, stripZeros_append_zeros]
    exact stripZeros_eq_self.2 hlast

/-- **Exactly the canonical stamps survive parsing and formatting.** -/
theorem format_parse_eq_iff {s : Stamp} {d : DateTime} (h : fromisoformat s = some d) :
    d.format = s ↔ s.isCanonical = true := by
  unfold fromisoformat at h
  split at h
  · rename_i hc
    cases h
    unfold DateTime.format Stamp.isCanonical
    have hf := @stripZeros_padded s.fraction
    have ho := ofMinutes_eq_iff hc.2
    obtain ⟨second, fraction, offset⟩ := s
    simp only [Stamp.mk.injEq, true_and, hf, ho, Bool.and_eq_true, decide_eq_true_eq, bne_iff_ne, ne_eq]
    tauto
  · cases h

theorem ofMinutes_ne (n : Int) : Offset.ofMinutes n ≠ .east 0 0 ∧ Offset.ofMinutes n ≠ .west 0 0 := by
  unfold Offset.ofMinutes
  split
  · simp
  split
  · refine ⟨fun h => ?_, by simp⟩
    injection h with h1 h2
    omega
  · refine ⟨by simp, fun h => ?_⟩
    injection h with h1 h2
    omega

/-- What the formatter writes is canonical. -/
theorem isCanonical_format {s : Stamp} {d : DateTime} (h : fromisoformat s = some d) : d.format.isCanonical = true := by
  unfold fromisoformat at h
  split at h
  · cases h
    have hlen := (List.rdropWhile_prefix (p := (· == 0)) (l := padded 6 s.fraction)).length_le
    rw [length_padded] at hlen
    have hlast : stripZeros (stripZeros (padded 6 s.fraction)) = stripZeros (padded 6 s.fraction) :=
      List.rdropWhile_idempotent _ _
    have hoff := ofMinutes_ne s.offset.minutes
    have hlast' := stripZeros_eq_self.1 hlast
    simp only [Stamp.isCanonical, DateTime.format, Bool.and_eq_true, bne_iff_ne, ne_eq]
    exact ⟨⟨⟨decide_eq_true hlen, hlast'⟩, hoff.1⟩, hoff.2⟩
  · cases h

/-! ## JavaScript dates -/

/-- `new Date(text)`, in milliseconds; it drops the digits after the third. -/
def Stamp.date (s : Stamp) : Option Int :=
  if s.offset.isShort then some ((s.second - 60 * s.offset.minutes) * 1000 + value (padded 3 s.fraction)) else none

/-- `date.toISOString()`, which always writes three digits and `Z`. -/
def toISOString (ms : Int) : Stamp :=
  let n := (ms % 1000).toNat
  ⟨ms / 1000, [n / 100, n / 10 % 10, n % 10], .utc⟩

/-- The dates that `toISOString` writes with a year of four digits. -/
def isFourDigitYear (ms : Int) : Bool := -62167219200000 ≤ ms && ms ≤ 253402300799999

/-- The written digits after the third are zeros. -/
def Stamp.isMillisecond (s : Stamp) : Bool := ((s.fraction.take 9).drop 3).all (· == 0)

theorem instant_toISOString (ms : Int) : (toISOString ms).instant = ms * 1000000 := by
  have hpad : padded 9 (toISOString ms).fraction = (toISOString ms).fraction ++ List.replicate 6 0 := rfl
  unfold Stamp.instant
  rw [hpad, value_append, List.length_replicate, value_eq_zero.2 (fun d hd => (List.mem_replicate.1 hd).2)]
  simp only [toISOString, value, Offset.minutes, List.foldl_cons, List.foldl_nil]
  omega

/-- **Exactly the moments of whole milliseconds survive.** -/
theorem date_eq_instant_iff {s : Stamp} {ms : Int} (h : s.date = some ms) :
    ms * 1000000 = s.instant ↔ s.isMillisecond = true := by
  unfold Stamp.date at h
  split at h
  · cases h
    have hsplit : value (padded 9 s.fraction) = value (padded 3 s.fraction) * 1000000 + value ((padded 9 s.fraction).drop 3) := by
      conv_lhs => rw [← List.take_append_drop 3 (padded 9 s.fraction)]
      rw [value_append, padded_take (by decide), List.length_drop, length_padded]
      norm_num
    have hzero := @value_eq_zero ((padded 9 s.fraction).drop 3)
    rw [mem_drop_padded] at hzero
    have hms : s.isMillisecond = true ↔ value ((padded 9 s.fraction).drop 3) = 0 := by
      rw [hzero]
      simp [Stamp.isMillisecond]
    rw [hms]
    unfold Stamp.instant
    rw [hsplit]
    omega
  · cases h

theorem date_toISOString (ms : Int) : (toISOString ms).date = some ms := by
  simp only [Stamp.date, toISOString, Offset.isShort, Offset.minutes, padded, value, if_true]
  simp only [List.cons_append, List.nil_append, List.take_succ_cons, List.take_zero, List.foldl_cons, List.foldl_nil,
    Option.some.injEq]
  omega

end Rfc3339
end Lib
