import Mathlib.Algebra.Order.Field.Rat
import Mathlib.Tactic.IntervalCases
import Mathlib.Tactic.Ring
import DexConnectors.OperationPython
/-!
# TimestampInstants — timestamps keep their instant (`sdkpython/.../timestamps.py`, `sdkts/src/timestamps.ts`)

A `Moment` is what a timestamp denotes: the civil time, the fraction of its second and the offset.  The canonical text, the
`datetime` of a text and the text of a `datetime` denote what they are made from; Python's `==` holds between them unless the
offset depends on `fold`.
-/
namespace Dex
namespace Timestamps

open Lib Lib.Utf8 TimeText OperationPython

/-- The fraction of a second that its digits are. -/
def fractionOf (digits : List Nat) : Rat := (Rfc3339.value digits : Rat) / 10 ^ digits.length

/-- The offset is in microseconds. -/
structure Moment where
  year     : Int
  month    : Nat
  day      : Nat
  hour     : Nat
  minute   : Nat
  second   : Nat
  fraction : Rat
  offset   : Int
  deriving DecidableEq

def ofFields (f : Fields) : Moment :=
  ⟨f.year.val, f.month.val, f.day.val, f.hour.val, f.minute.val, f.second.val, fractionOf (f.fraction.map (·.val)),
    f.zone.minutes * 60000000⟩

def ofDateTime (d : DateTime) : Moment :=
  ⟨d.civil.year, d.civil.month, d.civil.day, d.civil.hour, d.civil.minute, d.civil.second, (d.micro : Rat) / 10 ^ 6, d.offset⟩

def IsLongZone : Zone → Prop
  | .utc => False
  | .east hours minutes | .west hours minutes => hours = 24 ∨ minutes = 60

/-- The accepted texts that no `datetime` holds: year 0, a digit after the sixth, an offset hour of 24 or minute of 60. -/
def HasNoDateTime (f : Fields) : Prop := f.year = 0 ∨ (∃ d ∈ f.fraction.drop 6, d ≠ 0) ∨ IsLongZone f.zone

/-! ## Formatting a `datetime` -/

/-- An aware `datetime`.  Its `tzinfo` answers `offset`, and `flipped` for the same wall time with the other `fold`. -/
structure Aware extends DateTime where
  flipped   : Int
  micro_lt  : micro < 1000000
  offset_lt : offset.natAbs < 86400000000

def Aware.IsWholeMinute (d : Aware) : Prop := d.offset % 60000000 = 0

/-- `==` with a `datetime` of a fixed offset: one in a repeated interval equals none in another zone. -/
def Aware.equals (d : Aware) (other : DateTime) : Bool := d.toDateTime.instant == other.instant && d.flipped == d.offset

def twoOf (n : Nat) : Bytes := two ⟨n % 100, Nat.mod_lt _ (by decide)⟩

def sixOf (n : Nat) : List (Fin 10) :=
  [100000, 10000, 1000, 100, 10, 1].map (fun p => ⟨n / p % 10, Nat.mod_lt _ (by decide)⟩)

/-- The end of `isoformat`. -/
def offsetText (offset : Int) : Bytes :=
  let n := offset.natAbs
  (if offset < 0 then 0x2D else 0x2B) :: twoOf (n / 3600000000) ++ 0x3A :: twoOf (n / 60000000 % 60) ++
    (if n % 60000000 = 0 then []
    else 0x3A :: twoOf (n / 1000000 % 60) ++ (if n % 1000000 = 0 then [] else 0x2E :: (sixOf (n % 1000000)).map digit))

/-- `isoformat(timespec="microseconds")`. -/
def isoformat (d : Aware) : Bytes :=
  four ⟨d.civil.year.toNat % 10000, Nat.mod_lt _ (by decide)⟩ ++ 0x2D :: (twoOf d.civil.month ++ 0x2D :: (twoOf d.civil.day ++
    0x54 :: (twoOf d.civil.hour ++ 0x3A :: (twoOf d.civil.minute ++ 0x3A :: (twoOf d.civil.second ++
      (0x2E :: (sixOf d.micro).map digit ++ offsetText d.offset))))))

/-- `text.replace("+00:00", "Z")`, where the number is what is left to drop. -/
def replaceFrom : Nat → Bytes → Bytes
  | _, [] => []
  | drop + 1, _ :: rest => replaceFrom drop rest
  | 0, b :: rest =>
    if (ascii "+00:00").isPrefixOf (b :: rest) then 0x5A :: replaceFrom 5 rest else b :: replaceFrom 0 rest

def RFC3339NanoTimestamp.fromDatetime (d : Aware) : Except Bytes Bytes :=
  RFC3339NanoTimestamp.fromWire (replaceFrom 0 (isoformat d))

/-! ## TypeScript -/

namespace TypeScript

def days (year : Nat) : List Nat :=
  [31, if year % 4 = 0 ∧ (year % 100 ≠ 0 ∨ year % 400 = 0) then 29 else 28, 31, 30, 31, 30, 31, 31, 30, 31, 30, 31]

/-- `isGoTimeInput`; its pattern is that of `timestamps.py`, with `\d` for `[0-9]`. -/
def isGoTimeInput (value : Bytes) : Bool :=
  match parse value with
  | none => false
  | some f =>
    if f.month.val < 1 ∨ f.month.val > 12 ∨ f.hour.val > 23 ∨ f.minute.val > 59 ∨ f.second.val > 59 then false
    else if f.day.val < 1 ∨ f.day.val > (days f.year.val).getD (f.month.val - 1) 0 then false
    else
      match f.zone with
      | .utc => true
      | .east hours minutes | .west hours minutes => hours.val ≤ 24 && minutes.val ≤ 60

end TypeScript

/-! ## Fractions -/

theorem fractionOf_append_zeros (digits : List Nat) {zeros : List Nat} (h : ∀ d ∈ zeros, d = 0) :
    fractionOf (digits ++ zeros) = fractionOf digits := by
  unfold fractionOf
  rw [Rfc3339.value_append, Rfc3339.value_eq_zero.2 h, Nat.add_zero, List.length_append, pow_add, Nat.cast_mul, Nat.cast_pow]
  have hpow : (10 : Rat) ^ zeros.length ≠ 0 := by positivity
  push_cast
  exact mul_div_mul_right _ _ hpow

theorem fractionOf_rdropWhile (digits : List (Fin 10)) :
    fractionOf ((digits.rdropWhile (· == 0)).map (·.val)) = fractionOf (digits.map (·.val)) := by
  induction digits using List.reverseRecOn with
  | nil => rfl
  | append_singleton digits d ih =>
    rw [List.rdropWhile_concat]
    split
    next hd =>
      rw [ih, List.map_append, List.map_singleton, fractionOf_append_zeros]
      intro x hx
      rw [List.mem_singleton.1 hx, eq_of_beq hd]
      rfl
    · rfl

/-- Six digits of a fraction are all of it when the others are zeros. -/
theorem microOf_fraction {fraction : List (Fin 10)} (h : ∀ d ∈ fraction.drop 6, d = 0) :
    (microOf fraction : Rat) / 10 ^ 6 = fractionOf (fraction.map (·.val)) := by
  have hzeros : ∀ d ∈ (fraction.map (fun d : Fin 10 => d.val) ++ List.replicate 6 0).drop 6, d = 0 := by
    intro d hd
    rw [List.drop_append, List.mem_append] at hd
    rcases hd with hd | hd
    · rw [← List.map_drop] at hd
      obtain ⟨x, hx, rfl⟩ := List.mem_map.1 hd
      rw [h x hx]
      rfl
    · exact (List.mem_replicate.1 (List.drop_subset _ _ hd)).2
  have hsame : fractionOf (fraction.map (·.val) ++ List.replicate 6 0) = fractionOf (fraction.map (·.val)) :=
    fractionOf_append_zeros _ fun d hd => (List.mem_replicate.1 hd).2
  rw [← hsame, ← List.take_append_drop 6 (fraction.map (·.val) ++ List.replicate 6 0), fractionOf_append_zeros _ hzeros]
  unfold fractionOf microOf
  rw [← Rfc3339.padded, Rfc3339.length_padded]

/-! ## The canonical text -/

structure Valid (f : Fields) : Prop where
  date  : hasValidDate f = true
  clock : hasValidClock f = true
  zone  : hasValidZone f.zone = true

theorem goTimeParts_ok {value : Bytes} {f : Fields} (hf : parse value = some f) (h : Valid f) :
    goTimeParts value = .ok (f, (canonicalOf f).text) := by
  unfold goTimeParts
  rw [hf]
  dsimp only
  rw [h.date, h.clock, h.zone]
  rfl

theorem goTimeParts_ok_iff {value wire : Bytes} {f : Fields} :
    goTimeParts value = .ok (f, wire) ↔ parse value = some f ∧ Valid f ∧ wire = (canonicalOf f).text := by
  refine ⟨fun h => ?_, fun ⟨hf, hvalid, hwire⟩ => by rw [goTimeParts_ok hf hvalid, hwire]⟩
  unfold goTimeParts at h
  cases hf : parse value with
  | none =>
    rw [hf] at h
    cases h
  | some g =>
    rw [hf] at h
    dsimp only at h
    split at h
    · cases h
    next hd =>
      split at h
      · cases h
      next hc =>
        split at h
        · cases h
        next hz =>
          cases h
          rw [Bool.not_eq_true', Bool.not_eq_false] at hd hc hz
          exact ⟨rfl, ⟨hd, hc, hz⟩, rfl⟩

theorem fromWire_ok_iff {value wire : Bytes} :
    RFC3339NanoTimestamp.fromWire value = .ok wire ↔ ∃ f, parse value = some f ∧ Valid f ∧ wire = (canonicalOf f).text := by
  unfold RFC3339NanoTimestamp.fromWire
  cases hparts : goTimeParts value with
  | error err =>
    refine ⟨fun h => (by cases h), fun ⟨f, hf, hvalid, _⟩ => ?_⟩
    rw [goTimeParts_ok hf hvalid] at hparts
    cases hparts
  | ok parts =>
    obtain ⟨f, canonical⟩ := parts
    obtain ⟨hf, hvalid, hcanonical⟩ := goTimeParts_ok_iff.1 hparts
    constructor
    · intro h
      cases h
      exact ⟨f, hf, hvalid, hcanonical⟩
    · rintro ⟨g, hg, -, hwire⟩
      rw [hf] at hg
      cases hg
      rw [hwire, hcanonical]

theorem Valid.canonical {f : Fields} (h : Valid f) : Valid (canonicalOf f) :=
  ⟨h.date, h.clock, hasValidZone_canonicalZone h.zone⟩

theorem canonicalZone_cases (zone : Zone) : canonicalZone zone = zone ∨ canonicalZone zone = .utc ∧ zone.minutes = 0 := by
  cases zone with
  | utc => exact .inl rfl
  | east hours minutes =>
    by_cases h : hours = 0 ∧ minutes = 0
    · refine .inr ⟨if_pos h, ?_⟩
      rw [h.1, h.2]
      rfl
    · exact .inl (if_neg h)
  | west hours minutes =>
    by_cases h : hours = 0 ∧ minutes = 0
    · refine .inr ⟨if_pos h, ?_⟩
      rw [h.1, h.2]
      rfl
    · exact .inl (if_neg h)

theorem minutes_canonicalZone (zone : Zone) : (canonicalZone zone).minutes = zone.minutes := by
  rcases canonicalZone_cases zone with h | ⟨h, hzero⟩
  · rw [h]
  · rw [h, hzero]
    rfl

theorem isShortZone_canonicalZone {zone : Zone} (h : isShortZone zone = true) : isShortZone (canonicalZone zone) = true := by
  rcases canonicalZone_cases zone with hsame | ⟨hutc, -⟩
  · rw [hsame, h]
  · rw [hutc]
    rfl

theorem ofFields_canonicalOf (f : Fields) : ofFields (canonicalOf f) = ofFields f := by
  unfold ofFields canonicalOf
  dsimp only
  rw [fractionOf_rdropWhile, minutes_canonicalZone]

/-- **The canonical text is its own, and denotes what the text did.** -/
theorem canonical_keeps {value wire : Bytes} (h : RFC3339NanoTimestamp.fromWire value = .ok wire) :
    RFC3339NanoTimestamp.fromWire wire = .ok wire ∧
      ∃ f g, parse value = some f ∧ parse wire = some g ∧ ofFields g = ofFields f := by
  obtain ⟨f, hf, hvalid, rfl⟩ := fromWire_ok_iff.1 h
  have hg := parse_text (canonicalOf f)
  refine ⟨fromWire_ok_iff.2 ⟨_, hg, hvalid.canonical, ?_⟩, f, _, hf, hg, ofFields_canonicalOf f⟩
  rw [canonicalOf_canonicalOf]

/-! ## Parsing to a `datetime` -/

theorem isShortZone_iff {zone : Zone} (h : hasValidZone zone = true) :
    isShortZone zone = true ↔ ¬ IsLongZone zone := by
  have hshort : ∀ hours minutes : Fin 100, (decide (hours.val ≤ 24) && decide (minutes.val ≤ 60)) = true →
      ((decide (hours.val ≤ 23) && decide (minutes.val ≤ 59)) = true ↔ ¬ (hours = 24 ∨ minutes = 60)) := by
    intro hours minutes hvalid
    rw [Bool.and_eq_true, decide_eq_true_eq, decide_eq_true_eq] at hvalid ⊢
    rw [Fin.ext_iff, Fin.ext_iff]
    show _ ↔ ¬ (hours.val = 24 ∨ minutes.val = 60)
    omega
  cases zone with
  | utc => exact ⟨fun _ h => h, fun _ => rfl⟩
  | east hours minutes => exact hshort hours minutes h
  | west hours minutes => exact hshort hours minutes h

theorem fromisoformat_text {f : Fields} (hvalid : Valid f) (hyear : f.year ≠ 0) (hzone : isShortZone f.zone = true) :
    ∃ d, fromisoformat f.text = some d ∧ d.civil.year = f.year.val ∧ d.civil.month = f.month.val ∧ d.civil.day = f.day.val ∧
      d.civil.hour = f.hour.val ∧ d.civil.minute = f.minute.val ∧ d.civil.second = f.second.val ∧ d.micro = microOf f.fraction ∧
      d.offset = f.zone.minutes * 60000000 := by
  have hpython := isPythonDate_of_valid hvalid.date hyear
  rw [isPythonDate, Bool.and_eq_true, decide_eq_true_eq] at hpython
  unfold fromisoformat
  rw [parse_text]
  dsimp only
  rw [dif_pos ⟨hpython, hvalid.clock, hzone⟩]
  exact ⟨_, rfl, rfl, rfl, rfl, rfl, rfl, rfl, rfl, rfl⟩

theorem drop_rdropWhile {fraction : List (Fin 10)} (h : ∀ d ∈ fraction.drop 6, d = 0) :
    ∀ d ∈ (fraction.rdropWhile (· == 0)).drop 6, d = 0 := by
  intro d hd
  obtain ⟨zeros, hzeros⟩ := List.rdropWhile_prefix (p := (· == 0)) (l := fraction)
  refine h d ?_
  rw [← hzeros, List.drop_append]
  exact List.mem_append_left _ hd

/-- **Parsing gives the `datetime` of the moment**, or there is none. -/
theorem parse_keeps {value wire fieldName : Bytes} {f : Fields} (h : RFC3339NanoTimestamp.fromWire value = .ok wire)
    (hf : parse value = some f) :
    (¬ HasNoDateTime f ∧ ∃ d, parseGoDatetimeInput value fieldName = .ok d ∧ ofDateTime d = ofFields f) ∨
      HasNoDateTime f ∧ ∃ err, parseGoDatetimeInput value fieldName = .error err := by
  obtain ⟨g, hg, hvalid, rfl⟩ := fromWire_ok_iff.1 h
  rw [hf] at hg
  cases hg
  unfold parseGoDatetimeInput
  rw [goTimeParts_ok hf hvalid]
  dsimp only
  by_cases hfirst : f.year = 0 ∨ (f.fraction.drop 6).any (· != 0) = true
  · rw [if_pos hfirst]
    refine .inr ⟨hfirst.imp id fun hany => .inl ?_, _, rfl⟩
    obtain ⟨d, hd, hne⟩ := List.any_eq_true.1 hany
    exact ⟨d, hd, bne_iff_ne.1 hne⟩
  rw [if_neg hfirst]
  obtain ⟨hyear, hany⟩ := not_or.1 hfirst
  have hdigits : ∀ d ∈ f.fraction.drop 6, d = 0 := fun d hd => by
    by_contra hne
    exact hany (List.any_eq_true.2 ⟨d, hd, bne_iff_ne.2 hne⟩)
  by_cases hzone : isShortZone f.zone = true
  · have hcanonical : isShortZone (canonicalOf f).zone = true := isShortZone_canonicalZone hzone
    obtain ⟨d, hd, hy, hm, hday, hh, hmin, hs, hmicro, hoffset⟩ := fromisoformat_text hvalid.canonical hyear hcanonical
    rw [hzone, hd]
    refine .inl ⟨?_, d, rfl, ?_⟩
    · rintro (hno | ⟨x, hx, hne⟩ | hno)
      · exact hyear hno
      · exact hne (hdigits x hx)
      · exact (isShortZone_iff hvalid.zone).1 hzone hno
    · have hfraction : (microOf (canonicalOf f).fraction : Rat) / 10 ^ 6 = fractionOf ((canonicalOf f).fraction.map (·.val)) :=
        microOf_fraction (drop_rdropWhile hdigits)
      refine Eq.trans ?_ (ofFields_canonicalOf f)
      unfold ofDateTime ofFields
      rw [hy, hm, hday, hh, hmin, hs, hmicro, hoffset, hfraction]
  · rw [Bool.eq_false_iff.2 hzone]
    refine .inr ⟨.inr (.inr ?_), _, rfl⟩
    exact not_not.1 fun hno => hzone ((isShortZone_iff hvalid.zone).2 hno)

/-! ## The two validators -/

theorem isLeapYear_natCast (year : Nat) : isLeapYear year = decide (year % 4 = 0 ∧ (year % 100 ≠ 0 ∨ year % 400 = 0)) := by
  unfold isLeapYear
  rw [Bool.eq_iff_iff]
  simp only [Bool.and_eq_true, Bool.or_eq_true, beq_iff_eq, bne_iff_ne, decide_eq_true_eq]
  omega

theorem days_eq (year : Nat) {month : Nat} (h : 1 ≤ month ∧ month ≤ 12) :
    (TypeScript.days year).getD (month - 1) 0 = daysIn year month := by
  unfold TypeScript.days daysIn
  rw [isLeapYear_natCast]
  obtain ⟨hone, htwelve⟩ := h
  interval_cases month <;> simp

theorem hasValidDate_iff (f : Fields) : hasValidDate f = isDate f.year.val f.month.val f.day.val := by
  unfold hasValidDate isPythonDate
  by_cases hyear : f.year = 0
  · have hval : f.year.val = 0 := by rw [hyear]; rfl
    have hleap : isLeapYear ((0 : Nat) : Int) = true := by decide
    unfold isDate daysIn
    rw [hval, hleap, hyear, Bool.eq_iff_iff]
    simp only [Bool.and_eq_true, Bool.or_eq_true, decide_eq_true_eq, beq_self_eq_true, true_and, if_true]
    split_ifs <;> omega
  · have hpos : 1 ≤ f.year.val := Nat.pos_of_ne_zero fun hval => hyear (Fin.ext hval)
    have hne : (f.year == 0) = false := beq_eq_false_iff_ne.2 hyear
    rw [hne, decide_eq_true hpos]
    simp only [Bool.true_and, Bool.false_and, Bool.or_false]

theorem isGoTimeInput_iff (value : Bytes) :
    TypeScript.isGoTimeInput value = true ↔ ∃ wire, RFC3339NanoTimestamp.fromWire value = .ok wire := by
  have hwire : (∃ wire, RFC3339NanoTimestamp.fromWire value = .ok wire) ↔ ∃ f, parse value = some f ∧ Valid f := by
    constructor
    · rintro ⟨wire, h⟩
      obtain ⟨f, hf, hvalid, -⟩ := fromWire_ok_iff.1 h
      exact ⟨f, hf, hvalid⟩
    · rintro ⟨f, hf, hvalid⟩
      exact ⟨_, fromWire_ok_iff.2 ⟨f, hf, hvalid, rfl⟩⟩
  rw [hwire]
  unfold TypeScript.isGoTimeInput
  cases hf : parse value with
  | none => exact ⟨fun h => (by cases h), fun ⟨f, h, _⟩ => (by cases h)⟩
  | some f =>
    have hzone : (match f.zone with
        | .utc => true
        | .east hours minutes | .west hours minutes => decide (hours.val ≤ 24) && decide (minutes.val ≤ 60)) = hasValidZone f.zone := by
      cases f.zone <;> rfl
    have hvalid : (∃ g, some f = some g ∧ Valid g) ↔ Valid f :=
      ⟨fun ⟨g, hg, h⟩ => by cases hg; exact h, fun h => ⟨f, rfl, h⟩⟩
    rw [hvalid]
    dsimp only
    by_cases hclock : f.month.val < 1 ∨ f.month.val > 12 ∨ f.hour.val > 23 ∨ f.minute.val > 59 ∨ f.second.val > 59
    · rw [if_pos hclock]
      refine ⟨fun h => (by cases h), fun h => ?_⟩
      have hd := h.date
      have hc := h.clock
      rw [hasValidDate_iff] at hd
      simp only [isDate, hasValidClock, isClock, Bool.and_eq_true, decide_eq_true_eq] at hd hc
      omega
    rw [if_neg hclock]
    have hmonth : 1 ≤ f.month.val ∧ f.month.val ≤ 12 := by omega
    rw [days_eq _ hmonth]
    by_cases hday : f.day.val < 1 ∨ f.day.val > daysIn f.year.val f.month.val
    · rw [if_pos hday]
      refine ⟨fun h => (by cases h), fun h => ?_⟩
      have hd := h.date
      rw [hasValidDate_iff] at hd
      simp only [isDate, Bool.and_eq_true, decide_eq_true_eq] at hd
      omega
    rw [if_neg hday, hzone]
    refine ⟨fun h => ⟨?_, ?_, h⟩, fun h => h.zone⟩
    · rw [hasValidDate_iff]
      simp only [isDate, Bool.and_eq_true, decide_eq_true_eq]
      omega
    · simp only [hasValidClock, isClock, Bool.and_eq_true, decide_eq_true_eq]
      omega

/-! ## A `datetime` and back -/

def zoneOf (offset : Int) : Zone :=
  let hours : Fin 100 := ⟨offset.natAbs / 3600000000 % 100, Nat.mod_lt _ (by decide)⟩
  let minutes : Fin 100 := ⟨offset.natAbs / 60000000 % 60 % 100, Nat.mod_lt _ (by decide)⟩
  if offset = 0 then .utc else if offset < 0 then .west hours minutes else .east hours minutes

/-- What the text of a `datetime` matches. -/
def fieldsOf (d : Aware) : Fields :=
  ⟨⟨d.civil.year.toNat % 10000, Nat.mod_lt _ (by decide)⟩, ⟨d.civil.month % 100, Nat.mod_lt _ (by decide)⟩,
    ⟨d.civil.day % 100, Nat.mod_lt _ (by decide)⟩, ⟨d.civil.hour % 100, Nat.mod_lt _ (by decide)⟩,
    ⟨d.civil.minute % 100, Nat.mod_lt _ (by decide)⟩, ⟨d.civil.second % 100, Nat.mod_lt _ (by decide)⟩, sixOf d.micro,
    zoneOf d.offset⟩

theorem replaceFrom_append : ∀ {a : Bytes}, (∀ b ∈ a, b ≠ 0x2B) → ∀ bs, replaceFrom 0 (a ++ bs) = a ++ replaceFrom 0 bs
  | [], _, _ => rfl
  | b :: a, h, bs => by
    have hb : b ≠ 0x2B := h b List.mem_cons_self
    have hstarts : (ascii "+00:00").isPrefixOf (b :: (a ++ bs)) = false := by
      show ((0x2B : UInt8) == b && _) = false
      rw [beq_eq_false_iff_ne.2 hb.symm, Bool.false_and]
    rw [List.cons_append, replaceFrom, if_neg (by rw [hstarts]; decide),
      replaceFrom_append (fun c hc => h c (List.mem_cons_of_mem _ hc)) bs]
    rfl

theorem replaceFrom_self {a : Bytes} (h : ∀ b ∈ a, b ≠ 0x2B) : replaceFrom 0 a = a := by
  have := replaceFrom_append h []
  rwa [List.append_nil, replaceFrom, List.append_nil] at this

theorem digit_ne_plus : ∀ n : Fin 10, digit n ≠ 0x2B := by decide

theorem two_ne_plus (n : Fin 100) : ∀ b ∈ two n, b ≠ 0x2B := by
  unfold two
  rw [List.forall_mem_cons, List.forall_mem_singleton]
  exact ⟨digit_ne_plus _, digit_ne_plus _⟩

theorem two_inj {m n : Fin 100} (h : two m = two n) : m = n := by
  have hm := takeTwo_two m []
  rw [h, takeTwo_two] at hm
  exact (congrArg Prod.fst (Option.some.inj hm)).symm

/-- The offset, once `+00:00` is replaced. -/
theorem replaceFrom_offsetText {offset : Int} (h : offset % 60000000 = 0) (hlt : offset.natAbs < 86400000000) :
    replaceFrom 0 (offsetText offset) = (zoneOf offset).text := by
  have hwhole : offset.natAbs % 60000000 = 0 := by omega
  unfold offsetText zoneOf
  dsimp only
  rw [if_pos hwhole, List.append_nil]
  by_cases hzero : offset = 0
  · rw [hzero]
    rfl
  rw [if_neg hzero]
  have hplain : ∀ b ∈ twoOf (offset.natAbs / 3600000000) ++ 0x3A :: twoOf (offset.natAbs / 60000000 % 60), b ≠ 0x2B := by
    rw [List.forall_mem_append, List.forall_mem_cons]
    exact ⟨two_ne_plus _, by decide, two_ne_plus _⟩
  by_cases hneg : offset < 0
  · rw [if_pos hneg, if_pos hneg]
    refine replaceFrom_self ?_
    rw [List.cons_append, List.forall_mem_cons]
    exact ⟨by decide, hplain⟩
  · rw [if_neg hneg, if_neg hneg]
    have hstarts : (ascii "+00:00").isPrefixOf
        (0x2B :: (twoOf (offset.natAbs / 3600000000) ++ 0x3A :: twoOf (offset.natAbs / 60000000 % 60))) = false := by
      rw [Bool.eq_false_iff]
      intro hp
      have hsame := (List.isPrefixOf_iff_prefix.1 hp).eq_of_length rfl
      have hparts : two 0 ++ 0x3A :: two 0 =
          twoOf (offset.natAbs / 3600000000) ++ 0x3A :: twoOf (offset.natAbs / 60000000 % 60) := (List.cons.inj hsame).2
      obtain ⟨hhours, hrest⟩ := List.append_inj hparts rfl
      have h1 := congrArg Fin.val (two_inj hhours)
      have h2 := congrArg Fin.val (two_inj (List.cons.inj hrest).2)
      have h1' : 0 = offset.natAbs / 3600000000 % 100 := h1
      have h2' : 0 = offset.natAbs / 60000000 % 60 % 100 := h2
      omega
    rw [List.cons_append, replaceFrom, hstarts, if_neg Bool.false_ne_true, replaceFrom_self hplain]
    rfl

theorem isoformat_text (d : Aware) (h : d.IsWholeMinute) : replaceFrom 0 (isoformat d) = (fieldsOf d).text := by
  have hsix : ∀ b ∈ (sixOf d.micro).map digit, b ≠ 0x2B := by
    intro b hb
    obtain ⟨n, -, rfl⟩ := List.mem_map.1 hb
    exact digit_ne_plus n
  have hfour : ∀ n : Fin 10000, ∀ b ∈ four n, b ≠ 0x2B := by
    intro n
    unfold four
    rw [List.forall_mem_append]
    exact ⟨two_ne_plus _, two_ne_plus _⟩
  have hfraction : fractionText (sixOf d.micro) = 0x2E :: (sixOf d.micro).map digit := if_neg (List.cons_ne_nil _ _)
  have hdate : ∀ {a : Bytes} {c : UInt8} {bs bs' : Bytes}, (∀ b ∈ a, b ≠ 0x2B) → c ≠ 0x2B → replaceFrom 0 bs = bs' →
      replaceFrom 0 (a ++ c :: bs) = a ++ c :: bs' := by
    rintro a c bs bs' ha hc rfl
    rw [replaceFrom_append ha]
    have := replaceFrom_append (a := [c]) (by rw [List.forall_mem_singleton]; exact hc) bs
    rw [List.singleton_append] at this
    rw [this]
    rfl
  unfold isoformat Fields.text
  refine hdate (hfour _) (by decide) (hdate (two_ne_plus _) (by decide) (hdate (two_ne_plus _) (by decide)
    (hdate (two_ne_plus _) (by decide) (hdate (two_ne_plus _) (by decide) ?_))))
  show replaceFrom 0 (twoOf d.civil.second ++ (0x2E :: (sixOf d.micro).map digit ++ offsetText d.offset)) =
    twoOf d.civil.second ++ (fractionText (sixOf d.micro) ++ (zoneOf d.offset).text)
  rw [hfraction, List.cons_append, List.cons_append]
  refine hdate (two_ne_plus _) (by decide) ?_
  rw [replaceFrom_append hsix, replaceFrom_offsetText h d.offset_lt]

/-- The fields of a `datetime` within the bounds of their groups. -/
theorem fieldsOf_vals (d : Aware) : ((fieldsOf d).year.val : Int) = d.civil.year ∧ (fieldsOf d).month.val = d.civil.month ∧
    (fieldsOf d).day.val = d.civil.day ∧ (fieldsOf d).hour.val = d.civil.hour ∧ (fieldsOf d).minute.val = d.civil.minute ∧
    (fieldsOf d).second.val = d.civil.second := by
  have hyear := d.inRange
  have hmonth := d.civil.month_le
  have hday := d.civil.day_le
  obtain ⟨hhour, hminute, hsecond⟩ := d.civil.clock_le
  refine ⟨?_, Nat.mod_eq_of_lt (by omega), Nat.mod_eq_of_lt (by omega), Nat.mod_eq_of_lt (by omega), Nat.mod_eq_of_lt (by omega),
    Nat.mod_eq_of_lt (by omega)⟩
  show ((d.civil.year.toNat % 10000 : Nat) : Int) = d.civil.year
  omega

theorem minutes_zoneOf {offset : Int} (h : offset % 60000000 = 0) (hlt : offset.natAbs < 86400000000) :
    (zoneOf offset).minutes * 60000000 = offset := by
  unfold zoneOf
  dsimp only
  by_cases hzero : offset = 0
  · rw [if_pos hzero, hzero]
    rfl
  rw [if_neg hzero]
  by_cases hneg : offset < 0
  · rw [if_pos hneg]
    show -(60 * ((offset.natAbs / 3600000000 % 100 : Nat) : Int) + ((offset.natAbs / 60000000 % 60 % 100 : Nat) : Int)) * 60000000 = offset
    omega
  · rw [if_neg hneg]
    show (60 * ((offset.natAbs / 3600000000 % 100 : Nat) : Int) + ((offset.natAbs / 60000000 % 60 % 100 : Nat) : Int)) * 60000000 = offset
    omega

theorem isShortZone_zoneOf {offset : Int} (hlt : offset.natAbs < 86400000000) : isShortZone (zoneOf offset) = true := by
  have hshort : (decide (offset.natAbs / 3600000000 % 100 ≤ 23) && decide (offset.natAbs / 60000000 % 60 % 100 ≤ 59)) = true := by
    rw [Bool.and_eq_true, decide_eq_true_eq, decide_eq_true_eq]
    omega
  unfold zoneOf
  dsimp only
  split
  · rfl
  · split
    · exact hshort
    · exact hshort

theorem hasValidZone_of_isShort {zone : Zone} (h : isShortZone zone = true) : hasValidZone zone = true := by
  cases zone with
  | utc => rfl
  | east hours minutes =>
    simp only [isShortZone, hasValidZone, Bool.and_eq_true, decide_eq_true_eq] at h ⊢
    omega
  | west hours minutes =>
    simp only [isShortZone, hasValidZone, Bool.and_eq_true, decide_eq_true_eq] at h ⊢
    omega

theorem valid_fieldsOf (d : Aware) : Valid (fieldsOf d) := by
  obtain ⟨hyear, hmonth, hday, hhour, hminute, hsecond⟩ := fieldsOf_vals d
  refine ⟨?_, ?_, hasValidZone_of_isShort (isShortZone_zoneOf d.offset_lt)⟩
  · rw [hasValidDate_iff, hyear, hmonth, hday]
    exact d.civil.date
  · unfold hasValidClock
    rw [hhour, hminute, hsecond]
    exact d.civil.clock

theorem fractionOf_sixOf {n : Nat} (h : n < 1000000) : fractionOf ((sixOf n).map (·.val)) = (n : Rat) / 10 ^ 6 := by
  have hvalue : Rfc3339.value ((sixOf n).map (·.val)) = n := by
    show 10 * (10 * (10 * (10 * (10 * (10 * 0 + n / 100000 % 10) + n / 10000 % 10) + n / 1000 % 10) + n / 100 % 10) + n / 10 % 10) +
      n / 1 % 10 = n
    omega
  unfold fractionOf
  rw [hvalue]
  rfl

theorem ofFields_fieldsOf (d : Aware) (h : d.IsWholeMinute) : ofFields (fieldsOf d) = ofDateTime d.toDateTime := by
  obtain ⟨hyear, hmonth, hday, hhour, hminute, hsecond⟩ := fieldsOf_vals d
  unfold ofFields ofDateTime
  rw [hyear, hmonth, hday, hhour, hminute, hsecond]
  have hfraction : fractionOf ((fieldsOf d).fraction.map (·.val)) = (d.micro : Rat) / 10 ^ 6 := fractionOf_sixOf d.micro_lt
  have hzone : (fieldsOf d).zone.minutes * 60000000 = d.offset := minutes_zoneOf h d.offset_lt
  rw [hfraction, hzone]

theorem not_hasNoDateTime_fieldsOf (d : Aware) : ¬ HasNoDateTime (canonicalOf (fieldsOf d)) := by
  rintro (hyear | ⟨x, hx, -⟩ | hzone)
  · have hval := (fieldsOf_vals d).1
    have hzero : (fieldsOf d).year.val = 0 := congrArg Fin.val hyear
    have := d.inRange
    omega
  · have hlength : ((sixOf d.micro).rdropWhile (· == 0)).length ≤ 6 :=
      (List.rdropWhile_prefix (p := (· == 0)) (l := sixOf d.micro)).length_le
    have hnil : ((canonicalOf (fieldsOf d)).fraction).drop 6 = [] := List.drop_eq_nil_of_le hlength
    rw [hnil] at hx
    cases hx
  · have hshort := isShortZone_canonicalZone (isShortZone_zoneOf d.offset_lt)
    have hvalid : hasValidZone (canonicalZone (zoneOf d.offset)) = true := hasValidZone_of_isShort hshort
    exact (isShortZone_iff hvalid).1 hshort hzone

theorem instant_eq_of_moment {a b : DateTime} (h : ofDateTime a = ofDateTime b) : a.instant = b.instant := by
  unfold ofDateTime at h
  simp only [Moment.mk.injEq] at h
  obtain ⟨hyear, hmonth, hday, hhour, hminute, hsecond, hmicro, hoffset⟩ := h
  have hmicro' : a.micro = b.micro := by
    have hpow : (10 : Rat) ^ 6 ≠ 0 := by norm_num
    exact_mod_cast (div_left_inj' hpow).1 hmicro
  unfold DateTime.instant Civil.seconds
  rw [hyear, hmonth, hday, hhour, hminute, hsecond, hmicro', hoffset]

/-- **The text of a `datetime` parses to its moment.** -/
theorem fromDatetime_keeps (d : Aware) (h : d.IsWholeMinute) :
    ∃ wire p, RFC3339NanoTimestamp.fromDatetime d = .ok wire ∧ RFC3339NanoTimestamp.parsed wire = .ok p ∧
      ofDateTime p = ofDateTime d.toDateTime ∧ (d.equals p = true ↔ d.flipped = d.offset) := by
  have hparse := parse_text (fieldsOf d)
  have hwire : RFC3339NanoTimestamp.fromWire (fieldsOf d).text = .ok (canonicalOf (fieldsOf d)).text :=
    fromWire_ok_iff.2 ⟨_, hparse, valid_fieldsOf d, rfl⟩
  obtain ⟨hown, -⟩ := canonical_keeps hwire
  have hnone := not_hasNoDateTime_fieldsOf d
  have hkeeps := @parse_keeps _ _ (ascii "timestamp") _ hown (parse_text _)
  obtain ⟨-, p, hp, hmoment⟩ := hkeeps.resolve_right fun hno => hnone hno.1
  have hsame : ofDateTime p = ofDateTime d.toDateTime := by
    rw [hmoment, ofFields_canonicalOf, ofFields_fieldsOf d h]
  refine ⟨_, p, ?_, hp, hsame, ?_⟩
  · unfold RFC3339NanoTimestamp.fromDatetime
    rw [isoformat_text d h]
    exact hwire
  · unfold Aware.equals
    rw [instant_eq_of_moment hsame, beq_self_eq_true, Bool.true_and, beq_iff_eq]

/-- **Timestamps keep their instant.** -/
theorem timestamps_keep_instant :
    (∀ value wire, RFC3339NanoTimestamp.fromWire value = .ok wire → RFC3339NanoTimestamp.fromWire wire = .ok wire ∧
      ∃ f g, parse value = some f ∧ parse wire = some g ∧ ofFields g = ofFields f) ∧
    (∀ value wire fieldName f, RFC3339NanoTimestamp.fromWire value = .ok wire → parse value = some f →
      (¬ HasNoDateTime f ∧ ∃ d, parseGoDatetimeInput value fieldName = .ok d ∧ ofDateTime d = ofFields f) ∨
        HasNoDateTime f ∧ ∃ err, parseGoDatetimeInput value fieldName = .error err) ∧
    (∀ d : Aware, d.IsWholeMinute → ∃ wire p, RFC3339NanoTimestamp.fromDatetime d = .ok wire ∧
      RFC3339NanoTimestamp.parsed wire = .ok p ∧ ofDateTime p = ofDateTime d.toDateTime ∧
      (d.equals p = true ↔ d.flipped = d.offset)) ∧
    ∀ value, TypeScript.isGoTimeInput value = true ↔ ∃ wire, RFC3339NanoTimestamp.fromWire value = .ok wire :=
  ⟨fun _ _ h => canonical_keeps h, fun _ _ _ _ h hf => parse_keeps h hf, fromDatetime_keeps, isGoTimeInput_iff⟩

/-- Half past two, the first time, in a night in which the clocks go back from three to two. -/
def sampleRepeated : Aware :=
  ⟨⟨⟨2026, 10, 25, 2, 30, 0, by decide, by decide⟩, 0, 7200000000, by decide⟩, 3600000000, by decide, by decide⟩

theorem repeated_not_equal : ¬ ∀ d : Aware, d.IsWholeMinute →
    ∃ wire p, RFC3339NanoTimestamp.fromDatetime d = .ok wire ∧ RFC3339NanoTimestamp.parsed wire = .ok p ∧ d.equals p = true := by
  intro h
  obtain ⟨wire, p, -, -, heq⟩ := h sampleRepeated rfl
  unfold Aware.equals at heq
  rw [Bool.and_eq_true] at heq
  exact absurd heq.2 (by decide)

end Timestamps
end Dex
