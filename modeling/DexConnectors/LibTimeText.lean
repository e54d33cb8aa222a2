import Mathlib.Data.Fin.Basic
import Mathlib.Data.List.DropRight
import DexConnectors.LibCivil
import DexConnectors.LibUtf8
/-!
# LibTimeText — the texts `2006-01-02T15:04:05.999Z`

`parse` matches `^([0-9]{4})-([0-9]{2})-([0-9]{2})T([0-9]{1,2}):([0-9]{2}):([0-9]{2})(?:([.,])([0-9]+))?(Z|[+-][0-9]{2}:[0-9]{2})$`
and `text` writes its groups again, an hour with two digits and a fraction after a dot.  Whether the groups denote a time is
not asked here.
-/
namespace Lib
namespace TimeText

instance neZero_ten : NeZero (10 : Nat) := ⟨by decide⟩

instance neZero_hundred : NeZero (100 : Nat) := ⟨by decide⟩

instance neZero_tenThousand : NeZero (10000 : Nat) := ⟨by decide⟩

inductive Zone where
  | utc
  | east (hours minutes : Fin 100)
  | west (hours minutes : Fin 100)
  deriving DecidableEq

def Zone.minutes : Zone → Int
  | .utc => 0
  | .east hours minutes => 60 * hours.val + minutes.val
  | .west hours minutes => -(60 * hours.val + minutes.val)

/-- The groups of a match. -/
structure Fields where
  year     : Fin 10000
  month    : Fin 100
  day      : Fin 100
  hour     : Fin 100
  minute   : Fin 100
  second   : Fin 100
  fraction : List (Fin 10)
  zone     : Zone
  deriving DecidableEq

/-! ## Writing -/

def digit (n : Fin 10) : UInt8 := 0x30 + n.val.toUInt8

def two (n : Fin 100) : Bytes := [digit ⟨n.val / 10, by omega⟩, digit ⟨n.val % 10, by omega⟩]

def four (n : Fin 10000) : Bytes := two ⟨n.val / 100, by omega⟩ ++ two ⟨n.val % 100, by omega⟩

def Zone.text : Zone → Bytes
  | .utc => [0x5A]
  | .east hours minutes => 0x2B :: two hours ++ 0x3A :: two minutes
  | .west hours minutes => 0x2D :: two hours ++ 0x3A :: two minutes

def fractionText (fraction : List (Fin 10)) : Bytes := if fraction = [] then [] else 0x2E :: fraction.map digit

def Fields.text (f : Fields) : Bytes :=
  four f.year ++ 0x2D :: (two f.month ++ 0x2D :: (two f.day ++ 0x54 :: (two f.hour ++ 0x3A :: (two f.minute ++ 0x3A ::
    (two f.second ++ (fractionText f.fraction ++ f.zone.text))))))

/-! ## Reading -/

def digit? (b : UInt8) : Option (Fin 10) :=
  if h : 0x30 ≤ b.toNat ∧ b.toNat < 0x3A then some ⟨b.toNat - 0x30, by omega⟩ else none

theorem digit_lt (x : Fin 10) : x.val < 100 := by omega

def takeOne : Bytes → Option (Fin 100 × Bytes)
  | [] => none
  | a :: rest => (digit? a).map (fun x => (⟨x.val, digit_lt x⟩, rest))

def takeTwo : Bytes → Option (Fin 100 × Bytes)
  | a :: b :: rest => (digit? a).bind (fun x => (digit? b).map (fun y => (⟨10 * x.val + y.val, by omega⟩, rest)))
  | _ => none

def takeFour (bs : Bytes) : Option (Fin 10000 × Bytes) :=
  (takeTwo bs).bind (fun x => (takeTwo x.2).map (fun y => (⟨100 * x.1.val + y.1.val, by omega⟩, y.2)))

def expect (b : UInt8) : Bytes → Option Bytes
  | [] => none
  | a :: rest => if a = b then some rest else none

def takeDigits : Bytes → List (Fin 10) × Bytes
  | [] => ([], [])
  | b :: rest =>
    match digit? b with
    | none => ([], b :: rest)
    | some d => (d :: (takeDigits rest).1, (takeDigits rest).2)

def takeFraction : Bytes → Option (List (Fin 10) × Bytes)
  | [] => some ([], [])
  | b :: rest =>
    if b = 0x2E ∨ b = 0x2C then (if (takeDigits rest).1 = [] then none else some (takeDigits rest))
    else some ([], b :: rest)

def takeZone : Bytes → Option Zone
  | [] => none
  | b :: rest =>
    if b = 0x5A then (if rest = [] then some .utc else none)
    else if b = 0x2B ∨ b = 0x2D then
      (takeTwo rest).bind (fun hours => (expect 0x3A hours.2).bind (fun bs => (takeTwo bs).bind (fun minutes =>
        if minutes.2 = [] then some (if b = 0x2B then .east hours.1 minutes.1 else .west hours.1 minutes.1) else none)))
    else none

def takeClock (bs : Bytes) : Option ((Fin 100 × Fin 100 × Fin 100) × Bytes) :=
  ((takeTwo bs).or (takeOne bs)).bind (fun hour => (expect 0x3A hour.2).bind (fun bs => (takeTwo bs).bind (fun minute =>
    (expect 0x3A minute.2).bind (fun bs => (takeTwo bs).map (fun second => ((hour.1, minute.1, second.1), second.2))))))

def takeDate (bs : Bytes) : Option ((Fin 10000 × Fin 100 × Fin 100) × Bytes) :=
  (takeFour bs).bind (fun year => (expect 0x2D year.2).bind (fun bs => (takeTwo bs).bind (fun month =>
    (expect 0x2D month.2).bind (fun bs => (takeTwo bs).map (fun day => ((year.1, month.1, day.1), day.2))))))

def parse (bs : Bytes) : Option Fields :=
  (takeDate bs).bind (fun date => (expect 0x54 date.2).bind (fun bs => (takeClock bs).bind (fun clock =>
    (takeFraction clock.2).bind (fun fraction => (takeZone fraction.2).map (fun zone =>
      ⟨date.1.1, date.1.2.1, date.1.2.2, clock.1.1, clock.1.2.1, clock.1.2.2, fraction.1, zone⟩)))))

/-! ## What was written is read -/

theorem digit?_digit : ∀ n : Fin 10, digit? (digit n) = some n := by decide

theorem takeTwo_two (n : Fin 100) (rest : Bytes) : takeTwo (two n ++ rest) = some (n, rest) := by
  have hn : 10 * (n.val / 10) + n.val % 10 = n.val := by omega
  simp only [two, List.cons_append, List.nil_append, takeTwo, digit?_digit, Option.bind_some, Option.map_some, hn]

theorem takeFour_four (n : Fin 10000) (rest : Bytes) : takeFour (four n ++ rest) = some (n, rest) := by
  have hn : 100 * (n.val / 100) + n.val % 100 = n.val := by omega
  rw [four, List.append_assoc, takeFour, takeTwo_two]
  dsimp only [Option.bind_some]
  rw [takeTwo_two]
  simp only [Option.map_some, hn]

theorem expect_cons (b : UInt8) (rest : Bytes) : expect b (b :: rest) = some rest := if_pos rfl

theorem digit?_zone (zone : Zone) : ∃ b rest, zone.text = b :: rest ∧ digit? b = none ∧ b ≠ 0x2E ∧ b ≠ 0x2C := by
  cases zone with
  | utc => exact ⟨_, _, rfl, by decide, by decide, by decide⟩
  | east hours minutes => exact ⟨_, _, rfl, by decide, by decide, by decide⟩
  | west hours minutes => exact ⟨_, _, rfl, by decide, by decide, by decide⟩

theorem takeDigits_map (zone : Zone) : ∀ ds : List (Fin 10), takeDigits (ds.map digit ++ zone.text) = (ds, zone.text)
  | [] => by
    obtain ⟨b, rest, ht, hb, -, -⟩ := digit?_zone zone
    rw [ht]
    simp [takeDigits, hb]
  | d :: ds => by
    simp only [List.map_cons, List.cons_append, takeDigits, digit?_digit, takeDigits_map zone ds]

theorem takeFraction_fractionText (zone : Zone) (ds : List (Fin 10)) :
    takeFraction (fractionText ds ++ zone.text) = some (ds, zone.text) := by
  obtain ⟨b, rest, ht, -, h1, h2⟩ := digit?_zone zone
  unfold fractionText
  by_cases hd : ds = []
  · subst hd
    rw [if_pos rfl, List.nil_append, ht, takeFraction, if_neg (fun h => h.elim h1 h2)]
  · rw [if_neg hd, List.cons_append, takeFraction, if_pos (.inl rfl), takeDigits_map, if_neg hd]

theorem takeZone_text (zone : Zone) : takeZone zone.text = some zone := by
  cases zone with
  | utc => rfl
  | east hours minutes =>
    have h := takeTwo_two minutes []
    rw [List.append_nil] at h
    simp [Zone.text, takeZone, takeTwo_two, expect_cons, h]
  | west hours minutes =>
    have h := takeTwo_two minutes []
    rw [List.append_nil] at h
    simp [Zone.text, takeZone, takeTwo_two, expect_cons, h]

/-- **What `text` writes, `parse` reads.** -/
theorem parse_text (f : Fields) : parse f.text = some f := by
  simp only [parse, Fields.text, takeDate, takeFour_four, Option.bind_some, expect_cons, takeTwo_two, Option.map_some,
    takeClock, Option.some_or, takeFraction_fractionText, takeZone_text]

end TimeText
end Lib
