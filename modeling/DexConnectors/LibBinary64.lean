import Mathlib.Data.Int.Log
import Mathlib.Data.Rat.Floor
import Mathlib.Tactic.Ring
import Mathlib.Tactic.Positivity
/-!
# LibBinary64 — arithmetic on numbers of 53 significant bits

The operations of IEEE 754 on positive numbers, as rationals: the exact result, rounded to the nearest number of 53 significant
bits, to the even one of two.  Below the normal numbers the last bit stays where it is; nothing here overflows.
-/
namespace Lib
namespace Binary64

/-- The exponent of the last bit. -/
def lastBit (x : Rat) : Int := max (Int.log 2 x - 52) (-1074)

/-- The nearest integer, the even one of two. -/
def nearest (x : Rat) : Int :=
  let below := x.floor
  let rest := x - below
  if rest < 1 / 2 ∨ (rest = 1 / 2 ∧ below % 2 = 0) then below else below + 1

def round (x : Rat) : Rat := nearest (x * 2 ^ (-lastBit x)) * 2 ^ lastBit x

def ofNat (n : Nat) : Rat := round n

def mul (x y : Rat) : Rat := round (x * y)

def div (x y : Rat) : Rat := round (x / y)

/-- Toward zero. -/
def trunc (x : Rat) : Nat := x.floor.toNat

/-! ## Integers -/

theorem nearest_intCast (m : Int) : nearest m = m := by
  unfold nearest
  rw [Rat.floor_intCast]
  dsimp only
  rw [sub_self]
  exact if_pos (.inl (by norm_num))

theorem trunc_natCast (n : Nat) : trunc n = n := by
  have hfloor : (n : Rat).floor = n := Rat.floor_intCast n
  unfold trunc
  rw [hfloor, Int.toNat_natCast]

/-- **A number of 53 bits is not rounded.** -/
theorem round_natCast {n : Nat} (h : n < 2 ^ 53) : round n = n := by
  have hlast : ∃ k : Nat, lastBit n = -(k : Int) := by
    have hlog : Int.log 2 (n : Rat) ≤ 52 := by
      rw [Int.log_natCast]
      exact_mod_cast Nat.lt_succ_iff.1 (Nat.log_lt_of_lt_pow' (by decide) h)
    refine ⟨(-lastBit n).toNat, ?_⟩
    unfold lastBit
    omega
  obtain ⟨k, hlast⟩ := hlast
  have hscaled : (n : Rat) * 2 ^ (-lastBit n) = ((n * 2 ^ k : Int) : Rat) := by
    rw [hlast, neg_neg, zpow_natCast]
    push_cast
    rfl
  unfold round
  rw [hscaled, nearest_intCast, ← hscaled, mul_assoc, ← zpow_add₀ (by norm_num), neg_add_cancel, zpow_zero, mul_one]

theorem ofNat_exact {n : Nat} (h : n < 2 ^ 53) : ofNat n = n := round_natCast h

theorem mul_exact {a b : Nat} (h : a * b < 2 ^ 53) : mul a b = (a * b : Nat) := by
  unfold mul
  rw [← Nat.cast_mul, round_natCast h]

theorem div_exact {a b : Nat} (hb : b ≠ 0) (hdvd : b ∣ a) (h : a < 2 ^ 53) : div a b = (a / b : Nat) := by
  obtain ⟨c, rfl⟩ := hdvd
  have hc : c < 2 ^ 53 := Nat.lt_of_le_of_lt (Nat.le_mul_of_pos_left c (Nat.pos_of_ne_zero hb)) h
  unfold div
  rw [Nat.cast_mul, mul_div_cancel_left₀ _ (by exact_mod_cast hb), round_natCast hc,
    Nat.mul_div_cancel_left c (Nat.pos_of_ne_zero hb)]

end Binary64
end Lib
