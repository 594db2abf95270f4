/-
This file proves that rounding gives back a number from every quotient that lies near enough to it.
The exact value of a number is a rational one; a quotient matters only through its value, and its
exponent is the one power of two that leaves a mantissa of fifty-three bits, unless the least
exponent is reached. Near enough is half a unit of the last of seventeen decimal digits: that is
less than half a unit of the mantissa, and where the mantissa is a power of two, so that the next
smaller number lies at half the distance, less than a quarter of one.
-/

import LuauReference.Number.Binary64
import Mathlib.Algebra.Order.Field.Power
import Mathlib.Data.Int.Log
import Mathlib.Data.Rat.Floor
import Mathlib.Tactic.FieldSimp
import Mathlib.Tactic.Linarith
import Mathlib.Tactic.NormNum
import Mathlib.Tactic.Positivity
import Mathlib.Tactic.Ring

namespace LuauReference

namespace Binary64

/-! ### Whole numbers near a quotient -/

/-- The rounded quotient is at most half away. -/
theorem roundDiv_near (numerator : Nat) {denominator : Nat} (positive : 0 < denominator) :
    2 * (roundDiv numerator denominator * denominator) ≤ 2 * numerator + denominator ∧
      2 * numerator ≤ 2 * (roundDiv numerator denominator * denominator) + denominator := by
  have whole : denominator * (numerator / denominator) + numerator % denominator = numerator :=
    Nat.div_add_mod numerator denominator
  have small : numerator % denominator < denominator := Nat.mod_lt _ positive
  simp only [roundDiv]
  generalize numerator / denominator = quotient at *
  generalize numerator % denominator = rest at *
  have next : (quotient + 1) * denominator = quotient * denominator + denominator := by ring
  rw [Nat.mul_comm] at whole
  split
  · omega
  · split
    · omega
    · rcases Nat.mod_two_eq_zero_or_one quotient with even | odd
      · rw [even, Nat.add_zero]
        omega
      · rw [odd]
        omega

theorem roundDiv_mul (numerator denominator : Nat) {factor : Nat} (positive : 0 < factor) :
    roundDiv (numerator * factor) (denominator * factor) = roundDiv numerator denominator := by
  have twice : 2 * (numerator % denominator * factor) = 2 * (numerator % denominator) * factor := by
    ring
  simp only [roundDiv, Nat.mul_div_mul_right _ _ positive, Nat.mul_mod_mul_right, twice,
    Nat.mul_lt_mul_right positive]

/-! ### Values -/

/-- A quotient as a rational number. -/
def ratio (numerator denominator : Nat) : ℚ :=
  numerator / denominator

theorem ratio_pos {numerator denominator : Nat} (first : 0 < numerator) (second : 0 < denominator) :
    0 < ratio numerator denominator :=
  div_pos (Nat.cast_pos.mpr first) (Nat.cast_pos.mpr second)

theorem ratio_eq_zero_iff {numerator denominator : Nat} (positive : 0 < denominator) :
    ratio numerator denominator = 0 ↔ numerator = 0 := by
  simp [ratio, positive.ne']

/-- Equal quotients are rounded to the same whole number. -/
theorem roundDiv_congr {numerator denominator numerator' denominator' : Nat}
    (first : 0 < denominator) (second : 0 < denominator')
    (same : ratio numerator denominator = ratio numerator' denominator') :
    roundDiv numerator denominator = roundDiv numerator' denominator' := by
  have crossed : numerator * denominator' = numerator' * denominator := by
    have wide : (denominator : ℚ) ≠ 0 := Nat.cast_ne_zero.mpr first.ne'
    have narrow : (denominator' : ℚ) ≠ 0 := Nat.cast_ne_zero.mpr second.ne'
    rw [ratio, ratio, div_eq_div_iff wide narrow] at same
    exact_mod_cast same
  rw [← roundDiv_mul numerator denominator second, crossed, Nat.mul_comm denominator,
    roundDiv_mul numerator' denominator' first]

/-- The rounded quotient is at most half away from the value. -/
theorem abs_ratio_sub_roundDiv (numerator : Nat) {denominator : Nat} (positive : 0 < denominator) :
    |ratio numerator denominator - roundDiv numerator denominator| ≤ 1 / 2 := by
  obtain ⟨high, low⟩ := roundDiv_near numerator positive
  have wide : (0 : ℚ) < denominator := Nat.cast_pos.mpr positive
  have high' : 2 * ((roundDiv numerator denominator : ℚ) * denominator) ≤
      2 * numerator + denominator := by exact_mod_cast high
  have low' : 2 * (numerator : ℚ) ≤
      2 * (roundDiv numerator denominator * denominator) + denominator := by exact_mod_cast low
  have whole : ratio numerator denominator * denominator = numerator := div_mul_cancel₀ _ wide.ne'
  rw [abs_le]
  constructor <;> nlinarith

/-- The rounded quotient is the whole number that lies less than a half away. -/
theorem roundDiv_eq {numerator denominator whole : Nat} (positive : 0 < denominator)
    (near : |ratio numerator denominator - whole| < 1 / 2) :
    roundDiv numerator denominator = whole := by
  have rounded := abs_le.mp (abs_ratio_sub_roundDiv numerator positive)
  obtain ⟨low, high⟩ := abs_lt.mp near
  have below : (roundDiv numerator denominator : ℚ) < (whole + 1 : Nat) := by
    push_cast
    linarith
  have above : (whole : ℚ) < (roundDiv numerator denominator + 1 : Nat) := by
    push_cast
    linarith
  rw [Nat.cast_lt] at below above
  omega

theorem roundDiv_le {numerator denominator bound : Nat} (positive : 0 < denominator)
    (below : ratio numerator denominator < bound) : roundDiv numerator denominator ≤ bound := by
  have rounded := abs_le.mp (abs_ratio_sub_roundDiv numerator positive)
  have less : (roundDiv numerator denominator : ℚ) < (bound + 1 : Nat) := by
    push_cast
    linarith
  exact Nat.lt_succ_iff.mp (Nat.cast_lt.mp less)

theorem le_roundDiv {numerator denominator bound : Nat} (positive : 0 < denominator)
    (above : bound ≤ ratio numerator denominator) : bound ≤ roundDiv numerator denominator := by
  have rounded := abs_le.mp (abs_ratio_sub_roundDiv numerator positive)
  have more : (bound : ℚ) < (roundDiv numerator denominator + 1 : Nat) := by
    push_cast
    linarith
  exact Nat.lt_succ_iff.mp (Nat.cast_lt.mp more)

theorem scale_pos (numerator : Nat) {denominator : Nat} (positive : 0 < denominator)
    (exponent : Int) : 0 < (scale numerator denominator exponent).2 := by
  cases exponent with
  | ofNat up => exact Nat.mul_pos positive (Nat.pow_pos (by omega))
  | negSucc down => exact positive

/-- Scaling divides the value by the power of two. -/
theorem ratio_scale (numerator denominator : Nat) (exponent : Int) :
    ratio (scale numerator denominator exponent).1 (scale numerator denominator exponent).2 =
      ratio numerator denominator / 2 ^ exponent := by
  cases exponent with
  | ofNat up =>
    have denominators : ((denominator * Nat.pow 2 up : Nat) : ℚ) = denominator * 2 ^ up := by
      rw [Nat.cast_mul, Nat.pow_eq, Nat.cast_pow, Nat.cast_ofNat]
    rw [scale, ratio, ratio, denominators, Int.ofNat_eq_natCast, zpow_natCast, div_div]
  | negSucc down =>
    have numerators : ((numerator * Nat.pow 2 (down + 1) : Nat) : ℚ) = numerator * 2 ^
        (down + 1) := by
      rw [Nat.cast_mul, Nat.pow_eq, Nat.cast_pow, Nat.cast_ofNat]
    rw [scale, ratio, ratio, numerators, zpow_negSucc, div_inv_eq_mul, div_mul_eq_mul_div]

/-- The exact value of a mantissa and an exponent. -/
def value (mantissa : Nat) (exponent : Int) : ℚ :=
  mantissa * 2 ^ exponent

theorem quotient_pos (mantissa : Nat) (exponent : Int) : 0 < (quotient mantissa exponent).2 := by
  cases exponent with
  | ofNat up => exact Nat.one_pos
  | negSucc down => exact Nat.pow_pos (by omega)

theorem ratio_quotient (mantissa : Nat) (exponent : Int) :
    ratio (quotient mantissa exponent).1 (quotient mantissa exponent).2 =
      value mantissa exponent := by
  cases exponent with
  | ofNat up =>
    rw [quotient, ratio, value, Nat.cast_one, div_one, Nat.cast_mul, Nat.pow_eq, Nat.cast_pow,
      Nat.cast_ofNat, Int.ofNat_eq_natCast, zpow_natCast]
  | negSucc down =>
    rw [quotient, ratio, value, Nat.pow_eq, Nat.cast_pow, Nat.cast_ofNat, zpow_negSucc,
      div_eq_mul_inv]

/-- The exact value of a decimal. -/
def Decimal.value (d : Decimal) : ℚ :=
  d.digits * 10 ^ d.exponent

theorem Decimal.quotient_pos (d : Decimal) : 0 < d.quotient.2 := by
  rw [Decimal.quotient]
  split
  · exact Nat.one_pos
  · exact Nat.pow_pos (by omega)

theorem Decimal.ratio_quotient (d : Decimal) : ratio d.quotient.1 d.quotient.2 = d.value := by
  obtain ⟨digits, exponent⟩ := d
  cases exponent with
  | ofNat up =>
    show ((digits * Nat.pow 10 up : Nat) : ℚ) / (1 : Nat) = digits * 10 ^ (up : Int)
    rw [Nat.cast_one, div_one, Nat.cast_mul, Nat.pow_eq, Nat.cast_pow, Nat.cast_ofNat, zpow_natCast]
  | negSucc down =>
    show (digits : ℚ) / (Nat.pow 10 (down + 1) : Nat) = digits * 10 ^ Int.negSucc down
    rw [Nat.pow_eq, Nat.cast_pow, Nat.cast_ofNat, zpow_negSucc, div_eq_mul_inv]

/-! ### Exponents -/

theorem two_zpow_pos (exponent : Int) : (0 : ℚ) < 2 ^ exponent :=
  zpow_pos two_pos exponent

theorem two_zpow_lt_iff {first second : Int} : (2 : ℚ) ^ first < 2 ^ second ↔ first < second :=
  zpow_lt_zpow_iff_right₀ one_lt_two

/-- A positive number lies between the powers of two that its length gives. -/
theorem cast_log2_bounds {n : Nat} (positive : 0 < n) :
    (2 : ℚ) ^ (n.log2 : Int) ≤ n ∧ (n : ℚ) < 2 ^ ((n.log2 : Int) + 1) := by
  constructor
  · rw [zpow_natCast]
    exact_mod_cast Nat.log2_self_le positive.ne'
  · rw [← Nat.cast_succ, zpow_natCast]
    exact_mod_cast Nat.lt_log2_self

/-- The value of a quotient lies between the powers of two that the lengths of its parts give. -/
theorem ratio_bounds {numerator denominator : Nat} (first : 0 < numerator)
    (second : 0 < denominator) :
    (2 : ℚ) ^ ((numerator.log2 : Int) - denominator.log2 - 1) < ratio numerator denominator ∧
      ratio numerator denominator < 2 ^ ((numerator.log2 : Int) - denominator.log2 + 1) := by
  obtain ⟨low, high⟩ := cast_log2_bounds first
  obtain ⟨low', high'⟩ := cast_log2_bounds second
  have wide : (0 : ℚ) < denominator := Nat.cast_pos.mpr second
  rw [ratio, lt_div_iff₀ wide, div_lt_iff₀ wide]
  constructor
  · calc (2 : ℚ) ^ ((numerator.log2 : Int) - denominator.log2 - 1) * denominator
        < 2 ^ ((numerator.log2 : Int) - denominator.log2 - 1) * 2 ^
          ((denominator.log2 : Int) + 1) :=
          mul_lt_mul_of_pos_left high' (two_zpow_pos _)
      _ = 2 ^ (numerator.log2 : Int) := by
          rw [← zpow_add₀ two_ne_zero]
          ring_nf
      _ ≤ numerator := low
  · calc (numerator : ℚ)
        < 2 ^ ((numerator.log2 : Int) + 1) := high
      _ = 2 ^ ((numerator.log2 : Int) - denominator.log2 + 1) * 2 ^ (denominator.log2 : Int) := by
          rw [← zpow_add₀ two_ne_zero]
          ring_nf
      _ ≤ 2 ^ ((numerator.log2 : Int) - denominator.log2 + 1) * denominator :=
          mul_le_mul_of_nonneg_left low' (two_zpow_pos _).le

theorem scale_lt_iff (numerator : Nat) {denominator : Nat} (positive : 0 < denominator)
    (exponent : Int) :
    (scale numerator denominator exponent).1 < (scale numerator denominator exponent).2 ↔
      ratio numerator denominator < 2 ^ exponent := by
  have low : (0 : ℚ) < (scale numerator denominator exponent).2 :=
    Nat.cast_pos.mpr (scale_pos numerator positive exponent)
  have quotient := ratio_scale numerator denominator exponent
  rw [ratio] at quotient
  rw [← Nat.cast_lt (α := ℚ), ← div_lt_one low, quotient, div_lt_one (two_zpow_pos exponent)]

/-- The exponent leaves a mantissa of fifty-three bits, unless it is the least one. -/
theorem exponentOf_eq {numerator denominator : Nat} (first : 0 < numerator)
    (second : 0 < denominator) :
    exponentOf numerator denominator =
      max leastExponent (Int.log 2 (ratio numerator denominator) - 52) := by
  obtain ⟨low, high⟩ := ratio_bounds first second
  have positive := ratio_pos first second
  have floor := Int.zpow_log_le_self (b := 2) Nat.one_lt_two positive
  have ceiling := Int.lt_zpow_succ_log_self (b := 2) Nat.one_lt_two (ratio numerator denominator)
  rw [Nat.cast_ofNat] at floor ceiling
  have below := two_zpow_lt_iff.mp (floor.trans_lt high)
  have above := two_zpow_lt_iff.mp (low.trans ceiling)
  have side := scale_lt_iff numerator second ((numerator.log2 : Int) - denominator.log2)
  show max leastExponent (if (scale numerator denominator _).1 < (scale numerator denominator _).2
    then (numerator.log2 : Int) - denominator.log2 - 53
    else (numerator.log2 : Int) - denominator.log2 - 52) = _
  by_cases less : ratio numerator denominator < 2 ^ ((numerator.log2 : Int) - denominator.log2)
  · have least := two_zpow_lt_iff.mp (floor.trans_lt less)
    rw [if_pos (side.mpr less)]
    omega
  · have greatest := two_zpow_lt_iff.mp ((not_lt.mp less).trans_lt ceiling)
    rw [if_neg (mt side.mp less)]
    omega

/-! ### The nearest number -/

/-- The rounded mantissa that a quotient has at an exponent. -/
def mantissaAt (numerator denominator : Nat) (exponent : Int) : Nat :=
  roundDiv (scale numerator denominator exponent).1 (scale numerator denominator exponent).2

/-- The number with a mantissa that may have been rounded up to the bound. -/
def settle (negative : Bool) (mantissa : Nat) (exponent : Int) : Binary64 :=
  let (mantissa, exponent) :=
    if mantissa = mantissaBound then (mantissa / 2, exponent + 1) else (mantissa, exponent)
  if greatestExponent < exponent then .infinite negative else .finite negative mantissa exponent

theorem nearest_eq (negative : Bool) {numerator : Nat} (denominator : Nat) (first : 0 < numerator) :
    nearest negative numerator denominator =
      settle negative (mantissaAt numerator denominator (exponentOf numerator denominator))
        (exponentOf numerator denominator) :=
  if_neg first.ne'

/-- Equal quotients have the same nearest number. -/
theorem nearest_congr (negative : Bool) {numerator denominator numerator' denominator' : Nat}
    (first : 0 < denominator) (second : 0 < denominator')
    (same : ratio numerator denominator = ratio numerator' denominator') :
    nearest negative numerator denominator = nearest negative numerator' denominator' := by
  have none_iff : numerator = 0 ↔ numerator' = 0 := by
    rw [← ratio_eq_zero_iff first, ← ratio_eq_zero_iff second, same]
  rcases Nat.eq_zero_or_pos numerator with zero | positive
  · rw [zero, none_iff.mp zero]
    rfl
  · have positive' : 0 < numerator' := Nat.pos_of_ne_zero (mt none_iff.mpr positive.ne')
    have exponents : exponentOf numerator denominator = exponentOf numerator' denominator' := by
      rw [exponentOf_eq positive first, exponentOf_eq positive' second, same]
    have mantissas : mantissaAt numerator denominator (exponentOf numerator' denominator') =
        mantissaAt numerator' denominator' (exponentOf numerator' denominator') :=
      roundDiv_congr (scale_pos _ first _) (scale_pos _ second _)
        (by rw [ratio_scale, ratio_scale, same])
    rw [nearest_eq negative _ positive, nearest_eq negative _ positive', exponents, mantissas]

/-! ### Numbers that a reader can return -/

/-- Whether a mantissa and an exponent are those of a number: the mantissa fills its bits unless the
exponent is the least one. -/
structure IsCanonical (mantissa : Nat) (exponent : Int) : Prop where
  bounded : mantissa < mantissaBound
  least : leastExponent ≤ exponent
  greatest : exponent ≤ greatestExponent
  full : 2 ^ 52 ≤ mantissa ∨ exponent = leastExponent

/-- Whether a number is an infinity or has a mantissa and an exponent of a number. -/
def IsReadable : Binary64 → Prop
  | .finite _ mantissa exponent => IsCanonical mantissa exponent
  | .infinite _ => True
  | .undefined => False

theorem isReadable_zero (negative : Bool) : (zero negative).IsReadable :=
  ⟨by decide, by decide, by decide, Or.inr rfl⟩

theorem isReadable_settle (negative : Bool) {mantissa : Nat} {exponent : Int}
    (bounded : mantissa ≤ mantissaBound) (least : leastExponent ≤ exponent)
    (full : 2 ^ 52 ≤ mantissa ∨ exponent = leastExponent) :
    (settle negative mantissa exponent).IsReadable := by
  have bound : mantissaBound = 2 ^ 53 := rfl
  unfold settle
  split
  next mantissa' exponent' step =>
  split
  · trivial
  · next small =>
    split at step
    · next carried =>
      obtain ⟨rfl, rfl⟩ := Prod.mk.inj step
      exact ⟨by omega, by omega, by omega, Or.inl (by omega)⟩
    · next kept =>
      obtain ⟨rfl, rfl⟩ := Prod.mk.inj step
      exact ⟨by omega, by omega, by omega, full⟩

/-- The nearest number is one that a reader can return. -/
theorem isReadable_nearest (negative : Bool) (numerator : Nat) {denominator : Nat}
    (positive : 0 < denominator) : (nearest negative numerator denominator).IsReadable := by
  rcases Nat.eq_zero_or_pos numerator with rfl | present
  · exact isReadable_zero negative
  · have value := ratio_pos present positive
    have floor := Int.zpow_log_le_self (b := 2) Nat.one_lt_two value
    have ceiling := Int.lt_zpow_succ_log_self (b := 2) Nat.one_lt_two (ratio numerator denominator)
    rw [Nat.cast_ofNat] at floor ceiling
    have exponent := exponentOf_eq present positive
    have scaled := ratio_scale numerator denominator (exponentOf numerator denominator)
    have low := scale_pos numerator positive (exponentOf numerator denominator)
    rw [nearest_eq negative _ present]
    refine isReadable_settle negative (roundDiv_le low ?_) (exponent ▸ le_max_left _ _) ?_
    · rw [scaled, div_lt_iff₀ (two_zpow_pos _), mantissaBound, Nat.pow_eq, Nat.cast_pow,
        Nat.cast_ofNat, ← zpow_natCast, ← zpow_add₀ two_ne_zero]
      exact ceiling.trans_le (zpow_le_zpow_right₀ one_le_two (by omega))
    · rcases eq_or_ne (exponentOf numerator denominator) leastExponent with least | greater
      · exact Or.inr least
      · refine Or.inl (le_roundDiv low ?_)
        rw [scaled, le_div_iff₀ (two_zpow_pos _), Nat.cast_pow, Nat.cast_ofNat, ← zpow_natCast,
          ← zpow_add₀ two_ne_zero]
        exact (zpow_le_zpow_right₀ one_le_two (by omega)).trans floor

/-! ### Numbers given back -/

theorem settle_of_isCanonical (negative : Bool) {mantissa : Nat} {exponent : Int}
    (canonical : IsCanonical mantissa exponent) :
    settle negative mantissa exponent = .finite negative mantissa exponent := by
  have below := canonical.bounded.ne
  have small := not_lt.mpr canonical.greatest
  simp only [settle, if_neg below, if_neg small]

theorem settle_bound (negative : Bool) {exponent : Int} (small : exponent + 1 ≤ greatestExponent) :
    settle negative mantissaBound exponent = .finite negative (2 ^ 52) (exponent + 1) := by
  simp only [settle, if_true, if_neg (not_lt.mpr small)]
  rfl

/-- The exponent is the one at which the mantissa fills its bits. -/
theorem exponentOf_of_bounds {numerator denominator : Nat} {exponent : Int} (first : 0 < numerator)
    (second : 0 < denominator) (least : leastExponent ≤ exponent)
    (low : 2 ^ 52 ≤ ratio numerator denominator / 2 ^ exponent ∨ exponent = leastExponent)
    (high : ratio numerator denominator / 2 ^ exponent < 2 ^ 53) :
    exponentOf numerator denominator = exponent := by
  have floor := Int.zpow_log_le_self (b := 2) Nat.one_lt_two (ratio_pos first second)
  have ceiling := Int.lt_zpow_succ_log_self (b := 2) Nat.one_lt_two (ratio numerator denominator)
  rw [Nat.cast_ofNat] at floor ceiling
  rw [div_lt_iff₀ (two_zpow_pos _), ← zpow_natCast, ← zpow_add₀ two_ne_zero] at high
  have below := two_zpow_lt_iff.mp (floor.trans_lt high)
  rw [exponentOf_eq first second]
  rcases low with full | rfl
  · rw [le_div_iff₀ (two_zpow_pos _), ← zpow_natCast, ← zpow_add₀ two_ne_zero] at full
    have above := two_zpow_lt_iff.mp (full.trans_lt ceiling)
    omega
  · omega

theorem nearest_of_settle (negative : Bool) {numerator denominator mantissa : Nat} {exponent : Int}
    (first : 0 < numerator) (second : 0 < denominator)
    (same : exponentOf numerator denominator = exponent)
    (near : |ratio numerator denominator / 2 ^ exponent - mantissa| < 1 / 2) :
    nearest negative numerator denominator = settle negative mantissa exponent := by
  have rounded : mantissaAt numerator denominator exponent = mantissa :=
    roundDiv_eq (scale_pos numerator second exponent) (by rwa [ratio_scale])
  rw [nearest_eq negative _ first, same, rounded]

theorem IsCanonical.cast_le {mantissa : Nat} {exponent : Int}
    (canonical : IsCanonical mantissa exponent) : (mantissa : ℚ) ≤ 2 ^ 53 - 1 := by
  have below : mantissa + 1 ≤ 2 ^ 53 := canonical.bounded
  have cast : (mantissa : ℚ) + 1 ≤ 2 ^ 53 := by exact_mod_cast below
  linarith

section

variable (negative : Bool) {mantissa numerator denominator : Nat} {exponent : Int}

/-- How far a quotient is from a number, in units of the last place. -/
theorem abs_scaled_sub_le
    (near : |ratio numerator denominator - value mantissa exponent| ≤
      value mantissa exponent / (2 * 10 ^ 16)) :
    |ratio numerator denominator / 2 ^ exponent - mantissa| ≤ mantissa / (2 * 10 ^ 16) := by
  have unit := two_zpow_pos exponent
  have apart : ratio numerator denominator / 2 ^ exponent - mantissa =
      (ratio numerator denominator - value mantissa exponent) / 2 ^ exponent := by
    rw [value, sub_div, mul_div_cancel_right₀ _ unit.ne']
  rw [apart, abs_div, abs_of_pos unit, div_le_iff₀ unit, ← mul_div_right_comm]
  exact near

/-- The nearest number to a quotient that is near a number and fills its bits like it. -/
theorem nearest_of_full (canonical : IsCanonical mantissa exponent) (first : 0 < numerator)
    (second : 0 < denominator)
    (close : |ratio numerator denominator / 2 ^ exponent - mantissa| ≤ mantissa / (2 * 10 ^ 16))
    (full : 2 ^ 52 ≤ ratio numerator denominator / 2 ^ exponent ∨ exponent = leastExponent) :
    nearest negative numerator denominator = .finite negative mantissa exponent := by
  have bounded := canonical.cast_le
  obtain ⟨low, high⟩ := abs_le.mp close
  have here : exponentOf numerator denominator = exponent :=
    exponentOf_of_bounds first second canonical.least full (by linarith)
  have half : |ratio numerator denominator / 2 ^ exponent - mantissa| < 1 / 2 :=
    abs_lt.mpr ⟨by linarith, by linarith⟩
  rw [nearest_of_settle negative first second here half, settle_of_isCanonical negative canonical]

/-- The nearest number to a quotient that is near a number and does not fill its bits. The number is
then a power of two, and the quotient lies below it, where the units are half as large. -/
theorem nearest_of_short (canonical : IsCanonical mantissa exponent) (first : 0 < numerator)
    (second : 0 < denominator)
    (close : |ratio numerator denominator / 2 ^ exponent - mantissa| ≤ mantissa / (2 * 10 ^ 16))
    (short : ratio numerator denominator / 2 ^ exponent < 2 ^ 52)
    (greater : exponent ≠ leastExponent) :
    nearest negative numerator denominator = .finite negative mantissa exponent := by
  have bounded := canonical.cast_le
  obtain ⟨low, high⟩ := abs_le.mp close
  have power : mantissa = 2 ^ 52 := by
    have least := canonical.full.resolve_right greater
    have cast : (mantissa : ℚ) < (2 ^ 52 + 1 : Nat) := by
      push_cast
      linarith
    have most := Nat.cast_lt.mp cast
    omega
  subst power
  have twice : ratio numerator denominator / 2 ^ (exponent - 1) =
      2 * (ratio numerator denominator / 2 ^ exponent) := by
    rw [zpow_sub_one₀ two_ne_zero]
    field_simp
  push_cast at low high
  have here : exponentOf numerator denominator = exponent - 1 := by
    have least := canonical.least
    refine exponentOf_of_bounds first second (by omega) (Or.inl ?_) ?_ <;> rw [twice] <;> linarith
  have carried : |ratio numerator denominator / 2 ^ (exponent - 1) - mantissaBound| < 1 / 2 := by
    rw [twice, mantissaBound, Nat.pow_eq]
    push_cast
    exact abs_lt.mpr ⟨by linarith, by linarith⟩
  have greatest := canonical.greatest
  rw [nearest_of_settle negative first second here carried, settle_bound negative (by omega),
    sub_add_cancel]

/-- A number is the nearest one to every quotient that is at most half a unit of its seventeenth
digit away. -/
theorem nearest_eq_of_near (canonical : IsCanonical mantissa exponent) (present : 0 < mantissa)
    (positive : 0 < denominator)
    (near : |ratio numerator denominator - value mantissa exponent| ≤
      value mantissa exponent / (2 * 10 ^ 16)) :
    nearest negative numerator denominator = .finite negative mantissa exponent := by
  have close := abs_scaled_sub_le near
  have first : 0 < numerator := by
    refine Nat.pos_of_ne_zero fun zero => ?_
    have whole : (1 : ℚ) ≤ mantissa := Nat.one_le_cast.mpr present
    have low := (abs_le.mp close).1
    rw [(ratio_eq_zero_iff positive).mpr zero, zero_div] at low
    linarith
  by_cases full : 2 ^ 52 ≤ ratio numerator denominator / 2 ^ exponent ∨ exponent = leastExponent
  · exact nearest_of_full negative canonical first positive close full
  · obtain ⟨short, greater⟩ := not_or.mp full
    exact nearest_of_short negative canonical first positive close (not_le.mp short) greater

end

end Binary64

end LuauReference
