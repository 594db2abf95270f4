/-
This file proves that the decimal chosen for a number reads back as that number. Seventeen digits
are enough: the leading digit is found by an estimate from the lengths in bits and one or two
comparisons, so that a unit of the seventeenth digit is at most a part in ten to the sixteenth of
the number, and the decimal nearest to it lies within half of that. A decimal counts only through
its value and through the place of its first digit, which decides whether it is far beyond all
numbers.
-/

import LuauReference.Proofs.Number.Rounding
import LuauReference.Proofs.Text.Numeral

namespace LuauReference

namespace Binary64

/-! ### The first digit -/

/-- The place before the first digit of a decimal. -/
def Decimal.order (d : Decimal) : Int :=
  d.exponent + (Text.ofNat d.digits).length

/-- A positive decimal lies between the powers of ten that its first digit gives. -/
theorem Decimal.value_bounds {d : Decimal} (present : 0 < d.digits) :
    (10 : ℚ) ^ (d.order - 1) ≤ d.value ∧ d.value < 10 ^ d.order := by
  obtain ⟨digits, exponent⟩ := d
  obtain ⟨length, same⟩ : ∃ length, (Text.ofNat digits).length = length + 1 :=
    Nat.exists_eq_add_one.mpr (List.length_pos_iff.mpr (Text.ofNat_ne_nil digits))
  have bounded {count : Nat} (some : 0 < count) :
      (Text.ofNat digits).length ≤ count ↔ digits < 10 ^ count :=
        Nat.length_toDigits_le_iff (by omega) some
  have below : digits < 10 ^ (length + 1) := (bounded (Nat.succ_pos length)).mp same.le
  have above : 10 ^ length ≤ digits := by
    rcases Nat.eq_zero_or_pos length with rfl | several
    · exact present
    · refine not_lt.mp fun short => ?_
      have less := (bounded several).mpr short
      omega
  have below' : (digits : ℚ) < 10 ^ ((length : Int) + 1) := by exact_mod_cast below
  have above' : (10 : ℚ) ^ (length : Int) ≤ digits := by exact_mod_cast above
  have unit : (0 : ℚ) < 10 ^ exponent := zpow_pos (by norm_num) exponent
  rw [Decimal.order, Decimal.value, same, Nat.cast_succ]
  constructor
  · calc (10 : ℚ) ^ (exponent + (length + 1) - 1) = 10 ^ (length : Int) * 10 ^ exponent := by
          rw [← zpow_add₀ (by norm_num)]
          ring_nf
      _ ≤ digits * 10 ^ exponent := mul_le_mul_of_nonneg_right above' unit.le
  · calc (digits : ℚ) * 10 ^ exponent < 10 ^ ((length : Int) + 1) * 10 ^ exponent :=
          mul_lt_mul_of_pos_right below' unit
      _ = 10 ^ (exponent + (length + 1)) := by
          rw [← zpow_add₀ (by norm_num)]
          ring_nf

/-! ### Reading decimals -/

theorem ofDecimal_eq (negative : Bool) (d : Decimal) :
    ofDecimal negative d =
      if d.digits = 0 || d.order < -400 then zero negative
      else if 400 < d.order then .infinite negative
      else nearest negative d.quotient.1 d.quotient.2 :=
  rfl

theorem isReadable_ofDecimal (negative : Bool) (d : Decimal) :
    (ofDecimal negative d).IsReadable := by
  rw [ofDecimal_eq]
  split
  · exact isReadable_zero negative
  · split
    · trivial
    · exact isReadable_nearest negative _ d.quotient_pos

/-- Decimals of one value and one place of the first digit are read as the same number. -/
theorem ofDecimal_congr (negative : Bool) {d d' : Decimal} (places : d.order = d'.order)
    (values : d.value = d'.value) : ofDecimal negative d = ofDecimal negative d' := by
  have none_iff (d : Decimal) : d.digits = 0 ↔ d.value = 0 := by
    rw [Decimal.value, mul_eq_zero, Nat.cast_eq_zero, or_iff_left (zpow_ne_zero _ (by norm_num))]
  have rounded : nearest negative d.quotient.1 d.quotient.2 =
      nearest negative d'.quotient.1 d'.quotient.2 :=
    nearest_congr negative d.quotient_pos d'.quotient_pos
      (by rw [Decimal.ratio_quotient, Decimal.ratio_quotient, values])
  simp only [ofDecimal_eq, none_iff, places, values, rounded]

theorem length_ofNat_mul_pow {n : Nat} (present : 0 < n) (zeros : Nat) :
    (Text.ofNat (n * 10 ^ zeros)).length = (Text.ofNat n).length + zeros := by
  induction zeros with
  | zero => rw [Nat.pow_zero, Nat.mul_one, Nat.add_zero]
  | succ zeros inductionHypothesis =>
    have many : 0 < n * 10 ^ zeros := Nat.mul_pos present (Nat.pow_pos (by omega))
    rw [Nat.pow_succ, ← Nat.mul_assoc, Text.ofNat, Nat.toDigits_eq_if (by omega),
      if_neg (by omega), Nat.mul_div_cancel _ (by omega), List.length_append]
    change (Text.ofNat (n * 10 ^ zeros)).length + 1 = _
    omega

/-- Zeros at the end of the digits may be moved to the exponent. -/
theorem ofDecimal_mul_pow (negative : Bool) {n : Nat} (present : 0 < n) (zeros : Nat)
    (exponent : Int) :
    ofDecimal negative ⟨n * 10 ^ zeros, exponent⟩ = ofDecimal negative ⟨n, exponent + zeros⟩ := by
  refine ofDecimal_congr negative ?_ ?_
  · simp only [Decimal.order, length_ofNat_mul_pow present]
    omega
  · simp only [Decimal.value]
    rw [Nat.cast_mul, Nat.cast_pow, Nat.cast_ofNat, zpow_add₀ (by norm_num), zpow_natCast]
    ring

/-- A decimal that is not far beyond all numbers is rounded. -/
theorem ofDecimal_eq_nearest (negative : Bool) {d : Decimal} (present : 0 < d.digits)
    (low : (10 : ℚ) ^ (-400 : Int) ≤ d.value) (high : d.value < 10 ^ (400 : Int)) :
    ofDecimal negative d = nearest negative d.quotient.1 d.quotient.2 := by
  obtain ⟨above, below⟩ := Decimal.value_bounds present
  have least := (zpow_lt_zpow_iff_right₀ (by norm_num)).mp (low.trans_lt below)
  have greatest := (zpow_lt_zpow_iff_right₀ (by norm_num)).mp (above.trans_lt high)
  have small : ¬ (d.digits = 0 || d.order < -400) = true := by
    simp only [Bool.or_eq_true, decide_eq_true_eq, not_or]
    omega
  rw [ofDecimal_eq, if_neg small, if_neg (by omega)]

theorem nearest_negate (negative : Bool) (numerator denominator : Nat) :
    nearest (!negative) numerator denominator =
      (nearest negative numerator denominator).negate := by
  rcases Nat.eq_zero_or_pos numerator with rfl | present
  · rfl
  · rw [nearest_eq _ _ present, nearest_eq _ _ present]
    simp only [settle]
    split <;> split <;> rfl

/-- The sign of a decimal is the sign of the number. -/
theorem ofDecimal_negate (negative : Bool) (d : Decimal) :
    ofDecimal (!negative) d = (ofDecimal negative d).negate := by
  rw [ofDecimal_eq, ofDecimal_eq, nearest_negate]
  split
  · rfl
  · split <;> rfl

/-! ### The estimate of the first digit -/

theorem pow_le_pow_of_root {base base' exponent exponent' : Nat} (count count' : Nat)
    (some : count ≠ 0) (positive : 0 < base') (root : base ^ count ≤ base' ^ count')
    (less : count' * exponent ≤ count * exponent') : base ^ exponent ≤ base' ^ exponent' := by
  refine (Nat.pow_le_pow_iff_left some).mp ?_
  calc (base ^ exponent) ^ count = (base ^ count) ^ exponent := Nat.pow_right_comm ..
    _ ≤ (base' ^ count') ^ exponent := Nat.pow_le_pow_left root exponent
    _ = base' ^ (count' * exponent) := (Nat.pow_mul ..).symm
    _ ≤ base' ^ (count * exponent') := Nat.pow_le_pow_right positive less
    _ = (base' ^ exponent') ^ count := by rw [Nat.mul_comm, Nat.pow_mul]

theorem two_zpow_le_ten_zpow {twos tens : Nat} (less : 28 * twos ≤ 93 * tens) :
    (2 : ℚ) ^ (twos : Int) ≤ 10 ^ (tens : Int) := by
  have powers : 2 ^ twos ≤ 10 ^ tens :=
    pow_le_pow_of_root 93 28 (by omega) (by omega) (by decide) less
  rw [zpow_natCast, zpow_natCast]
  exact_mod_cast powers

/-- A power of ten is at most a power of two when the exponents leave room for the logarithm of
ten. -/
theorem ten_zpow_le_two_zpow {tens twos : Int} (up : 196 * tens ≤ 59 * twos)
    (down : 93 * tens ≤ 28 * twos) : (10 : ℚ) ^ tens ≤ 2 ^ twos := by
  rcases Int.le_total 0 tens with many | few
  · obtain ⟨a, rfl⟩ := Int.eq_ofNat_of_zero_le many
    obtain ⟨b, rfl⟩ := Int.eq_ofNat_of_zero_le (show 0 ≤ twos by omega)
    have less : 10 ^ a ≤ 2 ^ b :=
      pow_le_pow_of_root 59 196 (by omega) (by omega) (by decide) (by omega)
    rw [zpow_natCast, zpow_natCast]
    exact_mod_cast less
  · obtain ⟨a, rfl⟩ := Int.exists_eq_neg_ofNat few
    rcases Int.le_total 0 twos with large | small
    · exact (zpow_le_one_of_nonpos₀ (by norm_num) few).trans (one_le_zpow₀ one_le_two large)
    · obtain ⟨b, rfl⟩ := Int.exists_eq_neg_ofNat small
      rw [zpow_neg, zpow_neg]
      exact inv_anti₀ (two_zpow_pos b) (two_zpow_le_ten_zpow (by omega))

/-- Whether a quotient is at least a power of ten, told by natural numbers. -/
def reaches (numerator denominator : Nat) (order : Int) : Prop :=
  (Decimal.quotient ⟨1, order⟩).1 * denominator ≤ numerator * (Decimal.quotient ⟨1, order⟩).2
deriving Decidable

theorem reaches_iff (numerator : Nat) {denominator : Nat} (positive : 0 < denominator)
    (order : Int) :
    reaches numerator denominator order ↔ (10 : ℚ) ^ order ≤ ratio numerator denominator := by
  have power : ratio (Decimal.quotient ⟨1, order⟩).1 (Decimal.quotient ⟨1, order⟩).2 =
      10 ^ order := by
    rw [Decimal.ratio_quotient, Decimal.value, Nat.cast_one, one_mul]
  rw [← power, ratio, ratio, div_le_div_iff₀ (Nat.cast_pos.mpr (Decimal.quotient_pos _))
    (Nat.cast_pos.mpr positive), reaches]
  exact_mod_cast Iff.rfl

theorem decimalOrder_eq (numerator denominator : Nat) {guess : Int}
    (same : Int.fdiv (((numerator.log2 : Int) - denominator.log2) * 30103) 100000 = guess) :
    decimalOrder numerator denominator =
      if ¬ reaches numerator denominator guess then guess - 1
      else if reaches numerator denominator (guess + 1) then guess + 1
      else guess := by
  subst same
  show (if (!decide (reaches numerator denominator _)) = true then _
    else if decide (reaches numerator denominator _) = true then _ else _) = _
  simp only [Bool.not_eq_true', decide_eq_false_iff_not, decide_eq_true_eq]

/-- The first digit of a quotient is not below the estimated place. -/
theorem ten_zpow_decimalOrder_le {numerator denominator : Nat} (first : 0 < numerator)
    (second : 0 < denominator) (low : (2 : ℚ) ^ (-1100 : Int) ≤ ratio numerator denominator)
    (high : ratio numerator denominator ≤ 2 ^ (1100 : Int)) :
    (10 : ℚ) ^ decimalOrder numerator denominator ≤ ratio numerator denominator := by
  obtain ⟨above, below⟩ := ratio_bounds first second
  have least := two_zpow_lt_iff.mp (low.trans_lt below)
  have greatest := two_zpow_lt_iff.mp (above.trans_le high)
  obtain ⟨guess, same⟩ :
    ∃ guess, Int.fdiv (((numerator.log2 : Int) - denominator.log2) * 30103) 100000 = guess :=
      ⟨_, rfl⟩
  have small : 100000 * guess ≤ ((numerator.log2 : Int) - denominator.log2) * 30103 := by
    rw [Int.fdiv_eq_ediv_of_nonneg _ (by omega)] at same
    omega
  rw [decimalOrder_eq numerator denominator same]
  split
  · refine le_trans (ten_zpow_le_two_zpow ?_ ?_) above.le <;> omega
  · next reached =>
    split
    · next further => exact (reaches_iff _ second _).mp further
    · exact (reaches_iff _ second _).mp (not_not.mp reached)

/-! ### Seventeen digits -/

theorem value_pos {mantissa : Nat} (present : 0 < mantissa) (exponent : Int) :
    0 < value mantissa exponent :=
  mul_pos (Nat.cast_pos.mpr present) (two_zpow_pos exponent)

/-- The value of a number lies far inside the range of decimals that are rounded. -/
theorem value_bounds {mantissa : Nat} {exponent : Int} (canonical : IsCanonical mantissa exponent)
    (present : 0 < mantissa) :
    (2 : ℚ) ^ (-1074 : Int) ≤ value mantissa exponent ∧
      value mantissa exponent ≤ 2 ^ (1024 : Int) := by
  have unit := two_zpow_pos exponent
  have least : (1 : ℚ) ≤ mantissa := Nat.one_le_cast.mpr present
  have greatest : (mantissa : ℚ) ≤ 2 ^ (53 : Int) := by exact_mod_cast canonical.bounded.le
  rw [value]
  constructor
  · calc (2 : ℚ) ^ (-1074 : Int) ≤ 2 ^ exponent := zpow_le_zpow_right₀ one_le_two canonical.least
      _ ≤ mantissa * 2 ^ exponent := le_mul_of_one_le_left unit.le least
  · calc (mantissa : ℚ) * 2 ^ exponent ≤ 2 ^ (53 : Int) * 2 ^ (971 : Int) :=
          mul_le_mul greatest (zpow_le_zpow_right₀ one_le_two canonical.greatest) unit.le
            (two_zpow_pos 53).le
      _ = 2 ^ (1024 : Int) := (zpow_add₀ two_ne_zero 53 971).symm

/-- A decimal at most half a unit of the seventeenth digit away reads back as the number. -/
theorem ofDecimal_of_near {mantissa : Nat} {exponent : Int}
    (canonical : IsCanonical mantissa exponent) (present : 0 < mantissa) {d : Decimal}
    (near : |d.value - value mantissa exponent| ≤ value mantissa exponent / (2 * 10 ^ 16)) :
    ofDecimal false d = .finite false mantissa exponent := by
  have positive := value_pos present exponent
  have half : value mantissa exponent / 2 ≤ d.value := by
    linarith [(abs_le.mp near).1]
  have double : d.value < value mantissa exponent * 2 := by
    linarith [(abs_le.mp near).2]
  have some : 0 < d.digits := by
    refine Nat.pos_of_ne_zero fun zero => ?_
    have nothing : d.value = 0 := by rw [Decimal.value, zero, Nat.cast_zero, zero_mul]
    linarith
  obtain ⟨least, greatest⟩ := value_bounds canonical present
  have low : (10 : ℚ) ^ (-400 : Int) ≤ d.value :=
    calc (10 : ℚ) ^ (-400 : Int) ≤ 2 ^ (-1074 - 1 : Int) :=
      ten_zpow_le_two_zpow (by omega) (by omega)
      _ = 2 ^ (-1074 : Int) / 2 := zpow_sub_one₀ two_ne_zero _
      _ ≤ value mantissa exponent / 2 := div_le_div_of_nonneg_right least zero_le_two
      _ ≤ d.value := half
  have huge : (2 : ℚ) ^ ((1024 + 1 : Nat) : Int) ≤ 10 ^ ((400 : Nat) : Int) :=
    two_zpow_le_ten_zpow (by omega)
  rw [Nat.cast_succ, zpow_add_one₀ two_ne_zero, Nat.cast_ofNat, Nat.cast_ofNat] at huge
  have high : d.value < 10 ^ (400 : Int) :=
    calc d.value < value mantissa exponent * 2 := double
      _ ≤ 2 ^ (1024 : Int) * 2 := by gcongr
      _ ≤ 10 ^ (400 : Int) := huge
  rw [ofDecimal_eq_nearest false some low high]
  rw [← Decimal.ratio_quotient d] at near
  exact nearest_eq_of_near false canonical present d.quotient_pos near

/-- The nearer neighbour is at most half a unit of its last digit away. -/
theorem exists_neighbour (numerator : Nat) {denominator : Nat} (positive : 0 < denominator)
    (order : Int) (count : Nat) :
    ∃ d ∈ neighbours numerator denominator order count,
      |d.value - ratio numerator denominator| ≤ 10 ^ (order - count + 1) / 2 := by
  obtain ⟨power, same⟩ : ∃ power, power = Decimal.quotient ⟨1, order - count + 1⟩ := ⟨_, rfl⟩
  have low : 0 < power.2 := same ▸ Decimal.quotient_pos _
  have unit : (0 : ℚ) < 10 ^ (order - count + 1) := zpow_pos (by norm_num) _
  have quotient : ratio power.1 power.2 = 10 ^ (order - count + 1) := by
    rw [same, Decimal.ratio_quotient, Decimal.value, Nat.cast_one, one_mul]
  have scaled : ratio (numerator * power.2) (denominator * power.1) =
      ratio numerator denominator / 10 ^ (order - count + 1) := by
    rw [← quotient]
    simp only [ratio, Nat.cast_mul, div_div_div_eq]
  have high : 0 < power.1 := by
    refine Nat.pos_of_ne_zero fun zero => unit.ne' ?_
    rw [← quotient, (ratio_eq_zero_iff low).mpr zero]
  have rounded := abs_ratio_sub_roundDiv (numerator * power.2) (Nat.mul_pos positive high)
  refine ⟨⟨roundDiv (numerator * power.2) (denominator * power.1), order - count + 1⟩, ?_, ?_⟩
  · rw [same]
    exact List.mem_cons_self
  · rw [scaled, abs_sub_comm] at rounded
    calc |(roundDiv (numerator * power.2) (denominator * power.1) : ℚ) * 10 ^ (order - count + 1) -
          ratio numerator denominator|
        = |(roundDiv (numerator * power.2) (denominator * power.1) : ℚ) -
            ratio numerator denominator / 10 ^ (order - count + 1)| * 10 ^ (order - count + 1) := by
          rw [← abs_of_pos unit, ← abs_mul, abs_of_pos unit, sub_mul, div_mul_cancel₀ _ unit.ne']
      _ ≤ 1 / 2 * 10 ^ (order - count + 1) := mul_le_mul_of_nonneg_right rounded unit.le
      _ = 10 ^ (order - count + 1) / 2 := by ring

/-- Seventeen digits are enough for a number to be read back. -/
theorem exists_neighbour_readBack {mantissa : Nat} {exponent : Int}
    (canonical : IsCanonical mantissa exponent) (present : 0 < mantissa) {order : Int}
    (digit : (10 : ℚ) ^ order ≤ value mantissa exponent) :
    ∃ d ∈ neighbours (quotient mantissa exponent).1 (quotient mantissa exponent).2 order 17,
      ofDecimal false d = .finite false mantissa exponent := by
  have same := ratio_quotient mantissa exponent
  obtain ⟨d, member, near⟩ := exists_neighbour (quotient mantissa exponent).1
    (quotient_pos mantissa exponent) order 17
  refine ⟨d, member, ofDecimal_of_near canonical present (same ▸ near.trans ?_)⟩
  calc (10 : ℚ) ^ (order - (17 : Nat) + 1) / 2 = 10 ^ order / (2 * 10 ^ 16) := by
        rw [show order - (17 : Nat) + 1 = order - 16 by omega, zpow_sub₀ (by norm_num), div_div,
          mul_comm 2]
        rfl
    _ ≤ ratio (quotient mantissa exponent).1 (quotient mantissa exponent).2 / (2 * 10 ^ 16) :=
        div_le_div_of_nonneg_right (same ▸ digit) (by norm_num)

/-- The order that is tried is the one of the first digit. -/
theorem ten_zpow_order_le {mantissa : Nat} {exponent : Int}
    (canonical : IsCanonical mantissa exponent) (present : 0 < mantissa) :
    (10 : ℚ) ^ decimalOrder (quotient mantissa exponent).1 (quotient mantissa exponent).2 ≤
      value mantissa exponent := by
  obtain ⟨low, high⟩ := value_bounds canonical present
  have same := ratio_quotient mantissa exponent
  have second := quotient_pos mantissa exponent
  have first : 0 < (quotient mantissa exponent).1 := by
    refine Nat.pos_of_ne_zero fun zero => (value_pos present exponent).ne' ?_
    rw [← same, (ratio_eq_zero_iff second).mpr zero]
  rw [← same] at low high ⊢
  refine ten_zpow_decimalOrder_le first second (le_trans ?_ low) (high.trans ?_)
  · exact zpow_le_zpow_right₀ one_le_two (by omega)
  · exact zpow_le_zpow_right₀ one_le_two (by omega)

/-- The shortest decimal of a number reads back as the number. -/
theorem ofDecimal_shortest {mantissa : Nat} {exponent : Int}
    (canonical : IsCanonical mantissa exponent) (present : 0 < mantissa) :
    ofDecimal false (shortest mantissa exponent) = .finite false mantissa exponent := by
  obtain ⟨d, member, back⟩ :=
    exists_neighbour_readBack canonical present (ten_zpow_order_le canonical present)
  have tried : d ∈ (List.range 17).flatMap fun n => neighbours (quotient mantissa exponent).1
      (quotient mantissa exponent).2
      (decimalOrder (quotient mantissa exponent).1 (quotient mantissa exponent).2) (n + 1) :=
    List.mem_flatMap.mpr ⟨16, by decide, member⟩
  obtain ⟨chosen, found⟩ := Option.isSome_iff_exists.mp
    (List.find?_isSome (p := fun d => ofDecimal false d == .finite false mantissa exponent).mpr
      ⟨d, tried, beq_iff_eq.mpr back⟩)
  have agrees := List.find?_some found
  have same : shortest mantissa exponent = chosen :=
    congrArg (fun candidate => Option.getD candidate (⟨0, 0⟩ : Decimal)) found
  rw [same]
  exact eq_of_beq agrees

theorem digits_shortest_pos {mantissa : Nat} {exponent : Int}
    (canonical : IsCanonical mantissa exponent) (present : 0 < mantissa) :
    0 < (shortest mantissa exponent).digits := by
  have back := ofDecimal_shortest canonical present
  refine Nat.pos_of_ne_zero fun none => present.ne ?_
  rw [ofDecimal_eq, none, decide_eq_true rfl, Bool.true_or, if_pos rfl, zero] at back
  injection back

end Binary64

end LuauReference
