/-
# ClientForge.Proofs.Data.Rounding -- what is rounded to a double

A finite double that is not zero is `m * 2 ^ (k - 1074)` for its significand `m` and its steps
`k`.  The ratios that are nearer to it than to any other double lie between two bounds, halfway
to its neighbours; below the least significand of a binade the next double is nearer
(`Binary64.gap`).  A ratio between the bounds is rounded to the double (`roundRatio_eq`), and so
is a decimal (`ofDecimal_eq`).  The bounds belong to the double if its significand is even.

Rounding first finds the binade of the ratio (`exists_binade`).  That is the binade of the
double, or the one below it when the double is the least of its own
(`eq_or_below_of_within`); then the quotient is rounded (`roundDiv_eq`).
-/
import Mathlib.Algebra.Order.Field.Power
import Mathlib.Data.Rat.Cast.Order
import Mathlib.Tactic.FieldSimp
import Mathlib.Tactic.Linarith
import Mathlib.Tactic.Positivity
import Mathlib.Tactic.Ring
import ClientForge.Data.Binary64

namespace ClientForge.Binary64

set_option autoImplicit false

/-! ## Quotients -/

theorem roundDiv_eq_of_le {n d r : Nat} (low : 2 * r * d ≤ 2 * n + d) (high : 2 * n ≤ 2 * r * d + d)
    (tie : r % 2 = 1 → 2 * r * d < 2 * n + d ∧ 2 * n < 2 * r * d + d) (pos : 0 < d) :
    roundDiv n d = r := by
  have split := Nat.div_add_mod n d
  have rest := Nat.mod_lt n pos
  unfold roundDiv
  dsimp only
  generalize n / d = q at split ⊢
  generalize n % d = s at split rest ⊢
  subst split
  have upper : r < q + 2 := by
    refine Nat.lt_of_mul_lt_mul_right (a := d) ?_
    nlinarith
  have lower : q < r + 1 := by
    refine Nat.lt_of_mul_lt_mul_right (a := d) ?_
    nlinarith
  obtain rfl | rfl : r = q ∨ r = q + 1 := by omega
  · have few : 2 * s ≤ d := by nlinarith
    have fewer (odd : r % 2 = 1) : 2 * s < d := by
      obtain ⟨-, strict⟩ := tie odd
      nlinarith
    refine if_neg ?_
    rintro (more | ⟨half, odd⟩)
    · omega
    · have := fewer odd
      omega
  · have many : d ≤ 2 * s := by nlinarith
    refine if_pos ?_
    by_cases odd : (q + 1) % 2 = 1
    · obtain ⟨strict, -⟩ := tie odd
      left
      nlinarith
    · rcases Nat.lt_or_eq_of_le many with more | half
      · exact Or.inl more
      · exact Or.inr ⟨half.symm, by omega⟩

/-- A quotient is rounded to the integer that is at most half apart, if the integer is even, and
less than that if it is odd. -/
theorem roundDiv_eq {n d r : Nat} (pos : 0 < d) (low : (r : ℚ) - 1 / 2 ≤ n / d)
    (high : (n : ℚ) / d ≤ r + 1 / 2)
    (tie : r % 2 = 1 → (r : ℚ) - 1 / 2 < n / d ∧ (n : ℚ) / d < r + 1 / 2) : roundDiv n d = r := by
  have positive : (0 : ℚ) < d := by exact_mod_cast pos
  rw [le_div_iff₀ positive] at low
  rw [div_le_iff₀ positive] at high
  rw [lt_div_iff₀ positive, div_lt_iff₀ positive] at tie
  refine roundDiv_eq_of_le ?_ ?_ (fun odd => ⟨?_, ?_⟩) pos
  · have bound : (2 * r * d : ℚ) ≤ 2 * n + d := by linarith
    exact_mod_cast bound
  · have bound : (2 * n : ℚ) ≤ 2 * r * d + d := by linarith
    exact_mod_cast bound
  · have bound : (2 * r * d : ℚ) < 2 * n + d := by linarith [(tie odd).1]
    exact_mod_cast bound
  · have bound : (2 * n : ℚ) < 2 * r * d + d := by linarith [(tie odd).2]
    exact_mod_cast bound

/-! ## Binades -/

/-- A ratio in units of the least double that is not zero. -/
def units (v : ℚ) : ℚ := v * 2 ^ 1074

/-- The numerator and the denominator of a ratio divided by a power of two. -/
def scaled (num den : Nat) (e : Int) : Nat × Nat :=
  if 0 ≤ e then (num, den * 2 ^ e.toNat) else (num * 2 ^ (-e).toNat, den)

theorem scaled_value (num : Nat) {den : Nat} (pos : 0 < den) (e : Int) :
    0 < (scaled num den e).2 ∧
      ((scaled num den e).1 : ℚ) / (scaled num den e).2 = num / den * (2 : ℚ) ^ (-e) := by
  have positive : (0 : ℚ) < den := by exact_mod_cast pos
  unfold scaled
  split
  · rename_i sign
    obtain ⟨n, rfl⟩ := Int.eq_ofNat_of_zero_le sign
    refine ⟨by positivity, ?_⟩
    rw [Int.toNat_natCast, zpow_neg, zpow_natCast]
    push_cast
    field_simp
  · rename_i sign
    obtain ⟨n, same⟩ := Int.eq_ofNat_of_zero_le (a := -e) (by omega)
    refine ⟨pos, ?_⟩
    rw [same, Int.toNat_natCast, zpow_natCast]
    push_cast
    field_simp

/-- The exponent that is tried first, and is at most one too high. -/
def firstExponent (num den : Nat) : Int := (Nat.log2 num : Int) - Nat.log2 den - 52

/-- The exponent that brings a ratio to a significand. -/
def foundExponent (num den : Nat) : Int :=
  let parts := scaled num den (firstExponent num den)
  if parts.1 / parts.2 < 2 ^ 52 then firstExponent num den - 1 else firstExponent num den

theorem roundRatio_scaled (num den : Nat) : roundRatio num den =
    min ((max (foundExponent num den) (-1074) + 1074).toNat * 2 ^ 52 +
      roundDiv (scaled num den (max (foundExponent num den) (-1074))).1
        (scaled num den (max (foundExponent num den) (-1074))).2) infinityMagnitude := rfl

section Binade

variable {num den : Nat} (numPos : 0 < num) (denPos : 0 < den)
include numPos denPos

/-- The first exponent brings a ratio between `2 ^ 51` and `2 ^ 53`. -/
theorem firstExponent_bounds :
    (2 : ℚ) ^ 51 < num / den * 2 ^ (-firstExponent num den) ∧
      (num : ℚ) / den * 2 ^ (-firstExponent num den) < 2 ^ 53 := by
  have positive : (0 : ℚ) < den := by exact_mod_cast denPos
  have numLow : ((2 : ℚ) ^ (Nat.log2 num : ℤ)) ≤ num := by
    rw [zpow_natCast]
    exact_mod_cast Nat.log2_self_le numPos.ne'
  have numHigh : (num : ℚ) < 2 ^ ((Nat.log2 num : ℤ) + 1) := by
    have bound : num < 2 ^ (Nat.log2 num + 1) := Nat.lt_log2_self
    exact_mod_cast bound
  have denLow : ((2 : ℚ) ^ (Nat.log2 den : ℤ)) ≤ den := by
    rw [zpow_natCast]
    exact_mod_cast Nat.log2_self_le denPos.ne'
  have denHigh : (den : ℚ) < 2 ^ ((Nat.log2 den : ℤ) + 1) := by
    have bound : den < 2 ^ (Nat.log2 den + 1) := Nat.lt_log2_self
    exact_mod_cast bound
  unfold firstExponent
  generalize (Nat.log2 num : ℤ) = a at *
  generalize (Nat.log2 den : ℤ) = b at *
  have shift : (0 : ℚ) < 2 ^ (-(a - b - 52)) := by positivity
  rw [div_mul_eq_mul_div, lt_div_iff₀ positive, div_lt_iff₀ positive]
  constructor
  · calc (2 : ℚ) ^ 51 * den < 2 ^ 51 * 2 ^ (b + 1) := by gcongr
      _ = 2 ^ a * 2 ^ (-(a - b - 52)) := by
          rw [← zpow_natCast, ← zpow_add₀ two_ne_zero, ← zpow_add₀ two_ne_zero]
          congr 1
          push_cast
          ring
      _ ≤ num * 2 ^ (-(a - b - 52)) := by gcongr
  · calc (num : ℚ) * 2 ^ (-(a - b - 52)) < 2 ^ (a + 1) * 2 ^ (-(a - b - 52)) := by gcongr
      _ = 2 ^ 53 * 2 ^ b := by
          rw [← zpow_natCast, ← zpow_add₀ two_ne_zero, ← zpow_add₀ two_ne_zero]
          congr 1
          push_cast
          ring
      _ ≤ 2 ^ 53 * den := by gcongr

/-- The exponent that is found brings a ratio between `2 ^ 52` and `2 ^ 53`. -/
theorem foundExponent_bounds :
    (2 : ℚ) ^ 52 ≤ num / den * 2 ^ (-foundExponent num den) ∧
      (num : ℚ) / den * 2 ^ (-foundExponent num den) < 2 ^ 53 := by
  obtain ⟨low, high⟩ := firstExponent_bounds numPos denPos
  obtain ⟨pos, value⟩ := scaled_value num denPos (firstExponent num den)
  have positive : (0 : ℚ) < ((scaled num den (firstExponent num den)).2 : ℚ) := by
    exact_mod_cast pos
  unfold foundExponent
  dsimp only
  rw [← value] at low high
  split
  · rename_i small
    rw [Nat.div_lt_iff_lt_mul pos] at small
    have twice : (2 : ℚ) ^ (-(firstExponent num den - 1)) = 2 ^ (-firstExponent num den) * 2 := by
      rw [neg_sub, sub_eq_neg_add, zpow_add₀ two_ne_zero, zpow_one]
    have below : ((scaled num den (firstExponent num den)).1 : ℚ) /
        (scaled num den (firstExponent num den)).2 < 2 ^ 52 := by
      rw [div_lt_iff₀ positive]
      exact_mod_cast small
    rw [twice, ← mul_assoc, ← value]
    constructor <;> linarith
  · rename_i large
    rw [Nat.div_lt_iff_lt_mul pos, not_lt] at large
    refine ⟨?_, value ▸ high⟩
    rw [← value, le_div_iff₀ positive]
    exact_mod_cast large

/-- **A ratio is rounded in its binade**, or in the lowest one. -/
theorem exists_binade : ∃ K n d : Nat,
    roundRatio num den = min (K * 2 ^ 52 + roundDiv n d) infinityMagnitude ∧ 0 < d ∧
      (n : ℚ) / d * 2 ^ K = units (num / den) ∧ (n : ℚ) / d < 2 ^ 53 ∧
      (K = 0 ∨ (2 : ℚ) ^ 52 ≤ n / d) := by
  obtain ⟨low, high⟩ := foundExponent_bounds numPos denPos
  have ratio : (0 : ℚ) < num / den := by positivity
  rw [roundRatio_scaled]
  generalize foundExponent num den = found at *
  have bound : -1074 ≤ max found (-1074) := le_max_right _ _
  have raised : found ≤ max found (-1074) := le_max_left _ _
  have least : max found (-1074) = found ∨ max found (-1074) = -1074 := by omega
  generalize max found (-1074) = e at *
  obtain ⟨pos, value⟩ := scaled_value num denPos e
  refine ⟨(e + 1074).toNat, _, _, rfl, pos, ?_, ?_, ?_⟩
  · have sum : -e + ((e + 1074).toNat : ℤ) = (1074 : ℕ) := by
      rw [Int.toNat_of_nonneg (by omega)]
      push_cast
      ring
    rw [value, units, ← zpow_natCast, mul_assoc, ← zpow_add₀ two_ne_zero, sum, zpow_natCast]
  · rw [value]
    have smaller : (2 : ℚ) ^ (-e) ≤ 2 ^ (-found) := zpow_le_zpow_right₀ one_le_two (by omega)
    calc (num : ℚ) / den * 2 ^ (-e) ≤ num / den * 2 ^ (-found) := by gcongr
      _ < 2 ^ 53 := high
  · rcases least with rfl | rfl
    · exact Or.inr (value ▸ low)
    · exact Or.inl rfl

end Binade

/-! ## Bounds of a double -/

/-- A quarter of this is how far the bound below a double is, in units of its last place. -/
def gap (m k : Nat) : Nat := if m = 2 ^ 52 ∧ 0 < k then 1 else 2

/-- Significand and steps of a double that is not zero. -/
structure Normal (m k : Nat) : Prop where
  pos : 0 < m
  small : m < 2 ^ 53
  whole : k = 0 ∨ 2 ^ 52 ≤ m

/-- A ratio, in units, is at least as near to a double as to any other one; if it is as near to
another one, the significand is even. -/
structure Within (m k : Nat) (u : ℚ) : Prop where
  low : (4 * m - gap m k : ℚ) * 2 ^ k ≤ 4 * u
  high : 4 * u ≤ (4 * m + 2 : ℚ) * 2 ^ k
  strict : m % 2 = 1 → (4 * m - gap m k : ℚ) * 2 ^ k < 4 * u ∧ 4 * u < (4 * m + 2 : ℚ) * 2 ^ k

/-- What lies between the bounds of a double is in its binade, or, for the least double of a
binade, right below it. -/
theorem eq_or_below_of_within {m k K : Nat} (normal : Normal m k) {r : ℚ}
    (within : Within m k (r * 2 ^ K)) (high : r < 2 ^ 53) (low : K = 0 ∨ (2 : ℚ) ^ 52 ≤ r) :
    K = k ∨ k = K + 1 ∧ m = 2 ^ 52 ∧ (2 : ℚ) ^ 53 - 1 / 2 ≤ r := by
  have small : (m : ℚ) + 1 ≤ 2 ^ 53 := by exact_mod_cast normal.small
  rcases Nat.lt_trichotomy K k with below | same | above
  · right
    have whole : 2 ^ 52 ≤ m := normal.whole.resolve_left (by omega)
    have wholeQ : (2 : ℚ) ^ 52 ≤ m := by exact_mod_cast whole
    have gapBound : (gap m k : ℚ) ≤ 2 := by
      unfold gap
      split <;> norm_num
    obtain ⟨j, rfl⟩ : ∃ j, k = K + 1 + j := ⟨k - K - 1, by omega⟩
    have powers : (0 : ℚ) < 2 ^ K := by positivity
    have lower : (4 * m - gap m (K + 1 + j) : ℚ) * 2 ^ (j + 1) ≤ 4 * r := by
      have bound := within.low
      rw [show K + 1 + j = K + (j + 1) by omega, pow_add] at bound
      refine le_of_mul_le_mul_right ?_ powers
      rw [show K + 1 + j = K + (j + 1) by omega]
      linarith
    have least : j = 0 := by
      by_contra more
      have four : (4 : ℚ) ≤ 2 ^ (j + 1) := by
        calc (4 : ℚ) = 2 ^ 2 := by norm_num
          _ ≤ 2 ^ (j + 1) := pow_le_pow_right₀ one_le_two (by omega)
      nlinarith
    subst least
    rw [Nat.add_zero, Nat.zero_add, pow_one] at lower
    rw [Nat.add_zero] at gapBound
    have first : m = 2 ^ 52 := by
      by_contra other
      have next : (2 : ℚ) ^ 52 + 1 ≤ m := by
        have more : 2 ^ 52 + 1 ≤ m := by omega
        exact_mod_cast more
      linarith
    have one : gap m (K + 1) = 1 := if_pos ⟨first, by omega⟩
    refine ⟨by omega, first, ?_⟩
    rw [one, first] at lower
    push_cast at lower
    linarith
  · exact Or.inl same
  · exfalso
    have positive : (0 : ℚ) < 2 ^ k := by positivity
    have large : (2 : ℚ) ^ 52 ≤ r := low.resolve_left (by omega)
    obtain ⟨j, rfl⟩ : ∃ j, K = k + 1 + j := ⟨K - k - 1, by omega⟩
    have bound := within.high
    have more : (1 : ℚ) ≤ 2 ^ j := one_le_pow₀ one_le_two
    have upper : 4 * r * (2 * 2 ^ j) ≤ 4 * m + 2 := by
      refine le_of_mul_le_mul_right ?_ positive
      have same : (2 : ℚ) ^ (k + 1 + j) = 2 ^ k * (2 * 2 ^ j) := by ring
      rw [same] at bound
      linarith
    nlinarith

/-- **What lies between the bounds of a double is rounded to the double.** -/
theorem roundRatio_eq {num den m k : Nat} (numPos : 0 < num) (denPos : 0 < den)
    (normal : Normal m k) (finite : k * 2 ^ 52 + m < infinityMagnitude)
    (within : Within m k (units (num / den))) : roundRatio num den = k * 2 ^ 52 + m := by
  obtain ⟨K, n, d, rounds, pos, value, high, low⟩ := exists_binade numPos denPos
  rw [← value] at within
  have whole : K * 2 ^ 52 + roundDiv n d = k * 2 ^ 52 + m := by
    rcases eq_or_below_of_within normal within high low with rfl | ⟨rfl, rfl, near⟩
    · have positive : (0 : ℚ) < 2 ^ K := by positivity
      have gapBound : (gap m K : ℚ) ≤ 2 := by
        unfold gap
        split <;> norm_num
      have lower : (4 * m - gap m K : ℚ) ≤ 4 * (n / d) :=
        le_of_mul_le_mul_right (by linarith [within.low]) positive
      have upper : 4 * (n / d) ≤ (4 * m + 2 : ℚ) :=
        le_of_mul_le_mul_right (by linarith [within.high]) positive
      have rounded : roundDiv n d = m := by
        refine roundDiv_eq pos (by linarith) (by linarith) fun odd => ?_
        obtain ⟨strictLow, strictHigh⟩ := within.strict odd
        have above : (4 * m - gap m K : ℚ) < 4 * (n / d) :=
          lt_of_mul_lt_mul_right (by linarith) positive.le
        have below : 4 * (n / d) < (4 * m + 2 : ℚ) :=
          lt_of_mul_lt_mul_right (by linarith) positive.le
        constructor <;> linarith
      rw [rounded]
    · have rounded : roundDiv n d = 2 ^ 53 := by
        refine roundDiv_eq pos ?_ ?_ fun odd => absurd odd (by decide)
        · push_cast
          exact near
        · push_cast
          linarith
      rw [rounded]
      ring
  rw [rounds, whole]
  exact min_eq_left finite.le

/-! ## Decimals -/

/-- A number has as many digits as the powers of ten around it say. -/
theorem toDigits_bounds {n : Nat} (pos : 0 < n) :
    10 ^ ((Nat.toDigits 10 n).length - 1) ≤ n ∧ n < 10 ^ (Nat.toDigits 10 n).length := by
  have some : 0 < (Nat.toDigits 10 n).length := Nat.length_toDigits_pos
  constructor
  · by_cases one : (Nat.toDigits 10 n).length = 1
    · rw [one]
      exact pos
    · have short := Nat.length_toDigits_le_iff (b := 10) (n := n)
        (k := (Nat.toDigits 10 n).length - 1) (by decide) (by omega)
      refine Nat.le_of_not_lt fun less => ?_
      have := short.mpr less
      omega
  · exact (Nat.length_toDigits_le_iff (by decide) some).mp le_rfl

/-- The place of its first digit bounds a decimal. -/
theorem decimal_bounds {digits : Nat} (pos : 0 < digits) (exponent : Int) :
    (10 : ℚ) ^ ((Nat.toDigits 10 digits).length + exponent - 1) ≤ digits * 10 ^ exponent ∧
      (digits : ℚ) * 10 ^ exponent < 10 ^ ((Nat.toDigits 10 digits).length + exponent) := by
  obtain ⟨low, high⟩ := toDigits_bounds pos
  have some : 0 < (Nat.toDigits 10 digits).length := Nat.length_toDigits_pos
  generalize (Nat.toDigits 10 digits).length = count at *
  have positive : (0 : ℚ) < 10 ^ exponent := by positivity
  constructor
  · have split : (count : ℤ) + exponent - 1 = ((count - 1 : ℕ) : ℤ) + exponent := by omega
    have bound : (10 : ℚ) ^ (count - 1) ≤ digits := by exact_mod_cast low
    rw [split, zpow_add₀ (by norm_num), zpow_natCast]
    gcongr
  · have bound : (digits : ℚ) < 10 ^ count := by exact_mod_cast high
    rw [zpow_add₀ (by norm_num), zpow_natCast]
    gcongr

section Decimal

variable {m k : Nat} (normal : Normal m k)
include normal

/-- What lies between the bounds of a double is not too small to be looked at. -/
theorem lt_of_within {v : ℚ} (within : Within m k (units v)) : (10 : ℚ) ^ (-401 : ℤ) < v := by
  have first : (1 : ℚ) ≤ m := by exact_mod_cast normal.pos
  have gapBound : (gap m k : ℚ) ≤ 2 := by
    unfold gap
    split <;> norm_num
  have power : (1 : ℚ) ≤ 2 ^ k := one_le_pow₀ one_le_two
  have powers : (2 : ℚ) * 2 ^ 1074 < 10 ^ 401 := by
    calc (2 : ℚ) * 2 ^ 1074 = 2 ^ 1075 := (pow_succ' 2 1074).symm
      _ ≤ 2 ^ (3 * 401) := pow_le_pow_right₀ one_le_two (by decide)
      _ = (2 ^ 3) ^ 401 := pow_mul 2 3 401
      _ < 10 ^ 401 := pow_lt_pow_left₀ (by norm_num) (by norm_num) (by decide)
  have inverse : (10 : ℚ) ^ (-401 : ℤ) = 1 / 10 ^ 401 := by
    rw [zpow_neg, one_div]
    rfl
  have two : (0 : ℚ) < 2 ^ 1074 := pow_pos two_pos _
  have ten : (0 : ℚ) < 10 ^ 401 := pow_pos (by norm_num) _
  have low := within.low
  unfold units at low
  rw [inverse, div_lt_iff₀ ten]
  -- the powers are too large to compute with
  generalize (2 : ℚ) ^ 1074 = t at *
  generalize (10 : ℚ) ^ 401 = s at *
  have half : 1 ≤ v * (2 * t) := by nlinarith
  have positive : 0 < v := by
    by_contra none
    nlinarith
  nlinarith

/-- What lies between the bounds of a finite double is not too large to be looked at. -/
theorem lt_of_within_finite (finite : k * 2 ^ 52 + m < infinityMagnitude) {v : ℚ}
    (within : Within m k (units v)) : v < (10 : ℚ) ^ (400 : ℤ) := by
  have small : (m : ℚ) + 1 ≤ 2 ^ 53 := by exact_mod_cast normal.small
  have steps : k ≤ 2046 := by
    have limit : infinityMagnitude = 2047 * 2 ^ 52 := rfl
    omega
  have power : (2 : ℚ) ^ k ≤ 2 ^ 2046 := pow_le_pow_right₀ one_le_two steps
  have powers : (2 : ℚ) ^ 53 * 2 ^ 2046 ≤ 10 ^ 400 * 2 ^ 1074 := by
    calc (2 : ℚ) ^ 53 * 2 ^ 2046 = 2 ^ 1025 * 2 ^ 1074 := by rw [← pow_add, ← pow_add]
      _ ≤ 2 ^ (3 * 400) * 2 ^ 1074 :=
          mul_le_mul_of_nonneg_right (pow_le_pow_right₀ one_le_two (by decide))
            (pow_pos two_pos _).le
      _ = (2 ^ 3) ^ 400 * 2 ^ 1074 := by rw [pow_mul]
      _ ≤ 10 ^ 400 * 2 ^ 1074 :=
          mul_le_mul_of_nonneg_right (pow_le_pow_left₀ (by norm_num) (by norm_num) _)
            (pow_pos two_pos _).le
  have least : (0 : ℚ) < 2 ^ 1074 := pow_pos two_pos _
  have largest : (0 : ℚ) < 2 ^ 2046 := pow_pos two_pos _
  have high := within.high
  unfold units at high
  have same : (10 : ℚ) ^ (400 : ℤ) = 10 ^ 400 := rfl
  rw [same]
  generalize (2 : ℚ) ^ 1074 = t at *
  generalize (10 : ℚ) ^ 400 = s at *
  generalize (2 : ℚ) ^ 2046 = b at *
  have whole : (0 : ℚ) ≤ m := Nat.cast_nonneg m
  have bound : 4 * (v * t) < 4 * (s * t) := by
    calc 4 * (v * t) ≤ (4 * m + 2) * 2 ^ k := high
      _ ≤ (4 * m + 2) * b := by gcongr
      _ < 4 * 2 ^ 53 * b := by
          refine mul_lt_mul_of_pos_right ?_ largest
          linarith
      _ ≤ 4 * (s * t) := by linarith
  refine lt_of_mul_lt_mul_right (a := t) ?_ least.le
  linarith

/-- A decimal between the bounds of a double is not zero. -/
theorem pos_of_within {digits : Nat} {exponent : Int}
    (within : Within m k (units (digits * 10 ^ exponent))) : 0 < digits := by
  have low := lt_of_within normal within
  rcases Nat.eq_zero_or_pos digits with rfl | pos
  · have positive : (0 : ℚ) < 10 ^ (-401 : ℤ) := zpow_pos (by norm_num) _
    rw [Nat.cast_zero, zero_mul] at low
    exact absurd (positive.trans low) (lt_irrefl 0)
  · exact pos

/-- **A decimal between the bounds of a double is read as the double.** -/
theorem ofDecimal_eq (negative : Bool) {digits : Nat} {exponent : Int}
    (finite : k * 2 ^ 52 + m < infinityMagnitude)
    (within : Within m k (units (digits * 10 ^ exponent))) :
    ofDecimal negative digits exponent = ofMagnitude negative (k * 2 ^ 52 + m) := by
  have low := lt_of_within normal within
  have high := lt_of_within_finite normal finite within
  have pos := pos_of_within normal within
  obtain ⟨first, behind⟩ := decimal_bounds pos exponent
  have notSmall : ¬ ((Nat.toDigits 10 digits).length : Int) + exponent < -exponentLimit := by
    intro tiny
    have limit : exponentLimit = 400 := rfl
    have bound := (zpow_lt_zpow_iff_right₀ (by norm_num : (1 : ℚ) < 10)).mp (low.trans behind)
    omega
  have notLarge : ¬ exponentLimit < ((Nat.toDigits 10 digits).length : Int) + exponent := by
    intro huge
    have limit : exponentLimit = 400 := rfl
    have bound := (zpow_lt_zpow_iff_right₀ (by norm_num : (1 : ℚ) < 10)).mp (first.trans_lt high)
    omega
  unfold ofDecimal
  dsimp only
  rw [if_neg (by rw [not_or]; exact ⟨pos.ne', notSmall⟩), if_neg notLarge]
  split
  · rename_i sign
    obtain ⟨n, rfl⟩ := Int.eq_ofNat_of_zero_le sign
    rw [Int.toNat_natCast, Nat.pow_eq]
    refine congrArg (ofMagnitude negative)
      (roundRatio_eq (by positivity) Nat.one_pos normal finite ?_)
    have same : ((digits * 10 ^ n : ℕ) : ℚ) / (1 : ℕ) = digits * 10 ^ (n : ℤ) := by
      push_cast
      rw [div_one, zpow_natCast]
    rw [same]
    exact within
  · rename_i sign
    obtain ⟨n, same⟩ := Int.eq_ofNat_of_zero_le (a := -exponent) (by omega)
    rw [same, Int.toNat_natCast, Nat.pow_eq]
    refine congrArg (ofMagnitude negative) (roundRatio_eq pos (by positivity) normal finite ?_)
    have value : (digits : ℚ) / (10 ^ n : ℕ) = digits * 10 ^ exponent := by
      have negated : exponent = -(n : ℤ) := by omega
      rw [negated, zpow_neg, zpow_natCast]
      push_cast
      rw [div_eq_mul_inv]
    rw [value]
    exact within

end Decimal

end ClientForge.Binary64
