/-
# ClientForge.Proofs.Data.Shortest -- the shortest decimal of a double is one of its decimals

Digits are counted up until a decimal with that many lies between the bounds of the double.
With seventeen digits one does: the first of them is not zero (`decimalPoint_le`), so decimals
with seventeen are closer together than the bounds are apart (`unit_lt_width`), and of the two
decimals around the double one has to lie between (`nearestOn_isSome`).  Whatever is found lies
between the bounds (`shortest_within`), so it is read as the same double (`ofDecimal_shortest`).

An integer that has no more digits than a significand is a double (`ofDecimal_equalsInt`).
-/
import Mathlib.Data.Nat.Cast.Order.Field
import ClientForge.Proofs.Data.Rounding

namespace ClientForge.Binary64

set_option autoImplicit false

/-! ## The parts of a double -/

/-- A double that is a number other than zero. -/
structure IsProper (x : Binary64) : Prop where
  nonzero : x.isZero = false
  finite : x.isInfinite = false
  isNumber : x.isNotANumber = false

/-- Significand and steps make the magnitude. -/
theorem magnitude_eq (x : Binary64) : x.steps * 2 ^ 52 + x.significand = x.magnitude := by
  have split := Nat.div_add_mod x.magnitude (2 ^ 52)
  unfold steps significand
  rw [Nat.pow_eq]
  dsimp only
  split <;> omega

theorem significand_lt (x : Binary64) : x.significand < 2 ^ 53 := by
  have fraction := Nat.mod_lt x.magnitude (by decide : 0 < 2 ^ 52)
  unfold significand
  rw [Nat.pow_eq]
  dsimp only
  split <;> omega

/-- A double that is above the least binade has its leading bit. -/
theorem steps_or_whole (x : Binary64) : x.steps = 0 ∨ 2 ^ 52 ≤ x.significand := by
  unfold significand steps
  rw [Nat.pow_eq]
  dsimp only
  split <;> omega

theorem IsProper.normal {x : Binary64} (proper : x.IsProper) : Normal x.significand x.steps := by
  have nonzero : x.magnitude ≠ 0 := by
    have zero := proper.nonzero
    rw [isZero, beq_eq_false_iff_ne] at zero
    exact zero
  refine ⟨?_, x.significand_lt, x.steps_or_whole⟩
  have split := Nat.div_add_mod x.magnitude (2 ^ 52)
  unfold significand
  rw [Nat.pow_eq]
  dsimp only
  split <;> omega

theorem IsProper.lt_infinity {x : Binary64} (proper : x.IsProper) :
    x.steps * 2 ^ 52 + x.significand < infinityMagnitude := by
  have finite := proper.finite
  have number := proper.isNumber
  rw [isInfinite, beq_eq_false_iff_ne] at finite
  rw [isNotANumber, decide_eq_false_iff_not, not_lt] at number
  rw [magnitude_eq]
  omega

/-- Sign and magnitude make the double. -/
theorem ofMagnitude_magnitude (x : Binary64) : ofMagnitude x.negative x.magnitude = x := by
  obtain ⟨bits⟩ := x
  have bound : bits.toNat < 2 ^ 64 := bits.toNat_lt
  have split := Nat.div_add_mod bits.toNat (2 ^ 63)
  have same : (if (Binary64.mk bits).negative then Nat.pow 2 63 else 0) +
      (Binary64.mk bits).magnitude = bits.toNat := by
    unfold negative magnitude
    simp only [Nat.pow_eq, decide_eq_true_eq]
    split <;> omega
  rw [ofMagnitude, same, UInt64.ofNat_toNat]

/-! ## Decimals between bounds -/

/-- A decimal lies between two bounds, which belong to it or not. -/
def Fits (low high : ℚ) (closed : Bool) (v : ℚ) : Prop :=
  if closed = true then low ≤ v ∧ v ≤ high else low < v ∧ v < high

section Nearest

variable {num den low high : Nat} {closed : Bool} {point : Int} {count : Nat}

/-- The factors that are compared stand for a power of ten. -/
theorem exists_factors (unit : Int) : ∃ up down : Nat, 0 < up ∧ 0 < down ∧
    (if 0 ≤ unit then 1 else Nat.pow 10 (-unit).toNat) = up ∧
    (if 0 ≤ unit then Nat.pow 10 unit.toNat else 1) = down ∧
    (10 : ℚ) ^ unit = down / up := by
  by_cases sign : 0 ≤ unit
  · obtain ⟨n, rfl⟩ := Int.eq_ofNat_of_zero_le sign
    refine ⟨1, 10 ^ n, Nat.one_pos, by positivity, if_pos sign, if_pos sign, ?_⟩
    rw [zpow_natCast]
    push_cast
    rw [div_one]
  · obtain ⟨n, same⟩ := Int.eq_ofNat_of_zero_le (a := -unit) (by omega)
    refine ⟨10 ^ n, 1, by positivity, Nat.one_pos, ?_, if_neg sign, ?_⟩
    · rw [if_neg sign, same, Int.toNat_natCast, Nat.pow_eq]
    · have negated : unit = -(n : ℤ) := by omega
      rw [negated, zpow_neg, zpow_natCast]
      push_cast
      rw [one_div]

/-- One of the two decimals around a ratio, if it lies between the bounds. -/
theorem nearestOn_cases (num low high : Nat) (closed : Bool) (point : Int) (count : Nat)
    (denPos : 0 < den) :
    ∃ (d : Nat) (fits : Nat → Bool),
      (∀ k, fits k = true ↔ Fits ((low : ℚ) / den) (high / den) closed (k * 10 ^ (point - count))) ∧
      (d : ℚ) * 10 ^ (point - count) ≤ num / den ∧
      (num : ℚ) / den < (d + 1 : ℕ) * 10 ^ (point - count) ∧
      ((nearestOn num den low high closed point count = some d ∧ fits d = true) ∨
        (nearestOn num den low high closed point count = some (d + 1) ∧ fits (d + 1) = true) ∨
        (nearestOn num den low high closed point count = none ∧ fits d = false ∧
          fits (d + 1) = false)) := by
  obtain ⟨up, down, upPos, downPos, isUp, isDown, power⟩ := exists_factors (point - count)
  have positive : (0 : ℚ) < den := by exact_mod_cast denPos
  have upPositive : (0 : ℚ) < up := by exact_mod_cast upPos
  have ratioPos : 0 < den * down := Nat.mul_pos denPos downPos
  -- comparing a ratio with a decimal, by whole numbers
  have least (a k : Nat) : (a : ℚ) / den ≤ k * (down / up) ↔ a * up ≤ k * den * down := by
    rw [div_le_iff₀ positive, ← mul_div_assoc, div_mul_eq_mul_div, le_div_iff₀ upPositive]
    constructor
    · intro bound
      have bound : (a * up : ℚ) ≤ k * den * down := by linarith
      exact_mod_cast bound
    · intro bound
      have bound : (a * up : ℚ) ≤ k * den * down := by exact_mod_cast bound
      linarith
  have greatest (a k : Nat) : (k : ℚ) * (down / up) ≤ a / den ↔ k * den * down ≤ a * up := by
    rw [le_div_iff₀ positive, ← mul_div_assoc, div_mul_eq_mul_div, div_le_iff₀ upPositive]
    constructor
    · intro bound
      have bound : (k * den * down : ℚ) ≤ a * up := by linarith
      exact_mod_cast bound
    · intro bound
      have bound : (k * den * down : ℚ) ≤ a * up := by exact_mod_cast bound
      linarith
  have above (a k : Nat) : (a : ℚ) / den < k * (down / up) ↔ a * up < k * den * down := by
    rw [← not_le, greatest, not_le]
  have below (a k : Nat) : (k : ℚ) * (down / up) < a / den ↔ k * den * down < a * up := by
    rw [← not_le, least, not_le]
  let fits (k : Nat) : Bool :=
    if closed then low * up ≤ k * den * down && k * den * down ≤ high * up
    else low * up < k * den * down && k * den * down < high * up
  refine ⟨num * up / (den * down), fits, fun k => ?_, ?_, ?_, ?_⟩
  · unfold Fits
    rw [power]
    cases closed with
    | true => simp [fits, least, greatest]
    | false => simp [fits, above, below]
  · rw [power, greatest, mul_assoc]
    exact Nat.div_mul_le_self _ _
  · rw [power, above, mul_assoc]
    exact Nat.lt_mul_of_div_lt (Nat.lt_succ_self _) ratioPos
  · unfold nearestOn
    dsimp only
    rw [isUp, isDown]
    generalize num * up / (den * down) = d
    cases first : fits d <;> cases second : fits (d + 1) <;> simp only [fits] at first second <;>
      simp only [first, second]
    · simp
    · simp
    · simp
    · split <;> simp

theorem nearestOn_fits (denPos : 0 < den) {k : Nat}
    (found : nearestOn num den low high closed point count = some k) :
    Fits ((low : ℚ) / den) (high / den) closed (k * 10 ^ (point - count)) := by
  obtain ⟨d, fits, iff, -, -, ⟨run, isFit⟩ | ⟨run, isFit⟩ | ⟨run, -⟩⟩ :=
    nearestOn_cases num low high closed point count denPos
  · obtain rfl := Option.some.inj (found.symm.trans run)
    exact (iff _).mp isFit
  · obtain rfl := Option.some.inj (found.symm.trans run)
    exact (iff _).mp isFit
  · rw [run] at found
    cases found

/-- Between bounds that are further apart than decimals there is one of the two around a
ratio. -/
theorem nearestOn_isSome (closed : Bool) (denPos : 0 < den) (lowLt : low < num)
    (ltHigh : num < high)
    (wide : (10 : ℚ) ^ (point - count) < (high : ℚ) / den - low / den) :
    ∃ k, nearestOn num den low high closed point count = some k := by
  have positive : (0 : ℚ) < den := by exact_mod_cast denPos
  obtain ⟨d, fits, iff, dLe, ltNext, ⟨run, -⟩ | ⟨run, -⟩ | ⟨-, notD, notNext⟩⟩ :=
    nearestOn_cases num low high closed point count denPos
  · exact ⟨_, run⟩
  · exact ⟨_, run⟩
  · exfalso
    have first := (iff d).not.mp (by simp [notD])
    have second := (iff (d + 1)).not.mp (by simp [notNext])
    have lower : (low : ℚ) / den < num / den := by gcongr
    have upper : (num : ℚ) / den < high / den := by gcongr
    have next : ((d + 1 : ℕ) : ℚ) * 10 ^ (point - count) =
        d * 10 ^ (point - count) + 10 ^ (point - count) := by
      push_cast
      ring
    have unit : (0 : ℚ) < 10 ^ (point - count) := by positivity
    rw [next] at second ltNext
    unfold Fits at first second
    cases closed with
    | true =>
        simp only [if_true, not_and_or, not_le] at first second
        rcases first with first | first <;> rcases second with second | second <;> linarith
    | false =>
        simp only [Bool.false_eq_true, if_false, not_and_or, not_lt] at first second
        rcases first with first | first <;> rcases second with second | second <;> linarith

theorem firstFit_eq {c : Nat} (fuel count : Nat) (least : count ≤ c) (most : c < count + fuel)
    (fits : ∃ k, nearestOn num den low high closed point c = some k) :
    ∃ c k, nearestOn num den low high closed point c = some k ∧
      firstFit num den low high closed point fuel count = (k, point - c) := by
  induction fuel generalizing count with
  | zero => omega
  | succ fuel ih =>
      cases found : nearestOn num den low high closed point count with
      | some k =>
          refine ⟨count, k, found, ?_⟩
          rw [firstFit, found]
      | none =>
          have later : count + 1 ≤ c := by
            rcases Nat.lt_or_eq_of_le least with more | rfl
            · exact more
            · obtain ⟨k, run⟩ := fits
              rw [found] at run
              cases run
          obtain ⟨c, k, run, whole⟩ := ih (count + 1) later (by omega)
          refine ⟨c, k, run, ?_⟩
          rw [firstFit, found]
          exact whole

end Nearest

/-! ## The place of the point -/

theorem exists_below {den : Nat} {fuel k n : Nat} (enough : den ≤ n * 10 ^ fuel) :
    ∃ j : Nat, decimalPoint.below den fuel k n = (k + j : Nat) ∧ den ≤ n * 10 ^ j := by
  induction fuel generalizing k n with
  | zero => exact ⟨0, rfl, enough⟩
  | succ fuel ih =>
      rw [decimalPoint.below]
      split
      · rename_i found
        exact ⟨0, rfl, by simpa using found⟩
      · have more : den ≤ n * 10 * 10 ^ fuel := by
          rw [Nat.mul_assoc, ← Nat.pow_succ']
          exact enough
        obtain ⟨j, same, bound⟩ := ih (k := k + 1) more
        refine ⟨j + 1, ?_, ?_⟩
        · rw [same]
          congr 1
          omega
        · rw [Nat.pow_succ', ← Nat.mul_assoc]
          exact bound

/-- The first digit of a ratio is not zero. -/
theorem decimalPoint_le {num den : Nat} (denPos : 0 < den)
    (enough : den ≤ num * 10 ^ exponentLimit.toNat) :
    (10 : ℚ) ^ (decimalPoint num den - 1) ≤ num / den := by
  have positive : (0 : ℚ) < den := by exact_mod_cast denPos
  unfold decimalPoint
  split
  · rename_i whole
    have quotient : 0 < num / den := Nat.div_pos whole denPos
    have some : 0 < (Nat.toDigits 10 (num / den)).length := Nat.length_toDigits_pos
    obtain ⟨low, -⟩ := toDigits_bounds quotient
    have cast : ((Nat.toDigits 10 (num / den)).length : ℤ) - 1 =
        (((Nat.toDigits 10 (num / den)).length - 1 : ℕ) : ℤ) := by omega
    have bound : (10 ^ ((Nat.toDigits 10 (num / den)).length - 1) : ℚ) ≤ (num / den : ℕ) := by
      exact_mod_cast low
    rw [cast, zpow_natCast]
    exact bound.trans Nat.cast_div_le
  · obtain ⟨j, same, bound⟩ := exists_below (k := 0) enough
    have power : (1 : ℤ) - (0 + j : ℕ) - 1 = -(j : ℤ) := by omega
    rw [same, power, zpow_neg, zpow_natCast, le_div_iff₀ positive,
      inv_mul_le_iff₀ (by positivity)]
    have bound : (den : ℚ) ≤ num * 10 ^ j := by exact_mod_cast bound
    linarith

/-! ## The shortest decimal -/

/-- The factor of the numerators that are compared: a quarter of the place of the last bit, if
it is whole. -/
def scale (k : Nat) : Nat := if 1076 ≤ k then Nat.pow 2 (k - 1076) else 1

/-- The denominator: what is left of a quarter of the place of the last bit. -/
def denominator (k : Nat) : Nat := if 1076 ≤ k then 1 else Nat.pow 2 (1076 - k)

theorem scale_pos (k : Nat) : 0 < scale k := by
  unfold scale
  rw [Nat.pow_eq]
  split
  · exact Nat.two_pow_pos _
  · exact Nat.one_pos

theorem denominator_pos (k : Nat) : 0 < denominator k := by
  unfold denominator
  rw [Nat.pow_eq]
  split
  · exact Nat.one_pos
  · exact Nat.two_pow_pos _

theorem denominator_le (k : Nat) {n : Nat} (enough : 1076 ≤ 3 * n) : denominator k ≤ 10 ^ n := by
  have tens : 2 ^ (3 * n) ≤ 10 ^ n := by
    rw [Nat.pow_mul]
    exact Nat.pow_le_pow_left (by decide) n
  refine le_trans ?_ tens
  unfold denominator
  rw [Nat.pow_eq]
  split
  · exact Nat.one_le_two_pow
  · exact Nat.pow_le_pow_right two_pos ((Nat.sub_le _ _).trans enough)

/-- A quarter of the place of the last bit, in units. -/
theorem units_scale (k : Nat) : 4 * units (scale k / denominator k) = 2 ^ k := by
  have whole : (4 : ℚ) * 2 ^ 1074 = 2 ^ 1076 := by
    rw [show (4 : ℚ) = 2 ^ 2 by norm_num, ← pow_add]
  have power : (scale k : ℚ) / denominator k * 2 ^ 1076 = 2 ^ k := by
    unfold scale denominator
    rw [Nat.pow_eq, Nat.pow_eq]
    split
    · rename_i large
      push_cast
      rw [div_one, ← pow_add, Nat.sub_add_cancel large]
    · rename_i small
      push_cast
      rw [one_div, inv_mul_eq_iff_eq_mul₀ (pow_ne_zero _ two_ne_zero), ← pow_add,
        Nat.sub_add_cancel (by omega)]
  rw [units, mul_left_comm, whole, power]

/-- What fits a double, by its bounds as ratios, lies between its bounds. -/
theorem within_of_fits {v : ℚ} {m k : Nat} {s : ℚ} (place : 4 * units s = 2 ^ k)
    (fits : Fits ((4 * m - gap m k) * s) ((4 * m + 2) * s) (m % 2 = 0) v) :
    Within m k (units v) := by
  have positive : (0 : ℚ) < 2 ^ 1074 := pow_pos two_pos _
  unfold units at place ⊢
  generalize (2 : ℚ) ^ 1074 = t at *
  rw [← mul_assoc] at place
  have low : 4 * t * ((4 * m - gap m k) * s) = (4 * m - gap m k) * 2 ^ k := by
    rw [← place]
    ring
  have high : 4 * t * ((4 * m + 2) * s) = (4 * m + 2) * 2 ^ k := by
    rw [← place]
    ring
  have value : 4 * (v * t) = 4 * t * v := by ring
  unfold Fits at fits
  split at fits
  · rename_i even
    rw [decide_eq_true_eq] at even
    refine ⟨?_, ?_, fun odd => by omega⟩
    · rw [value, ← low]
      exact mul_le_mul_of_nonneg_left fits.1 (by positivity)
    · rw [value, ← high]
      exact mul_le_mul_of_nonneg_left fits.2 (by positivity)
  · have below : (4 * m - gap m k) * 2 ^ k < 4 * (v * t) := by
      rw [value, ← low]
      exact mul_lt_mul_of_pos_left fits.1 (by positivity)
    have above : 4 * (v * t) < (4 * m + 2) * 2 ^ k := by
      rw [value, ← high]
      exact mul_lt_mul_of_pos_left fits.2 (by positivity)
    exact ⟨below.le, above.le, fun _ => ⟨below, above⟩⟩

section Shortest

variable {x : Binary64} (proper : x.IsProper)
include proper

/-- Decimals with seventeen digits are closer together than the bounds of a double. -/
theorem unit_lt_width {s v : ℚ} (scale : 0 < s) (value : v = 4 * x.significand * s) {point : Int}
    (first : (10 : ℚ) ^ (point - 1) ≤ v) :
    (10 : ℚ) ^ (point - (17 : ℕ)) <
      (4 * x.significand + 2) * s - (4 * x.significand - gap x.significand x.steps) * s := by
  have small : (x.significand : ℚ) + 1 ≤ 2 ^ 53 := by exact_mod_cast proper.normal.small
  have unit : (10 : ℚ) ^ (point - (17 : ℕ)) * 10 ^ 16 = 10 ^ (point - 1) := by
    rw [← zpow_natCast, ← zpow_add₀ (by norm_num)]
    congr 1
    push_cast
    ring
  have least : (4 * x.significand : ℚ) < (2 + gap x.significand x.steps) * 10 ^ 16 := by
    unfold gap
    split
    · rename_i lowest
      rw [lowest.1]
      norm_num
    · push_cast
      linarith
  have bound : (10 : ℚ) ^ (point - (17 : ℕ)) * 10 ^ 16 <
      (2 + gap x.significand x.steps) * s * 10 ^ 16 := by
    calc (10 : ℚ) ^ (point - (17 : ℕ)) * 10 ^ 16 ≤ 4 * x.significand * s := by rwa [unit, ← value]
      _ < (2 + gap x.significand x.steps) * 10 ^ 16 * s := by gcongr
      _ = (2 + gap x.significand x.steps) * s * 10 ^ 16 := by ring
  have less := lt_of_mul_lt_mul_right bound (by positivity)
  linarith

/-- **The shortest decimal of a double lies between its bounds.** -/
theorem shortest_within :
    Within x.significand x.steps (units (x.shortest.1 * 10 ^ x.shortest.2)) := by
  have pos : 0 < x.significand := proper.normal.pos
  have gapBounds : 0 < gap x.significand x.steps ∧ gap x.significand x.steps ≤ 2 := by
    unfold gap
    split <;> simp
  have scalePos := scale_pos x.steps
  have denPos := denominator_pos x.steps
  have place := units_scale x.steps
  have same : x.shortest = firstFit (4 * x.significand * scale x.steps) (denominator x.steps)
      ((4 * x.significand - gap x.significand x.steps) * scale x.steps)
      ((4 * x.significand + 2) * scale x.steps) (x.significand % 2 = 0)
      (decimalPoint (4 * x.significand * scale x.steps) (denominator x.steps)) 17 1 := rfl
  have lowLt : (4 * x.significand - gap x.significand x.steps) * scale x.steps <
      4 * x.significand * scale x.steps := Nat.mul_lt_mul_of_pos_right (by omega) scalePos
  have ltHigh : 4 * x.significand * scale x.steps < (4 * x.significand + 2) * scale x.steps :=
    Nat.mul_lt_mul_of_pos_right (by omega) scalePos
  have some : 0 < 4 * x.significand * scale x.steps := by positivity
  have first := decimalPoint_le denPos
    ((denominator_le x.steps (by decide)).trans (Nat.le_mul_of_pos_left _ some))
  have width := unit_lt_width proper (s := scale x.steps / denominator x.steps)
    (div_pos (by exact_mod_cast scalePos) (by exact_mod_cast denPos)) (by push_cast; ring) first
  have lowCast : (((4 * x.significand - gap x.significand x.steps) * scale x.steps : ℕ) : ℚ) /
      denominator x.steps = (4 * x.significand - gap x.significand x.steps) *
        (scale x.steps / denominator x.steps) := by
    rw [Nat.cast_mul, Nat.cast_sub (by omega)]
    push_cast
    ring
  have highCast : (((4 * x.significand + 2) * scale x.steps : ℕ) : ℚ) / denominator x.steps =
      (4 * x.significand + 2) * (scale x.steps / denominator x.steps) := by
    push_cast
    ring
  have found := nearestOn_isSome (x.significand % 2 = 0) denPos lowLt ltHigh
    (by rwa [highCast, lowCast])
  obtain ⟨c, k, run, whole⟩ := firstFit_eq 17 1 (by decide) (by decide) found
  rw [same, whole]
  refine within_of_fits place ?_
  rw [← lowCast, ← highCast]
  exact nearestOn_fits denPos run

end Shortest

/-- **The shortest decimal of a double is read as the double**, however it is written. -/
theorem ofDecimal_shortest {x : Binary64} (proper : x.IsProper) {digits : Nat} {exponent : Int}
    (same : (digits : ℚ) * 10 ^ exponent = x.shortest.1 * 10 ^ x.shortest.2) :
    ofDecimal x.negative digits exponent = x := by
  have within := shortest_within proper
  rw [← same] at within
  rw [ofDecimal_eq proper.normal _ proper.lt_infinity within, magnitude_eq, ofMagnitude_magnitude]

/-! ## Integers -/

/-- A double made of its parts has these parts. -/
theorem ofMagnitude_parts {m k : Nat} (normal : Normal m k) (negative : Bool)
    (finite : k * 2 ^ 52 + m < infinityMagnitude) :
    (ofMagnitude negative (k * 2 ^ 52 + m)).magnitude = k * 2 ^ 52 + m ∧
      (ofMagnitude negative (k * 2 ^ 52 + m)).negative = negative ∧
      (ofMagnitude negative (k * 2 ^ 52 + m)).significand = m ∧
      (ofMagnitude negative (k * 2 ^ 52 + m)).steps = k := by
  have limit : infinityMagnitude = 2047 * 2 ^ 52 := rfl
  have bits : (ofMagnitude negative (k * 2 ^ 52 + m)).bits.toNat =
      (if negative then 2 ^ 63 else 0) + (k * 2 ^ 52 + m) := by
    unfold ofMagnitude
    rw [UInt64.toNat_ofNat', Nat.pow_eq]
    split <;> omega
  have whole : (ofMagnitude negative (k * 2 ^ 52 + m)).magnitude = k * 2 ^ 52 + m := by
    unfold magnitude
    rw [bits, Nat.pow_eq]
    split <;> omega
  have sign : (ofMagnitude negative (k * 2 ^ 52 + m)).negative = negative := by
    unfold Binary64.negative
    rw [bits, Nat.pow_eq]
    cases negative with
    | false => rw [if_neg (by decide), decide_eq_false_iff_not]; omega
    | true => rw [if_pos rfl, decide_eq_true_eq]; omega
  have small := normal.small
  have binade := normal.whole
  refine ⟨whole, sign, ?_, ?_⟩
  · unfold significand
    rw [whole, Nat.pow_eq]
    dsimp only
    split <;> omega
  · unfold steps
    rw [whole, Nat.pow_eq]
    omega

/-- What the parts of a double stand for lies between its bounds. -/
theorem within_exact (m k : Nat) : Within m k (m * 2 ^ k) := by
  have place : (0 : ℚ) < 2 ^ k := by positivity
  have below : (0 : ℚ) < gap m k := by
    unfold gap
    split <;> norm_num
  refine ⟨?_, ?_, fun _ => ⟨?_, ?_⟩⟩ <;> nlinarith

/-- **An integer below `2 ^ 53` is a double.** -/
theorem ofDecimal_equalsInt {i : Int} (safe : i.natAbs < 2 ^ 53) :
    (ofDecimal (decide (i < 0)) i.natAbs 0).equalsInt i = true := by
  rcases Nat.eq_zero_or_pos i.natAbs with zero | pos
  · obtain rfl := Int.natAbs_eq_zero.mp zero
    have sign : (ofMagnitude false 0).significand = 0 := by decide
    have number : (ofMagnitude false 0).isNotANumber = false := by decide
    have finite : (ofMagnitude false 0).isInfinite = false := by decide
    change (ofMagnitude false 0).equalsInt 0 = true
    simp only [equalsInt, sign, number, finite, Int.natAbs_zero, Nat.zero_mul, beq_self_eq_true,
      Bool.not_false, Bool.or_true, Bool.and_self]
  · obtain ⟨e, low, high⟩ : ∃ e, 2 ^ e ≤ i.natAbs ∧ i.natAbs < 2 ^ (e + 1) :=
      ⟨Nat.log2 i.natAbs, Nat.log2_self_le pos.ne', Nat.lt_log2_self⟩
    have small : e < 53 := (Nat.pow_lt_pow_iff_right (by decide)).mp (low.trans_lt safe)
    obtain ⟨d, rest⟩ := Nat.exists_eq_add_of_le (Nat.le_of_lt_succ small)
    have scaledLow : 2 ^ 52 ≤ i.natAbs * 2 ^ d := by
      calc 2 ^ 52 = 2 ^ e * 2 ^ d := by rw [rest, pow_add]
        _ ≤ i.natAbs * 2 ^ d := Nat.mul_le_mul_right _ low
    have scaledHigh : i.natAbs * 2 ^ d < 2 ^ 53 := by
      calc
        i.natAbs * 2 ^ d < 2 ^ (e + 1) * 2 ^ d :=
          Nat.mul_lt_mul_of_pos_right high (by positivity)
        _ = 2 ^ 53 := by rw [← pow_add]; congr 1; omega
    have normal : Normal (i.natAbs * 2 ^ d) (e + 1022) :=
      ⟨by positivity, scaledHigh, Or.inr scaledLow⟩
    have place : d + (e + 1022) = 1074 := by omega
    have within : Within (i.natAbs * 2 ^ d) (e + 1022) (units (i.natAbs * 10 ^ (0 : ℤ))) := by
      have value : units (i.natAbs * 10 ^ (0 : ℤ)) = (i.natAbs * 2 ^ d : ℕ) * 2 ^ (e + 1022) := by
        rw [units, zpow_zero, mul_one, Nat.cast_mul, mul_assoc, Nat.cast_pow, Nat.cast_ofNat,
          ← pow_add, place]
      rw [value]
      exact within_exact _ _
    have finite : (e + 1022) * 2 ^ 52 + i.natAbs * 2 ^ d < infinityMagnitude := by
      have limit : infinityMagnitude = 2047 * 2 ^ 52 := rfl
      omega
    obtain ⟨whole, sign, significand, steps⟩ := ofMagnitude_parts normal (decide (i < 0)) finite
    have same {t : Nat} (sum : d + (e + 1022) = t) :
        i.natAbs * 2 ^ d * Nat.pow 2 (e + 1022) = i.natAbs * Nat.pow 2 t := by
      rw [Nat.pow_eq, Nat.pow_eq, Nat.mul_assoc, ← pow_add, sum]
    rw [ofDecimal_eq normal _ finite within]
    generalize ofMagnitude (decide (i < 0)) _ = x at *
    have number : x.isNotANumber = false := by
      rw [isNotANumber, decide_eq_false_iff_not, whole]
      omega
    have notInfinite : x.isInfinite = false := by
      rw [isInfinite, beq_eq_false_iff_ne, whole]
      exact finite.ne
    rw [equalsInt, number, notInfinite, sign, significand, steps, Bool.and_eq_true, beq_iff_eq]
    generalize 1074 = t at place ⊢
    exact ⟨by simp, same place⟩

end ClientForge.Binary64
