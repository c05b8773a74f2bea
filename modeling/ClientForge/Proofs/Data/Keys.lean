/-
# ClientForge.Proofs.Data.Keys -- when two keys are the same

`Scalar.same` compares keys by cases: a double with a double, a double with an integer, times with
times, and everything else by what it is.  `Scalar.identity` says instead what a key stands for, so
that two keys are the same exactly if they stand for one thing (`Scalar.same_iff`); this is why
being the same is an equivalence.  A number stands for itself, counted in units of the least
double, of which every finite double and every integer is a whole number; two finite doubles
have one count of units only if they have the same bits below the sign (`units_injective`).
-/
import ClientForge.Data.Value
import ClientForge.Proofs.Data.Shortest

namespace ClientForge

set_option autoImplicit false

namespace Binary64

theorem power_pos (n : Nat) : 0 < Nat.pow 2 n := Nat.two_pow_pos n

/-- The absolute value of a finite double, in units of the least one. -/
def absoluteUnits (x : Binary64) : Nat := x.significand * Nat.pow 2 x.steps

theorem units_injective {x y : Binary64} (same : x.absoluteUnits = y.absoluteUnits) :
    x.magnitude = y.magnitude := by
  -- the significand of the upper double has its leading bit, so nothing below is as large
  have aligned : ∀ {x y : Binary64}, x.steps ≤ y.steps → x.absoluteUnits = y.absoluteUnits →
      x.magnitude = y.magnitude := by
    intro x y below same
    obtain ⟨j, above⟩ := Nat.exists_eq_add_of_le below
    have factor : x.significand = y.significand * 2 ^ j := by
      have positive := power_pos x.steps
      rw [absoluteUnits, absoluteUnits, Nat.pow_eq, Nat.pow_eq, above, pow_add,
        mul_comm (2 ^ x.steps), ← mul_assoc] at same
      exact Nat.eq_of_mul_eq_mul_right positive same
    have level : j = 0 := by
      by_contra apart
      have whole : 2 ^ 52 ≤ y.significand := y.steps_or_whole.resolve_left (by omega)
      have double : 2 ^ 1 ≤ 2 ^ j := Nat.pow_le_pow_right (by decide) (by omega)
      have large := Nat.mul_le_mul whole double
      have small := x.significand_lt
      omega
    subst level
    rw [pow_zero, mul_one] at factor
    rw [← magnitude_eq, ← magnitude_eq, factor, above, Nat.add_zero]
  rcases Nat.le_total x.steps y.steps with below | below
  · exact aligned below same
  · exact (aligned below same.symm).symm

theorem absoluteUnits_eq_zero {x : Binary64} : x.absoluteUnits = 0 ↔ x.magnitude = 0 := by
  have sum := x.magnitude_eq
  have whole := x.steps_or_whole
  rw [absoluteUnits, Nat.mul_eq_zero, or_iff_left (power_pos _).ne']
  constructor <;> omega

/-- Sign and bits below it are all there is. -/
theorem eq_iff {x y : Binary64} :
    x = y ↔ x.negative = y.negative ∧ x.magnitude = y.magnitude := by
  constructor
  · rintro rfl
    exact ⟨rfl, rfl⟩
  · rintro ⟨sign, magnitude⟩
    rw [← ofMagnitude_magnitude x, ← ofMagnitude_magnitude y, sign, magnitude]

/-- A finite double in units of the least one. -/
def signedUnits (x : Binary64) : Int :=
  if x.negative then -(x.absoluteUnits : Int) else x.absoluteUnits

theorem signedUnits_eq_iff {x y : Binary64} :
    x.signedUnits = y.signedUnits ↔ x = y ∨ x.magnitude = 0 ∧ y.magnitude = 0 := by
  have zero := x.absoluteUnits_eq_zero
  have zero' := y.absoluteUnits_eq_zero
  constructor
  · intro same
    have absolute : x.absoluteUnits = y.absoluteUnits := by
      unfold signedUnits at same
      split at same <;> split at same <;> omega
    have magnitude := units_injective absolute
    by_cases none : x.magnitude = 0
    · exact Or.inr ⟨none, by omega⟩
    · refine Or.inl (eq_iff.mpr ⟨?_, magnitude⟩)
      have some : x.absoluteUnits ≠ 0 := mt zero.mp none
      unfold signedUnits at same
      cases sign : x.negative <;> cases sign' : y.negative <;> simp_all
  · rintro (rfl | ⟨none, none'⟩)
    · rfl
    · simp [signedUnits, zero.mpr none, zero'.mpr none']

end Binary64

namespace Scalar

/-- What a scalar stands for as a key; a number is counted in units of the least double. -/
inductive Identity where
  | null
  | number (units : Int)
  | infinity (negative : Bool)
  | notANumber
  | text (s : String)
  | date (d : CalendarDate)
  | moment (zoned : Bool) (instant : Int)
  deriving DecidableEq

/-- One, in units of the least double. -/
def unitsOfOne : Nat := Nat.pow 2 1074

theorem unitsOfOne_pos : 0 < unitsOfOne := by
  unfold unitsOfOne
  generalize 1074 = n
  exact Binary64.power_pos n

/-- What an integer stands for as a key. -/
def Identity.ofInt (i : Int) : Identity := .number (i * unitsOfOne)

/-- What a double stands for as a key. -/
def Identity.ofDouble (x : Binary64) : Identity :=
  if x.isNotANumber then .notANumber
  else if x.isInfinite then .infinity x.negative
  else .number x.signedUnits

def Identity.isNumeric : Identity → Bool
  | .number _ | .infinity _ | .notANumber => true
  | _ => false

/-- What a scalar stands for as a key. -/
def identity : Scalar → Identity
  | .null => .null
  | .bool b => .ofInt (if b then 1 else 0)
  | .int i => .ofInt i
  | .float x => .ofDouble x
  | .str s => .text s
  | .date d => .date d
  | .moment m => .moment m.offset.isSome m.instant

open Identity (ofInt ofDouble)

theorem ofInt_isNumeric (i : Int) : (ofInt i).isNumeric = true := rfl

theorem ofDouble_isNumeric (x : Binary64) : (ofDouble x).isNumeric = true := by
  unfold ofDouble
  split
  · rfl
  · split <;> rfl

theorem ofInt_inj {i j : Int} : ofInt i = ofInt j ↔ i = j := by
  have positive : (0 : Int) < unitsOfOne := Int.natCast_pos.mpr unitsOfOne_pos
  rw [ofInt, ofInt, Identity.number.injEq]
  exact ⟨fun same => Int.eq_of_mul_eq_mul_right positive.ne' same, fun same => same ▸ rfl⟩

section Doubles

open Binary64 (infinityMagnitude)

variable {x y : Binary64}

theorem ofDouble_of_above (above : infinityMagnitude < x.magnitude) :
    ofDouble x = .notANumber := by
  have number : x.isNotANumber = true := decide_eq_true above
  rw [ofDouble, if_pos number]

theorem ofDouble_of_eq (infinite : x.magnitude = infinityMagnitude) :
    ofDouble x = .infinity x.negative := by
  have number : x.isNotANumber = false := decide_eq_false (by omega)
  have unbounded : x.isInfinite = true := beq_iff_eq.mpr infinite
  rw [ofDouble, number, if_neg Bool.false_ne_true, if_pos unbounded]

theorem ofDouble_of_below (finite : x.magnitude < infinityMagnitude) :
    ofDouble x = .number x.signedUnits := by
  have number : x.isNotANumber = false := decide_eq_false (by omega)
  have bounded : x.isInfinite = false := beq_eq_false_iff_ne.mpr (by omega)
  rw [ofDouble, number, bounded, if_neg Bool.false_ne_true, if_neg Bool.false_ne_true]

theorem double_same_iff : x.same y = true ↔ ofDouble x = ofDouble y := by
  have positive : 0 < infinityMagnitude := by decide
  have unfolded : x.same y = true ↔ (x.negative = y.negative ∧ x.magnitude = y.magnitude) ∨
      (x.magnitude = 0 ∧ y.magnitude = 0) ∨
        infinityMagnitude < x.magnitude ∧ infinityMagnitude < y.magnitude := by
    simp only [Binary64.same, Binary64.isZero, Binary64.isNotANumber, Bool.or_eq_true,
      Bool.and_eq_true, beq_iff_eq, decide_eq_true_eq, or_assoc, ← Binary64.eq_iff]
  rw [unfolded]
  rcases Nat.lt_trichotomy x.magnitude infinityMagnitude with finite | infinite | above <;>
    rcases Nat.lt_trichotomy y.magnitude infinityMagnitude with finite' | infinite' | above'
  · rw [ofDouble_of_below finite, ofDouble_of_below finite', Scalar.Identity.number.injEq,
      Binary64.signedUnits_eq_iff, Binary64.eq_iff]
    exact or_congr_right (or_iff_left fun both => by omega)
  · rw [ofDouble_of_below finite, ofDouble_of_eq infinite']
    exact iff_of_false (by omega) (by simp)
  · rw [ofDouble_of_below finite, ofDouble_of_above above']
    exact iff_of_false (by omega) (by simp)
  · rw [ofDouble_of_eq infinite, ofDouble_of_below finite']
    exact iff_of_false (by omega) (by simp)
  · rw [ofDouble_of_eq infinite, ofDouble_of_eq infinite', Scalar.Identity.infinity.injEq]
    constructor
    · rintro (same | zero | above)
      · exact same.1
      · omega
      · omega
    · exact fun sign => Or.inl ⟨sign, infinite.trans infinite'.symm⟩
  · rw [ofDouble_of_eq infinite, ofDouble_of_above above']
    exact iff_of_false (by omega) (by simp)
  · rw [ofDouble_of_above above, ofDouble_of_below finite']
    exact iff_of_false (by omega) (by simp)
  · rw [ofDouble_of_above above, ofDouble_of_eq infinite']
    exact iff_of_false (by omega) (by simp)
  · rw [ofDouble_of_above above, ofDouble_of_above above']
    exact iff_of_true (Or.inr (Or.inr ⟨above, above'⟩)) rfl

/-- A sign and an absolute value make a multiple of something positive. -/
theorem signed_eq_mul_iff {negative : Bool} {n p : Nat} {i : Int} (positive : 0 < p) :
    (if negative then -(n : Int) else n) = i * p ↔
      (negative = decide (i < 0) ∨ i = 0) ∧ n = i.natAbs * p := by
  have size : (i * p).natAbs = i.natAbs * p := by rw [Int.natAbs_mul, Int.natAbs_natCast]
  have below : i * p < 0 ↔ i < 0 := by
    have positive : (0 : Int) < p := Int.natCast_pos.mpr positive
    exact ⟨fun less => by nlinarith, fun less => Int.mul_neg_of_neg_of_pos less positive⟩
  have zero : i * p = 0 ↔ i = 0 := by
    rw [Int.mul_eq_zero, or_iff_left (by omega)]
  rw [← size, ← zero]
  simp only [← below]
  generalize i * p = product
  cases negative <;> by_cases less : product < 0 <;> simp [less] <;> omega

theorem equalsInt_iff {i : Int} : x.equalsInt i = true ↔ ofDouble x = ofInt i := by
  have unfolded : x.equalsInt i = true ↔ x.magnitude < infinityMagnitude ∧
      (x.negative = decide (i < 0) ∨ i = 0) ∧ x.absoluteUnits = i.natAbs * unitsOfOne := by
    have finite : x.magnitude < infinityMagnitude ↔
        ¬ infinityMagnitude < x.magnitude ∧ ¬ x.magnitude = infinityMagnitude := by omega
    unfold Binary64.equalsInt Binary64.absoluteUnits unitsOfOne
    generalize Nat.pow 2 1074 = one
    simp only [Binary64.isNotANumber, Binary64.isInfinite, Bool.and_eq_true,
      Bool.or_eq_true, Bool.not_eq_true', decide_eq_false_iff_not, beq_eq_false_iff_ne, beq_iff_eq,
      ne_eq, finite, and_assoc]
  rw [unfolded]
  rcases Nat.lt_trichotomy x.magnitude infinityMagnitude with finite | infinite | above
  · rw [ofDouble_of_below finite, ofInt, Identity.number.injEq, and_iff_right finite,
      Binary64.signedUnits, signed_eq_mul_iff unitsOfOne_pos]
  · rw [ofDouble_of_eq infinite, ofInt]
    have unbounded : ¬ x.magnitude < infinityMagnitude := by omega
    exact iff_of_false (fun finite => unbounded finite.1) (fun same => by cases same)
  · rw [ofDouble_of_above above, ofInt]
    have unbounded : ¬ x.magnitude < infinityMagnitude := by omega
    exact iff_of_false (fun finite => unbounded finite.1) (fun same => by cases same)

/-- What is no number stands for no number. -/
theorem ofInt_ne {i : Int} {d : Identity} (other : d.isNumeric = false) : ofInt i ≠ d := by
  rintro rfl
  exact Bool.false_ne_true (other.symm.trans (ofInt_isNumeric i))

theorem ofDouble_ne {d : Identity} (other : d.isNumeric = false) : ofDouble x ≠ d := by
  rintro rfl
  exact Bool.false_ne_true (other.symm.trans (ofDouble_isNumeric x))

end Doubles

/-- **Two scalars are the same key exactly if they stand for one thing.** -/
theorem same_iff {a b : Scalar} : a.same b = true ↔ a.identity = b.identity := by
  cases a <;> cases b
  case float.float => exact double_same_iff
  case float.int => exact equalsInt_iff
  case float.bool => exact equalsInt_iff
  case int.float => exact equalsInt_iff.trans eq_comm
  case bool.float => exact equalsInt_iff.trans eq_comm
  -- what is left is a number beside something else, or two scalars that are compared as they are
  all_goals
    first
    | exact iff_of_false Bool.false_ne_true (ofInt_ne rfl)
    | exact iff_of_false Bool.false_ne_true (ofInt_ne rfl).symm
    | exact iff_of_false Bool.false_ne_true (ofDouble_ne rfl)
    | exact iff_of_false Bool.false_ne_true (ofDouble_ne rfl).symm
    | simp [same, Moment.same, toInt?, identity, ofInt_inj]

end Scalar

end ClientForge
