/-
# ClientForge.Data.Binary64 -- double precision numbers by their bits

A number of a document that is written with a point or an exponent is an IEEE 754 double.
It is kept as its 64 bits, so equality is decidable and every operation here is exact
arithmetic on natural numbers:

* `ofDecimal` is the double nearest to `digits * 10 ^ exponent`, a tie going to the even
  significand;
* `shortest` is the decimal with the fewest digits that reads back as the same double, the
  nearest of those, a tie going to the even last digit.  For each count of digits only the
  two neighbours of the value on that decimal grid are tried, because if any point of the
  grid lies between the bounds, so does one of the two;
* `text` lays these digits out: positional from `10 ^ -4` up to below `10 ^ 16`, with an
  exponent of at least two digits otherwise, and always with a point or an exponent.
-/

namespace ClientForge

set_option autoImplicit false

/-- An IEEE 754 double, as its bits. -/
structure Binary64 where
  bits : UInt64
  deriving DecidableEq, Inhabited

namespace Binary64

/-- The bits below the sign, as a number. -/
def magnitude (x : Binary64) : Nat := x.bits.toNat % Nat.pow 2 63

def negative (x : Binary64) : Bool := Nat.pow 2 63 ≤ x.bits.toNat

/-- A double with the given sign and the given bits below it. -/
def ofMagnitude (negative : Bool) (magnitude : Nat) : Binary64 :=
  ⟨UInt64.ofNat ((if negative then Nat.pow 2 63 else 0) + magnitude)⟩

/-- The bits of infinity below the sign; everything above is not a number. -/
def infinityMagnitude : Nat := 2047 * Nat.pow 2 52

def infinity (negative : Bool) : Binary64 := ofMagnitude negative infinityMagnitude

def notANumber : Binary64 := ofMagnitude false (infinityMagnitude + Nat.pow 2 51)

def isNotANumber (x : Binary64) : Bool := infinityMagnitude < x.magnitude

def isInfinite (x : Binary64) : Bool := x.magnitude == infinityMagnitude

def isZero (x : Binary64) : Bool := x.magnitude == 0

/-- The significand of a finite double, as an integer. -/
def significand (x : Binary64) : Nat :=
  let biased := x.magnitude / Nat.pow 2 52
  let fraction := x.magnitude % Nat.pow 2 52
  if biased = 0 then fraction else Nat.pow 2 52 + fraction

/-- How far the exponent of a finite double is above the least one: its absolute value is
`significand * 2 ^ (steps - 1074)`. -/
def steps (x : Binary64) : Nat := x.magnitude / Nat.pow 2 52 - 1

/-- Bounds of the decimal exponents that can meet a finite nonzero double. -/
def exponentLimit : Int := 400

/-- The quotient of two naturals, a half going to the even neighbour. -/
def roundDiv (num den : Nat) : Nat :=
  let q := num / den
  let r := num % den
  if den < 2 * r ∨ (2 * r = den ∧ q % 2 = 1) then q + 1 else q

/-- The bits below the sign of the double nearest to `num / den`. -/
def roundRatio (num den : Nat) : Nat :=
  let guess : Int := (Nat.log2 num : Int) - Nat.log2 den - 52
  let scaled (e : Int) : Nat × Nat :=
    if 0 ≤ e then (num, den * Nat.pow 2 e.toNat) else (num * Nat.pow 2 (-e).toNat, den)
  let exponent : Int :=
    let (n, d) := scaled guess
    if n / d < Nat.pow 2 52 then guess - 1 else guess
  let exponent := max exponent (-1074)
  let (n, d) := scaled exponent
  min ((exponent + 1074).toNat * Nat.pow 2 52 + roundDiv n d) infinityMagnitude

/-- The double nearest to `digits * 10 ^ exponent`. -/
def ofDecimal (negative : Bool) (digits : Nat) (exponent : Int) : Binary64 :=
  let size : Int := (Nat.toDigits 10 digits).length + exponent
  if digits = 0 ∨ size < -exponentLimit then ofMagnitude negative 0
  else if exponentLimit < size then infinity negative
  else if 0 ≤ exponent then
    ofMagnitude negative (roundRatio (digits * Nat.pow 10 exponent.toNat) 1)
  else ofMagnitude negative (roundRatio digits (Nat.pow 10 (-exponent).toNat))

/-- The place of the decimal point: the `p` with `10 ^ (p - 1) ≤ num / den < 10 ^ p`. -/
def decimalPoint (num den : Nat) : Int :=
  if den ≤ num then ((Nat.toDigits 10 (num / den)).length : Int)
  else 1 - below exponentLimit.toNat 0 num
where
  /-- How often a ratio below one is multiplied by ten until it is at least one. -/
  below : Nat → Nat → Nat → Int
    | 0, k, _ => k
    | fuel + 1, k, n => if den ≤ n then k else below fuel (k + 1) (n * 10)

/-- The decimal of `count` digits that is nearest to `num / den` among those between the
bounds `low / den` and `high / den`; `closed` says whether the bounds belong to them. -/
def nearestOn (num den low high : Nat) (closed : Bool) (point : Int) (count : Nat) :
    Option Nat :=
  let unit : Int := point - count
  let up := if 0 ≤ unit then 1 else Nat.pow 10 (-unit).toNat
  let down := if 0 ≤ unit then Nat.pow 10 unit.toNat else 1
  let d := num * up / (den * down)
  let fits (k : Nat) : Bool :=
    let v := k * den * down
    if closed then low * up ≤ v && v ≤ high * up else low * up < v && v < high * up
  let below := num * up - d * den * down
  let above := (d + 1) * den * down - num * up
  match fits d, fits (d + 1) with
  | true, true =>
    if below < above ∨ (below = above ∧ d % 2 = 0) then some d else some (d + 1)
  | true, false => some d
  | false, true => some (d + 1)
  | false, false => none

/-- The first count of digits, from `count` on, at which a decimal fits. -/
def firstFit (num den low high : Nat) (closed : Bool) (point : Int) : Nat → Nat → Nat × Int
  | 0, count => (num / den, point - count)
  | fuel + 1, count =>
    match nearestOn num den low high closed point count with
    | some d => (d, point - count)
    | none => firstFit num den low high closed point fuel (count + 1)

/-- The shortest decimal that reads back as a finite nonzero double: digits and exponent. -/
def shortest (x : Binary64) : Nat × Int :=
  let m := x.significand
  let scale := if 1076 ≤ x.steps then Nat.pow 2 (x.steps - 1076) else 1
  let den := if 1076 ≤ x.steps then 1 else Nat.pow 2 (1076 - x.steps)
  let gap := if m = Nat.pow 2 52 ∧ 0 < x.steps then 1 else 2
  let num := 4 * m * scale
  let low := (4 * m - gap) * scale
  let high := (4 * m + 2) * scale
  firstFit num den low high (m % 2 = 0) (decimalPoint num den) 17 1

/-- Zeros on the right carry no information: they move into the exponent. -/
def dropZeros : List Char → List Char
  | [] => []
  | c :: rest =>
    match dropZeros rest with
    | [] => if c = '0' then [] else [c]
    | kept => c :: kept

/-- The layout of a finite nonzero number from its digits and the place of the point. -/
def layout (digits : List Char) (point : Int) : List Char :=
  let zeros (n : Int) : List Char := List.replicate n.toNat '0'
  if -4 < point ∧ point ≤ 16 then
    if point ≤ 0 then ['0', '.'] ++ zeros (-point) ++ digits
    else if (digits.length : Int) ≤ point then
      digits ++ zeros (point - digits.length) ++ ['.', '0']
    else digits.take point.toNat ++ ['.'] ++ digits.drop point.toNat
  else
    let power := point - 1
    let places := Nat.toDigits 10 power.natAbs
    let places := if places.length < 2 then '0' :: places else places
    digits.take 1 ++ (if digits.length ≤ 1 then [] else '.' :: digits.drop 1) ++
      ['e', if power < 0 then '-' else '+'] ++ places

/-- The text of a double: the fewest digits that read back. -/
def text (x : Binary64) : String :=
  if x.isNotANumber then "NaN"
  else
    let sign := if x.negative then "-" else ""
    if x.isInfinite then sign ++ "Infinity"
    else if x.isZero then sign ++ "0.0"
    else
      let (digits, exponent) := x.shortest
      let shown := Nat.toDigits 10 digits
      sign ++ String.ofList (layout (dropZeros shown) (exponent + shown.length))

/-- A double equals an integer when the two are the same number. -/
def equalsInt (x : Binary64) (i : Int) : Bool :=
  !x.isNotANumber && !x.isInfinite && (x.negative == decide (i < 0) || i == 0) &&
    x.significand * Nat.pow 2 x.steps == i.natAbs * Nat.pow 2 1074

/-- A double is at least a natural number. -/
def atLeast (x : Binary64) (n : Nat) : Bool :=
  !x.isNotANumber && !(x.negative && !x.isZero) &&
    (x.isInfinite || n * Nat.pow 2 1074 ≤ x.significand * Nat.pow 2 x.steps)

/-- Two doubles are the same key: they are the same number, zero having one value, or
neither is a number. -/
def same (x y : Binary64) : Bool :=
  x == y || (x.isZero && y.isZero) || (x.isNotANumber && y.isNotANumber)

end Binary64

end ClientForge
