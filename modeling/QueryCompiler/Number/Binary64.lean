import QueryCompiler.Number.Power

/-! # Double-precision numbers

A double is kept as its 64 bits, so two doubles are equal exactly when their bits are, and all
arithmetic on them is exact arithmetic on naturals followed by one rounding:

* `Binary64.magnitude`: a finite double without its sign, as a ratio of naturals.
* `Binary64.ofRatio`: the double nearest to a ratio, ties to the even significand.
* `Binary64.mul`, `Binary64.div`: product and quotient, rounded once.
* `Binary32.widen`: a single-precision number as the double of the same value.
-/

namespace QueryCompiler
set_option autoImplicit false

/-- An IEEE 754 double: one sign bit, eleven exponent bits, fifty-two fraction bits. -/
structure Binary64 where
  bits : UInt64
  deriving DecidableEq

/-- An IEEE 754 single: one sign bit, eight exponent bits, twenty-three fraction bits. -/
structure Binary32 where
  bits : UInt32
  deriving DecidableEq

namespace Binary64

/-! ## Parts -/

/-- Whether the sign bit is set. -/
def isNegative (x : Binary64) : Bool := twoPow 63 ≤ x.bits.toNat

/-- The biased exponent. -/
def exponentField (x : Binary64) : Nat := x.bits.toNat / twoPow 52 % twoPow 11

/-- The stored fraction. -/
def fraction (x : Binary64) : Nat := x.bits.toNat % twoPow 52

/-- Neither infinite nor a NaN. -/
def isFinite (x : Binary64) : Bool := x.exponentField < 2047

/-- Zero of either sign. -/
def isZero (x : Binary64) : Bool := x.bits.toNat % twoPow 63 == 0

/-- The integer significand `m` and the shift `s` of a finite double: without its sign the double is
`m * 2 ^ s / 2 ^ 1074`. -/
def significand (x : Binary64) : Nat × Nat :=
  if x.exponentField = 0 then (x.fraction, 0) else (twoPow 52 + x.fraction, x.exponentField - 1)

/-- A finite double without its sign, as numerator and denominator. -/
def magnitude (x : Binary64) : Nat × Nat :=
  let (m, s) := x.significand
  (m * twoPow s, twoPow 1074)

/-! ## Rounding -/

/-- `num / den` rounded to the nearest natural, a half to the even neighbour. -/
def divRoundEven (num den : Nat) : Nat :=
  let q := num / den
  let r := num % den
  if 2 * r < den then q else if den < 2 * r then q + 1 else q + q % 2

/-- The exponent `e` with `2 ^ e ≤ num / den < 2 ^ (e + 1)`, for positive `num` and `den`. -/
def floorLog2 (num den : Nat) : Int :=
  let e : Int := (num.log2 : Int) - den.log2
  if den * twoPow e.toNat ≤ num * twoPow (-e).toNat then e else e - 1

/-- The double nearest to `num / den` with the given sign: ties go to the even significand, and what
is too large becomes infinite. -/
def ofRatio (negative : Bool) (num den : Nat) : Binary64 :=
  let size :=
    if num = 0 then 0
    else
      let q := max (floorLog2 num den - 52) (-1074)
      let m := divRoundEven (num * twoPow (-q).toNat) (den * twoPow q.toNat)
      min ((q + 1074).toNat * twoPow 52 + m) (2047 * twoPow 52)
  ⟨UInt64.ofNat (size + if negative then twoPow 63 else 0)⟩

/-- The double nearest to a natural number. -/
def ofNat (n : Nat) : Binary64 := ofRatio false n 1

/-- The same magnitude with the other sign. -/
def neg (x : Binary64) : Binary64 := ⟨x.bits ^^^ 0x8000000000000000⟩

/-- The product of two finite doubles. -/
def mul (x y : Binary64) : Binary64 :=
  let (a, b) := x.magnitude
  let (c, d) := y.magnitude
  ofRatio (x.isNegative != y.isNegative) (a * c) (b * d)

/-- The quotient of two finite doubles, the second not zero. -/
def div (x y : Binary64) : Binary64 :=
  let (a, b) := x.magnitude
  let (c, d) := y.magnitude
  ofRatio (x.isNegative != y.isNegative) (a * d) (b * c)

end Binary64

/-- The double of the same value; every single has one. -/
def Binary32.widen (x : Binary32) : Binary64 :=
  let n := x.bits.toNat
  let negative := decide (twoPow 31 ≤ n)
  let exponent := n / twoPow 23 % twoPow 8
  let fraction := n % twoPow 23
  if exponent = 255 then
    ⟨UInt64.ofNat (2047 * twoPow 52 + fraction * twoPow 29 + if negative then twoPow 63 else 0)⟩
  else if exponent = 0 then
    Binary64.ofRatio negative fraction (twoPow 149)
  else
    Binary64.ofRatio negative ((twoPow 23 + fraction) * twoPow (exponent - 1)) (twoPow 149)

end QueryCompiler
