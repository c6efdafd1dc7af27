import QueryCompiler.Number.Binary64
import QueryCompiler.Number.Digits

/-! # Decimal text of doubles

* `Binary64.ofDecimal?`: the double read from decimal digits and a power of ten.
* `Binary64.shortest`: the shortest decimal that is closer to a double than to any other one.
* `Binary64.text`: a finite double as decimal text.
-/

namespace QueryCompiler
set_option autoImplicit false

namespace Binary64

/-! ## From digits -/

/-- The largest power of ten that is applied in one step. -/
def maxTenPower : Nat := 308

/-- `x` times ten to the power `exponent`. The power of ten is itself a double, so each step rounds
twice; powers below `-maxTenPower` are taken in several steps. Nothing is returned when the result is
too large for a double. -/
def scaleTen? (x : Binary64) (exponent : Int) : Option Binary64 :=
  if 0 ≤ exponent then
    if exponent ≤ maxTenPower then
      let y := mul x (ofNat (tenPow exponent.toNat))
      if y.isFinite then some y else none
    else if x.isZero then some x
    else none
  else if -(maxTenPower : Int) ≤ exponent then
    some (div x (ofNat (tenPow (-exponent).toNat)))
  else if x.isZero then some x
  else scaleTen? (div x (ofNat (tenPow maxTenPower))) (exponent + maxTenPower)
termination_by (-exponent).toNat
decreasing_by simp only [maxTenPower] at *; omega

/-- The double read from the decimal `± digits * 10 ^ exponent`, unless it is too large. -/
def ofDecimal? (negative : Bool) (digits : Nat) (exponent : Int) : Option Binary64 :=
  (scaleTen? (ofNat digits) exponent).map fun x => if negative then neg x else x

/-! ## To digits -/

/-- The exponent `k` with `10 ^ (k - 1) ≤ num / den < 10 ^ k`, for positive `num` and `den`. -/
def decimalPoint (num den : Nat) : Int :=
  let above (k : Int) : Bool := den * tenPow k.toNat ≤ num * tenPow (-k).toNat
  let guess := floorLog2 num den * 30103 / 100000
  if above (guess + 1) then guess + 2 else if above guess then guess + 1 else guess

/-- Moves trailing zeros of a decimal's digits into its exponent, at most `fuel` of them. -/
def dropZeros : Nat → Nat × Int → Nat × Int
  | 0, d => d
  | fuel + 1, (digits, exponent) =>
    if digits ≠ 0 ∧ digits % 10 = 0 then dropZeros fuel (digits / 10, exponent + 1)
    else (digits, exponent)

/-- The decimals `digits * 10 ^ exponent` next to `num / den` on the grid of step `10 ^ exponent`,
the nearer one first; half-way between them, the one with even digits. -/
def gridNeighbours (num den : Nat) (exponent : Int) : List Nat :=
  let scaledNum := num * tenPow (-exponent).toNat
  let scaledDen := den * tenPow exponent.toNat
  let low := scaledNum / scaledDen
  if divRoundEven scaledNum scaledDen = low then [low, low + 1] else [low + 1, low]

/-- The shortest decimal `digits * 10 ^ exponent` that reads back as the positive finite double `x`,
the nearest one of that length. With `m * 2 ^ s` the double in units of `2 ^ -1074`, a decimal reads
back when it lies between the midpoints to the two neighbouring doubles, which themselves count when
`m` is even. -/
def shortest (x : Binary64) : Nat × Int :=
  let (m, s) := x.significand
  let num := m * twoPow s
  let den := twoPow 1074
  -- in quarter units, so that the midpoint below a power of two is a natural as well
  let low := if m = twoPow 52 ∧ s ≠ 0 then 4 * m - 1 else 4 * m - 2
  let high := 4 * m + 2
  let inside (digits : Nat) (exponent : Int) : Bool :=
    let a := digits * tenPow exponent.toNat * den * 4
    let unit := twoPow s * tenPow (-exponent).toNat
    if m % 2 = 0 then low * unit ≤ a && a ≤ high * unit else low * unit < a && a < high * unit
  let k := decimalPoint num den
  let candidate (n : Nat) : Option (Nat × Int) :=
    let exponent := k - n
    ((gridNeighbours num den exponent).find? (inside · exponent)).map (·, exponent)
  dropZeros 20 (((List.range' 1 17).findSome? candidate).getD (0, 0))

/-! ## As text -/

/-- A positive decimal as text. From `10 ^ -5` up to `10 ^ 16` it is written out, with at least one
digit on each side of the point; outside that range it gets an exponent with its sign. -/
def decimalText (digits : Nat) (exponent : Int) : String :=
  let text := digits.repr
  let size := text.length
  let point : Int := size + exponent
  if 0 ≤ exponent ∧ point ≤ 16 then
    text ++ zeros exponent.toNat ++ ".0"
  else if 0 < point ∧ point ≤ 16 then
    String.ofList (text.toList.take point.toNat) ++ "." ++
      String.ofList (text.toList.drop point.toNat)
  else if -5 < point ∧ point ≤ 0 then
    "0." ++ zeros (-point).toNat ++ text
  else
    let mark := if point ≤ 0 then "e-" else "e+"
    let power := (point - 1).natAbs.repr
    match text.toList with
    | first :: rest@(_ :: _) => String.ofList (first :: '.' :: rest) ++ mark ++ power
    | _ => text ++ mark ++ power

/-- A finite double as the shortest decimal text that reads back as it. -/
def text (x : Binary64) : String :=
  let sign := if x.isNegative then "-" else ""
  if x.isZero then sign ++ "0.0"
  else
    let (digits, exponent) := shortest x
    sign ++ decimalText digits exponent

end Binary64

end QueryCompiler
