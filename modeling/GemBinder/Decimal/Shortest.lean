import GemBinder.Decimal.Double

/-! # The shortest decimal of a double

    A double is written with the fewest digits that read back as it, and of
    several such decimals with the nearest.  On the grid of decimals with a
    given number of digits only the two neighbours of the double need a test:
    if any point of the grid reads back, one of them does. -/

namespace GemBinder.Decimal

/-! ## The digits -/

/-- The numbers that round to a positive double, over a common denominator:
    its value and the two ends, which belong to it if the mantissa is even. -/
structure Rounding where
  value : Nat
  low : Nat
  high : Nat
  den : Nat
  closed : Bool

/-- The interval of numbers that round to `m * 2 ^ e`; below a power of two
    the doubles lie twice as close. -/
def Rounding.of (m : Nat) (e : Int) : Rounding :=
  let low := if m == Nat.pow 2 (precision - 1) && leastExponent < e then 4 * m - 1 else 4 * m - 2
  let shift := e - 2
  let up := Nat.pow 2 shift.toNat
  { value := 4 * m * up, low := low * up, high := (4 * m + 2) * up,
    den := Nat.pow 2 (-shift).toNat, closed := m % 2 == 0 }

/-- Whether `n * 10 ^ k` rounds to the double. -/
def Rounding.holds (r : Rounding) (n : Nat) (k : Int) : Bool :=
  let x := n * Nat.pow 10 k.toNat * r.den
  let unit := Nat.pow 10 (-k).toNat
  if r.closed then r.low * unit ≤ x && x ≤ r.high * unit
  else r.low * unit < x && x < r.high * unit

/-- The number of digits before the point of a positive quotient; for a
    fraction it is minus the number of zeros behind the point. -/
def magnitude (num den : Nat) : Int :=
  let estimate : Int := ((num.log2 : Int) - den.log2) * 30103 / 100000 - 1
  let reaches (k : Int) : Bool := den * Nat.pow 10 k.toNat ≤ num * Nat.pow 10 (-k).toNat
  if !reaches estimate then estimate
  else if !reaches (estimate + 1) then estimate + 1
  else if !reaches (estimate + 2) then estimate + 2
  else estimate + 3

/-- The neighbour on the grid of multiples of `10 ^ k` that rounds to the
    double, the nearer one if both do. -/
def Rounding.onGrid (r : Rounding) (k : Int) : Option Nat :=
  let num := r.value * Nat.pow 10 (-k).toNat
  let den := r.den * Nat.pow 10 k.toNat
  let below := num / den
  let rest := num % den
  match r.holds below k && 0 < below, r.holds (below + 1) k with
  | true, true =>
      some (if 2 * rest < den || (2 * rest == den && below % 2 == 0) then below else below + 1)
  | true, false => some below
  | false, true => some (below + 1)
  | false, false => none

/-- The first number of digits, from `count` on, on whose grid the double
    has a neighbour; `fuel` bounds how many are tried. -/
def Rounding.shortest (r : Rounding) (size : Int) : Nat → Nat → Nat × Int
  | 0, _ => (r.value / r.den, 0)
  | fuel + 1, count =>
      match r.onGrid (size - count) with
      | some n => (n, size - count)
      | none => r.shortest size fuel (count + 1)

/-- The shortest digits of a positive double and the power of ten of the
    last one. -/
def shortestDigits (m : Nat) (e : Int) : Nat × Int :=
  let r := Rounding.of m e
  r.shortest (magnitude r.value r.den) precision 1

/-! ## The written form -/

/-- A natural number with at least two digits. -/
def twoDigits (n : Nat) : List Char :=
  let digits := Nat.toDigits 10 n
  if digits.length < 2 then '0' :: digits else digits

/-- Digits with the point behind the first `point` of them: in full from
    `10 ^ -4` up to `10 ^ 16`, else as one digit, a fraction and an exponent. -/
def layDigits (digits : List Char) (point : Int) : List Char :=
  if -4 < point && point ≤ 16 then
    if point ≤ 0 then '0' :: '.' :: List.replicate (-point).toNat '0' ++ digits
    else
      let count := point.toNat
      let whole := digits.take count ++ List.replicate (count - digits.length) '0'
      let fraction := digits.drop count
      whole ++ '.' :: (if fraction.isEmpty then ['0'] else fraction)
  else
    let exponent := point - 1
    let fraction := digits.drop 1
    digits.take 1 ++ (if fraction.isEmpty then [] else '.' :: fraction) ++
      'e' :: (if exponent < 0 then '-' else '+') :: twoDigits exponent.natAbs

/-- The digits of a number without zeros at the end, and how many digits
    there were. -/
def significant (n : Nat) : List Char × Nat :=
  let digits := Nat.toDigits 10 n
  ((digits.reverse.dropWhile (· == '0')).reverse, digits.length)

/-- A double in its shortest written form. -/
def Double.shown : Double → String
  | .nan => "nan"
  | .infinite negative => if negative then "-inf" else "inf"
  | .finite negative m e =>
      let body :=
        if m == 0 then ['0', '.', '0']
        else
          let (n, k) := shortestDigits m e
          let (digits, count) := significant n
          layDigits digits (count + k)
      String.ofList (if negative then '-' :: body else body)

end GemBinder.Decimal
