/-! # Rounding decimals to doubles

    A double is kept as an integer times a power of two.  A decimal numeral
    is rounded to the nearest one in exact integer arithmetic, and of two
    equally near ones to that with an even integer. -/

namespace GemBinder.Decimal

/-- A floating point number of double precision; a finite one is
    `mantissa * 2 ^ exponent`. -/
inductive Double where
  | finite (negative : Bool) (mantissa : Nat) (exponent : Int)
  | infinite (negative : Bool)
  | nan
deriving Repr, DecidableEq, Inhabited

/-- The number of bits of a mantissa. -/
def precision : Nat := 53

/-- The least exponent of a finite double. -/
def leastExponent : Int := -1074

/-- The greatest exponent of a finite double. -/
def greatestExponent : Int := 971

/-- A quotient rounded to the nearest integer, ties to the even one. -/
def roundDiv (num den : Nat) : Nat :=
  let q := num / den
  let r := num % den
  if 2 * r < den then q else if den < 2 * r then q + 1 else if q % 2 == 0 then q else q + 1

/-- `num / den * 2 ^ -e` as a quotient. -/
def scaled (num den : Nat) (e : Int) : Nat × Nat :=
  if e < 0 then (num * Nat.pow 2 (-e).toNat, den) else (num, den * Nat.pow 2 e.toNat)

/-- The exponent at which a positive quotient has as many bits before the
    point as a mantissa; the two logarithms leave a doubt of one. -/
def mantissaExponent (num den : Nat) : Int :=
  let e : Int := (num.log2 : Int) - den.log2 - precision
  let parts := scaled num den e
  let e := if parts.1 / parts.2 < Nat.pow 2 precision then e else e + 1
  max e leastExponent

/-- The double nearest to a quotient of natural numbers. -/
def ofQuotient (negative : Bool) (num den : Nat) : Double :=
  if num == 0 then .finite negative 0 leastExponent
  else
    let e := mantissaExponent num den
    let parts := scaled num den e
    let m := roundDiv parts.1 parts.2
    let (m, e) := if m == Nat.pow 2 precision then (m / 2, e + 1) else (m, e)
    if greatestExponent < e then .infinite negative else .finite negative m e

/-- The double nearest to `digits * 10 ^ exponent`.  Numerals whose size is
    beyond all doubles are decided by their count of digits alone. -/
def ofNumeral (negative : Bool) (digits : Nat) (exponent : Int) : Double :=
  let size := (Nat.toDigits 10 digits).length + exponent
  if digits == 0 || size < -400 then .finite negative 0 leastExponent
  else if 400 < size then .infinite negative
  else if exponent < 0 then ofQuotient negative digits (Nat.pow 10 (-exponent).toNat)
  else ofQuotient negative (digits * Nat.pow 10 exponent.toNat) 1

/-- Whether a double is an integer. -/
def Double.isInt (x : Double) (n : Int) : Bool :=
  match x with
  | .finite negative m e =>
      let signed : Int := if negative then -m else m
      if e < 0 then signed == n * Int.pow 2 (-e).toNat else signed * Int.pow 2 e.toNat == n
  | _ => false

/-- Whether two doubles are equal as numbers: zeros of either sign are, and
    what is not a number equals nothing. -/
def Double.same : Double → Double → Bool
  | .finite s m e, .finite t n f => (m == 0 && n == 0) || (s == t && m == n && e == f)
  | .infinite s, .infinite t => s == t
  | _, _ => false

/-- Whether a double is zero. -/
def Double.isZero : Double → Bool
  | .finite _ m _ => m == 0
  | _ => false

end GemBinder.Decimal
