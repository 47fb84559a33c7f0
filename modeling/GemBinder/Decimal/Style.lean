import GemBinder.Decimal.Shortest

/-! # Styles of a whole number

    A whole number can be shown with a fixed count of places behind the
    point, with one digit before it and an exponent, or in whichever of the
    two a count of significant digits asks for.  Digits that are dropped are
    rounded to nearest, a half to the even digit. -/

namespace GemBinder.Decimal

/-- A style with its count: of places behind the point, or of significant
    digits. -/
inductive Style where
  | fixed (places : Nat)
  | scientific (places : Nat)
  | general (digits : Nat)
deriving Repr, DecidableEq

/-- The digits before the point, and what follows them. -/
structure Shown where
  whole : List Char
  rest : List Char
deriving Repr, DecidableEq

/-- The whole number nearest to a double of no sign, if it has one. -/
def Double.toNat? : Double → Option Nat
  | .finite _ m e => some (roundDiv (m * Nat.pow 2 e.toNat) (Nat.pow 2 (-e).toNat))
  | _ => none

/-- The first `count` digits of a number, rounded, and the exponent of the
    first of them. -/
def leadingDigits (n count : Nat) : List Char × Nat :=
  let size := (Nat.toDigits 10 n).length
  if size ≤ count then (Nat.toDigits 10 (n * Nat.pow 10 (count - size)), size - 1)
  else
    let q := roundDiv n (Nat.pow 10 (size - count))
    if q == Nat.pow 10 count then (Nat.toDigits 10 (q / 10), size)
    else (Nat.toDigits 10 q, size - 1)

/-- A fraction behind its point; the point of an empty one shows only where
    it is kept. -/
def fraction (keepPoint : Bool) (digits : List Char) : List Char :=
  if digits.isEmpty && !keepPoint then [] else '.' :: digits

/-- An exponent behind its mark. -/
def exponentText (mark : Char) (exponent : Nat) : List Char :=
  mark :: '+' :: twoDigits exponent

/-- The digits without zeros at the end. -/
def dropZeros (digits : List Char) : List Char :=
  (digits.reverse.dropWhile (· == '0')).reverse

/-- A number in a style, with the mark of its exponent.  `full` keeps the
    point of an empty fraction and the zeros that a count of significant
    digits would drop. -/
def Style.write (n : Nat) (full : Bool) (mark : Char) : Style → Shown
  | .fixed places => ⟨Nat.toDigits 10 n, fraction full (List.replicate places '0')⟩
  | .scientific places =>
      if n == 0 then ⟨['0'], fraction full (List.replicate places '0') ++ exponentText mark 0⟩
      else
        let (digits, exponent) := leadingDigits n (places + 1)
        ⟨digits.take 1, fraction full (digits.drop 1) ++ exponentText mark exponent⟩
  | .general digits =>
      let count := max digits 1
      let (found, exponent) := leadingDigits n count
      let kept := fun (ds : List Char) => if full then ds else dropZeros ds
      if n == 0 then ⟨['0'], fraction full (kept (List.replicate (count - 1) '0'))⟩
      else if exponent < count then
        ⟨found.take (exponent + 1), fraction full (kept (found.drop (exponent + 1)))⟩
      else ⟨found.take 1, fraction full (kept (found.drop 1)) ++ exponentText mark exponent⟩

end GemBinder.Decimal
