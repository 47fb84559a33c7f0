import GemBinder.Text.Encoding
import GemBinder.Text.Lines

/-! # Code points

    A text from outside is a row of code points.  Nearly all of them are
    characters.  The halves of surrogate pairs that stand alone are none, and
    a text that holds them has no bytes. -/

namespace GemBinder.Text

/-- A code point: a character, or half of a surrogate pair that stands alone,
    counted from the first of them. -/
inductive CodePoint where
  | char (c : Char)
  | half (n : Fin 0x800)
deriving Repr, DecidableEq, Inhabited

namespace CodePoint

/-- The number of a code point. -/
def number : CodePoint → Nat
  | .char c => c.toNat
  | .half n => 0xD800 + n

/-- Whether a code point is no character. -/
def isHalf : CodePoint → Bool
  | .char _ => false
  | .half _ => true

/-- The code points of a string, which are characters. -/
def ofString (s : String) : List CodePoint := s.toList.map .char

/-- The code points with a carriage return, alone or before a newline, turned
    into a newline. -/
def unifyLineEnds : List CodePoint → List CodePoint
  | [] => []
  | .char '\r' :: .char '\n' :: rest => .char '\n' :: unifyLineEnds rest
  | c :: rest => (if c == .char '\r' then .char '\n' else c) :: unifyLineEnds rest

end CodePoint

/-- Code points that have no bytes: the place of the first one, that one, and
    how many there are. -/
structure EncodeError where
  position : Nat
  first : CodePoint
  count : Nat
deriving Repr, DecidableEq

/-- The wording of an encoding error. -/
def EncodeError.message (e : EncodeError) : String :=
  let place :=
    if e.count == 1 then
      s!"character '{String.ofList (escapeCode e.first.number)}' in position {e.position}"
    else s!"characters in position {e.position}-{e.position + e.count - 1}"
  s!"'utf-8' codec can't encode {place}: surrogates not allowed"

/-- The bytes of code points from a position on. -/
def encodeFrom (position : Nat) : List CodePoint → Except EncodeError Bytes
  | [] => .ok []
  | .char c :: rest => do return String.utf8EncodeChar c ++ (← encodeFrom (position + 1) rest)
  | .half n :: rest =>
      .error ⟨position, .half n, 1 + (rest.takeWhile CodePoint.isHalf).length⟩

/-- The bytes of code points. -/
def encodePoints (s : List CodePoint) : Except EncodeError Bytes := encodeFrom 0 s

end GemBinder.Text
