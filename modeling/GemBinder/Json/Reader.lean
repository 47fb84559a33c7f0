import GemBinder.Json.Basic
import GemBinder.Text.Lines

/-! # Reading JSON

    A reader that reports the first fault with its position.  Beyond the
    standard it knows the numbers that are none or infinite; a name that an
    object repeats keeps its first place and gets its last value.  Faults are
    placed by the number of characters left, so that no function counts. -/

namespace GemBinder.Json

open Text Decimal

/-! ## Faults -/

/-- What can be wrong with a JSON text. -/
inductive Fault where
  | noValue
  | noName
  | noColon
  | noComma
  | unterminated
  | controlCharacter
  | badEscape
  | badUnicodeEscape
  | extraData
  | byteOrderMark
deriving Repr, DecidableEq

/-- The wording of a fault. -/
def Fault.message : Fault → String
  | .noValue => "Expecting value"
  | .noName => "Expecting property name enclosed in double quotes"
  | .noColon => "Expecting ':' delimiter"
  | .noComma => "Expecting ',' delimiter"
  | .unterminated => "Unterminated string starting at"
  | .controlCharacter => "Invalid control character at"
  | .badEscape => "Invalid \\escape"
  | .badUnicodeEscape => "Invalid \\uXXXX escape"
  | .extraData => "Extra data"
  | .byteOrderMark => "Unexpected UTF-8 BOM (decode using utf-8-sig)"

/-- Why a text was refused: a fault at a position, an integer with more
    digits than are read, or values nested deeper than is read. -/
inductive ReadError where
  | malformed (f : Fault) (position : Nat)
  | tooManyDigits (count : Nat)
  | tooDeep
deriving Repr, DecidableEq

/-- The most digits of an integer that is read. -/
def digitLimit : Nat := 4300

/-- The wording of an error about a text. -/
def ReadError.message (s : List Char) : ReadError → String
  | .malformed f position =>
      let place := lineAndColumn s position
      s!"{f.message}: line {place.1} column {place.2} (char {position})"
  | .tooManyDigits count =>
      s!"Exceeds the limit ({digitLimit} digits) for integer string conversion: value has " ++
        s!"{count} digits; use sys.set_int_max_str_digits() to increase the limit"
  | .tooDeep => "values are nested too deeply"

/-- An error while reading, placed by the number of characters left. -/
inductive Stop where
  | malformed (f : Fault) (left : Nat)
  | tooManyDigits (count : Nat)
  | tooDeep

/-- The error in a text of a length. -/
def Stop.placed (length : Nat) : Stop → ReadError
  | .malformed f left => .malformed f (length - left)
  | .tooManyDigits count => .tooManyDigits count
  | .tooDeep => .tooDeep

/-- A part that was read and the characters behind it. -/
abbrev Reading (α : Type) := Except Stop (α × List Char)

/-- A fault before some characters. -/
def failAt {α : Type} (f : Fault) (rest : List Char) : Except Stop α :=
  .error (.malformed f rest.length)

/-! ## Texts -/

/-- The blanks between the parts of a value. -/
def isSpace (c : Char) : Bool := c == ' ' || c == '\t' || c == '\n' || c == '\r'

/-- The characters behind leading blanks. -/
def skipSpace (s : List Char) : List Char := s.dropWhile isSpace

/-- The value of a hexadecimal digit. -/
def hexValue? (c : Char) : Option Nat :=
  if '0' ≤ c && c ≤ '9' then some (c.toNat - 48)
  else if 'a' ≤ c && c ≤ 'f' then some (c.toNat - 87)
  else if 'A' ≤ c && c ≤ 'F' then some (c.toNat - 55)
  else none

/-- The value of four hexadecimal digits. -/
def unit? (a b c d : Char) : Option Nat := do
  return (((← hexValue? a) * 16 + (← hexValue? b)) * 16 + (← hexValue? c)) * 16 + (← hexValue? d)

/-- The character that a short escape stands for. -/
def shortEscape? (c : Char) : Option Char :=
  if c == '"' || c == '\\' || c == '/' then some c
  else if c == 'n' then some '\n'
  else if c == 't' then some '\t'
  else if c == 'r' then some '\r'
  else if c == 'b' then some '\x08'
  else if c == 'f' then some '\x0c'
  else none

/-- The first half of a surrogate pair. -/
def isHigh (n : Nat) : Bool := 0xD800 ≤ n && n < 0xDC00

/-- The second half of a surrogate pair. -/
def isLow (n : Nat) : Bool := 0xDC00 ≤ n && n < 0xE000

/-- The character of one UTF-16 unit; half a pair is replaced. -/
def unitChar (n : Nat) : Char := if isHigh n || isLow n then '\uFFFD' else Char.ofNat n

/-- Puts a character before what was read. -/
def prepend (c : Char) (r : Reading (List Char)) : Reading (List Char) :=
  r.map fun (s, rest) => (c :: s, rest)

/-- A text behind its opening quote, where `opening` is what the quote
    begins.  An escape of four digits has to have something behind it. -/
def readText (opening : List Char) : List Char → Reading (List Char)
  | [] => failAt .unterminated opening
  | '"' :: rest => .ok ([], rest)
  | ['\\'] => failAt .unterminated opening
  | '\\' :: 'u' :: a :: b :: c :: d :: '\\' :: 'u' :: e :: f :: g :: h :: last :: rest =>
      match unit? a b c d with
      | none => failAt .badUnicodeEscape
          ('u' :: a :: b :: c :: d :: '\\' :: 'u' :: e :: f :: g :: h :: last :: rest)
      | some n =>
          if isHigh n then
            match unit? e f g h with
            | none => failAt .badUnicodeEscape ('u' :: e :: f :: g :: h :: last :: rest)
            | some m =>
                if isLow m then
                  prepend (Char.ofNat (0x10000 + (n - 0xD800) * 1024 + (m - 0xDC00)))
                    (readText opening (last :: rest))
                else
                  prepend (unitChar n)
                    (readText opening ('\\' :: 'u' :: e :: f :: g :: h :: last :: rest))
          else
            prepend (unitChar n)
              (readText opening ('\\' :: 'u' :: e :: f :: g :: h :: last :: rest))
  | '\\' :: 'u' :: a :: b :: c :: d :: last :: rest =>
      match unit? a b c d with
      | none => failAt .badUnicodeEscape ('u' :: a :: b :: c :: d :: last :: rest)
      | some n => prepend (unitChar n) (readText opening (last :: rest))
  | '\\' :: 'u' :: rest => failAt .badUnicodeEscape ('u' :: rest)
  | '\\' :: c :: rest =>
      match shortEscape? c with
      | none => failAt .badEscape ('\\' :: c :: rest)
      | some d => prepend d (readText opening rest)
  | c :: rest =>
      if c.toNat < 32 then failAt .controlCharacter (c :: rest)
      else prepend c (readText opening rest)

/-! ## Numbers -/

/-- The number that decimal digits write. -/
def digitsValue (digits : List Char) : Nat :=
  digits.foldl (fun n c => n * 10 + (c.toNat - '0'.toNat)) 0

/-- The digits before the point: a zero, or digits that begin with another. -/
def readWhole : List Char → Option (List Char × List Char)
  | '0' :: rest => some (['0'], rest)
  | c :: rest =>
      if isAsciiDigit c then
        some (c :: rest.takeWhile isAsciiDigit, rest.dropWhile isAsciiDigit)
      else none
  | [] => none

/-- A point with the digits behind it, if there are any. -/
def readFraction : List Char → List Char × List Char
  | '.' :: rest =>
      if (rest.takeWhile isAsciiDigit).isEmpty then ([], '.' :: rest)
      else (rest.takeWhile isAsciiDigit, rest.dropWhile isAsciiDigit)
  | rest => ([], rest)

/-- An exponent, if there is one. -/
def readExponent (s : List Char) : Option Int × List Char :=
  match s with
  | c :: rest =>
      if c == 'e' || c == 'E' then
        let (negative, digits) := match rest with
          | '-' :: more => (true, more)
          | '+' :: more => (false, more)
          | more => (false, more)
        let found := digits.takeWhile isAsciiDigit
        if found.isEmpty then (none, s)
        else
          let n : Int := digitsValue found
          (some (if negative then -n else n), digits.dropWhile isAsciiDigit)
      else (none, s)
  | [] => (none, s)

/-- A number; without fraction and exponent it is an integer. -/
def readNumber (s : List Char) : Reading Json :=
  let (negative, unsigned) := match s with
    | '-' :: rest => (true, rest)
    | _ => (false, s)
  match readWhole unsigned with
  | none => failAt .noValue s
  | some (whole, rest) =>
      let (fraction, rest) := readFraction rest
      let (exponent, rest) := readExponent rest
      if fraction.isEmpty && exponent.isNone then
        if whole.length > digitLimit then .error (.tooManyDigits whole.length)
        else
          let n : Int := digitsValue whole
          .ok (.int (if negative then -n else n), rest)
      else
        let power : Int := exponent.getD 0 - fraction.length
        .ok (.real (ofNumeral negative (digitsValue (whole ++ fraction)) power), rest)

/-! ## Values -/

/-- The values that are written as words. -/
def wordValues : List (List Char × Json) :=
  [("null".toList, .null), ("true".toList, .bool true), ("false".toList, .bool false),
   ("NaN".toList, .real .nan), ("Infinity".toList, .real (.infinite false)),
   ("-Infinity".toList, .real (.infinite true))]

/-- A word or a number. -/
def readWord (s : List Char) : Reading Json :=
  match wordValues.find? fun w => w.1.isPrefixOf s with
  | some (w, v) => .ok (v, s.drop w.length)
  | none => readNumber s

mutual

/-- A value; every step into or along a value spends one unit of fuel, and
    `room` levels of nesting are left. -/
def readValue : Nat → Nat → List Char → Except Stop (Json × List Char)
  | _, 0, s => failAt .noValue s
  | room, fuel + 1, s =>
      match s, room with
      | '"' :: rest, _ => (readText s rest).map fun (t, rest) => (.text (String.ofList t), rest)
      | '{' :: _, 0 => .error .tooDeep
      | '[' :: _, 0 => .error .tooDeep
      | '{' :: rest, room + 1 =>
          match skipSpace rest with
          | '}' :: rest => .ok (.object [], rest)
          | rest => (readMembers room fuel [] rest).map fun (ms, rest) => (.object ms, rest)
      | '[' :: rest, room + 1 =>
          match skipSpace rest with
          | ']' :: rest => .ok (.list [], rest)
          | rest => (readItems room fuel rest).map fun (vs, rest) => (.list vs, rest)
      | _, _ => readWord s

/-- The items of a list up to its closing bracket. -/
def readItems : Nat → Nat → List Char → Except Stop (List Json × List Char)
  | _, 0, s => failAt .noValue s
  | room, fuel + 1, s => do
      let (v, rest) ← readValue room fuel s
      match skipSpace rest with
      | ']' :: rest => return ([v], rest)
      | ',' :: rest =>
          let (more, rest) ← readItems room fuel (skipSpace rest)
          return (v :: more, rest)
      | rest => failAt .noComma rest

/-- The members of an object up to its closing brace, behind earlier ones. -/
def readMembers : Nat → Nat → List (String × Json) → List Char →
    Except Stop (List (String × Json) × List Char)
  | _, 0, _, s => failAt .noName s
  | room, fuel + 1, earlier, s =>
      match s with
      | '"' :: rest => do
          let (name, rest) ← readText s rest
          match skipSpace rest with
          | ':' :: rest =>
              let (v, rest) ← readValue room fuel (skipSpace rest)
              let members := insertMember (String.ofList name) v earlier
              match skipSpace rest with
              | '}' :: rest => return (members, rest)
              | ',' :: rest => readMembers room fuel members (skipSpace rest)
              | rest => failAt .noComma rest
          | rest => failAt .noColon rest
      | _ => failAt .noName s

end

/-- The value that a text writes, where values may be nested to a depth. -/
def read (depth : Nat) (s : List Char) : Except ReadError Json :=
  if s.head? == some '\uFEFF' then .error (.malformed .byteOrderMark 0)
  else
    match readValue depth (2 * s.length + 2) (skipSpace s) with
    | .error stop => .error (stop.placed s.length)
    | .ok (v, rest) =>
        match skipSpace rest with
        | [] => .ok v
        | rest => .error (.malformed .extraData (s.length - rest.length))

end GemBinder.Json
