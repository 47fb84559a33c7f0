import GemBinder.Pattern.Reader

/-! # Replacement texts

    What stands in place of a match: text, in which a backslash begins an
    escape, a character code or a reference to the match.  The patterns that
    are replaced here have no groups, so that the match as a whole is all
    that can be referred to. -/

namespace GemBinder.Pattern

/-- A piece of a replacement. -/
inductive Piece where
  | text (s : List Char)
  | whole
deriving Repr, DecidableEq

/-- Why a replacement is refused: a fault of its written form, or a name
    that no group has. -/
inductive ReplaceError where
  | read (e : ReadError)
  | noGroup (name : String)
deriving Repr, DecidableEq

/-- The wording of the refusal. -/
def ReplaceError.message (s : List Char) : ReplaceError → String
  | .read e => e.message s
  | .noGroup name => s!"unknown group name {Text.quoted name}"

/-- An octal digit. -/
def isOctal (c : Char) : Bool := '0' ≤ c && c ≤ '7'

/-- The number that digits write in a base. -/
def numberOf (base : Nat) (digits : List Char) : Nat :=
  digits.foldl (fun n c => n * base + (Text.decimalValue? c).getD 0) 0

/-- A number in a reference, with an optional sign and blanks around it. -/
def referenceNumber? (name : List Char) : Option Nat :=
  let s := Text.trim name
  let (negative, digits) := match s with
    | '-' :: rest => (true, rest)
    | '+' :: rest => (false, rest)
    | rest => (false, rest)
  if digits.isEmpty || !digits.all Text.isDecimalDigit then none
  else
    let n := numberOf 10 digits
    if negative && n != 0 then none else some n

/-- The piece for a reference to a group, placed by the characters before
    the unread ones. -/
def reference (index back : Nat) : Reading Piece :=
  if index == 0 then return .whole else failAt (.invalidReference index) back

/-- Either a piece or the name of a group that does not exist. -/
abbrev PieceOrName := Piece ⊕ String

/-- A reference by name or number in angle brackets. -/
def readGroupMark (fuel : Nat) : Reading PieceOrName := do
  let opened ← accept '<'
  if !opened then failAt (.missing "<") 0
  let name ← takeUntil '>' "group name" fuel []
  if isGroupName name then return .inr (String.ofList name)
  else
    match referenceNumber? name with
    | none => failAt (.badNameCharacter (String.ofList name)) (name.length + 1)
    | some n => return .inl (← reference n (name.length + 1))

/-- A character code or a reference that begins with a digit. -/
def readDigits (c : Char) : Reading Piece := do
  if c == '0' then
    let more ← takeWhileIn isOctal 2
    return .text [Char.ofNat (numberOf 8 more % 256)]
  else
    let second ← takeWhileIn Text.isAsciiDigit 1
    match second with
    | [d] =>
        let third ← if isOctal c && isOctal d then takeWhileIn isOctal 1 else pure []
        match third with
        | [e] =>
            let n := numberOf 8 [c, d, e]
            if n > 255 then
              failAt (.octalOutOfRange (String.ofList ['\\', c, d, e])) 4
            return .text [Char.ofNat n]
        | _ => reference (numberOf 10 [c, d]) 2
    | _ => reference (numberOf 10 [c]) 1

/-- The pieces of a replacement, or the first name of no group. -/
def readPieces : Nat → List Piece → Reading (List Piece ⊕ String)
  | 0, found => return .inl found.reverse
  | fuel + 1, found => do
      match ← take with
      | none => return .inl found.reverse
      | some (.plain c) => readPieces fuel (.text [c] :: found)
      | some (.escape c) =>
          if c == 'g' then
            match ← readGroupMark fuel with
            | .inl piece => readPieces fuel (piece :: found)
            | .inr name => return .inr name
          else if Text.isAsciiDigit c then readPieces fuel ((← readDigits c) :: found)
          else
            match controlCode? c with
            | some n => readPieces fuel (.text [Char.ofNat n] :: found)
            | none =>
                if Text.isAsciiLetter c then
                  failAt (.badEscape (String.ofList ['\\', c])) 2
                readPieces fuel (.text ['\\', c] :: found)

/-- Reads a replacement. -/
def readReplacement (s : List Char) : Except ReplaceError (List Piece) :=
  let run : Except ReadError (List Piece ⊕ String) := do
    let start ← (Source.mk s 0).checked
    let (result, _) ← (readPieces (s.length + 1) []).run { source := start, room := 0 }
    return result
  match run with
  | .error e => .error (.read e)
  | .ok (.inl pieces) => .ok pieces
  | .ok (.inr name) => .error (.noGroup name)

/-- The text of pieces in place of a match. -/
def expand (matched : List Char) (pieces : List Piece) : List Char :=
  pieces.flatMap fun
    | .text s => s
    | .whole => matched

end GemBinder.Pattern
