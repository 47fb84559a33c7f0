import GemBinder.Text.CharClass
import GemBinder.Text.CaseTable

/-! # Letter case of texts

    Lower and upper case of a text, in which one letter may become several,
    and in which the lower case of a capital sigma depends on whether it
    ends its word. -/

namespace GemBinder.Text

/-- The lower case of one character, where it is one character. -/
def lowerChar (c : Char) : Char :=
  if c.toNat < 128 then
    if 'A' ≤ c && c ≤ 'Z' then Char.ofNat (c.toNat + 32) else c
  else if c.toNat == 0x130 then 'i'
  else Char.ofNat (shifted lowerShifts c.toNat)

/-- Characters that are looked through when a sigma is placed in its word. -/
def isCaseIgnorable (c : Char) : Bool :=
  if c.toNat < 128 then c == '\'' || c == '.' || c == ':' || c == '^' || c == '\x60'
  else inRanges caseIgnorableRanges c.toNat

/-- Characters with a case. -/
def isCased (c : Char) : Bool :=
  if c.toNat < 128 then isAsciiLetter c else inRanges casedRanges c.toNat

/-- Whether the first character that is not looked through has a case. -/
def meetsCased (s : List Char) : Bool :=
  (s.dropWhile isCaseIgnorable).head?.any isCased

/-- The lower case of one character between the characters before it, the
    nearest first, and those after it: a capital sigma that ends a word gets
    its final form, and a dotted capital I keeps its dot apart. -/
def lowerAt (before : List Char) (c : Char) (after : List Char) : List Char :=
  if c.toNat == 0x3A3 then
    [Char.ofNat (if meetsCased before && !meetsCased after then 0x3C2 else 0x3C3)]
  else if c.toNat == 0x130 then ['i', Char.ofNat 0x307]
  else [lowerChar c]

/-- The lower case of a text, given the characters before it in reverse. -/
def lowerFrom (before : List Char) : List Char → List Char
  | [] => []
  | c :: rest => lowerAt before c rest ++ lowerFrom (c :: before) rest

/-- The lower case of a text. -/
def lower (s : List Char) : List Char :=
  lowerFrom [] s

/-- The upper case of one character. -/
def upperChar (c : Char) : List Char :=
  if c.toNat < 128 then
    [if 'a' ≤ c && c ≤ 'z' then Char.ofNat (c.toNat - 32) else c]
  else
    match upperExpansions.find? (·.1 == c.toNat) with
    | some (_, image) => image.map Char.ofNat
    | none => [Char.ofNat (shifted upperShifts c.toNat)]

/-- The upper case of a text. -/
def upper (s : List Char) : List Char :=
  s.flatMap upperChar

/-- The lower case of a string. -/
def lowerString (s : String) : String :=
  String.ofList (lower s.toList)

/-- The upper case of a string. -/
def upperString (s : String) : String :=
  String.ofList (upper s.toList)

end GemBinder.Text
