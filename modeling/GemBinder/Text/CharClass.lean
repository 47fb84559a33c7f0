import GemBinder.Text.ClassTable

/-! # Character classes

    Blanks, word characters, decimal digits and printable characters.  Each
    class decides ASCII by comparisons, so that facts about ASCII texts need
    no table, and everything else by its sorted ranges. -/

namespace GemBinder.Text

/-- The ASCII digits. -/
def isAsciiDigit (c : Char) : Bool :=
  '0' ≤ c && c ≤ '9'

/-- The ASCII letters. -/
def isAsciiLetter (c : Char) : Bool :=
  ('a' ≤ c && c ≤ 'z') || ('A' ≤ c && c ≤ 'Z')

/-- ASCII letters, digits and the underscore: the characters of a C identifier. -/
def isIdentifierChar (c : Char) : Bool :=
  isAsciiLetter c || isAsciiDigit c || c == '_'

/-- White space, the information separators, and the line and paragraph
    separators. -/
def isBlank (c : Char) : Bool :=
  if c.toNat < 128 then
    c == ' ' || (9 ≤ c.toNat && c.toNat ≤ 13) || (28 ≤ c.toNat && c.toNat ≤ 31)
  else inRanges blankRanges c.toNat

/-- Letters and numbers of every script, and the underscore. -/
def isWordChar (c : Char) : Bool :=
  if c.toNat < 128 then isIdentifierChar c else inRanges alphanumericRanges c.toNat

/-- Decimal digits of every script. -/
def isDecimalDigit (c : Char) : Bool :=
  if c.toNat < 128 then isAsciiDigit c else inRanges decimalRanges c.toNat

/-- The value of a decimal digit of any script: its distance from the zero
    of its run of ten. -/
def decimalValue? (c : Char) : Option Nat :=
  if c.toNat < 128 then
    if isAsciiDigit c then some (c.toNat - '0'.toNat) else none
  else
    (decimalRanges.find? fun r => r.1 ≤ c.toNat && c.toNat ≤ r.2).map
      fun r => (c.toNat - r.1) % 10

/-- Characters that a quoted text shows as they are. -/
def isPrintable (c : Char) : Bool :=
  if c.toNat < 128 then 32 ≤ c.toNat && c.toNat < 127
  else !inRanges unprintableRanges c.toNat

/-- A word boundary lies between two neighbours, absent at the ends of the
    text, exactly one of which is a word character. -/
def isWordBoundary (before after : Option Char) : Bool :=
  before.any isWordChar != after.any isWordChar

/-! ## ASCII members -/

theorem isWordChar_of_isIdentifierChar {c : Char} (hc : c.toNat < 128)
    (h : isIdentifierChar c = true) : isWordChar c = true := by
  simp [isWordChar, hc, h]

theorem isBlank_space : isBlank ' ' = true := by decide

end GemBinder.Text
