import GemBinder.Text.Words

/-! # Quoted texts

    Two ways of writing a text so that it can be told apart from what stands
    around it: between quotes with escapes, as in messages, and as one word
    of a command line. -/

namespace GemBinder.Text

/-! ## Escaped between quotes -/

/-- The digit of a value below sixteen, in lower case. -/
def hexDigit (n : Nat) : Char :=
  if n < 10 then Char.ofNat (48 + n) else Char.ofNat (87 + n)

/-- The lowest `width` hexadecimal digits of a number, the highest first. -/
def hexDigits : Nat → Nat → List Char
  | 0, _ => []
  | width + 1, n => hexDigits width (n / 16) ++ [hexDigit (n % 16)]

/-- A code point as an escape of two, four or eight hexadecimal digits,
    whichever is the shortest that holds it. -/
def escapeCode (n : Nat) : List Char :=
  if n < 0x100 then '\\' :: 'x' :: hexDigits 2 n
  else if n < 0x10000 then '\\' :: 'u' :: hexDigits 4 n
  else '\\' :: 'U' :: hexDigits 8 n

/-- The quotation mark around a text: the apostrophe, unless the text holds
    apostrophes and no double quotes. -/
def quoteFor (s : List Char) : Char :=
  if s.contains '\'' && !s.contains '"' then '"' else '\''

/-- One character between quotation marks `q`; characters outside `shown`
    are written by their code. -/
def quoteChar (q : Char) (shown : Char → Bool) (c : Char) : List Char :=
  if c == q || c == '\\' then ['\\', c]
  else if c == '\n' then ['\\', 'n']
  else if c == '\r' then ['\\', 'r']
  else if c == '\t' then ['\\', 't']
  else if shown c then [c]
  else escapeCode c.toNat

/-- A text between quotation marks, with `shown` the characters that stand
    for themselves. -/
def quoteShowing (shown : Char → Bool) (s : List Char) : List Char :=
  let q := quoteFor s
  q :: s.flatMap (quoteChar q shown) ++ [q]

/-- A string between quotation marks; what is not printable is escaped. -/
def quoted (s : String) : String :=
  String.ofList (quoteShowing isPrintable s.toList)

/-- A string between quotation marks, in ASCII. -/
def quotedAscii (s : String) : String :=
  String.ofList (quoteShowing (fun c => c.toNat < 128 && isPrintable c) s.toList)

/-! ## Words of a command line -/

/-- Characters that a command line takes as they are. -/
def isPlainWordChar (c : Char) : Bool :=
  isIdentifierChar c || "@%+=:,./-".toList.contains c

/-- A text as one word of a command line: between apostrophes if it is empty
    or holds a character that is not plain, where an apostrophe inside is
    written between double quotes. -/
def commandWord (s : String) : String :=
  if s.toList.isEmpty then "''"
  else if s.toList.all isPlainWordChar then s
  else
    let body := s.toList.flatMap fun c => if c == '\'' then "'\"'\"'".toList else [c]
    String.ofList ('\'' :: body ++ ['\''])

/-- A command line of several words. -/
def commandLine (args : List String) : String :=
  joinStrings " " (args.map commandWord)

end GemBinder.Text
