import GemBinder.Decimal.Style
import GemBinder.Text.Quoted

/-! # Filling in placeholders

    A template text holds placeholders between braces: a name, with an
    optional selection of parts, a conversion and a layout; doubled braces
    stand for single ones.  `fill` replaces every placeholder by the value
    of its name, laid out as it asks.  All faults are reported where a left
    to right reading meets them. -/

namespace GemBinder.Text.Placeholder

/-! ## Values and faults -/

/-- A value that a placeholder can name. -/
inductive Value where
  | text (s : String)
  | number (n : Int)
deriving Repr, DecidableEq

/-- Why a template cannot be filled in. -/
inductive FillError where
  | singleOpening
  | singleClosing
  | braceInName
  | missingClosing
  | missingConversion
  | afterConversion
  | unmatchedInLayout
  | unknownConversion (c : Char)
  | tooDeep
  | tooManyDigits
  | badSelector
  | emptySelector
  | unclosedSelector
  | noPosition (index : Nat)
  | noName (name : String)
  | noAttribute
  | noElement
  | outOfRange
  | manualAfterAutomatic
  | automaticAfterManual
  | missingPrecision
  | badLayout (layout : String) (isText : Bool)
  | bothSeparators
  | separatorWith (separator code : Char)
  | unknownCode (code : Char) (isText : Bool)
  | spaceInText
  | signInText
  | zeroCoercionIn (isText : Bool)
  | alternateInText
  | signAlignInText
  | precisionInNumber
  | signWithCharacter
  | alternateWithCharacter
  | separatorWithN (separator : Char)
  | notACharacter
  | tooLargeForCharacter
  | tooLargeForDouble
  | precisionTooBig
deriving Repr, DecidableEq

/-- A number in hexadecimal without leading zeros. -/
def hexText (n : Nat) : String := String.ofList (Nat.toDigits 16 n)

/-- A character as messages about codes show it. -/
def showCode (c : Char) : String :=
  if 32 < c.toNat && c.toNat < 128 then String.singleton c else "\\x" ++ hexText c.toNat

/-- The name of the kind of a value. -/
def kindName (isText : Bool) : String := if isText then "str" else "int"

/-- The longer name of the kind of a value. -/
def kindWord (isText : Bool) : String := if isText then "string" else "integer"

/-- The wording of a fault. -/
def FillError.message : FillError → String
  | .singleOpening => "Single '\x7b' encountered in format string"
  | .singleClosing => "Single '\x7d' encountered in format string"
  | .braceInName => "unexpected '\x7b' in field name"
  | .missingClosing => "expected '\x7d' before end of string"
  | .missingConversion => "end of string while looking for conversion specifier"
  | .afterConversion => "expected ':' after conversion specifier"
  | .unmatchedInLayout => "unmatched '\x7b' in format spec"
  | .unknownConversion c =>
      "Unknown conversion specifier " ++
        (if 32 < c.toNat && c.toNat < 127 then String.singleton c else "\\x" ++ hexText c.toNat)
  | .tooDeep => "Max string recursion exceeded"
  | .tooManyDigits => "Too many decimal digits in format string"
  | .badSelector => "Only '.' or '[' may follow ']' in format field specifier"
  | .emptySelector => "Empty attribute in format string"
  | .unclosedSelector => "Missing ']' in format string"
  | .noPosition index => s!"Replacement index {index} out of range for positional args tuple"
  | .noName name => quoted name
  | .noAttribute => "no such attribute"
  | .noElement => "no such element"
  | .outOfRange => "string index out of range"
  | .manualAfterAutomatic =>
      "cannot switch from automatic field numbering to manual field specification"
  | .automaticAfterManual =>
      "cannot switch from manual field specification to automatic field numbering"
  | .missingPrecision => "Format specifier missing precision"
  | .badLayout layout isText =>
      s!"Invalid format specifier '{layout}' for object of type '{kindName isText}'"
  | .bothSeparators => "Cannot specify both ',' and '_'."
  | .separatorWith separator code => s!"Cannot specify '{separator}' with '{showCode code}'."
  | .unknownCode code isText =>
      s!"Unknown format code '{showCode code}' for object of type '{kindName isText}'"
  | .spaceInText => "Space not allowed in string format specifier"
  | .signInText => "Sign not allowed in string format specifier"
  | .zeroCoercionIn isText =>
      s!"Negative zero coercion (z) not allowed in {kindWord isText} format specifier"
  | .alternateInText => "Alternate form (#) not allowed in string format specifier"
  | .signAlignInText => "'=' alignment not allowed in string format specifier"
  | .precisionInNumber => "Precision not allowed in integer format specifier"
  | .signWithCharacter => "Sign not allowed with integer format specifier 'c'"
  | .alternateWithCharacter => "Alternate form (#) not allowed with integer format specifier 'c'"
  | .separatorWithN separator => s!"Cannot specify '{separator}' with 'n'."
  | .notACharacter => "%c arg not in range(0x110000)"
  | .tooLargeForCharacter => "Python int too large to convert to C long"
  | .tooLargeForDouble => "int too large to convert to float"
  | .precisionTooBig => "precision too big"

/-! ## Layouts -/

/-- How a value is laid out in its field. -/
structure Layout where
  fill : Char := ' '
  align : Char
  sign : Option Char := none
  zeroCoercion : Bool := false
  alternate : Bool := false
  width : Option Nat := none
  separator : Option Char := none
  precision : Option Nat := none
  code : Char
deriving Repr

/-- The marks of alignment. -/
def isAlignment (c : Char) : Bool := c == '<' || c == '>' || c == '=' || c == '^'

/-- Takes one character if it is the given one. -/
def takeChar (c : Char) : List Char → Bool × List Char
  | d :: rest => if d == c then (true, rest) else (false, d :: rest)
  | [] => (false, [])

/-- The largest number that a template may write. -/
def numberBound : Nat := Nat.pow 2 63 - 1

/-- Takes decimal digits of any script, as the number they write. -/
def takeNumber (s : List Char) : Except FillError (Option Nat × List Char) :=
  let digits := s.takeWhile isDecimalDigit
  let n := digits.foldl (fun n c => n * 10 + (decimalValue? c).getD 0) 0
  if digits.isEmpty then .ok (none, s)
  else if n > numberBound then .error .tooManyDigits
  else .ok (some n, s.dropWhile isDecimalDigit)

/-- Fill and alignment at the head of a layout, each if given. -/
def takeAlignment : List Char → Option Char × Option Char × List Char
  | a :: b :: rest =>
      if isAlignment b then (some a, some b, rest)
      else if isAlignment a then (none, some a, b :: rest)
      else (none, none, a :: b :: rest)
  | [a] => if isAlignment a then (none, some a, []) else (none, none, [a])
  | [] => (none, none, [])

/-- The codes that separators between thousands go with. -/
def takesSeparator (separator code : Char) : Bool :=
  "defgEG%F".toList.contains code || (separator == '_' && "boxX".toList.contains code)

/-- Reads a layout for a value of a kind. -/
def readLayout (isText : Bool) (written : List Char) : Except FillError Layout := do
  let (fill?, align?, s) := takeAlignment written
  let (sign, s) := match s with
    | c :: rest => if c == ' ' || c == '+' || c == '-' then (some c, rest) else (none, s)
    | [] => (none, s)
  let (zeroCoercion, s) := takeChar 'z' s
  let (alternate, s) := takeChar '#' s
  let (zero, s) := if fill?.isNone then takeChar '0' s else (false, s)
  let fill := if zero then '0' else fill?.getD ' '
  let align := align?.getD (if isText then '<' else if zero then '=' else '>')
  let (width, s) ← takeNumber s
  let (comma, s) := takeChar ',' s
  let (underscore, s) := takeChar '_' s
  if comma && underscore then throw .bothSeparators
  if underscore && (takeChar ',' s).1 then throw .bothSeparators
  let separator := if comma then some ',' else if underscore then some '_' else none
  let (dot, s) := takeChar '.' s
  let (precision, s) ← if dot then takeNumber s else pure (none, s)
  if dot && precision.isNone then throw .missingPrecision
  let code ← match s with
    | [] => pure (if isText then 's' else 'd')
    | [c] => pure c
    | _ => throw (.badLayout (String.ofList written) isText)
  match separator with
  | some c => unless takesSeparator c code do throw (.separatorWith c code)
  | none => pure ()
  return { fill := fill, align := align, sign := sign, zeroCoercion := zeroCoercion,
           alternate := alternate, width := width, separator := separator,
           precision := precision, code := code }

/-- A body in a field: on the right for `>`, in the middle for `^`, else on
    the left. -/
def pad (l : Layout) (body : List Char) : List Char :=
  let missing := l.width.getD 0 - body.length
  let left := if l.align == '>' then missing else if l.align == '^' then missing / 2 else 0
  List.replicate left l.fill ++ body ++ List.replicate (missing - left) l.fill

/-- Lays out a text. -/
def layoutText (s written : List Char) : Except FillError (List Char) := do
  if written.isEmpty then return s
  let l ← readLayout true written
  if l.code != 's' then throw (.unknownCode l.code true)
  match l.sign with
  | some ' ' => throw .spaceInText
  | some _ => throw .signInText
  | none => pure ()
  if l.zeroCoercion then throw (.zeroCoercionIn true)
  if l.alternate then throw .alternateInText
  if l.align == '=' then throw .signAlignInText
  return pad l (match l.precision with | some n => s.take n | none => s)

/-- Digits with a separator after every so many, counted from the right. -/
def groupDigits (separator : Char) (size : Nat) (digits : List Char) : List Char :=
  (digits.reverse.zipIdx.flatMap fun (c, i) =>
    if i > 0 && i % size == 0 then [separator, c] else [c]).reverse

/-- Digits padded with zeros on the left until they fill a width together
    with their separators. -/
def padDigits (separator : Option Char) (size width : Nat) (digits : List Char) : List Char :=
  let grouped (ds : List Char) := match separator with
    | some c => groupDigits c size ds
    | none => ds
  let rec widen : Nat → List Char → List Char
    | 0, ds => ds
    | n + 1, ds => if (grouped ds).length < width then widen n ('0' :: ds) else ds
  grouped (widen width digits)

/-- The sign that a layout shows. -/
def signText (l : Layout) (isNegative : Bool) : List Char :=
  if isNegative then ['-'] else match l.sign with
    | some '+' => ['+']
    | some ' ' => [' ']
    | _ => []

/-- A number from its parts: what precedes the digits, the digits before the
    point with their separators, and what follows.  Where the layout aligns
    behind the sign, zeros become digits and any other filling stands before
    the digits. -/
def layParts (l : Layout) (size : Nat) (head digits rest : List Char) : List Char :=
  let width := l.width.getD 0
  if l.align == '=' then
    if l.fill == '0' && !digits.isEmpty then
      head ++ padDigits l.separator size (width - (head.length + rest.length)) digits ++ rest
    else
      let body := padDigits l.separator size 0 digits ++ rest
      head ++ List.replicate (width - (head.length + body.length)) l.fill ++ body
  else pad l (head ++ padDigits l.separator size 0 digits ++ rest)

/-- Lays out a number as a character. -/
def layoutCharacter (l : Layout) (n : Int) : Except FillError (List Char) := do
  if l.sign.isSome then throw .signWithCharacter
  if l.alternate then throw .alternateWithCharacter
  if n < -numberBound - 1 || n > numberBound then throw .tooLargeForCharacter
  if n < 0 || n > 0x10FFFF then throw .notACharacter
  return pad { l with align := if l.align == '=' then '>' else l.align } [Char.ofNat n.toNat]

/-- The greatest precision that a layout may ask for. -/
def precisionBound : Nat := Nat.pow 2 31 - 1

/-- Lays out a number as the nearest double. -/
def layoutDouble (l : Layout) (n : Int) : Except FillError (List Char) := do
  let some value := (Decimal.ofQuotient false n.natAbs 1).toNat? | throw .tooLargeForDouble
  let count := l.precision.getD 6
  if precisionBound < count then throw .precisionTooBig
  let mark := if l.code.isUpper then 'E' else 'e'
  let style : Decimal.Style := match l.code.toLower with
    | 'e' => .scientific count
    | 'g' => .general count
    | _ => .fixed count
  let head := signText l (n < 0)
  if l.code == '%' then
    return match (Decimal.ofQuotient false (value * 100) 1).toNat? with
      | some percent =>
          let shown := style.write percent l.alternate mark
          layParts l 3 head shown.whole (shown.rest ++ ['%'])
      | none => layParts l 3 head [] "inf%".toList
  let shown := style.write value l.alternate mark
  return layParts l 3 head shown.whole shown.rest

/-- The codes that ask for a double. -/
def isDoubleCode (c : Char) : Bool := "eEfFgG%".toList.contains c

/-- Lays out a number. -/
def layoutNumber (n : Int) (written : List Char) : Except FillError (List Char) := do
  if written.isEmpty then return (toString n).toList
  let l ← readLayout false written
  if isDoubleCode l.code then layoutDouble l n
  else
    unless "bcdnoxX".toList.contains l.code do throw (.unknownCode l.code false)
    if l.precision.isSome then throw .precisionInNumber
    if l.zeroCoercion then throw (.zeroCoercionIn false)
    if l.code == 'c' then layoutCharacter l n
    else
      let base := if l.code == 'b' then 2 else if l.code == 'o' then 8
        else if l.code == 'x' || l.code == 'X' then 16 else 10
      let plain := Nat.toDigits base n.natAbs
      let digits := if l.code == 'X' then plain.map Char.toUpper else plain
      let mark := if l.alternate && base != 10 then ['0', l.code] else []
      return layParts l (if base == 10 then 3 else 4) (signText l (n < 0) ++ mark) digits []

/-- Lays out a value. -/
def Value.layout (v : Value) (written : List Char) : Except FillError (List Char) :=
  match v with
  | .text s => layoutText s.toList written
  | .number n => layoutNumber n written

/-! ## Fields -/

/-- The parts of a placeholder as written. -/
structure Field where
  name : List Char
  conversion : Option Char
  layout : List Char
deriving Repr

/-- The name of a field and the rest from its terminator on; brackets hide
    terminators, and an opening brace is refused. -/
def takeFieldName (inBrackets : Bool) : List Char → Except FillError (List Char × List Char)
  | [] => .error .missingClosing
  | c :: rest =>
      if inBrackets then do
        let (name, after) ← takeFieldName (c != ']') rest
        return (c :: name, after)
      else if c == '{' then .error .braceInName
      else if c == '}' || c == ':' || c == '!' then .ok ([], c :: rest)
      else do
        let (name, after) ← takeFieldName (c == '[') rest
        return (c :: name, after)

/-- The layout up to the brace that closes the field, at a depth of braces. -/
def takeFieldLayout : Nat → List Char → Except FillError (List Char × List Char)
  | _, [] => .error .unmatchedInLayout
  | depth, c :: rest => do
      if c == '}' && depth == 0 then return ([], rest)
      let depth := if c == '{' then depth + 1 else if c == '}' then depth - 1 else depth
      let (layout, after) ← takeFieldLayout depth rest
      return (c :: layout, after)

/-- The field after an opening brace, and the text behind it. -/
def takeField (s : List Char) : Except FillError (Field × List Char) := do
  let (name, after) ← takeFieldName false s
  match after with
  | '!' :: [] => throw .missingConversion
  | '!' :: c :: '}' :: rest => return (⟨name, some c, []⟩, rest)
  | '!' :: c :: ':' :: rest =>
      let (layout, rest) ← takeFieldLayout 0 rest
      return (⟨name, some c, layout⟩, rest)
  | '!' :: _ :: [] => throw .unmatchedInLayout
  | '!' :: _ :: _ :: _ => throw .afterConversion
  | ':' :: rest =>
      let (layout, rest) ← takeFieldLayout 0 rest
      return (⟨name, none, layout⟩, rest)
  | '}' :: rest => return (⟨name, none, []⟩, rest)
  | _ => throw .missingClosing

/-- A number written as a whole text, if it is one. -/
def wholeNumber? (s : List Char) : Except FillError (Option Nat) :=
  if s.isEmpty || !s.all isDecimalDigit then .ok none
  else do return (← takeNumber s).1

/-- The value that part of a value has under a selector in brackets. -/
def selectElement (v : Value) (selector : List Char) : Except FillError Value := do
  match ← wholeNumber? selector, v with
  | some i, .text s =>
      match s.toList[i]? with
      | some c => return .text (String.singleton c)
      | none => throw .outOfRange
  | _, _ => throw .noElement

/-- The value behind the selectors of a field name. -/
def select : Nat → Value → List Char → Except FillError Value
  | _, v, [] => .ok v
  | 0, v, _ => .ok v
  | fuel + 1, v, '[' :: rest => do
      let selector := rest.takeWhile (· != ']')
      match rest.dropWhile (· != ']') with
      | [] => throw .unclosedSelector
      | _ :: after =>
          if selector.isEmpty then throw .emptySelector
          select fuel (← selectElement v selector) after
  | _ + 1, _, '.' :: rest =>
      if (rest.takeWhile fun c => c != '.' && c != '[').isEmpty then .error .emptySelector
      else .error .noAttribute
  | _ + 1, _, _ :: _ => .error .badSelector

/-- The value that a field names; values have names only, so that every
    number or empty name asks for a position that is not there. -/
def lookUp (values : List (String × Value)) (name : List Char) : Except FillError Value := do
  let isEnd := fun c => c == '.' || c == '['
  let first := name.takeWhile (!isEnd ·)
  let rest := name.dropWhile (!isEnd ·)
  if first.isEmpty then throw (.noPosition 0)
  match ← wholeNumber? first with
  | some i => throw (.noPosition i)
  | none =>
      match values.lookup (String.ofList first) with
      | some v => select rest.length v rest
      | none => throw (.noName (String.ofList first))

/-- A value as a conversion shows it. -/
def convert (v : Value) : Option Char → Except FillError Value
  | none => .ok v
  | some c =>
      let shown (f : String → String) : Value := match v with
        | .text s => .text (f s)
        | .number n => .text (toString n)
      if c == 's' then .ok (shown id)
      else if c == 'r' then .ok (shown quoted)
      else if c == 'a' then .ok (shown quotedAscii)
      else .error (.unknownConversion c)

/-! ## Templates -/

/-- Fills in a template; `depth` bounds the templates inside layouts, and
    `fuel` the characters to read. -/
def fillFrom (values : List (String × Value)) :
    Nat → Nat → List Char → Except FillError (List Char)
  | _, 0, _ => .ok []
  | 0, _ + 1, _ => .error .tooDeep
  | _ + 1, _ + 1, [] => .ok []
  | depth + 1, fuel + 1, c :: rest =>
      if c == '}' then
        match rest with
        | '}' :: after => do return '}' :: (← fillFrom values (depth + 1) fuel after)
        | _ => .error .singleClosing
      else if c == '{' then
        match rest with
        | [] => .error .singleOpening
        | '{' :: after => do return '{' :: (← fillFrom values (depth + 1) fuel after)
        | _ => do
            let (field, after) ← takeField rest
            let v ← lookUp values field.name
            let v ← convert v field.conversion
            let layout ← if field.layout.contains '{'
              then fillFrom values depth fuel field.layout else pure field.layout
            let shown ← v.layout layout
            return shown ++ (← fillFrom values (depth + 1) fuel after)
      else do return c :: (← fillFrom values (depth + 1) fuel rest)

/-- Fills in a template. -/
def fill (values : List (String × Value)) (template : String) : Except FillError String := do
  let s := template.toList
  return String.ofList (← fillFrom values 2 (s.length + 1) s)

end GemBinder.Text.Placeholder
