import GemBinder.Text.Words

/-! # Spellings of types

    A type is given as it is written in a header.  The functions here look at
    a spelling without the accidents of its layout: they drop blanks around
    pointer and reference marks, and qualifiers and marks at the ends. -/

namespace GemBinder.TypeSpelling

open Text

/-! ## Layout -/

/-- Drops the blanks on both sides of every occurrence of a mark; `behind`
    tells whether a mark stands before the text. -/
def tightenFrom (mark : Char) (behind : Bool) : List Char → List Char
  | [] => []
  | c :: rest =>
      if isBlank c then
        if behind || (rest.dropWhile isBlank).head? == some mark
        then tightenFrom mark behind rest
        else c :: tightenFrom mark false rest
      else c :: tightenFrom mark (c == mark) rest

/-- Drops the blanks on both sides of every occurrence of a mark. -/
def tighten (mark : Char) (s : List Char) : List Char :=
  tightenFrom mark false s

/-- Makes one space of every run of spaces. -/
def squeeze : List Char → List Char
  | [] => []
  | c :: rest => if c == ' ' && rest.head? == some ' ' then squeeze rest else c :: squeeze rest

/-- The spelling in its tight layout. -/
def collapse (s : List Char) : List Char :=
  trim (squeeze (tighten '&' (tighten '*' s)))

/-! ## Qualifiers and marks -/

/-- The word that qualifies a type as constant. -/
def constWord : List Char := ['c', 'o', 'n', 's', 't']

/-- Drops one leading qualifier with the blanks behind it. -/
def dropConst (s : List Char) : List Char :=
  let rest := s.drop constWord.length
  if constWord.isPrefixOf s && rest.head?.any isBlank then rest.dropWhile isBlank else s

/-- Drops one qualifier at the end with the blanks before it. -/
def dropConstEnd (s : List Char) : List Char :=
  match dropSuffix? constWord s with
  | some front => if front.getLast?.any isBlank then trimEnd front else s
  | none => s

/-- Whether a spelling ends in a mark. -/
def endsIn (mark : Char) (s : List Char) : Bool := s.getLast? == some mark

/-- Whether a spelling ends in a double reference mark. -/
def isRvalue (s : List Char) : Bool := ['&', '&'].isSuffixOf s

/-- The type without a leading qualifier and without a reference mark at the
    end; pointer marks stay. -/
def normalize (s : List Char) : List Char :=
  let s := dropConst (collapse s)
  trim (if endsIn '&' s then s.dropLast else s)

/-- The name that a reference refers to. -/
def referenceBase (s : List Char) : List Char :=
  dropConstEnd (trim (trimEndWhere (· == '&') (dropConst (collapse s))))

/-- Words that qualify the element of a pointer. -/
def isQualifier (word : List Char) : Bool :=
  word == constWord || word == ['v', 'o', 'l', 'a', 't', 'i', 'l', 'e']

/-- The type that a pointer points to. -/
def pointerElement (s : List Char) : List Char :=
  let element := trim (trimEndWhere (· == '*') (collapse s))
  trimEndWhere (· == '*')
    (joinWith [' '] ((words element).filter (!isQualifier ·)))

/-- The type of a copy: without a single reference mark at the end. -/
def byValue (s : List Char) : List Char :=
  let t := trim s
  if endsIn '&' t && !isRvalue t then trimEnd t.dropLast else t

/-! ## Fragments of names -/

/-- Writes an underscore for each scope mark, angle bracket and comma. -/
def underscoreMarks : List Char → List Char
  | [] => []
  | ':' :: ':' :: rest => '_' :: underscoreMarks rest
  | c :: rest =>
      (if c == '<' || c == '>' || c == ',' then '_' else c) :: underscoreMarks rest

/-- The lower case of an ASCII letter. -/
def lowerAscii (c : Char) : Char :=
  if 'A' ≤ c && c ≤ 'Z' then Char.ofNat (c.toNat + 32) else c

/-- The spelling as part of a C identifier: without a leading qualifier and
    marks at the end, with underscores for the marks inside. -/
def nameFragment (s : List Char) : List Char :=
  let t := trimEndWhere (fun c => c == '&' || c == '*' || isBlank c) (dropConst (trim s))
  ((underscoreMarks (t.filter (!isBlank ·))).filter isIdentifierChar).map lowerAscii

/-! ## Strings -/

/-- `normalize` of a string. -/
def normalizeString (s : String) : String := String.ofList (normalize s.toList)

/-- `byValue` of a string. -/
def byValueString (s : String) : String := String.ofList (byValue s.toList)

/-- `nameFragment` of a string. -/
def nameFragmentString (s : String) : String := String.ofList (nameFragment s.toList)

end GemBinder.TypeSpelling
