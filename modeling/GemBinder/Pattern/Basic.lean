import GemBinder.Text.Quoted
import GemBinder.Text.Lines

/-! # Search patterns

    The patterns by which type rules recognise names: literals, classes,
    anchors, groups, repetition in three manners, back references and
    lookaround.  This module holds their tree and the faults that reading
    one can meet; `GemBinder.Pattern.Reader` reads the written form and
    `GemBinder.Pattern.Search` finds matches. -/

namespace GemBinder.Pattern

/-! ## The tree -/

/-- The modes a pattern is matched in. -/
structure Modes where
  ignoreCase : Bool := false
  multiLine : Bool := false
  dotAll : Bool := false
  verbose : Bool := false
  ascii : Bool := false
deriving Repr, DecidableEq

/-- The modes of either. -/
def Modes.union (a b : Modes) : Modes where
  ignoreCase := a.ignoreCase || b.ignoreCase
  multiLine := a.multiLine || b.multiLine
  dotAll := a.dotAll || b.dotAll
  verbose := a.verbose || b.verbose
  ascii := a.ascii || b.ascii

/-- The modes of the first that the second lacks. -/
def Modes.without (a b : Modes) : Modes where
  ignoreCase := a.ignoreCase && !b.ignoreCase
  multiLine := a.multiLine && !b.multiLine
  dotAll := a.dotAll && !b.dotAll
  verbose := a.verbose && !b.verbose
  ascii := a.ascii && !b.ascii

/-- The named classes of characters. -/
inductive NamedClass where
  | word
  | digit
  | blank
deriving Repr, DecidableEq

/-- One member of a bracketed class. -/
inductive ClassItem where
  | char (c : Char)
  | range (lo hi : Char)
  | named (k : NamedClass) (negated : Bool)
deriving Repr, DecidableEq

/-- Conditions on a position. -/
inductive Anchor where
  | lineStart
  | lineEnd
  | textStart
  | textEnd
  | boundary
  | notBoundary
deriving Repr, DecidableEq

/-- The order in which counts of a repetition are tried: many first, few
    first, or many without return. -/
inductive Manner where
  | greedy
  | lazy
  | possessive
deriving Repr, DecidableEq

/-- A pattern. -/
inductive Node where
  | empty
  | char (c : Char)
  | any
  | set (negated : Bool) (items : List ClassItem)
  | anchor (a : Anchor)
  | cat (first second : Node)
  | alt (first second : Node)
  | capture (index : Nat) (body : Node)
  | scoped (added dropped : Modes) (body : Node)
  | times (manner : Manner) (least : Nat) (most : Option Nat) (body : Node)
  | backref (index : Nat)
  | ahead (negated : Bool) (body : Node)
  | behind (negated : Bool) (width : Nat) (body : Node)
  | atomic (body : Node)
  | ifGroup (index : Nat) (yes no : Node)
deriving Repr, Inhabited

/-- The nodes in order. -/
def Node.sequence : List Node → Node
  | [] => .empty
  | [n] => n
  | n :: more => .cat n (Node.sequence more)

/-- The nodes as alternatives, the first preferred. -/
def Node.choice : List Node → Node
  | [] => .empty
  | [n] => n
  | n :: more => .alt n (Node.choice more)

/-! ## Faults of the written form -/

/-- What can be wrong with a written pattern. -/
inductive Fault where
  | danglingBackslash
  | badEscape (text : String)
  | incompleteEscape (text : String)
  | octalOutOfRange (text : String)
  | missing (what : String)
  | unterminatedName (terminator : String)
  | badNameCharacter (name : String)
  | unknownGroupName (name : String)
  | undefinedCharacterName (name : String)
  | redefinedGroup (name : String) (index previous : Nat)
  | openGroup
  | lookbehindGroup
  | invalidReference (index : Nat)
  | badGroupNumber
  | unterminatedClass
  | badRange (text : String)
  | minAboveMax
  | nothingToRepeat
  | multipleRepeat
  | unexpectedEnd
  | unknownExtension (text : String)
  | unterminatedComment
  | unterminatedGroup
  | tooManyBranches
  | lateModes
  | localeMode
  | incompatibleModes
  | unknownFlag
  | turnOnGlobal
  | turnOffGlobal
  | turnOffType
  | onAndOff
  | unbalanced
deriving Repr, DecidableEq

/-- The wording of a fault. -/
def Fault.message : Fault → String
  | .danglingBackslash => "bad escape (end of pattern)"
  | .badEscape text => s!"bad escape {text}"
  | .incompleteEscape text => s!"incomplete escape {text}"
  | .octalOutOfRange text => s!"octal escape value {text} outside of range 0-0o377"
  | .missing what => s!"missing {what}"
  | .unterminatedName terminator => s!"missing {terminator}, unterminated name"
  | .badNameCharacter name => s!"bad character in group name {Text.quoted name}"
  | .unknownGroupName name => s!"unknown group name {Text.quoted name}"
  | .undefinedCharacterName name => s!"undefined character name {Text.quoted name}"
  | .redefinedGroup name index previous =>
      s!"redefinition of group name {Text.quoted name} as group {index}; was group {previous}"
  | .openGroup => "cannot refer to an open group"
  | .lookbehindGroup => "cannot refer to group defined in the same lookbehind subpattern"
  | .invalidReference index => s!"invalid group reference {index}"
  | .badGroupNumber => "bad group number"
  | .unterminatedClass => "unterminated character set"
  | .badRange text => s!"bad character range {text}"
  | .minAboveMax => "min repeat greater than max repeat"
  | .nothingToRepeat => "nothing to repeat"
  | .multipleRepeat => "multiple repeat"
  | .unexpectedEnd => "unexpected end of pattern"
  | .unknownExtension text => s!"unknown extension {text}"
  | .unterminatedComment => "missing ), unterminated comment"
  | .unterminatedGroup => "missing ), unterminated subpattern"
  | .tooManyBranches => "conditional backref with more than two branches"
  | .lateModes => "global flags not at the start of the expression"
  | .localeMode => "bad inline flags: cannot use 'L' flag with a str pattern"
  | .incompatibleModes => "bad inline flags: flags 'a', 'u' and 'L' are incompatible"
  | .unknownFlag => "unknown flag"
  | .turnOnGlobal => "bad inline flags: cannot turn on global flag"
  | .turnOffGlobal => "bad inline flags: cannot turn off global flag"
  | .turnOffType => "bad inline flags: cannot turn off flags 'a', 'u' and 'L'"
  | .onAndOff => "bad inline flags: flag turned on and off"
  | .unbalanced => "unbalanced parenthesis"

/-- Why a written pattern was refused: a fault at a position, a lookbehind
    without a fixed width, or a repetition count or a nesting of groups beyond
    all bounds. -/
inductive ReadError where
  | fault (f : Fault) (position : Nat)
  | widthNotFixed
  | countTooLarge
  | tooDeep
deriving Repr, DecidableEq

/-- A fault with its position in the written text; a text of several lines
    gets line and column as well. -/
def placedMessage (f : Fault) (s : List Char) (position : Nat) : String :=
  let base := s!"{f.message} at position {position}"
  if s.contains '\n' then
    let place := Text.lineAndColumn s position
    s!"{base} (line {place.1}, column {place.2})"
  else base

/-- The wording of an error about a written pattern. -/
def ReadError.message (s : List Char) : ReadError → String
  | .fault f position => placedMessage f s position
  | .widthNotFixed => "look-behind requires fixed-width pattern"
  | .countTooLarge => "the repetition number is too large"
  | .tooDeep => "groups are nested too deeply"

end GemBinder.Pattern
