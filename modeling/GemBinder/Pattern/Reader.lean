import GemBinder.Pattern.Basic

/-! # Reading search patterns

    A recursive descent reader.  It looks one token ahead, a token being a
    character or a backslash with the character after it, so that a lone
    backslash at the end is reported as soon as it comes into view.  Every
    call spends one unit of fuel, and `read?` grants more than a text of its
    length can use. -/

namespace GemBinder.Pattern

/-! ## Tokens -/

/-- A character, or a backslash with the character it escapes. -/
inductive Token where
  | plain (c : Char)
  | escape (c : Char)
deriving Repr, DecidableEq

/-- The characters of a token. -/
def Token.text : Token → List Char
  | .plain c => [c]
  | .escape c => ['\\', c]

/-- The unread part of a pattern and its position. -/
structure Source where
  rest : List Char
  position : Nat
deriving Repr

/-- The next token. -/
def Source.peek (s : Source) : Option Token :=
  match s.rest with
  | [] => none
  | '\\' :: c :: _ => some (.escape c)
  | c :: _ => some (.plain c)

/-- The source behind its next token, without a look ahead. -/
def Source.skip (s : Source) : Source :=
  match s.rest with
  | [] => s
  | '\\' :: _ :: rest => ⟨rest, s.position + 2⟩
  | _ :: rest => ⟨rest, s.position + 1⟩

/-- A source whose next token can be looked at. -/
def Source.checked (s : Source) : Except ReadError Source :=
  if s.rest == ['\\'] then .error (.fault .danglingBackslash s.position) else .ok s

/-! ## The state of a reader -/

/-- The least and greatest number of characters a pattern matches. -/
structure Width where
  least : Nat
  most : Nat
deriving Repr, DecidableEq

/-- A width that stands for all larger ones. -/
def Width.bound : Nat := Nat.pow 2 64

/-- What a reader knows: the unread text, the global modes, the groups with
    their widths once closed, their names, the number of groups before the
    outermost open lookbehind, the conditional references to check, and how many
    more groups can be gone into. -/
structure Progress where
  source : Source
  modes : Modes := {}
  groups : List (Option Width) := [none]
  names : List (String × Nat) := []
  lookbehind : Option Nat := none
  conditions : List (Nat × Nat) := []
  room : Nat

/-- Reading with progress and errors. -/
abbrev Reading := StateT Progress (Except ReadError)

/-- The position of the next token. -/
def tell : Reading Nat := do return (← get).source.position

/-- A fault at a number of characters before the next token. -/
def failAt {α : Type} (f : Fault) (back : Nat) : Reading α := do
  throw (.fault f ((← tell) - back))

/-- The next token. -/
def peek : Reading (Option Token) := do return (← get).source.peek

/-- Takes the next token. -/
def take : Reading (Option Token) := do
  let p ← get
  let source ← p.source.skip.checked
  set { p with source := source }
  return p.source.peek

/-- Goes back to an earlier source. -/
def seek (source : Source) : Reading Unit :=
  modify fun p => { p with source := source }

/-- Takes the next token if it is the given character. -/
def accept (c : Char) : Reading Bool := do
  if (← peek) == some (.plain c) then
    let _ ← take
    return true
  else return false

/-- Whether a token is an unescaped character of a class. -/
def Token.isIn (p : Char → Bool) : Token → Bool
  | .plain c => p c
  | .escape _ => false

/-- Takes up to `n` characters of a class. -/
def takeWhileIn (p : Char → Bool) : Nat → Reading (List Char)
  | 0 => return []
  | n + 1 => do
      match ← peek with
      | some (.plain c) =>
          if p c then
            let _ ← take
            return c :: (← takeWhileIn p n)
          else return []
      | _ => return []

/-- Takes characters up to a terminator, which is taken too. -/
def takeUntil (terminator : Char) (what : String) : Nat → List Char → Reading (List Char)
  | 0, _ => failAt (.missing what) 0
  | fuel + 1, found => do
      match ← take with
      | none =>
          if found.isEmpty then failAt (.missing what) 0
          else failAt (.unterminatedName (String.singleton terminator)) found.length
      | some token =>
          if token == .plain terminator then
            if found.isEmpty then failAt (.missing what) 1 else return found
          else takeUntil terminator what fuel (found ++ token.text)

/-! ## Escapes -/

/-- What an escape stands for. -/
inductive Escaped where
  | code (n : Nat)
  | named (k : NamedClass) (negated : Bool)
  | anchor (a : Anchor)
  | backref (index : Nat)
deriving Repr

/-- The code of an escaped control character. -/
def controlCode? : Char → Option Nat
  | 'a' => some 7
  | 'b' => some 8
  | 'f' => some 12
  | 'n' => some 10
  | 'r' => some 13
  | 't' => some 9
  | 'v' => some 11
  | '\\' => some 92
  | _ => none

/-- The class that an escaped letter names. -/
def namedClass? : Char → Option (NamedClass × Bool)
  | 'd' => some (.digit, false)
  | 'D' => some (.digit, true)
  | 's' => some (.blank, false)
  | 'S' => some (.blank, true)
  | 'w' => some (.word, false)
  | 'W' => some (.word, true)
  | _ => none

/-- The anchor that an escaped letter names. -/
def anchor? : Char → Option Anchor
  | 'A' => some .textStart
  | 'Z' => some .textEnd
  | 'b' => some .boundary
  | 'B' => some .notBoundary
  | _ => none

/-- Hexadecimal digits. -/
def isHexDigit (c : Char) : Bool :=
  Text.isAsciiDigit c || ('a' ≤ c && c ≤ 'f') || ('A' ≤ c && c ≤ 'F')

/-- Octal digits. -/
def isOctalDigit (c : Char) : Bool := '0' ≤ c && c ≤ '7'

/-- The value of a hexadecimal digit. -/
def hexValue (c : Char) : Nat :=
  if Text.isAsciiDigit c then c.toNat - 48
  else if 'a' ≤ c then c.toNat - 87
  else c.toNat - 55

/-- The number that digits of a base write. -/
def digitsValue (base : Nat) (digits : List Char) : Nat :=
  digits.foldl (fun n c => n * base + hexValue c) 0

/-- A written escape, as text. -/
def escapeText (c : Char) (digits : List Char) : String :=
  String.ofList ('\\' :: c :: digits)

/-- Hexadecimal escapes of a fixed number of digits. -/
def readHexEscape (c : Char) (count : Nat) : Reading Escaped := do
  let digits ← takeWhileIn isHexDigit count
  if digits.length != count then
    failAt (.incompleteEscape (escapeText c digits)) (digits.length + 2)
  else if digitsValue 16 digits > 0x10FFFF then
    failAt (.badEscape (escapeText c digits)) (digits.length + 2)
  else return .code (digitsValue 16 digits)

/-- The escapes that mean the same inside and outside of a class; `none` if
    the escaped character starts none of them. -/
def readCodeEscape? (fuel : Nat) (c : Char) : Reading (Option Escaped) := do
  match c with
  | 'x' => return some (← readHexEscape c 2)
  | 'u' => return some (← readHexEscape c 4)
  | 'U' => return some (← readHexEscape c 8)
  | 'N' =>
      if ← accept '{' then
        let name ← takeUntil '}' "character name" fuel []
        failAt (.undefinedCharacterName (String.ofList name)) (name.length + 4)
      else failAt (.missing "\x7b") 0
  | _ => return none

/-- An escape that has no meaning of its own stands for its character,
    unless that is a letter. -/
def plainEscape (c : Char) : Reading Escaped := do
  if Text.isAsciiLetter c then failAt (.badEscape (escapeText c [])) 2
  else return .code c.toNat

/-- An octal escape that went on for some digits. -/
def octalEscape (c : Char) (digits : List Char) : Reading Escaped := do
  let n := digitsValue 8 (c :: digits)
  if n > 255 then failAt (.octalOutOfRange (escapeText c digits)) (digits.length + 2)
  else return .code n

/-- An escape inside a class. -/
def readClassEscape (fuel : Nat) (c : Char) : Reading Escaped := do
  match controlCode? c, namedClass? c with
  | some n, _ => return .code n
  | none, some (k, negated) => return .named k negated
  | none, none =>
      match ← readCodeEscape? fuel c with
      | some e => return e
      | none =>
          if isOctalDigit c then octalEscape c (← takeWhileIn isOctalDigit 2)
          else if Text.isAsciiDigit c then failAt (.badEscape (escapeText c [])) 2
          else plainEscape c

/-- Whether a group exists and is closed. -/
def isClosed (index : Nat) : Reading Bool := do
  return ((← get).groups[index]?.join).isSome

/-- Inside a lookbehind only groups from before it can be referred to. -/
def checkLookbehindGroup (index : Nat) : Reading Unit := do
  match (← get).lookbehind with
  | none => return ()
  | some before =>
      unless ← isClosed index do failAt .openGroup 0
      if index ≥ before then failAt .lookbehindGroup 0

/-- A reference to a group by number, written in so many characters. -/
def readReference (index written : Nat) : Reading Escaped := do
  if index < (← get).groups.length then
    unless ← isClosed index do failAt .openGroup written
    checkLookbehindGroup index
    return .backref index
  else failAt (.invalidReference index) (written - 1)

/-- An escape outside of a class. -/
def readEscape (fuel : Nat) (c : Char) : Reading Escaped := do
  match namedClass? c, anchor? c, controlCode? c with
  | some (k, negated), _, _ => return .named k negated
  | _, some a, _ => return .anchor a
  | _, _, some n => return .code n
  | none, none, none =>
      match ← readCodeEscape? fuel c with
      | some e => return e
      | none =>
          if c == '0' then
            let digits ← takeWhileIn isOctalDigit 2
            return .code (digitsValue 8 digits)
          else if Text.isAsciiDigit c then
            match ← takeWhileIn Text.isAsciiDigit 1 with
            | [] => readReference (digitsValue 10 [c]) 2
            | d :: _ =>
                let third ← match ← peek with
                  | some (.plain e) => pure (if isOctalDigit e then some e else none)
                  | _ => pure none
                match third with
                | some e =>
                    if isOctalDigit c && isOctalDigit d then
                      let _ ← take
                      octalEscape c [d, e]
                    else readReference (digitsValue 10 [c, d]) 3
                | none => readReference (digitsValue 10 [c, d]) 3
          else plainEscape c

/-- A code as a node; a code that is no character matches nothing. -/
def codeNode (n : Nat) : Node :=
  if n.isValidChar then .char (Char.ofNat n) else .set false []

/-! ## Classes -/

/-- A member of a class, before it is known whether a range follows. -/
def classItem : Escaped → ClassItem
  | .code n => .char (Char.ofNat n)
  | .named k negated => .named k negated
  | .anchor _ => .char '\\'
  | .backref _ => .char '\\'

/-- One token of a class, as what it stands for. -/
def readClassToken (fuel : Nat) : Token → Reading Escaped
  | .plain c => return .code c.toNat
  | .escape c => readClassEscape fuel c

/-- The members of a class up to its bracket; `here` is where it opened. -/
def readClassItems (here : Nat) : Nat → List ClassItem → Reading (List ClassItem)
  | 0, _ => failAt .unterminatedClass 0
  | fuel + 1, found => do
      match ← take with
      | none => failAt .unterminatedClass ((← tell) - here)
      | some first =>
          if first == .plain ']' && !found.isEmpty then return found
          else
            let low ← readClassToken fuel first
            if ← accept '-' then
              match ← take with
              | none => failAt .unterminatedClass ((← tell) - here)
              | some second =>
                  if second == .plain ']' then
                    return found ++ [classItem low, .char '-']
                  else
                    let high ← readClassToken fuel second
                    let text := String.ofList (first.text ++ ['-'] ++ second.text)
                    let back := first.text.length + 1 + second.text.length
                    match low, high with
                    | .code lo, .code hi =>
                        if hi < lo then failAt (.badRange text) back
                        else
                          readClassItems here fuel
                            (found ++ [.range (Char.ofNat lo) (Char.ofNat hi)])
                    | _, _ => failAt (.badRange text) back
            else readClassItems here fuel (found ++ [classItem low])

/-! ## Modes -/

/-- The mode a letter names; some letters name no mode that matters. -/
def mode? : Char → Option Modes
  | 'i' => some { ignoreCase := true }
  | 'L' => some {}
  | 'm' => some { multiLine := true }
  | 's' => some { dotAll := true }
  | 'x' => some { verbose := true }
  | 'a' => some { ascii := true }
  | 't' => some {}
  | 'u' => some {}
  | _ => none

/-- The letters of the alphabet modes. -/
def isTypeMode (c : Char) : Bool := c == 'a' || c == 'u' || c == 'L'

/-- The fault of a character that is no mode letter. -/
def notAMode (token : Token) (otherwise : String) : Fault :=
  match token with
  | .plain c => if Text.isWordChar c && c != '_' && !Text.isDecimalDigit c
      then .unknownFlag else .missing otherwise
  | .escape _ => .missing otherwise

/-- The letters of a group of modes that are turned on, from a first one;
    the result ends with the token behind them. -/
def readModesOn : Nat → Char → List Char → Reading (List Char × Char)
  | 0, _, _ => failAt .unexpectedEnd 0
  | fuel + 1, c, found => do
      if c == 'L' then failAt .localeMode 0
      let found := found ++ [c]
      if isTypeMode c && found.any (fun d => isTypeMode d && d != c) then
        failAt .incompatibleModes 0
      match ← take with
      | none => failAt (.missing "-, : or )") 0
      | some token =>
          match token with
          | .plain d =>
              if d == ')' || d == '-' || d == ':' then return (found, d)
              else if (mode? d).isSome then readModesOn fuel d found
              else failAt (notAMode token "-, : or )") 1
          | .escape _ => failAt (notAMode token "-, : or )") 2

/-- The letters of modes that are turned off, from a first one. -/
def readModesOff : Nat → Char → List Char → Reading (List Char)
  | 0, _, _ => failAt .unexpectedEnd 0
  | fuel + 1, c, found => do
      if isTypeMode c then failAt .turnOffType 0
      let found := found ++ [c]
      match ← take with
      | none => failAt (.missing ":") 0
      | some token =>
          match token with
          | .plain d =>
              if d == ':' then return found
              else if (mode? d).isSome then readModesOff fuel d found
              else failAt (notAMode token ":") 1
          | .escape _ => failAt (notAMode token ":") 2

/-- The modes that letters name together. -/
def modesOf (letters : List Char) : Modes :=
  letters.foldl (fun m c => m.union ((mode? c).getD {})) {}

/-- A group of mode letters after its first one: `none` if they hold for
    the whole pattern, else what is turned on and off inside the group. -/
def readModes (fuel : Nat) (first : Char) : Reading (Option (Modes × Modes)) := do
  let (on, stop) ← if first == '-' then pure ([], '-') else readModesOn fuel first []
  if stop == ')' then
    modify fun p => { p with modes := p.modes.union (modesOf on) }
    return none
  if on.contains 't' then failAt .turnOnGlobal 1
  let off ← if stop == '-' then
      match ← take with
      | none => failAt (.missing "flag") 0
      | some token =>
          match token with
          | .plain d =>
              if (mode? d).isSome then readModesOff fuel d []
              else failAt (notAMode token "flag") 1
          | .escape _ => failAt (notAMode token "flag") 2
    else pure []
  if off.contains 't' then failAt .turnOffGlobal 1
  if off.any on.contains then failAt .onAndOff 1
  return some (modesOf on, modesOf off)

/-! ## Widths -/

/-- The width of a pattern, given those of the closed groups. -/
def width (groups : List (Option Width)) : Node → Width
  | .empty | .anchor _ | .ahead _ _ | .behind _ _ _ => ⟨0, 0⟩
  | .char _ | .any | .set _ _ => ⟨1, 1⟩
  | .cat a b =>
      let wa := width groups a
      let wb := width groups b
      ⟨min (wa.least + wb.least) Width.bound, min (wa.most + wb.most) Width.bound⟩
  | .alt a b =>
      let wa := width groups a
      let wb := width groups b
      ⟨min wa.least wb.least, max wa.most wb.most⟩
  | .capture _ n | .scoped _ _ n | .atomic n => width groups n
  | .times _ least most n =>
      let w := width groups n
      let greatest := match most with
        | none => if w.most == 0 then 0 else Width.bound
        | some m => min (w.most * m) Width.bound
      ⟨min (w.least * least) Width.bound, greatest⟩
  | .backref i => (groups[i]?.join).getD ⟨0, 0⟩
  | .ifGroup _ yes no =>
      let wy := width groups yes
      let wn := width groups no
      ⟨min wy.least wn.least, max wy.most wn.most⟩

/-- Whether every lookbehind of a pattern has a fixed width; its parts are
    checked too. -/
def widthsFixed (groups : List (Option Width)) : Node → Bool
  | .empty | .anchor _ | .char _ | .any | .set _ _ | .backref _ => true
  | .cat a b | .alt a b | .ifGroup _ a b => widthsFixed groups a && widthsFixed groups b
  | .capture _ n | .scoped _ _ n | .atomic n | .times _ _ _ n | .ahead _ n =>
      widthsFixed groups n
  | .behind _ _ n =>
      let w := width groups n
      w.least == w.most && widthsFixed groups n

/-! ## Repetition -/

/-- Digits of a repetition count. -/
def readCount (fuel : Nat) : Reading (List Char) := takeWhileIn Text.isAsciiDigit fuel

/-- The largest repetition count and one more. -/
def countBound : Nat := 4294967295

/-- The counts between braces, after the opening one; `none` if this is no
    repetition, and then nothing is taken. -/
def readBraces? (fuel here : Nat) : Reading (Option (Nat × Option Nat)) := do
  let start := (← get).source
  if (← peek) == some (.plain '}') then return none
  let low ← readCount fuel
  let high ← if ← accept ',' then readCount fuel else pure low
  if ← accept '}' then
    let least := digitsValue 10 low
    if least ≥ countBound then throw .countTooLarge
    if high.isEmpty then return some (least, none)
    let most := digitsValue 10 high
    if most ≥ countBound then throw .countTooLarge
    if most < least then failAt .minAboveMax ((← tell) - here)
    return some (least, some most)
  else
    seek start
    return none

/-- Whether a node is a position, which cannot be repeated. -/
def Node.isAnchor : Node → Bool
  | .anchor _ => true
  | _ => false

/-- Whether a node is a repetition, which cannot be repeated again. -/
def Node.isTimes : Node → Bool
  | .times .. => true
  | _ => false

/-- The counts of the one-character repetitions. -/
def counts? : Char → Option (Nat × Option Nat)
  | '?' => some (0, some 1)
  | '*' => some (0, none)
  | '+' => some (1, none)
  | _ => none

/-- Puts a repetition around the last of the nodes found, which are kept in
    reverse; `here` is where the repetition began. -/
def repeatLast (here : Nat) (least : Nat) (most : Option Nat) (found : List Node) :
    Reading (List Node) := do
  match found with
  | [] => failAt .nothingToRepeat ((← tell) - here + 1)
  | last :: before =>
      if last.isAnchor then failAt .nothingToRepeat ((← tell) - here + 1)
      if last.isTimes then failAt .multipleRepeat ((← tell) - here + 1)
      let lazy ← accept '?'
      let possessive ← if lazy then pure false else accept '+'
      let manner : Manner := if lazy then .lazy else if possessive then .possessive else .greedy
      return .times manner least most last :: before

/-! ## Groups -/

/-- Whether a text can name a group. -/
def isGroupName (s : List Char) : Bool :=
  match s with
  | [] => false
  | c :: _ => !Text.isDecimalDigit c && s.all Text.isWordChar

/-- A group name up to its terminator. -/
def readName (terminator : Char) (fuel : Nat) : Reading String := do
  let name ← takeUntil terminator "group name" fuel []
  unless isGroupName name do
    failAt (.badNameCharacter (String.ofList name)) (name.length + 1)
  return String.ofList name

/-- The index of a named group. -/
def namedGroup? (name : String) : Reading (Option Nat) := do
  return (← get).names.lookup name

/-- Opens a group, named or not, and answers its index. -/
def openGroup (name : Option String) : Reading Nat := do
  let p ← get
  let index := p.groups.length
  match name with
  | none => set { p with groups := p.groups ++ [none] }
  | some n =>
      match p.names.lookup n with
      | some previous => failAt (.redefinedGroup n index previous) (n.length + 1)
      | none => set { p with groups := p.groups ++ [none], names := (n, index) :: p.names }
  return index

/-- Closes a group whose body has been read. -/
def closeGroup (index : Nat) (body : Node) : Reading Unit :=
  modify fun p => { p with groups := p.groups.set index (some (width p.groups body)) }

/-- Goes into a group behind its head. -/
def enterGroup : Reading Unit := do
  let p ← get
  match p.room with
  | 0 => throw .tooDeep
  | room + 1 => set { p with room := room }

/-- The closing parenthesis of a group that opened at a position. -/
def closeParen (start : Nat) : Reading Unit := do
  unless ← accept ')' do failAt .unterminatedGroup ((← tell) - start)
  modify fun p => { p with room := p.room + 1 }

/-- Skips a comment that opened at a position. -/
def skipComment (start : Nat) : Nat → Reading Unit
  | 0 => failAt .unterminatedComment 0
  | fuel + 1 => do
      match ← take with
      | none => failAt .unterminatedComment ((← tell) - start)
      | some token => unless token == .plain ')' do skipComment start fuel

/-- Skips a comment of the verbose mode. -/
def skipLine : Nat → Reading Unit
  | 0 => return ()
  | fuel + 1 => do
      match ← take with
      | none => return ()
      | some token => unless token == .plain '\n' do skipLine fuel

/-- What the beginning of a group says about it. -/
inductive GroupHead where
  | capture (name : Option String)
  | modes (added dropped : Modes)
  | atomic
  | ahead (negated : Bool)
  | behind (negated : Bool)
  | condition (index : Nat)
  | named (index : Nat)
  | nothing
  | globalModes

/-- The decimal number that a text of digits writes. -/
def decimalNumber? (s : List Char) : Option Nat :=
  if s.isEmpty || !s.all Text.isDecimalDigit then none
  else some (s.foldl (fun n c => n * 10 + (Text.decimalValue? c).getD 0) 0)

/-- The group that a condition asks for, by name or by number. -/
def readCondition (fuel : Nat) : Reading Nat := do
  let name ← takeUntil ')' "group name" fuel []
  let index ←
    if isGroupName name then
      match ← namedGroup? (String.ofList name) with
      | some i => pure i
      | none => failAt (.unknownGroupName (String.ofList name)) (name.length + 1)
    else
      match decimalNumber? name with
      | none => failAt (.badNameCharacter (String.ofList name)) (name.length + 1)
      | some 0 => failAt .badGroupNumber (name.length + 1)
      | some i => do
          let place := (← tell) - name.length - 1
          modify fun p =>
            if p.conditions.any (·.1 == i) then p
            else { p with conditions := p.conditions ++ [(i, place)] }
          pure i
  checkLookbehindGroup index
  return index

/-- The extension of a group that starts with a question mark and a `P`. -/
def readNamedHead (fuel : Nat) : Reading GroupHead := do
  if ← accept '<' then
    return .capture (some (← readName '>' fuel))
  else if ← accept '=' then
    let name ← readName ')' fuel
    match ← namedGroup? name with
    | none => failAt (.unknownGroupName name) (name.length + 1)
    | some index =>
        unless ← isClosed index do failAt .openGroup (name.length + 1)
        checkLookbehindGroup index
        return .named index
  else
    match ← take with
    | none => failAt .unexpectedEnd 0
    | some token =>
        failAt (.unknownExtension ("?P" ++ String.ofList token.text)) (token.text.length + 2)

/-- The beginning of a group that opened at `start`, after its parenthesis;
    `atStart` tells whether modes for the whole pattern may stand here. -/
def readGroupHead (fuel start : Nat) (atStart : Bool) : Reading GroupHead := do
  unless ← accept '?' do return .capture none
  match ← take with
  | none => failAt .unexpectedEnd 0
  | some (.plain 'P') => readNamedHead fuel
  | some (.plain ':') => return .modes {} {}
  | some (.plain '#') =>
      skipComment start fuel
      return .nothing
  | some (.plain '=') => return .ahead false
  | some (.plain '!') => return .ahead true
  | some (.plain '<') =>
      match ← take with
      | none => failAt .unexpectedEnd 0
      | some (.plain '=') => return .behind false
      | some (.plain '!') => return .behind true
      | some token =>
          failAt (.unknownExtension ("?<" ++ String.ofList token.text)) (token.text.length + 2)
  | some (.plain '(') => return .condition (← readCondition fuel)
  | some (.plain '>') => return .atomic
  | some token =>
      match token with
      | .plain c =>
          if (mode? c).isSome || c == '-' then
            match ← readModes fuel c with
            | some (added, dropped) => return .modes added dropped
            | none =>
                unless atStart do failAt .lateModes ((← tell) - start)
                return .globalModes
          else failAt (.unknownExtension (String.ofList ['?', c])) 2
      | .escape c => failAt (.unknownExtension (String.ofList ['?', '\\', c])) 3

/-! ## Alternatives and sequences -/

mutual

/-- Alternatives up to a closing parenthesis or the end; `nested` is false
    for the whole pattern. -/
def readChoice (verbose nested : Bool) (done : List Node) : Nat → Reading Node
  | 0 => failAt .unexpectedEnd 0
  | fuel + 1 => do
      let item ← readSequence verbose (!nested && done.isEmpty) [] fuel
      if ← accept '|' then
        let progress ← get
        let verbose := if nested then verbose else progress.modes.verbose
        readChoice verbose nested (done ++ [item]) fuel
      else return Node.choice (done ++ [item])

/-- A sequence of repeated items; those found are kept in reverse. -/
def readSequence (verbose first : Bool) (found : List Node) : Nat → Reading Node
  | 0 => failAt .unexpectedEnd 0
  | fuel + 1 => do
      match ← peek with
      | none => return Node.sequence found.reverse
      | some (.plain '|') => return Node.sequence found.reverse
      | some (.plain ')') => return Node.sequence found.reverse
      | some token =>
          let _ ← take
          match token with
          | .escape c =>
              let node ← match ← readEscape fuel c with
                | .code n => pure (codeNode n)
                | .named k negated => pure (.set false [.named k negated])
                | .anchor a => pure (.anchor a)
                | .backref i => pure (.backref i)
              readSequence verbose first (node :: found) fuel
          | .plain c =>
              if verbose && (c == ' ' || (9 ≤ c.toNat && c.toNat ≤ 13)) then
                readSequence verbose first found fuel
              else if verbose && c == '#' then
                skipLine fuel
                readSequence verbose first found fuel
              else if c == '[' then
                let here := (← tell) - 1
                let negated ← accept '^'
                let items ← readClassItems here fuel []
                readSequence verbose first (.set negated items :: found) fuel
              else if c == '?' || c == '*' || c == '+' then
                let here ← tell
                let (least, most) := (counts? c).getD (0, none)
                readSequence verbose first (← repeatLast here least most found) fuel
              else if c == '{' then
                let here ← tell
                match ← readBraces? fuel here with
                | none => readSequence verbose first (.char '{' :: found) fuel
                | some (least, most) =>
                    readSequence verbose first (← repeatLast here least most found) fuel
              else if c == '.' then readSequence verbose first (.any :: found) fuel
              else if c == '^' then
                readSequence verbose first (.anchor .lineStart :: found) fuel
              else if c == '$' then
                readSequence verbose first (.anchor .lineEnd :: found) fuel
              else if c == '(' then
                let start := (← tell) - 1
                match ← readGroup verbose start (first && found.isEmpty) fuel with
                | some node => readSequence verbose first (node :: found) fuel
                | none =>
                    let progress ← get
                    let verbose := verbose || (first && found.isEmpty && progress.modes.verbose)
                    readSequence verbose first found fuel
              else readSequence verbose first (.char c :: found) fuel

/-- A group that opened at a position; `none` if it stands for no node. -/
def readGroup (verbose : Bool) (start : Nat) (atStart : Bool) : Nat → Reading (Option Node)
  | 0 => failAt .unexpectedEnd 0
  | fuel + 1 => do
      match ← readGroupHead fuel start atStart with
      | .nothing => return none
      | .globalModes => return none
      | .named index => return some (.backref index)
      | .capture name =>
          let index ← openGroup name
          enterGroup
          let body ← readChoice verbose true [] fuel
          closeParen start
          closeGroup index body
          return some (.capture index body)
      | .modes added dropped =>
          let inner := (verbose || added.verbose) && !dropped.verbose
          enterGroup
          let body ← readChoice inner true [] fuel
          closeParen start
          return some (.scoped added dropped body)
      | .atomic =>
          enterGroup
          let body ← readChoice verbose true [] fuel
          closeParen start
          return some (.atomic body)
      | .ahead negated =>
          enterGroup
          let body ← readChoice verbose true [] fuel
          closeParen start
          return some (.ahead negated body)
      | .behind negated =>
          let outer := (← get).lookbehind
          modify fun p => { p with lookbehind := some (outer.getD p.groups.length) }
          enterGroup
          let body ← readChoice verbose true [] fuel
          modify fun p => { p with lookbehind := outer }
          closeParen start
          return some (.behind negated (width (← get).groups body).least body)
      | .condition index =>
          enterGroup
          let yes ← readSequence verbose false [] fuel
          let no ← if ← accept '|' then
              let branch ← readSequence verbose false [] fuel
              if (← peek) == some (.plain '|') then failAt .tooManyBranches 0
              pure branch
            else pure .empty
          closeParen start
          return some (.ifGroup index yes no)

end

/-! ## Whole patterns -/

/-- A pattern with its written form and the modes of the whole. -/
structure Compiled where
  source : String
  modes : Modes
  root : Node
deriving Repr

/-- Reads to the end and checks what only the whole text can tell. -/
def readAll (fuel : Nat) : Reading (Modes × Node) := do
  let root ← readChoice false false [] fuel
  if (← peek).isSome then failAt .unbalanced 0
  let p ← get
  match p.conditions.find? (·.1 ≥ p.groups.length) with
  | some (index, place) => throw (.fault (.invalidReference index) place)
  | none =>
      unless widthsFixed p.groups root do throw .widthNotFixed
      return (p.modes, root)

/-- Reads a written pattern, whose groups may be nested to a depth. -/
def compile (depth : Nat) (source : String) : Except ReadError Compiled := do
  let chars := source.toList
  let start ← (Source.mk chars 0).checked
  let ((modes, root), _) ←
    (readAll (4 * chars.length + 8)).run { source := start, room := depth }
  return { source := source, modes := modes, root := root }

end GemBinder.Pattern
