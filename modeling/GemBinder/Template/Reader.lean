import GemBinder.Json.Reader
import GemBinder.Template.Basic
import GemBinder.Text.Lines

/-! # Reading templates

    A template is first cut into segments: texts, and what stands between
    the marks of outputs and tags, already split into tokens.  Comments
    vanish there, and so does layout: one newline behind a tag or comment,
    and the blanks before one that stands first on its line.  The segments
    are then read as a tree. -/

namespace GemBinder.Template

open Text

/-- A token between marks. -/
inductive Token where
  | name (s : String)
  | number (n : Nat)
  | real (x : Decimal.Double)
  | text (s : String)
  | mark (s : String)
deriving Repr, DecidableEq

/-- A piece of a template. -/
inductive Segment where
  | text (s : String)
  | output (tokens : List Token)
  | tag (tokens : List Token)
deriving Repr, DecidableEq

/-- Reading either gives a result or finds the template malformed. -/
abbrev Reading := Except TemplateError

/-! ## Tokens -/

/-- The marks of two characters, before those of one. -/
def marks : List String :=
  ["//", "**", "==", "!=", ">=", "<=", "+", "-", "/", "*", "%", "~", "[", "]", "(", ")",
   "\x7b", "\x7d", ">", "<", "=", ".", ":", "|", ",", ";"]

/-- The mark at the head of a text. -/
def takeMark (s : List Char) : Option (String × List Char) :=
  (marks.find? fun m => m.toList.isPrefixOf s).map fun m => (m, s.drop m.length)

/-- The content of a text literal, which ends at its unescaped quote, and
    the rest behind that. -/
def takeLiteral (quote : Char) : List Char → Option (List Char × List Char)
  | [] => none
  | ['\\'] => none
  | '\\' :: c :: rest => (takeLiteral quote rest).map fun (s, r) => ('\\' :: c :: s, r)
  | c :: rest =>
      if c == quote then some ([], rest)
      else (takeLiteral quote rest).map fun (s, r) => (c :: s, r)

/-- The character of a code written in hexadecimal digits. -/
def codeChar (digits : List Char) : Option Char := do
  let n ← digits.foldlM (fun n c => do return n * 16 + (← Json.hexValue? c)) 0
  if n.isValidChar then return Char.ofNat n else none

/-- Resolves the escapes of a literal; those that mean nothing stay. -/
def unescape : List Char → Option (List Char)
  | [] => some []
  | ['\\'] => none
  | '\\' :: 'x' :: a :: b :: rest => do return (← codeChar [a, b]) :: (← unescape rest)
  | '\\' :: 'u' :: a :: b :: c :: d :: rest => do
      return (← codeChar [a, b, c, d]) :: (← unescape rest)
  | '\\' :: c :: rest => do
      let more ← unescape rest
      if c == 'x' || c == 'u' || c == 'U' || c == 'N' then none
      else if c == '\n' then return more
      else if c == 'n' then return '\n' :: more
      else if c == 't' then return '\t' :: more
      else if c == 'r' then return '\r' :: more
      else if c == 'a' then return '\x07' :: more
      else if c == 'b' then return '\x08' :: more
      else if c == 'f' then return '\x0c' :: more
      else if c == 'v' then return '\x0b' :: more
      else if c == '\\' || c == '\'' || c == '"' then return c :: more
      else return '\\' :: c :: more
  | c :: rest => do return c :: (← unescape rest)

/-- A number, with a fraction if a point and digits follow. -/
def takeNumber (s : List Char) : Token × List Char :=
  let whole := s.takeWhile isAsciiDigit
  let rest := s.dropWhile isAsciiDigit
  match Json.readFraction rest with
  | ([], _) => (.number (Json.digitsValue whole), rest)
  | (fraction, rest) =>
      (.real (Decimal.ofNumeral false (Json.digitsValue (whole ++ fraction))
        (-(fraction.length : Int))), rest)

/-- The token at the head of a text without leading blanks. -/
def takeToken : List Char → Reading (Token × List Char)
  | [] => .error .malformed
  | c :: rest =>
      if isAsciiDigit c then .ok (takeNumber (c :: rest))
      else if isWordChar c then
        .ok (.name (String.ofList (c :: rest.takeWhile isWordChar)), rest.dropWhile isWordChar)
      else if c == '\'' || c == '"' then
        match takeLiteral c rest with
        | none => .error .malformed
        | some (s, after) =>
            match unescape s with
            | none => .error .malformed
            | some t => .ok (.text (String.ofList t), after)
      else
        match takeMark (c :: rest) with
        | none => .error .malformed
        | some (m, after) => .ok (.mark m, after)

/-- The mark that closes an opening bracket. -/
def closing? (m : String) : Option String :=
  if m == "(" then some ")" else if m == "[" then some "]"
  else if m == "\x7b" then some "\x7d" else none

/-- The brackets that are still open behind a token, as the marks that close
    them. -/
def balance (awaited : List String) : Token → Reading (List String)
  | .mark m =>
      match closing? m with
      | some close => .ok (close :: awaited)
      | none =>
          if m == ")" || m == "]" || m == "\x7d" then
            match awaited with
            | a :: more => if a == m then .ok more else .error .malformed
            | [] => .error .malformed
          else .ok awaited
  | _ => .ok awaited

/-! ## Segments -/

/-- The three kinds of parts that marks open. -/
inductive Part where
  | tag
  | comment
  | output
deriving Repr, DecidableEq

/-- The part that the head of a text opens. -/
def opening? : List Char → Option (Part × List Char)
  | '{' :: '%' :: rest => some (.tag, rest)
  | '{' :: '#' :: rest => some (.comment, rest)
  | '{' :: '{' :: rest => some (.output, rest)
  | _ => none

/-- The text before the first part, and that part with the text behind its
    mark. -/
def takeText : List Char → List Char × Option (Part × List Char)
  | [] => ([], none)
  | c :: rest =>
      match opening? (c :: rest) with
      | some found => ([], some found)
      | none =>
          let (s, found) := takeText rest
          (c :: s, found)

/-- What is left of a text before a part: a minus takes all blanks away, and
    a plus none; else the blanks that stand before a tag or comment on its
    line go. -/
def layText (part : Part) (sign : Option Char) (atLineStart : Bool) (s : List Char) : List Char :=
  let indent := (s.reverse.takeWhile (· != '\n')).reverse
  if sign == some '-' then trimEnd s
  else if sign == some '+' || part == .output then s
  else if (atLineStart || s.contains '\n') && indent.all isBlank then
    s.take (s.length - indent.length)
  else s

/-- The characters of the mark that closes a part. -/
def Part.close : Part → List Char
  | .tag => ['%', '}']
  | .comment => ['#', '}']
  | .output => ['}', '}']

/-- The text behind the mark that closes a part, if it stands here, and
    whether it begins a line. -/
def Part.takeClose (part : Part) (s : List Char) : Option (List Char × Bool) :=
  let behind (s : List Char) : Option (List Char) :=
    if part.close.isPrefixOf s then some (s.drop 2) else none
  let trimmed : Option (List Char × Bool) := match s with
    | '-' :: rest => (behind rest).map fun after =>
        (after.dropWhile isBlank, (after.takeWhile isBlank).getLast? == some '\n')
    | '+' :: rest => if part == .output then none else (behind rest).map (·, false)
    | _ => none
  trimmed.or ((behind s).map fun after =>
    match after with
    | '\n' :: more => if part == .output then (after, false) else (more, true)
    | _ => (after, false))

/-- The tokens of a part up to its closing mark, and what is behind it. -/
def takeTokens (part : Part) : Nat → List String → List Char →
    Reading (List Token × List Char × Bool)
  | 0, _, _ => .error .malformed
  | fuel + 1, awaited, s =>
      match if awaited.isEmpty then part.takeClose s else none with
      | some (after, fresh) => .ok ([], after, fresh)
      | none =>
          match s with
          | [] => .error .malformed
          | c :: rest =>
              if isBlank c then takeTokens part fuel awaited rest
              else do
                let (token, after) ← takeToken (c :: rest)
                let awaited ← balance awaited token
                let (more, after, fresh) ← takeTokens part fuel awaited after
                return (token :: more, after, fresh)

/-- What is behind the closing mark of a comment. -/
def skipComment : List Char → Reading (List Char × Bool)
  | [] => .error .malformed
  | c :: rest =>
      match Part.comment.takeClose (c :: rest) with
      | some found => .ok found
      | none => skipComment rest

/-- Puts a text before segments, unless it is empty. -/
def withText (s : List Char) (more : List Segment) : List Segment :=
  if s.isEmpty then more else .text (String.ofList s) :: more

/-- Cuts a text into segments. -/
def segments : Nat → Bool → List Char → Reading (List Segment)
  | 0, _, _ => .error .malformed
  | fuel + 1, atLineStart, s => do
      let (before, found) := takeText s
      match found with
      | none => return withText before []
      | some (part, rest) =>
          let (sign, rest) := match rest with
            | '-' :: r => (some '-', r)
            | '+' :: r => (some '+', r)
            | r => (none, r)
          let before := layText part sign atLineStart before
          match part with
          | .comment =>
              let (rest, fresh) ← skipComment rest
              return withText before (← segments fuel fresh rest)
          | .output =>
              let (tokens, rest, fresh) ← takeTokens part fuel [] rest
              return withText before (.output tokens :: (← segments fuel fresh rest))
          | .tag =>
              let (tokens, rest, fresh) ← takeTokens part fuel [] rest
              return withText before (.tag tokens :: (← segments fuel fresh rest))

/-! ## Expressions -/

/-- An expression and the tokens behind it. -/
abbrev Parsed := Except TemplateError (Expr × List Token)

/-- The value that a name stands for everywhere. -/
def constant? (name : String) : Option Json :=
  if name == "true" || name == "True" then some (.bool true)
  else if name == "false" || name == "False" then some (.bool false)
  else if name == "none" || name == "None" then some .null
  else none

mutual

/-- An expression, possibly a choice. -/
def readChoice : Nat → List Token → Parsed
  | 0, _ => .error .malformed
  | fuel + 1, s => do
      let (first, rest) ← readEither fuel s
      readChoiceRest fuel first rest

/-- The conditions behind an expression. -/
def readChoiceRest : Nat → Expr → List Token → Parsed
  | 0, _, _ => .error .malformed
  | fuel + 1, yes, s =>
      match s with
      | .name "if" :: rest => do
          let (condition, rest) ← readEither fuel rest
          match rest with
          | .name "else" :: rest =>
              let (no, rest) ← readChoice fuel rest
              readChoiceRest fuel (.choice condition yes no) rest
          | rest => readChoiceRest fuel (.choiceOnly condition yes) rest
      | _ => .ok (yes, s)

/-- A disjunction. -/
def readEither : Nat → List Token → Parsed
  | 0, _ => .error .malformed
  | fuel + 1, s => do
      let (first, rest) ← readBoth fuel s
      match rest with
      | .name "or" :: rest =>
          let (second, rest) ← readEither fuel rest
          return (.either first second, rest)
      | rest => return (first, rest)

/-- A conjunction. -/
def readBoth : Nat → List Token → Parsed
  | 0, _ => .error .malformed
  | fuel + 1, s => do
      let (first, rest) ← readNegation fuel s
      match rest with
      | .name "and" :: rest =>
          let (second, rest) ← readBoth fuel rest
          return (.both first second, rest)
      | rest => return (first, rest)

/-- A negation, or a comparison. -/
def readNegation : Nat → List Token → Parsed
  | 0, _ => .error .malformed
  | fuel + 1, s =>
      match s with
      | .name "not" :: rest => do
          let (e, rest) ← readNegation fuel rest
          return (.negation e, rest)
      | _ => do
          let (first, rest) ← readOperand fuel s
          match rest with
          | .mark "==" :: rest =>
              let (second, rest) ← readOperand fuel rest
              return (.equal first second, rest)
          | .mark "!=" :: rest =>
              let (second, rest) ← readOperand fuel rest
              return (.negation (.equal first second), rest)
          | rest => return (first, rest)

/-- A name, a literal or an expression in parentheses, with what is selected
    from it and done with it. -/
def readOperand : Nat → List Token → Parsed
  | 0, _ => .error .malformed
  | fuel + 1, s =>
      match s with
      | .name n :: rest =>
          readSelectors fuel (match constant? n with | some v => .literal v | none => .name n) rest
      | .text t :: rest => readTexts fuel t rest
      | .number n :: rest => readSelectors fuel (.literal (.int n)) rest
      | .real x :: rest => readSelectors fuel (.literal (.real x)) rest
      | .mark "(" :: rest => do
          let (e, rest) ← readChoice fuel rest
          match rest with
          | .mark ")" :: rest => readSelectors fuel e rest
          | _ => .error .malformed
      | _ => .error .malformed

/-- Neighbouring texts are one. -/
def readTexts : Nat → String → List Token → Parsed
  | 0, _, _ => .error .malformed
  | fuel + 1, t, s =>
      match s with
      | .text u :: rest => readTexts fuel (t ++ u) rest
      | _ => readSelectors fuel (.literal (.text t)) s

/-- What is selected from an expression, filters and tests. -/
def readSelectors : Nat → Expr → List Token → Parsed
  | 0, _, _ => .error .malformed
  | fuel + 1, e, s =>
      match s with
      | .mark "." :: .name n :: rest => readSelectors fuel (.attribute e n) rest
      | .mark "." :: .number n :: rest => readSelectors fuel (.item e (.literal (.int n))) rest
      | .mark "[" :: rest => do
          let (key, rest) ← readChoice fuel rest
          match rest with
          | .mark "]" :: rest => readSelectors fuel (.item e key) rest
          | _ => .error .malformed
      | .mark "|" :: .name n :: rest => readSelectors fuel (.filtered e n) rest
      | .name "is" :: .name "not" :: .name n :: rest =>
          readSelectors fuel (.negation (.tested e n)) rest
      | .name "is" :: .name n :: rest => readSelectors fuel (.tested e n) rest
      | .mark "." :: _ => .error .malformed
      | .mark "|" :: _ => .error .malformed
      | .name "is" :: _ => .error .malformed
      | _ => .ok (e, s)

end

/-- The fuel that an expression of some tokens can use. -/
def expressionFuel (s : List Token) : Nat := 8 * s.length + 16

/-- An expression that takes all tokens. -/
def readAll (read : Nat → List Token → Parsed) (s : List Token) : Reading Expr := do
  match ← read (expressionFuel s) s with
  | (e, []) => return e
  | _ => throw .malformed

/-! ## The tree -/

/-- The tokens of a tag without a colon at their end. -/
def dropColon (s : List Token) : List Token :=
  if s.getLast? == some (.mark ":") then s.dropLast else s

/-- The tags that continue or end a part. -/
def isStop : List Token → Bool
  | .name n :: _ => ["elif", "else", "endif", "endfor"].contains n
  | _ => false

/-- Names that cannot be bound by a loop. -/
def isReserved (name : String) : Bool :=
  (constant? name).isSome || ["and", "or", "not", "if", "else", "in", "is"].contains name

mutual

/-- The nodes up to a tag that continues or ends the part they are in, that
    tag and what is behind it. -/
def readNodes : Nat → List Segment → Reading (Node × Option (List Token) × List Segment)
  | 0, _ => .error .malformed
  | fuel + 1, s =>
      match s with
      | [] => .ok (.empty, none, [])
      | .text t :: rest => do
          let (more, stop, rest) ← readNodes fuel rest
          return (.cat (.text t) more, stop, rest)
      | .output tokens :: rest => do
          let e ← readAll readChoice tokens
          let (more, stop, rest) ← readNodes fuel rest
          return (.cat (.output e) more, stop, rest)
      | .tag tokens :: rest =>
          if isStop tokens then .ok (.empty, some tokens, rest)
          else do
            let (node, rest) ← match tokens with
              | .name "if" :: condition => readBranch fuel condition rest
              | .name "for" :: .name n :: .name "in" :: items =>
                  if isReserved n then throw .malformed else readLoop fuel n items rest
              | _ => throw .malformed
            let (more, stop, rest) ← readNodes fuel rest
            return (.cat node more, stop, rest)

/-- A branch behind its condition. -/
def readBranch : Nat → List Token → List Segment → Reading (Node × List Segment)
  | 0, _, _ => .error .malformed
  | fuel + 1, condition, s => do
      let c ← readAll readEither (dropColon condition)
      let (yes, stop, rest) ← readNodes fuel s
      match stop with
      | some [.name "endif"] => return (.branch c yes .empty, rest)
      | some (.name "elif" :: condition) =>
          let (no, rest) ← readBranch fuel condition rest
          return (.branch c yes no, rest)
      | some (.name "else" :: tail) =>
          if !(dropColon tail).isEmpty then throw .malformed
          let (no, stop, rest) ← readNodes fuel rest
          if stop == some [.name "endif"] then return (.branch c yes no, rest)
          else throw .malformed
      | _ => throw .malformed

/-- A loop behind the name that it binds. -/
def readLoop : Nat → String → List Token → List Segment → Reading (Node × List Segment)
  | 0, _, _, _ => .error .malformed
  | fuel + 1, name, items, s => do
      let e ← readAll readEither (dropColon items)
      let (body, stop, rest) ← readNodes fuel s
      match stop with
      | some [.name "endfor"] => return (.each name e body .empty, rest)
      | some (.name "else" :: tail) =>
          if !(dropColon tail).isEmpty then throw .malformed
          let (otherwise, stop, rest) ← readNodes fuel rest
          if stop == some [.name "endfor"] then return (.each name e body otherwise, rest)
          else throw .malformed
      | _ => throw .malformed

end

/-! ## Names that have to be known -/

/-- The filters. -/
def filterNames : List String := ["ruby_type", "length", "count"]

/-- The tests. -/
def testNames : List String := ["none", "defined", "undefined"]

/-- The first filter or test of an expression that nobody knows; inside the
    parts of a choice it is only missed when it is used. -/
def Expr.unknown? : Expr → Option TemplateError
  | .literal _ => none
  | .name _ => none
  | .attribute e _ => e.unknown?
  | .item e key => e.unknown?.or key.unknown?
  | .filtered e f => if filterNames.contains f then e.unknown? else some (.unknownFilter f)
  | .tested e t => if testNames.contains t then e.unknown? else some (.unknownTest t)
  | .negation e => e.unknown?
  | .both a b => a.unknown?.or b.unknown?
  | .either a b => a.unknown?.or b.unknown?
  | .equal a b => a.unknown?.or b.unknown?
  | .choice _ _ _ => none
  | .choiceOnly _ _ => none

/-- The first unknown filter or test of a template; in a branch it is only
    missed when it is used, but not in a loop inside the branch. -/
def Node.unknown? (inBranch : Bool) : Node → Option TemplateError
  | .empty => none
  | .text _ => none
  | .output e => if inBranch then none else e.unknown?
  | .cat a b => (a.unknown? inBranch).or (b.unknown? inBranch)
  | .branch _ yes no => (yes.unknown? true).or (no.unknown? true)
  | .each _ items body otherwise =>
      (if inBranch then none else items.unknown?).or
        ((body.unknown? false).or (otherwise.unknown? false))

/-- Reads a template. -/
def read (source : String) : Except TemplateError Node := do
  let s := unifyLineEnds source.toList
  let parts ← segments (s.length + 2) true s
  let (node, stop, _) ← readNodes (2 * parts.length + 2) parts
  if stop.isSome then throw .malformed
  match node.unknown? false with
  | some e => throw e
  | none => return node

end GemBinder.Template
