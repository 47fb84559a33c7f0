import GemBinder.Text.Words

/-! # Braces

    Blocks nest.  One scanner finds the brace that closes a block, another
    cuts all blocks out of a text. -/

namespace GemBinder.Header

/-- The number of characters before the brace that closes the last open
    block, where `depth` blocks are open.  Only a closing brace can end the
    search, so that a text in which more is closed than was opened has to be
    opened again first. -/
def closingOffset? (depth : Int) : List Char → Option Nat
  | [] => none
  | c :: rest =>
      if c == '}' then
        if depth == 1 then some 0 else (closingOffset? (depth - 1) rest).map (· + 1)
      else (closingOffset? (if c == '{' then depth + 1 else depth) rest).map (· + 1)

/-- The position of the brace that closes the block at a position, or the
    length of the text. -/
def closingBrace (s : List Char) (position : Nat) : Nat :=
  match closingOffset? 0 (s.drop position) with
  | some n => position + n
  | none => s.length

/-- As `closingBrace`, for a position that may be negative and then counts
    from the end of the text, from where the search goes on at its beginning.
    There is no answer for a position before the beginning. -/
def closingBraceAt? (s : List Char) (position : Int) : Option Int :=
  if 0 ≤ position then some (closingBrace s position.toNat)
  else if s.length < position.natAbs then none
  else
    match closingOffset? 0 (s.drop (s.length - position.natAbs) ++ s) with
    | some n => some (position + n)
    | none => some s.length

/-- A text, `depth` blocks deep, with a semicolon in place of every block. -/
def topLevelFrom (depth : Nat) : List Char → List Char
  | [] => []
  | c :: rest =>
      if c == '{' then topLevelFrom (depth + 1) rest
      else if c == '}' then
        if depth == 1 then ';' :: topLevelFrom 0 rest else topLevelFrom (depth - 1) rest
      else if depth == 0 then c :: topLevelFrom 0 rest
      else topLevelFrom depth rest

/-- A text with a semicolon in place of every block. -/
def topLevel (s : List Char) : List Char := topLevelFrom 0 s

/-- The text of a block behind its opening brace, and what is behind the
    block; a block that nothing closes takes everything. -/
def takeBlock (s : List Char) : List Char × List Char :=
  match closingOffset? 1 s with
  | some n => (s.take n, s.drop (n + 1))
  | none => (s, [])

end GemBinder.Header
