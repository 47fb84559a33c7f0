import GemBinder.Pattern.Reader
import GemBinder.Text.Casing

/-! # Searching for a pattern

    A backtracking matcher with continuations: `run` matches a node at a
    place and hands the place behind the match to the rest of the pattern,
    which may refuse it.  Recursion is on the pattern; a repetition counts
    its rounds down from a bound that its least count and the remaining text
    fix, since a round that consumes nothing is the last one. -/

namespace GemBinder.Pattern

/-! ## Letter case -/

/-- Classes of lower-case letters that match each other without regard to
    case, beyond those that one mapping relates. -/
def caseClasses : List (List Nat) :=
  [[0x69, 0x131], [0x73, 0x17F], [0xB5, 0x3BC], [0x345, 0x3B9, 0x1FBE], [0x390, 0x1FD3],
   [0x3B0, 0x1FE3], [0x3B2, 0x3D0], [0x3B5, 0x3F5], [0x3B8, 0x3D1], [0x3BA, 0x3F0],
   [0x3C0, 0x3D6], [0x3C1, 0x3F1], [0x3C2, 0x3C3], [0x3C6, 0x3D5], [0x432, 0x1C80],
   [0x434, 0x1C81], [0x43E, 0x1C82], [0x441, 0x1C83], [0x442, 0x1C84, 0x1C85],
   [0x44A, 0x1C86], [0x463, 0x1C87], [0x1C88, 0xA64B], [0x1E61, 0x1E9B], [0xFB05, 0xFB06]]

/-- The lower case of a character; in the ASCII mode other characters have
    no case. -/
def foldChar (m : Modes) (c : Char) : Char :=
  if m.ascii && c.toNat ≥ 128 then c else Text.lowerChar c

/-- Whether two characters match without regard to case. -/
def sameFolded (m : Modes) (a b : Char) : Bool :=
  let x := foldChar m a
  let y := foldChar m b
  x == y || (!m.ascii && caseClasses.any fun g => g.contains x.toNat && g.contains y.toNat)

/-- Whether two characters match in the given modes. -/
def sameChar (m : Modes) (a b : Char) : Bool :=
  if m.ignoreCase then sameFolded m a b else a == b

/-! ## Classes -/

/-- Membership in a named class. -/
def NamedClass.holds (m : Modes) (k : NamedClass) (c : Char) : Bool :=
  if m.ascii && c.toNat ≥ 128 then false
  else match k with
    | .word => Text.isWordChar c
    | .digit => Text.isDecimalDigit c
    | .blank => Text.isBlank c && !(m.ascii && c.toNat ≥ 28 && c.toNat ≤ 31)

/-- Membership in a range; without regard to case, some member has to match. -/
def inCharRange (m : Modes) (lo hi c : Char) : Bool :=
  if m.ignoreCase then
    (List.range (hi.toNat - lo.toNat + 1)).any fun i =>
      (lo.toNat + i).isValidChar && sameFolded m (Char.ofNat (lo.toNat + i)) c
  else lo ≤ c && c ≤ hi

/-- Whether a member of a class covers a character. -/
def ClassItem.covers (m : Modes) (c : Char) : ClassItem → Bool
  | .char d => sameChar m d c
  | .range lo hi => inCharRange m lo hi c
  | .named k negated => k.holds m (if m.ignoreCase then foldChar m c else c) != negated

/-! ## Places -/

/-- A place in a text: what stands before it, the nearest first, what stands
    behind it, and the texts that groups have captured. -/
structure Place where
  before : List Char
  after : List Char
  captures : List (Nat × List Char)

/-- The place behind the next character, if that is in a class. -/
def Place.step (ok : Char → Bool) (p : Place) : Option Place :=
  match p.after with
  | c :: rest => if ok c then some { p with before := c :: p.before, after := rest } else none
  | [] => none

/-- The place some characters back. -/
def Place.back : Nat → Place → Option Place
  | 0, p => some p
  | n + 1, p =>
      match p.before with
      | c :: rest => Place.back n { p with before := rest, after := c :: p.after }
      | [] => none

/-- Whether an anchor holds at a place.  In an empty text nothing is at or
    away from a word boundary. -/
def Anchor.holds (m : Modes) (p : Place) : Anchor → Bool
  | .lineStart => p.before.isEmpty || (m.multiLine && p.before.head? == some '\n')
  | .lineEnd =>
      p.after.isEmpty || p.after == ['\n'] || (m.multiLine && p.after.head? == some '\n')
  | .textStart => p.before.isEmpty
  | .textEnd => p.after.isEmpty
  | .boundary => wordBefore != wordAfter
  | .notBoundary => wordBefore == wordAfter && !(p.before.isEmpty && p.after.isEmpty)
where
  wordBefore := p.before.head?.any (NamedClass.word.holds m)
  wordAfter := p.after.head?.any (NamedClass.word.holds m)

/-- The place behind a given text, if the text stands here. -/
def Place.follow (m : Modes) : List Char → Place → Option Place
  | [], p => some p
  | c :: rest, p => (p.step (sameChar m c)).bind (Place.follow m rest)

/-! ## Matching -/

/-- What is done with the place behind a match. -/
abbrev Rest := Place → Option Place

/-- Rounds of a repetition.  `count` rounds are done, the last optional one
    began with `mark` characters left, and `fuel` bounds the rounds to come. -/
def rounds (body : Place → Rest → Option Place) (lazy : Bool) (least : Nat)
    (most : Option Nat) : Nat → Nat → Option Nat → Place → Rest → Option Place
  | 0, _, _, _, _ => none
  | fuel + 1, count, mark, p, k =>
      if count < least then
        body p fun q => rounds body lazy least most fuel (count + 1) mark q k
      else
        let left := p.after.length
        let more := most.all (count < ·) && mark != some left
        let again := fun (_ : Unit) =>
          if more then
            body p fun q => rounds body lazy least most fuel (count + 1) (some left) q k
          else none
        if lazy then (k p).or (again ()) else (again ()).or (k p)

/-- A bound on the rounds of a repetition at a place. -/
def roundBound (least : Nat) (p : Place) : Nat := least + p.after.length + 2

/-- Matches a node at a place and goes on with the rest. -/
def run (m : Modes) : Node → Place → Rest → Option Place
  | .empty, p, k => k p
  | .char c, p, k => (p.step (sameChar m c)).bind k
  | .any, p, k => (p.step fun c => m.dotAll || c != '\n').bind k
  | .set negated items, p, k =>
      (p.step fun c => items.any (ClassItem.covers m c) != negated).bind k
  | .anchor a, p, k => if a.holds m p then k p else none
  | .cat a b, p, k => run m a p fun q => run m b q k
  | .alt a b, p, k => (run m a p k).or (run m b p k)
  | .capture index n, p, k =>
      run m n p fun q =>
        let text := p.after.take (p.after.length - q.after.length)
        k { q with captures := (index, text) :: q.captures.filter (·.1 != index) }
  | .scoped added dropped n, p, k => run ((m.union added).without dropped) n p k
  | .times .possessive least most n, p, k =>
      (rounds (run m n) false least most (roundBound least p) 0 none p some).bind k
  | .times .greedy least most n, p, k =>
      rounds (run m n) false least most (roundBound least p) 0 none p k
  | .times .lazy least most n, p, k =>
      rounds (run m n) true least most (roundBound least p) 0 none p k
  | .backref index, p, k =>
      match p.captures.lookup index with
      | some text => (p.follow m text).bind k
      | none => none
  | .ahead negated n, p, k =>
      match run m n p some with
      | some q => if negated then none else k { p with captures := q.captures }
      | none => if negated then k p else none
  | .behind negated width n, p, k =>
      match (p.back width).bind fun start => run m n start some with
      | some q => if negated then none else k { p with captures := q.captures }
      | none => if negated then k p else none
  | .atomic n, p, k => (run m n p some).bind k
  | .ifGroup index yes no, p, k =>
      if (p.captures.lookup index).isSome then run m yes p k else run m no p k

/-- Whether the pattern matches somewhere from a place on. -/
def searchFrom (r : Compiled) (before : List Char) : List Char → Bool
  | [] => (run r.modes r.root ⟨before, [], []⟩ some).isSome
  | c :: rest =>
      (run r.modes r.root ⟨before, c :: rest, []⟩ some).isSome ||
        searchFrom r (c :: before) rest

/-- Whether the pattern matches somewhere in a text. -/
def Compiled.occursIn (r : Compiled) (s : List Char) : Bool :=
  searchFrom r [] s

end GemBinder.Pattern
