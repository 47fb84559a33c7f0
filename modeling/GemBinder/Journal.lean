import GemBinder.Failure

/-! # The journal

    What the generator tells about its work: messages with a level, some of
    them with the failure that they are about.  Handlers show those that
    reach their level, each by a format in which fields are filled in. -/

namespace GemBinder

open Text

/-! ## Levels -/

/-- How much a message matters. -/
abbrev Level := Int

namespace Level

/-- Everything is shown. -/
def notSet : Level := 0
/-- Details for those who look for a fault. -/
def debug : Level := 10
/-- What is done. -/
def info : Level := 20
/-- What may be wrong. -/
def warning : Level := 30
/-- What is wrong. -/
def error : Level := 40
/-- What stops everything. -/
def critical : Level := 50

/-- The names of the levels, that which stands for a number first. -/
def names : List (String × Level) :=
  [("CRITICAL", critical), ("FATAL", critical), ("ERROR", error), ("WARNING", warning),
   ("WARN", warning), ("INFO", info), ("DEBUG", debug), ("NOTSET", notSet)]

/-- The name of a level; a number between the named ones says so. -/
def name (l : Level) : String :=
  match names.find? (·.2 == l) with
  | some (n, _) => n
  | none => s!"Level {l}"

/-- The level of a name. -/
def ofName? (n : String) : Option Level := names.lookup n

/-- The level of a name in any letter case; other names mean `info`. -/
def ofText (n : String) : Level := (ofName? (upperString n)).getD info

end Level

/-! ## Entries -/

/-- A message.  Its source is the part of the program that tells it; other
    programs in the same process have their own. -/
structure LogEntry where
  level : Level
  message : String
  failure : Option Failure := none
  source : String := "gem_binder"
  isOwn : Bool := true
deriving Repr, Inhabited

/-! ## Formats -/

/-- A field of a format: its name, its flags, width and precision, and the
    conversion that ends it. -/
structure FormatField where
  name : List Char
  leftAligned : Bool
  zeroFilled : Bool
  signed : Option Char
  width : Nat
  precision : Option Nat
  conversion : Char
deriving Repr

/-- The letters that end a field. -/
def isConversion (c : Char) : Bool := "diouxefgcrsaDIOUXEFGCRSA%".toList.contains c

/-- The field behind a percent sign, and what is behind it. -/
def takeField (s : List Char) : Option (FormatField × List Char) :=
  match s with
  | '(' :: rest =>
      let name := rest.takeWhile isWordChar
      match rest.dropWhile isWordChar with
      | ')' :: rest =>
          let isFlag (c : Char) := "#0+ -".toList.contains c
          let flags := rest.takeWhile isFlag
          let rest := rest.dropWhile isFlag
          let digits (s : List Char) := s.takeWhile isAsciiDigit
          let number (s : List Char) := s.foldl (fun n c => n * 10 + (c.toNat - 48)) 0
          let width := digits rest
          let rest := rest.dropWhile isAsciiDigit
          let (precision, rest) := match rest with
            | '.' :: more =>
                if (digits more).isEmpty then (none, rest)
                else (some (number (digits more)), more.dropWhile isAsciiDigit)
            | _ => (none, rest)
          match rest with
          | c :: rest =>
              if !name.isEmpty && isConversion c then
                some (⟨name, flags.contains '-', flags.contains '0',
                  if flags.contains '+' then some '+' else if flags.contains ' ' then some ' '
                  else none, number width, precision, c⟩, rest)
              else none
          | [] => none
      | _ => none
  | _ => none

/-- Whether a format has a field at all; one without shows no message. -/
def hasField : List Char → Bool
  | [] => false
  | c :: rest => (c == '%' && (takeField rest).isSome) || hasField rest

/-- The value of a field in an entry: a text or a number. -/
def LogEntry.field? (e : LogEntry) (name : List Char) : Option (String ⊕ Int) :=
  if name == "message".toList then some (.inl e.message)
  else if name == "levelname".toList then some (.inl (Level.name e.level))
  else if name == "levelno".toList then some (.inr e.level)
  else if name == "name".toList then some (.inl e.source)
  else none

/-- A value in its field. -/
def FormatField.lay (f : FormatField) (v : String ⊕ Int) : List Char :=
  let body := match v with
    | .inl s =>
        let s := if f.conversion == 'r' then quoted s
          else if f.conversion == 'a' then quotedAscii s else s
        match f.precision with
        | some n => s.toList.take n
        | none => s.toList
    | .inr n =>
        let sign := if n < 0 then ['-'] else f.signed.toList
        sign ++ (toString n.natAbs).toList
  let blanks := f.width - body.length
  if f.leftAligned then body ++ List.replicate blanks ' '
  else if f.zeroFilled && v.isRight then List.replicate blanks '0' ++ body
  else List.replicate blanks ' ' ++ body

/-- Fills in a format; a field that an entry lacks leaves nothing to show. -/
def fillFormat (e : LogEntry) : Nat → List Char → Option (List Char)
  | 0, _ => some []
  | _ + 1, [] => some []
  | fuel + 1, '%' :: rest =>
      match takeField rest with
      | some (f, rest) => do
          if f.conversion == '%' then return '%' :: (← fillFormat e fuel rest)
          let v ← e.field? f.name
          return f.lay v ++ (← fillFormat e fuel rest)
      | none =>
          match rest with
          | '%' :: rest => do return '%' :: (← fillFormat e fuel rest)
          | _ => none
  | fuel + 1, c :: rest => do return c :: (← fillFormat e fuel rest)

/-- The line that shows an entry. -/
def LogEntry.line (e : LogEntry) (format : String) : Option String :=
  (fillFormat e (format.length + 1) format.toList).map fun s => String.ofList (s ++ ['\n'])

/-! ## Handlers -/

/-- Where lines go. -/
inductive Sink where
  | console
  | file (place : Files.Place)
deriving Repr, DecidableEq

/-- Shows the entries from a level on. -/
structure Handler where
  sink : Sink
  level : Level
  format : String
deriving Repr, DecidableEq

/-- The handlers, and the levels from which entries reach them: of this
    program, and of all others. -/
structure LogSetup where
  rootLevel : Level := Level.warning
  ownLevel : Level := Level.notSet
  handlers : List Handler := []
deriving Repr, DecidableEq

/-- The level from which an entry reaches the handlers. -/
def LogSetup.threshold (s : LogSetup) (e : LogEntry) : Level :=
  if e.isOwn && s.ownLevel != Level.notSet then s.ownLevel else s.rootLevel

/-- The format of lines, if none is asked for. -/
def defaultLogFormat : String := "%(levelname)s: %(message)s"

end GemBinder
