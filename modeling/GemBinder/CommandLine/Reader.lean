import GemBinder.CommandLine.Options

/-! # Reading a command line

    The words of a command are first told apart, each for itself: options,
    values, and the mark behind which all is values.  Then the options are
    taken from left to right with the values that they need.  An option may
    be shortened as long as it stays the only one that fits. -/

namespace GemBinder.CommandLine

open Text

/-! ## Errors -/

/-- What is wrong with a command line. -/
inductive UsageError where
  | ambiguous (word : String) (spellings : List String)
  | needsValue (k : OptionKey)
  | takesNoValue (k : OptionKey) (value : String)
  | excluded (k other : OptionKey)
  | notAChoice (k : OptionKey) (value : String) (choices : List String)
  | needsOneOf (keys : List OptionKey)
  | unrecognized (words : List String)
deriving Repr, DecidableEq

/-- The wording of an error. -/
def UsageError.message : UsageError → String
  | .ambiguous word spellings =>
      s!"ambiguous option: {word} could match " ++ joinStrings ", " spellings
  | .needsValue k => s!"argument {k.shown}: expected one argument"
  | .takesNoValue k value => s!"argument {k.shown}: ignored explicit argument {quoted value}"
  | .excluded k other => s!"argument {k.shown}: not allowed with argument {other.shown}"
  | .notAChoice k value choices =>
      s!"argument {k.shown}: invalid choice: {quoted value} (choose from " ++
        joinStrings ", " (choices.map quoted) ++ ")"
  | .needsOneOf keys =>
      "one of the arguments " ++ joinStrings " " (keys.map OptionKey.shown) ++ " is required"
  | .unrecognized words => "unrecognized arguments: " ++ joinStrings " " words

/-- Why a command line asks for no run: for help, or by an error. -/
inductive Stop where
  | help
  | usage (e : UsageError)
deriving Repr, DecidableEq

/-! ## Words -/

/-- What a word is: a value, the mark behind which all is values, an option,
    maybe with a text attached, or like an option but none. -/
inductive Word where
  | value
  | mark
  | option (k : OptionKey) (attached : Option String)
  | unknown
deriving Repr, DecidableEq

/-- A text around its first equals sign, if it has one. -/
def splitEquals (s : String) : String × Option String :=
  let before := beforeChar '=' s.toList
  match s.toList.drop before.length with
  | [] => (s, none)
  | _ :: after => (String.ofList before, some (String.ofList after))

/-- Whether a spelling begins with a text. -/
def begins (start spelling : String) : Bool := start.toList.isPrefixOf spelling.toList

/-- The options that a word may stand for.  A long one may be shortened and
    have a value attached; the first letter of a short one may be followed
    by more. -/
def candidates (s : String) : List (String × OptionKey × Option String) :=
  if begins "--" s then
    let (start, attached) := splitEquals s
    OptionKey.table.filterMap fun (spelling, k) =>
      if begins start spelling then some (spelling, k, attached) else none
  else
    let short := String.ofList (s.toList.take 2)
    OptionKey.table.filterMap fun (spelling, k) =>
      if spelling == short then some (spelling, k, some (String.ofList (s.toList.drop 2)))
      else if begins s spelling then some (spelling, k, none)
      else none

/-- Whether a text is a run of digits, a line feed behind it aside. -/
def isDigits (s : List Char) : Bool :=
  let s := (dropSuffix? ['\n'] s).getD s
  !s.isEmpty && s.all isDecimalDigit

/-- Whether a text is a number with a minus sign, with or without a point. -/
def isNegativeNumber : List Char → Bool
  | '-' :: s =>
      isDigits s ||
        (match s.dropWhile isDecimalDigit with
         | '.' :: fraction => isDigits fraction
         | _ => false)
  | _ => false

/-- What a word that no candidate fits is. -/
def classifyRest (s : String) : Word :=
  if isNegativeNumber s.toList || s.toList.contains ' ' then .value else .unknown

/-- What a word before the mark is. -/
def classify (s : String) : Except UsageError Word :=
  if !begins "-" s || s == "-" then .ok .value
  else
    match OptionKey.ofSpelling? s, splitEquals s with
    | some k, _ => .ok (.option k none)
    | none, (start, attached) =>
        match (if attached.isSome then OptionKey.ofSpelling? start else none), candidates s with
        | some k, _ => .ok (.option k attached)
        | none, [] => .ok (classifyRest s)
        | none, [(_, k, attached)] => .ok (.option k attached)
        | none, found => .error (.ambiguous s (found.map (·.1)))

/-- What each of the words is. -/
def classifyAll : List String → Except UsageError (List (String × Word))
  | [] => .ok []
  | s :: more =>
      if s == "--" then .ok ((s, .mark) :: more.map fun t => (t, .value))
      else do
        let w ← classify s
        return (s, w) :: (← classifyAll more)

/-! ## Options -/

/-- What is read so far: the options and the words that are left over. -/
structure Read where
  options : Options := {}
  leftOver : List String := []
deriving Repr, DecidableEq

/-- The read command with one more word that is left over. -/
def Read.leave (r : Read) (word : String) : Read := { r with leftOver := r.leftOver ++ [word] }

/-- Takes an option without a value. -/
def Read.takeFlag (r : Read) (k : OptionKey) : Except Stop Read :=
  if k == .help then .error .help else .ok { r with options := r.options.setFlag k }

/-- The value that an option is given, if it may have that. -/
def valueOf (k : OptionKey) (v : String) : Except UsageError String :=
  if k == .logLevel then
    let level := upperString v
    if Options.logLevels.contains level then .ok level
    else .error (.notAChoice k level Options.logLevels)
  else .ok v

/-- Takes an option with its value. -/
def Read.takeValue (r : Read) (k : OptionKey) (v : String) : Except Stop Read := do
  let v ← (valueOf k v).mapError .usage
  if OptionKey.sources.contains k then
    match OptionKey.sources.find? fun other => other != k && r.options.hasSource other with
    | some other => throw (.usage (.excluded k other))
    | none => return { r with options := r.options.setValue v k }
  else return { r with options := r.options.setValue v k }

/-- The flags that a flag and the letters behind it stand for. -/
def flagsOf (k : OptionKey) : List Char → Except UsageError (List OptionKey)
  | [] => .ok [k]
  | c :: more =>
      match OptionKey.ofSpelling? (String.ofList ['-', c]) with
      | some next => do return k :: (← flagsOf next more)
      | none => .error (.takesNoValue k (String.ofList (c :: more)))

/-- Takes an option with a text attached.  Behind the letter of a flag there
    may be the letters of more flags. -/
def Read.takeAttached (r : Read) (word : String) (k : OptionKey) (attached : String) :
    Except Stop Read :=
  if !k.isFlag then r.takeValue k attached
  else if begins "--" word || attached.isEmpty then .error (.usage (.takesNoValue k attached))
  else do
    let flags ← (flagsOf k attached.toList).mapError .usage
    flags.foldlM Read.takeFlag r

/-- Takes words from left to right. -/
def Read.takeAll (r : Read) : List (String × Word) → Except Stop Read
  | [] => .ok r
  | (s, .option k attached) :: more =>
      match attached with
      | some v => do takeAll (← r.takeAttached s k v) more
      | none =>
          if k.isFlag then do takeAll (← r.takeFlag k) more
          else
            match more with
            | (v, .value) :: more => do takeAll (← r.takeValue k v) more
            | _ => .error (.usage (.needsValue k))
  | (s, _) :: more => takeAll (r.leave s) more

/-- Checks what is read as a whole. -/
def Read.finish (r : Read) : Except UsageError Options :=
  if !OptionKey.sources.any r.options.hasSource then .error (.needsOneOf OptionKey.sources)
  else if !r.leftOver.isEmpty then .error (.unrecognized r.leftOver)
  else .ok r.options

/-- Reads the words of a command. -/
def readArguments (arguments : List String) : Except Stop Options := do
  let words ← (classifyAll arguments).mapError .usage
  let r ← Read.takeAll {} words
  r.finish.mapError .usage

end GemBinder.CommandLine
