import GemBinder.Text.CharClass

/-! # Trimming, splitting and joining

    The operations on texts that the other modules share.  They work on lists
    of characters; the versions on strings go through them. -/

namespace GemBinder.Text

/-! ## Trimming -/

/-- The text without its longest suffix of characters in `p`. -/
def trimEndWhere (p : Char → Bool) (s : List Char) : List Char :=
  (s.reverse.dropWhile p).reverse

/-- The text without its longest prefix and suffix of characters in `p`. -/
def trimWhere (p : Char → Bool) (s : List Char) : List Char :=
  trimEndWhere p (s.dropWhile p)

/-- The text without leading and trailing blanks. -/
def trim (s : List Char) : List Char :=
  trimWhere isBlank s

/-- The text without trailing blanks. -/
def trimEnd (s : List Char) : List Char :=
  trimEndWhere isBlank s

/-! ## Splitting -/

/-- The maximal runs of characters that are not blank. -/
def words : List Char → List (List Char)
  | [] => []
  | c :: rest =>
      if isBlank c then words rest
      else match rest, words rest with
        | [], _ => [[c]]
        | d :: _, found =>
            if isBlank d then [c] :: found
            else match found with
              | [] => [[c]]
              | w :: more => (c :: w) :: more

/-- The pieces between the occurrences of one character; there is always at
    least one piece. -/
def splitAtChar (sep : Char) : List Char → List (List Char)
  | [] => [[]]
  | c :: rest =>
      if c == sep then [] :: splitAtChar sep rest
      else match splitAtChar sep rest with
        | [] => [[c]]
        | piece :: more => (c :: piece) :: more

/-- What stands before the first occurrence of a character, or everything. -/
def beforeChar (sep : Char) (s : List Char) : List Char :=
  s.takeWhile (· != sep)

/-! ## Joining and searching -/

/-- The pieces in order, with the separator between neighbours. -/
def joinWith (sep : List Char) : List (List Char) → List Char
  | [] => []
  | [piece] => piece
  | piece :: more => piece ++ sep ++ joinWith sep more

/-- Whether the needle occurs somewhere in the text. -/
def contains (needle : List Char) : List Char → Bool
  | [] => needle.isEmpty
  | c :: rest => needle.isPrefixOf (c :: rest) || contains needle rest

/-- The text in which a suffix, if it is there, is gone. -/
def dropSuffix? (suffix s : List Char) : Option (List Char) :=
  if suffix.isSuffixOf s then some (s.take (s.length - suffix.length)) else none

/-! ## Strings -/

/-- The strings in order, with the separator between neighbours. -/
def joinStrings (sep : String) : List String → String
  | [] => ""
  | [piece] => piece
  | piece :: more => piece ++ sep ++ joinStrings sep more

/-- The string without leading and trailing blanks. -/
def trimString (s : String) : String :=
  String.ofList (trim s.toList)

/-- Whether the needle occurs somewhere in the string. -/
def containsString (needle s : String) : Bool :=
  contains needle.toList s.toList

/-- The lines of a text: the pieces between newlines. -/
def linesOf (s : String) : List String :=
  (splitAtChar '\n' s.toList).map String.ofList

/-! ## Small laws -/

theorem splitAtChar_ne_nil (sep : Char) (s : List Char) : splitAtChar sep s ≠ [] := by
  cases s with
  | nil => simp [splitAtChar]
  | cons c rest =>
      unfold splitAtChar
      split
      · simp
      · split <;> simp

/-- Joining the pieces with the separator gives the text back. -/
theorem joinWith_splitAtChar (sep : Char) (s : List Char) :
    joinWith [sep] (splitAtChar sep s) = s := by
  induction s with
  | nil => rfl
  | cons c rest ih =>
      unfold splitAtChar
      cases hp : splitAtChar sep rest with
      | nil => exact absurd hp (splitAtChar_ne_nil sep rest)
      | cons piece more =>
          rw [hp] at ih
          by_cases hc : c = sep
          · simp [hc, joinWith, ih]
          · cases more with
            | nil => simpa [hc, joinWith] using ih
            | cons second others => simpa [hc, joinWith] using ih

end GemBinder.Text
