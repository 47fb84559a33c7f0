import GemBinder.Text.Words

/-! # Comments of a header

    A line comment reaches to the end of its line, a block comment to the
    first mark that closes it.  A block comment that nothing closes is no
    comment. -/

namespace GemBinder.Header

/-- What is behind the first closing mark of a block comment. -/
def blockRest? : List Char → Option (List Char)
  | [] => none
  | '*' :: '/' :: rest => some rest
  | _ :: rest => blockRest? rest

/-- What is behind the comment that begins at the head of a text. -/
def commentRest? : List Char → Option (List Char)
  | '/' :: '/' :: rest => some (rest.dropWhile (· != '\n'))
  | '/' :: '*' :: rest => blockRest? rest
  | _ => none

theorem blockRest?_length {s r : List Char} (h : blockRest? s = some r) :
    r.length < s.length := by
  fun_induction blockRest? s with
  | case1 => simp at h
  | case2 rest =>
      cases h
      simp only [List.length_cons]
      omega
  | case3 c rest _ ih =>
      have := ih h
      simp only [List.length_cons]
      omega

theorem commentRest?_length {s r : List Char} (h : commentRest? s = some r) :
    r.length < s.length := by
  unfold commentRest? at h
  split at h
  · rename_i rest
    cases h
    have := (List.dropWhile_sublist (l := rest) (· != '\n')).length_le
    simp only [List.length_cons]
    omega
  · have := blockRest?_length h
    simp only [List.length_cons]
    omega
  · simp at h

/-- The text with a blank in place of every comment. -/
def stripComments : List Char → List Char
  | [] => []
  | c :: rest =>
      match _h : commentRest? (c :: rest) with
      | some behind => ' ' :: stripComments behind
      | none => c :: stripComments rest
termination_by s => s.length
decreasing_by
  · exact commentRest?_length ‹_›
  · exact Nat.lt_succ_self rest.length

end GemBinder.Header
