import GemBinder.Proofs.Text.Placeholder
import GemBinder.Proofs.TypeSpelling
import GemBinder.Marshal

/-! # What crosses can be written

    If the type of a variable is spelled without braces, the templates of
    its marshalling hold one field each at most, and filling them in
    succeeds. -/

namespace GemBinder

open Text Placeholder

namespace Marshal

theorem lookUp_index (n : Int) : lookUp [("index", .number n)] "index".toList = .ok (.number n) :=
  rfl

theorem lookUp_expr (e : String) : lookUp [("expr", .text e)] "expr".toList = .ok (.text e) :=
  rfl

/-- The template of an argument is filled in with its position. -/
theorem fill_indexField {get : String} (h : BraceFree get.toList) (n : Int) :
    fill [("index", .number n)] (get ++ indexField) = .ok (get ++ "(" ++ toString n ++ ")") := by
  have htemplate : get ++ indexField = get ++ "(" ++ ("\x7b" ++ "index" ++ "\x7d") ++ ")" := by
    rw [String.append_assoc, String.append_assoc]
    rfl
  have hbefore : BraceFree (get ++ "(").toList := by
    rw [String.toList_append]
    exact h.append (by decide)
  rw [htemplate]
  exact fill_field hbefore (by decide) (by decide) (by decide) (lookUp_index n) rfl

/-- The template of a result is filled in with its expression. -/
theorem fill_exprField {before after : String} (hbefore : BraceFree before.toList)
    (hafter : BraceFree after.toList) (e : String) :
    fill [("expr", .text e)] (before ++ exprField ++ after) = .ok (before ++ e ++ after) := by
  have hfield : exprField = "\x7b" ++ "expr" ++ "\x7d" := rfl
  rw [hfield]
  exact fill_field hbefore hafter (by decide) (by decide) (lookUp_expr e) rfl

theorem argumentMacro_plain (c : Category) :
    BraceFree c.argumentMacro.toList ∧ OneLine c.argumentMacro := by
  have hall : ∀ s ∈ ["GET_FLOAT_ARG", "GET_STRING_ARG", "GET_INT_ARG"],
      BraceFree s.toList ∧ OneLine s := by decide
  cases c with
  | float => exact hall _ (by decide)
  | cString => exact hall _ (by decide)
  | _ => exact hall "GET_INT_ARG" (by decide)

theorem returnMacro_plain (c : Category) :
    BraceFree c.returnMacro.toList ∧ OneLine c.returnMacro := by
  have hall : ∀ s ∈ ["SET_NIL_RETURN", "SET_BOOL_RETURN", "SET_FLOAT_RETURN", "SET_RETURN",
      "SET_INT_RETURN"], BraceFree s.toList ∧ OneLine s := by decide
  cases c with
  | void => exact hall _ (by decide)
  | boolean => exact hall _ (by decide)
  | float => exact hall _ (by decide)
  | cString => exact hall _ (by decide)
  | _ => exact hall "SET_INT_RETURN" (by decide)

/-- **AN ARGUMENT CAN BE TAKEN**, if its type is spelled without braces, and
    it takes one line if its type does. -/
theorem argument_ofCategory {cType : String} (c : Category) (h : BraceFree cType.toList)
    (n : Int) :
    ∃ shown, (ofCategory c cType).argument n = .ok shown ∧
      (OneLine cType → OneLine shown) := by
  obtain ⟨hget, hone⟩ := argumentMacro_plain c
  cases c with
  | void => exact ⟨"", fill_of_braceFree (by decide : BraceFree "".toList), fun _ => by decide⟩
  | cString =>
      refine ⟨_, fill_indexField (by decide : BraceFree "(const char*)GET_STRING_ARG".toList) n,
        fun _ => ?_⟩
      simp +decide
  | handle =>
      have hbefore : BraceFree ("(" ++ cType ++ ")(intptr_t)" ++ "GET_INT_ARG").toList := by
        simp only [String.toList_append]
        exact (((by decide : BraceFree "(".toList).append h).append (by decide)).append
          (by decide)
      refine ⟨_, fill_indexField hbefore n, fun hc => ?_⟩
      simp +decide [hc]
  | _ =>
      refine ⟨_, fill_indexField hget n, fun _ => ?_⟩
      simp +decide [hone]

/-- **A RESULT CAN BE RETURNED**, and takes one line if its expression does. -/
theorem statement_ofCategory (c : Category) (cType e : String) :
    ∃ shown, (ofCategory c cType).statement e = .ok shown ∧ (OneLine e → OneLine shown) := by
  obtain ⟨hset, hone⟩ := returnMacro_plain c
  have hbefore : BraceFree (c.returnMacro ++ "(").toList := by
    rw [String.toList_append]
    exact hset.append (by decide)
  cases c with
  | void =>
      refine ⟨"SET_NIL_RETURN();",
        fill_of_braceFree (by decide : BraceFree "SET_NIL_RETURN();".toList), fun _ => ?_⟩
      decide
  | cString =>
      refine ⟨_, fill_exprField
        (by decide : BraceFree "SET_RETURN(mrbc_string_new_cstr(vm, ".toList)
        (by decide : BraceFree "));".toList) e, fun he => ?_⟩
      simp +decide [he]
  | handle =>
      refine ⟨_, fill_exprField (by decide : BraceFree ("SET_INT_RETURN" ++ "((intptr_t)").toList)
        (by decide : BraceFree ");".toList) e, fun he => ?_⟩
      simp +decide [he]
  | _ =>
      refine ⟨_, fill_exprField hbefore (by decide : BraceFree ");".toList) e, fun he => ?_⟩
      simp +decide [hone, he]

end Marshal
end GemBinder
