import GemBinder.Proofs.Source.Natives
import GemBinder.Proofs.TypeSpelling

/-! # Heads on one line

    Where names and types are spelled on one line, so is the head of every
    native function: what is made from them loses characters, changes their
    case or adds marks of its own, and none of these is a newline. -/

namespace GemBinder

open Text TypeSpelling

/-- A member whose names and types are spelled on one line. -/
structure Member.OnOneLine (m : Member) : Prop where
  owner : OneLine m.owner
  name : OneLine m.method.name
  result : OneLine m.method.returnType
  types : ∀ type ∈ m.method.parameterTypes, OneLine type

/-! ## Parameters -/

/-- A usable name holds no blank, and any other is made up. -/
theorem notMem_parameterName {mark : Char} (hblank : isBlank mark = true)
    (hdigit : mark.isDigit = false) (hmade : mark ∉ "param_-".toList) (name : Option String)
    (index : Int) : mark ∉ (parameterName name index).toList := by
  have hindex : mark ∉ ("param_" ++ index.repr).toList := by
    rw [String.toList_append, List.mem_append, not_or]
    exact ⟨fun hmem => hmade (List.mem_append_left ['-'] hmem),
      notMem_int_repr hdigit (by rintro rfl; exact hmade (by decide)) index⟩
  unfold parameterName
  cases name with
  | none => exact hindex
  | some n =>
      dsimp only
      by_cases husable : isUsableName n = true
      · rw [if_pos husable]
        rw [isUsableName] at husable
        rw [Bool.and_eq_true, Bool.not_eq_true', Bool.not_eq_true', List.any_eq_false] at husable
        intro hm
        exact husable.2 mark hm (by rw [isUnusableInName, hblank, Bool.or_true])
      · rw [if_neg husable]
        exact hindex

theorem unbroken_parameterName (name : Option String) (index : Int) :
    Unbroken (parameterName name index) :=
  ⟨notMem_parameterName (by decide) (by decide) (by decide) name index,
    notMem_parameterName (by decide) (by decide) (by decide) name index⟩

theorem unbroken_of_mem_parameterNames {m : Method} {name : String} (h : name ∈ m.parameterNames) :
    Unbroken name := by
  obtain ⟨⟨p, i⟩, -, rfl⟩ := List.mem_map.mp h
  exact unbroken_parameterName p.name i

theorem oneLine_of_mem_parameterNames {m : Method} {name : String} (h : name ∈ m.parameterNames) :
    OneLine name := (unbroken_of_mem_parameterNames h).oneLine

theorem oneLine_listParameters {m : Method} {types : List String}
    (h : ∀ type ∈ types, OneLine type) : OneLine (m.listParameters types) := by
  rw [Method.listParameters]
  by_cases hempty : m.parameters.isEmpty = true
  · rw [if_pos hempty]
    decide
  · rw [if_neg hempty]
    refine oneLine_joinStrings (by decide) ?_
    intro p hp
    obtain ⟨⟨type, name⟩, hmem, rfl⟩ := List.mem_map.mp hp
    obtain ⟨htype, hname⟩ := List.of_mem_zip hmem
    simp +decide [h type htype, oneLine_of_mem_parameterNames hname]

/-! ## Heads -/

namespace Generator

variable {g : Generator} {m : Member}

theorem oneLine_nameOf (hvendor : OneLine g.config.vendorPrefix) (hm : m.OnOneLine) :
    OneLine (g.nameOf m) := by
  have hbase : OneLine (g.config.vendorPrefix ++ "_" ++ lowerString m.owner ++ "_"
      ++ lowerString m.method.name) := by
    simp +decide [hvendor, hm.owner.lowerString, hm.name.lowerString]
  rw [nameOf, Method.nativeName]
  by_cases hempty : m.method.parameters.isEmpty = true
  · rw [if_pos hempty]
    exact hbase.append (by decide)
  · rw [if_neg hempty]
    refine (hbase.append (by decide)).append (oneLine_joinStrings (by decide) ?_)
    intro fragment hfragment
    obtain ⟨type, -, rfl⟩ := List.mem_map.mp hfragment
    exact oneLine_nameFragmentString type

theorem oneLine_nativeReturn {type : String} (h : OneLine type) :
    OneLine (g.rules.nativeReturn type) := by
  rw [TypeRules.nativeReturn]
  cases g.rules.classify type with
  | boolean => exact (by decide : OneLine "int")
  | _ => exact oneLine_byValueString h

/-- **A HEAD IS ONE LINE.** -/
theorem oneLine_nativeHead (hvendor : OneLine g.config.vendorPrefix) (hm : m.OnOneLine) :
    OneLine (g.nativeHead m) := by
  have hparameters : OneLine m.method.nativeParameterList := by
    refine oneLine_listParameters ?_
    intro type htype
    obtain ⟨t, ht, rfl⟩ := List.mem_map.mp htype
    exact oneLine_byValueString (hm.types t ht)
  have hname : OneLine (m.method.nativeName m.owner g.config.vendorPrefix) :=
    oneLine_nameOf hvendor hm
  show OneLine (g.rules.nativeReturn m.method.returnType ++ " "
    ++ m.method.nativeName m.owner g.config.vendorPrefix ++ "("
    ++ m.method.nativeParameterList ++ ")")
  simp +decide [oneLine_nativeReturn hm.result, hname, hparameters]

end Generator
end GemBinder
