import GemBinder.GemView
import GemBinder.Proofs.Template.Render
import GemBinder.Proofs.Text.Lines
import GemBinder.Template.Bundled
import GemBinder.TypeRules

/-! # The stub on the Ruby side

    The bundled template of the Ruby side documents what a gem binds.  Filled
    in, it is a list of lines: two at its head, then the lines of every class
    and those of the enumerations that no class declares. -/

namespace GemBinder

open Template Text

/-! ## The template -/

namespace Template.Bundled

/-- The tokens of a field of a thing. -/
def fieldTokens (thing name : String) : List Token := [.name thing, .mark ".", .name name]

/-- The tag that begins a loop. -/
def forTag (x : String) (items : List Token) : Segment :=
  .tag (.name "for" :: .name x :: .name "in" :: items)

/-- The tag that ends a loop. -/
def endFor : Segment := .tag [.name "endfor"]

/-- The segments of a comma between the items of a loop. -/
def commaSegments : List Segment :=
  [.tag (.name "if" :: .name "not" :: fieldTokens "loop" "last"), .text ", ",
    .tag [.name "endif"]]

/-- The segments of the values of an enumeration. -/
def valuesSegments (parts : List Segment) : List Segment :=
  [.text ": ", forTag "v" [.name "e", .mark "[", .text "values", .mark "]"],
    .output (fieldTokens "v" "name")] ++ parts ++ commaSegments ++ [endFor, .text "\n", endFor]

/-- The segments of the template of the Ruby side. -/
def mrblibSegments : List Segment :=
  [.text "# ", .output (fieldTokens "config" "gem_name"),
    .text " Ruby bindings\n# Auto-generated by mrbgem-binding-generator\n",
    forTag "cls" [.name "classes"], .text "\n# Class: ", .output (fieldTokens "cls" "name"),
    .text "\n",
    forTag "m" (fieldTokens "cls" "methods"), .text "#   ", .output (fieldTokens "m" "name"),
    .text "(", forTag "p" (fieldTokens "m" "params"), .output (fieldTokens "p" "name"),
    .text ": ", .output (fieldTokens "p" "type" ++ [.mark "|", .name "ruby_type"])] ++
    commaSegments ++
  [endFor, .text ") -> ",
    .output (fieldTokens "m" "return_type" ++ [.mark "|", .name "ruby_type"]), .text "\n", endFor,
    forTag "e" (fieldTokens "cls" "enums"), .text "#   enum ", .output (fieldTokens "e" "name")] ++
    valuesSegments [] ++
  [endFor, .tag [.name "if", .name "enums"], .text "\n# Enums\n",
    forTag "e" [.name "enums"], .text "#   ", .output (fieldTokens "e" "name")] ++
    valuesSegments
      [.tag (.name "if" :: fieldTokens "v" "value" ++ [.name "is", .name "not", .name "none"]),
        .text " = ", .output (fieldTokens "v" "value"), .tag [.name "endif"]] ++
  [.tag [.name "endif"]]

/-- A parameter in the template: its name and the Ruby name of its type. -/
def parameterNodes : List Node :=
  [.output (field "p" "name"), .text ": ", .output (.filtered (field "p" "type") "ruby_type")]

/-- A method in the template. -/
def methodNodes : List Node :=
  [.text "#   ", .output (field "m" "name"), .text "(",
    loopOver "p" (field "m" "params") (parameterNodes ++ [between ", "]), .text ") -> ",
    .output (.filtered (field "m" "return_type") "ruby_type"), .text "\n"]

/-- An enumeration in the template, from its name on. -/
def enumNodes (value : List Node) : List Node :=
  [.output (field "e" "name"), .text ": ",
    loopOver "v" (.item (.name "e") (.literal (.text "values"))) (value ++ [between ", "]),
    .text "\n"]

/-- A class in the template. -/
def classNodes : List Node :=
  [.text "\n# Class: ", .output (field "cls" "name"), .text "\n",
    loopOver "m" (field "cls" "methods") methodNodes,
    loopOver "e" (field "cls" "enums") (.text "#   enum " :: enumNodes [.output (field "v" "name")])]

/-- The value of an enumeration in the template, with its number. -/
def valueNodes : List Node :=
  [.output (field "v" "name"),
    .branch (.negation (.tested (field "v" "value") "none"))
      (sequence [.text " = ", .output (field "v" "value")]) .empty]

/-- The template of the Ruby side as a tree. -/
def mrblibNodes : List Node :=
  [.text "# ", .output (field "config" "gem_name"),
    .text " Ruby bindings\n# Auto-generated by mrbgem-binding-generator\n",
    loopOver "cls" (.name "classes") classNodes,
    .branch (.name "enums")
      (sequence [.text "\n# Enums\n",
        loopOver "e" (.name "enums") (.text "#   " :: enumNodes valueNodes)]) .empty]

theorem toList_lines (parts : List (List String)) :
    (lines parts).toList = parts.flatMap fun line => line.flatMap String.toList ++ ['\n'] := by
  simp [lines, List.flatMap_map]

theorem segments_mrblib :
    (segments ((unifyLineEnds mrblib.toList).length + 2) true
      (unifyLineEnds mrblib.toList)).toOption = some mrblibSegments := by
  rw [mrblib, toList_lines]
  simp only [put, tag, List.flatMap_cons, List.flatMap_nil, String.toList_append]
  decide +kernel

/-- **THE BUNDLED TEMPLATE IS READ**. -/
theorem read_mrblib : Template.read mrblib = .ok (sequence mrblibNodes) := by
  have h := segments_mrblib
  cases hparts : segments ((unifyLineEnds mrblib.toList).length + 2) true
      (unifyLineEnds mrblib.toList) with
  | error e =>
      rw [hparts] at h
      exact nomatch h
  | ok parts =>
      rw [hparts] at h
      obtain rfl := Option.some.inj h
      exact read_of_segments hparts rfl rfl

end Template.Bundled

/-! ## Filled in -/

/-- Two texts before a third are one text before it. -/
theorem append_merged {s t u : String} (h : s ++ t = u) (v : String) : s ++ (t ++ v) = u ++ v := by
  rw [← String.append_assoc, h]

/-- A method as the stub shows it. -/
def Method.stubLine (rules : TypeRules) (m : Method) : String :=
  let parameters := (m.parameterNames.zip m.parameterTypes).map fun (name, type) =>
    name ++ ": " ++ rules.rubyName type
  "#   " ++ m.name ++ "(" ++ joinStrings ", " parameters ++ ") -> " ++ rules.rubyName m.returnType

/-- An enumeration of a class as the stub shows it. -/
def EnumDecl.stubLine (e : EnumDecl) : String :=
  "#   enum " ++ e.name ++ ": " ++ joinStrings ", " (e.values.map (·.name))

/-- A class as the stub shows it. -/
def ClassDecl.stubLines (rules : TypeRules) (c : ClassDecl) : List String :=
  ["", "# Class: " ++ c.name] ++ c.methods.map (·.stubLine rules) ++ c.enums.map (·.stubLine)

/-- A value as the stub shows it: with its number, where one is written. -/
def EnumValue.stubEntry (v : EnumValue) : String :=
  match v.value with
  | none => v.name
  | some s => v.name ++ " = " ++ s

/-- An enumeration outside all classes as the stub shows it. -/
def EnumDecl.stubEntry (e : EnumDecl) : String :=
  "#   " ++ e.name ++ ": " ++ joinStrings ", " (e.values.map (·.stubEntry))

/-- **THE STUB**: its lines as they are written. -/
def GemView.stubLines (v : GemView) (rules : TypeRules) : List String :=
  ["# " ++ v.config.gemName ++ " Ruby bindings", "# Auto-generated by mrbgem-binding-generator"] ++
    v.classes.flatMap (·.stubLines rules) ++
    (if v.enums.isEmpty then [] else ["", "# Enums"] ++ v.enums.map (·.stubEntry))

namespace Template.Bundled

variable {env : Env}

/-- A parameter with its name as templates see it. -/
def parameterView (p : String × String) : Json :=
  .object [("name", .text p.1), ("type", .text p.2)]

/-- A value of an enumeration as templates see it. -/
def valueView (v : EnumValue) : Json :=
  .object [("name", .text v.name), ("value", .ofOption v.value)]

/-- The parameters of a method, with commas between them. -/
theorem render_parameters {m : Method} (hm : env.names.lookup "m" = some (.plain m.view)) :
    (loopOver "p" (field "m" "params") (parameterNodes ++ [between ", "])).render env =
      .ok (joinStrings ", " ((m.parameterNames.zip m.parameterTypes).map fun (name, type) =>
        name ++ ": " ++ env.rubyType type)) := by
  refine render_loopOver_between (by decide) parameterView
    (eval_field hm rfl rfl) fun (name, type) _ i n => ?_
  have hp : (env.inLoop "p" (parameterView (name, type)) i n).names.lookup "p" =
      some (.plain (parameterView (name, type))) := lookup_inLoop_self _ _ _ _
  have hfills := Fills.cons (render_output (eval_field hp (n := "name") rfl rfl)) <|
    .cons (render_text ": ") <|
    .cons (render_rubyType (eval_field hp (n := "type") rfl rfl)) .nil
  rwa [String.append_empty, ← String.append_assoc] at hfills

theorem fills_method {m : Method} {rules : TypeRules} (hrules : env.rubyType = rules.rubyName)
    (hm : env.names.lookup "m" = some (.plain m.view)) :
    Fills env methodNodes (m.stubLine rules ++ "\n") := by
  have hfills : Fills env methodNodes _ := .cons (render_text "#   ") <|
    .cons (render_output (eval_field hm (n := "name") rfl rfl)) <|
    .cons (render_text "(") <|
    .cons (render_parameters hm) <|
    .cons (render_text ") -> ") <|
    .cons (render_rubyType (eval_field hm (n := "return_type") rfl rfl)) <|
    .cons (render_text "\n") .nil
  simpa only [Method.stubLine, hrules, String.append_assoc, String.append_empty] using hfills

/-- An enumeration from its name on, as its values are shown. -/
theorem fills_enum {e : EnumDecl} {value : List Node} {shown : EnumValue → String}
    (he : env.names.lookup "e" = some (.plain e.toJson))
    (hvalue : ∀ v ∈ e.values, ∀ i n, Fills (env.inLoop "v" (valueView v) i n) value (shown v)) :
    Fills env (enumNodes value)
      (e.name ++ ": " ++ joinStrings ", " (e.values.map shown) ++ "\n") := by
  have hvalues : (loopOver "v" (.item (.name "e") (.literal (.text "values")))
      (value ++ [between ", "])).render env = .ok (joinStrings ", " (e.values.map shown)) :=
    render_loopOver_between (by decide) valueView (eval_member he rfl) hvalue
  have hfills : Fills env (enumNodes value) _ :=
    .cons (render_output (eval_field he (n := "name") rfl rfl)) <|
    .cons (render_text ": ") <| .cons hvalues <| .cons (render_text "\n") .nil
  simpa only [String.append_assoc, String.append_empty] using hfills

/-- The name of a value of an enumeration. -/
theorem fills_valueName (v : EnumValue) (i n : Nat) :
    Fills (env.inLoop "v" (valueView v) i n) [.output (field "v" "name")] v.name := by
  have hv : (env.inLoop "v" (valueView v) i n).names.lookup "v" = some (.plain (valueView v)) :=
    lookup_inLoop_self _ _ _ _
  have hfills := Fills.cons (render_output (eval_field hv (n := "name") rfl rfl)) .nil
  rwa [String.append_empty] at hfills

/-- A value of an enumeration with its number, where one is written. -/
theorem fills_value (v : EnumValue) (i n : Nat) :
    Fills (env.inLoop "v" (valueView v) i n) valueNodes v.stubEntry := by
  have hv : (env.inLoop "v" (valueView v) i n).names.lookup "v" = some (.plain (valueView v)) :=
    lookup_inLoop_self _ _ _ _
  have hnumber := eval_field hv (n := "value") rfl rfl
  have hcondition : (Expr.negation (.tested (field "v" "value") "none")).eval
      (env.inLoop "v" (valueView v) i n) = .ok (.plain (.bool v.value.isSome)) := by
    rw [eval_negation, eval_tested, hnumber]
    cases v.value <;> rfl
  have hbranch : (Node.branch (.negation (.tested (field "v" "value") "none"))
      (sequence [.text " = ", .output (field "v" "value")]) .empty).render
        (env.inLoop "v" (valueView v) i n) =
          .ok (match v.value with | none => "" | some s => " = " ++ s) := by
    rw [render_branch hcondition (b := v.value.isSome) rfl]
    cases hs : v.value with
    | none => rfl
    | some s =>
        rw [hs] at hnumber
        have hfills : Fills (env.inLoop "v" (valueView v) i n)
            [.text " = ", .output (field "v" "value")] _ :=
          .cons (render_text " = ") <| .cons (render_output hnumber) .nil
        rw [String.append_empty] at hfills
        exact hfills.render
  have hfills : Fills (env.inLoop "v" (valueView v) i n) valueNodes _ :=
    .cons (render_output (eval_field hv (n := "name") rfl rfl)) <| .cons hbranch .nil
  rw [String.append_empty] at hfills
  rw [EnumValue.stubEntry]
  cases hs : v.value with
  | none => rw [hs] at hfills; simpa using hfills
  | some s => rw [hs] at hfills; simpa [String.append_assoc] using hfills

theorem fills_class {c : ClassDecl} {rules : TypeRules} (hrules : env.rubyType = rules.rubyName)
    (hc : env.names.lookup "cls" = some (.plain c.view)) :
    Fills env classNodes (textOf (c.stubLines rules)) := by
  have hmethods : (loopOver "m" (field "cls" "methods") methodNodes).render env =
      .ok (String.join (c.methods.map (·.stubLine rules ++ "\n"))) :=
    render_loopOver_join Method.view (eval_field hc rfl rfl) fun m _ i n =>
      fills_method hrules (lookup_inLoop_self _ _ _ _)
  have henums : (loopOver "e" (field "cls" "enums")
        (.text "#   enum " :: enumNodes [.output (field "v" "name")])).render env =
      .ok (String.join (c.enums.map (·.stubLine ++ "\n"))) := by
    refine render_loopOver_join EnumDecl.toJson (eval_field hc rfl rfl) fun e _ i n => ?_
    have hfills : Fills (env.inLoop "e" e.toJson i n)
        (.text "#   enum " :: enumNodes [.output (field "v" "name")]) _ :=
      .cons (render_text "#   enum ") <|
        fills_enum (lookup_inLoop_self _ _ _ _) fun v _ i n => fills_valueName v i n
    simpa only [EnumDecl.stubLine, String.append_assoc] using hfills
  have hfills : Fills env classNodes _ := .cons (render_text "\n# Class: ") <|
    .cons (render_output (eval_field hc (n := "name") rfl rfl)) <|
    .cons (render_text "\n") <| .cons hmethods <| .cons henums .nil
  have hhead := append_merged (show "\n" ++ "# Class: " = "\n# Class: " by decide)
  simpa [ClassDecl.stubLines, textOf_map, String.append_assoc, hhead] using hfills

/-- **THE STUB IS WRITTEN AS ITS LINES**, for every gem. -/
theorem render_mrblib (v : GemView) (rules : TypeRules) :
    (Template.read mrblib >>= fun n => n.render (v.env rules)) =
      .ok (textOf (v.stubLines rules)) := by
  have hclasses : (loopOver "cls" (.name "classes") classNodes).render (v.env rules) =
      .ok (String.join (v.classes.map fun c => textOf (c.stubLines rules))) :=
    render_loopOver_join ClassDecl.view (eval_name rfl) fun c _ i n =>
      fills_class rfl (lookup_inLoop_self _ _ _ _)
  have henums : (loopOver "e" (.name "enums") (.text "#   " :: enumNodes valueNodes)).render
      (v.env rules) = .ok (String.join (v.enums.map (·.stubEntry ++ "\n"))) := by
    refine render_loopOver_join EnumDecl.toJson (eval_name rfl) fun e _ i n => ?_
    have hfills : Fills ((v.env rules).inLoop "e" e.toJson i n)
        (.text "#   " :: enumNodes valueNodes) _ := .cons (render_text "#   ") <|
      fills_enum (lookup_inLoop_self _ _ _ _) fun w _ i n => fills_value w i n
    simpa only [EnumDecl.stubEntry, String.append_assoc] using hfills
  have hname : (field "config" "gem_name").eval (v.env rules) =
      .ok (.plain (.text v.config.gemName)) := rfl
  have hbranch : (Node.branch (.name "enums") (sequence [.text "\n# Enums\n",
      loopOver "e" (.name "enums") (.text "#   " :: enumNodes valueNodes)]) .empty).render
        (v.env rules) = .ok (textOf (if v.enums.isEmpty then [] else
          ["", "# Enums"] ++ v.enums.map (·.stubEntry))) := by
    rw [render_branch (eval_name rfl) (b := !v.enums.isEmpty) (by cases v.enums <;> rfl)]
    cases v.enums.isEmpty with
    | true => rfl
    | false =>
        have hfills := Fills.cons (render_text "\n# Enums\n") <| .cons henums .nil
        have hhead := append_merged (show "\n" ++ "# Enums\n" = "\n# Enums\n" by decide)
        simpa [textOf_map, String.append_assoc, hhead] using hfills.render
  have hfills : Fills (v.env rules) mrblibNodes _ := .cons (render_text "# ") <|
    .cons (render_output hname) <|
    .cons (render_text " Ruby bindings\n# Auto-generated by mrbgem-binding-generator\n") <|
    .cons hclasses <| .cons hbranch .nil
  rw [read_mrblib]
  show (sequence mrblibNodes).render (v.env rules) = _
  rw [hfills.render]
  have hhead := append_merged
    (show " Ruby bindings\n" ++ "# Auto-generated by mrbgem-binding-generator\n" =
      " Ruby bindings\n# Auto-generated by mrbgem-binding-generator\n" by decide)
  simp [GemView.stubLines, textOf_flatMap, String.append_assoc, hhead]

end Template.Bundled
end GemBinder
