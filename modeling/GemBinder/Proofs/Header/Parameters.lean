import GemBinder.Header.Declaration
import GemBinder.Proofs.Selection
import GemBinder.Proofs.Text.Words
import GemBinder.Proofs.TypeRules

/-! # Which parameter lists are refused

    The text between the parentheses of a method is split at every comma, and
    each piece at its blanks: the last word is the name, and the type is what
    stands before it, with the marks that are written against the name.  A
    selection asks the rules about these types and the return type, and about
    nothing else.

    The rules refuse a template by its brackets, so it is refused where both
    stand in the type of one piece.  The brackets of an array stand in a name
    or at the end of a single word, where no rule looks for them. -/

namespace GemBinder.Header

open Text

/-! ## The types of pieces -/

/-- The type that words spell: the only word, or all but the last with the
    marks at the head of that. -/
def typeOfWords (ws : List (List Char)) : List Char :=
  match ws.getLast? with
  | none => []
  | some last =>
      match ws.dropLast with
      | [] => last
      | front => joinWith [' '] front ++ last.takeWhile isMark

/-- The words of a piece; its default value is left out. -/
def wordsOfPiece (piece : List Char) : List (List Char) := words (beforeChar '=' piece)

/-- The type that a piece spells. -/
def pieceType (piece : List Char) : List Char := typeOfWords (wordsOfPiece piece)

/-- A piece without words is no parameter; any other has the type that it
    spells. -/
theorem parseParameter_cases (piece : List Char) :
    (parseParameter piece = none ∧ pieceType piece = []) ∨
      ∃ p, parseParameter piece = some p ∧ p.type = String.ofList (pieceType piece) := by
  rw [parseParameter, parameterOfWords, pieceType, typeOfWords, wordsOfPiece]
  cases (words (beforeChar '=' piece)).getLast? with
  | none => exact .inl ⟨rfl, rfl⟩
  | some last =>
      cases (words (beforeChar '=' piece)).dropLast with
      | nil => exact .inr ⟨_, rfl, rfl⟩
      | cons first more => exact .inr ⟨_, rfl, rfl⟩

/-- Blanks around a piece do not matter to its words. -/
theorem blankFree_wordsOfPiece : BlankFree wordsOfPiece where
  before := by
    intro c s hc
    have hne : c ≠ '=' := by
      rintro rfl
      exact absurd hc (by decide)
    have hkept : beforeChar '=' (c :: s) = c :: beforeChar '=' s :=
      List.takeWhile_cons_of_pos (bne_iff_ne.mpr hne)
    rw [wordsOfPiece, hkept]
    exact words_cons_blank hc
  after := by
    intro s t ht
    rw [wordsOfPiece, wordsOfPiece, beforeChar, beforeChar, List.takeWhile_append]
    split
    · next hall =>
        -- without a default value the blanks come behind the words
        rw [(List.takeWhile_prefix _).eq_of_length hall]
        exact words_append_blank fun c hc => ht c ((List.takeWhile_sublist _).subset hc)
    · rfl

theorem blankFree_pieceType : BlankFree pieceType where
  before := fun c s hc => congrArg typeOfWords (blankFree_wordsOfPiece.before c s hc)
  after := fun s t ht => congrArg typeOfWords (blankFree_wordsOfPiece.after s t ht)

/-! ## What the rules are asked -/

variable {rules : TypeRules} {s : List Char}

/-- **A TEMPLATE CANNOT CROSS**, if both its brackets are in the type. -/
theorem isUnsupported_of_brackets {type : String} (hopen : '<' ∈ type.toList)
    (hclose : '>' ∈ type.toList) : rules.isUnsupported type = true := by
  have htemplate : TypeRules.isTemplate (trim type.toList) = true := by
    rw [TypeRules.isTemplate, Bool.and_eq_true, List.contains_iff_mem, List.contains_iff_mem]
    exact ⟨mem_trim hopen (by decide), mem_trim hclose (by decide)⟩
  rw [TypeRules.isUnsupported_eq, TypeRules.obstacle?, if_pos htemplate]
  -- an obstacle that the rules look for first is as good
  split
  · rfl
  · split
    · rfl
    · split <;> rfl

/-- Whether the rules refuse the type that a piece spells. -/
def Refused (rules : TypeRules) (piece : List Char) : Prop :=
  rules.isUnsupported (String.ofList (pieceType piece)) = true

instance (rules : TypeRules) (piece : List Char) : Decidable (Refused rules piece) :=
  inferInstanceAs (Decidable (_ = true))

/-- A piece that spells no type is not refused. -/
theorem not_refused_of_nil {piece : List Char} (h : pieceType piece = []) :
    ¬ Refused rules piece := by
  rw [Refused, h]
  exact Bool.false_ne_true

theorem refused_of_brackets {piece : List Char} (hopen : '<' ∈ pieceType piece)
    (hclose : '>' ∈ pieceType piece) : Refused rules piece := by
  refine isUnsupported_of_brackets ?_ ?_
  · rw [String.toList_ofList]
    exact hopen
  · rw [String.toList_ofList]
    exact hclose

/-- Trimming a list of parameters changes none of the types in it. -/
theorem forall_refused_trim :
    (∀ piece ∈ splitAtChar ',' (trim s), ¬ Refused rules piece) ↔
      ∀ piece ∈ splitAtChar ',' s, ¬ Refused rules piece := by
  have hcomma : isBlank ',' = false := by decide
  have htypes := blankFree_pieceType.map_splitAtChar_trim hcomma s
  have hmap : ∀ pieces : List (List Char), (∀ piece ∈ pieces, ¬ Refused rules piece) ↔
      ∀ type ∈ pieces.map pieceType, ¬ rules.isUnsupported (String.ofList type) = true := by
    intro pieces
    rw [List.forall_mem_map]
    rfl
  rw [hmap, hmap, htypes]

/-- The rules support the parameters of a list just when they refuse no
    piece of it. -/
theorem forall_parseParameters :
    (∀ p ∈ parseParameters s, rules.isUnsupported p.type = false) ↔
      ∀ piece ∈ splitAtChar ',' s, ¬ Refused rules piece := by
  rw [← forall_refused_trim, parseParameters]
  by_cases hnone : ((trim s).isEmpty || trim s == "void".toList) = true
  · -- there are no parameters, and nothing that would be refused either
    rw [if_pos hnone]
    refine iff_of_true nofun ?_
    rw [Bool.or_eq_true, List.isEmpty_iff, beq_iff_eq] at hnone
    rcases hnone with hnil | hvoid
    · rw [hnil]
      exact List.forall_mem_singleton.mpr Bool.false_ne_true
    · rw [hvoid]
      exact List.forall_mem_singleton.mpr Bool.false_ne_true
  · rw [if_neg hnone]
    constructor
    · intro h piece hpiece
      rcases parseParameter_cases piece with ⟨-, hnil⟩ | ⟨p, hp, htype⟩
      · exact not_refused_of_nil hnil
      · rw [Refused, ← htype, h p (List.mem_filterMap.mpr ⟨piece, hpiece, hp⟩)]
        exact Bool.false_ne_true
    · intro h p hp
      obtain ⟨piece, hpiece, hparsed⟩ := List.mem_filterMap.mp hp
      rcases parseParameter_cases piece with ⟨hnone, -⟩ | ⟨q, hq, htype⟩
      · exact nomatch hnone.symm.trans hparsed
      · obtain rfl := Option.some.inj (hq.symm.trans hparsed)
        rw [htype]
        exact Bool.eq_false_iff.mpr (h piece hpiece)

/-! ## Methods -/

variable {body : List Char} {owner : Option String} {t : MethodText} {c : ClassDecl}
  {classes : List ClassDecl}

/-- A method crosses just when its return type does and no piece of its list
    is refused. -/
theorem supports_toMethod : rules.supports t.toMethod = true ↔
    rules.isUnsupported (String.ofList t.returnType) = false ∧
      ∀ piece ∈ splitAtChar ',' t.parameters, ¬ Refused rules piece :=
  TypeRules.supports_iff.trans (and_congr_right fun _ => forall_parseParameters)

/-- **TEMPLATES AND ARRAYS IN A TEXT**: without entries in the registry, a
    selection from classes drops a method that was read from the text of one
    of them if both brackets of a template are in the type of one piece of its
    parameters.  No parameter that is retained has both in its type.  The
    brackets of an array do not count: without the bracket of a template, a
    method is dropped just when its return type or the type of a piece is
    refused. -/
theorem template_dropped (rules : TypeRules) (ht : t ∈ scan methodAt body)
    (howner : some t.toMethod.name ≠ owner) (hc : c ∈ classes)
    (hmethods : c.methods = parseMethods body owner) :
    ∃ stats, selectMethods {} rules classes
        = .ok (classes.map (ClassDecl.supported rules), stats) ∧
      t.toMethod ∈ c.methods ∧ c.supported rules ∈ classes.map (ClassDecl.supported rules) ∧
      ((∃ piece ∈ splitAtChar ',' t.parameters, '<' ∈ pieceType piece ∧ '>' ∈ pieceType piece) →
        t.toMethod ∉ (c.supported rules).methods) ∧
      ('<' ∉ t.parameters → (t.toMethod ∉ (c.supported rules).methods ↔
        rules.isUnsupported (String.ofList t.returnType) = true ∨
          ∃ piece ∈ splitAtChar ',' t.parameters, Refused rules piece)) ∧
      ∀ m ∈ (c.supported rules).methods, ∀ p ∈ m.parameters,
        ¬ ('<' ∈ p.type.toList ∧ '>' ∈ p.type.toList) := by
  obtain ⟨stats, hselect⟩ := exists_selectMethods_empty rules classes
  have hextracted : t.toMethod ∈ c.methods := by
    rw [hmethods]
    exact List.mem_filter.mpr ⟨List.mem_map_of_mem ht, bne_iff_ne.mpr howner⟩
  have hdropped : t.toMethod ∉ (c.supported rules).methods ↔
      rules.isUnsupported (String.ofList t.returnType) = true ∨
        ∃ piece ∈ splitAtChar ',' t.parameters, Refused rules piece := by
    rw [ClassDecl.supported, ClassDecl.withMethods, List.mem_filter, and_iff_right hextracted,
      supports_toMethod, not_and_or, Bool.not_eq_false]
    simp only [not_forall, not_not, exists_prop]
  refine ⟨stats, hselect, hextracted, List.mem_map_of_mem hc, ?_, fun _ => hdropped, ?_⟩
  · rintro ⟨piece, hpiece, hopen, hclose⟩
    exact hdropped.mpr (.inr ⟨piece, hpiece, refused_of_brackets hopen hclose⟩)
  · rintro m hm p hp ⟨hopen, hclose⟩
    have hsupported := (TypeRules.supports_iff.mp (List.mem_filter.mp hm).2).2 p hp
    exact Bool.false_ne_true (hsupported.symm.trans (isUnsupported_of_brackets hopen hclose))

/-- A method with a template for its parameter, which is dropped. -/
theorem template_dropped_vector :
    let body := "void put(int n, std::vector<int> v);".toList
    let put : MethodText :=
      ⟨"void".toList, "put".toList, "int n, std::vector<int> v".toList, false⟩
    let c : ClassDecl := ⟨"A", parseMethods body (some "A"), [], "a.h"⟩
    put ∈ scan methodAt body ∧ put.toMethod ∈ c.methods ∧
      ∃ stats, selectMethods {} .default [c] = .ok ([c.supported .default], stats) ∧
        put.toMethod ∉ (c.supported .default).methods := by
  intro body put c
  have hput : put ∈ scan methodAt body := by decide +kernel
  have hname : some put.toMethod.name ≠ some "A" := by decide
  obtain ⟨stats, hselect, hextracted, -, hdropped, -⟩ :=
    template_dropped (c := c) .default hput hname (List.mem_singleton_self c) rfl
  refine ⟨hput, hextracted, stats, hselect, hdropped ?_⟩
  exact ⟨" std::vector<int> v".toList, by decide +kernel, by decide +kernel, by decide +kernel⟩

/-- **A COMMA AND A NAME HIDE BRACKETS**: a comma inside a template leaves none
    of its pieces with both brackets, the brackets of an array are read as
    part of a name, and both methods are retained. -/
theorem split_template_and_array_retained :
    let body := "void set(std::map<int, int> m); void fill(int a[3]);".toList
    let set : MethodText := ⟨"void".toList, "set".toList, "std::map<int, int> m".toList, false⟩
    let fill : MethodText := ⟨"void".toList, "fill".toList, "int a[3]".toList, false⟩
    let c : ClassDecl := ⟨"A", parseMethods body (some "A"), [], "a.h"⟩
    set ∈ scan methodAt body ∧ '=' ∉ set.parameters ∧ '<' ∈ set.parameters ∧
      fill ∈ scan methodAt body ∧ '=' ∉ fill.parameters ∧ '[' ∈ fill.parameters ∧
      c.methods = [set.toMethod, fill.toMethod] ∧
      ∃ stats, selectMethods {} .default [c] = .ok ([c], stats) := by
  intro body set fill c
  have hkept : c.supported .default = c := by decide +kernel
  obtain ⟨stats, hselect⟩ := exists_selectMethods_empty .default [c]
  rw [List.map_singleton, hkept] at hselect
  exact ⟨by decide +kernel, by decide, by decide, by decide +kernel, by decide, by decide,
    by decide +kernel, stats, hselect⟩

end GemBinder.Header
