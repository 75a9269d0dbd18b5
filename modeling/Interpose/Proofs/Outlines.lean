import Interpose.Proofs.Lines
import Interpose.Proofs.Segments
import Interpose.Proxy.File
import Mathlib.Data.List.Basic

/-!
# Outlines

An artifact is read line by line. Its outline is the namespace and the class that it declares and the
lines of the class's members; the declaration of a proxy has its constructor's parameters too:
`Outline.read?_ofScope`, `Declaration.read?_ofScope`.
-/

namespace Interpose

theorem TypeRef.mem_simpleName {type : TypeRef} {c : Char} (member : c ∈ type.simpleName.toList) :
    c ∈ type.shortName.toList := by
  rw [simpleName, String.toList_ofList] at member
  exact (List.takeWhile_sublist _).subset member

namespace Text

/-- What a line holds between an opening and a closing text. -/
def between (opening closing line : String) : Option String := do
  let rest ← line.toList.dropPrefix? opening.toList
  let inner ← rest.dropSuffix? closing.toList
  return String.ofList inner

theorem between_eq_some_iff {opening closing line inner : String} :
    between opening closing line = some inner ↔ line = opening ++ inner ++ closing := by
  simp only [between, bind, Option.bind_eq_some_iff, pure, Option.some.injEq,
    List.dropPrefix?_eq_some_iff, List.dropSuffix?_eq_some_iff, beq_iff_eq]
  constructor
  · rintro ⟨rest, ⟨_, line_eq, rfl⟩, letters, ⟨_, rfl, rfl⟩, rfl⟩
    apply String.toList_injective
    simp [line_eq]
  · rintro rfl
    refine ⟨inner.toList ++ closing.toList, ⟨opening.toList, ?_, rfl⟩, inner.toList,
      ⟨closing.toList, rfl, rfl⟩, String.ofList_toList⟩
    simp

theorem between_append (opening inner closing : String) :
    between opening closing (opening ++ inner ++ closing) = some inner :=
  between_eq_some_iff.mpr rfl

theorem mem_commaList {items : List String} {c : Char}
    (member : c ∈ (Spelling.commaList items).toList) :
    c ∈ ", ".toList ∨ ∃ item ∈ items, c ∈ item.toList := by
  unfold Spelling.commaList at member
  induction items with
  | nil => cases member
  | cons item others ih =>
    cases others with
    | nil =>
      rw [String.intercalate_singleton] at member
      exact .inr ⟨item, List.mem_cons_self, member⟩
    | cons next others =>
      rw [String.intercalate_cons_cons, String.toList_append, String.toList_append,
        List.mem_append, List.mem_append] at member
      rcases member with (first | comma) | behind
      · exact .inr ⟨item, List.mem_cons_self, first⟩
      · exact .inl comma
      · rcases ih behind with comma | ⟨other, listed, inside⟩
        · exact .inl comma
        · exact .inr ⟨other, List.mem_cons_of_mem item listed, inside⟩

theorem oneLine_commaList {items : List String} (one : ∀ item ∈ items, OneLine item) :
    OneLine (Spelling.commaList items) := by
  intro member
  rcases mem_commaList member with comma | ⟨item, listed, inside⟩
  · exact absurd comma (by decide)
  · exact one item listed inside

/-- A text of one or more characters, none of them white space. -/
def Unbroken (text : String) : Prop := text ≠ "" ∧ ∀ c ∈ text.toList, blank c = false

namespace Unbroken

variable {text : String} (unbroken : Unbroken text)

include unbroken

theorem oneLine : OneLine text := fun member =>
  absurd (unbroken.2 _ member) (by decide)

theorem solid : Text.solid text := by
  have filled : text.toList ≠ [] := fun gone =>
    unbroken.1 (String.toList_injective gone)
  unfold Text.solid
  rw [List.getLast?_eq_some_getLast filled, Option.any_some,
    unbroken.2 _ (List.getLast_mem filled)]
  rfl

theorem plain : Plain text := ⟨unbroken.oneLine, unbroken.solid⟩

theorem append {other : String} (unspaced : ∀ c ∈ other.toList, blank c = false) :
    Unbroken (text ++ other) := by
  refine ⟨?_, ?_⟩
  · intro gone
    exact unbroken.1 (String.append_eq_empty_iff.mp gone).1
  · intro c member
    rw [String.toList_append, List.mem_append] at member
    rcases member with member | member
    · exact unbroken.2 c member
    · exact unspaced c member

end Unbroken

theorem exists_of_covers {ranges : List (Nat × Nat)} {n : Nat} (covered : covers ranges n) :
    ∃ range ∈ ranges, range.1 ≤ n ∧ n ≤ range.2 := by
  induction ranges with
  | nil => cases covered
  | cons range rest ih =>
    unfold covers at covered
    rw [Bool.and_eq_true, Bool.or_eq_true, decide_eq_true_eq, decide_eq_true_eq] at covered
    obtain ⟨above, below | covered⟩ := covered
    · exact ⟨range, List.mem_cons_self, above, below⟩
    · obtain ⟨other, member, inside⟩ := ih covered
      exact ⟨other, List.mem_cons_of_mem _ member, inside⟩

theorem blank_of_follows {c : Char} (word : follows c) : blank c = false := by
  have apart : ∀ range ∈ blankRanges, ∀ n ∈ List.range' range.1 (range.2 + 1 - range.1),
      covers alphabeticRanges n = false ∧ covers numericRanges n = false ∧ n ≠ 95 := by
    decide +kernel
  by_contra spaced
  obtain ⟨range, member, above, below⟩ := exists_of_covers (Bool.of_not_eq_false spaced)
  have inside : c.toNat ∈ List.range' range.1 (range.2 + 1 - range.1) :=
    List.mem_range'_1.mpr ⟨above, by omega⟩
  obtain ⟨letter, number, sign⟩ := apart range member c.toNat inside
  simp only [follows, alphanumeric, alphabetic, numeric, letter, number, Bool.or_self,
    Bool.false_or, beq_iff_eq] at word
  exact sign (congrArg Char.toNat word)

theorem blank_of_mem_dottedFrom {inside : Bool} {cs : List Char} (written : dottedFrom inside cs)
    {c : Char} (member : c ∈ cs) : blank c = false := by
  induction cs generalizing inside with
  | nil => cases member
  | cons head rest ih =>
    unfold dottedFrom at written
    have first : blank head = false ∧ ∃ inside, dottedFrom inside rest := by
      split at written
      · split at written
        · rename_i dot
          exact ⟨dot ▸ by decide, _, written⟩
        · rw [Bool.and_eq_true] at written
          exact ⟨blank_of_follows written.1, _, written.2⟩
      · rw [Bool.and_eq_true] at written
        have word : follows head := by
          have opened := written.1
          unfold opens at opened
          unfold follows alphanumeric
          rw [Bool.or_eq_true] at opened ⊢
          rcases opened with letter | sign
          · exact .inl (by rw [letter, Bool.true_or])
          · exact .inr sign
        exact ⟨blank_of_follows word, _, written.2⟩
    obtain ⟨spaced, _, written⟩ := first
    rcases List.mem_cons.mp member with rfl | member
    · exact spaced
    · exact ih written member

theorem unbroken_of_dotted {text : String} (written : dotted text) : Unbroken text := by
  refine ⟨?_, fun c member => blank_of_mem_dottedFrom written member⟩
  rintro rfl
  exact absurd written (by decide)

end Text

open Writer (indentation)

/-! ### Outlines -/

/-- What an artifact declares, as its text has it. -/
structure Outline where
  scope : String
  name : String
  /-- The lines behind the opening of the class. -/
  members : List String
  deriving Repr, DecidableEq

namespace Outline

/-- Reads two lines of heading, a namespace and a class. -/
def read? (text : String) : Option Outline :=
  match Text.inked text with
  | _ :: _ :: scope :: opening :: header :: inner :: members => do
    let scope ← Text.between "namespace " "" scope
    let title ← Text.between (indentation 1 ++ "public sealed class ") "" header
    if opening = "\x7b" ∧ inner = indentation 1 ++ "\x7b" then
      some ⟨scope, String.ofList (title.toList.takeWhile (· ≠ ' ')), members⟩
    else none
  | _ => none

section

variable {scope title contract : String} (scopeWord : Text.Unbroken scope)
  (titleWord : Text.Unbroken title) (one : Text.OneLine contract)

include titleWord one in
theorem laidLine_header : ∃ rest,
    Writer.laidLine 1 ("public sealed class " ++ title ++ " : " ++ contract) =
      [indentation 1 ++ "public sealed class " ++ (title ++ " :" ++ rest)] := by
  have header_eq : "public sealed class " ++ title ++ " : " ++ contract =
      "public sealed class " ++ title ++ " :" ++ (" " ++ contract) := by
    simp [← String.toList_inj]
  -- White space at the end of the contract's name is trimmed, but nothing in front of it.
  have ends : Text.solid ("public sealed class " ++ title ++ " :") :=
    Text.solid_append (by decide)
  have trimmed := Text.trimEnd_append ends (" " ++ contract)
  refine ⟨Text.trimEnd (" " ++ contract), ?_⟩
  rw [header_eq, Writer.laidLine_oneLine, trimmed]
  · simp only [String.append_assoc]
  · simp only [Text.oneLine_append]
    exact ⟨⟨⟨by decide, titleWord.oneLine⟩, by decide⟩, by decide, one⟩
  · rw [trimmed]
    intro gone
    exact Text.ne_empty_of_solid ends (String.append_eq_empty_iff.mp gone).1

include titleWord in
theorem takeWhile_title (rest : String) :
    String.ofList ((title ++ " :" ++ rest).toList.takeWhile (· ≠ ' ')) = title := by
  have unspaced : ∀ c ∈ title.toList, decide (c ≠ ' ') = true := by
    intro c member
    rw [decide_eq_true_eq]
    rintro rfl
    exact absurd (titleWord.2 _ member) (by decide)
  have letters : (title ++ " :" ++ rest).toList = title.toList ++ ' ' :: (":" ++ rest).toList := by
    simp
  rw [letters, List.takeWhile_append_of_pos unspaced, List.takeWhile_cons_of_neg (by decide),
    List.append_nil, String.ofList_toList]

include scopeWord titleWord one in
theorem inked_ofScope (name : String) (members : Script) : ∃ behind rest,
    Text.inked (Artifact.ofScope name scope
        (Script.block ("public sealed class " ++ title ++ " : " ++ contract) members)).text =
      "// <auto-generated/>" :: "#nullable disable" :: ("namespace " ++ scope ++ "") :: "\x7b" ::
        (indentation 1 ++ "public sealed class " ++ (title ++ " :" ++ behind) ++ "") ::
        (indentation 1 ++ "\x7b") :: (members.laid 2 ++ rest) := by
  obtain ⟨behind, header⟩ := laidLine_header titleWord one
  have opening : Writer.laidLine 0 ("namespace " ++ scope) = ["namespace " ++ scope] := by
    rw [Writer.laidLine_plain 0 (scopeWord.plain.append (by decide)), Writer.indentation_zero,
      String.empty_append]
  have brace (depth : Nat) : Writer.laidLine depth "\x7b" = [indentation depth ++ "\x7b"] :=
    Writer.laidLine_plain depth (by decide)
  have first : Writer.laidLine 0 "// <auto-generated/>" = ["// <auto-generated/>"] := by
    decide +kernel
  have second : Writer.laidLine 0 "#nullable disable" = ["#nullable disable"] := by
    decide +kernel
  unfold Artifact.ofScope Artifact.heading Script.block
  refine ⟨behind, Script.laid (members.foldl Step.deepen 2) [.leave "\x7d", .leave "\x7d"], ?_⟩
  rw [Script.inked_text]
  simp only [List.map_cons, List.map_nil, List.cons_append, List.nil_append, List.append_assoc,
    Script.laid, Step.laid, Step.deepen, Script.laid_append, first, second, opening, brace, header,
    List.append_nil, String.append_empty, Writer.indentation_zero, String.empty_append]

include scopeWord titleWord one in
theorem read?_ofScope (name : String) (members : Script) : ∃ rest,
    read? (Artifact.ofScope name scope
        (Script.block ("public sealed class " ++ title ++ " : " ++ contract) members)).text =
      some ⟨scope, title, members.laid 2 ++ rest⟩ := by
  obtain ⟨behind, rest, lines⟩ := inked_ofScope scopeWord titleWord one name members
  refine ⟨rest, ?_⟩
  unfold read?
  rw [lines]
  simp only [Text.between_append, takeWhile_title titleWord, bind, Option.bind_some, and_self,
    if_true]

end

end Outline

/-! ### Declarations -/

/-- The class that an artifact declares, with the parameters of its constructor. -/
structure Declaration where
  scope : String
  name : String
  parameters : String
  deriving Repr, DecidableEq

theorem Stmt.script_eq (statements : List Stmt) :
    script statements = (statements.map text).map .line := by
  rw [script, List.map_map]
  rfl

theorem Stmt.level_script (statements : List Stmt) : Script.Level (script statements) := by
  rw [script_eq]
  exact Script.level_lines _

namespace Declaration

/-- The class's name from the outermost scope. -/
def fullName (declaration : Declaration) : String :=
  "global::" ++ declaration.scope ++ "." ++ declaration.name

/-- Reads the outline and the first member that is written as a constructor. -/
def read? (text : String) : Option Declaration := do
  let outline ← Outline.read? text
  let parameters ← outline.members.findSome?
    (Text.between (indentation 2 ++ "public " ++ outline.name ++ "(") ")")
  return ⟨outline.scope, outline.name, parameters⟩

theorem between_field (name rest : String) :
    Text.between (indentation 2 ++ "public " ++ name ++ "(") ")"
      (indentation 2 ++ ("private readonly " ++ rest)) = none := by
  rw [Option.eq_none_iff_forall_ne_some]
  intro inner found
  have line := congrArg String.toList (Text.between_eq_some_iff.mp found)
  simp [indentation] at line

theorem fieldLines_eq (proxy : Proxy.ProxyClass) : proxy.fieldLines =
    (proxy.fields.map fun f => "private readonly " ++ f.type ++ " " ++ f.name ++ ";").map .line := by
  rw [Proxy.ProxyClass.fieldLines, List.map_map]
  rfl

section

variable {proxy : Proxy.ProxyClass} (scopeWord : Text.Unbroken proxy.scope)
  (titleWord : Text.Unbroken proxy.name) (contractLine : Text.OneLine proxy.contract)
  (fieldLines : ∀ f ∈ proxy.fields,
    Text.OneLine f.type ∧ Text.OneLine f.name ∧ Text.OneLine f.parameter)

include fieldLines in
theorem laid_fieldLines (depth : Nat) : proxy.fieldLines.laid depth =
    proxy.fields.map fun f =>
      indentation depth ++ ("private readonly " ++ (f.type ++ " " ++ f.name ++ ";")) := by
  rw [fieldLines_eq, Script.laid_lines, List.map_map]
  · simp only [Function.comp_def, String.append_assoc]
  · intro text member
    obtain ⟨f, listed, rfl⟩ := List.mem_map.mp member
    obtain ⟨typeLine, nameLine, _⟩ := fieldLines f listed
    refine Text.Plain.enclose (by decide) ?_ nameLine
    simp only [Text.oneLine_append]
    exact ⟨⟨by decide, typeLine⟩, by decide⟩

include titleWord fieldLines in
theorem laid_constructor (depth : Nat) : ∃ rest, proxy.constructor.laid depth =
    (indentation depth ++ "public " ++ proxy.name ++ "(" ++
      Spelling.commaList (proxy.fields.map fun f => f.type ++ " " ++ f.parameter) ++ ")") ::
      rest := by
  have parameters : Text.OneLine
      (Spelling.commaList (proxy.fields.map fun f => f.type ++ " " ++ f.parameter)) := by
    apply Text.oneLine_commaList
    intro text member
    obtain ⟨f, listed, rfl⟩ := List.mem_map.mp member
    obtain ⟨typeLine, _, parameterLine⟩ := fieldLines f listed
    simp only [Text.oneLine_append]
    exact ⟨⟨typeLine, by decide⟩, parameterLine⟩
  unfold Proxy.ProxyClass.constructor Script.block
  rw [List.cons_append, Script.laid, Step.laid, Writer.laidLine_plain]
  · exact ⟨_, by simp only [List.cons_append, String.append_assoc]; rfl⟩
  · refine Text.Plain.enclose (by decide) ?_ parameters
    simp only [Text.oneLine_append]
    exact ⟨⟨by decide, titleWord.oneLine⟩, by decide⟩

theorem level_fieldLines (proxy : Proxy.ProxyClass) : Script.Level proxy.fieldLines := by
  rw [fieldLines_eq]
  exact Script.level_lines _

theorem level_constructor (proxy : Proxy.ProxyClass) : Script.Level proxy.constructor :=
  Script.level_block _ (Stmt.level_script _)

include scopeWord titleWord contractLine fieldLines in
theorem read?_ofScope (name : String) :
    read? (Artifact.ofScope name proxy.scope proxy.script).text = some
      ⟨proxy.scope, proxy.name,
        Spelling.commaList (proxy.fields.map fun f => f.type ++ " " ++ f.parameter)⟩ := by
  obtain ⟨rest, outlined⟩ := Outline.read?_ofScope scopeWord titleWord contractLine name
    (Script.spaced (proxy.fieldLines :: proxy.constructor ::
      proxy.properties.map (·.script) ++ proxy.methods.flatMap (·.scripts)))
  obtain ⟨behind, made⟩ := laid_constructor titleWord fieldLines 2
  -- The fields come first, and none of them reads like a constructor.
  have skipped : (proxy.fields.map fun f =>
      indentation 2 ++ ("private readonly " ++ (f.type ++ " " ++ f.name ++ ";"))).findSome?
        (Text.between (indentation 2 ++ "public " ++ proxy.name ++ "(") ")") = none := by
    rw [List.findSome?_eq_none_iff]
    intro line member
    obtain ⟨f, _, rfl⟩ := List.mem_map.mp member
    exact between_field _ _
  have found := Text.between_append (indentation 2 ++ "public " ++ proxy.name ++ "(")
    (Spelling.commaList (proxy.fields.map fun f => f.type ++ " " ++ f.parameter)) ")"
  unfold read? Proxy.ProxyClass.script
  rw [outlined, List.cons_append, List.cons_append,
    Script.laid_spaced_cons 2 (level_fieldLines proxy),
    Script.laid_spaced_cons 2 (level_constructor proxy), laid_fieldLines fieldLines, made]
  simp only [bind, Option.bind_some, List.append_assoc, List.findSome?_append, skipped,
    Option.none_or, List.cons_append, List.findSome?_cons, found]
  rfl

end

end Declaration

end Interpose
