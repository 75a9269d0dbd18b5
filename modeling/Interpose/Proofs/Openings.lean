import Interpose.Proofs.Outlines

/-!
# Openings

What stands above a line that is not blank stays there, whatever is written under it:
`Script.text_append`. So the text of a class begins with its declaration and that of a proxy also
with its fields and the header of its constructor, in whatever way the names of its types are
written: `Artifact.text_ofScope`, `Proxy.ProxyClass.text_ofScope`.
-/

namespace Interpose

namespace Text

/-- Lines one under the other. -/
def ofLines (lines : List String) : String :=
  lines.foldl (fun text line => text ++ line ++ "\n") ""

theorem toList_ofLines (lines : List String) :
    (ofLines lines).toList = lines.flatMap fun line => line.toList ++ ['\n'] := by
  rw [ofLines, Writer.toList_written, String.toList_empty, List.nil_append]

theorem ofLines_append (upper lower : List String) :
    ofLines (upper ++ lower) = ofLines upper ++ ofLines lower := by
  apply String.toList_injective
  simp only [String.toList_append, toList_ofLines, List.flatMap_append]

theorem lines_ofLines_cons (line : String) (others : List String) (rest : String) :
    lines (ofLines (line :: others) ++ rest) = lines line ++ lines (ofLines others ++ rest) := by
  unfold lines
  rw [← List.map_append, String.toList_append, toList_ofLines, List.flatMap_cons,
    List.append_assoc, List.append_assoc, List.singleton_append, List.splitOn_append_cons_self,
    String.toList_append, toList_ofLines]

theorem splitOn_append_of_notMem {α : Type} [BEq α] [LawfulBEq α] {sep : α} {front : List α}
    (absent : sep ∉ front) (back : List α) :
    (front ++ back).splitOn sep = (back.splitOn sep).modifyHead (front ++ ·) := by
  induction front with
  | nil =>
    change back.splitOn sep = (back.splitOn sep).modifyHead id
    rw [List.modifyHead_id, id]
  | cons c front ih =>
    rw [List.mem_cons, not_or] at absent
    rw [List.cons_append, List.splitOn_cons_eq_if_modifyHead, ih absent.2,
      if_neg (by simpa using Ne.symm absent.1), List.modifyHead_modifyHead]
    rfl

theorem lines_append {head : String} (one : OneLine head) (tail : String) :
    ∃ first others, lines (head ++ tail) = (head ++ first) :: others := by
  cases parts : tail.toList.splitOn '\n' with
  | nil => exact absurd parts (List.splitOn_ne_nil _ _)
  | cons first others =>
    refine ⟨String.ofList first, others.map String.ofList, ?_⟩
    rw [lines, String.toList_append, splitOn_append_of_notMem one, parts, List.modifyHead_cons,
      List.map_cons]
    congr 1
    apply String.toList_injective
    simp

end Text

/-! ### Lines that stay -/

namespace Writer

theorem suffix_blank (writer : Writer) : writer.lines <:+ writer.blank.lines := by
  unfold blank
  split
  · exact List.suffix_cons _ _
  · exact List.suffix_rfl

theorem suffix_line (writer : Writer) (text : String) :
    writer.lines <:+ (writer.line text).lines := by
  unfold line
  split
  · exact suffix_blank writer
  · exact List.suffix_cons _ _

theorem suffix_enter (writer : Writer) (header : String) :
    writer.lines <:+ (writer.enter header).lines := by
  refine List.IsSuffix.trans ?_ (suffix_line _ "\x7b")
  split
  · exact List.suffix_rfl
  · exact suffix_line writer header

section

variable {last : String} (filled : last ≠ "") {others : List String}

include filled

/-- A blank line that is taken back stands under the last line that is none. -/
theorem suffix_unblank {lines : List String} (under : last :: others <:+ lines) :
    last :: others <:+ if endsBlank lines then lines.tail else lines := by
  split
  · rename_i ends
    unfold endsBlank at ends
    split at ends
    · rcases List.suffix_cons_iff.mp under with same | under
      · exact absurd (List.cons.inj same).1 filled
      · exact under
    · cases ends
  · exact under

theorem suffix_step {writer : Writer} (under : last :: others <:+ writer.lines) (step : Step) :
    last :: others <:+ (writer.step step).lines := by
  cases step with
  | line text => exact under.trans (suffix_line writer text)
  | blank => exact under.trans (suffix_blank writer)
  | enter header => exact under.trans (suffix_enter writer header)
  | leave closing =>
    have kept := suffix_unblank filled under
    exact kept.trans (suffix_line ⟨_, writer.depth - 1⟩ closing)

theorem suffix_run {writer : Writer} (under : last :: others <:+ writer.lines) (script : Script) :
    last :: others <:+ (script.foldl step writer).lines := by
  induction script generalizing writer with
  | nil => exact under
  | cons next rest ih => exact ih (suffix_step filled under next)

theorem suffix_settled {lines : List String} (under : last :: others <:+ lines) :
    last :: others <:+ settled lines := by
  fun_induction settled lines with
  | case1 next rest ih =>
    rcases List.suffix_cons_iff.mp under with same | under
    · exact absurd (List.cons.inj same).1 filled
    · exact ih under
  | case2 => exact under

end

end Writer

theorem Script.text_append {front : Script} {lines : List String} {last : String}
    (ran : (Writer.run front).lines = lines.reverse) (ends : lines.getLast? = some last)
    (filled : last ≠ "") (back : Script) :
    ∃ rest, text (front ++ back) = Text.ofLines lines ++ rest := by
  obtain ⟨above, rfl⟩ := List.getLast?_eq_some_iff.mp ends
  rw [List.reverse_concat] at ran
  have under : last :: above.reverse <:+ (Writer.run (front ++ back)).lines := by
    rw [Writer.run, List.foldl_append]
    exact Writer.suffix_run filled (ran ▸ List.suffix_rfl) back
  obtain ⟨later, whole⟩ := Writer.suffix_settled filled under
  refine ⟨Text.ofLines later.reverse, ?_⟩
  rw [← Text.ofLines_append, text, Writer.finish, ← whole, List.reverse_append, List.reverse_cons,
    List.reverse_reverse]
  rfl

namespace Script

/-- A part that is not empty is set apart from the one in front of it. -/
theorem spaced_apart {first next : Script} (begun : first ≠ []) (goes : next ≠ [])
    (others : List Script) :
    spaced (first :: next :: others) = first ++ .blank :: spaced (next :: others) := by
  unfold spaced
  rw [List.filter_cons_of_pos (by simpa using begun), List.filter_cons_of_pos (by simpa using goes)]
  simp [List.intercalate_cons_cons]

theorem spaced_cons_cons {first next : Script} (begun : first ≠ []) (goes : next ≠ [])
    (others : List Script) :
    ∃ rest, spaced (first :: next :: others) = first ++ .blank :: next ++ rest := by
  rw [spaced_apart begun goes]
  rcases spaced_cons next others with same | same
  · exact ⟨spaced others, by simp [same]⟩
  · exact ⟨.blank :: spaced others, by simp [same]⟩

end Script

/-! ### What classes begin with -/

namespace Writer

theorem line_filled (writer : Writer) {text : String} (filled : text ≠ "") : writer.line text =
    ⟨(indentation writer.depth ++ Text.trimEnd text) :: writer.lines, writer.depth⟩ :=
  if_neg filled

theorem enter_filled (writer : Writer) {header : String} (filled : header ≠ "") :
    writer.enter header =
      ⟨(indentation writer.depth ++ "\x7b") ::
        (indentation writer.depth ++ Text.trimEnd header) :: writer.lines, writer.depth + 1⟩ := by
  have brace : Text.trimEnd "\x7b" = "\x7b" := Text.trimEnd_solid (by decide)
  rw [enter, if_neg filled, line_filled writer filled, line_filled _ (by decide), brace]

theorem run_solid {texts : List String} (ends : ∀ text ∈ texts, Text.solid text)
    (writer : Writer) : (texts.map .line).foldl step writer =
      ⟨(texts.map (indentation writer.depth ++ ·)).reverse ++ writer.lines, writer.depth⟩ := by
  induction texts generalizing writer with
  | nil => rfl
  | cons text texts ih =>
    obtain ⟨first, ends⟩ := List.forall_mem_cons.mp ends
    have written : writer.step (.line text) =
        ⟨(indentation writer.depth ++ text) :: writer.lines, writer.depth⟩ := by
      rw [step, line_filled writer (Text.ne_empty_of_solid first), Text.trimEnd_solid first]
    rw [List.map_cons, List.foldl_cons, ih ends, written]
    simp

end Writer

open Writer (indentation)

namespace Artifact

/-- The lines down to the opening of a class that is the only one. -/
def declared (scope title contract : String) : List String :=
  heading ++ ["", "namespace " ++ scope, "\x7b",
    indentation 1 ++ ("public sealed class " ++ title ++ " :" ++ Text.trimEnd (" " ++ contract)),
    indentation 1 ++ "\x7b"]

/-- The steps that write them. -/
def declaring (scope title contract : String) : Script :=
  heading.map .line ++ [.blank, .enter ("namespace " ++ scope),
    .enter ("public sealed class " ++ title ++ " : " ++ contract)]

variable {scope : String} (scopeWord : Text.Unbroken scope) (title contract : String)

include scopeWord

theorem run_declaring : Writer.run (declaring scope title contract) =
    ⟨(declared scope title contract).reverse, 2⟩ := by
  have headed : Writer.run (heading.map .line ++ [.blank]) =
      ⟨["", "#nullable disable", "// <auto-generated/>"], 0⟩ := by decide +kernel
  have opening : Text.solid ("namespace " ++ scope) := Text.solid_append scopeWord.solid
  have header : "public sealed class " ++ title ++ " : " ++ contract =
      "public sealed class " ++ title ++ " :" ++ (" " ++ contract) := by
    simp [← String.toList_inj]
  have ends : Text.solid ("public sealed class " ++ title ++ " :") := Text.solid_append (by decide)
  have filled : "public sealed class " ++ title ++ " :" ++ (" " ++ contract) ≠ "" := fun gone =>
    Text.ne_empty_of_solid ends (String.append_eq_empty_iff.mp gone).1
  have parts : declaring scope title contract = (heading.map .line ++ [.blank]) ++
      [.enter ("namespace " ++ scope),
        .enter ("public sealed class " ++ title ++ " : " ++ contract)] := rfl
  rw [parts, Writer.run, List.foldl_append, ← Writer.run, headed, List.foldl_cons, List.foldl_cons,
    List.foldl_nil, header]
  simp only [Writer.step, Writer.enter_filled _ (Text.ne_empty_of_solid opening),
    Writer.enter_filled _ filled, Text.trimEnd_solid opening, Text.trimEnd_append ends,
    Writer.indentation_zero, String.empty_append]
  simp [declared, heading]

/-- The text of a class begins with its declaration. -/
theorem text_ofScope (name : String) (members : Script) : ∃ rest,
    (ofScope name scope (Script.block ("public sealed class " ++ title ++ " : " ++ contract)
      members)).text = Text.ofLines (declared scope title contract) ++ rest := by
  have ran := congrArg Writer.lines (run_declaring scopeWord title contract)
  have ends : (declared scope title contract).getLast? = some (indentation 1 ++ "\x7b") := by
    simp [declared]
  obtain ⟨rest, whole⟩ := Script.text_append ran ends (by decide)
    (members ++ [.leave "\x7d", .leave "\x7d"])
  refine ⟨rest, whole ▸ ?_⟩
  simp [ofScope, Script.block, declaring]

end Artifact

namespace Proxy.ProxyClass

def fieldTexts (proxy : ProxyClass) : List String :=
  proxy.fields.map fun f => "private readonly " ++ f.type ++ " " ++ f.name ++ ";"

def constructorHeader (proxy : ProxyClass) : String :=
  "public " ++ proxy.name ++ "(" ++
    Spelling.commaList (proxy.fields.map fun f => f.type ++ " " ++ f.parameter) ++ ")"

/-- The lines of a proxy down to the opening of its constructor. -/
def opening (proxy : ProxyClass) : List String :=
  Artifact.declared proxy.scope proxy.name proxy.contract ++
    proxy.fieldTexts.map (indentation 2 ++ ·) ++
    ["", indentation 2 ++ proxy.constructorHeader, indentation 2 ++ "\x7b"]

/-- The steps that write them. -/
def openingSteps (proxy : ProxyClass) : Script :=
  Artifact.declaring proxy.scope proxy.name proxy.contract ++ proxy.fieldLines ++
    [.blank, .enter proxy.constructorHeader]

theorem solid_constructorHeader (proxy : ProxyClass) : Text.solid proxy.constructorHeader :=
  Text.solid_append (by decide)

section

variable {proxy : ProxyClass} (fielded : proxy.fields ≠ [])

include fielded

theorem fieldLines_ne_nil : proxy.fieldLines ≠ [] :=
  fun gone => fielded (List.map_eq_nil_iff.mp gone)

theorem blank_fieldTexts (upper : List String) (depth : Nat) :
    Writer.blank ⟨(proxy.fieldTexts.map (indentation depth ++ ·)).reverse ++ upper, depth⟩ =
      ⟨"" :: ((proxy.fieldTexts.map (indentation depth ++ ·)).reverse ++ upper), depth⟩ := by
  obtain ⟨above, f, fields⟩ := (List.eq_nil_or_concat' proxy.fields).resolve_left fielded
  rw [fieldTexts, fields, List.map_append, List.map_append, List.reverse_append]
  refine if_pos ?_
  have filled : indentation depth ++ ("private readonly " ++ f.type ++ " " ++ f.name ++ ";") ≠ "" :=
    Text.ne_empty_of_solid (Text.solid_append (Text.solid_append (by decide)))
  have ends : (indentation depth ++
      ("private readonly " ++ f.type ++ " " ++ f.name ++ ";")).toList.getLast? = some ';' := by
    rw [← String.append_assoc, String.toList_append, List.getLast?_append]
    rfl
  simp only [List.map_singleton, List.reverse_singleton, List.cons_append, Writer.admitsBlank,
    ends]
  simp [Writer.endsBlank, filled]

theorem run_openingSteps (scopeWord : Text.Unbroken proxy.scope) :
    Writer.run proxy.openingSteps = ⟨proxy.opening.reverse, 3⟩ := by
  have ends : ∀ text ∈ proxy.fieldTexts, Text.solid text := by
    intro text member
    obtain ⟨f, _, rfl⟩ := List.mem_map.mp member
    exact Text.solid_append (by decide)
  have header := solid_constructorHeader proxy
  have fields : proxy.fieldLines = proxy.fieldTexts.map .line := Declaration.fieldLines_eq proxy
  rw [openingSteps, Writer.run, List.foldl_append, List.foldl_append, ← Writer.run,
    Artifact.run_declaring scopeWord, fields, Writer.run_solid ends, List.foldl_cons,
    List.foldl_cons, List.foldl_nil, Writer.step, blank_fieldTexts fielded, Writer.step,
    Writer.enter_filled _ (Text.ne_empty_of_solid header), Text.trimEnd_solid header]
  simp [opening]

/-- The text of a proxy begins with its declaration, its fields and the header of its
constructor. -/
theorem text_ofScope (scopeWord : Text.Unbroken proxy.scope) (name : String) : ∃ rest,
    (Artifact.ofScope name proxy.scope proxy.script).text = Text.ofLines proxy.opening ++ rest := by
  have ran := congrArg Writer.lines (run_openingSteps fielded scopeWord)
  have ends : proxy.opening.getLast? = some (indentation 2 ++ "\x7b") := by simp [opening]
  have goes : proxy.constructor ≠ [] := List.cons_ne_nil _ _
  obtain ⟨members, spaced⟩ := Script.spaced_cons_cons (fieldLines_ne_nil fielded) goes
    (proxy.properties.map (·.script) ++ proxy.methods.flatMap (·.scripts))
  have made : proxy.constructor = .enter proxy.constructorHeader :: proxy.constructor.tail := rfl
  obtain ⟨rest, whole⟩ := Script.text_append ran ends (by decide)
    (proxy.constructor.tail ++ members ++ [.leave "\x7d", .leave "\x7d"])
  refine ⟨rest, whole ▸ ?_⟩
  simp only [Artifact.ofScope, script, List.cons_append, spaced]
  rw [made]
  simp [Script.block, openingSteps, Artifact.declaring]

end

end Proxy.ProxyClass

end Interpose
