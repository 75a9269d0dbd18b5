import Interpose.Dispatcher
import Interpose.Proofs.Outlines

/-!
# Selectors

The dispatcher's two methods are read as lists of cases, of which the first for the types asked for
counts. Both have one case for each branch, in order: `read?_script`.
-/

namespace Interpose

open Writer (indentation)
open Text (between)

/-- What a method says for which types. For types with more than one case the first counts, as for
`List.lookup`. -/
abbrev Cases (α : Type) : Type := List ((String × String) × α)

namespace Cases

def isRemark (line : String) : Bool := (between (indentation 3 ++ "// ") "" line).isSome

/-- Reads a condition and a block, up to the block's end. -/
def case? {α : Type} (outcome? : List String → Option α) (lines : List String) :
    Option ((String × String) × α) :=
  match lines.dropWhile isRemark with
  | contract :: provider :: opening :: body => do
    let contract ← between (indentation 3 ++ "if (typeof(TContract) == typeof(") ") &&" contract
    let provider ← between (indentation 3 ++ "    typeof(TProvider) == typeof(") "))" provider
    let outcome ← outcome? body
    if opening = indentation 3 ++ "\x7b" then some ((contract, provider), outcome) else none
  | _ => none

/-- Reads cases until everything else goes to the default. -/
def ofGroups {α : Type} (outcome? : List String → Option α) : List (List String) → Option (Cases α)
  | [] => none
  | group :: others =>
    match case? outcome? group with
    | some first => (ofGroups outcome? others).map (first :: ·)
    | none => if group = [indentation 3 ++ "return default;"] then some [] else none

def read? {α : Type} (outcome? : List String → Option α) (lines : List String) :
    Option (Cases α) :=
  ofGroups outcome? (lines.splitOn (indentation 3 ++ "\x7d"))

end Cases

structure Creation where
  proxy : String
  /-- What is passed, in order: the type as which it is passed, and its name. -/
  arguments : List (String × String)
  deriving Repr, DecidableEq

/-- Reads the body of a case that makes an object. What is passed without a cast is passed as its
parameter's type. -/
def Creation.read? (allowListType : String) : List String → Option Creation
  | [made, contract, allowed, provider] => do
    let proxy ← between (indentation 4 ++ "return (TContract)(object)new ") "(" made
    let contract ← between (indentation 4 ++ "    (") ")(object)underlyingImplementation," contract
    let provider ← between (indentation 4 ++ "    (") ")(object)behaviorProvider);" provider
    if allowed = indentation 4 ++ "    applicableMembers," then
      some ⟨proxy, [(contract, "underlyingImplementation"), (allowListType, "applicableMembers"),
        (provider, "behaviorProvider")]⟩
    else none
  | _ => none

structure Selectors where
  creations : Cases Creation
  names : Cases String
  deriving Repr, DecidableEq

namespace Selectors

def name? : List String → Option String
  | [line] => between (indentation 4 ++ "return typeof(") ");" line
  | _ => none

def creations? : List String → Option (Cases Creation)
  | signature :: contract :: allowed :: provider :: opening :: body => do
    let _ ← between (indentation 2 ++ "TContract ") ".Instantiate<TContract, TProvider>(" signature
    let allowListType ← between (indentation 2 ++ "    ") " applicableMembers," allowed
    if contract = indentation 2 ++ "    TContract underlyingImplementation," ∧
        provider = indentation 2 ++ "    TProvider behaviorProvider)" ∧
        opening = indentation 2 ++ "\x7b" then
      Cases.read? (Creation.read? allowListType) body
    else none
  | _ => none

def names? : List String → Option (Cases String)
  | signature :: opening :: body => do
    let _ ← between (indentation 2 ++ "global::System.Type ")
      ".GetDecoratorType<TContract, TProvider>()" signature
    if opening = indentation 2 ++ "\x7b" then Cases.read? name? body else none
  | _ => none

def cut (mark : String) (lines : List String) : List String × List String :=
  (lines.takeWhile (· ≠ mark), (lines.dropWhile (· ≠ mark)).tail)

def read? (text : String) : Option Selectors := do
  let outline ← Outline.read? text
  let (first, others) := cut (indentation 2 ++ "\x7d") outline.members
  let (second, _) := cut (indentation 2 ++ "\x7d") others
  let creations ← creations? first
  let names ← names? second
  return ⟨creations, names⟩

theorem cut_append {mark : String} {before : List String} (absent : mark ∉ before)
    (behind : List String) : cut mark (before ++ mark :: behind) = (before, behind) := by
  have apart : ∀ line ∈ before, decide (line ≠ mark) = true := by
    intro line member
    rw [decide_eq_true_eq]
    rintro rfl
    exact absent member
  unfold cut
  rw [List.takeWhile_append_of_pos apart, List.dropWhile_append_of_pos apart,
    List.takeWhile_cons_of_neg (by simp), List.dropWhile_cons_of_neg (by simp), List.append_nil,
    List.tail_cons]

end Selectors

/-! ### Lines in a block -/

theorem Text.between_indented (depth : Nat) (opening inner closing : String) :
    between (indentation depth ++ opening) closing
      (indentation depth ++ (opening ++ inner ++ closing)) = some inner :=
  between_eq_some_iff.mpr (by simp only [String.append_assoc])

/-- A line stands in a block and does not close it. -/
def Inside (depth : Nat) (line : String) : Prop :=
  ∃ text, line = indentation depth ++ text ∧ text.toList.head? ≠ some '\x7d'

theorem inside_deeper (depth : Nat) (text : String) :
    Inside depth (indentation (depth + 1) ++ text) := by
  refine ⟨"    " ++ text, ?_, by simp⟩
  have deeper : indentation (depth + 1) = indentation depth ++ "    " := by
    simp [indentation, Nat.mul_add, List.replicate_add]
  rw [deeper, String.append_assoc]

theorem Inside.outer {depth : Nat} {line : String} (inside : Inside (depth + 1) line) :
    Inside depth line := by
  obtain ⟨text, rfl, _⟩ := inside
  exact inside_deeper depth text

theorem Inside.ne {depth : Nat} {line : String} (inside : Inside depth line) :
    line ≠ indentation depth ++ "\x7d" := by
  obtain ⟨text, rfl, begins⟩ := inside
  intro closed
  rw [String.append_right_inj] at closed
  exact begins (by rw [closed]; rfl)

theorem closing_not_mem {depth : Nat} {lines : List String}
    (inside : ∀ line ∈ lines, Inside depth line) : indentation depth ++ "\x7d" ∉ lines :=
  fun member => (inside _ member).ne rfl

/-! ### Branches -/

namespace Cases

theorem case?_otherwise {α : Type} (outcome? : List String → Option α) (line : String) :
    case? outcome? [line] = none := by
  unfold case?
  by_cases remark : isRemark line
  · rw [List.dropWhile_cons_of_pos remark]
    rfl
  · rw [List.dropWhile_cons_of_neg remark]

theorem read?_flatMap {α β : Type} {outcome? : List String → Option α} {branches : List β}
    {lines : β → List String} {case : β → (String × String) × α}
    (inside : ∀ branch ∈ branches, ∀ line ∈ lines branch, Inside 3 line)
    (reads : ∀ branch ∈ branches, case? outcome? (lines branch) = some (case branch)) :
    read? outcome? (branches.flatMap (fun branch => lines branch ++ [indentation 3 ++ "\x7d"]) ++
      [indentation 3 ++ "return default;"]) = some (branches.map case) := by
  unfold read?
  induction branches with
  | nil =>
    -- What is left is the line for everything else, which is no case.
    have last : indentation 3 ++ "\x7d" ∉ [indentation 3 ++ "return default;"] :=
      closing_not_mem fun line member =>
        ⟨"return default;", List.mem_singleton.mp member, by decide⟩
    rw [List.flatMap_nil, List.nil_append, List.splitOn_eq_singleton last, ofGroups,
      case?_otherwise]
    rfl
  | cons branch others ih =>
    have first := reads branch List.mem_cons_self
    have behind := ih (fun other member => inside other (List.mem_cons_of_mem branch member))
      fun other member => reads other (List.mem_cons_of_mem branch member)
    -- No line of the first case closes it, so its own end is the first that does.
    rw [List.flatMap_cons, List.append_assoc, List.append_assoc, List.singleton_append,
      List.splitOn_append_cons_self_of_not_mem
        (closing_not_mem (inside branch List.mem_cons_self)),
      ofGroups, first, behind]
    rfl

end Cases

namespace Branch

/-- What stands in a branch can be told apart line by line. -/
structure Legible (branch : Branch) : Prop where
  contract : Text.OneLine branch.contract
  provider : Text.OneLine branch.provider
  proxy : Text.OneLine branch.proxy
  remark : ∀ text ∈ branch.remark, Text.Plain text

def types (branch : Branch) : String × String := (branch.contract, branch.provider)

/-- The lines of a case, but for the one that closes it. -/
def caseLines (branch : Branch) (remarks body : List String) : List String :=
  (remarks.map fun text => indentation 3 ++ ("// " ++ text)) ++ [
    indentation 3 ++ ("if (typeof(TContract) == typeof(" ++ branch.contract ++ ") &&"),
    indentation 3 ++ ("    typeof(TProvider) == typeof(" ++ branch.provider ++ "))"),
    indentation 3 ++ "\x7b"] ++ body.map (indentation 4 ++ ·)

theorem inside_caseLines (branch : Branch) (remarks body : List String) :
    ∀ line ∈ branch.caseLines remarks body, Inside 3 line := by
  unfold caseLines
  intro line member
  rw [List.mem_append, List.mem_append, List.mem_map, List.mem_map] at member
  rcases member with (⟨text, _, rfl⟩ | condition) | ⟨text, _, rfl⟩
  · exact ⟨_, rfl, by simp⟩
  · simp only [List.mem_cons, List.not_mem_nil, or_false] at condition
    rcases condition with rfl | rfl | rfl
    · exact ⟨_, rfl, by simp⟩
    · exact ⟨_, rfl, by simp⟩
    · exact ⟨_, rfl, by simp⟩
  · exact inside_deeper 3 text

theorem case?_caseLines {α : Type} {outcome? : List String → Option α} (branch : Branch)
    (remarks : List String) {body : List String} {outcome : α}
    (reads : outcome? (body.map (indentation 4 ++ ·)) = some outcome) :
    Cases.case? outcome? (branch.caseLines remarks body) = some (branch.types, outcome) := by
  have skipped : ∀ line ∈ remarks.map fun text => indentation 3 ++ ("// " ++ text),
      Cases.isRemark line := by
    intro line member
    obtain ⟨text, _, rfl⟩ := List.mem_map.mp member
    have read := Text.between_indented 3 "// " text ""
    rw [String.append_empty] at read
    rw [Cases.isRemark, read]
    rfl
  -- The remarks end where the condition begins.
  have condition : Cases.isRemark (indentation 3 ++
      ("if (typeof(TContract) == typeof(" ++ branch.contract ++ ") &&")) ≠ true := by
    unfold Cases.isRemark
    rw [ne_eq, Option.isSome_iff_exists]
    rintro ⟨text, read⟩
    have line := congrArg String.toList (Text.between_eq_some_iff.mp read)
    simp [indentation] at line
  unfold Cases.case? caseLines
  rw [List.append_assoc, List.dropWhile_append_of_pos skipped, List.cons_append,
    List.dropWhile_cons_of_neg condition]
  simp only [List.cons_append, List.nil_append, Text.between_indented, bind, Option.bind_some,
    reads, if_true]
  rfl

/-- A branch as both methods have it: remarks, the condition and a block. -/
def guarded (branch : Branch) (remarks body : List String) : Script :=
  (remarks.map fun text => .line ("// " ++ text)) ++ branch.condition ++
    Script.block "" (body.map .line)

def creationTexts (branch : Branch) : List String := [
  "return (TContract)(object)new " ++ branch.proxy ++ "(",
  "    (" ++ branch.contract ++ ")(object)underlyingImplementation,",
  "    applicableMembers,",
  "    (" ++ branch.provider ++ ")(object)behaviorProvider);"]

def nameTexts (branch : Branch) : List String := ["return typeof(" ++ branch.proxy ++ ");"]

theorem instantiate_eq (branch : Branch) :
    branch.instantiate = branch.guarded branch.remark.toList branch.creationTexts := by
  simp [instantiate, guarded, creationTexts, contractParameter, Option.toList_map]

theorem typeOnly_eq (branch : Branch) : branch.typeOnly = branch.guarded [] branch.nameTexts := by
  simp [typeOnly, guarded, nameTexts]

theorem remarks_eq (remarks : List String) :
    (remarks.map fun text => Step.line ("// " ++ text)) = (remarks.map ("// " ++ ·)).map .line := by
  rw [List.map_map]
  rfl

theorem condition_eq (branch : Branch) : branch.condition = [
    "if (typeof(TContract) == typeof(" ++ branch.contract ++ ") &&",
    "    typeof(TProvider) == typeof(" ++ branch.provider ++ "))"].map .line := by
  simp [condition, contractParameter, providerParameter]

theorem level_guarded (branch : Branch) (remarks body : List String) :
    (branch.guarded remarks body).Level := by
  unfold guarded
  rw [remarks_eq, condition_eq]
  exact ((Script.level_lines _).append (Script.level_lines _)).append
    (Script.level_block "" (Script.level_lines body))

/-- What the branch makes, with an allow-list of the given type. -/
def creation (branch : Branch) (allowListType : String) : Creation where
  proxy := branch.proxy
  arguments := [(branch.contract, "underlyingImplementation"), (allowListType, "applicableMembers"),
    (branch.provider, "behaviorProvider")]

theorem read?_creationTexts (branch : Branch) (allowListType : String) :
    Creation.read? allowListType (branch.creationTexts.map (indentation 4 ++ ·)) =
      some (branch.creation allowListType) := by
  simp only [creationTexts, List.map_cons, List.map_nil, Creation.read?, Text.between_indented,
    bind, Option.bind_some, if_true]
  rfl

theorem name?_nameTexts (branch : Branch) :
    Selectors.name? (branch.nameTexts.map (indentation 4 ++ ·)) = some branch.proxy := by
  simp only [nameTexts, List.map_cons, List.map_nil, Selectors.name?, Text.between_indented]

section

variable {branch : Branch} (legible : branch.Legible)

include legible

theorem laid_guarded {remarks body : List String} (remarkLines : ∀ text ∈ remarks, Text.Plain text)
    (bodyLines : ∀ text ∈ body, Text.Plain text) :
    (branch.guarded remarks body).laid 3 =
      branch.caseLines remarks body ++ [indentation 3 ++ "\x7d"] := by
  have remarked : ∀ text ∈ remarks.map ("// " ++ ·), Text.Plain text := by
    intro text member
    obtain ⟨remark, listed, rfl⟩ := List.mem_map.mp member
    exact (remarkLines remark listed).append (by decide)
  have conditioned : ∀ text ∈ ["if (typeof(TContract) == typeof(" ++ branch.contract ++ ") &&",
      "    typeof(TProvider) == typeof(" ++ branch.provider ++ "))"], Text.Plain text := by
    intro text member
    simp only [List.mem_cons, List.not_mem_nil, or_false] at member
    rcases member with rfl | rfl
    · exact Text.Plain.enclose (by decide) (by decide) legible.contract
    · exact Text.Plain.enclose (by decide) (by decide) legible.provider
  unfold guarded caseLines
  rw [remarks_eq, condition_eq,
    ((Script.level_lines _).append (Script.level_lines _)).laid_append,
    (Script.level_lines _).laid_append, Script.laid_block 3 "" (Script.level_lines body),
    Script.laid_lines 3 remarked, Script.laid_lines 3 conditioned, Script.laid_lines 4 bodyLines,
    List.map_map]
  simp only [Writer.laidLine, if_true, Function.comp_def, List.map_cons, List.map_nil,
    List.append_assoc, List.cons_append, List.nil_append]

theorem plain_creationTexts : ∀ text ∈ branch.creationTexts, Text.Plain text := by
  intro text member
  simp only [creationTexts, List.mem_cons, List.not_mem_nil, or_false] at member
  rcases member with rfl | rfl | rfl | rfl
  · exact Text.Plain.enclose (by decide) (by decide) legible.proxy
  · exact Text.Plain.enclose (by decide) (by decide) legible.contract
  · decide
  · exact Text.Plain.enclose (by decide) (by decide) legible.provider

theorem plain_nameTexts : ∀ text ∈ branch.nameTexts, Text.Plain text := by
  intro text member
  obtain rfl := List.mem_singleton.mp member
  exact Text.Plain.enclose (by decide) (by decide) legible.proxy

end

end Branch

/-! ### Dispatchers -/

namespace Dispatcher

variable {dispatcher : Dispatcher}

theorem typeParameters_eq : typeParameters = "<TContract, TProvider>" := by decide +kernel

def bodyLines (branches : List Branch) (remarks body : Branch → List String) : List String :=
  branches.flatMap (fun branch => branch.caseLines (remarks branch) (body branch) ++
    [indentation 3 ++ "\x7d"]) ++ [indentation 3 ++ "return default;"]

def bodyScript (branches : List Branch) (remarks body : Branch → List String) : Script :=
  Script.spaced
    ((branches.map fun branch => branch.guarded (remarks branch) (body branch)) ++ [otherwise])

theorem level_bodyParts (branches : List Branch) (remarks body : Branch → List String) :
    ∀ part ∈ (branches.map fun branch => branch.guarded (remarks branch) (body branch)) ++
      [otherwise], Script.Level part := by
  intro part member
  rcases List.mem_append.mp member with guarded | last
  · obtain ⟨branch, _, rfl⟩ := List.mem_map.mp guarded
    exact branch.level_guarded _ _
  · obtain rfl := List.mem_singleton.mp last
    exact Script.level_nil

theorem level_bodyScript (branches : List Branch) (remarks body : Branch → List String) :
    (bodyScript branches remarks body).Level :=
  .spaced (level_bodyParts branches remarks body)

theorem laid_bodyScript {branches : List Branch} {remarks body : Branch → List String}
    (legible : ∀ branch ∈ branches, branch.Legible)
    (remarkLines : ∀ branch ∈ branches, ∀ text ∈ remarks branch, Text.Plain text)
    (bodyTexts : ∀ branch ∈ branches, ∀ text ∈ body branch, Text.Plain text) :
    (bodyScript branches remarks body).laid 3 = bodyLines branches remarks body := by
  have last : Script.laid 3 otherwise = [indentation 3 ++ "return default;"] :=
    @Script.laid_lines 3 ["return default;"] (by decide)
  unfold bodyScript bodyLines
  rw [Script.laid_spaced 3 (level_bodyParts branches remarks body), List.flatMap_append,
    List.flatMap_singleton, last, List.flatMap_map]
  congr 1
  apply List.flatMap_congr
  intro branch member
  exact Branch.laid_guarded (legible branch member) (remarkLines branch member)
    (bodyTexts branch member)

theorem inside_bodyLines (branches : List Branch) (remarks body : Branch → List String) :
    ∀ line ∈ bodyLines branches remarks body, Inside 2 line := by
  unfold bodyLines
  intro line member
  rcases List.mem_append.mp member with cases | last
  · obtain ⟨branch, _, within⟩ := List.mem_flatMap.mp cases
    rcases List.mem_append.mp within with caseLine | closing
    · exact (branch.inside_caseLines _ _ line caseLine).outer
    · exact List.mem_singleton.mp closing ▸ inside_deeper 2 _
  · exact List.mem_singleton.mp last ▸ inside_deeper 2 _

/-- The lines of a method, but for the one that closes it. -/
def creationLines (dispatcher : Dispatcher) : List String := [
  indentation 2 ++ ("TContract " ++ dispatcher.contract ++ ".Instantiate<TContract, TProvider>("),
  indentation 2 ++ "    TContract underlyingImplementation,",
  indentation 2 ++ ("    " ++ dispatcher.allowListType ++ " applicableMembers,"),
  indentation 2 ++ "    TProvider behaviorProvider)",
  indentation 2 ++ "\x7b"] ++
    bodyLines dispatcher.branches (·.remark.toList) Branch.creationTexts

def nameLines (dispatcher : Dispatcher) : List String := [
  indentation 2 ++ ("global::System.Type " ++ dispatcher.contract ++
    ".GetDecoratorType<TContract, TProvider>()"),
  indentation 2 ++ "\x7b"] ++ bodyLines dispatcher.branches (fun _ => []) Branch.nameTexts

theorem instantiate_eq (dispatcher : Dispatcher) : dispatcher.instantiate = [
    "TContract " ++ dispatcher.contract ++ ".Instantiate<TContract, TProvider>(",
    "    TContract underlyingImplementation,",
    "    " ++ dispatcher.allowListType ++ " applicableMembers,",
    "    TProvider behaviorProvider)"].map .line ++ Script.block ""
      (bodyScript dispatcher.branches (·.remark.toList) Branch.creationTexts) := by
  have branches : dispatcher.branches.map (·.instantiate) =
      dispatcher.branches.map fun branch => branch.guarded branch.remark.toList
        branch.creationTexts := List.map_congr_left fun branch _ => branch.instantiate_eq
  unfold instantiate bodyScript
  rw [branches, typeParameters_eq]
  simp [Branch.contractParameter, Branch.providerParameter, String.append_assoc]

theorem typeSelector_eq (dispatcher : Dispatcher) : dispatcher.typeSelector = Script.block
    ("global::System.Type " ++ dispatcher.contract ++ ".GetDecoratorType<TContract, TProvider>()")
    (bodyScript dispatcher.branches (fun _ => []) Branch.nameTexts) := by
  have branches : dispatcher.branches.map (·.typeOnly) =
      dispatcher.branches.map fun branch => branch.guarded [] branch.nameTexts :=
    List.map_congr_left fun branch _ => branch.typeOnly_eq
  unfold typeSelector bodyScript
  rw [branches, typeParameters_eq, String.append_assoc, String.append_assoc]
  rfl

section

variable (contractLine : Text.OneLine dispatcher.contract)
  (allowListLine : Text.OneLine dispatcher.allowListType)
  (legible : ∀ branch ∈ dispatcher.branches, branch.Legible)

include contractLine legible

include allowListLine in
theorem laid_instantiate :
    dispatcher.instantiate.laid 2 = dispatcher.creationLines ++ [indentation 2 ++ "\x7d"] := by
  have signature : ∀ text ∈ [
      "TContract " ++ dispatcher.contract ++ ".Instantiate<TContract, TProvider>(",
      "    TContract underlyingImplementation,",
      "    " ++ dispatcher.allowListType ++ " applicableMembers,",
      "    TProvider behaviorProvider)"], Text.Plain text := by
    intro text member
    simp only [List.mem_cons, List.not_mem_nil, or_false] at member
    rcases member with rfl | rfl | rfl | rfl
    · exact Text.Plain.enclose (by decide) (by decide) contractLine
    · decide
    · exact Text.Plain.enclose (by decide) (by decide) allowListLine
    · decide
  have remarks : ∀ branch ∈ dispatcher.branches, ∀ text ∈ branch.remark.toList, Text.Plain text :=
    fun branch member text listed =>
      (legible branch member).remark text (Option.mem_toList.mp listed)
  have body := laid_bodyScript legible remarks
    fun branch member => Branch.plain_creationTexts (legible branch member)
  rw [instantiate_eq, (Script.level_lines _).laid_append, Script.laid_lines 2 signature,
    Script.laid_block 2 "" (level_bodyScript _ _ _), body]
  simp only [creationLines, Writer.laidLine, if_true, List.map_cons, List.map_nil,
    List.cons_append, List.nil_append]

theorem laid_typeSelector :
    dispatcher.typeSelector.laid 2 = dispatcher.nameLines ++ [indentation 2 ++ "\x7d"] := by
  have signature : Text.Plain ("global::System.Type " ++ dispatcher.contract ++
      ".GetDecoratorType<TContract, TProvider>()") :=
    Text.Plain.enclose (by decide) (by decide) contractLine
  have remarks : ∀ branch ∈ dispatcher.branches, ∀ text ∈ ([] : List String), Text.Plain text :=
    fun _ _ _ listed => absurd listed List.not_mem_nil
  have body := laid_bodyScript legible remarks
    fun branch member => Branch.plain_nameTexts (legible branch member)
  rw [typeSelector_eq, Script.laid_block 2 _ (level_bodyScript _ _ _), body,
    Writer.laidLine_plain 2 signature]
  simp only [nameLines, List.cons_append, List.nil_append]

end

theorem level_instantiate (dispatcher : Dispatcher) : dispatcher.instantiate.Level := by
  rw [instantiate_eq]
  exact (Script.level_lines _).append (Script.level_block "" (level_bodyScript _ _ _))

theorem level_typeSelector (dispatcher : Dispatcher) : dispatcher.typeSelector.Level := by
  rw [typeSelector_eq]
  exact Script.level_block _ (level_bodyScript _ _ _)

theorem inside_creationLines (dispatcher : Dispatcher) :
    ∀ line ∈ dispatcher.creationLines, Inside 2 line := by
  intro line member
  rcases List.mem_append.mp member with signature | body
  · simp only [List.mem_cons, List.not_mem_nil, or_false] at signature
    rcases signature with rfl | rfl | rfl | rfl | rfl
    all_goals exact ⟨_, rfl, by simp⟩
  · exact inside_bodyLines _ _ _ line body

theorem inside_nameLines (dispatcher : Dispatcher) :
    ∀ line ∈ dispatcher.nameLines, Inside 2 line := by
  intro line member
  rcases List.mem_append.mp member with signature | body
  · simp only [List.mem_cons, List.not_mem_nil, or_false] at signature
    rcases signature with rfl | rfl
    all_goals exact ⟨_, rfl, by simp⟩
  · exact inside_bodyLines _ _ _ line body

theorem read?_bodyLines {α : Type} {outcome? : List String → Option α} {outcome : Branch → α}
    (branches : List Branch) (remarks : Branch → List String) {body : Branch → List String}
    (reads : ∀ branch, outcome? ((body branch).map (indentation 4 ++ ·)) = some (outcome branch)) :
    Cases.read? outcome? (bodyLines branches remarks body) =
      some (branches.map fun branch => (branch.types, outcome branch)) :=
  Cases.read?_flatMap (fun branch _ => branch.inside_caseLines _ _)
    fun branch _ => branch.case?_caseLines _ (reads branch)

theorem creations?_creationLines (dispatcher : Dispatcher) :
    Selectors.creations? dispatcher.creationLines = some (dispatcher.branches.map fun branch =>
      (branch.types, branch.creation dispatcher.allowListType)) := by
  have cases := read?_bodyLines dispatcher.branches (·.remark.toList)
    fun branch => branch.read?_creationTexts dispatcher.allowListType
  simp only [creationLines, Selectors.creations?, List.cons_append, List.nil_append,
    Text.between_indented, bind, Option.bind_some, and_self, if_true, cases]

theorem names?_nameLines (dispatcher : Dispatcher) :
    Selectors.names? dispatcher.nameLines =
      some (dispatcher.branches.map fun branch => (branch.types, branch.proxy)) := by
  have cases := read?_bodyLines dispatcher.branches (fun _ => []) Branch.name?_nameTexts
  simp only [nameLines, Selectors.names?, List.cons_append, List.nil_append,
    Text.between_indented, bind, Option.bind_some, if_true, cases]

/-- Both methods of a dispatcher have a case for each branch, in order. -/
theorem read?_script (scopeWord : Text.Unbroken dispatcher.scope)
    (titleWord : Text.Unbroken dispatcher.name) (contractLine : Text.OneLine dispatcher.contract)
    (allowListLine : Text.OneLine dispatcher.allowListType)
    (legible : ∀ branch ∈ dispatcher.branches, branch.Legible) (name : String) :
    Selectors.read? (Artifact.ofScope name dispatcher.scope dispatcher.script).text = some {
      creations := dispatcher.branches.map fun branch =>
        (branch.types, branch.creation dispatcher.allowListType)
      names := dispatcher.branches.map fun branch => (branch.types, branch.proxy) } := by
  obtain ⟨rest, outlined⟩ := Outline.read?_ofScope scopeWord titleWord contractLine name
    (Script.spaced [dispatcher.instantiate, dispatcher.typeSelector])
  have members : (Script.spaced [dispatcher.instantiate, dispatcher.typeSelector]).laid 2 ++ rest =
      dispatcher.creationLines ++ (indentation 2 ++ "\x7d") ::
        (dispatcher.nameLines ++ (indentation 2 ++ "\x7d") :: rest) := by
    rw [Script.laid_spaced_cons 2 dispatcher.level_instantiate,
      Script.laid_spaced_cons 2 dispatcher.level_typeSelector,
      laid_instantiate contractLine allowListLine legible, laid_typeSelector contractLine legible]
    simp only [List.append_assoc, List.cons_append, List.nil_append]
    rfl
  unfold Selectors.read? script
  rw [outlined]
  simp only [bind, Option.bind_some, members,
    Selectors.cut_append (closing_not_mem dispatcher.inside_creationLines),
    Selectors.cut_append (closing_not_mem dispatcher.inside_nameLines),
    creations?_creationLines, names?_nameLines]
  rfl

end Dispatcher

end Interpose
