import Interpose.Proofs.Bypassing
import Interpose.Proofs.Statements
import Mathlib.Data.List.SplitBy

/-!
# Routines as they are read

The lines of a method are read in the order in which they stand: the class that is declared for it,
the header, and then one instruction after the other. Which rows belong to one instruction is seen
from how they begin: `parts_flatten`.
-/

namespace Interpose.Execution

open Proxy (GuardEntry)
open Text (Word behind before before_append between word? lastWord? items?)
open Writer (indentation)

/-! ### Blocks -/

/-- Whether a row belongs to the head above it. -/
def belongs (row : String) : Bool :=
  row.toList.head?.any fun c => c = ' ' ∨ c = '\x7b' ∨ c = '\x7d'

/-- The rows, each head together with those that belong to it. -/
def parts (rows : List String) : List (List String) := rows.splitBy fun _ row => belongs row

/-- The rows between braces, of which the second may have more behind it. -/
def inside? (closing : String) (rows : List String) : Option (List String) := do
  let rows ← (← rows.dropPrefix? ["\x7b"]).dropSuffix? [closing]
  rows.mapM (behind "    ")

/-- Reads rows of which each but the last has a sign that there are more. -/
def series? {α : Type} (goesOn ends : String) (item? : String → Option α) :
    List String → Option (List α)
  | [] => none
  | [last] => (before ends last).bind fun text => (item? text).map ([·])
  | first :: next :: others => do
    let item ← item? (← before goesOn first)
    let items ← series? goesOn ends item? (next :: others)
    return item :: items

/-! ### Instructions -/

/-- Reads what a guard looks for. -/
def key? (signature : Signature) (text : String) : Option GuardEntry :=
  match between ("nameof(" ++ signature.contract ++ ".") ")" text with
  | some member => some (.nameOf signature.contract member)
  | none => (between "\"" "\"" text).map .literal

def condition? (signature : Signature) (row : String) : Option GuardEntry :=
  (behind "    !this._applicableMembers.Contains(" row).bind (key? signature)

def guarded? (signature : Signature) (rows : List String) : Option Instruction := do
  let entries ← series? ") &&" "))" (condition? signature) (rows.takeWhile (· ≠ "\x7b"))
  let block ← inside? "\x7d" (rows.dropWhile (· ≠ "\x7b"))
  return .guarded entries (← block.mapM (statement? signature false))

/-- Reads what an initialiser fills a field with. -/
def filling? (row : String) : Option (String × Expr) := do
  let (word, rest) ← word? row
  return (word, ← value? (← behind " = " rest))

def make? (head : String) (rows : List String) : Option Instruction := do
  let (word, rest) ← declared? head
  let title ← behind "new " rest
  return .make word title (← series? "," "" filling? rows)

/-- Reads the call of a hook, from its end up to the hook's name. -/
def handed? (line : String) : Option (String × String × String) := do
  let line ← between "this._behaviorProvider." ") =>" line
  let (line, parameter) ← lastWord? line
  let (line, context) ← lastWord? (← before ", static (" line)
  let selector ← (before "(in " line).or (before "(" line)
  return (selector, context, parameter)

/-- The variable that a line declares, if it does, and what it is to hold. -/
def kept (line : String) : Option String × String :=
  match declared? line with
  | some (word, rest) => (some word, rest)
  | none => (none, line)

def hook? (signature : Signature) (head : String) (rows : List String) : Option Instruction := do
  let (selector, context, parameter) ← handed? (kept head).2
  let body ← rows.mapM (statement? signature true)
  return .hook (kept head).1 selector context parameter body

/-- Reads a statement, or a head and its block by the way in which this closes. -/
def instruction? (signature : Signature) : List String → Option Instruction
  | [] => none
  | [row] => (statement? signature false row).map .plain
  | head :: rows =>
    if head = "if (this._applicableMembers != null &&" then guarded? signature rows
    else
      match inside? "\x7d;" rows with
      | some fillings => make? head fillings
      | none => (inside? "\x7d);" rows).bind (hook? signature head)

/-! ### Routines -/

def fieldName? (row : String) : Option String := do
  let (_, word) ← lastWord? (← between "public " ";" row)
  return word

def parameter? (declared : PassMode × String) (line : String) :
    Option ((PassMode × String) × String) := do
  let (word, rest) ← word? (← behind (marker declared.1 ++ declared.2 ++ " ") line)
  return ((declared.1, word), rest)

/-- What stands in front of the parameters where the method is declared. -/
def Signature.opening (signature : Signature) : String :=
  signature.returnType.getD "void" ++ " " ++ signature.contract ++ "." ++ signature.reference ++ "("

/-- Reads the lines of a class and of the method behind it. -/
def routine? (signature : Signature) (lines : List String) : Option Routine := do
  let rows ← (lines.filter (· ≠ "")).mapM (behind "        ")
  match rows.takeWhile (· ≠ "\x7d"), rows.dropWhile (· ≠ "\x7d") with
  | first :: fields, last :: header :: body => do
    let title ← behind "private sealed class " first
    let fields ← (← inside? "\x7d" (fields ++ [last])).mapM fieldName?
    let parameters ← items? parameter? signature.parameters
      (← between signature.opening ")" header)
    let body ← (parts (← inside? "\x7d" body)).mapM (instruction? signature)
    return ⟨title, fields, parameters, body⟩
  | _, _ => none

/-! ### Rows -/

/-- A head with what belongs to it. -/
def Whole (rows : List String) : Prop :=
  ∃ head block, rows = head :: block ∧ belongs head = false ∧ ∀ row ∈ block, belongs row

theorem parts_flatten {wholes : List (List String)} (whole : ∀ rows ∈ wholes, Whole rows) :
    parts wholes.flatten = wholes := by
  refine List.splitBy_flatten ?_ ?_ ?_
  · intro empty
    obtain ⟨head, block, same, _⟩ := whole [] empty
    cases same
  · intro rows member
    obtain ⟨head, block, rfl, _, within⟩ := whole rows member
    refine List.Pairwise.isChain (List.pairwise_cons.mpr ⟨within, ?_⟩)
    exact List.pairwise_of_forall_mem_list fun _ _ row listed => within row listed
  · refine List.Pairwise.isChain (List.pairwise_of_forall_mem_list ?_)
    intro rows member others listed
    obtain ⟨head, block, rfl, _⟩ := whole rows member
    obtain ⟨next, below, rfl, apart, _⟩ := whole others listed
    exact ⟨List.cons_ne_nil _ _, List.cons_ne_nil _ _, apart⟩

theorem mapM_behind (opening : String) (rows : List String) :
    (rows.map (opening ++ ·)).mapM (behind opening) = some rows := by
  induction rows with
  | nil => rfl
  | cons row rows ih => simp [ih]

/-- A row that is none of those in front of it ends them. -/
theorem takeWhile_ne_append {mark : String} {front : List String}
    (apart : ∀ row ∈ front, row ≠ mark) (back : List String) :
    (front ++ mark :: back).takeWhile (· ≠ mark) = front ∧
      (front ++ mark :: back).dropWhile (· ≠ mark) = mark :: back := by
  have kept : ∀ row ∈ front, decide (row ≠ mark) = true := fun row member =>
    decide_eq_true (apart row member)
  rw [List.takeWhile_append_of_pos kept, List.dropWhile_append_of_pos kept,
    List.takeWhile_cons_of_neg (by simp), List.dropWhile_cons_of_neg (by simp), List.append_nil]
  exact ⟨rfl, rfl⟩

theorem inside?_braced (closing : String) (rows : List String) :
    inside? closing ("\x7b" :: rows.map (indentation 1 ++ ·) ++ [closing]) = some rows := by
  have opened : ("\x7b" :: rows.map (indentation 1 ++ ·) ++ [closing]).dropPrefix? ["\x7b"] =
      some (rows.map (indentation 1 ++ ·) ++ [closing]) :=
    List.dropPrefix?_eq_some_iff.mpr ⟨["\x7b"], rfl, by simp⟩
  have closed : (rows.map (indentation 1 ++ ·) ++ [closing]).dropSuffix? [closing] =
      some (rows.map (indentation 1 ++ ·)) :=
    List.dropSuffix?_eq_some_iff.mpr ⟨[closing], rfl, by simp⟩
  have spaces : indentation 1 = "    " := by decide
  rw [inside?, opened, Option.bind_eq_bind, Option.bind_some, closed, Option.bind_some, ← spaces]
  exact mapM_behind _ rows

theorem inside?_eq_none {closing other : String} (apart : closing ≠ other) (rows : List String) :
    inside? closing ("\x7b" :: rows ++ [other]) = none := by
  have opened : ("\x7b" :: rows ++ [other]).dropPrefix? ["\x7b"] = some (rows ++ [other]) :=
    List.dropPrefix?_eq_some_iff.mpr ⟨["\x7b"], rfl, by simp⟩
  have unclosed : (rows ++ [other]).dropSuffix? [closing] = none := by
    rw [Option.eq_none_iff_forall_ne_some]
    intro front found
    obtain ⟨last, same, closes⟩ := List.dropSuffix?_eq_some_iff.mp found
    rw [beq_iff_eq.mp closes] at same
    exact apart (List.singleton_inj.mp (List.append_inj_right' same rfl)).symm
  rw [inside?, opened, Option.bind_eq_bind, Option.bind_some, unclosed]
  rfl

theorem belongs_append {opening : String} (filled : opening ≠ "") (rest : String) :
    belongs (opening ++ rest) = belongs opening := by
  rw [belongs, belongs, Text.head?_append filled]

theorem belongs_word {word : String} (written : Word word) (rest : String) :
    belongs (word ++ rest) = false := by
  obtain ⟨c, head, letter⟩ := written.head? rest
  have other : ¬ (c = ' ' ∨ c = '\x7b' ∨ c = '\x7d') := by
    rintro (rfl | rfl | rfl)
    · exact absurd letter (by decide)
    · exact absurd letter (by decide)
    · exact absurd letter (by decide)
  rw [belongs, head, Option.any_some, decide_eq_false other]

/-! ### Series -/

/-- Rows of which each but the last has a sign that there are more. -/
def series (goesOn ends : String) : List String → List String
  | [] => []
  | text :: rest => (text ++ if rest.isEmpty then ends else goesOn) :: series goesOn ends rest

theorem mem_series {goesOn ends row : String} {texts : List String}
    (member : row ∈ series goesOn ends texts) :
    ∃ text ∈ texts, row = text ++ goesOn ∨ row = text ++ ends := by
  induction texts with
  | nil => cases member
  | cons text rest ih =>
    rcases List.mem_cons.mp member with rfl | member
    · refine ⟨text, List.mem_cons_self, ?_⟩
      split
      · exact .inr rfl
      · exact .inl rfl
    · obtain ⟨other, listed, same⟩ := ih member
      exact ⟨other, List.mem_cons_of_mem _ listed, same⟩

theorem series?_series {α : Type} {goesOn ends : String} {item? : String → Option α}
    {text : α → String} {items : List α} (filled : items ≠ [])
    (reads : ∀ item ∈ items, item? (text item) = some item) :
    series? goesOn ends item? (series goesOn ends (items.map text)) = some items := by
  induction items with
  | nil => exact absurd rfl filled
  | cons item items ih =>
    have first := reads item List.mem_cons_self
    cases items with
    | nil => simp [series, series?, first]
    | cons next items =>
      have others := ih (List.cons_ne_nil _ _) fun other member =>
        reads other (List.mem_cons_of_mem item member)
      simp only [List.map_cons, series] at others ⊢
      simp only [List.isEmpty_cons, Bool.false_eq_true, if_false, series?, before_append, first,
        Option.bind_eq_bind, Option.bind_some, others]
      rfl

end Interpose.Execution
