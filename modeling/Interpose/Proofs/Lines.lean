import Interpose.Source.Artifact
import Mathlib.Data.List.Basic

/-!
# Lines

The lines of a text that are not empty are what the steps of its script lay down, one after the other
and each at the depth of its block: `inked_text`.
-/

namespace Interpose

namespace Text

def lines (text : String) : List String := (text.toList.splitOn '\n').map String.ofList

/-- The lines with something on them. -/
def inked (text : String) : List String := (lines text).filter (· ≠ "")

def OneLine (text : String) : Prop := '\n' ∉ text.toList

instance (text : String) : Decidable (OneLine text) :=
  inferInstanceAs (Decidable ('\n' ∉ text.toList))

/-- The text ends in a character that is not white space. -/
def solid (text : String) : Bool := text.toList.getLast?.any fun c => !blank c

/-- A line holds the text as it is. -/
def Plain (text : String) : Prop := OneLine text ∧ solid text

instance (text : String) : Decidable (Plain text) :=
  inferInstanceAs (Decidable (OneLine text ∧ solid text = true))

@[simp] theorem inked_empty : inked "" = [] := by decide

@[simp] theorem oneLine_append {first second : String} :
    OneLine (first ++ second) ↔ OneLine first ∧ OneLine second := by
  simp [OneLine, not_or]

theorem lines_oneLine {line : String} (one : OneLine line) : lines line = [line] := by
  rw [lines, List.splitOn_eq_singleton one, List.map_singleton, String.ofList_toList]

theorem inked_oneLine {text : String} (one : OneLine text) (filled : text ≠ "") :
    inked text = [text] := by
  rw [inked, lines_oneLine one]
  simp [filled]

@[simp] theorem solid_append {head tail : String} (ends : solid tail) : solid (head ++ tail) := by
  unfold solid at ends ⊢
  rw [String.toList_append, List.getLast?_append]
  cases last : tail.toList.getLast? with
  | none => simp [last] at ends
  | some c => simpa [last] using ends

theorem Plain.append {head tail : String} (plain : Plain tail) (one : OneLine head) :
    Plain (head ++ tail) :=
  ⟨oneLine_append.mpr ⟨one, plain.1⟩, solid_append plain.2⟩

theorem Plain.enclose {closing : String} (plain : Plain closing) {opening inner : String}
    (opens : OneLine opening) (one : OneLine inner) : Plain (opening ++ inner ++ closing) :=
  plain.append (oneLine_append.mpr ⟨opens, one⟩)

theorem ne_empty_of_solid {text : String} (ends : solid text) : text ≠ "" := by
  rintro rfl
  exact absurd ends (by decide)

theorem trimEnd_append {head : String} (ends : solid head) (tail : String) :
    trimEnd (head ++ tail) = head ++ trimEnd tail := by
  unfold solid at ends
  cases last : head.toList.getLast? with
  | none => simp [last] at ends
  | some c =>
    have inked : blank c = false := by simpa [last] using ends
    obtain ⟨before, spelled⟩ := List.getLast?_eq_some_iff.mp last
    have stops : head.toList.reverse.dropWhile blank = head.toList.reverse := by
      rw [spelled, List.reverse_append, List.reverse_singleton, List.singleton_append,
        List.dropWhile_cons_of_neg (by simp [inked])]
    apply String.toList_injective
    unfold trimEnd
    rw [String.toList_append, String.toList_ofList, String.toList_append, String.toList_ofList,
      List.reverse_append, List.dropWhile_append]
    -- Either all of the tail is white space or the trimming ends within it.
    split
    · rename_i gone
      rw [List.isEmpty_iff.mp gone, List.reverse_nil, List.append_nil, stops, List.reverse_reverse]
    · rw [List.reverse_append, List.reverse_reverse]

theorem trimEnd_solid {text : String} (ends : solid text) : trimEnd text = text := by
  have trimmed := trimEnd_append ends ""
  have nothing : trimEnd "" = "" := by decide
  rwa [nothing, String.append_empty] at trimmed

theorem mem_of_mem_trimEnd {text : String} {c : Char} (member : c ∈ (trimEnd text).toList) :
    c ∈ text.toList := by
  unfold trimEnd at member
  rw [String.toList_ofList, List.mem_reverse] at member
  exact List.mem_reverse.mp ((List.dropWhile_sublist _).subset member)

theorem oneLine_trimEnd {text : String} (one : OneLine text) : OneLine (trimEnd text) :=
  fun member => one (mem_of_mem_trimEnd member)

end Text

/-! ### Depth -/

def Step.deepen (depth : Nat) : Step → Nat
  | .line _ => depth
  | .blank => depth
  | .enter _ => depth + 1
  | .leave _ => depth - 1

/-- The lines that a text makes at a depth. -/
def Writer.laidLine (depth : Nat) (text : String) : List String :=
  if text = "" then [] else Text.inked (indentation depth ++ Text.trimEnd text)

@[simp] theorem Writer.indentation_zero : indentation 0 = "" := rfl

theorem Writer.eq_of_mem_indentation {depth : Nat} {c : Char}
    (member : c ∈ (indentation depth).toList) : c = ' ' := by
  rw [indentation, String.toList_ofList] at member
  exact List.eq_of_mem_replicate member

theorem Writer.oneLine_indentation (depth : Nat) : Text.OneLine (indentation depth) := by
  simp [Text.OneLine, indentation]

theorem Writer.laidLine_oneLine (depth : Nat) {text : String} (one : Text.OneLine text)
    (filled : Text.trimEnd text ≠ "") :
    laidLine depth text = [indentation depth ++ Text.trimEnd text] := by
  have written : text ≠ "" := by
    rintro rfl
    exact filled (by decide)
  unfold laidLine
  rw [if_neg written]
  apply Text.inked_oneLine
  · rw [Text.oneLine_append]
    exact ⟨oneLine_indentation depth, Text.oneLine_trimEnd one⟩
  · intro gone
    exact filled (String.append_eq_empty_iff.mp gone).2

theorem Writer.laidLine_plain (depth : Nat) {text : String} (plain : Text.Plain text) :
    laidLine depth text = [indentation depth ++ text] := by
  have trimmed := Text.trimEnd_solid plain.2
  have filled : Text.trimEnd text ≠ "" := by
    rw [trimmed]
    exact Text.ne_empty_of_solid plain.2
  rw [laidLine_oneLine depth plain.1 filled, trimmed]

def Step.laid (depth : Nat) : Step → List String
  | .line text => Writer.laidLine depth text
  | .blank => []
  | .enter header => Writer.laidLine depth header ++ Writer.laidLine depth "\x7b"
  | .leave closing => Writer.laidLine (depth - 1) closing

namespace Script

def laid : Nat → Script → List String
  | _, [] => []
  | depth, step :: rest => step.laid depth ++ laid (step.deepen depth) rest

/-- The script ends at the depth at which it begins. -/
def Level (script : Script) : Prop := ∀ depth, script.foldl Step.deepen depth = depth

end Script

namespace Writer

/-- The lines of a writer that are not empty, in order. -/
def inked (writer : Writer) : List String := writer.lines.reverse.flatMap Text.inked

theorem inked_push (lines : List String) (line : String) (depth : Nat) :
    inked ⟨line :: lines, depth⟩ = inked ⟨lines, depth⟩ ++ Text.inked line := by
  simp [inked]

theorem inked_blank (writer : Writer) : writer.blank.inked = writer.inked := by
  unfold blank
  split
  · rw [inked_push, Text.inked_empty, List.append_nil]
  · rfl

theorem blank_depth (writer : Writer) : writer.blank.depth = writer.depth := by
  unfold blank
  split <;> rfl

theorem inked_line (writer : Writer) (text : String) :
    (writer.line text).inked = writer.inked ++ laidLine writer.depth text := by
  unfold line laidLine
  split
  · rw [inked_blank, List.append_nil]
  · rw [inked_push]

theorem line_depth (writer : Writer) (text : String) : (writer.line text).depth = writer.depth := by
  unfold line
  split
  · exact blank_depth writer
  · rfl

/-- A blank line that a closing takes back is none of the inked ones. -/
theorem inked_unblank (lines : List String) (depth other : Nat) :
    inked ⟨if endsBlank lines then lines.tail else lines, depth⟩ = inked ⟨lines, other⟩ := by
  split
  · rename_i ends
    unfold endsBlank at ends
    split at ends
    · simp [inked]
    · cases ends
  · rfl

theorem step_laid (writer : Writer) (step : Step) :
    (writer.step step).inked = writer.inked ++ step.laid writer.depth ∧
      (writer.step step).depth = step.deepen writer.depth := by
  cases step with
  | line text => exact ⟨inked_line writer text, line_depth writer text⟩
  | blank =>
    refine ⟨?_, blank_depth writer⟩
    rw [Step.laid, List.append_nil]
    exact inked_blank writer
  | enter header =>
    -- An empty header makes no line, not even a blank one.
    by_cases empty : header = ""
    · subst empty
      refine ⟨?_, ?_⟩
      · exact inked_line writer "\x7b"
      · exact congrArg (· + 1) (line_depth writer "\x7b")
    · have headed : writer.enter header =
          { (writer.line header).line "\x7b" with
            depth := ((writer.line header).line "\x7b").depth + 1 } := by
        unfold enter
        rw [if_neg empty]
      refine ⟨?_, ?_⟩
      · calc
          (writer.enter header).inked = ((writer.line header).line "\x7b").inked := by
            rw [headed]
            rfl
          _ = writer.inked ++ laidLine writer.depth header ++ laidLine writer.depth "\x7b" := by
            rw [inked_line, inked_line, line_depth]
          _ = _ := List.append_assoc _ _ _
      · change (writer.enter header).depth = writer.depth + 1
        rw [headed, line_depth, line_depth]
  | leave closing =>
    refine ⟨?_, line_depth _ closing⟩
    change (writer.leave closing).inked = writer.inked ++ laidLine (writer.depth - 1) closing
    unfold leave
    rw [inked_line, inked_unblank writer.lines _ writer.depth]

theorem run_laid (writer : Writer) (script : Script) :
    (script.foldl step writer).inked = writer.inked ++ script.laid writer.depth := by
  induction script generalizing writer with
  | nil => rw [List.foldl_nil, Script.laid, List.append_nil]
  | cons next rest ih =>
    obtain ⟨inked, depth⟩ := step_laid writer next
    rw [List.foldl_cons, ih, inked, depth, Script.laid, List.append_assoc]

theorem inked_settled (lines : List String) (depth : Nat) :
    inked ⟨settled lines, depth⟩ = inked ⟨lines, depth⟩ := by
  fun_induction settled lines with
  | case1 last rest ih => rw [ih, inked_push _ "", Text.inked_empty, List.append_nil]
  | case2 lines other => rfl

theorem toList_written (lines : List String) (before : String) :
    (lines.foldl (fun text line => text ++ line ++ "\n") before).toList =
      before.toList ++ lines.flatMap fun line => line.toList ++ ['\n'] := by
  induction lines generalizing before with
  | nil => simp
  | cons line rest ih => simp [ih]

theorem lines_written (lines : List String) :
    Text.lines (lines.foldl (fun text line => text ++ line ++ "\n") "") =
      lines.flatMap Text.lines ++ [""] := by
  unfold Text.lines
  rw [toList_written, String.toList_empty, List.nil_append]
  induction lines with
  | nil => rfl
  | cons line rest ih =>
    rw [List.flatMap_cons, List.append_assoc, List.singleton_append,
      List.splitOn_append_cons_self, List.map_append, ih, List.flatMap_cons, List.append_assoc]

theorem inked_finish (writer : Writer) : Text.inked writer.finish = writer.inked := by
  unfold finish Text.inked
  rw [lines_written, List.filter_append, List.filter_flatMap]
  have last : [""].filter (· ≠ "") = [] := by decide
  rw [last, List.append_nil]
  exact inked_settled writer.lines writer.depth

end Writer

namespace Script

theorem inked_text (script : Script) : Text.inked script.text = script.laid 0 := by
  unfold text
  rw [Writer.inked_finish]
  exact Writer.run_laid .empty script

/-! ### Scripts out of scripts -/

theorem laid_append (depth : Nat) (first second : Script) :
    laid depth (first ++ second) =
      laid depth first ++ laid (first.foldl Step.deepen depth) second := by
  induction first generalizing depth with
  | nil => rfl
  | cons step rest ih =>
    rw [List.cons_append, laid, laid, ih, List.foldl_cons, List.append_assoc]

theorem Level.laid_append {first : Script} (level : Level first) (depth : Nat) (second : Script) :
    laid depth (first ++ second) = laid depth first ++ laid depth second := by
  rw [Script.laid_append, level]

theorem Level.append {first second : Script} (level : Level first) (other : Level second) :
    Level (first ++ second) := by
  intro depth
  rw [List.foldl_append, level, other]

theorem level_nil : Level [] := fun _ => rfl

theorem level_line (text : String) {rest : Script} (level : Level rest) :
    Level (.line text :: rest) := level

theorem level_lines (texts : List String) : Level (texts.map .line) := by
  induction texts with
  | nil => exact level_nil
  | cons text rest ih => exact level_line text ih

theorem level_block (header : String) {body : Script} (level : Level body) :
    Level (block header body) := by
  intro depth
  change (body ++ [Step.leave "\x7d"]).foldl Step.deepen (depth + 1) = depth
  rw [List.foldl_append, level]
  rfl

theorem laid_block (depth : Nat) (header : String) {body : Script} (level : Level body) :
    laid depth (block header body) =
      Writer.laidLine depth header ++ [Writer.indentation depth ++ "\x7b"] ++
        laid (depth + 1) body ++ [Writer.indentation depth ++ "\x7d"] := by
  have opening : Writer.laidLine depth "\x7b" = [Writer.indentation depth ++ "\x7b"] :=
    Writer.laidLine_plain depth (by decide)
  have closing : Writer.laidLine depth "\x7d" = [Writer.indentation depth ++ "\x7d"] :=
    Writer.laidLine_plain depth (by decide)
  rw [← opening, ← closing]
  unfold block
  rw [Script.laid_append, List.foldl_cons, level, laid, laid, laid, List.append_nil]
  rfl

/-- The first part stands in front of the others, perhaps with a blank line between. -/
theorem spaced_cons (first : Script) (others : List Script) :
    spaced (first :: others) = first ++ spaced others ∨
      spaced (first :: others) = first ++ .blank :: spaced others := by
  unfold spaced
  cases first with
  | nil => exact .inl rfl
  | cons step steps =>
    rw [List.filter_cons_of_pos (by simp)]
    cases others.filter (!·.isEmpty) with
    | nil => exact .inl (by simp)
    | cons next others => exact .inr (by simp)

theorem laid_spaced_cons (depth : Nat) {first : Script} (level : Level first)
    (others : List Script) :
    laid depth (spaced (first :: others)) = laid depth first ++ laid depth (spaced others) := by
  rcases spaced_cons first others with same | same
  · rw [same, level.laid_append]
  · rw [same, level.laid_append]
    rfl

theorem Level.spaced {parts : List Script} (level : ∀ part ∈ parts, Level part) :
    Level (spaced parts) := by
  induction parts with
  | nil => exact level_nil
  | cons first others ih =>
    have begun := level first List.mem_cons_self
    have behind := ih fun part member => level part (List.mem_cons_of_mem first member)
    rcases spaced_cons first others with same | same
    · exact same ▸ begun.append behind
    · have blanked : Level (.blank :: Script.spaced others) := behind
      exact same ▸ begun.append blanked

/-- The blank lines between the parts are not among those laid down. -/
theorem laid_spaced (depth : Nat) {parts : List Script} (level : ∀ part ∈ parts, Level part) :
    laid depth (spaced parts) = parts.flatMap (laid depth) := by
  induction parts with
  | nil => rfl
  | cons first others ih =>
    rw [laid_spaced_cons depth (level first List.mem_cons_self), List.flatMap_cons,
      ih fun part member => level part (List.mem_cons_of_mem first member)]

theorem laid_lines (depth : Nat) {texts : List String}
    (plain : ∀ text ∈ texts, Text.Plain text) :
    laid depth (texts.map .line) = texts.map (Writer.indentation depth ++ ·) := by
  induction texts with
  | nil => rfl
  | cons text others ih =>
    have first := Writer.laidLine_plain depth (plain text List.mem_cons_self)
    have behind := ih fun other member => plain other (List.mem_cons_of_mem text member)
    rw [List.map_cons, laid, List.map_cons, ← behind]
    exact congrArg (· ++ laid depth (others.map .line)) first

end Script

end Interpose
