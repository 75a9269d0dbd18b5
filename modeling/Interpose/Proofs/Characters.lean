import Interpose.Proofs.Lines
import Mathlib.Data.List.TakeWhile

/-!
# Characters

Layout adds and removes white space only: any other characters of a text are those of the steps of
its script, in the same order: `filter_text`.
-/

namespace Interpose

def Step.characters : Step → List Char
  | .line text => text.toList
  | .blank => []
  | .enter header => header.toList ++ ['\x7b']
  | .leave closing => closing.toList

def Script.characters (script : Script) : List Char := script.flatMap Step.characters

theorem Script.characters_cons (step : Step) (rest : Script) :
    characters (step :: rest) = step.characters ++ characters rest := List.flatMap_cons

theorem Script.characters_append (first second : Script) :
    characters (first ++ second) = characters first ++ characters second := List.flatMap_append

namespace Writer

def characters (writer : Writer) : List Char := writer.lines.reverse.flatMap String.toList

variable {keep : Char → Bool}

theorem filter_push (lines : List String) (row : String) (depth : Nat) :
    (characters ⟨row :: lines, depth⟩).filter keep =
      (characters ⟨lines, depth⟩).filter keep ++ row.toList.filter keep := by
  simp [characters]

theorem filter_push_empty (lines : List String) (depth : Nat) :
    (characters ⟨"" :: lines, depth⟩).filter keep = (characters ⟨lines, depth⟩).filter keep := by
  rw [filter_push, String.toList_empty, List.filter_nil, List.append_nil]

theorem filter_blank (writer : Writer) :
    writer.blank.characters.filter keep = writer.characters.filter keep := by
  unfold blank
  split
  · exact filter_push_empty writer.lines writer.depth
  · rfl

theorem filter_unblank (lines : List String) (depth other : Nat) :
    (characters ⟨if endsBlank lines then lines.tail else lines, depth⟩).filter keep =
      (characters ⟨lines, other⟩).filter keep := by
  unfold endsBlank
  split
  · rename_i next others
    exact (filter_push_empty (next :: others) other).symm
  · rfl

theorem filter_settled (lines : List String) (depth : Nat) :
    (characters ⟨settled lines, depth⟩).filter keep = (characters ⟨lines, depth⟩).filter keep := by
  fun_induction settled lines with
  | case1 last rest ih => rw [ih, filter_push_empty]
  | case2 lines other => rfl

end Writer

section

variable {keep : Char → Bool} (inked : ∀ c, keep c → Text.blank c = false)

include inked

theorem Text.filter_eq_nil {letters : List Char} (spaced : ∀ c ∈ letters, blank c) :
    letters.filter keep = [] := by
  rw [List.filter_eq_nil_iff]
  intro c member kept
  exact Bool.noConfusion ((spaced c member).symm.trans (inked c kept))

theorem Text.filter_trimEnd (text : String) :
    (trimEnd text).toList.filter keep = text.toList.filter keep := by
  have gone : (text.toList.reverse.takeWhile blank).filter keep = [] :=
    filter_eq_nil inked fun c member => List.mem_takeWhile_imp member
  have parts := congrArg (List.filter keep)
    (List.takeWhile_append_dropWhile (p := blank) (l := text.toList.reverse))
  rw [List.filter_append, gone, List.nil_append] at parts
  rw [trimEnd, String.toList_ofList, List.filter_reverse, parts, List.filter_reverse,
    List.reverse_reverse]

namespace Writer

theorem filter_line (writer : Writer) (text : String) : (writer.line text).characters.filter keep =
    writer.characters.filter keep ++ text.toList.filter keep := by
  unfold line
  split
  · rename_i empty
    rw [filter_blank, empty, String.toList_empty, List.filter_nil, List.append_nil]
  · have spaces : (indentation writer.depth).toList.filter keep = [] := by
      apply Text.filter_eq_nil inked
      intro c member
      rw [eq_of_mem_indentation member]
      rfl
    rw [filter_push, String.toList_append, List.filter_append, spaces, List.nil_append,
      Text.filter_trimEnd inked]

theorem filter_step (writer : Writer) (step : Step) :
    (writer.step step).characters.filter keep =
      writer.characters.filter keep ++ step.characters.filter keep := by
  cases step with
  | line text => exact filter_line inked writer text
  | blank =>
    rw [Step.characters, List.filter_nil, List.append_nil]
    exact filter_blank writer
  | enter header =>
    show (Writer.line _ "\x7b").characters.filter keep = _
    rw [filter_line inked, Step.characters, List.filter_append, ← List.append_assoc]
    split
    · rename_i empty
      rw [empty, String.toList_empty, List.filter_nil, List.append_nil]
      rfl
    · rw [filter_line inked]
      rfl
  | leave closing =>
    show (Writer.line _ closing).characters.filter keep = _
    rw [filter_line inked, filter_unblank writer.lines _ writer.depth]
    rfl

theorem filter_run (writer : Writer) (script : Script) :
    (script.foldl step writer).characters.filter keep =
      writer.characters.filter keep ++ script.characters.filter keep := by
  induction script generalizing writer with
  | nil => exact (List.append_nil _).symm
  | cons next rest ih =>
    rw [List.foldl_cons, ih, filter_step inked, List.append_assoc, Script.characters_cons,
      List.filter_append]

theorem filter_finish (writer : Writer) :
    writer.finish.toList.filter keep = writer.characters.filter keep := by
  have breaks : ['\n'].filter keep = [] := Text.filter_eq_nil inked (List.forall_mem_singleton.mpr rfl)
  have rows : (writer.finish.toList).filter keep =
      (characters ⟨settled writer.lines, writer.depth⟩).filter keep := by
    rw [finish, toList_written, String.toList_empty, List.nil_append, characters,
      List.filter_flatMap, List.filter_flatMap]
    simp only [List.filter_append, breaks, List.append_nil]
  exact rows.trans (filter_settled writer.lines writer.depth)

end Writer

/-- What is no white space in a text, layout leaves alone. -/
theorem Script.filter_text (script : Script) :
    script.text.toList.filter keep = script.characters.filter keep := by
  rw [text, Writer.filter_finish inked, Writer.run, Writer.filter_run inked]
  rfl

end

end Interpose
