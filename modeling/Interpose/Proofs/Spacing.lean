import Interpose.Proofs.Lines
import Mathlib.Data.List.Chain
import Mathlib.Data.List.TakeWhile

/-!
# Spacing

In whatever order the steps of a script come, its text has no white space at the end of a line and
no blank line beside another, at either end or behind an opening brace, where no step writes a text
of white space only. Such a text is a line of its own, so with it alone the text is spaced badly:
`laidOut_iff`.
-/

namespace Interpose

namespace Text

/-- How lines stand one below the other. -/
structure Spaced (rows : List String) : Prop where
  trimmed : ∀ row ∈ rows, trimEnd row = row
  /-- A blank line stands neither below another nor behind an opening brace. -/
  adjoining : rows.IsChain fun upper lower =>
    lower = "" → upper ≠ "" ∧ upper.toList.getLast? ≠ some '\x7b'
  begins : rows.head? ≠ some ""
  ends : rows.getLast? ≠ some ""

/-- Every line ends in a line break, and the lines are well spaced. -/
def LaidOut (text : String) : Prop := ∃ rows, lines text = rows ++ [""] ∧ Spaced rows

/-- A text is no line at all or has something on it. -/
def Visible (text : String) : Prop := text = "" ∨ allBlank text = false

instance (text : String) : Decidable (Visible text) :=
  inferInstanceAs (Decidable (text = "" ∨ allBlank text = false))

theorem solid_trimEnd {text : String} (filled : allBlank text = false) : solid (trimEnd text) := by
  unfold solid trimEnd
  rw [String.toList_ofList, List.getLast?_reverse]
  cases kept : text.toList.reverse.dropWhile blank with
  | nil =>
    have every := List.dropWhile_eq_nil_iff.mp kept
    have spaced : allBlank text = true :=
      List.all_eq_true.mpr fun c member => every c (List.mem_reverse.mpr member)
    rw [spaced] at filled
    cases filled
  | cons c others =>
    have stops := List.head?_dropWhile_not blank text.toList.reverse
    rw [kept] at stops
    simpa using stops

theorem trimEnd_allBlank {text : String} (spaced : allBlank text) : trimEnd text = "" := by
  have every : text.toList.reverse.dropWhile blank = [] :=
    List.dropWhile_eq_nil_iff.mpr fun c member =>
      List.all_eq_true.mp spaced c (List.mem_reverse.mp member)
  rw [trimEnd, every]
  rfl

theorem trimEnd_row {row : String} (spaced : row = "" ∨ Plain row) : trimEnd row = row := by
  rcases spaced with rfl | plain
  · decide
  · exact trimEnd_solid plain.2

end Text

/-- The texts that a step writes. -/
def Step.texts : Step → List String
  | .line text => [text]
  | .blank => []
  | .enter header => [header]
  | .leave closing => [closing]

namespace Writer

/-- What holds of the lines of a writer, newest first. -/
structure Aired (lines : List String) : Prop where
  rows : ∀ row ∈ lines, row = "" ∨ Text.Plain row
  adjoining : lines.IsChain fun lower upper =>
    lower = "" → upper ≠ "" ∧ upper.toList.getLast? ≠ some '\x7b'
  begins : lines.getLast? ≠ some ""

theorem aired_nil : Aired [] := ⟨by simp, .nil, by simp⟩

theorem Aired.tail {row : String} {lines : List String} (aired : Aired (row :: lines))
    (more : lines ≠ []) : Aired lines := by
  obtain ⟨next, others, rfl⟩ := List.exists_cons_of_ne_nil more
  refine ⟨fun other member => aired.rows other (List.mem_cons_of_mem _ member),
    aired.adjoining.tail, ?_⟩
  have begins := aired.begins
  rwa [List.getLast?_cons_cons] at begins

theorem Aired.push {lines : List String} (aired : Aired lines) {row : String}
    (plain : Text.Plain row) : Aired (row :: lines) := by
  have filled := Text.ne_empty_of_solid plain.2
  refine ⟨List.forall_mem_cons.mpr ⟨.inr plain, aired.rows⟩,
    aired.adjoining.cons fun _ _ empty => absurd empty filled, ?_⟩
  rw [List.getLast?_cons]
  cases oldest : lines.getLast? with
  | none => simpa using filled
  | some other => simpa [oldest] using aired.begins

theorem Aired.blank {writer : Writer} (aired : Aired writer.lines) : Aired writer.blank.lines := by
  obtain ⟨lines, depth⟩ := writer
  unfold Writer.blank
  split
  · rename_i admitted
    cases lines with
    | nil => cases admitted
    | cons last others =>
      have ends : endsBlank (last :: others) = false ∧ last.toList.getLast? ≠ some '\x7b' := by
        simpa [admitsBlank] using admitted
      have filled : last ≠ "" := by
        rintro rfl
        cases others with
        | nil => exact aired.begins rfl
        | cons next others => cases ends.1
      refine ⟨List.forall_mem_cons.mpr ⟨.inl rfl, aired.rows⟩, aired.adjoining.cons ?_, ?_⟩
      · rintro upper ⟨⟩ _
        exact ⟨filled, ends.2⟩
      · rw [List.getLast?_cons_cons]
        exact aired.begins
  · exact aired

/-- A blank line that stood behind a line is gone, and with it the only one at the end. -/
theorem Aired.unblank {lines : List String} (aired : Aired lines) :
    Aired (if endsBlank lines then lines.tail else lines) ∧
      (if endsBlank lines then lines.tail else lines).head? ≠ some "" := by
  unfold endsBlank
  split
  · rename_i upper others
    refine ⟨aired.tail (List.cons_ne_nil _ _), ?_⟩
    intro empty
    exact ((List.isChain_cons_cons.mp aired.adjoining).1 rfl).1 (Option.some.inj empty)
  · rename_i ends
    refine ⟨aired, ?_⟩
    intro empty
    obtain ⟨others, rfl⟩ := List.head?_eq_some_iff.mp empty
    cases others with
    | nil => exact aired.begins rfl
    | cons upper others => exact ends upper others rfl

theorem plain_indented (depth : Nat) {text : String} (plain : Text.Plain text) :
    Text.Plain (indentation depth ++ text) :=
  plain.append (oneLine_indentation depth)

theorem Aired.line {writer : Writer} (aired : Aired writer.lines) {text : String}
    (single : Text.OneLine text) (visible : Text.Visible text) :
    Aired (writer.line text).lines := by
  unfold Writer.line
  split
  · exact aired.blank
  · rename_i filled
    have solid := Text.solid_trimEnd (visible.resolve_left filled)
    exact aired.push (plain_indented _ ⟨Text.oneLine_trimEnd single, solid⟩)

theorem Aired.enter {writer : Writer} (aired : Aired writer.lines) {header : String}
    (single : Text.OneLine header) (visible : Text.Visible header) :
    Aired (writer.enter header).lines := by
  have opened {under : Writer} (aired : Aired under.lines) : Aired (under.line "\x7b").lines :=
    aired.line (by decide) (by decide)
  unfold Writer.enter
  split
  · exact opened aired
  · exact opened (aired.line single visible)

theorem Aired.leave {writer : Writer} (aired : Aired writer.lines) {closing : String}
    (single : Text.OneLine closing) (visible : Text.Visible closing) :
    Aired (writer.leave closing).lines := by
  have under : Aired (Writer.lines ⟨_, writer.depth - 1⟩) := aired.unblank.1
  exact under.line single visible

theorem Aired.step {writer : Writer} (aired : Aired writer.lines) {step : Step}
    (single : ∀ text ∈ step.texts, Text.OneLine text)
    (visible : ∀ text ∈ step.texts, Text.Visible text) : Aired (writer.step step).lines := by
  cases step with
  | line text =>
    exact aired.line (List.forall_mem_singleton.mp single) (List.forall_mem_singleton.mp visible)
  | blank => exact aired.blank
  | enter header =>
    exact aired.enter (List.forall_mem_singleton.mp single) (List.forall_mem_singleton.mp visible)
  | leave closing =>
    exact aired.leave (List.forall_mem_singleton.mp single) (List.forall_mem_singleton.mp visible)

theorem Aired.run {script : Script}
    (single : ∀ step ∈ script, ∀ text ∈ step.texts, Text.OneLine text)
    (visible : ∀ step ∈ script, ∀ text ∈ step.texts, Text.Visible text) {writer : Writer}
    (aired : Aired writer.lines) : Aired (script.foldl Writer.step writer).lines := by
  induction script generalizing writer with
  | nil => exact aired
  | cons next rest ih =>
    obtain ⟨first, single⟩ := List.forall_mem_cons.mp single
    obtain ⟨seen, visible⟩ := List.forall_mem_cons.mp visible
    exact ih single visible (aired.step first seen)

theorem Aired.settled {lines : List String} (aired : Aired lines) :
    Aired (settled lines) ∧ (settled lines).head? ≠ some "" := by
  fun_induction Writer.settled lines with
  | case1 last rest ih => exact ih (aired.tail (List.cons_ne_nil _ _))
  | case2 lines other =>
    refine ⟨aired, fun empty => ?_⟩
    obtain ⟨others, rfl⟩ := List.head?_eq_some_iff.mp empty
    cases others with
    | nil => exact aired.begins rfl
    | cons upper others => exact other upper others rfl

theorem Aired.oneLine {lines : List String} (aired : Aired lines) :
    ∀ row ∈ lines, Text.OneLine row := by
  intro row member
  rcases aired.rows row member with rfl | plain
  · decide
  · exact plain.1

theorem lines_finish {writer : Writer} (aired : Aired (settled writer.lines)) :
    Text.lines writer.finish = (settled writer.lines).reverse ++ [""] := by
  have each : ∀ row ∈ (settled writer.lines).reverse, Text.lines row = [row] := fun row member =>
    Text.lines_oneLine (aired.oneLine row (List.mem_reverse.mp member))
  rw [finish, lines_written, List.flatMap_congr each]
  simp

end Writer

namespace Script

open Writer (Aired)

theorem laidOut_text {script : Script}
    (single : ∀ step ∈ script, ∀ text ∈ step.texts, Text.OneLine text)
    (visible : ∀ step ∈ script, ∀ text ∈ step.texts, Text.Visible text) :
    Text.LaidOut script.text := by
  have ran : Aired (Writer.run script).lines := .run single visible Writer.aired_nil
  obtain ⟨aired, ends⟩ := ran.settled
  refine ⟨_, Writer.lines_finish aired, ?_, ?_, ?_, ?_⟩
  · intro row member
    exact Text.trimEnd_row (aired.rows row (List.mem_reverse.mp member))
  · rw [List.isChain_reverse]
    exact aired.adjoining
  · rw [List.head?_reverse]
    exact aired.begins
  · rw [List.getLast?_reverse]
    exact ends

/-- Written at the beginning, a text of white space only makes a blank first line. -/
theorem text_line_allBlank {text : String} (filled : text ≠ "") (spaced : Text.allBlank text) :
    Script.text [.line text] = "\n" := by
  have written : Writer.run [.line text] = ⟨[""], 0⟩ := by
    show Writer.line .empty text = ⟨[""], 0⟩
    unfold Writer.line
    rw [if_neg filled, Text.trimEnd_allBlank spaced]
    rfl
  rw [Script.text, written]
  rfl

theorem not_laidOut_break : ¬ Text.LaidOut "\n" := by
  rintro ⟨rows, parted, spaced⟩
  have lines : Text.lines "\n" = [""] ++ [""] := by decide
  rw [lines] at parted
  obtain rfl := List.append_cancel_right parted
  exact spaced.begins rfl

/-- All scripts over texts without line breaks are laid out well exactly where none of the texts is
white space only. -/
theorem laidOut_iff {texts : List String} (single : ∀ text ∈ texts, Text.OneLine text) :
    (∀ script : Script, (∀ step ∈ script, step.texts ⊆ texts) → Text.LaidOut script.text) ↔
      ∀ text ∈ texts, text ≠ "" → Text.allBlank text = false := by
  constructor
  · intro laidOut text member filled
    by_contra spaced
    have within : ∀ step ∈ [Step.line text], step.texts ⊆ texts := by
      simpa [Step.texts] using member
    have broken := laidOut [.line text] within
    rw [text_line_allBlank filled (Bool.of_not_eq_false spaced)] at broken
    exact not_laidOut_break broken
  · intro filled script within
    refine laidOut_text (fun step member text written => ?_) (fun step member text written => ?_)
    · exact single text (within step member written)
    · exact Decidable.or_iff_not_imp_left.mpr (filled text (within step member written))

theorem laidOut_class :
    (∀ text ∈ ["class Entry", "", "int count;", "\x7d"], Text.OneLine text) ∧
      (∀ text ∈ ["class Entry", "  "], Text.OneLine text) ∧
      (∀ script : Script, (∀ step ∈ script, step.texts ⊆ ["class Entry", "", "int count;", "\x7d"]) →
        Text.LaidOut script.text) ∧
      ¬ ∀ script : Script, (∀ step ∈ script, step.texts ⊆ ["class Entry", "  "]) →
        Text.LaidOut script.text := by
  have single : ∀ text ∈ ["class Entry", "", "int count;", "\x7d"], Text.OneLine text := by decide
  have spaced : ∀ text ∈ ["class Entry", "  "], Text.OneLine text := by decide
  refine ⟨single, spaced, (laidOut_iff single).mpr (by decide), fun laidOut => ?_⟩
  exact absurd ((laidOut_iff spaced).mp laidOut) (by decide)

/-- Inside a block the line is not even empty. -/
example : text [.enter "class Entry", .line "int count;", .line "  ", .leave "\x7d"] =
    "class Entry\n\x7b\n    int count;\n    \n\x7d\n" := by decide +kernel

end Script

end Interpose
