import Interpose.Proofs.Sections

/-!
# Rows of a script

A script lays down rows of its own, wherever it is carried out. Blank lines are not counted, so the
rows of a script are those of its parts one under the other: `Lays.append`, `Lays.spaced`,
`Lays.block`.
-/

namespace Interpose

open Writer (indentation)

namespace Writer

theorem indentation_add (outer inner : Nat) :
    indentation (outer + inner) = indentation outer ++ indentation inner := by
  apply String.toList_injective
  simp [indentation, Nat.mul_add, List.replicate_append_replicate]

/-- The lines that are not blank, newest first. -/
def filled (writer : Writer) : List String := writer.lines.filter (· ≠ "")

theorem filled_blank (writer : Writer) : writer.blank.filled = writer.filled := by
  unfold blank
  split
  · exact List.filter_cons_of_neg (by simp)
  · rfl

theorem indented_solid_ne_empty (depth : Nat) {text : String} (solid : Text.solid text) :
    indentation depth ++ text ≠ "" :=
  Text.ne_empty_of_solid (Text.solid_append solid)

theorem filled_line (writer : Writer) {text : String} (solid : Text.solid text) :
    (writer.line text).filled = (indentation writer.depth ++ text) :: writer.filled := by
  rw [line_filled writer (Text.ne_empty_of_solid solid), Text.trimEnd_solid solid]
  exact List.filter_cons_of_pos (decide_eq_true (indented_solid_ne_empty writer.depth solid))

theorem filled_leave (writer : Writer) {closing : String} (solid : Text.solid closing) :
    (writer.leave closing).filled =
      (indentation (writer.depth - 1) ++ closing) :: writer.filled := by
  -- A blank line that the closing takes back is not counted anyway.
  have unblanked : (if endsBlank writer.lines then writer.lines.tail else writer.lines).filter
      (· ≠ "") = writer.filled := by
    split
    · rename_i ends
      unfold endsBlank at ends
      split at ends
      · rename_i lines
        rw [filled, lines]
        exact (List.filter_cons_of_neg (by simp)).symm
      · cases ends
    · rfl
  rw [← unblanked]
  exact filled_line ⟨_, _⟩ solid

end Writer

namespace Script

/-- Wherever the script begins, it lays down those rows at the depth at which it begins and ends,
and besides them only blank lines. -/
def Lays (script : Script) (rows : List String) : Prop :=
  ∀ writer : Writer, (script.foldl Writer.step writer).depth = writer.depth ∧
    (script.foldl Writer.step writer).filled =
      (rows.map (indentation writer.depth ++ ·)).reverse ++ writer.filled

theorem lays_nil : Lays [] [] := fun _ => ⟨rfl, rfl⟩

theorem lays_blank : Lays [.blank] [] := fun writer =>
  ⟨Writer.blank_depth writer, Writer.filled_blank writer⟩

theorem lays_line {text : String} (solid : Text.solid text) : Lays [.line text] [text] :=
  fun writer => ⟨Writer.line_depth writer text, Writer.filled_line writer solid⟩

theorem Lays.append {first second : Script} {rows others : List String} (lays : Lays first rows)
    (next : Lays second others) : Lays (first ++ second) (rows ++ others) := by
  intro writer
  obtain ⟨depth, filled⟩ := lays writer
  obtain ⟨nextDepth, nextFilled⟩ := next (first.foldl Writer.step writer)
  rw [depth] at nextDepth nextFilled
  rw [List.foldl_append]
  refine ⟨nextDepth, nextFilled.trans ?_⟩
  rw [filled, List.map_append, List.reverse_append, List.append_assoc]

theorem lays_lines {texts : List String} (solid : ∀ text ∈ texts, Text.solid text) :
    Lays (texts.map .line) texts := by
  induction texts with
  | nil => exact lays_nil
  | cons text texts ih =>
    obtain ⟨first, others⟩ := List.forall_mem_cons.mp solid
    exact (lays_line first).append (ih others)

theorem Lays.braced {body : Script} {rows : List String} (lays : Lays body rows)
    {closing : String} (solid : Text.solid closing) :
    Lays (.enter "" :: body ++ [.leave closing])
      ("\x7b" :: rows.map (indentation 1 ++ ·) ++ [closing]) := by
  intro writer
  obtain ⟨depth, filled⟩ := lays (writer.enter "")
  have opened : (writer.enter "").filled = (indentation writer.depth ++ "\x7b") :: writer.filled :=
    Writer.filled_line writer (by decide)
  have deeper : (writer.enter "").depth = writer.depth + 1 :=
    congrArg (· + 1) (Writer.line_depth writer "\x7b")
  rw [deeper] at depth filled
  have ran : (.enter "" :: body ++ [.leave closing] : Script).foldl Writer.step writer =
      (body.foldl Writer.step (writer.enter "")).leave closing := by
    rw [List.foldl_append]
    rfl
  rw [ran]
  constructor
  · exact (Writer.line_depth _ closing).trans (by rw [depth, Nat.add_sub_cancel])
  · rw [Writer.filled_leave _ solid, filled, depth, opened, Nat.add_sub_cancel,
      Writer.indentation_add]
    simp [Function.comp_def, String.append_assoc]

theorem Lays.block {body : Script} {rows : List String} (lays : Lays body rows) {header : String}
    (solid : Text.solid header) : Lays (Script.block header body)
      (header :: "\x7b" :: rows.map (indentation 1 ++ ·) ++ ["\x7d"]) := by
  have headed (writer : Writer) : writer.enter header = (writer.line header).enter "" := by
    rw [Writer.enter, if_neg (Text.ne_empty_of_solid solid)]
    rfl
  have laid := (lays_line solid).append (lays.braced (show Text.solid "\x7d" by decide))
  intro writer
  have same := laid writer
  rw [List.singleton_append, List.cons_append, List.foldl_cons, List.foldl_cons] at same
  rw [Script.block, List.cons_append, List.foldl_cons, Writer.step, headed]
  exact same

/-- Blank lines between the parts are not counted. -/
theorem Lays.spaced {parts : List Script} {rows : List (List String)}
    (lays : List.Forall₂ Lays parts rows) : Lays (Script.spaced parts) rows.flatten := by
  induction lays with
  | nil => exact lays_nil
  | @cons part first parts rows lays _ ih =>
    rcases spaced_cons part parts with same | same
    · exact same ▸ lays.append ih
    · exact same ▸ lays.append (lays_blank.append ih)

theorem Lays.filter_linesAt {script : Script} {rows : List String} (lays : Lays script rows)
    (depth : Nat) : (linesAt depth script).filter (· ≠ "") = rows.map (indentation depth ++ ·) := by
  have filled := (lays ⟨[], depth⟩).2
  rw [Writer.filled] at filled
  rw [linesAt, List.filter_reverse, filled]
  simp [Writer.filled]

end Script

end Interpose
