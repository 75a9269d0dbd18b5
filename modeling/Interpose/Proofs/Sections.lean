import Interpose.Proofs.MethodLines
import Interpose.Proofs.Openings
import Interpose.Proofs.TidyScripts

/-!
# Sections

What a part of a class lays down does not depend on what stands above it: `Script.Section`. So the
text of a proxy is what stands in front of its methods, the lines of each method's parts and the
closing of its blocks: `ProxyClass.text_sections`.
-/

namespace Interpose

/-! ### Lines below others -/

namespace Writer

/-- A writer with further lines above its own. -/
def below (writer : Writer) (upper : List String) : Writer :=
  ⟨writer.lines ++ upper, writer.depth⟩

theorem endsBlank_cons_cons (row next : String) (others : List String) :
    endsBlank (row :: next :: others) = (row == "") := by
  unfold endsBlank
  split
  · rename_i same
    rw [(List.cons.inj same).1]
    rfl
  · rename_i other
    exact (beq_false_of_ne fun empty => other next others (by rw [empty])).symm

section

variable {last : String} (filled : last ≠ "") (upper : List String)

include filled

/-- Where the first line is not blank, those above it do not decide whether the last one is. -/
theorem endsBlank_append {lines : List String} (bottom : [last] <:+ lines) :
    endsBlank (lines ++ upper) = endsBlank lines := by
  obtain ⟨front, rfl⟩ := bottom
  cases front with
  | nil => simp [endsBlank, filled]
  | cons row front =>
    obtain ⟨next, others, behind⟩ := List.exists_cons_of_ne_nil (List.concat_ne_nil last front)
    rw [List.cons_append, List.cons_append, behind, List.cons_append, endsBlank_cons_cons,
      endsBlank_cons_cons]

theorem admitsBlank_append {lines : List String} (bottom : [last] <:+ lines) :
    admitsBlank (lines ++ upper) = admitsBlank lines := by
  have same := endsBlank_append filled upper bottom
  cases lines with
  | nil => cases List.suffix_nil.mp bottom
  | cons row lines =>
    rw [List.cons_append] at same ⊢
    rw [admitsBlank, admitsBlank, same]

variable {writer : Writer} (bottom : [last] <:+ writer.lines)

include bottom

theorem blank_below : (writer.below upper).blank = writer.blank.below upper := by
  unfold blank
  rw [below, admitsBlank_append filled upper bottom]
  split
  · rfl
  · rfl

theorem line_below (text : String) :
    (writer.below upper).line text = (writer.line text).below upper := by
  unfold line
  split
  · exact blank_below filled upper bottom
  · rfl

theorem step_below (step : Step) :
    (writer.below upper).step step = (writer.step step).below upper := by
  cases step with
  | line text => exact line_below filled upper bottom text
  | blank => exact blank_below filled upper bottom
  | enter header =>
    have headed : (if header = "" then writer.below upper else (writer.below upper).line header) =
        (if header = "" then writer else writer.line header).below upper := by
      split
      · rfl
      · exact line_below filled upper bottom header
    have under : [last] <:+ (if header = "" then writer else writer.line header).lines := by
      split
      · exact bottom
      · exact bottom.trans (suffix_line writer header)
    show (⟨_, _⟩ : Writer) = ⟨_, _⟩
    rw [headed, line_below filled upper under]
    rfl
  | leave closing =>
    have unblanked : (if endsBlank (writer.lines ++ upper) then (writer.lines ++ upper).tail
        else writer.lines ++ upper) =
          (if endsBlank writer.lines then writer.lines.tail else writer.lines) ++ upper := by
      rw [endsBlank_append filled upper bottom]
      split
      · exact List.tail_append_of_ne_nil (List.ne_nil_of_mem (bottom.subset List.mem_cons_self))
      · rfl
    show Writer.line ⟨_, _⟩ closing = _
    have under : [last] <:+ Writer.lines ⟨_, writer.depth - 1⟩ := suffix_unblank filled bottom
    rw [below, unblanked]
    exact line_below filled upper under closing

theorem run_below (script : Script) :
    script.foldl step (writer.below upper) = (script.foldl step writer).below upper := by
  induction script generalizing writer with
  | nil => rfl
  | cons next rest ih =>
    rw [List.foldl_cons, List.foldl_cons, step_below filled upper bottom]
    exact ih (suffix_step filled bottom next)

end

theorem indented_ne_empty (depth : Nat) (text : String) : indentation (depth + 1) ++ text ≠ "" := by
  intro gone
  have letters := congrArg (·.toList.length) (String.append_eq_empty_iff.mp gone).1
  simp [indentation] at letters

/-- What begins with a line inside a block does not depend on the lines above. -/
theorem run_line_cons {text : String} (written : text ≠ "") (rest : Script)
    (upper : List String) (depth : Nat) :
    (.line text :: rest : Script).foldl step ⟨upper, depth + 1⟩ =
      ((.line text :: rest : Script).foldl step ⟨[], depth + 1⟩).below upper := by
  have first (upper : List String) : step ⟨upper, depth + 1⟩ (.line text) =
      below ⟨[indentation (depth + 1) ++ Text.trimEnd text], depth + 1⟩ upper :=
    line_filled ⟨upper, depth + 1⟩ written
  rw [List.foldl_cons, List.foldl_cons, first, first []]
  exact run_below (indented_ne_empty depth _) upper List.suffix_rfl rest

theorem run_enter_cons {header : String} (written : header ≠ "") (rest : Script)
    (upper : List String) (depth : Nat) :
    (.enter header :: rest : Script).foldl step ⟨upper, depth + 1⟩ =
      ((.enter header :: rest : Script).foldl step ⟨[], depth + 1⟩).below upper := by
  have first (upper : List String) : step ⟨upper, depth + 1⟩ (.enter header) =
      below ⟨[indentation (depth + 1) ++ "\x7b",
        indentation (depth + 1) ++ Text.trimEnd header], depth + 2⟩ upper :=
    enter_filled ⟨upper, depth + 1⟩ written
  rw [List.foldl_cons, List.foldl_cons, first, first []]
  exact run_below (indented_ne_empty depth _) upper (List.suffix_cons _ _) rest

end Writer

/-! ### Parts of a class -/

theorem Text.solid_of_ends {texts : List String}
    (ends : ∀ text ∈ texts, text.toList.getLast? = some ';') : ∀ text ∈ texts, solid text := by
  intro text member
  rw [solid, ends text member]
  rfl

namespace Writer

theorem ends_append {tail : String} {c : Char} (ends : tail.toList.getLast? = some c)
    (head : String) : (head ++ tail).toList.getLast? = some c := by
  rw [String.toList_append, List.getLast?_append, ends, Option.some_or]

/-- Behind a line that does not end in an opening brace stands a blank one. -/
theorem admitsBlank_of_ends {row : String} {c : Char} (ends : row.toList.getLast? = some c)
    (unopened : c ≠ '\x7b') (others : List String) : admitsBlank (row :: others) = true := by
  have filled : row ≠ "" := by
    rintro rfl
    cases ends
  have single : endsBlank (row :: others) = false := by
    cases others with
    | nil => simp [endsBlank]
    | cons next others => rw [endsBlank_cons_cons, beq_false_of_ne filled]
  simp [admitsBlank, single, ends, unopened]

end Writer

namespace Script

theorem leave_admitted {lines : List String} (admits : Writer.admitsBlank lines) (depth : Nat) :
    Writer.leave ⟨lines, depth + 1⟩ "\x7d" =
      ⟨(Writer.indentation depth ++ "\x7d") :: lines, depth⟩ := by
  have single : Writer.endsBlank lines = false := by
    cases lines with
    | nil => rfl
    | cons row lines => simp_all [Writer.admitsBlank]
  have plain : Text.Plain "\x7d" := by decide
  have closed := Writer.leave_lines ⟨lines, depth + 1⟩ plain
  have under : (Writer.leave ⟨lines, depth + 1⟩ "\x7d").depth = depth := Writer.line_depth _ _
  rw [single] at closed
  exact congrArg₂ Writer.mk closed under

theorem run_closing {lines : List String} (admits : Writer.admitsBlank lines) :
    ([.leave "\x7d", .leave "\x7d"] : Script).foldl Writer.step ⟨lines, 2⟩ =
      ⟨"\x7d" :: (Writer.indentation 1 ++ "\x7d") :: lines, 0⟩ := by
  have inner : Writer.admitsBlank ((Writer.indentation 1 ++ "\x7d") :: lines) :=
    Writer.admitsBlank_of_ends (Writer.ends_append rfl _) (by decide) lines
  show Writer.leave (Writer.leave ⟨lines, 2⟩ "\x7d") "\x7d" = _
  rw [leave_admitted admits, leave_admitted inner, Writer.indentation_zero, String.empty_append]

/-- The lines that a script lays down where nothing stands above, from the top. -/
def linesAt (depth : Nat) (script : Script) : List String :=
  (script.foldl Writer.step ⟨[], depth⟩).lines.reverse

/-- A part of a class: it lays down the same lines under any others, and a blank line may stand
behind them. -/
structure Section (depth : Nat) (script : Script) : Prop where
  begun : script ≠ []
  run : ∀ upper, script.foldl Writer.step ⟨upper, depth⟩ =
    ⟨(script.linesAt depth).reverse ++ upper, depth⟩
  admits : ∀ upper, Writer.admitsBlank ((script.linesAt depth).reverse ++ upper)

theorem section_block {header : String} (headed : header ≠ "") {body : Script} (level : Level body)
    (depth : Nat) : Section (depth + 1) (block header body) where
  begun := List.cons_ne_nil _ _
  run upper := by
    have ran := Writer.run_enter_cons headed (body ++ [.leave "\x7d"]) upper depth
    have closed : ((block header body).foldl Writer.step ⟨[], depth + 1⟩).depth = depth + 1 :=
      (Writer.run_depth _ _).trans (level_block header level (depth + 1))
    rw [linesAt, List.reverse_reverse]
    exact ran.trans (congrArg (Writer.mk _) closed)
  admits upper := by
    have closing : (block header body).foldl Writer.step ⟨[], depth + 1⟩ =
        ((.enter header :: body : Script).foldl Writer.step ⟨[], depth + 1⟩).leave "\x7d" := by
      rw [block, List.foldl_append]
      rfl
    rw [linesAt, List.reverse_reverse, closing, Writer.leave_lines _ (by decide), List.cons_append]
    exact Writer.admitsBlank_of_ends (Writer.ends_append rfl _) (by decide) _

section

variable {texts : List String} (ends : ∀ text ∈ texts, text.toList.getLast? = some ';')

include ends

theorem linesAt_lines (depth : Nat) :
    linesAt depth (texts.map .line) = texts.map (Writer.indentation depth ++ ·) := by
  rw [linesAt, Writer.run_solid (Text.solid_of_ends ends), List.append_nil, List.reverse_reverse]

theorem section_lines (filled : texts ≠ []) (depth : Nat) : Section depth (texts.map .line) := by
  refine ⟨by simpa using filled, fun upper => ?_, fun upper => ?_⟩
  · rw [linesAt_lines ends, Writer.run_solid (Text.solid_of_ends ends)]
  · obtain ⟨above, last, rfl⟩ := (List.eq_nil_or_concat' texts).resolve_left filled
    rw [linesAt_lines ends, List.map_append, List.reverse_append]
    exact Writer.admitsBlank_of_ends
      (Writer.ends_append (ends last (by simp)) _) (by decide) _

theorem run_lines_leave (filled : texts ≠ []) (depth : Nat) (upper : List String) :
    (texts.map .line ++ [.leave "\x7d"] : Script).foldl Writer.step ⟨upper, depth + 1⟩ =
      ⟨(texts.map (Writer.indentation (depth + 1) ++ ·) ++
        [Writer.indentation depth ++ "\x7d"]).reverse ++ upper, depth⟩ := by
  have body := section_lines ends filled (depth + 1)
  rw [List.foldl_append, body.run]
  show Writer.leave _ "\x7d" = _
  rw [leave_admitted (body.admits upper), linesAt_lines ends, List.reverse_append]
  rfl

theorem linesAt_block (filled : texts ≠ []) {header : String} (headed : Text.solid header)
    (depth : Nat) : linesAt (depth + 1) (block header (texts.map .line)) =
      [Writer.indentation (depth + 1) ++ header, Writer.indentation (depth + 1) ++ "\x7b"] ++
        texts.map (Writer.indentation (depth + 2) ++ ·) ++
          [Writer.indentation (depth + 1) ++ "\x7d"] := by
  rw [linesAt, block, List.cons_append, List.foldl_cons, Writer.step,
    Writer.enter_filled _ (Text.ne_empty_of_solid headed), Text.trimEnd_solid headed,
    run_lines_leave ends filled]
  simp

end

/-- Between parts, none of them empty, stand blank lines. -/
theorem spaced_eq_flatMap {first : Script} {others : List Script} (begun : first ≠ [])
    (goes : ∀ part ∈ others, part ≠ []) :
    spaced (first :: others) = first ++ others.flatMap (.blank :: ·) := by
  induction others generalizing first with
  | nil => simp [spaced, begun]
  | cons next others ih =>
    obtain ⟨following, goes⟩ := List.forall_mem_cons.mp goes
    rw [spaced_apart begun following, ih following goes, List.flatMap_cons, List.cons_append]

theorem run_sections {depth : Nat} {parts : List Script}
    (sections : ∀ part ∈ parts, Section depth part) {upper : List String}
    (admits : Writer.admitsBlank upper) :
    (parts.flatMap (.blank :: ·)).foldl Writer.step ⟨upper, depth⟩ =
        ⟨(parts.flatMap ("" :: ·.linesAt depth)).reverse ++ upper, depth⟩ ∧
      Writer.admitsBlank ((parts.flatMap ("" :: ·.linesAt depth)).reverse ++ upper) := by
  induction parts generalizing upper with
  | nil => exact ⟨rfl, admits⟩
  | cons part parts ih =>
    obtain ⟨first, sections⟩ := List.forall_mem_cons.mp sections
    have blanked : Writer.step ⟨upper, depth⟩ .blank = ⟨"" :: upper, depth⟩ := if_pos admits
    obtain ⟨ran, still⟩ := ih sections (first.admits ("" :: upper))
    have above : (parts.flatMap ("" :: ·.linesAt depth)).reverse ++
        ((part.linesAt depth).reverse ++ "" :: upper) =
          ((part :: parts).flatMap ("" :: ·.linesAt depth)).reverse ++ upper := by
      simp
    rw [above] at ran still
    refine ⟨?_, still⟩
    rw [List.flatMap_cons, List.foldl_append, List.foldl_cons, blanked, first.run]
    exact ran

end Script

namespace Proxy

open Writer (indentation)
open Script (Section Level)

theorem PropertyImpl.section_script (property : PropertyImpl) : Section 2 property.script := by
  refine Script.section_block ?_ ?_ 1
  · intro gone
    have dot := (String.append_eq_empty_iff.mp (String.append_eq_empty_iff.mp gone).1).2
    exact absurd dot (by decide)
  · exact Script.level_flatMap fun accessor _ =>
      Script.level_block _ (Stmt.level_script accessor.2)

theorem MethodImpl.section_scripts (method : MethodImpl) :
    ∀ part ∈ method.scripts, Section 2 part := by
  intro part member
  rcases List.mem_append.mp member with early | late
  · obtain ⟨context, _, rfl⟩ := Option.map_eq_some_iff.mp (Option.mem_toList.mp early)
    have lines := Script.level_lines
      (context.fields.map fun field => "public " ++ field.1 ++ " " ++ field.2 ++ ";")
    rw [List.map_map] at lines
    refine Script.section_block ?_ lines 1
    intro gone
    have word := (String.append_eq_empty_iff.mp (String.append_eq_empty_iff.mp gone).1).1
    exact absurd word (by decide)
  · rw [List.mem_singleton.mp late]
    refine Script.section_block ?_ method.body.level 1
    intro gone
    exact absurd (String.append_eq_empty_iff.mp gone).2 (by decide)

namespace ProxyClass

/-- What stands in front of the methods. -/
def front (proxy : ProxyClass) : Script :=
  Artifact.declaring proxy.scope proxy.name proxy.contract ++
    Script.spaced (proxy.fieldLines :: proxy.constructor :: proxy.properties.map (·.script))

theorem section_fieldLines {proxy : ProxyClass} (fielded : proxy.fields ≠ []) :
    Section 2 proxy.fieldLines := by
  rw [Declaration.fieldLines_eq]
  refine Script.section_lines (fun text member => ?_) (by simpa using fielded) 2
  obtain ⟨f, _, rfl⟩ := List.mem_map.mp member
  exact Writer.ends_append rfl _

theorem section_constructor (proxy : ProxyClass) : Section 2 proxy.constructor :=
  Script.section_block (fun gone => absurd (String.append_eq_empty_iff.mp gone).2 (by decide))
    (Stmt.level_script _) 1

theorem run_front {proxy : ProxyClass} (fielded : proxy.fields ≠ []) :
    Writer.run proxy.front = ⟨(proxy.front.linesAt 0).reverse, 2⟩ ∧
      Writer.admitsBlank (proxy.front.linesAt 0).reverse := by
  let behind := proxy.constructor :: proxy.properties.map (·.script)
  have sections : ∀ part ∈ behind, Section 2 part := by
    refine List.forall_mem_cons.mpr ⟨section_constructor proxy, fun part member => ?_⟩
    obtain ⟨property, _, rfl⟩ := List.mem_map.mp member
    exact property.section_script
  have fields := section_fieldLines fielded
  let declaring := Artifact.declaring proxy.scope proxy.name proxy.contract
  have depth : (Writer.run declaring).depth = 2 := Writer.run_depth .empty declaring
  have declared : Writer.run declaring = ⟨(Writer.run declaring).lines, 2⟩ :=
    congrArg (Writer.mk _) depth
  obtain ⟨ran, admits⟩ := Script.run_sections sections (fields.admits (Writer.run declaring).lines)
  have whole : Writer.run proxy.front = ⟨(behind.flatMap ("" :: ·.linesAt 2)).reverse ++
      ((proxy.fieldLines.linesAt 2).reverse ++ (Writer.run declaring).lines), 2⟩ := by
    have begun : ∀ part ∈ behind, part ≠ [] := fun part member => (sections part member).begun
    rw [front, Script.spaced_eq_flatMap fields.begun begun, Writer.run, List.foldl_append,
      List.foldl_append, ← Writer.run, declared, fields.run]
    exact ran
  have lines : (proxy.front.linesAt 0).reverse = (Writer.run proxy.front).lines :=
    List.reverse_reverse _
  rw [lines, whole]
  exact ⟨rfl, admits⟩

section

variable {proxy : ProxyClass} (fielded : proxy.fields ≠ [])

include fielded

theorem steps_eq : Artifact.heading.map Step.line ++ .blank ::
    Script.block ("namespace " ++ proxy.scope) proxy.script =
      proxy.front ++ (proxy.methods.flatMap (·.scripts)).flatMap (.blank :: ·) ++
        [.leave "\x7d", .leave "\x7d"] := by
  have begun := (section_fieldLines fielded).begun
  have early : ∀ part ∈ proxy.constructor :: proxy.properties.map (·.script), part ≠ [] := by
    refine List.forall_mem_cons.mpr ⟨(section_constructor proxy).begun, fun part member => ?_⟩
    obtain ⟨property, _, rfl⟩ := List.mem_map.mp member
    exact property.section_script.begun
  have late : ∀ part ∈ proxy.methods.flatMap (·.scripts), part ≠ [] := by
    intro part member
    obtain ⟨method, _, within⟩ := List.mem_flatMap.mp member
    exact (method.section_scripts part within).begun
  rw [front, Script.spaced_eq_flatMap begun early, script, List.cons_append,
    Script.spaced_eq_flatMap begun (List.forall_mem_append.mpr ⟨early, late⟩), List.flatMap_append]
  simp only [Script.block, Artifact.declaring, List.append_assoc, List.cons_append, List.nil_append]

/-- The text of a proxy is its front, its methods and the closing of its blocks. -/
theorem text_sections (name : String) :
    (Artifact.ofScope name proxy.scope proxy.script).text =
      Text.ofLines (proxy.front.linesAt 0 ++
        (proxy.methods.flatMap (·.scripts)).flatMap ("" :: ·.linesAt 2) ++
        [indentation 1 ++ "\x7d", "\x7d"]) := by
  have sections : ∀ part ∈ proxy.methods.flatMap (·.scripts), Section 2 part := by
    intro part member
    obtain ⟨method, _, within⟩ := List.mem_flatMap.mp member
    exact method.section_scripts part within
  obtain ⟨front, admits⟩ := run_front fielded
  obtain ⟨ran, still⟩ := Script.run_sections sections admits
  have whole : Writer.run (proxy.front ++
      (proxy.methods.flatMap (·.scripts)).flatMap (.blank :: ·) ++
        [.leave "\x7d", .leave "\x7d"]) =
      ⟨"\x7d" :: (indentation 1 ++ "\x7d") ::
        (((proxy.methods.flatMap (·.scripts)).flatMap ("" :: ·.linesAt 2)).reverse ++
          (proxy.front.linesAt 0).reverse), 0⟩ := by
    rw [Writer.run, List.foldl_append, List.foldl_append, ← Writer.run, front, ran,
      Script.run_closing still]
  show Writer.finish (Writer.run (Artifact.heading.map Step.line ++ _)) = _
  rw [steps_eq fielded, whole, Writer.finish, Script.settled_of_filled (by decide)]
  simp [Text.ofLines]

end

end ProxyClass

end Proxy

end Interpose
