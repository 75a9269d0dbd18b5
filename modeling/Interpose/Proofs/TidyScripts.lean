import Interpose.Proofs.Characters
import Interpose.Proofs.Spacing

/-!
# Tidy scripts

In a tidy script every block is closed, no text holds a brace or a line break, and something is on
each line. What a tidy script lays out as the only namespace of an artifact is well formed:
`wellFormed_ofScope`.
-/

namespace Interpose

namespace Text

/-! ### Braces -/

def isBrace (c : Char) : Bool := c == '\x7b' || c == '\x7d'

/-- Every brace is closed, and none is closed before it was opened. -/
structure Nested (letters : List Char) : Prop where
  balanced : letters.count '\x7b' = letters.count '\x7d'
  opened : ∀ n, (letters.take n).count '\x7d' ≤ (letters.take n).count '\x7b'

theorem nested_nil : Nested [] := ⟨rfl, fun n => by simp⟩

theorem Nested.append {first second : List Char} (nested : Nested first) (other : Nested second) :
    Nested (first ++ second) := by
  constructor
  · rw [List.count_append, List.count_append, nested.balanced, other.balanced]
  · intro n
    rw [List.take_append, List.count_append, List.count_append]
    exact Nat.add_le_add (nested.opened n) (other.opened _)

theorem Nested.enclose {letters : List Char} (nested : Nested letters) :
    Nested ('\x7b' :: letters ++ ['\x7d']) := by
  have same := nested.balanced
  constructor
  · simp [same]
  · intro n
    cases n with
    | zero => exact Nat.zero_le _
    | succ n =>
      have inner := nested.opened n
      have closing : ((['\x7d'] : List Char).take (n - letters.length)).count '\x7d' ≤ 1 :=
        List.count_le_length.trans (List.length_take_le' _ _)
      rw [List.cons_append, List.take_succ_cons, List.take_append,
        List.count_cons_of_ne (by decide), List.count_cons_self, List.count_append,
        List.count_append]
      omega

/-- Only braces count. -/
theorem nested_of_filter {letters : List Char} (nested : Nested (letters.filter isBrace)) :
    Nested letters := by
  have opening (cs : List Char) : (cs.filter isBrace).count '\x7b' = cs.count '\x7b' :=
    List.count_filter rfl
  have closing (cs : List Char) : (cs.filter isBrace).count '\x7d' = cs.count '\x7d' :=
    List.count_filter rfl
  constructor
  · rw [← opening, ← closing]
    exact nested.balanced
  · intro n
    have part := (List.take_prefix n letters).filter isBrace
    rw [← opening, ← closing, List.prefix_iff_eq_take.mp part]
    exact nested.opened _

theorem blank_of_isBrace (c : Char) (brace : isBrace c) : blank c = false := by
  simp only [isBrace, Bool.or_eq_true, beq_iff_eq] at brace
  rcases brace with rfl | rfl
  · decide
  · decide

/-! ### Lines that stand below one another -/

/-- No two blank lines, none behind an opening and none in front of a closing. -/
structure Adjoins (upper lower : String) : Prop where
  single : upper = "" → lower ≠ ""
  opened : lower = "" → upper.toList.getLast? ≠ some '\x7b'
  closed : upper = "" → (lower.toList.dropWhile blank).head? ≠ some '\x7d'

/-- The lines that end in a line break. -/
def rows (text : String) : List String := (lines text).dropLast

structure WellFormed (text : String) : Prop where
  nested : Nested text.toList
  /-- The text ends in one line break, behind a closing brace without indentation. -/
  ending : ∃ above, lines text = above ++ ["\x7d", ""]
  trimmed : ∀ row ∈ rows text, trimEnd row = row
  adjoining : (rows text).IsChain Adjoins

/-! ### Texts of lines -/

/-- A text without braces and line breaks. -/
def Clean (text : String) : Prop := ∀ c ∈ text.toList, isBrace c = false ∧ c ≠ '\n'

instance (text : String) : Decidable (Clean text) := List.decidableBAll _ text.toList

@[simp] theorem clean_append {first second : String} :
    Clean (first ++ second) ↔ Clean first ∧ Clean second := by
  unfold Clean
  rw [String.toList_append, List.forall_mem_append]

theorem Clean.filter_isBrace {text : String} (clean : Clean text) :
    text.toList.filter isBrace = [] := by
  rw [List.filter_eq_nil_iff]
  intro c member
  simp [(clean c member).1]

theorem Clean.oneLine {text : String} (clean : Clean text) : OneLine text := fun member =>
  (clean _ member).2 rfl

/-- A clean text with something on its line. -/
def Written (text : String) : Prop := Clean text ∧ allBlank text = false

instance (text : String) : Decidable (Written text) :=
  inferInstanceAs (Decidable (Clean text ∧ allBlank text = false))

theorem allBlank_append (first second : String) :
    allBlank (first ++ second) = (allBlank first && allBlank second) := by
  rw [allBlank, String.toList_append, List.all_append]
  rfl

theorem Written.before {head tail : String} (written : Written head) (clean : Clean tail) :
    Written (head ++ tail) :=
  ⟨clean_append.mpr ⟨written.1, clean⟩, by rw [allBlank_append, written.2, Bool.false_and]⟩

theorem Written.behind {head tail : String} (written : Written tail) (clean : Clean head) :
    Written (head ++ tail) :=
  ⟨clean_append.mpr ⟨clean, written.1⟩, by rw [allBlank_append, written.2, Bool.and_false]⟩

/-- What closes a block: one closing brace and what belongs to it. -/
def Closing (text : String) : Prop := text.toList.filter isBrace = ['\x7d'] ∧ Plain text

instance (text : String) : Decidable (Closing text) :=
  inferInstanceAs (Decidable (text.toList.filter isBrace = ['\x7d'] ∧ Plain text))

end Text

namespace Script

inductive Tidy : Script → Prop
  | nil : Tidy []
  | line {text : String} {rest : Script} (written : Text.Written text) (tidy : Tidy rest) :
      Tidy (.line text :: rest)
  | blank {rest : Script} (tidy : Tidy rest) : Tidy (.blank :: rest)
  | block {header closing : String} {body rest : Script}
      (headed : header = "" ∨ Text.Written header) (inner : Tidy body)
      (closed : Text.Closing closing) (tidy : Tidy rest) :
      Tidy (.enter header :: (body ++ .leave closing :: rest))

theorem Tidy.append {first second : Script} (tidy : Tidy first) (other : Tidy second) :
    Tidy (first ++ second) := by
  induction tidy with
  | nil => exact other
  | line written _ ih => exact .line written ih
  | blank _ ih => exact .blank ih
  | block headed inner closed _ _ ih =>
    rw [List.cons_append, List.append_assoc, List.cons_append]
    exact .block headed inner closed ih

theorem tidy_lines {texts : List String} (written : ∀ text ∈ texts, Text.Written text) :
    Tidy (texts.map .line) := by
  induction texts with
  | nil => exact .nil
  | cons text others ih =>
    exact .line (written text List.mem_cons_self)
      (ih fun other member => written other (List.mem_cons_of_mem text member))

theorem tidy_flatMap {α : Type} {items : List α} {script : α → Script}
    (tidy : ∀ item ∈ items, Tidy (script item)) : Tidy (items.flatMap script) := by
  induction items with
  | nil => exact .nil
  | cons item others ih =>
    exact (tidy item List.mem_cons_self).append
      (ih fun other member => tidy other (List.mem_cons_of_mem item member))

theorem tidy_block {header : String} {body : Script} (headed : header = "" ∨ Text.Written header)
    (inner : Tidy body) : Tidy (block header body) :=
  .block headed inner (by decide) .nil

theorem tidy_spaced {parts : List Script} (tidy : ∀ part ∈ parts, Tidy part) :
    Tidy (spaced parts) := by
  induction parts with
  | nil => exact .nil
  | cons first others ih =>
    have begun := tidy first List.mem_cons_self
    have behind := ih fun part member => tidy part (List.mem_cons_of_mem first member)
    rcases spaced_cons first others with same | same
    · exact same ▸ begun.append behind
    · exact same ▸ begun.append (.blank behind)

theorem Tidy.level {script : Script} (tidy : Tidy script) : Level script := by
  induction tidy with
  | nil => exact level_nil
  | line _ _ ih => exact ih
  | blank _ ih => exact ih
  | block _ _ _ _ inner ih =>
    intro depth
    show (_ ++ _ :: _ : Script).foldl Step.deepen (depth + 1) = depth
    rw [List.foldl_append, inner, List.foldl_cons]
    exact ih depth

theorem Tidy.nested {script : Script} (tidy : Tidy script) :
    Text.Nested (script.characters.filter Text.isBrace) := by
  induction tidy with
  | nil => exact Text.nested_nil
  | line written _ ih =>
    rw [characters_cons, Step.characters, List.filter_append, written.1.filter_isBrace]
    exact ih
  | blank _ ih => exact ih
  | @block header closing body rest headed _ closed _ inner ih =>
    have heading : header.toList.filter Text.isBrace = [] := by
      rcases headed with rfl | written
      · rfl
      · exact written.1.filter_isBrace
    have opening : ['\x7b'].filter Text.isBrace = ['\x7b'] := rfl
    simp only [characters_cons, characters_append, Step.characters, List.filter_append, heading,
      opening, closed.1, List.nil_append]
    rw [← List.append_assoc, ← List.append_assoc]
    exact inner.enclose.append ih

end Script

/-! ### Neat lines -/

namespace Writer

open Text (Written Closing Adjoins)

/-- What holds of the lines of a writer, newest first. -/
structure Neat (lines : List String) : Prop where
  rows : ∀ row ∈ lines, row = "" ∨ Text.Plain row
  adjoining : lines.IsChain fun lower upper => Adjoins upper lower
  begins : lines.getLast? ≠ some ""

theorem neat_nil : Neat [] := ⟨by simp, .nil, by simp⟩

theorem Neat.aired {lines : List String} (neat : Neat lines) : Aired lines where
  rows := neat.rows
  adjoining := neat.adjoining.imp fun _ _ adjoins empty =>
    ⟨fun above => adjoins.single above empty, adjoins.opened empty⟩
  begins := neat.begins

theorem Neat.push {lines : List String} (neat : Neat lines) {row : String}
    (plain : Text.Plain row) (closed : lines.head? = some "" →
      (row.toList.dropWhile Text.blank).head? ≠ some '}') : Neat (row :: lines) := by
  have filled := Text.ne_empty_of_solid plain.2
  have aired := neat.aired.push plain
  refine ⟨aired.rows, neat.adjoining.cons ?_, aired.begins⟩
  intro upper last
  exact ⟨fun _ => filled, fun empty => absurd empty filled,
    fun empty => closed (last.trans (congrArg some empty))⟩

theorem Neat.blank {writer : Writer} (neat : Neat writer.lines) : Neat writer.blank.lines := by
  have aired := neat.aired.blank
  unfold Writer.blank at aired ⊢
  split
  · rename_i admitted
    rw [if_pos admitted] at aired
    refine ⟨aired.rows, neat.adjoining.cons ?_, aired.begins⟩
    intro upper last
    obtain ⟨filled, unopened⟩ := (List.isChain_cons.mp aired.adjoining).1 upper last rfl
    exact ⟨fun empty => absurd empty filled, fun _ => unopened, fun empty => absurd empty filled⟩
  · exact neat

theorem Neat.unblank {lines : List String} (neat : Neat lines) :
    Neat (if endsBlank lines then lines.tail else lines) ∧
      (if endsBlank lines then lines.tail else lines).head? ≠ some "" := by
  obtain ⟨aired, ends⟩ := neat.aired.unblank
  refine ⟨⟨aired.rows, ?_, aired.begins⟩, ends⟩
  split
  · exact neat.adjoining.tail
  · exact neat.adjoining

theorem Neat.line {writer : Writer} (neat : Neat writer.lines) {text : String}
    (written : Written text) : Neat (writer.line text).lines := by
  have solid := Text.solid_trimEnd written.2
  have filled : text ≠ "" := by
    rintro rfl
    exact absurd written.2 (by decide)
  unfold Writer.line
  rw [if_neg filled]
  refine neat.push (plain_indented _ ⟨Text.oneLine_trimEnd written.1.oneLine, solid⟩) ?_
  -- A text without braces closes nothing.
  intro _ closes
  have member := (List.dropWhile_sublist _).subset (List.mem_of_head? closes)
  rw [String.toList_append, List.mem_append] at member
  rcases member with member | member
  · exact absurd (eq_of_mem_indentation member) (by decide)
  · exact absurd (written.1 _ (Text.mem_of_mem_trimEnd member)).1 (by decide)

theorem line_plain (writer : Writer) {text : String} (plain : Text.Plain text) :
    (writer.line text).lines = (indentation writer.depth ++ text) :: writer.lines := by
  unfold Writer.line
  rw [if_neg (Text.ne_empty_of_solid plain.2), Text.trimEnd_solid plain.2]

theorem Neat.enter {writer : Writer} (neat : Neat writer.lines) {header : String}
    (headed : header = "" ∨ Written header) : Neat (writer.enter header).lines := by
  have opens (depth : Nat) :
      ((indentation depth ++ "\x7b").toList.dropWhile Text.blank).head? ≠ some '\x7d' := by
    have spaces : ∀ c ∈ (indentation depth).toList, Text.blank c = true := by
      intro c member
      rw [eq_of_mem_indentation member]
      rfl
    rw [String.toList_append, List.dropWhile_append_of_pos spaces]
    decide
  have push {under : Writer} (neat : Neat under.lines) : Neat (under.line "\x7b").lines := by
    rw [line_plain under (by decide)]
    exact neat.push (plain_indented _ (by decide)) fun _ => opens _
  unfold Writer.enter
  rcases headed with rfl | written
  · rw [if_pos rfl]
    exact push neat
  · split
    · exact push neat
    · exact push (neat.line written)

theorem leave_lines (writer : Writer) {closing : String} (plain : Text.Plain closing) :
    (writer.leave closing).lines = (indentation (writer.depth - 1) ++ closing) ::
      if endsBlank writer.lines then writer.lines.tail else writer.lines :=
  line_plain _ plain

theorem Neat.leave {writer : Writer} (neat : Neat writer.lines) {closing : String}
    (closed : Closing closing) : Neat (writer.leave closing).lines := by
  obtain ⟨unblanked, filled⟩ := neat.unblank
  rw [leave_lines writer closed.2]
  exact unblanked.push (plain_indented _ closed.2) fun empty => absurd empty filled

theorem Neat.run {script : Script} (tidy : script.Tidy) {writer : Writer}
    (neat : Neat writer.lines) : Neat (script.foldl step writer).lines := by
  induction tidy generalizing writer with
  | nil => exact neat
  | line written _ ih => exact ih (neat.line written)
  | blank _ ih => exact ih neat.blank
  | block headed _ closed _ within ih =>
    rw [List.foldl_cons, List.foldl_append, List.foldl_cons]
    exact ih ((within (neat.enter headed)).leave closed)

theorem run_depth (writer : Writer) (script : Script) :
    (script.foldl step writer).depth = script.foldl Step.deepen writer.depth := by
  induction script generalizing writer with
  | nil => rfl
  | cons next rest ih => rw [List.foldl_cons, ih, (step_laid writer next).2, List.foldl_cons]

end Writer

namespace Script

open Writer (Neat)

theorem settled_of_filled {last : String} (filled : last ≠ "") (others : List String) :
    Writer.settled (last :: others) = last :: others := by
  unfold Writer.settled
  split
  · rename_i same
    exact absurd (List.cons.inj same).1 filled
  · rfl

/-- What begins and ends in a block of the outermost depth is laid out well. -/
theorem wellFormed_text {above : Script} (tidy : Tidy (above ++ [.leave "\x7d"]))
    (inside : above.foldl Step.deepen 0 = 1) :
    Text.WellFormed (Script.text (above ++ [.leave "\x7d"])) := by
  have neat : Neat (Writer.run (above ++ [.leave "\x7d"])).lines := Writer.neat_nil.run tidy
  obtain ⟨others, lines_eq⟩ :
      ∃ others, (Writer.run (above ++ [.leave "\x7d"])).lines = "\x7d" :: others := by
    have ran : Writer.run (above ++ [.leave "\x7d"]) = (Writer.run above).leave "\x7d" := by
      unfold Writer.run
      rw [List.foldl_append]
      rfl
    have depth : (Writer.run above).depth = 1 := (Writer.run_depth .empty above).trans inside
    rw [ran, Writer.leave_lines _ (by decide), depth]
    exact ⟨_, rfl⟩
  have kept : Writer.settled (Writer.run (above ++ [.leave "\x7d"])).lines =
      (Writer.run (above ++ [.leave "\x7d"])).lines := by
    rw [lines_eq, settled_of_filled (by decide)]
  have written := Writer.lines_finish (neat.aired.settled).1
  rw [kept] at written
  have rows : Text.rows (Script.text (above ++ [.leave "\x7d"])) =
      (Writer.run (above ++ [.leave "\x7d"])).lines.reverse := by
    rw [Text.rows, Script.text, written, List.dropLast_concat]
  constructor
  · apply Text.nested_of_filter
    rw [filter_text Text.blank_of_isBrace]
    exact tidy.nested
  · refine ⟨others.reverse, written.trans ?_⟩
    rw [lines_eq, List.reverse_cons, List.append_assoc]
    rfl
  · intro row member
    rw [rows, List.mem_reverse] at member
    exact Text.trimEnd_row (neat.rows row member)
  · rw [rows, List.isChain_reverse]
    exact neat.adjoining

/-- A tidy script is laid out well as the only namespace of an artifact. -/
theorem wellFormed_ofScope (name : String) {scope : String} {body : Script}
    (clean : Text.Clean scope) (tidy : Tidy body) :
    Text.WellFormed (Artifact.ofScope name scope body).text := by
  have heading : Tidy (Artifact.heading.map .line) := tidy_lines (by decide +kernel)
  have opening : Text.Written ("namespace " ++ scope) := Text.Written.before (by decide) clean
  have whole := heading.append (.blank (tidy_block (.inr opening) tidy))
  have parts (before : Script) : before ++ .blank :: block ("namespace " ++ scope) body =
      (before ++ .blank :: .enter ("namespace " ++ scope) :: body) ++ [.leave "\x7d"] := by
    simp only [block, List.append_assoc, List.cons_append]
  unfold Artifact.ofScope
  rw [parts] at whole ⊢
  refine wellFormed_text whole ?_
  rw [List.foldl_append, heading.level]
  exact tidy.level 1

end Script

end Interpose
