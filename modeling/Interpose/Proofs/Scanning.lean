import Interpose.Proofs.Outlines

/-!
# Scanning

A line of code is read from one of its ends: a known text, a word, or a list with commas between its
items. What is written as one is read as one, whatever stands beside it: `word?_append`,
`lastWord?_append`, `items?_commaList`.
-/

namespace Interpose.Text

/-- What stands behind a text. -/
def behind (opening line : String) : Option String := between opening "" line

/-- What stands in front of a text. -/
def before (closing line : String) : Option String := between "" closing line

theorem behind_eq_some_iff {opening line rest : String} :
    behind opening line = some rest ↔ line = opening ++ rest := by
  rw [behind, between_eq_some_iff, String.append_empty]

@[simp] theorem behind_append (opening rest : String) :
    behind opening (opening ++ rest) = some rest :=
  behind_eq_some_iff.mpr rfl

theorem before_eq_some_iff {closing line rest : String} :
    before closing line = some rest ↔ line = rest ++ closing := by
  rw [before, between_eq_some_iff, String.empty_append]

@[simp] theorem before_append (rest closing : String) :
    before closing (rest ++ closing) = some rest :=
  before_eq_some_iff.mpr rfl

theorem behind_eq_none {opening line : String} {c : Char}
    (opens : opening.toList.head? = some c) (other : line.toList.head? ≠ some c) :
    behind opening line = none := by
  rw [Option.eq_none_iff_forall_ne_some]
  rintro rest found
  rw [behind_eq_some_iff.mp found, String.toList_append, List.head?_append, opens] at other
  exact other rfl

theorem before_eq_none {closing line : String} {c : Char}
    (closes : closing.toList.getLast? = some c) (other : line.toList.getLast? ≠ some c) :
    before closing line = none := by
  rw [Option.eq_none_iff_forall_ne_some]
  rintro rest found
  rw [before_eq_some_iff.mp found, String.toList_append, List.getLast?_append, closes] at other
  exact other rfl

theorem head?_append {opening : String} (filled : opening ≠ "") (rest : String) :
    (opening ++ rest).toList.head? = opening.toList.head? := by
  obtain ⟨c, letters, spelled⟩ := List.exists_cons_of_ne_nil
    (fun gone => filled (String.toList_injective gone) : opening.toList ≠ [])
  rw [String.toList_append, spelled]
  rfl

/-! ### Words -/

/-- A character of a written name: one of an identifier, or the sign in front of it. -/
def inWord (c : Char) : Bool := follows c || c == '@'

/-- The word at the beginning of a line and what stands behind it. -/
def word? (line : String) : Option (String × String) :=
  let letters := line.toList.takeWhile inWord
  if letters = [] then none
  else some (String.ofList letters, String.ofList (line.toList.dropWhile inWord))

/-- The word at the end of a line, behind what stands in front of it. -/
def lastWord? (line : String) : Option (String × String) :=
  let letters := line.toList.reverse.takeWhile inWord
  if letters = [] then none
  else some (String.ofList (line.toList.reverse.dropWhile inWord).reverse,
    String.ofList letters.reverse)

structure Word (text : String) : Prop where
  filled : text.toList ≠ []
  letters : ∀ c ∈ text.toList, inWord c

instance (text : String) : Decidable (Word text) :=
  decidable_of_iff (text.toList ≠ [] ∧ text.toList.all inWord)
    ⟨fun word => ⟨word.1, List.all_eq_true.mp word.2⟩,
      fun word => ⟨word.filled, List.all_eq_true.mpr word.letters⟩⟩

/-- The words that stand in every proxy, and the signs that its names are made with. -/
theorem word_of_mem : ∀ word ∈ [
    "ref", "out", "in", "var", "return", "this", "_underlyingImplementation", "temp_", "_", "@"],
    Word word := by decide

/-- A word that stands in front of the line ends there. -/
def Stops (line : String) : Prop := ∀ c ∈ line.toList.head?, inWord c = false

instance (line : String) : Decidable (Stops line) :=
  decidable_of_iff (line.toList.head?.all fun c => !inWord c) (by
    unfold Stops
    cases line.toList.head? <;> simp)

theorem stops_append {opening : String} (stops : Stops opening) (filled : opening ≠ "")
    (rest : String) : Stops (opening ++ rest) := by
  rw [Stops, head?_append filled]
  exact stops

theorem Word.append {first second : String} (word : Word first)
    (letters : ∀ c ∈ second.toList, inWord c) : Word (first ++ second) where
  filled := by simp [word.filled]
  letters c member := by
    rw [String.toList_append, List.mem_append] at member
    exact member.elim (word.letters c) (letters c)

theorem Word.head? {word : String} (written : Word word) (rest : String) :
    ∃ c, (word ++ rest).toList.head? = some c ∧ inWord c := by
  obtain ⟨c, letters, spelled⟩ := List.exists_cons_of_ne_nil written.filled
  have first : c ∈ word.toList := spelled ▸ List.mem_cons_self
  exact ⟨c, by simp [spelled], written.letters c first⟩

theorem takeWhile_inWord {word rest : List Char} (letters : ∀ c ∈ word, inWord c)
    (stops : ∀ c ∈ rest.head?, inWord c = false) :
    (word ++ rest).takeWhile inWord = word ∧ (word ++ rest).dropWhile inWord = rest := by
  rw [List.takeWhile_append_of_pos letters, List.dropWhile_append_of_pos letters]
  cases rest with
  | nil => exact ⟨List.append_nil word, rfl⟩
  | cons c rest =>
    have stop : inWord c = false := stops c rfl
    simp [stop]

theorem word?_append {word rest : String} (written : Word word) (stops : Stops rest) :
    word? (word ++ rest) = some (word, rest) := by
  obtain ⟨taken, dropped⟩ := takeWhile_inWord written.letters stops
  rw [← String.toList_append] at taken dropped
  unfold word?
  rw [taken, dropped, if_neg written.filled, String.ofList_toList, String.ofList_toList]

theorem word?_eq_none {line : String} (stops : Stops line) : word? line = none := by
  obtain ⟨taken, _⟩ := @takeWhile_inWord [] line.toList (by simp) stops
  rw [List.nil_append] at taken
  unfold word?
  rw [taken, if_pos rfl]

theorem lastWord?_append {front word : String} {c : Char} (written : Word word)
    (last : front.toList.getLast? = some c) (apart : inWord c = false) :
    lastWord? (front ++ word) = some (front, word) := by
  obtain ⟨taken, dropped⟩ := @takeWhile_inWord word.toList.reverse front.toList.reverse
    (fun c member => written.letters c (List.mem_reverse.mp member))
    (by simp [List.head?_reverse, last, apart])
  rw [← List.reverse_append, ← String.toList_append] at taken dropped
  unfold lastWord?
  rw [taken, dropped, if_neg (by simpa using written.filled)]
  simp

/-- A keyword is read in front of a word only where it is that word. -/
theorem behind_keyword {keyword word rest found : String} (key : Word keyword)
    (written : Word word) (stops : Stops rest)
    (reads : behind (keyword ++ " ") (word ++ rest) = some found) :
    word = keyword ∧ rest = " " ++ found := by
  have line := behind_eq_some_iff.mp reads
  have spaced : Stops (" " ++ found) := stops_append (by decide) (by decide) found
  have both := word?_append written stops
  rw [line, String.append_assoc, word?_append key spaced] at both
  obtain ⟨rfl, rfl⟩ := Prod.mk.inj (Option.some.inj both)
  exact ⟨rfl, rfl⟩

theorem behind_keyword_eq_none {keyword word rest : String} (key : Word keyword)
    (written : Word word) (stops : Stops rest) (tight : rest.toList.head? ≠ some ' ') :
    behind (keyword ++ " ") (word ++ rest) = none := by
  rw [Option.eq_none_iff_forall_ne_some]
  rintro found reads
  obtain ⟨_, rfl⟩ := behind_keyword key written stops reads
  exact tight (by simp)

/-! ### Lists -/

/-- Reads an item for each element of a list, with a comma between each two. -/
def items? {α β : Type} (item? : α → String → Option (β × String)) :
    List α → String → Option (List β)
  | [], line => if line = "" then some [] else none
  | [last], line => do
    let (item, rest) ← item? last line
    if rest = "" then some [item] else none
  | first :: next :: others, line => do
    let (item, rest) ← item? first line
    let items ← items? item? (next :: others) (← behind ", " rest)
    return item :: items

theorem items?_commaList {ι α β : Type} {item? : α → String → Option (β × String)}
    {declared : ι → α} {text : ι → String} {item : ι → β} {rows : List ι}
    (reads : ∀ row ∈ rows, ∀ rest, rest = "" ∨ (∃ others, rest = ", " ++ others) →
      item? (declared row) (text row ++ rest) = some (item row, rest)) :
    items? item? (rows.map declared) (Spelling.commaList (rows.map text)) =
      some (rows.map item) := by
  unfold Spelling.commaList
  induction rows with
  | nil => rfl
  | cons row rows ih =>
    have others := ih fun other member => reads other (List.mem_cons_of_mem row member)
    have first := reads row List.mem_cons_self
    cases rows with
    | nil =>
      have alone := first "" (.inl rfl)
      rw [String.append_empty] at alone
      simp [items?, alone]
    | cons next rows =>
      simp only [List.map_cons] at others ⊢
      rw [String.intercalate_cons_cons, String.append_assoc, items?, first _ (.inr ⟨_, rfl⟩)]
      simp only [Option.bind_eq_bind, Option.bind_some, behind_append, others]
      rfl

end Interpose.Text
