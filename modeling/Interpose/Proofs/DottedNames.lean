import Interpose.Settings
import Mathlib.Data.List.DropRight
import Mathlib.Data.List.TakeWhile

/-!
# Dotted names

Two texts with a dot between them are a dotted name exactly where each is: `dotted_append`. So the
dotted names are what identifiers spell with dots between them, each in one way: `dotted_spelled`. A
segment begins with the first letter or number of the name that it stands for, which alone decides
whether it is an identifier: `dotted_of_follows`, `head?_segment`. The settings that are written as
names pass for such.
-/

namespace Interpose.Text

/-! ### Dots -/

theorem follows_dot : follows '.' = false := by decide +kernel

theorem opens_dot : opens '.' = false := by decide +kernel

theorem dottedFrom_append (inside : Bool) (front back : List Char) :
    dottedFrom inside (front ++ '.' :: back) =
      (dottedFrom inside front && dottedFrom false back) := by
  induction front generalizing inside with
  | nil => cases inside <;> simp [dottedFrom, opens_dot]
  | cons c front ih =>
    rw [List.cons_append, dottedFrom, dottedFrom, ih, ih]
    cases inside with
    | false => simp [Bool.and_assoc]
    | true => by_cases dot : c = '.' <;> simp [dot, Bool.and_assoc]

theorem dotted_append (front back : String) :
    dotted (front ++ "." ++ back) = (dotted front && dotted back) := by
  have letters : (front ++ "." ++ back).toList = front.toList ++ '.' :: back.toList := by simp
  rw [dotted, letters, dottedFrom_append]
  rfl

theorem dottedFrom_of_follows {cs : List Char} (letters : ∀ c ∈ cs, follows c) :
    dottedFrom true cs := by
  induction cs with
  | nil => rfl
  | cons c cs ih =>
    obtain ⟨first, others⟩ := List.forall_mem_cons.mp letters
    have apart : c ≠ '.' := by
      rintro rfl
      exact absurd first (by simp [follows_dot])
    simp [dottedFrom, apart, first, ih others]

/-- A text of identifier characters is a name where one may open with its first character. -/
theorem dotted_of_follows {name : String} (letters : ∀ c ∈ name.toList, follows c) :
    dotted name = name.toList.head?.any opens := by
  rw [dotted]
  cases spelled : name.toList with
  | nil => rfl
  | cons c cs =>
    rw [spelled] at letters
    simp [dottedFrom, dottedFrom_of_follows (List.forall_mem_cons.mp letters).2]

/-! ### Grammar -/

/-- A letter or an underscore, and behind it letters, numbers and underscores. -/
def Identifier (word : String) : Prop :=
  ∃ first others, word.toList = first :: others ∧ (alphabetic first ∨ first = '_') ∧
    ∀ c ∈ others, alphanumeric c ∨ c = '_'

/-- The name is these identifiers, at least one, with dots between them. -/
structure Spells (words : List String) (name : String) : Prop where
  begun : words ≠ []
  identifiers : ∀ word ∈ words, Identifier word
  joined : name = ".".intercalate words

theorem opens_iff {c : Char} : opens c ↔ alphabetic c ∨ c = '_' := by
  rw [opens, Bool.or_eq_true, beq_iff_eq]

theorem follows_iff {c : Char} : follows c ↔ alphanumeric c ∨ c = '_' := by
  rw [follows, Bool.or_eq_true, beq_iff_eq]

theorem follows_of_opens {c : Char} (opening : opens c) : follows c := by
  refine follows_iff.mpr ((opens_iff.mp opening).imp_left fun letter => ?_)
  rw [alphanumeric, letter, Bool.true_or]

theorem follows_of_dottedFrom {cs : List Char} (accepted : dottedFrom true cs)
    (undotted : '.' ∉ cs) : ∀ c ∈ cs, follows c := by
  induction cs with
  | nil => exact List.forall_mem_nil _
  | cons c cs ih =>
    obtain ⟨apart, behind⟩ := List.ne_and_not_mem_of_not_mem_cons undotted
    rw [dottedFrom, if_pos rfl, if_neg (Ne.symm apart), Bool.and_eq_true] at accepted
    exact List.forall_mem_cons.mpr ⟨accepted.1, ih accepted.2 behind⟩

/-- An identifier is a dotted name without a dot. -/
theorem identifier_iff {word : String} : Identifier word ↔ dotted word ∧ '.' ∉ word.toList := by
  constructor
  · rintro ⟨first, others, spelled, opening, following⟩
    have letters : ∀ c ∈ word.toList, follows c := by
      rw [spelled]
      exact List.forall_mem_cons.mpr ⟨follows_of_opens (opens_iff.mpr opening),
        fun c member => follows_iff.mpr (following c member)⟩
    refine ⟨?_, fun dot => ?_⟩
    · rw [dotted_of_follows letters, spelled]
      exact opens_iff.mpr opening
    · exact absurd (letters '.' dot) (by simp [follows_dot])
  · rintro ⟨accepted, undotted⟩
    rw [dotted] at accepted
    cases spelled : word.toList with
    | nil =>
      rw [spelled] at accepted
      cases accepted
    | cons first others =>
      rw [spelled] at accepted undotted
      obtain ⟨opening, rest⟩ := Bool.and_eq_true_iff.mp accepted
      have following := follows_of_dottedFrom rest (List.not_mem_of_not_mem_cons undotted)
      exact ⟨first, others, spelled, opens_iff.mp opening, fun c member =>
        follows_iff.mp (following c member)⟩

instance (word : String) : Decidable (Identifier word) := decidable_of_iff _ identifier_iff.symm

/-- A name made of parts is valid exactly where every part is. -/
theorem dotted_intercalate {parts : List String} (begun : parts ≠ []) :
    dotted (".".intercalate parts) ↔ ∀ part ∈ parts, dotted part := by
  induction parts with
  | nil => exact absurd rfl begun
  | cons part others ih =>
    cases others with
    | nil => simp
    | cons next others =>
      rw [String.intercalate_cons_cons, dotted_append, Bool.and_eq_true,
        ih (List.cons_ne_nil _ _), List.forall_mem_cons (a := part)]

theorem Spells.dotted {words : List String} {name : String} (spells : Spells words name) :
    dotted name := by
  rw [spells.joined, dotted_intercalate spells.begun]
  exact fun word member => (identifier_iff.mp (spells.identifiers word member)).1

/-- The words are what splitting the name at its dots gives. -/
theorem Spells.pieces {words : List String} {name : String} (spells : Spells words name) :
    words.map String.toList = name.toList.splitOn '.' := by
  have undotted : ∀ word ∈ words.map String.toList, '.' ∉ word := by
    rw [List.forall_mem_map]
    exact fun word member => (identifier_iff.mp (spells.identifiers word member)).2
  have begun : words.map String.toList ≠ [] := by simpa using spells.begun
  rw [spells.joined, String.toList_intercalate]
  exact (List.splitOn_intercalate '.' undotted begun).symm

theorem Spells.unique {words others : List String} {name : String} (spells : Spells words name)
    (also : Spells others name) : words = others :=
  List.map_injective_iff.mpr (fun _ _ => String.toList_injective)
    (spells.pieces.trans also.pieces.symm)

theorem Spells.cons {word name : String} {words : List String} (identifier : Identifier word)
    (spells : Spells words name) : Spells (word :: words) (word ++ "." ++ name) where
  begun := List.cons_ne_nil _ _
  identifiers := List.forall_mem_cons.mpr ⟨identifier, spells.identifiers⟩
  joined := by rw [String.intercalate_cons_of_ne_nil spells.begun, ← spells.joined]

theorem exists_spells {name : String} (accepted : dotted name) :
    ∃ words, Spells words name := by
  by_cases dot : '.' ∈ name.toList
  · -- The first word ends at the first dot.
    obtain ⟨front, back, parted, undotted⟩ := List.eq_append_cons_of_mem dot
    have joined : name = String.ofList front ++ "." ++ String.ofList back := by
      apply String.toList_injective
      simp [parted]
    have shorter : (String.ofList back).length < name.length := by
      rw [String.length_ofList, ← String.length_toList, parted, List.length_append,
        List.length_cons]
      omega
    rw [joined, dotted_append, Bool.and_eq_true] at accepted
    obtain ⟨words, spells⟩ := exists_spells accepted.2
    have first : Identifier (String.ofList front) :=
      identifier_iff.mpr ⟨accepted.1, by rwa [String.toList_ofList]⟩
    exact ⟨_, joined ▸ spells.cons first⟩
  · refine ⟨[name], List.cons_ne_nil _ _, ?_, String.intercalate_singleton.symm⟩
    exact List.forall_mem_singleton.mpr (identifier_iff.mpr ⟨accepted, dot⟩)
termination_by name.length
decreasing_by exact shorter

/-- The names that are accepted are those that are spelled by identifiers, and these are the only
ones that spell them. A name put together with a dot is accepted exactly where both parts are, and
one of any number of parts where every part is. -/
theorem dotted_spelled :
    (∀ name, dotted name ↔ ∃ words, Spells words name) ∧
    (∀ name words others, Spells words name → Spells others name → words = others) ∧
    (∀ front back, dotted (front ++ "." ++ back) ↔ dotted front ∧ dotted back) ∧
    ∀ parts, parts ≠ [] → (dotted (".".intercalate parts) ↔ ∀ part ∈ parts, dotted part) := by
  refine ⟨fun name => ⟨exists_spells, ?_⟩, fun name words others => Spells.unique,
    fun front back => ?_, fun parts => dotted_intercalate⟩
  · rintro ⟨words, spells⟩
    exact spells.dotted
  · rw [dotted_append, Bool.and_eq_true]

/-- A number may stand behind an underscore that begins a word; no word is empty. -/
theorem dotted_spelled_acme :
    Spells ["Acme", "_9"] "Acme._9" ∧ dotted "Acme._9" ∧
      (∀ others, Spells others "Acme._9" → others = ["Acme", "_9"]) ∧
      (¬ ∃ words, Spells words "Acme..9") ∧ ¬ dotted ("Acme" ++ "." ++ "9") := by
  obtain ⟨accepted, unique, appended, _⟩ := dotted_spelled
  have spells : Spells ["Acme", "_9"] "Acme._9" :=
    ⟨List.cons_ne_nil _ _, by decide +kernel, by decide⟩
  refine ⟨spells, (accepted _).mpr ⟨_, spells⟩, fun others also => unique _ _ _ also spells, ?_, ?_⟩
  · rw [← accepted]
    decide +kernel
  · rw [appended]
    decide +kernel

/-! ### The front of a segment -/

/-- What `collapse` leaves out are underscores. -/
theorem find?_collapse (cs : List Char) :
    (collapse cs).find? (fun c => !(c == '_')) = cs.find? fun c => !(c == '_') := by
  induction cs with
  | nil => rfl
  | cons c cs ih =>
    unfold collapse
    split
    · rename_i tail collapsed
      rw [collapsed] at ih
      split
      · rename_i underscore
        rw [ih, underscore, List.find?_cons_of_neg (by simp)]
      · rw [List.find?_cons, ih, List.find?_cons]
    · rw [List.find?_cons, ih, List.find?_cons]

theorem head?_rdropWhile {p : Char → Bool} {cs : List Char} (stays : ∀ c ∈ cs.head?, ¬ p c) :
    (cs.rdropWhile p).head? = cs.head? := by
  cases cs with
  | nil => rfl
  | cons c rest =>
    have parted : (c :: rest).rdropWhile p ++ (c :: rest).rtakeWhile p = c :: rest :=
      List.rdropWhile_append_rtakeWhile
    cases left : (c :: rest).rdropWhile p with
    | nil => exact absurd (List.rdropWhile_eq_nil_iff.mp left c List.mem_cons_self) (stays c rfl)
    | cons d others => rw [← parted, left]; rfl

theorem head?_trimUnderscores (cs : List Char) :
    (trimUnderscores cs).head? = cs.find? fun c => !(c == '_') := by
  rw [List.find?_not_eq_head?_dropWhile]
  refine head?_rdropWhile fun c front => ?_
  have first := List.head?_dropWhile_not (· == '_') cs
  rw [front] at first
  simpa using first

theorem ne_underscore {c : Char} (letter : alphanumeric c) : c ≠ '_' := by
  rintro rfl
  exact absurd letter (by decide +kernel)

/-- A segment begins with the first letter or number of the name. -/
theorem head?_segment (name : String) :
    (segment name).toList.head? = name.toList.find? alphanumeric := by
  rw [segment, String.toList_ofList, head?_trimUnderscores, find?_collapse, List.find?_map]
  have kept : (fun c => !(c == '_')) ∘ (fun c => if alphanumeric c then c else '_') =
      alphanumeric := by
    funext c
    rw [Function.comp_apply]
    split
    · rename_i letter
      simp [ne_underscore letter, letter]
    · rename_i other
      simp [other]
  rw [kept]
  cases found : name.toList.find? alphanumeric with
  | none => rfl
  | some c => simp [List.find?_some found]

end Interpose.Text

namespace Interpose.Settings

theorem check_default : ({} : Settings).check = .ok () := by decide +kernel

/-- Settings that pass the check have names where names are written. -/
theorem dotted_of_check {settings : Settings} (accepted : settings.check = .ok ()) :
    ∀ field ∈ settings.dottedFields, Text.dotted field.2 := by
  intro field member
  unfold check problem? at accepted
  split at accepted
  · cases accepted
  · rename_i none
    split at none
    · cases none
    · split at none
      · cases none
      · rename_i every
        simpa using List.find?_eq_none.mp every field member

end Interpose.Settings
