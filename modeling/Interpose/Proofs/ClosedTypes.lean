import Interpose.Model.TypeRef
import Mathlib.Data.List.Forall2
import Mathlib.Data.String.Basic

/-!
# Closed types

The full name of a type that was closed over arguments is read in one way: what it was closed from
and the names of the arguments can be told from it. So equal references are built alike:
`sameType_close_iff`.
-/

namespace Interpose.TypeRef

/-- A sign with which a list of arguments is written. -/
def listSign (c : Char) : Bool := c == '<' || c == '>' || c == ','

/-- A name without the signs of a list. Blanks do no harm in it, nor does the empty name. -/
def Unlisted (name : String) : Prop := ∀ c ∈ name.toList, listSign c = false

instance (name : String) : Decidable (Unlisted name) := List.decidableBAll _ name.toList

/-- A type before it is closed. -/
inductive Bare : TypeRef → Prop
  | named {fullName : String} (shortName : String) (unlisted : Unlisted fullName) :
      Bare (named fullName shortName)
  | parameter {name : String} (unlisted : Unlisted name) : Bare (parameter name)

/-- A bare type closed over types that are made in the same way. -/
inductive Built : TypeRef → Prop
  | close {type : TypeRef} {arguments : List TypeRef} (bare : Bare type)
      (built : ∀ argument ∈ arguments, Built argument) : Built (type.close arguments)

theorem Bare.unlisted {type : TypeRef} (bare : Bare type) : Unlisted type.fullName := by
  cases bare with
  | named _ unlisted => exact unlisted
  | parameter unlisted => exact unlisted

theorem Bare.built {type : TypeRef} (bare : Bare type) : Built type := by
  have closed : Built (type.close []) := .close bare (by simp)
  exact closed

/-- Nothing stands behind a name but a sign of the list in which it is an argument. -/
def Ends (rest : List Char) : Prop := ∀ c ∈ rest.head?, c = ',' ∨ c = '>'

/-- What stands behind an argument in the list to which it belongs. -/
def further : List TypeRef → List Char
  | [] => ['>']
  | argument :: others => ',' :: ' ' :: (argument.fullName.toList ++ further others)

theorem ends_further (arguments : List TypeRef) (rest : List Char) :
    Ends (further arguments ++ rest) := by
  cases arguments with
  | nil => simp [Ends, further]
  | cons argument others => simp [Ends, further]

theorem toList_intercalate (argument : TypeRef) (others : List TypeRef) :
    (", ".intercalate ((argument :: others).map (·.fullName))).toList ++ ['>'] =
      argument.fullName.toList ++ further others := by
  induction others generalizing argument with
  | nil => rfl
  | cons next others ih =>
    have behind := ih next
    rw [List.map_cons] at behind
    rw [List.map_cons, List.map_cons, String.intercalate_cons_cons, String.toList_append,
      String.toList_append, List.append_assoc, List.append_assoc, behind]
    rfl

/-- What closing writes behind the full name. -/
def suffix : List TypeRef → List Char
  | [] => []
  | argument :: others => '<' :: (argument.fullName.toList ++ further others)

theorem toList_close (type : TypeRef) (arguments : List TypeRef) :
    (type.close arguments).fullName.toList = type.fullName.toList ++ suffix arguments := by
  cases arguments with
  | nil => exact (List.append_nil _).symm
  | cons argument others =>
    have closed : (type.close (argument :: others)).fullName =
        type.fullName ++ ("<" ++ ", ".intercalate ((argument :: others).map (·.fullName)) ++ ">") :=
      rfl
    rw [closed, String.toList_append, String.toList_append, String.toList_append, List.append_assoc]
    exact congrArg (type.fullName.toList ++ '<' :: ·) (toList_intercalate argument others)

theorem unlisted_append_inj {name other : String} (unlisted : Unlisted name)
    (otherUnlisted : Unlisted other) {back rest : List Char} (ends : ∀ c ∈ back.head?, listSign c)
    (stops : ∀ c ∈ rest.head?, listSign c) (same : name.toList ++ back = other.toList ++ rest) :
    name = other ∧ back = rest := by
  rcases List.append_eq_append_iff.mp same with
    ⟨between, longer, parted⟩ | ⟨between, longer, parted⟩
  · cases between with
    | nil => exact ⟨String.toList_injective (longer.trans (List.append_nil _)).symm, parted⟩
    | cons c between =>
      have inside : listSign c = false := otherUnlisted c (by simp [longer])
      exact absurd (ends c (by simp [parted])) (by simp [inside])
  · cases between with
    | nil => exact ⟨String.toList_injective (longer.trans (List.append_nil _)), parted.symm⟩
    | cons c between =>
      have inside : listSign c = false := unlisted c (by simp [longer])
      exact absurd (stops c (by simp [parted])) (by simp [inside])

/-- What follows a full name can be told apart from it. -/
def Legible (type : TypeRef) : Prop :=
  ∀ other, Built other → ∀ back rest, Ends back → Ends rest →
    type.fullName.toList ++ back = other.fullName.toList ++ rest →
      type.sameType other ∧ back = rest

/-- The references name the same types in the same order. -/
abbrev SameTypes : List TypeRef → List TypeRef → Prop := List.Forall₂ fun a b => a.sameType b

theorem further_append_inj {arguments others : List TypeRef}
    (legible : ∀ argument ∈ arguments, Legible argument) (built : ∀ other ∈ others, Built other)
    {back rest : List Char} (same : further arguments ++ back = further others ++ rest) :
    SameTypes arguments others ∧ back = rest := by
  induction arguments generalizing others with
  | nil =>
    cases others with
    | nil => exact ⟨.nil, (List.cons.inj same).2⟩
    | cons other others => exact absurd (List.cons.inj same).1 (by decide)
  | cons argument arguments ih =>
    cases others with
    | nil => exact absurd (List.cons.inj same).1 (by decide)
    | cons other others =>
      obtain ⟨first, legible⟩ := List.forall_mem_cons.mp legible
      obtain ⟨head, built⟩ := List.forall_mem_cons.mp built
      have names : argument.fullName.toList ++ further arguments ++ back =
          other.fullName.toList ++ further others ++ rest :=
        (List.cons.inj (List.cons.inj same).2).2
      rw [List.append_assoc, List.append_assoc] at names
      obtain ⟨sameHead, behind⟩ :=
        first other head _ _ (ends_further arguments back) (ends_further others rest) names
      obtain ⟨sameTail, equal⟩ := ih legible built behind
      exact ⟨.cons sameHead sameTail, equal⟩

theorem suffix_append_inj {arguments others : List TypeRef}
    (legible : ∀ argument ∈ arguments, Legible argument) (built : ∀ other ∈ others, Built other)
    {back rest : List Char} (ends : Ends back) (stops : Ends rest)
    (same : suffix arguments ++ back = suffix others ++ rest) :
    SameTypes arguments others ∧ back = rest := by
  cases arguments with
  | nil =>
    cases others with
    | nil => exact ⟨.nil, same⟩
    | cons other others =>
      have opened : '<' ∈ back.head? := by
        rw [suffix, List.nil_append] at same
        exact same ▸ rfl
      exact absurd (ends _ opened) (by decide)
  | cons argument arguments =>
    cases others with
    | nil =>
      have opened : '<' ∈ rest.head? := by
        rw [suffix, suffix, List.nil_append] at same
        exact same ▸ rfl
      exact absurd (stops _ opened) (by decide)
    | cons other others =>
      -- Behind the opening stands what elsewhere stands behind the comma in front of an argument.
      have inner : argument.fullName.toList ++ further arguments ++ back =
          other.fullName.toList ++ further others ++ rest := (List.cons.inj same).2
      exact further_append_inj legible built (congrArg (',' :: ' ' :: ·) inner)

theorem head?_suffix {arguments : List TypeRef} {rest : List Char} (ends : Ends rest) :
    ∀ c ∈ (suffix arguments ++ rest).head?, listSign c := by
  intro c first
  cases arguments with
  | nil =>
    rcases ends c first with rfl | rfl
    · rfl
    · rfl
  | cons argument others =>
    obtain rfl : '<' = c := Option.some.inj first
    rfl

theorem close_append_inj {type other : TypeRef} (bare : Bare type) (otherBare : Bare other)
    {arguments others : List TypeRef} (legible : ∀ argument ∈ arguments, Legible argument)
    (built : ∀ other ∈ others, Built other) {back rest : List Char} (ends : Ends back)
    (stops : Ends rest) (same : (type.close arguments).fullName.toList ++ back =
      (other.close others).fullName.toList ++ rest) :
    type.fullName = other.fullName ∧ SameTypes arguments others ∧ back = rest := by
  rw [toList_close, toList_close, List.append_assoc, List.append_assoc] at same
  obtain ⟨names, suffixes⟩ := unlisted_append_inj bare.unlisted otherBare.unlisted
    (head?_suffix ends) (head?_suffix stops) same
  exact ⟨names, suffix_append_inj legible built ends stops suffixes⟩

theorem fullName_close {type other : TypeRef} (same : type.fullName = other.fullName)
    {arguments others : List TypeRef} (pairwise : SameTypes arguments others) :
    (type.close arguments).fullName = (other.close others).fullName := by
  have names : arguments.map (·.fullName) = others.map (·.fullName) := by
    induction pairwise with
    | nil => rfl
    | cons head _ ih => rw [List.map_cons, List.map_cons, beq_iff_eq.mp head, ih]
  cases pairwise with
  | nil => exact same
  | cons _ _ =>
    show type.fullName ++ angled _ = other.fullName ++ angled _
    rw [same, names]

theorem Built.legible {type : TypeRef} (built : Built type) : Legible type := by
  induction built with
  | close bare _ legible =>
    rintro _ (⟨otherBare, built⟩) back rest ends stops same
    obtain ⟨names, pairwise, equal⟩ :=
      close_append_inj bare otherBare legible built ends stops same
    exact ⟨beq_iff_eq.mpr (fullName_close names pairwise), equal⟩

/-- Closed types are the same exactly where they were closed from the same type over the same
arguments in order. -/
theorem sameType_close_iff {type other : TypeRef} (bare : Bare type) (otherBare : Bare other)
    {arguments others : List TypeRef} (built : ∀ argument ∈ arguments, Built argument)
    (otherBuilt : ∀ argument ∈ others, Built argument) :
    (type.close arguments).sameType (other.close others) ↔
      type.fullName = other.fullName ∧ SameTypes arguments others := by
  constructor
  · intro same
    have ends : Ends [] := by simp [Ends]
    have letters := congrArg (·.toList ++ []) (beq_iff_eq.mp same)
    obtain ⟨names, pairwise, _⟩ := close_append_inj bare otherBare
      (fun argument member => (built argument member).legible) otherBuilt ends ends letters
    exact ⟨names, pairwise⟩
  · rintro ⟨names, pairwise⟩
    exact beq_iff_eq.mpr (fullName_close names pairwise)

/-- A list of one argument in front of another argument, whose names in order are those of
`joinedArguments` too. -/
def partedArguments : List TypeRef := [
  (named "global::App.IList" "IList").close [parameter "T"], named "global::App.Key" "Key"]

def joinedArguments : List TypeRef := [
  (named "global::App.IList" "IList").close [parameter "T", named "global::App.Key" "Key"]]

theorem sameType_close_parted :
    Bare (named "global::App.IMap" "IMap") ∧ Bare (named "global::App.IMap" "Map") ∧
      (∀ argument ∈ partedArguments, Built argument) ∧
      (∀ argument ∈ joinedArguments, Built argument) ∧
      ((named "global::App.IMap" "IMap").close partedArguments).sameType
        ((named "global::App.IMap" "Map").close partedArguments) ∧
      ¬ ((named "global::App.IMap" "IMap").close partedArguments).sameType
        ((named "global::App.IMap" "Map").close joinedArguments) := by
  have map (shortName : String) : Bare (named "global::App.IMap" shortName) :=
    .named shortName (by decide)
  have list : Bare (named "global::App.IList" "IList") := .named "IList" (by decide)
  have key : Built (named "global::App.Key" "Key") := (Bare.named "Key" (by decide)).built
  have letter : Built (parameter "T") := (Bare.parameter (by decide)).built
  have parted : ∀ argument ∈ partedArguments, Built argument :=
    List.forall_mem_cons.mpr
      ⟨.close list (List.forall_mem_singleton.mpr letter), List.forall_mem_singleton.mpr key⟩
  have joined : ∀ argument ∈ joinedArguments, Built argument :=
    List.forall_mem_singleton.mpr (.close list
      (List.forall_mem_cons.mpr ⟨letter, List.forall_mem_singleton.mpr key⟩))
  refine ⟨map "IMap", map "Map", parted, joined, ?_, fun same => ?_⟩
  · exact (sameType_close_iff (map "IMap") (map "Map") parted parted).mpr
      ⟨rfl, List.forall₂_same.mpr fun argument _ => beq_self_eq_true argument.fullName⟩
  · have pairwise := ((sameType_close_iff (map "IMap") (map "Map") parted joined).mp same).2
    exact absurd pairwise.length_eq (by decide)

end Interpose.TypeRef
