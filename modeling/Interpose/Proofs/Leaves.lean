import Interpose.Model.Member
import Mathlib.Data.List.Basic
import Mathlib.Logic.Relation

/-!
# Leaves

The search for a type parameter in a type finds it exactly where it is a leaf of the type:
`mentions_iff`. A closed type has no leaf. The search for any type parameter looks below leaves as
well, and still the two agree: `searches_agree`.
-/

namespace Interpose

namespace TypeRef

/-- A type parameter of that name stands somewhere in the type. Type parameters are leaves, whatever
arguments they have. -/
inductive HasLeaf (name : String) : TypeRef → Prop
  | here {type : TypeRef} (leaf : type.isParameter = true) (named : type.fullName = name) :
      HasLeaf name type
  | inside {type argument : TypeRef} (node : type.isParameter = false)
      (listed : argument ∈ type.arguments) (found : HasLeaf name argument) : HasLeaf name type

theorem hasLeaf_parameter {name fullName shortName : String} {arguments : List TypeRef} :
    HasLeaf name ⟨fullName, shortName, true, arguments⟩ ↔ fullName = name := by
  constructor
  · intro found
    cases found with
    | here _ named => exact named
    | inside node => cases node
  · exact fun named => .here rfl named

theorem hasLeaf_node {name fullName shortName : String} {arguments : List TypeRef} :
    HasLeaf name ⟨fullName, shortName, false, arguments⟩ ↔
      ∃ argument ∈ arguments, HasLeaf name argument := by
  constructor
  · intro found
    cases found with
    | here leaf => cases leaf
    | inside _ listed found => exact ⟨_, listed, found⟩
  · rintro ⟨argument, listed, found⟩
    exact .inside rfl listed found

mutual

theorem mentions_iff (name : String) : ∀ type : TypeRef, type.mentions name ↔ HasLeaf name type
  | ⟨fullName, shortName, true, arguments⟩ => by
    rw [mentions, if_pos rfl, beq_iff_eq, hasLeaf_parameter]
  | ⟨fullName, shortName, false, arguments⟩ => by
    rw [mentions, if_neg Bool.false_ne_true, hasLeaf_node]
    exact anyMentions_iff name arguments

theorem anyMentions_iff (name : String) :
    ∀ types : List TypeRef, anyMentions name types ↔ ∃ type ∈ types, HasLeaf name type
  | [] => by simp [anyMentions]
  | type :: rest => by
    rw [anyMentions, Bool.or_eq_true, mentions_iff name type, anyMentions_iff name rest,
      List.exists_mem_cons_iff]

end

instance (name : String) (type : TypeRef) : Decidable (HasLeaf name type) :=
  decidable_of_iff _ (mentions_iff name type)

theorem anyOpen_iff (types : List TypeRef) :
    anyOpen types ↔ ∃ type ∈ types, type.isParameter = true ∨ type.isOpen = true := by
  induction types with
  | nil => simp [anyOpen]
  | cons type rest ih =>
    rw [anyOpen, Bool.or_eq_true, Bool.or_eq_true, ih, List.exists_mem_cons_iff]

theorem isOpen_iff (type : TypeRef) : type.isOpen ↔
    ∃ argument ∈ type.arguments, argument.isParameter = true ∨ argument.isOpen = true := by
  cases type
  rw [isOpen]
  exact anyOpen_iff _

theorem HasLeaf.isOpen {name : String} {type : TypeRef} (found : HasLeaf name type) :
    type.isParameter = true ∨ type.isOpen = true := by
  induction found with
  | here leaf => exact .inl leaf
  | inside _ listed _ ih => exact .inr ((isOpen_iff _).mpr ⟨_, listed, ih⟩)

/-- The type is no type parameter and has none among its arguments. -/
def Closed (type : TypeRef) : Prop := type.isParameter = false ∧ type.isOpen = false

instance (type : TypeRef) : Decidable (Closed type) :=
  inferInstanceAs (Decidable (type.isParameter = false ∧ type.isOpen = false))

theorem Closed.not_hasLeaf {type : TypeRef} (closed : Closed type) (name : String) :
    ¬ HasLeaf name type := by
  intro found
  rcases found.isOpen with leaf | isOpen
  · exact Bool.noConfusion (leaf.symm.trans closed.1)
  · exact Bool.noConfusion (isOpen.symm.trans closed.2)

/-! ### Agreement of the searches -/

theorem exists_hasLeaf : ∀ type : TypeRef, type.isParameter = true ∨ type.isOpen = true →
    ∃ name, HasLeaf name type
  | ⟨fullName, _, true, _⟩, _ => ⟨fullName, .here rfl rfl⟩
  | ⟨_, _, false, arguments⟩, .inr found => by
    obtain ⟨argument, listed, inner⟩ := (isOpen_iff _).mp found
    obtain ⟨name, leaf⟩ := exists_hasLeaf argument inner
    exact ⟨name, .inside rfl listed leaf⟩
termination_by type => type
decreasing_by
  have smaller : sizeOf argument < sizeOf arguments := List.sizeOf_lt_of_mem listed
  rw [TypeRef.mk.sizeOf_spec]
  omega

/-- What one type has as an argument, unless it is a type parameter. -/
def Descends (type argument : TypeRef) : Prop :=
  type.isParameter = false ∧ argument ∈ type.arguments

theorem hasLeaf_iff_reached {name : String} {type : TypeRef} : HasLeaf name type ↔
    ∃ leaf, Relation.ReflTransGen Descends type leaf ∧ leaf.isParameter = true ∧
      leaf.fullName = name := by
  constructor
  · intro found
    induction found with
    | here leaf named => exact ⟨_, .refl, leaf, named⟩
    | inside node listed _ ih =>
      obtain ⟨leaf, reached, is⟩ := ih
      exact ⟨leaf, .head ⟨node, listed⟩ reached, is⟩
  · rintro ⟨leaf, reached, parameter, named⟩
    induction reached using Relation.ReflTransGen.head_induction_on with
    | refl => exact .here parameter named
    | head step _ ih => exact .inside step.1 step.2 ih

/-- A type that is no type parameter is open exactly where some name is mentioned in it. A name is
mentioned where a type parameter of that name is reached from argument to argument, and nothing
counts below a type parameter. -/
theorem searches_agree (type : TypeRef) :
    (type.isParameter = false → (type.isOpen ↔ ∃ name, type.mentions name)) ∧
    ∀ name, type.mentions name ↔ ∃ leaf, Relation.ReflTransGen Descends type leaf ∧
      leaf.isParameter = true ∧ leaf.fullName = name := by
  refine ⟨fun node => ⟨fun found => ?_, ?_⟩, fun name => ?_⟩
  · obtain ⟨name, leaf⟩ := exists_hasLeaf type (.inr found)
    exact ⟨name, (mentions_iff name type).mpr leaf⟩
  · rintro ⟨name, found⟩
    have leaf := (mentions_iff name type).mp found
    exact leaf.isOpen.resolve_left (Bool.eq_false_iff.mp node)
  · exact (mentions_iff name type).trans hasLeaf_iff_reached

/-- A type with a type parameter inside an argument and one that has an argument itself. -/
def nestedMap : TypeRef :=
  (TypeRef.named "global::App.IMap" "IMap").close [
    (TypeRef.named "global::App.List" "List").close [.parameter "T"],
    { TypeRef.parameter "F" with arguments := [.parameter "U"] }]

theorem searches_agree_nestedMap :
    nestedMap.isParameter = false ∧ (nestedMap.isOpen ↔ ∃ name, nestedMap.mentions name) ∧
      (∃ leaf, Relation.ReflTransGen Descends nestedMap leaf ∧ leaf.isParameter = true ∧
        leaf.fullName = "T") ∧
      ¬ ∃ leaf, Relation.ReflTransGen Descends nestedMap leaf ∧ leaf.isParameter = true ∧
        leaf.fullName = "U" := by
  have node : nestedMap.isParameter = false := rfl
  obtain ⟨agree, reached⟩ := searches_agree nestedMap
  refine ⟨node, agree node, (reached "T").mp (by decide), fun found => ?_⟩
  exact absurd ((reached "U").mpr found) (by decide)

end TypeRef

/-- The captured type parameters are those of the method that are leaves of its parameters' types,
in the order in which the method declares them. -/
theorem Method.capturedTypeParameters_eq (method : Method) : method.capturedTypeParameters =
    method.typeParameters.filter fun name =>
      ∃ parameter ∈ method.parameters, TypeRef.HasLeaf name parameter.type := by
  refine List.filter_congr fun name _ => Bool.eq_iff_iff.mpr ?_
  rw [List.any_eq_true, decide_eq_true_eq]
  exact exists_congr fun parameter => and_congr_right fun _ => TypeRef.mentions_iff name _

end Interpose
