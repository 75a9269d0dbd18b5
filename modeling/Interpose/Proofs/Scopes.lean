import Interpose.Proofs.DottedNames
import Interpose.Proofs.Naming

/-!
# Scopes of proxies

A scope is written as the root and a segment for the provider and for the contract. It is a dotted
name exactly where both types can be named: the short name of each has a letter and no number before
it, or it has neither and so has that of another type in the same role, which puts an underscore and
digits in its place: `scopes_dotted_iff`.
-/

namespace Interpose.Naming

/-! ### Short names -/

/-- The short name that a type goes by, which is that of its first reference. -/
def shortName (types : List TypeRef) (fullName : String) : Option String :=
  (types.find? (·.fullName == fullName)).map (·.shortName)

/-- The first letter or number of a type's short name. -/
def initial (types : List TypeRef) (fullName : String) : Option Char :=
  (shortName types fullName).bind fun short => short.toList.find? Text.alphanumeric

/-- The segment of a type is an identifier. -/
def Nameable (types : List TypeRef) (fullName : String) : Prop :=
  match initial types fullName with
  | some c => Text.alphabetic c
  | none => ∃ other ∈ types, other.fullName ≠ fullName ∧ initial types other.fullName = none

instance (types : List TypeRef) (fullName : String) : Decidable (Nameable types fullName) :=
  match first : initial types fullName with
  | some c => decidable_of_iff (Text.alphabetic c) (by rw [Nameable, first])
  | none =>
    decidable_of_iff
      (∃ other ∈ types, other.fullName ≠ fullName ∧ initial types other.fullName = none)
      (by rw [Nameable, first])

theorem lookup_enlist (entries : List Entry) (type : TypeRef) (name : String) :
    (enlist entries type).lookup name = (entries.lookup name).or
      (if type.fullName == name then some (Text.segment type.shortName) else none) := by
  unfold enlist
  split
  · rename_i listed
    split
    · rename_i same
      -- A listed name keeps the short name that it has.
      have known : name ∈ entries.map (·.1) := eq_of_beq same ▸ any_iff.mp listed
      cases found : entries.lookup name with
      | some short => rfl
      | none =>
        obtain ⟨entry, member, rfl⟩ := List.mem_map.mp known
        exact absurd (List.lookup_eq_none_iff.mp found entry member) (by simp)
    · rw [Option.or_none]
  · rw [List.lookup_append, List.lookup_cons, List.lookup_nil, BEq.comm]
    cases type.fullName == name <;> rfl

theorem lookup_roster (types : List TypeRef) (name : String) :
    (roster types).lookup name = (shortName types name).map Text.segment := by
  rw [roster_eq_foldl]
  suffices general : ∀ entries : List Entry, (types.foldl enlist entries).lookup name =
      (entries.lookup name).or ((shortName types name).map Text.segment) from general []
  unfold shortName
  induction types with
  | nil => simp
  | cons type types ih =>
    intro entries
    rw [List.foldl_cons, ih, lookup_enlist, List.find?_cons, Option.or_assoc]
    congr 1
    cases type.fullName == name <;> simp

variable {types : List TypeRef}

theorem initial_of_mem {name short : String} (member : (name, short) ∈ roster types) :
    initial types name = short.toList.head? := by
  have found := lookup_of_mem (roster_nodup types) member
  rw [lookup_roster] at found
  obtain ⟨plain, goes, rfl⟩ := Option.map_eq_some_iff.mp found
  rw [initial, goes, Option.bind_some, Text.head?_segment]

/-! ### Segments -/

/-- A segment begins with the first letter or number of the short name. Where there is none, it is
empty, or an underscore with digits. -/
theorem head?_segmentOf {name short : String} (member : (name, short) ∈ roster types)
    (length : Nat) : (segmentOf (roster types) length name).toList.head? =
      (initial types name).or
        (if 1 < (roster types).countP (·.2 == short) then some '_' else none) := by
  rw [initial_of_mem member]
  split
  · rename_i shared
    rw [segmentOf_marked (roster_nodup types) member shared]
    simp [List.head?_append]
  · rename_i alone
    rw [segmentOf_plain (roster_nodup types) member alone, Option.or_none]

theorem opens_initial {name : String} {c : Char} (first : initial types name = some c) :
    Text.opens c = Text.alphabetic c := by
  obtain ⟨short, _, found⟩ := Option.bind_eq_some_iff.mp first
  have apart : c ≠ '_' := Text.ne_underscore (List.find?_some found)
  simp [Text.opens, apart]

/-- The types with neither a letter nor a number in their short names share the empty segment. -/
theorem shared_bare_iff {name : String} (member : (name, "") ∈ roster types) :
    1 < (roster types).countP (·.2 == "") ↔
      ∃ other ∈ types, other.fullName ≠ name ∧ initial types other.fullName = none := by
  rw [shared_iff (roster_nodup types) member]
  constructor
  · rintro ⟨other, apart, listed⟩
    obtain ⟨type, known, same⟩ := mem_roster listed
    obtain ⟨rfl, _⟩ := Prod.mk.inj same
    exact ⟨type, known, apart, by rw [initial_of_mem listed]; rfl⟩
  · rintro ⟨other, known, apart, bare⟩
    obtain ⟨⟨full, short⟩, listed, named⟩ := List.mem_map.mp (listed_roster known)
    obtain rfl : full = other.fullName := named
    rw [initial_of_mem listed, List.head?_eq_none_iff, String.toList_eq_nil_iff] at bare
    exact ⟨other.fullName, apart, bare ▸ listed⟩

theorem dotted_segmentOf_iff {type : TypeRef} (member : type ∈ types) (length : Nat) :
    Text.dotted (segmentOf (roster types) length type.fullName) ↔
      Nameable types type.fullName := by
  obtain ⟨⟨name, short⟩, listed, named⟩ := List.mem_map.mp (listed_roster member)
  obtain rfl : name = type.fullName := named
  rw [Text.dotted_of_follows fun _ => follows_of_mem_segmentOf, head?_segmentOf listed, Nameable]
  cases first : initial types type.fullName with
  | some c => rw [Option.some_or, Option.any_some, opens_initial first]
  | none =>
    have bare : short = "" := by
      rwa [initial_of_mem listed, List.head?_eq_none_iff, String.toList_eq_nil_iff] at first
    subst bare
    change _ ↔ ∃ other ∈ types, other.fullName ≠ type.fullName ∧ initial types other.fullName = none
    rw [Option.none_or, ← shared_bare_iff listed]
    split
    · rename_i shared
      exact iff_of_true rfl shared
    · rename_i alone
      exact iff_of_false Bool.false_ne_true alone

/-! ### Scopes -/

section

variable {settings : Settings} {plans : List ProxyPlan}

/-- With settings that pass the check, the scopes are dotted names exactly where the provider and
the contract of every plan can be named. -/
theorem scopes_dotted_iff (accepted : settings.check = .ok ()) :
    (∀ identity ∈ identities settings plans, Text.dotted identity.scope) ↔
      ∀ plan ∈ plans, Nameable (plans.map (·.provider)) plan.provider.fullName ∧
        Nameable (plans.map (·.contract)) plan.contract.fullName := by
  have root := Settings.dotted_of_check accepted ("root_namespace", settings.rootNamespace)
    (by simp [Settings.dottedFields])
  rw [identities_eq, List.forall_mem_map]
  refine forall₂_congr fun plan member => ?_
  rw [Text.dotted_append, Text.dotted_append, Bool.and_eq_true, Bool.and_eq_true,
    and_assoc, and_iff_right root]
  exact and_congr (dotted_segmentOf_iff (List.mem_map_of_mem member) _)
    (dotted_segmentOf_iff (List.mem_map_of_mem member) _)

end

/-- Providers with these short names for one contract. -/
def plansOf (shortNames : List String) : List ProxyPlan :=
  shortNames.map fun name =>
    ⟨.named "global::App.IService" "IService", .named ("global::App." ++ name) name,
      [], [], [], none⟩

/-- Two bare short names leave each other with digits; a number in front is in the way. -/
theorem scopes_plansOf : ({} : Settings).check = .ok () ∧
    (∀ identity ∈ identities {} (plansOf ["Logging", "_", "__"]), Text.dotted identity.scope) ∧
    ¬ ∀ identity ∈ identities {} (plansOf ["_", "_1"]), Text.dotted identity.scope := by
  refine ⟨Settings.check_default, ?_, ?_⟩
  · rw [scopes_dotted_iff Settings.check_default]
    decide +kernel
  · rw [scopes_dotted_iff Settings.check_default]
    decide +kernel

end Interpose.Naming
