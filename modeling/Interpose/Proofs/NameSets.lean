import Interpose.Model.NameSet
import Mathlib.Data.List.Sort
import Mathlib.Data.String.Basic

/-!
# Sets of names

A set that was built by insertion is ascending, and two ascending sets with the same members are
the same: `eq_of_mem_iff`.
-/

namespace Interpose.NameSet

theorem mem_place {name other : String} {names : List String} :
    other ∈ place name names ↔ other = name ∨ other ∈ names := by
  induction names with
  | nil => simp [place]
  | cons head rest ih =>
    rw [place]
    split
    · simp
    · split
      · rename_i same
        simp [same]
      · rw [List.mem_cons, ih, List.mem_cons]
        exact or_left_comm

theorem place_ascending {names : List String} (ascending : names.Pairwise (· < ·))
    (name : String) : (place name names).Pairwise (· < ·) := by
  induction names with
  | nil => simp [place]
  | cons head rest ih =>
    obtain ⟨below, sorted⟩ := List.pairwise_cons.mp ascending
    rw [place]
    split
    · rename_i before
      refine List.pairwise_cons.mpr ⟨fun other member => ?_, ascending⟩
      rcases List.mem_cons.mp member with rfl | member
      · exact before
      · exact String.lt_trans before (below other member)
    · rename_i notBefore
      split
      · exact ascending
      · rename_i apart
        have behind : head < name := lt_of_le_of_ne (not_lt.mp notBefore) (Ne.symm apart)
        refine List.pairwise_cons.mpr ⟨fun other member => ?_, ih sorted⟩
        rcases mem_place.mp member with rfl | member
        · exact behind
        · exact below other member

/-- The members stand in ascending order. -/
def Ascending (set : NameSet) : Prop := set.names.Pairwise (· < ·)

theorem Ascending.eq_of_mem_iff {a b : NameSet} (first : a.Ascending) (second : b.Ascending)
    (same : ∀ name, name ∈ a.names ↔ name ∈ b.names) : a = b := by
  have names : a.names = b.names := List.Pairwise.eq_of_mem_iff first second same
  cases a
  cases b
  rw [NameSet.mk.injEq]
  exact names

theorem mem_foldl_insert {names : List String} {set : NameSet} {name : String} :
    name ∈ (names.foldl insert set).names ↔ name ∈ set.names ∨ name ∈ names := by
  induction names generalizing set with
  | nil => simp
  | cons head rest ih =>
    rw [List.foldl_cons, ih, insert, mem_place, List.mem_cons, or_assoc]
    exact or_left_comm

theorem foldl_insert_ascending {set : NameSet} (ascending : set.Ascending)
    (names : List String) : (names.foldl insert set).Ascending := by
  induction names generalizing set with
  | nil => exact ascending
  | cons head rest ih => exact ih (place_ascending ascending head)

theorem ofList_ascending (names : List String) : (ofList names).Ascending :=
  foldl_insert_ascending List.Pairwise.nil names

@[simp] theorem mem_ofList {names : List String} {name : String} :
    name ∈ (ofList names).names ↔ name ∈ names := by
  simp [ofList, mem_foldl_insert, empty]

theorem Ascending.ofList_names {set : NameSet} (ascending : set.Ascending) :
    ofList set.names = set :=
  (ofList_ascending set.names).eq_of_mem_iff ascending fun _ => mem_ofList

theorem union_ascending {a : NameSet} (ascending : a.Ascending) (b : NameSet) :
    (a.union b).Ascending :=
  foldl_insert_ascending ascending b.names

@[simp] theorem mem_union {a b : NameSet} {name : String} :
    name ∈ (a.union b).names ↔ name ∈ a.names ∨ name ∈ b.names :=
  mem_foldl_insert

end Interpose.NameSet
