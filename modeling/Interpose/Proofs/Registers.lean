import Interpose.Proofs.Firsts
import Interpose.Register
import Mathlib.Data.Finset.Card
import Mathlib.Data.Finset.Dedup

/-!
# Registers

The slots of a register stay in step with its definitions, whatever is put in. A name then leads to
the last definition of it, and the slots are in the order in which their names came up:
`faithful_foldl_insert`.
-/

namespace Interpose

/-- The last of some definitions with that name. -/
def TypeDef.lastNamed (name : String) (history : List TypeDef) : Option TypeDef :=
  history.reverse.find? (·.name == name)

theorem TypeDef.lastNamed_concat (name : String) (history : List TypeDef) (type : TypeDef) :
    lastNamed name (history ++ [type]) =
      if type.name = name then some type else lastNamed name history := by
  rw [lastNamed, List.reverse_concat, List.find?_cons]
  by_cases same : type.name = name
  · simp [same]
  · simp [same, lastNamed, beq_eq_false_iff_ne.mpr same]

namespace Register

variable {register : Register}

def names (register : Register) : List String := register.types.map TypeDef.name

/-- A name has a slot exactly where a definition of that name is in it. -/
def Indexed (register : Register) : Prop :=
  ∀ name slot, register.slot? name = some slot ↔ register.names[slot]? = some name

theorem indexed_empty : Indexed empty := by
  intro name slot
  simp [slot?, names, empty]

theorem mem_names (indexed : register.Indexed) {name : String} :
    name ∈ register.names ↔ ∃ slot, register.slot? name = some slot := by
  rw [List.mem_iff_getElem?]
  exact exists_congr fun slot => (indexed name slot).symm

theorem slot?_eq_none (indexed : register.Indexed) {name : String} :
    register.slot? name = none ↔ name ∉ register.names := by
  rw [mem_names indexed, ← Option.ne_none_iff_exists', not_not]

theorem slot_unique (indexed : register.Indexed) {name : String} {first second : Nat}
    (one : register.names[first]? = some name) (other : register.names[second]? = some name) :
    first = second :=
  Option.some.inj (((indexed _ _).mpr one).symm.trans ((indexed _ _).mpr other))

theorem names_nodup (indexed : register.Indexed) : register.names.Nodup := by
  rw [List.nodup_iff_getElem?_ne_getElem?]
  intro first second before bound same
  have found := List.getElem?_eq_getElem bound
  exact Nat.ne_of_lt before (slot_unique indexed (same.trans found) found)

/-- A slot is never that of another name, and never out of range. -/
theorem resolve_of_slot (indexed : register.Indexed) {name : String} {slot : Nat}
    (place : register.slot? name = some slot) :
    ∃ type, register.resolve name = some type ∧ type.name = name := by
  have held := (indexed name slot).mp place
  rw [names, List.getElem?_map, Option.map_eq_some_iff] at held
  obtain ⟨type, at_slot, named⟩ := held
  exact ⟨type, by rw [resolve, place, Option.bind_some, at_slot], named⟩

/-! ### Putting a definition in -/

theorem insert_known {type : TypeDef} {slot : Nat}
    (known : register.slot? type.name = some slot) :
    register.insert type = { register with types := register.types.set slot type } := by
  rw [insert, known]

theorem insert_new {type : TypeDef} (new : register.slot? type.name = none) :
    register.insert type =
      ⟨register.types ++ [type], (type.name, register.types.length) :: register.slots⟩ := by
  rw [insert, new]

theorem names_insert (indexed : register.Indexed) (type : TypeDef) :
    (register.insert type).names =
      if type.name ∈ register.names then register.names else register.names ++ [type.name] := by
  cases place : register.slot? type.name with
  | some slot =>
    obtain ⟨bound, held⟩ := List.getElem?_eq_some_iff.mp ((indexed _ _).mp place)
    rw [if_pos ((mem_names indexed).mpr ⟨slot, place⟩), insert_known place, names, List.map_set,
      ← held]
    exact List.set_getElem_self bound
  | none =>
    rw [if_neg ((slot?_eq_none indexed).mp place), insert_new place, names, List.map_append]
    rfl

theorem getElem?_concat_eq_some {α : Type} {xs : List α} {x y : α} {index : Nat} :
    (xs ++ [x])[index]? = some y ↔ xs[index]? = some y ∨ (index = xs.length ∧ x = y) := by
  rw [List.getElem?_append]
  split
  · rename_i within
    simp [Nat.ne_of_lt within]
  · rename_i beyond
    rw [List.getElem?_eq_none (Nat.le_of_not_lt beyond), List.getElem?_singleton]
    split
    · simp [show index = xs.length by omega]
    · simp [show index ≠ xs.length by omega]

theorem indexed_insert (indexed : register.Indexed) (type : TypeDef) :
    (register.insert type).Indexed := by
  intro name slot
  rw [names_insert indexed]
  cases place : register.slot? type.name with
  | some held =>
    rw [if_pos ((mem_names indexed).mpr ⟨held, place⟩), insert_known place]
    exact indexed name slot
  | none =>
    have fresh := (slot?_eq_none indexed).mp place
    rw [if_neg fresh, insert_new place, getElem?_concat_eq_some, slot?, List.lookup_cons]
    by_cases same : type.name = name
    · subst same
      have unheld : register.names[slot]? ≠ some type.name :=
        fun held => fresh (List.mem_of_getElem? held)
      have size : register.names.length = register.types.length := List.length_map _
      simp [unheld, size, eq_comm]
    · rw [beq_eq_false_iff_ne.mpr (Ne.symm same)]
      simp [same, ← indexed name slot, slot?]

/-- The definition that was put in is found, and every other name leads where it led before. -/
theorem resolve_insert (indexed : register.Indexed) (type : TypeDef) (name : String) :
    (register.insert type).resolve name =
      if type.name = name then some type else register.resolve name := by
  cases place : register.slot? type.name with
  | some held =>
    rw [insert_known place, resolve, resolve]
    change (register.slot? name).bind _ = _
    by_cases same : type.name = name
    · subst same
      obtain ⟨bound, _⟩ := List.getElem?_eq_some_iff.mp ((indexed _ _).mp place)
      rw [names, List.length_map] at bound
      rw [place, if_pos rfl, Option.bind_some, List.getElem?_set_self bound]
    · rw [if_neg same]
      refine Option.bind_congr fun slot found => ?_
      have apart : held ≠ slot := by
        rintro rfl
        have one := (indexed _ _).mp place
        rw [(indexed _ _).mp found] at one
        exact same (Option.some.inj one).symm
      exact List.getElem?_set_ne apart
  | none =>
    rw [insert_new place, resolve, slot?, List.lookup_cons]
    by_cases same : type.name = name
    · subst same
      simp
    · rw [beq_eq_false_iff_ne.mpr (Ne.symm same), if_neg same, resolve]
      refine Option.bind_congr fun slot found => ?_
      obtain ⟨bound, _⟩ := List.getElem?_eq_some_iff.mp ((indexed _ _).mp found)
      rw [names, List.length_map] at bound
      exact List.getElem?_append_left bound

/-! ### Histories -/

theorem indexed_foldl (indexed : register.Indexed) (types : List TypeDef) :
    (types.foldl insert register).Indexed := by
  induction types generalizing register with
  | nil => exact indexed
  | cons type rest ih => exact ih (indexed_insert indexed type)

theorem indexed_ofList (types : List TypeDef) : (ofList types).Indexed :=
  indexed_foldl indexed_empty types

theorem ofList_concat (history : List TypeDef) (type : TypeDef) :
    ofList (history ++ [type]) = (ofList history).insert type :=
  List.foldl_concat ..

theorem names_ofList (history : List TypeDef) :
    (ofList history).names = (history.map TypeDef.name).eraseDups := by
  induction history using List.reverseRecOn with
  | nil => rfl
  | append_singleton history type ih =>
    rw [ofList_concat, names_insert (indexed_ofList history), ih, List.map_append,
      List.map_singleton, eraseDups_concat]

theorem resolve_ofList (history : List TypeDef) (name : String) :
    (ofList history).resolve name = TypeDef.lastNamed name history := by
  induction history using List.reverseRecOn with
  | nil => rfl
  | append_singleton history type ih =>
    rw [ofList_concat, resolve_insert (indexed_ofList history), ih, TypeDef.lastNamed_concat]

theorem size_ofList (history : List TypeDef) :
    (ofList history).size = (history.map TypeDef.name).toFinset.card := by
  have distinct := names_nodup (indexed_ofList history)
  have same : (ofList history).names.toFinset = (history.map TypeDef.name).toFinset := by
    ext name
    rw [List.mem_toFinset, names_ofList, List.mem_eraseDups, List.mem_toFinset]
  rw [← same, List.toFinset_card_of_nodup distinct, names, List.length_map]
  rfl

/-! ### There and back -/

theorem types_foldl_fresh {types : List TypeDef} (indexed : register.Indexed)
    (fresh : (register.names ++ types.map TypeDef.name).Nodup) :
    (types.foldl insert register).types = register.types ++ types := by
  induction types generalizing register with
  | nil => exact (List.append_nil _).symm
  | cons type rest ih =>
    have new : type.name ∉ register.names := by
      intro known
      exact (List.nodup_append.mp fresh).2.2 _ known _ List.mem_cons_self rfl
    have grown := names_insert indexed type
    rw [if_neg new] at grown
    have added := insert_new ((slot?_eq_none indexed).mpr new)
    rw [List.foldl_cons, ih (indexed_insert indexed type) (by simpa [grown] using fresh), added]
    simp

/-- The definitions of a register make up the same register. -/
theorem types_ofList (indexed : register.Indexed) :
    (ofList register.types).types = register.types :=
  types_foldl_fresh indexed_empty (names_nodup indexed)

theorem slot?_congr {other : Register} (indexed : register.Indexed) (otherIndexed : other.Indexed)
    (same : other.types = register.types) (name : String) :
    other.slot? name = register.slot? name := by
  refine Option.ext fun slot => ?_
  rw [indexed name slot, otherIndexed name slot, names, names, same]

/-- A search among the definitions ends at the slot of the name. -/
theorem resolve_catalog (indexed : register.Indexed) (name : String) :
    register.catalog.resolve name = register.resolve name := by
  have found : register.catalog.slot? name = register.slot? name := by
    refine Option.ext fun slot => ?_
    rw [Catalog.slot?, List.findIdx?_eq_some_iff_getElem, indexed name slot, names,
      List.getElem?_map, Option.map_eq_some_iff]
    constructor
    · rintro ⟨bound, named, _⟩
      exact ⟨_, List.getElem?_eq_getElem bound, eq_of_beq named⟩
    · rintro ⟨type, held, rfl⟩
      obtain ⟨bound, rfl⟩ := List.getElem?_eq_some_iff.mp held
      refine ⟨bound, beq_self_eq_true _, fun earlier before named => ?_⟩
      have same : register.types[earlier].name = register.types[slot].name := eq_of_beq named
      have place : register.names[earlier]? = some register.types[slot].name := by
        rw [names, List.getElem?_map, List.getElem?_eq_getElem (Nat.lt_trans before bound),
          Option.map_some, same]
      have other : register.names[slot]? = some register.types[slot].name := by
        rw [names, List.getElem?_map, held, Option.map_some]
      exact Nat.ne_of_lt before (slot_unique indexed place other)
  rw [Catalog.resolve, found]
  rfl

theorem resolve_congr {other : Register} (indexed : register.Indexed)
    (otherIndexed : other.Indexed) (same : other.types = register.types) (name : String) :
    other.resolve name = register.resolve name := by
  rw [resolve, slot?_congr indexed otherIndexed same, same]
  rfl

/-- What a register is after the definitions of a history were put in, in that order. -/
structure Faithful (history : List TypeDef) (register : Register) : Prop where
  indexed : ∀ name slot, register.slot? name = some slot ↔
    ∃ type, register.types[slot]? = some type ∧ type.name = name
  found : ∀ name slot, register.slot? name = some slot →
    ∃ type, register.resolve name = some type ∧ type.name = name
  resolve : ∀ name, register.resolve name = TypeDef.lastNamed name history
  size : register.size = (history.map TypeDef.name).toFinset.card
  order : register.types.map TypeDef.name = (history.map TypeDef.name).eraseDups
  types_again : (ofList register.types).types = register.types
  slot?_again : ∀ name, (ofList register.types).slot? name = register.slot? name
  resolve_again : ∀ name, (ofList register.types).resolve name = register.resolve name
  catalog : ∀ name, register.catalog.resolve name = register.resolve name

/-- However definitions are put into a register, all of a list at once or one by one behind it, the
register is that of its history. -/
theorem faithful_foldl_insert (given inserted : List TypeDef) :
    Faithful (given ++ inserted) (inserted.foldl insert (ofList given)) := by
  have whole : inserted.foldl insert (ofList given) = ofList (given ++ inserted) :=
    List.foldl_append.symm
  have indexed := indexed_ofList (given ++ inserted)
  have again := types_ofList indexed
  have indexedAgain := indexed_ofList (ofList (given ++ inserted)).types
  rw [whole]
  refine {
    indexed := fun name slot => ?_
    found := fun _ _ => resolve_of_slot indexed
    resolve := resolve_ofList _
    size := size_ofList _
    order := names_ofList _
    types_again := again
    slot?_again := slot?_congr indexed indexedAgain again
    resolve_again := resolve_congr indexed indexedAgain again
    catalog := resolve_catalog indexed }
  rw [indexed name slot, names, List.getElem?_map, Option.map_eq_some_iff]

end Register

/-- In the catalog of some definitions a name leads to the last definition of it. -/
theorem Catalog.resolve_ofList (history : List TypeDef) (name : String) :
    (ofList history).resolve name = TypeDef.lastNamed name history := by
  rw [ofList, Register.resolve_catalog (Register.indexed_ofList history), Register.resolve_ofList]

end Interpose
