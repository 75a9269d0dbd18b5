import Interpose.Proofs.Walks
import Mathlib.Logic.Function.Iterate

/-!
# Preorder

The closure of a contract is what visiting it recursively writes, however often interfaces meet
again or lead in circles. A loop over a stack of definitions comes to it in as many steps as
definitions are put on the stack: `closure_preorder`.
-/

namespace Interpose.Catalog

/-- Visits definitions one after another and writes them: a definition whose name was visited is
passed over, any other is written, and then all that it leads to is visited before the rest. -/
inductive Visits (catalog : Catalog) (next : TypeDef → List String) :
    List String → List TypeDef → List TypeDef → Prop
  | nil {seen : List String} : Visits catalog next seen [] []
  | again {seen : List String} {type : TypeDef} {rest order : List TypeDef}
      (visited : type.name ∈ seen) (others : Visits catalog next seen rest order) :
      Visits catalog next seen (type :: rest) order
  | first {seen : List String} {type : TypeDef} {rest order more : List TypeDef}
      (fresh : type.name ∉ seen)
      (below : Visits catalog next (seen ++ [type.name]) (catalog.followers next type) order)
      (others : Visits catalog next (seen ++ (type :: order).map TypeDef.name) rest more) :
      Visits catalog next seen (type :: rest) (type :: order ++ more)

variable {catalog : Catalog} {next : TypeDef → List String} {seen : List String}

/-! ### Walks are visits -/

theorem Visits.split {types behind order : List TypeDef}
    (visits : catalog.Visits next seen (types ++ behind) order) :
    ∃ before after, order = before ++ after ∧ catalog.Visits next seen types before ∧
      catalog.Visits next (seen ++ before.map TypeDef.name) behind after := by
  induction types generalizing seen order with
  | nil => exact ⟨[], order, rfl, .nil, by rwa [List.map_nil, List.append_nil]⟩
  | cons type types ih =>
    cases visits with
    | again visited others =>
      obtain ⟨before, after, same, here, there⟩ := ih others
      exact ⟨before, after, same, .again visited here, there⟩
    | first fresh below others =>
      obtain ⟨before, after, rfl, here, there⟩ := ih others
      refine ⟨_, after, (List.append_assoc _ _ _).symm, .first fresh below here, ?_⟩
      rwa [List.map_append, ← List.append_assoc]

theorem visits_walk {visited pending : List String}
    (same : ∀ name, name ∈ visited ↔ name ∈ seen) :
    catalog.Visits next visited (pending.filterMap catalog.resolve)
      (catalog.walk next seen pending) := by
  fun_induction walk catalog next seen pending generalizing visited with
  | case1 => exact .nil
  | case2 seen name rest known ih =>
    cases found : catalog.resolve name with
    | none =>
      rw [List.filterMap_cons_none found]
      exact ih same
    | some type =>
      rw [List.filterMap_cons_some found]
      refine .again ?_ (ih same)
      rw [(resolve_eq_some found).2]
      exact (same name).mpr known
  | case3 seen name rest fresh unknown ih =>
    rw [List.filterMap_cons_none unknown]
    exact ih same
  | case4 seen name rest fresh type found ih =>
    have named := (resolve_eq_some found).2
    have ahead := @ih (visited ++ [type.name]) fun other => by simp [same, named, or_comm]
    -- What the definition leads to is walked before the rest, so the visits fall in two parts.
    rw [List.filterMap_append] at ahead
    obtain ⟨order, more, cut, below, others⟩ := ahead.split
    rw [List.filterMap_cons_some found, cut]
    refine .first ?_ below ?_
    · rw [named]
      exact fun known => fresh ((same name).mp known)
    · rwa [List.map_cons, List.append_cons]

theorem visits_walkFrom (catalog : Catalog) (next : TypeDef → List String) (start : TypeDef) :
    catalog.Visits next [] [start] (catalog.walkFrom next start) := by
  have below : catalog.Visits next [start.name] (catalog.followers next start)
      (catalog.walk next [start.name] (next start)) := visits_walk fun _ => Iff.rfl
  have visits : catalog.Visits next [] [start] (_ ++ []) := .first List.not_mem_nil below .nil
  rwa [List.append_nil] at visits

/-! ### The loop -/

/-- A loop over a stack of definitions: the names that it has met, what it has written, and the
stack, its top first. -/
structure Loop where
  seen : List String
  order : List TypeDef
  stack : List TypeDef

namespace Loop

def start (type : TypeDef) : Loop := ⟨[], [], [type]⟩

/-- Takes the top off the stack. A definition whose name is new is written, and all that it leads to
goes on the stack, the first on top. -/
def step (catalog : Catalog) (next : TypeDef → List String) (loop : Loop) : Loop :=
  match loop.stack with
  | [] => loop
  | type :: rest =>
    if type.name ∈ loop.seen then { loop with stack := rest }
    else ⟨loop.seen ++ [type.name], loop.order ++ [type], catalog.followers next type ++ rest⟩

variable {written rest : List TypeDef} {type : TypeDef}

theorem step_again (visited : type.name ∈ seen) :
    step catalog next ⟨seen, written, type :: rest⟩ = ⟨seen, written, rest⟩ :=
  if_pos visited

theorem step_first (fresh : type.name ∉ seen) :
    step catalog next ⟨seen, written, type :: rest⟩ =
      ⟨seen ++ [type.name], written ++ [type], catalog.followers next type ++ rest⟩ :=
  if_neg fresh

theorem step_done : step catalog next ⟨seen, written, []⟩ = ⟨seen, written, []⟩ := rfl

end Loop

/-- How many definitions these lead to, each counted as often as it is led to. -/
def followed (catalog : Catalog) (next : TypeDef → List String) (types : List TypeDef) : Nat :=
  (types.flatMap (catalog.followers next)).length

/-- With definitions on top of the stack, the loop writes what visits to them write and comes down
to what lies below. -/
theorem Visits.loop {types order : List TypeDef} (visits : catalog.Visits next seen types order)
    (written stack : List TypeDef) :
    (Loop.step catalog next)^[types.length + catalog.followed next order]
        ⟨seen, written, types ++ stack⟩ =
      ⟨seen ++ order.map TypeDef.name, written ++ order, stack⟩ := by
  induction visits generalizing written stack with
  | nil => simp [followed]
  | @again seen type rest order visited _ ih =>
    have count : (type :: rest).length + catalog.followed next order =
        (rest.length + catalog.followed next order) + 1 := by
      rw [List.length_cons]
      omega
    rw [count, Function.iterate_succ_apply, List.cons_append, Loop.step_again visited, ih]
  | @first seen type rest order more fresh _ _ below others =>
    have count : (type :: rest).length + catalog.followed next (type :: order ++ more) =
        (rest.length + catalog.followed next more) +
          ((catalog.followers next type).length + catalog.followed next order) + 1 := by
      simp [followed]
      omega
    -- Of the steps behind the first, those for what the definition leads to come before the rest.
    rw [count, Function.iterate_succ_apply, Function.iterate_add_apply, List.cons_append,
      Loop.step_first fresh, below]
    have back := others (written ++ [type] ++ order) stack
    simpa using back

/-- Visits write one list, since the loop does. -/
theorem Visits.unique {types order other : List TypeDef}
    (one : catalog.Visits next seen types order) (two : catalog.Visits next seen types other) :
    order = other := by
  have first := congrArg ((Loop.step catalog next)^[types.length + catalog.followed next other])
    (one.loop [] [])
  have second := congrArg ((Loop.step catalog next)^[types.length + catalog.followed next order])
    (two.loop [] [])
  rw [Function.iterate_fixed Loop.step_done, ← Function.iterate_add_apply] at first second
  rw [Nat.add_comm, second] at first
  simpa using (Loop.mk.inj first).2.1.symm

/-- The closure of a contract is its recursive preorder, and what the loop has written when its
stack is empty. It begins with the contract, holds no name twice, and holds what the contract
inherits. -/
theorem closure_preorder {catalog : Catalog} {contract : TypeDef}
    (listed : catalog.resolve contract.name = some contract) :
    (∀ order, catalog.Visits interfaceNames [] [contract] order ↔
      order = catalog.closure contract) ∧
    (∃ seen, (Loop.step catalog interfaceNames)^[
        1 + catalog.followed interfaceNames (catalog.closure contract)] (.start contract) =
      ⟨seen, catalog.closure contract, []⟩) ∧
    (catalog.closure contract).head? = some contract ∧
    ((catalog.closure contract).map TypeDef.name).Nodup ∧
    ∀ type, type ∈ catalog.closure contract ↔ Relation.ReflTransGen
      (fun type other => other ∈ catalog.followers interfaceNames type) contract type := by
  have visits := visits_walkFrom catalog interfaceNames contract
  refine ⟨fun order => ⟨fun other => other.unique visits, ?_⟩, ⟨_, visits.loop [] []⟩, rfl,
    walkFrom_nodup catalog interfaceNames contract, fun type => mem_walkFrom_iff listed⟩
  rintro rfl
  exact visits

def ringInterface (name : String) (inherited : List String) : TypeDef :=
  let reference (name : String) := TypeRef.named ("global::App." ++ name) name
  { TypeDef.bare (reference name) .interface with interfaces := inherited.map reference }

def ringTop : TypeDef := ringInterface "ITop" ["ILeft", "IRight"]

/-- Two interfaces that meet again in a third, which leads back to the first. -/
def ringCatalog : Catalog :=
  ⟨[ringTop, ringInterface "ILeft" ["IRoot"], ringInterface "IRight" ["IMissing", "IRoot"],
    ringInterface "IRoot" ["ITop"]]⟩

theorem closure_ring : ringCatalog.resolve ringTop.name = some ringTop ∧
    (ringCatalog.closure ringTop).map (·.reference.shortName) =
      ["ITop", "ILeft", "IRoot", "IRight"] ∧
    (∀ order, ringCatalog.Visits interfaceNames [] [ringTop] order ↔
      order = ringCatalog.closure ringTop) ∧
    (∃ seen, (Loop.step ringCatalog interfaceNames)^[6] (.start ringTop) =
      ⟨seen, ringCatalog.closure ringTop, []⟩) := by
  have listed : ringCatalog.resolve ringTop.name = some ringTop := rfl
  obtain ⟨visits, loops, _⟩ := closure_preorder listed
  have count : 1 + ringCatalog.followed interfaceNames (ringCatalog.closure ringTop) = 6 := by
    decide +kernel
  exact ⟨listed, by decide +kernel, visits, count ▸ loops⟩

end Interpose.Catalog
