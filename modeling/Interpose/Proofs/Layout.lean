import Interpose.Proofs.Rows
import Interpose.Text.Identifier

/-!
# Layouts

A method is written with names of its own next to those of its parameters. A layout says what holds
of them, which is all that a call of the underlying object depends on: `invoke_eq`.
-/

namespace Interpose.Execution

open Proxy

variable {V : Type}

/-! ### Layouts -/

/-- A name of letters, digits and underscores. -/
def PlainName (name : String) : Prop := name ≠ "" ∧ ∀ c ∈ name.toList, Text.follows c

instance (name : String) : Decidable (PlainName name) :=
  decidable_of_iff (name ≠ "" ∧ name.toList.all Text.follows) (by rw [List.all_eq_true]; rfl)

theorem PlainName.unsigned {name : String} (plain : PlainName name) :
    name.toList.head? ≠ some '@' := by
  intro signed
  have letter := plain.2 '@' (List.mem_of_head? signed)
  exact absurd letter (by decide)

/-- Parameters with plain names, each once. -/
structure Declarable (parameters : List Parameter) : Prop where
  distinct : (parameters.map (·.name)).Nodup
  plain : ∀ parameter ∈ parameters, PlainName parameter.name

/-- The names with which a method is written, and what holds of them. -/
structure Layout (method : Method) where
  locals : Locals
  parameters : (MethodImpl.withTemporaries method locals).map (·.1) = method.parameters
  aligned : Aligned (MethodImpl.withTemporaries method locals).zipIdx
  spelled : ∀ name ∈ locals.names, identified name = some name
  distinct : (locals.names ++ method.parameters.map (·.name)).Nodup

theorem withTemporaries_parameters (method : Method) :
    (MethodImpl.withTemporaries method (.ofParameters method.parameters)).map (·.1) =
      method.parameters :=
  List.map_fst_zip (Nat.le_of_eq (Locals.temporariesFrom_length _ _ _).symm)

theorem withTemporaries_given (method : Method) :
    (MethodImpl.withTemporaries method (.ofParameters method.parameters)).zipIdx.filterMap
        Row.temporary = Locals.given (Locals.ofParameters method.parameters).temporaries := by
  have temporaries : (MethodImpl.withTemporaries method
      (.ofParameters method.parameters)).map (·.2) =
        (Locals.ofParameters method.parameters).temporaries :=
    List.map_snd_zip (Nat.le_of_eq (Locals.temporariesFrom_length _ _ _))
  rw [Locals.given, ← temporaries, List.filterMap_map, ← List.zipIdx_map_fst 0
    (MethodImpl.withTemporaries _ _), List.filterMap_map, List.zipIdx_map_fst]
  rfl

theorem withTemporaries_aligned {method : Method} (declarable : Declarable method.parameters) :
    Aligned (MethodImpl.withTemporaries method (.ofParameters method.parameters)).zipIdx where
  needed row member :=
    Locals.temporariesFrom_isSome _ 0 method.parameters row.1
      (List.fst_mem_of_mem_zipIdx member)
  named row member := by
    have pair := List.fst_mem_of_mem_zipIdx member
    exact identified_identifier (declarable.plain _ (List.of_mem_zip pair).1).unsigned
  spelled name member := by
    rw [withTemporaries_given] at member
    exact identified_locals method.parameters name (by simp [Locals.names, member])
  names_nodup := by
    have names := declarable.distinct
    rw [← withTemporaries_parameters method, ← List.zipIdx_map_fst 0
      (MethodImpl.withTemporaries _ _), List.map_map, List.map_map] at names
    exact names
  temporaries_nodup := by
    rw [withTemporaries_given]
    exact Locals.temporariesFrom_nodup _ 0 method.parameters

namespace Layout

variable {plan : ProxyPlan} {method : Method}

def ofMethod (declarable : Declarable method.parameters) : Layout method where
  locals := .ofParameters method.parameters
  parameters := withTemporaries_parameters method
  aligned := withTemporaries_aligned declarable
  spelled := identified_locals method.parameters
  distinct := Locals.ofParameters_nodup declarable.distinct

abbrev rows (layout : Layout method) : List Row :=
  (MethodImpl.withTemporaries method layout.locals).zipIdx

theorem parameters_eq (layout : Layout method) :
    method.parameters = layout.rows.map Row.parameter := by
  rw [← layout.parameters, ← List.zipIdx_map_fst 0 (MethodImpl.withTemporaries _ _), List.map_map]
  rfl

theorem map_parameters {β : Type} (layout : Layout method) (f : Parameter → β) :
    method.parameters.map f = layout.rows.map fun row => f row.parameter := by
  rw [layout.parameters_eq, List.map_map]
  rfl

theorem zipIdx_map_parameters {β : Type} (layout : Layout method) (f : Parameter → β) :
    (method.parameters.map f).zipIdx = layout.rows.map fun row => (f row.parameter, row.2) := by
  rw [← layout.parameters, List.map_map, List.zipIdx_map]
  rfl

theorem filter_parameters {β : Type} (layout : Layout method) (keep : Parameter → Bool)
    (f : Parameter → β) : (method.parameters.filter keep).map f = layout.rows.filterMap fun row =>
      if keep row.parameter then some (f row.parameter) else none := by
  rw [← List.filterMap_filter (f := fun row : Row => some (f row.parameter)),
    List.filterMap_eq_map', layout.parameters_eq, List.filter_map, List.map_map]
  rfl

theorem filterMap_rows {β : Type} (layout : Layout method)
    (f : Parameter × Option String → Option β) :
    (MethodImpl.withTemporaries method layout.locals).filterMap f =
      layout.rows.filterMap fun row => f row.1 := by
  rw [← List.zipIdx_map_fst 0 (MethodImpl.withTemporaries _ _), List.filterMap_map]
  rfl

theorem context_spelled (layout : Layout method) :
    identified layout.locals.context = some layout.locals.context :=
  layout.spelled _ (by simp [Locals.names])

theorem result_spelled (layout : Layout method) :
    identified layout.locals.result = some layout.locals.result :=
  layout.spelled _ (by simp [Locals.names])

theorem closureParameter_spelled (layout : Layout method) :
    identified layout.locals.closureParameter = some layout.locals.closureParameter :=
  layout.spelled _ (by simp [Locals.names])

theorem innerResult_spelled (layout : Layout method) :
    identified layout.locals.innerResult = some layout.locals.innerResult :=
  layout.spelled _ (by simp [Locals.names])

theorem underlyingField_spelled (layout : Layout method) :
    identified layout.locals.underlyingField = some layout.locals.underlyingField :=
  layout.spelled _ (by simp [Locals.names])

/-- No name that the code around the function uses is that of a parameter. -/
theorem caller_apart (layout : Layout method) :
    layout.locals.context ∉ layout.rows.map (·.parameter.name) ∧
      layout.locals.result ∉ layout.rows.map (·.parameter.name) ∧
      layout.locals.underlyingField ∉ layout.rows.map (·.parameter.name) ∧
      layout.locals.result ≠ layout.locals.context := by
  have all := layout.distinct
  rw [layout.map_parameters, Locals.names] at all
  simp only [List.cons_append, List.nodup_cons, List.mem_cons, List.mem_append, not_or] at all
  exact ⟨all.1.2.2.2.2.2, all.2.1.2.2.2.2, all.2.2.2.2.1.2, fun same => all.1.1 same.symm⟩

theorem name_ne_context (layout : Layout method) {row : Row} (member : row ∈ layout.rows) :
    row.parameter.name ≠ layout.locals.context := fun same =>
  layout.caller_apart.1 (same ▸ List.mem_map_of_mem member)

theorem name_ne_result (layout : Layout method) {row : Row} (member : row ∈ layout.rows) :
    row.parameter.name ≠ layout.locals.result := fun same =>
  layout.caller_apart.2.1 (same ▸ List.mem_map_of_mem member)

theorem name_ne_underlyingField (layout : Layout method) {row : Row} (member : row ∈ layout.rows) :
    row.parameter.name ≠ layout.locals.underlyingField := fun same =>
  layout.caller_apart.2.2.1 (same ▸ List.mem_map_of_mem member)

/-- No name that the function uses is that of one of its variables. -/
theorem function_apart (layout : Layout method) :
    layout.locals.closureParameter ∉ layout.rows.filterMap Row.temporary ∧
      layout.locals.innerResult ∉ layout.rows.filterMap Row.temporary ∧
      layout.locals.innerResult ≠ layout.locals.closureParameter := by
  have all := layout.distinct
  have temporaries : layout.rows.filterMap Row.temporary ⊆
      Locals.given layout.locals.temporaries := by
    intro name member
    obtain ⟨row, within, same⟩ := List.mem_filterMap.mp member
    exact List.mem_filterMap.mpr
      ⟨row.temporary, (List.of_mem_zip (List.fst_mem_of_mem_zipIdx within)).2, same⟩
  rw [Locals.names] at all
  simp only [List.cons_append, List.nodup_cons, List.mem_cons, List.mem_append, not_or] at all
  obtain ⟨_, _, closureParameter, innerResult, _⟩ := all
  exact ⟨fun inside => closureParameter.2.2.1 (temporaries inside),
    fun inside => innerResult.2.1 (temporaries inside), fun same => closureParameter.1 same.symm⟩

theorem temporary_ne_closureParameter (layout : Layout method) {name : String}
    (member : name ∈ layout.rows.filterMap Row.temporary) :
    name ≠ layout.locals.closureParameter := fun same =>
  layout.function_apart.1 (same ▸ member)

theorem temporary_ne_innerResult (layout : Layout method) {name : String}
    (member : name ∈ layout.rows.filterMap Row.temporary) :
    name ≠ layout.locals.innerResult := fun same =>
  layout.function_apart.2.1 (same ▸ member)

end Layout

/-! ### The call -/

/-- The call of the underlying object that a method stands for. -/
def request (plan : ProxyPlan) (method : Method) (arguments : Nat → V) : Invocation V where
  view :=
    if plan.sharesName method.contract method.name then some method.contract.fullName else none
  method := method.name
  typeArguments := method.typeParameters
  modes := method.parameters.map (·.mode)
  inputs := method.parameters.zipIdx.filterMap fun (parameter, position) =>
    if parameter.mode.isCaptured then some (arguments position) else none

theorem mapM_eq_some_map {α β : Type} {xs : List α} {f : α → Option β} {g : α → β}
    (each : ∀ x ∈ xs, f x = some (g x)) : xs.mapM f = some (xs.map g) := by
  induction xs with
  | nil => rfl
  | cons x xs ih =>
    rw [List.mapM_cons, each x List.mem_cons_self,
      ih fun y member => each y (List.mem_cons_of_mem _ member)]
    rfl

section

variable {method : Method} (layout : Layout method) (plan : ProxyPlan)
variable (implementation : Implementation V)

theorem invoke_eq {frame : Frame V} {object : Expr}
    {argumentOf : Parameter × Option String → Argument} {arguments : Nat → V} {scope : Cells V}
    (seen : eval frame object = some .underlying) (plain : view object = none)
    (modes : ∀ row ∈ layout.rows, modeOf (argumentOf row.1) = row.parameter.mode)
    (inputs : ∀ row ∈ layout.rows, input frame (argumentOf row.1) =
      some (if row.parameter.mode.isCaptured then some (arguments row.2) else none))
    (received : layout.rows.foldlM (fun scope row => receive scope
      ((implementation (request plan method arguments)).outputs row.2) (argumentOf row.1))
        frame.scope = some scope) :
    invoke implementation frame (MethodImpl.underlyingCall plan method object
        ((MethodImpl.withTemporaries method layout.locals).map argumentOf)) =
      some ((implementation (request plan method arguments)).result,
        { frame with
          scope := scope
          shared := { frame.shared with
            events := frame.shared.events ++ [.invoked (request plan method arguments)] } }) := by
  have listed : (MethodImpl.withTemporaries method layout.locals).map argumentOf =
      layout.rows.map fun row => argumentOf row.1 := by
    rw [← List.zipIdx_map_fst 0 (MethodImpl.withTemporaries _ _), List.map_map]
    rfl
  have reads : (layout.rows.map fun row => argumentOf row.1).mapM (input frame) =
      some (layout.rows.map fun row =>
        if row.parameter.mode.isCaptured then some (arguments row.2) else none) := by
    rw [List.mapM_map]
    exact mapM_eq_some_map inputs
  have positions : (layout.rows.map fun row => argumentOf row.1).zipIdx =
      layout.rows.map fun row => (argumentOf row.1, row.2) := by
    rw [← listed, List.zipIdx_map]
    rfl
  have asked : {
      view := view (receiver plan method.contract method.name object)
      method := method.name
      typeArguments := method.typeParameters
      modes := (layout.rows.map fun row => argumentOf row.1).map modeOf
      inputs := (layout.rows.map fun row =>
        if row.parameter.mode.isCaptured then some (arguments row.2) else none).reduceOption } =
      request plan method arguments := by
    have values := layout.zipIdx_map_parameters id
    rw [List.map_id] at values
    simp only [request, Invocation.mk.injEq, true_and]
    refine ⟨?_, ?_, ?_⟩
    · rw [receiver]
      split
      · rfl
      · exact plain
    · rw [layout.map_parameters, List.map_map]
      exact List.map_congr_left modes
    · rw [values, List.filterMap_map, List.reduceOption, List.filterMap_map]
      rfl
  have target : eval frame (receiver plan method.contract method.name object) =
      some .underlying := by
    rw [receiver]
    split
    · exact seen
    · exact seen
  simp only [invoke, MethodImpl.underlyingCall, listed, target, reads, Option.bind_eq_bind,
    Option.bind_some, asked, positions, receiveAll, List.foldlM_map, received]
  rfl

end

end Interpose.Execution
