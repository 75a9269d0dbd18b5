import Interpose.Proofs.Filling
import Mathlib.Data.List.Pairwise

/-!
# The loops of a forwarded call

A forwarded call treats its parameters one after the other: values are loaded, come back, are stored
and handed to the caller. There is a theorem for each of these loops.
-/

namespace Interpose.Execution

open Proxy

variable {V : Type}

/-! ### Rows -/

abbrev Row : Type := (Parameter × Option String) × Nat

namespace Row

abbrev parameter (row : Row) : Parameter := row.1.1

abbrev temporary (row : Row) : Option String := row.1.2

@[simp] theorem parameter_mk (parameter : Parameter) (temporary : Option String) (position : Nat) :
    Row.parameter ((parameter, temporary), position) = parameter := rfl

@[simp] theorem temporary_mk (parameter : Parameter) (temporary : Option String) (position : Nat) :
    Row.temporary ((parameter, temporary), position) = temporary := rfl

end Row

/-- What holds of the rows of a method: exactly the parameters that need a variable have one, words
stand for their names, and no name and no variable occurs twice. -/
structure Aligned (rows : List Row) : Prop where
  needed : ∀ row ∈ rows, row.temporary.isSome = row.parameter.mode.needsTemporary
  named : ∀ row ∈ rows,
    identified (Spelling.identifier row.parameter.name) = some row.parameter.name
  spelled : ∀ name ∈ rows.filterMap Row.temporary, identified name = some name
  names_nodup : (rows.map (·.parameter.name)).Nodup
  temporaries_nodup : (rows.filterMap Row.temporary).Nodup

theorem Aligned.byValue {rows : List Row} (aligned : Aligned rows) {row : Row} (member : row ∈ rows)
    (none : row.temporary = none) : row.parameter.mode = .byValue := by
  simpa [none, PassMode.needsTemporary] using aligned.needed row member

def valueAt (values : Nat → V) (row : Row) : Option (Content V) := some (.value (values row.2))

/-- The name under which the caller hands a value in. -/
def captured (row : Row) : Option String :=
  if row.parameter.mode.isCaptured then some row.parameter.name else none

/-- The variable into which a value is loaded before the call. -/
def loaded (row : Row) : Option String :=
  if row.parameter.mode.isCaptured then row.temporary else none

/-- The variable in which a value comes back. -/
def returned (row : Row) : Option String :=
  if row.parameter.mode.writesBack then row.temporary else none

/-- The name under which the caller gets a value back. -/
def changed (row : Row) : Option String :=
  if row.parameter.mode.writesBack then some row.parameter.name else none

theorem captured_eq_some {row : Row} {name : String} :
    captured row = some name ↔ row.parameter.mode.isCaptured ∧ row.parameter.name = name := by
  rw [captured, Option.ite_none_right_eq_some, Option.some.injEq]

theorem captured_eq_none {row : Row} : captured row = none ↔ ¬ row.parameter.mode.isCaptured := by
  simp [captured]

theorem changed_eq_some {row : Row} {name : String} :
    changed row = some name ↔ row.parameter.mode.writesBack ∧ row.parameter.name = name := by
  rw [changed, Option.ite_none_right_eq_some, Option.some.injEq]

theorem changed_eq_none {row : Row} : changed row = none ↔ ¬ row.parameter.mode.writesBack := by
  simp [changed]

theorem loaded_eq_some {row : Row} {name : String} :
    loaded row = some name ↔ row.parameter.mode.isCaptured ∧ row.temporary = some name :=
  Option.ite_none_right_eq_some

theorem returned_eq_some {row : Row} {name : String} :
    returned row = some name ↔ row.parameter.mode.writesBack ∧ row.temporary = some name :=
  Option.ite_none_right_eq_some

theorem nodup_of_chosen {rows : List Row} {cell : Row → Option String} (chosen : Row → Bool)
    (distinct : (rows.filterMap cell).Nodup) :
    (rows.filterMap fun row => if chosen row then cell row else none).Nodup := by
  rw [← List.filterMap_filter]
  exact distinct.sublist (List.filter_sublist.filterMap cell)

theorem mem_of_chosen {rows : List Row} {cell : Row → Option String} {chosen : Row → Bool}
    {name : String}
    (member : name ∈ rows.filterMap fun row => if chosen row then cell row else none) :
    name ∈ rows.filterMap cell := by
  rw [← List.filterMap_filter] at member
  exact (List.filter_sublist.filterMap cell).subset member

theorem not_mem_names {rows : List Row} {chosen : Row → Bool} {word : String}
    (apart : word ∉ rows.map (·.parameter.name)) :
    word ∉ rows.filterMap fun row => if chosen row then some row.parameter.name else none := by
  intro inside
  obtain ⟨row, member, same⟩ := List.mem_filterMap.mp inside
  exact apart (List.mem_map.mpr ⟨row, member, (Option.ite_some_none_eq_some.mp same).2⟩)

theorem not_mem_chosen {rows : List Row} {cell : Row → Option String} {chosen : Row → Bool}
    (distinct : (rows.filterMap cell).Nodup) {row : Row} (member : row ∈ rows) {name : String}
    (cell_eq : cell row = some name) (left : ¬ chosen row) :
    name ∉ rows.filterMap fun row => if chosen row then cell row else none := by
  intro inside
  obtain ⟨other, among, same⟩ := List.mem_filterMap.mp inside
  have picked : chosen other := by
    by_contra ignored
    simp [ignored] at same
  rw [if_pos picked] at same
  have apart : row ≠ other := fun equal => left (equal ▸ picked)
  have symmetric : Std.Symm fun a b : Row =>
      ∀ x, cell a = some x → ∀ y, cell b = some y → x ≠ y :=
    ⟨fun _ _ unequal x here y there equal => unequal y there x here equal.symm⟩
  exact (List.pairwise_filterMap.mp distinct).forall member among apart name cell_eq name same rfl

theorem Aligned.changed_nodup {rows : List Row} (aligned : Aligned rows) :
    (rows.filterMap changed).Nodup := by
  have distinct : (rows.filterMap fun row => some row.parameter.name).Nodup := by
    simpa using aligned.names_nodup
  exact nodup_of_chosen _ distinct

/-! ### Reading the context object -/

/-- The frame knows the context object under a word that stands for itself. -/
structure SeesContext (frame : Frame V) (context : String) : Prop where
  spelled : identified context = some context
  seen : frame.scope context = some (some .context)

theorem SeesContext.eval {frame : Frame V} {context : String} (sees : SeesContext frame context) :
    Execution.eval frame (.name context) = some .context := by
  rw [Execution.eval, Cells.read_eq sees.spelled, sees.seen, Option.join_some]

theorem SeesContext.eval_member {frame : Frame V} {context word name : String}
    (sees : SeesContext frame context) (named : identified word = some name) :
    Execution.eval frame (.member (.name context) word) = (frame.shared.fields name).join := by
  have target : Expr.name context ≠ Expr.name "this" := fun same =>
    ne_this_of_identified sees.spelled (Expr.name.inj same)
  rw [Execution.eval, if_neg target, sees.eval]
  exact Cells.read_eq named

theorem eval_slot {frame : Frame V} {context : String} {rows : List Row} {row : Row}
    (aligned : Aligned rows) (member : row ∈ rows) (sees : SeesContext frame context) :
    eval frame (MethodImpl.slot context row.parameter) =
      (frame.shared.fields row.parameter.name).join :=
  sees.eval_member (aligned.named row member)

theorem evalValue_name {frame : Frame V} {word name : String} {v : V}
    (spelled : identified word = some name) (held : frame.scope name = some (some (.value v))) :
    evalValue frame (.name word) = some v := by
  rw [evalValue, eval, Cells.read_eq spelled, held]
  rfl

theorem step_declare {implementation : Implementation V} {frame : Frame V} {word : String}
    {value : Expr} {content : Content V} (held : eval frame value = some content)
    (spelled : identified word = some word) (fresh : frame.scope word = none) :
    step implementation frame (.declare word value) = some (.runsOn,
      { frame with scope := Function.update frame.scope word (some (some content)) }) := by
  simp [step, held, Frame.declare, Cells.declare_eq spelled fresh]

/-! ### The loops -/

/-- Before the call, what flows in through a variable is loaded from its field. -/
theorem exec_loads (implementation : Implementation V) {arguments : Nat → V} {rows : List Row}
    {frame : Frame V} {context : String} (aligned : Aligned rows)
    (sees : SeesContext frame context)
    (fresh : ∀ name ∈ rows.filterMap Row.temporary, frame.scope name = none)
    (filled : ∀ row ∈ rows, row.parameter.mode.isCaptured →
      frame.shared.fields row.parameter.name = some (valueAt arguments row))
    (rest : List Stmt) :
    exec implementation frame
        ((rows.filterMap fun row => MethodImpl.load context row.1) ++ rest) =
      exec implementation
        { frame with scope := frame.scope.fill (writes loaded (valueAt arguments) rows) } rest := by
  have distinct := nodup_of_chosen (·.parameter.mode.isCaptured) aligned.temporaries_nodup
  refine exec_rows rest (foldlM_fills (fun scope => { frame with scope := scope }) distinct ?_ ?_)
  · rintro ⟨⟨parameter, temporary⟩, position⟩ member scope idle
    cases temporary with
    | none => rfl
    | some name =>
      have out : parameter.mode = .byOut := by
        simpa [loaded, PassMode.isCaptured] using idle
      simp [MethodImpl.load, out]
  · rintro ⟨⟨parameter, temporary⟩, position⟩ member scope name cell own frame_eq
    obtain ⟨captured, rfl⟩ := loaded_eq_some.mp cell
    have within : name ∈ rows.filterMap Row.temporary := List.mem_filterMap.mpr ⟨_, member, rfl⟩
    have still : SeesContext { frame with scope := scope } context := by
      refine ⟨sees.spelled, (frame_eq context fun inside => ?_).trans sees.seen⟩
      have := fresh context (mem_of_chosen inside)
      simp [sees.seen] at this
    have value : eval { frame with scope := scope } (MethodImpl.slot context parameter) =
        some (.value (arguments position)) := by
      rw [eval_slot aligned member still]
      simp only [filled _ member captured, valueAt, Option.join_some]
    have notOut : parameter.mode ≠ .byOut := by simpa [PassMode.isCaptured] using captured
    simp only [MethodImpl.load, if_neg notOut]
    exact advance_eq (step_declare value (aligned.spelled name within)
      (own.trans (fresh name within)))

theorem receive_temporaries {outputs : Nat → V} {rows : List Row} {scope : Cells V}
    (context : String) (aligned : Aligned rows)
    (ready : ∀ row ∈ rows, ∀ name, row.temporary = some name →
      (scope name = none ↔ row.parameter.mode = .byOut)) :
    rows.foldlM (fun scope row => receive scope (outputs row.2) (MethodImpl.argument context row.1))
      scope = some (scope.fill (writes returned (valueAt outputs) rows)) := by
  have distinct := nodup_of_chosen (·.parameter.mode.writesBack) aligned.temporaries_nodup
  refine foldlM_fills id distinct ?_ ?_
  · rintro ⟨⟨⟨name, type, mode⟩, temporary⟩, position⟩ member scope idle
    cases temporary with
    | none => cases mode <;> rfl
    | some word =>
      cases mode with
      | byValue => rfl
      | byIn => rfl
      | byRef => simp [returned, PassMode.writesBack] at idle
      | byOut => simp [returned, PassMode.writesBack] at idle
  · rintro ⟨⟨⟨parameter, type, mode⟩, temporary⟩, position⟩ member current name cell own _
    obtain ⟨back, rfl⟩ := returned_eq_some.mp cell
    have spelled := aligned.spelled name (List.mem_filterMap.mpr ⟨_, member, rfl⟩)
    have state := ready _ member name rfl
    rw [← own] at state
    cases mode with
    | byValue => simp [PassMode.writesBack] at back
    | byIn => simp [PassMode.writesBack] at back
    | byRef => exact Cells.assign_eq spelled (fun fresh => by simpa using state.mp fresh) _
    | byOut => exact Cells.declare_eq spelled (state.mpr rfl) _

def ownArgument (parameter : Parameter × Option String) : Argument :=
  .pass parameter.1.mode (.name (Spelling.identifier parameter.1.name))

theorem receive_parameters {outputs : Nat → V} {rows : List Row} {scope : Cells V}
    (aligned : Aligned rows) (declared : ∀ row ∈ rows, scope row.parameter.name ≠ none) :
    rows.foldlM (fun scope row => receive scope (outputs row.2) (ownArgument row.1)) scope =
      some (scope.fill (writes changed (valueAt outputs) rows)) := by
  refine foldlM_fills id aligned.changed_nodup ?_ ?_
  · intro row _ current idle
    have stays := changed_eq_none.mp idle
    simp [ownArgument, receive, stays]
  · intro row member current name cell own _
    obtain ⟨back, rfl⟩ := changed_eq_some.mp cell
    have ready : current row.parameter.name ≠ none := own ▸ declared row member
    simp only [id_eq, ownArgument, receive, if_pos back]
    exact Cells.assign_eq (aligned.named row member) ready _

/-- After the call, what came back is stored in the fields of the context object. -/
theorem exec_stores (implementation : Implementation V) {outputs : Nat → V} {rows : List Row}
    {frame : Frame V} {context : String} (aligned : Aligned rows)
    (sees : SeesContext frame context)
    (returned : ∀ row ∈ rows, row.parameter.mode.writesBack → ∀ name, row.temporary = some name →
      frame.scope name = some (valueAt outputs row))
    (declared : ∀ row ∈ rows, frame.shared.fields row.parameter.name ≠ none) (rest : List Stmt) :
    exec implementation frame
        ((rows.filterMap fun row => MethodImpl.store context row.1) ++ rest) =
      exec implementation
        { frame with shared := { frame.shared with
            fields := frame.shared.fields.fill (writes changed (valueAt outputs) rows) } }
        rest := by
  refine exec_rows rest (foldlM_fills
    (fun fields => { frame with shared := { frame.shared with fields := fields } })
    aligned.changed_nodup ?_ ?_)
  · rintro ⟨⟨parameter, temporary⟩, position⟩ member fields idle
    have stays : ¬ parameter.mode.writesBack := changed_eq_none.mp idle
    cases temporary <;> simp [MethodImpl.store, stays]
  · rintro ⟨⟨parameter, temporary⟩, position⟩ member fields name cell own _
    obtain ⟨back, rfl⟩ := changed_eq_some.mp cell
    rw [Row.parameter_mk] at back own ⊢
    have needed : temporary.isSome := by
      rw [aligned.needed _ member]
      cases mode : parameter.mode <;> simp_all [PassMode.writesBack, PassMode.needsTemporary]
    obtain ⟨word, rfl⟩ := Option.isSome_iff_exists.mp needed
    have spelled := aligned.spelled word (List.mem_filterMap.mpr ⟨_, member, rfl⟩)
    have value : eval { frame with shared := { frame.shared with fields := fields } }
        (.name word) = some (.value (outputs position)) := by
      rw [eval, Cells.read_eq spelled, returned _ member back word rfl]
      rfl
    have still : SeesContext { frame with shared := { frame.shared with fields := fields } }
        context := ⟨sees.spelled, sees.seen⟩
    have ready : fields parameter.name ≠ none := own ▸ declared _ member
    simp only [MethodImpl.store, if_pos back]
    refine advance_eq ?_
    simp [step, value, MethodImpl.slot, Frame.assign, still.eval,
      Cells.assign_eq (aligned.named _ member) ready, valueAt]

/-- At the end, what came back is stored in the caller's parameters. -/
theorem exec_writeBacks (implementation : Implementation V) {outputs : Nat → V} {rows : List Row}
    {frame : Frame V} {context : String} (aligned : Aligned rows)
    (sees : SeesContext frame context) (apart : context ∉ rows.map (·.parameter.name))
    (filled : ∀ row ∈ rows, row.parameter.mode.writesBack →
      frame.shared.fields row.parameter.name = some (valueAt outputs row))
    (declared : ∀ row ∈ rows, frame.scope row.parameter.name ≠ none) (rest : List Stmt) :
    exec implementation frame
        ((rows.filterMap fun row => if row.parameter.mode.writesBack then
          some (.assign (.name (Spelling.identifier row.parameter.name))
            (MethodImpl.slot context row.parameter)) else none) ++ rest) =
      exec implementation
        { frame with scope := frame.scope.fill (writes changed (valueAt outputs) rows) } rest := by
  refine exec_rows rest (foldlM_fills (fun scope => { frame with scope := scope })
    aligned.changed_nodup ?_ ?_)
  · intro row member scope idle
    have stays := changed_eq_none.mp idle
    simp [stays]
  · intro row member scope name cell own frame_eq
    obtain ⟨back, rfl⟩ := changed_eq_some.mp cell
    have still : SeesContext { frame with scope := scope } context :=
      ⟨sees.spelled, (frame_eq context (not_mem_names apart)).trans sees.seen⟩
    have value : eval { frame with scope := scope } (MethodImpl.slot context row.parameter) =
        some (.value (outputs row.2)) := by
      rw [eval_slot aligned member still]
      simp only [filled row member back, valueAt, Option.join_some]
    have ready : scope row.parameter.name ≠ none := own ▸ declared row member
    simp only [if_pos back]
    refine advance_eq ?_
    simp [step, value, Frame.assign, Cells.assign_eq (aligned.named row member) ready, valueAt]

end Interpose.Execution
