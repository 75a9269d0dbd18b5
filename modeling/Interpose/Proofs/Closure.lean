import Interpose.Proofs.Layout

/-!
# The function of a hook

The function that a hook is given makes the underlying call with the values that the context object
carries, and leaves in the object what flows back: `function_eq`.
-/

namespace Interpose.Execution

open Proxy

variable {V : Type}

variable {method : Method} (layout : Layout method) (plan : ProxyPlan)
variable (implementation : Implementation V)

structure Carries (fields : Cells V) (arguments : Nat → V) : Prop where
  underlying : fields layout.locals.underlyingField = some (some .underlying)
  parameters : ∀ row ∈ layout.rows, fields row.parameter.name =
    some (if row.parameter.mode.isCaptured then valueAt arguments row else none)

/-- What the function of a hook finds in its variables when it makes the call. -/
def loadedScope (arguments : Nat → V) : Cells V :=
  Cells.fill (Function.update Cells.empty layout.locals.closureParameter (some (some .context)))
    (writes loaded (valueAt arguments) layout.rows)

def returnedScope (arguments outputs : Nat → V) : Cells V :=
  (loadedScope layout arguments).fill (writes returned (valueAt outputs) layout.rows)

theorem loadedScope_temporary (arguments : Nat → V) {row : Row} (member : row ∈ layout.rows)
    {name : String} (temporary : row.temporary = some name) :
    loadedScope layout arguments name =
      if row.parameter.mode.isCaptured then some (valueAt arguments row) else none := by
  have distinct := layout.aligned.temporaries_nodup
  have within : name ∈ layout.rows.filterMap Row.temporary :=
    List.mem_filterMap.mpr ⟨row, member, temporary⟩
  split
  · rename_i captured
    exact fill_writes (nodup_of_chosen _ distinct) member
      (loaded_eq_some.mpr ⟨captured, temporary⟩)
  · rename_i out
    have untouched : name ∉ layout.rows.filterMap loaded :=
      not_mem_chosen distinct member temporary out
    rw [loadedScope, fill_writes_other untouched,
      Function.update_of_ne (layout.temporary_ne_closureParameter within)]
    rfl

theorem loadedScope_context (arguments : Nat → V) :
    loadedScope layout arguments layout.locals.closureParameter = some (some .context) := by
  have untouched : layout.locals.closureParameter ∉ layout.rows.filterMap loaded :=
    fun inside => layout.function_apart.1 (mem_of_chosen inside)
  rw [loadedScope, fill_writes_other untouched, Function.update_self]

theorem returnedScope_context (arguments outputs : Nat → V) :
    returnedScope layout arguments outputs layout.locals.closureParameter =
      some (some .context) := by
  have untouched : layout.locals.closureParameter ∉ layout.rows.filterMap returned :=
    fun inside => layout.function_apart.1 (mem_of_chosen inside)
  rw [returnedScope, fill_writes_other untouched, loadedScope_context]

theorem returnedScope_innerResult (arguments outputs : Nat → V) :
    returnedScope layout arguments outputs layout.locals.innerResult = none := by
  obtain ⟨_, fresh, apart⟩ := layout.function_apart
  have unreturned : layout.locals.innerResult ∉ layout.rows.filterMap returned :=
    fun inside => fresh (mem_of_chosen inside)
  have unloaded : layout.locals.innerResult ∉ layout.rows.filterMap loaded :=
    fun inside => fresh (mem_of_chosen inside)
  rw [returnedScope, fill_writes_other unreturned, loadedScope, fill_writes_other unloaded,
    Function.update_of_ne apart]
  rfl

theorem returnedScope_temporary (arguments outputs : Nat → V) {row : Row}
    (member : row ∈ layout.rows) (back : row.parameter.mode.writesBack) {name : String}
    (temporary : row.temporary = some name) :
    returnedScope layout arguments outputs name = some (valueAt outputs row) :=
  fill_writes (nodup_of_chosen _ layout.aligned.temporaries_nodup) member
    (returned_eq_some.mpr ⟨back, temporary⟩)

theorem input_argument {arguments : Nat → V} {frame : Frame V}
    (carries : Carries layout frame.shared.fields arguments)
    (scope : frame.scope = loadedScope layout arguments) {row : Row} (member : row ∈ layout.rows) :
    input frame (MethodImpl.argument layout.locals.closureParameter row.1) =
      some (if row.parameter.mode.isCaptured then some (arguments row.2) else none) := by
  have aligned := layout.aligned
  obtain ⟨⟨parameter, temporary⟩, position⟩ := row
  cases temporary with
  | none =>
    have plain : parameter.mode = .byValue := aligned.byValue member rfl
    have sees : SeesContext frame layout.locals.closureParameter :=
      ⟨layout.closureParameter_spelled, by rw [scope, loadedScope_context]⟩
    have held : eval frame (MethodImpl.slot layout.locals.closureParameter parameter) =
        some (.value (arguments position)) := by
      rw [eval_slot aligned member sees, carries.parameters _ member]
      simp [plain, PassMode.isCaptured, valueAt]
    simp [MethodImpl.argument, input, evalValue, held, plain, PassMode.isCaptured]
  | some name =>
    have spelled := aligned.spelled name (List.mem_filterMap.mpr ⟨_, member, rfl⟩)
    by_cases out : parameter.mode = .byOut
    · simp [MethodImpl.argument, input, out, PassMode.isCaptured]
    · have captured : parameter.mode.isCaptured := by simpa [PassMode.isCaptured] using out
      have held : frame.scope name = some (some (.value (arguments position))) := by
        rw [scope, loadedScope_temporary layout arguments member rfl, if_pos captured]
        rfl
      simp [MethodImpl.argument, input, out, captured, evalValue_name spelled held]

theorem modeOf_argument (context : String) {row : Row} (member : row ∈ layout.rows) :
    modeOf (MethodImpl.argument context row.1) = row.parameter.mode := by
  obtain ⟨⟨⟨name, type, mode⟩, temporary⟩, position⟩ := row
  cases temporary with
  | none =>
    have plain : mode = .byValue := layout.aligned.byValue member rfl
    rw [plain]
    rfl
  | some name => cases mode <;> rfl

def innerCall : Call :=
  MethodImpl.underlyingCall plan method
    (.member (.name layout.locals.closureParameter) layout.locals.underlyingField)
    ((MethodImpl.withTemporaries method layout.locals).map
      (MethodImpl.argument layout.locals.closureParameter))

theorem closure_flatten :
    (MethodImpl.closure plan method layout.locals).flatten =
      (layout.rows.filterMap fun row => MethodImpl.load layout.locals.closureParameter row.1) ++
        (if method.shape.isVoid then .call (innerCall layout plan)
          else .declareCall layout.locals.innerResult (innerCall layout plan)) ::
        ((layout.rows.filterMap fun row =>
            MethodImpl.store layout.locals.closureParameter row.1) ++
          if method.shape.isVoid then [] else [.give (.name layout.locals.innerResult)]) := by
  simp [MethodImpl.closure, innerCall, layout.filterMap_rows]

/-- The call that the function makes finds the caller's values, and what flows back is in the
function's variables afterwards. -/
theorem invoke_innerCall {arguments : Nat → V} {shared : Shared V}
    (carries : Carries layout shared.fields arguments) :
    let answer := implementation (request plan method arguments)
    invoke implementation ⟨loadedScope layout arguments, shared, false⟩ (innerCall layout plan) =
      some (answer.result, {
        scope := returnedScope layout arguments answer.outputs
        shared := { shared with
          events := shared.events ++ [.invoked (request plan method arguments)] }
        inProxy := false }) := by
  intro answer
  have sees : SeesContext ⟨loadedScope layout arguments, shared, false⟩
      layout.locals.closureParameter :=
    ⟨layout.closureParameter_spelled, loadedScope_context layout arguments⟩
  have object : eval ⟨loadedScope layout arguments, shared, false⟩
      (.member (.name layout.locals.closureParameter) layout.locals.underlyingField) =
        some .underlying := by
    rw [sees.eval_member layout.underlyingField_spelled]
    simp only [carries.underlying, Option.join_some]
  refine invoke_eq layout plan implementation object rfl
    (fun row member => modeOf_argument layout _ member)
    (fun row member => input_argument layout carries rfl member) ?_
  refine receive_temporaries _ layout.aligned fun row member name temporary => ?_
  simp [loadedScope_temporary layout arguments member temporary, PassMode.isCaptured]

/-- The call in the middle of the function: its result is kept where the method has one. -/
theorem step_innerCall {arguments : Nat → V} {shared : Shared V}
    (carries : Carries layout shared.fields arguments) :
    let answer := implementation (request plan method arguments)
    ∃ scope, step implementation ⟨loadedScope layout arguments, shared, false⟩
        (if method.shape.isVoid then .call (innerCall layout plan)
          else .declareCall layout.locals.innerResult (innerCall layout plan)) =
        some (.runsOn, ⟨scope, { shared with
          events := shared.events ++ [.invoked (request plan method arguments)] }, false⟩) ∧
      (∀ name, name ≠ layout.locals.innerResult →
        scope name = returnedScope layout arguments answer.outputs name) ∧
      (¬ method.shape.isVoid →
        scope layout.locals.innerResult = some (some (.value answer.result))) := by
  intro answer
  have invoked := invoke_innerCall layout plan implementation carries
  split
  · rename_i void
    exact ⟨_, by simp [step, invoked, answer], fun _ _ => rfl, fun gives => absurd void gives⟩
  · have spelled := layout.innerResult_spelled
    have fresh := returnedScope_innerResult layout arguments answer.outputs
    exact ⟨_, by simp [step, invoked, Frame.declare, Cells.declare_eq spelled fresh, answer],
      fun name other => Function.update_of_ne other _ _, fun _ => Function.update_self ..⟩

theorem exec_giving (frame : Frame V) {shape : ReturnShape} {word : String} {result : V}
    (spelled : identified word = some word)
    (held : ¬ shape.isVoid → frame.scope word = some (some (.value result))) :
    ∃ ending, exec implementation frame (if shape.isVoid then [] else [.give (.name word)]) =
        some (ending, frame) ∧
      ending.result = if shape.isVoid then none else some result := by
  split
  · exact ⟨.runsOn, rfl, rfl⟩
  · rename_i gives
    have value := evalValue_name spelled (held gives)
    exact ⟨.returned (some result), by simp [exec, step, value], rfl⟩

/-- The function makes the call, stores what flows back in the context object and gives the result
back. -/
theorem function_eq {arguments : Nat → V} (shared : Shared V)
    (carries : Carries layout shared.fields arguments) :
    let answer := implementation (request plan method arguments)
    function implementation layout.locals.closureParameter
        (MethodImpl.closure plan method layout.locals).flatten shared =
      some (if method.shape.isVoid then none else some answer.result, {
        made := shared.made
        fields := shared.fields.fill (writes changed (valueAt answer.outputs) layout.rows)
        events := shared.events ++ [.invoked (request plan method arguments)] }) := by
  intro answer
  have closureSpelled := layout.closureParameter_spelled
  have innerSpelled := layout.innerResult_spelled
  obtain ⟨scope, called, kept, held⟩ :=
    step_innerCall layout plan implementation carries
  -- The call may have declared the variable of the result, and all else is where it left it.
  have closureKept : scope layout.locals.closureParameter = some (some .context) :=
    (kept _ layout.function_apart.2.2.symm).trans (returnedScope_context ..)
  have temporaryKept : ∀ row ∈ layout.rows, row.parameter.mode.writesBack →
      ∀ name, row.temporary = some name → scope name = some (valueAt answer.outputs row) := by
    intro row member back name temporary
    have other := layout.temporary_ne_innerResult (List.mem_filterMap.mpr ⟨row, member, temporary⟩)
    exact (kept name other).trans (returnedScope_temporary layout arguments _ member back temporary)
  let called' : Shared V := { shared with
    events := shared.events ++ [.invoked (request plan method arguments)] }
  let stored : Shared V := { called' with
    fields := shared.fields.fill (writes changed (valueAt answer.outputs) layout.rows) }
  obtain ⟨ending, gives, result⟩ :=
    exec_giving implementation ⟨scope, stored, false⟩ innerSpelled held
  have runs : exec implementation
      ⟨Function.update Cells.empty layout.locals.closureParameter (some (some .context)), shared,
        false⟩
      (MethodImpl.closure plan method layout.locals).flatten =
        some (ending, ⟨scope, stored, false⟩) := by
    rw [closure_flatten]
    calc exec implementation ⟨_, shared, false⟩ _
      _ = exec implementation ⟨loadedScope layout arguments, shared, false⟩ _ :=
        exec_loads implementation layout.aligned ⟨closureSpelled, Function.update_self ..⟩
          (fun name member =>
            Function.update_of_ne (layout.temporary_ne_closureParameter member) _ _)
          (fun row member captured => by simp [carries.parameters row member, captured]) _
      _ = exec implementation ⟨scope, called', false⟩ _ := exec_cons_of implementation called _
      _ = exec implementation ⟨scope, stored, false⟩ _ :=
        exec_stores implementation layout.aligned ⟨closureSpelled, closureKept⟩ temporaryKept
          (fun row member => by simp [called', carries.parameters row member]) _
      _ = some (ending, ⟨scope, stored, false⟩) := gives
  have parameter : (Cells.empty : Cells V).declare layout.locals.closureParameter
      (some .context) = some _ := Cells.declare_eq closureSpelled rfl _
  simp only [function, parameter, runs, Option.bind_eq_bind, Option.bind_some, result]
  rfl

end Interpose.Execution
