import Interpose.Proofs.Bypassing
import Interpose.Proofs.Closure

/-!
# Intercepted methods at work

The instructions of an intercepted method make the context object, hand it to the hook and give the
caller what came back. Under a hook that passes through, this is what a call of the underlying
object does: `run_routine`.
-/

namespace Interpose.Execution

open Proxy

variable {V : Type}

/-- The instructions of an intercepted method, in their order. -/
def Routine.ofMethod (plan : ProxyPlan) (method : Method) (index : Nat) (locals : Locals) :
    Routine where
  title := contextReference method index
  fields := (ContextClass.ofMethod plan method index locals).fields.map (·.2)
  parameters := method.parameters.map fun p => (p.mode, Spelling.identifier p.name)
  body :=
    let interception := MethodImpl.interception plan method index locals
    let packing := interception.packing
    let call := interception.hookCall
    .guarded interception.guard.entries interception.guard.bypass ::
      .make packing.object (contextReference method index) packing.fields ::
      .hook call.result call.hook call.context call.parameter call.body.flatten ::
      (interception.writeBacks ++ interception.ending).map .plain

theorem performAll_plain (host : Host V) (routine : Routine) (frame : Frame V)
    (statements : List Stmt) : performAll host routine frame (statements.map .plain) =
      exec host.implementation frame statements := by
  induction statements generalizing frame with
  | nil => rfl
  | cons statement statements ih =>
    rw [List.map_cons, performAll, exec, perform]
    split <;> simp_all

section

variable {host : Host V} {routine : Routine} {frame next : Frame V}

theorem performAll_unguarded {entries : List GuardEntry}
    (through : ¬ bypasses host.allowList entries) (block : List Stmt) (rest : List Instruction) :
    performAll host routine frame (.guarded entries block :: rest) =
      performAll host routine frame rest := by
  rw [performAll, perform, if_neg through]

theorem performAll_bypassed {entries : List GuardEntry} {block : List Stmt} {result : Option V}
    (around : bypasses host.allowList entries)
    (runs : exec host.implementation frame block = some (.returned result, next))
    (rest : List Instruction) :
    performAll host routine frame (.guarded entries block :: rest) =
      some (.returned result, next) := by
  rw [performAll, perform, if_pos around, runs]

theorem performAll_make {word title : String} {fields : List (String × Expr)}
    (made : make routine frame word title fields = some next) (rest : List Instruction) :
    performAll host routine frame (.make word title fields :: rest) =
      performAll host routine next rest := by
  rw [performAll, perform, made]
  rfl

theorem performAll_hook {result : Option String} {selector context parameter : String}
    {body : List Stmt}
    (called : callHook host frame result selector context parameter body = some next)
    (rest : List Instruction) :
    performAll host routine frame (.hook result selector context parameter body :: rest) =
      performAll host routine next rest := by
  rw [performAll, perform, called]
  rfl

end

section

variable {method : Method} (layout : Layout method) (plan : ProxyPlan)
variable (implementation : Implementation V)

def enteredScope (arguments : Nat → V) : Cells V :=
  Cells.empty.fill (writes (fun row => some row.parameter.name)
    (fun row => if row.parameter.mode.isCaptured then valueAt arguments row else none) layout.rows)

/-- The fields of the context object before they are filled. -/
def bareFields : Cells V :=
  Cells.fill (Function.update Cells.empty layout.locals.underlyingField (some none))
    (writes (fun row => some row.parameter.name) (fun _ => none) layout.rows)

def packedFields (arguments : Nat → V) : Cells V :=
  Cells.fill
    (Function.update (bareFields layout) layout.locals.underlyingField (some (some .underlying)))
    (writes captured (valueAt arguments) layout.rows)

theorem names_nodup : (layout.rows.filterMap fun row => some row.parameter.name).Nodup := by
  simpa using layout.aligned.names_nodup

theorem enteredScope_parameter (arguments : Nat → V) {row : Row} (member : row ∈ layout.rows) :
    enteredScope layout arguments row.parameter.name =
      some (if row.parameter.mode.isCaptured then valueAt arguments row else none) :=
  fill_writes (names_nodup layout) member rfl

theorem enteredScope_other (arguments : Nat → V) {name : String}
    (apart : name ∉ layout.rows.map (·.parameter.name)) :
    enteredScope layout arguments name = none :=
  fill_writes_other (by simpa using apart)

theorem enter_eq (arguments : Nat → V) :
    enter arguments (method.parameters.map fun p => (p.mode, Spelling.identifier p.name)) =
      some (enteredScope layout arguments) := by
  rw [enter, layout.zipIdx_map_parameters, List.foldlM_map]
  refine foldlM_fills id (names_nodup layout) (fun _ _ _ none => by cases none) ?_
  intro row member current name same own _
  obtain rfl := Option.some.inj same
  have declared := Cells.declare_eq (layout.aligned.named row member) (own.trans rfl)
    (if row.parameter.mode.isCaptured then valueAt arguments row else none)
  exact declared

theorem carries_packedFields (arguments : Nat → V) :
    Carries layout (packedFields layout arguments) arguments where
  underlying := by
    have untouched : layout.locals.underlyingField ∉ layout.rows.filterMap captured :=
      not_mem_names layout.caller_apart.2.2.1
    rw [packedFields, fill_writes_other untouched, Function.update_self]
  parameters row member := by
    have distinct := names_nodup layout
    split
    · rename_i flows
      exact fill_writes (nodup_of_chosen _ distinct) member (captured_eq_some.mpr ⟨flows, rfl⟩)
    · rename_i out
      have untouched : row.parameter.name ∉ layout.rows.filterMap captured :=
        not_mem_chosen distinct member rfl out
      rw [packedFields, fill_writes_other untouched,
        Function.update_of_ne (layout.name_ne_underlyingField member), bareFields]
      exact fill_writes distinct member rfl

theorem declare_fields (index : Nat) :
    ((ContextClass.ofMethod plan method index layout.locals).fields.map (·.2)).foldlM
      (fun cells field => Cells.declare cells field none) Cells.empty =
        some (bareFields (V := V) layout) := by
  have spelled := layout.underlyingField_spelled
  have first : (Cells.empty : Cells V).declare layout.locals.underlyingField none = some _ :=
    Cells.declare_eq spelled rfl _
  simp only [ContextClass.ofMethod, List.map_cons, List.foldlM_cons, first, Option.bind_eq_bind,
    Option.bind_some, layout.map_parameters, List.map_map, List.foldlM_map]
  refine foldlM_fills id (names_nodup layout) (fun _ _ _ none => by cases none) ?_
  intro row member current name same own _
  obtain rfl := Option.some.inj same
  have fresh : current row.parameter.name = none :=
    own.trans (Function.update_of_ne (layout.name_ne_underlyingField member) _ _)
  exact Cells.declare_eq (layout.aligned.named row member) fresh _

/-- The packing fills every field but those of parameters that only flow back. -/
theorem fill_fields {frame : Frame V} {arguments : Nat → V} (inProxy : frame.inProxy)
    (entered : frame.scope = enteredScope layout arguments) (index : Nat) :
    (MethodImpl.packing method index layout.locals).fields.foldlM
      (fun fields field => (eval frame field.2).bind (fields.assign field.1)) (bareFields layout) =
        some (packedFields layout arguments) := by
  have spelled := layout.underlyingField_spelled
  have distinct := names_nodup layout
  have untouched : layout.locals.underlyingField ∉
      layout.rows.filterMap fun row => some row.parameter.name := by
    simpa using layout.caller_apart.2.2.1
  have declared : bareFields (V := V) layout layout.locals.underlyingField ≠ none := by
    rw [bareFields, fill_writes_other untouched, Function.update_self]
    exact Option.some_ne_none _
  have seen : eval frame (.field underlyingField) = some .underlying := by
    simp [Expr.field, eval, inProxy]
  simp only [MethodImpl.packing, List.foldlM_cons, seen, Option.bind_eq_bind, Option.bind_some,
    Cells.assign_eq spelled declared, layout.filter_parameters, List.foldlM_filterMap]
  refine foldlM_fills id (nodup_of_chosen _ distinct) ?_ ?_
  · intro row member current idle
    simp [captured_eq_none.mp idle]
  · intro row member current name cell own _
    obtain ⟨flows, rfl⟩ := captured_eq_some.mp cell
    have value : eval frame (.name (Spelling.identifier row.parameter.name)) =
        valueAt arguments row := by
      rw [eval, Cells.read_eq (layout.aligned.named row member), entered,
        enteredScope_parameter layout arguments member, if_pos flows, Option.join_some]
    have declared : current row.parameter.name = some none :=
      own.trans ((Function.update_of_ne (layout.name_ne_underlyingField member) _ _).trans
        (fill_writes distinct member rfl))
    have ready : current row.parameter.name ≠ none := by simp [declared]
    simp [flows, value, valueAt, Cells.assign_eq (layout.aligned.named row member) ready]

theorem make_eq {frame : Frame V} {arguments : Nat → V} (inProxy : frame.inProxy)
    (unmade : frame.shared.made = false) (entered : frame.scope = enteredScope layout arguments)
    (index : Nat) :
    make (.ofMethod plan method index layout.locals) frame layout.locals.context
        (contextReference method index) (MethodImpl.packing method index layout.locals).fields =
      some { frame with
        scope := Function.update frame.scope layout.locals.context (some (some .context))
        shared := {
          frame.shared with made := true, fields := packedFields layout arguments } } := by
  have spelled := layout.context_spelled
  have fresh : frame.scope layout.locals.context = none := by
    rw [entered, enteredScope_other layout arguments layout.caller_apart.1]
  have object : frame.scope.declare layout.locals.context (some .context) = some _ :=
    Cells.declare_eq spelled fresh _
  have declared := declare_fields (V := V) layout plan index
  simp only [make, Routine.ofMethod, unmade, and_self, if_true, declared,
    fill_fields layout inProxy entered, Frame.declare, object, Option.bind_eq_bind,
    Option.bind_some, Option.map_some]
  rfl

/-- A call of the underlying object with that answer has come through: its result is given back, and
what flows back is in the caller's parameters. -/
structure Delivers (arguments : Nat → V) (answer : Answer V) (ending : Ending V) (frame : Frame V) :
    Prop where
  result : ending.result = if method.shape.isVoid then none else some answer.result
  parameters : ∀ row ∈ layout.rows, frame.scope row.parameter.name =
    some (if row.parameter.mode.writesBack then valueAt answer.outputs row
      else valueAt arguments row)

theorem fill_changed (arguments outputs : Nat → V) {scope : Cells V}
    (entered : ∀ row ∈ layout.rows, scope row.parameter.name =
      enteredScope layout arguments row.parameter.name) {row : Row} (member : row ∈ layout.rows) :
    scope.fill (writes changed (valueAt outputs) layout.rows) row.parameter.name =
      some (if row.parameter.mode.writesBack then valueAt outputs row
        else valueAt arguments row) := by
  split
  · rename_i back
    exact fill_writes layout.aligned.changed_nodup member (changed_eq_some.mpr ⟨back, rfl⟩)
  · rename_i stays
    have untouched : row.parameter.name ∉ layout.rows.filterMap changed :=
      not_mem_chosen (names_nodup layout) member rfl stays
    have flows : row.parameter.mode.isCaptured := by
      cases mode : row.parameter.mode <;> simp_all [PassMode.writesBack, PassMode.isCaptured]
    rw [fill_writes_other untouched, entered row member, enteredScope_parameter layout _ member,
      if_pos flows]

theorem exec_bypass_of {plan : ProxyPlan} {frame next : Frame V} {result : V}
    (invoked : invoke implementation frame (MethodImpl.directCall plan method) =
      some (result, next)) :
    exec implementation frame (MethodImpl.bypass plan method) =
      some (.returned (if method.shape.isVoid then none else some result), next) := by
  by_cases void : method.shape.isVoid
  · simp only [MethodImpl.bypass, MethodImpl.directBody, if_pos void, List.cons_append, exec,
      step, invoked, Option.bind_eq_bind, Option.bind_some]
    rfl
  · simp only [MethodImpl.bypass, MethodImpl.directBody, if_neg void, List.cons_append, exec,
      step, invoked, Option.bind_eq_bind, Option.bind_some]
    rfl

/-- The direct call with the caller's own parameters, as the whole of what is left to do. -/
theorem exec_bypass {arguments : Nat → V} (frame : Frame V) (inProxy : frame.inProxy)
    (entered : frame.scope = enteredScope layout arguments) :
    ∃ result after,
      exec implementation frame (MethodImpl.bypass plan method) = some (.returned result, after) ∧
      Delivers layout arguments (implementation (request plan method arguments))
        (.returned result) after ∧
      after.shared.events = frame.shared.events ++ [.invoked (request plan method arguments)] := by
  have listed : MethodImpl.directCall plan method =
      MethodImpl.underlyingCall plan method (.field underlyingField)
        ((MethodImpl.withTemporaries method layout.locals).map ownArgument) := by
    rw [MethodImpl.directCall]
    conv => lhs; rw [← layout.parameters, List.map_map]
    rfl
  have seen : eval frame (.field underlyingField) = some .underlying := by
    simp [Expr.field, eval, inProxy]
  have inputs : ∀ row ∈ layout.rows, input frame (ownArgument row.1) =
      some (if row.parameter.mode.isCaptured then some (arguments row.2) else none) := by
    intro row member
    have held := enteredScope_parameter layout arguments member
    rw [← entered] at held
    by_cases out : row.parameter.mode = .byOut
    · simp [ownArgument, input, out, PassMode.isCaptured]
    · have flows : row.parameter.mode.isCaptured := by simpa [PassMode.isCaptured] using out
      rw [if_pos flows] at held
      simp [ownArgument, input, out, flows, evalValue_name (layout.aligned.named row member) held]
  have declared : ∀ row ∈ layout.rows, frame.scope row.parameter.name ≠ none := by
    intro row member
    simp [entered, enteredScope_parameter layout arguments member]
  have invoked := invoke_eq layout plan implementation seen rfl (fun _ _ => rfl) inputs
    (receive_parameters layout.aligned declared)
  rw [← listed] at invoked
  exact ⟨_, _, exec_bypass_of implementation invoked,
    ⟨rfl, fun row member => fill_changed layout _ _ (fun _ _ => congrFun entered _) member⟩, rfl⟩

/-- A hook that passes through leaves the result where the method has one. -/
theorem callHook_passes {host : Host V} (passesThrough : PassesThrough host.hook)
    (frame : Frame V) {arguments : Nat → V}
    (seen : frame.scope layout.locals.context = some (some .context))
    (fresh : frame.scope layout.locals.result = none)
    (carries : Carries layout frame.shared.fields arguments) :
    let answer := host.implementation (request plan method arguments)
    ∃ scope,
      callHook host frame (if method.shape.isVoid then none else some layout.locals.result)
          method.hook layout.locals.context layout.locals.closureParameter
          (MethodImpl.closure plan method layout.locals).flatten = some {
        scope := scope
        shared := {
          made := frame.shared.made
          fields := frame.shared.fields.fill (writes changed (valueAt answer.outputs) layout.rows)
          events := frame.shared.events ++
            [.hooked method.hook, .invoked (request plan method arguments)] }
        inProxy := frame.inProxy } ∧
      (∀ name, name ≠ layout.locals.result → scope name = frame.scope name) ∧
      (¬ method.shape.isVoid →
        scope layout.locals.result = some (some (.value answer.result))) := by
  intro answer
  have contextSpelled := layout.context_spelled
  have resultSpelled := layout.result_spelled
  have object : frame.scope.read layout.locals.context = some .context := by
    rw [Cells.read_eq contextSpelled, seen, Option.join_some]
  have called := function_eq layout plan host.implementation
    { frame.shared with events := frame.shared.events ++ [.hooked method.hook] } carries
  have declared := Cells.declare_eq resultSpelled fresh (some (.value answer.result))
  rw [callHook, object]
  dsimp only
  rw [passesThrough, called]
  by_cases void : method.shape.isVoid
  · exact ⟨frame.scope, by simp [void, answer], fun _ _ => rfl,
      fun gives => absurd void gives⟩
  · exact ⟨_, by simp [void, Frame.declare, declared, answer],
      fun name other => Function.update_of_ne other _ _, fun _ => Function.update_self ..⟩

/-- What stands behind the guard. -/
theorem performs_behind {host : Host V} (passesThrough : PassesThrough host.hook)
    (frame : Frame V) {arguments : Nat → V} (inProxy : frame.inProxy)
    (unmade : frame.shared.made = false) (entered : frame.scope = enteredScope layout arguments)
    (index : Nat) :
    ∃ ending after,
      performAll host (.ofMethod plan method index layout.locals) frame
        (Routine.ofMethod plan method index layout.locals).body.tail = some (ending, after) ∧
      Delivers layout arguments (host.implementation (request plan method arguments)) ending
        after ∧
      after.shared.events = frame.shared.events ++
        [.hooked method.hook, .invoked (request plan method arguments)] := by
  have aligned := layout.aligned
  obtain ⟨contextApart, resultApart, _, apart⟩ := layout.caller_apart
  have contextSpelled := layout.context_spelled
  have resultSpelled := layout.result_spelled
  have made := make_eq layout plan inProxy unmade entered index
  have fresh : Function.update frame.scope layout.locals.context (some (some .context))
      layout.locals.result = none := by
    rw [Function.update_of_ne apart, entered, enteredScope_other layout _ resultApart]
  -- The hook adds no variable but that of the result, so the parameters stay.
  obtain ⟨scope, called, kept, held⟩ := callHook_passes layout plan passesThrough
    ⟨Function.update frame.scope layout.locals.context (some (some .context)),
      ⟨true, packedFields layout arguments, frame.shared.events⟩, frame.inProxy⟩
    (Function.update_self ..) fresh (carries_packedFields layout arguments)
  dsimp only at called kept
  have seen : scope layout.locals.context = some (some .context) :=
    (kept _ apart.symm).trans (Function.update_self ..)
  have parameterKept : ∀ row ∈ layout.rows, scope row.parameter.name =
      enteredScope layout arguments row.parameter.name := by
    intro row member
    rw [kept _ (layout.name_ne_result member),
      Function.update_of_ne (layout.name_ne_context member), entered]
  have declared : ∀ row ∈ layout.rows, scope row.parameter.name ≠ none := by
    intro row member
    simp [parameterKept row member, enteredScope_parameter layout arguments member]
  let answer := host.implementation (request plan method arguments)
  let finished : Frame V := {
    scope := scope.fill (writes changed (valueAt answer.outputs) layout.rows)
    shared := {
      made := true
      fields := (packedFields layout arguments).fill
        (writes changed (valueAt answer.outputs) layout.rows)
      events := frame.shared.events ++
        [.hooked method.hook, .invoked (request plan method arguments)] }
    inProxy := frame.inProxy }
  have resultUnwritten : layout.locals.result ∉ layout.rows.filterMap changed :=
    not_mem_names resultApart
  obtain ⟨ending, gives, result⟩ := exec_giving host.implementation finished resultSpelled
    (fun returns => (fill_writes_other resultUnwritten).trans (held returns))
  refine ⟨ending, finished, ?_, ⟨result, ?_⟩, rfl⟩
  · refine (performAll_make made _).trans ((performAll_hook called _).trans ?_)
    rw [performAll_plain]
    simp only [MethodImpl.interception, layout.filter_parameters]
    refine (exec_writeBacks host.implementation aligned ⟨contextSpelled, seen⟩ contextApart ?_
      declared _).trans gives
    exact fun row member back =>
      fill_writes aligned.changed_nodup member (changed_eq_some.mpr ⟨back, rfl⟩)
  · exact fun row member => fill_changed layout _ _ parameterKept member

theorem Delivers.effect {arguments : Nat → V} {answer : Answer V} {ending : Ending V}
    {frame : Frame V} (delivers : Delivers layout arguments answer ending frame)
    (gives : method.shape.isVoid ↔ method.returnType = none) :
    ending.result = method.returnType.map (fun _ => answer.result) ∧
      (method.parameters.map fun parameter =>
        evalValue frame (.name (Spelling.identifier parameter.name))) =
          method.parameters.zipIdx.map fun (parameter, position) =>
            some (if parameter.mode.writesBack then answer.outputs position
              else arguments position) := by
  constructor
  · rw [delivers.result]
    cases returned : method.returnType with
    | none => simp [gives.mpr returned]
    | some type => simp [gives, returned]
  · have positions := layout.zipIdx_map_parameters id
    rw [List.map_id] at positions
    rw [positions, List.map_map, layout.map_parameters]
    refine List.map_congr_left fun row member => ?_
    have held := delivers.parameters row member
    have named := layout.aligned.named row member
    by_cases back : row.parameter.mode.writesBack
    · simp only [back, if_true, valueAt] at held
      simp [evalValue_name named held, back]
    · simp only [back, valueAt] at held
      simp [evalValue_name named held, back]

end

/-- Whether calls of a method go through the provider under a proxy's allow-list: there is none, or
it names the method, bare or behind its contract. -/
def admits (allowList : Option (List String)) (method : Method) : Bool :=
  match allowList with
  | none => true
  | some allowed =>
    allowed.contains (unsigned method.name) || allowed.contains method.simpleKey ||
      allowed.contains method.fullKey

theorem bypasses_guard (allowList : Option (List String)) (plan : ProxyPlan) (method : Method) :
    bypasses allowList (MethodImpl.guard plan method).entries = !admits allowList method := by
  cases allowList with
  | none => rfl
  | some allowed => simp [bypasses, admits, MethodImpl.guard, sought, Bool.and_assoc]

/-- Under a hook that passes through, the instructions of a method do what one call of the
underlying object does. The provider sees the call unless the allow-list leaves the method out. -/
theorem run_routine {method : Method} (layout : Layout method) (plan : ProxyPlan) (index : Nat)
    (gives : method.shape.isVoid ↔ method.returnType = none) {host : Host V}
    (passesThrough : PassesThrough host.hook) (arguments : Nat → V) :
    let answer := host.implementation (request plan method arguments)
    run host (.ofMethod plan method index layout.locals) arguments = some {
      result := method.returnType.map fun _ => answer.result
      finals := method.parameters.zipIdx.map fun (parameter, position) =>
        some (if parameter.mode.writesBack then answer.outputs position else arguments position)
      events := (if admits host.allowList method then [.hooked method.hook] else []) ++
        [.invoked (request plan method arguments)] } := by
  intro answer
  let routine := Routine.ofMethod plan method index layout.locals
  let frame : Frame V := ⟨enteredScope layout arguments, ⟨false, Cells.empty, []⟩, true⟩
  have performed : ∃ ending after,
      performAll host routine frame routine.body = some (ending, after) ∧
      Delivers layout arguments answer ending after ∧
      after.shared.events = (if admits host.allowList method then [.hooked method.hook] else []) ++
        [.invoked (request plan method arguments)] := by
    -- Either the guard lets the call on to the hook or it makes the direct call itself.
    by_cases admitted : admits host.allowList method
    · obtain ⟨ending, after, runs, delivers, events⟩ :=
        performs_behind layout plan passesThrough frame rfl rfl rfl index
      have through : ¬ bypasses host.allowList (MethodImpl.guard plan method).entries := by
        simp [bypasses_guard, admitted]
      exact ⟨ending, after, (performAll_unguarded through _ _).trans runs, delivers,
        by simp [events, admitted, frame]⟩
    · obtain ⟨result, after, runs, delivers, events⟩ :=
        exec_bypass layout plan host.implementation frame rfl rfl
      have around : bypasses host.allowList (MethodImpl.guard plan method).entries := by
        simp [bypasses_guard, admitted]
      exact ⟨.returned result, after, performAll_bypassed around runs _, delivers,
        by simp [events, admitted, frame]⟩
  obtain ⟨ending, after, runs, delivers, events⟩ := performed
  obtain ⟨result, finals⟩ := delivers.effect layout gives
  have scope : enter arguments routine.parameters = some (enteredScope layout arguments) :=
    enter_eq layout arguments
  have held : (routine.parameters.map fun parameter => evalValue after (.name parameter.2)) =
      method.parameters.map fun parameter =>
        evalValue after (.name (Spelling.identifier parameter.name)) := List.map_map
  simp only [run, ← show routine = .ofMethod plan method index layout.locals from rfl, scope, runs,
    ← show frame = ⟨enteredScope layout arguments, ⟨false, Cells.empty, []⟩, true⟩ from rfl,
    Option.bind_eq_bind, Option.bind_some, held, finals, result, events]
  rfl

end Interpose.Execution
