import Interpose.Proofs.Words
import Interpose.Proxy.Method
import Mathlib.Data.List.ReduceOption
import Mathlib.Logic.Function.Basic

/-!
# Execution of generated methods

What a generated method does when it is called: `run` takes the values of the arguments and tells
what comes back, what the parameters hold at the end and what was called on the way. The
instructions of the body are carried out one after the other, in the order in which they are
written. Code that is no program, such as one that reads a variable before its first assignment or
declares one twice, does not run at all.
-/

namespace Interpose.Execution

open Proxy

variable {V : Type}

inductive Content (V : Type) where
  | value (v : V)
  | underlying
  /-- The object that carries the arguments of the call. -/
  | context

/-- The variables of a scope or the fields of an object, by identifier. What is not declared is
none, and what is not assigned yet holds none. -/
abbrev Cells (V : Type) : Type := String → Option (Option (Content V))

namespace Cells

def empty : Cells V := fun _ => none

def read (cells : Cells V) (word : String) : Option (Content V) :=
  (identified word).bind fun name => (cells name).join

/-- Adds a variable or a field. There must be none of the name yet. -/
def declare (cells : Cells V) (word : String) (content : Option (Content V)) : Option (Cells V) :=
  (identified word).bind fun name =>
    if (cells name).isNone then some (Function.update cells name (some content)) else none

def assign (cells : Cells V) (word : String) (content : Content V) : Option (Cells V) :=
  (identified word).bind fun name =>
    if (cells name).isSome then some (Function.update cells name (some (some content))) else none

end Cells

/-- A call as it reaches the underlying object. -/
structure Invocation (V : Type) where
  /-- The contract as which the object is seen, where a cast says so. -/
  view : Option String
  method : String
  typeArguments : List String
  modes : List PassMode
  inputs : List V

structure Answer (V : Type) where
  /-- The result, of no meaning where the method has none. -/
  result : V
  /-- The values that flow back, by the position of the argument. -/
  outputs : Nat → V

abbrev Implementation (V : Type) : Type := Invocation V → Answer V

inductive Event (V : Type) where
  | hooked (selector : String)
  | invoked (invocation : Invocation V)

/-- What a method and the function that it hands to a hook have in common. -/
structure Shared (V : Type) where
  /-- Whether there is a context object. There is one at most. -/
  made : Bool
  fields : Cells V
  events : List (Event V)

structure Frame (V : Type) where
  scope : Cells V
  shared : Shared V
  /-- Whether the code belongs to the proxy. A static function sees nothing of it. -/
  inProxy : Bool

/-- A hook by its name: it is given a function and what that function starts from. -/
abbrev Hook (V : Type) : Type :=
  String → (Shared V → Option (Option V × Shared V)) → Shared V → Option (Option V × Shared V)

/-- The hook runs its function once, on the context that it got, and gives back what comes out. -/
def PassesThrough (hook : Hook V) : Prop :=
  ∀ selector function shared, hook selector function shared = function shared

/-! ### Expressions and calls -/

def eval (frame : Frame V) : Expr → Option (Content V)
  | .name word => frame.scope.read word
  | .member target word =>
    if target = .name "this" then
      if frame.inProxy && word == underlyingField then some .underlying else none
    else
      match eval frame target with
      | some .context => frame.shared.fields.read word
      | _ => none
  | .cast _ target => eval frame target

def evalValue (frame : Frame V) (expr : Expr) : Option V :=
  match eval frame expr with
  | some (.value v) => some v
  | _ => none

def view : Expr → Option String
  | .cast type _ => some type
  | _ => none

def modeOf : Argument → PassMode
  | .pass mode _ => mode
  | .declare _ _ => .byOut

/-- The value that flows in through an argument, none in one that only flows back. -/
def input (frame : Frame V) : Argument → Option (Option V)
  | .pass mode value => if mode = .byOut then some none else (evalValue frame value).map some
  | .declare _ _ => some none

def receive (scope : Cells V) (v : V) : Argument → Option (Cells V)
  | .pass mode (.name word) =>
    if mode.writesBack then scope.assign word (.value v) else some scope
  | .pass mode _ => if mode.writesBack then none else some scope
  | .declare _ word => scope.declare word (some (.value v))

def receiveAll (outputs : Nat → V) (scope : Cells V) (arguments : List (Argument × Nat)) :
    Option (Cells V) :=
  arguments.foldlM (fun scope argument => receive scope (outputs argument.2) argument.1)
    scope

def invoke (implementation : Implementation V) (frame : Frame V) (call : Call) :
    Option (V × Frame V) :=
  match eval frame call.target with
  | some .underlying => do
    let inputs ← call.arguments.mapM (input frame)
    let invocation := {
      view := view call.target
      method := call.method
      typeArguments := call.typeArguments
      modes := call.arguments.map modeOf
      inputs := inputs.reduceOption }
    let answer := implementation invocation
    let scope ← receiveAll answer.outputs frame.scope call.arguments.zipIdx
    return (answer.result, { frame with
      scope := scope
      shared := { frame.shared with events := frame.shared.events ++ [.invoked invocation] } })
  | _ => none

/-! ### Statements -/

inductive Ending (V : Type) where
  | runsOn
  | returned (result : Option V)

def Ending.result : Ending V → Option V
  | runsOn => none
  | returned result => result

def Frame.declare (frame : Frame V) (word : String) (content : Content V) : Option (Frame V) :=
  (frame.scope.declare word (some content)).map fun scope =>
    { frame with scope := scope }

def Frame.assign (frame : Frame V) (target : Expr) (content : Content V) : Option (Frame V) :=
  match target with
  | .name word =>
    (frame.scope.assign word content).map fun scope => { frame with scope := scope }
  | .member owner word =>
    match eval frame owner with
    | some .context => (frame.shared.fields.assign word content).map fun fields =>
        { frame with shared := { frame.shared with fields := fields } }
    | _ => none
  | .cast _ _ => none

def step (implementation : Implementation V) (frame : Frame V) :
    Stmt → Option (Ending V × Frame V)
  | .declare word value => do
    let content ← eval frame value
    return (.runsOn, ← frame.declare word content)
  | .declareCall word made => do
    let (result, frame) ← invoke implementation frame made
    return (.runsOn, ← frame.declare word (.value result))
  | .assign target value => do
    let content ← eval frame value
    return (.runsOn, ← frame.assign target content)
  | .call made => do
    let (_, frame) ← invoke implementation frame made
    return (.runsOn, frame)
  | .giveCall made => do
    let (result, frame) ← invoke implementation frame made
    return (.returned (some result), frame)
  | .give value => do
    let result ← evalValue frame value
    return (.returned (some result), frame)
  | .stop => some (.returned none, frame)
  | .throwNew _ => none

def exec (implementation : Implementation V) (frame : Frame V) :
    List Stmt → Option (Ending V × Frame V)
  | [] => some (.runsOn, frame)
  | statement :: rest =>
    match step implementation frame statement with
    | some (.runsOn, next) => exec implementation next rest
    | other => other

/-! ### Instructions -/

/-- A name without the sign in front of it. -/
def unsigned (name : String) : String :=
  match name.toList with
  | '@' :: rest => String.ofList rest
  | _ => name

theorem length_unsigned (name : String) :
    (unsigned name).toList.length ≤ name.toList.length := by
  unfold unsigned
  split
  · rename_i rest letters
    rw [letters, String.toList_ofList]
    exact Nat.le_succ _
  · exact Nat.le_refl _

theorem unsigned_eq_iff {name : String} :
    unsigned name = name ↔ name.toList.head? ≠ some '@' := by
  unfold unsigned
  split
  · rename_i rest letters
    rw [letters]
    refine ⟨fun same => ?_, fun signless => absurd rfl signless⟩
    have shorter := congrArg (·.toList.length) same
    rw [String.toList_ofList, letters, List.length_cons] at shorter
    omega
  · rename_i other
    refine ⟨fun _ signed => ?_, fun _ => rfl⟩
    obtain ⟨rest, letters⟩ := List.head?_eq_some_iff.mp signed
    exact other rest letters

/-- What an entry of a guard stands for. Names hold nothing that a literal would have to escape. -/
def sought : GuardEntry → String
  | .nameOf _ member => unsigned member
  | .literal text => text

/-- Whether no entry of a guard is in a proxy's allow-list, where it has one. -/
def bypasses (allowList : Option (List String)) (entries : List GuardEntry) : Bool :=
  match allowList with
  | none => false
  | some allowed => entries.all fun entry => !allowed.contains (sought entry)

/-- A statement, or a head with the block that belongs to it. -/
inductive Instruction where
  | plain (statement : Stmt)
  /-- Runs a block where the allow-list has none of the entries. -/
  | guarded (entries : List GuardEntry) (block : List Stmt)
  /-- Makes an object of a class and fills fields of it. -/
  | make (word title : String) (fields : List (String × Expr))
  /-- Hands an object to a hook, with a function of one parameter. -/
  | hook (result : Option String) (selector context parameter : String) (body : List Stmt)
  deriving Repr, DecidableEq

/-- A method, with the class that is declared for it. -/
structure Routine where
  /-- The name of the class with its type parameters. -/
  title : String
  fields : List String
  parameters : List (PassMode × String)
  body : List Instruction
  deriving Repr, DecidableEq

/-- What a method finds around it. -/
structure Host (V : Type) where
  hook : Hook V
  implementation : Implementation V
  allowList : Option (List String)

/-- Makes the context object: declares the fields of its class and fills those that are named. -/
def make (routine : Routine) (frame : Frame V) (word title : String)
    (fields : List (String × Expr)) : Option (Frame V) :=
  if title = routine.title ∧ frame.shared.made = false then do
    let bare ← routine.fields.foldlM (fun cells field => cells.declare field none) Cells.empty
    let filled ← fields.foldlM
      (fun cells field => (eval frame field.2).bind (cells.assign field.1)) bare
    let frame ← frame.declare word .context
    return { frame with shared := { frame.shared with made := true, fields := filled } }
  else none

/-- The function that a hook is given. It knows its parameter only. -/
def function (implementation : Implementation V) (parameter : String) (body : List Stmt)
    (shared : Shared V) : Option (Option V × Shared V) := do
  let scope ← Cells.empty.declare parameter (some .context)
  let (ending, frame) ← exec implementation ⟨scope, shared, false⟩ body
  return (ending.result, frame.shared)

def callHook (host : Host V) (frame : Frame V) (result : Option String)
    (selector context parameter : String) (body : List Stmt) : Option (Frame V) :=
  match frame.scope.read context with
  | some .context => do
    let shared := { frame.shared with events := frame.shared.events ++ [.hooked selector] }
    let (given, shared) ←
      host.hook selector (function host.implementation parameter body) shared
    let frame := { frame with shared := shared }
    match result, given with
    | some word, some v => frame.declare word (.value v)
    | none, none => some frame
    | _, _ => none
  | _ => none

def perform (host : Host V) (routine : Routine) (frame : Frame V) :
    Instruction → Option (Ending V × Frame V)
  | .plain statement => step host.implementation frame statement
  | .guarded entries block =>
    if bypasses host.allowList entries then exec host.implementation frame block
    else some (.runsOn, frame)
  | .make word title fields => (make routine frame word title fields).map (.runsOn, ·)
  | .hook result selector context parameter body =>
    (callHook host frame result selector context parameter body).map (.runsOn, ·)

/-- Carries out instructions in their order, up to one that returns. -/
def performAll (host : Host V) (routine : Routine) (frame : Frame V) :
    List Instruction → Option (Ending V × Frame V)
  | [] => some (.runsOn, frame)
  | instruction :: rest =>
    match perform host routine frame instruction with
    | some (.runsOn, next) => performAll host routine next rest
    | other => other

/-! ### Calls from outside -/

/-- Declares the parameters. One that only flows back has no value at the beginning. -/
def enter (arguments : Nat → V) (parameters : List (PassMode × String)) : Option (Cells V) :=
  parameters.zipIdx.foldlM (fun scope (parameter, position) =>
    scope.declare parameter.2
      (if parameter.1.isCaptured then some (.value (arguments position)) else none)) Cells.empty

structure Effect (V : Type) where
  result : Option V
  finals : List (Option V)
  events : List (Event V)

def run (host : Host V) (routine : Routine) (arguments : Nat → V) : Option (Effect V) := do
  let scope ← enter arguments routine.parameters
  let (ending, frame) ←
    performAll host routine ⟨scope, ⟨false, Cells.empty, []⟩, true⟩ routine.body
  return {
    result := ending.result
    finals := routine.parameters.map fun parameter => evalValue frame (.name parameter.2)
    events := frame.shared.events }

end Interpose.Execution
