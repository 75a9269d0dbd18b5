import Interpose.Model.TypeRef

/-!
# Return shapes and hooks

A method's return type alone decides its shape, and the shape decides which of a provider's six
hooks its calls go through.
-/

namespace Interpose

inductive ReturnShape where
  | void
  | value
  | awaitable
  | awaitableOfValue
  | lightAwaitable
  | lightAwaitableOfValue
  deriving Repr, DecidableEq

inductive HookKind where
  | processVoid
  | processValue
  | processAwaitable
  | processAwaitableOfValue
  | processLightAwaitable
  | processLightAwaitableOfValue
  deriving Repr, DecidableEq

namespace ReturnShape

/-- The shape of a return type, where none means that nothing is returned. -/
def classify : Option TypeRef → ReturnShape
  | none => .void
  | some type =>
    match type.simpleName, type.arity with
    | "Task", 0 => .awaitable
    | "Task", 1 => .awaitableOfValue
    | "ValueTask", 0 => .lightAwaitable
    | "ValueTask", 1 => .lightAwaitableOfValue
    | _, _ => .value

def hookKind : ReturnShape → HookKind
  | void => .processVoid
  | value => .processValue
  | awaitable => .processAwaitable
  | awaitableOfValue => .processAwaitableOfValue
  | lightAwaitable => .processLightAwaitable
  | lightAwaitableOfValue => .processLightAwaitableOfValue

def isVoid (shape : ReturnShape) : Bool := shape = void

/-- Whether a call may go on after it has returned. -/
def isAsynchronous (shape : ReturnShape) : Bool := shape ≠ void ∧ shape ≠ value

end ReturnShape

namespace HookKind

/-- The six kinds in table order. -/
def all : List HookKind := [
  processVoid, processValue, processAwaitable, processAwaitableOfValue, processLightAwaitable,
  processLightAwaitableOfValue]

/-- The method that the base provider declares for a hook. -/
def defaultSelector : HookKind → String
  | processVoid => "Process"
  | processValue => "ProcessWithReturnType"
  | processAwaitable => "ProcessAsync"
  | processAwaitableOfValue => "ProcessWithReturnTypeAsync"
  | processLightAwaitable => "ProcessValueTaskAsync"
  | processLightAwaitableOfValue => "ProcessWithReturnTypeValueTaskAsync"

/-- The kind as messages write it. -/
def label : HookKind → String
  | processVoid => "process-void"
  | processValue => "process-value"
  | processAwaitable => "process-awaitable"
  | processAwaitableOfValue => "process-awaitable-of-value"
  | processLightAwaitable => "process-light-awaitable"
  | processLightAwaitableOfValue => "process-light-awaitable-of-value"

end HookKind

end Interpose
