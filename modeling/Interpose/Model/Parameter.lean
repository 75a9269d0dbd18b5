import Interpose.Model.TypeRef

/-!
# Parameters

A parameter is passed in one of four modes, which decide what flows into a call and what flows back.
-/

namespace Interpose

inductive PassMode where
  | byValue
  | byRef
  | byOut
  | byIn
  deriving Repr, DecidableEq

namespace PassMode

/-- The word before an argument, empty for a plain one. -/
def keyword : PassMode → String
  | byValue => ""
  | byRef => "ref"
  | byOut => "out"
  | byIn => "in"

/-- Whether the argument carries a value into the call. -/
def isCaptured (mode : PassMode) : Bool := mode ≠ byOut

/-- Whether the call's value flows back to the caller. -/
def writesBack (mode : PassMode) : Bool := mode = byRef ∨ mode = byOut

/-- Whether a forwarded call needs a variable of its own for the argument. -/
def needsTemporary (mode : PassMode) : Bool := mode ≠ byValue

end PassMode

structure Parameter where
  name : String
  type : TypeRef
  mode : PassMode
  deriving Repr, BEq

end Interpose
