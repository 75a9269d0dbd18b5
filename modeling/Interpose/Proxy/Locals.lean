import Interpose.Model.Member

/-!
# Locals

The names that a forwarded call needs of its own, none of which is the name of a parameter or given
twice.
-/

namespace Interpose

/-- A name with a number behind it; zero leaves it as it is. -/
def numbered (base : String) : Nat → String
  | 0 => base
  | n + 1 => base ++ "_" ++ (n + 1).repr

/-- The first of the names numbered from `n` that is not taken; the last one after `attempts`. -/
def firstFree (taken : List String) (base : String) (n : Nat) : Nat → String
  | 0 => numbered base n
  | attempts + 1 =>
    if numbered base n ∈ taken then firstFree taken base (n + 1) attempts else numbered base n

/-- A name that is not taken. As many attempts as there are taken names leave one free. -/
def freeName (taken : List String) (base : String) : String :=
  firstFree taken base 0 taken.length

structure Locals where
  /-- The object that carries the arguments of one call. -/
  context : String
  /-- What the hook returned. -/
  result : String
  /-- The parameter of the inner function. -/
  closureParameter : String
  /-- What the underlying call returned. -/
  innerResult : String
  /-- The field of the context that holds the underlying object. -/
  underlyingField : String
  temporaries : List (Option String)
  deriving Repr, DecidableEq

namespace Locals

/-- The name from which a parameter's variable takes its own. -/
def temporaryBase (index : Nat) (parameter : String) : String :=
  "temp_" ++ index.repr ++ "_" ++ String.ofList (parameter.toList.dropWhile (· == '@'))

/-- Variables for parameters of which the first has that index. -/
def temporariesFrom (taken : List String) (index : Nat) : List Parameter → List (Option String)
  | [] => []
  | parameter :: rest =>
    if parameter.mode.needsTemporary then
      let name := freeName taken (temporaryBase index parameter.name)
      some name :: temporariesFrom (name :: taken) (index + 1) rest
    else none :: temporariesFrom taken (index + 1) rest

def ofParameters (parameters : List Parameter) : Locals :=
  let taken := parameters.map (·.name)
  let context := freeName taken "methodContext"
  let taken := context :: taken
  let result := freeName taken "interceptorInvocationResult"
  let taken := result :: taken
  let closureParameter := freeName taken "context"
  let taken := closureParameter :: taken
  let innerResult := freeName taken "localResult"
  let taken := innerResult :: taken
  let underlyingField := freeName taken "underlyingImplementation"
  let taken := underlyingField :: taken
  { context, result, closureParameter, innerResult, underlyingField
    temporaries := temporariesFrom taken 0 parameters }

def temporary (locals : Locals) (index : Nat) : Option String :=
  (locals.temporaries[index]?).join

end Locals

end Interpose
