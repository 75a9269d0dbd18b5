/-!
# Diagnostics

What a pass reports about the requests it could not serve, each with the place of its request.
-/

namespace Interpose

structure Location where
  file : String
  /-- The bytes from `start` up to `stop`. -/
  start : UInt64
  stop : UInt64
  line : UInt32
  column : UInt32
  deriving Repr, DecidableEq

def Location.text (location : Location) : String :=
  location.file ++ ":" ++ location.line.toNat.repr ++ ":" ++ location.column.toNat.repr

inductive Severity where
  | info
  | warning
  | error
  deriving Repr, DecidableEq

def Severity.label : Severity → String
  | info => "info"
  | warning => "warning"
  | error => "error"

structure Diagnostic where
  severity : Severity
  code : String
  message : String
  location : Option Location
  deriving Repr, DecidableEq

namespace Diagnostic

def invalidContract : String := "DEC1001"
def invalidProvider : String := "DEC1002"
def unknownType : String := "DEC1003"
def variadicMethod : String := "DEC1004"
/-- The contract declares a member that is neither a method nor a property. -/
def unsupportedMember : String := "DEC1005"
/-- The contract has a type parameter among its arguments. -/
def openContract : String := "DEC1006"
def noConstructor : String := "DEC1007"
def unresolvedHook : String := "DEC9001"

def failure (code message : String) : Diagnostic := ⟨.error, code, message, none⟩

def isError (diagnostic : Diagnostic) : Bool := diagnostic.severity = .error

/-- One copy for each location, or a single copy without one. -/
def atEach (diagnostic : Diagnostic) (locations : List Location) : List Diagnostic :=
  if locations.isEmpty then [diagnostic]
  else locations.map fun location => { diagnostic with location := some location }

def text (diagnostic : Diagnostic) : String :=
  (match diagnostic.location with
    | some location => location.text ++ ": "
    | none => "") ++
    diagnostic.severity.label ++ "[" ++ diagnostic.code ++ "]: " ++ diagnostic.message

end Diagnostic

end Interpose
