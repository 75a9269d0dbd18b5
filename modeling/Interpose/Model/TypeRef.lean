/-!
# Type references

A reference names a type in full and in short and carries its type arguments. The full name alone
decides which type is meant.
-/

namespace Interpose

structure TypeRef where
  fullName : String
  shortName : String
  /-- Whether the reference is a type parameter of its surroundings. -/
  isParameter : Bool
  arguments : List TypeRef
  deriving Repr, BEq, Inhabited

namespace TypeRef

def named (fullName shortName : String) : TypeRef := ⟨fullName, shortName, false, []⟩

def parameter (name : String) : TypeRef := ⟨name, name, true, []⟩

def angled (names : List String) : String := "<" ++ ", ".intercalate names ++ ">"

/-- The type closed over arguments, whose names are added to both of its own. Without arguments it
stays as it is. -/
def close (type : TypeRef) (arguments : List TypeRef) : TypeRef :=
  if arguments.isEmpty then type
  else { type with
    fullName := type.fullName ++ angled (arguments.map (·.fullName))
    shortName := type.shortName ++ angled (arguments.map (·.shortName))
    arguments := arguments }

/-- The short name without a list of type arguments. -/
def simpleName (type : TypeRef) : String :=
  String.ofList (type.shortName.toList.takeWhile (· != '<'))

def arity (type : TypeRef) : Nat := type.arguments.length

def sameType (a b : TypeRef) : Bool := a.fullName == b.fullName

mutual

/-- Whether a type parameter stands somewhere among the arguments. -/
def isOpen : TypeRef → Bool
  | ⟨_, _, _, arguments⟩ => anyOpen arguments

def anyOpen : List TypeRef → Bool
  | [] => false
  | type :: rest => type.isParameter || isOpen type || anyOpen rest

end

mutual

/-- Whether the reference is the type parameter `name` or has it among its arguments. Nothing is
looked for below a type parameter. -/
def mentions (name : String) : TypeRef → Bool
  | ⟨fullName, _, isParameter, arguments⟩ =>
    if isParameter then fullName == name else anyMentions name arguments

def anyMentions (name : String) : List TypeRef → Bool
  | [] => false
  | type :: rest => mentions name type || anyMentions name rest

end

end TypeRef

end Interpose
