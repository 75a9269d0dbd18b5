import Interpose.Model.Parameter
import Interpose.Model.Shape

/-!
# Catalogs of type definitions

A catalog holds the definitions of types, in which a name is looked up.
-/

namespace Interpose

inductive TypeKind where
  | interface
  | classType
  | structType
  | enumType
  | delegateType
  deriving Repr, DecidableEq

inductive Setter where
  | absent
  | set
  | init
  deriving Repr, DecidableEq

structure MethodDecl where
  name : String
  returnType : Option TypeRef
  typeParameters : List String
  parameters : List Parameter
  isStatic : Bool
  /-- The property of which the method is an accessor. -/
  accessorOf : Option String
  /-- The hook that the method declares or overrides. -/
  hook : Option HookKind
  /-- Whether the last parameter takes any number of arguments. -/
  isVariadic : Bool
  deriving Repr, BEq

structure PropertyDecl where
  name : String
  type : TypeRef
  hasGetter : Bool
  setter : Setter
  isStatic : Bool
  deriving Repr, BEq

structure TypeDef where
  reference : TypeRef
  kind : TypeKind
  baseType : Option TypeRef
  interfaces : List TypeRef
  methods : List MethodDecl
  properties : List PropertyDecl
  events : List String
  constructors : List (List Parameter)
  deriving Repr, BEq

def MethodDecl.plain (name : String) (returnType : Option TypeRef) (parameters : List Parameter) :
    MethodDecl :=
  ⟨name, returnType, [], parameters, false, none, none, false⟩

/-- A method that declares a hook under its usual name. -/
def MethodDecl.ofHook (kind : HookKind) : MethodDecl :=
  { MethodDecl.plain kind.defaultSelector none [] with hook := some kind }

namespace TypeDef

def name (type : TypeDef) : String := type.reference.fullName

def bare (reference : TypeRef) (kind : TypeKind) : TypeDef :=
  ⟨reference, kind, none, [], [], [], [], []⟩

/-- A class with a constructor without parameters and all six hooks. -/
def standardProvider (reference : TypeRef) : TypeDef :=
  { bare reference .classType with
    methods := HookKind.all.map MethodDecl.ofHook
    constructors := [[]] }

end TypeDef

structure Catalog where
  /-- The definitions in the order in which their names came up. -/
  types : List TypeDef
  deriving Repr, BEq

namespace Catalog

def empty : Catalog := ⟨[]⟩

/-- The position of the definition of a name. -/
def slot? (catalog : Catalog) (name : String) : Option Nat :=
  catalog.types.findIdx? (·.name == name)

def resolve (catalog : Catalog) (name : String) : Option TypeDef :=
  (catalog.slot? name).bind (catalog.types[·]?)

def size (catalog : Catalog) : Nat := catalog.types.length

end Catalog

end Interpose
