import Interpose.Catalog

/-!
# Registers

A register takes definitions in, one for each full name. A later definition takes the slot of an
earlier one of its name; a new name gets the next slot. The slots are kept by name beside the
definitions.
-/

namespace Interpose

structure Register where
  /-- The definitions in the order in which their names came up. -/
  types : List TypeDef
  /-- The slot of each name. -/
  slots : List (String × Nat)
  deriving Repr, BEq

namespace Register

def empty : Register := ⟨[], []⟩

def slot? (register : Register) (name : String) : Option Nat := register.slots.lookup name

def resolve (register : Register) (name : String) : Option TypeDef :=
  (register.slot? name).bind (register.types[·]?)

def insert (register : Register) (type : TypeDef) : Register :=
  match register.slot? type.name with
  | some slot => { register with types := register.types.set slot type }
  | none => ⟨register.types ++ [type], (type.name, register.types.length) :: register.slots⟩

def ofList (types : List TypeDef) : Register := types.foldl insert empty

def size (register : Register) : Nat := register.types.length

def catalog (register : Register) : Catalog := ⟨register.types⟩

end Register

/-- The catalog of the last definition of each name. -/
def Catalog.ofList (types : List TypeDef) : Catalog := (Register.ofList types).catalog

end Interpose
