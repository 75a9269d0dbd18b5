/-!
# Sets of names

A set of names is its members in ascending order, without repetition.
-/

namespace Interpose

structure NameSet where
  names : List String
  deriving Repr, DecidableEq

namespace NameSet

def empty : NameSet := ⟨[]⟩

/-- Puts a name in its place, unless it is there already. -/
def place (name : String) : List String → List String
  | [] => [name]
  | head :: rest =>
    if name < head then name :: head :: rest
    else if name = head then head :: rest
    else head :: place name rest

def insert (set : NameSet) (name : String) : NameSet := ⟨place name set.names⟩

def ofList (names : List String) : NameSet := names.foldl insert empty

def union (a b : NameSet) : NameSet := b.names.foldl insert a

def contains (set : NameSet) (name : String) : Bool := set.names.contains name

end NameSet

end Interpose
