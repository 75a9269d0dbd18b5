import Interpose.Chunks

/-!
# Fan-out

Work on the items of a list, done in order or shared out among workers in contiguous chunks.
-/

namespace Interpose.FanOut

/-- How many workers there may be: at least one, and no more than there are items. -/
def workers (processors items : Nat) : Nat := max 1 (min processors items)

/-- How many items a worker gets: enough for the workers to get them all. -/
def share (processors items : Nat) : Nat :=
  (items + workers processors items - 1) / workers processors items

/-- The items of each worker. -/
def shares {α : Type} (processors : Nat) (items : List α) : List (List α) :=
  chunksOf (share processors items.length) items

/-- The results in the order of the items. -/
def run {α β : Type} (parallel : Bool) (processors : Nat) (work : α → β) (items : List α) :
    List β :=
  if parallel && 1 < items.length then
    (shares processors items).flatMap fun chunk => chunk.map work
  else items.map work

end Interpose.FanOut
