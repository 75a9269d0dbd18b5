/-!
# Chunks

A list cut into contiguous pieces of a given size; the last piece may be shorter.
-/

namespace Interpose

/-- The pieces of `size` elements each, in order. A size of zero gives none. -/
def chunksOf {α : Type} (size : Nat) (xs : List α) : List (List α) :=
  if size = 0 ∨ xs.isEmpty then [] else xs.take size :: chunksOf size (xs.drop size)
termination_by xs.length
decreasing_by
  have : xs.length ≠ 0 := by cases xs <;> simp_all
  simp only [List.length_drop]
  omega

end Interpose
