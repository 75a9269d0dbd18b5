/-!
# Ranges of code points

A character property is an ascending list of closed ranges; `covers` looks a code point up in it.
-/

namespace Interpose.Text

/-- Whether one of the ascending closed ranges holds `n`. -/
def covers : List (Nat × Nat) → Nat → Bool
  | [], _ => false
  | (low, high) :: rest, n => low ≤ n && (n ≤ high || covers rest n)

end Interpose.Text
