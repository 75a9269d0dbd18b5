import Interpose.Text.Ranges

/-!
# White space

The code points with the White_Space property, and the two trims that use it.
-/

namespace Interpose.Text

/-- The ranges of the White_Space property. -/
def blankRanges : List (Nat × Nat) := [
    (0x9, 0xD), (0x20, 0x20), (0x85, 0x85), (0xA0, 0xA0), (0x1680, 0x1680), (0x2000, 0x200A),
    (0x2028, 0x2029), (0x202F, 0x202F), (0x205F, 0x205F), (0x3000, 0x3000)]

def blank (c : Char) : Bool := covers blankRanges c.toNat

/-- A text without the white space at its end. -/
def trimEnd (s : String) : String :=
  String.ofList (s.toList.reverse.dropWhile blank).reverse

def allBlank (s : String) : Bool := s.toList.all blank

end Interpose.Text
