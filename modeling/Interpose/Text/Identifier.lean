import Interpose.Text.Alphabetic
import Interpose.Text.Numeric

/-!
# Identifiers

`dotted` recognises a name written as identifiers between dots. `segment` turns any text into one
that holds identifier characters only, with single underscores where other characters stood.
-/

namespace Interpose.Text

/-- A letter or a number. The underscore is neither. -/
def alphanumeric (c : Char) : Bool := alphabetic c || numeric c

def opens (c : Char) : Bool := alphabetic c || c == '_'

def follows (c : Char) : Bool := alphanumeric c || c == '_'

/-- Reads identifiers between dots; `inside` tells whether the current one has begun. -/
def dottedFrom (inside : Bool) : List Char → Bool
  | [] => inside
  | c :: rest =>
    if inside then
      if c = '.' then dottedFrom false rest else follows c && dottedFrom true rest
    else opens c && dottedFrom true rest

/-- Whether a text is one or more identifiers between dots. -/
def dotted (s : String) : Bool := dottedFrom false s.toList

/-- Leaves one underscore of each run. -/
def collapse : List Char → List Char
  | [] => []
  | c :: rest =>
    match collapse rest with
    | '_' :: tail => if c = '_' then '_' :: tail else c :: '_' :: tail
    | tail => c :: tail

def trimUnderscores (cs : List Char) : List Char :=
  ((cs.dropWhile (· == '_')).reverse.dropWhile (· == '_')).reverse

/-- A name as a part of an identifier: every other character becomes an underscore, and no
underscore stands at an end or beside another. -/
def segment (name : String) : String :=
  String.ofList (trimUnderscores (collapse
    (name.toList.map fun c => if alphanumeric c then c else '_')))

end Interpose.Text
