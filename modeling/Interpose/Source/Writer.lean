import Interpose.Text.Blank

/-!
# Layout of source text

A script is the steps by which a text is laid out: lines, blank lines and blocks between braces. A
writer carries a script out and keeps lines indented, blanks single and blocks tight.
-/

namespace Interpose

inductive Step where
  | line (text : String)
  | blank
  /-- A header, unless it is empty, and an opening brace. -/
  | enter (header : String)
  | leave (closing : String)
  deriving Repr, DecidableEq

abbrev Script : Type := List Step

namespace Script

/-- A block between a header and a closing brace. -/
def block (header : String) (body : Script) : Script := .enter header :: body ++ [.leave "\x7d"]

/-- The parts that are not empty, with a blank line between each two. -/
def spaced (parts : List Script) : Script :=
  List.intercalate [.blank] (parts.filter (!·.isEmpty))

end Script

structure Writer where
  /-- The lines so far, newest first. -/
  lines : List String
  depth : Nat
  deriving Repr, DecidableEq

namespace Writer

def empty : Writer := ⟨[], 0⟩

/-- Whether the text ends in a blank line that is not all of it. -/
def endsBlank (lines : List String) : Bool :=
  match lines with
  | "" :: _ :: _ => true
  | _ => false

/-- Whether a blank line may follow: not at the beginning, behind a blank line or in front of a
block's first line. -/
def admitsBlank (lines : List String) : Bool :=
  match lines with
  | [] => false
  | last :: _ => !endsBlank lines && last.toList.getLast? != some '\x7b'

def blank (writer : Writer) : Writer :=
  if admitsBlank writer.lines then { writer with lines := "" :: writer.lines } else writer

def indentation (depth : Nat) : String := String.ofList (List.replicate (4 * depth) ' ')

/-- A line at the present depth, without white space at its end. An empty text is a blank line. -/
def line (writer : Writer) (text : String) : Writer :=
  if text = "" then writer.blank
  else { writer with lines := (indentation writer.depth ++ Text.trimEnd text) :: writer.lines }

def enter (writer : Writer) (header : String) : Writer :=
  let headed := if header = "" then writer else writer.line header
  let opened := headed.line "\x7b"
  { opened with depth := opened.depth + 1 }

/-- Closes a block, if one is open, directly behind its last line. -/
def leave (writer : Writer) (closing : String) : Writer :=
  let lines := if endsBlank writer.lines then writer.lines.tail else writer.lines
  Writer.line ⟨lines, writer.depth - 1⟩ closing

def step (writer : Writer) : Step → Writer
  | .line text => writer.line text
  | .blank => writer.blank
  | .enter header => writer.enter header
  | .leave closing => writer.leave closing

def run (script : Script) : Writer := script.foldl step empty

/-- The lines without blank ones at the end, newest first. -/
def settled : List String → List String
  | "" :: last :: rest => settled (last :: rest)
  | lines => lines

def finish (writer : Writer) : String :=
  (settled writer.lines).reverse.foldl (fun text line => text ++ line ++ "\n") ""

end Writer

def Script.text (script : Script) : String := (Writer.run script).finish

end Interpose
