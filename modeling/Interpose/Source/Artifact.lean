import Interpose.Source.Writer

/-!
# Artifacts

An artifact is a file of generated source. All of them begin with the same two lines.
-/

namespace Interpose

structure Artifact where
  name : String
  text : String
  deriving Repr, DecidableEq

namespace Artifact

/-- The first lines of every artifact. -/
def heading : List String := ["// <auto-generated/>", "#nullable disable"]

/-- An artifact with a heading and one namespace. -/
def ofScope (name scope : String) (body : Script) : Artifact where
  name := name
  text := Script.text
    (heading.map .line ++ .blank :: Script.block ("namespace " ++ scope) body)

end Artifact

end Interpose
