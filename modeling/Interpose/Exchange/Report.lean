import Interpose.Exchange.Request
import Interpose.Pass

/-!
# What a pass reports as JSON
-/

namespace Interpose

def Severity.word : Severity → String
  | info => "Info"
  | warning => "Warning"
  | error => "Error"

def Severity.decode : Json.Decoder Severity :=
  Json.oneOf ([.error, .warning, .info].map fun severity => (severity.word, severity))

def Diagnostic.encode (diagnostic : Diagnostic) : Json := .object [
  ("severity", .string diagnostic.severity.word), ("code", .string diagnostic.code),
  ("message", .string diagnostic.message),
  ("location", Json.orNull Location.encode diagnostic.location),
  ("text", .string diagnostic.text)]

def Artifact.encode (artifact : Artifact) : Json := .object [
  ("name", .string artifact.name), ("text", .string artifact.text)]

def Output.encode (output : Output) : Json := .object [
  ("artifacts", Json.listing Artifact.encode output.artifacts),
  ("diagnostics", Json.listing Diagnostic.encode output.diagnostics),
  ("has_errors", .bool output.hasErrors)]

end Interpose
