import Interpose.Text.Blank
import Interpose.Text.Identifier

/-!
# Settings

The names and switches of a pass, and the check that text can be written with them.
-/

namespace Interpose

structure Settings where
  rootNamespace : String := "Decorators"
  proxyClass : String := "Decorator"
  dispatcherNamespace : String := "Decorators.Dispatch"
  dispatcherClass : String := "DecoratorDispatcher"
  dispatcherArtifact : String := "DecoratorDispatcher.g.cs"
  dispatcherContract : String := "global::Decorgen.Runtime.IDecoratorDispatcher"
  /-- The class from which every provider derives. -/
  providerBase : String := "global::Decorgen.Runtime.BehaviorProvider"
  /-- The type of a proxy's allow-list at run time. -/
  allowListType : String := "global::System.Collections.Generic.HashSet<string>"
  /-- What an accessor throws that works during construction only. -/
  notSupported : String := "global::System.NotSupportedException"
  /-- How many digits tell colliding names apart. -/
  hashLength : UInt64 := 10
  /-- Whether work on single pairings is spread over processors. -/
  isParallel : Bool := false
  deriving Repr, DecidableEq, Inhabited

inductive SettingsProblem where
  | hashLength (value : UInt64)
  | notDotted (field value : String)
  | empty (field : String)
  deriving Repr, DecidableEq

def SettingsProblem.message : SettingsProblem → String
  | hashLength value =>
    "Invalid configuration: hash_length must be between 1 and 64, got " ++ value.toNat.repr
  | notDotted field value =>
    "Invalid configuration: " ++ field ++ " must be a dotted identifier, got '" ++ value ++ "'"
  | empty field => "Invalid configuration: " ++ field ++ " must not be empty"

namespace Settings

def maxHashLength : UInt64 := 64

/-- The settings that are written as names between dots. -/
def dottedFields (settings : Settings) : List (String × String) := [
  ("root_namespace", settings.rootNamespace),
  ("proxy_class_name", settings.proxyClass),
  ("dispatcher_namespace", settings.dispatcherNamespace),
  ("dispatcher_class_name", settings.dispatcherClass)]

/-- The settings that need some text. -/
def requiredFields (settings : Settings) : List (String × String) := [
  ("dispatcher_artifact", settings.dispatcherArtifact),
  ("dispatcher_contract", settings.dispatcherContract),
  ("behavior_provider_base", settings.providerBase),
  ("allow_list_type", settings.allowListType),
  ("not_supported_exception", settings.notSupported)]

/-- The first thing wrong with the settings, if there is one. -/
def problem? (settings : Settings) : Option SettingsProblem :=
  if settings.hashLength = 0 ∨ maxHashLength < settings.hashLength then
    some (.hashLength settings.hashLength)
  else
    match settings.dottedFields.find? fun field => !Text.dotted field.2 with
    | some field => some (.notDotted field.1 field.2)
    | none => (settings.requiredFields.find? fun field => Text.allBlank field.2).map (.empty ·.1)

def check (settings : Settings) : Except SettingsProblem Unit :=
  match settings.problem? with
  | some problem => .error problem
  | none => .ok ()

end Settings

end Interpose
