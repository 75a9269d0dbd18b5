import Interpose.Json.Decode
import Interpose.Settings
import Interpose.Toml.Flat

/-!
# Settings as JSON and TOML

Every setting may be left out, and no other name may be given. Settings from a TOML text are read
like the record of its assignments, and checked.
-/

namespace Interpose

open Json (Decoder)

inductive SettingsError where
  /-- There is no text: the file is not there, or its bytes are none. -/
  | unavailable
  /-- The text is no record of settings. -/
  | unreadable
  | invalid (problem : SettingsProblem)
  deriving Repr, DecidableEq

namespace Settings

def encode (settings : Settings) : Json := .object [
  ("root_namespace", .string settings.rootNamespace),
  ("proxy_class_name", .string settings.proxyClass),
  ("dispatcher_namespace", .string settings.dispatcherNamespace),
  ("dispatcher_class_name", .string settings.dispatcherClass),
  ("dispatcher_artifact", .string settings.dispatcherArtifact),
  ("dispatcher_contract", .string settings.dispatcherContract),
  ("behavior_provider_base", .string settings.providerBase),
  ("allow_list_type", .string settings.allowListType),
  ("not_supported_exception", .string settings.notSupported),
  ("hash_length", .natural settings.hashLength.toNat), ("parallel", .bool settings.isParallel)]

def fieldNames : List String := [
  "root_namespace", "proxy_class_name", "dispatcher_namespace", "dispatcher_class_name",
  "dispatcher_artifact", "dispatcher_contract", "behavior_provider_base", "allow_list_type",
  "not_supported_exception", "hash_length", "parallel"]

def decode : Decoder Settings := fun json => do
  let fields ← Json.record fieldNames true json
  let usual : Settings := {}
  let name (field default : String) := Json.defaulted fields field default Json.text
  return {
    rootNamespace := ← name "root_namespace" usual.rootNamespace
    proxyClass := ← name "proxy_class_name" usual.proxyClass
    dispatcherNamespace := ← name "dispatcher_namespace" usual.dispatcherNamespace
    dispatcherClass := ← name "dispatcher_class_name" usual.dispatcherClass
    dispatcherArtifact := ← name "dispatcher_artifact" usual.dispatcherArtifact
    dispatcherContract := ← name "dispatcher_contract" usual.dispatcherContract
    providerBase := ← name "behavior_provider_base" usual.providerBase
    allowListType := ← name "allow_list_type" usual.allowListType
    notSupported := ← name "not_supported_exception" usual.notSupported
    hashLength := ← Json.defaulted fields "hash_length" usual.hashLength Json.word64
    isParallel := ← Json.defaulted fields "parallel" usual.isParallel Json.flag }

/-- A scalar of a TOML document as JSON has it. -/
def ofScalar : Toml.Scalar → Json
  | .text value => .string value
  | .flag value => .bool value
  | .whole (.ofNat n) => .natural n
  | .whole n => .numeral n.repr

def checked (settings : Settings) : Except SettingsError Settings :=
  match settings.check with
  | .ok () => .ok settings
  | .error problem => .error (.invalid problem)

def ofToml (text : String) : Except SettingsError Settings :=
  match Toml.parse? text with
  | none => .error .unreadable
  | some assignments =>
    match decode (.object (assignments.map fun (key, value) => (key, ofScalar value))) with
    | .ok settings => settings.checked
    | .error _ => .error .unreadable

/-- The settings of a file with those bytes, or of no file. -/
def load (contents : Option ByteArray) : Except SettingsError Settings :=
  match contents.bind String.fromUTF8? with
  | some text => ofToml text
  | none => .error .unavailable

end Settings

end Interpose
