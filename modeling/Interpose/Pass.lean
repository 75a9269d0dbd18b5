import Interpose.Cancellation
import Interpose.Dispatcher
import Interpose.Eligibility
import Interpose.FanOut
import Interpose.Naming
import Interpose.Proxy.File
import Interpose.Surface

/-!
# Passes

A pass serves a list of requests. It merges them into pairings, plans the eligible ones, names all
plans together and writes a proxy for each plan and one dispatcher. Pairings that cannot be served
are reported. A pass that was cancelled has no output.
-/

namespace Interpose

structure Output where
  /-- The proxies in the order of their pairings, and the dispatcher behind them. -/
  artifacts : List Artifact
  diagnostics : List Diagnostic
  deriving Repr, DecidableEq

def Output.hasErrors (output : Output) : Bool := output.diagnostics.any (·.isError)

inductive PassError where
  | cancelled
  | settings (problem : SettingsProblem)
  deriving Repr, DecidableEq

def PassError.message : PassError → String
  | cancelled => "Generation was cancelled"
  | settings problem => "Invalid configuration: " ++ problem.message

/-- Goes on unless the pass was cancelled. -/
def PassError.unlessCancelled (isCancelled : Bool) : Except PassError Unit :=
  if isCancelled then .error .cancelled else .ok ()

/-- What a pass finds around it. -/
structure Environment where
  processors : Nat
  /-- Whether the pass sees at a checkpoint that it was cancelled. -/
  cancelled : Checkpoint → Bool

namespace Environment

/-- An environment in which nothing changes during the pass. -/
def steady (processors : Nat) (cancelled : Bool) : Environment := ⟨processors, fun _ => cancelled⟩

def check (environment : Environment) (point : Checkpoint) : Except PassError Unit :=
  PassError.unlessCancelled (environment.cancelled point)

def guarded {α : Type} (environment : Environment) (point : Checkpoint) (work : α) :
    Except PassError α :=
  (environment.check point).map fun _ => work

end Environment

def PlanError.code : PlanError → String
  | unresolvedHook _ _ => Diagnostic.unresolvedHook
  | noConstructor _ => Diagnostic.noConstructor
  | unknownType _ => Diagnostic.unknownType

def PlanError.diagnostic (error : PlanError) : Diagnostic := .failure error.code error.message

namespace Pairing

/-- The plan of a pairing, with the hooks of its provider's chain up to `base`. -/
def planUpTo (catalog : Catalog) (base : String) (pairing : Pairing) :
    Except PlanError ProxyPlan := do
  let provider ← known catalog pairing.provider.fullName
  pairing.plan catalog (.build catalog provider base)

end Pairing

namespace Pass

abbrev Screened : Type := Pairing × List Diagnostic

/-- A pairing with its plan, or with the reason why it has none. -/
abbrev Planned : Type := Pairing × Except PlanError ProxyPlan

def screen (environment : Environment) (catalog : Catalog) (base : String)
    (pairings : List Pairing) : Except PassError (List Screened) :=
  pairings.zipIdx.mapM fun (pairing, index) =>
    environment.guarded (.pairing index) (pairing, pairing.problems catalog base)

def eligible (screened : List Screened) : List Pairing :=
  (screened.filter (·.2.isEmpty)).map (·.1)

def plan (environment : Environment) (catalog : Catalog) (settings : Settings)
    (pairings : List Pairing) : Except PassError (List Planned) :=
  (FanOut.run settings.isParallel environment.processors
    (fun (pairing, index) => environment.guarded (.plan index)
      (pairing, pairing.planUpTo catalog settings.providerBase))
    pairings.zipIdx).mapM id

def plans (planned : List Planned) : List ProxyPlan :=
  planned.filterMap (·.2.toOption)

/-- The reports on the plans that could not be made. -/
def planProblems (planned : List Planned) : List Diagnostic :=
  planned.flatMap fun (pairing, result) =>
    match result with
    | .ok _ => []
    | .error error => error.diagnostic.atEach pairing.locations

def write (environment : Environment) (settings : Settings)
    (proxies : List (ProxyPlan × Identity)) : Except PassError (List Artifact) :=
  (FanOut.run settings.isParallel environment.processors
    (fun (proxy, index) => environment.guarded (.proxy index)
      (Proxy.artifact settings proxy.1 proxy.2))
    proxies.zipIdx).mapM id

def run (environment : Environment) (catalog : Catalog) (settings : Settings)
    (requests : List Request) : Except PassError Output := do
  settings.check.mapError .settings
  let screened ← screen environment catalog settings.providerBase (Pairing.merge requests)
  let planned ← plan environment catalog settings (eligible screened)
  environment.check .naming
  let plans := plans planned
  let proxies := plans.zip (Naming.identities settings plans)
  let artifacts ← write environment settings proxies
  environment.check .dispatcher
  return {
    artifacts := artifacts ++ [Dispatcher.artifact settings proxies]
    diagnostics := screened.flatMap (·.2) ++ planProblems planned }

end Pass

end Interpose
