import Interpose.Pass
import Interpose.Register

/-!
# Sessions

A session keeps a register of definitions, settings and a token's flag from one pass to the next.
-/

namespace Interpose

structure Session where
  register : Register
  settings : Settings
  isCancelled : Bool
  deriving Repr, BEq

namespace Session

def start (catalog : Catalog) (settings : Settings) : Session :=
  ⟨.ofList catalog.types, settings, false⟩

/-- What the passes of the session see. -/
def catalog (session : Session) : Catalog := session.register.catalog

def insert (session : Session) (type : TypeDef) : Session :=
  { session with register := session.register.insert type }

def configure (session : Session) (settings : Settings) : Session :=
  { session with settings := settings }

def cancel (session : Session) : Session := { session with isCancelled := true }

/-- Takes a token that is not cancelled. -/
def renew (session : Session) : Session := { session with isCancelled := false }

def environment (session : Session) (processors : Nat) : Environment :=
  .steady processors session.isCancelled

def check (session : Session) : Except PassError Unit :=
  PassError.unlessCancelled session.isCancelled

def run (session : Session) (processors : Nat) (requests : List Request) :
    Except PassError Output :=
  Pass.run (session.environment processors) session.catalog session.settings requests

end Session

end Interpose
