/-!
# Cancellation

A pass looks at a token's flag at its checkpoints. The copies of a token share one flag, which is
set once and never cleared.
-/

namespace Interpose

/-- The places at which a pass looks whether it was cancelled. -/
inductive Checkpoint where
  | pairing (index : Nat)
  | plan (index : Nat)
  | naming
  | proxy (index : Nat)
  | dispatcher
  deriving Repr, DecidableEq

structure Tokens where
  flags : List Bool
  /-- The flag that each token looks at. -/
  owners : List Nat
  deriving Repr, DecidableEq

namespace Tokens

def empty : Tokens := ⟨[], []⟩

def create (tokens : Tokens) : Tokens :=
  ⟨tokens.flags ++ [false], tokens.owners ++ [tokens.flags.length]⟩

def clone (tokens : Tokens) (token : Nat) : Tokens :=
  { tokens with owners := tokens.owners ++ (tokens.owners[token]?).toList }

def cancel (tokens : Tokens) (token : Nat) : Tokens :=
  match tokens.owners[token]? with
  | some flag => { tokens with flags := tokens.flags.set flag true }
  | none => tokens

def isCancelled (tokens : Tokens) (token : Nat) : Bool :=
  ((tokens.owners[token]?).bind fun flag => tokens.flags[flag]?).getD false

def view (tokens : Tokens) : List Bool :=
  (List.range tokens.owners.length).map tokens.isCancelled

end Tokens

end Interpose
