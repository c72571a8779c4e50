namespace TestFocus

inductive MutationKind where
  | mutator
  | inspector
  | uncertain
deriving Repr, DecidableEq, Inhabited

namespace MutationKind

-- A mutator outweighs everything, and uncertainty outweighs an inspector.
def merge : MutationKind → MutationKind → MutationKind
  | mutator, _ => mutator
  | _, mutator => mutator
  | uncertain, _ => uncertain
  | _, uncertain => uncertain
  | inspector, inspector => inspector

def isMutator (k : MutationKind) : Bool :=
  k == mutator

end MutationKind

-- `isReturned` tells that the callee returns the value that is followed, or an alias of it.
structure Verdict where
  kind : MutationKind
  isReturned : Bool := false
deriving Repr, DecidableEq, Inhabited

namespace Verdict

def inspector : Verdict :=
  { kind := .inspector }

def mutator : Verdict :=
  { kind := .mutator }

def uncertain : Verdict :=
  { kind := .uncertain }

def merge (a b : Verdict) : Verdict :=
  { kind := a.kind.merge b.kind, isReturned := a.isReturned || b.isReturned }

end Verdict

end TestFocus
