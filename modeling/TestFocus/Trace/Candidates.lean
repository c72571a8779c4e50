import TestFocus.Table

-- Functions found on the way back from an assertion. The nearest mutators win, functions without
-- a body count up to their distance, and uncertain functions count only when there is no
-- mutator.

namespace TestFocus

-- The members of a list, each once and in ascending order.
def sortedNames (names : List String) : List String :=
  names.eraseDups.mergeSort

-- `cutoff` is the distance of the nearest mutators, and `mutators` are those at that distance.
-- `unscanned` gives the least distance at which a function without a body was met.
structure Candidates where
  mutators : List String
  cutoff : Option Nat
  unscanned : Table Nat
  provisional : List String
deriving Repr, DecidableEq

namespace Candidates

def empty : Candidates :=
  { mutators := [], cutoff := none, unscanned := ∅, provisional := [] }

-- Is a distance within the cutoff?
def reaches (c : Candidates) (distance : Nat) : Bool :=
  c.cutoff.all (distance ≤ ·)

def addMutator (c : Candidates) (name : String) (distance : Nat) : Candidates :=
  match c.cutoff with
  | none => { c with mutators := [name], cutoff := some distance }
  | some nearest =>
    if distance < nearest then { c with mutators := [name], cutoff := some distance }
    else if distance = nearest then { c with mutators := c.mutators ++ [name] }
    else c

def addUnscanned (c : Candidates) (name : String) (distance : Nat) : Candidates :=
  { c with unscanned := c.unscanned.update name distance (min distance) }

def addProvisional (c : Candidates) (name : String) : Candidates :=
  { c with provisional := c.provisional ++ [name] }

def focalMethods (c : Candidates) : List String :=
  sortedNames (c.mutators ++
    (c.unscanned.entries.filter fun (_, distance) => c.reaches distance).map (·.1) ++
    if c.cutoff.isNone then c.provisional else [])

end Candidates

end TestFocus
