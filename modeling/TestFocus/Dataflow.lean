import TestFocus.Operand
import TestFocus.Table

namespace TestFocus

inductive Provenance where
  -- the value was stored to an address; this kind stands among the uses of a value only
  | storedFrom (value : String)
  -- a load, or the old value that an atomic update returns
  | loadedFrom (address : String) (isPointer : Bool)
  -- a cast
  | converted (value : String)
  -- an address computed from a base
  | referencedFrom (base : String)
  -- one of several values, or values packed together
  | assigned (values : List String)
  -- arithmetic or a comparison
  | computed (values : List String)
  -- the result of the call at a node of the flow graph
  | callResult (node : Nat)
deriving Repr, DecidableEq, Inhabited

-- The values that a provenance reads.
def Provenance.sources : Provenance → List String
  | storedFrom value => [value]
  | loadedFrom address _ => [address]
  | converted value => [value]
  | referencedFrom base => [base]
  | assigned values => values
  | computed values => values
  | callResult _ => []

-- A value flows into `register` in the way `provenance` says.
structure Use where
  register : String
  provenance : Provenance
deriving Repr, DecidableEq, Inhabited

structure Dataflow where
  definitions : Table Provenance
  -- the values stored through each address, in program order
  stores : Table (List String)
  users : Table (List Use)
  returns : List String
deriving Repr, DecidableEq

namespace Dataflow

def empty : Dataflow :=
  { definitions := ∅, stores := ∅, users := ∅, returns := [] }

instance : Inhabited Dataflow := ⟨empty⟩

-- Only names have uses; literals flow from nowhere.
def addUse (users : Table (List Use)) (value : String) (use : Use) : Table (List Use) :=
  if Operand.isRegister value then users.update value [] (· ++ [use]) else users

-- The first definition of a register stands; later ones are ignored.
def define (d : Dataflow) (register : String) (provenance : Provenance) : Dataflow :=
  if d.definitions.contains register then d
  else
    { d with
      definitions := d.definitions.insert register provenance
      users := provenance.sources.foldl (fun users source =>
        addUse users source { register, provenance }) d.users }

def store (d : Dataflow) (address value : String) : Dataflow :=
  { d with
    stores := d.stores.update address [] (· ++ [value])
    users := addUse d.users value { register := address, provenance := .storedFrom value } }

def ret (d : Dataflow) (value : String) : Dataflow :=
  { d with returns := d.returns ++ [value] }

def definition? (d : Dataflow) (register : String) : Option Provenance :=
  d.definitions.get? register

def usesOf (d : Dataflow) (value : String) : List Use :=
  (d.users.get? value).getD []

def storedValues (d : Dataflow) (address : String) : List String :=
  (d.stores.get? address).getD []

def isStoredThrough (d : Dataflow) (address : String) : Bool :=
  d.stores.contains address

-- Does the provenance load from this address?
def loadsFrom (address : String) : Provenance → Bool
  | .loadedFrom a _ => a == address
  | _ => false

-- The registers loaded back from an address.
def reloads (d : Dataflow) (address : String) : List String :=
  ((d.usesOf address).filter fun use => loadsFrom address use.provenance).map (·.register)

def isReturned (d : Dataflow) (value : String) : Bool :=
  d.returns.contains value

def size (d : Dataflow) : Nat :=
  d.definitions.size

def isEmpty (d : Dataflow) : Bool :=
  d.definitions.isEmpty && d.stores.isEmpty

end Dataflow

end TestFocus
