import TestFocus.Statement.Basic

namespace TestFocus

-- The register of a parameter is its written name, a number when it has none, or an ellipsis for
-- the variable part of the list.
structure Parameter where
  type : String
  attributes : List String
  register : String
deriving Repr, DecidableEq, Inhabited

namespace Parameter

def variadic : Parameter :=
  { type := "...", attributes := [], register := "..." }

def isVariadic (p : Parameter) : Bool :=
  p.register == "..."

def hasAttribute (p : Parameter) (name : String) : Bool :=
  Operand.hasAttribute p.attributes name

-- Is the parameter the place of the function's result?
def isResultSlot (p : Parameter) : Bool :=
  p.hasAttribute "sret"

def isPointer (p : Parameter) : Bool :=
  Operand.isPointerType p.type

end Parameter

-- A call in the body of a function, at a node of its flow graph.
structure CallSite where
  node : Nat
  kind : CallKind
  callee : String
deriving Repr, DecidableEq, Inhabited

structure Definition where
  name : String
  linkage : Option String := none
  preemption : String := "dso_preemptable"
  visibility : Option String := none
  storageClass : Option String := none
  callingConvention : String := "ccc"
  returnAttributes : List String := []
  returnType : String
  parameters : List Parameter := []
  addressMark : Option String := none
  addressSpace : Option String := none
  attributes : List String := []
  sectionName : Option String := none
  partition : Option String := none
  comdat : Option String := none
  alignment : Option String := none
  collector : Option String := none
  prefixData : Option String := none
  prologue : Option String := none
  personality : Option String := none
  metadata : List (String × String) := []
  callSites : List CallSite := []
deriving Repr, DecidableEq, Inhabited

namespace Definition

-- The position of the first parameter with this register.
def parameterIndex? (d : Definition) (register : String) : Option Nat :=
  d.parameters.findIdx? (·.register == register)

-- Does the function run before the program's entry point?
def isStartup (d : Definition) : Bool :=
  d.sectionName == some ".text.startup"

end Definition

end TestFocus
