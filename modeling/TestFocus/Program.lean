import TestFocus.Body.Basic
import TestFocus.Definition.Registry
import TestFocus.Framework

namespace TestFocus

structure Program where
  registry : Registry
  bodies : Table Body
  framework : Framework
  -- the number of calls from a test beyond which nothing is looked at
  maxDepth : Nat

namespace Program

-- The body of the function that a name stands for.
def body? (p : Program) (name : String) : Option Body :=
  p.bodies.get? (p.registry.resolve name)

-- Assertions, excluded functions and intrinsics are never looked into.
def isOffLimits (p : Program) (callee : String) : Bool :=
  Text.startsWith callee "@llvm." || p.framework.isAssertion callee ||
    p.framework.isExcluded callee

-- The calls of a body, with their nodes.
def callsOf (p : Program) (body : Body) : List (Nat × Call) :=
  (p.registry.callSites body.name).filterMap fun site =>
    (body.call? site.node).map fun call => (site.node, call)

end Program

-- Does the callee copy or fill memory, its first argument being the destination?
def isMemoryIntrinsic (callee : String) : Bool :=
  ["@llvm.memcpy", "@llvm.memmove", "@llvm.memset"].any (Text.startsWith callee)

-- Attributes that promise not to write.
def isReadOnly (given : String) : Bool :=
  given == "readnone" || given == "readonly" ||
    (Text.afterStart? given "memory(").any fun rest => !Text.containsText rest "write"

end TestFocus
