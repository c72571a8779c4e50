import TestFocus.Operand

-- Instructions as records: one constructor for each family the analysis understands. Types,
-- values and labels are kept as they are written. The register that an instruction defines is
-- not part of its statement.

namespace TestFocus

-- An argument at a call site.
structure Argument where
  type : String
  attributes : List String
  value : String
deriving Repr, DecidableEq, Inhabited

-- Passed as an address that the callee can write through; a `byval` argument is a copy.
def Argument.isReference (a : Argument) : Bool :=
  Operand.isPointerType a.type && !Operand.hasAttribute a.attributes "byval"

-- `"tag"(ty value, ...)`, an entry of the bundle list of a call
structure OperandBundle where
  tag : String
  operands : List (String × String)
deriving Repr, DecidableEq, Inhabited

-- What the three call instructions have in common. The callee is the name of a function, also when
-- it stands below casts, a register for an indirect call, or inline assembly.
structure Call where
  tail : Option String
  fastMathFlags : List String
  callingConvention : Option String
  returnAttributes : List String
  addressSpace : Option String
  returnType : String
  callee : String
  arguments : List Argument
  functionAttributes : List String
  operandBundles : List OperandBundle
deriving Repr, DecidableEq, Inhabited

-- Does the call name its function?
def Call.isDirect (c : Call) : Bool :=
  Operand.isGlobal c.callee

inductive CallKind where
  | call
  | invoke
  | callBranch
deriving Repr, DecidableEq, Inhabited

structure SwitchCase where
  type : String
  value : String
  label : String
deriving Repr, DecidableEq, Inhabited

inductive OperatorFamily where
  | integer
  | float
  | bitwise
deriving Repr, DecidableEq, Inhabited

inductive Statement where
  | ret (type : String) (value : Option String)
  | branch (condition : Option String) (ifTrue : String) (ifFalse : Option String)
  | switch (type value default : String) (cases : List SwitchCase)
  | indirectBranch (type address : String) (destinations : List String)
  | invoke (call : Call) (normal unwind : String)
  | callBranch (call : Call) (fallthrough : String) (indirect : List String)
  | resume (type value : String)
  | unreachable
  | unary (opcode : String) (flags : List String) (type operand : String)
  | binary (family : OperatorFamily) (opcode : String) (flags : List String)
      (type left right : String)
  | extractElement (type vector index : String)
  | insertElement (type vector element index : String)
  | shuffleVector (type first second mask : String)
  | extractValue (type aggregate : String) (indices : List String)
  | insertValue (type aggregate element : String) (indices : List String)
  | load (isVolatile isAtomic : Bool) (type addressType address : String)
  | store (isVolatile isAtomic : Bool) (type value addressType address : String)
  | compareExchange (weak isVolatile : Bool) (address compare type newValue : String)
  | readModifyWrite (isVolatile : Bool) (operation address type value : String)
  | elementPointer (inbounds : Bool) (sourceType baseType base : String)
      (indices : List (String × String))
  | conversion (opcode fromType value toType : String)
  | compareIntegers (predicate type left right : String)
  | compareFloats (flags : List String) (predicate type left right : String)
  | phi (type : String) (incoming : List (String × String))
  | select (condition type ifTrue ifFalse : String)
  | freeze (type value : String)
  | call (call : Call)
deriving Repr, DecidableEq, Inhabited

namespace Statement

-- Every value the statement reads, literals included.
def usedValues : Statement → List String
  | ret _ value => value.toList
  | branch condition _ _ => condition.toList
  | switch _ value _ _ => [value]
  | indirectBranch _ address _ => [address]
  | invoke c _ _ => c.arguments.map (·.value)
  | callBranch c _ _ => c.arguments.map (·.value)
  | resume _ value => [value]
  | unreachable => []
  | unary _ _ _ operand => [operand]
  | binary _ _ _ _ left right => [left, right]
  | extractElement _ vector index => [vector, index]
  | insertElement _ vector element index => [vector, element, index]
  | shuffleVector _ first second mask => [first, second, mask]
  | extractValue _ aggregate _ => [aggregate]
  | insertValue _ aggregate element _ => [aggregate, element]
  | load _ _ _ _ address => [address]
  | store _ _ _ value _ address => [value, address]
  | compareExchange _ _ address compare _ newValue => [address, compare, newValue]
  | readModifyWrite _ _ address _ value => [address, value]
  | elementPointer _ _ _ base indices => base :: indices.map (·.2)
  | conversion _ _ value _ => [value]
  | compareIntegers _ _ left right => [left, right]
  | compareFloats _ _ _ left right => [left, right]
  | phi _ incoming => incoming.map (·.1)
  | select condition _ ifTrue ifFalse => [condition, ifTrue, ifFalse]
  | freeze _ value => [value]
  | call c => c.arguments.map (·.value)

def usedRegisters (s : Statement) : List String :=
  s.usedValues.filter Operand.isRegister

def call? : Statement → Option Call
  | call c => some c
  | invoke c _ _ => some c
  | callBranch c _ _ => some c
  | _ => none

def callKind? : Statement → Option CallKind
  | call _ => some .call
  | invoke _ _ _ => some .invoke
  | callBranch _ _ _ => some .callBranch
  | _ => none

-- Does the statement end its block?
def isTerminator : Statement → Bool
  | ret _ _ | branch _ _ _ | switch _ _ _ _ | indirectBranch _ _ _ | invoke _ _ _
  | callBranch _ _ _ | resume _ _ | unreachable => true
  | _ => false

-- Does the statement leave the function?
def isFinal : Statement → Bool
  | ret _ _ | resume _ _ | unreachable => true
  | _ => false

-- Arithmetic and comparisons, which produce a fresh value.
def isComputation : Statement → Bool
  | unary _ _ _ _ | binary _ _ _ _ _ _ | compareIntegers _ _ _ _
  | compareFloats _ _ _ _ _ => true
  | _ => false

-- Jump targets, each with the label of the edge that leads to it.
def successors : Statement → List (String × Option String)
  | branch (some _) ifTrue ifFalse =>
    (ifTrue, some "true") :: ifFalse.toList.map fun target => (target, some "false")
  | branch none target _ => [(target, none)]
  | switch _ _ default cases =>
    (default, some "default") :: cases.map fun c => (c.label, some ("= " ++ c.value))
  | indirectBranch _ _ destinations => destinations.map fun target => (target, none)
  | invoke _ normal unwind => [(normal, none), (unwind, some "exception")]
  | callBranch _ fallthrough indirect =>
    (fallthrough, none) :: indirect.map fun target => (target, some "indirect")
  | _ => []

end Statement

end TestFocus
