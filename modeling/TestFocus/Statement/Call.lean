import TestFocus.Reader.Attribute
import TestFocus.Statement.Basic

namespace TestFocus.Reader

def callee : Reader String := do
  let c ← get
  if c.nextIs "asm" then inlineAssembly
  else if c.nextFits Keyword.isConversion then
    let value ← value
    return (Operand.referencedGlobal value).getD value
  else value

-- Metadata may wrap a typed value.
def argumentValue (ty : String) : Reader String := do
  if ty = "metadata" && !((← get).peek?.any isValueStart) then
    let (innerType, inner) ← typedValue
    return innerType ++ " " ++ inner
  else value

def argument : Reader Argument := do
  let ty ← type
  let attributes ← parameterAttributes
  return { type := ty, attributes, value := ← argumentValue ty }

-- `(ty value, ...)`; an ellipsis stands for no argument.
def arguments : Reader (List Argument) := do
  discard (expect "(" "'('")
  untilClose ")" fun done => do
    separator done
    if ← eat "..." then return done
    else return done ++ [← argument]

def operandBundle : Reader OperandBundle := do
  let tag ← string "operand bundle tag"
  discard (expect "(" "'('")
  return { tag := Text.trimChar '"' tag, operands := ← commaList ")" typedValue }

-- `[ "tag"(ty value, ...), ... ]`
def operandBundles : Reader (List OperandBundle) := do
  if ← eat "[" then commaList "]" operandBundle
  else return []

def callBody (tail : Option String) : Reader Call := do
  let fastMathFlags ← run Keyword.isFastMathFlag
  let callingConvention ← callingConvention
  let returnAttributes ← parameterAttributes
  let addressSpace ← addressSpace
  let returnType ← type
  let callee ← callee
  let arguments ← arguments
  let functionAttributes ← functionAttributes
  let operandBundles ← operandBundles
  return { tail, fastMathFlags, callingConvention, returnAttributes, addressSpace, returnType,
           callee, arguments, functionAttributes, operandBundles }

def call (tail : Option String) : Reader Statement :=
  .call <$> callBody tail

-- `... to label %normal unwind label %landing`
def invoke : Reader Statement := do
  let call ← callBody none
  discard (expect "to" "'to'")
  let normal ← label
  discard (expect "unwind" "'unwind'")
  return .invoke call normal (← label)

-- `... to label %fallthrough [label %indirect, ...]`
def callBranch : Reader Statement := do
  let call ← callBody none
  discard (expect "to" "'to'")
  let fallthrough ← label
  discard (expect "[" "'['")
  return .callBranch call fallthrough (← commaList "]" label)

end TestFocus.Reader
