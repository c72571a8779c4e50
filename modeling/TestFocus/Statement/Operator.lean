import TestFocus.Reader.Value
import TestFocus.Statement.Basic

namespace TestFocus.Reader

def operatorFlags : Reader (List String) :=
  run fun word => Keyword.isOverflowFlag word || Keyword.isFastMathFlag word

-- `[flags] ty operand`
def unary (opcode : String) : Reader Statement := do
  let flags ← operatorFlags
  let (ty, operand) ← typedValue
  return .unary opcode flags ty operand

def operatorFamily (opcode : String) : OperatorFamily :=
  if Keyword.isIntegerOperator opcode then .integer
  else if Keyword.isFloatOperator opcode then .float
  else .bitwise

-- `ty left, right`
def operandPair : Reader (String × String × String) := do
  let (ty, left) ← typedValue
  comma
  return (ty, left, ← value)

-- `[flags] ty left, right`
def binary (opcode : String) : Reader Statement := do
  let flags ← operatorFlags
  let (ty, left, right) ← operandPair
  return .binary (operatorFamily opcode) opcode flags ty left right

-- `[flags] ty value to ty`
def conversion (opcode : String) : Reader Statement := do
  discard (run ["nneg", "nuw", "nsw"].contains)
  let (fromType, value) ← typedValue
  discard (expect "to" "'to'")
  return .conversion opcode fromType value (← type)

-- A comparison predicate of the given class.
def predicate (p : String → Bool) (expected : String) : Reader String := do
  let word := (← next expected).text
  if p word then return word else throw (.unexpected expected word)

-- `[samesign] predicate ty left, right`
def compareIntegers : Reader Statement := do
  discard (eat "samesign")
  let predicate ← predicate Keyword.isIntegerPredicate "icmp predicate"
  let (ty, left, right) ← operandPair
  return .compareIntegers predicate ty left right

-- `[flags] predicate ty left, right`
def compareFloats : Reader Statement := do
  let flags ← run Keyword.isFastMathFlag
  let predicate ← predicate Keyword.isFloatPredicate "fcmp predicate"
  let (ty, left, right) ← operandPair
  return .compareFloats flags predicate ty left right

-- `[ value, %label ]`
def incoming : Reader (String × String) := do
  discard (expect "[" "'['")
  let val ← value
  comma
  let source ← value
  discard (expect "]" "']'")
  return (val, source)

-- Each round takes a token, so the tokens left bound the rounds.
def moreIncoming : Nat → List (String × String) → Reader (List (String × String))
  | 0, done => pure done
  | rounds + 1, done => do
    let c ← get
    if c.nextIs "," && c.nthIs 1 "[" then
      discard advance
      moreIncoming rounds (done ++ [← incoming])
    else pure done

-- `[flags] ty [ value, %label ], ...`
def phi : Reader Statement := do
  discard (run Keyword.isFastMathFlag)
  let ty ← type
  let first ← incoming
  return .phi ty (← moreIncoming (← get).remaining [first])

-- `[flags] ty condition, ty value, ty value`
def select : Reader Statement := do
  discard (run Keyword.isFastMathFlag)
  let (_, condition) ← typedValue
  comma
  let (ty, ifTrue) ← typedValue
  comma
  let (_, ifFalse) ← typedValue
  return .select condition ty ifTrue ifFalse

-- `ty value`
def freeze : Reader Statement := do
  let (ty, value) ← typedValue
  return .freeze ty value

end TestFocus.Reader
