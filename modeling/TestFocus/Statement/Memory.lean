import TestFocus.Reader.Value
import TestFocus.Statement.Basic

namespace TestFocus.Reader

-- `volatile` and `atomic`, in any order: were they there?
def accessQualifiers : Reader (Bool × Bool) := do
  let words ← run ["volatile", "atomic"].contains
  return (words.contains "volatile", words.contains "atomic")

-- `[syncscope("...")] ordering ...`
def skipOrdering : Reader Unit := do
  if ← eat "syncscope" then skipGroup
  discard (run Keyword.isAtomicOrdering)

-- `[volatile] [atomic] ty, ty address`
def load : Reader Statement := do
  let (isVolatile, isAtomic) ← accessQualifiers
  let ty ← type
  comma
  let (addressType, address) ← typedValue
  skipOrdering
  return .load isVolatile isAtomic ty addressType address

-- `[volatile] [atomic] ty value, ty address`
def store : Reader Statement := do
  let (isVolatile, isAtomic) ← accessQualifiers
  let (ty, value) ← typedValue
  comma
  let (addressType, address) ← typedValue
  skipOrdering
  return .store isVolatile isAtomic ty value addressType address

-- `[weak] [volatile] ty address, ty compare, ty new [syncscope] ordering ordering`
def compareExchange : Reader Statement := do
  let weak ← eat "weak"
  let isVolatile ← eat "volatile"
  let (_, address) ← typedValue
  comma
  let (ty, compare) ← typedValue
  comma
  let (_, newValue) ← typedValue
  skipOrdering
  return .compareExchange weak isVolatile address compare ty newValue

-- `[volatile] operation ty address, ty value [syncscope] ordering`
def readModifyWrite : Reader Statement := do
  let isVolatile ← eat "volatile"
  let operation := (← next "atomicrmw operation").text
  let (_, address) ← typedValue
  comma
  let (ty, value) ← typedValue
  skipOrdering
  return .readModifyWrite isVolatile operation address ty value

-- The marks in front of the source element type: was `inbounds` among them? Each round takes a
-- token, so the tokens left bound the rounds.
def elementPointerMarks : Nat → Bool → Reader Bool
  | 0, inbounds => pure inbounds
  | rounds + 1, inbounds => do
    let c ← get
    if c.nextIs "inbounds" then
      discard advance
      elementPointerMarks rounds true
    else if c.nextIs "nusw" || c.nextIs "nuw" then
      discard advance
      elementPointerMarks rounds inbounds
    else if c.nextIs "inrange" && c.nthIs 1 "(" then
      discard advance
      skipGroup
      elementPointerMarks rounds inbounds
    else pure inbounds

-- `, ty index` as often as it follows; each round takes a token.
def elementIndices : Nat → List (String × String) → Reader (List (String × String))
  | 0, done => pure done
  | rounds + 1, done => do
    let c ← get
    if c.nextIs "," && !isAnnotationStart c then
      discard advance
      discard (eat "inrange")
      elementIndices rounds (done ++ [← typedValue])
    else pure done

-- `[inbounds] ty, ty base, ty index, ...`
def elementPointer : Reader Statement := do
  let inbounds ← elementPointerMarks (← get).remaining false
  let sourceType ← type
  comma
  let (baseType, base) ← typedValue
  let indices ← elementIndices (← get).remaining []
  return .elementPointer inbounds sourceType baseType base indices

end TestFocus.Reader
