import TestFocus.Reader.Value
import TestFocus.Statement.Basic

namespace TestFocus.Reader

-- `ty vector, ty index`
def extractElement : Reader Statement := do
  let (ty, vector) ← typedValue
  comma
  let (_, index) ← typedValue
  return .extractElement ty vector index

-- `ty vector, ty element, ty index`
def insertElement : Reader Statement := do
  let (ty, vector) ← typedValue
  comma
  let (_, element) ← typedValue
  comma
  let (_, index) ← typedValue
  return .insertElement ty vector element index

-- `ty first, ty second, ty mask`
def shuffleVector : Reader Statement := do
  let (ty, first) ← typedValue
  comma
  let (_, second) ← typedValue
  comma
  let (_, mask) ← typedValue
  return .shuffleVector ty first second mask

-- Each round takes a token, so the tokens left bound the rounds.
def aggregateIndicesWithin : Nat → List String → Reader (List String)
  | 0, done => pure done
  | rounds + 1, done => do
    let c ← get
    if c.nextIs "," && !isAnnotationStart c then
      discard advance
      let word := (← next "aggregate index").text
      if Keyword.isNumber word then aggregateIndicesWithin rounds (done ++ [word])
      else throw (.unexpected "aggregate index" word)
    else pure done

-- `, index` at least once
def aggregateIndices : Reader (List String) := do
  let indices ← aggregateIndicesWithin (← get).remaining []
  if indices.isEmpty then throw (.unexpectedEnd "aggregate index") else return indices

-- `ty aggregate, index, ...`
def extractValue : Reader Statement := do
  let (ty, aggregate) ← typedValue
  return .extractValue ty aggregate (← aggregateIndices)

-- `ty aggregate, ty element, index, ...`
def insertValue : Reader Statement := do
  let (ty, aggregate) ← typedValue
  comma
  let (_, element) ← typedValue
  return .insertValue ty aggregate element (← aggregateIndices)

end TestFocus.Reader
