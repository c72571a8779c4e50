import TestFocus.Reader.Value
import TestFocus.Statement.Basic

namespace TestFocus.Reader

-- `void` or `ty value`
def ret : Reader Statement := do
  let ty ← type
  if ty = "void" then return .ret ty none
  else return .ret ty (some (← value))

-- `label %dest` or `i1 value, label %dest[, label %dest]`
def branch : Reader Statement := do
  if (← get).nextIs "label" then return .branch none (← label) none
  else
    let (_, condition) ← typedValue
    comma
    let ifTrue ← label
    if ← eat "," then return .branch (some condition) ifTrue (some (← label))
    else return .branch (some condition) ifTrue none

def switchCase : Reader SwitchCase := do
  let (ty, value) ← typedValue
  comma
  return { type := ty, value, label := ← label }

-- `ty value, label %default [ ty value, label %dest ... ]`
def switch : Reader Statement := do
  let (ty, value) ← typedValue
  comma
  let default ← label
  discard (expect "[" "'['")
  let cases ← untilClose "]" fun done => return done ++ [← switchCase]
  return .switch ty value default cases

-- `ty address, [ label %dest, ... ]`
def indirectBranch : Reader Statement := do
  let (ty, address) ← typedValue
  comma
  discard (expect "[" "'['")
  return .indirectBranch ty address (← commaList "]" label)

-- `ty value`
def resume : Reader Statement := do
  let (ty, value) ← typedValue
  return .resume ty value

end TestFocus.Reader
