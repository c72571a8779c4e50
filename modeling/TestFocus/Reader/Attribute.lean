import TestFocus.Reader.Value

namespace TestFocus.Reader

-- One keyword with its argument, if it has one: `nonnull`, `align 8`, `sret(%T)`.
def keywordAttribute : Reader String :=
  covered do
    let word := (← next "attribute").text
    let c ← get
    if c.nextIs "(" then skipGroup
    else if (word = "align" || word = "alignstack") && c.nextFits Keyword.isNumber then
      discard advance

-- Each round takes a token, so the tokens left bound the rounds.
def parameterAttributesWithin : Nat → List String → Reader (List String)
  | 0, done => pure done
  | rounds + 1, done => do
    match (← get).peek? with
    | none => pure done
    | some token =>
      if token.isWord && Keyword.isParameterAttribute token.text then
        parameterAttributesWithin rounds (done ++ [← keywordAttribute])
      else pure done

def parameterAttributes : Reader (List String) := do
  parameterAttributesWithin (← get).remaining []

-- `"key"` or `"key"="value"`
def stringAttribute : Reader String :=
  covered do
    discard advance
    if ← eat "=" then discard (next "attribute value")

-- Each round takes a token, so the tokens left bound the rounds.
def functionAttributesWithin : Nat → List String → Reader (List String)
  | 0, done => pure done
  | rounds + 1, done => do
    match (← get).peek? with
    | none => pure done
    | some token =>
      if token.isWord && Text.startsWithChar token.text '#' then
        discard advance
        functionAttributesWithin rounds (done ++ [token.text])
      else if token.isWord && Keyword.isFunctionAttribute token.text then
        functionAttributesWithin rounds (done ++ [← keywordAttribute])
      else if token.kind = .string then
        functionAttributesWithin rounds (done ++ [← stringAttribute])
      else pure done

-- Keywords, strings and references to attribute groups, in any order.
def functionAttributes : Reader (List String) := do
  functionAttributesWithin (← get).remaining []

-- `fastcc`, `cc 10` and the like
def callingConvention : Reader (Option String) := do
  let c ← get
  if c.nextIs "cc" then
    some <$> covered do
      discard advance
      discard (next "calling convention number")
  else eatIf Keyword.isCallingConvention

-- `addrspace(N)` where no type is due
def addressSpace : Reader (Option String) := do
  let c ← get
  if c.nextIs "addrspace" && c.nthIs 1 "(" then
    some <$> covered do
      discard advance
      skipGroup
  else return none

end TestFocus.Reader
