import TestFocus.Keyword
import TestFocus.Reader.Basic

namespace TestFocus.Reader

-- Each round takes a token, so the tokens left bound the rounds; with none left there is no suffix.
def typeSuffixes : Nat → Reader Unit
  | 0 => pure ()
  | rounds + 1 => do
    let c ← get
    if c.nextIs "*" then
      discard advance
      typeSuffixes rounds
    else if c.nextIs "addrspace" && c.nthIs 1 "(" then
      discard advance
      skipGroup
      typeSuffixes rounds
    else if c.nextIs "(" then
      skipGroup
      typeSuffixes rounds
    else pure ()

def typeHead : Reader Unit := do
  match (← get).peek? with
  | none => throw (.unexpectedEnd "type")
  | some token =>
    if token.isPunct "[" || token.isPunct "\x7b" || token.isPunct "<" then skipGroup
    else if token.isWord && Keyword.isTypeWord token.text then
      discard advance
      if token.text = "target" && (← get).nextIs "(" then skipGroup
    else throw (.unexpected "type" token.text)

-- One type, as its source text.
def type : Reader String :=
  covered do
    typeHead
    typeSuffixes (← get).remaining

end TestFocus.Reader
