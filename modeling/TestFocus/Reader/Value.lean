import TestFocus.Operand
import TestFocus.Reader.Type

-- Reading one value: names, literals, metadata, aggregate constants, block addresses, inline
-- assembly and constant expressions. Constant expressions hold types and values again, so each
-- reader below is given the reader of the values nested in it, and `valueWithin` ties the knot.

namespace TestFocus.Reader

def literals : List String :=
  ["true", "false", "null", "none", "undef", "poison", "zeroinitializer"]

-- Values of a single token.
def isSimpleValue (text : String) : Bool :=
  Operand.isRegister text || Keyword.isNumber text || Text.startsWith text "c\"" ||
    literals.contains text

-- Words in front of a symbol that is used as a constant.
def symbolWrappers : List String :=
  ["blockaddress", "dso_local_equivalent", "no_cfi"]

-- Can the token open a value, as opposed to a type?
def isValueStart (token : Token) : Bool :=
  token.isWord &&
    (isSimpleValue token.text || Text.startsWithChar token.text '!' ||
      Keyword.isConstantExpression token.text ||
      symbolWrappers.contains token.text || token.text == "asm")

-- An alignment or a metadata attachment after the last operand of an instruction.
def isAnnotationStart (c : Cursor) : Bool :=
  c.nextIs "," &&
    (c.peekNth? 1).any fun t =>
      t.text == "align" || (t.isWord && Text.startsWithChar t.text '!')

-- `asm [sideeffect] [alignstack] [inteldialect] [unwind] "code", "constraints"`
def inlineAssembly : Reader String :=
  covered do
    discard (expect "asm" "'asm'")
    discard (run ["sideeffect", "alignstack", "inteldialect", "unwind"].contains)
    discard (string "asm string")
    comma
    discard (string "asm constraints")

-- The typed form is tried first; when it fails, the operand is read again as a bare value.
def operandWith (value : Reader String) : Reader String :=
  covered do
    if ← eat "inrange" then
      if (← get).nextIs "(" then skipGroup
    match ← attempt (do discard type; discard value) with
    | some _ => pure ()
    | none => discard value

-- The words between the head of a constant expression and its operands. Each round takes a token,
-- so the tokens left bound the rounds; at most one comparison predicate is taken.
def constantFlags (head : String) : Nat → Bool → Reader Unit
  | 0, _ => pure ()
  | rounds + 1, compared => do
    let c ← get
    match c.peekText? with
    | none => pure ()
    | some word =>
      if Keyword.isOverflowFlag word || Keyword.isFastMathFlag word ||
          word = "inbounds" || word = "nusw" then
        discard advance
        constantFlags head rounds compared
      else if word = "inrange" && head = "getelementptr" then
        discard advance
        if (← get).nextIs "(" then skipGroup
        constantFlags head rounds compared
      else if !compared && ((head = "icmp" && Keyword.isIntegerPredicate word) ||
          (head = "fcmp" && Keyword.isFloatPredicate word)) then
        discard advance
        constantFlags head rounds true
      else pure ()

-- The operands after the first. Without parentheses an annotation ends them.
def moreOperands (value : Reader String) (parenthesized : Bool) : Nat → Reader Unit
  | 0 => pure ()
  | rounds + 1 => do
    let c ← get
    if c.nextIs "," && !(parenthesized && c.nthIs 1 ")") &&
        !(!parenthesized && isAnnotationStart c) then
      discard advance
      discard (operandWith value)
      moreOperands value parenthesized rounds
    else pure ()

-- `op [flags] (ty value to ty)`, also without the parentheses
def constantCast (value : Reader String) : Reader Unit := do
  discard (run Keyword.isOverflowFlag)
  let parenthesized ← eat "("
  discard type
  discard value
  discard (expect "to" "'to'")
  discard type
  if parenthesized then discard (expect ")" "')'")

def constantExpression (value : Reader String) : Reader Unit := do
  let head := (← next "constant expression").text
  if Keyword.isConversion head then constantCast value
  else
    constantFlags head (← get).remaining false
    let parenthesized ← eat "("
    discard (operandWith value)
    moreOperands value parenthesized (← get).remaining
    if parenthesized then discard (expect ")" "')'")

def wordValue (value : Reader String) (text : String) : Reader Unit := do
  if Text.startsWithChar text '!' then
    discard advance
    let c ← get
    if c.nextIs "\x7b" || c.nextIs "(" then skipGroup
  else if isSimpleValue text then discard advance
  else if symbolWrappers.contains text then
    discard advance
    if (← get).nextIs "(" then skipGroup else discard value
  else if text = "asm" then discard inlineAssembly
  else if Keyword.isConstantExpression text then constantExpression value
  else throw (.unexpected "value" text)

-- One value whose nested values are read by `value`.
def valueOver (value : Reader String) : Reader String :=
  covered do
    match (← get).peek? with
    | none => throw (.unexpectedEnd "value")
    | some token =>
      if token.isPunct "\x7b" || token.isPunct "[" || token.isPunct "<" then skipGroup
      else if token.isWord then wordValue value token.text
      else throw (.unexpected "value" token.text)

-- A value of at most `depth` tokens. A nested value starts at least one token later, so the number
-- of tokens left is always enough, and with none left no value can be read.
def valueWithin : Nat → Reader String
  | 0 => throw (.unexpectedEnd "value")
  | depth + 1 => valueOver (valueWithin depth)

-- One value, as its source text.
def value : Reader String := do
  valueWithin (← get).remaining

-- A typed or a bare value inside of a constant expression.
def operand : Reader String :=
  operandWith value

-- `ty value`
def typedValue : Reader (String × String) := do
  let ty ← type
  return (ty, ← value)

-- `label %dest`
def label : Reader String := do
  discard (expect "label" "'label'")
  value

end TestFocus.Reader

namespace TestFocus.Operand

-- The first global mentioned in a value, such as the function below a cast.
def referencedGlobal (value : String) : Option String :=
  if isGlobal value then some value
  else match tokenize value with
    | .error _ => none
    | .ok tokens => (tokens.find? fun t => t.isWord && isGlobal t.text).map (·.text)

end TestFocus.Operand
