import TestFocus.Definition.Basic
import TestFocus.Reader.Attribute

-- Reading the lines outside of bodies: function headers, aliases and attribute groups. A header is
--
--     define [linkage] [preemption] [visibility] [storage class] [convention] [result attributes]
--            ty @name (parameters) [address mark] [addrspace(N)] [attributes] clauses
--
-- and its clauses come in any order.

namespace TestFocus.Reader

-- A string without its quotes.
def unquoted (expected : String) : Reader String :=
  Text.trimChar '"' <$> string expected

-- A parameter, and whether its register was made up: unnamed parameters are numbered among
-- themselves, and `unnamed` of them came before.
def parameter (unnamed : Nat) : Reader (Parameter × Bool) := do
  let ty ← type
  let attributes ← parameterAttributes
  match (← get).peek? with
  | some token =>
    if token.isWord && Text.startsWithChar token.text '%' then
      discard advance
      return ({ type := ty, attributes, register := token.text }, false)
    else return ({ type := ty, attributes, register := "%" ++ toString unnamed }, true)
  | none => return ({ type := ty, attributes, register := "%" ++ toString unnamed }, true)

-- `(ty [attributes] [%name], ..., ...)`
def parameters : Reader (List Parameter) := do
  discard (expect "(" "'('")
  let read ← untilClose ")" fun done => do
    separator done
    if ← eat "..." then return done ++ [(Parameter.variadic, false)]
    else return done ++ [← parameter (done.countP (·.2))]
  return read.map (·.1)

-- `ty constant` as one text
def typedConstant : Reader String := do
  let (ty, value) ← typedValue
  return ty ++ " " ++ value

def comdatName (name : String) : Reader String := do
  if (← get).nextIs "(" then
    return Text.trim (Text.trimEndChar ')' (Text.trimStartChar '(' (← group)))
  else return String.ofList (Text.replaceFirst '@' '$' name.toList)

-- Attributes may also follow other clauses.
def lateAttributes (d : Definition) : Reader (Option Definition) := do
  let before := (← get).pos
  let attributes ← functionAttributes
  if (← get).pos = before then return none
  else return some { d with attributes := d.attributes ++ attributes }

-- One clause after the parameter list, which `keyword` opens; `none` when it opens no clause.
def headerClause (d : Definition) (keyword : String) : Reader (Option Definition) := do
  match keyword with
  | "section" =>
    discard advance
    return some { d with sectionName := some (← unquoted "section name") }
  | "partition" =>
    discard advance
    return some { d with partition := some (← unquoted "partition name") }
  | "comdat" =>
    discard advance
    return some { d with comdat := some (← comdatName d.name) }
  | "align" =>
    discard advance
    return some { d with alignment := some (← next "alignment").text }
  | "gc" =>
    discard advance
    return some { d with collector := some (← unquoted "gc name") }
  | "prefix" =>
    discard advance
    return some { d with prefixData := some (← typedConstant) }
  | "prologue" =>
    discard advance
    return some { d with prologue := some (← typedConstant) }
  | "personality" =>
    discard advance
    return some { d with personality := some (← typedConstant) }
  | _ =>
    if Text.startsWithChar keyword '!' then
      discard advance
      return some { d with metadata := d.metadata ++ [(keyword, ← value)] }
    else lateAttributes d

-- Each clause takes a token, so the tokens left bound the rounds.
def headerClauses : Nat → Definition → Reader Definition
  | 0, d => pure d
  | rounds + 1, d => do
    match (← get).peekText? with
    | none => pure d
    | some keyword =>
      match ← headerClause d keyword with
      | none => pure d
      | some d => headerClauses rounds d

def functionName : Reader String := do
  let token ← next "function name"
  if Text.startsWithChar token.text '@' then return token.text
  else throw (.unexpected "function name" token.text)

-- A whole header, without its opening brace.
def header : Reader Definition := do
  discard (expect "define" "'define'")
  let linkage ← eatIf Keyword.isLinkage
  let preemption ← eatIf Keyword.isPreemption
  let visibility ← eatIf Keyword.isVisibility
  let storageClass ← eatIf Keyword.isStorageClass
  let convention ← callingConvention
  let returnAttributes ← parameterAttributes
  let returnType ← type
  let name ← functionName
  let parameters ← parameters
  let addressMark ← eatIf Keyword.isAddressMark
  let addressSpace ← addressSpace
  let attributes ← functionAttributes
  let d ← headerClauses (← get).remaining
    { name, linkage, preemption := preemption.getD "dso_preemptable", visibility, storageClass,
      callingConvention := convention.getD "ccc", returnAttributes, returnType, parameters,
      addressMark, addressSpace, attributes }
  finish "define header"
  return d

-- `@name = [...] alias ty, ty @target`: the alias and the function it stands for.
def aliasLine : Reader (String × String) := do
  let name := (← next "alias name").text
  discard (expect "=" "'='")
  discard (untilClose "alias" fun (done : List Unit) => do
    discard (next "'alias'")
    return done)
  discard type
  comma
  let (_, aliasee) ← typedValue
  match Operand.referencedGlobal aliasee with
  | some target => return (name, target)
  | none => throw (.unexpected "aliasee" aliasee)

-- `attributes #0 = { ... }`: the group and its attributes. A keyword of no known class is kept as
-- it is.
def attributeGroup : Reader (String × List String) := do
  discard (expect "attributes" "'attributes'")
  let id := (← next "attribute group id").text
  discard (expect "=" "'='")
  discard (expect "\x7b" "'\x7b'")
  let attributes ← untilClose "\x7d" fun done => do
    let known ← functionAttributes
    if known.isEmpty then return done ++ [← keywordAttribute]
    else return done ++ known
  finish "attribute group"
  return (id, attributes)

end TestFocus.Reader

namespace TestFocus

def Definition.parse (header : String) : Except ParseError Definition :=
  Reader.header.parse header

end TestFocus
