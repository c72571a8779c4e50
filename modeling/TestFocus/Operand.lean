import TestFocus.Text.Basic

namespace TestFocus.Operand

-- The name of a local or of a global, with its sigil.
def isRegister (value : String) : Bool :=
  match value.toList with
  | c :: _ :: _ => c == '%' || c == '@'
  | _ => false

def isGlobal (value : String) : Bool :=
  match value.toList with
  | c :: _ :: _ => c == '@'
  | _ => false

def isSymbolChar (c : Char) : Bool :=
  Text.isAsciiAlphanumeric c || c == '_' || c == '.' || c == '$' || c == '-'

-- The global name that follows an at sign: a quoted name with its quotes, or a run of symbol
-- characters; `none` for an empty run or an unclosed quote.
def globalAfterAt (cs : List Char) : Option String :=
  match cs with
  | '"' :: quoted =>
    (Text.splitAtFirst? (· == '"') quoted).map fun (name, _) =>
      String.ofList ('@' :: '"' :: (name ++ ['"']))
  | _ =>
    let name := cs.takeWhile isSymbolChar
    if name.isEmpty then none else some (String.ofList ('@' :: name))

-- The first global named outside of quotes.
def firstGlobal (inQuotes : Bool) : List Char → Option String
  | [] => none
  | c :: cs =>
    if c == '"' then firstGlobal (!inQuotes) cs
    else if c == '@' && !inQuotes then
      match globalAfterAt cs with
      | some name => some name
      | none => firstGlobal inQuotes cs
    else firstGlobal inQuotes cs

-- The name under which a use of the value is followed: the register itself, or the global that a
-- constant expression is built on. Literals, character strings and metadata have none.
def trackedName (value : String) : Option String :=
  if isRegister value then some value
  else if Text.startsWith value "c\"" || Text.startsWithChar value '!' then none
  else firstGlobal false value.toList

-- `T*`, `T addrspace(N)*`, `ptr` or `ptr addrspace(N)`
def isPointerType (type : String) : Bool :=
  let t := Text.trim type
  Text.endsWithChar t '*' || t == "ptr" || Text.startsWith t "ptr "

-- A block label in the form in which jumps name it.
def labelRegister (label : String) : String :=
  if Text.startsWithChar label '%' then label else "%" ++ label

-- Does one of the attributes carry this name, bare or with an argument?
def hasAttribute (attributes : List String) (name : String) : Bool :=
  attributes.any fun given =>
    given == name ||
      (Text.afterStart? given name).any fun rest =>
        Text.startsWithChar rest '(' || Text.startsWithChar rest ' '

end TestFocus.Operand
