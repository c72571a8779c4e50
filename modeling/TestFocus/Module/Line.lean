import TestFocus.Operand

-- Lines of a function body. Some instructions extend over several lines; `logicalLines` joins
-- them and leaves one entry for each instruction and each block label.

namespace TestFocus

-- A line of the module with its number, counted from one.
structure SourceLine where
  number : Nat
  text : String
deriving Repr, DecidableEq, Inhabited

inductive LogicalLine where
  | label (register : String)
  | instruction (line : SourceLine)
deriving Repr, DecidableEq, Inhabited

namespace Line

-- Everything in front of the first semicolon outside of quotes.
def beforeComment (inQuotes : Bool) : List Char → List Char
  | [] => []
  | c :: cs =>
    if c == ';' && !inQuotes then []
    else c :: beforeComment (if c == '"' then !inQuotes else inQuotes) cs

def stripComment (line : String) : String :=
  String.ofList (beforeComment false line.toList)

-- The part of a line that carries meaning.
def content (line : String) : String :=
  Text.trim (stripComment line)

def isLabelChar (c : Char) : Bool :=
  Text.isAsciiAlphanumeric c || c == '-' || c == '$' || c == '.' || c == '_'

-- `5:`, `entry:` or `"a b":` at the start of a line
def blockLabel (line : String) : Option String :=
  match line.toList with
  | '"' :: quoted =>
    match Text.splitAtFirst? (· == '"') quoted with
    | some (name, '"' :: ':' :: _) => some (String.ofList ('"' :: (name ++ ['"'])))
    | _ => none
  | cs =>
    let name := cs.takeWhile isLabelChar
    match cs.dropWhile isLabelChar with
    | ':' :: _ => if name.isEmpty then none else some (String.ofList name)
    | _ => none

-- The marker `; <label>:12:`, a comment that names a block.
def labelMarker (raw : String) : Option String :=
  (Text.afterStart? (Text.trimStart raw) "; <label>:").bind fun rest =>
    let name := rest.toList.takeWhile (· != ':')
    if name.isEmpty then none else some (String.ofList name)

-- Opening minus closing square brackets outside of quotes.
def bracketDepth (inQuotes : Bool) : List Char → Int
  | [] => 0
  | c :: cs =>
    if c == '"' then bracketDepth (!inQuotes) cs
    else if inQuotes then bracketDepth inQuotes cs
    else if c == '[' then bracketDepth inQuotes cs + 1
    else if c == ']' then bracketDepth inQuotes cs - 1
    else bracketDepth inQuotes cs

-- The destinations of an invoke may stand on a line of their own.
def isContinuation (text : String) : Bool :=
  Text.startsWith text "to " || Text.startsWith text "unwind "

-- What follows the equals sign when a local name stands in front of it.
def afterAssignee (cs : List Char) : List Char :=
  match Text.splitAtFirst? (· == '=') cs with
  | some (left, _ :: right) =>
    if (left.dropWhile Text.isSpace).head? == some '%' then right else cs
  | _ => cs

def isLandingPad (text : String) : Bool :=
  "landingpad".toList.isPrefixOf ((afterAssignee text.toList).dropWhile Text.isSpace)

def isLandingPadClause (text : String) : Bool :=
  ["catch ", "cleanup", "filter "].any (Text.startsWith text)

-- Debug information and lifetime markers.
def isIgnored (text : String) : Bool :=
  Text.containsText text "@llvm.dbg." || Text.containsText text "@llvm.lifetime."

-- `pending` is an instruction that the next line may continue, with its open square brackets.
structure Folding where
  done : List LogicalLine
  pending : Option (SourceLine × Int)
  inLandingPad : Bool
deriving Repr, DecidableEq, Inhabited

namespace Folding

def empty : Folding :=
  { done := [], pending := none, inLandingPad := false }

def flush (f : Folding) : Folding :=
  match f.pending with
  | some (line, _) => { f with done := f.done ++ [.instruction line], pending := none }
  | none => f

def addLabel (f : Folding) (label : String) : Folding :=
  { f with done := f.done ++ [.label (Operand.labelRegister label)] }

-- A line that does not continue the pending instruction.
def start (f : Folding) (number : Nat) (text : String) : Folding :=
  if f.inLandingPad && isLandingPadClause text then f
  else
    let f := { f with inLandingPad := false }.flush
    match blockLabel text with
    | some label => f.addLabel label
    | none =>
      if isLandingPad text then { f with inLandingPad := true }
      else { f with pending := some ({ number, text }, bracketDepth false text.toList) }

def add (f : Folding) (raw : SourceLine) : Folding :=
  match labelMarker raw.text with
  | some label => f.flush.addLabel label
  | none =>
    let text := content raw.text
    if text.isEmpty then f
    else match f.pending with
      | some (line, depth) =>
        if 0 < depth || isContinuation text then
          { f with pending := some ({ line with text := line.text ++ " " ++ text },
                                    depth + bracketDepth false text.toList) }
        else f.start raw.number text
      | none => f.start raw.number text

end Folding

def isKept : LogicalLine → Bool
  | .label _ => true
  | .instruction line => !isIgnored line.text

end Line

-- The labels and complete instructions of a body, in order.
def logicalLines (body : List SourceLine) : List LogicalLine :=
  ((body.foldl Line.Folding.add .empty).flush.done).filter Line.isKept

end TestFocus
