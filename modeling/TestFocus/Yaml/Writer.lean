import TestFocus.Yaml.Block
import TestFocus.Yaml.Plain
import TestFocus.Yaml.Quoted

-- Writing a text as a YAML scalar: plainly where that reads back as the same text, else in
-- single quotes. A text with line feeds is a literal block, and one that no other form can show
-- is written in double quotes.

namespace TestFocus.Yaml

-- Is there a character satisfying `p` with one satisfying `q` right behind it?
def hasAdjacent (p q : Char → Bool) : List Char → Bool
  | a :: b :: rest => (p a && q b) || hasAdjacent p q (b :: rest)
  | _ => false

def isSpaceChar (c : Char) : Bool :=
  c == ' '

-- A space at the end of a line or of the text is lost in a block.
def isBlockable (cs : List Char) : Bool :=
  cs.all isWritable && !hasAdjacent isSpaceChar isBreak cs && cs.getLast? != some ' '

-- Between single quotes spaces next to a line end are lost.
def isSingleQuotable (cs : List Char) : Bool :=
  cs.all isWritable && !hasAdjacent isSpaceChar isBreak cs && !hasAdjacent isBreak isSpaceChar cs

def writeScalar (text : String) : String :=
  let cs := text.toList
  if cs.contains '\n' then
    if isBlockable cs then literalBlock text else doubleQuoted text
  else if !cs.all isWritable then doubleQuoted text
  else if readsBackPlain text then text
  else if isSingleQuotable cs then singleQuoted text
  else doubleQuoted text

-- A block that ends with a line end needs no other.
def writeEntry (key value : String) : String :=
  let lineEnd := if value.toList.getLast?.any isBreak then "" else "\n"
  key ++ ": " ++ value ++ lineEnd

end TestFocus.Yaml
