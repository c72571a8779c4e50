import TestFocus.Module.Line

namespace TestFocus

-- The header is the text from `define` to the opening brace, without the brace.
structure FunctionSource where
  header : SourceLine
  body : List SourceLine
deriving Repr, DecidableEq, Inhabited

structure ModuleSource where
  aliases : List SourceLine
  attributeGroups : List SourceLine
  functions : List FunctionSource
deriving Repr, DecidableEq, Inhabited

namespace ModuleSource

def empty : ModuleSource :=
  { aliases := [], attributeGroups := [], functions := [] }

def isDefinition (line : String) : Bool :=
  Text.startsWith line "define " || line == "define"

def isAlias (line : String) : Bool :=
  Text.startsWithChar line '@' && line.toList.contains '=' && (Text.words line).contains "alias"

-- Where a line stands: between definitions, in a header that has not reached its brace, or in a
-- body. Body lines are kept last first.
inductive Place where
  | outside
  | header (line : SourceLine)
  | body (header : SourceLine) (lines : List SourceLine)
deriving Repr, DecidableEq, Inhabited

namespace Place

def ofHeader (line : SourceLine) : Place :=
  if Text.endsWithChar line.text '\x7b' then .body line [] else .header line

end Place

def closeHeader (line : SourceLine) : SourceLine :=
  { line with text := Text.trimEnd (Text.trimEndChar '\x7b' line.text) }

def addFunction (m : ModuleSource) (header : SourceLine) (lines : List SourceLine) : ModuleSource :=
  { m with functions := m.functions ++ [{ header := closeHeader header, body := lines.reverse }] }

-- A line between definitions.
def addOutside (m : ModuleSource) (line : SourceLine) : ModuleSource × Place :=
  if isDefinition line.text then (m, .ofHeader line)
  else if Text.startsWith line.text "attributes #" then
    ({ m with attributeGroups := m.attributeGroups ++ [line] }, .outside)
  else if isAlias line.text then ({ m with aliases := m.aliases ++ [line] }, .outside)
  else (m, .outside)

def add (m : ModuleSource) (place : Place) (number : Nat) (raw : String) : ModuleSource × Place :=
  match place with
  | .outside => m.addOutside { number, text := Line.content raw }
  | .header line => (m, .ofHeader { line with text := line.text ++ " " ++ Line.content raw })
  | .body header lines =>
    if Text.trim raw = "\x7d" then (m.addFunction header lines, .outside)
    else (m, .body header ({ number, text := raw } :: lines))

-- A definition that the text ends in is kept with what it has.
def finish (m : ModuleSource) : Place → ModuleSource
  | .outside => m
  | .header line => m.addFunction line []
  | .body header lines => m.addFunction header lines

def splitFrom (m : ModuleSource) (place : Place) (number : Nat) : List String → ModuleSource
  | [] => m.finish place
  | raw :: rest =>
    let (m, place) := m.add place number raw
    splitFrom m place (number + 1) rest

def split (text : String) : ModuleSource :=
  splitFrom empty .outside 1 (Text.lines text)

end ModuleSource

end TestFocus
