import TestFocus.Analysis.Basic
import TestFocus.CallGraph.Dot
import TestFocus.FlowGraph.Dot

namespace TestFocus.Report

-- A line for each test and, indented below it, one for each of its focal methods.
def testLines (entry : String × List String) : String :=
  let methods := if entry.2.isEmpty then ["(none)"] else entry.2
  entry.1 ++ "\n" ++ String.join (methods.map fun name => "  " ++ name ++ "\n")

def text (focal : List (String × List String)) : String :=
  String.join (focal.map testLines)

def hexDigit (n : Nat) : Char :=
  Nat.digitChar n

-- Quotes, backslashes and control characters are escaped; everything else stands as it is.
def jsonChar (c : Char) : List Char :=
  if c == '"' then ['\\', '"']
  else if c == '\\' then ['\\', '\\']
  else if c == '\x08' then ['\\', 'b']
  else if c == '\x0c' then ['\\', 'f']
  else if c == '\n' then ['\\', 'n']
  else if c == '\r' then ['\\', 'r']
  else if c == '\t' then ['\\', 't']
  else if c.toNat < 0x20 then
    ['\\', 'u', '0', '0', hexDigit (c.toNat / 16), hexDigit (c.toNat % 16)]
  else [c]

def jsonString (s : String) : String :=
  String.ofList ('"' :: (s.toList.flatMap jsonChar ++ ['"']))

def jsonArray (names : List String) : String :=
  if names.isEmpty then "[]"
  else "[\n" ++ ",\n".intercalate (names.map fun name => "    " ++ jsonString name) ++ "\n  ]"

def jsonEntry (entry : String × List String) : String :=
  "  " ++ jsonString entry.1 ++ ": " ++ jsonArray entry.2

-- An object from tests to arrays of focal methods, two spaces for each level.
def json (focal : List (String × List String)) : String :=
  (if focal.isEmpty then "\x7b\x7d"
   else "\x7b\n" ++ ",\n".intercalate (focal.map jsonEntry) ++ "\n\x7d") ++ "\n"

-- The file name for a function: leading at signs are dropped, and everything but letters, digits
-- and underscores is replaced.
def graphFileName (function : String) : String :=
  let symbol := (function.toList.dropWhile (· == '@')).map fun c =>
    if Text.isAsciiAlphanumeric c || c == '_' then c else '_'
  String.ofList symbol ++ ".dot"

-- One file for each scanned function and one for the call graph, in the order of writing.
def graphFiles (a : Analysis) : List (String × String) :=
  (a.evaluatedBodies.map fun body => (graphFileName body.name, body.graph.toDot)) ++
    [("call_graph.dot", a.callGraph.toDot)]

-- The longest name that a file can have, in bytes.
def fileNameLimit : Nat := 255

def isFileName (name : String) : Bool :=
  name.utf8ByteSize ≤ fileNameLimit

-- The files in front of the first one that cannot be written, because its name is too long.
def writable (files : List (String × String)) : List (String × String) :=
  files.takeWhile fun file => isFileName file.1

-- The files that are there after a sequence of writes: a later file of the same name replaces an
-- earlier one.
def afterWrites (files : List (String × String)) : Table String :=
  files.foldl (fun directory (name, content) => directory.insert name content) ∅

-- Writes the files of an analysis into an empty directory: what is there afterwards, and how many
-- files are reported as written, which is the number of writes. A name that is too long stops it.
def writeGraphFiles (a : Analysis) : Option (Table String × Nat) :=
  if (graphFiles a).all fun file => isFileName file.1 then
    some (afterWrites (graphFiles a), (graphFiles a).length)
  else none

end TestFocus.Report
