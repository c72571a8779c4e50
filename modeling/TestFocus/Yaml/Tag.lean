import TestFocus.Yaml.Place
import TestFocus.Yaml.Scalar

namespace TestFocus.Yaml

-- The characters of the names of anchors, handles and directives.
def isNameChar (p : Placed) : Bool :=
  Text.isAsciiAlphanumeric p.char || p.char == '_' || p.char == '-'

def readName (cs : List Placed) : String × List Placed :=
  (String.ofList ((cs.takeWhile isNameChar).map (·.char)), cs.dropWhile isNameChar)

def tagPunctuation : List Char :=
  [';', '/', '?', ':', '@', '&', '=', '+', '$', '.', '!', '~', '*', '\x27', '(', ')', '%']

-- In full, a tag may also hold a comma and square brackets.
def isTagChar (inFull : Bool) (p : Placed) : Bool :=
  isNameChar p || tagPunctuation.contains p.char || (inFull && [',', '[', ']'].contains p.char)

-- The number of octets of a character that follow its first one.
def octetsAfter? (octet : Nat) : Option Nat :=
  if octet < 0x80 then some 0
  else if 0xC0 ≤ octet && octet < 0xE0 then some 1
  else if 0xE0 ≤ octet && octet < 0xF0 then some 2
  else if 0xF0 ≤ octet && octet < 0xF8 then some 3
  else none

-- The number of octets that are due after an octet where `due` more were.
def stillDue? (due octet : Nat) : Option Nat :=
  if due = 0 then octetsAfter? octet
  else if 0x80 ≤ octet && octet < 0xC0 then some (due - 1)
  else none

-- A percent sign and two digits give an octet, and the octets have to form characters. `due` more
-- octets belong to the character being read. Octets are kept apart, one character each.
def unescapeFrom (due : Nat) : List Char → Option (List Char)
  | [] => if due = 0 then some [] else none
  | '%' :: a :: b :: rest =>
    (natInBase? 16 [a, b]).bind fun octet =>
      (stillDue? due octet).bind fun due =>
        (unescapeFrom due rest).map (Char.ofNat octet :: ·)
  | c :: rest => if due = 0 && c != '%' then (unescapeFrom 0 rest).map (c :: ·) else none

-- The text ends at a zero octet.
def unescape? (cs : List Char) : Option String :=
  (unescapeFrom 0 cs).map fun octets => String.ofList (octets.takeWhile (· != '\x00'))

-- The characters of a tag after what was read of it already, and the text after them.
def tagText? (inFull : Bool) (read : List Char) (cs : List Placed) :
    Option (String × List Placed) :=
  let chars := (cs.takeWhile (isTagChar inFull)).map (·.char)
  if read.isEmpty && chars.isEmpty then none
  else (unescape? chars).map fun text =>
    (String.ofList (read.drop 1) ++ text, cs.dropWhile (isTagChar inFull))

-- A tag as it is written. The empty handle stands for nothing.
structure TagName where
  handle : String
  suffix : String
deriving Repr, DecidableEq, Inhabited

-- An exclamation mark, a name and perhaps another exclamation mark.
def readHandle (cs : List Placed) : List Char × List Placed :=
  let (name, rest) := readName (cs.drop 1)
  if startsWith '!' rest then ('!' :: name.toList ++ ['!'], rest.drop 1)
  else ('!' :: name.toList, rest)

def isHandle (read : List Char) : Bool :=
  read.length > 1 && read.getLast? == some '!'

-- A tag from its exclamation mark on. A name without a second mark is the start of a suffix, and
-- a mark alone is a tag of its own.
def tagName? (cs : List Placed) : Option (TagName × List Placed) :=
  if startsWith '<' (cs.drop 1) then
    (tagText? true [] (cs.drop 2)).bind fun (suffix, rest) =>
      if startsWith '>' rest then some (⟨"", suffix⟩, rest.drop 1) else none
  else
    let (read, rest) := readHandle cs
    if isHandle read then
      (tagText? false [] rest).map fun (suffix, rest) => (⟨String.ofList read, suffix⟩, rest)
    else
      (tagText? false read rest).map fun (suffix, rest) =>
        (if suffix.isEmpty then ⟨"", "!"⟩ else ⟨"!", suffix⟩, rest)

-- A gap follows a tag, or, inside of braces, a comma.
def readTag (inBraces : Bool) (cs : List Placed) : Option (TagName × List Placed) :=
  (tagName? cs).filter fun (_, rest) => atGap rest || (inBraces && startsWith ',' rest)

inductive Directive where
  | version (major minor : Nat)
  | handle (name start : String)
deriving Repr, DecidableEq, Inhabited

-- A number of at most nine digits.
def versionPart? (cs : List Placed) : Option (Nat × List Placed) :=
  let digits := (cs.takeWhile fun p => Text.isAsciiDigit p.char).map (·.char)
  if digits.length ≤ 9 then
    (natInBase? 10 digits).map fun n => (n, cs.dropWhile fun p => Text.isAsciiDigit p.char)
  else none

def readVersion (cs : List Placed) : Option (Directive × List Placed) :=
  (versionPart? (skipBlanks cs)).bind fun (major, rest) =>
    if startsWith '.' rest then
      (versionPart? (rest.drop 1)).map fun (minor, rest) => (.version major minor, rest)
    else none

-- A handle, blanks, and what it stands for, up to a gap.
def handleDeclaration? (cs : List Placed) : Option (Directive × List Placed) :=
  let start := skipBlanks cs
  let (read, rest) := readHandle start
  if startsWith '!' start && (isHandle read || read == ['!']) &&
      rest.head?.any (fun p => isBlank p.char) then
    (tagText? true [] (skipBlanks rest)).bind fun (text, rest) =>
      if atGap rest then some (.handle (String.ofList read) text, rest) else none
  else none

-- A directive after its percent sign, and the text from the next line on.
def readDirective (cs : List Placed) : Option (Directive × List Placed) :=
  let (name, rest) := readName cs
  let body := if name == "YAML" then readVersion rest
    else if name == "TAG" then handleDeclaration? rest
    else none
  if atGap rest then
    body.bind fun (directive, rest) => (skipLine? rest).map fun rest => (directive, rest)
  else none

end TestFocus.Yaml
