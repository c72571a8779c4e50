namespace TestFocus.Yaml

def isBlank (c : Char) : Bool :=
  c == ' ' || c == '\t'

-- The characters that end a line.
def isBreak (c : Char) : Bool :=
  c == '\n' || c == '\r' || c == '\u0085' || c == '\u2028' || c == '\u2029'

-- The characters that may stand in a document.
def isAllowed (c : Char) : Bool :=
  c == '\t' || c == '\n' || c == '\r' || (0x20 ≤ c.toNat && c.toNat ≤ 0x7E) || c.toNat == 0x85 ||
    (0xA0 ≤ c.toNat && c.toNat ≤ 0xD7FF) || (0xE000 ≤ c.toNat && c.toNat ≤ 0xFFFD) ||
    0x10000 ≤ c.toNat

-- A character and how many lines, and how many characters of its own line, stand before it.
structure Placed where
  char : Char
  line : Nat
  column : Nat
deriving Repr, DecidableEq, Inhabited

-- A line separator and a paragraph separator keep their identity. Every other line end is read as
-- a line feed.
def alikeBreak (c : Char) : Char :=
  if c == '\u2028' || c == '\u2029' then c else '\n'

-- A carriage return with the line feed after it is one line end.
def placeFrom (line column : Nat) : List Char → List Placed
  | [] => []
  | '\r' :: '\n' :: rest => ⟨'\n', line, column⟩ :: placeFrom (line + 1) 0 rest
  | c :: rest =>
    if isBreak c then ⟨alikeBreak c, line, column⟩ :: placeFrom (line + 1) 0 rest
    else ⟨c, line, column⟩ :: placeFrom line (column + 1) rest

-- A byte order mark in front of the document is no part of it, but it takes a column.
def place (text : String) : List Placed :=
  match text.toList with
  | '\ufeff' :: rest => placeFrom 0 1 rest
  | cs => placeFrom 0 0 cs

def startsWith (c : Char) (cs : List Placed) : Bool :=
  cs.head?.any (·.char == c)

def startsWithAny (set : List Char) (cs : List Placed) : Bool :=
  cs.head?.any fun p => set.contains p.char

-- A blank, a line end or the end of the document.
def atGap (cs : List Placed) : Bool :=
  cs.head?.all fun p => isBlank p.char || isBreak p.char

def atLineEnd (cs : List Placed) : Bool :=
  cs.head?.all fun p => isBreak p.char

def skipBlanks (cs : List Placed) : List Placed :=
  cs.dropWhile fun p => isBlank p.char

def skipToLineEnd (cs : List Placed) : List Placed :=
  cs.dropWhile fun p => !isBreak p.char

-- What is left of a line: blanks, and a comment if there is one. The rest starts with the next
-- line.
def skipLine? (cs : List Placed) : Option (List Placed) :=
  let rest := skipBlanks cs
  let rest := if startsWith '#' rest then skipToLineEnd rest else rest
  if atLineEnd rest then some (rest.drop 1) else none

-- Three hyphens or three dots that fill the first columns of a line, up to a gap.
def isDocumentMark (cs : List Placed) : Bool :=
  let mark := (cs.take 3).map (·.char)
  cs.head?.any (·.column == 0) && (mark == ['-', '-', '-'] || mark == ['.', '.', '.']) &&
    atGap (cs.drop 3)

end TestFocus.Yaml
