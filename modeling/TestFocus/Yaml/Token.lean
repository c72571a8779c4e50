import TestFocus.Yaml.Block
import TestFocus.Yaml.Plain
import TestFocus.Yaml.Quoted
import TestFocus.Yaml.Tag

-- Tokens of a YAML document that is one flat mapping. Mappings in block form are shown by
-- indentation: a token of their own stands where one starts and where one ends. Whether a node
-- is a key is known only at the colon behind it, so the token of a key is put in front of the
-- node then. Sequences and mappings inside of a mapping are refused where they start.

namespace TestFocus.Yaml

inductive Token where
  | directive (d : Directive)
  | documentStart
  | documentEnd
  | blockStart
  | blockEnd
  | braceOpen
  | braceClose
  | comma
  | key
  | value
  | aliasOf (name : String)
  | anchor (name : String)
  | tag (name : TagName)
  | scalar (text : String) (style : Style)
deriving Repr, DecidableEq, Inhabited

-- The mapping that is open: none, one whose keys stand at a column, or one between braces.
inductive Layout where
  | outside
  | block (column : Nat)
  | braces
deriving Repr, DecidableEq, Inhabited

namespace Layout

def column? : Layout → Option Nat
  | block column => some column
  | _ => none

def isBraces : Layout → Bool
  | braces => true
  | _ => false

-- Where the lines of a value have to stand.
def valueIndent (l : Layout) : Nat :=
  (l.column?.map (· + 1)).getD 0

-- A key at a column opens a mapping unless one is open there.
def openAt? (column : Nat) : Layout → Option (Layout × List Token)
  | outside => some (block column, [.blockStart])
  | block current => if current < column then none else some (block current, [])
  | braces => some (braces, [])

end Layout

-- A node that is a key if a colon follows it. In a block mapping one is required for a node in the
-- column of the keys.
structure KeyStart where
  line : Nat
  column : Nat
  isRequired : Bool
  -- how many tokens stand before it
  count : Nat
deriving Repr, DecidableEq, Inhabited

-- The longest line that a key can stand on, up to its colon.
def keyLimit : Nat := 1024

structure Scan where
  -- the tokens so far, last first
  tokens : List Token
  layout : Layout
  -- may a key start here?
  keyAllowed : Bool
  keyStart : Option KeyStart
deriving Repr, DecidableEq, Inhabited

namespace Scan

def start : Scan :=
  { tokens := [], layout := .outside, keyAllowed := true, keyStart := none }

def emit (token : Token) (s : Scan) : Scan :=
  { s with tokens := token :: s.tokens }

def allowKey (allowed : Bool) (s : Scan) : Scan :=
  { s with keyAllowed := allowed }

-- Gives up the node that may be a key; `none` if it has to be one.
def dropKey? (s : Scan) : Option Scan :=
  if s.keyStart.any (·.isRequired) then none else some { s with keyStart := none }

-- A key and its colon stand on one line, and not too far apart.
def expireKey? (p : Placed) (s : Scan) : Option Scan :=
  match s.keyStart with
  | some k => if k.line < p.line || k.column + keyLimit < p.column then s.dropKey? else some s
  | none => some s

-- Notes that a node starts at `p`. Directly after it no other key can start.
def startNode? (p : Placed) (s : Scan) : Option Scan :=
  if s.keyAllowed then
    s.dropKey?.map fun s =>
      { s with
        keyAllowed := false
        keyStart := some {
          line := p.line
          column := p.column
          isRequired := s.layout.column? == some p.column
          count := s.tokens.length } }
  else some s

-- Ends the block mapping.
def close (s : Scan) : Scan :=
  match s.layout with
  | .block _ => { s with layout := .outside, tokens := .blockEnd :: s.tokens }
  | _ => s

-- Ends the block mapping if `column` lies to the left of its keys.
def closeRightOf (column : Nat) (s : Scan) : Scan :=
  if s.layout.column?.any (column < ·) then s.close else s

-- Puts tokens in front of all but the first `count` ones.
def insertAt (count : Nat) (new : List Token) (s : Scan) : Scan :=
  let after := s.tokens.length - count
  { s with tokens := s.tokens.take after ++ new.reverse ++ s.tokens.drop after }

-- A question mark opens a key of any kind.
def openKey? (p : Placed) (s : Scan) : Option Scan :=
  if !s.layout.isBraces && !s.keyAllowed then none
  else (s.layout.openAt? p.column).bind fun (layout, opening) =>
    s.dropKey?.map fun s =>
      { s with
        layout
        tokens := .key :: (opening ++ s.tokens)
        keyAllowed := !layout.isBraces }

-- A colon: the node before it becomes a key if it may be one.
def openValue? (p : Placed) (s : Scan) : Option Scan :=
  match s.keyStart with
  | some k =>
    (s.layout.openAt? k.column).map fun (layout, opening) =>
      let marked := s.insertAt k.count (opening ++ [.key])
      { marked with
        layout
        tokens := .value :: marked.tokens
        keyAllowed := false
        keyStart := none }
  | none =>
    if !s.layout.isBraces && !s.keyAllowed then none
    else (s.layout.openAt? p.column).map fun (layout, opening) =>
      { s with
        layout
        tokens := .value :: (opening ++ s.tokens)
        keyAllowed := !layout.isBraces }

-- Between documents no mapping is open.
def leaveMapping? (s : Scan) : Option Scan :=
  s.close.dropKey?.map (·.allowKey false)

def openBraces? (s : Scan) : Option Scan :=
  if s.layout = .outside then
    some { s with
      layout := .braces, keyAllowed := true, keyStart := none, tokens := .braceOpen :: s.tokens }
  else none

def closeBraces? (s : Scan) : Option Scan :=
  if s.layout.isBraces then
    some { s with
      layout := .outside, keyAllowed := false, keyStart := none, tokens := .braceClose :: s.tokens }
  else none

def nextPair? (s : Scan) : Option Scan :=
  if s.layout.isBraces then
    some { s with keyAllowed := true, keyStart := none, tokens := .comma :: s.tokens }
  else none

end Scan

-- Skips spaces, line ends and comments. Where a key may start in a block mapping a tab is none of
-- them, and behind a line end one may. Returns whether a key may start in front of the rest.
def skipGap (inBraces keyAllowed inComment : Bool) : List Placed → Bool × List Placed
  | [] => (keyAllowed, [])
  | p :: rest =>
    if isBreak p.char then skipGap inBraces (keyAllowed || !inBraces) false rest
    else if inComment || p.char == ' ' || (p.char == '\t' && (inBraces || !keyAllowed)) then
      skipGap inBraces keyAllowed inComment rest
    else if p.char == '#' then skipGap inBraces keyAllowed true rest
    else (keyAllowed, p :: rest)

-- The name of an anchor or of an alias, up to a gap or to a character that may follow it.
def anchorName? (cs : List Placed) : Option (String × List Placed) :=
  let (name, rest) := readName cs
  if name.isEmpty then none
  else if atGap rest || startsWithAny ['?', ':', ',', ']', '\x7d', '%', '@', '\x60'] rest then
    some (name, rest)
  else none

-- A node of a mapping from its first character on: an alias, a property or a scalar.
def nodeToken? (s : Scan) (p : Placed) (rest : List Placed) : Option (Scan × List Placed) :=
  let inBraces := s.layout.isBraces
  match p.char with
  | '*' => do
    let s ← s.startNode? p
    let (name, rest) ← anchorName? rest
    return (s.emit (.aliasOf name), rest)
  | '&' => do
    let s ← s.startNode? p
    let (name, rest) ← anchorName? rest
    return (s.emit (.anchor name), rest)
  | '!' => do
    let s ← s.startNode? p
    let (name, rest) ← readTag inBraces (p :: rest)
    return (s.emit (.tag name), rest)
  | c =>
    if !inBraces && (c == '|' || c == '>') then do
      let s ← s.dropKey?
      let (text, rest) ← readBlock (c == '>') s.layout.column? rest
      return ((s.allowKey true).emit (.scalar text (if c == '>' then .folded else .literal)), rest)
    else if isQuote c then do
      let s ← s.startNode? p
      let (text, rest) ← readQuoted (p :: rest)
      return (s.emit (.scalar text .quoted), rest)
    else if opensPlain inBraces c (rest.head?.map (·.char)) then do
      let s ← s.startNode? p
      let (text, crossed, rest) ← readPlain inBraces s.layout.valueIndent (p :: rest)
      return ((s.allowKey (s.keyAllowed || crossed)).emit (.scalar text .plain), rest)
    else none

-- The tokens that start with a character, and the text after them.
def nextToken? (s : Scan) (p : Placed) (rest : List Placed) : Option (Scan × List Placed) := do
  let s ← s.expireKey? p
  let s := s.closeRightOf p.column
  let isMark := s.layout.isBraces || atGap rest
  if p.column = 0 && p.char = '%' then
    let s ← s.leaveMapping?
    let (directive, rest) ← readDirective rest
    return (s.emit (.directive directive), rest)
  else if isDocumentMark (p :: rest) then
    let s ← s.leaveMapping?
    return (s.emit (if p.char = '-' then .documentStart else .documentEnd), rest.drop 2)
  else match p.char with
    | '\x7b' => return (← s.openBraces?, rest)
    | '\x7d' => return (← s.closeBraces?, rest)
    | ',' => return (← s.nextPair?, rest)
    | '?' => if isMark then return (← s.openKey? p, rest) else nodeToken? s p rest
    | ':' => if isMark then return (← s.openValue? p, rest) else nodeToken? s p rest
    | _ => nodeToken? s p rest

-- Each round takes at least one character.
def tokensFrom : Nat → Scan → List Placed → Option (List Token)
  | 0, _, _ => none
  | rounds + 1, s, cs =>
    match skipGap s.layout.isBraces s.keyAllowed false cs with
    | (_, []) => s.leaveMapping?.map (·.tokens.reverse)
    | (keyAllowed, p :: rest) =>
      (nextToken? (s.allowKey keyAllowed) p rest).bind fun (s, rest) => tokensFrom rounds s rest

def tokens? (text : String) : Option (List Token) :=
  if text.toList.all isAllowed then
    let cs := place text
    tokensFrom (cs.length + 1) .start cs
  else none

end TestFocus.Yaml
