import TestFocus.Yaml.Place
import TestFocus.Yaml.Scalar

namespace TestFocus.Yaml

-- Which line ends at the end of a block belong to the text: none, one or all of them.
inductive Chomping where
  | strip
  | clip
  | keep
deriving Repr, DecidableEq, Inhabited

def Chomping.mark : Chomping → List Char
  | strip => ['-']
  | clip => []
  | keep => ['+']

def chomping? (c : Char) : Option Chomping :=
  if c == '-' then some .strip else if c == '+' then some .keep else none

def indentDigit? (c : Char) : Option Nat :=
  if '1' ≤ c && c ≤ '9' then some (c.toNat - '0'.toNat) else none

structure BlockHeader where
  -- how much deeper than the mapping the lines stand, if it is said
  depth : Option Nat
  chomping : Chomping
deriving Repr, DecidableEq, Inhabited

-- The marks of a header come in any order.
def blockMarks? : List Char → Option BlockHeader
  | [] => some ⟨none, .clip⟩
  | [a] => some ⟨indentDigit? a, (chomping? a).getD .clip⟩
  | [a, b] =>
    match indentDigit? a, chomping? b, chomping? a, indentDigit? b with
    | some depth, some chomping, _, _ => some ⟨some depth, chomping⟩
    | _, _, some chomping, some depth => some ⟨some depth, chomping⟩
    | _, _, _, _ => none
  | _ => none

def isBlockMark (p : Placed) : Bool :=
  (chomping? p.char).isSome || (indentDigit? p.char).isSome

-- The header after its first character, and the text from the next line on.
def blockHeader? (cs : List Placed) : Option (BlockHeader × List Placed) :=
  (blockMarks? ((cs.takeWhile isBlockMark).map (·.char))).bind fun header =>
    (skipLine? (cs.dropWhile isBlockMark)).map fun rest => (header, rest)

-- Skips lines with nothing but indentation, from the start of a line, and the indentation of the
-- line after them. Returns the line ends that were passed, the deepest column that was reached, and
-- the rest. Without an indentation to go by all spaces count as such. A tab among them is refused.
def emptyLines (indent : Option Nat) (deepest : Nat) :
    List Placed → Option (List Char × Nat × List Placed)
  | [] => some ([], deepest, [])
  | p :: rest =>
    let isWithin := indent.all (p.column < ·)
    if isBreak p.char then
      (emptyLines indent deepest rest).map fun (breaks, deepest, rest) =>
        (p.char :: breaks, deepest, rest)
    else if isWithin && p.char == ' ' then emptyLines indent (max deepest (p.column + 1)) rest
    else if isWithin && p.char == '\t' then none
    else some ([], deepest, p :: rest)

-- A line of a block, with the line end after it and those of the empty lines that follow.
structure BlockLine where
  text : List Char
  lineEnd : Option Char
  more : List Char
deriving Repr, DecidableEq, Inhabited

def BlockLine.opensBlank (line : BlockLine) : Bool :=
  line.text.head?.any isBlank

-- The lines that stand at the indentation, from the first one on, and the text after them.
def blockLines (indent : Nat) : Nat → List Placed → Option (List BlockLine × List Placed)
  | 0, cs => some ([], cs)
  | rounds + 1, cs =>
    if !cs.head?.any (·.column == indent) then some ([], cs)
    else
      let text := (cs.takeWhile fun p => !isBreak p.char).map (·.char)
      let rest := skipToLineEnd cs
      (emptyLines (some indent) 0 (rest.drop 1)).bind fun (more, _, after) =>
        (blockLines indent rounds after).map fun (lines, after) =>
          ({ text, lineEnd := rest.head?.map (·.char), more } :: lines, after)

-- The line ends between two lines of a block. A line feed between two lines that do not open with
-- a blank is folded: to a space, or to the line ends after it where there are any.
def between (isFolded : Bool) (before after : BlockLine) : List Char :=
  if isFolded && before.lineEnd == some '\n' && !before.opensBlank && !after.opensBlank then
    if before.more.isEmpty then [' '] else before.more
  else before.lineEnd.toList ++ before.more

def BlockLine.chomped (chomping : Chomping) (line : BlockLine) : List Char :=
  match chomping with
  | .strip => []
  | .clip => line.lineEnd.toList
  | .keep => line.lineEnd.toList ++ line.more

def joinLines (isFolded : Bool) (chomping : Chomping) : List BlockLine → List Char
  | [] => []
  | [line] => line.text ++ line.chomped chomping
  | line :: next :: lines =>
    line.text ++ between isFolded line next ++ joinLines isFolded chomping (next :: lines)

-- The column of the lines of a block below a mapping that stands at the given column, if there is
-- one. Where the header does not give it, it is the deepest column of the lines up to the first one
-- with text, and deeper than the mapping.
def blockIndent (parent : Option Nat) (depth : Option Nat) (deepest : Nat) : Nat :=
  match depth with
  | some d => parent.getD 0 + d
  | none => max deepest (max 1 ((parent.map (· + 1)).getD 0))

-- A block after its first character, and the text after it. The line ends in front of the first
-- line with text belong to it; those of a block without such a line only where all are kept.
def readBlock (isFolded : Bool) (parent : Option Nat) (cs : List Placed) :
    Option (String × List Placed) :=
  (blockHeader? cs).bind fun (header, below) =>
    let given := header.depth.map fun d => blockIndent parent (some d) 0
    (emptyLines given 0 below).bind fun (breaks, deepest, rest) =>
      let indent := blockIndent parent header.depth deepest
      (blockLines indent (rest.length + 1) rest).map fun (lines, rest) =>
        let leading := if lines.isEmpty && header.chomping != .keep then [] else breaks
        (String.ofList (leading ++ joinLines isFolded header.chomping lines), rest)

-- The chomping under which a text reads back.
def chompingFor (cs : List Char) : Chomping :=
  match cs.reverse with
  | [] => .strip
  | [last] => if isBreak last then .keep else .strip
  | last :: before :: _ =>
    if !isBreak last then .strip else if isBreak before then .keep else .clip

-- The first line shows the indentation unless it is empty or opens with a space.
def indentMark (cs : List Char) : List Char :=
  if cs.head?.any (fun c => c == ' ' || isBreak c) then ['2'] else []

-- Indents every line but the empty ones; `atStart` tells that the next character opens a line.
def indentLines (atStart : Bool) : List Char → List Char
  | [] => []
  | c :: cs =>
    if isBreak c then c :: indentLines true cs
    else if atStart then ' ' :: ' ' :: c :: indentLines false cs
    else c :: indentLines false cs

def literalBlock (text : String) : String :=
  let cs := text.toList
  "|" ++ String.ofList (indentMark cs ++ (chompingFor cs).mark) ++ "\n" ++
    String.ofList (indentLines true cs)

end TestFocus.Yaml
