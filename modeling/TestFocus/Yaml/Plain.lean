import TestFocus.Yaml.Gap
import TestFocus.Yaml.Scalar

namespace TestFocus.Yaml

-- Characters that cannot open a plain scalar.
def openingIndicators : List Char :=
  ['#', ',', '[', ']', '\x7b', '\x7d', '&', '*', '!', '|', '>', '\x27', '"', '%', '@', '\x60']

-- Characters that end a plain scalar inside of braces.
def flowIndicators : List Char :=
  [',', '[', ']', '\x7b', '\x7d']

def isGapChar (c : Char) : Bool :=
  isBlank c || isBreak c

-- Can a plain scalar open with `c` in front of `next`? A hyphen, a question mark and a colon can
-- where no gap follows them, and inside of braces only the hyphen can.
def opensPlain (inBraces : Bool) (c : Char) (next : Option Char) : Bool :=
  if c == '-' then !next.all isGapChar
  else if c == '?' || c == ':' then !inBraces && !next.all isGapChar
  else !isGapChar c && !openingIndicators.contains c

-- Does a plain scalar end in front of `p`, which comes after a gap?
def endsAfterGap (inBraces : Bool) (indent : Nat) (p : Placed) (rest : List Placed) : Bool :=
  p.char == '#' || (!inBraces && p.column < indent) || isDocumentMark (p :: rest)

-- The rest of a plain scalar whose lines stand at least `indent` deep, and the text after it; also
-- whether a line end was crossed on the way there. `read` holds the characters so far, last first.
-- A tab in place of the indentation is refused, and so is a colon in front of a character that has
-- a meaning inside of the braces.
def plainFrom (inBraces : Bool) (indent : Nat) (read : List Char) (gap : Gap) :
    List Placed → Option (String × Bool × List Placed)
  | [] => some (String.ofList read.reverse, gap.isBroken, [])
  | p :: rest =>
    if isBlank p.char then
      if p.char == '\t' && gap.isBroken && p.column < indent then none
      else plainFrom inBraces indent read (gap.push p.char) rest
    else if isBreak p.char then plainFrom inBraces indent read (gap.push p.char) rest
    else if !gap.isEmpty && endsAfterGap inBraces indent p rest then
      some (String.ofList read.reverse, gap.isBroken, p :: rest)
    else if inBraces && p.char == ':' && startsWithAny ('?' :: flowIndicators) rest then none
    else if (p.char == ':' && atGap rest) || (inBraces && flowIndicators.contains p.char) then
      some (String.ofList read.reverse, gap.isBroken, p :: rest)
    else plainFrom inBraces indent (p.char :: (gap.text.reverse ++ read)) .empty rest

def readPlain (inBraces : Bool) (indent : Nat) (cs : List Placed) :
    Option (String × Bool × List Placed) :=
  plainFrom inBraces indent [] .empty cs

-- No colon in front of a blank, and no number sign after one.
def continuesPlain (before : Char) : List Char → Bool
  | [] => true
  | c :: rest =>
    !(c == ':' && rest.head?.all isGapChar) && !(c == '#' && isGapChar before) &&
      continuesPlain c rest

def isMarker (text : String) : Bool :=
  Text.startsWith text "---" || Text.startsWith text "..."

-- Would the text, written plainly on one line, be read as the same text?
def readsBackPlain (text : String) : Bool :=
  match text.toList with
  | [] => false
  | c :: rest =>
    !isAmbiguous text && !isMarker text && !(c :: rest).any isBreak &&
      !Text.endsWithChar text ' ' && opensPlain false c rest.head? && continuesPlain c rest

end TestFocus.Yaml
