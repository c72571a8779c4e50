import TestFocus.Yaml.Place

-- Gaps inside of a scalar: the blanks and line ends between two of its characters. Blanks on one
-- line are kept. Where the gap crosses a line end it is folded: the blanks are dropped, a single
-- line feed reads as a space, and of several the first one is dropped.

namespace TestFocus.Yaml

inductive Gap where
  -- blanks of one line, last first
  | blanks (read : List Char)
  -- the line end that came first, unless it was escaped, and those after it, last first
  | broken (first : Option Char) (more : List Char)
deriving Repr, DecidableEq, Inhabited

namespace Gap

def empty : Gap := .blanks []

def isEmpty : Gap → Bool
  | blanks read => read.isEmpty
  | broken _ _ => false

def isBroken : Gap → Bool
  | blanks _ => false
  | broken _ _ => true

-- Adds a blank or a line end.
def push (c : Char) : Gap → Gap
  | blanks read => if isBreak c then broken (some c) [] else blanks (c :: read)
  | broken first more => if isBreak c then broken first (c :: more) else broken first more

-- What the gap stands for.
def text : Gap → List Char
  | blanks read => read.reverse
  | broken (some '\n') [] => [' ']
  | broken (some '\n') more => more.reverse
  | broken first more => first.toList ++ more.reverse

end Gap

end TestFocus.Yaml
