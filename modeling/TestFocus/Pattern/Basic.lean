import TestFocus.Text.Basic
import TestFocus.Unicode.Property

-- Search patterns over names and types. Compiling them is the business of a library that is not
-- part of this development; these patterns stand in for it so that an analysis can be run. The
-- searches see a pattern only as a predicate on names.
--
-- A pattern is matched against all positions of a text at once: the positions that a match of it
-- can start from are carried to the positions where one can end.

namespace TestFocus

-- What a position has to be relative to the words around it. A half boundary asks about one side
-- only.
inductive WordBoundary where
  | boundary
  | inside
  | start
  | stop
  | startHalf
  | stopHalf
deriving Repr, DecidableEq, Inhabited

-- A condition on the characters around a position. Line conditions may count a carriage return with
-- a line feed after it, or either of them alone, as the end of a line.
inductive Look where
  | textStart
  | textEnd
  | lineStart (anyReturn : Bool)
  | lineEnd (anyReturn : Bool)
  | word (kind : WordBoundary) (asciiOnly : Bool)
deriving Repr, DecidableEq, Inhabited

def isAsciiWordChar (c : Char) : Bool :=
  Text.isAsciiAlphanumeric c || c == '_'

namespace WordBoundary

-- Is there a word before the position, and is there one after it?
def holds (kind : WordBoundary) (before after : Bool) : Bool :=
  match kind with
  | boundary => before != after
  | inside => before == after
  | start => !before && after
  | stop => before && !after
  | startHalf => !before
  | stopHalf => !after

end WordBoundary

namespace Look

def holds (look : Look) (before after : Option Char) : Bool :=
  match look with
  | textStart => before.isNone
  | textEnd => after.isNone
  | lineStart false => before.all (· == '\n')
  | lineEnd false => after.all (· == '\n')
  | lineStart true => before.all (· == '\n') || (before = some '\r' && after ≠ some '\n')
  | lineEnd true => after.all (· == '\r') || (after = some '\n' && before ≠ some '\r')
  | word kind asciiOnly =>
    let isWord := if asciiOnly then isAsciiWordChar else Unicode.isWordChar
    kind.holds (before.any isWord) (after.any isWord)

end Look

inductive Pattern where
  | empty
  | char (set : CharSet)
  | look (condition : Look)
  | seq (a b : Pattern)
  | alt (a b : Pattern)
  -- at least `least` times, and up to `more` times beyond that; without bound for `none`
  | times (p : Pattern) (least : Nat) (more : Option Nat)
  -- a part of the match that is kept
  | group (p : Pattern)
deriving Repr, DecidableEq, Inhabited

namespace Pattern

-- A set of positions in a text of `n` characters: one entry for each of the `n + 1` places between
-- them.
abbrev Positions := List Bool

def join (a b : Positions) : Positions :=
  a.zipWith (· || ·) b

-- The positions whose neighbours satisfy a condition; `before` is the character in front of the
-- first one.
def keepWhere (condition : Option Char → Option Char → Bool) (before : Option Char) :
    List Char → Positions → Positions
  | c :: cs, x :: xs =>
    (x && condition before (some c)) :: keepWhere condition (some c) cs xs
  | [], x :: _ => [x && condition before none]
  | _, [] => []

-- One character further, where the character is in the set.
def advance (set : CharSet) (cs : List Char) (from_ : Positions) : Positions :=
  false :: cs.zipWith (fun c x => x && set.contains c) from_

def iterate (f : Positions → Positions) : Nat → Positions → Positions
  | 0, xs => xs
  | n + 1, xs => iterate f n (f xs)

-- Up to `n` further applications, as long as they add a position.
def extend (f : Positions → Positions) : Nat → Positions → Positions
  | 0, xs => xs
  | n + 1, xs =>
    let next := join xs (f xs)
    if next = xs then xs else extend f n next

-- The positions where a match that starts at one of the given positions can end. Without an upper
-- bound on repetitions, each round but the last adds a position, so their number bounds the rounds.
-- It also bounds the rounds that are due at least: among so many, one takes no character and can be
-- repeated or left out.
def ends (cs : List Char) : Pattern → Positions → Positions
  | empty, xs => xs
  | char set, xs => advance set cs xs
  | look condition, xs => keepWhere condition.holds none cs xs
  | seq a b, xs => ends cs b (ends cs a xs)
  | alt a b, xs => join (ends cs a xs) (ends cs b xs)
  | times p least more, xs =>
    extend (ends cs p) (more.getD (cs.length + 1))
      (iterate (ends cs p) (min least (cs.length + 1)) xs)
  | group p, xs => ends cs p xs

-- Does the pattern match somewhere in the text?
def isMatch (p : Pattern) (text : String) : Bool :=
  let cs := text.toList
  (ends cs p (List.replicate (cs.length + 1) true)).any id

def takesNothing : Pattern → Bool
  | empty => true
  | char _ => false
  | look _ => true
  | seq a b => takesNothing a && takesNothing b
  | alt a b => takesNothing a && takesNothing b
  | times p _ _ => takesNothing p
  | group p => takesNothing p

def join2 (a b : Pattern) : Pattern :=
  match a, b with
  | empty, b => b
  | a, empty => a
  | a, b => seq a b

def sequence (items : List Pattern) : Pattern :=
  items.foldr join2 empty

def charSet? : Pattern → Option CharSet
  | char set => some set
  | _ => none

def branches : List Pattern → Pattern
  | [] => char .empty
  | [p] => p
  | p :: rest => alt p (branches rest)

-- Without any branch, nothing matches.
def alternatives (ps : List Pattern) : Pattern :=
  match ps.mapM charSet? with
  | some sets => char (.unions sets)
  | none => branches ps

def repeated (p : Pattern) (least : Nat) (more : Option Nat) : Pattern :=
  let (least, more) :=
    if takesNothing p then (min least 1, some (if least = 0 then min 1 (more.getD 1) else 0))
    else (least, more)
  if least = 0 && more = some 0 then empty
  else if least = 1 && more = some 0 then p
  else times p least more

end Pattern

end TestFocus
