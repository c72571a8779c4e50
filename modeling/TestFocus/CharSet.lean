namespace TestFocus

structure CharSet where
  ranges : List (Nat × Nat)
deriving Repr, DecidableEq, Inhabited

namespace CharSet

def lastCode : Nat := 0x10FFFF

-- Puts a range behind ranges that start no later; `done` holds them last first.
def addRange (done : List (Nat × Nat)) (r : Nat × Nat) : List (Nat × Nat) :=
  match done with
  | (low, high) :: before =>
    if r.1 ≤ high + 1 then (low, max high r.2) :: before else r :: done
  | [] => [r]

-- The ranges may come in any order and overlap.
def ofRanges (rs : List (Nat × Nat)) : CharSet :=
  ⟨((rs.mergeSort fun r s => r.1 ≤ s.1).foldl addRange []).reverse⟩

def empty : CharSet := ⟨[]⟩

def range (low high : Char) : CharSet :=
  ⟨[(low.toNat, high.toNat)]⟩

def single (c : Char) : CharSet :=
  range c c

def all : CharSet :=
  ⟨[(0, lastCode)]⟩

-- Ranges are in ascending order: beyond the first that starts later there is nothing to find.
def containsCode (n : Nat) : List (Nat × Nat) → Bool
  | [] => false
  | (low, high) :: rest => low ≤ n && (n ≤ high || containsCode n rest)

def contains (s : CharSet) (c : Char) : Bool :=
  containsCode c.toNat s.ranges

def union (a b : CharSet) : CharSet :=
  ofRanges (a.ranges ++ b.ranges)

def unions (sets : List CharSet) : CharSet :=
  ofRanges (sets.flatMap (·.ranges))

-- The gaps between ranges from a code point on.
def gaps (start : Nat) : List (Nat × Nat) → List (Nat × Nat)
  | [] => if start ≤ lastCode then [(start, lastCode)] else []
  | (low, high) :: rest =>
    if start < low then (start, low - 1) :: gaps (high + 1) rest else gaps (high + 1) rest

def complement (s : CharSet) : CharSet :=
  ⟨gaps 0 s.ranges⟩

def inter (a b : CharSet) : CharSet :=
  (a.complement.union b.complement).complement

def diff (a b : CharSet) : CharSet :=
  a.inter b.complement

-- In exactly one of the two.
def symmDiff (a b : CharSet) : CharSet :=
  (a.union b).diff (a.inter b)

def isAscii (s : CharSet) : Bool :=
  s.ranges.all fun r => r.2 < 0x80

-- Written ranges are hexadecimal code points, such as `41-5A` for a range, `AA` for one
-- character and `100-12E/2` for every second one.
def hexValue (c : Char) : Nat :=
  if '0' ≤ c && c ≤ '9' then c.toNat - '0'.toNat else c.toNat - 'A'.toNat + 10

structure WrittenRange where
  low : Nat := 0
  high : Nat := 0
  isPair : Bool := false
  isAlternating : Bool := false

namespace WrittenRange

def addChar (r : WrittenRange) (c : Char) : WrittenRange :=
  if c == '-' then { r with isPair := true }
  else if c == '/' then { r with isAlternating := true }
  else if r.isAlternating then r
  else if r.isPair then { r with high := 16 * r.high + hexValue c }
  else { r with low := 16 * r.low + hexValue c }

def codes (r : WrittenRange) : List (Nat × Nat) :=
  if r.isAlternating then
    (List.range ((r.high - r.low) / 2 + 1)).map fun i => (r.low + 2 * i, r.low + 2 * i)
  else if r.isPair then [(r.low, r.high)]
  else [(r.low, r.low)]

end WrittenRange

-- The ranges of a line; `word` is what has been read of the next one.
def readLine (word : Option WrittenRange) : List Char → List (Nat × Nat)
  | [] => (word.map (·.codes)).getD []
  | c :: cs =>
    if c == ' ' then (word.map (·.codes)).getD [] ++ readLine none cs
    else readLine (some ((word.getD {}).addChar c)) cs

def ofLines (lines : List String) : CharSet :=
  ofRanges (lines.flatMap fun line => readLine none line.toList)

end CharSet

end TestFocus
