import TestFocus.Pattern.Basic

-- The size of a pattern: the memory that a matching machine for it takes, in bytes. A machine is
-- made of states that read one byte of the UTF-8 encoding each, or none; patterns whose machine
-- would be too large are refused. There are two machines, one that reads forwards and marks the
-- kept parts, and one that reads backwards. Alternatives with a common front are counted in
-- full, so close to the limit a pattern may be refused here that the library accepts.

namespace TestFocus

-- One range for each byte of an encoding.
abbrev ByteSequence := List (Nat × Nat)

-- The lead byte and the continuation bytes of a code point of known width.
def utf8Bytes (n : Nat) : List Nat :=
  if n < 0x80 then [n]
  else if n < 0x800 then [0xC0 + n / 64, 0x80 + n % 64]
  else if n < 0x10000 then [0xE0 + n / 4096, 0x80 + n / 64 % 64, 0x80 + n % 64]
  else [0xF0 + n / 262144, 0x80 + n / 4096 % 64, 0x80 + n / 64 % 64, 0x80 + n % 64]

-- The last code point in front of which a range is to be cut: surrogates are no characters,
-- encodings of different width are kept apart, and a byte may vary only if all bytes after it vary
-- freely.
def widthCut? (low high : Nat) : Option Nat :=
  [0x7F, 0x7FF, 0xD7FF, 0xDFFF, 0xFFFF].find? fun last => low ≤ last && last < high

def blockCut? (low high : Nat) : Option Nat :=
  [64, 4096, 262144].findSome? fun block =>
    if low / block = high / block then none
    else if low % block ≠ 0 then some (low / block * block + (block - 1))
    else if high % block ≠ block - 1 then some (high / block * block - 1)
    else none

-- A part is cut at most five times for its width and twice for each of the three block sizes.
def byteSequencesFrom : Nat → Nat → Nat → List ByteSequence
  | 0, _, _ => []
  | cuts + 1, low, high =>
    let cut := (widthCut? low high).or (if high < 0x80 then none else blockCut? low high)
    match cut with
    | some last => byteSequencesFrom cuts low last ++ byteSequencesFrom cuts (last + 1) high
    | none =>
      if 0xD800 ≤ low && high ≤ 0xDFFF then []
      else [(utf8Bytes low).zip (utf8Bytes high)]

def CharSet.byteSequences (s : CharSet) : List ByteSequence :=
  s.ranges.flatMap fun (low, high) => byteSequencesFrom 12 low high

def commonLength : ByteSequence → ByteSequence → Nat
  | r :: rs, t :: ts => if r = t then commonLength rs ts + 1 else 0
  | _, _ => 0

-- The number of different beginnings among sequences in ascending order.
def beginnings (before : ByteSequence) : List ByteSequence → Nat
  | [] => 0
  | s :: rest => (s.length - commonLength before s) + beginnings s rest

def stateBytes : Nat := 32

-- A choice between states, and a choice between byte ranges.
def branchBytes : Nat := 4

def rangeBytes : Nat := 8

-- Sequences by their first range.
def byFirst : List ByteSequence → List ((Nat × Nat) × List ByteSequence)
  | [] => []
  | [] :: rest => byFirst rest
  | (r :: rs) :: rest =>
    match byFirst rest with
    | (t, group) :: groups =>
      if t = r then (t, rs :: group) :: groups else (r, [rs]) :: (t, group) :: groups
    | [] => [(r, [rs])]

-- The states of a forward machine: each is told by the sequences that it still has to read, so
-- equal ends are shared. No encoding has more than four bytes.
def forwardStates : Nat → List (List ByteSequence) → List (List ByteSequence)
  | 0, _ => []
  | width + 1, states =>
    let states := (states.filter fun s => s.any fun bytes => !bytes.isEmpty).eraseDups
    states ++ forwardStates width (states.flatMap fun s => (byFirst s).map (·.2))

def CharSet.forwardBytes (s : CharSet) : Nat :=
  (forwardStates 4 [s.byteSequences]).eraseDups.foldl
    (fun total state => total + stateBytes + rangeBytes * (byFirst state).length) stateBytes

-- A backward machine shares the lead bytes only.
def CharSet.backwardBytes (s : CharSet) : Nat :=
  let sequences := s.byteSequences
  2 * stateBytes + branchBytes * sequences.length + stateBytes * beginnings [] sequences

inductive Direction where
  | forward
  | backward
deriving Repr, DecidableEq, Inhabited

-- One character takes a state for each byte, and a set of ASCII characters one choice between
-- ranges.
def CharSet.machineBytes (direction : Direction) (s : CharSet) : Nat :=
  match s.ranges with
  | [(low, high)] =>
    if low = high then stateBytes * (utf8Bytes low).length
    else ofRange
  | _ => ofRange
where
  ofRange : Nat :=
    if s.isAscii then 2 * stateBytes + rangeBytes * s.ranges.length
    else match direction with
      | .forward => s.forwardBytes
      | .backward => s.backwardBytes

namespace Pattern

def canBeEmpty : Pattern → Bool
  | empty => true
  | char s => s.ranges.isEmpty
  | look _ => true
  | seq a b => canBeEmpty a && canBeEmpty b
  | alt a b => canBeEmpty a || canBeEmpty b
  | times p least _ => least = 0 || canBeEmpty p
  | group p => canBeEmpty p

def choiceBytes : Nat := stateBytes + 2 * branchBytes

-- The size of a repetition, from that of what is repeated: it is copied as often as it may occur.
def timesBytes (size : Nat) (isEmptyable : Bool) (least : Nat) : Option Nat → Nat
  | none =>
    if least = 0 then
      if isEmptyable then size + 2 * choiceBytes + stateBytes else size + choiceBytes
    else least * size + choiceBytes
  | some more =>
    if more = 0 then least * size
    else if least = 0 && more = 1 then size + choiceBytes + stateBytes
    else
      (if least = 0 then stateBytes else least * size) + stateBytes + more * (size + choiceBytes)

-- `isBranch` tells that the pattern is a branch of a choice, which is one state for all branches.
def machineBytes (direction : Direction) (isBranch : Bool) : Pattern → Nat
  | empty => (if isBranch then branchBytes else 0) + stateBytes
  | char s => (if isBranch then branchBytes else 0) + s.machineBytes direction
  | look _ => (if isBranch then branchBytes else 0) + stateBytes
  | seq a b =>
    (if isBranch then branchBytes else 0) + machineBytes direction false a +
      machineBytes direction false b
  | alt a b =>
    (if isBranch then 0 else 2 * stateBytes) + machineBytes direction true a +
      machineBytes direction true b
  | times p least more =>
    (if isBranch then branchBytes else 0) +
      timesBytes (machineBytes direction false p) (canBeEmpty p) least more
  | group p =>
    (if isBranch then branchBytes else 0) + machineBytes direction false p +
      (match direction with
       | .forward => 2 * stateBytes
       | .backward => 0)

-- Ten megabytes for each machine, with the states that skip to the start of a match and that end
-- it.
def byteLimit : Nat := 10485760

def frameBytes : Nat := 6 * stateBytes + 2 * branchBytes + rangeBytes

def fitsMachine (p : Pattern) : Bool :=
  frameBytes + machineBytes .backward false p ≤ byteLimit &&
    frameBytes + machineBytes .forward false p ≤ byteLimit

end Pattern

end TestFocus
