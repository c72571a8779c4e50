import TestFocus.Pattern.Escape

namespace TestFocus.Pattern

-- A class that has been read, and how deep it nests: each bracket, each list of several members and
-- each operation is a level.
structure NestedSet where
  chars : CharSet
  depth : Nat
deriving Repr, DecidableEq, Inhabited

inductive SetOperation where
  | intersection
  | difference
  | symmetricDifference
deriving Repr, DecidableEq, Inhabited

def SetOperation.apply : SetOperation → CharSet → CharSet → CharSet
  | intersection => CharSet.inter
  | difference => CharSet.diff
  | symmetricDifference => CharSet.symmDiff

-- An operation that is written twice, such as `&&`.
def operation? : List Char → Option (SetOperation × List Char)
  | '&' :: '&' :: rest => some (.intersection, rest)
  | '-' :: '-' :: rest => some (.difference, rest)
  | '~' :: '~' :: rest => some (.symmetricDifference, rest)
  | _ => none

-- What has been read of a class: the members since the last operation, their number and depth, and
-- the left side of that operation.
structure OpenClass where
  members : CharSet := .empty
  count : Nat := 0
  depth : Nat := 0
  left : Option (SetOperation × NestedSet) := none
deriving Repr, DecidableEq, Inhabited

namespace OpenClass

def add (c : OpenClass) (s : CharSet) (depth : Nat) : OpenClass :=
  { c with members := c.members.union s, count := c.count + 1, depth := max c.depth depth }

-- The set so far. Both sides of an operation are taken in either case if case is ignored.
def close (w : Switches) (c : OpenClass) : NestedSet :=
  let right : NestedSet := ⟨c.members, if c.count < 2 then c.depth else c.depth + 1⟩
  match c.left with
  | none => right
  | some (op, left) =>
    ⟨op.apply (w.folded left.chars) (w.folded right.chars), max left.depth right.depth + 1⟩

def addOperation (w : Switches) (c : OpenClass) (op : SetOperation) : OpenClass :=
  { left := some (op, c.close w) }

end OpenClass

-- A single member; conditions have no place in a class.
def classMember (w : Switches) : List Char → Option (Escape × List Char)
  | [] => none
  | '\\' :: rest =>
    match escape w rest with
    | some (.look _, _) | none => none
    | some read => some read
  | c :: rest => some (.literal c false, rest)

-- Without Unicode the members are ASCII characters.
def memberChar? (w : Switches) (c : Char) : Option Char :=
  if w.isUnicode || c.toNat < 0x80 then some c else none

def memberSet? (w : Switches) : Escape → Option CharSet
  | .literal c _ => (memberChar? w c).map .single
  | .set s => some s
  | .look _ => none

-- The next character that counts. After a number sign that is the first one of the comment.
def firstSolid (inComment : Bool) : List Char → Option Char
  | [] => none
  | c :: cs =>
    if Text.isSpace c then firstSolid inComment cs
    else if !inComment && c == '#' then firstSolid true cs
    else some c

def peekSolid (w : Switches) (cs : List Char) : Option Char :=
  if w.ignoresSpace then (firstSolid false cs).or cs.head? else cs.head?

-- A member or a range of members. A minus sign in front of the closing bracket or of another minus
-- sign does not form a range.
def classItem (w : Switches) (cs : List Char) : Option (CharSet × List Char) :=
  (classMember w cs).bind fun (first, rest) =>
    match skip w.ignoresSpace rest with
    | [] => none
    | '-' :: rest =>
      if peekSolid w rest = some ']' || peekSolid w rest = some '-' then
        (memberSet? w first).map (·, '-' :: rest)
      else match first, classMember w (skip w.ignoresSpace rest) with
        | .literal low _, some (.literal high _, rest) =>
          (memberChar? w low).bind fun low => (memberChar? w high).bind fun high =>
            if low ≤ high then some (.range low high, rest) else none
        | _, _ => none
    | rest => (memberSet? w first).map (·, rest)

-- An ASCII class after its opening bracket, such as `:alpha:]`. Anything else is no such class.
def asciiMember? (cs : List Char) : Option (CharSet × Bool × List Char) :=
  match cs with
  | ':' :: rest =>
    let (isNegated, rest) := match rest with
      | '^' :: rest => (true, rest)
      | _ => (false, rest)
    match rest.dropWhile (· != ':') with
    | ':' :: ']' :: after => (asciiClass? (rest.takeWhile (· != ':'))).map (·, isNegated, after)
    | _ => none
  | _ => none

-- The members up to the closing bracket. Every member takes a character, so the number of
-- characters left is always enough.
def classItems (w : Switches) (nested : List Char → Option (NestedSet × List Char)) :
    Nat → OpenClass → List Char → Option (NestedSet × List Char)
  | 0, _, _ => none
  | rounds + 1, c, cs =>
    match skip w.ignoresSpace cs with
    | [] => none
    | ']' :: rest => some (c.close w, rest)
    | '[' :: rest =>
      match asciiMember? rest with
      | some (s, isNegated, rest) =>
        (w.complemented? isNegated (w.folded s)).bind fun s =>
          classItems w nested rounds (c.add s 0) rest
      | none =>
        (nested rest).bind fun (inner, rest) =>
          classItems w nested rounds (c.add inner.chars inner.depth) rest
    | cs =>
      match operation? cs with
      | some (op, rest) => classItems w nested rounds (c.addOperation w op) rest
      | none =>
        (classItem w cs).bind fun (s, rest) => classItems w nested rounds (c.add s 0) rest

-- Minus signs right after the opening are members; there has to be more after them.
def leadingMinus (w : Switches) : Nat → OpenClass → List Char → OpenClass × List Char
  | 0, c, cs => (c, cs)
  | rounds + 1, c, cs =>
    match cs with
    | '-' :: rest => leadingMinus w rounds (c.add (.single '-') 0) (skip w.ignoresSpace rest)
    | _ => (c, cs)

-- A closing bracket as the very first member is a member.
def classStart (w : Switches) (cs : List Char) : OpenClass × List Char :=
  match leadingMinus w cs.length {} cs with
  | (c, ']' :: rest) =>
    if c.count = 0 then (c.add (.single ']') 0, skip w.ignoresSpace rest) else (c, ']' :: rest)
  | read => read

-- A class after its opening bracket. `depth` bounds the nesting.
def classWithin (w : Switches) : Nat → List Char → Option (NestedSet × List Char)
  | 0, _ => none
  | depth + 1, cs =>
    let (isNegated, cs) := match skip w.ignoresSpace cs with
      | '^' :: rest => (true, skip w.ignoresSpace rest)
      | cs => (false, cs)
    let (c, cs) := classStart w cs
    (classItems w (classWithin w depth) (cs.length + 1) c cs).bind fun (set, rest) =>
      (w.complemented? isNegated (w.folded set.chars)).map fun s => (⟨s, set.depth + 1⟩, rest)

end TestFocus.Pattern
