import TestFocus.Pattern.Bracket
import TestFocus.Pattern.Size

namespace TestFocus.Pattern

-- A part of a pattern and how deep it nests. A part that only sets switches cannot be repeated.
structure Piece where
  pattern : Pattern
  depth : Nat := 0
  isRepeatable : Bool := true
deriving Repr, DecidableEq, Inhabited

-- The text to be read, the switches in force and the names given to groups so far.
structure Reading where
  rest : List Char
  switches : Switches := {}
  names : List (List Char) := []
deriving Repr, DecidableEq, Inhabited

namespace Reading

def skip (r : Reading) : Reading :=
  { r with rest := Pattern.skip r.switches.ignoresSpace r.rest }

-- Past the next character, and past what may be skipped after it.
def next (r : Reading) : Reading :=
  { r with rest := Pattern.skip r.switches.ignoresSpace (r.rest.drop 1) }

end Reading

-- Without Unicode a byte beyond ASCII is no character.
def literal? (w : Switches) (c : Char) (isByte : Bool) : Option Pattern :=
  if !w.isUnicode && isByte && 0x80 ≤ c.toNat then none
  else some (.char (w.folded (.single c)))

-- Without Unicode the dot would take bytes that are no characters.
def dot? (w : Switches) : Option Pattern :=
  if !w.isUnicode then none
  else if w.dotTakesAll then some (.char .all)
  else if w.anyReturn then some (.char (CharSet.ofLines ["A D"]).complement)
  else some (.char (CharSet.single '\n').complement)

-- A class, an escape, an anchor, a dot or a literal.
def single? (w : Switches) : List Char → Option (Piece × List Char)
  | [] => none
  | c :: rest =>
    match c with
    | '[' =>
      (classWithin w 252 rest).map fun (s, rest) =>
        ({ pattern := .char s.chars, depth := s.depth }, rest)
    | '\\' =>
      (escape w rest).bind fun (e, rest) =>
        match e with
        | .literal c isByte => (literal? w c isByte).map fun p => ({ pattern := p }, rest)
        | .set s => some ({ pattern := .char s }, rest)
        | .look condition => some ({ pattern := .look condition }, rest)
    | '.' => (dot? w).map fun p => ({ pattern := p }, rest)
    | '^' =>
      let start := if w.isMultiLine then Look.lineStart w.anyReturn else .textStart
      some ({ pattern := .look start }, rest)
    | '$' =>
      some ({ pattern := .look (if w.isMultiLine then .lineEnd w.anyReturn else .textEnd) }, rest)
    | c => (literal? w c false).map fun p => ({ pattern := p }, rest)

def countLimit : Nat := Nat.pow 2 32

-- A decimal number below the limit, spaces around it ignored.
def count (ignoresSpace : Bool) (cs : List Char) : Option (Nat × List Char) :=
  let cs := cs.dropWhile Text.isSpace
  let (digits, rest) := takeSpaced ignoresSpace Text.isAsciiDigit cs.length cs
  let (_, rest) := takeSpaced ignoresSpace Text.isSpace rest.length rest
  let value := digits.foldl (fun n d => 10 * n + (d.toNat - '0'.toNat)) 0
  if digits.isEmpty || countLimit ≤ value then none else some (value, rest)

-- `m}`, `m,}` or `m,n}` after the opening brace: the least number and how many more are allowed.
def bounds (ignoresSpace : Bool) (cs : List Char) : Option ((Nat × Option Nat) × List Char) :=
  (count ignoresSpace (skip ignoresSpace cs)).bind fun (least, rest) =>
    match rest with
    | '\x7d' :: rest => some ((least, some 0), rest)
    | ',' :: rest =>
      match skip ignoresSpace rest with
      | '\x7d' :: rest => some ((least, none), rest)
      | rest =>
        (count ignoresSpace rest).bind fun (most, rest) =>
          match rest with
          | '\x7d' :: rest =>
            if least ≤ most then some ((least, some (most - least)), rest) else none
          | _ => none
    | _ => none

-- A question mark makes a repetition lazy, which does not change whether there is a match.
def dropLazy : List Char → List Char
  | '?' :: rest => rest
  | cs => cs

def repetition (ignoresSpace : Bool) (cs : List Char) : Option ((Nat × Option Nat) × List Char) :=
  match cs with
  | '*' :: rest => some ((0, none), dropLazy rest)
  | '+' :: rest => some ((1, none), dropLazy rest)
  | '?' :: rest => some ((0, some 1), dropLazy rest)
  | '\x7b' :: rest =>
    (bounds ignoresSpace rest).map fun (range, rest) => (range, dropLazy (skip ignoresSpace rest))
  | _ => none

def isRepetitionMark (c : Char) : Bool :=
  c == '*' || c == '+' || c == '?' || c == '\x7b'

-- The letters of the switches. Greediness has no bearing on whether there is a match.
def setSwitch? (on : Bool) (w : Switches) (letter : Char) : Option Switches :=
  match letter with
  | 'i' => some { w with ignoresCase := on }
  | 'm' => some { w with isMultiLine := on }
  | 's' => some { w with dotTakesAll := on }
  | 'U' => some w
  | 'u' => some { w with isUnicode := on }
  | 'R' => some { w with anyReturn := on }
  | 'x' => some { w with ignoresSpace := on }
  | _ => none

-- Letters that are switched on and, after a hyphen, letters that are switched off.
def setSwitches (w : Switches) (on off : List Char) : Option Switches :=
  (on.foldlM (setSwitch? true) w).bind fun w => off.foldlM (setSwitch? false) w

def isDistinct : List Char → Bool
  | [] => true
  | c :: cs => !cs.contains c && isDistinct cs

-- Letters up to a colon or a closing parenthesis. No letter stands there twice, and one at least
-- comes after a hyphen.
def switches (w : Switches) (cs : List Char) : Option (Switches × Bool × List Char) :=
  let isEnd := fun c => c == ':' || c == ')'
  let letters := cs.takeWhile fun c => !isEnd c
  let on := letters.takeWhile (· != '-')
  let off := letters.drop (on.length + 1)
  if on.length + 1 = letters.length || !isDistinct (on ++ off) then none
  else match cs.dropWhile (fun c => !isEnd c) with
    | [] => none
    | c :: rest => (setSwitches w on off).map (·, c == ':', rest)

-- Letters, digits and a few other characters make a name, which begins with a letter or underscore.
def isNameChar (isFirst : Bool) (c : Char) : Bool :=
  c == '_' || Unicode.alphabetic.contains c ||
    (!isFirst && (c == '.' || c == '[' || c == ']' || (Unicode.categoryGroup 'N').contains c))

def isName : List Char → Bool
  | [] => false
  | c :: cs => isNameChar true c && cs.all (isNameChar false)

-- What an opening parenthesis begins: a change of switches for what follows, or a group with its
-- own.
inductive GroupStart where
  | change (w : Switches)
  | plain (w : Switches)
  | kept (name : Option (List Char))
deriving Repr, DecidableEq, Inhabited

def groupName (cs : List Char) : Option (GroupStart × List Char) :=
  let name := cs.takeWhile (· != '>')
  match cs.dropWhile (· != '>') with
  | _ :: rest => if isName name then some (.kept (some name), rest) else none
  | [] => none

-- The text after an opening parenthesis. Conditions on what stands around a match in the form of
-- patterns are not supported.
def groupStart (w : Switches) (cs : List Char) : Option (GroupStart × List Char) :=
  match skip w.ignoresSpace cs with
  | '?' :: '=' :: _ => none
  | '?' :: '!' :: _ => none
  | '?' :: '<' :: '=' :: _ => none
  | '?' :: '<' :: '!' :: _ => none
  | '?' :: 'P' :: '<' :: rest => groupName rest
  | '?' :: '<' :: rest => groupName rest
  | '?' :: ')' :: _ => none
  | '?' :: rest =>
    (switches w rest).map fun (w, isGroup, rest) => (if isGroup then .plain w else .change w, rest)
  | rest => some (.kept none, rest)

-- The alternatives inside of parentheses, in front of the closing one.
abbrev GroupReader := Reading → Option (Piece × Reading)

-- A group or a change of switches, from after the opening parenthesis on. Names are given once, and
-- switches set inside of a group end with it.
def readGroup (inner : GroupReader) (r : Reading) : Option (Piece × Reading) :=
  (groupStart r.switches r.rest).bind fun (start, rest) =>
    let within := fun (w : Switches) (names : List (List Char)) =>
      (inner { rest, switches := w, names }).bind fun (p, after) =>
        match after.rest with
        | ')' :: rest => some (p, { rest, switches := r.switches, names := after.names })
        | _ => none
    match start with
    | .change w =>
      some ({ pattern := .empty, isRepeatable := false }, { r with rest, switches := w })
    | .plain w =>
      (within w r.names).map fun (p, r) => ({ pattern := p.pattern, depth := p.depth + 1 }, r)
    | .kept name =>
      if name.any r.names.contains then none
      else (within r.switches (name.toList ++ r.names)).map fun (p, r) =>
        ({ pattern := .group p.pattern, depth := p.depth + 1 }, r)

-- The pieces up to a bar or a closing parenthesis, last first. A repetition mark applies to the
-- piece before it and there must be one. Every piece takes a character.
def pieces (inner : GroupReader) : Nat → List Piece → Reading → Option (List Piece × Reading)
  | 0, _, _ => none
  | rounds + 1, done, r =>
    let r := r.skip
    match r.rest with
    | [] => some (done, r)
    | c :: rest =>
      if c = ')' || c = '|' then some (done, r)
      else if c = '(' then
        (readGroup inner { r with rest }).bind fun (p, r) => pieces inner rounds (p :: done) r
      else if isRepetitionMark c then
        match done with
        | [] => none
        | p :: before =>
          if !p.isRepeatable then none
          else (repetition r.switches.ignoresSpace r.rest).bind fun ((least, more), rest) =>
            let p := { pattern := p.pattern.repeated least more, depth := p.depth + 1 }
            pieces inner rounds (p :: before) { r with rest }
      else
        (single? r.switches r.rest).bind fun (p, rest) =>
          pieces inner rounds (p :: done) { r with rest }

-- Several parts together are one level deeper.
def deepest (parts : List Piece) : Nat :=
  let depth := parts.foldl (fun d p => max d p.depth) 0
  if parts.length < 2 then depth else depth + 1

def sequenceOf (parts : List Piece) : Piece :=
  { pattern := sequence (parts.map (·.pattern)), depth := deepest parts }

-- Sequences separated by bars. Switches set in one of them last for the ones after it.
def branchList (inner : GroupReader) : Nat → Reading → Option (List Piece × Reading)
  | 0, _ => none
  | rounds + 1, r =>
    (pieces inner (r.rest.length + 1) [] r).bind fun (parts, r) =>
      match r.rest with
      | '|' :: rest =>
        (branchList inner rounds { r with rest }).map fun (others, r) =>
          (sequenceOf parts.reverse :: others, r)
      | _ => some ([sequenceOf parts.reverse], r)

-- `depth` bounds the nesting of groups.
def alternation : Nat → Reading → Option (Piece × Reading)
  | 0, _ => none
  | depth + 1, r =>
    (branchList (alternation depth) (r.rest.length + 1) r).map fun (parts, r) =>
      ({ pattern := alternatives (parts.map (·.pattern)), depth := deepest parts }, r)

def depthLimit : Nat := 250

-- `none` for a text that is no pattern, nests too deep or would need too large a machine.
def ofText? (text : String) : Option Pattern :=
  match alternation (depthLimit + 2) { rest := text.toList } with
  | some (p, r) =>
    if r.rest.isEmpty && p.depth ≤ depthLimit && p.pattern.fitsMachine then some p.pattern else none
  | none => none

end TestFocus.Pattern
