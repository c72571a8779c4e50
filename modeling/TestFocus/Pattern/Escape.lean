import TestFocus.Pattern.Basic
import TestFocus.Pattern.Class

namespace TestFocus.Pattern

-- The switches that a pattern can set for what follows.
structure Switches where
  ignoresCase : Bool := false
  isMultiLine : Bool := false
  dotTakesAll : Bool := false
  isUnicode : Bool := true
  anyReturn : Bool := false
  ignoresSpace : Bool := false
deriving Repr, DecidableEq, Inhabited

-- Skips blanks and comments; a comment lasts to the end of its line.
def dropSpaces (inComment : Bool) : List Char → List Char
  | [] => []
  | c :: cs =>
    if inComment then dropSpaces (c != '\n') cs
    else if Text.isSpace c then dropSpaces false cs
    else if c == '#' then dropSpaces true cs
    else c :: cs

def skip (ignoresSpace : Bool) (cs : List Char) : List Char :=
  if ignoresSpace then dropSpaces false cs else cs

-- The characters that satisfy a test, up to `n` of them, with what may be skipped after each.
def takeSpaced (ignoresSpace : Bool) (test : Char → Bool) : Nat → List Char → List Char × List Char
  | 0, cs => ([], cs)
  | _, [] => ([], [])
  | n + 1, c :: cs =>
    if test c then
      let (taken, rest) := takeSpaced ignoresSpace test n (skip ignoresSpace cs)
      (c :: taken, rest)
    else ([], c :: cs)

-- An escape stands for a character, for a set of characters or for a condition. A character written
-- with two hexadecimal digits may stand for a byte.
inductive Escape where
  | literal (c : Char) (isByte : Bool)
  | set (s : CharSet)
  | look (condition : Look)
deriving Repr, DecidableEq, Inhabited

-- ASCII characters other than letters, digits and angle brackets stand for themselves when escaped.
def isEscapable (c : Char) : Bool :=
  c.toNat < 0x80 && !Text.isAsciiAlphanumeric c && c != '<' && c != '>'

def isHexDigit (c : Char) : Bool :=
  Text.isAsciiDigit c || ('a' ≤ c && c ≤ 'f') || ('A' ≤ c && c ≤ 'F')

def hexDigitValue (c : Char) : Nat :=
  if Text.isAsciiDigit c then c.toNat - '0'.toNat else c.toUpper.toNat - 'A'.toNat + 10

-- At least one digit, and the number is that of a character.
def hexChar? (digits : List Char) : Option Char :=
  let n := digits.foldl (fun n d => 16 * n + hexDigitValue d) 0
  if !digits.isEmpty && Nat.isValidChar n then some (Char.ofNat n) else none

-- The character after `x`, `u` or `U`: `width` digits, or any number of them in braces.
def hexEscape (w : Switches) (width : Nat) (cs : List Char) : Option (Escape × List Char) :=
  match skip w.ignoresSpace cs with
  | '\x7b' :: rest =>
    let rest := skip w.ignoresSpace rest
    let (digits, rest) := takeSpaced w.ignoresSpace isHexDigit rest.length rest
    match rest with
    | '\x7d' :: rest => (hexChar? digits).map fun c => (.literal c false, skip w.ignoresSpace rest)
    | _ => none
  | rest =>
    let (digits, rest) := takeSpaced w.ignoresSpace isHexDigit width rest
    if digits.length < width then none
    else (hexChar? digits).map fun c => (.literal c (width = 2), rest)

-- The set with its letters in either case, as far as case is ignored.
def Switches.folded (w : Switches) (s : CharSet) : CharSet :=
  if !w.ignoresCase then s
  else if w.isUnicode then Unicode.foldCase s
  else Unicode.foldAsciiCase s

-- Without Unicode a complement would hold bytes that are no characters.
def Switches.complemented? (w : Switches) (isNegated : Bool) (s : CharSet) : Option CharSet :=
  if !isNegated then some s
  else if w.isUnicode then some s.complement
  else none

-- The property after `p` or `P`: one letter, or a query in braces.
def propertyEscape (w : Switches) (isNegated : Bool) (cs : List Char) :
    Option (Escape × List Char) :=
  let query := match skip w.ignoresSpace cs with
    | '\x7b' :: rest =>
      let rest := skip w.ignoresSpace rest
      let (query, rest) := takeSpaced w.ignoresSpace (· != '\x7d') rest.length rest
      if rest.isEmpty then none else some (query, rest.drop 1)
    | c :: rest => if c == '\\' then none else some ([c], skip w.ignoresSpace rest)
    | [] => none
  query.bind fun (name, rest) =>
    if !w.isUnicode then none
    else (propertyChars? name).bind fun s =>
      (w.complemented? isNegated (w.folded s)).map fun s => (.set s, rest)

def letterEscape (w : Switches) (c : LetterClass) (isNegated : Bool) : Option Escape :=
  (w.complemented? isNegated (if w.isUnicode then c.chars else c.asciiChars)).map .set

def boundaryNames : List (String × WordBoundary) :=
  [("start", .start), ("end", .stop), ("start-half", .startHalf), ("end-half", .stopHalf)]

-- After `b` a name in braces may tell a special boundary. A brace with anything else than a letter
-- or a hyphen after it begins a repetition.
def boundaryEscape (w : Switches) (cs : List Char) : Option (Escape × List Char) :=
  let boundary := fun kind => Escape.look (.word kind !w.isUnicode)
  let isNameChar := fun c => Text.isAsciiLetter c || c == '-'
  match cs with
  | '\x7b' :: rest =>
    let rest := skip w.ignoresSpace rest
    if rest.isEmpty then none
    else if !rest.head?.any isNameChar then some (boundary .boundary, cs)
    else
      let (name, rest) := takeSpaced w.ignoresSpace isNameChar rest.length rest
      match rest with
      | '\x7d' :: rest =>
        (boundaryNames.lookup (String.ofList name)).map fun kind => (boundary kind, rest)
      | _ => none
  | _ => some (boundary .boundary, cs)

-- What a backslash begins, from the character after it on.
def escape (w : Switches) : List Char → Option (Escape × List Char)
  | [] => none
  | c :: rest =>
    let word := fun kind => some (Escape.look (.word kind !w.isUnicode), rest)
    let literal := fun c => some (Escape.literal c false, rest)
    match c with
    | 'd' => (letterEscape w .digit false).map (·, rest)
    | 'D' => (letterEscape w .digit true).map (·, rest)
    | 's' => (letterEscape w .space false).map (·, rest)
    | 'S' => (letterEscape w .space true).map (·, rest)
    | 'w' => (letterEscape w .word false).map (·, rest)
    | 'W' => (letterEscape w .word true).map (·, rest)
    | 'p' => propertyEscape w false rest
    | 'P' => propertyEscape w true rest
    | 'x' => hexEscape w 2 rest
    | 'u' => hexEscape w 4 rest
    | 'U' => hexEscape w 8 rest
    | 'A' => some (.look .textStart, rest)
    | 'z' => some (.look .textEnd, rest)
    | 'b' => boundaryEscape w rest
    | 'B' => word .inside
    | '<' => word .start
    | '>' => word .stop
    | 'a' => literal '\x07'
    | 'f' => literal '\x0c'
    | 't' => literal '\t'
    | 'n' => literal '\n'
    | 'r' => literal '\r'
    | 'v' => literal '\x0b'
    | c => if isEscapable c then literal c else none

end TestFocus.Pattern
