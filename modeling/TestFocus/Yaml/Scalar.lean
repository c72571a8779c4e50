import TestFocus.Text.Basic

namespace TestFocus.Yaml

-- How a scalar is written: plainly, between quotes, or as a block of lines that keeps or folds its
-- line ends.
inductive Style where
  | plain
  | quoted
  | literal
  | folded
deriving Repr, DecidableEq, Inhabited

structure Scalar where
  text : String
  style : Style
  tag : Option String
deriving Repr, DecidableEq, Inhabited

-- The scalar where nothing is written.
def Scalar.nothing : Scalar :=
  { text := "", style := .plain, tag := none }

def standardTag (name : String) : String :=
  "tag:yaml.org,2002:" ++ name

def nullWords : List String :=
  ["null", "Null", "NULL", "~"]

def truthWords : List String :=
  ["true", "True", "TRUE", "false", "False", "FALSE"]

-- The scalar in a place that may be left empty: `some none` if it stands for nothing. Only a plain
-- scalar can, and a tag says whether it does; one that has the tag of nothing without a word for it
-- is refused.
def Scalar.optional? (s : Scalar) : Option (Option Scalar) :=
  match s.style, s.tag with
  | .plain, none => some (if s.text.isEmpty || nullWords.contains s.text then none else some s)
  | .plain, some tag =>
    if tag != standardTag "null" then some (some s)
    else if nullWords.contains s.text then some none
    else none
  | _, _ => some (some s)

def digitValue (c : Char) : Nat :=
  if Text.isAsciiDigit c then c.toNat - '0'.toNat
  else if 'a' ≤ c && c ≤ 'z' then c.toNat - 'a'.toNat + 10
  else if 'A' ≤ c && c ≤ 'Z' then c.toNat - 'A'.toNat + 10
  else 36

-- At least one digit, all of them below the base.
def natInBase? (base : Nat) (cs : List Char) : Option Nat :=
  if cs.isEmpty || cs.any (fun c => base ≤ digitValue c) then none
  else some (cs.foldl (fun n c => base * n + digitValue c) 0)

-- Decimal digits after a leading zero are text.
def hasLeadingZero (digits : List Char) : Bool :=
  match digits with
  | '0' :: d :: ds => (d :: ds).all Text.isAsciiDigit
  | _ => false

-- A number in base 16, 8 or 2, or a decimal without leading zeros.
def magnitude? : List Char → Option Nat
  | '0' :: 'x' :: rest => natInBase? 16 rest
  | '0' :: 'o' :: rest => natInBase? 8 rest
  | '0' :: 'b' :: rest => natInBase? 2 rest
  | cs => if hasLeadingZero cs then none else natInBase? 10 cs

def unsigned? : List Char → Option Nat
  | '+' :: rest => magnitude? rest
  | cs => magnitude? cs

-- Plain scalars can be numbers, whatever their tag, and so can literal blocks that are tagged so.
def Scalar.isNumeric (s : Scalar) : Bool :=
  match s.style with
  | .plain => true
  | .literal => s.tag == some (standardTag "int")
  | _ => false

-- The value of a scalar that is a number from zero up.
def Scalar.nat? (s : Scalar) : Option Nat :=
  if s.isNumeric then unsigned? s.text.toList else none

def wholeLimit : Nat := Nat.pow 2 128

def negativeLimit : Nat := Nat.pow 2 127

-- Reads as a whole number, with or without a sign.
def isWhole : List Char → Bool
  | '-' :: rest => (magnitude? rest).any (· ≤ negativeLimit)
  | cs => (unsigned? cs).any (· < wholeLimit)

-- The digits of the coefficient and the power of ten of its last digit.
structure Decimal where
  coefficient : Nat
  exponent : Int
deriving Repr, DecidableEq, Inhabited

def exponent? : List Char → Option Int
  | [] => some 0
  | c :: rest =>
    if c == 'e' || c == 'E' then
      match rest with
      | '+' :: ds => (natInBase? 10 ds).map Int.ofNat
      | '-' :: ds => (natInBase? 10 ds).map fun n => -Int.ofNat n
      | ds => (natInBase? 10 ds).map Int.ofNat
    else none

-- Digits with a point anywhere among them, at least one digit, and an optional exponent.
def decimal? (cs : List Char) : Option Decimal :=
  let whole := cs.takeWhile Text.isAsciiDigit
  let rest := cs.dropWhile Text.isAsciiDigit
  let (fraction, rest) := match rest with
    | '.' :: rest => (rest.takeWhile Text.isAsciiDigit, rest.dropWhile Text.isAsciiDigit)
    | _ => ([], rest)
  (exponent? rest).bind fun e =>
    (natInBase? 10 (whole ++ fraction)).map fun coefficient =>
      { coefficient, exponent := e - Int.ofNat fraction.length }

-- Rounds to a number below the largest binary fraction of double precision: below the midpoint
-- between that and the next power of two.
def Decimal.isFinite (d : Decimal) : Bool :=
  let bound := Nat.pow 2 1024 - Nat.pow 2 970
  match d.exponent with
  | .ofNat e =>
    d.coefficient = 0 || (e ≤ 400 && d.coefficient * Nat.pow 10 e < bound)
  | .negSucc e =>
    let digits := (Nat.toDigits 10 d.coefficient).length
    digits ≤ 300 + e || d.coefficient < bound * Nat.pow 10 (e + 1)

def dropSign : List Char → List Char
  | '+' :: rest => rest
  | '-' :: rest => rest
  | cs => cs

def infinityWords : List String :=
  [".inf", ".Inf", ".INF"]

-- Reads as a number with a fraction or an exponent, as an infinity or as no number at all.
def isFractional (text : String) : Bool :=
  [".nan", ".NaN", ".NAN"].contains text ||
    infinityWords.contains (String.ofList (dropSign text.toList)) ||
    (decimal? (dropSign text.toList)).any (·.isFinite)

-- Would the text, written plainly, be read as something other than text?
def isAmbiguous (text : String) : Bool :=
  text.isEmpty || nullWords.contains text || truthWords.contains text ||
    isWhole text.toList || hasLeadingZero (dropSign text.toList) || isFractional text

end TestFocus.Yaml
