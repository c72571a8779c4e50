import TestFocus.Yaml.Gap
import TestFocus.Yaml.Scalar

namespace TestFocus.Yaml

-- Each reader starts behind the opening quote and returns the text after the closing one. `read`
-- holds the characters so far, last first. A document mark between the quotes is refused.
def singleQuotedFrom (read : List Char) (gap : Gap) : List Placed → Option (String × List Placed)
  | [] => none
  | p :: rest =>
    if isBlank p.char || isBreak p.char then singleQuotedFrom read (gap.push p.char) rest
    else if isDocumentMark (p :: rest) then none
    else
      let read := gap.text.reverse ++ read
      if p.char == '\x27' then
        match rest with
        | q :: after =>
          if q.char == '\x27' then singleQuotedFrom ('\x27' :: read) .empty after
          else some (String.ofList read.reverse, q :: after)
        | [] => some (String.ofList read.reverse, [])
      else singleQuotedFrom (p.char :: read) .empty rest

-- What a letter after a backslash stands for.
def letterEscapes : List (Char × Char) :=
  [('0', '\x00'), ('a', '\x07'), ('b', '\x08'), ('t', '\t'), ('\t', '\t'), ('n', '\n'),
   ('v', '\x0b'), ('f', '\x0c'), ('r', '\r'), ('e', '\x1b'), (' ', ' '), ('"', '"'), ('/', '/'),
   ('\\', '\\'), ('N', '\u0085'), ('_', '\u00a0'), ('L', '\u2028'), ('P', '\u2029')]

-- The number of hexadecimal digits after a letter that gives a code point.
def escapeWidth (letter : Char) : Nat :=
  if letter == 'x' then 2 else if letter == 'u' then 4 else if letter == 'U' then 8 else 0

def codePoint? (digits : List Char) : Option Char :=
  (natInBase? 16 digits).bind fun n => if Nat.isValidChar n then some (Char.ofNat n) else none

-- The character that a letter with its digits stands for.
def escaped? (letter : Char) (digits : List Char) : Option Char :=
  if escapeWidth letter = 0 then letterEscapes.lookup letter
  else if digits.length < escapeWidth letter then none
  else codePoint? digits

def doubleQuotedFrom (read : List Char) (gap : Gap) :
    List Placed → Option (String × List Placed)
  | [] => none
  | p :: rest =>
    if isBlank p.char || isBreak p.char then doubleQuotedFrom read (gap.push p.char) rest
    else if isDocumentMark (p :: rest) then none
    else
      let read := gap.text.reverse ++ read
      if p.char == '"' then some (String.ofList read.reverse, rest)
      else if p.char == '\\' then
        match rest with
        | [] => none
        | q :: after =>
          if isBreak q.char then doubleQuotedFrom read (.broken none []) after
          else
            let width := escapeWidth q.char
            match escaped? q.char ((after.take width).map (·.char)) with
            | some c => doubleQuotedFrom (c :: read) .empty (after.drop width)
            | none => none
      else doubleQuotedFrom (p.char :: read) .empty rest
termination_by cs => cs.length
decreasing_by all_goals simp; all_goals omega

def isQuote (c : Char) : Bool :=
  c == '"' || c == '\x27'

-- A scalar from its opening quote on.
def readQuoted : List Placed → Option (String × List Placed)
  | [] => none
  | p :: rest =>
    if p.char == '"' then doubleQuotedFrom [] .empty rest
    else if p.char == '\x27' then singleQuotedFrom [] .empty rest
    else none

-- The lines after the first are indented, and so is the closing quote where it opens a line;
-- `atStart` tells that a line starts here.
def singleQuotedLines (atStart : Bool) : List Char → List Char
  | [] => if atStart then [' ', ' '] else []
  | c :: cs =>
    if isBreak c then c :: singleQuotedLines true cs
    else
      let written := if c == '\x27' then ['\x27', '\x27'] else [c]
      if atStart then ' ' :: ' ' :: (written ++ singleQuotedLines false cs)
      else written ++ singleQuotedLines false cs

def singleQuoted (text : String) : String :=
  "'" ++ String.ofList (singleQuotedLines false text.toList) ++ "'"

-- Can the character stand in a document as it is?
def isWritable (c : Char) : Bool :=
  c == '\n' || (0x20 ≤ c.toNat && c.toNat ≤ 0x7E) || (0xA0 ≤ c.toNat && c.toNat ≤ 0xD7FF) ||
    (0xE000 ≤ c.toNat && c.toNat ≤ 0xFFFD && c.toNat != 0xFEFF) || 0x10000 ≤ c.toNat

-- The characters that are always written by a letter.
def escapeLetters : List (Char × Char) :=
  [('\x00', '0'), ('\x07', 'a'), ('\x08', 'b'), ('\t', 't'), ('\n', 'n'), ('\x0b', 'v'),
   ('\x0c', 'f'), ('\r', 'r'), ('\x1b', 'e'), ('"', '"'), ('\\', '\\'), ('\u0085', 'N'),
   ('\u2028', 'L'), ('\u2029', 'P')]

-- The last `width` hexadecimal digits, in upper case.
def hexDigits (width n : Nat) : List Char :=
  (List.range width).reverse.map fun i => (Nat.digitChar (n / Nat.pow 16 i % 16)).toUpper

-- A character between double quotes: by its letter, as it is, or by its code point.
def escapeChar (c : Char) : List Char :=
  match escapeLetters.lookup c with
  | some letter => ['\\', letter]
  | none =>
    if isWritable c then [c]
    else if c.toNat ≤ 0xFF then ['\\', 'x'] ++ hexDigits 2 c.toNat
    else ['\\', 'u'] ++ hexDigits 4 c.toNat

def doubleQuoted (text : String) : String :=
  "\"" ++ String.ofList (text.toList.flatMap escapeChar) ++ "\""

end TestFocus.Yaml
