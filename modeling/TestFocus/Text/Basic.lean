namespace TestFocus.Text

-- The code points with the Unicode property White_Space: 25 in all.
def spaces : List Nat :=
  [0x9, 0xA, 0xB, 0xC, 0xD, 0x20, 0x85, 0xA0, 0x1680,
   0x2000, 0x2001, 0x2002, 0x2003, 0x2004, 0x2005, 0x2006, 0x2007, 0x2008, 0x2009, 0x200A,
   0x2028, 0x2029, 0x202F, 0x205F, 0x3000]

def isSpace (c : Char) : Bool :=
  spaces.contains c.toNat

def isAsciiDigit (c : Char) : Bool :=
  '0' ≤ c && c ≤ '9'

def isAsciiLetter (c : Char) : Bool :=
  ('a' ≤ c && c ≤ 'z') || ('A' ≤ c && c ≤ 'Z')

def isAsciiAlphanumeric (c : Char) : Bool :=
  isAsciiDigit c || isAsciiLetter c

-- `dropEndWhile p cs` removes the longest suffix of `cs` whose characters all satisfy `p`.
def dropEndWhile (p : Char → Bool) (cs : List Char) : List Char :=
  (cs.reverse.dropWhile p).reverse

def trimStart (s : String) : String :=
  String.ofList (s.toList.dropWhile isSpace)

def trimEnd (s : String) : String :=
  String.ofList (dropEndWhile isSpace s.toList)

def trim (s : String) : String :=
  String.ofList (dropEndWhile isSpace (s.toList.dropWhile isSpace))

-- Removes every leading and every trailing occurrence of one character.
def trimChar (c : Char) (s : String) : String :=
  String.ofList (dropEndWhile (· == c) (s.toList.dropWhile (· == c)))

def trimStartChar (c : Char) (s : String) : String :=
  String.ofList (s.toList.dropWhile (· == c))

def trimEndChar (c : Char) (s : String) : String :=
  String.ofList (dropEndWhile (· == c) s.toList)

def startsWith (s start : String) : Bool :=
  start.toList.isPrefixOf s.toList

def startsWithChar (s : String) (c : Char) : Bool :=
  s.toList.head? == some c

def endsWithChar (s : String) (c : Char) : Bool :=
  s.toList.getLast? == some c

-- What follows `start` in `s`, if `s` begins with it.
def afterStart? (s start : String) : Option String :=
  (start.toList.isPrefixOf? s.toList).map String.ofList

def isInfixOf (part : List Char) : List Char → Bool
  | [] => part.isEmpty
  | c :: cs => part.isPrefixOf (c :: cs) || isInfixOf part cs

def containsText (s part : String) : Bool :=
  isInfixOf part.toList s.toList

-- The part before the first character satisfying `p` and the part from it on; `none` when no
-- character does.
def splitAtFirst? (p : Char → Bool) (cs : List Char) : Option (List Char × List Char) :=
  if cs.any p then some (cs.takeWhile (fun c => !p c), cs.dropWhile (fun c => !p c)) else none

-- The maximal runs of characters that are not spaces; `word` is the run being read, last
-- character first.
def wordsFrom (word : List Char) : List Char → List String
  | [] => if word.isEmpty then [] else [String.ofList word.reverse]
  | c :: cs =>
    if isSpace c then
      if word.isEmpty then wordsFrom [] cs else String.ofList word.reverse :: wordsFrom [] cs
    else wordsFrom (c :: word) cs

def words (s : String) : List String :=
  wordsFrom [] s.toList

-- A line ends with a line feed, and a carriage return directly before that belongs to the line end.
-- Text after the last line feed is a line of its own, taken as it is; `line` holds the characters
-- of the line being read, last first.
def linesFrom (line : List Char) : List Char → List String
  | [] => if line.isEmpty then [] else [String.ofList line.reverse]
  | c :: cs =>
    if c = '\n' then
      let whole := match line with
        | '\r' :: before => before
        | other => other
      String.ofList whole.reverse :: linesFrom [] cs
    else linesFrom (c :: line) cs

def lines (s : String) : List String :=
  linesFrom [] s.toList

-- Number of bytes of the UTF-8 encoding.
def byteLength : List Char → Nat
  | [] => 0
  | c :: cs => c.utf8Size + byteLength cs

def dropBytes : Nat → List Char → List Char
  | 0, cs => cs
  | _ + 1, [] => []
  | n + 1, c :: cs => dropBytes (n + 1 - c.utf8Size) cs

def takeBytes : Nat → List Char → List Char
  | 0, _ => []
  | _ + 1, [] => []
  | n + 1, c :: cs => c :: takeBytes (n + 1 - c.utf8Size) cs

-- The text between two byte offsets that lie on character boundaries.
def slice (s : String) (start stop : Nat) : String :=
  String.ofList (takeBytes (stop - start) (dropBytes start s.toList))

-- Replaces the first occurrence of one character.
def replaceFirst (old new : Char) : List Char → List Char
  | [] => []
  | c :: cs => if c = old then new :: cs else c :: replaceFirst old new cs

end TestFocus.Text
