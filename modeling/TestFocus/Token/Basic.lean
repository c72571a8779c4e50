namespace TestFocus

-- A word is a keyword, a number or a name with its sigil, quoted names and character strings with
-- their leading `c` included; a string is a free-standing quoted text; every other character that
-- is neither blank nor part of a comment is a punctuation token of its own.
inductive TokenKind where
  | word
  | string
  | punct
deriving Repr, DecidableEq, Inhabited

-- `start` and `stop` are byte offsets into the text the token was read from.
structure Token where
  kind : TokenKind
  text : String
  start : Nat
  stop : Nat
deriving Repr, DecidableEq, Inhabited

namespace Token

def isWord (t : Token) : Bool :=
  t.kind == .word

def isPunct (t : Token) (text : String) : Bool :=
  t.kind == .punct && t.text == text

end Token

end TestFocus
